import AsyncRpc.Rpc
import Mathlib.Logic.Function.Basic
import Mathlib.Data.List.Nodup

/-! The duplicate filter of the server: what `rep_window_mu_` guards. -/
namespace AsyncRpc

/-- `RpcServer::State`, the verdict on a request. -/
inductive State where
  | new | inprogress | done | forgotten
  deriving DecidableEq, Repr

structure ReplyT (β : Type) where
  xid : Nat
  cbPresent : Bool
  buf : β
  deriving DecidableEq

/-- `ReplyT(xid)`: no reply yet, and the empty string for its bytes. -/
def ReplyT.fresh {β : Type} (empty : β) (xid : Nat) : ReplyT β := ⟨xid, false, empty⟩

/-- `reply_window_` and `max_ackowledged_rep_`. The second is only read through
`operator[]`, so an absent client counts as 0. -/
structure DupFilter (β : Type) where
  replyWindow : UInt32 → Option (List (ReplyT β)) := fun _ => none
  maxAckowledgedRep : UInt32 → Nat := fun _ => 0

namespace DupFilter

variable {β : Type}

/-- `reply_window_[clt_nonce]`. -/
def window (f : DupFilter β) (cltNonce : UInt32) : List (ReplyT β) :=
  (f.replyWindow cltNonce).getD []

/-- The first critical section of `Dispatch` on a request with a client nonce. -/
def createWindow (f : DupFilter β) (cltNonce : UInt32) : DupFilter β :=
  match f.replyWindow cltNonce with
  | none => { f with replyWindow := Function.update f.replyWindow cltNonce (some []) }
  | some _ => f

/-- The loop over the window, which stops at the first entry that is not below `xid`. -/
def scan (empty : β) (xid : Nat) : List (ReplyT β) → State × List (ReplyT β)
  | [] => (.new, [.fresh empty xid])
  | r :: rest =>
      if r.xid = xid then (if r.cbPresent then .done else .inprogress, r :: rest)
      else if r.xid > xid then (.new, .fresh empty xid :: r :: rest)
      else ((scan empty xid rest).1, r :: (scan empty xid rest).2)

/-- The scope guard: erase from the front up to the first unacknowledged entry. -/
def trim (ack : Nat) : List (ReplyT β) → List (ReplyT β)
  | [] => []
  | r :: rest => if r.xid ≤ ack then trim ack rest else r :: rest

def newAck (f : DupFilter β) (cltNonce : UInt32) (xidRep : Nat) : Nat :=
  if xidRep > f.maxAckowledgedRep cltNonce then xidRep else f.maxAckowledgedRep cltNonce

/-- The verdict and the window before the guard trims it. -/
def judge (empty : β) (f : DupFilter β) (cltNonce : UInt32) (xid xidRep : Nat) :
    State × List (ReplyT β) :=
  if xid ≤ f.newAck cltNonce xidRep then (.forgotten, f.window cltNonce)
  else scan empty xid (f.window cltNonce)

def checkDuplicateAndUpdate (empty : β) (f : DupFilter β) (cltNonce : UInt32)
    (xid xidRep : Nat) : State × DupFilter β :=
  ((judge empty f cltNonce xid xidRep).1,
    { replyWindow := Function.update f.replyWindow cltNonce
        (some (trim (f.newAck cltNonce xidRep) (judge empty f cltNonce xid xidRep).2))
      maxAckowledgedRep := Function.update f.maxAckowledgedRep cltNonce
        (f.newAck cltNonce xidRep) })

/-- The loop of `AddReply`; `none` when it runs off the end of the window. -/
def fill (xid : Nat) (buf : β) : List (ReplyT β) → Option (List (ReplyT β))
  | [] => none
  | r :: rest =>
      if r.xid = xid then some ({ r with cbPresent := true, buf := buf } :: rest)
      else (fill xid buf rest).map (r :: ·)

def addReply (f : DupFilter β) (cltNonce : UInt32) (xid : Nat) (buf : β) :
    Except Exn (DupFilter β) :=
  match f.replyWindow cltNonce with
  | none => .error (.runtimeError "add to on-existed reply")
  | some window =>
      match fill xid buf window with
      | none => .error (.runtimeError "unreachable")
      | some window' =>
          .ok { f with replyWindow := Function.update f.replyWindow cltNonce (some window') }

/-! What the three sections do, clients other than the one named being untouched. -/

@[simp] theorem createWindow_window (f : DupFilter β) (m n : UInt32) :
    (f.createWindow m).window n = f.window n := by
  unfold createWindow
  cases absent : f.replyWindow m with
  | some w => rfl
  | none =>
      by_cases same : n = m
      · subst same; simp [window, absent]
      · simp [window, Function.update_of_ne same]

@[simp] theorem createWindow_ack (f : DupFilter β) (m : UInt32) :
    (f.createWindow m).maxAckowledgedRep = f.maxAckowledgedRep := by
  unfold createWindow
  split <;> rfl

theorem newAck_eq_max (f : DupFilter β) (n : UInt32) (xidRep : Nat) :
    f.newAck n xidRep = max (f.maxAckowledgedRep n) xidRep := by
  unfold newAck
  split_ifs <;> omega

theorem check_ack (empty : β) (f : DupFilter β) (m n : UInt32) (xid xidRep : Nat) :
    (checkDuplicateAndUpdate empty f m xid xidRep).2.maxAckowledgedRep n =
      if n = m then max (f.maxAckowledgedRep n) xidRep else f.maxAckowledgedRep n := by
  by_cases same : n = m
  · subst same; simp [checkDuplicateAndUpdate, newAck_eq_max]
  · simp [checkDuplicateAndUpdate, same]

theorem check_window (empty : β) (f : DupFilter β) (m n : UInt32) (xid xidRep : Nat) :
    (checkDuplicateAndUpdate empty f m xid xidRep).2.window n =
      if n = m then trim (f.newAck m xidRep) (judge empty f m xid xidRep).2 else f.window n := by
  by_cases same : n = m
  · subst same; simp [checkDuplicateAndUpdate, window]
  · simp [checkDuplicateAndUpdate, window, same]

/-- Strictly ascending by xid, as both the early exit and the trim need it. -/
def Ascending (w : List (ReplyT β)) : Prop := w.Pairwise fun r s => r.xid < s.xid

theorem trim_eq_filter {w : List (ReplyT β)} (h : Ascending w) (ack : Nat) :
    trim ack w = w.filter fun r => decide (ack < r.xid) := by
  induction w with
  | nil => rfl
  | cons r rest ih =>
      have tail := List.pairwise_cons.mp h
      by_cases acked : r.xid ≤ ack
      · rw [trim, if_pos acked, List.filter_cons_of_neg (by simpa using acked), ih tail.2]
      · have above : ∀ s ∈ rest, ack < s.xid := fun s hs => by have := tail.1 s hs; omega
        rw [trim, if_neg acked, List.filter_cons_of_pos (by simpa using acked),
          List.filter_eq_self.mpr fun s hs => by simpa using above s hs]

/-- Trimming only takes acknowledged entries, whatever the order of the list. -/
theorem mem_trim_or_acked {w : List (ReplyT β)} {ack : Nat} {r : ReplyT β} (h : r ∈ w) :
    r ∈ trim ack w ∨ r.xid ≤ ack := by
  induction w with
  | nil => cases h
  | cons s rest ih =>
      by_cases acked : s.xid ≤ ack
      · rw [trim, if_pos acked]
        rcases List.mem_cons.mp h with rfl | later
        · exact .inr acked
        · exact ih later
      · rw [trim, if_neg acked]
        exact .inl h

theorem mem_of_mem_trim {w : List (ReplyT β)} {ack : Nat} {r : ReplyT β} (h : r ∈ trim ack w) :
    r ∈ w := by
  induction w with
  | nil => exact h
  | cons s rest ih =>
      rw [trim] at h
      split_ifs at h
      · exact List.mem_cons_of_mem s (ih h)
      · exact h

/-- What the scan can answer. An ascending window makes NEW mean "not in it". -/
inductive Scanned (empty : β) (xid : Nat) (w : List (ReplyT β)) : State → List (ReplyT β) → Prop
  | new (below above : List (ReplyT β)) (split : w = below ++ above)
      (less : ∀ r ∈ below, r.xid < xid) (more : ∀ r ∈ above.head?, xid < r.xid) :
      Scanned empty xid w .new (below ++ .fresh empty xid :: above)
  | done (r : ReplyT β) (member : r ∈ w) (same : r.xid = xid) (present : r.cbPresent = true) :
      Scanned empty xid w .done w
  | inprogress (r : ReplyT β) (member : r ∈ w) (same : r.xid = xid)
      (absent : r.cbPresent = false) : Scanned empty xid w .inprogress w

theorem scan_scanned (empty : β) (xid : Nat) (w : List (ReplyT β)) :
    Scanned empty xid w (scan empty xid w).1 (scan empty xid w).2 := by
  induction w with
  | nil => exact .new [] [] rfl (by simp) (by simp)
  | cons r rest ih =>
      by_cases same : r.xid = xid
      · cases present : r.cbPresent with
        | true =>
            simp only [scan, if_pos same, present, if_true]
            exact .done r List.mem_cons_self same present
        | false =>
            simp only [scan, if_pos same, present, Bool.false_eq_true, if_false]
            exact .inprogress r List.mem_cons_self same present
      · by_cases past : r.xid > xid
        · simp only [scan, if_neg same, if_pos past]
          exact .new [] (r :: rest) rfl (by simp) (by simpa using past)
        · simp only [scan, if_neg same, if_neg past]
          generalize (scan empty xid rest).1 = verdict at ih
          generalize (scan empty xid rest).2 = left at ih
          cases ih with
          | new below above split less more =>
              refine .new (r :: below) above (by rw [split]; rfl) ?_ more
              intro s hs
              rcases List.mem_cons.mp hs with rfl | later
              · omega
              · exact less s later
          | done s member same present =>
              exact .done s (List.mem_cons_of_mem r member) same present
          | inprogress s member same absent =>
              exact .inprogress s (List.mem_cons_of_mem r member) same absent

theorem ascending_iff {w : List (ReplyT β)} :
    Ascending w ↔ (w.map ReplyT.xid).Pairwise (· < ·) := by
  rw [List.pairwise_map]; rfl

theorem Ascending.trim {w : List (ReplyT β)} (h : Ascending w) (ack : Nat) :
    Ascending (trim ack w) := by
  rw [trim_eq_filter h]
  exact List.Pairwise.filter _ h

/-- The entry goes where the loop stopped, so the list stays strictly ascending. -/
theorem Scanned.ascending {empty : β} {xid : Nat} {w w' : List (ReplyT β)} {verdict : State}
    (h : Scanned empty xid w verdict w') (asc : Ascending w) : Ascending w' := by
  cases h with
  | done | inprogress => exact asc
  | new below above split less more =>
      subst split
      obtain ⟨ascBelow, ascAbove, across⟩ := List.pairwise_append.mp asc
      have past : ∀ r ∈ above, xid < r.xid := by
        cases above with
        | nil => simp
        | cons s rest =>
            have first : xid < s.xid := more s rfl
            intro r hr
            rcases List.mem_cons.mp hr with rfl | later
            · exact first
            · exact first.trans ((List.pairwise_cons.mp ascAbove).1 r later)
      refine List.pairwise_append.mpr ⟨ascBelow, List.pairwise_cons.mpr ⟨past, ascAbove⟩, ?_⟩
      intro r hr s hs
      rcases List.mem_cons.mp hs with rfl | later
      · exact less r hr
      · exact across r hr s later

theorem Scanned.new_absent {empty : β} {xid : Nat} {w w' : List (ReplyT β)}
    (h : Scanned empty xid w .new w') (asc : Ascending w) : ∀ r ∈ w, r.xid ≠ xid := by
  intro r hr same
  cases h with
  | new below above split less more =>
      subst split
      have asc' := Scanned.ascending (.new below above rfl less more : Scanned empty xid _ _ _) asc
      obtain ⟨_, ascMid, _⟩ := List.pairwise_append.mp asc'
      rcases List.mem_append.mp hr with low | high
      · exact absurd (less r low) (by omega)
      · exact absurd ((List.pairwise_cons.mp ascMid).1 r high) (by simp [ReplyT.fresh, same])

theorem Scanned.mem {empty : β} {xid : Nat} {w w' : List (ReplyT β)} {verdict : State}
    (h : Scanned empty xid w verdict w') {r : ReplyT β} :
    r ∈ w' ↔ r ∈ w ∨ (verdict = .new ∧ r = .fresh empty xid) := by
  cases h with
  | done | inprogress => simp
  | new below above split =>
      subst split
      simp only [List.mem_append, List.mem_cons, true_and]
      tauto

theorem scan_ne_forgotten (empty : β) (xid : Nat) (w : List (ReplyT β)) :
    (scan empty xid w).1 ≠ .forgotten := by
  intro forgotten
  have scanned := scan_scanned empty xid w
  rw [forgotten] at scanned
  cases scanned

/-! The filter as a whole. -/

/-- Every window is strictly ascending. -/
def Sorted (f : DupFilter β) : Prop := ∀ n, Ascending (f.window n)

/-- One entry an xid. -/
theorem Ascending.unique {w : List (ReplyT β)} (h : Ascending w) {r s : ReplyT β} (hr : r ∈ w)
    (hs : s ∈ w) (same : r.xid = s.xid) : r = s := by
  have distinct : (w.map ReplyT.xid).Nodup := (ascending_iff.mp h).imp Nat.ne_of_lt
  exact List.inj_on_of_nodup_map distinct hr hs same

/-- The filter still knows that `xid` was taken: by a live entry or by the mark. -/
def Covers (f : DupFilter β) (n : UInt32) (xid : Nat) : Prop :=
  xid ≤ f.maxAckowledgedRep n ∨ ∃ r ∈ f.window n, r.xid = xid

section Check

variable (empty : β) (f : DupFilter β) (m : UInt32) (xid xidRep : Nat)

theorem judge_ascending (h : f.Sorted) : Ascending (judge empty f m xid xidRep).2 := by
  unfold judge
  split_ifs
  · exact h m
  · exact (scan_scanned empty xid (f.window m)).ascending (h m)

theorem check_sorted (h : f.Sorted) : (checkDuplicateAndUpdate empty f m xid xidRep).2.Sorted := by
  intro n
  rw [check_window]
  split_ifs
  · exact (judge_ascending empty f m xid xidRep h).trim _
  · exact h n

theorem check_forgotten_iff : (checkDuplicateAndUpdate empty f m xid xidRep).1 = .forgotten ↔
    xid ≤ max (f.maxAckowledgedRep m) xidRep := by
  rw [← newAck_eq_max]
  simp only [checkDuplicateAndUpdate, judge]
  split_ifs with acked
  · simp [acked]
  · simp [acked, scan_ne_forgotten]

theorem judge_mem {r : ReplyT β} : r ∈ (judge empty f m xid xidRep).2 ↔ r ∈ f.window m ∨
    ((judge empty f m xid xidRep).1 = .new ∧ r = .fresh empty xid) := by
  unfold judge
  split_ifs
  · simp
  · exact (scan_scanned empty xid (f.window m)).mem

/-- No entry is lost unless acknowledged, and only a NEW verdict adds one. -/
theorem check_mem {r : ReplyT β} {n : UInt32}
    (h : r ∈ (checkDuplicateAndUpdate empty f m xid xidRep).2.window n) :
    r ∈ f.window n ∨ (n = m ∧ (checkDuplicateAndUpdate empty f m xid xidRep).1 = .new ∧
      r = .fresh empty xid) := by
  rw [check_window] at h
  split_ifs at h with same
  · subst same
    rcases (judge_mem empty f n xid xidRep).mp (mem_of_mem_trim h) with old | fresh
    · exact .inl old
    · exact .inr ⟨rfl, fresh⟩
  · exact .inl h

theorem check_keeps {r : ReplyT β} {n : UInt32} (h : r ∈ f.window n) :
    r ∈ (checkDuplicateAndUpdate empty f m xid xidRep).2.window n ∨
      r.xid ≤ (checkDuplicateAndUpdate empty f m xid xidRep).2.maxAckowledgedRep n := by
  rw [check_window, check_ack]
  by_cases same : n = m
  · subst same
    rw [if_pos rfl, if_pos rfl, newAck_eq_max]
    exact mem_trim_or_acked ((judge_mem empty f n xid xidRep).mpr (.inl h))
  · simp [same, h]

theorem check_ack_le (n : UInt32) : f.maxAckowledgedRep n ≤
    (checkDuplicateAndUpdate empty f m xid xidRep).2.maxAckowledgedRep n := by
  rw [check_ack]
  split_ifs <;> omega

theorem Covers.check {n : UInt32} {x : Nat} (h : f.Covers n x) :
    (checkDuplicateAndUpdate empty f m xid xidRep).2.Covers n x := by
  rcases h with acked | ⟨r, member, same⟩
  · exact .inl (acked.trans (check_ack_le empty f m xid xidRep n))
  · rcases check_keeps empty f m xid xidRep member with kept | acked
    · exact .inr ⟨r, kept, same⟩
    · exact .inl (same ▸ acked)

/-- A NEW verdict is the first for its xid: the filter did not know it before. -/
theorem check_new_fresh (h : f.Sorted)
    (new : (checkDuplicateAndUpdate empty f m xid xidRep).1 = .new) : ¬ f.Covers m xid := by
  simp only [checkDuplicateAndUpdate, judge] at new
  split_ifs at new with acked
  rw [newAck_eq_max] at acked
  have scanned := scan_scanned empty xid (f.window m)
  rw [new] at scanned
  rintro (old | ⟨r, member, same⟩)
  · omega
  · exact scanned.new_absent (h m) r member same

/-- After a NEW verdict the entry is in the window, so the xid is taken. -/
theorem check_new_entry (new : (checkDuplicateAndUpdate empty f m xid xidRep).1 = .new) :
    .fresh empty xid ∈ (checkDuplicateAndUpdate empty f m xid xidRep).2.window m := by
  have unacked : ¬ xid ≤ f.newAck m xidRep := by
    intro acked
    rw [newAck_eq_max, ← check_forgotten_iff empty f m xid xidRep, new] at acked
    cases acked
  rw [check_window, if_pos rfl]
  have member : .fresh empty xid ∈ (judge empty f m xid xidRep).2 :=
    (judge_mem empty f m xid xidRep).mpr (.inr ⟨new, rfl⟩)
  exact (mem_trim_or_acked member).resolve_right unacked

theorem check_new_covers (new : (checkDuplicateAndUpdate empty f m xid xidRep).1 = .new) :
    (checkDuplicateAndUpdate empty f m xid xidRep).2.Covers m xid :=
  .inr ⟨_, check_new_entry empty f m xid xidRep new, rfl⟩

/-- A DONE verdict hands out an entry that has a reply and outlives the trim. -/
theorem check_done_entry (done : (checkDuplicateAndUpdate empty f m xid xidRep).1 = .done) :
    ∃ r ∈ (checkDuplicateAndUpdate empty f m xid xidRep).2.window m,
      r.xid = xid ∧ r.cbPresent = true := by
  have unacked : ¬ xid ≤ f.newAck m xidRep := by
    intro acked
    rw [newAck_eq_max, ← check_forgotten_iff empty f m xid xidRep, done] at acked
    cases acked
  have scanned := scan_scanned empty xid (f.window m)
  simp only [checkDuplicateAndUpdate, judge, if_neg unacked] at done
  rw [done] at scanned
  rw [check_window, if_pos rfl, judge, if_neg unacked]
  generalize (scan empty xid (f.window m)).2 = left at scanned
  cases scanned with
  | done r member same present =>
      exact ⟨r, (mem_trim_or_acked member).resolve_right (by omega), same, present⟩

/-- An INPROGRESS verdict means that the entry has no reply yet. -/
theorem check_inprogress_entry
    (silent : (checkDuplicateAndUpdate empty f m xid xidRep).1 = .inprogress) :
    ∃ r ∈ f.window m, r.xid = xid ∧ r.cbPresent = false := by
  simp only [checkDuplicateAndUpdate, judge] at silent
  split_ifs at silent
  have scanned := scan_scanned empty xid (f.window m)
  rw [silent] at scanned
  generalize (scan empty xid (f.window m)).2 = left at scanned
  cases scanned with
  | inprogress r member same absent => exact ⟨r, member, same, absent⟩

end Check

/-! `AddReply` keeps the xids of every window and the marks. -/

theorem fill_spec {xid : Nat} {buf : β} {w w' : List (ReplyT β)} (h : fill xid buf w = some w') :
    w'.map ReplyT.xid = w.map ReplyT.xid ∧
      ∀ r ∈ w', r ∈ w ∨ (r.xid = xid ∧ r.cbPresent = true ∧ r.buf = buf) := by
  induction w generalizing w' with
  | nil => cases h
  | cons s rest ih =>
      by_cases here : s.xid = xid
      · rw [fill, if_pos here] at h
        cases h
        refine ⟨rfl, fun r hr => ?_⟩
        rcases List.mem_cons.mp hr with rfl | later
        · exact .inr ⟨here, rfl, rfl⟩
        · exact .inl (List.mem_cons_of_mem s later)
      · rw [fill, if_neg here] at h
        obtain ⟨rest', filled, rfl⟩ := Option.map_eq_some_iff.mp h
        obtain ⟨xids, entries⟩ := ih filled
        refine ⟨by simp [xids], fun r hr => ?_⟩
        rcases List.mem_cons.mp hr with rfl | later
        · exact .inl List.mem_cons_self
        · exact (entries r later).imp (List.mem_cons_of_mem s) id

theorem fill_present {xid : Nat} {buf : β} {w w' : List (ReplyT β)}
    (h : fill xid buf w = some w') : ∃ r ∈ w', r.xid = xid ∧ r.cbPresent = true ∧ r.buf = buf := by
  induction w generalizing w' with
  | nil => cases h
  | cons s rest ih =>
      by_cases here : s.xid = xid
      · rw [fill, if_pos here] at h
        cases h
        exact ⟨_, List.mem_cons_self, here, rfl, rfl⟩
      · rw [fill, if_neg here] at h
        obtain ⟨rest', filled, rfl⟩ := Option.map_eq_some_iff.mp h
        obtain ⟨r, member, found⟩ := ih filled
        exact ⟨r, List.mem_cons_of_mem s member, found⟩

theorem fill_absent {xid : Nat} {buf : β} {w : List (ReplyT β)} (h : fill xid buf w = none) :
    ∀ r ∈ w, r.xid ≠ xid := by
  induction w with
  | nil => simp
  | cons s rest ih =>
      by_cases here : s.xid = xid
      · rw [fill, if_pos here] at h
        cases h
      · rw [fill, if_neg here] at h
        intro r member
        rcases List.mem_cons.mp member with rfl | later
        · exact here
        · exact ih (Option.map_eq_none_iff.mp h) r later

section AddReply

variable {f f' : DupFilter β} {m : UInt32} {xid : Nat} {buf : β}

theorem addReply_spec (h : addReply f m xid buf = .ok f') :
    ∃ w', fill xid buf (f.window m) = some w' ∧
      f' = { f with replyWindow := Function.update f.replyWindow m (some w') } := by
  unfold addReply at h
  split at h
  · cases h
  · rename_i w present
    split at h
    · cases h
    · rename_i w' filled
      cases h
      exact ⟨w', by simpa [window, present] using filled, rfl⟩

theorem addReply_ack (h : addReply f m xid buf = .ok f') :
    f'.maxAckowledgedRep = f.maxAckowledgedRep := by
  obtain ⟨w', _, rfl⟩ := addReply_spec h
  rfl

theorem addReply_xids (h : addReply f m xid buf = .ok f') (n : UInt32) :
    (f'.window n).map ReplyT.xid = (f.window n).map ReplyT.xid := by
  obtain ⟨w', filled, rfl⟩ := addReply_spec h
  by_cases same : n = m
  · subst same; simpa [window] using (fill_spec filled).1
  · simp [window, same]

theorem addReply_mem (h : addReply f m xid buf = .ok f') {n : UInt32} {r : ReplyT β}
    (member : r ∈ f'.window n) :
    r ∈ f.window n ∨ (n = m ∧ r.xid = xid ∧ r.cbPresent = true ∧ r.buf = buf) := by
  obtain ⟨w', filled, rfl⟩ := addReply_spec h
  by_cases same : n = m
  · subst same
    have member : r ∈ w' := by simpa [window] using member
    exact ((fill_spec filled).2 r member).imp id fun found => ⟨rfl, found⟩
  · exact .inl (by simpa [window, same] using member)

theorem addReply_sorted (h : addReply f m xid buf = .ok f') (sorted : f.Sorted) : f'.Sorted := by
  intro n
  rw [ascending_iff, addReply_xids h n, ← ascending_iff]
  exact sorted n

theorem addReply_covers (h : addReply f m xid buf = .ok f') {n : UInt32} {x : Nat} :
    f'.Covers n x ↔ f.Covers n x := by
  have byXids : ∀ g : DupFilter β, (∃ r ∈ g.window n, r.xid = x) ↔
      x ∈ (g.window n).map ReplyT.xid := fun g => List.mem_map.symm
  unfold Covers
  rw [byXids, byXids, addReply_xids h n, addReply_ack h]

/-- The entry that took the reply. -/
theorem addReply_entry (h : addReply f m xid buf = .ok f') :
    ∃ r ∈ f'.window m, r.xid = xid ∧ r.cbPresent = true ∧ r.buf = buf := by
  obtain ⟨w', filled, rfl⟩ := addReply_spec h
  obtain ⟨r, member, found⟩ := fill_present filled
  exact ⟨r, by simpa [window] using member, found⟩

/-- The entry of a recorded reply is the only one of its xid. -/
theorem addReply_filled (h : addReply f m xid buf = .ok f') (sorted : f.Sorted) {r : ReplyT β}
    (member : r ∈ f'.window m) (same : r.xid = xid) : r.cbPresent = true ∧ r.buf = buf := by
  obtain ⟨s, here, xid', found⟩ := addReply_entry h
  exact (addReply_sorted h sorted m).unique here member (xid'.trans same.symm) ▸ found

/-- `AddReply` leaves the entries of other xids alone. -/
theorem addReply_keeps (ok : addReply f m xid buf = .ok f') (sorted : f.Sorted) {n : UInt32}
    {r : ReplyT β}
    (member : r ∈ f.window n) (other : ¬ (n = m ∧ r.xid = xid)) : r ∈ f'.window n := by
  have listed : r.xid ∈ (f'.window n).map ReplyT.xid := by
    rw [addReply_xids ok n]
    exact List.mem_map_of_mem member
  obtain ⟨r', member', same⟩ := List.mem_map.mp listed
  rcases addReply_mem ok member' with old | ⟨here, xid', _⟩
  · exact (sorted n).unique old member same ▸ member'
  · exact absurd ⟨here, same.symm.trans xid'⟩ other

theorem addReply_absent {e : Exn} (h : addReply f m xid buf = .error e) :
    ∀ r ∈ f.window m, r.xid ≠ xid := by
  unfold addReply at h
  cases known : f.replyWindow m with
  | none => simp [window, known]
  | some w =>
      rw [known] at h
      dsimp only at h
      split at h
      · rename_i absent
        simpa [window, known] using fill_absent absent
      · cases h

end AddReply

/-! An entry that is live: above the mark, so the next trim does not reach it. -/

def Live (f : DupFilter β) (n : UInt32) (x : Nat) : Prop :=
  f.maxAckowledgedRep n < x ∧ ∃ r ∈ f.window n, r.xid = x

theorem Live.createWindow {f : DupFilter β} {n : UInt32} {x : Nat} (h : f.Live n x) (m : UInt32) :
    (f.createWindow m).Live n x := by
  unfold Live at h ⊢
  rw [createWindow_window, createWindow_ack]
  exact h

theorem Live.check {f : DupFilter β} {n : UInt32} {x : Nat} (h : f.Live n x) (empty : β) (m : UInt32)
    (xid xidRep : Nat) (low : n = m → xidRep < x) :
    (checkDuplicateAndUpdate empty f m xid xidRep).2.Live n x := by
  obtain ⟨above, r, member, same⟩ := h
  have above' : (checkDuplicateAndUpdate empty f m xid xidRep).2.maxAckowledgedRep n < x := by
    rw [check_ack]
    split_ifs with here
    · exact Nat.max_lt.mpr ⟨above, low here⟩
    · exact above
  refine ⟨above', r, ?_, same⟩
  refine (check_keeps empty f m xid xidRep member).resolve_right fun acked => ?_
  rw [same] at acked
  exact absurd acked (Nat.not_le_of_lt above')

theorem check_above (empty : β) (f : DupFilter β) (m : UInt32) (xid xidRep : Nat)
    (kept : (checkDuplicateAndUpdate empty f m xid xidRep).1 ≠ .forgotten) :
    (checkDuplicateAndUpdate empty f m xid xidRep).2.maxAckowledgedRep m < xid := by
  rw [check_ack, if_pos rfl]
  exact Nat.lt_of_not_le fun acked => kept ((check_forgotten_iff empty f m xid xidRep).mpr acked)

/-- NEW and DONE are about a live entry. -/
theorem check_live (empty : β) (f : DupFilter β) (m : UInt32) (xid xidRep : Nat)
    (answered : (checkDuplicateAndUpdate empty f m xid xidRep).1 = .new ∨
      (checkDuplicateAndUpdate empty f m xid xidRep).1 = .done) :
    (checkDuplicateAndUpdate empty f m xid xidRep).2.Live m xid := by
  refine ⟨check_above empty f m xid xidRep ?_, ?_⟩
  · rcases answered with new | done
    · rw [new]; decide
    · rw [done]; decide
  · rcases answered with new | done
    · exact ⟨_, check_new_entry empty f m xid xidRep new, rfl⟩
    · obtain ⟨r, member, same, _⟩ := check_done_entry empty f m xid xidRep done
      exact ⟨r, member, same⟩

theorem Live.addReply {f f' : DupFilter β} {n m : UInt32} {x xid : Nat} {buf : β} (h : f.Live n x)
    (ok : DupFilter.addReply f m xid buf = .ok f') : f'.Live n x := by
  obtain ⟨above, r, member, rfl⟩ := h
  refine ⟨by rw [addReply_ack ok]; exact above, ?_⟩
  have listed : r.xid ∈ (f'.window n).map ReplyT.xid := by
    rw [addReply_xids ok n]
    exact List.mem_map_of_mem member
  exact List.mem_map.mp listed

/-- Where there is an entry, `AddReply` finds the window and the entry. -/
theorem addReply_ok {f : DupFilter β} {m : UInt32} {x : Nat} (buf : β)
    (h : ∃ r ∈ f.window m, r.xid = x) :
    (∃ w, f.replyWindow m = some w ∧ ∃ r ∈ w, r.xid = x) ∧ ∃ f', addReply f m x buf = .ok f' := by
  obtain ⟨r, member, same⟩ := h
  constructor
  · cases known : f.replyWindow m with
    | none => simp [window, known] at member
    | some w => exact ⟨w, rfl, r, by simpa [window, known] using member, same⟩
  · cases result : addReply f m x buf with
    | ok f' => exact ⟨f', rfl⟩
    | error e => exact absurd same (addReply_absent result r member)

theorem addReply_ok_iff {f : DupFilter β} {m : UInt32} {x : Nat} {buf : β} :
    (∃ f', addReply f m x buf = .ok f') ↔ ∃ r ∈ f.window m, r.xid = x := by
  constructor
  · rintro ⟨f', ok⟩
    obtain ⟨r, member, same, _⟩ := addReply_entry ok
    have listed : r.xid ∈ (f.window m).map ReplyT.xid := by
      rw [← addReply_xids ok m]
      exact List.mem_map_of_mem member
    obtain ⟨r', member', same'⟩ := List.mem_map.mp listed
    exact ⟨r', member', same'.trans same⟩
  · exact fun entry => (addReply_ok buf entry).2

end DupFilter

end AsyncRpc
