import AsyncRpc.Acknowledgement

/-! From the NEW verdict to `AddReply`: the entry waits for its reply, because a client
acknowledges only what was recorded. -/
namespace AsyncRpc
open Interleaving Transition

namespace DupFilter

variable {β : Type}

/-- The entry of `x` is in the window, above the mark, and has no reply. -/
def Awaits (f : DupFilter β) (n : UInt32) (x : Nat) : Prop :=
  f.maxAckowledgedRep n < x ∧ ∃ r ∈ f.window n, r.xid = x ∧ r.cbPresent = false

/-- The reply to `x` was recorded, and perhaps forgotten since. -/
def Recorded (f : DupFilter β) (n : UInt32) (x : Nat) : Prop :=
  x ≤ f.maxAckowledgedRep n ∨ ∃ r ∈ f.window n, r.xid = x ∧ r.cbPresent = true

variable {f f' : DupFilter β} {m n : UInt32} {x : Nat}

theorem Awaits.entry (h : f.Awaits n x) : ∃ r ∈ f.window n, r.xid = x := by
  obtain ⟨_, r, member, same, _⟩ := h
  exact ⟨r, member, same⟩

theorem Awaits.covers (h : f.Awaits n x) : f.Covers n x := .inr h.entry

theorem Awaits.not_recorded (h : f.Awaits n x) (sorted : f.Sorted) : ¬ f.Recorded n x := by
  obtain ⟨above, r, member, same, absent⟩ := h
  rintro (acked | ⟨r', member', same', present⟩)
  · exact absurd acked (Nat.not_le_of_lt above)
  · rw [(sorted n).unique member' member (same'.trans same.symm), absent] at present
    cases present

theorem Awaits.createWindow (h : f.Awaits n x) (m : UInt32) : (f.createWindow m).Awaits n x := by
  unfold Awaits at h ⊢
  rw [createWindow_window, createWindow_ack]
  exact h

theorem Recorded.createWindow (h : f.Recorded n x) (m : UInt32) :
    (f.createWindow m).Recorded n x := by
  unfold Recorded at h ⊢
  rw [createWindow_window, createWindow_ack]
  exact h

section Check

variable (empty : β) (xid xidRep : Nat)

/-- An entry that waits is not trimmed by an acknowledgement from below it. -/
theorem Awaits.check (h : f.Awaits n x) (low : n = m → xidRep < x) :
    (checkDuplicateAndUpdate empty f m xid xidRep).2.Awaits n x := by
  obtain ⟨above, r, member, same, absent⟩ := h
  have live : f.Live n x := ⟨above, r, member, same⟩
  have above' := (live.check empty m xid xidRep low).1
  refine ⟨above', r, ?_, same, absent⟩
  refine (check_keeps empty f m xid xidRep member).resolve_right fun acked => ?_
  rw [same] at acked
  exact absurd acked (Nat.not_le_of_lt above')

theorem Recorded.check (h : f.Recorded n x) :
    (checkDuplicateAndUpdate empty f m xid xidRep).2.Recorded n x := by
  rcases h with acked | ⟨r, member, same, present⟩
  · exact .inl (acked.trans (check_ack_le empty f m xid xidRep n))
  · rcases check_keeps empty f m xid xidRep member with kept | acked
    · exact .inr ⟨r, kept, same, present⟩
    · exact .inl (same ▸ acked)

theorem check_new_awaits (new : (checkDuplicateAndUpdate empty f m xid xidRep).1 = .new) :
    (checkDuplicateAndUpdate empty f m xid xidRep).2.Awaits m xid := by
  refine ⟨check_above empty f m xid xidRep ?_, _, check_new_entry empty f m xid xidRep new, rfl, rfl⟩
  rw [new]
  decide

end Check

variable {xid : Nat} {buf : β}

theorem Awaits.addReply (h : f.Awaits n x) (ok : addReply f m xid buf = .ok f')
    (sorted : f.Sorted) (other : ¬ (n = m ∧ x = xid)) : f'.Awaits n x := by
  obtain ⟨above, r, member, rfl, absent⟩ := h
  refine ⟨?_, r, addReply_keeps ok sorted member other, rfl, absent⟩
  rw [addReply_ack ok]
  exact above

theorem addReply_recorded (ok : addReply f m xid buf = .ok f') : f'.Recorded m xid := by
  obtain ⟨r, member, same, present, _⟩ := addReply_entry ok
  exact .inr ⟨r, member, same, present⟩

theorem Recorded.addReply (h : f.Recorded n x) (ok : addReply f m xid buf = .ok f')
    (sorted : f.Sorted) : f'.Recorded n x := by
  by_cases here : n = m ∧ x = xid
  · obtain ⟨rfl, rfl⟩ := here
    exact addReply_recorded ok
  · rcases h with acked | ⟨r, member, rfl, present⟩
    · exact .inl (by rw [addReply_ack ok]; exact acked)
    · exact .inr ⟨r, addReply_keeps ok sorted member here, rfl, present⟩

end DupFilter

namespace RpcServer

variable {S : Services} {ς : Type}

/-- What an activity relies on of the filter: its entry waits, and a reply goes out only
after it was recorded. -/
def Holding (nonceOf : ς → UInt32) (sv : RpcServer S ς) : ServerTask S ς → Prop
  | .invoke _ h _ | .running _ h _ | .record _ h _ => sv.filter.Awaits h.cltNonce h.xid
  | .send s _ buf _ => ∀ x, RpcClient.replyXid buf = some x → sv.filter.Recorded (nonceOf s) x
  | _ => True

/-- The connection and the call of a dispatch that comes to `AddReply`. -/
def recording : ServerTask S ς → Option (ς × UInt32 × Nat)
  | .record s h _ => some (s, h.cltNonce, h.xid)
  | _ => none

/-- How the clients behave: a connection carries the requests of one client, for this
instance, and no request acknowledges an xid whose reply is still being made. -/
structure Polite (Q : ς → S.Buf → Prop) (nonceOf : ς → UInt32) (sv : RpcServer S ς) : Prop where
  owner : ∀ s h req, Asked Q s h req → h.cltNonce = nonceOf s
  pos : ∀ s h req, Asked Q s h req → 0 < h.cltNonce
  current : ∀ s h req, Asked Q s h req → sv.Current h
  waits : ∀ s h req, Asked Q s h req → ∀ x, sv.filter.Awaits h.cltNonce x → h.xidRep < x

variable {Q : ς → S.Buf → Prop} {nonceOf : ς → UInt32} {sv sv' : RpcServer S ς}

theorem ReplyTo.replyXid {h : RequestHeader} {o : Origin} {buf : S.Buf}
    (reply : ReplyTo sv h o buf) : RpcClient.replyXid buf = some h.xid := by
  cases reply with
  | handled _ _ xid _ bytes =>
      rw [← xid]
      exact RpcClient.replyXid_reads (RpcClient.readReply_replyDoc bytes)
  | remembered _ _ xid _ bytes =>
      rw [← xid]
      exact RpcClient.replyXid_reads (RpcClient.readReply_replyDoc bytes)
  | oldServer | forgotten => exact RpcClient.replyXid_reads (RpcClient.readReply_errorDoc S _)

/-- A reply that is recorded under the xid in it. -/
theorem holding_send {s : ς} {h : RequestHeader} {o o' : Origin} {buf : S.Buf} {sent : Bool}
    (reply : ReplyTo sv h o buf) (owner : h.cltNonce = nonceOf s)
    (recorded : sv'.filter.Recorded h.cltNonce h.xid) :
    Holding nonceOf sv' (.send s o' buf sent) := by
  intro x same
  rw [reply.replyXid] at same
  cases same
  exact owner ▸ recorded

theorem acted_recorded [DecidableEq ς] {t : ServerTask S ς} {l : ServerLabel S ς}
    {ts : List (ServerTask S ς)} {os : List (ς × S.Buf)} (step : Acted sv t l sv' ts os)
    (sorted : sv.filter.Sorted) {n : UInt32} {x : Nat} (recorded : sv.filter.Recorded n x) :
    sv'.filter.Recorded n x := by
  cases step with
  | newWindow => exact recorded.createWindow _
  | check => exact recorded.check _ _ _
  | recorded ok => exact recorded.addReply ok sorted
  | _ => exact recorded

/-- What the moving activity leaves behind holds its entry, or has recorded its reply. -/
theorem acted_holding [DecidableEq ς] {t : ServerTask S ς} {l : ServerLabel S ς}
    {ts : List (ServerTask S ς)} {os : List (ς × S.Buf)} (step : Acted sv t l sv' ts os)
    (polite : Polite Q nonceOf sv) (known : Known Q sv) (task : TaskKnown Q sv t)
    (holding : Holding nonceOf sv t) : ∀ u ∈ ts, Holding nonceOf sv' u := by
  intro u member
  cases step with
  | acceptFailed | receiveFailed | dispatchThrew | invokeThrew | answerThrew | raised | recordThrew
    | bufThrew => cases member
  | accepted =>
      rcases List.mem_pair.mp member with rfl | rfl
      · trivial
      · trivial
  | received | newWindow => cases List.mem_singleton.mp member; trivial
  | dispatched ok =>
      cases List.mem_singleton.mp member
      cases dispatched ok with
      | oldServer reads bound other =>
          exact absurd (polite.current _ _ _ ⟨_, task, reads⟩ bound) other
      | filtered => trivial
      | plain reads _ _ zero =>
          have pos := polite.pos _ _ _ ⟨_, task, reads⟩
          exact absurd zero (UInt32.pos_iff_ne_zero.mp pos)
  | @check s h req =>
      cases List.mem_singleton.mp member
      cases verdict : (sv.filter.checkDuplicateAndUpdate S.empty h.cltNonce h.xid h.xidRep).1 with
      | new => exact DupFilter.check_new_awaits _ _ _ verdict
      | inprogress | done => trivial
      | forgotten =>
          intro x same
          rw [RpcClient.replyXid_reads (RpcClient.readReply_errorDoc S _)] at same
          cases same
          left
          rw [← polite.owner _ _ _ task.1, DupFilter.check_ack, if_pos rfl]
          exact (DupFilter.check_forgotten_iff _ _ _ _ _).mp verdict
  | invoked => cases List.mem_singleton.mp member; exact holding
  | recording => cases List.mem_singleton.mp member; exact holding
  | answered _ zero =>
      obtain ⟨req, asked, _⟩ := task
      exact absurd zero (UInt32.pos_iff_ne_zero.mp (polite.pos _ _ _ asked))
  | recorded ok written =>
      cases List.mem_singleton.mp member
      obtain ⟨⟨⟨req, asked⟩, _⟩, ex, made, client, xid, proc, same⟩ := task
      exact holding_send (.handled made client xid proc (same.symm.trans written))
        (polite.owner _ _ _ asked) (DupFilter.addReply_recorded ok)
  | @remembered s n x r inWindow same =>
      cases List.mem_singleton.mp member
      obtain ⟨⟨h, req, asked, rfl, rfl⟩, pos, _, present⟩ := task
      have present := present r inWindow same
      obtain ⟨ex, made, client, xid, bytes⟩ := known.entries _ _ inWindow present
      exact holding_send (.remembered made client (xid.trans same) pos bytes)
        (polite.owner _ _ _ asked) (.inr ⟨r, inWindow, same, present⟩)
  | transmitted => cases List.mem_singleton.mp member; exact holding
  | sent =>
      rw [mem_onSent member]
      trivial

/-- No section takes from another activity the entry that it holds. -/
theorem Holding.stable [DecidableEq ς] {t u : ServerTask S ς} {l : ServerLabel S ς}
    {ts : List (ServerTask S ς)} {os : List (ς × S.Buf)} (holding : Holding nonceOf sv u)
    (step : Acted sv t l sv' ts os) (polite : Polite Q nonceOf sv) (task : TaskKnown Q sv t)
    (sorted : sv.filter.Sorted) (alone : ∀ n x, pending n x t + pending n x u ≤ 1) :
    Holding nonceOf sv' u := by
  have waits : ∀ n x, pending n x u = 1 → sv.filter.Awaits n x → sv'.filter.Awaits n x := by
    intro n x mine awaits
    cases step with
    | newWindow => exact awaits.createWindow _
    | check => exact awaits.check _ _ _ fun same => polite.waits _ _ _ task.1 x (same ▸ awaits)
    | @recorded s h rep buf f ok =>
        refine awaits.addReply ok sorted fun same => ?_
        have both := alone n x
        rw [mine, same.1, same.2] at both
        simp [pending] at both
    | _ => exact awaits
  cases u with
  | invoke | running | record => exact waits _ _ (if_pos rfl) holding
  | send => exact fun x same => acted_recorded step sorted (holding x same)
  | _ => trivial

theorem Holding.covers {t : ServerTask S ς} (holding : Holding nonceOf sv t) {n : UInt32} {x : Nat}
    (mine : pending n x t ≠ 0) : sv.filter.Covers n x := by
  cases t with
  | invoke _ h _ | running _ h _ | record _ h _ =>
      have same := ite_ne_right_iff.mp mine
      obtain ⟨rfl, rfl⟩ := Prod.mk.inj same.1
      exact DupFilter.Awaits.covers holding
  | _ => exact absurd rfl mine

theorem Polite.dispatch_pending (polite : Polite Q nonceOf sv) {s : ς} {buf : S.Buf}
    {u : ServerTask S ς} (known : TaskKnown Q sv (.dispatch s buf))
    (ok : sv.dispatch s buf = .ok u) (n : UInt32) (x : Nat) : pending n x u = 0 := by
  cases dispatched ok with
  | oldServer | filtered => rfl
  | plain reads _ _ zero =>
      have pos := polite.pos _ _ _ ⟨_, known, reads⟩
      exact absurd zero (UInt32.pos_iff_ne_zero.mp pos)

/-- The entries that dispatches hold are theirs alone. -/
structure Held (nonceOf : ς → UInt32) (c : Cfg (RpcServer S ς) (ServerTask S ς)) : Prop where
  alone : ∀ n x, weigh (pending n x) c.pool ≤ 1
  task : ∀ t ∈ c.pool, Holding nonceOf c.shared t

theorem Held.covers {c : Cfg (RpcServer S ς) (ServerTask S ς)} (held : Held nonceOf c) {n : UInt32}
    {x : Nat} (some : weigh (pending n x) c.pool ≠ 0) : c.shared.filter.Covers n x := by
  by_contra free
  apply some
  apply weigh_eq_zero
  intro t member
  by_contra mine
  exact free ((held.task t member).covers mine)

theorem Held.move [DecidableEq ς] {c c' : Cfg (RpcServer S ς) (ServerTask S ς)}
    {m : Move (ServerLabel S ς) ServerEvent} {os : List (ς × S.Buf)} (held : Held nonceOf c)
    (moved : (machine S ς).Moved c c' os m) (polite : Polite Q nonceOf c.shared)
    (traced : Traced Q c) : Held nonceOf c' := by
  constructor
  · intro n x
    have before := held.alone n x
    cases moved with
    | act t rest ts taken split ran left =>
        have known := traced.task t (List.mem_of_getElem? taken)
        have account := weigh_act (pending n x) split left
        have apart : ∀ s buf u, t = .dispatch s buf → c.shared.dispatch s buf = .ok u →
            pending n x u = 0 := by
          rintro s buf u rfl ok
          exact polite.dispatch_pending known ok n x
        rcases acted_pending (acted ran) traced.shared.sorted n x apart with
          fewer | ⟨one, none, free⟩
        · omega
        · have idle : weigh (pending n x) c.pool = 0 := by
            by_contra some
            exact free (held.covers some)
          omega
    | spawn ts ran quiet left =>
        obtain ⟨ps, _, rfl⟩ := spawn_spec ran
        rw [left]
        exact before
  · have holds : Holds (fun _ => True) (Holding nonceOf) c := ⟨trivial, held.task⟩
    refine (holds.move (I := fun _ => True) moved ?_ ?_).task
    · rintro i l t rest ts rfl taken split holding ran
      have step := acted ran
      have known := traced.task t (List.mem_of_getElem? taken)
      refine ⟨trivial, acted_holding step polite traced.shared known holding, ?_⟩
      intro u member holding'
      apply holding'.stable step polite known traced.shared.sorted
      intro n x
      have both := held.alone n x
      rw [weigh_perm _ split, weigh_cons] at both
      exact (Nat.add_le_add_left (weigh_pos member) _).trans both
    · rintro e ts rfl ran
      obtain ⟨ps, shared, rfl⟩ := spawn_spec ran
      refine ⟨trivial, fun u member => absurd member List.not_mem_nil, fun u _ holding => ?_⟩
      rw [shared]
      cases u <;> exact holding

theorem moved_recorded [DecidableEq ς] {c c' : Cfg (RpcServer S ς) (ServerTask S ς)}
    {m : Move (ServerLabel S ς) ServerEvent} {os : List (ς × S.Buf)}
    (moved : (machine S ς).Moved c c' os m) (sorted : c.shared.filter.Sorted) {n : UInt32} {x : Nat}
    (recorded : c.shared.filter.Recorded n x) : c'.shared.filter.Recorded n x := by
  cases moved with
  | act t rest ts taken split ran left => exact acted_recorded (acted ran) sorted recorded
  | spawn ts ran quiet left =>
      obtain ⟨ps, shared, _⟩ := spawn_spec ran
      rw [shared]
      exact recorded

end RpcServer

namespace Network

variable {S : Services} {κ : Type} {N : Nonces κ Unit} {net net' : Network S κ Unit}

/-- The server has recorded its reply to the xid of client `k` that this buffer is about. -/
def RecordedReply (N : Nonces κ Unit) (net : Network S κ Unit) (k : κ) (buf : S.Buf) : Prop :=
  ∀ x, RpcClient.replyXid buf = some x →
    (net.server ()).shared.filter.Recorded (N.client k) x

/-- The server records a reply before it sends it, so whatever comes to a client was
recorded. -/
structure RecordedFirst (N : Nonces κ Unit) (net : Network S κ Unit) : Prop where
  held : RpcServer.Held (fun s => N.client s.1) (net.server ())
  replies : ∀ p ∈ net.replies, RecordedReply N net p.1 p.2
  client : ∀ k, RpcClient.Traced (RecordedReply N net k) (net.client k)

theorem start_recordedFirst (N : Nonces κ Unit) : RecordedFirst N (start S N) := by
  refine ⟨⟨fun n x => Nat.zero_le _, fun t member => ?_⟩, fun p member => ?_,
    fun k => RpcClient.start_traced _ _⟩
  · cases List.mem_singleton.mp member
    trivial
  · cases member

theorem RecordedFirst.received (first : RecordedFirst N net) {k : κ} {x : Nat}
    (came : x ∈ (net.client k).shared.received) :
    (net.server ()).shared.filter.Recorded (N.client k) x := by
  obtain ⟨h, u, ⟨buf, recorded, reads⟩, rfl⟩ := (first.client k).held.shared.received x came
  exact recorded h.xid (RpcClient.replyXid_reads reads)

/-- The clients of one server are polite: what they acknowledge they have received, so
it was recorded. -/
theorem RecordedFirst.polite (first : RecordedFirst N net) (traced : Traced N net)
    (contiguous : ∀ k, (net.client k).shared.Contiguous) :
    RpcServer.Polite net.arriving (fun s => N.client s.1) (net.server ()).shared := by
  constructor
  · intro s h req asked
    exact (traced.asked asked).2.1
  · intro s h req asked
    rw [(traced.asked asked).2.1]
    exact N.client_pos s.1
  · intro s h req asked named
    have header := (traced.asked asked).1
    obtain ⟨v, same⟩ := traced.bound (((traced.client s.1).held.shared.headers _ h header).named named)
    exact same.trans (traced.nonce v).symm
  · intro s h req asked x awaits
    obtain ⟨header, owner, _⟩ := traced.asked asked
    by_contra acked
    obtain ⟨r, member, same⟩ := awaits.entry
    obtain ⟨s', h', req', asked', owner', xid⟩ := (traced.server ()).shared.taken _ r member
    obtain ⟨_, client, args, issued, _⟩ := traced.asked asked'
    have here : s'.1 = s.1 := N.client_injective (client.symm.trans (owner'.trans owner))
    rw [xid, same, here] at issued
    -- the acknowledgement was the front of the window, which no gap separates from `x`
    have front := ((traced.client s.1).held.shared.headers _ h header).xidRep
    have came := traced.front_received (contiguous s.1) issued ((Nat.not_lt.mp acked).trans front)
    apply awaits.not_recorded (traced.server ()).shared.sorted
    rw [owner]
    exact first.received came

/-- What the server has not done changes nothing in what it recorded. -/
theorem RecordedFirst.aside (first : RecordedFirst N net) (server : net'.server = net.server)
    (replies : ∀ p ∈ net'.replies, p ∈ net.replies)
    (client : ∀ k, RpcClient.Traced (RecordedReply N net k) (net'.client k)) :
    RecordedFirst N net' := by
  have same : RecordedReply N net' = RecordedReply N net := by
    funext k buf
    rw [RecordedReply, RecordedReply, server]
  constructor
  · rw [server]
    exact first.held
  · intro p member
    rw [same]
    exact first.replies p (replies p member)
  · intro k
    rw [same]
    exact client k

variable [DecidableEq κ]

theorem RecordedFirst.step (first : RecordedFirst N net) (traced : Traced N net)
    (contiguous : ∀ k, (net.client k).shared.Contiguous) (changed : Changed net net') :
    RecordedFirst N net' := by
  cases changed with
  | @client k m c os ran arrives client server _ replies =>
      apply first.aside server replies
      intro k'
      rw [client]
      by_cases here : k' = k
      · subst here
        rw [Function.update_self]
        exact (first.client k').move (Machine.moved ran) fun i buf label =>
          first.replies _ (arrives i buf label)
      · rw [Function.update_of_ne here]
        exact first.client k'
  | @server v m c os ran _ client server _ replies =>
      have moved : (RpcServer.machine S (κ × Nat)).Moved (net.server ()) (net'.server ()) os m := by
        rw [server]
        simpa using Machine.moved ran
      have more : ∀ k buf, RecordedReply N net k buf → RecordedReply N net' k buf :=
        fun k buf recorded x same =>
          RpcServer.moved_recorded moved (traced.server ()).shared.sorted (recorded x same)
      refine ⟨first.held.move moved (first.polite traced contiguous) (traced.server ()),
        fun p member => ?_, fun k => client ▸ (first.client k).mono (more k)⟩
      rcases replies p member with old | ⟨⟨s, buf⟩, out, rfl⟩
      · exact more _ _ (first.replies p old)
      · cases moved with
        | act t rest ts taken split acts left =>
            obtain ⟨o, rfl, _⟩ := RpcServer.acted_output (RpcServer.acted acts) out
            exact more _ _ (first.held.task _ (List.mem_of_getElem? taken))
        | spawn ts ran quiet left => subst quiet; cases out
  | packets client server _ replies =>
      apply first.aside server replies
      intro k
      rw [client]
      exact first.client k

/-- No client starts a second `Bind`. -/
def AllBindOnce (net : Network S κ Unit) (a : NetworkAction S κ Unit) : Prop :=
  ∀ k, BindsOnce k net a

theorem reachable_recordedFirst
    (run : Reachable (system S κ Unit) AllBindOnce (start S N) net) : RecordedFirst N net := by
  apply run.invariant (start_recordedFirst N)
  intro net a net' run first once moved
  apply first.step (reachable_traced run) _ (stepped moved).changed
  intro k
  exact reachable_contiguous (run.mono fun _ _ met => met k)

/-- For one server and clients that bind once: where a dispatch that was answered NEW
comes to `AddReply`, the window of its client has the entry, and neither exception is
thrown, whatever the bytes of the reply are. -/
theorem addReply_never_throws (N : Nonces κ Unit) (net : Network S κ Unit)
    (run : Reachable (system S κ Unit) AllBindOnce (start S N) net) (s : κ × Nat)
    (h : RequestHeader) (rep : Marshall) (comes : .record s h rep ∈ (net.server ()).pool) :
    (∃ w, (net.server ()).shared.filter.replyWindow h.cltNonce = some w ∧ ∃ r ∈ w, r.xid = h.xid) ∧
      ∀ buf, ∃ f, (net.server ()).shared.filter.addReply h.cltNonce h.xid buf = .ok f := by
  have holding := (reachable_recordedFirst run).held.task _ comes
  have entry := DupFilter.Awaits.entry holding
  exact ⟨(DupFilter.addReply_ok S.empty entry).1, fun buf => (DupFilter.addReply_ok buf entry).2⟩

/-- The binding up to where its reply waits to be recorded. -/
theorem replyMade_run : ∃ net : Network .sample Unit Unit,
    (system .sample Unit Unit).exec (fun net a => decide (BindsOnce () net a)) (start .sample pair)
        ((bindRun ()).take 14) = some net ∧
      ∃ t ∈ (net.server ()).pool, RpcServer.recording t = some (((), 0), 5, 2) :=
  System.exec_any (by decide +kernel)

theorem addReply_never_throws_bind : ∃ (net : Network .sample Unit Unit) (h : RequestHeader)
    (rep : Marshall), .record ((), 0) h rep ∈ (net.server ()).pool ∧
      (h.cltNonce, h.xid) = (5, 2) ∧
      ∀ buf, ∃ f, (net.server ()).shared.filter.addReply h.cltNonce h.xid buf = .ok f := by
  obtain ⟨net, ran, t, comes, same⟩ := replyMade_run
  have run : Reachable (system .sample Unit Unit) AllBindOnce (start .sample pair) net :=
    (System.exec_reachable ran).mono fun _ _ met _ => of_decide_eq_true met
  cases t with
  | record s h rep =>
      obtain ⟨rfl, key⟩ := Prod.mk.inj (Option.some.inj same)
      exact ⟨net, h, rep, comes, key, (addReply_never_throws pair net run ((), 0) h rep comes).2⟩
  | _ => cases same

end Network

end AsyncRpc
