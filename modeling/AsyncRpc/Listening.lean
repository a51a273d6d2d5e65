import AsyncRpc.ExactlyOnce

/-! Receives of the client against replies on their way. A receive is posted when the
client connects and when a `Send` reports success, never when a receive completes. -/
namespace AsyncRpc
open Interleaving Transition

variable {S : Services}

namespace RpcClient

variable {c c' : RpcClient S}

/-- An outstanding receive, or a `Send` that posts one if it reports success. -/
def listens : ClientTask S → Nat
  | .receive | .send _ _ true => 1
  | _ => 0

/-- A `Send` that reports failure after the packet left. -/
def failsLate : ClientTask S → ClientLabel S → Bool
  | .send _ _ true, .sent e => e ≠ .ok
  | _, _ => false

def failsToReceive : ClientTask S → ClientLabel S → Bool
  | .receive, .received _ e => e ≠ .ok
  | _, _ => false

/-- What a section sends is covered, and only a late failure and a receive give up
cover. -/
theorem acted_listens {t : ClientTask S} {l : ClientLabel S} {ts : List (ClientTask S)}
    {os : List S.Buf} (step : Acted c t l c' ts os) (honest : ∀ buf, l ≠ .received buf .ok)
    (heard : failsToReceive t l = false) :
    listens t + os.length ≤ weigh listens ts + (failsLate t l).toNat := by
  cases step with
  | received => exact absurd rfl (honest _)
  | receiveFailed failed => simp [failsToReceive, failed] at heard
  | timedOut | failCallback => rw [weigh_afterCallback rfl]; exact Nat.le_refl _
  | delivered => rw [weigh_cons, weigh_afterCallback rfl]; exact Nat.le_refl _
  | rebind => rw [weigh_call fun _ _ _ => rfl]; exact Nat.le_refl _
  | @sendFailed x buf t e failed | @sendFailedGone x buf t e failed =>
      cases t <;> simp [listens, failsLate, failed]
  | _ => simp [listens, failsLate]

theorem spawned_listens {e : ClientEvent S} {ts : List (ClientTask S)} (step : Spawned c e c' ts) :
    weigh listens ts = 0 := by
  cases step with
  | call => exact weigh_call (fun _ _ _ => rfl) c _ _ _
  | bind => exact weigh_call (fun _ _ _ => rfl) c.countBind _ _ _
  | expire => rfl

end RpcClient

namespace Network

variable {κ : Type}

/-- An activity of the server that may still send a reply to client `k`. -/
def owesReply [DecidableEq κ] (k : κ) : ServerTask S (κ × Nat) → Nat
  | .dispatch s _ | .newWindow s _ _ | .check s _ _ | .invoke s _ _ | .running s _ _
  | .record s _ _ | .remembered s _ _ | .send s _ _ false => if s.1 = k then 1 else 0
  | _ => 0

variable [DecidableEq κ]

theorem dispatched_owes {sv : RpcServer S (κ × Nat)} {s : κ × Nat} {buf : S.Buf}
    {t : ServerTask S (κ × Nat)} (ok : sv.dispatch s buf = .ok t) (k : κ) :
    owesReply k t = if s.1 = k then 1 else 0 := by
  cases RpcServer.dispatched ok <;> rfl

/-- A request brings at most one reply. -/
theorem acted_owes {sv sv' : RpcServer S (κ × Nat)} {t : ServerTask S (κ × Nat)}
    {l : ServerLabel S (κ × Nat)} {ts : List (ServerTask S (κ × Nat))}
    {os : List ((κ × Nat) × S.Buf)} (step : RpcServer.Acted sv t l sv' ts os)
    (other : ∀ buf, l ≠ .received buf .ok) (k : κ) :
    weigh (owesReply k) ts + os.countP (fun o => o.1.1 = k) ≤ owesReply k t := by
  cases step with
  | received => exact absurd rfl (other _)
  | dispatched ok => rw [weigh_cons, dispatched_owes ok]; exact Nat.le_refl _
  | @check s h req =>
      cases (sv.filter.checkDuplicateAndUpdate S.empty h.cltNonce h.xid h.xidRep).1 <;>
        simp [RpcServer.onVerdict, owesReply]
  | sent =>
      rw [RpcServer.weigh_onSent fun _ => rfl]
      exact Nat.zero_le _
  | transmitted => simp [owesReply, List.countP_cons]
  | _ => simp [owesReply]

/-- Packets and activities from which a reply to client `k` may come. -/
def expected (net : Network S κ Unit) (k : κ) : Nat :=
  net.requests.countP (fun p => p.1 = k) + weigh (owesReply k) (net.server ()).pool +
    net.replies.countP (fun p => p.1 = k)

def cover (net : Network S κ Unit) (k : κ) : Nat := weigh RpcClient.listens (net.client k).pool

/-- The sockets of client `k` copy no packet. -/
def CopiesNone (k : κ) (net : Network S κ Unit) : NetworkAction S κ Unit → Prop
  | .copyRequest j => ∀ p ∈ net.requests[j]?, p.1 ≠ k
  | .copyReply j => ∀ p ∈ net.replies[j]?, p.1 ≠ k
  | _ => True

/-- Nor do the receives of client `k` fail. -/
def OverSocket (k : κ) (net : Network S κ Unit) (a : NetworkAction S κ Unit) : Prop :=
  CopiesNone k net a ∧
    OnClient k (fun m => m.runs RpcClient.failsToReceive (net.client k).pool = false) a

/-- A `Send` of client `k` reports failure after its packet left only while more replies
are covered than can come. -/
def FailsCovered (k : κ) (net : Network S κ Unit) : NetworkAction S κ Unit → Prop :=
  OnClient k fun m => m.runs RpcClient.failsLate (net.client k).pool = true →
    net.expected k < net.cover k

instance (k : κ) (net : Network S κ Unit) (a : NetworkAction S κ Unit) :
    Decidable (CopiesNone k net a) :=
  match a with
  | .copyRequest j => inferInstanceAs (Decidable (∀ p ∈ net.requests[j]?, p.1 ≠ k))
  | .copyReply j => inferInstanceAs (Decidable (∀ p ∈ net.replies[j]?, p.1 ≠ k))
  | .client _ _ | .server _ _ | .reply _ _ _ | .request _ _ _ | .loseRequest _ | .loseReply _ =>
      isTrue trivial

instance (k : κ) (net : Network S κ Unit) (a : NetworkAction S κ Unit) :
    Decidable (OverSocket k net a) :=
  inferInstanceAs (Decidable (CopiesNone k net a ∧ OnClient k _ a))

instance (k : κ) (net : Network S κ Unit) (a : NetworkAction S κ Unit) :
    Decidable (FailsCovered k net a) :=
  inferInstanceAs (Decidable (OnClient k _ a))

theorem countP_erase {α : Type} (p : α → Bool) {l : List α} {j : Nat} {q : α}
    (at_j : l[j]? = some q) : l.countP p = (l.eraseIdx j).countP p + if p q then 1 else 0 := by
  rw [(perm_cons_eraseIdx at_j).countP_eq p, List.countP_cons]

theorem countP_sent {α : Type} (k k' : κ) (os : List α) :
    (os.map (k', ·)).countP (fun p => p.1 = k) = if k' = k then os.length else 0 := by
  by_cases same : k' = k <;> simp [List.countP_map, Function.comp_def, same]

variable {net net' : Network S κ Unit} {k : κ}

/-- The cover of a client that moves, against what it sends. -/
theorem client_cover {m : Move (ClientLabel S) (ClientEvent S)}
    {c : Cfg (RpcClient S) (ClientTask S)} {os : List S.Buf} (forged : clientForges m = false)
    (moved : (RpcClient.machine S).Moved (net.client k) c os m)
    (honest : OverSocket k net (.client k m)) (guard : FailsCovered k net (.client k m))
    (covered : net.expected k ≤ net.cover k) :
    net.expected k + os.length ≤ weigh RpcClient.listens c.pool := by
  cases moved with
  | @act i l t rest ts taken split ran left =>
      have delivered : ∀ buf, l ≠ .received buf .ok := by
        rintro buf rfl
        cases forged
      have heard : RpcClient.failsToReceive t l = false :=
        (Move.runs_act taken l).symm.trans (honest.2 rfl)
      have kept := RpcClient.acted_listens (RpcClient.acted ran) delivered heard
      have account := weigh_act RpcClient.listens split left
      have slack : RpcClient.failsLate t l = true → net.expected k < net.cover k := fun late =>
        guard rfl ((Move.runs_act taken l).trans late)
      unfold cover at covered slack
      cases late : RpcClient.failsLate t l with
      | false =>
          rw [late, Bool.toNat_false] at kept
          omega
      | true =>
          have slack := slack late
          rw [late, Bool.toNat_true] at kept
          omega
  | spawn ts ran quiet left =>
      have idle := RpcClient.spawned_listens (RpcClient.spawned ran)
      rw [left, weigh_append, idle, quiet]
      simpa [cover] using covered

/-- The server owes no more after a section, counting what it sends. -/
theorem server_owes {m : Move (ServerLabel S (κ × Nat)) ServerEvent}
    {c c' : Cfg (RpcServer S (κ × Nat)) (ServerTask S (κ × Nat))} {os : List ((κ × Nat) × S.Buf)}
    (forged : serverForges m = false) (moved : (RpcServer.machine S (κ × Nat)).Moved c c' os m)
    (k : κ) : weigh (owesReply k) c'.pool + os.countP (fun o => o.1.1 = k) ≤
      weigh (owesReply k) c.pool := by
  cases moved with
  | @act i l t rest ts taken split ran left =>
      have account := weigh_act (owesReply k) split left
      have honest : ∀ buf, l ≠ .received buf .ok := by
        rintro buf rfl
        cases forged
      have step := acted_owes (RpcServer.acted ran) honest k
      omega
  | spawn ts ran quiet left =>
      obtain ⟨_, _, rfl⟩ := RpcServer.spawn_spec ran
      rw [left, quiet]
      exact Nat.le_refl _

theorem covered_step {a : NetworkAction S κ Unit} (stepped : Stepped net a net')
    (honest : OverSocket k net a) (guard : FailsCovered k net a)
    (covered : net.expected k ≤ net.cover k) : net'.expected k ≤ net'.cover k := by
  cases stepped with
  | @client k' m c os forged ran =>
      by_cases same : k' = k
      · subst same
        have moved := client_cover forged (Machine.moved ran) honest guard covered
        simp only [expected, cover, setClient, Function.update_self, List.countP_append, countP_sent,
          if_true] at moved ⊢
        omega
      · simp only [expected, cover, setClient, Function.update_of_ne (Ne.symm same),
          List.countP_append, countP_sent, if_neg same, Nat.zero_add]
        exact covered
  | @reply k' i j buf c os packet ran =>
      obtain ⟨socket, rfl, _, pool⟩ := received_gotPdu ran
      have replies := countP_erase (fun p => decide (p.1 = k)) packet
      have receive := weigh_perm RpcClient.listens (perm_cons_eraseIdx socket)
      by_cases same : k' = k
      · subst same
        simp only [expected, cover, setClient, Function.update_self, pool, weigh_cons,
          RpcClient.listens, decide_true, if_true, List.map_nil, List.nil_append] at covered receive replies ⊢
        omega
      · simp only [expected, cover, setClient, Function.update_of_ne (Ne.symm same), same,
          decide_false, List.map_nil, List.nil_append] at covered replies ⊢
        omega
  | @server v m c os forged ran =>
      obtain rfl : v = () := rfl
      have fewer := server_owes forged (Machine.moved ran) k
      have sent : (os.map fun o => (o.1.1, o.2)).countP (fun p => p.1 = k) =
          os.countP fun o => o.1.1 = k := List.countP_map
      simp only [expected, cover, setServer, Function.update_self, List.countP_append, sent]
        at covered ⊢
      omega
  | @request v i j k' n buf c os packet socket ran =>
      obtain rfl : v = () := rfl
      obtain ⟨rfl, _, pool⟩ := received_dispatch socket ran
      have requests := countP_erase (fun p => decide (p.1 = k)) packet
      have receive := weigh_perm (owesReply k) (perm_cons_eraseIdx socket)
      simp only [expected, cover, setServer, Function.update_self, pool, weigh_cons, owesReply,
        decide_eq_true_eq, List.map_nil, List.nil_append] at covered requests receive ⊢
      omega
  | loseRequest =>
      refine Nat.le_trans (Nat.add_le_add_right (Nat.add_le_add_right ?_ _) _) covered
      exact (List.eraseIdx_sublist _ _).countP_le
  | loseReply =>
      exact Nat.le_trans (Nat.add_le_add_left (List.eraseIdx_sublist _ _).countP_le _) covered
  | copyRequest packet =>
      simpa [expected, cover, List.countP_cons, honest.1 _ packet] using covered
  | copyReply packet =>
      simpa [expected, cover, List.countP_cons, honest.1 _ packet] using covered

/-- For every run over a socket that copies nothing and whose receives do not fail: as
long as a late failure finds more cover than replies, a reply that waits while no `Send`
is in progress finds a receive. -/
theorem listening_while_answers_wait (N : Nonces κ Unit) (k : κ) (net : Network S κ Unit)
    (run : Reachable (system S κ Unit) (fun net a => OverSocket k net a ∧ FailsCovered k net a)
      (start S N) net)
    (quiet : ∀ x buf t, .send x buf t ∉ (net.client k).pool) :
    ∀ x ∈ (net.client k).shared.callers,
      (∃ buf, (k, buf) ∈ net.replies ∧ RpcClient.replyXid buf = some x) →
      .receive ∈ (net.client k).pool := by
  rintro x _ ⟨buf, waits, _⟩
  have covered : net.expected k ≤ net.cover k := by
    apply run.invariant (I := fun net => net.expected k ≤ net.cover k)
    · exact Nat.le_refl 0
    · intro net a net' _ covered guard moved
      exact covered_step (stepped moved) guard.1 guard.2 covered
  have some : 0 < net.replies.countP (fun p => p.1 = k) :=
    List.countP_pos_iff.mpr ⟨(k, buf), waits, by simp⟩
  by_contra deaf
  have none : net.cover k = 0 := by
    apply weigh_eq_zero
    intro t member
    cases t with
    | receive => exact absurd member deaf
    | send => exact absurd member (quiet _ _ _)
    | _ => rfl
  unfold expected at covered
  omega

theorem reply_waits {net : Network S Unit ι} {x : Nat}
    (replies : net.replies.map (fun p => RpcClient.replyXid p.2) = [some x]) :
    ∃ buf, ((), buf) ∈ net.replies ∧ RpcClient.replyXid buf = some x := by
  obtain ⟨p, only, xid⟩ := List.map_eq_singleton_iff.mp replies
  exact ⟨p.2, only ▸ List.mem_singleton_self p, xid⟩

/-- The client connects and its `Send` of `Bind` fails after the packet left. -/
def failedLate : List (NetworkAction .sample Unit Unit) :=
  [.client () (.act 0 (.connected .ok)), .server () (.act 0 (.accepted ((), 0) .ok)),
    .server () (.spawn (.register 7)), .client () (.spawn .bind), .client () (.act 0 .go),
    .client () (.act 0 .go), .client () (.act 1 .go), .client () (.act 0 .transmit),
    .client () (.act 0 (.sent .sendFailure)), .client () (.act 0 .go)]

/-- It is sent again with success, and the server answers. -/
def sentAgain : List (NetworkAction .sample Unit Unit) :=
  [.client () (.act 0 .transmit), .client () (.act 0 (.sent .ok)), .request () 0 0,
    .server () (.act 0 .go), .server () (.act 0 .go), .server () (.act 0 .go),
    .server () (.act 0 .go), .server () (.act 0 .go), .server () (.act 0 .go),
    .server () (.act 0 .transmit), .server () (.act 0 (.sent .ok))]

theorem sentAgain_run : ∃ net : Network .sample Unit Unit,
    (system .sample Unit Unit).exec
      (fun net a => decide (OverSocket () net a ∧ FailsCovered () net a)) (start .sample pair)
      (failedLate ++ sentAgain) = some net ∧
      (net.client ()).pool.all (fun | .send _ _ _ => false | _ => true) ∧
      2 ∈ (net.client ()).shared.callers ∧
      net.replies.map (fun p => RpcClient.replyXid p.2) = [some 2] :=
  System.exec_any (by decide +kernel)

theorem listening_while_answers_wait_sentAgain : ∃ net : Network .sample Unit Unit,
    Reachable (system .sample Unit Unit) (fun net a => OverSocket () net a ∧ FailsCovered () net a)
      (start .sample pair) net ∧ .receive ∈ (net.client ()).pool := by
  obtain ⟨net, ran, pool, pending, replies⟩ := sentAgain_run
  have run := (System.exec_reachable ran).mono fun _ _ met => of_decide_eq_true met
  have idle : ∀ x buf t, .send x buf t ∉ (net.client ()).pool := by
    intro x buf t member
    cases List.all_eq_true.mp pool _ member
  exact ⟨net, run, listening_while_answers_wait pair () net run idle 2 pending
    (reply_waits replies)⟩

/-- A duplicate reaches the server, which sends the remembered reply. -/
def remembers : List (NetworkAction .sample Unit Unit) :=
  [.request () 0 0, .server () (.act 0 .go), .server () (.act 0 .go), .server () (.act 0 .go),
    .server () (.act 0 .go), .server () (.act 0 .transmit), .server () (.act 0 (.sent .ok))]

/-- The `Send` of `Bind` fails late a second time. Its three replies take the receives
of the next call, whose reply then waits. -/
def deaf : List (NetworkAction .sample Unit Unit) :=
  failedLate ++
  [.client () (.act 0 .transmit), .client () (.act 0 (.sent .sendFailure)), .client () (.act 0 .go)] ++
  sentAgain ++ remembers ++ remembers ++
  [.reply () 0 0, .client () (.act 0 .go), .client () (.act 0 .go), .client () (.act 0 .go),
    .client () (.act 0 .go), .client () (.act 0 .go), .reply () 0 0, .client () (.act 0 .go),
    .client () (.act 0 .go), .client () (.spawn (.call 7 (1 : UInt32))), .client () (.act 0 .go),
    .client () (.act 0 .go), .client () (.act 1 .go), .client () (.act 0 .transmit),
    .client () (.act 0 (.sent .ok)), .request () 0 0, .server () (.act 0 .go),
    .server () (.act 0 .go), .server () (.act 0 .go), .server () (.act 0 .go),
    .server () (.act 0 (.returns 7 (9 : UInt32) .ok)), .server () (.act 0 .go),
    .server () (.act 0 .transmit), .server () (.act 0 (.sent .ok)), .reply () 0 1,
    .client () (.act 0 .go), .client () (.act 0 .go)]

theorem deaf_run : ∃ net : Network .sample Unit Unit,
    (system .sample Unit Unit).exec (fun net a => decide (OverSocket () net a)) (start .sample pair)
      deaf = some net ∧ (net.client ()).pool.length = 0 ∧ 3 ∈ (net.client ()).shared.callers ∧
      net.replies.map (fun p => RpcClient.replyXid p.2) = [some 3] :=
  System.exec_any (by decide +kernel)

theorem answer_waits_unheard : ¬ ∀ net : Network .sample Unit Unit,
    Reachable (system .sample Unit Unit) (OverSocket ()) (start .sample pair) net →
      (∀ x buf t, .send x buf t ∉ (net.client ()).pool) →
      ∀ x ∈ (net.client ()).shared.callers,
        (∃ buf, ((), buf) ∈ net.replies ∧ RpcClient.replyXid buf = some x) →
        .receive ∈ (net.client ()).pool := by
  intro always
  obtain ⟨net, ran, none, pending, replies⟩ := deaf_run
  have run := (System.exec_reachable ran).mono fun _ _ met => of_decide_eq_true met
  have pool := List.eq_nil_of_length_eq_zero none
  have heard := always net run (by simp [pool]) 3 pending (reply_waits replies)
  simp [pool] at heard

end Network

end AsyncRpc
