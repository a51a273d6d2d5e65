import AsyncRpc.Copies
import AsyncRpc.Foundation.Trace
import Mathlib.Algebra.BigOperators.Group.Finset.Piecewise
import Mathlib.Algebra.Order.BigOperators.Group.Finset

/-! Clients built without `retrans`, whose nonce is 0. The server does not filter their
requests: that a call does not run twice is up to the client, which sends each request
once, and to the network. -/
namespace AsyncRpc
open Interleaving Transition

variable {S : Services}

namespace RpcClient

variable {R : S.Buf → Prop} {c c' : RpcClient S} {t : ClientTask S} {l : ClientLabel S}
variable {ts : List (ClientTask S)} {os : List S.Buf}

/-- A request of `x` that has not left yet. -/
def toSend (x : Nat) : ClientTask S → Nat
  | .callWindow y _ _ | .callSend y _ _ _ | .send y _ false | .resend y | .reconnect y =>
      if y = x then 1 else 0
  | _ => 0

/-- The request of `x`, among those that leave. -/
def sent (x : Nat) (os : List S.Buf) : Nat := os.countP fun buf => requestXid buf = some x

theorem call_toSend (known : Known R c) (p : Nat) (args : S.Args p) (cb : Callback) (x : Nat) :
    weigh (toSend x) (c.call p args cb).2 + present (c.issued x) =
      present ((c.call p args cb).1.issued x) := by
  rcases call_cases c p args cb with ⟨same, _⟩ | ⟨same, _⟩ <;> rw [same]
  · exact Nat.zero_add _
  · simp only [weigh_cons, weigh_nil, toSend, Nat.add_zero]
    by_cases new : c.xid = x
    · subst new
      rw [known.fresh c.xid (Nat.le_refl _), if_pos rfl, Function.update_self]
      rfl
    · rw [if_neg new, Function.update_of_ne (Ne.symm new), Nat.zero_add]

/-- Without retransmission, a request is on its way once: from its call until it leaves. -/
theorem acted_toSend (step : Acted c t l c' ts os) (known : Known R c) (task : TaskKnown R c t)
    (zero : c.cltNonce = 0) (x : Nat) :
    weigh (toSend x) ts + sent x os + present (c.issued x) ≤ toSend x t + present (c'.issued x) := by
  cases step with
  | timerRetry _ _ some => exact absurd zero some
  | sendReconnect _ pos | sendRetry _ pos =>
      rw [zero] at pos
      exact absurd pos (by decide)
  | timedOut | failCallback => rw [weigh_afterCallback rfl]; exact Nat.le_refl _
  | @transmitted y buf =>
      have xid : requestXid buf = some y := task.xid known
      simp only [weigh_cons, weigh_nil, toSend, sent, List.countP_cons, List.countP_nil, xid,
        Option.some.injEq, decide_eq_true_eq, Nat.zero_add, Nat.add_zero]
      exact Nat.le_refl _
  | callThrew | sendFailed | sendFailedGone | reconnectFailed => exact Nat.add_le_add_right (Nat.zero_le _) _
  | @delivered h u caller v live value =>
      rw [bindCallback_eq, weigh_cons, weigh_afterCallback rfl]
      exact Nat.le_refl _
  | rebind =>
      have called := call_toSend known BIND S.bindArgs .bind x
      exact Nat.le_of_eq (called.trans (Nat.zero_add _).symm)
  | _ => exact Nat.le_refl _

theorem spawned_toSend {e : ClientEvent S} (step : Spawned c e c' ts) (known : Known R c) (x : Nat) :
    weigh (toSend x) ts + present (c.issued x) = present (c'.issued x) := by
  cases step with
  | call => exact call_toSend known _ _ _ x
  | bind => exact call_toSend (c := c.countBind) (counted_known known) _ _ _ x
  | expire => exact Nat.zero_add _

theorem moved_toSend {c c' : Cfg (RpcClient S) (ClientTask S)}
    {m : Move (ClientLabel S) (ClientEvent S)} (traced : Traced R c)
    (moved : (machine S).Moved c c' os m) (zero : c.shared.cltNonce = 0) (x : Nat) :
    weigh (toSend x) c'.pool + sent x os + present (c.shared.issued x) ≤
      weigh (toSend x) c.pool + present (c'.shared.issued x) := by
  cases moved with
  | act t rest ts taken split ran left =>
      have step := acted_toSend (acted ran) traced.held.shared
        (traced.held.task t (List.mem_of_getElem? taken)) zero x
      have account := weigh_act (toSend x) split left
      omega
  | spawn ts ran quiet left =>
      have step := spawned_toSend (spawned ran) traced.held.shared x
      rw [left, weigh_append, quiet]
      simp only [sent, List.countP_nil]
      omega

end RpcClient

/-- A request of `x` from client `k`. -/
def isRequestOf {κ : Type} [DecidableEq κ] (k : κ) (x : Nat) (p : κ × S.Buf) : Bool :=
  p.1 = k && requestXid p.2 = some x

namespace RpcServer

variable {κ : Type} [DecidableEq κ] {k : κ} {sv sv' : RpcServer S (κ × Nat)}
variable {t : ServerTask S (κ × Nat)} {l : ServerLabel S (κ × Nat)}
variable {ts : List (ServerTask S (κ × Nat))} {os : List ((κ × Nat) × S.Buf)}

/-- The handler that a section calls: for which client, and for which of its calls. -/
def calledFor : ServerTask S (κ × Nat) → ServerLabel S (κ × Nat) → List (ServerTask S (κ × Nat)) →
    List (κ × Nat)
  | .invoke s h _, .go, _ => [(s.1, h.xid)]
  | _, _, _ => []

/-- A request of `x` whose handler was not called yet. -/
def toInvoke (k : κ) (x : Nat) : ServerTask S (κ × Nat) → Nat
  | .dispatch s buf => if isRequestOf k x (s.1, buf) then 1 else 0
  | .invoke s h _ => if (s.1, h.xid) = (k, x) then 1 else 0
  | _ => 0

/-- A request of `x` that completes a receive. -/
def arrives (k : κ) (x : Nat) : ServerTask S (κ × Nat) → ServerLabel S (κ × Nat) → Nat
  | .receive s, .received buf .ok => if isRequestOf k x (s.1, buf) then 1 else 0
  | _, _ => 0

/-- Requests that carry the nonce of the client they came from. -/
def FromClients (m : κ → UInt32) (Q : κ × Nat → S.Buf → Prop) : Prop :=
  ∀ s buf h req, Q s buf → Reads buf h req → h.cltNonce = m s.1

omit [DecidableEq κ] in
theorem FromClients.asked {m : κ → UInt32} {Q : κ × Nat → S.Buf → Prop} (from_clients : FromClients m Q)
    {s : κ × Nat} {h : RequestHeader} {req : Unmarshall} (asked : Asked Q s h req) :
    h.cltNonce = m s.1 := by
  obtain ⟨buf, arrived, reads⟩ := asked
  exact from_clients s buf h req arrived reads

variable {m : κ → UInt32} {Q : κ × Nat → S.Buf → Prop}

/-- A request is used up by the handler that it calls. -/
theorem acted_toInvoke (step : Acted sv t l sv' ts os) (task : TaskKnown Q sv t)
    (from_clients : FromClients m Q) (zero : m k = 0) (x : Nat) :
    weigh (toInvoke k x) ts + (calledFor t l ts).count (k, x) ≤ toInvoke k x t + arrives k x t l := by
  cases step with
  | received => simp only [weigh_cons, weigh_nil, toInvoke, arrives, calledFor, List.count_nil]; omega
  | @dispatched s buf u ok =>
      cases dispatched ok with
      | oldServer | filtered => exact Nat.zero_le _
      | plain reads =>
          simp only [weigh_cons, weigh_nil, toInvoke, arrives, isRequestOf, requestXid_reads reads,
            calledFor, Prod.mk.injEq, Option.some.injEq]
          simp
  | @check s h req =>
      -- what the filter takes has a nonce, so it is not of this client
      have other : s.1 ≠ k := by
        rintro rfl
        exact absurd ((from_clients.asked task.1).trans zero) (UInt32.pos_iff_ne_zero.mp task.2.2)
      generalize (sv.filter.checkDuplicateAndUpdate _ _ _ _).1 = verdict
      cases verdict with
      | new =>
          refine Nat.le_of_eq (if_neg fun same => ?_)
          exact other (Prod.mk.inj same).1
      | _ => exact Nat.zero_le _
  | invoked | invokeThrew =>
      simp only [weigh_nil, weigh_cons, toInvoke, arrives, calledFor, List.count_cons, List.count_nil,
        beq_iff_eq]
      omega
  | sent => rw [weigh_onSent fun _ => rfl]; exact Nat.zero_le _
  | _ => exact Nat.zero_le _

theorem moved_toInvoke {c c' : Cfg (RpcServer S (κ × Nat)) (ServerTask S (κ × Nat))}
    {mv : Move (ServerLabel S (κ × Nat)) ServerEvent} (traced : Traced Q c)
    (moved : (machine S (κ × Nat)).Moved c c' os mv) (from_clients : FromClients m Q)
    (zero : m k = 0) (x a : Nat)
    (few : ∀ i t l, mv = .act i l → c.pool[i]? = some t → arrives k x t l ≤ a) :
    weigh (toInvoke k x) c'.pool + ((machine S (κ × Nat)).shown calledFor c mv).count (k, x) ≤
      weigh (toInvoke k x) c.pool + a := by
  cases moved with
  | act t rest ts taken split ran left =>
      have task := traced.task t (List.mem_of_getElem? taken)
      have step := acted_toInvoke (acted ran) task from_clients zero x
      have account := weigh_act (toInvoke k x) split left
      have few := few _ t _ rfl taken
      rw [Machine.shown_act calledFor taken ran]
      omega
  | spawn ts ran _ left =>
      obtain ⟨ps, shared, rfl⟩ := spawn_spec ran
      rw [left]
      exact Nat.le_add_right _ _

/-- The handlers that a section calls join `invoked`, under the nonce of the client. -/
theorem acted_calledFor (step : Acted sv t l sv' ts os) (task : TaskKnown Q sv t)
    (from_clients : FromClients m Q) :
    sv'.invoked = (calledFor t l ts).map (fun c => (m c.1, c.2)) ++ sv.invoked := by
  cases step with
  | invoked | invokeThrew =>
      simp only [throwing, calledFor, List.map_cons, List.map_nil, from_clients.asked task.1]
      rfl
  | _ => rfl

theorem moved_calledFor {c c' : Cfg (RpcServer S (κ × Nat)) (ServerTask S (κ × Nat))}
    {mv : Move (ServerLabel S (κ × Nat)) ServerEvent} (traced : Traced Q c)
    (moved : (machine S (κ × Nat)).Moved c c' os mv) (from_clients : FromClients m Q) :
    c'.shared.invoked = ((machine S (κ × Nat)).shown calledFor c mv).map (fun c => (m c.1, c.2)) ++
      c.shared.invoked := by
  cases moved with
  | act t rest ts taken split ran left =>
      have task := traced.task t (List.mem_of_getElem? taken)
      rw [Machine.shown_act calledFor taken ran]
      exact acted_calledFor (acted ran) task from_clients
  | spawn ts ran _ left =>
      obtain ⟨ps, shared, rfl⟩ := spawn_spec ran
      rw [shared]
      rfl

end RpcServer

namespace Network

variable {κ ι : Type} {net net' : Network S κ ι} {m : κ → UInt32}

/-- Clients with any nonces, among them 0. -/
def startWith (S : Services) {κ ι : Type} (m : κ → UInt32) (n : ι → UInt32) : Network S κ ι where
  client k := RpcClient.start S (m k)
  server v := RpcServer.start S (κ × Nat) (n v)

/-- The network transmits each request once. -/
def CopiesNoRequest : NetworkAction S κ ι → Prop
  | .copyRequest _ => False
  | _ => True

instance : DecidablePred (CopiesNoRequest : NetworkAction S κ ι → Prop)
  | .copyRequest _ => isFalse id
  | .client _ _ | .server _ _ | .reply _ _ _ | .request _ _ _ | .loseRequest _ | .loseReply _
  | .copyReply _ => isTrue trivial

/-- Packets to the servers are requests of the client at the other end. -/
structure Sent (m : κ → UInt32) (net : Network S κ ι) : Prop where
  client : ∀ k, RpcClient.Traced (fun _ => True) (net.client k)
  server : ∀ v, RpcServer.Traced net.arriving (net.server v)
  requests : ∀ p ∈ net.requests, net.IsRequest p.1 p.2
  cltNonce : ∀ k, (net.client k).shared.cltNonce = m k

theorem startWith_sent (m : κ → UInt32) (n : ι → UInt32) : Sent m (startWith S m n) where
  client k := RpcClient.start_traced _ _
  server v := RpcServer.start_traced _ _
  requests p member := by cases member
  cltNonce _ := rfl

variable [DecidableEq κ] [DecidableEq ι]

theorem Sent.grown (sent : Sent m net) (changed : Changed net net') (k : κ) :
    RpcClient.Grown (net.client k).shared (net'.client k).shared := by
  cases changed with
  | @client k' _ c os ran _ client =>
      rw [client]
      by_cases same : k = k'
      · subst same
        rw [Function.update_self]
        exact (sent.client k).grown (Machine.moved ran)
      · rw [Function.update_of_ne same]
        exact .refl _
  | server _ _ client => rw [client]; exact .refl _
  | packets client => rw [client]; exact .refl _

theorem Sent.step (sent : Sent m net) (changed : Changed net net') : Sent m net' := by
  have grown := sent.grown changed
  have more : ∀ k buf, net.IsRequest k buf → net'.IsRequest k buf :=
    fun k buf request => request.imp fun x here => here.mono (grown k)
  refine ⟨fun k => ?_, fun v => RpcServer.Traced.mono (Q := net.arriving) ?_ fun s => more s.1,
    fun p member => ?_, fun k => (grown k).cltNonce.trans (sent.cltNonce k)⟩
  · cases changed with
    | @client k' _ c os ran _ client =>
        rw [client]
        by_cases same : k = k'
        · subst same
          rw [Function.update_self]
          exact (sent.client k).move (Machine.moved ran) fun _ _ _ => trivial
        · rw [Function.update_of_ne same]
          exact sent.client k
    | server _ _ client => rw [client]; exact sent.client k
    | packets client => rw [client]; exact sent.client k
  · cases changed with
    | client _ _ _ server => rw [server]; exact sent.server v
    | @server v' _ c os ran arrives _ server =>
        rw [server]
        by_cases same : v = v'
        · subst same
          rw [Function.update_self]
          exact (sent.server v).move (Machine.moved ran) fun i s buf label taken =>
            sent.requests _ (arrives i s buf label taken)
        · rw [Function.update_of_ne same]
          exact sent.server v
    | packets _ server => rw [server]; exact sent.server v
  · cases changed with
    | @client k _ c os ran _ client _ requests =>
        rcases requests p member with old | ⟨buf, out, rfl⟩
        · exact more _ _ (sent.requests p old)
        · obtain ⟨x, request⟩ := (sent.client k).output (Machine.moved ran) out
          exact ⟨x, by rw [client, Function.update_self]; exact request⟩
    | server _ _ _ _ requests => exact more _ _ (sent.requests p (requests p member))
    | packets _ _ requests => exact more _ _ (sent.requests p (requests p member))

omit [DecidableEq κ] [DecidableEq ι] in
theorem Sent.from_clients (sent : Sent m net) : RpcServer.FromClients m net.arriving := by
  rintro s buf h req ⟨x, request⟩ reads
  obtain ⟨header, _⟩ := request_reads request reads
  exact ((sent.client s.1).held.shared.headers x h header).cltNonce.trans (sent.cltNonce s.1)

/-- The handlers that a step calls: at which instance, for which client and for which of
its calls. -/
def called (net : Network S κ ι) : NetworkAction S κ ι → List (ι × κ × Nat)
  | .server v mv =>
      ((RpcServer.machine S (κ × Nat)).shown RpcServer.calledFor (net.server v) mv).map (v, ·)
  | _ => []

section

variable (I : Finset ι) (k : κ) (x : Nat)

/-- Requests of `x` that the instances in `I` hold. -/
def arrivedAt (net : Network S κ ι) : Nat :=
  ∑ v ∈ I, weigh (RpcServer.toInvoke k x) (net.server v).pool

/-- Where the request of `x` is: with the client, in flight or with the instances. -/
def account (net : Network S κ ι) : Nat :=
  weigh (RpcClient.toSend x) (net.client k).pool + net.requests.countP (isRequestOf k x) +
    arrivedAt I k x net

/-- Handlers that the instances in `I` called for `x`. -/
def calledAt (log : List (ι × κ × Nat)) : Nat := log.countP fun e => e.1 ∈ I && e.2 = (k, x)

end

variable {I : Finset ι} {k : κ} {x : Nat}

omit [DecidableEq ι] in
theorem countP_isRequestOf (k' : κ) (os : List S.Buf) :
    (os.map (k', ·)).countP (isRequestOf k x) = if k' = k then RpcClient.sent x os else 0 := by
  rw [List.countP_map]
  split_ifs with same
  · refine List.countP_congr fun buf _ => ?_
    simp [isRequestOf, same]
  · refine List.countP_eq_zero.mpr fun buf _ => ?_
    simp [isRequestOf, same]

omit [DecidableEq ι] in
theorem client_account (sent : Sent m net) (zero : m k = 0) {k' : κ}
    {l : Move (ClientLabel S) (ClientEvent S)} {c : Cfg (RpcClient S) (ClientTask S)} {os : List S.Buf}
    (ran : (RpcClient.machine S).next (net.client k') l = some (c, os))
    (client : net'.client = Function.update net.client k' c) :
    weigh (RpcClient.toSend x) (net'.client k).pool + (os.map (k', ·)).countP (isRequestOf k x) +
        RpcClient.present ((net.client k).shared.issued x) ≤
      weigh (RpcClient.toSend x) (net.client k).pool +
        RpcClient.present ((net'.client k).shared.issued x) := by
  rw [countP_isRequestOf, client]
  by_cases same : k' = k
  · subst same
    rw [if_pos rfl, Function.update_self]
    exact RpcClient.moved_toSend (sent.client k') (Machine.moved ran)
      ((sent.cltNonce k').trans zero) x
  · rw [if_neg same, Function.update_of_ne (Ne.symm same)]
    exact Nat.le_refl _

omit [DecidableEq κ] in
/-- What one instance adds to a sum over the instances in `I`. -/
theorem sum_ite_le (v : ι) (a : Nat) : ∑ w ∈ I, (if v = w then a else 0) ≤ a := by
  rw [Finset.sum_ite_eq]
  split_ifs
  · exact Nat.le_refl _
  · exact Nat.zero_le _

theorem calledAt_map (v : ι) (es : List (κ × Nat)) :
    calledAt I k x (es.map (v, ·)) = ∑ w ∈ I, if v = w then es.count (k, x) else 0 := by
  rw [Finset.sum_ite_eq, calledAt, List.countP_map]
  split_ifs with member
  · rw [List.count]
    refine List.countP_congr fun e _ => ?_
    simp [member]
  · refine List.countP_eq_zero.mpr fun e _ => ?_
    simp [member]

theorem server_account (sent : Sent m net) (zero : m k = 0) {v : ι}
    {l : Move (ServerLabel S (κ × Nat)) ServerEvent}
    {c : Cfg (RpcServer S (κ × Nat)) (ServerTask S (κ × Nat))} {os : List ((κ × Nat) × S.Buf)}
    (ran : (RpcServer.machine S (κ × Nat)).next (net.server v) l = some (c, os))
    (server : net'.server = Function.update net.server v c) (a : Nat)
    (few : ∀ i t l', l = .act i l' → (net.server v).pool[i]? = some t →
      RpcServer.arrives k x t l' ≤ a) :
    arrivedAt I k x net' + calledAt I k x
        (((RpcServer.machine S (κ × Nat)).shown RpcServer.calledFor (net.server v) l).map (v, ·)) ≤
      arrivedAt I k x net + a := by
  have each : ∀ w ∈ I, weigh (RpcServer.toInvoke k x) (net'.server w).pool +
      (if v = w then ((RpcServer.machine S (κ × Nat)).shown RpcServer.calledFor (net.server v) l).count
        (k, x) else 0) ≤
        weigh (RpcServer.toInvoke k x) (net.server w).pool + if v = w then a else 0 := by
    intro w _
    rw [server]
    by_cases same : v = w
    · subst same
      rw [if_pos rfl, if_pos rfl, Function.update_self]
      exact RpcServer.moved_toInvoke (sent.server v) (Machine.moved ran) sent.from_clients zero x a few
    · rw [if_neg same, if_neg same, Function.update_of_ne (Ne.symm same)]
  have total := Finset.sum_le_sum each
  rw [Finset.sum_add_distrib, Finset.sum_add_distrib, ← calledAt_map] at total
  exact total.trans (Nat.add_le_add_left (sum_ite_le v a) _)

theorem honest_arrives {l : Move (ServerLabel S (κ × Nat)) ServerEvent} (honest : serverForges l = false)
    (i : Nat) (t : ServerTask S (κ × Nat)) (l' : ServerLabel S (κ × Nat)) (label : l = .act i l') :
    RpcServer.arrives k x t l' = 0 := by
  subst label
  cases t with
  | receive s =>
      cases l' with
      | received buf e =>
          cases e with
          | ok => cases honest
          | _ => rfl
      | _ => rfl
  | _ => rfl

/-- No step makes a second request of a call. -/
theorem account_step (sent : Sent m net) (zero : m k = 0) {a : NetworkAction S κ ι}
    (single : CopiesNoRequest a) (moved : Stepped net a net') :
    account I k x net' + calledAt I k x (called net a) +
        RpcClient.present ((net.client k).shared.issued x) ≤
      account I k x net + RpcClient.present ((net'.client k).shared.issued x) := by
  cases moved with
  | @client k' l c os honest ran =>
      have client : (net.setClient k' (c, os)).client = Function.update net.client k' c := rfl
      have step := client_account (x := x) sent zero ran client
      simp only [account, called, calledAt, setClient, arrivedAt, List.countP_append,
        List.countP_nil] at step ⊢
      omega
  | @reply k' i j buf c os packet ran =>
      have client : ({ net with replies := net.replies.eraseIdx j }.setClient k' (c, os)).client =
          Function.update net.client k' c := rfl
      have step := client_account (x := x) sent zero ran client
      simp only [account, called, calledAt, setClient, arrivedAt, List.countP_append,
        List.countP_nil] at step ⊢
      omega
  | @server v l c os honest ran =>
      have server : (net.setServer v (c, os)).server = Function.update net.server v c := rfl
      have step := server_account (I := I) (x := x) sent zero ran server 0
        fun i t l' label _ => Nat.le_of_eq (honest_arrives honest i t l' label)
      simp only [account, called, setServer] at step ⊢
      omega
  | @request v i j k' n buf c os packet socket ran =>
      have server : ({ net with requests := net.requests.eraseIdx j }.setServer v (c, os)).server =
          Function.update net.server v c := rfl
      have step := server_account (I := I) (x := x) sent zero ran server
          (if isRequestOf k x (k', buf) then 1 else 0) (by
            rintro i' t l' label taken
            cases label
            cases socket.symm.trans taken
            exact Nat.le_refl _)
      have left : net.requests.countP (isRequestOf k x) =
          (net.requests.eraseIdx j).countP (isRequestOf k x) +
            if isRequestOf k x (k', buf) then 1 else 0 := by
        rw [(perm_cons_eraseIdx packet).countP_eq, List.countP_cons]
      have silent : calledAt I k x (called net (.request v i j)) = 0 := rfl
      simp only [account, silent, setServer] at step left ⊢
      omega
  | @loseRequest j =>
      have fewer : (net.requests.eraseIdx j).countP (isRequestOf k x) ≤
          net.requests.countP (isRequestOf k x) := (List.eraseIdx_sublist _ j).countP_le
      have silent : calledAt I k x (called net (.loseRequest j)) = 0 := rfl
      simp only [account, silent, arrivedAt]
      omega
  | copyRequest => exact absurd single id
  | loseReply | copyReply => exact Nat.le_refl _

/-- The log of a run has the calls of handlers that each instance counts. -/
theorem invoked_step (sent : Sent m net) {a : NetworkAction S κ ι} (moved : Stepped net a net') (v : ι) :
    (net'.server v).shared.invoked =
      ((called net a).filter fun e => e.1 = v).map (fun e => (m e.2.1, e.2.2)) ++
        (net.server v).shared.invoked := by
  cases moved with
  | @server v' l c os honest ran =>
      simp only [called, setServer]
      by_cases same : v = v'
      · subst same
        rw [Function.update_self,
          RpcServer.moved_calledFor (sent.server v) (Machine.moved ran) sent.from_clients]
        simp [List.filter_map, Function.comp_def]
      · rw [Function.update_of_ne same]
        simp [List.filter_map, Function.comp_def, Ne.symm same]
  | @request v' i j k' n buf c os packet socket ran =>
      obtain ⟨_, shared, _⟩ := received_dispatch socket ran
      simp only [called, setServer, List.filter_nil, List.map_nil, List.nil_append]
      by_cases same : v = v'
      · subst same
        rw [Function.update_self, shared]
      · rw [Function.update_of_ne same]
  | _ => rfl

/-- A client without a nonce does not retransmit, and each of its calls runs at most once,
over all instances together, unless the network transmits its request twice. The log of a
run tells for which client each handler ran that an instance called. -/
theorem plain_at_most_once (m : κ → UInt32) (n : ι → UInt32) (net : Network S κ ι)
    (log : List (ι × κ × Nat))
    (run : Observed (system S κ ι) (fun _ => CopiesNoRequest) called (startWith S m n) log net) :
    (∀ v, ((log.filter fun e => e.1 = v).map fun e => (m e.2.1, e.2.2)).Perm
      (net.server v).shared.invoked) ∧
    ∀ k, m k = 0 → ∀ x, (log.map Prod.snd).count (k, x) ≤
      if ((net.client k).shared.issued x).isSome then 1 else 0 := by
  have kept : Sent m net ∧ (∀ v, ((log.filter fun e => e.1 = v).map fun e => (m e.2.1, e.2.2)).Perm
      (net.server v).shared.invoked) ∧ ∀ I k, m k = 0 → ∀ x, account I k x net + calledAt I k x log ≤
        RpcClient.present ((net.client k).shared.issued x) := by
    refine run.invariant (I := fun net log => Sent m net ∧ (∀ v, ((log.filter fun e => e.1 = v).map
      fun e => (m e.2.1, e.2.2)).Perm (net.server v).shared.invoked) ∧ ∀ I k, m k = 0 → ∀ x,
        account I k x net + calledAt I k x log ≤
          RpcClient.present ((net.client k).shared.issued x)) ?_ ?_
    · refine ⟨startWith_sent m n, fun v => .refl _, fun I k zero x => ?_⟩
      simp [account, calledAt, arrivedAt, startWith, RpcClient.start, RpcServer.start,
        RpcClient.toSend, RpcServer.toInvoke]
    · rintro net a net' log _ ⟨sent, agree, bounded⟩ single moved
      have moved := stepped moved
      refine ⟨sent.step moved.changed, fun v => ?_, fun I k zero x => ?_⟩
      · rw [invoked_step sent moved v, List.filter_append, List.map_append]
        exact List.perm_append_comm.trans ((agree v).append_left _)
      · have step := account_step (I := I) (x := x) sent zero single moved
        have before := bounded I k zero x
        simp only [calledAt, List.countP_append] at step before ⊢
        omega
  refine ⟨kept.2.1, fun k zero x => ?_⟩
  -- the instances that a run names are finitely many
  have here : calledAt (log.map Prod.fst).toFinset k x log = (log.map Prod.snd).count (k, x) := by
    rw [calledAt, List.count, List.countP_map]
    refine List.countP_congr fun e member => ?_
    have named : e.1 ∈ (log.map Prod.fst).toFinset :=
      List.mem_toFinset.mpr (List.mem_map_of_mem member)
    simp [named]
  have bounded := kept.2.2 (log.map Prod.fst).toFinset k zero x
  rw [here] at bounded
  exact (Nat.le_add_left _ _).trans bounded

/-- A client without a nonce binds. -/
def plainBind : List (NetworkAction .sample Unit Unit) :=
  [.client () (.act 0 (.connected .ok)), .server () (.act 0 (.accepted ((), 0) .ok)),
    .client () (.spawn .bind), .client () (.act 0 .go), .client () (.act 0 .go),
    .client () (.act 0 .transmit), .request () 0 0, .server () (.act 0 .go), .server () (.act 0 .go)]

theorem plainBind_run : ∃ net : Network .sample Unit Unit,
    (system .sample Unit Unit).exec (fun _ a => decide (CopiesNoRequest a))
      (startWith .sample (fun _ => 0) fun _ => 77) plainBind = some net ∧
      (net.server ()).shared.invoked = [(0, 2)] :=
  ⟨_, rfl, rfl⟩

theorem plain_at_most_once_bind : ∃ (net : Network .sample Unit Unit) (log : List (Unit × Unit × Nat)),
    (net.server ()).shared.invoked = [(0, 2)] ∧
      ((log.filter fun e => e.1 = ()).map fun e => ((0 : UInt32), e.2.2)).Perm
        (net.server ()).shared.invoked ∧
      (log.map Prod.snd).count ((), 2) ≤
        if ((net.client ()).shared.issued 2).isSome then 1 else 0 := by
  obtain ⟨net, ran, invoked⟩ := plainBind_run
  obtain ⟨log, run⟩ := ((System.exec_reachable ran).mono fun _ _ => of_decide_eq_true).observed called
  have bounded := plain_at_most_once (fun _ => 0) (fun _ => 77) net log run
  exact ⟨net, log, invoked, bounded.1 (), bounded.2 () rfl 2⟩

end Network

end AsyncRpc
