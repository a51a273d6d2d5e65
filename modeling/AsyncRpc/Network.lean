import AsyncRpc.ClientHistory
import AsyncRpc.ServerHistory

/-! Clients and server instances over a network that may lose, copy and reorder
packets and forges none. A packet goes with the client at its end of the connection;
which instance a request reaches is up to the network. -/
namespace AsyncRpc
open Interleaving Transition

/-- Sockets of a server are numbered, for each client. -/
structure Network (S : Services) (κ ι : Type) where
  client : κ → Cfg (RpcClient S) (ClientTask S)
  server : ι → Cfg (RpcServer S (κ × Nat)) (ServerTask S (κ × Nat))
  requests : List (κ × S.Buf) := []
  replies : List (κ × S.Buf) := []

/-- `reply k i j` completes the receive that is activity `i` of client `k` with packet
`j`, and `request v i j` the same for instance `v`. -/
inductive NetworkAction (S : Services) (κ ι : Type) where
  | client (k : κ) (m : Move (ClientLabel S) (ClientEvent S))
  | server (v : ι) (m : Move (ServerLabel S (κ × Nat)) ServerEvent)
  | reply (k : κ) (i j : Nat)
  | request (v : ι) (i j : Nat)
  | loseRequest (j : Nat)
  | loseReply (j : Nat)
  | copyRequest (j : Nat)
  | copyReply (j : Nat)

/-- The nonces that the parties drew. -/
structure Nonces (κ ι : Type) where
  client : κ → UInt32
  server : ι → UInt32
  client_pos : ∀ k, 0 < client k
  client_injective : Function.Injective client
  server_injective : Function.Injective server

namespace Network

variable {S : Services} {κ ι : Type}

/-- Bytes that a party would get without a packet. -/
def clientForges : Move (ClientLabel S) (ClientEvent S) → Bool
  | .act _ (.received _ .ok) => true
  | _ => false

def serverForges : Move (ServerLabel S (κ × Nat)) ServerEvent → Bool
  | .act _ (.received _ .ok) => true
  | _ => false

/-- The client at the other end of the socket that an activity receives from. -/
def receivesFrom : ServerTask S (κ × Nat) → Option κ
  | .receive s => some s.1
  | _ => none

theorem receivesFrom_eq {t : ServerTask S (κ × Nat)} {k : κ} (h : receivesFrom t = some k) :
    ∃ n, t = .receive (k, n) := by
  cases t with
  | receive s =>
      cases h
      exact ⟨s.2, rfl⟩
  | _ => cases h

/-- A packet that completes a receive goes to `GotPdu`. -/
theorem received_gotPdu {c c' : Cfg (RpcClient S) (ClientTask S)} {i : Nat} {buf : S.Buf}
    {os : List S.Buf}
    (ran : (RpcClient.machine S).next c (.act i (.received buf .ok)) = some (c', os)) :
    c.pool[i]? = some .receive ∧ os = [] ∧ c'.shared = c.shared ∧
      c'.pool = .gotPdu buf :: c.pool.eraseIdx i := by
  obtain ⟨t, taken, moved⟩ := Option.bind_eq_some_iff.mp ran
  obtain ⟨⟨d, ts, out⟩, acts, same⟩ := Option.map_eq_some_iff.mp moved
  cases same
  cases RpcClient.acted acts with
  | receiveFailed failed => exact absurd rfl failed
  | received => exact ⟨taken, rfl, rfl, rfl⟩

/-- And at a server to `Dispatch`, with its socket. -/
theorem received_dispatch [DecidableEq κ] {c c' : Cfg (RpcServer S (κ × Nat)) (ServerTask S (κ × Nat))}
    {i : Nat} {s : κ × Nat} {buf : S.Buf} {os : List ((κ × Nat) × S.Buf)}
    (socket : c.pool[i]? = some (.receive s))
    (ran : (RpcServer.machine S (κ × Nat)).next c (.act i (.received buf .ok)) = some (c', os)) :
    os = [] ∧ c'.shared = c.shared ∧ c'.pool = .dispatch s buf :: c.pool.eraseIdx i := by
  obtain ⟨t, taken, moved⟩ := Option.bind_eq_some_iff.mp ran
  obtain ⟨⟨d, ts, out⟩, acts, same⟩ := Option.map_eq_some_iff.mp moved
  cases socket.symm.trans taken
  cases same
  have acts : c.shared.act (.receive s) (.received buf .ok) = some (d, ts, out) := acts
  cases RpcServer.acted acts with
  | receiveFailed failed => exact absurd rfl failed
  | received => exact ⟨rfl, rfl, rfl⟩

variable [DecidableEq κ] [DecidableEq ι]

def setClient (net : Network S κ ι) (k : κ) (r : Cfg (RpcClient S) (ClientTask S) × List S.Buf) :
    Network S κ ι :=
  { net with
    client := Function.update net.client k r.1
    requests := r.2.map (k, ·) ++ net.requests }

def setServer (net : Network S κ ι) (v : ι)
    (r : Cfg (RpcServer S (κ × Nat)) (ServerTask S (κ × Nat)) × List ((κ × Nat) × S.Buf)) :
    Network S κ ι :=
  { net with
    server := Function.update net.server v r.1
    replies := r.2.map (fun o => (o.1.1, o.2)) ++ net.replies }

def next (net : Network S κ ι) : NetworkAction S κ ι → Option (Network S κ ι)
  | .client k m =>
      if clientForges m then none
      else ((RpcClient.machine S).next (net.client k) m).map (net.setClient k)
  | .server v m =>
      if serverForges m then none
      else ((RpcServer.machine S (κ × Nat)).next (net.server v) m).map (net.setServer v)
  | .reply k i j =>
      net.replies[j]?.bind fun p =>
        if p.1 = k then
          ((RpcClient.machine S).next (net.client k) (.act i (.received p.2 .ok))).map
            ({ net with replies := net.replies.eraseIdx j }.setClient k)
        else none
  | .request v i j =>
      net.requests[j]?.bind fun p =>
        if (net.server v).pool[i]?.bind receivesFrom = some p.1 then
          ((RpcServer.machine S (κ × Nat)).next (net.server v) (.act i (.received p.2 .ok))).map
            ({ net with requests := net.requests.eraseIdx j }.setServer v)
        else none
  | .loseRequest j => some { net with requests := net.requests.eraseIdx j }
  | .loseReply j => some { net with replies := net.replies.eraseIdx j }
  | .copyRequest j => net.requests[j]?.map fun p => { net with requests := p :: net.requests }
  | .copyReply j => net.replies[j]?.map fun p => { net with replies := p :: net.replies }

/-- A condition on the moves of client `k`, as one on the steps of the network. -/
def OnClient (k : κ) (P : Move (ClientLabel S) (ClientEvent S) → Prop) :
    NetworkAction S κ ι → Prop
  | .client k' m => k' = k → P m
  | _ => True

instance (k : κ) (P : Move (ClientLabel S) (ClientEvent S) → Prop) [DecidablePred P]
    (a : NetworkAction S κ ι) : Decidable (OnClient k P a) :=
  match a with
  | .client k' m => inferInstanceAs (Decidable (k' = k → P m))
  | .server _ _ | .reply _ _ _ | .request _ _ _ | .loseRequest _ | .loseReply _
  | .copyRequest _ | .copyReply _ => isTrue trivial

def system (S : Services) (κ ι : Type) [DecidableEq κ] [DecidableEq ι] :
    System (Network S κ ι) (NetworkAction S κ ι) where
  next := next

def start (S : Services) {κ ι : Type} (N : Nonces κ ι) : Network S κ ι where
  client k := RpcClient.start S (N.client k)
  server v := RpcServer.start S (κ × Nat) (N.server v)

/-- Every way a step can go: one party moves, perhaps taking a packet, or the network
loses or copies one. -/
inductive Stepped (net : Network S κ ι) : NetworkAction S κ ι → Network S κ ι → Prop
  | client {k m c os} (honest : clientForges m = false)
      (ran : (RpcClient.machine S).next (net.client k) m = some (c, os)) :
      Stepped net (.client k m) (net.setClient k (c, os))
  | server {v m c os} (honest : serverForges m = false)
      (ran : (RpcServer.machine S (κ × Nat)).next (net.server v) m = some (c, os)) :
      Stepped net (.server v m) (net.setServer v (c, os))
  | reply {k i j buf c os} (packet : net.replies[j]? = some (k, buf))
      (ran : (RpcClient.machine S).next (net.client k) (.act i (.received buf .ok)) = some (c, os)) :
      Stepped net (.reply k i j)
        ({ net with replies := net.replies.eraseIdx j }.setClient k (c, os))
  | request {v i j k n buf c os} (packet : net.requests[j]? = some (k, buf))
      (socket : (net.server v).pool[i]? = some (.receive (k, n)))
      (ran : (RpcServer.machine S (κ × Nat)).next (net.server v) (.act i (.received buf .ok)) =
        some (c, os)) :
      Stepped net (.request v i j)
        ({ net with requests := net.requests.eraseIdx j }.setServer v (c, os))
  | loseRequest {j} : Stepped net (.loseRequest j) { net with requests := net.requests.eraseIdx j }
  | loseReply {j} : Stepped net (.loseReply j) { net with replies := net.replies.eraseIdx j }
  | copyRequest {j p} (packet : net.requests[j]? = some p) :
      Stepped net (.copyRequest j) { net with requests := p :: net.requests }
  | copyReply {j p} (packet : net.replies[j]? = some p) :
      Stepped net (.copyReply j) { net with replies := p :: net.replies }

theorem stepped {net net' : Network S κ ι} {a : NetworkAction S κ ι}
    (h : (system S κ ι).next net a = some net') : Stepped net a net' := by
  cases a with
  | client k m =>
      simp only [system, next] at h
      split_ifs at h with forged
      obtain ⟨⟨c, os⟩, ran, same⟩ := Option.map_eq_some_iff.mp h
      exact same ▸ .client (by simpa using forged) ran
  | server v m =>
      simp only [system, next] at h
      split_ifs at h with forged
      obtain ⟨⟨c, os⟩, ran, same⟩ := Option.map_eq_some_iff.mp h
      exact same ▸ .server (by simpa using forged) ran
  | reply k i j =>
      obtain ⟨⟨k', buf⟩, packet, h⟩ := Option.bind_eq_some_iff.mp h
      split_ifs at h with here
      have here : k' = k := here
      subst here
      obtain ⟨⟨c, os⟩, ran, same⟩ := Option.map_eq_some_iff.mp h
      exact same ▸ .reply packet ran
  | request v i j =>
      obtain ⟨⟨k, buf⟩, packet, h⟩ := Option.bind_eq_some_iff.mp h
      split_ifs at h with here
      obtain ⟨t, taken, receives⟩ := Option.bind_eq_some_iff.mp here
      obtain ⟨n, rfl⟩ := receivesFrom_eq receives
      obtain ⟨⟨c, os⟩, ran, same⟩ := Option.map_eq_some_iff.mp h
      exact same ▸ .request packet taken ran
  | loseRequest j => cases h; exact .loseRequest
  | loseReply j => cases h; exact .loseReply
  | copyRequest j =>
      obtain ⟨p, packet, same⟩ := Option.map_eq_some_iff.mp h
      exact same ▸ .copyRequest packet
  | copyReply j =>
      obtain ⟨p, packet, same⟩ := Option.map_eq_some_iff.mp h
      exact same ▸ .copyReply packet

/-- What a step does to one client. -/
theorem Stepped.atClient {net net' : Network S κ ι} {a : NetworkAction S κ ι}
    (h : Stepped net a net') (k : κ) : net'.client k = net.client k ∨
      ∃ m os, (RpcClient.machine S).Moved (net.client k) (net'.client k) os m ∧
        (∀ buf ∈ os, (k, buf) ∈ net'.requests) ∧
        (a = .client k m ∨ ∃ i j buf, a = .reply k i j ∧ m = .act i (.received buf .ok)) := by
  cases h with
  | @client k' m c os honest ran =>
      by_cases same : k = k'
      · subst same
        refine .inr ⟨m, os, ?_, fun buf out => ?_, .inl rfl⟩
        · simpa [setClient] using Machine.moved ran
        · exact List.mem_append_left _ (List.mem_map_of_mem out)
      · exact .inl (Function.update_of_ne same _ _)
  | @reply k' i j buf c os packet ran =>
      by_cases same : k = k'
      · subst same
        refine .inr ⟨_, os, ?_, fun buf out => ?_, .inr ⟨i, j, buf, rfl, rfl⟩⟩
        · simpa [setClient] using Machine.moved ran
        · exact List.mem_append_left _ (List.mem_map_of_mem out)
      · exact .inl (Function.update_of_ne same _ _)
  | _ => exact .inl rfl

/-- What a step does to one instance. -/
theorem Stepped.atServer {net net' : Network S κ ι} {a : NetworkAction S κ ι}
    (h : Stepped net a net') (v : ι) : net'.server v = net.server v ∨
      ∃ m os, (RpcServer.machine S (κ × Nat)).Moved (net.server v) (net'.server v) os m ∧
        (∀ o ∈ os, (o.1.1, o.2) ∈ net'.replies) ∧
        (a = .server v m ∨ ∃ i j buf, a = .request v i j ∧ m = .act i (.received buf .ok)) := by
  cases h with
  | @server v' m c os honest ran =>
      by_cases same : v = v'
      · subst same
        refine .inr ⟨m, os, ?_, fun o out => ?_, .inl rfl⟩
        · simpa [setServer] using Machine.moved ran
        · exact List.mem_append_left _ (List.mem_map_of_mem (f := fun o => (o.1.1, o.2)) out)
      · exact .inl (Function.update_of_ne same _ _)
  | @request v' i j k n buf c os packet socket ran =>
      by_cases same : v = v'
      · subst same
        refine .inr ⟨_, os, ?_, fun o out => ?_, .inr ⟨i, j, buf, rfl, rfl⟩⟩
        · simpa [setServer] using Machine.moved ran
        · exact List.mem_append_left _ (List.mem_map_of_mem (f := fun o => (o.1.1, o.2)) out)
      · exact .inl (Function.update_of_ne same _ _)
  | _ => exact .inl rfl

/-- A step as the invariants see it: a client or an instance moves and its packets
join those in flight, or it is only the packets in flight that change. -/
inductive Changed (net net' : Network S κ ι) : Prop
  | client {k m c os} (ran : (RpcClient.machine S).next (net.client k) m = some (c, os))
      (arrives : ∀ i buf, m = .act i (.received buf .ok) → (k, buf) ∈ net.replies)
      (client : net'.client = Function.update net.client k c) (server : net'.server = net.server)
      (requests : ∀ p ∈ net'.requests, p ∈ net.requests ∨ ∃ buf ∈ os, p = (k, buf))
      (replies : ∀ p ∈ net'.replies, p ∈ net.replies)
  | server {v m c os} (ran : (RpcServer.machine S (κ × Nat)).next (net.server v) m = some (c, os))
      (arrives : ∀ i s buf, m = .act i (.received buf .ok) →
        (net.server v).pool[i]? = some (.receive s) → (s.1, buf) ∈ net.requests)
      (client : net'.client = net.client) (server : net'.server = Function.update net.server v c)
      (requests : ∀ p ∈ net'.requests, p ∈ net.requests)
      (replies : ∀ p ∈ net'.replies, p ∈ net.replies ∨ ∃ o ∈ os, p = (o.1.1, o.2))
  | packets (client : net'.client = net.client) (server : net'.server = net.server)
      (requests : ∀ p ∈ net'.requests, p ∈ net.requests)
      (replies : ∀ p ∈ net'.replies, p ∈ net.replies)

theorem mem_sent {α β γ : Type} {f : α → β × γ} {os : List α} {old : List (β × γ)} {p : β × γ}
    (h : p ∈ os.map f ++ old) : p ∈ old ∨ ∃ o ∈ os, p = f o := by
  rcases List.mem_append.mp h with new | old
  · obtain ⟨o, member, same⟩ := List.mem_map.mp new
    exact .inr ⟨o, member, same.symm⟩
  · exact .inl old

theorem Stepped.changed {net net' : Network S κ ι} {a : NetworkAction S κ ι}
    (h : Stepped net a net') : Changed net net' := by
  cases h with
  | client honest ran =>
      refine .client ran ?_ rfl rfl (fun _ => mem_sent) fun _ => id
      rintro i buf rfl
      cases honest
  | server honest ran =>
      refine .server ran ?_ rfl rfl (fun _ => id) fun _ => mem_sent
      rintro i s buf rfl
      cases honest
  | reply packet ran =>
      refine .client ran ?_ rfl rfl (fun _ => mem_sent) fun _ => List.mem_of_mem_eraseIdx
      rintro i buf same
      cases same
      exact List.mem_of_getElem? packet
  | request packet socket ran =>
      refine .server ran ?_ rfl rfl (fun _ => List.mem_of_mem_eraseIdx) fun _ => mem_sent
      rintro i s buf same taken
      cases same
      cases socket.symm.trans taken
      exact List.mem_of_getElem? packet
  | loseRequest => exact .packets rfl rfl (fun _ => List.mem_of_mem_eraseIdx) fun _ => id
  | loseReply => exact .packets rfl rfl (fun _ => id) fun _ => List.mem_of_mem_eraseIdx
  | copyRequest packet =>
      refine .packets rfl rfl (fun p member => ?_) fun _ => id
      rcases List.mem_cons.mp member with rfl | old
      · exact List.mem_of_getElem? packet
      · exact old
  | copyReply packet =>
      refine .packets rfl rfl (fun _ => id) fun p member => ?_
      rcases List.mem_cons.mp member with rfl | old
      · exact List.mem_of_getElem? packet
      · exact old

/-! Where a packet goes in a step. -/

theorem mem_eraseIdx {α : Type} {l : List α} {j : Nat} {p q : α} (member : p ∈ l)
    (at_j : l[j]? = some q) : p = q ∨ p ∈ l.eraseIdx j :=
  List.mem_cons.mp ((perm_cons_eraseIdx at_j).mem_iff.mp member)

theorem lost_or_kept {α : Type} {l : List α} {p : α} (member : p ∈ l) (j : Nat) :
    l[j]? = some p ∨ p ∈ l.eraseIdx j := by
  cases at_j : l[j]? with
  | none =>
      rw [List.eraseIdx_of_length_le (List.getElem?_eq_none_iff.mp at_j)]
      exact .inr member
  | some q => exact (mem_eraseIdx member at_j).imp (fun same => congrArg some same.symm) id

/-- A request stays in flight, is lost, or has come to an instance. -/
theorem Stepped.requestPacket {net net' : Network S κ ι} {a : NetworkAction S κ ι}
    (h : Stepped net a net') {p : κ × S.Buf} (member : p ∈ net.requests) :
    p ∈ net'.requests ∨ (∃ j, a = .loseRequest j ∧ net.requests[j]? = some p) ∨
      ∃ v n, .dispatch (p.1, n) p.2 ∈ (net'.server v).pool := by
  cases h with
  | client => exact .inl (List.mem_append_right _ member)
  | reply => exact .inl (List.mem_append_right _ member)
  | @request v i j k n buf c os packet socket ran =>
      rcases mem_eraseIdx member packet with rfl | kept
      · refine .inr (.inr ⟨v, n, ?_⟩)
        obtain ⟨_, _, pool⟩ := received_dispatch socket ran
        simp [setServer, pool]
      · exact .inl kept
  | @loseRequest j =>
      rcases lost_or_kept member j with lost | kept
      · exact .inr (.inl ⟨j, rfl, lost⟩)
      · exact .inl kept
  | copyRequest => exact .inl (List.mem_cons_of_mem _ member)
  | _ => exact .inl member

/-- The same for a reply. -/
theorem Stepped.replyPacket {net net' : Network S κ ι} {a : NetworkAction S κ ι}
    (h : Stepped net a net') {p : κ × S.Buf} (member : p ∈ net.replies) :
    p ∈ net'.replies ∨ (∃ j, a = .loseReply j ∧ net.replies[j]? = some p) ∨
      .gotPdu p.2 ∈ (net'.client p.1).pool := by
  cases h with
  | server => exact .inl (List.mem_append_right _ member)
  | request => exact .inl (List.mem_append_right _ member)
  | @reply k i j buf c os packet ran =>
      rcases mem_eraseIdx member packet with rfl | kept
      · refine .inr (.inr ?_)
        obtain ⟨_, _, _, pool⟩ := received_gotPdu ran
        simp [setClient, pool]
      · exact .inl kept
  | @loseReply j =>
      rcases lost_or_kept member j with lost | kept
      · exact .inr (.inl ⟨j, rfl, lost⟩)
      · exact .inl kept
  | copyReply => exact .inl (List.mem_cons_of_mem _ member)
  | _ => exact .inl member

end Network

end AsyncRpc
