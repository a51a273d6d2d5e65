import AsyncRpc.Network
import Mathlib.Data.List.Perm.Subperm

/-! Clients and server instances over sockets of some kind. Where the sockets hand out
only what was sent on the same connection, the packets are those of a `Network` that
itself neither loses nor copies any. -/
namespace AsyncRpc
open Interleaving Transition

/-- What sockets do for the two parties; `χ` is what they leave to chance. A party gets
a packet and the state of the sockets without it. -/
structure Medium (S : Services) (κ ι σ χ : Type) where
  sendRequest : σ → κ → S.Buf → χ → Option σ
  sendReply : σ → ι → κ × Nat → S.Buf → χ → Option σ
  takeRequest : σ → ι → κ × Nat → χ → Option (S.Buf × σ)
  takeReply : σ → κ → χ → Option (S.Buf × σ)
  accept : σ → ι → κ × Nat → Option σ
  turn : σ → χ → Option σ

structure Parties (S : Services) (κ ι σ : Type) where
  client : κ → Cfg (RpcClient S) (ClientTask S)
  server : ι → Cfg (RpcServer S (κ × Nat)) (ServerTask S (κ × Nat))
  medium : σ

inductive PartyAction (S : Services) (κ ι χ : Type) where
  | client (k : κ) (m : Move (ClientLabel S) (ClientEvent S)) (c : χ)
  | server (v : ι) (m : Move (ServerLabel S (κ × Nat)) ServerEvent) (c : χ)
  | accept (v : ι) (i : Nat) (s : κ × Nat)
  | request (v : ι) (i : Nat) (s : κ × Nat) (c : χ)
  | reply (k : κ) (i : Nat) (c : χ)
  | turn (c : χ)

/-- Clients and instances as they start, over sockets in a state of their own. -/
def Parties.start (S : Services) {κ ι σ : Type} (N : Nonces κ ι) (medium : σ) : Parties S κ ι σ where
  client k := RpcClient.start S (N.client k)
  server v := RpcServer.start S (κ × Nat) (N.server v)
  medium := medium

namespace Medium

variable {S : Services} {κ ι σ χ : Type}

/-- Conditions on what is left to chance. -/
structure Terms (S : Services) (κ ι σ χ : Type) where
  send : S.Buf → χ → Prop
  takeRequest : σ → ι → κ × Nat → χ → Prop
  takeReply : σ → κ → χ → Prop
  turn : σ → χ → Prop

/-- A connection comes from the sockets. -/
def accepts : Move (ServerLabel S (κ × Nat)) ServerEvent → Bool
  | .act _ (.accepted _ .ok) => true
  | _ => false

/-- The socket that an activity receives from. -/
def receivesOn : ServerTask S (κ × Nat) → Option (κ × Nat)
  | .receive s => some s
  | _ => none

theorem receivesOn_eq {t : ServerTask S (κ × Nat)} {s : κ × Nat} (h : receivesOn t = some s) :
    t = .receive s := by
  cases t with
  | receive s' =>
      cases h
      rfl
  | _ => cases h

variable [DecidableEq κ] [DecidableEq ι]

def next (M : Medium S κ ι σ χ) (st : Parties S κ ι σ) :
    PartyAction S κ ι χ → Option (Parties S κ ι σ)
  | .client k m c =>
      if Network.clientForges m then none
      else ((RpcClient.machine S).next (st.client k) m).bind fun r =>
        (r.2.foldlM (fun s buf => M.sendRequest s k buf c) st.medium).map fun s =>
          { st with client := Function.update st.client k r.1, medium := s }
  | .server v m c =>
      if Network.serverForges m || accepts m then none
      else ((RpcServer.machine S (κ × Nat)).next (st.server v) m).bind fun r =>
        (r.2.foldlM (fun s o => M.sendReply s v o.1 o.2 c) st.medium).map fun s =>
          { st with server := Function.update st.server v r.1, medium := s }
  | .accept v i s =>
      (M.accept st.medium v s).bind fun medium =>
        ((RpcServer.machine S (κ × Nat)).next (st.server v) (.act i (.accepted s .ok))).map fun r =>
          { st with server := Function.update st.server v r.1, medium := medium }
  | .request v i s c =>
      if (st.server v).pool[i]?.bind receivesOn = some s then
        (M.takeRequest st.medium v s c).bind fun p =>
          ((RpcServer.machine S (κ × Nat)).next (st.server v) (.act i (.received p.1 .ok))).map fun r =>
            { st with server := Function.update st.server v r.1, medium := p.2 }
      else none
  | .reply k i c =>
      (M.takeReply st.medium k c).bind fun p =>
        ((RpcClient.machine S).next (st.client k) (.act i (.received p.1 .ok))).map fun r =>
          { st with client := Function.update st.client k r.1, medium := p.2 }
  | .turn c => (M.turn st.medium c).map fun s => { st with medium := s }

def system (M : Medium S κ ι σ χ) : System (Parties S κ ι σ) (PartyAction S κ ι χ) where
  next := M.next

/-- A step that meets the conditions. -/
def Terms.allow (G : Terms S κ ι σ χ) (st : Parties S κ ι σ) : PartyAction S κ ι χ → Prop
  | .client k m c => ∀ r ∈ (RpcClient.machine S).next (st.client k) m, ∀ buf ∈ r.2, G.send buf c
  | .server v m c =>
      ∀ r ∈ (RpcServer.machine S (κ × Nat)).next (st.server v) m, ∀ o ∈ r.2, G.send o.2 c
  | .accept _ _ _ => True
  | .request v _ s c => G.takeRequest st.medium v s c
  | .reply k _ c => G.takeReply st.medium k c
  | .turn c => G.turn st.medium c

open List in
/-- The packets of a medium, which go with the client at their end of the connection, and
what its operations do with them under the conditions `G`. -/
structure Carries (M : Medium S κ ι σ χ) (G : Terms S κ ι σ χ) where
  requests : σ → List (κ × S.Buf)
  replies : σ → List (κ × S.Buf)
  Inv : σ → Prop
  sendRequest {s s' : σ} {k : κ} {buf : S.Buf} {c : χ} (inv : Inv s) (fair : G.send buf c)
    (sent : M.sendRequest s k buf c = some s') :
    Inv s' ∧ requests s' <+~ (k, buf) :: requests s ∧ replies s' <+~ replies s
  sendReply {s s' : σ} {v : ι} {t : κ × Nat} {buf : S.Buf} {c : χ} (inv : Inv s) (fair : G.send buf c)
    (sent : M.sendReply s v t buf c = some s') :
    Inv s' ∧ requests s' <+~ requests s ∧ replies s' <+~ (t.1, buf) :: replies s
  takeRequest {s s' : σ} {v : ι} {t : κ × Nat} {buf : S.Buf} {c : χ} (inv : Inv s)
    (fair : G.takeRequest s v t c) (took : M.takeRequest s v t c = some (buf, s')) :
    Inv s' ∧ (t.1, buf) :: requests s' <+~ requests s ∧ replies s' <+~ replies s
  takeReply {s s' : σ} {k : κ} {buf : S.Buf} {c : χ} (inv : Inv s)
    (fair : G.takeReply s k c) (took : M.takeReply s k c = some (buf, s')) :
    Inv s' ∧ requests s' <+~ requests s ∧ (k, buf) :: replies s' <+~ replies s
  accept {s s' : σ} {v : ι} {t : κ × Nat} (inv : Inv s) (accepted : M.accept s v t = some s') :
    Inv s' ∧ requests s' <+~ requests s ∧ replies s' <+~ replies s
  turn {s s' : σ} {c : χ} (inv : Inv s) (fair : G.turn s c) (turned : M.turn s c = some s') :
    Inv s' ∧ requests s' <+~ requests s ∧ replies s' <+~ replies s

/-- The network itself neither loses nor copies a packet. -/
def Untouched : NetworkAction S κ ι → Prop
  | .loseRequest _ | .loseReply _ | .copyRequest _ | .copyReply _ => False
  | _ => True

variable {M : Medium S κ ι σ χ} {G : Terms S κ ι σ χ}

/-- A packet handed to the sockets. -/
theorem next_sends {st : Parties S κ ι σ} {k : κ} {i : Nat} {c : χ}
    {d : Cfg (RpcClient S) (ClientTask S)} {buf : S.Buf} {s : σ}
    (ran : (RpcClient.machine S).next (st.client k) (.act i .transmit) = some (d, [buf]))
    (sent : M.sendRequest st.medium k buf c = some s) :
    M.next st (.client k (.act i .transmit) c) =
      some { st with client := Function.update st.client k d, medium := s } := by
  simp [next, Network.clientForges, ran, sent]

/-- A packet that the sockets hand out. -/
theorem next_receives {st : Parties S κ ι σ} {v : ι} {i : Nat} {c : χ}
    {t : κ × Nat} {d : Cfg (RpcServer S (κ × Nat)) (ServerTask S (κ × Nat))} {buf : S.Buf} {s : σ}
    (socket : (st.server v).pool[i]? = some (.receive t))
    (took : M.takeRequest st.medium v t c = some (buf, s))
    (ran : (RpcServer.machine S (κ × Nat)).next (st.server v) (.act i (.received buf .ok)) =
      some (d, [])) :
    M.next st (.request v i t c) =
      some { st with server := Function.update st.server v d, medium := s } := by
  simp [next, receivesOn, socket, took, ran]

/-- A client moves on its own or stays as it is. -/
theorem moved_client {st st' : Parties S κ ι σ} {a : PartyAction S κ ι χ}
    (moved : M.next st a = some st') (k : κ) : st'.client k = st.client k ∨
      ∃ m os, (RpcClient.machine S).Moved (st.client k) (st'.client k) os m := by
  cases a with
  | client k' m c =>
      simp only [next] at moved
      split_ifs at moved
      obtain ⟨⟨d, os⟩, ran, moved⟩ := Option.bind_eq_some_iff.mp moved
      obtain ⟨s, -, rfl⟩ := Option.map_eq_some_iff.mp moved
      by_cases same : k = k'
      · subst same
        exact .inr ⟨m, os, by simpa using Machine.moved ran⟩
      · exact .inl (Function.update_of_ne same _ _)
  | reply k' i c =>
      obtain ⟨⟨buf, s⟩, -, moved⟩ := Option.bind_eq_some_iff.mp moved
      obtain ⟨⟨d, os⟩, ran, rfl⟩ := Option.map_eq_some_iff.mp moved
      by_cases same : k = k'
      · subst same
        exact .inr ⟨_, os, by simpa using Machine.moved ran⟩
      · exact .inl (Function.update_of_ne same _ _)
  | server v m c =>
      simp only [next] at moved
      split_ifs at moved
      obtain ⟨r, -, moved⟩ := Option.bind_eq_some_iff.mp moved
      obtain ⟨s, -, rfl⟩ := Option.map_eq_some_iff.mp moved
      exact .inl rfl
  | request v i s c =>
      simp only [next] at moved
      split_ifs at moved
      obtain ⟨p, -, moved⟩ := Option.bind_eq_some_iff.mp moved
      obtain ⟨r, -, rfl⟩ := Option.map_eq_some_iff.mp moved
      exact .inl rfl
  | accept v i s =>
      obtain ⟨m, -, moved⟩ := Option.bind_eq_some_iff.mp moved
      obtain ⟨r, -, rfl⟩ := Option.map_eq_some_iff.mp moved
      exact .inl rfl
  | turn c =>
      obtain ⟨s, -, rfl⟩ := Option.map_eq_some_iff.mp moved
      exact .inl rfl

/-- The parties are those of `net`, which has every packet of the sockets in flight. -/
structure Carries.Matches (C : Carries M G) (st : Parties S κ ι σ) (net : Network S κ ι) : Prop where
  client : net.client = st.client
  server : net.server = st.server
  inv : C.Inv st.medium
  requests : (C.requests st.medium).Subperm net.requests
  replies : (C.replies st.medium).Subperm net.replies

theorem found_perm {α : Type} {p : α → Bool} {l : List α} {x : α} (found : l.find? p = some x) :
    l.Perm (x :: l.eraseP p) := by
  induction l with
  | nil => cases found
  | cons y l ih =>
      cases here : p y with
      | true =>
          rw [List.find?_cons_of_pos here] at found
          cases found
          rw [List.eraseP_cons_of_pos here]
      | false =>
          rw [List.find?_cons_of_neg (by simp [here])] at found
          rw [List.eraseP_cons_of_neg (by simp [here])]
          exact ((ih found).cons y).trans (.swap x y _)

theorem taken {α : Type} {p : α} {l l' L : List α} (took : (p :: l').Subperm l)
    (inside : l.Subperm L) : ∃ j, L[j]? = some p ∧ l'.Subperm (L.eraseIdx j) := by
  have whole := took.trans inside
  obtain ⟨j, at_j⟩ := List.mem_iff_getElem?.mp (whole.subset List.mem_cons_self)
  refine ⟨j, at_j, ?_⟩
  rw [(perm_cons_eraseIdx at_j).subperm_left] at whole
  exact (List.subperm_cons p).mp whole

namespace Carries
variable (C : Carries M G)

omit [DecidableEq κ] [DecidableEq ι] in
theorem sendRequests {k : κ} {c : χ} {os : List S.Buf} {s s' : σ} (inv : C.Inv s)
    (fair : ∀ buf ∈ os, G.send buf c)
    (sent : os.foldlM (fun s buf => M.sendRequest s k buf c) s = some s') :
    C.Inv s' ∧ (C.requests s').Subperm (os.map (k, ·) ++ C.requests s) ∧
      (C.replies s').Subperm (C.replies s) := by
  induction os generalizing s with
  | nil =>
      cases sent
      exact ⟨inv, .refl _, .refl _⟩
  | cons buf os ih =>
      obtain ⟨t, first, rest⟩ := Option.bind_eq_some_iff.mp sent
      obtain ⟨inv, requests, replies⟩ := C.sendRequest inv (fair buf List.mem_cons_self) first
      obtain ⟨inv, requests', replies'⟩ :=
        ih inv (fun buf member => fair buf (List.mem_cons_of_mem _ member)) rest
      refine ⟨inv, requests'.trans ?_, replies'.trans replies⟩
      refine ((List.subperm_append_left _).mpr requests).trans ?_
      exact List.perm_middle.subperm

omit [DecidableEq κ] [DecidableEq ι] in
theorem sendReplies {v : ι} {c : χ} {os : List ((κ × Nat) × S.Buf)} {s s' : σ} (inv : C.Inv s)
    (fair : ∀ o ∈ os, G.send o.2 c)
    (sent : os.foldlM (fun s o => M.sendReply s v o.1 o.2 c) s = some s') :
    C.Inv s' ∧ (C.requests s').Subperm (C.requests s) ∧
      (C.replies s').Subperm (os.map (fun o => (o.1.1, o.2)) ++ C.replies s) := by
  induction os generalizing s with
  | nil =>
      cases sent
      exact ⟨inv, .refl _, .refl _⟩
  | cons o os ih =>
      obtain ⟨t, first, rest⟩ := Option.bind_eq_some_iff.mp sent
      obtain ⟨inv, requests, replies⟩ := C.sendReply inv (fair o List.mem_cons_self) first
      obtain ⟨inv, requests', replies'⟩ :=
        ih inv (fun o member => fair o (List.mem_cons_of_mem _ member)) rest
      refine ⟨inv, requests'.trans requests, replies'.trans ?_⟩
      refine ((List.subperm_append_left _).mpr replies).trans ?_
      exact List.perm_middle.subperm

/-- A step over the sockets is one of the network, or none. -/
theorem step {st st' : Parties S κ ι σ} {net : Network S κ ι} {a : PartyAction S κ ι χ}
    (same : C.Matches st net) (fair : G.allow st a) (moved : M.next st a = some st') :
    ∃ net', C.Matches st' net' ∧
      (net' = net ∨ ∃ b, Untouched b ∧ (Network.system S κ ι).next net b = some net') := by
  obtain ⟨client, server, inv, requests, replies⟩ := same
  cases a with
  | client k m c =>
      simp only [next] at moved
      split_ifs at moved with forged
      obtain ⟨⟨d, os⟩, ran, moved⟩ := Option.bind_eq_some_iff.mp moved
      obtain ⟨s, sent, rfl⟩ := Option.map_eq_some_iff.mp moved
      obtain ⟨inv', requests', replies'⟩ := C.sendRequests inv (fair _ ran) sent
      refine ⟨net.setClient k (d, os), ⟨?_, server, inv', ?_, replies'.trans replies⟩,
        .inr ⟨.client k m, trivial, ?_⟩⟩
      · rw [Network.setClient, client]
      · exact requests'.trans ((List.subperm_append_left _).mpr requests)
      · simp [Network.system, Network.next, forged, client, ran]
  | server v m c =>
      simp only [next] at moved
      split_ifs at moved with forged
      obtain ⟨⟨d, os⟩, ran, moved⟩ := Option.bind_eq_some_iff.mp moved
      obtain ⟨s, sent, rfl⟩ := Option.map_eq_some_iff.mp moved
      obtain ⟨inv', requests', replies'⟩ := C.sendReplies inv (fair _ ran) sent
      rw [Bool.or_eq_true, not_or] at forged
      refine ⟨net.setServer v (d, os), ⟨client, ?_, inv', requests'.trans requests, ?_⟩,
        .inr ⟨.server v m, trivial, ?_⟩⟩
      · rw [Network.setServer, server]
      · exact replies'.trans ((List.subperm_append_left _).mpr replies)
      · simp [Network.system, Network.next, forged.1, server, ran]
  | accept v i s =>
      obtain ⟨m, accepted, moved⟩ := Option.bind_eq_some_iff.mp moved
      obtain ⟨⟨d, os⟩, ran, rfl⟩ := Option.map_eq_some_iff.mp moved
      obtain ⟨inv', requests', replies'⟩ := C.accept inv accepted
      refine ⟨net.setServer v (d, os), ⟨client, ?_, inv', requests'.trans requests, ?_⟩,
        .inr ⟨.server v (.act i (.accepted s .ok)), trivial, ?_⟩⟩
      · rw [Network.setServer, server]
      · exact (replies'.trans replies).trans (List.sublist_append_right _ _).subperm
      · simp [Network.system, Network.next, Network.serverForges, server, ran]
  | request v i s c =>
      simp only [next] at moved
      split_ifs at moved with socket
      obtain ⟨⟨buf, m⟩, took, moved⟩ := Option.bind_eq_some_iff.mp moved
      obtain ⟨⟨d, os⟩, ran, rfl⟩ := Option.map_eq_some_iff.mp moved
      obtain ⟨inv', requests', replies'⟩ := C.takeRequest inv fair took
      obtain ⟨j, at_j, fewer⟩ := taken requests' requests
      obtain ⟨t, at_i, receives⟩ := Option.bind_eq_some_iff.mp socket
      obtain rfl := receivesOn_eq receives
      refine ⟨{ net with requests := net.requests.eraseIdx j }.setServer v (d, os),
        ⟨client, ?_, inv', fewer, ?_⟩, .inr ⟨.request v i j, trivial, ?_⟩⟩
      · rw [Network.setServer, server]
      · exact (replies'.trans replies).trans (List.sublist_append_right _ _).subperm
      · simp [Network.system, Network.next, at_j, server, at_i, Network.receivesFrom, ran]
  | reply k i c =>
      obtain ⟨⟨buf, m⟩, took, moved⟩ := Option.bind_eq_some_iff.mp moved
      obtain ⟨⟨d, os⟩, ran, rfl⟩ := Option.map_eq_some_iff.mp moved
      obtain ⟨inv', requests', replies'⟩ := C.takeReply inv fair took
      obtain ⟨j, at_j, fewer⟩ := taken replies' replies
      refine ⟨{ net with replies := net.replies.eraseIdx j }.setClient k (d, os),
        ⟨?_, server, inv', ?_, fewer⟩, .inr ⟨.reply k i j, trivial, ?_⟩⟩
      · rw [Network.setClient, client]
      · exact (requests'.trans requests).trans (List.sublist_append_right _ _).subperm
      · simp [Network.system, Network.next, at_j, client, ran]
  | turn c =>
      obtain ⟨s, turned, rfl⟩ := Option.map_eq_some_iff.mp moved
      obtain ⟨inv', requests', replies'⟩ := C.turn inv fair turned
      exact ⟨net, ⟨client, server, inv', requests'.trans requests, replies'.trans replies⟩, .inl rfl⟩

end Carries
end Medium
end AsyncRpc
