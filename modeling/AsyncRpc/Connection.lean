import AsyncRpc.Foundation.Trace
import AsyncRpc.AtMostOnce
import AsyncRpc.FailedDispatch

/-! One connection of a server: what happens on it, and the protocol that its read loop
keeps to although it is spread over the branches of `Dispatch` and the completions. -/
namespace AsyncRpc
open Interleaving Transition

variable {S : Services} {ς : Type}

/-- What happens on a connection. `passed` is a dispatch that reads on without a reply. -/
inductive Happening (S : Services) where
  | accepted
  | read (buf : S.Buf)
  | readFailed
  | called (h : RequestHeader)
  | returned (h : RequestHeader)
  | passed
  | replied (o : Origin) (buf : S.Buf)
  | transmitted (buf : S.Buf)
  | sent (o : Origin) (e : Err)
  | threw

/-- Which completions of a `Send` read on: for fresh and old-instance replies only the
successful ones. -/
def Rereads : Origin → Err → Prop
  | .handled, e | .oldServer, e => e = .ok
  | .remembered _ _, _ | .forgotten, _ => True

/-- Where a connection is in its protocol. -/
inductive Phase (S : Services) where
  | fresh
  | receiving
  | dispatching (buf : S.Buf)
  | handling (h : RequestHeader)
  | recording
  | sending (o : Origin) (buf : S.Buf) (transmitted : Bool)
  | closed

namespace Phase

/-- The protocol: a request is read, handled and answered before the next one is read. -/
inductive Next : Phase S → Happening S → Phase S → Prop
  | accepted : Next .fresh .accepted .receiving
  | read {buf} : Next .receiving (.read buf) (.dispatching buf)
  | readFailed : Next .receiving .readFailed .closed
  | passed {buf} : Next (.dispatching buf) .passed .receiving
  | refused {buf o r} (other : o ≠ .handled) :
      Next (.dispatching buf) (.replied o r) (.sending o r false)
  | called {buf h} (reads : ∃ req, RpcServer.Reads buf h req) :
      Next (.dispatching buf) (.called h) (.handling h)
  | dispatchThrew {buf} : Next (.dispatching buf) .threw .closed
  | returned {h} : Next (.handling h) (.returned h) .recording
  | handlerThrew {h} : Next (.handling h) .threw .closed
  | recorded {r} : Next .recording (.replied .handled r) (.sending .handled r false)
  | recordThrew : Next .recording .threw .closed
  | transmitted {o r} : Next (.sending o r false) (.transmitted r) (.sending o r true)
  | sent {o r t e} (whole : e = .ok → t = true) (rereads : Rereads o e) :
      Next (.sending o r t) (.sent o e) .receiving
  | sendFailed {o r t e} (ends : ¬ Rereads o e) : Next (.sending o r t) (.sent o e) .closed

/-- The completion of the `Send` of `r`: all of it has left, or there was an error. -/
inductive Delivered (o : Origin) (r : S.Buf) : List (Happening S) → Prop
  | whole {e} (rereads : Rereads o e) : Delivered o r [.transmitted r, .sent o e]
  | failed {e} (rereads : Rereads o e) (error : e ≠ .ok) : Delivered o r [.sent o e]

/-- What happens between the arrival of a request and the next one: at most one call of a
handler, and at most one reply, whose `Send` completes. -/
inductive Turn (buf : S.Buf) : List (Happening S) → Prop
  | passed : Turn buf [.passed]
  | refused {o r es} (other : o ≠ .handled) (delivered : Delivered o r es) :
      Turn buf (.replied o r :: es)
  | handled {h r es} (reads : ∃ req, RpcServer.Reads buf h req) (delivered : Delivered .handled r es) :
      Turn buf (.called h :: .returned h :: .replied .handled r :: es)

def IsRead : Happening S → Bool
  | .read _ => true
  | _ => false

def IsReply : Happening S → Bool
  | .replied _ _ => true
  | _ => false

/-- No request arrives. -/
def Quiet (es : List (Happening S)) : Prop := ∀ e ∈ es, IsRead e = false

theorem Quiet.tail {e : Happening S} {es : List (Happening S)} (quiet : Quiet (e :: es)) :
    Quiet es :=
  fun e member => quiet e (List.mem_cons_of_mem _ member)

variable {p q : Phase S} {es : List (Happening S)} {buf r : S.Buf} {o : Origin} {h : RequestHeader}

/-! The protocol is a cycle through its phases: what follows a phase without another
arrival, up to where the connection waits again, is determined backwards. -/

theorem follows_closed (follows : Follows Next .closed es q) : es = [] ∧ q = .closed := by
  cases follows with
  | nil => exact ⟨rfl, rfl⟩
  | cons step => cases step

theorem follows_receiving (follows : Follows Next .receiving es .receiving) (quiet : Quiet es) :
    es = [] := by
  cases follows with
  | nil => rfl
  | cons step rest =>
      cases step with
      | read => cases quiet _ List.mem_cons_self
      | readFailed => cases (follows_closed rest).2

theorem follows_transmitted (follows : Follows Next (.sending o r true) es .receiving)
    (quiet : Quiet es) : ∃ e, Rereads o e ∧ es = [.sent o e] := by
  cases follows with
  | cons step rest =>
      cases step with
      | sent _ rereads => exact ⟨_, rereads, by rw [follows_receiving rest quiet.tail]⟩
      | sendFailed => cases (follows_closed rest).2

theorem follows_sending (follows : Follows Next (.sending o r false) es .receiving)
    (quiet : Quiet es) : Delivered o r es := by
  cases follows with
  | cons step rest =>
      cases step with
      | transmitted =>
          obtain ⟨e, rereads, rfl⟩ := follows_transmitted rest quiet.tail
          exact .whole rereads
      | sent whole rereads =>
          rw [follows_receiving rest quiet.tail]
          exact .failed rereads fun ok => by cases whole ok
      | sendFailed => cases (follows_closed rest).2

theorem follows_recording (follows : Follows Next .recording es .receiving) (quiet : Quiet es) :
    ∃ r es', es = .replied .handled r :: es' ∧ Delivered .handled r es' := by
  cases follows with
  | cons step rest =>
      cases step with
      | recorded => exact ⟨_, _, rfl, follows_sending rest quiet.tail⟩
      | recordThrew => cases (follows_closed rest).2

theorem follows_handling (follows : Follows Next (.handling h) es .receiving) (quiet : Quiet es) :
    ∃ r es', es = .returned h :: .replied .handled r :: es' ∧ Delivered .handled r es' := by
  cases follows with
  | cons step rest =>
      cases step with
      | returned =>
          obtain ⟨r, es', rfl, delivered⟩ := follows_recording rest quiet.tail
          exact ⟨r, es', rfl, delivered⟩
      | handlerThrew => cases (follows_closed rest).2

/-- From one arrival to where the connection waits for the next. -/
theorem follows_turn (follows : Follows Next (.dispatching buf) es .receiving) (quiet : Quiet es) :
    Turn buf es := by
  cases follows with
  | cons step rest =>
      cases step with
      | passed =>
          rw [follows_receiving rest quiet.tail]
          exact .passed
      | refused other => exact .refused other (follows_sending rest quiet.tail)
      | called reads =>
          obtain ⟨r, es', rfl, delivered⟩ := follows_handling rest quiet.tail
          exact .handled reads delivered
      | dispatchThrew => cases (follows_closed rest).2

/-- Between two arrivals there is one whole turn. -/
theorem turn_between {before between after : List (Happening S)} {buf' : S.Buf}
    (follows : Follows Next p (before ++ .read buf :: (between ++ .read buf' :: after)) q)
    (quiet : Quiet between) : Turn buf between := by
  obtain ⟨_, _, follows⟩ := follows.split
  cases follows with
  | cons arrives follows =>
      obtain ⟨_, first, second⟩ := follows.split
      cases arrives
      cases second with
      | cons arrives' _ =>
          cases arrives'
          exact follows_turn first quiet

/-- The replies that may still come before the next arrival. -/
def owed : Phase S → Nat
  | .dispatching _ | .handling _ | .recording => 1
  | .fresh | .receiving | .sending _ _ _ | .closed => 0

theorem Next.owed {e : Happening S} (next : Next p e q) (quiet : IsRead e = false) :
    (if IsReply e then 1 else 0) + Phase.owed q ≤ Phase.owed p := by
  cases next with
  | read => cases quiet
  | _ => simp [IsReply, Phase.owed]

theorem follows_owed (follows : Follows Next p es q) (quiet : Quiet es) :
    es.countP IsReply + owed q ≤ owed p := by
  induction follows with
  | nil => exact Nat.le_of_eq (Nat.zero_add _)
  | cons step _ ih =>
      have first := step.owed (quiet _ List.mem_cons_self)
      have rest := ih quiet.tail
      rw [List.countP_cons]
      omega

theorem one_reply {before since : List (Happening S)}
    (follows : Follows Next p (before ++ .read buf :: since) q) (quiet : Quiet since) :
    since.countP IsReply ≤ 1 := by
  obtain ⟨_, _, follows⟩ := follows.split
  cases follows with
  | cons arrives follows =>
      cases arrives
      exact (Nat.le_add_right _ _).trans (follows_owed follows quiet)

/-- What ends a connection: an exception, a failed receive, and the failed `Send` of a
fresh or an old-instance reply. -/
def Ends : Happening S → Prop
  | .threw | .readFailed => True
  | .sent o e => ¬ Rereads o e
  | _ => False

theorem Next.closed_iff {e : Happening S} (next : Next p e q) : q = .closed ↔ Ends e := by
  cases next with
  | sent _ rereads => simp [Ends, rereads]
  | sendFailed ends => simp [Ends, ends]
  | _ => simp [Ends]

theorem follows_closed_iff (follows : Follows Next p es q) (alive : p ≠ .closed) :
    q = .closed ↔ ∃ e ∈ es, Ends e := by
  induction follows with
  | nil => simp [alive]
  | @cons p r q e es step rest ih =>
      rw [List.exists_mem_cons_iff, ← step.closed_iff]
      by_cases ended : r = .closed
      · subst ended
        simp [(follows_closed rest).2]
      · simp [ended, ih ended]

theorem follows_accepted (follows : Follows Next p es q) (accepted : p ≠ .fresh) : q ≠ .fresh := by
  apply follows.keeps (I := fun p => p ≠ .fresh) (J := fun _ => True) accepted fun _ _ => trivial
  intro p e q _ _ next
  cases next <;> simp

theorem follows_fresh_iff (follows : Follows Next .fresh es q) : q ≠ .fresh ↔ .accepted ∈ es := by
  cases follows with
  | nil => simp
  | @cons _ r _ e es step rest =>
      cases step
      exact ⟨fun _ => List.mem_cons_self, fun _ => follows_accepted rest (by simp)⟩

end Phase

namespace RpcServer

/-- What the section of a dispatch hands over. -/
def handedOver : List (ServerTask S ς) → List (Happening S)
  | [] => [.threw]
  | [.receive _] => [.passed]
  | [.running _ h _] => [.called h]
  | [.send _ o buf _] => [.replied o buf]
  | _ => []

/-- What happens on the connection of an activity when it runs a section. -/
def happening : ServerTask S ς → ServerLabel S ς → List (ServerTask S ς) → List (Happening S)
  | .receive _, .received buf e, _ => [if e = .ok then .read buf else .readFailed]
  | .send _ _ buf _, .transmit, _ => [.transmitted buf]
  | .send _ o _ _, .sent e, _ => [.sent o e]
  | .running _ _ _, .raises, _ => [.threw]
  | .running _ h _, _, ts => .returned h :: handedOver ts
  | _, _, ts => handedOver ts

/-- The one activity of a connection, if there is one, is where its phase says. -/
inductive Fits (s : ς) : Phase S → List (ServerTask S ς) → Prop
  | fresh : Fits s .fresh []
  | closed : Fits s .closed []
  | receiving : Fits s .receiving [.receive s]
  | dispatch {buf} : Fits s (.dispatching buf) [.dispatch s buf]
  | newWindow {buf h req} (reads : Reads buf h req) : Fits s (.dispatching buf) [.newWindow s h req]
  | check {buf h req} (reads : Reads buf h req) : Fits s (.dispatching buf) [.check s h req]
  | invoke {buf h req} (reads : Reads buf h req) : Fits s (.dispatching buf) [.invoke s h req]
  | remembered {buf n x} : Fits s (.dispatching buf) [.remembered s n x]
  | running {h args} : Fits s (.handling h) [.running s h args]
  | record {h rep} : Fits s .recording [.record s h rep]
  | send {o r t} : Fits s (.sending o r t) [.send s o r t]

section Fits

variable {s : ς} {p q : Phase S} {ts : List (ServerTask S ς)}

theorem Fits.length (fits : Fits s p ts) : ts.length ≤ 1 := by
  cases fits <;> simp

theorem Fits.socket (fits : Fits s p ts) : ∀ t ∈ ts, socketOf t = some s := by
  intro t member
  cases fits with
  | fresh | closed => cases member
  | _ => cases List.mem_singleton.mp member; rfl

theorem Fits.nil_iff (fits : Fits s p ts) : ts = [] ↔ p = .fresh ∨ p = .closed := by
  cases fits <;> simp

theorem onSent_rereads {o : Origin} {e : Err} (rereads : Rereads o e) :
    onSent (S := S) s o e = [.receive s] := by
  cases o with
  | handled | oldServer => exact if_pos rereads
  | remembered | forgotten => rfl

theorem onSent_ends {o : Origin} {e : Err} (ends : ¬ Rereads o e) : onSent (S := S) s o e = [] := by
  cases o with
  | handled | oldServer => exact if_neg ends
  | remembered | forgotten => exact absurd trivial ends

theorem fits_verdict {buf : S.Buf} {h : RequestHeader} {req : Unmarshall}
    (reads : Reads buf h req) (verdict : State) :
    ∃ q, Follows Phase.Next (.dispatching buf) (handedOver [onVerdict (ς := ς) s h req verdict]) q ∧
      Fits s q [onVerdict s h req verdict] := by
  cases verdict with
  | new => exact ⟨_, .nil, .invoke reads⟩
  | inprogress => exact ⟨_, .single .passed, .receiving⟩
  | done => exact ⟨_, .nil, .remembered⟩
  | forgotten => exact ⟨_, .single (.refused (by simp)), .send⟩

/-- What the next section of the activity shows takes its phase along. -/
theorem Fits.act [DecidableEq ς] {sv sv' : RpcServer S ς} {t : ServerTask S ς}
    {l : ServerLabel S ς} {os : List (ς × S.Buf)} (fits : Fits s p [t])
    (step : Acted sv t l sv' ts os) :
    ∃ q, Follows Phase.Next p (happening t l ts) q ∧ Fits s q ts := by
  cases fits with
  | receiving =>
      cases step with
      | receiveFailed failed =>
          refine ⟨_, .single ?_, .closed⟩
          rw [if_neg failed]
          exact .readFailed
      | received => exact ⟨_, .single .read, .dispatch⟩
  | dispatch =>
      cases step with
      | dispatchThrew => exact ⟨_, .single .dispatchThrew, .closed⟩
      | dispatched ok =>
          cases dispatched ok with
          | oldServer => exact ⟨_, .single (.refused (by simp)), .send⟩
          | filtered reads => exact ⟨_, .nil, .newWindow reads⟩
          | plain reads => exact ⟨_, .nil, .invoke reads⟩
  | newWindow reads => cases step; exact ⟨_, .nil, .check reads⟩
  | check reads => cases step; exact fits_verdict reads _
  | invoke reads =>
      cases step with
      | invoked => exact ⟨_, .single (.called ⟨_, reads⟩), .running⟩
      | invokeThrew => exact ⟨_, .single .dispatchThrew, .closed⟩
  | remembered => cases step; exact ⟨_, .single (.refused (by simp)), .send⟩
  | running =>
      cases step with
      | recording returned =>
          refine ⟨_, ?_, .record⟩
          cases returned <;> exact .single .returned
      | answered returned =>
          refine ⟨_, ?_, .send⟩
          cases returned <;> exact .cons .returned (.single .recorded)
      | answerThrew returned =>
          refine ⟨_, ?_, .closed⟩
          cases returned <;> exact .cons .returned (.single .recordThrew)
      | raised => exact ⟨_, .single .handlerThrew, .closed⟩
  | record =>
      cases step with
      | recorded => exact ⟨_, .single .recorded, .send⟩
      | recordThrew | bufThrew => exact ⟨_, .single .recordThrew, .closed⟩
  | @send o r t =>
      cases step with
      | transmitted => exact ⟨_, .single .transmitted, .send⟩
      | sent whole =>
          rename_i e
          by_cases rereads : Rereads o e
          · rw [onSent_rereads rereads]
            exact ⟨_, .single (.sent whole rereads), .receiving⟩
          · rw [onSent_ends rereads]
            exact ⟨_, .single (.sendFailed rereads), .closed⟩

end Fits

variable [DecidableEq ς]

/-- What an observer of connection `s` sees of a section. -/
def seen (s : ς) : ServerTask S ς → ServerLabel S ς → List (ServerTask S ς) → List (Happening S)
  | .accept, .accepted s' e, _ => if e = .ok ∧ s' = s then [.accepted] else []
  | t, l, ts => if socketOf t = some s then happening t l ts else []

theorem seen_eq {t : ServerTask S ς} (other : t ≠ .accept) (s : ς) (l : ServerLabel S ς)
    (ts : List (ServerTask S ς)) :
    seen s t l ts = if socketOf t = some s then happening t l ts else [] := by
  cases t with
  | accept => exact absurd rfl other
  | _ => rfl

/-- The activities that work for connection `s`. -/
def activitiesOf (s : ς) (pool : List (ServerTask S ς)) : List (ServerTask S ς) :=
  pool.filter fun t => socketOf t = some s

/-- A section keeps to the connection of its activity. -/
theorem acted_socket {sv sv' : RpcServer S ς} {t : ServerTask S ς} {l : ServerLabel S ς}
    {ts : List (ServerTask S ς)} {os : List (ς × S.Buf)} (step : Acted sv t l sv' ts os)
    (other : t ≠ .accept) :
    (∀ u ∈ ts, socketOf u = socketOf t) ∧ sv'.clientSockets = sv.clientSockets := by
  cases step with
  | acceptFailed | accepted => exact absurd rfl other
  | receiveFailed | dispatchThrew | invokeThrew | raised | recordThrew | bufThrew =>
      simp [throwing]
  | received | newWindow | invoked | recorded | remembered | transmitted => simp [socketOf]
  | recording | answered | answerThrew => simp [socketOf, executed, throwing]
  | dispatched ok =>
      refine ⟨fun u member => ?_, rfl⟩
      cases List.mem_singleton.mp member
      exact (dispatched_ledOn ok).socket
  | @check s h req =>
      refine ⟨fun u member => ?_, rfl⟩
      cases List.mem_singleton.mp member
      cases (sv.filter.checkDuplicateAndUpdate S.empty h.cltNonce h.xid h.xidRep).1 <;> rfl
  | sent =>
      refine ⟨fun u member => ?_, rfl⟩
      rw [mem_onSent member]
      rfl

/-- The connection is where its phase says. -/
structure Keeps (s : ς) (c : Cfg (RpcServer S ς) (ServerTask S ς)) (p : Phase S) : Prop where
  fits : Fits s p (activitiesOf s c.pool)
  known : s ∈ c.shared.clientSockets ↔ p ≠ .fresh

section Keeps

variable {s : ς} {c c' : Cfg (RpcServer S ς) (ServerTask S ς)} {p : Phase S}
  {t : ServerTask S ς} {ts rest : List (ServerTask S ς)}

theorem activitiesOf_all (all : ∀ u ∈ ts, socketOf u = some s) : activitiesOf s ts = ts := by
  unfold activitiesOf
  rw [List.filter_eq_self]
  intro u member
  simpa using all u member

theorem activitiesOf_none (none : ∀ u ∈ ts, socketOf u ≠ some s) : activitiesOf s ts = [] := by
  unfold activitiesOf
  rw [List.filter_eq_nil_iff]
  intro u member
  simpa using none u member

/-- The activities of a connection that has one at most are no matter of order. -/
theorem Fits.split (fits : Fits s p (activitiesOf s c.pool)) (split : c.pool.Perm (t :: rest)) :
    activitiesOf s (t :: rest) = activitiesOf s c.pool := by
  have perm : (activitiesOf s c.pool).Perm (activitiesOf s (t :: rest)) := split.filter _
  have short := fits.length
  cases only : activitiesOf s c.pool with
  | nil =>
      rw [only] at perm
      exact List.nil_perm.mp perm
  | cons u us =>
      rw [only] at short perm
      have last : us = [] := List.eq_nil_of_length_eq_zero (Nat.le_zero.mp (Nat.le_of_succ_le_succ short))
      subst last
      exact (List.singleton_perm.mp perm).symm ▸ rfl

theorem activitiesOf_append (ts us : List (ServerTask S ς)) :
    activitiesOf s (ts ++ us) = activitiesOf s ts ++ activitiesOf s us :=
  List.filter_append ..

/-- An activity of the connection is its only one. -/
theorem Keeps.alone (keeps : Keeps s c p) (split : c.pool.Perm (t :: rest))
    (own : socketOf t = some s) : activitiesOf s c.pool = [t] ∧ activitiesOf s rest = [] := by
  have all := keeps.fits.split split
  have head : activitiesOf s (t :: rest) = t :: activitiesOf s rest := by
    simp [activitiesOf, own]
  have short := keeps.fits.length
  rw [← all, head] at short
  have alone : activitiesOf s rest = [] :=
    List.eq_nil_of_length_eq_zero (Nat.le_zero.mp (Nat.le_of_succ_le_succ short))
  rw [← all, head, alone]
  exact ⟨rfl, rfl⟩

/-- The next section of an activity of the connection. -/
theorem Keeps.own {l : ServerLabel S ς} {os : List (ς × S.Buf)} (keeps : Keeps s c p)
    (step : Acted c.shared t l c'.shared ts os) (split : c.pool.Perm (t :: rest))
    (left : c'.pool = ts ++ rest) (own : socketOf t = some s) :
    ∃ q, Follows Phase.Next p (seen s t l ts) q ∧ Keeps s c' q := by
  have other : t ≠ .accept := by
    rintro rfl
    cases own
  obtain ⟨sockets, same⟩ := acted_socket step other
  obtain ⟨only, alone⟩ := keeps.alone split own
  have fits := keeps.fits
  rw [only] at fits
  obtain ⟨q, follows, fits'⟩ := fits.act step
  refine ⟨q, ?_, ?_, ?_⟩
  · rw [seen_eq other, if_pos own]
    exact follows
  · rw [left, activitiesOf_append, alone, List.append_nil,
      activitiesOf_all fun u member => (sockets u member).trans own]
    exact fits'
  · have busy : p ≠ .fresh := by
      rintro rfl
      cases fits
    have listed := keeps.known.mpr busy
    rw [same]
    exact ⟨fun _ => Phase.follows_accepted follows busy, fun _ => listed⟩

/-- A section that does not concern the connection. -/
theorem Keeps.other (keeps : Keeps s c p) (split : c.pool.Perm (t :: rest))
    (left : c'.pool = ts ++ rest) (away : socketOf t ≠ some s)
    (aways : ∀ u ∈ ts, socketOf u ≠ some s)
    (known : s ∈ c'.shared.clientSockets ↔ s ∈ c.shared.clientSockets) : Keeps s c' p := by
  refine ⟨?_, known.trans keeps.known⟩
  have all := keeps.fits.split split
  have same : activitiesOf s (t :: rest) = activitiesOf s rest := by
    simp [activitiesOf, away]
  rw [left, activitiesOf_append, activitiesOf_none aways, List.nil_append, ← same, all]
  exact keeps.fits

/-- A new connection waits for its first request. -/
theorem Keeps.accepted (keeps : Keeps s c p) (new : s ∉ c.shared.clientSockets)
    (split : c.pool.Perm (.accept :: rest)) (left : c'.pool = [.receive s, .accept] ++ rest)
    (known : s ∈ c'.shared.clientSockets) :
    p = .fresh ∧ Keeps s c' .receiving := by
  have fresh : p = .fresh := by
    by_contra busy
    exact new (keeps.known.mpr busy)
  refine ⟨fresh, ?_, ⟨fun _ => by simp, fun _ => known⟩⟩
  have all := keeps.fits.split split
  have none := keeps.fits.nil_iff.mpr (.inl fresh)
  rw [none] at all
  have idle : activitiesOf s rest = [] := by
    simpa [activitiesOf, socketOf] using all
  rw [left, activitiesOf_append, idle]
  simpa [activitiesOf, socketOf] using Fits.receiving

theorem Keeps.move {m : Move (ServerLabel S ς) ServerEvent} {os : List (ς × S.Buf)}
    (keeps : Keeps s c p) (moved : (machine S ς).Moved c c' os m) :
    ∃ q, Follows Phase.Next p ((machine S ς).shown (seen s) c m) q ∧ Keeps s c' q := by
  cases moved with
  | spawn ts ran quiet left =>
      obtain ⟨ps, shared, rfl⟩ := spawn_spec ran
      refine ⟨p, .nil, ?_, ?_⟩
      · rw [left]
        exact keeps.fits
      · rw [shared]
        exact keeps.known
  | @act i l t rest ts taken split ran left =>
      rw [Machine.shown_act (seen s) taken ran]
      have step := acted ran
      by_cases accept : t = .accept
      · subst accept
        generalize shared : c'.shared = sv at step
        cases step with
        | @acceptFailed s' e failed =>
            refine ⟨p, ?_, keeps.other split left (by simp [socketOf]) (by simp) (by rw [shared])⟩
            rw [seen, if_neg fun both => failed both.1]
            exact .nil
        | @accepted s' new =>
            by_cases here : s' = s
            · subst here
              obtain ⟨rfl, keeps'⟩ := keeps.accepted new split left (by simp [shared])
              refine ⟨_, ?_, keeps'⟩
              rw [seen, if_pos ⟨rfl, rfl⟩]
              exact .single .accepted
            · have away : s ≠ s' := fun same => here same.symm
              refine ⟨p, ?_, keeps.other split left (by simp [socketOf])
                (by simp [socketOf, here]) (by simp [shared, away])⟩
              rw [seen, if_neg fun both => here both.2]
              exact .nil
      · by_cases own : socketOf t = some s
        · exact keeps.own step split left own
        · obtain ⟨sockets, same⟩ := acted_socket step accept
          refine ⟨p, ?_, keeps.other split left own
            (fun u member => (sockets u member) ▸ own) (by rw [same])⟩
          rw [seen_eq accept, if_neg own]
          exact .nil

end Keeps

section Runs

variable {nonce : UInt32} {s : ς} {log : List (Happening S)}
  {c : Cfg (RpcServer S ς) (ServerTask S ς)}

/-- What an observer of connection `s` sees of a run of the server. -/
def Watched (s : ς) (nonce : UInt32) (log : List (Happening S))
    (c : Cfg (RpcServer S ς) (ServerTask S ς)) : Prop :=
  Observed (machine S ς).system anyStep ((machine S ς).shown (seen s)) (start S ς nonce) log c

/-- The server keeps to the protocol on each connection. -/
theorem Watched.keeps (run : Watched s nonce log c) :
    ∃ p, Follows Phase.Next .fresh log p ∧ Keeps s c p := by
  apply Observed.follows run (R := Keeps s)
  · refine ⟨?_, ?_⟩
    · exact Fits.fresh
    · simp [start]
  · intro c m c' p _ keeps _ moved
    obtain ⟨os, moved⟩ := Machine.moved_of_system moved
    exact keeps.move moved

/-- Each connection has one activity at most: a `Receive`, a dispatch or a `Send`. Between
two requests that arrive there is one whole turn, and after a request at most one reply. -/
theorem one_request_at_a_time (nonce : UInt32) (s : ς) (log : List (Happening S))
    (c : Cfg (RpcServer S ς) (ServerTask S ς)) (run : Watched s nonce log c) :
    (activitiesOf s c.pool).length ≤ 1 ∧
      (∀ before between after buf buf', log = before ++ .read buf :: (between ++ .read buf' :: after) →
        Phase.Quiet between → Phase.Turn buf between) ∧
      ∀ before since buf, log = before ++ .read buf :: since → Phase.Quiet since →
        since.countP Phase.IsReply ≤ 1 := by
  obtain ⟨p, follows, keeps⟩ := run.keeps
  refine ⟨keeps.fits.length, ?_, ?_⟩
  · rintro before between after buf buf' rfl quiet
    exact Phase.turn_between follows quiet
  · rintro before since buf rfl quiet
    exact Phase.one_reply follows quiet

/-- The request of `Bind` of a client with nonce 5, and its reply. -/
def bindHeader : RequestHeader := ⟨2, BIND, 5, 0, 0⟩

def bindRequest : Json := (requestDoc .sample bindHeader (0 : UInt32)).json

def bindReply : Json := (replyDoc .sample BIND ⟨2, .ok⟩ (77 : UInt32)).json

/-- The request comes, is handled, and its reply is handed to `Send`. -/
def untilReply : List (Move (ServerLabel .sample Nat) ServerEvent) :=
  [.act 0 (.accepted 0 .ok), .act 0 (.received bindRequest .ok), .act 0 .go, .act 0 .go, .act 0 .go,
    .act 0 .go, .act 0 .go, .act 0 .go]

/-- It comes again, and the `Send` of the remembered reply fails. -/
def answeredTwice : List (Move (ServerLabel .sample Nat) ServerEvent) :=
  untilReply ++ [.act 0 .transmit, .act 0 (.sent .ok), .act 0 (.received bindRequest .ok),
    .act 0 .go, .act 0 .go, .act 0 .go, .act 0 .go, .act 0 (.sent .sendFailure)]

def firstTurn : List (Happening .sample) :=
  [.called bindHeader, .returned bindHeader, .replied .handled bindReply, .transmitted bindReply,
    .sent .handled .ok]

def secondTurn : List (Happening .sample) :=
  [.replied (.remembered 5 2) bindReply, .sent (.remembered 5 2) .sendFailure]

def twoTurns : List (Happening .sample) :=
  [.accepted] ++ .read bindRequest :: (firstTurn ++ .read bindRequest :: secondTurn)

theorem answeredTwice_run : ∃ c, (machine .sample Nat).system.execSeen
    ((machine .sample Nat).shown (seen 0)) (start .sample Nat 77) answeredTwice = some (twoTurns, c) :=
  ⟨_, rfl⟩

theorem one_request_at_a_time_answeredTwice : ∃ c : Cfg (RpcServer .sample Nat) _,
    Watched 0 77 twoTurns c ∧ Phase.Turn (S := .sample) bindRequest firstTurn := by
  obtain ⟨c, ran⟩ := answeredTwice_run
  have run : Watched 0 77 twoTurns c := System.execSeen_observed ran
  obtain ⟨_, turns, _⟩ := one_request_at_a_time 77 0 twoTurns c run
  refine ⟨c, run, turns [.accepted] firstTurn secondTurn _ _ rfl ?_⟩
  simp [Phase.Quiet, firstTurn, Phase.IsRead]

theorem rereads_iff (o : Origin) (e : Err) :
    Rereads o e ↔ (o = .handled ∨ o = .oldServer → e = .ok) := by
  cases o <;> simp [Rereads]

theorem Keeps.working_iff {p : Phase S} (keeps : Keeps s c p) :
    (∃ t ∈ c.pool, socketOf t = some s) ↔ p ≠ .fresh ∧ p ≠ .closed := by
  have idle : activitiesOf s c.pool = [] ↔ ∀ t ∈ c.pool, socketOf t ≠ some s := by
    simp [activitiesOf, List.filter_eq_nil_iff]
  rw [← not_or, ← keeps.fits.nil_iff, idle]
  simp

/-- As long as no exception leaves a dispatch of an accepted connection and none of its
receives fails, the connection has an operation or a dispatch if and only if no `Send`
of a fresh or an old-instance reply has failed on it; and only the failure of such a
`Send` does not lead back to a `Receive`. -/
theorem listens_iff (nonce : UInt32) (s : ς) (log : List (Happening S))
    (c : Cfg (RpcServer S ς) (ServerTask S ς)) (run : Watched s nonce log c)
    (accepted : .accepted ∈ log) (calm : .threw ∉ log) (received : .readFailed ∉ log) :
    ((∃ t ∈ c.pool, socketOf t = some s) ↔
      ∀ o e, .sent o e ∈ log → o = .handled ∨ o = .oldServer → e = .ok) ∧
    ∀ i o buf sent e c', c.pool[i]? = some (.send s o buf sent) →
      (machine S ς).system.next c (.act i (.sent e)) = some c' →
      (.receive s ∈ c'.pool ↔ (o = .handled ∨ o = .oldServer → e = .ok)) := by
  obtain ⟨p, follows, keeps⟩ := run.keeps
  constructor
  · have begun := (Phase.follows_fresh_iff follows).mpr accepted
    have ended := Phase.follows_closed_iff follows (by simp)
    rw [keeps.working_iff, and_iff_right begun, ne_eq, ended]
    simp only [← rereads_iff]
    constructor
    · intro lasts o e member
      by_contra ends
      exact lasts ⟨_, member, ends⟩
    · rintro rereads ⟨e, member, ends⟩
      cases e with
      | threw => exact calm member
      | readFailed => exact received member
      | sent o e => exact ends (rereads o e member)
      | _ => exact ends
  · intro i o buf sent e c' taken moved
    obtain ⟨os, moved⟩ := Machine.moved_of_system moved
    cases moved with
    | act t rest ts taken' split ran left =>
        cases taken.symm.trans taken'
        have alone := (keeps.alone split rfl).2
        have away : .receive s ∉ rest := by
          intro member
          have mine : .receive s ∈ activitiesOf s rest :=
            List.mem_filter.mpr ⟨member, by simp [socketOf]⟩
          rw [alone] at mine
          cases mine
        generalize c'.shared = sv at ran
        cases acted ran with
        | sent whole =>
            rw [← rereads_iff, left, List.mem_append, or_iff_left away]
            by_cases rereads : Rereads o e
            · simp [onSent_rereads rereads, rereads]
            · simp [onSent_ends rereads, rereads]

theorem listens_iff_answeredTwice : ∃ c : Cfg (RpcServer .sample Nat) _,
    Watched 0 77 twoTurns c ∧ ∃ t ∈ c.pool, socketOf t = some 0 := by
  obtain ⟨c, ran⟩ := answeredTwice_run
  have run : Watched 0 77 twoTurns c := System.execSeen_observed ran
  have listens := listens_iff 77 0 twoTurns c run (by simp [twoTurns])
    (by simp [twoTurns, firstTurn, secondTurn]) (by simp [twoTurns, firstTurn, secondTurn])
  refine ⟨c, run, listens.1.mpr ?_⟩
  rintro o e member (rfl | rfl)
  · simpa [twoTurns, firstTurn, secondTurn] using member
  · simp [twoTurns, firstTurn, secondTurn] at member

/-- The `Send` of the fresh reply fails, and the connection is left without an
operation. -/
theorem failed_reply_deafens : ∃ c : Cfg (RpcServer .sample Nat) _,
    (machine .sample Nat).system.execSeen ((machine .sample Nat).shown (seen 0))
        (start .sample Nat 77) (untilReply ++ [.act 0 (.sent .sendFailure)]) =
      some ([.accepted, .read bindRequest, .called bindHeader, .returned bindHeader,
        .replied .handled bindReply, .sent .handled .sendFailure], c) ∧
      c.shared.clientSockets = [0] ∧ c.shared.escaped = [] ∧ c.pool = [.accept] :=
  ⟨_, rfl, rfl, rfl, rfl⟩

end Runs

end RpcServer

end AsyncRpc
