import AsyncRpc.Provenance

/-! A callback that ran without an error got the result of the one execution of its
call. -/
namespace AsyncRpc.Network
open Interleaving Transition

variable {S : Services} {κ ι : Type} [DecidableEq κ] [DecidableEq ι]
variable {N : Nonces κ ι} {net : Network S κ ι}

/-- An instance runs the handler of a call at most once. -/
theorem execution_alone {ok : Network S κ ι → NetworkAction S κ ι → Prop}
    (run : Reachable (system S κ ι) ok (start S N) net) {v : ι} {ex : Execution S}
    (member : ex ∈ (net.server v).shared.executions) (pos : 0 < ex.cltNonce) :
    (net.server v).shared.executionsOf ex.cltNonce ex.xid = [ex] ∧
      (net.server v).shared.invoked.count (ex.cltNonce, ex.xid) = 1 :=
  RpcServer.execution_alone (server_reachable run v) member pos

/-- One server instance and any number of retransmitting clients. -/
theorem callback_exactly_once (faithful : S.Faithful) (N : Nonces κ Unit) (net : Network S κ Unit)
    (run : Reachable (system S κ Unit) anyStep (start S N) net) (k : κ) (r : CallbackRun S)
    (member : r ∈ (net.client k).shared.callbacks) (fine : r.err = .ok) :
    ∃ args v, (net.client k).shared.issued r.xid = some ⟨r.proc, args⟩ ∧ r.reply = some v ∧
      (net.server ()).shared.executionsOf (N.client k) r.xid =
        [⟨N.client k, r.xid, r.proc, args, .ok, v⟩] ∧
      (net.server ()).shared.invoked.count (N.client k, r.xid) = 1 := by
  have traced := reachable_traced run
  have known := (traced.client k).held.shared.runs r member
  cases reply : r.reply with
  | none => exact absurd fine (known.absent reply).1
  | some v =>
      obtain ⟨_, args, issued, executed⟩ := traced.replied_same faithful (known.replied v reply)
      rw [fine] at executed
      have alone := execution_alone run executed (N.client_pos k)
      exact ⟨args, v, issued, rfl, alone⟩

/-- One client with nonce 5 and one server with nonce 77. -/
def pair : Nonces Unit Unit where
  client _ := 5
  server _ := 77
  client_pos _ := by decide
  client_injective _ _ _ := rfl
  server_injective _ _ _ := rfl

/-- The client connects and binds to instance `v`, which serves procedure 7. -/
def bindRun (v : ι) : List (NetworkAction .sample Unit ι) :=
  [.client () (.act 0 (.connected .ok)), .server v (.act 0 (.accepted ((), 0) .ok)),
    .server v (.spawn (.register 7)), .client () (.spawn .bind), .client () (.act 0 .go),
    .client () (.act 0 .go), .client () (.act 0 .transmit), .client () (.act 0 (.sent .ok)),
    .request v 0 0, .server v (.act 0 .go), .server v (.act 0 .go), .server v (.act 0 .go),
    .server v (.act 0 .go), .server v (.act 0 .go), .server v (.act 0 .go),
    .server v (.act 0 .transmit), .server v (.act 0 (.sent .ok)), .reply () 0 0,
    .client () (.act 0 .go), .client () (.act 0 .go), .client () (.act 0 .go),
    .client () (.act 0 .go), .client () (.act 1 .go), .client () (.act 0 .go)]

/-- The network copies the request of `Bind` and loses the first reply; the client
gets the remembered one. -/
def bindTwice : List (NetworkAction .sample Unit Unit) :=
  [.client () (.act 0 (.connected .ok)), .server () (.act 0 (.accepted ((), 0) .ok)),
    .client () (.spawn .bind), .client () (.act 0 .go), .client () (.act 0 .go),
    .client () (.act 0 .transmit), .copyRequest 0, .request () 0 0,
    .server () (.act 0 .go), .server () (.act 0 .go), .server () (.act 0 .go),
    .server () (.act 0 .go), .server () (.act 0 .go), .server () (.act 0 .go),
    .server () (.act 0 .transmit), .server () (.act 0 (.sent .ok)), .request () 0 0,
    .server () (.act 0 .go), .server () (.act 0 .go), .server () (.act 0 .go),
    .server () (.act 0 .go), .server () (.act 0 .transmit), .loseReply 1, .reply () 2 0,
    .client () (.act 0 .go), .client () (.act 0 .go), .client () (.act 0 .go),
    .client () (.act 0 .go)]

theorem bindTwice_run : ∃ net : Network .sample Unit Unit,
    (system .sample Unit Unit).exec (fun _ _ => true) (start .sample pair) bindTwice = some net ∧
      (net.client ()).shared.callbacks.map (fun r => (r.xid, r.err)) = [(2, .ok)] :=
  System.exec_any (by decide +kernel)

theorem callback_exactly_once_bindTwice : ∃ net : Network .sample Unit Unit,
    Reachable (system .sample Unit Unit) anyStep (start .sample pair) net ∧
      ((net.server ()).shared.executionsOf 5 2).length = 1 ∧
      (net.server ()).shared.invoked.count (5, 2) = 1 := by
  obtain ⟨net, ran, callbacks⟩ := bindTwice_run
  have run := (System.exec_reachable ran).any
  obtain ⟨r, member, here⟩ := List.mem_map.mp (callbacks ▸ List.mem_cons_self)
  obtain ⟨xid, fine⟩ := Prod.mk.inj here
  obtain ⟨args, v, _, _, one, called⟩ :=
    callback_exactly_once Services.sample_faithful pair net run () r member fine
  rw [xid, show pair.client () = 5 from rfl] at one called
  exact ⟨net, run, by rw [one]; rfl, called⟩

end AsyncRpc.Network
