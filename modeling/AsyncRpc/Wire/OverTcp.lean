import AsyncRpc.AsyncSockets
import AsyncRpc.Wire.Packets

/-! Clients and instances over TCP, with the text of nlohmann. The borders of messages need
no guard: a buffer that begins where a message does and is not all of it does not parse. -/
namespace AsyncRpc.Wire
open Interleaving Transition

namespace TextServices

/-- A message is sent as its text. -/
noncomputable def strings (T : TextServices) : Strings T.services UInt8 where
  chars
    | .inl t => some t
    | .inr _ => none
  ofChars := .inl
  ofChars_chars := by
    rintro (t | j) u same
    · cases same
      rfl
    · cases same

variable (T : TextServices)

abbrev IsMessage (t : Bytes) : Prop := Wire.IsMessage T.dumpFloat T.strtod t

/-- The constructor of `Unmarshall` does not throw. -/
def Parses (buf : T.services.Buf) : Prop := ∃ u, Unmarshall.ofBuf T.services.toCodec buf = .ok u

variable {κ ι : Type} [DecidableEq κ] [DecidableEq ι]

/-- A `Send` takes the whole message, and whatever a `Receive` returns is parsed. -/
def understood : Medium.Terms T.services κ ι (Tcp κ ι UInt8) (TcpChance κ ι) where
  send buf c := ∀ t ∈ T.strings.chars buf, c = .length t.length
  takeRequest st v s c := ∀ r ∈ Tcp.returned T.strings (v, s) st.up c, T.Parses r.1
  takeReply st k c := ∀ a ∈ st.connection k,
    ∀ r ∈ Tcp.returned T.strings (a.1, k, a.2) st.down c, T.Parses r.1
  turn _ _ := True

/-- The same of messages. -/
def messages : Medium.Terms T.services κ ι (Tcp κ ι UInt8) (TcpChance κ ι) :=
  { T.understood with
    send := fun buf c => ∃ t, T.strings.chars buf = some t ∧ c = .length t.length ∧ T.IsMessage t }

end TextServices

namespace OverTcp

variable {κ ι : Type} [DecidableEq κ] [DecidableEq ι] {T : TextServices}

/-- What is under way on connection `a`. -/
def stream {α : Type} [DecidableEq α] (a : α) (l : List (α × Bytes)) : Bytes :=
  ((l.filter fun e => e.1 = a).map Prod.snd).flatten

section
variable {α : Type} [DecidableEq α] {a b : α}

theorem stream_here (t : Bytes) (l : List (α × Bytes)) : stream a ((a, t) :: l) = t ++ stream a l := by
  simp [stream]

theorem stream_other (other : b ≠ a) (t : Bytes) (l : List (α × Bytes)) :
    stream a ((b, t) :: l) = stream a l := by
  simp [stream, other]

theorem read_stream (a : α) (n : Nat) (l : List (α × Bytes)) :
    (Tcp.read a n l).1 ++ stream a (Tcp.read a n l).2 = stream a l := by
  fun_induction Tcp.read a n l with
  | case1 l => rfl
  | case2 n => rfl
  | case3 n t l short r ih => rw [List.append_assoc, ih, stream_here]
  | case4 n t l long => rw [stream_here, stream_here, ← List.append_assoc, List.take_append_drop]
  | case5 n b t l other r ih => rw [stream_other other, stream_other other, ih]

end

theorem documents {ts : List Bytes} (texts : ∀ t ∈ ts, T.IsMessage t) : ∃ docs : List Json,
    (∀ d ∈ docs, Storable T.dumpFloat T.strtod d ∧ Container d) ∧ ts = docs.map (dump T.dumpFloat) := by
  induction ts with
  | nil => exact ⟨[], nofun, rfl⟩
  | cons t ts ih =>
      obtain ⟨j, storable, container, rfl⟩ := texts t List.mem_cons_self
      obtain ⟨docs, each, rfl⟩ := ih fun t member => texts t (List.mem_cons_of_mem _ member)
      exact ⟨j :: docs, List.forall_mem_cons.mpr ⟨⟨storable, container⟩, each⟩, rfl⟩

theorem parses_text {t : Bytes} (parsed : T.Parses (.inl t)) : ∃ v, parse T.strtod t = .ok v := by
  obtain ⟨u, ok⟩ := parsed
  have ok : (parse T.strtod t).map (fun j => ({ json := j } : Unmarshall)) = .ok u := ok
  cases read : parse T.strtod t with
  | ok v => exact ⟨v, rfl⟩
  | error e =>
      rw [read] at ok
      cases ok

/-- Where messages are under way, a receive that parses ends at the first border. -/
theorem border {a : ι × κ × Nat} {l l' : List ((ι × κ × Nat) × Bytes)} {n : Nat} {buf : T.services.Buf}
    (texts : ∀ e ∈ l, T.IsMessage e.2)
    (took : Tcp.returned T.strings a l (.length n) = some (buf, l')) (parsed : T.Parses buf) :
    Tcp.firstLength a l = some n := by
  simp only [Tcp.returned] at took
  split_ifs at took with fits
  obtain ⟨rfl, rfl⟩ := Prod.mk.inj (Option.some.inj took)
  have split := read_stream a n l
  have here : ∀ t ∈ (l.filter fun e => e.1 = a).map Prod.snd, T.IsMessage t := by
    intro t member
    obtain ⟨e, listed, rfl⟩ := List.mem_map.mp member
    exact texts e (List.mem_of_mem_filter listed)
  obtain ⟨docs, storable, written⟩ := documents here
  rw [stream, stream, written] at split
  cases docs with
  | nil =>
      obtain ⟨nothing, -⟩ := List.append_eq_nil_iff.mp split
      rw [nothing, List.length_nil] at fits
      omega
  | cons j docs =>
      obtain ⟨v, ok⟩ := parses_text parsed
      obtain ⟨first, -⟩ := parse_first T.dumpFloat T.strtod storable split.symm ok
      have length := fits.2.2
      rw [first] at length
      have head : ((l.filter fun e => e.1 = a).map Prod.snd).head? = some (dump T.dumpFloat j) := by
        rw [written]
        rfl
      rw [List.head?_map, List.head?_filter] at head
      obtain ⟨e, found, text⟩ := Option.map_eq_some_iff.mp head
      rw [Tcp.firstLength, found, Option.map_some, text, length]

/-- All that is under way is messages. -/
def Messages (T : TextServices) (l : List ((ι × κ × Nat) × Bytes)) : Prop := ∀ e ∈ l, T.IsMessage e.2

theorem messages_sent {l : List ((ι × κ × Nat) × Bytes)} (all : Messages T l) {buf : T.services.Buf}
    {c : TcpChance κ ι} (fair : T.messages.send buf c) {t : Bytes}
    (sent : Tcp.accepted T.strings buf c = some t) (a : ι × κ × Nat) :
    Messages T (l ++ [(a, t)]) ∧ (Tcp.packets T.strings (l ++ [(a, t)])).Subperm
      ((a.2.1, buf) :: Tcp.packets T.strings l) := by
  obtain ⟨t', chars, rfl, message⟩ := fair
  obtain rfl := Tcp.accepted_whole chars sent
  refine ⟨fun e member => ?_, Tcp.packets_sent chars a l⟩
  rcases List.mem_append.mp member with old | new
  · exact all e old
  · rw [List.mem_singleton.mp new]
    exact message

theorem messages_taken {a : ι × κ × Nat} {l l' : List ((ι × κ × Nat) × Bytes)} (all : Messages T l)
    {buf : T.services.Buf} {c : TcpChance κ ι} (took : Tcp.returned T.strings a l c = some (buf, l'))
    (parsed : T.Parses buf) :
    Messages T l' ∧ ((a.2.1, buf) :: Tcp.packets T.strings l').Subperm (Tcp.packets T.strings l) := by
  cases c with
  | length n =>
      have first := border all took parsed
      refine ⟨?_, Tcp.packets_taken first took⟩
      obtain ⟨t, -, -, rfl⟩ := Tcp.returned_first first took
      exact fun e member => all e (List.mem_of_mem_eraseP member)
  | connect | reset => cases took

noncomputable def carries (T : TextServices) :
    (Tcp.medium (κ := κ) (ι := ι) T.strings).Carries T.messages where
  requests st := Tcp.packets T.strings st.up
  replies st := Tcp.packets T.strings st.down
  Inv st := Messages T st.up ∧ Messages T st.down
  sendRequest := by
    rintro st st' k buf c ⟨up, down⟩ fair sent
    obtain ⟨a, -, sent⟩ := Option.bind_eq_some_iff.mp sent
    obtain ⟨t, took, rfl⟩ := Option.map_eq_some_iff.mp sent
    obtain ⟨up, packets⟩ := messages_sent up fair took (a.1, k, a.2)
    exact ⟨⟨up, down⟩, packets, .refl _⟩
  sendReply := by
    rintro st st' v s buf c ⟨up, down⟩ fair sent
    obtain ⟨t, took, rfl⟩ := Option.map_eq_some_iff.mp sent
    obtain ⟨down, packets⟩ := messages_sent down fair took (v, s)
    exact ⟨⟨up, down⟩, .refl _, packets⟩
  takeRequest := by
    rintro st st' v s buf c ⟨up, down⟩ fair took
    obtain ⟨r, read, same⟩ := Option.map_eq_some_iff.mp took
    cases same
    obtain ⟨up, packets⟩ := messages_taken up read (fair r read)
    exact ⟨⟨up, down⟩, packets, .refl _⟩
  takeReply := by
    rintro st st' k buf c ⟨up, down⟩ fair took
    obtain ⟨a, open', took⟩ := Option.bind_eq_some_iff.mp took
    obtain ⟨r, read, same⟩ := Option.map_eq_some_iff.mp took
    cases same
    obtain ⟨down, packets⟩ := messages_taken down read (fair a open' r read)
    exact ⟨⟨up, down⟩, .refl _, packets⟩
  accept := by
    rintro st st' v s all accepted
    simp only [Tcp.medium] at accepted
    split_ifs at accepted
    cases accepted
    exact ⟨all, .refl _, .refl _⟩
  turn := by
    rintro st st' c ⟨up, down⟩ - turned
    cases c with
    | length n => cases turned
    | connect k v =>
        cases turned
        exact ⟨⟨up, down⟩, .refl _, .refl _⟩
    | reset a =>
        cases turned
        refine ⟨⟨fun e member => up e (List.mem_of_mem_filter member),
          fun e member => down e (List.mem_of_mem_filter member)⟩, ?_, ?_⟩
        · exact (List.filter_sublist.map _).subperm
        · exact (List.filter_sublist.map _).subperm

variable {N : Nonces κ ι} {net : Network T.services κ ι} {st st' : Parties T.services κ ι (Tcp κ ι UInt8)}

/-- Every call of the parties has an xid and a procedure of 64 bits. -/
def Fits {S : Services} {σ : Type} (st : Parties S κ ι σ) : Prop :=
  ∀ k x i, (st.client k).shared.issued x = some i → x < 2 ^ 64 ∧ i.proc < 2 ^ 64

theorem sent_message {buf : T.services.Buf} {c : TcpChance κ ι} (fair : T.understood.send buf c)
    {t : Bytes} (text : buf = .inl t) (message : T.IsMessage t) : T.messages.send buf c := by
  subst text
  exact ⟨t, rfl, fair t rfl, message⟩

/-- What a party sends is a message, since it becomes a packet of the network. -/
theorem allow_messages (traced : net.Traced N) (same : (carries T).Matches st net) (fits : Fits st')
    {a : PartyAction T.services κ ι (TcpChance κ ι)} (fair : T.understood.allow st a)
    (moved : (Tcp.medium T.strings).next st a = some st') : T.messages.allow st a := by
  cases a with
  | client k m c =>
      rintro ⟨d, os⟩ ran buf out
      simp only [Medium.next] at moved
      split_ifs at moved with forged
      obtain ⟨r, ran', moved⟩ := Option.bind_eq_some_iff.mp moved
      cases ran'.symm.trans ran
      obtain ⟨s, -, rfl⟩ := Option.map_eq_some_iff.mp moved
      have step : Network.Stepped net (.client k m) (net.setClient k (d, os)) :=
        .client (by simpa using forged) (same.client ▸ ran)
      have traced' := traced.step step.changed
      have fits' : Wire.Fits (net.setClient k (d, os)) := by
        rw [Wire.Fits, Network.setClient, same.client]
        exact fits
      have request := traced'.requests (k, buf) (List.mem_append_left _ (List.mem_map_of_mem out))
      obtain ⟨h, args, -, -, text, message⟩ := request_text T traced' fits' request
      exact sent_message (fair _ ran buf out) text message
  | server v m c =>
      rintro ⟨d, os⟩ ran o out
      simp only [Medium.next] at moved
      split_ifs at moved with forged
      obtain ⟨r, ran', moved⟩ := Option.bind_eq_some_iff.mp moved
      cases ran'.symm.trans ran
      obtain ⟨s, -, rfl⟩ := Option.map_eq_some_iff.mp moved
      rw [Bool.or_eq_true, not_or] at forged
      have step : Network.Stepped net (.server v m) (net.setServer v (d, os)) :=
        .server (by simpa using forged.1) (same.server ▸ ran)
      have traced' := traced.step step.changed
      have fits' : Wire.Fits (net.setServer v (d, os)) := by
        rw [Wire.Fits, Network.setServer, same.client]
        exact fits
      have reply := traced'.replies (o.1.1, o.2)
        (List.mem_append_left _ (List.mem_map_of_mem (f := fun o => (o.1.1, o.2)) out))
      obtain ⟨t, text, message, -⟩ := reply_text T traced' fits' reply
      exact sent_message (fair _ ran o out) text message
  | _ => exact fair

/-- Clients stay in states that their own moves explain, whatever the sockets do. -/
theorem reachable_clients
    (run : Reachable (Tcp.medium T.strings).system T.understood.allow (Parties.start T.services N {}) st)
    (k : κ) : RpcClient.Traced (fun _ => True) (st.client k) := by
  apply run.invariant (I := fun st => ∀ k, RpcClient.Traced (fun _ => True) (st.client k))
  · exact fun k => RpcClient.start_traced _ _
  · intro st a st' _ traced _ moved k
    rcases Medium.moved_client moved k with same | ⟨m, os, ran⟩
    · exact same ▸ traced k
    · exact (traced k).move ran fun _ _ _ => trivial

theorem Fits.earlier (traced : ∀ k, RpcClient.Traced (fun _ => True) (st.client k)) (fits : Fits st')
    {a : PartyAction T.services κ ι (TcpChance κ ι)}
    (moved : (Tcp.medium T.strings).next st a = some st') : Fits st := by
  intro k x i issued
  rcases Medium.moved_client moved k with same | ⟨m, os, ran⟩
  · exact fits k x i (same ▸ issued)
  · exact fits k x i (((traced k).grown ran).issued x i issued)

/-- Over TCP, with reconnects and whatever the receives cut and join, the parties take the
steps of a network that neither loses nor copies a packet by itself, as long as each
`Send` takes its whole buffer and no receive fails to parse. -/
theorem tcp_refines_network (N : Nonces κ ι) (st : Parties T.services κ ι (Tcp κ ι UInt8))
    (run : Reachable (Tcp.medium T.strings).system T.understood.allow (Parties.start T.services N {}) st)
    (fits : Fits st) : ∃ net,
    Reachable (Network.system T.services κ ι) (fun _ => Medium.Untouched) (Network.start T.services N) net ∧
      net.client = st.client ∧ net.server = st.server ∧
      (Tcp.packets T.strings st.medium.up).Subperm net.requests ∧
      (Tcp.packets T.strings st.medium.down).Subperm net.replies := by
  have matched : ∃ net, Reachable (Network.system T.services κ ι) (fun _ => Medium.Untouched)
      (Network.start T.services N) net ∧ (carries T).Matches st net := by
    induction run with
    | init =>
        exact ⟨_, .init, rfl, rfl, ⟨nofun, nofun⟩, List.nil_subperm, List.nil_subperm⟩
    | step reached allowed moved ih =>
        obtain ⟨net, ran, same⟩ := ih (fits.earlier (reachable_clients reached) moved)
        have fair := allow_messages (Network.reachable_traced ran) same fits allowed moved
        obtain ⟨net', same', rfl | ⟨b, untouched, ran'⟩⟩ := (carries T).step same fair moved
        · exact ⟨net', ran, same'⟩
        · exact ⟨net', .step ran untouched ran', same'⟩
  obtain ⟨net, ran, same⟩ := matched
  exact ⟨net, ran, same.client, same.server, same.requests, same.replies⟩

/-- No packet is sent or taken. -/
noncomputable def quiet (st : Parties T.services κ ι (Tcp κ ι UInt8)) :
    PartyAction T.services κ ι (TcpChance κ ι) → Bool
  | .client k m _ => ((RpcClient.machine T.services).next (st.client k) m).all fun r => r.2.isEmpty
  | .accept _ _ _ | .turn _ => true
  | _ => false

theorem quiet_allowed {a : PartyAction T.services κ ι (TcpChance κ ι)} (h : quiet st a = true) :
    T.understood.allow st a := by
  cases a with
  | client k m c =>
      rintro r ran buf out
      rw [quiet, ran, Option.all_some, List.isEmpty_iff] at h
      rw [h] at out
      cases out
  | accept v i s => trivial
  | turn c => trivial
  | _ => cases h

/-- An instance takes the connection of the client, which puts together the request of
`Bind`. -/
noncomputable def bindReady : List (PartyAction wholeNumbers.services Unit Bool (TcpChance Unit Bool)) :=
  [.turn (.connect () false), .accept false 0 ((), 0), .client () (.act 0 (.connected .ok)) (.length 0),
    .client () (.spawn .bind) (.length 0), .client () (.act 0 .go) (.length 0),
    .client () (.act 0 .go) (.length 0)]

/-- The call whose request an activity is about to transmit. -/
def transmits {S : Services} : ClientTask S → Option Nat
  | .send x _ false => some x
  | _ => none

theorem transmits_eq {S : Services} {t : ClientTask S} {x : Nat} (h : transmits t = some x) :
    ∃ buf, t = .send x buf false := by
  cases t with
  | send y buf transmitted =>
      cases transmitted with
      | true => cases h
      | false =>
          cases h
          exact ⟨buf, rfl⟩
  | _ => cases h

theorem next_transmit {S : Services} {c : Cfg (RpcClient S) (ClientTask S)} {i x : Nat} {buf : S.Buf}
    (taken : c.pool[i]? = some (.send x buf false)) :
    (RpcClient.machine S).next c (.act i .transmit) =
      some (⟨c.shared, .send x buf true :: c.pool.eraseIdx i⟩, [buf]) := by
  simp [Machine.next, taken, RpcClient.machine, RpcClient.act]

theorem next_received {S : Services} {s : κ × Nat}
    {c : Cfg (RpcServer S (κ × Nat)) (ServerTask S (κ × Nat))} {i : Nat}
    (taken : c.pool[i]? = some (.receive s)) (buf : S.Buf) :
    (RpcServer.machine S (κ × Nat)).next c (.act i (.received buf .ok)) =
      some (⟨c.shared, .dispatch s buf :: c.pool.eraseIdx i⟩, []) := by
  simp [Machine.next, taken, RpcServer.machine, RpcServer.act]

theorem bindReady_run : ∃ st : Parties wholeNumbers.services Unit Bool (Tcp Unit Bool UInt8),
    (Tcp.medium wholeNumbers.strings).system.exec quiet
      (Parties.start wholeNumbers.services Network.restarted {}) bindReady = some st ∧
    (st.client ()).pool[0]?.bind transmits = some 2 ∧ (st.client ()).shared.xid = 3 ∧
    (st.client ()).shared.headers 2 = some ⟨2, BIND, 5, 0, 0⟩ ∧
    (((st.client ()).shared.issued 2).map fun i => (i.proc, (i.args : UInt32))) = some (BIND, 0) ∧
    st.medium.connection () = some (false, 0) ∧ st.medium.up.length = 0 ∧
    (st.server false).pool[0]?.bind Medium.receivesOn = some ((), 0) :=
  System.exec_any (by decide +kernel)

theorem bind_buf : (requestDoc wholeNumbers.services ⟨2, BIND, 5, 0, 0⟩ (0 : UInt32)).buf
    wholeNumbers.services.toCodec = .ok (.inl bindText) := by
  obtain ⟨text, -⟩ := codec_pair "req" ((wholeNumbers.args BIND).storable (0 : UInt32) rfl)
    (requestHeader_storable _ _ (h := ⟨2, BIND, 5, 0, 0⟩) (by decide))
  exact buf_ok_iff.mpr ⟨rfl, text.trans (congrArg Sum.inl requestText_bind)⟩

theorem tcp_refines_network_bind : ∃ net : Network wholeNumbers.services Unit Bool,
    Reachable (Network.system wholeNumbers.services Unit Bool) (fun _ => Medium.Untouched)
      (Network.start wholeNumbers.services Network.restarted) net ∧
    .dispatch ((), 0) (.inl bindText) ∈ (net.server false).pool := by
  obtain ⟨st, ran, sends, next, header, issued, connected, up, receives⟩ := bindReady_run
  have ready := (System.exec_reachable ran).mono fun _ _ => quiet_allowed
  have client := reachable_clients ready ()
  obtain ⟨t, sending, transmits⟩ := Option.bind_eq_some_iff.mp sends
  obtain ⟨buf, rfl⟩ := transmits_eq transmits
  obtain ⟨u, receiving, socket⟩ := Option.bind_eq_some_iff.mp receives
  cases Medium.receivesOn_eq socket
  obtain ⟨⟨p, args⟩, issued, same⟩ := Option.map_eq_some_iff.mp issued
  cases same
  obtain ⟨h, args, header', issued', written⟩ := client.held.task _ (List.mem_of_getElem? sending)
  cases header.symm.trans header'
  cases issued.symm.trans issued'
  cases bind_buf.symm.trans written
  have sends := next_transmit sending
  have allowed : wholeNumbers.understood.allow st
      (.client () (.act 0 .transmit) (.length bindText.length)) := by
    rintro r ran buf out
    cases sends.symm.trans ran
    obtain rfl := List.mem_singleton.mp out
    rintro t chars
    cases chars
    rfl
  have put : (Tcp.medium wholeNumbers.strings).sendRequest st.medium () (.inl bindText)
      (.length bindText.length) = some { st.medium with up := [((false, (), 0), bindText)] } := by
    simp only [Tcp.medium, connected, List.eq_nil_of_length_eq_zero up]
    rfl
  obtain ⟨st₁, sent, client', server, medium⟩ : ∃ st₁, (Tcp.medium wholeNumbers.strings).next st
      (.client () (.act 0 .transmit) (.length bindText.length)) = some st₁ ∧
      st₁.client () = ⟨(st.client ()).shared, .send 2 (.inl bindText) true ::
        (st.client ()).pool.eraseIdx 0⟩ ∧ st₁.server = st.server ∧
      st₁.medium.up = [((false, (), 0), bindText)] :=
    ⟨_, Medium.next_sends sends put, Function.update_self () _ st.client, rfl, rfl⟩
  have returned : Tcp.returned wholeNumbers.strings (false, (), 0) st₁.medium.up
      (.length bindText.length) = some (.inl bindText, []) := by
    rw [medium]
    rfl
  have parses : wholeNumbers.understood.allow st₁
      (.request false 0 ((), 0) (.length bindText.length)) := by
    intro r took
    cases returned.symm.trans took
    exact ⟨_, ofBuf_buf bind_buf⟩
  rw [← server] at receiving
  obtain ⟨st₂, took, client'', server'⟩ : ∃ st₂, (Tcp.medium wholeNumbers.strings).next st₁
      (.request false 0 ((), 0) (.length bindText.length)) = some st₂ ∧ st₂.client = st₁.client ∧
      st₂.server false = ⟨(st₁.server false).shared,
        .dispatch ((), 0) (.inl bindText) :: (st₁.server false).pool.eraseIdx 0⟩ :=
    ⟨_, Medium.next_receives receiving (congrArg (Option.map _) returned) (next_received receiving _),
      rfl, Function.update_self false _ st₁.server⟩
  have fits : Fits st₂ := by
    intro k x i here
    rw [client'', client'] at here
    have low := client.held.shared.least.2 x i here
    have high : ¬ 3 ≤ x := by
      intro late
      rw [client.held.shared.fresh x (next ▸ late)] at here
      cases here
    obtain rfl : x = 2 := by omega
    cases issued.symm.trans here
    decide
  obtain ⟨net, run, -, same, -, -⟩ := tcp_refines_network Network.restarted st₂
    (.step (.step ready allowed sent) parses took) fits
  refine ⟨net, run, ?_⟩
  rw [same, server']
  exact List.mem_cons_self

end OverTcp
end AsyncRpc.Wire
