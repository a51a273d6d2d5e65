import AsyncRpc.RpcClient

/-! Where the requests of a client and the runs of its callbacks come from. `R buf`
says which buffers its connection may deliver. -/
namespace AsyncRpc.RpcClient
open Interleaving

variable {S : Services}

/-- The bytes of the request that `Call` built for `x`. -/
def RequestOf (c : RpcClient S) (x : Nat) (buf : S.Buf) : Prop :=
  ∃ h args, c.headers x = some h ∧ c.issued x = some ⟨h.proc, args⟩ ∧
    (requestDoc S h args).buf S.toCodec = .ok buf

/-- A reply header and the rest of its buffer, from a buffer in `R`. -/
def Got (R : S.Buf → Prop) (h : ReplyHeader) (u : Unmarshall) : Prop :=
  ∃ buf, R buf ∧ readReply buf = .ok (h, u)

/-- Such a reply whose xid went to `UpdateXidRep`. -/
def Received (R : S.Buf → Prop) (c : RpcClient S) (h : ReplyHeader) (u : Unmarshall) : Prop :=
  Got R h u ∧ h.xid ∈ c.received

/-- A reply of `v` to a call of `p` with xid `x`. -/
def Replied (R : S.Buf → Prop) (c : RpcClient S) (x p : Nat) (e : Err) (v : S.Rep p) : Prop :=
  ∃ h u args, Received R c h u ∧ h.xid = x ∧ h.err = e ∧ c.issued x = some ⟨p, args⟩ ∧
    (u.get (S.rep p)).1 = .ok v

/-- A callback ran with a reply to `Bind`, and `n` is the nonce in it. -/
def Bound (c : RpcClient S) (n : UInt32) : Prop :=
  ∃ x v, ⟨x, BIND, .ok, some v⟩ ∈ c.callbacks ∧ S.nonce v = n

structure CallerKnown (c : RpcClient S) (x : Nat) (caller : Caller S) : Prop where
  issued : ∃ args, c.issued x = some ⟨caller.proc, args⟩
  bind : caller.cb = .bind → caller.proc = BIND
  buf : c.headers x ≠ none → RequestOf c x caller.buf
  sent : caller.timer ≠ .idle → c.headers x ≠ none

/-- A run of a callback without a reply has an error and belongs to a client that does
not retransmit; one with a reply has it from a buffer in `R`. -/
structure RunKnown (R : S.Buf → Prop) (c : RpcClient S) (r : CallbackRun S) : Prop where
  absent : r.reply = none → r.err ≠ .ok ∧ c.cltNonce = 0
  replied : ∀ v, r.reply = some v → Replied R c r.xid r.proc r.err v

structure HeaderKnown (c : RpcClient S) (x : Nat) (h : RequestHeader) : Prop where
  xid : h.xid = x
  cltNonce : h.cltNonce = c.cltNonce
  issued : ∃ args, c.issued x = some ⟨h.proc, args⟩
  bound : h.proc ≠ BIND → Bound c h.srvNonce
  named : h.srvNonce ≠ 0 → Bound c h.srvNonce
  xidRep : h.xidRep ≤ XidWindow.front c.xidRepWindow

structure Known (R : S.Buf → Prop) (c : RpcClient S) : Prop where
  fresh : ∀ x, c.xid ≤ x → c.issued x = none
  least : 2 ≤ c.xid ∧ ∀ x i, c.issued x = some i → 2 ≤ x
  pending : ∀ x ∈ c.callers, ∃ caller, c.heap x = some caller ∧ (0 < c.cltNonce → caller.done = false)
  callers : ∀ x caller, c.heap x = some caller → CallerKnown c x caller
  headers : ∀ x h, c.headers x = some h → HeaderKnown c x h
  runs : ∀ r ∈ c.callbacks, RunKnown R c r
  bound : c.bindDone = true → Bound c c.srvNonce
  unbound : c.bindDone = false → c.srvNonce = 0
  sorted : c.xidRepWindow.Pairwise (· ≤ ·)
  window : ∀ x ∈ c.xidRepWindow, x ∈ c.received
  acknowledged : ∀ x ∈ c.received, c.xidRepWindow ≠ []
  received : ∀ x ∈ c.received, ∃ h u, Got R h u ∧ h.xid = x

/-- A `Call` that has not built its header yet. -/
def Calling (c : RpcClient S) (x p : Nat) (req : Marshall) : Prop :=
  (∃ args, c.issued x = some ⟨p, args⟩ ∧ req = ({} : Marshall).put ((S.args p).toJson args)) ∧
    (p ≠ BIND → c.bindDone = true)

/-- Nobody but the holder of a claimed caller can reach it. -/
def Claimed (c : RpcClient S) (x : Nat) : Prop := x ∉ c.callers ∧ x < c.xid

/-- What an activity of the client relies on. -/
def TaskKnown (R : S.Buf → Prop) (c : RpcClient S) : ClientTask S → Prop
  | .connect | .receive => True
  | .callWindow x p req => Calling c x p req
  | .callSend x p req xidRep => Calling c x p req ∧ xidRep ≤ XidWindow.front c.xidRepWindow
  | .callWait x | .onTimerExpired x | .resend x | .reconnect x => c.headers x ≠ none
  | .send x buf _ => RequestOf c x buf
  | .sendFailed x e => c.headers x ≠ none ∧ e ≠ .ok
  | .failCallback _ e => e ≠ .ok ∧ c.cltNonce = 0
  | .gotPdu buf => R buf
  | .claim h u => Received R c h u
  | .claimed h u | .deliver h u => Received R c h u ∧ Claimed c h.xid
  | .finish x => Claimed c x
  | .rebind => 0 < c.cltNonce → ∃ x e v, e ≠ .ok ∧ Replied R c x BIND e v

/-- What a section never undoes. -/
structure Grown (c c' : RpcClient S) : Prop where
  cltNonce : c'.cltNonce = c.cltNonce
  xid : c.xid ≤ c'.xid
  issued : ∀ x i, c.issued x = some i → c'.issued x = some i
  headers : ∀ x h, c.headers x = some h → c'.headers x = some h
  bindDone : c.bindDone = true → c'.bindDone = true
  front : XidWindow.front c.xidRepWindow ≤ XidWindow.front c'.xidRepWindow
  callers : ∀ x, x < c.xid → x ∈ c'.callers → x ∈ c.callers
  received : ∀ x ∈ c.received, x ∈ c'.received
  callbacks : ∀ r ∈ c.callbacks, r ∈ c'.callbacks

variable {R R' : S.Buf → Prop} {c c' : RpcClient S}

theorem Grown.refl (c : RpcClient S) : Grown c c :=
  ⟨rfl, Nat.le_refl _, fun _ _ h => h, fun _ _ h => h, id, Nat.le_refl _, fun _ _ h => h,
    fun _ h => h, fun _ h => h⟩

theorem Grown.trans {c'' : RpcClient S} (first : Grown c c') (second : Grown c' c'') : Grown c c'' where
  cltNonce := second.cltNonce.trans first.cltNonce
  xid := first.xid.trans second.xid
  issued x i here := second.issued x i (first.issued x i here)
  headers x h here := second.headers x h (first.headers x h here)
  bindDone bound := second.bindDone (first.bindDone bound)
  front := first.front.trans second.front
  callers x early member := first.callers x early
    (second.callers x (Nat.lt_of_lt_of_le early first.xid) member)
  received x member := second.received x (first.received x member)
  callbacks r member := second.callbacks r (first.callbacks r member)

theorem Grown.header (grown : Grown c c') {x : Nat} (built : c.headers x ≠ none) :
    c'.headers x ≠ none := by
  obtain ⟨h, here⟩ := Option.ne_none_iff_exists'.mp built
  rw [grown.headers x h here]
  exact Option.some_ne_none h

theorem RequestOf.mono (grown : Grown c c') {x : Nat} {buf : S.Buf} (r : RequestOf c x buf) :
    RequestOf c' x buf := by
  obtain ⟨h, args, header, issued, same⟩ := r
  exact ⟨h, args, grown.headers x h header, grown.issued x _ issued, same⟩

theorem Got.mono (more : ∀ buf, R buf → R' buf) {h : ReplyHeader} {u : Unmarshall} (got : Got R h u) :
    Got R' h u :=
  got.imp fun buf found => ⟨more buf found.1, found.2⟩

theorem Received.mono (grown : Grown c c') (more : ∀ buf, R buf → R' buf) {h : ReplyHeader}
    {u : Unmarshall} (received : Received R c h u) : Received R' c' h u :=
  ⟨received.1.mono more, grown.received h.xid received.2⟩

theorem Replied.mono (grown : Grown c c') (more : ∀ buf, R buf → R' buf) {x p : Nat} {e : Err}
    {v : S.Rep p} (r : Replied R c x p e v) : Replied R' c' x p e v := by
  obtain ⟨h, u, args, got, xid, err, issued, value⟩ := r
  exact ⟨h, u, args, got.mono grown more, xid, err, grown.issued x _ issued, value⟩

theorem Bound.mono (grown : Grown c c') {n : UInt32} (b : Bound c n) : Bound c' n := by
  obtain ⟨x, v, ran, same⟩ := b
  exact ⟨x, v, grown.callbacks _ ran, same⟩

theorem RunKnown.mono (grown : Grown c c') (more : ∀ buf, R buf → R' buf) {r : CallbackRun S}
    (known : RunKnown R c r) : RunKnown R' c' r :=
  ⟨fun none => ⟨(known.absent none).1, grown.cltNonce.trans (known.absent none).2⟩,
    fun v same => (known.replied v same).mono grown more⟩

theorem HeaderKnown.mono (grown : Grown c c') {x : Nat} {h : RequestHeader}
    (known : HeaderKnown c x h) : HeaderKnown c' x h where
  xid := known.xid
  cltNonce := known.cltNonce.trans grown.cltNonce.symm
  issued := known.issued.imp fun _ => grown.issued x _
  bound other := (known.bound other).mono grown
  named some := (known.named some).mono grown
  xidRep := known.xidRep.trans grown.front

theorem Calling.mono (grown : Grown c c') {x p : Nat} {req : Marshall} (calling : Calling c x p req) :
    Calling c' x p req :=
  ⟨calling.1.imp fun _ found => ⟨grown.issued x _ found.1, found.2⟩,
    fun other => grown.bindDone (calling.2 other)⟩

theorem Claimed.mono (grown : Grown c c') {x : Nat} (claimed : Claimed c x) : Claimed c' x :=
  ⟨fun member => claimed.1 (grown.callers x claimed.2 member), Nat.lt_of_lt_of_le claimed.2 grown.xid⟩

/-- No section falsifies what another activity relies on. -/
theorem TaskKnown.mono (grown : Grown c c') (more : ∀ buf, R buf → R' buf) {t : ClientTask S}
    (known : TaskKnown R c t) : TaskKnown R' c' t := by
  cases t with
  | connect | receive => trivial
  | callWindow => exact Calling.mono grown known
  | callSend => exact ⟨Calling.mono grown known.1, known.2.trans grown.front⟩
  | callWait | onTimerExpired | resend | reconnect => exact grown.header known
  | send => exact RequestOf.mono grown known
  | sendFailed => exact ⟨grown.header known.1, known.2⟩
  | failCallback => exact ⟨known.1, grown.cltNonce.trans known.2⟩
  | gotPdu buf => exact more buf known
  | claim => exact Received.mono grown more known
  | claimed | deliver => exact ⟨Received.mono grown more known.1, Claimed.mono grown known.2⟩
  | finish => exact Claimed.mono grown known
  | rebind =>
      intro pos
      obtain ⟨x, e, v, failed, replied⟩ := known (grown.cltNonce ▸ pos)
      exact ⟨x, e, v, failed, replied.mono grown more⟩

theorem CallerKnown.mono (grown : Grown c c') {x : Nat} {caller : Caller S}
    (known : CallerKnown c x caller) (same : c'.headers x = c.headers x) : CallerKnown c' x caller where
  issued := known.issued.imp fun _ => grown.issued x _
  bind := known.bind
  buf built := (known.buf (same ▸ built)).mono grown
  sent ran := same ▸ known.sent ran

theorem Known.mono (known : Known R c) (more : ∀ buf, R buf → R' buf) : Known R' c where
  fresh := known.fresh
  least := known.least
  pending := known.pending
  callers := known.callers
  headers := known.headers
  runs r member := (known.runs r member).mono (.refl c) more
  bound := known.bound
  unbound := known.unbound
  sorted := known.sorted
  window := known.window
  acknowledged := known.acknowledged
  received x member := by
    obtain ⟨h, u, got, same⟩ := known.received x member
    exact ⟨h, u, got.mono more, same⟩

/-! What the operations of a section do to the shared state. -/

theorem call_cases (c : RpcClient S) (p : Nat) (args : S.Args p) (cb : Callback) :
    (c.call p args cb = (c, []) ∧ ¬ c.Accepts p) ∨
      (c.call p args cb = ({ c.store c.xid (some { proc := p, cb := cb, buf := S.empty }) with
          xid := c.xid + 1
          callers := insert c.xid c.callers
          issued := Function.update c.issued c.xid (some ⟨p, args⟩) },
        [.callWindow c.xid p (({} : Marshall).put ((S.args p).toJson args))]) ∧ c.Accepts p) := by
  unfold call
  split_ifs with accepted
  · exact .inr ⟨rfl, accepted⟩
  · exact .inl ⟨rfl, accepted⟩

theorem store_grown (c : RpcClient S) (x : Nat) (caller : Option (Caller S)) :
    Grown c (c.store x caller) :=
  ⟨rfl, Nat.le_refl _, fun _ _ h => h, fun _ _ h => h, id, Nat.le_refl _, fun _ _ h => h,
    fun _ h => h, fun _ h => h⟩

theorem call_grown (known : Known R c) (p : Nat) (args : S.Args p) (cb : Callback) :
    Grown c (c.call p args cb).1 := by
  rcases call_cases c p args cb with ⟨same, _⟩ | ⟨same, _⟩ <;> rw [same]
  · exact .refl c
  · refine ⟨rfl, Nat.le_succ _, fun x i here => ?_, fun _ _ h => h, id, Nat.le_refl _,
      fun x old member => ?_, fun _ h => h, fun _ h => h⟩
    · have old : x ≠ c.xid := by
        rintro rfl
        rw [known.fresh c.xid (Nat.le_refl _)] at here
        cases here
      exact (Function.update_of_ne old _ _).trans here
    · exact (Finset.mem_insert.mp member).resolve_left (Nat.ne_of_lt old)

theorem ran_grown (c : RpcClient S) (x : Nat) (caller : Caller S) (e : Err)
    (reply : Option (S.Rep caller.proc)) : Grown c (c.ranCallback x caller e reply) :=
  ⟨rfl, Nat.le_refl _, fun _ _ h => h, fun _ _ h => h, id, Nat.le_refl _, fun _ _ h => h,
    fun _ h => h, fun _ => List.mem_cons_of_mem _⟩

theorem bindCallback_grown (c : RpcClient S) (caller : Caller S) (e : Err)
    (v : S.Rep caller.proc) : Grown c (c.bindCallback caller e v) := by
  unfold bindCallback
  split_ifs
  · exact ⟨rfl, Nat.le_refl _, fun _ _ h => h, fun _ _ h => h, fun _ => rfl, Nat.le_refl _,
      fun _ _ h => h, fun _ h => h, fun _ h => h⟩
  · exact .refl c
  · exact .refl c

/-- The header of a request is built once, so `fresh` holds of the only section that
builds it. -/
theorem acted_grown {t : ClientTask S} {l : ClientLabel S} {ts : List (ClientTask S)}
    {os : List S.Buf} (step : Acted c t l c' ts os) (known : Known R c)
    (fresh : ∀ x p req r, t = .callSend x p req r → c.headers x = none) : Grown c c' := by
  cases step with
  | @callSend x p req xidRep caller live =>
      refine ⟨rfl, Nat.le_refl _, fun _ _ h => h, fun y h here => ?_, id, Nat.le_refl _,
        fun _ _ h => h, fun _ h => h, fun _ h => h⟩
      have other : y ≠ x := by
        rintro rfl
        rw [fresh y p req xidRep rfl] at here
        cases here
      exact (Function.update_of_ne other _ _).trans here
  | gotPdu =>
      exact ⟨rfl, Nat.le_refl _, fun _ _ h => h, fun _ _ h => h, id,
        XidWindow.front_updateXidRep_le known.sorted _, fun _ _ h => h,
        fun _ h => List.mem_cons_of_mem _ h, fun _ h => h⟩
  | claim =>
      exact ⟨rfl, Nat.le_refl _, fun _ _ h => h, fun _ _ h => h, id, Nat.le_refl _,
        fun _ _ member => Finset.mem_of_mem_erase member, fun _ h => h, fun _ h => h⟩
  | delivered => exact (ran_grown c _ _ _ _).trans (bindCallback_grown _ _ _ _)
  | timedOut => exact (store_grown c _ _).trans (ran_grown _ _ _ _ _)
  | failCallback => exact ran_grown c _ _ _ _
  | rebind => exact call_grown known _ _ _
  | _ =>
      exact ⟨rfl, Nat.le_refl _, fun _ _ h => h, fun _ _ h => h, id, Nat.le_refl _,
        fun _ _ h => h, fun _ h => h, fun _ h => h⟩

/-- What is left to show when a section touches the table of callers alone. -/
theorem Known.keep (known : Known R c) (grown : Grown c c')
    (headers : c'.headers = c.headers) (callbacks : c'.callbacks = c.callbacks)
    (binding : (c'.srvNonce, c'.bindDone) = (c.srvNonce, c.bindDone))
    (window : (c'.xidRepWindow, c'.received) = (c.xidRepWindow, c.received))
    (fresh : ∀ x, c'.xid ≤ x → c'.issued x = none)
    (least : 2 ≤ c'.xid ∧ ∀ x i, c'.issued x = some i → 2 ≤ x)
    (pending : ∀ x ∈ c'.callers, ∃ caller, c'.heap x = some caller ∧
      (0 < c'.cltNonce → caller.done = false))
    (callers : ∀ x caller, c'.heap x = some caller → CallerKnown c' x caller) : Known R c' := by
  obtain ⟨srvNonce, bindDone⟩ := Prod.mk.inj binding
  obtain ⟨xidRepWindow, received⟩ := Prod.mk.inj window
  refine ⟨fresh, least, pending, callers, fun x h here => ?_, fun r member => ?_, fun bound => ?_,
    ?_, ?_, ?_, ?_, fun x member => ?_⟩
  · exact (known.headers x h (headers ▸ here)).mono grown
  · exact (known.runs r (callbacks ▸ member)).mono grown fun _ => id
  · rw [srvNonce]
    exact (known.bound (bindDone ▸ bound)).mono grown
  · exact srvNonce ▸ bindDone ▸ known.unbound
  · exact xidRepWindow ▸ known.sorted
  · exact xidRepWindow ▸ received ▸ known.window
  · exact xidRepWindow ▸ received ▸ known.acknowledged
  · exact known.received x (received ▸ member)

theorem call_known (known : Known R c) (p : Nat) (args : S.Args p) (cb : Callback)
    (bind : cb = .bind → p = BIND) : Known R (c.call p args cb).1 := by
  have grown := call_grown known p args cb
  rcases call_cases c p args cb with ⟨same, _⟩ | ⟨same, _⟩ <;> rw [same] at grown ⊢
  · exact known
  have unborn : c.headers c.xid = none := by
    by_contra built
    obtain ⟨h, here⟩ := Option.ne_none_iff_exists'.mp built
    obtain ⟨_, issued⟩ := (known.headers c.xid h here).issued
    rw [known.fresh c.xid (Nat.le_refl _)] at issued
    cases issued
  refine known.keep grown rfl rfl rfl rfl (fun x late => ?_)
    ⟨known.least.1.trans (Nat.le_succ _), fun x i issued => ?_⟩ (fun x member => ?_)
    fun x caller live => ?_
  · have late : c.xid + 1 ≤ x := late
    have other : x ≠ c.xid := by omega
    exact (Function.update_of_ne other _ _).trans (known.fresh x (by omega))
  · by_cases new : x = c.xid
    · exact new ▸ known.least.1
    · exact known.least.2 x i ((Function.update_of_ne new _ _).symm.trans issued)
  · by_cases new : x = c.xid
    · subst new
      exact ⟨_, Function.update_self _ _ _, fun _ => rfl⟩
    · have old := (Finset.mem_insert.mp member).resolve_left new
      obtain ⟨caller, live, undone⟩ := known.pending x old
      exact ⟨caller, (Function.update_of_ne new _ _).trans live, undone⟩
  · by_cases new : x = c.xid
    · subst new
      cases (Function.update_self (f := c.heap) c.xid _).symm.trans live
      exact ⟨⟨args, Function.update_self _ _ _⟩, bind, fun built => absurd unborn built,
        fun armed => absurd rfl armed⟩
    · have live : c.heap x = some caller := (Function.update_of_ne new _ _).symm.trans live
      exact (known.callers x caller live).mono grown rfl

theorem call_tasks (R : S.Buf → Prop) (c : RpcClient S) (p : Nat) (args : S.Args p)
    (cb : Callback) : ∀ u ∈ (c.call p args cb).2, TaskKnown R (c.call p args cb).1 u := by
  intro u member
  rcases call_cases c p args cb with ⟨same, _⟩ | ⟨same, accepted⟩ <;> rw [same] at member ⊢
  · cases member
  · cases List.mem_singleton.mp member
    refine ⟨⟨args, Function.update_self _ _ _, rfl⟩, fun other => ?_⟩
    exact Bool.of_not_eq_false fun unset => accepted (.inl ⟨other, unset⟩)

/-- An update of the object of `y`. -/
theorem known_store (known : Known R c) {y : Nat} {caller : Caller S} (here : CallerKnown c y caller)
    (undone : y ∈ c.callers → 0 < c.cltNonce → caller.done = false) :
    Known R (c.store y (some caller)) := by
  have grown := store_grown c y (some caller)
  refine known.keep grown rfl rfl rfl rfl known.fresh known.least (fun x member => ?_)
    fun x caller' live => ?_
  · by_cases same : x = y
    · subst same
      exact ⟨caller, store_same _ _ _, undone member⟩
    · obtain ⟨caller', live, undone⟩ := known.pending x member
      exact ⟨caller', (store_other same).trans live, undone⟩
  · by_cases same : x = y
    · subst same
      cases (store_same c x _).symm.trans live
      exact here.mono grown rfl
    · have live : c.heap x = some caller' := (store_other same).symm.trans live
      exact (known.callers x caller' live).mono grown rfl

theorem known_destroy (known : Known R c) {y : Nat} (claimed : Claimed c y) :
    Known R (c.store y none) := by
  have grown := store_grown c y none
  refine known.keep grown rfl rfl rfl rfl known.fresh known.least (fun x member => ?_)
    fun x caller live => ?_
  · have other : x ≠ y := fun same => claimed.1 (same ▸ member)
    obtain ⟨caller, live, undone⟩ := known.pending x member
    exact ⟨caller, (store_other other).trans live, undone⟩
  · have other : x ≠ y := by
      rintro rfl
      simp [store] at live
    have live : c.heap x = some caller := (store_other other).symm.trans live
    exact (known.callers x caller live).mono grown rfl

theorem known_throwing (known : Known R c) (e : Exn) : Known R (c.throwing e) := by
  have grown : Grown c (c.throwing e) := ⟨rfl, Nat.le_refl _, fun _ _ h => h, fun _ _ h => h, id,
    Nat.le_refl _, fun _ _ h => h, fun _ h => h, fun _ h => h⟩
  exact known.keep grown rfl rfl rfl rfl known.fresh known.least known.pending
    fun x caller live => (known.callers x caller live).mono grown rfl

theorem known_ran (known : Known R c) {x : Nat} {caller : Caller S} {e : Err}
    {reply : Option (S.Rep caller.proc)} (run : RunKnown R c ⟨x, caller.proc, e, reply⟩) :
    Known R (c.ranCallback x caller e reply) := by
  have grown := ran_grown c x caller e reply
  refine { known with
    callers := fun x caller live => (known.callers x caller live).mono grown rfl
    headers := fun x h here => (known.headers x h here).mono grown
    runs := fun r member => ?_
    bound := fun bound => (known.bound bound).mono grown }
  rcases List.mem_cons.mp member with rfl | old
  · exact run.mono grown fun _ => id
  · exact (known.runs r old).mono grown fun _ => id

/-- The callback of `Bind` on a reply to a call of `BIND`. -/
theorem known_bound (known : Known R c) {x : Nat} {caller : Caller S} {e : Err}
    {v : S.Rep caller.proc} (ran : ⟨x, caller.proc, e, some v⟩ ∈ c.callbacks) :
    Known R (c.bindCallback caller e v) := by
  obtain ⟨proc, cb, buf, done, err, timer⟩ := caller
  unfold bindCallback
  split_ifs with isBind ok
  · obtain ⟨_, isProc⟩ := isBind
    subst ok
    have isProc : proc = BIND := isProc
    subst isProc
    have grown : Grown c { c with srvNonce := S.nonce v, bindDone := true } := ⟨rfl, Nat.le_refl _,
      fun _ _ h => h, fun _ _ h => h, fun _ => rfl, Nat.le_refl _, fun _ _ h => h, fun _ h => h,
      fun _ h => h⟩
    exact { known with
      callers := fun x caller live => (known.callers x caller live).mono grown rfl
      headers := fun x h here => (known.headers x h here).mono grown
      runs := fun r member => (known.runs r member).mono grown fun _ => id
      bound := fun _ => ⟨x, v, ran, rfl⟩
      unbound := fun unset => by cases unset }
  · exact known
  · exact known

theorem known_claim (known : Known R c) (x : Nat) : Known R { c with callers := c.callers.erase x } := by
  have grown : Grown c { c with callers := c.callers.erase x } := ⟨rfl, Nat.le_refl _,
    fun _ _ h => h, fun _ _ h => h, id, Nat.le_refl _,
    fun _ _ member => Finset.mem_of_mem_erase member, fun _ h => h, fun _ h => h⟩
  exact known.keep grown rfl rfl rfl rfl known.fresh known.least
    (fun y member => known.pending y (Finset.mem_of_mem_erase member))
    fun y caller live => (known.callers y caller live).mono grown rfl

theorem known_received (known : Known R c) {h : ReplyHeader} {u : Unmarshall} (got : Got R h u) :
    Known R { c with
      xidRepWindow := XidWindow.updateXidRep c.xidRepWindow h.xid
      received := h.xid :: c.received } := by
  have grown : Grown c { c with
      xidRepWindow := XidWindow.updateXidRep c.xidRepWindow h.xid
      received := h.xid :: c.received } := ⟨rfl, Nat.le_refl _, fun _ _ h => h, fun _ _ h => h, id,
    XidWindow.front_updateXidRep_le known.sorted _, fun _ _ h => h,
    fun _ h => List.mem_cons_of_mem _ h, fun _ h => h⟩
  refine { known with
    callers := fun x caller live => (known.callers x caller live).mono grown rfl
    headers := fun x h here => (known.headers x h here).mono grown
    runs := fun r member => (known.runs r member).mono grown fun _ => id
    bound := fun bound => (known.bound bound).mono grown
    sorted := XidWindow.updateXidRep_sorted known.sorted _
    window := fun x member => ?_
    acknowledged := fun _ _ => XidWindow.updateXidRep_ne_nil _ _
    received := fun x member => ?_ }
  · rcases XidWindow.updateXidRep_mem member with rfl | old
    · exact List.mem_cons_self
    · exact List.mem_cons_of_mem _ (known.window x old)
  · rcases List.mem_cons.mp member with rfl | old
    · exact ⟨h, u, got, rfl⟩
    · exact known.received x old

/-- `c` once `Call` has built the header and the bytes of `x`. -/
def built (c : RpcClient S) (x : Nat) (caller : Caller S) (h : RequestHeader) (buf : S.Buf) :
    RpcClient S :=
  { c.store x (some { caller with buf := buf }) with
    headers := Function.update c.headers x (some h) }

theorem built_grown {x : Nat} (fresh : c.headers x = none) (caller : Caller S) (h : RequestHeader)
    (buf : S.Buf) : Grown c (c.built x caller h buf) := by
  refine ⟨rfl, Nat.le_refl _, fun _ _ h => h, fun y h here => ?_, id, Nat.le_refl _, fun _ _ h => h,
    fun _ h => h, fun _ h => h⟩
  have other : y ≠ x := by
    rintro rfl
    rw [fresh] at here
    cases here
  exact (Function.update_of_ne other _ _).trans here

theorem known_built (known : Known R c) {x p xidRep : Nat} {args : S.Args p} {caller : Caller S}
    {buf : S.Buf} (written : (requestDoc S (c.header x p xidRep) args).buf S.toCodec = .ok buf)
    (issued : c.issued x = some ⟨p, args⟩) (bound : p ≠ BIND → c.bindDone = true)
    (front : xidRep ≤ XidWindow.front c.xidRepWindow) (fresh : c.headers x = none)
    (live : c.heap x = some caller) :
    Known R (c.built x caller (c.header x p xidRep) buf) := by
  have grown := built_grown fresh caller (c.header x p xidRep) buf
  refine ⟨known.fresh, known.least, fun y member => ?_, fun y caller' live' => ?_,
    fun y h here => ?_, fun r member => (known.runs r member).mono grown fun _ => id,
    fun bound => (known.bound bound).mono grown, known.unbound, known.sorted,
    known.window, known.acknowledged, known.received⟩
  · obtain ⟨caller', live', undone⟩ := known.pending y member
    by_cases same : y = x
    · subst same
      cases live.symm.trans live'
      exact ⟨_, Function.update_self _ _ _, undone⟩
    · exact ⟨caller', (Function.update_of_ne same _ _).trans live', undone⟩
  · by_cases same : y = x
    · subst same
      cases (Function.update_self (f := c.heap) y _).symm.trans live'
      have old := known.callers y caller live
      exact ⟨old.issued, old.bind,
        fun _ => ⟨c.header y p xidRep, args, Function.update_self _ _ _, issued, written⟩,
        fun _ => by simp [built]⟩
    · have live' : c.heap y = some caller' := (Function.update_of_ne same _ _).symm.trans live'
      exact (known.callers y caller' live').mono grown (Function.update_of_ne same _ _)
  · by_cases same : y = x
    · subst same
      cases (Function.update_self (f := c.headers) y _).symm.trans here
      refine ⟨rfl, rfl, ⟨args, issued⟩, fun other => (known.bound (bound other)).mono grown,
        fun some => ?_, front⟩
      have bound : c.bindDone = true := Bool.of_not_eq_false fun unset => some (known.unbound unset)
      exact (known.bound bound).mono grown
    · have here : c.headers y = some h := (Function.update_of_ne same _ _).symm.trans here
      exact (known.headers y h here).mono grown

/-- After a callback only a failed `Bind` leaves something to do. -/
theorem afterCallback_known {caller : Caller S} {e : Err}
    (failed : 0 < c.cltNonce → caller.cb = .bind → e ≠ .ok →
      ∃ x e v, e ≠ .ok ∧ Replied R c x BIND e v) :
    ∀ u ∈ afterCallback caller e, TaskKnown R c u := by
  intro u member
  unfold afterCallback at member
  split_ifs at member with again
  · cases List.mem_singleton.mp member
    exact fun pos => failed pos again.1 again.2
  · cases member

/-- What a section leaves behind is traced back as what it started from is. -/
theorem acted_known {t : ClientTask S} {l : ClientLabel S} {ts : List (ClientTask S)}
    {os : List S.Buf} (step : Acted c t l c' ts os) (known : Known R c) (task : TaskKnown R c t)
    (fresh : ∀ x p req r, t = .callSend x p req r → c.headers x = none)
    (arrives : ∀ buf, t = .receive → l = .received buf .ok → R buf) :
    Known R c' ∧ ∀ u ∈ ts, TaskKnown R c' u := by
  have grown := acted_grown step known fresh
  cases step with
  | connected => exact ⟨known.keep grown rfl rfl rfl rfl known.fresh known.least known.pending
      fun x caller live => (known.callers x caller live).mono grown rfl, by simp [TaskKnown]⟩
  | connectFailed | reconnectFailed | callThrew => exact ⟨known_throwing known _, by simp⟩
  | receiveFailed | timerDone | sendFailedGone | claimGone => exact ⟨known, by simp⟩
  | received => exact ⟨known, by simpa [TaskKnown] using arrives _ rfl rfl⟩
  | callWindow => exact ⟨known, by simpa [TaskKnown] using task⟩
  | @callSend x p req xidRep caller buf live written =>
      obtain ⟨⟨⟨args, issued, rfl⟩, bound⟩, front⟩ := task
      refine ⟨known_built known written issued bound front (fresh x p _ xidRep rfl) live, ?_⟩
      intro u member
      rcases List.mem_cons.mp member with rfl | member
      · exact ⟨c.header x p xidRep, args, Function.update_self _ _ _, issued, written⟩
      · cases List.mem_singleton.mp member
        show Function.update c.headers x _ x ≠ none
        rw [Function.update_self]
        exact Option.some_ne_none _
  | @callWait x caller live =>
      have old := known.callers x caller live
      refine ⟨known_store known ⟨old.issued, old.bind, old.buf, fun _ => task⟩ ?_, by simp⟩
      intro member pos
      obtain ⟨caller', live', undone⟩ := known.pending x member
      cases live.symm.trans live'
      exact undone pos
  | @timedOut x caller live undone zero =>
      have old := known.callers x caller live
      have stored : Known R
          (c.store x (some { caller with done := true, err := .timeoutFailure })) :=
        known_store known ⟨old.issued, old.bind, old.buf, old.sent⟩
          fun _ pos => absurd zero.symm (UInt32.ne_of_lt pos)
      refine ⟨known_ran stored ⟨fun _ => ⟨by simp, zero⟩, fun v same => by cases same⟩, ?_⟩
      exact afterCallback_known fun pos => absurd zero.symm (UInt32.ne_of_lt pos)
  | timerRetry => exact ⟨known, by simpa [TaskKnown] using task⟩
  | resend live => exact ⟨known, by simpa [TaskKnown] using (known.callers _ _ live).buf task⟩
  | transmitted => exact ⟨known, by simpa [TaskKnown] using task⟩
  | sent => exact ⟨known, by simp [TaskKnown]⟩
  | sendFailed failed _ =>
      obtain ⟨h, _, header, _⟩ := task
      refine ⟨known, ?_⟩
      simp only [List.mem_singleton, forall_eq]
      exact ⟨by rw [header]; exact Option.some_ne_none h, failed⟩
  | sendReconnect => exact ⟨known, by simpa [TaskKnown] using task.1⟩
  | sendRetry live => exact ⟨known, by simpa [TaskKnown] using (known.callers _ _ live).buf task.1⟩
  | @sendGaveUp x e caller live zero =>
      have old := known.callers x caller live
      refine ⟨known_store known ⟨old.issued, old.bind, old.buf, old.sent⟩
        fun _ pos => absurd zero.symm (UInt32.ne_of_lt pos), ?_⟩
      simpa [TaskKnown] using ⟨task.2, zero⟩
  | @failCallback x e caller live =>
      refine ⟨known_ran known ⟨fun _ => task, fun v same => by cases same⟩, ?_⟩
      exact afterCallback_known fun pos => absurd task.2.symm (UInt32.ne_of_lt pos)
  | reconnected live => exact ⟨known, by simpa [TaskKnown] using (known.callers _ _ live).buf task⟩
  | gotPduThrew => exact ⟨known_throwing known _, by simp⟩
  | gotPdu reads =>
      have got : Got R _ _ := ⟨_, task, reads⟩
      exact ⟨known_received known got, by simpa [TaskKnown, Received] using got⟩
  | @claim h u member =>
      refine ⟨known_claim known h.xid, ?_⟩
      simp only [List.mem_singleton, forall_eq]
      refine ⟨task, Finset.notMem_erase h.xid c.callers, Nat.lt_of_not_le fun late => ?_⟩
      obtain ⟨caller, live, _⟩ := known.pending h.xid member
      obtain ⟨args, issued⟩ := (known.callers h.xid caller live).issued
      rw [known.fresh h.xid late] at issued
      cases issued
  | claimedDone => exact ⟨known, by simpa [TaskKnown] using task.2⟩
  | @claimed h u caller live undone =>
      have old := known.callers h.xid caller live
      refine ⟨known_store known ⟨old.issued, old.bind, old.buf, old.sent⟩
        fun member => absurd member task.2.1, ?_⟩
      simpa [TaskKnown] using ⟨task.1, Claimed.mono grown task.2⟩
  | deliverThrew => exact ⟨known_throwing (known_destroy known task.2) _, by simp⟩
  | @delivered h u caller v live value =>
      obtain ⟨args, issued⟩ := (known.callers h.xid caller live).issued
      have replied : Replied R c h.xid caller.proc h.err v :=
        ⟨h, u, args, task.1, rfl, rfl, issued, value⟩
      have run : RunKnown R c ⟨h.xid, caller.proc, h.err, some v⟩ := by
        constructor
        · intro absent
          cases absent
        · intro w same
          cases same
          exact replied
      refine ⟨known_bound (known_ran known run) List.mem_cons_self, fun t member => ?_⟩
      rcases List.mem_cons.mp member with rfl | member
      · exact Claimed.mono grown task.2
      · refine afterCallback_known (fun _ bind failed => ?_) t member
        obtain ⟨proc, cb, buf, done, err, timer⟩ := caller
        have isBind := (known.callers h.xid _ live).bind bind
        have isBind : proc = BIND := isBind
        subst isBind
        exact ⟨h.xid, h.err, v, failed, replied.mono grown fun _ => id⟩
  | finish => exact ⟨known_destroy known task, by simp⟩
  | rebind => exact ⟨call_known known _ _ _ fun _ => rfl, call_tasks R c BIND S.bindArgs .bind⟩

theorem countBind_grown (c : RpcClient S) : Grown c c.countBind :=
  ⟨rfl, Nat.le_refl _, fun _ _ h => h, fun _ _ h => h, id, Nat.le_refl _, fun _ _ h => h,
    fun _ h => h, fun _ h => h⟩

theorem counted_known (known : Known R c) : Known R c.countBind :=
  known.keep (countBind_grown c) rfl rfl rfl rfl known.fresh known.least known.pending
    fun x caller live => (known.callers x caller live).mono (countBind_grown c) rfl

theorem spawned_known {e : ClientEvent S} {ts : List (ClientTask S)} (step : Spawned c e c' ts)
    (known : Known R c) : Grown c c' ∧ Known R c' ∧ ∀ u ∈ ts, TaskKnown R c' u := by
  cases step with
  | call => exact ⟨call_grown known _ _ _, call_known known _ _ _ (by simp), call_tasks R c _ _ _⟩
  | bind =>
      have called := call_grown (counted_known known) BIND S.bindArgs .bind
      exact ⟨(countBind_grown c).trans called, call_known (counted_known known) _ _ _ fun _ => rfl,
        call_tasks R c.countBind _ _ _⟩
  | @expire x caller live armed =>
      have old := known.callers x caller live
      have built : c.headers x ≠ none := old.sent (by simp [armed])
      refine ⟨store_grown c x _, known_store known ⟨old.issued, old.bind, old.buf, fun _ => built⟩
        fun member pos => ?_, by simpa [TaskKnown, store] using built⟩
      obtain ⟨caller', live', undone⟩ := known.pending x member
      cases live.symm.trans live'
      exact undone pos

/-! An issued call has at most one header: it is either still to be built by the one
activity that runs the `Call`, or built, or an exception has left the `Call`. -/

def unsent (x : Nat) : ClientTask S → Nat
  | .callWindow y _ _ | .callSend y _ _ _ => if y = x then 1 else 0
  | _ => 0

def present {α : Type} (o : Option α) : Nat := if o.isSome then 1 else 0

theorem present_le {α : Type} (o : Option α) : present o ≤ 1 := by
  unfold present
  split_ifs <;> omega

theorem call_unsent (known : Known R c) (p : Nat) (args : S.Args p) (cb : Callback) (x : Nat) :
    weigh (unsent x) (c.call p args cb).2 + present ((c.call p args cb).1.headers x) +
        present (c.issued x) =
      present (c.headers x) + present ((c.call p args cb).1.issued x) := by
  rcases call_cases c p args cb with ⟨same, _⟩ | ⟨same, _⟩ <;> rw [same]
  · rw [weigh_nil, Nat.zero_add]
  · simp only [weigh_cons, weigh_nil, unsent, Nat.add_zero]
    by_cases new : c.xid = x
    · subst new
      rw [known.fresh c.xid (Nat.le_refl _), if_pos rfl, Function.update_self]
      exact Nat.add_comm 1 _
    · rw [if_neg new, Function.update_of_ne (Ne.symm new), Nat.zero_add]
      rfl

theorem acted_unsent {t : ClientTask S} {l : ClientLabel S} {ts : List (ClientTask S)}
    {os : List S.Buf} (step : Acted c t l c' ts os) (known : Known R c)
    (fresh : ∀ x p req r, t = .callSend x p req r → c.headers x = none) (x : Nat) :
    weigh (unsent x) ts + present (c'.headers x) + present (c.issued x) ≤
      unsent x t + present (c.headers x) + present (c'.issued x) := by
  cases step with
  | @callSend y p req xidRep caller buf live =>
      simp only [weigh_cons, weigh_nil, unsent, Nat.add_zero]
      by_cases same : y = x
      · subst same
        rw [fresh y p req xidRep rfl, if_pos rfl, Function.update_self]
        exact Nat.le_of_eq (congrArg (· + present (c.issued y)) (by rfl))
      · rw [if_neg same, Function.update_of_ne (Ne.symm same)]
        exact Nat.le_refl _
  | callThrew =>
      exact Nat.add_le_add_right (Nat.add_le_add_right (Nat.zero_le _) _) _
  | timedOut | failCallback => rw [weigh_afterCallback rfl]; exact Nat.le_refl _
  | @delivered h u caller v live value =>
      rw [bindCallback_eq, weigh_cons, weigh_afterCallback rfl]
      exact Nat.le_refl _
  | rebind =>
      rw [call_unsent known]
      exact Nat.add_le_add_right (Nat.le_add_left _ _) _
  | _ => exact Nat.le_refl _

theorem spawned_unsent {e : ClientEvent S} {ts : List (ClientTask S)} (step : Spawned c e c' ts)
    (known : Known R c) (x : Nat) :
    weigh (unsent x) ts + present (c'.headers x) + present (c.issued x) =
      present (c.headers x) + present (c'.issued x) := by
  cases step with
  | call => exact call_unsent known _ _ _ x
  | bind => exact call_unsent (c := c.countBind) (counted_known known) _ _ _ x
  | expire => exact congrArg (· + _) (Nat.zero_add _)

/-- Only a `Send` hands bytes to the socket. -/
theorem acted_output {t : ClientTask S} {l : ClientLabel S} {ts : List (ClientTask S)}
    {os : List S.Buf} (step : Acted c t l c' ts os) {buf : S.Buf} (out : buf ∈ os) :
    ∃ x, t = .send x buf false ∧ c' = c := by
  cases step with
  | transmitted =>
      cases List.mem_singleton.mp out
      exact ⟨_, rfl, rfl⟩
  | _ => cases out

structure Traced (R : S.Buf → Prop) (c : Cfg (RpcClient S) (ClientTask S)) : Prop where
  held : Holds (Known R) (TaskKnown R) c
  headers : ∀ x, weigh (unsent x) c.pool + present (c.shared.headers x) ≤ present (c.shared.issued x)

theorem Traced.mono {R R' : S.Buf → Prop} {c : Cfg (RpcClient S) (ClientTask S)} (h : Traced R c)
    (more : ∀ buf, R buf → R' buf) : Traced R' c :=
  ⟨⟨h.held.shared.mono more, fun t member => (h.held.task t member).mono (.refl _) more⟩, h.headers⟩

theorem start_traced (R : S.Buf → Prop) (cltNonce : UInt32) : Traced R (start S cltNonce) := by
  refine ⟨⟨⟨fun _ _ => rfl, ⟨Nat.le_refl _, ?_⟩, ?_, ?_, ?_, ?_, ?_, fun _ => rfl,
    List.Pairwise.nil, ?_, ?_, ?_⟩, ?_⟩, fun _ => Nat.le_refl _⟩
  · intro x i issued; cases issued
  · intro x member; cases member
  · intro x caller live; cases live
  · intro x h built; cases built
  · intro r member; cases member
  · intro bound; cases bound
  · intro x member; cases member
  · intro x member; cases member
  · intro x member; cases member
  · intro t member; cases List.mem_singleton.mp member; trivial

/-- The activity that builds a header finds none. -/
theorem Traced.fresh {c : Cfg (RpcClient S) (ClientTask S)} (h : Traced R c) {x p r : Nat}
    {req : Marshall} (member : .callSend x p req r ∈ c.pool) : c.shared.headers x = none := by
  have one : 1 ≤ weigh (unsent x) c.pool := by
    simpa [unsent] using weigh_pos (w := unsent x) member
  have account := h.headers x
  cases built : c.shared.headers x with
  | none => rfl
  | some hd =>
      rw [built] at account
      have : present (c.shared.issued x) ≤ 1 := by unfold present; split_ifs <;> omega
      simp only [present, Option.isSome_some, if_true] at account this
      omega

theorem Traced.grown {c c' : Cfg (RpcClient S) (ClientTask S)}
    {m : Move (ClientLabel S) (ClientEvent S)} {os : List S.Buf} (h : Traced R c)
    (moved : (machine S).Moved c c' os m) : Grown c.shared c'.shared := by
  cases moved with
  | act t rest ts taken split ran left =>
      apply acted_grown (acted ran) h.held.shared
      rintro x p req r rfl
      exact h.fresh (List.mem_of_getElem? taken)
  | spawn ts ran quiet left => exact (spawned_known (spawned ran) h.held.shared).1

theorem Traced.move {c c' : Cfg (RpcClient S) (ClientTask S)}
    {m : Move (ClientLabel S) (ClientEvent S)} {os : List S.Buf} (h : Traced R c)
    (moved : (machine S).Moved c c' os m)
    (arrives : ∀ i buf, m = .act i (.received buf .ok) → R buf) : Traced R c' := by
  have grown := h.grown moved
  have unbuilt : ∀ {i : Nat} {t : ClientTask S}, c.pool[i]? = some t →
      ∀ x p req r, t = .callSend x p req r → c.shared.headers x = none := by
    rintro i t taken x p req r rfl
    exact h.fresh (List.mem_of_getElem? taken)
  refine ⟨Holds.move h.held moved ?_ ?_, fun x => ?_⟩
  · rintro i l t rest ts rfl taken _ task ran
    obtain ⟨shared, fresh⟩ := acted_known (acted ran) h.held.shared task (unbuilt taken)
      fun buf _ label => arrives i buf (label ▸ rfl)
    exact ⟨shared, fresh, fun u _ known => known.mono grown fun _ => id⟩
  · rintro e ts rfl ran
    obtain ⟨_, shared, fresh⟩ := spawned_known (spawned ran) h.held.shared
    exact ⟨shared, fresh, fun u _ known => known.mono grown fun _ => id⟩
  · have before := h.headers x
    cases moved with
    | act t rest ts taken split ran left =>
        have step := acted_unsent (acted ran) h.held.shared (unbuilt taken) x
        have account := weigh_act (unsent x) split left
        omega
    | spawn ts ran quiet left =>
        have step := spawned_unsent (spawned ran) h.held.shared x
        rw [left, weigh_append]
        omega

/-- Whatever a move hands to the socket is the request of an issued call. -/
theorem Traced.output {c c' : Cfg (RpcClient S) (ClientTask S)}
    {m : Move (ClientLabel S) (ClientEvent S)} {os : List S.Buf} (h : Traced R c)
    (moved : (machine S).Moved c c' os m) {buf : S.Buf} (out : buf ∈ os) :
    ∃ x, RequestOf c'.shared x buf := by
  cases moved with
  | act t rest ts taken split ran left =>
      obtain ⟨x, rfl, same⟩ := acted_output (acted ran) out
      have request : RequestOf c.shared x buf := h.held.task _ (List.mem_of_getElem? taken)
      exact ⟨x, same ▸ request⟩
  | spawn ts ran quiet left => subst quiet; cases out

end AsyncRpc.RpcClient
