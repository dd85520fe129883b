import OpenHes.Analysis.CoreSideBySide
import OpenHes.Analysis.Frames
import OpenHes.Analysis.Mediation
import OpenHes.Analysis.ProofBinding

/-!
# Where credentials go

Frames that differ in the bytes of `cred_info` and `user_name` are read as messages that
differ in their credentials, as long as no string before them runs on into them. Two runs on
such frames send the same as long as every authorization comes out the same, with one
exception: the relay passes the PUT of a leaf on as it came, with what accompanied it.
-/

set_option autoImplicit false

namespace OpenHes.Analysis

open OpenHes.Library OpenHes.Model

variable {V α : Type}

/-! ## Bytes outside the credentials -/

/-- The bytes agree outside the arrays of `cred_info` and `user_name`. -/
def AgreeOutsideCredentials (x y : List UInt8) : Prop :=
  y.length = x.length ∧ ∀ k : ℕ, k < credInfoField.offset ∨
    userNameField.offset + userNameField.size ≤ k → y[k]? = x[k]?

/-- The field lies outside those arrays. -/
def OutsideCredentials (f : Field) : Prop :=
  f.offset + f.size ≤ credInfoField.offset ∨ userNameField.offset + userNameField.size ≤ f.offset

/-- INTERNAL: a frame agrees with itself. -/
theorem AgreeOutsideCredentials.refl (x : List UInt8) : AgreeOutsideCredentials x x :=
  ⟨rfl, fun _ _ => rfl⟩

/-- INTERNAL: what is received agrees when the frames and what was there before do. -/
theorem AgreeOutsideCredentials.recv {mem mem' : MsgMemory} {frame frame' : List UInt8}
    (hmem : AgreeOutsideCredentials mem.bytes mem'.bytes)
    (hframe : AgreeOutsideCredentials frame frame') :
    AgreeOutsideCredentials (hesBusRecv mem frame).bytes (hesBusRecv mem' frame').bytes := by
  have hsize := (hesBusRecv mem frame).size_eq
  have hsize' := (hesBusRecv mem' frame').size_eq
  refine ⟨hsize'.trans hsize.symm, ?_⟩
  intro k hk
  by_cases hin : k < hesMsgSize
  · rw [hesBusRecv_byte mem frame k hin, hesBusRecv_byte mem' frame' k hin]
    unfold receivedByte
    rw [hframe.1, List.getD_eq_getElem?_getD, List.getD_eq_getElem?_getD,
      List.getD_eq_getElem?_getD, List.getD_eq_getElem?_getD, hframe.2 k hk, hmem.2 k hk]
  · rw [List.getElem?_eq_none (by omega), List.getElem?_eq_none (by omega)]

/-- INTERNAL: a field outside the credentials is the same. -/
theorem AgreeOutsideCredentials.field {mem mem' : MsgMemory}
    (h : AgreeOutsideCredentials mem.bytes mem'.bytes) (f : Field)
    (hf : OutsideCredentials f) : mem'.field f = mem.field f := by
  unfold MsgMemory.field
  apply List.ext_getElem?
  intro k
  by_cases hk : k < f.size
  · rw [List.getElem?_take_of_lt hk, List.getElem?_take_of_lt hk, List.getElem?_drop,
      List.getElem?_drop]
    apply h.2
    rcases hf with hf | hf
    · left
      omega
    · right
      omega
  · rw [List.getElem?_eq_none (by rw [List.length_take]; omega),
      List.getElem?_eq_none (by rw [List.length_take]; omega)]

/-- INTERNAL: what lies before the credentials is the same. -/
theorem AgreeOutsideCredentials.before {x y : List UInt8} (h : AgreeOutsideCredentials x y) :
    y.take credInfoField.offset = x.take credInfoField.offset := by
  apply List.ext_getElem?
  intro k
  by_cases hk : k < credInfoField.offset
  · rw [List.getElem?_take_of_lt hk, List.getElem?_take_of_lt hk]
    exact h.2 k (Or.inl hk)
  · rw [List.getElem?_eq_none (by rw [List.length_take]; omega),
      List.getElem?_eq_none (by rw [List.length_take]; omega)]

/-- The string at the place of the field ends before the credentials. -/
def EndsBeforeCredentials (mem : MsgMemory) (f : Field) : Prop :=
  0 ∈ (mem.bytes.take credInfoField.offset).drop f.offset

instance (mem : MsgMemory) (f : Field) : Decidable (EndsBeforeCredentials mem f) :=
  inferInstanceAs (Decidable (_ ∈ _))

/-- INTERNAL: a string is its part before the credentials, where it ends there. -/
theorem EndsBeforeCredentials.text {mem : MsgMemory} {f : Field}
    (h : EndsBeforeCredentials mem f) :
    mem.text f = cString ((mem.bytes.take credInfoField.offset).drop f.offset) := by
  unfold EndsBeforeCredentials at h
  unfold MsgMemory.text
  rw [List.drop_take] at h ⊢
  exact (cString_take_of_nul _ _ h).symm

/-- INTERNAL: and it ends before those in front of it. -/
theorem EndsBeforeCredentials.of_le {mem : MsgMemory} {f g : Field}
    (h : EndsBeforeCredentials mem f) (hgf : g.offset ≤ f.offset) :
    EndsBeforeCredentials mem g :=
  (List.drop_sublist_drop_left _ hgf).subset h

section Agree

variable {mem mem' : MsgMemory}

/-- INTERNAL: a string that ends before the credentials is the same. -/
theorem AgreeOutsideCredentials.text (h : AgreeOutsideCredentials mem.bytes mem'.bytes)
    (f : Field) (hf : EndsBeforeCredentials mem f) : mem'.text f = mem.text f := by
  have hf' : EndsBeforeCredentials mem' f := by
    unfold EndsBeforeCredentials
    rw [h.before]
    exact hf
  rw [hf.text, hf'.text, h.before]

/-- INTERNAL: the part of a string before the credentials is the same in any case. -/
theorem AgreeOutsideCredentials.text_take (h : AgreeOutsideCredentials mem.bytes mem'.bytes)
    (f : Field) :
    (mem'.text f).take (credInfoField.offset - f.offset) =
      (mem.text f).take (credInfoField.offset - f.offset) := by
  unfold MsgMemory.text
  rw [← cString_take, ← cString_take, ← List.drop_take, ← List.drop_take, h.before]

/-- INTERNAL: so the messages are the same without their credentials, if the payload ends
before them. -/
theorem AgreeOutsideCredentials.message (h : AgreeOutsideCredentials mem.bytes mem'.bytes)
    (hends : EndsBeforeCredentials mem payloadField) :
    bare mem'.message = bare mem.message := by
  have hpath := h.text pathField (hends.of_le (by decide))
  have hverb := h.field verbField (Or.inl (by decide))
  have hdevice := h.field deviceIndexField (Or.inl (by decide))
  have hquery := h.text queryField (hends.of_le (by decide))
  have hlen := h.field payloadLenField (Or.inl (by decide))
  have hpayload := h.text payloadField hends
  unfold bare MsgMemory.message MsgMemory.payloadLen
  rw [hpath, hverb, hdevice, hquery, hlen, hpayload]

/-- The message without its credentials, its strings as far as these. -/
def beforeCredentials (m : HesClmeMsg) : HesClmeMsg :=
  { m with
    path := m.path.take (credInfoField.offset - pathField.offset)
    query := m.query.take (credInfoField.offset - queryField.offset)
    payload := m.payload.take (credInfoField.offset - payloadField.offset)
    credInfo := []
    userName := []
    timestampNs := 0 }

/-- INTERNAL: it is the same in any case. -/
theorem AgreeOutsideCredentials.beforeCredentials
    (h : AgreeOutsideCredentials mem.bytes mem'.bytes) :
    beforeCredentials mem'.message = beforeCredentials mem.message := by
  have hpath := h.text_take pathField
  have hverb := h.field verbField (Or.inl (by decide))
  have hdevice := h.field deviceIndexField (Or.inl (by decide))
  have hquery := h.text_take queryField
  have hlen := h.field payloadLenField (Or.inl (by decide))
  have hpayload := h.text_take payloadField
  unfold Analysis.beforeCredentials MsgMemory.message MsgMemory.payloadLen
  dsimp only
  rw [hpath, hverb, hdevice, hquery, hlen, hpayload]

end Agree

/-! ## The loop at the bus and the loop on messages -/

/-- The messages that the frames of a run are read as, one after the other in one struct. -/
def receivedTurns (buffer : MsgMemory) : List BusTurn → List CoreTurn
  | [] => []
  | turn :: turns =>
    let buffer := turn.frame.elim buffer (hesBusRecv buffer)
    ⟨turn.frame.map fun _ => buffer.message, turn.newSecond⟩ :: receivedTurns buffer turns

/-- The struct behind each of its receives. -/
def receivedStructs (buffer : MsgMemory) : List BusTurn → List MsgMemory
  | [] => []
  | turn :: turns =>
    match turn.frame with
    | none => receivedStructs buffer turns
    | some frame => hesBusRecv buffer frame :: receivedStructs (hesBusRecv buffer frame) turns

section Loop

variable [CDouble V] (host : CoreHost V α) (bm : BindingMap V) (depth : ℕ)

/-- INTERNAL: the loop at the bus is the loop on these messages. -/
theorem busLoop_core (turns : List BusTurn) (s : BusState V α) :
    (busLoop host bm depth turns s).map BusState.core =
      coreLoop host bm depth (receivedTurns s.buffer turns) s.core := by
  induction turns generalizing s with
  | nil => rfl
  | cons turn turns ih =>
    unfold busLoop coreLoop receivedTurns busTurn
    dsimp only
    generalize turn.frame.elim s.buffer (hesBusRecv s.buffer) = buffer
    cases coreTurn host bm depth ⟨turn.frame.map fun _ => buffer.message, turn.newSecond⟩ s.core with
    | overrun t => rfl
    | returned t => exact ih ⟨buffer, t⟩

omit [CDouble V] in
/-- INTERNAL: mapping the state keeps whether a computation returned. -/
theorem didReturn_map {σ τ : Type} (f : σ → τ) (x : Outcome σ) :
    (x.map f).didReturn = x.didReturn := by
  cases x <;> rfl

/-- INTERNAL: a run of the core adds to its trace. -/
theorem coreLoop_grows (turns : List CoreTurn) (s : CoreState V α) :
    CoreGrows s (coreLoop host bm depth turns s).state := by
  induction turns generalizing s with
  | nil => exact CoreGrows.refl s
  | cons turn turns ih =>
    apply andThen_grows
    · exact coreTurn_grows host bm depth turn s
    · exact ih

/-- INTERNAL: **two runs of the loop** on turns that go the same way. -/
theorem coreLoop_alike (split : Prop) (keep : HesClmeMsg → HesClmeMsg)
    {turns turns' : List CoreTurn}
    (hturns : List.Forall₂ (TurnsAlike host bm depth split keep) turns turns')
    (s t : CoreState V α)
    (h : CoreAlike keep s t) :
    CoreSideBySide split keep (coreLoop host bm depth turns s)
      (coreLoop host bm depth turns' t) := by
  induction hturns generalizing s t with
  | nil => exact Or.inr ⟨h, rfl⟩
  | cons hturn _ ih =>
    apply ReentrantLoop.andThen_sideBySide CoreGrows (CoreAlike keep) (CoreSplit split)
      CoreGrows.refl CoreSplit.keep
    · exact coreTurn_alike host bm split keep depth _ _ hturn s t h
    · exact coreLoop_grows host bm depth _
    · exact coreLoop_grows host bm depth _
    · exact ih

end Loop

/-! ## What is sent -/

/-- The events send the same, or each relays a message, the same but for its credentials. -/
def SentAlike (e e' : CoreEvent V) : Prop :=
  sends e' = sends e ∨
    ∃ m m', e = .relay m ∧ e' = .relay m' ∧ beforeCredentials m' = beforeCredentials m

/-- INTERNAL: events that are the same without credentials send alike. -/
theorem sentAlike_of_bare {e e' : CoreEvent V}
    (h : bareEvent beforeCredentials e' = bareEvent beforeCredentials e) : SentAlike e e' := by
  have hsends : ∀ e : BmEvent V, evalSends (bareBmEvent e) = evalSends e := by
    intro e
    cases e <;> rfl
  cases e <;> cases e' <;> simp only [bareEvent, reduceCtorEq, CoreEvent.message.injEq,
    CoreEvent.eval.injEq, CoreEvent.relay.injEq, CoreEvent.answer.injEq,
    CoreEvent.publish.injEq, CoreEvent.appPut.injEq] at h
  case eval.eval e e' =>
    left
    show evalSends e' = evalSends e
    rw [← hsends e', h, hsends]
  case relay.relay m m' => exact Or.inr ⟨m, m', rfl, rfl, h⟩
  all_goals
    left
    rw [h]

/-- INTERNAL: events that are the same without credentials send alike, one by one. -/
theorem forall₂_sentAlike {trace trace' : List (CoreEvent V)}
    (h : trace'.map (bareEvent beforeCredentials) = trace.map (bareEvent beforeCredentials)) :
    List.Forall₂ SentAlike trace trace' := by
  induction trace generalizing trace' with
  | nil =>
    obtain rfl := List.map_eq_nil_iff.mp h
    exact List.Forall₂.nil
  | cons e trace ih =>
    obtain ⟨e', rest, rfl, he, hrest⟩ := List.map_eq_cons_iff.mp h
    exact List.Forall₂.cons (sentAlike_of_bare he) (ih hrest)

/-- What is relayed is the message that was taken last, as it was received. -/
def RelaysTaken (before : List (CoreEvent V)) (e : CoreEvent V) : Prop :=
  ∀ m, e = .relay m → currentMsg before = some m

section Relays

variable [CDouble V] (host : CoreHost V α) (bm : BindingMap V)

omit [CDouble V] in
/-- INTERNAL: events that relay nothing. -/
theorem everyEvent_relays (s : CoreState V α) (more : List (CoreEvent V))
    (hs : EveryEvent RelaysTaken s.trace) (hmore : ∀ e ∈ more, ∀ m, e ≠ .relay m) :
    EveryEvent RelaysTaken (s.log more).trace := by
  refine (everyEvent_append _ _ _).mpr ⟨hs, ?_⟩
  exact everyEvent_of_forall _ _ fun e he _ m hm => absurd hm (hmore e he m)

/-- INTERNAL: the processor relays nothing. -/
theorem processMessage_relays (m : HesClmeMsg) (depth : ℕ) (s : CoreState V α)
    (hs : EveryEvent RelaysTaken s.trace) :
    EveryEvent RelaysTaken (processMessage host bm m depth s).state.trace := by
  unfold processMessage
  rw [Outcome.state_map]
  apply everyEvent_relays s _ hs
  intro e he m hm
  obtain ⟨x, -, rfl⟩ := List.mem_map.mp he
  cases hm

omit [CDouble V] in
/-- INTERNAL: the router answers, and the relay passes the message on that was taken. -/
theorem routeMessage_relays (m : HesClmeMsg) (s : CoreState V α)
    (hcur : currentMsg s.trace = some m) (hs : EveryEvent RelaysTaken s.trace) :
    EveryEvent RelaysTaken (routeMessage host bm m s).trace := by
  unfold routeMessage
  generalize dispatchToLocalObjects host.objs m s.bm.app = routed
  obtain ⟨a, handled, answers⟩ := routed
  have hno : ∀ e ∈ answers.map (CoreEvent.answer : HesClmeMsg → CoreEvent V),
      ∀ m, e ≠ .relay m := by
    intro e he m hm
    obtain ⟨x, -, rfl⟩ := List.mem_map.mp he
    cases hm
  have hanswered : EveryEvent RelaysTaken ((s.setApp a).log (answers.map .answer)).trace :=
    everyEvent_relays (s.setApp a) _ hs hno
  show EveryEvent RelaysTaken
    (relayPut bm m handled ((s.setApp a).log (answers.map .answer))).trace
  unfold relayPut
  split
  · refine (everyEvent_append _ _ _).mpr ⟨hanswered, (everyEvent_cons _ _ _).mpr
      ⟨?_, everyEvent_nil _⟩⟩
    intro m' hm'
    obtain rfl := CoreEvent.relay.inj hm'
    rw [List.append_nil]
    refine (currentMsg_append_none _ _ ?_).trans hcur
    intro e he
    obtain ⟨x, -, rfl⟩ := List.mem_map.mp he
    rfl
  · exact hanswered

/-- INTERNAL: **a turn** relays what it took. -/
theorem coreTurn_relays (depth : ℕ) (turn : CoreTurn) (s : CoreState V α)
    (hs : EveryEvent RelaysTaken s.trace) :
    EveryEvent RelaysTaken (coreTurn host bm depth turn s).state.trace := by
  let P : CoreState V α → Prop := fun s => EveryEvent RelaysTaken s.trace
  have htaken : P (turn.frame.elim (.returned s) fun m => takeFrame host bm depth m s).state := by
    cases turn.frame with
    | none => exact hs
    | some m =>
      have hlogged : EveryEvent RelaysTaken (s.log [.message m]).trace := by
        apply everyEvent_relays s _ hs
        intro e he m' hm'
        rw [List.mem_singleton.mp he] at hm'
        cases hm'
      exact processMessage_relays host bm m depth _ (routeMessage_relays host bm m _
        (currentMsg_append_message s.trace m) hlogged)
  refine andThen_state P _ _ htaken fun t ht => ?_
  have htick : P (tickObjects host t) := by
    unfold tickObjects
    induction host.objs generalizing t with
    | nil => exact ht
    | cons so rest ih =>
      rw [List.foldl_cons]
      apply ih
      cases so.tick with
      | none => exact ht
      | some tick =>
        apply everyEvent_relays _ _ ht
        intro e he m hm
        obtain ⟨r, -, rfl⟩ := List.mem_map.mp he
        cases hm
  have hfed : P (if turn.newSecond then feedTime host bm depth (tickObjects host t)
      else .returned (tickObjects host t)).state := by
    split
    · apply processMessage_relays host bm _ depth
      apply everyEvent_relays _ _ htick
      intro e he m hm
      rw [List.mem_singleton.mp he] at hm
      cases hm
    · exact htick
  refine andThen_state P _ _ hfed fun u hu => ?_
  apply everyEvent_relays _ _ hu
  intro e he m hm
  obtain ⟨p, -, rfl⟩ := List.mem_map.mp he
  cases hm

/-- INTERNAL: so does every turn of a run. -/
theorem coreLoop_relays (depth : ℕ) (turns : List CoreTurn) (s : CoreState V α)
    (hs : EveryEvent RelaysTaken s.trace) :
    EveryEvent RelaysTaken (coreLoop host bm depth turns s).state.trace := by
  induction turns generalizing s with
  | nil => exact hs
  | cons turn turns ih =>
    exact andThen_state (fun s => EveryEvent RelaysTaken s.trace) _ _
      (coreTurn_relays host bm depth turn s hs) ih

end Relays

/-! ## Noninterference -/

section BusRuns

variable [CDouble V]

/-- Nothing that is read of the struct's message runs on into its credentials: the address ends
before them; of an object that is asked, the query does, and the copied payload stays in its
array; and so does the payload of a report that an input takes. -/
structure ReadsNoCredential (host : CoreHost V α) (bm : BindingMap V) (mem : MsgMemory) :
    Prop where
  address : EndsBeforeCredentials mem pathField
  asked : mem.message.verb = .get → findObject host.objs mem.message.path ≠ none →
    EndsBeforeCredentials mem queryField ∧ mem.payloadLen ≤ hesPayloadMax
  read : ReadBy bm mem.message → EndsBeforeCredentials mem payloadField

omit [CDouble V] in
/-- INTERNAL: so it is where the payload ends in its array and is said to. -/
theorem readsNoCredential_of_ends {host : CoreHost V α} {bm : BindingMap V} {mem : MsgMemory}
    (hends : EndsBeforeCredentials mem payloadField) (hlen : mem.payloadLen ≤ hesPayloadMax) :
    ReadsNoCredential host bm mem where
  address := hends.of_le (by decide)
  asked _ _ := ⟨hends.of_le (by decide), hlen⟩
  read _ := hends

omit [CDouble V] in
/-- INTERNAL: **what is read** of structs that agree outside the credentials is the same. -/
theorem ReadsNoCredential.takenAlike {host : CoreHost V α} {bm : BindingMap V}
    {mem mem' : MsgMemory} (hreads : ReadsNoCredential host bm mem)
    (h : AgreeOutsideCredentials mem.bytes mem'.bytes) :
    TakenAlike host bm True beforeCredentials mem.message mem'.message := by
  have hlen : mem'.payloadLen = mem.payloadLen :=
    congrArg leValue (h.field payloadLenField (Or.inl (by decide)))
  refine ⟨⟨h.text pathField hreads.address, ?_, ?_⟩, fun hget hfind => ?_, ?_, ?_, ?_⟩
  · exact congrArg (fun b => HesVerb.ofByte (b.headD 0)) (h.field verbField (Or.inl (by decide)))
  · exact congrArg leValue (h.field deviceIndexField (Or.inl (by decide)))
  · obtain ⟨hends, hfits⟩ := hreads.asked hget hfind
    have hquery : mem'.message.query = mem.message.query := h.text queryField hends
    have hpayload : (mem'.text payloadField).take mem.payloadLen =
        (mem.text payloadField).take mem.payloadLen := by
      have hpart := congrArg (List.take mem.payloadLen) (h.text_take payloadField)
      have hmin : min mem.payloadLen (credInfoField.offset - payloadField.offset) =
          mem.payloadLen := min_eq_left hfits
      rwa [List.take_take, List.take_take, hmin] at hpart
    exact ⟨hquery, fun so => answerTo_congr so hquery hlen hfits hpayload⟩
  · exact fun hread => h.message (hreads.read hread)
  · exact fun hwakes => ⟨h.message (hreads.read (hwakes.readBy bm)), Or.inl trivial⟩
  · exact fun _ => h.beforeCredentials

/-- INTERNAL: frames that agree outside the credentials are read as messages that do. -/
theorem receivedTurns_alike (host : CoreHost V α) (bm : BindingMap V) (depth : ℕ)
    (hputs : IgnorePuts host.objs) {turns turns' : List BusTurn}
    (hturns : List.Forall₂ (fun turn turn' : BusTurn => turn'.newSecond = turn.newSecond ∧
      Option.Rel AgreeOutsideCredentials turn.frame turn'.frame) turns turns')
    (buffer buffer' : MsgMemory) (hbuffer : AgreeOutsideCredentials buffer.bytes buffer'.bytes)
    (hreads : ∀ mem ∈ receivedStructs buffer turns, ReadsNoCredential host bm mem) :
    List.Forall₂ (TurnsAlike host bm depth True beforeCredentials) (receivedTurns buffer turns)
      (receivedTurns buffer' turns') := by
  induction hturns generalizing buffer buffer' with
  | nil => exact List.Forall₂.nil
  | @cons turn turn' _ _ hturn _ ih =>
    obtain ⟨frame, newSecond⟩ := turn
    obtain ⟨frame', newSecond'⟩ := turn'
    obtain ⟨hsecond, hframe⟩ := hturn
    cases hframe with
    | none =>
      exact List.Forall₂.cons ⟨hsecond, Option.Rel.none⟩ (ih buffer buffer' hbuffer hreads)
    | @some frame frame' hbytes =>
      have hrecv := hbuffer.recv hbytes
      have hhead := hreads (hesBusRecv buffer frame) List.mem_cons_self
      have hrest := fun mem hmem => hreads mem (List.mem_cons_of_mem _ hmem)
      refine List.Forall₂.cons ⟨hsecond, Option.Rel.some ?_⟩ (ih _ _ hrecv hrest)
      exact takeFrame_alike host bm True beforeCredentials hputs (hhead.takenAlike hrecv) depth

/-- Two runs on frames that differ in the bytes of `cred_info` and `user_name` only, of which
nothing else that is read runs on into these, and in which every authorization comes out the
same, send the same frames in the same order, apart from the credentials in the PUTs that are
relayed; a relayed PUT is the one that was received.
SRCLINE: core.c:601-631, hes_dispatch.c:256-280, bm.c:754-768 -/
theorem credentials_do_not_flow (psa : Psa) (services : CoreServices α) (app : CoreApp V α)
    (bm : BindingMap V) (depth : ℕ) (turns turns' : List BusTurn)
    (hturns : List.Forall₂ (fun turn turn' : BusTurn => turn'.newSecond = turn.newSecond ∧
      Option.Rel AgreeOutsideCredentials turn.frame turn'.frame) turns turns')
    (buffer buffer' : MsgMemory) (hbuffer : AgreeOutsideCredentials buffer.bytes buffer'.bytes)
    (hreads : ∀ mem ∈ receivedStructs buffer turns,
      ReadsNoCredential (coreMainHost psa services app) bm mem)
    (st : BmState V α) (run run' : Outcome (BusState V α))
    (hrun : run = busLoop (coreMainHost psa services app) bm depth turns ⟨buffer, ⟨st, []⟩⟩)
    (hrun' : run' = busLoop (coreMainHost psa services app) bm depth turns' ⟨buffer', ⟨st, []⟩⟩)
    (hdecisions : coreDecisions run'.state.core.trace = coreDecisions run.state.core.trace) :
    run'.didReturn = run.didReturn ∧
      List.Forall₂ SentAlike (run.state.core.trace.filter coreActs)
        (run'.state.core.trace.filter coreActs) ∧
      EveryEvent RelaysTaken run.state.core.trace ∧
      EveryEvent RelaysTaken run'.state.core.trace := by
  have hcore := busLoop_core (coreMainHost psa services app) bm depth turns ⟨buffer, ⟨st, []⟩⟩
  have hcore' := busLoop_core (coreMainHost psa services app) bm depth turns' ⟨buffer', ⟨st, []⟩⟩
  rw [← hrun] at hcore
  rw [← hrun'] at hcore'
  have hstart : CoreAlike beforeCredentials (⟨st, []⟩ : CoreState V α) ⟨st, []⟩ := ⟨rfl, rfl, rfl, rfl⟩
  have hside := coreLoop_alike (coreMainHost psa services app) bm depth True beforeCredentials
    (receivedTurns_alike (coreMainHost psa services app) bm depth
      (coreObjects_ignorePuts psa services) hturns buffer buffer' hbuffer hreads) _ _ hstart
  have hrelays := coreLoop_relays (coreMainHost psa services app) bm depth
    (receivedTurns buffer turns) ⟨st, []⟩ (everyEvent_nil _)
  have hrelays' := coreLoop_relays (coreMainHost psa services app) bm depth
    (receivedTurns buffer' turns') ⟨st, []⟩ (everyEvent_nil _)
  rw [← hcore, Outcome.state_map] at hrelays
  rw [← hcore', Outcome.state_map] at hrelays'
  rw [← hcore, ← hcore'] at hside
  rcases hside with ⟨-, hapart⟩ | ⟨halike, hret⟩
  · rw [Outcome.state_map, Outcome.state_map] at hapart
    exact absurd hdecisions hapart.ne
  · rw [Outcome.state_map, Outcome.state_map] at halike
    rw [didReturn_map, didReturn_map] at hret
    exact ⟨hret.symm, forall₂_sentAlike halike.trace, hrelays, hrelays'⟩

end BusRuns

/-! ## A leaf's command to a lamp -/

/-- Services that answer nothing but the clock. -/
def quietServices : CoreServices Unit where
  auth := {}
  crypto := {}
  idStatusOnGet := fun a _ => (a, [])
  idDiscoveryOnGet := fun a _ => (a, [])
  realtimeOnGet := fun a _ => (a, lit "va=1785612345")
  localtzOnGet := fun a _ => (a, [])
  sourceOnGet := fun a _ => (a, [])
  realtimeTick := fun a => (a, [])

/-- An app that does nothing. -/
def quietApp : CoreApp Binary64 Unit where
  callOp := fun a _ _ => (a, none, [])
  onTick := fun a => (a, [])

/-- The fields of a message before its payload. -/
def messageStart (path : String) (verb deviceIndex : UInt8) (payloadLen : List UInt8) :
    List UInt8 :=
  textField (lit path) 128 ++ [verb, 0, 0, 0] ++ [deviceIndex, 0, 0, 0] ++ textField [] 64 ++
    payloadLen

/-- The fields of a message before its credentials; the payload is "1". -/
def messageHead (path : String) (verb deviceIndex : UInt8) : List UInt8 :=
  messageStart path verb deviceIndex [1, 0, 0, 0] ++ textField (lit "1") 512

/-- The credential, no user name, and the time stamp. -/
def messageTail (credential : CStr) : List UInt8 :=
  textField credential 512 ++ (textField [] 32 ++ List.replicate 12 0)

/-- INTERNAL: frames agree outside the credential behind the same head. -/
theorem agree_messageTail (head : List UInt8) (hhead : head.length = credInfoField.offset)
    (credential credential' : CStr) (hlen : credential.length ≤ 512)
    (hlen' : credential'.length ≤ 512) :
    AgreeOutsideCredentials (head ++ messageTail credential)
      (head ++ messageTail credential') := by
  have hfield : ∀ text : CStr, text.length ≤ 512 → (textField text 512).length = 512 := by
    intro text htext
    unfold textField
    rw [List.length_append, List.length_replicate]
    omega
  have hsame := hfield credential hlen
  have hsame' := hfield credential' hlen'
  have hoffset : credInfoField.offset = 716 := rfl
  have hend : userNameField.offset + userNameField.size = 1260 := rfl
  unfold messageTail
  refine ⟨by simp only [List.length_append, hsame, hsame'], ?_⟩
  intro k hk
  rw [hoffset, hend] at hk
  rcases hk with hk | hk
  · rw [List.getElem?_append_left (by omega), List.getElem?_append_left (by omega)]
  · have hskip : ∀ text rest : List UInt8, text.length = 512 →
        (head ++ (text ++ rest))[k]? = rest[k - 716 - 512]? := by
      intro text rest htext
      rw [List.getElem?_append_right (by omega), List.getElem?_append_right (by omega), hhead,
        htext, hoffset]
    rw [hskip _ _ hsame, hskip _ _ hsame']

/-- A PUT to the lamp behind device 2. -/
def lampPutHead : List UInt8 := messageHead "/lx/ob/uo/li/ll/da/cv" 2 2

/-- A press of the button whose payload fills its array with digits. -/
def fullPressHead : List UInt8 :=
  messageStart "/lx/ob/uo/ui/ud/da/cv" 3 1 [0, 2, 0, 0] ++ List.replicate 512 48

/-- A GET of the classes of the policy, of four bytes more than the payload has. -/
def longGetHead : List UInt8 :=
  messageStart "/lx/ob/so/aa/ac/cv" 1 0 [4, 2, 0, 0] ++ textField [] 512

/-- The map of the lamp, behind an interface module, with a row that needs no credential. -/
def openMap : BindingMap Binary64 :=
  { ops := [{ lampRow with
      inputs := [{ deviceIndex := 1, sourceObject := lit "/lx/ob/uo/ui/ud/da/cv" }] }]
    addrs := [{ deviceIndex := 2, moduleType := .hi }] }

/-- A run of one turn on a frame. -/
def oneFrameRun (bm : BindingMap Binary64) (frame : List UInt8) :
    Outcome (BusState Binary64 Unit) :=
  busLoop (coreMainHost ownerPsa quietServices quietApp) bm 2 [⟨some frame, false⟩]
    ⟨zeroMemory, ⟨BmState.initial (), []⟩⟩

/-- What the run sends for a frame with this credential; none where the hook was asked. -/
def sentUnasked (bm : BindingMap Binary64) (head : List UInt8) (credential : CStr) :
    Option (List HesClmeMsg) :=
  let trace := (oneFrameRun bm (head ++ messageTail credential)).state.core.trace
  if coreDecisions trace = [] then some (trace.flatMap sends) else none

/-- **Frames that are sent differ**, although nothing was asked of the hook: the relay passes on
what accompanied a command; a payload without a NUL is read on into the credential; and an answer
is prepared with it where more is copied than the payload has. -/
theorem credentials_leave_core :
    (∀ head ∈ [lampPutHead, fullPressHead, longGetHead],
      AgreeOutsideCredentials (head ++ messageTail (lit "1")) (head ++ messageTail (lit "0"))) ∧
    (sentUnasked blockedMap lampPutHead (lit "1")).map (·.map HesClmeMsg.credInfo) =
        some [lit "1"] ∧
    (sentUnasked blockedMap lampPutHead (lit "0")).map (·.map HesClmeMsg.credInfo) =
        some [lit "0"] ∧
    sentUnasked openMap fullPressHead (lit "1") = some [putMessage lampRow CDouble.one] ∧
    sentUnasked openMap fullPressHead (lit "0") = some [putMessage lampRow CDouble.zero] ∧
    (sentUnasked openMap longGetHead (lit "1")).map (·.map HesClmeMsg.credInfo) =
        some [lit "1"] ∧
    (sentUnasked openMap longGetHead (lit "0")).map (·.map HesClmeMsg.credInfo) =
        some [lit "0"] := by
  have hheads : ∀ head ∈ [lampPutHead, fullPressHead, longGetHead],
      head.length = credInfoField.offset := by decide +kernel
  refine ⟨fun head hhead => ?_, by decide +kernel, by decide +kernel, by decide +kernel,
    by decide +kernel, by decide +kernel, by decide +kernel⟩
  exact agree_messageTail head (hheads head hhead) _ _ (by decide) (by decide)

/-- A press of the button, and then the command to the lamp, with a credential. -/
def pressAndCommand (credential : CStr) : List BusTurn :=
  [messageHead "/lx/ob/uo/ui/ud/da/cv" 3 1, lampPutHead].map fun head =>
    ⟨some (head ++ messageTail credential), false⟩

/-- The run on the two. -/
def pressAndCommandRun (credential : CStr) : Outcome (BusState Binary64 Unit) :=
  busLoop (coreMainHost ownerPsa quietServices quietApp) openMap 2 (pressAndCommand credential)
    ⟨zeroMemory, ⟨BmState.initial (), []⟩⟩

/-- With these frames a row sends its PUT, the command is relayed, and what is sent is the same
but for the credential of the latter. -/
theorem credentials_do_not_flow_lamp :
    (pressAndCommandRun (lit "k1")).state.core.trace.flatMap sends ≠
        (pressAndCommandRun (lit "k2")).state.core.trace.flatMap sends ∧
      List.Forall₂ SentAlike ((pressAndCommandRun (lit "k1")).state.core.trace.filter coreActs)
        ((pressAndCommandRun (lit "k2")).state.core.trace.filter coreActs) := by
  have hdecisions : coreDecisions (pressAndCommandRun (lit "k2")).state.core.trace =
      coreDecisions (pressAndCommandRun (lit "k1")).state.core.trace := by
    decide +kernel
  have hturns : List.Forall₂ (fun turn turn' : BusTurn => turn'.newSecond = turn.newSecond ∧
      Option.Rel AgreeOutsideCredentials turn.frame turn'.frame) (pressAndCommand (lit "k1"))
      (pressAndCommand (lit "k2")) := by
    have hheads : ∀ head ∈ [messageHead "/lx/ob/uo/ui/ud/da/cv" 3 1, lampPutHead],
        head.length = credInfoField.offset := by decide +kernel
    unfold pressAndCommand
    rw [List.forall₂_map_left_iff, List.forall₂_map_right_iff, List.forall₂_same]
    intro head hhead
    exact ⟨rfl, Option.Rel.some
      (agree_messageTail head (hheads head hhead) _ _ (by decide) (by decide))⟩
  have hreads : ∀ mem ∈ receivedStructs zeroMemory (pressAndCommand (lit "k1")),
      ReadsNoCredential (coreMainHost ownerPsa quietServices quietApp) openMap mem := by
    have hends : ∀ mem ∈ receivedStructs zeroMemory (pressAndCommand (lit "k1")),
        EndsBeforeCredentials mem payloadField ∧ mem.payloadLen ≤ hesPayloadMax := by
      decide +kernel
    exact fun mem hmem => readsNoCredential_of_ends (hends mem hmem).1 (hends mem hmem).2
  exact ⟨by decide +kernel, (credentials_do_not_flow ownerPsa quietServices quietApp openMap 2
    _ _ hturns zeroMemory zeroMemory (AgreeOutsideCredentials.refl _) hreads
    (BmState.initial ()) _ _ rfl rfl hdecisions).2.1⟩

end OpenHes.Analysis
