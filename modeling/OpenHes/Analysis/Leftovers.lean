import OpenHes.Analysis.CredentialFlow
import OpenHes.Analysis.PolicySoundness

/-!
# What earlier frames leave behind

The loop receives every frame into one struct and does not clear it. A frame that is long
enough overwrites what is read of it; behind the end of a shorter one the struct still holds
an earlier message, with its payload and its credentials, and a string that does not end in
what the frame brings is read on into it. A run in which no frame has such bytes read is the run
in which every frame is read by itself.
-/

set_option autoImplicit false

namespace OpenHes.Analysis

open OpenHes.Library OpenHes.Model

variable {V α : Type}

/-- The message a frame is read as by itself, behind which there are zeros. -/
def readAlone (frame : List UInt8) : HesClmeMsg := (hesBusRecv zeroMemory frame).message

/-- The turn with its frame read by itself. -/
def turnAlone (turn : BusTurn) : CoreTurn := ⟨turn.frame.map readAlone, turn.newSecond⟩

/-- The frame reaches the end of the field. -/
def Brings (frame : List UInt8) (f : Field) : Prop := f.offset + f.size ≤ frame.length

/-- The frame brings the string at the place of the field, with the NUL that ends it. -/
def BringsText (frame : List UInt8) (f : Field) : Prop := 0 ∈ (frame.take hesMsgSize).drop f.offset

instance (frame : List UInt8) (f : Field) : Decidable (Brings frame f) :=
  inferInstanceAs (Decidable (_ ≤ _))

instance (frame : List UInt8) (f : Field) : Decidable (BringsText frame f) :=
  inferInstanceAs (Decidable (_ ∈ _))

variable [CDouble V] (host : CoreHost V α) (bm : BindingMap V)

/-- The frame brings all that is read of its message: the address, with verb and device; for an
object that is asked, the query and the payload that is copied, which stays in its array; for an
input that takes it, the payload; where the hook is asked about a row, what accompanies the
message; and for the relay, all of it. -/
structure StandsAlone (frame : List UInt8) : Prop where
  address : Brings frame deviceIndexField ∧ BringsText frame pathField
  asked : (readAlone frame).verb = .get → findObject host.objs (readAlone frame).path ≠ none →
    BringsText frame queryField ∧ Brings frame payloadLenField ∧
      (readAlone frame).payloadLen ≤ hesPayloadMax ∧
      payloadField.offset + (readAlone frame).payloadLen ≤ frame.length
  read : ReadBy bm (readAlone frame) → BringsText frame payloadField
  accompanied : WakesMap bm (readAlone frame) → (∃ op ∈ bm.ops, op.enabled = true ∧ Asked bm op) →
    BringsText frame userNameField
  relayed : Relayed host bm (readAlone frame) →
    Brings frame userNameField ∧ BringsText frame userNameField

/-! ## Fields a frame brings -/

/-- INTERNAL: the struct starts with the bytes of the frame. -/
theorem hesBusRecv_take (mem : MsgMemory) (frame : List UInt8) (k : ℕ)
    (hframe : k ≤ frame.length) (hsize : k ≤ hesMsgSize) :
    (hesBusRecv mem frame).bytes.take k = frame.take k := by
  have hlen : k ≤ (frame.take hesMsgSize).length := by
    rw [List.length_take]
    omega
  show (frame.take hesMsgSize ++ mem.bytes.drop frame.length).take k = _
  rw [List.take_append_of_le_length hlen, List.take_take, min_eq_left hsize]

/-- INTERNAL: a field that the frame brings does not depend on what was there before. -/
theorem brought_field (mem mem' : MsgMemory) (frame : List UInt8) (f : Field)
    (hsize : f.offset + f.size ≤ hesMsgSize) (hf : Brings frame f) :
    (hesBusRecv mem frame).field f = (hesBusRecv mem' frame).field f := by
  have hbytes : ∀ mem : MsgMemory, (hesBusRecv mem frame).field f =
      (frame.take (f.offset + f.size)).drop f.offset := by
    intro mem
    rw [← hesBusRecv_take mem frame _ hf hsize, List.drop_take, Nat.add_sub_cancel_left]
    rfl
  rw [hbytes mem, hbytes mem']

/-- INTERNAL: nor does a string that it brings. -/
theorem brought_text (mem mem' : MsgMemory) (frame : List UInt8) (f : Field)
    (hf : BringsText frame f) : (hesBusRecv mem frame).text f = (hesBusRecv mem' frame).text f := by
  have hlen : f.offset ≤ (frame.take hesMsgSize).length := by
    by_contra hlong
    unfold BringsText at hf
    rw [List.drop_eq_nil_of_le (by omega)] at hf
    exact List.not_mem_nil hf
  have hbytes : ∀ mem : MsgMemory, (hesBusRecv mem frame).text f =
      cString ((frame.take hesMsgSize).drop f.offset) := by
    intro mem
    show cString ((frame.take hesMsgSize ++ mem.bytes.drop frame.length).drop f.offset) = _
    rw [List.drop_append_of_le_length hlen, cString_append_of_nul _ _ hf]
  rw [hbytes mem, hbytes mem']

/-- INTERNAL: nor does the start of a string, as far as the frame reaches. -/
theorem brought_text_take (mem mem' : MsgMemory) (frame : List UInt8) (f : Field) (n : ℕ)
    (hframe : f.offset + n ≤ frame.length) (hsize : f.offset + n ≤ hesMsgSize) :
    ((hesBusRecv mem frame).text f).take n = ((hesBusRecv mem' frame).text f).take n := by
  have hbytes : ∀ mem : MsgMemory, ((hesBusRecv mem frame).text f).take n =
      cString ((frame.take (f.offset + n)).drop f.offset) := by
    intro mem
    rw [← hesBusRecv_take mem frame _ hframe hsize, List.drop_take, Nat.add_sub_cancel_left,
      cString_take]
    rfl
  rw [hbytes mem, hbytes mem']

/-- INTERNAL: with a string the frame brings those in front of it, and the fields. -/
theorem BringsText.of_le {frame : List UInt8} {f g : Field} (h : BringsText frame f)
    (hgf : g.offset ≤ f.offset) : BringsText frame g :=
  (List.drop_sublist_drop_left _ hgf).subset h

/-- INTERNAL: a frame that brings a text brings all in front of it. -/
theorem BringsText.brings {frame : List UInt8} {f g : Field} (h : BringsText frame f)
    (hgf : g.offset + g.size ≤ f.offset) : Brings frame g := by
  unfold Brings
  by_contra hshort
  have hlen : (frame.take hesMsgSize).length ≤ f.offset := by
    rw [List.length_take]
    omega
  unfold BringsText at h
  rw [List.drop_eq_nil_of_le hlen] at h
  exact List.not_mem_nil h

omit [CDouble V] in
/-- INTERNAL: **a frame that brings its address** is for the same object and device. -/
theorem read_address (mem : MsgMemory) (frame : List UInt8) (h : Brings frame deviceIndexField)
    (hpath : BringsText frame pathField) :
    SameAddress (readAlone frame) (hesBusRecv mem frame).message where
  path := brought_text mem zeroMemory frame pathField hpath
  verb := by
    have hverb : Brings frame verbField := le_trans (by decide) h
    show HesVerb.ofByte (((hesBusRecv mem frame).field verbField).headD 0) = _
    rw [brought_field mem zeroMemory frame verbField (by decide) hverb]
    rfl
  deviceIndex := congrArg leValue
    (brought_field mem zeroMemory frame deviceIndexField (by decide) h)

omit [CDouble V] in
/-- INTERNAL: **a frame that brings its payload** is read the same, up to the credentials. -/
theorem read_payload (mem : MsgMemory) (frame : List UInt8) (h : BringsText frame payloadField) :
    bare (hesBusRecv mem frame).message = bare (readAlone frame) := by
  have hpath := brought_text mem zeroMemory frame pathField (h.of_le (by decide))
  have hverb := brought_field mem zeroMemory frame verbField (by decide) (h.brings (by decide))
  have hdevice := brought_field mem zeroMemory frame deviceIndexField (by decide)
    (h.brings (by decide))
  have hquery := brought_text mem zeroMemory frame queryField (h.of_le (by decide))
  have hlen := brought_field mem zeroMemory frame payloadLenField (by decide)
    (h.brings (by decide))
  have hpayload := brought_text mem zeroMemory frame payloadField h
  unfold bare readAlone MsgMemory.message MsgMemory.payloadLen
  rw [hpath, hverb, hdevice, hquery, hlen, hpayload]

omit [CDouble V] in
/-- INTERNAL: **a frame that brings everything** is read the same, up to the stamp. -/
theorem read_all (mem : MsgMemory) (frame : List UInt8) (h : BringsText frame userNameField) :
    { (hesBusRecv mem frame).message with timestampNs := 0 } =
      { readAlone frame with timestampNs := 0 } := by
  have hbare := read_payload mem frame (h.of_le (by decide))
  have hcred := brought_text mem zeroMemory frame credInfoField (h.of_le (by decide))
  have huser := brought_text mem zeroMemory frame userNameField h
  have hsame : ∀ mem : MsgMemory, { mem.message with timestampNs := 0 } =
      { bare mem.message with
        credInfo := mem.text credInfoField
        userName := mem.text userNameField } := fun _ => rfl
  rw [hsame, hbare, hcred, huser]
  rfl

/-! ## Runs -/

omit [CDouble V] in
/-- INTERNAL: a whole frame, of which each string ends where it should. -/
theorem standsAlone_of_whole (frame : List UInt8) (hwhole : Brings frame userNameField)
    (htext : BringsText frame userNameField) (hlen : (readAlone frame).payloadLen ≤ hesPayloadMax) :
    StandsAlone host bm frame where
  address := ⟨htext.brings (by decide), htext.of_le (by decide)⟩
  asked _ _ := by
    have hoffset : payloadField.offset + hesPayloadMax ≤ userNameField.offset := by decide
    unfold Brings at hwhole
    exact ⟨htext.of_le (by decide), htext.brings (by decide), hlen, by omega⟩
  read _ := htext.of_le (by decide)
  accompanied _ _ := htext
  relayed _ := ⟨hwhole, htext⟩

omit [CDouble V] in
/-- INTERNAL: **what is read of the frame** is read of it alone. -/
theorem StandsAlone.takenAlike (psa : Psa) (services : CoreServices α) (app : CoreApp V α)
    (mem : MsgMemory) (frame : List UInt8)
    (h : StandsAlone (coreMainHost psa services app) bm frame) :
    TakenAlike (coreMainHost psa services app) bm False unstamped (readAlone frame)
      (hesBusRecv mem frame).message where
  address := read_address mem frame h.address.1 h.address.2
  asks hget hfind := by
    obtain ⟨hends, hhead, hfits, hreach⟩ := h.asked hget hfind
    have hquery : (hesBusRecv mem frame).message.query = (readAlone frame).query :=
      brought_text mem zeroMemory frame queryField hends
    have hlen : (hesBusRecv mem frame).message.payloadLen = (readAlone frame).payloadLen :=
      congrArg leValue (brought_field mem zeroMemory frame payloadLenField (by decide) hhead)
    have hmax : payloadField.offset + hesPayloadMax ≤ hesMsgSize := by decide
    have hpayload := brought_text_take mem zeroMemory frame payloadField
      (readAlone frame).payloadLen hreach (by omega)
    exact ⟨hquery, fun so => answerTo_congr so hquery hlen hfits hpayload⟩
  read hread := read_payload mem frame (h.read hread)
  answers hwakes := by
    refine ⟨read_payload mem frame (h.read (hwakes.readBy bm)), Or.inr ?_⟩
    intro op hop henabled hasked
    have hall := read_all mem frame (h.accompanied hwakes ⟨op, hop, henabled, hasked⟩)
    simp only [HesClmeMsg.mk.injEq] at hall
    obtain ⟨hpath, -, -, -, -, hpayload, hcred, huser, -⟩ := hall
    show coreAuthorize psa services.auth _ _ = coreAuthorize psa services.auth _ _
    unfold coreAuthorize
    rw [hpath, hpayload, hcred, huser]
  relayed hrelayed := by
    have hall := congrArg unstamped (read_all mem frame (h.relayed hrelayed).2)
    exact hall

/-- In a run in which every frame brings what is read of its message, each frame is handled
as it is by itself: the services, the map and the app are left in the same states, and the
same is sent, in the same order, up to the time stamps that sending renews.
SRCLINE: core.c:601-631, hes_bus.c:185-191 -/
theorem frames_stand_alone (psa : Psa) (services : CoreServices α) (app : CoreApp V α)
    (depth : ℕ) (turns : List BusTurn)
    (h : ∀ turn ∈ turns, ∀ frame ∈ turn.frame,
      StandsAlone (coreMainHost psa services app) bm frame) (buffer : MsgMemory)
    (s : CoreState V α) (run : Outcome (BusState V α)) (alone : Outcome (CoreState V α))
    (hrun : run = busLoop (coreMainHost psa services app) bm depth turns ⟨buffer, s⟩)
    (halone : alone = coreLoop (coreMainHost psa services app) bm depth (turns.map turnAlone) s) :
    run.didReturn = alone.didReturn ∧ CoreAlike unstamped alone.state run.state.core := by
  have hturns : List.Forall₂ (TurnsAlike (coreMainHost psa services app) bm depth False unstamped)
      (turns.map turnAlone) (receivedTurns buffer turns) := by
    clear hrun halone
    induction turns generalizing buffer with
    | nil => exact List.Forall₂.nil
    | cons turn turns ih =>
      obtain ⟨frame, newSecond⟩ := turn
      have hrest : ∀ turn ∈ turns, ∀ frame ∈ turn.frame,
          StandsAlone (coreMainHost psa services app) bm frame :=
        fun turn hturn => h turn (by simp [hturn])
      refine List.Forall₂.cons ⟨rfl, ?_⟩ (ih hrest _)
      cases frame with
      | none => exact Option.Rel.none
      | some frame =>
        have halone := h ⟨some frame, newSecond⟩ (by simp) frame rfl
        apply Option.Rel.some
        exact takeFrame_alike (coreMainHost psa services app) bm False unstamped
          (coreObjects_ignorePuts psa services) (halone.takenAlike bm psa services app buffer frame)
          depth
  have hcore := busLoop_core (coreMainHost psa services app) bm depth turns ⟨buffer, s⟩
  have hside := coreLoop_alike _ bm depth False unstamped hturns s s ⟨rfl, rfl, rfl, rfl⟩
  rw [← halone, ← hcore, ← hrun] at hside
  rcases hside with ⟨hno, -⟩ | ⟨halike, hret⟩
  · exact hno.elim
  · rw [Outcome.state_map] at halike
    rw [didReturn_map] at hret
    exact ⟨hret.symm, halike⟩

/-! ## A press without a credential -/

/-- The house's services, under the parents' policy. -/
def houseServices : CoreServices Unit :=
  { quietServices with auth := loadPolicy (some parentDocument) }

/-- A temperature report of a device that no row reads, with a credential. -/
def temperatureFrame (credential : CStr) : List UInt8 :=
  messageHead "/lx/ob/uo/hv/ts/as/cv" 3 9 ++ messageTail credential

/-- A press of the button, cut off behind the payload. -/
def shortPress : List UInt8 := messageHead "/lx/ob/uo/ui/ud/da/cv" 3 1

/-- A run in which the press follows the report. -/
def pressRun (credential : CStr) : Outcome (BusState Binary64 Unit) :=
  busLoop (coreMainHost ownerPsa houseServices quietApp) lampMap 2
    [⟨some (temperatureFrame credential), false⟩, ⟨some shortPress, false⟩]
    ⟨zeroMemory, CoreState.start ()⟩

/-- The press is authorized by the credential the report has left in the struct: behind the
parents' report it switches the lamp, behind another's it does not. -/
theorem short_press_borrows_credential :
    (pressRun (lit "parent-key")).didReturn = true ∧ (pressRun (lit "guest")).didReturn = true ∧
      (pressRun (lit "parent-key")).state.core.trace.flatMap sends =
        [putMessage lampRow CDouble.one] ∧
      (pressRun (lit "guest")).state.core.trace.flatMap sends = [] := by
  decide +kernel

/-- A whole press is handled by itself. -/
theorem frames_stand_alone_press :
    CoreAlike unstamped
      (coreLoop (coreMainHost ownerPsa houseServices quietApp) lampMap 2
        ([⟨some (temperatureFrame (lit "guest")), false⟩,
          ⟨some (shortPress ++ messageTail (lit "parent-key")), false⟩].map turnAlone)
        (CoreState.start ())).state
      (busLoop (coreMainHost ownerPsa houseServices quietApp) lampMap 2
        [⟨some (temperatureFrame (lit "guest")), false⟩,
          ⟨some (shortPress ++ messageTail (lit "parent-key")), false⟩]
        ⟨zeroMemory, CoreState.start ()⟩).state.core := by
  refine (frames_stand_alone lampMap ownerPsa houseServices quietApp 2 _ ?_ zeroMemory
    (CoreState.start ()) _ _ rfl rfl).2
  have hwhole : ∀ frame ∈ [temperatureFrame (lit "guest"),
      shortPress ++ messageTail (lit "parent-key")], Brings frame userNameField ∧
        BringsText frame userNameField ∧ (readAlone frame).payloadLen ≤ hesPayloadMax := by
    decide +kernel
  have halone : ∀ frame ∈ [temperatureFrame (lit "guest"),
      shortPress ++ messageTail (lit "parent-key")],
      StandsAlone (coreMainHost ownerPsa houseServices quietApp) lampMap frame :=
    fun frame hframe => standsAlone_of_whole _ _ frame (hwhole frame hframe).1
      (hwhole frame hframe).2.1 (hwhole frame hframe).2.2
  intro turn hturn frame hframe
  simp only [List.mem_cons, List.not_mem_nil, or_false] at hturn
  rcases hturn with rfl | rfl
  · obtain rfl := Option.some.inj hframe
    exact halone _ (by simp)
  · obtain rfl := Option.some.inj hframe
    exact halone _ (by simp)

end OpenHes.Analysis
