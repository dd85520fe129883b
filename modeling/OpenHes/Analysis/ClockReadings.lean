import OpenHes.Analysis.TimeEvents
import OpenHes.Library.WholeNumbers
import OpenHes.Model.TimeObjects

/-!
# The clock is read back exactly

What the time service tells of the clock and of the zone reaches the binding map as the number that
it was: in its events, in what the core feeds to itself, and in the answers to GETs that name the
current value in whatever list of data.
-/

set_option autoImplicit false

namespace OpenHes.Analysis

open OpenHes.Library OpenHes.Model
open Binary64 (atof ofInt EndsNumber atof_fmtD)

/-- The processor takes the message for a report, and its value for the integer. -/
def ReadsAs (m : HesClmeMsg) (n : ℤ) : Prop :=
  isReport m = true ∧ (readingOf m : Binary64) = ofInt n

/-! ## The record of the current value -/

section Record

variable {payload value : CStr}

/-- INTERNAL: the record of the value is the first that is found. -/
theorem find_va (h : vaRecords payload = [lit "va=" ++ value]) :
    (payload.splitOn 59).find? (holdsDatum (lit "va")) = some (lit "va=" ++ value) := by
  have hholds : holdsDatum (lit "va") (lit "va=" ++ value) = true :=
    (holdsDatum_append (lit "va") value (by decide)).trans (decide_eq_true rfl)
  have hnamed : (payload.splitOn 59).find? (holdsDatum (lit "va")) =
      (vaRecords payload).find? (holdsDatum (lit "va")) := by
    unfold vaRecords
    rw [List.find?_filter]
    congr 1
    funext record
    rw [Bool.eq_iff_iff, decide_eq_true_iff, decide_eq_true_iff]
    refine ⟨fun hrecord => ⟨?_, hrecord⟩, fun hrecord => hrecord.2⟩
    simp only [holdsDatum, Bool.and_eq_true, decide_eq_true_eq] at hrecord
    exact hrecord.2
  rw [hnamed, h, List.find?_cons_of_pos hholds]

/-- INTERNAL: behind its name stands the value. -/
theorem atof_va_record : atof ((lit "va=" ++ value).drop ((lit "va").length + 1)) = atof value :=
  rfl

/-- INTERNAL: **a payload** with one such record is read by it. -/
theorem bmDatumValue_va (h : vaRecords payload = [lit "va=" ++ value]) :
    (bmDatumValue payload (lit "va") : Binary64) = atof value := by
  rw [bmDatumValue_eq payload (by decide), readRecords, find_va h]
  exact atof_va_record

/-- INTERNAL: a payload with a value is not empty. -/
theorem payload_ne_nil (h : vaRecords payload = [lit "va=" ++ value]) : payload ≠ [] := by
  rintro rfl
  have hfound := find_va h
  cases hfound

/-- INTERNAL: **trimmed** to a list that names the current value, it is read the same. -/
theorem trimPayload_va (m : HesClmeMsg) (list : CStr) (hlen : m.payload.length + 2 ≤ hesPayloadMax)
    (hva : lit "va" ∈ listItems list) (h : vaRecords m.payload = [lit "va=" ++ value]) :
    (trimPayload m list).payload ≠ [] ∧
      (bmDatumValue (trimPayload m list).payload (lit "va") : Binary64) = atof value := by
  have hfills : ¬FillsMessage m.payload := fun hfull => by
    have := hfull.1
    omega
  have hsep : ∀ record ∈ keptRecords list m.payload, (59 : UInt8) ∉ record := fun record hr =>
    mem_pieces_not_mem _ _ (List.mem_of_mem_filter ((List.dropWhile_sublist _).mem hr))
  have hfound := find_va h
  rw [← find?_holdsDatum_keptRecords list m.payload (by decide) hva] at hfound
  rw [trimPayload_payload m (by omega) hfills]
  constructor
  · have hmem := List.mem_of_find?_eq_some hfound
    cases hkept : keptRecords list m.payload with
    | nil =>
      rw [hkept] at hmem
      cases hmem
    | cons record more =>
      rw [joined_cons]
      intro hnil
      obtain ⟨rfl, hmore⟩ := List.append_eq_nil_iff.mp hnil
      rw [hkept] at hmem
      rcases List.mem_cons.mp hmem with heq | hrest
      · cases heq
      · have hinside : (59 : UInt8) :: (lit "va=" ++ value) <:+: more.flatMap (59 :: ·) := by
          obtain ⟨front, back, rfl⟩ := List.append_of_mem hrest
          rw [List.flatMap_append, List.flatMap_cons]
          exact ⟨_, _, List.append_assoc _ _ _⟩
        rw [hmore] at hinside
        cases List.infix_nil.mp hinside
  · rw [bmDatumValue_joined _ (by decide) hsep, readRecords, hfound]
    exact atof_va_record

end Record

/-! ## The payloads -/

/-- The seconds that the realTime object tells: those that fit its declared range. -/
def secondsTold (clockNow : ℤ) : ℤ :=
  if realtimeMaxSeconds < (if clockNow < 0 then 0 else clockNow) then realtimeMaxSeconds
  else if clockNow < 0 then 0 else clockNow

/-- INTERNAL: the seconds told are within the declared range. -/
theorem secondsTold_bounds (clockNow : ℤ) :
    0 ≤ secondsTold clockNow ∧ secondsTold clockNow ≤ 4294967295 := by
  unfold secondsTold realtimeMaxSeconds
  split <;> split <;> omega

/-- The minutes that the localTimeZone object tells first. -/
def minutesTold (snap : TimeSnapshot) : ℤ := if snap.tzValid ≠ 0 then snap.stdOffsetMin else 0

/-- The records of the realTime payload before 'va'. -/
def realtimeFront : CStr :=
  lit "vr=1.0.0;dt=ss;sz=10;ne=1;nr=0;um=se;sc=0;mp=me;ar=100;" ++
    lit "pr=100;rq=op;pt=tm;ac=in;cd=no;cp=0;df=0;mn=0;mx=4294967295;vl=0;rl=0"

/-- INTERNAL: the records in front of the value are short, and none is of the value's name. -/
theorem realtimeFront_plain : realtimeFront.length < 200 ∧
    (realtimeFront.splitOn 59).filter (fun record => recordName record = lit "va") = [] := by
  unfold realtimeFront
  rw [lit_ofList, lit_ofList]
  decide +kernel

/-- A text that leaves room in a message, and tells the integer first. -/
structure TellsFirst (text : CStr) (n : ℤ) : Prop where
  room : text.length + 2 ≤ hesPayloadMax
  tells : ∃ rest, EndsNumber rest ∧ vaRecords text = [lit "va=" ++ (fmtD n ++ rest)]
  small : n.natAbs < 2 ^ 53

/-- INTERNAL: **the realTime payload** tells the seconds first. -/
theorem realtime_tells (clockNow : ℤ) :
    TellsFirst (buildRealtimePayload clockNow) (secondsTold clockNow) := by
  obtain ⟨hlow, hhigh⟩ := secondsTold_bounds clockNow
  obtain ⟨hfrontLen, hfront⟩ := realtimeFront_plain
  have hdigits := fmtD_length (secondsTold clockNow) (by constructor <;> omega)
  have hroom : (realtimeFront ++ 59 :: (lit "va=" ++ fmtD (secondsTold clockNow))).length + 2 ≤
      hesPayloadMax := by
    have hva : (lit "va=").length = 3 := rfl
    unfold hesPayloadMax
    simp only [List.length_append, List.length_cons]
    omega
  have htext : buildRealtimePayload clockNow =
      realtimeFront ++ 59 :: (lit "va=" ++ fmtD (secondsTold clockNow)) := by
    have hwhole : buildRealtimePayload clockNow = boundedCopy hesPayloadMax
        (realtimeFront ++ 59 :: (lit "va=" ++ fmtD (secondsTold clockNow))) := by
      unfold buildRealtimePayload realtimeFront secondsTold
      simp [lit]
    rw [hwhole]
    exact List.take_of_length_le (by omega)
  rw [htext]
  refine ⟨hroom, ⟨[], (fun c hc => by cases hc), ?_⟩, by omega⟩
  rw [List.append_nil]
  exact vaRecords_last _ _ hfront (not_mem_fmtD 59 (by decide) (by decide) _)

/-- INTERNAL: **the localTimeZone payload** tells the minutes first. -/
theorem localtz_tells (snap : TimeSnapshot) (hfits : SnapshotFits snap) :
    TellsFirst (buildLocaltzPayload snap) (minutesTold snap) := by
  have hvalue : localtzValue snap = fmtD (minutesTold snap) ++
      (lit "," ++ fmtD (if snap.tzValid ≠ 0 then snap.dstOffsetMin else 0)) := by
    unfold localtzValue minutesTold
    rw [List.append_assoc]
  have hminutes : FitsInt32 (minutesTold snap) := by
    unfold minutesTold
    split
    · exact hfits.std
    · decide
  have hdst : FitsInt32 (if snap.tzValid ≠ 0 then snap.dstOffsetMin else 0) := by
    split
    · exact hfits.dst
    · decide
  have hrecords := vaRecords_localtz snap hfits
  have hcopied : (publishEvent hesLxTimeLocaltzCv (buildLocaltzPayload snap)).payload =
      buildLocaltzPayload snap := by
    change boundedCopy hesPayloadMax (boundedCopy hesPayloadMax _) = boundedCopy hesPayloadMax _
    unfold boundedCopy
    rw [List.take_take, min_self]
  rw [hcopied, hvalue] at hrecords
  refine ⟨?_, ⟨_, ?_, hrecords⟩, ?_⟩
  · obtain ⟨hlen, -⟩ := fronts
    have hfirst := fmtD_length _ (fitsInt64_of_fitsInt32 _ hminutes)
    have hsecond := fmtD_length _ (fitsInt64_of_fitsInt32 _ hdst)
    have hva : (lit "va=").length = 3 := rfl
    have hcomma : (lit ",").length = 1 := rfl
    have htext : buildLocaltzPayload snap = boundedCopy hesPayloadMax
        (localtzFront ++ 59 :: (lit "va=" ++ localtzValue snap)) := by
      unfold buildLocaltzPayload localtzFront
      simp [lit]
    have hcut : (buildLocaltzPayload snap).length ≤
        (localtzFront ++ 59 :: (lit "va=" ++ localtzValue snap)).length := by
      rw [htext]
      exact List.length_take_le' _ _
    rw [hvalue] at hcut
    unfold hesPayloadMax
    simp only [List.length_append, List.length_cons] at hcut
    omega
  · intro c hc
    simpa [lit] using hc.symm
  · obtain ⟨hlow, hhigh⟩ := hminutes
    omega

/-! ## The messages -/

section Messages

variable {text : CStr} {n : ℤ}

/-- INTERNAL: such a text fits the payload of a message. -/
theorem TellsFirst.set (h : TellsFirst text n) (m : HesClmeMsg) :
    (hesMsgSetPayloadStr m text).payload = text := by
  have hroom := h.room
  exact List.take_of_length_le (by omega)

/-- INTERNAL: **a message with the text** is read for the integer. -/
theorem TellsFirst.readsAs (h : TellsFirst text n) (m : HesClmeMsg) (hverb : m.verb = .event)
    (hpayload : m.payload = text) : ReadsAs m n := by
  obtain ⟨rest, hrest, hrecords⟩ := h.tells
  subst hpayload
  refine ⟨?_, ?_⟩
  · unfold isReport
    rw [hverb]
    simpa using payload_ne_nil hrecords
  · exact (bmDatumValue_va hrecords).trans (atof_fmtD n h.small rest hrest)

/-- INTERNAL: **and so is the trimmed one**. -/
theorem TellsFirst.readsAs_trimmed (h : TellsFirst text n) (m : HesClmeMsg)
    (hverb : m.verb = .event) (hpayload : m.payload = text) (list : CStr)
    (hva : lit "va" ∈ listItems list) : ReadsAs (trimPayload m list) n := by
  obtain ⟨rest, hrest, hrecords⟩ := h.tells
  subst hpayload
  obtain ⟨hne, hvalue⟩ := trimPayload_va m list h.room hva hrecords
  refine ⟨?_, ?_⟩
  · have hsame : (trimPayload m list).verb = .event := hverb
    unfold isReport
    rw [hsame]
    simpa using hne
  · exact hvalue.trans (atof_fmtD n h.small rest hrest)

/-- INTERNAL: **an answer** to a GET that names the current value, if it names any. -/
theorem dispatch_readsAs {α : Type} (objs : List (ServiceObject α)) (so : ServiceObject α)
    (selector : Option CStr) (m : HesClmeMsg) (a : α) (answer : α → CStr)
    (hfound : findObject objs m.path = some (so, selector)) (hget : m.verb = .get)
    (honGet : so.onGet = some fun a _ => (a, answer a))
    (hlist : ∀ list ∈ selector.or (daList m.query), lit "va" ∈ listItems list)
    (h : TellsFirst (answer a) n) :
    ∃ out, dispatchToLocalObjects objs m a = (a, true, [out]) ∧ ReadsAs out n := by
  unfold dispatchToLocalObjects
  rw [hfound]
  dsimp only
  rw [hget, honGet]
  dsimp only
  refine ⟨_, rfl, ?_⟩
  cases hnames : selector.or (daList m.query) with
  | none => exact h.readsAs _ rfl (h.set _)
  | some list => exact h.readsAs_trimmed _ rfl (h.set _) list (hlist list hnames)

end Messages

/-- INTERNAL: the clock's part of a tick publishes the clock of that tick. -/
theorem tickRealtime_event (st : TimeState) (t : RealtimeTick) (m : HesClmeMsg)
    (hm : m ∈ (tickRealtime st t).2) :
    m = publishEvent hesLxTimeRealtimeCv (buildRealtimePayload t.clockNow) := by
  unfold tickRealtime at hm
  split at hm
  · exact List.mem_singleton.mp hm
  · cases hm

/-- INTERNAL: the zone's part publishes the zone that it took. -/
theorem tickLocaltz_event (st : TimeState) (t : RealtimeTick) (m : HesClmeMsg)
    (hm : m ∈ (tickLocaltz st t).2) :
    m = publishEvent hesLxTimeLocaltzCv (buildLocaltzPayload t.zone) := by
  unfold tickLocaltz at hm
  split at hm
  · exact List.mem_singleton.mp hm
  · cases hm

/-- INTERNAL: the source's part publishes the source that it took. -/
theorem tickSource_event (st : TimeState) (t : RealtimeTick) (m : HesClmeMsg)
    (hm : m ∈ (tickSource st t).2) :
    m = publishEvent hesLxTimeSourceCv (buildSourcePayload t.source) := by
  unfold tickSource at hm
  split at hm
  · exact List.mem_singleton.mp hm
  · cases hm

/-- INTERNAL: **the events of a tick** are those of its own samples. -/
theorem realtimeTick_events (st : TimeState) (t : RealtimeTick) (m : HesClmeMsg)
    (hm : m ∈ (realtimeTick st t).2) :
    m = publishEvent hesLxTimeRealtimeCv (buildRealtimePayload t.clockNow) ∨
      m = publishEvent hesLxTimeLocaltzCv (buildLocaltzPayload t.zone) ∨
      m = publishEvent hesLxTimeSourceCv (buildSourcePayload t.source) := by
  rcases List.mem_append.mp hm with hm | hm
  · rcases List.mem_append.mp hm with hm | hm
    · exact Or.inl (tickRealtime_event st t m hm)
    · exact Or.inr (Or.inl (tickLocaltz_event _ t m hm))
  · exact Or.inr (Or.inr (tickSource_event _ t m hm))

/-- INTERNAL: a tick that is due reports the clock. -/
theorem realtimeTick_due (st : TimeState) (t : RealtimeTick) (hdue : realtimeDue st t.now = true) :
    publishEvent hesLxTimeRealtimeCv (buildRealtimePayload t.clockNow) ∈
      (realtimeTick st t).2 := by
  have hclock : publishEvent hesLxTimeRealtimeCv (buildRealtimePayload t.clockNow) ∈
      (tickRealtime st t).2 := by
    unfold tickRealtime
    rw [if_pos hdue]
    exact List.mem_singleton_self _
  exact List.mem_append_left _ (List.mem_append_left _ hclock)

/-- **The clock is read back exactly.** In every run of the time service's ticks, each tick adds its
own events: one of the realTime object, if the clock is due, which the binding map reads as the
second of that tick, cut to the declared range, and of the localTimeZone object those that it reads
as the minutes of its snapshot; so is, at any moment, what the core feeds to itself; and so is every
answer of the two objects to a GET that names no data, or names the current value among them, by its
address or in its query.
SRCLINE: time.c:112-160, 199-292; core.c:661-670; hes_dispatch.c:184-282; bm.c:952-990 -/
theorem clock_read_exactly {α : Type} (psa : Psa) (services : CoreServices α)
    (app : CoreApp Binary64 α) (clockNow : α → ℤ) (snapshot : α → TimeSnapshot) :
    (∀ st before t, SnapshotFits t.zone →
      (realtimeRun st [] (before ++ [t])).2 = (realtimeRun st [] before).2 ++
        (realtimeTick (realtimeRun st [] before).1 t).2 ∧
      (realtimeDue (realtimeRun st [] before).1 t.now = true →
        ∃ m ∈ (realtimeTick (realtimeRun st [] before).1 t).2, m.path = hesLxTimeRealtimeCv) ∧
      ∀ m ∈ (realtimeTick (realtimeRun st [] before).1 t).2,
        (m.path = hesLxTimeRealtimeCv → ReadsAs m (secondsTold t.clockNow)) ∧
        (m.path = hesLxTimeLocaltzCv → ReadsAs m (minutesTold t.zone))) ∧
    (∀ a, ReadsAs (selfEvent (coreMainHost psa (services.withTime clockNow snapshot) app) a).2
      (secondsTold (clockNow a))) ∧
    ∀ (m : HesClmeMsg) (a : α) (so : ServiceObject α) (selector : Option CStr), m.verb = .get →
      findObject (coreObjects psa (services.withTime clockNow snapshot)) m.path =
        some (so, selector) →
      (∀ list ∈ selector.or (daList m.query), lit "va" ∈ listItems list) →
      (so = realtimeObject (services.withTime clockNow snapshot) → ∃ out,
        dispatchToLocalObjects (coreObjects psa (services.withTime clockNow snapshot)) m a =
          (a, true, [out]) ∧ ReadsAs out (secondsTold (clockNow a))) ∧
      (so = coreObject "/lx/ob/so/ti/tz/st/cv"
          (services.withTime clockNow snapshot).localtzOnGet → SnapshotFits (snapshot a) → ∃ out,
        dispatchToLocalObjects (coreObjects psa (services.withTime clockNow snapshot)) m a =
          (a, true, [out]) ∧ ReadsAs out (minutesTold (snapshot a))) := by
  refine ⟨fun st before t hfits => ⟨?_, fun hdue => ?_, fun m hm => ?_⟩, fun a => ?_, ?_⟩
  · exact congrArg Prod.snd (realtimeRun_snoc st [] before t)
  · exact ⟨_, realtimeTick_due _ t hdue, publishEvent_path _ _ (by decide)⟩
  · rcases realtimeTick_events _ t m hm with rfl | rfl | rfl
    · rw [publishEvent_path _ _ (by decide)]
      refine ⟨fun _ => ?_, fun hpath => absurd hpath (by decide)⟩
      have htells := realtime_tells t.clockNow
      exact htells.readsAs _ rfl (htells.set _)
    · rw [publishEvent_path _ _ (by decide)]
      refine ⟨fun hpath => absurd hpath (by decide), fun _ => ?_⟩
      have htells := localtz_tells t.zone hfits
      exact htells.readsAs _ rfl (htells.set _)
    · rw [publishEvent_path _ _ (by decide)]
      exact ⟨fun hpath => absurd hpath (by decide), fun hpath => absurd hpath (by decide)⟩
  · have htells := realtime_tells (clockNow a)
    exact htells.readsAs _ rfl (htells.set _)
  · intro m a so selector hget hfound hlist
    constructor
    · rintro rfl
      exact dispatch_readsAs _ _ selector m a (fun a => buildRealtimePayload (clockNow a)) hfound
        hget rfl hlist (realtime_tells (clockNow a))
    · rintro rfl hfits
      exact dispatch_readsAs _ _ selector m a (fun a => buildLocaltzPayload (snapshot a)) hfound
        hget rfl hlist (localtz_tells (snapshot a) hfits)

/-- The address of the realTime object with the current value's name behind it. -/
example {α : Type} (psa : Psa) (services : CoreServices α) :
    (findObject (coreObjects psa services) (lit "/lx/ob/so/ti/rt/st/cv/va")).map (fun found =>
      (found.1.path, found.2)) = some (hesLxTimeRealtimeCv, some (lit "va")) ∧
        lit "va" ∈ listItems (lit "va") := by
  refine ⟨?_, by decide +kernel⟩
  rfl

end OpenHes.Analysis
