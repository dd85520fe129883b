import OpenHes.Analysis.DatumAddressing
import OpenHes.Library.Decimal
import OpenHes.Model.TimeService

/-!
# The change events of the time service

A tick decides on one snapshot, remembers it, and publishes a payload built of another one. As
long as the two tell the same value the events tell the truth, over any run; a value that has
changed in between and changes back is never corrected.
-/

set_option autoImplicit false

namespace OpenHes.Analysis

open OpenHes.Library OpenHes.Model

/-! ## What an event tells -/

/-- The records of a payload that are named 'va'. -/
def vaRecords (payload : CStr) : List CStr :=
  (payload.splitOn 59).filter fun record => recordName record = lit "va"

/-- Does the last event of the address carry the value as its 'va'? -/
def LastCarries (published : List HesClmeMsg) (path value : CStr) : Prop :=
  ∃ m, (published.filter fun m => m.path = path).getLast? = some m ∧
    vaRecords m.payload = [lit "va=" ++ value]

/-- The pair of Table 52 of two offsets. -/
def offsetPair (stdMin dstMin : ℤ) : CStr := fmtD stdMin ++ lit "," ++ fmtD dstMin

/-- The code of Table 56. -/
def sourceCode (ntpValid : ℤ) : CStr := if ntpValid ≠ 0 then lit "nt" else lit "lx"

/-- Are the offsets of the snapshot `int`s? -/
structure SnapshotFits (snap : TimeSnapshot) : Prop where
  std : FitsInt32 snap.stdOffsetMin
  dst : FitsInt32 snap.dstOffsetMin

variable {st : TimeState} {published : List HesClmeMsg} {t : RealtimeTick} {path value : CStr}

/-- INTERNAL: an event of the path carries its own value. -/
theorem lastCarries_append_own (m : HesClmeMsg) (hpath : m.path = path)
    (hva : vaRecords m.payload = [lit "va=" ++ value]) :
    LastCarries (published ++ [m]) path value := by
  refine ⟨m, ?_, hva⟩
  rw [List.filter_append, List.filter_cons_of_pos (by simpa using hpath)]
  exact List.getLast?_concat

/-- INTERNAL: an event of another path leaves it. -/
theorem lastCarries_append_other (m : HesClmeMsg) (hpath : m.path ≠ path)
    (h : LastCarries published path value) : LastCarries (published ++ [m]) path value := by
  obtain ⟨last, hlast, hva⟩ := h
  refine ⟨last, ?_, hva⟩
  rw [List.filter_append, List.filter_cons_of_neg (by simpa using hpath)]
  rwa [List.filter_nil, List.append_nil]

/-- INTERNAL: a payload whose last record is 'va' carries what stands there. -/
theorem vaRecords_last (front value : CStr)
    (hfront : (front.splitOn 59).filter (fun record => recordName record = lit "va") = [])
    (hvalue : (59 : UInt8) ∉ value) :
    vaRecords (front ++ 59 :: (lit "va=" ++ value)) = [lit "va=" ++ value] := by
  have hrecord : (59 : UInt8) ∉ lit "va=" ++ value := by
    rw [List.mem_append]
    exact not_or.mpr ⟨by decide, hvalue⟩
  have hname : recordName (lit "va=" ++ value) = lit "va" :=
    recordName_append (lit "va") value (by decide)
  unfold vaRecords
  rw [List.splitOn_append_cons_self, List.filter_append, hfront, List.splitOn_eq_singleton hrecord]
  simp [hname]

/-- The records of the localTimeZone payload before 'va'. -/
def localtzFront : CStr :=
  lit "dt=ai,ai;sz=12;ne=2;nr=0;um=mi,mi;sc=0;mp=pr;ar=100;pr=100;rq=op;" ++
    lit "pt=tm;ac=in;cd=no;cp=0;df=0,0;mn=-1440,-1440;mx=1440,1440;vl=0;rl=0"

/-- The records of the sourceOfTime payload before 'va'. -/
def sourceFront : CStr :=
  lit "dt=sl;sz=2;ne=1;nr=0;sc=0;mp=pr;ar=100;pr=100;rq=op;pt=tm;ac=in;" ++
    lit "cd=no;cp=0;df=lx;vl=0;rl=0"

/-- INTERNAL: the texts in front of the two values are short, and no records of theirs. -/
theorem fronts : localtzFront.length < 200 ∧ sourceFront.length < 200 ∧
    (localtzFront.splitOn 59).filter (fun record => recordName record = lit "va") = [] ∧
    (sourceFront.splitOn 59).filter (fun record => recordName record = lit "va") = [] := by
  unfold localtzFront sourceFront
  rw [lit_ofList, lit_ofList, lit_ofList, lit_ofList]
  decide +kernel

/-- INTERNAL: a pair of offsets holds no separator. -/
theorem offsetPair_plain (stdMin dstMin : ℤ) : (59 : UInt8) ∉ offsetPair stdMin dstMin := by
  have hdigits := not_mem_fmtD 59 (by decide) (by decide)
  unfold offsetPair
  rw [List.mem_append, List.mem_append, not_or, not_or]
  exact ⟨⟨hdigits stdMin, by decide⟩, hdigits dstMin⟩

/-- INTERNAL: a zone that is known is told as its two offsets. -/
theorem localtzValue_known (snap : TimeSnapshot) (h : snap.tzValid ≠ 0) :
    localtzValue snap = offsetPair snap.stdOffsetMin snap.dstOffsetMin := by
  unfold localtzValue
  rw [if_pos h, if_pos h]
  rfl

/-- INTERNAL: what is told of a zone is a pair of offsets that fit. -/
theorem localtzValue_pair (snap : TimeSnapshot) (hfits : SnapshotFits snap) :
    ∃ stdMin dstMin, FitsInt32 stdMin ∧ FitsInt32 dstMin ∧
      localtzValue snap = offsetPair stdMin dstMin := by
  by_cases h : snap.tzValid ≠ 0
  · exact ⟨_, _, hfits.std, hfits.dst, localtzValue_known snap h⟩
  · refine ⟨0, 0, by decide, by decide, ?_⟩
    unfold localtzValue
    rw [if_neg h, if_neg h]
    rfl

/-- INTERNAL: a short payload is published whole. -/
theorem publishEvent_payload (path text : CStr) (hlen : text.length < hesPayloadMax) :
    (publishEvent path (boundedCopy hesPayloadMax text)).payload = text := by
  have hcopy : boundedCopy hesPayloadMax text = text :=
    List.take_of_length_le (Nat.le_sub_one_of_lt hlen)
  rw [hcopy]
  exact hcopy

/-- INTERNAL: **the event of the zone** carries the pair of the snapshot it is built of. -/
theorem vaRecords_localtz (snap : TimeSnapshot) (hfits : SnapshotFits snap) :
    vaRecords (publishEvent hesLxTimeLocaltzCv (buildLocaltzPayload snap)).payload =
      [lit "va=" ++ localtzValue snap] := by
  obtain ⟨stdMin, dstMin, hstd, hdst, hvalue⟩ := localtzValue_pair snap hfits
  have hstdLen := fmtD_length stdMin (fitsInt64_of_fitsInt32 _ hstd)
  have hdstLen := fmtD_length dstMin (fitsInt64_of_fitsInt32 _ hdst)
  obtain ⟨hlen, -, hfront, -⟩ := fronts
  have htext : buildLocaltzPayload snap = boundedCopy hesPayloadMax
      (localtzFront ++ 59 :: (lit "va=" ++ localtzValue snap)) := by
    unfold buildLocaltzPayload localtzFront
    simp [lit]
  have hroom : (localtzFront ++ 59 :: (lit "va=" ++ localtzValue snap)).length < hesPayloadMax := by
    have hva : (lit "va=").length = 3 := rfl
    have hcomma : (lit ",").length = 1 := rfl
    rw [hvalue]
    unfold offsetPair hesPayloadMax
    simp only [List.length_append, List.length_cons]
    omega
  rw [htext, publishEvent_payload _ _ hroom]
  exact vaRecords_last _ _ hfront (hvalue ▸ offsetPair_plain stdMin dstMin)

/-- INTERNAL: **the event of the source** carries the code of the snapshot it is built of. -/
theorem vaRecords_source (snap : TimeSnapshot) :
    vaRecords (publishEvent hesLxTimeSourceCv (buildSourcePayload snap)).payload =
      [lit "va=" ++ sourceCode snap.ntpValid] := by
  obtain ⟨-, hlen, -, hfront⟩ := fronts
  have htext : buildSourcePayload snap = boundedCopy hesPayloadMax
      (sourceFront ++ 59 :: (lit "va=" ++ sourceCode snap.ntpValid)) := by
    unfold buildSourcePayload sourceFront timeSyncSourceCode sourceCode
    simp [lit]
  have hcode : (sourceCode snap.ntpValid).length = 2 ∧ (59 : UInt8) ∉ sourceCode snap.ntpValid := by
    unfold sourceCode
    split
    · decide
    · decide
  have hroom : (sourceFront ++ 59 :: (lit "va=" ++ sourceCode snap.ntpValid)).length <
      hesPayloadMax := by
    have hva : (lit "va=").length = 3 := rfl
    unfold hesPayloadMax
    simp only [List.length_append, List.length_cons]
    omega
  rw [htext, publishEvent_payload _ _ hroom]
  exact vaRecords_last _ _ hfront hcode.2

/-- INTERNAL: there is one last event. -/
theorem LastCarries.unique {value' : CStr} (h : LastCarries published path value)
    (h' : LastCarries published path value') : value' = value := by
  obtain ⟨m, hm, hva⟩ := h
  obtain ⟨m', hm', hva'⟩ := h'
  obtain rfl := Option.some.inj (hm.symm.trans hm')
  rw [hva] at hva'
  exact (List.append_cancel_left (List.singleton_inj.mp hva')).symm

/-! ## One tick -/

/-- The last events are those of the ticks `zone` and `source`, which have decided on what the
service remembers. -/
structure Told (st : TimeState) (published : List HesClmeMsg)
    (zone source : Option RealtimeTick) : Prop where
  haveTz : st.haveTz = zone.isSome
  haveSource : st.haveSource = source.isSome
  zone : ∀ t ∈ zone, LastCarries published hesLxTimeLocaltzCv (localtzValue t.zone) ∧
    offsetPair st.tzStd st.tzDst = localtzValue t.decided
  source : ∀ t ∈ source, LastCarries published hesLxTimeSourceCv (timeSyncSourceCode t.source) ∧
    sourceCode st.sourceIsNtp = timeSyncSourceCode t.decided

variable {zone source : Option RealtimeTick}

/-- INTERNAL: so is a short path. -/
theorem publishEvent_path (path payload : CStr) (h : path.length < hesPathMax) :
    (publishEvent path payload).path = path :=
  List.take_of_length_le (Nat.le_sub_one_of_lt h)

/-- INTERNAL: an event of another address changes nothing. -/
theorem Told.other (h : Told st published zone source) (m : HesClmeMsg)
    (hzone : m.path ≠ hesLxTimeLocaltzCv) (hsource : m.path ≠ hesLxTimeSourceCv) :
    Told st (published ++ [m]) zone source where
  haveTz := h.haveTz
  haveSource := h.haveSource
  zone t ht := ⟨lastCarries_append_other m hzone (h.zone t ht).1, (h.zone t ht).2⟩
  source t ht := ⟨lastCarries_append_other m hsource (h.source t ht).1, (h.source t ht).2⟩

/-- INTERNAL: the event of the clock leaves what was told of the others. -/
theorem Told.realtime (h : Told st published zone source) (t : RealtimeTick) :
    Told (tickRealtime st t).1 (published ++ (tickRealtime st t).2) zone source := by
  unfold tickRealtime
  split
  · have hpath := publishEvent_path hesLxTimeRealtimeCv (buildRealtimePayload t.clockNow) (by decide)
    have hlater : Told { st with lastEvent := t.now } published zone source :=
      ⟨h.haveTz, h.haveSource, h.zone, h.source⟩
    apply hlater.other
    · rw [hpath]
      decide
    · rw [hpath]
      decide
  · rw [List.append_nil]
    exact h

/-- INTERNAL: a turn that reports the zone tells it, any other leaves it. -/
theorem Told.localtz (h : Told st published zone source) (hfits : SnapshotFits t.zone) :
    Told (tickLocaltz st t).1 (published ++ (tickLocaltz st t).2)
      (if localtzDue st t.decided then some t else zone) source := by
  have hpath := publishEvent_path hesLxTimeLocaltzCv (buildLocaltzPayload t.zone) (by decide)
  unfold tickLocaltz
  split
  next hdue =>
    have hvalid : t.decided.tzValid ≠ 0 := by
      unfold localtzDue at hdue
      rw [Bool.and_eq_true] at hdue
      exact of_decide_eq_true hdue.1
    constructor
    · rfl
    · exact h.haveSource
    · intro t' ht'
      obtain rfl := Option.some.inj ht'
      exact ⟨lastCarries_append_own _ hpath (vaRecords_localtz t.zone hfits),
        (localtzValue_known t.decided hvalid).symm⟩
    · intro t' ht'
      refine ⟨?_, (h.source t' ht').2⟩
      apply lastCarries_append_other
      · rw [hpath]
        decide
      · exact (h.source t' ht').1
  next hnot =>
    rw [List.append_nil]
    exact h

/-- INTERNAL: a turn that reports the source tells it, any other leaves it. -/
theorem Told.reportSource (h : Told st published zone source) :
    Told (tickSource st t).1 (published ++ (tickSource st t).2) zone
      (if sourceDue st t.decided then some t else source) := by
  have hpath := publishEvent_path hesLxTimeSourceCv (buildSourcePayload t.source) (by decide)
  unfold tickSource
  split
  next hdue =>
    constructor
    · exact h.haveTz
    · rfl
    · intro t' ht'
      refine ⟨?_, (h.zone t' ht').2⟩
      apply lastCarries_append_other
      · rw [hpath]
        decide
      · exact (h.zone t' ht').1
    · intro t' ht'
      obtain rfl := Option.some.inj ht'
      exact ⟨lastCarries_append_own _ hpath (vaRecords_source t.source), rfl⟩
  next hnot =>
    rw [List.append_nil]
    exact h

/-- INTERNAL: **a tick** is the last to report what it finds due. -/
theorem Told.tick (h : Told st published zone source) (hfits : SnapshotFits t.zone) :
    Told (realtimeTick st t).1 (published ++ (realtimeTick st t).2)
      (if localtzDue st t.decided then some t else zone)
      (if sourceDue st t.decided then some t else source) := by
  have hdueZone : localtzDue (tickRealtime st t).1 t.decided = localtzDue st t.decided := by
    unfold tickRealtime
    split <;> rfl
  have hdueSource : sourceDue (tickLocaltz (tickRealtime st t).1 t).1 t.decided =
      sourceDue st t.decided := by
    unfold tickLocaltz tickRealtime
    split <;> split <;> rfl
  have hevents : (realtimeTick st t).2 = (tickRealtime st t).2 ++
      (tickLocaltz (tickRealtime st t).1 t).2 ++
        (tickSource (tickLocaltz (tickRealtime st t).1 t).1 t).2 := rfl
  have hparts := ((h.realtime t).localtz hfits).reportSource (t := t)
  rw [hdueZone, hdueSource] at hparts
  rw [hevents, ← List.append_assoc, ← List.append_assoc]
  exact hparts

/-! ## What a tick remembers -/

/-- INTERNAL: behind a turn the offsets that it decided on are remembered. -/
theorem tickLocaltz_remembers (st : TimeState) (t : RealtimeTick) (h : t.decided.tzValid ≠ 0) :
    (tickLocaltz st t).1.haveTz = true ∧ (tickLocaltz st t).1.tzStd = t.decided.stdOffsetMin ∧
      (tickLocaltz st t).1.tzDst = t.decided.dstOffsetMin := by
  unfold tickLocaltz
  split
  · exact ⟨rfl, rfl, rfl⟩
  next hnot =>
    have hkept : localtzDue st t.decided = false := by simpa using hnot
    unfold localtzDue at hkept
    simp only [h, ne_eq, not_false_eq_true, decide_true, Bool.true_and, Bool.or_eq_false_iff,
      Bool.not_eq_false', decide_eq_false_iff_not, not_not] at hkept
    exact ⟨hkept.1.1.1, hkept.1.2, hkept.2⟩

/-- INTERNAL: so is the source. -/
theorem tickSource_remembers (st : TimeState) (t : RealtimeTick) :
    (tickSource st t).1.haveSource = true ∧
      (tickSource st t).1.sourceIsNtp = t.decided.ntpValid := by
  unfold tickSource
  split
  · exact ⟨rfl, rfl⟩
  next hnot =>
    have hkept : sourceDue st t.decided = false := by simpa using hnot
    unfold sourceDue at hkept
    simp only [Bool.or_eq_false_iff, Bool.not_eq_false', ne_eq, decide_eq_false_iff_not,
      not_not] at hkept
    exact hkept

/-- INTERNAL: the report of the source leaves the remembered zone. -/
theorem tickSource_zone (st : TimeState) (t : RealtimeTick) :
    (tickSource st t).1.haveTz = st.haveTz ∧ (tickSource st t).1.tzStd = st.tzStd ∧
      (tickSource st t).1.tzDst = st.tzDst := by
  unfold tickSource
  split
  · exact ⟨rfl, rfl, rfl⟩
  · exact ⟨rfl, rfl, rfl⟩

/-- INTERNAL: **a tick remembers** the zone and the source that it has decided on. -/
theorem realtimeTick_remembers (st : TimeState) (t : RealtimeTick) :
    (t.decided.tzValid ≠ 0 → (realtimeTick st t).1.haveTz = true ∧
      offsetPair (realtimeTick st t).1.tzStd (realtimeTick st t).1.tzDst =
        localtzValue t.decided) ∧
    (realtimeTick st t).1.haveSource = true ∧
      sourceCode (realtimeTick st t).1.sourceIsNtp = timeSyncSourceCode t.decided := by
  obtain ⟨hsource, hntp⟩ := tickSource_remembers (tickLocaltz (tickRealtime st t).1 t).1 t
  refine ⟨fun hvalid => ?_, hsource, congrArg sourceCode hntp⟩
  obtain ⟨hhave, hstd, hdst⟩ := tickLocaltz_remembers (tickRealtime st t).1 t hvalid
  obtain ⟨hhave', hstd', hdst'⟩ := tickSource_zone (tickLocaltz (tickRealtime st t).1 t).1 t
  rw [localtzValue_known t.decided hvalid]
  exact ⟨hhave'.trans hhave, congrArg₂ offsetPair (hstd'.trans hstd) (hdst'.trans hdst)⟩

/-! ## A run -/

/-- The last tick of a run that reports what is due. -/
def lastReporter (due : TimeState → TimeSnapshot → Bool) :
    TimeState → Option RealtimeTick → List RealtimeTick → Option RealtimeTick
  | _, reporter, [] => reporter
  | st, reporter, t :: rest =>
    lastReporter due (realtimeTick st t).1 (if due st t.decided then some t else reporter) rest

/-- INTERNAL: nothing was told in front of the first turn. -/
theorem told_start : Told {} [] none none where
  haveTz := rfl
  haveSource := rfl
  zone _ ht := nomatch ht
  source _ ht := nomatch ht

/-- INTERNAL: **the last events of a run** are those of the last ticks that reported. -/
theorem Told.run (h : Told st published zone source) (ticks : List RealtimeTick)
    (hfits : ∀ t ∈ ticks, SnapshotFits t.zone) :
    Told (realtimeRun st published ticks).1 (realtimeRun st published ticks).2
      (lastReporter localtzDue st zone ticks) (lastReporter sourceDue st source ticks) := by
  induction ticks generalizing st published zone source with
  | nil => exact h
  | cons t rest ih =>
    exact ih (h.tick (hfits t List.mem_cons_self))
      fun t' ht' => hfits t' (List.mem_cons_of_mem _ ht')

/-- INTERNAL: a run goes on by a tick, which adds its events. -/
theorem realtimeRun_snoc (st : TimeState) (published : List HesClmeMsg)
    (ticks : List RealtimeTick) (last : RealtimeTick) :
    realtimeRun st published (ticks ++ [last]) =
      ((realtimeTick (realtimeRun st published ticks).1 last).1,
        (realtimeRun st published ticks).2 ++
          (realtimeTick (realtimeRun st published ticks).1 last).2) := by
  induction ticks generalizing st published with
  | nil => rfl
  | cons t rest ih => exact ih _ _

/-- INTERNAL: a zone is remembered once one was known. -/
theorem haveTz_of_known (ticks : List RealtimeTick)
    (h : st.haveTz = true ∨ ∃ t ∈ ticks, t.decided.tzValid ≠ 0) :
    (realtimeRun st published ticks).1.haveTz = true := by
  induction ticks generalizing st published with
  | nil =>
    rcases h with h | ⟨t, ht, -⟩
    · exact h
    · exact absurd ht List.not_mem_nil
  | cons t rest ih =>
    apply ih
    have hkept : st.haveTz = true → (realtimeTick st t).1.haveTz = true := by
      intro hhave
      obtain ⟨hsame, -⟩ := tickSource_zone (tickLocaltz (tickRealtime st t).1 t).1 t
      refine hsame.trans ?_
      unfold tickLocaltz tickRealtime
      split <;> split <;> first | rfl | exact hhave
    rcases h with h | ⟨t', ht', hvalid⟩
    · exact Or.inl (hkept h)
    · rcases List.mem_cons.mp ht' with rfl | hrest
      · exact Or.inl ((realtimeTick_remembers st t').1 hvalid).1
      · exact Or.inr ⟨t', hrest, hvalid⟩

/-- INTERNAL: the last turn that reported is one of the run, and was due. -/
theorem mem_lastReporter (due : TimeState → TimeSnapshot → Bool) (reporter : Option RealtimeTick)
    (ticks : List RealtimeTick) (h : t ∈ lastReporter due st reporter ticks) :
    t ∈ reporter ∨ t ∈ ticks ∧ ∃ st', due st' t.decided = true := by
  induction ticks generalizing st reporter with
  | nil => exact Or.inl h
  | cons first rest ih =>
    rcases ih _ h with hfirst | ⟨hrest, hdue⟩
    · split at hfirst
      next hdue =>
        obtain rfl := Option.some.inj hfirst
        exact Or.inr ⟨List.mem_cons_self, st, hdue⟩
      · exact Or.inl hfirst
    · exact Or.inr ⟨List.mem_cons_of_mem _ hrest, hdue⟩

/-! ## When the events tell the truth -/

/-- A tick during which the provider answers the same snapshot. -/
def steadyTick (now clockNow : ℤ) (current : TimeSnapshot) : RealtimeTick :=
  ⟨now, clockNow, current, current, current⟩

/-- Do the last events after the ticks carry the 'va's of the current snapshot, that of the zone
once a zone is known? -/
def EventsTellTruth (ticks : List RealtimeTick) (current : TimeSnapshot) : Prop :=
  let published := (realtimeRun {} [] ticks).2
  ((∃ t ∈ ticks, t.decided.tzValid ≠ 0) →
    LastCarries published hesLxTimeLocaltzCv (localtzValue current)) ∧
  LastCarries published hesLxTimeSourceCv (timeSyncSourceCode current)

/-- Did the last tick that reported the zone, and the last one that reported the source, report
the value that it had decided on (and of the zone "0,0" where the current snapshot has none)? -/
structure ReportedTruly (ticks : List RealtimeTick) (current : TimeSnapshot) : Prop where
  zone : ∀ t ∈ lastReporter localtzDue {} none ticks,
    localtzValue t.zone = if current.tzValid ≠ 0 then localtzValue t.decided else lit "0,0"
  source : ∀ t ∈ lastReporter sourceDue {} none ticks,
    timeSyncSourceCode t.source = timeSyncSourceCode t.decided

/-- INTERNAL: a zone that is not known is told as two zeros. -/
theorem localtzValue_unknown (snap : TimeSnapshot) (h : ¬snap.tzValid ≠ 0) :
    localtzValue snap = lit "0,0" := by
  unfold localtzValue
  rw [if_neg h, if_neg h]
  rfl

/-- INTERNAL: if a turn reported the zone, a turn knew it. -/
theorem known_of_reporter (ticks : List RealtimeTick)
    (h : t ∈ lastReporter localtzDue st none ticks) : ∃ t ∈ ticks, t.decided.tzValid ≠ 0 := by
  rcases mem_lastReporter localtzDue none ticks h with hnone | ⟨hmem, st', hdue⟩
  · cases hnone
  · unfold localtzDue at hdue
    rw [Bool.and_eq_true] at hdue
    exact ⟨t, hmem, of_decide_eq_true hdue.1⟩

/-- INTERNAL: after a tick on an unchanged snapshot, the last tick that reported the zone had
decided on the value of that snapshot, where it has one. -/
theorem decided_current (before : List RealtimeTick) (now clockNow : ℤ) (current : TimeSnapshot)
    (hfits : ∀ t ∈ before ++ [steadyTick now clockNow current], SnapshotFits t.zone) :
    ∀ t ∈ lastReporter localtzDue {} none (before ++ [steadyTick now clockNow current]),
      (if current.tzValid ≠ 0 then localtzValue t.decided else lit "0,0") =
        localtzValue current := by
  intro t ht
  split
  next hvalid =>
    obtain ⟨hnow, -⟩ :=
      realtimeTick_remembers (realtimeRun {} [] before).1 (steadyTick now clockNow current)
    rw [← ((told_start.run _ hfits).zone t ht).2, realtimeRun_snoc]
    exact (hnow hvalid).2
  next hnone => exact (localtzValue_unknown current hnone).symm

/-- **Change events tell the truth** after a run that ends with a tick on an unchanged snapshot
exactly when the last ticks that reported the zone and the source reported what they had decided
on.
SRCLINE: time.c:218-259 -/
theorem events_tell_truth_iff (before : List RealtimeTick)
    (hfits : ∀ t ∈ before, SnapshotFits t.zone) (now clockNow : ℤ) (current : TimeSnapshot)
    (hcurrent : SnapshotFits current) :
    EventsTellTruth (before ++ [steadyTick now clockNow current]) current ↔
      ReportedTruly (before ++ [steadyTick now clockNow current]) current := by
  have hallFit : ∀ t ∈ before ++ [steadyTick now clockNow current], SnapshotFits t.zone := by
    intro t ht
    rcases List.mem_append.mp ht with hmem | hmem
    · exact hfits t hmem
    · rw [List.mem_singleton.mp hmem]
      exact hcurrent
  have htold := told_start.run _ hallFit
  have hzoneCurrent := decided_current before now clockNow current hallFit
  obtain ⟨-, hsourceHave, hsourceNow⟩ :=
    realtimeTick_remembers (realtimeRun {} [] before).1 (steadyTick now clockNow current)
  have hlast := congrArg Prod.fst
    (realtimeRun_snoc {} [] before (steadyTick now clockNow current))
  rw [← hlast] at hsourceHave hsourceNow
  constructor
  · rintro ⟨hzone, hsource⟩
    constructor
    · intro t ht
      rw [hzoneCurrent t ht]
      exact ((hzone (known_of_reporter _ ht)).unique (htold.zone t ht).1)
    · intro t ht
      rw [← (htold.source t ht).2, hsourceNow]
      exact hsource.unique (htold.source t ht).1
  · rintro ⟨hzone, hsource⟩
    constructor
    · intro hknown
      have hhave : (lastReporter localtzDue {} none
          (before ++ [steadyTick now clockNow current])).isSome := by
        rw [← htold.haveTz]
        exact haveTz_of_known _ (Or.inr hknown)
      obtain ⟨t, ht⟩ := Option.isSome_iff_exists.mp hhave
      have hcarries := (htold.zone t ht).1
      rwa [hzone t ht, hzoneCurrent t ht] at hcarries
    · have hhave : (lastReporter sourceDue {} none
          (before ++ [steadyTick now clockNow current])).isSome := by
        rw [← htold.haveSource]
        exact hsourceHave
      obtain ⟨t, ht⟩ := Option.isSome_iff_exists.mp hhave
      have hcarries := (htold.source t ht).1
      rwa [hsource t ht, ← (htold.source t ht).2, hsourceNow] at hcarries

/-- A snapshot with a zone. -/
def zoneSnapshot (name : String) (stdMin dstMin : ℤ) : TimeSnapshot where
  tzValid := 1
  tzName := lit name
  stdOffsetMin := stdMin
  dstOffsetMin := dstMin

/-- A tick that decides on one zone and reports another one. -/
def overtakenTick : RealtimeTick where
  now := 1
  clockNow := 1
  decided := zoneSnapshot "Asia/Taipei" 480 0
  zone := zoneSnapshot "Europe/Berlin" 60 60
  source := zoneSnapshot "Europe/Berlin" 60 60

/-- INTERNAL: the offsets of a snapshot fit. -/
theorem zoneSnapshot_fits (name : String) (stdMin dstMin : ℤ) (hstd : FitsInt32 stdMin)
    (hdst : FitsInt32 dstMin) : SnapshotFits (zoneSnapshot name stdMin dstMin) := ⟨hstd, hdst⟩

/-- A zone that stays as it is for a turn. -/
theorem events_tell_truth_steady :
    EventsTellTruth ([] ++ [steadyTick 1 1 (zoneSnapshot "Asia/Taipei" 480 0)])
      (zoneSnapshot "Asia/Taipei" 480 0) := by
  apply (events_tell_truth_iff [] (by simp) 1 1 _
    (zoneSnapshot_fits _ _ _ (by decide) (by decide))).mpr
  constructor
  · intro t ht
    obtain rfl := Option.some.inj ht
    rfl
  · intro t ht
    obtain rfl := Option.some.inj ht
    rfl

/-- A zone that changes between the decision and the event. -/
theorem overtaken_zone_stays :
    ¬∀ before current, (∀ t ∈ before, SnapshotFits t.zone) → SnapshotFits current →
      EventsTellTruth (before ++ [steadyTick 2 2 current]) current := by
  intro h
  have htruth := h [overtakenTick] (zoneSnapshot "Asia/Taipei" 480 0)
    (by simpa [overtakenTick] using zoneSnapshot_fits _ _ _ (by decide) (by decide))
    (zoneSnapshot_fits _ _ _ (by decide) (by decide))
  obtain ⟨m, hm, hva⟩ := htruth.1 ⟨overtakenTick, by simp, by decide⟩
  have hberlin : (((realtimeRun {} [] ([overtakenTick] ++
      [steadyTick 2 2 (zoneSnapshot "Asia/Taipei" 480 0)])).2.filter
        fun m => m.path = hesLxTimeLocaltzCv).getLast?.map fun m => vaRecords m.payload) =
      some [lit "va=60,60"] := by decide +kernel
  rw [hm, Option.map_some, hva, Option.some.injEq] at hberlin
  exact absurd hberlin (by decide)

end OpenHes.Analysis
