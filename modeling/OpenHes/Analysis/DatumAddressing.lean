import OpenHes.Analysis.PayloadTrimming
import OpenHes.Model.BindingMap

/-!
# Reading a datum from a trimmed answer

`bm_datum_value` looks for the first record with the name, and takes a payload in which no
record has a '=' for the value itself. An answer that was trimmed to a 'da' list has lost the
records that told it for a table, unless one of those that are left has a '='.
-/

set_option autoImplicit false

namespace OpenHes.Analysis

open OpenHes.Library OpenHes.Model
open CDouble (zero)
open Binary64 (atof atof_append_stop)

/-! ## What `bm_datum_value` reads -/

/-- Is the record `name=...`? -/
def holdsDatum (want record : CStr) : Bool := record.contains 61 && recordName record = want

/-- The value that the records of a payload give. -/
def readRecords (records : List CStr) (payload want : CStr) (structured : Bool) : Binary64 :=
  match records.find? (holdsDatum want) with
  | some record => atof (record.drop (want.length + 1))
  | none => if structured || records.any (·.contains 61) then zero else atof payload

variable {want : CStr}

/-- INTERNAL: the name of a record is what stands before its '='. -/
theorem recordName_append (name value : CStr) (h : (61 : UInt8) ∉ name) :
    recordName (name ++ 61 :: value) = name := by
  have hall : ∀ c ∈ name, decide (c ≠ 61) = true := fun c hc =>
    decide_eq_true fun h61 => h (h61 ▸ hc)
  exact (takeWhile_of_stop (fun c => c ≠ 61) name (61 :: value) hall (by simp)).1

/-- INTERNAL: a record holds the datum of its name. -/
theorem holdsDatum_append (name value : CStr) (h : (61 : UInt8) ∉ name) :
    holdsDatum want (name ++ 61 :: value) = decide (name = want) := by
  unfold holdsDatum
  rw [recordName_append name value h]
  simp

/-- INTERNAL: **one turn of the scan.** What follows the record does not change the number. -/
theorem datumScan_turn (payload p record tail : CStr) (rest : Option CStr) (fuel : ℕ)
    (structured : Bool) (hwant : want ≠ []) (hne : p ≠ [])
    (hsplit : splitAtByte 59 p = (record, rest)) (hp : p = record ++ tail)
    (htail : tail = [] ∨ ∃ t, tail = 59 :: t) (h59 : (59 : UInt8) ∉ record) :
    (datumScan payload want (fuel + 1) p structured : Binary64) =
      if holdsDatum want record then atof (record.drop (want.length + 1))
      else rest.elim (if structured || record.contains 61 then zero else atof payload)
        fun p' => datumScan payload want fuel p' (structured || record.contains 61) := by
  rw [datumScan, if_neg hne, hsplit]
  dsimp only
  rcases splitAtByte_cases 61 record with ⟨hname, h61⟩ | ⟨name, value, hname, h61, hrecord⟩
  · rw [hname]
    have hcontains : record.contains 61 = false := by simpa using h61
    have hholds : holdsDatum want record = false := by
      unfold holdsDatum
      rw [hcontains, Bool.false_and]
    rw [hholds, hcontains, Bool.or_false]
    cases rest <;> rfl
  · subst hrecord
    rw [hname, holdsDatum_append name value h61]
    have hvalue : (name ++ 61 :: value).drop (name.length + 1) = value := by
      rw [← List.drop_drop, List.drop_left]
      rfl
    have hnumber : atof (p.drop (name.length + 1)) = atof value := by
      have hlen : name.length + 1 ≤ (name ++ 61 :: value).length := by
        rw [List.length_append, List.length_cons]
        omega
      rw [hp, List.drop_append_of_le_length hlen, hvalue]
      rcases htail with rfl | ⟨t, rfl⟩
      · rw [List.append_nil]
      · exact atof_append_stop value t fun hmem => h59 (by simp [hmem])
    by_cases hw : name = want
    · subst hw
      simp only [hwant, ne_eq, not_false_eq_true, decide_true, Bool.and_true, if_true, hvalue]
      exact hnumber
    · simp only [hw, decide_false, Bool.and_false, Bool.false_eq_true, if_false]
      cases rest <;> simp

/-- INTERNAL: the scan reads the records of the payload one by one. -/
theorem datumScan_eq (payload p : CStr) (fuel : ℕ) (structured : Bool) (hwant : want ≠ [])
    (hfuel : p.length < fuel) :
    (datumScan payload want fuel p structured : Binary64) =
      readRecords (pieces 59 p) payload want structured := by
  induction p using pieces_induction 59 generalizing fuel structured with
  | nil =>
    cases fuel with
    | zero => omega
    | succ fuel =>
      simp [datumScan, readRecords]
      rfl
  | last record hne hnot =>
    obtain ⟨fuel, rfl⟩ : ∃ f, fuel = f + 1 := ⟨fuel - 1, by omega⟩
    have hsplit := splitAtByte_none 59 record fun c hc hcs => hnot (hcs ▸ hc)
    rw [datumScan_turn payload record record [] none fuel structured hwant hne hsplit
      (List.append_nil record).symm (Or.inl rfl) hnot, pieces_of_not_mem record hne hnot]
    unfold readRecords
    cases h : holdsDatum want record <;> simp [h]
  | cons record rest hnot ih =>
    obtain ⟨fuel, rfl⟩ : ∃ f, fuel = f + 1 := ⟨fuel - 1, by omega⟩
    have hsplit := splitAtByte_some 59 record rest fun c hc hcs => hnot (hcs ▸ hc)
    have hrest : rest.length < fuel := by
      rw [List.length_append, List.length_cons] at hfuel
      omega
    rw [datumScan_turn payload (record ++ 59 :: rest) record (59 :: rest) (some rest) fuel
      structured hwant (by simp) hsplit rfl (Or.inr ⟨rest, rfl⟩) hnot,
      pieces_append_sep record rest hnot, Option.elim_some, ih fuel _ hrest]
    unfold readRecords
    rw [List.find?_cons]
    cases h : holdsDatum want record with
    | true => rfl
    | false => simp [Bool.or_assoc]

/-- INTERNAL: **what `bm_datum_value` reads**, from the records of the payload. -/
theorem bmDatumValue_eq (payload : CStr) (hwant : want ≠ []) :
    (bmDatumValue payload want : Binary64) =
      readRecords (payload.splitOn 59) payload want false := by
  have hpieces : (bmDatumValue payload want : Binary64) =
      readRecords (pieces 59 payload) payload want false :=
    datumScan_eq payload payload _ false hwant (Nat.lt_succ_self _)
  rw [hpieces, readRecords, readRecords, find?_splitOn _ rfl]
  rcases splitOn_eq_pieces 59 payload with h | h
  · rw [h]
  · rw [h, List.any_append]
    simp

/-! ## After trimming -/

/-- One value, or two zeros. -/
def SameDouble (a b : Binary64) : Prop := a = b ∨ Binary64.eq a b = true

/-- The first record, empty ones apart, that the list asks for. -/
def firstWanted (list payload : CStr) : Option CStr :=
  (payload.splitOn 59).find? fun record => record ≠ [] && wanted list record

/-- The list asks for a record with a '=', or the first one that it asks for is no number but
zero. -/
def StaysReadable (list payload : CStr) : Prop :=
  (∃ record ∈ payload.splitOn 59, wanted list record = true ∧ (61 : UInt8) ∈ record) ∨
    ∀ record ∈ firstWanted list payload, Binary64.eq (atof record) zero = true

/-- INTERNAL: the kept records are read as the joined text. -/
theorem bmDatumValue_joined (records : List CStr) (hwant : want ≠ [])
    (hsep : ∀ record ∈ records, (59 : UInt8) ∉ record) :
    (bmDatumValue (joined 59 records) want : Binary64) =
      readRecords records (joined 59 records) want false := by
  rw [bmDatumValue_eq _ hwant]
  by_cases hnil : records = []
  · subst hnil
    rfl
  · rw [joined, List.splitOn_intercalate 59 hsep hnil]

/-- INTERNAL: a number is read in front of the next record. -/
theorem atof_joined (record : CStr) (more : List CStr) (hsep : (59 : UInt8) ∉ record) :
    atof (joined 59 (record :: more)) = atof record := by
  rw [joined_cons]
  cases more with
  | nil => rw [List.flatMap_nil, List.append_nil]
  | cons next more => exact atof_append_stop record _ hsep

/-- INTERNAL: empty records in front make no difference to a search that refuses them. -/
theorem find?_dropWhile_empty (q : CStr → Bool) (hq : q [] = false) (records : List CStr) :
    (records.dropWhile fun record => record = []).find? q = records.find? q := by
  induction records with
  | nil => rfl
  | cons record records ih =>
    by_cases hnil : record = []
    · subst hnil
      rw [List.dropWhile_cons_of_pos (by simp), ih, List.find?_cons_of_neg (by simp [hq])]
    · rw [List.dropWhile_cons_of_neg (by simpa using hnil)]

/-- INTERNAL: what is found among the kept records is the first that is wanted and fits. -/
theorem find?_keptRecords (list payload : CStr) (q : CStr → Bool) (hq : q [] = false) :
    (keptRecords list payload).find? q =
      (payload.splitOn 59).find? fun record => wanted list record && q record := by
  have hnil : (wanted list [] && q []) = false := by rw [hq, Bool.and_false]
  rw [keptRecords, find?_dropWhile_empty q hq, List.find?_filter,
    find?_splitOn (fun record => wanted list record && q record) hnil]
  congr 1
  funext record
  rw [Bool.decide_and, Bool.decide_eq_true, Bool.decide_eq_true]

/-- INTERNAL: there is one if one is found. -/
theorem any_eq_find? (q : CStr → Bool) (records : List CStr) :
    records.any q = (records.find? q).isSome := by
  rw [Bool.eq_iff_iff, List.any_eq_true, List.find?_isSome]

/-- INTERNAL: the first record that is kept is the first that is wanted. -/
theorem head_keptRecords (list payload : CStr) :
    (keptRecords list payload).head? = firstWanted list payload := by
  have hfirst : (keptRecords list payload).find? (fun record => decide (record ≠ [])) =
      firstWanted list payload := by
    rw [find?_keptRecords list payload _ (by simp), firstWanted]
    congr 1
    funext record
    rw [Bool.and_comm]
  rw [← hfirst]
  cases hkept : keptRecords list payload with
  | nil => rfl
  | cons record more =>
    have hnot := List.head?_dropWhile_not (fun record => decide (record = []))
      ((pieces 59 payload).filter (wanted list))
    rw [keptRecords] at hkept
    rw [hkept] at hnot
    have hne : record ≠ [] := by simpa using hnot
    rw [List.head?_cons, List.find?_cons_of_pos (by simpa using hne)]

/-- INTERNAL: a record of the datum is wanted by a list that names it. -/
theorem wanted_of_holdsDatum (list record : CStr) (hwant : want ≠ [])
    (hnamed : want ∈ listItems list) (h : holdsDatum want record = true) :
    wanted list record = true := by
  simp only [holdsDatum, Bool.and_eq_true, decide_eq_true_eq] at h
  rw [wanted, h.2, requested_iff]
  exact Or.inl ⟨hwant, hnamed⟩

/-- INTERNAL: trimming to a list that names the datum keeps the record that is read. -/
theorem find?_holdsDatum_keptRecords (list payload : CStr) (hwant : want ≠ [])
    (hnamed : want ∈ listItems list) :
    (keptRecords list payload).find? (holdsDatum want) =
      (payload.splitOn 59).find? (holdsDatum want) := by
  have hempty : holdsDatum want [] = false := rfl
  rw [find?_keptRecords list payload _ hempty]
  congr 1
  funext record
  rw [Bool.eq_iff_iff, Bool.and_eq_true]
  exact ⟨fun h => h.2, fun h => ⟨wanted_of_holdsDatum list record hwant hnamed h, h⟩⟩

/-- INTERNAL: a kept record has a '=' if a wanted one has. -/
theorem any_keptRecords (list payload : CStr) :
    (keptRecords list payload).any (·.contains 61) = true ↔
      ∃ record ∈ payload.splitOn 59, wanted list record = true ∧ (61 : UInt8) ∈ record := by
  rw [any_eq_find?, find?_keptRecords list payload _ rfl, List.find?_isSome]
  simp

/-- **Datum addressing and the binding map's reader.** A payload of at most 510 characters with
a record that has a '=', trimmed to a list that names the datum, reads as the payload does
exactly when the list asks for a record with a '=' or for no record that is a number first.
SRCLINE: bm.c:952-990, hes_dispatch.c:145-225 -/
theorem trimmed_reads_alike_iff (m : HesClmeMsg) (list : CStr)
    (hlen : m.payload.length + 2 ≤ hesPayloadMax)
    (htable : ∃ record ∈ m.payload.splitOn 59, (61 : UInt8) ∈ record)
    (hva : lit "va" ∈ listItems list) :
    SameDouble (bmDatumValue (trimPayload m list).payload (lit "va"))
        (bmDatumValue m.payload (lit "va")) ↔
      StaysReadable list m.payload := by
  have hwant : lit "va" ≠ [] := by decide
  have hfills : ¬FillsMessage m.payload := fun h => by
    have := h.1
    omega
  have hsep : ∀ record ∈ keptRecords list m.payload, (59 : UInt8) ∉ record := fun record hr =>
    mem_pieces_not_mem _ _ (List.mem_of_mem_filter ((List.dropWhile_sublist _).mem hr))
  have hany := any_keptRecords list m.payload
  have hstructured : (m.payload.splitOn 59).any (·.contains 61) = true := by
    rw [List.any_eq_true]
    simpa using htable
  rw [trimPayload_payload m (by omega) hfills, bmDatumValue_joined _ hwant hsep,
    bmDatumValue_eq m.payload hwant, readRecords, readRecords,
    find?_holdsDatum_keptRecords list m.payload hwant hva]
  cases hdatum : (m.payload.splitOn 59).find? (holdsDatum (lit "va")) with
  | some record =>
    have hholds := List.find?_some hdatum
    refine iff_of_true (Or.inl rfl) (Or.inl ⟨record, List.mem_of_find?_eq_some hdatum,
      wanted_of_holdsDatum list record hwant hva hholds, ?_⟩)
    simp only [holdsDatum, Bool.and_eq_true, List.contains_eq_mem, decide_eq_true_eq] at hholds
    exact hholds.1
  | none =>
    simp only [hstructured, Bool.false_or, if_true]
    by_cases heq : (keptRecords list m.payload).any (·.contains 61) = true
    · rw [if_pos heq]
      exact iff_of_true (Or.inl rfl) (Or.inl (hany.mp heq))
    · rw [if_neg heq]
      unfold StaysReadable
      rw [← hany, ← head_keptRecords, or_iff_right heq]
      cases hkept : keptRecords list m.payload with
      | nil =>
        refine iff_of_true (Or.inl rfl) fun record hr => ?_
        cases hr
      | cons record more =>
        rw [atof_joined record more (hsep record (by rw [hkept]; simp))]
        simp only [List.head?_cons, Option.mem_def, Option.some.injEq, forall_eq']
        refine ⟨fun h => h.elim (fun hzero => ?_) id, Or.inr⟩
        rw [hzero]
        rfl

/-- A table with a record that has no '='. -/
def numberedAnswer : HesClmeMsg := { payload := lit "12;ne=1", payloadLen := 7 }

/-- An answer that is trimmed to the value and a label is read alike. -/
theorem trimmed_reads_alike_va :
    SameDouble (bmDatumValue (trimPayload numberedAnswer (lit "va,ne")).payload (lit "va"))
      (bmDatumValue numberedAnswer.payload (lit "va")) :=
  (trimmed_reads_alike_iff numberedAnswer (lit "va,ne") (by decide)
    ⟨lit "ne=1", by decide +kernel, by decide⟩ (by decide +kernel)).mpr
    (Or.inl ⟨lit "ne=1", by decide +kernel, by decide +kernel, by decide⟩)

/-- An answer that starts with a bare number is read for it, and trimmed for its value. -/
theorem number_named_read : ¬∀ (m : HesClmeMsg) (list : CStr),
    m.payload.length + 2 ≤ hesPayloadMax →
      (∃ record ∈ m.payload.splitOn 59, (61 : UInt8) ∈ record) → lit "va" ∈ listItems list →
        SameDouble (bmDatumValue (trimPayload m list).payload (lit "va"))
          (bmDatumValue m.payload (lit "va")) := by
  intro h
  have hsame := h numberedAnswer (lit "va,12") (by decide)
    ⟨lit "ne=1", by decide +kernel, by decide⟩ (by decide +kernel)
  revert hsame
  unfold SameDouble
  decide +kernel

end OpenHes.Analysis
