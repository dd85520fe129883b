import OpenHes.Analysis.RequestedData

/-!
# What `trim_payload` keeps of an answer

The scan joins the records whose names the list asks for, as long as there is room. Payloads
that fill the message with one record, and lists that end in a separator, are where it keeps
something else than what was asked for.
-/

set_option autoImplicit false

namespace OpenHes.Analysis

open OpenHes.Library OpenHes.Model

/-! ## What is asked for -/

/-- The name of a record: the text before the first '=', or all of it. -/
def recordName (record : CStr) : CStr := record.takeWhile fun c => c ≠ 61

/-- Does the list name the record? -/
def Named (list record : CStr) : Prop :=
  recordName record ≠ [] ∧ recordName record ∈ listItems list

instance (list record : CStr) : Decidable (Named list record) :=
  inferInstanceAs (Decidable (_ ∧ _))

/-- The records of a payload that a list names, in the payload's order. -/
def namedRecords (list payload : CStr) : List CStr :=
  (payload.splitOn 59).filter fun record => Named list record

/-- Does the trimmed message carry exactly the records that the list names, and does trimming
it again change nothing? -/
def TrimsExactly (m : HesClmeMsg) (list : CStr) : Prop :=
  (trimPayload m list).payload = joined 59 (namedRecords list m.payload) ∧
    trimPayload (trimPayload m list) list = trimPayload m list

/-! ## What is kept -/

/-- Does the scan of the list find the record's name? -/
def wanted (list record : CStr) : Bool := requested list (recordName record)

/-- One turn of the scan where there is room. -/
def keepRecord (list kept record : CStr) : CStr :=
  if wanted list record then
    if kept = [] then record else kept ++ 59 :: record
  else kept

/-- Is there room for what is left of the payload? -/
def HasRoom (kept p : CStr) : Prop :=
  kept.length + p.length + 1 < hesPayloadMax ∨
    (kept = [] ∧ p.length < hesPayloadMax ∧ (59 : UInt8) ∈ p)

/-- The records that the list asks for as the scan sees it, without the empty ones that come
first. -/
def keptRecords (list payload : CStr) : List CStr :=
  ((pieces 59 payload).filter (wanted list)).dropWhile fun record => record = []

variable {list : CStr}

/-- INTERNAL: the scan keeps or leaves its first record, and has room for the rest. -/
theorem trimScan_cons (fuel : ℕ) (record rest kept : CStr) (hnot : (59 : UInt8) ∉ record)
    (hroom : HasRoom kept (record ++ 59 :: rest)) :
    trimScan list (fuel + 1) (record ++ 59 :: rest) kept =
        trimScan list fuel rest (keepRecord list kept record) ∧
      HasRoom (keepRecord list kept record) rest := by
  have hsplit : splitAtByte 59 (record ++ 59 :: rest) = (record, some rest) :=
    splitAtByte_some 59 record rest fun c hc hcs => hnot (hcs ▸ hc)
  have hlen : kept.length + record.length + rest.length + 2 ≤ hesPayloadMax ∧
      (kept ≠ [] → kept.length + record.length + rest.length + 2 < hesPayloadMax) := by
    rcases hroom with hroom | ⟨hkept, hroom, -⟩
    · rw [List.length_append, List.length_cons] at hroom
      exact ⟨by omega, fun _ => by omega⟩
    · rw [List.length_append, List.length_cons] at hroom
      subst hkept
      exact ⟨by simp only [List.length_nil]; omega, fun hne => absurd rfl hne⟩
  constructor
  · rw [trimScan, if_neg (by simp), hsplit]
    have hfits : ¬hesPayloadMax < kept.length + record.length + 2 := by omega
    unfold keepRecord wanted recordName
    simp [hfits, lit]
  · left
    unfold keepRecord
    split
    · split
      next hkept =>
        subst hkept
        simp only [List.length_nil] at hlen
        omega
      next hkept =>
        rw [List.length_append, List.length_cons]
        have := hlen.2 hkept
        omega
    · omega

/-- INTERNAL: **the scan where there is room**: one turn for each piece of the payload. -/
theorem trimScan_eq (p kept : CStr) (fuel : ℕ) (hfuel : p.length < fuel)
    (hroom : HasRoom kept p) :
    trimScan list fuel p kept = (pieces 59 p).foldl (keepRecord list) kept ∧
      (trimScan list fuel p kept).length < hesPayloadMax := by
  induction p using pieces_induction 59 generalizing kept fuel with
  | nil =>
    obtain ⟨fuel, rfl⟩ : ∃ f, fuel = f + 1 := ⟨fuel - 1, by simp at hfuel; omega⟩
    have hlen : kept.length < hesPayloadMax := by
      rcases hroom with hroom | ⟨-, -, hmem⟩
      · omega
      · exact absurd hmem List.not_mem_nil
    rw [trimScan, if_pos rfl]
    exact ⟨rfl, hlen⟩
  | last record hne hnot =>
    obtain ⟨fuel, rfl⟩ : ∃ f, fuel = f + 1 := ⟨fuel - 1, by omega⟩
    have hlen : kept.length + record.length + 1 < hesPayloadMax := by
      rcases hroom with hroom | ⟨-, -, hmem⟩
      · exact hroom
      · exact absurd hmem hnot
    have hscan : trimScan list (fuel + 1) record kept = keepRecord list kept record := by
      rw [trimScan, if_neg hne, splitAtByte_none 59 record fun c hc hcs => hnot (hcs ▸ hc)]
      have hfits : ¬hesPayloadMax < kept.length + record.length + 2 := by omega
      unfold keepRecord wanted recordName
      simp [hfits, lit]
    rw [pieces_of_not_mem record hne hnot, hscan]
    refine ⟨rfl, ?_⟩
    unfold keepRecord
    split
    · split
      · omega
      · rw [List.length_append, List.length_cons]
        omega
    · omega
  | cons record rest hnot ih =>
    obtain ⟨fuel, rfl⟩ : ∃ f, fuel = f + 1 := ⟨fuel - 1, by omega⟩
    obtain ⟨hstep, hrest⟩ := @trimScan_cons list fuel record rest kept hnot hroom
    rw [hstep, pieces_append_sep record rest hnot, List.foldl_cons]
    apply ih _ fuel _ hrest
    rw [List.length_append, List.length_cons] at hfuel
    omega

/-- INTERNAL: a record that is wanted is added behind a ';', unless it is the first. -/
theorem keepRecord_wanted (kept record : CStr)
    (h : wanted list record = true) :
    keepRecord list kept record = if kept = [] then record else kept ++ 59 :: record :=
  if_pos h

/-- INTERNAL: any other is left. -/
theorem keepRecord_other (kept record : CStr)
    (h : ¬wanted list record = true) : keepRecord list kept record = kept :=
  if_neg h

/-- INTERNAL: the wanted records stand behind what was kept. -/
theorem foldl_keepRecord_append (ps : List CStr) (kept : CStr) (hkept : kept ≠ []) :
    ps.foldl (keepRecord list) kept =
      kept ++ (ps.filter (wanted list)).flatMap (59 :: ·) := by
  induction ps generalizing kept with
  | nil => simp
  | cons record ps ih =>
    rw [List.foldl_cons]
    by_cases hreq : wanted list record = true
    · rw [List.filter_cons_of_pos hreq, keepRecord_wanted kept record hreq, if_neg hkept,
        ih _ (by simp), List.flatMap_cons, List.append_assoc, List.cons_append]
    · rw [List.filter_cons_of_neg hreq, keepRecord_other kept record hreq]
      exact ih kept hkept

/-- INTERNAL: **the kept records are joined**; empty ones that come first leave nothing. -/
theorem foldl_keepRecord (ps : List CStr) :
    ps.foldl (keepRecord list) [] =
      joined 59 ((ps.filter (wanted list)).dropWhile fun record => record = []) := by
  induction ps with
  | nil => rfl
  | cons record ps ih =>
    rw [List.foldl_cons]
    by_cases hreq : wanted list record = true
    · rw [List.filter_cons_of_pos hreq, keepRecord_wanted [] record hreq, if_pos rfl]
      by_cases hnil : record = []
      · subst hnil
        rw [List.dropWhile_cons_of_pos (by simp)]
        exact ih
      · rw [List.dropWhile_cons_of_neg (by simpa using hnil), joined_cons]
        exact foldl_keepRecord_append ps record hnil
    · rw [List.filter_cons_of_neg hreq, keepRecord_other [] record hreq]
      exact ih

/-- Does one record fill the message? -/
def FillsMessage (payload : CStr) : Prop :=
  payload.length + 1 = hesPayloadMax ∧ (59 : UInt8) ∉ payload

instance (payload : CStr) : Decidable (FillsMessage payload) :=
  inferInstanceAs (Decidable (_ ∧ _))

/-- INTERNAL: there is room for a payload that does not fill the message. -/
theorem hasRoom_of_not_fills (payload : CStr) (hlen : payload.length < hesPayloadMax)
    (h : ¬FillsMessage payload) : HasRoom [] payload := by
  by_cases hmem : (59 : UInt8) ∈ payload
  · exact Or.inr ⟨rfl, hlen, hmem⟩
  · left
    have hne : payload.length + 1 ≠ hesPayloadMax := fun heq => h ⟨heq, hmem⟩
    rw [List.length_nil]
    omega

/-- INTERNAL: **a trimmed message** carries the kept records. -/
theorem trimPayload_payload (m : HesClmeMsg) (hlen : m.payload.length < hesPayloadMax)
    (h : ¬FillsMessage m.payload) :
    (trimPayload m list).payload = joined 59 (keptRecords list m.payload) := by
  obtain ⟨hscan, hfits⟩ := @trimScan_eq list m.payload [] (m.payload.length + 1)
    (Nat.lt_succ_self _) (hasRoom_of_not_fills m.payload hlen h)
  unfold keptRecords
  rw [← foldl_keepRecord, ← hscan]
  exact List.take_of_length_le (Nat.le_sub_one_of_lt hfits)

/-- INTERNAL: a record that fills the message is dropped. -/
theorem trimPayload_fills (m : HesClmeMsg) (h : FillsMessage m.payload) :
    (trimPayload m list).payload = [] := by
  obtain ⟨hlen, hnot⟩ := h
  have hne : m.payload ≠ [] := by
    intro hnil
    rw [hnil] at hlen
    exact absurd hlen (by decide)
  have hscan : trimScan list (m.payload.length + 1) m.payload [] = [] := by
    rw [trimScan, if_neg hne, splitAtByte_none 59 m.payload fun c hc hcs => hnot (hcs ▸ hc)]
    have hover : hesPayloadMax < m.payload.length + 2 := by omega
    simp only [List.length_nil, Nat.zero_add, hover, decide_true, Bool.and_true]
    split <;> simp_all
  unfold trimPayload hesMsgSetPayloadStr
  rw [hscan]
  rfl

/-! ## When that is what was asked for -/

/-- Are the records without a name empty, and before every record that the list names? -/
def NamelessFirst (list : CStr) (records : List CStr) : Prop :=
  ∀ before record after, records = before ++ record :: after → recordName record = [] →
    record = [] ∧ ∀ r ∈ before, ¬Named list r

/-- INTERNAL: where the list does not end in a separator the records of its names are wanted. -/
theorem wanted_named (record : CStr) (h : ¬EndsInSeparator list) :
    wanted list record = true ↔ Named list record := by
  rw [wanted, requested_iff]
  simp [h, Named]

/-- INTERNAL: where it does, so are records without a name. -/
theorem wanted_nameless (record : CStr) (h : EndsInSeparator list) :
    wanted list record = true ↔
      Named list record ∨ recordName record = [] := by
  rw [wanted, requested_iff]
  simp [h, Named]

/-- INTERNAL: a named record is not empty. -/
theorem named_ne_nil {record : CStr} (h : Named list record) : record ≠ [] := by
  rintro rfl
  exact h.1 rfl

/-- INTERNAL: what is asked of the records is asked of the first and of the rest. -/
theorem namelessFirst_cons (record : CStr) (records : List CStr) :
    NamelessFirst list (record :: records) ↔
      (recordName record = [] → record = []) ∧
        (Named list record → ∀ r ∈ records, recordName r ≠ []) ∧
          NamelessFirst list records := by
  constructor
  · intro h
    refine ⟨fun hname => (h [] record records rfl hname).1, fun hnamed r hr hname => ?_, ?_⟩
    · obtain ⟨before, after, rfl⟩ := List.append_of_mem hr
      exact (h (record :: before) r after rfl hname).2 record (by simp) hnamed
    · intro before r after heq hname
      obtain ⟨hnil, hbefore⟩ := h (record :: before) r after (by rw [heq]; rfl) hname
      exact ⟨hnil, fun q hq => hbefore q (by simp [hq])⟩
  · rintro ⟨hfirst, hnamed, hrest⟩ before r after heq hname
    cases before with
    | nil =>
      obtain ⟨rfl, -⟩ := List.cons.inj heq
      exact ⟨hfirst hname, fun q hq => absurd hq List.not_mem_nil⟩
    | cons first before =>
      obtain ⟨rfl, rfl⟩ := List.cons.inj heq
      obtain ⟨hnil, hbefore⟩ := hrest before r after rfl hname
      refine ⟨hnil, fun q hq => ?_⟩
      rcases List.mem_cons.mp hq with rfl | hq
      · exact fun hq => hnamed hq r (by simp) hname
      · exact hbefore q hq

/-- INTERNAL: only named records are wanted where there are no others. -/
theorem filter_wanted_iff (records : List CStr) (h : EndsInSeparator list) :
    records.filter (wanted list) = (records.filter fun record => Named list record) ↔
      ∀ r ∈ records, recordName r ≠ [] := by
  constructor
  · intro heq r hr hname
    have hmem : r ∈ records.filter (wanted list) :=
      List.mem_filter.mpr ⟨hr, (wanted_nameless r h).mpr (Or.inr hname)⟩
    rw [heq, List.mem_filter] at hmem
    exact (of_decide_eq_true hmem.2).1 hname
  · intro hnames
    apply List.filter_congr
    intro r hr
    rw [Bool.eq_iff_iff, wanted_nameless r h, decide_eq_true_eq]
    exact or_iff_left (hnames r hr)

/-- INTERNAL: **with a list that ends in a separator**, the scan keeps what was asked for
exactly when the records without a name leave nothing. -/
theorem kept_eq_named_iff (records : List CStr) (h : EndsInSeparator list) :
    ((records.filter (wanted list)).dropWhile fun record => record = []) = (records.filter fun record => Named list record) ↔
      NamelessFirst list records := by
  induction records with
  | nil =>
    refine ⟨fun _ before record after heq => ?_, fun _ => rfl⟩
    simp at heq
  | cons record records ih =>
    rw [namelessFirst_cons]
    by_cases hnamed : Named list record
    · have hreq := (wanted_nameless record h).mpr (Or.inl hnamed)
      have hname : recordName record ≠ [] := hnamed.1
      rw [List.filter_cons_of_pos hreq, List.filter_cons_of_pos (by simpa using hnamed),
        List.dropWhile_cons_of_neg (by simpa using named_ne_nil hnamed), List.cons.injEq,
        filter_wanted_iff records h]
      constructor
      · rintro ⟨-, hnames⟩
        refine ⟨fun hnil => absurd hnil hname, fun _ => hnames, fun b r a heq hnil => ?_⟩
        exact absurd hnil (hnames r (by rw [heq]; simp))
      · rintro ⟨-, hnames, -⟩
        exact ⟨rfl, hnames hnamed⟩
    · by_cases hname : recordName record = []
      · have hreq := (wanted_nameless record h).mpr (Or.inr hname)
        rw [List.filter_cons_of_pos hreq, List.filter_cons_of_neg (by simpa using hnamed)]
        by_cases hnil : record = []
        · rw [List.dropWhile_cons_of_pos (by simpa using hnil), ih]
          simp only [hnil, implies_true, true_and]
          exact ⟨fun hrest => ⟨fun hn => absurd (hnil ▸ hn) hnamed, hrest⟩, fun hrest => hrest.2⟩
        · rw [List.dropWhile_cons_of_neg (by simpa using hnil)]
          constructor
          · intro heq
            have hmem : record ∈ records.filter fun record => Named list record :=
              heq ▸ List.mem_cons_self
            exact absurd (of_decide_eq_true (List.mem_filter.mp hmem).2) hnamed
          · rintro ⟨hempty, -, -⟩
            exact absurd (hempty hname) hnil
      · have hreq : ¬wanted list record = true := by
          rw [wanted_nameless record h]
          tauto
        rw [List.filter_cons_of_neg hreq, List.filter_cons_of_neg (by simpa using hnamed), ih]
        simp [hname, hnamed]

/-! ## Trimming -/

/-- The payload is no single named record that fills the message, and where the list ends in a
separator the records without a name leave nothing. -/
def TrimCondition (list payload : CStr) : Prop :=
  (FillsMessage payload → ¬Named list payload) ∧
    (¬FillsMessage payload → EndsInSeparator list → NamelessFirst list (pieces 59 payload))

/-- INTERNAL: the named records are those among the pieces. -/
theorem namedRecords_eq (list payload : CStr) :
    namedRecords list payload = (pieces 59 payload).filter fun record => Named list record :=
  filter_splitOn _ (decide_eq_false fun h => named_ne_nil h rfl) payload

/-- INTERNAL: each is a piece with a name of the list. -/
theorem mem_namedRecords {list payload record : CStr} (h : record ∈ namedRecords list payload) :
    record ∈ pieces 59 payload ∧ Named list record := by
  rw [namedRecords_eq, List.mem_filter] at h
  exact ⟨h.1, of_decide_eq_true h.2⟩

/-- INTERNAL: nothing is dropped where the first record is not empty. -/
theorem dropWhile_of_head_ne (records : List CStr) (h : records.head? ≠ some []) :
    (records.dropWhile fun record => record = []) = records := by
  cases records with
  | nil => rfl
  | cons record records =>
    have hne : record ≠ [] := fun hnil => h (by rw [hnil]; rfl)
    simp [hne]

/-- INTERNAL: the first named record is not empty. -/
theorem head_namedRecords (list payload : CStr) : (namedRecords list payload).head? ≠ some [] := by
  intro h
  exact named_ne_nil (mem_namedRecords (List.mem_of_head? h)).2 rfl

/-- INTERNAL: the records that are kept are the named ones exactly under the condition. -/
theorem keptRecords_eq_iff (list payload : CStr) (h : ¬FillsMessage payload) :
    keptRecords list payload = namedRecords list payload ↔ TrimCondition list payload := by
  rw [namedRecords_eq]
  by_cases hend : EndsInSeparator list
  · rw [keptRecords, kept_eq_named_iff _ hend]
    simp [TrimCondition, h, hend]
  · have hfilter : (pieces 59 payload).filter (wanted list) =
        (pieces 59 payload).filter fun record => Named list record := by
      apply List.filter_congr
      intro record _
      rw [Bool.eq_iff_iff, wanted_named record hend, decide_eq_true_eq]
    have hdrop := dropWhile_of_head_ne _ (namedRecords_eq list payload ▸
      head_namedRecords list payload)
    rw [keptRecords, hfilter, hdrop]
    simp [TrimCondition, h, hend]

/-- INTERNAL: what is left is the named records under the condition only. -/
theorem trimPayload_payload_iff (m : HesClmeMsg) (hlen : m.payload.length < hesPayloadMax)
    (h : ¬FillsMessage m.payload) :
    (trimPayload m list).payload = joined 59 (namedRecords list m.payload) ↔
      TrimCondition list m.payload := by
  rw [← keptRecords_eq_iff list m.payload h, trimPayload_payload m hlen h]
  constructor
  · apply joined_inj
    · intro record hr
      exact mem_pieces_not_mem _ _ (List.mem_of_mem_filter ((List.dropWhile_sublist _).mem hr))
    · exact fun record hr => mem_pieces_not_mem _ _ (mem_namedRecords hr).1
    · intro hhead
      have hnot := List.head?_dropWhile_not (fun record => decide (record = []))
        ((pieces 59 m.payload).filter (wanted list))
      rw [keptRecords] at hhead
      rw [hhead] at hnot
      simp at hnot
    · exact head_namedRecords list m.payload
  · intro heq
    rw [heq]

/-- INTERNAL: a payload that trimming keeps is kept once more. -/
theorem trimPayload_again (m : HesClmeMsg)
    (h : (trimPayload (trimPayload m list) list).payload = (trimPayload m list).payload) :
    trimPayload (trimPayload m list) list = trimPayload m list := by
  have hset : ∀ n : HesClmeMsg, trimPayload n list =
      { n with
        payload := (trimPayload n list).payload
        payloadLen := (trimPayload n list).payload.length } := fun n => rfl
  rw [hset (trimPayload m list), h]
  exact (hset m).symm

/-- INTERNAL: what is left fits the message. -/
theorem length_trimPayload (m : HesClmeMsg) :
    (trimPayload m list).payload.length < hesPayloadMax := by
  have : (trimPayload m list).payload.length ≤ hesPayloadMax - 1 := List.length_take_le _ _
  have hpos : 0 < hesPayloadMax := by decide
  omega

/-- INTERNAL: joined named records do not fill the message where the payload does not. -/
theorem not_fills_joined (list payload : CStr) (hlen : payload.length < hesPayloadMax)
    (h : ¬FillsMessage payload) : ¬FillsMessage (joined 59 (namedRecords list payload)) := by
  rintro ⟨hfull, hnot⟩
  cases hrecords : namedRecords list payload with
  | nil =>
    rw [hrecords] at hfull
    exact absurd hfull (by decide)
  | cons record more =>
    have hmem := (mem_namedRecords (hrecords ▸ List.mem_cons_self)).1
    cases more with
    | nil =>
      rw [hrecords, joined_singleton] at hfull
      obtain ⟨hle, hlt⟩ := length_of_mem_pieces payload record hmem
      exact h ⟨by omega, fun hsep => by have := hlt hsep; omega⟩
    | cons next more =>
      rw [hrecords, joined_cons_cons] at hnot
      exact hnot (by simp)

/-- INTERNAL: what was asked for is kept by the list that asked for it. -/
theorem keptRecords_joined (list payload : CStr) :
    keptRecords list (joined 59 (namedRecords list payload)) = namedRecords list payload := by
  have hpieces : pieces 59 (joined 59 (namedRecords list payload)) = namedRecords list payload :=
    pieces_joined _ (fun record hr => named_ne_nil (mem_namedRecords hr).2)
      fun record hr => mem_pieces_not_mem _ _ (mem_namedRecords hr).1
  have hall : (namedRecords list payload).filter (wanted list) = namedRecords list payload := by
    rw [List.filter_eq_self]
    intro record hr
    rw [wanted, requested_iff]
    exact Or.inl (mem_namedRecords hr).2
  rw [keptRecords, hpieces, hall, dropWhile_of_head_ne _ (head_namedRecords list payload)]

/-- **What `trim_payload` keeps.** It keeps exactly the records that the list names, and
trimming again changes nothing, exactly under the condition.
SRCLINE: hes_dispatch.c:184-225 -/
theorem trims_exactly_iff (m : HesClmeMsg) (list : CStr)
    (hlen : m.payload.length < hesPayloadMax) :
    TrimsExactly m list ↔ TrimCondition list m.payload := by
  by_cases hfills : FillsMessage m.payload
  · have hempty := @trimPayload_fills list m hfills
    have hagain : trimPayload (trimPayload m list) list = trimPayload m list := by
      apply trimPayload_again
      rw [trimPayload_payload _ (length_trimPayload m), hempty]
      · rfl
      · rw [hempty]
        decide
    have hrecords : namedRecords list m.payload = [m.payload].filter fun r => Named list r := by
      rw [namedRecords, List.splitOn_eq_singleton hfills.2]
    rw [TrimsExactly, hempty, hrecords]
    have hne : m.payload ≠ [] := by
      intro hnil
      have hfull := hfills.1
      rw [hnil] at hfull
      exact absurd hfull (by decide)
    by_cases hnamed : Named list m.payload
    · simp [TrimCondition, hfills, hnamed, hne, eq_comm]
    · simp [TrimCondition, hfills, hnamed, hagain]
  · constructor
    · intro h
      exact (trimPayload_payload_iff m hlen hfills).mp h.1
    · intro hcond
      have hpayload := (trimPayload_payload_iff m hlen hfills).mpr hcond
      refine ⟨hpayload, trimPayload_again m ?_⟩
      rw [trimPayload_payload _ (length_trimPayload m), hpayload, keptRecords_joined]
      rw [hpayload]
      exact not_fills_joined list m.payload hlen hfills

/-- A list with a comma at its end. -/
def openList : CStr := lit "va,"

/-- An answer with an empty record behind a named one. -/
def gappedAnswer : HesClmeMsg := { payload := lit "va=1;;ne=2", payloadLen := 10 }

/-- An answer with a gap between its records. -/
theorem trims_exactly_plain : TrimsExactly gappedAnswer (lit "ne, va") :=
  (trims_exactly_iff gappedAnswer (lit "ne, va") (by decide)).mpr
    ⟨fun h => absurd h (by decide), fun _ h => absurd h (by decide)⟩

/-- A list that ends in a comma keeps a record without a name. -/
theorem open_list_keeps_more : ¬∀ (m : HesClmeMsg) (list : CStr),
    m.payload.length < hesPayloadMax → TrimsExactly m list := by
  intro h
  have hboth := (h gappedAnswer openList (by decide)).1
  exact absurd hboth (by decide +kernel)

end OpenHes.Analysis
