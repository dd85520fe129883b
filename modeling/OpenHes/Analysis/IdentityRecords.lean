import OpenHes.Analysis.LexiconRouting
import OpenHes.Analysis.DatumAddressing
import OpenHes.Analysis.IdentityKey
import OpenHes.Library.Decimal
import OpenHes.Model.Identity

/-!
# The records of the identity

The values of the identification service are printed into one line of records, which the router
cuts again at every separator. A value that contains a separator is cut with them, and what is
behind it is taken for a record of the line.
-/

set_option autoImplicit false

namespace OpenHes.Analysis

open OpenHes.Library OpenHes.Model

/-! ## Records of any values -/

/-- The record of a transCode and its value. -/
def fieldRecord (field : CStr × CStr) : CStr := field.1 ++ 61 :: field.2

/-- What a value carries behind its first separator, taken for records. -/
def embedded (value : CStr) : List CStr := (value.splitOn 59).tail

/-- Is the record named `code`? -/
def recordIs (code record : CStr) : Bool := recordName record = code

/-- INTERNAL: a value without ';' embeds no record. -/
theorem embedded_of_not_mem (value : CStr) (h : (59 : UInt8) ∉ value) : embedded value = [] := by
  unfold embedded
  rw [List.splitOn_eq_singleton h]
  rfl

/-- INTERNAL: a record is cut into its own head and what its value carries. -/
theorem fieldRecord_splitOn (code value : CStr) (hcode : (59 : UInt8) ∉ code) :
    ∃ head, (fieldRecord (code, value)).splitOn 59 = (code ++ 61 :: head) :: embedded value ∧
      (head = value ↔ (59 : UInt8) ∉ value) := by
  have hfront : ∀ head, (59 : UInt8) ∉ head → (59 : UInt8) ∉ code ++ 61 :: head := by
    intro head hhead
    simp [hcode, hhead]
  by_cases hmem : (59 : UInt8) ∈ value
  · obtain ⟨head, rest, rfl, hnot⟩ := List.eq_append_cons_of_mem hmem
    refine ⟨head, ?_, ?_⟩
    · unfold fieldRecord embedded
      dsimp only
      rw [← List.cons_append, ← List.append_assoc,
        List.splitOn_append_cons_self_of_not_mem (hfront head hnot),
        List.splitOn_append_cons_self_of_not_mem hnot, List.tail_cons]
    · constructor
      · intro heq
        have hlen := congrArg List.length heq
        rw [List.length_append, List.length_cons] at hlen
        omega
      · exact fun hnone => absurd hmem hnone
  · refine ⟨value, ?_, by simp [hmem]⟩
    rw [embedded_of_not_mem value hmem]
    exact List.splitOn_eq_singleton (hfront value hmem)

/-- Codes that name records: not empty, all different, without '=' and ';'. -/
structure RecordCodes (fields : List (CStr × CStr)) : Prop where
  nodup : (fields.map Prod.fst).Nodup
  plain : ∀ field ∈ fields, field.1 ≠ [] ∧ (61 : UInt8) ∉ field.1 ∧ (59 : UInt8) ∉ field.1

/-- INTERNAL: the codes of fewer fields are different, too. -/
theorem RecordCodes.tail {field : CStr × CStr} {fields : List (CStr × CStr)}
    (h : RecordCodes (field :: fields)) : RecordCodes fields where
  nodup := (List.nodup_cons.mp h.nodup).2
  plain f hf := h.plain f (List.mem_cons_of_mem _ hf)

/-- The records named `code` that the fields' values carry. -/
def forged (code : CStr) (fields : List (CStr × CStr)) : List CStr :=
  fields.flatMap fun field => (embedded field.2).filter (recordIs code)

/-- INTERNAL: fields of other codes give only what their values carry. -/
theorem filter_others (code : CStr) (fields : List (CStr × CStr)) (h : RecordCodes fields)
    (hnot : code ∉ fields.map Prod.fst) :
    ((fields.map fieldRecord).flatMap fun record => record.splitOn 59).filter (recordIs code) =
      forged code fields := by
  induction fields with
  | nil => rfl
  | cons field fields ih =>
    rw [List.map_cons, List.mem_cons, not_or] at hnot
    obtain ⟨-, hequal, hsep⟩ := h.plain field List.mem_cons_self
    obtain ⟨head, hcut, -⟩ := fieldRecord_splitOn field.1 field.2 hsep
    have hother : ¬recordIs code (field.1 ++ 61 :: head) = true := by
      unfold recordIs
      rw [recordName_append _ _ hequal, decide_eq_true_eq]
      exact fun heq => hnot.1 heq.symm
    rw [List.map_cons, List.flatMap_cons, List.filter_append, hcut, List.filter_cons_of_neg hother,
      ih h.tail hnot.2]
    rfl

/-- INTERNAL: **the records named `code`** in the line are the field's own one, when its value
has no separator, and those that values carry. -/
theorem filter_fields_iff (fields : List (CStr × CStr)) (h : RecordCodes fields)
    (field : CStr × CStr) (hmem : field ∈ fields) :
    ((fields.map fieldRecord).flatMap fun record => record.splitOn 59).filter
        (recordIs field.1) = [fieldRecord field] ↔
      (59 : UInt8) ∉ field.2 ∧ forged field.1 fields = [] := by
  obtain ⟨before, after, rfl⟩ := List.append_of_mem hmem
  have hnodup := h.nodup
  rw [List.map_append, List.map_cons, List.nodup_append] at hnodup
  obtain ⟨hbefore, hafter, hdisjoint⟩ := hnodup
  have hnotBefore : field.1 ∉ before.map Prod.fst := fun hin =>
    hdisjoint _ hin _ List.mem_cons_self rfl
  have hnotAfter := (List.nodup_cons.mp hafter).1
  have hcodesBefore : RecordCodes before :=
    ⟨hbefore, fun f hf => h.plain f (List.mem_append_left _ hf)⟩
  have hcodesAfter : RecordCodes after :=
    ⟨(List.nodup_cons.mp hafter).2, fun f hf => h.plain f (by simp [hf])⟩
  obtain ⟨-, hequal, hsep⟩ := h.plain field hmem
  obtain ⟨head, hcut, hhead⟩ := fieldRecord_splitOn field.1 field.2 hsep
  have hown : recordIs field.1 (field.1 ++ 61 :: head) = true := by
    unfold recordIs
    rw [recordName_append _ _ hequal, decide_eq_true_eq]
  have hforged : forged field.1 (before ++ field :: after) = forged field.1 before ++
      ((embedded field.2).filter (recordIs field.1) ++ forged field.1 after) := by
    simp [forged]
  rw [List.map_append, List.map_cons, List.flatMap_append, List.flatMap_cons, List.filter_append,
    List.filter_append, hcut, List.filter_cons_of_pos hown,
    filter_others _ before hcodesBefore hnotBefore, filter_others _ after hcodesAfter hnotAfter,
    hforged, ← hhead]
  generalize forged field.1 before = front
  generalize (embedded field.2).filter (recordIs field.1) = own
  generalize forged field.1 after = back
  cases front with
  | nil => simp [fieldRecord]
  | cons record front => simp

/-- INTERNAL: a field that is listed has its record. -/
theorem filter_fields_ne_nil (fields : List (CStr × CStr)) (h : RecordCodes fields)
    (field : CStr × CStr) (hmem : field ∈ fields) :
    ((fields.map fieldRecord).flatMap fun record => record.splitOn 59).filter
      (recordIs field.1) ≠ [] := by
  obtain ⟨-, hequal, hsep⟩ := h.plain field hmem
  obtain ⟨head, hcut, -⟩ := fieldRecord_splitOn field.1 field.2 hsep
  have hown : recordIs field.1 (field.1 ++ 61 :: head) = true := by
    unfold recordIs
    rw [recordName_append _ _ hequal, decide_eq_true_eq]
  apply List.ne_nil_of_mem
  refine List.mem_filter.mpr ⟨List.mem_flatMap.mpr ⟨_, List.mem_map_of_mem hmem, ?_⟩, hown⟩
  rw [hcut]
  exact List.mem_cons_self

/-! ## The answer of the values' address -/

/-- The transCodes of the answer with their values. -/
def statusFields (st : IdServiceState) (inv : IdInventory) : List (CStr × CStr) :=
  [(lit "pi", st.uniquePublicId), (lit "vr", st.hesClmeVer), (lit "hs", st.hesSystemNumber),
    (lit "ch", st.gatewayClass), (lit "pd", st.publicDescription), (lit "nh", fmtD inv.hansNumber),
    (lit "nw", fmtD inv.wansNumber), (lit "ns", fmtD inv.serviceModulesNumber),
    (lit "vl", fmtD st.vulnerability), (lit "il", fmtD st.adverseImpact),
    (lit "ll", fmtD st.likelihood), (lit "rl", fmtD st.riskLevel)]

/-- The transCodes of the answer. -/
def statusCodes : List CStr :=
  [lit "pi", lit "vr", lit "hs", lit "ch", lit "pd", lit "nh", lit "nw", lit "ns", lit "vl",
    lit "il", lit "ll", lit "rl"]

/-- The values that are free text of the document. -/
def freeTexts (st : IdServiceState) : List CStr :=
  [st.hesClmeVer, st.hesSystemNumber, st.gatewayClass, st.publicDescription]

/-- Are the counts `int`s? -/
structure InventoryFits (inv : IdInventory) : Prop where
  hans : FitsInt32 inv.hansNumber
  wans : FitsInt32 inv.wansNumber
  serviceModules : FitsInt32 inv.serviceModulesNumber

/-- The values as a document leaves them: digits of a 256-bit number, texts that fit their
fields, and `long`s. -/
structure LoadedValues (st : IdServiceState) : Prop where
  publicId : ∃ data, data.length ≤ idIdentityKeyBytes ∧ st.uniquePublicId = bytesToHex data
  version : st.hesClmeVer.length < idVersionMax
  systemNumber : st.hesSystemNumber.length < idSysnumMax
  description : st.publicDescription.length < idDescMax
  gatewayClass : st.gatewayClass.length < idClassMax
  vulnerability : FitsInt64 st.vulnerability
  adverseImpact : FitsInt64 st.adverseImpact
  likelihood : FitsInt64 st.likelihood
  riskLevel : FitsInt64 st.riskLevel

variable {st : IdServiceState} {inv : IdInventory}

/-- INTERNAL: the codes of the status line are different. -/
theorem statusFields_codes (st : IdServiceState) (inv : IdInventory) :
    RecordCodes (statusFields st inv) where
  nodup := by
    have hcodes : (statusFields st inv).map Prod.fst = statusCodes := rfl
    rw [hcodes]
    decide
  plain field hfield := by
    have hplain : ∀ code ∈ statusCodes,
        code ≠ [] ∧ (61 : UInt8) ∉ code ∧ (59 : UInt8) ∉ code := by decide
    exact hplain field.1 (List.mem_map_of_mem (f := Prod.fst) hfield)

/-- INTERNAL: the status line is its records with ';' between. -/
theorem statusLine_eq (st : IdServiceState) (inv : IdInventory) :
    idStatusOnGet st inv =
      boundedCopy hesPayloadMax (joined 59 ((statusFields st inv).map fieldRecord)) := by
  unfold idStatusOnGet statusFields fieldRecord
  simp [lit]

/-- INTERNAL: hex digits hold no ';'. -/
theorem bytesToHex_plain (data : List UInt8) : (59 : UInt8) ∉ bytesToHex data := by
  intro hmem
  exact @hexText_forall lowerDigit (fun c => c ≠ 59) (by decide) data 59 hmem rfl

/-- INTERNAL: nor does a printed integer. -/
theorem fmtD_plain (n : ℤ) : (59 : UInt8) ∉ fmtD n :=
  not_mem_fmtD 59 (by decide) (by decide) n

/-- INTERNAL: **the answer is whole**: what was loaded fits the payload. -/
theorem statusLine_whole (hst : LoadedValues st) (hinv : InventoryFits inv) :
    idStatusOnGet st inv = joined 59 ((statusFields st inv).map fieldRecord) ∧
      (joined 59 ((statusFields st inv).map fieldRecord)).length < hesPayloadMax := by
  have hlen : (joined 59 ((statusFields st inv).map fieldRecord)).length < hesPayloadMax := by
    obtain ⟨data, hdata, hid⟩ := hst.publicId
    have hidLen : st.uniquePublicId.length ≤ 64 := by
      rw [hid, bytesToHex, length_hexText]
      unfold idIdentityKeyBytes at hdata
      omega
    have hcodes : statusCodes.map List.length = List.replicate 12 2 := rfl
    simp only [statusCodes, List.map_cons, List.map_nil, List.replicate_succ, List.replicate_zero,
      List.cons.injEq, and_true] at hcodes
    have hversion := hst.version
    have hsystem := hst.systemNumber
    have hdescription := hst.description
    have hclass := hst.gatewayClass
    have hnh := fmtD_length _ (fitsInt64_of_fitsInt32 _ hinv.hans)
    have hnw := fmtD_length _ (fitsInt64_of_fitsInt32 _ hinv.wans)
    have hns := fmtD_length _ (fitsInt64_of_fitsInt32 _ hinv.serviceModules)
    have hvl := fmtD_length _ hst.vulnerability
    have hil := fmtD_length _ hst.adverseImpact
    have hll := fmtD_length _ hst.likelihood
    have hrl := fmtD_length _ hst.riskLevel
    unfold idVersionMax at hversion
    unfold idSysnumMax at hsystem
    unfold idDescMax at hdescription
    unfold idClassMax at hclass
    unfold statusFields fieldRecord hesPayloadMax
    simp only [List.map_cons, List.map_nil, joined_cons, List.flatMap_cons, List.flatMap_nil,
      List.length_append, List.length_cons, List.length_nil]
    omega
  refine ⟨?_, hlen⟩
  rw [statusLine_eq]
  exact List.take_of_length_le (Nat.le_sub_one_of_lt hlen)

/-- INTERNAL: the records named `code` that values carry are those that free texts carry. -/
theorem forged_nil_iff (hst : LoadedValues st) (inv : IdInventory) (code : CStr) :
    forged code (statusFields st inv) = [] ↔
      ∀ text ∈ freeTexts st, ∀ record ∈ embedded text, recordName record ≠ code := by
  have hnone : ∀ value, (59 : UInt8) ∉ value → (embedded value).filter (recordIs code) = [] := by
    intro value hvalue
    rw [embedded_of_not_mem value hvalue]
    rfl
  obtain ⟨data, -, hid⟩ := hst.publicId
  have hdigits : (59 : UInt8) ∉ st.uniquePublicId := hid ▸ bytesToHex_plain data
  have htext : ∀ value, (embedded value).filter (recordIs code) = [] ↔
      ∀ record ∈ embedded value, recordName record ≠ code := by
    intro value
    simp [List.filter_eq_nil_iff, recordIs]
  unfold forged statusFields freeTexts
  simp only [List.flatMap_cons, List.flatMap_nil, hnone _ hdigits, hnone _ (fmtD_plain _),
    List.append_nil, List.nil_append, List.append_eq_nil_iff, htext, List.forall_mem_cons,
    List.not_mem_nil, false_implies, implies_true, and_true]

/-! ## The document -/

/-- Are the integers of the document `json_int_t`s? -/
def IntegersFit (root : Json) : Prop :=
  ∀ gw, root.get (lit "gatewayIdentity") = some gw →
    ∀ key n, gw.getInt key = some n → FitsInt64 n

/-- INTERNAL: an optional text fits its array. -/
theorem takeOptional_length (gw : Json) (key : CStr) (cap : ℕ) (fallback : CStr) (h : 0 < cap) :
    (takeOptional gw key cap fallback).length < cap := by
  unfold takeOptional hesStrlcpy boundedCopy
  rw [List.length_take]
  omega

/-- INTERNAL: an optional integer fits, as those of the document do. -/
theorem takeOptionalInt_fits (gw : Json) (key : CStr)
    (h : ∀ n, gw.getInt key = some n → FitsInt64 n) : FitsInt64 (takeOptionalInt gw key) := by
  unfold takeOptionalInt
  split
  next n hn =>
    split
    · exact h n hn
    · decide
  · decide

/-- INTERNAL: the public id is the hex of a key. -/
theorem deriveIdentityKey_publicId (psa : IdPsa) (st st' : IdServiceState)
    (h : deriveIdentityKey psa st = (0, st')) :
    ∃ data, data.length ≤ idIdentityKeyBytes ∧ st'.uniquePublicId = bytesToHex data := by
  have hpublish : ∀ st pub, publishIdentityKey st pub = (0, st') →
      ∃ data, data.length ≤ idIdentityKeyBytes ∧ st'.uniquePublicId = bytesToHex data := by
    intro st pub hpub
    obtain ⟨-, rfl⟩ := Prod.mk.inj hpub
    exact ⟨_, List.length_take_le _ _, rfl⟩
  have hfail : ∀ st : IdServiceState, ((-1 : ℤ), st) ≠ (0, st') := by
    intro st heq
    cases heq
  unfold deriveIdentityKey deriveIdentityKeyIn at h
  split at h
  · exact absurd h (hfail _)
  · split at h
    · exact absurd h (hfail _)
    · split at h
      · exact absurd h (hfail _)
      · dsimp only at h
        split at h
        · split at h
          · exact absurd h (hfail _)
          · split at h
            · exact absurd h (hfail _)
            · exact hpublish _ _ h
        · exact hpublish _ _ h

/-- INTERNAL: **an accepted document** leaves values that fit. -/
theorem loadIdentity_values (psa : IdPsa) (root : Json) (st₀ st : IdServiceState)
    (hload : loadIdentity psa (some root) st₀ = (0, st)) (hints : IntegersFit root) :
    LoadedValues st := by
  have hfail : ∀ st' : IdServiceState, ((-1 : ℤ), st') ≠ (0, st) := by
    intro st' heq
    cases heq
  unfold loadIdentity at hload
  split at hload
  · exact absurd hload (hfail _)
  next gw hgw =>
    have hfits := hints gw hgw
    split at hload
    · exact absurd hload (hfail _)
    · split at hload
      · exact absurd hload (hfail _)
      next fp _ =>
        split at hload
        next st₁ hderive =>
          split at hload
          · exact absurd hload (hfail _)
          · obtain ⟨-, rfl⟩ := Prod.mk.inj hload
            constructor
            · exact deriveIdentityKey_publicId psa _ st₁ hderive
            · exact takeOptional_length gw _ _ _ (by decide)
            · exact takeOptional_length gw _ _ _ (by decide)
            · exact takeOptional_length gw _ _ _ (by decide)
            · exact takeOptional_length gw _ _ _ (by decide)
            · exact takeOptionalInt_fits gw _ (hfits _)
            · exact takeOptionalInt_fits gw _ (hfits _)
            · exact takeOptionalInt_fits gw _ (hfits _)
            · exact takeOptionalInt_fits gw _ (hfits _)
        · exact absurd hload (hfail _)

/-! ## Through the router -/

section Router

variable {α : Type} {before after : List (ServiceObject α)} {state : α → IdServiceState}
  {inventory : α → IdInventory} {a : α} {m : HesClmeMsg}

/-- The object of the values. -/
def statusObject (state : α → IdServiceState) (inventory : α → IdInventory) : ServiceObject α :=
  idObject hesLxIdCentralopsCv fun a => idStatusOnGet (state a) (inventory a)

/-- INTERNAL: an object with the address of a datum is at the address itself, or at the datum. -/
theorem ownsAddress_path {so : ServiceObject α} {address code : CStr} {s : Option CStr}
    (hcode : (47 : UInt8) ∉ code) (h : OwnsAddress so (address ++ 47 :: code) s) :
    so.path = address ∨ so.path = address ++ 47 :: code := by
  cases s with
  | none => exact Or.inr h.symm
  | some segment =>
    left
    obtain ⟨-, hslash, hpath⟩ := h
    have hcuts := congrArg (fun path => splitAtByte 47 path.reverse) hpath
    have hfront : ∀ address code : CStr, (47 : UInt8) ∉ code →
        splitAtByte 47 (address ++ 47 :: code).reverse = (code.reverse, some address.reverse) := by
      intro address code hnot
      rw [List.reverse_append, List.reverse_cons, List.append_assoc]
      exact splitAtByte_some 47 code.reverse address.reverse fun c hc hc47 =>
        hnot (hc47 ▸ List.mem_reverse.mp hc)
    rw [hfront address code hcode, hfront so.path segment hslash] at hcuts
    have hpaths := Option.some.inj (Prod.mk.inj hcuts).2
    exact (List.reverse_inj.mp hpaths).symm

/-- INTERNAL: an address without the one of the values in front owns no datum of them. -/
theorem not_ownsAddress {so : ServiceObject α} {code : CStr} (hcode : (47 : UInt8) ∉ code)
    (h : ¬hesLxIdCentralopsCv <+: so.path) (s : Option CStr) :
    ¬OwnsAddress so (hesLxIdCentralopsCv ++ 47 :: code) s := by
  intro howns
  rcases ownsAddress_path hcode howns with hpath | hpath
  · exact h (hpath ▸ List.prefix_rfl)
  · exact h (hpath ▸ List.prefix_append _ _)

/-- INTERNAL: **the router finds the object of the values** for a datum of its address. -/
theorem findObject_status (code : CStr) (hne : code ≠ []) (hcode : (47 : UInt8) ∉ code)
    (hothers : ∀ so ∈ before ++ after, ∀ s,
      ¬OwnsAddress so (hesLxIdCentralopsCv ++ 47 :: code) s) :
    findObject (before ++ idObjects state inventory ++ after)
        (hesLxIdCentralopsCv ++ 47 :: code) =
      some (statusObject state inventory, some code) := by
  have hsplit : before ++ idObjects state inventory ++ after =
      (before ++ [idObject hesLxId fun _ => idConfigOnGet]) ++
        statusObject state inventory ::
          ((idObject hesLxIdDiscoverBm fun a => idDiscoveryOnGet (inventory a)) :: after) := by
    simp [idObjects, statusObject]
  have hconfig : ¬hesLxIdCentralopsCv <+: hesLxId := by decide
  have hdiscover : ¬hesLxIdCentralopsCv <+: hesLxIdDiscoverBm := by decide
  rw [hsplit]
  apply findObject_only_owner
  · exact ⟨hne, hcode, rfl⟩
  · intro other hother
    rcases List.mem_append.mp hother with hmem | hmem
    · exact hothers other (List.mem_append_left _ hmem)
    · rw [List.mem_singleton.mp hmem]
      exact not_ownsAddress hcode hconfig
  · intro other hother
    rcases List.mem_cons.mp hother with rfl | hmem
    · exact not_ownsAddress hcode hdiscover
    · exact hothers other (List.mem_append_right _ hmem)

/-- Is what is left of the call one answer of exactly one record, that of the field? -/
def AnswersRecord (out : α × Bool × List HesClmeMsg) (field : CStr × CStr) : Prop :=
  ∃ answer, out.2.2 = [answer] ∧ answer.payload.splitOn 59 = [fieldRecord field]

/-- Has the field's value no separator, and does no free text carry a record of its name behind
a separator? -/
def Unforged (st : IdServiceState) (field : CStr × CStr) : Prop :=
  (59 : UInt8) ∉ field.2 ∧
    ∀ text ∈ freeTexts st, ∀ record ∈ embedded text, recordName record ≠ field.1

/-- INTERNAL: a record is wanted by its code alone. -/
theorem wanted_code (code record : CStr) (hcode : code ∈ statusCodes) :
    wanted code record = recordIs code record := by
  have hlist : ∀ code ∈ statusCodes, ¬EndsInSeparator code ∧ listItems code = [code] ∧
      code ≠ [] := by
    unfold EndsInSeparator
    decide +kernel
  obtain ⟨hend, hitems, hne⟩ := hlist code hcode
  rw [Bool.eq_iff_iff, wanted_named record hend]
  unfold Named recordIs
  rw [hitems, List.mem_singleton, decide_eq_true_eq]
  constructor
  · exact fun h => h.2
  · exact fun h => ⟨h ▸ hne, h⟩

/-- INTERNAL: **a trimmed answer** has the records of the code. -/
theorem trimmed_records (code : CStr) (hcode : code ∈ statusCodes) (m : HesClmeMsg)
    (hlen : m.payload.length < hesPayloadMax) (hmem : (59 : UInt8) ∈ m.payload)
    (hfound : (m.payload.splitOn 59).filter (recordIs code) ≠ []) :
    (trimPayload m code).payload.splitOn 59 = (m.payload.splitOn 59).filter (recordIs code) := by
  have hnil : recordIs code [] = false := by
    have hall : ∀ code ∈ statusCodes, recordIs code [] = false := by decide
    exact hall code hcode
  have hwanted : wanted code = recordIs code :=
    funext fun record => wanted_code code record hcode
  rw [trimPayload_payload m hlen fun hfills => hfills.2 hmem]
  unfold keptRecords
  rw [hwanted]
  rw [filter_splitOn _ hnil] at hfound ⊢
  have hrecords : ∀ record ∈ (pieces 59 m.payload).filter (recordIs code),
      record ≠ [] ∧ (59 : UInt8) ∉ record := by
    intro record hrecord
    obtain ⟨hpiece, his⟩ := List.mem_filter.mp hrecord
    refine ⟨?_, mem_pieces_not_mem m.payload record hpiece⟩
    rintro rfl
    rw [hnil] at his
    cases his
  generalize (pieces 59 m.payload).filter (recordIs code) = records at hfound hrecords
  cases records with
  | nil => exact absurd rfl hfound
  | cons record records =>
    rw [List.dropWhile_cons_of_neg (by simpa using (hrecords record List.mem_cons_self).1)]
    exact List.splitOn_intercalate 59 (fun r hr => (hrecords r hr).2) hfound

/-- INTERNAL: **one datum of the values**, as the router answers it. -/
theorem dispatch_datum (code : CStr) (hcode : code ∈ statusCodes)
    (hst : LoadedValues (state a)) (hinv : InventoryFits (inventory a)) (hverb : m.verb = .get)
    (hpath : m.path = hesLxIdCentralopsCv ++ 47 :: code)
    (hothers : ∀ so ∈ before ++ after, ∀ s, ¬OwnsAddress so m.path s) :
    ∃ answer, (dispatchToLocalObjects (before ++ idObjects state inventory ++ after) m a).2.2 =
        [answer] ∧
      answer = trimPayload (hesMsgSetPayloadStr
        (answerTo (statusObject state inventory) m)
          (joined 59 ((statusFields (state a) (inventory a)).map fieldRecord))) code := by
  have hplain : ∀ code ∈ statusCodes, code ≠ [] ∧ (47 : UInt8) ∉ code := by decide
  obtain ⟨hne, hslash⟩ := hplain code hcode
  have hfind : findObject (before ++ idObjects state inventory ++ after)
      (hesLxIdCentralopsCv ++ 47 :: code) = some (statusObject state inventory, some code) :=
    findObject_status code hne hslash (hpath ▸ hothers)
  refine ⟨_, ?_, rfl⟩
  unfold dispatchToLocalObjects
  rw [hpath, hfind, hverb, ← (statusLine_whole hst hinv).1]
  rfl

end Router

/-- **One record for one datum.** A GET of the values' address with a transCode behind it is
answered with exactly one record, that of the transCode and its value as loaded, exactly when
the value has no separator and no free text of the document carries a record of that name.
SRCLINE: id.c:558-581 -/
theorem identity_record_iff {α : Type} (psa : IdPsa) (root : Json) (st₀ st : IdServiceState)
    (hload : loadIdentity psa (some root) st₀ = (0, st)) (hints : IntegersFit root)
    (before after : List (ServiceObject α)) (state : α → IdServiceState)
    (inventory : α → IdInventory) (a : α) (hstate : state a = st)
    (hinv : InventoryFits (inventory a)) (m : HesClmeMsg) (hverb : m.verb = .get)
    (field : CStr × CStr) (hfield : field ∈ statusFields st (inventory a))
    (hpath : m.path = hesLxIdCentralopsCv ++ 47 :: field.1)
    (hothers : ∀ so ∈ before ++ after, ∀ s, ¬OwnsAddress so m.path s) :
    AnswersRecord (dispatchToLocalObjects (before ++ idObjects state inventory ++ after) m a)
      field ↔ Unforged st field := by
  have hst := loadIdentity_values psa root st₀ st hload hints
  subst hstate
  have hcode : field.1 ∈ statusCodes := List.mem_map_of_mem (f := Prod.fst) hfield
  obtain ⟨_, hanswer, rfl⟩ := dispatch_datum field.1 hcode hst hinv hverb hpath hothers
  have hcodes := statusFields_codes (state a) (inventory a)
  have hlen := (statusLine_whole hst hinv).2
  have hmem : (59 : UInt8) ∈ joined 59 ((statusFields (state a) (inventory a)).map fieldRecord) :=
    List.mem_append_right _ List.mem_cons_self
  have hpayload : ∀ m line, line.length < hesPayloadMax →
      (hesMsgSetPayloadStr m line).payload = line :=
    fun m line hline => List.take_of_length_le (Nat.le_sub_one_of_lt hline)
  have hsplit := trimmed_records field.1 hcode (hesMsgSetPayloadStr
    (answerTo (statusObject state inventory) m)
      (joined 59 ((statusFields (state a) (inventory a)).map fieldRecord)))
  rw [hpayload _ _ hlen, splitOn_joined _ (by simp [statusFields])] at hsplit
  have hrecords := hsplit hlen hmem (filter_fields_ne_nil _ hcodes field hfield)
  unfold AnswersRecord Unforged
  rw [← forged_nil_iff hst (inventory a), ← filter_fields_iff _ hcodes field hfield,
    ← hrecords]
  constructor
  · rintro ⟨answer, hanswer', hrecord⟩
    obtain rfl := List.singleton_inj.mp (hanswer.symm.trans hanswer')
    exact hrecord
  · exact fun hrecord => ⟨_, hanswer, hrecord⟩

/-- PSA with one key pair, the demo gateway's. -/
def pinnedPsa : IdPsa :=
  { demoPsa with
    importKeyPair := fun _ => .success
    exportPublicKey := fun _ => (.success, 4 ::
      (beBytes idIdentityKeyBytes
          0x943d607d1f4c645d9a356e042873ec41aa7d95fd6c0a373e9e7639cc2dbef97d ++
        beBytes idIdentityKeyBytes
          0x4df39825111f52dc11a50e03a9cdd24eb16bed5bb928ea0cab716eb1675c41d6)) }

/-- An identity document with this version. -/
def versionDocument (version : CStr) : Json :=
  .object [(lit "gatewayIdentity",
    .object [(lit "fp", .string demoFingerprint), (lit "vr", .string version)])]

/-- The state a document with this version leaves. -/
def versionState (version : CStr) : IdServiceState :=
  (loadIdentity pinnedPsa (some (versionDocument version)) {}).2

/-- A GET of a datum of the values. -/
def datumRequest (code : CStr) : HesClmeMsg where
  verb := .get
  path := hesLxIdCentralopsCv ++ 47 :: code

/-- INTERNAL: the integers of the document fit. -/
theorem versionDocument_integers (version : CStr) : IntegersFit (versionDocument version) := by
  intro gw hgw key n hint
  obtain rfl := Option.some.inj hgw
  unfold Json.getInt at hint
  split at hint
  next k hget =>
    obtain ⟨found, hfind, hk⟩ := Option.map_eq_some_iff.mp hget
    have hfound := List.mem_reverse.mp (List.mem_of_find?_eq_some hfind)
    simp only [List.mem_cons, List.not_mem_nil, or_false] at hfound
    rcases hfound with rfl | rfl
    · cases hk
    · cases hk
  · cases hint

/-- A version without ';' is answered as its record. -/
theorem identity_record_demo :
    AnswersRecord (dispatchToLocalObjects ([] ++ idObjects (fun _ : Unit => versionState
      (lit "1.0.0")) (fun _ => {}) ++ []) (datumRequest (lit "vr")) ()) (lit "vr", lit "1.0.0") := by
  have hload : loadIdentity pinnedPsa (some (versionDocument (lit "1.0.0"))) {} =
      (0, versionState (lit "1.0.0")) := Prod.ext (by decide +kernel) rfl
  have hversion : (versionState (lit "1.0.0")).hesClmeVer = lit "1.0.0" := by decide +kernel
  refine (identity_record_iff pinnedPsa (versionDocument (lit "1.0.0")) {} _ hload ?_ [] []
    (fun _ => versionState (lit "1.0.0")) (fun _ => {}) () rfl ?_ _ rfl (lit "vr", lit "1.0.0") ?_
    rfl (by simp)).mpr ?_
  · exact versionDocument_integers _
  · constructor <;> decide
  · exact List.mem_of_getElem? (i := 1) (congrArg (fun v => some (lit "vr", v)) hversion)
  · unfold Unforged
    decide +kernel

/-- A version with ';' in it answers for another record. -/
theorem version_forges_count :
    ¬∀ root st, loadIdentity pinnedPsa (some root) {} = (0, st) →
      ∀ field ∈ statusFields st {},
        AnswersRecord (dispatchToLocalObjects (idObjects (fun _ : Unit => st) fun _ => {})
          (datumRequest field.1) ()) field := by
  intro h
  have hload : loadIdentity pinnedPsa (some (versionDocument (lit "1.0.0;nh=7"))) {} =
      (0, versionState (lit "1.0.0;nh=7")) := Prod.ext (by decide +kernel) rfl
  obtain ⟨answer, hanswer, hrecord⟩ := h _ _ hload (lit "nh", fmtD 0) (by simp [statusFields])
  have hpayloads := congrArg (List.map fun m : HesClmeMsg => m.payload) hanswer
  have hforged : (dispatchToLocalObjects (idObjects (fun _ : Unit =>
      versionState (lit "1.0.0;nh=7")) fun _ => {}) (datumRequest (lit "nh")) ()).2.2.map
        (fun m : HesClmeMsg => m.payload) = [lit "nh=7;nh=0"] := by decide +kernel
  dsimp only at hpayloads
  rw [hforged] at hpayloads
  have hpayload : lit "nh=7;nh=0" = answer.payload := List.singleton_inj.mp hpayloads
  rw [← hpayload] at hrecord
  exact absurd hrecord (by decide +kernel)

end OpenHes.Analysis
