import OpenHes.Model.Auth
import Mathlib.Data.List.Induction

/-!
# The proof requirements of a policy

An entry of "proofRequired" is read into the slot behind the last one that was taken, and an
entry that is passed over leaves in the slot what it gave. Here stands what a prefix of the
entries puts into the table when no entry is completed that way, and that this is needed.
-/

set_option autoImplicit false

namespace OpenHes.Analysis

open OpenHes.Library OpenHes.Model

/-! ## What a policy asks for -/

/-- The requirement of a well-formed entry: an 'at' that is not empty and fits its field, and
a 'pi' of 64 characters. -/
def wellFormedProof (row : Json) : Option AuthProofRequirement :=
  match row.getString (lit "at"), row.getString (lit "pi") with
  | some address, some pi =>
    if address ≠ [] ∧ address.length ≤ 127 ∧ pi.length = 64 then some ⟨address, pi⟩ else none
  | _, _ => none

/-- The requirements that entries ask for, in their order. -/
def askedProofs (rows : List Json) : List AuthProofRequirement := rows.filterMap wellFormedProof

/-- The table that entries leave. -/
def loadedProofs (rows : List Json) : List AuthProofRequirement :=
  loadProofRequirements rows {} authMaxProofRequirements

/-- Does every entry add its own requirement, when it is well formed, and nothing else? -/
def EachAddsItsOwn (rows : List Json) : Prop :=
  ∀ before row after, rows = before ++ row :: after →
    loadedProofs (before ++ [row]) = loadedProofs before ++ (wellFormedProof row).toList

/-- Are the proof requirements of the document in force, and only those? -/
def ProofsInForce (root : Json) : Prop :=
  (∀ address, authServiceRequiredProofPi (loadPolicy (some root)) address =
      ((askedProofs (root.rows (lit "proofRequired"))).find? fun pr =>
        pr.atAddress = address).map (·.publicId)) ∧
    EachAddsItsOwn (root.rows (lit "proofRequired"))

/-! ## What is left in the slot -/

/-- The entries that are passed over behind the last well-formed one, the newest first. -/
def passedOver (rows : List Json) : List Json :=
  rows.reverse.takeWhile fun row => wellFormedProof row = none

/-- The text of a member that these entries gave last. -/
def lastGiven (rows : List Json) (key : CStr) : CStr :=
  ((passedOver rows).findSome? (·.getString key)).getD []

/-- Does an entry that is not well formed complete a requirement with the entries that were
passed over before it? -/
def Completes (before : List Json) (row : Json) : Prop :=
  lastGiven (before ++ [row]) (lit "at") ≠ [] ∧
    64 ≤ (lastGiven (before ++ [row]) (lit "pi")).length

/-- At most as many well-formed entries as the table holds, and while it has room no other
entry completes a requirement. -/
def CleanProofRows (rows : List Json) : Prop :=
  (askedProofs rows).length ≤ authMaxProofRequirements ∧
    ∀ before row after, rows = before ++ row :: after → wellFormedProof row = none →
      (askedProofs before).length < authMaxProofRequirements → ¬Completes before row

/-- The slot behind the entries. -/
def leftSlot (rows : List Json) : AuthProofRequirement where
  atAddress := (lastGiven rows (lit "at")).take 127
  publicId := (lastGiven rows (lit "pi")).take 64

variable {rows before rest : List Json} {row : Json}

/-- INTERNAL: a further row adds its proof, if it is well formed. -/
theorem askedProofs_snoc :
    askedProofs (before ++ [row]) = askedProofs before ++ (wellFormedProof row).toList := by
  unfold askedProofs
  rw [List.filterMap_append]
  cases h : wellFormedProof row <;> simp [h]

/-- INTERNAL: a well formed row ends the rows that are passed over. -/
theorem passedOver_snoc_wellFormed (h : (wellFormedProof row).isSome) :
    passedOver (before ++ [row]) = [] := by
  have hne : wellFormedProof row ≠ none := Option.isSome_iff_ne_none.mp h
  simp [passedOver, hne]

/-- INTERNAL: any other is passed over, too. -/
theorem passedOver_snoc_malformed (h : wellFormedProof row = none) :
    passedOver (before ++ [row]) = row :: passedOver before := by
  simp [passedOver, h]

/-- INTERNAL: a member that the entry gives is what is left of it, and another one stays. -/
theorem lastGiven_snoc (h : wellFormedProof row = none) (key : CStr) :
    lastGiven (before ++ [row]) key = (row.getString key).getD (lastGiven before key) := by
  unfold lastGiven
  rw [passedOver_snoc_malformed h, List.findSome?_cons]
  cases row.getString key <;> rfl

/-- INTERNAL: a text that is read over an earlier one is its own, or the earlier one cut. -/
theorem jobjStr_take (row : Json) (key text : CStr) (cap : ℕ) :
    jobjStr row key (text.take (cap - 1)) cap =
      ((row.getString key).getD text).take (cap - 1) := by
  unfold jobjStr hesStrlcpy boundedCopy
  cases row.getString key <;> rfl

/-! ## One entry -/

/-- INTERNAL: **a well-formed entry** is taken, whatever is in the slot. -/
theorem loadProofRequirements_wellFormed (pr slot : AuthProofRequirement) (room : ℕ)
    (h : wellFormedProof row = some pr) :
    loadProofRequirements (row :: rest) slot (room + 1) =
      pr :: loadProofRequirements rest {} room := by
  unfold wellFormedProof at h
  split at h
  next address pi hat hpi =>
    split at h
    next hfits =>
      cases h
      obtain ⟨hne, hlen, hpilen⟩ := hfits
      have hcopy : jobjStr row (lit "at") slot.atAddress hesPathMax = address := by
        unfold jobjStr
        rw [hat]
        exact List.take_of_length_le hlen
      have hpicopy : jobjStr row (lit "pi") slot.publicId 65 = pi := by
        unfold jobjStr
        rw [hpi]
        exact List.take_of_length_le (by omega)
      rw [loadProofRequirements, hcopy, hpicopy]
      simp [hne, hpilen]
    · cases h
  · cases h

/-- INTERNAL: a row that is passed over leaves in the slot what it has. -/
theorem leftSlot_snoc (h : wellFormedProof row = none) :
    leftSlot (before ++ [row]) =
      { atAddress := jobjStr row (lit "at") (leftSlot before).atAddress hesPathMax
        publicId := jobjStr row (lit "pi") (leftSlot before).publicId 65 } := by
  have hat : jobjStr row (lit "at") (leftSlot before).atAddress hesPathMax =
      ((row.getString (lit "at")).getD (lastGiven before (lit "at"))).take 127 :=
    jobjStr_take row (lit "at") _ hesPathMax
  have hpi : jobjStr row (lit "pi") (leftSlot before).publicId 65 =
      ((row.getString (lit "pi")).getD (lastGiven before (lit "pi"))).take 64 :=
    jobjStr_take row (lit "pi") _ 65
  rw [hat, hpi, leftSlot, lastGiven_snoc h, lastGiven_snoc h]

/-- INTERNAL: it completes the slot if that has both then. -/
theorem completes_iff : Completes before row ↔
    (leftSlot (before ++ [row])).atAddress ≠ [] ∧
      (leftSlot (before ++ [row])).publicId.length = 64 := by
  simp [Completes, leftSlot]

/-- INTERNAL: **any other entry** is taken when it completes a requirement. -/
theorem loadProofRequirements_completes (room : ℕ) (h : wellFormedProof row = none)
    (hc : Completes before row) :
    loadProofRequirements (row :: rest) (leftSlot before) (room + 1) =
      leftSlot (before ++ [row]) :: loadProofRequirements rest {} room := by
  obtain ⟨hat, hpi⟩ := completes_iff.mp hc
  rw [loadProofRequirements, ← leftSlot_snoc h]
  simp [hat, hpi]

/-- INTERNAL: and is passed over when it does not. -/
theorem loadProofRequirements_passes (room : ℕ) (h : wellFormedProof row = none)
    (hc : ¬Completes before row) :
    loadProofRequirements (row :: rest) (leftSlot before) (room + 1) =
      loadProofRequirements rest (leftSlot (before ++ [row])) (room + 1) := by
  rw [completes_iff] at hc
  rw [loadProofRequirements, ← leftSlot_snoc h]
  have hskip : (leftSlot (before ++ [row])).atAddress = [] ∨
      (leftSlot (before ++ [row])).publicId.length ≠ 64 := by tauto
  simp only [Bool.or_eq_true, decide_eq_true_eq]
  rw [if_pos hskip]

/-- INTERNAL: without room nothing is loaded. -/
theorem loadProofRequirements_full (slot : AuthProofRequirement) :
    loadProofRequirements rows slot 0 = [] := by
  cases rows <;> rfl

/-! ## All entries -/

/-- INTERNAL: rows in front of clean ones are clean. -/
theorem CleanProofRows.front (h : CleanProofRows (before ++ rest)) : CleanProofRows before := by
  obtain ⟨hcount, hclean⟩ := h
  constructor
  · unfold askedProofs at hcount ⊢
    rw [List.filterMap_append, List.length_append] at hcount
    omega
  · intro b r a heq
    apply hclean b r (a ++ rest)
    rw [heq]
    simp

/-- INTERNAL: **a prefix of the entries** whose entries are clean leaves what it asks for in the
table, and the slot as it was left by those passed over last. -/
theorem loadProofRequirements_append (h : CleanProofRows before) :
    loadProofRequirements (before ++ rest) {} authMaxProofRequirements =
      askedProofs before ++ loadProofRequirements rest (leftSlot before)
        (authMaxProofRequirements - (askedProofs before).length) := by
  induction before using List.reverseRecOn generalizing rest with
  | nil => rfl
  | append_singleton before row ih =>
    rw [List.append_assoc, List.singleton_append, ih h.front]
    have hcount := h.1
    rw [askedProofs_snoc] at hcount ⊢
    rw [List.append_assoc, List.length_append] at *
    cases hrow : wellFormedProof row with
    | some pr =>
      rw [hrow] at hcount
      simp only [Option.toList_some, List.length_singleton] at hcount
      obtain ⟨room, hroom⟩ : ∃ room,
          authMaxProofRequirements - (askedProofs before).length = room + 1 :=
        ⟨authMaxProofRequirements - (askedProofs before).length - 1, by omega⟩
      have hpassed : passedOver (before ++ [row]) = [] :=
        passedOver_snoc_wellFormed (by rw [hrow]; rfl)
      have hleft : leftSlot (before ++ [row]) = {} := by
        simp [leftSlot, lastGiven, hpassed]
      rw [hroom, loadProofRequirements_wellFormed pr _ room hrow, hleft]
      simp only [Option.toList_some, List.length_singleton, List.singleton_append]
      congr 3
      omega
    | none =>
      simp only [Option.toList_none, List.length_nil, List.nil_append, Nat.add_zero]
      congr 1
      by_cases hfull : authMaxProofRequirements ≤ (askedProofs before).length
      · rw [Nat.sub_eq_zero_of_le hfull, loadProofRequirements_full, loadProofRequirements_full]
      · obtain ⟨room, hroom⟩ : ∃ room,
            authMaxProofRequirements - (askedProofs before).length = room + 1 :=
          ⟨authMaxProofRequirements - (askedProofs before).length - 1, by omega⟩
        have hnot := h.2 before row [] rfl hrow (by omega)
        rw [hroom, loadProofRequirements_passes room hrow hnot]

/-- INTERNAL: of clean rows the asked proofs are loaded. -/
theorem loadedProofs_of_clean (h : CleanProofRows rows) : loadedProofs rows = askedProofs rows := by
  have hrun := @loadProofRequirements_append rows [] h
  rw [List.append_nil] at hrun
  unfold loadedProofs
  rw [hrun, loadProofRequirements, List.append_nil]

/-- INTERNAL: no more is loaded than there is room for. -/
theorem length_loadProofRequirements_le (slot : AuthProofRequirement) (room : ℕ) :
    (loadProofRequirements rows slot room).length ≤ room := by
  fun_induction loadProofRequirements rows slot room with
  | case1 => exact Nat.zero_le _
  | case2 => exact Nat.le_refl _
  | case3 row rest slot room pr hskip ih => exact ih
  | case4 row rest slot room pr htake ih => exact Nat.succ_le_succ ih

/-- INTERNAL: where every entry adds its own, the table is what the entries ask for. -/
theorem EachAddsItsOwn.loadedProofs_eq (h : EachAddsItsOwn rows) (heq : rows = before ++ rest) :
    loadedProofs before = askedProofs before := by
  induction before using List.reverseRecOn generalizing rest with
  | nil => rfl
  | append_singleton before row ih =>
    rw [List.append_assoc, List.singleton_append] at heq
    rw [h before row rest heq, ih heq, askedProofs_snoc]

/-- INTERNAL: and then no entry completes a requirement. -/
theorem EachAddsItsOwn.clean (h : EachAddsItsOwn rows) (heq : rows = before ++ rest) :
    CleanProofRows before := by
  induction before using List.reverseRecOn generalizing rest with
  | nil =>
    refine ⟨Nat.zero_le _, fun b r a hnil => ?_⟩
    simp at hnil
  | append_singleton before row ih =>
    have htable := h.loadedProofs_eq heq
    rw [List.append_assoc, List.singleton_append] at heq
    have hclean := ih heq
    constructor
    · rw [← htable]
      exact length_loadProofRequirements_le _ _
    · intro b r a hsplit hrow hroom hcompletes
      rcases List.eq_nil_or_concat' a with rfl | ⟨a, last, rfl⟩
      · obtain ⟨rfl, hlast⟩ := List.append_inj' hsplit rfl
        obtain rfl : row = r := by simpa using hlast
        have hadds := h before row rest heq
        obtain ⟨room, hroom'⟩ : ∃ room,
            authMaxProofRequirements - (askedProofs before).length = room + 1 :=
          ⟨authMaxProofRequirements - (askedProofs before).length - 1, by omega⟩
        rw [hrow, loadedProofs_of_clean hclean] at hadds
        unfold loadedProofs at hadds
        rw [loadProofRequirements_append hclean, hroom',
          loadProofRequirements_completes room hrow hcompletes] at hadds
        simp at hadds
      · rw [← List.cons_append, ← List.append_assoc] at hsplit
        obtain ⟨hbefore, -⟩ := List.append_inj' hsplit rfl
        exact hclean.2 b r a hbefore hrow hroom hcompletes

/-- **The proof requirements of a policy** are in force, and only those, exactly when the table
holds as many entries as are well formed and no other entry completes a requirement with what
those passed over before it have left.
SRCLINE: auth.c:300-319 -/
theorem proofs_in_force_iff (root : Json) :
    ProofsInForce root ↔ CleanProofRows (root.rows (lit "proofRequired")) := by
  constructor
  · intro h
    exact h.2.clean (List.append_nil _).symm
  · intro h
    constructor
    · intro address
      rw [← loadedProofs_of_clean h]
      rfl
    · intro before row after heq
      have hall : CleanProofRows ((before ++ [row]) ++ after) := by
        rw [List.append_assoc, List.singleton_append, ← heq]
        exact h
      have hlonger := hall.front
      rw [loadedProofs_of_clean hlonger, loadedProofs_of_clean hlonger.front, askedProofs_snoc]

/-- A policy with two entries, one without a 'pi' and one without an 'at'. -/
def halvesPolicy : Json :=
  .object [(lit "proofRequired", .array [
    .object [(lit "at", .string (lit "/lx/a"))],
    .object [(lit "pi", .string (List.replicate 64 97))]])]

/-- Two half rows make a requirement that none of them asks for. -/
theorem halves_are_joined :
    ¬∀ (root : Json) (address : CStr),
      authServiceRequiredProofPi (loadPolicy (some root)) address =
        ((askedProofs (root.rows (lit "proofRequired"))).find? fun pr =>
          pr.atAddress = address).map (·.publicId) := by
  intro h
  have hnone : askedProofs (halvesPolicy.rows (lit "proofRequired")) = [] := by decide
  have hsome : authServiceRequiredProofPi (loadPolicy (some halvesPolicy)) (lit "/lx/a") =
      some (List.replicate 64 97) := by decide +kernel
  have hboth := h halvesPolicy (lit "/lx/a")
  rw [hnone, hsome] at hboth
  cases hboth

end OpenHes.Analysis
