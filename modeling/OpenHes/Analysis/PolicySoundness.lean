import OpenHes.Model.Auth

/-!
# What an authorization says about the policy document

`auth_service_authorize` answers from tables of fixed size. Loading cuts texts, narrows
integers, puts a default for what is missing and drops the rows that find no room, so a
call can be granted that the document does not grant. It is not as long as the rows through
which the tables open an address tell the same in the document; and where each secret and each
reference belongs to one row, not otherwise. They do tell the same where the members that the
walk reaches fit the tables.
-/

set_option autoImplicit false

namespace OpenHes.Analysis

open OpenHes.Library OpenHes.Model

/-! ## The document -/

/-- The credential a message presents: everything up to the first ';'. -/
def presentedToken (credInfo : CStr) : CStr := credInfo.takeWhile fun c => c ≠ 59

/-- Both members are integers, and equal. -/
def sameInt (row : Json) (key : CStr) (row' : Json) (key' : CStr) : Bool :=
  (row.getInt key).isSome && row.getInt key = row'.getInt key'

/-- Both members are texts, and equal. -/
def sameText (row : Json) (key : CStr) (row' : Json) (key' : CStr) : Bool :=
  (row.getString key).isSome && row.getString key = row'.getString key'

/-- The rows of "permissionServices" that a class reaches through the rows of its group, with
its status, in the order of the walk. -/
def documentPermissions (doc cls : Json) : List Json :=
  ((doc.rows (lit "permissionGroups")).filter fun grp =>
      sameInt grp (lit "pi") cls (lit "pi") && grp.getString (lit "pt") = some (lit "ps")).flatMap
    fun grp => (doc.rows (lit "permissionServices")).filter fun perm =>
      sameInt perm (lit "pi") grp (lit "pr") && sameText perm (lit "st") cls (lit "st")

/-- The document grants a call through a credentials row and an authClasses row. -/
structure GrantedThrough (doc cred cls : Json) (credInfo userName atAddress : CStr) : Prop where
  presented : presentedToken credInfo ≠ []
  credential : cred.getString (lit "ci") = some (presentedToken credInfo)
  valid : cred.getString (lit "cv") = some (lit "ye")
  resolves : ∃ n, cred.getInt (lit "id") = some n ∧ cls.getInt (lit "cr") = some n
  named : userName = [] ∨ cls.getString (lit "fn") = some userName
  permitted : ∃ perm, ((documentPermissions doc cls).filter fun perm =>
      perm.getString (lit "lo") = some atAddress).getLast? = some perm ∧
    perm.getString (lit "vn") = some (lit "fl")

/-- The document grants the call. -/
def DocumentGrants (doc : Json) (credInfo userName atAddress : CStr) : Prop :=
  ∃ cred ∈ doc.rows (lit "credentials"), ∃ cls ∈ doc.rows (lit "authClasses"),
    GrantedThrough doc cred cls credInfo userName atAddress

/-! ## Members that survive loading -/

/-- The member is an integer that an `int` holds. -/
def HoldsInt (row : Json) (key : CStr) : Prop := ∃ n ∈ row.getInt key, FitsInt32 n

/-- The member is a text that an array of `cap` bytes holds. -/
def HoldsText (row : Json) (key : CStr) (cap : ℕ) : Prop :=
  ∃ s ∈ row.getString key, s.length < cap

instance (row : Json) (key : CStr) : Decidable (HoldsInt row key) :=
  inferInstanceAs (Decidable (∃ n ∈ row.getInt key, FitsInt32 n))

instance (row : Json) (key : CStr) (cap : ℕ) : Decidable (HoldsText row key cap) :=
  inferInstanceAs (Decidable (∃ s ∈ row.getString key, s.length < cap))

/-- The rows of a section that find room in their table. -/
def heldRows (doc : Json) (section_ : CStr) (max : ℕ) : List Json := (doc.rows section_).take max

/-- The secret that the table holds of a credentials row. -/
def storedSecret (row : Json) : CStr := jobjStr row (lit "ci") [] authSecretMax

/-- The rows of "permissionServices" that a class reaches in the tables, in the order of the
walk. -/
def tablePermissions (doc cls : Json) : List Json :=
  ((heldRows doc (lit "permissionGroups") authMaxGroups).filter fun grp =>
      jobjInt grp (lit "pi") 0 = jobjInt cls (lit "pi") 0 &&
        grp.getString (lit "pt") = some (lit "ps")).flatMap
    fun grp => (heldRows doc (lit "permissionServices") authMaxPermissions).filter fun perm =>
      jobjInt perm (lit "pi") 0 = jobjInt grp (lit "pr") 0 &&
        jobjStr perm (lit "st") [] authCodeSize = jobjStr cls (lit "st") [] authCodeSize

/-- The tables open the address through the rows: the credentials row is the first of its secret,
in which there is no ';', and valid; the class is the first that refers to it; and the last
permission that the class reaches for the address lets the value flow. -/
structure OpensThrough (doc cred cls : Json) (atAddress : CStr) : Prop where
  first : (heldRows doc (lit "credentials") authMaxCredentials).find?
    (fun row => storedSecret row = storedSecret cred) = some cred
  plain : ∀ c ∈ storedSecret cred, c ≠ 59
  valid : cred.getString (lit "cv") = some (lit "ye")
  resolves : (heldRows doc (lit "authClasses") authMaxClasses).find?
    (fun row => jobjInt row (lit "cr") 0 = jobjInt cred (lit "id") 0) = some cls
  permitted : ∃ perm, ((tablePermissions doc cls).filter fun perm =>
      jobjStr perm (lit "lo") [] hesPathMax = atAddress).getLast? = some perm ∧
    perm.getString (lit "vn") = some (lit "fl")

/-- The rows tell in the document what they tell in the tables: the secret is there, not empty and
not cut; the two references are one integer, neither a default nor narrowed; the name is not cut;
and for the address the class reaches, as the document has it, a permission that lets the value
flow as the last one. -/
structure ToldAlike (doc cred cls : Json) (atAddress : CStr) : Prop where
  secret : HoldsText cred (lit "ci") authSecretMax ∧ cred.getString (lit "ci") ≠ some []
  reference : sameInt cred (lit "id") cls (lit "cr") = true
  name : ∀ s ∈ cls.getString (lit "fn"), s.length < authNameMax
  permitted : ∃ perm, ((documentPermissions doc cls).filter fun perm =>
      perm.getString (lit "lo") = some atAddress).getLast? = some perm ∧
    perm.getString (lit "vn") = some (lit "fl")

/-- So do the rows through which the tables open an address. -/
def TablesTell (doc : Json) : Prop :=
  ∀ cred cls atAddress, OpensThrough doc cred cls atAddress → ToldAlike doc cred cls atAddress

/-- Each secret, as the table holds it, belongs to one credentials row, and each reference to one
class. -/
structure KeysApart (doc : Json) : Prop where
  secrets : ∀ row ∈ doc.rows (lit "credentials"), ∀ row' ∈ doc.rows (lit "credentials"),
    storedSecret row = storedSecret row' → row = row'
  classes : ∀ row ∈ doc.rows (lit "authClasses"), ∀ row' ∈ doc.rows (lit "authClasses"),
    jobjInt row (lit "cr") 0 = jobjInt row' (lit "cr") 0 → row = row'

/-- The class refers to the credentials row, a valid one. -/
def RefersTo (cls cred : Json) : Prop :=
  cred.getString (lit "cv") = some (lit "ye") ∧
    jobjInt cls (lit "cr") 0 = jobjInt cred (lit "id") 0

/-- The class refers to some credentials row. -/
def Referred (doc cls : Json) : Prop := ∃ cred ∈ doc.rows (lit "credentials"), RefersTo cls cred

/-- The row of "permissionGroups" belongs to such a class. -/
def ReachedGroup (doc grp : Json) : Prop :=
  grp.getString (lit "pt") = some (lit "ps") ∧ ∃ cls ∈ doc.rows (lit "authClasses"),
    Referred doc cls ∧ jobjInt grp (lit "pi") 0 = jobjInt cls (lit "pi") 0

/-- The row of "permissionServices" belongs to such a group. -/
def ReachedPermission (doc perm : Json) : Prop :=
  ∃ grp ∈ doc.rows (lit "permissionGroups"), ReachedGroup doc grp ∧
    jobjInt perm (lit "pi") 0 = jobjInt grp (lit "pr") 0

/-- The members of the rows that a call can reach fit the tables, and the tables of the walk have
room for these rows. -/
structure FitsTables (doc : Json) : Prop where
  credentials : ∀ row ∈ doc.rows (lit "credentials"),
    (∃ cls ∈ doc.rows (lit "authClasses"), RefersTo cls row) →
      HoldsInt row (lit "id") ∧ HoldsText row (lit "ci") authSecretMax ∧
        row.getString (lit "ci") ≠ some []
  classes : ∀ row ∈ doc.rows (lit "authClasses"), Referred doc row →
    HoldsInt row (lit "cr") ∧ HoldsInt row (lit "pi") ∧ HoldsText row (lit "st") authCodeSize ∧
      ∀ s ∈ row.getString (lit "fn"), s.length < authNameMax
  groups : ∀ row ∈ doc.rows (lit "permissionGroups"), ReachedGroup doc row →
    HoldsInt row (lit "pi") ∧ HoldsInt row (lit "pr")
  permissions : ∀ row ∈ doc.rows (lit "permissionServices"), ReachedPermission doc row →
    HoldsInt row (lit "pi") ∧ HoldsText row (lit "st") authCodeSize ∧
      HoldsText row (lit "lo") hesPathMax
  groupRoom : ∀ row ∈ (doc.rows (lit "permissionGroups")).drop authMaxGroups,
    ¬ ReachedGroup doc row
  permissionRoom : ∀ row ∈ (doc.rows (lit "permissionServices")).drop authMaxPermissions,
    ¬ ReachedPermission doc row

section Members

variable {row row' : Json} {key key' : CStr}

/-- INTERNAL: an integer that fits is read as it is. -/
theorem HoldsInt.jobjInt (h : HoldsInt row key) (dflt : ℤ) :
    row.getInt key = some (jobjInt row key dflt) := by
  obtain ⟨n, hn, hfits⟩ := h
  rw [Option.mem_def] at hn
  simp [Model.jobjInt, hn, toInt32_of_fits n hfits]

/-- INTERNAL: a text that fits is read as it is. -/
theorem HoldsText.jobjStr {cap : ℕ} (h : HoldsText row key cap) (dst : CStr) :
    row.getString key = some (jobjStr row key dst cap) := by
  obtain ⟨s, hs, hlen⟩ := h
  rw [Option.mem_def] at hs
  have hcopy : hesStrlcpy cap s = s := List.take_of_length_le (by omega)
  simp [Model.jobjStr, hs, hcopy]

/-- INTERNAL: where both rows have the number it is compared as it is read. -/
theorem sameInt_iff (h : HoldsInt row key) (h' : HoldsInt row' key') :
    sameInt row key row' key' = decide (jobjInt row key 0 = jobjInt row' key' 0) := by
  unfold sameInt
  rw [h.jobjInt 0, h'.jobjInt 0]
  simp

/-- INTERNAL: and so is a text that fits its array. -/
theorem sameText_iff {cap cap' : ℕ} (h : HoldsText row key cap) (h' : HoldsText row' key' cap') :
    sameText row key row' key' =
      decide (jobjStr row key [] cap = jobjStr row' key' [] cap') := by
  unfold sameText
  rw [h.jobjStr [], h'.jobjStr []]
  simp

/-- INTERNAL: a text that is read fits its array, whatever the document has. -/
theorem jobjStr_length (row : Json) (key : CStr) (cap : ℕ) (h : 0 < cap) :
    (jobjStr row key [] cap).length < cap := by
  unfold Model.jobjStr
  cases row.getString key with
  | none => exact h
  | some s =>
    show (s.take (cap - 1)).length < cap
    rw [List.length_take]
    omega

/-- INTERNAL: a text that does not fit is read as its start. -/
theorem jobjStr_cut {row : Json} {key s : CStr} {cap : ℕ} (hs : row.getString key = some s)
    (h : cap ≤ s.length) (hcap : 1 < cap) :
    jobjStr row key [] cap ≠ [] ∧ jobjStr row key [] cap ≠ s := by
  have hcut : jobjStr row key [] cap = s.take (cap - 1) := by
    unfold Model.jobjStr
    rw [hs]
    rfl
  have hlen : (jobjStr row key [] cap).length = cap - 1 := by
    rw [hcut, List.length_take]
    omega
  constructor
  · intro hnil
    rw [hnil] at hlen
    simp only [List.length_nil] at hlen
    omega
  · intro hwhole
    rw [hwhole] at hlen
    omega

/-- INTERNAL: a code is recognised exactly when the document gives it: it is shorter than what
the array holds, so no longer text is cut to it. -/
theorem jobjStr_eq_code (row : Json) (key code : CStr) (cap : ℕ) (hne : code ≠ [])
    (hlen : code.length + 1 < cap) :
    jobjStr row key [] cap = code ↔ row.getString key = some code := by
  unfold jobjStr hesStrlcpy boundedCopy
  cases hs : row.getString key with
  | none => simpa using hne
  | some s =>
    simp only [Option.map_some, Option.getD_some, Option.some.injEq]
    constructor
    · intro h
      have hlen' : (s.take (cap - 1)).length = code.length := by rw [h]
      rw [List.length_take] at hlen'
      rwa [List.take_of_length_le (by omega)] at h
    · rintro rfl
      exact List.take_of_length_le (by omega)

end Members

/-! ## The walk -/

section Walk

variable {doc : Json}

/-- INTERNAL: a row that is held is a row of the section. -/
theorem mem_heldRows {section_ : CStr} {max : ℕ} {row : Json}
    (h : row ∈ heldRows doc section_ max) : row ∈ doc.rows section_ := List.mem_of_mem_take h

/-- INTERNAL: the integers of equal members are read as equal ones. -/
theorem jobjInt_of_sameInt {row row' : Json} {key key' : CStr}
    (h : sameInt row key row' key' = true) : jobjInt row key 0 = jobjInt row' key' 0 := by
  simp only [sameInt, Bool.and_eq_true, decide_eq_true_eq] at h
  unfold jobjInt
  rw [h.2]

/-- INTERNAL: what rows beyond a table's room do not have, its rows have as the document's. -/
theorem filter_heldRows (section_ : CStr) (max : ℕ) (p q : Json → Bool)
    (hheld : ∀ row ∈ doc.rows section_, p row = q row)
    (hroom : ∀ row ∈ (doc.rows section_).drop max, q row = false) :
    (heldRows doc section_ max).filter p = (doc.rows section_).filter q := by
  have hsplit := List.take_append_drop max (doc.rows section_)
  have hdropped : ((doc.rows section_).drop max).filter q = [] := by
    rw [List.filter_eq_nil_iff]
    intro row hrow
    rw [hroom row hrow]
    exact Bool.false_ne_true
  calc (heldRows doc section_ max).filter p
      = (heldRows doc section_ max).filter q :=
        List.filter_congr fun row hrow => hheld row (mem_heldRows hrow)
    _ = ((doc.rows section_).take max ++ (doc.rows section_).drop max).filter q := by
        rw [List.filter_append, hdropped, List.append_nil]
        rfl
    _ = (doc.rows section_).filter q := by rw [hsplit]

/-- INTERNAL: the walk over the tables is the walk over the rows they hold.
SRCLINE: auth.c:509-530 -/
theorem permissionsOf_loaded (doc cls : Json) :
    permissionsOf (loadPolicy (some doc)) (readClass cls) =
      (tablePermissions doc cls).map readPermission := by
  have hgroups : (loadPolicy (some doc)).groups =
      (heldRows doc (lit "permissionGroups") authMaxGroups).map readGroup := rfl
  have hpermissions : (loadPolicy (some doc)).permissions =
      (heldRows doc (lit "permissionServices") authMaxPermissions).map readPermission := rfl
  unfold permissionsOf tablePermissions
  rw [hgroups, hpermissions, List.filter_map, List.flatMap_map, List.map_flatMap]
  have hfilter : ∀ grp : Json,
      ((fun grp : AuthGroup => decide (grp.groupId = (readClass cls).groupId) &&
        decide (grp.tableType = lit "ps")) ∘ readGroup) grp =
      (decide (jobjInt grp (lit "pi") 0 = jobjInt cls (lit "pi") 0) &&
        decide (grp.getString (lit "pt") = some (lit "ps"))) := by
    intro grp
    have hcode := jobjStr_eq_code grp (lit "pt") (lit "ps") authCodeSize (by decide) (by decide)
    rw [← decide_eq_decide.mpr hcode]
    rfl
  rw [List.filter_congr fun grp _ => hfilter grp]
  apply List.flatMap_congr
  intro grp hgrp
  rw [List.filter_map]
  rfl

/-- INTERNAL: in tables that fit, a class that is referred to reaches the rows it reaches in the
document. -/
theorem tablePermissions_of_fits (hfits : FitsTables doc) {cls : Json}
    (hcls : cls ∈ doc.rows (lit "authClasses")) (href : Referred doc cls) :
    tablePermissions doc cls = documentPermissions doc cls := by
  obtain ⟨-, hclsPi, hclsSt, -⟩ := hfits.classes cls hcls href
  have hreached : ∀ grp : Json, jobjInt grp (lit "pi") 0 = jobjInt cls (lit "pi") 0 →
      grp.getString (lit "pt") = some (lit "ps") → ReachedGroup doc grp :=
    fun grp hpi hpt => ⟨hpt, cls, hcls, href, hpi⟩
  unfold tablePermissions documentPermissions
  rw [filter_heldRows (lit "permissionGroups") authMaxGroups _ (fun grp =>
    sameInt grp (lit "pi") cls (lit "pi") && grp.getString (lit "pt") = some (lit "ps"))]
  · apply List.flatMap_congr
    intro grp hgrp
    obtain ⟨hgrp, hof⟩ := List.mem_filter.mp hgrp
    simp only [Bool.and_eq_true, decide_eq_true_eq] at hof
    have hgroup := hreached grp (jobjInt_of_sameInt hof.1) hof.2
    have hpr := (hfits.groups grp hgrp hgroup).2
    apply filter_heldRows
    · intro perm hperm
      by_cases hpi : jobjInt perm (lit "pi") 0 = jobjInt grp (lit "pr") 0
      · have hfit := hfits.permissions perm hperm ⟨grp, hgrp, hgroup, hpi⟩
        rw [sameInt_iff hfit.1 hpr, sameText_iff hfit.2.1 hclsSt]
      · have hno : sameInt perm (lit "pi") grp (lit "pr") = false := by
          rw [Bool.eq_false_iff]
          exact fun hsame => hpi (jobjInt_of_sameInt hsame)
        rw [hno, decide_eq_false hpi, Bool.false_and, Bool.false_and]
    · intro perm hperm
      rw [Bool.eq_false_iff]
      intro hmeant
      rw [Bool.and_eq_true] at hmeant
      exact hfits.permissionRoom perm hperm
        ⟨grp, hgrp, hgroup, jobjInt_of_sameInt hmeant.1⟩
  · intro grp hgrp
    by_cases hof : jobjInt grp (lit "pi") 0 = jobjInt cls (lit "pi") 0 ∧
        grp.getString (lit "pt") = some (lit "ps")
    · have hpi := (hfits.groups grp hgrp (hreached grp hof.1 hof.2)).1
      rw [sameInt_iff hpi hclsPi]
    · have hno : (sameInt grp (lit "pi") cls (lit "pi") &&
          decide (grp.getString (lit "pt") = some (lit "ps"))) = false := by
        rw [Bool.eq_false_iff]
        intro hmeant
        simp only [Bool.and_eq_true, decide_eq_true_eq] at hmeant
        exact hof ⟨jobjInt_of_sameInt hmeant.1, hmeant.2⟩
      rw [hno, Bool.eq_false_iff]
      intro hread
      simp only [Bool.and_eq_true, decide_eq_true_eq] at hread
      exact hof hread
  · intro grp hgrp
    rw [Bool.eq_false_iff]
    intro hmeant
    simp only [Bool.and_eq_true, decide_eq_true_eq] at hmeant
    exact hfits.groupRoom grp hgrp (hreached grp (jobjInt_of_sameInt hmeant.1) hmeant.2)

end Walk

/-! ## Calls -/

/-- INTERNAL: a stored credential matches exactly what is presented up to the first ';'.
SRCLINE: auth.c:399-403 -/
theorem credentialMatches_iff (stored presented : CStr) :
    credentialMatches stored presented = true ↔ stored = presentedToken presented := by
  unfold credentialMatches presentedToken
  have htake := List.takeWhile_prefix (l := presented) fun c => decide (c ≠ 59)
  rw [List.prefix_iff_eq_take] at htake
  simp only [Bool.and_eq_true, decide_eq_true_eq]
  constructor
  · rintro ⟨-, h⟩
    rw [h, ← htake]
  · rintro rfl
    exact ⟨rfl, htake⟩

/-- INTERNAL: what a granted call goes through in the tables.
SRCLINE: auth.c:456-543 -/
theorem authServiceAuthorize_true (st : AuthServiceState) (credInfo userName atAddress : CStr) :
    authServiceAuthorize st credInfo userName atAddress = true ↔
      (st.loaded = true ∧ credInfo ≠ []) ∧ ∃ cred cls perm,
        st.credentials.find? (fun cred => credentialMatches cred.info credInfo) = some cred ∧
        cred.valid = true ∧
        st.classes.find? (fun cls => cls.credentialRef = cred.credId) = some cls ∧
        (userName = [] ∨ userName = cls.name) ∧
        ((permissionsOf st cls).filter fun perm => perm.lexiconObject = atAddress).getLast? =
          some perm ∧ perm.valueNew = lit "fl" := by
  constructor
  · intro h
    unfold authServiceAuthorize at h
    split at h
    · cases h
    next hasked =>
      split at h
      · cases h
      next cred hcred =>
        split at h
        · cases h
        next hvalid =>
          split at h
          · cases h
          next cls hcls =>
            split at h
            · cases h
            next hname =>
              dsimp only at h
              split at h
              · cases h
              next perm hperm =>
                refine ⟨by simpa using hasked, cred, cls, perm, hcred, by simpa using hvalid, hcls,
                  ?_, hperm, by simpa using h⟩
                by_cases hempty : userName = []
                · exact Or.inl hempty
                · exact Or.inr (by simpa [hempty] using hname)
  · rintro ⟨⟨hloaded, hne⟩, cred, cls, perm, hcred, hvalid, hcls, hname, hperm, hfl⟩
    unfold authServiceAuthorize
    simp only [hloaded, hne, hcred, hvalid, hcls, hperm, hfl]
    simpa [← or_iff_not_imp_left] using hname

/-- INTERNAL: the search for the credential is one over the rows that the table holds. -/
theorem credentials_find (doc : Json) (credInfo : CStr) :
    (loadPolicy (some doc)).credentials.find? (fun cred => credentialMatches cred.info credInfo) =
      ((heldRows doc (lit "credentials") authMaxCredentials).find?
        fun row => storedSecret row = presentedToken credInfo).map readCredential := by
  have hmatch : ∀ row : Json, ((fun cred : AuthCredential => credentialMatches cred.info credInfo) ∘
      readCredential) row = decide (storedSecret row = presentedToken credInfo) := by
    intro row
    rw [Bool.eq_iff_iff, decide_eq_true_eq]
    exact credentialMatches_iff _ _
  rw [← funext hmatch]
  exact List.find?_map

/-- INTERNAL: so is the search for the class. -/
theorem classes_find (doc cred : Json) :
    (loadPolicy (some doc)).classes.find?
        (fun cls => cls.credentialRef = (readCredential cred).credId) =
      ((heldRows doc (lit "authClasses") authMaxClasses).find?
        fun row => jobjInt row (lit "cr") 0 = jobjInt cred (lit "id") 0).map readClass :=
  List.find?_map

/-- INTERNAL: and the last permission for the address is that of the walk over the rows. -/
theorem permissions_last (doc cls : Json) (atAddress : CStr) :
    ((permissionsOf (loadPolicy (some doc)) (readClass cls)).filter
        fun perm => perm.lexiconObject = atAddress).getLast? =
      (((tablePermissions doc cls).filter fun perm =>
        jobjStr perm (lit "lo") [] hesPathMax = atAddress).getLast?).map readPermission := by
  rw [permissionsOf_loaded, List.filter_map, List.getLast?_map]
  rfl

/-- INTERNAL: **a call is granted** exactly when the tables open the address through the rows of
what it presents, and a name that is supplied is the class's. -/
theorem authServiceAuthorize_iff (doc : Json) (credInfo userName atAddress : CStr) :
    authServiceAuthorize (loadPolicy (some doc)) credInfo userName atAddress = true ↔
      credInfo ≠ [] ∧ ∃ cred cls, OpensThrough doc cred cls atAddress ∧
        storedSecret cred = presentedToken credInfo ∧
        (userName = [] ∨ userName = jobjStr cls (lit "fn") [] authNameMax) := by
  have hvalid : ∀ cred : Json, (readCredential cred).valid = true ↔
      cred.getString (lit "cv") = some (lit "ye") := fun cred =>
    decide_eq_true_iff.trans (jobjStr_eq_code cred (lit "cv") (lit "ye") 4 (by decide) (by decide))
  have hflows : ∀ perm : Json, (readPermission perm).valueNew = lit "fl" ↔
      perm.getString (lit "vn") = some (lit "fl") := fun perm =>
    jobjStr_eq_code perm (lit "vn") (lit "fl") authCodeSize (by decide) (by decide)
  rw [authServiceAuthorize_true, credentials_find]
  constructor
  · rintro ⟨⟨-, hne⟩, _, _, _, hcred, hval, hcls, hname, hperm, hfl⟩
    obtain ⟨cred, hfirst, rfl⟩ := Option.map_eq_some_iff.mp hcred
    rw [classes_find] at hcls
    obtain ⟨cls, hresolves, rfl⟩ := Option.map_eq_some_iff.mp hcls
    rw [permissions_last] at hperm
    obtain ⟨perm, hpermitted, rfl⟩ := Option.map_eq_some_iff.mp hperm
    have hstored : storedSecret cred = presentedToken credInfo := by
      have htest := List.find?_some hfirst
      exact of_decide_eq_true htest
    refine ⟨hne, cred, cls, ⟨?_, ?_, (hvalid cred).mp hval, hresolves, perm, hpermitted,
      (hflows perm).mp hfl⟩, hstored, hname⟩
    · rw [hstored]
      exact hfirst
    · rw [hstored]
      intro c hc
      have htest := List.all_eq_true.mp (List.all_takeWhile (p := fun c => decide (c ≠ 59))
        (l := credInfo)) c hc
      exact of_decide_eq_true htest
  · rintro ⟨hne, cred, cls, hopens, hstored, hname⟩
    obtain ⟨perm, hpermitted, hfl⟩ := hopens.permitted
    have hfirst := hopens.first
    rw [hstored] at hfirst
    refine ⟨⟨rfl, hne⟩, readCredential cred, readClass cls, readPermission perm, ?_,
      (hvalid cred).mpr hopens.valid, ?_, hname, ?_, (hflows perm).mpr hfl⟩
    · rw [hfirst]
      rfl
    · rw [classes_find, hopens.resolves]
      rfl
    · rw [permissions_last, hpermitted]
      rfl

/-! ## Soundness -/

/-- Every call that is granted is one that the document grants. -/
def Sound (doc : Json) : Prop :=
  ∀ credInfo userName atAddress,
    authServiceAuthorize (loadPolicy (some doc)) credInfo userName atAddress = true →
      DocumentGrants doc credInfo userName atAddress

/-- INTERNAL: a row that a search over a table finds is one of the document. -/
theorem mem_of_find?_heldRows {doc : Json} {section_ : CStr} {max : ℕ} {p : Json → Bool}
    {row : Json} (h : (heldRows doc section_ max).find? p = some row) :
    row ∈ doc.rows section_ ∧ p row = true :=
  ⟨mem_heldRows (List.mem_of_find?_eq_some h), List.find?_some h⟩

/-- INTERNAL: rows that tell in the document what they tell in the tables grant there what the
tables grant. -/
theorem sound_of_tablesTell (doc : Json) (htell : TablesTell doc) : Sound doc := by
  intro credInfo userName atAddress hgranted
  obtain ⟨-, cred, cls, hopens, hstored, hname⟩ :=
    (authServiceAuthorize_iff doc credInfo userName atAddress).mp hgranted
  obtain ⟨⟨htext, hempty⟩, hreference, hfits, hpermitted⟩ := htell cred cls atAddress hopens
  have htoken : cred.getString (lit "ci") = some (presentedToken credInfo) := by
    rw [htext.jobjStr [], ← hstored]
    rfl
  simp only [sameInt, Bool.and_eq_true, decide_eq_true_eq, Option.isSome_iff_exists] at hreference
  obtain ⟨⟨n, hn⟩, hsame⟩ := hreference
  refine ⟨cred, (mem_of_find?_heldRows hopens.first).1, cls,
    (mem_of_find?_heldRows hopens.resolves).1, ?_, htoken, hopens.valid, ⟨n, hn, hsame ▸ hn⟩, ?_,
    hpermitted⟩
  · intro hnil
    rw [hnil] at htoken
    exact hempty htoken
  · rcases hname with hnone | hname
    · exact Or.inl hnone
    · cases hs : cls.getString (lit "fn") with
      | none =>
        left
        rw [hname]
        simp [Model.jobjStr, hs]
      | some s =>
        right
        have hheld : HoldsText cls (lit "fn") authNameMax := ⟨s, hs, hfits s hs⟩
        rw [← hs, hheld.jobjStr [], hname]

/-- INTERNAL: **the converse**, where each key belongs to one row: the call that presents the
stored secret and the stored name is granted, and the document can grant it through the same rows
only. -/
theorem tablesTell_of_sound (doc : Json) (hkeys : KeysApart doc) (hsound : Sound doc) :
    TablesTell doc := by
  intro cred cls atAddress hopens
  have hcred := (mem_of_find?_heldRows hopens.first).1
  obtain ⟨hcls, hrefers⟩ := mem_of_find?_heldRows hopens.resolves
  have htoken : presentedToken (storedSecret cred ++ [59]) = storedSecret cred :=
    (takeWhile_of_stop (fun c => decide (c ≠ 59)) _ [59] (by simpa using hopens.plain)
      (by simp)).1
  have hgranted : authServiceAuthorize (loadPolicy (some doc)) (storedSecret cred ++ [59])
      (jobjStr cls (lit "fn") [] authNameMax) atAddress = true :=
    (authServiceAuthorize_iff _ _ _ _).mpr
      ⟨by simp, cred, cls, hopens, htoken.symm, Or.inr rfl⟩
  obtain ⟨cred', hcred', cls', hcls', hthrough⟩ := hsound _ _ _ hgranted
  have hci := hthrough.credential
  have hpresented := hthrough.presented
  rw [htoken] at hci hpresented
  have hshort : (storedSecret cred).length < authSecretMax := jobjStr_length _ _ _ (by decide)
  have hheld : HoldsText cred' (lit "ci") authSecretMax := ⟨_, hci, hshort⟩
  obtain rfl : cred' = cred := by
    apply hkeys.secrets cred' hcred' cred hcred
    have hstored := hheld.jobjStr []
    exact Option.some.inj (hstored.symm.trans hci)
  obtain ⟨n, hid, hcr⟩ := hthrough.resolves
  obtain rfl : cls' = cls := by
    apply hkeys.classes cls' hcls' cls hcls
    have href : jobjInt cls (lit "cr") 0 = jobjInt cred' (lit "id") 0 := of_decide_eq_true hrefers
    rw [href]
    unfold jobjInt
    rw [hcr, hid]
  refine ⟨⟨hheld, ?_⟩, ?_, ?_, hthrough.permitted⟩
  · rw [hci]
    exact fun hnil => hpresented (Option.some.inj hnil)
  · simp [sameInt, hid, hcr]
  · intro s hs
    rw [Option.mem_def] at hs
    by_contra hlong
    -- the cut name is not the class's, so the document does not grant the call
    obtain ⟨hnonempty, hcut⟩ := jobjStr_cut hs (Nat.le_of_not_lt hlong) (by decide)
    rcases hthrough.named with hnil | hname
    · exact hnonempty hnil
    · exact hcut (Option.some.inj (hs.symm.trans hname)).symm

/-- INTERNAL: rows that fit the tables tell the same there. -/
theorem tablesTell_of_fits (doc : Json) (hfits : FitsTables doc) : TablesTell doc := by
  intro cred cls atAddress hopens
  have hcred := (mem_of_find?_heldRows hopens.first).1
  obtain ⟨hcls, hrefers⟩ := mem_of_find?_heldRows hopens.resolves
  have hrefersTo : RefersTo cls cred := ⟨hopens.valid, of_decide_eq_true hrefers⟩
  have href : Referred doc cls := ⟨cred, hcred, hrefersTo⟩
  obtain ⟨hid, hci, hempty⟩ := hfits.credentials cred hcred ⟨cls, hcls, hrefersTo⟩
  obtain ⟨hcr, -, -, hfn⟩ := hfits.classes cls hcls href
  obtain ⟨perm, hlast, hfl⟩ := hopens.permitted
  rw [tablePermissions_of_fits hfits hcls href] at hlast
  refine ⟨⟨hci, hempty⟩, ?_, hfn, perm, ?_, hfl⟩
  · rw [sameInt_iff hid hcr, hrefersTo.2]
    exact decide_eq_true rfl
  · rw [← hlast]
    congr 1
    apply List.filter_congr
    intro perm hperm
    obtain ⟨grp, hgrp, hof⟩ := List.mem_flatMap.mp hperm
    obtain ⟨hgrp, hofGroup⟩ := List.mem_filter.mp hgrp
    obtain ⟨hperm, hofPermission⟩ := List.mem_filter.mp hof
    rw [Bool.and_eq_true] at hofGroup hofPermission
    have hgroup : ReachedGroup doc grp := ⟨of_decide_eq_true hofGroup.2, cls, hcls, href,
      jobjInt_of_sameInt hofGroup.1⟩
    have htext := (hfits.permissions perm hperm
      ⟨grp, hgrp, hgroup, jobjInt_of_sameInt hofPermission.1⟩).2.2
    rw [decide_eq_decide, htext.jobjStr [], Option.some.injEq]

/-- **Soundness against the document.** Every call that is granted is one that the document
grants, as long as the rows through which the tables open an address tell the same in the
document; where each key belongs to one row, then only; and rows that fit the tables do.
SRCLINE: auth.c:147-169, 192-298, 399-403, 456-543 -/
theorem authorize_document (doc : Json) :
    (TablesTell doc → Sound doc) ∧ (KeysApart doc → (Sound doc ↔ TablesTell doc)) ∧
      (FitsTables doc → TablesTell doc) :=
  ⟨sound_of_tablesTell doc, fun hkeys => ⟨tablesTell_of_sound doc hkeys, sound_of_tablesTell doc⟩,
    tablesTell_of_fits doc⟩

/-! ## A credentials row without 'ci' -/

/-- An object with text and integer members. -/
def row (ints : List (String × ℤ)) (texts : List (String × String)) : Json :=
  .object ((ints.map fun p => (lit p.1, .integer p.2)) ++
    texts.map fun p => (lit p.1, .string (lit p.2)))

/-- A document that lets one class act on one address; its credentials row is a parameter. -/
def parentPolicy (credential : Json) : Json :=
  .object [
    (lit "authClasses",
      .array [row [("ci", 1), ("pi", 10), ("cr", 1)] [("fn", "parent"), ("st", "au")]]),
    (lit "credentials", .array [credential]),
    (lit "permissionGroups", .array [row [("pi", 10), ("pr", 101)] [("pt", "ps")]]),
    (lit "permissionServices",
      .array [row [("pi", 101), ("di", 2)]
        [("st", "au"), ("lo", "/lx/ob/bm/ot1/op1/at"), ("vn", "fl")]])]

/-- A valid credential without its secret is met by ';' alone: the table holds an empty text for
it. -/
theorem missing_secret_granted :
    authServiceAuthorize (loadPolicy (some (parentPolicy (row [("id", 1)] [("cv", "ye")]))))
        (lit ";") [] (lit "/lx/ob/bm/ot1/op1/at") = true ∧
      ¬ DocumentGrants (parentPolicy (row [("id", 1)] [("cv", "ye")]))
        (lit ";") [] (lit "/lx/ob/bm/ot1/op1/at") := by
  refine ⟨by decide +kernel, ?_⟩
  rintro ⟨cred, -, cls, -, h⟩
  exact h.presented (by decide)

/-- The document with its secret. -/
def parentDocument : Json := parentPolicy (row [("id", 1)] [("ci", "parent-key"), ("cv", "ye")])

/-- INTERNAL: its members fit the tables. -/
theorem parentDocument_fits : FitsTables parentDocument where
  credentials row hrow _ := by
    have hall : ∀ row ∈ parentDocument.rows (lit "credentials"),
        HoldsInt row (lit "id") ∧ HoldsText row (lit "ci") authSecretMax ∧
          row.getString (lit "ci") ≠ some [] := by decide +kernel
    exact hall row hrow
  classes row hrow _ := by
    have hall : ∀ row ∈ parentDocument.rows (lit "authClasses"),
        HoldsInt row (lit "cr") ∧ HoldsInt row (lit "pi") ∧
          HoldsText row (lit "st") authCodeSize ∧
            ∀ s ∈ row.getString (lit "fn"), s.length < authNameMax := by decide +kernel
    exact hall row hrow
  groups row hrow _ := by
    have hall : ∀ row ∈ parentDocument.rows (lit "permissionGroups"),
        HoldsInt row (lit "pi") ∧ HoldsInt row (lit "pr") := by decide +kernel
    exact hall row hrow
  permissions row hrow _ := by
    have hall : ∀ row ∈ parentDocument.rows (lit "permissionServices"),
        HoldsInt row (lit "pi") ∧ HoldsText row (lit "st") authCodeSize ∧
          HoldsText row (lit "lo") hesPathMax := by decide +kernel
    exact hall row hrow
  groupRoom row hrow := by
    have hnone : (parentDocument.rows (lit "permissionGroups")).drop authMaxGroups = [] := by
      decide +kernel
    rw [hnone] at hrow
    exact absurd hrow List.not_mem_nil
  permissionRoom row hrow := by
    have hnone : (parentDocument.rows (lit "permissionServices")).drop authMaxPermissions = [] := by
      decide +kernel
    rw [hnone] at hrow
    exact absurd hrow List.not_mem_nil

/-- So the call it grants is one that the document grants. -/
theorem authorize_document_parent :
    authServiceAuthorize (loadPolicy (some parentDocument)) (lit "parent-key;pi=1") (lit "parent")
        (lit "/lx/ob/bm/ot1/op1/at") = true ∧
      DocumentGrants parentDocument (lit "parent-key;pi=1") (lit "parent")
        (lit "/lx/ob/bm/ot1/op1/at") := by
  have hgranted : authServiceAuthorize (loadPolicy (some parentDocument)) (lit "parent-key;pi=1")
      (lit "parent") (lit "/lx/ob/bm/ot1/op1/at") = true := by decide +kernel
  obtain ⟨hsound, -, hfits⟩ := authorize_document parentDocument
  exact ⟨hgranted, hsound (hfits parentDocument_fits) _ _ _ hgranted⟩

end OpenHes.Analysis
