import OpenHes.Analysis.PolicySoundness
import OpenHes.Model.BindingMap
import Mathlib.Data.List.Induction

/-!
# Stored and per-message authorization agree

`auth_service_propagate` writes every applicable permission of every class into the rows of
the binding map; `auth_service_authorize` looks for the last applicable permission of one
class. Both walk the tables in the same order, so what is left in a row after propagation
is what the only class with a say in it is told for a message.
-/

set_option autoImplicit false

namespace OpenHes.Analysis

open OpenHes.Library OpenHes.Model

variable {V : Type}

/-- The first row that carries an authorType address. -/
def firstRow (atAddress : CStr) (ops : List (BmOperation V)) : Option (BmOperation V) :=
  ops.find? fun op => bmAtAddress op = atAddress

/-- The row with a new authorType. -/
def withAuthorType (value : CStr) (op : BmOperation V) : BmOperation V :=
  { op with outAuthorType := hesStrlcpy 4 value }

/-- The last permission for an address in a walk. -/
def lastFor (atAddress : CStr) (perms : List AuthPermission) : Option AuthPermission :=
  (perms.filter fun perm => perm.lexiconObject = atAddress).getLast?

/-- INTERNAL: a write goes to the first row with its address, and fails when there is none.
SRCLINE: bm.c:833-847 -/
theorem setAtOps_firstRow (written value atAddress : CStr) (ops : List (BmOperation V)) :
    firstRow atAddress ((setAtOps written value ops).getD ops) =
      if written = atAddress then (firstRow atAddress ops).map (withAuthorType value)
      else firstRow atAddress ops := by
  induction ops with
  | nil => simp [setAtOps, firstRow]
  | cons op rest ih =>
    unfold setAtOps
    by_cases hop : bmAtAddress op = written
    · rw [if_pos hop]
      by_cases hsame : written = atAddress
      · subst hsame
        have hnew : bmAtAddress (withAuthorType value op) = written := hop
        rw [if_pos rfl]
        show firstRow written (withAuthorType value op :: rest) = _
        simp [firstRow, hop, hnew]
      · have hne : bmAtAddress op ≠ atAddress := fun h => hsame (hop.symm.trans h)
        have hnew : bmAtAddress (withAuthorType value op) ≠ atAddress := hne
        rw [if_neg hsame]
        show firstRow atAddress (withAuthorType value op :: rest) = _
        simp [firstRow, hne, hnew]
    · rw [if_neg hop]
      have hkeep : ((setAtOps written value rest).map (op :: ·)).getD (op :: rest) =
          op :: (setAtOps written value rest).getD rest := by
        cases setAtOps written value rest <;> rfl
      rw [hkeep]
      by_cases hhere : bmAtAddress op = atAddress
      · have hne : written ≠ atAddress := fun h => hop (hhere.trans h.symm)
        simp [firstRow, hhere, hne]
      · have hskip : ∀ l, firstRow atAddress (op :: l) = firstRow atAddress l := by
          intro l
          simp [firstRow, hhere]
        rw [hskip, hskip, ih]

/-- INTERNAL: a permission that is propagated changes the rows as a write does, if it finds any. -/
theorem propagateWrite_ops (acc : BindingMap V × ℕ) (perm : AuthPermission) :
    (propagateWrite bmSetAt acc perm).1.ops =
      (setAtOps perm.lexiconObject perm.valueNew acc.1.ops).getD acc.1.ops := by
  unfold propagateWrite bmSetAt
  cases setAtOps perm.lexiconObject perm.valueNew acc.1.ops <;> rfl

/-- INTERNAL: **after a walk of writes** the first row with an address holds what the last write
for it said; the induction takes the last write off. -/
theorem propagate_firstRow (atAddress : CStr) (perms : List AuthPermission)
    (acc : BindingMap V × ℕ) :
    firstRow atAddress (perms.foldl (propagateWrite bmSetAt) acc).1.ops =
      match lastFor atAddress perms with
      | none => firstRow atAddress acc.1.ops
      | some perm => (firstRow atAddress acc.1.ops).map (withAuthorType perm.valueNew) := by
  induction perms using List.reverseRecOn with
  | nil => rfl
  | append_singleton perms perm ih =>
    rw [List.foldl_append, List.foldl_cons, List.foldl_nil, propagateWrite_ops, setAtOps_firstRow, ih]
    by_cases hperm : perm.lexiconObject = atAddress
    · have hlast : lastFor atAddress (perms ++ [perm]) = some perm := by
        simp [lastFor, hperm]
      rw [if_pos hperm, hlast]
      cases lastFor atAddress perms with
      | none => rfl
      | some before => cases firstRow atAddress acc.1.ops <;> rfl
    · have hlast : lastFor atAddress (perms ++ [perm]) = lastFor atAddress perms := by
        simp [lastFor, hperm]
      rw [if_neg hperm, hlast]

/-- INTERNAL: a class without a permission for an address adds nothing to the walk. -/
theorem lastFor_flatMap_none (st : AuthServiceState) (atAddress : CStr) (others : List AuthClass)
    (h : ∀ c ∈ others, ∀ perm ∈ permissionsOf st c, perm.lexiconObject ≠ atAddress) :
    (others.flatMap (permissionsOf st)).filter (fun perm => perm.lexiconObject = atAddress) = [] := by
  rw [List.filter_eq_nil_iff]
  intro perm hperm
  obtain ⟨c, hc, hmem⟩ := List.mem_flatMap.mp hperm
  simpa using h c hc perm hmem

/-- INTERNAL: the answer for a credential that resolves to a class.
SRCLINE: auth.c:456-543 -/
theorem authServiceAuthorize_resolved (st : AuthServiceState) (credInfo userName atAddress : CStr)
    {cred : AuthCredential} {cls : AuthClass} (hloaded : st.loaded = true) (hne : credInfo ≠ [])
    (hcred : st.credentials.find? (fun cred => credentialMatches cred.info credInfo) = some cred)
    (hvalid : cred.valid = true)
    (hcls : st.classes.find? (fun cls => cls.credentialRef = cred.credId) = some cls)
    (hname : userName = [] ∨ userName = cls.name) :
    authServiceAuthorize st credInfo userName atAddress =
      ((lastFor atAddress (permissionsOf st cls)).any fun perm => perm.valueNew = lit "fl") := by
  have hallowed : (decide (userName ≠ []) && decide (userName ≠ cls.name)) = false := by
    rcases hname with h | h <;> simp [h]
  unfold authServiceAuthorize lastFor
  simp only [hloaded, hne, hcred, hvalid, hcls, hallowed]
  simp only [Bool.not_true, decide_false, Bool.or_self, Bool.false_eq_true, if_false]
  cases (List.filter _ (permissionsOf st cls)).getLast? <;> rfl

/-- For a policy and a binding map, an address `A` carried by some row, `r` the first, and a
class with a permission for `A` when no other class has one: a message whose non-empty
credential resolves to the class is authorized for `A` exactly when propagation leaves `r`
with the authorType 'fl'. -/
theorem modes_agree (st : AuthServiceState) (hloaded : st.loaded = true) (bm : BindingMap V)
    (atAddress : CStr) (r : BmOperation V) (hrow : firstRow atAddress bm.ops = some r)
    (before after : List AuthClass) (cls : AuthClass) (hclasses : st.classes = before ++ cls :: after)
    (happlies : ∃ perm ∈ permissionsOf st cls, perm.lexiconObject = atAddress)
    (hothers : ∀ c ∈ before ++ after, ∀ perm ∈ permissionsOf st c, perm.lexiconObject ≠ atAddress)
    (credInfo userName : CStr) (hne : credInfo ≠ []) (cred : AuthCredential)
    (hcred : st.credentials.find? (fun cred => credentialMatches cred.info credInfo) = some cred)
    (hvalid : cred.valid = true)
    (hcls : st.classes.find? (fun cls => cls.credentialRef = cred.credId) = some cls)
    (hname : userName = [] ∨ userName = cls.name) :
    authServiceAuthorize st credInfo userName atAddress = true ↔
      firstRow atAddress (authServicePropagate st bmSetAt bm).1.ops =
        some { r with outAuthorType := lit "fl" } := by
  -- the walk of all classes ends, for this address, as the walk of the class does
  have hwalk : lastFor atAddress (st.classes.flatMap (permissionsOf st)) =
      lastFor atAddress (permissionsOf st cls) := by
    have hbefore := lastFor_flatMap_none st atAddress before fun c hc =>
      hothers c (List.mem_append_left _ hc)
    have hafter := lastFor_flatMap_none st atAddress after fun c hc =>
      hothers c (List.mem_append_right _ hc)
    unfold lastFor
    rw [hclasses, List.flatMap_append, List.flatMap_cons, List.filter_append, List.filter_append,
      hbefore, hafter, List.nil_append, List.append_nil]
  obtain ⟨perm, hperm⟩ : ∃ perm, lastFor atAddress (permissionsOf st cls) = some perm := by
    obtain ⟨perm, hmem, haddr⟩ := happlies
    have hin : perm ∈ (permissionsOf st cls).filter fun p => p.lexiconObject = atAddress :=
      List.mem_filter.mpr ⟨hmem, by simpa using haddr⟩
    exact ⟨_, List.getLast?_eq_getLast_of_ne_nil (List.ne_nil_of_mem hin)⟩
  rw [authServiceAuthorize_resolved st credInfo userName atAddress hloaded hne hcred hvalid hcls
    hname]
  unfold authServicePropagate
  rw [propagate_firstRow, hwalk, hperm]
  simp only [Option.any_some, decide_eq_true_eq, hrow, Option.map_some, Option.some.injEq]
  constructor
  · intro hfl
    rw [hfl]
    rfl
  · intro h
    have hcopy : hesStrlcpy 4 perm.valueNew = lit "fl" := congrArg BmOperation.outAuthorType h
    -- a text that is cut to three bytes has three bytes
    have hlen : (perm.valueNew.take 3).length = 2 := congrArg List.length hcopy
    rw [List.length_take] at hlen
    rwa [hesStrlcpy, boundedCopy, List.take_of_length_le (by omega)] at hcopy

/-! ## One class, one row -/

/-- A row with the address of the document's permission. -/
def lightRow : BmOperation Binary64 :=
  { operation := lit "gt", tableCode := lit "ot1", inputs := [], outCode := lit "op1" }

/-- The map with this row. -/
def lightMap : BindingMap Binary64 := { ops := [lightRow] }

/-- The class of the document. -/
def parentClass : AuthClass where
  classId := 1
  name := lit "parent"
  status := lit "au"
  groupId := 10
  credentialRef := 1

/-- The address of the document's permission. -/
def lightAt : CStr := lit "/lx/ob/bm/ot1/op1/at"

/-- The policy whose credentials row has no secret, which is loaded as an empty one. -/
def secretless : AuthServiceState := loadPolicy (some (parentPolicy (row [("id", 1)] [("cv", "ye")])))

/-- An empty credential meets the empty secret and resolves to the class, and propagation leaves
the row open; the message is denied, since a message without a credential is. -/
theorem empty_credential_denied :
    secretless.loaded = true ∧ firstRow lightAt lightMap.ops = some lightRow ∧
      secretless.classes = [] ++ parentClass :: [] ∧
      (∃ perm ∈ permissionsOf secretless parentClass, perm.lexiconObject = lightAt) ∧
      (secretless.credentials.find? fun cred => credentialMatches cred.info []) =
        some { credId := 1, valid := true } ∧
      (secretless.classes.find? fun cls => cls.credentialRef = 1) = some parentClass ∧
      authServiceAuthorize secretless [] [] lightAt = false ∧
      firstRow lightAt (authServicePropagate secretless bmSetAt lightMap).1.ops =
        some { lightRow with outAuthorType := lit "fl" } :=
  ⟨by decide +kernel, rfl, by decide +kernel, by decide +kernel, by decide +kernel,
    by decide +kernel, by decide +kernel, rfl⟩

/-- INTERNAL: the policy of the document. -/
theorem parentDocument_class :
    (loadPolicy (some parentDocument)).classes = [] ++ parentClass :: [] := by decide +kernel

/-- With its secret the credential is told what the row says. -/
theorem modes_agree_light :
    authServiceAuthorize (loadPolicy (some parentDocument)) (lit "parent-key") [] lightAt = true ↔
      firstRow lightAt
          (authServicePropagate (loadPolicy (some parentDocument)) bmSetAt lightMap).1.ops =
        some { lightRow with outAuthorType := lit "fl" } :=
  modes_agree (loadPolicy (some parentDocument)) (by decide) lightMap lightAt lightRow rfl [] []
    parentClass parentDocument_class (by decide +kernel) (by simp) (lit "parent-key") []
    (by decide) { credId := 1, info := lit "parent-key", valid := true } (by decide +kernel) rfl
    (by decide +kernel) (Or.inl rfl)

end OpenHes.Analysis
