import OpenHes.Analysis.QueryPaths
import OpenHes.Model.BindingMapXml
import Mathlib.Data.List.Forall2

/-!
# What a policy write governs

A permission names a row of the binding map by the codes of its table and of its output. The
loader keeps seven bytes of each, and of several outputs the last one's; a write goes to the
first row whose kept codes spell the address. So it governs the rows that carry the pair
exactly when there is one such row, and no row before it is spelled so.
-/

set_option autoImplicit false

namespace OpenHes.Analysis

open OpenHes.Library OpenHes.Library.Xml OpenHes.Model CDouble

/-! ## Rows and codes of a document -/

/-- The code of an element. -/
def codeOf (e : Node) : Option CStr := hesQueryElemAttr e (lit "transCode")

/-- The operation tables that become rows, in their order. -/
def tablesOf (doc : Document) : List Node :=
  (doc.node.descendants.filter (Node.isNamed (lit "operationTable"))).take bmMaxOps

/-- The codes of a table's outputs. -/
def outputCodes (row : Node) : List CStr := (row.childrenNamed (lit "outputs")).filterMap codeOf

/-- Does the row carry the two codes? -/
def Carries (row : Node) (t o : CStr) : Prop := codeOf row = some t ∧ o ∈ outputCodes row

instance (row : Node) (t o : CStr) : Decidable (Carries row t o) :=
  inferInstanceAs (Decidable (_ ∧ _))

/-- What is kept of the table's code. -/
def keptTableCode (row : Node) : CStr := ((codeOf row).map (hesStrlcpy bmCodeSize)).getD []

/-- What is kept of the outputs' codes. -/
def keptOutCode (row : Node) : CStr :=
  ((outputCodes row).getLast?.map (hesStrlcpy bmCodeSize)).getD []

/-- Do the kept codes of the row spell the pair? -/
def Spells (row : Node) (t o : CStr) : Prop :=
  keptTableCode row ++ lit "/" ++ keptOutCode row = t ++ lit "/" ++ o

instance (row : Node) (t o : CStr) : Decidable (Spells row t o) :=
  inferInstanceAs (Decidable (_ = _))

/-- The first row that is spelled so carries the pair, and no other row does; where none is
spelled so, none does. -/
def NamedOnce (t o : CStr) : List Node → Prop
  | [] => True
  | row :: rows =>
    if Spells row t o then Carries row t o ∧ ∀ r ∈ rows, ¬ Carries r t o
    else ¬ Carries row t o ∧ NamedOnce t o rows

/-- The address of a pair of codes. -/
def pairAddress (t o : CStr) : CStr := lit "/lx/ob/bm/" ++ t ++ lit "/" ++ o ++ lit "/at"

instance decidableNamedOnce (t o : CStr) : (rows : List Node) → Decidable (NamedOnce t o rows)
  | [] => .isTrue trivial
  | row :: rows =>
    have := decidableNamedOnce t o rows
    inferInstanceAs (Decidable (if Spells row t o then Carries row t o ∧ ∀ r ∈ rows, ¬ Carries r t o
      else ¬ Carries row t o ∧ NamedOnce t o rows))

variable {V : Type} [CDouble V]

omit [CDouble V] in
/-- What a write to the pair's address is to do: where it is accepted, the rows that carry the
pair have the value and the others what they had; where it is refused, no row carries it. -/
def Governs (rows : List Node) (bm : BindingMap V) (t o v : CStr) : Prop :=
  match bmSetAt bm (pairAddress t o) v with
  | some bm' => bm'.ops.map BmOperation.outAuthorType =
      List.zipWith (fun row op => if Carries row t o then v else op.outAuthorType) rows bm.ops
  | none => ∀ row ∈ rows, ¬ Carries row t o

omit [CDouble V] in
/-- The map after the writes of policies; refused ones change nothing. -/
def afterWrites (bm : BindingMap V) (writes : List (CStr × CStr)) : BindingMap V :=
  writes.foldl (fun bm w => (bmSetAt bm w.1 w.2).getD bm) bm

/-! ## The loaded rows -/

/-- INTERNAL: what every step keeps a fold keeps. -/
theorem foldl_keeps {α β γ : Type} (f : α → γ) (step : α → β → α) (h : ∀ a b, f (step a b) = f a)
    (l : List β) (a : α) : f (l.foldl step a) = f a := by
  induction l generalizing a with
  | nil => rfl
  | cons b l ih => rw [List.foldl_cons, ih, h]

/-- INTERNAL: what reading a datum keeps reading the data keeps. -/
theorem readData_keeps {α γ : Type} (f : α → γ) (ctx : HesQueryCtx) (elem : Node) (size : ℕ)
    (read : CStr → CStr → α → α) (h : ∀ tc buf a, f (read tc buf a) = f a) (a : α) :
    f (readData ctx elem size read a) = f a := by
  unfold readData
  apply foldl_keeps
  intro a datum
  cases hesQueryElemAttr datum (lit "transCode") with
  | none => rfl
  | some tc => exact h tc _ a

omit [CDouble V] in
/-- The codes of a row, which only its elements' own codes set. -/
def rowCodes (op : BmOperation V) : CStr × CStr := (op.tableCode, op.outCode)

omit [CDouble V] in
/-- INTERNAL: the datum of a row leaves its codes. -/
theorem readRowDatum_codes (tc buf : CStr) (op : BmOperation V) :
    rowCodes (readRowDatum tc buf op) = rowCodes op := by
  unfold readRowDatum
  split_ifs <;> rfl

omit [CDouble V] in
/-- INTERNAL: so does that of an output. -/
theorem readOutputDatum_codes (tc buf : CStr) (op : BmOperation V) :
    rowCodes (readOutputDatum tc buf op) = rowCodes op := by
  unfold readOutputDatum
  split_ifs <;> rfl

/-- INTERNAL: so does that of a parameter. -/
theorem readParamDatum_codes (tc buf : CStr) (op : BmOperation V) :
    rowCodes (readParamDatum tc buf op) = rowCodes op := by
  unfold readParamDatum
  split_ifs <;> rfl

omit [CDouble V] in
/-- INTERNAL: so do the inputs. -/
theorem parseInputs_codes (ctx : HesQueryCtx) (elem : Node) (op : BmOperation V) :
    rowCodes (parseInputs ctx elem op) = rowCodes op := by
  unfold parseInputs
  split_ifs <;> rfl

/-- INTERNAL: so do the parameters of the inputs. -/
theorem parseInputParameters_codes (ctx : HesQueryCtx) (elem : Node) (op : BmOperation V) :
    rowCodes (parseInputParameters ctx elem op) = rowCodes op :=
  readData_keeps rowCodes ctx elem 64 readParamDatum readParamDatum_codes op

omit [CDouble V] in
/-- INTERNAL: the output brings the row its own code, and leaves the table's. -/
theorem parseOutputs_codes (ctx : HesQueryCtx) (elem : Node) (op : BmOperation V) :
    rowCodes (parseOutputs ctx elem op) =
      (op.tableCode, ((codeOf elem).map (hesStrlcpy bmCodeSize)).getD op.outCode) := by
  unfold parseOutputs codeOf
  dsimp only
  rw [readData_keeps rowCodes ctx elem hesPathMax readOutputDatum readOutputDatum_codes]
  cases hesQueryElemAttr elem (lit "transCode") with
  | none => rfl
  | some code => rfl

omit [CDouble V] in
/-- INTERNAL: **of several outputs the last code stays**. -/
theorem foldl_parseOutputs_codes (ctx : HesQueryCtx) (elems : List Node) (op : BmOperation V) :
    rowCodes (elems.foldl (fun op elem => parseOutputs ctx elem op) op) =
      (op.tableCode,
        ((elems.filterMap codeOf).getLast?.map (hesStrlcpy bmCodeSize)).getD op.outCode) := by
  induction elems generalizing op with
  | nil => rfl
  | cons elem elems ih =>
    have hcodes := parseOutputs_codes ctx elem op
    have htable : (parseOutputs ctx elem op).tableCode = op.tableCode := congrArg Prod.fst hcodes
    have hout : (parseOutputs ctx elem op).outCode =
        ((codeOf elem).map (hesStrlcpy bmCodeSize)).getD op.outCode := congrArg Prod.snd hcodes
    rw [List.foldl_cons, ih, htable, hout]
    cases hcode : codeOf elem with
    | none => rw [List.filterMap_cons_none hcode]; rfl
    | some code =>
      rw [List.filterMap_cons_some hcode, List.getLast?_cons]
      cases (elems.filterMap codeOf).getLast? with
      | none => rfl
      | some last => rfl

/-- INTERNAL: **the codes of a row** are what is kept of its elements' codes. -/
theorem readOperationTable_codes (ctx : HesQueryCtx) (row : Node) :
    rowCodes (readOperationTable ctx row : BmOperation V) =
      (keptTableCode row, keptOutCode row) := by
  obtain ⟨start, hstart⟩ : ∃ op : BmOperation V,
      op = (hesQueryElemAttr row (lit "transCode")).elim { operation := [], inputs := [] } fun code =>
        { operation := [], inputs := [], tableCode := hesStrlcpy bmCodeSize code } := ⟨_, rfl⟩
  have hcodes : rowCodes start = (keptTableCode row, []) := by
    rw [hstart]
    unfold keptTableCode codeOf
    cases hesQueryElemAttr row (lit "transCode") with
    | none => rfl
    | some code => rfl
  have hdata := readData_keeps rowCodes ctx row 64 readRowDatum readRowDatum_codes start
  have hinputs := foldl_keeps rowCodes (fun op elem => parseInputs ctx elem op)
    (fun op elem => parseInputs_codes ctx elem op) (hesQueryElemChildren ctx row (lit "inputs"))
    (readData ctx row 64 readRowDatum start)
  have hparams := foldl_keeps rowCodes (fun op elem => parseInputParameters ctx elem op)
    (fun op elem => parseInputParameters_codes ctx elem op)
    (hesQueryElemChildren ctx row (lit "inputParameters"))
    (loadGroup ctx row (lit "inputs") parseInputs (readData ctx row 64 readRowDatum start))
  have hbefore := hparams.trans (hinputs.trans (hdata.trans hcodes))
  have hrow : (readOperationTable ctx row : BmOperation V) =
      loadGroup ctx row (lit "outputs") parseOutputs
        (loadGroup ctx row (lit "inputParameters") parseInputParameters
          (loadGroup ctx row (lit "inputs") parseInputs
            (readData ctx row 64 readRowDatum start))) := by
    rw [hstart]
    unfold readOperationTable
    cases hesQueryElemAttr row (lit "transCode") with
    | none => rfl
    | some code => rfl
  rw [hrow]
  refine (foldl_parseOutputs_codes ctx _ _).trans ?_
  rw [hesQueryElemChildren_eq ctx row (lit "outputs") (by decide)]
  exact congrArg₂ Prod.mk (congrArg Prod.fst hbefore)
    (congrArg (Option.getD ((outputCodes row).getLast?.map (hesStrlcpy bmCodeSize)))
      (congrArg Prod.snd hbefore))

/-- INTERNAL: the array takes tables as far as it goes. -/
theorem foldl_parseOperationTable (ctx : HesQueryCtx) (elems : List Node) (bm : BindingMap V) :
    (elems.foldl (fun bm elem => parseOperationTable ctx elem bm) bm).ops =
      bm.ops ++ (elems.take (bmMaxOps - bm.ops.length)).map (readOperationTable ctx) := by
  induction elems generalizing bm with
  | nil => simp
  | cons elem elems ih =>
    rw [List.foldl_cons, ih]
    unfold parseOperationTable
    by_cases hfull : bmMaxOps ≤ bm.ops.length
    · have hnone : bmMaxOps - bm.ops.length = 0 := by omega
      rw [if_pos hfull, hnone, List.take_zero, List.take_zero]
    · obtain ⟨k, hk⟩ : ∃ k, bmMaxOps - bm.ops.length = k + 1 :=
        ⟨bmMaxOps - bm.ops.length - 1, by omega⟩
      have hrest : bmMaxOps - (bm.ops.length + 1) = k := by omega
      rw [if_neg hfull, List.length_append, List.length_singleton, hk, hrest, List.take_succ_cons,
        List.map_cons, List.append_assoc]
      rfl

/-- The row of the map stands for the table. -/
def RowOf (row : Node) (op : BmOperation V) : Prop :=
  rowCodes op = (keptTableCode row, keptOutCode row)

/-- INTERNAL: **the rows of a loaded map** are the tables of the document. -/
theorem loaded_rows (ctx : HesQueryCtx) (bm : BindingMap V)
    (hload : bmLoadXml (some ctx) bmInit = some bm) :
    List.Forall₂ RowOf (tablesOf ctx.doc) bm.ops := by
  have hops : bm.ops = (tablesOf ctx.doc).map (readOperationTable ctx) := by
    obtain rfl := Option.some_inj.mp hload
    unfold bmLoadTables
    rw [foldl_keeps BindingMap.ops, foldl_parseOperationTable,
      hesQueryFindAll_eq ctx (lit "operationTable") (by decide)]
    · rfl
    · intro bm elem
      unfold parseAddressingTable
      split_ifs <;> rfl
  rw [hops, List.forall₂_map_right_iff, List.forall₂_same]
  intro row _
  exact readOperationTable_codes ctx row

/-! ## Writes -/

omit [CDouble V] in
/-- INTERNAL: a write leaves each row the codes of its element. -/
theorem setAtOps_rows (rows : List Node) (ops ops' : List (BmOperation V)) (a v : CStr)
    (hrows : List.Forall₂ RowOf rows ops) (h : setAtOps a v ops = some ops') :
    List.Forall₂ RowOf rows ops' := by
  induction hrows generalizing ops' with
  | nil => simp [setAtOps] at h
  | cons hrow hrest ih =>
    unfold setAtOps at h
    split at h
    · obtain rfl := Option.some_inj.mp h
      exact .cons hrow hrest
    · obtain ⟨rest, hset, rfl⟩ := Option.map_eq_some_iff.mp h
      exact .cons hrow (ih rest hset)

omit [CDouble V] in
/-- INTERNAL: so do writes one after the other. -/
theorem afterWrites_rows (rows : List Node) (bm : BindingMap V) (writes : List (CStr × CStr))
    (h : List.Forall₂ RowOf rows bm.ops) :
    List.Forall₂ RowOf rows (afterWrites bm writes).ops := by
  unfold afterWrites
  induction writes generalizing bm with
  | nil => exact h
  | cons w writes ih =>
    rw [List.foldl_cons]
    apply ih
    cases hset : bmSetAt bm w.1 w.2 with
    | none => exact h
    | some bm' =>
      obtain ⟨ops', hops, rfl⟩ := Option.map_eq_some_iff.mp hset
      exact setAtOps_rows rows bm.ops ops' w.1 w.2 h hops

omit [CDouble V] in
/-- INTERNAL: **the address of a row** is the pair's exactly when its kept codes spell it; no
buffer cuts it. -/
theorem bmAtAddress_eq_iff (row : Node) (op : BmOperation V) (t o : CStr) (h : RowOf row op) :
    bmAtAddress op = pairAddress t o ↔ Spells row t o := by
  have htable : op.tableCode = keptTableCode row := congrArg Prod.fst h
  have hout : op.outCode = keptOutCode row := congrArg Prod.snd h
  have hshort : ∀ code : Option CStr, ((code.map (hesStrlcpy bmCodeSize)).getD []).length ≤ 7 := by
    intro code
    cases code with
    | none => exact Nat.zero_le 7
    | some code => exact List.length_take_le 7 code
  have hlen : (lit "/lx/ob/bm/" ++ keptTableCode row ++ lit "/" ++ keptOutCode row ++
      lit "/at").length ≤ hesPathMax - 1 := by
    have h1 : (keptTableCode row).length ≤ 7 := hshort _
    have h2 : (keptOutCode row).length ≤ 7 := hshort _
    simp only [List.length_append, show (lit "/lx/ob/bm/").length = 10 from rfl,
      show (lit "/").length = 1 from rfl, show (lit "/at").length = 3 from rfl,
      show hesPathMax = 128 from rfl]
    omega
  unfold bmAtAddress boundedCopy pairAddress Spells
  rw [htable, hout, List.take_of_length_le hlen]
  simp only [List.append_assoc, List.append_cancel_left_eq]
  rw [← List.append_assoc, ← List.append_assoc, ← List.append_assoc, ← List.append_assoc,
    List.append_cancel_right_eq, List.append_assoc, List.append_assoc]

omit [CDouble V] in
/-- What `Governs` says of the rows alone. -/
def GovernsRows (rows : List Node) (ops : List (BmOperation V)) (t o v : CStr) : Prop :=
  match setAtOps (pairAddress t o) v ops with
  | some ops' => ops'.map BmOperation.outAuthorType =
      List.zipWith (fun row op => if Carries row t o then v else op.outAuthorType) rows ops
  | none => ∀ row ∈ rows, ¬ Carries row t o

omit [CDouble V] in
/-- INTERNAL: a write governs the map if it governs its rows. -/
theorem governs_iff_rows (rows : List Node) (bm : BindingMap V) (t o v : CStr) :
    Governs rows bm t o v ↔ GovernsRows rows bm.ops t o v := by
  unfold Governs GovernsRows bmSetAt
  cases setAtOps (pairAddress t o) v bm.ops with
  | none => exact Iff.rfl
  | some ops' => exact Iff.rfl

omit [CDouble V] in
/-- INTERNAL: rows that hold two different values carry no pair that governs them. -/
theorem carries_none_iff (rows : List Node) (ops : List (BmOperation V)) (t o : CStr)
    (hrows : List.Forall₂ RowOf rows ops) :
    (∀ v : CStr, v.length ≤ 3 → ops.map BmOperation.outAuthorType =
      List.zipWith (fun row op => if Carries row t o then v else op.outAuthorType) rows ops) ↔
      ∀ row ∈ rows, ¬ Carries row t o := by
  induction hrows with
  | nil => simp
  | @cons row op rows ops hrow hrest ih =>
    rw [List.forall_mem_cons, ← ih]
    simp only [List.map_cons, List.zipWith_cons_cons, List.cons.injEq]
    constructor
    · intro h
      refine ⟨?_, fun v hv => (h v hv).2⟩
      intro hcarries
      have h1 := (h [1] (by decide)).1
      have h2 := (h [2] (by decide)).1
      rw [if_pos hcarries] at h1 h2
      simp [h1] at h2
    · rintro ⟨hno, htail⟩ v hv
      exact ⟨(if_neg hno).symm, htail v hv⟩

omit [CDouble V] in
/-- INTERNAL: a row that the address spells, in front. -/
theorem governsRows_hit (row : Node) (rows : List Node) (op : BmOperation V)
    (ops : List (BmOperation V)) (t o : CStr) (hrest : List.Forall₂ RowOf rows ops)
    (haddr : bmAtAddress op = pairAddress t o) :
    (∀ v : CStr, v.length ≤ 3 → GovernsRows (row :: rows) (op :: ops) t o v) ↔
      Carries row t o ∧ ∀ r ∈ rows, ¬ Carries r t o := by
  have hstep : ∀ v : CStr, v.length ≤ 3 → (GovernsRows (row :: rows) (op :: ops) t o v ↔
      v = (if Carries row t o then v else op.outAuthorType) ∧ ops.map BmOperation.outAuthorType =
        List.zipWith (fun row op => if Carries row t o then v else op.outAuthorType) rows ops) := by
    intro v hv
    have hcopy : hesStrlcpy 4 v = v := List.take_of_length_le hv
    unfold GovernsRows setAtOps
    rw [if_pos haddr]
    simp only [List.map_cons, List.zipWith_cons_cons, List.cons.injEq, hcopy]
  rw [← carries_none_iff rows ops t o hrest]
  constructor
  · intro h
    refine ⟨?_, fun v hv => ((hstep v hv).mp (h v hv)).2⟩
    by_contra hno
    have h1 := ((hstep [1] (by decide)).mp (h [1] (by decide))).1
    have h2 := ((hstep [2] (by decide)).mp (h [2] (by decide))).1
    rw [if_neg hno] at h1 h2
    simp [← h1] at h2
  · rintro ⟨hcarries, htail⟩ v hv
    exact (hstep v hv).mpr ⟨(if_pos hcarries).symm, htail v hv⟩

omit [CDouble V] in
/-- INTERNAL: a row that the address does not spell, in front. -/
theorem governsRows_miss (row : Node) (rows : List Node) (op : BmOperation V)
    (ops : List (BmOperation V)) (t o : CStr) (haddr : bmAtAddress op ≠ pairAddress t o) :
    (∀ v : CStr, v.length ≤ 3 → GovernsRows (row :: rows) (op :: ops) t o v) ↔
      ¬ Carries row t o ∧ ∀ v : CStr, v.length ≤ 3 → GovernsRows rows ops t o v := by
  have hstep : ∀ v : CStr, GovernsRows (row :: rows) (op :: ops) t o v ↔
      (¬ Carries row t o ∨ op.outAuthorType = v ∧ setAtOps (pairAddress t o) v ops ≠ none) ∧
        GovernsRows rows ops t o v := by
    intro v
    unfold GovernsRows
    rw [setAtOps, if_neg haddr]
    cases setAtOps (pairAddress t o) v ops with
    | none => simp
    | some ops' =>
      simp only [Option.map_some, List.map_cons, List.zipWith_cons_cons, List.cons.injEq]
      by_cases hcarries : Carries row t o
      · simp [hcarries]
      · simp [hcarries]
  constructor
  · intro h
    refine ⟨?_, fun v hv => ((hstep v).mp (h v hv)).2⟩
    intro hcarries
    rcases ((hstep [1]).mp (h [1] (by decide))).1 with hno | ⟨h1, -⟩
    · exact hno hcarries
    rcases ((hstep [2]).mp (h [2] (by decide))).1 with hno | ⟨h2, -⟩
    · exact hno hcarries
    simp [h1] at h2
  · rintro ⟨hno, htail⟩ v hv
    exact (hstep v).mpr ⟨.inl hno, htail v hv⟩

omit [CDouble V] in
/-- INTERNAL: it governs the rows of a pair of codes if one output has it. -/
theorem governsRows_iff (rows : List Node) (ops : List (BmOperation V)) (t o : CStr)
    (hrows : List.Forall₂ RowOf rows ops) :
    (∀ v : CStr, v.length ≤ 3 → GovernsRows rows ops t o v) ↔ NamedOnce t o rows := by
  induction hrows with
  | nil => simp [GovernsRows, setAtOps, NamedOnce]
  | @cons row op rows ops hrow hrest ih =>
    have haddr := bmAtAddress_eq_iff row op t o hrow
    unfold NamedOnce
    by_cases hspells : Spells row t o
    · rw [if_pos hspells]
      exact governsRows_hit row rows op ops t o hrest (haddr.mpr hspells)
    · rw [if_neg hspells, governsRows_miss row rows op ops t o (fun h => hspells (haddr.mp h)), ih]

/-- **When a policy write governs the rows it names.** In a map that was loaded, and written to
by any policies since, every value that is written to the address of a pair of codes reaches
all rows of the pair and no other, and a refused write means that there is no such row,
exactly when the pair is named once: the first row whose kept codes spell it carries it, and
no other row does.
SRCLINE: bm/bm.c:828-847 -/
theorem policy_write_governs_iff (ctx : HesQueryCtx) (bm : BindingMap V)
    (hload : bmLoadXml (some ctx) bmInit = some bm) (writes : List (CStr × CStr)) (t o : CStr) :
    (∀ v : CStr, v.length ≤ 3 → Governs (tablesOf ctx.doc) (afterWrites bm writes) t o v) ↔
      NamedOnce t o (tablesOf ctx.doc) := by
  have hrows := afterWrites_rows _ bm writes (loaded_rows ctx bm hload)
  rw [← governsRows_iff _ _ t o hrows]
  simp only [governs_iff_rows]

/-- A table with an output, by their codes. -/
def codedTable (table out : CStr) : Node :=
  .element ⟨[], lit "operationTable"⟩ [⟨⟨[], lit "transCode"⟩, [table]⟩]
    [.element ⟨[], lit "outputs"⟩ [⟨⟨[], lit "transCode"⟩, [out]⟩] []]

/-- A document of two tables. -/
def codedDocument (table1 table2 : CStr) : Document where
  root := .element ⟨[], lit "objectType"⟩ []
    [codedTable table1 (lit "op1"), codedTable table2 (lit "op1")]
  counted := by
    have htable : ∀ table, (codedTable table (lit "op1")).Counted := by
      intro table
      refine .intro _ (show 1 < 2 ^ 31 by decide) ?_
      intro c hc
      obtain rfl := List.mem_singleton.mp hc
      exact .intro _ (Nat.two_pow_pos 31) (by simp [Node.children])
    refine .intro _ (show 2 < 2 ^ 31 by decide) ?_
    intro c hc
    simp only [Node.children, List.mem_cons, List.not_mem_nil, or_false] at hc
    rcases hc with rfl | rfl
    · exact htable table1
    · exact htable table2

/-- The output of the second table, where the tables have different codes. -/
theorem second_table_governed :
    ∃ bm : BindingMap Binary64,
      bmLoadXml (some ⟨locationEngine, codedDocument (lit "ot1") (lit "ot2")⟩) bmInit = some bm ∧
      ∀ v : CStr, v.length ≤ 3 → Governs (tablesOf (codedDocument (lit "ot1") (lit "ot2")))
        (afterWrites bm []) (lit "ot2") (lit "op1") v :=
  ⟨_, rfl, (policy_write_governs_iff ⟨locationEngine, codedDocument (lit "ot1") (lit "ot2")⟩ _ rfl
    [] (lit "ot2") (lit "op1")).mpr (by decide +kernel)⟩

/-- The map of a document whose first table has a code of nine bytes. -/
def longCodeMap : BindingMap Binary64 :=
  (bmLoadXml (some ⟨locationEngine, codedDocument (lit "lighting1") (lit "ot2")⟩) bmInit).getD bmInit

/-- The loader cuts the code of the first table, so that its address reaches no row. -/
theorem long_code_missed :
    bmLoadXml (some ⟨locationEngine, codedDocument (lit "lighting1") (lit "ot2")⟩) bmInit =
        some longCodeMap ∧
      ¬ Governs (tablesOf (codedDocument (lit "lighting1") (lit "ot2"))) longCodeMap
        (lit "lighting1") (lit "op1") (lit "bk") := by
  refine ⟨rfl, ?_⟩
  have hmissed : setAtOps (pairAddress (lit "lighting1") (lit "op1")) (lit "bk") longCodeMap.ops =
      none := Option.isNone_iff_eq_none.mp (by decide +kernel)
  have htables : tablesOf (codedDocument (lit "lighting1") (lit "ot2")) =
      [codedTable (lit "lighting1") (lit "op1"), codedTable (lit "ot2") (lit "op1")] := rfl
  rw [governs_iff_rows]
  unfold GovernsRows
  rw [hmissed, htables]
  intro h
  exact h _ List.mem_cons_self (by decide +kernel)

end OpenHes.Analysis
