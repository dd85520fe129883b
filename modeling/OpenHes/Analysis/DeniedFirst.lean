import OpenHes.Analysis.Attribution
import OpenHes.Analysis.Emission
import OpenHes.Analysis.RowEffect

/-!
# A denied sender that goes first

A row whose output is refused has overwritten its operand history by then. The same
values from an accepted sender are no change afterwards, so they are swallowed whenever
the row would have sent something for them.
-/

set_option autoImplicit false

namespace OpenHes.Analysis

open OpenHes.Library OpenHes.Model
open CDouble

variable {V α : Type} [CDouble V]

/-! ## Messages that report the same -/

/-- The messages agree on what is reported; the accompanied information may differ. -/
def SameReport (m₁ m₂ : HesClmeMsg) : Prop :=
  m₂.verb = m₁.verb ∧ m₂.path = m₁.path ∧ m₂.deviceIndex = m₁.deviceIndex ∧
    m₂.payload = m₁.payload

section SameReport

variable {m₁ m₂ : HesClmeMsg} (bm : BindingMap V)

/-- INTERNAL: both are reports or neither is. -/
theorem SameReport.isReport (h : SameReport m₁ m₂) : isReport m₂ = isReport m₁ := by
  obtain ⟨hverb, -, -, hpayload⟩ := h
  unfold Model.isReport
  rw [hverb, hpayload]

/-- INTERNAL: they carry the same value. -/
theorem SameReport.readingOf (h : SameReport m₁ m₂) :
    (readingOf m₂ : V) = readingOf m₁ := by
  unfold Model.readingOf
  rw [h.2.2.2]

omit [CDouble V] in
/-- INTERNAL: they are attributed to the same inputs. -/
theorem SameReport.storeReading (h : SameReport m₁ m₂) (v : V) (cache : ValueCache V) :
    storeReading bm m₂ v cache = storeReading bm m₁ v cache := by
  have hstep : storeInput (V := V) m₂ v = storeInput m₁ v := by
    funext acc inp
    unfold storeInput attributedTo
    rw [h.2.1, h.2.2.1]
  unfold Model.storeReading
  rw [hstep]

/-- INTERNAL: so they leave the same cache. -/
theorem SameReport.takeReading (h : SameReport m₁ m₂) (s : BmState V α) :
    (takeReading bm m₂ s).cache = (takeReading bm m₁ s).cache := by
  change (Model.storeReading bm m₂ (Model.readingOf m₂) s.cache).1 = _
  rw [h.readingOf, h.storeReading]
  rfl

end SameReport

omit [CDouble V] in
/-- INTERNAL: whether a reading is stored at all does not depend on the cache. -/
theorem storeReading_flag (bm : BindingMap V) (m : HesClmeMsg) (v w : V)
    (cache cache' : ValueCache V) :
    (storeReading bm m v cache).2 = (storeReading bm m w cache').2 := by
  have hloop : ∀ (inputs : List BmInput) (acc acc' : ValueCache V × Bool), acc.2 = acc'.2 →
      (inputs.foldl (storeInput m v) acc).2 = (inputs.foldl (storeInput m w) acc').2 := by
    intro inputs
    induction inputs with
    | nil => exact fun _ _ h => h
    | cons inp rest ih =>
      intro acc acc' hacc
      refine ih _ _ ?_
      unfold storeInput
      split
      · rfl
      · exact hacc
  exact hloop _ _ _ rfl

/-- INTERNAL: a reading that is stored starts an evaluation of the table. -/
theorem bmProcessorHandle_stored (host : BmHost V α) (bm : BindingMap V) (m : HesClmeMsg)
    (depth : ℕ) (s : BmState V α) (hrep : isReport m = true)
    (hflag : (storeReading bm m (readingOf m : V) s.cache).2 = true) :
    bmProcessorHandle host bm m depth s = bmEvaluateAll host bm m depth (takeReading bm m s) := by
  unfold bmProcessorHandle
  rw [if_neg (by simp [hrep]), if_pos hflag]

omit [CDouble V] in
/-- INTERNAL: a message is a report that is stored, or it is not. -/
theorem stored_or_not (bm : BindingMap V) (m : HesClmeMsg) (v : V) (cache : ValueCache V) :
    isReport m = true ∧ (storeReading bm m v cache).2 = true ∨
      (isReport m = false ∨ (storeReading bm m v cache).2 = false) := by
  cases isReport m <;> cases (storeReading bm m v cache).2 <;> simp

/-- INTERNAL: any other message is at most noted. -/
theorem bmProcessorHandle_unstored (host : BmHost V α) (bm : BindingMap V) (m : HesClmeMsg)
    (depth : ℕ) (s s' : BmState V α) (i : ℕ)
    (hno : isReport m = false ∨ (storeReading bm m (readingOf m : V) s.cache).2 = false)
    (h : bmProcessorHandle host bm m depth s = .returned s') :
    s'.cache = s.cache ∧ s'.mem = s.mem ∧ putsOf i s'.trace = putsOf i s.trace := by
  unfold bmProcessorHandle at h
  by_cases hrep : isReport m = true
  · have hflag : (storeReading bm m (readingOf m : V) s.cache).2 = false := by
      rcases hno with hno | hno
      · rw [hrep] at hno
        cases hno
      · exact hno
    rw [if_neg (by simp [hrep]), if_neg (by simp [hflag])] at h
    have hs' : s' = takeReading bm m s := by simpa using h.symm
    rw [hs']
    exact ⟨storeReading_unstored bm m (readingOf m : V) s.cache hflag, rfl,
      takeReading_putsOf bm m i s⟩
  · rw [if_pos (by simpa using hrep)] at h
    have hs' : s' = s := by simpa using h.symm
    rw [hs']
    exact ⟨rfl, rfl, rfl⟩

variable (host : BmHost V α) (bm : BindingMap V)

/-- INTERNAL: a row whose output is refused has nothing to record. -/
theorem gatedResult_refused (m : HesClmeMsg) (op : BmOperation V) (mem : OpMemory V)
    (raw : Option V) (hdest : op.outDestObject ≠ [])
    (hrefused : outputAuthorized host bm m op = false) :
    gatedResult host bm m op mem raw = none := by
  unfold gatedResult
  simp [hdest, hrefused]

omit [CDouble V] in
/-- INTERNAL: the output of a row with an 'au' input is refused when the hook denies. -/
theorem outputAuthorized_denied (m : HesClmeMsg) (op : BmOperation V)
    (hauthz : bm.authzDisabled = false) (hau : ∃ inp ∈ op.inputs, inp.accompanyOp = lit "au")
    (hdeny : hookAccepts host m op = false) : outputAuthorized host bm m op = false := by
  have hreq : opRequiresAuthorization op = true := by
    simpa [opRequiresAuthorization] using hau
  simp [outputAuthorized, hauthz, hreq, hdeny]

/-! ## The second message finds the rows at rest -/

/-- INTERNAL: after a message that left the rows of `U` at rest, an enabled row of `U` has the
operands that a message which reports the same gives it, and that one gives it them again. -/
theorem operands_again {U : Set ℕ} (hU : UpClosed bm U) {m₁ m₂ : HesClmeMsg}
    (hsame : SameReport m₁ m₂) {s s₁ : BmState V α}
    (hrest : Undisturbed host bm m₁ U (takeReading bm m₁ s) s₁)
    {j : ℕ} {op : BmOperation V} (hj : j ∈ U) (hrow : IsRow bm j op) (hen : op.enabled = true) :
    rowOperands bm s₁.cache op = rowOperands bm (takeReading bm m₂ s).cache op ∧
      rowOperands bm (takeReading bm m₂ s₁).cache op =
        rowOperands bm (takeReading bm m₂ s).cache op := by
  -- the devices the row reads hold after the first message what they held before it
  have hread : ∀ inp ∈ op.inputs,
      s₁.cache inp.deviceIndex = (takeReading bm m₂ s).cache inp.deviceIndex := by
    intro inp hinp
    rw [hsame.takeReading]
    exact hrest.cache _ fun k hk => hU k j ⟨_, hk, op, hrow, hen, inp, hinp, rfl⟩ hj
  have hagain : ∀ inp ∈ op.inputs, (takeReading bm m₂ s₁).cache inp.deviceIndex =
      (takeReading bm m₂ s).cache inp.deviceIndex := by
    intro inp hinp
    have hone := hread inp hinp
    change (storeReading bm m₂ (readingOf m₂) s₁.cache).1 _ =
      (storeReading bm m₂ (readingOf m₂) s.cache).1 _
    change s₁.cache _ = (storeReading bm m₂ (readingOf m₂) s.cache).1 _ at hone
    rw [storeReading_apply] at hone ⊢
    rw [storeReading_apply]
    by_cases hatt : attributedDevice bm m₂ inp.deviceIndex = true
    · simp [hatt]
    · simp only [hatt] at hone ⊢
      exact hone
  exact ⟨rowOperands_congr bm op _ _ hread, rowOperands_congr bm op _ _ hagain⟩

/-- INTERNAL: after a message that left the rows of `U` at rest, a message that reports the
same finds a row of `U` idle, if it would have found it idle before, or if the row reads
no NaN.
SRCLINE: bm.c:666-680 -/
theorem idle_again {U : Set ℕ} (hU : UpClosed bm U) {m₁ m₂ : HesClmeMsg}
    (hsame : SameReport m₁ m₂) (depth : ℕ) {s s₁ : BmState V α}
    (hidle : AllIdle host bm m₁ U (takeReading bm m₁ s))
    (h₁ : bmEvaluateAll host bm m₁ depth (takeReading bm m₁ s) = .returned s₁)
    {j : ℕ} {op : BmOperation V} (hj : j ∈ U) (hrow : IsRow bm j op)
    (hcase : Idle host bm m₂ op (s.mem j) (takeReading bm m₂ s).cache ∨
      ∀ vs, rowOperands bm (takeReading bm m₂ s).cache op = some vs → ∀ x ∈ vs, eq x x = true) :
    Idle host bm m₂ op (s₁.mem j) (takeReading bm m₂ s₁).cache := by
  have hrest : Undisturbed host bm m₁ U (takeReading bm m₁ s) s₁ := by
    have hrun := bmEvaluateAll_undisturbed host bm m₁ U hU depth _ hidle
    rwa [h₁] at hrun
  have hsettled := bmEvaluateAll_settles host bm m₁ depth _ s₁ h₁ j op hrow
  by_cases hen : op.enabled = true
  swap
  · exact idle_of_disabled host bm m₂ op _ _ (by simpa using hen)
  obtain ⟨hops₁, hops₂⟩ := operands_again host bm hU hsame hrest hj hrow hen
  have hremember : ∀ vs, rowOperands bm (takeReading bm m₂ s).cache op = some vs →
      s₁.mem j = { s.mem j with lastOperands := some vs } := by
    intro vs hvs
    have hlast := hsettled vs (hops₁.trans hvs)
    have hout : (s₁.mem j).lastOutput = (s.mem j).lastOutput := hrest.lastOutput j hj
    cases hmem : s₁.mem j with
    | mk lastOutput lastOperands =>
      rw [hmem] at hlast hout
      simp only at hlast hout
      rw [hlast, hout]
  intro vs hvs hch
  rw [hops₂] at hvs
  rw [hremember vs hvs] at hch ⊢
  rcases hcase with hidle₂ | hnum
  · exact hidle₂.look host bm m₂ hvs vs hvs hch
  · have hunch := (inputsChanged_settled
      ({ s.mem j with lastOperands := some vs } : OpMemory V) vs rfl).mpr (hnum vs hvs)
    rw [hunch] at hch
    cases hch

/-! ## What the order of the senders does to the row's PUTs -/

/-- The row has nothing to send for the message: it is idle once the reading is stored. -/
def NothingToSend (m : HesClmeMsg) (i : ℕ) (op : BmOperation V) (s : BmState V α) : Prop :=
  isReport m = true → Idle host bm m op (s.mem i) (takeReading bm m s).cache

/-- The rows upstream of row `i` are idle once the reading is stored. -/
def UpstreamRests (m : HesClmeMsg) (i : ℕ) (s : BmState V α) : Prop :=
  isReport m = true → AllIdle host bm m (Upstream bm i) (takeReading bm m s)

/-- What happens to the cache while two messages that report the same are processed: a row's
result under one of them, or the reading. -/
def PairStep (m₁ m₂ : HesClmeMsg) (cache cache' : ValueCache V) : Prop :=
  CacheStep host bm m₁ cache cache' ∨ CacheStep host bm m₂ cache cache' ∨
    cache' = (storeReading bm m₂ (readingOf m₂) cache).1

/-- The caches that can come up from the reading on. -/
def PairCaches (m₁ m₂ : HesClmeMsg) (s : BmState V α) : Set (ValueCache V) :=
  { cache | Relation.ReflTransGen (PairStep host bm m₁ m₂) (takeReading bm m₂ s).cache cache }

/-- The row stays silent for the second message: with its upstream rows at rest it has nothing
to send, or on none of the caches that can come up it has a new result that may go out. -/
def StaysSilent (m₁ m₂ : HesClmeMsg) (i : ℕ) (op : BmOperation V) (s : BmState V α) : Prop :=
  (UpstreamRests host bm m₁ i s ∧ UpstreamRests host bm m₂ i s ∧
    NothingToSend host bm m₂ i op s) ∨
  (isReport m₂ = true → Barren host bm m₂ (PairCaches host bm m₁ m₂ s) op (s.mem i))

/-- The row comes to its result again for the second message: with its upstream rows at rest its
operands hold a NaN, so that they are never those it has noted, and it rests on them. -/
def ComesAgain (m₁ m₂ : HesClmeMsg) (i : ℕ) (op : BmOperation V) (s : BmState V α) : Prop :=
  UpstreamRests host bm m₁ i s ∧ UpstreamRests host bm m₂ i s ∧
    ∃ vs, rowOperands bm (takeReading bm m₂ s).cache op = some vs ∧ RestsOn op vs ∧
      ∃ x ∈ vs, eq x x = false

/-- INTERNAL: a message that finds the rows of `U` idle sends nothing for them. -/
theorem putsOf_of_idle {U : Set ℕ} (hU : UpClosed bm U) (m : HesClmeMsg) (depth : ℕ)
    {s s' : BmState V α} {i : ℕ} (hi : i ∈ U) (hidle : AllIdle host bm m U (takeReading bm m s))
    (h : bmEvaluateAll host bm m depth (takeReading bm m s) = .returned s') :
    putsOf i s'.trace = putsOf i s.trace := by
  have hrest := bmEvaluateAll_undisturbed host bm m U hU depth _ hidle
  rw [h] at hrest
  exact (hrest.putsOf_eq bm hi).trans (takeReading_putsOf bm m i s)

/-- INTERNAL: nor does a message whose caches all leave the row barren. -/
theorem putsOf_of_barren {C : Set (ValueCache V)} (m : HesClmeMsg)
    (hC : StepClosed host bm m C) {i : ℕ} {op : BmOperation V} (hrow : IsRow bm i op)
    (depth : ℕ) {s s' : BmState V α} (hs : (takeReading bm m s).cache ∈ C)
    (hbarren : Barren host bm m C op (s.mem i))
    (h : bmEvaluateAll host bm m depth (takeReading bm m s) = .returned s') :
    s'.cache ∈ C ∧ (s'.mem i).lastOutput = (s.mem i).lastOutput ∧
      putsOf i s'.trace = putsOf i s.trace := by
  obtain ⟨hcache, htouch⟩ := bmEvaluateAll_untouched host bm m (W := {i}) (T := ∅) hC
    (fun _ j _ hj => absurd hj (Set.notMem_empty j)) depth _ hs
    (by rintro j rfl op' hrow'; rw [← hrow.unique hrow']; exact hbarren)
    (fun j hj => absurd hj (Set.notMem_empty j))
  rw [h] at hcache htouch
  have hi : i ∈ ({i} ∪ ∅ : Set ℕ) := Or.inl rfl
  exact ⟨hcache, htouch.lastOutput i hi,
    (htouch.putsOf_eq bm hi).trans (takeReading_putsOf bm m i s)⟩

section Orders

variable {m₁ m₂ : HesClmeMsg} {i : ℕ} {op : BmOperation V} {s s₁ s₁₂ s₂ : BmState V α}
  {d₁ d₂ d₃ : ℕ}

/-- INTERNAL: readings that nobody stores send nothing, in either order. -/
theorem order_unstored (hsame : SameReport m₁ m₂)
    (hno : isReport m₁ = false ∨ (storeReading bm m₁ (readingOf m₁ : V) s.cache).2 = false)
    (h₁ : bmProcessorHandle host bm m₁ d₁ s = .returned s₁)
    (h₁₂ : bmProcessorHandle host bm m₂ d₂ s₁ = .returned s₁₂)
    (h₂ : bmProcessorHandle host bm m₂ d₃ s = .returned s₂) :
    putsOf i s₁₂.trace = putsOf i s₂.trace ∧
      (isReport m₂ = true → (takeReading bm m₂ s).cache = s.cache) := by
  have hno₂ : ∀ cache, isReport m₂ = false ∨
      (storeReading bm m₂ (readingOf m₂ : V) cache).2 = false := by
    intro cache
    rw [hsame.isReport, hsame.storeReading,
      storeReading_flag bm m₁ _ (readingOf m₁) cache s.cache]
    exact hno
  have hput₁ := (bmProcessorHandle_unstored host bm m₁ d₁ s s₁ i hno h₁).2.2
  have hput₁₂ := (bmProcessorHandle_unstored host bm m₂ d₂ s₁ s₁₂ i (hno₂ _) h₁₂).2.2
  have hput₂ := (bmProcessorHandle_unstored host bm m₂ d₃ s s₂ i (hno₂ _) h₂).2.2
  refine ⟨by rw [hput₁₂, hput₁, hput₂], fun hrep => ?_⟩
  refine storeReading_unstored bm m₂ _ s.cache ?_
  rcases hno₂ s.cache with hno | hno
  · rw [hrep] at hno
    cases hno
  · exact hno

/-- INTERNAL: a row that stays silent on all caches sends nothing in either order. -/
theorem order_barren (hsame : SameReport m₁ m₂) (hrow : IsRow bm i op)
    (hdest : op.outDestObject ≠ []) (hrefused : outputAuthorized host bm m₁ op = false)
    (hbarren : Barren host bm m₂ (PairCaches host bm m₁ m₂ s) op (s.mem i))
    (h₁ : bmEvaluateAll host bm m₁ d₁ (takeReading bm m₁ s) = .returned s₁)
    (h₁₂ : bmEvaluateAll host bm m₂ d₂ (takeReading bm m₂ s₁) = .returned s₁₂)
    (h₂ : bmEvaluateAll host bm m₂ d₃ (takeReading bm m₂ s) = .returned s₂) :
    putsOf i s₁₂.trace = putsOf i s₂.trace := by
  have hstart : (takeReading bm m₂ s).cache ∈ PairCaches host bm m₁ m₂ s :=
    Relation.ReflTransGen.refl
  have hclosed₁ : StepClosed host bm m₁ (PairCaches host bm m₁ m₂ s) :=
    fun _ hreach _ hstep => Relation.ReflTransGen.tail hreach (Or.inl hstep)
  have hclosed₂ : StepClosed host bm m₂ (PairCaches host bm m₁ m₂ s) :=
    fun _ hreach _ hstep => Relation.ReflTransGen.tail hreach (Or.inr (Or.inl hstep))
  have hbarren₁ : Barren host bm m₁ (PairCaches host bm m₁ m₂ s) op (s.mem i) :=
    fun _ _ _ raw _ _ => gatedResult_refused host bm m₁ op _ (some raw) hdest hrefused
  obtain ⟨hcache, hlast, hput₁⟩ := putsOf_of_barren host bm m₁ hclosed₁ hrow d₁
    (hsame.takeReading bm s ▸ hstart) hbarren₁ h₁
  have hread : (takeReading bm m₂ s₁).cache ∈ PairCaches host bm m₁ m₂ s :=
    Relation.ReflTransGen.tail hcache (Or.inr (Or.inr rfl))
  obtain ⟨-, -, hput₁₂⟩ := putsOf_of_barren host bm m₂ hclosed₂ hrow d₂ hread
    (hbarren.congr host bm m₂ hlast) h₁₂
  obtain ⟨-, -, hput₂⟩ := putsOf_of_barren host bm m₂ hclosed₂ hrow d₃ hstart hbarren h₂
  rw [hput₁₂, hput₁, hput₂]

/-- INTERNAL: with its upstream rows at rest, a row that is idle under the first message sends
nothing under both, if the second would have found it idle, or it reads no NaN. -/
theorem order_first_idle (hsame : SameReport m₁ m₂) (hrow : IsRow bm i op)
    (hup₁ : AllIdle host bm m₁ (Upstream bm i) (takeReading bm m₁ s))
    (hup₂ : AllIdle host bm m₂ (Upstream bm i) (takeReading bm m₂ s))
    (hidle : Idle host bm m₁ op (s.mem i) (takeReading bm m₁ s).cache)
    (hcase : Idle host bm m₂ op (s.mem i) (takeReading bm m₂ s).cache ∨
      ∀ vs, rowOperands bm (takeReading bm m₂ s).cache op = some vs → ∀ x ∈ vs, eq x x = true)
    (h₁ : bmEvaluateAll host bm m₁ d₁ (takeReading bm m₁ s) = .returned s₁)
    (h₁₂ : bmEvaluateAll host bm m₂ d₂ (takeReading bm m₂ s₁) = .returned s₁₂) :
    putsOf i s₁₂.trace = putsOf i s.trace := by
  have hU := insert_upstream_upClosed bm i
  have hall₁ := allIdle_insert host bm m₁ (s := takeReading bm m₁ s) hrow hidle hup₁
  have hall₂ : AllIdle host bm m₂ (insert i (Upstream bm i)) (takeReading bm m₂ s₁) := by
    rintro j hj op' hrow'
    refine idle_again host bm hU hsame d₁ hall₁ h₁ hj hrow' ?_
    rcases hj with rfl | hj
    · rw [← hrow.unique hrow']
      exact hcase
    · exact Or.inl (hup₂ j hj op' hrow')
  rw [putsOf_of_idle host bm hU m₂ d₂ (Or.inl rfl) hall₂ h₁₂,
    putsOf_of_idle host bm hU m₁ d₁ (Or.inl rfl) hall₁ h₁]

/-- INTERNAL: **operands with a NaN** are computed again by the second message, and to the same. -/
theorem order_again (hsame : SameReport m₁ m₂) (hrow : IsRow bm i op)
    (hdest : op.outDestObject ≠ []) (hrefused : outputAuthorized host bm m₁ op = false)
    (hup₁ : AllIdle host bm m₁ (Upstream bm i) (takeReading bm m₁ s))
    (hup₂ : AllIdle host bm m₂ (Upstream bm i) (takeReading bm m₂ s)) {vs : List V}
    (hvs : rowOperands bm (takeReading bm m₂ s).cache op = some vs) (hrests : RestsOn op vs)
    (hnan : ∃ x ∈ vs, eq x x = false)
    (h₁ : bmEvaluateAll host bm m₁ d₁ (takeReading bm m₁ s) = .returned s₁)
    (h₁₂ : bmEvaluateAll host bm m₂ d₂ (takeReading bm m₂ s₁) = .returned s₁₂)
    (h₂ : bmEvaluateAll host bm m₂ d₃ (takeReading bm m₂ s) = .returned s₂) :
    putsOf i s₁₂.trace = putsOf i s₂.trace := by
  obtain ⟨x, hx, hno⟩ := hnan
  have hap : op.operation ≠ lit "ap" := by
    rcases hrests with hnum | ⟨hap, -⟩
    · rw [hnum x hx] at hno
      cases hno
    · exact hap
  have hchanged : ∀ mem : OpMemory V, inputsChanged mem vs = true :=
    fun mem => inputsChanged_of_nan mem vs ⟨x, hx, hno⟩
  -- the first message leaves the row at rest, and what it reads
  have hidle₁ : Idle host bm m₁ op (s.mem i) (takeReading bm m₁ s).cache :=
    fun _ _ _ => ⟨hap, gatedResult_refused host bm m₁ op _ _ hdest hrefused⟩
  have hU := insert_upstream_upClosed bm i
  have hall₁ := allIdle_insert host bm m₁ (s := takeReading bm m₁ s) hrow hidle₁ hup₁
  have hrest₁ : Undisturbed host bm m₁ (insert i (Upstream bm i)) (takeReading bm m₁ s) s₁ := by
    have hrun := bmEvaluateAll_undisturbed host bm m₁ _ hU d₁ _ hall₁
    rwa [h₁] at hrun
  have hen := (rowOperands_ready bm op _ vs hvs).1
  obtain ⟨-, hops⟩ := operands_again host bm hU hsame hrest₁ (Or.inl rfl) hrow hen
  have hup₁₂ : AllIdle host bm m₂ (Upstream bm i) (takeReading bm m₂ s₁) := fun j hj op' hrow' =>
    idle_again host bm hU hsame d₁ hall₁ h₁ (Or.inr hj) hrow' (Or.inl (hup₂ j hj op' hrow'))
  -- so the second message finds it with the same operands and the same output
  have hf := computes_builtin host op hap
  have hdone₁₂ := bmEvaluateAll_row_done host bm m₂ hrow hf d₂ _ s₁₂
    (fun us hus => Option.some.inj ((hops.trans hvs).symm.trans hus) ▸ hrests) hup₁₂ h₁₂
  have hdone₂ := bmEvaluateAll_row_done host bm m₂ hrow hf d₃ _ s₂
    (fun us hus => Option.some.inj (hvs.symm.trans hus) ▸ hrests) hup₂ h₂
  have hlast : (s₁.mem i).lastOutput = (s.mem i).lastOutput := hrest₁.lastOutput i (Or.inl rfl)
  have hdecision : decision host bm m₂ op (fun us => some (builtinResult op us))
      ((takeReading bm m₂ s₁).mem i) (rowOperands bm (takeReading bm m₂ s₁).cache op) =
      decision host bm m₂ op (fun us => some (builtinResult op us))
        ((takeReading bm m₂ s).mem i) (rowOperands bm (takeReading bm m₂ s).cache op) := by
    rw [hops, hvs]
    show (if inputsChanged (s₁.mem i) vs then _ else _) = if inputsChanged (s.mem i) vs then _ else _
    rw [if_pos (hchanged _), if_pos (hchanged _)]
    exact gatedResult_congr host bm m₂ op (s.mem i) (s₁.mem i) _ hlast
  rw [hdone₁₂.sent, hdone₂.sent, hdecision, takeReading_putsOf, takeReading_putsOf,
    putsOf_of_idle host bm hU m₁ d₁ (Or.inl rfl) hall₁ h₁]

/-- INTERNAL: a built-in row that reads no NaN and sends nothing for a message was idle. -/
theorem idle_of_silent (m : HesClmeMsg) (hrow : IsRow bm i op) (hdest : op.outDestObject ≠ [])
    (hap : op.operation ≠ lit "ap")
    (hup : AllIdle host bm m (Upstream bm i) (takeReading bm m s))
    (hnum : ∀ vs, rowOperands bm (takeReading bm m s).cache op = some vs → ∀ x ∈ vs, eq x x = true)
    (h : bmEvaluateAll host bm m d₃ (takeReading bm m s) = .returned s₂)
    (hsilent : putsOf i s₂.trace = putsOf i s.trace) :
    Idle host bm m op (s.mem i) (takeReading bm m s).cache := by
  have hdone := bmEvaluateAll_row_done host bm m hrow (computes_builtin host op hap) d₃ _ s₂
    (fun vs hvs => Or.inl (hnum vs hvs)) hup h
  have hsent := hdone.sent
  rw [takeReading_putsOf, hsilent] at hsent
  have hnone : sentFor op (decision host bm m op (fun vs => some (builtinResult op vs))
      ((takeReading bm m s).mem i) (rowOperands bm (takeReading bm m s).cache op)) = [] :=
    List.append_cancel_left (hsent.symm.trans (List.append_nil _).symm)
  refine idle_of_no_result host bm m (s := takeReading bm m s) (i := i) hap ?_
  rw [decideOutput_decision host bm m (computes_builtin host op hap) i (takeReading bm m s)]
  cases hd : decision host bm m op (fun vs => some (builtinResult op vs))
      ((takeReading bm m s).mem i) (rowOperands bm (takeReading bm m s).cache op) with
  | none => rfl
  | some v =>
    rw [hd] at hnone
    simp [sentFor, hdest] at hnone

end Orders

/-- A denied message, and then a message that reports the same: compared with the second
message alone the row's PUTs are the same when the row stays silent for it, or comes to its result
again. With its upstream rows at rest, and for a built-in row that comes to rest on what it reads,
these are the only cases in which they are.
SRCLINE: bm.c:624-769, bm.c:992-1081 -/
theorem denied_first (s : BmState V α) (hs : Reachable host bm s)
    (hauthz : bm.authzDisabled = false) (i : ℕ) (op : BmOperation V) (hrow : IsRow bm i op)
    (hau : ∃ inp ∈ op.inputs, inp.accompanyOp = lit "au") (hdest : op.outDestObject ≠ [])
    (m₁ m₂ : HesClmeMsg) (hsame : SameReport m₁ m₂) (hdeny : hookAccepts host m₁ op = false)
    (d₁ d₂ d₃ : ℕ) (s₁ s₁₂ s₂ : BmState V α)
    (h₁ : bmProcessorHandle host bm m₁ d₁ s = .returned s₁)
    (h₁₂ : bmProcessorHandle host bm m₂ d₂ s₁ = .returned s₁₂)
    (h₂ : bmProcessorHandle host bm m₂ d₃ s = .returned s₂) :
    (StaysSilent host bm m₁ m₂ i op s ∨ ComesAgain host bm m₁ m₂ i op s →
      putsOf i s₁₂.trace = putsOf i s₂.trace) ∧
    (UpstreamRests host bm m₁ i s → UpstreamRests host bm m₂ i s → op.operation ≠ lit "ap" →
      (∀ vs, rowOperands bm (takeReading bm m₂ s).cache op = some vs → RestsOn op vs) →
      putsOf i s₁₂.trace = putsOf i s₂.trace →
      NothingToSend host bm m₂ i op s ∨ ComesAgain host bm m₁ m₂ i op s) := by
  -- the operands hold a NaN, or none
  have hnanOr : UpstreamRests host bm m₁ i s → UpstreamRests host bm m₂ i s →
      (∀ vs, rowOperands bm (takeReading bm m₂ s).cache op = some vs → RestsOn op vs) →
      ComesAgain host bm m₁ m₂ i op s ∨
        ∀ vs, rowOperands bm (takeReading bm m₂ s).cache op = some vs →
          ∀ x ∈ vs, eq x x = true := by
    intro hup₁ hup₂ hrests
    by_contra hneither
    obtain ⟨hnot, hsome⟩ := not_or.mp hneither
    push Not at hsome
    obtain ⟨vs, hvs, x, hx, hno⟩ := hsome
    exact hnot ⟨hup₁, hup₂, vs, hvs, hrests vs hvs, x, hx, Bool.eq_false_of_not_eq_true hno⟩
  rcases stored_or_not bm m₁ (readingOf m₁ : V) s.cache with ⟨hrep₁, hflag₁⟩ | hno
  swap
  · obtain ⟨hputs, hcache⟩ := order_unstored host bm (i := i) hsame hno h₁ h₁₂ h₂
    refine ⟨fun _ => hputs, fun hup₁ hup₂ _ hrests _ => ?_⟩
    rcases hnanOr hup₁ hup₂ hrests with hagain | hnum
    · exact Or.inr hagain
    · refine Or.inl fun hrep => ?_
      rw [hcache hrep] at hnum ⊢
      exact idle_of_settled host bm m₂ fun vs hvs =>
        ⟨ReachableBy.settled hs i op hrow vs hvs, hnum vs hvs⟩
  have hrep₂ : isReport m₂ = true := hsame.isReport.trans hrep₁
  have hflag₂ : ∀ cache, (storeReading bm m₂ (readingOf m₂ : V) cache).2 = true := by
    intro cache
    rw [hsame.storeReading, storeReading_flag bm m₁ _ (readingOf m₁) cache s.cache]
    exact hflag₁
  rw [bmProcessorHandle_stored host bm m₁ d₁ s hrep₁ hflag₁] at h₁
  rw [bmProcessorHandle_stored host bm m₂ d₂ s₁ hrep₂ (hflag₂ _)] at h₁₂
  rw [bmProcessorHandle_stored host bm m₂ d₃ s hrep₂ (hflag₂ _)] at h₂
  have hrefused := outputAuthorized_denied host bm m₁ op hauthz hau hdeny
  refine ⟨?_, ?_⟩
  · rintro ((⟨hup₁, hup₂, hnothing⟩ | hbarren) | ⟨hup₁, hup₂, vs, hvs, hrests, hnan⟩)
    · have hidle₂ := hnothing hrep₂
      have hidle₁ : Idle host bm m₁ op (s.mem i) (takeReading bm m₁ s).cache := by
        intro vs hvs hch
        rw [← hsame.takeReading] at hvs
        exact ⟨(hidle₂ vs hvs hch).1, gatedResult_refused host bm m₁ op _ _ hdest hrefused⟩
      have hall₂ := allIdle_insert host bm m₂ (s := takeReading bm m₂ s) hrow hidle₂ (hup₂ hrep₂)
      rw [order_first_idle host bm hsame hrow (hup₁ hrep₁) (hup₂ hrep₂) hidle₁ (Or.inl hidle₂) h₁ h₁₂,
        putsOf_of_idle host bm (insert_upstream_upClosed bm i) m₂ d₃ (Or.inl rfl) hall₂ h₂]
    · exact order_barren host bm hsame hrow hdest hrefused (hbarren hrep₂) h₁ h₁₂ h₂
    · exact order_again host bm hsame hrow hdest hrefused (hup₁ hrep₁) (hup₂ hrep₂) hvs hrests hnan
        h₁ h₁₂ h₂
  · intro hup₁ hup₂ hap hrests heq
    rcases hnanOr hup₁ hup₂ hrests with hagain | hnum
    · exact Or.inr hagain
    · refine Or.inl fun _ => ?_
      have hidle₁ : Idle host bm m₁ op (s.mem i) (takeReading bm m₁ s).cache := fun vs _ _ =>
        ⟨hap, gatedResult_refused host bm m₁ op _ _ hdest hrefused⟩
      have hfirst := order_first_idle host bm hsame hrow (hup₁ hrep₁) (hup₂ hrep₂) hidle₁
        (Or.inr hnum) h₁ h₁₂
      exact idle_of_silent host bm m₂ hrow hdest hap (hup₂ hrep₂) hnum h₂ (heq.symm.trans hfirst)

/-! ## The lamp -/

/-- The state after a denied press: the row was looked at and refused. -/
def lampDenied : BmState Binary64 Unit where
  cache := Function.update (fun _ => none) 1 (some one)
  mem := Function.update (fun _ => {}) 0 { lastOperands := some [one] }
  app := ()
  trace := [.report (press (lit "un=b") (lit "1")), .operands 0 [one],
    .authCall 0 (press (lit "un=b") (lit "1")) (bmAtAddress lampRow) false]

/-- INTERNAL: presses report the same whoever sends them. -/
theorem press_sameReport (credential credential' payload : CStr) :
    SameReport (press credential payload) (press credential' payload) :=
  ⟨rfl, rfl, rfl, rfl⟩

/-- INTERNAL: the lamp's row reads the button only. -/
theorem lampMap_sourceFed : SourceFed lampMap 0 := by
  rintro d ⟨op, hrow, -, inp, hinp, rfl⟩ j ⟨op', hrow', -, -, hout⟩
  obtain ⟨-, rfl⟩ := lampMap_row hrow
  obtain ⟨-, rfl⟩ := lampMap_row hrow'
  obtain rfl := List.mem_singleton.mp hinp
  exact absurd hout (by decide)

/-- A denied press makes the granted press that reports the same send nothing. -/
theorem lamp_denied_first_swallows :
    Reachable lampHost lampMap (BmState.initial ()) ∧ lampMap.authzDisabled = false ∧
      IsRow lampMap 0 lampRow ∧ (∃ inp ∈ lampRow.inputs, inp.accompanyOp = lit "au") ∧
      lampRow.outDestObject ≠ [] ∧
      SameReport (press (lit "un=b") (lit "1")) (press (lit "un=a") (lit "1")) ∧
      hookAccepts lampHost (press (lit "un=b") (lit "1")) lampRow = false ∧
      hookAccepts lampHost (press (lit "un=a") (lit "1")) lampRow = true ∧
      ∃ s₁ s₁₂ s₂, bmProcessorHandle lampHost lampMap (press (lit "un=b") (lit "1")) 2
          (BmState.initial ()) = .returned s₁ ∧
        bmProcessorHandle lampHost lampMap (press (lit "un=a") (lit "1")) 2 s₁ = .returned s₁₂ ∧
        bmProcessorHandle lampHost lampMap (press (lit "un=a") (lit "1")) 2
          (BmState.initial ()) = .returned s₂ ∧
        putsOf 0 s₁₂.trace = [] ∧ putsOf 0 s₂.trace = [putMessage lampRow CDouble.one] := by
  refine ⟨ReachableBy.init lampMap (), rfl, rfl, ⟨_, List.mem_singleton.mpr rfl, rfl⟩,
    by decide, press_sameReport _ _ _, by decide, by decide, lampDenied, _, _,
    rfl, Outcome.eq_returned_state _ (by decide), Outcome.eq_returned_state _ (by decide),
    by decide, by decide⟩

/-- The cache after a granted press: the lamp is on. -/
def lampOnCache : ValueCache Binary64 :=
  Function.update (Function.update (fun _ => none) 1 (some one)) 2 (some one)

/-- The state after a granted press. The row was looked at, recorded 1, was looked at once
more by the evaluation that started, and sent. -/
def lampOn : BmState Binary64 Unit where
  cache := lampOnCache
  mem :=
    let once := Function.update (fun _ => {}) 0 { lastOperands := some [one] }
    let recorded := Function.update once 0 { lastOutput := some one, lastOperands := some [one] }
    Function.update recorded 0 { lastOutput := some one, lastOperands := some [one] }
  app := ()
  trace := [.report (press (lit "un=a") (lit "1")), .operands 0 [one],
    .authCall 0 (press (lit "un=a") (lit "1")) (bmAtAddress lampRow) true, .commit 0 2 one,
    .operands 0 [one], .put 0 (putMessage lampRow one) fun di => (lampOnCache di).isSome]

/-- The state after a denied press while the lamp is on: the operands are unchanged. -/
def lampOnDenied : BmState Binary64 Unit where
  cache := Function.update lampOnCache 1 (some one)
  mem := Function.update lampOn.mem 0 { lastOutput := some one, lastOperands := some [one] }
  app := ()
  trace := lampOn.trace ++ [.report (press (lit "un=b") (lit "1")), .operands 0 [one]]

/-- With the lamp on, a denied press before a granted one changes nothing: neither sends. -/
theorem denied_first_lamp :
    NothingToSend lampHost lampMap (press (lit "un=a") (lit "1")) 0 lampRow lampOn ∧
      putsOf 0 (bmProcessorHandle lampHost lampMap (press (lit "un=a") (lit "1")) 2
          (bmProcessorHandle lampHost lampMap (press (lit "un=b") (lit "1")) 2
            lampOn).state).state.trace =
        putsOf 0 (bmProcessorHandle lampHost lampMap (press (lit "un=a") (lit "1")) 2
          lampOn).state.trace := by
  have hon : Reachable lampHost lampMap lampOn :=
    ReachableBy.handle (press (lit "un=a") (lit "1")) 2 (ReachableBy.init lampMap ()) trivial rfl
  have hnothing : NothingToSend lampHost lampMap (press (lit "un=a") (lit "1")) 0 lampRow
      lampOn := by
    intro _ vs hvs hch
    have hoperands : vs = [readingOf (press (lit "un=a") (lit "1"))] :=
      Option.some.inj (hvs.symm.trans rfl)
    rw [hoperands] at hch
    exact absurd hch (by decide +kernel)
  have hdenied : bmProcessorHandle lampHost lampMap (press (lit "un=b") (lit "1")) 2 lampOn =
      .returned lampOnDenied := rfl
  refine ⟨hnothing, ?_⟩
  rw [hdenied]
  exact (denied_first lampHost lampMap lampOn hon rfl 0 lampRow rfl
    ⟨_, List.mem_singleton.mpr rfl, rfl⟩ (by decide) (press (lit "un=b") (lit "1"))
    (press (lit "un=a") (lit "1")) (press_sameReport _ _ _) (by decide) 2 2 2 lampOnDenied _ _
    hdenied (Outcome.eq_returned_state _ (by decide +kernel))
    (Outcome.eq_returned_state _ (by decide +kernel))).1
    (Or.inl (Or.inl ⟨fun _ => lampMap_sourceFed.allIdle lampHost lampMap _ _,
      fun _ => lampMap_sourceFed.allIdle lampHost lampMap _ _, hnothing⟩))

end OpenHes.Analysis
