import OpenHes.Analysis.DeniedFirst
import OpenHes.Analysis.Termination

/-!
# The order of a row's PUTs

A row sends after the evaluation that its result started. If that evaluation comes back to
the row with newer operands, the newer PUT goes out first and the older one last. It
cannot when every row upstream is listed before the row: by the row's turn they are at
rest, so its operands stand until it has sent.
-/

set_option autoImplicit false

namespace OpenHes.Analysis

open OpenHes.Library OpenHes.Model
open CDouble

variable {V α : Type} [CDouble V] (host : BmHost V α) (bm : BindingMap V) (m : HesClmeMsg)

/-! ## The table order -/

omit [CDouble V] in
/-- INTERNAL: the rows that a pass has yet to visit have higher indexes. -/
theorem index_lt_of_rest {front rest : List (BmOperation V × ℕ)} {row row' : BmOperation V × ℕ}
    (h : bm.ops.zipIdx = front ++ row :: rest) (hrow' : row' ∈ rest) : row.2 < row'.2 := by
  have hsorted : ((bm.ops.zipIdx).map Prod.snd).Pairwise (· < ·) := by
    rw [List.zipIdx_map_snd]
    exact List.pairwise_lt_range'
  rw [h, List.map_append, List.map_cons, List.pairwise_append, List.pairwise_cons] at hsorted
  exact hsorted.2.1.1 _ (List.mem_map.mpr ⟨row', hrow', rfl⟩)

/-! ## What was sent last -/

/-- From `s` to `t` the row sent nothing and remembers the same output, or what it sent last
is the output it remembers. -/
def LastSentKept (i : ℕ) (op : BmOperation V) (s t : BmState V α) : Prop :=
  ∃ evs, t.trace = s.trace ++ evs ∧
    (putsOf i evs = [] ∧ (t.mem i).lastOutput = (s.mem i).lastOutput ∨
      ∃ v, (t.mem i).lastOutput = some v ∧ (putsOf i evs).getLast? = some (putMessage op v))

section LastSent

variable {i : ℕ} {op : BmOperation V}

/-- INTERNAL: one stretch after another. -/
theorem LastSentKept.trans {s t u : BmState V α} (h₁ : LastSentKept i op s t)
    (h₂ : LastSentKept i op t u) : LastSentKept i op s u := by
  obtain ⟨evs₁, htrace₁, hcase₁⟩ := h₁
  obtain ⟨evs₂, htrace₂, hcase₂⟩ := h₂
  refine ⟨evs₁ ++ evs₂, by rw [htrace₂, htrace₁, List.append_assoc], ?_⟩
  rw [putsOf_append]
  rcases hcase₂ with ⟨hnone₂, hsame₂⟩ | ⟨v, hlast₂, hput₂⟩
  · rw [hnone₂, List.append_nil, hsame₂]
    exact hcase₁
  · refine Or.inr ⟨v, hlast₂, ?_⟩
    rw [List.getLast?_append, hput₂]
    rfl

/-- INTERNAL: a stretch in which the row sends nothing and keeps its output. -/
theorem lastSentKept_of_quiet {s t : BmState V α} (evs : List (BmEvent V))
    (htrace : t.trace = s.trace ++ evs) (hputs : putsOf i t.trace = putsOf i s.trace)
    (hsame : (t.mem i).lastOutput = (s.mem i).lastOutput) : LastSentKept i op s t := by
  refine ⟨evs, htrace, Or.inl ⟨?_, hsame⟩⟩
  rw [htrace, putsOf_append] at hputs
  exact List.append_cancel_left (hputs.trans (List.append_nil _).symm)

/-- INTERNAL: looking at any row is such a stretch. -/
theorem lastSentKept_look (j : ℕ) (op' : BmOperation V) (s : BmState V α) :
    LastSentKept i op s (decideOutput host bm m j op' s).1 := by
  obtain ⟨calls, -, htrace⟩ := decideOutput_trace host bm m j op' s
  exact lastSentKept_of_quiet _ htrace (decideOutput_putsOf host bm m j i op' s)
    (decideOutput_lastOutput host bm m j i op' s)

/-- INTERNAL: so is recording another row's result. -/
theorem lastSentKept_commit {j : ℕ} (hji : j ≠ i) (op' : BmOperation V) (v : V)
    (s : BmState V α) : LastSentKept i op s (commitOutput j op' v s) :=
  lastSentKept_of_quiet _ rfl (commitOutput_putsOf j i op' v s)
    (by rw [commitOutput_mem_ne j i op' v s (Ne.symm hji)])

/-- INTERNAL: and sending for another row. -/
theorem lastSentKept_send {j : ℕ} (hji : j ≠ i) (op' : BmOperation V) (v : V)
    (s : BmState V α) : LastSentKept i op s (sendPut j op' v s) := by
  have hputs : putsOf i (sendPut j op' v s).trace = putsOf i s.trace := by
    rw [sendPut_putsOf, if_neg (Ne.symm hji), List.append_nil]
  have hmem := (sendPut_frame j op' v s).2.1
  unfold sendPut at hputs hmem ⊢
  split
  next hdest =>
    exact lastSentKept_of_quiet [] (by simp) rfl rfl
  next hdest =>
    rw [if_neg hdest] at hputs
    exact lastSentKept_of_quiet _ rfl hputs rfl

/-- INTERNAL: sending the output the row remembers. -/
theorem lastSentKept_own_send (hdest : op.outDestObject ≠ []) {v : V} {s t : BmState V α}
    (evs : List (BmEvent V)) (htrace : t.trace = s.trace ++ evs)
    (hlast : (t.mem i).lastOutput = some v) : LastSentKept i op s (sendPut i op v t) := by
  unfold sendPut
  rw [if_neg hdest]
  refine ⟨evs ++ [.put i (putMessage op v) fun di => (t.cache di).isSome], ?_,
    Or.inr ⟨v, hlast, ?_⟩⟩
  · simp [BmState.log, htrace]
  · rw [putsOf_append, List.getLast?_append]
    simp [putsOf, putOf]

end LastSent

/-! ## A row whose upstream rows rest -/

/-- INTERNAL: a built-in row that comes back to the same operands records the same result.
SRCLINE: bm.c:739-752 -/
theorem bmEvaluateAll_same_result {i : ℕ} {op : BmOperation V} {vs : List V} {v : V}
    {c : BmState V α} (hrow : IsRow bm i op) (hap : op.operation ≠ lit "ap")
    (hidle : AllIdle host bm m (Upstream bm i) c) (hvs : rowOperands bm c.cache op = some vs)
    (hv : applyCondition op.outAdjustment (builtinResult op vs) = some v)
    (hlast : (c.mem i).lastOutput = some v) (depth : ℕ) :
    ((bmEvaluateAll host bm m depth c).state.mem i).lastOutput = some v := by
  have hU := upstream_upClosed bm i
  let Same : BmState V α → Prop := fun t =>
    Undisturbed host bm m (Upstream bm i) c t ∧ (t.mem i).lastOutput = some v
  have hrun : Same (bmEvaluateAll host bm m depth c).state := by
    refine bmEvaluateAll_rel host bm m (fun s t => Same s → Same t) (fun _ h => h)
      (fun _ _ _ h₁ h₂ h => h₂ (h₁ h)) ?_ ?_ ?_ depth c
      ⟨Undisturbed.refl host bm m _ hidle, hlast⟩
    · rintro j op' s t hrow' hdec ⟨hrest, hs⟩
      have hlook := Undisturbed.look host bm m (Upstream bm i) j op' s hrow' hrest.idle
      have hout := decideOutput_lastOutput host bm m j i op' s
      rw [hdec] at hlook hout
      exact ⟨hrest.trans host bm m _ hlook, hout.trans hs⟩
    · rintro j op' s t w hrow' hdec ⟨hrest, hs⟩
      have hlook := Undisturbed.look host bm m (Upstream bm i) j op' s hrow' hrest.idle
      have hout := decideOutput_lastOutput host bm m j i op' s
      have hj := hrest.idle.not_mem_of_result host bm m _ hrow' hdec
      rw [hdec] at hlook hout
      refine ⟨(hrest.trans host bm m _ hlook).record host bm m _ hU j op' c t w hrow' hj
        (enabled_of_result host bm m hdec), ?_⟩
      by_cases hji : j = i
      · subst hji
        obtain rfl := hrow.unique hrow'
        obtain ⟨ws, raw, hws, -, hraw, hadj, -⟩ := decideOutput_some host bm m j op s t w hdec
        rw [Undisturbed.rowOperands host bm m hrow hrest, hvs] at hws
        obtain rfl := Option.some.inj hws
        rw [computeResult_builtin host j op vs _ hap] at hraw
        obtain rfl := Option.some.inj hraw
        rw [commitOutput_mem_self]
        exact hadj.symm.trans hv
      · rw [commitOutput_mem_ne j i op' w t (Ne.symm hji)]
        exact hout.trans hs
    · rintro j op' s t w u hrow' hdec - hall hs
      obtain ⟨hrest, hsame⟩ := hall hs
      have hj := hs.1.idle.not_mem_of_result host bm m _ hrow' hdec
      refine ⟨hrest.send host bm m _ j op' c u w hj, ?_⟩
      rw [(sendPut_frame j op' w u).2.1]
      exact hsame
  exact hrun.2

/-- The rows that a message leaves alone: in `s` they are idle, and so is everything upstream
of them. -/
def AtRest (s : BmState V α) : Set ℕ :=
  { j | AllIdle host bm m (insert j (Upstream bm j)) s }

/-- INTERNAL: what feeds a row left alone is left alone. -/
theorem atRest_upClosed (s : BmState V α) : UpClosed bm (AtRest host bm m s) := by
  intro j k hfeeds hk i hi
  refine hk i (Or.inr ?_)
  rcases hi with rfl | hi
  · exact Relation.TransGen.single hfeeds
  · exact Relation.TransGen.tail hi hfeeds

/-- INTERNAL: and is idle. -/
theorem atRest_allIdle (s : BmState V α) : AllIdle host bm m (AtRest host bm m s) s :=
  fun j hj op hrow => hj j (Or.inl rfl) op hrow

/-- The app of row `j`, if the row is one's, reads no NaN in a cache that can come up. -/
def AppReadsNumbers (cache : ValueCache V) (j : ℕ) : Prop :=
  ∀ op, IsRow bm j op → op.operation = lit "ap" → ∀ cache', CacheReach host bm m cache cache' →
    ∀ vs, rowOperands bm cache' op = some vs → ∀ x ∈ vs, eq x x = true

/-- Row `j` comes to rest on any operands that can come up. -/
def AlwaysRests (cache : ValueCache V) (j : ℕ) : Prop :=
  ∀ op, IsRow bm j op → ∀ cache', CacheReach host bm m cache cache' →
    ∀ vs, rowOperands bm cache' op = some vs → RestsOn op vs

/-- The rows upstream of row `k`, apart from the rows of `R`, are listed before it. -/
structure ListedLast (R : Set ℕ) (cache : ValueCache V) (k : ℕ) : Prop where
  before : ∀ j ∈ Upstream bm k, j ∉ R → j < k
  numbers : ∀ j ∈ Upstream bm k, AppReadsNumbers host bm m cache j

/-- Row `k` is idle in `s`, and of the rows that feed it only row `j` is none of `R`. -/
structure FedBy (R : Set ℕ) (s : BmState V α) (j k : ℕ) : Prop where
  idle : AllIdle host bm m {k} s
  only : ∀ i, Feeds bm i k → i ∉ R → i = j
  rests : AlwaysRests host bm m s.cache j

/-- In an evaluation from `s`, the rows of `R` being left alone, row `k` has a result only when
everything upstream of it rests: by then the pass has been over all of that, or the one row
that feeds it was itself in turn. -/
inductive InTurn (R : Set ℕ) (s : BmState V α) : ℕ → Prop
  | listed {k : ℕ} (h : ListedLast host bm m R s.cache k) : InTurn R s k
  | fed {j k : ℕ} (hj : InTurn R s j) (h : FedBy host bm m R s j k) : InTurn R s k

/-- The condition under which a row sends in the order it records: it starts no evaluation, or
it is in turn, and is no app that reads a NaN. -/
structure SendsInOrder (R : Set ℕ) (s : BmState V α) (i : ℕ) (op : BmOperation V) : Prop where
  turn : hasSlot op.outDeviceIndex = true → InTurn host bm m R s i
  numbers : hasSlot op.outDeviceIndex = true → AppReadsNumbers host bm m s.cache i

/-- INTERNAL: **the row's turn.** With its upstream rows at rest, the row sends what it
remembers, and sends it last. -/
theorem evaluateOp_own_order {cache : ValueCache V} {i : ℕ} {op : BmOperation V}
    (hrow : IsRow bm i op) (hdest : op.outDestObject ≠ []) (hself : i ∉ Upstream bm i)
    (hnum : AppReadsNumbers host bm m cache i) {s t : BmState V α} {v : V}
    (hreach : CacheReach host bm m cache s.cache)
    (hidle : AllIdle host bm m (Upstream bm i) s)
    (hdec : decideOutput host bm m i op s = (t, some v)) (depth : ℕ) {u : BmState V α}
    (hu : bmEvaluateAll host bm m depth (commitOutput i op v t) = .returned u) :
    LastSentKept i op s (sendPut i op v u) := by
  have hnofeed : ¬ Feeds bm i i := fun h => hself (Relation.TransGen.single h)
  have hlook := Undisturbed.look host bm m (Upstream bm i) i op s hrow hidle
  rw [hdec] at hlook
  have hrec := hlook.record host bm m _ (upstream_upClosed bm i) i op s t v hrow hself
    (enabled_of_result host bm m hdec)
  obtain ⟨vs, raw, hvs, -, hraw, hadj, -⟩ := decideOutput_some host bm m i op s t v hdec
  have hcommit : ((commitOutput i op v t).mem i).lastOutput = some v := by
    rw [commitOutput_mem_self]
  have hlast : (u.mem i).lastOutput = some v := by
    by_cases hap : op.operation = lit "ap"
    · -- the app is not asked again while its operands stand
      have hrest := idle_of_commit host bm m hrow hnofeed
        (fun ws hws => Or.inl (hnum op hrow hap _ hreach ws hws)) hdec
      have hin := bmEvaluateAll_undisturbed host bm m _ (insert_upstream_upClosed bm i) depth _
        (allIdle_insert host bm m hrow hrest hrec.idle)
      rw [hu] at hin
      exact (hin.lastOutput i (Or.inl rfl)).trans hcommit
    · rw [computeResult_builtin host i op vs _ hap] at hraw
      obtain rfl := Option.some.inj hraw
      have hagain := bmEvaluateAll_same_result host bm m hrow hap hrec.idle
        ((rowOperands_commit host bm m hrow hnofeed hdec).trans hvs) hadj hcommit depth
      rwa [hu] at hagain
  -- the trace grew from `s` to `u`
  have hrun := bmEvaluateAll_undisturbed host bm m _ (upstream_upClosed bm i) depth _ hrec.idle
  rw [hu] at hrun
  obtain ⟨evs, htrace, -⟩ := (hrec.trans host bm m _ hrun).trace
  exact lastSentKept_own_send hdest evs htrace hlast

/-! ## Turns over an evaluation -/

section Order

variable {R : Set ℕ} {s₀ : BmState V α}

/-- Before a row that is fed has a result, it is idle or what is upstream of it rests. -/
def Awaited (R : Set ℕ) (s₀ t : BmState V α) : Prop :=
  ∀ j k, InTurn host bm m R s₀ j → FedBy host bm m R s₀ j k →
    AllIdle host bm m {k} t ∨ AllIdle host bm m (Upstream bm k) t

/-- What an evaluation from `s₀` keeps in a pass with the rows `rest` still to come. -/
structure TurnsKept (R : Set ℕ) (s₀ : BmState V α) (rest : List (BmOperation V × ℕ))
    (t : BmState V α) : Prop where
  reach : CacheReach host bm m s₀.cache t.cache
  resting : AllIdle host bm m R t
  visited : ∀ k, ListedLast host bm m R s₀.cache k → ∀ j ∈ Upstream bm k, ∀ op, IsRow bm j op →
    (op, j) ∉ rest → Idle host bm m op (t.mem j) t.cache
  awaited : Awaited host bm m R s₀ t

omit [CDouble V] in
/-- INTERNAL: a row that feeds another writes a device with a slot. -/
theorem slot_of_feeds {i j : ℕ} {op : BmOperation V} (h : Feeds bm j i) (hrow : IsRow bm j op) :
    hasSlot op.outDeviceIndex = true := by
  obtain ⟨d, ⟨op', hrow', -, hslot, hdev⟩, -⟩ := h
  rw [hrow.unique hrow', hdev]
  exact hslot

omit [CDouble V] in
/-- INTERNAL: and so does a row upstream of another. -/
theorem slot_of_upstream {i j : ℕ} {op : BmOperation V} (h : j ∈ Upstream bm i)
    (hrow : IsRow bm j op) : hasSlot op.outDeviceIndex = true := by
  obtain ⟨k, hfeeds, -⟩ := Relation.TransGen.head'_iff.mp h
  exact slot_of_feeds bm hfeeds hrow

omit [CDouble V] in
/-- INTERNAL: upstream of a row are the rows that feed it, and what is upstream of them. -/
theorem upstream_cases {i k : ℕ} (h : i ∈ Upstream bm k) :
    ∃ j, Feeds bm j k ∧ (i = j ∨ i ∈ Upstream bm j) := by
  obtain ⟨j, hpath, hfeeds⟩ := Relation.TransGen.tail'_iff.mp h
  rcases Relation.reflTransGen_iff_eq_or_transGen.mp hpath with heq | htrans
  · exact ⟨j, hfeeds, Or.inl heq.symm⟩
  · exact ⟨j, hfeeds, Or.inr htrans⟩

/-- INTERNAL: a row in turn that has a result at its turn has its upstream rows at rest. -/
theorem TurnsKept.upstream_idle {j : ℕ} {op : BmOperation V} (hturn : InTurn host bm m R s₀ j)
    (hrow : IsRow bm j op) {front rest : List (BmOperation V × ℕ)}
    (hrows : bm.ops.zipIdx = front ++ (op, j) :: rest) {s t : BmState V α} {v : V}
    (hs : TurnsKept host bm m R s₀ ((op, j) :: rest) s)
    (hdec : decideOutput host bm m j op s = (t, some v)) :
    AllIdle host bm m (Upstream bm j) s := by
  cases hturn with
  | listed hlast =>
    intro k hk op' hrow'
    by_cases hR : k ∈ R
    · exact hs.resting k hR op' hrow'
    refine hs.visited j hlast k hk op' hrow' fun hmem => ?_
    have hkj : k < j := hlast.before k hk hR
    rcases List.mem_cons.mp hmem with heq | hmem
    · have hsame : k = j := (Prod.mk.inj heq).2
      omega
    · have hlater : j < k := index_lt_of_rest bm hrows hmem
      omega
  | fed hi hfed =>
    rcases hs.awaited _ j hi hfed with hidle | hup
    · exact absurd rfl (hidle.not_mem_of_result host bm m {j} hrow hdec)
    · exact hup

/-- INTERNAL: a look that comes to nothing keeps the turns. -/
theorem TurnsKept.look {j : ℕ} {op : BmOperation V} (hrow : IsRow bm j op)
    {rest : List (BmOperation V × ℕ)} {s t : BmState V α}
    (hs : TurnsKept host bm m R s₀ ((op, j) :: rest) s)
    (hdec : decideOutput host bm m j op s = (t, none)) : TurnsKept host bm m R s₀ rest t := by
  have hcache := decideOutput_cache host bm m j op s
  have hlook : ∀ U, AllIdle host bm m U s → AllIdle host bm m U t := by
    intro U hU
    have hafter := (Undisturbed.look host bm m U j op s hrow hU).idle
    rwa [hdec] at hafter
  rw [hdec] at hcache
  refine
    { reach := by rw [hcache]; exact hs.reach
      resting := hlook R hs.resting
      visited := ?_
      awaited := fun i k hi hfed => (hs.awaited i k hi hfed).imp (hlook _) (hlook _) }
  intro k hlast i hi op' hrow' hnot
  by_cases hij : i = j
  · subst hij
    obtain rfl := hrow.unique hrow'
    exact idle_of_look host bm m (fun hap vs hvs =>
      hlast.numbers i hi op hrow hap _ hs.reach vs hvs) hdec
  · have hmem := decideOutput_mem_ne host bm m j i op s hij
    rw [hdec] at hmem
    rw [hmem, hcache]
    refine hs.visited k hlast i hi op' hrow' fun hin => ?_
    rcases List.mem_cons.mp hin with heq | hin
    · exact hij (Prod.mk.inj heq).2
    · exact hnot hin

/-- INTERNAL: recording a result keeps the rows awaited that were.
SRCLINE: bm.c:739-752 -/
theorem TurnsKept.awaited_commit (hR : UpClosed bm R) {j : ℕ} {op : BmOperation V}
    (hrow : IsRow bm j op) {front rest : List (BmOperation V × ℕ)}
    (hrows : bm.ops.zipIdx = front ++ (op, j) :: rest) {s t : BmState V α} {v : V}
    (hs : TurnsKept host bm m R s₀ ((op, j) :: rest) s)
    (hdec : decideOutput host bm m j op s = (t, some v)) :
    Awaited host bm m R s₀ (commitOutput j op v t) := by
  have hen := enabled_of_result host bm m hdec
  -- idle rows that row `j` does not feed stay idle
  have hkeep : ∀ U, AllIdle host bm m U s → (∀ k ∈ U, ¬ Feeds bm j k) →
      AllIdle host bm m U (commitOutput j op v t) := by
    intro U hU hfeeds
    have hlook := (Undisturbed.look host bm m U j op s hrow hU).idle
    rw [hdec] at hlook
    exact hlook.commit host bm m U hrow (hU.not_mem_of_result host bm m U hrow hdec) hen hfeeds
  have hclosed : ∀ U, UpClosed bm U → AllIdle host bm m U s →
      AllIdle host bm m U (commitOutput j op v t) := by
    intro U hup hU
    have hj := hU.not_mem_of_result host bm m U hrow hdec
    exact hkeep U hU fun k hk hfeeds => hj (hup j k hfeeds hk)
  intro i k hi hfed
  rcases hs.awaited i k hi hfed with hidle | hrest
  swap
  · exact Or.inr (hclosed _ (upstream_upClosed bm k) hrest)
  by_cases hfeeds : Feeds bm j k
  swap
  · exact Or.inl (hkeep {k} hidle (by rintro k' rfl; exact hfeeds))
  -- row `j` is the row that row `k` waits for, and everything upstream of it rests
  obtain rfl : j = i := hfed.only j hfeeds (hs.resting.not_mem_of_result host bm m R hrow hdec)
  have hup := hs.upstream_idle host bm m hi hrow hrows hdec
  have hself : ¬ Feeds bm j j := fun h =>
    hup.not_mem_of_result host bm m _ hrow hdec (Relation.TransGen.single h)
  have hown := idle_of_commit host bm m hrow hself (hfed.rests op hrow _ hs.reach) hdec
  have hupAfter := hclosed _ (upstream_upClosed bm j) hup
  have hRAfter := hclosed R hR hs.resting
  refine Or.inr fun l hl op' hrow' => ?_
  obtain ⟨i, hik, hli⟩ := upstream_cases bm hl
  by_cases hiR : i ∈ R
  · rcases hli with rfl | hli
    · exact hRAfter l hiR op' hrow'
    · exact hRAfter l (upClosed_upstream bm hR hiR hli) op' hrow'
  · obtain rfl : i = j := hfed.only i hik hiR
    exact allIdle_insert host bm m hrow hown hupAfter l hli op' hrow'

/-- INTERNAL: a row that writes no device keeps the turns when it records and sends. -/
theorem TurnsKept.no_slot (hR : UpClosed bm R) {j : ℕ} {op : BmOperation V}
    (hrow : IsRow bm j op) (hslot : hasSlot op.outDeviceIndex = false)
    {front rest : List (BmOperation V × ℕ)} (hrows : bm.ops.zipIdx = front ++ (op, j) :: rest)
    {s t : BmState V α} {v : V} (hs : TurnsKept host bm m R s₀ ((op, j) :: rest) s)
    (hdec : decideOutput host bm m j op s = (t, some v)) :
    TurnsKept host bm m R s₀ rest (commitOutput j op v t) := by
  have hlook := Undisturbed.look host bm m R j op s hrow hs.resting
  have hcache := decideOutput_cache host bm m j op s
  rw [hdec] at hlook hcache
  have hrec := hlook.record host bm m R hR j op s t v hrow
    (hs.resting.not_mem_of_result host bm m R hrow hdec) (enabled_of_result host bm m hdec)
  refine
    { reach := hs.reach.trans (cacheReach_commit host bm m hrow hdec)
      resting := hrec.idle
      visited := ?_
      awaited := hs.awaited_commit host bm m hR hrow hrows hdec }
  intro k hlast i hi op' hrow' hnot
  have hij : i ≠ j := by
    rintro rfl
    have hyes := slot_of_upstream bm hi hrow
    rw [hslot] at hyes
    cases hyes
  have hmem := decideOutput_mem_ne host bm m j i op s hij
  rw [hdec] at hmem
  rw [commitOutput_mem_ne j i op v t hij, commitOutput_cache_no_slot j op v t hslot, hmem, hcache]
  refine hs.visited k hlast i hi op' hrow' fun hin => ?_
  rcases List.mem_cons.mp hin with heq | hin
  · exact hij (Prod.mk.inj heq).2
  · exact hnot hin

/-- INTERNAL: sending keeps the turns. -/
theorem TurnsKept.send {j : ℕ} {op : BmOperation V} {v : V} {rest : List (BmOperation V × ℕ)}
    {t : BmState V α} (h : TurnsKept host bm m R s₀ rest t) :
    TurnsKept host bm m R s₀ rest (sendPut j op v t) := by
  obtain ⟨hcache, hmem, -⟩ := sendPut_frame j op v t
  have hkeep : ∀ U, AllIdle host bm m U t → AllIdle host bm m U (sendPut j op v t) := by
    intro U hU i hi op' hrow'
    rw [hmem, hcache]
    exact hU i hi op' hrow'
  refine
    { reach := by rw [hcache]; exact h.reach
      resting := hkeep R h.resting
      visited := ?_
      awaited := fun i k hi hfed => (h.awaited i k hi hfed).imp (hkeep _) (hkeep _) }
  intro k hlast i hi op' hrow' hnot
  rw [hmem, hcache]
  exact h.visited k hlast i hi op' hrow' hnot

/-- INTERNAL: once a pass is over, the turns are kept whatever rows are still to come in the
pass around it. -/
theorem TurnsKept.weaken {rest : List (BmOperation V × ℕ)} {t : BmState V α}
    (h : TurnsKept host bm m R s₀ [] t) : TurnsKept host bm m R s₀ rest t :=
  { h with visited := fun k hlast j hj op hrow _ => h.visited k hlast j hj op hrow (by simp) }

/-! ## The order over an evaluation -/

/-- The state in which an evaluation, or one nested in it, begins. -/
structure TurnsBegin (R : Set ℕ) (s₀ t : BmState V α) : Prop where
  reach : CacheReach host bm m s₀.cache t.cache
  resting : AllIdle host bm m R t
  awaited : Awaited host bm m R s₀ t

/-- INTERNAL: **any row's turn** keeps the turns, and the order of row `i`. -/
theorem evaluateOp_order (hR : UpClosed bm R) {i j : ℕ} {op op' : BmOperation V}
    (hrow : IsRow bm i op) (hdest : op.outDestObject ≠ [])
    (hcond : SendsInOrder host bm m R s₀ i op) (depth : ℕ)
    (hnested : ∀ s u, TurnsBegin host bm m R s₀ s → bmEvaluateAll host bm m depth s = .returned u →
      TurnsKept host bm m R s₀ [] u ∧ LastSentKept i op s u)
    {front rest : List (BmOperation V × ℕ)} (hrows : bm.ops.zipIdx = front ++ (op', j) :: rest)
    {s s' : BmState V α} (hs : TurnsKept host bm m R s₀ ((op', j) :: rest) s)
    (h : evaluateOp host bm m (bmEvaluateAll host bm m depth) (op', j) s = .returned s') :
    TurnsKept host bm m R s₀ rest s' ∧ LastSentKept i op s s' := by
  have hrow' : IsRow bm j op' := (mem_rows_iff bm (op', j)).mp (by rw [hrows]; simp)
  have hlook : LastSentKept i op s (decideOutput host bm m j op' s).1 :=
    lastSentKept_look host bm m j op' s
  rcases evaluateOp_returned host bm m _ j op' s s' h with
    hnone | ⟨t, v, hdec, ⟨hslot', rfl⟩ | ⟨hslot', u, hu, rfl⟩⟩
  · rw [hnone] at hlook
    exact ⟨hs.look host bm m hrow' hnone, hlook⟩
  · -- no device is written, so nothing is evaluated in between
    refine ⟨(hs.no_slot host bm m hR hrow' hslot' hrows hdec).send host bm m, ?_⟩
    rw [hdec] at hlook
    by_cases hji : j = i
    · subst hji
      obtain rfl := hrow.unique hrow'
      obtain ⟨evs, htrace, -⟩ := hlook
      have htrace : t.trace = s.trace ++ evs := htrace
      refine lastSentKept_own_send hdest (evs ++ [.commit j op.outDeviceIndex v]) ?_ ?_
      · simp [commitOutput, htrace]
      · rw [commitOutput_mem_self]
    · exact hlook.trans ((lastSentKept_commit hji op' v t).trans (lastSentKept_send hji op' v _))
  · have hlookR := Undisturbed.look host bm m R j op' s hrow' hs.resting
    rw [hdec] at hlook hlookR
    have hrecR := hlookR.record host bm m R hR j op' s t v hrow'
      (hs.resting.not_mem_of_result host bm m R hrow' hdec) (enabled_of_result host bm m hdec)
    have hbegin : TurnsBegin host bm m R s₀ (commitOutput j op' v t) :=
      { reach := hs.reach.trans (cacheReach_commit host bm m hrow' hdec)
        resting := hrecR.idle
        awaited := hs.awaited_commit host bm m hR hrow' hrows hdec }
    obtain ⟨hkept, hsent⟩ := hnested _ u hbegin hu
    refine ⟨(hkept.weaken host bm m).send host bm m, ?_⟩
    by_cases hji : j = i
    · subst hji
      obtain rfl := hrow.unique hrow'
      have hidle := hs.upstream_idle host bm m (hcond.turn hslot') hrow hrows hdec
      have hself := hidle.not_mem_of_result host bm m _ hrow hdec
      exact evaluateOp_own_order host bm m hrow hdest hself (hcond.numbers hslot') hs.reach
        hidle hdec depth hu
    · exact hlook.trans ((lastSentKept_commit hji op' v t).trans
        (hsent.trans (lastSentKept_send hji op' v u)))

/-- INTERNAL: an evaluation of the table that returned kept the order of the row. -/
theorem bmEvaluateAll_order (hR : UpClosed bm R) {i : ℕ} {op : BmOperation V}
    (hrow : IsRow bm i op) (hdest : op.outDestObject ≠ [])
    (hcond : SendsInOrder host bm m R s₀ i op) (hidle : AllIdle host bm m R s₀) (depth : ℕ)
    (s' : BmState V α) (h : bmEvaluateAll host bm m depth s₀ = .returned s') :
    LastSentKept i op s₀ s' := by
  have hstart : TurnsBegin host bm m R s₀ s₀ :=
    { reach := Relation.ReflTransGen.refl
      resting := hidle
      awaited := fun _ _ _ hfed => Or.inl hfed.idle }
  refine (ReentrantLoop.run_pass (evaluateOp host bm m) bm.ops.zipIdx
    (TurnsBegin host bm m R s₀)
    (fun s t => TurnsKept host bm m R s₀ [] t ∧ LastSentKept i op s t)
    (fun s rest t => TurnsKept host bm m R s₀ rest t ∧ LastSentKept i op s t)
    ?_ (fun _ _ hJ => hJ) ?_ depth s₀ s' hstart h).2
  · intro t ht
    refine ⟨{ ht with visited := ?_ }, lastSentKept_of_quiet [] (by simp) rfl rfl⟩
    intro _ _ k _ op' hrow' hnot
    exact absurd ((mem_rows_iff bm (op', k)).mpr hrow') hnot
  · rintro depth hnested front ⟨op', j⟩ rest hrows s t t' ⟨ht, hsent⟩ hret
    obtain ⟨hkept, hstep⟩ := evaluateOp_order host bm m hR hrow hdest hcond depth hnested hrows ht hret
    exact ⟨hkept, hsent.trans hstep⟩

end Order

/-! ## The order over a call, and over a run -/

/-- The condition on a message and the state it finds: each row with a destination is left
alone once the reading is stored, or sends in the order it records. -/
def InOrder (bm : BindingMap V) (s : BmState V α) (m : HesClmeMsg) : Prop :=
  isReport m = true → ∀ i op, IsRow bm i op → op.outDestObject ≠ [] →
    i ∈ AtRest host bm m (takeReading bm m s) ∨
      SendsInOrder host bm m (AtRest host bm m (takeReading bm m s)) (takeReading bm m s) i op

/-- The last PUT of row `i` among the events carries the last output of the row. -/
def LastPutCurrent (i : ℕ) (op : BmOperation V) (evs : List (BmEvent V)) (s : BmState V α) :
    Prop :=
  putsOf i evs ≠ [] → ∃ v, (s.mem i).lastOutput = some v ∧
    (putsOf i evs).getLast? = some (putMessage op v)

/-- INTERNAL: a row that kept its order since it had sent nothing. -/
theorem LastSentKept.current {i : ℕ} {op : BmOperation V} {s t : BmState V α}
    (h : LastSentKept i op s t) :
    ∃ evs, t.trace = s.trace ++ evs ∧ LastPutCurrent i op evs t := by
  obtain ⟨evs, htrace, ⟨hnone, -⟩ | hsent⟩ := h
  · exact ⟨evs, htrace, fun hne => absurd hnone hne⟩
  · exact ⟨evs, htrace, fun _ => hsent⟩

/-- INTERNAL: the order of the row's PUTs in a trace goes on. -/
theorem LastSentKept.extend {i : ℕ} {op : BmOperation V} {s t : BmState V α}
    (h : LastSentKept i op s t) (hs : LastPutCurrent i op s.trace s) :
    LastPutCurrent i op t.trace t := by
  obtain ⟨evs, htrace, ⟨hnone, hsame⟩ | ⟨v, hlast, hput⟩⟩ := h
  · rw [htrace]
    unfold LastPutCurrent
    rw [putsOf_append, hnone, List.append_nil, hsame]
    exact hs
  · intro _
    refine ⟨v, hlast, ?_⟩
    rw [htrace, putsOf_append, List.getLast?_append, hput]
    rfl

/-- INTERNAL: a call keeps the order of a row that the condition holds for. -/
theorem bmProcessorHandle_order (depth : ℕ) {s s' : BmState V α} {i : ℕ} {op : BmOperation V}
    (hrow : IsRow bm i op) (hdest : op.outDestObject ≠ []) (hcond : InOrder host bm s m)
    (h : bmProcessorHandle host bm m depth s = .returned s') : LastSentKept i op s s' := by
  have htake : LastSentKept i op s (takeReading bm m s) :=
    lastSentKept_of_quiet [.report m] rfl (takeReading_putsOf bm m i s) rfl
  rcases bmProcessorHandle_returned host bm m depth s s' h with
    rfl | ⟨hrep, ⟨rfl, -⟩ | hrun⟩
  · exact lastSentKept_of_quiet [] (by simp) rfl rfl
  · exact htake
  · refine htake.trans ?_
    have hR := atRest_upClosed host bm m (takeReading bm m s)
    have hidle := atRest_allIdle host bm m (takeReading bm m s)
    rcases hcond hrep i op hrow hdest with hi | hsends
    · have hrest := bmEvaluateAll_undisturbed host bm m _ hR depth _ hidle
      rw [hrun] at hrest
      obtain ⟨evs, htrace, -⟩ := hrest.trace
      exact lastSentKept_of_quiet evs htrace (hrest.putsOf_eq bm hi)
        (hrest.lastOutput i hi)
    · exact bmEvaluateAll_order host bm m hR hrow hdest hsends hidle depth s' hrun

/-- INTERNAL: a row without a destination sends nothing. -/
theorem putsOf_no_destination {i : ℕ} {op : BmOperation V} (hrow : IsRow bm i op)
    (hdest : op.outDestObject = []) (depth : ℕ) (s : BmState V α) :
    putsOf i (bmEvaluateAll host bm m depth s).state.trace = putsOf i s.trace := by
  refine bmEvaluateAll_rel host bm m (fun s t => putsOf i t.trace = putsOf i s.trace)
    (fun _ => rfl) (fun _ _ _ h₁ h₂ => h₂.trans h₁) ?_ ?_ ?_ depth s
  · intro j op' s t _ hdec
    have hlook := decideOutput_putsOf host bm m j i op' s
    rwa [hdec] at hlook
  · intro j op' s t v _ hdec
    have hlook := decideOutput_putsOf host bm m j i op' s
    rw [hdec] at hlook
    exact (commitOutput_putsOf j i op' v t).trans hlook
  · intro j op' s t v u hrow' _ _ hall
    rw [sendPut_putsOf, hall]
    by_cases hij : i = j
    · subst hij
      obtain rfl := hrow.unique hrow'
      simp [sentFor, hdest]
    · simp [hij]

/-- INTERNAL: a call adds to the trace. -/
theorem bmProcessorHandle_grows (depth : ℕ) {s s' : BmState V α}
    (h : bmProcessorHandle host bm m depth s = .returned s') :
    ∃ evs, s'.trace = s.trace ++ evs := by
  rcases bmProcessorHandle_returned host bm m depth s s' h with
    rfl | ⟨-, ⟨rfl, -⟩ | hrun⟩
  · exact ⟨[], by simp⟩
  · exact ⟨[.report m], rfl⟩
  · obtain ⟨evs, htrace, -⟩ := bmEvaluateAll_events host bm m (fun _ => True)
      (fun _ _ => trivial) (fun _ _ _ _ => trivial) (fun _ _ _ _ => trivial)
      (fun _ _ _ => trivial) (fun _ _ _ => trivial) depth (takeReading bm m s)
    rw [hrun] at htrace
    have htrace : s'.trace = (takeReading bm m s).trace ++ evs := htrace
    exact ⟨[.report m] ++ evs, by rw [htrace]; simp [takeReading]⟩

/-- INTERNAL: but nothing that a row without a destination sent. -/
theorem bmProcessorHandle_no_destination (depth : ℕ) {s s' : BmState V α} {i : ℕ}
    {op : BmOperation V} (hrow : IsRow bm i op) (hdest : op.outDestObject = [])
    (h : bmProcessorHandle host bm m depth s = .returned s') :
    ∃ evs, s'.trace = s.trace ++ evs ∧ putsOf i evs = [] := by
  have hputs : putsOf i s'.trace = putsOf i s.trace := by
    rcases bmProcessorHandle_returned host bm m depth s s' h with
      rfl | ⟨-, ⟨rfl, -⟩ | hrun⟩
    · rfl
    · exact takeReading_putsOf bm m i s
    · have hall := putsOf_no_destination host bm m hrow hdest depth (takeReading bm m s)
      rw [hrun] at hall
      exact hall.trans (takeReading_putsOf bm m i s)
  obtain ⟨evs, htrace⟩ := bmProcessorHandle_grows host bm m depth h
  rw [htrace, putsOf_append] at hputs
  exact ⟨evs, htrace, List.append_cancel_left (hputs.trans (List.append_nil _).symm)⟩

/-- INTERNAL: nor does it send anything in a run. -/
theorem ReachableBy.no_destination {ok : BindingMap V → BmState V α → HesClmeMsg → Prop}
    {bm : BindingMap V} {s : BmState V α} (h : ReachableBy host ok bm s) :
    ∀ i op, IsRow bm i op → op.outDestObject = [] → putsOf i s.trace = [] := by
  induction h with
  | init bm app => exact fun _ _ _ _ => rfl
  | @handle bm s s' m depth _ _ hm ih =>
    intro i op hrow hdest
    obtain ⟨evs, htrace, hnone⟩ := bmProcessorHandle_no_destination host bm m depth hrow hdest hm
    rw [htrace, putsOf_append, hnone, List.append_nil]
    exact ih i op hrow hdest
  | @setAt bm bm' s atAddress value _ hset ih =>
    intro i op' hrow' hdest'
    obtain ⟨op, hrow, heq⟩ := row_of_erased (bmSetAt_erased hset).2 hrow'
    have hdest : (eraseAuthorType op').outDestObject = (eraseAuthorType op).outDestObject := by
      rw [heq]
    exact ih i op hrow (hdest.symm.trans hdest')

/-- INTERNAL: what a row sends does not depend on authorTypes of outputs. -/
theorem putMessage_erased {op op' : BmOperation V}
    (h : eraseAuthorType op' = eraseAuthorType op) (v : V) :
    putMessage op' v = putMessage op v := by
  have hdev : (eraseAuthorType op').outDeviceIndex = (eraseAuthorType op).outDeviceIndex := by
    rw [h]
  have hdest : (eraseAuthorType op').outDestObject = (eraseAuthorType op).outDestObject := by
    rw [h]
  simp only [eraseAuthorType] at hdev hdest
  unfold putMessage
  rw [hdev, hdest]

/-- INTERNAL: **every run in order.** In a run whose messages all meet the condition, the
last PUT a row sent carries the output the row remembers. -/
theorem ReachableBy.lastPutCurrent {bm : BindingMap V} {s : BmState V α}
    (h : ReachableBy host (InOrder host) bm s) :
    ∀ i op, IsRow bm i op → LastPutCurrent i op s.trace s := by
  induction h with
  | init bm app => exact fun i op _ hne => absurd rfl hne
  | @handle bm s s' m depth hs hok hm ih =>
    intro i op hrow
    by_cases hdest : op.outDestObject = []
    · have hnone := ReachableBy.no_destination host (ReachableBy.handle m depth hs hok hm) i op
        hrow hdest
      exact fun hne => absurd hnone hne
    · exact (bmProcessorHandle_order host bm m depth hrow hdest hok hm).extend (ih i op hrow)
  | @setAt bm bm' s atAddress value _ hset ih =>
    intro i op' hrow'
    obtain ⟨op, hrow, heq⟩ := row_of_erased (bmSetAt_erased hset).2 hrow'
    unfold LastPutCurrent
    simp only [putMessage_erased heq]
    exact ih i op hrow

/-- Where the condition holds, the last PUT a row sends in a call carries the row's last
output; and in a run whose messages all meet it, so does the last PUT the row ever sent.
SRCLINE: bm.c:739-769, bm.c:783-788 -/
theorem last_put_current :
    (∀ s m, InOrder host bm s m → ∀ depth s', bmProcessorHandle host bm m depth s = .returned s' →
      ∀ i op, IsRow bm i op → ∃ evs, s'.trace = s.trace ++ evs ∧ LastPutCurrent i op evs s') ∧
    ∀ s, ReachableBy host (InOrder host) bm s →
      ∀ i op, IsRow bm i op → LastPutCurrent i op s.trace s := by
  refine ⟨?_, fun s hs => ReachableBy.lastPutCurrent host hs⟩
  intro s m hok depth s' hm i op hrow
  by_cases hdest : op.outDestObject = []
  · obtain ⟨evs, htrace, hnone⟩ := bmProcessorHandle_no_destination host bm m depth hrow hdest hm
    exact ⟨evs, htrace, fun hne => absurd hnone hne⟩
  · exact (bmProcessorHandle_order host bm m depth hrow hdest hok hm).current

/-! ## A diamond listed the wrong way round -/

/-- A row that adds the sensor's reading and the internal device it is handed on to. -/
def heaterRow : BmOperation Binary64 where
  operation := lit "ad"
  inputs := [{ deviceIndex := 1, sourceObject := lit "/lx/ob/uo/hv/ts/as/cv" },
    { deviceIndex := 2 }]
  outDeviceIndex := 3
  outDestObject := lit "/lx/ob/uo/hv/ht/da/cv"

/-- The heater's row is listed before the row that feeds it. -/
def heaterMap : BindingMap Binary64 := { ops := [heaterRow, sumRow] }

/-- INTERNAL: the rows of the map. -/
theorem heaterMap_row {i : ℕ} {op : BmOperation Binary64} (h : IsRow heaterMap i op) :
    i = 0 ∧ op = heaterRow ∨ i = 1 ∧ op = sumRow := by
  match i, h with
  | 0, h => exact Or.inl ⟨rfl, (Option.some.inj h).symm⟩
  | 1, h => exact Or.inr ⟨rfl, (Option.some.inj h).symm⟩
  | i + 2, h => simp [IsRow, heaterMap] at h

/-- The state after the reading 1. -/
def heaterOn : BmState Binary64 Unit :=
  (bmProcessorHandle (BmHost.unwired Binary64) heaterMap (sensed (lit "1")) 4
    (BmState.initial ())).state

/-- The reading 2 makes the heater's row send 4 = 2 + 2 first, and 3 = 2 + 1 last. -/
theorem heater_sends_stale_last :
    Acyclic (Feeds heaterMap) ∧
      (∀ i j op op', IsRow heaterMap i op → IsRow heaterMap j op' →
        op.outDeviceIndex = op'.outDeviceIndex → i = j) ∧
      Reachable (BmHost.unwired Binary64) heaterMap heaterOn ∧ IsRow heaterMap 0 heaterRow ∧
      ∃ s' evs, bmProcessorHandle (BmHost.unwired Binary64) heaterMap (sensed (lit "2")) 4
          heaterOn = .returned s' ∧
        s'.trace = heaterOn.trace ++ evs ∧
        putsOf 0 evs = [putMessage heaterRow (readingOf (sensed (lit "4")) : Binary64),
          putMessage heaterRow (readingOf (sensed (lit "3")) : Binary64)] ∧
        (s'.mem 0).lastOutput = some (readingOf (sensed (lit "4"))) ∧
        ¬ LastPutCurrent 0 heaterRow evs s' := by
  have hreturned : bmProcessorHandle (BmHost.unwired Binary64) heaterMap (sensed (lit "2")) 4
      heaterOn = .returned (bmProcessorHandle (BmHost.unwired Binary64) heaterMap
        (sensed (lit "2")) 4 heaterOn).state :=
    Outcome.eq_returned_state _ (by decide +kernel)
  obtain ⟨evs, htrace⟩ := bmProcessorHandle_grows _ heaterMap _ 4 hreturned
  have hputs : putsOf 0 evs = [putMessage heaterRow (readingOf (sensed (lit "4")) : Binary64),
      putMessage heaterRow (readingOf (sensed (lit "3")) : Binary64)] := by
    have hall := congrArg (putsOf 0) htrace
    rw [putsOf_append] at hall
    have hsent : putsOf 0 (bmProcessorHandle (BmHost.unwired Binary64) heaterMap
        (sensed (lit "2")) 4 heaterOn).state.trace = putsOf 0 heaterOn.trace ++
          [putMessage heaterRow (readingOf (sensed (lit "4")) : Binary64),
            putMessage heaterRow (readingOf (sensed (lit "3")) : Binary64)] := by
      decide +kernel
    exact List.append_cancel_left (hall.symm.trans hsent)
  have hlast : ((bmProcessorHandle (BmHost.unwired Binary64) heaterMap (sensed (lit "2")) 4
      heaterOn).state.mem 0).lastOutput = some (readingOf (sensed (lit "4"))) := by
    decide +kernel
  refine ⟨acyclic_of_ranked_rows heaterMap (fun i => 1 - i) (by decide), ?_,
    ReachableBy.handle (sensed (lit "1")) 4 (ReachableBy.init heaterMap ()) trivial
      (Outcome.eq_returned_state _ (by decide +kernel)), rfl, _, evs, hreturned, htrace, hputs,
    hlast, ?_⟩
  · intro i j op op' hi hj hout
    rcases heaterMap_row hi with ⟨rfl, rfl⟩ | ⟨rfl, rfl⟩ <;>
      rcases heaterMap_row hj with ⟨rfl, rfl⟩ | ⟨rfl, rfl⟩ <;>
      first | rfl | exact absurd hout (by decide)
  · intro hcurrent
    obtain ⟨v, hv, hput⟩ := hcurrent (by rw [hputs]; simp)
    obtain rfl := Option.some.inj (hlast.symm.trans hv)
    rw [hputs] at hput
    have hsame := congrArg HesClmeMsg.payload (Option.some.inj hput)
    exact absurd hsame (by decide +kernel)

/-! ## The same rows in the order of their dataflow -/

/-- The heater's row is listed behind the row that feeds it. -/
def orderedMap : BindingMap Binary64 := { ops := [sumRow, heaterRow] }

/-- INTERNAL: the rows of the map. -/
theorem orderedMap_row {i : ℕ} {op : BmOperation Binary64} (h : IsRow orderedMap i op) :
    i = 0 ∧ op = sumRow ∨ i = 1 ∧ op = heaterRow := by
  cases i with
  | zero => exact Or.inl ⟨rfl, (Option.some.inj h).symm⟩
  | succ i =>
    cases i with
    | zero => exact Or.inr ⟨rfl, (Option.some.inj h).symm⟩
    | succ i => simp [IsRow, orderedMap] at h

/-- INTERNAL: what feeds the heater's row is listed before it. -/
theorem orderedMap_upstream {j : ℕ} (h : j ∈ Upstream orderedMap 1) : j < 1 := by
  have hacyclic : Acyclic (Feeds orderedMap) :=
    acyclic_of_ranked_rows orderedMap (fun i => i) (by decide)
  obtain ⟨k, ⟨d, ⟨op, hrow, -⟩, -⟩, -⟩ := Relation.TransGen.head'_iff.mp h
  rcases orderedMap_row hrow with ⟨rfl, -⟩ | ⟨rfl, -⟩
  · exact Nat.one_pos
  · exact absurd h (hacyclic 1)

/-- INTERNAL: so it sends in order, whatever comes. -/
theorem orderedMap_inOrder (s : BmState Binary64 Unit) (m : HesClmeMsg) :
    InOrder (BmHost.unwired Binary64) orderedMap s m := by
  have hnoApp : ∀ cache j, AppReadsNumbers (BmHost.unwired Binary64) orderedMap m cache j := by
    intro cache j op hrow hap
    rcases orderedMap_row hrow with ⟨-, rfl⟩ | ⟨-, rfl⟩
    · exact absurd hap (by decide)
    · exact absurd hap (by decide)
  intro _ i op hrow hdest
  rcases orderedMap_row hrow with ⟨-, rfl⟩ | ⟨rfl, rfl⟩
  · exact absurd rfl hdest
  · refine Or.inr ⟨fun _ => InTurn.listed ⟨?_, fun j _ => hnoApp _ j⟩, fun _ => hnoApp _ 1⟩
    exact fun j hj _ => orderedMap_upstream hj

/-- The state after the reading 1. -/
def orderedOn : BmState Binary64 Unit :=
  (bmProcessorHandle (BmHost.unwired Binary64) orderedMap (sensed (lit "1")) 4
    (BmState.initial ())).state

/-- The state after the reading 2 behind it. -/
def orderedUp : BmState Binary64 Unit :=
  (bmProcessorHandle (BmHost.unwired Binary64) orderedMap (sensed (lit "2")) 4 orderedOn).state

/-- INTERNAL: both readings are taken. -/
theorem orderedMap_returns :
    bmProcessorHandle (BmHost.unwired Binary64) orderedMap (sensed (lit "1")) 4
        (BmState.initial ()) = .returned orderedOn ∧
      bmProcessorHandle (BmHost.unwired Binary64) orderedMap (sensed (lit "2")) 4 orderedOn =
        .returned orderedUp :=
  ⟨Outcome.eq_returned_state _ (by decide +kernel), Outcome.eq_returned_state _ (by decide +kernel)⟩

/-- The reading 2 makes the heater's row send 4 only, and of all that it has sent, 2 and 4, the last
carries the output that is remembered. -/
theorem last_put_current_heater :
    putsOf 1 orderedUp.trace = [putMessage heaterRow (readingOf (sensed (lit "2")) : Binary64),
        putMessage heaterRow (readingOf (sensed (lit "4")) : Binary64)] ∧
      (∃ evs, orderedUp.trace = orderedOn.trace ++ evs ∧ LastPutCurrent 1 heaterRow evs orderedUp) ∧
      LastPutCurrent 1 heaterRow orderedUp.trace orderedUp := by
  have hheater : IsRow orderedMap 1 heaterRow := rfl
  have hrun : ReachableBy (BmHost.unwired Binary64) (InOrder (BmHost.unwired Binary64)) orderedMap
      orderedUp :=
    ReachableBy.handle (sensed (lit "2")) 4
      (ReachableBy.handle (sensed (lit "1")) 4 (ReachableBy.init orderedMap ())
        (orderedMap_inOrder _ _) orderedMap_returns.1)
      (orderedMap_inOrder _ _) orderedMap_returns.2
  exact ⟨by decide +kernel,
    (last_put_current (BmHost.unwired Binary64) orderedMap).1 orderedOn (sensed (lit "2"))
      (orderedMap_inOrder _ _) 4 orderedUp orderedMap_returns.2 1 heaterRow hheater,
    (last_put_current (BmHost.unwired Binary64) orderedMap).2 orderedUp hrun 1 heaterRow hheater⟩

end OpenHes.Analysis
