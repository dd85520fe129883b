import OpenHes.Model.ServiceObjects
import Mathlib.Data.List.Perm.Basic

/-!
# The shared state of a service is released once

Each object holds one count of the state, so whatever the order in which they are destroyed,
the last one frees it. Where an allocation fails, the objects before it are destroyed, and then
the state is freed by the create function as well: that is right only while there are none.
-/

set_option autoImplicit false

namespace OpenHes.Analysis

open OpenHes.Library OpenHes.Library.MemEvent OpenHes.Model

/-- Every block that was allocated is released once. -/
def AllReleased (log : List (MemEvent ServiceBlock)) : Prop :=
  ∀ b, alloc b ∈ log → ReleasedOnce b log

/-- A failed call releases what it allocated and leaves no object in `out[]`; after a
successful one the owner does, in whatever order it destroys the objects. -/
def Released (s : SharingService) (c : CreateCall) : Prop :=
  if (s.create c).1 = -1 then
    AllReleased (s.create c).2.log ∧ ∀ entry ∈ (s.create c).2.out, entry = none
  else
    ∀ order : List ℕ, order.Perm (List.range s.objectCount) →
      AllReleased (s.discardAll order (s.create c).2).log

/-- Does the call get as far as to allocate objects? -/
def reachesObjects (s : SharingService) (c : CreateCall) : Bool :=
  s.objectCount ≤ c.maxOut && !c.stateFails &&
    match s with
    | .id identityPath loads => identityPath ≠ [] && loads
    | _ => true

/-! ## Discarding objects -/

variable (wipes : Bool)

/-- INTERNAL: wiping touches the state alone. -/
theorem wipe_block : ∀ e ∈ wipe wipes, e = use ServiceBlock.state := by
  intro e he
  unfold wipe at he
  split at he
  · simpa using he
  · simp at he

/-- INTERNAL: **one object is discarded**: it gives its count back, and where that was the last
one the state goes before the object does. -/
theorem discardObject_attached (i : ℕ) (m : ServiceMemory) (h : i ∈ m.attached) :
    discardObject wipes i m =
      { m with
        attached := m.attached.erase i
        refs := m.refs - 1
        log := m.log ++ [use (.object i), use .state] ++
          (if 0 < m.refs - 1 then [] else wipe wipes ++ [free .state]) ++ [free (.object i)] } := by
  unfold discardObject destroyObject
  rw [if_neg (not_not.mpr h)]
  by_cases hlast : 0 < m.refs - 1
  · rw [if_pos hlast, if_pos hlast]
    simp
  · rw [if_neg hlast, if_neg hlast]
    simp

/-- INTERNAL: **discarding concerns** the state and the objects that are discarded, and
allocates nothing. -/
theorem discarded_frame (order : List ℕ) (m : ServiceMemory) :
    ∃ tail, (order.foldl (fun m i => discardObject wipes i m) m).log = m.log ++ tail ∧
      ∀ e ∈ tail, (∀ b, e ≠ alloc b) ∧
        (e.block = .state ∨ ∃ j ∈ order, e.block = .object j) := by
  induction order generalizing m with
  | nil => exact ⟨[], by simp, by simp⟩
  | cons i order ih =>
    obtain ⟨tail, hlog, htail⟩ := ih (discardObject wipes i m)
    have hstep : ∃ first, (discardObject wipes i m).log = m.log ++ first ∧
        ∀ e ∈ first, (∀ b, e ≠ alloc b) ∧ (e.block = .state ∨ e.block = .object i) := by
      by_cases hmem : i ∈ m.attached
      · rw [discardObject_attached wipes i m hmem]
        refine ⟨_, by simp only [List.append_assoc]; rfl, ?_⟩
        intro e he
        simp only [List.mem_append, List.mem_cons, List.not_mem_nil, or_false] at he
        rcases he with he | he | he
        · rcases he with rfl | rfl <;> simp [block]
        · split at he
          · simp at he
          · rcases List.mem_append.mp he with he | he
            · rw [wipe_block wipes e he]
              simp [block]
            · rw [List.mem_singleton.mp he]
              simp [block]
        · rw [he]
          simp [block]
      · unfold discardObject destroyObject
        dsimp only
        rw [if_pos hmem]
        refine ⟨[use (.object i), free (.object i)], by simp, ?_⟩
        intro e he
        rcases List.mem_pair.mp he with rfl | rfl <;> simp [block]
    obtain ⟨first, hfirst, hblocks⟩ := hstep
    refine ⟨first ++ tail, by rw [List.foldl_cons, hlog, hfirst, List.append_assoc], ?_⟩
    intro e he
    rcases List.mem_append.mp he with he | he
    · obtain ⟨halloc, hstate | hobject⟩ := hblocks e he
      · exact ⟨halloc, .inl hstate⟩
      · exact ⟨halloc, .inr ⟨i, List.mem_cons_self, hobject⟩⟩
    · obtain ⟨halloc, hstate | ⟨j, hj, hobject⟩⟩ := htail e he
      · exact ⟨halloc, .inl hstate⟩
      · exact ⟨halloc, .inr ⟨j, List.mem_cons_of_mem i hj, hobject⟩⟩

/-- What holds while objects are discarded: those to come are counted, and hold their count. -/
structure Holding (order : List ℕ) (m : ServiceMemory) : Prop where
  nodup : order.Nodup
  attached : ∀ i ∈ order, i ∈ m.attached
  counted : m.refs = order.length

/-- INTERNAL: dropping an object leaves the others holding the state. -/
theorem Holding.step {i : ℕ} {order : List ℕ} {m : ServiceMemory} (h : Holding (i :: order) m) :
    Holding order (discardObject wipes i m) := by
  obtain ⟨hnotmem, hnodup⟩ := List.nodup_cons.mp h.nodup
  rw [discardObject_attached wipes i m (h.attached i List.mem_cons_self)]
  refine ⟨hnodup, ?_, ?_⟩
  · intro j hj
    have hne : j ≠ i := fun heq => hnotmem (heq ▸ hj)
    exact (List.mem_erase_of_ne hne).mpr (h.attached j (List.mem_cons_of_mem i hj))
  · have hcounted := h.counted
    rw [List.length_cons] at hcounted
    dsimp only
    omega

/-- INTERNAL: **the state is released once**, by the last object. -/
theorem discarded_state (order : List ℕ) (m : ServiceMemory) (h : Holding order m)
    (hne : order ≠ []) (hfree : free ServiceBlock.state ∉ m.log) :
    ReleasedOnce .state (order.foldl (fun m i => discardObject wipes i m) m).log := by
  induction order generalizing m with
  | nil => exact absurd rfl hne
  | cons i order ih =>
    have hstep := discardObject_attached wipes i m (h.attached i List.mem_cons_self)
    have hcounted := h.counted
    rw [List.length_cons] at hcounted
    rw [List.foldl_cons]
    cases order with
    | nil =>
      have hlast : ¬ 0 < m.refs - 1 := by
        rw [List.length_nil] at hcounted
        omega
      rw [List.foldl_nil, hstep, if_neg hlast]
      have hbefore : free ServiceBlock.state ∉
          m.log ++ [use (.object i), use .state] ++ wipe wipes := by
        simp only [List.mem_append, not_or]
        refine ⟨⟨hfree, by simp⟩, ?_⟩
        intro hwipe
        have := wipe_block wipes _ hwipe
        simp at this
      have hreleased := releasedOnce_of_tail ServiceBlock.state _ [free (.object i)] hbefore
        (by simp [block])
      simpa only [List.append_assoc, List.cons_append, List.nil_append] using hreleased
    | cons j order =>
      have hmore : 0 < m.refs - 1 := by
        rw [List.length_cons] at hcounted
        omega
      apply ih (discardObject wipes i m) (h.step wipes) (List.cons_ne_nil j order)
      rw [hstep, if_pos hmore]
      simp [hfree]

/-- INTERNAL: **every object is released once**. -/
theorem discarded_object (order : List ℕ) (m : ServiceMemory) (h : Holding order m) (i : ℕ)
    (hi : i ∈ order) (hfree : free (ServiceBlock.object i) ∉ m.log) :
    ReleasedOnce (.object i) (order.foldl (fun m i => discardObject wipes i m) m).log := by
  induction order generalizing m with
  | nil => simp at hi
  | cons j order ih =>
    obtain ⟨hnotmem, -⟩ := List.nodup_cons.mp h.nodup
    have hstep := discardObject_attached wipes j m (h.attached j List.mem_cons_self)
    have hclean : ∀ k, free (ServiceBlock.object k) ∉
        (if 0 < m.refs - 1 then [] else wipe wipes ++ [free ServiceBlock.state]) := by
      intro k hk
      split at hk
      · simp at hk
      · rcases List.mem_append.mp hk with hk | hk
        · have := wipe_block wipes _ hk
          simp at this
        · simp at hk
    rw [List.foldl_cons]
    by_cases hij : i = j
    · obtain ⟨tail, hlog, htail⟩ := discarded_frame wipes order (discardObject wipes j m)
      rw [hlog, hstep, hij]
      apply ReleasedOnce.append
      · apply releasedOnce_of_tail
        · simp only [List.mem_append, not_or]
          exact ⟨⟨hij ▸ hfree, by simp⟩, hclean j⟩
        · simp
      · intro e he
        obtain ⟨-, hstate | ⟨k, hk, hobject⟩⟩ := htail e he
        · rw [hstate]
          simp
        · rw [hobject]
          rintro heq
          obtain rfl := ServiceBlock.object.inj heq
          exact hnotmem hk
    · have hmem : i ∈ order := by
        rcases List.mem_cons.mp hi with heq | hmem
        · exact absurd heq hij
        · exact hmem
      apply ih (discardObject wipes j m) (h.step wipes) hmem
      rw [hstep]
      simp only [List.mem_append, not_or]
      exact ⟨⟨⟨hfree, by simp⟩, hclean i⟩, by simp [hij]⟩

/-! ## Creating objects -/

/-- What the memory holds after objects were added to the new state. -/
structure Added (n : ℕ) (m : ServiceMemory) : Prop where
  attached : m.attached = List.range n
  counted : m.refs = n
  out : m.out.length = n
  no_free : ∀ b, free b ∉ m.log
  state : alloc ServiceBlock.state ∈ m.log
  objects : ∀ i, alloc (ServiceBlock.object i) ∈ m.log → i < n

/-- INTERNAL: adding an object keeps what was added. -/
theorem Added.step {n : ℕ} {m : ServiceMemory} (h : Added n m) : Added (n + 1) (addObject n m) where
  attached := by simp [addObject, h.attached, List.range_succ]
  counted := by simp [addObject, h.counted]
  out := by simp [addObject, h.out]
  no_free := by
    intro b hb
    rcases List.mem_append.mp hb with hb | hb
    · exact h.no_free b hb
    · simp at hb
  state := List.mem_append_left _ h.state
  objects := by
    intro i hi
    rcases List.mem_append.mp hi with hi | hi
    · have := h.objects i hi
      omega
    · have hin : i = n := by simpa using hi
      omega

/-- INTERNAL: at first nothing was added. -/
theorem added_zero : Added 0 allocatedState where
  attached := rfl
  counted := rfl
  out := rfl
  no_free := by simp [allocatedState]
  state := by simp [allocatedState]
  objects := by simp [allocatedState]

/-- INTERNAL: **the loop** ends with all objects, or rolls back at the first allocation that
fails. -/
theorem createObjects_cases (fails : ℕ → Bool) (count i k : ℕ) (m : ServiceMemory)
    (h : Added i m) :
    (∃ m', (∀ j, i ≤ j → j < i + k → fails j = false) ∧ Added (i + k) m' ∧
      createObjects wipes fails count (List.range' i k) m = ((count : ℤ), m')) ∨
    ∃ j m', i ≤ j ∧ j < i + k ∧ fails j = true ∧ (∀ l, i ≤ l → l < j → fails l = false) ∧
      Added j m' ∧
      createObjects wipes fails count (List.range' i k) m = (-1, rollBack wipes j m') := by
  induction k generalizing i m with
  | zero => exact .inl ⟨m, by omega, h, rfl⟩
  | succ k ih =>
    rw [List.range'_succ, createObjects]
    cases hfails : fails i with
    | true => exact .inr ⟨i, m, le_refl i, by omega, hfails, by omega, h, rfl⟩
    | false =>
      have hbelow : ∀ l, i ≤ l → l < i + 1 → fails l = false := by
        intro l h1 h2
        obtain rfl : l = i := by omega
        exact hfails
      rcases ih (i + 1) (addObject i m) h.step with
        ⟨m', hok, hadded, heq⟩ | ⟨j, m', hle, hlt, hfail, hok, hadded, heq⟩
      · refine .inl ⟨m', ?_, by rwa [show i + (k + 1) = i + 1 + k by omega], heq⟩
        intro j h1 h2
        by_cases hj : j < i + 1
        · exact hbelow j h1 hj
        · exact hok j (by omega) (by omega)
      · refine .inr ⟨j, m', by omega, by omega, hfail, ?_, hadded, heq⟩
        intro l h1 h2
        by_cases hl : l < i + 1
        · exact hbelow l h1 hl
        · exact hok l (by omega) h2

/-- INTERNAL: whatever the order, the added objects hold the state. -/
theorem Added.holding {n : ℕ} {m : ServiceMemory} (h : Added n m) (order : List ℕ)
    (hperm : order.Perm (List.range n)) : Holding order m where
  nodup := hperm.nodup_iff.mpr List.nodup_range
  attached := by
    intro i hi
    rw [h.attached]
    exact hperm.mem_iff.mp hi
  counted := by rw [h.counted, hperm.length_eq, List.length_range]

/-- INTERNAL: **a successful call** ends well in every order. -/
theorem added_allReleased {n : ℕ} {m : ServiceMemory} (h : Added n m) (hpos : 0 < n)
    (order : List ℕ) (hperm : order.Perm (List.range n)) :
    AllReleased (order.foldl (fun m i => discardObject wipes i m) m).log := by
  have hholding := h.holding order hperm
  have hne : order ≠ [] := by
    rintro rfl
    have hlength := hperm.length_eq
    rw [List.length_nil, List.length_range] at hlength
    omega
  intro b hb
  obtain ⟨tail, hlog, htail⟩ := discarded_frame wipes order m
  have halloc : alloc b ∈ m.log := by
    rw [hlog] at hb
    rcases List.mem_append.mp hb with hb | hb
    · exact hb
    · exact absurd rfl ((htail _ hb).1 b)
  cases b with
  | state => exact discarded_state wipes order m hholding hne (h.no_free _)
  | object i =>
    have hmem : i ∈ order := hperm.mem_iff.mpr (List.mem_range.mpr (h.objects i halloc))
    exact discarded_object wipes order m hholding i hmem (h.no_free _)

/-- INTERNAL: dropping does not look at what was handed out. -/
theorem discardObject_out (i : ℕ) (m : ServiceMemory) (out : List (Option ℕ)) :
    discardObject wipes i { m with out := out } = { discardObject wipes i m with out := out } := by
  unfold discardObject destroyObject
  dsimp only
  split
  · rfl
  · split <;> rfl

/-- INTERNAL: the clean-up discards the objects, and takes them out of `out[]`. -/
theorem rollBack_fold (order : List ℕ) (m : ServiceMemory) :
    order.foldl (fun m j =>
      { discardObject wipes j m with out := (discardObject wipes j m).out.set j none }) m =
      { order.foldl (fun m j => discardObject wipes j m) m with
        out := order.foldl (fun out j => out.set j none) m.out } := by
  have hkeeps : ∀ i (m : ServiceMemory), (discardObject wipes i m).out = m.out := by
    intro i m
    have hout := discardObject_out wipes i m m.out
    exact (congrArg ServiceMemory.out hout :)
  induction order generalizing m with
  | nil => rfl
  | cons i order ih =>
    rw [List.foldl_cons, List.foldl_cons, List.foldl_cons, ih, hkeeps]
    have hout : ∀ (order : List ℕ) (m : ServiceMemory) (out : List (Option ℕ)),
        order.foldl (fun m j => discardObject wipes j m) { m with out := out } =
          { order.foldl (fun m j => discardObject wipes j m) m with out := out } := by
      intro order
      induction order with
      | nil => exact fun m out => rfl
      | cons j order ih =>
        intro m out
        rw [List.foldl_cons, List.foldl_cons, discardObject_out wipes, ih]
    rw [hout]

/-- INTERNAL: **a roll-back** is right only before the first object: the last object that it
destroys has freed the state that it frees. -/
theorem rollBack_released_iff {n : ℕ} {m : ServiceMemory} (h : Added n m) :
    AllReleased (rollBack wipes n m).log ∧ (∀ entry ∈ (rollBack wipes n m).out, entry = none) ↔
      n = 0 := by
  have hfold := rollBack_fold wipes (List.range n) m
  have hlog : (rollBack wipes n m).log =
      ((List.range n).foldl (fun m j => discardObject wipes j m) m).log ++ wipe wipes ++
        [free .state] := by
    unfold rollBack
    dsimp only
    rw [hfold]
  constructor
  · rintro ⟨hreleased, -⟩
    by_contra hne
    have honce := discarded_state wipes (List.range n) m (h.holding _ (.refl _))
      (by simpa using hne) (h.no_free _)
    obtain ⟨tail, htail, -⟩ := discarded_frame wipes (List.range n) m
    have halloc : alloc ServiceBlock.state ∈ (rollBack wipes n m).log := by
      rw [hlog, htail]
      simp [h.state]
    have hfreed : free ServiceBlock.state ∈
        ((List.range n).foldl (fun m j => discardObject wipes j m) m).log ++ wipe wipes := by
      obtain ⟨before, after, heq, -, -⟩ := honce
      rw [heq]
      simp
    have htwice := hreleased .state halloc
    rw [hlog] at htwice
    exact htwice.not_twice ServiceBlock.state _ [] hfreed
  · rintro rfl
    have hempty : m.out = [] := List.length_eq_zero_iff.mp h.out
    have hwipe : free ServiceBlock.state ∉ m.log ++ wipe wipes := by
      intro hmem
      rcases List.mem_append.mp hmem with hmem | hmem
      · exact h.no_free _ hmem
      · have := wipe_block wipes _ hmem
        simp at this
    refine ⟨?_, by simp [rollBack, hempty]⟩
    intro b hb
    have hstart : (rollBack wipes 0 m).log = m.log ++ wipe wipes ++ free .state :: [] := hlog
    rw [hstart] at hb ⊢
    cases b with
    | state => exact releasedOnce_of_tail ServiceBlock.state _ [] hwipe (by simp)
    | object i =>
      simp only [List.mem_append, List.mem_cons, List.not_mem_nil, or_false, reduceCtorEq] at hb
      rcases hb with hb | hb
      · exact absurd (h.objects i hb) (Nat.not_lt_zero i)
      · have := wipe_block wipes _ hb
        simp at this

/-! ## The three services -/

/-- INTERNAL: the loop, whatever is done with the objects in the end. -/
theorem createObjects_released_iff (fails : ℕ → Bool) (count : ℕ)
    (hpos : 0 < count) (result : ℤ × ServiceMemory)
    (hresult : result = createObjects wipes fails count (List.range count) allocatedState) :
    (if result.1 = -1 then
        AllReleased result.2.log ∧ ∀ entry ∈ result.2.out, entry = none
      else ∀ order : List ℕ, order.Perm (List.range count) →
        AllReleased (order.foldl (fun m i => discardObject wipes i m) result.2).log) ↔
      (fails 0 = true ∨ ∀ i < count, fails i = false) := by
  rw [List.range_eq_range'] at hresult
  rcases createObjects_cases wipes fails count 0 count allocatedState added_zero with
    ⟨m, hok, hadded, heq⟩ | ⟨j, m, -, hlt, hfail, hok, hadded, heq⟩
  · rw [hresult, heq, if_neg (by dsimp only; omega)]
    rw [Nat.zero_add] at hadded
    constructor
    · exact fun _ => .inr fun i hi => hok i (Nat.zero_le i) (by omega)
    · exact fun _ order hperm => added_allReleased wipes hadded hpos order hperm
  · rw [hresult, heq, if_pos rfl]
    refine (rollBack_released_iff wipes hadded).trans ?_
    constructor
    · rintro rfl
      exact .inl hfail
    · rintro (hfirst | hnone)
      · by_contra hne
        have hzero := hok 0 (le_refl 0) (by omega)
        rw [hzero] at hfirst
        cases hfirst
      · have hj := hnone j (by omega)
        rw [hj] at hfail
        cases hfail

/-- Has the service's state secrets to erase? -/
def wipesOf : SharingService → Bool
  | .id _ _ => true
  | .crypto => true
  | .time => false

/-- INTERNAL: dropping all is dropping one after the other. -/
theorem discardAll_eq (s : SharingService) (order : List ℕ) (m : ServiceMemory) :
    s.discardAll order m = order.foldl (fun m i => discardObject (wipesOf s) i m) m := by
  cases s with
  | id identityPath loads => rfl
  | crypto => rfl
  | time => rfl

/-- INTERNAL: a call that reaches the objects creates them one after the other. -/
theorem create_of_reaches (s : SharingService) (c : CreateCall)
    (h : reachesObjects s c = true) :
    s.create c = createObjects (wipesOf s) c.objectFails s.objectCount (List.range s.objectCount)
      allocatedState := by
  unfold reachesObjects at h
  simp only [Bool.and_eq_true, decide_eq_true_eq, Bool.not_eq_true'] at h
  obtain ⟨⟨hroom, hstate⟩, hmatch⟩ := h
  cases s with
  | id identityPath loads =>
    obtain ⟨hpath, hloads⟩ : identityPath ≠ [] ∧ loads = true := by simpa using hmatch
    unfold SharingService.create idServiceCreate
    dsimp only
    rw [if_neg hpath, if_neg (show ¬ c.maxOut < idServiceObjectCount from Nat.not_lt.mpr hroom),
      hstate, hloads]
    rfl
  | crypto =>
    unfold SharingService.create cryptoServiceCreate
    dsimp only
    rw [if_neg (show ¬ c.maxOut < cryptoServiceObjectCount from Nat.not_lt.mpr hroom), hstate]
    rfl
  | time =>
    unfold SharingService.create timeServiceCreate
    dsimp only
    rw [if_neg (show ¬ c.maxOut < timeServiceObjectCount from Nat.not_lt.mpr hroom), hstate]
    rfl

/-- INTERNAL: a call that is refused before its objects has released what it allocated. -/
theorem released_of_refused (s : SharingService) (c : CreateCall)
    (h : ¬ reachesObjects s c = true) : Released s c := by
  have hempty : ∀ m : ServiceMemory, m.log = [] → m.out = [] →
      AllReleased m.log ∧ ∀ entry ∈ m.out, entry = none := by
    intro m hlog hout
    rw [hlog, hout]
    exact ⟨fun b hb => by simp at hb, by simp⟩
  have hstate : AllReleased (allocatedState.log ++ wipe true ++ [free .state]) := by
    intro b hb
    have hb : b = .state := by simpa [allocatedState, wipe] using hb
    rw [hb]
    exact releasedOnce_of_tail ServiceBlock.state _ [] (by simp [allocatedState, wipe]) (by simp)
  unfold reachesObjects at h
  unfold Released
  cases s with
  | id identityPath loads =>
    unfold SharingService.create idServiceCreate
    dsimp only
    split
    · exact (if_pos rfl).mpr (hempty _ rfl rfl)
    split
    · exact (if_pos rfl).mpr (hempty _ rfl rfl)
    split
    · exact (if_pos rfl).mpr (hempty _ rfl rfl)
    split
    · exact (if_pos rfl).mpr ⟨hstate, by simp [allocatedState]⟩
    next hpath hroom hfails hloads =>
      apply absurd _ h
      simp_all [SharingService.objectCount]
  | crypto =>
    unfold SharingService.create cryptoServiceCreate
    dsimp only
    split
    · exact (if_pos rfl).mpr (hempty _ rfl rfl)
    split
    · exact (if_pos rfl).mpr (hempty _ rfl rfl)
    next hroom hfails =>
      apply absurd _ h
      simp_all [SharingService.objectCount]
  | time =>
    unfold SharingService.create timeServiceCreate
    dsimp only
    split
    · exact (if_pos rfl).mpr (hempty _ rfl rfl)
    split
    · exact (if_pos rfl).mpr (hempty _ rfl rfl)
    next hroom hfails =>
      apply absurd _ h
      simp_all [SharingService.objectCount]

/-- **When the shared state is released once.** Every call of a create function that shares a
state among its objects ends with each block released once, whatever the order in which its
objects are destroyed, exactly when the call allocates no objects, or all of these allocations
succeed, or the very first one fails.
SRCLINE: services/crypto/crypto.c:928-954, services/id/id.c:643-725, services/time/time.c:306-380 -/
theorem released_iff (s : SharingService) (c : CreateCall) :
    Released s c ↔ (reachesObjects s c = true →
      c.objectFails 0 = true ∨ ∀ i < s.objectCount, c.objectFails i = false) := by
  by_cases hreaches : reachesObjects s c = true
  · have hpos : 0 < s.objectCount := by
      cases s with
      | id identityPath loads => exact Nat.zero_lt_succ 2
      | crypto => exact Nat.zero_lt_succ 1
      | time => exact Nat.zero_lt_succ 2
    have hiff := createObjects_released_iff (wipesOf s) c.objectFails s.objectCount hpos
      (s.create c) (create_of_reaches s c hreaches)
    unfold Released
    simp only [discardAll_eq]
    exact hiff.trans ⟨fun h _ => h, fun h => h hreaches⟩
  · exact ⟨fun _ h => absurd h hreaches, fun _ => released_of_refused s c hreaches⟩

/-- The allocation of the second object fails. -/
def secondFails : CreateCall where
  maxOut := 8
  stateFails := false
  objectFails := fun i => i = 1

/-- The objects of the cryptography service are rolled back: their state is freed by the
callback of the first, and once more by the create function. -/
theorem crypto_state_freed_twice : ¬ Released .crypto secondFails := by
  intro h
  have hstate := (h : AllReleased _ ∧ _).1 .state (by decide)
  have hlog : (SharingService.crypto.create secondFails).2.log =
      [alloc .state, use .state, alloc (.object 0), use (.object 0), use .state, use (.object 0),
        use .state, use .state, free .state, free (.object 0), use .state] ++
        free ServiceBlock.state :: [] := by decide
  rw [hlog] at hstate
  exact hstate.not_twice ServiceBlock.state _ [] (by decide)

end OpenHes.Analysis
