import OpenHes.Library.BoundedMemory
import OpenHes.Library.CInt
import OpenHes.Model.Controller

/-!
# One subscription for each source

The controller passes the sources of the rows on through a memory of `BM_MAX_ADDRS` keys, so
a source gets one subscription exactly when it is among the first of them or comes only once.
-/

set_option autoImplicit false

namespace OpenHes.Analysis

open OpenHes.Library OpenHes.Model

variable {V : Type}

/-- What the arrays of the map hold: a source object has its terminator. -/
def HoldsPaths (bm : BindingMap V) : Prop :=
  ∀ op ∈ bm.ops, ∀ inp ∈ op.inputs, inp.sourceObject.length < hesPathMax

/-- Is there a remote publisher for the device? -/
def hasPublisher (bm : BindingMap V) (deviceIndex : ℕ) : Bool :=
  match bmFindAddr bm deviceIndex with
  | none => false
  | some addr => addr.moduleType = .hi || addr.moduleType = .wi || addr.moduleType = .sm

/-- The key of an input that is to be subscribed to. -/
def sourceKey (bm : BindingMap V) (inp : BmInput) : Option BmSubKey :=
  if inp.sourceObject ≠ [] && hasPublisher bm inp.deviceIndex then
    some ⟨inp.sourceObject, inp.deviceIndex⟩
  else none

/-- The keys of the enabled rows, in the order of the rows and their inputs. -/
def sourceKeys (bm : BindingMap V) : List BmSubKey :=
  ((bm.ops.filter (·.enabled)).flatMap (·.inputs)).filterMap (sourceKey bm)

/-- Does an enabled row name the source? -/
def NamesSource (bm : BindingMap V) (k : BmSubKey) : Prop :=
  k.path ≠ [] ∧ hasPublisher bm k.deviceIndex = true ∧
    ∃ op ∈ bm.ops, op.enabled = true ∧
      ∃ inp ∈ op.inputs, inp.sourceObject = k.path ∧ inp.deviceIndex = k.deviceIndex

/-- What the messages subscribe to. -/
def subscriptions (messages : List HesClmeMsg) : List BmSubKey :=
  messages.map fun m => ⟨m.path, m.deviceIndex⟩

/-- One subscription for each source, and nothing else. -/
structure SubscribesOnce (bm : BindingMap V) (messages : List HesClmeMsg) : Prop where
  verb : ∀ m ∈ messages, m.verb = .subscribe
  nodup : (subscriptions messages).Nodup
  sources : ∀ k, k ∈ subscriptions messages ↔ NamesSource bm k

/-- INTERNAL: the keys of the sources are those that a row names. -/
theorem mem_sourceKeys (bm : BindingMap V) (k : BmSubKey) :
    k ∈ sourceKeys bm ↔ NamesSource bm k := by
  unfold sourceKeys NamesSource
  simp only [List.mem_filterMap, List.mem_flatMap, List.mem_filter]
  constructor
  · rintro ⟨inp, ⟨op, ⟨hop, henabled⟩, hinp⟩, hkey⟩
    unfold sourceKey at hkey
    split at hkey
    next h =>
      cases hkey
      simp only [Bool.and_eq_true, decide_eq_true_eq] at h
      exact ⟨h.1, h.2, op, hop, henabled, inp, hinp, rfl, rfl⟩
    next => cases hkey
  · rintro ⟨hpath, hpublisher, op, hop, henabled, inp, hinp, hso, hdi⟩
    refine ⟨inp, ⟨op, ⟨hop, henabled⟩, hinp⟩, ?_⟩
    unfold sourceKey
    rw [hso, hdi, if_pos (by simp [hpath, hpublisher])]

/-- INTERNAL: a device with a row has a publisher if the type of its module says so. -/
theorem hasPublisher_of_external (bm : BindingMap V) (di : ℕ) (addr : BmAddr)
    (haddr : bmFindAddr bm di = some addr) :
    hasPublisher bm di = !(addr.moduleType = .it || addr.moduleType = .none) := by
  unfold hasPublisher
  rw [haddr]
  dsimp only
  generalize addr.moduleType = mt
  cases mt <;> rfl

/-- INTERNAL: **one turn** passes the key of the input on, if it has one. -/
theorem subscribeInput_eq (bm : BindingMap V) (s : Subscribing) (inp : BmInput)
    (hheld : inp.sourceObject.length < hesPathMax) :
    subscribeInput bm s inp =
      match sourceKey bm inp with
      | none => s
      | some k =>
        if k ∈ s.sent then s
        else
          { sent := BoundedMemory.remember bmMaxAddrs s.sent k
            messages := s.messages ++ [subscribeMessage inp] } := by
  have hcopy : hesStrlcpy hesPathMax inp.sourceObject = inp.sourceObject :=
    List.take_of_length_le (by omega)
  have hsent : (s.sent.any fun k =>
      k.deviceIndex = inp.deviceIndex && k.path = inp.sourceObject) = true ↔
        (⟨inp.sourceObject, inp.deviceIndex⟩ : BmSubKey) ∈ s.sent := by
    simp only [List.any_eq_true, Bool.and_eq_true, decide_eq_true_eq]
    constructor
    · rintro ⟨⟨path, di⟩, hmem, rfl, rfl⟩
      exact hmem
    · intro hmem
      exact ⟨_, hmem, rfl, rfl⟩
  unfold subscribeInput sourceKey
  by_cases hpath : inp.sourceObject = []
  · simp [hpath]
  cases haddr : bmFindAddr bm inp.deviceIndex with
  | none =>
    have hno : hasPublisher bm inp.deviceIndex = false := by
      unfold hasPublisher
      rw [haddr]
    simp [hpath, hno]
  | some addr =>
    rw [hasPublisher_of_external bm _ addr haddr]
    by_cases hexternal : (decide (addr.moduleType = .it) || decide (addr.moduleType = .none)) = true
    · simp [hpath, hexternal]
    · by_cases hmem : (⟨inp.sourceObject, inp.deviceIndex⟩ : BmSubKey) ∈ s.sent
      · simp [hpath, hexternal, hsent.mpr hmem, hmem]
      · have hnot := mt hsent.mp hmem
        simp [hpath, hexternal, hnot, hmem, hcopy, BoundedMemory.remember]

/-- INTERNAL: the key of a source is its object and its device. -/
theorem sourceKey_eq (bm : BindingMap V) (inp : BmInput) (k : BmSubKey)
    (h : sourceKey bm inp = some k) : k = ⟨inp.sourceObject, inp.deviceIndex⟩ := by
  unfold sourceKey at h
  split at h
  · cases h
    rfl
  · cases h

/-- INTERNAL: **the loop** subscribes to the keys that the memory passes on. -/
theorem subscribeInputs_eq (bm : BindingMap V) (inputs : List BmInput) (s : Subscribing)
    (hheld : ∀ inp ∈ inputs, inp.sourceObject.length < hesPathMax)
    (hverb : ∀ m ∈ s.messages, m.verb = .subscribe) :
    (∀ m ∈ (inputs.foldl (subscribeInput bm) s).messages, m.verb = .subscribe) ∧
      subscriptions (inputs.foldl (subscribeInput bm) s).messages =
        subscriptions s.messages ++
          (BoundedMemory.passOn bmMaxAddrs s.sent (inputs.filterMap (sourceKey bm))).2 := by
  induction inputs generalizing s with
  | nil => exact ⟨hverb, by simp [BoundedMemory.passOn]⟩
  | cons inp inputs ih =>
    have hrest : ∀ inp ∈ inputs, inp.sourceObject.length < hesPathMax :=
      fun inp hinp => hheld inp (by simp [hinp])
    rw [List.foldl_cons, subscribeInput_eq bm s inp (hheld inp (by simp))]
    cases hkey : sourceKey bm inp with
    | none =>
      rw [List.filterMap_cons_none hkey]
      exact ih s hrest hverb
    | some k =>
      rw [List.filterMap_cons_some hkey]
      dsimp only
      by_cases hmem : k ∈ s.sent
      · rw [if_pos hmem, BoundedMemory.passOn_cons_of_mem bmMaxAddrs _ _ _ hmem]
        exact ih s hrest hverb
      · rw [if_neg hmem, BoundedMemory.passOn_cons_of_not_mem bmMaxAddrs _ _ _ hmem]
        have hmessage : subscriptions [subscribeMessage inp] = [k] := by
          have hcopy : hesStrlcpy hesPathMax inp.sourceObject = inp.sourceObject :=
            List.take_of_length_le (by
              have := hheld inp (by simp)
              omega)
          rw [sourceKey_eq bm inp k hkey]
          simp [subscriptions, subscribeMessage, hesMsgSetPath, hcopy]
        obtain ⟨hverbs, hsubs⟩ := ih
          { sent := BoundedMemory.remember bmMaxAddrs s.sent k
            messages := s.messages ++ [subscribeMessage inp] } hrest (by
            intro m hm
            rcases List.mem_append.mp hm with hm | hm
            · exact hverb m hm
            · rw [List.mem_singleton.mp hm]
              rfl)
        refine ⟨hverbs, ?_⟩
        rw [hsubs]
        unfold subscriptions at hmessage ⊢
        rw [List.map_append, hmessage, List.append_assoc]
        rfl

/-- **One subscription for each source.** The controller sends exactly one SUBSCRIBE for each
source that an enabled row names, and no other, exactly when every such source is among the
first `BM_MAX_ADDRS` different ones or is named only once.
SRCLINE: bm.c:870-950 -/
theorem subscribes_once_iff (bm : BindingMap V) (hheld : HoldsPaths bm) :
    SubscribesOnce bm (bmControllerStart bm) ↔
      ∀ k ∈ sourceKeys bm, k ∈ (sourceKeys bm).eraseDups.take bmMaxAddrs ∨
        (sourceKeys bm).count k = 1 := by
  have hinputs : ∀ inp ∈ (bm.ops.filter (·.enabled)).flatMap (·.inputs),
      inp.sourceObject.length < hesPathMax := by
    intro inp hinp
    obtain ⟨op, hop, hinp⟩ := List.mem_flatMap.mp hinp
    exact hheld op (List.mem_of_mem_filter hop) inp hinp
  obtain ⟨hverb, hsubs⟩ := subscribeInputs_eq bm _ {} hinputs (by simp)
  have hsubs : subscriptions (bmControllerStart bm) =
      (BoundedMemory.passOn bmMaxAddrs [] (sourceKeys bm)).2 := hsubs
  rw [← BoundedMemory.nodup_passOn_iff, ← hsubs]
  constructor
  · intro h
    exact h.nodup
  · intro hnodup
    refine ⟨hverb, hnodup, fun k => ?_⟩
    rw [hsubs, BoundedMemory.mem_passOn, mem_sourceKeys]

/-- Two rows that read the same object. -/
def sharedMap : BindingMap Unit where
  ops := [{ operation := lit "gt", inputs := [{ deviceIndex := 1, sourceObject := lit "/lx/ob/cv" }] },
    { operation := lit "lt", inputs := [{ deviceIndex := 1, sourceObject := lit "/lx/ob/cv" }] }]
  addrs := [{ deviceIndex := 1, moduleType := .hi }]

/-- Two rows that share a source. -/
theorem subscribes_once_shared : SubscribesOnce sharedMap (bmControllerStart sharedMap) :=
  (subscribes_once_iff sharedMap (by unfold HoldsPaths; decide +kernel)).mpr (by decide +kernel)

/-- Seventeen rows of four inputs: sixty-four objects, and then one more in each input of the
last row. -/
def crowdedMap : BindingMap Unit where
  ops := (List.range 17).map fun row =>
    { operation := lit "ap"
      inputs := (List.range 4).map fun i =>
        { deviceIndex := 1, sourceObject := lit "/lx/ob/" ++ fmtD (min (4 * row + i) 64) } }
  addrs := [{ deviceIndex := 1, moduleType := .hi }]

/-- Past the room for the keys a source is subscribed to again. -/
theorem crowded_subscribed_again : ¬ SubscribesOnce crowdedMap (bmControllerStart crowdedMap) := by
  intro h
  exact absurd h.nodup (by decide +kernel)

end OpenHes.Analysis
