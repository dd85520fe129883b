import OpenHes.Model.Manifest
import Mathlib.Data.List.Pairwise

/-!
# The modules that the service holds

What stays true of the registry of the manifest service from the loading of a profile over
all requests: the sizes of the arrays and of the texts in them, the ranges of the numbers,
and which of several devices of one index a report can reach.
-/

set_option autoImplicit false

namespace OpenHes.Analysis

open OpenHes.Library OpenHes.Model

/-! ## Readers -/

/-- INTERNAL: a number of a document fits, as its default does. -/
theorem objLong_fits (o : Json) (key : CStr) (dflt : ℤ) (h : FitsInt64 dflt) :
    FitsInt64 (objLong o key dflt) := by
  have hnumber : ∀ (value : Json) (n : ℤ), jsonNumberLong value = some n → FitsInt64 n := by
    intro value n hn
    cases value with
    | integer k =>
      cases hn
      exact Binary64.toLong_fits _
    | real x =>
      cases hn
      exact Binary64.toLong_fits _
    | _ => cases hn
  unfold objLong
  cases hread : (o.get key).bind jsonNumberLong with
  | none => exact h
  | some n =>
    rw [Option.bind_eq_some_iff] at hread
    obtain ⟨value, -, hn⟩ := hread
    exact hnumber value n hn

/-- INTERNAL: a copy fits its array. -/
theorem boundedCopy_length (dstsz : ℕ) (src : CStr) (h : 0 < dstsz) :
    (boundedCopy dstsz src).length < dstsz := by
  unfold boundedCopy
  rw [List.length_take]
  omega

/-- INTERNAL: so does a text of a document. -/
theorem objStr_length (o : Json) (key : CStr) (dstsz : ℕ) (h : 0 < dstsz) :
    (objStr o key dstsz).length < dstsz := by
  unfold objStr
  cases o.getString key with
  | none => exact h
  | some s => exact boundedCopy_length dstsz s h

/-- INTERNAL: a wrapped number fits. -/
theorem toInt32_fits (n : ℤ) : FitsInt32 (toInt32 n) := by
  unfold toInt32 FitsInt32
  rw [Int.bmod_def]
  split <;> omega

/-! ## Changes through a pointer -/

/-- INTERNAL: an update keeps the number of entries. -/
theorem length_updateFirst {α : Type} (p : α → Bool) (f : α → α) (entries : List α) :
    (updateFirst p f entries).length = entries.length := by
  unfold updateFirst
  exact List.length_modify _ _ _

/-- INTERNAL: it changes the first entry, if that is one. -/
theorem updateFirst_cons_of_pos {α : Type} (p : α → Bool) (f : α → α) (a : α) (rest : List α)
    (h : p a = true) : updateFirst p f (a :: rest) = f a :: rest := by
  unfold updateFirst
  simp [List.findIdx_cons, h]

/-- INTERNAL: it goes on behind the first entry, if that is none. -/
theorem updateFirst_cons_of_neg {α : Type} (p : α → Bool) (f : α → α) (a : α) (rest : List α)
    (h : p a = false) : updateFirst p f (a :: rest) = a :: updateFirst p f rest := by
  unfold updateFirst
  simp [List.findIdx_cons, h]

/-- INTERNAL: what an update keeps of each entry it keeps of the list. -/
theorem map_updateFirst {α β : Type} (p : α → Bool) (f : α → α) (g : α → β) (entries : List α)
    (h : ∀ a, g (f a) = g a) : (updateFirst p f entries).map g = entries.map g := by
  induction entries with
  | nil => rfl
  | cons a rest ih =>
    cases ha : p a with
    | true => rw [updateFirst_cons_of_pos p f a rest ha, List.map_cons, List.map_cons, h]
    | false => rw [updateFirst_cons_of_neg p f a rest ha, List.map_cons, List.map_cons, ih]

/-- INTERNAL: an entry afterwards is one of before, or comes of one that is looked for. -/
theorem mem_updateFirst {α : Type} (p : α → Bool) (f : α → α) (entries : List α) (b : α)
    (h : b ∈ updateFirst p f entries) : b ∈ entries ∨ ∃ a ∈ entries, p a = true ∧ b = f a := by
  induction entries with
  | nil => cases h
  | cons a rest ih =>
    cases ha : p a with
    | true =>
      rw [updateFirst_cons_of_pos p f a rest ha] at h
      rcases List.mem_cons.mp h with rfl | h
      · exact Or.inr ⟨a, by simp, ha, rfl⟩
      · exact Or.inl (List.mem_cons_of_mem _ h)
    | false =>
      rw [updateFirst_cons_of_neg p f a rest ha] at h
      rcases List.mem_cons.mp h with rfl | h
      · exact Or.inl List.mem_cons_self
      · rcases ih h with h | ⟨c, hc, hp, rfl⟩
        · exact Or.inl (List.mem_cons_of_mem _ h)
        · exact Or.inr ⟨c, List.mem_cons_of_mem _ hc, hp, rfl⟩

/-- INTERNAL: what holds of all entries and of the changed one holds of all behind the update. -/
theorem forall_updateFirst {α : Type} (p : α → Bool) (f : α → α) (entries : List α)
    (P : α → Prop) (h : ∀ a ∈ entries, P a) (hf : ∀ a ∈ entries, P a → P (f a)) :
    ∀ a ∈ updateFirst p f entries, P a := by
  intro b hb
  rcases mem_updateFirst p f entries b hb with hb | ⟨a, ha, -, rfl⟩
  · exact h b hb
  · exact hf a ha (h a ha)

/-- INTERNAL: what is changed is found again. -/
theorem find_updateFirst {α : Type} (p : α → Bool) (f : α → α) (entries : List α)
    (hf : ∀ a, p a = true → p (f a) = true) :
    (updateFirst p f entries).find? p = (entries.find? p).map f := by
  induction entries with
  | nil => rfl
  | cons a rest ih =>
    cases ha : p a with
    | true =>
      rw [updateFirst_cons_of_pos p f a rest ha, List.find?_cons_of_pos (hf a ha),
        List.find?_cons_of_pos ha]
      rfl
    | false =>
      rw [updateFirst_cons_of_neg p f a rest ha, List.find?_cons_of_neg (by simp [ha]),
        List.find?_cons_of_neg (by simp [ha]), ih]

/-- INTERNAL: what is not looked for is found as before. -/
theorem find_updateFirst_other {α : Type} (p q : α → Bool) (f : α → α) (entries : List α)
    (hf : ∀ a, p a = true → q a = false ∧ q (f a) = false) :
    (updateFirst p f entries).find? q = entries.find? q := by
  induction entries with
  | nil => rfl
  | cons a rest ih =>
    cases ha : p a with
    | true =>
      obtain ⟨hq, hqf⟩ := hf a ha
      rw [updateFirst_cons_of_pos p f a rest ha, List.find?_cons_of_neg (by simp [hqf]),
        List.find?_cons_of_neg (by simp [hq])]
    | false =>
      rw [updateFirst_cons_of_neg p f a rest ha, List.find?_cons, List.find?_cons, ih]

/-- INTERNAL: where the found entry is replaced by one that looks the same, another look-up
finds what it found before, or the replacement. -/
theorem find_replaced {α : Type} (p q : α → Bool) (entries : List α) (a x : α)
    (hfind : entries.find? p = some a) (hlook : q x = q a) :
    (updateFirst p (fun _ => x) entries).find? q = entries.find? q ∨
      (entries.find? q = some a ∧ (updateFirst p (fun _ => x) entries).find? q = some x) := by
  induction entries with
  | nil => exact Or.inl rfl
  | cons b rest ih =>
    cases hb : p b with
    | true =>
      rw [List.find?_cons_of_pos hb, Option.some.injEq] at hfind
      subst hfind
      rw [updateFirst_cons_of_pos p _ b rest hb]
      cases hq : q b with
      | true =>
        rw [hq] at hlook
        exact Or.inr ⟨List.find?_cons_of_pos hq, List.find?_cons_of_pos hlook⟩
      | false =>
        rw [hq] at hlook
        rw [List.find?_cons_of_neg (by simp [hlook]), List.find?_cons_of_neg (by simp [hq])]
        exact Or.inl rfl
    | false =>
      rw [List.find?_cons_of_neg (by simp [hb])] at hfind
      rw [updateFirst_cons_of_neg p _ b rest hb, List.find?_cons, List.find?_cons]
      cases q b with
      | true => exact Or.inl rfl
      | false => exact ih hfind

/-! ## The invariant -/

/-- The device fits its C type. -/
structure DeviceFits (dev : MsDevprofile) : Prop where
  deviceIndex : FitsInt64 dev.deviceIndex
  netRefIndex : FitsInt64 dev.netRefIndex
  role : dev.role.length < 64
  expectedHardware : dev.expectedHardware.length < 96
  networkType : dev.networkType.length < 16
  objects : dev.objects.length ≤ msMaxObjects
  path : ∀ ob ∈ dev.objects, ob.path.length < msPath
  access : ∀ ob ∈ dev.objects, ob.access.length < 8
  runtimeAddress : dev.runtimeAddress.length < msPath
  runtimeUdpPort : FitsInt32 dev.runtimeUdpPort

/-- The module fits its C type; a device that stands behind another one of its index has no
address. -/
structure ModuleFits (mod : MsModule) : Prop where
  moduleType : mod.moduleType.length < 8
  networkType : mod.networkType.length < 16
  moduleRefIndex : FitsInt64 mod.moduleRefIndex
  devs : mod.devs.length ≤ msMaxDevices
  each : ∀ dev ∈ mod.devs, DeviceFits dev
  shadowed : mod.devs.Pairwise fun a b =>
    a.deviceIndex = b.deviceIndex → b.runtimeAddress = []

/-- INTERNAL: a device that is read fits its types. -/
theorem readDevice_fits (dp : Json) : DeviceFits (readDevice dp) where
  deviceIndex := objLong_fits _ _ _ (by decide)
  netRefIndex := objLong_fits _ _ _ (by decide)
  role := objStr_length _ _ _ (by decide)
  expectedHardware := objStr_length _ _ _ (by decide)
  networkType := objStr_length _ _ _ (by decide)
  objects := by
    show (List.map _ _).length ≤ _
    rw [List.length_map, List.length_take]
    exact min_le_left _ _
  path := by
    intro ob hob
    obtain ⟨o, -, rfl⟩ := List.mem_map.mp hob
    exact objStr_length _ _ _ (by decide)
  access := by
    intro ob hob
    obtain ⟨o, -, rfl⟩ := List.mem_map.mp hob
    exact objStr_length _ _ _ (by decide)
  runtimeAddress := by
    show ([] : CStr).length < msPath
    decide
  runtimeUdpPort := by
    show FitsInt32 0
    decide

/-- INTERNAL: so does a module. -/
theorem readModule_fits (mo : Json) : ModuleFits (readModule mo) where
  moduleType := objStr_length _ _ _ (by decide)
  networkType := objStr_length _ _ _ (by decide)
  moduleRefIndex := objLong_fits _ _ _ (by decide)
  devs := by
    show (List.map _ _).length ≤ _
    rw [List.length_map, List.length_take]
    exact min_le_left _ _
  each := by
    intro dev hdev
    obtain ⟨dp, -, rfl⟩ := List.mem_map.mp hdev
    exact readDevice_fits dp
  shadowed := by
    apply List.Pairwise.map
    · intro a b _ _
      rfl
    · exact List.pairwise_of_forall fun a b => trivial

/-- INTERNAL: an entry leaves a device that fits. -/
theorem updateDevice_fits (e : Json) (dev : MsDevprofile) (h : DeviceFits dev) :
    DeviceFits (updateDevice e dev) where
  deviceIndex := h.deviceIndex
  netRefIndex := h.netRefIndex
  role := h.role
  expectedHardware := h.expectedHardware
  networkType := h.networkType
  objects := h.objects
  path := h.path
  access := h.access
  runtimeAddress := by
    unfold updateDevice
    dsimp only
    split
    · exact h.runtimeAddress
    · exact boundedCopy_length _ _ (by decide)
  runtimeUdpPort := by
    unfold updateDevice
    dsimp only
    split
    · exact toInt32_fits _
    · exact h.runtimeUdpPort

/-- INTERNAL: a change of the first device of an index leaves the others of that index without
an address. -/
theorem shadowed_updateFirst (di : ℤ) (f : MsDevprofile → MsDevprofile)
    (hindex : ∀ dev, (f dev).deviceIndex = dev.deviceIndex) (devs : List MsDevprofile)
    (h : devs.Pairwise fun a b => a.deviceIndex = b.deviceIndex → b.runtimeAddress = []) :
    (updateFirst (isDevice di) f devs).Pairwise fun a b =>
      a.deviceIndex = b.deviceIndex → b.runtimeAddress = [] := by
  induction devs with
  | nil => exact List.Pairwise.nil
  | cons dev rest ih =>
    obtain ⟨hdev, hrest⟩ := List.pairwise_cons.mp h
    cases hdi : isDevice di dev with
    | true =>
      rw [updateFirst_cons_of_pos _ _ _ _ hdi, List.pairwise_cons]
      refine ⟨fun b hb heq => hdev b hb ?_, hrest⟩
      rw [← heq, hindex]
    | false =>
      rw [updateFirst_cons_of_neg _ _ _ _ hdi, List.pairwise_cons]
      refine ⟨fun b hb heq => ?_, ih hrest⟩
      rcases mem_updateFirst _ _ _ b hb with hb | ⟨c, hc, hp, rfl⟩
      · exact hdev b hb heq
      · -- The changed device has the index that is looked for, which dev has not.
        rw [hindex] at heq
        unfold isDevice at hp hdi
        rw [heq] at hdi
        rw [hdi] at hp
        cases hp

/-- INTERNAL: and a module. -/
theorem reportDevice_fits (acc : MsModule × Bool) (e : Json) (h : ModuleFits acc.1) :
    ModuleFits (reportDevice acc e).1 := by
  unfold reportDevice
  dsimp only
  split
  · exact
      { moduleType := h.moduleType
        networkType := h.networkType
        moduleRefIndex := h.moduleRefIndex
        devs := by
          show (updateFirst _ _ _).length ≤ _
          rw [length_updateFirst]
          exact h.devs
        each := forall_updateFirst _ _ _ DeviceFits h.each fun dev _ hdev =>
          updateDevice_fits e dev hdev
        shadowed := shadowed_updateFirst _ (updateDevice e) (fun _ => rfl) _ h.shadowed }
  · exact h

/-! ## Reports, profiles and requests -/

/-- INTERNAL: **what every entry keeps**, a report keeps. -/
theorem applyReport_invariant (P : MsModule → Prop) (root : Json)
    (hstep : ∀ acc, ∀ e ∈ root.rows (lit "devices"), P acc.1 → P (reportDevice acc e).1)
    (mod : MsModule) (h : P mod) : P (applyReport root mod).1 := by
  have hfold : ∀ (es : List Json) (acc : MsModule × Bool), (∀ e ∈ es, e ∈ root.rows (lit "devices")) →
      P acc.1 → P (es.foldl reportDevice acc).1 := by
    intro es
    induction es with
    | nil => exact fun _ _ hacc => hacc
    | cons e es ih =>
      intro acc hes hacc
      exact ih _ (fun e' he' => hes e' (List.mem_cons_of_mem _ he'))
        (hstep acc e (hes e List.mem_cons_self) hacc)
  exact hfold _ _ (fun _ he => he) h

/-- INTERNAL: so does a report. -/
theorem applyReport_fits (root : Json) (mod : MsModule) (h : ModuleFits mod) :
    ModuleFits (applyReport root mod).1 :=
  applyReport_invariant ModuleFits root (fun acc e _ => reportDevice_fits acc e) mod h

/-- INTERNAL: a report leaves the module its index. -/
theorem applyReport_index (root : Json) (mod : MsModule) :
    (applyReport root mod).1.moduleRefIndex = mod.moduleRefIndex := by
  refine applyReport_invariant (fun m => m.moduleRefIndex = mod.moduleRefIndex) root ?_ mod rfl
  intro acc e _ h
  unfold reportDevice
  dsimp only
  split
  · exact h
  · exact h

/-- INTERNAL: a report leaves the devices their indexes. -/
theorem applyReport_indexes (root : Json) (mod : MsModule) :
    (applyReport root mod).1.devs.map MsDevprofile.deviceIndex =
      mod.devs.map MsDevprofile.deviceIndex := by
  refine applyReport_invariant (fun m => m.devs.map MsDevprofile.deviceIndex =
    mod.devs.map MsDevprofile.deviceIndex) root ?_ mod rfl
  intro acc e _ h
  unfold reportDevice
  dsimp only
  split
  · rw [← h]
    exact map_updateFirst _ _ _ _ fun _ => rfl
  · exact h

/-- INTERNAL: **a request** changes no module, or the one that it reports for. -/
theorem handleRequest_pf (pf : MsProfile) (req : CStr) :
    (handleRequest pf req).pf = pf ∨
      ∃ root mt mi mod, Json.loads req = some root ∧ findModule pf mt mi = some mod ∧
        (handleRequest pf req).pf =
          ⟨updateFirst (isModule mt mi) (fun _ => (applyReport root mod).1) pf.modules⟩ := by
  unfold handleRequest
  cases hload : Json.loads req with
  | none => exact Or.inl rfl
  | some root =>
    dsimp only
    split
    · exact Or.inl rfl
    · split
      · exact Or.inl rfl
      · cases hfind : findModule pf (objStr root (lit "moduleType") maxCmdSize)
          (objLong root (lit "moduleRefIndex") (-1)) with
        | none => exact Or.inl rfl
        | some mod =>
          dsimp only
          split
          · exact Or.inl rfl
          · split
            · exact Or.inr ⟨root, _, _, mod, rfl, hfind, rfl⟩
            · exact Or.inl rfl

/-- INTERNAL: **what is true of every module that is read**, and kept by every entry of a
report, is true of every module that the service holds. -/
theorem serveRequests_invariant (P : MsModule → Prop) (hread : ∀ mo, P (readModule mo))
    (hstep : ∀ acc e, P acc.1 → P (reportDevice acc e).1) (txt : CStr) (pf : MsProfile)
    (hload : loadProfile txt = some pf) (requests : List (List UInt8)) :
    ∀ mod ∈ (serveRequests pf requests).modules, P mod := by
  have hloaded : ∀ mod ∈ pf.modules, P mod := by
    unfold loadProfile at hload
    rw [Option.bind_eq_some_iff] at hload
    obtain ⟨root, -, hload⟩ := hload
    dsimp only at hload
    split at hload
    · cases hload
    · cases hload
      intro mod hmod
      obtain ⟨mo, -, rfl⟩ := List.mem_map.mp hmod
      exact hread mo
  have hserve : ∀ (pf : MsProfile) (bytes : List UInt8), (∀ mod ∈ pf.modules, P mod) →
      ∀ mod ∈ (serveRequest pf bytes).pf.modules, P mod := by
    intro pf bytes h
    unfold serveRequest
    rcases handleRequest_pf pf (receivedText msMaxReqBufSize bytes) with
      hsame | ⟨root, mt, mi, mod, -, hfind, heq⟩
    · rw [hsame]
      exact h
    · rw [heq]
      have hmod := h mod (List.mem_of_find?_eq_some hfind)
      exact forall_updateFirst _ _ _ P h fun _ _ _ =>
        applyReport_invariant P root (fun acc e _ => hstep acc e) mod hmod
  have hrun : ∀ pf : MsProfile, (∀ mod ∈ pf.modules, P mod) →
      ∀ mod ∈ (serveRequests pf requests).modules, P mod := by
    unfold serveRequests
    induction requests with
    | nil => exact fun _ h => h
    | cons bytes rest ih => exact fun pf h => ih _ (hserve pf bytes h)
  exact hrun pf hloaded

/-- INTERNAL: **every module that the service holds** fits its C type. -/
theorem serveRequests_fits (txt : CStr) (pf : MsProfile) (hload : loadProfile txt = some pf)
    (requests : List (List UInt8)) :
    ∀ mod ∈ (serveRequests pf requests).modules, ModuleFits mod :=
  serveRequests_invariant ModuleFits readModule_fits reportDevice_fits txt pf hload requests

/-- INTERNAL: **a device that is online** is bound. -/
theorem serveRequests_bound (txt : CStr) (pf : MsProfile) (hload : loadProfile txt = some pf)
    (requests : List (List UInt8)) :
    ∀ mod ∈ (serveRequests pf requests).modules,
      ∀ dev ∈ mod.devs, dev.online = true → dev.runtimeBound = true := by
  refine serveRequests_invariant
    (fun mod => ∀ dev ∈ mod.devs, dev.online = true → dev.runtimeBound = true) ?_ ?_ txt pf hload
    requests
  · intro mo dev hdev honline
    obtain ⟨dp, -, rfl⟩ := List.mem_map.mp hdev
    cases honline
  · intro acc e h
    unfold reportDevice
    dsimp only
    split
    · exact forall_updateFirst _ _ _
        (fun dev : MsDevprofile => dev.online = true → dev.runtimeBound = true) h
        fun _ _ _ _ => rfl
    · exact h

end OpenHes.Analysis
