import OpenHes.Model.DeviceAddressing

/-!
# Which device a message addresses

A message without a deviceIndex is for the only online device that exposes its path. The look-up
by index that comes first takes the 0 of such a message for an index, and it stops at the first
device with an index, so the registries it goes wrong on are told.
-/

set_option autoImplicit false

namespace OpenHes.Analysis

open OpenHes.Library OpenHes.Model

/-! ## The only one -/

/-- Is the element at a place the only one that `p` holds of? -/
structure OnlyAt {α : Type} (p : α → Bool) (l : List α) (i : ℕ) : Prop where
  holds : ∃ a, l[i]? = some a ∧ p a = true
  only : ∀ j a, l[j]? = some a → p a = true → j = i

section OnlyAt

variable {α : Type} (p : α → Bool)

/-- INTERNAL: if the first member is one, it is the only one where no other is. -/
theorem onlyAt_cons_of_pos (a : α) (rest : List α) (i : ℕ) (ha : p a = true) :
    OnlyAt p (a :: rest) i ↔ i = 0 ∧ ∀ b ∈ rest, p b = false := by
  constructor
  · intro h
    have hzero : 0 = i := h.only 0 a rfl ha
    refine ⟨hzero.symm, fun b hb => ?_⟩
    obtain ⟨j, hj⟩ := List.getElem?_of_mem hb
    rw [Bool.eq_false_iff]
    intro hpb
    have := h.only (j + 1) b hj hpb
    omega
  · rintro ⟨rfl, hrest⟩
    refine ⟨⟨a, rfl, ha⟩, fun j b hj hpb => ?_⟩
    cases j with
    | zero => rfl
    | succ j =>
      have := hrest b (List.mem_of_getElem? hj)
      rw [hpb] at this
      cases this

/-- INTERNAL: if it is none, the only one is behind it. -/
theorem onlyAt_cons_of_neg (a : α) (rest : List α) (i : ℕ) (ha : p a = false) :
    OnlyAt p (a :: rest) i ↔ ∃ j, i = j + 1 ∧ OnlyAt p rest j := by
  constructor
  · intro h
    obtain ⟨b, hb, hpb⟩ := h.holds
    cases i with
    | zero =>
      cases hb
      rw [ha] at hpb
      cases hpb
    | succ i =>
      refine ⟨i, rfl, ⟨b, hb, hpb⟩, fun j c hj hpc => ?_⟩
      exact Nat.succ.inj (h.only (j + 1) c hj hpc)
  · rintro ⟨i, rfl, ⟨b, hb, hpb⟩, honly⟩
    refine ⟨⟨b, hb, hpb⟩, fun j c hj hpc => ?_⟩
    cases j with
    | zero =>
      cases hj
      rw [ha] at hpc
      cases hpc
    | succ j => exact congrArg Nat.succ (honly j c hj hpc)

end OnlyAt

/-! ## The scan -/

/-- INTERNAL: the scan keeps what it has found where no further device is online with the path. -/
theorem scanOnline_found (path : CStr) (i found k : ℕ) (devs : List HesDevice) :
    scanOnline path i (some found) devs = some k ↔
      k = found ∧ ∀ d ∈ devs, onlineWith path d = false := by
  induction devs generalizing i with
  | nil =>
    rw [scanOnline, Option.some.injEq]
    exact ⟨fun h => ⟨h.symm, fun d hd => absurd hd List.not_mem_nil⟩, fun h => h.1.symm⟩
  | cons d rest ih =>
    rw [scanOnline, List.forall_mem_cons]
    cases hd : onlineWith path d with
    | true =>
      rw [if_pos rfl]
      constructor
      · intro h
        cases h
      · rintro ⟨-, h, -⟩
        cases h
    | false =>
      rw [if_neg Bool.false_ne_true, ih]
      exact ⟨fun h => ⟨h.1, rfl, h.2⟩, fun h => ⟨h.1, h.2.2⟩⟩

/-- INTERNAL: **the scan** finds the only online device with the path, and nothing else. -/
theorem scanOnline_none (path : CStr) (i k : ℕ) (devs : List HesDevice) :
    scanOnline path i none devs = some k ↔
      ∃ j, k = i + j ∧ OnlyAt (onlineWith path) devs j := by
  induction devs generalizing i with
  | nil =>
    constructor
    · intro h
      cases h
    · rintro ⟨j, -, ⟨d, hd, -⟩, -⟩
      cases hd
  | cons d rest ih =>
    rw [scanOnline]
    cases hd : onlineWith path d with
    | true =>
      rw [if_pos rfl, Option.isSome_none, if_neg Bool.false_ne_true, scanOnline_found]
      constructor
      · rintro ⟨rfl, hrest⟩
        exact ⟨0, rfl, (onlyAt_cons_of_pos _ d rest 0 hd).mpr ⟨rfl, hrest⟩⟩
      · rintro ⟨j, rfl, honly⟩
        obtain ⟨rfl, hrest⟩ := (onlyAt_cons_of_pos _ d rest j hd).mp honly
        exact ⟨rfl, hrest⟩
    | false =>
      rw [if_neg Bool.false_ne_true, ih]
      constructor
      · rintro ⟨j, rfl, honly⟩
        exact ⟨j + 1, by omega, (onlyAt_cons_of_neg _ d rest (j + 1) hd).mpr ⟨j, rfl, honly⟩⟩
      · rintro ⟨j, rfl, honly⟩
        obtain ⟨j, rfl, hrest⟩ := (onlyAt_cons_of_neg _ d rest j hd).mp honly
        exact ⟨j, by omega, hrest⟩

/-! ## The look-up by index -/

/-- INTERNAL: the place and the device that stands for it. -/
theorem indexByDi_eq (reg : HesDevreg) (di : ℕ) :
    indexByDi reg di = (reg.indexByDi di).bind fun i => reg.devices[i]? :=
  List.find?_eq_bind_findIdx?_getElem?

/-- INTERNAL: the place that is found for an index holds a device of that index. -/
theorem deviceIndex_of_indexByDi (reg : HesDevreg) (di i : ℕ) (h : reg.indexByDi di = some i) :
    ∃ d, reg.devices[i]? = some d ∧ d.deviceIndex = di := by
  obtain ⟨hlt, hdi, -⟩ := List.findIdx?_eq_some_iff_getElem.mp h
  exact ⟨reg.devices[i], List.getElem?_eq_getElem hlt, of_decide_eq_true hdi⟩

/-- The device that the look-up by index answers with, where it is online and has the path. -/
def namedIndex (reg : HesDevreg) (path : CStr) (di : ℕ) : Option ℕ :=
  (reg.indexByDi di).filter fun i => (reg.devices[i]?).any (onlineWith path)

/-- INTERNAL: a device is found by its index if it is online and exposes the path. -/
theorem namedIndex_some (reg : HesDevreg) (path : CStr) (di i : ℕ) :
    namedIndex reg path di = some i ↔
      reg.indexByDi di = some i ∧ ∃ d, reg.devices[i]? = some d ∧ onlineWith path d = true := by
  unfold namedIndex
  rw [Option.filter_eq_some_iff, Option.any_eq_true]

/-- INTERNAL: an index other than 0 is looked up. -/
theorem resolveIndex_of_ne_zero (reg : HesDevreg) (path : CStr) (di : ℕ) (hdi : di ≠ 0) :
    resolveIndex reg path di = namedIndex reg path di := by
  unfold resolveIndex
  change (if (namedIndex reg path di).isSome = true then namedIndex reg path di else _) = _
  cases namedIndex reg path di with
  | none => exact (if_neg Bool.false_ne_true).trans (if_pos hdi)
  | some i => exact if_pos rfl

/-- INTERNAL: so is 0, and then the devices are scanned. -/
theorem resolveIndex_zero (reg : HesDevreg) (path : CStr) :
    resolveIndex reg path 0 = (namedIndex reg path 0).or (scanOnline path 0 none reg.devices) := by
  unfold resolveIndex
  change (if (namedIndex reg path 0).isSome = true then namedIndex reg path 0 else _) = _
  cases namedIndex reg path 0 with
  | none => exact (if_neg Bool.false_ne_true).trans (if_neg fun h => h rfl)
  | some i => exact if_pos rfl

/-! ## Never by guess -/

/-- **A message commands no device by guess**: without an index it is for the only online device
with its path, and for none where there is no only one; with one it is for an online device of
this index with its path, wherever there is one, and for none otherwise. -/
structure NeverGuesses (reg : HesDevreg) (path : CStr) : Prop where
  unnamed : ∀ i, resolveIndex reg path 0 = some i ↔ OnlyAt (onlineWith path) reg.devices i
  named : ∀ di, di ≠ 0 → ∀ i, resolveIndex reg path di = some i →
    ∃ d, reg.devices[i]? = some d ∧ d.deviceIndex = di ∧ onlineWith path d = true
  found : ∀ di, di ≠ 0 →
    (∃ d ∈ reg.devices, d.deviceIndex = di ∧ onlineWith path d = true) →
      (resolveIndex reg path di).isSome = true

/-- The indexes of a registry tell its devices apart, as far as a path goes: where the first
device of index 0 is online with the path, no other is; and for each other index, where some
device of it is online with the path, the first device of it is. -/
structure IndexesClear (reg : HesDevreg) (path : CStr) : Prop where
  zero : ∀ i, namedIndex reg path 0 = some i → OnlyAt (onlineWith path) reg.devices i
  first : ∀ di, di ≠ 0 →
    (∃ d ∈ reg.devices, d.deviceIndex = di ∧ onlineWith path d = true) →
      ∃ d, indexByDi reg di = some d ∧ onlineWith path d = true

/-- INTERNAL: the look-up by an index finds what the first device with it is. -/
theorem namedIndex_isSome (reg : HesDevreg) (path : CStr) (di : ℕ) :
    (namedIndex reg path di).isSome = true ↔
      ∃ d, indexByDi reg di = some d ∧ onlineWith path d = true := by
  rw [Option.isSome_iff_exists]
  constructor
  · rintro ⟨i, hi⟩
    obtain ⟨hindex, d, hd, honline⟩ := (namedIndex_some reg path di i).mp hi
    refine ⟨d, ?_, honline⟩
    rw [indexByDi_eq, hindex, Option.bind_some, hd]
  · rintro ⟨d, hd, honline⟩
    rw [indexByDi_eq, Option.bind_eq_some_iff] at hd
    obtain ⟨i, hindex, hd⟩ := hd
    exact ⟨i, (namedIndex_some reg path di i).mpr ⟨hindex, d, hd, honline⟩⟩

/-- **Commands by guess.** For every registry and path, a message without a deviceIndex reaches the
only online device with the path, and one with an index a device of that index, exactly where the
indexes of the registry tell its devices apart.
SRCLINE: wifi.c:102-146, ble.c:103-141 -/
theorem never_guesses_iff (reg : HesDevreg) (path : CStr) :
    NeverGuesses reg path ↔ IndexesClear reg path := by
  have hscan : ∀ i, scanOnline path 0 none reg.devices = some i ↔
      OnlyAt (onlineWith path) reg.devices i := by
    intro i
    rw [scanOnline_none]
    constructor
    · rintro ⟨j, hj, honly⟩
      rw [Nat.zero_add] at hj
      exact hj ▸ honly
    · exact fun h => ⟨i, (Nat.zero_add i).symm, h⟩
  constructor
  · intro h
    constructor
    · intro i hi
      rw [← h.unnamed, resolveIndex_zero, hi, Option.some_or]
    · intro di hdi hsome
      have hfound := h.found di hdi hsome
      rw [resolveIndex_of_ne_zero reg path di hdi] at hfound
      exact (namedIndex_isSome reg path di).mp hfound
  · intro h
    constructor
    · intro i
      rw [resolveIndex_zero]
      cases hnamed : namedIndex reg path 0 with
      | none => rw [Option.none_or, hscan]
      | some j =>
        have honly := h.zero j hnamed
        rw [Option.some_or, Option.some.injEq]
        constructor
        · rintro rfl
          exact honly
        · intro hi
          obtain ⟨d, hd, honline⟩ := honly.holds
          exact hi.only j d hd honline
    · intro di hdi i hi
      rw [resolveIndex_of_ne_zero reg path di hdi, namedIndex_some] at hi
      obtain ⟨hindex, d, hd, honline⟩ := hi
      obtain ⟨e, he, hedi⟩ := deviceIndex_of_indexByDi reg di i hindex
      rw [hd] at he
      cases he
      exact ⟨d, hd, hedi, honline⟩
    · intro di hdi hsome
      rw [resolveIndex_of_ne_zero reg path di hdi, namedIndex_isSome]
      exact h.first di hdi hsome

/-- A lamp of a slice. -/
def lampEntry (di : ℤ) : Json :=
  .object [(lit "deviceIndex", .integer di), (lit "status", .string (lit "online")),
    (lit "objects", .array [.object [(lit "lexiconPath", .string (lit "/lx/ob/uo/li/ll/da/cv")),
      (lit "access", .string (lit "rw"))]])]

/-- A slice with a lamp that has no index of its own, and one that has. -/
def twoLampSlice : Json := .object [(lit "devices", .array [lampEntry 0, lampEntry 5])]

/-- With the devices 0 and 5 online, a message without an index is taken for device 0. -/
theorem zero_index_commands_by_guess :
    (hesDevregParse twoLampSlice).map (fun reg =>
        (reg.devices.map fun d => (d.deviceIndex, onlineWith (lit "/lx/ob/uo/li/ll/da/cv") d),
          resolveIndex reg (lit "/lx/ob/uo/li/ll/da/cv") 0)) =
      some ([(0, true), (5, true)], some 0) ∧
      ¬∀ (reg : HesDevreg) (path : CStr), NeverGuesses reg path := by
  have hslice : (hesDevregParse twoLampSlice).map (fun reg =>
      (reg.devices.map fun d => (d.deviceIndex, onlineWith (lit "/lx/ob/uo/li/ll/da/cv") d),
        resolveIndex reg (lit "/lx/ob/uo/li/ll/da/cv") 0)) =
      some ([(0, true), (5, true)], some 0) := by decide +kernel
  refine ⟨hslice, fun h => ?_⟩
  obtain ⟨reg, -, heq⟩ := Option.map_eq_some_iff.mp hslice
  obtain ⟨hdevices, hresolved⟩ := Prod.mk.inj heq
  have honly := ((h reg (lit "/lx/ob/uo/li/ll/da/cv")).unnamed 0).mp hresolved
  have hsecond : (reg.devices[1]?).map (fun d =>
      (d.deviceIndex, onlineWith (lit "/lx/ob/uo/li/ll/da/cv") d)) = some (5, true) := by
    rw [← List.getElem?_map, hdevices]
    rfl
  obtain ⟨d, hd, hlamp⟩ := Option.map_eq_some_iff.mp hsecond
  have := honly.only 1 d hd (Prod.mk.inj hlamp).2
  omega

end OpenHes.Analysis
