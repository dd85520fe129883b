import OpenHes.Analysis.HeldModules
import OpenHes.Library.JsonScan

/-!
# Which clients adopt a published slice

A notification is the slice with the decimal index of its module in front, and a client takes
every message that starts with its own index. What stays in front of the slice when that is
stripped decides whether it can be read.
-/

set_option autoImplicit false

namespace OpenHes.Analysis

open OpenHes.Library OpenHes.Library.Json OpenHes.Model

/-! ## Decimal numbers -/

/-- INTERNAL: the numeral of a `uint32_t` has ten digits at most. -/
theorem decimal_length (n : ℕ) (h : n < 2 ^ 32) : (Binary64.decimal n).length ≤ 10 := by
  unfold Binary64.decimal
  rw [List.length_map, Nat.length_toDigits_le_iff (by omega) (by omega)]
  omega

/-- INTERNAL: a natural number is told by its digits. -/
theorem decimal_injective (m n : ℕ) (h : Binary64.decimal m = Binary64.decimal n) : m = n := by
  rw [← Binary64.digitsValue_decimal m, ← Binary64.digitsValue_decimal n, h]

/-- INTERNAL: **a text that starts with a digit** is no object and no array. -/
theorem loads_digit (c : UInt8) (rest : CStr) (h : Binary64.isDigit c = true) :
    loads (c :: rest) = none := by
  obtain ⟨hblank, hpunct, hquote⟩ := numeral_byte c (by rw [h, Bool.true_or])
  have hscan : lexScan c rest = scanNumber (c :: rest) := by
    unfold lexScan
    rw [hpunct]
    dsimp only
    rw [if_neg hquote, if_pos (by simp [h])]
  unfold loads
  split
  · rw [tokens_cons c rest hblank, hscan]
    cases hnumber : scanNumber (c :: rest) with
    | none => rfl
    | some p =>
      have hfixed := scanNumber_not_fixed _ _ _ hnumber
      rw [Option.bind_some]
      cases tokens p.2 with
      | none => rfl
      | some ts =>
        rw [Option.map_some, Option.bind_some]
        -- A number is no bracket.
        split
        next heq =>
          rw [(List.cons.inj heq).1] at hfixed
          cases hfixed
        next heq =>
          rw [(List.cons.inj heq).1] at hfixed
          cases hfixed
        · rfl
  · rfl

/-! ## Publishing -/

/-- The request names the module: it gives the index, and the type unless that is left empty. -/
def Names (pf : MsProfile) (bytes : List UInt8) (mod : MsModule) : Prop :=
  ∃ root, loads (receivedText msMaxReqBufSize bytes) = some root ∧
    findModule pf (objStr root (lit "moduleType") maxCmdSize)
      (objLong root (lit "moduleRefIndex") (-1)) = some mod

/-- INTERNAL: **what is published** is the slice of the named module, behind its index. -/
theorem published_message (pf : MsProfile) (bytes : List UInt8) (mod : MsModule)
    (hnames : Names pf bytes mod) (msg : List UInt8)
    (h : msg ∈ (serveRequest pf bytes).published) :
    0 ≤ mod.moduleRefIndex ∧ ∃ slice : MsModule,
      slice.moduleRefIndex = mod.moduleRefIndex ∧ msg = publishSlice slice := by
  obtain ⟨root, hload, hfind⟩ := hnames
  have hindex : mod.moduleRefIndex = objLong root (lit "moduleRefIndex") (-1) := by
    have := List.find?_some hfind
    unfold isModule at this
    simp only [Bool.and_eq_true, decide_eq_true_eq] at this
    exact this.1
  unfold serveRequest handleRequest at h
  rw [hload] at h
  dsimp only at h
  rw [hfind] at h
  dsimp only at h
  split at h
  · cases h
  · split at h
    · cases h
    next hpos =>
      split at h
      · cases h
      · split at h
        · dsimp only at h
          split at h
          · rw [List.mem_singleton] at h
            exact ⟨by omega, _, applyReport_index root mod, h⟩
          · cases h
        · cases h

/-! ## Receiving -/

/-- The start of a slice behind the index. -/
theorem publishSlice_head (slice : MsModule) (idx : ℕ) (h : slice.moduleRefIndex = idx) :
    ∃ tail, publishSlice slice = Binary64.decimal idx ++ 123 :: tail := by
  have hbrace : lit "\x7b\n" = [123, 10] := by decide +kernel
  unfold publishSlice buildSlice
  rw [h, fmtD_natural, hbrace]
  simp only [List.append_assoc, List.cons_append]
  exact ⟨_, rfl⟩

/-- INTERNAL: the topic of a client is the numeral of its index. -/
theorem topic_decimal (moduleType : CStr) (mi : ℕ) (h : mi < 2 ^ 32) :
    (hesMregOpen moduleType mi).topic = Binary64.decimal mi := by
  have hlen := decimal_length mi h
  show boundedCopy 16 (fmtD mi) = _
  rw [fmtD_natural]
  unfold boundedCopy
  exact List.take_of_length_le (by omega)

/-- INTERNAL: the buffer of a client starts as the message does. -/
theorem received_head (head : CStr) (tail : List UInt8) (hlen : head.length < 100)
    (hdigits : ∀ c ∈ head, Binary64.isDigit c = true) :
    ∃ tail', receivedText hesMregReplyMax (head ++ 123 :: tail) = head ++ 123 :: tail' := by
  have hne : ∀ c ∈ head, c ≠ 0 := by
    rintro c hc rfl
    exact absurd (hdigits 0 hc) (by decide)
  unfold receivedText cString hesMregReplyMax
  obtain ⟨k, hk⟩ : ∃ k, 65536 - 1 - head.length = k + 1 := ⟨65534 - head.length, by omega⟩
  rw [List.take_append, hk, List.take_of_length_le (by omega), List.take_succ_cons,
    List.takeWhile_append_of_pos (by simpa using hne), List.takeWhile_cons_of_pos (by decide)]
  exact ⟨_, rfl⟩

/-- INTERNAL: **a client adopts only slices of its own index**: with another one that starts the
message, digits are left in front. -/
theorem adopted_index (slice : MsModule) (idx : ℕ) (hidx : slice.moduleRefIndex = idx)
    (hfits : idx < 2 ^ 63) (moduleType : CStr) (mi : ℕ) (hmi : mi < 2 ^ 32)
    (hsub : (hesMregOpen moduleType mi).subscribed (publishSlice slice) = true)
    (hadopt : (hesMregRecvUpdate (hesMregOpen moduleType mi) (publishSlice slice)).isSome = true) :
    mi = idx := by
  obtain ⟨tail, hmsg⟩ := publishSlice_head slice idx hidx
  have hlen : (Binary64.decimal idx).length < 100 := by
    have : (Binary64.decimal idx).length ≤ 19 := by
      unfold Binary64.decimal
      rw [List.length_map, Nat.length_toDigits_le_iff (by omega) (by omega)]
      omega
    omega
  obtain ⟨tail', hbuf⟩ := received_head (Binary64.decimal idx) tail hlen
    (Binary64.decimal_digits idx)
  unfold HesMreg.subscribed at hsub
  rw [topic_decimal moduleType mi hmi, hmsg, List.isPrefixOf_iff_prefix] at hsub
  -- The topic ends among the digits: it holds no brace.
  have hstart : Binary64.decimal mi <+: Binary64.decimal idx := by
    by_cases hle : (Binary64.decimal mi).length ≤ (Binary64.decimal idx).length
    · exact List.prefix_of_prefix_length_le hsub (List.prefix_append _ _) hle
    · have hbrace : Binary64.decimal idx ++ [123] <+: Binary64.decimal idx ++ 123 :: tail := by
        rw [List.prefix_append_right_inj]
        exact ⟨tail, rfl⟩
      have hlong := List.prefix_of_prefix_length_le hbrace hsub (by
        rw [List.length_append, List.length_singleton]
        omega)
      have hdigit := Binary64.decimal_digits mi 123
        (hlong.subset (List.mem_append_right _ List.mem_cons_self))
      cases hdigit
  obtain ⟨left, hleft⟩ := hstart
  unfold hesMregRecvUpdate at hadopt
  rw [topic_decimal moduleType mi hmi, hmsg, hbuf] at hadopt
  dsimp only at hadopt
  rw [← hleft] at hadopt
  rw [List.append_assoc, if_pos (by simp), List.drop_left] at hadopt
  cases left with
  | nil =>
    apply decimal_injective
    rw [← hleft, List.append_nil]
  | cons c left =>
    have hc : Binary64.isDigit c = true := by
      apply Binary64.decimal_digits idx
      rw [← hleft]
      exact List.mem_append_right _ List.mem_cons_self
    unfold parseSlice at hadopt
    rw [List.cons_append, loads_digit c _ hc] at hadopt
    cases hadopt

/-! ## Isolation -/

/-- Only clients of the module adopt the message, among those of declared modules. -/
def Isolated (pf : MsProfile) (mod : MsModule) (msg : List UInt8) : Prop :=
  ∀ (moduleType : CStr) (moduleRefIndex : ℕ), moduleRefIndex < 2 ^ 32 →
    (∃ other ∈ pf.modules,
      other.moduleType = moduleType ∧ other.moduleRefIndex = moduleRefIndex) →
    (hesMregOpen moduleType moduleRefIndex).subscribed msg = true →
    (hesMregRecvUpdate (hesMregOpen moduleType moduleRefIndex) msg).isSome = true →
    moduleType = mod.moduleType ∧ (moduleRefIndex : ℤ) = mod.moduleRefIndex

/-- No other declared module has the index of the module, if a client can have that index. -/
def Unshared (pf : MsProfile) (mod : MsModule) : Prop :=
  mod.moduleRefIndex < 2 ^ 32 →
    ∀ other ∈ pf.modules, other.moduleRefIndex = mod.moduleRefIndex →
      other.moduleType = mod.moduleType

/-- **Notifications are isolated**, for every profile, every state of the service and every report
that it publishes, where no other declared module has the index of the named one; and, where the
client of the named module adopts the slice, only then.
SRCLINE: dm/dm.c:422-436, common/hes_mreg.c:200-240, 357-378 -/
theorem isolated_iff (txt : CStr) (pf : MsProfile) (hload : loadProfile txt = some pf)
    (requests : List (List UInt8)) (bytes : List UInt8) (mod : MsModule)
    (hnames : Names (serveRequests pf requests) bytes mod) (msg : List UInt8)
    (hmsg : msg ∈ (serveRequest (serveRequests pf requests) bytes).published) :
    (Unshared (serveRequests pf requests) mod → Isolated (serveRequests pf requests) mod msg) ∧
      ((hesMregRecvUpdate (hesMregOpen mod.moduleType mod.moduleRefIndex.toNat) msg).isSome = true →
        Isolated (serveRequests pf requests) mod msg → Unshared (serveRequests pf requests) mod) := by
  obtain ⟨hpos, slice, hindex, rfl⟩ := published_message _ bytes mod hnames msg hmsg
  obtain ⟨root, -, hfind⟩ := hnames
  have hfits := (serveRequests_fits txt pf hload requests mod
    (List.mem_of_find?_eq_some hfind)).moduleRefIndex
  obtain ⟨idx, hidx⟩ := Int.eq_ofNat_of_zero_le hpos
  have hbound : idx < 2 ^ 63 := by
    have := hfits.2
    omega
  constructor
  · intro hunshared moduleType mi hmi hdeclared hsub hadopt
    obtain ⟨other, hother, rfl, hotherIndex⟩ := hdeclared
    have hmieq : mi = idx := adopted_index slice idx (hindex.trans hidx) hbound _ mi hmi hsub hadopt
    subst hmieq
    exact ⟨hunshared (by omega) other hother (hotherIndex.trans hidx.symm), hidx.symm⟩
  · intro hown hisolated hlt other hother hsame
    have hsmall : idx < 2 ^ 32 := by omega
    have hnat : mod.moduleRefIndex.toNat = idx := by omega
    rw [hnat] at hown
    -- Clients of one index are handed the same and make the same of it.
    have htopic : (hesMregOpen other.moduleType idx).topic = (hesMregOpen mod.moduleType idx).topic := by
      rw [topic_decimal _ idx hsmall, topic_decimal _ idx hsmall]
    refine (hisolated other.moduleType idx hsmall ⟨other, hother, rfl, hsame.trans hidx⟩ ?_ ?_).1
    · obtain ⟨tail, hmessage⟩ := publishSlice_head slice idx (hindex.trans hidx)
      unfold HesMreg.subscribed
      rw [topic_decimal _ idx hsmall, hmessage, List.isPrefixOf_iff_prefix]
      exact List.prefix_append _ _
    · unfold hesMregRecvUpdate at hown ⊢
      rw [htopic]
      exact hown

/-- A profile of two modules at the index 1: the second is an interface module with a device. -/
def twoModulesProfile (first : String) : CStr :=
  lit ("\x7b\"modules\":[\x7b\"moduleType\":\"" ++ first ++ "\",\"moduleRefIndex\":1\x7d," ++
    "\x7b\"moduleType\":\"hi\",\"moduleRefIndex\":1,\"deviceProfiles\":[" ++
    "\x7b\"deviceIndex\":6\x7d]\x7d]\x7d")

/-- The interface module of such a profile. -/
def interfaceModule (bound : Bool) : MsModule where
  moduleType := lit "hi"
  moduleRefIndex := 1
  serviceModuleType := []
  networkType := []
  devs := [⟨6, 0, [], [], [], [], [], 0, bound, bound⟩]

/-- The registry of such a profile. -/
def twoModules (first : String) (bound : Bool) : MsProfile where
  modules := [⟨lit first, 1, [], [], []⟩, interfaceModule bound]

/-- A report that the device of the interface module is there. -/
def presenceReport : CStr :=
  lit ("\x7b\"cmd\":\"report\",\"moduleType\":\"hi\",\"moduleRefIndex\":1,\"devices\":[" ++
    "\x7b\"deviceIndex\":6,\"online\":1\x7d]\x7d")

/-- INTERNAL: the report names the interface module, where no other has its type. -/
theorem presenceReport_names (first : String) (h : lit first ≠ lit "hi") :
    Names (twoModules first false) presenceReport (interfaceModule false) := by
  have hread : (loads (receivedText msMaxReqBufSize presenceReport)).map (fun root =>
      (objStr root (lit "moduleType") maxCmdSize, objLong root (lit "moduleRefIndex") (-1))) =
        some (lit "hi", 1) := by
    unfold presenceReport
    rw [lit_append, lit_ofList, lit_ofList]
    decide +kernel
  obtain ⟨root, hload, hfields⟩ := Option.map_eq_some_iff.mp hread
  rw [Prod.mk.injEq] at hfields
  refine ⟨root, hload, ?_⟩
  rw [hfields.1, hfields.2]
  have hfirst : isModule (lit "hi") 1 ⟨lit first, 1, [], [], []⟩ = false := by
    have hne : lit "hi" ≠ [] := by decide +kernel
    unfold isModule
    simp [h, hne]
  unfold findModule twoModules
  rw [List.find?_cons_of_neg (by simp [hfirst])]
  rfl

/-- INTERNAL: the two modules are what their profile is loaded to. -/
theorem twoModules_loaded : loadProfile (twoModulesProfile "sm") = some (twoModules "sm" false) := by
  unfold twoModulesProfile
  simp only [lit_append]
  rw [lit_ofList, lit_ofList, lit_ofList, lit_ofList]
  decide +kernel

/-- INTERNAL: the report is published. -/
theorem presenceReport_published :
    publishSlice (interfaceModule true) ∈
      (serveRequest (twoModules "sm" false) presenceReport).published := by
  unfold presenceReport
  rw [lit_append, lit_ofList, lit_ofList]
  decide +kernel

/-- INTERNAL: every client of the index adopts the slice. -/
theorem interfaceModule_adopted (moduleType : CStr) :
    (hesMregRecvUpdate (hesMregOpen moduleType 1)
      (publishSlice (interfaceModule true))).isSome = true := by
  have hany : (hesMregRecvUpdate (hesMregOpen [] 1)
      (publishSlice (interfaceModule true))).isSome = true := by decide +kernel
  unfold hesMregRecvUpdate at hany ⊢
  exact hany

/-- INTERNAL: the interface module is isolated if it shares its index with no module. -/
theorem isolated_two_modules :
    Isolated (twoModules "sm" false) (interfaceModule false) (publishSlice (interfaceModule true)) ↔
      Unshared (twoModules "sm" false) (interfaceModule false) := by
  have hnames := presenceReport_names "sm" (by decide +kernel)
  have hiff := isolated_iff (twoModulesProfile "sm") (twoModules "sm" false) twoModules_loaded []
    presenceReport (interfaceModule false) hnames (publishSlice (interfaceModule true))
    presenceReport_published
  exact ⟨hiff.2 (interfaceModule_adopted _), hiff.1⟩

/-- A service module of the same index adopts the slice of the interface module. -/
theorem service_module_adopts :
    ∃ txt pf bytes mod msg, loadProfile txt = some pf ∧ Names pf bytes mod ∧
      msg ∈ (serveRequest pf bytes).published ∧ ¬ Isolated pf mod msg := by
  refine ⟨twoModulesProfile "sm", twoModules "sm" false, presenceReport, interfaceModule false,
    publishSlice (interfaceModule true), twoModules_loaded,
    presenceReport_names "sm" (by decide +kernel), presenceReport_published, fun hisolated => ?_⟩
  have hsm := (hisolated (lit "sm") 1 (by omega) ⟨_, List.mem_cons_self, rfl, rfl⟩
    (by decide +kernel) (interfaceModule_adopted _)).1
  exact absurd hsm (by decide +kernel)

end OpenHes.Analysis
