import OpenHes.Analysis.ReportText
import OpenHes.Library.SeparatedText
import OpenHes.Model.ReportBuffer

/-!
# Reporting in bounds

The widths of all fields over all devices that a registry has room for leave a report in its
buffer. So every `snprintf` is called at the end of what the buffer holds, with room for what it
prints, and the request is the text that the formats make one behind the other.
-/

set_option autoImplicit false

namespace OpenHes.Analysis

open OpenHes.Library OpenHes.Library.Json OpenHes.Model

/-! ## Appending -/

/-- The buffer holds the text, `off` is at its end, and no call was made behind the last byte. -/
structure Appended (s : ReportBuffer) (text : CStr) : Prop where
  req : s.req = zeroPadded hesMregReqMax text
  off : s.off = text.length
  calls : ∀ off ∈ s.calls, off ≤ hesMregReqMax - 1

/-- INTERNAL: **one call** prints its text at the end, where the buffer has room for it. -/
theorem print_appended (s : ReportBuffer) (text more : CStr) (h : Appended s text)
    (hroom : text.length + more.length < hesMregReqMax) :
    s.print more = .ok (⟨zeroPadded hesMregReqMax (text ++ more), s.off, s.calls ++ [s.off]⟩,
      (more.length : ℤ)) := by
  have hmax : hesMregReqMax = 8192 := rfl
  have hleft : toSize (hesMregReqMax - s.off) = hesMregReqMax - text.length := by
    rw [h.off, ← toSize_of_lt (hesMregReqMax - text.length) (by omega), Nat.cast_sub (by omega)]
  unfold ReportBuffer.print
  rw [hleft, h.req, h.off, snprintf_zeroPadded hesMregReqMax text more hroom (by omega)]

/-- INTERNAL: **one step.** What is printed, and the offset moved behind it. -/
theorem appended_next (s : ReportBuffer) (text more : CStr) (h : Appended s text)
    (hroom : text.length + more.length < hesMregReqMax) (off : ℕ)
    (hoff : off = text.length + more.length) :
    Appended ⟨zeroPadded hesMregReqMax (text ++ more), off, s.calls ++ [s.off]⟩ (text ++ more) := by
  refine ⟨rfl, ?_, fun c hc => ?_⟩
  · rw [List.length_append]
    exact hoff
  · rcases List.mem_append.mp hc with hc | hc
    · exact h.calls c hc
    · rw [List.mem_singleton.mp hc, h.off]
      omega

/-- What the loop prints from device `i` on. -/
def reportItems : ℕ → List HesDevice → CStr
  | _, [] => []
  | i, d :: rest => reportItem i d ++ reportItems (i + 1) rest

/-- INTERNAL: every device behind the first has a separator in front. -/
theorem reportItems_succ (i : ℕ) (devices : List HesDevice) :
    reportItems (i + 1) devices = devices.flatMap fun d => lit "," ++ reportEntry d := by
  induction devices generalizing i with
  | nil => rfl
  | cons d rest ih =>
    rw [reportItems, ih, List.flatMap_cons]
    rfl

/-- INTERNAL: from the first on these are the entries of the report. -/
theorem reportItems_zero (devices : List HesDevice) :
    reportItems 0 devices = reportEntries devices := by
  cases devices with
  | nil => rfl
  | cons d rest =>
    rw [reportItems, reportItems_succ]
    rfl

/-- INTERNAL: **the loop** appends its devices one behind the other. -/
theorem reportDevices_appended (devices : List HesDevice) (i : ℕ) (s : ReportBuffer) (text : CStr)
    (h : Appended s text)
    (hroom : text.length + (reportItems i devices).length < hesMregReqMax) :
    ∃ s', reportDevices i devices s = .ok s' ∧ Appended s' (text ++ reportItems i devices) ∧
      s'.calls.length = s.calls.length + devices.length := by
  induction devices generalizing i s text with
  | nil => exact ⟨s, rfl, by rwa [reportItems, List.append_nil], rfl⟩
  | cons d rest ih =>
    rw [reportItems, List.length_append] at hroom
    have hmax : hesMregReqMax = 8192 := rfl
    have hfirst : text.length + (reportItem i d).length < hesMregReqMax := by omega
    have hinside : s.off < hesMregReqMax := by
      rw [h.off]
      omega
    have hprint := print_appended s text (reportItem i d) h hfirst
    -- `off` and what is added to it are below the size, so nothing wraps
    have hsum : toSize (s.off + toSize ((reportItem i d).length : ℤ)) =
        text.length + (reportItem i d).length := by
      rw [toSize_of_lt _ (by omega), h.off, ← Nat.cast_add, toSize_of_lt _ (by omega)]
    obtain ⟨s', hrun, happended, hcalls⟩ := ih (i + 1) _ _
      (appended_next s text (reportItem i d) h hfirst _ hsum)
      (by rw [List.length_append]; omega)
    have hprinted : ¬((reportItem i d).length : ℤ) < 0 := by omega
    refine ⟨s', ?_, ?_, ?_⟩
    · rw [reportDevices, if_pos hinside, hprint]
      dsimp only [Except.bind]
      rw [if_neg hprinted]
      exact hrun
    · rwa [reportItems, ← List.append_assoc]
    · rw [hcalls, List.length_append, List.length_singleton, List.length_cons]
      omega

/-- INTERNAL: **the request** is what its formats make, where the buffer has room for it. -/
theorem hesMregReportRequest_appended (m : HesMreg) (reg : HesDevreg)
    (hroom : (reportHead m ++ reportEntries reg.devices ++ lit "]\x7d").length < hesMregReqMax) :
    ∃ s, hesMregReportRequest m reg = .ok s ∧ s.calls.length = reg.devices.length + 2 ∧
      (∀ off ∈ s.calls, off ≤ hesMregReqMax - 1) ∧
      s.req = zeroPadded hesMregReqMax
        (reportHead m ++ reportEntries reg.devices ++ lit "]\x7d") := by
  have hmax : hesMregReqMax = 8192 := rfl
  rw [List.length_append, List.length_append] at hroom
  have hstart : Appended ⟨List.replicate hesMregReqMax 0, 0, []⟩ [] :=
    ⟨(zeroPadded_nil _).symm, rfl, fun off hoff => absurd hoff List.not_mem_nil⟩
  have hhead := print_appended _ [] (reportHead m) hstart (by rw [List.length_nil]; omega)
  have hafter := appended_next _ [] (reportHead m) hstart (by rw [List.length_nil]; omega)
    (toSize ((reportHead m).length : ℤ))
    (by rw [toSize_of_lt _ (by omega), List.length_nil, Nat.zero_add])
  obtain ⟨s, hrun, happended, hcalls⟩ := reportDevices_appended reg.devices 0 _ _ hafter
    (by rw [reportItems_zero, List.nil_append]; omega)
  rw [reportItems_zero, List.nil_append] at happended
  have hfits : (reportHead m ++ reportEntries reg.devices).length + (lit "]\x7d").length <
      hesMregReqMax := by
    rw [List.length_append]
    omega
  have hlast := print_appended s _ (lit "]\x7d") happended hfits
  have hend := appended_next s _ (lit "]\x7d") happended hfits _ rfl
  refine ⟨⟨_, s.off, s.calls ++ [s.off]⟩, ?_, ?_, hend.calls, rfl⟩
  · unfold hesMregReportRequest
    rw [hhead]
    dsimp only [Except.bind]
    rw [hrun]
    dsimp only
    rw [hlast]
    rfl
  · rw [List.length_append, hcalls]
    simp only [List.nil_append, List.length_singleton]
    omega

/-! ## The registries -/

/-- A device as its C type holds it, with an address that is a string. -/
structure HeldDevice (d : HesDevice) : Prop where
  deviceIndex : d.deviceIndex < 2 ^ 32
  netRefIndex : d.netRefIndex < 2 ^ 32
  udpPort : FitsInt32 d.udpPort
  address : d.address.length ≤ 63 ∧ ∀ c ∈ d.address, c ≠ 0

/-- INTERNAL: what is parsed is a registry of a module. -/
theorem moduleRegistry_parseSlice (text : CStr) (reg : HesDevreg)
    (h : parseSlice text = some reg) : ModuleRegistry reg := by
  unfold parseSlice at h
  obtain ⟨root, hroot, hreg⟩ := Option.bind_eq_some_iff.mp h
  exact ModuleRegistry.parsed root reg (loads_no_nul text root hroot) hreg

/-- INTERNAL: what is parsed of a document keeps to the types. -/
theorem heldDevice_parsed (root : Json) (reg : HesDevreg)
    (hroot : ∀ v, HasString root v → ∀ c ∈ v, c ≠ 0) (hreg : hesDevregParse root = some reg) :
    reg.devices.length ≤ hesDevregMaxDevices ∧ ∀ d ∈ reg.devices, HeldDevice d := by
  have hfrom := hesDevregParse_from root reg hreg
  unfold hesDevregParse at hreg
  split at hreg
  · cases hreg
  · rw [Option.map_eq_some_iff] at hreg
    obtain ⟨entries, -, rfl⟩ := hreg
    refine ⟨List.length_take_le _ _, fun d hd => ?_⟩
    obtain ⟨hindex, hnet, -, -, ⟨htext, hlen⟩, -, -⟩ := hfrom d hd
    obtain ⟨e, -, hread⟩ := List.mem_filterMap.mp (List.mem_of_mem_take hd)
    have hport : FitsInt32 d.udpPort := by
      unfold parseDeviceEntry at hread
      rw [Option.map_eq_some_iff] at hread
      obtain ⟨v, -, rfl⟩ := hread
      dsimp only
      cases getMemberLong e (lit "udpPort") with
      | none => decide
      | some n => exact toInt32_fits n
    refine ⟨hindex, hnet, hport, by omega, fun c hc => ?_⟩
    rcases htext with hempty | ⟨s, hs, hstart⟩
    · rw [hempty] at hc
      cases hc
    · exact hroot s hs c (hstart.subset hc)

/-- INTERNAL: what holds of all entries holds of them when one is changed, if the change keeps
it. -/
theorem forall_mem_modify {α : Type} {p : α → Prop} (f : α → α) (hf : ∀ a, p a → p (f a))
    (i : ℕ) (entries : List α) (h : ∀ a ∈ entries, p a) : ∀ a ∈ entries.modify i f, p a := by
  intro a ha
  obtain ⟨j, hj, rfl⟩ := List.mem_iff_getElem.mp ha
  rw [List.length_modify] at hj
  rw [List.getElem_modify]
  split
  · exact hf _ (h _ (List.getElem_mem hj))
  · exact h _ (List.getElem_mem hj)

/-- INTERNAL: **every registry of a module** has no more devices than fit, each within its
type. -/
theorem heldDevice_registry (reg : HesDevreg) (h : ModuleRegistry reg) :
    reg.devices.length ≤ hesDevregMaxDevices ∧ ∀ d ∈ reg.devices, HeldDevice d := by
  induction h with
  | parsed root reg hroot hreg => exact heldDevice_parsed root reg hroot hreg
  | set reg i address udpPort online haddress hport hreg ih =>
    obtain ⟨hcount, hdevices⟩ := ih
    refine ⟨by rwa [List.length_modify], ?_⟩
    apply forall_mem_modify _ _ i reg.devices hdevices
    exact fun d hd => ⟨hd.deviceIndex, hd.netRefIndex, hport, haddress⟩

/-! ## The request -/

/-- INTERNAL: the entries are joined by commas. -/
theorem reportEntries_joined (devices : List HesDevice) :
    reportEntries devices = joined 44 (devices.map reportEntry) := by
  cases devices with
  | nil => rfl
  | cons d rest =>
    rw [List.map_cons, joined_cons, List.flatMap_map]
    rfl

/-- INTERNAL: **the request of a registry** that a module can hold, with the offsets of the
calls that make it; it fits its buffer. -/
theorem hesMregReportRequest_held (reg : HesDevreg) (hreg : ModuleRegistry reg)
    (moduleType : CStr) (htype : ∀ c ∈ moduleType, c ≠ 0) (moduleRefIndex : ℕ)
    (hindex : moduleRefIndex < 2 ^ 32) (m : HesMreg)
    (hm : m = hesMregOpen moduleType moduleRefIndex) :
    ∃ s, hesMregReportRequest m reg = .ok s ∧ s.calls.length = reg.devices.length + 2 ∧
      (∀ off ∈ s.calls, off ≤ hesMregReqMax - 1) ∧ s.sent.length < hesMregReqMax ∧
        s.sent = reportHead m ++ reportEntries reg.devices ++ lit "]\x7d" := by
  obtain ⟨hcount, hdevices⟩ := heldDevice_registry reg hreg
  have htypeLen : m.moduleType.length < 8 := by
    rw [hm]
    exact boundedCopy_length 8 moduleType (by decide)
  have htypeNul : ∀ c ∈ m.moduleType, c ≠ 0 := by
    rw [hm]
    exact fun c hc => htype c (List.mem_of_mem_take hc)
  have hfits : FitsClient m reg.devices :=
    { moduleRefIndex := by
        rw [hm]
        exact hindex
      deviceIndex := fun d hd => (hdevices d hd).deviceIndex
      netRefIndex := fun d hd => (hdevices d hd).netRefIndex
      udpPort := fun d hd => (hdevices d hd).udpPort }
  have hlen := report_length m reg.devices hfits htypeLen hcount fun d hd =>
    Nat.lt_succ_of_le (hdevices d hd).address.1
  have hnul := render_no_nul _ (reportParts_sound m reg.devices hfits) (by
    intro s hs
    rw [slots_reportParts] at hs
    rcases List.mem_cons.mp hs with rfl | hs
    · exact htypeNul
    · obtain ⟨d, hd, rfl⟩ := List.mem_map.mp hs
      exact (hdevices d hd).address.2)
  rw [render_report] at hlen hnul
  obtain ⟨s, hrun, hcalls, hbound, hreq⟩ := hesMregReportRequest_appended m reg hlen
  have hsent : s.sent = reportHead m ++ reportEntries reg.devices ++ lit "]\x7d" := by
    unfold ReportBuffer.sent
    rw [hreq, cString_zeroPadded _ _ hnul]
  exact ⟨s, hrun, hcalls, hbound, by rwa [hsent], hsent⟩

/-- **Reporting in bounds.** For every registry that a module can hold and every identity that
it can be opened with: no call of `snprintf` is made at an offset behind the last byte of the
buffer, none writes outside or fails, and the request is the head, the entries of all devices in
their order with commas between them, and the end. It is the one that the service is asked with.
SRCLINE: hes_mreg.c:332-355 -/
theorem report_in_bounds (reg : HesDevreg) (hreg : ModuleRegistry reg) (moduleType : CStr)
    (htype : ∀ c ∈ moduleType, c ≠ 0) (moduleRefIndex : ℕ) (hindex : moduleRefIndex < 2 ^ 32) :
    ∃ s, hesMregReportRequest (hesMregOpen moduleType moduleRefIndex) reg = .ok s ∧
      s.calls.length = reg.devices.length + 2 ∧
      (∀ off ∈ s.calls, off ≤ hesMregReqMax - 1) ∧
      s.sent = reportHead (hesMregOpen moduleType moduleRefIndex) ++
        joined 44 (reg.devices.map reportEntry) ++ lit "]\x7d" ∧
      s.sent = reportRequest (hesMregOpen moduleType moduleRefIndex) reg := by
  obtain ⟨s, hrun, hcalls, hbound, hlen, hsent⟩ := hesMregReportRequest_held reg hreg moduleType
    htype moduleRefIndex hindex _ rfl
  refine ⟨s, hrun, hcalls, hbound, by rw [hsent, reportEntries_joined], ?_⟩
  rw [hsent] at hlen ⊢
  exact (boundedCopy_of_short _ _ hlen).symm

/-- The slice of a lamp that has no address yet. -/
def unboundLamp : HesDevreg :=
  ⟨[], [], 0, [], [⟨3, 0, [], [], [], [], 0, true, []⟩]⟩

/-- The lamp's registry when the module has found it. -/
def foundLamp : HesDevreg :=
  { unboundLamp with
    devices := unboundLamp.devices.modify 0 fun d =>
      { d with address := lit "10.0.0.7", udpPort := 38899, online := true } }

/-- The report of a gateway with one lamp. -/
theorem report_in_bounds_lamp :
    ∃ s, hesMregReportRequest (hesMregOpen (lit "hi") 1) foundLamp = .ok s ∧
      s.sent = lit "\x7b\"cmd\":\"report\",\"moduleType\":\"hi\",\"moduleRefIndex\":1," ++
        lit "\"devices\":[\x7b\"deviceIndex\":3,\"netRefIndex\":0,\"address\":\"10.0.0.7\",\"udpPort\":38899," ++
        lit "\"online\":1\x7d]\x7d" := by
  have hparsed : parseSlice (lit "\x7b\"devices\":[\x7b\"deviceIndex\":3\x7d]\x7d") =
      some unboundLamp := by decide +kernel
  have hreg : ModuleRegistry foundLamp :=
    ModuleRegistry.set unboundLamp 0 (lit "10.0.0.7") 38899 true
      ⟨by decide +kernel, no_byte (by decide +kernel)⟩ (by decide)
      (moduleRegistry_parseSlice _ _ hparsed)
  obtain ⟨s, hrun, -, -, hsent, -⟩ := report_in_bounds foundLamp hreg (lit "hi")
    (no_byte (by decide +kernel)) 1 (by decide)
  refine ⟨s, hrun, hsent.trans ?_⟩
  decide +kernel

end OpenHes.Analysis
