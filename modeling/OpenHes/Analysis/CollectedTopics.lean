import OpenHes.Analysis.SliceRoundTrip
import OpenHes.Library.BoundedMemory
import OpenHes.Model.DeviceAddressing

/-!
# The topics of a module

A module subscribes to the paths of its objects, each once, as long as there is room for them: a
slice may have 256 different ones, and the module has sixteen topics. With more of them there are
objects that no message reaches.
-/

set_option autoImplicit false

namespace OpenHes.Analysis

open OpenHes.Library OpenHes.Model

/-- The paths of the objects of a registry, device by device. -/
def objectPaths (reg : HesDevreg) : List CStr :=
  reg.devices.flatMap fun dev => dev.objects.map (·.path)

/-- The topics a module subscribes to. -/
def moduleTopics (reg : HesDevreg) : List CStr := hesDevregCollectTopics reg hesBusMaxTopics

/-- **Every object is reachable**: the topics are different, the path of every object is one, and a
message with the path of one of the objects passes the subscriptions of the module. -/
structure ObjectsReachable (reg : HesDevreg) : Prop where
  nodup : (moduleTopics reg).Nodup
  topic : ∀ path ∈ objectPaths reg, path ∈ moduleTopics reg
  passes : ∀ mem : MsgMemory, mem.message.path ∈ objectPaths reg →
    leafReceives (hesBusLeafOpen (moduleTopics reg)) mem.bytes = true

/-- INTERNAL: collecting topics passes on what is not yet among them, while there is room. -/
theorem foldl_collectTopic (max : ℕ) (paths topics : List CStr)
    (hheld : ∀ path ∈ paths, path.length < hesPathMax) :
    paths.foldl (collectTopic max) topics = (BoundedMemory.passOn max topics paths).1 := by
  induction paths generalizing topics with
  | nil => rfl
  | cons path paths ih =>
    have hcopy : boundedCopy hesPathMax path = path := by
      have := hheld path (by simp)
      exact List.take_of_length_le (by omega)
    have hrest := fun topics => ih topics fun other hother => hheld other (by simp [hother])
    rw [List.foldl_cons, hrest]
    unfold collectTopic
    rw [hcopy]
    by_cases hmem : path ∈ topics
    · rw [if_pos hmem, ite_self, BoundedMemory.passOn_cons_of_mem max topics path paths hmem]
    · rw [if_neg hmem, BoundedMemory.passOn_cons_of_not_mem max topics path paths hmem]
      unfold BoundedMemory.remember
      by_cases hfull : max ≤ topics.length
      · rw [if_pos hfull, if_neg (Nat.not_lt.mpr hfull)]
      · rw [if_neg hfull, if_pos (Nat.lt_of_not_le hfull)]

/-- INTERNAL: **the two loops** are one over all paths. -/
theorem collectTopics_foldl (reg : HesDevreg) (max : ℕ) :
    hesDevregCollectTopics reg max = (objectPaths reg).foldl (collectTopic max) [] := by
  unfold hesDevregCollectTopics objectPaths
  rw [List.foldl_flatMap]
  simp only [List.foldl_map]

/-- INTERNAL: **the topics** are what a memory of sixteen keeps of the paths. -/
theorem moduleTopics_eq (reg : HesDevreg)
    (hheld : ∀ path ∈ objectPaths reg, path.length < hesPathMax) :
    moduleTopics reg = (BoundedMemory.passOn hesBusMaxTopics [] (objectPaths reg)).1 := by
  unfold moduleTopics
  rw [collectTopics_foldl, foldl_collectTopic _ _ _ hheld]

/-- INTERNAL: no more topics are collected than there is room for. -/
theorem length_moduleTopics (reg : HesDevreg)
    (hheld : ∀ path ∈ objectPaths reg, path.length < hesPathMax) :
    (moduleTopics reg).length ≤ hesBusMaxTopics := by
  rw [moduleTopics_eq reg hheld, BoundedMemory.passOn_memory]
  simp [List.length_take]

/-- INTERNAL: a frame starts with the path of its message. -/
theorem path_isPrefixOf (mem : MsgMemory) : mem.message.path.isPrefixOf mem.bytes = true := by
  rw [List.isPrefixOf_iff_prefix]
  show cString (mem.bytes.drop 0) <+: mem.bytes
  exact List.takeWhile_prefix _

/-- INTERNAL: the paths of a parsed registry fit their arrays. -/
theorem objectPaths_held (root : Json) (reg : HesDevreg) (h : hesDevregParse root = some reg) :
    ∀ path ∈ objectPaths reg, path.length < hesPathMax := by
  intro path hpath
  obtain ⟨dev, hdev, hpath⟩ := List.mem_flatMap.mp hpath
  obtain ⟨ob, hob, rfl⟩ := List.mem_map.mp hpath
  exact ((hesDevregParse_from root reg h dev hdev).path ob hob).2

/-- **Every object is reachable**, in every slice that is parsed, exactly when its objects have at
most `HES_BUS_MAX_TOPICS` different paths.
SRCLINE: hes_devreg.c:276-299, hes_bus.c:113-143 -/
theorem objects_reachable_iff (root : Json) (reg : HesDevreg) (h : hesDevregParse root = some reg) :
    ObjectsReachable reg ↔ (objectPaths reg).toFinset.card ≤ hesBusMaxTopics := by
  have hheld := objectPaths_held root reg h
  have htopics := moduleTopics_eq reg hheld
  rw [← BoundedMemory.forall_mem_memory_iff, ← htopics]
  constructor
  · exact fun hreach => hreach.topic
  · intro hall
    constructor
    · rw [htopics]
      exact BoundedMemory.nodup_memory _ _ _ List.nodup_nil
    · exact hall
    · intro mem hpath
      have hsubscribed : hesBusLeafOpen (moduleTopics reg) = moduleTopics reg :=
        List.take_of_length_le (length_moduleTopics reg hheld)
      unfold leafReceives
      rw [hsubscribed, List.any_eq_true]
      exact ⟨mem.message.path, hall _ hpath, path_isPrefixOf mem⟩

/-- A device with objects of its own. -/
def meteredEntry (di count : ℕ) : Json :=
  .object [(lit "deviceIndex", .integer di),
    (lit "objects", .array ((List.range count).map fun k =>
      .object [(lit "lexiconPath", .string (lit "/lx/ob/" ++ fmtD di ++ lit "/" ++ fmtD k)),
        (lit "access", .string (lit "r"))]))]

/-- A slice of two devices with as many objects each. -/
def meteredSlice (count : ℕ) : Json :=
  .object [(lit "devices", .array [meteredEntry 1 count, meteredEntry 2 count])]

/-- Two devices with two objects each are reachable. -/
theorem objects_reachable_two :
    ∃ reg, hesDevregParse (meteredSlice 2) = some reg ∧ ObjectsReachable reg := by
  have hslice : (hesDevregParse (meteredSlice 2)).map
      (fun reg => (objectPaths reg).toFinset.card) = some 4 := by decide +kernel
  obtain ⟨reg, hreg, hcount⟩ := Option.map_eq_some_iff.mp hslice
  refine ⟨reg, hreg, (objects_reachable_iff (meteredSlice 2) reg hreg).mpr ?_⟩
  rw [hcount]
  decide

/-- With nine objects each, the last two get no topic. -/
theorem seventeenth_object_unreachable :
    (hesDevregParse (meteredSlice 9)).map (fun reg =>
        ((objectPaths reg).filter (· ∉ moduleTopics reg))) =
      some [lit "/lx/ob/2/7", lit "/lx/ob/2/8"] ∧
      ¬∀ (root : Json) (reg : HesDevreg), hesDevregParse root = some reg →
        ObjectsReachable reg := by
  have hslice : (hesDevregParse (meteredSlice 9)).map (fun reg =>
      ((objectPaths reg).filter (· ∉ moduleTopics reg))) =
        some [lit "/lx/ob/2/7", lit "/lx/ob/2/8"] := by decide +kernel
  refine ⟨hslice, fun h => ?_⟩
  obtain ⟨reg, hreg, hleft⟩ := Option.map_eq_some_iff.mp hslice
  have hmem : lit "/lx/ob/2/7" ∈ (objectPaths reg).filter (· ∉ moduleTopics reg) := by
    rw [hleft]
    exact List.mem_cons_self
  obtain ⟨hpath, hnot⟩ := List.mem_filter.mp hmem
  exact of_decide_eq_true hnot ((h _ reg hreg).topic _ hpath)

end OpenHes.Analysis
