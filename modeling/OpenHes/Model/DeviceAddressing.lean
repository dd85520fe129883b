import OpenHes.Model.Bus
import OpenHes.Model.HanBle

/-!
# The devices that a message addresses

`resolve_index`, which `han/wifi/wifi.c` and `han/ble/ble.c` have each for itself, and the topics
that a module subscribes to: `hes_devreg_collect_topics` of `common/hes_devreg.c` and the
subscriptions of `hes_bus_leaf_open` of `common/hes_bus.c`.
-/

set_option autoImplicit false

namespace OpenHes.Model

open OpenHes.Library

/-- `hes_dev_object_find`. -/
def hesDevObjectFind (dev : HesDevice) (path : CStr) : Option HesDevObject :=
  dev.objects.find? fun o => o.path = path

/-- Is the device online, and does it expose the path? -/
def onlineWith (path : CStr) (dev : HesDevice) : Bool :=
  dev.online && (hesDevObjectFind dev path).isSome

/-- `index_by_di`, with the place in the array. -/
def HesDevreg.indexByDi (reg : HesDevreg) (di : ℕ) : Option ℕ :=
  reg.devices.findIdx? fun d => d.deviceIndex = di

/-- The loop of `resolve_index` from the device at a place on, with what it has found. -/
def scanOnline (path : CStr) : ℕ → Option ℕ → List HesDevice → Option ℕ
  | _, found, [] => found
  | i, found, d :: rest =>
    if onlineWith path d then
      if found.isSome then none else scanOnline path (i + 1) (some i) rest
    else scanOnline path (i + 1) found rest

/-- `resolve_index`; none is its -1. -/
def resolveIndex (reg : HesDevreg) (path : CStr) (di : ℕ) : Option ℕ :=
  let idx := (reg.indexByDi di).filter fun i => (reg.devices[i]?).any (onlineWith path)
  if idx.isSome then idx
  else if di ≠ 0 then none
  else scanOnline path 0 none reg.devices

/-- `HES_BUS_MAX_TOPICS`. -/
def hesBusMaxTopics : ℕ := 16

/-- A turn of the loop of `hes_devreg_collect_topics`. -/
def collectTopic (max : ℕ) (topics : List CStr) (path : CStr) : List CStr :=
  if max ≤ topics.length then topics
  else if path ∈ topics then topics
  else topics ++ [boundedCopy hesPathMax path]

/-- `hes_devreg_collect_topics`. -/
def hesDevregCollectTopics (reg : HesDevreg) (max : ℕ) : List CStr :=
  reg.devices.foldl
    (fun topics dev => dev.objects.foldl (fun topics o => collectTopic max topics o.path) topics) []

/-- The subscriptions that `hes_bus_leaf_open` makes. -/
def hesBusLeafOpen (topics : List CStr) : List CStr := topics.take hesBusMaxTopics

/-- Does a frame pass the subscriptions of a leaf? Each is a prefix of its bytes. -/
def leafReceives (subscribed : List CStr) (frame : List UInt8) : Bool :=
  subscribed.any fun topic => topic.isPrefixOf frame

end OpenHes.Model
