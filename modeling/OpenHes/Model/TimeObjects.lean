import OpenHes.Model.Gateway
import OpenHes.Model.TimeService

/-!
# The time service's objects in the core

The GET handlers of `services/time/time.c`: each answers with the tables of its object, from the
corrected clock or from the snapshot of the sync thread.
-/

set_option autoImplicit false

namespace OpenHes.Model

open OpenHes.Library

variable {α : Type}

/-- The services with `realtime_on_get`, `localtz_on_get` and `source_on_get`, over what
`hes_clock_now` and `time_sync_get` give. -/
def CoreServices.withTime (services : CoreServices α) (clockNow : α → ℤ)
    (snapshot : α → TimeSnapshot) : CoreServices α :=
  { services with
    realtimeOnGet := fun a _ => (a, buildRealtimePayload (clockNow a))
    localtzOnGet := fun a _ => (a, buildLocaltzPayload (snapshot a))
    sourceOnGet := fun a _ => (a, buildSourcePayload (snapshot a)) }

end OpenHes.Model
