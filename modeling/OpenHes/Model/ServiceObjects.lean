import OpenHes.Library.CString
import OpenHes.Library.MemoryLog
import Mathlib.Algebra.Order.Group.Unbundled.Int

/-!
# The objects of a service

`id_service_create`, `crypto_service_create` and `time_service_create` return one object for
each address of their service. The objects share the service's state and count themselves in
it; the last one that is destroyed frees it. Here stands what these functions and the destroy
callbacks do with memory. A field of a block that was freed keeps its last value.
-/

set_option autoImplicit false

namespace OpenHes.Model

open OpenHes.Library

/-- The blocks of a service: its state, and its objects by their place in `out[]`. -/
inductive ServiceBlock
  | state
  | object (i : ℕ)
  deriving DecidableEq

/-- `refs` of the state, the objects whose `state` is not NULL, the entries of `out[]` that
were written (none is NULL), and what was done with memory. -/
structure ServiceMemory where
  refs : ℤ := 0
  attached : List ℕ := []
  out : List (Option ℕ) := []
  log : List (MemEvent ServiceBlock) := []

/-- What a call of a service_create meets: the capacity of `out`, and the allocations that
fail. -/
structure CreateCall where
  maxOut : ℕ
  stateFails : Bool
  objectFails : ℕ → Bool

/-- Erases the secrets of the state, where the service has some. -/
def wipe (wipes : Bool) : List (MemEvent ServiceBlock) := if wipes then [.use .state] else []

/-- The body that `id_destroy`, `crypto_destroy` and `time_destroy` share. -/
def destroyObject (wipes : Bool) (i : ℕ) (m : ServiceMemory) : ServiceMemory :=
  let m := { m with log := m.log ++ [.use (.object i)] }
  if i ∉ m.attached then m
  else
    let m := { m with
      attached := m.attached.erase i
      refs := m.refs - 1
      log := m.log ++ [.use .state] }
    if 0 < m.refs then m
    else { m with log := m.log ++ wipe wipes ++ [.free .state] }

/-- `id_destroy`: the state holds the fingerprint and the exported key. -/
def idDestroy : ℕ → ServiceMemory → ServiceMemory := destroyObject true
/-- `crypto_destroy`: the state holds the identity scalar. -/
def cryptoDestroy : ℕ → ServiceMemory → ServiceMemory := destroyObject true
/-- `time_destroy`. -/
def timeDestroy : ℕ → ServiceMemory → ServiceMemory := destroyObject false

/-- `out[i]->destroy(out[i]); free(out[i]);` -/
def discardObject (wipes : Bool) (i : ℕ) (m : ServiceMemory) : ServiceMemory :=
  let m := destroyObject wipes i m
  { m with log := m.log ++ [.free (.object i)] }

/-- The clean-up where the allocation of object `i` fails. -/
def rollBack (wipes : Bool) (i : ℕ) (m : ServiceMemory) : ServiceMemory :=
  let m := (List.range i).foldl (fun m j =>
    let m := discardObject wipes j m
    { m with out := m.out.set j none }) m
  { m with log := m.log ++ wipe wipes ++ [.free .state] }

/-- An object that was allocated is filled in and counted. -/
def addObject (i : ℕ) (m : ServiceMemory) : ServiceMemory where
  refs := m.refs + 1
  attached := m.attached ++ [i]
  out := m.out ++ [some i]
  log := m.log ++ [.alloc (.object i), .use (.object i), .use .state]

/-- The loop over the addresses of a service of `count` objects, with what it returns. -/
def createObjects (wipes : Bool) (fails : ℕ → Bool) (count : ℕ) :
    List ℕ → ServiceMemory → ℤ × ServiceMemory
  | [], m => (count, m)
  | i :: rest, m =>
    if fails i then (-1, rollBack wipes i m)
    else createObjects wipes fails count rest (addObject i m)

/-- The state as it is allocated and initialised. -/
def allocatedState : ServiceMemory where
  log := [.alloc .state, .use .state]

/-- `ID_SERVICE_OBJECT_COUNT`. -/
def idServiceObjectCount : ℕ := 3
/-- `CRYPTO_SERVICE_OBJECT_COUNT`. -/
def cryptoServiceObjectCount : ℕ := 2
/-- `TIME_SERVICE_OBJECT_COUNT`. -/
def timeServiceObjectCount : ℕ := 3

/-- `id_service_create`; `loads` is whether the identity document is accepted. -/
def idServiceCreate (identityPath : CStr) (loads : Bool) (c : CreateCall) : ℤ × ServiceMemory :=
  if identityPath = [] then (-1, {})
  else if c.maxOut < idServiceObjectCount then (-1, {})
  else if c.stateFails then (-1, {})
  else if !loads then
    (-1, { allocatedState with log := allocatedState.log ++ wipe true ++ [.free .state] })
  else
    createObjects true c.objectFails idServiceObjectCount (List.range idServiceObjectCount)
      allocatedState

/-- `crypto_service_create`. -/
def cryptoServiceCreate (c : CreateCall) : ℤ × ServiceMemory :=
  if c.maxOut < cryptoServiceObjectCount then (-1, {})
  else if c.stateFails then (-1, {})
  else
    createObjects true c.objectFails cryptoServiceObjectCount
      (List.range cryptoServiceObjectCount) allocatedState

/-- `time_service_create`. -/
def timeServiceCreate (c : CreateCall) : ℤ × ServiceMemory :=
  if c.maxOut < timeServiceObjectCount then (-1, {})
  else if c.stateFails then (-1, {})
  else
    createObjects false c.objectFails timeServiceObjectCount (List.range timeServiceObjectCount)
      allocatedState

/-- The services whose objects share their state, with what `id_service_create` is given. -/
inductive SharingService
  | id (identityPath : CStr) (loads : Bool)
  | crypto
  | time

namespace SharingService

/-- The objects of the service. -/
def objectCount : SharingService → ℕ
  | id _ _ => idServiceObjectCount
  | crypto => cryptoServiceObjectCount
  | time => timeServiceObjectCount

/-- The service's create function. -/
def create : SharingService → CreateCall → ℤ × ServiceMemory
  | id identityPath loads => idServiceCreate identityPath loads
  | crypto => cryptoServiceCreate
  | time => timeServiceCreate

/-- The callback that the service's objects are destroyed by. -/
def destroy : SharingService → ℕ → ServiceMemory → ServiceMemory
  | id _ _ => idDestroy
  | crypto => cryptoDestroy
  | time => timeDestroy

/-- The owner destroys and frees objects, in the order of the list. -/
def discardAll (s : SharingService) (order : List ℕ) (m : ServiceMemory) : ServiceMemory :=
  order.foldl (fun m i =>
    let m := s.destroy i m
    { m with log := m.log ++ [.free (.object i)] }) m

end SharingService

end OpenHes.Model
