import OpenHes.Model.BindingMap

/-!
# The binding-map controller

`bm_controller_start` of `bm/bm.c`, which subscribes to the sources of the enabled rows and
keeps in `sent[]` what it has subscribed to.
-/

set_option autoImplicit false

namespace OpenHes.Model

open OpenHes.Library

variable {V : Type}

/-- `bm_sub_key_t`. -/
structure BmSubKey where
  path : CStr
  deviceIndex : ℕ
  deriving DecidableEq

/-- `sent[]` with `n_sent`, and the messages that were handed to the bus. -/
structure Subscribing where
  sent : List BmSubKey := []
  messages : List HesClmeMsg := []

/-- The message for an input. -/
def subscribeMessage (inp : BmInput) : HesClmeMsg :=
  hesMsgSetPath { verb := .subscribe, deviceIndex := inp.deviceIndex } inp.sourceObject

/-- One turn of the inner loop of `bm_controller_start`. -/
def subscribeInput (bm : BindingMap V) (s : Subscribing) (inp : BmInput) : Subscribing :=
  if inp.sourceObject = [] then s
  else if s.sent.any fun k => k.deviceIndex = inp.deviceIndex && k.path = inp.sourceObject then s
  else
    match bmFindAddr bm inp.deviceIndex with
    | none => s
    | some addr =>
      if addr.moduleType = .it || addr.moduleType = .none then s
      else
        { sent :=
            if s.sent.length < bmMaxAddrs then
              s.sent ++ [⟨hesStrlcpy hesPathMax inp.sourceObject, inp.deviceIndex⟩]
            else s.sent
          messages := s.messages ++ [subscribeMessage inp] }

/-- `bm_controller_start`: the messages that it sends. -/
def bmControllerStart (bm : BindingMap V) : List HesClmeMsg :=
  (((bm.ops.filter (·.enabled)).flatMap (·.inputs)).foldl (subscribeInput bm) {}).messages

end OpenHes.Model
