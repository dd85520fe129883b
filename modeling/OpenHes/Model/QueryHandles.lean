import OpenHes.Model.PathTranslation

/-!
# Element handles

`common/hes_query.c`: the queries that give handles, with the nodes by identity. A call is
undefined where the translation of its path is.
-/

set_option autoImplicit false

namespace OpenHes.Model

open OpenHes.Library

variable {ι : Type}

/-- `hes_query_ctx_t`, by what libxml2 makes of an expression: the nodes of `nodeTab`, none where
there is no node set. -/
structure HandleCtx (ι : Type) where
  eval : CStr → List ι

/-- `_eval_root`; memory is not short. -/
def evalRootNodes (ctx : HandleCtx ι) (path : CStr) : Option (List ι) :=
  match translatePathRun (fun _ => true) path true with
  | .ok xpath => some (ctx.eval xpath)
  | .error .null => some []
  | .error .overflow => none

/-- `hes_query_elem`: NULL, or the handle of the first node. -/
def hesQueryElem (ctx : HandleCtx ι) (path : CStr) : Option (Option ι) :=
  (evalRootNodes ctx path).map List.head?

/-- `hes_query_elem_list`, with the handles that `_handle_list` makes of the nodes. -/
def hesQueryElemHandles (ctx : HandleCtx ι) (path : CStr) : Option (List ι) :=
  evalRootNodes ctx path

end OpenHes.Model
