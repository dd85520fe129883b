import OpenHes.Library.Binary64

/-!
# JSON values

A parsed document. An object keeps its members in the order of the text; a name that is
given twice stands for its last value, as in a parser that overwrites. The readers below
give a member only when it has the type asked for.
-/

set_option autoImplicit false

namespace OpenHes.Library

/-- A JSON value. Integers and reals are told apart by how they are written. -/
inductive Json
  | object (members : List (CStr × Json))
  | array (elements : List Json)
  | string (text : CStr)
  | integer (n : ℤ)
  | real (x : Binary64)
  | bool (b : Bool)
  | null

namespace Json

/-- Is the value an object? -/
def isObject : Json → Bool
  | object _ => true
  | _ => false

/-- The member with the name, the last one that was set. -/
def get (o : Json) (key : CStr) : Option Json :=
  match o with
  | object members => (members.reverse.find? fun p => p.1 = key).map Prod.snd
  | _ => none

/-- The member, when it is an integer. -/
def getInt (o : Json) (key : CStr) : Option ℤ :=
  match o.get key with
  | some (integer n) => some n
  | _ => none

/-- The member, when it is a string. -/
def getString (o : Json) (key : CStr) : Option CStr :=
  match o.get key with
  | some (string s) => some s
  | _ => none

/-- The elements of the member, when it is an array. -/
def getArray (o : Json) (key : CStr) : Option (List Json) :=
  match o.get key with
  | some (array elements) => some elements
  | _ => none

/-- The objects of an array member, which are the rows of a table; a missing table has
none. -/
def rows (o : Json) (key : CStr) : List Json := ((o.getArray key).getD []).filter isObject

end Json

end OpenHes.Library
