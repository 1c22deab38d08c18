import RestFrameworkServices.Lib.Dict

/-!
# Values and bodies

The values a request carries and a serializer produces, as far as the code tells them apart
(`Value`), Django's `QueryDict` (`QueryDict`), a mapping of keys to lists of values that is read as
the last of each, and the body of a request, which is a form or any other value (`Body`).
-/

namespace RestFrameworkServices

open Lib

/-- A Python value, as far as the code tells values apart: a list is a list or a tuple, a mapping may
be mutable, a dataclass instance's fields say whether its `__init__` takes them, and an object of
another type is its identity. -/
inductive Value where
  | null
  | bool (b : Bool)
  | int (i : Int)
  | str (s : String)
  | list (items : List Value)
  | mapping (mutable : Bool) (entries : List (String × Value))
  | dataclass (fields : List (String × Bool × Value))
  | object (type : String) (id : Nat)
deriving Repr

namespace Value

/-- `isinstance(value, Mapping)`. -/
def isMapping : Value → Bool
  | mapping .. => true
  | _ => false

/-- `value == ""`. -/
def isEmptyString : Value → Bool
  | str s => s == ""
  | _ => false

/-- Python's truth of a value. -/
def truthy : Value → Bool
  | null => false
  | bool b => b
  | int i => i != 0
  | str s => s != ""
  | list items => !items.isEmpty
  | mapping _ entries => !entries.isEmpty
  | dataclass _ | object _ _ => true

/-- What a mapping holds under a key. -/
def property? : Value → String → Option Value
  | mapping _ entries, key => entries.lookup key
  | _, _ => none

end Value

/-- A character as `repr` writes it between quotes. Every character outside ASCII is taken as one that
is printed. -/
def reprChar (quote c : Char) : String :=
  if c = quote ∨ c = '\\' then "\\" ++ c.toString
  else if c = '\n' then "\\n"
  else if c = '\r' then "\\r"
  else if c = '\t' then "\\t"
  else if c.toNat < 32 ∨ c.toNat = 127 then
    "\\x" ++ (Nat.digitChar (c.toNat / 16)).toString ++ (Nat.digitChar (c.toNat % 16)).toString
  else c.toString

/-- `repr` of a string: in single quotes, or in double ones where it has a single quote and no double
one. -/
def reprString (s : String) : String :=
  let single := Char.ofNat 39
  let double := Char.ofNat 34
  let quote := if single ∈ s.toList ∧ double ∉ s.toList then double else single
  quote.toString ++ String.join (s.toList.map (reprChar quote)) ++ quote.toString

/-- `repr` of a list of names, as an error's text shows it. -/
def reprNames (names : List String) : String :=
  "[" ++ String.intercalate ", " (names.map reprString) ++ "]"

/-- Django's `QueryDict`: each key's values, in order. -/
structure QueryDict where
  lists : Dict String (List Value)

namespace QueryDict

/-- `QueryDict(mutable=True)`. -/
def empty : QueryDict := ⟨.empty⟩

/-- `body[name] = value`. -/
def setItem (body : QueryDict) (name : String) (value : Value) : QueryDict :=
  ⟨body.lists.set name [value]⟩

/-- `body.setlist(name, values)`. -/
def setList (body : QueryDict) (name : String) (values : List Value) : QueryDict :=
  ⟨body.lists.set name values⟩

/-- `write_form_value`: a list's items as the key's values, anything else as its one value. -/
def writeFormValue (body : QueryDict) (name : String) (value : Value) : QueryDict :=
  match value with
  | .list items => body.setList name items
  | value => body.setItem name value

end QueryDict

/-- The body a serializer is bound to: a form, which DRF parses into a `QueryDict`, or any other
value. -/
inductive Body where
  | form (body : QueryDict)
  | value (v : Value)

/-- `isinstance(body, QueryDict)`. -/
def Body.isForm : Body → Bool
  | form _ => true
  | value _ => false

end RestFrameworkServices
