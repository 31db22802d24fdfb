import DocInsight.Library.Raising
import DocInsight.Python.Text
import Mathlib.Data.Rat.Defs

/-! Decoded JSON as Python objects, with the operations whose failures the program
tells apart only by their exception class. -/
namespace DocInsight.Python

/-- A decoded JSON value; a float may be infinite or not a number. -/
inductive Json where
  | null
  | bool (value : Bool)
  | int (value : Int)
  | float (value : Option ℚ)
  | str (value : Text)
  | list (items : List Json)
  | dict (fields : List (Text × Json))

/-- An exception, as far as its handlers tell the classes apart. -/
inductive Raised where
  | value (message : String)
  | key
  | type
  | attribute
  | other (name : String)
  deriving DecidableEq, Repr

/-- `ValueError`, `KeyError`, `TypeError` or `AttributeError`. -/
def Raised.expected : Raised → Bool
  | .value _ | .key | .type | .attribute => true
  | .other _ => false

/-- The handlers of unexpected values catch whatever the computation raises. -/
abbrev RaisesExpected {Result : Type} (outcome : Except Raised Result) : Prop :=
  Raising.Within (Raised.expected · = true) outcome

namespace Json

/-- The truth value of an object. -/
def truthy : Json → Bool
  | null => false
  | bool value => value
  | int value => value ≠ 0
  | float value => value ≠ some 0
  | str value => !value.isEmpty
  | list items => !items.isEmpty
  | dict fields => !fields.isEmpty

def isText (literal : String) : Json → Bool
  | str value => value = text literal
  | _ => false

/-- `value.get(name)`; a missing field answers as a null one does. -/
def get (name : String) : Json → Except Raised Json
  | dict fields => .ok ((fields.lookup (text name)).getD null)
  | _ => .error .attribute

/-- `value.get(name, default)`. -/
def getOr (value : Json) (name : String) (default : Json) : Except Raised Json :=
  match value with
  | dict fields => .ok ((fields.lookup (text name)).getD default)
  | _ => .error .attribute

/-- `value[name]`. -/
def item (name : String) : Json → Except Raised Json
  | dict fields =>
      match fields.lookup (text name) with
      | some value => .ok value
      | none => .error .key
  | _ => .error .type

/-- The values a `for` runs over: items, keys or single characters. -/
def iterate : Json → Except Raised (List Json)
  | list items => .ok items
  | dict fields => .ok (fields.map fun field => str field.1)
  | str value => .ok (value.map fun character => str [character])
  | _ => .error .type

/-- `name in value`: an item, a part of a text or a key. -/
def contains (name : String) : Json → Except Raised Bool
  | list items => .ok (items.any (isText name))
  | str value => .ok (value.tails.any (text name).isPrefixOf)
  | dict fields => .ok (fields.any (·.1 = text name))
  | _ => .error .type

theorem item_dict {fields : List (Text × Json)} {name : String} {value : Json} :
    (dict fields).item name = .ok value ↔ fields.lookup (text name) = some value := by
  cases h : fields.lookup (text name) <;> simp [item, h]

section Expected
variable (name : String) (value : Json)

theorem expected_get : RaisesExpected (value.get name) := by
  cases value <;> simp [get, Raised.expected]

theorem expected_getOr (default : Json) : RaisesExpected (value.getOr name default) := by
  cases value <;> simp [getOr, Raised.expected]

theorem expected_item : RaisesExpected (value.item name) := by
  cases value with
  | dict fields => cases h : fields.lookup (text name) <;> simp [item, h, Raised.expected]
  | _ => simp [item, Raised.expected]

theorem expected_iterate : RaisesExpected value.iterate := by
  cases value <;> simp [iterate, Raised.expected]

end Expected

end Json

end DocInsight.Python
