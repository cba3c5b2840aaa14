import ShardLoad.Config.Schema
import ShardLoad.Json.Value

/-!
# A configuration from JSON

A report has the configuration of its run as an object, and the configuration is read
off it as off the table of a document: the same sections, the same fields, the same
defaults.  Of several members of one name the last counts.  `null` says that the
expected interval is not set, and fits no other field.

* `Json.toValue`: a JSON value as a value that the schema can be fitted to.
* `Config.ofJson?`: the configuration of an object.
-/

namespace ShardLoad

open Toml (Value Scalar)

namespace Json

/-- What stands for `null`: a number that JSON does not have and no field takes. -/
def nullValue : Value := .scalar (.float .notANumber)

mutual
/-- A JSON value as a value of a document. -/
def toValue : Json → Value
  | .null => nullValue
  | .bool b => .scalar (.bool b)
  | .int n => .scalar (.int n)
  | .decimal d => .scalar (.float (.decimal d.negative d.digits d.exponent))
  | .string s => .scalar (.string s)
  | .array items => .array (toValues items)
  | .object members => .table (Keyed.ofPairs (toMembers members))

def toValues : List Json → List Value
  | [] => []
  | j :: js => toValue j :: toValues js

def toMembers : List (String × Json) → List (String × Value)
  | [] => []
  | (name, j) :: ms => (name, toValue j) :: toMembers ms
end

/-- Whether a value stands for `null`. -/
def isNullValue : Value → Bool
  | .scalar (.float .notANumber) => true
  | _ => false

end Json

namespace Config

/-- The settings without an expected interval that is `null`. -/
def withoutNull : Value → Value
  | .table members => .table (members.filter fun m =>
      !(m.1 == "expected_interval_ms" && Json.isNullValue m.2))
  | v => v

/-- The configuration of an object. -/
def ofJson? : Json → Option Config
  | .object members =>
    let sections := Keyed.ofPairs (Json.toMembers members)
    (ofTable (sections.map fun m =>
      (m.1, if m.1 = "settings" then withoutNull m.2 else m.2))).toOption
  | _ => none

end Config
end ShardLoad
