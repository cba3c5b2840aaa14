import ShardLoad.Decimal.Shortest

/-!
# JSON values

A value keeps the order of its members, so that one printer serves both reports,
whose fields come in a fixed order, and logged requests, whose fields are
sorted.  Numbers are integers or exact decimals; a double enters as its shortest
decimal, and one that is not finite as `null`.

* `Json.ofFloat`: the value of a double.
* `Json.field?`: the member of a name.
-/

namespace ShardLoad

/-- A JSON value. -/
inductive Json where
  | null
  | bool (b : Bool)
  | int (n : Int)
  | decimal (d : Decimal)
  | string (s : String)
  | array (items : List Json)
  | object (members : List (String × Json))
  deriving Repr, Inhabited

namespace Json

/-- A natural number. -/
def nat (n : Nat) : Json := .int n

/-- A double; one that is not finite has no number in JSON. -/
def ofFloat (x : Float) : Json :=
  match Decimal.ofFloat? x with
  | some d => .decimal d
  | none => .null

/-- A value that may be missing. -/
def ofOption {α : Type} (f : α → Json) : Option α → Json
  | some a => f a
  | none => .null

/-- The member of a name; of several members of one name the last. -/
def field? (name : String) : Json → Option Json
  | .object members => (members.reverse.find? (·.1 == name)).map (·.2)
  | _ => none

end Json
end ShardLoad
