import RuleBacktest.Decimal.Written

/-!
# JSON documents

A number is kept as it is spelled.  The content of a text, and the name of a
field, is absent when it is spelled with an unpaired surrogate, which no string
can hold.  Fields keep their order and may repeat.
-/

namespace RuleBacktest

inductive Json where
  | null
  | bool (value : Bool)
  | number (spelling : String)
  | text (content : Option String)
  | list (items : List Json)
  | object (fields : List (Option String × Json))
  deriving Repr

namespace Json

def ofString (s : String) : Json := .text (some s)

def ofNat (n : Nat) : Json := .number (toString n)

def ofInt (n : Int) : Json := .number (toString n)

/-- A finite number in the shortest digits, and null for any other. -/
def ofFloat (x : Float) : Json :=
  match Binary64.documentText? x with
  | some spelling => .number spelling
  | none => .null

/-- An object whose field names are strings. -/
def record (fields : List (String × Json)) : Json :=
  .object (fields.map fun (name, value) => (some name, value))

end Json
end RuleBacktest
