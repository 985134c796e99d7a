import RuleBacktest.Json.Number
import RuleBacktest.Json.Reader

/-!
# Values out of JSON

A record of known fields is read from an object or from a list.  In an object
the fields come in any order, unknown ones are passed over, and a known one may
come once.  In a list the values come in the order of the fields, and those at
the end may be left out.  Records and lists that are read may be nested up to a
depth, which the readers count down; what is passed over may be nested as it
likes.
-/

namespace RuleBacktest
namespace Json

/-- How deeply records and lists may be nested. -/
def depthLimit : Nat := 127

def occurrences (name : String) (fields : List (Option String × Json)) :
    List Json :=
  (fields.filter fun f => f.1 == some name).map Prod.snd

/-- The values of the known fields, in their order, each absent where it is not
given. -/
def members? (names : List String) : Json → Option (List (Option Json))
  | .object fields =>
      if fields.all (fun f => f.1.isSome) &&
          names.all (fun n => decide ((occurrences n fields).length ≤ 1)) then
        some (names.map fun n => (occurrences n fields).head?)
      else none
  | .list items =>
      if items.length ≤ names.length then
        some (items.map some ++
            List.replicate (names.length - items.length) none)
      else none
  | _ => none

/-- A field that may be absent or null. -/
def optional? {β : Type} (read : Json → Option β) :
    Option Json → Option (Option β)
  | none => some none
  | some .null => some none
  | some j => (read j).map some

def required? {β : Type} (read : Json → Option β) : Option Json → Option β
  | none => none
  | some j => read j

def string? : Json → Option String
  | .text content => content
  | _ => none

/-- A text, or the text of a number or truth value. -/
def scalarText? : Json → Option String
  | .text content => content
  | .number spelling => (Number.ofString? spelling).map Number.text
  | .bool b => some (if b then "true" else "false")
  | _ => none

def float? : Json → Option Float
  | .number spelling => (Number.ofString? spelling).map Number.toFloat
  | _ => none

def count? : Json → Option Nat
  | .number spelling =>
      match Number.ofString? spelling with
      | some (.whole n) => if 0 ≤ n then some n.toNat else none
      | _ => none
  | _ => none

/-- The items of a list, each read one level deeper. -/
def items? {β : Type} (read : Nat → Json → Option β) :
    Nat → Json → Option (List β)
  | depth + 1, .list items => items.mapM (read depth)
  | _, _ => none

/-- The fields of a present value, and nothing of an absent one. -/
def ifPresent {β : Type} (name : String) (write : β → Json) :
    Option β → List (String × Json)
  | none => []
  | some x => [(name, write x)]

def orNull {β : Type} (write : β → Json) : Option β → Json
  | none => .null
  | some x => write x

end Json
end RuleBacktest
