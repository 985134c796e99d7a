import RuleBacktest.Error
import RuleBacktest.Json.Decode
import RuleBacktest.Json.Writer

/-!
# Sorted documents

A document in a form that depends on its values alone: the fields of every
object stand in the order of their names, of fields of one name the last counts,
and every number is written in its own text. Numbers out of range, texts that no
string holds and too deep nesting have no such form.
-/

namespace RuleBacktest
namespace Json

/-- Puts a field among sorted fields, in the place of one of the same name. -/
def insertField (name : String) (value : Json) :
    List (String × Json) → List (String × Json)
  | [] => [(name, value)]
  | (other, held) :: fields =>
      if name = other then (name, value) :: fields
      else if name < other then (name, value) :: (other, held) :: fields
      else (other, held) :: insertField name value fields

def sortFields (fields : List (String × Json)) : List (String × Json) :=
  fields.foldl (fun sorted f => insertField f.1 f.2 sorted) []

mutual

def sorted? : Nat → Json → Option Json
  | _, .null => some .null
  | _, .bool b => some (.bool b)
  | _, .number spelling =>
      (Number.ofString? spelling).map fun n => .number n.text
  | _, .text content => content.map ofString
  | depth + 1, .list items => (sortedItems? depth items).map .list
  | depth + 1, .object fields =>
      (sortedFields? depth fields).map fun fs => record (sortFields fs)
  | 0, _ => none

def sortedItems? : Nat → List Json → Option (List Json)
  | _, [] => some []
  | depth, item :: items => do
      let item ← sorted? depth item
      let items ← sortedItems? depth items
      some (item :: items)

def sortedFields? :
    Nat → List (Option String × Json) → Option (List (String × Json))
  | _, [] => some []
  | depth, (name, value) :: fields => do
      let name ← name
      let value ← sorted? depth value
      let fields ← sortedFields? depth fields
      some ((name, value) :: fields)

end

/-- The sorted form of a text, indented. -/
def sortedText (s : String) : Except Failure String :=
  match (read? s).bind (sorted? depthLimit) with
  | some j => .ok j.indented
  | none => .error .malformedJson

end Json
end RuleBacktest
