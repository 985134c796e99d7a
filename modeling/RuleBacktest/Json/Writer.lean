import RuleBacktest.Json.Document

/-!
# Writing JSON

Only the quotation mark, the backslash and control characters are escaped.  The
compact form has no blanks; the indented form puts every item and field on a
line of its own, two blanks deeper than the brackets around it, and leaves empty
lists and objects on one line.
-/

namespace RuleBacktest
namespace Json

def hexDigit (n : Nat) : Char :=
  "0123456789abcdef".toList[n]?.getD '0'

def escapeChar (c : Char) : List Char :=
  if c = '"' then ['\\', '"']
  else if c = '\\' then ['\\', '\\']
  else if c = '\n' then ['\\', 'n']
  else if c = '\r' then ['\\', 'r']
  else if c = '\t' then ['\\', 't']
  else if c.toNat = 8 then ['\\', 'b']
  else if c.toNat = 12 then ['\\', 'f']
  else if c.toNat < 32 then
    ['\\', 'u', '0', '0', hexDigit (c.toNat / 16), hexDigit (c.toNat % 16)]
  else [c]

/-- A text between quotation marks.  One that no string can hold is spelled by a
lone surrogate. -/
def quoted (content : Option String) : List Char :=
  let inner := match content with
    | some s => s.toList.flatMap escapeChar
    | none => ['\\', 'u', 'd', '8', '0', '0']
  '"' :: inner ++ ['"']

def wordTrue : List Char := ['t', 'r', 'u', 'e']
def wordFalse : List Char := ['f', 'a', 'l', 's', 'e']
def wordNull : List Char := ['n', 'u', 'l', 'l']

mutual

def compactChars : Json → List Char
  | null => wordNull
  | bool b => if b then wordTrue else wordFalse
  | number spelling => spelling.toList
  | text content => quoted content
  | list [] => ['[', ']']
  | list (item :: items) => '[' :: compactChars item ++ compactItems items
  | object [] => ['{', '}']
  | object ((name, value) :: fields) =>
      '{' :: quoted name ++ ':' :: compactChars value ++ compactFields fields

def compactItems : List Json → List Char
  | [] => [']']
  | item :: items => ',' :: compactChars item ++ compactItems items

def compactFields : List (Option String × Json) → List Char
  | [] => ['}']
  | (name, value) :: fields =>
      ',' :: quoted name ++ ':' :: compactChars value ++ compactFields fields

end

def compact (j : Json) : String :=
  String.ofList j.compactChars

def newLine (depth : Nat) : List Char :=
  '\n' :: List.replicate (2 * depth) ' '

mutual

def indentedChars (depth : Nat) : Json → List Char
  | null => wordNull
  | bool b => if b then wordTrue else wordFalse
  | number spelling => spelling.toList
  | text content => quoted content
  | list [] => ['[', ']']
  | list (item :: items) =>
      '[' :: newLine (depth + 1) ++ indentedChars (depth + 1) item ++
        indentedItems depth items
  | object [] => ['{', '}']
  | object ((name, value) :: fields) =>
      '{' :: newLine (depth + 1) ++ quoted name ++ ':' :: ' ' ::
        indentedChars (depth + 1) value ++ indentedFields depth fields

def indentedItems (depth : Nat) : List Json → List Char
  | [] => newLine depth ++ [']']
  | item :: items =>
      ',' :: newLine (depth + 1) ++ indentedChars (depth + 1) item ++
        indentedItems depth items

def indentedFields (depth : Nat) : List (Option String × Json) → List Char
  | [] => newLine depth ++ ['}']
  | (name, value) :: fields =>
      ',' :: newLine (depth + 1) ++ quoted name ++ ':' :: ' ' ::
        indentedChars (depth + 1) value ++ indentedFields depth fields

end

def indented (j : Json) : String :=
  String.ofList (j.indentedChars 0)

end Json
end RuleBacktest
