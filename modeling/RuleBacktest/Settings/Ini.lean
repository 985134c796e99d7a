import RuleBacktest.Decimal
import RuleBacktest.Text.Blank
import RuleBacktest.Text.Count
import RuleBacktest.Text.Lowercase

/-!
# Configuration text

A configuration is a sequence of lines.  Blank lines and lines that begin with a
comment mark say nothing, and from the first comment mark on a line is cut off.
A line in brackets opens a section; any other line sets a key of the section at
hand, with a value behind the first equals sign or colon, or without one.  Names
of sections and keys are taken in lower case, and what is set later counts.
-/

namespace RuleBacktest

structure IniEntry where
  group : String
  key : String
  value : Option String
  deriving DecidableEq, Repr

/-- The entries in the order of their lines. -/
structure Ini where
  entries : List IniEntry
  deriving DecidableEq, Repr

/-- What makes a line unreadable, with the number of the line. -/
inductive IniFault where
  | unclosedBracket (line : Nat)
  | emptyKey (line : Nat)
  deriving DecidableEq, Repr

def IniFault.message : IniFault → String
  | .unclosedBracket line =>
      "line " ++ toString line ++
        ": Found opening bracket for section name but no closing bracket"
  | .emptyKey line => "line " ++ toString line ++ ":0: Key cannot be empty"

inductive IniLine where
  | silent
  | opening (group : String)
  | setting (key : String) (value : Option String)
  | unclosed
  | keyless
  deriving DecidableEq, Repr

namespace IniLine

def isCommentMark (c : Char) : Bool :=
  c = ';' || c = '#'

def isDelimiter (c : Char) : Bool :=
  c = '=' || c = ':'

def ofChars (cs : List Char) : String := String.ofList (Text.trimChars cs)

/-- The text up to the last closing bracket, or nothing without one. -/
def upToLastBracket? (cs : List Char) : Option (List Char) :=
  match cs.reverse.dropWhile (· ≠ ']') with
  | [] => none
  | _ :: before => some before.reverse

def ofText (line : List Char) : IniLine :=
  let said :=
    Text.trimChars ((Text.trimChars line).takeWhile fun c => !isCommentMark c)
  match said with
  | [] => .silent
  | '[' :: rest =>
      match upToLastBracket? rest with
      | some name => .opening (Text.lower (ofChars name))
      | none => .unclosed
  | _ =>
      let key := Text.lower (ofChars (said.takeWhile fun c => !isDelimiter c))
      match said.dropWhile fun c => !isDelimiter c with
      | [] => .setting key none
      | _ :: value =>
          if key.isEmpty then .keyless else .setting key (some (ofChars value))

end IniLine

namespace Ini

/-- The section of what is set before any section is opened. -/
def firstGroup : String := "default"

def lines (s : String) : List (List Char) :=
  (s.toList.splitOn '\n')

def collect (group : String) (number : Nat) :
    List (List Char) → Except IniFault (List IniEntry)
  | [] => .ok []
  | line :: rest =>
      match IniLine.ofText line with
      | .silent => collect group (number + 1) rest
      | .opening name => collect name (number + 1) rest
      | .setting key value => do
          let entries ← collect group (number + 1) rest
          .ok (⟨group, key, value⟩ :: entries)
      | .unclosed => .error (.unclosedBracket number)
      | .keyless => .error (.emptyKey number)

def ofText (s : String) : Except IniFault Ini :=
  (collect firstGroup 1 (lines s)).map fun entries => ⟨entries⟩

/-- The value that was set last, if it was set with one. -/
def get? (c : Ini) (group key : String) : Option String :=
  let found := c.entries.reverse.find? fun e =>
    e.group == Text.lower group && e.key == Text.lower key
  found.bind IniEntry.value

def integer (c : Ini) (group key : String) (otherwise : Int) : Int :=
  ((c.get? group key).bind (Text.integer? Text.maxSigned64)).getD otherwise

/-- The numeral that was set, if it is one. -/
def numeral? (c : Ini) (group key : String) : Option Numeral :=
  (c.get? group key).bind Numeral.ofText?

def truth? (raw : String) : Option Bool :=
  let word := Text.lower (Text.trim raw)
  if word = "true" ∨ word = "yes" ∨ word = "1" then some true
  else if word = "false" ∨ word = "no" ∨ word = "0" then some false
  else none

def truth (c : Ini) (group key : String) (otherwise : Bool) : Bool :=
  ((c.get? group key).bind truth?).getD otherwise

/-- The value without blanks around it, if anything is left of it. -/
def nonBlank? (c : Ini) (group key : String) : Option String :=
  (c.get? group key).bind Text.nonBlank?

end Ini
end RuleBacktest
