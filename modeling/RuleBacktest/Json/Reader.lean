import RuleBacktest.Json.Document
import RuleBacktest.Text.Count

/-!
# Reading JSON

The reader goes through the characters once.  Its state is what may come next
together with the lists and objects that are still open, the innermost first.  A
text is followed escape by escape, a number position by position, so that no
character is looked at twice: the character that ends a number is taken as the
one that comes after it.
-/

namespace RuleBacktest
namespace Json
namespace Reader

/-- A list or object that is still open, its last part first.  A member is an
object that waits for the value of its last field. -/
inductive Frame where
  | list (items : List Json)
  | object (fields : List (Option String × Json))
  | member (fields : List (Option String × Json)) (name : Option String)

inductive EscapePhase where
  | plain
  | escaped
  | hex (count value : Nat)
  deriving DecidableEq

/-- A text as far as it has been read, the last character first.  `high` is a
leading surrogate that waits for its trailing one, and `intact` says that none
has been left without. -/
structure TextState where
  chars : List Char
  intact : Bool
  high : Option Nat
  phase : EscapePhase

inductive NumberPhase where
  | sign
  | zero
  | whole
  | point
  | fraction
  | mark
  | markSign
  | exponent
  deriving DecidableEq

inductive Mode where
  | value (closable : Bool)
  | name (closable : Bool)
  | colon
  | after
  | finished (document : Json)
  | text (isName : Bool) (state : TextState)
  | number (phase : NumberPhase) (spelling : List Char)
  | word (rest : List Char) (meaning : Json)

structure State where
  mode : Mode
  stack : List Frame

def initial : State := ⟨.value false, []⟩

def isSpace (c : Char) : Bool :=
  c = ' ' || c = '\t' || c = '\n' || c = '\r'

/-- Puts a complete value into the innermost open list or object. -/
def complete (v : Json) : List Frame → Option State
  | [] => some ⟨.finished v, []⟩
  | .list items :: stack => some ⟨.after, .list (v :: items) :: stack⟩
  | .member fields name :: stack =>
      some ⟨.after, .object ((name, v) :: fields) :: stack⟩
  | .object _ :: _ => none

def TextState.start : TextState := ⟨[], true, none, .plain⟩

namespace TextState

def push (t : TextState) (c : Char) : TextState :=
  ⟨c :: t.chars, t.intact && t.high.isNone, none, .plain⟩

def isHigh (unit : Nat) : Bool := 0xD800 ≤ unit && unit < 0xDC00
def isLow (unit : Nat) : Bool := 0xDC00 ≤ unit && unit < 0xE000

/-- Adds a 16-bit unit that was spelled by its number. -/
def pushUnit (t : TextState) (unit : Nat) : TextState :=
  match t.high with
  | some high =>
      if isLow unit then
        ⟨Char.ofNat (0x10000 + (high - 0xD800) * 0x400 + (unit - 0xDC00)) ::
            t.chars, t.intact, none, .plain⟩
      else ⟨t.chars, false, none, .plain⟩
  | none =>
      if isHigh unit then ⟨t.chars, t.intact, some unit, .plain⟩
      else if isLow unit then ⟨t.chars, false, none, .plain⟩
      else t.push (Char.ofNat unit)

def content (t : TextState) : Option String :=
  if t.intact && t.high.isNone then some (String.ofList t.chars.reverse)
  else none

def escape? (c : Char) : Option Char :=
  match c with
  | '"' => some '"'
  | '\\' => some '\\'
  | '/' => some '/'
  | 'b' => some (Char.ofNat 8)
  | 'f' => some (Char.ofNat 12)
  | 'n' => some '\n'
  | 'r' => some '\r'
  | 't' => some '\t'
  | _ => none

/-- One character inside a text, the closing quotation mark excepted. -/
def step (t : TextState) (c : Char) : Option TextState :=
  match t.phase with
  | .plain =>
      if c = '\\' then some { t with phase := .escaped }
      else if c.toNat < 32 then none
      else some (t.push c)
  | .escaped =>
      if c = 'u' then some { t with phase := .hex 0 0 }
      else (escape? c).map t.push
  | .hex count value =>
      (Text.hexValue? c).map fun d =>
        if count = 3 then t.pushUnit (16 * value + d)
        else { t with phase := .hex (count + 1) (16 * value + d) }

end TextState

namespace NumberPhase

/-- The phase after one more character, or nothing if the character is no part
of the number. -/
def next (p : NumberPhase) (c : Char) : Option NumberPhase :=
  match p with
  | sign =>
      if c = '0' then some zero else if Text.isDigit c then some whole else none
  | zero =>
      if c = '.' then some point
      else if c = 'e' ∨ c = 'E' then some mark else none
  | whole =>
      if Text.isDigit c then some whole
      else if c = '.' then some point
      else if c = 'e' ∨ c = 'E' then some mark
      else none
  | point => if Text.isDigit c then some fraction else none
  | fraction =>
      if Text.isDigit c then some fraction
      else if c = 'e' ∨ c = 'E' then some mark
      else none
  | mark =>
      if c = '+' ∨ c = '-' then some markSign
      else if Text.isDigit c then some exponent
      else none
  | markSign => if Text.isDigit c then some exponent else none
  | exponent => if Text.isDigit c then some exponent else none

def canEnd : NumberPhase → Bool
  | zero => true
  | whole => true
  | fraction => true
  | exponent => true
  | _ => false

end NumberPhase

def startValue (closable : Bool) (c : Char) (stack : List Frame) :
    Option State :=
  if c = '"' then some ⟨.text false .start, stack⟩
  else if c = '[' then some ⟨.value true, .list [] :: stack⟩
  else if c = '{' then some ⟨.name true, .object [] :: stack⟩
  else if c = 't' then some ⟨.word ['r', 'u', 'e'] (.bool true), stack⟩
  else if c = 'f' then some ⟨.word ['a', 'l', 's', 'e'] (.bool false), stack⟩
  else if c = 'n' then some ⟨.word ['u', 'l', 'l'] .null, stack⟩
  else if c = '-' then some ⟨.number .sign ['-'], stack⟩
  else if c = ']' ∧ closable then
    match stack with
    | .list [] :: stack => complete (.list []) stack
    | _ => none
  else (NumberPhase.next .sign c).map fun p => ⟨.number p [c], stack⟩

/-- One character behind a complete value inside a list or an object. -/
def afterValue (c : Char) (stack : List Frame) : Option State :=
  match stack with
  | .list items :: stack =>
      if c = ',' then some ⟨.value false, .list items :: stack⟩
      else if c = ']' then complete (.list items.reverse) stack
      else none
  | .object fields :: stack =>
      if c = ',' then some ⟨.name false, .object fields :: stack⟩
      else if c = '}' then complete (.object fields.reverse) stack
      else none
  | _ => none

def startName (closable : Bool) (c : Char) (stack : List Frame) :
    Option State :=
  if c = '"' then some ⟨.text true .start, stack⟩
  else if c = '}' ∧ closable then
    match stack with
    | .object [] :: stack => complete (.object []) stack
    | _ => none
  else none

def endText (isName : Bool) (content : Option String) (stack : List Frame) :
    Option State :=
  if isName then
    match stack with
    | .object fields :: stack => some ⟨.colon, .member fields content :: stack⟩
    | _ => none
  else complete (.text content) stack

/-- One character where only blanks and the structure around values may
stand. -/
def between (mode : Mode) (c : Char) (stack : List Frame) : Option State :=
  if isSpace c then some ⟨mode, stack⟩
  else
    match mode with
    | .value closable => startValue closable c stack
    | .name closable => startName closable c stack
    | .colon => if c = ':' then some ⟨.value false, stack⟩ else none
    | .after => afterValue c stack
    | _ => none

def step (s : State) (c : Char) : Option State :=
  match s.mode with
  | .text isName t =>
      if c = '"' ∧ t.phase = .plain then endText isName t.content s.stack
      else (t.step c).map fun t => ⟨.text isName t, s.stack⟩
  | .number p spelling =>
      match p.next c with
      | some p => some ⟨.number p (c :: spelling), s.stack⟩
      | none =>
          if p.canEnd then
            (complete (.number (String.ofList spelling.reverse)) s.stack).bind
              fun s =>
              between s.mode c s.stack
          else none
  | .word [] _ => none
  | .word (d :: rest) meaning =>
      if c = d then
        if rest.isEmpty then complete meaning s.stack
        else some ⟨.word rest meaning, s.stack⟩
      else none
  | mode => between mode c s.stack

/-- The document that has been read when no character is left. -/
def finish (s : State) : Option Json :=
  match s.mode, s.stack with
  | .finished document, [] => some document
  | .number p spelling, [] =>
      if p.canEnd then some (.number (String.ofList spelling.reverse)) else none
  | _, _ => none

def run (s : State) (cs : List Char) : Option State :=
  cs.foldlM step s

end Reader

def read? (s : String) : Option Json :=
  (Reader.run Reader.initial s.toList).bind Reader.finish

end Json
end RuleBacktest
