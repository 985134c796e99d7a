import RuleBacktest.Store.Address
import RuleBacktest.Store.Basic

/-!
# Where stores are kept

A store is named by a path or by an address.  The empty path and the path
`:memory:` name no file: a store there begins empty and is gone when the command
ends.  The options of an address say whether the file may be made and whether it
may be written, and how those who use it at the same time keep apart; without
them both may be, and the machine keeps the users apart.
-/

namespace RuleBacktest

/-- What may be done with the file of a store. -/
inductive StoreAccess where
  | make
  | write
  | read
  | memory
  deriving DecidableEq, Repr

/-- What keeps those apart who use a store at the same time. -/
inductive StoreLocking where
  | byMachine
  /-- A file beside the store, which is there while the store is used. -/
  | byFile
  | byNothing
  deriving DecidableEq, Repr

structure StorePlace where
  /-- The path of the file, if the store is kept in one. -/
  file : Option String
  access : StoreAccess
  /-- Whether the file is promised not to change. -/
  isFixed : Bool
  locking : StoreLocking
  /-- The path of the file that a new file takes its permissions from. -/
  pattern : Option String
  deriving DecidableEq, Repr

/-- A store at work. -/
structure OpenStore (α : Type) where
  content : Store α
  mayWrite : Bool
  deriving DecidableEq, Repr

namespace StorePlace

def mayMake (p : StorePlace) : Bool := p.access == .make

def mayWrite (p : StorePlace) : Bool := p.access != .read && !p.isFixed

/-- No connection to a store was made, for the reason given. -/
def refused (reason : String) : Failure :=
  .database ("timed out waiting for connection: " ++ reason)

/-- Where no store can be kept. -/
def cannotOpen (name : String) : Failure :=
  refused ("unable to open database file: " ++ name)

/-- What is found where no file can be read or written. -/
def cannotRead : Failure :=
  refused "disk I/O error"

def accessOf? (value : String) : Option StoreAccess :=
  if value = "rwc" then some .make
  else if value = "rw" then some .write
  else if value = "ro" then some .read
  else if value = "memory" then some .memory
  else none

/-- Whether an option may ask for an access when the one before it left another.
It may not ask for more than was left, except where that was memory. -/
def mayFollow : StoreAccess → StoreAccess → Bool
  | _, .memory => true
  | .make, _ => true
  | .memory, _ => true
  | .write, next => next != .make
  | .read, next => next == .read

def changeAccess (allowed : StoreAccess) (value : String) :
    Except Failure StoreAccess :=
  match accessOf? value with
  | none => .error (refused ("no such access mode: " ++ value))
  | some next =>
      if mayFollow allowed next then .ok next
      else .error (refused ("access mode not allowed: " ++ value))

/-- The access that options leave. -/
def accessAfter (options : List (String × String)) :
    Except Failure StoreAccess :=
  options.foldlM
    (fun allowed (name, value) =>
      if name = "mode" then changeAccess allowed value
      else if name = "cache" ∧ value ≠ "shared" ∧ value ≠ "private" then
        .error (refused ("no such cache mode: " ++ value))
      else .ok allowed)
    .make

/-- The ways to reach files that are known. -/
def fileSystems : List String :=
  ["unix", "unix-none", "unix-dotfile", "unix-excl", "memdb"]

/-- The last value of an option. -/
def optionValue? (options : List (String × String)) (name : String) :
    Option String :=
  (options.reverse.find? fun o => o.1 == name).map Prod.snd

/-- The first value of an option. -/
def firstValue? (options : List (String × String)) (name : String) :
    Option String :=
  (options.find? fun o => o.1 == name).map Prod.snd

/-- The largest number that an option can have. -/
def numberLimit : Nat := Nat.pow 2 31 - 1

/-- The number that a value begins with, written in decimal digits or, after
`0x`, in hexadecimal ones.  A number that is too large counts as zero. -/
def leadingNumber (cs : List Char) : Nat :=
  let n := match cs with
    | '0' :: 'x' :: rest | '0' :: 'X' :: rest =>
        Text.valueOfHexDigits
          (rest.takeWhile fun c => (Text.hexValue? c).isSome)
    | _ => Text.valueOfDigits (cs.takeWhile Text.isDigit)
  if n ≤ numberLimit then n else 0

/-- Whether an option is set: by a word for yes, or by a number whose last octet
is not zero. -/
def isSet (options : List (String × String)) (name : String) : Bool :=
  match firstValue? options name with
  | some value =>
      let word := Text.lowerAscii value
      word == "yes" ||
        word == "true" ||
        word == "on" ||
        leadingNumber value.toList % 256 != 0
  | none => false

/-- How a store with such options is locked, where `system` is the way to reach
its file. -/
def lockingOf (options : List (String × String)) (system : Option String) :
    StoreLocking :=
  if isSet options "nolock" ∨ system = some "unix-none" then .byNothing
  else if system = some "unix-dotfile" then .byFile
  else .byMachine

/-- A store that is in no file. -/
def unfiled (access : StoreAccess) : StorePlace :=
  ⟨none, access, false, .byMachine, none⟩

def ofAddress (a : StoreAddress) : Except Failure StorePlace := do
  let allowed ← accessAfter a.options
  let system := optionValue? a.options "vfs"
  match system.filter fun s => !fileSystems.contains s with
  | some s => .error (refused ("no such vfs: " ++ s))
  | none =>
      let isFixed := isSet a.options "immutable"
      if allowed == .memory || a.path == ":memory:" || a.path.isEmpty then
        .ok (unfiled allowed)
      else if system = some "memdb" then .ok { unfiled allowed with isFixed }
      else
        .ok ⟨some a.path, allowed, isFixed, lockingOf a.options system,
          firstValue? a.options "modeof"⟩

/-- The number of octets before the first zero character, if there is one. -/
def zeroPlace? (s : String) : Option Nat :=
  let before := s.toList.takeWhile fun c => c.toNat != 0
  if before.length = s.toList.length then none
  else some (String.ofList before).utf8ByteSize

def ofText (name : String) : Except Failure StorePlace :=
  match zeroPlace? name with
  | some n =>
      .error (refused
          ("nul byte found in provided data at position: " ++ toString n))
  | none =>
      match name.toList with
      | 'f' :: 'i' :: 'l' :: 'e' :: ':' :: _ =>
          match StoreAddress.ofChars ((StoreAddress.octets name).drop 5) with
          | .ok a => ofAddress a
          | .error host => .error (refused ("invalid uri authority: " ++ host))
      | _ =>
          if name.isEmpty || name == ":memory:" then .ok (unfiled .memory)
          else .ok ⟨some name, .make, false, .byMachine, none⟩

variable {α : Type}

/-- Sets to work the store that was left at a place, or a new one where none was
left.  A new one has to be written. -/
def openStore (p : StorePlace) (left : Option (Store α)) :
    Except Failure (OpenStore α) :=
  match left with
  | some s => .ok ⟨s, p.mayWrite⟩
  | none => if p.mayWrite then .ok ⟨.empty, true⟩ else .error Store.cannotKeep

end StorePlace

namespace OpenStore

variable {α : Type} [Scalar α]

/-- The store, to be changed. -/
def forChange (s : OpenStore α) : Except Failure (Store α) :=
  if s.mayWrite then .ok s.content else .error Store.cannotKeep

/-- Records a run in what has become of the store. -/
def recordRun (s : OpenStore α) (current : Store α) (r : StrategyRun α) :
    Except Failure (Store α) :=
  if s.mayWrite then current.recordRun r else .error Store.cannotKeep

end OpenStore
end RuleBacktest
