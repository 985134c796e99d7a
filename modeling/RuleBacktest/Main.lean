import RuleBacktest.Command.Arguments
import RuleBacktest.Command.Run
import RuleBacktest.Store.Document
import Std.Time.DateTime.Timestamp

/-!
# The command line

Runs commands on the files and the streams of the machine.  A store is kept as a
document in its file.
-/

namespace RuleBacktest

open Calendar

namespace Machine

/-- The number of a refusal, which some calls of the machine give with its sign
turned. -/
def plainCode (code : UInt32) : Nat :=
  if code.toNat < Nat.pow 2 31 then code.toNat else Nat.pow 2 32 - code.toNat

/-- The number and the words with which the machine refuses a file. -/
def reasonOf : IO.Error → Nat × String
  | .noFileOrDirectory _ code details => (plainCode code, details)
  | .inappropriateType _ code details => (plainCode code, details)
  | .invalidArgument _ code details => (plainCode code, details)
  | .permissionDenied _ code details => (plainCode code, details)
  | .resourceExhausted _ code details => (plainCode code, details)
  | .noSuchThing _ code details => (plainCode code, details)
  | .otherError code details => (plainCode code, details)
  | e => (0, toString e)

def faultOf (e : IO.Error) : FileFault :=
  match reasonOf e with
  | (2, _) => .missing
  | (20, _) => .notDirectory
  | (21, _) => .isDirectory
  | (36, _) => .nameTooLong
  | (code, details) => .other (details ++ " (os error " ++ toString code ++ ")")

def hasNul (path : String) : Bool :=
  path.toList.any fun c => c.toNat = 0

def readText (path : String) : IO (Except FileFault String) := do
  if hasNul path then return .error .nulInName
  try
    let bytes ← IO.FS.readBinFile path
    match String.fromUTF8? bytes with
    | some content => return .ok content
    | none => return .error .notText
  catch e => return .error (faultOf e)

def writeText (path content : String) : IO (Except FileFault Unit) := do
  if hasNul path then return .error .nulInName
  try
    IO.FS.writeFile path content
    return .ok ()
  catch e => return .error (faultOf e)

/-- What stands in the file of a store.  A file that may be made is made if
there is none. -/
def storeContent (name : String) (place : StorePlace) (path : String) :
    IO (Except Failure String) := do
  match ← readText path with
  | .ok content => return .ok content
  | .error .notText => return .error Store.unreadable
  | .error .missing =>
      if !place.mayMake then return .error (StorePlace.cannotOpen name)
      match ← writeText path "" with
      | .ok () => return .ok ""
      | .error _ => return .error (StorePlace.cannotOpen name)
  | .error _ => return .error (StorePlace.cannotOpen name)

def openStore (name : String) : IO (Except Failure (OpenStore Float)) := do
  match StorePlace.ofText name with
  | .error e => return .error e
  | .ok place =>
      match place.file with
      | none => return place.openStore none
      | some path =>
          match ← storeContent name place path with
          | .error e => return .error e
          | .ok content =>
              if Store.isBlank content then return place.openStore none
              return (Store.ofText content).bind fun s =>
                place.openStore (some s)

def keepStore (name : String) (store : Store Float) :
    IO (Except Failure Unit) := do
  match (StorePlace.ofText name).toOption.bind StorePlace.file with
  | none => return .ok ()
  | some path =>
      match ← writeText path store.toJson.compact with
      | .ok () => return .ok ()
      | .error _ => return .error Store.cannotKeep

def epoch : Moment := ⟨{ year := 1970, month := 1, day := 1 }, Clock.midnight⟩

/-- The moment so many seconds after the epoch. -/
def momentAfterEpoch (seconds : Int) : Moment :=
  let second := (seconds % 86400).toNat
  match epoch.daysBefore? (-(seconds / 86400)),
      Clock.of? (second / 3600) (second / 60 % 60) (second % 60) 0 with
  | some t, some clock => ⟨t.date, clock⟩
  | _, _ => epoch

def now : IO Moment := do
  let t ← Std.Time.Timestamp.now
  return momentAfterEpoch t.toSecondsSinceUnixEpoch.val

/-- Thirty-two hexadecimal digits drawn at random. -/
def freshId : IO String := do
  let mut digits := []
  for _ in List.range 32 do
    let n ← IO.rand 0 15
    digits := Json.hexDigit n :: digits
  return String.ofList digits

end Machine

instance : Host IO where
  readText := Machine.readText
  writeText := Machine.writeText
  openStore := Machine.openStore
  keepStore := Machine.keepStore
  say line := do (← IO.getStdout).putStrLn line
  tell line := do (← IO.getStderr).putStrLn line
  now := Machine.now
  freshId := Machine.freshId

namespace Machine

def usage : String :=
  "usage: rulebacktest backtest -c CONFIG -r REQUEST [-o OUTPUT]\n" ++
  "       rulebacktest validate -r REQUEST\n" ++
  "       rulebacktest strategy -c CONFIG save --name NAME -f FILE\n" ++
  "       rulebacktest strategy -c CONFIG " ++
  "list | show ID | delete ID | runs ID\n" ++
  "       rulebacktest run-saved -c CONFIG"

def run (words : List String) : IO Nat := do
  match Command.ofWords words with
  | .ok c => Command.run c
  | .error fault =>
      if fault = .help then (← IO.getStdout).putStrLn usage
      else (← IO.getStderr).putStrLn usage
      return fault.exitCode

end Machine
end RuleBacktest

def main (words : List String) : IO UInt32 := do
  let code ← RuleBacktest.Machine.run words
  return code.toUInt32
