import RuleBacktest.File.Fault
import RuleBacktest.Store.Place

/-!
# Hosts

Where a command runs: what it can read and write there, and what it is told.  A
store is opened and kept by the name of its place, and one that is not there yet
begins empty.
-/

namespace RuleBacktest

open Calendar

class Host (m : Type → Type) where
  readText : String → m (Except FileFault String)
  writeText : String → String → m (Except FileFault Unit)
  openStore : String → m (Except Failure (OpenStore Float))
  keepStore : String → Store Float → m (Except Failure Unit)
  /-- A line of the answer. -/
  say : String → m Unit
  /-- A line beside the answer, for the one who waits for it. -/
  tell : String → m Unit
  now : m Moment
  freshId : m String

/-- What may fail runs where the host is. -/
instance {m : Type → Type} [Monad m] [Host m] : Host (ExceptT Failure m) where
  readText path := ExceptT.lift (Host.readText path)
  writeText path content := ExceptT.lift (Host.writeText path content)
  openStore name := ExceptT.lift (Host.openStore name)
  keepStore name store := ExceptT.lift (Host.keepStore name store)
  say line := ExceptT.lift (Host.say line)
  tell line := ExceptT.lift (Host.tell line)
  now := ExceptT.lift Host.now
  freshId := ExceptT.lift Host.freshId

end RuleBacktest
