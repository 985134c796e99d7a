import RuleBacktest.Store.Place

/-!
# What stands beside a store

While a store is changed, a journal, a log and the index of the log can stand
beside its file, and a lock where a file is the lock.  The next to open the
store finds those of a command that was broken off.  The first octets of a
journal and of a log are those of no text, so that in a text there is nothing to
restore: it is cleared away, or it stands in the way.
-/

namespace RuleBacktest

/-- The files that can stand beside the file of a store. -/
inductive SideFile where
  | journal
  | log
  | index
  | lock
  deriving DecidableEq, Repr

/-- What stands under the name of a side file. -/
inductive Remnant where
  | absent
  /-- The name is too long for a file. -/
  | unnamed
  | empty
  /-- A file that begins with a zero octet. -/
  | blank
  | filled
  | directory
  deriving DecidableEq, Repr

/-- What opening a store comes to: the side files that are cleared away, and
whether the store can be read then. -/
structure Recovery where
  cleared : List SideFile
  outcome : Except Failure Unit

namespace SideFile

/-- What the name of a side file ends with, after the name of the store. -/
def ending : SideFile → String
  | journal => "-journal"
  | log => "-wal"
  | index => "-shm"
  | lock => ".lock"

end SideFile

namespace Remnant

/-- Whether there is something to look at. -/
def isPresent (r : Remnant) : Bool :=
  r == .blank || r == .filled || r == .directory

/-- Whether a file can be written in its place. -/
def givesWay (r : Remnant) : Bool :=
  r != .directory && r != .unnamed

end Remnant

namespace Recovery

def nothing : Recovery := ⟨[], .ok ()⟩

def clearing (cleared : List SideFile) : Recovery := ⟨cleared, .ok ()⟩

def failing (e : Failure) : Recovery := ⟨[], .error e⟩

/-- Two steps, of which the second is taken unless the first fails. -/
def andThen (first second : Recovery) : Recovery :=
  match first.outcome with
  | .ok () => ⟨first.cleared ++ second.cleared, second.outcome⟩
  | .error e => ⟨first.cleared, .error e⟩

end Recovery

namespace StorePlace

/-- Whether a lock against all others can be had. -/
def mayLock (p : StorePlace) : Bool :=
  p.access != .read || p.locking == .byNothing

def recoverLock (p : StorePlace) (lock : Remnant) : Recovery :=
  if p.locking ≠ .byFile ∨ lock = .absent then .nothing
  else .failing (if lock = .unnamed then Store.lostWrite else Store.locked)

/-- Looks for a journal.  One beside an empty store is of a store that is gone,
and one that begins with a zero octet is at its end; any other one would have to
be rolled back.  Where a file is the lock, a journal is taken for that of a
command that still runs. -/
def recoverJournal (p : StorePlace) (isEmpty : Bool) (journal : Remnant) :
    Recovery :=
  if !journal.isPresent || p.locking == .byFile then .nothing
  else if isEmpty then
    if p.mayLock && journal != .directory then .clearing [.journal]
    else .nothing
  else
    match journal with
    | .directory => .failing Store.lostWrite
    | .filled =>
        if p.access = .read then .failing Store.cannotKeep
        else .clearing [.journal]
    | _ => .nothing

/-- Looks for a log.  One beside an empty store is of a store that is gone.  Any
other one is put to use, which takes an index and locks of the machine, and goes
with its index when the store is closed by one who may write. -/
def recoverLog (p : StorePlace) (isEmpty : Bool) (log : Remnant) : Recovery :=
  if !log.isPresent then .nothing
  else if isEmpty then
    if log = .directory then .failing Store.lostWrite else .clearing [.log]
  else if log = .directory ∨ p.locking ≠ .byMachine then
    .failing Store.cannotReach
  else .clearing (if p.access = .read then [.index] else [.log, .index])

/-- What is done about the files beside a store when it is opened.  Beside a
store that is promised not to change nothing is looked for. -/
def recover (p : StorePlace) (isEmpty : Bool) (found : SideFile → Remnant) :
    Recovery :=
  if p.isFixed then .nothing
  else
    ((p.recoverLock (found .lock)).andThen
      (p.recoverJournal isEmpty (found .journal))).andThen
      (p.recoverLog isEmpty (found .log))

end StorePlace
end RuleBacktest
