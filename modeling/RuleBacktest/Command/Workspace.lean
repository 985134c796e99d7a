import RuleBacktest.Command.Run
import RuleBacktest.File.Tree
import RuleBacktest.Store.Image
import RuleBacktest.Store.Recovery

/-!
# Workspaces

A host in a value: the files of a tree, the lines that were said and told, the
time, and the number of ids given out.  A file is a text, a store, or the null
device, which reads as an empty text and forgets what is written to it.
-/

namespace RuleBacktest

open Calendar

inductive WorkspaceFile where
  | text (content : String)
  | store (content : Store Float)
  | nullDevice

namespace WorkspaceFile

/-- Whether a store in the file would be empty. -/
def isEmptyStore : WorkspaceFile → Bool
  | text content => Store.isBlank content
  | store _ => false
  | nullDevice => true

/-- What the file is beside a store. -/
def remnant : WorkspaceFile → Remnant
  | text content =>
      match content.toList with
      | [] => .empty
      | c :: _ => if c.toNat = 0 then .blank else .filled
  | store _ => .filled
  | nullDevice => .blank

end WorkspaceFile

structure Workspace where
  files : FileTree WorkspaceFile
  said : List String
  told : List String
  clock : Moment
  issued : Nat

namespace Workspace

/-- A workspace with texts at given paths below the start, beside the null
device. -/
def ofTexts (texts : List (String × String)) (clock : Moment) : Workspace :=
  let files :=
    FileTree.ofFiles ["tmp", ".workspace"] (by decide)
      (texts.map fun t => (t.1, .text t.2))
  ⟨files.put ["dev", "null"] .nullDevice, [], [], clock, 0⟩

def readText (w : Workspace) (path : String) : Except FileFault String := do
  match ← w.files.read path with
  | .text content => .ok content
  | .store _ => .error .notText
  | .nullDevice => .ok ""

def put (w : Workspace) (route : List String) (file : WorkspaceFile) :
    Workspace :=
  { w with files := w.files.put route file }

def writeText (w : Workspace) (path content : String) :
    Except FileFault Unit × Workspace :=
  match w.files.locateTarget path with
  | .ok (.file _ .nullDevice) => (.ok (), w)
  | .ok (.file route _) => (.ok (), w.put route (.text content))
  | .ok (.vacant route) => (.ok (), w.put route (.text content))
  | .ok .directory => (.error .isDirectory, w)
  | .error fault => (.error fault, w)

/-- What stands beside the file at a route under the name of a side file. -/
def remnant (w : Workspace) (route : List String) (side : SideFile) : Remnant :=
  let beside := FileTree.besideRoute route side.ending
  match w.files.get? beside with
  | some file => file.remnant
  | none =>
      if w.files.isDirectory beside then .directory
      else if FileTree.nameLimit < (beside.getLastD "").utf8ByteSize then
        .unnamed
      else .absent

def removeBeside (w : Workspace) (route : List String) (side : SideFile) :
    Workspace :=
  { w with files := w.files.remove (FileTree.besideRoute route side.ending) }

/-- Writes a store to the file at a route.  The journal of the change is gone in
the end, and with it one that stood there. -/
def keepAt (w : Workspace) (route : List String) (store : Store Float) :
    Workspace :=
  (w.put route (.store store)).removeBeside route .journal

/-- Makes a store in the file at a route. -/
def makeAt (w : Workspace) (place : StorePlace) (route : List String) :
    Except Failure (OpenStore Float) × Workspace :=
  match place.openStore none with
  | .error e => (.error e, w)
  | .ok s =>
      if (w.remnant route .journal).givesWay then
        (.ok s, w.keepAt route s.content)
      else (.error Store.cannotReach, w)

/-- Opens the store in the file at a route. -/
def openAt (w : Workspace) (place : StorePlace) (route : List String)
    (file : WorkspaceFile) : Except Failure (OpenStore Float) × Workspace :=
  let recovery := place.recover file.isEmptyStore (w.remnant route)
  let w := recovery.cleared.foldl (fun w side => w.removeBeside route side) w
  match recovery.outcome, file with
  | .error e, _ => (.error e, w)
  | .ok (), .store content => (place.openStore (some content), w)
  | .ok (), .text content =>
      match if file.isEmptyStore then .ok ()
      else place.checkImage (.ofText content) with
      | .ok () => w.makeAt place route
      | .error e => (.error e, w)
  | .ok (), .nullDevice =>
      (.error (if place.mayWrite then Store.lostWrite else Store.cannotKeep), w)

/-- Opens the store in the file at a path.  A blank file, or none in a directory
that is there, is an empty store. -/
def openFile (w : Workspace) (name : String) (place : StorePlace)
    (path : String) : Except Failure (OpenStore Float) × Workspace :=
  match w.files.settle path with
  | .error _ => (.error (StorePlace.cannotOpen name), w)
  | .ok route =>
      if place.pattern.any fun pattern => !w.files.stands pattern then
        (.error StorePlace.cannotRead, w)
      else
        match w.files.walk [] route with
        | .ok (.file _ file) => w.openAt place route file
        | .ok (.vacant _) =>
            if place.mayMake then
              (w.put route (.text "")).openAt place route (.text "")
            else (.error (StorePlace.cannotOpen name), w)
        | .ok .directory =>
            let fault :=
              if place.access = .read then StorePlace.cannotRead
              else StorePlace.cannotOpen name
            (.error fault, w)
        | .error _ => (.error (StorePlace.cannotOpen name), w)

def openStore (w : Workspace) (name : String) :
    Except Failure (OpenStore Float) × Workspace :=
  match StorePlace.ofText name with
  | .error e => (.error e, w)
  | .ok place =>
      match place.file with
      | some path => w.openFile name place path
      | none => (place.openStore none, w)

/-- Keeps a store in the file where it was opened.  One that is in no file is
gone. -/
def keepStore (w : Workspace) (name : String) (store : Store Float) :
    Workspace :=
  match (StorePlace.ofText name).toOption.bind StorePlace.file with
  | none => w
  | some path => w.keepAt (w.files.settledRoute path) store

/-- The id that is given out after so many. -/
def idAfter (issued : Nat) : String := "@" ++ toString issued

end Workspace

instance : Host (StateM Workspace) where
  readText path := do return (← get).readText path
  writeText path content := modifyGet fun w => w.writeText path content
  openStore name := modifyGet fun w => w.openStore name
  keepStore name store := modifyGet fun w => (.ok (), w.keepStore name store)
  say line := modify fun w => { w with said := w.said ++ [line] }
  tell line := modify fun w => { w with told := w.told ++ [line] }
  now := do return (← get).clock
  freshId :=
    modifyGet fun w =>
      (Workspace.idAfter w.issued, { w with issued := w.issued + 1 })

/-- The exit code of a command and the workspace after it, with the lines of
this command alone. -/
def Workspace.run (w : Workspace) (c : Command) : Nat × Workspace :=
  StateT.run (Command.run c : StateM Workspace Nat)
    { w with said := [], told := [] }

end RuleBacktest
