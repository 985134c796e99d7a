import RuleBacktest.File.Fault

/-!
# File trees

A tree of files with the directory that paths start from.  A file is known by
its route, the names on the way to it from the top, and a directory stands
wherever a file or the start is below it.  In a path, empty names and single
dots stay in place and two dots lead back; above the top is the top.
-/

namespace RuleBacktest

/-- Whether a name in a path is the name of something, and no way to stay or to
lead back. -/
def isFileName (name : String) : Bool :=
  name != "" && name != "." && name != ".."

/-- The files with their routes. -/
structure FileTree (β : Type) where
  /-- The route of the directory that paths start from. -/
  start : List String
  valid : start.all isFileName
  files : List (List String × β)

/-- What a path leads to. -/
inductive FilePlace (β : Type) where
  | file (route : List String) (content : β)
  | directory
  /-- No file stands there, in a directory that does. -/
  | vacant (route : List String)

namespace FileTree

variable {β : Type}

def empty (start : List String) (valid : start.all isFileName) : FileTree β :=
  ⟨start, valid, []⟩

def get? (t : FileTree β) (route : List String) : Option β :=
  (t.files.find? fun f => f.1 == route).map Prod.snd

/-- Puts a file in the place of the one that stood there. -/
def put (t : FileTree β) (route : List String) (content : β) : FileTree β :=
  { t with
      files := (t.files.filter fun f => f.1 != route) ++ [(route, content)] }

/-- Takes away the file at a route. -/
def remove (t : FileTree β) (route : List String) : FileTree β :=
  { t with files := t.files.filter fun f => f.1 != route }

def isDirectory (t : FileTree β) (route : List String) : Bool :=
  route.isPrefixOf t.start ||
    t.files.any fun f => route.isPrefixOf f.1 && f.1 != route

/-- The longest name a file can have, in bytes. -/
def nameLimit : Nat := 255

/-- The longest path that is looked up, in bytes. -/
def pathLimit : Nat := 4095

/-- Follows names from the directory at a route. -/
def walk (t : FileTree β) (route : List String) :
    List String → Except FileFault (FilePlace β)
  | [] => .ok .directory
  | name :: rest =>
      if name = "" ∨ name = "." then t.walk route rest
      else if name = ".." then t.walk route.dropLast rest
      else if nameLimit < name.utf8ByteSize then .error .nameTooLong
      else
        let next := route ++ [name]
        match t.get? next with
        | some content =>
            if rest.isEmpty then .ok (.file next content)
            else .error .notDirectory
        | none =>
            if t.isDirectory next then t.walk next rest
            else if rest.isEmpty then .ok (.vacant next)
            else .error .missing

def names (path : String) : List String :=
  (path.toList.splitOn '/').map String.ofList

/-- Where a path starts: at the top if its first character is a slash. -/
def origin (t : FileTree β) (path : String) : List String :=
  if path.toList.head? = some '/' then [] else t.start

/-- The files of given paths below the start, of which a later one takes the
place of an earlier one. -/
def ofFiles (start : List String) (valid : start.all isFileName)
    (files : List (String × β)) : FileTree β :=
  files.foldl
    (fun t f =>
      t.put (start ++ (names f.1).filter fun name => name != "" && name != ".")
        f.2)
    (empty start valid)

/-- What can be said of a path before anything is looked up. -/
def checkPath (path : String) : Except FileFault Unit :=
  if path.isEmpty then .error .missing
  else if path.toList.any fun c => c.toNat = 0 then .error .nulInName
  else if pathLimit < path.utf8ByteSize then .error .nameTooLong
  else .ok ()

def locate (t : FileTree β) (path : String) :
    Except FileFault (FilePlace β) := do
  checkPath path
  t.walk (t.origin path) (names path)

def read (t : FileTree β) (path : String) : Except FileFault β := do
  match ← t.locate path with
  | .file _ content => .ok content
  | .directory => .error .isDirectory
  | .vacant _ => .error .missing

/-- Whether a file or a directory stands at a path. -/
def stands (t : FileTree β) (path : String) : Bool :=
  match t.locate path with
  | .ok (.vacant _) | .error _ => false
  | .ok _ => true

def withoutFinalSlashes (path : String) : String :=
  String.ofList (path.toList.reverse.dropWhile (· = '/')).reverse

/-- Where a file would be written.  A path with a slash at its end can only name
a directory, and no directory is written; the directories before its last name
are looked up all the same. -/
def locateTarget (t : FileTree β) (path : String) :
    Except FileFault (FilePlace β) := do
  if path.toList.getLast? = some '/' then
    checkPath path
    let above := (names (withoutFinalSlashes path)).dropLast
    let _ ← t.walk (t.origin path) (above ++ [""])
    .ok .directory
  else t.locate path

/-- The route one name further, where two dots undo the name before them. -/
def stepRoute (route : List String) (name : String) : List String :=
  if name = "" ∨ name = "." then route
  else if name = ".." then route.dropLast
  else route ++ [name]

/-- The route of a path that undoes names whether they stand or not. -/
def settledRoute (t : FileTree β) (path : String) : List String :=
  (names path).foldl stepRoute (t.origin path)

/-- The length of a route in bytes, with a slash before each name. -/
def routeSize (route : List String) : Nat :=
  route.foldl (fun size name => size + (name.utf8ByteSize + 1)) 0

/-- The longest route that is settled. -/
def settledLimit : Nat := 511

/-- The longest settled route at which a file is looked for. -/
def settledFileLimit : Nat := 504

/-- Looks up each name on the way of a settled route.  A name may be missing,
but not below a file, and not be too long for the directory that it is looked up
in. -/
def checkNames (t : FileTree β) (route : List String) :
    List String → Except FileFault Unit
  | [] => .ok ()
  | name :: rest =>
      let next := stepRoute route name
      if name = "" ∨ name = "." ∨ name = ".." then t.checkNames next rest
      else if (t.get? route).isSome then .error .notDirectory
      else if t.isDirectory route ∧ nameLimit < name.utf8ByteSize then
        .error .nameTooLong
      else if settledLimit < routeSize next then .error .nameTooLong
      else t.checkNames next rest

/-- The settled route of a path, if there can be one. -/
def settle (t : FileTree β) (path : String) :
    Except FileFault (List String) := do
  checkPath path
  t.checkNames (t.origin path) (names path)
  let route := t.settledRoute path
  if settledFileLimit < routeSize route then .error .nameTooLong else .ok route

/-- The route of a file whose name begins with the name of the file at a
route. -/
def besideRoute (route : List String) (ending : String) : List String :=
  route.dropLast ++ [route.getLastD "" ++ ending]

end FileTree

/-- The path of a name below a directory. -/
def pathBelow (directory name : String) : String :=
  if name.toList.head? = some '/' ∨ directory.isEmpty then name
  else if directory.toList.getLast? = some '/' then directory ++ name
  else directory ++ "/" ++ name

end RuleBacktest
