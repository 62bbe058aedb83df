import TreeStore.Disk.Tree
import TreeStore.Path
import TreeStore.Error
/-!
How a path leads through a tree. Every name but the last must lead into a directory; what may stand
at the last one is up to the operation.
-/
namespace TreeStore.Disk

def nameLimit : Nat := 255

def pathLimit : Nat := 4096

structure Route where
  names : List String
  /-- Whether the path ends in a slash. -/
  slash : Bool
deriving DecidableEq, Repr

def hasNul (path : String) : Bool := path.toList.contains '\x00'

def Route.ofPath (path : String) : Except IoError Route :=
  if hasNul path then .error .nulInName
  else if pathLimit ≤ path.utf8ByteSize then .error (.ofSystem .nameTooLong)
  else .ok ⟨Path.components path, path.toList.getLast? == some '/'⟩

def entry? (tree : Tree) (directory : Location) (name : String) :
    Except SystemError (Option Node) :=
  if nameLimit < name.utf8ByteSize then .error .nameTooLong
  else .ok (tree.node? (directory ++ [name]))

def step (tree : Tree) (directory : Location) (name : String) : Except SystemError Location :=
  if name = "." then .ok directory
  else if name = ".." then .ok directory.dropLast
  else
    match entry? tree directory name with
    | .error e => .error e
    | .ok none => .error .noEntry
    | .ok (some (.file _)) => .error .notDirectory
    | .ok (some .directory) => .ok (directory ++ [name])

def enter (tree : Tree) : Location → List String → Except SystemError Location
  | directory, [] => .ok directory
  | directory, name :: rest =>
    match step tree directory name with
    | .ok next => enter tree next rest
    | .error e => .error e

inductive Last where
  | named (name : String)
  | here
  | above
  | root
deriving DecidableEq, Repr

def Last.ofName? : Option String → Last
  | none => .root
  | some name => if name = "." then .here else if name = ".." then .above else .named name

structure Target where
  directory : Location
  last : Last
  slash : Bool
deriving DecidableEq, Repr

def Route.target (tree : Tree) (route : Route) : Except IoError Target :=
  match enter tree [] route.names.dropLast with
  | .ok directory => .ok ⟨directory, .ofName? route.names.getLast?, route.slash⟩
  | .error e => .error (.ofSystem e)

def target (tree : Tree) (path : String) : Except IoError Target := do
  (← Route.ofPath path).target tree

structure Slot where
  location : Location
  node? : Option Node
deriving DecidableEq, Repr

/-- Looks up a target, which must be a name; any other last name is refused with `error`. -/
def Target.slot (tree : Tree) (error : SystemError) (target : Target) : Except IoError Slot :=
  match target.last with
  | .named name =>
    match entry? tree target.directory name with
    | .ok node? => .ok ⟨target.directory ++ [name], node?⟩
    | .error e => .error (.ofSystem e)
  | _ => .error (.ofSystem error)

/-- What a path leads to. A path that ends in a slash leads to a directory only. -/
def find (tree : Tree) (path : String) : Except IoError (Location × Node) := do
  let target ← target tree path
  match target.last with
  | .here => .ok (target.directory, .directory)
  | .above => .ok (target.directory.dropLast, .directory)
  | .root => .ok ([], .directory)
  | .named _ =>
    let slot ← target.slot tree .noEntry
    match slot.node? with
    | none => .error (.ofSystem .noEntry)
    | some node =>
      if target.slash && !node.isDirectory then .error (.ofSystem .notDirectory)
      else .ok (slot.location, node)

end TreeStore.Disk
