import TreeStore.Disk.Route
/-!
The operations of a disk on absolute paths. Each answers with the new tree, or with the error of the
system and no change.
-/
namespace TreeStore.Disk

structure Entry where
  name : String
  isDirectory : Bool
  size : Nat
deriving DecidableEq, Repr

/-- A fixed order in which directories are listed. Entries come from the tree by their names. -/
structure Order where
  arrange : List Entry → List Entry
  arrange_perm : ∀ entries, (arrange entries).Perm entries

namespace Order

def byName : Order where
  arrange entries := entries
  arrange_perm _ := .refl _

theorem mem_arrange {order : Order} {entries : List Entry} {entry : Entry} :
    entry ∈ order.arrange entries ↔ entry ∈ entries :=
  (order.arrange_perm entries).mem_iff

end Order

structure Source where
  bytes : Bytes
  failure? : Option IoError
deriving DecidableEq, Repr

def stat (tree : Tree) (path : String) : Except IoError Node := do
  return (← find tree path).2

def list (tree : Tree) (path : String) : Except IoError (List Entry) := do
  let (location, node) ← find tree path
  if node.isDirectory then
    .ok ((tree.children location).map fun (name, node) => ⟨name, node.isDirectory, node.size⟩)
  else .error (.ofSystem .notDirectory)

/-- A directory can be opened for reading, but not read. -/
def openRead (tree : Tree) (path : String) : Except IoError Source := do
  match (← find tree path).2 with
  | .file content => .ok ⟨content, none⟩
  | .directory => .ok ⟨[], some (.ofSystem .isDirectory)⟩

def openWrite (tree : Tree) (path : String) (fresh : Bool) : Except IoError (Location × Tree) := do
  let target ← target tree path
  if target.slash then .error (.ofSystem .isDirectory)
  else
    let slot ← target.slot tree .isDirectory
    match slot.node? with
    | some .directory => .error (.ofSystem .isDirectory)
    | some (.file content) =>
      .ok (slot.location, tree.insert slot.location (.file (if fresh then [] else content)))
    | none => .ok (slot.location, tree.insert slot.location (.file []))

def append (tree : Tree) (location : Location) (bytes : Bytes) : Tree :=
  match tree.find? location with
  | some (.file content) => tree.insert location (.file (content ++ bytes))
  | _ => tree

def makeDirectory (tree : Tree) (path : String) : Except IoError Tree := do
  let slot ← (← target tree path).slot tree .entryExists
  match slot.node? with
  | some _ => .error (.ofSystem .entryExists)
  | none => .ok (tree.insert slot.location .directory)

def removeDirectory (tree : Tree) (path : String) : Except IoError Tree := do
  let target ← target tree path
  let refusal : SystemError :=
    match target.last with
    | .here => .invalidArgument
    | .above => .notEmpty
    | _ => .busy
  let slot ← target.slot tree refusal
  match slot.node? with
  | none => .error (.ofSystem .noEntry)
  | some (.file _) => .error (.ofSystem .notDirectory)
  | some .directory =>
    if (tree.children slot.location).isEmpty then .ok (tree.erase slot.location)
    else .error (.ofSystem .notEmpty)

def removeFile (tree : Tree) (path : String) : Except IoError Tree := do
  let target ← target tree path
  let slot ← target.slot tree .isDirectory
  match slot.node? with
  | none => .error (.ofSystem .noEntry)
  | some .directory => .error (.ofSystem .isDirectory)
  | some (.file _) =>
    if target.slash then .error (.ofSystem .notDirectory) else .ok (tree.erase slot.location)

/-- Moves a file or a directory over nothing, over a file, or over an empty directory. A NUL in
either path is seen first; then the way to the source is gone before the target's is looked at. -/
def rename (tree : Tree) (source target : String) : Except IoError Tree := do
  if hasNul source || hasNul target then throw .nulInName
  let source ← Disk.target tree source
  let target ← Disk.target tree target
  match source.last, target.last with
  | .named _, .named _ =>
    let old ← source.slot tree .busy
    match old.node? with
    | none => .error (.ofSystem .noEntry)
    | some node =>
      let new ← target.slot tree .busy
      if !node.isDirectory && (source.slash || target.slash) then
        .error (.ofSystem .notDirectory)
      else if (Tree.below? old.location target.directory).isSome then
        .error (.ofSystem .invalidArgument)
      else if (Tree.below? new.location source.directory).isSome then
        .error (.ofSystem .notEmpty)
      else if old.location = new.location then .ok tree
      else
        match new.node? with
        | none => .ok (tree.move old.location new.location)
        | some (.file _) =>
          if node.isDirectory then .error (.ofSystem .notDirectory)
          else .ok (tree.move old.location new.location)
        | some .directory =>
          if !node.isDirectory then .error (.ofSystem .isDirectory)
          else if (tree.children new.location).isEmpty then
            .ok (tree.move old.location new.location)
          else .error (.ofSystem .notEmpty)
  | _, _ => .error (.ofSystem .busy)

end TreeStore.Disk
