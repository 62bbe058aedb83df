import TreeStore.Site.Session
/-!
Walking a directory tree, one directory at a time. The directories still to be visited are a stack,
so a directory comes before those below it and the one listed last comes next; a directory is
listed when its turn comes and not before.
-/
namespace TreeStore

/-- A visited directory: the accepted directories in it, by their paths, and its files. -/
structure Visit where
  directory : String
  subdirectories : List String
  files : List Disk.Entry
deriving DecidableEq, Repr

structure Walk where
  session : Session
  /-- Whether a directory is to be visited. -/
  accepts : String → Bool
  /-- The directories still to be visited, the next one first. -/
  pending : List String

namespace Walk

def start (session : Session) (base : String) (accepts : String → Bool := fun _ => true) : Walk :=
  ⟨session, accepts, [base]⟩

def visit (accepts : String → Bool) (directory : String) (entries : List Disk.Entry) : Visit where
  directory
  subdirectories :=
    ((entries.filter (·.isDirectory)).map fun entry => Path.child directory entry.name).filter
      accepts
  files := entries.filter (!·.isDirectory)

def next? (walk : Walk) : Action (Except CallError (Option (Visit × Walk))) :=
  match walk.pending with
  | [] => pure (.ok none)
  | directory :: rest => do
    match ← walk.session.list directory with
    | .error error => return .error error
    | .ok entries =>
      let visit := visit walk.accepts directory entries
      return .ok (some (visit, { walk with pending := visit.subdirectories.reverse ++ rest }))

def take (walk : Walk) : Nat → Action (List Visit × Option CallError)
  | 0 => pure ([], none)
  | n + 1 => do
    match ← walk.next? with
    | .error error => return ([], some error)
    | .ok none => return ([], none)
    | .ok (some (visit, walk)) =>
      let (visits, error?) ← walk.take n
      return (visit :: visits, error?)

def foldWithin {σ : Type} (f : σ → Visit → Operation σ) : Nat → Walk → σ → Operation σ
  | 0, _, state => pure state
  | bound + 1, walk, state => do
    match ← Operation.transport (← walk.next?) with
    | none => pure state
    | some (visit, walk) => foldWithin f bound walk (← f state visit)

/-- Walks to the end, in a tree that gets no new directories on the way. -/
def fold {σ : Type} (walk : Walk) (f : σ → Visit → Operation σ) (state : σ) : Operation σ := do
  foldWithin f (← Site.visitBound) walk state

end Walk

end TreeStore
