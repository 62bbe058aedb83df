import TreeStore.Site.Session
import TreeStore.Site.Walk
/-!
Connections: how one is made, closed and established again, and the operations on directories that
buckets are built from. Every operation takes its session from the connection's slot, so it fails
at once while the slot is empty.
-/
namespace TreeStore

structure ConnectionId where
  index : Nat
deriving DecidableEq, Repr

namespace ConnectionId

def get? (id : ConnectionId) : Action (Option Connection) := fun site =>
  (site.connections[id.index]?, site)

def setSlot (id : ConnectionId) (slot : Option Session) : Action Unit := fun site =>
  ((), { site with
    connections := site.connections.modify id.index fun connection => { connection with slot } })

def slot? (id : ConnectionId) : Action (Option Session) := do
  return (← id.get?).bind Connection.slot

def settings (id : ConnectionId) : Action Settings := do
  return ((← id.get?).map Connection.settings).getD {}

def isConnected (id : ConnectionId) : Action Bool := do
  return (← id.slot?).isSome

def session (id : ConnectionId) : Operation Session := do
  match ← id.slot? with
  | some session => pure session
  | none => throw .disconnected

def connect (settings : Settings) : Operation ConnectionId := do
  match settings.validate with
  | .error error => throw error
  | .ok () =>
    let session ← Operation.transport (← Session.establish settings)
    fun site =>
      (.ok ⟨site.connections.length⟩,
        { site with connections := site.connections ++ [⟨settings, some session⟩] })

def close (id : ConnectionId) : Operation Unit := do
  match ← id.slot? with
  | none => pure ()
  | some session =>
    id.setSlot none
    Operation.transport (← session.close)

/-- Puts a new session into the slot and closes the one before. -/
def reestablish (id : ConnectionId) : Operation Unit := do
  let session ← Operation.transport (← Session.establish (← id.settings))
  let previous? ← id.slot?
  id.setSlot (some session)
  match previous? with
  | none => pure ()
  | some previous => Operation.transport (← previous.close)

def contains (id : ConnectionId) (path : String) : Operation Bool := do
  match ← (← id.session).stat path with
  | .ok _ => pure true
  | .error error => if error.isNotFound then pure false else throw (.transport error)

/-- Makes the directories below `base` that are missing, outermost first; whether any was. -/
def makeMissing (id : ConnectionId) (session : Session) : String → List String → Operation Bool
  | _, [] => pure false
  | base, name :: rest => do
    let path := Path.child base name
    if ← id.contains path then id.makeMissing session path rest
    else
      Operation.transport (← session.makeDirectory path)
      let _ ← id.makeMissing session path rest
      pure true

def makeDirectories (id : ConnectionId) (path : String) : Operation Unit := do
  let session ← id.session
  if ← id.makeMissing session "" (Path.components path) then pure ()
  else throw (.alreadyExists path)

def removeFiles (session : Session) (directory : String) : List Disk.Entry → Operation Unit
  | [] => pure ()
  | file :: rest => do
    Operation.transport (← session.removeFile (Path.child directory file.name))
    removeFiles session directory rest

def removeDirectories (session : Session) : List String → Operation Unit
  | [] => pure ()
  | path :: rest => do
    Operation.transport (← session.removeDirectory path)
    removeDirectories session rest

/-- Removes everything below a directory: files while walking, then the directories in the reverse
of the order they were visited in. -/
def purge (id : ConnectionId) (path : String) : Operation Unit := do
  let session ← id.session
  let directories ← (Walk.start session path).fold (fun directories visit => do
    removeFiles session visit.directory visit.files
    pure (if visit.directory = path then directories else visit.directory :: directories)) []
  removeDirectories session directories

end ConnectionId

end TreeStore
