import TreeStore.Site
/-!
The calls of a session, and how sessions are established. A session's paths are taken from its root
once their leading slashes are gone.
-/
namespace TreeStore

/-- A path below a directory; nothing is added to a directory that ends in a slash. -/
def rooted (root path : String) : String :=
  let rest := Path.trimStart path
  if root.toList.getLast? == some '/' then root ++ rest else root ++ "/" ++ rest

namespace Session

structure Writer where
  location : Location
  path : String
  cut? : Option Cut
  shutdown? : Option Cut

def resolve (session : Session) (path : String) : String := rooted session.root path

def answer {α : Type} (session : Session) (call : Call)
    (act : Tree → Except IoError (α × Tree)) : Action (Except CallError α) :=
  Site.perform session.number call fun disk => (act disk).mapError (.ofIo call.errorPath)

def inspect {α : Type} (session : Session) (call : Call) (act : Tree → Except IoError α) :
    Action (Except CallError α) :=
  session.answer call fun disk => (act disk).map (·, disk)

def change (session : Session) (call : Call) (act : Tree → Except IoError Tree) :
    Action (Except CallError Unit) :=
  session.answer call fun disk => (act disk).map ((), ·)

def stat (session : Session) (path : String) : Action (Except CallError Node) :=
  session.inspect (.stat path) fun disk => Disk.stat disk (session.resolve path)

def list (session : Session) (path : String) : Action (Except CallError (List Disk.Entry)) := do
  let order := (← get).order
  session.inspect (.list path) fun disk =>
    order.arrange <$> Disk.list disk (session.resolve path)

def makeDirectory (session : Session) (path : String) : Action (Except CallError Unit) :=
  session.change (.makeDirectory path) fun disk => Disk.makeDirectory disk (session.resolve path)

def removeDirectory (session : Session) (path : String) : Action (Except CallError Unit) :=
  session.change (.removeDirectory path) fun disk =>
    Disk.removeDirectory disk (session.resolve path)

def removeFile (session : Session) (path : String) : Action (Except CallError Unit) :=
  session.change (.removeFile path) fun disk => Disk.removeFile disk (session.resolve path)

def rename (session : Session) (source target : String) : Action (Except CallError Unit) :=
  session.change (.rename source target) fun disk =>
    Disk.rename disk (session.resolve source) (session.resolve target)

def close (session : Session) : Action (Except CallError Unit) :=
  session.inspect .close fun _ => .ok ()

def openRead (session : Session) (path : String) : Action (Except CallError Source) := do
  match ← session.inspect (.openFile .read path)
      fun disk => Disk.openRead disk (session.resolve path) with
  | .error error => return .error error
  | .ok source => return .ok (source.cut (← Site.streamRule .read path))

def openWrite (session : Session) (path : String) : Action (Except CallError Writer) := do
  match ← session.answer (.openFile .write path)
      fun disk => Disk.openWrite disk (session.resolve path) true with
  | .error error => return .error error
  | .ok location =>
    let cut? ← Site.streamRule .write path
    let shutdown? ← Site.streamRule .shutdown path
    return .ok ⟨location, path, cut?, shutdown?⟩

def Writer.copy (writer : Writer) (source : Source) : Action (Except IoError Nat) := fun site =>
  let (bytes, failure?) := source.through writer.cut?
  let site := { site with disk := Disk.append site.disk writer.location bytes }
  match failure? with
  | some error => (.error error, site.broken error)
  | none => (.ok bytes.length, site)

def Writer.shutdown (writer : Writer) : Action (Except IoError Unit) := fun site =>
  match writer.shutdown? with
  | some cut => (.error cut.error, site.broken cut.error)
  | none => (.ok (), site)

def rootFor (base : String) (settings : Settings) : String :=
  match settings.root with
  | some sub => rooted base sub
  | none => base

def checkRoot (disk : Tree) (root : String) : Except CallError Unit :=
  match Disk.stat disk root with
  | .error error => .error (.ofIo root error)
  | .ok .directory => .ok ()
  | .ok (.file _) => .error ⟨.other, root, "session root is not a directory"⟩

def establish (settings : Settings) : Action (Except CallError Session) := do
  let site ← get
  let session : Session := ⟨site.sessions.length, rootFor site.base settings⟩
  match ← Site.perform session.number (.connect settings)
      fun disk => (checkRoot disk session.root).map (·, disk) with
  | .error error => return .error error
  | .ok () =>
    modify fun site => { site with sessions := site.sessions ++ [session] }
    return .ok session

end Session

end TreeStore
