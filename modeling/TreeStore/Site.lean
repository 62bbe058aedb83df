import TreeStore.Site.Stream
import TreeStore.Settings
/-!
A site: a disk, the sessions that serve a part of it, the connections that use them, the rules by
which calls and streams fail, and a log of all calls and of the streams that broke off. `Action` is
what can be done at a site.
-/
namespace TreeStore

inductive OpenMode where
  | read
  | write
  | append
deriving DecidableEq, Repr

inductive Call where
  | openFile (mode : OpenMode) (path : String)
  | stat (path : String)
  | list (path : String)
  | makeDirectory (path : String)
  | removeDirectory (path : String)
  | removeFile (path : String)
  | rename (source target : String)
  | close
  | connect (settings : Settings)
deriving DecidableEq, Repr

inductive CallKind where
  | openFile (mode : OpenMode)
  | stat
  | list
  | makeDirectory
  | removeDirectory
  | removeFile
  | rename
  | close
  | connect
deriving DecidableEq, Repr

namespace Call

def kind : Call → CallKind
  | .openFile mode _ => .openFile mode
  | .stat _ => .stat
  | .list _ => .list
  | .makeDirectory _ => .makeDirectory
  | .removeDirectory _ => .removeDirectory
  | .removeFile _ => .removeFile
  | .rename .. => .rename
  | .close => .close
  | .connect .. => .connect

def path : Call → String
  | .openFile _ path => path
  | .stat path => path
  | .list path => path
  | .makeDirectory path => path
  | .removeDirectory path => path
  | .removeFile path => path
  | .rename source _ => source
  | .close => ""
  | .connect .. => ""

/-- The path that a real error of a call carries. -/
def errorPath : Call → String
  | .rename _ target => target
  | call => call.path

end Call

inductive StreamKind where
  | read
  | write
  | shutdown
deriving DecidableEq, Repr

structure Session where
  number : Nat
  root : String
deriving DecidableEq, Repr

/-- A call that has been made by a session, and how it failed if it did. The call that establishes
a session bears the number the session has or would have had. -/
structure Event where
  session : Nat
  call : Call
  failure? : Option CallError
deriving DecidableEq, Repr

structure Break where
  calls : Nat
  error : IoError
deriving DecidableEq, Repr

/-- A connection keeps the settings it was made with. Its slot is empty while it is closed. -/
structure Connection where
  settings : Settings
  slot : Option Session
deriving DecidableEq, Repr

structure Site where
  /-- The directory that sessions begin in. -/
  base : String
  disk : Tree := .empty
  /-- The order in which sessions list directories. -/
  order : Disk.Order := .byName
  callRules : List (Rule CallKind Refusal) := []
  streamRules : List (Rule StreamKind Cut) := []
  log : List Event := []
  /-- The streams of open files that broke off, oldest first. -/
  breaks : List Break := []
  /-- All sessions that were ever established, oldest first. -/
  sessions : List Session := []
  /-- All connections that were ever made, oldest first. -/
  connections : List Connection := []

abbrev Action := StateM Site

/-- An action that may end early with an error; what it has done until then stays done. -/
abbrev Operation := ExceptT StoreError Action

namespace Operation

def transport {α : Type} : Except CallError α → Operation α
  | .ok value => pure value
  | .error error => throw (.transport error)

def streamed {α : Type} (path : String) : Except IoError α → Operation α
  | .ok value => pure value
  | .error error => throw (.transport (.ofIo path error))

def onPayload {α : Type} (key : String) : Except CallError α → Operation α
  | .ok value => pure value
  | .error error => throw (.ofPayload key error)

end Operation

namespace Site

/-- What becomes of a call: a rule may refuse it, and if none does, the disk decides. -/
def outcome {α : Type} (site : Site) (call : Call)
    (act : Tree → Except CallError (α × Tree)) : Except CallError (α × Tree) :=
  match (Rule.select call.kind call.path site.callRules).1 with
  | some refusal => .error ⟨refusal.kind, call.path, refusal.text⟩
  | none => act site.disk

/-- Makes a call and logs it. The disk changes only if the call succeeds. -/
def perform {α : Type} (session : Nat) (call : Call)
    (act : Tree → Except CallError (α × Tree)) : Action (Except CallError α) := fun site =>
  let callRules := (Rule.select call.kind call.path site.callRules).2
  match site.outcome call act with
  | .ok (value, disk) =>
    (.ok value, { site with disk, callRules, log := site.log ++ [⟨session, call, none⟩] })
  | .error error =>
    (.error error, { site with callRules, log := site.log ++ [⟨session, call, some error⟩] })

theorem perform_of_ok {α : Type} {session : Nat} {call : Call} {site : Site} {value : α}
    {disk : Tree} {act : Tree → Except CallError (α × Tree)}
    (h : site.outcome call act = .ok (value, disk)) :
    perform session call act site =
      (.ok value,
        { site with
          disk
          callRules := (Rule.select call.kind call.path site.callRules).2
          log := site.log ++ [⟨session, call, none⟩] }) := by
  simp [perform, h]

theorem perform_of_error {α : Type} {session : Nat} {call : Call} {site : Site}
    {error : CallError} {act : Tree → Except CallError (α × Tree)}
    (h : site.outcome call act = .error error) :
    perform session call act site =
      (.error error,
        { site with
          callRules := (Rule.select call.kind call.path site.callRules).2
          log := site.log ++ [⟨session, call, some error⟩] }) := by
  simp [perform, h]

def streamRule (kind : StreamKind) (path : String) : Action (Option Cut) := fun site =>
  let (cut, rules) := Rule.select kind path site.streamRules
  (cut, { site with streamRules := rules })

def broken (site : Site) (error : IoError) : Site :=
  { site with breaks := site.breaks ++ [⟨site.log.length, error⟩] }

/-- Copies the stream of an open file to a sink of the caller: what comes through, and the error
that ends the copy if one does. -/
def pour (source : Source) (cut? : Option Cut) : Action (Bytes × Option IoError) := fun site =>
  let copied := source.through cut?
  (copied, copied.2.elim site site.broken)

/-- A bound on the directories that a walk can visit, and one more step to find its end. -/
def visitBound : Action Nat := fun site => (site.disk.directoryCount + 2, site)

def itemBound : Action Nat := fun site => (site.disk.size + 2, site)

end Site

end TreeStore
