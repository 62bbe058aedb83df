import TreeStore.Proofs.Layout
import TreeStore.Proofs.Looking
/-!
The operations of a bucket as data, with what each of them may touch, and how every one of them
ends under any rules while there is a session (`Command.run_ends`).
-/
namespace TreeStore

open Footprint
open Layout (Part)

inductive Command where
  | store (key : String) (payload : Payload) (record : Record)
  | delete (key : String) (force : Bool)
  | rename (source target : String)
  | copy (source target : String) (record? : Option Record)
  | updateRecord (key : String) (record : Record)
  | clear
  | contains (key : String)
  | fetch (key : String) (sink : Sink)
  | fetchBytes (key : String)
  | fetchRecord (key : String)
  | objectSize (key : String)
  | totalSize
  | list (start : String) (limit? : Option Nat)

def failure? {α : Type} : Except StoreError α → Option StoreError
  | .ok _ => none
  | .error error => some error

inductive Answer where
  | nothing (result : Except StoreError Unit)
  | number (result : Except StoreError Nat)
  | truth (result : Except StoreError Bool)
  | record (result : Except StoreError Record)
  | bytes (result : Except StoreError (Record × Bytes))
  /-- The sink holds these bytes, also where the fetch failed. -/
  | object (result : Except StoreError Record) (held : Bytes)
  | keys (keys : List String) (error? : Option StoreError)

def Answer.error? : Answer → Option StoreError
  | nothing result => failure? result
  | number result => failure? result
  | truth result => failure? result
  | record result => failure? result
  | bytes result => failure? result
  | object result _ => failure? result
  | keys _ error? => error?

namespace Command

def run (bucket : Bucket) : Command → Action Answer
  | store key payload record => .number <$> (bucket.store key payload record).run
  | delete key force => .nothing <$> (bucket.delete key force).run
  | rename source target => .nothing <$> (bucket.rename source target).run
  | copy source target record? => .nothing <$> (bucket.copy source target record?).run
  | updateRecord key record => .nothing <$> (bucket.updateRecord key record).run
  | clear => .nothing <$> bucket.clear.run
  | contains key => .truth <$> (bucket.contains key).run
  | fetch key sink => (fun answer => .object answer.1 answer.2) <$> bucket.fetch key sink
  | fetchBytes key => .bytes <$> (bucket.fetchBytes key).run
  | fetchRecord key => .record <$> (bucket.fetchRecord key).run
  | objectSize key => .number <$> (bucket.objectSize key).run
  | totalSize => .number <$> bucket.totalSize.run
  | list start limit? => (fun answer => .keys answer.1 answer.2) <$> bucket.list start limit?

end Command

def Bucket.path (bucket : Bucket) (key : String) (part : Part) : String :=
  Layout.place bucket.name key ++ part.suffix

def Bucket.spot (bucket : Bucket) (session : Session) (key : String) (part : Part) : Location :=
  Disk.locate (session.resolve (bucket.path key part))

/-- The files that may be touched, and the key whose folders may be made. -/
structure Reach where
  folders? : Option String := none
  written : List (String × Part) := []
  removed : List (String × Part) := []
  moved? : Option (String × String) := none
  /-- Whether all that lies in the bucket may go. -/
  cleared : Bool := false

def Command.reach : Command → Reach
  | .store key _ _ => { folders? := some key, written := [(key, .payload), (key, .record)] }
  | .delete key _ => { removed := [(key, .payload), (key, .record)] }
  | .rename source target => { folders? := some target, moved? := some (source, target) }
  | .copy source target _ =>
    if source = target then { written := [(target, .record)] }
    else { folders? := some target, written := [(target, .payload), (target, .record)] }
  | .updateRecord key _ => { written := [(key, .record)] }
  | .clear => { cleared := true }
  | _ => {}

inductive Reach.Allows (reach : Reach) (session : Session) (bucket : Bucket) : Edit → Prop
  | makeDirectory {key : String} (named : reach.folders? = some key) {front : List String}
      (above : front <+: Path.components (Path.parent (bucket.payloadPath key))) (some : front ≠ [])
      (short : Disk.Reaches session (Path.ofNames front)) :
      Allows reach session bucket
        (.makeDirectory (Disk.locate (session.resolve (Path.ofNames front))))
  | write {key : String} {part : Part} (named : (key, part) ∈ reach.written)
      (short : Disk.Reaches session (bucket.path key part)) (content : Bytes) :
      Allows reach session bucket (.write (bucket.spot session key part) content)
  | removeFile {key : String} {part : Part} (named : (key, part) ∈ reach.removed) :
      Allows reach session bucket (.removeFile (bucket.spot session key part))
  | move {source target : String} (named : reach.moved? = some (source, target)) (part : Part)
      (short : Disk.Reaches session (bucket.path target part)) :
      Allows reach session bucket
        (.move (bucket.spot session source part) (bucket.spot session target part))
  | clearFile (named : reach.cleared = true) {rest : List String} (some : rest ≠ [])
      (plain : ∀ name ∈ rest, Path.Plain name) :
      Allows reach session bucket
        (.removeFile (Disk.locate (session.resolve (Path.ofNames (bucket.name :: rest)))))
  | clearDirectory (named : reach.cleared = true) {rest : List String} (some : rest ≠ [])
      (plain : ∀ name ∈ rest, Path.Plain name) :
      Allows reach session bucket
        (.removeDirectory (Disk.locate (session.resolve (Path.ofNames (bucket.name :: rest)))))

/-- The footprint has the edits of a command, and what the command moves is no directory. -/
structure Footprint.Serves (footprint : Footprint) (session : Session) (bucket : Bucket)
    (command : Command) : Prop where
  edits : ∀ edit, command.reach.Allows session bucket edit → footprint.allowed edit
  files : ∀ source target part tree, command = .rename source target → footprint.apt tree →
    tree.node? (bucket.spot session source part) ≠ some .directory

def Footprint.Answered (footprint : Footprint) (tree : Tree) (answer : Answer) (tree' : Tree) :
    Prop :=
  answer.error?.isSome ∧ tree' = tree ∨
    footprint.Covers tree tree' ∧ ∀ error, answer.error? = some error → error.IsTransport

section

variable {scene : Scene} {tree : Tree} {footprint : Footprint} {α β : Type}

theorem Ends.map {action : Action α} {f : α → β} {ends : β → Tree → Prop}
    (h : Ends scene tree action fun a tree' => ends (f a) tree') :
    Ends scene tree (f <$> action) ends :=
  ⟨h.run⟩

theorem Ends.answered {operation : Operation α} {f : Except StoreError α → Answer}
    (same : ∀ result, (f result).error? = failure? result)
    (h : Ends scene tree operation (footprint.Atomic tree)) :
    Ends scene tree (f <$> operation.run) (footprint.Answered tree) := by
  refine .map (h.mono fun result tree' done => ?_)
  rcases done with ⟨⟨error, rfl⟩, still⟩ | done
  · exact .inl ⟨by rw [same]; rfl, still⟩
  · refine .inr ⟨done.covers, fun error failed => done.fails error ?_⟩
    rw [same] at failed
    cases result with
    | ok => cases failed
    | error => rw [Option.some.inj failed]

theorem Footprint.Answered.of_still {answer : Answer} {tree' : Tree} (still : tree' = tree) :
    footprint.Answered tree answer tree' := by
  cases failed : answer.error? with
  | none => exact .inr ⟨.of_eq still, fun _ eq => by rw [failed] at eq; cases eq⟩
  | some error => exact .inl ⟨by rw [failed]; rfl, still⟩

end

def Command.looks : Command → Bool
  | .contains _ | .fetch .. | .fetchBytes _ | .fetchRecord _ | .objectSize _ | .totalSize
  | .list .. => true
  | _ => false

theorem Command.looks_still {scene : Scene} {tree : Tree} {bucket : Bucket} (command : Command)
    (looks : command.looks = true) :
    Ends scene tree (command.run bucket) fun _ tree' => tree' = tree := by
  cases command with
  | contains key => exact .map (contains_still _ _)
  | fetch key sink => exact .map (fetch_still key sink)
  | fetchBytes key => exact .map (fetchBytes_still key)
  | fetchRecord key => exact .map (fetchRecord_still key)
  | objectSize key => exact .map (objectSize_still key)
  | totalSize => exact .map totalSize_still
  | list start limit? => exact .map (list_still start limit?)
  | _ => cases looks

section Changing

variable {scene : Scene} {bucket : Bucket} {session : Session} {footprint : Footprint}
variable (shows : scene.Shows bucket.connection (some session)) (tree : Tree)

include shows

theorem store_ends {key : String} {payload : Payload} {record : Record}
    (makes : footprint.Makes session (bucket.payloadPath key))
    (fills : footprint.Fills session (bucket.payloadPath key) payload.bytes)
    (records : ∀ format, scene.Formats bucket format →
      footprint.Fills session (bucket.recordPath key) (format.encode record)) :
    Ends scene tree (bucket.store key payload record) (footprint.Atomic tree) := by
  refine .live shows ?_
  have rewound : Ends scene tree (Operation.streamed (bucket.payloadPath key) payload.rewind)
      fun result tree' => tree' = tree ∧
        ∀ start, result = .ok start → start.source.bytes <+: payload.bytes := by
    refine (streamed_ends ..).mono fun result tree' ⟨same, eq⟩ => ⟨same, fun start ok => ?_⟩
    cases rewinds : payload.rewind with
    | error error => simp [rewinds, eq, Except.mapError] at ok
    | ok start' =>
      obtain rfl : start' = start := by simpa [rewinds, eq, Except.mapError] using ok
      rw [Payload.source_of_rewind rewinds]
      exact Disk.Source.cut_bytes_prefix _ _
  refine rewound.andThen (fun start tree' ⟨same, beginning⟩ => ?_)
    fun error tree' ⟨same, _⟩ => .inl ⟨⟨error, rfl⟩, same⟩
  subst same
  refine (writePayload_ends shows tree' key start.source makes fun short content part =>
    fills short content (part.trans (beginning start rfl))).atomic_bind fun size tree' => ?_
  refine (writeRecord_ends tree' key record records).rough_bind fun _ tree'' => ?_
  exact .ok (.ok (.refl tree'') size)

theorem delete_ends {key : String} {force : Bool}
    (serves : footprint.Serves session bucket (.delete key force)) :
    Ends scene tree (bucket.delete key force) (footprint.Atomic tree) := by
  refine .live shows ?_
  have may : ∀ part, footprint.allowed (.removeFile (bucket.spot session key part)) := by
    intro part
    exact serves.edits _ (.removeFile (by cases part <;> simp [Command.reach]))
  refine (removeFile_ends scene tree session _ fun _ => may .payload).lifted
    fun answer tree' done => ?_
  cases answer with
  | error error =>
    dsimp only
    split
    · exact .ok (.inr (.ok (.of_eq done.of_error) ()))
    · exact .throw (.inl ⟨⟨_, rfl⟩, done.of_error⟩)
  | ok =>
    refine (removeFile_ends scene tree' session _ fun _ => may .record).lifted
      fun answer tree'' done' => ?_
    cases answer with
    | ok => exact .ok (.inr (.ok (done.of_ok.trans done'.of_ok) ()))
    | error error =>
      have covers := done.of_ok.trans (.of_eq done'.of_error)
      dsimp only
      split
      · exact .ok (.inr (.ok covers ()))
      · exact .throw (.inr (.failed covers error))

theorem rename_command_ends {source target : String}
    (serves : footprint.Serves session bucket (.rename source target)) :
    Ends scene tree (bucket.rename source target) (footprint.Atomic tree) := by
  refine .live shows ((require_ends shows tree source).look fun _ => ?_)
  have renamed : ∀ (part : Part) (tree : Tree), Ends scene tree
      (session.rename (bucket.path source part) (bucket.path target part))
      (footprint.Called tree) := by
    intro part tree
    exact rename_ends scene tree session _ _ (fun short => serves.edits _ (.move rfl part short))
      (serves.files source target part tree rfl)
  refine (withDirectories_ends shows _ (fun _ _ => True) tree
    (fun tree => (renamed .payload tree).mono fun _ _ done => ⟨done, fun _ _ => trivial⟩)
    fun front above some short => serves.edits _ (.makeDirectory rfl above some short)).andThen
    (fun _ tree' done => ?_) fun error tree' done => done.1.error
  refine (renamed .record tree').lifted fun answer tree'' done' => ?_
  cases answer with
  | ok => exact .ok (.inr (.ok (done.1.covers.trans done'.of_ok) ()))
  | error error =>
    have covers := done.1.covers.trans (.of_eq done'.of_error)
    dsimp only
    split
    · exact .ok (.inr (.ok covers ()))
    · exact .throw (.inr (.failed covers error))

theorem updateRecord_ends {key : String} {record : Record}
    (records : ∀ format, scene.Formats bucket format →
      footprint.Fills session (bucket.recordPath key) (format.encode record)) :
    Ends scene tree (bucket.updateRecord key record) (footprint.Atomic tree) := by
  refine .live shows ((require_ends shows tree key).look fun _ => ?_)
  exact (writeRecord_ends tree key record records).rough

def Record.Copied (scene : Scene) (session : Session) (bucket : Bucket) (key : String)
    (tree : Tree) (record? : Option Record) (record : Record) : Prop :=
  record? = some record ∨ record? = none ∧ record.Held scene session bucket key tree

theorem copy_command_ends {source target : String} {record? : Option Record}
    (makes : source ≠ target → footprint.Makes session (bucket.payloadPath target))
    (fills : source ≠ target → ∀ bytes, session.Finds (bucket.payloadPath source) tree bytes →
      footprint.Fills session (bucket.payloadPath target) bytes)
    (records : ∀ record, Record.Copied scene session bucket source tree record? record →
      ∀ format, scene.Formats bucket format →
        footprint.Fills session (bucket.recordPath target) (format.encode record)) :
    Ends scene tree (bucket.copy source target record?) (footprint.Atomic tree) := by
  unfold Bucket.copy
  by_cases same : source = target
  · subst same
    rw [if_pos rfl]
    cases record? with
    | some record => exact updateRecord_ends shows tree (records record (.inl rfl))
    | none =>
      refine (require_ends shows tree source).mono fun answer tree' still => ?_
      cases answer with
      | ok => exact .inr (.ok (.of_eq still) ())
      | error error => exact .inl ⟨⟨error, rfl⟩, still⟩
  · rw [if_neg same]
    have written : ∀ reader record, session.Finds (bucket.payloadPath source) tree reader.bytes →
        Record.Copied scene session bucket source tree record? record → Ends scene tree (do
          let _ ← bucket.writePayload session target reader
          bucket.writeRecord session target record : Operation Unit) (footprint.Atomic tree) := by
      intro reader record found copied
      refine (writePayload_ends shows tree target reader (makes same)
        (fills same reader.bytes found)).atomic_bind fun _ tree' => ?_
      exact writeRecord_ends tree' target record (records record copied)
    refine .live shows ((openPayload_ends tree source).andThen (fun reader tree' ⟨still, found⟩ => ?_)
      fun error tree' ⟨still, _⟩ => .inl ⟨⟨error, rfl⟩, still⟩)
    subst still
    cases record? with
    | some record => exact written reader record (found reader rfl) (.inl rfl)
    | none =>
      refine (readRecord_ends tree' source).andThen (fun record later ⟨still, decoded⟩ => ?_)
        fun error later ⟨still, _⟩ => .inl ⟨⟨error, rfl⟩, still⟩
      subst still
      exact written reader record (found reader rfl) (.inr ⟨rfl, decoded record rfl⟩)

theorem clear_ends (serves : footprint.Serves session bucket .clear) :
    Ends scene tree bucket.clear (footprint.Atomic tree) :=
  purge_ends shows bucket.name tree fun _ some plain =>
    ⟨serves.edits _ (.clearFile rfl some plain), serves.edits _ (.clearDirectory rfl some plain)⟩

theorem Command.run_ends (command : Command) (serves : footprint.Serves session bucket command) :
    Ends scene tree (command.run bucket) (footprint.Answered tree) := by
  have makes : ∀ key, command.reach.folders? = some key →
      footprint.Makes session (bucket.payloadPath key) := fun key named front above some short =>
    serves.edits _ (.makeDirectory named above some short)
  have fills : ∀ key part bytes, (key, part) ∈ command.reach.written →
      footprint.Fills session (bucket.path key part) bytes := fun key part bytes named short content _ =>
    serves.edits _ (.write named short content)
  cases command with
  | store key payload record =>
    refine (store_ends shows tree (makes key rfl) (fills key .payload _ ?_)
      fun format _ => fills key .record _ ?_).answered fun _ => rfl
    all_goals simp [Command.reach]
  | delete key force => exact (delete_ends shows tree serves).answered fun _ => rfl
  | rename source target => exact (rename_command_ends shows tree serves).answered fun _ => rfl
  | copy source target record? =>
    refine (copy_command_ends shows tree (fun other => makes target ?_)
      (fun other bytes _ => fills target .payload bytes ?_)
      fun record _ format _ => fills target .record _ ?_).answered fun _ => rfl
    · simp [Command.reach, other]
    · simp [Command.reach, other]
    · by_cases same : source = target <;> simp [Command.reach, same]
  | updateRecord key record =>
    refine (updateRecord_ends shows tree fun format _ => fills key .record _ ?_).answered
      fun _ => rfl
    simp [Command.reach]
  | clear => exact (clear_ends shows tree serves).answered fun _ => rfl
  | _ => exact (Command.looks_still _ rfl).mono fun _ _ still => .of_still still

end Changing

end TreeStore
