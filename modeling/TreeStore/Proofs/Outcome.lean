import TreeStore.Proofs.Emptying
import TreeStore.Proofs.Refused
/-!
How the commands of a bucket can end where no rule makes anything fail, for keys of any length. The
answer of a command and the files it leaves are known from the files that it finds
(`Command.leaves`).
-/
namespace TreeStore

open Layout (fileNames)
open TreeStore.Path (Plain)

def Payload.stream (payload : Payload) : Source :=
  (Disk.Source.ofBytes payload.bytes).cut payload.cut?

theorem Payload.stream_of_whole {payload : Payload} (uncut : payload.cut? = none) :
    payload.stream = .ofBytes payload.bytes := by
  rw [stream, uncut]
  rfl

section Operations

variable {session : Session} {id : ConnectionId} {name key source target : String}
variable {connection : Connection} {order : Disk.Order} {files : Files} {content : Bytes}
variable {payload : Payload} {record : Record} (plain : Plain name)

include plain

theorem openPayload_fails (missing : files key .payload = none) :
    Fails (Scene.calm id connection order) session name files
      (Bucket.openPayload ⟨id, name⟩ session key) files :=
  (openRead_fails plain missing).lifted fun _ => .throw ⟨⟨_, rfl⟩, rfl⟩

theorem readRecord_fails (missing : files key .record = none) :
    Fails (Scene.calm id connection order) session name files
      (Bucket.readRecord ⟨id, name⟩ session key) files :=
  (openRead_fails plain missing).lifted fun _ =>
    Fails.first (.throw ⟨⟨_, rfl⟩, rfl⟩) fun error => ⟨⟨error, rfl⟩, rfl⟩

theorem writeRecord_fails (unfit : ¬ Disk.Fits session (fileNames name key .record)) :
    Fails (Scene.calm id connection order) session name files
      (Bucket.writeRecord ⟨id, name⟩ session key record) files := by
  intro tree stores
  refine format_runs.lifted ((openWrite_fails plain unfit).lifted (fun error => ?_) tree stores)
  exact Fails.first (.throw ⟨⟨_, rfl⟩, rfl⟩) fun error => ⟨⟨error, rfl⟩, rfl⟩

variable (live : connection.slot = some session)

include live

theorem require_of_held (present : files key .payload = some content) :
    Turns (Scene.calm id connection order) session name files (Bucket.require ⟨id, name⟩ key)
      (.ok ()) files := by
  have asked : Turns (Scene.calm id connection order) session name files
      (Bucket.contains ⟨id, name⟩ key) (.ok true) files :=
    .of_runs fun tree stores => contains_of_holds stores.shaped plain
      (Scene.calm_quiet id connection order) (Scene.calm_shows_live live order)
      ⟨content, stores.held present⟩
  exact asked.andThen .ok

theorem writePayload_fails (unfit : ¬ Disk.Fits session (fileNames name key .payload))
    (stream : Source) :
    Fails (Scene.calm id connection order) session name files
      (Bucket.writePayload ⟨id, name⟩ session key stream) files :=
  (withDirectories_fails plain (Scene.calm_shows_live live order)
    (openWrite_fails plain unfit)).first fun error => ⟨⟨error, rfl⟩, rfl⟩

theorem store_turns (fits : KeyFits session name key) (free : payload.fixed? = none)
    (whole : payload.stream.failure? = none) :
    Turns (Scene.calm id connection order) session name files
      (Bucket.store ⟨id, name⟩ key payload record) (.ok payload.stream.bytes.length)
      ((files.set key .payload (some payload.stream.bytes)).set key .record
        (some (connection.settings.format.encode record))) := by
  have rewound : payload.rewind = .ok { payload with position := 0 } := by
    rw [Payload.rewind, free]
  have written := @writePayload_turns session id name key connection order files live plain
    (fits .payload) payload.stream
  rw [Disk.Source.answer, whole] at written
  refine .live (Scene.calm_shows_live live order) ?_
  rw [rewound]
  refine .andThen .ok ?_
  rw [Payload.source_of_rewind rewound]
  refine written.andThen ?_
  exact (writeRecord_turns plain (fits .record) Files.set_same record).andThen .ok

/-- A payload that breaks off, or a record whose path does not fit, is found out too late. -/
theorem store_halfway (fits : Disk.Fits session (fileNames name key .payload))
    (free : payload.fixed? = none) (why : payload.stream.failure? ≠ none ∨
      ¬ Disk.Fits session (fileNames name key .record)) :
    Fails (Scene.calm id connection order) session name files
      (Bucket.store ⟨id, name⟩ key payload record)
      (files.set key .payload (some payload.stream.bytes)) := by
  have rewound : payload.rewind = .ok { payload with position := 0 } := by
    rw [Payload.rewind, free]
  have written := @writePayload_turns session id name key connection order files live plain
    fits payload.stream
  refine .live (Scene.calm_shows_live live order) ?_
  rw [rewound]
  refine Turns.yields_next .ok ?_
  rw [Payload.source_of_rewind rewound]
  rw [Disk.Source.answer] at written
  cases broken : payload.stream.failure? with
  | some error =>
    rw [broken] at written
    exact Fails.first (written.yields ⟨⟨_, rfl⟩, rfl⟩) fun error => ⟨⟨error, rfl⟩, rfl⟩
  | none =>
    rw [broken] at written
    refine written.yields_next ?_
    exact (writeRecord_fails plain (why.resolve_left (· broken))).first fun error =>
      ⟨⟨error, rfl⟩, rfl⟩

theorem store_fails (why : payload.fixed? ≠ none ∨
      ¬ Disk.Fits session (fileNames name key .payload)) :
    Fails (Scene.calm id connection order) session name files
      (Bucket.store ⟨id, name⟩ key payload record) files := by
  refine .live (Scene.calm_shows_live live order) ?_
  cases fixed : payload.fixed? with
  | some error =>
    rw [Payload.rewind, fixed]
    exact Fails.first (.throw ⟨⟨_, rfl⟩, rfl⟩) fun error => ⟨⟨error, rfl⟩, rfl⟩
  | none =>
    rw [Payload.rewind, fixed]
    refine Turns.yields_next .ok ?_
    exact (writePayload_fails plain live (why.resolve_left (· fixed)) _).first fun error =>
      ⟨⟨error, rfl⟩, rfl⟩

theorem delete_turns (present : files key .payload = some content)
    (fits : Disk.Fits session (fileNames name key .record)) (force : Bool) :
    Turns (Scene.calm id connection order) session name files
      (Bucket.delete ⟨id, name⟩ key force) (.ok ())
      ((files.set key .payload none).set key .record none) := by
  have quiet := Scene.calm_quiet id connection order
  refine .live (Scene.calm_shows_live live order) ?_
  refine (removeFile_of_held quiet plain present).lifted ?_
  cases recorded : (files.set key .payload none) key .record with
  | some bytes => exact (removeFile_of_held quiet plain recorded).lifted .ok
  | none =>
    refine (removeFile_of_absent quiet plain fits recorded).lifted ?_
    rw [Files.set_of_absent recorded]
    exact .ok

theorem delete_missing_turns (fits : Disk.Fits session (fileNames name key .payload))
    (missing : files key .payload = none) (force : Bool) :
    Turns (Scene.calm id connection order) session name files
      (Bucket.delete ⟨id, name⟩ key force)
      (if force then .ok () else .error (.keyNotFound key)) files := by
  refine .live (Scene.calm_shows_live live order) ?_
  refine (removeFile_of_absent (Scene.calm_quiet id connection order) plain fits missing).lifted ?_
  cases force with
  | true => exact .ok
  | false => exact .throw

theorem delete_of_unfit (present : files key .payload = some content)
    (missing : files key .record = none) (force : Bool) :
    Yields (Scene.calm id connection order) session name files
      (Bucket.delete ⟨id, name⟩ key force) fun _ later =>
        later = (files.set key .payload none).set key .record none := by
  have recorded : (files.set key .payload none) key .record = none := by
    rw [Files.set_other (by simp), missing]
  refine .live (Scene.calm_shows_live live order) fun tree stores => ?_
  refine (removeFile_of_held (Scene.calm_quiet id connection order) plain present tree
    stores).lifted fun result later ⟨eq, stores'⟩ => ?_
  subst eq
  refine Fails.lifted (removeFile_fails plain recorded) (fun error => ?_) later stores'
  dsimp only
  split
  · exact .ok (Files.set_of_absent recorded).symm
  · exact .throw (Files.set_of_absent recorded).symm

theorem delete_of_absent (missing : files key .payload = none) (force : Bool) :
    Yields (Scene.calm id connection order) session name files
      (Bucket.delete ⟨id, name⟩ key force) fun result later =>
        later = files ∧ (result = .ok () → force = true) := by
  refine .live (Scene.calm_shows_live live order) ?_
  refine (removeFile_fails plain missing).lifted fun error => ?_
  dsimp only
  split
  case isTrue forced =>
    exact .ok ⟨rfl, fun _ => (Bool.and_eq_true_iff.1 forced).2⟩
  case isFalse => exact .throw ⟨rfl, fun eq => nomatch eq⟩

theorem rename_payload_turns (present : files source .payload = some content)
    (fits : Disk.Fits session (fileNames name target .payload)) :
    Turns (Scene.calm id connection order) session name files
      (Bucket.withDirectories ⟨id, name⟩ (Bucket.payloadPath ⟨id, name⟩ target)
        (session.rename (Bucket.path ⟨id, name⟩ source .payload)
          (Bucket.path ⟨id, name⟩ target .payload))) (.ok ())
      (files.move source target .payload) := by
  have quiet := Scene.calm_quiet id connection order
  refine withDirectories_turns quiet (Scene.calm_shows_live live order) plain fits
    (fun tree stores no_folder => ?_) fun tree stores folder => ?_
  · exact ⟨_, rfl, rename_of_no_folder quiet plain stores present fits no_folder⟩
  · exact rename_of_folder quiet plain stores present fits folder

theorem rename_turns (present : files source .payload = some content)
    (here : Disk.Fits session (fileNames name source .record))
    (there : KeyFits session name target) :
    Turns (Scene.calm id connection order) session name files
      (Bucket.rename ⟨id, name⟩ source target) (.ok ())
      ((files.move source target .payload).move source target .record) := by
  have quiet := Scene.calm_quiet id connection order
  refine .live (Scene.calm_shows_live live order) ?_
  refine (require_of_held plain live present).andThen ?_
  refine (rename_payload_turns plain live present (there .payload)).andThen ?_
  have arrived : files.move source target .payload target .payload = some content := by
    rw [Files.move_of_held present, Files.set_same]
  generalize files.move source target .payload = between at arrived ⊢
  cases recorded : between source .record with
  | some bytes =>
    have followed : Turns (Scene.calm id connection order) session name between
        (session.rename (Bucket.path ⟨id, name⟩ source .record)
          (Bucket.path ⟨id, name⟩ target .record)) (.ok ()) (between.move source target .record) :=
      fun tree stores => rename_of_folder quiet plain stores recorded (there .record)
        (stores.folder arrived)
    exact followed.lifted .ok
  | none =>
    rw [Files.move_of_absent recorded]
    exact (rename_of_absent quiet plain here (there .record) recorded).lifted .ok

theorem rename_halfway (present : files source .payload = some content)
    (fits : Disk.Fits session (fileNames name target .payload))
    (why : files source .record = none ∨ ¬ Disk.Fits session (fileNames name target .record)) :
    Yields (Scene.calm id connection order) session name files
      (Bucket.rename ⟨id, name⟩ source target) fun _ later =>
        later = files.move source target .payload := by
  have left : files.move source target .payload source .record = files source .record := by
    rw [Files.move_of_held present, Files.set_other (by simp), Files.set_other (by simp)]
  rw [← left] at why
  refine .live (Scene.calm_shows_live live order) ?_
  refine (require_of_held plain live present).yields_next ?_
  refine (rename_payload_turns plain live present fits).yields_next ?_
  refine (rename_fails plain why).lifted fun error => ?_
  dsimp only
  split
  · exact .ok rfl
  · exact .throw rfl

theorem rename_refused (why : files source .payload = none ∨
      ¬ Disk.Fits session (fileNames name target .payload)) :
    Fails (Scene.calm id connection order) session name files
      (Bucket.rename ⟨id, name⟩ source target) files := by
  have shows : (Scene.calm id connection order).Shows id (some session) :=
    Scene.calm_shows_live live order
  refine .live shows ?_
  cases present : files source .payload with
  | none => exact (require_fails plain shows present).first fun error => ⟨⟨error, rfl⟩, rfl⟩
  | some content =>
    have moved : Fails (Scene.calm id connection order) session name files
        (session.rename (Bucket.path ⟨id, name⟩ source .payload)
          (Bucket.path ⟨id, name⟩ target .payload)) files := rename_fails plain why
    refine (require_of_held plain live present).yields_next ?_
    exact (withDirectories_fails plain shows moved).first fun error => ⟨⟨error, rfl⟩, rfl⟩

theorem updateRecord_turns (present : files key .payload = some content)
    (fits : Disk.Fits session (fileNames name key .record)) :
    Turns (Scene.calm id connection order) session name files
      (Bucket.updateRecord ⟨id, name⟩ key record) (.ok ())
      (files.set key .record (some (connection.settings.format.encode record))) :=
  .live (Scene.calm_shows_live live order) ((require_of_held plain live present).andThen
    (writeRecord_turns plain fits present record))

theorem updateRecord_fails (why : files key .payload = none ∨
      ¬ Disk.Fits session (fileNames name key .record)) :
    Fails (Scene.calm id connection order) session name files
      (Bucket.updateRecord ⟨id, name⟩ key record) files := by
  have shows : (Scene.calm id connection order).Shows id (some session) :=
    Scene.calm_shows_live live order
  refine .live shows ?_
  cases present : files key .payload with
  | none => exact (require_fails plain shows present).first fun error => ⟨⟨error, rfl⟩, rfl⟩
  | some content =>
    refine (require_of_held plain live present).yields_next (writeRecord_fails plain ?_)
    exact why.resolve_left (by rw [present]; simp)

theorem copied_turns (fits : KeyFits session name target) :
    Turns (Scene.calm id connection order) session name files (do
        let _ ← Bucket.writePayload ⟨id, name⟩ session target (.ofBytes content)
        Bucket.writeRecord ⟨id, name⟩ session target record : Operation Unit) (.ok ())
      ((files.set target .payload (some content)).set target .record
        (some (connection.settings.format.encode record))) :=
  (writePayload_turns live plain (fits .payload) (.ofBytes content)).andThen
    (writeRecord_turns plain (fits .record) Files.set_same record)

theorem copied_halfway (edge : OnEdge session name target) :
    Fails (Scene.calm id connection order) session name files (do
        let _ ← Bucket.writePayload ⟨id, name⟩ session target (.ofBytes content)
        Bucket.writeRecord ⟨id, name⟩ session target record : Operation Unit)
      (files.set target .payload (some content)) :=
  (writePayload_turns live plain edge.1 (.ofBytes content)).yields_next
    (writeRecord_fails plain ((onEdge_iff plain).1 edge).2)

end Operations

def Files.Lends (files : Files) (format : RecordFormat) (source : String) (record? : Option Record)
    (record : Record) : Prop :=
  match record? with
  | some given => record = given
  | .none => ∃ bytes, files source .record = some bytes ∧ format.decode bytes = .ok record

/-- How a command can end where no rule makes anything fail: its answer, and the files it leaves of
those it has found. -/
inductive Command.Leaves (session : Session) (name : String) (format : RecordFormat)
    (files : Files) : Command → Answer → Files → Prop
  | looked {command : Command} {answer : Answer} (looks : command.looks = true) :
      Leaves session name format files command answer files
  /-- It fails before anything is done. -/
  | refused {command : Command} {answer : Answer} (failed : answer.error?.isSome) :
      Leaves session name format files command answer files
  | stored {key : String} {payload : Payload} {record : Record} :
      Leaves session name format files (.store key payload record)
        (.number (.ok payload.stream.bytes.length))
        ((files.set key .payload (some payload.stream.bytes)).set key .record
          (some (format.encode record)))
  | storedHalfway {key : String} {payload : Payload} {record : Record} {error : StoreError}
      (why : payload.stream.failure? ≠ none ∨ OnEdge session name key) :
      Leaves session name format files (.store key payload record) (.number (.error error))
        (files.set key .payload (some payload.stream.bytes))
  | deleted {key : String} {force : Bool} {result : Except StoreError Unit}
      (present : files key .payload ≠ none) :
      Leaves session name format files (.delete key force) (.nothing result)
        ((files.set key .payload none).set key .record none)
  /-- A record without a payload is not looked for. -/
  | spared {key : String} (missing : files key .payload = none) :
      Leaves session name format files (.delete key true) (.nothing (.ok ())) files
  | renamed {source target : String} (present : files source .payload ≠ none) :
      Leaves session name format files (.rename source target) (.nothing (.ok ()))
        ((files.move source target .payload).move source target .record)
  | renamedHalfway {source target : String} {result : Except StoreError Unit}
      (present : files source .payload ≠ none)
      (edge : OnEdge session name source ∧ files source .record = none ∨
        OnEdge session name target) :
      Leaves session name format files (.rename source target) (.nothing result)
        (files.move source target .payload)
  | updated {key : String} {record : Record} (present : files key .payload ≠ none) :
      Leaves session name format files (.updateRecord key record) (.nothing (.ok ()))
        (files.set key .record (some (format.encode record)))
  | copied {source target : String} {record? : Option Record} {content : Bytes} {record : Record}
      (present : files source .payload = some content)
      (lends : files.Lends format source record? record) :
      Leaves session name format files (.copy source target record?) (.nothing (.ok ()))
        ((files.set target .payload (some content)).set target .record
          (some (format.encode record)))
  | copiedHalfway {source target : String} {record? : Option Record} {content : Bytes}
      {error : StoreError} (present : files source .payload = some content)
      (edge : OnEdge session name target) :
      Leaves session name format files (.copy source target record?) (.nothing (.error error))
        (files.set target .payload (some content))
  | kept {key : String} (present : files key .payload ≠ none) :
      Leaves session name format files (.copy key key none) (.nothing (.ok ())) files
  | cleared : Leaves session name format files .clear (.nothing (.ok ())) Files.none

section Leaves

variable {session : Session} {id : ConnectionId} {name : String} {connection : Connection}
variable {order : Disk.Order} {files : Files} (live : connection.slot = some session)
variable (plain : Plain name)

include live plain

theorem store_leaves (key : String) (payload : Payload) (record : Record) :
    Yields (Scene.calm id connection order) session name files
      (Bucket.store ⟨id, name⟩ key payload record) fun result later =>
        Command.Leaves session name connection.settings.format files (.store key payload record)
          (.number result) later := by
  by_cases fixed : payload.fixed? = none
  case neg => exact (store_fails plain live (.inl fixed)).yields fun _ => .refused rfl
  by_cases fits : Disk.Fits session (fileNames name key .payload)
  case neg => exact (store_fails plain live (.inr fits)).yields fun _ => .refused rfl
  by_cases whole : payload.stream.failure? = none
  case neg =>
    exact (store_halfway plain live fits fixed (.inl whole)).yields fun _ =>
      .storedHalfway (.inl whole)
  by_cases fits' : Disk.Fits session (fileNames name key .record)
  case neg =>
    exact (store_halfway plain live fits fixed (.inr fits')).yields fun _ =>
      .storedHalfway (.inr ((onEdge_iff plain).2 ⟨fits, fits'⟩))
  exact (store_turns plain live (keyFits_iff.2 ⟨fits, fits'⟩) fixed whole).yields .stored

theorem delete_leaves (key : String) (force : Bool) :
    Yields (Scene.calm id connection order) session name files
      (Bucket.delete ⟨id, name⟩ key force) fun result later =>
        Command.Leaves session name connection.settings.format files (.delete key force)
          (.nothing result) later := by
  intro tree stores
  cases present : files key .payload with
  | none =>
    refine (delete_of_absent plain live present force).mono
      (fun result later ⟨same, forced⟩ => ?_) tree stores
    rw [same]
    cases result with
    | error error => exact .refused rfl
    | ok =>
      rw [forced rfl]
      exact .spared present
  | some content =>
    have some : files key .payload ≠ none := by
      rw [present]
      simp
    cases recorded : files key .record with
    | none =>
      refine (delete_of_unfit plain live present recorded force).mono (fun result later same => ?_)
        tree stores
      rw [same]
      exact .deleted some
    | some bytes =>
      exact (delete_turns plain live present (stores.fits recorded) force).yields (.deleted some)
        tree stores

theorem rename_leaves (source target : String) :
    Yields (Scene.calm id connection order) session name files
      (Bucket.rename ⟨id, name⟩ source target) fun result later =>
        Command.Leaves session name connection.settings.format files (.rename source target)
          (.nothing result) later := by
  intro tree stores
  cases present : files source .payload with
  | none => exact (rename_refused plain live (.inl present)).yields (fun _ => .refused rfl) tree stores
  | some content =>
    have some : files source .payload ≠ none := by
      rw [present]
      simp
    by_cases fits : Disk.Fits session (fileNames name target .payload)
    case neg =>
      exact (rename_refused plain live (.inr fits)).yields (fun _ => .refused rfl) tree stores
    by_cases here : Disk.Fits session (fileNames name source .record)
    case neg =>
      -- No record can be at the source, and the call fails without a word on that.
      have missing : files source .record = none := by
        cases recorded : files source .record with
        | none => rfl
        | some bytes => exact absurd (stores.fits recorded) here
      have edge := (onEdge_iff plain).2 ⟨stores.fits present, here⟩
      refine (rename_halfway plain live present fits (.inl missing)).mono
        (fun result later same => ?_) tree stores
      rw [same]
      exact .renamedHalfway some (.inl ⟨edge, missing⟩)
    by_cases there : Disk.Fits session (fileNames name target .record)
    case neg =>
      have edge := (onEdge_iff plain).2 ⟨fits, there⟩
      refine (rename_halfway plain live present fits (.inr there)).mono
        (fun result later same => ?_) tree stores
      rw [same]
      exact .renamedHalfway some (.inr edge)
    exact (rename_turns plain live present here (keyFits_iff.2 ⟨fits, there⟩)).yields
      (.renamed some) tree stores

theorem updateRecord_leaves (key : String) (record : Record) :
    Yields (Scene.calm id connection order) session name files
      (Bucket.updateRecord ⟨id, name⟩ key record) fun result later =>
        (result = .ok () ∧ files key .payload ≠ none ∧ later =
          files.set key .record (some (connection.settings.format.encode record))) ∨
        (∃ error, result = .error error) ∧ later = files := by
  cases present : files key .payload with
  | none => exact (updateRecord_fails plain live (.inl present)).mono fun _ _ done => .inr done
  | some content =>
    by_cases fits : Disk.Fits session (fileNames name key .record)
    · exact (updateRecord_turns plain live present fits).yields (.inl ⟨rfl, by simp, rfl⟩)
    · exact (updateRecord_fails plain live (.inr fits)).mono fun _ _ done => .inr done

theorem copied_leaves {source target : String} {record? : Option Record} {content : Bytes}
    {record : Record} (present : files source .payload = some content)
    (lends : files.Lends connection.settings.format source record? record) :
    Yields (Scene.calm id connection order) session name files (do
        let _ ← Bucket.writePayload ⟨id, name⟩ session target (.ofBytes content)
        Bucket.writeRecord ⟨id, name⟩ session target record : Operation Unit) fun result later =>
      Command.Leaves session name connection.settings.format files (.copy source target record?)
        (.nothing result) later := by
  by_cases fits : Disk.Fits session (fileNames name target .payload)
  case neg => exact (writePayload_fails plain live fits _).first fun _ => .refused rfl
  by_cases fits' : Disk.Fits session (fileNames name target .record)
  case neg =>
    have edge := (onEdge_iff plain).2 ⟨fits, fits'⟩
    exact (copied_halfway plain live edge).yields fun _ => .copiedHalfway present edge
  exact (copied_turns plain live (keyFits_iff.2 ⟨fits, fits'⟩)).yields (.copied present lends)

theorem copy_leaves (source target : String) (record? : Option Record) :
    Yields (Scene.calm id connection order) session name files
      (Bucket.copy ⟨id, name⟩ source target record?) fun result later =>
        Command.Leaves session name connection.settings.format files (.copy source target record?)
          (.nothing result) later := by
  have shows : (Scene.calm id connection order).Shows id (some session) :=
    Scene.calm_shows_live live order
  unfold Bucket.copy
  by_cases same : source = target
  · subst same
    rw [if_pos rfl]
    cases record? with
    | some record =>
      refine (updateRecord_leaves live plain source record).mono fun result later done => ?_
      rcases done with ⟨rfl, some, rfl⟩ | ⟨⟨error, rfl⟩, rfl⟩
      · obtain ⟨content, present⟩ := Option.ne_none_iff_exists'.1 some
        have copied : Command.Leaves session name connection.settings.format files
            (.copy source source (.some record)) (.nothing (.ok ())) _ := .copied present rfl
        rwa [← present, Files.set_self] at copied
      · exact .refused rfl
    | none =>
      cases present : files source .payload with
      | none => exact (require_fails plain shows present).yields fun _ => .refused rfl
      | some content =>
        exact (require_of_held plain live present).yields (.kept (by rw [present]; simp))
  · rw [if_neg same]
    refine .live shows ?_
    cases present : files source .payload with
    | none => exact (openPayload_fails plain present).first fun _ => .refused rfl
    | some content =>
      refine (openPayload_of_held plain present).yields_next ?_
      cases record? with
      | some record => exact copied_leaves live plain present rfl
      | none =>
        cases recorded : files source .record with
        | none => exact (readRecord_fails plain recorded).first fun _ => .refused rfl
        | some bytes =>
          have read : Turns (Scene.calm id connection order) session name files
              (Bucket.readRecord ⟨id, name⟩ session source) _ files := readRecord_turns plain recorded
          cases decoded : connection.settings.format.decode bytes with
          | error error =>
            rw [decoded] at read
            exact Fails.first (read.yields ⟨⟨_, rfl⟩, rfl⟩) fun _ => .refused rfl
          | ok record =>
            rw [decoded] at read
            exact read.yields_next (copied_leaves live plain present ⟨bytes, recorded, decoded⟩)

theorem Command.leaves (command : Command) :
    Yields (Scene.calm id connection order) session name files (command.run ⟨id, name⟩)
      (command.Leaves session name connection.settings.format files) := by
  have looking : ∀ command : Command, command.looks = true →
      Yields (Scene.calm id connection order) session name files (command.run ⟨id, name⟩)
        (command.Leaves session name connection.settings.format files) :=
    fun command looks tree stores => (command.looks_still looks).mono fun _ _ same =>
      ⟨files, same ▸ stores, .looked looks⟩
  cases command with
  | store key payload record => exact (store_leaves live plain key payload record).map
  | delete key force => exact (delete_leaves live plain key force).map
  | rename source target => exact (rename_leaves live plain source target).map
  | copy source target record? => exact (copy_leaves live plain source target record?).map
  | updateRecord key record =>
    refine Yields.map ((updateRecord_leaves live plain key record).mono fun result later done => ?_)
    rcases done with ⟨rfl, some, rfl⟩ | ⟨⟨error, rfl⟩, rfl⟩
    · exact .updated some
    · exact .refused rfl
  | clear => exact Yields.map ((purge_turns live plain).yields .cleared)
  | _ => exact looking _ rfl

end Leaves

end TreeStore
