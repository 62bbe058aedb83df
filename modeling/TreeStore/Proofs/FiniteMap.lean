import TreeStore.Proofs.Outcome
/-!
A bucket as a finite map. `Objects.step?` says what a command answers and does when objects are
kept in a map and nothing else is there; from its making on a bucket whose calls do not fail answers
every sequence of commands just as the map does (`bucket_is_finite_map`).
-/
namespace TreeStore

open Layout (Part fileNames fileName)
open TreeStore.Path (Plain)

abbrev Objects := SortedMap String (Bytes × Record)

namespace Objects

/-- What a command answers and makes of a map. The size of all objects and their listing are no
questions about the objects of given keys. -/
def step? (objects : Objects) : Command → Option (Answer × Objects)
  | .store key payload record =>
    some (.number (.ok payload.bytes.length), objects.insert key (payload.bytes, record))
  | .delete key force =>
    match objects.find? key with
    | some _ => some (.nothing (.ok ()), objects.erase key)
    | none => some (.nothing (if force then .ok () else .error (.keyNotFound key)), objects)
  | .rename source target =>
    match objects.find? source with
    | some object => some (.nothing (.ok ()), (objects.erase source).insert target object)
    | none => some (.nothing (.error (.keyNotFound source)), objects)
  | .copy source target record? =>
    match objects.find? source with
    | some (bytes, record) =>
      some (.nothing (.ok ()), objects.insert target (bytes, record?.getD record))
    | none => some (.nothing (.error (.keyNotFound source)), objects)
  | .updateRecord key record =>
    match objects.find? key with
    | some (bytes, _) => some (.nothing (.ok ()), objects.insert key (bytes, record))
    | none => some (.nothing (.error (.keyNotFound key)), objects)
  | .clear => some (.nothing (.ok ()), .empty)
  | .contains key => some (.truth (.ok (objects.contains key)), objects)
  | .fetch key sink =>
    match objects.find? key with
    | some (bytes, record) => some (.object (.ok record) (sink.held ++ bytes), objects)
    | none => some (.object (.error (.keyNotFound key)) sink.held, objects)
  | .fetchBytes key =>
    match objects.find? key with
    | some (bytes, record) => some (.bytes (.ok (record, bytes)), objects)
    | none => some (.bytes (.error (.keyNotFound key)), objects)
  | .fetchRecord key =>
    match objects.find? key with
    | some (_, record) => some (.record (.ok record), objects)
    | none => some (.record (.error (.keyNotFound key)), objects)
  | .objectSize key =>
    match objects.find? key with
    | some (bytes, _) => some (.number (.ok bytes.length), objects)
    | none => some (.number (.error (.keyNotFound key)), objects)
  | .totalSize => none
  | .list .. => none

theorem step?_rename_self {objects : Objects} {key : String} {object : Bytes × Record}
    (found : objects.find? key = some object) :
    objects.step? (.rename key key) = some (.nothing (.ok ()), objects) := by
  simp only [step?, found, SortedMap.insert_erase, SortedMap.insert_of_find? found]

theorem step?_copy_self {objects : Objects} {key : String} {object : Bytes × Record}
    (found : objects.find? key = some object) :
    objects.step? (.copy key key none) = some (.nothing (.ok ()), objects) := by
  have same : objects.insert key (object.1, object.2) = objects := SortedMap.insert_of_find? found
  simp only [step?, found, Option.getD_none, same]

def answers? : List Command → Objects → Option (List Answer)
  | [], _ => some []
  | command :: commands, objects => do
    let (answer, objects) ← objects.step? command
    return answer :: (← answers? commands objects)

def files (objects : Objects) (format : RecordFormat) : Files := fun key part =>
  (objects.find? key).map fun object =>
    match part with
    | .payload => object.1
    | .record => format.encode object.2

def Kept (objects : Objects) (format : RecordFormat) : Prop :=
  ∀ key object, objects.find? key = some object → format.Keeps object.2

section Files

variable {objects : Objects} {format : RecordFormat} {key : String} {object : Bytes × Record}

theorem files_of_find? (format : RecordFormat) (found : objects.find? key = some object) :
    objects.files format key .payload = some object.1 ∧
      objects.files format key .record = some (format.encode object.2) := by
  simp [files, found]

theorem files_of_missing (format : RecordFormat) (missing : objects.find? key = none)
    (part : Part) :
    objects.files format key part = none := by
  simp [files, missing]

theorem files_insert (objects : Objects) (format : RecordFormat) (key : String)
    (object : Bytes × Record) : files (objects.insert key object) format =
      ((objects.files format).set key .payload (some object.1)).set key .record
        (some (format.encode object.2)) := by
  funext key' part
  unfold files Files.set
  rw [SortedMap.find?_insert]
  cases part <;> by_cases same : key' = key <;> simp [same]

theorem files_erase (objects : Objects) (format : RecordFormat) (key : String) :
    files (objects.erase key) format =
      ((objects.files format).set key .payload none).set key .record none := by
  funext key' part
  unfold files Files.set
  rw [SortedMap.find?_erase]
  cases part <;> by_cases same : key' = key <;> simp [same]

theorem files_move {source : String} (target : String) (found : objects.find? source = some object) :
    files ((objects.erase source).insert target object) format =
      ((objects.files format).move source target .payload).move source target .record := by
  obtain ⟨payload, recorded⟩ := files_of_find? format found
  have left : ((objects.files format).move source target .payload) source .record =
      some (format.encode object.2) := by
    rw [Files.move_of_held payload, Files.set_other (by simp), Files.set_other (by simp), recorded]
  rw [Files.move_of_held left, Files.move_of_held payload, files_insert, files_erase]
  funext key' part
  unfold Files.set
  cases part <;> by_cases there : key' = target <;> by_cases here : key' = source <;>
    simp [there, here]

theorem kept_empty (format : RecordFormat) : Kept .empty format :=
  fun _ _ found => nomatch found

theorem Kept.insert (kept : objects.Kept format) (keeps : format.Keeps object.2) :
    Kept (objects.insert key object) format := by
  intro key' object' found
  rw [SortedMap.find?_insert] at found
  split at found
  · cases found
    exact keeps
  · exact kept key' object' found

theorem Kept.erase (kept : objects.Kept format) : Kept (objects.erase key) format := by
  intro key' object' found
  rw [SortedMap.find?_erase] at found
  split at found
  · cases found
  · exact kept key' object' found

end Files

end Objects

section Operations

variable {session : Session} {id : ConnectionId} {name key : String} {connection : Connection}
variable {order : Disk.Order} {objects : Objects} {bytes : Bytes} {record : Record}

variable (session id name connection order) in
abbrev Does {α : Type} (objects : Objects) (action : Action α) (answer : α)
    (objects' : Objects) : Prop :=
  Turns (Scene.calm id connection order) session name
    (objects.files connection.settings.format) action answer
    (objects'.files connection.settings.format)

variable (live : connection.slot = some session) (plain : Plain name)

include live plain

theorem contains_does (fits : KeyFits session name key) :
    Does session id name connection order objects (Bucket.contains ⟨id, name⟩ key)
      (.ok (objects.contains key)) objects := by
  have quiet := Scene.calm_quiet id connection order
  have shows : (Scene.calm id connection order).Shows id (some session) :=
    Scene.calm_shows_live live order
  unfold SortedMap.contains
  cases found : objects.find? key with
  | some object =>
    refine .of_runs fun tree stores => ?_
    have there : Disk.find tree (session.resolve (Bucket.path ⟨id, name⟩ key .payload)) = _ :=
      stores.find_held plain (Objects.files_of_find? _ found).1
    exact contains_of_find shows quiet there
  | none =>
    refine .of_runs fun tree stores => ?_
    have nowhere : Disk.find tree (session.resolve (Bucket.path ⟨id, name⟩ key .payload)) = _ :=
      stores.find_absent plain (fits .payload) (Objects.files_of_missing _ found .payload)
    exact contains_of_missing shows quiet nowhere

theorem require_of_missing (fits : KeyFits session name key) (missing : objects.find? key = none) :
    Does session id name connection order objects (Bucket.require ⟨id, name⟩ key)
      (.error (.keyNotFound key)) objects := by
  have asked : Does session id name connection order objects (Bucket.contains ⟨id, name⟩ key)
      (.ok (objects.contains key)) objects := contains_does live plain fits
  rw [SortedMap.contains, missing] at asked
  exact asked.andThen .throw

theorem store_does (fits : KeyFits session name key) {payload : Payload}
    (uncut : payload.cut? = none) (free : payload.fixed? = none) (record : Record) :
    Does session id name connection order objects
      (Bucket.store ⟨id, name⟩ key payload record) (.ok payload.bytes.length)
      (objects.insert key (payload.bytes, record)) := by
  have stream := Payload.stream_of_whole uncut
  have whole : payload.stream.failure? = none := by
    rw [stream]
    rfl
  have stored := @store_turns session id name key connection order
    (objects.files connection.settings.format) payload record plain live fits free whole
  rw [stream] at stored
  unfold Does
  rw [Objects.files_insert]
  exact stored

theorem delete_of_found (fits : KeyFits session name key) {object : Bytes × Record}
    (found : objects.find? key = some object) (force : Bool) :
    Does session id name connection order objects (Bucket.delete ⟨id, name⟩ key force) (.ok ())
      (objects.erase key) := by
  obtain ⟨payload, -⟩ := Objects.files_of_find? connection.settings.format found
  unfold Does
  rw [Objects.files_erase]
  exact delete_turns plain live payload (fits .record) force

theorem delete_of_missing (fits : KeyFits session name key) (missing : objects.find? key = none)
    (force : Bool) :
    Does session id name connection order objects (Bucket.delete ⟨id, name⟩ key force)
      (if force then .ok () else .error (.keyNotFound key)) objects :=
  delete_missing_turns plain live (fits .payload) (Objects.files_of_missing _ missing .payload) force

theorem rename_of_found {source target : String} (fits_source : KeyFits session name source)
    (fits : KeyFits session name target) {object : Bytes × Record}
    (found : objects.find? source = some object) :
    Does session id name connection order objects (Bucket.rename ⟨id, name⟩ source target) (.ok ())
      ((objects.erase source).insert target object) := by
  obtain ⟨payload, -⟩ := Objects.files_of_find? connection.settings.format found
  unfold Does
  rw [Objects.files_move target found]
  exact rename_turns plain live payload (fits_source .record) fits

theorem rename_of_missing {source : String} (fits : KeyFits session name source)
    (missing : objects.find? source = none) (target : String) :
    Does session id name connection order objects (Bucket.rename ⟨id, name⟩ source target)
      (.error (.keyNotFound source)) objects :=
  .live (Scene.calm_shows_live live order) (require_of_missing live plain fits missing).fails

theorem updateRecord_of_found (fits : KeyFits session name key) {object : Bytes × Record}
    (found : objects.find? key = some object) (record : Record) :
    Does session id name connection order objects (Bucket.updateRecord ⟨id, name⟩ key record)
      (.ok ()) (objects.insert key (object.1, record)) := by
  obtain ⟨payload, -⟩ := Objects.files_of_find? connection.settings.format found
  have same : (objects.files connection.settings.format).set key .payload (some object.1) =
      objects.files connection.settings.format := by
    rw [← payload, Files.set_self]
  unfold Does
  rw [Objects.files_insert, same]
  exact updateRecord_turns plain live payload (fits .record)

theorem updateRecord_of_missing (fits : KeyFits session name key)
    (missing : objects.find? key = none) (record : Record) :
    Does session id name connection order objects (Bucket.updateRecord ⟨id, name⟩ key record)
      (.error (.keyNotFound key)) objects :=
  .live (Scene.calm_shows_live live order) (require_of_missing live plain fits missing).fails

theorem copy_of_found {source target : String} (fits : KeyFits session name target)
    {object : Bytes × Record}
    (found : objects.find? source = some object)
    (keeps : connection.settings.format.Keeps object.2) (record? : Option Record) :
    Does session id name connection order objects
      (Bucket.copy ⟨id, name⟩ source target record?) (.ok ())
      (objects.insert target (object.1, record?.getD object.2)) := by
  obtain ⟨payload, recorded⟩ := Objects.files_of_find? connection.settings.format found
  unfold Bucket.copy
  by_cases same : source = target
  · subst same
    rw [if_pos rfl]
    cases record? with
    | some record => exact updateRecord_of_found live plain fits found record
    | none =>
      have unchanged : objects.insert source (object.1, object.2) = objects :=
        SortedMap.insert_of_find? found
      rw [Option.getD_none, unchanged]
      exact require_of_held plain live payload
  · rw [if_neg same]
    unfold Does
    rw [Objects.files_insert]
    refine .live (Scene.calm_shows_live live order) ((openPayload_of_held plain payload).andThen ?_)
    cases record? with
    | some record => exact copied_turns plain live fits
    | none => exact (readRecord_of_held plain recorded keeps).andThen (copied_turns plain live fits)

theorem copy_of_missing {source : String} (fits : KeyFits session name source)
    (missing : objects.find? source = none) (target : String) (record? : Option Record) :
    Does session id name connection order objects
      (Bucket.copy ⟨id, name⟩ source target record?) (.error (.keyNotFound source)) objects := by
  unfold Bucket.copy
  by_cases same : source = target
  · rw [if_pos same]
    cases record? with
    | some record => exact updateRecord_of_missing live plain fits missing record
    | none => exact require_of_missing live plain fits missing
  · rw [if_neg same]
    refine .live (Scene.calm_shows_live live order) ?_
    exact (openPayload_of_absent plain (fits .payload)
      (Objects.files_of_missing _ missing .payload)).fails

theorem clear_does :
    Does session id name connection order objects (Bucket.clear ⟨id, name⟩) (.ok ()) .empty :=
  purge_turns live plain

theorem fetchRecord_of_found {object : Bytes × Record} (found : objects.find? key = some object)
    (keeps : connection.settings.format.Keeps object.2) :
    Does session id name connection order objects (Bucket.fetchRecord ⟨id, name⟩ key)
      (.ok object.2) objects :=
  .live (Scene.calm_shows_live live order)
    (readRecord_of_held plain (Objects.files_of_find? _ found).2 keeps)

theorem fetchRecord_of_missing (fits : KeyFits session name key)
    (missing : objects.find? key = none) :
    Does session id name connection order objects (Bucket.fetchRecord ⟨id, name⟩ key)
      (.error (.keyNotFound key)) objects :=
  .live (Scene.calm_shows_live live order) (readRecord_of_absent plain (fits .record)
    (Objects.files_of_missing _ missing .record))

theorem objectSize_of_found {object : Bytes × Record} (found : objects.find? key = some object) :
    Does session id name connection order objects (Bucket.objectSize ⟨id, name⟩ key)
      (.ok object.1.length) objects :=
  objectSize_of_held live plain (Objects.files_of_find? connection.settings.format found).1

theorem objectSize_of_missing (fits : KeyFits session name key)
    (missing : objects.find? key = none) :
    Does session id name connection order objects (Bucket.objectSize ⟨id, name⟩ key)
      (.error (.keyNotFound key)) objects := by
  have quiet := Scene.calm_quiet id connection order
  have absent := Objects.files_of_missing connection.settings.format missing .payload
  refine .live (Scene.calm_shows_live live order) ?_
  exact (stat_of_absent quiet plain (fits .payload) absent).lifted (Turns.fails .throw)

theorem fetch_of_found {object : Bytes × Record} (found : objects.find? key = some object)
    (keeps : connection.settings.format.Keeps object.2) {sink : Sink} (uncut : sink.cut? = none) :
    Does session id name connection order objects (Bucket.fetch ⟨id, name⟩ key sink)
      (.ok object.2, sink.held ++ object.1) objects := by
  obtain ⟨payload, recorded⟩ := Objects.files_of_find? connection.settings.format found
  have opens : Does session id name connection order objects (do
      let session ← Bucket.session ⟨id, name⟩
      return (session, ← Bucket.openPayload ⟨id, name⟩ session key) : Operation (Session × Source))
      (.ok (session, .ofBytes object.1)) objects :=
    .live (Scene.calm_shows_live live order) ((openPayload_of_held plain payload).andThen .ok)
  apply opens.bind
  dsimp only
  rw [uncut]
  refine .bind (.of_runs fun _ _ => pour_of_whole _) ?_
  exact (readRecord_of_held plain recorded keeps).bind .pure

theorem fetch_of_missing (fits : KeyFits session name key) (missing : objects.find? key = none)
    (sink : Sink) :
    Does session id name connection order objects (Bucket.fetch ⟨id, name⟩ key sink)
      (.error (.keyNotFound key), sink.held) objects :=
  .of_runs fun _ stores => fetch_of_nothing live (stores.find_absent plain (fits .payload)
    (Objects.files_of_missing _ missing .payload)) sink

theorem fetchBytes_of_found {object : Bytes × Record} (found : objects.find? key = some object)
    (keeps : connection.settings.format.Keeps object.2) :
    Does session id name connection order objects (Bucket.fetchBytes ⟨id, name⟩ key)
      (.ok (object.2, object.1)) objects := by
  have fetched : Does session id name connection order objects (Bucket.fetch ⟨id, name⟩ key {})
      (.ok object.2, [] ++ object.1) objects := fetch_of_found live plain found keeps rfl
  exact fetched.lifted .ok

theorem fetchBytes_of_missing (fits : KeyFits session name key)
    (missing : objects.find? key = none) :
    Does session id name connection order objects (Bucket.fetchBytes ⟨id, name⟩ key)
      (.error (.keyNotFound key)) objects :=
  (fetch_of_missing live plain fits missing {}).lifted .throw

end Operations

/-- The disk takes the keys of the command, the format keeps its record, and its streams do not
break off. -/
def Command.Within (session : Session) (name : String) (format : RecordFormat) : Command → Prop
  | store key payload record =>
    KeyFits session name key ∧ payload.cut? = none ∧ payload.fixed? = none ∧ format.Keeps record
  | delete key _ => KeyFits session name key
  | rename source target => KeyFits session name source ∧ KeyFits session name target
  | copy source target record? =>
    KeyFits session name source ∧ KeyFits session name target ∧
      ∀ record, record? = some record → format.Keeps record
  | updateRecord key record => KeyFits session name key ∧ format.Keeps record
  | clear => True
  | contains key => KeyFits session name key
  | fetch key sink => KeyFits session name key ∧ sink.cut? = none
  | fetchBytes key => KeyFits session name key
  | fetchRecord key => KeyFits session name key
  | objectSize key => KeyFits session name key
  | totalSize => False
  | list .. => False

section Runs

variable {session : Session} {id : ConnectionId} {name : String} {connection : Connection}
variable {order : Disk.Order} {objects : Objects}

variable (session id name connection order) in
/-- The map and the bucket answer the command alike, and stay in step. -/
def Agrees (objects : Objects) (command : Command) : Prop :=
  ∃ answer objects', objects.step? command = some (answer, objects') ∧
    Does session id name connection order objects (command.run ⟨id, name⟩) answer objects' ∧
    objects'.Kept connection.settings.format

theorem Objects.Kept.getD {format : RecordFormat} {key : String} {object : Bytes × Record}
    (kept : objects.Kept format) (found : objects.find? key = some object) {record? : Option Record}
    (given : ∀ record, record? = some record → format.Keeps record) :
    format.Keeps (record?.getD object.2) := by
  cases record? with
  | none => exact kept key object found
  | some record => exact given record rfl

theorem agrees (live : connection.slot = some session) (plain : Plain name)
    (kept : objects.Kept connection.settings.format) (command : Command)
    (within : command.Within session name connection.settings.format) :
    Agrees session id name connection order objects command := by
  cases command with
  | store key payload record =>
    obtain ⟨fits, uncut, free, keeps⟩ := within
    exact ⟨_, _, rfl, (store_does live plain fits uncut free record).map, kept.insert keeps⟩
  | delete key force =>
    cases found : objects.find? key with
    | some object =>
      refine ⟨_, _, ?_, (delete_of_found live plain within found force).map, kept.erase⟩
      simp only [Objects.step?, found]
    | none =>
      refine ⟨_, _, ?_, (delete_of_missing live plain within found force).map, kept⟩
      simp only [Objects.step?, found]
  | rename source target =>
    cases found : objects.find? source with
    | some object =>
      refine ⟨_, _, ?_, (rename_of_found live plain within.1 within.2 found).map,
        kept.erase.insert (kept source object found)⟩
      simp only [Objects.step?, found]
    | none =>
      refine ⟨_, _, ?_, (rename_of_missing live plain within.1 found target).map, kept⟩
      simp only [Objects.step?, found]
  | copy source target record? =>
    obtain ⟨fits, fits', given⟩ := within
    cases found : objects.find? source with
    | some object =>
      have keeps := kept source object found
      refine ⟨_, _, ?_, (copy_of_found live plain fits' found keeps record?).map,
        kept.insert (kept.getD found given)⟩
      simp only [Objects.step?, found]
    | none =>
      refine ⟨_, _, ?_, (copy_of_missing live plain fits found target record?).map, kept⟩
      simp only [Objects.step?, found]
  | updateRecord key record =>
    cases found : objects.find? key with
    | some object =>
      refine ⟨_, _, ?_, (updateRecord_of_found live plain within.1 found record).map,
        kept.insert within.2⟩
      simp only [Objects.step?, found]
    | none =>
      refine ⟨_, _, ?_, (updateRecord_of_missing live plain within.1 found record).map, kept⟩
      simp only [Objects.step?, found]
  | clear =>
    exact ⟨_, _, rfl, (clear_does live plain).map, Objects.kept_empty _⟩
  | contains key => exact ⟨_, _, rfl, (contains_does live plain within).map, kept⟩
  | fetch key sink =>
    cases found : objects.find? key with
    | some object =>
      have keeps := kept key object found
      refine ⟨_, _, ?_, (fetch_of_found live plain found keeps within.2).map, kept⟩
      simp only [Objects.step?, found]
    | none =>
      refine ⟨_, _, ?_, (fetch_of_missing live plain within.1 found sink).map, kept⟩
      simp only [Objects.step?, found]
  | fetchBytes key =>
    cases found : objects.find? key with
    | some object =>
      refine ⟨_, _, ?_, (fetchBytes_of_found live plain found (kept key object found)).map, kept⟩
      simp only [Objects.step?, found]
    | none =>
      refine ⟨_, _, ?_, (fetchBytes_of_missing live plain within found).map, kept⟩
      simp only [Objects.step?, found]
  | fetchRecord key =>
    cases found : objects.find? key with
    | some object =>
      refine ⟨_, _, ?_, (fetchRecord_of_found live plain found (kept key object found)).map, kept⟩
      simp only [Objects.step?, found]
    | none =>
      refine ⟨_, _, ?_, (fetchRecord_of_missing live plain within found).map, kept⟩
      simp only [Objects.step?, found]
  | objectSize key =>
    cases found : objects.find? key with
    | some object =>
      refine ⟨_, _, ?_, (objectSize_of_found live plain found).map, kept⟩
      simp only [Objects.step?, found]
    | none =>
      refine ⟨_, _, ?_, (objectSize_of_missing live plain within found).map, kept⟩
      simp only [Objects.step?, found]
  | totalSize => exact within.elim
  | list start limit? => exact within.elim

/-- One command after another, the map and the bucket stay in step. -/
theorem run_agrees (live : connection.slot = some session) (plain : Plain name)
    (commands : List Command)
    (within : ∀ command ∈ commands, command.Within session name connection.settings.format)
    (kept : objects.Kept connection.settings.format) :
    ∃ answers objects', Objects.answers? commands objects = some answers ∧
      Does session id name connection order objects (commands.mapM (Command.run ⟨id, name⟩))
        answers objects' := by
  induction commands generalizing objects with
  | nil => exact ⟨[], objects, rfl, .pure⟩
  | cons command commands ih =>
    obtain ⟨answer, objects', step, does, kept'⟩ :=
      agrees live plain kept command (within command (by simp))
    obtain ⟨answers, objects'', rest, follows⟩ :=
      ih (fun other mem => within other (List.mem_cons_of_mem _ mem)) kept'
    refine ⟨answer :: answers, objects'', ?_, ?_⟩
    · rw [Objects.answers?, step]
      simp only [Option.bind_eq_bind, Option.bind_some, rest]
      rfl
    · rw [List.mapM_cons]
      exact does.bind (follows.bind .pure)

end Runs

/-- A bucket is a finite map. From its making on, and while no rule makes a call fail, it answers
every sequence of commands as the map does that is empty at first. -/
theorem bucket_is_finite_map (bucket : Bucket) (session : Session) (connection : Connection)
    (site : Site) (wf : site.disk.WellFormed) (plain : Plain bucket.name)
    (made : (bucket.connection.createBucket bucket.name site).1 = .ok bucket)
    (known : site.connections[bucket.connection.index]? = some connection)
    (live : connection.slot = some session) (commands : List Command)
    (within : ∀ command ∈ commands,
      command.Within session bucket.name connection.settings.format) :
    Objects.answers? commands .empty = some (commands.mapM (Command.run bucket)
      ((bucket.connection.createBucket bucket.name site).2.withRules [] [])).1 := by
  obtain ⟨id, name⟩ := bucket
  dsimp only at plain made known within ⊢
  have known' := (directory_of_made made known live).1
  have stores := stores_of_made made known live wf plain
  generalize (id.createBucket name site).2 = start at known' stores
  have calm : (Scene.calm id connection start.order).holds (start.withRules [] []) :=
    ⟨rfl, rfl, known', rfl⟩
  have kept := Objects.kept_empty connection.settings.format
  obtain ⟨answers, objects, asked, does⟩ :=
    @run_agrees session id name connection start.order .empty live plain commands within kept
  rw [asked, ((does start.disk stores).run _ calm rfl).2.1]

theorem renamed_object_is_fetched :
    let bucket : Bucket := ⟨⟨0⟩, "b"⟩
    let record : Record := SortedMap.empty.insert "x" (.int 3)
    let commands := [Command.store "k" { bytes := [7] } record, .rename "k" "s3ql_data_1",
      .fetchBytes "s3ql_data_1", .contains "k"]
    let made := (ConnectionId.createBucket ⟨0⟩ "b" (Site.connected "/" SortedMap.empty)).2
    (commands.mapM (Command.run bucket) (made.withRules [] [])).1 = [.number (.ok 1),
      .nothing (.ok ()), .bytes (.ok (record, [7])), .truth (.ok false)] := by
  intro bucket record commands made
  have asked : Objects.answers? commands .empty = some [.number (.ok 1), .nothing (.ok ()),
      .bytes (.ok (record, [7])), .truth (.ok false)] := rfl
  have plain : Plain bucket.name := by decide
  have created : (bucket.connection.createBucket bucket.name
      (Site.connected "/" SortedMap.empty)).1 = .ok bucket := by decide +kernel
  have first : KeyFits ⟨0, "/"⟩ "b" "k" := fun part => by
    cases part <;> exact ⟨by decide +kernel, by unfold Disk.Reaches; decide +kernel⟩
  have second : KeyFits ⟨0, "/"⟩ "b" "s3ql_data_1" := fun part => by
    cases part <;> exact ⟨by decide +kernel, by unfold Disk.Reaches; decide +kernel⟩
  have whole : record.FloatFree := fun field mem bits eq => by
    obtain rfl := List.mem_singleton.1 mem
    cases eq
  have within : ∀ command ∈ commands, command.Within ⟨0, "/"⟩ bucket.name .json := by
    simp only [commands, List.forall_mem_cons]
    exact ⟨⟨first, rfl, rfl, whole⟩, ⟨first, second⟩, second, first, by simp⟩
  have same := bucket_is_finite_map bucket ⟨0, "/"⟩ ⟨{}, some ⟨0, "/"⟩⟩
    (Site.connected "/" SortedMap.empty) Tree.wellFormed_empty plain created rfl rfl commands within
  exact Option.some_inj.1 (same.symm.trans asked)

end TreeStore
