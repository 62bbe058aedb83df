import TreeStore.Proofs.Files
import TreeStore.Proofs.Parents
import TreeStore.Proofs.Retried
/-!
Storing where nothing fails, from any state of the tree that leaves room for the two files of a key.
Whatever an earlier failure has left in their places is replaced, and of the directories above them
those are made that are missing (`store_plays`).
-/
namespace TreeStore

open Layout (Part fileNames fileName)
open TreeStore.Path (Plain)

/-- Both files of a key can be written, once the directories above them are there. -/
structure Session.Receives (session : Session) (tree : Tree) (name key : String) : Prop where
  wellFormed : tree.WellFormed
  seated : session.Seated tree
  plain : Plain name
  fits : KeyFits session name key
  no_file : session.Open tree (name :: Layout.folders key)
  free : ∀ part, tree.node? (session.place (fileNames name key part)) ≠ some .directory

/-- What a store makes of a tree: both files are whole, the directories above them are there, and no
other place has changed. -/
structure Session.Stored (session : Session) (name key : String) (content record : Bytes)
    (before after : Tree) : Prop where
  payload : after.find? (session.place (fileNames name key .payload)) = some (.file content)
  record : after.find? (session.place (fileNames name key .record)) = some (.file record)
  folders : ∀ front, front <+: name :: Layout.folders key →
    after.node? (session.place front) = some .directory
  kept : ∀ place, (∀ part, place ≠ session.place (fileNames name key part)) →
    (∀ front ∈ session.missing before [] (name :: Layout.folders key),
      place ≠ session.place front) → after.find? place = before.find? place

/-- What a store notes of the payload, which is opened, and of the directories above it. -/
structure Session.Enters (session : Session) (tree : Tree) (name key : String)
    (events : List Event) : Prop where
  /-- One call for each directory that is missing, the outermost first. -/
  made : events.filter (fun event => event.call.kind = .makeDirectory) =
    (session.missing tree [] (name :: Layout.folders key)).map session.made
  once : tree.node? (session.place (name :: Layout.folders key)) = some .directory →
    events.countP (·.call.opens (Layout.payloadPath name key)) = 1 ∧
      ∀ event ∈ events, event.call.kind ≠ .makeDirectory
  twice : tree.node? (session.place (name :: Layout.folders key)) = none →
    events.countP (·.call.opens (Layout.payloadPath name key)) = 2

instance (session : Session) (tree : Tree) (name key : String) :
    Decidable (session.Receives tree name key) :=
  decidable_of_iff (tree.WellFormed ∧ session.Seated tree ∧ Plain name ∧
      KeyFits session name key ∧ session.Open tree (name :: Layout.folders key) ∧
      tree.node? (session.place (fileNames name key .payload)) ≠ some .directory ∧
      tree.node? (session.place (fileNames name key .record)) ≠ some .directory)
    ⟨fun ⟨wf, seated, plain, fits, no_file, payload, record⟩ =>
      ⟨wf, seated, plain, fits, no_file, fun
        | .payload => payload
        | .record => record⟩,
    fun receives => ⟨receives.wellFormed, receives.seated, receives.plain, receives.fits,
      receives.no_file, receives.free .payload, receives.free .record⟩⟩

def Session.wrote (session : Session) (name key : String) (part : Part)
    (failure? : Option CallError) : Event :=
  ⟨session.number, .openFile .write (Path.ofNames (fileNames name key part)), failure?⟩

def Session.entering (session : Session) (tree : Tree) (name key : String) : List Event :=
  match tree.node? (session.place (name :: Layout.folders key)) with
  | some _ => [session.wrote name key .payload none]
  | none =>
    session.wrote name key .payload (some
        (.ofIo (Path.ofNames (fileNames name key .payload)) (.ofSystem .noEntry))) ::
      ((Path.fronts [] (name :: Layout.folders key)).flatMap (session.sought tree) ++
        [session.wrote name key .payload none])

section Trees

variable {session : Session} {tree : Tree} {name key : String} {part : Part}

theorem Session.Receives.passable (receives : session.Receives tree name key) :
    session.Passable tree (name :: Layout.folders key) where
  wellFormed := receives.wellFormed
  seated := receives.seated
  plain _ mem := Layout.plain_of_mem_path receives.plain mem
  fits := (receives.fits .payload).front
    (fun _ mem => Layout.plain_of_mem_path receives.plain mem)
    fun _ mem => List.mem_singleton.1 mem ▸ Layout.plain_fileName key .payload
  no_file := receives.no_file

theorem find?_file_of_grown (session : Session) (tree : Tree) (name key : String) (part : Part) :
    (session.grown tree (session.missing tree [] (name :: Layout.folders key))).find?
        (session.place (fileNames name key part)) =
      tree.find? (session.place (fileNames name key part)) := by
  rw [Session.find?_grown, if_neg]
  intro made
  obtain ⟨front, mem, same⟩ := List.mem_map.1 made
  obtain ⟨more, -, above, rfl⟩ := Path.mem_fronts.1 (List.mem_of_mem_filter mem)
  exact Layout.fileNames_not_prefix_folders name name key key part
    (Session.place_inj.1 same ▸ above)

namespace Session.Receives

theorem way (receives : session.Receives tree name key) (part : Part) :
    session.Way tree (name :: Layout.folders key) (fileName key part) where
  wellFormed := receives.wellFormed
  seated := receives.seated
  plain := receives.passable.plain
  plain_last := Layout.plain_fileName key part
  fits := receives.fits part

theorem grown (receives : session.Receives tree name key) :
    session.Receives (session.grown tree (session.missing tree [] (name :: Layout.folders key)))
        name key ∧
      (session.grown tree (session.missing tree [] (name :: Layout.folders key))).node?
        (session.place (name :: Layout.folders key)) = some .directory := by
  obtain ⟨passable, folder⟩ := receives.passable.grown (receives.seated.top receives.wellFormed)
  refine ⟨⟨passable.wellFormed, passable.seated, receives.plain, receives.fits, passable.no_file,
    fun part => ?_⟩, folder⟩
  have free := receives.free part
  rw [Tree.node?_of_ne_nil _ Stores.place_ne_nil] at free ⊢
  rwa [find?_file_of_grown]

theorem put (receives : session.Receives tree name key)
    (folder : tree.node? (session.place (name :: Layout.folders key)) = some .directory)
    (part : Part) (content : Bytes) :
    session.Receives (SortedMap.insert tree (session.place (fileNames name key part))
        (.file content)) name key ∧
      Tree.node? (SortedMap.insert tree (session.place (fileNames name key part)) (.file content))
        (session.place (name :: Layout.folders key)) = some .directory := by
  have beside : ¬ fileNames name key part <+: name :: Layout.folders key :=
    Layout.fileNames_not_prefix_folders name name key key part
  have passable : session.Passable (SortedMap.insert tree
      (session.place (fileNames name key part)) (.file content)) (name :: Layout.folders key) :=
    receives.passable.insert (Layout.plain_fileName key part) folder
      (.inr ⟨receives.free part, beside⟩)
  refine ⟨⟨passable.wellFormed, passable.seated, receives.plain, receives.fits, passable.no_file,
    fun part' => ?_⟩, ?_⟩
  · rw [Tree.node?_insert _ Stores.place_ne_nil]
    split
    · simp
    · exact receives.free part'
  · rw [Tree.node?_insert _ Stores.place_ne_nil, if_neg, folder]
    exact fun same => beside (Session.place_inj.1 same ▸ List.prefix_rfl)

theorem stored (receives : session.Receives tree name key) (content record : Bytes) :
    session.Stored name key content record tree (SortedMap.insert (SortedMap.insert
        (session.grown tree (session.missing tree [] (name :: Layout.folders key)))
        (session.place (fileNames name key .payload)) (.file content))
      (session.place (fileNames name key .record)) (.file record)) := by
  have apart : session.place (fileNames name key .payload) ≠
      session.place (fileNames name key .record) := by
    rw [Ne, Stores.place_inj]
    simp
  obtain ⟨receives', folder'⟩ := receives.grown
  obtain ⟨receives'', folder''⟩ := receives'.put folder' .payload content
  obtain ⟨after, folder⟩ := receives''.put folder'' .record record
  refine ⟨?_, ?_, fun front above => after.passable.directory_above folder above,
    fun place beside above => ?_⟩
  · rw [SortedMap.find?_insert, if_neg apart, SortedMap.find?_insert, if_pos rfl]
  · rw [SortedMap.find?_insert, if_pos rfl]
  · rw [SortedMap.find?_insert, if_neg (beside .record), SortedMap.find?_insert,
      if_neg (beside .payload), Session.find?_grown, if_neg]
    intro made
    obtain ⟨front, mem, same⟩ := List.mem_map.1 made
    exact above front mem same.symm

end Session.Receives

@[simp] theorem Session.kind_wrote {failure? : Option CallError} :
    (session.wrote name key part failure?).call.kind = .openFile .write := rfl

theorem Session.opens_wrote {failure? : Option CallError} :
    (session.wrote name key part failure?).call.opens (Layout.payloadPath name key) =
      decide (part = .payload) := by
  have path : Path.ofNames (fileNames name key part) =
      Layout.place name key ++ part.suffix := (Layout.place_append_suffix name key part).symm
  rw [Session.wrote, path]
  refine decide_eq_decide.2 ?_
  cases part with
  | payload => exact ⟨fun _ => rfl, fun _ => rfl⟩
  | record =>
    refine ⟨fun same => ?_, fun same => nomatch same⟩
    exact absurd same.symm (Layout.payloadPath_ne_recordPath _ _ _ _)

theorem Session.Receives.enters (receives : session.Receives tree name key) :
    session.Enters tree name key
      (session.entering tree name key ++ [session.wrote name key .record none]) := by
  have passable := receives.passable
  cases found : tree.node? (session.place (name :: Layout.folders key)) with
  | some node =>
    have folder := passable.directory_of_node List.prefix_rfl found
    rw [Session.entering, found]
    refine ⟨?_, fun _ => ⟨?_, ?_⟩, fun absent => ?_⟩
    · rw [passable.missing_of_directory folder]
      rfl
    · simp [Session.opens_wrote]
    · simp
    · rw [folder] at absent
      cases absent
  | none =>
    rw [Session.entering, found]
    refine ⟨?_, fun folder => ?_, fun _ => ?_⟩
    · simp [Session.filter_sought, Session.missing]
    · rw [found] at folder
      cases folder
    · simp [Session.opens_wrote, Session.countP_sought]

end Trees

section Storing

variable {scene : Scene} {session : Session} {id : ConnectionId} {name key : String} {part : Part}
variable {tree : Tree} {connection : Connection} {order : Disk.Order}

theorem openWrite_plays (quiet : scene.Quiet) (receives : session.Receives tree name key)
    (folder : tree.node? (session.place (name :: Layout.folders key)) = some .directory)
    (part : Part) :
    Plays scene tree (session.openWrite (Path.ofNames (fileNames name key part)))
      (.ok (opened session name key part))
      (SortedMap.insert tree (session.place (fileNames name key part)) (.file []))
      (· = [session.wrote name key part none]) :=
  .single (openWrite_of_ok quiet ((receives.way part).openWrite_of_free folder
    (receives.free part))) (openWrite_single session _) rfl

theorem copy_plays (content : Bytes) :
    Plays scene (SortedMap.insert tree (session.place (fileNames name key part)) (.file []))
      ((opened session name key part).copy (.ofBytes content)) (.ok content.length)
      (SortedMap.insert tree (session.place (fileNames name key part)) (.file content))
      (· = []) := by
  have empty : SortedMap.find? (SortedMap.insert tree (session.place (fileNames name key part))
      (.file [])) (session.place (fileNames name key part)) = some (.file []) := by
    rw [SortedMap.find?_insert, if_pos rfl]
  have appended := Disk.append_of_file empty content
  rw [SortedMap.insert_insert, List.nil_append] at appended
  rw [← appended]
  exact .silent (copy_of_whole rfl (.ofBytes content)) (copy_silent _ _) rfl

theorem shutdown_plays :
    Plays scene tree (opened session name key part).shutdown (.ok ()) tree (· = []) :=
  .silent (shutdown_of_whole rfl) (shutdown_silent _) rfl

/-- Where the directories are missing, the first attempt fails and they are made before the
second. -/
theorem enter_plays (quiet : scene.Quiet) (shows : scene.Shows id (some session))
    (receives : session.Receives tree name key) :
    Plays scene tree (Bucket.withDirectories ⟨id, name⟩ (Bucket.payloadPath ⟨id, name⟩ key)
        (session.openWrite (Bucket.payloadPath ⟨id, name⟩ key)))
      (.ok (opened session name key .payload))
      (SortedMap.insert
        (session.grown tree (session.missing tree [] (name :: Layout.folders key)))
        (session.place (fileNames name key .payload)) (.file []))
      (· = session.entering tree name key) := by
  have passable := receives.passable
  have path : Bucket.payloadPath ⟨id, name⟩ key = Path.ofNames (fileNames name key .payload) :=
    path_eq id name key .payload
  unfold Bucket.withDirectories Session.entering
  rw [path]
  cases found : tree.node? (session.place (name :: Layout.folders key)) with
  | some node =>
    have folder := passable.directory_of_node List.prefix_rfl found
    rw [passable.missing_of_directory folder]
    refine (openWrite_plays quiet receives folder .payload).lifted fun events eq =>
      .ok ⟨⟨rfl, rfl⟩, ?_⟩
    rw [eq, List.append_nil]
  | none =>
    -- The call fails because its folder is missing, which is made before the second attempt.
    have refused : Plays scene tree
        (session.openWrite (Path.ofNames (fileNames name key .payload))) _ tree
        (· = [session.wrote name key .payload (some
          (.ofIo (Path.ofNames (fileNames name key .payload)) (.ofSystem .noEntry)))]) :=
      .single (openWrite_of_error quiet
        ((receives.way .payload).openWrite_of_missing receives.no_file found))
        (openWrite_single session _) rfl
    refine refused.lifted fun events eq => ?_
    dsimp only
    have known : (CallError.ofIo (Path.ofNames (fileNames name key .payload))
        (.ofSystem .noEntry)).isNotFound = true := rfl
    rw [if_pos known]
    have parts := components_parent receives.plain id key
    rw [path] at parts
    refine (makeDirectories_plays quiet shows parts passable found).andThen fun events' eq' => ?_
    obtain ⟨receives', folder⟩ := receives.grown
    refine (openWrite_plays quiet receives' folder .payload).lifted
      fun events'' eq'' => .ok ⟨⟨rfl, rfl⟩, ?_⟩
    rw [eq, eq', eq'', List.append_nil, List.singleton_append]

theorem writePayload_plays (quiet : scene.Quiet) (shows : scene.Shows id (some session))
    (receives : session.Receives tree name key) (content : Bytes) :
    Plays scene tree (Bucket.writePayload ⟨id, name⟩ session key (.ofBytes content))
      (.ok content.length)
      (SortedMap.insert
        (session.grown tree (session.missing tree [] (name :: Layout.folders key)))
        (session.place (fileNames name key .payload)) (.file content))
      (· = session.entering tree name key) := by
  refine (enter_plays quiet shows receives).andThen fun events eq => ?_
  refine (copy_plays content).streamed fun copying none => ?_
  refine shutdown_plays.streamed fun closing none' => .ok ⟨⟨rfl, rfl⟩, ?_⟩
  rw [eq, none, none']
  simp

theorem writeRecord_plays (receives : session.Receives tree name key)
    (folder : tree.node? (session.place (name :: Layout.folders key)) = some .directory)
    (record : Record) :
    Plays (Scene.calm id connection order) tree (Bucket.writeRecord ⟨id, name⟩ session key record)
      (.ok ()) (SortedMap.insert tree (session.place (fileNames name key .record))
        (.file (connection.settings.format.encode record)))
      (· = [session.wrote name key .record none]) := by
  have quiet := Scene.calm_quiet id connection order
  have path : Bucket.recordPath ⟨id, name⟩ key = Path.ofNames (fileNames name key .record) :=
    path_eq id name key .record
  have formatted : Plays (Scene.calm id connection order) tree (Bucket.format ⟨id, name⟩)
      connection.settings.format tree (· = []) := .silent format_runs (format_silent _) rfl
  unfold Bucket.writeRecord
  rw [path]
  refine formatted.lifted fun events eq => ?_
  refine (openWrite_plays quiet receives folder .record).transported fun events' eq' => ?_
  refine (copy_plays _).streamed fun copying none => ?_
  refine shutdown_plays.lifted fun closing none' => .ok ⟨⟨rfl, rfl⟩, ?_⟩
  rw [eq, eq', none, none']
  rfl

/-- The directories that are missing are made, and the two files are written anew. -/
theorem store_plays (live : connection.slot = some session)
    (receives : session.Receives tree name key) {payload : Payload}
    (free : payload.fixed? = none) (whole : payload.cut? = none) (record : Record) :
    ∃ tree', session.Stored name key payload.bytes (connection.settings.format.encode record)
        tree tree' ∧
      Plays (Scene.calm id connection order) tree (Bucket.store ⟨id, name⟩ key payload record)
        (.ok payload.bytes.length) tree'
        (· = session.entering tree name key ++ [session.wrote name key .record none]) := by
  have quiet := Scene.calm_quiet id connection order
  have shows : (Scene.calm id connection order).Shows id (some session) :=
    Scene.calm_shows_live live order
  have rewound : payload.rewind = .ok { payload with position := 0 } := by
    rw [Payload.rewind, free]
  have source : Payload.source { payload with position := 0 } = .ofBytes payload.bytes := by
    rw [Payload.source_of_rewind rewound, whole]
    rfl
  obtain ⟨receives', folder'⟩ := receives.grown
  obtain ⟨receives'', folder''⟩ := receives'.put folder' .payload payload.bytes
  refine ⟨_, receives.stored _ _, .live shows ?_⟩
  rw [rewound]
  have stream : Plays (Scene.calm id connection order) tree
      (Operation.streamed (Bucket.payloadPath ⟨id, name⟩ key)
        (.ok { payload with position := 0 })) (.ok { payload with position := 0 }) tree (· = []) :=
    .ok rfl
  refine stream.andThen fun events none => ?_
  rw [source]
  refine (writePayload_plays quiet shows receives payload.bytes).andThen fun events' eq => ?_
  refine (writeRecord_plays receives'' folder'' record).andThen fun events'' eq' => ?_
  exact .ok ⟨⟨rfl, rfl⟩, by rw [none, eq, eq']; simp⟩

end Storing

/-- While the root of the session stands, a store without a fault heals whatever state the two files
of a key are in, unless a directory lies where they should be or a file where a directory should. It
makes exactly the directories that are missing above them: if none is, the payload is opened once,
and if any is, it is opened again after they have been made. Whatever fails, neither a store nor a
copy opens the payload more than twice, and a rename moves it at most twice; a second attempt comes
only after the first has found something missing and a directory has been made. -/
theorem store_heals (bucket : Bucket) (key : String) (site : Site) :
    (∀ (session : Session) (connection : Connection) (payload : Payload) (record : Record),
      site.connections[bucket.connection.index]? = some connection →
      connection.slot = some session → session.Receives site.disk bucket.name key →
      payload.fixed? = none → payload.cut? = none →
      let ended := bucket.store key payload record (site.withRules [] [])
      ended.1 = .ok payload.bytes.length ∧
        session.Stored bucket.name key payload.bytes (connection.settings.format.encode record)
          site.disk ended.2.disk ∧
        ∃ events, ended.2.log = site.log ++ events ∧
          session.Enters site.disk bucket.name key events) ∧
    (∀ payload record, Retries (.openFile .write (bucket.payloadPath key))
      (bucket.store key payload record)) ∧
    (∀ source record?, Retries (.openFile .write (bucket.payloadPath key))
      (bucket.copy source key record?)) ∧
    ∀ source, Retries (.rename (bucket.payloadPath source) (bucket.payloadPath key))
      (bucket.rename source key) := by
  refine ⟨fun session connection payload record known live receives free whole => ?_,
    store_retries bucket key, fun source => copy_retries bucket source key,
    fun source => rename_retries bucket source key⟩
  intro ended
  obtain ⟨later, stored, plays⟩ :=
    @store_plays session bucket.connection bucket.name key site.disk connection site.order live
      receives payload free whole record
  obtain ⟨-, events, log, ⟨answered, left⟩, eq⟩ :=
    plays.run (site.withRules [] []) ⟨rfl, rfl, known, rfl⟩ rfl
  refine ⟨answered, ?_, events, log, ?_⟩
  · exact left ▸ stored
  · exact eq ▸ receives.enters

/-- An earlier store has left a torn payload under another key, and no directory for this one. -/
theorem missing_shard_is_made :
    let bucket : Bucket := ⟨⟨0⟩, "b"⟩
    let session : Session := ⟨0, "/"⟩
    let key := "s3ql_data_12345"
    let site := Site.connected "/" (SortedMap.ofList [(["b"], .directory),
      (["b", "s3ql_data"], .directory), (["b", "s3ql_data", "s3ql_data_1.dat"], .file [7])])
    let ended := bucket.store key { bytes := [7, 8], position := 1 } SortedMap.empty
      (site.withRules [] [])
    session.Receives site.disk bucket.name key ∧ ended.1 = .ok 2 ∧
      ended.2.disk.find? ["b", "s3ql_data", "123", "s3ql_data_12345.dat"] = some (.file [7, 8]) ∧
      ∃ events, ended.2.log = site.log ++ events ∧
        events.filter (fun event => event.call.kind = .makeDirectory) =
          [⟨0, .makeDirectory "b/s3ql_data/123", none⟩] ∧
        events.countP (·.call.opens (bucket.payloadPath key)) = 2 := by
  intro bucket session key site ended
  have receives : session.Receives site.disk bucket.name key := by decide +kernel
  have absent : site.disk.node? (session.place (bucket.name :: Layout.folders key)) = none := by
    decide +kernel
  have place : session.place (fileNames bucket.name key .payload) =
      ["b", "s3ql_data", "123", "s3ql_data_12345.dat"] := by decide +kernel
  have missing : (session.missing site.disk [] (bucket.name :: Layout.folders key)).map
      session.made = [⟨0, .makeDirectory "b/s3ql_data/123", none⟩] := by decide +kernel
  have known : site.connections[bucket.connection.index]? = some ⟨{}, some session⟩ := rfl
  clear_value site
  obtain ⟨answered, stored, events, log, enters⟩ := (store_heals bucket key site).1 session
    ⟨{}, some session⟩ { bytes := [7, 8], position := 1 } SortedMap.empty known rfl receives rfl rfl
  refine ⟨receives, answered, ?_, events, log, ?_, enters.twice absent⟩
  · rw [← place]
    exact stored.payload
  · rw [enters.made, missing]

end TreeStore
