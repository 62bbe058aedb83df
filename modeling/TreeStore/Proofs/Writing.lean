import TreeStore.Proofs.Files
import TreeStore.Proofs.Parents
import TreeStore.Proofs.Written
/-!
Putting objects into a bucket where no rule makes anything fail: the folders of a key are made when
they are missing, and its two files are written and read back whole.
-/
namespace TreeStore

open Layout (Part fileNames fileName)
open TreeStore.Path (Plain)

section Folders

variable {scene : Scene} {session : Session} {id : ConnectionId} {name key : String} {part : Part}
variable {files : Files} {tree : Tree} (quiet : scene.Quiet)
variable (shows : scene.Shows id (some session)) (plain : Plain name)

include plain in
theorem Stores.passable (stores : Stores session name tree files)
    (fits : Disk.Fits session (fileNames name key part)) :
    session.Passable tree (name :: Layout.folders key) where
  wellFormed := stores.shaped.wellFormed
  seated := stores.shaped.seated_in
  plain _ mem := Layout.plain_of_mem_path plain mem
  fits := fits.front (fun _ mem => Layout.plain_of_mem_path plain mem)
    fun _ mem => List.mem_singleton.1 mem ▸ Layout.plain_fileName key part
  no_file := stores.shaped.open_of_folders List.prefix_rfl

theorem Stores.grown (stores : Stores session name tree files) {front rest : List String}
    (whole : front ++ rest = Layout.folders key)
    (passable : session.Passable tree (name :: Layout.folders key))
    (parent : IsFolder session name tree front) :
    Stores session name (session.grown tree (session.missing tree (name :: front) rest)) files := by
  induction rest generalizing front tree with
  | nil => exact stores
  | cons last rest ih =>
    have whole' : front ++ [last] ++ rest = Layout.folders key := by simpa using whole
    have above : name :: front ++ [last] <+: name :: Layout.folders key := ⟨rest, by simp [whole]⟩
    cases found : tree.node? (session.place (name :: front ++ [last])) with
    | some node =>
      rw [Session.missing_of_some found]
      exact ih stores whole' passable (passable.directory_of_node above found)
    | none =>
      have way := passable.way above
      rw [Session.missing_of_none found]
      refine ih (stores.make ⟨rest, whole'⟩ way.fits parent) whole'
        (passable.insert way.plain_last parent (.inl rfl)) ?_
      exact (Tree.node?_insert _ (Session.place_cons_ne_nil _ _ _) _ _).trans (if_pos rfl)

include quiet shows plain

theorem makeDirectories_folders (fits : Disk.Fits session (fileNames name key part))
    (stores : Stores session name tree files)
    (no_folder : tree.node? (session.place (name :: Layout.folders key)) = none) :
    Ends scene tree (id.makeDirectories (Path.parent (Bucket.payloadPath ⟨id, name⟩ key)))
      fun answer later => answer = .ok () ∧ Stores session name later files ∧
        IsFolder session name later (Layout.folders key) := by
  have passable := stores.passable plain fits
  have root := stores.shaped.seated_in.top stores.shaped.wellFormed
  have all : session.missing tree [] (name :: Layout.folders key) =
      session.missing tree [name] (Layout.folders key) := Session.missing_of_some stores.shaped.top
  have made := makeDirectories_plays quiet shows (components_parent plain id key) passable no_folder
  refine made.ends.mono fun answer later ⟨_, ⟨eq, same⟩, _⟩ => ?_
  rw [same]
  refine ⟨eq, ?_, (passable.grown root).2⟩
  rw [all]
  exact stores.grown (List.nil_append _) passable stores.shaped.top

theorem withDirectories_turns {α : Type} {call : Action (Except CallError α)} {value : α}
    {files' : Files} (fits : Disk.Fits session (fileNames name key part))
    (missing : ∀ tree, Stores session name tree files →
      tree.node? (session.place (name :: Layout.folders key)) = none →
      ∃ error : CallError, error.isNotFound = true ∧ Runs scene tree call (.error error) tree)
    (there : ∀ tree, Stores session name tree files →
      IsFolder session name tree (Layout.folders key) → Ends scene tree call fun result later =>
        result = .ok value ∧ Stores session name later files') :
    Turns scene session name files
      (Bucket.withDirectories ⟨id, name⟩ (Bucket.payloadPath ⟨id, name⟩ key) call) (.ok value)
      files' := by
  intro tree stores
  unfold Bucket.withDirectories
  cases found : tree.node? (session.place (name :: Layout.folders key)) with
  | some node =>
    cases node with
    | file content =>
      exact absurd found (stores.shaped.open_of_folders (List.prefix_refl _) _ List.prefix_rfl _)
    | directory =>
      refine (there tree stores found).lifted fun result later ⟨eq, stores'⟩ => ?_
      subst eq
      exact .ok ⟨rfl, stores'⟩
  | none =>
    obtain ⟨error, known, failed⟩ := missing tree stores found
    apply failed.lifted
    dsimp only
    rw [if_pos known]
    refine (makeDirectories_folders quiet shows plain fits stores found).andThen
      (fun _ later' ⟨_, stores', folder⟩ => ?_) fun _ _ ⟨eq, _⟩ => nomatch eq
    refine (there later' stores' folder).lifted fun result later'' ⟨eq, stores''⟩ => ?_
    subst eq
    exact .ok ⟨rfl, stores''⟩

end Folders

section Objects

variable {session : Session} {id : ConnectionId} {name key : String} {connection : Connection}
variable {order : Disk.Order} {files : Files} {content : Bytes} {record : Record}

theorem format_of_calm (name : String) :
    Turns (Scene.calm id connection order) session name files (Bucket.format ⟨id, name⟩)
      connection.settings.format files := by
  exact .of_runs fun _ _ => format_runs

variable (live : connection.slot = some session) (plain : Plain name)

include plain

theorem openPayload_of_held (present : files key .payload = some content) :
    Turns (Scene.calm id connection order) session name files
      (Bucket.openPayload ⟨id, name⟩ session key) (.ok (.ofBytes content)) files :=
  (openRead_of_held (Scene.calm_quiet id connection order) plain present).lifted .ok

theorem openPayload_of_absent (fits : Disk.Fits session (fileNames name key .payload))
    (missing : files key .payload = none) :
    Turns (Scene.calm id connection order) session name files
      (Bucket.openPayload ⟨id, name⟩ session key) (.error (.keyNotFound key)) files :=
  .of_runs fun _ stores => openPayload_of_nothing (stores.find_absent plain fits missing)

theorem readRecord_of_absent (fits : Disk.Fits session (fileNames name key .record))
    (missing : files key .record = none) :
    Turns (Scene.calm id connection order) session name files
      (Bucket.readRecord ⟨id, name⟩ session key) (.error (.keyNotFound key)) files :=
  .of_runs fun _ stores => readRecord_of_nothing (stores.find_absent plain fits missing)

theorem readRecord_turns (present : files key .record = some content) :
    Turns (Scene.calm id connection order) session name files
      (Bucket.readRecord ⟨id, name⟩ session key)
      ((connection.settings.format.decode content).mapError fun error =>
        .corruptRecord key error.message) files := by
  refine .of_runs fun tree stores => readRecord_runs ?_
  have opens := (stores.way plain (stores.fits present)).openRead_of_file (stores.held present)
  rwa [← fileNames, ← path_eq id] at opens

theorem readRecord_of_held (present : files key .record =
      some (connection.settings.format.encode record))
    (keeps : connection.settings.format.Keeps record) :
    Turns (Scene.calm id connection order) session name files
      (Bucket.readRecord ⟨id, name⟩ session key) (.ok record) files := by
  have read : Turns (Scene.calm id connection order) session name files _ _ files :=
    readRecord_turns plain present
  rwa [RecordFormat.decode_encode keeps] at read

theorem writeRecord_turns (fits : Disk.Fits session (fileNames name key .record))
    (present : files key .payload = some content) (record : Record) :
    Turns (Scene.calm id connection order) session name files
      (Bucket.writeRecord ⟨id, name⟩ session key record) (.ok ())
      (files.set key .record (some (connection.settings.format.encode record))) := by
  have opens : Turns (Scene.calm id connection order) session name files
      (session.openWrite (Bucket.path ⟨id, name⟩ key .record))
      (.ok (opened session name key .record)) (files.set key .record (some [])) :=
    fun tree stores => openWrite_of_folder (Scene.calm_quiet id connection order) plain stores fits
      (stores.folder present)
  refine (format_of_calm name).lifted (opens.lifted (.andThen .ok ?_))
  refine (copy_opened _).lifted (.andThen .ok ?_)
  exact .lifted (.of_runs fun _ _ => shutdown_of_whole rfl) .ok

include live

theorem objectSize_of_held (present : files key .payload = some content) :
    Turns (Scene.calm id connection order) session name files (Bucket.objectSize ⟨id, name⟩ key)
      (.ok content.length) files := by
  have quiet := Scene.calm_quiet id connection order
  refine .live (Scene.calm_shows_live live order) ((stat_of_held quiet plain present).lifted ?_)
  exact .andThen .ok .ok

theorem writePayload_turns (fits : Disk.Fits session (fileNames name key .payload))
    (source : Source) :
    Turns (Scene.calm id connection order) session name files
      (Bucket.writePayload ⟨id, name⟩ session key source)
      (source.answer.mapError fun error =>
        .transport (.ofIo (Bucket.payloadPath ⟨id, name⟩ key) error))
      (files.set key .payload (some source.bytes)) := by
  have quiet := Scene.calm_quiet id connection order
  have shows : (Scene.calm id connection order).Shows id (some session) :=
    Scene.calm_shows_live live order
  have opens : Turns (Scene.calm id connection order) session name files
      (Bucket.withDirectories ⟨id, name⟩ (Bucket.payloadPath ⟨id, name⟩ key)
        (session.openWrite (Bucket.path ⟨id, name⟩ key .payload)))
      (.ok (opened session name key .payload)) (files.set key .payload (some [])) := by
    refine withDirectories_turns quiet shows plain fits (fun tree stores no_folder => ?_)
      fun tree stores folder => ?_
    · exact ⟨_, rfl, openWrite_of_no_folder quiet plain stores fits no_folder⟩
    · exact openWrite_of_folder quiet plain stores fits folder
  refine opens.andThen ((copy_opened source).lifted ?_)
  cases source.answer with
  | error error => exact Turns.fails .throw
  | ok size =>
    refine .andThen .ok (.lifted (.of_runs fun _ _ => shutdown_of_whole rfl) ?_)
    exact .andThen .ok .ok

end Objects

end TreeStore
