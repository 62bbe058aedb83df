import TreeStore.Proofs.Keys
/-!
The files of a bucket as a function of key and part. `Stores` relates such a function to a shaped
tree, whatever folders are left over in it; `Turns` says what an action answers and which files it
leaves, wherever no rule makes anything fail.
-/
namespace TreeStore

open Layout (Part fileNames fileName)
open TreeStore.Path (Plain)

abbrev Files := String → Part → Option Bytes

namespace Files

def none : Files := fun _ _ => .none

def set (files : Files) (key : String) (part : Part) (content? : Option Bytes) : Files :=
  fun key' part' => if key' = key ∧ part' = part then content? else files key' part'

variable {files : Files} {key key' : String} {part part' : Part} {content? content?' : Option Bytes}

@[simp] theorem set_same : files.set key part content? key part = content? := if_pos ⟨rfl, rfl⟩

theorem set_other (other : ¬ (key' = key ∧ part' = part)) :
    files.set key part content? key' part' = files key' part' := if_neg other

@[simp] theorem set_set :
    (files.set key part content?).set key part content?' = files.set key part content?' := by
  funext key' part'
  unfold set
  split <;> rfl

def move (files : Files) (source target : String) (part : Part) : Files :=
  match files source part with
  | some content => (files.set source part .none).set target part (some content)
  | .none => files

theorem move_of_held {content : Bytes} (present : files key part = some content) :
    files.move key key' part = (files.set key part .none).set key' part (some content) := by
  rw [move, present]

theorem move_of_absent (missing : files key part = .none) : files.move key key' part = files := by
  rw [move, missing]

theorem move_source (other : key ≠ key') : files.move key key' part key part = .none := by
  cases held : files key part with
  | none => rw [move_of_absent held, held]
  | some content => rw [move_of_held held, set_other (by simp [other]), set_same]

theorem move_target :
    files.move key key' part key' part = (files key part).or (files key' part) := by
  cases held : files key part with
  | none => rw [move_of_absent held, Option.none_or]
  | some content => rw [move_of_held held, set_same, Option.some_or]

theorem move_apart {key'' : String} {part' : Part}
    (apart : part' ≠ part ∨ key'' ≠ key ∧ key'' ≠ key') :
    files.move key key' part key'' part' = files key'' part' := by
  cases held : files key part with
  | none => rw [move_of_absent held]
  | some content =>
    rw [move_of_held held, set_other, set_other]
    · rintro ⟨rfl, rfl⟩
      simp at apart
    · rintro ⟨rfl, rfl⟩
      simp at apart

theorem set_self : files.set key part (files key part) = files := by
  funext key' part'
  unfold set
  split
  case isTrue same =>
    obtain ⟨rfl, rfl⟩ := same
    rfl
  case isFalse => rfl

theorem set_of_absent (missing : files key part = .none) : files.set key part .none = files := by
  rw [← missing, set_self]

theorem move_self : files.move key key part = files := by
  cases held : files key part with
  | none => exact move_of_absent held
  | some content => rw [move_of_held held, set_set, ← held, set_self]

end Files

/-- The bucket is shaped and holds these files. -/
structure Stores (session : Session) (name : String) (tree : Tree) (files : Files) : Prop where
  shaped : Shaped session name tree
  file : ∀ key part, tree.node? (session.place (fileNames name key part)) =
    (files key part).map .file

def Files.inTree (session : Session) (name : String) (tree : Tree) : Files := fun key part =>
  match tree.node? (session.place (fileNames name key part)) with
  | some (.file content) => some content
  | _ => .none

theorem Shaped.stores {session : Session} {name : String} {tree : Tree}
    (shaped : Shaped session name tree) :
    Stores session name tree (Files.inTree session name tree) where
  shaped := shaped
  file key part := by
    unfold Files.inTree
    cases found : tree.node? (session.place (fileNames name key part)) with
    | none => rfl
    | some node =>
      cases node with
      | file content => rfl
      | directory => exact absurd found (shaped.not_directory key part)

namespace Stores

variable {session : Session} {id : ConnectionId} {name key : String} {part : Part} {tree : Tree}
variable {files : Files} {content : Bytes}

theorem inTree_eq (stores : Stores session name tree files) :
    Files.inTree session name tree = files := by
  funext key part
  rw [Files.inTree, stores.file]
  cases files key part <;> rfl

theorem held (stores : Stores session name tree files) (present : files key part = some content) :
    tree.node? (session.place (fileNames name key part)) = some (.file content) := by
  rw [stores.file, present]
  rfl

theorem absent (stores : Stores session name tree files) (missing : files key part = none) :
    tree.node? (session.place (fileNames name key part)) = none := by
  rw [stores.file, missing]
  rfl

theorem fits (stores : Stores session name tree files) (present : files key part = some content) :
    Disk.Fits session (fileNames name key part) :=
  (stores.shaped.entries _ _ (by simp) (stores.held present)).2

theorem folder (stores : Stores session name tree files) (present : files key part = some content) :
    IsFolder session name tree (Layout.folders key) := by
  have held := stores.held present
  rw [place_fileNames] at held
  exact stores.shaped.wellFormed.above (List.cons_ne_nil _ []) (by rw [held]; rfl)

theorem place_ne_nil : session.place (fileNames name key part) ≠ [] :=
  Session.place_cons_ne_nil session name (Layout.folders key ++ [fileName key part])

theorem place_inj {key' : String} {part' : Part} :
    session.place (fileNames name key' part') = session.place (fileNames name key part) ↔
      key' = key ∧ part' = part := by
  rw [Session.place_inj]
  constructor
  · exact fun same => (Layout.fileNames_inj same).2
  · rintro ⟨rfl, rfl⟩
    rfl

theorem put (stores : Stores session name tree files)
    (fits : Disk.Fits session (fileNames name key part))
    (folder : IsFolder session name tree (Layout.folders key)) (content : Bytes) :
    Stores session name
      (SortedMap.insert tree (session.place (fileNames name key part)) (.file content))
      (files.set key part (some content)) where
  shaped := by
    have free := stores.shaped.not_directory key part
    rw [place_fileNames] at free
    have wf : Tree.WellFormed (SortedMap.insert tree
        (session.place (name :: Layout.folders key) ++ [fileName key part]) (.file content)) :=
      stores.shaped.wellFormed.insert folder (Layout.plain_fileName key part) (.inr free)
    rw [← place_fileNames] at wf
    exact stores.shaped.insert (by simp) ⟨key, part, rfl⟩ fits wf
  file key' part' := by
    rw [Tree.node?_insert _ place_ne_nil]
    by_cases same : key' = key ∧ part' = part
    · obtain ⟨rfl, rfl⟩ := same
      rw [if_pos rfl, Files.set_same]
      rfl
    · rw [if_neg (place_inj.not.2 same), Files.set_other same, stores.file]

theorem drop (stores : Stores session name tree files) (present : files key part = some content) :
    Stores session name (SortedMap.erase tree (session.place (fileNames name key part)))
      (files.set key part none) where
  shaped := by
    have held := stores.held present
    rw [place_fileNames, Tree.node?_concat, ← place_fileNames] at held
    have wf := stores.shaped.wellFormed.eraseLeaf fun last =>
      stores.shaped.wellFormed.find?_eq_none_of_below_file held (List.cons_ne_nil last [])
    exact stores.shaped.erase (by simp) wf
  file key' part' := by
    rw [Tree.node?_erase _ place_ne_nil]
    by_cases same : key' = key ∧ part' = part
    · obtain ⟨rfl, rfl⟩ := same
      rw [if_pos rfl, Files.set_same]
      rfl
    · rw [if_neg (place_inj.not.2 same), Files.set_other same, stores.file]

theorem move (stores : Stores session name tree files) {target : String}
    (present : files key part = some content)
    (fits : Disk.Fits session (fileNames name target part))
    (folder : IsFolder session name tree (Layout.folders target)) :
    Stores session name
      (SortedMap.insert (SortedMap.erase tree (session.place (fileNames name key part)))
        (session.place (fileNames name target part)) (.file content))
      (files.move key target part) := by
  rw [Files.move_of_held present]
  refine (stores.drop present).put fits ?_ content
  -- The folder is no file, so it has not been taken away.
  unfold IsFolder at folder ⊢
  rw [Tree.node?_erase _ place_ne_nil, if_neg, folder]
  intro taken
  rw [taken, stores.held present] at folder
  cases folder

theorem make (stores : Stores session name tree files) {front : List String} {last : String}
    (above : front ++ [last] <+: Layout.folders key)
    (fits : Disk.Fits session (name :: (front ++ [last])))
    (parent : IsFolder session name tree front) :
    Stores session name
      (SortedMap.insert tree (session.place (name :: (front ++ [last]))) .directory) files where
  shaped := by
    have plain : Plain last := Layout.plain_of_mem_folders (above.subset (by simp))
    have wf := stores.shaped.wellFormed.insert parent plain (.inl rfl)
    rw [← Session.place_concat] at wf
    exact stores.shaped.insert (by simp) ⟨key, above⟩ fits wf
  file key' part' := by
    rw [Tree.node?_insert _ (Session.place_cons_ne_nil _ _ _), if_neg, stores.file]
    rw [Session.place_inj]
    intro same
    apply Layout.fileNames_not_prefix_folders name name key' key part'
    rw [same]
    exact List.cons_prefix_cons.2 ⟨rfl, above⟩

theorem way (stores : Stores session name tree files) (plain : Plain name)
    (fits : Disk.Fits session (fileNames name key part)) :
    session.Way tree (name :: Layout.folders key) (fileName key part) :=
  stores.shaped.way_of_key plain fits

theorem find_held (stores : Stores session name tree files) (plain : Plain name)
    (present : files key part = some content) :
    Disk.find tree (session.resolve (Bucket.path ⟨id, name⟩ key part)) =
      .ok (session.place (fileNames name key part), .file content) := by
  rw [path_eq]
  exact (stores.way plain (stores.fits present)).find_of_node (stores.held present)

theorem find_absent (stores : Stores session name tree files) (plain : Plain name)
    (fits : Disk.Fits session (fileNames name key part)) (missing : files key part = none) :
    Disk.find tree (session.resolve (Bucket.path ⟨id, name⟩ key part)) =
      .error (.ofSystem .noEntry) := by
  rw [path_eq]
  exact (stores.way plain fits).find_of_missing (stores.shaped.open_of_folders List.prefix_rfl)
    (stores.absent missing)

end Stores

section Made

variable {session : Session} {id : ConnectionId} {name : String} {connection : Connection}
variable {site : Site} (made : (id.createBucket name site).1 = .ok ⟨id, name⟩)
variable (known : site.connections[id.index]? = some connection)
variable (live : connection.slot = some session)

include made known live

theorem directory_of_made :
    (id.createBucket name site).2.connections[id.index]? = some connection ∧
      Disk.makeDirectory site.disk (session.resolve name) =
        .ok (id.createBucket name site).2.disk := by
  have shows : (Scene.known id connection).Shows id (some session) := Scene.shows_known_live live
  obtain ⟨held, created⟩ := (createBucket_made (some session) shows name).run site known rfl
  obtain ⟨_, eq, done⟩ := created _ made
  cases eq
  exact ⟨held, done⟩

theorem stores_of_made (wf : site.disk.WellFormed) (plain : Plain name) :
    Stores session name (id.createBucket name site).2.disk Files.none := by
  have done := (directory_of_made made known live).2
  exact ⟨shaped_of_made wf plain done, fun key part => vacant_of_made wf plain done (by simp)⟩

end Made

/-- In every state since its making a bucket holds the files of the tree, and its scene is calm once
there are no rules. -/
theorem Bucket.Since.calm {bucket : Bucket} {session : Session} {site : Site}
    (since : bucket.Since site)
    (live : (site.connections[bucket.connection.index]?).bind Connection.slot = some session) :
    Stores session bucket.name site.disk (Files.inTree session bucket.name site.disk) ∧
      ∃ connection : Connection, connection.slot = some session ∧
        (Scene.calm bucket.connection connection site.order).holds (site.withRules [] []) := by
  obtain ⟨other, shows, shaped⟩ := since.shaped
  have same : other = session := Option.some_inj.1 (shows.symm.trans live)
  rw [same] at shaped
  exact ⟨shaped.stores, Site.exists_calm live⟩

/-- Wherever these files are, the action answers so and leaves those. -/
def Turns {α : Type} (scene : Scene) (session : Session) (name : String) (files : Files)
    (action : Action α) (answer : α) (files' : Files) : Prop :=
  ∀ tree, Stores session name tree files → Ends scene tree action fun result later =>
    result = answer ∧ Stores session name later files'

namespace Turns

variable {α β : Type} {scene : Scene} {session : Session} {name : String}
variable {files files' files'' : Files}

theorem of_runs {action : Action α} {answer : α}
    (h : ∀ tree, Stores session name tree files → Runs scene tree action answer tree) :
    Turns scene session name files action answer files := by
  intro tree stores
  refine (h tree stores).mono fun result later ⟨eq, same⟩ => ?_
  rw [same]
  exact ⟨eq, stores⟩

theorem run {action : Action α} {answer : α}
    (h : Turns scene session name files action answer files') {site : Site}
    (holds : scene.holds site) (stores : Stores session name site.disk files) :
    (action site).1 = answer ∧ Files.inTree session name (action site).2.disk = files' := by
  obtain ⟨-, eq, stores'⟩ := (h site.disk stores).run site holds rfl
  exact ⟨eq, stores'.inTree_eq⟩

theorem pure {a : α} : Turns scene session name files (Pure.pure a : Action α) a files :=
  of_runs fun _ _ => Runs.pure

theorem bind {action : Action α} {next : α → Action β} {a : α} {b : β}
    (first : Turns scene session name files action a files')
    (rest : Turns scene session name files' (next a) b files'') :
    Turns scene session name files (action >>= next) b files'' := by
  intro tree stores
  refine (first tree stores).bind fun result later ⟨eq, stores'⟩ => ?_
  subst eq
  exact rest later stores'

theorem map {action : Action α} {f : α → β} {a : α}
    (h : Turns scene session name files action a files') :
    Turns scene session name files (f <$> action) (f a) files' := by
  intro tree stores
  refine Ends.map ((h tree stores).mono fun result later ⟨eq, stores'⟩ => ?_)
  rw [eq]
  exact ⟨rfl, stores'⟩

theorem ok {a : α} : Turns scene session name files (Pure.pure a : Operation α) (.ok a) files :=
  of_runs fun _ _ => Runs.ok

theorem throw {error : StoreError} :
    Turns scene session name files (MonadExcept.throw error : Operation α) (.error error) files :=
  of_runs fun _ _ => Runs.throw

variable {operation : Operation α} {next : α → Operation β} {result : Except StoreError β}

theorem andThen {a : α} (first : Turns scene session name files operation (.ok a) files')
    (rest : Turns scene session name files' (next a) result files'') :
    Turns scene session name files (operation >>= next : Operation β) result files'' := by
  intro tree stores
  refine (first tree stores).andThen (fun value later ⟨eq, stores'⟩ => ?_)
    fun _ _ ⟨eq, _⟩ => nomatch eq
  cases eq
  exact rest later stores'

theorem fails {error : StoreError}
    (first : Turns scene session name files operation (.error error) files') :
    Turns scene session name files (operation >>= next : Operation β) (.error error) files' := by
  intro tree stores
  refine (first tree stores).andThen (fun _ _ ⟨eq, _⟩ => nomatch eq) fun _ _ ⟨eq, stores'⟩ => ?_
  cases eq
  exact ⟨rfl, stores'⟩

theorem lifted {action : Action α} {a : α}
    (first : Turns scene session name files action a files')
    (rest : Turns scene session name files' (next a) result files'') :
    Turns scene session name files (liftM action >>= next : Operation β) result files'' := by
  intro tree stores
  refine (first tree stores).lifted fun value later ⟨eq, stores'⟩ => ?_
  subst eq
  exact rest later stores'

theorem live {id : ConnectionId} {next : Session → Operation β}
    (shows : scene.Shows id (some session))
    (rest : Turns scene session name files (next session) result files') :
    Turns scene session name files (id.session >>= next : Operation β) result files' :=
  fun tree stores => .live shows (rest tree stores)

end Turns

section Calls

variable {scene : Scene} {session : Session} {id : ConnectionId} {name key : String} {part : Part}
variable {files : Files} {content : Bytes} (quiet : scene.Quiet) (plain : Plain name)

include quiet plain

theorem openRead_of_held (present : files key part = some content) :
    Turns scene session name files (session.openRead (Bucket.path ⟨id, name⟩ key part))
      (.ok (.ofBytes content)) files := by
  refine .of_runs fun tree stores => openRead_of_ok quiet ?_
  rw [path_eq]
  exact (stores.way plain (stores.fits present)).openRead_of_file (stores.held present)

theorem stat_of_held (present : files key part = some content) :
    Turns scene session name files (session.stat (Bucket.path ⟨id, name⟩ key part))
      (.ok (.file content)) files :=
  .of_runs fun _ stores => stat_of_find quiet (stores.find_held plain present)

theorem stat_of_absent (fits : Disk.Fits session (fileNames name key part))
    (missing : files key part = none) :
    Turns scene session name files (session.stat (Bucket.path ⟨id, name⟩ key part))
      (.error (.ofIo (Bucket.path ⟨id, name⟩ key part) (.ofSystem .noEntry))) files :=
  .of_runs fun _ stores => stat_of_error quiet (stores.find_absent plain fits missing)

theorem removeFile_of_held (present : files key part = some content) :
    Turns scene session name files (session.removeFile (Bucket.path ⟨id, name⟩ key part)) (.ok ())
      (files.set key part none) := by
  intro tree stores
  have removed : Runs scene tree (session.removeFile (Bucket.path ⟨id, name⟩ key part)) (.ok ())
      (SortedMap.erase tree (session.place (fileNames name key part))) := by
    apply change_of_ok quiet session
    rw [path_eq]
    exact (stores.way plain (stores.fits present)).removeFile_of_file (stores.held present)
  refine removed.mono fun result later ⟨eq, same⟩ => ⟨eq, ?_⟩
  rw [same]
  exact stores.drop present

theorem removeFile_of_absent (fits : Disk.Fits session (fileNames name key part))
    (missing : files key part = none) :
    Turns scene session name files (session.removeFile (Bucket.path ⟨id, name⟩ key part))
      (.error (.ofIo (Bucket.path ⟨id, name⟩ key part) (.ofSystem .noEntry))) files := by
  refine .of_runs fun tree stores => change_of_error quiet session ?_
  rw [path_eq]
  exact (stores.way plain fits).removeFile_of_missing
    (stores.shaped.open_of_folders List.prefix_rfl) (stores.absent missing)

def opened (session : Session) (name key : String) (part : Part) : Session.Writer :=
  ⟨session.place (fileNames name key part), Path.ofNames (fileNames name key part), none, none⟩

theorem openWrite_of_folder {tree : Tree} (stores : Stores session name tree files)
    (fits : Disk.Fits session (fileNames name key part))
    (folder : IsFolder session name tree (Layout.folders key)) :
    Ends scene tree (session.openWrite (Bucket.path ⟨id, name⟩ key part)) fun result later =>
      result = .ok (opened session name key part) ∧
        Stores session name later (files.set key part (some [])) := by
  have written : Runs scene tree (session.openWrite (Bucket.path ⟨id, name⟩ key part))
      (.ok (opened session name key part))
      (SortedMap.insert tree (session.place (fileNames name key part)) (.file [])) := by
    rw [path_eq]
    exact openWrite_of_ok quiet ((stores.way plain fits).openWrite_of_free folder
      (stores.shaped.not_directory key part))
  refine written.mono fun result later ⟨eq, same⟩ => ⟨eq, ?_⟩
  rw [same]
  exact stores.put fits folder []

theorem openWrite_of_no_folder {tree : Tree} (stores : Stores session name tree files)
    (fits : Disk.Fits session (fileNames name key part))
    (no_folder : tree.node? (session.place (name :: Layout.folders key)) = none) :
    Runs scene tree (session.openWrite (Bucket.path ⟨id, name⟩ key part))
      (.error (.ofIo (Bucket.path ⟨id, name⟩ key part) (.ofSystem .noEntry))) tree := by
  apply openWrite_of_error quiet
  rw [path_eq]
  exact (stores.way plain fits).openWrite_of_missing
    (stores.shaped.open_of_folders List.prefix_rfl) no_folder

omit quiet plain in
theorem copy_opened (source : Source) :
    Turns scene session name (files.set key part (some []))
      ((opened session name key part).copy source) source.answer
      (files.set key part (some source.bytes)) := by
  intro tree stores
  have empty : files.set key part (some []) key part = some [] := Files.set_same
  have held := stores.held empty
  rw [Tree.node?_of_ne_nil _ Stores.place_ne_nil] at held
  have copied : Runs scene tree ((opened session name key part).copy source) source.answer
      (SortedMap.insert tree (session.place (fileNames name key part)) (.file source.bytes)) := by
    have whole : Runs scene tree ((opened session name key part).copy source) source.answer
        (Disk.append tree (opened session name key part).location source.bytes) :=
      copy_of_whole rfl source
    have appended : Disk.append tree (opened session name key part).location source.bytes = _ :=
      Disk.append_of_file held source.bytes
    rwa [appended] at whole
  refine copied.mono fun result later ⟨eq, same⟩ => ⟨eq, ?_⟩
  have written := stores.put (stores.fits empty) (stores.folder empty) source.bytes
  rwa [Files.set_set, ← same] at written

theorem rename_of_folder {target : String} {tree : Tree} (stores : Stores session name tree files)
    (present : files key part = some content)
    (fits : Disk.Fits session (fileNames name target part))
    (folder : IsFolder session name tree (Layout.folders target)) :
    Ends scene tree (session.rename (Bucket.path ⟨id, name⟩ key part)
        (Bucket.path ⟨id, name⟩ target part)) fun result later => result = .ok () ∧
      Stores session name later (files.move key target part) := by
  have moved : Runs scene tree (session.rename (Bucket.path ⟨id, name⟩ key part)
      (Bucket.path ⟨id, name⟩ target part)) (.ok ())
      (SortedMap.insert (SortedMap.erase tree (session.place (fileNames name key part)))
        (session.place (fileNames name target part)) (.file content)) := by
    apply change_of_ok quiet session
    rw [path_eq, path_eq]
    exact (stores.way plain (stores.fits present)).rename_of_file (stores.way plain fits)
      (stores.held present) folder (stores.shaped.not_directory target part)
  refine moved.mono fun result later ⟨eq, same⟩ => ⟨eq, ?_⟩
  rw [same]
  exact stores.move present fits folder

theorem rename_of_no_folder {target : String} {tree : Tree}
    (stores : Stores session name tree files) (present : files key part = some content)
    (fits : Disk.Fits session (fileNames name target part))
    (no_folder : tree.node? (session.place (name :: Layout.folders target)) = none) :
    Runs scene tree (session.rename (Bucket.path ⟨id, name⟩ key part)
        (Bucket.path ⟨id, name⟩ target part))
      (.error (.ofIo (Bucket.path ⟨id, name⟩ target part) (.ofSystem .noEntry))) tree := by
  apply change_of_error quiet session
  rw [path_eq, path_eq]
  exact (stores.way plain (stores.fits present)).rename_of_missing (stores.way plain fits)
    (stores.held present) (stores.shaped.open_of_folders List.prefix_rfl) no_folder

theorem rename_of_absent {target : String} (fits : Disk.Fits session (fileNames name key part))
    (fits' : Disk.Fits session (fileNames name target part)) (missing : files key part = none) :
    Turns scene session name files (session.rename (Bucket.path ⟨id, name⟩ key part)
        (Bucket.path ⟨id, name⟩ target part))
      (.error (.ofIo (Bucket.path ⟨id, name⟩ target part) (.ofSystem .noEntry))) files := by
  refine .of_runs fun tree stores => change_of_error quiet session ?_
  rw [path_eq, path_eq]
  exact (stores.way plain fits).rename_of_absent (stores.way plain fits')
    (stores.shaped.open_of_folders List.prefix_rfl) (stores.shaped.open_of_folders List.prefix_rfl)
    (stores.absent missing)

end Calls

end TreeStore
