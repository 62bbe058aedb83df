import TreeStore.Proofs.Request
/-!
Operations touch only what they name, whatever fails. The places of objects are told apart by the
names on the way to them; the edits of a command are then known to miss every other object.
-/
namespace TreeStore

open Footprint
open Layout (Part fileNames)
open TreeStore.Path (Plain)

/-- The tree is well-formed, and no file of an object of the bucket is a directory. -/
structure FilesApart (session : Session) (name : String) (tree : Tree) : Prop where
  wellFormed : tree.WellFormed
  files : ∀ key part, tree.node? (session.place (fileNames name key part)) ≠ some .directory

section Places

variable {session : Session} {name : String} (plain : Plain name)

include plain

theorem spot_eq (id : ConnectionId) (key : String) (part : Part) :
    Bucket.spot ⟨id, name⟩ session key part = session.place (fileNames name key part) := by
  rw [Bucket.spot, Bucket.path, Layout.place_append_suffix,
    Session.locate_resolve fun _ mem => Layout.plain_of_mem_fileNames plain mem]

theorem components_parent (id : ConnectionId) (key : String) :
    Path.components (Path.parent (Bucket.payloadPath ⟨id, name⟩ key)) =
      name :: Layout.folders key := by
  rw [Bucket.payloadPath, Layout.parent_payloadPath plain,
    Path.components_ofNames fun _ mem => Layout.plain_of_mem_path plain mem]

theorem locate_folder {key : String} {front : List String}
    (above : front <+: name :: Layout.folders key) :
    Disk.locate (session.resolve (Path.ofNames front)) = session.place front :=
  Session.locate_resolve (fun _ mem => Layout.plain_of_mem_path plain (above.subset mem)) session

theorem locate_below {rest : List String} (below : ∀ n ∈ rest, Plain n) :
    Disk.locate (session.resolve (Path.ofNames (name :: rest))) = session.place (name :: rest) :=
  Session.locate_resolve (List.forall_mem_cons.2 ⟨plain, below⟩) session

theorem locate_top (session : Session) :
    Disk.locate (session.resolve name) = session.place [name] := by
  rw [← locate_below plain (by simp), Path.ofNames_singleton]

end Places

theorem Session.place_inj {session : Session} {names names' : List String} :
    session.place names = session.place names' ↔ names = names' :=
  List.append_right_inj session.seat

section Edits

variable {session : Session} {id : ConnectionId} {name : String} {reach : Reach}

def Reach.named (reach : Reach) : List (String × Part) :=
  reach.written ++ reach.removed ++ reach.moved?.elim [] fun keys =>
    [(keys.1, .payload), (keys.1, .record), (keys.2, .payload), (keys.2, .record)]

theorem Reach.makes_no_file (plain : Plain name) (name' key : String) (part : Part) :
    ¬ reach.Allows session ⟨id, name⟩
      (.makeDirectory (session.place (fileNames name' key part))) := by
  generalize place : session.place (fileNames name' key part) = location
  rintro (@⟨key', named, front, above, some⟩)
  rw [components_parent plain] at above
  rw [locate_folder plain above, Session.place_inj] at place
  exact Layout.fileNames_not_prefix_folders name' name key key' part (place ▸ above)

/-- An edit within a reach that clears nothing misses every file that the reach does not name. -/
theorem Reach.misses (plain : Plain name) (keeps : reach.cleared = false) {edit : Edit}
    (may : reach.Allows session ⟨id, name⟩ edit) {name' key : String} {part : Part}
    (other : name' = name → (key, part) ∉ reach.named) :
    session.place (fileNames name' key part) ∉ edit.touched := by
  have apart : ∀ {key' part'}, (key', part') ∈ reach.named →
      session.place (fileNames name' key part) ≠ Bucket.spot ⟨id, name⟩ session key' part' := by
    intro key' part' named same
    rw [spot_eq plain, Session.place_inj] at same
    obtain ⟨rfl, rfl, rfl⟩ := Layout.fileNames_inj same
    exact other rfl named
  cases may with
  | makeDirectory named above some =>
    rw [components_parent plain] at above
    rw [Edit.touched, List.mem_singleton, locate_folder plain above, Session.place_inj]
    rintro rfl
    exact Layout.fileNames_not_prefix_folders _ _ _ _ _ above
  | write named content =>
    exact fun mem => apart (by simp [Reach.named, named]) (List.mem_singleton.1 mem)
  | removeFile named =>
    exact fun mem => apart (by simp [Reach.named, named]) (List.mem_singleton.1 mem)
  | move named part' =>
    intro mem
    rcases List.mem_cons.1 mem with same | mem
    · exact apart (by cases part' <;> simp [Reach.named, named]) same
    · exact apart (by cases part' <;> simp [Reach.named, named]) (List.mem_singleton.1 mem)
  | clearFile named => rw [keeps] at named; cases named
  | clearDirectory named => rw [keeps] at named; cases named

variable (session id reach) in
def Reach.footprint (plain : Plain name) : Footprint where
  apt := FilesApart session name
  allowed := reach.Allows session ⟨id, name⟩
  wellFormed _ apt := apt.wellFormed
  kept edit tree tree' may taken apt := by
    refine ⟨taken.wellFormed apt.wellFormed, fun key part directory => apt.files key part ?_⟩
    refine taken.directory_new apt.wellFormed (fun same => ?_) directory
    exact Reach.makes_no_file plain name key part (same ▸ may)

theorem Command.served (plain : Plain name) (command : Command) :
    (command.reach.footprint session id plain).Serves session ⟨id, name⟩ command := by
  refine ⟨fun _ may => may, fun source target part tree _ apt => ?_⟩
  rw [spot_eq plain]
  exact apt.files source part

end Edits

/-- The files of objects that a command may change. A copy leaves its source alone, and a new record
leaves the payload alone. -/
def Command.touches : Command → List (String × Part)
  | .store key _ _ => [(key, .payload), (key, .record)]
  | .delete key _ => [(key, .payload), (key, .record)]
  | .rename source target =>
    [(source, .payload), (source, .record), (target, .payload), (target, .record)]
  | .copy source target _ =>
    if source = target then [(target, .record)] else [(target, .payload), (target, .record)]
  | .updateRecord key _ => [(key, .record)]
  | _ => []

theorem Command.named_eq (command : Command) : command.reach.named = command.touches := by
  cases command with
  | copy source target record? =>
    by_cases same : source = target <;> simp [reach, touches, Reach.named, same]
  | _ => rfl

/-- What a command on the objects of a bucket leaves of a tree. -/
structure Frame (session : Session) (name : String) (command : Command) (before after : Tree) :
    Prop where
  /-- The files of every other object, of this bucket or another, are there or not as before, and
  hold what they held. -/
  objects : ∀ name' key part, (name' = name → (key, part) ∉ command.touches) →
    after.node? (session.place (fileNames name' key part)) =
      before.node? (session.place (fileNames name' key part))
  kept : ∀ place, before.node? place = some .directory → after.node? place = some .directory
  /-- A new directory lies on the way to the object that is written. -/
  made : ∀ place, after.node? place = some .directory → before.node? place = some .directory ∨
    ∃ key front, command.reach.folders? = some key ∧ front <+: name :: Layout.folders key ∧
      place = session.place front

section Frames

variable {session : Session} {id : ConnectionId} {name : String} {tree : Tree} {scene : Scene}

theorem Command.run_edits (shows : scene.Shows id (some session)) (plain : Plain name)
    (apart : FilesApart session name tree) (command : Command) :
    Ends scene tree (command.run ⟨id, name⟩) fun _ tree' =>
      tree.EditedBy (command.reach.Allows session ⟨id, name⟩) tree' := by
  apply (command.run_ends shows tree (command.served plain)).mono
  intro answer tree' done
  rcases done with ⟨-, same⟩ | ⟨covers, -⟩
  · rw [same]
    exact .refl _ tree
  · exact (covers apart).1

theorem Command.made_of_edits (plain : Plain name) (wf : tree.WellFormed) {command : Command}
    {tree' : Tree} (edited : tree.EditedBy (command.reach.Allows session ⟨id, name⟩) tree')
    {place : Location} (directory : tree'.node? place = some .directory) :
    tree.node? place = some .directory ∨ ∃ key front, command.reach.folders? = some key ∧
      front <+: name :: Layout.folders key ∧ place = session.place front := by
  by_cases may : command.reach.Allows session ⟨id, name⟩ (.makeDirectory place)
  · right
    cases may with
    | makeDirectory named above some =>
      rw [components_parent plain] at above
      exact ⟨_, _, named, above, locate_folder plain above⟩
  · exact .inl (edited.directory_new wf may directory)

theorem Command.frame_of_edits (plain : Plain name) (wf : tree.WellFormed) {command : Command}
    (objects : command ≠ .clear) {tree' : Tree}
    (edited : tree.EditedBy (command.reach.Allows session ⟨id, name⟩) tree') :
    Frame session name command tree tree' := by
  have keeps : command.reach.cleared = false := by
    cases command with
    | clear => exact absurd rfl objects
    | copy source target => by_cases same : source = target <;> simp [reach, same]
    | _ => rfl
  refine ⟨fun name' key part other => ?_, fun place directory => ?_,
    fun place directory => made_of_edits plain wf edited directory⟩
  · refine edited.frame wf fun edit may => Reach.misses plain keeps may ?_
    rwa [command.named_eq]
  · refine edited.directory_kept wf (fun may => ?_) directory
    cases may with
    | clearDirectory named =>
      rw [keeps] at named
      cases named

def removal (place : Location) : Footprint where
  apt := Tree.WellFormed
  allowed edit := ∃ rest, edit = .removeFile (place ++ rest) ∨ edit = .removeDirectory (place ++ rest)
  wellFormed _ apt := apt
  kept _ _ _ _ taken apt := taken.wellFormed apt

theorem deleteBucket_frame (shows : scene.Shows id (some session)) (path : String)
    (wf : tree.WellFormed) (recursive : Bool) {place : Location}
    (outside : ¬ Disk.locate (session.resolve path) <+: place) :
    Ends scene tree (id.deleteBucket path recursive) fun _ tree' =>
      tree'.node? place = tree.node? place := by
  have deleted : Ends scene tree (id.deleteBucket path recursive)
      ((removal (Disk.locate (session.resolve path))).Deletes path recursive tree) := by
    refine deleteBucket_ends shows path recursive (fun rest _ below => ?_)
      ⟨[], .inr (by rw [List.append_nil])⟩
    rw [Session.locate_resolve_cons below]
    exact ⟨⟨rest, .inl rfl⟩, rest, .inr rfl⟩
  apply deleted.mono
  intro answer tree' done
  have covers : (removal (Disk.locate (session.resolve path))).Covers tree tree' := by
    rcases done with done | ⟨-, -, covers⟩
    · exact done.covers
    · exact covers
  refine (covers wf).1.frame wf fun edit may mem => ?_
  obtain ⟨rest, rfl | rfl⟩ := may <;>
    exact outside ⟨rest, (List.mem_singleton.1 mem).symm⟩

end Frames

/-- Operations touch only what they name, whatever fails. -/
theorem operations_touch_what_they_name (id : ConnectionId) (name : String) (session : Session)
    (site : Site) (live : (site.connections[id.index]?).bind Connection.slot = some session)
    (plain : Plain name) (apart : FilesApart session name site.disk) :
    (∀ command : Command, command ≠ .clear →
      Frame session name command site.disk (command.run ⟨id, name⟩ site).2.disk) ∧
    (∀ place, (∀ rest, rest ≠ [] → place ≠ session.place (name :: rest)) →
      (Command.clear.run ⟨id, name⟩ site).2.disk.node? place = site.disk.node? place) ∧
    (∀ recursive place, ¬ session.place [name] <+: place →
      (id.deleteBucket name recursive site).2.disk.node? place = site.disk.node? place) ∧
    ∀ command : Command, command.looks = true →
      (command.run ⟨id, name⟩ site).2.disk = site.disk := by
  have shows := Scene.shows_slot id (some session)
  have edited := fun command => ((Command.run_edits shows plain apart command).run site live rfl).2
  refine ⟨fun command objects => ?_, fun place outside => ?_, fun recursive place outside => ?_,
    fun command looks => ?_⟩
  · exact command.frame_of_edits plain apart.wellFormed objects (edited command)
  · refine (edited .clear).frame apart.wellFormed fun edit may mem => ?_
    cases may with
    | clearFile named some below =>
      exact outside _ some ((List.mem_singleton.1 mem).trans (locate_below plain below))
    | clearDirectory named some below =>
      exact outside _ some ((List.mem_singleton.1 mem).trans (locate_below plain below))
    | makeDirectory named => cases named
    | write named => cases named
    | removeFile named => cases named
    | move named => cases named
  · rw [← locate_top plain] at outside
    exact ((deleteBucket_frame shows name apart.wellFormed recursive outside).run site live rfl).2
  · have still : Ends Scene.any site.disk (command.run ⟨id, name⟩) _ := command.looks_still looks
    exact (still.run site trivial rfl).2

theorem FilesApart.of_endings {session : Session} {name : String} {tree : Tree}
    (wf : tree.WellFormed)
    (free : ∀ part : Part, ∀ entry ∈ tree.entries, entry.2 = .directory →
      ∀ last ∈ entry.1.getLast?, ¬ part.suffix.toList <:+ last.toList) :
    FilesApart session name tree where
  wellFormed := wf
  files key part directory := by
    have place : session.place (fileNames name key part) =
        session.place (name :: Layout.folders key) ++ [Layout.fileName key part] :=
      (List.append_assoc ..).symm
    rw [place, Tree.node?_concat, SortedMap.find?_eq_some_iff] at directory
    refine free part _ directory rfl (Layout.fileName key part) (by simp) ?_
    rw [Layout.fileName, String.toList_append]
    exact List.suffix_append ..

/-- The folder of the object is made and its payload is written; then its record is refused. -/
theorem halfway_store_keeps_its_neighbours :
    let refused : Rule CallKind Refusal :=
      { occasion := .openFile .write, path? := some "b/s3ql_data/123/s3ql_data_12345.meta",
        effect := ⟨.other, "refused"⟩ }
    let disk : Tree := SortedMap.ofList [(["b"], .directory), (["b", "k.dat"], .file [1]),
      (["b", "k.meta"], .file [2]), (["b", "s3ql_data"], .directory),
      (["b", "s3ql_data", "s3ql_data_1.dat"], .file [3]), (["c"], .directory),
      (["c", "k.dat"], .file [4])]
    let session : Session := ⟨0, "/"⟩
    let site := { Site.connected "/" disk with callRules := [refused] }
    let command := Command.store "s3ql_data_12345" { bytes := [5] } SortedMap.empty
    let ended := command.run ⟨⟨0⟩, "b"⟩ site
    Plain "b" ∧ FilesApart session "b" site.disk ∧ ended.1.error? ≠ none ∧
      ended.2.disk.find? ["b", "s3ql_data", "123", "s3ql_data_12345.dat"] = some (.file [5]) ∧
      ended.2.disk.find? ["b", "s3ql_data", "123", "s3ql_data_12345.meta"] = none ∧
      Frame session "b" command site.disk ended.2.disk ∧
      ∀ recursive place, ¬ session.place ["b"] <+: place →
        (ConnectionId.deleteBucket ⟨0⟩ "b" recursive site).2.disk.node? place =
          site.disk.node? place := by
  intro refused disk session site command ended
  have plain : Plain "b" := by decide
  have wf : site.disk.WellFormed := by decide +kernel
  have apart : FilesApart session "b" site.disk :=
    .of_endings wf fun part => by cases part <;> decide +kernel
  have ⟨failed, written, missing⟩ : ended.1.error? ≠ none ∧
      ended.2.disk.find? ["b", "s3ql_data", "123", "s3ql_data_12345.dat"] = some (.file [5]) ∧
      ended.2.disk.find? ["b", "s3ql_data", "123", "s3ql_data_12345.meta"] = none := by
    decide +kernel
  have live : (site.connections[(⟨0⟩ : ConnectionId).index]?).bind Connection.slot =
      some session := rfl
  clear_value site
  obtain ⟨objects, -, deleted, -⟩ :=
    operations_touch_what_they_name ⟨0⟩ "b" session site live plain apart
  exact ⟨plain, apart, failed, written, missing, objects command nofun, deleted⟩

end TreeStore
