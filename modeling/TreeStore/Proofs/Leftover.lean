import TreeStore.Proofs.Listing
import TreeStore.Proofs.Outcome
/-!
What is left in the directory of a bucket when its objects have gone, and when such a bucket is
still refused to be removed. Where no rule makes anything fail there are two such things: the folder
of sharded keys, which only a purge takes away, and the record that a rename to a key on the edge
leaves behind.
-/
namespace TreeStore

open Layout (fileNames)
open TreeStore.Path (Plain)

/-- There is a record under the key, and no payload. -/
def Files.Orphan (files : Files) (key : String) : Prop :=
  files key .record ≠ .none ∧ files key .payload = .none

/-- What can stand in a bucket that has no objects: the folder of sharded keys, or a record without a
payload. -/
def Leftover (session : Session) (name : String) (tree : Tree) : Prop :=
  IsFolder session name tree [Layout.bulkDirectory] ∨
    ∃ key, (Files.inTree session name tree).Orphan key

section Occupied

variable {session : Session} {name : String} {tree : Tree}

theorem Shaped.entry_of_node (shaped : Shaped session name tree) {rest : List String}
    (below : rest ≠ []) {node : Node}
    (stands : tree.node? (session.place (name :: rest)) = some node) :
    ∃ last, tree.find? (session.place [name] ++ [last]) ≠ none := by
  obtain ⟨last, rest, rfl⟩ := List.exists_cons_of_ne_nil below
  refine ⟨last, ?_⟩
  rw [← Tree.node?_concat]
  have split : session.place (name :: last :: rest) = (session.place [name] ++ [last]) ++ rest := by
    simp [Session.place]
  rw [split] at stands
  rcases eq_or_ne rest [] with rfl | deeper
  · rw [List.append_nil] at stands
    rw [stands]
    simp
  · rw [shaped.wellFormed.above deeper (by rw [stands]; rfl)]
    simp

/-- The directory of a bucket is not empty where there is an object in it, or something left over. -/
theorem Shaped.occupied_iff (shaped : Shaped session name tree) :
    (∃ last, tree.find? (session.place [name] ++ [last]) ≠ none) ↔
      (∃ key, Holds session name tree key) ∨ Leftover session name tree := by
  have stores := shaped.stores
  constructor
  · rintro ⟨last, occupied⟩
    obtain ⟨node, stands⟩ := Option.ne_none_iff_exists'.1 occupied
    rw [← Tree.node?_concat, ← Session.place_concat] at stands
    have lies := (shaped.entries [last] node (by simp) stands).1
    cases node with
    | directory =>
      -- Of the directories that lead to keys only one is in the bucket itself.
      obtain ⟨key, front⟩ := lies
      rcases Layout.folders_cases key with flat | ⟨tail, -, sharded⟩
      · rw [flat] at front
        simp at front
      · rw [sharded] at front
        obtain ⟨rfl, -⟩ := List.cons_prefix_cons.1 front
        exact .inr (.inl stands)
    | file content =>
      obtain ⟨key, part, flat⟩ := lies
      have held : tree.node? (session.place (fileNames name key part)) = some (.file content) := by
        rw [← stands, fileNames, List.cons_append, ← flat]
        rfl
      by_cases holds : Holds session name tree key
      · exact .inl ⟨key, holds⟩
      have missing : Files.inTree session name tree key .payload = none := by
        cases present : Files.inTree session name tree key .payload with
        | none => rfl
        | some content => exact absurd ⟨content, stores.held present⟩ holds
      cases part with
      | payload => exact absurd ⟨content, held⟩ holds
      | record =>
        refine .inr (.inr ⟨key, fun absent => ?_, missing⟩)
        rw [stores.absent absent] at held
        cases held
  · rintro (⟨key, content, held⟩ | folder | ⟨key, recorded, -⟩)
    · exact shaped.entry_of_node (List.append_ne_nil_of_right_ne_nil _ (by simp)) held
    · exact shaped.entry_of_node (List.cons_ne_nil _ []) folder
    · obtain ⟨content, recorded⟩ := Option.ne_none_iff_exists'.1 recorded
      exact shaped.entry_of_node (List.append_ne_nil_of_right_ne_nil _ (by simp))
        (stores.held recorded)

end Occupied

inductive Command.Litters (session : Session) (name : String) : Command → Prop
  | folder {command : Command} {key : String} (named : command.reach.folders? = some key)
      (sharded : Layout.folders key ≠ []) : Litters session name command
  | record {source target : String} (edge : OnEdge session name target) :
      Litters session name (.rename source target)

namespace Files.Orphan

variable {files : Files} {key source target : String} {content : Bytes} {content? : Option Bytes}

theorem of_set_payload (orphan : (files.set target .payload (some content)).Orphan key) :
    files.Orphan key := by
  obtain ⟨recorded, missing⟩ := orphan
  have apart : key ≠ target := by
    rintro rfl
    rw [Files.set_same] at missing
    cases missing
  rw [Files.set_other (by simp)] at recorded
  rw [Files.set_other (by simp [apart])] at missing
  exact ⟨recorded, missing⟩

theorem of_set_record (present : files target .payload ≠ .none)
    (orphan : (files.set target .record content?).Orphan key) : files.Orphan key := by
  obtain ⟨recorded, missing⟩ := orphan
  rw [Files.set_other (by simp)] at missing
  have apart : key ≠ target := by
    rintro rfl
    exact present missing
  rw [Files.set_other (by simp [apart])] at recorded
  exact ⟨recorded, missing⟩

theorem of_move_payload (present : files source .payload ≠ .none)
    (orphan : (files.move source target .payload).Orphan key) :
    files.Orphan key ∨ files source .record ≠ .none := by
  obtain ⟨recorded, missing⟩ := orphan
  rw [Files.move_apart (.inl (by simp))] at recorded
  by_cases here : key = source
  · exact .inr (here ▸ recorded)
  by_cases there : key = target
  · rw [there, Files.move_target, Option.or_eq_none_iff] at missing
    exact absurd missing.1 present
  · rw [Files.move_apart (.inr ⟨here, there⟩)] at missing
    exact .inl ⟨recorded, missing⟩

theorem of_move (present : files source .payload ≠ .none)
    (orphan : ((files.move source target .payload).move source target .record).Orphan key) :
    files.Orphan key := by
  rcases eq_or_ne source target with rfl | other
  · rwa [Files.move_self, Files.move_self] at orphan
  obtain ⟨recorded, missing⟩ := orphan
  rw [Files.move_apart (.inl (by simp))] at missing
  have left : key ≠ source := by
    rintro rfl
    exact recorded (Files.move_source other)
  by_cases there : key = target
  · rw [there, Files.move_target, Option.or_eq_none_iff] at missing
    exact absurd missing.1 present
  · rw [Files.move_apart (.inr ⟨left, there⟩)] at missing
    rw [Files.move_apart (.inr ⟨left, there⟩), Files.move_apart (.inr ⟨left, there⟩)] at recorded
    exact ⟨recorded, missing⟩

end Files.Orphan

/-- Only a rename to a key on the edge takes the payload from a record. -/
theorem Command.Leaves.orphan {session : Session} {name : String} {format : RecordFormat}
    {files files' : Files} {command : Command} {answer : Answer}
    (leaves : command.Leaves session name format files answer files') {key : String}
    (orphan : files'.Orphan key) : files.Orphan key ∨ command.Litters session name := by
  cases leaves with
  | looked => exact .inl orphan
  | refused => exact .inl orphan
  | spared => exact .inl orphan
  | kept => exact .inl orphan
  | stored => exact .inl (orphan.of_set_record (by rw [Files.set_same]; simp)).of_set_payload
  | storedHalfway => exact .inl orphan.of_set_payload
  | @deleted gone =>
    obtain ⟨recorded, missing⟩ := orphan
    have apart : key ≠ gone := by
      rintro rfl
      exact recorded Files.set_same
    rw [Files.set_other (by simp [apart]), Files.set_other (by simp [apart])] at recorded missing
    exact .inl ⟨recorded, missing⟩
  | renamed present => exact .inl (orphan.of_move present)
  | renamedHalfway present edge =>
    rcases orphan.of_move_payload present with before | recorded
    · exact .inl before
    -- There was a record to be moved, so it was its path at the target that did not fit.
    · exact .inr (.record (edge.resolve_left fun here => recorded here.2))
  | updated present => exact .inl (orphan.of_set_record present)
  | copied => exact .inl (orphan.of_set_record (by rw [Files.set_same]; simp)).of_set_payload
  | copiedHalfway => exact .inl orphan.of_set_payload
  | cleared => exact absurd rfl orphan.1

section Runs

variable {session : Session} {id : ConnectionId} {name : String} {connection : Connection}
variable {order : Disk.Order} {tree : Tree} (live : connection.slot = some session)
variable (plain : Plain name)

include live plain

theorem Command.leaves_leftover (shaped : Shaped session name tree) (command : Command) :
    Ends (Scene.calm id connection order) tree (command.run ⟨id, name⟩) fun _ later =>
      Shaped session name later ∧ (Leftover session name later →
        Leftover session name tree ∨ command.Litters session name) := by
  have shows : (Scene.calm id connection order).Shows id (some session) :=
    Scene.calm_shows_live live order
  have edits : Ends (Scene.calm id connection order) tree (command.run ⟨id, name⟩) fun _ later =>
      tree.EditedBy (command.reach.Allows session ⟨id, name⟩) later :=
    command.run_edits shows plain ⟨shaped.wellFormed, shaped.not_directory⟩
  refine ((command.leaves live plain tree shaped.stores).and edits).mono
    fun answer later ⟨⟨files', stores', done⟩, edited⟩ => ⟨stores'.shaped, ?_⟩
  rintro (folder | ⟨key, orphan⟩)
  · rcases Command.made_of_edits plain shaped.wellFormed edited folder with
      before | ⟨key, front, named, above, place⟩
    · exact .inl (.inl before)
    · refine .inr (.folder named fun flat => ?_)
      rw [← Session.place_inj.1 place, flat] at above
      exact absurd above.length_le (by simp)
  · rw [stores'.inTree_eq] at orphan
    exact (done.orphan orphan).imp_left fun before => .inr ⟨key, before⟩

theorem run_leftover (commands : List Command) (shaped : Shaped session name tree) :
    Ends (Scene.calm id connection order) tree (commands.mapM (Command.run ⟨id, name⟩))
      fun _ later => Shaped session name later ∧ (Leftover session name later →
        Leftover session name tree ∨ ∃ command ∈ commands, command.Litters session name) := by
  induction commands generalizing tree with
  | nil => exact .pure ⟨shaped, .inl⟩
  | cons command commands ih =>
    rw [List.mapM_cons]
    refine (command.leaves_leftover live plain shaped).bind fun answer later ⟨shaped', first⟩ => ?_
    refine (ih shaped').bind fun answers later' ⟨shaped'', rest⟩ => .pure ⟨shaped'', fun left => ?_⟩
    rcases rest left with before | ⟨other, mem, litters⟩
    · exact (first before).imp_right fun litters => ⟨command, by simp, litters⟩
    · exact .inr ⟨other, List.mem_cons_of_mem _ mem, litters⟩

end Runs

section Removal

variable {scene : Scene} {session : Session} {id : ConnectionId} {name : String} {tree : Tree}
variable (quiet : scene.Quiet) (plain : Plain name) (shows : scene.Shows id (some session))
variable (shaped : Shaped session name tree)

include quiet plain shows shaped

theorem contains_top : Runs scene tree (id.contains name) (.ok true) tree :=
  contains_of_find shows quiet ((shaped.way_top plain).find_of_node shaped.top)

theorem deleteBucket_of_occupied {last : String}
    (occupied : tree.find? (session.place [name] ++ [last]) ≠ none) :
    Runs scene tree (id.deleteBucket name false) (.error (.notEmpty name)) tree := by
  have refused : Runs scene tree (session.removeDirectory name)
      (.error (.ofIo name (.ofSystem .notEmpty))) tree :=
    change_of_error quiet session
      ((shaped.way_top plain).removeDirectory_of_occupied shaped.top occupied)
  unfold ConnectionId.deleteBucket
  exact (contains_top quiet plain shows shaped).andThen (.live shows (refused.lifted Runs.throw))

theorem deleteBucket_of_vacant
    (vacant : ∀ last, tree.find? (session.place [name] ++ [last]) = none) :
    Runs scene tree (id.deleteBucket name false) (.ok ())
      (SortedMap.erase tree (session.place [name])) := by
  have removed : Runs scene tree (session.removeDirectory name) (.ok ())
      (SortedMap.erase tree (session.place [name])) :=
    change_of_ok quiet session
      ((shaped.way_top plain).removeDirectory_of_vacant shaped.top vacant)
  unfold ConnectionId.deleteBucket
  exact (contains_top quiet plain shows shaped).andThen (.live shows (removed.lifted Runs.ok))

omit quiet shows shaped in
theorem deleteBucket_of_shaped {connection : Connection} {order : Disk.Order} {site : Site}
    (live : connection.slot = some session) (shaped : Shaped session name site.disk)
    (calm : (Scene.calm id connection order).holds site) :
    ∃ keys, (Bucket.list ⟨id, name⟩ "" none site).1 = (keys, none) ∧
      (keys ≠ [] ∨ Leftover session name site.disk →
        (id.deleteBucket name false site).1 = .error (.notEmpty name) ∧
          (id.deleteBucket name false site).2.disk = site.disk) ∧
      (keys = [] → ¬ Leftover session name site.disk →
        (id.deleteBucket name false site).1 = .ok () ∧
          (id.deleteBucket name false site).2.disk =
            SortedMap.erase site.disk (session.place [name])) := by
  have quiet := Scene.calm_quiet id connection order
  have shows : (Scene.calm id connection order).Shows id (some session) :=
    Scene.calm_shows_live live order
  obtain ⟨visited, walks⟩ : ∃ visited, Walks (inner session name order site.disk) [[]] visited :=
    exists_walk [[]]
  have fits : Disk.Fits session (name :: Layout.folders "") := shaped.fits
  have listed : (Bucket.list ⟨id, name⟩ "" none site).1 =
      (visited.flatMap (keysIn session name order site.disk ""), none) :=
    ((list_runs shaped plain live walks fits).run _ calm rfl).2.1
  have some_key : visited.flatMap (keysIn session name order site.disk "") ≠ [] ↔
      ∃ key, Holds session name site.disk key := by
    rw [Ne, List.eq_nil_iff_forall_not_mem, not_forall]
    simp [mem_listing_iff shaped walks]
  refine ⟨_, listed, fun why => ?_, fun no_key vacant => ?_⟩
  · rw [some_key] at why
    obtain ⟨last, occupied⟩ := shaped.occupied_iff.2 why
    exact ((deleteBucket_of_occupied quiet plain shows shaped occupied).run _ calm rfl).2
  · have empty : ∀ last, site.disk.find? (session.place [name] ++ [last]) = none := by
      by_contra occupied
      rcases shaped.occupied_iff.1 (not_forall.1 occupied) with holds | left
      · exact some_key.2 holds no_key
      · exact vacant left
    exact ((deleteBucket_of_vacant quiet plain shows shaped empty).run _ calm rfl).2

end Removal

/-- The removal of a bucket without recursion, after a run of commands that no rule makes fail. It is
refused where there are objects and where something is left over, and nowhere else. Something is
left over only if one of the commands wrote a key that has folders, or renamed to a key on the
edge. -/
theorem deleteBucket_refused_iff (bucket : Bucket) (session : Session) (connection : Connection)
    (site : Site) (wf : site.disk.WellFormed) (plain : Plain bucket.name)
    (made : (bucket.connection.createBucket bucket.name site).1 = .ok bucket)
    (known : site.connections[bucket.connection.index]? = some connection)
    (live : connection.slot = some session) (commands : List Command) :
    let ended := (commands.mapM (Command.run bucket)
      ((bucket.connection.createBucket bucket.name site).2.withRules [] [])).2
    let removed := bucket.connection.deleteBucket bucket.name false ended
    let left := Leftover session bucket.name ended.disk
    ∃ keys, (bucket.list "" none ended).1 = (keys, none) ∧
      (keys ≠ [] ∨ left →
        removed.1 = .error (.notEmpty bucket.name) ∧ removed.2.disk = ended.disk) ∧
      (keys = [] → ¬ left → removed.1 = .ok () ∧
        removed.2.disk = SortedMap.erase ended.disk (session.place [bucket.name])) ∧
      (left → ∃ command ∈ commands, command.Litters session bucket.name) := by
  intro ended removed left
  obtain ⟨known', directory⟩ := directory_of_made made known live
  have clean : ¬ Leftover session bucket.name
      (bucket.connection.createBucket bucket.name site).2.disk := by
    rw [Leftover, (stores_of_made made known live wf plain).inTree_eq, IsFolder,
      vacant_of_made wf plain directory (by simp)]
    rintro (folder | ⟨key, recorded, -⟩)
    · cases folder
    · exact recorded rfl
  have ran : Ends (Scene.calm bucket.connection connection
      (bucket.connection.createBucket bucket.name site).2.order) _
      (commands.mapM (Command.run bucket)) _ :=
    run_leftover live plain commands (shaped_of_made wf plain directory)
  obtain ⟨held, shaped, littered⟩ := ran.run (Site.withRules _ [] []) ⟨rfl, rfl, known', rfl⟩ rfl
  obtain ⟨keys, listed, refused, done⟩ := deleteBucket_of_shaped plain live shaped held
  exact ⟨keys, listed, refused, done, fun there => (littered there).resolve_left clean⟩

theorem emptied_bucket_is_removed :
    let bucket : Bucket := ⟨⟨0⟩, "b"⟩
    let commands := [Command.store "k" { bytes := [7] } SortedMap.empty, .delete "k" false]
    let made := (ConnectionId.createBucket ⟨0⟩ "b" (Site.connected "/" SortedMap.empty)).2
    let ended := (commands.mapM (Command.run bucket) (made.withRules [] [])).2
    (bucket.list "" none ended).1 = ([], none) ∧
      (bucket.connection.deleteBucket bucket.name false ended).1 = .ok () := by
  intro bucket commands made ended
  have created : (bucket.connection.createBucket bucket.name
      (Site.connected "/" SortedMap.empty)).1 = .ok bucket := by decide +kernel
  obtain ⟨keys, listed, -, removed, littered⟩ := deleteBucket_refused_iff bucket ⟨0, "/"⟩
    ⟨{}, some ⟨0, "/"⟩⟩ (Site.connected "/" SortedMap.empty) Tree.wellFormed_empty (by decide) created
    rfl rfl commands
  have empty : (bucket.list "" none ended).1 = ([], none) := by decide +kernel
  have nothing : keys = [] := congrArg Prod.fst (listed.symm.trans empty)
  refine ⟨empty, (removed nothing fun left => ?_).1⟩
  have flat : Layout.folders "k" = [] := by decide
  obtain ⟨command, mem, litters⟩ := littered left
  simp only [commands, List.mem_cons, List.not_mem_nil, or_false] at mem
  rcases mem with rfl | rfl
  · cases litters with
    | folder named sharded =>
      cases named
      exact sharded flat
  · cases litters with
    | folder named => cases named

/-- The folder of the sharded key stays when the key is deleted. -/
theorem emptied_bucket_is_refused :
    let bucket : Bucket := ⟨⟨0⟩, "b"⟩
    let commands := [Command.store "s3ql_data_1" { bytes := [7] } SortedMap.empty,
      .delete "s3ql_data_1" false]
    let made := (ConnectionId.createBucket ⟨0⟩ "b" (Site.connected "/" SortedMap.empty)).2
    let ended := (commands.mapM (Command.run bucket) (made.withRules [] [])).2
    (bucket.list "" none ended).1 = ([], none) ∧
      (bucket.connection.deleteBucket bucket.name false ended).1 =
        .error (.notEmpty bucket.name) := by
  decide +kernel

end TreeStore
