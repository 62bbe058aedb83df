import Mathlib.Algebra.GroupWithZero.Nat
import TreeStore.Proofs.Listing
import TreeStore.Proofs.Writing
/-!
The size of a bucket. It is counted on a walk through all directories of the bucket, and each payload
file that is met there is the one that its key is read from: the walk adds up what a listing of all
keys would find one by one (`sizes_agree`). Records count nothing, whatever has become of them.
-/
namespace TreeStore

open Layout (Part fileNames fileName)
open TreeStore.Path (Plain)

section Folds

variable {session : Session} {tree : Tree} {base : String} {place : Location}
variable {order : Disk.Order} {scene : Scene}

theorem foldWithin_plays (quiet : scene.Quiet) (listsBy : scene.ListsBy order)
    (spans : session.Spans tree base place) (accepts : String → Bool)
    {pending visited : List (List String)}
    (walks : Walks (order.chosen tree place fun rest => accepts (Path.ofNames (base :: rest)))
      pending visited)
    (directories : ∀ rest ∈ pending, tree.node? (place ++ rest) = some .directory)
    {σ : Type} (count : σ → Visit → σ) {bound : Nat} (enough : visited.length < bound) (state : σ) :
    Plays scene tree
      (Walk.foldWithin (fun state visit => Pure.pure (count state visit)) bound
        ⟨session, accepts, pending.map fun rest => Path.ofNames (base :: rest)⟩ state)
      (.ok ((visited.map (order.visit tree base place accepts)).foldl count state)) tree
      (· = visited.map (session.listed base)) := by
  induction walks generalizing bound state with
  | done =>
    obtain ⟨bound, rfl⟩ := Nat.exists_eq_add_of_lt enough
    have ended : Plays scene tree (Walk.next? ⟨session, accepts, []⟩) (.ok none) tree (· = []) :=
      .pure rfl
    exact ended.transported fun events made => .ok (by simp [made])
  | @visit top pending visited more ih =>
    obtain ⟨bound, rfl⟩ : ∃ n, bound = n + 1 := ⟨bound - 1, by omega⟩
    refine (next?_plays quiet listsBy spans accepts (directories top (by simp)) pending).transported
      fun events first => ?_
    have others := ih (pending_directories directories) (Nat.lt_of_succ_lt_succ enough)
      (count state (order.visit tree base place accepts top))
    have counted : Plays scene tree (Pure.pure (count state (order.visit tree base place accepts top)) :
        Operation σ) (.ok (count state (order.visit tree base place accepts top))) tree (· = []) :=
      .ok rfl
    refine counted.andThen fun events' none => others.mono fun _ _ events'' ⟨ends, rest⟩ => ⟨ends, ?_⟩
    rw [first, none, rest]
    rfl

end Folds

section Counting

variable {session : Session} {name : String} {order : Disk.Order} {tree : Tree}

def Files.size (files : Files) (key : String) : Nat := ((files key .payload).map List.length).getD 0

theorem size_of_listed (shaped : Shaped session name tree) {top : List String} {file : Disk.Entry}
    {key : String} (mem : file ∈ order.entries tree (session.place (name :: top)))
    (no_directory : file.isDirectory = false) (found : Listing.keyOf? file = some key) :
    (Files.inTree session name tree).size key = file.size := by
  obtain ⟨rfl, named, content, holds⟩ := keyOf?_of_listed shaped mem no_directory found
  obtain ⟨node, stands, eq⟩ := mem_entries.1 mem
  have same : some node = some (.file content) := by
    rw [← stands, ← holds, place_fileNames, named, Tree.node?_concat]
  obtain rfl := Option.some_inj.1 same
  rw [eq, Files.size, Files.inTree, holds]
  rfl

theorem isSome_keyOf? (file : Disk.Entry) :
    (Listing.keyOf? file).isSome = Bucket.isPayload file := by
  unfold Listing.keyOf?
  split <;> simp_all

theorem map_size_of_keys {files : List Disk.Entry} {size : String → Nat}
    (sizes : ∀ file ∈ files, ∀ key, Listing.keyOf? file = some key → size key = file.size) :
    (files.filter Bucket.isPayload).map (·.size) = (files.filterMap Listing.keyOf?).map size := by
  induction files with
  | nil => rfl
  | cons file files ih =>
    have later := ih fun file mem => sizes file (List.mem_cons_of_mem _ mem)
    have payload := isSome_keyOf? file
    cases found : Listing.keyOf? file with
    | some key =>
      rw [found] at payload
      rw [List.filter_cons_of_pos payload.symm, List.filterMap_cons_some found, List.map_cons,
        List.map_cons, later, sizes file (by simp) key found]
    | none =>
      rw [found] at payload
      rw [List.filter_cons_of_neg (by simp [← payload]), List.filterMap_cons_none found, later]

theorem sizes_of_folder (shaped : Shaped session name tree) (accepts : String → Bool)
    (top : List String) :
    ((order.visit tree name (session.place [name]) accepts top).files.filter
        Bucket.isPayload).map (·.size) =
      (keysIn session name order tree "" top).map (Files.inTree session name tree).size := by
  have all : keysIn session name order tree "" top =
      ((order.entries tree (session.place (name :: top))).filter
        (!·.isDirectory)).filterMap Listing.keyOf? := List.filter_true _
  rw [all, Disk.Order.visit, ← Session.place_cons]
  refine map_size_of_keys fun file mem key found => ?_
  obtain ⟨mem, no_directory⟩ := List.mem_filter.1 mem
  exact size_of_listed shaped mem (by simpa using no_directory) found

theorem foldl_add_size (files : List Disk.Entry) (size : Nat) :
    files.foldl (fun size file => size + file.size) size = size + (files.map (·.size)).sum := by
  induction files generalizing size with
  | nil => rfl
  | cons file files ih =>
    rw [List.foldl_cons, ih, List.map_cons, List.sum_cons, Nat.add_assoc]

theorem foldl_count (shaped : Shaped session name tree) (accepts : String → Bool)
    (visited : List (List String)) (size : Nat) :
    (visited.map (order.visit tree name (session.place [name]) accepts)).foldl
        (fun size visit => (visit.files.filter Bucket.isPayload).foldl
          (fun size file => size + file.size) size) size =
      size + ((visited.flatMap (keysIn session name order tree "")).map
        (Files.inTree session name tree).size).sum := by
  induction visited generalizing size with
  | nil => rfl
  | cons top visited ih =>
    rw [List.map_cons, List.foldl_cons, ih, foldl_add_size, sizes_of_folder shaped,
      List.flatMap_cons, List.map_append, List.sum_append, Nat.add_assoc]

end Counting

theorem totalSize_runs {session : Session} {id : ConnectionId} {name : String}
    {connection : Connection} {order : Disk.Order} {tree : Tree} {visited : List (List String)}
    (shaped : Shaped session name tree) (plain : Plain name) (live : connection.slot = some session)
    (walks : Walks (inner session name order tree) [[]] visited) :
    Runs (Scene.calm id connection order) tree (Bucket.totalSize ⟨id, name⟩)
      (.ok ((visited.flatMap (keysIn session name order tree "")).map
        (Files.inTree session name tree).size).sum) tree := by
  have few : visited.length ≤ tree.directoryCount + 1 :=
    length_le_directoryCount (lists_inner.nodup_of_walks walks)
      fun top mem => (mem_whole_iff shaped walks).1 mem
  refine .live (Scene.calm_shows_live live order) ?_
  refine (visitBound_ends _ tree).lifted fun bound tree' ⟨eq, same⟩ => ?_
  subst eq same
  rw [inner_eq] at walks
  have top : ∀ rest ∈ [[]], tree'.node? (session.place [name] ++ rest) = some .directory := by
    intro rest mem
    rw [List.mem_singleton.1 mem, List.append_nil]
    exact shaped.top
  have folded := foldWithin_plays (Scene.calm_quiet id connection order)
    (Scene.calm_listsBy id connection order) (shaped.spans plain) (fun _ => true) walks top
    (fun size visit => (visit.files.filter Bucket.isPayload).foldl
      (fun size file => size + file.size) size) (Nat.lt_succ_of_le few) 0
  rw [foldl_count shaped, Nat.zero_add] at folded
  exact folded.ends.mono fun _ _ ⟨_, ends, _⟩ => ends

/-- In every state of a bucket since its making, whatever has failed before, three views of size agree
where nothing fails: a full listing gives the keys with a payload file, once each; the size of each of
them is the length of that file; and the size of the bucket is the sum of these. -/
theorem sizes_agree (bucket : Bucket) (session : Session) (site : Site) (since : bucket.Since site)
    (live : (site.connections[bucket.connection.index]?).bind Connection.slot = some session) :
    let files := Files.inTree session bucket.name site.disk
    ∃ keys sizes, (bucket.list "" none (site.withRules [] [])).1 = (keys, none) ∧ keys.Nodup ∧
      (∀ key, key ∈ keys ↔ ∃ content, files key .payload = some content) ∧
      (∀ key content, files key .payload = some content →
        (bucket.objectSize key (site.withRules [] [])).1 = .ok content.length) ∧
      keys.Forall₂ (fun key size =>
        (bucket.objectSize key (site.withRules [] [])).1 = .ok size) sizes ∧
      (bucket.totalSize (site.withRules [] [])).1 = .ok sizes.sum := by
  intro files
  have plain := since.plain
  obtain ⟨stores, connection, slot, calm⟩ := since.calm live
  have shaped := stores.shaped
  obtain ⟨id, name⟩ := bucket
  dsimp only at plain shaped files stores ⊢
  have walkable : ∃ visited, Walks (inner session name site.order site.disk) [[]] visited :=
    exists_walk [[]]
  obtain ⟨visited, walks⟩ := walkable
  have sized : ∀ key content, files key .payload = some content →
      (Bucket.objectSize ⟨id, name⟩ key (site.withRules [] [])).1 = .ok content.length :=
    fun key content present =>
      ((objectSize_of_held slot plain present _ stores).run _ calm rfl).2.1
  have held : ∀ key, key ∈ visited.flatMap (keysIn session name site.order site.disk "") ↔
      ∃ content, files key .payload = some content := by
    intro key
    rw [mem_listing_iff shaped walks]
    refine ⟨fun ⟨_, content, holds⟩ => ⟨content, ?_⟩, fun ⟨content, present⟩ => ?_⟩
    · simp only [files, Files.inTree, holds]
    · exact ⟨by simp, content, stores.held present⟩
  have listed : Runs (Scene.calm id connection site.order) site.disk (Bucket.list ⟨id, name⟩ "")
      (visited.flatMap (keysIn session name site.order site.disk ""), none) site.disk :=
    list_runs shaped plain slot walks shaped.fits
  refine ⟨_, _, (listed.run _ calm rfl).2.1, nodup_listing shaped walks "", held, sized, ?_,
    ((totalSize_runs shaped plain slot walks).run _ calm rfl).2.1⟩
  refine List.forall₂_map_right_iff.2 (List.forall₂_same.2 fun key mem => ?_)
  obtain ⟨content, present⟩ := (held key).1 mem
  have size : files.size key = content.length := by
    rw [Files.size, present]
    rfl
  rw [sized key content present, ← size]

/-- A sharded payload and a torn one are counted, and a record whose payload has gone is not. -/
theorem torn_payload_is_counted :
    let bucket : Bucket := ⟨⟨0⟩, "b"⟩
    let refused : Rule CallKind Refusal :=
      { occasion := .removeFile, path? := some "b/k.meta", effect := ⟨.other, "refused"⟩ }
    let cut : Rule StreamKind Cut := ⟨.write, some "b/n.dat", 0, none, ⟨1, .nulInName⟩⟩
    let made := (ConnectionId.createBucket ⟨0⟩ "b" (Site.connected "/" SortedMap.empty)).2
    let stored := ((Command.store "k" { bytes := [7, 8] } SortedMap.empty).run bucket
      (made.withRules [] [])).2
    let orphaned := ((Command.delete "k" false).run bucket (stored.withRules [refused] [])).2
    let torn := ((Command.store "n" { bytes := [4, 5, 6] } SortedMap.empty).run bucket
      (orphaned.withRules [] [cut])).2
    let site := ((Command.store "s3ql_data_12" { bytes := [1, 2, 3] } SortedMap.empty).run bucket
      (torn.withRules [] [])).2
    bucket.Since site ∧ (site.disk.find? ["b", "k.meta"]).isSome ∧
      ∃ keys sizes, (bucket.list "" none (site.withRules [] [])).1 = (keys, none) ∧ keys.Nodup ∧
        "s3ql_data_12" ∈ keys ∧ "n" ∈ keys ∧ "k" ∉ keys ∧
        (bucket.objectSize "s3ql_data_12" (site.withRules [] [])).1 = .ok 3 ∧
        (bucket.objectSize "n" (site.withRules [] [])).1 = .ok 1 ∧
        keys.Forall₂ (fun key size =>
          (bucket.objectSize key (site.withRules [] [])).1 = .ok size) sizes ∧
        (bucket.totalSize (site.withRules [] [])).1 = .ok sizes.sum := by
  intro bucket refused cut made stored orphaned torn site
  have since : bucket.Since site :=
    .asked (.asked (.asked (.asked .of_empty_disk [] [] _) [refused] [] _) [] [cut] _) [] [] _
  have ⟨live, record, shard, partly, gone⟩ :
      (site.connections[bucket.connection.index]?).bind Connection.slot = some ⟨0, "/"⟩ ∧
      (site.disk.find? ["b", "k.meta"]).isSome ∧
      Files.inTree ⟨0, "/"⟩ bucket.name site.disk "s3ql_data_12" .payload = some [1, 2, 3] ∧
      Files.inTree ⟨0, "/"⟩ bucket.name site.disk "n" .payload = some [4] ∧
      Files.inTree ⟨0, "/"⟩ bucket.name site.disk "k" .payload = none := by decide +kernel
  clear_value site
  obtain ⟨keys, sizes, listed, distinct, held, sized, each, total⟩ :=
    sizes_agree bucket ⟨0, "/"⟩ site since live
  refine ⟨since, record, keys, sizes, listed, distinct, (held _).2 ⟨_, shard⟩,
    (held _).2 ⟨_, partly⟩, fun mem => ?_, sized _ _ shard, sized _ _ partly, each, total⟩
  obtain ⟨content, present⟩ := (held _).1 mem
  rw [gone] at present
  cases present

end TreeStore
