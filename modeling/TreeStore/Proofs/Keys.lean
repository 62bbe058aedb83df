import TreeStore.Proofs.Calm
import TreeStore.Proofs.Traversal
/-!
Which keys the files of a directory stand for. In a shaped bucket a key is found in the directory of
its own folders, once, and `contains` says of a key whether it is found.
-/
namespace TreeStore

open Layout (Part fileNames fileName)
open TreeStore.Path (Plain)

theorem keyOf?_of_payload {file : Disk.Entry} {key : String}
    (named : file.name = fileName key .payload) : Listing.keyOf? file = some key := by
  have chars : file.name.toList = (Key.token key).toList ++ Layout.payloadSuffix.toList := by
    rw [named, fileName, String.toList_append]
    rfl
  have payload : Bucket.isPayload file = true := by
    rw [Bucket.isPayload, List.isSuffixOf_iff_suffix, chars]
    exact List.suffix_append _ _
  have front : file.name.toList.take (file.name.toList.length - Layout.payloadSuffix.toList.length) =
      (Key.token key).toList := by
    rw [chars, List.length_append, Nat.add_sub_cancel, List.take_left]
  rw [Listing.keyOf?, if_pos payload, front, String.ofList_toList, Key.ofToken_token]

theorem keyOf?_of_record {file : Disk.Entry} {key : String}
    (named : file.name = fileName key .record) : Listing.keyOf? file = none := by
  have chars : file.name.toList = (Key.token key).toList ++ Layout.recordSuffix.toList := by
    rw [named, fileName, String.toList_append]
    rfl
  have other : ¬ Bucket.isPayload file = true := by
    rw [Bucket.isPayload, List.isSuffixOf_iff_suffix, chars, ← List.reverse_prefix]
    simp [Layout.payloadSuffix, Layout.recordSuffix]
  rw [Listing.keyOf?, if_neg other]

section Keys

variable {session : Session} {name : String} {order : Disk.Order} {tree : Tree}

variable (session name order tree) in
def keysIn (start : String) (top : List String) : List String :=
  (((order.entries tree (session.place (name :: top))).filter (!·.isDirectory)).filterMap
    Listing.keyOf?).filter fun key => start.toList.isPrefixOf key.toList

variable (session name tree) in
def Holds (key : String) : Prop :=
  ∃ content, tree.node? (session.place (fileNames name key .payload)) = some (.file content)

theorem place_fileNames (session : Session) (name key : String) (part : Part) :
    session.place (fileNames name key part) =
      session.place (name :: Layout.folders key) ++ [fileName key part] := by
  rw [fileNames, Session.place_concat]

theorem keyOf?_of_listed (shaped : Shaped session name tree) {top : List String}
    {file : Disk.Entry} {key : String}
    (mem : file ∈ order.entries tree (session.place (name :: top)))
    (no_directory : file.isDirectory = false) (found : Listing.keyOf? file = some key) :
    top = Layout.folders key ∧ file.name = fileName key .payload ∧ Holds session name tree key := by
  obtain ⟨node, stands, eq⟩ := mem_entries.1 mem
  rw [eq] at no_directory
  cases node with
  | directory => cases no_directory
  | file content =>
    have inside : tree.node? (session.place (name :: (top ++ [file.name]))) =
        some (.file content) := by
      rw [← List.cons_append, Session.place_concat, Tree.node?_concat, stands]
    obtain ⟨key', part, same⟩ := (shaped.entries _ _ (by simp) inside).1
    obtain ⟨rfl, last⟩ := List.append_inj' same rfl
    have named := List.singleton_inj.1 last
    cases part with
    | record =>
      rw [keyOf?_of_record named] at found
      cases found
    | payload =>
      rw [keyOf?_of_payload named, Option.some_inj] at found
      subst found
      refine ⟨rfl, named, content, ?_⟩
      rw [named] at inside
      exact inside

theorem mem_keysIn (shaped : Shaped session name tree) {start key : String} {top : List String} :
    key ∈ keysIn session name order tree start top ↔
      start.toList <+: key.toList ∧ top = Layout.folders key ∧ Holds session name tree key := by
  unfold keysIn
  rw [List.mem_filter, List.mem_filterMap, List.isPrefixOf_iff_prefix]
  constructor
  · rintro ⟨⟨file, mem, found⟩, front⟩
    obtain ⟨mem, plain⟩ := List.mem_filter.1 mem
    obtain ⟨rfl, -, holds⟩ := keyOf?_of_listed shaped mem (by simpa using plain) found
    exact ⟨front, rfl, holds⟩
  · rintro ⟨front, rfl, content, stands⟩
    rw [place_fileNames, Tree.node?_concat] at stands
    refine ⟨⟨⟨fileName key .payload, false, content.length⟩, ?_, keyOf?_of_payload rfl⟩, front⟩
    exact List.mem_filter.2 ⟨mem_entries.2 ⟨_, stands, rfl⟩, rfl⟩

theorem nodup_keysIn (shaped : Shaped session name tree) (start : String) (top : List String) :
    (keysIn session name order tree start top).Nodup := by
  have names : (order.entries tree (session.place (name :: top))).Pairwise
      fun a b => a.name ≠ b.name :=
    List.pairwise_map.1 (nodup_entries order tree (session.place (name :: top)))
  refine List.Nodup.filter _ (List.pairwise_filterMap.2 ((names.filter _).imp_of_mem ?_))
  intro a b mem mem' other key found key' found' same
  subst same
  obtain ⟨mem, plain⟩ := List.mem_filter.1 mem
  obtain ⟨mem', plain'⟩ := List.mem_filter.1 mem'
  obtain ⟨-, named, -⟩ := keyOf?_of_listed shaped mem (by simpa using plain) found
  obtain ⟨-, named', -⟩ := keyOf?_of_listed shaped mem' (by simpa using plain') found'
  exact other (named.trans named'.symm)

theorem keysIn_eq_filter (start : String) (top : List String) :
    keysIn session name order tree start top =
      (keysIn session name order tree "" top).filter fun key =>
        start.toList.isPrefixOf key.toList := by
  unfold keysIn
  rw [List.filter_filter]
  apply List.filter_congr
  intro key _
  simp

end Keys

theorem Disk.node_of_find_named {tree : Tree} {path : String} {front : List String} {last : String}
    (parts : Path.components path = front ++ [last]) (not_here : last ≠ ".")
    (not_above : last ≠ "..") {place : Location} {node : Node}
    (found : Disk.find tree path = .ok (place, node)) : tree.node? (locate path) = some node := by
  obtain ⟨reached, goal, found⟩ := ok_of_bind found
  have named : reached.last = .named last := by
    obtain ⟨route, read, goal⟩ := route_of_target goal
    obtain ⟨-, -, rfl⟩ := ofPath_eq_ok read
    rw [Route.target, parts, List.getLast?_concat] at goal
    split at goal
    case h_2 => cases goal
    case h_1 =>
      cases goal
      simp only [Last.ofName?, if_neg not_here, if_neg not_above]
  rw [named] at found
  obtain ⟨slot, looked, found⟩ := ok_of_bind found
  obtain ⟨-, -, -, -, rfl, -⟩ := slot_of_target goal looked
  dsimp only at found
  cases stands : tree.node? (locate path) with
  | none =>
    rw [stands] at found
    cases found
  | some node' =>
    rw [stands] at found
    dsimp only at found
    split at found
    · cases found
    · rw [(Prod.mk.inj (Except.ok.inj found)).2]

theorem Disk.node_of_find {session : Session} {tree : Tree} {names : List String} {last : String}
    (plain : ∀ n ∈ names ++ [last], Plain n) {place : Location} {node : Node}
    (found : Disk.find tree (session.resolve (Path.ofNames (names ++ [last]))) = .ok (place, node)) :
    tree.node? (session.place (names ++ [last])) = some node := by
  have parts : Path.components (session.resolve (Path.ofNames (names ++ [last]))) =
      Path.components session.root ++ names ++ [last] := by
    rw [Session.components_resolve, Path.components_ofNames plain, List.append_assoc]
  have last_plain := plain last (by simp)
  rw [← Session.locate_resolve plain session]
  exact node_of_find_named parts last_plain.not_here last_plain.not_above found

section Contains

variable {session : Session} {id : ConnectionId} {name : String} {tree : Tree} {scene : Scene}

/-- Both files of a key have paths that the disk takes. -/
def KeyFits (session : Session) (name key : String) : Prop :=
  ∀ part, Disk.Fits session (fileNames name key part)

theorem keyFits_iff {key : String} : KeyFits session name key ↔
    Disk.Fits session (fileNames name key .payload) ∧
      Disk.Fits session (fileNames name key .record) := by
  constructor
  · exact fun fits => ⟨fits .payload, fits .record⟩
  · rintro ⟨payload, record⟩ part
    cases part
    · exact payload
    · exact record

instance (session : Session) (name key : String) : Decidable (KeyFits session name key) :=
  decidable_of_iff _ keyFits_iff.symm

theorem Shaped.way_of_key (shaped : Shaped session name tree) (plain : Plain name) {key : String}
    {part : Part} (fits : Disk.Fits session (fileNames name key part)) :
    session.Way tree (name :: Layout.folders key) (fileName key part) := by
  refine shaped.way plain (fun n mem => ?_) fits
  rcases List.mem_append.1 mem with mem | mem
  · exact Layout.plain_of_mem_folders mem
  · exact List.mem_singleton.1 mem ▸ Layout.plain_fileName key part

theorem path_eq (id : ConnectionId) (name key : String) (part : Part) :
    Bucket.path ⟨id, name⟩ key part = Path.ofNames (fileNames name key part) :=
  Layout.place_append_suffix name key part

theorem holds_of_contains (shaped : Shaped session name tree) (plain : Plain name)
    (shows : scene.Shows id (some session)) (key : String) :
    Ends scene tree (Bucket.contains ⟨id, name⟩ key) fun answer tree' =>
      tree' = tree ∧ (answer = .ok true → Holds session name tree key) := by
  refine .live shows ((inspect_ends ..).lifted fun answer tree' ⟨same, stands⟩ => ?_)
  subst same
  cases answer with
  | error error =>
    dsimp only
    split
    · exact .ok ⟨rfl, fun eq => nomatch eq⟩
    · exact .throw ⟨rfl, fun eq => nomatch eq⟩
  | ok node =>
    refine .ok ⟨rfl, fun _ => ?_⟩
    obtain ⟨⟨place, node'⟩, found, -⟩ := Disk.ok_of_bind (stands node rfl)
    have path : Bucket.payloadPath ⟨id, name⟩ key = Path.ofNames (fileNames name key .payload) :=
      path_eq id name key .payload
    rw [path] at found
    have there := Disk.node_of_find (fun _ mem => Layout.plain_of_mem_fileNames plain mem) found
    cases node' with
    | directory => exact absurd there (shaped.not_directory key .payload)
    | file content => exact ⟨content, there⟩

theorem contains_of_holds (shaped : Shaped session name tree) (plain : Plain name)
    (quiet : scene.Quiet) (shows : scene.Shows id (some session)) {key : String}
    (holds : Holds session name tree key) :
    Runs scene tree (Bucket.contains ⟨id, name⟩ key) (.ok true) tree := by
  obtain ⟨content, stands⟩ := holds
  have fits := (shaped.entries (Layout.folders key ++ [fileName key .payload]) _ (by simp) stands).2
  have found := (shaped.way_of_key plain fits).find_of_node stands
  rw [← fileNames, ← path_eq id] at found
  exact contains_of_find shows quiet found

end Contains

end TreeStore
