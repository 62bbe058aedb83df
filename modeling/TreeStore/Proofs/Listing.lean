import TreeStore.Proofs.Keys
import TreeStore.Proofs.Visiting
/-!
Listings in a bucket that has been shaped by its own commands. The full walk visits every directory
once, so the full listing has every key once; a walk for a beginning starts further down and skips
shards, and loses no key that begins so (`prefix_listing_filters_full_listing`).
-/
namespace TreeStore

open Layout (fileNames fileName)
open TreeStore.Path (Plain)

def Found (scene : Scene) (tree : Tree) :
    List String → Option (Except StoreError String × Listing) → Prop
  | [], answer => answer = none
  | key :: more, answer => ∃ listing : Listing, answer = some (.ok key, listing) ∧
      Ends scene tree listing.next? fun answer' tree' => tree' = tree ∧ Found scene tree more answer'

/-- Asked again and again, the listing gives these keys and then comes to its end. -/
def Gives (scene : Scene) (tree : Tree) (keys : List String) (listing : Listing) : Prop :=
  Ends scene tree listing.next? fun answer tree' => tree' = tree ∧ Found scene tree keys answer

section Gives

variable {scene : Scene} {tree : Tree}

theorem take_of_gives {keys : List String} {listing : Listing} (gives : Gives scene tree keys listing)
    {bound : Nat} (enough : keys.length < bound) :
    Runs scene tree (Listing.take bound listing) (keys, none) tree := by
  induction keys generalizing listing bound with
  | nil =>
    obtain ⟨bound, rfl⟩ := Nat.exists_eq_add_of_lt enough
    refine Ends.bind gives fun answer tree' ⟨same, found⟩ => ?_
    subst same
    rw [found]
    exact Runs.pure
  | cons key keys ih =>
    cases bound with
    | zero => exact absurd enough (Nat.not_lt_zero _)
    | succ bound =>
      refine Ends.bind gives fun answer tree' ⟨same, listing', eq, gives'⟩ => ?_
      subst same eq
      exact (ih gives' (Nat.lt_of_succ_lt_succ enough)).bind Runs.pure

theorem gives_of_ready {start : String} {walk : Walk} (ready : List String) {keys : List String}
    (gives : Gives scene tree keys (.scanning start walk [])) :
    Gives scene tree (ready ++ keys) (.scanning start walk ready) := by
  induction ready with
  | nil => exact gives
  | cons key ready ih => exact Ends.pure ⟨rfl, _, rfl, ih⟩

end Gives

section Scanning

variable {session : Session} {id : ConnectionId} {name : String} {connection : Connection}
variable {order : Disk.Order} {tree : Tree}

def folderPath (name : String) (top : List String) : String := Path.ofNames (name :: top)

variable (session name order tree) in
def innerOf (accepts : String → Bool) (top : List String) : List (List String) :=
  (inner session name order tree top).filter fun place => accepts (folderPath name place)

theorem innerOf_eq (accepts : String → Bool) :
    innerOf session name order tree accepts =
      order.chosen tree (session.place [name]) fun rest => accepts (folderPath name rest) := by
  funext top
  rw [innerOf, inner_eq, Disk.Order.chosen, List.filter_true]
  rfl

theorem find_folder (shaped : Shaped session name tree) (plain : Plain name) {top : List String}
    (folder : IsFolder session name tree top) :
    Disk.find tree (session.resolve (folderPath name top)) =
      .ok (session.place (name :: top), .directory) := by
  rw [Session.place_cons]
  exact (shaped.spans plain).find_of_directory (isFolder_iff.1 folder)

theorem next?_of_folder (shaped : Shaped session name tree) (plain : Plain name)
    (accepts : String → Bool) {top : List String} (folder : IsFolder session name tree top)
    (pending : List (List String)) :
    Runs (Scene.calm id connection order) tree
      (Walk.next? ⟨session, accepts, (top :: pending).map (folderPath name)⟩)
      (.ok (some (Walk.visit accepts (folderPath name top)
          (order.entries tree (session.place (name :: top))),
        ⟨session, accepts, (innerOf session name order tree accepts top ++ pending).map
          (folderPath name)⟩))) tree := by
  have plays := next?_plays (Scene.calm_quiet id connection order)
    (Scene.calm_listsBy id connection order) (shaped.spans plain) accepts (isFolder_iff.1 folder)
    pending
  rw [innerOf_eq, Session.place_cons session name top, folderPath, visit_eq]
  exact plays.ends.mono fun _ _ ⟨_, ends, _⟩ => ends

theorem scan_gives (shaped : Shaped session name tree) (plain : Plain name)
    (accepts : String → Bool) (start : String) {pending visited : List (List String)}
    (walks : Walks (innerOf session name order tree accepts) pending visited)
    (folders : ∀ top ∈ pending, IsFolder session name tree top) {bound : Nat}
    (few : visited.length < bound) (enough : bound ≤ tree.directoryCount + 2) :
    Ends (Scene.calm id connection order) tree
      (Listing.scan start bound ⟨session, accepts, pending.map (folderPath name)⟩)
      fun answer tree' => tree' = tree ∧ Found (Scene.calm id connection order) tree
        (visited.flatMap (keysIn session name order tree start)) answer := by
  induction walks generalizing bound with
  | done =>
    obtain ⟨bound, rfl⟩ := Nat.exists_eq_add_of_lt few
    exact Ends.bind (Runs.pure (a := (.ok none : Except CallError (Option (Visit × Walk)))))
      fun answer tree' ⟨eq, same⟩ => by
        subst eq same
        exact .pure ⟨rfl, rfl⟩
  | @visit top pending visited more ih =>
    cases bound with
    | zero => exact absurd few (Nat.not_lt_zero _)
    | succ bound =>
      have later : ∀ place ∈ innerOf session name order tree accepts top ++ pending,
          IsFolder session name tree place := by
        intro place mem
        rcases List.mem_append.1 mem with mem | mem
        · obtain ⟨-, -, folder⟩ := mem_inner.1 (List.mem_filter.1 mem).1
          exact folder
        · exact folders place (List.mem_cons_of_mem _ mem)
      have few' : visited.length < bound := Nat.lt_of_succ_lt_succ few
      refine Ends.bind (next?_of_folder shaped plain accepts (folders top (by simp)) pending)
        fun answer tree' ⟨eq, same⟩ => ?_
      subst eq same
      rw [List.flatMap_cons]
      dsimp only
      have matches_eq : Listing.matching start (Walk.visit accepts (folderPath name top)
          (order.entries tree' (session.place (name :: top)))) =
          keysIn session name order tree' start top := rfl
      rw [matches_eq]
      cases keysIn session name order tree' start top with
      | nil => exact ih later few' (by omega)
      | cons key ready =>
        -- The scan stops here. It goes on with a new bound when another key is asked for.
        refine .pure ⟨rfl, _, rfl, gives_of_ready ready ?_⟩
        refine (visitBound_ends _ tree').bind fun bound' tree'' ⟨eq, same⟩ => ?_
        subst eq same
        exact ih later (by omega) (Nat.le_refl _)

theorem base_eq (plain : Plain name) (start : String) :
    Listing.base name start = folderPath name (Layout.folders start) := by
  unfold Listing.base
  split
  case isTrue none =>
    obtain rfl : start = "" := by simpa using none
    rfl
  case isFalse => exact Layout.parent_place plain start

theorem base_eq_name_iff (plain : Plain name) (start : String) :
    Listing.base name start = name ↔ Layout.folders start = [] := by
  rw [base_eq plain, folderPath]
  constructor
  · intro same
    have names := @Path.ofNames_injective (name :: Layout.folders start) [name]
      (fun n mem => Layout.plain_of_mem_path plain mem) (by simpa using plain) same
    simpa using names
  · intro flat
    rw [flat, Path.ofNames_singleton]

/-- A first directory below the bucket is looked for, and one that is not found has nothing to
list. Any other failure is one of the listing. -/
theorem enter_of_not_found {scene : Scene} (quiet : scene.Quiet)
    (shows : scene.Shows id (some session)) {start : String}
    (below : Listing.base name start ≠ name) {fault : IoError}
    (lost : Disk.find tree (session.resolve (Listing.base name start)) = .error fault) :
    Runs scene tree (Listing.enter ⟨id, name⟩ start)
      (if fault.kind = .notFound then .ok none
        else .error (.transport (.ofIo (Listing.base name start) fault))) tree := by
  refine .live shows ?_
  dsimp only
  rw [if_neg below]
  exact contains_bind_of_error shows quiet lost Runs.ok

theorem enter_of_folder (shaped : Shaped session name tree) (plain : Plain name)
    (live : connection.slot = some session) {start : String}
    (folder : IsFolder session name tree (Layout.folders start)) :
    Runs (Scene.calm id connection order) tree (Listing.enter ⟨id, name⟩ start)
      (.ok (some ⟨session, fun directory => Layout.mayHold name directory (Key.token start),
        [Layout.folders start].map (folderPath name)⟩)) tree := by
  have shows := live ▸ Scene.calm_shows id connection order
  have quiet := Scene.calm_quiet id connection order
  refine .live shows ?_
  dsimp only
  rw [base_eq plain]
  split
  · exact Runs.ok
  · have found : Runs (Scene.calm id connection order) tree
        (id.contains (folderPath name (Layout.folders start))) (.ok true) tree :=
      contains_of_find shows quiet (find_folder shaped plain folder)
    exact found.andThen Runs.ok

theorem enter_of_no_folder (shaped : Shaped session name tree) (plain : Plain name)
    (live : connection.slot = some session) {start : String}
    (fits : Disk.Fits session (name :: Layout.folders start))
    (missing : ¬ IsFolder session name tree (Layout.folders start)) :
    Runs (Scene.calm id connection order) tree (Listing.enter ⟨id, name⟩ start) (.ok none) tree := by
  have inside : ∀ n ∈ Layout.folders start, Plain n := fun _ mem => Layout.plain_of_mem_folders mem
  have below : Listing.base name start ≠ name := by
    intro itself
    rw [(base_eq_name_iff plain start).1 itself] at missing
    exact missing shaped.top
  have lost : Disk.find tree (session.resolve (Listing.base name start)) =
      .error (.ofSystem .noEntry) := by
    rw [base_eq plain]
    cases folders : Layout.folders start using List.reverseRecOn with
    | nil => exact absurd ((base_eq_name_iff plain start).2 folders) below
    | append_singleton top last =>
      rw [folders] at fits missing inside
      have above : top ++ [last] <+: Layout.folders start := folders ▸ List.prefix_rfl
      have nothing : tree.node? (session.place (name :: (top ++ [last]))) = none := by
        cases stands : tree.node? (session.place (name :: (top ++ [last]))) with
        | none => rfl
        | some node =>
          cases node with
          | directory => exact absurd stands missing
          | file content =>
            exact absurd (shaped.entries _ _ (by simp) stands).1 (Layout.not_lies_file start above content)
      have no_file := shaped.open_of_folders ((List.prefix_append top [last]).trans above)
      exact (shaped.way plain inside fits).find_of_missing no_file nothing
  have shows := live ▸ Scene.calm_shows id connection order
  exact enter_of_not_found (Scene.calm_quiet id connection order) shows below lost

end Scanning

section Whole

variable {session : Session} {name : String} {order : Disk.Order} {tree : Tree}

def Kept (name start : String) (top : List String) : Prop :=
  Layout.folders start <+: top ∧ ∀ place, Layout.folders start <+: place → place <+: top →
    place ≠ Layout.folders start → Layout.mayHold name (folderPath name place) (Key.token start) = true

theorem kept_concat {start : String} {top : List String} (kept : Kept name start top)
    (last : String) : Kept name start (top ++ [last]) ↔
      Layout.mayHold name (folderPath name (top ++ [last])) (Key.token start) = true := by
  have deeper : top ++ [last] ≠ Layout.folders start := fun same => by
    have := kept.1.length_le
    rw [← same, List.length_append, List.length_singleton] at this
    omega
  constructor
  · rintro ⟨down, all⟩
    exact all _ down List.prefix_rfl deeper
  · intro may
    refine ⟨kept.1.trans (List.prefix_append _ _), fun place down up other => ?_⟩
    rcases List.prefix_concat_iff.1 up with rfl | up
    · exact may
    · exact kept.2 place down up other

open Classical in
theorem skipping_walk {start : String} {visited : List (List String)}
    (walks : Walks (inner session name order tree) [Layout.folders start] visited) :
    Walks (innerOf session name order tree
        fun directory => Layout.mayHold name directory (Key.token start))
      [Layout.folders start] (visited.filter fun top => Kept name start top) := by
  have first : Kept name start (Layout.folders start) := by
    refine ⟨List.prefix_rfl, fun place down up other => absurd ?_ other⟩
    exact up.eq_of_length (Nat.le_antisymm up.length_le down.length_le)
  have below : ∀ place ∈ visited, Layout.folders start <+: place := by
    intro place mem
    obtain ⟨top, mem, leads⟩ := walks.mem_iff.1 mem
    rw [List.mem_singleton.1 mem] at leads
    exact lists_inner.prefix_of_leads leads
  have chosen : ∀ top ∈ visited, Kept name start top →
      innerOf session name order tree
        (fun directory => Layout.mayHold name directory (Key.token start)) top =
      (inner session name order tree top).filter fun place => Kept name start place := by
    intro top _ kept
    apply List.filter_congr
    intro place inside
    obtain ⟨last, rfl, -⟩ := mem_inner.1 inside
    simp [kept_concat kept]
  have rejected : ∀ top ∈ visited, ¬ Kept name start top →
      ∀ place ∈ inner session name order tree top, ¬ Kept name start place := by
    intro top mem lost place inside kept
    obtain ⟨last, rfl, -⟩ := mem_inner.1 inside
    refine lost ⟨below top mem, fun place down up other => ?_⟩
    exact kept.2 place down (up.trans (List.prefix_append _ _)) other
  have skipped := walks.filter chosen rejected
  rwa [List.filter_cons_of_pos (by simpa using first), List.filter_nil] at skipped

theorem not_mem_keysIn_of_skipped (shaped : Shaped session name tree) (plain : Plain name)
    {start : String} {top : List String} (skipped : ¬ Kept name start top) (key : String) :
    key ∉ keysIn session name order tree start top := by
  intro mem
  obtain ⟨front, rfl, -⟩ := (mem_keysIn shaped).1 mem
  refine skipped ⟨Layout.prefix_folders front, fun place _ up _ => ?_⟩
  exact Layout.mayHold_of_prefix plain front up

theorem flatMap_eq_nil {visited : List (List String)} {start : String}
    (none : ∀ top ∈ visited, ∀ key, key ∉ keysIn session name order tree start top) :
    visited.flatMap (keysIn session name order tree start) = [] := by
  rw [List.flatMap_eq_nil_iff]
  exact fun top mem => List.eq_nil_iff_forall_not_mem.2 (none top mem)

open Classical in
theorem flatMap_kept (shaped : Shaped session name tree) (plain : Plain name) (start : String)
    (places : List (List String)) :
    places.flatMap (keysIn session name order tree start) =
      (places.filter fun top => Kept name start top).flatMap
        (keysIn session name order tree start) := by
  induction places with
  | nil => rfl
  | cons top places ih =>
    rw [List.flatMap_cons, ih]
    by_cases kept : Kept name start top
    · rw [List.filter_cons_of_pos (by simpa using kept), List.flatMap_cons]
    · rw [List.filter_cons_of_neg (by simpa using kept),
        List.eq_nil_iff_forall_not_mem.2 (not_mem_keysIn_of_skipped shaped plain kept),
        List.nil_append]

variable {visited : List (List String)}

theorem mem_whole_iff (shaped : Shaped session name tree)
    (walks : Walks (inner session name order tree) [[]] visited) {top : List String} :
    top ∈ visited ↔ IsFolder session name tree top := by
  rw [mem_walk_iff shaped.wellFormed shaped.top walks]
  simp

theorem folder_of_holds (shaped : Shaped session name tree) {key : String}
    (holds : Holds session name tree key) : IsFolder session name tree (Layout.folders key) := by
  obtain ⟨content, stands⟩ := holds
  rw [place_fileNames] at stands
  exact shaped.wellFormed.above (List.cons_ne_nil _ []) (by rw [stands]; rfl)

theorem mem_listing_iff (shaped : Shaped session name tree)
    (walks : Walks (inner session name order tree) [[]] visited) {start key : String} :
    key ∈ visited.flatMap (keysIn session name order tree start) ↔
      start.toList <+: key.toList ∧ Holds session name tree key := by
  simp only [List.mem_flatMap, mem_keysIn shaped]
  constructor
  · rintro ⟨top, -, front, -, holds⟩
    exact ⟨front, holds⟩
  · rintro ⟨front, holds⟩
    exact ⟨_, (mem_whole_iff shaped walks).2 (folder_of_holds shaped holds), front, rfl, holds⟩

theorem nodup_listing (shaped : Shaped session name tree)
    (walks : Walks (inner session name order tree) [[]] visited) (start : String) :
    (visited.flatMap (keysIn session name order tree start)).Nodup := by
  refine List.nodup_flatMap.2 ⟨fun top _ => nodup_keysIn shaped start top, ?_⟩
  refine (lists_inner.nodup_of_walks walks).imp fun {a b} other key mem mem' => ?_
  obtain ⟨-, rfl, -⟩ := (mem_keysIn shaped).1 mem
  obtain ⟨-, rfl, -⟩ := (mem_keysIn shaped).1 mem'
  exact other rfl

theorem length_le_size {keys : List String} (nodup : keys.Nodup)
    (holds : ∀ key ∈ keys, Holds session name tree key) : keys.length ≤ tree.size := by
  have inside : keys.map (fun key => session.place (fileNames name key .payload)) ⊆
      tree.entries.map Prod.fst := by
    intro place mem
    obtain ⟨key, listed, rfl⟩ := List.mem_map.1 mem
    obtain ⟨content, stands⟩ := holds key listed
    rw [place_fileNames, Tree.node?_concat, ← place_fileNames, SortedMap.find?_eq_some_iff] at stands
    exact List.mem_map_of_mem (f := Prod.fst) stands
  have distinct : (keys.map fun key => session.place (fileNames name key .payload)).Nodup := by
    apply nodup.map
    intro a b same
    exact (Layout.fileNames_inj (Session.place_inj.1 same)).2.1
  have count := (distinct.subperm inside).length_le
  rwa [List.length_map, List.length_map] at count

/-- The walk for a beginning finds all that the full walk finds, in the same order. -/
theorem exists_skipping_walk (shaped : Shaped session name tree) (plain : Plain name)
    (walks : Walks (inner session name order tree) [[]] visited) {start : String}
    (folder : IsFolder session name tree (Layout.folders start)) :
    ∃ places, Walks (innerOf session name order tree
          fun directory => Layout.mayHold name directory (Key.token start))
        [Layout.folders start] places ∧ places.length ≤ tree.directoryCount + 1 ∧
      places.flatMap (keysIn session name order tree start) =
        visited.flatMap (keysIn session name order tree start) := by
  classical
  obtain ⟨front, middle, back, rfl, from_start⟩ :=
    walks.around ((mem_whole_iff shaped walks).2 folder)
  have distinct := lists_inner.nodup_of_walks walks
  rw [List.append_assoc] at distinct
  obtain ⟨-, tail, apart⟩ := List.nodup_append.1 distinct
  obtain ⟨middle_distinct, -, apart'⟩ := List.nodup_append.1 tail
  have outside : ∀ top ∈ front ++ back, ∀ key,
      key ∉ keysIn session name order tree start top := by
    intro top mem key listed
    obtain ⟨begins, rfl, holds⟩ := (mem_keysIn shaped).1 listed
    have inside : Layout.folders key ∈ middle :=
      (mem_walk_iff shaped.wellFormed folder from_start).2
        ⟨Layout.prefix_folders begins, folder_of_holds shaped holds⟩
    rcases List.mem_append.1 mem with mem | mem
    · exact apart _ mem _ (List.mem_append_left _ inside) rfl
    · exact apart' _ inside _ mem rfl
  have nothing := flatMap_eq_nil outside
  rw [List.flatMap_append, List.append_eq_nil_iff] at nothing
  refine ⟨_, skipping_walk from_start, ?_, ?_⟩
  · have folders : ∀ top ∈ middle.filter fun top => Kept name start top,
        IsFolder session name tree top := fun top mem =>
      (mem_whole_iff shaped walks).1
        (List.mem_append_left _ (List.mem_append_right _ (List.mem_filter.1 mem).1))
    exact length_le_directoryCount (middle_distinct.filter _) folders
  · rw [← flatMap_kept shaped plain, List.flatMap_append, List.flatMap_append, nothing.1,
      nothing.2, List.nil_append, List.append_nil]

variable {id : ConnectionId} {connection : Connection}

theorem list_runs (shaped : Shaped session name tree) (plain : Plain name)
    (live : connection.slot = some session)
    (walks : Walks (inner session name order tree) [[]] visited) {start : String}
    (fits : Disk.Fits session (name :: Layout.folders start)) :
    Runs (Scene.calm id connection order) tree (Bucket.list ⟨id, name⟩ start)
      (visited.flatMap (keysIn session name order tree start), none) tree := by
  have keys_nodup := nodup_listing shaped walks start
  have count := length_le_size keys_nodup fun key mem => ((mem_listing_iff shaped walks).1 mem).2
  refine (itemBound_ends _ tree).bind fun bound later ⟨eq, still⟩ => ?_
  subst eq still
  refine take_of_gives ?_ (by omega)
  by_cases folder : IsFolder session name later (Layout.folders start)
  · obtain ⟨places, skipping, few, same⟩ := exists_skipping_walk shaped plain walks folder
    refine Ends.bind (enter_of_folder shaped plain live folder) fun answer tree ⟨eq, still⟩ => ?_
    subst eq still
    refine (visitBound_ends _ tree).bind fun bound tree' ⟨eq, still⟩ => ?_
    subst eq still
    rw [← same]
    exact scan_gives shaped plain _ start skipping (by simpa using folder) (by omega)
      (Nat.le_refl _)
  · refine Ends.bind (enter_of_no_folder shaped plain live fits folder)
      fun answer tree ⟨eq, still⟩ => ?_
    subst eq still
    refine .pure ⟨rfl, ?_⟩
    have nothing : visited.flatMap (keysIn session name order tree start) = [] := by
      rw [List.eq_nil_iff_forall_not_mem]
      intro key mem
      obtain ⟨front, holds⟩ := (mem_listing_iff shaped walks).1 mem
      have below := folder_of_holds shaped holds
      exact folder (below.above shaped.wellFormed (Layout.prefix_folders front))
    rw [nothing]
    rfl

end Whole

/-- In every state of a bucket since its making, whatever has failed before, a full listing without
failures gives each key that is there once, and a listing for a beginning gives those of them that
begin so, in the same order. -/
theorem prefix_listing_filters_full_listing (bucket : Bucket) (session : Session) (site : Site)
    (since : bucket.Since site)
    (live : (site.connections[bucket.connection.index]?).bind Connection.slot = some session) :
    ∃ keys, (bucket.list "" none (site.withRules [] [])).1 = (keys, none) ∧ keys.Nodup ∧
      (∀ key, key ∈ keys ↔
        (bucket.contains key (site.withRules [] [])).1 = .ok true) ∧
      ∀ start, Disk.Fits session (bucket.name :: Layout.folders start) →
        (bucket.list start none (site.withRules [] [])).1 =
          (keys.filter fun key => start.toList.isPrefixOf key.toList, none) := by
  obtain ⟨other, shows, shaped⟩ := since.shaped
  have same : other = session := Option.some_inj.1 (shows.symm.trans live)
  rw [same] at shaped
  have plain := since.plain
  obtain ⟨id, name⟩ := bucket
  dsimp only at shaped plain live ⊢
  obtain ⟨connection, known, slot⟩ := Option.bind_eq_some_iff.1 live
  have walkable : ∃ visited, Walks (inner session name site.order site.disk) [[]] visited :=
    exists_walk [[]]
  obtain ⟨visited, walks⟩ := walkable
  have calm : (Scene.calm id connection site.order).holds (site.withRules [] []) :=
    ⟨rfl, rfl, known, rfl⟩
  have quiet := Scene.calm_quiet id connection site.order
  have shows := Scene.calm_shows id connection site.order
  rw [slot] at shows
  have listed : ∀ start, Disk.Fits session (name :: Layout.folders start) →
      (Bucket.list ⟨id, name⟩ start none (site.withRules [] [])).1 =
        (visited.flatMap (keysIn session name site.order site.disk start), none) :=
    fun _ fits => ((list_runs shaped plain slot walks fits).run _ calm rfl).2.1
  refine ⟨_, listed "" shaped.fits, nodup_listing shaped walks "", fun key => ?_,
    fun start fits => ?_⟩
  · rw [mem_listing_iff shaped walks]
    constructor
    · rintro ⟨-, holds⟩
      exact ((contains_of_holds shaped plain quiet shows holds).run _ calm rfl).2.1
    · intro found
      have contained := (holds_of_contains shaped plain shows key).run _ calm rfl
      exact ⟨by simp, contained.2.2 found⟩
  · rw [listed start fits, List.filter_flatMap]
    simp only [← keysIn_eq_filter]

theorem stored_key_is_listed :
    let bucket : Bucket := ⟨⟨0⟩, "b"⟩
    let made := (ConnectionId.createBucket ⟨0⟩ "b" (Site.connected "/" SortedMap.empty)).2
    let stored := Command.store "s3ql_data_1" { bytes := [] } SortedMap.empty
    let site := (stored.run bucket (made.withRules [] [])).2
    bucket.Since site ∧ ∃ keys, (bucket.list "" none (site.withRules [] [])).1 = (keys, none) ∧
      "s3ql_data_1" ∈ keys ∧ (bucket.list "s3ql" none (site.withRules [] [])).1 =
        (keys.filter fun key => "s3ql".toList.isPrefixOf key.toList, none) := by
  intro bucket made stored site
  have plain : Plain "b" := by decide
  have created : (ConnectionId.createBucket ⟨0⟩ "b" (Site.connected "/" SortedMap.empty)).1 =
      .ok bucket := by decide +kernel
  have first : bucket.Since made :=
    @Bucket.Since.made bucket _ Tree.wellFormed_empty plain created
  have since : bucket.Since site := @Bucket.Since.asked bucket made first [] [] stored
  have live : (site.connections[bucket.connection.index]?).bind Connection.slot =
      some ⟨0, "/"⟩ := by decide +kernel
  have fits : Disk.Fits ⟨0, "/"⟩ (bucket.name :: Layout.folders "s3ql") :=
    ⟨by decide +kernel, by unfold Disk.Reaches; decide +kernel⟩
  have stands : (bucket.contains "s3ql_data_1" (site.withRules [] [])).1 = .ok true := by
    decide +kernel
  obtain ⟨keys, listed, -, all, some⟩ :=
    prefix_listing_filters_full_listing bucket ⟨0, "/"⟩ site since live
  exact ⟨since, keys, listed, (all _).2 stands, some "s3ql" fits⟩

end TreeStore
