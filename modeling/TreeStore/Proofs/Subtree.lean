import Mathlib.Data.List.Perm.Subperm
import TreeStore.Proofs.Access
import TreeStore.Proofs.Walks
/-!
The part of a tree below a directory: which directories a walk goes down to (`mem_visited_iff`), that
it ends, and that the disk finds what lies below by the path of the directory and the names from
there on (`Session.Spans`), however that path is written.
-/
namespace TreeStore

open TreeStore.Path (Plain)
open Disk

namespace Path

theorem mem_fields {c : Char} (other : c ≠ '/') {s : List Char} (mem : c ∈ s) :
    ∃ field ∈ fields s, c ∈ field := by
  induction s with
  | nil => cases mem
  | cons d rest ih =>
    unfold fields
    rcases List.mem_cons.1 mem with rfl | mem
    · rw [if_neg other]
      cases fields rest with
      | nil => exact ⟨[c], by simp, by simp⟩
      | cons first others => exact ⟨c :: first, by simp, by simp⟩
    · obtain ⟨field, inside, mem⟩ := ih mem
      split
      · exact ⟨field, List.mem_cons_of_mem _ inside, mem⟩
      · cases eq : fields rest with
        | nil => exact absurd eq (fields_ne_nil rest)
        | cons first others =>
          rw [eq] at inside
          rcases List.mem_cons.1 inside with rfl | inside
          · exact ⟨d :: field, by simp, List.mem_cons_of_mem _ mem⟩
          · exact ⟨field, List.mem_cons_of_mem _ inside, mem⟩

theorem mem_toList_iff {c : Char} (other : c ≠ '/') {path : String} :
    c ∈ path.toList ↔ ∃ name ∈ components path, c ∈ name.toList := by
  constructor
  · intro mem
    obtain ⟨field, inside, mem⟩ := mem_fields other mem
    refine ⟨String.ofList field, List.mem_map_of_mem (List.mem_filter.2 ⟨inside, ?_⟩), by simpa⟩
    simpa using List.ne_nil_of_mem mem
  · rintro ⟨name, inside, mem⟩
    exact (mem_components inside).2.2 c mem

theorem getLast?_trimStart {path : String} {c : Char} (last : path.toList.getLast? = some c)
    (other : c ≠ '/') : (trimStart path).toList.getLast? = some c := by
  obtain ⟨front, whole⟩ := List.getLast?_eq_some_iff.1 last
  rw [trimStart, String.toList_ofList, whole, List.dropWhile_append]
  split
  · simp [other]
  · simp

end Path

theorem Session.getLast?_resolve (session : Session) {path : String} {c : Char}
    (last : path.toList.getLast? = some c) (other : c ≠ '/') :
    (session.resolve path).toList.getLast? = some c := by
  have trimmed := Path.getLast?_trimStart last other
  unfold resolve rooted
  dsimp only
  split <;> simp [String.toList_append, trimmed, List.getLast?_cons]

section Directories

variable {order : Disk.Order} {tree : Tree} {place : Location}

namespace Disk.Order

def names (order : Disk.Order) (tree : Tree) (place : Location) (top : List String) :
    List String :=
  (order.entries tree (place ++ top)).map Disk.Entry.name

/-- The directories in a directory below `place`, the one listed last first. All are given by the
names on the way from `place`. -/
def inner (order : Disk.Order) (tree : Tree) (place : Location) (top : List String) :
    List (List String) :=
  (((order.entries tree (place ++ top)).filter (·.isDirectory)).map
    fun entry => top ++ [entry.name]).reverse

def chosen (order : Disk.Order) (tree : Tree) (place : Location) (keep : List String → Bool)
    (top : List String) : List (List String) :=
  (order.inner tree place top).filter keep

end Disk.Order

open Disk.Order

theorem mem_inner_iff {top rest : List String} :
    rest ∈ order.inner tree place top ↔
      ∃ last, rest = top ++ [last] ∧ tree.node? (place ++ rest) = some .directory := by
  unfold Disk.Order.inner
  simp only [List.mem_reverse, List.mem_map, List.mem_filter]
  constructor
  · rintro ⟨entry, ⟨listed, directory⟩, rfl⟩
    obtain ⟨node, found, eq⟩ := mem_entries.1 listed
    refine ⟨entry.name, rfl, ?_⟩
    rw [← List.append_assoc, Tree.node?_concat, found]
    rw [eq] at directory
    cases node with
    | directory => rfl
    | file content => cases directory
  · rintro ⟨last, rfl, found⟩
    rw [← List.append_assoc, Tree.node?_concat] at found
    exact ⟨⟨last, true, 0⟩, ⟨mem_entries.2 ⟨.directory, found, rfl⟩, rfl⟩, rfl⟩

theorem mem_chosen_iff {keep : List String → Bool} {top rest : List String} :
    rest ∈ order.chosen tree place keep top ↔ (∃ last, rest = top ++ [last]) ∧
      tree.node? (place ++ rest) = some .directory ∧ keep rest = true := by
  unfold chosen
  rw [List.mem_filter, mem_inner_iff]
  constructor
  · rintro ⟨⟨last, named, directory⟩, kept⟩
    exact ⟨⟨last, named⟩, directory, kept⟩
  · rintro ⟨⟨last, named⟩, directory, kept⟩
    exact ⟨⟨last, named, directory⟩, kept⟩

theorem lists_chosen (order : Disk.Order) (tree : Tree) (place : Location)
    (keep : List String → Bool) :
    Lists (order.names tree place) (order.chosen tree place keep) where
  nodup top := nodup_entries order tree (place ++ top)
  next top := by
    unfold Disk.Order.chosen Disk.Order.inner Disk.Order.names
    rw [List.map_map]
    exact List.filter_sublist.trans ((List.filter_sublist.map _).reverse)

def Accepted (keep : List String → Bool) (top rest : List String) : Prop :=
  ∀ middle, top <+: middle → middle <+: rest → middle ≠ top → keep middle = true

theorem accepted_concat {keep : List String → Bool} {top rest : List String} (down : top <+: rest)
    (last : String) : Accepted keep top (rest ++ [last]) ↔
      Accepted keep top rest ∧ keep (rest ++ [last]) = true := by
  have deeper : rest ++ [last] ≠ top := fun same => by
    have longer := down.length_le
    rw [← same, List.length_append, List.length_singleton] at longer
    omega
  constructor
  · intro all
    refine ⟨fun middle above below => all middle above (below.trans (List.prefix_append _ _)), ?_⟩
    exact all _ (down.trans (List.prefix_append _ _)) List.prefix_rfl deeper
  · rintro ⟨all, kept⟩ middle above below other
    rcases List.prefix_concat_iff.1 below with rfl | below
    · exact kept
    · exact all middle above below other

/-- A walk goes down to the directories that it accepts all the way, and nowhere else. -/
theorem leads_chosen_iff (wf : tree.WellFormed) {keep : List String → Bool}
    {top rest : List String} (start : tree.node? (place ++ top) = some .directory) :
    Relation.ReflTransGen (fun a b => b ∈ order.chosen tree place keep a) top rest ↔
      top <+: rest ∧ tree.node? (place ++ rest) = some .directory ∧ Accepted keep top rest := by
  constructor
  · intro leads
    induction leads with
    | refl =>
      refine ⟨List.prefix_rfl, start, fun middle above below other => absurd ?_ other⟩
      exact below.eq_of_length (Nat.le_antisymm below.length_le above.length_le)
    | tail _ step ih =>
      obtain ⟨⟨last, rfl⟩, directory, kept⟩ := mem_chosen_iff.1 step
      obtain ⟨down, -, all⟩ := ih
      exact ⟨down.trans (List.prefix_append _ _), directory,
        (accepted_concat down last).2 ⟨all, kept⟩⟩
  · rintro ⟨⟨back, rfl⟩, directory, all⟩
    induction back using List.reverseRecOn with
    | nil => rw [List.append_nil]
    | append_singleton back last ih =>
      rw [← List.append_assoc top] at directory all ⊢
      have up : tree.node? (place ++ (top ++ back)) = some .directory := by
        apply wf.above (List.cons_ne_nil last [])
        rw [List.append_assoc, directory]
        rfl
      obtain ⟨all, kept⟩ := (accepted_concat (List.prefix_append top back) last).1 all
      exact (ih up all).tail (mem_chosen_iff.2 ⟨⟨last, rfl⟩, directory, kept⟩)

theorem mem_visited_iff (wf : tree.WellFormed) {keep : List String → Bool} {top rest : List String}
    {visited : List (List String)} (start : tree.node? (place ++ top) = some .directory)
    (walks : Walks (order.chosen tree place keep) [top] visited) :
    rest ∈ visited ↔ top <+: rest ∧ tree.node? (place ++ rest) = some .directory ∧
      Accepted keep top rest := by
  rw [walks.mem_iff]
  simp only [List.mem_singleton, exists_eq_left]
  exact leads_chosen_iff wf start

def Tree.depth (tree : Tree) : Nat := (tree.entries.map fun entry => entry.1.length).foldr max 0

theorem Tree.length_le_depth {place : Location} {node : Node}
    (found : tree.find? place = some node) : place.length ≤ tree.depth := by
  have mem := List.mem_map_of_mem (f := fun entry : Location × Node => entry.1.length)
    ((SortedMap.find?_eq_some_iff tree).1 found)
  have bound : ∀ {lengths : List Nat} {n : Nat}, n ∈ lengths → n ≤ lengths.foldr max 0 := by
    intro lengths n mem
    induction lengths with
    | nil => cases mem
    | cons first rest ih =>
      rw [List.foldr_cons]
      rcases List.mem_cons.1 mem with rfl | mem
      · exact Nat.le_max_left _ _
      · exact (ih mem).trans (Nat.le_max_right _ _)
  exact bound mem

theorem exists_visited (order : Disk.Order) (tree : Tree) (place : Location)
    (keep : List String → Bool) (pending : List (List String)) :
    ∃ visited, Walks (order.chosen tree place keep) pending visited := by
  refine Walks.exists_of_height (fun rest => tree.depth - (place ++ rest).length) ?_ pending
  intro top rest mem
  obtain ⟨⟨last, rfl⟩, directory, -⟩ := mem_chosen_iff.1 mem
  rw [← List.append_assoc, Tree.node?_concat] at directory
  have deep := Tree.length_le_depth directory
  simp only [List.length_append, List.length_singleton] at deep ⊢
  omega

theorem length_le_of_directories {places : List (List String)} (nodup : places.Nodup)
    (directories : ∀ rest ∈ places, tree.node? (place ++ rest) = some .directory) :
    places.length ≤ tree.directoryCount + 1 := by
  have inside : places.map (place ++ ·) ⊆
      [] :: (tree.entries.filter fun entry => entry.2.isDirectory).map Prod.fst := by
    intro location mem
    obtain ⟨rest, listed, rfl⟩ := List.mem_map.1 mem
    have directory := directories rest listed
    by_cases root : place ++ rest = []
    · exact List.mem_cons.2 (.inl root)
    · rw [Tree.node?_of_ne_nil _ root] at directory
      have entry := (SortedMap.find?_eq_some_iff tree).1 directory
      exact List.mem_cons_of_mem _ (List.mem_map.2 ⟨_, List.mem_filter.2 ⟨entry, rfl⟩, rfl⟩)
  have distinct : (places.map (place ++ ·)).Nodup :=
    nodup.map fun a b same => List.append_cancel_left same
  have count := (distinct.subperm inside).length_le
  simpa [Tree.directoryCount] using count

end Directories

namespace Disk

theorem enter_concat_iff {tree : Tree} {place next : Location} {front : List String}
    {name : String} : enter tree place (front ++ [name]) = .ok next ↔ ∃ directory,
      enter tree place front = .ok directory ∧ step tree directory name = .ok next := by
  induction front generalizing place with
  | nil =>
    rw [List.nil_append, enter]
    cases passed : step tree place name <;> simp [enter, passed]
  | cons first front ih =>
    rw [List.cons_append, enter, enter]
    cases step tree place first with
    | error error => simp
    | ok middle => exact ih

theorem ofPath_of {path : String} (no_nul : hasNul path = false)
    (short : path.utf8ByteSize < pathLimit) :
    Route.ofPath path = .ok ⟨Path.components path, path.toList.getLast? == some '/'⟩ := by
  rw [Route.ofPath, no_nul, if_neg (by decide), if_neg (Nat.not_le.2 short)]

theorem find_directory_iff_step {tree : Tree} {path name : String} {directory place : Location}
    {slash : Bool} (reached : target tree path = .ok ⟨directory, .ofName? (some name), slash⟩) :
    find tree path = .ok (place, .directory) ↔ step tree directory name = .ok place := by
  simp only [find, reached, bind, Except.bind, step, Last.ofName?]
  by_cases here : name = "."
  · simp [here]
  by_cases above : name = ".."
  · simp [above]
  simp only [if_neg here, if_neg above, Target.slot]
  cases looked : entry? tree directory name with
  | error error => simp
  | ok node? =>
    rcases node? with _ | _ | content
    · simp
    · simp [Node.isDirectory]
    · cases slash <;> simp [Node.isDirectory]

theorem find_directory_iff {tree : Tree} {path : String} {place : Location} :
    find tree path = .ok (place, .directory) ↔ hasNul path = false ∧
      path.utf8ByteSize < pathLimit ∧ enter tree [] (Path.components path) = .ok place := by
  cases read : Route.ofPath path with
  | error error =>
    refine ⟨fun found => ?_, fun ⟨no_nul, short, _⟩ => ?_⟩
    · simp [find, target, read, bind, Except.bind] at found
    · rw [ofPath_of no_nul short] at read
      cases read
  | ok route =>
    obtain ⟨no_nul, short, rfl⟩ := ofPath_eq_ok read
    have reached : target tree path = _ := target_of_route read
    rw [Route.target] at reached
    simp only [no_nul, short, true_and]
    cases names : Path.components path using List.reverseRecOn with
    | nil =>
      rw [names] at reached
      simp [find, reached, bind, Except.bind, enter, Last.ofName?]
    | append_singleton front name =>
      rw [names, List.dropLast_concat, List.getLast?_concat] at reached
      rw [enter_concat_iff]
      cases gone : enter tree [] front with
      | error error =>
        rw [gone] at reached
        simp [find, reached, bind, Except.bind]
      | ok directory =>
        rw [gone] at reached
        simp [find_directory_iff_step reached]

theorem find_mono {tree tree' : Tree} {path : String} {place : Location}
    (kept : ∀ place, tree.node? place = some .directory → tree'.node? place = some .directory)
    (found : find tree path = .ok (place, .directory)) :
    find tree' path = .ok (place, .directory) := by
  rw [find_directory_iff] at found ⊢
  exact ⟨found.1, found.2.1, enter_mono kept found.2.2⟩

theorem leads_of_find {tree : Tree} {path : String} {place : Location}
    (found : find tree path = .ok (place, .directory)) {front : List String} {name : String}
    (names : Path.components path = front ++ [name]) (here : name ≠ ".") (above : name ≠ "..") :
    ∃ parent slash, Leads tree path parent name slash ∧ place = parent ++ [name] := by
  obtain ⟨no_nul, short, entered⟩ := find_directory_iff.1 found
  rw [names] at entered
  obtain ⟨parent, gone, passed⟩ := enter_concat_iff.1 entered
  refine ⟨parent, path.toList.getLast? == some '/', ⟨?_, ?_⟩, ?_⟩
  · rw [target_of_route (ofPath_of no_nul short), Route.target, names, List.dropLast_concat, gone,
      List.getLast?_concat]
    simp only [Last.ofName?, if_neg here, if_neg above]
  all_goals
    rw [step, if_neg here, if_neg above] at passed
    split at passed
    all_goals cases passed
  case h_4 looked => exact (looked_eq looked).2
  case h_4 => rfl

end Disk

theorem Tree.WellFormed.exists_front {tree : Tree} (wf : tree.WellFormed) {place : Location}
    {rest : List String} (there : (tree.node? (place ++ rest)).isSome) {name : String}
    (mem : name ∈ rest) : ∃ front, (tree.find? (place ++ front ++ [name])).isSome := by
  obtain ⟨front, back, rfl⟩ := List.append_of_mem mem
  refine ⟨front, ?_⟩
  rw [← Tree.node?_concat]
  rcases eq_or_ne back [] with rfl | more
  · rwa [← List.append_assoc] at there
  · have split : place ++ (front ++ name :: back) = place ++ front ++ [name] ++ back := by simp
    rw [split] at there
    rw [wf.above more there]
    rfl

/-- `base` leads to the directory at `place`, and the disk takes the paths of all that lies below. -/
structure Session.Spans (session : Session) (tree : Tree) (base : String) (place : Location) :
    Prop where
  wellFormed : tree.WellFormed
  found : Disk.find tree (session.resolve base) = .ok (place, .directory)
  short : ∀ rest name, (tree.find? (place ++ rest ++ [name])).isSome →
    name.utf8ByteSize ≤ nameLimit
  reaches : ∀ rest, (tree.find? (place ++ rest)).isSome →
    Reaches session (Path.ofNames (base :: rest))

namespace Session.Spans

variable {session : Session} {tree : Tree} {base : String} {place : Location}

theorem directory (spans : session.Spans tree base place) :
    tree.node? place = some .directory :=
  enter_directory spans.wellFormed (Tree.node?_root tree) (find_directory_iff.1 spans.found).2.2

theorem locate_eq (spans : session.Spans tree base place) :
    locate (session.resolve base) = place :=
  (enter_eq_settle (find_directory_iff.1 spans.found).2.2).symm

theorem name_of_mem (spans : session.Spans tree base place) {rest : List String}
    (there : (tree.node? (place ++ rest)).isSome) :
    ∀ name ∈ rest, Plain name ∧ name.utf8ByteSize ≤ nameLimit := by
  intro name mem
  obtain ⟨front, stands⟩ := spans.wellFormed.exists_front there mem
  exact ⟨spans.wellFormed.plain _ _ stands, spans.short _ _ stands⟩

theorem leads (spans : session.Spans tree base place) {rest : List String} {last : String}
    (there : (tree.find? (place ++ rest ++ [last])).isSome) :
    Leads tree (session.resolve (Path.ofNames (base :: (rest ++ [last])))) (place ++ rest) last
      false := by
  have parent : tree.node? (place ++ rest) = some .directory := spans.wellFormed.parent _ _ there
  have names : ∀ name ∈ rest ++ [last], Plain name ∧ name.utf8ByteSize ≤ nameLimit := by
    apply spans.name_of_mem
    rw [← List.append_assoc, Tree.node?_concat]
    exact there
  have plain : ∀ name ∈ rest ++ [last], Plain name := fun name mem => (names name mem).1
  have reaches := spans.reaches (rest ++ [last]) (by rwa [← List.append_assoc])
  obtain ⟨no_nul, -, entered⟩ := find_directory_iff.1 spans.found
  have parts : Path.components (session.resolve (Path.ofNames (base :: (rest ++ [last])))) =
      Path.components (session.resolve base) ++ rest ++ [last] := by
    rw [Session.components_resolve_cons plain, List.append_assoc]
  -- A NUL or a slash at the end would show in the components, all of which are known.
  have nul : hasNul (session.resolve (Path.ofNames (base :: (rest ++ [last])))) = false := by
    simp only [hasNul, List.contains_eq_mem, decide_eq_false_iff_not] at no_nul ⊢
    rw [Path.mem_toList_iff (by decide)] at no_nul ⊢
    rw [parts, List.append_assoc]
    rintro ⟨name, mem, inside⟩
    rcases List.mem_append.1 mem with mem | mem
    · exact no_nul ⟨name, mem, inside⟩
    · exact (plain name mem).no_nul inside
  have slash : ((session.resolve (Path.ofNames (base :: (rest ++ [last])))).toList.getLast? ==
      some '/') = false := by
    have stop := @Path.getLast?_ofNames (base :: rest) last (plain last (by simp))
    cases ends : last.toList.getLast? with
    | none => exact absurd (List.getLast?_eq_none_iff.1 ends) (plain last (by simp)).toList_ne_nil
    | some c =>
      have other : c ≠ '/' := fun same =>
        Path.getLast?_ne_slash (plain last (by simp)) (same ▸ ends)
      rw [ends, List.cons_append] at stop
      rw [session.getLast?_resolve stop other]
      simpa using other
  have read : Route.ofPath (session.resolve (Path.ofNames (base :: (rest ++ [last])))) =
      .ok ⟨Path.components (session.resolve base) ++ rest ++ [last], false⟩ := by
    rw [ofPath_of nul reaches, parts, slash]
  refine ⟨?_, (names last (by simp)).2⟩
  have through := enter_of_directory spans.wellFormed
    (fun name mem => plain name (List.mem_append_left _ mem))
    (fun name mem => (names name (List.mem_append_left _ mem)).2) parent
  have stop := plain last (by simp)
  rw [target_of_route read, Route.target, List.dropLast_concat, enter_append entered, through,
    List.getLast?_concat]
  simp only [Last.ofName?, if_neg stop.not_here, if_neg stop.not_above]

theorem find_of_node (spans : session.Spans tree base place) {rest : List String} {node : Node}
    (some : rest ≠ []) (there : tree.node? (place ++ rest) = .some node) :
    Disk.find tree (session.resolve (Path.ofNames (base :: rest))) = .ok (place ++ rest, node) := by
  cases rest using List.reverseRecOn with
  | nil => exact absurd rfl some
  | append_singleton rest last =>
    rw [← List.append_assoc] at there ⊢
    have present : (tree.find? (place ++ rest ++ [last])).isSome := by
      rw [← Tree.node?_concat, there]
      rfl
    rw [(spans.leads present).find_eq, there]
    rfl

theorem find_of_directory (spans : session.Spans tree base place) {rest : List String}
    (there : tree.node? (place ++ rest) = some .directory) :
    Disk.find tree (session.resolve (Path.ofNames (base :: rest))) =
      .ok (place ++ rest, .directory) := by
  rcases eq_or_ne rest [] with rfl | named
  · rw [List.append_nil]
    exact spans.found
  · exact spans.find_of_node named there

theorem iff_entries : session.Spans tree base place ↔ tree.WellFormed ∧
    Disk.find tree (session.resolve base) = .ok (place, .directory) ∧
    ∀ entry ∈ tree.entries, ∀ rest ∈ Tree.below? place entry.1,
      (∀ name ∈ rest, name.utf8ByteSize ≤ nameLimit) ∧
        Reaches session (Path.ofNames (base :: rest)) := by
  constructor
  · intro spans
    refine ⟨spans.wellFormed, spans.found, fun ⟨location, node⟩ mem rest below => ?_⟩
    obtain rfl : location = place ++ rest := Tree.below?_eq_some_iff.1 below
    have found := (SortedMap.find?_eq_some_iff tree).2 mem
    have named : place ++ rest ≠ [] := by
      intro root
      rw [root, spans.wellFormed.root] at found
      cases found
    have there : (tree.node? (place ++ rest)).isSome := by
      rw [Tree.node?_of_ne_nil _ named, found]
      rfl
    exact ⟨fun name mem => (spans.name_of_mem there name mem).2,
      spans.reaches rest (by rw [found]; rfl)⟩
  · rintro ⟨wf, found, each⟩
    have below : ∀ rest, (tree.find? (place ++ rest)).isSome →
        (∀ name ∈ rest, name.utf8ByteSize ≤ nameLimit) ∧
          Reaches session (Path.ofNames (base :: rest)) := by
      intro rest present
      obtain ⟨node, stands⟩ := Option.isSome_iff_exists.1 present
      exact each _ ((SortedMap.find?_eq_some_iff tree).1 stands) rest
        (Tree.below?_eq_some_iff.2 rfl)
    refine ⟨wf, found, fun rest name present => ?_, fun rest present => (below rest present).2⟩
    rw [List.append_assoc] at present
    exact (below _ present).1 name (by simp)

end Session.Spans

instance (session : Session) (tree : Tree) (base : String) (place : Location) :
    Decidable (session.Spans tree base place) :=
  decidable_of_iff _ Session.Spans.iff_entries.symm

end TreeStore
