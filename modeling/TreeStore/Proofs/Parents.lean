import Mathlib.Data.List.Infix
import TreeStore.Proofs.Logged
/-!
The making of the directories of a path, call by call. Each of them is looked for, the outermost
first, and made where it is missing (`makeMissing_plays`); afterwards all of them are there.
-/
namespace TreeStore

open TreeStore.Path (Plain)

/-- The beginnings of `front ++ rest` that are longer than `front`, the shortest first. -/
def Path.fronts (front rest : List String) : List (List String) := rest.inits.tail.map (front ++ ·)

theorem Path.fronts_cons (front : List String) (name : String) (rest : List String) :
    fronts front (name :: rest) = (front ++ [name]) :: fronts (front ++ [name]) rest := by
  cases rest <;> simp [fronts, List.inits]

theorem Path.mem_fronts {front rest names : List String} :
    names ∈ fronts front rest ↔ ∃ more, more ≠ [] ∧ more <+: rest ∧ names = front ++ more := by
  induction rest generalizing front with
  | nil => simp [fronts]
  | cons name rest ih =>
    rw [fronts_cons, List.mem_cons, ih]
    constructor
    · rintro (rfl | ⟨more, -, below, rfl⟩)
      · exact ⟨[name], by simp, by simp, rfl⟩
      · exact ⟨name :: more, by simp, List.cons_prefix_cons.2 ⟨rfl, below⟩, by simp⟩
    · rintro ⟨more, some, below, rfl⟩
      obtain ⟨first, more, rfl⟩ := List.exists_cons_of_ne_nil some
      obtain ⟨rfl, below'⟩ := List.cons_prefix_cons.1 below
      rcases eq_or_ne more [] with rfl | some
      · exact .inl rfl
      · exact .inr ⟨more, some, below', by simp⟩

def Call.opens (path : String) : Call → Bool
  | .openFile _ path' => path' = path
  | _ => false

namespace Session

def missing (session : Session) (tree : Tree) (front rest : List String) : List (List String) :=
  (Path.fronts front rest).filter fun names => (tree.node? (session.place names)).isNone

def grown (session : Session) (tree : Tree) : List (List String) → Tree
  | [] => tree
  | names :: more => session.grown (SortedMap.insert tree (session.place names) .directory) more

def made (session : Session) (names : List String) : Event :=
  ⟨session.number, .makeDirectory (Path.ofNames names), none⟩

/-- What is noted of a directory that is looked for, and made where it is missing. -/
def sought (session : Session) (tree : Tree) (names : List String) : List Event :=
  match tree.node? (session.place names) with
  | some _ => [⟨session.number, .stat (Path.ofNames names), none⟩]
  | none =>
    [⟨session.number, .stat (Path.ofNames names),
      some (.ofIo (Path.ofNames names) (.ofSystem .noEntry))⟩, session.made names]

/-- A path of plain names that the disk can take, with no file where a directory belongs. -/
structure Passable (session : Session) (tree : Tree) (names : List String) : Prop where
  wellFormed : tree.WellFormed
  seated : session.Seated tree
  plain : ∀ n ∈ names, Plain n
  fits : Disk.Fits session names
  no_file : session.Open tree names

instance (session : Session) (tree : Tree) (names : List String) :
    Decidable (session.Open tree names) :=
  decidable_of_iff (∀ front ∈ names.inits,
      (tree.node? (session.place front)).all Node.isDirectory = true) <| by
    refine forall_congr' fun front => ?_
    rw [List.mem_inits]
    refine imp_congr_right fun _ => ?_
    cases tree.node? (session.place front) with
    | none => simp
    | some node => cases node <;> simp [Node.isDirectory]

instance (session : Session) (tree : Tree) (names : List String) :
    Decidable (session.Passable tree names) :=
  decidable_of_iff (tree.WellFormed ∧ session.Seated tree ∧ (∀ n ∈ names, Plain n) ∧
      Disk.Fits session names ∧ session.Open tree names)
    ⟨fun ⟨wf, seated, plain, fits, no_file⟩ => ⟨wf, seated, plain, fits, no_file⟩,
    fun passable => ⟨passable.wellFormed, passable.seated, passable.plain, passable.fits,
      passable.no_file⟩⟩

section Passable

variable {session : Session} {tree : Tree} {names front rest : List String} {last : String}

theorem find?_grown (fronts : List (List String)) (place : Location) :
    (session.grown tree fronts).find? place =
      if place ∈ fronts.map session.place then some .directory else tree.find? place := by
  induction fronts generalizing tree with
  | nil => rfl
  | cons names more ih =>
    rw [grown, ih, SortedMap.find?_insert, List.map_cons]
    by_cases later : place ∈ more.map session.place
    · rw [if_pos later, if_pos (List.mem_cons_of_mem _ later)]
    · rw [if_neg later]
      simp only [List.mem_cons, later, or_false]

namespace Passable

theorem way (passable : session.Passable tree names) (above : front ++ [last] <+: names) :
    session.Way tree front last := by
  obtain ⟨rest, rfl⟩ := above
  have plain : ∀ n ∈ front ++ [last], Plain n :=
    fun n mem => passable.plain n (List.mem_append_left _ mem)
  exact {
    wellFormed := passable.wellFormed
    seated := passable.seated
    plain := fun n mem => plain n (List.mem_append_left _ mem)
    plain_last := plain last (by simp)
    fits := passable.fits.front plain fun n mem => passable.plain n (List.mem_append_right _ mem) }

theorem insert (passable : session.Passable tree names) {node : Node} (plain : Plain last)
    (parent : tree.node? (session.place front) = some .directory)
    (kept : node = .directory ∨ tree.node? (session.place (front ++ [last])) ≠ some .directory ∧
      ¬ front ++ [last] <+: names) :
    session.Passable (SortedMap.insert tree (session.place (front ++ [last])) node) names := by
  have named : session.place (front ++ [last]) ≠ [] := by simp [Session.place_concat]
  have stays : ∀ place, tree.node? place = some .directory → Tree.node? (SortedMap.insert tree
      (session.place (front ++ [last])) node) place = some .directory := by
    intro place stands
    rw [Tree.node?_insert _ named]
    split
    case isTrue same =>
      rcases kept with rfl | ⟨free, -⟩
      · rfl
      · exact absurd (same ▸ stands) free
    case isFalse => exact stands
  refine ⟨?_, ⟨passable.seated.no_nul, Disk.enter_mono stays passable.seated.entered⟩,
    passable.plain, passable.fits, fun front' above' content stands => ?_⟩
  · rw [Session.place_concat] at kept ⊢
    exact passable.wellFormed.insert parent plain (kept.imp_right And.left)
  · rw [Tree.node?_insert _ named] at stands
    split at stands
    case isTrue same =>
      rcases kept with rfl | ⟨-, beside⟩
      · cases stands
      · exact beside (Session.place_inj.1 same ▸ above')
    case isFalse => exact passable.no_file front' above' content stands

theorem directory_of_node (passable : session.Passable tree names) (above : front <+: names)
    {node : Node} (found : tree.node? (session.place front) = some node) :
    tree.node? (session.place front) = some .directory := by
  cases node with
  | directory => exact found
  | file content => exact absurd found (passable.no_file front above content)

theorem directory_above (passable : session.Passable tree names)
    (directory : tree.node? (session.place names) = some .directory) (above : front <+: names) :
    tree.node? (session.place front) = some .directory := by
  obtain ⟨rest, rfl⟩ := above
  rcases eq_or_ne rest [] with rfl | some
  · rwa [List.append_nil] at directory
  · rw [Session.place, ← List.append_assoc, ← Session.place] at directory
    exact passable.wellFormed.above some (by rw [directory]; rfl)

theorem missing_of_directory (passable : session.Passable tree names)
    (directory : tree.node? (session.place names) = some .directory) :
    session.missing tree [] names = [] := by
  refine List.filter_eq_nil_iff.2 fun front mem => ?_
  obtain ⟨more, -, above, rfl⟩ := Path.mem_fronts.1 mem
  simp [passable.directory_above directory above]

theorem directory_of_missing (passable : session.Passable tree names)
    (all : session.missing tree [] names = []) :
    tree.node? (session.place names) = some .directory := by
  rcases eq_or_ne names [] with rfl | some
  · exact passable.seated.top passable.wellFormed
  · cases found : tree.node? (session.place names) with
    | some node => exact found ▸ passable.directory_of_node List.prefix_rfl found
    | none =>
      have lacking : names ∈ session.missing tree [] names :=
        List.mem_filter.2 ⟨Path.mem_fronts.2 ⟨names, some, List.prefix_rfl, rfl⟩, by simp [found]⟩
      rw [all] at lacking
      cases lacking

end Passable

theorem missing_of_some {name : String} {node : Node}
    (found : tree.node? (session.place (front ++ [name])) = some node) :
    session.missing tree front (name :: rest) = session.missing tree (front ++ [name]) rest := by
  rw [missing, Path.fronts_cons, List.filter_cons_of_neg (by simp [found])]
  rfl

theorem node?_below_made (name : String) {names : List String}
    (below : names ∈ Path.fronts (front ++ [name]) rest) :
    Tree.node? (SortedMap.insert tree (session.place (front ++ [name])) .directory)
      (session.place names) = tree.node? (session.place names) := by
  obtain ⟨more, some, -, rfl⟩ := Path.mem_fronts.1 below
  rw [Tree.node?_insert _ (by simp [Session.place_concat]), if_neg]
  rw [Session.place_inj]
  simpa using some

theorem missing_of_none {name : String}
    (absent : tree.node? (session.place (front ++ [name])) = none) :
    session.missing tree front (name :: rest) = (front ++ [name]) ::
      session.missing (SortedMap.insert tree (session.place (front ++ [name])) .directory)
        (front ++ [name]) rest := by
  rw [missing, Path.fronts_cons, List.filter_cons_of_pos (by simp [absent]), missing]
  congr 1
  refine List.filter_congr fun names below => ?_
  rw [node?_below_made name below]

theorem sought_below_made (name : String) :
    (Path.fronts (front ++ [name]) rest).flatMap (session.sought
        (SortedMap.insert tree (session.place (front ++ [name])) .directory)) =
      (Path.fronts (front ++ [name]) rest).flatMap (session.sought tree) := by
  refine List.flatMap_congr fun names below => ?_
  rw [sought, node?_below_made name below]
  rfl

theorem Passable.grown (passable : session.Passable tree (front ++ rest))
    (parent : tree.node? (session.place front) = some .directory) :
    session.Passable (session.grown tree (session.missing tree front rest)) (front ++ rest) ∧
      (session.grown tree (session.missing tree front rest)).node? (session.place (front ++ rest)) =
        some .directory := by
  induction rest generalizing front tree with
  | nil =>
    rw [List.append_nil] at passable ⊢
    exact ⟨passable, parent⟩
  | cons name rest ih =>
    rw [List.append_cons] at passable ⊢
    have above : front ++ [name] <+: front ++ [name] ++ rest := List.prefix_append _ _
    cases found : tree.node? (session.place (front ++ [name])) with
    | some node =>
      rw [missing_of_some found]
      exact ih passable (passable.directory_of_node above found)
    | none =>
      rw [missing_of_none found]
      refine ih (passable.insert (passable.way above).plain_last parent (.inl rfl)) ?_
      rw [Tree.node?_insert _ (by simp [Session.place_concat]), if_pos rfl]

theorem filter_sought (fronts : List (List String)) :
    (fronts.flatMap (session.sought tree)).filter (fun event => event.call.kind = .makeDirectory) =
      (fronts.filter fun names => (tree.node? (session.place names)).isNone).map session.made := by
  induction fronts with
  | nil => rfl
  | cons names more ih =>
    rw [List.flatMap_cons, List.filter_append, ih, List.filter_cons, sought]
    cases tree.node? (session.place names) <;> rfl

theorem countP_sought (path : String) (fronts : List (List String)) :
    (fronts.flatMap (session.sought tree)).countP (·.call.opens path) = 0 := by
  induction fronts with
  | nil => rfl
  | cons names more ih =>
    rw [List.flatMap_cons, List.countP_append, ih, sought]
    cases tree.node? (session.place names) <;> rfl

end Passable

end Session

section Making

variable {scene : Scene} {tree : Tree} {id : ConnectionId} {session : Session}
variable {front rest : List String}

/-- Every directory is looked for, and those are made that are missing. -/
theorem makeMissing_plays (quiet : scene.Quiet) (shows : scene.Shows id (some session))
    (passable : session.Passable tree (front ++ rest))
    (parent : tree.node? (session.place front) = some .directory) :
    Plays scene tree (id.makeMissing session (Path.ofNames front) rest)
      (.ok !(session.missing tree front rest).isEmpty)
      (session.grown tree (session.missing tree front rest))
      (· = (Path.fronts front rest).flatMap (session.sought tree)) := by
  induction rest generalizing front tree with
  | nil => exact .ok rfl
  | cons name rest ih =>
    rw [List.append_cons] at passable
    have above : front ++ [name] <+: front ++ [name] ++ rest := List.prefix_append _ _
    have way := passable.way above
    rw [ConnectionId.makeMissing, ← Path.ofNames_concat, Path.fronts_cons, List.flatMap_cons]
    cases found : tree.node? (session.place (front ++ [name])) with
    | some node =>
      rw [Session.missing_of_some found]
      refine (contains_plays_of_find quiet shows (way.find_of_node found)).andThen
        fun events eq => ?_
      have later := ih passable (passable.directory_of_node above found)
      refine later.mono fun _ _ events' ⟨ends, eq'⟩ => ⟨ends, ?_⟩
      rw [eq, eq', Session.sought, found]
    | none =>
      rw [Session.missing_of_none found]
      -- It is made first, and what is below it is then looked for in the tree that has it.
      have no_file : session.Open tree front := fun front' above' =>
        passable.no_file front' ((above'.trans (List.prefix_append _ _)).trans above)
      refine (contains_plays_of_missing quiet shows (way.find_of_missing no_file found)).andThen
        fun events eq => ?_
      have made : Plays scene tree (session.makeDirectory (Path.ofNames (front ++ [name])))
          (.ok ()) (SortedMap.insert tree (session.place (front ++ [name])) .directory)
          (· = [session.made (front ++ [name])]) :=
        .single (change_of_ok quiet session (way.makeDirectory_of_absent parent found))
          (makeDirectory_single session _) rfl
      refine made.transported fun events' eq' => ?_
      have there : Tree.node? (SortedMap.insert tree (session.place (front ++ [name])) .directory)
          (session.place (front ++ [name])) = some .directory := by
        rw [Tree.node?_insert _ (by simp [Session.place_concat]), if_pos rfl]
      have later := ih (passable.insert way.plain_last parent (.inl rfl)) there
      refine later.andThen fun events'' eq'' => .ok ⟨⟨rfl, rfl⟩, ?_⟩
      rw [eq, eq', eq'', Session.sought_below_made, Session.sought, found]
      simp

theorem makeDirectories_answers (quiet : scene.Quiet) (shows : scene.Shows id (some session))
    {path : String} {names : List String} (parts : Path.components path = names)
    (passable : session.Passable tree names) :
    Plays scene tree (id.makeDirectories path)
      (if session.missing tree [] names = [] then .error (.alreadyExists path) else .ok ())
      (session.grown tree (session.missing tree [] names))
      (· = (Path.fronts [] names).flatMap (session.sought tree)) := by
  subst parts
  have root := passable.seated.top passable.wellFormed
  refine .live shows ((makeMissing_plays quiet shows passable root).andThen fun events eq => ?_)
  by_cases all : session.missing tree [] (Path.components path) = []
  · rw [all]
    exact .throw ⟨⟨rfl, rfl⟩, by rw [eq, List.append_nil]⟩
  · rw [List.isEmpty_eq_false_iff.2 all, if_neg all]
    exact .ok ⟨⟨rfl, rfl⟩, by rw [eq, List.append_nil]⟩

theorem makeDirectories_plays (quiet : scene.Quiet) (shows : scene.Shows id (some session))
    {path : String} {names : List String} (parts : Path.components path = names)
    (passable : session.Passable tree names) (absent : tree.node? (session.place names) = none) :
    Plays scene tree (id.makeDirectories path) (.ok ())
      (session.grown tree (session.missing tree [] names))
      (· = (Path.fronts [] names).flatMap (session.sought tree)) := by
  have lacking : session.missing tree [] names ≠ [] := by
    intro all
    rw [passable.directory_of_missing all] at absent
    cases absent
  have answers := makeDirectories_answers quiet shows parts passable
  rwa [if_neg lacking] at answers

end Making

end TreeStore
