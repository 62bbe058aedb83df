import TreeStore.Proofs.Access
/-!
Trees from which something has been taken away, and what the calls of a session make of a tree. A log
without failures can be replayed, and tells of the disk at every call.
-/
namespace TreeStore

section Lacking

variable {tree : Tree} {places : List Location}

def Tree.lacking (tree : Tree) (places : List Location) : Tree :=
  tree.filterKeys fun place => !places.contains place

theorem Tree.lacking_nil (tree : Tree) : tree.lacking [] = tree := by
  ext place : 1
  rw [lacking, SortedMap.find?_filterKeys]
  rfl

theorem Tree.lacking_cons (tree : Tree) (place : Location) (places : List Location) :
    tree.lacking (place :: places) = Tree.lacking (SortedMap.erase tree place) places := by
  ext other : 1
  rw [lacking, lacking, SortedMap.find?_filterKeys, SortedMap.find?_filterKeys,
    SortedMap.find?_erase, List.contains_cons]
  by_cases same : other = place <;> simp [same]

theorem Tree.find?_lacking (place : Location) :
    (tree.lacking places).find? place = if place ∈ places then none else tree.find? place := by
  rw [lacking, SortedMap.find?_filterKeys]
  by_cases mem : place ∈ places <;> simp [mem]

theorem Tree.children_lacking {place : Location}
    (kept : ∀ name, place ++ [name] ∉ places) :
    (tree.lacking places).children place = tree.children place := by
  unfold lacking children SortedMap.filterKeys
  dsimp only
  rw [List.filterMap_filter]
  apply List.filterMap_congr
  intro entry _
  split
  case isTrue => rfl
  case isFalse gone =>
    cases named : entryName? place entry.1 with
    | none => rfl
    | some name =>
      have eq := entryName?_eq_some_iff.1 named
      rw [eq] at gone
      simp [kept name] at gone

end Lacking

section Emptied

variable {tree : Tree} {top : Location}

/-- The tree without anything below a place. -/
def Tree.emptied (tree : Tree) (top : Location) : Tree :=
  tree.filterKeys fun place => (Tree.below? top place).all List.isEmpty

theorem Tree.find?_emptied_below (tree : Tree) (top : Location) {rest : List String}
    (some : rest ≠ []) : (tree.emptied top).find? (top ++ rest) = none := by
  rw [emptied, SortedMap.find?_filterKeys, below?_eq_some_iff.2 rfl]
  simp [some]

theorem Tree.find?_emptied {place : Location}
    (outside : ∀ rest, rest ≠ [] → place ≠ top ++ rest) :
    (tree.emptied top).find? place = tree.find? place := by
  rw [emptied, SortedMap.find?_filterKeys, if_pos]
  cases below : below? top place with
  | none => rfl
  | some rest =>
    have empty : rest = [] := by
      by_contra some
      exact outside rest some (below?_eq_some_iff.1 below)
    simp [empty]

theorem Tree.node?_emptied_below (tree : Tree) (top : Location) {rest : List String}
    (some : rest ≠ []) : (tree.emptied top).node? (top ++ rest) = none := by
  rw [node?_of_ne_nil _ (by simp [some]), find?_emptied_below _ _ some]

theorem Tree.node?_emptied {place : Location}
    (outside : ∀ rest, rest ≠ [] → place ≠ top ++ rest) :
    (tree.emptied top).node? place = tree.node? place := by
  unfold node?
  rw [find?_emptied outside]

theorem Tree.node?_emptied_self (tree : Tree) (top : Location) :
    (tree.emptied top).node? top = tree.node? top :=
  node?_emptied fun rest some same => some (by simpa using same)

theorem Tree.emptied_erase (tree : Tree) {rest : List String} (some : rest ≠ []) :
    Tree.emptied (SortedMap.erase tree (top ++ rest)) top = tree.emptied top := by
  ext place : 1
  by_cases below : ∃ rest, rest ≠ [] ∧ place = top ++ rest
  · obtain ⟨rest, some, rfl⟩ := below
    rw [find?_emptied_below _ _ some, find?_emptied_below _ _ some]
  · have outside : ∀ rest, rest ≠ [] → place ≠ top ++ rest := fun rest some same =>
      below ⟨rest, some, same⟩
    rw [find?_emptied outside, find?_emptied outside, SortedMap.find?_erase,
      if_neg (outside rest some)]

theorem Tree.emptied_of_vacant (vacant : ∀ rest, rest ≠ [] → tree.find? (top ++ rest) = none) :
    tree.emptied top = tree := by
  ext place : 1
  by_cases below : ∃ rest, rest ≠ [] ∧ place = top ++ rest
  · obtain ⟨rest, some, rfl⟩ := below
    rw [find?_emptied_below _ _ some, vacant rest some]
  · exact find?_emptied fun rest some same => below ⟨rest, some, same⟩

theorem Tree.WellFormed.emptied (wf : tree.WellFormed) (top : Location) :
    (tree.emptied top).WellFormed := by
  apply wf.filterKeys
  intro place name _ kept
  refine .inr ?_
  cases below : Tree.below? top place with
  | none => rfl
  | some rest =>
    obtain rfl := Tree.below?_eq_some_iff.1 below
    have deeper : Tree.below? top (top ++ rest ++ [name]) = some (rest ++ [name]) :=
      Tree.below?_eq_some_iff.2 (List.append_assoc ..)
    rw [deeper] at kept
    simp at kept

theorem Tree.node?_without_below (tree : Tree) (named : top ≠ []) (rest : List String) :
    (tree.without top).node? (top ++ rest) = none := by
  rw [node?_of_ne_nil _ (by simp [named]), without, SortedMap.find?_filterKeys,
    below?_eq_some_iff.2 rfl]
  rfl

theorem Tree.node?_without {place : Location} (outside : ¬ top <+: place) :
    (tree.without top).node? place = tree.node? place := by
  have kept : below? top place = none := by
    cases below : below? top place with
    | none => rfl
    | some rest => exact absurd ⟨rest, (below?_eq_some_iff.1 below).symm⟩ outside
  unfold node? without
  rw [SortedMap.find?_filterKeys, kept]
  rfl

theorem Tree.erase_emptied (tree : Tree) (top : Location) :
    SortedMap.erase (tree.emptied top) top = tree.without top := by
  ext place : 1
  rw [SortedMap.find?_erase, without, SortedMap.find?_filterKeys]
  cases below : below? top place with
  | none =>
    have other : place ≠ top := by
      rintro rfl
      rw [below?_self] at below
      cases below
    have outside : ∀ rest, rest ≠ [] → place ≠ top ++ rest := fun rest _ same => by
      rw [below?_eq_some_iff.2 same] at below
      cases below
    rw [if_neg other, find?_emptied outside]
    rfl
  | some rest =>
    obtain rfl := below?_eq_some_iff.1 below
    by_cases some : rest = []
    · simp [some]
    · rw [find?_emptied_below _ _ some]
      simp

end Emptied

def Session.served (session : Session) (tree : Tree) : Call → Except IoError Tree
  | .openFile .read path => (Disk.openRead tree (session.resolve path)).map fun _ => tree
  | .openFile .write path => (Disk.openWrite tree (session.resolve path) true).map Prod.snd
  | .openFile .append path => (Disk.openWrite tree (session.resolve path) false).map Prod.snd
  | .stat path => (Disk.stat tree (session.resolve path)).map fun _ => tree
  | .list path => (Disk.list tree (session.resolve path)).map fun _ => tree
  | .makeDirectory path => Disk.makeDirectory tree (session.resolve path)
  | .removeDirectory path => Disk.removeDirectory tree (session.resolve path)
  | .removeFile path => Disk.removeFile tree (session.resolve path)
  | .rename source target => Disk.rename tree (session.resolve source) (session.resolve target)
  | .close | .connect .. => .ok tree

/-- None of the calls has failed, and one after the other they take the disk from the first tree to
the last. -/
inductive Replayed (session : Session) : Tree → List Event → Tree → Prop
  | done {tree : Tree} : Replayed session tree [] tree
  | call {tree tree' later : Tree} {call : Call} {events : List Event}
      (served : session.served tree call = .ok tree') (more : Replayed session tree' events later) :
      Replayed session tree (⟨session.number, call, none⟩ :: events) later

namespace Replayed

variable {session : Session} {tree tree' later : Tree} {events events' : List Event}

theorem single {call : Call} (served : session.served tree call = .ok tree') :
    Replayed session tree [⟨session.number, call, none⟩] tree' :=
  .call served .done

theorem append (first : Replayed session tree events tree')
    (rest : Replayed session tree' events' later) :
    Replayed session tree (events ++ events') later := by
  induction first with
  | done => exact rest
  | call served _ ih => exact .call served (ih rest)

theorem split {front back : List Event} {event : Event}
    (replayed : Replayed session tree (front ++ event :: back) later) :
    ∃ middle middle', Replayed session tree front middle ∧
      session.served middle event.call = .ok middle' := by
  induction front generalizing tree with
  | nil =>
    cases replayed with
    | call served more => exact ⟨tree, _, .done, served⟩
  | cons first front ih =>
    cases replayed with
    | call served more =>
      obtain ⟨middle, middle', before, now⟩ := ih more
      exact ⟨middle, middle', .call served before, now⟩

end Replayed

end TreeStore
