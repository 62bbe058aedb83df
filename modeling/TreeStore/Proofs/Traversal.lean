import TreeStore.Proofs.Subtree
/-!
Walks in the tree of a bucket: every directory below the first one is visited (`mem_walk_iff`), and
none twice. What lies in a bucket is given by the names on the way from it.
-/
namespace TreeStore

open TreeStore.Path (Plain)

section Directories

variable {session : Session} {name : String} {order : Disk.Order} {tree : Tree}

def inner (session : Session) (name : String) (order : Disk.Order) (tree : Tree)
    (top : List String) : List (List String) :=
  (((order.entries tree (session.place (name :: top))).filter (·.isDirectory)).map
    fun entry => top ++ [entry.name]).reverse

def IsFolder (session : Session) (name : String) (tree : Tree) (top : List String) : Prop :=
  tree.node? (session.place (name :: top)) = some .directory

theorem IsFolder.above {top place : List String} (folder : IsFolder session name tree place)
    (wf : tree.WellFormed) (front : top <+: place) : IsFolder session name tree top := by
  obtain ⟨rest, rfl⟩ := front
  rcases eq_or_ne rest [] with rfl | some
  · rwa [List.append_nil] at folder
  · have split : session.place (name :: (top ++ rest)) = session.place (name :: top) ++ rest := by
      simp [Session.place]
    unfold IsFolder at folder
    rw [split] at folder
    exact wf.above some (by rw [folder]; rfl)

theorem isFolder_iff {top : List String} : IsFolder session name tree top ↔
    tree.node? (session.place [name] ++ top) = some .directory := by
  rw [← Session.place_cons]
  rfl

theorem Shaped.spans (shaped : Shaped session name tree) (plain : Plain name) :
    session.Spans tree name (session.place [name]) where
  wellFormed := shaped.wellFormed
  found := (shaped.way_top plain).find_of_node shaped.top
  short rest last present := by
    rw [← Tree.node?_concat, ← Session.place_cons, ← Session.place_concat, List.cons_append] at present
    obtain ⟨node, stands⟩ := Option.isSome_iff_exists.1 present
    exact (shaped.entries _ node (by simp) stands).2.name last (by simp)
  reaches rest present := by
    obtain ⟨node, stands⟩ := Option.isSome_iff_exists.1 present
    rw [← Session.place_cons, ← Tree.node?_of_ne_nil _ (Session.place_cons_ne_nil _ _ _)] at stands
    rcases eq_or_ne rest [] with rfl | some
    · exact shaped.fits.path
    · exact (shaped.entries rest node some stands).2.path

theorem inner_eq (session : Session) (name : String) (order : Disk.Order) (tree : Tree) :
    inner session name order tree = order.chosen tree (session.place [name]) fun _ => true := by
  funext top
  unfold inner Disk.Order.chosen Disk.Order.inner
  rw [Session.place_cons, List.filter_true]

theorem lists_inner : Lists (order.names tree (session.place [name]))
    (inner session name order tree) :=
  inner_eq session name order tree ▸ lists_chosen order tree (session.place [name]) _

theorem mem_inner {top place : List String} :
    place ∈ inner session name order tree top ↔
      ∃ last, place = top ++ [last] ∧ IsFolder session name tree place := by
  rw [inner_eq, mem_chosen_iff, isFolder_iff]
  simp

theorem mem_walk_iff (wf : tree.WellFormed) {top place : List String} {visited : List (List String)}
    (start : IsFolder session name tree top)
    (walks : Walks (inner session name order tree) [top] visited) :
    place ∈ visited ↔ top <+: place ∧ IsFolder session name tree place := by
  rw [inner_eq] at walks
  rw [mem_visited_iff wf (isFolder_iff.1 start) walks, isFolder_iff]
  simp [Accepted]

theorem exists_walk (pending : List (List String)) :
    ∃ visited, Walks (inner session name order tree) pending visited :=
  inner_eq session name order tree ▸ exists_visited order tree (session.place [name]) _ pending

theorem length_le_directoryCount {places : List (List String)} (nodup : places.Nodup)
    (folders : ∀ place ∈ places, IsFolder session name tree place) :
    places.length ≤ tree.directoryCount + 1 :=
  length_le_of_directories nodup fun place mem => isFolder_iff.1 (folders place mem)

end Directories

end TreeStore
