import TreeStore.Disk.Tree
import TreeStore.Proofs.Path
/-!
Well-formed trees and what insertion, removal and the move of a file do to them. Everything is said
through `node?`, the view of a tree as a function of locations.
-/
namespace TreeStore

namespace SortedMap

variable {κ : Type} {α : Type}

@[simp] theorem insert_insert [Ord κ] [Std.TransOrd κ] [Std.LawfulEqOrd κ] [DecidableEq κ]
    (m : SortedMap κ α) (k : κ) (v v' : α) : (m.insert k v).insert k v' = m.insert k v' := by
  ext k' : 1
  by_cases h : k' = k <;> simp [find?_insert, h]

@[simp] theorem insert_erase [Ord κ] [Std.TransOrd κ] [Std.LawfulEqOrd κ] [DecidableEq κ]
    (m : SortedMap κ α) (k : κ) (v : α) : (m.erase k).insert k v = m.insert k v := by
  ext k' : 1
  by_cases h : k' = k <;> simp [find?_insert, find?_erase, h]

theorem insert_of_find? [Ord κ] [Std.TransOrd κ] [Std.LawfulEqOrd κ] [DecidableEq κ]
    {m : SortedMap κ α} {k : κ} {v : α} (h : m.find? k = some v) : m.insert k v = m := by
  ext k' : 1
  rw [find?_insert]
  split
  case isTrue same => rw [same, h]
  case isFalse => rfl

end SortedMap

namespace Tree

open SortedMap

variable {tree : Tree} {location : Location} {name : String} {node : Node}

@[simp] theorem node?_root (tree : Tree) : tree.node? [] = some .directory := rfl

@[simp] theorem node?_concat (tree : Tree) (location : Location) (name : String) :
    tree.node? (location ++ [name]) = tree.find? (location ++ [name]) := by
  simp [node?]

theorem node?_of_ne_nil (tree : Tree) (named : location ≠ []) :
    tree.node? location = tree.find? location := by
  simp [node?, named]

theorem node?_insert (tree : Tree) (named : location ≠ []) (node : Node) (place : Location) :
    node? (tree.insert location node) place =
      if place = location then some node else tree.node? place := by
  unfold node?
  rw [find?_insert]
  split <;> split <;> simp_all

theorem node?_erase (tree : Tree) (named : location ≠ []) (place : Location) :
    node? (tree.erase location) place =
      if place = location then none else tree.node? place := by
  unfold node?
  rw [find?_erase]
  split <;> split <;> simp_all

/-- The root is no entry, every entry lies in a directory, and every name is plain. -/
structure WellFormed (tree : Tree) : Prop where
  root : tree.find? [] = none
  parent : ∀ location name, (tree.find? (location ++ [name])).isSome →
    tree.node? location = some .directory
  plain : ∀ location name, (tree.find? (location ++ [name])).isSome → Path.Plain name

theorem wellFormed_empty : WellFormed SortedMap.empty where
  root := rfl
  parent _ _ h := nomatch h
  plain _ _ h := nomatch h

theorem wellFormed_iff (tree : Tree) : tree.WellFormed ↔ ∀ entry ∈ tree.entries, entry.1 ≠ [] ∧
    tree.node? entry.1.dropLast = some .directory ∧ ∀ name ∈ entry.1.getLast?, Path.Plain name := by
  constructor
  · rintro wf ⟨location, node⟩ mem
    have found := (find?_eq_some_iff tree).2 mem
    cases location using List.reverseRecOn with
    | nil =>
      rw [wf.root] at found
      cases found
    | append_singleton top name =>
      have present : (tree.find? (top ++ [name])).isSome := by
        rw [found]
        rfl
      simpa using ⟨wf.parent top name present, wf.plain top name present⟩
  · intro all
    have each : ∀ top name, (tree.find? (top ++ [name])).isSome →
        tree.node? top = some .directory ∧ Path.Plain name := by
      intro top name present
      obtain ⟨node, found⟩ := Option.isSome_iff_exists.1 present
      simpa using (all _ ((find?_eq_some_iff tree).1 found)).2
    refine ⟨?_, fun top name present => (each top name present).1,
      fun top name present => (each top name present).2⟩
    by_contra present
    obtain ⟨node, found⟩ := Option.ne_none_iff_exists'.1 present
    exact (all _ ((find?_eq_some_iff tree).1 found)).1 rfl

instance (tree : Tree) : Decidable tree.WellFormed := decidable_of_iff _ (wellFormed_iff tree).symm

namespace WellFormed

theorem above (wf : tree.WellFormed) {top rest : Location} (some : rest ≠ [])
    (h : (tree.node? (top ++ rest)).isSome) : tree.node? top = .some .directory := by
  induction rest using List.reverseRecOn with
  | nil => exact absurd rfl some
  | append_singleton rest name ih =>
    rw [← List.append_assoc, node?_concat] at h
    have parent := wf.parent _ _ h
    rcases eq_or_ne rest [] with rfl | more
    · simpa using parent
    · exact ih more (by rw [parent]; rfl)

theorem dropLast (wf : tree.WellFormed) (h : tree.node? location = some .directory) :
    tree.node? location.dropLast = some .directory := by
  cases location using List.reverseRecOn with
  | nil => exact h
  | append_singleton top name =>
    rw [List.dropLast_concat]
    have below : (tree.node? (top ++ [name])).isSome := by
      rw [h]
      rfl
    exact wf.above (by simp) below

theorem below?_eq_none (wf : tree.WellFormed) {top place : Location}
    (directory : tree.node? place = some .directory) (other : tree.node? top ≠ some .directory) :
    below? top place = none := by
  cases below : below? top place with
  | none => rfl
  | some rest =>
    obtain rfl := below?_eq_some_iff.1 below
    rcases eq_or_ne rest [] with rfl | some
    · rw [List.append_nil] at directory
      exact absurd directory other
    · exact absurd (wf.above some (by rw [directory]; rfl)) other

theorem find?_eq_none_of_below_file (wf : tree.WellFormed) {content : Bytes}
    (file : tree.find? location = some (.file content)) {rest : Location} (some : rest ≠ []) :
    tree.find? (location ++ rest) = none := by
  have named : location ≠ [] := by
    rintro rfl
    rw [wf.root] at file
    cases file
  by_contra present
  have below : (tree.node? (location ++ rest)).isSome := by
    rw [node?_of_ne_nil _ (by simp [named])]
    exact Option.isSome_iff_ne_none.2 present
  have h := wf.above some below
  rw [node?_of_ne_nil _ named, file] at h
  cases h

theorem insert (wf : tree.WellFormed) (parent : tree.node? location = some .directory)
    (plain : Path.Plain name) (kept : node = .directory ∨ tree.node? (location ++ [name]) ≠
      some .directory) : WellFormed (SortedMap.insert tree (location ++ [name]) node) where
  root := by
    rw [find?_insert, if_neg (by simp), wf.root]
  parent place name' h := by
    have named : location ++ [name] ≠ [] := by simp
    rw [node?_insert _ named]
    rw [find?_insert] at h
    have up : tree.node? place = some .directory := by
      split at h
      case isTrue same =>
        obtain ⟨rfl, -⟩ := List.append_inj' same rfl
        exact parent
      case isFalse => exact wf.parent _ _ h
    split
    case isTrue same =>
      rcases kept with rfl | other
      · rfl
      · exact absurd (same ▸ up) other
    case isFalse => exact up
  plain place name' h := by
    rw [find?_insert] at h
    split at h
    case isTrue same =>
      obtain ⟨-, last⟩ := List.append_inj' same rfl
      exact List.singleton_inj.1 last ▸ plain
    case isFalse => exact wf.plain _ _ h

theorem filterKeys (wf : tree.WellFormed) {keep : Location → Bool}
    (closed : ∀ place name, (tree.find? (place ++ [name])).isSome → keep (place ++ [name]) →
      place = [] ∨ keep place) : WellFormed (SortedMap.filterKeys tree keep) where
  root := by
    rw [find?_filterKeys, wf.root]
    simp
  parent place name h := by
    rw [find?_filterKeys] at h
    split at h
    case isFalse => cases h
    case isTrue kept =>
      have up := wf.parent _ _ h
      rcases closed place name h kept with rfl | more
      · rfl
      · by_cases top : place = []
        · rw [top, node?_root]
        · rw [node?_of_ne_nil _ top] at up ⊢
          rw [find?_filterKeys, if_pos more, up]
  plain place name h := by
    rw [find?_filterKeys] at h
    split at h
    case isFalse => cases h
    case isTrue => exact wf.plain _ _ h

theorem eraseLeaf (wf : tree.WellFormed) (leaf : ∀ name, tree.find? (location ++ [name]) = none) :
    WellFormed (SortedMap.erase tree location) := by
  apply wf.filterKeys
  intro place name present _
  by_cases same : place = location
  · rw [same, leaf] at present
    cases present
  · simp [same]

end WellFormed

theorem find?_of_children_isEmpty (h : (tree.children location).isEmpty) (name : String) :
    tree.find? (location ++ [name]) = none := by
  cases found : tree.find? (location ++ [name]) with
  | none => rfl
  | some node =>
    have mem := mem_children_iff.2 found
    rw [List.isEmpty_iff.1 h] at mem
    cases mem

@[simp] theorem below?_self (location : Location) : below? location location = some [] :=
  below?_eq_some_iff.2 (by simp)

theorem foldl_move_file {source : Location} {content : Bytes}
    {entries : List (Location × Node)}
    (only : ∀ entry ∈ entries, ∀ rest, below? source entry.1 = some rest →
      rest = [] ∧ entry.2 = .file content) (target : Location) (start : Tree) :
    entries.foldl (fun tree entry =>
        match below? source entry.1 with
        | some rest => tree.insert (target ++ rest) entry.2
        | none => tree) start =
      if ∃ entry ∈ entries, entry.1 = source then start.insert target (.file content)
      else start := by
  induction entries generalizing start with
  | nil => simp
  | cons entry entries ih =>
    have tail := ih fun e mem => only e (List.mem_cons_of_mem _ mem)
    rw [List.foldl_cons]
    cases below : below? source entry.1 with
    | none =>
      have apart : entry.1 ≠ source := by
        intro same
        rw [same, below?_self] at below
        cases below
      simp only [tail, List.mem_cons, exists_eq_or_imp, apart, false_or]
    | some rest =>
      obtain ⟨rfl, file⟩ := only entry (by simp) rest below
      have same : entry.1 = source := by simpa using below?_eq_some_iff.1 below
      simp only [tail, List.mem_cons, exists_eq_or_imp, same, true_or, if_true, List.append_nil, file]
      split <;> simp

theorem move_file (wf : tree.WellFormed) {source : Location} {content : Bytes}
    (file : tree.find? source = some (.file content)) (target : Location) :
    tree.move source target = (tree.erase source).insert target (.file content) := by
  -- Nothing lies below a file, so what is moved is the file alone.
  have below_source : ∀ {place rest}, (tree.find? place).isSome →
      below? source place = some rest → rest = [] ∧ place = source := by
    intro place rest present below
    obtain rfl := below?_eq_some_iff.1 below
    by_cases empty : rest = []
    · simp [empty]
    · rw [wf.find?_eq_none_of_below_file file empty] at present
      cases present
  have kept : tree.filterKeys (fun place => (below? source place).isNone) = tree.erase source := by
    ext place : 1
    rw [find?_filterKeys, find?_erase]
    cases below : below? source place with
    | none =>
      have apart : place ≠ source := by
        rintro rfl
        rw [below?_self] at below
        cases below
      simp [apart]
    | some rest =>
      cases found : tree.find? place with
      | none => simp
      | some node =>
        have same := (below_source (by rw [found]; rfl) below).2
        simp [same]
  have only : ∀ entry ∈ tree.entries, ∀ rest, below? source entry.1 = some rest →
      rest = [] ∧ entry.2 = .file content := by
    intro entry mem rest below
    have found := (find?_eq_some_iff tree).2 mem
    obtain ⟨rfl, same⟩ := below_source (by rw [found]; rfl) below
    rw [same, file, Option.some_inj] at found
    exact ⟨rfl, found.symm⟩
  have moved := foldl_move_file only target (tree.erase source)
  rw [if_pos ⟨(source, .file content), (find?_eq_some_iff tree).1 file, rfl⟩] at moved
  rw [move, kept]
  exact moved

end Tree

end TreeStore
