import TreeStore.SortedMap
import TreeStore.Text.Utf8
/-!
A tree of directories and files as a finite map from locations, so that an operation is known by
what it does to each location. The root is a directory that is always there and not an entry of
the map. There are no links, owners, permissions or times, and a disk is never full; what fails for
such a reason fails by a rule of the site.
-/
namespace TreeStore

/-- The names on the way from the root, outermost first. -/
abbrev Location := List String

inductive Node where
  | directory
  | file (content : Bytes)
deriving DecidableEq, Repr

def Node.isDirectory : Node → Bool
  | .directory => true
  | .file _ => false

def Node.size : Node → Nat
  | .directory => 0
  | .file content => content.length

abbrev Tree := SortedMap Location Node

namespace Tree

def node? (tree : Tree) (location : Location) : Option Node :=
  if location = [] then some .directory else tree.find? location

def entryName? : Location → Location → Option String
  | [], [name] => some name
  | a :: directory, b :: location => if a = b then entryName? directory location else none
  | _, _ => none

def children (tree : Tree) (directory : Location) : List (String × Node) :=
  tree.entries.filterMap fun entry =>
    (entryName? directory entry.1).map fun name => (name, entry.2)

def below? : Location → Location → Option Location
  | [], location => some location
  | a :: top, b :: location => if a = b then below? top location else none
  | _ :: _, [] => none

def move (tree : Tree) (source target : Location) : Tree :=
  let kept := tree.filterKeys fun place => (below? source place).isNone
  tree.entries.foldl (fun tree entry =>
    match below? source entry.1 with
    | some rest => tree.insert (target ++ rest) entry.2
    | none => tree) kept

def directoryCount (tree : Tree) : Nat :=
  (tree.entries.filter fun entry => entry.2.isDirectory).length

theorem entryName?_eq_some_iff {directory location : Location} {name : String} :
    entryName? directory location = some name ↔ location = directory ++ [name] := by
  induction directory generalizing location with
  | nil =>
    rcases location with _ | ⟨a, _ | ⟨b, rest⟩⟩ <;> simp [entryName?]
  | cons a rest ih =>
    cases location with
    | nil => simp [entryName?]
    | cons b location =>
      by_cases h : a = b
      · simp [entryName?, h, ih]
      · simp [entryName?, h, Ne.symm h]

theorem below?_eq_some_iff {top location rest : Location} :
    below? top location = some rest ↔ location = top ++ rest := by
  induction top generalizing location with
  | nil => simp [below?]
  | cons a top ih =>
    cases location with
    | nil => simp [below?]
    | cons b location =>
      by_cases h : a = b
      · simp [below?, h, ih]
      · simp [below?, h, Ne.symm h]

theorem mem_children_iff {tree : Tree} {directory : Location} {name : String} {node : Node} :
    (name, node) ∈ tree.children directory ↔ tree.find? (directory ++ [name]) = some node := by
  rw [SortedMap.find?_eq_some_iff]
  simp only [children, List.mem_filterMap, Option.map_eq_some_iff, Prod.mk.injEq, Prod.exists]
  constructor
  · rintro ⟨location, node', mem, name', named, rfl, rfl⟩
    rwa [entryName?_eq_some_iff.1 named] at mem
  · intro mem
    exact ⟨_, node, mem, name, entryName?_eq_some_iff.2 rfl, rfl, rfl⟩

end Tree

end TreeStore
