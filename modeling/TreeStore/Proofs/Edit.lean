import Mathlib.Logic.Relation
import TreeStore.Proofs.Route
/-!
What a single operation of the disk can do to a tree, as an edit that names the places it touches.
Frame conditions, well-formedness and the shape of a bucket are proved once for each kind of edit
and hold of every run whose edits are known.
-/
namespace TreeStore

open TreeStore.Path (Plain)

inductive Edit where
  | makeDirectory (location : Location)
  | write (location : Location) (content : Bytes)
  | removeFile (location : Location)
  | removeDirectory (location : Location)
  /-- Only files are moved. -/
  | move (source target : Location)

namespace Edit

def touched : Edit → List Location
  | makeDirectory location => [location]
  | write location _ => [location]
  | removeFile location => [location]
  | removeDirectory location => [location]
  | move source target => [source, target]

/-- The edit is possible in the first tree and leaves the second one. -/
inductive Takes : Edit → Tree → Tree → Prop
  | makeDirectory {tree : Tree} {top : Location} {name : String} (plain : Plain name)
      (short : name.utf8ByteSize ≤ Disk.nameLimit) (parent : tree.node? top = some .directory)
      (absent : tree.find? (top ++ [name]) = none) :
      Takes (.makeDirectory (top ++ [name])) tree (tree.insert (top ++ [name]) .directory)
  | write {tree : Tree} {top : Location} {name : String} {content : Bytes} (plain : Plain name)
      (short : name.utf8ByteSize ≤ Disk.nameLimit ∨ (tree.find? (top ++ [name])).isSome)
      (parent : tree.node? top = some .directory)
      (free : tree.find? (top ++ [name]) ≠ some .directory) :
      Takes (.write (top ++ [name]) content) tree (tree.insert (top ++ [name]) (.file content))
  | removeFile {tree : Tree} {location : Location} {content : Bytes}
      (file : tree.find? location = some (.file content)) :
      Takes (.removeFile location) tree (tree.erase location)
  | removeDirectory {tree : Tree} {location : Location}
      (directory : tree.find? location = some .directory)
      (vacant : ∀ name, tree.find? (location ++ [name]) = none) :
      Takes (.removeDirectory location) tree (tree.erase location)
  | move {tree : Tree} {source top : Location} {name : String} {content : Bytes}
      (file : tree.find? source = some (.file content)) (plain : Plain name)
      (short : name.utf8ByteSize ≤ Disk.nameLimit) (parent : tree.node? top = some .directory)
      (free : tree.find? (top ++ [name]) ≠ some .directory) :
      Takes (.move source (top ++ [name])) tree
        ((tree.erase source).insert (top ++ [name]) (.file content))

variable {edit : Edit} {tree tree' : Tree}

theorem find?_root_of_erase (wf : tree.WellFormed) {location : Location} {node : Node}
    (found : tree.find? location = some node) : location ≠ [] := by
  rintro rfl
  rw [wf.root] at found
  cases found

theorem Takes.wellFormed (taken : edit.Takes tree tree') (wf : tree.WellFormed) :
    tree'.WellFormed := by
  cases taken with
  | makeDirectory plain short parent absent => exact wf.insert parent plain (.inl rfl)
  | write plain short parent free => exact wf.insert parent plain (.inr (by simpa using free))
  | removeFile file =>
    exact wf.eraseLeaf fun name => wf.find?_eq_none_of_below_file file (by simp)
  | removeDirectory directory vacant => exact wf.eraseLeaf vacant
  | @move _ source top name content file plain short parent free =>
    have kept := wf.eraseLeaf fun name => wf.find?_eq_none_of_below_file file
      (List.cons_ne_nil name [])
    have named := find?_root_of_erase wf file
    have apart : top ≠ source := by
      rintro rfl
      rw [Tree.node?_of_ne_nil _ named, file] at parent
      cases parent
    refine kept.insert ?_ plain (.inr ?_)
    · rw [Tree.node?_erase _ named, if_neg apart, parent]
    · rw [Tree.node?_erase _ named]
      split
      · simp
      · simpa using free

theorem Takes.frame (taken : edit.Takes tree tree') (wf : tree.WellFormed) {place : Location}
    (apart : place ∉ edit.touched) : tree'.node? place = tree.node? place := by
  cases taken with
  | makeDirectory plain short parent absent =>
    rw [Tree.node?_insert _ (by simp), if_neg (by simpa [touched] using apart)]
  | write plain short parent free =>
    rw [Tree.node?_insert _ (by simp), if_neg (by simpa [touched] using apart)]
  | removeFile file =>
    rw [Tree.node?_erase _ (find?_root_of_erase wf file), if_neg (by simpa [touched] using apart)]
  | removeDirectory directory vacant =>
    rw [Tree.node?_erase _ (find?_root_of_erase wf directory),
      if_neg (by simpa [touched] using apart)]
  | move file plain short parent free =>
    simp only [touched, List.mem_cons, List.not_mem_nil, or_false, not_or] at apart
    rw [Tree.node?_insert _ (by simp), if_neg apart.2,
      Tree.node?_erase _ (find?_root_of_erase wf file), if_neg apart.1]

theorem Takes.directory_kept (taken : edit.Takes tree tree') (wf : tree.WellFormed)
    {place : Location} (other : edit ≠ .removeDirectory place)
    (directory : tree.node? place = some .directory) : tree'.node? place = some .directory := by
  cases taken with
  | makeDirectory plain short parent absent =>
    rw [Tree.node?_insert _ (by simp)]
    split
    · rfl
    · exact directory
  | @write _ top name content plain short parent free =>
    rw [Tree.node?_insert _ (by simp), if_neg, directory]
    rintro rfl
    exact free (by simpa using directory)
  | @removeFile _ location content file =>
    rw [Tree.node?_erase _ (find?_root_of_erase wf file), if_neg, directory]
    rintro rfl
    rw [Tree.node?_of_ne_nil _ (find?_root_of_erase wf file), file] at directory
    cases directory
  | @removeDirectory _ location _ _ =>
    rw [Tree.node?_erase _ (find?_root_of_erase wf ‹_›), if_neg, directory]
    rintro rfl
    exact other rfl
  | @move _ source top name content file plain short parent free =>
    rw [Tree.node?_insert _ (by simp), if_neg,
      Tree.node?_erase _ (find?_root_of_erase wf file), if_neg, directory]
    · rintro rfl
      rw [Tree.node?_of_ne_nil _ (find?_root_of_erase wf file), file] at directory
      cases directory
    · rintro rfl
      exact free (by simpa using directory)

/-- Only the making of a directory brings one. -/
theorem Takes.directory_new (taken : edit.Takes tree tree') (wf : tree.WellFormed)
    {place : Location} (other : edit ≠ .makeDirectory place)
    (directory : tree'.node? place = some .directory) : tree.node? place = some .directory := by
  cases taken with
  | @makeDirectory _ top name plain short parent absent =>
    rw [Tree.node?_insert _ (by simp), if_neg] at directory
    · exact directory
    · rintro rfl
      exact other rfl
  | write plain short parent free =>
    rw [Tree.node?_insert _ (by simp)] at directory
    split at directory
    · cases directory
    · exact directory
  | removeFile file =>
    rw [Tree.node?_erase _ (find?_root_of_erase wf file)] at directory
    split at directory
    · cases directory
    · exact directory
  | removeDirectory present vacant =>
    rw [Tree.node?_erase _ (find?_root_of_erase wf present)] at directory
    split at directory
    · cases directory
    · exact directory
  | move file plain short parent free =>
    rw [Tree.node?_insert _ (by simp)] at directory
    split at directory
    · cases directory
    rw [Tree.node?_erase _ (find?_root_of_erase wf file)] at directory
    split at directory
    · cases directory
    · exact directory

end Edit

namespace Tree

def EditedBy (allowed : Edit → Prop) : Tree → Tree → Prop :=
  Relation.ReflTransGen fun tree tree' => ∃ edit, allowed edit ∧ edit.Takes tree tree'

namespace EditedBy

variable {allowed : Edit → Prop} {tree tree' tree'' : Tree}

theorem refl (allowed : Edit → Prop) (tree : Tree) : EditedBy allowed tree tree :=
  Relation.ReflTransGen.refl

theorem step (h : EditedBy allowed tree tree') {edit : Edit} (may : allowed edit)
    (taken : edit.Takes tree' tree'') : EditedBy allowed tree tree'' :=
  Relation.ReflTransGen.tail h ⟨edit, may, taken⟩

theorem keeps (h : EditedBy allowed tree tree') (holds : Tree → Prop) (start : holds tree)
    (each : ∀ edit tree tree', allowed edit → edit.Takes tree tree' → holds tree → holds tree') :
    holds tree' := by
  induction h with
  | refl => exact start
  | tail _ last ih =>
    obtain ⟨edit, may, taken⟩ := last
    exact each edit _ _ may taken ih

theorem frame (h : EditedBy allowed tree tree') (wf : tree.WellFormed) {place : Location}
    (apart : ∀ edit, allowed edit → place ∉ edit.touched) :
    tree'.node? place = tree.node? place := by
  refine (h.keeps (fun later => later.WellFormed ∧ later.node? place = tree.node? place)
    ⟨wf, rfl⟩ fun edit _ _ may taken holds => ?_).2
  exact ⟨taken.wellFormed holds.1, (taken.frame holds.1 (apart edit may)).trans holds.2⟩

theorem directory_kept (h : EditedBy allowed tree tree') (wf : tree.WellFormed) {place : Location}
    (never : ¬ allowed (.removeDirectory place)) (directory : tree.node? place = some .directory) :
    tree'.node? place = some .directory := by
  refine (h.keeps (fun later => later.WellFormed ∧ later.node? place = some .directory)
    ⟨wf, directory⟩ fun edit _ _ may taken holds => ?_).2
  exact ⟨taken.wellFormed holds.1,
    taken.directory_kept holds.1 (fun same => never (same ▸ may)) holds.2⟩

theorem directory_new (h : EditedBy allowed tree tree') (wf : tree.WellFormed) {place : Location}
    (never : ¬ allowed (.makeDirectory place)) (directory : tree'.node? place = some .directory) :
    tree.node? place = some .directory := by
  refine (h.keeps (fun later => later.WellFormed ∧
    (later.node? place = some .directory → tree.node? place = some .directory))
    ⟨wf, id⟩ fun edit _ _ may taken holds => ?_).2 directory
  exact ⟨taken.wellFormed holds.1, fun found =>
    holds.2 (taken.directory_new holds.1 (fun same => never (same ▸ may)) found)⟩

end EditedBy

end Tree

namespace Disk

variable {tree tree' : Tree} {path : String}

theorem ok_of_bind {ε α β : Type} {first : Except ε α} {next : α → Except ε β} {b : β}
    (h : first >>= next = .ok b) : ∃ a, first = .ok a ∧ next a = .ok b := by
  cases first with
  | error e => cases h
  | ok a => exact ⟨a, rfl, h⟩

theorem makeDirectory_takes (wf : tree.WellFormed) (h : makeDirectory tree path = .ok tree') :
    (Edit.makeDirectory (locate path)).Takes tree tree' := by
  obtain ⟨goal, reached, h⟩ := ok_of_bind h
  obtain ⟨slot, looked, h⟩ := ok_of_bind h
  obtain ⟨name, plain, short, place, rfl, parent⟩ := slot_of_target reached looked
  split at h
  case h_1 => cases h
  case h_2 absent =>
    rw [← Except.ok.inj h]
    rw [place, Tree.node?_concat] at absent
    rw [place]
    exact .makeDirectory plain short (parent wf) absent

theorem openWrite_location {fresh : Bool} {location : Location}
    (h : openWrite tree path fresh = .ok (location, tree')) : location = locate path := by
  obtain ⟨goal, reached, h⟩ := ok_of_bind h
  split at h
  · cases h
  obtain ⟨slot, looked, h⟩ := ok_of_bind h
  obtain ⟨-, -, -, -, rfl, -⟩ := slot_of_target reached looked
  split at h
  · cases h
  · exact (Prod.mk.inj (Except.ok.inj h)).1.symm
  · exact (Prod.mk.inj (Except.ok.inj h)).1.symm

theorem openWrite_takes (wf : tree.WellFormed) {location : Location}
    (h : openWrite tree path true = .ok (location, tree')) :
    (Edit.write (locate path) []).Takes tree tree' := by
  obtain ⟨goal, reached, h⟩ := ok_of_bind h
  split at h
  · cases h
  obtain ⟨slot, looked, h⟩ := ok_of_bind h
  obtain ⟨name, plain, short, place, rfl, parent⟩ := slot_of_target reached looked
  rw [place] at h ⊢
  simp only [Tree.node?_concat] at h
  split at h
  case h_1 => cases h
  case h_2 content file =>
    rw [← (Prod.mk.inj (Except.ok.inj h)).2]
    exact .write plain (.inl short) (parent wf) (by rw [file]; simp)
  case h_3 absent =>
    rw [← (Prod.mk.inj (Except.ok.inj h)).2]
    exact .write plain (.inl short) (parent wf) (by rw [absent]; simp)

theorem openWrite_eq_ok {location : Location}
    (h : openWrite tree path true = .ok (location, tree')) : ∃ directory name,
      target tree path = .ok ⟨directory, .named name, false⟩ ∧ name.utf8ByteSize ≤ nameLimit ∧
        location = directory ++ [name] ∧ tree.node? location ≠ some .directory ∧
        tree' = tree.insert location (.file []) := by
  obtain ⟨⟨directory, last, slash⟩, reached, h⟩ := ok_of_bind h
  cases slash with
  | true => cases h
  | false =>
    obtain ⟨slot, looked, h⟩ := ok_of_bind h
    cases last with
    | named name =>
      simp only [Target.slot] at looked
      split at looked
      case h_2 => cases looked
      case h_1 node? found =>
        cases looked
        obtain ⟨rfl, short⟩ := looked_eq found
        refine ⟨directory, name, reached, short, ?_⟩
        dsimp only at h
        split at h
        case h_1 => cases h
        case h_2 content file =>
          obtain ⟨rfl, rfl⟩ := Prod.mk.inj (Except.ok.inj h)
          exact ⟨rfl, by rw [file]; simp, rfl⟩
        case h_3 absent =>
          obtain ⟨rfl, rfl⟩ := Prod.mk.inj (Except.ok.inj h)
          exact ⟨rfl, by rw [absent]; simp, rfl⟩
    | _ => cases looked

theorem openWrite_empties {location : Location}
    (h : openWrite tree path true = .ok (location, tree')) :
    tree'.find? location = some (.file []) := by
  obtain ⟨_, _, -, -, -, -, rfl⟩ := openWrite_eq_ok h
  simp [SortedMap.find?_insert]

theorem removeFile_takes (h : removeFile tree path = .ok tree') :
    (Edit.removeFile (locate path)).Takes tree tree' := by
  obtain ⟨goal, reached, h⟩ := ok_of_bind h
  obtain ⟨slot, looked, h⟩ := ok_of_bind h
  obtain ⟨name, -, -, place, rfl, -⟩ := slot_of_target reached looked
  rw [place] at h ⊢
  simp only [Tree.node?_concat] at h
  split at h
  case h_1 => cases h
  case h_2 => cases h
  case h_3 content file =>
    split at h
    · cases h
    · rw [← Except.ok.inj h]
      exact .removeFile file

theorem removeDirectory_takes (h : removeDirectory tree path = .ok tree') :
    (Edit.removeDirectory (locate path)).Takes tree tree' := by
  obtain ⟨goal, reached, h⟩ := ok_of_bind h
  obtain ⟨slot, looked, h⟩ := ok_of_bind h
  obtain ⟨name, -, -, place, rfl, -⟩ := slot_of_target reached looked
  rw [place] at h ⊢
  simp only [Tree.node?_concat] at h
  split at h
  case h_1 => cases h
  case h_2 => cases h
  case h_3 directory =>
    split at h
    case isFalse => cases h
    case isTrue vacant =>
      rw [← Except.ok.inj h]
      exact .removeDirectory directory (Tree.find?_of_children_isEmpty vacant)

theorem makeDirectory_accepts (h : makeDirectory tree path = .ok tree') :
    path.utf8ByteSize < pathLimit := by
  obtain ⟨goal, reached, -⟩ := ok_of_bind h
  exact length_of_target reached

theorem openWrite_accepts {fresh : Bool} {location : Location}
    (h : openWrite tree path fresh = .ok (location, tree')) : path.utf8ByteSize < pathLimit := by
  obtain ⟨goal, reached, -⟩ := ok_of_bind h
  exact length_of_target reached

theorem rename_accepts {source : String} (h : rename tree source path = .ok tree') :
    path.utf8ByteSize < pathLimit := by
  unfold rename at h
  dsimp only at h
  split at h
  · cases h
  obtain ⟨old, -, h⟩ := ok_of_bind h
  obtain ⟨new, reached, -⟩ := ok_of_bind h
  exact length_of_target reached

/-- A move of what is no directory is the move of a file. -/
theorem rename_takes (wf : tree.WellFormed) {source goal : String}
    (h : rename tree source goal = .ok tree')
    (no_directory : tree.node? (locate source) ≠ some .directory) :
    (Edit.move (locate source) (locate goal)).Takes tree tree' := by
  unfold rename at h
  dsimp only at h
  split at h
  · cases h
  obtain ⟨old_target, old_reached, h⟩ := ok_of_bind h
  obtain ⟨new_target, new_reached, h⟩ := ok_of_bind h
  split at h
  case h_2 => cases h
  case h_1 old_name new_name old_last new_last =>
    obtain ⟨old, old_looked, h⟩ := ok_of_bind h
    obtain ⟨_, -, -, old_place, rfl, -⟩ := slot_of_target old_reached old_looked
    split at h
    case h_1 => cases h
    case h_2 node found =>
      obtain ⟨new, new_looked, h⟩ := ok_of_bind h
      obtain ⟨name, plain, short, new_place, rfl, parent⟩ := slot_of_target new_reached new_looked
      cases node with
      | directory => exact absurd found no_directory
      | file content =>
        dsimp only at found
        rw [old_place, Tree.node?_concat, ← old_place] at found
        split at h
        · cases h
        split at h
        · cases h
        split at h
        · cases h
        rw [new_place] at h ⊢
        simp only [Tree.node?_concat] at h
        -- What is left are the cases in which no directory stands at the target.
        have moved (free : tree.find? (new_target.directory ++ [name]) ≠ some .directory) :=
          Edit.Takes.move found plain short (parent wf) free
        split at h
        case isTrue same =>
          rw [← Except.ok.inj h]
          have free : tree.find? (locate source) ≠ some .directory := by
            rw [found]
            simp
          -- Onto itself: to take the file away and put it back is to leave the tree as it is.
          have stays := moved (same ▸ free)
          rw [← same] at stays ⊢
          rwa [SortedMap.insert_erase, SortedMap.insert_of_find? found] at stays
        case isFalse =>
          rw [Tree.move_file wf found] at h
          split at h
          case h_1 absent =>
            rw [← Except.ok.inj h]
            exact moved (by rw [absent]; simp)
          case h_2 other file =>
            split at h
            case isTrue directory => cases directory
            case isFalse =>
              rw [← Except.ok.inj h]
              exact moved (by rw [file]; simp)
          case h_3 => cases h

theorem append_of_file {location : Location} {content : Bytes}
    (file : tree.find? location = some (.file content)) (bytes : Bytes) :
    append tree location bytes = tree.insert location (.file (content ++ bytes)) := by
  rw [append, file]

theorem append_takes (wf : tree.WellFormed) {location : Location} {content bytes : Bytes}
    (file : tree.find? location = some (.file content)) :
    (Edit.write location (content ++ bytes)).Takes tree (append tree location bytes) := by
  rw [append_of_file file]
  cases location using List.reverseRecOn with
  | nil =>
    rw [wf.root] at file
    cases file
  | append_singleton top name =>
    have present : (tree.find? (top ++ [name])).isSome := by
      rw [file]
      rfl
    exact .write (wf.plain top name present) (.inr present) (wf.parent top name present)
      (by rw [file]; simp)

end Disk

end TreeStore
