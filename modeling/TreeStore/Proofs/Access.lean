import Mathlib.Data.List.Nodup
import TreeStore.Proofs.Reachable
/-!
What the disk answers for a path of plain names below the root of a session, when it is known what
stands there (`Way`). In a shaped bucket the way to everything that lies in it is known to be open.
-/
namespace TreeStore

open TreeStore.Path (Plain)
open Disk

section Entries

variable {order : Disk.Order} {tree : Tree} {place : Location}

def Disk.Order.entries (order : Disk.Order) (tree : Tree) (place : Location) : List Disk.Entry :=
  order.arrange ((tree.children place).map fun child =>
    ⟨child.1, child.2.isDirectory, child.2.size⟩)

theorem mem_entries {entry : Disk.Entry} :
    entry ∈ order.entries tree place ↔ ∃ node, tree.find? (place ++ [entry.name]) = some node ∧
      entry = ⟨entry.name, node.isDirectory, node.size⟩ := by
  unfold Disk.Order.entries
  rw [Disk.Order.mem_arrange, List.mem_map]
  constructor
  · rintro ⟨⟨name, node⟩, child, rfl⟩
    exact ⟨node, Tree.mem_children_iff.1 child, rfl⟩
  · rintro ⟨node, found, eq⟩
    exact ⟨(entry.name, node), Tree.mem_children_iff.2 found, eq.symm⟩

theorem Tree.nodup_keys (tree : Tree) : (tree.entries.map Prod.fst).Nodup := by
  rw [List.Nodup, List.pairwise_map]
  refine tree.sorted.imp fun {a b} before same => ?_
  rw [same] at before
  simp [Std.ReflCmp.compare_self] at before

theorem Tree.nodup_children (tree : Tree) (place : Location) :
    ((tree.children place).map Prod.fst).Nodup := by
  have names : (tree.children place).map Prod.fst =
      (tree.entries.map Prod.fst).filterMap (Tree.entryName? place) := by
    rw [Tree.children, List.map_filterMap, List.filterMap_map]
    apply List.filterMap_congr
    intro entry _
    rw [Function.comp_apply, Option.map_map]
    exact Option.map_id_apply
  rw [names]
  refine List.Nodup.filterMap (fun a b name here there => ?_) tree.nodup_keys
  rw [Option.mem_def, Tree.entryName?_eq_some_iff] at here there
  rw [here, there]

theorem nodup_entries (order : Disk.Order) (tree : Tree) (place : Location) :
    ((order.entries tree place).map Disk.Entry.name).Nodup := by
  rw [Disk.Order.entries, ((order.arrange_perm _).map Disk.Entry.name).nodup_iff, List.map_map]
  exact tree.nodup_children place

end Entries

namespace Disk

structure Leads (tree : Tree) (path : String) (parent : Location) (last : String) (slash : Bool) :
    Prop where
  target : Disk.target tree path = .ok ⟨parent, .named last, slash⟩
  short : last.utf8ByteSize ≤ nameLimit

namespace Leads

variable {tree : Tree} {path : String} {parent : Location} {last : String} {slash : Bool}

theorem slot_eq (leads : Leads tree path parent last slash) (refusal : SystemError) :
    Target.slot tree refusal ⟨parent, .named last, slash⟩ =
      .ok ⟨parent ++ [last], tree.node? (parent ++ [last])⟩ := by
  simp only [Target.slot, entry?, if_neg (Nat.not_lt.2 leads.short)]

theorem find_eq (leads : Leads tree path parent last false) :
    find tree path = (tree.node? (parent ++ [last])).elim (.error (.ofSystem .noEntry))
      fun node => .ok (parent ++ [last], node) := by
  have slot := leads.slot_eq .noEntry
  simp only [find, leads.target, bind, Except.bind, slot]
  cases tree.node? (parent ++ [last]) with
  | none => rfl
  | some node => rfl

theorem removeFile_of_file (leads : Leads tree path parent last false) {content : Bytes}
    (file : tree.node? (parent ++ [last]) = some (.file content)) :
    Disk.removeFile tree path = .ok (tree.erase (parent ++ [last])) := by
  have slot := leads.slot_eq .isDirectory
  simp only [Disk.removeFile, leads.target, bind, Except.bind, slot, file]
  rfl

theorem removeDirectory_of_vacant (leads : Leads tree path parent last slash)
    (directory : tree.node? (parent ++ [last]) = some .directory)
    (vacant : ∀ name, tree.find? (parent ++ [last] ++ [name]) = none) :
    Disk.removeDirectory tree path = .ok (tree.erase (parent ++ [last])) := by
  have slot := leads.slot_eq .busy
  have empty : (tree.children (parent ++ [last])).isEmpty = true := by
    rw [List.isEmpty_iff, List.eq_nil_iff_forall_not_mem]
    rintro ⟨name, node⟩ child
    rw [Tree.mem_children_iff, vacant] at child
    cases child
  simp only [Disk.removeDirectory, leads.target, bind, Except.bind, slot, directory, if_pos empty]

theorem removeDirectory_of_occupied (leads : Leads tree path parent last slash)
    (directory : tree.node? (parent ++ [last]) = some .directory) {name : String}
    (occupied : tree.find? (parent ++ [last] ++ [name]) ≠ none) :
    Disk.removeDirectory tree path = .error (.ofSystem .notEmpty) := by
  have slot := leads.slot_eq .busy
  have full : ¬ (tree.children (parent ++ [last])).isEmpty = true :=
    fun empty => occupied (Tree.find?_of_children_isEmpty empty name)
  simp only [Disk.removeDirectory, leads.target, bind, Except.bind, slot, directory, if_neg full]

end Leads

end Disk

namespace Session

/-- A path of plain names that the disk takes from the root of a session. -/
structure Way (session : Session) (tree : Tree) (names : List String) (last : String) : Prop where
  wellFormed : tree.WellFormed
  seated : session.Seated tree
  plain : ∀ n ∈ names, Plain n
  plain_last : Plain last
  fits : Fits session (names ++ [last])

theorem Seated.directory {session : Session} {tree : Tree} (seated : session.Seated tree)
    (wf : tree.WellFormed) : tree.node? session.seat = some .directory :=
  enter_directory wf (Tree.node?_root tree) seated.entered

theorem Seated.top {session : Session} {tree : Tree} (seated : session.Seated tree)
    (wf : tree.WellFormed) : tree.node? (session.place []) = some .directory := by
  rw [place, List.append_nil]
  exact seated.directory wf

/-- No file stands where a directory is needed. -/
def Open (session : Session) (tree : Tree) (names : List String) : Prop :=
  ∀ front, front <+: names → ∀ content, tree.node? (session.place front) ≠ some (.file content)

theorem Seated.find_name {session : Session} {tree : Tree} {name : String}
    (seated : session.Seated tree) (plain : Plain name) (fits : Fits session [name]) :
    find tree (session.resolve name) =
      (tree.node? (session.place [name])).elim (.error (.ofSystem .noEntry))
        fun node => .ok (session.place [name], node) := by
  have reached : target tree (session.resolve name) = .ok ⟨session.seat, .named name, false⟩ :=
    @target_resolve session tree [] name seated (by simp) plain fits
  exact Leads.find_eq ⟨reached, fits.name name (by simp)⟩

theorem Seated.way {session : Session} {tree : Tree} {name : String}
    (seated : session.Seated tree) (wf : tree.WellFormed) (plain : Plain name)
    (fits : Fits session [name]) : session.Way tree [] name where
  wellFormed := wf
  seated := seated
  plain := by simp
  plain_last := plain
  fits := fits

namespace Way

variable {session : Session} {tree : Tree} {names : List String} {last : String}

theorem short (way : session.Way tree names last) : last.utf8ByteSize ≤ nameLimit :=
  way.fits.name last (by simp)

theorem target_of_directory (way : session.Way tree names last)
    (parent : tree.node? (session.place names) = some .directory) :
    target tree (session.resolve (Path.ofNames (names ++ [last]))) =
      .ok ⟨session.place names, .named last, false⟩ := by
  rw [target_resolve way.seated way.plain way.plain_last way.fits]
  rw [enter_of_directory way.wellFormed way.plain
    (fun n mem => way.fits.name n (List.mem_append_left _ mem)) parent]
  rfl

theorem leads (way : session.Way tree names last)
    (parent : tree.node? (session.place names) = some .directory) :
    Leads tree (session.resolve (Path.ofNames (names ++ [last]))) (session.place names) last false :=
  ⟨way.target_of_directory parent, way.short⟩

theorem target_of_missing (way : session.Way tree names last) (no_file : session.Open tree names)
    (missing : tree.node? (session.place names) = none) :
    target tree (session.resolve (Path.ofNames (names ++ [last]))) =
      .error (.ofSystem .noEntry) := by
  have some : names ≠ [] := by
    rintro rfl
    rw [way.seated.top way.wellFormed] at missing
    cases missing
  rw [target_resolve way.seated way.plain way.plain_last way.fits]
  rw [enter_of_missing way.plain (fun n mem => way.fits.name n (List.mem_append_left _ mem))
    no_file missing some]

theorem slot_eq (way : session.Way tree names last) (refusal : SystemError) :
    Target.slot tree refusal ⟨session.place names, .named last, false⟩ =
      .ok ⟨session.place (names ++ [last]), tree.node? (session.place (names ++ [last]))⟩ := by
  have place : session.place names ++ [last] = session.place (names ++ [last]) := by
    simp [Session.place]
  simp only [Target.slot, entry?, if_neg (Nat.not_lt.2 way.short), place]

theorem find_eq (way : session.Way tree names last)
    (parent : tree.node? (session.place names) = some .directory) :
    find tree (session.resolve (Path.ofNames (names ++ [last]))) =
      (tree.node? (session.place (names ++ [last]))).elim (.error (.ofSystem .noEntry))
        fun node => .ok (session.place (names ++ [last]), node) := by
  rw [Session.place_concat]
  exact (way.leads parent).find_eq

theorem parent_of_node (way : session.Way tree names last) {node : Node}
    (found : tree.node? (session.place (names ++ [last])) = some node) :
    tree.node? (session.place names) = some .directory := by
  apply way.wellFormed.above (List.cons_ne_nil last [])
  rw [← Session.place_concat, found]
  rfl

theorem find_of_node (way : session.Way tree names last) {node : Node}
    (found : tree.node? (session.place (names ++ [last])) = some node) :
    find tree (session.resolve (Path.ofNames (names ++ [last]))) =
      .ok (session.place (names ++ [last]), node) := by
  rw [way.find_eq (way.parent_of_node found), found]
  rfl

/-- Where nothing stands an entry is missing, be it the last one or one on the way. -/
theorem find_of_missing (way : session.Way tree names last) (no_file : session.Open tree names)
    (missing : tree.node? (session.place (names ++ [last])) = none) :
    find tree (session.resolve (Path.ofNames (names ++ [last]))) =
      .error (.ofSystem .noEntry) := by
  cases parent : tree.node? (session.place names) with
  | none =>
    simp only [find, way.target_of_missing no_file parent, bind, Except.bind]
  | some node =>
    cases node with
    | file content => exact absurd parent (no_file names List.prefix_rfl content)
    | directory =>
      rw [way.find_eq parent, missing]
      rfl

theorem no_nul (way : session.Way tree names last) :
    hasNul (session.resolve (Path.ofNames (names ++ [last]))) = false :=
  (hasNul_resolve way.plain way.plain_last session).trans way.seated.no_nul

theorem openRead_of_file (way : session.Way tree names last) {content : Bytes}
    (file : tree.node? (session.place (names ++ [last])) = some (.file content)) :
    Disk.openRead tree (session.resolve (Path.ofNames (names ++ [last]))) = .ok ⟨content, none⟩ := by
  simp only [Disk.openRead, way.find_of_node file, bind, Except.bind]

theorem openWrite_of_free (way : session.Way tree names last)
    (parent : tree.node? (session.place names) = some .directory)
    (free : tree.node? (session.place (names ++ [last])) ≠ some .directory) :
    Disk.openWrite tree (session.resolve (Path.ofNames (names ++ [last]))) true =
      .ok (session.place (names ++ [last]),
        tree.insert (session.place (names ++ [last])) (.file [])) := by
  have slot := way.slot_eq .isDirectory
  simp only [Disk.openWrite, way.target_of_directory parent, bind, Except.bind, slot]
  cases found : tree.node? (session.place (names ++ [last])) with
  | none => rfl
  | some node =>
    cases node with
    | file content => rfl
    | directory => exact absurd found free

theorem openWrite_of_missing (way : session.Way tree names last)
    (no_file : session.Open tree names) (missing : tree.node? (session.place names) = none) :
    Disk.openWrite tree (session.resolve (Path.ofNames (names ++ [last]))) true =
      .error (.ofSystem .noEntry) := by
  simp only [Disk.openWrite, way.target_of_missing no_file missing, bind, Except.bind]

theorem makeDirectory_of_absent (way : session.Way tree names last)
    (parent : tree.node? (session.place names) = some .directory)
    (absent : tree.node? (session.place (names ++ [last])) = none) :
    Disk.makeDirectory tree (session.resolve (Path.ofNames (names ++ [last]))) =
      .ok (tree.insert (session.place (names ++ [last])) .directory) := by
  have slot := way.slot_eq .entryExists
  simp only [Disk.makeDirectory, way.target_of_directory parent, bind, Except.bind, slot, absent]

theorem removeFile_of_file (way : session.Way tree names last) {content : Bytes}
    (file : tree.node? (session.place (names ++ [last])) = some (.file content)) :
    Disk.removeFile tree (session.resolve (Path.ofNames (names ++ [last]))) =
      .ok (tree.erase (session.place (names ++ [last]))) := by
  have leads := way.leads (way.parent_of_node file)
  rw [Session.place_concat] at file ⊢
  exact leads.removeFile_of_file file

theorem removeFile_of_missing (way : session.Way tree names last)
    (no_file : session.Open tree names)
    (missing : tree.node? (session.place (names ++ [last])) = none) :
    Disk.removeFile tree (session.resolve (Path.ofNames (names ++ [last]))) =
      .error (.ofSystem .noEntry) := by
  cases parent : tree.node? (session.place names) with
  | none => simp only [Disk.removeFile, way.target_of_missing no_file parent, bind, Except.bind]
  | some node =>
    cases node with
    | file content => exact absurd parent (no_file names List.prefix_rfl content)
    | directory =>
      have slot := way.slot_eq .isDirectory
      simp only [Disk.removeFile, way.target_of_directory parent, bind, Except.bind, slot, missing]

theorem removeDirectory_of_vacant (way : session.Way tree names last)
    (directory : tree.node? (session.place (names ++ [last])) = some .directory)
    (vacant : ∀ name, tree.find? (session.place (names ++ [last]) ++ [name]) = none) :
    Disk.removeDirectory tree (session.resolve (Path.ofNames (names ++ [last]))) =
      .ok (tree.erase (session.place (names ++ [last]))) := by
  have leads := way.leads (way.parent_of_node directory)
  rw [Session.place_concat] at directory vacant ⊢
  exact leads.removeDirectory_of_vacant directory vacant

theorem removeDirectory_of_occupied (way : session.Way tree names last)
    (directory : tree.node? (session.place (names ++ [last])) = some .directory) {name : String}
    (occupied : tree.find? (session.place (names ++ [last]) ++ [name]) ≠ none) :
    Disk.removeDirectory tree (session.resolve (Path.ofNames (names ++ [last]))) =
      .error (.ofSystem .notEmpty) := by
  have leads := way.leads (way.parent_of_node directory)
  rw [Session.place_concat] at directory occupied
  exact leads.removeDirectory_of_occupied directory occupied

theorem rename_of_file {names' : List String} {last' : String}
    (way : session.Way tree names last) (way' : session.Way tree names' last') {content : Bytes}
    (file : tree.node? (session.place (names ++ [last])) = some (.file content))
    (parent : tree.node? (session.place names') = some .directory)
    (free : tree.node? (session.place (names' ++ [last'])) ≠ some .directory) :
    Disk.rename tree (session.resolve (Path.ofNames (names ++ [last])))
        (session.resolve (Path.ofNames (names' ++ [last']))) =
      .ok ((tree.erase (session.place (names ++ [last]))).insert (session.place (names' ++ [last']))
        (.file content)) := by
  have here := way.parent_of_node file
  have slot := way.slot_eq .busy
  have slot' := way'.slot_eq .busy
  have stands : tree.find? (session.place (names ++ [last])) = some (.file content) := by
    rwa [Session.place_concat, Tree.node?_concat, ← Session.place_concat] at file
  have no_directory : tree.node? (session.place (names ++ [last])) ≠ some .directory := by
    rw [file]
    simp
  have not_into := way.wellFormed.below?_eq_none parent no_directory
  have not_over := way.wellFormed.below?_eq_none here free
  simp only [Disk.rename, way.no_nul, way'.no_nul, way.target_of_directory here,
    way'.target_of_directory parent, bind, Except.bind, slot, slot', file, not_into, not_over]
  by_cases same : session.place (names ++ [last]) = session.place (names' ++ [last'])
  · rw [← same, SortedMap.insert_erase, SortedMap.insert_of_find? stands]
    simp [same, Node.isDirectory]
  · have moved := Tree.move_file way.wellFormed stands (session.place (names' ++ [last']))
    cases found : tree.node? (session.place (names' ++ [last'])) with
    | none => simp [same, Node.isDirectory, moved]
    | some node =>
      cases node with
      | file content' => simp [same, Node.isDirectory, moved]
      | directory => exact absurd found free

theorem rename_of_missing {names' : List String} {last' : String}
    (way : session.Way tree names last) (way' : session.Way tree names' last') {content : Bytes}
    (file : tree.node? (session.place (names ++ [last])) = some (.file content))
    (no_file : session.Open tree names') (missing : tree.node? (session.place names') = none) :
    Disk.rename tree (session.resolve (Path.ofNames (names ++ [last])))
        (session.resolve (Path.ofNames (names' ++ [last']))) = .error (.ofSystem .noEntry) := by
  have target := way'.target_of_missing no_file missing
  simp only [Disk.rename, way.no_nul, way'.no_nul, way.target_of_directory (way.parent_of_node file),
    target, bind, Except.bind]
  rfl

theorem rename_of_absent {names' : List String} {last' : String}
    (way : session.Way tree names last) (way' : session.Way tree names' last')
    (no_file : session.Open tree names) (no_file' : session.Open tree names')
    (missing : tree.node? (session.place (names ++ [last])) = none) :
    Disk.rename tree (session.resolve (Path.ofNames (names ++ [last])))
        (session.resolve (Path.ofNames (names' ++ [last']))) = .error (.ofSystem .noEntry) := by
  have slot := way.slot_eq .busy
  simp only [Disk.rename, way.no_nul, way'.no_nul]
  cases here : tree.node? (session.place names) with
  | none =>
    simp only [way.target_of_missing no_file here, bind, Except.bind]
    rfl
  | some node =>
    cases node with
    | file content => exact absurd here (no_file names List.prefix_rfl content)
    | directory =>
      cases there : tree.node? (session.place names') with
      | none =>
        simp only [way.target_of_directory here, way'.target_of_missing no_file' there, bind,
          Except.bind]
        rfl
      | some node =>
        cases node with
        | file content => exact absurd there (no_file' names' List.prefix_rfl content)
        | directory =>
          simp only [way.target_of_directory here, way'.target_of_directory there, bind,
            Except.bind, slot, missing]
          rfl

end Way

end Session

theorem Tree.node?_of_without {tree : Tree} {top place : Location} {node : Node}
    (h : (tree.without top).node? place = some node) : tree.node? place = some node := by
  unfold node? without at h
  unfold node?
  split at h
  case isTrue root => rwa [if_pos root]
  case isFalse named =>
    rw [SortedMap.find?_filterKeys] at h
    rw [if_neg named]
    split at h
    · exact h
    · cases h

namespace Shaped

variable {session : Session} {name : String} {tree : Tree}

theorem seated_in (shaped : Shaped session name tree) : session.Seated tree where
  no_nul := shaped.seated.no_nul
  entered := enter_mono (fun _ => Tree.node?_of_without) shaped.seated.entered

theorem way_top (shaped : Shaped session name tree) (plain : Plain name) :
    session.Way tree [] name :=
  shaped.seated_in.way shaped.wellFormed plain shaped.fits

theorem way (shaped : Shaped session name tree) (plain : Plain name) {rest : List String}
    {last : String} (inside : ∀ n ∈ rest ++ [last], Plain n)
    (fits : Fits session (name :: (rest ++ [last]))) :
    session.Way tree (name :: rest) last where
  wellFormed := shaped.wellFormed
  seated := shaped.seated_in
  plain := List.forall_mem_cons.2 ⟨plain, fun n mem => inside n (List.mem_append_left _ mem)⟩
  plain_last := inside last (by simp)
  fits := fits

theorem open_of_folders (shaped : Shaped session name tree) {key : String} {front : List String}
    (above : front <+: Layout.folders key) : session.Open tree (name :: front) := by
  intro middle between content file
  cases middle with
  | nil =>
    rw [shaped.seated_in.top shaped.wellFormed] at file
    cases file
  | cons first rest =>
    obtain ⟨rfl, inner⟩ := List.cons_prefix_cons.1 between
    rcases eq_or_ne rest [] with rfl | some
    · rw [shaped.top] at file
      cases file
    · exact Layout.not_lies_file key (inner.trans above) content
        (shaped.entries rest _ some file).1

end Shaped

end TreeStore
