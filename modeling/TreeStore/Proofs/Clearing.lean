import TreeStore.Proofs.Emptied
import TreeStore.Proofs.Visiting
/-!
Purging a directory where nothing fails. The walk takes the files away and keeps the directories it
is still to visit as they are; after it every directory is vacant when its turn comes, since a walk
visits what lies below a directory after it (`purge_plays`).
-/
namespace TreeStore

open Disk

section Clearing

variable {session : Session} {id : ConnectionId} {base : String} {place : Location}
variable {order : Disk.Order} {tree later : Tree} {scene : Scene}

/-- Below the directory at `place` all paths are taken, and the way to it is not lost with what lies
below. -/
structure Session.Clearable (session : Session) (tree : Tree) (base : String) (place : Location) :
    Prop where
  spans : session.Spans tree base place
  apart : Disk.find (tree.emptied place) (session.resolve base) = .ok (place, .directory)

theorem Session.Spans.erase (spans : session.Spans tree base place) {rest : List String}
    (leaf : ∀ name, tree.find? (place ++ rest ++ [name]) = none)
    (found : Disk.find (SortedMap.erase tree (place ++ rest)) (session.resolve base) =
      .ok (place, .directory)) : session.Spans (SortedMap.erase tree (place ++ rest)) base place := by
  have less : ∀ other, (SortedMap.find? (SortedMap.erase tree (place ++ rest)) other).isSome →
      (tree.find? other).isSome := by
    intro other present
    rw [SortedMap.find?_erase] at present
    split at present
    · cases present
    · exact present
  exact ⟨spans.wellFormed.eraseLeaf leaf, found,
    fun rest name present => spans.short rest name (less _ present),
    fun rest present => spans.reaches rest (less _ present)⟩

theorem Session.Spans.eraseFile (spans : session.Spans tree base place) {rest : List String}
    (named : rest ≠ []) {content : Bytes} (held : tree.find? (place ++ rest) = some (.file content)) :
    session.Spans (SortedMap.erase tree (place ++ rest)) base place := by
  refine spans.erase (fun name =>
    spans.wellFormed.find?_eq_none_of_below_file held (List.cons_ne_nil name [])) ?_
  refine find_mono (fun other directory => ?_) spans.found
  rw [Tree.node?_erase _ (by simp [named]), if_neg, directory]
  rintro rfl
  rw [Tree.node?_of_ne_nil _ (by simp [named]), held] at directory
  cases directory

/-- A directory that is found without all that lies below is found without a part of it. -/
theorem find_erase_of_emptied
    (apart : Disk.find (tree.emptied place) (session.resolve base) = .ok (place, .directory))
    {rest : List String} (some : rest ≠ []) :
    Disk.find (SortedMap.erase tree (place ++ rest)) (session.resolve base) =
      .ok (place, .directory) := by
  rw [← Tree.emptied_erase tree some] at apart
  refine find_mono (fun other directory => ?_) apart
  by_cases below : ∃ rest, rest ≠ [] ∧ other = place ++ rest
  · obtain ⟨rest, some, rfl⟩ := below
    rw [Tree.node?_emptied_below _ _ some] at directory
    cases directory
  · rwa [Tree.node?_emptied fun rest some same => below ⟨rest, some, same⟩] at directory

/-- The events lead from one tree to another in which only less lies below `place`, and the paths of
what still does are taken. -/
structure Session.Thins (session : Session) (base : String) (place : Location) (tree : Tree)
    (events : List Event) (later : Tree) : Prop where
  replayed : Replayed session tree events later
  spans : session.Spans later base place
  kept : later.emptied place = tree.emptied place

theorem Session.Thins.append {events events' : List Event} {last : Tree}
    (first : session.Thins base place tree events later)
    (rest : session.Thins base place later events' last) :
    session.Thins base place tree (events ++ events') last where
  replayed := first.replayed.append rest.replayed
  spans := rest.spans
  kept := rest.kept.trans first.kept

theorem removal_plays {call : Call} {action : Action (Except CallError Unit)} {tree' : Tree}
    (runs : Runs scene tree action (.ok ()) tree') (once : Single session.number call action)
    (served : session.served tree call = .ok tree') :
    Plays scene tree action (.ok ()) tree' (Replayed session tree · tree') :=
  .single runs once (.single served)

theorem removal_thins {call : Call} {action : Action (Except CallError Unit)} {rest : List String}
    (some : rest ≠ []) (left : session.Spans (tree.erase (place ++ rest)) base place)
    (runs : Runs scene tree action (.ok ()) (tree.erase (place ++ rest)))
    (once : Single session.number call action)
    (served : session.served tree call = .ok (tree.erase (place ++ rest))) :
    Plays scene tree action (.ok ()) (tree.erase (place ++ rest))
      (session.Thins base place tree · (tree.erase (place ++ rest))) :=
  (removal_plays runs once served).mono fun _ _ _ ⟨ends, replayed⟩ =>
    ⟨ends, replayed, left, tree.emptied_erase some⟩

theorem removeFile_thins (quiet : scene.Quiet) (spans : session.Spans tree base place)
    {top : List String} {name : String} {content : Bytes}
    (held : tree.find? (place ++ top ++ [name]) = some (.file content)) :
    Plays scene tree (session.removeFile (Path.child (Path.ofNames (base :: top)) name)) (.ok ())
      (tree.erase (place ++ top ++ [name]))
      (session.Thins base place tree · (tree.erase (place ++ top ++ [name]))) := by
  have path : Path.child (Path.ofNames (base :: top)) name =
      Path.ofNames (base :: (top ++ [name])) := (Path.ofNames_concat (base :: top) name).symm
  have file : tree.node? (place ++ top ++ [name]) = some (.file content) := by
    rw [Tree.node?_concat, held]
  have removed : Disk.removeFile tree
      (session.resolve (Path.child (Path.ofNames (base :: top)) name)) =
      .ok (tree.erase (place ++ top ++ [name])) := by
    rw [path]
    exact (spans.leads (by rw [held]; rfl)).removeFile_of_file file
  rw [List.append_assoc] at held removed ⊢
  exact removal_thins (by simp) (spans.eraseFile (by simp) held) (change_of_ok quiet session removed)
    (removeFile_single session _) removed

theorem removeFiles_logs (quiet : scene.Quiet) {top : List String} {files : List Disk.Entry}
    (distinct : (files.map Disk.Entry.name).Nodup) (spans : session.Spans tree base place)
    (each : ∀ file ∈ files, ∃ content,
      tree.find? (place ++ top ++ [file.name]) = some (.file content)) :
    Logs scene tree (ConnectionId.removeFiles session (Path.ofNames (base :: top)) files)
      fun answer later events =>
        (answer = .ok () ∧
          later = tree.lacking (files.map fun file => place ++ top ++ [file.name])) ∧
        session.Thins base place tree events later := by
  induction files generalizing tree with
  | nil => exact .ok ⟨⟨rfl, (tree.lacking_nil).symm⟩, ⟨.done, spans, rfl⟩⟩
  | cons file files ih =>
    obtain ⟨content, held⟩ := each file (by simp)
    obtain ⟨others, distinct⟩ := List.nodup_cons.1 distinct
    refine (removeFile_thins quiet spans held).transported fun events thins => ?_
    have apart : ∀ other ∈ files, place ++ top ++ [other.name] ≠ place ++ top ++ [file.name] := by
      intro other mem same
      have last : other.name = file.name := by simpa using same
      exact others (last ▸ List.mem_map_of_mem mem)
    refine (ih distinct thins.spans fun other mem => ?_).mono
      fun answer later events' ended => ?_
    · obtain ⟨content', held'⟩ := each other (List.mem_cons_of_mem _ mem)
      exact ⟨content', by rw [SortedMap.find?_erase, if_neg (apart other mem), held']⟩
    · obtain ⟨⟨eq, same⟩, thins'⟩ := ended
      refine ⟨⟨eq, ?_⟩, thins.append thins'⟩
      rw [same, List.map_cons, Tree.lacking_cons]

/-- What is left of a tree when the files in some directories below `place` have gone. -/
structure Swept (tree later : Tree) (place : Location) (visited : List (List String)) : Prop where
  directories : ∀ other, later.node? other = some .directory ↔ tree.node? other = some .directory
  files : ∀ other content, later.node? other = some (.file content) ↔
    tree.node? other = some (.file content) ∧
      ∀ top ∈ visited, ∀ last, other ≠ place ++ top ++ [last]

theorem Swept.nothing (tree : Tree) (place : Location) : Swept tree tree place [] where
  directories _ := Iff.rfl
  files _ _ := by simp

theorem Swept.trans {later' : Tree} {visited visited' : List (List String)}
    (first : Swept tree later place visited) (rest : Swept later later' place visited') :
    Swept tree later' place (visited ++ visited') where
  directories other := (rest.directories other).trans (first.directories other)
  files other content := by
    rw [rest.files, first.files, and_assoc]
    simp only [List.mem_append, or_imp, forall_and]

/-- Once the files of every directory have gone, nothing but directories is left below. -/
theorem Swept.directory_of_left (swept : Swept tree later place visited) (wf : tree.WellFormed)
    (all : ∀ rest, tree.node? (place ++ rest) = some .directory → rest ∈ visited)
    {rest : List String} (below : rest ≠ []) (left : (later.find? (place ++ rest)).isSome) :
    tree.node? (place ++ rest) = some .directory := by
  obtain ⟨node, found⟩ := Option.isSome_iff_exists.1 left
  rw [← Tree.node?_of_ne_nil _ (by simp [below])] at found
  cases node with
  | directory => exact (swept.directories _).1 found
  | file content =>
    obtain ⟨top, last, rfl⟩ : ∃ top last, rest = top ++ [last] :=
      ⟨_, _, (List.dropLast_append_getLast below).symm⟩
    obtain ⟨held, apart⟩ := (swept.files _ content).1 found
    have up : tree.node? (place ++ top) = some .directory := by
      apply wf.above (List.cons_ne_nil last [])
      rw [List.append_assoc, held]
      rfl
    exact absurd (List.append_assoc place top [last]).symm (apart top (all top up) last)

def Disk.Order.bared (order : Disk.Order) (tree : Tree) (place : Location) (top : List String) :
    Tree :=
  tree.lacking (((order.entries tree (place ++ top)).filter (!·.isDirectory)).map
    fun file => place ++ top ++ [file.name])

theorem mem_files_iff {top : List String} {other : Location} :
    other ∈ ((order.entries tree (place ++ top)).filter (!·.isDirectory)).map
        (fun file => place ++ top ++ [file.name]) ↔
      ∃ last content, other = place ++ top ++ [last] ∧ tree.find? other = some (.file content) := by
  rw [List.mem_map]
  constructor
  · rintro ⟨entry, mem, rfl⟩
    obtain ⟨mem, no_directory⟩ := List.mem_filter.1 mem
    obtain ⟨node, found, eq⟩ := mem_entries.1 mem
    rw [eq] at no_directory
    cases node with
    | directory => cases no_directory
    | file content => exact ⟨entry.name, content, rfl, found⟩
  · rintro ⟨last, content, rfl, held⟩
    exact ⟨⟨last, false, content.length⟩,
      List.mem_filter.2 ⟨mem_entries.2 ⟨_, held, rfl⟩, rfl⟩, rfl⟩

theorem node?_bared (order : Disk.Order) (tree : Tree) (place : Location) (top : List String)
    (other : Location) :
    ((∃ last content, other = place ++ top ++ [last] ∧ tree.node? other = some (.file content)) ∧
        (order.bared tree place top).node? other = none) ∨
      ((∀ last content, other = place ++ top ++ [last] → tree.node? other ≠ some (.file content)) ∧
        (order.bared tree place top).node? other = tree.node? other) := by
  by_cases root : other = []
  · refine .inr ⟨fun last content same => ?_, by rw [root]; rfl⟩
    rw [root] at same
    simp at same
  rw [Tree.node?_of_ne_nil _ root, Tree.node?_of_ne_nil _ root, Disk.Order.bared,
    Tree.find?_lacking]
  split
  case isTrue gone => exact .inl ⟨mem_files_iff.1 gone, rfl⟩
  case isFalse kept =>
    exact .inr ⟨fun last content same held =>
      kept (mem_files_iff.2 ⟨last, content, same, held⟩), rfl⟩

theorem swept_bared (top : List String) : Swept tree (order.bared tree place top) place [top] where
  directories other := by
    rcases node?_bared order tree place top other with
      ⟨⟨_, _, _, held⟩, gone⟩ | ⟨-, kept⟩
    · simp [held, gone]
    · rw [kept]
  files other content := by
    rcases node?_bared order tree place top other with
      ⟨⟨last, _, same, held⟩, gone⟩ | ⟨apart, kept⟩
    · rw [gone]
      simp only [List.mem_singleton, forall_eq, reduceCtorEq, false_iff, not_and, not_forall,
        not_not]
      exact fun _ => ⟨last, same⟩
    · rw [kept]
      simp only [List.mem_singleton, forall_eq, iff_self_and]
      exact fun held last same => apart last content same held

theorem chosen_bared {top rest : List String} (other : rest ≠ top) (keep : List String → Bool) :
    order.chosen (order.bared tree place top) place keep rest =
      order.chosen tree place keep rest := by
  have same : (order.bared tree place top).children (place ++ rest) =
      tree.children (place ++ rest) := by
    apply Tree.children_lacking
    intro last mem
    obtain ⟨last', -, eq, -⟩ := mem_files_iff.1 mem
    exact other (List.append_cancel_left (List.append_inj_left' eq rfl))
  unfold Disk.Order.chosen Disk.Order.inner Disk.Order.entries
  rw [same]

def sweepVisit (session : Session) (top : String) (gathered : List String) (visit : Visit) :
    Operation (List String) := do
  ConnectionId.removeFiles session visit.directory visit.files
  pure (if visit.directory = top then gathered else visit.directory :: gathered)

theorem Session.Spans.ofNames_eq_iff (spans : session.Spans tree base place) {top : List String}
    (there : (tree.node? (place ++ top)).isSome) :
    Path.ofNames (base :: top) = base ↔ top = [] := by
  constructor
  · intro same
    have parts := congrArg Path.components same
    rw [Path.components_ofNames_cons fun name mem => (spans.name_of_mem there name mem).1] at parts
    simpa using parts
  · rintro rfl
    rfl

theorem sweepVisit_logs (quiet : scene.Quiet) (spans : session.Spans tree base place)
    {top : List String} (directory : tree.node? (place ++ top) = some .directory)
    (gathered : List String) :
    Logs scene tree
      (sweepVisit session base gathered (order.visit tree base place (fun _ => true) top))
      fun answer later events =>
        (answer = .ok (if top = [] then gathered else Path.ofNames (base :: top) :: gathered) ∧
          later = order.bared tree place top) ∧ session.Thins base place tree events later := by
  have distinct : (((order.entries tree (place ++ top)).filter
      (!·.isDirectory)).map Disk.Entry.name).Nodup :=
    (nodup_entries order tree _).sublist (List.filter_sublist.map _)
  have each : ∀ file ∈ (order.entries tree (place ++ top)).filter (!·.isDirectory), ∃ content,
      tree.find? (place ++ top ++ [file.name]) = some (.file content) := by
    intro file mem
    obtain ⟨-, content, -, held⟩ := mem_files_iff.1 (List.mem_map_of_mem mem)
    exact ⟨content, held⟩
  refine (removeFiles_logs quiet distinct spans each).andThen (fun _ later events ended => ?_)
    fun _ _ _ ended => by cases ended.1.1
  obtain ⟨⟨-, same⟩, thins⟩ := ended
  refine .ok ⟨⟨?_, same⟩, by rwa [List.append_nil]⟩
  have first : Path.ofNames (base :: top) = base ↔ top = [] :=
    spans.ofNames_eq_iff (by rw [directory]; rfl)
  show (Except.ok (if Path.ofNames (base :: top) = base then gathered else _) : Except _ _) = _
  rw [ite_congr (propext first) (fun _ => rfl) fun _ => rfl]
  rfl

theorem sweep_logs (quiet : scene.Quiet) (listsBy : scene.ListsBy order)
    {next : List String → List (List String)} {pending visited : List (List String)}
    (walks : Walks next pending visited) (nodup : visited.Nodup)
    (spans : session.Spans tree base place)
    (agrees : ∀ top ∈ visited, order.chosen tree place (fun _ => true) top = next top)
    (directories : ∀ top ∈ pending, tree.node? (place ++ top) = some .directory) {bound : Nat}
    (enough : visited.length < bound) (gathered : List String) :
    Logs scene tree (Walk.foldWithin (sweepVisit session base) bound
        ⟨session, fun _ => true, pending.map fun rest => Path.ofNames (base :: rest)⟩ gathered)
      fun answer later events =>
        (answer = .ok (((visited.filter fun top => top ≠ []).map
            fun rest => Path.ofNames (base :: rest)).reverse ++ gathered) ∧
          Swept tree later place visited) ∧ session.Thins base place tree events later := by
  induction walks generalizing tree bound gathered with
  | done =>
    obtain ⟨bound, rfl⟩ := Nat.exists_eq_add_of_lt enough
    exact .ok ⟨⟨rfl, .nothing tree place⟩, ⟨.done, spans, rfl⟩⟩
  | @visit top pending visited more ih =>
    cases bound with
    | zero => exact absurd enough (Nat.not_lt_zero _)
    | succ bound =>
      have directory := directories top (by simp)
      obtain ⟨fresh, nodup⟩ := List.nodup_cons.1 nodup
      have seen := next?_plays quiet listsBy spans (fun _ => true) directory pending
      rw [agrees top (by simp)] at seen
      have listed : session.served tree (.list (Path.ofNames (base :: top))) = .ok tree := by
        have found := spans.find_of_directory directory
        simp only [Session.served, Disk.list, found, bind, Except.bind]
        rfl
      refine seen.transported fun events first => ?_
      refine (sweepVisit_logs quiet spans directory gathered).andThen
        (fun gathered' later events' ended => ?_) fun _ _ _ ended => by cases ended.1.1
      obtain ⟨⟨eq, same⟩, thins⟩ := ended
      have swept : Swept tree later place [top] := same ▸ swept_bared top
      -- Only files of `top` have gone, which is not visited again: the rest is listed as before.
      have agrees' : ∀ rest ∈ visited,
          order.chosen later place (fun _ => true) rest = next rest := by
        intro rest mem
        have other : rest ≠ top := fun same => fresh (same ▸ mem)
        rw [same, chosen_bared other, agrees rest (List.mem_cons_of_mem _ mem)]
      have directories' : ∀ rest ∈ next top ++ pending,
          later.node? (place ++ rest) = some .directory := by
        intro rest mem
        rw [swept.directories]
        rcases List.mem_append.1 mem with mem | mem
        · rw [← agrees top (by simp)] at mem
          exact (mem_chosen_iff.1 mem).2.1
        · exact directories rest (List.mem_cons_of_mem _ mem)
      have seen : session.Thins base place tree events tree :=
        ⟨first ▸ .single listed, spans, rfl⟩
      refine (ih nodup thins.spans agrees' directories' (Nat.lt_of_succ_lt_succ enough)
        gathered').mono fun answer later' events'' ended => ?_
      obtain ⟨⟨eq', swept'⟩, thins'⟩ := ended
      refine ⟨⟨?_, swept.trans swept'⟩, seen.append (thins.append thins')⟩
      rw [eq', Except.ok.inj eq]
      by_cases here : top = []
      · simp [here]
      · simp [here]

/-- What a purge has still to remove below a place: all that is left there, and each directory after
what lies in it. -/
structure Remaining (tree : Tree) (place : Location) (places : List (List String)) : Prop where
  each : ∀ rest ∈ places, rest ≠ [] ∧ tree.node? (place ++ rest) = some .directory
  all : ∀ rest, rest ≠ [] → (tree.find? (place ++ rest)).isSome → rest ∈ places
  order : places.Pairwise fun a b => ¬ a <+: b

namespace Remaining

variable {rest : List String} {places : List (List String)}

theorem vacant (remaining : Remaining tree place (rest :: places)) (last : String) :
    tree.find? (place ++ rest ++ [last]) = none := by
  by_contra present
  rw [List.append_assoc] at present
  rcases List.mem_cons.1 (remaining.all _ (by simp) (Option.isSome_iff_ne_none.2 present)) with
    same | mem
  · simp at same
  · exact (List.pairwise_cons.1 remaining.order).1 _ mem (List.prefix_append rest [last])

theorem erase (remaining : Remaining tree place (rest :: places)) :
    Remaining (SortedMap.erase tree (place ++ rest)) place places := by
  obtain ⟨some, -⟩ := remaining.each rest (by simp)
  obtain ⟨below, order⟩ := List.pairwise_cons.1 remaining.order
  refine ⟨fun other mem => ?_, fun other some' present => ?_, order⟩
  · obtain ⟨some', inside⟩ := remaining.each other (List.mem_cons_of_mem _ mem)
    refine ⟨some', ?_⟩
    rw [Tree.node?_erase _ (by simp [some]), if_neg, inside]
    intro same
    exact below other mem (List.append_cancel_left same ▸ List.prefix_rfl)
  · rw [SortedMap.find?_erase] at present
    split at present
    case isTrue => cases present
    case isFalse kept =>
      rcases List.mem_cons.1 (remaining.all other some' present) with rfl | mem
      · exact absurd rfl kept
      · exact mem

end Remaining

theorem removeDirectory_of_spans (spans : session.Spans tree base place) {rest : List String}
    (below : rest ≠ []) (directory : tree.node? (place ++ rest) = some .directory)
    (vacant : ∀ name, tree.find? (place ++ rest ++ [name]) = none) :
    Disk.removeDirectory tree (session.resolve (Path.ofNames (base :: rest))) =
      .ok (tree.erase (place ++ rest)) := by
  cases rest using List.reverseRecOn with
  | nil => exact absurd rfl below
  | append_singleton top last =>
    rw [← List.append_assoc] at directory vacant ⊢
    refine (spans.leads ?_).removeDirectory_of_vacant directory vacant
    rw [← Tree.node?_concat, directory]
    rfl

/-- Directories are removed in an order in which none comes before what lies in it. -/
theorem removeDirectories_plays (quiet : scene.Quiet) {places : List (List String)}
    (clear : session.Clearable tree base place) (remaining : Remaining tree place places) :
    Plays scene tree (ConnectionId.removeDirectories session
        (places.map fun rest => Path.ofNames (base :: rest)))
      (.ok ()) (tree.emptied place) (Replayed session tree · (tree.emptied place)) := by
  induction places generalizing tree with
  | nil =>
    have vacant : tree.emptied place = tree := Tree.emptied_of_vacant fun rest some => by
      by_contra present
      exact absurd (remaining.all rest some (Option.isSome_iff_ne_none.2 present)) (by simp)
    rw [vacant]
    exact .ok .done
  | cons rest places ih =>
    obtain ⟨some, directory⟩ := remaining.each rest (by simp)
    have removed := removeDirectory_of_spans clear.spans some directory remaining.vacant
    have left := clear.spans.erase remaining.vacant (find_erase_of_emptied clear.apart some)
    refine (removal_thins some left (change_of_ok quiet session removed)
      (removeDirectory_single session _) removed).transported fun events thins => ?_
    have done := ih ⟨thins.spans, thins.kept ▸ clear.apart⟩ remaining.erase
    rw [thins.kept] at done
    exact done.mono fun answer later events' ⟨ends, replayed⟩ =>
      ⟨ends, thins.replayed.append replayed⟩

theorem gather_logs (quiet : scene.Quiet) (listsBy : scene.ListsBy order)
    (spans : session.Spans tree base place) : ∃ places : List (List String),
    Logs scene tree ((Walk.start session base).fold (sweepVisit session base) [])
      fun answer later events =>
        (answer = .ok (places.map fun rest => Path.ofNames (base :: rest)) ∧
          Remaining later place places) ∧ session.Thins base place tree events later := by
  obtain ⟨visited, walks⟩ := exists_visited order tree place (fun _ => true) [[]]
  have lists := lists_chosen order tree place fun _ => true
  have root : tree.node? (place ++ []) = some .directory := by
    rw [List.append_nil]
    exact spans.directory
  have mem_iff : ∀ rest, rest ∈ visited ↔ tree.node? (place ++ rest) = some .directory := by
    intro rest
    rw [mem_visited_iff spans.wellFormed root walks]
    simp [Accepted]
  have nodup := lists.nodup_of_walks walks
  have count := length_le_of_directories nodup fun rest mem => (mem_iff rest).1 mem
  refine ⟨(visited.filter fun top => top ≠ []).reverse, ?_⟩
  refine (Logs.silent (visitBound_ends scene tree) visitBound_silent).lifted
    fun bound later events ended => ?_
  obtain ⟨⟨rfl, rfl⟩, rfl⟩ := ended
  refine (sweep_logs quiet listsBy walks nodup spans (fun _ _ => rfl)
    (fun top mem => List.mem_singleton.1 mem ▸ root) (by omega) []).mono
    fun answer later events ended => ?_
  obtain ⟨⟨eq, swept⟩, thins⟩ := ended
  refine ⟨⟨by rw [eq, List.append_nil, List.map_reverse], fun rest mem => ?_,
    fun rest some present => ?_, ?_⟩, thins⟩
  · obtain ⟨mem, some⟩ := List.mem_filter.1 (List.mem_reverse.1 mem)
    exact ⟨by simpa using some, (swept.directories _).2 ((mem_iff rest).1 mem)⟩
  · refine List.mem_reverse.2 (List.mem_filter.2 ⟨(mem_iff rest).2 ?_, by simpa using some⟩)
    exact swept.directory_of_left spans.wellFormed (fun top => (mem_iff top).2) some present
  · rw [List.pairwise_reverse]
    exact (lists.apart_of_walks walks).filter _

/-- A purge leaves the directory empty and all else as it is; none of its calls fails. -/
theorem purge_plays (quiet : scene.Quiet) (listsBy : scene.ListsBy order)
    (shows : scene.Shows id (some session)) (clear : session.Clearable tree base place) :
    Plays scene tree (id.purge base) (.ok ()) (tree.emptied place)
      (Replayed session tree · (tree.emptied place)) := by
  obtain ⟨places, gathered⟩ := gather_logs quiet listsBy clear.spans
  refine .live shows (gathered.andThen (fun directories later events ended => ?_)
    fun _ _ _ ended => by cases ended.1.1)
  obtain ⟨⟨eq, remaining⟩, thins⟩ := ended
  rw [Except.ok.inj eq]
  have emptied := removeDirectories_plays quiet ⟨thins.spans, thins.kept ▸ clear.apart⟩ remaining
  rw [thins.kept] at emptied
  exact emptied.mono fun answer last events' ended => ⟨ended.1, thins.replayed.append ended.2⟩

theorem deleteBucket_plays (quiet : scene.Quiet) (listsBy : scene.ListsBy order)
    (shows : scene.Shows id (some session)) (clear : session.Clearable tree base place)
    {front : List String} {last : String} (names : Path.components (session.resolve base) =
      front ++ [last]) (here : last ≠ ".") (above : last ≠ "..") :
    Plays scene tree (id.deleteBucket base true) (.ok ()) (tree.without place)
      (Replayed session tree · (tree.without place)) := by
  obtain ⟨parent, slash, leads, rfl⟩ := leads_of_find clear.apart names here above
  have directory : (tree.emptied (parent ++ [last])).node? (parent ++ [last]) =
      some .directory := by
    rw [Tree.node?_emptied_self, clear.spans.directory]
  have removed := leads.removeDirectory_of_vacant directory fun name =>
    tree.find?_emptied_below _ (List.cons_ne_nil name [])
  have same : SortedMap.erase (tree.emptied (parent ++ [last])) (parent ++ [last]) =
      tree.without (parent ++ [last]) := tree.erase_emptied _
  rw [same] at removed
  have runs : Runs scene (tree.emptied (parent ++ [last])) (session.removeDirectory base) (.ok ())
      (tree.without (parent ++ [last])) := change_of_ok quiet session removed
  have looked : session.served tree (.stat base) = .ok tree := by
    simp only [Session.served, Disk.stat, clear.spans.found, bind, Except.bind]
    rfl
  refine (contains_plays_of_find quiet shows clear.spans.found).andThen fun events first => ?_
  refine (purge_plays quiet listsBy shows clear).andThen fun events' replayed => .live shows ?_
  refine (removal_plays runs (removeDirectory_single session base) removed).lifted
    fun events'' replayed' => Plays.ok ?_
  rw [first, List.append_nil]
  exact .call looked (replayed.append replayed')

end Clearing

end TreeStore
