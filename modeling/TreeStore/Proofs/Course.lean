import TreeStore.Proofs.Drawn
import TreeStore.Proofs.Visiting
/-!
How a walk goes on to its end, whatever fails. Its course is the list of calls that it makes if it is
asked for all visits (`Walk.Course`); every walk in a well-formed tree has one, and no longer than
there are directories (`exists_course`). From its course it is known what a walk yields, and when
(`Walk.Course.draws`).
-/
namespace TreeStore

open TreeStore.Path (Plain)
open Disk

def Site.noting (site : Site) (event : Event) : Site :=
  { site with
    callRules := (Rule.select event.call.kind event.call.path site.callRules).2
    log := site.log ++ [event] }

theorem inspect_run {α : Type} (session : Session) (call : Call) (act : Tree → Except IoError α)
    (site : Site) :
    (∃ error, session.inspect call act site =
      (.error error, site.noting ⟨session.number, call, some error⟩)) ∨
    ∃ value, act site.disk = .ok value ∧
      session.inspect call act site = (.ok value, site.noting ⟨session.number, call, none⟩) := by
  unfold Session.inspect Session.answer
  cases eq : site.outcome call fun disk =>
      ((act disk).map (·, disk)).mapError (CallError.ofIo call.errorPath) with
  | error error => exact .inl ⟨error, Site.perform_of_error eq⟩
  | ok answer =>
    obtain ⟨value, disk⟩ := answer
    rw [Site.perform_of_ok eq]
    unfold Site.outcome at eq
    split at eq
    · cases eq
    · cases acted : act site.disk with
      | error error => simp [acted, Except.map, Except.mapError] at eq
      | ok value' =>
        obtain ⟨rfl, rfl⟩ : value' = value ∧ site.disk = disk := by
          simpa [acted, Except.map, Except.mapError] using eq
        exact .inr ⟨_, rfl, rfl⟩

def Session.shown (session : Session) (order : Disk.Order) (tree : Tree) (directory : String) :
    Except IoError (List Disk.Entry) :=
  order.arrange <$> Disk.list tree (session.resolve directory)

theorem list_run (session : Session) (directory : String) (site : Site) :
    (∃ error, session.list directory site =
      (.error error, site.noting ⟨session.number, .list directory, some error⟩)) ∨
    ∃ entries, session.shown site.order site.disk directory = .ok entries ∧
      session.list directory site =
        (.ok entries, site.noting ⟨session.number, .list directory, none⟩) :=
  inspect_run session (.list directory) (session.shown site.order · directory) site

theorem exists_place_of_shown {session : Session} {order : Disk.Order} {tree : Tree}
    {directory : String} {entries : List Disk.Entry}
    (shown : session.shown order tree directory = .ok entries) :
    ∃ place, Disk.find tree (session.resolve directory) = .ok (place, .directory) ∧
      entries = order.entries tree place := by
  unfold Session.shown Disk.list at shown
  cases found : Disk.find tree (session.resolve directory) with
  | error error => simp [found, bind, Except.bind] at shown
  | ok answer =>
    obtain ⟨place, node⟩ := answer
    cases node with
    | file content => simp [found, bind, Except.bind, Node.isDirectory] at shown
    | directory =>
      simp only [found, bind, Except.bind, Node.isDirectory, if_true] at shown
      exact ⟨place, rfl, (Except.ok.inj shown).symm⟩

namespace Walk

def yields (session : Session) (order : Disk.Order) (tree : Tree) (accepts : String → Bool)
    (event : Event) : List (Except CallError Visit) :=
  match event.call, event.failure? with
  | .list _, some error => [.error error]
  | .list directory, none =>
    match session.shown order tree directory with
    | .ok entries => [.ok (visit accepts directory entries)]
    | .error _ => []
  | _, _ => []

/-- The calls that a walk makes from here to its end. -/
inductive Course (yields : Event → List (Except CallError Visit)) : Walk → Site → List Event → Prop
  | ended {walk : Walk} {site : Site} (asked : walk.next? site = (.ok none, site)) :
      Course yields walk site []
  | failed {walk : Walk} {site : Site} {event : Event} {error : CallError}
      (asked : walk.next? site = (.error error, site.noting event))
      (yielded : yields event = [.error error]) : Course yields walk site [event]
  | visited {walk walk' : Walk} {site : Site} {event : Event} {visit : Visit} {calls : List Event}
      (asked : walk.next? site = (.ok (some (visit, walk')), site.noting event))
      (yielded : yields event = [.ok visit]) (more : Course yields walk' (site.noting event) calls) :
      Course yields walk site (event :: calls)

def all (walk : Walk) : Action (List Visit × Option CallError) := do
  walk.take (← Site.visitBound)

theorem next?_of_list {session : Session} (accepts : String → Bool) {directory : String}
    (pending : List String) {site later : Site} {answer : Except CallError (List Disk.Entry)}
    (asked : session.list directory site = (answer, later)) :
    next? ⟨session, accepts, directory :: pending⟩ site =
      (answer.map fun entries =>
        some (visit accepts directory entries, ⟨session, accepts,
          (visit accepts directory entries).subdirectories.reverse ++ pending⟩), later) := by
  refine (bind_of_run asked).trans ?_
  cases answer <;> rfl

section Take

variable {walk walk' : Walk} {site later : Site} {visit : Visit} {error : CallError}

theorem take_of_end (asked : walk.next? site = (.ok none, site)) (n : Nat) :
    walk.take n site = (([], none), site) := by
  cases n with
  | zero => rfl
  | succ n => exact bind_of_run asked

theorem take_of_failure (asked : walk.next? site = (.error error, later)) (n : Nat) :
    walk.take (n + 1) site = failing error (n + 1) later := bind_of_run asked

theorem take_of_visit (asked : walk.next? site = (.ok (some (visit, walk')), later)) (n : Nat) :
    walk.take (n + 1) site = pushing visit walk'.take (n + 1) later := bind_of_run asked

end Take

namespace Course

variable {yields : Event → List (Except CallError Visit)} {walk : Walk} {site : Site}
variable {calls : List Event}

theorem draws (course : Course yields walk site calls) : Draws walk.take site yields [] calls := by
  induction course with
  | ended asked => exact Draws.ended.congr (take_of_end asked)
  | @failed _ _ _ error asked yielded =>
    exact .called (yielded ▸ .failed error) rfl rfl (take_of_failure asked)
  | @visited _ _ _ _ visit _ asked yielded _ ih =>
    exact .called (yielded ▸ ih.pushed visit) rfl rfl (take_of_visit asked)

theorem failsLast (course : Course yields walk site calls) : FailsLast yields calls := by
  induction course with
  | ended => exact .none
  | failed _ yielded => exact .failed yielded
  | @visited _ _ _ _ visit _ _ yielded _ ih => exact .answered [visit] yielded ih

theorem length_yields (course : Course yields walk site calls) :
    (calls.flatMap yields).length = calls.length := by
  induction course with
  | ended => rfl
  | failed _ yielded =>
    rw [List.flatMap_singleton, yielded]
    rfl
  | visited _ yielded _ ih =>
    rw [List.flatMap_cons, yielded, List.singleton_append, List.length_cons, ih, List.length_cons]

end Course

end Walk

section Exists

variable {session : Session} {order : Disk.Order} {tree : Tree} {base : String} {place : Location}
variable {accepts : String → Bool}

theorem entries_of_shown (wf : tree.WellFormed)
    (entered : enter tree [] (Path.components (session.resolve base)) = .ok place)
    {rest : List String} (there : tree.node? (place ++ rest) = some .directory)
    {entries : List Disk.Entry}
    (shown : session.shown order tree (Path.ofNames (base :: rest)) = .ok entries) :
    entries = order.entries tree (place ++ rest) := by
  have plain : ∀ name ∈ rest, Plain name := by
    intro name mem
    have present : (tree.node? (place ++ rest)).isSome := by rw [there]; rfl
    obtain ⟨front, stands⟩ := wf.exists_front present mem
    exact wf.plain _ _ stands
  obtain ⟨found, leads, rfl⟩ := exists_place_of_shown shown
  have way := (find_directory_iff.1 leads).2.2
  rw [Session.components_resolve_cons plain, enter_append entered] at way
  rw [enter_eq_settle way, settle_of_plain place plain]

/-- Whatever fails, a walk yields the first of the visits that it is to make, and after them at most
one error; every visit and the error take one call. -/
theorem exists_course_of_walks (wf : tree.WellFormed)
    (entered : enter tree [] (Path.components (session.resolve base)) = .ok place)
    {pending visited : List (List String)}
    (walks : Walks (order.chosen tree place fun rest => accepts (Path.ofNames (base :: rest)))
      pending visited)
    (directories : ∀ rest ∈ pending, tree.node? (place ++ rest) = some .directory) {site : Site}
    (disk : site.disk = tree) (listsBy : site.order = order) :
    ∃ calls front error?, Walk.Course (Walk.yields session order tree accepts)
        ⟨session, accepts, pending.map fun rest => Path.ofNames (base :: rest)⟩ site calls ∧
      front <+: visited ∧ calls.length ≤ visited.length ∧
      calls.flatMap (Walk.yields session order tree accepts) =
        itemsOf (front.map (order.visit tree base place accepts), error?) := by
  induction walks generalizing site with
  | done => exact ⟨[], [], none, .ended rfl, List.nil_prefix, Nat.le_refl _, rfl⟩
  | @visit top pending visited more ih =>
    rcases list_run session (Path.ofNames (base :: top)) site with
      ⟨error, asked⟩ | ⟨entries, shown, asked⟩
    -- A directory that cannot be listed is the end of the walk.
    · refine ⟨[⟨session.number, .list (Path.ofNames (base :: top)), some error⟩], [], some error,
        .failed (Walk.next?_of_list _ _ asked) rfl, List.nil_prefix, Nat.succ_le_succ (Nat.zero_le _), rfl⟩
    · rw [disk, listsBy] at shown
      have inside := entries_of_shown wf entered (directories top (by simp)) shown
      obtain ⟨calls, front, error?, course, up, few, items⟩ :=
        @ih (pending_directories directories) (site.noting (session.listed base top)) disk listsBy
      have yielded : Walk.yields session order tree accepts (session.listed base top) =
          [.ok (order.visit tree base place accepts top)] := by
        rw [← visit_eq, ← inside]
        simp [Walk.yields, Session.listed, shown]
      have next := Walk.next?_of_list accepts (pending.map fun rest => Path.ofNames (base :: rest))
        asked
      rw [inside, Except.map, visit_eq, subdirectories_visit, ← List.map_append] at next
      refine ⟨session.listed base top :: calls, top :: front, error?, .visited next yielded course,
        List.cons_prefix_cons.2 ⟨rfl, up⟩, Nat.succ_le_succ few, ?_⟩
      rw [List.flatMap_cons, yielded, items]
      rfl

theorem files_length_le {visited : List (List String)} (nodup : visited.Nodup) :
    (visited.flatMap fun rest => (order.visit tree base place accepts rest).files).length ≤
      tree.size := by
  let places : List Location := visited.flatMap fun rest =>
    (order.visit tree base place accepts rest).files.map fun file => place ++ rest ++ [file.name]
  have inside : places ⊆ tree.entries.map Prod.fst := by
    intro location mem
    obtain ⟨rest, -, mem⟩ := List.mem_flatMap.1 mem
    obtain ⟨file, listed, rfl⟩ := List.mem_map.1 mem
    obtain ⟨node, found, -⟩ := mem_entries.1 (List.mem_filter.1 listed).1
    exact List.mem_map_of_mem (f := Prod.fst) ((SortedMap.find?_eq_some_iff tree).1 found)
  have distinct : places.Nodup := by
    refine List.nodup_flatMap.2 ⟨fun rest _ => ?_, nodup.imp fun {rest rest'} other => ?_⟩
    · have names : ((order.visit tree base place accepts rest).files.map Disk.Entry.name).Nodup :=
        (nodup_entries order tree (place ++ rest)).sublist (List.filter_sublist.map _)
      have placed := names.map fun name name' (same : place ++ rest ++ [name] = _) =>
        List.singleton_inj.1 (List.append_cancel_left same)
      rwa [List.map_map] at placed
    · intro location mem mem'
      obtain ⟨file, -, rfl⟩ := List.mem_map.1 mem
      obtain ⟨file', -, same⟩ := List.mem_map.1 mem'
      have parents := (List.append_inj_left' same rfl).symm
      exact other (List.append_cancel_left parents)
  have count := (distinct.subperm inside).length_le
  simpa [places, List.length_flatMap, SortedMap.size] using count

theorem Walk.exists_course {site : Site} (wf : site.disk.WellFormed) (session : Session)
    (base : String) (accepts : String → Bool) :
    ∃ calls visits error?,
      Course (yields session site.order site.disk accepts) (start session base accepts) site calls ∧
      calls.length ≤ site.disk.directoryCount + 1 ∧
      calls.flatMap (yields session site.order site.disk accepts) = itemsOf (visits, error?) ∧
      (visits.flatMap Visit.files).length ≤ site.disk.size := by
  rcases list_run session base site with ⟨error, asked⟩ | ⟨entries, shown, asked⟩
  · refine ⟨[⟨session.number, .list base, some error⟩], [], some error,
      .failed (next?_of_list _ _ asked) rfl, Nat.le_add_left _ _, rfl, Nat.zero_le _⟩
  · obtain ⟨place, found, -⟩ := exists_place_of_shown shown
    have entered := (find_directory_iff.1 found).2.2
    have directory : site.disk.node? (place ++ []) = some .directory := by
      rw [List.append_nil]
      exact enter_directory wf (Tree.node?_root _) entered
    obtain ⟨visited, walks⟩ := exists_visited site.order site.disk place
      (fun rest => accepts (Path.ofNames (base :: rest))) [[]]
    have nodup := (lists_chosen ..).nodup_of_walks walks
    have few := length_le_of_directories nodup fun rest mem =>
      ((mem_visited_iff wf directory walks).1 mem).2.1
    obtain ⟨calls, front, error?, course, up, short, items⟩ := exists_course_of_walks wf entered
      walks (fun rest mem => List.mem_singleton.1 mem ▸ directory) rfl rfl
    refine ⟨calls, _, error?, course, short.trans few, items, ?_⟩
    rw [List.flatMap_map]
    exact files_length_le (nodup.sublist up.sublist)

end Exists

end TreeStore
