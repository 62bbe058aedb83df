import TreeStore.Proofs.Clearing
/-!
What a purge does to a tree. Whatever fails, nothing but entries below the directory is touched. Where
no rule makes a call fail, no directory is removed before it is vacant, and the directory is left empty
unless the purge takes away the way to the root of its own session (`Session.Spans.clearable`).
-/
namespace TreeStore

open TreeStore.Path (Plain)
open Disk

section Paths

variable {session : Session} {tree : Tree} {path : String}

theorem short_of_enter {place next : Location} {names : List String}
    (entered : enter tree place names = .ok next) :
    ∀ name ∈ names, name = "." ∨ name = ".." ∨ name.utf8ByteSize ≤ nameLimit := by
  induction names generalizing place with
  | nil => simp
  | cons name rest ih =>
    rw [enter] at entered
    split at entered
    case h_2 => cases entered
    case h_1 middle passed =>
      refine List.forall_mem_cons.2 ⟨?_, ih entered⟩
      unfold step at passed
      split at passed
      case isTrue here => exact .inl here
      split at passed
      case isTrue above => exact .inr (.inl above)
      split at passed
      all_goals cases passed
      case h_4 looked => exact .inr (.inr (looked_eq looked).2)

theorem no_nul_of_components {text whole : String} (no_nul : hasNul whole = false)
    (part : Path.components text ⊆ Path.components whole) : '\x00' ∉ text.toList := by
  simp only [hasNul, List.contains_eq_mem, decide_eq_false_iff_not] at no_nul
  rw [Path.mem_toList_iff (by decide)] at no_nul ⊢
  rintro ⟨name, inside, nul⟩
  exact no_nul ⟨name, part inside, nul⟩

theorem Session.Spans.plain {place : Location} (spans : session.Spans tree path place)
    (steady : ∀ name ∈ Path.components path, name ≠ "." ∧ name ≠ "..") :
    ∀ name ∈ Path.components path, Plain name := by
  intro name mem
  have no_nul : '\x00' ∉ path.toList := by
    refine no_nul_of_components (find_directory_iff.1 spans.found).1 ?_
    rw [Session.components_resolve]
    exact List.subset_append_right _ _
  exact Path.plain_of_mem_components mem no_nul (steady name mem).1 (steady name mem).2

/-- The root of the session is on the way to any directory. -/
theorem Session.Spans.seated {place : Location} (spans : session.Spans tree path place) :
    session.Seated tree := by
  obtain ⟨no_nul, -, entered⟩ := find_directory_iff.1 spans.found
  refine ⟨?_, ?_⟩
  · have sound : '\x00' ∉ session.root.toList := by
      refine no_nul_of_components no_nul ?_
      rw [Session.components_resolve]
      exact List.subset_append_left _ _
    simpa [hasNul] using sound
  · rw [Session.components_resolve] at entered
    cases way : enter tree [] (Path.components session.root) with
    | ok seat => exact congrArg Except.ok (enter_eq_settle way)
    | error error =>
      rw [enter_append_of_error way] at entered
      cases entered

/-- A directory can be cleared if the way to the root of the session does not lead through what is
below it. -/
theorem Session.Spans.clearable
    (spans : session.Spans tree path (session.place (Path.components path)))
    (steady : ∀ name ∈ Path.components path, name ≠ "." ∧ name ≠ "..")
    (seated : session.Seated (tree.emptied (session.place (Path.components path)))) :
    session.Clearable tree path (session.place (Path.components path)) := by
  refine ⟨spans, ?_⟩
  obtain ⟨no_nul, short, entered⟩ := find_directory_iff.1 spans.found
  refine find_directory_iff.2 ⟨no_nul, short, ?_⟩
  have names : ∀ name ∈ Path.components path, name.utf8ByteSize ≤ nameLimit := by
    intro name mem
    rw [Session.components_resolve] at entered
    rcases short_of_enter entered name (List.mem_append_right _ mem) with here | above | short
    · exact absurd here (steady name mem).1
    · exact absurd above (steady name mem).2
    · exact short
  rw [Session.components_resolve, enter_append seated.entered]
  refine enter_of_directory (spans.wellFormed.emptied _) (spans.plain steady) names ?_
  show (tree.emptied _).node? (session.place (Path.components path)) = _
  rw [Tree.node?_emptied_self, spans.directory]

/-- The way to a root that never goes up does not lead through what is below it. -/
theorem Session.Seated.emptied (seated : session.Seated tree)
    (down : ".." ∉ Path.components session.root) {names : List String} (named : names ≠ []) :
    session.Seated (tree.emptied (session.place names)) := by
  refine ⟨seated.no_nul, (enter_along down (fun other leads => ?_) seated.entered).2⟩
  apply Tree.node?_emptied
  rintro rest - rfl
  have length := leads.length_le
  simp only [Session.place, List.length_append] at length
  exact named (List.length_eq_zero_iff.1 (by omega))

theorem Session.Spans.find_of_target {start : Tree} {place : Location}
    (known : session.Spans start path place) {rest : List String} (some : rest ≠ [])
    (plain : ∀ name ∈ rest, Plain name) {reached : Target}
    (leads : target tree (session.resolve (Path.ofNames (path :: rest))) = .ok reached) :
    Disk.find tree (session.resolve path) = .ok (place, .directory) := by
  obtain ⟨no_nul, short, entered⟩ := find_directory_iff.1 known.found
  obtain ⟨route, read, leads⟩ := route_of_target leads
  obtain ⟨-, -, rfl⟩ := ofPath_eq_ok read
  rw [Route.target, Session.components_resolve_cons plain, List.dropLast_append_of_ne_nil some] at leads
  refine find_directory_iff.2 ⟨no_nul, short, ?_⟩
  cases way : enter tree [] (Path.components (session.resolve path)) with
  | ok next => rw [enter_eq_settle way, enter_eq_settle entered]
  | error error =>
    rw [enter_append_of_error way] at leads
    cases leads

end Paths

def removalBelow (place : Location) : Footprint where
  apt := Tree.WellFormed
  allowed edit := ∃ rest, rest ≠ [] ∧
    (edit = .removeFile (place ++ rest) ∨ edit = .removeDirectory (place ++ rest))
  wellFormed _ apt := apt
  kept _ _ _ _ taken apt := taken.wellFormed apt

/-- An entry is as it was, or it lies below the place and has gone. -/
def OnlyBelow (place : Location) (tree later : Tree) : Prop :=
  ∀ location, later.node? location = tree.node? location ∨
    (∃ rest, rest ≠ [] ∧ location = place ++ rest) ∧ later.node? location = none

theorem onlyBelow_of_edits {tree later : Tree} {place : Location} (wf : tree.WellFormed)
    (edited : Tree.EditedBy (removalBelow place).allowed tree later) :
    OnlyBelow place tree later := by
  refine (edited.keeps (fun later => later.WellFormed ∧ OnlyBelow place tree later)
    ⟨wf, fun _ => .inl rfl⟩ fun edit before after may taken ⟨formed, only⟩ =>
      ⟨taken.wellFormed formed, fun location => ?_⟩).2
  by_cases touched : location ∈ edit.touched
  · obtain ⟨rest, some, removes⟩ := may
    have named : place ++ rest ≠ [] := by simp [some]
    have here : location = place ++ rest := by
      rcases removes with rfl | rfl <;> exact List.mem_singleton.1 touched
    refine .inr ⟨⟨rest, some, here⟩, ?_⟩
    rw [here]
    rcases removes with rfl | rfl <;> cases taken <;> rw [Tree.node?_erase _ named, if_pos rfl]
  · rw [taken.frame formed touched]
    exact only location

theorem removesBelow (session : Session) (path : String) :
    RemovesBelow (removalBelow (locate (session.resolve path))) session path := by
  intro rest some below
  rw [Session.locate_resolve_cons below]
  exact ⟨⟨rest, some, .inl rfl⟩, rest, some, .inr rfl⟩

/-- No call asks to remove a directory that still has an entry at its turn. -/
def RemovesVacant (session : Session) (tree : Tree) (events : List Event) : Prop :=
  ∀ front event back path, events = front ++ event :: back → event.call = .removeDirectory path →
    ∃ disk, Replayed session tree front disk ∧
      ∀ name, disk.find? (locate (session.resolve path) ++ [name]) = none

theorem Replayed.removesVacant {session : Session} {tree later : Tree} {events : List Event}
    (replayed : Replayed session tree events later) : RemovesVacant session tree events := by
  intro front event back path eq removes
  rw [eq] at replayed
  obtain ⟨disk, disk', before, served⟩ := replayed.split
  rw [removes] at served
  refine ⟨disk, before, ?_⟩
  cases removeDirectory_takes served with
  | removeDirectory _ vacant => exact vacant

theorem RemovesVacant.append {session : Session} {tree later : Tree} {events events' : List Event}
    (first : Replayed session tree events later) (rest : RemovesVacant session later events') :
    RemovesVacant session tree (events ++ events') := by
  intro front event back path split removes
  rcases List.append_eq_append_iff.1 split with ⟨front', rfl, eq⟩ | ⟨_ | ⟨event', back'⟩, eq, eq'⟩
  · obtain ⟨disk, before, vacant⟩ := rest front' event back path eq removes
    exact ⟨disk, first.append before, vacant⟩
  · obtain rfl : events = front := by rw [eq, List.append_nil]
    obtain ⟨disk, before, vacant⟩ := rest [] event back path eq'.symm removes
    exact ⟨disk, List.append_nil events ▸ first.append before, vacant⟩
  · obtain ⟨rfl, -⟩ := List.cons.inj eq'
    exact first.removesVacant front event back' path eq removes

section Vacant

variable {scene : Scene} {order : Disk.Order} {id : ConnectionId} {session : Session}
variable {tree start : Tree} {base : String} {place : Location}

/-- The way to the directory may be lost with what is removed. Then the removal that comes next fails,
and is the last. -/
theorem removeDirectories_vacate (quiet : scene.Quiet) (known : session.Spans start base place)
    {places : List (List String)} (plain : ∀ rest ∈ places, ∀ name ∈ rest, Plain name)
    (remaining : Remaining tree place places)
    (spans : Disk.find tree (session.resolve base) = .ok (place, .directory) →
      session.Spans tree base place) :
    Logs scene tree (ConnectionId.removeDirectories session
        (places.map fun rest => Path.ofNames (base :: rest)))
      fun _ _ events => RemovesVacant session tree events := by
  induction places generalizing tree with
  | nil => exact .ok fun front event back path split => by simp at split
  | cons rest places ih =>
    obtain ⟨some, directory⟩ := remaining.each rest (by simp)
    have names := plain rest (by simp)
    cases removed : Disk.removeDirectory tree (session.resolve (Path.ofNames (base :: rest))) with
    | error error =>
      refine Plays.refused (.single (change_of_error quiet session removed)
        (removeDirectory_single session _) rfl) fun events made => ?_
      subst made
      intro front event back path split removes
      cases front with
      | cons => simp at split
      | nil =>
        obtain ⟨rfl, -⟩ := List.cons.inj split
        cases removes
        refine ⟨tree, .done, ?_⟩
        rw [Session.locate_resolve_cons names, known.locate_eq]
        exact remaining.vacant
    | ok left =>
      obtain ⟨reached, leads, -⟩ := Disk.ok_of_bind removed
      have found := known.find_of_target some names leads
      have same := removeDirectory_of_spans (spans found) some directory remaining.vacant
      obtain rfl := Except.ok.inj (removed.symm.trans same)
      refine (removal_plays (change_of_ok quiet session removed)
        (removeDirectory_single session _) removed).transported fun events replayed => ?_
      refine (ih (fun other mem => plain other (List.mem_cons_of_mem _ mem)) remaining.erase
        fun found' => (spans found).erase remaining.vacant found').mono fun _ _ _ vacant => ?_
      exact .append replayed vacant

theorem purge_vacates (quiet : scene.Quiet) (listsBy : scene.ListsBy order)
    (shows : scene.Shows id (some session)) (spans : session.Spans tree base place) :
    Logs scene tree (id.purge base) fun _ _ events => RemovesVacant session tree events := by
  obtain ⟨places, gathered⟩ := gather_logs quiet listsBy spans
  refine .live shows (gathered.andThen (fun directories later events ended => ?_)
    fun _ _ _ ended => by cases ended.1.1)
  obtain ⟨⟨eq, remaining⟩, thins⟩ := ended
  rw [Except.ok.inj eq]
  refine (removeDirectories_vacate quiet spans (fun rest mem => ?_) remaining
    fun _ => thins.spans).mono fun _ _ _ vacant => .append thins.replayed vacant
  intro name inside
  refine (thins.spans.name_of_mem ?_ name inside).1
  rw [(remaining.each rest mem).2]
  rfl

end Vacant

section Complete

variable {site : Site} {connection : Connection} {order : Disk.Order} {id : ConnectionId}
variable {session : Session} {path : String} {place : Location}

theorem purge_empties (calm : (Scene.calm id connection order).holds site)
    (slot : connection.slot = some session) (clear : session.Clearable site.disk path place) :
    let purged := id.purge path site
    purged.1 = .ok () ∧ purged.2.disk.node? place = some .directory ∧
      (∀ rest, rest ≠ [] → purged.2.disk.node? (place ++ rest) = none) ∧
      (∀ location, ¬ place <+: location →
        purged.2.disk.node? location = site.disk.node? location) ∧
      ∃ events, purged.2.log = site.log ++ events ∧
        Replayed session site.disk events purged.2.disk := by
  intro purged
  obtain ⟨-, events, log, ⟨answer, left⟩, replayed⟩ :=
    (purge_plays (Scene.calm_quiet id connection order) (Scene.calm_listsBy id connection order)
      (Scene.calm_shows_live slot order) clear).run site calm rfl
  have left : purged.2.disk = site.disk.emptied place := left
  rw [left]
  refine ⟨answer, ?_, fun rest some => Tree.node?_emptied_below _ _ some,
    fun location outside => ?_, events, log, replayed⟩
  · rw [Tree.node?_emptied_self, clear.spans.directory]
  · rw [Tree.node?_emptied]
    rintro rest - rfl
    exact outside (List.prefix_append _ _)

theorem deletion_removes (calm : (Scene.calm id connection order).holds site)
    (slot : connection.slot = some session) (named : Path.components path ≠ [])
    (steady : ∀ name ∈ Path.components path, name ≠ "." ∧ name ≠ "..")
    (clear : session.Clearable site.disk path (session.place (Path.components path))) :
    let place := session.place (Path.components path)
    let deleted := id.deleteBucket path true site
    deleted.1 = .ok () ∧ (∀ rest, deleted.2.disk.node? (place ++ rest) = none) ∧
      ∀ location, ¬ place <+: location →
        deleted.2.disk.node? location = site.disk.node? location := by
  intro place deleted
  obtain ⟨front, last, names⟩ : ∃ front last, Path.components path = front ++ [last] :=
    ⟨_, _, (List.dropLast_append_getLast named).symm⟩
  have ends := steady last (by rw [names]; simp)
  have parts : Path.components (session.resolve path) =
      Path.components session.root ++ front ++ [last] := by
    rw [Session.components_resolve, names, List.append_assoc]
  have some : place ≠ [] := by simp [place, Session.place, named]
  obtain ⟨-, -, -, ⟨answer, left⟩, -⟩ :=
    (deleteBucket_plays (Scene.calm_quiet id connection order)
      (Scene.calm_listsBy id connection order) (Scene.calm_shows_live slot order) clear parts
      ends.1 ends.2).run site calm rfl
  have left : deleted.2.disk = site.disk.without place := left
  rw [left]
  exact ⟨answer, Tree.node?_without_below _ some, fun _ => Tree.node?_without⟩

end Complete

/-- Whatever fails, a purge makes and changes nothing, and what it removes lies below the directory; a
deletion leaves alone what is outside. A purge never removes a directory that has an entry. If the way
to the root of the session does not lead through what is below the directory, as it never does
where the root does not go up, a purge leaves it empty where nothing fails, and a recursive deletion
removes it as well. -/
theorem purge_is_complete_and_confined {site : Site} {id : ConnectionId} {session : Session}
    {path : String} (live : slotIn site.connections id = some session)
    (named : Path.components path ≠ [])
    (steady : ∀ name ∈ Path.components path, name ≠ "." ∧ name ≠ "..")
    (spans : session.Spans site.disk path (session.place (Path.components path))) :
    let place := session.place (Path.components path)
    let calm := site.withRules [] []
    let purged := id.purge path calm
    let deleted := id.deleteBucket path true calm
    OnlyBelow place site.disk (id.purge path site).2.disk ∧
    (∀ location, ¬ place <+: location →
      (id.deleteBucket path true site).2.disk.node? location = site.disk.node? location) ∧
    (∃ events, purged.2.log = site.log ++ events ∧ RemovesVacant session site.disk events) ∧
    (".." ∉ Path.components session.root → session.Seated (site.disk.emptied place)) ∧
    (session.Seated (site.disk.emptied place) →
      (purged.1 = .ok () ∧ purged.2.disk.node? place = some .directory ∧
        (∀ rest, rest ≠ [] → purged.2.disk.node? (place ++ rest) = none) ∧
        (∀ location, ¬ place <+: location →
          purged.2.disk.node? location = site.disk.node? location) ∧
        ∃ events, purged.2.log = site.log ++ events ∧
          Replayed session site.disk events purged.2.disk) ∧
      deleted.1 = .ok () ∧ (∀ rest, deleted.2.disk.node? (place ++ rest) = none) ∧
        ∀ location, ¬ place <+: location →
          deleted.2.disk.node? location = site.disk.node? location) := by
  intro place calm purged deleted
  have wf := spans.wellFormed
  obtain ⟨connection, slot, holds⟩ := Site.exists_calm live
  have shown := Scene.shows_slot id (some session)
  refine ⟨?_, fun location outside => ?_, ?_, fun down => spans.seated.emptied down named,
    fun apart => ?_⟩
  · have edited := ((purge_ends shown path site.disk (removesBelow session path)).run site live rfl).2
    rw [spans.locate_eq] at edited
    exact onlyBelow_of_edits wf (edited.covers wf).1
  · rw [show place = _ from spans.locate_eq.symm] at outside
    exact ((deleteBucket_frame shown path wf true outside).run site live rfl).2
  · exact ((purge_vacates (Scene.calm_quiet id connection site.order)
      (Scene.calm_listsBy id connection site.order) (Scene.calm_shows_live slot site.order)
      spans).run calm holds rfl).2
  · have clear := spans.clearable steady apart
    exact ⟨purge_empties holds slot clear, deletion_removes holds slot named steady clear⟩

theorem purge_of_a_nested_directory :
    let site := Site.connected "/r" (SortedMap.ofList [(["r"], .directory), (["r", "b"], .directory),
      (["r", "b", "f"], .file [1]), (["r", "b", "x"], .directory), (["r", "b", "x", "f"], .file [2]),
      (["r", "b", "x", "u"], .directory)])
    let session : Session := ⟨0, "/r"⟩
    let place := session.place (Path.components "b//x/")
    slotIn site.connections ⟨0⟩ = some session ∧ Path.components "b//x/" ≠ [] ∧
      (∀ name ∈ Path.components "b//x/", name ≠ "." ∧ name ≠ "..") ∧
      session.Spans site.disk "b//x/" place ∧ ".." ∉ Path.components session.root ∧
      (ConnectionId.purge ⟨0⟩ "b//x/" (site.withRules [] [])).1 = .ok () ∧
      OnlyBelow place site.disk (ConnectionId.purge ⟨0⟩ "b//x/" site).2.disk := by
  intro site session place
  have live : slotIn site.connections ⟨0⟩ = some session := rfl
  have named : Path.components "b//x/" ≠ [] := by decide +kernel
  have steady : ∀ name ∈ Path.components "b//x/", name ≠ "." ∧ name ≠ ".." := by decide +kernel
  have spans : session.Spans site.disk "b//x/" place := by decide +kernel
  have down : ".." ∉ Path.components session.root := by decide +kernel
  obtain ⟨confined, -, -, apart, complete⟩ :=
    purge_is_complete_and_confined live named steady spans
  exact ⟨live, named, steady, spans, down, (complete (apart down)).1.1, confined⟩

/-- The root of this session is reached through a directory in the bucket. With it the way to its
neighbour is lost, which stays. -/
theorem purge_may_lose_its_way :
    let disk : Tree := SortedMap.ofList [(["b"], .directory), (["b", "x"], .directory),
      (["b", "y"], .directory)]
    let made := ConnectionId.connect { root := some "b/x/../.." } { base := "/", disk }
    let session : Session := ⟨0, "/b/x/../.."⟩
    let purged := ConnectionId.purge ⟨0⟩ "b" made.2
    let deleted := ConnectionId.deleteBucket ⟨0⟩ "b" true made.2
    let lost : StoreError := .transport (.ofIo "b/y" (.ofSystem .noEntry))
    made.1 = .ok ⟨0⟩ ∧ slotIn made.2.connections ⟨0⟩ = some session ∧
      made.2.callRules = [] ∧ made.2.streamRules = [] ∧ made.2.disk = disk ∧
      Path.components "b" = ["b"] ∧ session.Spans disk "b" (session.place ["b"]) ∧
      purged.1 = .error lost ∧ purged.2.disk.node? ["b", "y"] = some .directory ∧
      deleted.1 = .error lost ∧ deleted.2.disk.node? ["b", "y"] = some .directory := by
  refine ⟨?_, ?_, rfl, rfl, ?_, ?_, ?_, ?_, ?_, ?_, ?_⟩ <;> decide +kernel

end TreeStore
