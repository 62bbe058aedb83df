import TreeStore.Proofs.Keys
import TreeStore.Proofs.Parents
import TreeStore.Proofs.Reachable
import TreeStore.Proofs.Subtree
/-!
What the making of a path's directories leaves behind. Where nothing fails, each directory that is
missing is made by one call of its own, the outermost first, and it is an error if none is missing.
Whatever fails, some of them have been made, and these are the first ones (`makeMissing_begins`).
-/
namespace TreeStore

open TreeStore.Path (Plain IsPart)

/-- A component that stands for an entry of a directory, unless the disk refuses it. -/
structure Path.Proper (part : String) : Prop where
  whole : IsPart part
  not_here : part ≠ "."
  not_above : part ≠ ".."

theorem Session.plain_of_no_nul {session : Session} {parts : List String}
    (proper : ∀ part ∈ parts, Path.Proper part)
    (no_nul : Disk.hasNul (session.resolve (Path.ofNames parts)) = false) :
    ∀ part ∈ parts, Plain part := by
  intro part mem
  obtain ⟨⟨some_char, no_slash⟩, not_here, not_above⟩ := proper part mem
  refine ⟨some_char, no_slash, fun nul => ?_, not_here, not_above⟩
  simp only [Disk.hasNul, List.contains_eq_mem, decide_eq_false_iff_not] at no_nul
  refine no_nul ((Path.mem_toList_iff (by decide)).2 ⟨part, ?_, nul⟩)
  rw [components_resolve, Path.components_ofParts fun part mem => (proper part mem).whole]
  exact List.mem_append_right _ mem

theorem Disk.no_nul_of_target {tree : Tree} {path : String} {reached : Target}
    (goal : target tree path = .ok reached) : hasNul path = false := by
  obtain ⟨route, read, -⟩ := route_of_target goal
  exact (ofPath_eq_ok read).1

theorem Disk.makeDirectory_eq_ok {tree tree' : Tree} {path : String}
    (made : makeDirectory tree path = .ok tree') : hasNul path = false ∧
      tree.node? (locate path) = none ∧ tree' = tree.insert (locate path) .directory := by
  obtain ⟨reached, goal, made⟩ := ok_of_bind made
  obtain ⟨slot, looked, made⟩ := ok_of_bind made
  obtain ⟨-, -, -, -, rfl, -⟩ := slot_of_target goal looked
  refine ⟨no_nul_of_target goal, ?_⟩
  split at made
  case h_1 => cases made
  case h_2 absent => exact ⟨absent, (Except.ok.inj made).symm⟩

section Making

variable {scene : Scene} {id : ConnectionId} {session : Session}

theorem contains_finds (shows : scene.Shows id (some session)) (tree : Tree) (path : String) :
    Ends scene tree (id.contains path) fun answer tree' => tree' = tree ∧
      (answer = .ok true → ∃ found, Disk.find tree (session.resolve path) = .ok found) := by
  refine .live shows ((inspect_ends ..).lifted fun answer tree' ⟨same, stated⟩ => ?_)
  cases answer with
  | ok node =>
    obtain ⟨found, at_path, -⟩ := Disk.ok_of_bind (stated node rfl)
    exact .ok ⟨same, fun _ => ⟨found, at_path⟩⟩
  | error error =>
    dsimp only
    split
    · exact .ok ⟨same, fun eq => nomatch eq⟩
    · exact .throw ⟨same, fun eq => nomatch eq⟩

/-- Whatever fails, of the directories that are missing the first ones have been made. -/
theorem makeMissing_begins (shows : scene.Shows id (some session)) {front rest : List String}
    (proper : ∀ part ∈ front ++ rest, Path.Proper part) (tree : Tree) :
    Ends scene tree (id.makeMissing session (Path.ofNames front) rest) fun _ tree' =>
      ∃ n, tree' = session.grown tree ((session.missing tree front rest).take n) := by
  induction rest generalizing front tree with
  | nil => exact .ok ⟨0, rfl⟩
  | cons name rest ih =>
    rw [List.append_cons] at proper
    have above : ∀ part ∈ front ++ [name], Path.Proper part :=
      fun part mem => proper part (List.mem_append_left _ mem)
    rw [ConnectionId.makeMissing, ← Path.ofNames_concat]
    refine (contains_finds shows tree _).andThen (fun there tree' done => ?_)
      fun error tree' done => ⟨0, done.1⟩
    obtain ⟨rfl, finds⟩ := done
    split
    case isTrue found =>
      subst found
      obtain ⟨⟨place, node⟩, found⟩ := finds rfl
      obtain ⟨reached, goal, -⟩ := Disk.ok_of_bind found
      have plain := session.plain_of_no_nul above (Disk.no_nul_of_target goal)
      rw [Session.missing_of_some (Disk.node_of_find plain found)]
      exact ih proper tree'
    case isFalse =>
      refine (change_ends ..).transported (fun _ later ended => ?_) fun _ later ended => ?_
      case refine_1 =>
        obtain ⟨_, eq, -⟩ | ⟨-, made⟩ := ended
        · cases eq
        obtain ⟨no_nul, absent, rfl⟩ := Disk.makeDirectory_eq_ok made
        have plain := session.plain_of_no_nul above no_nul
        rw [Session.locate_resolve plain] at absent ⊢
        rw [Session.missing_of_none absent]
        refine (ih proper _).andThen (fun _ last begins => .ok ?_) fun _ last begins => ?_
        all_goals
          obtain ⟨n, grown⟩ := begins
          exact ⟨n + 1, grown⟩
      case refine_2 =>
        obtain ⟨_, -, same⟩ | ⟨eq, -⟩ := ended
        · exact ⟨0, same⟩
        · cases eq

theorem makeDirectories_begins (shows : scene.Shows id (some session)) {path : String}
    (steady : ∀ name ∈ Path.components path, name ≠ "." ∧ name ≠ "..") (tree : Tree) :
    Ends scene tree (id.makeDirectories path) fun _ tree' => ∃ n, tree' =
      session.grown tree ((session.missing tree [] (Path.components path)).take n) := by
  have proper : ∀ part ∈ [] ++ Path.components path, Path.Proper part := fun part mem =>
    have ⟨some_char, no_slash, _⟩ := Path.mem_components mem
    have ⟨not_here, not_above⟩ := steady part mem
    ⟨⟨some_char, no_slash⟩, not_here, not_above⟩
  refine .live shows ((makeMissing_begins shows proper tree).andThen (fun any later begins => ?_)
    fun error later begins => begins)
  cases any with
  | true => exact .ok begins
  | false => exact .throw begins

end Making

/-- Where the components of a path are plain, fit the disk and no file bars the way, the making of
its directories is refused if and only if none of them is missing, and then the disk stays as it is.
Otherwise exactly the missing ones are new, each by one call, the outermost first. Whatever fails and
whatever path it is that does not go up, some of the missing ones have been made, and these are the
outermost ones. -/
theorem missing_directories_are_made {id : ConnectionId} {session : Session} (site : Site)
    (path : String) (live : (site.connections[id.index]?).bind Connection.slot = some session)
    (steady : ∀ name ∈ Path.components path, name ≠ "." ∧ name ≠ "..") :
    let names := Path.components path
    let missing := session.missing site.disk [] names
    (session.Passable site.disk names →
      let ended := id.makeDirectories path (site.withRules [] [])
      ended.1 = (if missing = [] then .error (.alreadyExists path) else .ok ()) ∧
      ended.2.disk = session.grown site.disk missing ∧
      ∃ events, ended.2.log = site.log ++ events ∧
        events.filter (fun event => event.call.kind = .makeDirectory) =
          missing.map session.made) ∧
    ∀ calls streams, ∃ n, (id.makeDirectories path (site.withRules calls streams)).2.disk =
      session.grown site.disk (missing.take n) := by
  intro names missing
  constructor
  · intro passable ended
    obtain ⟨connection, known, live⟩ := Option.bind_eq_some_iff.1 live
    have answers := makeDirectories_answers (Scene.calm_quiet id connection site.order)
      (Scene.calm_shows_live live site.order) rfl passable
    obtain ⟨-, events, log, ⟨answered, grown⟩, sought⟩ :=
      answers.run (site.withRules [] []) ⟨rfl, rfl, known, rfl⟩ rfl
    exact ⟨answered, grown, events, log, sought ▸ Session.filter_sought _⟩
  · intro calls streams
    have begins := makeDirectories_begins (Scene.shows_slot id (some session)) steady site.disk
    exact (begins.run (site.withRules calls streams) live rfl).2

theorem two_directories_are_made :
    let id : ConnectionId := ⟨0⟩
    let session : Session := ⟨0, "/"⟩
    let path := "/a//b/c/"
    let refused : Rule CallKind Refusal :=
      { occasion := .makeDirectory, path? := some "a/b/c", effect := ⟨.other, "refused"⟩ }
    let site := Site.connected "/" (SortedMap.ofList [(["a"], .directory), (["f"], .file [7])])
    let ended := id.makeDirectories path (site.withRules [] [])
    ended.1 = .ok () ∧ ended.2.disk = session.grown site.disk [["a", "b"], ["a", "b", "c"]] ∧
      (∃ events, ended.2.log = site.log ++ events ∧
        events.filter (fun event => event.call.kind = .makeDirectory) =
          [⟨0, .makeDirectory "a/b", none⟩, ⟨0, .makeDirectory "a/b/c", none⟩]) ∧
      (id.makeDirectories path (ended.2.withRules [] [])).1 = .error (.alreadyExists path) ∧
      (id.makeDirectories path (site.withRules [refused] [])).2.disk =
        session.grown site.disk [["a", "b"]] := by
  intro id session path refused site ended
  have live : (site.connections[id.index]?).bind Connection.slot = some session := rfl
  have steady : ∀ name ∈ Path.components path, name ≠ "." ∧ name ≠ ".." := by decide +kernel
  have passable : session.Passable site.disk (Path.components path) := by decide +kernel
  have missing : session.missing site.disk [] (Path.components path) =
      [["a", "b"], ["a", "b", "c"]] := by decide +kernel
  have live' : (ended.2.connections[id.index]?).bind Connection.slot = some session := by
    decide +kernel
  have passable' : session.Passable ended.2.disk (Path.components path) := by decide +kernel
  have none_missing : session.missing ended.2.disk [] (Path.components path) = [] := by
    decide +kernel
  obtain ⟨whole, begins⟩ := missing_directories_are_made site path live steady
  obtain ⟨answered, grown, events, log, made⟩ := whole passable
  obtain ⟨again, -⟩ := missing_directories_are_made ended.2 path live' steady
  rw [missing] at answered grown made
  refine ⟨answered, grown, ⟨events, log, made⟩, ?_, by decide +kernel⟩
  rw [(again passable').1, none_missing]
  rfl

theorem nul_makes_no_directory :
    let id : ConnectionId := ⟨0⟩
    let session : Session := ⟨0, "/"⟩
    let path := "a\x00b"
    let names := Path.components path
    let site := Site.connected "/" SortedMap.empty
    let ended := id.makeDirectories path (site.withRules [] [])
    (∀ name ∈ names, name ≠ "." ∧ name ≠ "..") ∧ Disk.Fits session names ∧
      session.Open site.disk names ∧ session.missing site.disk [] names = [[path]] ∧
      ended.1 = .error (.transport (.ofIo path .nulInName)) ∧ ended.2.disk = site.disk := by
  decide +kernel

end TreeStore
