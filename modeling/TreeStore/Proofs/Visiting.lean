import TreeStore.Proofs.Logged
import TreeStore.Proofs.Subtree
/-!
What a walk yields where nothing fails. Every directory that is accepted all the way down is visited
once, with one call, in the order of `Precedes`; then the walk is at its end
(`walk_visits_what_it_accepts`).
-/
namespace TreeStore

open Disk

section Visits

variable {session : Session} {tree : Tree} {base : String} {place : Location}
variable {order : Disk.Order} {scene : Scene}

def Disk.Order.visit (order : Disk.Order) (tree : Tree) (base : String) (place : Location)
    (accepts : String → Bool) (rest : List String) : Visit where
  directory := Path.ofNames (base :: rest)
  subdirectories := (((order.entries tree (place ++ rest)).filter (·.isDirectory)).map
    fun entry => Path.ofNames (base :: (rest ++ [entry.name]))).filter accepts
  files := (order.entries tree (place ++ rest)).filter (!·.isDirectory)

def Session.listed (session : Session) (base : String) (rest : List String) : Event :=
  ⟨session.number, .list (Path.ofNames (base :: rest)), none⟩

theorem visit_eq (accepts : String → Bool) (rest : List String) :
    Walk.visit accepts (Path.ofNames (base :: rest)) (order.entries tree (place ++ rest)) =
      order.visit tree base place accepts rest := by
  have step : ∀ entry : Disk.Entry, Path.child (Path.ofNames (base :: rest)) entry.name =
      Path.ofNames (base :: (rest ++ [entry.name])) := fun entry =>
    (Path.ofNames_concat (base :: rest) entry.name).symm
  simp only [Walk.visit, Disk.Order.visit, step]

theorem subdirectories_visit (accepts : String → Bool) (top : List String) :
    (order.visit tree base place accepts top).subdirectories.reverse =
      (order.chosen tree place (fun rest => accepts (Path.ofNames (base :: rest))) top).map
        fun rest => Path.ofNames (base :: rest) := by
  unfold Disk.Order.visit Disk.Order.chosen Disk.Order.inner
  dsimp only
  rw [List.filter_reverse, List.map_reverse, List.filter_map, List.filter_map, List.map_map]
  rfl

theorem pending_directories {accepts : List String → Bool} {top : List String}
    {pending : List (List String)}
    (directories : ∀ rest ∈ top :: pending, tree.node? (place ++ rest) = some .directory) :
    ∀ rest ∈ order.chosen tree place accepts top ++ pending,
      tree.node? (place ++ rest) = some .directory := by
  intro rest mem
  rcases List.mem_append.1 mem with mem | mem
  · exact (mem_chosen_iff.1 mem).2.1
  · exact directories rest (List.mem_cons_of_mem _ mem)

variable (quiet : scene.Quiet) (listsBy : scene.ListsBy order)

include quiet listsBy

theorem next?_plays (spans : session.Spans tree base place) (accepts : String → Bool)
    {top : List String} (directory : tree.node? (place ++ top) = some .directory)
    (pending : List (List String)) :
    Plays scene tree
      (Walk.next? ⟨session, accepts, (top :: pending).map fun rest => Path.ofNames (base :: rest)⟩)
      (.ok (some (order.visit tree base place accepts top, ⟨session, accepts,
        (order.chosen tree place (fun rest => accepts (Path.ofNames (base :: rest))) top ++
          pending).map fun rest => Path.ofNames (base :: rest)⟩)))
      tree (· = [session.listed base top]) := by
  have listed : Plays scene tree (session.list (Path.ofNames (base :: top)))
      (.ok (order.entries tree (place ++ top))) tree (· = [session.listed base top]) :=
    .single (list_of_find quiet listsBy (spans.find_of_directory directory)) (list_single session _)
      rfl
  refine listed.bind fun events made => ?_
  subst made
  dsimp only
  rw [visit_eq, subdirectories_visit, ← List.map_append]
  exact Logs.pure ⟨⟨rfl, rfl⟩, rfl⟩

theorem take_plays (spans : session.Spans tree base place) (accepts : String → Bool)
    {pending visited : List (List String)}
    (walks : Walks (order.chosen tree place fun rest => accepts (Path.ofNames (base :: rest)))
      pending visited)
    (directories : ∀ rest ∈ pending, tree.node? (place ++ rest) = some .directory) (n : Nat) :
    Plays scene tree
      (Walk.take ⟨session, accepts, pending.map fun rest => Path.ofNames (base :: rest)⟩ n)
      ((visited.take n).map (order.visit tree base place accepts), none) tree
      (· = (visited.take n).map (session.listed base)) := by
  induction walks generalizing n with
  | done =>
    cases n with
    | zero => exact Plays.pure rfl
    | succ n =>
      have ended : Plays scene tree (Walk.next? ⟨session, accepts, []⟩) (.ok none) tree (· = []) :=
        .pure rfl
      exact ended.bind fun events made => .pure (by simp [made])
  | @visit top pending visited more ih =>
    cases n with
    | zero => exact Plays.pure rfl
    | succ n =>
      refine (next?_plays quiet listsBy spans accepts (directories top (by simp)) pending).bind
        fun events first => (ih (pending_directories directories) n).bind fun events' rest =>
          .pure ⟨⟨rfl, rfl⟩, ?_⟩
      rw [first, rest, List.append_nil]
      rfl

end Visits

/-- Where nothing fails, a walk from any path that leads to a directory yields that directory and
those below it that are accepted all the way down, each of them once: a directory before those in
it, and of two that part, the one listed later. It makes one call for each visit and none to find
its end. A walk accepts everything unless it is told otherwise. -/
theorem walk_visits_what_it_accepts {site : Site} {session : Session} {base : String}
    {place : Location} (spans : session.Spans site.disk base place) (accepts : String → Bool) :
    ∃ visited : List (List String),
      (∀ rest, rest ∈ visited ↔ site.disk.node? (place ++ rest) = some .directory ∧
        ∀ front, front <+: rest → front ≠ [] →
          accepts (Path.ofNames (base :: front)) = true) ∧
      visited.Nodup ∧ visited.Pairwise (Precedes (site.order.names site.disk place)) ∧
      (∀ n, ((Walk.start session base accepts).take n (site.withRules [] [])).1 =
          ((visited.take n).map (site.order.visit site.disk base place accepts), none) ∧
        ((Walk.start session base accepts).take n (site.withRules [] [])).2.disk = site.disk ∧
        ((Walk.start session base accepts).take n (site.withRules [] [])).2.log =
          site.log ++ (visited.take n).map (session.listed base)) ∧
      Walk.start session base = Walk.start session base fun _ => true := by
  obtain ⟨visited, walks⟩ := exists_visited site.order site.disk place
    (fun rest => accepts (Path.ofNames (base :: rest))) [[]]
  have lists := lists_chosen site.order site.disk place
    fun rest => accepts (Path.ofNames (base :: rest))
  have directory : site.disk.node? (place ++ []) = some .directory := by
    rw [List.append_nil]
    exact spans.directory
  refine ⟨visited, fun rest => ?_, lists.nodup_of_walks walks,
    lists.precedes_of_walks walks (List.pairwise_singleton _ _), fun n => ?_, rfl⟩
  · rw [mem_visited_iff spans.wellFormed directory walks]
    simp [Accepted]
  · have plays := take_plays (Scene.still_quiet site.order) (Scene.still_listsBy site.order) spans
      accepts walks (fun rest mem => List.mem_singleton.1 mem ▸ directory) n
    obtain ⟨-, events, log, ⟨answer, disk⟩, made⟩ :=
      plays.run (site.withRules [] []) ⟨rfl, rfl, rfl⟩ rfl
    subst made
    exact ⟨answer, disk, log⟩

theorem rejected_directory_is_passed_over :
    let site := Site.connected "/" (SortedMap.ofList [(["b"], .directory), (["b", "f"], .file [1]),
      (["b", "x"], .directory), (["b", "x", "u"], .directory), (["b", "y"], .directory)])
    let session : Session := ⟨0, "/"⟩
    let accepts := fun path => path != "b/x"
    session.Spans site.disk "b/" ["b"] ∧ ∃ visited : List (List String),
      [] ∈ visited ∧ ["y"] ∈ visited ∧ ["x"] ∉ visited ∧ ["x", "u"] ∉ visited ∧
      ∀ n, ((Walk.start session "b/" accepts).take n (site.withRules [] [])).1 =
        ((visited.take n).map (site.order.visit site.disk "b/" ["b"] accepts), none) := by
  intro site session accepts
  have spans : session.Spans site.disk "b/" ["b"] := by decide +kernel
  obtain ⟨visited, mem_iff, -, -, takes, -⟩ := walk_visits_what_it_accepts spans accepts
  have rejected : accepts (Path.ofNames ["b/", "x"]) = false := by decide +kernel
  refine ⟨spans, visited, (mem_iff []).2 ⟨?_, ?_⟩, (mem_iff ["y"]).2 ⟨?_, ?_⟩, fun mem => ?_,
    fun mem => ?_, fun n => (takes n).1⟩
  · decide +kernel
  · simp
  · decide +kernel
  · intro front below some
    obtain rfl : front = ["y"] := by simpa [List.prefix_cons_iff, some] using below
    decide +kernel
  · rw [((mem_iff _).1 mem).2 ["x"] List.prefix_rfl (by simp)] at rejected
    cases rejected
  · rw [((mem_iff _).1 mem).2 ["x"] ⟨["u"], rfl⟩ (by simp)] at rejected
    cases rejected

end TreeStore
