import TreeStore.Proofs.Course
/-!
Walks and listings are lazy, whatever fails: asked for some items they answer the first of all there
are, make no call before the item that needs it, and keep what they found before a failure
(`listing_is_lazy`).
-/
namespace TreeStore

namespace Listing

def sift (start : String) : Except CallError Visit → List (Except StoreError String)
  | .ok visit => (matching start visit).map .ok
  | .error error => [.error (.transport error)]

/-- What a call of a listing yields: the matching keys of the directory that it lists, or its error.
A call that finds out whether there is anything to list yields nothing, unless it fails and not
because nothing is there. -/
def yields (session : Session) (order : Disk.Order) (tree : Tree) (start : String) (event : Event) :
    List (Except StoreError String) :=
  match event.call, event.failure? with
  | .list _, some error => [.error (.transport error)]
  | .list directory, none =>
    match session.shown order tree directory with
    | .ok entries => (matching start (Walk.visit (fun _ => true) directory entries)).map .ok
    | .error _ => []
  | .stat _, some error => if error.isNotFound then [] else [.error (.transport error)]
  | _, _ => []

/-- Which directories a walk goes on to does not matter for the keys. -/
theorem yields_of_walk {session : Session} {order : Disk.Order} {tree : Tree}
    {accepts : String → Bool} {event : Event} {item : Except CallError Visit}
    (yielded : Walk.yields session order tree accepts event = [item]) (start : String) :
    yields session order tree start event = sift start item := by
  obtain ⟨number, call, failure?⟩ := event
  cases call with
  | list directory =>
    cases failure? with
    | some error =>
      obtain rfl := List.singleton_inj.1 yielded
      rfl
    | none =>
      cases shown : session.shown order tree directory with
      | error => simp [Walk.yields, shown] at yielded
      | ok entries =>
        simp only [Walk.yields, shown, List.cons.injEq, and_true] at yielded
        subst yielded
        simp only [yields, shown]
        rfl
  | _ => cases yielded

variable {start : String} {walk walk' : Walk} {site later : Site} {visit : Visit}
variable {error : CallError} {calls : List Event}

theorem scan_of_end (asked : walk.next? site = (.ok none, site)) (bound : Nat) :
    scan start bound walk site = (none, site) := by
  cases bound with
  | zero => rfl
  | succ bound => exact bind_of_run asked

theorem scan_of_failure (asked : walk.next? site = (.error error, later)) (bound : Nat) :
    scan start (bound + 1) walk site = (some (.error (.transport error), .finished), later) :=
  bind_of_run asked

theorem scan_of_visit (asked : walk.next? site = (.ok (some (visit, walk')), later)) (bound : Nat) :
    scan start (bound + 1) walk site =
      match matching start visit with
      | [] => scan start bound walk' later
      | key :: ready => (some (.ok key, .scanning start walk' ready), later) := by
  refine (bind_of_run asked).trans ?_
  dsimp only
  cases matching start visit <;> rfl

theorem scan_eq_of_course {yields : Event → List (Except CallError Visit)}
    (course : Walk.Course yields walk site calls) {bound bound' : Nat} (few : calls.length < bound)
    (few' : calls.length < bound') :
    scan start bound walk site = scan start bound' walk site := by
  induction course generalizing bound bound' with
  | ended asked => rw [scan_of_end asked, scan_of_end asked]
  | failed asked =>
    obtain ⟨bound, rfl⟩ := Nat.exists_eq_add_of_lt few
    obtain ⟨bound', rfl⟩ := Nat.exists_eq_add_of_lt few'
    rw [scan_of_failure asked, scan_of_failure asked]
  | visited asked _ _ ih =>
    obtain ⟨bound, rfl⟩ := Nat.exists_eq_succ_of_ne_zero (Nat.ne_zero_of_lt few)
    obtain ⟨bound', rfl⟩ := Nat.exists_eq_succ_of_ne_zero (Nat.ne_zero_of_lt few')
    rw [scan_of_visit asked, scan_of_visit asked,
      ih (Nat.lt_of_succ_lt_succ few) (Nat.lt_of_succ_lt_succ few')]

theorem take_succ_congr {listing listing' : Listing}
    (same : listing.next? site = listing'.next? later) (n : Nat) :
    take (n + 1) listing site = take (n + 1) listing' later := by
  cases ran : listing'.next? later with
  | mk answer after =>
    refine (bind_of_run (same.trans ran)).trans (Eq.symm ?_)
    exact bind_of_run ran

theorem take_congr {listing listing' : Listing} (same : listing.next? site = listing'.next? site)
    (n : Nat) : take n listing site = take n listing' site := by
  cases n with
  | zero => rfl
  | succ n => exact take_succ_congr same n

theorem take_succ_of_failure {listing : Listing} {error : StoreError} {after : Listing}
    (asked : listing.next? site = (some (.error error, after), later)) (n : Nat) :
    take (n + 1) listing site = failing error (n + 1) later := bind_of_run asked

theorem take_finished (n : Nat) : take n .finished site = (([], none), site) := by
  cases n <;> rfl

theorem take_ready (key : String) (ready : List String) (n : Nat) :
    take n (.scanning start walk (key :: ready)) =
      pushing key (take · (.scanning start walk ready)) n := by
  cases n <;> rfl

theorem draws_ready {yields : Event → List (Except StoreError String)}
    (draws : Draws (take · (.scanning start walk [])) site yields [] calls) (ready : List String) :
    Draws (take · (.scanning start walk ready)) site yields (ready.map .ok) calls := by
  induction ready with
  | nil => exact draws
  | cons key ready ih =>
    exact (ih.pushed key).congr fun n => congrFun (take_ready key ready n) site

theorem draws_of_course {session : Session} {order : Disk.Order} {tree : Tree}
    {accepts : String → Bool}
    (course : Walk.Course (Walk.yields session order tree accepts) walk site calls)
    (few : calls.length ≤ site.disk.directoryCount + 1) :
    Draws (take · (.scanning start walk [])) site (yields session order tree start) [] calls := by
  induction course with
  | @ended walk site asked =>
    have ended : (Listing.scanning start walk []).next? site = Listing.finished.next? site :=
      scan_of_end asked _
    exact Draws.ended.congr fun n => (take_congr ended n).trans (take_finished n)
  | @failed walk site event error asked yielded =>
    have failed : (Listing.scanning start walk []).next? site = _ := scan_of_failure asked _
    have ready : Draws (failing (.transport error)) (site.noting event)
        (yields session order tree start) (yields session order tree start event) [] := by
      rw [yields_of_walk yielded start]
      exact .failed _
    exact ready.called rfl rfl (take_succ_of_failure failed)
  | @visited walk walk' site event visit calls asked yielded more ih =>
    have within : calls.length ≤ site.disk.directoryCount + 1 := Nat.le_of_succ_le few
    have ready : Draws (take · (.scanning start walk' (matching start visit))) (site.noting event)
        (yields session order tree start) (yields session order tree start event) calls := by
      rw [yields_of_walk yielded start]
      exact draws_ready (ih within) _
    refine ready.called rfl rfl (take_succ_congr ?_)
    refine (scan_of_visit asked _).trans ?_
    -- Without a key the scan goes on in what is left of its bound, which is more than enough.
    cases matching start visit with
    | nil => exact scan_eq_of_course more few (Nat.lt_succ_of_le within)
    | cons key ready => rfl

variable {session : Session} {order : Disk.Order} {tree : Tree} {accepts : String → Bool}

theorem failsLast_of_course
    (course : Walk.Course (Walk.yields session order tree accepts) walk site calls) :
    FailsLast (yields session order tree start) calls := by
  induction course with
  | ended => exact .none
  | failed _ yielded => exact .failed (yields_of_walk yielded start)
  | visited _ yielded _ ih => exact .answered _ (yields_of_walk yielded start) ih

theorem flatMap_yields
    (course : Walk.Course (Walk.yields session order tree accepts) walk site calls) :
    calls.flatMap (yields session order tree start) =
      (calls.flatMap (Walk.yields session order tree accepts)).flatMap (sift start) := by
  induction course with
  | ended => rfl
  | failed _ yielded =>
    rw [List.flatMap_singleton, List.flatMap_singleton, yielded, yields_of_walk yielded start,
      List.flatMap_singleton]
  | visited _ yielded _ ih =>
    rw [List.flatMap_cons, List.flatMap_cons, yielded, yields_of_walk yielded start, ih,
      List.singleton_append, List.flatMap_cons]

theorem length_sift_le (start : String) (visits : List Visit) (error? : Option CallError) :
    ((itemsOf (visits, error?)).flatMap (sift start)).length ≤
      (visits.flatMap Visit.files).length + 1 := by
  induction visits with
  | nil => cases error? <;> simp [itemsOf, sift]
  | cons visit visits ih =>
    have keys : (matching start visit).length ≤ visit.files.length :=
      (List.length_filter_le _ _).trans (List.length_filterMap_le _ _)
    rw [itemsOf_cons visit (visits, error?), List.flatMap_cons, List.flatMap_cons,
      List.length_append, List.length_append, sift, List.length_map]
    omega

def scanned (bucket : Bucket) (start : String) (session : Session) : Walk :=
  Walk.start session (base bucket.name start)
    fun directory => Layout.mayHold bucket.name directory (Key.token start)

theorem exists_course_of_scanned (site : Site) (wf : site.disk.WellFormed) (bucket : Bucket)
    (start : String) (session : Session) :
    ∃ calls, Walk.Course (Walk.yields session site.order site.disk fun directory =>
          Layout.mayHold bucket.name directory (Key.token start))
        (scanned bucket start session) site calls ∧
      calls.length ≤ site.disk.directoryCount + 1 ∧
      (calls.flatMap (yields session site.order site.disk start)).length < site.disk.size + 2 := by
  obtain ⟨calls, visits, error?, course, few, items, files⟩ :=
    Walk.exists_course wf session (base bucket.name start)
      fun directory => Layout.mayHold bucket.name directory (Key.token start)
  refine ⟨calls, course, few, ?_⟩
  rw [flatMap_yields course, items]
  have keys := length_sift_le start visits error?
  omega

theorem exists_calls_of_scanned (site : Site) (wf : site.disk.WellFormed) (bucket : Bucket)
    (start : String) (session : Session) :
    ∃ calls, Draws (take · (.scanning start (scanned bucket start session) [])) site
        (yields session site.order site.disk start) [] calls ∧
      FailsLast (yields session site.order site.disk start) calls ∧
      (calls.flatMap (yields session site.order site.disk start)).length < site.disk.size + 2 := by
  obtain ⟨calls, course, few, short⟩ := exists_course_of_scanned site wf bucket start session
  exact ⟨calls, draws_of_course course few, failsLast_of_course course, short⟩

theorem contains_run {id : ConnectionId} (live : slotIn site.connections id = some session)
    (path : String) : ∃ failure?, id.contains path site =
      (match failure? with
        | none => .ok true
        | some error => if error.isNotFound then .ok false else .error (.transport error),
      site.noting ⟨session.number, .stat path, failure?⟩) := by
  unfold ConnectionId.contains
  rw [session_bind, live]
  dsimp only
  rcases inspect_run session (.stat path) (Disk.stat · (session.resolve path)) site with
    ⟨error, asked⟩ | ⟨node, -, asked⟩
  · refine ⟨some error, (lifted_of_run asked).trans ?_⟩
    dsimp only
    split <;> rfl
  · exact ⟨none, lifted_of_run asked⟩

variable {bucket : Bucket}

theorem enter_begins (live : slotIn site.connections bucket.connection = some session)
    (start : String) :
    enter bucket start site = (do
      if base bucket.name start = bucket.name then pure (some (scanned bucket start session))
      else if ← bucket.connection.contains (base bucket.name start) then
        pure (some (scanned bucket start session))
      else pure none : Operation (Option Walk)) site := by
  refine (session_bind bucket.connection _ site).trans ?_
  rw [live]
  rfl

theorem enter_of_itself (live : slotIn site.connections bucket.connection = some session)
    (itself : base bucket.name start = bucket.name) :
    enter bucket start site = (.ok (some (scanned bucket start session)), site) := by
  rw [enter_begins live, if_pos itself]
  rfl

theorem enter_run (live : slotIn site.connections bucket.connection = some session)
    (start : String) :
    enter bucket start site = (.ok (some (scanned bucket start session)), site) ∨
    ∃ failure?, enter bucket start site =
      (match failure? with
        | none => .ok (some (scanned bucket start session))
        | some error => if error.isNotFound then .ok none else .error (.transport error),
      site.noting ⟨session.number, .stat (base bucket.name start), failure?⟩) := by
  by_cases itself : base bucket.name start = bucket.name
  · exact .inl (enter_of_itself live itself)
  · rw [enter_begins live, if_neg itself]
    obtain ⟨failure?, asked⟩ := contains_run live (base bucket.name start)
    refine .inr ⟨failure?, ?_⟩
    rw [Operation.bind_run, asked]
    cases failure? with
    | none => rfl
    | some error =>
      dsimp only
      cases error.isNotFound <;> rfl

/-- While there is a session, a listing that has not begun draws what its calls yield. -/
theorem exists_calls (wf : site.disk.WellFormed)
    (live : slotIn site.connections bucket.connection = some session) (start : String) :
    ∃ calls, Draws (take · (.waiting bucket start)) site
        (yields session site.order site.disk start) [] calls ∧
      FailsLast (yields session site.order site.disk start) calls ∧
      (calls.flatMap (yields session site.order site.disk start)).length < site.disk.size + 2 := by
  rcases enter_run live start with entered | ⟨failure?, entered⟩
  · obtain ⟨calls, draws, last, few⟩ := exists_calls_of_scanned site wf bucket start session
    exact ⟨calls, draws.congr (take_congr (bind_of_run entered)), last, few⟩
  · generalize made : Event.mk session.number (.stat (base bucket.name start)) failure? = event
    rw [made] at entered
    cases failure? with
    | none =>
      obtain ⟨calls, draws, last, few⟩ :=
        exists_calls_of_scanned (site.noting event) wf bucket start session
      have nothing : yields session site.order site.disk start event = [] := by rw [← made]; rfl
      rw [← nothing] at draws
      refine ⟨event :: calls, draws.called rfl rfl (take_succ_congr (bind_of_run entered)),
        .answered [] nothing last, ?_⟩
      rwa [List.flatMap_cons, nothing]
    | some error =>
      cases missing : error.isNotFound with
      | true =>
        have nothing : yields session site.order site.disk start event = [] := by
          rw [← made]
          exact if_pos missing
        have ended : Draws (take · .finished) (site.noting event)
            (yields session site.order site.disk start) [] [] := Draws.ended.congr take_finished
        rw [← nothing] at ended
        simp only [missing, if_true] at entered
        refine ⟨[event], ended.called rfl rfl (take_succ_congr (bind_of_run entered)),
          .answered [] nothing .none, ?_⟩
        simp [nothing]
      | false =>
        have failed : yields session site.order site.disk start event =
            [.error (.transport error)] := by
          rw [← made]
          exact if_neg (by simp [missing])
        simp only [missing, Bool.false_eq_true, if_false] at entered
        have ended : Draws (failing (.transport error)) (site.noting event)
            (yields session site.order site.disk start) [.error (.transport error)] [] := .failed _
        rw [← failed] at ended
        refine ⟨[event], ended.called rfl rfl (take_succ_of_failure (bind_of_run entered)),
          .failed failed, ?_⟩
        simp [failed]

theorem flatMap_sift (start : String) (visits : List Visit) :
    (visits.map Except.ok).flatMap (sift start) = (visits.flatMap (matching start)).map .ok := by
  rw [List.flatMap_map, List.map_flatMap]
  rfl

theorem list_of_walked (wf : site.disk.WellFormed)
    (live : slotIn site.connections bucket.connection = some session)
    (itself : base bucket.name start = bucket.name) {visits : List Visit}
    (walked : ((scanned bucket start session).all site).1 = (visits, none)) :
    (bucket.list start none site).1 = (visits.flatMap (matching start), none) := by
  obtain ⟨calls, course, few, short⟩ := exists_course_of_scanned site wf bucket start session
  have enough : (calls.flatMap (Walk.yields session site.order site.disk fun directory =>
      Layout.mayHold bucket.name directory (Key.token start))).length <
        site.disk.directoryCount + 2 := by
    rw [course.length_yields]
    omega
  have visited : Lazy (scanned bucket start session).take (scanned bucket start session).all site _
      calls := course.draws.lazy enough rfl
  have drawn : Draws (take · (.waiting bucket start)) site
      (yields session site.order site.disk start) [] calls :=
    (draws_of_course course few).congr (take_congr (bind_of_run (enter_of_itself live itself)))
  have listed : Lazy (fun n => bucket.list start (some n)) (bucket.list start none) site
      (yields session site.order site.disk start) calls := drawn.lazy short rfl
  apply itemsOf_injective
  rw [listed.whole, flatMap_yields course, ← visited.whole, walked, itemsOf_none, itemsOf_none,
    flatMap_sift]

end Listing

/-- In every tree, whatever fails: a walk that is asked for `n` visits yields the first `n` of all
its visits, and makes the shortest beginning of all its calls that yields so many. If a directory
cannot be listed, the visits before it are kept, and nothing comes after the error. The same holds
of the keys of a listing, with any limit; without a session it makes no call at all. -/
theorem listing_is_lazy {site : Site} (wf : site.disk.WellFormed) :
    (∀ (session : Session) (base : String) (accepts : String → Bool),
      let walk := Walk.start session base accepts
      let yields := Walk.yields session site.order site.disk accepts
      ∃ calls, Lazy walk.take walk.all site yields calls ∧
        ∀ front number directory error back,
          calls = front ++ ⟨number, .list directory, some error⟩ :: back →
          back = [] ∧ ∃ visits, front.flatMap yields = visits.map .ok ∧
            (walk.all site).1 = (visits, some error)) ∧
    (∀ (bucket : Bucket) (start : String) (session : Session),
      slotIn site.connections bucket.connection = some session →
      let yields := Listing.yields session site.order site.disk start
      ∃ calls, Lazy (fun n => bucket.list start (some n)) (bucket.list start none) site yields calls ∧
        ∀ front number directory error back,
          calls = front ++ ⟨number, .list directory, some error⟩ :: back →
          back = [] ∧ ∃ keys, front.flatMap yields = keys.map .ok ∧
            (bucket.list start none site).1 = (keys, some (.transport error))) ∧
    ∀ (bucket : Bucket) (start : String), slotIn site.connections bucket.connection = none →
      ∀ limit?, bucket.list start limit? site =
        (([], if limit? = some 0 then none else some .disconnected), site) := by
  refine ⟨fun session base accepts => ?_, fun bucket start session live => ?_,
    fun bucket start empty limit? => ?_⟩
  · obtain ⟨calls, visits, error?, course, few, -⟩ := Walk.exists_course wf session base accepts
    have enough : (calls.flatMap (Walk.yields session site.order site.disk accepts)).length <
        site.disk.directoryCount + 2 := by
      rw [course.length_yields]
      omega
    have lists : Lazy (Walk.start session base accepts).take (Walk.start session base accepts).all
        site (Walk.yields session site.order site.disk accepts) calls :=
      course.draws.lazy enough rfl
    exact ⟨calls, lists, fun _ _ _ _ _ made => lists.kept course.failsLast made rfl⟩
  · obtain ⟨calls, draws, last, few⟩ := Listing.exists_calls wf live start
    have lists : Lazy (fun n => bucket.list start (some n)) (bucket.list start none) site
        (Listing.yields session site.order site.disk start) calls := draws.lazy few rfl
    exact ⟨calls, lists, fun _ _ _ _ _ made => lists.kept last made rfl⟩
  · have refused : Listing.enter bucket start site = (.error .disconnected, site) := by
      refine (session_bind bucket.connection _ site).trans ?_
      rw [empty]
    have taken : ∀ n, Listing.take (n + 1) (.waiting bucket start) site =
        (([], some .disconnected), site) :=
      Listing.take_succ_of_failure (bind_of_run refused)
    rcases limit? with _ | _ | n
    · exact taken _
    · rfl
    · rw [if_neg (by simp)]
      exact taken n

theorem failing_folder_ends_listing :
    let site := { Site.connected "/" (SortedMap.ofList [(["b"], .directory),
        (["b", "a.dat"], .file []), (["b", "x"], .directory), (["b", "x", "c.dat"], .file [])]) with
      callRules := [{ occasion := .list, path? := some "b/x", effect := ⟨.other, "lost"⟩ }] }
    let error : CallError := ⟨.other, "b/x", "lost"⟩
    let bucket : Bucket := ⟨⟨0⟩, "b"⟩
    site.disk.WellFormed ∧ (bucket.list "" none site).1 = (["a"], some (.transport error)) ∧
      (bucket.list "" (some 1) site).1 = (["a"], none) ∧
      ∃ calls, Lazy (fun n => bucket.list "" (some n)) (bucket.list "" none) site
        (Listing.yields ⟨0, "/"⟩ site.order site.disk "") calls := by
  intro site error bucket
  have wf : site.disk.WellFormed := by decide +kernel
  have whole : (bucket.list "" none site).1 = (["a"], some (.transport error)) := by
    decide +kernel
  obtain ⟨calls, lists, -⟩ := (listing_is_lazy wf).2.1 bucket "" ⟨0, "/"⟩ rfl
  refine ⟨wf, whole, itemsOf_injective ?_, calls, lists⟩
  rw [lists.items, whole]
  rfl

end TreeStore
