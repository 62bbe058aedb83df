import TreeStore.Proofs.Clearing
import TreeStore.Proofs.Vanished
/-!
What an opened bucket is good for. In the root of a session a name is opened where something stands,
and made where nothing does. If it is a directory, and the disk takes the paths of all that is in it,
the bucket can be listed, cleared and deleted, whatever its shape (`opened_bucket_is_usable`).
-/
namespace TreeStore

open TreeStore.Path (Plain)
open Disk

section Names

variable {session : Session} {tree : Tree} {name : String}

theorem Session.seated_of_find (plain : Plain name) (fits : Fits session [name]) {place : Location}
    {node : Node} (found : find tree (session.resolve name) = .ok (place, node)) :
    session.Seated tree ∧ tree.node? (session.place [name]) = some node := by
  rcases session.seated_or_lost tree with seated | ⟨error, lost⟩
  · refine ⟨seated, ?_⟩
    rw [seated.find_name plain fits] at found
    cases stands : tree.node? (session.place [name]) with
    | none =>
      rw [stands] at found
      cases found
    | some node' =>
      rw [stands] at found
      cases found
      rfl
  · have here : target tree (session.resolve name) = .error error :=
      lost [] name (by simp) plain fits
    simp [find, here, bind, Except.bind] at found

def Session.Within (session : Session) (tree : Tree) (name : String) : Prop :=
  ∀ rest, (tree.find? (session.place (name :: rest))).isSome → Fits session (name :: rest)

theorem Session.within_iff : session.Within tree name ↔ ∀ entry ∈ tree.entries,
    ∀ rest ∈ Tree.below? (session.place [name]) entry.1, Fits session (name :: rest) := by
  constructor
  · rintro within ⟨location, node⟩ mem rest below
    obtain rfl : location = session.place [name] ++ rest := Tree.below?_eq_some_iff.1 below
    apply within
    rw [Session.place_cons, (SortedMap.find?_eq_some_iff tree).2 mem]
    rfl
  · intro each rest present
    rw [Session.place_cons] at present
    obtain ⟨node, stands⟩ := Option.isSome_iff_exists.1 present
    exact each _ ((SortedMap.find?_eq_some_iff tree).1 stands) rest
      (Tree.below?_eq_some_iff.2 rfl)

instance (session : Session) (tree : Tree) (name : String) : Decidable (session.Within tree name) :=
  decidable_of_iff _ Session.within_iff.symm

theorem Session.Within.spans (within : session.Within tree name) (wf : tree.WellFormed)
    (seated : session.Seated tree) (plain : Plain name)
    (directory : tree.node? (session.place [name]) = some .directory) :
    session.Spans tree name (session.place [name]) where
  wellFormed := wf
  found := by
    have stands : (tree.find? (session.place [name])).isSome := by
      rw [Session.place, ← Tree.node?_concat]
      exact Option.isSome_iff_exists.2 ⟨_, directory⟩
    rw [seated.find_name plain (within [] stands), directory]
    rfl
  short rest last present := by
    rw [List.append_assoc, ← Session.place_cons] at present
    exact (within _ present).name last (by simp)
  reaches rest present := by
    rw [← Session.place_cons] at present
    exact (within _ present).path

end Names

section Making

variable {scene : Scene} {tree : Tree} {id : ConnectionId} {session : Session} {name : String}
variable {place : Location} {node : Node} {error : IoError}
variable (quiet : scene.Quiet) (shows : scene.Shows id (some session))

include quiet shows

theorem openBucket_of_find (found : find tree (session.resolve name) = .ok (place, node)) :
    Runs scene tree (id.openBucket name) (.ok ⟨id, name⟩) tree :=
  (contains_of_find shows quiet found).andThen Runs.ok

theorem openBucket_of_error (lost : find tree (session.resolve name) = .error error) :
    Runs scene tree (id.openBucket name) (if error.kind = .notFound then
      .error (.bucketNotFound name) else .error (.transport (.ofIo name error))) tree :=
  contains_bind_of_error shows quiet lost Runs.throw

theorem createBucket_of_find (found : find tree (session.resolve name) = .ok (place, node)) :
    Runs scene tree (id.createBucket name) (.error (.alreadyExists name)) tree :=
  (contains_of_find shows quiet found).andThen (Runs.fails .throw)

theorem createBucket_of_absent (way : session.Way tree [] name)
    (missing : find tree (session.resolve name) = .error (.ofSystem .noEntry))
    (absent : tree.node? (session.place [name]) = none) :
    Runs scene tree (id.createBucket name) (.ok ⟨id, name⟩)
      (tree.insert (session.place [name]) .directory) := by
  have made := way.makeDirectory_of_absent (way.seated.top way.wellFormed) absent
  refine (contains_of_missing shows quiet missing).andThen (.live shows ?_)
  exact (change_of_ok quiet session made).lifted Runs.ok

theorem opens_or_makes (wf : tree.WellFormed) (seated : session.Seated tree) (plain : Plain name)
    (fits : Fits session [name]) :
    (Runs scene tree (id.openBucket name) (.ok ⟨id, name⟩) tree ∧
      Runs scene tree (id.createBucket name) (.error (.alreadyExists name)) tree) ∨
    (Runs scene tree (id.openBucket name) (.error (.bucketNotFound name)) tree ∧
      Runs scene tree (id.createBucket name) (.ok ⟨id, name⟩)
        (tree.insert (session.place [name]) .directory)) := by
  have looked := seated.find_name plain fits
  cases stands : tree.node? (session.place [name]) with
  | some node =>
    rw [stands] at looked
    exact .inl ⟨openBucket_of_find quiet shows looked, createBucket_of_find quiet shows looked⟩
  | none =>
    rw [stands] at looked
    exact .inr ⟨openBucket_of_error quiet shows looked,
      createBucket_of_absent quiet shows (seated.way wf plain fits) looked stands⟩

end Making

/-- A bucket can be listed and cleared, and it can be deleted so that nothing of it is left. -/
structure Bucket.Usable (bucket : Bucket) (place : Location) (site : Site) : Prop where
  lists : ∃ keys, (bucket.list "" none site).1 = (keys, none)
  clears : (bucket.clear site).1 = .ok ()
  deletes : (bucket.connection.deleteBucket bucket.name true site).1 = .ok ()
  gone : ∀ rest, (bucket.connection.deleteBucket bucket.name true site).2.disk.node?
    (place ++ rest) = none

section Using

variable {session : Session} {id : ConnectionId} {connection : Connection} {order : Disk.Order}
variable {name : String} {place : Location} {tree : Tree} {site : Site}

theorem Session.Clearable.emptied (clear : session.Clearable tree name place) :
    session.Clearable (tree.emptied place) name place := by
  have nothing : ∀ rest, rest ≠ [] → (tree.emptied place).find? (place ++ rest) = none :=
    fun rest some => Tree.find?_emptied_below _ _ some
  have itself : (tree.emptied place).find? place = tree.find? place :=
    Tree.find?_emptied fun rest some same => some (by simpa using same)
  refine ⟨⟨clear.spans.wellFormed.emptied place, clear.apart, fun rest last present => ?_,
    fun rest present => ?_⟩, ?_⟩
  · rw [List.append_assoc, nothing _ (by simp)] at present
    cases present
  · rcases eq_or_ne rest [] with rfl | some
    · rw [List.append_nil, itself] at present
      exact clear.spans.reaches [] (by rwa [List.append_nil])
    · rw [nothing rest some] at present
      cases present
  · rw [Tree.emptied_of_vacant nothing]
    exact clear.apart

/-- The way to a bucket in the root of a session is lost only with the root. -/
theorem Session.Spans.clearable_of_seated (spans : session.Spans tree name (session.place [name]))
    (plain : Plain name) (fits : Fits session [name])
    (seated : session.Seated (tree.emptied (session.place [name]))) :
    session.Clearable tree name (session.place [name]) := by
  refine ⟨spans, ?_⟩
  rw [seated.find_name plain fits, Tree.node?_emptied_self, spans.directory]
  rfl

theorem list_of_spans (calm : (Scene.calm id connection order).holds site)
    (slot : connection.slot = some session) (spans : session.Spans site.disk name place) :
    ∃ keys, (Bucket.list ⟨id, name⟩ "" none site).1 = (keys, none) := by
  have live : slotIn site.connections id = some session :=
    Scene.calm_shows_live slot order site calm
  obtain ⟨visited, walks⟩ := exists_visited order site.disk place (fun rest =>
    Layout.mayHold name (Path.ofNames (name :: rest)) (Key.token "")) [[]]
  have root : site.disk.node? (place ++ []) = some .directory := by
    rw [List.append_nil]
    exact spans.directory
  obtain ⟨-, -, -, ⟨walked, -⟩, -⟩ := (take_plays (Scene.calm_quiet id connection order)
    (Scene.calm_listsBy id connection order) spans
    (fun directory => Layout.mayHold name directory (Key.token "")) walks
    (fun rest mem => List.mem_singleton.1 mem ▸ root) (site.disk.directoryCount + 2)).run site calm rfl
  exact ⟨_, @Listing.list_of_walked "" site session ⟨id, name⟩ spans.wellFormed live rfl _ walked⟩

theorem usable_of_clearable (calm : (Scene.calm id connection order).holds site)
    (slot : connection.slot = some session) (plain : Plain name)
    (clear : session.Clearable site.disk name place) (named : place ≠ []) :
    Bucket.Usable ⟨id, name⟩ place site := by
  have quiet := Scene.calm_quiet id connection order
  have listsBy := Scene.calm_listsBy id connection order
  have shows : (Scene.calm id connection order).Shows id (some session) :=
    Scene.calm_shows_live slot order
  have parts : Path.components (session.resolve name) =
      Path.components session.root ++ [name] := by
    rw [Session.components_resolve, Path.components_of_plain plain]
  obtain ⟨-, -, -, ⟨cleared, -⟩, -⟩ := (purge_plays quiet listsBy shows clear).run site calm rfl
  obtain ⟨-, -, -, ⟨deleted, left⟩, -⟩ := (deleteBucket_plays quiet listsBy shows clear parts
    plain.not_here plain.not_above).run site calm rfl
  exact ⟨list_of_spans calm slot clear.spans, cleared, deleted,
    fun rest => by rw [left, Tree.node?_without_below _ named]⟩

end Using

theorem Disk.list_of_long {tree : Tree} {path : String} (no_nul : hasNul path = false)
    (long : pathLimit ≤ path.utf8ByteSize) :
    Disk.list tree path = .error (.ofSystem .nameTooLong) := by
  simp [Disk.list, find, target, Route.ofPath, no_nul, long, bind, Except.bind]

theorem opened_of_lost_directory {scene : Scene} {order : Disk.Order} {site : Site}
    {id : ConnectionId} {session : Session} {name inner : String} {place : Location}
    {fault : IoError} (quiet : scene.Quiet) (listsBy : scene.ListsBy order)
    (shows : scene.Shows id (some session)) (held : scene.holds site)
    (found : find site.disk (session.resolve name) = .ok (place, .directory))
    (only : Walk.visit (fun directory => Layout.mayHold name directory (Key.token "")) name
      (order.entries site.disk place) = ⟨name, [inner], []⟩)
    (lost : Disk.list site.disk (session.resolve inner) = .error fault) :
    (id.openBucket name site).1 = .ok ⟨id, name⟩ ∧
      (Bucket.list ⟨id, name⟩ "" none (id.openBucket name site).2).1 =
        ([], some (.transport (.ofIo inner fault))) := by
  let accepts := fun directory => Layout.mayHold name directory (Key.token "")
  have first : Runs scene site.disk (Listing.scanned ⟨id, name⟩ "" session).next?
      (.ok (some (⟨name, [inner], []⟩, ⟨session, accepts, [inner]⟩))) site.disk := by
    refine (list_of_find quiet listsBy found).bind (.pure ⟨?_, rfl⟩)
    exact congrArg (fun visit : Visit => Except.ok (some (visit,
      (⟨session, accepts, visit.subdirectories.reverse ++ []⟩ : Walk)))) only
  have second : Runs scene site.disk (Walk.next? ⟨session, accepts, [inner]⟩)
      (.error (.ofIo inner fault)) site.disk := (list_of_error quiet lost).bind Runs.pure
  have stopped : Runs scene site.disk (Listing.next? (.waiting ⟨id, name⟩ ""))
      (Listing.stopped (some (.transport (.ofIo inner fault)))) site.disk := by
    refine (enter_of_same shows rfl).bind ?_
    refine (visitBound_ends scene site.disk).bind fun bound later ⟨eq, same⟩ => ?_
    rw [same, eq]
    exact first.bind (second.bind Runs.pure)
  obtain ⟨held', opens, still⟩ := (openBucket_of_find quiet shows found).run site held rfl
  exact ⟨opens, ((list_of_stopped stopped none).run _ held' still).2.1⟩

def slashes (n : Nat) : String := String.ofList (List.replicate n '/')

section Slashes

variable (n : Nat) (tree : Tree) (path : String)

theorem size_slashes : (slashes n).utf8ByteSize = n := by
  rw [slashes, Path.utf8ByteSize_replicate]
  exact Nat.mul_one n

theorem components_slashes : Path.components (slashes n) = [] := by
  have nothing := @Path.fields_filter_append_slashes [] (List.replicate n '/')
    (by simp [List.mem_replicate])
  rw [Path.components, slashes, String.toList_ofList, ← List.nil_append (List.replicate n '/'),
    nothing]
  rfl

theorem seat_slashes : Session.seat ⟨0, slashes n⟩ = [] := by
  rw [Session.seat, locate, components_slashes]
  rfl

theorem seated_slashes : Session.Seated ⟨0, slashes n⟩ tree := by
  refine ⟨by simp [hasNul, slashes, List.mem_replicate], ?_⟩
  rw [components_slashes, seat_slashes]
  rfl

theorem resolve_slashes (named : n ≠ 0) :
    Session.resolve ⟨0, slashes n⟩ path = slashes n ++ Path.trimStart path := by
  obtain ⟨m, rfl⟩ := Nat.exists_eq_succ_of_ne_zero named
  have ends : (slashes (m + 1)).toList.getLast? = some '/' := by
    rw [slashes, List.replicate_succ', String.toList_ofList, List.getLast?_concat]
  simp [Session.resolve, rooted, ends]

end Slashes

theorem far_bucket_is_not_listed {n : Nat} (near : n + 1 < pathLimit) (far : pathLimit ≤ n + 3) :
    let disk : Tree := SortedMap.ofList [(["b"], .directory), (["b", "x"], .directory)]
    let opened := ConnectionId.openBucket ⟨0⟩ "b" (Site.connected (slashes n) disk)
    disk.WellFormed ∧ Fits ⟨0, slashes n⟩ ["b"] ∧ opened.1 = .ok ⟨⟨0⟩, "b"⟩ ∧
      (Bucket.list ⟨⟨0⟩, "b"⟩ "" none opened.2).1 =
        ([], some (.transport (.ofIo "b/x" (.ofSystem .nameTooLong)))) := by
  intro disk opened
  let session : Session := ⟨0, slashes n⟩
  have wf : disk.WellFormed := by decide +kernel
  have size (path : String) : (session.resolve path).utf8ByteSize =
      n + (Path.trimStart path).utf8ByteSize := by
    have some : n ≠ 0 := by
      rintro rfl
      exact absurd far (by decide)
    rw [resolve_slashes n path some, String.utf8ByteSize_append, size_slashes]
  have fits : Fits session ["b"] := by
    have one : (Path.trimStart (Path.ofNames ["b"])).utf8ByteSize = 1 := by decide +kernel
    refine ⟨by decide, ?_⟩
    rwa [Reaches, size, one]
  have stands : disk.node? (session.place ["b"]) = some .directory := by
    rw [Session.place, seat_slashes]
    decide +kernel
  have found : find disk (session.resolve "b") = .ok (session.place ["b"], .directory) := by
    rw [(seated_slashes n disk).find_name (by decide) fits, stands]
    rfl
  have lost : Disk.list disk (session.resolve "b/x") = .error (.ofSystem .nameTooLong) := by
    have path : Path.ofNames (["b"] ++ ["x"]) = "b/x" := by decide +kernel
    apply Disk.list_of_long
    · rw [← path, Session.hasNul_resolve (by decide) (by decide)]
      exact (seated_slashes n disk).no_nul
    · have three : (Path.trimStart "b/x").utf8ByteSize = 3 := by decide +kernel
      rwa [size, three]
  have only : Walk.visit (fun directory => Layout.mayHold "b" directory (Key.token "")) "b"
      (Disk.Order.byName.entries disk (session.place ["b"])) = ⟨"b", ["b/x"], []⟩ := by
    rw [Session.place, seat_slashes]
    decide +kernel
  have shows : (Scene.calm ⟨0⟩ ⟨{}, some session⟩ .byName).Shows ⟨0⟩ (some session) :=
    Scene.calm_shows_live rfl _
  exact ⟨wf, fits, @opened_of_lost_directory _ _ (Site.connected (slashes n) disk) _ _ _ _ _ _
    (Scene.calm_quiet _ _ _) (Scene.calm_listsBy _ _ _) shows ⟨rfl, rfl, rfl, rfl⟩ found only lost⟩

/-- If the root of the session is there, a name is opened or reported missing, and it can be made into
a bucket just when it is reported missing. An opened bucket, unless it is a file, is listed to its end
if the disk takes the paths of all that is in it. If also the way to the root does not lead through
the bucket, it can be cleared and deleted, at once, after the listing and after a clear. -/
theorem opened_bucket_is_usable {site : Site} {id : ConnectionId} {session : Session}
    {name : String} (live : slotIn site.connections id = some session)
    (wf : site.disk.WellFormed) (plain : Plain name) (fits : Fits session [name]) :
    let calm := site.withRules [] []
    let place := session.place [name]
    let opened := id.openBucket name calm
    let created := id.createBucket name calm
    (session.Seated site.disk →
      (opened.1 = .ok ⟨id, name⟩ ∨ opened.1 = .error (.bucketNotFound name)) ∧
      ((∃ bucket, created.1 = .ok bucket) ↔ opened.1 = .error (.bucketNotFound name))) ∧
    ∀ bucket, opened.1 = .ok bucket →
      (∀ content, site.disk.node? place ≠ some (.file content)) →
      session.Within site.disk name →
      let listed := bucket.list "" none opened.2
      (∃ keys, listed.1 = (keys, none)) ∧
      (session.Seated (site.disk.emptied place) →
        bucket.Usable place opened.2 ∧ bucket.Usable place listed.2 ∧
          bucket.Usable place (bucket.clear listed.2).2) := by
  intro calm place opened created
  obtain ⟨connection, slot, holds⟩ := Site.exists_calm live
  have quiet := Scene.calm_quiet id connection site.order
  have shows : (Scene.calm id connection site.order).Shows id (some session) :=
    Scene.calm_shows_live slot site.order
  constructor
  · intro seated
    rcases opens_or_makes quiet shows wf seated plain fits with ⟨opens, stays⟩ | ⟨missed, makes⟩
    · have found : opened.1 = .ok ⟨id, name⟩ := (opens.run calm holds rfl).2.1
      have refused : created.1 = .error (.alreadyExists name) := (stays.run calm holds rfl).2.1
      exact ⟨.inl found, by simp [found, refused]⟩
    · have lost : opened.1 = .error (.bucketNotFound name) := (missed.run calm holds rfl).2.1
      have made : created.1 = .ok ⟨id, name⟩ := (makes.run calm holds rfl).2.1
      exact ⟨.inr lost, by simp [lost, made]⟩
  · intro bucket opens no_file within listed
    -- A handle is given only for what was found, and then the root is there without being asked for.
    cases found : find site.disk (session.resolve name) with
    | error error =>
      have lost := ((openBucket_of_error quiet shows found).run calm holds rfl).2.1
      rw [lost] at opens
      split at opens <;> cases opens
    | ok reached =>
      obtain ⟨location, node⟩ := reached
      obtain ⟨seated, stands⟩ := Session.seated_of_find plain fits found
      have directory : site.disk.node? place = some .directory := by
        cases node with
        | directory => exact stands
        | file content => exact absurd stands (no_file content)
      have spans := within.spans wf seated plain directory
      obtain ⟨held, answer, still⟩ := (openBucket_of_find quiet shows found).run calm holds rfl
      rw [answer] at opens
      cases opens
      obtain ⟨held', still'⟩ := (list_still "" none).run opened.2 held rfl
      have before : opened.2.disk = site.disk := still
      have after : listed.2.disk = site.disk := still'.trans before
      refine ⟨list_of_spans held slot (by rwa [before]), fun apart => ?_⟩
      -- Opening and listing leave the tree as it was, and a clear leaves it emptied; a bucket can be
      -- cleared in either.
      have clear := spans.clearable_of_seated plain fits apart
      have named : place ≠ [] := by simp [place, Session.place]
      obtain ⟨held'', -, -, ⟨-, emptied⟩, -⟩ := (purge_plays quiet
        (Scene.calm_listsBy id connection site.order) shows clear).run listed.2 held' after
      refine ⟨usable_of_clearable held slot plain (by rwa [before]) named,
        usable_of_clearable held' slot plain (by rwa [after]) named,
        usable_of_clearable held'' slot plain ?_ named⟩
      have left : (Bucket.clear ⟨id, name⟩ listed.2).2.disk = site.disk.emptied place := emptied
      rw [left]
      exact clear.emptied

theorem nested_bucket_is_usable :
    let site := Site.connected "/" (SortedMap.ofList [(["b"], .directory), (["b", "f"], .file [1]),
      (["b", "x"], .directory), (["b", "x", "f"], .file [2]), (["b", "x", "u"], .directory)])
    let opened := ConnectionId.openBucket ⟨0⟩ "b" (site.withRules [] [])
    opened.1 = .ok ⟨⟨0⟩, "b"⟩ ∧ Bucket.Usable ⟨⟨0⟩, "b"⟩ ["b"] opened.2 ∧
      (∃ bucket, (ConnectionId.createBucket ⟨0⟩ "c" (site.withRules [] [])).1 = .ok bucket) := by
  intro site opened
  have live : slotIn site.connections ⟨0⟩ = some ⟨0, "/"⟩ := rfl
  have wf : site.disk.WellFormed := by decide +kernel
  have seated : Session.Seated ⟨0, "/"⟩ site.disk := by decide +kernel
  have opens : opened.1 = .ok ⟨⟨0⟩, "b"⟩ := by decide +kernel
  have directory : site.disk.node? (Session.place ⟨0, "/"⟩ ["b"]) = some .directory := by
    decide +kernel
  have within : Session.Within ⟨0, "/"⟩ site.disk "b" := by decide +kernel
  have apart : Session.Seated ⟨0, "/"⟩ (site.disk.emptied (Session.place ⟨0, "/"⟩ ["b"])) := by
    decide +kernel
  have use := (@opened_bucket_is_usable site ⟨0⟩ ⟨0, "/"⟩ "b" live wf (by decide)
    (by decide +kernel)).2 _ opens (fun content file => by rw [directory] at file; cases file) within
  have make := (@opened_bucket_is_usable site ⟨0⟩ ⟨0, "/"⟩ "c" live wf (by decide)
    (by decide +kernel)).1 seated
  refine ⟨opens, (use.2 apart).1, make.2.2 ?_⟩
  decide +kernel

/-- Among the trees where it is otherwise are one with a file at the name, one with a directory whose
path is too long, one where the way to the root leads through the bucket, and one without the root. -/
theorem opened_bucket_may_be_of_no_use :
    let bucket : Bucket := ⟨⟨0⟩, "b"⟩
    let opened := ConnectionId.openBucket ⟨0⟩ "b"
    let deleted := ConnectionId.deleteBucket ⟨0⟩ "b" true
    let nested : Tree := SortedMap.ofList [(["b"], .directory), (["b", "x"], .directory)]
    let file := Site.connected "/" (SortedMap.ofList [(["b"], .file [])])
    let far := Site.connected (slashes 4093) nested
    let through := Site.connected "/b/x/../.." nested
    let rootless := Site.connected "/r" SortedMap.empty
    let lost : StoreError := .transport (.ofIo "b" (.ofSystem .noEntry))
    let misfit : StoreError := .transport (.ofIo "b" (.ofSystem .notDirectory))
    Plain "b" ∧
    (file.disk.WellFormed ∧ Fits ⟨0, "/"⟩ ["b"] ∧ (opened file).1 = .ok bucket ∧
      (bucket.list "" none (opened file).2).1 = ([], some misfit) ∧
      (bucket.clear (opened file).2).1 = .error misfit ∧
      (deleted (opened file).2).1 = .error misfit) ∧
    (nested.WellFormed ∧ Fits ⟨0, slashes 4093⟩ ["b"] ∧ (opened far).1 = .ok bucket ∧
      (bucket.list "" none (opened far).2).1 =
        ([], some (.transport (.ofIo "b/x" (.ofSystem .nameTooLong))))) ∧
    (Fits ⟨0, "/b/x/../.."⟩ ["b"] ∧ (opened through).1 = .ok bucket ∧
      (deleted (opened through).2).1 = .error lost) ∧
    (Fits ⟨0, "/r"⟩ ["b"] ∧ (opened rootless).1 = .error (.bucketNotFound "b") ∧
      (ConnectionId.createBucket ⟨0⟩ "b" rootless).1 = .error lost) := by
  have unlisted := @far_bucket_is_not_listed 4093 (by decide) (by decide)
  refine ⟨by decide, ?_, unlisted, ?_, ?_⟩
  · decide +kernel
  · decide +kernel
  · decide +kernel

end TreeStore
