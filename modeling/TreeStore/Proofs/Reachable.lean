import TreeStore.Proofs.Shape
/-!
The states that a bucket can be in: what creating it leaves behind, and after that whatever commands
make of it under changing rules. All of them are shaped (`Bucket.Since.shaped`).
-/
namespace TreeStore

open TreeStore.Path (Plain)

section Making

variable {session : Session} {name : String} {tree tree' : Tree}

theorem toList_root_subset (session : Session) (path : String) :
    ∀ c ∈ session.root.toList, c ∈ (session.resolve path).toList := by
  intro c mem
  unfold Session.resolve rooted
  dsimp only
  split <;> simp [String.toList_append, mem]

theorem seated_of_target (plain : Plain name) {reached : Disk.Target}
    (h : Disk.target tree (session.resolve name) = .ok reached) : session.Seated tree := by
  obtain ⟨route, read, h⟩ := Disk.route_of_target h
  obtain ⟨nul, -, rfl⟩ := Disk.ofPath_eq_ok read
  have parts : Path.components (session.resolve name) = Path.components session.root ++ [name] := by
    rw [Session.components_resolve, Path.components_of_plain plain]
  rw [Disk.Route.target, parts, List.dropLast_concat] at h
  split at h
  case h_2 => cases h
  case h_1 directory entered =>
    refine ⟨?_, by rw [entered, Disk.enter_eq_settle entered]; rfl⟩
    simp only [Disk.hasNul, List.contains_eq_mem, decide_eq_false_iff_not] at nul ⊢
    exact fun mem => nul (toList_root_subset session name _ mem)

theorem Tree.without_of_absent (wf : tree.WellFormed) {top : Location} (named : top ≠ [])
    (absent : tree.find? top = none) : tree.without top = tree := by
  ext place : 1
  unfold without
  rw [SortedMap.find?_filterKeys]
  split
  case isTrue => rfl
  case isFalse inside =>
    have some : below? top place ≠ none := by simpa using inside
    obtain ⟨rest, below⟩ := Option.ne_none_iff_exists'.1 some
    obtain rfl := Tree.below?_eq_some_iff.1 below
    rcases eq_or_ne rest [] with rfl | some
    · rw [List.append_nil, absent]
    · cases found : tree.find? (top ++ rest) with
      | none => rfl
      | some node =>
        have present : (tree.node? (top ++ rest)).isSome := by
          rw [Tree.node?_of_ne_nil _ (by simp [named]), found]
          rfl
        have up := wf.above some present
        rw [Tree.node?_of_ne_nil _ named, absent] at up
        cases up

theorem insert_of_made (wf : tree.WellFormed) (plain : Plain name)
    (made : Disk.makeDirectory tree (session.resolve name) = .ok tree') :
    tree.find? (session.place [name]) = none ∧ name.utf8ByteSize ≤ Disk.nameLimit ∧
      tree' = tree.insert (session.place [name]) .directory := by
  have taken := Disk.makeDirectory_takes wf made
  rw [locate_top plain session] at taken
  generalize spot : session.place [name] = location at taken
  cases taken with
  | @makeDirectory _ top last _ short parent absent =>
    obtain ⟨-, same⟩ := List.append_inj' spot rfl
    obtain rfl := List.singleton_inj.1 same
    exact ⟨absent, short, rfl⟩

theorem vacant_of_made (wf : tree.WellFormed) (plain : Plain name)
    (made : Disk.makeDirectory tree (session.resolve name) = .ok tree') {rest : List String}
    (some : rest ≠ []) : tree'.node? (session.place (name :: rest)) = none := by
  obtain ⟨absent, -, rfl⟩ := insert_of_made wf plain made
  have named := Session.place_cons_ne_nil session name []
  rw [Tree.node?_insert _ named, if_neg, Session.place_cons]
  · by_contra present
    have up := wf.above some (Option.isSome_iff_ne_none.2 present)
    rw [Tree.node?_of_ne_nil _ named, absent] at up
    cases up
  · rw [Session.place_inj, List.cons.injEq]
    exact fun same => some same.2

theorem shaped_of_made (wf : tree.WellFormed) (plain : Plain name)
    (made : Disk.makeDirectory tree (session.resolve name) = .ok tree') :
    Shaped session name tree' := by
  have vacant := @vacant_of_made session name tree tree' wf plain made
  have wf' := (Disk.makeDirectory_takes wf made).wellFormed wf
  have fits := Disk.makeDirectory_accepts made
  obtain ⟨goal, reached, -⟩ := Disk.ok_of_bind made
  have seated := seated_of_target plain reached
  obtain ⟨absent, short, rfl⟩ := insert_of_made wf plain made
  have named := Session.place_cons_ne_nil session name []
  refine ⟨wf', ?_, ?_, ⟨by simpa using short, fits⟩, fun rest node some found => ?_⟩
  · rw [Shaped.outside_insert, Tree.without_of_absent wf named absent]
    exact seated
  · rw [Tree.node?_insert _ named, if_pos rfl]
  · rw [vacant some] at found
    cases found

end Making

def Site.withRules (site : Site) (calls : List (Rule CallKind Refusal))
    (streams : List (Rule StreamKind Cut)) : Site :=
  { site with callRules := calls, streamRules := streams }

/-- The states of a site since a bucket was made in it. Before each command the rules may change, so
any of its calls and streams may fail. -/
inductive Bucket.Since (bucket : Bucket) : Site → Prop
  | made {site : Site} (wf : site.disk.WellFormed) (plain : Plain bucket.name)
      (ok : (bucket.connection.createBucket bucket.name site).1 = .ok bucket) :
      Since bucket (bucket.connection.createBucket bucket.name site).2
  | asked {site : Site} (since : Since bucket site) (calls : List (Rule CallKind Refusal))
      (streams : List (Rule StreamKind Cut)) (command : Command) :
      Since bucket (command.run bucket (site.withRules calls streams)).2

theorem Bucket.Since.of_empty_disk : Bucket.Since ⟨⟨0⟩, "b"⟩
    (ConnectionId.createBucket ⟨0⟩ "b" (Site.connected "/" SortedMap.empty)).2 :=
  @Bucket.Since.made ⟨⟨0⟩, "b"⟩ _ Tree.wellFormed_empty (by decide : Plain "b") (by decide +kernel)

section Since

variable {scene : Scene} {tree : Tree} {id : ConnectionId} {session : Session} {name : String}

theorem createBucket_made (slot? : Option Session) (shows : scene.Shows id slot?) (name : String) :
    Ends scene tree (id.createBucket name) fun answer tree' => ∀ bucket, answer = .ok bucket →
      ∃ session, slot? = some session ∧
        Disk.makeDirectory tree (session.resolve name) = .ok tree' := by
  cases slot? with
  | none =>
    refine (contains_closed shows name).andThen (fun _ _ done => nomatch done.2)
      fun _ _ _ _ eq => nomatch eq
  | some session =>
    refine (contains_still id name).andThen (fun found tree' same => ?_) fun _ _ _ _ eq => nomatch eq
    subst same
    cases found with
    | true => exact .throw fun _ eq => nomatch eq
    | false =>
      refine .live shows ((change_ends ..).lifted fun answer later done => ?_)
      rcases done with ⟨error, rfl, -⟩ | ⟨rfl, made⟩
      · exact .throw fun _ eq => nomatch eq
      · exact .ok fun _ _ => ⟨session, rfl, made⟩

def Shaped.footprint (session : Session) (id : ConnectionId) (plain : Plain name) : Footprint where
  apt := Shaped session name
  allowed edit := ∃ reach : Reach, reach.Allows session ⟨id, name⟩ edit
  wellFormed _ shaped := shaped.wellFormed
  kept _ _ _ := fun ⟨_, may⟩ taken shaped => shaped.edit plain may taken

theorem Shaped.not_directory (shaped : Shaped session name tree) (key : String)
    (part : Layout.Part) :
    tree.node? (session.place (Layout.fileNames name key part)) ≠ some .directory := by
  intro directory
  exact Layout.not_lies_directory key part (shaped.entries _ _ (by simp) directory).1

/-- No command breaks the shape of a bucket, whatever fails. -/
theorem Shaped.command (shaped : Shaped session name tree) (plain : Plain name)
    (shows : scene.Shows id (some session)) (command : Command) :
    Ends scene tree (command.run ⟨id, name⟩) fun _ tree' => Shaped session name tree' := by
  have serves : (Shaped.footprint session id plain).Serves session ⟨id, name⟩ command := by
    refine ⟨fun _ may => ⟨_, may⟩, fun source target part tree _ shaped => ?_⟩
    rw [spot_eq plain]
    exact shaped.not_directory source part
  apply (command.run_ends shows tree serves).mono
  intro answer tree' done
  rcases done with ⟨-, same⟩ | ⟨covers, -⟩
  · rwa [same]
  · exact (covers shaped).2

theorem Bucket.Since.plain {bucket : Bucket} {site : Site} (since : bucket.Since site) :
    Plain bucket.name := by
  induction since with
  | made _ plain => exact plain
  | asked _ _ _ _ ih => exact ih

theorem Bucket.Since.shaped {bucket : Bucket} {site : Site} (since : bucket.Since site) :
    ∃ session, (Scene.slot bucket.connection (some session)).holds site ∧
      Shaped session bucket.name site.disk := by
  obtain ⟨id, name⟩ := bucket
  induction since with
  | @made site wf plain ok =>
    obtain ⟨slot?, found⟩ : ∃ slot?, (Scene.slot id slot?).holds site := ⟨_, rfl⟩
    obtain ⟨held, made⟩ :=
      (createBucket_made slot? (Scene.shows_slot id slot?) name).run site found rfl
    obtain ⟨session, rfl, done⟩ := made _ ok
    exact ⟨session, held, shaped_of_made wf plain done⟩
  | @asked site since calls streams command ih =>
    obtain ⟨session, held, shaped⟩ := ih
    have done := (shaped.command since.plain (Scene.shows_slot id (some session)) command).run
      (site.withRules calls streams) held rfl
    exact ⟨session, done⟩

end Since

end TreeStore
