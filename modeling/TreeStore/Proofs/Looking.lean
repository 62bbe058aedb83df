import TreeStore.Proofs.Purge
/-!
Operations that only look, whatever fails and whether there is a session or not.
-/
namespace TreeStore

section Looking

variable {scene : Scene} {tree : Tree} {bucket : Bucket} {α β : Type}

theorem Ends.still_bind {operation : Operation α} {next : α → Operation β}
    (first : Ends scene tree operation fun _ tree' => tree' = tree)
    (rest : ∀ a, Ends scene tree (next a) fun _ tree' => tree' = tree) :
    Ends scene tree (operation >>= next : Operation β) fun _ tree' => tree' = tree := by
  refine first.andThen (fun a tree' same => ?_) fun _ _ same => same
  subst same
  exact rest a

theorem slot?_still (id : ConnectionId) :
    Ends scene tree id.slot? fun _ tree' => tree' = tree :=
  ⟨fun _ start same => ⟨start, same⟩⟩

theorem session_still (id : ConnectionId) :
    Ends scene tree id.session fun _ tree' => tree' = tree := by
  refine (slot?_still id).lifted fun slot? tree' same => ?_
  cases slot? with
  | none => exact .throw same
  | some session => exact .ok same

theorem contains_still (id : ConnectionId) (path : String) :
    Ends scene tree (id.contains path) fun _ tree' => tree' = tree := by
  refine (session_still id).still_bind fun session => (stat_ends ..).lifted fun answer tree' same => ?_
  cases answer with
  | ok => exact .ok same
  | error error =>
    dsimp only
    split
    · exact .ok same
    · exact .throw same

theorem fetchRecord_still (key : String) :
    Ends scene tree (bucket.fetchRecord key) fun _ tree' => tree' = tree :=
  (session_still _).still_bind fun _ => (readRecord_ends tree key).mono fun _ _ done => done.1

theorem objectSize_still (key : String) :
    Ends scene tree (bucket.objectSize key) fun _ tree' => tree' = tree := by
  refine (session_still _).still_bind fun session => (stat_ends ..).lifted fun answer tree' same => ?_
  refine (onPayload_ends ..).andThen (fun _ _ still => .ok ?_) fun _ _ still => ?_
  all_goals exact still.1.trans same

theorem fetch_still (key : String) (sink : Sink) :
    Ends scene tree (bucket.fetch key sink) fun _ tree' => tree' = tree := by
  unfold Bucket.fetch
  dsimp only
  have opening : Ends scene tree (do
      let session ← bucket.session
      return (session, ← bucket.openPayload session key) : Operation (Session × Source))
      fun _ tree' => tree' = tree :=
    (session_still _).still_bind fun _ =>
      ((openPayload_ends ..).mono fun _ _ done => done.1).still_bind fun _ => .ok rfl
  refine opening.bind fun answer tree' same => ?_
  subst same
  split
  · exact .pure rfl
  · refine (pour_ends ..).bind fun poured tree' ⟨same, _⟩ => ?_
    split
    · exact .pure same
    · exact (readRecord_ends ..).bind fun _ _ still => .pure (still.1.trans same)

theorem fetchBytes_still (key : String) :
    Ends scene tree (bucket.fetchBytes key) fun _ tree' => tree' = tree := by
  refine (fetch_still key {}).lifted fun answer tree' same => ?_
  obtain ⟨record, bytes⟩ := answer
  cases record with
  | ok => exact .ok same
  | error => exact .throw same

theorem totalSize_still : Ends scene tree bucket.totalSize fun _ tree' => tree' = tree := by
  refine (session_still _).still_bind fun session => ?_
  refine (fold_ends (fun _ => true) (fun later _ (_ : Nat) => later = tree) (fun _ later => later = tree)
    (fun _ _ _ _ same => same) (fun _ _ _ _ _ same _ => .ok same) bucket.name 0 tree rfl).mono
    fun answer tree' done => ?_
  cases answer with
  | ok size =>
    obtain ⟨-, same⟩ := done
    exact same
  | error error => exact done

theorem enter_still (start : String) :
    Ends scene tree (Listing.enter bucket start) fun _ tree' => tree' = tree := by
  refine (session_still _).still_bind fun session => ?_
  dsimp only
  split
  · exact .ok rfl
  · refine (contains_still _ _).still_bind fun found => ?_
    split
    · exact .ok rfl
    · exact .ok rfl

theorem next?_still (walk : Walk) : Ends scene tree walk.next? fun _ tree' => tree' = tree := by
  obtain ⟨session, accepts, pending⟩ := walk
  cases pending with
  | nil => exact .pure rfl
  | cons directory rest => exact (next?_ends accepts directory rest tree).mono fun _ _ h => h.1

theorem scan_still (start : String) (bound : Nat) (walk : Walk) :
    Ends scene tree (Listing.scan start bound walk) fun _ tree' => tree' = tree := by
  induction bound generalizing walk with
  | zero => exact .pure rfl
  | succ bound ih =>
    refine (next?_still walk).bind fun answer tree' same => ?_
    subst same
    rcases answer with _ | _ | ⟨visit, walk'⟩
    · exact .pure rfl
    · exact .pure rfl
    · dsimp only
      split
      · exact ih walk'
      · exact .pure rfl

theorem listing_still (listing : Listing) :
    Ends scene tree listing.next? fun _ tree' => tree' = tree := by
  have scanned : ∀ start walk,
      Ends scene tree (Listing.scanAll start walk) fun _ tree' => tree' = tree := by
    intro start walk
    refine (visitBound_ends scene tree).bind fun bound tree' ⟨_, same⟩ => ?_
    subst same
    exact scan_still start bound walk
  rcases listing with ⟨bucket, start⟩ | ⟨start, walk, _ | ⟨key, ready⟩⟩ | _
  · refine (enter_still start).bind fun answer tree' same => ?_
    subst same
    rcases answer with _ | _ | walk
    · exact .pure rfl
    · exact .pure rfl
    · exact scanned start walk
  · exact scanned start walk
  · exact .pure rfl
  · exact .pure rfl

theorem take_still (n : Nat) (listing : Listing) :
    Ends scene tree (Listing.take n listing) fun _ tree' => tree' = tree := by
  induction n generalizing listing with
  | zero => exact .pure rfl
  | succ n ih =>
    refine (listing_still listing).bind fun answer tree' same => ?_
    subst same
    rcases answer with _ | ⟨_ | key, listing'⟩
    · exact .pure rfl
    · exact .pure rfl
    · exact (ih listing').bind fun _ _ still => .pure still

theorem list_still (start : String) (limit? : Option Nat) :
    Ends scene tree (bucket.list start limit?) fun _ tree' => tree' = tree := by
  cases limit? with
  | some limit => exact take_still limit _
  | none =>
    refine (itemBound_ends scene tree).bind fun bound tree' ⟨_, same⟩ => ?_
    subst same
    exact take_still bound _

end Looking

end TreeStore
