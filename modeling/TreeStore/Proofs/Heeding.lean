import TreeStore.Proofs.Sessions
/-!
While the slot of its connection holds a session, every operation works with that session alone and
heeds failures that have no meaning for the store. There is a lemma for each operation, and the
loops are followed by induction on what is left of them.
-/
namespace TreeStore

section Working

variable {connections : List Connection} {session : Session} {id : ConnectionId}

theorem Reports.live {β : Type} {next : Session → Operation β}
    {told : Except StoreError β → Option StoreError → Prop}
    (live : slotIn connections id = some session)
    (rest : Reports connections session (next session) told) :
    Reports connections session (id.session >>= next : Operation β) told := by
  refine ⟨fun site same => ?_⟩
  have found : (id.session >>= next : Operation β) site = next session site := by
    rw [session_bind, same, live]
  obtain ⟨error?, worked, tells⟩ := rest.run site same
  rw [← found] at worked tells
  exact ⟨error?, worked, tells⟩

section Directories

variable (live : slotIn connections id = some session)

include live

theorem contains_reports (path : String) :
    Reports connections session (id.contains path) Told := by
  refine .live live (.called (stat_reports session path) (fun _ _ => .ok trivial)
    (fun error _ => ?_) fun error other => ?_)
  · dsimp only
    split
    · exact .ok trivial
    · exact .throw
  · simp [CallError.isNotFound, other]

theorem makeMissing_reports (names : List String) (base : String) :
    Reports connections session (id.makeMissing session base names) Told := by
  induction names generalizing base with
  | nil => exact .ok trivial
  | cons name rest ih =>
    refine (contains_reports live _).andThen fun found _ => ?_
    split
    · exact ih _
    · refine .transported (makeDirectory_reports session _) fun _ _ => ?_
      exact (ih _).andThen fun _ _ => .ok trivial

theorem makeDirectories_reports (path : String) :
    Reports connections session (id.makeDirectories path) Told := by
  refine .live live ((makeMissing_reports live _ _).andThen fun made _ => ?_)
  split
  · exact .ok trivial
  · exact .throw

omit live in
theorem removeFiles_reports (directory : String) (files : List Disk.Entry) :
    Reports connections session (ConnectionId.removeFiles session directory files) Told := by
  induction files with
  | nil => exact .ok trivial
  | cons file rest ih => exact .transported (removeFile_reports session _) fun _ _ => ih

omit live in
theorem removeDirectories_reports (paths : List String) :
    Reports connections session (ConnectionId.removeDirectories session paths) Told := by
  induction paths with
  | nil => exact .ok trivial
  | cons path rest ih => exact .transported (removeDirectory_reports session _) fun _ _ => ih

end Directories

theorem walk_reports (walk : Walk) (same : walk.session = session) :
    Reports connections session walk.next? (CallTells fun answer =>
      ∀ visit later, answer = some (visit, later) → later.session = session) := by
  subst same
  obtain ⟨session, accepts, pending⟩ := walk
  cases pending with
  | nil => exact .answer fun _ _ eq => nomatch eq
  | cons directory rest =>
    refine .opening (list_reports session directory) (fun _ => rfl) fun entries _ => .answer ?_
    intro visit later eq
    cases eq
    rfl

theorem foldWithin_reports {σ : Type} {f : σ → Visit → Operation σ}
    (each : ∀ state visit, Reports connections session (f state visit) Told) (bound : Nat)
    (walk : Walk) (same : walk.session = session) (state : σ) :
    Reports connections session (Walk.foldWithin f bound walk state) Told := by
  induction bound generalizing walk state with
  | zero => exact .ok trivial
  | succ bound ih =>
    refine .transported (walk_reports walk same) fun answer kept => ?_
    rcases answer with _ | ⟨visit, later⟩
    · exact .ok trivial
    · exact (each state visit).andThen fun state' _ => ih later (kept visit later rfl) state'

theorem fold_reports {σ : Type} {f : σ → Visit → Operation σ}
    (each : ∀ state visit, Reports connections session (f state visit) Told) (base : String)
    (accepts : String → Bool) (state : σ) :
    Reports connections session ((Walk.start session base accepts).fold f state) Told :=
  .after (fun _ => ⟨rfl, rfl, rfl, rfl, rfl⟩) fun bound =>
    foldWithin_reports each bound _ rfl state

section Operations

variable (live : slotIn connections id = some session)

include live

theorem purge_reports (path : String) :
    Reports connections session (id.purge path) Told := by
  refine .live live (.andThen (fold_reports (fun directories visit => ?_)
    path (fun _ => true) []) fun directories _ => removeDirectories_reports directories)
  exact (removeFiles_reports visit.directory visit.files).andThen fun _ _ => .ok trivial

theorem createBucket_reports (name : String) :
    Reports connections session (id.createBucket name) Told := by
  refine (contains_reports live name).andThen fun found _ => ?_
  split
  · exact .throw
  · refine .live live (.called (makeDirectory_reports session name) (fun _ _ => .ok trivial)
      (fun _ _ => .throw) fun error other => ?_)
    simp [other]

theorem openBucket_reports (name : String) :
    Reports connections session (id.openBucket name) Told := by
  refine (contains_reports live name).andThen fun found _ => ?_
  split
  · exact .ok trivial
  · exact .throw

theorem deleteBucket_reports (name : String) (recursive : Bool) :
    Reports connections session (id.deleteBucket name recursive) Told := by
  have removed : ∀ last : Except CallError Unit → Operation Unit, last (.ok ()) = pure () →
      (∀ error, last (.error error) =
        throw (if error.kind = .notEmpty then .notEmpty name else .transport error)) →
      Reports connections session (id.session >>= fun session =>
        liftM (session.removeDirectory name) >>= last : Operation Unit) Told := by
    intro last ok error
    refine .live live (.called (removeDirectory_reports session name) (fun _ _ => ?_)
      (fun _ _ => ?_) fun failed other => ?_)
    · rw [ok]
      exact .ok trivial
    · rw [error]
      exact .throw
    · rw [error, other]
      rfl
  unfold ConnectionId.deleteBucket
  refine (contains_reports live name).andThen fun found _ => ?_
  cases found with
  | false => exact .throw
  | true =>
    cases recursive with
    | false => exact removed _ rfl fun _ => rfl
    | true => exact (purge_reports live name).andThen fun _ _ => removed _ rfl fun _ => rfl

end Operations

section Objects

variable {bucket : Bucket} {key : String}

theorem format_bind_reports {β : Type} {next : RecordFormat → Operation β} {fact : β → Prop}
    (rest : ∀ format, Reports connections session (next format) (Tells fact)) :
    Reports connections session (liftM bucket.format >>= next : Operation β) (Tells fact) :=
  .after (fun _ => ⟨rfl, rfl, rfl, rfl, rfl⟩) rest

theorem throw_ofPayload {α : Type} {error : CallError} (other : error.kind = .other) :
    (MonadExcept.throw (StoreError.ofPayload key error) : Operation α) =
      MonadExcept.throw (.transport error) := by
  simp [StoreError.ofPayload, CallError.isNotFound, other]

theorem onPayload_reports {α : Type} {call : Action (Except CallError α)}
    (first : Reports connections session call CallTold) :
    Reports connections session (do Operation.onPayload key (← call) : Operation α) Told :=
  .called first (fun _ _ => .ok trivial) (fun _ _ => .throw) fun _ other => throw_ofPayload other

theorem openPayload_reports (key : String) :
    Reports connections session (bucket.openPayload session key) Told :=
  onPayload_reports (openRead_reports session _)

theorem readRecord_reports (key : String) :
    Reports connections session (bucket.readRecord session key) Told := by
  unfold Bucket.readRecord
  rw [← bind_assoc]
  refine (onPayload_reports (openRead_reports session _)).andThen fun source _ => .lifted
    (pour_reports session (bucket.recordPath key) source none)
    (fun poured tells => ?_) fun poured error tells => ?_
  · obtain ⟨bytes, failure?⟩ := poured
    cases failure? with
    | some error => cases tells
    | none =>
      refine format_bind_reports fun format => ?_
      split
      · exact .ok trivial
      · exact .throw
  · obtain ⟨bytes, failure?⟩ := poured
    cases failure? with
    | none => cases tells
    | some failed =>
      cases tells
      rfl

theorem writeRecord_reports (key : String) (record : Record) :
    Reports connections session (bucket.writeRecord session key record) Told := by
  refine format_bind_reports fun format => ?_
  refine .transported (openWrite_reports session _) fun writer _ => ?_
  refine .streamed (copy_reports session _ writer _) fun _ => ?_
  exact .poured (shutdown_reports session _ writer) (fun _ => .ok trivial) fun _ => rfl

theorem fetchRecord_reports (live : slotIn connections bucket.connection = some session)
    (key : String) : Reports connections session (bucket.fetchRecord key) Told :=
  .live live (readRecord_reports key)

theorem fetch_reports (live : slotIn connections bucket.connection = some session)
    (key : String) (sink : Sink) : Reports connections session (bucket.fetch key sink)
      fun answer error? => Told answer.1 error? := by
  have opening : Reports connections session (do
      let session ← bucket.session
      return (session, ← bucket.openPayload session key) : Operation (Session × Source))
      (Tells fun opened => opened.1 = session) :=
    .live live ((openPayload_reports key).andThen fun source _ => .ok rfl)
  refine opening.bind (fun answer tells => ?_) fun answer error tells => ?_
  · cases answer with
    | error error => cases tells
    | ok opened =>
      obtain ⟨session', source⟩ := opened
      obtain rfl : session' = session := tells.2
      refine (pour_reports session' (bucket.payloadPath key) source sink.cut?).bind
        (fun poured tells => ?_) fun poured error tells => ?_
      · obtain ⟨bytes, failure?⟩ := poured
        cases failure? with
        | some error => cases tells
        | none =>
          refine (readRecord_reports key).bind (fun answer tells => .pure _ tells) ?_
          exact fun answer error tells site => ⟨rfl, tells⟩
      · obtain ⟨bytes, failure?⟩ := poured
        cases failure? with
        | none => cases tells
        | some failed =>
          cases tells
          exact fun site => ⟨rfl, rfl⟩
  · cases answer with
    | ok opened => cases tells.1
    | error failed =>
      cases tells
      exact fun site => ⟨rfl, rfl⟩

section Live

variable (live : slotIn connections bucket.connection = some session)

include live

theorem fetchBytes_reports (key : String) :
    Reports connections session (bucket.fetchBytes key) Told := by
  refine .lifted (fetch_reports live key {}) (fun answer tells => ?_) fun answer error tells => ?_
  · obtain ⟨record, bytes⟩ := answer
    cases record with
    | ok record => exact .ok trivial
    | error error => cases tells
  · obtain ⟨record, bytes⟩ := answer
    cases record with
    | ok record => cases tells.1
    | error failed =>
      cases tells
      rfl

theorem require_reports (key : String) :
    Reports connections session (bucket.require key) Told := by
  refine (contains_reports live _).andThen fun found _ => ?_
  split
  · exact .ok trivial
  · exact .throw

/-- A missing folder is no failure without a meaning, so the second call is made only after a first
one that may be followed by others. -/
theorem withDirectories_reports {α : Type} (path : String) {call : Action (Except CallError α)}
    (first : Reports connections session call CallTold) :
    Reports connections session (bucket.withDirectories path call) Told := by
  refine .called first (fun _ _ => .ok trivial) (fun error _ => ?_) fun error other => ?_
  · dsimp only
    split
    · refine (makeDirectories_reports live _).andThen fun _ _ => ?_
      exact .called first (fun _ _ => .ok trivial) (fun _ _ => .throw) fun _ _ => rfl
    · exact .throw
  · simp [CallError.isNotFound, other]

theorem writePayload_reports (key : String) (source : Source) :
    Reports connections session (bucket.writePayload session key source) Told := by
  refine (withDirectories_reports live _ (openWrite_reports session _)).andThen fun writer _ => ?_
  refine .streamed (copy_reports session _ writer source) fun size => ?_
  exact .streamed (shutdown_reports session _ writer) fun _ => .ok trivial

theorem store_reports (key : String) (payload : Payload) (record : Record) :
    Reports connections session (bucket.store key payload record) Told := by
  refine .live live ?_
  have rewound : Reports connections session
      (Operation.streamed (bucket.payloadPath key) payload.rewind) Told := by
    cases payload.rewind with
    | ok payload => exact .ok trivial
    | error error => exact .throw
  refine rewound.andThen fun payload _ => ?_
  refine (writePayload_reports live key _).andThen fun size _ => ?_
  exact (writeRecord_reports key record).andThen fun _ _ => .ok trivial

theorem delete_reports (key : String) (force : Bool) :
    Reports connections session (bucket.delete key force) Told := by
  refine .live live (.called (removeFile_reports session _) (fun _ _ => ?_) (fun error _ => ?_)
    fun error other => ?_)
  · refine .called (removeFile_reports session _) (fun _ _ => .ok trivial) (fun error _ => ?_)
      fun error other => ?_
    · dsimp only
      split
      · exact .ok trivial
      · exact .throw
    · simp [CallError.isNotFound, other]
  · dsimp only
    split
    · exact .ok trivial
    · exact .throw
  · have unknown : error.isNotFound = false := by simp [CallError.isNotFound, other]
    dsimp only
    rw [unknown]
    exact throw_ofPayload other

theorem rename_command_reports (source target : String) :
    Reports connections session (bucket.rename source target) Told := by
  refine .live live ((require_reports live source).andThen fun _ _ => ?_)
  refine (withDirectories_reports live _ (rename_reports session _ _)).andThen fun _ _ => ?_
  refine .called (rename_reports session _ _) (fun _ _ => .ok trivial) (fun error _ => ?_)
    fun error other => ?_
  · dsimp only
    split
    · exact .ok trivial
    · exact .throw
  · simp [CallError.isNotFound, other]

theorem updateRecord_reports (key : String) (record : Record) :
    Reports connections session (bucket.updateRecord key record) Told :=
  .live live ((require_reports live key).andThen fun _ _ => writeRecord_reports key record)

theorem copy_command_reports (source target : String) (record? : Option Record) :
    Reports connections session (bucket.copy source target record?) Told := by
  unfold Bucket.copy
  split
  · cases record? with
    | some record => exact updateRecord_reports live source record
    | none => exact require_reports live source
  · refine .live live ((openPayload_reports source).andThen fun reader _ => ?_)
    have written : ∀ record : Record, Reports connections session (do
        let _ ← bucket.writePayload session target reader
        bucket.writeRecord session target record : Operation Unit) Told := fun record =>
      (writePayload_reports live target reader).andThen fun _ _ => writeRecord_reports target record
    cases record? with
    | some record => exact written record
    | none => exact (readRecord_reports source).andThen fun record _ => written record

theorem objectSize_reports (key : String) :
    Reports connections session (bucket.objectSize key) Told :=
  .live live (.called (stat_reports session _) (fun _ _ => .ok trivial) (fun _ _ => .throw)
    fun _ other => throw_ofPayload other)

theorem totalSize_reports : Reports connections session bucket.totalSize Told :=
  .live live (fold_reports (fun _ _ => .ok trivial) _ _ _)

theorem clear_reports : Reports connections session bucket.clear Told :=
  purge_reports live bucket.name

end Live

end Objects

section Listings

def Listing.Uses (connections : List Connection) (session : Session) : Listing → Prop
  | .waiting bucket _ => slotIn connections bucket.connection = some session
  | .scanning _ walk _ => walk.session = session
  | .finished => True

def Listing.StepTells (connections : List Connection) (session : Session) :
    Option (Except StoreError String × Listing) → Option StoreError → Prop
  | none, error? => error? = none
  | some (.ok _, later), error? => error? = none ∧ later.Uses connections session
  | some (.error error, later), error? => error? = some error ∧ later = .finished

theorem enter_reports {bucket : Bucket}
    (live : slotIn connections bucket.connection = some session) (start : String) :
    Reports connections session (Listing.enter bucket start)
      (Tells fun walk? => ∀ walk, walk? = some walk → walk.session = session) := by
  have begun : ∀ accepts, ∀ walk,
      some (Walk.start session (Listing.base bucket.name start) accepts) = some walk →
      walk.session = session := by
    intro accepts walk eq
    cases eq
    rfl
  refine .live live ?_
  dsimp only
  split
  · exact .ok (begun _)
  · refine (contains_reports live _).andThen fun found _ => ?_
    split
    · exact .ok (begun _)
    · exact .ok fun _ eq => nomatch eq

theorem scan_reports (start : String) (bound : Nat) (walk : Walk)
    (same : walk.session = session) :
    Reports connections session (Listing.scan start bound walk)
      (Listing.StepTells connections session) := by
  induction bound generalizing walk with
  | zero => exact .pure none rfl
  | succ bound ih =>
    refine (walk_reports walk same).bind (fun answer tells => ?_) fun answer error tells => ?_
    · rcases answer with error | _ | ⟨visit, later⟩
      · exact .pure (some (.transport error)) ⟨rfl, rfl⟩
      · exact .pure none rfl
      · have kept := tells.2 visit later rfl
        dsimp only
        split
        · exact ih later kept
        · exact .pure none ⟨rfl, kept⟩
    · rcases answer with failed | _
      · by_cases other : failed.kind = .other
        · obtain rfl : error = .transport failed := by simpa [CallTells, other] using tells
          exact fun site => ⟨rfl, rfl, rfl⟩
        · simp [CallTells, other] at tells
      · cases tells.1

theorem scanAll_reports (start : String) (walk : Walk) (same : walk.session = session) :
    Reports connections session (Listing.scanAll start walk)
      (Listing.StepTells connections session) :=
  .past (fun _ => ⟨rfl, rfl, rfl, rfl, rfl⟩) fun bound => scan_reports start bound walk same

theorem listing_reports (listing : Listing) (uses : listing.Uses connections session) :
    Reports connections session listing.next? (Listing.StepTells connections session) := by
  rcases listing with ⟨bucket, start⟩ | ⟨start, walk, _ | ⟨key, ready⟩⟩ | _
  · refine (enter_reports uses start).bind (fun answer tells => ?_) fun answer error tells => ?_
    · rcases answer with _ | _ | walk
      · cases tells
      · exact .pure none rfl
      · exact scanAll_reports start walk (tells.2 walk rfl)
    · rcases answer with failed | _
      · cases tells
        exact fun site => ⟨rfl, rfl, rfl⟩
      · cases tells.1
  · exact scanAll_reports start walk uses
  · exact .pure none ⟨rfl, uses⟩
  · exact .pure none rfl

theorem take_reports (n : Nat) (listing : Listing) (uses : listing.Uses connections session) :
    Reports connections session (Listing.take n listing) fun answer error? =>
      error? = answer.2 := by
  induction n generalizing listing with
  | zero => exact .pure _ rfl
  | succ n ih =>
    refine (listing_reports listing uses).bind (fun answer tells => ?_) fun answer error tells => ?_
    · rcases answer with _ | ⟨error | key, later⟩
      · exact .pure _ rfl
      · cases tells.1
      · refine (ih later tells.2).bind (fun answer tells => .pure _ tells) ?_
        exact fun answer error tells site => ⟨rfl, tells⟩
    · rcases answer with _ | ⟨failed | key, later⟩
      · cases tells
      · exact fun site => ⟨rfl, tells.1⟩
      · cases tells.1

theorem listKeys_reports {bucket : Bucket}
    (live : slotIn connections bucket.connection = some session) (start : String)
    (limit? : Option Nat) :
    Reports connections session (bucket.list start limit?) fun answer error? =>
      error? = answer.2 := by
  cases limit? with
  | some limit => exact take_reports limit _ live
  | none =>
    exact .past (fun _ => ⟨rfl, rfl, rfl, rfl, rfl⟩) fun bound => take_reports bound _ live

end Listings

end Working

end TreeStore
