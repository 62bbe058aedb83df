import TreeStore.Proofs.Heeding
/-!
Every request heeds failures that have no meaning for the store: the failed call, or the stream that
broke off, is the last thing that happens at the site, and the request ends with its error
(`unclassified_failure_ends_request`). The same is proved of every step of a listing.
-/
namespace TreeStore

def Shut {α : Type} (id : ConnectionId) (operation : Operation α) : Prop :=
  ∀ site, slotIn site.connections id = none → operation site = (.error .disconnected, site)

namespace Shut

variable {α β : Type} {id : ConnectionId}

theorem session_bind (next : Session → Operation α) :
    Shut id (id.session >>= next : Operation α) := by
  intro site empty
  rw [TreeStore.session_bind, empty]

theorem bind {operation : Operation α} (first : Shut id operation) (next : α → Operation β) :
    Shut id (operation >>= next : Operation β) := by
  intro site empty
  rw [Operation.bind_run, first site empty]

theorem contains (path : String) : Shut id (id.contains path) := session_bind _

theorem contains_bind (path : String) (next : Bool → Operation α) :
    Shut id (id.contains path >>= next : Operation α) := (contains path).bind next

variable {name : String}

theorem updateRecord (key : String) (record : Record) :
    Shut id (Bucket.updateRecord ⟨id, name⟩ key record) := session_bind _

theorem copy (source target : String) (record? : Option Record) :
    Shut id (Bucket.copy ⟨id, name⟩ source target record?) := by
  unfold Bucket.copy
  split
  · cases record? with
    | some record => exact updateRecord source record
    | none => exact contains_bind _ _
  · exact session_bind _

theorem fetch (key : String) (sink : Sink) {site : Site}
    (empty : slotIn site.connections id = none) :
    Bucket.fetch ⟨id, name⟩ key sink site = ((.error .disconnected, sink.held), site) := by
  have opening : (do
      let session ← Bucket.session ⟨id, name⟩
      return (session, ← Bucket.openPayload ⟨id, name⟩ session key) :
        Operation (Session × Source)) site = (.error .disconnected, site) :=
    session_bind _ site empty
  exact bind_of_run opening

theorem fetchBytes (key : String) : Shut id (Bucket.fetchBytes ⟨id, name⟩ key) :=
  fun _ empty => lifted_of_run (fetch key {} empty)

theorem enter (start : String) : Shut id (Listing.enter ⟨id, name⟩ start) := session_bind _

theorem listing (start : String) {site : Site} (empty : slotIn site.connections id = none) :
    (Listing.waiting ⟨id, name⟩ start).next? site =
      (some (.error .disconnected, .finished), site) :=
  bind_of_run (enter start site empty)

theorem take (start : String) (n : Nat) {site : Site} (empty : slotIn site.connections id = none) :
    Listing.take (n + 1) (.waiting ⟨id, name⟩ start) site = (([], some .disconnected), site) :=
  bind_of_run (listing start empty)

theorem list (start : String) {limit? : Option Nat} (some : limit? ≠ some 0) {site : Site}
    (empty : slotIn site.connections id = none) :
    Bucket.list ⟨id, name⟩ start limit? site = (([], .some .disconnected), site) := by
  rcases limit? with _ | _ | limit
  · exact take start _ empty
  · exact absurd rfl some
  · exact take start limit empty

end Shut

def Request.connection? : Request → Option ConnectionId
  | connect _ => none
  | close id | reestablish id | contains id _ | createBucket id _ | openBucket id _
  | deleteBucket id _ _ | makeDirectories id _ | purge id _ => some id
  | command bucket _ => some bucket.connection

def Request.forSession : Request → Bool
  | connect _ | close _ | reestablish _ => false
  | _ => true

/-- Whether a request cannot be answered without a session. A listing that is asked for no key is
never begun. -/
def Request.isRemote : Request → Bool
  | command _ (.list _ (some 0)) => false
  | request => request.forSession

theorem Request.run_of_empty {request : Request} {id : ConnectionId} {site : Site}
    (remote : request.isRemote = true) (made : request.connection? = some id)
    (empty : slotIn site.connections id = none) :
    request.run site = (some .disconnected, site) := by
  have failed : ∀ {α : Type} {operation : Operation α}, Shut id operation →
      (failure? <$> operation.run) site = (some .disconnected, site) := by
    intro α operation shut
    show (failure? (operation site).1, (operation site).2) = _
    rw [shut site empty]
    rfl
  have ran : ∀ {α : Type} {action : Action α} {a : α} {f : α → Answer},
      action site = (a, site) → (f a).error? = some .disconnected →
      (Answer.error? <$> f <$> action) site = (some .disconnected, site) := by
    intro α action a f ends disconnected
    show ((f (action site).1).error?, (action site).2) = _
    rw [ends, disconnected]
  cases request with
  | connect | close | reestablish => cases remote
  | contains _ path =>
    cases made
    exact failed (.contains path)
  | createBucket _ name =>
    cases made
    exact failed (.contains_bind name _)
  | openBucket _ name =>
    cases made
    exact failed (.contains_bind name _)
  | deleteBucket _ name recursive =>
    cases made
    exact failed (.contains_bind name _)
  | makeDirectories _ path =>
    cases made
    exact failed (.session_bind _)
  | purge _ path =>
    cases made
    exact failed (.session_bind _)
  | command bucket asked =>
    obtain ⟨id', name⟩ := bucket
    obtain rfl : id' = id := Option.some.inj made
    cases asked with
    | store | delete | rename | clear | fetchRecord | objectSize | totalSize =>
      exact ran (Shut.session_bind _ site empty) rfl
    | copy source target record? => exact ran (Shut.copy source target record? site empty) rfl
    | updateRecord key record => exact ran (Shut.updateRecord key record site empty) rfl
    | contains key => exact ran (Shut.contains _ site empty) rfl
    | fetch key sink => exact ran (Shut.fetch key sink empty) rfl
    | fetchBytes key => exact ran (Shut.fetchBytes key site empty) rfl
    | list start limit? =>
      refine ran (Shut.list start ?_ empty) rfl
      rintro rfl
      cases remote

theorem Request.run_worked {request : Request} {id : ConnectionId} {site : Site} {session : Session}
    (works : request.forSession = true) (made : request.connection? = some id)
    (live : slotIn site.connections id = some session) :
    site.Worked session (request.run site).2 (request.run site).1 := by
  have failed : ∀ {α : Type} {operation : Operation α},
      Reports site.connections session operation Told →
      site.Worked session ((failure? <$> operation.run) site).2
        ((failure? <$> operation.run) site).1 := by
    intro α operation reports
    obtain ⟨error?, worked, tells⟩ := reports.run site rfl
    rw [tells.eq] at worked
    exact worked
  have ran : ∀ {α : Type} {action : Action α} {told : α → Option StoreError → Prop}
      {f : α → Answer}, Reports site.connections session action told →
      (∀ a error?, told a error? → error? = (f a).error?) →
      site.Worked session ((Answer.error? <$> f <$> action) site).2
        ((Answer.error? <$> f <$> action) site).1 := by
    intro α action told f reports eq
    obtain ⟨error?, worked, tells⟩ := reports.run site rfl
    rw [eq _ _ tells] at worked
    exact worked
  cases request with
  | connect | close | reestablish => cases works
  | contains _ path =>
    cases made
    exact failed (contains_reports live path)
  | createBucket _ name =>
    cases made
    exact failed (createBucket_reports live name)
  | openBucket _ name =>
    cases made
    exact failed (openBucket_reports live name)
  | deleteBucket _ name recursive =>
    cases made
    exact failed (deleteBucket_reports live name recursive)
  | makeDirectories _ path =>
    cases made
    exact failed (makeDirectories_reports live path)
  | purge _ path =>
    cases made
    exact failed (purge_reports live path)
  | command bucket asked =>
    obtain ⟨id', name⟩ := bucket
    obtain rfl : id' = id := Option.some.inj made
    have told : ∀ {α : Type} (answer : Except StoreError α) error?, Told answer error? →
        error? = failure? answer := fun _ _ tells => tells.eq
    cases asked with
    | store key payload record => exact ran (store_reports live key payload record) told
    | delete key force => exact ran (delete_reports live key force) told
    | rename source target => exact ran (rename_command_reports live source target) told
    | copy source target record? =>
      exact ran (copy_command_reports live source target record?) told
    | updateRecord key record => exact ran (updateRecord_reports live key record) told
    | clear => exact ran (clear_reports live) told
    | contains key => exact ran (contains_reports live _) told
    | fetch key sink => exact ran (fetch_reports live key sink) fun _ _ tells => tells.eq
    | fetchBytes key => exact ran (fetchBytes_reports live key) told
    | fetchRecord key => exact ran (fetchRecord_reports live key) told
    | objectSize key => exact ran (objectSize_reports live key) told
    | totalSize => exact ran (totalSize_reports live) told
    | list start limit? => exact ran (listKeys_reports live start limit?) fun _ _ tells => tells

def Site.Heeded (site later : Site) (error? : Option StoreError) : Prop :=
  ∃ events breaks, later.log = site.log ++ events ∧ later.breaks = site.breaks ++ breaks ∧
    Heeds later.log.length events breaks error?

namespace Site

variable {site later : Site} {error? : Option StoreError}

theorem Worked.heeded {session : Session} (worked : site.Worked session later error?) :
    site.Heeded later error? := by
  obtain ⟨events, breaks, log, broken, -, heeds⟩ := worked.noted
  exact ⟨events, breaks, log, broken, heeds⟩

theorem Heeded.refl (site : Site) (error? : Option StoreError) : site.Heeded site error? :=
  ⟨[], [], by simp, by simp, .nothing _ _⟩

theorem Passes.heeded {events : List Event} {sessions : List Session}
    {connections : List Connection} (passes : site.Passes later events sessions connections)
    (heeds : Heeds later.log.length events [] error?) : site.Heeded later error? :=
  ⟨events, [], passes.log, by simp [passes.breaks], heeds⟩

end Site

theorem Heeds.last {total number : Nat} {call : Call} (failed? : Option CallError) :
    Heeds total [⟨number, call, failed?⟩] [] (failed?.map .transport) := by
  refine .single fun error failed _ => ?_
  change failed? = some error at failed
  rw [failed]
  rfl

theorem failure?_resultOf (failed? : Option CallError) :
    failure? (resultOf failed?) = failed?.map .transport := by
  cases failed? <;> rfl

theorem close_heeded (id : ConnectionId) (site : Site) :
    site.Heeded (id.close site).2 (failure? (id.close site).1) := by
  cases slot : slotIn site.connections id with
  | none =>
    rw [close_of_empty slot]
    exact .refl site _
  | some session =>
    obtain ⟨failed?, result, passes⟩ := close_passes slot
    rw [result, failure?_resultOf]
    exact passes.heeded (.last failed?)

theorem connect_heeded (settings : Settings) (site : Site) :
    site.Heeded (ConnectionId.connect settings site).2
      (failure? (ConnectionId.connect settings site).1) := by
  rcases connect_passes settings site with
    ⟨error, unchanged⟩ | ⟨-, ⟨error, result, passes⟩ | ⟨result, passes⟩⟩
  · rw [unchanged]
    exact .refl site _
  · rw [result]
    exact passes.heeded (.last (some error))
  · rw [result]
    exact passes.heeded (.last none)

theorem reestablish_heeded (id : ConnectionId) (site : Site) :
    site.Heeded (id.reestablish site).2 (failure? (id.reestablish site).1) := by
  rcases reestablish_passes id site with ⟨error, result, passes⟩ | ⟨closing, passes, closes⟩
  · rw [result]
    exact passes.heeded (.last (some error))
  · have begins : Heeds 0 [site.beginning (settingsIn site.connections id) none] [] none :=
      .last none
    refine passes.heeded (begins.append ?_)
    cases slot : slotIn site.connections id with
    | none =>
      rw [slot] at closes
      obtain ⟨rfl, -⟩ := closes
      exact .nothing _ _
    | some previous =>
      rw [slot] at closes
      obtain ⟨failed?, rfl, result⟩ := closes
      rw [result, failure?_resultOf]
      exact .last failed?

theorem Request.run_of_not_remote {request : Request} (works : request.forSession = true)
    (idle : request.isRemote = false) (site : Site) : request.run site = (none, site) := by
  cases request with
  | command bucket asked =>
    cases asked with
    | list start limit? =>
      rcases limit? with _ | _ | limit
      · cases idle
      · rfl
      · cases idle
    | _ => cases idle
  | connect | close | reestablish => cases works
  | _ => cases idle

theorem Request.run_heeded (request : Request) (site : Site) :
    site.Heeded (request.run site).2 (request.run site).1 := by
  cases made : request.connection? with
  | none =>
    cases request with
    | connect settings => exact connect_heeded settings site
    | _ => cases made
  | some id =>
    cases works : request.forSession with
    | true =>
      cases slot : slotIn site.connections id with
      | some session => exact (Request.run_worked works made slot).heeded
      | none =>
        cases remote : request.isRemote with
        | true =>
          rw [Request.run_of_empty remote made slot]
          exact .refl site _
        | false =>
          rw [Request.run_of_not_remote works remote]
          exact .refl site _
    | false =>
      cases request with
      | close _ => exact close_heeded _ site
      | reestablish _ => exact reestablish_heeded _ site
      | connect _ => cases made
      | _ => cases works

def Listing.stepError? (step : Option (Except StoreError String × Listing)) : Option StoreError :=
  step.bind fun answer => failure? answer.1

theorem Listing.next?_heeded (listing : Listing) (site : Site) :
    site.Heeded (listing.next? site).2 (stepError? (listing.next? site).1) ∧
      ∀ error later, (listing.next? site).1 = some (.error error, later) → later = .finished := by
  have working : ∀ session, listing.Uses site.connections session →
      site.Heeded (listing.next? site).2 (stepError? (listing.next? site).1) ∧
      ∀ error later, (listing.next? site).1 = some (.error error, later) → later = .finished := by
    intro session uses
    obtain ⟨error?, worked, tells⟩ := (listing_reports listing uses).run site rfl
    rcases step : (listing.next? site).1 with _ | ⟨error | key, later⟩ <;> rw [step] at tells
    · cases tells
      exact ⟨worked.heeded, fun _ _ eq => nomatch eq⟩
    · obtain ⟨rfl, rfl⟩ := tells
      refine ⟨worked.heeded, fun _ _ eq => ?_⟩
      cases eq
      rfl
    · obtain ⟨rfl, -⟩ := tells
      exact ⟨worked.heeded, fun _ _ eq => nomatch eq⟩
  rcases listing with ⟨⟨id, name⟩, start⟩ | ⟨start, walk, ready⟩ | _
  · cases slot : slotIn site.connections id with
    | some session => exact working session slot
    | none =>
      rw [Shut.listing start slot]
      refine ⟨.refl site _, fun _ _ eq => ?_⟩
      cases eq
      rfl
  · exact working walk.session rfl
  · exact working ⟨0, ""⟩ trivial

/-- A call that fails with kind `other`, and a stream that breaks off, end the request with that
error and nothing else is called; so it is for every step of a listing, which is finished then. -/
theorem unclassified_failure_ends_request :
    (∀ (request : Request) (site : Site),
      site.Heeded (request.run site).2 (request.run site).1) ∧
    ∀ (listing : Listing) (site : Site),
      site.Heeded (listing.next? site).2 (Listing.stepError? (listing.next? site).1) ∧
        ∀ error later, (listing.next? site).1 = some (.error error, later) → later = .finished :=
  ⟨Request.run_heeded, Listing.next?_heeded⟩

theorem refused_removal_ends_deletion :
    let request := Request.command ⟨⟨0⟩, "b"⟩ (.delete "k" true)
    let site := { Site.connected "/" (SortedMap.empty.insert ["b"] .directory) with
      callRules := [{ occasion := .removeFile, effect := ⟨.other, "lost"⟩ }] }
    let error : CallError := ⟨.other, Bucket.payloadPath ⟨⟨0⟩, "b"⟩ "k", "lost"⟩
    (request.run site).1 = some (.transport error) ∧
      (request.run site).2.log.map Event.failure? = [some error] ∧
      site.Heeded (request.run site).2 (request.run site).1 := by
  intro request site error
  have failed : (request.run site).1 = some (.transport error) := by decide +kernel
  have noted : (request.run site).2.log.map Event.failure? = [some error] := by decide +kernel
  exact ⟨failed, noted, unclassified_failure_ends_request.1 request site⟩

end TreeStore
