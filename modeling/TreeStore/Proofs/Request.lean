import TreeStore.Proofs.Command
/-!
Everything that can be asked of a connection or of a bucket, and what an error says about the disk:
only a failed call leaves a change behind, and the refusal to delete a bucket that has filled again
after it was emptied (`typed_error_keeps_disk`).
-/
namespace TreeStore

open Footprint

inductive Request where
  | connect (settings : Settings)
  | close (id : ConnectionId)
  | reestablish (id : ConnectionId)
  | contains (id : ConnectionId) (path : String)
  | createBucket (id : ConnectionId) (name : String)
  | openBucket (id : ConnectionId) (name : String)
  | deleteBucket (id : ConnectionId) (name : String) (recursive : Bool)
  | makeDirectories (id : ConnectionId) (path : String)
  | purge (id : ConnectionId) (path : String)
  | command (bucket : Bucket) (asked : Command)

def Request.run : Request → Action (Option StoreError)
  | connect settings => failure? <$> (ConnectionId.connect settings).run
  | close id => failure? <$> id.close.run
  | reestablish id => failure? <$> id.reestablish.run
  | contains id path => failure? <$> (id.contains path).run
  | createBucket id name => failure? <$> (id.createBucket name).run
  | openBucket id name => failure? <$> (id.openBucket name).run
  | deleteBucket id name recursive => failure? <$> (id.deleteBucket name recursive).run
  | makeDirectories id path => failure? <$> (id.makeDirectories path).run
  | purge id path => failure? <$> (id.purge path).run
  | command bucket asked => Answer.error? <$> asked.run bucket

def Scene.any : Scene where
  holds _ := True
  steady _ _ _ h := h

section Connections

variable {tree : Tree}

theorem close_call_ends (scene : Scene) (session : Session) :
    Ends scene tree session.close fun _ tree' => tree' = tree :=
  (inspect_ends ..).mono fun _ _ done => done.1

theorem setSlot_ends (id : ConnectionId) (slot : Option Session) :
    Ends Scene.any tree (id.setSlot slot) fun _ tree' => tree' = tree :=
  ⟨fun _ _ same => ⟨trivial, same⟩⟩

theorem establish_ends (settings : Settings) :
    Ends Scene.any tree (Session.establish settings) fun _ tree' => tree' = tree := by
  refine (get_ends Scene.any tree).bind fun site tree' ⟨_, _, same⟩ => ?_
  subst same
  refine (perform_ends ..).bind fun answer tree'' done => ?_
  have same : tree'' = tree' := by
    rcases done with ⟨_, _, same⟩ | ⟨_, _, done⟩
    · exact same
    · cases checked : Session.checkRoot tree' (Session.rootFor site.base settings) <;>
        simp [checked, Except.map] at done
      exact done.symm
  subst same
  cases answer with
  | error => exact .pure rfl
  | ok =>
    exact ⟨fun _ _ same => ⟨trivial, same⟩⟩

theorem connect_ends (settings : Settings) :
    Ends Scene.any tree (ConnectionId.connect settings) fun _ tree' => tree' = tree := by
  unfold ConnectionId.connect
  split
  · exact .throw rfl
  · refine (establish_ends settings).lifted fun answer tree' same => ?_
    refine (transport_ends ..).andThen (fun session _ still => ?_) fun _ _ still => still.1.trans same
    exact ⟨fun _ _ eq => ⟨trivial, eq.trans (still.1.trans same)⟩⟩

theorem close_ends (id : ConnectionId) :
    Ends Scene.any tree id.close fun _ tree' => tree' = tree := by
  refine (slot?_still id).lifted fun slot? tree' same => ?_
  cases slot? with
  | none => exact .ok same
  | some session =>
    refine (setSlot_ends id none).lifted fun _ _ same' => ?_
    refine (close_call_ends Scene.any session).lifted fun answer _ same'' => ?_
    refine (transport_ends ..).mono fun _ _ still => ?_
    exact still.1.trans (same''.trans (same'.trans same))

theorem reestablish_ends (id : ConnectionId) :
    Ends Scene.any tree id.reestablish fun _ tree' => tree' = tree := by
  refine (settings_ends Scene.any tree id).lifted fun settings _ same => ?_
  refine (establish_ends settings).transported (fun session _ same' => ?_)
    fun _ _ same' => same'.trans same
  refine (slot?_still id).lifted fun slot? _ same'' => ?_
  refine (setSlot_ends id (some session)).lifted fun _ _ set => ?_
  have same := set.trans (same''.trans (same'.trans same))
  cases slot? with
  | none => exact .ok same
  | some previous =>
    refine (close_call_ends Scene.any previous).lifted fun answer _ closed => ?_
    exact (transport_ends ..).mono fun _ _ still => still.1.trans (closed.trans same)

end Connections

section Closed

variable {scene : Scene} {tree : Tree} {id : ConnectionId} (shut : scene.Shows id none)

include shut

theorem contains_closed (path : String) :
    Ends scene tree (id.contains path) fun answer tree' =>
      tree' = tree ∧ answer = .error .disconnected := .closed shut

theorem contains_bind_closed {α : Type} (path : String) (next : Bool → Operation α) :
    Ends scene tree (id.contains path >>= next : Operation α) fun _ tree' => tree' = tree :=
  (contains_closed shut path).andThen (fun _ _ done => nomatch done.2) fun _ _ done => done.1

theorem session_bind_closed {α : Type} (next : Session → Operation α) :
    Ends scene tree (id.session >>= next : Operation α) fun _ tree' => tree' = tree :=
  (Ends.closed shut).mono fun _ _ done => done.1

theorem updateRecord_closed (name key : String) (record : Record) :
    Ends scene tree (Bucket.updateRecord ⟨id, name⟩ key record) fun _ tree' => tree' = tree :=
  session_bind_closed shut _

theorem copy_closed (name source target : String) (record? : Option Record) :
    Ends scene tree (Bucket.copy ⟨id, name⟩ source target record?) fun _ tree' => tree' = tree := by
  unfold Bucket.copy
  split
  · cases record? with
    | some record => exact updateRecord_closed shut name source record
    | none => exact contains_bind_closed shut _ _
  · exact session_bind_closed shut _

theorem command_closed (name : String) (command : Command) :
    Ends scene tree (command.run ⟨id, name⟩) fun _ tree' => tree' = tree := by
  cases command with
  | store => exact .map (session_bind_closed shut _)
  | delete => exact .map (session_bind_closed shut _)
  | rename => exact .map (session_bind_closed shut _)
  | copy source target record? => exact .map (copy_closed shut name source target record?)
  | updateRecord key record => exact .map (updateRecord_closed shut name key record)
  | clear => exact .map (session_bind_closed shut _)
  | _ => exact Command.looks_still _ rfl

end Closed

section Buckets

variable {scene : Scene} {tree : Tree} {id : ConnectionId} {session : Session}

theorem openBucket_ends (name : String) :
    Ends scene tree (id.openBucket name) fun _ tree' => tree' = tree := by
  refine (contains_still id name).still_bind fun found => ?_
  split
  · exact .ok rfl
  · exact .throw rfl

variable (shows : scene.Shows id (some session))

include shows

theorem createBucket_ends {footprint : Footprint} (name : String)
    (may : Disk.Reaches session name →
      footprint.allowed (.makeDirectory (Disk.locate (session.resolve name)))) :
    Ends scene tree (id.createBucket name) (footprint.Atomic tree) := by
  refine Ends.look (contains_still id name) fun found => ?_
  split
  · exact .throw (.inl ⟨⟨_, rfl⟩, rfl⟩)
  · refine .live shows ((makeDirectory_ends scene tree session name may).lifted
      fun answer tree' done => ?_)
    cases answer with
    | ok => exact .ok (.inr (.ok done.of_ok _))
    | error error => exact .throw (.inl ⟨⟨_, rfl⟩, done.of_error⟩)

def Footprint.Deletes (footprint : Footprint) (name : String) (recursive : Bool) (tree : Tree)
    (answer : Except StoreError Unit) (tree' : Tree) : Prop :=
  footprint.Atomic tree answer tree' ∨
    recursive = true ∧ answer = .error (.notEmpty name) ∧ footprint.Covers tree tree'

theorem removeBucket_ends {footprint : Footprint} {name : String} {recursive : Bool}
    {start : Tree} {last : Except CallError Unit → Operation Unit}
    (top : footprint.allowed (.removeDirectory (Disk.locate (session.resolve name))))
    (covers : footprint.Covers start tree) (kept : recursive = false → tree = start)
    (ok : last (.ok ()) = pure ())
    (error : ∀ error, last (.error error) =
      throw (if error.kind = .notEmpty then .notEmpty name else .transport error)) :
    Ends scene tree
      (id.session >>= fun session => liftM (session.removeDirectory name) >>= last :
        Operation Unit)
      (footprint.Deletes name recursive start) := by
  refine .live shows ((removeDirectory_ends scene tree session name fun _ => top).lifted
    fun answer later done => ?_)
  cases answer with
  | ok =>
    rw [ok]
    exact .ok (.inl (.inr (.ok (covers.trans done.of_ok) ())))
  | error failed =>
    have same := done.of_error
    subst same
    rw [error]
    split
    · refine .throw ?_
      cases recursive with
      | true => exact .inr ⟨rfl, rfl, covers⟩
      | false => exact .inl (.inl ⟨⟨_, rfl⟩, kept rfl⟩)
    · exact .throw (.inl (.inr (.failed covers failed)))

theorem deleteBucket_ends {footprint : Footprint} (name : String) (recursive : Bool)
    (below : RemovesBelow footprint session name)
    (top : footprint.allowed (.removeDirectory (Disk.locate (session.resolve name)))) :
    Ends scene tree (id.deleteBucket name recursive)
      (footprint.Deletes name recursive tree) := by
  unfold ConnectionId.deleteBucket
  refine (contains_still id name).andThen (fun found later same => ?_)
    fun error _ same => .inl (.inl ⟨⟨error, rfl⟩, same⟩)
  subst same
  cases found with
  | false => exact .throw (.inl (.inl ⟨⟨_, rfl⟩, rfl⟩))
  | true =>
    cases recursive with
    | false =>
      exact removeBucket_ends shows top (.refl later) (fun _ => rfl) rfl fun _ => rfl
    | true =>
      refine (purge_ends shows name later below).andThen (fun _ last done => ?_)
        fun error last done => .inl done.error
      exact removeBucket_ends shows top done.covers (fun eq => nomatch eq) rfl fun _ => rfl

end Buckets

/-- The errors that can stand beside a change. -/
def Request.MayLeave : Request → StoreError → Prop
  | .deleteBucket _ name true, error => error.IsTransport ∨ error = .notEmpty name
  | _, error => error.IsTransport

def Request.Settles (request : Request) (tree : Tree) (error? : Option StoreError)
    (tree' : Tree) : Prop :=
  ∀ error, error? = some error → ¬ request.MayLeave error → tree' = tree

theorem Request.mayLeave_of_transport (request : Request) {error : StoreError}
    (transport : error.IsTransport) : request.MayLeave error := by
  unfold MayLeave
  split
  · exact .inl transport
  · exact transport

section Settles

variable {scene : Scene} {tree : Tree} {α : Type} {request : Request}

theorem Ends.settles_of_still {action : Action (Option StoreError)}
    (h : Ends scene tree action fun _ tree' => tree' = tree) :
    Ends scene tree action (request.Settles tree) :=
  h.mono fun _ _ same _ _ _ => same

theorem Footprint.Atomic.settles {footprint : Footprint} {answer : Except StoreError α}
    {tree' : Tree} (h : footprint.Atomic tree answer tree') :
    request.Settles tree (failure? answer) tree' := by
  intro error failed typed
  rcases h with ⟨-, same⟩ | done
  · exact same
  · cases answer with
    | ok => cases failed
    | error other =>
      refine absurd (request.mayLeave_of_transport ?_) typed
      exact Option.some.inj failed ▸ done.fails other rfl

theorem Ends.settles {operation : Operation α} {footprint : Footprint}
    (h : Ends scene tree operation (footprint.Atomic tree)) :
    Ends scene tree (failure? <$> operation.run) (request.Settles tree) :=
  .map (h.mono fun _ _ done => done.settles)

theorem boundless_serves (session : Session) (bucket : Bucket) (command : Command) :
    boundless.Serves session bucket command :=
  ⟨fun _ _ => trivial, fun _ _ _ _ _ never => never.elim⟩

theorem deleteBucket_settles {id : ConnectionId} {session : Session}
    (shows : scene.Shows id (some session)) (name : String) (recursive : Bool) :
    Ends scene tree (failure? <$> (id.deleteBucket name recursive).run)
      ((Request.deleteBucket id name recursive).Settles tree) := by
  have deleted : Ends scene tree (id.deleteBucket name recursive)
      (boundless.Deletes name recursive tree) :=
    deleteBucket_ends shows name recursive (fun _ _ _ => ⟨trivial, trivial⟩) trivial
  refine .map (deleted.mono fun answer tree' done => ?_)
  rcases done with done | ⟨rfl, rfl, -⟩
  · exact done.settles
  · intro error failed typed
    cases failed
    exact absurd (.inr rfl) typed

theorem command_settles {bucket : Bucket} {session : Session}
    (shows : scene.Shows bucket.connection (some session)) (asked : Command) :
    Ends scene tree (Answer.error? <$> asked.run bucket)
      ((Request.command bucket asked).Settles tree) := by
  refine .map ((asked.run_ends shows tree (boundless_serves session bucket asked)).mono
    fun answer tree' done error failed typed => ?_)
  rcases done with ⟨-, same⟩ | ⟨-, transport⟩
  · exact same
  · exact absurd (transport error failed) typed

theorem Ends.of_slots {action : Action α} {ends : α → Tree → Prop} (id : ConnectionId)
    (site : Site) (closed : Ends (Scene.slot id none) site.disk action ends)
    (live : ∀ session, Ends (Scene.slot id (some session)) site.disk action ends) :
    ends (action site).1 (action site).2.disk := by
  cases found : (site.connections[id.index]?).bind Connection.slot with
  | none => exact (closed.run site found rfl).2
  | some session => exact ((live session).run site found rfl).2

end Settles

/-- An error changes nothing, unless it is a failed call, or the refusal to delete a bucket that
was emptied first. -/
theorem typed_error_keeps_disk (request : Request) (site : Site) (error : StoreError)
    (failed : (request.run site).1 = some error) (typed : ¬ request.MayLeave error) :
    (request.run site).2.disk = site.disk := by
  suffices settles : request.Settles site.disk (request.run site).1 (request.run site).2.disk from
    settles error failed typed
  have shut := fun id => Scene.shows_slot id none
  have shows := fun id session => Scene.shows_slot id (some session)
  cases request with
  | connect settings =>
    exact ((Ends.map (connect_ends settings)).settles_of_still.run site trivial rfl).2
  | close id => exact ((Ends.map (close_ends id)).settles_of_still.run site trivial rfl).2
  | reestablish id =>
    exact ((Ends.map (reestablish_ends id)).settles_of_still.run site trivial rfl).2
  | contains id path =>
    have asked : Ends Scene.any site.disk (id.contains path) fun _ tree' => tree' = site.disk :=
      contains_still id path
    exact ((Ends.map asked).settles_of_still.run site trivial rfl).2
  | openBucket id name =>
    have asked : Ends Scene.any site.disk (id.openBucket name) fun _ tree' => tree' = site.disk :=
      openBucket_ends name
    exact ((Ends.map asked).settles_of_still.run site trivial rfl).2
  | createBucket id name =>
    refine Ends.of_slots id site (.settles_of_still (.map ?_)) fun session => ?_
    · exact contains_bind_closed (shut id) name _
    · have made : Ends _ site.disk (id.createBucket name) (boundless.Atomic site.disk) :=
        createBucket_ends (shows id session) name fun _ => trivial
      exact made.settles
  | deleteBucket id name recursive =>
    refine Ends.of_slots id site (.settles_of_still (.map ?_)) fun session => ?_
    · exact contains_bind_closed (shut id) name _
    · exact deleteBucket_settles (shows id session) name recursive
  | makeDirectories id path =>
    refine Ends.of_slots id site (.settles_of_still (.map ?_)) fun session => ?_
    · exact session_bind_closed (shut id) _
    · have made : Ends _ site.disk (id.makeDirectories path) (boundless.Atomic site.disk) :=
        makeDirectories_ends (shows id session) path site.disk fun _ _ _ _ => trivial
      exact made.settles
  | purge id path =>
    refine Ends.of_slots id site (.settles_of_still (.map ?_)) fun session => ?_
    · exact session_bind_closed (shut id) _
    · have purged : Ends _ site.disk (id.purge path) (boundless.Atomic site.disk) :=
        purge_ends (shows id session) path site.disk fun _ _ _ => ⟨trivial, trivial⟩
      exact purged.settles
  | command bucket asked =>
    obtain ⟨id, name⟩ := bucket
    refine Ends.of_slots id site (.settles_of_still (.map ?_)) fun session => ?_
    · exact command_closed (shut id) name asked
    · exact command_settles (shows id session) asked

def Site.connected (root : String) (disk : Tree) : Site where
  base := root
  disk
  sessions := [⟨0, root⟩]
  connections := [⟨{}, some ⟨0, root⟩⟩]

theorem missing_key_keeps_disk :
    let request := Request.command ⟨⟨0⟩, "b"⟩ (.rename "k" "l")
    let site := Site.connected "/" (SortedMap.empty.insert ["b"] .directory)
    (request.run site).1 = some (.keyNotFound "k") ∧ ¬ request.MayLeave (.keyNotFound "k") ∧
      (request.run site).2.disk = site.disk := by
  intro request site
  have failed : (request.run site).1 = some (.keyNotFound "k") := by decide +kernel
  have typed : ¬ request.MayLeave (.keyNotFound "k") := fun ⟨_, eq⟩ => nomatch eq
  exact ⟨failed, typed, typed_error_keeps_disk request site _ failed typed⟩

end TreeStore
