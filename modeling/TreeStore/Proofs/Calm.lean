import TreeStore.Proofs.Access
/-!
Where no rule makes anything fail. In a calm scene an action runs to one answer and one tree, and
what a call answers is up to the disk alone.
-/
namespace TreeStore

def Scene.calm (id : ConnectionId) (connection : Connection) (order : Disk.Order) : Scene where
  holds site := site.callRules = [] ∧ site.streamRules = [] ∧
    site.connections[id.index]? = some connection ∧ site.order = order
  steady site later follows h := by
    obtain ⟨calls, streams, known, listed⟩ := h
    exact ⟨follows.calls calls, follows.streams streams, by rw [follows.connections, known],
      by rw [follows.order, listed]⟩

theorem Scene.calm_quiet (id : ConnectionId) (connection : Connection) (order : Disk.Order) :
    (Scene.calm id connection order).Quiet := fun _ h => ⟨h.1, h.2.1⟩

theorem Scene.calm_shows (id : ConnectionId) (connection : Connection) (order : Disk.Order) :
    (Scene.calm id connection order).Shows id connection.slot := by
  intro site h
  rw [h.2.2.1]
  rfl

theorem Scene.calm_shows_live {id : ConnectionId} {connection : Connection} {session : Session}
    (live : connection.slot = some session) (order : Disk.Order) :
    (Scene.calm id connection order).Shows id (some session) :=
  live ▸ Scene.calm_shows id connection order

theorem Site.exists_calm {site : Site} {id : ConnectionId} {session : Session}
    (live : (site.connections[id.index]?).bind Connection.slot = some session) :
    ∃ connection : Connection, connection.slot = some session ∧
      (Scene.calm id connection site.order).holds (site.withRules [] []) := by
  obtain ⟨connection, known, slot⟩ := Option.bind_eq_some_iff.1 live
  exact ⟨connection, slot, rfl, rfl, known, rfl⟩

def Scene.ListsBy (scene : Scene) (order : Disk.Order) : Prop :=
  ∀ site, scene.holds site → site.order = order

theorem Scene.calm_listsBy (id : ConnectionId) (connection : Connection) (order : Disk.Order) :
    (Scene.calm id connection order).ListsBy order := fun _ h => h.2.2.2

def Scene.still (order : Disk.Order) : Scene where
  holds site := site.callRules = [] ∧ site.streamRules = [] ∧ site.order = order
  steady site later follows h :=
    ⟨follows.calls h.1, follows.streams h.2.1, by rw [follows.order, h.2.2]⟩

theorem Scene.still_quiet (order : Disk.Order) : (Scene.still order).Quiet :=
  fun _ h => ⟨h.1, h.2.1⟩

theorem Scene.still_listsBy (order : Disk.Order) : (Scene.still order).ListsBy order :=
  fun _ h => h.2.2

/-- The action answers so and leaves this tree. -/
abbrev Runs {α : Type} (scene : Scene) (tree : Tree) (action : Action α) (answer : α)
    (tree' : Tree) : Prop :=
  Ends scene tree action fun result later => result = answer ∧ later = tree'

namespace Runs

variable {α β : Type} {scene : Scene} {tree tree' : Tree}

theorem pure {a : α} : Runs scene tree (Pure.pure a : Action α) a tree := Ends.pure ⟨rfl, rfl⟩

theorem bind {action : Action α} {next : α → Action β} {a : α} {ends : β → Tree → Prop}
    (first : Runs scene tree action a tree') (rest : Ends scene tree' (next a) ends) :
    Ends scene tree (action >>= next) ends := by
  refine Ends.bind first fun result later ⟨eq, same⟩ => ?_
  subst eq same
  exact rest

theorem map {action : Action α} {f : α → β} {a : α} (h : Runs scene tree action a tree') :
    Runs scene tree (f <$> action) (f a) tree' := by
  refine ⟨fun site start same => ?_⟩
  obtain ⟨held, eq, same'⟩ := h.run site start same
  exact ⟨held, congrArg f eq, same'⟩

theorem ok {a : α} : Runs scene tree (Pure.pure a : Operation α) (.ok a) tree := Ends.pure ⟨rfl, rfl⟩

theorem throw {error : StoreError} :
    Runs scene tree (MonadExcept.throw error : Operation α) (.error error) tree :=
  Ends.pure ⟨rfl, rfl⟩

variable {operation : Operation α} {next : α → Operation β}
variable {ends : Except StoreError β → Tree → Prop}

theorem andThen {a : α} (first : Runs scene tree operation (.ok a) tree')
    (rest : Ends scene tree' (next a) ends) :
    Ends scene tree (operation >>= next : Operation β) ends := by
  refine Ends.andThen first (fun value later ⟨eq, same⟩ => ?_) fun _ _ ⟨eq, _⟩ => nomatch eq
  cases eq
  subst same
  exact rest

theorem fails {error : StoreError} (first : Runs scene tree operation (.error error) tree') :
    Runs scene tree (operation >>= next : Operation β) (.error error) tree' := by
  refine Ends.andThen first (fun _ _ ⟨eq, _⟩ => nomatch eq) fun _ _ ⟨eq, same⟩ => ?_
  cases eq
  exact ⟨rfl, same⟩

theorem lifted {action : Action α} {a : α} (first : Runs scene tree action a tree')
    (rest : Ends scene tree' (next a) ends) :
    Ends scene tree (liftM action >>= next : Operation β) ends := by
  refine Ends.lifted first fun value later ⟨eq, same⟩ => ?_
  subst eq same
  exact rest

end Runs

section Calls

variable {α : Type} {scene : Scene} {tree tree' : Tree}

section Quiet

variable (quiet : scene.Quiet) (session : Session) {call : Call}

include quiet

theorem answer_of_ok {act : Tree → Except IoError (α × Tree)} {value : α}
    (h : act tree = .ok (value, tree')) :
    Runs scene tree (session.answer call act) (.ok value) tree' := by
  refine (perform_quiet tree quiet session.number call _).mono fun answer later done => ?_
  rwa [h] at done

theorem answer_of_error {act : Tree → Except IoError (α × Tree)} {error : IoError}
    (h : act tree = .error error) :
    Runs scene tree (session.answer call act) (.error (.ofIo call.errorPath error)) tree := by
  refine (perform_quiet tree quiet session.number call _).mono fun answer later done => ?_
  rwa [h] at done

theorem inspect_of_ok {act : Tree → Except IoError α} {value : α} (h : act tree = .ok value) :
    Runs scene tree (session.inspect call act) (.ok value) tree := by
  apply answer_of_ok quiet session
  rw [h]
  rfl

theorem inspect_of_error {act : Tree → Except IoError α} {error : IoError}
    (h : act tree = .error error) :
    Runs scene tree (session.inspect call act) (.error (.ofIo call.errorPath error)) tree := by
  apply answer_of_error quiet session
  rw [h]
  rfl

theorem change_of_ok {act : Tree → Except IoError Tree} (h : act tree = .ok tree') :
    Runs scene tree (session.change call act) (.ok ()) tree' := by
  apply answer_of_ok quiet session
  rw [h]
  rfl

theorem change_of_error {act : Tree → Except IoError Tree} {error : IoError}
    (h : act tree = .error error) :
    Runs scene tree (session.change call act) (.error (.ofIo call.errorPath error)) tree := by
  apply answer_of_error quiet session
  rw [h]
  rfl

end Quiet

variable {id : ConnectionId} {connection : Connection} {order : Disk.Order} {session : Session}
variable {path : String} {place : Location} {node : Node}

theorem stat_of_find (quiet : scene.Quiet)
    (found : Disk.find tree (session.resolve path) = .ok (place, node)) :
    Runs scene tree (session.stat path) (.ok node) tree := by
  apply inspect_of_ok quiet session
  simp only [Disk.stat, found, bind, Except.bind]
  rfl

theorem stat_of_error (quiet : scene.Quiet) {error : IoError}
    (lost : Disk.find tree (session.resolve path) = .error error) :
    Runs scene tree (session.stat path) (.error (.ofIo path error)) tree := by
  apply inspect_of_error quiet session
  simp only [Disk.stat, lost, bind, Except.bind]

theorem list_of_find (quiet : scene.Quiet) (listsBy : scene.ListsBy order)
    (found : Disk.find tree (session.resolve path) = .ok (place, .directory)) :
    Runs scene tree (session.list path) (.ok (order.entries tree place)) tree := by
  refine (get_ends _ tree).bind fun site later ⟨holds, _, same⟩ => ?_
  subst same
  apply inspect_of_ok quiet session
  have listed : Disk.list later (session.resolve path) = .ok ((later.children place).map
      fun child => ⟨child.1, child.2.isDirectory, child.2.size⟩) := by
    simp only [Disk.list, found, bind, Except.bind]
    rfl
  simp only [listed, listsBy site holds]
  rfl

theorem list_of_error (quiet : scene.Quiet) {error : IoError}
    (failed : Disk.list tree (session.resolve path) = .error error) :
    Runs scene tree (session.list path) (.error (.ofIo path error)) tree := by
  refine (get_ends _ tree).bind fun site later ⟨_, _, same⟩ => ?_
  subst same
  apply inspect_of_error quiet session
  rw [failed]
  rfl

theorem openRead_of_ok (quiet : scene.Quiet) {source : Source}
    (h : Disk.openRead tree (session.resolve path) = .ok source) :
    Runs scene tree (session.openRead path) (.ok source) tree := by
  refine (inspect_of_ok quiet session h).bind ?_
  refine (streamRule_ends scene tree .read path).bind fun cut? later ⟨same, uncut⟩ => ?_
  subst same
  rw [uncut quiet]
  exact Runs.pure

theorem openRead_of_error (quiet : scene.Quiet) {error : IoError}
    (h : Disk.openRead tree (session.resolve path) = .error error) :
    Runs scene tree (session.openRead path) (.error (.ofIo path error)) tree :=
  (inspect_of_error quiet session h).bind Runs.pure

theorem openWrite_of_ok (quiet : scene.Quiet)
    (h : Disk.openWrite tree (session.resolve path) true = .ok (place, tree')) :
    Runs scene tree (session.openWrite path) (.ok ⟨place, path, none, none⟩) tree' := by
  refine (answer_of_ok quiet session h).bind ?_
  refine (streamRule_ends scene tree' .write path).bind fun cut? later ⟨same, uncut⟩ => ?_
  subst same
  rw [uncut quiet]
  refine (streamRule_ends scene later .shutdown path).bind fun cut? later ⟨same, uncut⟩ => ?_
  subst same
  rw [uncut quiet]
  exact Runs.pure

theorem openWrite_of_error (quiet : scene.Quiet) {error : IoError}
    (h : Disk.openWrite tree (session.resolve path) true = .error error) :
    Runs scene tree (session.openWrite path) (.error (.ofIo path error)) tree :=
  (answer_of_error quiet session h).bind Runs.pure

def Disk.Source.answer (source : Source) : Except IoError Nat :=
  match source.failure? with
  | some error => .error error
  | none => .ok source.bytes.length

theorem copy_of_whole {writer : Session.Writer} (uncut : writer.cut? = none) (source : Source) :
    Runs scene tree (writer.copy source) source.answer
      (Disk.append tree writer.location source.bytes) := by
  refine ⟨fun site start same => ?_⟩
  refine ⟨((copy_ends scene tree writer source).run site start same).1, ?_⟩
  subst same
  unfold Session.Writer.copy Disk.Source.answer
  rw [uncut, Disk.Source.through]
  cases source.failure? with
  | none => exact ⟨rfl, rfl⟩
  | some error => exact ⟨rfl, rfl⟩

theorem shutdown_of_whole {writer : Session.Writer} (uncut : writer.shutdown? = none) :
    Runs scene tree writer.shutdown (.ok ()) tree :=
  (shutdown_ends scene tree writer).mono fun _ _ ⟨same, ok⟩ => ⟨ok uncut, same⟩

theorem pour_of_whole (bytes : Bytes) :
    Runs scene tree (Site.pour (.ofBytes bytes) none) (bytes, none) tree :=
  (pour_ends scene tree (.ofBytes bytes) none).mono fun _ _ ⟨same, eq⟩ => ⟨eq, same⟩

variable (shows : scene.Shows id (some session))

include shows

theorem contains_of_find (quiet : scene.Quiet)
    (found : Disk.find tree (session.resolve path) = .ok (place, node)) :
    Runs scene tree (id.contains path) (.ok true) tree :=
  .live shows ((stat_of_find quiet found).lifted Runs.ok)

theorem contains_of_error (quiet : scene.Quiet) {error : IoError}
    (lost : Disk.find tree (session.resolve path) = .error error) :
    Runs scene tree (id.contains path)
      (if error.kind = .notFound then .ok false else .error (.transport (.ofIo path error))) tree := by
  refine .live shows ((stat_of_error quiet lost).lifted ?_)
  obtain ⟨kind, text⟩ := error
  cases kind
  · exact Runs.ok
  all_goals exact Runs.throw

theorem contains_bind_of_error {next : Bool → Operation α} {answer : Except StoreError α}
    (quiet : scene.Quiet) {error : IoError}
    (lost : Disk.find tree (session.resolve path) = .error error)
    (rest : Runs scene tree (next false) answer tree) :
    Runs scene tree (id.contains path >>= next : Operation α) (if error.kind = .notFound then answer
      else .error (.transport (.ofIo path error))) tree := by
  have looked := contains_of_error shows quiet lost
  split at looked
  case isTrue nothing =>
    rw [if_pos nothing]
    exact looked.andThen rest
  case isFalse failure =>
    rw [if_neg failure]
    exact looked.fails

theorem contains_of_missing (quiet : scene.Quiet)
    (missing : Disk.find tree (session.resolve path) = .error (.ofSystem .noEntry)) :
    Runs scene tree (id.contains path) (.ok false) tree :=
  contains_of_error shows quiet missing

end Calls

section Objects

variable {tree : Tree} {id : ConnectionId} {connection : Connection} {order : Disk.Order}
variable {session : Session} {name key : String} {bytes : Bytes}

theorem format_runs : Runs (Scene.calm id connection order) tree (Bucket.format ⟨id, name⟩)
    connection.settings.format tree := by
  refine ⟨fun site start same => ⟨start, ?_, same⟩⟩
  show (((site.connections[id.index]?).map Connection.settings).getD {}).format = _
  rw [start.2.2.1]
  rfl

theorem readRecord_runs (opens : Disk.openRead tree
      (session.resolve (Bucket.recordPath ⟨id, name⟩ key)) = .ok (.ofBytes bytes)) :
    Runs (Scene.calm id connection order) tree (Bucket.readRecord ⟨id, name⟩ session key)
      ((connection.settings.format.decode bytes).mapError fun error =>
        .corruptRecord key error.message) tree := by
  refine (openRead_of_ok (Scene.calm_quiet id connection order) opens).lifted (Runs.andThen .ok ?_)
  refine (pour_of_whole bytes).lifted (format_runs.lifted ?_)
  cases connection.settings.format.decode bytes with
  | ok record => exact Runs.ok
  | error error => exact Runs.throw

theorem openRead_of_nothing {path : String} {scene : Scene} (quiet : scene.Quiet)
    (nothing : Disk.find tree (session.resolve path) = .error (.ofSystem .noEntry)) :
    Runs scene tree (session.openRead path) (.error (.ofIo path (.ofSystem .noEntry))) tree := by
  apply openRead_of_error quiet
  simp only [Disk.openRead, nothing, bind, Except.bind]

theorem readRecord_of_nothing (nothing : Disk.find tree
      (session.resolve (Bucket.path ⟨id, name⟩ key .record)) = .error (.ofSystem .noEntry)) :
    Runs (Scene.calm id connection order) tree (Bucket.readRecord ⟨id, name⟩ session key)
      (.error (.keyNotFound key)) tree :=
  (openRead_of_nothing (Scene.calm_quiet id connection order) nothing).lifted
    (Runs.fails .throw)

theorem openPayload_of_nothing (nothing : Disk.find tree
      (session.resolve (Bucket.path ⟨id, name⟩ key .payload)) = .error (.ofSystem .noEntry)) :
    Runs (Scene.calm id connection order) tree (Bucket.openPayload ⟨id, name⟩ session key)
      (.error (.keyNotFound key)) tree :=
  (openRead_of_nothing (Scene.calm_quiet id connection order) nothing).lifted Runs.throw

theorem fetch_of_nothing (live : connection.slot = some session) (nothing : Disk.find tree
      (session.resolve (Bucket.path ⟨id, name⟩ key .payload)) = .error (.ofSystem .noEntry))
    (sink : Sink) :
    Runs (Scene.calm id connection order) tree (Bucket.fetch ⟨id, name⟩ key sink)
      (.error (.keyNotFound key), sink.held) tree := by
  have opens : Runs (Scene.calm id connection order) tree (do
      let session ← Bucket.session ⟨id, name⟩
      return (session, ← Bucket.openPayload ⟨id, name⟩ session key) : Operation (Session × Source))
      (.error (.keyNotFound key)) tree :=
    .live (Scene.calm_shows_live live order) (openPayload_of_nothing nothing).fails
  exact opens.bind Runs.pure

end Objects

end TreeStore
