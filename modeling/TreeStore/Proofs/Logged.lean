import TreeStore.Proofs.Calm
import TreeStore.Proofs.Sessions
/-!
What an action does and what it notes, told together. `Logs` says of an action how it ends and which
events it adds to the log, and is proved like `Ends`, by taking the action apart at its binds; a
single call notes itself. `Plays` is the case of one answer, one tree and one list of events.
-/
namespace TreeStore

/-- The action, begun in a scene with a tree, stays in the scene, ends as said and adds these events
to the log. -/
structure Logs {α : Type} (scene : Scene) (tree : Tree) (action : Action α)
    (ends : α → Tree → List Event → Prop) : Prop where
  run : ∀ site, scene.holds site → site.disk = tree → scene.holds (action site).2 ∧
    ∃ events, (action site).2.log = site.log ++ events ∧
      ends (action site).1 (action site).2.disk events

def Call.noted {α : Type} (number : Nat) (call : Call) : Except CallError α → Event
  | .ok _ => ⟨number, call, none⟩
  | .error error => ⟨number, call, some error⟩

def Single {α : Type} (number : Nat) (call : Call) (action : Action (Except CallError α)) : Prop :=
  ∀ site, (action site).2.log = site.log ++ [call.noted number (action site).1]

def Silent {α : Type} (action : Action α) : Prop := ∀ site, (action site).2.log = site.log

namespace Logs

variable {α β : Type} {scene : Scene} {tree : Tree}

theorem mono {action : Action α} {ends ends' : α → Tree → List Event → Prop}
    (h : Logs scene tree action ends)
    (weaker : ∀ a tree' events, ends a tree' events → ends' a tree' events) :
    Logs scene tree action ends' := by
  refine ⟨fun site start same => ?_⟩
  obtain ⟨held, events, log, done⟩ := h.run site start same
  exact ⟨held, events, log, weaker _ _ _ done⟩

theorem ends {action : Action α} {ends : α → Tree → List Event → Prop}
    (h : Logs scene tree action ends) :
    Ends scene tree action fun a tree' => ∃ events, ends a tree' events := by
  refine ⟨fun site start same => ?_⟩
  obtain ⟨held, events, -, done⟩ := h.run site start same
  exact ⟨held, events, done⟩

theorem single {number : Nat} {call : Call} {action : Action (Except CallError α)}
    {ends : Except CallError α → Tree → Prop} (h : Ends scene tree action ends)
    (once : Single number call action) : Logs scene tree action fun answer tree' events =>
      ends answer tree' ∧ events = [call.noted number answer] := by
  refine ⟨fun site start same => ?_⟩
  obtain ⟨held, done⟩ := h.run site start same
  exact ⟨held, _, once site, done, rfl⟩

theorem silent {action : Action α} {ends : α → Tree → Prop} (h : Ends scene tree action ends)
    (quiet : Silent action) :
    Logs scene tree action fun a tree' events => ends a tree' ∧ events = [] := by
  refine ⟨fun site start same => ?_⟩
  obtain ⟨held, done⟩ := h.run site start same
  exact ⟨held, [], by rw [quiet site, List.append_nil], done, rfl⟩

theorem pure {ends : α → Tree → List Event → Prop} {a : α} (h : ends a tree []) :
    Logs scene tree (Pure.pure a : Action α) ends :=
  ⟨fun site start same => ⟨start, [], (List.append_nil site.log).symm, same ▸ h⟩⟩

theorem bind {action : Action α} {next : α → Action β} {middle : α → Tree → List Event → Prop}
    {ends : β → Tree → List Event → Prop} (first : Logs scene tree action middle)
    (rest : ∀ a tree' events, middle a tree' events → Logs scene tree' (next a)
      fun b tree'' events' => ends b tree'' (events ++ events')) :
    Logs scene tree (action >>= next) ends := by
  refine ⟨fun site start same => ?_⟩
  obtain ⟨held, events, log, done⟩ := first.run site start same
  obtain ⟨held', events', log', done'⟩ := (rest _ _ _ done).run _ held rfl
  exact ⟨held', events ++ events', by rw [← List.append_assoc, ← log]; exact log', done'⟩

theorem ok {ends : Except StoreError α → Tree → List Event → Prop} {a : α}
    (h : ends (.ok a) tree []) : Logs scene tree (Pure.pure a : Operation α) ends :=
  Logs.pure h

theorem throw {ends : Except StoreError α → Tree → List Event → Prop} {error : StoreError}
    (h : ends (.error error) tree []) :
    Logs scene tree (MonadExcept.throw error : Operation α) ends :=
  Logs.pure h

theorem andThen {operation : Operation α} {next : α → Operation β}
    {middle : Except StoreError α → Tree → List Event → Prop}
    {ends : Except StoreError β → Tree → List Event → Prop}
    (first : Logs scene tree operation middle)
    (rest : ∀ a tree' events, middle (.ok a) tree' events → Logs scene tree' (next a)
      fun b tree'' events' => ends b tree'' (events ++ events'))
    (fails : ∀ error tree' events, middle (.error error) tree' events →
      ends (.error error) tree' events) :
    Logs scene tree (operation >>= next : Operation β) ends := by
  rw [Operation.bind_eq]
  refine Logs.bind first fun answer tree' events done => ?_
  cases answer with
  | ok a => exact rest a tree' events done
  | error error => exact Logs.pure (by rw [List.append_nil]; exact fails error tree' events done)

theorem lifted {action : Action α} {next : α → Operation β} {middle : α → Tree → List Event → Prop}
    {ends : Except StoreError β → Tree → List Event → Prop} (first : Logs scene tree action middle)
    (rest : ∀ a tree' events, middle a tree' events → Logs scene tree' (next a)
      fun b tree'' events' => ends b tree'' (events ++ events')) :
    Logs scene tree (liftM action >>= next : Operation β) ends :=
  ⟨(Logs.bind (β := Except StoreError β) first rest).run⟩

theorem live {id : ConnectionId} {session : Session} (shows : scene.Shows id (some session))
    {next : Session → Operation α} {ends : Except StoreError α → Tree → List Event → Prop}
    (rest : Logs scene tree (next session) ends) :
    Logs scene tree (id.session >>= next : Operation α) ends := by
  refine ⟨fun site start same => ?_⟩
  have found : (id.session >>= next : Operation α) site = next session site := by
    have slot : slotIn site.connections id = some session := shows site start
    rw [session_bind, slot]
  rw [found]
  exact rest.run site start same

end Logs

section Calls

variable {α : Type} (session : Session) (path : String)

theorem perform_single (number : Nat) (call : Call) (act : Tree → Except CallError (α × Tree)) :
    Single number call (Site.perform number call act) := by
  intro site
  cases eq : site.outcome call act with
  | ok answer => rw [Site.perform_of_ok eq]; rfl
  | error error => rw [Site.perform_of_error eq]; rfl

theorem stat_single : Single session.number (.stat path) (session.stat path) := perform_single _ _ _

theorem list_single : Single session.number (.list path) (session.list path) :=
  fun site => perform_single session.number (.list path) _ site

theorem makeDirectory_single :
    Single session.number (.makeDirectory path) (session.makeDirectory path) := perform_single _ _ _

theorem removeDirectory_single :
    Single session.number (.removeDirectory path) (session.removeDirectory path) :=
  perform_single _ _ _

theorem removeFile_single : Single session.number (.removeFile path) (session.removeFile path) :=
  perform_single _ _ _

theorem rename_single (target : String) :
    Single session.number (.rename path target) (session.rename path target) := perform_single _ _ _

theorem Single.followed {number : Nat} {call : Call} {action : Action (Except CallError α)}
    {β : Type} {next : Except CallError α → Action (Except CallError β)}
    (once : Single number call action)
    (failed : ∀ error, next (.error error) = pure (.error error))
    (kept : ∀ value site, (next (.ok value) site).2.log = Site.log site ∧
      ∃ value', (next (.ok value) site).1 = .ok value') :
    Single number call (action >>= next) := by
  intro site
  show (next (action site).1 (action site).2).2.log = site.log ++
    [call.noted number (next (action site).1 (action site).2).1]
  have log := once site
  cases eq : (action site).1 with
  | error error =>
    rw [failed]
    rw [eq] at log
    exact log
  | ok value =>
    obtain ⟨same, value', eq'⟩ := kept value (action site).2
    rw [same, eq', log, eq]
    rfl

theorem openRead_single :
    Single session.number (.openFile .read path) (session.openRead path) :=
  (perform_single _ _ _).followed (fun _ => rfl) fun _ _ => ⟨rfl, _, rfl⟩

theorem openWrite_single :
    Single session.number (.openFile .write path) (session.openWrite path) :=
  (perform_single _ _ _).followed (fun _ => rfl) fun _ _ => ⟨rfl, _, rfl⟩

theorem copy_silent (writer : Session.Writer) (source : Source) : Silent (writer.copy source) := by
  intro site
  dsimp only [Session.Writer.copy]
  split <;> rfl

theorem shutdown_silent (writer : Session.Writer) : Silent writer.shutdown := by
  intro site
  unfold Session.Writer.shutdown
  split <;> rfl

theorem format_silent (bucket : Bucket) : Silent bucket.format := fun _ => rfl

theorem visitBound_silent : Silent Site.visitBound := fun _ => rfl

end Calls

abbrev Plays {α : Type} (scene : Scene) (tree : Tree) (action : Action α) (answer : α)
    (tree' : Tree) (noted : List Event → Prop) : Prop :=
  Logs scene tree action fun result later events => (result = answer ∧ later = tree') ∧ noted events

namespace Plays

variable {α β : Type} {scene : Scene} {tree tree' : Tree} {noted : List Event → Prop}

theorem pure {a : α} (none : noted []) : Plays scene tree (Pure.pure a : Action α) a tree noted :=
  Logs.pure ⟨⟨rfl, rfl⟩, none⟩

theorem single {number : Nat} {call : Call} {action : Action (Except CallError α)}
    {answer : Except CallError α} (runs : Runs scene tree action answer tree')
    (once : Single number call action) (h : noted [call.noted number answer]) :
    Plays scene tree action answer tree' noted := by
  refine (Logs.single runs once).mono fun result later events ⟨⟨eq, same⟩, made⟩ => ?_
  subst eq same made
  exact ⟨⟨rfl, rfl⟩, h⟩

theorem silent {action : Action α} {answer : α} (runs : Runs scene tree action answer tree')
    (quiet : Silent action) (h : noted []) : Plays scene tree action answer tree' noted := by
  refine (Logs.silent runs quiet).mono fun result later events ⟨ends, made⟩ => ⟨ends, ?_⟩
  rw [made]
  exact h

theorem bind {action : Action α} {next : α → Action β} {a : α}
    {ends : β → Tree → List Event → Prop} (first : Plays scene tree action a tree' noted)
    (rest : ∀ events, noted events → Logs scene tree' (next a)
      fun b later events' => ends b later (events ++ events')) :
    Logs scene tree (action >>= next) ends := by
  refine Logs.bind first fun result later events ⟨⟨eq, same⟩, made⟩ => ?_
  subst eq same
  exact rest events made

variable {operation : Operation α} {next : α → Operation β}
variable {ends : Except StoreError β → Tree → List Event → Prop}

theorem ok {a : α} (none : noted []) :
    Plays scene tree (Pure.pure a : Operation α) (.ok a) tree noted :=
  pure none

theorem andThen {a : α} (first : Plays scene tree operation (.ok a) tree' noted)
    (rest : ∀ events, noted events → Logs scene tree' (next a)
      fun b later events' => ends b later (events ++ events')) :
    Logs scene tree (operation >>= next : Operation β) ends := by
  refine Logs.andThen first (fun value later events ⟨⟨eq, same⟩, made⟩ => ?_)
    fun _ _ _ ⟨⟨eq, _⟩, _⟩ => nomatch eq
  cases eq
  subst same
  exact rest events made

theorem lifted {action : Action α} {a : α} (first : Plays scene tree action a tree' noted)
    (rest : ∀ events, noted events → Logs scene tree' (next a)
      fun b later events' => ends b later (events ++ events')) :
    Logs scene tree (liftM action >>= next : Operation β) ends := by
  refine Logs.lifted first fun result later events ⟨⟨eq, same⟩, made⟩ => ?_
  subst eq same
  exact rest events made

theorem transported {call : Action (Except CallError α)} {a : α}
    (first : Plays scene tree call (.ok a) tree' noted)
    (rest : ∀ events, noted events → Logs scene tree' (next a)
      fun b later events' => ends b later (events ++ events')) :
    Logs scene tree (liftM call >>= fun answer => Operation.transport answer >>= next :
      Operation β) ends :=
  lifted first fun events made => ⟨(rest events made).run⟩

theorem refused {call : Action (Except CallError α)} {error : CallError}
    (first : Plays scene tree call (.error error) tree' noted)
    (h : ∀ events, noted events → ends (.error (.transport error)) tree' events) :
    Logs scene tree (liftM call >>= fun answer => Operation.transport answer >>= next :
      Operation β) ends := by
  refine lifted first fun events made => ?_
  have thrown : Logs scene tree' (MonadExcept.throw (.transport error) : Operation β)
      fun b later events' => ends b later (events ++ events') :=
    .throw (by rw [List.append_nil]; exact h events made)
  exact ⟨thrown.run⟩

theorem streamed {path : String} {stream : Action (Except IoError α)} {a : α}
    (first : Plays scene tree stream (.ok a) tree' noted)
    (rest : ∀ events, noted events → Logs scene tree' (next a)
      fun b later events' => ends b later (events ++ events')) :
    Logs scene tree (liftM stream >>= fun answer => Operation.streamed path answer >>= next :
      Operation β) ends :=
  lifted first fun events made => ⟨(rest events made).run⟩

end Plays

section Looking

variable {scene : Scene} {tree : Tree} {id : ConnectionId} {session : Session} {path : String}
variable (quiet : scene.Quiet) (shows : scene.Shows id (some session))

include quiet shows

theorem contains_plays_of_find {place : Location} {node : Node}
    (found : Disk.find tree (session.resolve path) = .ok (place, node)) :
    Plays scene tree (id.contains path) (.ok true) tree
      (· = [⟨session.number, .stat path, none⟩]) := by
  have stated : Plays scene tree (session.stat path) (.ok node) tree
      (· = [⟨session.number, .stat path, none⟩]) :=
    .single (stat_of_find quiet found) (stat_single session path) rfl
  exact .live shows (stated.lifted fun events made => Plays.ok (by rw [made]; rfl))

theorem contains_plays_of_missing
    (missing : Disk.find tree (session.resolve path) = .error (.ofSystem .noEntry)) :
    Plays scene tree (id.contains path) (.ok false) tree
      (· = [⟨session.number, .stat path, some (.ofIo path (.ofSystem .noEntry))⟩]) := by
  have stated : Plays scene tree (session.stat path) (.error (.ofIo path (.ofSystem .noEntry))) tree
      (· = [⟨session.number, .stat path, some (.ofIo path (.ofSystem .noEntry))⟩]) :=
    .single (stat_of_error quiet missing) (stat_single session path) rfl
  exact .live shows (stated.lifted fun events made => Plays.ok (by rw [made]; rfl))

end Looking

end TreeStore
