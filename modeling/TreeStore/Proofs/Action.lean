import TreeStore.Connection
import TreeStore.Proofs.Edit
/-!
Reasoning about actions. A `Scene` is what is known of a site and outlasts every call of a session;
`Ends` says how an action that starts in a scene with a given tree ends, and it is proved by taking
the action apart at its binds. The calls of a session come last, under any rules.
-/
namespace TreeStore

structure Site.Follows (later site : Site) : Prop where
  order : later.order = site.order
  connections : later.connections = site.connections
  calls : site.callRules = [] → later.callRules = []
  streams : site.streamRules = [] → later.streamRules = []

structure Scene where
  holds : Site → Prop
  steady : ∀ site later : Site, later.Follows site → holds site → holds later

/-- The action, begun in a scene with a tree, stays in the scene and ends as said. -/
structure Ends {α : Type} (scene : Scene) (tree : Tree) (action : Action α)
    (ends : α → Tree → Prop) : Prop where
  run : ∀ site, scene.holds site → site.disk = tree →
    scene.holds (action site).2 ∧ ends (action site).1 (action site).2.disk

def Outcome {α : Type} (ok : α → Tree → Prop) (fails : StoreError → Tree → Prop) :
    Except StoreError α → Tree → Prop
  | .ok a, tree => ok a tree
  | .error error, tree => fails error tree

theorem Operation.bind_eq {α β : Type} (operation : Operation α) (next : α → Operation β) :
    (operation >>= next : Operation β) = Bind.bind (m := Action) operation fun answer =>
      match answer with
      | .ok a => next a
      | .error error => Pure.pure (.error error) := by
  funext site
  show ExceptT.bindCont next (operation site).1 (operation site).2 = _
  rcases eq : operation site with ⟨_ | _, _⟩ <;> simp [Bind.bind, StateT.bind, eq] <;> rfl

namespace Ends

variable {α β : Type} {scene : Scene} {tree : Tree}

theorem mono {action : Action α} {ends ends' : α → Tree → Prop} (h : Ends scene tree action ends)
    (weaker : ∀ a tree', ends a tree' → ends' a tree') : Ends scene tree action ends' := by
  refine ⟨fun site start same => ?_⟩
  obtain ⟨held, done⟩ := h.run site start same
  exact ⟨held, weaker _ _ done⟩

theorem and {action : Action α} {ends ends' : α → Tree → Prop} (h : Ends scene tree action ends)
    (h' : Ends scene tree action ends') :
    Ends scene tree action fun a tree' => ends a tree' ∧ ends' a tree' :=
  ⟨fun site holds same =>
    ⟨(h.run site holds same).1, (h.run site holds same).2, (h'.run site holds same).2⟩⟩

theorem pure {ends : α → Tree → Prop} {a : α} (h : ends a tree) :
    Ends scene tree (Pure.pure a : Action α) ends :=
  ⟨fun _ start same => ⟨start, same ▸ h⟩⟩

theorem bind {action : Action α} {next : α → Action β} {middle : α → Tree → Prop}
    {ends : β → Tree → Prop} (first : Ends scene tree action middle)
    (rest : ∀ a tree', middle a tree' → Ends scene tree' (next a) ends) :
    Ends scene tree (action >>= next) ends := by
  refine ⟨fun site start same => ?_⟩
  obtain ⟨held, done⟩ := first.run site start same
  exact (rest _ _ done).run _ held rfl

theorem ok {ends : Except StoreError α → Tree → Prop} {a : α} (h : ends (.ok a) tree) :
    Ends scene tree (Pure.pure a : Operation α) ends :=
  Ends.pure h

theorem throw {ends : Except StoreError α → Tree → Prop} {error : StoreError}
    (h : ends (.error error) tree) :
    Ends scene tree (MonadExcept.throw error : Operation α) ends :=
  Ends.pure h

theorem andThen {operation : Operation α} {next : α → Operation β}
    {middle : Except StoreError α → Tree → Prop} {ends : Except StoreError β → Tree → Prop}
    (first : Ends scene tree operation middle)
    (rest : ∀ a tree', middle (.ok a) tree' → Ends scene tree' (next a) ends)
    (fails : ∀ error tree', middle (.error error) tree' → ends (.error error) tree') :
    Ends scene tree (operation >>= next : Operation β) ends := by
  rw [Operation.bind_eq]
  refine Ends.bind first fun answer tree' done => ?_
  cases answer with
  | ok a => exact rest a tree' done
  | error error => exact Ends.pure (fails error tree' done)

theorem lifted {action : Action α} {next : α → Operation β} {middle : α → Tree → Prop}
    {ends : Except StoreError β → Tree → Prop} (first : Ends scene tree action middle)
    (rest : ∀ a tree', middle a tree' → Ends scene tree' (next a) ends) :
    Ends scene tree (liftM action >>= next : Operation β) ends := by
  refine ⟨fun site start same => ?_⟩
  obtain ⟨held, done⟩ := first.run site start same
  exact (rest _ _ done).run _ held rfl

end Ends

namespace Scene

def Shows (scene : Scene) (id : ConnectionId) (slot? : Option Session) : Prop :=
  ∀ site, scene.holds site → (site.connections[id.index]?).bind Connection.slot = slot?

def Quiet (scene : Scene) : Prop :=
  ∀ site, scene.holds site → site.callRules = [] ∧ site.streamRules = []

def slot (id : ConnectionId) (slot? : Option Session) : Scene where
  holds site := (site.connections[id.index]?).bind Connection.slot = slot?
  steady site later follows h := by rw [follows.connections, h]

theorem shows_slot (id : ConnectionId) (slot? : Option Session) : (slot id slot?).Shows id slot? :=
  fun _ h => h

def known (id : ConnectionId) (connection : Connection) : Scene where
  holds site := site.connections[id.index]? = some connection
  steady site later follows h := by rw [follows.connections, h]

theorem shows_known (id : ConnectionId) (connection : Connection) :
    (known id connection).Shows id connection.slot := by
  intro site held
  rw [held]
  rfl

theorem shows_known_live {id : ConnectionId} {connection : Connection} {session : Session}
    (live : connection.slot = some session) : (known id connection).Shows id (some session) :=
  live ▸ shows_known id connection

end Scene

section Calls

variable {α : Type} (scene : Scene) (tree : Tree)

theorem perform_ends (number : Nat) (call : Call) (act : Tree → Except CallError (α × Tree)) :
    Ends scene tree (Site.perform number call act) fun answer tree' =>
      (∃ error, answer = .error error ∧ tree' = tree) ∨
        ∃ value, answer = .ok value ∧ act tree = .ok (value, tree') := by
  refine ⟨fun site start same => ?_⟩
  subst same
  have kept : ∀ site' : Site, site'.order = site.order → site'.connections = site.connections →
      site'.callRules = (Rule.select call.kind call.path site.callRules).2 →
      site'.streamRules = site.streamRules → scene.holds site' := by
    intro site' order connections calls streams
    refine scene.steady site site' ⟨order, connections, fun none => ?_, fun none => ?_⟩ start
    · rw [calls, none, Rule.select_nil]
    · rw [streams, none]
  cases eq : site.outcome call act with
  | error error =>
    rw [Site.perform_of_error eq]
    exact ⟨kept _ rfl rfl rfl rfl, .inl ⟨error, rfl, rfl⟩⟩
  | ok answer =>
    obtain ⟨value, disk⟩ := answer
    rw [Site.perform_of_ok eq]
    refine ⟨kept _ rfl rfl rfl rfl, .inr ⟨value, rfl, ?_⟩⟩
    unfold Site.outcome at eq
    split at eq
    · cases eq
    · exact eq

theorem perform_quiet {scene : Scene} (quiet : scene.Quiet) (number : Nat) (call : Call)
    (act : Tree → Except CallError (α × Tree)) :
    Ends scene tree (Site.perform number call act) fun answer tree' =>
      match act tree with
      | .ok (value, tree'') => answer = .ok value ∧ tree' = tree''
      | .error error => answer = .error error ∧ tree' = tree := by
  refine ⟨fun site start same => ?_⟩
  refine ⟨((perform_ends scene tree number call act).run site start same).1, ?_⟩
  have decided : site.outcome call act = act tree := by
    rw [Site.outcome, (quiet site start).1, same]
    rfl
  cases eq : act tree with
  | error error =>
    rw [Site.perform_of_error (decided.trans eq)]
    exact ⟨rfl, same⟩
  | ok answer =>
    rw [Site.perform_of_ok (decided.trans eq)]
    exact ⟨rfl, rfl⟩

variable (session : Session)

theorem inspect_ends (call : Call) (act : Tree → Except IoError α) :
    Ends scene tree (session.inspect call act) fun answer tree' =>
      tree' = tree ∧ ∀ value, answer = .ok value → act tree = .ok value := by
  refine (perform_ends ..).mono fun answer tree' done => ?_
  rcases done with ⟨error, rfl, rfl⟩ | ⟨value, rfl, done⟩
  · exact ⟨rfl, fun _ eq => nomatch eq⟩
  · cases eq : act tree with
    | error error => simp [eq, Except.map, Except.mapError] at done
    | ok value' =>
      obtain ⟨rfl, rfl⟩ : value' = value ∧ tree = tree' := by
        simpa [eq, Except.map, Except.mapError] using done
      simp

theorem change_ends (call : Call) (act : Tree → Except IoError Tree) :
    Ends scene tree (session.change call act) fun answer tree' =>
      (∃ error, answer = .error error ∧ tree' = tree) ∨ answer = .ok () ∧ act tree = .ok tree' := by
  refine (perform_ends ..).mono fun answer tree' done => ?_
  rcases done with failed | ⟨value, rfl, done⟩
  · exact .inl failed
  · refine .inr ⟨rfl, ?_⟩
    cases eq : act tree with
    | error error => simp [eq, Except.map, Except.mapError] at done
    | ok tree'' => simpa [eq, Except.map, Except.mapError] using done

theorem get_ends : Ends scene tree (get : Action Site) fun site tree' =>
    scene.holds site ∧ site.disk = tree ∧ tree' = tree := by
  refine ⟨fun site start same => ?_⟩
  exact ⟨start, start, same, same⟩

theorem streamRule_ends (kind : StreamKind) (path : String) :
    Ends scene tree (Site.streamRule kind path) fun cut? tree' =>
      tree' = tree ∧ (scene.Quiet → cut? = none) := by
  refine ⟨fun site start same => ?_⟩
  have kept : scene.holds (Site.streamRule kind path site).2 := by
    refine scene.steady site _ ⟨rfl, rfl, id, fun none => ?_⟩ start
    simp [Site.streamRule, none]
  refine ⟨kept, same, fun quiet => ?_⟩
  simp [Site.streamRule, (quiet site start).2]

theorem visitBound_ends :
    Ends scene tree Site.visitBound fun bound tree' =>
      bound = tree.directoryCount + 2 ∧ tree' = tree := by
  refine ⟨fun site start same => ?_⟩
  subst same
  exact ⟨start, rfl, rfl⟩

theorem itemBound_ends :
    Ends scene tree Site.itemBound fun bound tree' => bound = tree.size + 2 ∧ tree' = tree := by
  refine ⟨fun site start same => ?_⟩
  subst same
  exact ⟨start, rfl, rfl⟩

theorem stat_ends (path : String) :
    Ends scene tree (session.stat path) fun _ tree' => tree' = tree :=
  (inspect_ends ..).mono fun _ _ done => done.1

theorem list_ends (path : String) :
    Ends scene tree (session.list path) fun answer tree' => tree' = tree ∧
      ∀ entries, answer = .ok entries → ∃ order : Disk.Order,
        order.arrange <$> Disk.list tree (session.resolve path) = .ok entries := by
  refine (get_ends scene tree).bind fun site tree' ⟨_, _, same⟩ => ?_
  subst same
  refine (inspect_ends ..).mono fun answer tree'' done => ⟨done.1, fun entries eq => ?_⟩
  exact ⟨site.order, done.2 entries eq⟩

theorem openRead_cuts (path : String) :
    Ends scene tree (session.openRead path) fun answer tree' => tree' = tree ∧
      ∀ source, answer = .ok source → ∃ whole cut?,
        Disk.openRead tree (session.resolve path) = .ok whole ∧ source = whole.cut cut? := by
  refine (inspect_ends ..).bind fun answer tree' ⟨same, done⟩ => ?_
  cases answer with
  | error error => exact .pure ⟨same, fun _ eq => nomatch eq⟩
  | ok whole =>
    refine (streamRule_ends ..).bind fun cut? tree'' still => .pure ⟨still.1.trans same, ?_⟩
    intro source eq
    cases eq
    exact ⟨whole, cut?, done whole rfl, rfl⟩

theorem openRead_ends (path : String) :
    Ends scene tree (session.openRead path) fun answer tree' => tree' = tree ∧
      ∀ source, answer = .ok source → ∃ whole,
        Disk.openRead tree (session.resolve path) = .ok whole ∧ source.bytes <+: whole.bytes := by
  refine (openRead_cuts ..).mono fun answer tree' ⟨same, done⟩ => ⟨same, fun source eq => ?_⟩
  obtain ⟨whole, cut?, opened, rfl⟩ := done source eq
  exact ⟨whole, opened, Disk.Source.cut_bytes_prefix whole cut?⟩

theorem openWrite_ends (path : String) :
    Ends scene tree (session.openWrite path) fun answer tree' =>
      (∃ error, answer = .error error ∧ tree' = tree) ∨
        ∃ writer : Session.Writer, answer = .ok writer ∧
          Disk.openWrite tree (session.resolve path) true = .ok (writer.location, tree') := by
  refine (perform_ends ..).bind fun answer tree' done => ?_
  rcases done with ⟨error, rfl, rfl⟩ | ⟨location, rfl, done⟩
  · exact .pure (.inl ⟨error, rfl, rfl⟩)
  · refine (streamRule_ends ..).bind fun cut? _ still => ?_
    refine (streamRule_ends ..).bind fun shutdown? _ still' => .pure (.inr ⟨_, rfl, ?_⟩)
    rw [still'.1, still.1]
    cases eq : Disk.openWrite tree (session.resolve path) true with
    | error error => simp [eq, Except.mapError] at done
    | ok opened => simpa [eq, Except.mapError] using done

theorem copy_ends (writer : Session.Writer) (source : Source) :
    Ends scene tree (writer.copy source) fun _ tree' =>
      tree' = Disk.append tree writer.location (source.through writer.cut?).1 := by
  refine ⟨fun site start same => ?_⟩
  subst same
  refine ⟨scene.steady site _ ?_ start, ?_⟩ <;> unfold Session.Writer.copy <;> dsimp only <;> split
  · exact ⟨rfl, rfl, id, id⟩
  · exact ⟨rfl, rfl, id, id⟩
  · rfl
  · rfl

theorem copy_uncut (writer : Session.Writer) (source : Source) :
    Ends scene tree (writer.copy source) fun answer _ =>
      ∀ size, answer = .ok size → (source.through writer.cut?).2 = none := by
  refine ⟨fun site start same => ?_⟩
  refine ⟨((copy_ends scene tree writer source).run site start same).1, fun size well => ?_⟩
  unfold Session.Writer.copy at well
  dsimp only at well
  split at well
  · cases well
  · assumption

theorem shutdown_ends (writer : Session.Writer) :
    Ends scene tree writer.shutdown fun answer tree' =>
      tree' = tree ∧ (writer.shutdown? = none → answer = .ok ()) := by
  refine ⟨fun site start same => ?_⟩
  unfold Session.Writer.shutdown
  split
  case h_1 cut eq =>
    exact ⟨scene.steady site _ ⟨rfl, rfl, id, id⟩ start, same, fun none => by simp [none] at eq⟩
  case h_2 => exact ⟨start, same, fun _ => rfl⟩

theorem pour_ends (source : Source) (cut? : Option Cut) :
    Ends scene tree (Site.pour source cut?) fun answer tree' =>
      tree' = tree ∧ answer = source.through cut? := by
  refine ⟨fun site start same => ?_⟩
  dsimp only [Site.pour]
  cases (source.through cut?).2 with
  | none => exact ⟨start, same, rfl⟩
  | some error => exact ⟨scene.steady site _ ⟨rfl, rfl, id, id⟩ start, same, rfl⟩

theorem transport_ends (answer : Except CallError α) :
    Ends scene tree (Operation.transport answer) fun result tree' => tree' = tree ∧
      result = answer.mapError .transport := by
  cases answer with
  | error error => exact .throw ⟨rfl, rfl⟩
  | ok value => exact .ok ⟨rfl, rfl⟩

theorem streamed_ends (path : String) (answer : Except IoError α) :
    Ends scene tree (Operation.streamed path answer) fun result tree' => tree' = tree ∧
      result = answer.mapError fun error => .transport (.ofIo path error) := by
  cases answer with
  | error error => exact .throw ⟨rfl, rfl⟩
  | ok value => exact .ok ⟨rfl, rfl⟩

theorem onPayload_ends (key : String) (answer : Except CallError α) :
    Ends scene tree (Operation.onPayload key answer) fun result tree' => tree' = tree ∧
      result = answer.mapError (.ofPayload key) := by
  cases answer with
  | error error => exact .throw ⟨rfl, rfl⟩
  | ok value => exact .ok ⟨rfl, rfl⟩

theorem Ends.transported {β : Type} {scene : Scene} {tree : Tree}
    {call : Action (Except CallError α)} {next : α → Operation β}
    {middle : Except CallError α → Tree → Prop} {ends : Except StoreError β → Tree → Prop}
    (first : Ends scene tree call middle)
    (rest : ∀ value tree', middle (.ok value) tree' → Ends scene tree' (next value) ends)
    (fails : ∀ error tree', middle (.error error) tree' → ends (.error (.transport error)) tree') :
    Ends scene tree
      (liftM call >>= fun answer => Operation.transport answer >>= next : Operation β) ends := by
  refine first.lifted fun answer tree' done => ?_
  refine (transport_ends scene tree' answer).andThen (fun value tree'' ⟨same, eq⟩ => ?_)
    fun error tree'' ⟨same, eq⟩ => ?_
  all_goals
    subst same
    cases answer <;> cases eq
  · exact rest _ _ done
  · exact fails _ _ done

theorem Ends.streamed {β : Type} {scene : Scene} {tree : Tree} {call : Action (Except IoError α)}
    {path : String} {next : α → Operation β} {middle : Except IoError α → Tree → Prop}
    {ends : Except StoreError β → Tree → Prop} (first : Ends scene tree call middle)
    (rest : ∀ value tree', middle (.ok value) tree' → Ends scene tree' (next value) ends)
    (fails : ∀ error tree', middle (.error error) tree' →
      ends (.error (.transport (.ofIo path error))) tree') :
    Ends scene tree
      (liftM call >>= fun answer => Operation.streamed path answer >>= next : Operation β) ends := by
  refine first.lifted fun answer tree' done => ?_
  refine (streamed_ends scene tree' path answer).andThen (fun value tree'' ⟨same, eq⟩ => ?_)
    fun error tree'' ⟨same, eq⟩ => ?_
  all_goals
    subst same
    cases answer <;> cases eq
  · exact rest _ _ done
  · exact fails _ _ done

theorem slot?_ends {scene : Scene} {id : ConnectionId} {slot? : Option Session}
    (shows : scene.Shows id slot?) :
    Ends scene tree id.slot? fun found tree' => tree' = tree ∧ found = slot? :=
  ⟨fun site start same => ⟨start, same, shows site start⟩⟩

theorem session_ends {scene : Scene} {id : ConnectionId} {slot? : Option Session}
    (shows : scene.Shows id slot?) :
    Ends scene tree id.session fun answer tree' => tree' = tree ∧
      answer = slot?.elim (.error .disconnected) .ok := by
  refine (slot?_ends tree shows).lifted fun found tree' ⟨same, eq⟩ => ?_
  subst same eq
  cases found with
  | some session => exact .ok ⟨rfl, rfl⟩
  | none => exact .throw ⟨rfl, rfl⟩

end Calls

end TreeStore
