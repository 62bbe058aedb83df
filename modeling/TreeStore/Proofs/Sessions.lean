import TreeStore.Proofs.Account
/-!
How sessions begin and end: what each step notes, and which sessions and connections there are
after it, whatever fails.
-/
namespace TreeStore

def slotIn (connections : List Connection) (id : ConnectionId) : Option Session :=
  (connections[id.index]?).bind Connection.slot

def settingsIn (connections : List Connection) (id : ConnectionId) : Settings :=
  ((connections[id.index]?).map Connection.settings).getD {}

def withSlot (connections : List Connection) (id : ConnectionId) (slot? : Option Session) :
    List Connection :=
  connections.modify id.index fun connection => { connection with slot := slot? }

theorem bind_of_run {α β : Type} {action : Action α} {next : α → Action β} {a : α}
    {site later : Site} (h : action site = (a, later)) : (action >>= next) site = next a later := by
  show next (action site).1 (action site).2 = _
  rw [h]

theorem lifted_of_run {α β : Type} {action : Action α} {next : α → Operation β} {a : α}
    {site later : Site} (h : action site = (a, later)) :
    (liftM action >>= next : Operation β) site = next a later :=
  @bind_of_run α (Except StoreError β) action next a site later h

theorem Operation.bind_run {α β : Type} (operation : Operation α) (next : α → Operation β)
    (site : Site) :
    (operation >>= next : Operation β) site =
      match (operation site).1 with
      | .ok a => next a (operation site).2
      | .error error => (.error error, (operation site).2) := by
  show ExceptT.bindCont next (operation site).1 (operation site).2 = _
  cases (operation site).1 <;> rfl

theorem slot?_run (id : ConnectionId) (site : Site) :
    id.slot? site = (slotIn site.connections id, site) := rfl

theorem session_eq (id : ConnectionId) (site : Site) :
    id.session site =
      ((slotIn site.connections id).elim (.error .disconnected) .ok, site) := by
  refine (lifted_of_run (slot?_run id site)).trans ?_
  cases slotIn site.connections id <;> rfl

theorem session_bind {β : Type} (id : ConnectionId) (next : Session → Operation β) (site : Site) :
    (id.session >>= next : Operation β) site =
      match slotIn site.connections id with
      | some session => next session site
      | none => (.error .disconnected, site) := by
  rw [Operation.bind_run, session_eq]
  cases slotIn site.connections id <;> rfl

/-- What has been noted since, and what sessions and connections there are now. -/
structure Site.Passes (site later : Site) (events : List Event) (sessions : List Session)
    (connections : List Connection) : Prop where
  base : later.base = site.base
  log : later.log = site.log ++ events
  breaks : later.breaks = site.breaks
  sessions : later.sessions = sessions
  connections : later.connections = connections

theorem perform_passes {α : Type} (number : Nat) (call : Call)
    (act : Tree → Except CallError (α × Tree)) (site : Site) :
    (∃ error, (Site.perform number call act site).1 = .error error ∧
      site.Passes (Site.perform number call act site).2 [⟨number, call, some error⟩] site.sessions
        site.connections) ∨
    ∃ value, (Site.perform number call act site).1 = .ok value ∧
      site.Passes (Site.perform number call act site).2 [⟨number, call, none⟩] site.sessions
        site.connections := by
  cases eq : site.outcome call act with
  | error error =>
    rw [Site.perform_of_error eq]
    exact .inl ⟨error, rfl, rfl, rfl, rfl, rfl, rfl⟩
  | ok answer =>
    rw [Site.perform_of_ok eq]
    exact .inr ⟨answer.1, rfl, rfl, rfl, rfl, rfl, rfl⟩

theorem transported_run {α β : Type} (call : Action (Except CallError α)) (next : α → Operation β)
    (site : Site) :
    (liftM call >>= fun answer => Operation.transport answer >>= next : Operation β) site =
      match (call site).1 with
      | .ok value => next value (call site).2
      | .error error => (.error (.transport error), (call site).2) := by
  show ExceptT.bindCont next (Operation.transport (call site).1 (call site).2).1
    (Operation.transport (call site).1 (call site).2).2 = _
  cases (call site).1 <;> rfl

def resultOf (failure? : Option CallError) : Except StoreError Unit :=
  match failure? with
  | none => .ok ()
  | some error => .error (.transport error)

/-- The session that leaves a slot is closed by one call, whose failure is the result. -/
def Closes (leaving? : Option Session) (events : List Event) (result : Except StoreError Unit) :
    Prop :=
  match leaving? with
  | none => events = [] ∧ result = .ok ()
  | some session => ∃ failure?, events = [⟨session.number, .close, failure?⟩] ∧
      result = resultOf failure?

theorem closing_passes (session : Session) (site : Site) :
    ∃ failure?, ((do Operation.transport (← session.close) : Operation Unit) site).1 =
        resultOf failure? ∧
      site.Passes ((do Operation.transport (← session.close) : Operation Unit) site).2
        [⟨session.number, .close, failure?⟩] site.sessions site.connections := by
  show ∃ failure?, (Operation.transport (session.close site).1 (session.close site).2).1 = _ ∧
    site.Passes (Operation.transport (session.close site).1 (session.close site).2).2 _ _ _
  rcases perform_passes session.number .close _ site with ⟨error, eq, passes⟩ | ⟨value, eq, passes⟩
  · have closed : (session.close site).1 = .error error := eq
    rw [closed]
    exact ⟨some error, rfl, passes⟩
  · have closed : (session.close site).1 = .ok value := eq
    rw [closed]
    exact ⟨none, rfl, passes⟩

theorem close_of_empty {id : ConnectionId} {site : Site}
    (empty : slotIn site.connections id = none) : id.close site = (.ok (), site) := by
  refine (lifted_of_run (slot?_run id site)).trans ?_
  rw [empty]
  rfl

theorem close_passes {id : ConnectionId} {site : Site} {session : Session}
    (live : slotIn site.connections id = some session) :
    ∃ failure?, (id.close site).1 = resultOf failure? ∧
      site.Passes (id.close site).2 [⟨session.number, .close, failure?⟩] site.sessions
        (withSlot site.connections id none) := by
  have closes : id.close site = (do Operation.transport (← session.close) : Operation Unit)
      { site with connections := withSlot site.connections id none } := by
    refine (lifted_of_run (slot?_run id site)).trans ?_
    rw [live]
    rfl
  rw [closes]
  obtain ⟨failure?, eq, passes⟩ :=
    closing_passes session { site with connections := withSlot site.connections id none }
  exact ⟨failure?, eq, passes.base, passes.log, passes.breaks, passes.sessions, passes.connections⟩

def Site.newSession (site : Site) (settings : Settings) : Session :=
  ⟨site.sessions.length, Session.rootFor site.base settings⟩

def Site.beginning (site : Site) (settings : Settings) (failure? : Option CallError) : Event :=
  ⟨site.sessions.length, .connect settings, failure?⟩

theorem establish_passes (settings : Settings) (site : Site) :
    (∃ error, (Session.establish settings site).1 = .error error ∧
      site.Passes (Session.establish settings site).2 [site.beginning settings (some error)]
        site.sessions site.connections) ∨
    (Session.establish settings site).1 = .ok (site.newSession settings) ∧
      site.Passes (Session.establish settings site).2 [site.beginning settings none]
        (site.sessions ++ [site.newSession settings]) site.connections := by
  let act : Tree → Except CallError (Unit × Tree) := fun disk =>
    (Session.checkRoot disk (site.newSession settings).root).map (·, disk)
  let performed := Site.perform site.sessions.length
    (.connect settings) act site
  have got : (get : Action Site) site = (site, site) := rfl
  rcases perform_passes site.sessions.length (.connect settings) act site
    with ⟨error, eq, passes⟩ | ⟨value, eq, passes⟩
  · have failed : performed = (.error error, performed.2) := Prod.ext eq rfl
    have begun : Session.establish settings site = (.error error, performed.2) :=
      (bind_of_run got).trans ((bind_of_run failed).trans rfl)
    rw [begun]
    exact .inl ⟨error, rfl, passes⟩
  · have done : performed = (.ok value, performed.2) := Prod.ext eq rfl
    have begun : Session.establish settings site = (.ok (site.newSession settings),
        { performed.2 with
          sessions := performed.2.sessions ++ [site.newSession settings] }) :=
      (bind_of_run got).trans ((bind_of_run done).trans rfl)
    rw [begun]
    exact .inr ⟨rfl, passes.base, passes.log, passes.breaks,
      congrArg (· ++ [site.newSession settings]) passes.sessions, passes.connections⟩

/-- A new session fails to begin and nothing else happens, or it is in the slot afterwards, whether
the one before could be closed or not. -/
theorem reestablish_passes (id : ConnectionId) (site : Site) :
    let settings := settingsIn site.connections id
    (∃ error, (id.reestablish site).1 = .error (.transport error) ∧
      site.Passes (id.reestablish site).2 [site.beginning settings (some error)] site.sessions
        site.connections) ∨
    ∃ closing, site.Passes (id.reestablish site).2 (site.beginning settings none :: closing)
        (site.sessions ++ [site.newSession settings])
        (withSlot site.connections id (some (site.newSession settings))) ∧
      Closes (slotIn site.connections id) closing (id.reestablish site).1 := by
  intro settings
  have begins : id.reestablish site = match (Session.establish settings site).1 with
      | .error error => (.error (.transport error), (Session.establish settings site).2)
      | .ok session =>
        let later := (Session.establish settings site).2
        let replaced := { later with
          connections := withSlot later.connections id (some session) }
        match slotIn later.connections id with
        | none => (.ok (), replaced)
        | some previous =>
          (do Operation.transport (← previous.close) : Operation Unit) replaced := by
    refine (transported_run (Session.establish settings) _ site).trans ?_
    cases (Session.establish settings site).1 with
    | error error => rfl
    | ok session =>
      show (match slotIn (Session.establish settings site).2.connections id with
        | none => pure ()
        | some previous => do Operation.transport (← previous.close) : Operation Unit) _ = _
      dsimp only
      cases slotIn (Session.establish settings site).2.connections id <;> rfl
  rw [begins]
  rcases establish_passes settings site with ⟨error, eq, passes⟩ | ⟨eq, passes⟩
  · rw [eq]
    exact .inl ⟨error, rfl, passes⟩
  · rw [eq]
    dsimp only
    rw [passes.connections]
    refine .inr ?_
    cases slotIn site.connections id with
    | none => exact ⟨[], ⟨passes.base, passes.log, passes.breaks, passes.sessions, rfl⟩, rfl, rfl⟩
    | some previous =>
      obtain ⟨failure?, result, closed⟩ := closing_passes previous
        { (Session.establish settings site).2 with
          connections := withSlot site.connections id (some (site.newSession settings)) }
      refine ⟨[⟨previous.number, .close, failure?⟩], ⟨closed.base.trans passes.base, ?_,
        closed.breaks.trans passes.breaks, closed.sessions.trans passes.sessions,
        closed.connections⟩, failure?, rfl, result⟩
      rw [closed.log, passes.log, List.append_assoc]
      rfl

theorem connect_passes (settings : Settings) (site : Site) :
    (∃ error, ConnectionId.connect settings site = (.error error, site)) ∨
    settings.validate = .ok () ∧
      ((∃ error, (ConnectionId.connect settings site).1 = .error (.transport error) ∧
        site.Passes (ConnectionId.connect settings site).2 [site.beginning settings (some error)]
          site.sessions site.connections) ∨
      (ConnectionId.connect settings site).1 = .ok ⟨site.connections.length⟩ ∧
        site.Passes (ConnectionId.connect settings site).2 [site.beginning settings none]
          (site.sessions ++ [site.newSession settings])
          (site.connections ++ [⟨settings, some (site.newSession settings)⟩])) := by
  cases valid : settings.validate with
  | error error =>
    refine .inl ⟨error, ?_⟩
    unfold ConnectionId.connect
    rw [valid]
    rfl
  | ok =>
    refine .inr ⟨rfl, ?_⟩
    have begins : ConnectionId.connect settings site =
        match (Session.establish settings site).1 with
        | .error error => (.error (.transport error), (Session.establish settings site).2)
        | .ok session =>
          let later := (Session.establish settings site).2
          (.ok ⟨later.connections.length⟩,
            { later with connections := later.connections ++ [⟨settings, some session⟩] }) := by
      unfold ConnectionId.connect
      rw [valid]
      refine (transported_run (Session.establish settings) _ site).trans ?_
      cases (Session.establish settings site).1 <;> rfl
    rw [begins]
    rcases establish_passes settings site with ⟨error, eq, passes⟩ | ⟨eq, passes⟩
    · rw [eq]
      exact .inl ⟨error, rfl, passes⟩
    · rw [eq]
      dsimp only
      rw [passes.connections]
      exact .inr ⟨rfl, passes.base, passes.log, passes.breaks, passes.sessions, rfl⟩

end TreeStore
