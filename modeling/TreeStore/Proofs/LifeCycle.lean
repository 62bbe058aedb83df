import TreeStore.Proofs.Reachable
import TreeStore.Proofs.Unclassified
/-!
The life of a connection, over any run of requests made of it and of its buckets and under any
failures (`connection_life_cycle`). A site that such a run can lead to is described by `Course`: which
calls have been made since the beginning and what is known of the session in the slot.
-/
namespace TreeStore

/-- The sites that a run of requests leads to. The connection is made with some settings; after that
anything may be asked of it and of its buckets, one request at a time, and before each of them the
rules may change, so any call and any stream may fail. -/
inductive ConnectionId.Run (id : ConnectionId) (settings : Settings) (start : Site) : Site → Prop
  | made (ok : (ConnectionId.connect settings start).1 = .ok id) :
      Run id settings start (ConnectionId.connect settings start).2
  | asked {site : Site} (run : Run id settings start site) (calls : List (Rule CallKind Refusal))
      (streams : List (Rule StreamKind Cut)) {request : Request}
      (mine : request.connection? = some id) :
      Run id settings start (request.run (site.withRules calls streams)).2

section Slots

variable {connections : List Connection} {id : ConnectionId} {settings : Settings}

def Keeps (connections : List Connection) (id : ConnectionId) (settings : Settings) : Prop :=
  (connections[id.index]?).map Connection.settings = some settings

theorem Keeps.settingsIn (keeps : Keeps connections id settings) :
    settingsIn connections id = settings := by
  rw [TreeStore.settingsIn, show _ = some settings from keeps]
  rfl

theorem keeps_withSlot (keeps : Keeps connections id settings) (slot? : Option Session) :
    Keeps (withSlot connections id slot?) id settings := by
  unfold Keeps withSlot at *
  rw [List.getElem?_modify_eq, ← keeps]
  cases connections[id.index]? <;> rfl

theorem slotIn_withSlot (keeps : Keeps connections id settings) (slot? : Option Session) :
    slotIn (withSlot connections id slot?) id = slot? := by
  unfold Keeps at keeps
  unfold slotIn withSlot
  rw [List.getElem?_modify_eq]
  cases found : connections[id.index]? with
  | none => simp [found] at keeps
  | some connection => rfl

end Slots

def Event.NotAfter (earlier later : Event) : Prop :=
  earlier.call = .close → later.session ≠ earlier.session

theorem Closes.once {leaving? : Option Session} {closing : List Event}
    {result : Except StoreError Unit} (closes : Closes leaving? closing result) :
    closing.Pairwise Event.NotAfter ∧ ∀ event ∈ closing, event.call = .close ∧
      ∃ session, leaving? = some session ∧ event.session = session.number := by
  cases leaving? with
  | none =>
    obtain ⟨rfl, -⟩ := closes
    exact ⟨.nil, by simp⟩
  | some previous =>
    obtain ⟨failed?, rfl, -⟩ := closes
    exact ⟨List.pairwise_singleton _ _, by simp⟩

def Event.Begins (settings : Settings) (event : Event) : Prop :=
  ∀ given, event.call = .connect given → given = settings

/-- Where a run has come to: the calls made so far, the sessions begun, and the session that is in
the slot, which has not been closed. -/
structure Course (id : ConnectionId) (settings : Settings) (start site : Site)
    (events : List Event) (begun : List Session) : Prop where
  base : site.base = start.base
  log : site.log = start.log ++ events
  sessions : site.sessions = start.sessions ++ begun
  keeps : Keeps site.connections id settings
  roots : ∀ session ∈ begun, session.root = Session.rootFor start.base settings
  begins : ∀ event ∈ events, event.Begins settings
  once : events.Pairwise Event.NotAfter
  closed : ∀ event ∈ events, event.call = .close → event.session < site.sessions.length
  live : ∀ session, slotIn site.connections id = some session →
    session.number < site.sessions.length ∧
      ∀ event ∈ events, event.call = .close → event.session ≠ session.number

namespace Course

variable {id : ConnectionId} {settings : Settings} {start site later : Site}
variable {events events' : List Event} {begun : List Session}

theorem withRules (course : Course id settings start site events begun)
    (calls : List (Rule CallKind Refusal)) (streams : List (Rule StreamKind Cut)) :
    Course id settings start (site.withRules calls streams) events begun :=
  { course with }

theorem not_closed (course : Course id settings start site events begun) {number : Nat}
    (mine : number = site.sessions.length ∨
      ∃ session, slotIn site.connections id = some session ∧ number = session.number)
    {earlier : Event} (mem : earlier ∈ events) (closes : earlier.call = .close) :
    earlier.session ≠ number := by
  rcases mine with rfl | ⟨session, slot, rfl⟩
  · exact (course.closed earlier mem closes).ne
  · exact (course.live session slot).2 earlier mem closes

theorem extend (course : Course id settings start site events begun) (new : List Session)
    (base : later.base = site.base) (log : later.log = site.log ++ events')
    (sessions : later.sessions = site.sessions ++ new) (keeps : Keeps later.connections id settings)
    (roots : ∀ session ∈ new, session.root = Session.rootFor start.base settings)
    (begins : ∀ event ∈ events', event.Begins settings)
    (once : events'.Pairwise Event.NotAfter)
    (mine : ∀ event ∈ events', event.session = site.sessions.length ∨
      ∃ session, slotIn site.connections id = some session ∧ event.session = session.number)
    (closed : ∀ event ∈ events', event.call = .close → event.session < later.sessions.length)
    (live : ∀ session, slotIn later.connections id = some session →
      session.number < later.sessions.length ∧
        (session.number = site.sessions.length ∨ slotIn site.connections id = some session) ∧
        ∀ event ∈ events', event.call = .close → event.session ≠ session.number) :
    Course id settings start later (events ++ events') (begun ++ new) where
  base := base.trans course.base
  log := by rw [log, course.log, List.append_assoc]
  sessions := by rw [sessions, course.sessions, List.append_assoc]
  keeps := keeps
  roots session mem := (List.mem_append.1 mem).elim (course.roots session) (roots session)
  begins event mem := (List.mem_append.1 mem).elim (course.begins event) (begins event)
  once := List.pairwise_append.2 ⟨course.once, once, fun earlier mem event mem' closes =>
    (course.not_closed (mine event mem') mem closes).symm⟩
  closed event mem closes := by
    rcases List.mem_append.1 mem with mem | mem
    · rw [sessions, List.length_append]
      exact Nat.lt_add_right _ (course.closed event mem closes)
    · exact closed event mem closes
  live session slot := by
    obtain ⟨known, before, unclosed⟩ := live session slot
    refine ⟨known, fun event mem closes => ?_⟩
    rcases List.mem_append.1 mem with mem | mem
    · exact course.not_closed (before.imp_right fun slot => ⟨session, slot, rfl⟩) mem closes
    · exact unclosed event mem closes

theorem worked (course : Course id settings start site events begun) {session : Session}
    {error? : Option StoreError} (slot : slotIn site.connections id = some session)
    (worked : site.Worked session later error?) :
    ∃ events', Course id settings start later (events ++ events') begun := by
  obtain ⟨events', breaks, log, -, made, -⟩ := worked.noted
  have working : ∀ event ∈ events', event.call ≠ .close := by
    intro event mem closes
    have works := (made event mem).2
    rw [closes] at works
    cases works
  refine ⟨events', List.append_nil begun ▸ course.extend [] worked.base log
    (by rw [worked.sessions, List.append_nil]) (worked.connections ▸ course.keeps) (by simp)
    ?_ ?_ ?_ ?_ ?_⟩
  · intro event mem given connects
    have works := (made event mem).2
    rw [connects] at works
    cases works
  · exact List.Pairwise.imp_of_mem (fun mem _ _ closes => absurd closes (working _ mem))
      (List.pairwise_of_forall fun _ _ => trivial)
  · exact fun event mem => .inr ⟨session, slot, (made event mem).1⟩
  · exact fun event mem closes => absurd closes (working event mem)
  · rw [worked.sessions, worked.connections]
    exact fun session' slot' => ⟨(course.live session' slot').1, .inr slot',
      fun event mem closes => absurd closes (working event mem)⟩

theorem close (course : Course id settings start site events begun) :
    ∃ events', Course id settings start (id.close site).2 (events ++ events') begun := by
  cases slot : slotIn site.connections id with
  | none =>
    rw [close_of_empty slot]
    exact ⟨[], by rwa [List.append_nil]⟩
  | some session =>
    obtain ⟨failed?, -, passes⟩ := close_passes slot
    refine ⟨[⟨session.number, .close, failed?⟩], List.append_nil begun ▸ course.extend []
      passes.base passes.log (by rw [passes.sessions, List.append_nil])
      (passes.connections ▸ keeps_withSlot course.keeps none) (by simp) ?_ (by simp) ?_ ?_ ?_⟩
    · simp [Event.Begins]
    · simpa using .inr ⟨session, slot, rfl⟩
    · rw [passes.sessions]
      simpa using (course.live session slot).1
    · rw [passes.connections, slotIn_withSlot course.keeps]
      exact fun _ eq => nomatch eq

theorem reestablish (course : Course id settings start site events begun) :
    ∃ events' new, Course id settings start (id.reestablish site).2 (events ++ events')
      (begun ++ new) := by
  have original := course.keeps.settingsIn
  rcases reestablish_passes id site with ⟨error, -, passes⟩ | ⟨closing, passes, closes⟩
  · rw [original] at passes
    refine ⟨_, [], course.extend _ passes.base passes.log (by rw [passes.sessions, List.append_nil])
      (passes.connections ▸ course.keeps) (by simp) ?_ (by simp) ?_ ?_ ?_⟩
    · simp [Event.Begins, Site.beginning]
    · simp [Site.beginning]
    · simp [Site.beginning]
    · rw [passes.connections, passes.sessions]
      refine fun session slot => ⟨(course.live session slot).1, .inr slot, ?_⟩
      simp [Site.beginning]
  · rw [original] at passes
    obtain ⟨once, previous⟩ := closes.once
    have older : ∀ event ∈ closing, event.session < site.sessions.length := by
      intro event mem
      obtain ⟨-, session, slot, same⟩ := previous event mem
      exact same ▸ (course.live session slot).1
    refine ⟨_, [site.newSession settings], course.extend _ passes.base passes.log passes.sessions
      (passes.connections ▸ keeps_withSlot course.keeps _) (by simp [Site.newSession, course.base])
      ?_ ?_ ?_ ?_ ?_⟩
    · refine List.forall_mem_cons.2 ⟨by simp [Event.Begins, Site.beginning], fun event mem => ?_⟩
      simp [Event.Begins, (previous event mem).1]
    · exact List.pairwise_cons.2 ⟨fun _ _ closes => (nomatch closes), once⟩
    · exact List.forall_mem_cons.2 ⟨.inl rfl, fun event mem => .inr (previous event mem).2⟩
    · rw [passes.sessions, List.length_append]
      refine List.forall_mem_cons.2 ⟨fun closes => (nomatch closes), fun event mem _ => ?_⟩
      exact Nat.lt_add_right _ (older event mem)
    · rw [passes.connections, slotIn_withSlot course.keeps, passes.sessions, List.length_append]
      intro session eq
      cases eq
      refine ⟨Nat.lt_add_one _, .inl rfl, List.forall_mem_cons.2 ⟨fun closes => (nomatch closes), ?_⟩⟩
      exact fun event mem _ => (older event mem).ne

theorem asked (course : Course id settings start site events begun) (request : Request)
    (mine : request.connection? = some id) :
    ∃ events' new, Course id settings start (request.run site).2 (events ++ events')
      (begun ++ new) := by
  cases works : request.forSession with
  | true =>
    cases slot : slotIn site.connections id with
    | some session =>
      obtain ⟨events', later⟩ := course.worked slot (Request.run_worked works mine slot)
      exact ⟨events', [], by rwa [List.append_nil]⟩
    | none =>
      have unchanged : (request.run site).2 = site := by
        cases remote : request.isRemote with
        | true => rw [Request.run_of_empty remote mine slot]
        | false => rw [Request.run_of_not_remote works remote]
      exact ⟨[], [], by rwa [unchanged, List.append_nil, List.append_nil]⟩
  | false =>
    cases request with
    | close _ =>
      cases mine
      obtain ⟨events', later⟩ := course.close
      exact ⟨events', [], by rw [List.append_nil]; exact later⟩
    | reestablish _ =>
      cases mine
      exact course.reestablish
    | connect _ => cases mine
    | _ => cases works

end Course

variable {id : ConnectionId} {settings : Settings} {start site : Site}

theorem ConnectionId.Run.course (run : id.Run settings start site) :
    settings.validate = .ok () ∧
      ∃ events begun, Course id settings start site events begun := by
  induction run with
  | made ok =>
    rcases connect_passes settings start with
      ⟨error, unchanged⟩ | ⟨valid, ⟨error, failed, -⟩ | ⟨result, passes⟩⟩
    · rw [unchanged] at ok
      cases ok
    · rw [failed] at ok
      cases ok
    · obtain rfl : (⟨start.connections.length⟩ : ConnectionId) = id :=
        Except.ok.inj (result.symm.trans ok)
      have new : slotIn (start.connections ++ [⟨settings, some (start.newSession settings)⟩])
          ⟨start.connections.length⟩ = some (start.newSession settings) := by
        simp [slotIn]
      refine ⟨valid, _, _, {
        base := passes.base
        log := passes.log
        sessions := passes.sessions
        keeps := by rw [passes.connections]; simp [Keeps]
        roots := by simp [Site.newSession]
        begins := by simp [Event.Begins, Site.beginning]
        once := List.pairwise_singleton _ _
        closed := by simp [Site.beginning]
        live := ?_ }⟩
      rw [passes.connections, new, passes.sessions]
      intro session eq
      cases eq
      simp [Site.newSession, Site.beginning]
  | asked run calls streams mine ih =>
    obtain ⟨valid, events, begun, course⟩ := ih
    obtain ⟨events', new, later⟩ := (course.withRules calls streams).asked _ mine
    exact ⟨valid, _, _, later⟩

/-- How a connection with these settings meets what comes next, whatever fails then. -/
structure ConnectionId.Behaves (id : ConnectionId) (settings : Settings) (now : Site) : Prop where
  original : (id.settings now).1 = settings
  isConnected : id.isConnected now = ((slotIn now.connections id).isSome, now)
  close : slotIn (id.close now).2.connections id = none ∧ ∃ closing,
    (id.close now).2.log = now.log ++ closing ∧
      Closes (slotIn now.connections id) closing (id.close now).1
  /-- Either no session begins and the slot stays as it is, or the new one is in the slot, whatever
  becomes of the one before. -/
  reestablish :
    (∃ error, (id.reestablish now).1 = .error (.transport error) ∧
      (id.reestablish now).2.log = now.log ++ [now.beginning settings (some error)] ∧
      slotIn (id.reestablish now).2.connections id = slotIn now.connections id) ∨
    slotIn (id.reestablish now).2.connections id = some (now.newSession settings) ∧ ∃ closing,
      (id.reestablish now).2.log = now.log ++ now.beginning settings none :: closing ∧
        Closes (slotIn now.connections id) closing (id.reestablish now).1
  /-- Without a session nothing is called and nothing changes. -/
  shut : slotIn now.connections id = none → id.close now = (.ok (), now) ∧
    ∀ request : Request, request.connection? = some id → request.isRemote = true →
      request.run now = (some .disconnected, now)

theorem Course.behaves {events : List Event} {begun : List Session}
    (course : Course id settings start site events begun) : id.Behaves settings site where
  original := course.keeps.settingsIn
  isConnected := rfl
  close := by
    cases slot : slotIn site.connections id with
    | none =>
      rw [close_of_empty slot]
      exact ⟨slot, [], (List.append_nil _).symm, rfl, rfl⟩
    | some session =>
      obtain ⟨failed?, result, passes⟩ := close_passes slot
      rw [passes.connections, slotIn_withSlot course.keeps]
      exact ⟨rfl, _, passes.log, failed?, rfl, result⟩
  reestablish := by
    have original := course.keeps.settingsIn
    rcases reestablish_passes id site with ⟨error, failed, passes⟩ | ⟨closing, passes, closes⟩
    · rw [original] at passes
      exact .inl ⟨error, failed, passes.log, by rw [passes.connections]⟩
    · rw [original] at passes
      exact .inr ⟨by rw [passes.connections, slotIn_withSlot course.keeps], closing, passes.log,
        closes⟩
  shut empty := ⟨close_of_empty empty, fun _ mine remote =>
    Request.run_of_empty remote mine empty⟩

/-- At every point of a run: sessions have only ever been begun with the original settings, which
are valid; no call is made of a session that has been closed; and whatever fails next, the slot of
the connection is as it should be. -/
theorem connection_life_cycle (run : id.Run settings start site) :
    settings.validate = .ok () ∧ ∃ events begun,
      site.log = start.log ++ events ∧ site.sessions = start.sessions ++ begun ∧
      (∀ event ∈ events, event.Begins settings) ∧
      (∀ session ∈ begun, session.root = Session.rootFor start.base settings) ∧
      events.Pairwise Event.NotAfter ∧
      ∀ calls streams, id.Behaves settings (site.withRules calls streams) := by
  obtain ⟨valid, events, begun, course⟩ := run.course
  exact ⟨valid, events, begun, course.log, course.sessions, course.begins, course.roots,
    course.once, fun calls streams => (course.withRules calls streams).behaves⟩

/-- A session that could not be closed has been replaced all the same. -/
theorem replaced_session_is_closed :
    let start : Site := { base := "/" }
    let made := (ConnectionId.connect {} start).2
    let refusing : List (Rule CallKind Refusal) :=
      [{ occasion := .close, effect := ⟨.other, "lost"⟩ }]
    let replaced := ((Request.reestablish ⟨0⟩).run (made.withRules refusing [])).2
    ConnectionId.Run ⟨0⟩ {} start replaced ∧
      slotIn replaced.connections ⟨0⟩ = some ⟨1, "/"⟩ ∧
      slotIn (ConnectionId.close ⟨0⟩ (replaced.withRules [] [])).2.connections ⟨0⟩ = none := by
  intro start made refusing replaced
  have ok : (ConnectionId.connect {} start).1 = .ok ⟨0⟩ := by decide +kernel
  have run : ConnectionId.Run ⟨0⟩ {} start replaced := .asked (.made ok) refusing [] rfl
  have live : slotIn replaced.connections ⟨0⟩ = some ⟨1, "/"⟩ := by decide +kernel
  obtain ⟨-, events, begun, -, -, -, -, -, behaves⟩ := connection_life_cycle run
  exact ⟨run, live, (behaves [] []).close.1⟩

end TreeStore
