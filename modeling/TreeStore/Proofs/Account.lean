import TreeStore.Proofs.Request
/-!
What an action adds to the account that a site keeps: the log of calls and the streams that broke
off. `Reports` tells of an action that it works with one session and that a failure which has no
meaning for the store is the last thing it does and the error it tells of. It is proved by taking
the action apart at its binds, with one rule for each way in which a failure is taken up.
-/
namespace TreeStore

def Call.works : Call → Bool
  | .close | .connect .. => false
  | _ => true

def Session.Makes (session : Session) (event : Event) : Prop :=
  event.session = session.number ∧ event.call.works = true

/-- After a call that failed with kind `other` there is no other call, and its failure is the error
that is told. The same holds of a stream that broke off. Until now `total` calls have been made. -/
structure Heeds (total : Nat) (events : List Event) (breaks : List Break)
    (error? : Option StoreError) : Prop where
  calls : ∀ front event rest error, events = front ++ event :: rest →
    event.failure? = some error → error.kind = .other →
    rest = [] ∧ error? = some (.transport error)
  streams : ∀ broken ∈ breaks, broken.calls = total ∧
    ∃ path, error? = some (.transport (.ofIo path broken.error))

namespace Heeds

variable {total total' : Nat} {events events' : List Event} {breaks breaks' : List Break}
variable {error? : Option StoreError}

theorem nothing (total : Nat) (error? : Option StoreError) : Heeds total [] [] error? where
  calls front event rest error eq := by simp at eq
  streams broken mem := by simp at mem

theorem single {event : Event} (told : ∀ error, event.failure? = some error →
    error.kind = .other → error? = some (.transport error)) :
    Heeds total [event] [] error? where
  calls front event' rest error eq failed other := by
    obtain ⟨rfl, eq⟩ : front = [] ∧ [event] = event' :: rest := by
      cases front with
      | nil => exact ⟨rfl, eq⟩
      | cons => simp at eq
    obtain ⟨rfl, rfl⟩ := List.cons.inj eq
    exact ⟨rfl, told error failed other⟩
  streams broken mem := by simp at mem

theorem stream {broken : Break} (calls : broken.calls = total)
    (told : ∃ path, error? = some (.transport (.ofIo path broken.error))) :
    Heeds total [] [broken] error? where
  calls front event rest error eq := by simp at eq
  streams broken' mem := by
    rw [List.mem_singleton.1 mem]
    exact ⟨calls, told⟩

theorem append (first : Heeds total events breaks none)
    (rest : Heeds total' events' breaks' error?) :
    Heeds total' (events ++ events') (breaks ++ breaks') error? where
  calls front event last error eq failed other := by
    rcases List.append_eq_append_iff.1 eq with ⟨middle, -, eq⟩ | ⟨middle, eq, eq'⟩
    · exact rest.calls middle event last error eq failed other
    · cases middle with
      | nil => exact rest.calls [] event last error eq'.symm failed other
      | cons event' middle =>
        obtain ⟨rfl, -⟩ := List.cons.inj eq'
        cases (first.calls front event middle error eq failed other).2
  streams broken mem := by
    rcases List.mem_append.1 mem with mem | mem
    · obtain ⟨-, path, told⟩ := first.streams broken mem
      cases told
    · exact rest.streams broken mem

end Heeds

structure Site.Idle (site later : Site) : Prop where
  base : later.base = site.base
  sessions : later.sessions = site.sessions
  connections : later.connections = site.connections
  log : later.log = site.log
  breaks : later.breaks = site.breaks

structure Site.Worked (session : Session) (site later : Site) (error? : Option StoreError) :
    Prop where
  base : later.base = site.base
  sessions : later.sessions = site.sessions
  connections : later.connections = site.connections
  noted : ∃ events breaks, later.log = site.log ++ events ∧ later.breaks = site.breaks ++ breaks ∧
    (∀ event ∈ events, session.Makes event) ∧ Heeds later.log.length events breaks error?

namespace Site.Worked

variable {session : Session} {site middle later : Site} {error? : Option StoreError}

theorem nothing (idle : site.Idle later) : Worked session site later error? :=
  ⟨idle.base, idle.sessions, idle.connections, [], [], by simp [idle.log], by simp [idle.breaks],
    by simp, .nothing _ _⟩

theorem refl (session : Session) (site : Site) (error? : Option StoreError) :
    Worked session site site error? :=
  .nothing ⟨rfl, rfl, rfl, rfl, rfl⟩

theorem trans (first : Worked session site middle none)
    (rest : Worked session middle later error?) : Worked session site later error? := by
  obtain ⟨events, breaks, log, broken, made, heeds⟩ := first.noted
  obtain ⟨events', breaks', log', broken', made', heeds'⟩ := rest.noted
  refine ⟨rest.base.trans first.base, rest.sessions.trans first.sessions,
    rest.connections.trans first.connections, events ++ events', breaks ++ breaks', ?_, ?_, ?_, ?_⟩
  · rw [log', log, List.append_assoc]
  · rw [broken', broken, List.append_assoc]
  · exact fun event mem => (List.mem_append.1 mem).elim (made event) (made' event)
  · exact heeds.append heeds'

end Site.Worked

/-- Begun with these connections, the action works with the session; `told` is what its answer tells
of the error that it tells. -/
structure Reports {α : Type} (connections : List Connection) (session : Session)
    (action : Action α) (told : α → Option StoreError → Prop) : Prop where
  run : ∀ site, site.connections = connections →
    ∃ error?, site.Worked session (action site).2 error? ∧ told (action site).1 error?

def Stops {α : Type} (action : Action α) (error : StoreError)
    (told : α → Option StoreError → Prop) : Prop :=
  ∀ site, (action site).2 = site ∧ told (action site).1 (some error)

def Tells {α : Type} (fact : α → Prop) : Except StoreError α → Option StoreError → Prop
  | .ok a, error? => error? = none ∧ fact a
  | .error error, error? => error? = some error

def CallTells {α : Type} (fact : α → Prop) : Except CallError α → Option StoreError → Prop
  | .ok a, error? => error? = none ∧ fact a
  | .error error, error? => error? = if error.kind = .other then some (.transport error) else none

def Streams {α : Type} (path : String) : Except IoError α → Option StoreError → Prop
  | .ok _, error? => error? = none
  | .error error, error? => error? = some (.transport (.ofIo path error))

abbrev Told {α : Type} : Except StoreError α → Option StoreError → Prop := Tells fun _ => True

abbrev CallTold {α : Type} : Except CallError α → Option StoreError → Prop :=
  CallTells fun _ => True

theorem Tells.eq {α : Type} {fact : α → Prop} {answer : Except StoreError α}
    {error? : Option StoreError} (h : Tells fact answer error?) : error? = failure? answer := by
  cases answer with
  | ok a => exact h.1
  | error error => exact h

namespace Reports

variable {α β : Type} {connections : List Connection} {session : Session}
variable {told : β → Option StoreError → Prop}

theorem pure {a : α} {told : α → Option StoreError → Prop} (error? : Option StoreError)
    (h : told a error?) : Reports connections session (Pure.pure a : Action α) told :=
  ⟨fun site _ => ⟨error?, .refl session site error?, h⟩⟩

theorem aside {action : Action α} {told : α → Option StoreError → Prop}
    (idle : ∀ site : Site, site.Idle (action site).2)
    (tells : ∀ a, told a none) : Reports connections session action told := by
  exact ⟨fun site _ => ⟨none, .nothing (idle site), tells _⟩⟩

theorem bind {action : Action α} {next : α → Action β} {middle : α → Option StoreError → Prop}
    (first : Reports connections session action middle)
    (rest : ∀ a, middle a none → Reports connections session (next a) told)
    (stops : ∀ a error, middle a (some error) → Stops (next a) error told) :
    Reports connections session (action >>= next) told := by
  refine ⟨fun site same => ?_⟩
  obtain ⟨error?, worked, tells⟩ := first.run site same
  cases error? with
  | none =>
    obtain ⟨error?, worked', tells'⟩ :=
      (rest _ tells).run (action site).2 (worked.connections.trans same)
    exact ⟨error?, worked.trans worked', tells'⟩
  | some error =>
    obtain ⟨still, tells'⟩ := stops _ error tells (action site).2
    refine ⟨some error, ?_, tells'⟩
    show site.Worked session (next (action site).1 (action site).2).2 (some error)
    rw [still]
    exact worked

theorem past {action : Action α} {next : α → Action β}
    (idle : ∀ site : Site, site.Idle (action site).2)
    (rest : ∀ a, Reports connections session (next a) told) :
    Reports connections session (action >>= next) told := by
  have quiet : Reports connections session action fun _ error? => error? = none :=
    aside idle fun _ => rfl
  exact quiet.bind (fun a _ => rest a) fun _ _ tells => nomatch tells

theorem answer {a : α} {fact : α → Prop} (h : fact a) :
    Reports connections session (Pure.pure (.ok a) : Action (Except CallError α))
      (CallTells fact) :=
  pure none ⟨rfl, h⟩

theorem opening {call : Action (Except CallError α)}
    {next : Except CallError α → Action (Except CallError β)} {before : α → Prop} {fact : β → Prop}
    (first : Reports connections session call (CallTells before))
    (failed : ∀ error, next (.error error) = Pure.pure (.error error))
    (rest : ∀ a, before a → Reports connections session (next (.ok a)) (CallTells fact)) :
    Reports connections session (call >>= next) (CallTells fact) := by
  refine first.bind (fun answer tells => ?_) fun answer error tells => ?_
  · cases answer with
    | ok a => exact rest a tells.2
    | error error =>
      rw [failed]
      exact .pure _ tells
  · cases answer with
    | ok a => cases tells.1
    | error failure =>
      rw [failed]
      exact fun site => ⟨rfl, tells⟩

variable {fact : β → Prop}

theorem ok {b : β} (h : fact b) :
    Reports connections session (Pure.pure b : Operation β) (Tells fact) :=
  pure none ⟨rfl, h⟩

theorem throw {error : StoreError} :
    Reports connections session (MonadExcept.throw error : Operation β) (Tells fact) :=
  pure (some error) rfl

theorem andThen {operation : Operation α} {next : α → Operation β} {before : α → Prop}
    (first : Reports connections session operation (Tells before))
    (rest : ∀ a, before a → Reports connections session (next a) (Tells fact)) :
    Reports connections session (operation >>= next : Operation β) (Tells fact) := by
  rw [Operation.bind_eq]
  refine bind first (fun answer tells => ?_) fun answer error tells => ?_
  · cases answer with
    | ok a => exact rest a tells.2
    | error error => cases tells
  · cases answer with
    | ok a => cases tells.1
    | error error' =>
      cases tells
      exact fun site => ⟨rfl, rfl⟩

theorem lifted {action : Action α} {next : α → Operation β} {before : α → Option StoreError → Prop}
    (first : Reports connections session action before)
    (rest : ∀ a, before a none → Reports connections session (next a) (Tells fact))
    (stops : ∀ a error, before a (some error) → next a = MonadExcept.throw error) :
    Reports connections session (liftM action >>= next : Operation β) (Tells fact) := by
  suffices Reports connections session (Bind.bind (m := Action) action next) (Tells fact) from
    ⟨this.run⟩
  refine first.bind rest fun a error tells => ?_
  rw [stops a error tells]
  exact fun site => ⟨rfl, rfl⟩

theorem after {action : Action α} {next : α → Operation β}
    (idle : ∀ site : Site, site.Idle (action site).2)
    (rest : ∀ a, Reports connections session (next a) (Tells fact)) :
    Reports connections session (liftM action >>= next : Operation β) (Tells fact) := by
  have quiet : Reports connections session action fun _ error? => error? = none :=
    aside idle fun _ => rfl
  exact quiet.lifted (fun a _ => rest a) fun _ _ tells => nomatch tells

theorem called {call : Action (Except CallError α)} {next : Except CallError α → Operation β}
    {before : α → Prop} (first : Reports connections session call (CallTells before))
    (ok : ∀ value, before value → Reports connections session (next (.ok value)) (Tells fact))
    (mild : ∀ error, error.kind ≠ .other →
      Reports connections session (next (.error error)) (Tells fact))
    (fatal : ∀ error, error.kind = .other →
      next (.error error) = MonadExcept.throw (.transport error)) :
    Reports connections session (liftM call >>= next : Operation β) (Tells fact) := by
  refine lifted first (fun answer tells => ?_) fun answer error tells => ?_
  · cases answer with
    | ok value => exact ok value tells.2
    | error error =>
      refine mild error fun other => ?_
      simp [CallTells, other] at tells
  · cases answer with
    | ok value => cases tells.1
    | error failed =>
      by_cases other : failed.kind = .other
      · obtain rfl : error = .transport failed := by simpa [CallTells, other] using tells
        exact fatal failed other
      · simp [CallTells, other] at tells

theorem transported {call : Action (Except CallError α)} {next : α → Operation β}
    {before : α → Prop} (first : Reports connections session call (CallTells before))
    (rest : ∀ value, before value → Reports connections session (next value) (Tells fact)) :
    Reports connections session
      (liftM call >>= fun answer => Operation.transport answer >>= next : Operation β)
      (Tells fact) :=
  called first rest (fun _ _ => throw) fun _ _ => rfl

theorem poured {path : String} {stream : Action (Except IoError α)}
    {next : Except IoError α → Operation β}
    (first : Reports connections session stream (Streams path))
    (ok : ∀ value, Reports connections session (next (.ok value)) (Tells fact))
    (fatal : ∀ error, next (.error error) = MonadExcept.throw (.transport (.ofIo path error))) :
    Reports connections session (liftM stream >>= next : Operation β) (Tells fact) := by
  refine lifted first (fun answer tells => ?_) fun answer error tells => ?_
  · cases answer with
    | ok value => exact ok value
    | error error => cases tells
  · cases answer with
    | ok value => cases tells
    | error failed =>
      cases tells
      exact fatal failed

theorem streamed {path : String} {stream : Action (Except IoError α)} {next : α → Operation β}
    (first : Reports connections session stream (Streams path))
    (rest : ∀ value, Reports connections session (next value) (Tells fact)) :
    Reports connections session
      (liftM stream >>= fun answer => Operation.streamed path answer >>= next : Operation β)
      (Tells fact) :=
  poured first rest fun _ => rfl

end Reports

section Streams

variable {α : Type} {connections : List Connection}

theorem perform_reports (session : Session) {call : Call} (works : call.works = true)
    (act : Tree → Except CallError (α × Tree)) :
    Reports connections session (Site.perform session.number call act) CallTold := by
  refine ⟨fun site _ => ?_⟩
  cases eq : site.outcome call act with
  | ok answer =>
    rw [Site.perform_of_ok eq]
    refine ⟨none, ⟨rfl, rfl, rfl, [_], [], rfl, (List.append_nil _).symm, ?_, .single ?_⟩, ?_⟩
    · simpa using ⟨rfl, works⟩
    · exact fun _ failed => nomatch failed
    · exact ⟨rfl, trivial⟩
  | error error =>
    rw [Site.perform_of_error eq]
    refine ⟨_, ⟨rfl, rfl, rfl, [_], [], rfl, (List.append_nil _).symm, ?_, .single ?_⟩, rfl⟩
    · simpa using ⟨rfl, works⟩
    · intro failed eq other
      cases eq
      rw [if_pos other]

variable (session : Session) (path : String)

theorem stat_reports : Reports connections session (session.stat path) CallTold :=
  perform_reports session rfl _

theorem list_reports : Reports connections session (session.list path) CallTold :=
  .past (fun _ => ⟨rfl, rfl, rfl, rfl, rfl⟩) fun _ => perform_reports session rfl _

theorem makeDirectory_reports : Reports connections session (session.makeDirectory path) CallTold :=
  perform_reports session rfl _

theorem removeDirectory_reports :
    Reports connections session (session.removeDirectory path) CallTold :=
  perform_reports session rfl _

theorem removeFile_reports : Reports connections session (session.removeFile path) CallTold :=
  perform_reports session rfl _

theorem rename_reports (target : String) :
    Reports connections session (session.rename path target) CallTold :=
  perform_reports session rfl _

theorem streamRule_idle (kind : StreamKind) (site : Site) :
    site.Idle (Site.streamRule kind path site).2 := ⟨rfl, rfl, rfl, rfl, rfl⟩

theorem openRead_reports : Reports connections session (session.openRead path) CallTold := by
  refine .opening (perform_reports session rfl _) (fun _ => rfl) fun source _ => ?_
  exact .past (streamRule_idle path .read) fun cut? => .answer trivial

theorem openWrite_reports : Reports connections session (session.openWrite path) CallTold := by
  refine .opening (perform_reports session rfl _) (fun _ => rfl) fun location _ => ?_
  refine .past (streamRule_idle path .write) fun cut? => ?_
  exact .past (streamRule_idle path .shutdown) fun shutdown? => .answer trivial

theorem broken_worked (site : Site) (error : IoError) :
    site.Worked session (site.broken error) (some (.transport (.ofIo path error))) :=
  ⟨rfl, rfl, rfl, [], [_], (List.append_nil _).symm, rfl, by simp, .stream rfl ⟨path, rfl⟩⟩

theorem copy_reports (writer : Session.Writer) (source : Source) :
    Reports connections session (writer.copy source) (Streams path) := by
  refine ⟨fun site _ => ?_⟩
  dsimp only [Session.Writer.copy]
  have written (disk : Tree) : site.Worked session { site with disk } none :=
    .nothing ⟨rfl, rfl, rfl, rfl, rfl⟩
  split
  case h_1 error _ => exact ⟨_, (written _).trans (broken_worked session path _ error), rfl⟩
  case h_2 => exact ⟨none, written _, rfl⟩

theorem shutdown_reports (writer : Session.Writer) :
    Reports connections session writer.shutdown (Streams path) := by
  refine ⟨fun site _ => ?_⟩
  unfold Session.Writer.shutdown
  split
  case h_1 cut _ => exact ⟨_, broken_worked session path site cut.error, rfl⟩
  case h_2 => exact ⟨none, .refl session site none, rfl⟩

theorem pour_reports (source : Source) (cut? : Option Cut) :
    Reports connections session (Site.pour source cut?) fun poured error? =>
      error? = poured.2.map fun error => .transport (.ofIo path error) := by
  refine ⟨fun site _ => ?_⟩
  dsimp only [Site.pour]
  cases (source.through cut?).2 with
  | none => exact ⟨none, .refl session site none, rfl⟩
  | some error => exact ⟨_, broken_worked session path site error, rfl⟩

end Streams

end TreeStore
