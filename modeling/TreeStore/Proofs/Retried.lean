import TreeStore.Proofs.Logged
/-!
How often a call is made that is tried again for want of a directory. Whatever fails, the payload is
opened for writing, or moved, at most twice in one command, and a second time only after the first
one found something missing on its way and a directory has been made since (`store_retries`,
`copy_retries`, `rename_retries`).
-/
namespace TreeStore

def Spared (call : Call) (events : List Event) : Prop := ∀ event ∈ events, event.call ≠ call

def Event.Makes (event : Event) : Prop :=
  (∃ path, event.call = .makeDirectory path) ∧ event.failure? = none

/-- Among the events the call is made at most twice. A second time it is made only after it failed
for something that was not found, and after a directory was made. -/
inductive Retried (call : Call) : List Event → Prop
  | never {events : List Event} (spared : Spared call events) : Retried call events
  | once {before after : List Event} {attempt : Event} (attempted : attempt.call = call)
      (spared : Spared call before) (spared' : Spared call after) :
      Retried call (before ++ attempt :: after)
  | twice {before between after : List Event} {first second : Event}
      (attempted : first.call = call) (attempted' : second.call = call)
      (missed : ∃ error, first.failure? = some error ∧ error.kind = .notFound)
      (made : ∃ event ∈ between, event.Makes) (spared : Spared call before)
      (spared' : Spared call between) (spared'' : Spared call after) :
      Retried call (before ++ first :: (between ++ second :: after))

section Events

variable {call : Call} {events events' : List Event}

theorem Spared.nil : Spared call [] := by simp [Spared]

theorem Spared.single {event : Event} (other : event.call ≠ call) : Spared call [event] :=
  fun _ mem => List.mem_singleton.1 mem ▸ other

theorem Spared.append (first : Spared call events) (rest : Spared call events') :
    Spared call (events ++ events') :=
  fun event mem => (List.mem_append.1 mem).elim (first event) (rest event)

namespace Retried

theorem after (spared : Spared call events) (retried : Retried call events') :
    Retried call (events ++ events') := by
  cases retried with
  | never spared' => exact .never (spared.append spared')
  | once attempted spared' spared'' =>
    rw [← List.append_assoc]
    exact .once attempted (spared.append spared') spared''
  | twice attempted attempted' missed made start middle rest =>
    rw [← List.append_assoc]
    exact .twice attempted attempted' missed made (spared.append start) middle rest

theorem before (retried : Retried call events) (spared : Spared call events') :
    Retried call (events ++ events') := by
  cases retried with
  | never spared' => exact .never (spared'.append spared)
  | once attempted spared' spared'' =>
    rw [List.append_assoc, List.cons_append]
    exact .once attempted spared' (spared''.append spared)
  | twice attempted attempted' missed made start middle rest =>
    rw [List.append_assoc, List.cons_append, List.append_assoc, List.cons_append]
    exact .twice attempted attempted' missed made start middle (rest.append spared)

end Retried

end Events

def Notes {α : Type} (action : Action α) (noted : α → List Event → Prop) : Prop :=
  ∀ site, ∃ events, (action site).2.log = site.log ++ events ∧ noted (action site).1 events

abbrev Avoids {α : Type} (call : Call) (action : Action α) : Prop :=
  Notes action fun _ events => Spared call events

abbrev Retries {α : Type} (call : Call) (action : Action α) : Prop :=
  Notes action fun _ events => Retried call events

section Rules

variable {α β : Type} {call : Call}

namespace Notes

variable {noted : β → List Event → Prop}

theorem single {number : Nat} {action : Action (Except CallError α)}
    (once : Single number call action) :
    Notes action fun answer events => events = [call.noted number answer] :=
  fun site => ⟨_, once site, rfl⟩

theorem pure {b : β} (h : noted b []) : Notes (Pure.pure b : Action β) noted :=
  fun site => ⟨[], (List.append_nil site.log).symm, h⟩

theorem bind {action : Action α} {next : α → Action β} {middle : α → List Event → Prop}
    (first : Notes action middle)
    (rest : ∀ a events, middle a events → Notes (next a) fun b events' =>
      noted b (events ++ events')) : Notes (action >>= next) noted := by
  intro site
  obtain ⟨events, log, done⟩ := first site
  obtain ⟨events', log', done'⟩ := rest _ _ done (action site).2
  exact ⟨events ++ events', by rw [← List.append_assoc, ← log]; exact log', done'⟩

variable {operation : Operation α} {next : α → Operation β}
variable {noted : Except StoreError β → List Event → Prop}

theorem andThen {middle : Except StoreError α → List Event → Prop}
    (first : Notes operation middle)
    (rest : ∀ a events, middle (.ok a) events → Notes (next a) fun b events' =>
      noted b (events ++ events'))
    (fails : ∀ error events, middle (.error error) events → noted (.error error) events) :
    Notes (operation >>= next : Operation β) noted := by
  rw [Operation.bind_eq]
  refine bind first fun answer events done => ?_
  cases answer with
  | ok a => exact rest a events done
  | error error => exact pure (by rw [List.append_nil]; exact fails error events done)

theorem lifted {action : Action α} {middle : α → List Event → Prop} (first : Notes action middle)
    (rest : ∀ a events, middle a events → Notes (next a) fun b events' =>
      noted b (events ++ events')) :
    Notes (liftM action >>= next : Operation β) noted :=
  @bind α (Except StoreError β) noted action next middle first rest

theorem transported {action : Action (Except CallError α)}
    {middle : Except CallError α → List Event → Prop} (first : Notes action middle)
    (rest : ∀ a events, middle (.ok a) events → Notes (next a) fun b events' =>
      noted b (events ++ events'))
    (fails : ∀ error events, middle (.error error) events →
      noted (.error (.transport error)) events) :
    Notes (liftM action >>= fun answer => Operation.transport answer >>= next : Operation β)
      noted := by
  refine lifted first fun answer events done => ?_
  cases answer with
  | ok a => exact rest a events done
  | error error => exact pure (by rw [List.append_nil]; exact fails error events done)

end Notes

namespace Avoids

theorem single {number : Nat} {call' : Call} {action : Action (Except CallError α)}
    (once : Single number call' action) (other : call' ≠ call) : Avoids call action := by
  refine fun site => ⟨_, once site, .single ?_⟩
  cases (action site).1 <;> exact other

theorem silent {action : Action α} (quiet : Silent action) : Avoids call action :=
  fun site => ⟨[], by rw [quiet site, List.append_nil], .nil⟩

variable {operation : Operation α} {next : α → Operation β}

theorem andThen (first : Avoids call operation) (rest : ∀ a, Avoids call (next a)) :
    Avoids call (operation >>= next : Operation β) :=
  Notes.andThen first
    (fun a _ spared site => (rest a site).imp fun _ => And.imp_right spared.append)
    fun _ _ spared => spared

theorem lifted {action : Action α} (first : Avoids call action)
    (rest : ∀ a, Avoids call (next a)) : Avoids call (liftM action >>= next : Operation β) :=
  Notes.lifted first
    fun a _ spared site => (rest a site).imp fun _ => And.imp_right spared.append

theorem then_retries (first : Avoids call operation) (rest : ∀ a, Retries call (next a)) :
    Retries call (operation >>= next : Operation β) :=
  Notes.andThen first
    (fun a _ spared site => (rest a site).imp fun _ => And.imp_right (.after spared))
    fun _ _ spared => .never spared

theorem retries {action : Action α} (avoids : Avoids call action) : Retries call action :=
  fun site => (avoids site).imp fun _ => And.imp_right .never

end Avoids

theorem Notes.then_avoids {operation : Operation α} {next : α → Operation β}
    (first : Retries call operation) (rest : ∀ a, Avoids call (next a)) :
    Retries call (operation >>= next : Operation β) :=
  Notes.andThen first
    (fun a _ retried site => (rest a site).imp fun _ => And.imp_right retried.before)
    fun _ _ retried => retried

end Rules

section Operations

variable {call : Call} {bucket : Bucket} {session : Session} {id : ConnectionId}

theorem ok_avoids {α : Type} (a : α) : Avoids call (pure a : Operation α) := .silent fun _ => rfl

theorem throw_avoids {α : Type} (error : StoreError) : Avoids call (throw error : Operation α) :=
  .silent fun _ => rfl

theorem transport_avoids {α : Type} (answer : Except CallError α) :
    Avoids call (Operation.transport answer) :=
  .silent fun _ => by cases answer <;> rfl

theorem onPayload_avoids {α : Type} (key : String) (answer : Except CallError α) :
    Avoids call (Operation.onPayload key answer) :=
  .silent fun _ => by cases answer <;> rfl

theorem streamed_avoids {α : Type} (path : String) (answer : Except IoError α) :
    Avoids call (Operation.streamed path answer) :=
  .silent fun _ => by cases answer <;> rfl

theorem session_avoids (id : ConnectionId) : Avoids call id.session :=
  .silent fun site => by rw [session_eq]

theorem pour_silent (source : Source) (cut? : Option Cut) : Silent (Site.pour source cut?) := by
  intro site
  show ((source.through cut?).2.elim site site.broken).log = site.log
  cases (source.through cut?).2 <;> rfl

theorem contains_avoids (path : String) (other : .stat path ≠ call) :
    Avoids call (id.contains path) := by
  refine (session_avoids id).andThen fun session => ?_
  refine (Avoids.single (stat_single session path) other).lifted fun answer => ?_
  cases answer with
  | ok node => exact ok_avoids true
  | error error =>
    dsimp only
    split
    · exact ok_avoids false
    · exact throw_avoids _

theorem writeRecord_avoids (key : String) (record : Record)
    (other : .openFile .write (bucket.recordPath key) ≠ call) :
    Avoids call (bucket.writeRecord session key record) := by
  refine (Avoids.silent (format_silent bucket)).lifted fun format => ?_
  refine (Avoids.single (openWrite_single session _) other).lifted fun opened => ?_
  refine (transport_avoids opened).andThen fun writer => ?_
  refine (Avoids.silent (copy_silent writer _)).lifted fun copied => ?_
  refine (streamed_avoids _ copied).andThen fun _ => ?_
  exact (Avoids.silent (shutdown_silent writer)).lifted fun ended => streamed_avoids _ ended

theorem openPayload_avoids (key : String)
    (other : .openFile .read (bucket.payloadPath key) ≠ call) :
    Avoids call (bucket.openPayload session key) :=
  (Avoids.single (openRead_single session _) other).lifted fun opened => onPayload_avoids key opened

theorem readRecord_avoids (key : String)
    (other : .openFile .read (bucket.recordPath key) ≠ call) :
    Avoids call (bucket.readRecord session key) := by
  refine (Avoids.single (openRead_single session _) other).lifted fun opened => ?_
  refine (onPayload_avoids key opened).andThen fun source => ?_
  refine (Avoids.silent (pour_silent source none)).lifted fun poured => ?_
  obtain ⟨bytes, failure?⟩ := poured
  cases failure? with
  | some error => exact throw_avoids _
  | none =>
    refine (Avoids.silent (format_silent bucket)).lifted fun format => ?_
    split
    · exact ok_avoids _
    · exact throw_avoids _

theorem require_avoids (key : String) (other : .stat (bucket.payloadPath key) ≠ call) :
    Avoids call (bucket.require key) := by
  refine (contains_avoids _ other).andThen fun found => ?_
  cases found
  · exact throw_avoids _
  · exact ok_avoids ()

variable (noStat : ∀ path, .stat path ≠ call) (noMake : ∀ path, .makeDirectory path ≠ call)

include noStat noMake

theorem makeMissing_notes (base : String) (names : List String) :
    Notes (id.makeMissing session base names) fun answer events => Spared call events ∧
      (answer = .ok true → ∃ event ∈ events, event.Makes) := by
  induction names generalizing base with
  | nil => exact .pure ⟨.nil, nofun⟩
  | cons name rest ih =>
    refine .andThen (contains_avoids (Path.child base name) (noStat _))
      (fun found events spared => ?_) fun _ _ spared => ⟨spared, nofun⟩
    cases found with
    | true =>
      refine fun site => (ih (Path.child base name) site).imp fun events' ⟨log, spared', made⟩ =>
        ⟨log, spared.append spared', fun any => ?_⟩
      obtain ⟨event, mem, makes⟩ := made any
      exact ⟨event, List.mem_append_right _ mem, makes⟩
    | false =>
      refine .transported (.single (makeDirectory_single session (Path.child base name)))
        (fun _ events' eq => ?_) fun error events' eq => ⟨?_, nofun⟩
      · have once : Spared call events' := eq ▸ .single (noMake _)
        refine .andThen (ih (Path.child base name))
          (fun _ events'' ⟨spared', _⟩ => .pure ⟨?_, fun _ => ?_⟩)
          fun _ events'' ⟨spared', _⟩ => ⟨spared.append (once.append spared'), nofun⟩
        · rw [List.append_nil]
          exact spared.append (once.append spared')
        · refine ⟨⟨session.number, .makeDirectory (Path.child base name), none⟩, ?_, ⟨_, rfl⟩, rfl⟩
          rw [eq]
          simp [Call.noted]
      · exact eq ▸ spared.append (.single (noMake _))

theorem makeDirectories_notes (path : String) :
    Notes (id.makeDirectories path) fun answer events => Spared call events ∧
      (answer = .ok () → ∃ event ∈ events, event.Makes) := by
  refine .andThen (session_avoids id) (fun session events spared => ?_)
    fun _ _ spared => ⟨spared, nofun⟩
  refine .andThen (makeMissing_notes noStat noMake "" (Path.components path))
    (fun any events' ⟨spared', made⟩ => ?_) fun _ _ ⟨spared', _⟩ => ⟨spared.append spared', nofun⟩
  cases any with
  | false => exact .pure ⟨by simpa using spared.append spared', nofun⟩
  | true =>
    obtain ⟨event, mem, makes⟩ := made rfl
    refine .pure ⟨by simpa using spared.append spared', fun _ => ⟨event, ?_, makes⟩⟩
    simp [mem]

/-- A call that finds something missing is made once more, after directories have been made. -/
theorem withDirectories_retries {α : Type} (path : String) {number : Nat}
    {action : Action (Except CallError α)} (once : Single number call action) :
    Retries call (bucket.withDirectories path action) := by
  have attempt : ∀ answer : Except CallError α, (call.noted number answer).call = call :=
    fun answer => by cases answer <;> rfl
  refine .lifted (.single once) fun answer events eq => ?_
  subst eq
  have alone : Retried call ([] ++ call.noted number answer :: []) :=
    .once (attempt answer) .nil .nil
  cases answer with
  | ok value => exact .pure (by simpa using alone)
  | error error =>
    dsimp only
    split
    case isFalse => exact .pure (by simpa using alone)
    case isTrue missing =>
      refine .andThen (makeDirectories_notes noStat noMake (Path.parent path))
        (fun _ between ⟨spared, made⟩ => ?_) fun _ between ⟨spared, _⟩ => alone.before spared
      refine .lifted (.single once) fun answer' events eq => ?_
      subst eq
      have again : Retried call ([] ++ call.noted number (.error error) ::
          (between ++ call.noted number answer' :: [])) :=
        .twice (attempt _) (attempt _) ⟨error, rfl, by simpa [CallError.isNotFound] using missing⟩
          (made rfl) .nil spared .nil
      cases answer' <;> exact .pure (by simpa using again)

end Operations

theorem Layout.payloadPath_ne_recordPath (name name' key key' : String) :
    payloadPath name key ≠ recordPath name' key' := by
  intro same
  have last := congrArg (fun path => path.toList.getLast?) same
  simp [payloadPath, recordPath, payloadSuffix, recordSuffix] at last

section Commands

variable (bucket : Bucket)

theorem writePayload_retries (session : Session) (key : String) (source : Source) :
    Retries (.openFile .write (bucket.payloadPath key))
      (bucket.writePayload session key source) := by
  refine (withDirectories_retries (by simp) (by simp) _ (openWrite_single session _)).then_avoids
    fun writer => ?_
  refine (Avoids.silent (copy_silent writer source)).lifted fun copied => ?_
  refine (streamed_avoids _ copied).andThen fun size => ?_
  refine (Avoids.silent (shutdown_silent writer)).lifted fun ended => ?_
  exact (streamed_avoids _ ended).andThen fun _ => ok_avoids size

theorem store_retries (key : String) (payload : Payload) (record : Record) :
    Retries (.openFile .write (bucket.payloadPath key)) (bucket.store key payload record) := by
  have apart : bucket.recordPath key ≠ bucket.payloadPath key :=
    (Layout.payloadPath_ne_recordPath _ _ _ _).symm
  refine (session_avoids bucket.connection).then_retries fun session => ?_
  refine (streamed_avoids _ payload.rewind).then_retries fun rewound => ?_
  refine (writePayload_retries bucket session key rewound.source).then_avoids fun size => ?_
  exact (writeRecord_avoids key record (by simpa using apart)).andThen fun _ => ok_avoids size

theorem updateRecord_avoids (key target : String) (record : Record) :
    Avoids (.openFile .write (bucket.payloadPath target)) (bucket.updateRecord key record) := by
  have apart : bucket.recordPath key ≠ bucket.payloadPath target :=
    (Layout.payloadPath_ne_recordPath _ _ _ _).symm
  refine (session_avoids bucket.connection).andThen fun session => ?_
  refine (require_avoids key (by simp)).andThen fun _ => ?_
  exact writeRecord_avoids key record (by simpa using apart)

theorem copy_retries (source target : String) (record? : Option Record) :
    Retries (.openFile .write (bucket.payloadPath target)) (bucket.copy source target record?) := by
  have apart : bucket.recordPath target ≠ bucket.payloadPath target :=
    (Layout.payloadPath_ne_recordPath _ _ _ _).symm
  unfold Bucket.copy
  split
  case isTrue =>
    cases record? with
    | some record => exact (updateRecord_avoids bucket source target record).retries
    | none => exact (require_avoids source (by simp)).retries
  case isFalse =>
    refine (session_avoids bucket.connection).then_retries fun session => ?_
    refine (openPayload_avoids source (by simp)).then_retries fun reader => ?_
    have written : ∀ record, Retries (.openFile .write (bucket.payloadPath target)) (do
        let _ ← bucket.writePayload session target reader
        bucket.writeRecord session target record : Operation Unit) := fun record =>
      (writePayload_retries bucket session target reader).then_avoids fun _ =>
        writeRecord_avoids target record (by simpa using apart)
    cases record? with
    | some record => exact (ok_avoids record).then_retries written
    | none => exact (readRecord_avoids source (by simp)).then_retries written

theorem rename_retries (source target : String) :
    Retries (.rename (bucket.payloadPath source) (bucket.payloadPath target))
      (bucket.rename source target) := by
  have apart : bucket.recordPath source ≠ bucket.payloadPath source :=
    (Layout.payloadPath_ne_recordPath _ _ _ _).symm
  refine (session_avoids bucket.connection).then_retries fun session => ?_
  refine (require_avoids source (by simp)).then_retries fun _ => ?_
  refine (withDirectories_retries (by simp) (by simp) _
    (rename_single session _ _)).then_avoids fun _ => ?_
  refine (Avoids.single (rename_single session _ _) (by simp [apart])).lifted fun answer => ?_
  cases answer with
  | ok _ => exact ok_avoids ()
  | error error =>
    dsimp only
    split
    · exact ok_avoids ()
    · exact throw_avoids _

end Commands

end TreeStore
