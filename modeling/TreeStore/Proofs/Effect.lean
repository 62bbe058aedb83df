import TreeStore.Bucket.Listing
import TreeStore.Proofs.Footprint
/-!
What the parts of an operation do to a tree, under any rules and while the slot of the connection
holds a session. What only looks keeps the tree; the rest is rough or atomic for every footprint
that has its edits.
-/
namespace TreeStore

open Footprint

namespace Ends

variable {α : Type} {scene : Scene} {tree : Tree} {id : ConnectionId}

theorem live {session : Session} (shows : scene.Shows id (some session))
    {next : Session → Operation α} {ends : Except StoreError α → Tree → Prop}
    (rest : Ends scene tree (next session) ends) :
    Ends scene tree (id.session >>= next : Operation α) ends := by
  refine (session_ends tree shows).andThen (fun found tree' ⟨same, eq⟩ => ?_)
    fun error tree' ⟨_, eq⟩ => nomatch eq
  subst same
  cases eq
  exact rest

theorem closed (shows : scene.Shows id none) {next : Session → Operation α} :
    Ends scene tree (id.session >>= next : Operation α) fun answer tree' =>
      tree' = tree ∧ answer = .error .disconnected := by
  refine (session_ends tree shows).andThen (fun found tree' ⟨_, eq⟩ => nomatch eq)
    fun error tree' ⟨same, eq⟩ => ⟨same, ?_⟩
  cases eq
  rfl

end Ends

section Directories

variable {scene : Scene} {id : ConnectionId} {session : Session} {footprint : Footprint}
variable (shows : scene.Shows id (some session))

include shows

theorem contains_ends (tree : Tree) (path : String) :
    Ends scene tree (id.contains path) fun answer tree' => tree' = tree ∧
      ∀ error, answer = .error error → error.IsTransport := by
  refine .live shows ((stat_ends ..).lifted fun answer tree' same => ?_)
  cases answer with
  | ok node => exact .ok ⟨same, fun _ eq => nomatch eq⟩
  | error error =>
    dsimp only
    split
    · exact .ok ⟨same, fun _ eq => nomatch eq⟩
    · refine .throw ⟨same, fun error' eq => ⟨error, ?_⟩⟩
      cases eq
      rfl

theorem makeMissing_ends (names : List String) (base : String) (tree : Tree)
    (may : ∀ front, front <+: names → front ≠ [] →
      Disk.Reaches session (front.foldl Path.child base) → footprint.allowed
        (.makeDirectory (Disk.locate (session.resolve (front.foldl Path.child base))))) :
    Ends scene tree (id.makeMissing session base names) fun answer tree' =>
      footprint.Rough tree answer tree' ∧ (answer = .ok false → tree' = tree) := by
  induction names generalizing base tree with
  | nil => exact .ok ⟨.ok (.refl tree) false, fun _ => rfl⟩
  | cons name rest ih =>
    have later : ∀ front, front <+: rest → front ≠ [] →
        Disk.Reaches session (front.foldl Path.child (Path.child base name)) →
        footprint.allowed (.makeDirectory
          (Disk.locate (session.resolve (front.foldl Path.child (Path.child base name))))) := by
      intro front pre _
      exact may (name :: front) (List.cons_prefix_cons.2 ⟨rfl, pre⟩) (by simp)
    refine (contains_ends shows tree _).andThen (fun found tree' ⟨same, _⟩ => ?_)
      fun error tree' ⟨same, failed⟩ => ?_
    · subst same
      split
      · exact ih _ _ later
      · have first := makeDirectory_ends scene tree' session (Path.child base name)
          (may [name] (by simp) (by simp))
        refine first.transported (fun _ tree'' done => ?_) fun error tree'' done => ?_
        · refine (ih _ tree'' later).andThen (fun _ _ made => ?_) fun error _ made => ?_
          · exact .ok ⟨.ok (done.of_ok.trans made.1.covers) true, fun eq => nomatch eq⟩
          · exact ⟨(made.1.after done.of_ok).error, fun eq => nomatch eq⟩
        · exact ⟨.failed (.of_eq done.of_error) error, fun eq => nomatch eq⟩
    · subst same
      refine ⟨⟨.refl tree', fun _ eq => ?_⟩, fun eq => nomatch eq⟩
      cases eq
      exact failed _ rfl

/-- It is only an error of its own if nothing was missing, and then nothing was made. -/
theorem makeDirectories_ends (path : String) (tree : Tree)
    (may : ∀ front, front <+: Path.components path → front ≠ [] →
      Disk.Reaches session (Path.ofNames front) → footprint.allowed
        (.makeDirectory (Disk.locate (session.resolve (Path.ofNames front))))) :
    Ends scene tree (id.makeDirectories path) (footprint.Atomic tree) := by
  refine .live shows ?_
  have made := makeMissing_ends shows (Path.components path) "" tree may
  refine made.andThen (fun any tree' done => ?_) fun error tree' done => .inr done.1.error
  cases any with
  | true => exact .ok (.inr (.ok done.1.covers ()))
  | false => exact .throw (.inl ⟨⟨_, rfl⟩, done.2 rfl⟩)

end Directories

section Objects

variable {scene : Scene} {bucket : Bucket} {session : Session} {footprint : Footprint}

theorem settings_ends (scene : Scene) (tree : Tree) (id : ConnectionId) :
    Ends scene tree id.settings fun _ tree' => tree' = tree :=
  ⟨fun _ start same => ⟨start, same⟩⟩

def Scene.Formats (scene : Scene) (bucket : Bucket) (format : RecordFormat) : Prop :=
  ∃ site, scene.holds site ∧ (bucket.format site).1 = format

theorem format_of_known {id : ConnectionId} {connection : Connection} {name : String}
    {format : RecordFormat} (formats : (Scene.known id connection).Formats ⟨id, name⟩ format) :
    format = connection.settings.format := by
  obtain ⟨site, known, rfl⟩ := formats
  show (((site.connections[id.index]?).map Connection.settings).getD {}).format = _
  rw [known]
  rfl

theorem format_of_holds {bucket : Bucket} {connection : Connection} {site : Site}
    (known : (Scene.known bucket.connection connection).holds site) :
    (bucket.format site).1 = connection.settings.format :=
  format_of_known ⟨site, known, rfl⟩

theorem known_of_live {bucket : Bucket} {session : Session} {site : Site}
    (live : (site.connections[bucket.connection.index]?).bind Connection.slot = some session) :
    ∃ connection, (Scene.known bucket.connection connection).holds site ∧
      connection.slot = some session ∧ (bucket.format site).1 = connection.settings.format := by
  obtain ⟨connection, known, live⟩ := Option.bind_eq_some_iff.1 live
  exact ⟨connection, known, live, format_of_holds known⟩

theorem format_ends (scene : Scene) (tree : Tree) (bucket : Bucket) :
    Ends scene tree bucket.format fun format tree' =>
      tree' = tree ∧ scene.Formats bucket format :=
  ⟨fun site start same => ⟨start, same, site, start, rfl⟩⟩

def Session.Finds (session : Session) (path : String) (tree : Tree) (bytes : Bytes) : Prop :=
  ∃ whole, Disk.openRead tree (session.resolve path) = .ok whole ∧ bytes <+: whole.bytes

theorem openPayload_cuts (tree : Tree) (key : String) :
    Ends scene tree (bucket.openPayload session key) fun answer tree' => tree' = tree ∧
      ∀ source, answer = .ok source → ∃ whole cut?,
        Disk.openRead tree (session.resolve (bucket.payloadPath key)) = .ok whole ∧
          source = whole.cut cut? := by
  refine (openRead_cuts ..).lifted fun answer tree' ⟨same, found⟩ => ?_
  refine (onPayload_ends ..).mono fun _ _ ⟨still, eq⟩ => ⟨still.trans same, fun source ok => ?_⟩
  subst eq
  cases answer with
  | error error => cases ok
  | ok source' =>
    cases ok
    exact found source rfl

theorem openPayload_ends (tree : Tree) (key : String) :
    Ends scene tree (bucket.openPayload session key) fun answer tree' => tree' = tree ∧
      ∀ source, answer = .ok source →
        session.Finds (bucket.payloadPath key) tree source.bytes := by
  refine (openPayload_cuts tree key).mono fun answer tree' ⟨same, found⟩ => ⟨same, fun source eq => ?_⟩
  obtain ⟨whole, cut?, opened, rfl⟩ := found source eq
  exact ⟨whole, opened, Disk.Source.cut_bytes_prefix whole cut?⟩

def Record.Held (scene : Scene) (session : Session) (bucket : Bucket) (key : String) (tree : Tree)
    (record : Record) : Prop :=
  ∃ format bytes, scene.Formats bucket format ∧
    Disk.openRead tree (session.resolve (bucket.recordPath key)) = .ok (.ofBytes bytes) ∧
    format.decode bytes = .ok record

theorem Disk.Source.eq_of_uncut {whole : Source} {cut? : Option Cut}
    (ends : (whole.cut cut?).failure? = none) : whole = .ofBytes (whole.cut cut?).bytes := by
  obtain ⟨bytes, failure?⟩ := whole
  cases cut? with
  | none =>
    cases ends
    rfl
  | some cut =>
    unfold Source.cut at ends ⊢
    dsimp only at ends ⊢
    split at ends
    case isTrue => cases ends
    case isFalse outside =>
      cases ends
      rw [if_neg outside]
      rfl

theorem readRecord_ends (tree : Tree) (key : String) :
    Ends scene tree (bucket.readRecord session key) fun answer tree' => tree' = tree ∧
      ∀ record, answer = .ok record → record.Held scene session bucket key tree := by
  unfold Bucket.readRecord
  dsimp only
  refine (openRead_cuts ..).lifted fun answer tree' ⟨same, found⟩ => ?_
  refine (onPayload_ends ..).andThen (fun source later ⟨still, eq⟩ => ?_)
    fun error later still => ⟨still.1.trans same, fun _ eq => nomatch eq⟩
  have same := still.trans same
  cases answer with
  | error error => cases eq
  | ok source =>
    cases eq
    obtain ⟨whole, cut?, opened, rfl⟩ := found _ rfl
    refine (pour_ends ..).lifted fun poured _ ⟨still, eq⟩ => ?_
    have same := still.trans same
    subst eq
    split
    case h_1 => exact .throw ⟨same, fun _ eq => nomatch eq⟩
    case h_2 through =>
      refine (format_ends ..).lifted fun format _ ⟨still, formats⟩ => ?_
      have same := still.trans same
      split
      case h_1 record decoded =>
        refine .ok ⟨same, fun record' eq => ?_⟩
        cases eq
        have uncut := Disk.Source.eq_of_uncut through
        exact ⟨format, _, formats, opened.trans (congrArg _ uncut), decoded⟩
      case h_2 => exact .throw ⟨same, fun _ eq => nomatch eq⟩

theorem streamed_rough {α : Type} (tree : Tree) (path : String) (answer : Except IoError α) :
    Ends scene tree (Operation.streamed path answer) (footprint.Rough tree) := by
  refine (streamed_ends ..).mono fun result tree' ⟨same, eq⟩ => ?_
  subst same eq
  cases answer with
  | ok value => exact .ok (.refl tree') value
  | error error => exact .failed (.refl tree') _

theorem copied_bind {α : Type} {writer : Session.Writer} {path : String}
    {next : Nat → Except IoError Unit → Operation α} (tree : Tree) (source : Source)
    (fresh : writer.Fresh session path tree) (fills : footprint.Fills session path source.bytes)
    (rest : ∀ size answer tree', Ends scene tree' (next size answer) (footprint.Rough tree')) :
    Ends scene tree (do
        let size ← Operation.streamed path (← writer.copy source)
        next size (← writer.shutdown) : Operation α)
      (footprint.Rough tree) := by
  refine (writer_ends scene tree session path source fresh fills).lifted
    fun answer tree' covers => ?_
  refine ((streamed_rough tree' path answer).rough_bind fun size later => ?_).rough_after covers
  refine (shutdown_ends scene later writer).lifted fun answer last ⟨same, _⟩ => ?_
  subst same
  exact rest size answer last

theorem writeRecord_ends (tree : Tree) (key : String) (record : Record)
    (fills : ∀ format, scene.Formats bucket format →
      footprint.Fills session (bucket.recordPath key) (format.encode record)) :
    Ends scene tree (bucket.writeRecord session key record) (footprint.Rough tree) := by
  refine (format_ends ..).lifted fun format tree' ⟨same, formats⟩ => ?_
  subst same
  have fills := fills format formats
  refine (openFile_ends scene tree' session _ fills).transported
    (fun writer later ⟨done, fresh⟩ => ?_) fun error later ⟨done, _⟩ => ?_
  · refine .rough_after done.of_ok ?_
    exact copied_bind later (.ofBytes (format.encode record)) (fresh writer rfl) fills
      fun _ answer last => streamed_rough last _ answer
  · exact .failed (.of_eq done.of_error) error

variable (shows : scene.Shows bucket.connection (some session))

include shows

theorem require_ends (tree : Tree) (key : String) :
    Ends scene tree (bucket.require key) fun _ tree' => tree' = tree := by
  refine (contains_ends shows tree _).andThen (fun found tree' ⟨same, _⟩ => ?_)
    fun error tree' ⟨same, _⟩ => same
  split
  · exact .ok same
  · exact .throw same

def Footprint.Makes (footprint : Footprint) (session : Session) (path : String) : Prop :=
  ∀ front, front <+: Path.components (Path.parent path) → front ≠ [] →
    Disk.Reaches session (Path.ofNames front) → footprint.allowed
      (.makeDirectory (Disk.locate (session.resolve (Path.ofNames front))))

/-- The call is made once more only if directories were missing and have been made. -/
theorem withDirectories_ends {α : Type} (path : String)
    {call : Action (Except CallError α)} (fact : α → Tree → Prop) (tree : Tree)
    (each : ∀ tree, Ends scene tree call fun answer tree' =>
      footprint.Called tree answer tree' ∧ ∀ value, answer = .ok value → fact value tree')
    (makes : footprint.Makes session path) :
    Ends scene tree (bucket.withDirectories path call) fun answer tree' =>
      footprint.Atomic tree answer tree' ∧ ∀ value, answer = .ok value → fact value tree' := by
  refine (each tree).lifted fun answer tree' ⟨done, known⟩ => ?_
  cases answer with
  | ok value =>
    exact .ok ⟨.inr (.ok done.of_ok value), fun value' eq => known value' (by cases eq; rfl)⟩
  | error error =>
    have same := done.of_error
    subst same
    dsimp only
    split
    · have made := makeDirectories_ends shows (Path.parent path) tree' makes
      refine made.andThen (fun _ later done => ?_)
        fun error later done => ⟨done.error, fun _ eq => nomatch eq⟩
      refine (each later).lifted fun answer last ⟨again, known⟩ => ?_
      refine (transport_ends ..).mono fun result _ ⟨same, eq⟩ => ?_
      subst same eq
      cases answer with
      | ok value =>
        refine ⟨.inr (.ok (done.covers.trans again.of_ok) value), fun value' eq => ?_⟩
        exact known value' (by cases eq; rfl)
      | error error =>
        refine ⟨.inr (.failed (done.covers.trans (.of_eq again.of_error)) error), ?_⟩
        exact fun _ eq => nomatch eq
    · exact .throw ⟨.inr (.failed (.refl tree') error), fun _ eq => nomatch eq⟩

theorem writePayload_ends (tree : Tree) (key : String) (source : Source)
    (makes : footprint.Makes session (bucket.payloadPath key))
    (fills : footprint.Fills session (bucket.payloadPath key) source.bytes) :
    Ends scene tree (bucket.writePayload session key source) (footprint.Atomic tree) := by
  have opened := withDirectories_ends shows (bucket.payloadPath key)
    (fun writer : Session.Writer => writer.Fresh session (bucket.payloadPath key))
    tree (fun tree => openFile_ends scene tree session _ fills) makes
  refine opened.andThen (fun writer tree' ⟨done, fresh⟩ => ?_) fun _ _ done => done.1.error
  refine (Ends.rough_after done.covers ?_).rough
  refine copied_bind tree' source (fresh writer rfl) fills fun size answer last => ?_
  exact (streamed_rough last _ answer).rough_bind fun _ closed => .ok (.ok (.refl closed) size)

end Objects

end TreeStore
