import TreeStore.Proofs.Calm
import TreeStore.Proofs.Reread
/-!
What is fetched right after a record has been put under a key. A command that puts one and does not
fail has left the whole of its written form in the file of the key, whatever the rules were; so what
a fetch answers is up to the format alone (`fetched_of_put`).
-/
namespace TreeStore

namespace Disk

theorem openRead_of_opened {tree tree' : Tree} {path : String} {location : Location}
    (opened : openWrite tree path true = .ok (location, tree')) (content : Bytes) :
    openRead (tree'.insert location (.file content)) path = .ok (.ofBytes content) := by
  obtain ⟨directory, name, reached, short, rfl, free, rfl⟩ := openWrite_eq_ok opened
  rw [SortedMap.insert_insert]
  have named : directory ++ [name] ≠ [] := by simp
  have kept : ∀ place, tree.node? place = some .directory →
      Tree.node? (SortedMap.insert tree (directory ++ [name]) (.file content)) place =
        some .directory := by
    intro place there
    rw [Tree.node?_insert _ named, if_neg, there]
    rintro rfl
    exact free there
  have there : Tree.node? (SortedMap.insert tree (directory ++ [name]) (.file content))
      (directory ++ [name]) = some (.file content) := by
    rw [Tree.node?_insert _ named, if_pos rfl]
  have leads : Leads (SortedMap.insert tree (directory ++ [name]) (.file content)) path directory
      name false := ⟨target_mono kept reached, short⟩
  rw [openRead, leads.find_eq, there]
  rfl

end Disk

def Session.Reads (session : Session) (path : String) (tree : Tree) (bytes : Bytes) : Prop :=
  Disk.openRead tree (session.resolve path) = .ok (.ofBytes bytes)

/-- The command puts this record under this key. -/
inductive Command.Puts (key : String) (record : Record) : Command → Prop
  | store (payload : Payload) : Puts key record (.store key payload record)
  | update : Puts key record (.updateRecord key record)

theorem copy_whole {scene : Scene} {tree : Tree} (writer : Session.Writer) (source : Source) :
    Ends scene tree (writer.copy source) fun answer tree' =>
      ∀ size, answer = .ok size → tree' = Disk.append tree writer.location source.bytes := by
  refine ((copy_ends ..).and (copy_uncut ..)).mono fun answer tree' ⟨copied, uncut⟩ size well => ?_
  rw [copied, Disk.Source.through_eq_of_none (uncut size well)]

theorem Command.Puts.disconnected {scene : Scene} {tree : Tree} {bucket : Bucket} {key : String}
    {record : Record} {command : Command} (puts : command.Puts key record)
    (shows : scene.Shows bucket.connection none) :
    Ends scene tree (command.run bucket) fun answer _ =>
      answer.error? = some .disconnected := by
  cases puts with
  | store payload =>
    refine .map ((Ends.closed shows).mono fun answer _ ⟨_, eq⟩ => ?_)
    rw [eq]
    rfl
  | update =>
    refine .map ((Ends.closed shows).mono fun answer _ ⟨_, eq⟩ => ?_)
    rw [eq]
    rfl

section Putting

variable {tree : Tree} {session : Session} {id : ConnectionId} {connection : Connection}
variable {name key : String} {record : Record} (live : connection.slot = some session)

/-- A record that is written leaves the tree alone, or a beginning of its written form; if the write
does not fail, that is the whole. -/
theorem writeRecord_leaves :
    Ends (Scene.known id connection) tree (Bucket.writeRecord ⟨id, name⟩ session key record)
      fun answer tree' => tree' = tree ∧ answer ≠ .ok () ∨
        ∃ bytes, bytes <+: connection.settings.format.encode record ∧
          session.Reads (Bucket.recordPath ⟨id, name⟩ key) tree' bytes ∧
          (answer = .ok () → bytes = connection.settings.format.encode record) := by
  refine (format_ends ..).lifted fun format _ ⟨same, formats⟩ => ?_
  subst same
  obtain rfl := format_of_known formats
  refine (openWrite_ends ..).transported (fun writer later done => ?_) fun error later done => ?_
  · obtain ⟨_, eq, -⟩ | ⟨writer', eq, opened⟩ := done
    · cases eq
    cases eq
    have reads : ∀ bytes, session.Reads (Bucket.recordPath ⟨id, name⟩ key)
        (Disk.append later writer.location bytes) bytes := by
      intro bytes
      rw [Disk.append_of_file (Disk.openWrite_empties opened)]
      exact Disk.openRead_of_opened opened bytes
    refine ((copy_ends ..).and (copy_whole ..)).streamed (fun size later' ⟨_, whole⟩ => ?_)
      fun error later' ⟨cut, _⟩ => ?_
    · refine (shutdown_ends ..).lifted fun answer _ ⟨same, _⟩ => ?_
      subst same
      refine (streamed_ends ..).mono fun _ _ ⟨same, _⟩ => .inr ⟨_, List.prefix_rfl, ?_, fun _ => rfl⟩
      rw [same, whole size rfl]
      exact reads _
    · refine .inr ⟨_, Disk.Source.through_prefix (.ofBytes _) writer.cut?, ?_, fun eq => nomatch eq⟩
      rw [cut]
      exact reads _
  · obtain ⟨_, -, same⟩ | ⟨_, eq, -⟩ := done
    · exact .inl ⟨same, fun eq => nomatch eq⟩
    · cases eq

theorem writeRecord_reads :
    Ends (Scene.known id connection) tree (Bucket.writeRecord ⟨id, name⟩ session key record)
      fun answer tree' => answer = .ok () → session.Reads (Bucket.recordPath ⟨id, name⟩ key) tree'
        (connection.settings.format.encode record) := by
  refine writeRecord_leaves.mono fun answer tree' left well => ?_
  obtain ⟨-, failed⟩ | ⟨bytes, -, reads, whole⟩ := left
  · exact absurd well failed
  · rwa [whole well] at reads

include live

theorem writePayload_boundless (source : Source) :
    Ends (Scene.known id connection) tree (Bucket.writePayload ⟨id, name⟩ session key source)
      (Footprint.boundless.Atomic tree) := by
  have shows : (Scene.known id connection).Shows id (some session) := Scene.shows_known_live live
  exact writePayload_ends shows tree key source (fun _ _ _ _ => trivial) fun _ _ _ => trivial

theorem store_reads (payload : Payload) :
    Ends (Scene.known id connection) tree (Bucket.store ⟨id, name⟩ key payload record)
      fun answer tree' => ∀ size, answer = .ok size →
        session.Reads (Bucket.recordPath ⟨id, name⟩ key) tree'
          (connection.settings.format.encode record) := by
  refine .live (Scene.shows_known_live live) ((streamed_ends ..).andThen (fun payload start _ => ?_)
    fun _ _ _ _ eq => nomatch eq)
  refine (writePayload_boundless live payload.source).andThen (fun size _ _ => ?_)
    fun _ _ _ _ eq => nomatch eq
  exact writeRecord_reads.andThen (fun _ _ reads => .ok fun _ _ => reads rfl)
    fun _ _ _ _ eq => nomatch eq

theorem updateRecord_reads :
    Ends (Scene.known id connection) tree (Bucket.updateRecord ⟨id, name⟩ key record)
      fun answer tree' => answer = .ok () → session.Reads (Bucket.recordPath ⟨id, name⟩ key) tree'
        (connection.settings.format.encode record) := by
  have shows : (Scene.known id connection).Shows id (some session) := Scene.shows_known_live live
  exact .live shows ((require_ends shows tree key).andThen (fun _ _ _ => writeRecord_reads)
    fun _ _ _ eq => nomatch eq)

theorem Command.Puts.reads {command : Command} (puts : command.Puts key record) :
    Ends (Scene.known id connection) tree (command.run ⟨id, name⟩) fun answer tree' =>
      answer.error? = none → session.Reads (Bucket.recordPath ⟨id, name⟩ key) tree'
        (connection.settings.format.encode record) := by
  cases puts with
  | store payload =>
    refine .map ((store_reads live payload).mono fun answer tree' reads well => ?_)
    cases answer with
    | error => cases well
    | ok size => exact reads size rfl
  | update =>
    refine .map ((updateRecord_reads live).mono fun answer tree' reads well => ?_)
    cases answer with
    | error => cases well
    | ok => exact reads rfl

theorem fetchRecord_of_reads {order : Disk.Order} {bytes : Bytes}
    (reads : session.Reads (Bucket.recordPath ⟨id, name⟩ key) tree bytes) :
    Runs (Scene.calm id connection order) tree (Command.run ⟨id, name⟩ (.fetchRecord key))
      (.record ((connection.settings.format.decode bytes).mapError fun error =>
        .corruptRecord key error.message)) tree :=
  .map (Ends.live (Scene.calm_shows_live live order) (readRecord_runs reads))

end Putting

theorem fetched_of_reads {bucket : Bucket} {key : String} {session : Session} {site : Site}
    {bytes : Bytes}
    (live : (site.connections[bucket.connection.index]?).bind Connection.slot = some session)
    (reads : session.Reads (bucket.recordPath key) site.disk bytes) :
    ((Command.fetchRecord key).run bucket (site.withRules [] [])).1 =
      .record (((bucket.format site).1.decode bytes).mapError fun error =>
        .corruptRecord key error.message) := by
  obtain ⟨connection, known, live, format⟩ := known_of_live live
  rw [format]
  have calm : (Scene.calm bucket.connection connection site.order).holds (site.withRules [] []) :=
    ⟨rfl, rfl, known, rfl⟩
  exact ((fetchRecord_of_reads live reads).run _ calm rfl).2.1

/-- A record that has just been put is fetched as its format reads what it has written. -/
theorem fetched_of_put {bucket : Bucket} {key : String} {record : Record} {command : Command}
    (puts : command.Puts key record) {site : Site}
    (well : (command.run bucket site).1.error? = none) :
    ((Command.fetchRecord key).run bucket ((command.run bucket site).2.withRules [] [])).1 =
      .record (((bucket.format site).1.decode ((bucket.format site).1.encode record)).mapError
        fun error => .corruptRecord key error.message) := by
  obtain ⟨slot?, shown⟩ : ∃ slot?, (Scene.slot bucket.connection slot?).holds site := ⟨_, rfl⟩
  cases slot? with
  | none =>
    have shows := Scene.shows_slot bucket.connection none
    rw [((puts.disconnected shows).run site shown rfl).2] at well
    cases well
  | some session =>
    obtain ⟨connection, known, live, before⟩ := known_of_live shown
    obtain ⟨held, reads⟩ := (puts.reads live).run site known rfl
    have live' := Option.bind_eq_some_iff.2 ⟨connection, held, live⟩
    have fetched := fetched_of_reads live' (reads well)
    rwa [format_of_holds held, ← before] at fetched

/-- What a command has put is what a fetch answers, unless the format loses it. The packed form
loses nothing that it can count; JSON loses floats, and another record or an error is answered. -/
theorem put_record_comes_back {bucket : Bucket} {key : String} {record : Record} {command : Command}
    (puts : command.Puts key record) {site : Site}
    (well : (command.run bucket site).1.error? = none) :
    ∃ result, ((Command.fetchRecord key).run bucket
        ((command.run bucket site).2.withRules [] [])).1 = .record result ∧
      (∀ error, result = .error error → ∃ text, error = .corruptRecord key text) ∧
      ((bucket.format site).1 = .packed → record.pack.length < Record.lengthBound →
        result = .ok record) ∧
      ((bucket.format site).1 = .json →
        result.toOption = record.reread? ∧ (result = .ok record ↔ record.Survives)) := by
  refine ⟨_, fetched_of_put puts well, fun error eq => ?_, fun packed small => ?_, fun json => ?_⟩
  · cases read : (bucket.format site).1.decode ((bucket.format site).1.encode record) with
    | error unread =>
      rw [read] at eq
      cases eq
      exact ⟨unread.message, rfl⟩
    | ok =>
      rw [read] at eq
      cases eq
  · rw [packed]
    exact mapError_eq_ok.2 (RecordFormat.decode_encode small)
  · rw [json]
    have back := RecordFormat.toOption_decode_json record
    rw [← Record.reread?_eq_self, ← back, toOption_mapError, toOption_eq_some]
    exact ⟨rfl, mapError_eq_ok⟩

theorem put_float_comes_back :
    let bucket : Bucket := ⟨⟨0⟩, "b"⟩
    let record : Record := SortedMap.empty.insert "ratio" (.float 0x3FB999999999999A)
    let made := (bucket.connection.createBucket bucket.name
      (Site.connected "/" SortedMap.empty)).2
    let command := Command.store "k" { bytes := [7] } record
    (command.run bucket made).1.error? = none ∧
      ((Command.fetchRecord "k").run bucket ((command.run bucket made).2.withRules [] [])).1 =
        .record (.ok record) := by
  intro bucket record made command
  have well : (command.run bucket made).1.error? = none := by decide +kernel
  have json : (bucket.format made).1 = .json := by decide +kernel
  have survives : record.Survives := by
    intro field mem bits eq
    obtain rfl := List.mem_singleton.1 mem
    cases eq
    decide +kernel
  clear_value made
  obtain ⟨result, answered, -, -, back⟩ := put_record_comes_back (.store _) well
  refine ⟨well, ?_⟩
  rw [answered, (back json).2.2 survives]

/-- Of these two floats one comes back as the double after it, and the other does not come back. -/
theorem put_floats_are_lost :
    let bucket : Bucket := ⟨⟨0⟩, "b"⟩
    let made := (bucket.connection.createBucket bucket.name
      (Site.connected "/" SortedMap.empty)).2
    let record (bits : UInt64) : Record := SortedMap.empty.insert "ratio" (.float bits)
    let stored (bits : UInt64) := bucket.storeBytes "k" [7] (record bits) made
    let fetched (bits : UInt64) := (bucket.fetchRecord "k" (stored bits).2).1
    (stored 0x402266D7B12695E0).1 = .ok 1 ∧
      fetched 0x402266D7B12695E0 = .ok (record 0x402266D7B12695E1) ∧
      record 0x402266D7B12695E1 ≠ record 0x402266D7B12695E0 ∧
      (stored 0x7FF8000000000000).1 = .ok 1 ∧
      fetched 0x7FF8000000000000 = .error (.corruptRecord "k"
        "Serialization error: invalid type: null, expected f64 at line 1 column 22") := by
  decide +kernel

end TreeStore
