import TreeStore.Proofs.Keys
import TreeStore.Proofs.Truncated
/-!
What is left in a bucket by writes that break off. Every file in it holds a beginning of something
that a command brought, and a record that can be read is one of those that were brought
(`Bucket.Ran.sound`). The commands keep a record of nothing; what they brought is kept beside the
run.
-/
namespace TreeStore

open Footprint
open Layout (Part fileNames fileName)
open TreeStore.Path (Plain)

def Command.payload? : Command → Option Bytes
  | .store _ payload _ => some payload.bytes
  | _ => none

def Command.record? : Command → Option Record
  | .store _ _ record => some record
  | .copy _ _ record? => record?
  | .updateRecord _ record => some record
  | _ => none

/-- What a file of an object may hold after these commands: a beginning of a payload, or of the
written form of a record, that one of them brought. -/
def Brought (format : RecordFormat) (commands : List Command) : Part → Bytes → Prop
  | .payload, content => ∃ payload ∈ commands.filterMap Command.payload?, content <+: payload
  | .record, content =>
    ∃ record ∈ commands.filterMap Command.record?, content <+: format.encode record

section Brought

variable {format : RecordFormat} {commands : List Command} {part : Part} {content : Bytes}

theorem Brought.front {bytes : Bytes} (brought : Brought format commands part bytes)
    (beginning : content <+: bytes) : Brought format commands part content := by
  cases part with
  | payload =>
    obtain ⟨payload, mem, front⟩ := brought
    exact ⟨payload, mem, beginning.trans front⟩
  | record =>
    obtain ⟨record, mem, front⟩ := brought
    exact ⟨record, mem, beginning.trans front⟩

theorem Brought.more (brought : Brought format commands part content) (later : List Command) :
    Brought format (commands ++ later) part content := by
  cases part with
  | payload =>
    obtain ⟨payload, mem, front⟩ := brought
    exact ⟨payload, by rw [List.filterMap_append]; exact List.mem_append_left _ mem, front⟩
  | record =>
    obtain ⟨record, mem, front⟩ := brought
    exact ⟨record, by rw [List.filterMap_append]; exact List.mem_append_left _ mem, front⟩

theorem Brought.of_payload {command : Command} {payload : Bytes}
    (brings : command.payload? = some payload) :
    Brought format (commands ++ [command]) .payload payload :=
  ⟨payload, by simp [List.filterMap_append, brings], List.prefix_rfl⟩

theorem Brought.of_mem {record : Record} (mem : record ∈ commands.filterMap Command.record?) :
    Brought format commands .record (format.encode record) :=
  ⟨record, mem, List.prefix_rfl⟩

theorem Brought.of_record {command : Command} {record : Record}
    (brings : command.record? = some record) :
    Brought format (commands ++ [command]) .record (format.encode record) :=
  .of_mem (by simp [List.filterMap_append, brings])

end Brought

inductive Carries (format : RecordFormat) (commands : List Command) (session : Session)
    (bucket : Bucket) : Edit → Prop
  | shift {reach : Reach} {edit : Edit} (unwritten : reach.written = [])
      (may : reach.Allows session bucket edit) : Carries format commands session bucket edit
  | write {key : String} {part : Part} {content : Bytes}
      (short : Disk.Reaches session (bucket.path key part))
      (brought : Brought format commands part content) :
      Carries format commands session bucket (.write (bucket.spot session key part) content)

theorem Carries.allowed {format : RecordFormat} {commands : List Command} {session : Session}
    {bucket : Bucket} {edit : Edit} (carries : Carries format commands session bucket edit) :
    ∃ reach : Reach, reach.Allows session bucket edit := by
  cases carries with
  | shift _ may => exact ⟨_, may⟩
  | @write key part content short =>
    exact ⟨{ written := [(key, part)] }, .write (List.mem_singleton.2 rfl) short content⟩

structure Sound (session : Session) (name : String) (format : RecordFormat)
    (commands : List Command) (tree : Tree) : Prop where
  shaped : Shaped session name tree
  brought : ∀ key part content,
    tree.node? (session.place (fileNames name key part)) = some (.file content) →
      Brought format commands part content

namespace Sound

variable {session : Session} {id : ConnectionId} {name : String} {format : RecordFormat}
variable {commands : List Command} {tree tree' : Tree}

theorem more (sound : Sound session name format commands tree) (later : List Command) :
    Sound session name format (commands ++ later) tree :=
  ⟨sound.shaped, fun key part content found => (sound.brought key part content found).more later⟩

theorem file (sound : Sound session name format commands tree) {rest : List String}
    {content : Bytes} (found : tree.node? (session.place (name :: rest)) = some (.file content)) :
    ∃ key part, name :: rest = fileNames name key part ∧ Brought format commands part content := by
  rcases eq_or_ne rest [] with rfl | some
  · rw [sound.shaped.top] at found
    cases found
  · obtain ⟨key, part, rfl⟩ := (sound.shaped.entries rest _ some found).1
    exact ⟨key, part, rfl, sound.brought key part content found⟩

theorem place_named (key : String) (part : Part) :
    session.place (fileNames name key part) ≠ [] :=
  Session.place_cons_ne_nil session name (Layout.folders key ++ [fileName key part])

theorem brought_insert {key key' : String} {part part' : Part} {content content' : Bytes}
    (kept : tree.node? (session.place (fileNames name key' part')) = some (.file content') →
      Brought format commands part' content')
    (brought : Brought format commands part content)
    (found : Tree.node? (SortedMap.insert tree (session.place (fileNames name key part))
      (.file content)) (session.place (fileNames name key' part')) = some (.file content')) :
    Brought format commands part' content' := by
  rw [Tree.node?_insert _ (place_named key part)] at found
  split at found
  case isTrue same =>
    cases found
    obtain ⟨-, -, rfl⟩ := Layout.fileNames_inj (Session.place_inj.1 same)
    exact brought
  case isFalse => exact kept found

theorem brought_erase (wf : tree.WellFormed) {location place : Location} {node node' : Node}
    (present : tree.find? location = some node)
    (found : Tree.node? (SortedMap.erase tree location) place = some node') :
    tree.node? place = some node' := by
  rw [Tree.node?_erase _ (Edit.find?_root_of_erase wf present)] at found
  split at found
  · cases found
  · exact found

theorem edit (sound : Sound session name format commands tree) (plain : Plain name) {edit : Edit}
    (may : Carries format commands session ⟨id, name⟩ edit) (taken : edit.Takes tree tree') :
    Sound session name format commands tree' := by
  obtain ⟨reach, allowed⟩ := may.allowed
  have wf := sound.shaped.wellFormed
  refine ⟨sound.shaped.edit plain allowed taken, fun key' part' content' found => ?_⟩
  have kept := sound.brought key' part' content'
  cases taken with
  | makeDirectory _ _ parent absent =>
    rw [Tree.node?_insert _ (by simp)] at found
    split at found
    · cases found
    · exact kept found
  | @write _ top last content _ short parent free =>
    generalize top ++ [last] = location at may found
    cases may with
    | shift unwritten may =>
      cases may with
      | write named => rw [unwritten] at named; cases named
    | @write key part _ _ brought =>
      rw [spot_eq plain] at found
      exact brought_insert kept brought found
  | removeFile present => exact kept (brought_erase wf present found)
  | removeDirectory present => exact kept (brought_erase wf present found)
  | @move _ source top last content present _ short parent free =>
    generalize top ++ [last] = location at may found
    cases may with
    | shift _ may =>
      cases may with
      | @move source target named part =>
        rw [spot_eq plain id source] at present found
        rw [spot_eq plain id target] at found
        have stays : Tree.node? (SortedMap.erase tree (session.place (fileNames name source part)))
            (session.place (fileNames name key' part')) = some (.file content') →
            Brought format commands part' content' := fun found =>
          kept (brought_erase wf present found)
        refine brought_insert stays (sound.brought source part content ?_) found
        rwa [Tree.node?_of_ne_nil _ (place_named source part)]

variable (session id format commands) in
def footprint (plain : Plain name) : Footprint where
  apt := Sound session name format commands
  allowed := Carries format commands session ⟨id, name⟩
  wellFormed _ sound := sound.shaped.wellFormed
  kept _ _ _ may taken sound := sound.edit plain may taken

variable (plain : Plain name)

theorem makes (key : String) : (footprint session id format commands plain).Makes session
    (Bucket.payloadPath ⟨id, name⟩ key) := by
  intro front above named short
  have may : Reach.Allows { folders? := some key } session ⟨id, name⟩ _ :=
    .makeDirectory rfl above named short
  exact .shift rfl may

theorem fills (key : String) (part : Part) {bytes : Bytes}
    (brought : Brought format commands part bytes) :
    (footprint session id format commands plain).Fills session
      (Bucket.path ⟨id, name⟩ key part) bytes :=
  fun short _ beginning => .write short (brought.front beginning)

theorem serves {command : Command} (unwritten : command.reach.written = []) :
    (footprint session id format commands plain).Serves session ⟨id, name⟩ command := by
  refine ⟨fun edit may => .shift unwritten may, fun source _ part _ _ sound => ?_⟩
  rw [spot_eq plain]
  exact sound.shaped.not_directory source part

end Sound

theorem Shaped.content_of_found {session : Session} {id : ConnectionId} {name : String}
    {tree : Tree} (shaped : Shaped session name tree) (plain : Plain name) (key : String)
    (part : Part) {bytes : Bytes}
    (found : session.Finds (Bucket.path ⟨id, name⟩ key part) tree bytes) :
    ∃ content, tree.node? (session.place (fileNames name key part)) = some (.file content) ∧
      bytes <+: content := by
  obtain ⟨whole, opened, beginning⟩ := found
  obtain ⟨⟨location, node⟩, found, opened⟩ := Disk.ok_of_bind opened
  rw [path_eq] at found
  have stands := Disk.node_of_find (fun _ mem => Layout.plain_of_mem_fileNames plain mem) found
  cases node with
  | directory => exact absurd stands (shaped.not_directory key part)
  | file content =>
    cases opened
    exact ⟨content, stands, beginning⟩

theorem Ends.commanded {scene : Scene} {tree : Tree} {footprint : Footprint} {α β : Type}
    {operation : Operation α} {f : Except StoreError α → β}
    (ends : Ends scene tree operation (footprint.Atomic tree)) :
    Ends scene tree (f <$> operation.run) fun _ tree' => footprint.Covers tree tree' :=
  .map (ends.mono fun _ _ done => done.covers)

section Leaving

variable {session : Session} {connection : Connection} {id : ConnectionId} {name key : String}
variable {commands : List Command} {tree : Tree}

variable (plain : Plain name)
variable (sound : Sound session name connection.settings.format commands tree)
variable (keeps : ∀ record ∈ commands.filterMap Command.record?,
  connection.settings.format.Keeps record)

include plain sound keeps

/-- A record that can be read is one that was brought. -/
theorem Sound.record_of_held {record : Record}
    (held : record.Held (Scene.known id connection) session ⟨id, name⟩ key tree) :
    record ∈ commands.filterMap Command.record? := by
  obtain ⟨format, bytes, formats, opened, decoded⟩ := held
  obtain rfl := format_of_known formats
  have found : session.Finds (Bucket.path ⟨id, name⟩ key .record) tree bytes :=
    ⟨_, opened, List.prefix_rfl⟩
  obtain ⟨content, stands, beginning⟩ := sound.shaped.content_of_found plain key .record found
  obtain ⟨written, mem, front⟩ := sound.brought key .record content stands
  obtain ⟨-, rfl⟩ :=
    RecordFormat.decode_of_prefix (keeps written mem) (beginning.trans front) decoded
  exact mem

theorem Sound.command (live : connection.slot = some session) (command : Command) :
    Ends (Scene.known id connection) tree (command.run ⟨id, name⟩) fun _ tree' =>
      (Sound.footprint session id connection.settings.format (commands ++ [command]) plain).Covers
        tree tree' := by
  have shows : (Scene.known id connection).Shows id (some session) := Scene.shows_known_live live
  have records : ∀ key record,
      Brought connection.settings.format (commands ++ [command]) .record
        (connection.settings.format.encode record) →
      ∀ format, (Scene.known id connection).Formats ⟨id, name⟩ format →
        (Sound.footprint session id connection.settings.format (commands ++ [command])
          plain).Fills session (Bucket.recordPath ⟨id, name⟩ key) (format.encode record) := by
    intro key record brought format formats
    obtain rfl := format_of_known formats
    exact Sound.fills plain key .record brought
  cases command with
  | store key payload record =>
    refine (store_ends shows tree (Sound.makes plain key) ?_
      (records key record (.of_record rfl))).commanded
    exact Sound.fills plain key .payload (.of_payload rfl)
  | delete key force => exact (delete_ends shows tree (Sound.serves plain rfl)).commanded
  | rename source target =>
    exact (rename_command_ends shows tree (Sound.serves plain rfl)).commanded
  | copy source target record? =>
    refine (copy_command_ends shows tree (fun _ => Sound.makes plain target)
      (fun _ bytes found => Sound.fills plain target .payload ?_)
      fun record copied => records target record ?_).commanded
    · obtain ⟨content, stands, beginning⟩ :=
        sound.shaped.content_of_found plain source .payload found
      exact ((sound.brought source .payload content stands).front beginning).more _
    · rcases copied with given | ⟨-, held⟩
      · exact .of_record given
      · have mem := sound.record_of_held plain keeps held
        exact (Brought.of_mem mem).more _
  | updateRecord key record =>
    exact (updateRecord_ends shows tree (records key record (.of_record rfl))).commanded
  | clear => exact (clear_ends shows tree (Sound.serves plain rfl)).commanded
  | _ => exact (Command.looks_still _ rfl).mono fun _ _ still => .of_eq still

end Leaving

def Answer.record? : Answer → Option Record
  | .record result => result.toOption
  | .bytes result => result.toOption.map Prod.fst
  | .object result _ => result.toOption
  | _ => none

section Reading

variable {scene : Scene} {bucket : Bucket} {session : Session} {tree : Tree}
variable (shows : scene.Shows bucket.connection (some session)) (key : String)

include shows

theorem fetchRecord_held :
    Ends scene tree (bucket.fetchRecord key) fun answer _ =>
      ∀ record, answer = .ok record → record.Held scene session bucket key tree :=
  .live shows ((readRecord_ends tree key).mono fun _ _ done => done.2)

theorem fetch_held (sink : Sink) :
    Ends scene tree (bucket.fetch key sink) fun answer _ =>
      ∀ record, answer.1 = .ok record → record.Held scene session bucket key tree := by
  have opening : Ends scene tree (do
      let session ← bucket.session
      return (session, ← bucket.openPayload session key) : Operation (Session × Source))
      fun answer tree' => tree' = tree ∧ ∀ opened, answer = .ok opened → opened.1 = session := by
    refine .live shows ((openPayload_ends tree key).andThen (fun source _ ⟨still, _⟩ => ?_)
      fun _ _ ⟨still, _⟩ => ⟨still, fun _ eq => nomatch eq⟩)
    refine .ok ⟨still, fun opened eq => ?_⟩
    cases eq
    rfl
  unfold Bucket.fetch
  dsimp only
  refine opening.bind fun answer _ ⟨same, found⟩ => ?_
  subst same
  cases answer with
  | error error => exact .pure fun _ eq => nomatch eq
  | ok opened =>
    obtain ⟨session', source⟩ := opened
    obtain rfl := found _ rfl
    refine (pour_ends ..).bind fun poured later ⟨same, _⟩ => ?_
    subst same
    cases poured.2 with
    | some error => exact .pure fun _ eq => by cases eq
    | none => exact (readRecord_ends later key).bind fun _ _ done => .pure done.2

theorem fetchBytes_held :
    Ends scene tree (bucket.fetchBytes key) fun answer _ =>
      ∀ object, answer = .ok object → object.1.Held scene session bucket key tree := by
  refine (fetch_held shows key {}).lifted fun answer _ held => ?_
  obtain ⟨record, bytes⟩ := answer
  cases record with
  | error error => exact .throw fun _ eq => nomatch eq
  | ok record =>
    refine .ok fun object eq => ?_
    cases eq
    exact held record rfl

inductive Command.Fetches (key : String) : Command → Prop
  | object (sink : Sink) : Fetches key (.fetch key sink)
  | bytes : Fetches key (.fetchBytes key)
  | record : Fetches key (.fetchRecord key)

theorem Command.Fetches.record_held {key : String} {command : Command}
    (fetches : command.Fetches key) {site : Site} (holds : scene.holds site) {record : Record}
    (answered : (command.run bucket site).1.record? = some record) :
    record.Held scene session bucket key site.disk := by
  cases fetches with
  | object sink =>
    have held := (fetch_held shows key sink).run site holds rfl
    exact held.2 record (toOption_eq_some.1 answered)
  | bytes =>
    obtain ⟨object, found, rfl⟩ := Option.map_eq_some_iff.1 answered
    have held := (fetchBytes_held shows key).run site holds rfl
    exact held.2 object (toOption_eq_some.1 found)
  | record =>
    have held := (fetchRecord_held shows key).run site holds rfl
    exact held.2 record (toOption_eq_some.1 answered)

theorem Command.record_held {site : Site} (holds : scene.holds site) (command : Command)
    {record : Record} (answered : (command.run bucket site).1.record? = some record) :
    ∃ key, record.Held scene session bucket key site.disk := by
  cases command with
  | fetch key sink => exact ⟨key, (Fetches.object sink).record_held shows holds answered⟩
  | fetchBytes key => exact ⟨key, Fetches.bytes.record_held shows holds answered⟩
  | fetchRecord key => exact ⟨key, Fetches.record.record_held shows holds answered⟩
  | _ => cases answered

end Reading

/-- The commands that a bucket was asked since it was made, and a state that they can have left.
Before each command the rules may change, so any of its calls and streams may fail. -/
inductive Bucket.Ran (bucket : Bucket) : List Command → Site → Prop
  | made {site : Site} (wf : site.disk.WellFormed) (plain : Plain bucket.name)
      (ok : (bucket.connection.createBucket bucket.name site).1 = .ok bucket) :
      Ran bucket [] (bucket.connection.createBucket bucket.name site).2
  | asked {commands : List Command} {site : Site} (ran : Ran bucket commands site)
      (calls : List (Rule CallKind Refusal)) (streams : List (Rule StreamKind Cut))
      (command : Command) :
      Ran bucket (commands ++ [command]) (command.run bucket (site.withRules calls streams)).2

namespace Bucket.Ran

variable {bucket : Bucket} {commands : List Command} {site : Site}

theorem since (ran : bucket.Ran commands site) : bucket.Since site := by
  induction ran with
  | made wf plain ok => exact .made wf plain ok
  | asked _ calls streams command ih => exact .asked ih calls streams command

theorem sound (ran : bucket.Ran commands site) : ∃ connection session,
    (Scene.known bucket.connection connection).holds site ∧ connection.slot = some session ∧
      ((∀ record ∈ commands.filterMap Command.record?, connection.settings.format.Keeps record) →
        Sound session bucket.name connection.settings.format commands site.disk) := by
  obtain ⟨id, name⟩ := bucket
  induction ran with
  | @made site wf plain ok =>
    obtain ⟨slot?, found⟩ : ∃ slot?, (Scene.slot id slot?).holds site := ⟨_, rfl⟩
    obtain ⟨-, made⟩ :=
      (createBucket_made slot? (Scene.shows_slot id slot?) name).run site found rfl
    obtain ⟨session, rfl, done⟩ := made _ ok
    obtain ⟨connection, known, live⟩ := Option.bind_eq_some_iff.1 found
    have shows : (Scene.known id connection).Shows id (some session) :=
      Scene.shows_known_live live
    have held := ((createBucket_made (some session) shows name).run site known rfl).1
    refine ⟨connection, session, held, live, fun _ => ⟨shaped_of_made wf plain done, ?_⟩⟩
    intro key part content stands
    have vacant := @vacant_of_made session name _ _ wf plain done
      (Layout.folders key ++ [fileName key part]) (by simp)
    cases vacant.symm.trans stands
  | @asked commands site ran calls streams command ih =>
    obtain ⟨connection, session, held, live, sound⟩ := ih
    have shows : (Scene.known id connection).Shows id (some session) :=
      Scene.shows_known_live live
    have done := (command.run_ends shows site.disk
      (boundless_serves session ⟨id, name⟩ command)).run (site.withRules calls streams) held rfl
    refine ⟨connection, session, done.1, live, fun keeps => ?_⟩
    have before : ∀ record ∈ commands.filterMap Command.record?,
        connection.settings.format.Keeps record := fun record mem =>
      keeps record (by rw [List.filterMap_append]; exact List.mem_append_left _ mem)
    have carried := (Sound.command ran.since.plain (sound before) before live command).run
      (site.withRules calls streams) held rfl
    exact (carried.2 ((sound before).more [command])).2

end Bucket.Ran

/-- Every file in the bucket belongs to a key, and holds what was brought. -/
def HoldsBrought (session : Session) (name : String) (format : RecordFormat)
    (commands : List Command) (tree : Tree) : Prop :=
  ∀ rest content, tree.node? (session.place (name :: rest)) = some (.file content) →
    ∃ key part, name :: rest = fileNames name key part ∧ Brought format commands part content

/-- The first tree is taken to the second one by single edits, each of which leaves a tree of the
kind. -/
def Tree.Through (kind : Tree → Prop) : Tree → Tree → Prop :=
  Relation.ReflTransGen fun tree tree' => (∃ edit : Edit, edit.Takes tree tree') ∧ kind tree'

theorem Footprint.through (footprint : Footprint) {tree tree' : Tree} (apt : footprint.apt tree)
    (edited : Tree.EditedBy footprint.allowed tree tree') :
    Tree.Through footprint.apt tree tree' ∧ footprint.apt tree' := by
  induction edited with
  | refl => exact ⟨.refl, apt⟩
  | tail _ last ih =>
    obtain ⟨edit, may, taken⟩ := last
    have apt' := footprint.kept edit _ _ may taken ih.2
    exact ⟨ih.1.tail ⟨⟨edit, taken⟩, apt'⟩, apt'⟩

/-- Writes that break off make no data up. At every point of a run, between the commands and within
them, each file of the bucket holds a beginning of what some command so far brought; and whatever
record can then be read, by a command or in a copy, is one that was brought. -/
theorem torn_writes_make_nothing_up {bucket : Bucket} {commands : List Command} {site : Site}
    (ran : bucket.Ran commands site)
    (keeps : ∀ record ∈ commands.filterMap Command.record?, (bucket.format site).1.Keeps record) :
    ∃ session, (site.connections[bucket.connection.index]?).bind Connection.slot = some session ∧
      HoldsBrought session bucket.name (bucket.format site).1 commands site.disk ∧
      (∀ calls streams (command : Command),
        Tree.Through
          (HoldsBrought session bucket.name (bucket.format site).1 (commands ++ [command]))
          site.disk (command.run bucket (site.withRules calls streams)).2.disk) ∧
      ∀ later : Site, later.disk = site.disk → later.connections = site.connections →
        (∀ (command : Command) record, (command.run bucket later).1.record? = some record →
          record ∈ commands.filterMap Command.record?) ∧
        ∀ key record, (bucket.readRecord session key later).1 = .ok record →
          record ∈ commands.filterMap Command.record? := by
  obtain ⟨connection, session, held, live, sound⟩ := ran.sound
  have plain := ran.since.plain
  obtain ⟨id, name⟩ := bucket
  have format : (Bucket.format ⟨id, name⟩ site).1 = connection.settings.format :=
    format_of_known ⟨site, held, rfl⟩
  rw [format] at keeps ⊢
  have sound := sound keeps
  have shows : (Scene.known id connection).Shows id (some session) :=
    live ▸ Scene.shows_known id connection
  refine ⟨session, by rw [held]; exact live, fun rest content found => sound.file found, ?_, ?_⟩
  · intro calls streams command
    have more := sound.more [command]
    have done := (sound.command plain keeps live command).run
      (site.withRules calls streams) held rfl
    refine Relation.ReflTransGen.mono (fun _ _ ⟨edit, sound'⟩ => ⟨edit, ?_⟩) _ _
      (Footprint.through _ more (done.2 more).1).1
    exact fun rest content found => sound'.file found
  · intro later same linked
    have known : (Scene.known id connection).holds later :=
      (congrArg (·[id.index]?) linked).trans held
    rw [← same] at sound
    refine ⟨fun command record answered => ?_, fun key record read => ?_⟩
    · obtain ⟨key, record_held⟩ := command.record_held shows known answered
      exact sound.record_of_held plain keeps record_held
    · have found := ((readRecord_ends later.disk key).run later known rfl).2.2 record read
      exact sound.record_of_held plain keeps found

theorem torn_record_is_not_read :
    let bucket : Bucket := ⟨⟨0⟩, "b"⟩
    let command := Command.store "k" { bytes := [7, 8] } (SortedMap.empty.insert "x" (.int 3))
    let made := (bucket.connection.createBucket bucket.name
      (Site.connected "/" SortedMap.empty)).2
    let cut : Rule StreamKind Cut := ⟨.write, some "b/k.meta", 0, none, ⟨4, .nulInName⟩⟩
    let torn := (command.run bucket (made.withRules [] [cut])).2
    torn.disk.find? ["b", "k.meta"] = some (.file [0x7B, 0x22, 0x78, 0x22]) ∧
      ∀ key found, ((Command.fetchRecord key).run bucket torn).1.record? = some found →
        found = SortedMap.empty.insert "x" (.int 3) := by
  intro bucket command made cut torn
  have created : (bucket.connection.createBucket bucket.name
      (Site.connected "/" SortedMap.empty)).1 = .ok bucket := by decide +kernel
  have ran : bucket.Ran ([] ++ [command]) torn :=
    .asked (.made Tree.wellFormed_empty (by decide) created) [] [cut] command
  have format : (bucket.format torn).1 = .json := by decide +kernel
  have keeps : ∀ record ∈ ([] ++ [command]).filterMap Command.record?,
      (bucket.format torn).1.Keeps record := by
    intro record mem
    obtain rfl := List.mem_singleton.1 mem
    rw [format]
    intro field mem bits eq
    obtain rfl := List.mem_singleton.1 mem
    cases eq
  have written : torn.disk.find? ["b", "k.meta"] = some (.file [0x7B, 0x22, 0x78, 0x22]) := by
    decide +kernel
  clear_value torn made
  obtain ⟨_, -, -, -, reads⟩ := torn_writes_make_nothing_up ran keeps
  refine ⟨written, fun key found answered => ?_⟩
  exact List.mem_singleton.1 ((reads torn rfl rfl).1 (.fetchRecord key) found answered)

end TreeStore
