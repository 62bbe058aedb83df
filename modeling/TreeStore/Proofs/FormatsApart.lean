import TreeStore.Proofs.CutShort
import TreeStore.Proofs.Torn
import TreeStore.Proofs.ZeroByte
/-!
The two formats of a record are told apart by zero bytes. The packed form begins with a count of eight
bytes, which only a form of 2^56 bytes or more can do without a zero; JSON has none at all. So a record
that one format has written is unreadable in the other, and an object that is left by a connection of
one is fetched as corrupt through a connection of the other (`other_format_is_corrupt`).
-/
namespace TreeStore

namespace Record

/-- A count of eight bytes has a zero among them if it is below this bound, which is 2^56. -/
def zeroBound : Nat := Nat.pow 256 7

theorem zero_mem_littleEndian {width n : Nat} (small : n < Nat.pow 256 width) :
    0 ∈ littleEndian (width + 1) n := by
  induction width generalizing n with
  | zero =>
    obtain rfl : n = 0 := Nat.lt_one_iff.1 small
    exact List.mem_singleton.2 rfl
  | succ width ih =>
    have rest : n / 256 < Nat.pow 256 width :=
      Nat.div_lt_of_lt_mul (Nat.mul_comm 256 (Nat.pow 256 width) ▸ small)
    exact List.mem_cons_of_mem _ (ih rest)

theorem le_ofLittleEndian {width : Nat} {bytes : Bytes} (solid : 0 ∉ bytes)
    (long : bytes.length = width + 1) : Nat.pow 256 width ≤ ofLittleEndian bytes := by
  induction width generalizing bytes with
  | zero =>
    obtain ⟨b, rfl⟩ := List.length_eq_one_iff.1 long
    have positive : b.toNat ≠ 0 := fun zero =>
      solid (List.mem_singleton.2 (UInt8.toNat_inj.1 zero.symm))
    exact Nat.one_le_iff_ne_zero.2 positive
  | succ width ih =>
    obtain ⟨b, rest, rfl⟩ := List.exists_cons_of_length_eq_add_one long
    have below := ih (fun mem => solid (List.mem_cons_of_mem b mem)) (Nat.succ.inj long)
    calc Nat.pow 256 (width + 1) = 256 * Nat.pow 256 width := Nat.mul_comm ..
      _ ≤ 256 * ofLittleEndian rest := Nat.mul_le_mul_left 256 below
      _ ≤ ofLittleEndian (b :: rest) := Nat.le_add_left ..

/-- The packed form of a record begins with a count, and this with a zero or more fields than fit. -/
theorem zero_mem_pack {record : Record} (short : record.pack.length < zeroBound) :
    0 ∈ record.pack := by
  have few : record.size < zeroBound := by
    refine Nat.lt_of_le_of_lt ((length_le_flatMap record.entries).trans ?_) short
    rw [pack, List.length_append]
    exact Nat.le_add_left ..
  exact List.mem_append_left _ (zero_mem_littleEndian few)

def Unpacker.Takes {α : Type} (least : Nat) (reader : Unpacker α) : Prop :=
  ∀ bytes a rest, reader bytes = .ok (a, rest) → rest.length + least ≤ bytes.length

namespace Unpacker.Takes

variable {α β : Type} {least least' : Nat}

theorem pure (a : α) : Takes 0 (Pure.pure a) := by
  intro bytes a' rest ok
  cases ok
  exact Nat.le_refl _

theorem throw (failure : PackedFailure) : Takes least (MonadExcept.throw failure : Unpacker α) :=
  fun _ _ _ ok => nomatch ok

theorem mono {reader : Unpacker α} (takes : Takes least reader) (less : least' ≤ least) :
    Takes least' reader :=
  fun bytes a rest ok => (Nat.add_le_add_left less _).trans (takes bytes a rest ok)

theorem bind {first : Unpacker α} {next : α → Unpacker β} (takes : Takes least first)
    (others : ∀ a, Takes least' (next a)) : Takes (least + least') (first >>= next) := by
  intro bytes b rest ok
  obtain ⟨a, middle, taken, ok⟩ := bind_eq_ok.1 ok
  have before := takes bytes a middle taken
  have after := others a middle b rest ok
  omega

theorem map {reader : Unpacker α} (f : α → β) (takes : Takes least reader) :
    Takes least (f <$> reader) := by
  rw [map_eq_pure_bind]
  exact takes.bind fun a => .pure (f a)

end Unpacker.Takes

open Unpacker

theorem takeNumber_eq_ok {width n : Nat} {bytes rest : Bytes}
    (ok : takeNumber width bytes = .ok (n, rest)) :
    ∃ front, bytes = front ++ rest ∧ front.length = width ∧ ofLittleEndian front = n := by
  unfold takeNumber at ok
  split at ok
  case h_1 front _ split =>
    cases ok
    obtain ⟨whole, long⟩ := append_of_splitFront? split
    exact ⟨front, whole, long, rfl⟩
  case h_2 => cases ok

theorem takeNumber_takes (width : Nat) : Takes width (takeNumber width) := by
  intro bytes n rest ok
  obtain ⟨front, rfl, rfl, -⟩ := takeNumber_eq_ok ok
  rw [List.length_append, Nat.add_comm]

theorem takeText_takes : Takes 8 takeText := by
  show Takes (8 + 0) takeText
  refine (takeNumber_takes 8).bind fun length bytes text rest ok => ?_
  split at ok
  case h_1 => cases ok
  case h_2 front _ split =>
    obtain ⟨rfl, -⟩ := append_of_splitFront? split
    split at ok
    case h_1 =>
      cases ok
      rw [List.length_append]
      exact Nat.le_add_left ..
    case h_2 => cases ok

theorem takeBool_takes : Takes 1 takeBool := by
  show Takes (1 + 0) takeBool
  refine (takeNumber_takes 1).bind fun n => ?_
  split
  · exact .pure false
  · exact .pure true
  · exact .throw _

theorem takeValue_takes : Takes 4 takeValue := by
  show Takes (4 + 0) takeValue
  refine (takeNumber_takes 4).bind fun kind => ?_
  split
  · exact (takeBool_takes.map _).mono (Nat.zero_le 1)
  · exact ((takeNumber_takes 8).map _).mono (Nat.zero_le 8)
  · exact ((takeNumber_takes 8).map _).mono (Nat.zero_le 8)
  · exact (takeText_takes.map _).mono (Nat.zero_le 8)
  · exact .throw _

theorem takeFields_takes (count : Nat) : Takes count (takeFields count) := by
  induction count with
  | zero => exact .pure []
  | succ count ih =>
    refine (takeText_takes.bind fun name => takeValue_takes.bind fun value => ih.map _).mono ?_
    omega

/-- Bytes without a zero count more fields than they can hold. -/
theorem unpack_of_solid {bytes : Bytes} (solid : 0 ∉ bytes) (short : bytes.length < zeroBound)
    (fields : List (String × Value)) : unpack bytes ≠ .ok fields := by
  intro ok
  obtain ⟨⟨_, rest⟩, read, rfl⟩ := ok_of_map ok
  obtain ⟨count, behind, counted, taken⟩ := bind_eq_ok.1 read
  obtain ⟨front, rfl, long, rfl⟩ := takeNumber_eq_ok counted
  have many : zeroBound ≤ ofLittleEndian front :=
    le_ofLittleEndian (fun mem => solid (List.mem_append_left _ mem)) long
  have held := takeFields_takes _ _ _ _ taken
  rw [List.length_append] at short
  omega

end Record

theorem RecordFormat.unreadable_of_other {written read : RecordFormat} (other : written ≠ read)
    {record : Record} (short : (written.encode record).length < Record.zeroBound) :
    ∃ reason, read.decode (written.encode record) = .error (.unreadable reason) := by
  refine unreadable_of_ne_ok fun fields listed => ?_
  cases written with
  | json =>
    cases read with
    | json => exact other rfl
    | packed =>
      exact Record.unpack_of_solid record.zero_notMem_toJson short fields (mapError_eq_ok.1 listed)
  | packed =>
    cases read with
    | json =>
      exact Json.zero_notMem_of_document Record.reader_takesNoZero (mapError_eq_ok.1 listed)
        (Record.zero_mem_pack short)
    | packed => exact other rfl

/-- The command leaves a record under this key. It is not known which one where a copy takes over that
of its source. -/
inductive Command.Records (key : String) : Option Record → Command → Prop
  | put {record : Record} {command : Command} (puts : command.Puts key record) :
      Records key (some record) command
  | copy {source : String} {record? : Option Record} (given : source = key → record?.isSome) :
      Records key record? (.copy source key record?)

def Session.HoldsRecord (session : Session) (bucket : Bucket) (key : String)
    (format : RecordFormat) (record? : Option Record) (tree : Tree) : Prop :=
  ∃ record, (∀ known ∈ record?, record = known) ∧
    session.Reads (bucket.recordPath key) tree (format.encode record)

theorem holdsRecord_some {session : Session} {bucket : Bucket} {key : String}
    {format : RecordFormat} {record : Record} {tree : Tree}
    (reads : session.Reads (bucket.recordPath key) tree (format.encode record)) :
    session.HoldsRecord bucket key format (some record) tree :=
  ⟨record, fun _ eq => Option.some.inj eq, reads⟩

section Recording

variable {tree : Tree} {session : Session} {id : ConnectionId} {connection : Connection}
variable {name key : String} (live : connection.slot = some session)

include live

theorem copy_reads {source : String} {record? : Option Record}
    (given : source = key → record?.isSome) :
    Ends (Scene.known id connection) tree (Bucket.copy ⟨id, name⟩ source key record?)
      fun answer tree' => answer = .ok () →
        session.HoldsRecord ⟨id, name⟩ key connection.settings.format record? tree' := by
  unfold Bucket.copy
  by_cases same : source = key
  · subst same
    obtain ⟨record, rfl⟩ := Option.isSome_iff_exists.1 (given rfl)
    rw [if_pos rfl]
    exact (updateRecord_reads live).mono fun _ _ reads well => holdsRecord_some (reads well)
  rw [if_neg same]
  have written : ∀ reader record start, (∀ known ∈ record?, record = known) →
      Ends (Scene.known id connection) start (do
          let _ ← Bucket.writePayload ⟨id, name⟩ session key reader
          Bucket.writeRecord ⟨id, name⟩ session key record : Operation Unit)
        fun answer tree' => answer = .ok () →
          session.HoldsRecord ⟨id, name⟩ key connection.settings.format record? tree' := by
    intro reader record start known
    refine (writePayload_boundless live reader).andThen (fun _ _ _ => ?_)
      fun _ _ _ eq => nomatch eq
    exact writeRecord_reads.mono fun _ _ reads well => ⟨record, known, reads well⟩
  refine .live (Scene.shows_known_live live)
    ((openPayload_ends tree source).andThen (fun reader start _ => ?_) fun _ _ _ eq => nomatch eq)
  cases record? with
  | some record => exact written reader record start fun known eq => Option.some.inj eq
  | none =>
    refine (readRecord_ends start source).andThen (fun record later _ => ?_)
      fun _ _ _ eq => nomatch eq
    exact written reader record later fun known eq => nomatch eq

theorem Command.Records.reads {record? : Option Record} {command : Command}
    (records : command.Records key record?) :
    Ends (Scene.known id connection) tree (command.run ⟨id, name⟩) fun answer tree' =>
      answer.error? = none →
        session.HoldsRecord ⟨id, name⟩ key connection.settings.format record? tree' := by
  cases records with
  | @put record command puts =>
    exact (puts.reads live).mono fun _ _ reads well => holdsRecord_some (reads well)
  | copy given =>
    refine .map ((copy_reads live given).mono fun answer tree' reads well => ?_)
    cases answer with
    | error => cases well
    | ok => exact reads rfl

end Recording

/-- Whatever the rules, no record is fetched under the key; and without rules a fetch tells that it is
corrupt. -/
def Bucket.Distrusts (bucket : Bucket) (key : String) (site : Site) : Prop :=
  (∀ command : Command, command.Fetches key → ∀ calls streams,
    (command.run bucket (site.withRules calls streams)).1.record? = none) ∧
  ∃ text, ((Command.fetchRecord key).run bucket (site.withRules [] [])).1 =
    .record (.error (.corruptRecord key text))

theorem distrusts_of_unreadable {bucket : Bucket} {key : String} {session : Session} {site : Site}
    {bytes : Bytes}
    (live : (site.connections[bucket.connection.index]?).bind Connection.slot = some session)
    (reads : session.Reads (bucket.recordPath key) site.disk bytes)
    (unreadable : ∃ reason, (bucket.format site).1.decode bytes = .error (.unreadable reason)) :
    bucket.Distrusts key site := by
  refine ⟨fun command fetches calls streams => ?_, corrupt_of_unreadable live reads unreadable⟩
  obtain ⟨connection, known, live, here⟩ := known_of_live live
  obtain ⟨reason, refused⟩ := unreadable
  refine Option.eq_none_iff_forall_ne_some.2 fun record found => ?_
  have holds : (Scene.known bucket.connection connection).holds (site.withRules calls streams) :=
    known
  obtain ⟨format, bytes', formats, opened, decoded⟩ :=
    fetches.record_held (Scene.shows_known_live live) holds found
  obtain rfl := format_of_known formats
  have same : bytes' = bytes :=
    congrArg Disk.Source.bytes (Except.ok.inj (opened.symm.trans reads))
  rw [here, ← same, decoded] at refused
  cases refused

theorem distrusts_of_other {written read : RecordFormat} (other : written ≠ read) {bucket : Bucket}
    {key : String} {session : Session} {site : Site} {record : Record}
    (live : (site.connections[bucket.connection.index]?).bind Connection.slot = some session)
    (format : (bucket.format site).1 = read)
    (short : (written.encode record).length < Record.zeroBound)
    (reads : session.Reads (bucket.recordPath key) site.disk (written.encode record)) :
    bucket.Distrusts key site :=
  distrusts_of_unreadable live reads (format ▸ RecordFormat.unreadable_of_other other short)

/-- No record is read in the format that it was not written in. A bucket of that format, too, tells
that it is corrupt, wherever the file of the key holds one; and so it does after any command that,
under any rules, has left a record through another bucket and has not failed. -/
theorem other_format_is_corrupt {written read : RecordFormat} (other : written ≠ read) :
    (∀ record : Record, (written.encode record).length < Record.zeroBound →
      ∃ reason, read.decode (written.encode record) = .error (.unreadable reason)) ∧
    (∀ (bucket : Bucket) (key : String) (session : Session) (site : Site) (record : Record),
      (site.connections[bucket.connection.index]?).bind Connection.slot = some session →
      (bucket.format site).1 = read →
      (written.encode record).length < Record.zeroBound →
      session.Reads (bucket.recordPath key) site.disk (written.encode record) →
      bucket.Distrusts key site) ∧
    ∀ (writer reader : Bucket) (key key' : String) (session session' : Session)
      (site later : Site) (record? : Option Record) (command : Command),
      (site.connections[writer.connection.index]?).bind Connection.slot = some session →
      (writer.format site).1 = written →
      command.Records key record? →
      (command.run writer site).1.error? = none →
      later.disk = (command.run writer site).2.disk →
      (later.connections[reader.connection.index]?).bind Connection.slot = some session' →
      (reader.format later).1 = read →
      session'.resolve (reader.recordPath key') = session.resolve (writer.recordPath key) →
      ∃ record, (∀ known ∈ record?, record = known) ∧
        session.Reads (writer.recordPath key) (command.run writer site).2.disk
          (written.encode record) ∧
        ((written.encode record).length < Record.zeroBound → reader.Distrusts key' later) := by
  refine ⟨fun record short => RecordFormat.unreadable_of_other other short,
    fun bucket key session site record live format short reads =>
      distrusts_of_other other live format short reads, ?_⟩
  intro writer reader key key' session session' site later record? command live format records well
    same live' format' path
  obtain ⟨connection, known, live, wrote⟩ := known_of_live live
  obtain ⟨record, which, reads⟩ := ((records.reads live).run site known rfl).2 well
  rw [← wrote, format] at reads
  refine ⟨record, which, reads, fun short => distrusts_of_other other live' format' short ?_⟩
  rw [Session.Reads, ← path, ← same] at reads
  exact reads

theorem stored_record_is_corrupt_elsewhere :
    let settings (format : RecordFormat) : Settings := { format }
    let writer : Bucket := ⟨⟨0⟩, "b"⟩
    let reader : Bucket := ⟨⟨1⟩, "b"⟩
    let record := Record.ofFields [("größe", .text "lzma"), ("nan", .float 0x7FF8000000000000)]
    let site : Site := { Site.connected "/" (SortedMap.empty.insert ["b"] .directory) with
      connections :=
        [⟨settings .packed, some ⟨0, "/"⟩⟩, ⟨settings .json, some ⟨1, "/"⟩⟩] }
    let command := Command.store "k" { bytes := [7, 8] } record
    (command.run writer site).1.error? = none ∧
      reader.Distrusts "k" (command.run writer site).2 := by
  intro settings writer reader record site command
  have well : (command.run writer site).1.error? = none := by decide +kernel
  have short : (RecordFormat.packed.encode record).length < Record.zeroBound := by decide +kernel
  have other : RecordFormat.packed ≠ .json := by decide
  obtain ⟨record', which, -, distrusts⟩ := (other_format_is_corrupt other).2.2 writer reader "k" "k"
    ⟨0, "/"⟩ ⟨1, "/"⟩ site (command.run writer site).2 (some record) command rfl rfl
    (.put (.store _)) well rfl (by decide +kernel) (by decide +kernel) rfl
  obtain rfl := which record rfl
  exact ⟨well, distrusts short⟩

end TreeStore
