import TreeStore.Proofs.Fetched
import TreeStore.Proofs.Truncated
/-!
Records whose writing was cut short. Whatever breaks a write off, it leaves a beginning of the written
form in the file of the key; and a fetch tells from any beginning but the whole that the record is
corrupt (`cut_record_is_corrupt`).
-/
namespace TreeStore

section

variable {bucket : Bucket} {key : String} {session : Session} {site : Site}
variable (live : (site.connections[bucket.connection.index]?).bind Connection.slot = some session)

include live

theorem corrupt_of_unreadable {bytes : Bytes}
    (reads : session.Reads (bucket.recordPath key) site.disk bytes)
    (unreadable : ∃ reason, (bucket.format site).1.decode bytes = .error (.unreadable reason)) :
    ∃ text, ((Command.fetchRecord key).run bucket (site.withRules [] [])).1 =
      .record (.error (.corruptRecord key text)) := by
  obtain ⟨reason, refused⟩ := unreadable
  refine ⟨(StoreError.unreadable reason).message, ?_⟩
  rw [fetched_of_reads live reads, refused]
  rfl

theorem writeRecord_cases (key : String) (record : Record) :
    let written := bucket.writeRecord session key record site
    ((written.2.connections[bucket.connection.index]?).bind Connection.slot = some session ∧
      (bucket.format written.2).1 = (bucket.format site).1) ∧
    (written.2.disk = site.disk ∧ written.1 ≠ .ok () ∨
      ∃ bytes, bytes <+: (bucket.format site).1.encode record ∧
        session.Reads (bucket.recordPath key) written.2.disk bytes ∧
        (written.1 = .ok () → bytes = (bucket.format site).1.encode record)) := by
  obtain ⟨connection, known, live, format⟩ := known_of_live live
  have ends : Ends (Scene.known bucket.connection connection) site.disk
      (bucket.writeRecord session key record) _ := writeRecord_leaves
  obtain ⟨held, left⟩ := ends.run site known rfl
  rw [format]
  exact ⟨⟨Option.bind_eq_some_iff.2 ⟨connection, held, live⟩, format_of_holds held⟩, left⟩

end

/-- A record that is cut short is never read. A fetch without rules tells that it is corrupt, wherever
the file of the key holds one; and so it does after any write of a record, under any rules, that has
neither left the tree alone nor the whole of the written form in the file. -/
theorem cut_record_is_corrupt {format : RecordFormat} {record : Record}
    (counts : format.Counts record) :
    (∀ bytes, format.CutShort record bytes →
      ∃ reason, format.decode bytes = .error (.unreadable reason)) ∧
    ∀ (bucket : Bucket) (key : String) (session : Session) (site : Site),
      (site.connections[bucket.connection.index]?).bind Connection.slot = some session →
      (bucket.format site).1 = format →
      (∀ bytes, format.CutShort record bytes →
        session.Reads (bucket.recordPath key) site.disk bytes →
        ∃ text, ((Command.fetchRecord key).run bucket (site.withRules [] [])).1 =
          .record (.error (.corruptRecord key text))) ∧
      let written := bucket.writeRecord session key record site
      written.2.disk = site.disk ∧ written.1 ≠ .ok () ∨
        session.Reads (bucket.recordPath key) written.2.disk (format.encode record) ∨
        written.1 ≠ .ok () ∧
          (∃ bytes, format.CutShort record bytes ∧
            session.Reads (bucket.recordPath key) written.2.disk bytes) ∧
          ∃ text, ((Command.fetchRecord key).run bucket (written.2.withRules [] [])).1 =
            .record (.error (.corruptRecord key text)) := by
  refine ⟨fun bytes cut => cut.unreadable counts, fun bucket key session site live same => ?_⟩
  subst same
  refine ⟨fun bytes cut reads => corrupt_of_unreadable live reads (cut.unreadable counts), ?_⟩
  obtain ⟨⟨live', format⟩, left⟩ := writeRecord_cases live key record
  intro written
  obtain nothing | ⟨bytes, beginning, reads, whole⟩ := left
  · exact .inl nothing
  by_cases all : bytes = (bucket.format site).1.encode record
  · exact .inr (.inl (all ▸ reads))
  · have cut : (bucket.format site).1.CutShort record bytes := ⟨beginning, all⟩
    refine .inr (.inr ⟨fun well => all (whole well), ⟨bytes, cut, reads⟩, ?_⟩)
    exact corrupt_of_unreadable live' reads (format ▸ cut.unreadable counts)

/-- The write breaks off within the text; the record holds a NaN. -/
theorem torn_text_is_fetched_as_corrupt :
    let bucket : Bucket := ⟨⟨0⟩, "b"⟩
    let record := Record.ofFields [("größe", .text "lzma"), ("nan", .float 0x7FF8000000000000)]
    let start : Site := { Site.connected "/" (SortedMap.empty.insert ["b"] .directory) with
      connections := [⟨{ format := .packed }, some ⟨0, "/"⟩⟩] }
    let cut : Rule StreamKind Cut := ⟨.write, some "b/k.meta", 0, none, ⟨41, .nulInName⟩⟩
    let torn := (Command.run ⟨⟨0⟩, "b"⟩ (.store "k" { bytes := [7, 8] } record)
      (start.withRules [] [cut])).2
    RecordFormat.packed.Counts record ∧
      RecordFormat.packed.CutShort record ((RecordFormat.packed.encode record).take 41) ∧
      torn.disk.find? ["b", "k.meta"] =
        some (.file ((RecordFormat.packed.encode record).take 41)) ∧
      ∃ text, ((Command.fetchRecord "k").run bucket (torn.withRules [] [])).1 =
        .record (.error (.corruptRecord "k" text)) := by
  intro bucket record start cut torn
  have counts : RecordFormat.packed.Counts record := by decide +kernel
  have short : RecordFormat.packed.CutShort record
      ((RecordFormat.packed.encode record).take 41) :=
    ⟨List.take_prefix _ _, by decide +kernel⟩
  have held : torn.disk.find? ["b", "k.meta"] =
      some (.file ((RecordFormat.packed.encode record).take 41)) := by decide +kernel
  have live : (torn.connections[bucket.connection.index]?).bind Connection.slot =
      some ⟨0, "/"⟩ := by decide +kernel
  have format : (bucket.format torn).1 = .packed := by decide +kernel
  have reads : Session.Reads ⟨0, "/"⟩ (bucket.recordPath "k") torn.disk
      ((RecordFormat.packed.encode record).take 41) := by
    unfold Session.Reads
    decide +kernel
  exact ⟨counts, short, held,
    ((cut_record_is_corrupt counts).2 bucket "k" _ torn live format).1 _ short reads⟩

end TreeStore
