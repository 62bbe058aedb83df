import TreeStore.Proofs.Outcome
/-!
What a rename makes of the objects under its two keys, from any state in which failures have left
them. The payload goes over what is at the target; so does the record if there is one, and if there
is none the record at the target stays.
-/
namespace TreeStore

open TreeStore.Path (Plain)

/-- A rename moves both files of an object and touches no other key. The record at the target is the
one that came with the payload, but for the case that none came and one was there. -/
theorem rename_moves_both_files (bucket : Bucket) (session : Session) (site : Site)
    (since : bucket.Since site)
    (live : (site.connections[bucket.connection.index]?).bind Connection.slot = some session)
    {source target : String} (other : source ≠ target)
    (here : KeyFits session bucket.name source) (there : KeyFits session bucket.name target)
    (present : Files.inTree session bucket.name site.disk source .payload ≠ none) :
    let before := Files.inTree session bucket.name site.disk
    let ended := bucket.rename source target (site.withRules [] [])
    let after := Files.inTree session bucket.name ended.2.disk
    ended.1 = .ok () ∧ (∀ part, after source part = none) ∧
      after target .payload = before source .payload ∧
      after target .record = (before source .record).or (before target .record) ∧
      (after target .record = before source .record ↔
        before source .record ≠ none ∨ before target .record = none) ∧
      ∀ key part, key ≠ source → key ≠ target → after key part = before key part := by
  intro before ended after
  obtain ⟨stores, connection, slot, calm⟩ := since.calm live
  obtain ⟨content, held⟩ : ∃ content, before source .payload = some content :=
    Option.ne_none_iff_exists'.1 present
  have renamed : Turns (Scene.calm bucket.connection connection site.order) session bucket.name
      before (bucket.rename source target) (.ok ())
      ((before.move source target .payload).move source target .record) :=
    rename_turns since.plain slot held (here .record) there
  obtain ⟨answered, moved⟩ : ended.1 = .ok () ∧
      after = (before.move source target .payload).move source target .record :=
    renamed.run calm stores
  clear_value before ended after
  have taken : after source .payload = none := by
    rw [moved, Files.move_apart (.inl (by simp)), Files.move_source other]
  have gone : after source .record = none := by
    rw [moved, Files.move_source other]
  have payload : after target .payload = before source .payload := by
    rw [moved, Files.move_apart (.inl (by simp)), Files.move_target, held, Option.some_or]
  have record : after target .record = (before source .record).or (before target .record) := by
    rw [moved, Files.move_target, Files.move_apart (.inl (by simp)),
      Files.move_apart (.inl (by simp))]
  refine ⟨answered, fun part => by cases part <;> assumption, payload, record, ?_,
    fun key part apart apart' => ?_⟩
  · rw [record]
    cases before source .record <;> simp
  · rw [moved, Files.move_apart (.inr ⟨apart, apart'⟩), Files.move_apart (.inr ⟨apart, apart'⟩)]

theorem renamed_object_replaces_another :
    let bucket : Bucket := ⟨⟨0⟩, "b"⟩
    let record : Record := SortedMap.empty.insert "x" (.int 3)
    let made := (ConnectionId.createBucket ⟨0⟩ "b" (Site.connected "/" SortedMap.empty)).2
    let first := ((Command.store "k" { bytes := [7] } record).run bucket (made.withRules [] [])).2
    let site := ((Command.store "n" { bytes := [8] } SortedMap.empty).run bucket
      (first.withRules [] [])).2
    let before := Files.inTree ⟨0, "/"⟩ bucket.name site.disk
    let ended := bucket.rename "k" "n" (site.withRules [] [])
    let after := Files.inTree ⟨0, "/"⟩ bucket.name ended.2.disk
    bucket.Since site ∧ KeyFits ⟨0, "/"⟩ bucket.name "k" ∧ KeyFits ⟨0, "/"⟩ bucket.name "n" ∧
      before "k" .payload = some [7] ∧ ended.1 = .ok () ∧ after "n" .payload = some [7] ∧
      after "n" .record = before "k" .record := by
  intro bucket record made first site before ended after
  have since : bucket.Since site := .asked (.asked .of_empty_disk [] [] _) [] [] _
  have ⟨live, held, recorded⟩ : (site.connections[bucket.connection.index]?).bind Connection.slot =
      some ⟨0, "/"⟩ ∧ before "k" .payload = some [7] ∧ before "k" .record ≠ none := by
    decide +kernel
  have here : KeyFits ⟨0, "/"⟩ bucket.name "k" := by decide +kernel
  have there : KeyFits ⟨0, "/"⟩ bucket.name "n" := by decide +kernel
  clear_value site
  have present : before "k" .payload ≠ none := by
    rw [held]
    simp
  obtain ⟨answered, -, payload, -, same, -⟩ := rename_moves_both_files bucket ⟨0, "/"⟩ site since
    live (by decide) here there present
  exact ⟨since, here, there, held, answered, payload.trans held, same.2 (.inl recorded)⟩

/-- The object at "k" has lost its record to a failure; after the rename the record of another
object stands beside its payload. -/
theorem rename_keeps_stale_record :
    let bucket : Bucket := ⟨⟨0⟩, "b"⟩
    let stale : Record := SortedMap.empty.insert "b" (.int 2)
    let refused : Rule CallKind Refusal :=
      { occasion := .openFile .write, path? := some "b/k.meta", effect := ⟨.other, "refused"⟩ }
    let made := (ConnectionId.createBucket ⟨0⟩ "b" (Site.connected "/" SortedMap.empty)).2
    let first := ((Command.store "n" { bytes := [8] } stale).run bucket (made.withRules [] [])).2
    let site := ((Command.store "k" { bytes := [7] } SortedMap.empty).run bucket
      (first.withRules [refused] [])).2
    let before := Files.inTree ⟨0, "/"⟩ bucket.name site.disk
    let ended := bucket.rename "k" "n" (site.withRules [] [])
    let after := Files.inTree ⟨0, "/"⟩ bucket.name ended.2.disk
    bucket.Since site ∧ before "k" .payload = some [7] ∧ before "k" .record = none ∧
      ended.1 = .ok () ∧ after "n" .payload = some [7] ∧ after "n" .record ≠ none ∧
      (bucket.fetchBytes "n" ended.2).1 = .ok (stale, [7]) := by
  intro bucket stale refused made first site before ended after
  exact ⟨.asked (.asked .of_empty_disk [] [] _) [refused] [] _, by decide +kernel⟩

end TreeStore
