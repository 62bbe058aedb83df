import TreeStore.Proofs.Outcome
/-!
What is left under a key after a delete that is answered well, from any state in which failures have
left it. A delete that finds a payload takes both files away; a forced one that finds none is done at
once, and a record that has been left there stays.
-/
namespace TreeStore

open Layout (fileNames)
open TreeStore.Path (Plain)

theorem IoError.eq_of_notFound {error : SystemError} (missing : (ofSystem error).kind = .notFound) :
    error = .noEntry := by
  unfold ofSystem at missing
  dsimp only at missing
  split at missing
  · assumption
  · split at missing
    · cases missing
    · split at missing <;> cases missing

namespace Disk

variable {tree : Tree} {path : String} {error : IoError}

theorem target_missing (h : target tree path = .error error) (missing : error.kind = .notFound) :
    error = .ofSystem .noEntry := by
  cases read : Route.ofPath path with
  | error error' =>
    obtain rfl : error' = error := by simpa [target, read, bind, Except.bind] using h
    unfold Route.ofPath at read
    split at read
    · cases read
      cases missing
    · split at read
      · cases read
        rw [IoError.eq_of_notFound missing]
      · cases read
  | ok route =>
    have h : route.target tree = .error error := by
      simpa [target, read, bind, Except.bind] using h
    unfold Route.target at h
    split at h
    · cases h
    · cases h
      rw [IoError.eq_of_notFound missing]

theorem find_of_removeFile (h : removeFile tree path = .error error)
    (missing : error.kind = .notFound) : find tree path = .error (.ofSystem .noEntry) := by
  unfold removeFile at h
  unfold find
  cases reached : target tree path with
  | error error' =>
    rw [reached] at h
    cases h
    rw [target_missing reached missing]
    rfl
  | ok goal =>
    rw [reached] at h
    simp only [bind, Except.bind] at h ⊢
    obtain ⟨directory, last, slash⟩ := goal
    cases last with
    | named name =>
      simp only [Target.slot] at h ⊢
      cases looked : entry? tree directory name with
      | error refusal =>
        rw [looked] at h
        cases h
        rw [IoError.eq_of_notFound missing] at looked
        unfold entry? at looked
        split at looked <;> cases looked
      | ok node? =>
        rw [looked] at h
        cases node? with
        | none => rfl
        | some node =>
          cases node with
          | directory =>
            cases h
            cases missing
          | file content =>
            cases slash with
            | true =>
              cases h
              cases missing
            | false => cases h
    | _ =>
      simp only [Target.slot] at h
      cases h
      cases missing

end Disk

theorem CallError.kind_of_ofIo {path : String} {error : IoError}
    (missing : (CallError.ofIo path error).isNotFound = true) : error.kind = .notFound := by
  obtain ⟨kind, message⟩ := error
  cases kind with
  | notFound => rfl
  | _ => cases missing

section Deletes

variable {session : Session} {id : ConnectionId} {name key : String} {connection : Connection}
variable {order : Disk.Order} {tree : Tree} {files files' : Files} {force : Bool}

theorem Command.Leaves.of_deleted {format : RecordFormat} (leaves : Command.Leaves session name
      format files (.delete key force) (.nothing (.ok ())) files') :
    files' = if files key .payload = none then files
      else (files.set key .payload none).set key .record none := by
  cases leaves with
  | looked looks => cases looks
  | refused failed => cases failed
  | deleted present => rw [if_neg present]
  | spared missing => rw [if_pos missing]

variable (live : connection.slot = some session) (plain : Plain name)

include live plain

theorem delete_finds_nothing (stores : Stores session name tree files) (key : String)
    (force : Bool) :
    Ends (Scene.calm id connection order) tree (Bucket.delete ⟨id, name⟩ key force)
      fun result later => result = .ok () →
        Disk.find later (session.resolve (Bucket.path ⟨id, name⟩ key .payload)) =
          .error (.ofSystem .noEntry) := by
  cases present : files key .payload with
  | some content =>
    refine (delete_leaves live plain key force tree stores).mono
      fun result later ⟨files', stores', leaves⟩ well => ?_
    subst well
    have gone : files' key .payload = none := by
      rw [leaves.of_deleted, if_neg (by rw [present]; simp), Files.set_other (by simp),
        Files.set_same]
    exact stores'.find_absent plain (stores.fits present) gone
  | none =>
    refine .live (Scene.calm_shows_live live order) ?_
    cases removed : Disk.removeFile tree
        (session.resolve (Bucket.path ⟨id, name⟩ key .payload)) with
    | ok later =>
      obtain ⟨content, held⟩ := stores.held_of_removeFile plain removed
      rw [present] at held
      cases held
    | error error =>
      have called : Runs (Scene.calm id connection order) tree
          (session.removeFile (Bucket.path ⟨id, name⟩ key .payload)) _ tree :=
        change_of_error (Scene.calm_quiet id connection order) session removed
      refine called.lifted ?_
      dsimp only
      split
      case isTrue forced =>
        have missing := CallError.kind_of_ofIo (Bool.and_eq_true_iff.1 forced).1
        exact .ok fun _ => Disk.find_of_removeFile removed missing
      case isFalse => exact .throw fun eq => nomatch eq

theorem fetchRecord_missing_iff (fits : Disk.Fits session (fileNames name key .record)) :
    Yields (Scene.calm id connection order) session name files
      (Bucket.fetchRecord ⟨id, name⟩ key) fun result _ =>
        result = .error (.keyNotFound key) ↔ files key .record = none := by
  refine .live (Scene.calm_shows_live live order) ?_
  cases recorded : files key .record with
  | none => exact (readRecord_of_absent plain fits recorded).yields (by simp)
  | some bytes =>
    refine (readRecord_turns plain recorded).yields ?_
    cases connection.settings.format.decode bytes <;> simp [Except.mapError]

theorem delete_answers (fits : KeyFits session name key) :
    Yields (Scene.calm id connection order) session name files
      (Bucket.delete ⟨id, name⟩ key force) fun result _ => result =
        if files key .payload = none ∧ force = false then .error (.keyNotFound key)
        else .ok () := by
  cases present : files key .payload with
  | some content => exact (delete_turns plain live present (fits .record) force).yields (by simp)
  | none =>
    refine (delete_missing_turns plain live (fits .payload) present force).yields ?_
    cases force <;> simp

end Deletes

/-- A delete that is answered well leaves no payload under its key, and no record if there was a
payload; a record that was alone stays, and is still fetched. -/
theorem deleted_key_is_missing (bucket : Bucket) (session : Session) (site : Site)
    (since : bucket.Since site)
    (live : (site.connections[bucket.connection.index]?).bind Connection.slot = some session)
    (key : String) (force : Bool) :
    let before := Files.inTree session bucket.name site.disk
    let ended := bucket.delete key force (site.withRules [] [])
    let after := Files.inTree session bucket.name ended.2.disk
    (KeyFits session bucket.name key → ended.1 =
      if before key .payload = none ∧ force = false then .error (.keyNotFound key) else .ok ()) ∧
    (ended.1 = .ok () →
      after key .payload = none ∧
      after key .record = (if before key .payload = none then before key .record else none) ∧
      (∀ other part, other ≠ key → after other part = before other part) ∧
      (bucket.contains key ended.2).1 = .ok false ∧
      (∀ sink, (bucket.fetch key sink ended.2).1 = (.error (.keyNotFound key), sink.held)) ∧
      (Disk.Fits session (fileNames bucket.name key .record) →
        ((bucket.fetchRecord key ended.2).1 = .error (.keyNotFound key) ↔
          after key .record = none))) := by
  intro before ended after
  obtain ⟨stores, connection, slot, calm⟩ := since.calm live
  have plain := since.plain
  have shows : (Scene.calm bucket.connection connection site.order).Shows bucket.connection
      (some session) := Scene.calm_shows_live slot site.order
  obtain ⟨held, stores', leaves⟩ : (Scene.calm bucket.connection connection site.order).holds
      ended.2 ∧ Stores session bucket.name ended.2.disk after ∧
        Command.Leaves session bucket.name connection.settings.format before (.delete key force)
          (.nothing ended.1) after :=
    (delete_leaves slot plain key force).run calm stores
  -- The files do not tell a missing path from one that the disk refuses. Where a delete goes well,
  -- the path of the payload is one that it takes.
  have nothing : ended.1 = .ok () → Disk.find ended.2.disk
      (session.resolve (Bucket.path ⟨bucket.connection, bucket.name⟩ key .payload)) =
        .error (.ofSystem .noEntry) :=
    ((delete_finds_nothing slot plain stores key force).run _ calm rfl).2
  have answers : KeyFits session bucket.name key → ended.1 =
      if before key .payload = none ∧ force = false then .error (.keyNotFound key) else .ok () :=
    fun fits => ((delete_answers slot plain fits).run calm stores).2.2
  clear_value before ended
  refine ⟨answers, fun well => ?_⟩
  have missing := nothing well
  rw [well] at leaves
  have same := leaves.of_deleted
  refine ⟨?_, ?_, fun other part apart => ?_, ?_, fun sink => ?_, fun fits => ?_⟩
  · rw [same]
    split
    · assumption
    · rw [Files.set_other (by simp), Files.set_same]
  · rw [same]
    split
    · rfl
    · rw [Files.set_same]
  · rw [same]
    split
    · rfl
    · rw [Files.set_other (by simp [apart]), Files.set_other (by simp [apart])]
  · exact ((contains_of_missing shows (Scene.calm_quiet _ _ _) missing).run _ held rfl).2.1
  · exact ((fetch_of_nothing slot missing sink).run _ held rfl).2.1
  · exact ((fetchRecord_missing_iff slot plain fits).run held stores').2.2

theorem deleted_object_is_missing :
    let bucket : Bucket := ⟨⟨0⟩, "b"⟩
    let record : Record := SortedMap.empty.insert "x" (.int 3)
    let made := (ConnectionId.createBucket ⟨0⟩ "b" (Site.connected "/" SortedMap.empty)).2
    let site := ((Command.store "k" { bytes := [7] } record).run bucket (made.withRules [] [])).2
    let ended := bucket.delete "k" false (site.withRules [] [])
    let after := Files.inTree ⟨0, "/"⟩ bucket.name ended.2.disk
    bucket.Since site ∧ KeyFits ⟨0, "/"⟩ bucket.name "k" ∧ ended.1 = .ok () ∧
      after "k" .record = none ∧ (bucket.contains "k" ended.2).1 = .ok false ∧
      (bucket.fetchRecord "k" ended.2).1 = .error (.keyNotFound "k") := by
  intro bucket record made site ended after
  have since : bucket.Since site := .asked .of_empty_disk [] [] _
  have ⟨live, held⟩ : (site.connections[bucket.connection.index]?).bind Connection.slot =
      some ⟨0, "/"⟩ ∧ Files.inTree ⟨0, "/"⟩ bucket.name site.disk "k" .payload = some [7] := by
    decide +kernel
  have fits : KeyFits ⟨0, "/"⟩ bucket.name "k" := by decide +kernel
  clear_value site
  obtain ⟨answers, leaves⟩ := deleted_key_is_missing bucket ⟨0, "/"⟩ site since live "k" false
  have well : ended.1 = .ok () := by
    refine (answers fits).trans (if_neg ?_)
    rw [held]
    simp
  obtain ⟨-, record, -, missing, -, fetched⟩ := leaves well
  rw [held, if_neg (by simp)] at record
  exact ⟨since, fits, well, record, missing, (fetched (fits .record)).2 record⟩

/-- A delete that has failed between the two files is not made good by another one. -/
theorem repeated_delete_leaves_record :
    let bucket : Bucket := ⟨⟨0⟩, "b"⟩
    let record : Record := SortedMap.empty.insert "x" (.int 3)
    let refused : Rule CallKind Refusal :=
      { occasion := .removeFile, path? := some "b/k.meta", effect := ⟨.other, "refused"⟩ }
    let made := (ConnectionId.createBucket ⟨0⟩ "b" (Site.connected "/" SortedMap.empty)).2
    let first := ((Command.store "k" { bytes := [7] } record).run bucket (made.withRules [] [])).2
    let broken := (Command.delete "k" true).run bucket (first.withRules [refused] [])
    let ended := bucket.delete "k" true (broken.2.withRules [] [])
    bucket.Since broken.2 ∧ broken.1.error?.isSome ∧ ended.1 = .ok () ∧
      Files.inTree ⟨0, "/"⟩ bucket.name ended.2.disk "k" .record ≠ none ∧
      (bucket.contains "k" ended.2).1 = .ok false ∧
      (bucket.fetchRecord "k" ended.2).1 = .ok record := by
  intro bucket record refused made first broken ended
  exact ⟨.asked (.asked .of_empty_disk [] [] _) [refused] [] _, by decide +kernel⟩

end TreeStore
