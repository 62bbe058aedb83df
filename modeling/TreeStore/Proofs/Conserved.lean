import TreeStore.Proofs.Refused
/-!
A rename under which any call may fail. The files of an object are moved one after the other, and a
call that fails moves nothing; so wherever a rename is cut, each file stands in full under one of
the two keys, and the record has not gone ahead of the payload.
-/
namespace TreeStore

open Layout (Part)
open TreeStore.Path (Plain)

namespace Files

def Kept (before after : Files) (source target : String) (part : Part) : Prop :=
  after source part = before source part ∧ after target part = before target part

def Moved (before after : Files) (source target : String) (part : Part) : Prop :=
  ∃ content, before source part = some content ∧ after source part = .none ∧
    after target part = some content

/-- How far a rename can come. -/
inductive Renaming (files : Files) (source target : String) : Files → Prop
  | untouched : Renaming files source target files
  | payload (held : files source .payload ≠ .none) :
      Renaming files source target (files.move source target .payload)
  | both (held : files source .payload ≠ .none) (held' : files source .record ≠ .none) :
      Renaming files source target ((files.move source target .payload).move source target .record)

variable {files later : Files} {source target : String} {part part' : Part}

theorem Kept.refl (files : Files) (source target : String) (part : Part) :
    files.Kept files source target part := ⟨rfl, rfl⟩

theorem Kept.moved {middle : Files} (first : files.Kept middle source target part)
    (rest : middle.Moved later source target part) : files.Moved later source target part := by
  obtain ⟨content, held, gone, come⟩ := rest
  exact ⟨content, first.1.symm.trans held, gone, come⟩

theorem Moved.kept {middle : Files} (first : files.Moved middle source target part)
    (rest : middle.Kept later source target part) : files.Moved later source target part := by
  obtain ⟨content, held, gone, come⟩ := first
  exact ⟨content, held, rest.1.trans gone, rest.2.trans come⟩

theorem Moved.not_kept (moved : files.Moved later source target part) :
    ¬ files.Kept later source target part := by
  rintro ⟨same, -⟩
  obtain ⟨content, held, gone, -⟩ := moved
  rw [gone, held] at same
  cases same

theorem moved_of_move (other : source ≠ target) (held : files source part ≠ .none) :
    files.Moved (files.move source target part) source target part := by
  obtain ⟨content, held⟩ := Option.ne_none_iff_exists'.1 held
  exact ⟨content, held, move_source other, by rw [move_target, held, Option.some_or]⟩

theorem kept_of_move (apart : part' ≠ part) :
    files.Kept (files.move source target part) source target part' :=
  ⟨move_apart (.inl apart), move_apart (.inl apart)⟩

/-- Wherever a rename stops, no file is lost and none is doubled. -/
theorem Renaming.conserves (stopped : files.Renaming source target later)
    (other : source ≠ target) :
    (∀ part, files.Kept later source target part ∨ files.Moved later source target part) ∧
      (files.Moved later source target .record → files.Moved later source target .payload) := by
  cases stopped with
  | untouched =>
    exact ⟨fun part => .inl (.refl ..), fun moved => absurd (Kept.refl ..) moved.not_kept⟩
  | payload held =>
    have payload := moved_of_move other held
    refine ⟨fun part => ?_, fun _ => payload⟩
    cases part with
    | payload => exact .inr payload
    | record => exact .inl (kept_of_move (by simp))
  | both held held' =>
    have first := moved_of_move other held
    have still : files.Kept (files.move source target .payload) source target .record :=
      kept_of_move (by simp)
    have after : (files.move source target .payload).Kept
        ((files.move source target .payload).move source target .record) source target .payload :=
      kept_of_move (by simp)
    have payload := first.kept after
    have record := still.moved (moved_of_move other (still.1 ▸ held'))
    refine ⟨fun part => .inr ?_, fun _ => payload⟩
    cases part with
    | payload => exact payload
    | record => exact record

end Files

section Renaming

variable {scene : Scene} {session : Session} {id : ConnectionId} {name : String} {files : Files}
variable (plain : Plain name)

include plain

theorem rename_tried (source target : String) (part : Part) :
    Yields scene session name files (session.rename (Bucket.path ⟨id, name⟩ source part)
        (Bucket.path ⟨id, name⟩ target part))
      (Tried files fun _ later => files source part ≠ none ∧
        later = files.move source target part) := by
  intro tree stores
  refine (change_ends ..).mono fun answer later done => ?_
  rcases done with ⟨error, rfl, rfl⟩ | ⟨rfl, renamed⟩
  · exact ⟨files, stores, .failed error⟩
  · obtain ⟨⟨content, held⟩, -, stores'⟩ := stores.moved_of_rename plain renamed
    exact ⟨_, stores', .done ⟨by simp [held], rfl⟩⟩

/-- The probe and the making of folders move nothing; the payload goes first, then the record. -/
theorem rename_yields (shows : scene.Shows id (some session)) (source target : String) :
    Yields scene session name files (Bucket.rename ⟨id, name⟩ source target) fun _ later =>
      files.Renaming source target later := by
  have probed : Yields scene session name files (Bucket.require ⟨id, name⟩ source) fun _ later =>
      later = files := fun tree stores => (require_ends shows tree source).mono
    fun _ _ same => ⟨files, same ▸ stores, rfl⟩
  have payload : Yields scene session name files (Bucket.withDirectories ⟨id, name⟩
      (Bucket.payloadPath ⟨id, name⟩ target) (session.rename
        (Bucket.path ⟨id, name⟩ source .payload) (Bucket.path ⟨id, name⟩ target .payload))) _ :=
    withDirectories_tried plain shows (rename_tried plain source target .payload)
  refine .live shows (probed.andThen (fun _ files' same => ?_) fun _ _ same => same ▸ .untouched)
  rw [same]
  refine payload.andThen (fun _ files' ended => ?_) fun error files' ended => ?_
  · cases ended with
    | done held =>
      obtain ⟨held, rfl⟩ := held
      refine (rename_tried plain source target .record).lifted fun answer later ended => ?_
      cases ended with
      | done held' =>
        obtain ⟨held', rfl⟩ := held'
        rw [Files.move_apart (.inl (by simp))] at held'
        exact .ok (.both held held')
      | failed error =>
        dsimp only
        split
        · exact .ok (.payload held)
        · exact .throw (.payload held)
  · cases ended with
    | failed => exact .untouched

end Renaming

/-- Whatever fails under a rename, each of the two files is under both keys what it was, or it is
gone from the source and stands whole at the target; and the record has moved only if the payload
has. -/
theorem rename_loses_and_doubles_nothing (bucket : Bucket) (session : Session) (site : Site)
    (since : bucket.Since site)
    (live : (site.connections[bucket.connection.index]?).bind Connection.slot = some session)
    {source target : String} (other : source ≠ target) (calls : List (Rule CallKind Refusal))
    (streams : List (Rule StreamKind Cut)) :
    let before := Files.inTree session bucket.name site.disk
    let ended := bucket.rename source target (site.withRules calls streams)
    let after := Files.inTree session bucket.name ended.2.disk
    (∀ part, before.Kept after source target part ∨ before.Moved after source target part) ∧
      (before.Moved after source target .record → before.Moved after source target .payload) := by
  intro before ended after
  obtain ⟨stores, -⟩ := since.calm live
  have renamed : Yields (Scene.slot bucket.connection (some session)) session bucket.name before
      (bucket.rename source target) fun _ later => before.Renaming source target later :=
    rename_yields since.plain (Scene.shows_slot _ _) source target
  have holds : (Scene.slot bucket.connection (some session)).holds
      (site.withRules calls streams) := live
  have stopped : before.Renaming source target after := (renamed.run holds stores).2.2
  exact stopped.conserves other

/-- The folder of the target is missing and is made; then the record cannot be moved. -/
theorem refused_record_stays_behind :
    let bucket : Bucket := ⟨⟨0⟩, "b"⟩
    let refused : Rule CallKind Refusal :=
      { occasion := .rename, path? := some "b/k.meta", effect := ⟨.other, "refused"⟩ }
    let made := (ConnectionId.createBucket ⟨0⟩ "b" (Site.connected "/" SortedMap.empty)).2
    let site := ((Command.store "k" { bytes := [7] } SortedMap.empty).run bucket
      (made.withRules [] [])).2
    let before := Files.inTree ⟨0, "/"⟩ bucket.name site.disk
    let ended := bucket.rename "k" "n/k" (site.withRules [refused] [])
    let after := Files.inTree ⟨0, "/"⟩ bucket.name ended.2.disk
    bucket.Since site ∧ before "k" .payload = some [7] ∧ before "k" .record ≠ none ∧
      ended.1 ≠ .ok () ∧ before.Moved after "k" "n/k" .payload ∧
      before.Kept after "k" "n/k" .record := by
  intro bucket refused made site before ended after
  have since : bucket.Since site := .asked .of_empty_disk [] [] _
  have ⟨live, held, recorded, failed, gone, stays⟩ :
      (site.connections[bucket.connection.index]?).bind Connection.slot = some ⟨0, "/"⟩ ∧
      before "k" .payload = some [7] ∧ before "k" .record ≠ none ∧ ended.1 ≠ .ok () ∧
      after "k" .payload = none ∧ after "k" .record ≠ none := by decide +kernel
  clear_value site
  have other : "k" ≠ "n/k" := by decide
  obtain ⟨conserved, -⟩ :=
    rename_loses_and_doubles_nothing bucket ⟨0, "/"⟩ site since live other [refused] []
  refine ⟨since, held, recorded, failed, (conserved .payload).resolve_left fun kept => ?_,
    (conserved .record).resolve_right fun moved => ?_⟩
  · have same : after "k" .payload = before "k" .payload := kept.1
    rw [gone, held] at same
    cases same
  · obtain ⟨_, -, gone, -⟩ := moved
    exact stays gone

end TreeStore
