import TreeStore.Proofs.Lazy
import TreeStore.Proofs.Listing
/-!
Listing a bucket that is not there, such as one that has been deleted through another handle. A listing
that starts at the bucket itself fails at its first item. One for a bulk beginning starts at a shard
directory, and a first directory that is not found has nothing to list: there the bucket is not missed
(`missing_bucket_fails_listing`).
-/
namespace TreeStore

open TreeStore.Path (Plain)

namespace Disk

variable {session : Session} {tree : Tree} {path name : String} {fault error : IoError}

theorem list_of_find_error (lost : find tree path = .error error) :
    Disk.list tree path = .error error := by
  simp only [Disk.list, lost, bind, Except.bind]

theorem list_of_find_file {place : Location} {content : Bytes}
    (found : find tree path = .ok (place, .file content)) :
    Disk.list tree path = .error (.ofSystem .notDirectory) := by
  simp [Disk.list, found, bind, Except.bind, Node.isDirectory]

theorem list_ne_error {place : Location} (found : find tree path = .ok (place, .directory)) :
    Disk.list tree path ≠ .error fault := by
  simp [Disk.list, found, bind, Except.bind, Node.isDirectory]

theorem exists_fault (missing : ∀ place, find tree path ≠ .ok (place, .directory)) :
    ∃ fault, Disk.list tree path = .error fault := by
  cases found : find tree path with
  | error error => exact ⟨error, list_of_find_error found⟩
  | ok reached =>
    obtain ⟨place, _ | content⟩ := reached
    · exact absurd found (missing place)
    · exact ⟨_, list_of_find_file found⟩

theorem list_error_cases (failed : Disk.list tree path = .error fault) :
    find tree path = .error fault ∨ fault = .ofSystem .notDirectory ∧
      ∃ place content, find tree path = .ok (place, .file content) := by
  cases found : find tree path with
  | error error =>
    rw [list_of_find_error found] at failed
    exact .inl (congrArg _ (Except.error.inj failed))
  | ok reached =>
    obtain ⟨place, _ | content⟩ := reached
    · exact absurd failed (list_ne_error found)
    · rw [list_of_find_file found] at failed
      exact .inr ⟨(Except.error.inj failed).symm, place, content, rfl⟩

theorem notFound_iff (failed : Disk.list tree path = .error fault) :
    fault.kind = .notFound ↔ ∃ error, find tree path = .error error ∧ error.kind = .notFound := by
  constructor
  · intro nothing
    rcases list_error_cases failed with lost | ⟨rfl, -⟩
    · exact ⟨fault, lost, nothing⟩
    · exact absurd nothing (by decide)
  · rintro ⟨error, lost, nothing⟩
    rw [list_of_find_error lost] at failed
    cases failed
    exact nothing

/-- What is wrong with a directory is wrong with all that should lie in it. -/
theorem find_beyond {rest : List String} {last : String}
    (plain : ∀ n ∈ name :: (rest ++ [last]), Plain n)
    (fits : Fits session (name :: (rest ++ [last])))
    (failed : Disk.list tree (session.resolve name) = .error fault) :
    find tree (session.resolve (Path.ofNames (name :: (rest ++ [last])))) = .error fault := by
  have first : Plain name := plain name (by simp)
  have short := fits.name name (by simp)
  have alone : Fits session [name] := by
    refine @Fits.front session [name] (rest ++ [last]) fits (by simpa using first) fun n mem => ?_
    exact plain n (List.mem_cons_of_mem _ mem)
  rw [← List.cons_append] at plain fits ⊢
  have names : ∀ n ∈ name :: rest, Plain n := fun n mem => plain n (List.mem_append_left _ mem)
  have ends : Plain last := plain last (by simp)
  suffices stopped : target tree (session.resolve (Path.ofNames (name :: rest ++ [last]))) =
      .error fault by
    simp only [find, stopped, bind, Except.bind]
  rcases session.seated_or_lost tree with seated | ⟨error, lost⟩
  -- Past the root, the name is the first step of the longer way and the last of the shorter one.
  · have looked : entry? tree session.seat name = .ok (tree.node? (session.place [name])) := by
      unfold entry?
      exact if_neg (Nat.not_lt.2 short)
    have found := seated.find_name first alone
    rw [Session.target_resolve seated names ends fits, enter, step, if_neg first.not_here,
      if_neg first.not_above, looked]
    cases stands : tree.node? (session.place [name]) with
    | none =>
      rw [stands] at found
      rw [list_of_find_error found] at failed
      cases failed
      rfl
    | some node =>
      rw [stands] at found
      cases node with
      | file content =>
        rw [list_of_find_file found] at failed
        cases failed
        rfl
      | directory => exact absurd failed (list_ne_error found)
  · have here : target tree (session.resolve name) = .error error := lost [] name (by simp) first alone
    simp only [Disk.list, find, here, bind, Except.bind, Except.error.injEq] at failed
    rw [lost (name :: rest) last names ends fits, failed]

end Disk

theorem Layout.folders_eq_nil_iff {key : String} :
    folders key = [] ↔ ¬ bulkMark.toList <+: (Key.token key).toList := by
  refine ⟨fun none bulk => ?_, folders_of_flat⟩
  obtain ⟨tail, whole⟩ := bulk
  rw [folders_of_tail whole.symm] at none
  cases none

def Listing.stopped (error? : Option StoreError) : Option (Except StoreError String × Listing) :=
  error?.map fun error => (.error error, .finished)

section First

variable {scene : Scene} {tree : Tree} {id : ConnectionId} {session : Session} {name start : String}

theorem list_of_stopped {bucket : Bucket} {error? : Option StoreError}
    (stopped : Runs scene tree (Listing.next? (.waiting bucket start)) (Listing.stopped error?) tree)
    (limit? : Option Nat) :
    Runs scene tree (bucket.list start limit?)
      ([], if limit? = some 0 then none else error?) tree := by
  have taken : ∀ n, Runs scene tree (Listing.take (n + 1) (.waiting bucket start))
      ([], error?) tree := by
    intro n
    refine stopped.bind ?_
    cases error? <;> exact Runs.pure
  rcases limit? with _ | _ | n
  · refine (itemBound_ends scene tree).bind fun bound later ⟨eq, same⟩ => ?_
    subst eq same
    exact taken _
  · exact Runs.pure
  · exact taken n

theorem enter_of_same (shows : scene.Shows id (some session))
    (itself : Listing.base name start = name) :
    Runs scene tree (Listing.enter ⟨id, name⟩ start)
      (.ok (some (Listing.scanned ⟨id, name⟩ start session))) tree := by
  refine ⟨fun site held same => ?_⟩
  rw [@Listing.enter_of_itself start site session ⟨id, name⟩ (shows site held) itself]
  exact ⟨held, rfl, same⟩

variable (quiet : scene.Quiet) (shows : scene.Shows id (some session)) {fault : IoError}

include quiet shows

theorem next?_of_no_directory (itself : Listing.base name start = name)
    (failed : Disk.list tree (session.resolve name) = .error fault) :
    Runs scene tree (Listing.next? (.waiting ⟨id, name⟩ start))
      (Listing.stopped (some (.transport (.ofIo (Listing.base name start) fault)))) tree := by
  refine (enter_of_same shows itself).bind ?_
  refine (visitBound_ends scene tree).bind fun bound later ⟨eq, same⟩ => ?_
  subst eq same
  rw [← itself] at failed
  have asked : Runs scene later (Listing.scanned ⟨id, name⟩ start session).next?
      (.error (.ofIo (Listing.base name start) fault)) later :=
    (list_of_error quiet failed).bind Runs.pure
  exact asked.bind Runs.pure

theorem next?_of_not_found (below : Listing.base name start ≠ name)
    (lost : Disk.find tree (session.resolve (Listing.base name start)) = .error fault) :
    Runs scene tree (Listing.next? (.waiting ⟨id, name⟩ start))
      (Listing.stopped (if fault.kind = .notFound then none
        else some (.transport (.ofIo (Listing.base name start) fault)))) tree := by
  have entered := enter_of_not_found quiet shows below lost
  split at entered
  case isTrue nothing =>
    rw [if_pos nothing]
    exact entered.bind Runs.pure
  case isFalse failure =>
    rw [if_neg failure]
    exact entered.bind Runs.pure

/-- Where the bucket is not a directory, the first item is the reason for it. There is no item if the
bucket is not found and the listing starts below it. -/
theorem next?_of_missing (plain : Plain name)
    (fits : Disk.Fits session (name :: Layout.folders start))
    (failed : Disk.list tree (session.resolve name) = .error fault) :
    Runs scene tree (Listing.next? (.waiting ⟨id, name⟩ start))
      (Listing.stopped (if fault.kind = .notFound ∧ Layout.folders start ≠ [] then none
        else some (.transport (.ofIo (Listing.base name start) fault)))) tree := by
  have names : ∀ n ∈ name :: Layout.folders start, Plain n :=
    fun n mem => Layout.plain_of_mem_path plain mem
  cases folders : Layout.folders start using List.reverseRecOn with
  | nil =>
    have itself := (base_eq_name_iff plain start).2 folders
    simpa using next?_of_no_directory quiet shows itself failed
  | append_singleton top last =>
    have below : Listing.base name start ≠ name := by
      rw [ne_eq, base_eq_name_iff plain, folders]
      simp
    have lost : Disk.find tree (session.resolve (Listing.base name start)) = .error fault := by
      rw [folders] at fits names
      rw [base_eq plain, folderPath, folders]
      exact Disk.find_beyond names fits failed
    simpa using next?_of_not_found quiet shows below lost

end First

def Bucket.gone (bucket : Bucket) : Site :=
  let made := (bucket.connection.createBucket bucket.name (Site.connected "/" SortedMap.empty)).2
  (bucket.connection.deleteBucket bucket.name true made).2

/-- Where the disk finds no directory at its name, a listing of a bucket fails at its first item, if
nothing else does. There is one exception: if the bucket is not found at all and the listing is for a
bulk beginning, its first directory lies in the bucket, and one that is not found has no keys. -/
theorem missing_bucket_fails_listing (bucket : Bucket) (start : String) (session : Session)
    (site : Site) (live : slotIn site.connections bucket.connection = some session)
    (plain : Plain bucket.name)
    (fits : Disk.Fits session (bucket.name :: Layout.folders start))
    (missing : ∀ place,
      Disk.find site.disk (session.resolve bucket.name) ≠ .ok (place, .directory)) :
    let nothing := ∃ fault, Disk.find site.disk (session.resolve bucket.name) = .error fault ∧
      fault.kind = .notFound
    let bulk := Layout.bulkMark.toList <+: (Key.token start).toList
    let listed := fun limit? => (bucket.list start limit? (site.withRules [] [])).1
    (¬ (nothing ∧ bulk) → ∃ fault, ∀ limit?, limit? ≠ some 0 →
      listed limit? = ([], some (.transport (.ofIo (Listing.base bucket.name start) fault)))) ∧
    (nothing ∧ bulk → ∀ limit?, listed limit? = ([], none)) := by
  intro nothing bulk listed
  obtain ⟨fault, failed⟩ := Disk.exists_fault missing
  obtain ⟨id, name⟩ := bucket
  obtain ⟨connection, slot, calm⟩ := Site.exists_calm live
  have first := next?_of_missing (Scene.calm_quiet id connection site.order)
    (Scene.calm_shows_live slot site.order) plain fits failed
  have answer (limit? : Option Nat) : listed limit? = ([], if limit? = some 0 then none
      else if fault.kind = .notFound ∧ Layout.folders start ≠ [] then none
      else some (.transport (.ofIo (Listing.base name start) fault))) :=
    ((list_of_stopped first limit?).run _ calm rfl).2.1
  have excepted : nothing ∧ bulk ↔ fault.kind = .notFound ∧ Layout.folders start ≠ [] := by
    rw [Disk.notFound_iff failed, ne_eq, Layout.folders_eq_nil_iff, not_not]
  constructor
  · intro told
    refine ⟨fault, fun limit? some => ?_⟩
    rw [answer, if_neg some, if_neg (mt excepted.2 told)]
  · intro quiet limit?
    rw [answer, if_pos (excepted.1 quiet), ite_self]

theorem deleted_bucket_is_missed :
    let bucket : Bucket := ⟨⟨0⟩, "b"⟩
    let site := bucket.gone
    (∃ fault, ∀ limit?, limit? ≠ some 0 →
      (bucket.list "s3ql_dat" limit? (site.withRules [] [])).1 =
        ([], some (.transport (.ofIo "b" fault)))) ∧
    ∀ limit?, (bucket.list "s3ql_data_12345" limit? (site.withRules [] [])).1 = ([], none) := by
  intro bucket site
  have live : slotIn site.connections bucket.connection = some ⟨0, "/"⟩ := by decide +kernel
  have lost : Disk.find site.disk (Session.resolve ⟨0, "/"⟩ "b") =
      .error (.ofSystem .noEntry) := by decide +kernel
  have missing : ∀ place, Disk.find site.disk (Session.resolve ⟨0, "/"⟩ bucket.name) ≠
      .ok (place, .directory) := by
    intro place found
    rw [lost] at found
    cases found
  have itself : Listing.base bucket.name "s3ql_dat" = "b" := by decide +kernel
  have flat := missing_bucket_fails_listing bucket "s3ql_dat" ⟨0, "/"⟩ site live (by decide)
    (by decide +kernel) missing
  have bulk := missing_bucket_fails_listing bucket "s3ql_data_12345" ⟨0, "/"⟩ site live (by decide)
    (by decide +kernel) missing
  rw [itself] at flat
  exact ⟨flat.1 fun both => absurd both.2 (by decide +kernel),
    bulk.2 ⟨⟨_, lost, rfl⟩, by decide +kernel⟩⟩

/-- A listing finds nothing where the bucket is gone, and says no more than for an empty bucket. -/
theorem missing_bucket_is_listed_as_empty :
    let bucket : Bucket := ⟨⟨0⟩, "b"⟩
    let site := bucket.gone
    slotIn site.connections bucket.connection = some ⟨0, "/"⟩ ∧ Plain bucket.name ∧
    Disk.Fits ⟨0, "/"⟩ (Layout.fileNames bucket.name "s3ql_data_1" .payload) ∧
    site.disk.node? ["b"] = none ∧
    (bucket.list "s3ql_data_1" none (site.withRules [] [])).1 = ([], none) := by
  decide +kernel

end TreeStore
