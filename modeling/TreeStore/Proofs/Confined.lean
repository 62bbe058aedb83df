import TreeStore.Proofs.Apart
import TreeStore.Proofs.Subtree
/-!
No key leads out of its bucket. The paths of its files are plain names from the bucket on, whatever
the key holds, so a disk that goes along such a path goes through the directory of the bucket and
ends at a name below it (`keys_stay_in_their_bucket`).
-/
namespace TreeStore

namespace Path

theorem fields_ofNames {names : List String} (plain : ∀ n ∈ names, Plain n) (some : names ≠ []) :
    fields (ofNames names).toList = names.map String.toList := by
  induction names using List.reverseRecOn with
  | nil => exact absurd rfl some
  | append_singleton names name ih =>
    have last := fields_of_no_slash (plain name (by simp)).no_slash
    have front : ∀ n ∈ names, Plain n := fun n mem => plain n (List.mem_append_left _ mem)
    rcases eq_or_ne names [] with rfl | more
    · exact last
    · rw [toList_ofNames_concat front more, fields_append_slash, ih front more, last,
        List.map_append]
      rfl

end Path

open TreeStore.Path (Plain Inside)

namespace Disk

theorem enter_split {tree : Tree} {place next : Location} {front back : List String}
    (entered : enter tree place (front ++ back) = .ok next) :
    ∃ middle, enter tree place front = .ok middle ∧ enter tree middle back = .ok next := by
  induction front generalizing place with
  | nil => exact ⟨place, rfl, entered⟩
  | cons name front ih =>
    rw [List.cons_append, enter] at entered
    rw [enter]
    split at entered
    case h_1 => exact ih entered
    case h_2 => cases entered

end Disk

namespace Session

variable {base : String} {inner : List String} {last : String}

theorem inside_resolve (plain : ∀ n ∈ base :: (inner ++ [last]), Plain n) (session : Session) :
    Inside (session.resolve base) (session.resolve (Path.ofNames (base :: (inner ++ [last])))) := by
  have first : ∀ n ∈ [base], Plain n := by simpa using plain base (by simp)
  have resolved := session.resolve_ofNames first
  rw [Path.ofNames_singleton] at resolved
  have below : Inside base (Path.ofNames (base :: (inner ++ [last]))) := by
    have at_front := @Path.inside_concat_iff base "" (base :: inner)
      (fun n mem => plain n (List.mem_append_left [last] mem)) last
      (plain last (by simp)).no_slash
    exact at_front.2 (.inr ⟨[base], by simp, by simp, rfl⟩)
  rw [resolved, session.resolve_ofNames plain, Inside, Path.toList_slash, String.toList_append,
    String.toList_append, List.append_assoc, List.prefix_append_right_inj, ← Path.toList_slash]
  exact below

theorem target_below (plain : ∀ n ∈ base :: (inner ++ [last]), Plain n) {session : Session}
    {tree : Tree} {target : Disk.Target}
    (reached : Disk.target tree (session.resolve (Path.ofNames (base :: (inner ++ [last])))) =
      .ok target) :
    ∃ top, Disk.find tree (session.resolve base) = .ok (top, .directory) ∧
      target.directory = top ++ inner ∧ target.last = .named last := by
  have stop := plain last (by simp)
  obtain ⟨rest, whole⟩ := Path.inside_iff.1 (inside_resolve plain session)
  obtain ⟨route, read, goal⟩ := Disk.route_of_target reached
  obtain ⟨no_nul, short, rfl⟩ := Disk.ofPath_eq_ok read
  have parts : Path.components (session.resolve (Path.ofNames (base :: (inner ++ [last])))) =
      Path.components (session.resolve base) ++ inner ++ [last] := by
    have first := Path.components_of_plain (plain base (by simp))
    rw [components_resolve, components_resolve, Path.components_ofNames plain, first]
    simp
  unfold Disk.Route.target at goal
  simp only [parts, List.dropLast_concat, List.getLast?_concat] at goal
  split at goal
  case h_2 => cases goal
  case h_1 directory entered =>
    cases goal
    obtain ⟨top, through, onward⟩ := Disk.enter_split entered
    refine ⟨top, Disk.find_directory_iff.2 ⟨?_, ?_, through⟩, ?_, ?_⟩
    · rw [whole] at no_nul
      simp only [Disk.hasNul, List.contains_eq_mem, decide_eq_false_iff_not, String.toList_append,
        List.mem_append, not_or] at no_nul ⊢
      exact no_nul.1.1
    · rw [whole, String.utf8ByteSize_append, String.utf8ByteSize_append] at short
      omega
    · rw [Disk.enter_eq_settle onward]
      exact Disk.settle_of_plain top fun n mem =>
        plain n (List.mem_cons_of_mem _ (List.mem_append_left _ mem))
    · simp only [Disk.Last.ofName?, if_neg stop.not_here, if_neg stop.not_above]

end Session

/-- Between slashes the path has plain names, the first base and at least one more. From the root of
any session it lies below the base, and on any disk it leads through the directory of the base, and
from there only down. -/
structure Confined (base path : String) (inner : List String) (last : String) : Prop where
  fields : Path.fields path.toList = (base :: (inner ++ [last])).map String.toList
  plain : ∀ name ∈ base :: (inner ++ [last]), Plain name
  inside : ∀ session : Session, Inside (session.resolve base) (session.resolve path)
  leads : ∀ (session : Session) (tree : Tree) (target : Disk.Target),
    Disk.target tree (session.resolve path) = .ok target →
      ∃ top, Disk.find tree (session.resolve base) = .ok (top, .directory) ∧
        target.directory = top ++ inner ∧ target.last = .named last

theorem Confined.of_plain {base last : String} {inner : List String}
    (plain : ∀ name ∈ base :: (inner ++ [last]), Plain name) :
    Confined base (Path.ofNames (base :: (inner ++ [last]))) inner last where
  fields := Path.fields_ofNames plain (List.cons_ne_nil _ _)
  plain := plain
  inside := Session.inside_resolve plain
  leads _ _ _ := Session.target_below plain

namespace Layout

theorem file_confined {bucket : String} (plain : Plain bucket) (key : String) (part : Part) :
    Confined bucket (place bucket key ++ part.suffix) (folders key) (fileName key part) := by
  rw [file_concat]
  exact .of_plain fun _ mem => plain_of_mem_fileNames plain mem

/-- In a bucket whose name is plain, both files of any key lie in one directory at or below that of
the bucket, whatever the key holds. -/
theorem keys_stay_in_their_bucket {bucket : String} (plain : Plain bucket) (key : String) :
    ∃ inner payload record, Confined bucket (payloadPath bucket key) inner payload ∧
      Confined bucket (recordPath bucket key) inner record ∧
      Path.parent (payloadPath bucket key) = Path.parent (recordPath bucket key) :=
  ⟨folders key, fileName key .payload, fileName key .record, file_confined plain key .payload,
    file_confined plain key .record, (parent_file plain key .payload).trans
      (parent_file plain key .record).symm⟩

theorem climbing_key_stays_in_its_bucket :
    Plain "b" ∧ ∃ inner payload record,
      Confined "b" (payloadPath "b" "s3ql_data_../../\x00.") inner payload ∧
      Confined "b" (recordPath "b" "s3ql_data_../../\x00.") inner record ∧
      payloadPath "b" "s3ql_data_../../\x00." =
        "b/s3ql_data/..=/..=2F./..=2F..=2/..=2F..=2F=0/s3ql_data_..=2F..=2F=00..dat" := by
  have plain : Plain "b" := by decide
  obtain ⟨inner, payload, record, first, second, -⟩ :=
    keys_stay_in_their_bucket plain "s3ql_data_../../\x00."
  exact ⟨plain, inner, payload, record, first, second, by decide +kernel⟩

end Layout

end TreeStore
