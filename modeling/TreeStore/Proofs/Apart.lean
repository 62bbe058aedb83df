import TreeStore.Proofs.Layout
/-!
The paths of different keys, as text, in a bucket of any name. The directories below the bucket that
a path lies in are those of its folders (`inside_place_iff`), so no two files share a path and no file
has the path of a directory that is needed for another (`object_paths_are_apart`).
-/
namespace TreeStore.Layout

open TreeStore.Path

section Places

variable {bucket key directory : String}

theorem place_concat (bucket key : String) :
    place bucket key = ofNames (bucket :: (folders key ++ [Key.token key])) :=
  place_eq bucket key

theorem not_prefix_stem {front : List String} (plain : ∀ n ∈ front, Plain n) (some : front ≠ [])
    (deep : (ofNames (bucket :: front)).toList <+: directory.toList) :
    ¬ (directory ++ "/").toList <+: (stem bucket).toList := by
  intro above
  have long := deep.length_le
  have short := above.length_le
  rw [ofNames_cons plain some, String.toList_append, List.length_append] at long
  rw [toList_slash, List.length_append, List.length_singleton] at short
  omega

theorem inside_place_iff {front : List String} (plain : ∀ n ∈ front, Plain n) (some : front ≠ []) :
    Inside (ofNames (bucket :: front)) (place bucket key) ↔ front <+: folders key := by
  rw [place_concat, inside_concat_iff (fun n mem => plain_of_mem_folders mem)
    (slash_notMem_token key), or_iff_right (not_prefix_stem plain some List.prefix_rfl)]
  constructor
  · rintro ⟨front', begins, some', same⟩
    have plain' : ∀ n ∈ front', Plain n := fun n mem => plain_of_mem_folders (begins.subset mem)
    rwa [ofNames_cons_injective plain plain' some some' same]
  · exact fun begins => ⟨front, begins, some, rfl⟩

theorem exists_folders (below : directory = bulkRoot bucket ∨ Inside (bulkRoot bucket) directory)
    (inside : Inside directory (place bucket key)) :
    ∃ front, front <+: folders key ∧ front ≠ [] ∧ directory = ofNames (bucket :: front) := by
  have deep : (ofNames [bucket, bulkDirectory]).toList <+: directory.toList := by
    rcases below with rfl | below
    · exact List.prefix_rfl
    · rw [Inside, toList_slash] at below
      exact (List.prefix_append _ _).trans below
  rw [place_concat, inside_concat_iff (fun n mem => plain_of_mem_folders mem)
    (slash_notMem_token key)] at inside
  exact inside.resolve_left
    (not_prefix_stem (by simpa using plain_bulkDirectory) (List.cons_ne_nil _ _) deep)

end Places

section Files

variable (bucket key key' : String) (part part' : Part)

theorem file_concat : place bucket key ++ part.suffix =
    ofNames (bucket :: (folders key ++ [fileName key part])) :=
  place_append_suffix bucket key part

theorem plain_of_mem_file {name : String} (mem : name ∈ folders key ++ [fileName key part]) :
    Plain name := by
  rcases List.mem_append.1 mem with mem | mem
  · exact plain_of_mem_folders mem
  · exact List.mem_singleton.1 mem ▸ plain_fileName key part

theorem file_inj : place bucket key ++ part.suffix = place bucket key' ++ part'.suffix ↔
    key = key' ∧ part = part' := by
  constructor
  · intro same
    rw [file_concat, file_concat] at same
    have names := ofNames_cons_injective (fun _ => plain_of_mem_file key part)
      (fun _ => plain_of_mem_file key' part') (by simp) (by simp) same
    exact (fileNames_inj (congrArg (bucket :: ·) names)).2
  · rintro ⟨rfl, rfl⟩
    rfl

theorem not_inside_file : ¬ Inside (place bucket key ++ part.suffix) (place bucket key') := by
  rw [file_concat, inside_place_iff (fun _ => plain_of_mem_file key part) (by simp)]
  intro begins
  exact fileNames_not_prefix_folders bucket bucket key key' part
    (List.cons_prefix_cons.2 ⟨rfl, begins⟩)

end Files

/-- In a bucket of any name no payload has the path of a record, two keys have the same path for
their payloads, or for their records, only if they are equal, and no file has the path of a directory
that the path of a key lies in. -/
theorem object_paths_are_apart (bucket key key' : String) :
    payloadPath bucket key ≠ recordPath bucket key' ∧
      (payloadPath bucket key = payloadPath bucket key' ↔ key = key') ∧
      (recordPath bucket key = recordPath bucket key' ↔ key = key') ∧
      ¬ Inside (payloadPath bucket key) (place bucket key') ∧
      ¬ Inside (recordPath bucket key) (place bucket key') := by
  have payload := file_inj bucket key key' .payload
  have record := file_inj bucket key key' .record
  refine ⟨fun same => ?_, ?_, ?_, not_inside_file bucket key key' .payload,
    not_inside_file bucket key key' .record⟩
  · cases ((payload .record).1 same).2
  · exact (payload .payload).trans (and_iff_left rfl)
  · exact (record .record).trans (and_iff_left rfl)

end TreeStore.Layout
