import TreeStore.Proofs.Apart
/-!
The directory of a key and those of the keys that go on from it, in a bucket of any name. A directory
is written from the folders of its key, so that of a longer key is the one of its beginning or lies in
it, and a walk that starts at the directory of a beginning meets all keys that go on from there
(`beginnings_are_kept`).
-/
namespace TreeStore

namespace Path

theorem inside_parent {path : String} (some : parent path ≠ "") : Inside (parent path) path := by
  have split := List.takeWhile_append_dropWhile (p := (· != '/')) (l := path.toList.reverse)
  cases back : path.toList.reverse.dropWhile (· != '/') with
  | nil => exact absurd (by rw [parent, back]; rfl) some
  | cons c rest =>
    have first := List.head?_dropWhile_not (· != '/') path.toList.reverse
    rw [back] at first split
    obtain rfl : c = '/' := by simpa using first
    rw [Inside, toList_slash, parent, back, String.toList_ofList]
    refine List.reverse_suffix.1 ?_
    rw [← split]
    simp

inductive AtOrAbove : String → String → Prop where
  | root (other : String) : AtOrAbove "" other
  | same (directory : String) : AtOrAbove directory directory
  | inside {directory other : String} : Inside directory other → AtOrAbove directory other

theorem AtOrAbove.components_prefix {directory other : String} (above : AtOrAbove directory other) :
    components directory <+: components other := by
  cases above with
  | root => exact List.nil_prefix
  | same => exact List.prefix_rfl
  | inside below =>
    obtain ⟨rest, rfl⟩ := inside_iff.1 below
    rw [components_append_slash]
    exact List.prefix_append _ _

section Names

variable {names : List String} (base : String)

theorem trimEnd_ofNames_cons (plain : ∀ n ∈ names, Plain n) (some : names ≠ []) :
    trimEnd (ofNames (base :: names)) = ofNames (base :: names) := by
  cases names using List.reverseRecOn with
  | nil => exact absurd rfl some
  | append_singleton names name =>
    have last := plain name (by simp)
    rw [← List.cons_append]
    exact trimEnd_of_getLast? (getLast?_ofNames last ▸ getLast?_ne_slash last)

theorem atOrAbove_of_prefix (plain : ∀ n ∈ names, Plain n) {front : List String}
    (begins : front <+: names) :
    AtOrAbove (trimEnd (ofNames (base :: front))) (trimEnd (ofNames (base :: names))) := by
  rcases eq_or_ne front names with rfl | fewer
  · exact .same _
  have some : names ≠ [] := fun none => fewer (List.prefix_nil.1 (none ▸ begins) |>.trans none.symm)
  rw [trimEnd_ofNames_cons base plain some]
  rcases eq_or_ne front [] with rfl | front_some
  · rw [ofNames_cons plain some, ofNames_singleton]
    by_cases empty : base = ""
    · rw [empty, trimEnd_of_getLast? (by decide)]
      exact .root _
    · rw [stem, if_neg (by simpa using empty)]
      exact .inside (inside_iff.2 ⟨_, rfl⟩)
  · have inner : ∀ n ∈ front, Plain n := fun n mem => plain n (begins.subset mem)
    rw [trimEnd_ofNames_cons base inner front_some]
    obtain ⟨more, rfl⟩ := begins
    cases more using List.reverseRecOn with
    | nil => exact absurd (List.append_nil front).symm fewer
    | append_singleton more last =>
      rw [← List.append_assoc] at plain ⊢
      exact .inside ((inside_concat_iff (fun n mem => plain n (List.mem_append_left _ mem))
        (plain last (by simp)).no_slash).2 (.inr ⟨front, List.prefix_append _ _, front_some, rfl⟩))

end Names

end Path

namespace Layout

open TreeStore.Path

/-- One token begins another one exactly if the one key begins the other. Then, in a bucket of any
name, the directory of the beginning is that of the whole key or one above. -/
theorem beginnings_are_kept (start key : String) :
    ((Key.token start).toList <+: (Key.token key).toList ↔ start.toList <+: key.toList) ∧
      (start.toList <+: key.toList → ∀ bucket,
        AtOrAbove (parent (place bucket start)) (parent (place bucket key)) ∧
          components (parent (place bucket start)) <+: components (parent (place bucket key))) := by
  refine ⟨Key.token_prefix_iff, fun begins bucket => ?_⟩
  have above : AtOrAbove (parent (place bucket start)) (parent (place bucket key)) := by
    rw [parent_place_eq, parent_place_eq]
    exact atOrAbove_of_prefix bucket (fun _ => plain_of_mem_folders) (prefix_folders begins)
  exact ⟨above, above.components_prefix⟩

theorem longer_key_lies_in_shard :
    "s3ql_data_ab/".toList <+: "s3ql_data_ab/cd".toList ∧
      parent (place "b" "s3ql_data_ab/") = "b/s3ql_data/ab=" ∧
      parent (place "b" "s3ql_data_ab/cd") = "b/s3ql_data/ab=/ab=2Fc" ∧
      AtOrAbove (parent (place "b" "s3ql_data_ab/")) (parent (place "b" "s3ql_data_ab/cd")) := by
  have begins : "s3ql_data_ab/".toList <+: "s3ql_data_ab/cd".toList := by decide
  exact ⟨begins, by decide, by decide, ((beginnings_are_kept _ _).2 begins "b").1⟩

end Layout

end TreeStore
