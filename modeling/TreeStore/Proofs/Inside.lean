import TreeStore.Proofs.Path
/-!
What lies in a directory, judged by the text of its path. The base may be any text; from there on
paths are written from plain names. The directories that such a path lies in are those written from
its first names, or they are no deeper than the base (`inside_concat_iff`).
-/
namespace TreeStore.Path

/-- The path lies in the directory, at any depth. -/
def Inside (directory path : String) : Prop := (directory ++ "/").toList <+: path.toList

instance (directory path : String) : Decidable (Inside directory path) :=
  decidable_of_iff _ List.isPrefixOf_iff_prefix

theorem inside_iff {directory path : String} :
    Inside directory path ↔ ∃ rest, path = directory ++ "/" ++ rest := by
  constructor
  · rintro ⟨rest, whole⟩
    refine ⟨String.ofList rest, String.toList_injective ?_⟩
    rw [String.toList_append, String.toList_ofList, whole]
  · rintro ⟨rest, rfl⟩
    rw [Inside, String.toList_append (t := rest)]
    exact List.prefix_append _ _

theorem Inside.ne {directory path : String} (inside : Inside directory path) : path ≠ directory := by
  rintro rfl
  have longer := inside.length_le
  rw [String.toList_append, List.length_append] at longer
  exact absurd longer (Nat.not_succ_le_self _)

theorem Inside.ne_empty {directory path : String} (inside : Inside directory path) : path ≠ "" := by
  rintro rfl
  have slash := inside.subset (a := '/') (by simp [String.toList_append])
  exact absurd slash (List.not_mem_nil)

theorem Inside.trans {directory between path : String} (outer : Inside directory between)
    (inner : Inside between path) : Inside directory path := by
  obtain ⟨rest, rfl⟩ := inside_iff.1 outer
  obtain ⟨more, rfl⟩ := inside_iff.1 inner
  exact inside_iff.2 ⟨rest ++ "/" ++ more, by simp only [String.append_assoc]⟩

/-- What stands before the names below a base. -/
def stem (base : String) : String := if base.isEmpty then "" else trimEnd base ++ "/"

theorem child_eq (base name : String) : child base name = stem base ++ name := by
  unfold child stem
  split
  · rw [String.empty_append]
  · rfl

theorem stem_of_getLast? {text : String} (some : text ≠ "")
    (last : text.toList.getLast? ≠ .some '/') : stem text = text ++ "/" := by
  have full : ¬ text.isEmpty = true := by simpa using some
  rw [stem, if_neg full, trimEnd_of_getLast? last]

section Names

variable {names : List String} {name : String}

theorem ofNames_concat_ne_empty (plain : Plain name) (names : List String) :
    ofNames (names ++ [name]) ≠ "" := by
  intro empty
  have last := @getLast?_ofNames names name plain
  rw [empty] at last
  exact plain.toList_ne_nil (List.getLast?_eq_none_iff.1 last.symm)

theorem stem_ofNames_concat (plain : Plain name) (names : List String) :
    stem (ofNames (names ++ [name])) = ofNames (names ++ [name]) ++ "/" := by
  refine stem_of_getLast? (ofNames_concat_ne_empty plain names) ?_
  rw [getLast?_ofNames plain]
  exact getLast?_ne_slash plain

theorem ofNames_cons (plain : ∀ n ∈ names, Plain n) (some : names ≠ []) (base : String) :
    ofNames (base :: names) = stem base ++ ofNames names := by
  induction names using List.reverseRecOn with
  | nil => exact absurd rfl some
  | append_singleton names name ih =>
    have front : ∀ n ∈ names, Plain n := fun n mem => plain n (List.mem_append_left _ mem)
    cases names using List.reverseRecOn with
    | nil => exact child_eq base name
    | append_singleton names last =>
      have step := ih front (by simp)
      have stop := front last (by simp)
      rw [← List.cons_append, ofNames_concat, ofNames_concat, child_eq, child_eq, ← List.cons_append,
        stem_ofNames_concat stop, stem_ofNames_concat stop, List.cons_append, step]
      simp only [String.append_assoc]

theorem ofNames_cons_injective {base : String} {names' : List String}
    (plain : ∀ n ∈ names, Plain n) (plain' : ∀ n ∈ names', Plain n) (some : names ≠ [])
    (some' : names' ≠ []) (same : ofNames (base :: names) = ofNames (base :: names')) :
    names = names' := by
  rw [ofNames_cons plain some, ofNames_cons plain' some'] at same
  refine ofNames_injective plain plain' (String.toList_injective ?_)
  have chars := congrArg String.toList same
  rw [String.toList_append, String.toList_append] at chars
  exact List.append_cancel_left chars

end Names

theorem prefix_append_iff_of_notMem {s t l : List Char} (no_slash : '/' ∉ l) :
    s ++ ['/'] <+: t ++ l ↔ s ++ ['/'] <+: t := by
  constructor
  · rintro ⟨rest, split⟩
    rcases List.append_eq_append_iff.1 split with ⟨more, whole, -⟩ | ⟨more, whole, inside⟩
    · exact ⟨more, whole.symm⟩
    · cases more using List.reverseRecOn with
      | nil => exact ⟨[], by rw [whole, List.append_nil, List.append_nil]⟩
      | append_singleton more c =>
        rw [← List.append_assoc] at whole
        obtain ⟨-, last⟩ := List.append_inj' whole rfl
        obtain rfl : '/' = c := List.singleton_inj.1 last
        exact absurd (by rw [inside]; simp) no_slash
  · exact fun front => front.trans (List.prefix_append t l)

theorem toList_slash (text : String) : (text ++ "/").toList = text.toList ++ ['/'] := by
  rw [String.toList_append]
  rfl

section Inside

variable {directory base : String} {names : List String}

theorem inside_child_iff {name : String} (no_slash : '/' ∉ name.toList) (base : String) :
    Inside directory (child base name) ↔ (directory ++ "/").toList <+: (stem base).toList := by
  rw [Inside, child_eq, toList_slash, String.toList_append]
  exact prefix_append_iff_of_notMem no_slash

/-- A path lies in the directories that are written from its first names, and in what is no deeper
than the base. -/
theorem inside_concat_iff (plain : ∀ n ∈ names, Plain n) {last : String}
    (no_slash : '/' ∉ last.toList) :
    Inside directory (ofNames (base :: (names ++ [last]))) ↔
      (directory ++ "/").toList <+: (stem base).toList ∨
        ∃ front, front <+: names ∧ front ≠ [] ∧ directory = ofNames (base :: front) := by
  induction names using List.reverseRecOn generalizing last with
  | nil =>
    rw [← List.cons_append, ofNames_concat, inside_child_iff no_slash]
    simp
  | append_singleton names name ih =>
    have inner := plain name (by simp)
    have outer := @ih (fun n mem => plain n (List.mem_append_left _ mem)) name inner.no_slash
    have parent : (directory ++ "/").toList <+: (stem (ofNames (base :: (names ++ [name])))).toList ↔
        directory = ofNames (base :: (names ++ [name])) ∨
          Inside directory (ofNames (base :: (names ++ [name]))) := by
      have ends := stem_ofNames_concat inner (base :: names)
      rw [List.cons_append] at ends
      rw [ends, toList_slash, toList_slash, List.prefix_concat_iff, List.append_cancel_right_eq,
        String.toList_inj, Inside, toList_slash]
    rw [← List.cons_append, ofNames_concat, inside_child_iff no_slash, parent, outer]
    constructor
    · rintro (rfl | above | ⟨front, begins, some, rfl⟩)
      · exact .inr ⟨_, List.prefix_rfl, by simp, rfl⟩
      · exact .inl above
      · exact .inr ⟨front, begins.trans (List.prefix_append _ _), some, rfl⟩
    · rintro (above | ⟨front, begins, some, rfl⟩)
      · exact .inr (.inl above)
      · rcases List.prefix_concat_iff.1 begins with rfl | begins
        · exact .inl rfl
        · exact .inr (.inr ⟨front, begins, some, rfl⟩)

end Inside

end TreeStore.Path
