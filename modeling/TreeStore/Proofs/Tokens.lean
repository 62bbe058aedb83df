import TreeStore.Key.Token
/-!
Which texts are tokens. A key is read back from its token, and a text is written back from what was
read off it exactly if it is marked as a token is: no special character stands in it, and each mark in
it begins one of the three written forms (`escapeChars_unescapeChars_iff`). No written form begins
another one, so a token begins another one exactly if the key begins the other key
(`token_prefix_iff`).
-/
namespace TreeStore.Key

def forms : List (List Char) := [['=', '3', 'D'], ['=', '2', 'F'], ['=', '0', '0']]

/-- No special character stands in the text but for marks, and those begin a written form. -/
structure Marked (text : List Char) : Prop where
  no_slash : '/' ∉ text
  no_nul : '\x00' ∉ text
  forms : ∀ rest, '=' :: rest <:+ text → ∃ form ∈ forms, form <+: '=' :: rest

theorem marked_nil : Marked [] where
  no_slash := List.not_mem_nil
  no_nul := List.not_mem_nil
  forms _ ends := absurd (List.suffix_nil.1 ends) (List.cons_ne_nil _ _)

theorem marked_cons_iff {c : Char} {rest : List Char} :
    Marked (c :: rest) ↔ c ≠ '/' ∧ c ≠ '\x00' ∧
      (c = '=' → ∃ form ∈ forms, form <+: '=' :: rest) ∧ Marked rest := by
  constructor
  · intro ⟨no_slash, no_nul, forms⟩
    rw [List.mem_cons, not_or] at no_slash no_nul
    refine ⟨Ne.symm no_slash.1, Ne.symm no_nul.1, ?_, no_slash.2, no_nul.2, ?_⟩
    · rintro rfl
      exact forms rest List.suffix_rfl
    · exact fun tail ends => forms tail (ends.trans (List.suffix_cons c rest))
  · rintro ⟨slash, nul, mark, no_slash, no_nul, forms⟩
    refine ⟨?_, ?_, fun tail ends => ?_⟩
    · exact List.not_mem_cons_of_ne_of_not_mem (Ne.symm slash) no_slash
    · exact List.not_mem_cons_of_ne_of_not_mem (Ne.symm nul) no_nul
    · rcases List.suffix_cons_iff.1 ends with whole | inside
      · obtain ⟨rfl, rfl⟩ := List.cons.inj whole
        exact mark rfl
      · exact forms tail inside

instance decidableMarked : (text : List Char) → Decidable (Marked text)
  | [] => .isTrue marked_nil
  | c :: rest =>
    have := decidableMarked rest
    decidable_of_iff (c ≠ '/' ∧ c ≠ '\x00' ∧
      (c = '=' → ∃ form ∈ forms, form.isPrefixOf ('=' :: rest)) ∧ Marked rest)
      (by simp only [marked_cons_iff, List.isPrefixOf_iff_prefix])

theorem marked_escapeChar_append (c : Char) (rest : List Char) :
    Marked (escapeChar c ++ rest) ↔ Marked rest := by
  rcases escapeChar_cases c with ⟨-, h⟩ | ⟨-, h⟩ | ⟨-, h⟩ | ⟨mark, slash, nul, h⟩ <;>
    simp [marked_cons_iff, forms, *]

theorem write_read_step {read rest : List Char} (ih : escapeChars read = rest ↔ Marked rest)
    (c : Char) : escapeChars (c :: read) = escapeChar c ++ rest ↔ Marked (escapeChar c ++ rest) := by
  rw [escapeChars, List.append_cancel_left_eq, marked_escapeChar_append]
  exact ih

/-- What is written for what was read is the text itself, if and only if the text is marked. -/
theorem escapeChars_unescapeChars_iff (text : List Char) :
    escapeChars (unescapeChars text) = text ↔ Marked text := by
  fun_induction unescapeChars text with
  | case1 => exact iff_of_true rfl marked_nil
  | case2 rest ih => exact write_read_step ih '='
  | case3 rest ih => exact write_read_step ih '/'
  | case4 rest ih => exact write_read_step ih '\x00'
  | case5 c rest no_mark no_slash no_nul ih =>
    rcases escapeChar_cases c with ⟨rfl, h⟩ | ⟨rfl, h⟩ | ⟨rfl, h⟩ | ⟨-, -, -, h⟩
    · -- A mark that begins no written form is written as one that does.
      have none_begins : ∀ form ∈ forms, ¬ form <+: '=' :: rest := by
        simp only [forms, List.mem_cons, List.not_mem_nil, or_false]
        rintro form (rfl | rfl | rfl) ⟨more, whole⟩ <;> cases whole
        · exact no_mark more rfl rfl
        · exact no_slash more rfl rfl
        · exact no_nul more rfl rfl
      refine iff_of_false (fun same => ?_) fun marked => ?_
      · rw [escapeChars, h] at same
        exact none_begins ['=', '3', 'D'] (by decide) ⟨_, same⟩
      · obtain ⟨form, written, begins⟩ := (marked_cons_iff.1 marked).2.2.1 rfl
        exact none_begins form written begins
    · refine iff_of_false (fun same => ?_) fun marked => (marked_cons_iff.1 marked).1 rfl
      rw [escapeChars, h] at same
      simp at same
    · refine iff_of_false (fun same => ?_) fun marked => (marked_cons_iff.1 marked).2.1 rfl
      rw [escapeChars, h] at same
      simp at same
    · have step := write_read_step ih c
      rwa [h, List.singleton_append] at step

theorem marked_escapeChars (s : List Char) : Marked (escapeChars s) := by
  rw [← escapeChars_unescapeChars_iff, unescapeChars_escapeChars]

theorem marked_token (key : String) : Marked (token key).toList := by
  rw [toList_token]
  exact marked_escapeChars _

theorem escapeChars_of_ordinary {s : List Char}
    (ordinary : ∀ c ∈ s, c ≠ '=' ∧ c ≠ '/' ∧ c ≠ '\x00') : escapeChars s = s := by
  induction s with
  | nil => rfl
  | cons c rest ih =>
    obtain ⟨mark, slash, nul⟩ := ordinary c (by simp)
    have alone : escapeChar c = [c] := by
      simpa [mark, slash, nul] using escapeChar_cases c
    rw [escapeChars, alone, ih fun d mem => ordinary d (List.mem_cons_of_mem c mem)]
    rfl

theorem unescapeChars_escapeChars_append (s rest : List Char) :
    unescapeChars (escapeChars s ++ rest) = s ++ unescapeChars rest := by
  induction s with
  | nil => rfl
  | cons c s ih =>
    rw [escapeChars, List.append_assoc, unescapeChars_escapeChar_append, ih, List.cons_append]

/-- No written form begins another one, so tokens begin one another only as their keys do. -/
theorem token_prefix_iff {a b : String} :
    (token a).toList <+: (token b).toList ↔ a.toList <+: b.toList := by
  rw [toList_token, toList_token]
  constructor
  · rintro ⟨rest, whole⟩
    have read := congrArg unescapeChars whole
    rw [unescapeChars_escapeChars_append, unescapeChars_escapeChars] at read
    exact ⟨_, read⟩
  · rintro ⟨rest, whole⟩
    rw [← whole, escapeChars_append]
    exact List.prefix_append _ _

/-- Reading undoes writing for every key, and writing undoes reading for those texts that are marked,
which are the tokens of keys. -/
theorem tokens_are_the_marked_texts :
    (∀ key, ofToken (token key) = key) ∧
      ∀ text, (token (ofToken text) = text ↔ Marked text.toList) ∧
        (Marked text.toList ↔ ∃ key, text = token key) := by
  have written (text : String) : token (ofToken text) = text ↔ Marked text.toList := by
    rw [← String.toList_inj, toList_token, ofToken, String.toList_ofList]
    exact escapeChars_unescapeChars_iff _
  refine ⟨ofToken_token, fun text => ⟨written text, fun marked => ?_, ?_⟩⟩
  · exact ⟨ofToken text, ((written text).2 marked).symm⟩
  · rintro ⟨key, rfl⟩
    exact marked_token key

/-- A mark that begins no form is read as it stands, and is written as one that does. -/
example : ¬ Marked "a=zz".toList ∧ ofToken "a=zz" = "a=zz" ∧ token "a=zz" = "a=3Dzz" := by decide

end TreeStore.Key
