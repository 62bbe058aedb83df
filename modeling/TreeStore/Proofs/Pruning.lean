import TreeStore.Proofs.Apart
/-!
What a listing may skip. A directory of the sharded tree is passed over for a text exactly if no key
that begins with the text can lie in it (`mayHold_iff_exists_key`): a token that is cut by a shard is
still the beginning of one key only, and a shard that is longer than what is asked for is on the way
to a key that is known to lie there.
-/
namespace TreeStore

namespace Layout

open TreeStore.Path

theorem prefix_shards_of_take {names : List String} {tail tail' : List Char}
    (begins : names <+: shards tail)
    (same : tail.take (3 * names.length) = tail'.take (3 * names.length))
    (longer : 3 * names.length < tail'.length) : names <+: shards tail' := by
  have count := begins.length_le
  rw [length_shards] at count
  rw [List.prefix_iff_eq_take] at begins ⊢
  rw [shards_eq, ← List.map_take, List.take_range] at begins ⊢
  have few : min names.length ((tail.length - 1) / 3) = names.length := by omega
  have few' : min names.length ((tail'.length - 1) / 3) = names.length := by omega
  rw [few] at begins
  rw [few']
  refine begins.trans (List.map_congr_left fun i mem => ?_)
  have bound := List.mem_range.1 mem
  have within : 3 * (i + 1) = min (3 * (i + 1)) (3 * names.length) := by omega
  rw [within, ← List.take_take, ← List.take_take, same]

section Witnesses

variable {start : String}

theorem exists_bulk_key (agree : compatible (Key.token start).toList bulkMark.toList = true) :
    ∃ key : String, start.toList <+: key.toList ∧ [bulkDirectory] <+: folders key := by
  rw [compatible, Bool.or_eq_true, List.isPrefixOf_iff_prefix, List.isPrefixOf_iff_prefix] at agree
  rcases agree with short | ⟨tail, whole⟩
  · have mark : Key.token bulkMark = bulkMark := by decide
    have bare : (Key.token bulkMark).toList = bulkMark.toList ++ [] := by rw [mark, List.append_nil]
    refine ⟨bulkMark, Key.token_prefix_iff.1 (mark.symm ▸ short), ?_⟩
    rw [folders_of_tail bare]
    exact List.prefix_append [bulkDirectory] _
  · refine ⟨start, List.prefix_rfl, ?_⟩
    rw [folders_of_tail whole.symm]
    exact List.prefix_append [bulkDirectory] _

/-- Where a text and the name of a shard agree as far as both go, a key in the shard begins with the
text: the one that is known to lie there if the text is the shorter of the two, and else the text. -/
theorem exists_key_in_shard {known : String} {tail : List Char} {rest : List String} {last : String}
    (whole : (Key.token known).toList = bulkMark.toList ++ tail)
    (begins : rest ++ [last] <+: shards tail)
    (agree : (bulkTail? (Key.token start)).elim
      (compatible (Key.token start).toList bulkMark.toList)
      (fun front => compatible front last.toList) = true) :
    ∃ key : String, start.toList <+: key.toList ∧
      bulkDirectory :: (rest ++ [last]) <+: folders key := by
  obtain ⟨name, deeper⟩ := last_of_prefix_shards begins
  have stays : bulkDirectory :: (rest ++ [last]) <+: folders known := by
    rw [folders_of_tail whole]
    exact List.cons_prefix_cons.2 ⟨rfl, begins⟩
  -- A text that says no more than the shard does is a beginning of the key that is known.
  have shorter : (Key.token start).toList <+: bulkMark.toList ++ last.toList →
      start.toList <+: known.toList := by
    intro short
    apply Key.token_prefix_iff.1
    rw [whole]
    refine short.trans ((List.prefix_append_right_inj _).2 ?_)
    rw [name]
    exact List.take_prefix _ _
  cases tail? : bulkTail? (Key.token start) with
  | none =>
    rw [tail?, Option.elim_none, compatible, Bool.or_eq_true, List.isPrefixOf_iff_prefix,
      List.isPrefixOf_iff_prefix] at agree
    have short := agree.resolve_right (bulkTail?_eq_none_iff.1 tail?)
    exact ⟨known, shorter (short.trans (List.prefix_append _ _)), stays⟩
  | some front =>
    have token := bulkTail?_eq_some_iff.1 tail?
    rw [tail?, Option.elim_some, compatible, Bool.or_eq_true, List.isPrefixOf_iff_prefix,
      List.isPrefixOf_iff_prefix] at agree
    rcases agree with short | long
    · exact ⟨known, shorter (by rw [token]; exact (List.prefix_append_right_inj _).2 short), stays⟩
    · rcases eq_or_ne last.toList front with rfl | other
      · exact ⟨known, shorter ⟨[], by rw [token, List.append_nil]⟩, stays⟩
      -- The text goes on behind the shard, and so is itself a key in it.
      · refine ⟨start, List.prefix_rfl, ?_⟩
        rw [folders_of_tail token]
        have size : last.toList.length = 3 * (rest ++ [last]).length := by
          rw [name, List.length_take]
          omega
        have more : last.toList.length < front.length :=
          Nat.lt_of_le_of_ne long.length_le fun same => other (long.eq_of_length same)
        refine List.cons_prefix_cons.2 ⟨rfl, prefix_shards_of_take begins ?_ (by omega)⟩
        rw [← name, ← size]
        exact List.prefix_iff_eq_take.1 long

end Witnesses

/-- In a bucket of any name, a directory of the sharded tree that the path of some key goes through
is kept for a text if and only if a key that begins with the text lies in it. -/
theorem mayHold_iff_exists_key {bucket directory : String}
    (below : directory = bulkRoot bucket ∨ Inside (bulkRoot bucket) directory)
    (ancestor : ∃ key, Inside directory (place bucket key)) (start : String) :
    mayHold bucket directory (Key.token start) = true ↔
      ∃ key : String, start.toList <+: key.toList ∧ Inside directory (place bucket key) := by
  obtain ⟨known, inside⟩ := ancestor
  obtain ⟨front, begins, some, rfl⟩ := exists_folders below inside
  have plain : ∀ n ∈ front, Plain n := fun n mem => plain_of_mem_folders (begins.subset mem)
  simp only [inside_place_iff plain some]
  constructor
  · intro kept
    rcases folders_cases known with flat | ⟨tail, whole, eq⟩
    · rw [flat] at begins
      exact absurd (List.prefix_nil.1 begins) some
    rw [eq] at begins
    cases front with
    | nil => exact absurd rfl some
    | cons first names =>
      obtain ⟨rfl, inner⟩ := List.cons_prefix_cons.1 begins
      cases names using List.reverseRecOn with
      | nil =>
        rw [← bulkRoot_eq, mayHold_bulkRoot] at kept
        exact exists_bulk_key kept
      | append_singleton rest last =>
        have named : mayHold bucket (ofNames (bucket :: bulkDirectory :: rest ++ [last]))
            (Key.token start) = _ :=
          mayHold_shard bucket fun n mem => plain n (List.mem_cons_of_mem _ mem)
        exact exists_key_in_shard whole inner (named.symm.trans kept)
  · rintro ⟨key, starts, above⟩
    exact mayHold_of_above bucket starts some above

theorem shard_within_slash_is_kept :
    Inside (bulkRoot "b") "b/s3ql_data/ab=" ∧
      Inside "b/s3ql_data/ab=" (place "b" "s3ql_data_ab/cd") ∧
      (∃ key : String, "s3ql_data_ab/".toList <+: key.toList ∧
        Inside "b/s3ql_data/ab=" (place "b" key)) ∧
      ¬ ∃ key : String, "s3ql_data_ab0".toList <+: key.toList ∧
        Inside "b/s3ql_data/ab=" (place "b" key) := by
  have below : Inside (bulkRoot "b") "b/s3ql_data/ab=" := by decide
  have inside : Inside "b/s3ql_data/ab=" (place "b" "s3ql_data_ab/cd") := by decide
  have kept_iff := mayHold_iff_exists_key (.inr below) ⟨_, inside⟩
  refine ⟨below, inside, (kept_iff "s3ql_data_ab/").1 (by decide), fun other => ?_⟩
  exact absurd ((kept_iff "s3ql_data_ab0").2 other) (by decide)

end Layout

end TreeStore
