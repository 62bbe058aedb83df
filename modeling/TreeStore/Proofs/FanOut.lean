import Mathlib.Data.Finset.NAry
import Mathlib.Data.Set.Card
import Mathlib.Tactic.IntervalCases
import TreeStore.Proofs.Ancestors
/-!
How full the directories of the sharded tree become with keys that are numbered by decimal digits.
What a directory stands for is fixed by its path (`shardStem`), and the keys in it go on with one to
three digits more, or none in the bulk root, while its shards go on with three. So the number of keys
and shards in one directory is bounded, however many keys there are
(`bulk_directories_stay_small`).
-/
namespace TreeStore.Layout

open TreeStore.Path

def Numbered (key : String) : Prop :=
  ∃ digits : List Char, (∀ c ∈ digits, c.isDigit = true) ∧ key.toList = bulkMark.toList ++ digits

instance (key : String) : Decidable (Numbered key) :=
  decidable_of_iff ((bulkTail? key).any fun digits => digits.all Char.isDigit) (by
    simp only [Numbered, Option.any_eq_true, bulkTail?_eq_some_iff, List.all_eq_true, and_comm])

/-- The keys whose files lie right in the directory. -/
def heldBy (bucket : String) (keys : Finset String) (dir : String) : Finset String :=
  keys.filter fun key => directory bucket key = dir

def subdirectories (bucket : String) (keys : Finset String) (dir : String) : Set String :=
  {sub | parent sub = dir ∧ ∃ key ∈ keys, Inside sub (place bucket key)}

def numerals : Finset Char := "0123456789".toList.toFinset

theorem mem_numerals {c : Char} (digit : c.isDigit = true) : c ∈ numerals := by
  simp only [Char.isDigit, Bool.and_eq_true, decide_eq_true_eq] at digit
  have low : 48 ≤ c.toNat := digit.1
  have high : c.toNat ≤ 57 := digit.2
  rw [← Char.ofNat_toNat c]
  interval_cases c.toNat <;> decide

def words : Nat → Finset (List Char)
  | 0 => {[]}
  | n + 1 => .image₂ List.cons numerals (words n)

theorem mem_words {word : List Char} (digits : ∀ c ∈ word, c.isDigit = true) :
    word ∈ words word.length := by
  induction word with
  | nil => exact Finset.mem_singleton_self []
  | cons c rest ih =>
    obtain ⟨first, more⟩ := List.forall_mem_cons.1 digits
    exact Finset.mem_image₂_of_mem (mem_numerals first) (ih more)

theorem card_words_le (n : Nat) : (words n).card ≤ 10 ^ n := by
  induction n with
  | zero => exact Nat.le_refl 1
  | succ n ih =>
    calc (words (n + 1)).card
      _ ≤ numerals.card * (words n).card := Finset.card_image₂_le ..
      _ ≤ 10 * 10 ^ n := Nat.mul_le_mul (by decide) ih
      _ = 10 ^ (n + 1) := (Nat.pow_succ').symm

def shortWords : Finset (List Char) := words 1 ∪ words 2 ∪ words 3

theorem mem_shortWords {word : List Char} (digits : ∀ c ∈ word, c.isDigit = true)
    (some : word ≠ []) (short : word.length ≤ 3) : word ∈ shortWords := by
  have mem := mem_words digits
  have more : 0 < word.length := List.length_pos_iff.2 some
  simp only [shortWords, Finset.mem_union]
  obtain one | two | three : word.length = 1 ∨ word.length = 2 ∨ word.length = 3 := by omega
  · exact .inl (.inl (one ▸ mem))
  · exact .inl (.inr (two ▸ mem))
  · exact .inr (three ▸ mem)

theorem card_shortWords_le : shortWords.card ≤ 1110 :=
  calc shortWords.card
    _ ≤ (words 1 ∪ words 2).card + (words 3).card := Finset.card_union_le ..
    _ ≤ (words 1).card + (words 2).card + (words 3).card :=
      Nat.add_le_add_right (Finset.card_union_le ..) _
    _ ≤ 10 ^ 1 + 10 ^ 2 + 10 ^ 3 :=
      Nat.add_le_add (Nat.add_le_add (card_words_le 1) (card_words_le 2)) (card_words_le 3)

/-- What the tails of all keys in a directory of the sharded tree begin with. -/
def shardStem (bucket dir : String) : List Char :=
  if dir = bulkRoot bucket then [] else (Path.name dir).toList

theorem shard_eq_child (bucket : String) (rest : List String) (last : String) :
    ofNames (bucket :: bulkDirectory :: (rest ++ [last])) =
      child (ofNames (bucket :: bulkDirectory :: rest)) last :=
  ofNames_concat (bucket :: bulkDirectory :: rest) last

section Shards

variable (bucket : String) {key : String} {tail : List Char}
  (whole : (Key.token key).toList = bulkMark.toList ++ tail)
include whole

theorem plain_of_prefix_shards {front : List String} (begins : front <+: shards tail) :
    ∀ n ∈ bulkDirectory :: front, Plain n :=
  List.forall_mem_cons.2
    ⟨plain_bulkDirectory, fun _ mem => plain_of_mem_shards whole (begins.subset mem)⟩

theorem bulkRoot_or_inside {front : List String} (begins : front <+: shards tail) :
    let dir := ofNames (bucket :: bulkDirectory :: front)
    front = [] ∧ dir = bulkRoot bucket ∨ front ≠ [] ∧ Inside (bulkRoot bucket) dir := by
  have plain := (List.forall_mem_cons.1 (plain_of_prefix_shards whole begins)).2
  cases front using List.reverseRecOn with
  | nil => exact .inl ⟨rfl, rfl⟩
  | append_singleton rest last =>
    exact .inr ⟨by simp, inside_bulkRoot bucket (fun n mem => plain n (List.mem_append_left _ mem))
      (plain last (by simp)).no_slash⟩

theorem shardStem_eq {front : List String} (begins : front <+: shards tail) :
    shardStem bucket (ofNames (bucket :: bulkDirectory :: front)) = tail.take (3 * front.length) := by
  rcases bulkRoot_or_inside bucket whole begins with ⟨rfl, root⟩ | ⟨some, below⟩
  · exact if_pos root
  · rw [shardStem, if_neg below.ne]
    cases front using List.reverseRecOn with
    | nil => exact absurd rfl some
    | append_singleton rest last =>
      obtain ⟨name, -⟩ := last_of_prefix_shards begins
      rw [← name, shard_eq_child, name_child]
      exact (plain_of_prefix_shards whole begins last (by simp)).no_slash

theorem directory_of_tail :
    directory bucket key = ofNames (bucket :: bulkDirectory :: shards tail) := by
  refine (parent_place_suffix bucket key .payload).trans ?_
  rw [parent_place_eq, folders_of_tail whole]
  exact trimEnd_ofNames_cons bucket (plain_of_prefix_shards whole List.prefix_rfl)
    (List.cons_ne_nil _ _)

/-- The tail of a key goes on behind what its directory stands for, by no more than three characters,
and by none only in the bulk root. -/
theorem tail_of_directory :
    ∃ word, tail = shardStem bucket (directory bucket key) ++ word ∧ word.length ≤ 3 ∧
      (word = [] → directory bucket key = bulkRoot bucket) := by
  have stem := shardStem_eq bucket whole List.prefix_rfl
  have count := length_shards tail
  refine ⟨tail.drop (3 * (shards tail).length), ?_, ?_, fun none => ?_⟩
  · rw [directory_of_tail bucket whole, stem, List.take_append_drop]
  · rw [List.length_drop]
    omega
  · rw [List.drop_eq_nil_iff] at none
    have bare : shards tail = [] := List.length_eq_zero_iff.1 (by omega)
    rw [directory_of_tail bucket whole, bare]
    rfl

theorem exists_shard {dir : String} (below : Inside (bulkRoot bucket) dir)
    (inside : Inside dir (place bucket key)) :
    ∃ rest last, rest ++ [last] <+: shards tail ∧
      dir = ofNames (bucket :: bulkDirectory :: (rest ++ [last])) := by
  obtain ⟨front, begins, some, rfl⟩ := exists_folders (.inr below) inside
  rw [folders_of_tail whole] at begins
  cases front with
  | nil => exact absurd rfl some
  | cons first names =>
    obtain ⟨rfl, inner⟩ := List.cons_prefix_cons.1 begins
    cases names using List.reverseRecOn with
    | nil => exact absurd rfl below.ne
    | append_singleton rest last => exact ⟨rest, last, inner, rfl⟩

theorem parent_shard {rest : List String} {last : String} (begins : rest ++ [last] <+: shards tail) :
    parent (ofNames (bucket :: bulkDirectory :: (rest ++ [last]))) =
      ofNames (bucket :: bulkDirectory :: rest) := by
  have plain := plain_of_prefix_shards whole begins
  rw [shard_eq_child, parent_child (plain last (by simp)).no_slash]
  exact trimEnd_ofNames_cons bucket (fun n mem => plain n (List.mem_append_left [last] mem))
    (List.cons_ne_nil _ _)

theorem child_of_subdirectory {sub : String}
    (below : parent sub = bulkRoot bucket ∨ Inside (bulkRoot bucket) (parent sub))
    (inside : Inside sub (place bucket key)) :
    ∃ word, word.length = 3 ∧ word ⊆ tail ∧
      sub = child (parent sub) (String.ofList (shardStem bucket (parent sub) ++ word)) := by
  have deeper : Inside (bulkRoot bucket) sub := by
    rcases below with root | inner
    · rw [← root]
      exact inside_parent (root ▸ ofNames_concat_ne_empty plain_bulkDirectory [bucket])
    · exact inner.trans (inside_parent inner.ne_empty)
  obtain ⟨rest, last, begins, rfl⟩ := exists_shard bucket whole deeper inside
  have outer : rest <+: shards tail := (List.prefix_append _ _).trans begins
  obtain ⟨name, longer⟩ := last_of_prefix_shards begins
  rw [List.length_append, List.length_singleton, Nat.mul_add] at name longer
  refine ⟨(tail.drop (3 * rest.length)).take 3, ?_, ?_, ?_⟩
  · rw [List.length_take, List.length_drop]
    omega
  · exact List.Subset.trans (List.take_subset _ _) (List.drop_subset _ _)
  · rw [parent_shard bucket whole begins, shardStem_eq bucket whole outer, ← List.take_add, ← name,
      String.ofList_toList, shard_eq_child]

end Shards

section Numbered

variable (bucket : String) {keys : Finset String} (numbered : ∀ key ∈ keys, Numbered key)
include numbered

theorem exists_digits {key : String} (mem : key ∈ keys) :
    ∃ digits : List Char, (∀ c ∈ digits, c.isDigit = true) ∧
      key.toList = bulkMark.toList ++ digits ∧
      (Key.token key).toList = bulkMark.toList ++ digits := by
  obtain ⟨digits, all, whole⟩ := numbered key mem
  refine ⟨digits, all, whole, ?_⟩
  rw [Key.toList_token, Key.escapeChars_of_ordinary, whole]
  rw [whole]
  refine List.forall_mem_append.2 ⟨by simp [bulkMark], fun c digit => ?_⟩
  have one := all c digit
  refine ⟨?_, ?_, ?_⟩ <;> rintro rfl <;> exact absurd one (by decide)

/-- The keys in a directory are known by their last digits. -/
theorem card_heldBy_le {dir : String} {ends : Finset (List Char)}
    (last : ∀ word : List Char, (∀ c ∈ word, c.isDigit = true) → word.length ≤ 3 →
      (word = [] → dir = bulkRoot bucket) → word ∈ ends) :
    (heldBy bucket keys dir).card ≤ ends.card := by
  -- The directory fixes all digits of a key but the last ones.
  have within : heldBy bucket keys dir ⊆ ends.image fun word =>
      String.ofList (bulkMark.toList ++ (shardStem bucket dir ++ word)) := by
    intro key held
    obtain ⟨mem, rfl⟩ := Finset.mem_filter.1 held
    obtain ⟨digits, all, text, whole⟩ := exists_digits numbered mem
    obtain ⟨word, split, few, bare⟩ := tail_of_directory bucket whole
    refine Finset.mem_image.2 ⟨word, last word (fun c digit => all c ?_) few bare, ?_⟩
    · rw [split]
      exact List.mem_append_right _ digit
    · rw [← split, ← text, String.ofList_toList]
  exact (Finset.card_le_card within).trans Finset.card_image_le

theorem card_heldBy_bulkRoot_le : (heldBy bucket keys (bulkRoot bucket)).card ≤ 1111 := by
  have short := card_shortWords_le
  have one_more : (insert [] shortWords).card ≤ shortWords.card + 1 := Finset.card_insert_le ..
  refine (card_heldBy_le bucket numbered fun word digits few _ => ?_).trans
    (by omega : (insert [] shortWords).card ≤ 1111)
  rcases eq_or_ne word [] with rfl | some
  · exact Finset.mem_insert_self _ _
  · exact Finset.mem_insert_of_mem (mem_shortWords digits some few)

theorem card_heldBy_shard_le {dir : String} (below : Inside (bulkRoot bucket) dir) :
    (heldBy bucket keys dir).card ≤ 1110 := by
  refine (card_heldBy_le bucket numbered fun word digits few bare => ?_).trans card_shortWords_le
  exact mem_shortWords digits (fun none => below.ne (bare none)) few

theorem encard_subdirectories_le {dir : String}
    (below : dir = bulkRoot bucket ∨ Inside (bulkRoot bucket) dir) :
    (subdirectories bucket keys dir).encard ≤ 1000 := by
  have within : subdirectories bucket keys dir ⊆ ((words 3).image fun word =>
      child dir (String.ofList (shardStem bucket dir ++ word))) := by
    rintro sub ⟨rfl, key, mem, inside⟩
    obtain ⟨digits, all, -, whole⟩ := exists_digits numbered mem
    obtain ⟨word, three, part, named⟩ := child_of_subdirectory bucket whole below inside
    have among := mem_words fun c digit => all c (part digit)
    exact Finset.mem_coe.2 (Finset.mem_image.2 ⟨word, three ▸ among, named.symm⟩)
  calc (subdirectories bucket keys dir).encard
    _ ≤ _ := Set.encard_le_encard within
    _ = _ := Set.encard_coe_eq_coe_finsetCard _
    _ ≤ 1000 := by exact_mod_cast Finset.card_image_le.trans (card_words_le 3)

end Numbered

/-- However many numbered keys there are, in a bucket of any name they all lie in the sharded tree; its
root holds the files of no more than 1111 of them, every directory below it those of no more than 1110,
and each has no more than 1000 subdirectories. -/
theorem bulk_directories_stay_small (bucket : String) {keys : Finset String}
    (numbered : ∀ key ∈ keys, Numbered key) :
    (∀ key ∈ keys, directory bucket key = bulkRoot bucket ∨
        Inside (bulkRoot bucket) (directory bucket key)) ∧
      (heldBy bucket keys (bulkRoot bucket)).card ≤ 1111 ∧
      (∀ dir, Inside (bulkRoot bucket) dir → (heldBy bucket keys dir).card ≤ 1110) ∧
      ∀ dir, dir = bulkRoot bucket ∨ Inside (bulkRoot bucket) dir →
        (subdirectories bucket keys dir).encard ≤ 1000 := by
  refine ⟨fun key mem => ?_, card_heldBy_bulkRoot_le bucket numbered,
    fun _ => card_heldBy_shard_le bucket numbered, fun _ => encard_subdirectories_le bucket numbered⟩
  obtain ⟨digits, -, -, whole⟩ := exists_digits numbered mem
  rw [directory_of_tail bucket whole]
  exact (bulkRoot_or_inside bucket whole List.prefix_rfl).imp And.right And.right

theorem numbered_keys_share_a_shard :
    let keys : Finset String := {"s3ql_data_7", "s3ql_data_0129", "s3ql_data_012345", "s3ql_data_0123456"}
    (∀ key ∈ keys, Numbered key) ∧
      heldBy "b" keys "b/s3ql_data/012" = {"s3ql_data_0129", "s3ql_data_012345"} ∧
      "b/s3ql_data/012/012345" ∈ subdirectories "b" keys "b/s3ql_data/012" ∧
      (heldBy "b" keys "b/s3ql_data/012").card ≤ 1110 ∧
      (subdirectories "b" keys "b/s3ql_data/012").encard ≤ 1000 := by
  intro keys
  have numbered : ∀ key ∈ keys, Numbered key := by decide +kernel
  have below : Inside (bulkRoot "b") "b/s3ql_data/012" := by decide
  obtain ⟨-, -, held, subs⟩ := bulk_directories_stay_small "b" numbered
  refine ⟨numbered, by decide +kernel, ⟨by decide +kernel, "s3ql_data_0123456", by simp [keys], ?_⟩,
    held _ below, subs _ (.inr below)⟩
  decide +kernel

end TreeStore.Layout
