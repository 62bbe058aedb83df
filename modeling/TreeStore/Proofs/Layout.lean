import TreeStore.Key.Layout
import TreeStore.Proofs.Inside
import TreeStore.Proofs.Tokens
/-!
Where the two files of a key lie, as names on the way from the bucket: the folders of the key, and
then a file name made of its token. Main statements: no two files share a place
(`fileNames_inj`), no file lies where a folder is needed (`fileNames_not_prefix_folders`), and the
folders of a longer key continue those of a shorter one (`prefix_folders`).
-/
namespace TreeStore.Layout

open TreeStore.Path

inductive Part where
  | payload
  | record
deriving DecidableEq, Repr

def Part.suffix : Part → String
  | .payload => payloadSuffix
  | .record => recordSuffix

/-- The directories between a bucket and the files of a key. -/
def folders (key : String) : List String :=
  match bulkTail? (Key.token key) with
  | none => []
  | some tail => bulkDirectory :: shards tail

def fileName (key : String) (part : Part) : String := Key.token key ++ part.suffix

def fileNames (bucket key : String) (part : Part) : List String :=
  bucket :: folders key ++ [fileName key part]

theorem filter_range_thirds (n : Nat) :
    (List.range n).filter (fun m => 0 < m ∧ m % 3 = 0) =
      (List.range ((n - 1) / 3)).map fun i => 3 * (i + 1) := by
  induction n with
  | zero => rfl
  | succ n ih =>
    rw [List.range_succ, List.filter_append, ih, Nat.add_sub_cancel]
    by_cases third : 0 < n ∧ n % 3 = 0
    · have count : n / 3 = (n - 1) / 3 + 1 := by omega
      have value : 3 * ((n - 1) / 3 + 1) = n := by omega
      rw [count, List.range_succ, List.map_append]
      simp [third, value]
    · have count : n / 3 = (n - 1) / 3 := by omega
      rw [count, List.filter_cons_of_neg (by simpa using third)]
      simp

theorem shards_eq (tail : List Char) :
    shards tail =
      (List.range ((tail.length - 1) / 3)).map fun i => String.ofList (tail.take (3 * (i + 1))) := by
  rw [shards, filter_range_thirds, List.map_map]
  rfl

theorem length_shards (tail : List Char) : (shards tail).length = (tail.length - 1) / 3 := by
  simp [shards_eq]

theorem getElem?_shards {tail : List Char} {i : Nat} {shard : String}
    (h : (shards tail)[i]? = some shard) :
    shard = String.ofList (tail.take (3 * (i + 1))) ∧ 3 * (i + 1) < tail.length := by
  have bound : i < (tail.length - 1) / 3 := by
    rw [← length_shards]
    exact (List.getElem?_eq_some_iff.1 h).1
  rw [shards_eq, List.getElem?_map, List.getElem?_range bound, Option.map_some,
    Option.some_inj] at h
  exact ⟨h.symm, by omega⟩

theorem length_of_getElem?_shards {tail : List Char} {i : Nat} {shard : String}
    (h : (shards tail)[i]? = some shard) : shard.toList.length = 3 * (i + 1) := by
  obtain ⟨rfl, bound⟩ := getElem?_shards h
  rw [String.toList_ofList, List.length_take]
  omega

theorem last_of_prefix_shards {rest : List String} {last : String} {tail : List Char}
    (begins : rest ++ [last] <+: shards tail) :
    last.toList = tail.take (3 * (rest ++ [last]).length) ∧
      3 * (rest ++ [last]).length < tail.length := by
  obtain ⟨more, whole⟩ := begins
  have at_end : (shards tail)[rest.length]? = some last := by
    rw [← whole, List.append_assoc, List.getElem?_append_right (Nat.le_refl _)]
    simp
  obtain ⟨rfl, bound⟩ := getElem?_shards at_end
  rw [String.toList_ofList, List.length_append, List.length_singleton]
  exact ⟨rfl, bound⟩

theorem prefix_shards_append (tail more : List Char) : shards tail <+: shards (tail ++ more) := by
  have count : (tail.length - 1) / 3 ≤ ((tail ++ more).length - 1) / 3 := by
    rw [List.length_append]
    omega
  obtain ⟨extra, total⟩ := Nat.exists_eq_add_of_le count
  rw [shards_eq, shards_eq, total, List.range_add, List.map_append]
  refine ⟨_, congrArg (· ++ _) (List.map_congr_left fun i mem => ?_)⟩
  have bound := List.mem_range.1 mem
  rw [List.take_append_of_le_length (by omega)]

theorem slash_notMem_token (key : String) : '/' ∉ (Key.token key).toList :=
  (Key.marked_token key).no_slash

theorem nul_notMem_token (key : String) : '\x00' ∉ (Key.token key).toList :=
  (Key.marked_token key).no_nul

theorem plain_of_length {name : String} (no_slash : '/' ∉ name.toList)
    (no_nul : '\x00' ∉ name.toList) (long : 2 < name.toList.length) : Plain name where
  some_char := by
    rintro rfl
    simp at long
  no_slash := no_slash
  no_nul := no_nul
  not_here := by
    rintro rfl
    revert long
    decide
  not_above := by
    rintro rfl
    revert long
    decide

theorem plain_fileName (key : String) (part : Part) : Plain (fileName key part) := by
  refine plain_of_length ?_ ?_ ?_ <;> rw [fileName, String.toList_append]
  · rw [List.mem_append, not_or]
    exact ⟨slash_notMem_token key, by cases part <;> decide⟩
  · rw [List.mem_append, not_or]
    exact ⟨nul_notMem_token key, by cases part <;> decide⟩
  · rw [List.length_append]
    have : 2 < part.suffix.toList.length := by cases part <;> decide
    omega

theorem fileName_inj {key key' : String} {part part' : Part}
    (same : fileName key part = fileName key' part') : key = key' ∧ part = part' := by
  have chars := congrArg (fun name => name.toList.reverse) same
  simp only [fileName, String.toList_append, List.reverse_append] at chars
  cases part <;> cases part'
  case payload.payload | record.record =>
    refine ⟨Key.token_injective (String.toList_injective ?_), rfl⟩
    exact List.reverse_inj.1 (List.append_cancel_left chars)
  all_goals
    have first := congrArg List.head? chars
    simp [Part.suffix, payloadSuffix, recordSuffix] at first

theorem bulkTail?_eq_some_iff {token : String} {tail : List Char} :
    bulkTail? token = some tail ↔ token.toList = bulkMark.toList ++ tail := by
  unfold bulkTail?
  split
  case isTrue front =>
    obtain ⟨rest, whole⟩ := List.isPrefixOf_iff_prefix.1 front
    rw [← whole, List.drop_left, Option.some_inj]
    constructor
    · rintro rfl
      rfl
    · exact List.append_cancel_left
  case isFalse other =>
    refine ⟨fun h => (nomatch h), fun whole => absurd ?_ other⟩
    rw [List.isPrefixOf_iff_prefix, whole]
    exact List.prefix_append _ _

theorem bulkTail?_eq_none_iff {token : String} :
    bulkTail? token = none ↔ ¬ bulkMark.toList <+: token.toList := by
  simp [bulkTail?]

theorem folders_of_tail {key : String} {tail : List Char}
    (h : (Key.token key).toList = bulkMark.toList ++ tail) :
    folders key = bulkDirectory :: shards tail := by
  rw [folders, bulkTail?_eq_some_iff.2 h]

theorem folders_of_flat {key : String} (h : ¬ bulkMark.toList <+: (Key.token key).toList) :
    folders key = [] := by
  rw [folders, bulkTail?_eq_none_iff.2 h]

theorem folders_cases (key : String) :
    folders key = [] ∨ ∃ tail, (Key.token key).toList = bulkMark.toList ++ tail ∧
      folders key = bulkDirectory :: shards tail := by
  by_cases bulk : bulkMark.toList <+: (Key.token key).toList
  · obtain ⟨tail, whole⟩ := bulk
    exact .inr ⟨tail, whole.symm, folders_of_tail whole.symm⟩
  · exact .inl (folders_of_flat bulk)

theorem plain_bulkDirectory : Plain bulkDirectory := by decide

theorem plain_of_mem_shards {key shard : String} {tail : List Char}
    (whole : (Key.token key).toList = bulkMark.toList ++ tail) (mem : shard ∈ shards tail) :
    Plain shard := by
  obtain ⟨i, h⟩ := List.mem_iff_getElem?.1 mem
  have length := length_of_getElem?_shards h
  obtain ⟨rfl, -⟩ := getElem?_shards h
  have sub : ∀ c ∈ tail.take (3 * (i + 1)), c ∈ (Key.token key).toList := fun c mem =>
    whole ▸ List.mem_append_right _ (List.mem_of_mem_take mem)
  refine plain_of_length ?_ ?_ (by omega) <;> rw [String.toList_ofList]
  · exact fun mem => slash_notMem_token key (sub _ mem)
  · exact fun mem => nul_notMem_token key (sub _ mem)

theorem plain_of_mem_folders {key name : String} (mem : name ∈ folders key) : Plain name := by
  rcases folders_cases key with flat | ⟨tail, whole, eq⟩
  · simp [flat] at mem
  · rw [eq] at mem
    rcases List.mem_cons.1 mem with rfl | mem
    · exact plain_bulkDirectory
    · exact plain_of_mem_shards whole mem

theorem prefix_folders {start key : String} (h : start.toList <+: key.toList) :
    folders start <+: folders key := by
  rcases folders_cases start with flat | ⟨tail, whole, eq⟩
  · simp [flat]
  · obtain ⟨rest, split⟩ := h
    have longer : (Key.token key).toList =
        bulkMark.toList ++ (tail ++ Key.escapeChars rest) := by
      rw [Key.toList_token, ← split, Key.escapeChars_append, ← Key.toList_token, whole,
        List.append_assoc]
    rw [eq, folders_of_tail longer]
    exact List.prefix_cons_inj _ |>.2 (prefix_shards_append tail _)

theorem plain_of_mem_path {bucket key name : String} (plain : Plain bucket)
    (mem : name ∈ bucket :: folders key) : Plain name := by
  rcases List.mem_cons.1 mem with rfl | mem
  · exact plain
  · exact plain_of_mem_folders mem

theorem plain_of_mem_fileNames {bucket key name : String} {part : Part} (plain : Plain bucket)
    (mem : name ∈ fileNames bucket key part) : Plain name := by
  rcases List.mem_append.1 mem with mem | mem
  · exact plain_of_mem_path plain mem
  · rw [List.mem_singleton.1 mem]
    exact plain_fileName key part

theorem fileNames_inj {bucket bucket' key key' : String} {part part' : Part}
    (same : fileNames bucket key part = fileNames bucket' key' part') :
    bucket = bucket' ∧ key = key' ∧ part = part' := by
  obtain ⟨front, last⟩ := List.append_inj' same rfl
  obtain ⟨rfl, rfl⟩ := fileName_inj (List.singleton_inj.1 last)
  exact ⟨(List.cons.inj front).1, rfl, rfl⟩

/-- The names of shards are shorter than the file names beside them, and the bulk directory ends
like no file. -/
theorem fileNames_not_prefix_folders (bucket bucket' key key' : String) (part : Part) :
    ¬ fileNames bucket key part <+: bucket' :: folders key' := by
  intro front
  have inner : folders key ++ [fileName key part] <+: folders key' :=
    (List.cons_prefix_cons.1 front).2
  obtain ⟨rest, split⟩ := inner
  rcases folders_cases key' with flat | ⟨tail', -, eq'⟩
  · simp [flat] at split
  rw [eq', List.append_assoc, List.singleton_append] at split
  rcases folders_cases key with flat | ⟨tail, whole, eq⟩
  · rw [flat, List.nil_append] at split
    have same := congrArg (fun name => name.toList.reverse) (List.cons.inj split).1
    rw [fileName, String.toList_append, List.reverse_append] at same
    cases part with
    | payload =>
    exact absurd (congrArg (·[0]?) same) (by simp [Part.suffix, payloadSuffix, bulkDirectory])
    | record =>
    exact absurd (congrArg (·[4]?) same) (by simp [Part.suffix, recordSuffix, bulkDirectory])
  · rw [eq, List.cons_append, List.cons_inj_right] at split
    have at_end : (shards tail')[(shards tail).length]? = some (fileName key part) := by
      rw [← split, List.getElem?_append_right (Nat.le_refl _)]
      simp
    have length := length_of_getElem?_shards at_end
    rw [length_shards, fileName, String.toList_append, whole, List.length_append,
      List.length_append] at length
    have mark : bulkMark.toList.length = 10 := by decide
    omega

theorem place_eq (bucket key : String) :
    place bucket key = ofNames (bucket :: folders key ++ [Key.token key]) := by
  rw [ofNames_concat]
  unfold place folders
  dsimp only
  cases bulkTail? (Key.token key) with
  | none => rfl
  | some tail => rfl

theorem place_append_suffix (bucket key : String) (part : Part) :
    place bucket key ++ part.suffix = ofNames (fileNames bucket key part) := by
  rw [place_eq, ofNames_append_suffix]
  rfl

theorem parent_place_eq (bucket key : String) :
    parent (place bucket key) = trimEnd (ofNames (bucket :: folders key)) := by
  rw [place_eq, ofNames_concat]
  exact parent_child (slash_notMem_token key) _

theorem parent_place_suffix (bucket key : String) (part : Part) :
    parent (place bucket key ++ part.suffix) = parent (place bucket key) := by
  rw [parent_place_eq, place_append_suffix, fileNames, ofNames_concat]
  exact parent_child (plain_fileName key part).no_slash _

theorem parent_place {bucket : String} (plain : Plain bucket) (key : String) :
    parent (place bucket key) = ofNames (bucket :: folders key) := by
  rw [parent_place_eq]
  exact trimEnd_ofNames fun _ => plain_of_mem_path plain

theorem parent_file {bucket : String} (plain : Plain bucket) (key : String) (part : Part) :
    parent (place bucket key ++ part.suffix) = ofNames (bucket :: folders key) :=
  (parent_place_suffix bucket key part).trans (parent_place plain key)

theorem parent_payloadPath {bucket : String} (plain : Plain bucket) (key : String) :
    parent (payloadPath bucket key) = ofNames (bucket :: folders key) :=
  parent_file plain key .payload

theorem compatible_of_prefix {a b whole : List Char} (h : a <+: whole) (h' : b <+: whole) :
    compatible a b = true := by
  rw [compatible, Bool.or_eq_true, List.isPrefixOf_iff_prefix, List.isPrefixOf_iff_prefix]
  exact List.prefix_or_prefix_of_prefix h h'

theorem bulkRoot_eq (bucket : String) : bulkRoot bucket = ofNames [bucket, bulkDirectory] := rfl

theorem mayHold_top {bucket : String} (plain : Plain bucket) (start : String) :
    mayHold bucket bucket start = true := by
  have apart : bucket ≠ bulkRoot bucket := fun same => by
    have slash : '/' ∈ (bulkRoot bucket).toList := by
      rw [bulkRoot_eq]
      have whole := toList_ofNames_concat (by simpa using plain) (List.cons_ne_nil bucket [])
        bulkDirectory
      rw [List.singleton_append] at whole
      simp [whole]
    rw [← same] at slash
    exact plain.no_slash slash
  have outside : ¬ (bulkRoot bucket ++ "/").toList.isPrefixOf bucket.toList = true := by
    rw [List.isPrefixOf_iff_prefix]
    intro down
    have slash : '/' ∈ (bulkRoot bucket ++ "/").toList := by simp [String.toList_append]
    exact plain.no_slash (down.subset slash)
  unfold mayHold
  dsimp only
  rw [if_neg apart, Bool.eq_false_iff.2 outside]
  rfl

section MayHold

variable (bucket : String)

theorem mayHold_bulkRoot (start : String) :
    mayHold bucket (bulkRoot bucket) start = compatible start.toList bulkMark.toList := by
  unfold mayHold
  exact if_pos rfl

theorem inside_bulkRoot {rest : List String} {last : String} (inner : ∀ n ∈ rest, Plain n)
    (no_slash : '/' ∉ last.toList) :
    Inside (bulkRoot bucket) (ofNames (bucket :: bulkDirectory :: rest ++ [last])) := by
  have outer : ∀ n ∈ bulkDirectory :: rest, Plain n :=
    List.forall_mem_cons.2 ⟨plain_bulkDirectory, inner⟩
  exact (inside_concat_iff outer no_slash).2 (.inr ⟨[bulkDirectory], by simp, by simp, rfl⟩)

theorem mayHold_shard {rest : List String} {last start : String}
    (plain : ∀ n ∈ rest ++ [last], Plain n) :
    mayHold bucket (ofNames (bucket :: bulkDirectory :: rest ++ [last])) start =
      (bulkTail? start).elim (compatible start.toList bulkMark.toList)
        fun tail => compatible tail last.toList := by
  have no_slash := (plain last (by simp)).no_slash
  have named : Path.name (ofNames (bucket :: bulkDirectory :: rest ++ [last])) = last := by
    rw [ofNames_concat]
    exact name_child no_slash _
  have below := inside_bulkRoot bucket (fun n mem => plain n (List.mem_append_left [last] mem)) no_slash
  unfold mayHold
  dsimp only
  rw [if_neg below.ne, if_neg (by rw [List.isPrefixOf_iff_prefix.2 below]; decide), named]
  cases bulkTail? start <;> rfl

theorem mayHold_of_above {start key : String} (front : start.toList <+: key.toList)
    {rest : List String} (some : rest ≠ []) (above : rest <+: folders key) :
    mayHold bucket (ofNames (bucket :: rest)) (Key.token start) = true := by
  have tokens := Key.token_prefix_iff.2 front
  rcases folders_cases key with flat | ⟨tail, whole, eq⟩
  · rw [flat] at above
    exact absurd (List.prefix_nil.1 above) some
  rw [eq] at above
  rw [whole] at tokens
  have bulk : compatible (Key.token start).toList bulkMark.toList = true :=
    compatible_of_prefix tokens (List.prefix_append _ _)
  cases rest with
  | nil => exact absurd rfl some
  | cons first rest =>
    obtain ⟨rfl, inner⟩ := List.cons_prefix_cons.1 above
    cases rest using List.reverseRecOn with
    | nil =>
      rw [← bulkRoot_eq, mayHold_bulkRoot]
      exact bulk
    | append_singleton rest last =>
      have shard : last ∈ shards tail := inner.subset (List.mem_append_right rest (by simp))
      obtain ⟨i, at_i⟩ := List.mem_iff_getElem?.1 shard
      have part : last.toList <+: tail := by
        rw [(getElem?_shards at_i).1, String.toList_ofList]
        exact List.take_prefix _ _
      have inside : ∀ n ∈ rest ++ [last], Plain n := fun n mem =>
        plain_of_mem_shards whole (inner.subset mem)
      refine (mayHold_shard bucket inside).trans ?_
      cases starts : bulkTail? (Key.token start) with
      | none => exact bulk
      | some front =>
        rw [bulkTail?_eq_some_iff.1 starts, List.prefix_append_right_inj] at tokens
        exact compatible_of_prefix tokens part

end MayHold

theorem mayHold_of_prefix {bucket : String} (plain : Plain bucket) {start key : String}
    (front : start.toList <+: key.toList) {rest : List String} (above : rest <+: folders key) :
    mayHold bucket (ofNames (bucket :: rest)) (Key.token start) = true := by
  rcases eq_or_ne rest [] with rfl | some
  · exact mayHold_top plain _
  · exact mayHold_of_above bucket front some above

end TreeStore.Layout
