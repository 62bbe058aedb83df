import Mathlib.Data.List.Induction
import Mathlib.Data.List.TakeWhile
import TreeStore.Path
/-!
Paths that are written from names. A plain name is one that the disk takes as a component of its
own; `ofNames` joins names as the store does, and `components` gives them back.
-/
namespace TreeStore.Path

/-- A name that stands for one entry of a directory. -/
structure Plain (name : String) : Prop where
  some_char : name ≠ ""
  no_slash : '/' ∉ name.toList
  no_nul : '\x00' ∉ name.toList
  not_here : name ≠ "."
  not_above : name ≠ ".."

instance (name : String) : Decidable (Plain name) :=
  decidable_of_iff (name ≠ "" ∧ '/' ∉ name.toList ∧ '\x00' ∉ name.toList ∧ name ≠ "." ∧ name ≠ "..")
    ⟨fun ⟨a, b, c, d, e⟩ => ⟨a, b, c, d, e⟩, fun ⟨a, b, c, d, e⟩ => ⟨a, b, c, d, e⟩⟩

/-- The path of an entry, by the names on the way to it. -/
def ofNames (names : List String) : String := names.foldl child ""

@[simp] theorem ofNames_nil : ofNames [] = "" := rfl

@[simp] theorem ofNames_singleton (name : String) : ofNames [name] = name := rfl

theorem ofNames_concat (names : List String) (name : String) :
    ofNames (names ++ [name]) = child (ofNames names) name := by
  simp [ofNames, List.foldl_append]

theorem toList_ne_nil {text : String} (h : text ≠ "") : text.toList ≠ [] := by
  simpa using h

theorem Plain.toList_ne_nil {name : String} (plain : Plain name) : name.toList ≠ [] :=
  Path.toList_ne_nil plain.some_char

theorem components_append_slash (s t : String) :
    components (s ++ "/" ++ t) = components s ++ components t := by
  have chars : (s ++ "/" ++ t).toList = s.toList ++ '/' :: t.toList := by
    simp [String.toList_append]
  rw [components, chars, fields_append_slash, List.filter_append, List.map_append]
  rfl

def IsPart (text : String) : Prop := text ≠ "" ∧ '/' ∉ text.toList

theorem Plain.isPart {name : String} (plain : Plain name) : IsPart name :=
  ⟨plain.some_char, plain.no_slash⟩

theorem components_of_part {part : String} (whole : IsPart part) : components part = [part] := by
  rw [components, fields_of_no_slash whole.2]
  simp [whole.1]

theorem components_of_plain {name : String} (plain : Plain name) : components name = [name] :=
  components_of_part plain.isPart

@[simp] theorem components_empty : components "" = [] := rfl

theorem fields_filter_append_slashes (s : List Char) {slashes : List Char}
    (all : ∀ c ∈ slashes, c = '/') :
    (fields (s ++ slashes)).filter (· ≠ []) = (fields s).filter (· ≠ []) := by
  induction slashes generalizing s with
  | nil => simp
  | cons c rest ih =>
    obtain rfl : c = '/' := all c (by simp)
    have empty := ih [] fun d mem => all d (List.mem_cons_of_mem _ mem)
    rw [fields_append_slash, List.filter_append]
    simpa [fields] using empty

theorem trimEnd_append_slashes (s : String) :
    ∃ slashes : List Char, (∀ c ∈ slashes, c = '/') ∧
      s.toList = (trimEnd s).toList ++ slashes := by
  refine ⟨(s.toList.reverse.takeWhile (· == '/')).reverse, fun c mem => ?_, ?_⟩
  · have := List.mem_takeWhile_imp (List.mem_reverse.1 mem)
    simpa using this
  · rw [trimEnd, String.toList_ofList, ← List.reverse_append, List.takeWhile_append_dropWhile,
      List.reverse_reverse]

theorem components_trimEnd (s : String) : components (trimEnd s) = components s := by
  obtain ⟨slashes, all, whole⟩ := trimEnd_append_slashes s
  simp only [components, whole, fields_filter_append_slashes _ all]

theorem components_child_part {part : String} (whole : IsPart part) (base : String) :
    components (child base part) = components base ++ [part] := by
  unfold child
  split
  case isTrue empty =>
    obtain rfl : base = "" := by simpa using empty
    rw [components_of_part whole, components_empty, List.nil_append]
  case isFalse => rw [components_append_slash, components_trimEnd, components_of_part whole]

theorem components_child {name : String} (plain : Plain name) (base : String) :
    components (child base name) = components base ++ [name] :=
  components_child_part plain.isPart base

theorem components_ofParts {parts : List String} (whole : ∀ part ∈ parts, IsPart part) :
    components (ofNames parts) = parts := by
  induction parts using List.reverseRecOn with
  | nil => rfl
  | append_singleton parts part ih =>
    rw [ofNames_concat, components_child_part (whole part (by simp)),
      ih fun p mem => whole p (by simp [mem])]

theorem components_ofNames {names : List String} (plain : ∀ name ∈ names, Plain name) :
    components (ofNames names) = names :=
  components_ofParts fun name mem => (plain name mem).isPart

theorem components_ofNames_cons {rest : List String} (plain : ∀ n ∈ rest, Plain n) (base : String) :
    components (ofNames (base :: rest)) = components base ++ rest := by
  induction rest using List.reverseRecOn with
  | nil => simp
  | append_singleton rest name ih =>
    rw [← List.cons_append, ofNames_concat, components_child (plain name (by simp)),
      ih fun n mem => plain n (by simp [mem]), List.append_assoc]

theorem ofNames_injective {names names' : List String} (plain : ∀ name ∈ names, Plain name)
    (plain' : ∀ name ∈ names', Plain name) (same : ofNames names = ofNames names') :
    names = names' := by
  rw [← components_ofNames plain, same, components_ofNames plain']

theorem toList_child (base name : String) (some : base ≠ "") :
    (child base name).toList = (trimEnd base).toList ++ '/' :: name.toList := by
  simp [child, some, String.toList_append]

theorem getLast?_ofNames {names : List String} {name : String} (plain : Plain name) :
    (ofNames (names ++ [name])).toList.getLast? = name.toList.getLast? := by
  have more := plain.toList_ne_nil
  rw [ofNames_concat]
  by_cases empty : ofNames names = ""
  · simp [empty]
  · rw [toList_child _ _ empty, List.getLast?_append, List.getLast?_cons]
    cases last : name.toList.getLast? with
    | none => exact absurd (List.getLast?_eq_none_iff.1 last) more
    | some c => simp

theorem getLast?_ne_slash {name : String} (plain : Plain name) :
    name.toList.getLast? ≠ some '/' := fun last =>
  plain.no_slash (List.mem_of_getLast? last)

theorem trimEnd_of_getLast? {s : String} (h : s.toList.getLast? ≠ some '/') : trimEnd s = s := by
  have : s.toList.reverse.dropWhile (· == '/') = s.toList.reverse := by
    cases chars : s.toList.reverse with
    | nil => rfl
    | cons c rest =>
      have last : s.toList.getLast? = some c := by
        rw [← List.head?_reverse, chars]
        rfl
      have apart : c ≠ '/' := fun eq => h (eq ▸ last)
      rw [List.dropWhile_cons_of_neg (by simpa using apart)]
  rw [trimEnd, this]
  simp

theorem trimEnd_ofNames {names : List String} (plain : ∀ name ∈ names, Plain name) :
    trimEnd (ofNames names) = ofNames names := by
  cases names using List.reverseRecOn with
  | nil => rfl
  | append_singleton names name =>
    have last := plain name (by simp)
    exact trimEnd_of_getLast? (getLast?_ofNames last ▸ getLast?_ne_slash last)

theorem ofNames_ne_empty {names : List String} (plain : ∀ name ∈ names, Plain name)
    (some : names ≠ []) : ofNames names ≠ "" := by
  intro empty
  have := components_ofNames plain
  rw [empty, components_empty] at this
  exact some this.symm

theorem toList_ofNames_concat {names : List String} (plain : ∀ name ∈ names, Plain name)
    (some : names ≠ []) (name : String) :
    (ofNames (names ++ [name])).toList = (ofNames names).toList ++ '/' :: name.toList := by
  rw [ofNames_concat, toList_child _ _ (ofNames_ne_empty plain some), trimEnd_ofNames plain]

theorem toList_ofNames_cons {name : String} {rest : List String} (plain : Plain name)
    (more : ∀ n ∈ rest, Plain n) :
    ∃ tail, (ofNames (name :: rest)).toList = name.toList ++ tail := by
  induction rest using List.reverseRecOn with
  | nil => exact ⟨[], by simp⟩
  | append_singleton rest last ih =>
    have front := fun n mem => more n (List.mem_append_left [last] mem)
    obtain ⟨tail, whole⟩ := ih front
    have all : ∀ n ∈ name :: rest, Plain n := List.forall_mem_cons.2 ⟨plain, front⟩
    rw [← List.cons_append, toList_ofNames_concat all (by simp), whole, List.append_assoc]
    exact ⟨_, rfl⟩

theorem trimStart_ofNames {names : List String} (plain : ∀ name ∈ names, Plain name) :
    trimStart (ofNames names) = ofNames names := by
  cases names with
  | nil => rfl
  | cons name rest =>
    obtain ⟨first, more⟩ := List.forall_mem_cons.1 plain
    obtain ⟨tail, whole⟩ := toList_ofNames_cons first more
    cases chars : name.toList with
    | nil => exact absurd chars first.toList_ne_nil
    | cons c others =>
      have apart : c ≠ '/' := fun eq => first.no_slash (by rw [chars, eq]; simp)
      rw [chars, List.cons_append] at whole
      rw [trimStart, whole, List.dropWhile_cons_of_neg (by simpa using apart), ← whole]
      simp

theorem all_reverse_ne_slash {t : List Char} (h : '/' ∉ t) : ∀ c ∈ t.reverse, (c != '/') = true := by
  intro c mem
  rw [bne_iff_ne]
  rintro rfl
  exact h (List.mem_reverse.1 mem)

theorem takeWhile_reverse_append_slash {s t : List Char} (h : '/' ∉ t) :
    (s ++ '/' :: t).reverse.takeWhile (· != '/') = t.reverse ∧
      (s ++ '/' :: t).reverse.dropWhile (· != '/') = '/' :: s.reverse := by
  have shape : (s ++ '/' :: t).reverse = t.reverse ++ '/' :: s.reverse := by simp
  have all := all_reverse_ne_slash h
  rw [shape, List.takeWhile_append_of_pos all, List.dropWhile_append_of_pos all]
  simp

theorem parent_child {name : String} (no_slash : '/' ∉ name.toList) (base : String) :
    parent (child base name) = trimEnd base := by
  by_cases empty : base = ""
  · rw [empty, child_empty, parent, List.dropWhile_eq_nil_iff.2 (all_reverse_ne_slash no_slash)]
    rfl
  · rw [parent, toList_child _ _ empty, (takeWhile_reverse_append_slash no_slash).2]
    simp

theorem name_child {name : String} (no_slash : '/' ∉ name.toList) (base : String) :
    Path.name (child base name) = name := by
  by_cases empty : base = ""
  · rw [empty, child_empty, Path.name, List.takeWhile_eq_self_iff.2 (all_reverse_ne_slash no_slash)]
    simp
  · rw [Path.name, toList_child _ _ empty, (takeWhile_reverse_append_slash no_slash).1]
    simp

theorem child_append (base name suffix : String) :
    child base name ++ suffix = child base (name ++ suffix) := by
  unfold child
  split
  · rfl
  · rw [String.append_assoc]

theorem ofNames_append_suffix (names : List String) (name suffix : String) :
    ofNames (names ++ [name]) ++ suffix = ofNames (names ++ [name ++ suffix]) := by
  rw [ofNames_concat, ofNames_concat, child_append]

theorem utf8ByteSize_replicate (c : Char) (n : Nat) :
    (String.ofList (List.replicate n c)).utf8ByteSize = n * c.utf8Size := by
  induction n with
  | zero => simp
  | succ n ih =>
    have one : (String.ofList [c]).utf8ByteSize = c.utf8Size := by
      rw [← String.singleton_eq_ofList, String.utf8ByteSize_singleton]
    rw [List.replicate_succ', String.ofList_append, String.utf8ByteSize_append, ih, one,
      Nat.succ_mul]

theorem utf8ByteSize_ofNames_le {names : List String} (plain : ∀ name ∈ names, Plain name)
    {rest : List String} (more : ∀ name ∈ rest, Plain name) :
    (ofNames names).utf8ByteSize ≤ (ofNames (names ++ rest)).utf8ByteSize := by
  induction rest using List.reverseRecOn with
  | nil => simp
  | append_singleton rest name ih =>
    refine (ih fun n mem => more n (by simp [mem])).trans ?_
    rw [← List.append_assoc, ofNames_concat, child]
    split
    case isTrue empty =>
      have : ofNames (names ++ rest) = "" := by simpa using empty
      simp [this]
    case isFalse =>
      rw [trimEnd_ofNames fun n mem => (List.mem_append.1 mem).elim (plain n)
        fun mem => more n (by simp [mem])]
      simp only [String.utf8ByteSize_append]
      omega

theorem nul_notMem_ofNames {names : List String} (plain : ∀ name ∈ names, Plain name) :
    '\x00' ∉ (ofNames names).toList := by
  induction names using List.reverseRecOn with
  | nil => simp
  | append_singleton names name ih =>
    have last := (plain name (by simp)).no_nul
    have front := ih fun n mem => plain n (by simp [mem])
    rcases eq_or_ne names [] with rfl | some
    · simpa using last
    · rw [toList_ofNames_concat (fun n mem => plain n (by simp [mem])) some]
      simp [front, last]

end TreeStore.Path
