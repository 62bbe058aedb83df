/-!
Finite maps kept as a list of entries in strictly increasing order of their keys. The order is
part of the type, so two maps with the same lookups are equal (`ext_find?`), and each operation
is described by what it does to lookups (`find?_insert`, `find?_erase`, `find?_filterKeys`).
-/
namespace TreeStore

variable {κ : Type} {α : Type}

structure SortedMap (κ : Type) (α : Type) [Ord κ] where
  entries : List (κ × α)
  sorted : entries.Pairwise (fun a b => compare a.1 b.1 = .lt)

namespace SortedMap

instance [Ord κ] [DecidableEq κ] [DecidableEq α] : DecidableEq (SortedMap κ α) :=
  fun a b => decidable_of_iff (a.entries = b.entries) (by cases a; cases b; simp)

def empty [Ord κ] : SortedMap κ α := ⟨[], .nil⟩

instance [Ord κ] : Inhabited (SortedMap κ α) := ⟨empty⟩

def keys [Ord κ] (m : SortedMap κ α) : List κ := m.entries.map Prod.fst

def size [Ord κ] (m : SortedMap κ α) : Nat := m.entries.length

def lookup [DecidableEq κ] (k : κ) : List (κ × α) → Option α
  | [] => none
  | (k', v) :: rest => if k = k' then some v else lookup k rest

def find? [Ord κ] [DecidableEq κ] (m : SortedMap κ α) (k : κ) : Option α := lookup k m.entries

def contains [Ord κ] [DecidableEq κ] (m : SortedMap κ α) (k : κ) : Bool := (m.find? k).isSome

def place [Ord κ] (k : κ) (v : α) : List (κ × α) → List (κ × α)
  | [] => [(k, v)]
  | (k', v') :: rest =>
    match compare k k' with
    | .lt => (k, v) :: (k', v') :: rest
    | .eq => (k, v) :: rest
    | .gt => (k', v') :: place k v rest

theorem mem_place [Ord κ] {k : κ} {v : α} {e : κ × α} {l : List (κ × α)}
    (h : e ∈ place k v l) : e = (k, v) ∨ e ∈ l := by
  induction l with
  | nil => simpa [place] using h
  | cons head rest ih =>
    unfold place at h
    split at h <;> grind

theorem place_sorted [Ord κ] [Std.TransOrd κ] (k : κ) (v : α) {l : List (κ × α)}
    (h : l.Pairwise (fun a b => compare a.1 b.1 = .lt)) :
    (place k v l).Pairwise (fun a b => compare a.1 b.1 = .lt) := by
  induction l with
  | nil => simp [place]
  | cons head rest ih =>
    obtain ⟨below, tail⟩ := List.pairwise_cons.1 h
    unfold place
    split
    case h_1 lt =>
      refine List.pairwise_cons.2 ⟨fun e mem => ?_, h⟩
      rcases List.mem_cons.1 mem with rfl | mem
      · exact lt
      · exact Std.TransCmp.lt_trans lt (below e mem)
    case h_2 eq =>
      exact List.pairwise_cons.2
        ⟨fun e mem => Std.TransCmp.lt_of_eq_of_lt eq (below e mem), tail⟩
    case h_3 gt =>
      refine List.pairwise_cons.2 ⟨fun e mem => ?_, ih tail⟩
      rcases mem_place mem with rfl | mem
      · exact Std.OrientedCmp.lt_of_gt gt
      · exact below e mem

def insert [Ord κ] [Std.TransOrd κ] (m : SortedMap κ α) (k : κ) (v : α) : SortedMap κ α :=
  ⟨place k v m.entries, place_sorted k v m.sorted⟩

def filterKeys [Ord κ] (m : SortedMap κ α) (p : κ → Bool) : SortedMap κ α :=
  ⟨m.entries.filter fun e => p e.1, m.sorted.filter _⟩

def erase [Ord κ] [DecidableEq κ] (m : SortedMap κ α) (k : κ) : SortedMap κ α :=
  m.filterKeys (· ≠ k)

/-- Later entries of the list stand over earlier ones of the same key. -/
def ofList [Ord κ] [Std.TransOrd κ] (l : List (κ × α)) : SortedMap κ α :=
  l.foldl (fun m e => m.insert e.1 e.2) empty

theorem lookup_place [Ord κ] [Std.TransOrd κ] [Std.LawfulEqOrd κ] [DecidableEq κ]
    (k k' : κ) (v : α) (l : List (κ × α)) :
    lookup k' (place k v l) = if k' = k then some v else lookup k' l := by
  induction l with
  | nil => simp [place, lookup]
  | cons head rest ih =>
    obtain ⟨k₀, v₀⟩ := head
    unfold place
    split
    case h_1 => simp [lookup]
    case h_2 eq =>
      have same : k = k₀ := Std.LawfulEqCmp.eq_of_compare eq
      subst same
      by_cases h : k' = k <;> simp [lookup, h]
    case h_3 gt =>
      have different : k₀ ≠ k := by
        rintro rfl
        simp [Std.ReflCmp.compare_self] at gt
      by_cases h : k' = k₀
      · subst h; simp [lookup, different]
      · simp [lookup, h, ih]

theorem lookup_filter [DecidableEq κ] (p : κ → Bool) (k : κ) (l : List (κ × α)) :
    lookup k (l.filter fun e => p e.1) = if p k then lookup k l else none := by
  induction l with
  | nil => simp [lookup]
  | cons head rest ih =>
    obtain ⟨k₀, v₀⟩ := head
    by_cases keep : p k₀
    · by_cases h : k = k₀
      · subst h; simp [lookup, keep]
      · simp [lookup, keep, h, ih]
    · by_cases h : k = k₀
      · subst h; simp [keep, ih]
      · simp [lookup, keep, h, ih]

@[simp] theorem find?_empty [Ord κ] [DecidableEq κ] (k : κ) :
    (empty : SortedMap κ α).find? k = none := rfl

theorem find?_insert [Ord κ] [Std.TransOrd κ] [Std.LawfulEqOrd κ] [DecidableEq κ]
    (m : SortedMap κ α) (k k' : κ) (v : α) :
    (m.insert k v).find? k' = if k' = k then some v else m.find? k' :=
  lookup_place k k' v m.entries

theorem find?_filterKeys [Ord κ] [DecidableEq κ] (m : SortedMap κ α) (p : κ → Bool) (k : κ) :
    (m.filterKeys p).find? k = if p k then m.find? k else none :=
  lookup_filter p k m.entries

theorem find?_erase [Ord κ] [DecidableEq κ] (m : SortedMap κ α) (k k' : κ) :
    (m.erase k).find? k' = if k' = k then none else m.find? k' := by
  rw [erase, find?_filterKeys]
  by_cases h : k' = k <;> simp [h]

theorem lookup_eq_some_iff [Ord κ] [Std.TransOrd κ] [DecidableEq κ] {k : κ} {v : α}
    {l : List (κ × α)} (sorted : l.Pairwise (fun a b => compare a.1 b.1 = .lt)) :
    lookup k l = some v ↔ (k, v) ∈ l := by
  induction l with
  | nil => simp [lookup]
  | cons head rest ih =>
    obtain ⟨k₀, v₀⟩ := head
    obtain ⟨below, tail⟩ := List.pairwise_cons.1 sorted
    by_cases h : k = k₀
    · subst h
      have absent : (k, v) ∉ rest := fun mem => by
        have := below _ mem
        simp [Std.ReflCmp.compare_self] at this
      simp [lookup, absent, eq_comm]
    · simp [lookup, h, ih tail]

theorem find?_eq_some_iff [Ord κ] [Std.TransOrd κ] [DecidableEq κ] (m : SortedMap κ α)
    {k : κ} {v : α} : m.find? k = some v ↔ (k, v) ∈ m.entries :=
  lookup_eq_some_iff m.sorted

private theorem entries_eq_of_mem [Ord κ] [Std.TransOrd κ] {l l' : List (κ × α)}
    (sorted : l.Pairwise (fun a b => compare a.1 b.1 = .lt))
    (sorted' : l'.Pairwise (fun a b => compare a.1 b.1 = .lt))
    (h : ∀ e, e ∈ l ↔ e ∈ l') : l = l' := by
  induction l generalizing l' with
  | nil =>
    cases l' with
    | nil => rfl
    | cons head _ => exact absurd ((h head).2 (by simp)) (by simp)
  | cons head rest ih =>
    cases l' with
    | nil => exact absurd ((h head).1 (by simp)) (by simp)
    | cons head' rest' =>
      obtain ⟨below, tail⟩ := List.pairwise_cons.1 sorted
      obtain ⟨below', tail'⟩ := List.pairwise_cons.1 sorted'
      have irrefl : ∀ a : κ, compare a a ≠ .lt := fun a eq => by
        simp [Std.ReflCmp.compare_self] at eq
      have same : head = head' := by
        rcases List.mem_cons.1 ((h head).1 (by simp)) with eq | mem
        · exact eq
        rcases List.mem_cons.1 ((h head').2 (by simp)) with eq | mem'
        · exact eq.symm
        exact absurd (Std.TransCmp.lt_trans (below _ mem') (below' _ mem)) (irrefl _)
      subst same
      congr 1
      refine ih tail tail' fun e => ⟨fun mem => ?_, fun mem => ?_⟩
      · rcases List.mem_cons.1 ((h e).1 (List.mem_cons_of_mem _ mem)) with rfl | mem'
        · exact absurd (below _ mem) (irrefl _)
        · exact mem'
      · rcases List.mem_cons.1 ((h e).2 (List.mem_cons_of_mem _ mem)) with rfl | mem'
        · exact absurd (below' _ mem) (irrefl _)
        · exact mem'

/-- A map is determined by its lookups. -/
@[ext] theorem ext_find? [Ord κ] [Std.TransOrd κ] [DecidableEq κ] {m m' : SortedMap κ α}
    (h : ∀ k, m.find? k = m'.find? k) : m = m' := by
  have same : m.entries = m'.entries := entries_eq_of_mem m.sorted m'.sorted fun (k, v) => by
    rw [← find?_eq_some_iff, ← find?_eq_some_iff, h k]
  cases m; cases m'; simpa using same

private theorem find?_foldl_insert [Ord κ] [Std.TransOrd κ] [Std.LawfulEqOrd κ] [DecidableEq κ]
    {l : List (κ × α)} (sorted : l.Pairwise (fun a b => compare a.1 b.1 = .lt))
    (m : SortedMap κ α) (k : κ) :
    (l.foldl (fun m e => m.insert e.1 e.2) m).find? k = (lookup k l).or (m.find? k) := by
  induction l generalizing m with
  | nil => rfl
  | cons head rest ih =>
    obtain ⟨k₀, v₀⟩ := head
    obtain ⟨below, tail⟩ := List.pairwise_cons.1 sorted
    rw [List.foldl_cons, ih tail, find?_insert, lookup]
    by_cases h : k = k₀
    · subst h
      have absent : lookup k rest = none := by
        cases found : lookup k rest with
        | none => rfl
        | some v =>
          have := below _ ((lookup_eq_some_iff tail).1 found)
          simp [Std.ReflCmp.compare_self] at this
      simp [absent]
    · simp [h]

@[simp] theorem ofList_entries [Ord κ] [Std.TransOrd κ] [Std.LawfulEqOrd κ] [DecidableEq κ]
    (m : SortedMap κ α) : ofList m.entries = m := by
  ext k : 1
  rw [ofList, find?_foldl_insert m.sorted, find?_empty, Option.or_none]
  rfl

end SortedMap

end TreeStore
