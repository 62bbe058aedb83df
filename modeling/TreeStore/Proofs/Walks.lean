import Mathlib.Data.List.Nodup
import Mathlib.Data.List.Infix
import Mathlib.Logic.Relation
/-!
Walking with a stack. `Walks` relates what is pending to what will be visited; it splits where the
stack does and commutes with a filter that rejects whole subtrees. Where places are given by the
names on the way to them the order of the visits is known as well (`precedes_of_walks`): a place
comes before those below it, and of two that part, the one whose name is listed later.
-/
namespace TreeStore

/-- A walk visits the place on top of its stack and puts the places next to it on top. -/
inductive Walks {α : Type} (next : α → List α) : List α → List α → Prop
  | done : Walks next [] []
  | visit {place : α} {pending visited : List α}
      (more : Walks next (next place ++ pending) visited) :
      Walks next (place :: pending) (place :: visited)

namespace Walks

variable {α : Type} {next : α → List α} {pending pending' visited visited' : List α}

theorem append (h : Walks next pending visited) (h' : Walks next pending' visited') :
    Walks next (pending ++ pending') (visited ++ visited') := by
  induction h with
  | done => exact h'
  | visit _ ih =>
    rw [List.append_assoc] at ih
    exact .visit ih

theorem split (h : Walks next (pending ++ pending') visited) :
    ∃ front back, visited = front ++ back ∧ Walks next pending front ∧
      Walks next pending' back := by
  generalize whole : pending ++ pending' = stack at h
  induction h generalizing pending with
  | done =>
    obtain ⟨rfl, rfl⟩ := List.append_eq_nil_iff.1 whole
    exact ⟨[], [], rfl, .done, .done⟩
  | @visit place rest visited more ih =>
    cases pending with
    | nil =>
      rw [List.nil_append] at whole
      exact ⟨[], place :: visited, rfl, .done, whole ▸ .visit more⟩
    | cons first pending =>
      obtain ⟨rfl, rfl⟩ := List.cons.inj whole
      obtain ⟨front, back, rfl, walks, walks'⟩ := ih (List.append_assoc _ pending pending')
      exact ⟨first :: front, back, rfl, .visit walks, walks'⟩

theorem around {place : α} (h : Walks next pending visited) (mem : place ∈ visited) :
    ∃ front middle back, visited = front ++ middle ++ back ∧ Walks next [place] middle := by
  induction h with
  | done => cases mem
  | @visit first rest visited more ih =>
    rcases List.mem_cons.1 mem with rfl | mem
    · obtain ⟨middle, back, rfl, walks, -⟩ := more.split
      exact ⟨[], place :: middle, back, rfl, .visit (by rwa [List.append_nil])⟩
    · obtain ⟨front, middle, back, rfl, walks⟩ := ih mem
      exact ⟨first :: front, middle, back, rfl, walks⟩

theorem mem_iff (h : Walks next pending visited) {place : α} :
    place ∈ visited ↔
      ∃ start ∈ pending, Relation.ReflTransGen (fun a b => b ∈ next a) start place := by
  induction h with
  | done => simp
  | @visit first rest visited more ih =>
    rw [List.mem_cons, ih]
    constructor
    · rintro (rfl | ⟨start, mem, leads⟩)
      · exact ⟨place, by simp, .refl⟩
      · rcases List.mem_append.1 mem with mem | mem
        · exact ⟨first, by simp, .head mem leads⟩
        · exact ⟨start, List.mem_cons_of_mem _ mem, leads⟩
    · rintro ⟨start, mem, leads⟩
      rcases List.mem_cons.1 mem with rfl | mem
      · rcases Relation.ReflTransGen.cases_head leads with rfl | ⟨middle, step, leads⟩
        · exact .inl rfl
        · exact .inr ⟨middle, List.mem_append_left _ step, leads⟩
      · exact .inr ⟨start, List.mem_append_right _ mem, leads⟩

/-- Where nothing kept lies behind what is rejected, a walk that skips what is rejected visits
what is kept. -/
theorem filter {next' : α → List α} {keep : α → Prop} [DecidablePred keep]
    (h : Walks next pending visited)
    (kept : ∀ place ∈ visited, keep place →
      next' place = (next place).filter fun other => keep other)
    (rejected : ∀ place ∈ visited, ¬ keep place → ∀ other ∈ next place, ¬ keep other) :
    Walks next' (pending.filter fun place => keep place)
      (visited.filter fun place => keep place) := by
  induction h with
  | done => exact .done
  | @visit place rest visited more ih =>
    have tail := ih (fun other mem => kept other (List.mem_cons_of_mem _ mem))
      fun other mem => rejected other (List.mem_cons_of_mem _ mem)
    rw [List.filter_append] at tail
    by_cases keeps : keep place
    · rw [List.filter_cons_of_pos (by simpa using keeps),
        List.filter_cons_of_pos (by simpa using keeps)]
      exact .visit (by rwa [kept place (by simp) keeps])
    · have none : ((next place).filter fun other => keep other) = [] := by
        simpa [List.filter_eq_nil_iff] using rejected place (by simp) keeps
      rw [none, List.nil_append] at tail
      rwa [List.filter_cons_of_neg (by simpa using keeps),
        List.filter_cons_of_neg (by simpa using keeps)]

theorem exists_of_height (height : α → Nat)
    (lower : ∀ place, ∀ other ∈ next place, height other < height place) (pending : List α) :
    ∃ visited, Walks next pending visited := by
  have all : ∀ pending : List α, (∀ place ∈ pending, ∃ visited, Walks next [place] visited) →
      ∃ visited, Walks next pending visited := by
    intro pending each
    induction pending with
    | nil => exact ⟨[], .done⟩
    | cons first rest ih =>
      obtain ⟨front, walks⟩ := each first (by simp)
      obtain ⟨back, walks'⟩ := ih fun place mem => each place (List.mem_cons_of_mem _ mem)
      exact ⟨front ++ back, walks.append walks'⟩
  have one : ∀ n place, height place < n → ∃ visited, Walks next [place] visited := by
    intro n
    induction n with
    | zero => exact fun _ low => absurd low (Nat.not_lt_zero _)
    | succ n ih =>
      intro place low
      obtain ⟨visited, walks⟩ := all (next place) fun other mem =>
        ih other (by have := lower place other mem; omega)
      exact ⟨place :: visited, .visit (by rwa [List.append_nil])⟩
  exact all pending fun place _ => one _ place (Nat.lt_succ_self _)

end Walks

def Beside (listed : List String → List String) (a b : List String) : Prop :=
  ∃ top first second, top ++ [first] <+: a ∧ top ++ [second] <+: b ∧
    [second, first].Sublist (listed top)

/-- What a walk visits first: a place before those below it, and of two that part, the one that is
listed later. -/
def Precedes (listed : List String → List String) (a b : List String) : Prop :=
  (a <+: b ∧ a ≠ b) ∨ Beside listed a b

/-- From each place a walk may go on to places that are listed there, the last one first. -/
structure Lists (listed : List String → List String) (next : List String → List (List String)) :
    Prop where
  nodup : ∀ top, (listed top).Nodup
  next : ∀ top, (next top).Sublist ((listed top).map fun name => top ++ [name]).reverse

section Order

variable {listed : List String → List String} {next : List String → List (List String)}
variable {a b top place : List String}

theorem Beside.below {a' b' : List String} (beside : Beside listed a b) (down : a <+: a')
    (down' : b <+: b') : Beside listed a' b' := by
  obtain ⟨top, first, second, front, front', order⟩ := beside
  exact ⟨top, first, second, front.trans down, front'.trans down', order⟩

theorem Beside.apart (nodup : ∀ top, (listed top).Nodup) (beside : Beside listed a b) :
    ¬ b <+: a := by
  rintro down
  obtain ⟨top, first, second, front, front', order⟩ := beside
  have same : top ++ [second] = top ++ [first] :=
    (List.prefix_of_prefix_length_le (front'.trans down) front (by simp)).eq_of_length (by simp)
  obtain rfl : second = first := by simpa using same
  simpa using (nodup top).sublist order

theorem Precedes.apart (nodup : ∀ top, (listed top).Nodup) (precedes : Precedes listed a b) :
    ¬ b <+: a := by
  rcases precedes with ⟨down, other⟩ | beside
  · exact fun up => other (down.eq_of_length (Nat.le_antisymm down.length_le up.length_le))
  · exact beside.apart nodup

namespace Lists

variable (lists : Lists listed next)

include lists

theorem step (mem : place ∈ next top) : ∃ last, place = top ++ [last] := by
  have inside := (lists.next top).subset mem
  obtain ⟨last, -, rfl⟩ := List.mem_map.1 (List.mem_reverse.1 inside)
  exact ⟨last, rfl⟩

theorem prefix_of_leads
    (leads : Relation.ReflTransGen (fun a b => b ∈ next a) top place) : top <+: place := by
  induction leads with
  | refl => exact List.prefix_rfl
  | tail _ step ih =>
    obtain ⟨last, rfl⟩ := lists.step step
    exact ih.trans (List.prefix_append _ _)

theorem beside_next (top : List String) : (next top).Pairwise (Beside listed) := by
  refine List.Pairwise.sublist (lists.next top) ?_
  rw [List.pairwise_reverse, List.pairwise_map]
  refine List.pairwise_iff_forall_sublist.2 fun {second first} order => ?_
  exact ⟨top, first, second, List.prefix_rfl, List.prefix_rfl, order⟩

/-- The places of a walk come in order. What is pending lies side by side, and so does all that is
below it. -/
theorem precedes_of_walks {pending visited : List (List String)}
    (walks : Walks next pending visited) (beside : pending.Pairwise (Beside listed)) :
    visited.Pairwise (Precedes listed) := by
  induction walks with
  | done => exact .nil
  | @visit top pending visited more ih =>
    obtain ⟨others, rest⟩ := List.pairwise_cons.1 beside
    refine List.pairwise_cons.2 ⟨fun place mem => ?_, ih (List.pairwise_append.2
      ⟨lists.beside_next top, rest, fun inside mem other mem' => ?_⟩)⟩
    -- What is visited later lies below `top`, or below what is pending beside it.
    · obtain ⟨start, mem, leads⟩ := more.mem_iff.1 mem
      have down := lists.prefix_of_leads leads
      rcases List.mem_append.1 mem with mem | mem
      · obtain ⟨last, rfl⟩ := lists.step mem
        refine .inl ⟨(List.prefix_append top [last]).trans down, fun same => ?_⟩
        have longer := down.length_le
        rw [← same, List.length_append, List.length_singleton] at longer
        omega
      · exact .inr ((others start mem).below List.prefix_rfl down)
    · obtain ⟨last, rfl⟩ := lists.step mem
      exact (others other mem').below (List.prefix_append top [last]) List.prefix_rfl

theorem apart_of_walks {visited : List (List String)} (walks : Walks next [top] visited) :
    visited.Pairwise fun a b => ¬ b <+: a :=
  (lists.precedes_of_walks walks (List.pairwise_singleton _ _)).imp fun precedes =>
    precedes.apart lists.nodup

theorem nodup_of_walks {visited : List (List String)} (walks : Walks next [top] visited) :
    visited.Nodup := by
  refine (lists.apart_of_walks walks).imp fun {a b} apart same => ?_
  rw [same] at apart
  exact apart List.prefix_rfl

end Lists

end Order

end TreeStore
