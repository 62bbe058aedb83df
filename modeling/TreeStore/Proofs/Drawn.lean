import TreeStore.Proofs.Sessions
/-!
Actions that are asked for some of what there is. What a call comes to is a list of items, values
and errors; an action is lazy if it answers the first items of all there are and makes no call
beyond those that yield them (`Lazy`). `Draws` is the invariant from which this is proved, with some
items ready before any call: one lemma for each step that an action can take.
-/
namespace TreeStore

section Items

variable {α ε : Type}

def itemsOf (answer : List α × Option ε) : List (Except ε α) :=
  answer.1.map .ok ++ answer.2.toList.map .error

@[simp] theorem itemsOf_none (values : List α) :
    itemsOf (values, (none : Option ε)) = values.map .ok := by
  simp [itemsOf]

@[simp] theorem itemsOf_some (values : List α) (error : ε) :
    itemsOf (values, some error) = values.map .ok ++ [.error error] := by
  simp [itemsOf]

theorem itemsOf_cons (value : α) (answer : List α × Option ε) :
    itemsOf (value :: answer.1, answer.2) = .ok value :: itemsOf answer := by
  simp [itemsOf]

theorem itemsOf_injective : Function.Injective (itemsOf : List α × Option ε → _) := by
  rintro ⟨values, error?⟩ ⟨values', error?'⟩ same
  induction values generalizing values' with
  | nil => cases values' <;> cases error? <;> cases error?' <;> simp_all [itemsOf]
  | cons value values ih =>
    cases values' with
    | nil => cases error?' <;> simp [itemsOf] at same
    | cons value' values' =>
      rw [itemsOf_cons value (values, error?), itemsOf_cons value' (values', error?')] at same
      obtain ⟨first, rest⟩ := List.cons.inj same
      obtain ⟨rfl, rfl⟩ := Prod.mk.inj (ih values' rest)
      rw [Except.ok.inj first]

end Items

/-- The shortest beginning of the calls that yields `n` items, and all of them where they yield
fewer. -/
structure Shortest {α : Type} (yields : Event → List α) (n : Nat) (calls made : List Event) :
    Prop where
  front : made <+: calls
  enough : n ≤ (made.flatMap yields).length ∨ made = calls
  least : ∀ front, front <+: made → front ≠ made → (front.flatMap yields).length < n

namespace Shortest

variable {α : Type} {yields : Event → List α} {n : Nat} {event : Event} {calls made : List Event}

theorem none (few : n = 0 ∨ calls = []) : Shortest yields n calls [] where
  front := List.nil_prefix
  enough := few.imp Nat.le_zero.2 Eq.symm
  least _ up other := absurd (List.prefix_nil.1 up) other

theorem cons (more : Shortest yields (n + 1 - (yields event).length) calls made) :
    Shortest yields (n + 1) (event :: calls) (event :: made) where
  front := List.cons_prefix_cons.2 ⟨rfl, more.front⟩
  enough := by
    refine more.enough.imp (fun enough => ?_) (congrArg _)
    rw [List.flatMap_cons, List.length_append]
    omega
  least front up other := by
    cases front with
    | nil => exact Nat.succ_pos n
    | cons first front =>
      obtain ⟨rfl, down⟩ := List.cons_prefix_cons.1 up
      have few := more.least front down fun same => other (same ▸ rfl)
      rw [List.flatMap_cons, List.length_append]
      omega

theorem eq_calls (shortest : Shortest yields n calls made)
    (few : (calls.flatMap yields).length < n) : made = calls := by
  refine shortest.enough.resolve_left fun enough => ?_
  obtain ⟨rest, rfl⟩ := shortest.front
  rw [List.flatMap_append, List.length_append] at few
  omega

end Shortest

/-- Asked for `n` items at a site, the action answers the first of those that are ready and of those
that the calls yield, and makes only the calls that it takes. -/
structure Draws {α ε : Type} (ask : Nat → Action (List α × Option ε)) (site : Site)
    (yields : Event → List (Except ε α)) (ready : List (Except ε α)) (calls : List Event) :
    Prop where
  items : ∀ n, itemsOf (ask n site).1 = (ready ++ calls.flatMap yields).take n
  calls : ∀ n, ∃ made, (ask n site).2.log = site.log ++ made ∧
    Shortest yields (n - ready.length) calls made

def failing {α ε : Type} (error : ε) : Nat → Action (List α × Option ε)
  | 0 => pure ([], none)
  | _ + 1 => pure ([], some error)

def pushing {α ε : Type} (value : α) (ask : Nat → Action (List α × Option ε)) :
    Nat → Action (List α × Option ε)
  | 0 => pure ([], none)
  | n + 1 => do
    let (values, error?) ← ask n
    return (value :: values, error?)

namespace Draws

variable {α ε : Type} {ask ask' : Nat → Action (List α × Option ε)} {site later : Site}
variable {yields : Event → List (Except ε α)} {ready : List (Except ε α)} {calls : List Event}
variable {event : Event}

theorem congr (draws : Draws ask' site yields ready calls) (same : ∀ n, ask n site = ask' n site) :
    Draws ask site yields ready calls where
  items n := by rw [same, draws.items]
  calls n := by rw [same]; exact draws.calls n

theorem ended : Draws (fun _ => (pure ([], none) : Action (List α × Option ε))) site yields [] [] where
  items _ := List.take_nil.symm
  calls _ := ⟨[], (List.append_nil _).symm, .none (.inr rfl)⟩

theorem failed (error : ε) : Draws (failing (α := α) error) site yields [.error error] [] where
  items n := by
    cases n with
    | zero => rfl
    | succ n => exact (List.take_of_length_le (Nat.le_add_left 1 n)).symm
  calls n := by
    refine ⟨[], ?_, .none (.inr rfl)⟩
    cases n <;> exact (List.append_nil _).symm

theorem pushed (value : α) (draws : Draws ask site yields ready calls) :
    Draws (pushing value ask) site yields (.ok value :: ready) calls where
  items n := by
    cases n with
    | zero => rfl
    | succ n => exact (itemsOf_cons value (ask n site).1).trans (congrArg _ (draws.items n))
  calls n := by
    cases n with
    | zero => exact ⟨[], (List.append_nil _).symm, .none (.inl (Nat.zero_sub _))⟩
    | succ n =>
      obtain ⟨made, log, shortest⟩ := draws.calls n
      exact ⟨made, log, by rwa [List.length_cons, Nat.succ_sub_succ]⟩

theorem called (draws : Draws ask' later yields (yields event) calls)
    (made : later.log = site.log ++ [event]) (none : ask 0 site = (([], .none), site))
    (some : ∀ n, ask (n + 1) site = ask' (n + 1) later) :
    Draws ask site yields [] (event :: calls) where
  items n := by
    cases n with
    | zero => rw [none]; rfl
    | succ n => rw [some, draws.items, List.nil_append, List.flatMap_cons]
  calls n := by
    cases n with
    | zero => exact ⟨[], by rw [none]; exact (List.append_nil _).symm, .none (.inl rfl)⟩
    | succ n =>
      obtain ⟨others, log, shortest⟩ := draws.calls (n + 1)
      refine ⟨event :: others, ?_, shortest.cons⟩
      rw [some, log, made, List.append_assoc, List.singleton_append]

end Draws

inductive FailsLast {α ε : Type} (yields : Event → List (Except ε α)) : List Event → Prop
  | none : FailsLast yields []
  | failed {event : Event} {error : ε} (yielded : yields event = [.error error]) :
      FailsLast yields [event]
  | answered {event : Event} (values : List α) {calls : List Event}
      (yielded : yields event = values.map .ok) (more : FailsLast yields calls) :
      FailsLast yields (event :: calls)

theorem FailsLast.kept {α ε : Type} {yields : Event → List (Except ε α)} {front back : List Event}
    {event : Event} {error : ε} (last : FailsLast yields (front ++ event :: back))
    (failed : yields event = [.error error]) :
    back = [] ∧ ∃ values : List α, front.flatMap yields = values.map .ok := by
  induction front with
  | nil =>
    cases last with
    | failed => exact ⟨rfl, [], rfl⟩
    | @answered _ values _ yielded =>
      rw [failed] at yielded
      cases values <;> simp at yielded
  | cons first front ih =>
    generalize tail : front ++ event :: back = rest at last
    rw [List.cons_append, tail] at last
    cases last with
    | failed => simp at tail
    | @answered _ values _ yielded more =>
      obtain ⟨nothing, values', before⟩ := ih (tail ▸ more)
      refine ⟨nothing, values ++ values', ?_⟩
      rw [List.flatMap_cons, yielded, before, List.map_append]

/-- What an action does for each number of items, compared to what it does for all of them. -/
structure Lazy {α ε : Type} (ask : Nat → Action (List α × Option ε))
    (all : Action (List α × Option ε)) (site : Site) (yields : Event → List (Except ε α))
    (calls : List Event) : Prop where
  log : (all site).2.log = site.log ++ calls
  whole : itemsOf (all site).1 = calls.flatMap yields
  items : ∀ n, itemsOf (ask n site).1 = (itemsOf (all site).1).take n
  made : ∀ n, ∃ made, (ask n site).2.log = site.log ++ made ∧ Shortest yields n calls made

section Lazy

variable {α ε : Type} {ask : Nat → Action (List α × Option ε)} {all : Action (List α × Option ε)}
variable {site : Site} {yields : Event → List (Except ε α)} {calls : List Event}

theorem Draws.lazy (draws : Draws ask site yields [] calls) {bound : Nat}
    (enough : (calls.flatMap yields).length < bound) (asked : all site = ask bound site) :
    Lazy ask all site yields calls := by
  have whole : itemsOf (all site).1 = calls.flatMap yields := by
    rw [asked, draws.items, List.nil_append, List.take_of_length_le (Nat.le_of_lt enough)]
  refine ⟨?_, whole, fun n => ?_, draws.calls⟩
  · obtain ⟨made, log, shortest⟩ := draws.calls bound
    rw [asked, log, shortest.eq_calls enough]
  · rw [whole]
    exact draws.items n

theorem Lazy.kept (lists : Lazy ask all site yields calls) (last : FailsLast yields calls)
    {front back : List Event} {event : Event} {error : ε} (made : calls = front ++ event :: back)
    (failed : yields event = [.error error]) :
    back = [] ∧ ∃ values, front.flatMap yields = values.map .ok ∧
      (all site).1 = (values, some error) := by
  subst made
  obtain ⟨rfl, values, before⟩ := last.kept failed
  refine ⟨rfl, values, before, itemsOf_injective ?_⟩
  rw [lists.whole, itemsOf_some, List.flatMap_append, before, List.flatMap_cons, failed,
    List.flatMap_nil, List.append_nil]

end Lazy

end TreeStore
