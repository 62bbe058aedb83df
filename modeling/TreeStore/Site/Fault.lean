import TreeStore.Error
/-!
Rules that make calls and streams fail. A rule speaks of one occasion and, if it names a path, of
that path alone; it lets its first chances pass and may be used up after a number of times.
-/
namespace TreeStore

structure Rule (ω β : Type) where
  occasion : ω
  path? : Option String := none
  /-- The chances that the rule still lets pass. -/
  skip : Nat := 0
  /-- How often the rule can still apply; without a limit if absent. -/
  times? : Option Nat := none
  effect : β
deriving DecidableEq, Repr

namespace Rule

variable {ω β : Type} [DecidableEq ω]

def concerns (rule : Rule ω β) (occasion : ω) (path : String) : Bool :=
  decide (rule.occasion = occasion) && rule.path?.all (· == path) && rule.times? != some 0

/-- The effect of the first rule that applies, and the rules as they are afterwards. -/
def select (occasion : ω) (path : String) : List (Rule ω β) → Option β × List (Rule ω β)
  | [] => (none, [])
  | rule :: rest =>
    if rule.concerns occasion path then
      if rule.skip = 0 then
        (some rule.effect, { rule with times? := rule.times?.map (· - 1) } :: rest)
      else
        let (effect, rest) := select occasion path rest
        (effect, { rule with skip := rule.skip - 1 } :: rest)
    else
      let (effect, rest) := select occasion path rest
      (effect, rule :: rest)

@[simp] theorem select_nil (occasion : ω) (path : String) :
    select occasion path ([] : List (Rule ω β)) = (none, []) := rfl

end Rule

structure Refusal where
  kind : CallErrorKind
  text : String
deriving DecidableEq, Repr

structure Cut where
  position : Nat
  error : IoError
deriving DecidableEq, Repr

end TreeStore
