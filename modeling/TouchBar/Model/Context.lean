import TouchBar.Rust.BTree

/-!
# Context

A context is a snapshot of named facts; predicates over facts decide which
contributions and profiles are active.
-/

namespace TouchBar.Model

open TouchBar.Rust

inductive ContextValue where
  | text (value : String)
  | boolean (value : Bool)
deriving DecidableEq, Repr

structure ContextSnapshot where
  generation : ℕ
  facts : BTreeMap String ContextValue
deriving DecidableEq

inductive ContextPredicate where
  | always
  | present (key : String)
  | equals (key : String) (value : ContextValue)
  | all (predicates : List ContextPredicate)
  | any (predicates : List ContextPredicate)
  | not (predicate : ContextPredicate)

namespace ContextPredicate

mutual

/-- `ContextPredicate::matches`. -/
def matchesContext : ContextPredicate → ContextSnapshot → Bool
  | always, _ => true
  | present key, context => context.facts.containsKey key
  | equals key value, context => context.facts.get key = some value
  | all predicates, context => allMatch predicates context
  | any predicates, context => anyMatch predicates context
  | not predicate, context => !predicate.matchesContext context

def allMatch : List ContextPredicate → ContextSnapshot → Bool
  | [], _ => true
  | p :: ps, context => p.matchesContext context && allMatch ps context

def anyMatch : List ContextPredicate → ContextSnapshot → Bool
  | [], _ => false
  | p :: ps, context => p.matchesContext context || anyMatch ps context

end

end ContextPredicate

/-- How specific a contribution is, from least to most. -/
inductive ContextScope where
  | global
  | workspace
  | application
  | window
deriving DecidableEq, Repr

/-- The position in the declaration, which the derived order follows. -/
def ContextScope.rank : ContextScope → ℕ
  | global => 0
  | workspace => 1
  | application => 2
  | window => 3

instance : LinearOrder ContextScope :=
  LinearOrder.lift' ContextScope.rank fun a b h => by cases a <;> cases b <;> first | rfl | cases h

end TouchBar.Model
