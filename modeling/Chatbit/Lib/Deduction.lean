import Mathlib.Data.Set.Defs
import Mathlib.Tactic.Common

/-!
# What can be deduced

Terms that follow from known ones by rules, each of which derives a conclusion from a list of
premises. A set of terms stays underived if nothing known is in it and if every rule with a
conclusion in it has a premise in it (`Derivable.not_mem`): to derive the first of them one would
need one of them.
-/

namespace Chatbit.Lib

variable {α : Type}

/-- The terms that follow from the known ones. -/
inductive Derivable (rule : List α → α → Prop) (known : Set α) : α → Prop
  | known {a : α} (h : a ∈ known) : Derivable rule known a
  | rule {premises : List α} {a : α} (h : rule premises a)
      (hpremises : ∀ p ∈ premises, Derivable rule known p) : Derivable rule known a

/-- A set that every derivation of its members needs a member of. -/
def Guarded (rule : List α → α → Prop) (secret : Set α) : Prop :=
  ∀ premises a, rule premises a → a ∈ secret → ∃ p ∈ premises, p ∈ secret

variable {rule : List α → α → Prop} {known secret : Set α}

/-- The closed-set method: a guarded set of which nothing is known stays underived. -/
theorem Derivable.not_mem (hguarded : Guarded rule secret) (hknown : ∀ a ∈ known, a ∉ secret)
    {a : α} (h : Derivable rule known a) : a ∉ secret := by
  induction h with
  | known h => exact hknown _ h
  | rule h _ ih =>
    intro ha
    obtain ⟨p, hp, hsecret⟩ := hguarded _ _ h ha
    exact ih p hp hsecret

end Chatbit.Lib
