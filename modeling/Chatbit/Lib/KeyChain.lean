import Mathlib.Data.List.Nodup
import Mathlib.Data.Set.Function
import Mathlib.Logic.Function.Iterate

/-!
# Chains of derived keys

A symmetric ratchet derives key after key by one function, from starting keys that the function
itself never produces. Then a position on a chain is determined by the key found there: two equal
keys are at the same position of the same chain. Injectivity is only asked for on a set `S` of
well-formed keys that the function preserves.

Several parties that each take one output after another from a chain of their own never use an
output twice, as long as a chain is only ever replaced by one that is all new (`NoReuse`).
-/

namespace Chatbit.Lib

variable {α : Type} {S : Set α} {next : α → α}

/-- Every key of a chain that starts in `S` is in `S`. -/
theorem iterate_mem (hmaps : Set.MapsTo next S S) {a : α} (ha : a ∈ S) (n : ℕ) :
    next^[n] a ∈ S :=
  hmaps.iterate n ha

/-- Keys of chains whose starting keys are not derived determine the chain and the position. -/
theorem iterate_inj (hmaps : Set.MapsTo next S S) (hinj : Set.InjOn next S) {a b : α}
    (ha : a ∈ S) (hb : b ∈ S) (ha' : ∀ c ∈ S, next c ≠ a) (hb' : ∀ c ∈ S, next c ≠ b)
    {n m : ℕ} (h : next^[n] a = next^[m] b) : a = b ∧ n = m := by
  induction n generalizing m with
  | zero =>
    cases m with
    | zero => exact ⟨h, rfl⟩
    | succ m =>
      rw [Function.iterate_succ_apply'] at h
      exact absurd h.symm (ha' _ (iterate_mem hmaps hb m))
  | succ n ih =>
    cases m with
    | zero =>
      rw [Function.iterate_succ_apply'] at h
      exact absurd h (hb' _ (iterate_mem hmaps ha n))
    | succ m =>
      rw [Function.iterate_succ_apply', Function.iterate_succ_apply'] at h
      obtain ⟨hab, hnm⟩ := ih (hinj (iterate_mem hmaps ha n) (iterate_mem hmaps hb m) h)
      exact ⟨hab, congrArg _ hnm⟩

section NoReuse

variable {ι κ : Type} {out : α → κ}

/-- The outputs taken so far are distinct, and everything the chains still have to give is
different from them and from each other. -/
structure NoReuse (next : α → α) (out : α → κ) (used : List κ) (chain : ι → Option α) : Prop where
  nodup : used.Nodup
  inj : ∀ i c, chain i = some c → Function.Injective fun n => out (next^[n] c)
  unused : ∀ i c, chain i = some c → ∀ n, out (next^[n] c) ∉ used
  apart : ∀ i j c d, i ≠ j → chain i = some c → chain j = some d →
    ∀ n m, out (next^[n] c) ≠ out (next^[m] d)

namespace NoReuse

variable {used : List κ} {chain : ι → Option α} {i : ι} {c : α} [DecidableEq ι]

/-- A chain may be replaced by one that gives nothing used and nothing that another chain has. -/
theorem replace (h : NoReuse next out used chain)
    (hinj : Function.Injective fun n => out (next^[n] c))
    (hused : ∀ n, out (next^[n] c) ∉ used)
    (hapart : ∀ j d, j ≠ i → chain j = some d → ∀ n m, out (next^[n] c) ≠ out (next^[m] d)) :
    NoReuse next out used (Function.update chain i (some c)) := by
  have hcases : ∀ j d, Function.update chain i (some c) j = some d →
      j = i ∧ d = c ∨ j ≠ i ∧ chain j = some d := by
    intro j d hd
    by_cases hj : j = i
    · subst hj
      rw [Function.update_self] at hd
      exact Or.inl ⟨rfl, (Option.some.inj hd).symm⟩
    · rw [Function.update_of_ne hj] at hd
      exact Or.inr ⟨hj, hd⟩
  refine ⟨h.nodup, fun j d hd => ?_, fun j d hd => ?_, fun j l d e hjl hd he => ?_⟩
  · rcases hcases j d hd with ⟨-, rfl⟩ | ⟨-, hd⟩
    · exact hinj
    · exact h.inj j d hd
  · rcases hcases j d hd with ⟨-, rfl⟩ | ⟨-, hd⟩
    · exact hused
    · exact h.unused j d hd
  · rcases hcases j d hd with ⟨rfl, rfl⟩ | ⟨hj, hold⟩ <;>
      rcases hcases l e he with ⟨rfl, rfl⟩ | ⟨hl, hold'⟩
    · exact absurd rfl hjl
    · exact hapart l e hl hold'
    · exact fun n m heq => hapart j d hj hold m n heq.symm
    · exact h.apart j l d e hjl hold hold'

/-- A chain may drop its next output. -/
theorem drop (h : NoReuse next out used chain) (hc : chain i = some c) :
    NoReuse next out used (Function.update chain i (some (next c))) :=
  h.replace (fun _ _ heq => Nat.succ_injective (h.inj i c hc heq))
    (fun n => h.unused i c hc (n + 1))
    (fun j d hj hd n m => h.apart i j c d hj.symm hc hd (n + 1) m)

/-- The next output of a chain is new, and is used from then on. -/
theorem take (h : NoReuse next out used chain) (hc : chain i = some c) :
    NoReuse next out (used ++ [out c]) (Function.update chain i (some (next c))) := by
  obtain ⟨hnodup, hinj, hunused, hapart⟩ := h.drop hc
  refine ⟨?_, hinj, fun j d hd n hmem => ?_, hapart⟩
  · rw [List.nodup_append]
    refine ⟨hnodup, List.nodup_singleton _, fun k hk k' hk' heq => ?_⟩
    rw [List.mem_singleton] at hk'
    exact h.unused i c hc 0 (hk' ▸ heq ▸ hk)
  · rcases List.mem_append.mp hmem with hmem | hmem
    · exact hunused j d hd n hmem
    · rw [List.mem_singleton] at hmem
      by_cases hj : j = i
      · -- a later position of the same chain
        subst hj
        rw [Function.update_self] at hd
        obtain rfl := Option.some.inj hd
        have heq : (fun n => out (next^[n] c)) (n + 1) = (fun n => out (next^[n] c)) 0 := hmem
        exact absurd (h.inj j c hc heq) (Nat.succ_ne_zero n)
      · rw [Function.update_of_ne hj] at hd
        exact h.apart j i d c hj hd hc n 0 hmem

end NoReuse

end NoReuse

end Chatbit.Lib
