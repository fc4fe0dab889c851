import Mathlib.Data.Multiset.MapFold
import Mathlib.Data.Multiset.UnionInter
import Mathlib.Data.List.Perm.Basic

/-!
# What a component holds

A component holds items that it passes on, drops and rewrites, and never copies. Of such a step it
is enough to know that what the component holds afterwards inherits from what it held before
(`Inherits`): whatever a rewriting keeps is then there no more often than before (`map_le`), and
whatever a rewriting preserves stays true of every item (`forall_mem`).
-/

namespace Chatbit.Lib

variable {α κ : Type}

/-- Each item of `new` is one of `old`, or what a rewriting makes of it, and no two come from one.
-/
def Inherits (rewrites : α → α → Prop) (new old : Multiset α) : Prop :=
  ∃ source ≤ old, Multiset.Rel (fun a b => b = a ∨ rewrites a b) source new

/-- Taking the item at an index out of a list. -/
lemma coe_of_getElem? {l : List α} {n : ℕ} {a : α} (h : l[n]? = some a) :
    (l : Multiset α) = {a} + (l.eraseIdx n : Multiset α) := by
  obtain ⟨hn, rfl⟩ := List.getElem?_eq_some_iff.mp h
  exact (Multiset.coe_eq_coe.mpr (List.getElem_cons_eraseIdx_perm hn)).symm

/-- What is not taken out stays. -/
lemma mem_eraseIdx_or {l : List α} {n : ℕ} {a b : α} (h : l[n]? = some a) (hb : b ∈ l) :
    b = a ∨ b ∈ l.eraseIdx n := by
  have hmem : b ∈ (l : Multiset α) := hb
  rw [coe_of_getElem? h] at hmem
  rcases Multiset.mem_add.mp hmem with hmem | hmem
  · exact Or.inl (Multiset.mem_singleton.mp hmem)
  · exact Or.inr hmem

namespace Inherits

variable {rewrites : α → α → Prop} {new old rest : Multiset α}

theorem of_le (h : new ≤ old) : Inherits rewrites new old :=
  ⟨new, h, Multiset.rel_refl_of_refl_on fun _ _ => Or.inl rfl⟩

theorem refl (s : Multiset α) : Inherits rewrites s s := of_le (le_refl s)

theorem of_rewrites {a b : α} (h : rewrites a b) : Inherits rewrites {b} {a} :=
  ⟨{a}, le_refl _, Multiset.Rel.cons (Or.inr h) Multiset.Rel.zero⟩

/-- Items that are elsewhere play no part. -/
theorem add_right (h : Inherits rewrites new old) (rest : Multiset α) :
    Inherits rewrites (new + rest) (old + rest) := by
  obtain ⟨source, hle, hrel⟩ := h
  refine ⟨source + rest, Multiset.add_le_add_right hle, ?_⟩
  exact hrel.add (Multiset.rel_refl_of_refl_on fun _ _ => Or.inl rfl)

/-- What a rewriting keeps is there no more often than before. -/
theorem map_le {key : α → κ} (hkey : ∀ a b, rewrites a b → key b = key a)
    (h : Inherits rewrites new old) : new.map key ≤ old.map key := by
  obtain ⟨source, hle, hrel⟩ := h
  have hsame : source.map key = new.map key := by
    apply Multiset.rel_eq.mp
    apply Multiset.rel_map.mpr
    apply hrel.mono
    intro a _ b _ hab
    rcases hab with rfl | hab
    · rfl
    · exact (hkey a b hab).symm
  rw [← hsame]
  exact Multiset.map_le_map hle

/-- What a rewriting preserves is true of the new items. -/
theorem forall_mem {Q : α → Prop} (hQ : ∀ a b, rewrites a b → Q a → Q b)
    (h : Inherits rewrites new old) (hold : ∀ a ∈ old, Q a) : ∀ b ∈ new, Q b := by
  obtain ⟨source, hle, hrel⟩ := h
  intro b hb
  obtain ⟨a, ha, hab⟩ := Multiset.exists_mem_of_rel_of_mem (Multiset.rel_flip.mpr hrel) hb
  have hQa : Q a := hold a (Multiset.mem_of_le hle ha)
  rcases hab with rfl | hab
  · exact hQa
  · exact hQ a b hab hQa

end Inherits

end Chatbit.Lib
