import Mathlib.Data.List.Basic
import Mathlib.Tactic.Common

/-!
# Bounded logs whose entries expire

A store that takes entries in and forgets them again, because they are too old or because there are
too many, is described by the log of all entries it ever took in: what it has are those of the
newest `capacity` that have not expired (`live`). An entry expires no later than those after it
(`Expires`), so a store that forgets from the front only is a store that does so.
-/

namespace Chatbit.Lib

variable {α : Type} {capacity : ℕ} {old old' : α → Bool} {l : List α} {a : α}

/-- No entry expires before an earlier one. -/
def Expires (old : α → Bool) (l : List α) : Prop :=
  l.Pairwise fun a b => old b = true → old a = true

/-- What a store has of the entries it took in. -/
def live (capacity : ℕ) (old : α → Bool) (l : List α) : List α :=
  (l.drop (l.length - capacity)).filter fun a => ! old a

theorem Expires.sublist {l' : List α} (h : Expires old l) (hsub : l'.Sublist l) :
    Expires old l' := List.Pairwise.sublist hsub h

/-- Forgetting from the front as long as entries have expired forgets all that have. -/
theorem Expires.dropWhile (h : Expires old l) : l.dropWhile old = l.filter fun a => ! old a := by
  induction l with
  | nil => rfl
  | cons a l ih =>
    obtain ⟨hfirst, hrest⟩ := List.pairwise_cons.mp h
    by_cases ha : old a = true
    · rw [List.dropWhile_cons_of_pos ha, List.filter_cons_of_neg (by simp [ha])]
      exact ih hrest
    · rw [List.dropWhile_cons_of_neg ha]
      symm
      apply List.filter_eq_self.mpr
      intro b hb
      rcases List.mem_cons.mp hb with rfl | hb
      · simpa using ha
      · simpa using mt (hfirst b hb) ha

/-- Time passes. -/
theorem dropWhile_live (h : Expires old' l) (hle : ∀ a ∈ l, old a = true → old' a = true) :
    (live capacity old l).dropWhile old' = live capacity old' l := by
  have hsub : (live capacity old l).Sublist l :=
    List.filter_sublist.trans (List.drop_sublist _ _)
  rw [(h.sublist hsub).dropWhile, live, List.filter_filter, live]
  apply List.filter_congr
  intro a ha
  have hnew := hle a (List.mem_of_mem_drop ha)
  cases hold : old a <;> simp_all

/-- An entry comes in, and the front goes out if there are too many. -/
theorem drop_live_append (h : Expires old l) (ha : old a = false) :
    (live capacity old l ++ [a]).drop ((live capacity old l).length + 1 - capacity) =
      live capacity old (l ++ [a]) := by
  have hexpires := h.sublist (List.drop_sublist (l.length - capacity) l)
  unfold live
  rw [List.length_append, List.length_singleton]
  by_cases hroom : l.length < capacity
  · -- all that has not expired is there, and there is room
    have hlen := List.length_filter_le (fun a => ! old a) l
    have h₀ : l.length - capacity = 0 := by omega
    have h₁ : l.length + 1 - capacity = 0 := by omega
    rw [h₀, h₁, List.drop_zero, List.drop_zero, List.filter_append, List.filter_singleton, ha]
    have h₂ : (l.filter fun a => ! old a).length + 1 - capacity = 0 := by omega
    rw [h₂]
    rfl
  generalize hnewest : l.drop (l.length - capacity) = newest at hexpires
  have hlen : newest.length = capacity := by
    rw [← hnewest, List.length_drop]
    omega
  have hnext : (l ++ [a]).drop (l.length + 1 - capacity) = (newest ++ [a]).drop 1 := by
    rw [← hnewest, ← List.drop_append_of_le_length (by omega), List.drop_drop]
    congr 1
    omega
  rw [hnext]
  cases newest with
  | nil =>
    obtain rfl : capacity = 0 := hlen.symm
    rfl
  | cons oldest rest =>
    show _ = (rest ++ [a]).filter _
    rw [List.filter_append, List.filter_singleton, ha]
    have hbound := List.length_filter_le (fun a => ! old a) rest
    rw [List.length_cons] at hlen
    by_cases hold : old oldest = true
    · -- the one that has to go has expired already
      rw [List.filter_cons_of_neg (by simp [hold])]
      have hfits : (rest.filter fun a => ! old a).length + 1 - capacity = 0 := by omega
      rw [hfits]
      rfl
    · have hall : rest.filter (fun a => ! old a) = rest := by
        apply List.filter_eq_self.mpr
        intro b hb
        simpa using mt ((List.pairwise_cons.mp hexpires).1 b hb) hold
      rw [List.filter_cons_of_pos (by simpa using hold), hall, List.length_cons]
      have hfull : rest.length + 1 + 1 - capacity = 1 := by omega
      rw [hfull]
      rfl

theorem length_live_le (capacity : ℕ) (old : α → Bool) (l : List α) :
    (live capacity old l).length ≤ capacity := by
  have hlen := List.length_filter_le (fun a => ! old a) (l.drop (l.length - capacity))
  rw [List.length_drop] at hlen
  unfold live
  omega

/-- An entry is there if it has not expired and fewer than `capacity` came after it. -/
theorem mem_live_iff : a ∈ live capacity old l ↔
    old a = false ∧ ∃ earlier later, l = earlier ++ a :: later ∧ later.length < capacity := by
  rw [live, List.mem_filter, and_comm]
  refine and_congr (by simp) ?_
  constructor
  · intro hmem
    obtain ⟨between, later, hsplit⟩ := List.append_of_mem hmem
    refine ⟨l.take (l.length - capacity) ++ between, later, ?_, ?_⟩
    · rw [List.append_assoc, ← hsplit, List.take_append_drop]
    · have hlen := congrArg List.length hsplit
      rw [List.length_drop, List.length_append, List.length_cons] at hlen
      omega
  · rintro ⟨earlier, later, rfl, hlater⟩
    rw [List.length_append, List.length_cons, List.drop_append_of_le_length (by omega)]
    exact List.mem_append_right _ List.mem_cons_self

end Chatbit.Lib
