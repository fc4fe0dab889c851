import Mathlib.Algebra.Order.BigOperators.Group.List
import Mathlib.Algebra.Order.Field.Basic
import Mathlib.Data.List.Induction
import Mathlib.Tactic.Linarith

/-!
# Budgets over a sliding window

A channel is occupied for a sequence of intervals, one after another. Each of them is admitted by
a check that adds up the intervals that *started* less than a window ago (`Budgeted`). The check
misses an interval that started earlier and still reaches into the window. It is nonetheless enough:
in every window, at any offset, the channel is occupied for no longer than the budget
(`Budgeted.occupied_le`).
-/

namespace Chatbit.Lib

variable {K : Type} [Field K] [LinearOrder K] [IsStrictOrderedRing K]

/-- How much of `[e.1, e.1 + e.2]` lies in `[t, t + W]`. -/
def overlap (W t : K) (e : K × K) : K := max 0 (min (e.1 + e.2) (t + W) - max e.1 t)

/-- How much of `[t, t + W]` is occupied by intervals that do not overlap each other. -/
def occupied (W t : K) (l : List (K × K)) : K := (l.map (overlap W t)).sum

/-- Intervals one after another, of which each was admitted by a check at `c` within the budget. -/
inductive Budgeted (W B : K) : List (K × K) → Prop
  | nil : Budgeted W B []
  | snoc {l : List (K × K)} {c r d : K} (hl : Budgeted W B l) (hafter : ∀ e ∈ l, e.1 + e.2 ≤ c)
      (hstart : c ≤ r) (hd : 0 ≤ d)
      (hbudget : ((l.filter fun e => c - W ≤ e.1).map Prod.snd).sum + d ≤ B) :
      Budgeted W B (l ++ [(r, d)])

variable {W B t t' : K} {e : K × K} {l : List (K × K)}

theorem overlap_le (h : 0 ≤ e.2) : overlap W t e ≤ e.2 := by
  unfold overlap
  apply max_le h
  have hmin := min_le_left (e.1 + e.2) (t + W)
  have hmax := le_max_left e.1 t
  linarith

/-- What reaches into a window begins before it ends and ends after it begins. -/
theorem overlap_pos (h : overlap W t e ≠ 0) : e.1 < t + W ∧ t < e.1 + e.2 := by
  by_contra hnot
  apply h
  unfold overlap
  apply max_eq_left
  rcases not_and_or.mp hnot with h1 | h2
  · have hmin := min_le_right (e.1 + e.2) (t + W)
    have hmax := le_max_left e.1 t
    linarith
  · have hmin := min_le_left (e.1 + e.2) (t + W)
    have hmax := le_max_right e.1 t
    linarith

/-- An earlier window has more of an interval that ends inside it. -/
theorem overlap_le_overlap (ht : t' ≤ t) (hend : e.1 + e.2 ≤ t' + W) :
    overlap W t e ≤ overlap W t' e := by
  unfold overlap
  apply max_le_max_left
  rw [min_eq_left hend]
  have hmin := min_le_left (e.1 + e.2) (t + W)
  have hmax := max_le_max_left e.1 ht
  linarith

/-- It has all of the time in between, if the interval covers that. -/
theorem overlap_add_le_overlap (ht : t' ≤ t) (hstart : e.1 ≤ t') (hcover : t ≤ e.1 + e.2)
    (hend : e.1 + e.2 ≤ t' + W) : overlap W t e + (t - t') ≤ overlap W t' e := by
  unfold overlap
  rw [min_eq_left hend, max_eq_right hstart, max_eq_right (hstart.trans ht),
    min_eq_left (by linarith), max_eq_right (by linarith), max_eq_right (by linarith)]
  linarith

/-- What reaches beyond an interval that was admitted last is at most what it was admitted with. -/
theorem overlap_last_le {r d : K} (hr : r ≤ t + W) : overlap W t (r, d) ≤ t + W - r := by
  unfold overlap
  apply max_le (by linarith)
  have hmin := min_le_right (r + d) (t + W)
  have hmax := le_max_left r t
  linarith

omit [IsStrictOrderedRing K] in
theorem occupied_append_singleton (W t : K) (l : List (K × K)) (e : K × K) :
    occupied W t (l ++ [e]) = occupied W t l + overlap W t e := by
  simp [occupied]

/-- Moving the window back to where an interval covers the time in between. -/
theorem occupied_add_le_occupied (ht : t' ≤ t) (hend : ∀ e ∈ l, e.1 + e.2 ≤ t' + W) (he : e ∈ l)
    (hstart : e.1 ≤ t') (hcover : t ≤ e.1 + e.2) :
    occupied W t l + (t - t') ≤ occupied W t' l := by
  obtain ⟨before, after, rfl⟩ := List.append_of_mem he
  have hle : ∀ l', (∀ e' ∈ l', e'.1 + e'.2 ≤ t' + W) → occupied W t l' ≤ occupied W t' l' :=
    fun l' hl' => List.sum_le_sum fun e' he' => overlap_le_overlap ht (hl' e' he')
  have hbefore := hle before fun e' he' => hend e' (List.mem_append_left _ he')
  have hafter := hle after fun e' he' =>
    hend e' (List.mem_append_right _ (List.mem_cons_of_mem _ he'))
  have hself := overlap_add_le_overlap ht hstart hcover (hend e he)
  have hsplit : ∀ s, occupied W s (before ++ e :: after) =
      occupied W s before + overlap W s e + occupied W s after := by
    intro s
    simp [occupied, add_assoc]
  rw [hsplit, hsplit]
  linarith

/-- What reaches into the window is at most the durations of the intervals that are counted. -/
theorem occupied_le_sum {p : K × K → Bool} (hd : ∀ e ∈ l, 0 ≤ e.2)
    (hp : ∀ e ∈ l, overlap W t e ≠ 0 → p e = true) :
    occupied W t l ≤ ((l.filter p).map Prod.snd).sum := by
  induction l with
  | nil => simp [occupied]
  | cons e l ih =>
    obtain ⟨hde, hdl⟩ := List.forall_mem_cons.mp hd
    obtain ⟨hpe, hpl⟩ := List.forall_mem_cons.mp hp
    have hrest := ih hdl hpl
    have hcons : occupied W t (e :: l) = overlap W t e + occupied W t l := rfl
    rw [hcons, List.filter_cons]
    split_ifs with hcount
    · rw [List.map_cons, List.sum_cons]
      exact add_le_add (overlap_le hde) hrest
    · have hzero : overlap W t e = 0 := by
        by_contra hne
        exact hcount (hpe hne)
      rw [hzero, zero_add]
      exact hrest

namespace Budgeted

omit [IsStrictOrderedRing K] in
theorem nonneg (h : Budgeted W B l) : ∀ e ∈ l, 0 ≤ e.2 := by
  induction h with
  | nil => exact fun _ he => absurd he List.not_mem_nil
  | snoc _ _ _ hd _ ih =>
    intro e he
    rcases List.mem_append.mp he with he | he
    · exact ih e he
    · rw [List.mem_singleton.mp he]
      exact hd

/-- In every window the channel is occupied for no longer than the budget. -/
theorem occupied_le (h : Budgeted W B l) (hB : 0 ≤ B) (t : K) : occupied W t l ≤ B := by
  induction h generalizing t with
  | nil => simpa [occupied] using hB
  | @snoc l c r d hl hafter hstart hd hbudget ih =>
    rw [occupied_append_singleton]
    by_cases hlast : r < t + W
    · by_cases hcounted : ∀ e ∈ l, overlap W t e ≠ 0 → c - W ≤ e.1
      · -- everything in the window was counted by the last check
        have hle := occupied_le_sum (p := fun e => decide (c - W ≤ e.1)) hl.nonneg
          fun e he hne => decide_eq_true (hcounted e he hne)
        have hself := overlap_le (W := W) (t := t) (e := (r, d)) hd
        linarith
      · -- an interval that was not counted covers the time since the window that ends at `r`
        push Not at hcounted
        obtain ⟨e, he, hne, hearly⟩ := hcounted
        have hcover := (overlap_pos hne).2
        have hend : ∀ e ∈ l, e.1 + e.2 ≤ (r - W) + W := by
          intro e he
          have := hafter e he
          linarith
        have hback : occupied W t l + (t - (r - W)) ≤ occupied W (r - W) l :=
          occupied_add_le_occupied (by linarith) hend he (by linarith) hcover.le
        have hself := overlap_last_le (d := d) hlast.le
        have := ih (r - W)
        linarith
    · have hzero : overlap W t (r, d) = 0 := by
        by_contra hne
        exact hlast (overlap_pos hne).1
      rw [hzero, add_zero]
      exact ih t

end Budgeted

end Chatbit.Lib
