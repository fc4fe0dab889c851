import Mathlib.Algebra.Order.BigOperators.Group.List
import Mathlib.Algebra.Order.Field.Basic
import Mathlib.Algebra.Order.Floor.Semiring
import Mathlib.Data.List.Induction
import Mathlib.Data.Set.Basic
import Mathlib.Tactic.Linarith

/-!
# A share of a budget

Uses of a channel, one after another, are admitted by a check that adds up the durations of the uses
that started less than a window ago (`Booked`). Some of the uses are marked. Nothing in the check
tells them apart, so only the durations that there are can keep the marked uses of every window
within a share of the budget. They do exactly when whatever marked uses fit the window and the
budget, fit the share (`fitsShare_iff`). A use of a negative duration takes no time, and is a
credit.
-/

namespace Chatbit.Lib

structure Use (K : Type) where
  marked : Bool
  start : K
  duration : K
deriving DecidableEq

variable {K : Type} [Field K] [LinearOrder K]

/-- When the channel is free again. -/
def Use.stop (u : Use K) : K := u.start + max 0 u.duration

/-- The durations of the uses that are counted. -/
def total (p : Use K → Bool) (l : List (Use K)) : K := ((l.filter p).map Use.duration).sum

/-- The durations of the marked uses that started in `[t, t + W]`. -/
def spent (W t : K) (l : List (Use K)) : K :=
  total (fun u => u.marked ∧ t ≤ u.start ∧ u.start ≤ t + W) l

/-- Uses one after another, of which each was admitted by a check at `c` within the budget. The
first check is not before `t₀`. -/
inductive Booked (W B t₀ : K) (marked any : Set K) : List (Use K) → Prop
  | nil : Booked W B t₀ marked any []
  | snoc {l : List (Use K)} {c : K} {u : Use K} (hl : Booked W B t₀ marked any l) (hc : t₀ ≤ c)
      (hfree : ∀ v ∈ l, v.stop ≤ c) (hstart : c ≤ u.start) (hany : u.duration ∈ any)
      (hmarked : u.marked = true → u.duration ∈ marked)
      (hbudget : total (fun v => c - W ≤ v.start) l + u.duration ≤ B) :
      Booked W B t₀ marked any (l ++ [u])

/-- Marked durations that fit the window but for the last, and together with some credit the budget,
fit the share. -/
def FitsShare (W B share : K) (marked any : Set K) : Prop :=
  ∀ ds es : List K, (∀ d ∈ ds, d ∈ marked ∧ 0 ≤ d) → (∀ e ∈ es, e ∈ any ∧ e ≤ 0) →
    ds.dropLast.sum ≤ W → ds.sum + es.sum ≤ B → ds.sum ≤ share

variable {W B t t₀ r share : K} {marked any : Set K} {l : List (Use K)} {u : Use K}
  {p q : Use K → Bool}

/-! ## Totals -/

omit [LinearOrder K] in
theorem total_eq (p : Use K → Bool) (l : List (Use K)) :
    total p l = (l.map fun u => if p u then u.duration else 0).sum := by
  induction l with
  | nil => rfl
  | cons u l ih =>
    rw [total, List.filter_cons, List.map_cons, List.sum_cons, ← ih]
    split_ifs
    · rfl
    · exact (zero_add _).symm

omit [LinearOrder K] in
theorem total_append (p : Use K → Bool) (l l' : List (Use K)) :
    total p (l ++ l') = total p l + total p l' := by
  rw [total, List.filter_append, List.map_append, List.sum_append]
  rfl

omit [LinearOrder K] in
theorem total_singleton (p : Use K → Bool) (u : Use K) :
    total p [u] = if p u then u.duration else 0 := by
  rw [total_eq, List.map_singleton, List.sum_singleton]

omit [LinearOrder K] in
theorem total_of_forall (h : ∀ u ∈ l, p u = true) : total p l = (l.map Use.duration).sum := by
  rw [total, List.filter_eq_self.mpr h]

variable [IsStrictOrderedRing K]

/-- Counting no credit, and nothing but credit, is no more than counting all there is. -/
theorem total_add_total_le (hp : ∀ u ∈ l, p u = true → q u = true) :
    total (fun u => p u && decide (0 ≤ u.duration)) l +
      total (fun u => q u && decide (u.duration ≤ 0)) l ≤ total q l := by
  rw [total_eq, total_eq, total_eq, ← List.sum_map_add]
  refine List.sum_le_sum fun u hu => ?_
  have hpq := hp u hu
  rcases hpu : p u with _ | _ <;> rcases hqu : q u with _ | _ <;>
    simp only [hpu, hqu, Bool.false_and, Bool.true_and, decide_eq_true_eq, Bool.false_eq_true,
      if_true, if_false] at hpq ⊢
  · simp
  · split_ifs with h <;> linarith
  · exact absurd (hpq trivial) (by decide)
  · split_ifs <;> linarith

theorem total_le_total_nonneg (p : Use K → Bool) (l : List (Use K)) :
    total p l ≤ total (fun u => p u && decide (0 ≤ u.duration)) l := by
  rw [total_eq, total_eq]
  refine List.sum_le_sum fun u _ => ?_
  rcases hpu : p u with _ | _
  · simp
  · simp only [Bool.true_and, decide_eq_true_eq, if_true]
    split_ifs <;> linarith

theorem sum_dropLast_le {ds : List K} (h : ∀ d ∈ ds, 0 ≤ d) : ds.dropLast.sum ≤ ds.sum :=
  (List.dropLast_sublist ds).sum_le_sum h

namespace Booked

/-! ## Within the share -/

/-- The uses that are counted, none of which started before `t`, take place until `r`. -/
theorem add_total_le (h : Booked W B t₀ marked any l) (hp : ∀ u ∈ l, p u = true → t ≤ u.start)
    (hr : t ≤ r) (hstop : ∀ u ∈ l, p u = true → u.stop ≤ r) :
    t + total (fun u => p u && decide (0 ≤ u.duration)) l ≤ r := by
  induction h generalizing r with
  | nil => simpa [total] using hr
  | @snoc l c u hl hc hfree hstart hany hmarked hbudget ih =>
    have hp' : ∀ v ∈ l, p v = true → t ≤ v.start :=
      fun v hv => hp v (List.mem_append_left _ hv)
    have hlast : u ∈ l ++ [u] := List.mem_append_right _ (List.mem_singleton_self u)
    rw [total_append, total_singleton]
    rcases hpu : p u with _ | _
    · have hle := ih hp' hr fun v hv => hstop v (List.mem_append_left _ hv)
      simpa using hle
    · -- the uses before it end before it starts
      have hle := ih hp' (hp u hlast hpu) fun v hv _ => (hfree v hv).trans hstart
      have hend : u.start + max 0 u.duration ≤ r := hstop u hlast hpu
      have hmax := le_max_right 0 u.duration
      have hmax' := le_max_left 0 u.duration
      simp only [Bool.true_and, decide_eq_true_eq]
      split_ifs <;> linarith

omit [IsStrictOrderedRing K] in
theorem duration_mem (h : Booked W B t₀ marked any l) :
    ∀ u ∈ l, u.duration ∈ any ∧ (u.marked = true → u.duration ∈ marked) := by
  induction h with
  | nil => exact fun u hu => absurd hu List.not_mem_nil
  | snoc _ _ _ _ hany hmarked _ ih =>
    intro v hv
    rcases List.mem_append.mp hv with hv | hv
    · exact ih v hv
    · rw [List.mem_singleton.mp hv]
      exact ⟨hany, hmarked⟩

theorem sorted (h : Booked W B t₀ marked any l) : l.Pairwise fun u v => u.start ≤ v.start := by
  induction h with
  | nil => exact .nil
  | @snoc l c u _ _ hfree hstart _ _ _ ih =>
    refine List.pairwise_append.mpr ⟨ih, List.pairwise_singleton _ _, fun v hv w hw => ?_⟩
    rw [List.mem_singleton.mp hw]
    exact ((le_add_of_nonneg_right (le_max_left 0 _)).trans (hfree v hv)).trans hstart

omit [IsStrictOrderedRing K] in
/-- The condition at uses that have been booked, and one more. -/
theorem le_of_fits (h : Booked W B t₀ marked any l) (hfits : FitsShare W B share marked any)
    {d : K} (hd : d ∈ marked) (hnonneg : 0 ≤ d) (hp : ∀ u ∈ l, p u = true → u.marked = true)
    (hwindow : total (fun u => p u && decide (0 ≤ u.duration)) l ≤ W)
    (hbudget : total (fun u => p u && decide (0 ≤ u.duration)) l + d +
      total (fun u => q u && decide (u.duration ≤ 0)) l ≤ B) :
    total (fun u => p u && decide (0 ≤ u.duration)) l + d ≤ share := by
  have hds := hfits
    ((l.filter fun u => p u && decide (0 ≤ u.duration)).map Use.duration ++ [d])
    ((l.filter fun u => q u && decide (u.duration ≤ 0)).map Use.duration) ?_ ?_ ?_ ?_
  · rwa [List.sum_append, List.sum_singleton] at hds
  · intro d' hd'
    rcases List.mem_append.mp hd' with hd' | hd'
    · obtain ⟨u, hu, rfl⟩ := List.mem_map.mp hd'
      obtain ⟨hu, hpu⟩ := List.mem_filter.mp hu
      obtain ⟨hpu, hdu⟩ := Bool.and_eq_true_iff.mp hpu
      exact ⟨(h.duration_mem u hu).2 (hp u hu hpu), of_decide_eq_true hdu⟩
    · rw [List.mem_singleton.mp hd']
      exact ⟨hd, hnonneg⟩
  · intro e he
    obtain ⟨u, hu, rfl⟩ := List.mem_map.mp he
    obtain ⟨hu, hqu⟩ := List.mem_filter.mp hu
    exact ⟨(h.duration_mem u hu).1, of_decide_eq_true (Bool.and_eq_true_iff.mp hqu).2⟩
  · rw [List.dropLast_concat]
    exact hwindow
  · rw [List.sum_append, List.sum_singleton]
    exact hbudget

/-- In every window the marked uses are within their share. -/
theorem spent_le (h : Booked W B t₀ marked any l) (hfits : FitsShare W B share marked any)
    (hW : 0 ≤ W) (hB : 0 ≤ B) (t : K) : spent W t l ≤ share := by
  have hshare : 0 ≤ share := by
    simpa using hfits [] [] (by simp) (by simp) (by simpa using hW) (by simpa using hB)
  induction h with
  | nil => exact hshare
  | @snoc l c u hl hc hfree hstart hany hmarked hbudget ih =>
    rw [spent, total_append, total_singleton]
    rw [spent] at ih
    set p : Use K → Bool := fun u => u.marked ∧ t ≤ u.start ∧ u.start ≤ t + W with hp
    have hpu : ∀ v, p v = true → v.marked = true ∧ t ≤ v.start ∧ v.start ≤ t + W :=
      fun v hv => of_decide_eq_true hv
    split_ifs with hcount
    · obtain ⟨hmark, hfirst, hlast⟩ := hpu u hcount
      rcases lt_or_ge u.duration 0 with hneg | hnonneg
      · linarith
      -- what starts in the window is counted by the check, and ends before this use starts
      have hcounted : ∀ v ∈ l, p v = true → decide (c - W ≤ v.start) = true := by
        intro v _ hv
        have hwindow := (hpu v hv).2.1
        rw [decide_eq_true_eq]
        linarith
      have hspaced := hl.add_total_le (fun v _ hv => (hpu v hv).2.1) hfirst
        fun v hv _ => (hfree v hv).trans hstart
      have hbooked := total_add_total_le hcounted
      have hle := hl.le_of_fits hfits (hmarked hmark) hnonneg (fun v _ hv => (hpu v hv).1)
        (by linarith) (by linarith)
      have hall := total_le_total_nonneg p l
      linarith
    · rw [add_zero]
      exact ih

/-! ## Using it up -/

/-- Credit is always admitted, and takes no time. -/
theorem credits (hB : 0 ≤ B) {es : List K} (h : ∀ e ∈ es, e ∈ any ∧ e ≤ 0) :
    Booked W B t₀ marked any (es.map fun e => ⟨false, t₀, e⟩) := by
  induction es using List.reverseRecOn with
  | nil => exact .nil
  | append_singleton es e ih =>
    rw [List.forall_mem_append] at h
    obtain ⟨hes, he⟩ := h
    obtain ⟨hany, hneg⟩ := he e (List.mem_singleton_self e)
    rw [List.map_append, List.map_singleton]
    refine (ih hes).snoc le_rfl (fun v hv => ?_) le_rfl hany (fun hmark => (nomatch hmark)) ?_
    · obtain ⟨e', he', rfl⟩ := List.mem_map.mp hv
      exact (congrArg (t₀ + ·) (max_eq_left (hes e' he').2)).trans (add_zero t₀) |>.le
    · have hle : total (fun v => t₀ - W ≤ v.start) (es.map fun e => ⟨false, t₀, e⟩) ≤ 0 := by
        rw [total_eq, List.map_map]
        refine (List.sum_le_sum (g := fun _ => 0) fun e he => ?_).trans (by simp)
        show (if _ then e else 0) ≤ 0
        split_ifs
        · exact (hes e he).2
        · exact le_rfl
      exact (add_nonpos hle hneg).trans hB

/-- Marked uses, one right after another, that the budget and the credit allow. -/
theorem exists_spent (hB : 0 ≤ B) (hsub : marked ⊆ any) {ds es : List K}
    (hds : ∀ d ∈ ds, d ∈ marked ∧ 0 ≤ d) (hes : ∀ e ∈ es, e ∈ any ∧ e ≤ 0)
    (hwindow : ds.dropLast.sum ≤ W) (hbudget : ds.sum + es.sum ≤ B) :
    ∃ l, Booked W B t₀ marked any l ∧ spent W t₀ l = ds.sum ∧
      (l.map Use.duration).sum = es.sum + ds.sum ∧
      ∀ u ∈ l, t₀ ≤ u.start ∧ u.stop ≤ t₀ + ds.sum := by
  induction ds using List.reverseRecOn with
  | nil =>
    refine ⟨_, credits hB hes, ?_, ?_, fun u hu => ?_⟩
    · rw [spent, total, List.filter_eq_nil_iff.mpr]
      · rfl
      · intro u hu
        obtain ⟨e, -, rfl⟩ := List.mem_map.mp hu
        simp
    · rw [List.map_map, List.sum_nil, add_zero]
      exact congrArg List.sum (List.map_id es)
    · obtain ⟨e, he, rfl⟩ := List.mem_map.mp hu
      refine ⟨le_rfl, ?_⟩
      rw [Use.stop, max_eq_left (hes e he).2, List.sum_nil]
  | append_singleton ds d ih =>
    rw [List.forall_mem_append] at hds
    obtain ⟨hds, hd⟩ := hds
    obtain ⟨hmarked, hnonneg⟩ := hd d (List.mem_singleton_self d)
    have hsum : 0 ≤ ds.sum := List.sum_nonneg fun d hd => (hds d hd).2
    rw [List.dropLast_concat] at hwindow
    rw [List.sum_append, List.sum_singleton] at hbudget ⊢
    obtain ⟨l, hl, hspent, htotal, hall⟩ :=
      ih hds ((sum_dropLast_le fun d hd => (hds d hd).2).trans hwindow) (by linarith)
    refine ⟨l ++ [⟨true, t₀ + ds.sum, d⟩], ?_, ?_, ?_, fun u hu => ?_⟩
    · refine hl.snoc (c := t₀ + ds.sum) (by linarith) (fun v hv => (hall v hv).2) le_rfl
        (hsub hmarked) (fun _ => hmarked) ?_
      rw [total_of_forall fun v hv => decide_eq_true (by linarith [(hall v hv).1]), htotal]
      linarith
    · rw [spent, total_append, total_singleton, ← spent, hspent, if_pos]
      exact decide_eq_true ⟨rfl, by linarith, by linarith⟩
    · rw [List.map_append, List.sum_append, htotal, List.map_singleton, List.sum_singleton]
      exact add_assoc _ _ _
    · rcases List.mem_append.mp hu with hu | hu
      · obtain ⟨hstart, hstop⟩ := hall u hu
        exact ⟨hstart, hstop.trans (by linarith)⟩
      · rw [List.mem_singleton.mp hu, Use.stop, max_eq_right hnonneg]
        exact ⟨by linarith, (add_assoc _ _ _).le⟩

end Booked

/-- Marked uses keep to their share in every window, whatever is booked, exactly when what fits the
window and the budget fits the share. -/
theorem fitsShare_iff (t₀ : K) (hW : 0 ≤ W) (hB : 0 ≤ B) (hsub : marked ⊆ any) :
    (∀ l, Booked W B t₀ marked any l → ∀ t, spent W t l ≤ share) ↔
      FitsShare W B share marked any := by
  constructor
  · intro h ds es hds hes hwindow hbudget
    obtain ⟨l, hl, hspent, -⟩ : ∃ l, Booked W B t₀ marked any l ∧ spent W t₀ l = ds.sum ∧ _ :=
      Booked.exists_spent hB hsub hds hes hwindow hbudget
    rw [← hspent]
    exact h l hl t₀
  · intro hfits l hl t
    exact hl.spent_le hfits hW hB t

/-! ## Without credit -/

/-- Where every duration is positive, the condition is about the marked durations and the budget
alone. -/
theorem fitsShare_iff_of_pos (hpos : ∀ d ∈ any, 0 < d) (hsub : marked ⊆ any) (hBW : B ≤ W) :
    FitsShare W B share marked any ↔
      ∀ ds : List K, (∀ d ∈ ds, d ∈ marked) → ds.sum ≤ B → ds.sum ≤ share := by
  constructor
  · intro h ds hds hbudget
    have hnonneg : ∀ d ∈ ds, 0 ≤ d := fun d hd => (hpos d (hsub (hds d hd))).le
    refine h ds [] (fun d hd => ⟨hds d hd, hnonneg d hd⟩) (fun e he => (nomatch he)) ?_ (by simpa)
    exact (sum_dropLast_le hnonneg).trans (hbudget.trans hBW)
  · intro h ds es hds hes _ hbudget
    obtain rfl : es = [] := List.eq_nil_iff_forall_not_mem.mpr fun e he =>
      absurd (hpos e (hes e he).1) (hes e he).2.not_gt
    exact h ds (fun d hd => (hds d hd).1) (by simpa using hbudget)

/-- One duration is used as often as the budget allows. -/
theorem fitsShare_iff_floor [FloorSemiring K] {d : K} (hpos : ∀ d ∈ any, 0 < d) (hd : d ∈ any)
    (hBW : B ≤ W) (hB : 0 ≤ B) :
    FitsShare W B share {d} any ↔ ⌊B / d⌋₊ * d ≤ share := by
  rw [fitsShare_iff_of_pos hpos (Set.singleton_subset_iff.mpr hd) hBW]
  have hdpos := hpos d hd
  constructor
  · intro h
    have hle := h (List.replicate ⌊B / d⌋₊ d) (fun e he => List.eq_of_mem_replicate he)
    rw [List.sum_replicate, nsmul_eq_mul] at hle
    refine hle ?_
    rw [← le_div_iff₀ hdpos]
    exact Nat.floor_le (div_nonneg hB hdpos.le)
  · intro h ds hds hbudget
    obtain ⟨n, rfl⟩ : ∃ n, ds = List.replicate n d := ⟨_, List.eq_replicate_of_mem hds⟩
    rw [List.sum_replicate, nsmul_eq_mul] at hbudget ⊢
    refine le_trans ?_ h
    refine mul_le_mul_of_nonneg_right (Nat.cast_le.mpr ?_) hdpos.le
    exact Nat.le_floor ((le_div_iff₀ hdpos).mpr hbudget)

end Chatbit.Lib
