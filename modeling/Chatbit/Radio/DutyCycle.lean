import Mathlib.Data.Real.Basic
import Chatbit.Lib.BoundedLog
import Chatbit.Lib.SlidingWindow
import Chatbit.Radio.Airtime

/-!
# Duty-cycle compliance

`LoRaTransport.send` holds a lock from the check of the governor until the transmission is over, so
transmissions do not overlap. The governor keeps the transmissions that started less than a window
before its last check (`Run.events`), which makes them `Budgeted`: in every window the time on air
is within the budget.
-/

namespace Chatbit

open Lib

namespace DutyCycleGovernor

variable {β : Type} {g₀ g g' : DutyCycleGovernor} {ready c r d x duty : ℚ} {l : List (ℚ × ℚ)}

/-- The calls that a transport makes of its governor, and its transmissions as the times at which
they were recorded and their durations. The next check is not before `ready`. -/
inductive Run (β : Type) (g₀ : DutyCycleGovernor) : DutyCycleGovernor → ℚ → List (ℚ × ℚ) → Prop
  | start (ready : ℚ) : Run β g₀ g₀ ready []
  /-- A transmission is checked at `c` and recorded at `r`, and is on air from then on. -/
  | sent {g g₁ g₂ : DutyCycleGovernor} {ready c r d : ℚ} {l : List (ℚ × ℚ)}
      (run : Run β g₀ g ready l) (hready : ready ≤ c) (hc : c ≤ r) (hd : 0 ≤ d)
      (hcheck : check (β := β) d c g = (.ok (), g₁))
      (hrecord : record (β := β) d r g₁ = (.ok (), g₂)) :
      Run β g₀ g₂ (r + d) (l ++ [(r, d)])
  | refused {g g₁ : DutyCycleGovernor} {ready c d : ℚ} {l : List (ℚ × ℚ)} {err : Exc β}
      (run : Run β g₀ g ready l) (hready : ready ≤ c)
      (hcheck : check (β := β) d c g = (.error err, g₁)) : Run β g₀ g₁ c l

/-! ## The events -/

/-- Pruning a sequence in the order of time leaves what started late enough. -/
lemma dropWhile_eq_filter (h : l.Pairwise fun e e' => e.1 ≤ e'.1) (x : ℚ) :
    (l.dropWhile fun e => e.1 < x) = l.filter fun e => x ≤ e.1 := by
  have hexpires : Expires (fun e : ℚ × ℚ => decide (e.1 < x)) l := by
    refine h.imp ?_
    intro e e' hle hold
    rw [decide_eq_true_eq] at hold ⊢
    exact hle.trans_lt hold
  rw [hexpires.dropWhile]
  apply List.filter_congr
  intro e _
  rw [Bool.eq_iff_iff]
  simp

/-- The governor keeps the transmissions since `x`. -/
def KeepsSince (g : DutyCycleGovernor) (x : ℚ) (l : List (ℚ × ℚ)) : Prop :=
  g.events = l.filter fun e => x ≤ e.1

lemma KeepsSince.prune (h : KeepsSince g x l) (hsorted : l.Pairwise fun e e' => e.1 ≤ e'.1)
    (hx : x ≤ c - g.windowSeconds) : KeepsSince (prune c g) (c - g.windowSeconds) l := by
  unfold KeepsSince DutyCycleGovernor.prune
  simp only
  rw [h, dropWhile_eq_filter (hsorted.sublist List.filter_sublist), List.filter_filter]
  apply List.filter_congr
  intro e _
  simp only [Bool.and_eq_left_iff_imp, decide_eq_true_eq]
  exact hx.trans

/-- What a check within the dwell limit compares, and what it raises. -/
lemma check_apply (hdwell : g.dwellViolation d = false) (hduty : g.dutyCycle = some duty) :
    check (β := β) d c g =
      (if ((prune c g).events.map Prod.snd).sum + d ≤ duty * g.windowSeconds then .ok ()
        else .error (.dutyCycleExceeded (waitSeconds g.windowSeconds c
          (((prune c g).events.map Prod.snd).sum + d - duty * g.windowSeconds) 0
          (prune c g).events)), prune c g) := by
  unfold check
  rw [Method.self_bind, if_neg (by simp [hdwell]), hduty]
  simp only
  rw [Method.update_bind, Method.self_bind]
  by_cases hfits : ((prune c g).events.map Prod.snd).sum + d ≤ duty * g.windowSeconds
  · rw [if_pos hfits]
    exact congrFun (if_pos hfits) _
  · rw [if_neg hfits]
    exact congrFun (if_neg hfits) _

/-- What a check leaves, and what it has compared when it passes. -/
lemma check_cases (hduty : g.dutyCycle = some duty) :
    (∃ err, check (β := β) d c g = (.error err, g)) ∨
    (∃ err, check (β := β) d c g = (.error err, prune c g)) ∨
    (g.dwellViolation d = false ∧
      ((prune c g).events.map Prod.snd).sum + d ≤ duty * g.windowSeconds ∧
      check (β := β) d c g = (.ok (), prune c g)) := by
  rcases hdwell : g.dwellViolation d with _ | _
  · rw [check_apply hdwell hduty]
    split_ifs with hfits
    · exact Or.inr (Or.inr ⟨rfl, hfits, rfl⟩)
    · exact Or.inr (Or.inl ⟨_, rfl⟩)
  · rw [check, Method.self_bind, if_pos hdwell]
    exact Or.inl ⟨_, rfl⟩

/-! ## Runs -/

/-- A transmission as an interval of real time. -/
def onAir (e : ℚ × ℚ) : ℝ × ℝ := (e.1, e.2)

/-- What the check adds up, in real time. -/
lemma sum_onAir (x : ℚ) (l : List (ℚ × ℚ)) :
    (((l.map onAir).filter fun e => (x : ℝ) ≤ e.1).map Prod.snd).sum =
      (((l.filter fun e => x ≤ e.1).map Prod.snd).sum : ℚ) := by
  induction l with
  | nil => simp
  | cons e l ih =>
    rw [List.map_cons, List.filter_cons, List.filter_cons]
    by_cases h : x ≤ e.1
    · have hcast : (x : ℝ) ≤ (onAir e).1 := Rat.cast_le.mpr h
      rw [if_pos (decide_eq_true hcast), if_pos (decide_eq_true h), List.map_cons, List.sum_cons,
        List.map_cons, List.sum_cons, Rat.cast_add, ih]
      rfl
    · have hcast : ¬ (x : ℝ) ≤ (onAir e).1 := fun hle => h (Rat.cast_le.mp hle)
      rw [if_neg (by simpa using hcast), if_neg (by simpa using h)]
      exact ih

/-- What holds of a governor in a run. -/
structure Invariant (g₀ g : DutyCycleGovernor) (duty ready : ℚ) (l : List (ℚ × ℚ)) : Prop where
  dutyCycle : g.dutyCycle = some duty
  windowSeconds : g.windowSeconds = g₀.windowSeconds
  sorted : l.Pairwise fun e e' => e.1 ≤ e'.1
  ended : ∀ e ∈ l, e.1 ≤ ready ∧ e.1 + e.2 ≤ ready
  keeps : ∃ x ≤ ready - g.windowSeconds, KeepsSince g x l
  budgeted : Budgeted (g.windowSeconds : ℝ) (duty * g.windowSeconds) (l.map onAir)

namespace Invariant

/-- Time passes. -/
lemma prune (h : Invariant g₀ g duty ready l) (hready : ready ≤ c) :
    Invariant g₀ (prune c g) duty c l := by
  obtain ⟨x, hx, hkeeps⟩ := h.keeps
  have hx' : x ≤ c - g.windowSeconds := hx.trans (sub_le_sub_right hready _)
  refine ⟨h.dutyCycle, h.windowSeconds, h.sorted, fun e he => ?_,
    ⟨c - g.windowSeconds, le_rfl, hkeeps.prune h.sorted hx'⟩, h.budgeted⟩
  obtain ⟨hstart, hend⟩ := h.ended e he
  exact ⟨hstart.trans hready, hend.trans hready⟩

lemma sent (h : Invariant g₀ g duty ready l) (hready : ready ≤ c) (hc : c ≤ r) (hd : 0 ≤ d)
    (hwindow : 0 ≤ g.windowSeconds)
    (hbudget : (((DutyCycleGovernor.prune c g).events.map Prod.snd).sum + d ≤
      duty * g.windowSeconds)) :
    Invariant g₀ (record (β := β) d r (DutyCycleGovernor.prune c g)).2 duty (r + d)
      (l ++ [(r, d)]) := by
  have hsorted : (l ++ [(r, d)]).Pairwise fun e e' => e.1 ≤ e'.1 := by
    rw [List.pairwise_append]
    refine ⟨h.sorted, List.pairwise_singleton _ _, fun e he e' he' => ?_⟩
    rw [List.mem_singleton.mp he']
    exact ((h.ended e he).1.trans hready).trans hc
  obtain ⟨x, hx, hkeeps⟩ := h.keeps
  have hkept := hkeeps.prune (c := c) h.sorted (hx.trans (sub_le_sub_right hready _))
  refine ⟨h.dutyCycle, h.windowSeconds, hsorted, ?_, ?_, ?_⟩
  · intro e he
    rcases List.mem_append.mp he with he | he
    · obtain ⟨hstart, hend⟩ := h.ended e he
      constructor <;> linarith
    · rw [List.mem_singleton.mp he]
      constructor <;> simp [hd]
  · -- the transmission itself is kept, and the others as before
    refine ⟨r - g.windowSeconds, by show _ ≤ r + d - g.windowSeconds; linarith, ?_⟩
    have happend : KeepsSince { DutyCycleGovernor.prune c g with
        events := (DutyCycleGovernor.prune c g).events ++ [(r, d)] } (c - g.windowSeconds)
        (l ++ [(r, d)]) := by
      unfold KeepsSince
      have hself : c - g.windowSeconds ≤ r := by linarith
      rw [hkept, List.filter_append, List.filter_singleton, decide_eq_true hself]
      rfl
    exact happend.prune (c := r) hsorted (sub_le_sub_right hc _)
  · show Budgeted (g.windowSeconds : ℝ) (duty * g.windowSeconds) _
    rw [List.map_append, List.map_singleton]
    refine Budgeted.snoc (c := (c : ℝ)) h.budgeted ?_ ?_ ?_ ?_
    · intro e he
      obtain ⟨e', he', rfl⟩ := List.mem_map.mp he
      have hend := (h.ended e' he').2.trans hready
      show (e'.1 : ℝ) + (e'.2 : ℝ) ≤ c
      exact_mod_cast hend
    · exact_mod_cast hc
    · exact_mod_cast hd
    · have hsum := sum_onAir (c - g.windowSeconds) l
      rw [← hkept] at hsum
      rw [Rat.cast_sub] at hsum
      rw [hsum]
      exact_mod_cast hbudget

end Invariant

/-- Every run of a governor with a duty cycle keeps the invariant. -/
lemma Run.invariant (h : Run β g₀ g ready l) (hevents : g₀.events = [])
    (hduty : g₀.dutyCycle = some duty) (hwindow : 0 ≤ g₀.windowSeconds) :
    Invariant g₀ g duty ready l := by
  induction h with
  | start ready =>
    refine ⟨hduty, rfl, .nil, fun e he => absurd he List.not_mem_nil, ?_, .nil⟩
    exact ⟨ready - g₀.windowSeconds, le_rfl, hevents⟩
  | @sent g g₁ g₂ ready c r d l run hready hc hd hcheck hrecord ih =>
    rcases check_cases (β := β) (c := c) (d := d) ih.dutyCycle with
      ⟨err, h⟩ | ⟨err, h⟩ | ⟨-, hbudget, h⟩
    · rw [h] at hcheck; cases hcheck
    · rw [h] at hcheck; cases hcheck
    · obtain ⟨-, rfl⟩ := Prod.mk.inj (h.symm.trans hcheck)
      have hsent := ih.sent (β := β) hready hc hd (ih.windowSeconds ▸ hwindow) hbudget
      rwa [hrecord] at hsent
  | @refused g g₁ ready c d l err run hready hcheck ih =>
    rcases check_cases (β := β) (c := c) (d := d) ih.dutyCycle with
      ⟨err, h⟩ | ⟨err, h⟩ | ⟨-, -, h⟩
    · obtain ⟨-, rfl⟩ := Prod.mk.inj (h.symm.trans hcheck)
      obtain ⟨x, hx, hkeeps⟩ := ih.keeps
      refine ⟨ih.dutyCycle, ih.windowSeconds, ih.sorted, fun e he => ?_,
        ⟨x, hx.trans (sub_le_sub_right hready _), hkeeps⟩, ih.budgeted⟩
      obtain ⟨hstart, hend⟩ := ih.ended e he
      exact ⟨hstart.trans hready, hend.trans hready⟩
    · obtain ⟨-, rfl⟩ := Prod.mk.inj (h.symm.trans hcheck)
      exact ih.prune hready
    · rw [h] at hcheck; cases hcheck

/-- In every window of real time, at any offset, the time on air is at most the duty cycle's part
of the window. -/
theorem onAir_le (h : Run β g₀ g ready l) (hevents : g₀.events = [])
    (hduty : g₀.dutyCycle = some duty) (hnonneg : 0 ≤ duty) (hwindow : 0 ≤ g₀.windowSeconds)
    (t : ℝ) :
    occupied (g₀.windowSeconds : ℝ) t (l.map onAir) ≤ duty * g₀.windowSeconds := by
  have hinv := h.invariant hevents hduty hwindow
  have hbudgeted := hinv.budgeted
  rw [hinv.windowSeconds] at hbudgeted
  apply hbudgeted.occupied_le
  exact_mod_cast mul_nonneg hnonneg hwindow

/-- A tenth of ten seconds: the first transmission uses up most of it, the second is refused, and
is sent when the first has aged out. -/
theorem onAir_le_tenth :
    ∃ g, Run UInt8 { dutyCycle := some (1 / 10), windowSeconds := 10 } g (58 / 5)
        [(0, 3 / 5), (11, 3 / 5)] ∧
      occupied ((10 : ℚ) : ℝ) (1 / 5) ([(0, 3 / 5), (11, 3 / 5)].map onAir) ≤
        ((1 / 10 : ℚ) : ℝ) * ((10 : ℚ) : ℝ) := by
  let g₀ : DutyCycleGovernor := { dutyCycle := some (1 / 10), windowSeconds := 10 }
  let g₁ : DutyCycleGovernor := { g₀ with events := [(0, 3 / 5)] }
  let g₂ : DutyCycleGovernor := { g₀ with events := [(11, 3 / 5)] }
  have hfirst : Run UInt8 g₀ g₁ (0 + 3 / 5) ([] ++ [(0, 3 / 5)]) :=
    .sent (c := 0) (.start 0) (by norm_num) (by norm_num) (by norm_num)
      (show check (3 / 5) 0 g₀ = (.ok (), g₀) by decide +kernel) (by decide +kernel)
  have hrefused : Run UInt8 g₀ g₁ 1 ([] ++ [(0, 3 / 5)]) :=
    hfirst.refused (by norm_num)
      (show check (3 / 5) 1 g₁ = (.error (.dutyCycleExceeded 9), g₁) by decide +kernel)
  have hsecond : Run UInt8 g₀ g₂ (11 + 3 / 5) ([] ++ [(0, 3 / 5)] ++ [(11, 3 / 5)]) :=
    hrefused.sent (c := 11) (by norm_num) (by norm_num) (by norm_num)
      (show check (3 / 5) 11 g₁ = (.ok (), g₀) by decide +kernel) (by decide +kernel)
  have hready : (11 : ℚ) + 3 / 5 = 58 / 5 := by norm_num
  rw [hready] at hsecond
  exact ⟨g₂, hsecond, onAir_le hsecond rfl rfl (by norm_num) (by norm_num) _⟩

end DutyCycleGovernor

end Chatbit
