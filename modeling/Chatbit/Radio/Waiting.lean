import Chatbit.Radio.DutyCycle

/-!
# Waiting for the duty cycle

The governor works out in one loop how long a refused transmission has to wait, and lets events age
out in another. The wait it reports is the time after which enough has aged out, to the instant
(`check_after_wait`).
-/

namespace Chatbit

open Lib

namespace DutyCycleGovernor

variable {β : Type} {g g' : DutyCycleGovernor} {a d now freed needed w duty window : ℚ}
  {l : List (ℚ × ℚ)}

/-- Events in the order of time, none of them after `now`, each of which takes some time. -/
structure History (now : ℚ) (l : List (ℚ × ℚ)) : Prop where
  sorted : l.Pairwise fun e e' => e.1 ≤ e'.1
  past : ∀ e ∈ l, e.1 ≤ now
  positive : ∀ e ∈ l, 0 < e.2

/-- The airtime of the events since `x`. -/
def usedSince (x : ℚ) (l : List (ℚ × ℚ)) : ℚ := ((l.filter fun e => x ≤ e.1).map Prod.snd).sum

/-- The airtime of the events before `x`. -/
def usedBefore (x : ℚ) (l : List (ℚ × ℚ)) : ℚ := ((l.filter fun e => e.1 < x).map Prod.snd).sum

lemma usedBefore_add_usedSince (x : ℚ) (l : List (ℚ × ℚ)) :
    usedBefore x l + usedSince x l = (l.map Prod.snd).sum := by
  induction l with
  | nil => exact add_zero 0
  | cons e l ih =>
    unfold usedBefore usedSince at ih ⊢
    rw [List.filter_cons, List.filter_cons, List.map_cons, List.sum_cons, ← ih]
    by_cases h : e.1 < x
    · rw [if_pos (decide_eq_true h), if_neg (by simpa using h), List.map_cons, List.sum_cons]
      ring
    · rw [if_neg (by simpa using h), if_pos (decide_eq_true (not_lt.mp h)), List.map_cons,
        List.sum_cons]
      ring

lemma usedBefore_nonneg (x : ℚ) (h : ∀ e ∈ l, 0 < e.2) : 0 ≤ usedBefore x l := by
  apply List.sum_nonneg
  intro duration hduration
  obtain ⟨e, he, rfl⟩ := List.mem_map.mp hduration
  exact (h e (List.mem_of_mem_filter he)).le

/-- Before the first event there is nothing. -/
lemma usedBefore_of_le {e : ℚ × ℚ} {x : ℚ} (h : (e :: l).Pairwise fun e e' => e.1 ≤ e'.1)
    (hx : x ≤ e.1) : usedBefore x (e :: l) = 0 := by
  have hnone : ((e :: l).filter fun e => e.1 < x) = [] := by
    apply List.filter_eq_nil_iff.mpr
    intro e' he'
    have hle : e.1 ≤ e'.1 := by
      rcases List.mem_cons.mp he' with rfl | he'
      · exact le_rfl
      · exact (List.pairwise_cons.mp h).1 e' he'
    simpa using hx.trans hle
  rw [usedBefore, hnone]
  rfl

/-! ## The loop -/

/-- The loop stops at the event whose end of life frees enough. -/
lemma waitSeconds_lt_iff (hsorted : l.Pairwise fun e e' => e.1 ≤ e'.1)
    (hpositive : ∀ e ∈ l, 0 < e.2) (hkept : ∀ e ∈ l, now - window ≤ e.1) (hfreed : freed < needed)
    (henough : needed ≤ freed + (l.map Prod.snd).sum) :
    waitSeconds window now needed freed l < d ↔
      needed ≤ freed + usedBefore (now + d - window) l := by
  induction l generalizing freed with
  | nil =>
    -- nothing is left that could free anything
    simp only [List.map_nil, List.sum_nil, add_zero] at henough
    exact absurd henough (not_le.mpr hfreed)
  | cons e l ih =>
    obtain ⟨timestamp, duration⟩ := e
    obtain ⟨hfirst, hrest⟩ := List.pairwise_cons.mp hsorted
    obtain ⟨hduration, hpositive'⟩ := List.forall_mem_cons.mp hpositive
    obtain ⟨hkept₁, hkept'⟩ := List.forall_mem_cons.mp hkept
    simp only at hduration hkept₁
    rw [List.map_cons, List.sum_cons, ← add_assoc] at henough
    have hcons : timestamp < now + d - window →
        usedBefore (now + d - window) ((timestamp, duration) :: l) =
          duration + usedBefore (now + d - window) l := by
      intro h
      unfold usedBefore
      rw [List.filter_cons_of_pos (by simpa using h), List.map_cons, List.sum_cons]
    unfold waitSeconds
    by_cases hdone : freed + duration ≥ needed
    · rw [if_pos hdone, max_eq_right (by linarith)]
      by_cases hage : timestamp < now + d - window
      · -- the event is old enough, and so are those before it
        rw [hcons hage]
        have hnonneg := usedBefore_nonneg (now + d - window) hpositive'
        constructor <;> intro _ <;> linarith
      · rw [usedBefore_of_le hsorted (not_lt.mp hage)]
        constructor <;> intro _ <;> linarith
    · rw [if_neg hdone, ih hrest hpositive' hkept' (not_le.mp hdone) henough]
      by_cases hage : timestamp < now + d - window
      · rw [hcons hage, add_assoc]
      · -- the later events are kept as long as this one
        have hle : usedBefore (now + d - window) l ≤ 0 := by
          rcases l with _ | ⟨e, l⟩
          · exact le_rfl
          · have hlater : now + d - window ≤ e.1 :=
              (not_lt.mp hage).trans (hfirst e List.mem_cons_self)
            exact (usedBefore_of_le hrest hlater).le
        rw [usedBefore_of_le hsorted (not_lt.mp hage)]
        rw [ge_iff_le, not_le] at hdone
        constructor <;> intro _ <;> linarith

/-! ## The check -/

lemma events_prune (h : g.events.Pairwise fun e e' => e.1 ≤ e'.1) :
    (prune now g).events = g.events.filter fun e => now - g.windowSeconds ≤ e.1 :=
  dropWhile_eq_filter h _

/-- A check that is refused with a wait, within the budget: the same check passes after every longer
delay, and is refused after every other. -/
theorem check_after_wait (hhistory : History now g.events)
    (hbudget : ∀ duty ∈ g.dutyCycle, a ≤ duty * g.windowSeconds)
    (hdwell : g.dwellViolation a = false)
    (hcheck : check (β := β) a now g = (.error (.dutyCycleExceeded w), g')) :
    ∀ d, 0 ≤ d →
      (w < d → (check (β := β) a (now + d) g').1 = .ok ()) ∧
      (d ≤ w → ∃ w', (check (β := β) a (now + d) g').1 = .error (.dutyCycleExceeded w')) := by
  intro d _
  rcases hduty : g.dutyCycle with _ | duty
  · -- without a duty cycle nothing is refused
    unfold check at hcheck
    rw [Method.self_bind, if_neg (by simp [hdwell]), hduty] at hcheck
    cases hcheck
  have hbudget := hbudget duty hduty
  rw [check_apply hdwell hduty] at hcheck
  by_cases hfits : ((prune now g).events.map Prod.snd).sum + a ≤ duty * g.windowSeconds
  · rw [if_pos hfits] at hcheck
    cases hcheck
  rw [if_neg hfits] at hcheck
  obtain ⟨hw, rfl⟩ := Prod.mk.inj hcheck
  obtain rfl := Exc.dutyCycleExceeded.inj (Except.error.inj hw)
  -- what has been kept, and what of it is kept later
  have hevents : (prune now g).events = g.events.filter fun e => now - g.windowSeconds ≤ e.1 :=
    events_prune hhistory.sorted
  have hsorted : (prune now g).events.Pairwise fun e e' => e.1 ≤ e'.1 := by
    rw [hevents]
    exact hhistory.sorted.sublist List.filter_sublist
  have hpositive : ∀ e ∈ (prune now g).events, 0 < e.2 := by
    rw [hevents]
    exact fun e he => hhistory.positive e (List.mem_of_mem_filter he)
  have hkept : ∀ e ∈ (prune now g).events, now - g.windowSeconds ≤ e.1 := by
    rw [hevents]
    exact fun e he => by simpa using (List.mem_filter.mp he).2
  have hlater : ((prune (now + d) (prune now g)).events.map Prod.snd).sum =
      usedSince (now + d - g.windowSeconds) (prune now g).events := by
    rw [events_prune hsorted]
    rfl
  have hsplit := usedBefore_add_usedSince (now + d - g.windowSeconds) (prune now g).events
  have hloop : waitSeconds g.windowSeconds now
        (((prune now g).events.map Prod.snd).sum + a - duty * g.windowSeconds) 0
        (prune now g).events < d ↔
      ((prune now g).events.map Prod.snd).sum + a - duty * g.windowSeconds ≤
        0 + usedBefore (now + d - g.windowSeconds) (prune now g).events :=
    waitSeconds_lt_iff hsorted hpositive hkept (by linarith) (by linarith)
  rw [check_apply (g := prune now g) hdwell hduty, hlater]
  constructor
  · intro hlong
    have hfreed := hloop.mp hlong
    exact if_pos (by show _ ≤ duty * g.windowSeconds; linarith)
  · intro hshort
    have hfreed := fun h => not_lt.mpr hshort (hloop.mpr h)
    exact ⟨_, if_neg fun h => hfreed (by
      change _ ≤ duty * g.windowSeconds at h
      linarith)⟩

/-- A tenth of ten seconds, taken up by two events at the same instant: both have to age out. -/
theorem check_after_wait_tie :
    let g : DutyCycleGovernor :=
      { dutyCycle := some (1 / 10), windowSeconds := 10, events := [(0, 3 / 10), (0, 3 / 10)] }
    check (β := UInt8) 1 1 g = (.error (.dutyCycleExceeded 9), g) ∧ ∀ d, 0 ≤ d →
      (9 < d → (check (β := UInt8) 1 (1 + d) g).1 = .ok ()) ∧
      (d ≤ 9 → ∃ w', (check (β := UInt8) 1 (1 + d) g).1 = .error (.dutyCycleExceeded w')) := by
  intro g
  have hcheck : check (β := UInt8) 1 1 g = (.error (.dutyCycleExceeded 9), g) := by
    decide +kernel
  have hhistory : History 1 g.events := by
    constructor <;> norm_num [g]
  refine ⟨hcheck, check_after_wait hhistory ?_ rfl hcheck⟩
  intro duty hduty
  obtain rfl := Option.some.inj hduty
  norm_num [g]

end DutyCycleGovernor

end Chatbit
