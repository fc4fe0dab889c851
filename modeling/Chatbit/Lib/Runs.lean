import Mathlib.Logic.Relation

/-!
# Runs

A run is a sequence of steps, each of which is an event that the environment may choose in the
current state. Safety of a run is one induction, done here: a property of the first state that
every admissible event preserves holds in every state that a run reaches.
-/

namespace Chatbit.Lib

variable {σ ε : Type}

/-- One step of a system: an admissible event, applied. -/
def StepBy (admissible : σ → ε → Prop) (step : σ → ε → σ) (s t : σ) : Prop :=
  ∃ e, admissible s e ∧ t = step s e

/-- The states that runs from `s` reach. -/
def Reaches (admissible : σ → ε → Prop) (step : σ → ε → σ) : σ → σ → Prop :=
  Relation.ReflTransGen (StepBy admissible step)

variable {admissible : σ → ε → Prop} {step : σ → ε → σ}

theorem Reaches.refl (s : σ) : Reaches admissible step s s := Relation.ReflTransGen.refl

theorem Reaches.tail {s t : σ} (h : Reaches admissible step s t) {e : ε}
    (he : admissible t e) : Reaches admissible step s (step t e) :=
  Relation.ReflTransGen.tail h ⟨e, he, rfl⟩

/-- A run by a list of events that are admissible anywhere. -/
theorem Reaches.foldl {s t : σ} (h : Reaches admissible step s t) {es : List ε}
    (hes : ∀ e ∈ es, ∀ u, admissible u e) : Reaches admissible step s (es.foldl step t) := by
  induction es generalizing t with
  | nil => exact h
  | cons e es ih =>
    exact ih (h.tail (hes e List.mem_cons_self t)) fun e he => hes e (List.mem_cons_of_mem _ he)

/-- A run stays one where more events are admissible. -/
theorem Reaches.mono {admissible' : σ → ε → Prop} {s t : σ} (h : Reaches admissible step s t)
    (hle : ∀ u e, admissible u e → admissible' u e) : Reaches admissible' step s t := by
  induction h with
  | refl => exact .refl s
  | tail _ hst ih =>
    obtain ⟨e, he, rfl⟩ := hst
    exact ih.tail (hle _ e he)

/-- Each event of a list is admissible when its turn comes. -/
def AdmitsAll (admissible : σ → ε → Prop) (step : σ → ε → σ) : σ → List ε → Prop
  | _, [] => True
  | s, e :: es => admissible s e ∧ AdmitsAll admissible step (step s e) es

instance [∀ s e, Decidable (admissible s e)] :
    ∀ (s : σ) (es : List ε), Decidable (AdmitsAll admissible step s es)
  | _, [] => inferInstanceAs (Decidable True)
  | s, e :: es =>
    have : Decidable (AdmitsAll admissible step (step s e) es) := instDecidableAdmitsAll _ es
    inferInstanceAs (Decidable (_ ∧ _))

theorem Reaches.run {s t : σ} (h : Reaches admissible step s t) {es : List ε}
    (hes : AdmitsAll admissible step t es) : Reaches admissible step s (es.foldl step t) := by
  induction es generalizing t with
  | nil => exact h
  | cons e es ih => exact ih (h.tail hes.1) hes.2

/-- What holds at first and is preserved by each step holds throughout. -/
theorem Reaches.invariant {I : σ → Prop} {s t : σ} (h : Reaches admissible step s t) (hs : I s)
    (hstep : ∀ u e, I u → admissible u e → I (step u e)) : I t := by
  induction h with
  | refl => exact hs
  | tail _ hst ih =>
    obtain ⟨e, he, rfl⟩ := hst
    exact hstep _ e ih he

/-- A property of the states that exactly the admissible events preserve holds throughout a run
exactly when each event is admissible. -/
theorem forall_take_iff {I : σ → Prop} {s : σ} (hs : I s)
    (hstep : ∀ u e, I u → (I (step u e) ↔ admissible u e)) (es : List ε) :
    (∀ n, I ((es.take n).foldl step s)) ↔ AdmitsAll admissible step s es := by
  induction es generalizing s with
  | nil => exact iff_of_true (fun n => by rwa [List.take_nil]) trivial
  | cons e es ih =>
    constructor
    · intro h
      have hnext : I (step s e) := h 1
      exact ⟨(hstep s e hs).mp hnext, (ih hnext).mp fun n => h (n + 1)⟩
    · rintro ⟨he, hes⟩ (_ | n)
      · exact hs
      · exact (ih ((hstep s e hs).mpr he)).mpr hes n

end Chatbit.Lib
