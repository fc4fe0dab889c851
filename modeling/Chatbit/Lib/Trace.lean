import Chatbit.Lib.Method

/-!
# Methods with a trace

To count what a method does, or to follow it, the method is written once more with a trace beside
the object. `Traces` says that the copy is the method but for its trace, and holds of a whole body
when it holds of its statements.
-/

namespace Chatbit.Lib

namespace Method

variable {ε σ τ α γ : Type}

/-- The method, on the object beside a trace. -/
def beside (m : Method ε σ α) : Method ε (σ × List τ) α :=
  onField Prod.fst (fun s t => (s, t.2)) m

/-- Note an event at the end of the trace. -/
def emit (event : τ) : Method ε (σ × List τ) Unit := update fun t => (t.1, t.2 ++ [event])

/-- The traced method is `m` but for its trace, to which it adds so many events at most. -/
def Traces (bound : ℕ) (traced : Method ε (σ × List τ) α) (m : Method ε σ α) : Prop :=
  ∀ s trace, ∃ events, events.length ≤ bound ∧
    traced (s, trace) = ((m s).1, ((m s).2, trace ++ events))

variable {bound bound' : ℕ} {traced : Method ε (σ × List τ) α} {m : Method ε σ α}

theorem Traces.mono (h : Traces bound traced m) (hle : bound ≤ bound') :
    Traces bound' traced m := by
  intro s trace
  obtain ⟨events, hlen, heq⟩ := h s trace
  exact ⟨events, Nat.le_trans hlen hle, heq⟩

theorem Traces.beside (m : Method ε σ α) : Traces (τ := τ) 0 m.beside m :=
  fun s trace => ⟨[], Nat.le_refl 0, by rw [List.append_nil]; rfl⟩

theorem Traces.pure (a : α) :
    Traces (τ := τ) 0 (Pure.pure a : Method ε (σ × List τ) α) (Pure.pure a) :=
  fun s trace => ⟨[], Nat.le_refl 0, by rw [List.append_nil]; rfl⟩

theorem Traces.raise (e : ε) :
    Traces (τ := τ) 0 (Method.raise e : Method ε (σ × List τ) α) (Method.raise e) :=
  fun s trace => ⟨[], Nat.le_refl 0, by rw [List.append_nil]; rfl⟩

/-- The events of a sequence are those of its statements. -/
theorem Traces.bind {traced' : α → Method ε (σ × List τ) γ} {n : α → Method ε σ γ}
    (h : Traces bound traced m) (h' : ∀ a, Traces bound' (traced' a) (n a)) :
    Traces (bound + bound') (traced >>= traced') (m >>= n) := by
  intro s trace
  obtain ⟨events, hlen, heq⟩ := h s trace
  rw [bind_apply, bind_apply, heq]
  rcases m s with ⟨e | a, s'⟩
  · exact ⟨events, Nat.le_trans hlen (Nat.le_add_right _ _), rfl⟩
  · obtain ⟨events', hlen', heq'⟩ := h' a s' (trace ++ events)
    refine ⟨events ++ events', ?_, ?_⟩
    · rw [List.length_append]
      exact Nat.add_le_add hlen hlen'
    · show traced' a (s', trace ++ events) = _
      rw [heq', List.append_assoc]

end Method

end Chatbit.Lib
