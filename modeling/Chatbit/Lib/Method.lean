import Mathlib.Data.List.Forall2
import Mathlib.Order.Defs.Unbundled
import Mathlib.Tactic.Common

/-!
# Methods of mutable objects

A method of an object-oriented program reads and updates the fields of its object and either
returns a value or raises. The updates made before an exception stay: the caller that catches
it sees the object as the method left it. `Method ε σ α` is that behaviour as a function of the
object's state, with the two rules every proof about a method starts from: what a sequence of
statements returns (`bind_ok`), and how it raises (`bind_error`). The weakest precondition of a
method (`wp`) turns a condition on how it ends into one on the state before it.
-/

namespace Chatbit.Lib

/-- A method body on an object with state `σ`: it returns an `α` or raises an `ε`, and leaves the
object in a state in both cases. -/
def Method (ε σ α : Type) : Type := σ → Except ε α × σ

namespace Method

variable {ε σ τ α γ : Type}

instance : Monad (Method ε σ) where
  pure a := fun s => (.ok a, s)
  bind x f := fun s =>
    match x s with
    | (.ok a, s') => f a s'
    | (.error e, s') => (.error e, s')

/-- The state of the object. -/
def self : Method ε σ σ := fun s => (.ok s, s)

/-- Assign to fields of the object. -/
def update (f : σ → σ) : Method ε σ Unit := fun s => (.ok (), f s)

/-- Raise an exception. -/
def raise (e : ε) : Method ε σ α := fun s => (.error e, s)

/-- Evaluate an expression that may raise and does not touch the object. -/
def eval (x : Except ε α) : Method ε σ α := fun s => (x, s)

/-- Call a method on a field of the object. -/
def onField (get : σ → τ) (set : τ → σ → σ) (m : Method ε τ α) : Method ε σ α := fun s =>
  let (r, t) := m (get s)
  (r, set t s)

@[simp] theorem pure_apply (a : α) (s : σ) : (pure a : Method ε σ α) s = (.ok a, s) := rfl

theorem bind_apply (x : Method ε σ α) (f : α → Method ε σ γ) (s : σ) :
    (x >>= f) s = match x s with
      | (.ok a, s') => f a s'
      | (.error e, s') => (.error e, s') := rfl

@[simp] theorem self_apply (s : σ) : (self : Method ε σ σ) s = (.ok s, s) := rfl

@[simp] theorem update_apply (f : σ → σ) (s : σ) :
    (update f : Method ε σ Unit) s = (.ok (), f s) := rfl

@[simp] theorem raise_apply (e : ε) (s : σ) : (raise e : Method ε σ α) s = (.error e, s) := rfl

@[simp] theorem eval_apply (x : Except ε α) (s : σ) : (eval x : Method ε σ α) s = (x, s) := rfl

theorem onField_apply (get : σ → τ) (set : τ → σ → σ) (m : Method ε τ α) (s : σ) :
    onField get set m s = ((m (get s)).1, set (m (get s)).2 s) := rfl

@[simp] theorem self_bind (f : σ → Method ε σ α) (s : σ) : (self >>= f) s = f s s := rfl

@[simp] theorem update_bind (g : σ → σ) (f : Unit → Method ε σ α) (s : σ) :
    (update g >>= f) s = f () (g s) := rfl

/-- Sequencing is associative. -/
theorem bind_assoc {δ : Type} (x : Method ε σ α) (f : α → Method ε σ γ) (g : γ → Method ε σ δ) :
    x >>= f >>= g = x >>= fun a => f a >>= g := by
  funext s
  rw [bind_apply, bind_apply, bind_apply]
  rcases x s with ⟨e | a, s'⟩ <;> rfl

/-- Dropping what a call returned drops nothing else. -/
theorem snd_bind_pure (x : Method ε σ α) (b : γ) (s : σ) :
    ((x >>= fun _ => pure b) s).2 = (x s).2 := by
  rw [bind_apply]
  rcases x s with ⟨e | a, s'⟩ <;> rfl

/-- A sequence of two statements runs the second on what the first returned. -/
theorem bind_of_ok {x : Method ε σ α} {f : α → Method ε σ γ} {s s' : σ} {a : α}
    (h : x s = (.ok a, s')) : (x >>= f) s = f a s' := by
  rw [bind_apply, h]

/-- A sequence of two statements stops where the first raises. -/
theorem bind_of_error {x : Method ε σ α} {f : α → Method ε σ γ} {s s' : σ} {e : ε}
    (h : x s = (.error e, s')) : (x >>= f) s = (.error e, s') := by
  rw [bind_apply, h]

/-- A sequence returns exactly when both statements do. -/
theorem bind_ok {x : Method ε σ α} {f : α → Method ε σ γ} {s t : σ} {b : γ} :
    (x >>= f) s = (.ok b, t) ↔ ∃ a s', x s = (.ok a, s') ∧ f a s' = (.ok b, t) := by
  rw [bind_apply]
  constructor
  · intro h
    rcases hx : x s with ⟨_ | a, s'⟩
    · simp [hx] at h
    · exact ⟨a, s', rfl, by simpa [hx] using h⟩
  · rintro ⟨a, s', hx, hf⟩
    simpa [hx] using hf

/-- A sequence raises exactly when the first statement does, or the second after the first
returned. -/
theorem bind_error {x : Method ε σ α} {f : α → Method ε σ γ} {s t : σ} {e : ε} :
    (x >>= f) s = (.error e, t) ↔
      x s = (.error e, t) ∨ ∃ a s', x s = (.ok a, s') ∧ f a s' = (.error e, t) := by
  rw [bind_apply]
  rcases hx : x s with ⟨e' | a, s'⟩ <;> simp

/-- Applying a function to the result changes nothing else. -/
theorem map_apply (f : α → γ) (x : Method ε σ α) (s : σ) :
    (f <$> x) s = ((x s).1.map f, (x s).2) := by
  change (x >>= fun a => pure (f a)) s = _
  rw [bind_apply]
  rcases x s with ⟨e | a, s'⟩ <;> rfl

/-- A mapped method returns what its function makes of a result. -/
theorem map_ok {f : α → γ} {x : Method ε σ α} {s t : σ} {b : γ} :
    (f <$> x) s = (.ok b, t) ↔ ∃ a, x s = (.ok a, t) ∧ f a = b := by
  rw [map_apply]
  rcases x s with ⟨e | a, s'⟩ <;> simp [Except.map, and_comm]

/-- A mapped method raises what the method does. -/
theorem map_error {f : α → γ} {x : Method ε σ α} {s t : σ} {e : ε} :
    (f <$> x) s = (.error e, t) ↔ x s = (.error e, t) := by
  rw [map_apply]
  rcases x s with ⟨e' | a, s'⟩ <;> simp [Except.map]

/-! ## What a method leaves alone -/

/-- The method does not change what `f` reads of the object, whether it returns or raises. -/
def Keeps (f : σ → τ) (m : Method ε σ α) : Prop := ∀ s, f (m s).2 = f s

theorem Keeps.pure (f : σ → τ) (a : α) : Keeps f (Pure.pure a : Method ε σ α) := fun _ => rfl

theorem Keeps.self (f : σ → τ) : Keeps f (Method.self : Method ε σ σ) := fun _ => rfl

theorem Keeps.eval (f : σ → τ) (x : Except ε α) : Keeps f (Method.eval x : Method ε σ α) :=
  fun _ => rfl

/-- An update that `f` does not see keeps it. -/
theorem Keeps.update {f : σ → τ} {g : σ → σ} (h : ∀ s, f (g s) = f s) :
    Keeps f (Method.update g : Method ε σ Unit) := h

/-- Methods that keep `f` do so one after the other. -/
theorem Keeps.bind {f : σ → τ} {m : Method ε σ α} {n : α → Method ε σ γ} (hm : Keeps f m)
    (hn : ∀ a, Keeps f (n a)) : Keeps f (m >>= n) := by
  intro s
  have hms := hm s
  rw [bind_apply]
  rcases h : m s with ⟨e | a, s'⟩
  · rwa [h] at hms
  · rw [h] at hms
    exact (hn a s').trans hms

/-- A method on a field keeps what does not read the field. -/
theorem Keeps.onField {ρ : Type} {f : σ → τ} {get : σ → ρ} {set : ρ → σ → σ}
    (h : ∀ r s, f (set r s) = f s) (m : Method ε ρ α) : Keeps f (Method.onField get set m) :=
  fun s => h _ s

/-- What comes after a call may keep what `f` reads as the call left it. -/
theorem Keeps.after {f : σ → τ} {m : Method ε σ α} {n : α → Method ε σ γ} (hn : ∀ a, Keeps f (n a))
    (s : σ) : f ((m >>= n) s).2 = f (m s).2 := by
  rw [bind_apply]
  rcases m s with ⟨e | a, s'⟩
  · rfl
  · exact hn a s'

/-- What `f` reads of the object moves by `R` at most. -/
def Moves (R : τ → τ → Prop) (f : σ → τ) (m : Method ε σ α) : Prop := ∀ s, R (f s) (f (m s).2)

/-- A part that moves it, after one that keeps it. -/
theorem Moves.keeps_bind {R : τ → τ → Prop} {f : σ → τ} {m : Method ε σ α}
    {n : α → Method ε σ γ} (hR : ∀ t, R t t) (hm : Keeps f m) (hn : ∀ a, Moves R f (n a)) :
    Moves R f (m >>= n) := by
  intro s
  have hms := hm s
  rw [bind_apply]
  rcases h : m s with ⟨e | a, s'⟩
  · rw [h] at hms
    rw [hms]
    exact hR _
  · rw [h] at hms
    rw [← hms]
    exact hn a s'

/-- A part that moves it, before one that keeps it. -/
theorem Moves.bind_keeps {R : τ → τ → Prop} {f : σ → τ} {m : Method ε σ α}
    {n : α → Method ε σ γ} (hm : Moves R f m) (hn : ∀ a, Keeps f (n a)) :
    Moves R f (m >>= n) := by
  intro s
  have hms := hm s
  rw [bind_apply]
  rcases h : m s with ⟨e | a, s'⟩
  · rwa [h] at hms
  · rw [h] at hms
    rwa [show f (n a s').2 = f s' from hn a s']

/-- Keeping is moving by equality. -/
theorem moves_eq_iff {f : σ → τ} {m : Method ε σ α} : Moves Eq f m ↔ Keeps f m :=
  forall_congr' fun _ => eq_comm

/-- What is kept moves by any reflexive relation. -/
theorem Keeps.moves {R : τ → τ → Prop} [Std.Refl R] {f : σ → τ} {m : Method ε σ α}
    (h : Keeps f m) : Moves R f m := fun s => (h s).symm ▸ Std.Refl.refl (r := R) (f s)

/-- One part after the other. -/
theorem Moves.bind {R : τ → τ → Prop} [IsTrans τ R] {f : σ → τ} {m : Method ε σ α}
    {n : α → Method ε σ γ} (hm : Moves R f m) (hn : ∀ a, Moves R f (n a)) :
    Moves R f (m >>= n) := by
  intro s
  have hms := hm s
  rw [bind_apply]
  rcases h : m s with ⟨e | a, s'⟩
  · rwa [h] at hms
  · rw [h] at hms
    exact IsTrans.trans _ _ _ hms (hn a s')

/-- An outcome that is a return leaves the state alone. -/
theorem eval_ok {x : Except ε α} {s t : σ} {a : α} :
    (eval x : Method ε σ α) s = (.ok a, t) ↔ x = .ok a ∧ s = t := by
  simp

/-- A method on a field returns as it does on the value of the field. -/
theorem onField_ok {get : σ → τ} {set : τ → σ → σ} {m : Method ε τ α} {s t : σ} {a : α} :
    onField get set m s = (.ok a, t) ↔ ∃ t', m (get s) = (.ok a, t') ∧ t = set t' s := by
  rw [onField_apply]
  constructor
  · intro h
    obtain ⟨h1, h2⟩ := Prod.mk.inj h
    exact ⟨_, Prod.ext h1 rfl, h2.symm⟩
  · rintro ⟨t', hm, rfl⟩
    rw [hm]

/-! ## Weakest preconditions -/

/-- What holds before a call after which `returns` or `raises` holds. -/
def wp (m : Method ε σ α) (returns : α → σ → Prop) (raises : ε → σ → Prop) (s : σ) : Prop :=
  match m s with
  | (.ok a, s') => returns a s'
  | (.error e, s') => raises e s'

section Rules

variable {returns : α → σ → Prop} {raises : ε → σ → Prop} {s : σ}

/-- The outcome decides, in the state as it is. -/
theorem wp_eval (x : Except ε α) : (eval x : Method ε σ α).wp returns raises s ↔
    match x with
    | .ok a => returns a s
    | .error e => raises e s := by
  cases x <;> rfl

/-- The first method has to end where the second does what is asked. -/
theorem wp_bind {m : Method ε σ α} {n : α → Method ε σ γ} {returns : γ → σ → Prop} :
    (m >>= n).wp returns raises s ↔
      m.wp (fun a s' => (n a).wp returns raises s') raises s := by
  unfold wp
  rw [bind_apply]
  rcases m s with ⟨e | a, s'⟩ <;> rfl

theorem wp_self_bind {n : σ → Method ε σ α} :
    (self >>= n).wp returns raises s ↔ (n s).wp returns raises s := Iff.rfl

theorem wp_update_bind {f : σ → σ} {n : Unit → Method ε σ α} :
    (update f >>= n).wp returns raises s ↔ (n ()).wp returns raises (f s) := Iff.rfl

/-- What is asked of a method on a field is asked with the field set. -/
theorem wp_onField {get : σ → τ} {set : τ → σ → σ} {m : Method ε τ α} :
    (onField get set m).wp returns raises s ↔
      m.wp (fun a t => returns a (set t s)) (fun e t => raises e (set t s)) (get s) := by
  unfold wp
  rw [onField_apply]
  rcases m (get s) with ⟨e | a, t⟩ <;> rfl

/-- A rule for what follows may be used under a call. -/
theorem wp_congr {m : Method ε σ α} {returns' : α → σ → Prop}
    (h : ∀ a s', returns a s' ↔ returns' a s') :
    m.wp returns raises s ↔ m.wp returns' raises s := by
  unfold wp
  rcases m s with ⟨e | a, s'⟩
  · rfl
  · exact h a s'

/-- What holds after a call may be weakened. -/
theorem wp.mono {m : Method ε σ α} {returns' : α → σ → Prop} {raises' : ε → σ → Prop}
    (h : m.wp returns raises s) (hreturns : ∀ a s', returns a s' → returns' a s')
    (hraises : ∀ e s', raises e s' → raises' e s') : m.wp returns' raises' s := by
  unfold wp at h ⊢
  rcases hm : m s with ⟨e | a, s'⟩
  · rw [hm] at h
    exact hraises e s' h
  · rw [hm] at h
    exact hreturns a s' h

end Rules

/-! ## Invariants of an object -/

/-- A call in a state with `I` leaves a state with `I`, whether it returns or raises, and what it
returns satisfies `Q`. -/
def Ensures (I : σ → Prop) (Q : α → Prop) (m : Method ε σ α) : Prop :=
  ∀ s, I s → m.wp (fun a s' => Q a ∧ I s') (fun _ s' => I s') s

section Ensures

variable {I : σ → Prop} {Q : α → Prop}

theorem Ensures.pure {a : α} (h : Q a) : Ensures I Q (Pure.pure a : Method ε σ α) :=
  fun _ hs => ⟨h, hs⟩

theorem Ensures.self : Ensures I I (Method.self : Method ε σ σ) := fun _ hs => ⟨hs, hs⟩

theorem Ensures.raise (e : ε) : Ensures I Q (Method.raise e : Method ε σ α) := fun _ hs => hs

/-- An outcome changes nothing. -/
theorem Ensures.eval {x : Except ε α} (h : ∀ a, x = .ok a → Q a) :
    Ensures I Q (Method.eval x : Method ε σ α) := by
  intro s hs
  rw [wp_eval]
  rcases x with e | a
  · exact hs
  · exact ⟨h a rfl, hs⟩

/-- An update has to keep the invariant. -/
theorem Ensures.update {f : σ → σ} (h : ∀ s, I s → I (f s)) :
    Ensures I (fun _ => True) (Method.update f : Method ε σ Unit) := fun s hs => ⟨trivial, h s hs⟩

/-- The second method may use what the first returns. -/
theorem Ensures.bind {R : γ → Prop} {m : Method ε σ α} {n : α → Method ε σ γ}
    (hm : Ensures I Q m) (hn : ∀ a, Q a → Ensures I R (n a)) : Ensures I R (m >>= n) := fun s hs =>
  wp_bind.mpr ((hm s hs).mono (fun a s' h => hn a h.1 s' h.2) fun _ _ h => h)

/-- A call on a field that has an invariant `J` of its own. -/
theorem Ensures.onField {J : τ → Prop} {get : σ → τ} {set : τ → σ → σ} {m : Method ε τ α}
    (hget : ∀ s, I s → J (get s)) (hset : ∀ s t, I s → J t → I (set t s)) (hm : Ensures J Q m) :
    Ensures I Q (Method.onField get set m) := fun s hs =>
  wp_onField.mpr ((hm (get s) (hget s hs)).mono (fun _ t h => ⟨h.1, hset s t hs h.2⟩)
    fun _ t h => hset s t hs h)

/-- A method ensures whatever follows from what it ensures. -/
theorem Ensures.mono {Q' : α → Prop} {m : Method ε σ α} (h : Ensures I Q m)
    (hle : ∀ a, Q a → Q' a) : Ensures I Q' m := fun s hs =>
  (h s hs).mono (fun a _ h => ⟨hle a h.1, h.2⟩) fun _ _ h => h

/-- Nothing is said about what is returned. -/
theorem ensures_true_iff {m : Method ε σ α} :
    Ensures I (fun _ => True) m ↔ ∀ s, I s → I (m s).2 := by
  unfold Ensures wp
  refine forall₂_congr fun s _ => ?_
  rcases m s with ⟨e | a, s'⟩
  · rfl
  · exact ⟨And.right, fun h => ⟨trivial, h⟩⟩

/-- The invariant holds after the method, also where it raises. -/
theorem Ensures.snd {m : Method ε σ α} (h : Ensures I Q m) {s : σ} (hs : I s) : I (m s).2 :=
  ensures_true_iff.mp (h.mono fun _ _ => trivial) s hs

end Ensures

end Method

/-! ## Expressions that may raise -/

/-- A comprehension returns exactly when the expression does for every item. -/
theorem mapM_ok_iff {α γ ε : Type} {f : α → Except ε γ} {l : List α} {l' : List γ} :
    l.mapM f = .ok l' ↔ List.Forall₂ (fun a b => f a = .ok b) l l' := by
  induction l generalizing l' with
  | nil =>
    rw [List.forall₂_nil_left_iff, List.mapM_nil]
    exact ⟨fun h => (Except.ok.inj h).symm, fun h => congrArg Except.ok h.symm⟩
  | cons a l ih =>
    rw [List.mapM_cons, List.forall₂_cons_left_iff]
    rcases ha : f a with err | b
    · simp [bind, Except.bind]
    · rcases hl : l.mapM f with err | rest
      · simp [bind, Except.bind, ← ih, hl]
      · simp [bind, Except.bind, pure, Except.pure, ← ih, hl, eq_comm]

/-- The items of the result are what the expression returns for the items. -/
theorem mem_of_mapM_ok {α γ ε : Type} {f : α → Except ε γ} {l : List α} {l' : List γ}
    (h : l.mapM f = .ok l') {b : γ} : b ∈ l' ↔ ∃ a ∈ l, f a = .ok b := by
  have hall := mapM_ok_iff.mp h
  clear h
  induction hall with
  | nil => simp
  | @cons a b' l l' hfirst _ ih =>
    rw [List.mem_cons, List.exists_mem_cons_iff, hfirst]
    exact or_congr ⟨fun h => congrArg Except.ok h.symm, fun h => (Except.ok.inj h).symm⟩ ih

/-- A comprehension returns if the expression does for every item. -/
theorem exists_mapM_ok_iff {α γ ε : Type} {f : α → Except ε γ} {l : List α} :
    (∃ l', l.mapM f = .ok l') ↔ ∀ a ∈ l, ∃ b, f a = .ok b := by
  induction l with
  | nil => exact iff_of_true ⟨[], rfl⟩ fun a ha => absurd ha List.not_mem_nil
  | cons a l ih =>
    rw [List.forall_mem_cons, ← ih]
    constructor
    · rintro ⟨l', hl'⟩
      obtain ⟨b, rest, hb, hrest, -⟩ := List.forall₂_cons_left_iff.mp (mapM_ok_iff.mp hl')
      exact ⟨⟨b, hb⟩, rest, mapM_ok_iff.mpr hrest⟩
    · rintro ⟨⟨b, hb⟩, rest, hrest⟩
      exact ⟨b :: rest, mapM_ok_iff.mpr (.cons hb (mapM_ok_iff.mp hrest))⟩

end Chatbit.Lib
