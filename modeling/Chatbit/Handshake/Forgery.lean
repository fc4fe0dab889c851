import Chatbit.Handshake.Connect

/-!
# What forged handshake traffic destroys

The id of a handshake is in the clear, so anybody can send a RESP or a FIN for it. A message of
the kind that the entry does not wait for is ignored; any other that does not complete the
handshake spoils it.
-/

namespace Chatbit

open Lib HandshakeState

variable {β X E : Type} [Alphabet β] [DecidableEq β] {P : Primitives β X E}

/-- The call delivers a RESP or a FIN with this id. -/
def Call.Carries (hsId : Bytes β) : Call β X → Prop
  | .response payload _ _ _ | .fin payload _ _ _ => payload.take HS_ID_LEN = hsId
  | _ => False

/-- The call delivers a message of the kind that the entry waits for. -/
def Call.AwaitedBy (pending : PendingHandshake β X) : Call β X → Prop
  | .response _ _ _ _ => pending.initiator = true
  | .fin _ _ _ _ => pending.initiator = false
  | _ => False

instance (hsId : Bytes β) (c : Call β X) : Decidable (c.Carries hsId) := by
  cases c <;> simp only [Call.Carries] <;> infer_instance

instance (pending : PendingHandshake β X) (c : Call β X) : Decidable (c.AwaitedBy pending) := by
  cases c <;> simp only [Call.AwaitedBy] <;> infer_instance

namespace SessionManager

/-- The session that delivering a RESP or a FIN returns. -/
def sessionOf (P : Primitives β X E) (manager : SessionManager β X E) :
    Call β X → Option (Session β X)
  | .response payload fresh now establishedAt =>
    match (handleResponse P payload fresh now establishedAt manager).1 with
    | .ok (some (_, session)) => some session
    | _ => none
  | .fin payload fresh now establishedAt =>
    match (handleFin P payload fresh now establishedAt manager).1 with
    | .ok session => session
    | .error _ => none
  | _ => none

/-- Each of the calls gives no session when it arrives. -/
def Rejects (P : Primitives β X E) (manager : SessionManager β X E) : List (Call β X) → Prop
  | [] => True
  | c :: calls => manager.sessionOf P c = none ∧ Rejects P (manager.call P c) calls

/-- Nothing that completes is pending under `hsId`. -/
def Dead (hsId : Bytes β) (manager : SessionManager β X E) : Prop :=
  ∀ p, manager.pending.get? hsId = some p → p.Past

section Forged

variable (hP : P.Correct) {manager : SessionManager β X E} {hsId : Bytes β}
  {pending : PendingHandshake β X} {c : Call β X}

/-- A message of the other kind changes nothing, and gives no session. -/
lemma ignores_of_not_awaited (hget : manager.pending.get? hsId = some pending)
    (hc : c.Carries hsId) (ha : ¬ c.AwaitedBy pending) :
    manager.call P c = manager ∧ manager.sessionOf P c = none := by
  cases c with
  | response payload fresh now establishedAt =>
    have hnot : handleResponse P payload fresh now establishedAt manager = (.ok none, manager) := by
      refine handleResponse_of_not fun p hp => ?_
      obtain rfl := Option.some.inj (hget.symm.trans (hc ▸ hp))
      simpa [Call.AwaitedBy] using ha
    exact ⟨by rw [call, hnot], by rw [sessionOf, hnot]⟩
  | fin payload fresh now establishedAt =>
    have hnot : handleFin P payload fresh now establishedAt manager = (.ok none, manager) := by
      refine handleFin_of_not fun p hp => ?_
      obtain rfl := Option.some.inj (hget.symm.trans (hc ▸ hp))
      simpa [Call.AwaitedBy] using ha
    exact ⟨by rw [call, hnot], by rw [sessionOf, hnot]⟩
  | _ => exact absurd hc id

include hP

/-- A message of the kind that the entry waits for completes it or spoils it. -/
lemma dead_of_awaited (hm : WellFormed P manager) (hget : manager.pending.get? hsId = some pending)
    (hc : c.Carries hsId) (ha : c.AwaitedBy pending) (hrej : manager.sessionOf P c = none) :
    Dead hsId (manager.call P c) := by
  cases c with
  | response payload fresh now establishedAt =>
    subst hc
    have hnot : ∀ result manager', handleResponse P payload fresh now establishedAt manager ≠
        (.ok (some result), manager') := fun result manager' hok => by
      simp [sessionOf, hok] at hrej
    rcases handleResponse_of_not_some hP hm hnot with ⟨hother, -⟩ | ⟨-, err, manager', heq, hs⟩
    · exact absurd ha (by simp [Call.AwaitedBy, hother pending hget])
    · rw [call, heq]
      exact hs.entry
  | fin payload fresh now establishedAt =>
    subst hc
    have hnot : ∀ result manager', handleFin P payload fresh now establishedAt manager ≠
        (.ok (some result), manager') := fun result manager' hok => by
      simp [sessionOf, hok] at hrej
    rcases handleFin_of_not_some hP hm hnot with ⟨hother, -⟩ | ⟨-, err, manager', heq, hs⟩
    · exact absurd ha (by simp [Call.AwaitedBy, hother pending hget])
    · rw [call, heq]
      exact hs.entry
  | _ => exact absurd hc id

lemma Dead.call (hd : Dead hsId manager) (hm : WellFormed P manager) (hc : c.Carries hsId) :
    Dead hsId (manager.call P c) := by
  intro p hp
  rcases get?_call hP hm hp with ⟨hp, -⟩ | hpast | hadd
  · exact hd p hp
  · exact hpast
  · cases hadd <;> exact absurd hc id

lemma Dead.afterCalls {calls : List (Call β X)} (hd : Dead hsId manager)
    (hm : Reachable P manager) (hcalls : ∀ c ∈ calls, c.Carries hsId) :
    Dead hsId (manager.afterCalls P calls) ∧ Reachable P (manager.afterCalls P calls) := by
  induction calls generalizing manager with
  | nil => exact ⟨hd, hm⟩
  | cons c calls ih =>
    exact ih (hd.call hP (hm.wellFormed hP) (hcalls c (by simp))) (hm.call c)
      fun c' hc' => hcalls c' (List.mem_cons_of_mem _ hc')

lemma Dead.sessionOf (hd : Dead hsId manager) (hm : WellFormed P manager) (hc : c.Carries hsId) :
    manager.sessionOf P c = none := by
  rw [Option.eq_none_iff_forall_ne_some]
  intro session hs
  cases c with
  | response payload fresh now establishedAt =>
    subst hc
    rcases hok : handleResponse P payload fresh now establishedAt manager with
      ⟨_ | _ | ⟨fin, session'⟩, manager'⟩
    · simp [SessionManager.sessionOf, hok] at hs
    · simp [SessionManager.sessionOf, hok] at hs
    · obtain ⟨pending, e, m, ref, trust', keys, haccept, -⟩ :=
        (handleResponse_some_iff hP hm).mp hok
      obtain ⟨peerStatic, startedAt, rfl⟩ := haccept.pending_eq
      exact hd _ haccept.get_pending rfl
  | fin payload fresh now establishedAt =>
    subst hc
    rcases hok : handleFin P payload fresh now establishedAt manager with
      ⟨_ | _ | session', manager'⟩
    · simp [SessionManager.sessionOf, hok] at hs
    · simp [SessionManager.sessionOf, hok] at hs
    · obtain ⟨pending, re, e, r, m, ref, trust', keys, haccept, -⟩ :=
        (handleFin_some_iff hP hm).mp hok
      obtain ⟨startedAt, rfl⟩ := haccept.pending_eq
      exact hd _ haccept.get_pending rfl
  | _ => exact absurd hc id

/-- Forgeries that the entry does not wait for change nothing; any other kills it. -/
lemma afterCalls_forged (hm : Reachable P manager)
    (hget : manager.pending.get? hsId = some pending) {forged : List (Call β X)}
    (hforged : ∀ c ∈ forged, c.Carries hsId) (hrej : manager.Rejects P forged) :
    (∀ c ∈ forged, ¬ c.AwaitedBy pending) ∧ manager.afterCalls P forged = manager ∨
    (∃ c ∈ forged, c.AwaitedBy pending) ∧ Dead hsId (manager.afterCalls P forged) ∧
      Reachable P (manager.afterCalls P forged) := by
  induction forged with
  | nil => exact Or.inl ⟨by simp, rfl⟩
  | cons c forged ih =>
    obtain ⟨hrej₀, hrej⟩ := hrej
    have hc := hforged c (by simp)
    have hforged' : ∀ c' ∈ forged, c'.Carries hsId := fun c' hc' =>
      hforged c' (List.mem_cons_of_mem _ hc')
    by_cases ha : c.AwaitedBy pending
    · -- from the first forgery that is awaited on, the entry is dead
      have hdead := dead_of_awaited hP (hm.wellFormed hP) hget hc ha hrej₀
      exact Or.inr ⟨⟨c, by simp, ha⟩, hdead.afterCalls hP (hm.call c) hforged'⟩
    · have hsame : manager.call P c = manager := (ignores_of_not_awaited hget hc ha).1
      have hafter : manager.afterCalls P (c :: forged) = manager.afterCalls P forged := by
        rw [afterCalls, List.foldl_cons, hsame, afterCalls]
      rw [hsame] at hrej
      rw [hafter]
      refine (ih hforged' hrej).imp (And.imp_left ?_) (And.imp_left ?_)
      · intro h c' hc'
        rcases List.mem_cons.mp hc' with rfl | hc'
        · exact ha
        · exact h c' hc'
      · rintro ⟨c', hc', ha'⟩
        exact ⟨c', List.mem_cons_of_mem _ hc', ha'⟩

/-- After forgeries for a pending handshake, the message that would have completed it gives the
same session exactly when none of them is of the kind that the entry waits for. -/
theorem genuine_completes_iff (hm : Reachable P manager)
    (hget : manager.pending.get? hsId = some pending) {forged : List (Call β X)}
    (hforged : ∀ c ∈ forged, c.Carries hsId) (hrej : manager.Rejects P forged)
    {genuine : Call β X} (hgenuine : genuine.Carries hsId) {session : Session β X}
    (hsession : manager.sessionOf P genuine = some session) :
    (manager.afterCalls P forged).sessionOf P genuine = some session ↔
      ∀ c ∈ forged, ¬ c.AwaitedBy pending := by
  rcases afterCalls_forged hP hm hget hforged hrej with
    ⟨hnone, hsame⟩ | ⟨⟨c, hc, ha⟩, hdead, hreach⟩
  · rw [hsame]
    exact iff_of_true hsession hnone
  · rw [hdead.sessionOf hP (hreach.wellFormed hP) hgenuine]
    exact iff_of_false (by simp) fun h => h c hc ha

end Forged

open Meeting

/-- Bob's answer to Alice. -/
def Meeting.genuine : Call SymByte ℕ := .response (responseOf bob) 13 0 0

/-- A RESP of zeros. -/
def Meeting.forged : Call SymByte ℕ := .response (hsId ++ zeros 80) 14 0 0

lemma Meeting.sessionOf_genuine :
    (started.sessionOf symbolic genuine).isSome = true ∧
      Rejects symbolic started [forged] := by
  refine ⟨by decide +kernel, ?_, trivial⟩
  exact Option.isNone_iff_eq_none.mp (by decide +kernel)

/-- Bob's RESP gives a session, and after a RESP of zeros it does not. -/
theorem forgery_destroys_pending :
    (started.sessionOf symbolic genuine).isSome = true ∧ Rejects symbolic started [forged] ∧
      ((started.afterCalls symbolic [forged]).sessionOf symbolic genuine).isSome = false :=
  ⟨Meeting.sessionOf_genuine.1, Meeting.sessionOf_genuine.2, by decide +kernel⟩

/-- The forgery is of the kind that Alice waits for. -/
theorem genuine_completes_iff_forged :
    ∃ session, started.sessionOf symbolic genuine = some session ∧
      ((started.afterCalls symbolic [forged]).sessionOf symbolic genuine = some session ↔
        ∀ c ∈ [forged], ¬ c.AwaitedBy
          (startPending symbolic alice (bob.staticPublic symbolic) hsId 12 0)) := by
  obtain ⟨session, hsession⟩ := Option.isSome_iff_exists.mp Meeting.sessionOf_genuine.1
  refine ⟨session, hsession, genuine_completes_iff symbolic_correct reachable_started ?_ ?_
    Meeting.sessionOf_genuine.2 (show genuine.Carries hsId by decide) hsession⟩
  · rw [started, call, startHandshake_snd, OrderedDict.get?_set_self]
  · intro c hc
    rw [List.mem_singleton.mp hc]
    decide

end SessionManager

end Chatbit
