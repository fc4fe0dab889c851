import Chatbit.Handshake.Forgery
import Chatbit.SessionCleanup

/-!
# When handshakes time out

Only `start_handshake` and `handle_init` expire pending entries. `handle_response` and `handle_fin`
look the entry up as it is, so an entry can be completed long after `HANDSHAKE_TIMEOUT` if neither
of the other two is called in between.
-/

namespace Chatbit

open Lib HandshakeState

variable {β X E : Type} [Alphabet β] [DecidableEq β] {P : Primitives β X E}

/-- A call, and what the monotonic clock shows when it is made. -/
structure TimedCall (β X : Type) where
  moment : ℚ
  call : Call β X

/-- The entry that the call adds, if it adds one, has this id and this `started_at`. -/
def Call.Begins (hsId : Bytes β) (startedAt : ℚ) : Call β X → Prop
  | .start _ hsId' _ _ startedAt' _ => hsId' = hsId ∧ startedAt' = startedAt
  | .init payload _ _ _ startedAt' => payload.take HS_ID_LEN = hsId ∧ startedAt' = startedAt
  | _ => False

/-- What the clock shows at the call and what the call reads from it, in order. -/
def TimedCall.readings (t : TimedCall β X) : List ℚ :=
  t.moment :: match t.call with
    | .start _ _ _ now startedAt _ | .init _ _ _ now startedAt => [now, startedAt]
    | _ => []

/-- The clock of the run does not go back. -/
def Nondecreasing (calls : List (TimedCall β X)) : Prop :=
  (calls.flatMap TimedCall.readings).Pairwise (· ≤ ·)

instance (calls : List (TimedCall β X)) : Decidable (Nondecreasing calls) :=
  inferInstanceAs (Decidable (List.Pairwise _ _))

namespace SessionManager

/-! ## Which messages complete an entry -/

/-- The message of the call completes the entry: it opens, what it says about the identity is
signed, the key is the pinned one, and what is left to do can be done. -/
def Completes (P : Primitives β X E) (manager : SessionManager β X E)
    (pending : PendingHandshake β X) : Call β X → Prop
  | .response payload fresh _ _ => pending.initiator = true ∧ AwaitsResponse pending fun e =>
    CompletesResponse P manager e fresh (payload.drop HS_ID_LEN)
  | .fin payload _ _ _ => pending.initiator = false ∧ AwaitsFin pending fun e re r =>
    CompletesFin P manager e re (respEncStatic P manager.identity e re)
      (respEncPayload P manager.identity e r re) (payload.drop HS_ID_LEN)
  | _ => False

section Completes

variable (hP : P.Correct) {manager : SessionManager β X E} {hsId : Bytes β}
  {pending : PendingHandshake β X} {c : Call β X}

lemma Completes.not_past (h : Completes P manager pending c) : ¬ pending.Past := by
  cases c with
  | response | fin => exact h.2.1
  | _ => exact h.elim

lemma sessionOf_response_isSome {payload : Bytes β} {fresh : X} {now establishedAt : ℚ}
    (hget : manager.pending.get? (payload.take HS_ID_LEN) = some pending)
    (hi : pending.initiator = true) :
    (manager.sessionOf P (.response payload fresh now establishedAt)).isSome ↔
      ∃ result, (completeInitiator P (payload.take HS_ID_LEN) (payload.drop HS_ID_LEN) pending fresh
        now establishedAt manager).1 = .ok result := by
  rw [sessionOf, handleResponse_of_pending hget hi, Method.map_apply]
  rcases completeInitiator P _ _ pending fresh now establishedAt manager with
    ⟨err | ⟨fin, session⟩, manager'⟩ <;> simp [Except.map]

lemma sessionOf_fin_isSome {payload : Bytes β} {fresh : X} {now establishedAt : ℚ}
    (hget : manager.pending.get? (payload.take HS_ID_LEN) = some pending)
    (hi : pending.initiator = false) :
    (manager.sessionOf P (.fin payload fresh now establishedAt)).isSome ↔
      ∃ session, (completeResponder P (payload.take HS_ID_LEN) (payload.drop HS_ID_LEN) pending
        fresh now establishedAt manager).1 = .ok session := by
  rw [sessionOf, handleFin_of_pending hget hi, Method.map_apply]
  rcases completeResponder P _ _ pending fresh now establishedAt manager with
    ⟨err | session, manager'⟩ <;> simp [Except.map]

include hP

/-- A RESP or a FIN gives a session exactly when it completes the entry under its id. -/
lemma sessionOf_isSome_iff (hm : WellFormed P manager)
    (hget : manager.pending.get? hsId = some pending) (hc : c.Carries hsId) :
    (manager.sessionOf P c).isSome ↔ Completes P manager pending c := by
  by_cases ha : c.AwaitedBy pending
  swap
  · -- the handler ignores it
    refine iff_of_false (fun hsome => ?_) fun h => ?_
    · rw [(ignores_of_not_awaited hget hc ha).2] at hsome
      cases hsome
    · cases c with
      | response | fin => exact ha h.1
      | _ => exact hc
  cases c with
  | response payload fresh now establishedAt =>
    subst hc
    have hi : pending.initiator = true := ha
    rw [sessionOf_response_isSome hget hi, Completes, and_iff_right hi]
    refine (pendingInitiator_ends hP hm hget hi).isOk_iff ?_
    rintro ⟨-, e, he, hcompletes⟩ ⟨-, e', he', hlate⟩
    obtain rfl := Option.some.inj (he.symm.trans he')
    exact hcompletes.not_refusesLate hP hlate
  | fin payload fresh now establishedAt =>
    subst hc
    have hi : pending.initiator = false := ha
    rw [sessionOf_fin_isSome hget hi, Completes, and_iff_right hi]
    refine (pendingResponder_ends hP hm hget hi).isOk_iff ?_
    rintro ⟨-, e, re, r, he, hre, hr, hcompletes⟩ ⟨-, e', re', r', he', hre', hr', hlate⟩
    obtain rfl := Option.some.inj (he.symm.trans he')
    obtain rfl := Option.some.inj (hre.symm.trans hre')
    obtain rfl := Option.some.inj (hr.symm.trans hr')
    exact hcompletes.not_refusesLate hP hlate
  | _ => exact absurd hc id

end Completes

/-! ## Where a pending entry comes from -/

/-- The manager after a timed run. -/
def afterTimed (P : Primitives β X E) (manager : SessionManager β X E)
    (calls : List (TimedCall β X)) : SessionManager β X E :=
  afterCalls P manager (calls.map TimedCall.call)

section Runs

variable (hP : P.Correct) {manager : SessionManager β X E} {hsId : Bytes β}
  {pending : PendingHandshake β X}

omit [DecidableEq β] in
lemma Adds.begins {identity : Identity X E} {c : Call β X} (h : Adds P identity hsId c pending) :
    c.Begins hsId pending.startedAt := by
  cases h with
  | start => exact ⟨rfl, rfl⟩
  | init hid => exact ⟨hid.symm, rfl⟩

lemma reachable_afterTimed (hm : Reachable P manager) (calls : List (TimedCall β X)) :
    Reachable P (manager.afterTimed P calls) := by
  obtain ⟨identity, trust, hm⟩ := hm
  exact ⟨identity, trust, hm.foldl fun _ _ _ => trivial⟩

lemma afterTimed_append (calls : List (TimedCall β X)) (t : TimedCall β X) :
    manager.afterTimed P (calls ++ [t]) = (manager.afterTimed P calls).call P t.call := by
  rw [afterTimed, List.map_append, List.map_singleton, afterCalls_append, afterTimed]

include hP

/-- An entry that still waits was added by a call of the run, and no call since has looked at the
clock after its time was up. -/
lemma exists_begins (hm : Reachable P manager) (hempty : manager.pending = .empty)
    (calls : List (TimedCall β X)) (hpast : ¬ pending.Past)
    (hget : (manager.afterTimed P calls).pending.get? hsId = some pending) :
    ∃ earlier a between, calls = earlier ++ a :: between ∧ a.call.Begins hsId pending.startedAt ∧
      ∀ c ∈ between, ∀ now, c.call.expiry = some now →
        now - pending.startedAt ≤ HANDSHAKE_TIMEOUT := by
  induction calls using List.reverseRecOn with
  | nil =>
    rw [afterTimed, List.map_nil, afterCalls, List.foldl_nil, hempty] at hget
    cases hget
  | append_singleton calls t ih =>
    rw [afterTimed_append] at hget
    rcases get?_call hP ((reachable_afterTimed hm calls).wellFormed hP) hget with
      ⟨hold, hrecent⟩ | hpast' | hadd
    · obtain ⟨earlier, a, between, rfl, hbegins, hbetween⟩ := ih hold
      refine ⟨earlier, a, between ++ [t], by simp, hbegins, fun c hc => ?_⟩
      rcases List.mem_append.mp hc with hc | hc
      · exact hbetween c hc
      · rw [List.mem_singleton.mp hc]
        exact hrecent
    · exact absurd hpast' hpast
    · exact ⟨calls, t, [], rfl, hadd.begins, fun c hc => absurd hc List.not_mem_nil⟩

end Runs

/-! ## Late messages -/

/-- No session of the run comes from an entry that is older than `HANDSHAKE_TIMEOUT`. -/
def TimesOut (P : Primitives β X E) (manager : SessionManager β X E)
    (calls : List (TimedCall β X)) : Prop :=
  ∀ before t after, calls = before ++ t :: after → ∀ hsId pending, t.call.Carries hsId →
    (manager.afterTimed P before).pending.get? hsId = some pending →
    ((manager.afterTimed P before).sessionOf P t.call).isSome →
    t.moment - pending.startedAt ≤ HANDSHAKE_TIMEOUT

/-- If a message comes more than `HANDSHAKE_TIMEOUT` after the call that began its handshake, and
no call in between has expired the entry, it does not complete it. -/
def NoneLate (P : Primitives β X E) (manager : SessionManager β X E)
    (calls : List (TimedCall β X)) : Prop :=
  ∀ before a between t after, calls = before ++ a :: between ++ t :: after →
    ∀ hsId pending, a.call.Begins hsId pending.startedAt →
    HANDSHAKE_TIMEOUT < t.moment - pending.startedAt →
    (∀ c ∈ between, ∀ now, c.call.expiry = some now →
      now - pending.startedAt ≤ HANDSHAKE_TIMEOUT) →
    t.call.Carries hsId →
    (manager.afterTimed P (before ++ a :: between)).pending.get? hsId = some pending →
    ¬ Completes P (manager.afterTimed P (before ++ a :: between)) pending t.call

/-- Handshakes time out in a run, whatever its clock, exactly when none of its messages is late. -/
theorem timesOut_iff (hP : P.Correct) (identity : Identity X E) (trust : TrustStore β)
    (calls : List (TimedCall β X)) :
    TimesOut P { identity := identity, trust := trust } calls ↔
      NoneLate P { identity := identity, trust := trust } calls := by
  have hm : Reachable P ({ identity := identity, trust := trust } : SessionManager β X E) :=
    ⟨identity, trust, .refl _⟩
  constructor
  · rintro h before a between t after rfl hsId pending - hlate - hc hget hcompletes
    have hsome := (sessionOf_isSome_iff hP ((reachable_afterTimed hm _).wellFormed hP) hget hc).mpr
      hcompletes
    exact absurd (h _ t after rfl hsId pending hc hget hsome) (not_le.mpr hlate)
  · rintro h before t after rfl hsId pending hc hget hsome
    have hcompletes :=
      (sessionOf_isSome_iff hP ((reachable_afterTimed hm _).wellFormed hP) hget hc).mp hsome
    obtain ⟨earlier, a, between, rfl, hbegins, hbetween⟩ :=
      exists_begins hP hm rfl before hcompletes.not_past hget
    by_contra hlate
    exact h earlier a between t after rfl hsId pending hbegins (not_le.mp hlate) hbetween hc hget
      hcompletes

/-! ## Bob answers late -/

namespace Meeting

/-- Alice asks for Bob, and his answer comes at `moment`. -/
def answeredAt (moment : ℚ) : List (TimedCall SymByte ℕ) :=
  [⟨0, .start (bob.staticPublic symbolic) hsId 12 0 0 0⟩, ⟨moment, genuine⟩]

end Meeting

open Meeting

/-- Bob's answer gives a session although the handshake timed out long ago. -/
theorem late_answer_completes :
    Nondecreasing (answeredAt 1000) ∧
      ¬ TimesOut symbolic { identity := alice, trust := .empty none } (answeredAt 1000) := by
  refine ⟨by decide +kernel, fun h => ?_⟩
  have hget : started.pending.get? hsId =
      some (startPending symbolic alice (bob.staticPublic symbolic) hsId 12 0) := by
    rw [started, call, startHandshake_snd, OrderedDict.get?_set_self]
  have hle := h [_] ⟨1000, genuine⟩ [] rfl hsId _ (by decide) hget Meeting.sessionOf_genuine.1
  revert hle
  decide +kernel

/-- An answer after a minute is not late. -/
theorem timesOut_minute :
    TimesOut symbolic { identity := alice, trust := .empty none } (answeredAt 60) := by
  refine (timesOut_iff symbolic_correct alice (.empty none) (answeredAt 60)).mpr ?_
  intro before a between t after heq hsId' pending hbegins hlate
  have ha : a ∈ answeredAt 60 := by simp [heq]
  have ht : t ∈ answeredAt 60 := by simp [heq]
  have hstarted : pending.startedAt = 0 := by
    simp only [answeredAt, List.mem_cons, List.not_mem_nil, or_false] at ha
    rcases ha with rfl | rfl
    · exact hbegins.2.symm
    · exact hbegins.elim
  have hmoment : t.moment ≤ 60 := by
    simp only [answeredAt, List.mem_cons, List.not_mem_nil, or_false] at ht
    rcases ht with rfl | rfl <;> norm_num
  rw [hstarted, HANDSHAKE_TIMEOUT] at hlate
  linarith

end SessionManager

end Chatbit
