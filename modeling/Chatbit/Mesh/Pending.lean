import Chatbit.Mesh.Holdings

/-!
# Relays that are pending

A station that has accepted a frame with hops to go will put a copy of it on the air (`Active`),
unless it stands down: its own steps, and the copies of other frames that it hears, leave the relay
pending (`active_step`, `active_hear`).
-/

namespace Chatbit

open Lib

variable {ι β F : Type} [Alphabet β] [DecidableEq β] [Marked β F] [DecidableEq ι]

/-! ## Timers -/

namespace Router

/-- The timers and the pending relays go by the identifier of their frame. -/
structure Keyed (router : Router β F) : Prop where
  timers : ∀ handle ∈ router.timers, handle.key = Frame.dedupKey handle.packet
  pending : ∀ key handle, router.pendingRelays.get? key = some handle → handle.key = key

variable {router after : Router β F}

omit [Alphabet β] in
lemma keyed_new (config : MeshConfig) : (Router.new config : Router β F).Keyed where
  timers _ hhandle := absurd hhandle List.not_mem_nil
  pending _ _ hhandle := absurd hhandle (by simp [Router.new])

omit [Alphabet β] in
lemma Keyed.of_eq (h : router.Keyed) (htimers : after.timers = router.timers)
    (hpending : after.pendingRelays = router.pendingRelays) : after.Keyed := by
  constructor
  · rw [htimers]
    exact h.timers
  · rw [hpending]
    exact h.pending

omit [Alphabet β] in
lemma Keyed.storeOnly (h : router.Keyed) (hstore : StoreOnly router after) :
    after.Keyed := by
  apply h.of_eq
  · rw [hstore]
  · rw [hstore]

omit [Alphabet β] in
lemma Keyed.scheduleRelay (h : router.Keyed) (packet : F) (delay : ℚ) :
    (scheduleRelay packet delay router).Keyed := by
  unfold Router.scheduleRelay
  rcases hforwarded : Frame.decrementTtl packet with _ | forwarded
  · exact h.of_eq rfl rfl
  -- the handle goes by the identifier of the frame that came, and carries the one that leaves
  have hkey : Frame.dedupKey packet = Frame.dedupKey forwarded :=
    (Frame.dedupKey_decrementTtl packet forwarded hforwarded).symm
  constructor
  · intro handle hhandle
    rcases List.mem_append.mp hhandle with hhandle | hhandle
    · exact h.timers handle hhandle
    · rw [List.mem_singleton.mp hhandle]
      exact hkey
  · intro key handle hhandle
    by_cases hsame : key = Frame.dedupKey packet
    · subst hsame
      have hnew := (OrderedDict.get?_set_self router.pendingRelays _ _).symm.trans hhandle
      rw [← Option.some.inj hnew]
    · have hold := (OrderedDict.get?_set_of_ne router.pendingRelays _ hsame).symm.trans hhandle
      exact h.pending key handle hold

omit [Alphabet β] in
lemma Keyed.erase (h : router.Keyed) {timers : List (TimerHandle β F)}
    (hsub : ∀ handle ∈ timers, handle ∈ router.timers) (key : Bytes β × ℕ)
    (htimers : after.timers = timers)
    (hpending : after.pendingRelays = router.pendingRelays.erase key) : after.Keyed := by
  constructor
  · rw [htimers]
    exact fun handle hhandle => h.timers handle (hsub handle hhandle)
  · intro key' handle hhandle
    rw [hpending] at hhandle
    by_cases hsame : key' = key
    · rw [hsame, OrderedDict.get?_erase_self] at hhandle
      cases hhandle
    · rw [OrderedDict.get?_erase_of_ne _ hsame] at hhandle
      exact h.pending key' handle hhandle

omit [Alphabet β] in
lemma Keyed.cancelPendingRelay (h : router.Keyed) (key : Bytes β × ℕ) :
    (cancelPendingRelay key router).Keyed := by
  unfold Router.cancelPendingRelay
  rcases router.pendingRelays.get? key with _ | handle
  · exact h
  · exact h.erase (fun _ hhandle => List.mem_of_mem_filter hhandle) key rfl rfl

end Router

namespace Station

open Router

variable {station : Station β F}

omit [Alphabet β] in
lemma keyed_hear (h : station.router.Keyed) (frame : F) (now : ℚ)
    (forUs : Except (Exc β) Bool) (delay : ℚ) :
    (station.hear frame now forUs delay).router.Keyed := by
  have hcounted : (counted frame now station.router).Keyed := h.of_eq rfl rfl
  by_cases hseen : Frame.dedupKey frame ∈ (station.router.dedup.expire now).seen.keys
  · rw [hear_of_seen hseen]
    unfold dropped
    apply Keyed.cancelPendingRelay
    exact h.of_eq rfl rfl
  · rw [hear_of_new hseen]
    rcases forUs with _ | ours
    · exact hcounted
    · cases ours with
      | true => exact h.of_eq rfl rfl
      | false => exact hcounted.scheduleRelay frame delay

omit [Alphabet β] in
lemma keyed_step (h : station.router.Keyed) (config : MeshConfig) (event : StationEvent) :
    (station.step config event).router.Keyed := by
  have hstepped := stepped_step config station event
  generalize station.step config event = after at hstepped ⊢
  cases hstepped with
  | idle => exact h
  | @delivered n frame hframe returned delay =>
    cases returned with
    | true => exact h.scheduleRelay frame delay
    | false => exact h
  | @fired n handle hhandle =>
    exact h.erase (fun _ hmem => List.mem_of_mem_eraseIdx hmem) handle.key rfl rfl
  | originated hframe returned now => exact h
  | @relayed n frame hframe returned now =>
    have hfewer : Router.Keyed { station.router with
        relayTasks := station.router.relayTasks.eraseIdx n } := h.of_eq rfl rfl
    exact hfewer.storeOnly (storeOnly_finishRelay config frame returned now _)
  | @replayed replay hreplay returned now =>
    exact h.storeOnly (storeOnly_resumeReplay config replay returned _)
  | replaying hreplay now => exact h.storeOnly (storeOnly_replayFrom config now 0 [] 0 _)

/-! ## A frame on its way -/

/-- The station will put a copy of the frame on the air. -/
def Active (key : Bytes β × ℕ) (station : Station β F) : Prop :=
  (∃ frame ∈ station.originating, Frame.dedupKey frame = key) ∨
    (∃ frame ∈ station.delivering, Frame.dedupKey frame = key ∧
      (Frame.decrementTtl frame).isSome) ∨
    ∃ frame ∈ station.router.relaying, Frame.dedupKey frame = key

/-- The station has been handed a copy of the frame by its radio. -/
def Heard (key : Bytes β × ℕ) (station : Station β F) : Prop :=
  ∃ frame ∈ station.handled, Frame.dedupKey frame = key

variable {key : Bytes β × ℕ}

/-- The delivery or the send that ends, if it is of the frame, returns. -/
def Succeeds (key : Bytes β × ℕ) (station : Station β F) : StationEvent → Prop
  | .deliverEnds n returned _ =>
    ∀ frame ∈ station.delivering[n]?, Frame.dedupKey frame = key → returned = true
  | .sendEnds sending returned _ =>
    ∀ frame ∈ station.sendingFrame sending, Frame.dedupKey frame = key → returned = true
  | _ => True

omit [Alphabet β] in
lemma mem_relaying_scheduleRelay {router : Router β F} {frame : F} (h : frame ∈ router.relaying)
    (packet : F) (delay : ℚ) : frame ∈ (scheduleRelay packet delay router).relaying := by
  unfold scheduleRelay
  rcases Frame.decrementTtl packet with _ | forwarded
  · exact h
  · rcases Multiset.mem_add.mp h with h | h
    · apply Multiset.mem_add.mpr
      left
      show frame ∈ (router.timers ++ _).map fun handle => Marked.relayed handle.packet
      rw [List.map_append]
      exact List.mem_append_left _ h
    · exact Multiset.mem_add.mpr (Or.inr h)

omit [Alphabet β] in
/-- A relay that is scheduled is one of the frame. -/
lemma exists_mem_relaying_scheduleRelay {packet : F} (h : (Frame.decrementTtl packet).isSome)
    (delay : ℚ) (router : Router β F) :
    ∃ frame ∈ (scheduleRelay packet delay router).relaying,
      Frame.dedupKey frame = Frame.dedupKey packet := by
  obtain ⟨forwarded, hforwarded⟩ := Option.isSome_iff_exists.mp h
  refine ⟨Marked.relayed forwarded, ?_, (Marked.dedupKey_relayed forwarded).trans
    (Frame.dedupKey_decrementTtl packet forwarded hforwarded)⟩
  unfold scheduleRelay
  rw [hforwarded]
  apply Multiset.mem_add.mpr
  left
  show _ ∈ (router.timers ++ _).map fun handle => Marked.relayed handle.packet
  rw [List.map_append]
  exact List.mem_append_right _ List.mem_cons_self

omit [Alphabet β] in
/-- A relay is not cancelled for a copy of another frame. -/
lemma mem_relaying_dropped {router : Router β F} (hkeyed : router.Keyed) {frame packet : F}
    (h : frame ∈ router.relaying) (now : ℚ)
    (hpending : Frame.dedupKey packet = Frame.dedupKey frame →
      router.pendingRelays.get? (Frame.dedupKey frame) = none) :
    frame ∈ (dropped packet now router).relaying := by
  rw [dropped, cancelPendingRelay]
  split
  · exact h
  rename_i handle hget
  replace hget : router.pendingRelays.get? (Frame.dedupKey packet) = some handle := hget
  -- the relay that is cancelled has the identifier of the other frame
  have hother : handle.key ≠ Frame.dedupKey frame := by
    rw [hkeyed.pending _ handle hget]
    intro hsame
    rw [hsame, hpending hsame] at hget
    cases hget
  rcases Multiset.mem_add.mp h with h | h
  · obtain ⟨timer, htimer, hframe⟩ := List.mem_map.mp (Multiset.mem_coe.mp h)
    apply Multiset.mem_add.mpr
    left
    apply Multiset.mem_coe.mpr
    apply List.mem_map.mpr
    refine ⟨timer, ?_, hframe⟩
    apply List.mem_filter.mpr
    refine ⟨htimer, ?_⟩
    have hkey : timer.key ≠ handle.key := by
      rw [hkeyed.timers timer htimer, ← Marked.dedupKey_relayed, hframe]
      exact hother.symm
    simp [hkey]
  · exact Multiset.mem_add.mpr (Or.inr h)

omit [Alphabet β] in
lemma active_hear (hkeyed : station.router.Keyed) (h : station.Active key) (frame : F) (now : ℚ)
    (forUs : Except (Exc β) Bool) (delay : ℚ)
    (hpending : Frame.dedupKey frame ∈ (station.router.dedup.expire now).seen.keys →
      Frame.dedupKey frame = key → station.router.pendingRelays.get? key = none) :
    (station.hear frame now forUs delay).Active key := by
  by_cases hseen : Frame.dedupKey frame ∈ (station.router.dedup.expire now).seen.keys
  · rw [hear_of_seen hseen]
    rcases h with h | h | ⟨copy, hcopy, rfl⟩
    · exact Or.inl h
    · exact Or.inr (Or.inl h)
    · exact Or.inr (Or.inr ⟨copy, mem_relaying_dropped hkeyed hcopy now (hpending hseen), rfl⟩)
  · rw [hear_of_new hseen]
    rcases forUs with _ | ours
    · exact h
    · cases ours with
      | true =>
        rcases h with h | ⟨copy, hcopy, hrest⟩ | h
        · exact Or.inl h
        · exact Or.inr (Or.inl ⟨copy, List.mem_append_left _ hcopy, hrest⟩)
        · exact Or.inr (Or.inr h)
      | false =>
        rcases h with h | h | ⟨copy, hcopy, hkey⟩
        · exact Or.inl h
        · exact Or.inr (Or.inl h)
        · have hcounted : copy ∈ (counted frame now station.router).relaying := hcopy
          exact Or.inr (Or.inr ⟨copy, mem_relaying_scheduleRelay hcounted frame delay, hkey⟩)

omit [Alphabet β] in
/-- A new frame with hops to go is passed on. -/
lemma active_of_new {frame : F} {now : ℚ}
    (hnew : Frame.dedupKey frame ∉ (station.router.dedup.expire now).seen.keys)
    (httl : (Frame.decrementTtl frame).isSome) {forUs : Except (Exc β) Bool}
    (hforUs : forUs.isOk = true) (delay : ℚ) :
    (station.hear frame now forUs delay).Active (Frame.dedupKey frame) := by
  rw [hear_of_new hnew]
  rcases forUs with _ | ours
  · cases hforUs
  · cases ours with
    | true => exact Or.inr (Or.inl ⟨frame, List.mem_append_right _ List.mem_cons_self, rfl, httl⟩)
    | false => exact Or.inr (Or.inr (exists_mem_relaying_scheduleRelay httl delay _))

omit [Alphabet β] [DecidableEq β] in
lemma Active.of_relaying {after : Station β F} (h : station.Active key)
    (horiginating : after.originating = station.originating)
    (hdelivering : after.delivering = station.delivering)
    (hrelaying : after.router.relaying = station.router.relaying) : after.Active key := by
  unfold Active
  rw [horiginating, hdelivering, hrelaying]
  exact h

omit [Alphabet β] in
/-- The station goes on to put a copy on the air, or does so in the step. -/
lemma active_step (h : station.Active key) (config : MeshConfig) (event : StationEvent)
    (hsucceeds : station.Succeeds key event) :
    (station.step config event).Active key ∨
      ∃ frame, Mesh.emitted station event = some frame ∧ Frame.dedupKey frame = key := by
  have hstepped := stepped_step config station event
  generalize station.step config event = after at hstepped ⊢
  cases hstepped with
  | idle => exact Or.inl h
  | @delivered n frame hframe returned delay =>
    left
    have hrelay : ∀ copy ∈ station.router.relaying, copy ∈ (if returned then
        scheduleRelay frame delay station.router else station.router).relaying := by
      intro copy hcopy
      cases returned with
      | true => exact mem_relaying_scheduleRelay hcopy frame delay
      | false => exact hcopy
    rcases h with h | ⟨copy, hcopy, hkey, httl⟩ | ⟨copy, hcopy, hkey⟩
    · exact Or.inl h
    · rcases mem_eraseIdx_or hframe hcopy with rfl | hcopy
      · -- the delivery returns, and the relay is scheduled
        obtain rfl : returned = true := hsucceeds copy hframe hkey
        obtain ⟨relayed, hrelayed, hsame⟩ :=
          exists_mem_relaying_scheduleRelay httl delay station.router
        exact Or.inr (Or.inr ⟨relayed, hrelayed, hsame.trans hkey⟩)
      · exact Or.inr (Or.inl ⟨copy, hcopy, hkey, httl⟩)
    · exact Or.inr (Or.inr ⟨copy, hrelay copy hcopy, hkey⟩)
  | fired hhandle => exact Or.inl (h.of_relaying rfl rfl (relaying_fireRelay hhandle))
  | @originated n frame hframe returned now =>
    rcases h with ⟨copy, hcopy, hkey⟩ | h
    · rcases mem_eraseIdx_or hframe hcopy with rfl | hcopy
      · -- the send returns, and its copy is on the air
        obtain rfl : returned = true := hsucceeds copy hframe hkey
        exact Or.inr ⟨copy, hframe, hkey⟩
      · exact Or.inl (Or.inl ⟨copy, hcopy, hkey⟩)
    · exact Or.inl (Or.inr h)
  | @relayed n frame hframe returned now =>
    have hstore := storeOnly_finishRelay config frame returned now { station.router with
      relayTasks := station.router.relayTasks.eraseIdx n }
    rcases h with h | h | ⟨copy, hcopy, hkey⟩
    · exact Or.inl (Or.inl h)
    · exact Or.inl (Or.inr (Or.inl h))
    · rcases Multiset.mem_add.mp hcopy with hcopy | hcopy
      · left
        refine Or.inr (Or.inr ⟨copy, ?_, hkey⟩)
        rw [hstore.relaying_eq]
        exact Multiset.mem_add.mpr (Or.inl hcopy)
      · rcases mem_eraseIdx_or hframe hcopy with rfl | hcopy
        · obtain rfl : returned = true := hsucceeds copy hframe hkey
          exact Or.inr ⟨copy, hframe, hkey⟩
        · left
          refine Or.inr (Or.inr ⟨copy, ?_, hkey⟩)
          rw [hstore.relaying_eq]
          exact Multiset.mem_add.mpr (Or.inr hcopy)
  | @replayed replay hreplay returned now =>
    left
    exact h.of_relaying rfl rfl (storeOnly_resumeReplay config replay returned _).relaying_eq
  | replaying hreplay now =>
    left
    exact h.of_relaying rfl rfl (storeOnly_replayFrom config now 0 [] 0 _).relaying_eq

end Station

end Chatbit
