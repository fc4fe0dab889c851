import Chatbit.Mesh.FloodTheorems

/-!
# Frames that carry something along

A router reads of a frame its identifier and its TTL. So what frames carry along may be erased from
a router, before a step or after it (`Router.map`), and what is said of the way of a copy, which is
in its trace, is said of packets. Whatever the caches forget, a copy descends from an originated
frame by fewer relays than that has TTL (`Mesh.Carried`).
-/

namespace Chatbit

open Lib

variable {β F G : Type} [Alphabet β] [DecidableEq β] [Frame β F] [Frame β G]

/-- The router reads the same of `φ frame`. -/
structure Frame.Erases (φ : F → G) : Prop where
  dedupKey : ∀ frame, Frame.dedupKey (φ frame) = Frame.dedupKey frame
  decrementTtl : ∀ frame, Frame.decrementTtl (φ frame) = (Frame.decrementTtl frame).map φ

omit [Alphabet β] [DecidableEq β] in
lemma Traced.erases_packet : Frame.Erases (Traced.packet : Traced β → Packet β) where
  dedupKey _ := rfl
  decrementTtl frame := by
    show frame.packet.decrementTtl = (frame.packet.decrementTtl.map _).map _
    rw [Option.map_map]
    exact Option.map_id'.symm

def StoredFrame.map (φ : F → G) (entry : StoredFrame F) : StoredFrame G :=
  ⟨φ entry.packet, entry.storedAt⟩

def TimerHandle.map (φ : F → G) (handle : TimerHandle β F) : TimerHandle β G :=
  ⟨handle.id, handle.delay, handle.key, φ handle.packet⟩

namespace Router

/-- The router of the frames without what they carry along. -/
def map (φ : F → G) (router : Router β F) : Router β G where
  dedup := router.dedup
  stats := router.stats
  store := router.store.map (StoredFrame.map φ)
  pendingRelays := router.pendingRelays.mapValues (TimerHandle.map φ)
  relayTasks := router.relayTasks.map φ
  timers := router.timers.map (TimerHandle.map φ)
  calls := router.calls

variable {φ : F → G}

/-! ## Looking a frame up -/

omit [Alphabet β] in
/-- The cache keeps identifiers only. -/
lemma map_markSeen (hφ : Frame.Erases φ) (frame : F) (now : ℚ) (router : Router β F) :
    (markSeen frame now router).2.map φ = (markSeen (φ frame) now (router.map φ)).2 := by
  unfold markSeen
  rw [Method.onField_apply, Method.onField_apply, hφ.dedupKey]
  rfl

omit [Alphabet β] [Frame β F] [Frame β G] in
lemma map_cancelTimer (handle : TimerHandle β F) (router : Router β F) :
    (cancelTimer handle router).map φ = cancelTimer (handle.map φ) (router.map φ) := by
  unfold cancelTimer map
  rw [List.filter_map]
  rfl

omit [Alphabet β] [Frame β F] [Frame β G] in
lemma map_cancelPendingRelay (key : Bytes β × ℕ) (router : Router β F) :
    (cancelPendingRelay key router).map φ = cancelPendingRelay key (router.map φ) := by
  have hget : (router.map φ).pendingRelays.get? key =
      (router.pendingRelays.get? key).map (TimerHandle.map φ) :=
    OrderedDict.get?_mapValues _ _ _
  unfold cancelPendingRelay
  rw [hget]
  rcases router.pendingRelays.get? key with _ | handle
  · rfl
  · show (cancelTimer handle _).map φ = cancelTimer (handle.map φ) _
    rw [map_cancelTimer]
    unfold map
    rw [OrderedDict.mapValues_erase]

omit [Alphabet β] in
/-- A frame is as new with what it carries as without. -/
lemma accept_map (hφ : Frame.Erases φ) (frame : F) (now : ℚ) (router : Router β F) :
    accept (φ frame) now (router.map φ) =
      ((accept frame now router).1, (accept frame now router).2.map φ) := by
  by_cases hseen : Frame.dedupKey frame ∈ (router.dedup.expire now).seen.keys
  · have hseen' : Frame.dedupKey (φ frame) ∈ ((router.map φ).dedup.expire now).seen.keys := by
      rw [hφ.dedupKey]
      exact hseen
    rw [accept_of_seen hseen, accept_of_seen hseen']
    unfold dropped counted
    rw [map_cancelPendingRelay, hφ.dedupKey]
    rfl
  · have hnew : Frame.dedupKey (φ frame) ∉ ((router.map φ).dedup.expire now).seen.keys := by
      rw [hφ.dedupKey]
      exact hseen
    rw [accept_of_new hseen, accept_of_new hnew]
    unfold counted
    rw [hφ.dedupKey]
    rfl

/-! ## Relaying -/

omit [Alphabet β] in
lemma map_scheduleRelay (hφ : Frame.Erases φ) (frame : F) (delay : ℚ) (router : Router β F) :
    (scheduleRelay frame delay router).map φ = scheduleRelay (φ frame) delay (router.map φ) := by
  unfold scheduleRelay
  rw [hφ.decrementTtl, hφ.dedupKey]
  rcases Frame.decrementTtl frame with _ | forwarded
  · rfl
  · unfold map
    dsimp only [Option.map_some]
    rw [OrderedDict.mapValues_set, List.map_append]
    rfl

omit [Alphabet β] [Frame β F] [Frame β G] in
lemma map_fireRelay (handle : TimerHandle β F) (router : Router β F) :
    (fireRelay handle router).map φ = fireRelay (handle.map φ) (router.map φ) := by
  unfold fireRelay map
  dsimp only
  rw [OrderedDict.mapValues_erase, List.map_append]
  rfl

omit [Alphabet β] [DecidableEq β] [Frame β F] [Frame β G] in
/-- Storing does not look at what a frame carries along. -/
lemma map_storeFrame (config : MeshConfig) (frame : F) (now : ℚ) (router : Router β F) :
    (storeFrame config frame now router).2.map φ =
      (storeFrame config (φ frame) now (router.map φ)).2 := by
  have hlength : (router.map φ).store.length = router.store.length := List.length_map _
  unfold storeFrame
  by_cases hforward : config.storeForward = true
  · rw [if_pos hforward, if_pos hforward, Method.self_bind, Method.self_bind, hlength]
    split_ifs with hfull
    · -- a full store without entries raises, whatever its frames carry
      rcases hstore : router.store with _ | ⟨oldest, rest⟩
      · have hnil : (router.map φ).store = [] := by
          show router.store.map _ = []
          rw [hstore]
          rfl
        rw [hnil]
        rfl
      · have hcons : (router.map φ).store = oldest.map φ :: rest.map (StoredFrame.map φ) := by
          show router.store.map _ = _
          rw [hstore]
          rfl
        rw [hcons]
        show map φ { router with
          store := rest ++ [⟨frame, now⟩]
          stats := { router.stats with stored := router.stats.stored + 1 } } = _
        unfold map
        dsimp only
        rw [List.map_append]
        rfl
    · show map φ { router with
        store := router.store ++ [⟨frame, now⟩]
        stats := { router.stats with stored := router.stats.stored + 1 } } = _
      unfold map
      dsimp only
      rw [List.map_append]
      rfl
  · rw [if_neg hforward, if_neg hforward]
    rfl

omit [Alphabet β] [DecidableEq β] [Frame β F] [Frame β G] in
lemma map_finishRelay (config : MeshConfig) (frame : F) (sent : Bool) (now : ℚ)
    (router : Router β F) :
    (finishRelay config frame sent now router).2.map φ =
      (finishRelay config (φ frame) sent now (router.map φ)).2 := by
  unfold finishRelay
  cases sent with
  | true => rfl
  | false =>
    rw [if_neg Bool.false_ne_true, if_neg Bool.false_ne_true]
    split_ifs
    · exact map_storeFrame config frame now router
    · rfl

end Router

/-! ## The way of a copy -/

namespace Mesh

open Station

variable {ι : Type} [DecidableEq ι] {neighbours : ι → List ι} {config : ι → MeshConfig}
  {mesh : Mesh ι β (Traced β)}

/-- A frame that is originated has been through no relay, and is of our version. -/
def Starts (_ : Mesh ι β (Traced β)) : MeshEvent ι β (Traced β) → Prop
  | .originate _ frame _ => frame.hops = 0 ∧ frame.packet.version = VERSION
  | _ => True

/-- Every copy that a station holds or that is on the air descends from an originated frame. -/
structure Carried (mesh : Mesh ι β (Traced β)) : Prop where
  held : ∀ i, ∀ frame ∈ (mesh.stations i).held, frame.Descends mesh.originated
  flight : ∀ copy ∈ mesh.flight, copy.2.Descends mesh.originated
  version : ∀ source ∈ mesh.originated, source.2.packet.version = VERSION

omit [DecidableEq ι] [Alphabet β] [DecidableEq β] in
/-- A descendant has the version of its source. -/
lemma Carried.of_descends (h : mesh.Carried) {frame : Traced β}
    (hframe : frame.Descends mesh.originated) : frame.packet.version = VERSION := by
  obtain ⟨i, source, hsource, hsame, -⟩ := hframe
  rw [hsame.2.2.2.2.2.2]
  exact h.version _ hsource

omit [Alphabet β] [DecidableEq β] in
/-- A step at one station. -/
lemma Carried.setStation (h : mesh.Carried) {i : ι} {station : Station β (Traced β)}
    {originated flight : List (ι × Traced β)} (horiginated : mesh.originated ⊆ originated)
    (hheld : ∀ frame ∈ station.held, frame.Descends originated)
    (hflight : ∀ copy ∈ flight, copy.2.Descends originated)
    (hversion : ∀ source ∈ originated, source.2.packet.version = VERSION) :
    ({ mesh.setStation i station with
      originated := originated, flight := flight } : Mesh ι β (Traced β)).Carried := by
  refine ⟨fun j frame hframe => ?_, hflight, hversion⟩
  by_cases hj : j = i
  · subst hj
    have hstation : ((mesh.setStation j station).stations j) = station := Function.update_self ..
    exact hheld frame (hstation ▸ hframe)
  · have hstation : ((mesh.setStation i station).stations j) = mesh.stations j :=
      Function.update_of_ne hj ..
    exact (h.held j frame (hstation ▸ hframe)).mono horiginated

omit [DecidableEq ι] [Alphabet β] [DecidableEq β] in
/-- What a station sends descends from a source. -/
lemma Carried.copies (h : mesh.Carried) {i : ι} {sent : Option (Traced β)}
    (hsent : ∀ frame, sent = some frame → frame ∈ (mesh.stations i).held) :
    ∀ copy ∈ mesh.flight ++ Mesh.copies neighbours i sent, copy.2.Descends mesh.originated := by
  intro copy hcopy
  rcases List.mem_append.mp hcopy with hcopy | hcopy
  · exact h.flight copy hcopy
  rcases sent with _ | frame
  · exact absurd hcopy List.not_mem_nil
  · obtain ⟨j, -, rfl⟩ := List.mem_map.mp hcopy
    exact h.held i frame (hsent frame rfl)

omit [Alphabet β] in
lemma Carried.hear (h : mesh.Carried) {n : ℕ} {i : ι} {frame : Traced β} (now : ℚ)
    (forUs : Except (Exc β) Bool) (delay : ℚ) (hflight : mesh.flight[n]? = some (i, frame)) :
    (mesh.step neighbours config (.hear n now forUs delay)).Carried := by
  have hframe : frame.Descends mesh.originated := h.flight _ (List.mem_of_getElem? hflight)
  rw [step_hear_of_some hflight]
  apply h.setStation (List.Subset.refl _) ?_
    (fun copy hcopy => h.flight copy (List.mem_of_mem_eraseIdx hcopy)) h.version
  by_cases hseen :
      Frame.dedupKey frame ∈ ((mesh.stations i).router.dedup.expire now).seen.keys
  · exact fun held hmem =>
      h.held i held (Multiset.mem_of_le (held_le_of_seen hseen forUs delay) hmem)
  · apply (inherits_hear_of_new hseen forUs delay).forall_mem
      (Q := Traced.Descends mesh.originated) fun _ _ hforwards hold => hold.forwards hforwards
    intro held hmem
    rcases Multiset.mem_add.mp hmem with hmem | hmem
    · rw [Multiset.mem_singleton.mp hmem]
      exact hframe
    · exact h.held i held hmem

omit [Alphabet β] in
/-- Every event keeps the descent. -/
lemma Carried.step (h : mesh.Carried) (event : MeshEvent ι β (Traced β))
    (hstarts : mesh.Starts event) : (mesh.step neighbours config event).Carried := by
  cases event with
  | originate i frame now =>
    have hsub : mesh.originated ⊆ mesh.originated ++ [(i, frame)] := List.subset_append_left _ _
    apply h.setStation hsub
    · intro held hheld
      rw [held_originate] at hheld
      rcases Multiset.mem_add.mp hheld with hheld | hheld
      · rw [Multiset.mem_singleton.mp hheld]
        exact Traced.descends_source (List.mem_append_right _ List.mem_cons_self) hstarts.1
      · exact (h.held i held hheld).mono hsub
    · exact fun copy hcopy => (h.flight copy hcopy).mono hsub
    · intro source hsource
      rcases List.mem_append.mp hsource with hsource | hsource
      · exact h.version source hsource
      · rw [List.mem_singleton.mp hsource]
        exact hstarts.2
  | hear n now forUs delay =>
    rcases hflight : mesh.flight[n]? with _ | ⟨i, frame⟩
    · rw [step_hear_of_none hflight]
      exact h
    · exact h.hear now forUs delay hflight
  | station i event =>
    apply h.setStation (List.Subset.refl _) _ _ h.version
    · exact (inherits_step (config i) (mesh.stations i) event).forall_mem
        (Q := Traced.Descends mesh.originated) (fun _ _ hforwards hold => hold.forwards hforwards)
        (h.held i)
    · exact h.copies fun frame hframe => mem_held_of_emitted hframe
  | onAir i sending =>
    exact ⟨h.held, h.copies fun frame hframe => mem_held_of_sendingFrame hframe, h.version⟩
  | lose n =>
    exact ⟨h.held, fun copy hcopy => h.flight copy (List.mem_of_mem_eraseIdx hcopy), h.version⟩
  | duplicate n =>
    refine ⟨h.held, fun copy hcopy => ?_, h.version⟩
    rcases List.mem_append.mp hcopy with hcopy | hcopy
    · exact h.flight copy hcopy
    · exact h.flight copy (List.mem_of_getElem? (Option.mem_toList.mp hcopy))

omit [Alphabet β] in
/-- In every run, whatever the caches forget. -/
theorem carried_run (hrun : Reaches Starts (step neighbours config) (initial config) mesh) :
    mesh.Carried := by
  apply hrun.invariant (I := Carried) _ fun _ event h hevent => h.step event hevent
  exact ⟨fun _ _ hframe => absurd hframe (Multiset.notMem_zero _),
    fun _ hcopy => absurd hcopy List.not_mem_nil, fun _ hsource => absurd hsource List.not_mem_nil⟩

end Mesh

end Chatbit
