import Mathlib.Combinatorics.SimpleGraph.Walk.Operations
import Chatbit.Mesh.FloodTheorems
import Chatbit.Mesh.Pending

/-!
# How far a flood gets

Where no link loses a frame, a frame gets to every node that is within its TTL of the originator, as
long as two things that the router takes for granted are so: a node that stands down has no
neighbour left that has yet to hear the frame, and the first copy that a node hears has come by a
shortest way (`flood_covers`). A node at the edge of a group that hears a neighbour's copy stands
down all the same, and then the nodes behind it never hear the frame.
-/

namespace Chatbit

open Lib

variable {ι β F : Type} [Alphabet β] [DecidableEq β] [Marked β F] [DecidableEq ι]

/-! ## The flood of one frame -/

namespace Mesh

open Station

/-- The originator has the frame, and so has whoever heard it. -/
def Reached (origin : ι) (key : Bytes β × ℕ) (mesh : Mesh ι β F) (i : ι) : Prop :=
  i = origin ∨ (mesh.stations i).Heard key

/-- The node has the frame, or a copy is on the air for it. -/
def Covered (origin : ι) (key : Bytes β × ℕ) (mesh : Mesh ι β F) (i : ι) : Prop :=
  mesh.Reached origin key i ∨ ∃ copy ∈ mesh.flight, copy.1 = i ∧ Frame.dedupKey copy.2 = key

/-- The frame is not originated again, no copy of it is lost, and its sends and deliveries return.
-/
def LossFree (key : Bytes β × ℕ) (mesh : Mesh ι β F) : MeshEvent ι β F → Prop
  | .originate _ frame _ => Frame.dedupKey frame ≠ key
  | .hear n _ forUs _ =>
    ∀ copy ∈ mesh.flight[n]?, Frame.dedupKey copy.2 = key → forUs.isOk = true
  | .station i event => (mesh.stations i).Succeeds key event
  | .onAir _ _ => True
  | .lose n => ∀ copy ∈ mesh.flight[n]?, Frame.dedupKey copy.2 ≠ key
  | .duplicate _ => True

/-- In a loss-free step, a node that stands down has no neighbour that is not covered, and the first
copy that a node hears has come by a shortest way. -/
def Covering (G : SimpleGraph ι) (origin : ι) (packet : Packet β)
    (mesh : Mesh ι β (Packet β)) (event : MeshEvent ι β (Packet β)) : Prop :=
  mesh.LossFree packet.dedupKey event ∧
    match event with
    | .hear n now _ _ => ∀ copy ∈ mesh.flight[n]?, copy.2.dedupKey = packet.dedupKey →
      (packet.dedupKey ∈ ((mesh.stations copy.1).router.dedup.expire now).seen.keys →
        packet.dedupKey ∈ (mesh.stations copy.1).router.pendingRelays.keys →
        ∀ j, G.Adj copy.1 j → mesh.Covered origin packet.dedupKey j) ∧
      (¬ mesh.Reached origin packet.dedupKey copy.1 →
        ∀ walk : G.Walk origin copy.1, packet.ttl + 1 ≤ copy.2.ttl + walk.length)
    | _ => True

/-- No node has seen the frame. -/
def Unknown (key : Bytes β × ℕ) (mesh : Mesh ι β F) : Prop :=
  ∀ i, key ∉ (mesh.stations i).seenKeys ∧ ¬ (mesh.stations i).Heard key

/-- No copy of the frame is on the air, and no relay of it is pending. -/
def Quiet (key : Bytes β × ℕ) (mesh : Mesh ι β F) : Prop :=
  (∀ copy ∈ mesh.flight, Frame.dedupKey copy.2 ≠ key) ∧
    ∀ i, ∀ frame ∈ (mesh.stations i).originating ++ (mesh.stations i).delivering ++
      (mesh.stations i).router.timers.map TimerHandle.packet ++
      (mesh.stations i).router.relayTasks, Frame.dedupKey frame ≠ key

variable {G : SimpleGraph ι} {origin : ι} {packet : Packet β} {key : Bytes β × ℕ}
  {mesh mesh' : Mesh ι β (Packet β)} {neighbours : ι → List ι} {config : ι → MeshConfig}

omit [DecidableEq ι] in
/-- What is covered stays covered. -/
lemma Covered.mono {j : ι} (h : mesh.Covered origin key j)
    (hheard : ∀ i, (mesh.stations i).Heard key → (mesh'.stations i).Heard key)
    (hflight : ∀ copy ∈ mesh.flight, Frame.dedupKey copy.2 = key →
      copy ∈ mesh'.flight ∨ (mesh'.stations copy.1).Heard key) :
    mesh'.Covered origin key j := by
  rcases h with (h | h) | ⟨copy, hcopy, rfl, hkey⟩
  · exact Or.inl (Or.inl h)
  · exact Or.inl (Or.inr (hheard j h))
  · rcases hflight copy hcopy hkey with hcopy | hheard
    · exact Or.inr ⟨copy, hcopy, rfl, hkey⟩
    · exact Or.inl (Or.inr hheard)

/-- A node that has the frame and is not at the end of its range has passed it on to all neighbours,
or will. -/
structure Spreading (G : SimpleGraph ι) (origin : ι) (packet : Packet β)
    (mesh : Mesh ι β (Packet β)) : Prop where
  keyed : ∀ i, (mesh.stations i).router.Keyed
  seen : ∀ i, packet.dedupKey ∈ (mesh.stations i).seenKeys →
    mesh.Reached origin packet.dedupKey i
  route : ∀ i, mesh.Reached origin packet.dedupKey i →
    ∀ walk : G.Walk origin i, walk.length + 1 ≤ packet.ttl →
      (∀ j, G.Adj i j → mesh.Covered origin packet.dedupKey j) ∨
        (mesh.stations i).Active packet.dedupKey

omit [DecidableEq ι] in
/-- A step that happens on the air. -/
lemma Spreading.setFlight (h : Spreading G origin packet mesh)
    {flight : List (ι × Packet β)}
    (hflight : ∀ copy ∈ mesh.flight, copy.2.dedupKey = packet.dedupKey → copy ∈ flight) :
    Spreading G origin packet { mesh with flight := flight } where
  keyed := h.keyed
  seen := h.seen
  route i hreached walk hwalk := by
    rcases h.route i hreached walk hwalk with hcovered | hactive
    · left
      intro j hj
      apply (hcovered j hj).mono
      · exact fun _ hheard => hheard
      · exact fun copy hcopy hkey => Or.inl (hflight copy hcopy hkey)
    · exact Or.inr hactive

/-- A step of a station. -/
lemma Spreading.setStation (h : Spreading G origin packet mesh) {i : ι}
    {station : Station β (Packet β)} {flight originated : List (ι × Packet β)}
    (hkeyed : station.router.Keyed)
    (hheard : (mesh.stations i).Heard packet.dedupKey → station.Heard packet.dedupKey)
    (hseen : packet.dedupKey ∈ station.seenKeys →
      mesh.Reached origin packet.dedupKey i ∨ station.Heard packet.dedupKey)
    (hflight : ∀ copy ∈ mesh.flight, copy.2.dedupKey = packet.dedupKey →
      copy ∈ flight ∨ copy.1 = i ∧ station.Heard packet.dedupKey)
    (hroute : ∀ walk : G.Walk origin i, walk.length + 1 ≤ packet.ttl →
      i = origin ∨ station.Heard packet.dedupKey →
      (∀ j, G.Adj i j → mesh.Covered origin packet.dedupKey j ∨
        ∃ copy ∈ flight, copy.1 = j ∧ copy.2.dedupKey = packet.dedupKey) ∨
      station.Active packet.dedupKey) :
    Spreading G origin packet
      { mesh.setStation i station with flight := flight, originated := originated } := by
  have hself : Function.update mesh.stations i station i = station := Function.update_self _ _ _
  have hother : ∀ {j}, j ≠ i → Function.update mesh.stations i station j = mesh.stations j :=
    fun hj => Function.update_of_ne hj _ _
  have hmono : ∀ j, (mesh.stations j).Heard packet.dedupKey →
      (Function.update mesh.stations i station j).Heard packet.dedupKey := by
    intro j hj
    by_cases hi : j = i
    · subst hi
      rw [hself]
      exact hheard hj
    · rw [hother hi]
      exact hj
  -- a copy that was on the air still is, or it is the one that this station has heard
  have hcovered : ∀ j, mesh.Covered origin packet.dedupKey j →
      Covered origin packet.dedupKey
        { mesh.setStation i station with flight := flight, originated := originated } j := by
    intro j hj
    apply hj.mono hmono
    intro copy hcopy hkey
    rcases hflight copy hcopy hkey with hcopy | ⟨hi, hnew⟩
    · exact Or.inl hcopy
    · right
      show (Function.update mesh.stations i station copy.1).Heard packet.dedupKey
      rw [hi, hself]
      exact hnew
  refine ⟨?_, ?_, ?_⟩
  · intro j
    show (Function.update mesh.stations i station j).router.Keyed
    by_cases hi : j = i
    · rw [hi, hself]
      exact hkeyed
    · rw [hother hi]
      exact h.keyed j
  · intro j
    show packet.dedupKey ∈ (Function.update mesh.stations i station j).seenKeys →
      j = origin ∨ (Function.update mesh.stations i station j).Heard packet.dedupKey
    by_cases hi : j = i
    · subst hi
      rw [hself]
      intro hmem
      rcases hseen hmem with (hreached | hreached) | hreached
      · exact Or.inl hreached
      · exact Or.inr (hheard hreached)
      · exact Or.inr hreached
    · rw [hother hi]
      exact h.seen j
  · intro j
    show j = origin ∨ (Function.update mesh.stations i station j).Heard packet.dedupKey →
      ∀ walk : G.Walk origin j, walk.length + 1 ≤ packet.ttl → _ ∨
        (Function.update mesh.stations i station j).Active packet.dedupKey
    by_cases hi : j = i
    · subst hi
      rw [hself]
      intro hreached walk hwalk
      -- this station, after its step
      rcases hroute walk hwalk hreached with hall | hactive
      · left
        intro k hk
        rcases hall k hk with hold | hnew
        · exact hcovered k hold
        · exact Or.inr hnew
      · exact Or.inr hactive
    · rw [hother hi]
      intro hreached walk hwalk
      -- any other station, as before
      rcases h.route j hreached walk hwalk with hall | hactive
      · exact Or.inl fun k hk => hcovered k (hall k hk)
      · exact Or.inr hactive

omit [Alphabet β] in
lemma heard_hear_iff {station : Station β F} {frame : F} {now delay : ℚ}
    {forUs : Except (Exc β) Bool} :
    (station.hear frame now forUs delay).Heard key ↔
      station.Heard key ∨ Frame.dedupKey frame = key := by
  unfold Heard
  rw [handled_hear]
  simp only [List.mem_append, List.mem_singleton]
  constructor
  · rintro ⟨copy, hcopy | rfl, hkey⟩
    · exact Or.inl ⟨copy, hcopy, hkey⟩
    · exact Or.inr hkey
  · rintro (⟨copy, hcopy, hkey⟩ | hkey)
    · exact ⟨copy, Or.inl hcopy, hkey⟩
    · exact ⟨frame, Or.inr rfl, hkey⟩

/-- Another frame is originated. -/
lemma Spreading.originate (h : Spreading G origin packet mesh) {i : ι} {frame : Packet β}
    (hother : frame.dedupKey ≠ packet.dedupKey) (now : ℚ) :
    Spreading G origin packet (mesh.step neighbours config (.originate i frame now)) := by
  apply h.setStation
  · exact (h.keyed i).of_eq rfl rfl
  · exact fun hheard => hheard
  · intro hmem
    rcases DedupCache.mem_keys_of_checkSeen hmem with hsame | hold
    · exact absurd hsame.symm hother
    · exact Or.inl (h.seen i hold)
  · exact fun _ hcopy _ => Or.inl hcopy
  · intro walk hwalk hreached
    rcases h.route i hreached walk hwalk with hall | hactive
    · exact Or.inl fun j hj => Or.inl (hall j hj)
    · right
      rcases hactive with ⟨copy, hcopy, hkey⟩ | hactive
      · exact Or.inl ⟨copy, List.mem_append_left _ hcopy, hkey⟩
      · exact Or.inr hactive

/-- A copy of another frame is heard. -/
lemma Spreading.hear_other (h : Spreading G origin packet mesh) {n : ℕ} {i : ι}
    {frame : Packet β} (hflight : mesh.flight[n]? = some (i, frame))
    (hother : frame.dedupKey ≠ packet.dedupKey) (now : ℚ) (forUs : Except (Exc β) Bool)
    (delay : ℚ) :
    Spreading G origin packet (mesh.step neighbours config (.hear n now forUs delay)) := by
  rw [step_hear_of_some hflight]
  apply h.setStation
  · exact keyed_hear (h.keyed i) frame now forUs delay
  · exact fun hheard => heard_hear_iff.mpr (Or.inl hheard)
  · intro hmem
    unfold seenKeys at hmem
    rw [dedup_hear] at hmem
    rcases DedupCache.mem_keys_of_checkSeen hmem with hsame | hold
    · exact absurd hsame.symm hother
    · exact Or.inl (h.seen i hold)
  · intro copy hcopy hkey
    rcases mem_eraseIdx_or hflight hcopy with rfl | hcopy
    · exact absurd hkey hother
    · exact Or.inl hcopy
  · intro walk hwalk hreached
    -- the frame that was heard is another one
    have hbefore : mesh.Reached origin packet.dedupKey i := by
      rcases hreached with hreached | hreached
      · exact Or.inl hreached
      · rcases heard_hear_iff.mp hreached with hheard | hsame
        · exact Or.inr hheard
        · exact absurd hsame hother
    rcases h.route i hbefore walk hwalk with hall | hactive
    · exact Or.inl fun j hj => Or.inl (hall j hj)
    · right
      exact active_hear (h.keyed i) hactive frame now forUs delay
        fun _ hsame => absurd hsame hother

/-- A copy of the frame is heard. -/
lemma Spreading.hear_frame (h : Spreading G origin packet mesh) {n : ℕ} {i : ι}
    {frame : Packet β} (hflight : mesh.flight[n]? = some (i, frame))
    (hsame : frame.dedupKey = packet.dedupKey) {now : ℚ} {forUs : Except (Exc β) Bool}
    {delay : ℚ} (hcovering : Covering G origin packet mesh (.hear n now forUs delay)) :
    Spreading G origin packet (mesh.step neighbours config (.hear n now forUs delay)) := by
  obtain ⟨hloss, hcovering⟩ := hcovering
  have hforUs := hloss (i, frame) hflight hsame
  obtain ⟨hstands, hshort⟩ := hcovering (i, frame) hflight hsame
  have hheard : ((mesh.stations i).hear frame now forUs delay).Heard packet.dedupKey :=
    heard_hear_iff.mpr (Or.inr hsame)
  rw [step_hear_of_some hflight]
  apply h.setStation
  · exact keyed_hear (h.keyed i) frame now forUs delay
  · exact fun _ => hheard
  · exact fun _ => Or.inr hheard
  · intro copy hcopy hkey
    rcases mem_eraseIdx_or hflight hcopy with rfl | hcopy
    · exact Or.inr ⟨rfl, hheard⟩
    · exact Or.inl hcopy
  · intro walk hwalk _
    by_cases hreached : mesh.Reached origin packet.dedupKey i
    · rcases h.route i hreached walk hwalk with hall | hactive
      · exact Or.inl fun j hj => Or.inl (hall j hj)
      by_cases hpending : packet.dedupKey ∈
          ((mesh.stations i).router.dedup.expire now).seen.keys ∧
        packet.dedupKey ∈ (mesh.stations i).router.pendingRelays.keys
      · -- the node stands down
        exact Or.inl fun j hj => Or.inl (hstands hpending.1 hpending.2 j hj)
      · -- it has no relay pending that the copy could cancel
        right
        apply active_hear (h.keyed i) hactive
        intro hseen _
        apply OrderedDict.get?_eq_none_iff.mpr
        exact fun hmem => hpending ⟨hsame ▸ hseen, hmem⟩
    · -- the first copy has come by a shortest way, so it has a hop to go
      have hnew : frame.dedupKey ∉ ((mesh.stations i).router.dedup.expire now).seen.keys := by
        intro hmem
        have hkey := DedupCache.mem_keys_of_expire hmem
        rw [hsame] at hkey
        exact hreached (h.seen i hkey)
      have httl : (Frame.decrementTtl frame).isSome := by
        have hlong := hshort hreached walk
        have hpositive : 1 < frame.ttl := by
          show 1 < frame.ttl
          have hframe : packet.ttl + 1 ≤ frame.ttl + walk.length := hlong
          omega
        exact Option.isSome_iff_exists.mpr ⟨_, Packet.decrementTtl_eq_some_iff.mpr ⟨hpositive, rfl⟩⟩
      right
      rw [← hsame]
      exact active_of_new hnew httl hforUs delay

lemma Spreading.station (h : Spreading G origin packet mesh)
    (hG : ∀ i j, j ∈ neighbours i ↔ G.Adj i j) {i : ι} {event : StationEvent}
    (hsucceeds : (mesh.stations i).Succeeds packet.dedupKey event) :
    Spreading G origin packet (mesh.step neighbours config (.station i event)) := by
  obtain ⟨hdedup, -, hhandled⟩ := step_eq (config i) (mesh.stations i) event
  have hheard : ((mesh.stations i).step (config i) event).Heard packet.dedupKey ↔
      (mesh.stations i).Heard packet.dedupKey := by
    unfold Heard
    rw [hhandled]
  apply h.setStation
  · exact keyed_step (h.keyed i) (config i) event
  · exact hheard.mpr
  · intro hmem
    unfold seenKeys at hmem
    rw [hdedup] at hmem
    exact Or.inl (h.seen i hmem)
  · exact fun _ hcopy _ => Or.inl (List.mem_append_left _ hcopy)
  · intro walk hwalk hreached
    rcases h.route i (hreached.imp_right hheard.mp) walk hwalk with hall | hactive
    · exact Or.inl fun j hj => Or.inl (hall j hj)
    rcases active_step hactive (config i) event hsucceeds with hactive | ⟨frame, hsent, hkey⟩
    · exact Or.inr hactive
    · left
      intro j hj
      right
      -- the copy that it has put on the air is for every neighbour
      refine ⟨(j, frame), List.mem_append_right _ ?_, rfl, hkey⟩
      rw [hsent]
      exact List.mem_map_of_mem ((hG i j).mpr hj)

lemma Spreading.step (h : Spreading G origin packet mesh)
    (hG : ∀ i j, j ∈ neighbours i ↔ G.Adj i j) {event : MeshEvent ι β (Packet β)}
    (hcovering : Covering G origin packet mesh event) :
    Spreading G origin packet (mesh.step neighbours config event) := by
  cases event with
  | originate i frame now => exact h.originate hcovering.1 now
  | hear n now forUs delay =>
    rcases hflight : mesh.flight[n]? with _ | ⟨i, frame⟩
    · rw [step_hear_of_none hflight]
      exact h
    by_cases hsame : frame.dedupKey = packet.dedupKey
    · exact h.hear_frame hflight hsame hcovering
    · exact h.hear_other hflight hsame now forUs delay
  | station i event => exact h.station hG hcovering.1
  | onAir i sending => exact h.setFlight fun copy hcopy _ => List.mem_append_left _ hcopy
  | lose n =>
    apply h.setFlight
    intro copy hcopy hkey
    rcases hflight : mesh.flight[n]? with _ | lost
    · rw [List.eraseIdx_of_length_le (List.getElem?_eq_none_iff.mp hflight)]
      exact hcopy
    · rcases mem_eraseIdx_or hflight hcopy with rfl | hcopy
      · exact absurd hkey (hcovering.1 copy hflight)
      · exact hcopy
  | duplicate n => exact h.setFlight fun copy hcopy _ => List.mem_append_left _ hcopy

/-! ## Whole runs -/

lemma keyed_run (hrun : Reaches (fun _ _ => True) (step neighbours config) (initial config) mesh)
    (i : ι) : (mesh.stations i).router.Keyed := by
  have hkeyed : ∀ i, (mesh.stations i).router.Keyed := by
    apply hrun.invariant (I := fun mesh => ∀ i, (mesh.stations i).router.Keyed)
    · exact fun i => Router.keyed_new (config i)
    intro mesh event h _
    have hupdate : ∀ {i station}, station.router.Keyed →
        ∀ j, (Function.update mesh.stations i station j).router.Keyed := by
      intro i station hstation j
      by_cases hj : j = i
      · rw [hj, Function.update_self]
        exact hstation
      · rw [Function.update_of_ne hj]
        exact h j
    cases event with
    | originate i frame now => exact hupdate ((h i).of_eq rfl rfl)
    | hear n now forUs delay =>
      rcases hflight : mesh.flight[n]? with _ | ⟨i, frame⟩
      · rw [step_hear_of_none hflight]
        exact h
      · rw [step_hear_of_some hflight]
        exact hupdate (keyed_hear (h i) frame now forUs delay)
    | station i event => exact hupdate (keyed_step (h i) (config i) event)
    | onAir i sending => exact h
    | lose n => exact h
    | duplicate n => exact h
  exact hkeyed i

lemma spreading_originate (hkeyed : ∀ i, (mesh.stations i).router.Keyed)
    (hunknown : mesh.Unknown packet.dedupKey) (now : ℚ) :
    Spreading G origin packet (mesh.step neighbours config (.originate origin packet now)) := by
  have hself : (mesh.step neighbours config (.originate origin packet now)).stations origin =
      (mesh.stations origin).originate packet now := Function.update_self _ _ _
  have hother : ∀ {i}, i ≠ origin →
      (mesh.step neighbours config (.originate origin packet now)).stations i =
        mesh.stations i := fun hi => Function.update_of_ne hi _ _
  refine ⟨?_, ?_, ?_⟩
  · intro i
    by_cases hi : i = origin
    · rw [hi, hself]
      exact (hkeyed origin).of_eq rfl rfl
    · rw [hother hi]
      exact hkeyed i
  · intro i hmem
    by_cases hi : i = origin
    · exact Or.inl hi
    · rw [hother hi] at hmem
      exact absurd hmem (hunknown i).1
  · -- only the originator has the frame, and it is about to send it
    intro i hreached _ _
    right
    by_cases hi : i = origin
    · rw [hi, hself]
      exact Or.inl ⟨packet, List.mem_append_right _ List.mem_cons_self, rfl⟩
    · rcases hreached with hreached | hreached
      · exact absurd hreached hi
      · rw [hother hi] at hreached
        exact absurd hreached (hunknown i).2

omit [DecidableEq ι] in
/-- Where nothing of the frame is left to be sent, whoever has it has passed it on. -/
lemma Spreading.covered_of_quiet (h : Spreading G origin packet mesh)
    (hquiet : mesh.Quiet packet.dedupKey) {i : ι} (hreached : mesh.Reached origin packet.dedupKey i)
    (walk : G.Walk origin i) (hwalk : walk.length + 1 ≤ packet.ttl) {j : ι} (hj : G.Adj i j) :
    mesh.Reached origin packet.dedupKey j := by
  obtain ⟨hair, hidle⟩ := hquiet
  rcases h.route i hreached walk hwalk with hall | hactive
  · rcases hall j hj with hj | ⟨copy, hcopy, -, hkey⟩
    · exact hj
    · exact absurd hkey (hair copy hcopy)
  · -- a node that is still to send the frame is not quiet
    exfalso
    have hnone := hidle i
    simp only [List.mem_append] at hnone
    rcases hactive with ⟨copy, hcopy, hkey⟩ | ⟨copy, hcopy, hkey, -⟩ | ⟨copy, hcopy, hkey⟩
    · exact hnone copy (Or.inl (Or.inl (Or.inl hcopy))) hkey
    · exact hnone copy (Or.inl (Or.inl (Or.inr hcopy))) hkey
    · rcases Multiset.mem_add.mp hcopy with hcopy | hcopy
      · exact hnone copy (Or.inl (Or.inr hcopy)) hkey
      · exact hnone copy (Or.inr hcopy) hkey

omit [DecidableEq ι] in
/-- Along a walk from a node that has the frame. -/
lemma Spreading.reached_of_walk (h : Spreading G origin packet mesh)
    (hquiet : mesh.Quiet packet.dedupKey) {i j : ι} (onward : G.Walk i j)
    (walk : G.Walk origin i) (hlength : walk.length + onward.length ≤ packet.ttl)
    (hreached : mesh.Reached origin packet.dedupKey i) :
    mesh.Reached origin packet.dedupKey j := by
  -- on the walk ahead, for any walk behind
  induction onward with
  | nil => exact hreached
  | cons hadj onward ih =>
    rw [SimpleGraph.Walk.length_cons] at hlength
    apply ih (walk.concat hadj)
    · rw [SimpleGraph.Walk.length_concat]
      omega
    · exact h.covered_of_quiet hquiet hreached walk (by omega) hadj

/-! ## Results -/

/-- A frame of TTL `T` that is originated in a mesh of loss-free links gets to every node within `T`
hops, in a run in which no node stands down in front of a neighbour that has yet to be covered, and
first copies come by a shortest way. -/
theorem flood_covers (hG : ∀ i j, j ∈ neighbours i ↔ G.Adj i j)
    (hbefore : Reaches (fun _ _ => True) (step neighbours config) (initial config) mesh)
    (hunknown : mesh.Unknown packet.dedupKey) {now : ℚ}
    (hrun : Reaches (Covering G origin packet) (step neighbours config)
      (mesh.step neighbours config (.originate origin packet now)) mesh')
    (hquiet : mesh'.Quiet packet.dedupKey) {i : ι} (walk : G.Walk origin i)
    (hwalk : walk.length ≤ packet.ttl) : mesh'.Reached origin packet.dedupKey i := by
  have hspreading : Spreading G origin packet mesh' :=
    hrun.invariant (I := Spreading G origin packet)
      (spreading_originate (keyed_run hbefore) hunknown now) fun _ _ h hevent => h.step hG hevent
  apply hspreading.reached_of_walk hquiet walk SimpleGraph.Walk.nil
  · rw [SimpleGraph.Walk.length_nil, Nat.zero_add]
    exact hwalk
  · exact Or.inl rfl

/-! ## Nodes that stand down -/

instance (key : Bytes β × ℕ) (station : Station β F) : Decidable (station.Heard key) :=
  inferInstanceAs (Decidable (∃ _ ∈ _, _))

instance (key : Bytes β × ℕ) (station : Station β F) :
    ∀ event, Decidable (station.Succeeds key event)
  | .deliverEnds _ _ _ => inferInstanceAs (Decidable (∀ _ ∈ _, _))
  | .sendEnds _ _ _ => inferInstanceAs (Decidable (∀ _ ∈ _, _))
  | .fire _ => inferInstanceAs (Decidable True)
  | .replay _ => inferInstanceAs (Decidable True)

instance (origin i : ι) (key : Bytes β × ℕ) (mesh : Mesh ι β F) :
    Decidable (mesh.Reached origin key i) :=
  inferInstanceAs (Decidable (_ ∨ _))

instance (key : Bytes β × ℕ) (mesh : Mesh ι β F) : ∀ event, Decidable (mesh.LossFree key event)
  | .originate _ _ _ => inferInstanceAs (Decidable (_ ≠ _))
  | .hear _ _ _ _ => inferInstanceAs (Decidable (∀ _ ∈ _, _))
  | .station _ _ => inferInstanceAs (Decidable (Succeeds _ _ _))
  | .onAir _ _ => inferInstanceAs (Decidable True)
  | .lose _ => inferInstanceAs (Decidable (∀ _ ∈ _, _))
  | .duplicate _ => inferInstanceAs (Decidable True)

instance [Fintype ι] (key : Bytes β × ℕ) (mesh : Mesh ι β F) : Decidable (mesh.Quiet key) :=
  inferInstanceAs (Decidable (_ ∧ _))

instance [Fintype ι] (key : Bytes β × ℕ) (mesh : Mesh ι β F) : Decidable (mesh.Unknown key) :=
  inferInstanceAs (Decidable (∀ _, _))

/-- The graph of a symmetric table of links. -/
def linkGraph (neighbours : ι → List ι) (hsymm : ∀ i j, j ∈ neighbours i → i ∈ neighbours j)
    (hself : ∀ i, i ∉ neighbours i) : SimpleGraph ι where
  Adj i j := j ∈ neighbours i
  symm := ⟨hsymm⟩
  loopless := ⟨hself⟩

/-- The mesh in which the first node originates a frame before anything else happens. -/
def opened {n : ℕ} (neighbours : Fin (n + 1) → List (Fin (n + 1))) (packet : Packet UInt8) :
    Mesh (Fin (n + 1)) UInt8 (Packet UInt8) :=
  (initial fun _ => {}).step neighbours (fun _ => {}) (.originate 0 packet 0)

/-- Three nodes that hear each other, and a fourth behind the last of them. -/
def kiteNeighbours : Fin 4 → List (Fin 4)
  | 0 => [1, 2]
  | 1 => [0, 2]
  | 2 => [0, 1, 3]
  | 3 => [2]

def kiteGraph : SimpleGraph (Fin 4) := linkGraph kiteNeighbours (by decide) (by decide)

/-- The node in front of the fourth hears the other relay first. -/
def kite : Mesh (Fin 4) UInt8 (Packet UInt8) :=
  [MeshEvent.station 0 (.sendEnds (.origination 0) true 0), .hear 0 1 (.ok false) (1 / 20),
    .hear 0 1 (.ok false) (3 / 10), .station 1 (.fire 0),
    .station 1 (.sendEnds (.relay 0) true 2), .hear 0 2 (.ok false) 0,
    .hear 0 2 (.ok false) 0].foldl (step kiteNeighbours fun _ => {})
    (opened kiteNeighbours (ReplayRun.storable 1))

/-- Two ways to the fifth node, and a sixth behind it. -/
def detourNeighbours : Fin 6 → List (Fin 6)
  | 0 => [1, 2]
  | 1 => [0, 4]
  | 2 => [0, 3]
  | 3 => [2, 4]
  | 4 => [1, 3, 5]
  | 5 => [4]

def detourGraph : SimpleGraph (Fin 6) := linkGraph detourNeighbours (by decide) (by decide)

def threeHops : Packet UInt8 := { ReplayRun.storable 1 with ttl := 3, ttl_le := by decide }

/-- The fifth node hears the copy that has come the longer way first. -/
def detour : Mesh (Fin 6) UInt8 (Packet UInt8) :=
  [MeshEvent.station 0 (.sendEnds (.origination 0) true 0), .hear 1 1 (.ok false) (1 / 20),
    .station 2 (.fire 0), .station 2 (.sendEnds (.relay 0) true 2),
    .hear 2 3 (.ok false) (1 / 20), .station 3 (.fire 0),
    .station 3 (.sendEnds (.relay 0) true 4), .hear 3 5 (.ok false) 0,
    .hear 0 5 (.ok false) (2 / 5), .station 1 (.fire 0),
    .station 1 (.sendEnds (.relay 0) true 6), .hear 0 7 (.ok false) 0, .hear 0 7 (.ok false) 0,
    .hear 0 7 (.ok false) 0, .hear 0 7 (.ok false) 0].foldl
    (step detourNeighbours fun _ => {}) (opened detourNeighbours threeHops)

/-- In a loss-free run that has come to rest, a node in range of the first has not heard the frame.
-/
def Starves {n : ℕ} (neighbours : Fin (n + 1) → List (Fin (n + 1))) (G : SimpleGraph (Fin (n + 1)))
    (packet : Packet UInt8) (mesh : Mesh (Fin (n + 1)) UInt8 (Packet UInt8)) (i : Fin (n + 1)) :
    Prop :=
  Reaches (LossFree packet.dedupKey) (step neighbours fun _ => {}) (opened neighbours packet) mesh ∧
    mesh.Quiet packet.dedupKey ∧ (∃ walk : G.Walk 0 i, walk.length ≤ packet.ttl) ∧
    ¬ mesh.Reached 0 packet.dedupKey i

/-- The node behind the one that stands down starves, and so does the node behind the one that keeps
the worse copy. -/
theorem nodes_starve :
    Starves kiteNeighbours kiteGraph (ReplayRun.storable 1) kite 3 ∧
      Starves detourNeighbours detourGraph threeHops detour 5 := by
  constructor
  · refine ⟨(Reaches.refl _).run (by decide +kernel), by decide +kernel, ?_, by decide +kernel⟩
    -- two hops to the starved node
    have h02 : kiteGraph.Adj 0 2 := by
      show 2 ∈ kiteNeighbours 0
      decide
    have h23 : kiteGraph.Adj 2 3 := by
      show 3 ∈ kiteNeighbours 2
      decide
    exact ⟨.cons h02 (.cons h23 .nil), show 2 ≤ 6 by decide⟩
  · refine ⟨(Reaches.refl _).run (by decide +kernel), by decide +kernel, ?_, by decide +kernel⟩
    -- three hops to the starved node
    have h01 : detourGraph.Adj 0 1 := by
      show 1 ∈ detourNeighbours 0
      decide
    have h14 : detourGraph.Adj 1 4 := by
      show 4 ∈ detourNeighbours 1
      decide
    have h45 : detourGraph.Adj 4 5 := by
      show 5 ∈ detourNeighbours 4
      decide
    exact ⟨.cons h01 (.cons h14 (.cons h45 .nil)), show 3 ≤ 3 by decide⟩

/-! ## A line of nodes -/

omit [DecidableEq ι] in
/-- A walk is no shorter than what its steps can climb. -/
lemma le_length_of_bound {G : SimpleGraph ι} {bound : ι → ℕ}
    (hstep : ∀ i j, G.Adj i j → bound j ≤ bound i + 1) {i j : ι} (walk : G.Walk i j) :
    bound j ≤ bound i + walk.length := by
  induction walk with
  | nil => exact Nat.le_refl _
  | @cons i k j hadj walk ih =>
    rw [SimpleGraph.Walk.length_cons]
    have hfirst := hstep i k hadj
    omega

omit [DecidableEq ι] in
/-- A copy is heard, with a bound on the length of the walks. -/
lemma covering_hear {n : ℕ} {now delay : ℚ} {forUs : Except (Exc β) Bool} {bound : ι → ℕ}
    (hbound : ∀ i (walk : G.Walk origin i), bound i ≤ walk.length)
    (hloss : mesh.LossFree packet.dedupKey (.hear n now forUs delay))
    (hpending : ∀ copy ∈ mesh.flight[n]?,
      packet.dedupKey ∈ (mesh.stations copy.1).router.pendingRelays.keys →
        packet.dedupKey ∉ ((mesh.stations copy.1).router.dedup.expire now).seen.keys)
    (hshort : ∀ copy ∈ mesh.flight[n]?, ¬ mesh.Reached origin packet.dedupKey copy.1 →
      packet.ttl + 1 ≤ copy.2.ttl + bound copy.1) :
    Covering G origin packet mesh (.hear n now forUs delay) := by
  refine ⟨hloss, ?_⟩
  intro copy hcopy _
  constructor
  · exact fun hseen hmem => absurd hseen (hpending copy hcopy hmem)
  · intro hreached walk
    have hlong := hbound copy.1 walk
    have hcopy := hshort copy hcopy hreached
    omega

def lineGraph : SimpleGraph (Fin 3) := linkGraph lineNeighbours (by decide) (by decide)

lemma lineGraph_bound (i : Fin 3) (walk : lineGraph.Walk 0 i) : i.val ≤ walk.length := by
  have hstep : ∀ i j : Fin 3, j ∈ lineNeighbours i → j.val ≤ i.val + 1 := by decide
  have hwalk := le_length_of_bound (G := lineGraph) hstep walk
  rw [Fin.val_zero, Nat.zero_add] at hwalk
  exact hwalk

local instance lineSize : NeZero 3 := ⟨Nat.succ_ne_zero 2⟩

def lineFlood : List (MeshEvent (Fin 3) UInt8 (Packet UInt8)) :=
  [.station 0 (.sendEnds (.origination 0) true 0), .hear 0 1 (.ok false) (1 / 20),
    .station 1 (.fire 0), .station 1 (.sendEnds (.relay 0) true 2), .hear 0 2 (.ok false) 0,
    .hear 0 2 (.ok true) 0, .station 2 (.deliverEnds 0 true (1 / 20)), .station 2 (.fire 0),
    .station 2 (.sendEnds (.relay 0) true 3), .hear 0 4 (.ok false) 0]

theorem flood_covers_line :
    (lineFlood.foldl (step lineNeighbours fun _ => {})
      (opened lineNeighbours (ReplayRun.storable 1))).Reached 0
        (ReplayRun.storable 1).dedupKey 2 := by
  have h01 : lineGraph.Adj 0 1 := by
    show 1 ∈ lineNeighbours 0
    decide
  have h12 : lineGraph.Adj 1 2 := by
    show 2 ∈ lineNeighbours 1
    decide
  have hrun : AdmitsAll (Covering lineGraph 0 (ReplayRun.storable 1))
      (step lineNeighbours fun _ => {}) (opened lineNeighbours (ReplayRun.storable 1)) lineFlood :=
    ⟨⟨by decide +kernel, trivial⟩,
      covering_hear lineGraph_bound (by decide +kernel) (by decide +kernel) (by decide +kernel),
      ⟨by decide +kernel, trivial⟩, ⟨by decide +kernel, trivial⟩,
      covering_hear lineGraph_bound (by decide +kernel) (by decide +kernel) (by decide +kernel),
      covering_hear lineGraph_bound (by decide +kernel) (by decide +kernel) (by decide +kernel),
      ⟨by decide +kernel, trivial⟩, ⟨by decide +kernel, trivial⟩, ⟨by decide +kernel, trivial⟩,
      covering_hear lineGraph_bound (by decide +kernel) (by decide +kernel) (by decide +kernel),
      trivial⟩
  exact flood_covers (G := lineGraph) (fun _ _ => Iff.rfl) (Reaches.refl _) (by decide +kernel)
    ((Reaches.refl _).run hrun) (by decide +kernel) (.cons h01 (.cons h12 .nil))
    (show 2 ≤ 6 by decide)

end Mesh

end Chatbit
