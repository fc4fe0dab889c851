import Chatbit.Lib.Runs
import Chatbit.Mesh.Holdings

/-!
# No frame twice

A node holds at most one copy of each frame, since the dedup cache lets no second one in. As long as
the cache forgets nothing, a node then sends each frame at most once and delivers it at most once,
and every copy descends from the originated frame by the relays that it has been through
(`flood_safe`).
-/

namespace Chatbit

open Lib

variable {ι β F : Type} [Alphabet β] [DecidableEq β] [Marked β F] [DecidableEq ι]

/-! ## One copy at a station -/

namespace Station

open Router

variable {station station' : Station β F}

/-- The identifiers of the frames that the station has seen. -/
def seenKeys (station : Station β F) : List (Bytes β × ℕ) := station.router.dedup.seen.keys

/-- The station holds no frame twice and has delivered none twice, and has seen all of them. -/
structure Once (station : Station β F) : Prop where
  held : (station.held.map Frame.dedupKey).Nodup
  held_seen : ∀ key ∈ station.held.map Frame.dedupKey, key ∈ station.seenKeys
  delivered : (station.delivered.map Frame.dedupKey).Nodup
  delivered_seen : ∀ key ∈ station.delivered.map Frame.dedupKey, key ∈ station.seenKeys

omit [Alphabet β] [DecidableEq β] in
/-- A relayed copy has the identifier of its original. -/
lemma dedupKey_of_forwards {frame forwarded : F} (h : Forwards frame forwarded) :
    Frame.dedupKey forwarded = Frame.dedupKey frame := by
  obtain ⟨decremented, hdecremented, rfl⟩ := Option.map_eq_some_iff.mp h
  rw [Marked.dedupKey_relayed]
  exact Frame.dedupKey_decrementTtl frame decremented hdecremented

omit [Alphabet β] [DecidableEq β] in
/-- Without a new frame. -/
lemma Once.inherit (h : station.Once) (hheld : Inherits Forwards station'.held station.held)
    (hseen : ∀ key ∈ station.seenKeys, key ∈ station'.seenKeys)
    (hdelivered : station'.delivered = station.delivered) : station'.Once := by
  have hle := hheld.map_le fun _ _ => dedupKey_of_forwards
  refine ⟨Multiset.nodup_of_le hle h.held, ?_, hdelivered ▸ h.delivered, ?_⟩
  · intro key hkey
    exact hseen key (h.held_seen key (Multiset.mem_of_le hle hkey))
  · intro key hkey
    rw [hdelivered] at hkey
    exact hseen key (h.delivered_seen key hkey)

omit [Alphabet β] [DecidableEq β] in
/-- With a new frame, which may be delivered. -/
lemma Once.add (h : station.Once) {frame : F} (hfresh : Frame.dedupKey frame ∉ station.seenKeys)
    (hheld : Inherits Forwards station'.held ({frame} + station.held))
    (hkey : Frame.dedupKey frame ∈ station'.seenKeys)
    (hseen : ∀ key ∈ station.seenKeys, key ∈ station'.seenKeys)
    (hdelivered : station'.delivered = station.delivered ∨
      station'.delivered = station.delivered ++ [frame]) : station'.Once := by
  have hle := hheld.map_le fun _ _ => dedupKey_of_forwards
  rw [Multiset.singleton_add, Multiset.map_cons] at hle
  -- what the station holds, it has seen
  have hold : Frame.dedupKey frame ∉ station.held.map Frame.dedupKey :=
    fun hmem => hfresh (h.held_seen _ hmem)
  have hkeys : ∀ key ∈ station'.delivered.map Frame.dedupKey,
      key ∈ station.delivered.map Frame.dedupKey ∨ key = Frame.dedupKey frame := by
    intro key hmem
    rcases hdelivered with hsame | hsame
    · exact Or.inl (hsame ▸ hmem)
    · rw [hsame, List.map_append, List.map_singleton] at hmem
      rcases List.mem_append.mp hmem with hmem | hmem
      · exact Or.inl hmem
      · exact Or.inr (List.mem_singleton.mp hmem)
  refine ⟨Multiset.nodup_of_le hle (Multiset.nodup_cons.mpr ⟨hold, h.held⟩), ?_, ?_, ?_⟩
  · intro key hmem
    rcases Multiset.mem_cons.mp (Multiset.mem_of_le hle hmem) with rfl | hmem
    · exact hkey
    · exact hseen key (h.held_seen key hmem)
  · rcases hdelivered with hsame | hsame
    · exact hsame ▸ h.delivered
    · rw [hsame, List.map_append, List.map_singleton]
      apply List.Nodup.append h.delivered (List.nodup_singleton _)
      intro key hmem hnew
      rw [List.mem_singleton.mp hnew] at hmem
      exact hfresh (h.delivered_seen _ hmem)
  · intro key hmem
    rcases hkeys key hmem with hmem | rfl
    · exact hseen key (h.delivered_seen key hmem)
    · exact hkey

omit [Alphabet β] [DecidableEq β] in
/-- A station that starts has done nothing. -/
lemma once_new (config : MeshConfig) : ({ router := Router.new config } : Station β F).Once where
  held := Multiset.nodup_zero
  held_seen _ hkey := absurd hkey (Multiset.notMem_zero _)
  delivered := List.nodup_nil
  delivered_seen _ hkey := absurd hkey List.not_mem_nil

omit [Alphabet β] in
/-- What a station does by itself sends no frame again. -/
lemma Once.step (h : station.Once) (config : MeshConfig) (event : StationEvent) :
    (station.step config event).Once := by
  obtain ⟨hdedup, hdelivered, -⟩ := step_eq config station event
  apply h.inherit (inherits_step config station event) _ hdelivered
  intro key hkey
  unfold seenKeys
  rw [hdedup]
  exact hkey

omit [Alphabet β] in
/-- A frame with a new identifier is sent for the first time. -/
lemma Once.originate (h : station.Once) {frame : F} {now : ℚ}
    (hfresh : Frame.dedupKey frame ∉ station.seenKeys)
    (hkeeps : station.router.dedup.Keeps (Frame.dedupKey frame) now) :
    (station.originate frame now).Once := by
  obtain ⟨hkey, hseen⟩ := hkeeps.keys
  have hheld : Inherits Forwards (station.originate frame now).held ({frame} + station.held) := by
    rw [held_originate]
    exact .refl _
  exact h.add hfresh hheld hkey hseen (Or.inl rfl)

omit [Alphabet β] in
/-- A frame that is heard is dropped, or new. -/
lemma hear_cases (frame : F) (now : ℚ) (forUs : Except (Exc β) Bool) (delay : ℚ)
    (hkeeps : station.router.dedup.Keeps (Frame.dedupKey frame) now) :
    (station.hear frame now forUs delay).held ≤ station.held ∧
        (station.hear frame now forUs delay).delivered = station.delivered ∨
      Frame.dedupKey frame ∉ station.seenKeys ∧
        Inherits Forwards (station.hear frame now forUs delay).held ({frame} + station.held) ∧
        ((station.hear frame now forUs delay).delivered = station.delivered ∨
          (station.hear frame now forUs delay).delivered = station.delivered ++ [frame]) := by
  -- nothing expires, so what the lookup finds is what the station has seen
  have hkeys : (station.router.dedup.expire now).seen.keys = station.seenKeys := by
    rw [hkeeps.expire_eq]
    rfl
  by_cases hseen : Frame.dedupKey frame ∈ (station.router.dedup.expire now).seen.keys
  · left
    refine ⟨held_le_of_seen hseen forUs delay, ?_⟩
    rw [hear_of_seen hseen]
    rfl
  · right
    refine ⟨hkeys ▸ hseen, inherits_hear_of_new hseen forUs delay, ?_⟩
    rw [hear_of_new hseen]
    rcases forUs with _ | ours
    · exact Or.inl rfl
    · cases ours with
      | true => exact Or.inr rfl
      | false => exact Or.inl rfl

omit [Alphabet β] in
/-- A frame that was seen is neither delivered nor relayed again. -/
lemma Once.hear (h : station.Once) (frame : F) (now : ℚ) (forUs : Except (Exc β) Bool) (delay : ℚ)
    (hkeeps : station.router.dedup.Keeps (Frame.dedupKey frame) now) :
    (station.hear frame now forUs delay).Once := by
  obtain ⟨hkey, hkeys⟩ := hkeeps.keys
  rw [← dedup_hear frame now forUs delay] at hkey hkeys
  rcases hear_cases frame now forUs delay hkeeps with ⟨hheld, hdelivered⟩ |
    ⟨hfresh, hheld, hdelivered⟩
  · exact h.inherit (.of_le hheld) hkeys hdelivered
  · exact h.add hfresh hheld hkey hkeys hdelivered

end Station

/-! ## Where a copy comes from -/

/-- All but the TTL. -/
def Packet.Unchanged (packet received : Packet β) : Prop :=
  received.ptype = packet.ptype ∧ received.payload = packet.payload ∧
    received.msgId = packet.msgId ∧ received.dstTag = packet.dstTag ∧
    received.fragIndex = packet.fragIndex ∧ received.fragCount = packet.fragCount ∧
    received.version = packet.version

/-- The copy is one of an originated frame, and its TTL is lower by one for each relay that it has
been through, of which the frame allows one less than its TTL. -/
def Traced.Descends (originated : List (ι × Traced β)) (frame : Traced β) : Prop :=
  ∃ i source, (i, source) ∈ originated ∧ source.packet.Unchanged frame.packet ∧
    frame.packet.ttl + frame.hops = source.packet.ttl ∧ frame.hops ≤ source.packet.ttl - 1

namespace Traced

variable {originated : List (ι × Traced β)} {frame : Traced β}

omit [DecidableEq ι] [Alphabet β] [DecidableEq β] in
/-- A relay has one hop more and one to go less. -/
lemma Descends.forwards (h : Descends originated frame) {forwarded : Traced β}
    (hforwards : Router.Forwards frame forwarded) : Descends originated forwarded := by
  obtain ⟨i, source, hsource, hsame, httl, hhops⟩ := h
  -- the router lowers the TTL of the packet, and the station counts the relay
  obtain ⟨_, hdecremented, rfl⟩ := Option.map_eq_some_iff.mp hforwards
  obtain ⟨packet, hpacket, rfl⟩ := Option.map_eq_some_iff.mp hdecremented
  obtain ⟨hpositive, rfl⟩ := Packet.decrementTtl_eq_some_iff.mp hpacket
  refine ⟨i, source, hsource, hsame, ?_, ?_⟩
  · show frame.packet.ttl - 1 + (frame.hops + 1) = source.packet.ttl
    omega
  · show frame.hops + 1 ≤ source.packet.ttl - 1
    omega

omit [Alphabet β] [DecidableEq β] [DecidableEq ι] in
/-- Frames that are originated later take no ancestor away. -/
lemma Descends.mono (h : Descends originated frame) {later : List (ι × Traced β)}
    (hsub : originated ⊆ later) : Descends later frame := by
  obtain ⟨i, source, hsource, hrest⟩ := h
  exact ⟨i, source, hsub hsource, hrest⟩

omit [Alphabet β] [DecidableEq β] [DecidableEq ι] in
/-- A source is its own ancestor. -/
lemma descends_source {i : ι} (hsource : (i, frame) ∈ originated) (hhops : frame.hops = 0) :
    Descends originated frame := by
  refine ⟨i, frame, hsource, ⟨rfl, rfl, rfl, rfl, rfl, rfl, rfl⟩, ?_, ?_⟩
  · rw [hhops, Nat.add_zero]
  · rw [hhops]
    exact Nat.zero_le _

end Traced

/-! ## The network -/

namespace Mesh

open Station

variable {neighbours : ι → List ι} {config : ι → MeshConfig} {mesh : Mesh ι β (Traced β)}

/-- The dedup caches forget nothing in the step, and a frame that is originated has been through no
relay, and its identifier is new to the node. -/
def Remembers (mesh : Mesh ι β (Traced β)) : MeshEvent ι β (Traced β) → Prop
  | .originate i frame now => frame.hops = 0 ∧
    Frame.dedupKey frame ∉ (mesh.stations i).seenKeys ∧
    (mesh.stations i).router.dedup.Keeps (Frame.dedupKey frame) now
  | .hear n now _ _ => ∀ copy ∈ mesh.flight[n]?,
    (mesh.stations copy.1).router.dedup.Keeps (Frame.dedupKey copy.2) now
  | _ => True

instance (mesh : Mesh ι β (Traced β)) : ∀ event, Decidable (mesh.Remembers event)
  | .originate _ _ _ => inferInstanceAs (Decidable (_ ∧ _ ∧ _))
  | .hear _ _ _ _ => inferInstanceAs (Decidable (∀ _ ∈ _, _))
  | .station _ _ => inferInstanceAs (Decidable True)
  | .onAir _ _ => inferInstanceAs (Decidable True)
  | .lose _ => inferInstanceAs (Decidable True)
  | .duplicate _ => inferInstanceAs (Decidable True)

/-- The invariant of a network whose caches forget nothing. -/
structure Safe (mesh : Mesh ι β (Traced β)) : Prop where
  once : ∀ i, (mesh.stations i).Once
  held : ∀ i, ∀ frame ∈ (mesh.stations i).held, frame.Descends mesh.originated
  delivered : ∀ i, ∀ frame ∈ (mesh.stations i).delivered, frame.Descends mesh.originated
  flight : ∀ copy ∈ mesh.flight, copy.2.Descends mesh.originated

omit [DecidableEq ι] [Alphabet β] [DecidableEq β] in
/-- Before the first frame there is nothing to show. -/
lemma safe_initial (config : ι → MeshConfig) :
    (initial config : Mesh ι β (Traced β)).Safe where
  once i := once_new (config i)
  held _ _ hframe := absurd hframe (Multiset.notMem_zero _)
  delivered _ _ hframe := absurd hframe List.not_mem_nil
  flight _ hcopy := absurd hcopy List.not_mem_nil

omit [Alphabet β] [DecidableEq β] in
/-- A step at one station. -/
lemma Safe.setStation (h : mesh.Safe) {i : ι} {station : Station β (Traced β)}
    {originated flight : List (ι × Traced β)} (horiginated : mesh.originated ⊆ originated)
    (honce : station.Once) (hheld : ∀ frame ∈ station.held, frame.Descends originated)
    (hdelivered : ∀ frame ∈ station.delivered, frame.Descends originated)
    (hflight : ∀ copy ∈ flight, copy.2.Descends originated) :
    ({ mesh.setStation i station with
      originated := originated, flight := flight } : Mesh ι β (Traced β)).Safe := by
  have hupdate : ∀ (P : Station β (Traced β) → Prop), P station →
      (∀ j, P (mesh.stations j)) → ∀ j, P (Function.update mesh.stations i station j) := by
    intro P hnew hold j
    by_cases hj : j = i
    · rw [hj, Function.update_self]
      exact hnew
    · rw [Function.update_of_ne hj]
      exact hold j
  refine ⟨hupdate _ honce h.once, hupdate (fun station => ∀ frame ∈ station.held,
    frame.Descends originated) hheld ?_, hupdate (fun station => ∀ frame ∈ station.delivered,
    frame.Descends originated) hdelivered ?_, hflight⟩
  · exact fun j frame hframe => (h.held j frame hframe).mono horiginated
  · exact fun j frame hframe => (h.delivered j frame hframe).mono horiginated

omit [DecidableEq ι] [Alphabet β] [DecidableEq β] in
/-- What a station puts on the air is what it holds. -/
lemma Safe.copies (h : mesh.Safe) (neighbours : ι → List ι) {i : ι} {sent : Option (Traced β)}
    (hsent : ∀ frame, sent = some frame → frame ∈ (mesh.stations i).held) :
    ∀ copy ∈ mesh.flight ++ copies neighbours i sent, copy.2.Descends mesh.originated := by
  intro copy hcopy
  rcases List.mem_append.mp hcopy with hcopy | hcopy
  · exact h.flight copy hcopy
  rcases sent with _ | frame
  · exact absurd hcopy List.not_mem_nil
  · obtain ⟨j, -, rfl⟩ := List.mem_map.mp hcopy
    exact h.held i frame (hsent frame rfl)

omit [Alphabet β] [DecidableEq β] in
/-- A station puts on the air what it holds. -/
lemma mem_held_of_emitted {station : Station β F} {event : StationEvent} {frame : F}
    (h : emitted station event = some frame) : frame ∈ station.held := by
  unfold emitted at h
  split at h
  · exact mem_held_of_sendingFrame h
  · cases h

omit [Alphabet β] in
/-- A new source keeps the mesh safe. -/
lemma Safe.originate (h : mesh.Safe) {i : ι} {frame : Traced β} {now : ℚ}
    (hhops : frame.hops = 0) (hfresh : Frame.dedupKey frame ∉ (mesh.stations i).seenKeys)
    (hkeeps : (mesh.stations i).router.dedup.Keeps (Frame.dedupKey frame) now) :
    (mesh.step neighbours config (.originate i frame now)).Safe := by
  have hsub : mesh.originated ⊆ mesh.originated ++ [(i, frame)] := List.subset_append_left _ _
  have hnew : frame.Descends (mesh.originated ++ [(i, frame)]) :=
    Traced.descends_source (List.mem_append_right _ List.mem_cons_self) hhops
  apply h.setStation hsub ((h.once i).originate hfresh hkeeps)
  · intro held hheld
    rw [held_originate] at hheld
    rcases Multiset.mem_add.mp hheld with hheld | hheld
    · rw [Multiset.mem_singleton.mp hheld]
      exact hnew
    · exact (h.held i held hheld).mono hsub
  · exact fun delivered hdelivered => (h.delivered i delivered hdelivered).mono hsub
  · exact fun copy hcopy => (h.flight copy hcopy).mono hsub

omit [Alphabet β] in
/-- So does a frame that a neighbour hears. -/
lemma Safe.hear (h : mesh.Safe) {n : ℕ} {i : ι} {frame : Traced β} {now : ℚ}
    (forUs : Except (Exc β) Bool) (delay : ℚ) (hflight : mesh.flight[n]? = some (i, frame))
    (hkeeps : (mesh.stations i).router.dedup.Keeps (Frame.dedupKey frame) now) :
    (mesh.step neighbours config (.hear n now forUs delay)).Safe := by
  have hframe : frame.Descends mesh.originated := h.flight _ (List.mem_of_getElem? hflight)
  have hcases := hear_cases frame now forUs delay hkeeps
  rw [step_hear_of_some hflight]
  apply h.setStation (List.Subset.refl _) ((h.once i).hear frame now forUs delay hkeeps)
  · rcases hcases with ⟨hheld, -⟩ | ⟨-, hheld, -⟩
    · exact fun held hmem => h.held i held (Multiset.mem_of_le hheld hmem)
    · apply hheld.forall_mem (Q := Traced.Descends mesh.originated)
        fun _ _ hforwards hold => hold.forwards hforwards
      intro held hmem
      rcases Multiset.mem_add.mp hmem with hmem | hmem
      · rw [Multiset.mem_singleton.mp hmem]
        exact hframe
      · exact h.held i held hmem
  · intro delivered hmem
    -- the local delivery is handed the frame as it came
    have hor : delivered ∈ (mesh.stations i).delivered ∨ delivered = frame := by
      rcases hcases with ⟨-, hsame⟩ | ⟨-, -, hsame | hsame⟩
      · exact Or.inl (hsame ▸ hmem)
      · exact Or.inl (hsame ▸ hmem)
      · rw [hsame] at hmem
        rcases List.mem_append.mp hmem with hmem | hmem
        · exact Or.inl hmem
        · exact Or.inr (List.mem_singleton.mp hmem)
    rcases hor with hmem | rfl
    · exact h.delivered i delivered hmem
    · exact hframe
  · exact fun copy hcopy => h.flight copy (List.mem_of_mem_eraseIdx hcopy)

omit [Alphabet β] in
/-- So does every event, as long as the caches remember. -/
lemma Safe.step (h : mesh.Safe) (event : MeshEvent ι β (Traced β))
    (hremembers : mesh.Remembers event) : (mesh.step neighbours config event).Safe := by
  cases event with
  | originate i frame now =>
    obtain ⟨hhops, hfresh, hkeeps⟩ := hremembers
    exact h.originate hhops hfresh hkeeps
  | hear n now forUs delay =>
    rcases hflight : mesh.flight[n]? with _ | ⟨i, frame⟩
    · rw [step_hear_of_none hflight]
      exact h
    · exact h.hear forUs delay hflight (hremembers (i, frame) hflight)
  | station i event =>
    have hdelivered := (step_eq (config i) (mesh.stations i) event).2.1
    -- what it holds afterwards are copies that it held, or one hop further
    apply h.setStation (List.Subset.refl _) ((h.once i).step (config i) event)
    · exact (inherits_step (config i) (mesh.stations i) event).forall_mem
        (Q := Traced.Descends mesh.originated) (fun _ _ hforwards hold => hold.forwards hforwards)
        (h.held i)
    · rw [hdelivered]
      exact h.delivered i
    · exact h.copies neighbours fun frame hframe => mem_held_of_emitted hframe
  | onAir i sending =>
    exact ⟨h.once, h.held, h.delivered,
      h.copies neighbours fun frame hframe => mem_held_of_sendingFrame hframe⟩
  | lose n =>
    exact ⟨h.once, h.held, h.delivered,
      fun copy hcopy => h.flight copy (List.mem_of_mem_eraseIdx hcopy)⟩
  | duplicate n =>
    refine ⟨h.once, h.held, h.delivered, ?_⟩
    intro copy hcopy
    rcases List.mem_append.mp hcopy with hcopy | hcopy
    · exact h.flight copy hcopy
    · exact h.flight copy (List.mem_of_getElem? (Option.mem_toList.mp hcopy))

/-! ## Results -/

/-- Some station has sent or delivered the copy, or it is on the air. -/
def Carries (mesh : Mesh ι β (Traced β)) (frame : Traced β) : Prop :=
  (∃ i, frame ∈ (mesh.stations i).transmitted ∨ frame ∈ (mesh.stations i).delivered) ∨
    ∃ i, (i, frame) ∈ mesh.flight

omit [Alphabet β] in
/-- However the environment orders, loses and duplicates, no node sends or delivers a frame twice,
and every copy descends from an originated frame. -/
theorem flood_safe (hrun : Reaches Remembers (step neighbours config) (initial config) mesh) :
    (∀ i, ((mesh.stations i).transmitted.map Frame.dedupKey).Nodup ∧
      ((mesh.stations i).delivered.map Frame.dedupKey).Nodup) ∧
    ∀ frame, mesh.Carries frame → frame.Descends mesh.originated := by
  have hsafe : mesh.Safe :=
    hrun.invariant (I := Safe) (safe_initial config) fun _ event h hevent => h.step event hevent
  have hheld : ∀ i, ((mesh.stations i).transmitted : Multiset (Traced β)) ≤
      (mesh.stations i).held := fun i => Multiset.le_add_left _ _
  constructor
  · intro i
    refine ⟨?_, (hsafe.once i).delivered⟩
    have hle := Multiset.map_le_map (f := Frame.dedupKey) (hheld i)
    exact Multiset.coe_nodup.mp (Multiset.nodup_of_le hle (hsafe.once i).held)
  · intro frame hcarries
    rcases hcarries with ⟨i, hframe | hframe⟩ | ⟨i, hframe⟩
    · exact hsafe.held i frame (Multiset.mem_of_le (hheld i) hframe)
    · exact hsafe.delivered i frame hframe
    · exact hsafe.flight _ hframe

/-- Three nodes in a line. The relay of the middle one fails, waits in the store and is replayed. -/
def lineEvents : List (MeshEvent (Fin 3) UInt8 (Traced UInt8)) :=
  [.originate 0 ⟨ReplayRun.storable 1, 0⟩ 0, .station 0 (.sendEnds (.origination 0) true 0),
    .duplicate 0, .hear 0 1 (.ok false) (1 / 10), .lose 0, .station 1 (.fire 0),
    .station 1 (.sendEnds (.relay 0) false 2), .station 1 (.replay 3),
    .station 1 (.sendEnds .replay true 3), .hear 1 4 (.ok true) 0, .hear 0 4 (.ok false) 0]

def lineNeighbours (i : Fin 3) : List (Fin 3) := if i = 1 then [0, 2] else [1]

def line : Mesh (Fin 3) UInt8 (Traced UInt8) :=
  lineEvents.foldl (step lineNeighbours fun _ => {}) (initial fun _ => {})

/-- Three stations in a line: the last one gets the frame after one relay. -/
theorem flood_safe_line :
    ((line.stations 2).delivered.map fun copy => (copy.hops, copy.packet.ttl)) = [(1, 5)] ∧
      (∀ i, ((line.stations i).transmitted.map Frame.dedupKey).Nodup ∧
        ((line.stations i).delivered.map Frame.dedupKey).Nodup) ∧
      ∀ copy, line.Carries copy → copy.Descends line.originated :=
  ⟨by decide +kernel, flood_safe ((Reaches.refl _).run (by decide +kernel))⟩

end Mesh

end Chatbit
