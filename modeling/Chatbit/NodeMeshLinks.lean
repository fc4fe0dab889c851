import Chatbit.NodeMesh

/-!
# The links of a mesh of nodes

What the mesh sees of its nodes are their routers, what they hand over and send, and the frames on
the air (`Links`). For each thing that may happen to the links there are steps of a mesh of routers
that follow it (`Links.Sim`).
-/

namespace Chatbit

open Lib Method Node

variable {ι β F : Type} [Alphabet β] [DecidableEq β] [Marked β F]

omit [DecidableEq β] in
/-- The version of a frame that is decoded is the one that is sent. -/
lemma Packet.version_of_decode {raw : Bytes β} {packet : Packet β}
    (h : Packet.decode raw = .ok packet) : packet.version = VERSION := by
  unfold Packet.decode at h
  split_ifs at h
  dsimp only at h
  split_ifs at h
  split at h
  · cases h
  · exact (Packet.create_ok_iff.mp h).2.2.2.2.2.2.2

/-! ## What a station does with a frame -/

namespace Router

/-- The router once `handle` has come to the local delivery, or to its end; `forUs` is what
`_is_for_us` returns or raises. -/
def heard (frame : F) (now delay : ℚ) (forUs : Except (Exc β) Bool) (router : Router β F) :
    Router β F :=
  if Unseen frame now router then
    match forUs with
    | .ok true => delivering frame now router
    | .ok false => scheduleRelay frame delay (accept frame now router).2
    | .error _ => (accept frame now router).2
  else (accept frame now router).2

omit [Alphabet β] [DecidableEq β] in
/-- Whether a frame is new does not depend on what it carries along. -/
lemma unseen_map {G : Type} [Frame β G] {φ : F → G} (hφ : Frame.Erases φ) {frame : F} {now : ℚ}
    {router : Router β F} : Unseen (φ frame) now (router.map φ) ↔ Unseen frame now router := by
  unfold Unseen
  rw [hφ.dedupKey]
  rfl

omit [Alphabet β] in
/-- Hearing a frame does not look at what it carries along. -/
lemma map_heard {G : Type} [Marked β G] {φ : F → G} (hφ : Frame.Erases φ) (frame : F)
    (now delay : ℚ) (forUs : Except (Exc β) Bool) (router : Router β F) :
    (heard frame now delay forUs router).map φ =
      heard (φ frame) now delay forUs (router.map φ) := by
  unfold heard delivering
  rw [accept_map hφ]
  by_cases hunseen : Unseen frame now router
  · rw [if_pos hunseen, if_pos ((unseen_map hφ).mpr hunseen)]
    rcases forUs with err | ours
    · rfl
    cases ours with
    | true => rfl
    | false => exact map_scheduleRelay hφ frame delay _
  · rw [if_neg hunseen, if_neg fun h => hunseen ((unseen_map hφ).mp h)]

end Router

namespace Station

variable {station : Station β F}

omit [Alphabet β] in
/-- What a station does with a frame is to its router what `heard` says. -/
lemma hear_eq (frame : F) (now : ℚ) (forUs : Except (Exc β) Bool) (delay : ℚ) :
    station.hear frame now forUs delay = { station with
      router := Router.heard frame now delay forUs station.router
      handled := station.handled ++ [frame]
      delivering :=
        if Router.Unseen frame now station.router ∧ forUs = .ok true then
          station.delivering ++ [frame]
        else station.delivering
      delivered :=
        if Router.Unseen frame now station.router ∧ forUs = .ok true then
          station.delivered ++ [frame]
        else station.delivered } := by
  unfold Router.heard Router.delivering
  by_cases hseen : Frame.dedupKey frame ∈ (station.router.dedup.expire now).seen.keys
  · have hunseen : ¬ Router.Unseen frame now station.router := not_not.mpr hseen
    rw [hear_of_seen hseen, if_neg hunseen, if_neg fun h => hunseen h.1,
      if_neg fun h => hunseen h.1, Router.accept_of_seen hseen]
    rfl
  · have hunseen : Router.Unseen frame now station.router := hseen
    rw [hear_of_new hseen, if_pos hunseen, Router.accept_of_new hseen]
    rcases forUs with err | ours
    · rw [if_neg (by simp), if_neg (by simp)]
      rfl
    cases ours with
    | true =>
      rw [if_pos ⟨hunseen, rfl⟩, if_pos ⟨hunseen, rfl⟩]
      rfl
    | false =>
      rw [if_neg (by simp), if_neg (by simp)]
      rfl

end Station

/-! ## Steps of the mesh -/

namespace Mesh

variable [DecidableEq ι] {neighbours : ι → List ι} {config : ι → MeshConfig}

omit [Alphabet β] in
/-- A station originates a frame, and its send ends. -/
lemma step_originate_sendEnds (mesh : Mesh ι β F) (i : ι) (frame : F) (now : ℚ) (returned : Bool) :
    (mesh.step neighbours config (.originate i frame now)).step neighbours config
        (.station i (.sendEnds (.origination (mesh.stations i).originating.length) returned 0)) =
      { stations := Function.update mesh.stations i { mesh.stations i with
          router := (Router.markSeen frame now (mesh.stations i).router).2
          transmitted := (mesh.stations i).transmitted ++ if returned then [frame] else [] }
        flight := mesh.flight ++ copies neighbours i (if returned then some frame else none)
        originated := mesh.originated ++ [(i, frame)] } := by
  have hstation : ((mesh.stations i).originate frame now).sendEnds (config i)
      (.origination (mesh.stations i).originating.length) returned 0 = { mesh.stations i with
          router := (Router.markSeen frame now (mesh.stations i).router).2
          transmitted := (mesh.stations i).transmitted ++ if returned then [frame] else [] } := by
    unfold Station.sendEnds Station.sendingFrame Station.originate
    dsimp only
    rw [List.getElem?_concat_length]
    dsimp only
    rw [List.eraseIdx_append_of_length_le (Nat.le_refl _)]
    cases returned <;> simp
  have hemitted : emitted ((mesh.stations i).originate frame now)
      (.sendEnds (.origination (mesh.stations i).originating.length) returned 0) =
      if returned then some frame else none := by
    unfold emitted Station.sendingFrame Station.originate
    cases returned with
    | true => exact List.getElem?_concat_length
    | false => rfl
  unfold step setStation
  dsimp only
  rw [Function.update_self, Function.update_idem, hemitted]
  congr 2

end Mesh

/-! ## The links -/

namespace Links

variable [DecidableEq ι] {neighbours : ι → List ι} {mtu : ι → ℕ} {config : ι → MeshConfig}
  {links : Links ι β} {mesh : Mesh (ι ⊕ ι) β (Traced β)} {i : ι}

omit [Alphabet β] [DecidableEq β] in
/-- Two changes of one node are one. -/
lemma put_put (router router' : Router β) (handed handed' frames frames' : List (Bytes β)) :
    (links.put neighbours i router handed frames).put neighbours i router' handed' frames' =
      links.put neighbours i router' (handed ++ handed') (frames ++ frames') := by
  unfold put NodeMesh.copies
  dsimp only
  rw [Function.update_idem, Function.update_idem, Function.update_idem, Function.update_self,
    Function.update_self, List.flatMap_append]
  simp only [List.append_assoc]

omit [Alphabet β] [DecidableEq β] in
/-- Putting a router back changes nothing. -/
lemma put_nothing (neighbours : ι → List ι) (links : Links ι β) (i : ι) :
    links.put neighbours i (links.router i) [] [] = links := by
  unfold put NodeMesh.copies
  simp

omit [Alphabet β] [DecidableEq β] in
lemma router_put (router : Router β) (handed frames : List (Bytes β)) :
    (links.put neighbours i router handed frames).router i = router := Function.update_self ..

omit [DecidableEq β] [DecidableEq ι] in
/-- What goes out is copied to the neighbours as the frames of a station are. -/
lemma map_copies (neighbours : ι → List ι) (i : ι) {frames : List (Bytes β)}
    {new : List (Traced β)}
    (h : frames.map Packet.decode = new.map fun copy => .ok copy.packet) :
    ((NodeMesh.copies neighbours i frames).map fun copy =>
        ((.inl copy.1 : ι ⊕ ι), Packet.decode copy.2)) =
      (new.flatMap fun copy => Mesh.copies (besideOutsiders neighbours) (.inl i) (some copy)).map
        fun copy => (copy.1, .ok copy.2.packet) := by
  have hleft : ∀ frames : List (Bytes β), ((NodeMesh.copies neighbours i frames).map fun copy =>
      ((.inl copy.1 : ι ⊕ ι), Packet.decode copy.2)) =
      (frames.map Packet.decode).flatMap fun packet =>
        (neighbours i).map fun j => ((.inl j : ι ⊕ ι), packet) := by
    intro frames
    unfold NodeMesh.copies
    rw [List.map_flatMap, List.flatMap_map]
    refine List.flatMap_congr fun frame _ => ?_
    rw [List.map_map]
    rfl
  rw [hleft, h, List.map_flatMap, List.flatMap_map]
  refine List.flatMap_congr fun copy _ => ?_
  unfold Mesh.copies besideOutsiders
  rw [List.map_map, List.map_map]
  rfl

namespace Refines

variable (h : links.Refines mtu config mesh)
include h

omit [DecidableEq β] in
/-- A step of a node and of its station. -/
lemma put (neighbours : ι → List ι) (i : ι) (station : Station β (Traced β))
    (sources new : List (Traced β)) {handed frames : List (Bytes β)}
    (hhanded : handed = sources.filterMap fun source =>
      (frameOf (mtu i) (config i).padding source.packet).toOption)
    (htransmitted : station.transmitted = (mesh.stations (.inl i)).transmitted ++ new)
    (hframes : frames.map Packet.decode = new.map fun copy => .ok copy.packet) :
    (links.put neighbours i (station.router.map Traced.packet) handed frames).Refines mtu config
      { stations := Function.update mesh.stations (.inl i) station
        flight := mesh.flight ++ new.flatMap fun copy =>
          Mesh.copies (besideOutsiders neighbours) (.inl i) (some copy)
        originated := mesh.originated ++ sources.map fun source => (.inl i, source) } where
  router j := by
    by_cases hj : j = i
    · subst hj
      show (Function.update mesh.stations (.inl j) station (.inl j)).router.map _ =
        Function.update links.router j _ j
      rw [Function.update_self, Function.update_self]
    · have hne : (.inl j : ι ⊕ ι) ≠ .inl i := fun heq => hj (Sum.inl.inj heq)
      show (Function.update mesh.stations (.inl i) station (.inl j)).router.map _ =
        Function.update links.router i _ j
      rw [Function.update_of_ne hne, Function.update_of_ne hj]
      exact h.router j
  handed j := by
    rw [List.filterMap_append, ← h.handed j, List.filterMap_map]
    by_cases hj : j = i
    · subst hj
      refine (Function.update_self ..).trans (congrArg _ (hhanded.trans ?_))
      exact List.filterMap_congr fun source _ => (if_pos rfl).symm
    · have hnone : (sources.filterMap (((fun source : (ι ⊕ ι) × Traced β =>
          if source.1 = .inl j then
            (frameOf (mtu j) (config j).padding source.2.packet).toOption
          else none)) ∘ fun source => (.inl i, source))) = [] := by
        refine List.filterMap_eq_nil_iff.mpr fun source _ => ?_
        exact if_neg fun heq => hj (Sum.inl.inj heq).symm
      rw [hnone, List.append_nil]
      exact Function.update_of_ne hj ..
  sent j := by
    by_cases hj : j = i
    · subst hj
      show (Function.update links.sent j _ j).map _ =
        (Function.update mesh.stations (.inl j) station (.inl j)).transmitted.map _
      rw [Function.update_self, Function.update_self, htransmitted, List.map_append,
        List.map_append, h.sent j, hframes]
    · have hne : (.inl j : ι ⊕ ι) ≠ .inl i := fun heq => hj (Sum.inl.inj heq)
      show (Function.update links.sent i _ j).map _ =
        (Function.update mesh.stations (.inl i) station (.inl j)).transmitted.map _
      rw [Function.update_of_ne hne, Function.update_of_ne hj]
      exact h.sent j
  air := by
    show (links.air ++ _).map _ = (mesh.flight ++ _).map _
    rw [List.map_append, List.map_append, h.air, map_copies neighbours i hframes]

omit [DecidableEq β] in
/-- A step of a node that sends nothing. -/
lemma putNothing (neighbours : ι → List ι) (i : ι) (station : Station β (Traced β))
    (htransmitted : station.transmitted = (mesh.stations (.inl i)).transmitted) :
    (links.put neighbours i (station.router.map Traced.packet) [] []).Refines mtu config
      { mesh with stations := Function.update mesh.stations (.inl i) station } := by
  have hput := h.put neighbours i station [] [] rfl (htransmitted.trans (List.append_nil _).symm)
    (List.map_nil : ([] : List (Bytes β)).map Packet.decode = [])
  simpa using hput

omit [DecidableEq β] in
lemma eraseIdx (n : ℕ) : Refines mtu config { links with air := links.air.eraseIdx n }
    { mesh with flight := mesh.flight.eraseIdx n } where
  router := h.router
  handed := h.handed
  sent := h.sent
  air := by
    show (links.air.eraseIdx n).map _ = (mesh.flight.eraseIdx n).map _
    rw [← List.eraseIdx_map, ← List.eraseIdx_map, h.air]

omit [DecidableEq β] in
/-- The frame that is heard is a copy of a packet. -/
lemma getElem? {n : ℕ} {data : Bytes β} (hdata : links.air[n]? = some (i, data)) :
    ∃ copy : Traced β, mesh.flight[n]? = some (.inl i, copy) ∧
      Packet.decode data = .ok copy.packet := by
  have hmap := congrArg (fun l => l[n]?) h.air
  rw [List.getElem?_map, List.getElem?_map, hdata, Option.map_some, eq_comm,
    Option.map_eq_some_iff] at hmap
  obtain ⟨⟨j, copy⟩, hcopy, heq⟩ := hmap
  obtain ⟨rfl, hdecode⟩ := Prod.mk.inj heq
  exact ⟨copy, hcopy, hdecode.symm⟩

end Refines

/-! ## The mesh follows -/

/-- What a node does when it sends, to its configuration, its router and what it has handed over. -/
def Originates (mtu : ℕ) (v v' : MeshConfig × Router β × List (Bytes β)) : Prop :=
  ∃ packet now, packet.version = VERSION ∧
    v' = (v.1, (Router.markSeen packet now v.2.1).2,
      v.2.2 ++ (frameOf mtu v.1.padding packet).toOption.toList)

variable (neighbours mtu config links mesh) in
/-- A mesh has come to where the network is. -/
structure Sim : Prop where
  run : Reaches Mesh.Starts
    (Mesh.step (besideOutsiders neighbours) (Sum.elim config config))
    (Mesh.initial (Sum.elim config config)) mesh
  refines : links.Refines mtu config mesh

namespace Sim

variable (h : links.Sim neighbours mtu config mesh)
include h

/-- A packet that a node originates is originated in the mesh. -/
lemma originate (i : ι) {packet : Packet β} (hversion : packet.version = VERSION) (now : ℚ) :
    ∃ mesh', (links.put neighbours i (Router.markSeen packet now (links.router i)).2
        (frameOf (mtu i) (config i).padding packet).toOption.toList
        (frameOf (mtu i) (config i).padding packet).toOption.toList).Sim
          neighbours mtu config mesh' ∧
      (mesh'.stations (.inl i)).delivering = (mesh.stations (.inl i)).delivering := by
  let source : Traced β := ⟨packet, 0⟩
  obtain ⟨returned, hreturned, hframes⟩ : ∃ returned : Bool,
      (frameOf (mtu i) (config i).padding packet).toOption.toList = [source].filterMap (fun source =>
        (frameOf (mtu i) (config i).padding source.packet).toOption) ∧
      (frameOf (mtu i) (config i).padding packet).toOption.toList.map Packet.decode =
        (if returned then [source] else []).map fun copy => .ok copy.packet := by
    rcases hframe : frameOf (mtu i) (config i).padding packet with err | frame
    · refine ⟨false, ?_, rfl⟩
      simp [source, hframe, Except.toOption]
    · refine ⟨true, ?_, ?_⟩
      · simp [source, hframe, Except.toOption]
      · exact congrArg (fun r => [r]) (decode_frameOf hframe hversion)
  have hrefines := h.refines.put neighbours i { mesh.stations (.inl i) with
      router := (Router.markSeen source now (mesh.stations (.inl i)).router).2
      transmitted := (mesh.stations (.inl i)).transmitted ++ if returned then [source] else [] }
    [source] (if returned then [source] else []) hreturned rfl hframes
  have hrouter : (Router.markSeen source now (mesh.stations (.inl i)).router).2.map Traced.packet =
      (Router.markSeen packet now (links.router i)).2 := by
    rw [Router.map_markSeen Traced.erases_packet, h.refines.router i]
  rw [hrouter] at hrefines
  refine ⟨_, ⟨(h.run.tail (e := .originate (.inl i) source now) ⟨rfl, hversion⟩).tail
    (e := .station (.inl i)
      (.sendEnds (.origination (mesh.stations (.inl i)).originating.length) returned 0)) trivial,
    ?_⟩, ?_⟩
  · rw [Mesh.step_originate_sendEnds]
    have hcopies : Mesh.copies (besideOutsiders neighbours) (.inl i)
        (if returned then some source else none) =
        (if returned then [source] else []).flatMap fun copy =>
          Mesh.copies (besideOutsiders neighbours) (.inl i) (some copy) := by
      cases returned <;> simp [Mesh.copies]
    rw [hcopies]
    exact hrefines
  · rw [Mesh.step_originate_sendEnds]
    show (Function.update mesh.stations (.inl i) _ (.inl i)).delivering = _
    rw [Function.update_self]

/-- One packet after the other. -/
lemma originates (i : ι) {v v' : MeshConfig × Router β × List (Bytes β)} (hconfig : v.1 = config i)
    (hrouter : v.2.1 = links.router i)
    (hsteps : Relation.ReflTransGen (Originates (mtu i)) v v') :
    v'.1 = config i ∧ ∃ frames mesh', v'.2.2 = v.2.2 ++ frames ∧
      (links.put neighbours i v'.2.1 frames frames).Sim neighbours mtu config mesh' ∧
      (mesh'.stations (.inl i)).delivering = (mesh.stations (.inl i)).delivering := by
  induction hsteps with
  | refl =>
    refine ⟨hconfig, [], mesh, (List.append_nil _).symm, ?_, rfl⟩
    rw [hrouter, put_nothing]
    exact h
  | @tail u _ _ hstep ih =>
    obtain ⟨hconfig', frames, mesh', hframes, hsim, hdelivering⟩ := ih
    obtain ⟨packet, now, hversion, rfl⟩ := hstep
    obtain ⟨mesh'', hsim', hdelivering'⟩ := hsim.originate i hversion now
    rw [put_put, router_put, ← hconfig'] at hsim'
    refine ⟨hconfig', frames ++ (frameOf (mtu i) u.1.padding packet).toOption.toList, mesh'', ?_,
      hsim', hdelivering'.trans hdelivering⟩
    show u.2.2 ++ _ = _
    rw [hframes, List.append_assoc]

/-- A frame that a node hears is heard in the mesh. -/
lemma hear {n : ℕ} {i : ι} {data : Bytes β} (hdata : links.air[n]? = some (i, data))
    {packet : Packet β} (hdecode : Packet.decode data = .ok packet) (now delay : ℚ)
    (forUs : Except (Exc β) Bool) :
    ∃ mesh', (({ links with air := links.air.eraseIdx n } : Links ι β).put neighbours i
        (Router.heard packet now delay forUs (links.router i)) [] []).Sim
          neighbours mtu config mesh' ∧
      (Router.Unseen packet now (links.router i) ∧ forUs = .ok true →
        ∃ (k : ℕ) (copy : Traced β), (mesh'.stations (.inl i)).delivering[k]? = some copy ∧
          copy.packet = packet) := by
  obtain ⟨copy, hcopy, hpacket⟩ := h.refines.getElem? hdata
  obtain rfl : copy.packet = packet := Except.ok.inj (hpacket.symm.trans hdecode)
  have hrouter := h.refines.router i
  have hrefines := (h.refines.eraseIdx n).putNothing neighbours i
    ((mesh.stations (.inl i)).hear copy now forUs delay) (by rw [Station.hear_eq])
  have hheard : ((mesh.stations (.inl i)).hear copy now forUs delay).router.map Traced.packet =
      Router.heard copy.packet now delay forUs (links.router i) := by
    rw [Station.hear_eq, ← hrouter]
    exact Router.map_heard Traced.erases_packet copy now delay forUs _
  rw [hheard] at hrefines
  refine ⟨_, ⟨h.run.tail (e := .hear n now forUs delay) trivial, ?_⟩, ?_⟩
  · rw [Mesh.step_hear_of_some hcopy]
    exact hrefines
  · rintro ⟨hunseen, hours⟩
    rw [← hrouter] at hunseen
    have hunseen' := (Router.unseen_map Traced.erases_packet).mp hunseen
    refine ⟨(mesh.stations (.inl i)).delivering.length, copy, ?_, rfl⟩
    rw [Mesh.step_hear_of_some hcopy]
    show (Function.update mesh.stations (.inl i) _ (.inl i)).delivering[_]? = _
    rw [Function.update_self, Station.hear_eq, if_pos ⟨hunseen', hours⟩]
    exact List.getElem?_concat_length

/-- The end of a delivery is one in the mesh. -/
lemma deliverEnds {i : ι} {k : ℕ} {copy : Traced β}
    (hcopy : (mesh.stations (.inl i)).delivering[k]? = some copy) (returned : Bool) (delay : ℚ) :
    ∃ mesh', (links.put neighbours i
      (if returned then Router.scheduleRelay copy.packet delay (links.router i)
        else links.router i) [] []).Sim neighbours mtu config mesh' := by
  have hrefines := h.refines.putNothing neighbours i
    ((mesh.stations (.inl i)).deliverEnds k returned delay) (by rw [Station.deliverEnds_of_some hcopy])
  have hrouter : ((mesh.stations (.inl i)).deliverEnds k returned delay).router.map Traced.packet =
      if returned then Router.scheduleRelay copy.packet delay (links.router i)
        else links.router i := by
    rw [Station.deliverEnds_of_some hcopy, ← h.refines.router i]
    cases returned with
    | true => exact Router.map_scheduleRelay Traced.erases_packet copy delay _
    | false => rfl
  rw [hrouter] at hrefines
  refine ⟨_, h.run.tail (e := .station (.inl i) (.deliverEnds k returned delay)) trivial, ?_⟩
  show Refines mtu config _ { mesh with
    stations := Function.update mesh.stations (.inl i) _, flight := mesh.flight ++ [] }
  rw [List.append_nil]
  exact hrefines

/-- A timer is one in the mesh. -/
lemma fire {i : ι} {n : ℕ} {handle : TimerHandle β (Packet β)}
    (hhandle : (links.router i).timers[n]? = some handle) :
    ∃ mesh', (links.put neighbours i (Router.fireRelay handle { links.router i with
      timers := (links.router i).timers.eraseIdx n }) [] []).Sim neighbours mtu config mesh' := by
  rw [← h.refines.router i] at hhandle ⊢
  obtain ⟨timer, htimer, rfl⟩ := Option.map_eq_some_iff.mp ((List.getElem?_map ..).symm.trans hhandle)
  have hstation : (mesh.stations (.inl i)).fire n = { mesh.stations (.inl i) with
      router := Router.fireRelay (Station.relayOf timer) { (mesh.stations (.inl i)).router with
        timers := (mesh.stations (.inl i)).router.timers.eraseIdx n } } := by
    unfold Station.fire
    rw [htimer]
  have hrefines := h.refines.putNothing neighbours i ((mesh.stations (.inl i)).fire n)
    (by rw [hstation])
  have hrouter : ((mesh.stations (.inl i)).fire n).router.map Traced.packet =
      Router.fireRelay (timer.map Traced.packet) { (mesh.stations (.inl i)).router.map
        Traced.packet with
          timers := ((mesh.stations (.inl i)).router.map Traced.packet).timers.eraseIdx n } := by
    rw [hstation]
    -- the note is not in the packet
    refine (Router.map_fireRelay (Station.relayOf timer) _).trans (congrArg _ ?_)
    unfold Router.map
    dsimp only
    rw [List.eraseIdx_map]
  rw [hrouter] at hrefines
  refine ⟨_, h.run.tail (e := .station (.inl i) (.fire n)) trivial, ?_⟩
  show Refines mtu config _ { mesh with
    stations := Function.update mesh.stations (.inl i) _, flight := mesh.flight ++ [] }
  rw [List.append_nil]
  exact hrefines

/-- The frame of a relay is that of a copy whose send is awaited. -/
lemma decode_relay {i : ι} {n : ℕ} {packet : Packet β} {frame : Bytes β}
    (hpacket : (links.router i).relayTasks[n]? = some packet)
    (hframe : frameOf (mtu i) (config i).padding packet = .ok frame) :
    ∃ copy : Traced β, (mesh.stations (.inl i)).router.relayTasks[n]? = some copy ∧
      copy.packet = packet ∧ Packet.decode frame = .ok packet := by
  rw [← h.refines.router i] at hpacket
  obtain ⟨copy, hcopy, rfl⟩ :=
    Option.map_eq_some_iff.mp ((List.getElem?_map ..).symm.trans hpacket)
  have hcarried := Mesh.carried_run h.run
  have hsending : (mesh.stations (.inl i)).sendingFrame (.relay n) = some copy := hcopy
  have hheld := Station.mem_held_of_sendingFrame hsending
  exact ⟨copy, hcopy, rfl,
    decode_frameOf hframe (hcarried.of_descends (hcarried.held _ _ hheld))⟩

/-- A relay task that ends does so in the mesh. -/
lemma relayEnds {i : ι} {n : ℕ} {packet : Packet β}
    (hpacket : (links.router i).relayTasks[n]? = some packet) {sent : Bool}
    (hsent : sent = true → ∃ frame, frameOf (mtu i) (config i).padding packet = .ok frame)
    (now : ℚ) :
    ∃ mesh', (links.put neighbours i (Router.finishRelay (config i) packet sent now
        { links.router i with relayTasks := (links.router i).relayTasks.eraseIdx n }).2 []
        (if sent then (frameOf (mtu i) (config i).padding packet).toOption.toList else [])).Sim
          neighbours mtu config mesh' := by
  obtain ⟨copy, hcopy, rfl⟩ : ∃ copy : Traced β,
      (mesh.stations (.inl i)).router.relayTasks[n]? = some copy ∧ copy.packet = packet := by
    rw [← h.refines.router i] at hpacket
    exact Option.map_eq_some_iff.mp ((List.getElem?_map ..).symm.trans hpacket)
  have hframes : (if sent then (frameOf (mtu i) (config i).padding copy.packet).toOption.toList
      else []).map Packet.decode =
      (if sent then [copy] else []).map fun copy => .ok copy.packet := by
    cases sent with
    | false => rfl
    | true =>
      obtain ⟨frame, hframe⟩ := hsent rfl
      obtain ⟨-, -, -, hdecode⟩ := h.decode_relay hpacket hframe
      rw [if_pos rfl, if_pos rfl, hframe]
      exact congrArg (fun r => [r]) hdecode
  have hstation : (mesh.stations (.inl i)).sendEnds (config i) (.relay n) sent now =
      { mesh.stations (.inl i) with
        router := (Router.finishRelay (config i) copy sent now
          { (mesh.stations (.inl i)).router with
            relayTasks := (mesh.stations (.inl i)).router.relayTasks.eraseIdx n }).2
        transmitted := if sent then (mesh.stations (.inl i)).transmitted ++ [copy]
          else (mesh.stations (.inl i)).transmitted } := by
    unfold Station.sendEnds Station.sendingFrame
    dsimp only
    rw [hcopy]
  have hrefines := h.refines.put neighbours i
    ((mesh.stations (.inl i)).sendEnds (config i) (.relay n) sent now) []
    (if sent then [copy] else []) List.filterMap_nil.symm
    (by rw [hstation]; cases sent <;> simp) hframes
  have hrouter : ((mesh.stations (.inl i)).sendEnds (config i) (.relay n) sent now).router.map
      Traced.packet = (Router.finishRelay (config i) copy.packet sent now
        { links.router i with relayTasks := (links.router i).relayTasks.eraseIdx n }).2 := by
    rw [hstation, ← h.refines.router i]
    refine (Router.map_finishRelay _ copy sent now _).trans ?_
    unfold Router.map
    dsimp only
    rw [List.eraseIdx_map]
  have hflight : Mesh.copies (besideOutsiders neighbours) (.inl i)
      (Mesh.emitted (mesh.stations (.inl i)) (.sendEnds (.relay n) sent now)) =
      (if sent then [copy] else []).flatMap fun copy =>
        Mesh.copies (besideOutsiders neighbours) (.inl i) (some copy) := by
    cases sent with
    | false => rfl
    | true =>
      have hemitted : Mesh.emitted (mesh.stations (.inl i)) (.sendEnds (.relay n) true now) =
          some copy := hcopy
      rw [hemitted]
      exact (List.flatMap_singleton _ _).symm
  rw [hrouter, ← hflight, List.map_nil, List.append_nil] at hrefines
  exact ⟨_, h.run.tail (e := .station (.inl i) (.sendEnds (.relay n) sent now)) trivial, hrefines⟩

/-- What a relay task puts on the air is on the air in the mesh. -/
lemma onAir {i : ι} {n : ℕ} {packet : Packet β} {frame : Bytes β}
    (hpacket : (links.router i).relayTasks[n]? = some packet)
    (hframe : frameOf (mtu i) (config i).padding packet = .ok frame) :
    ∃ mesh', ({ links with
      air := links.air ++ NodeMesh.copies neighbours i [frame] } : Links ι β).Sim
        neighbours mtu config mesh' := by
  obtain ⟨copy, hcopy, rfl, hdecode⟩ := h.decode_relay hpacket hframe
  have hframes : [frame].map Packet.decode =
      [copy].map fun copy => (.ok copy.packet : Except (Exc β) (Packet β)) :=
    congrArg (fun r => [r]) hdecode
  have hair := map_copies neighbours i hframes
  refine ⟨_, h.run.tail (e := .onAir (.inl i) (.relay n)) trivial,
    { h.refines with air := ?_ }⟩
  have hsending : (mesh.stations (.inl i)).sendingFrame (.relay n) = some copy := hcopy
  show (links.air ++ _).map _ = (mesh.flight ++ Mesh.copies _ _ _).map _
  rw [hsending, List.map_append, List.map_append, h.refines.air, hair, List.flatMap_singleton]

/-- A copy that is lost is lost in the mesh. -/
lemma lose (n : ℕ) : ∃ mesh', ({ links with air := links.air.eraseIdx n } : Links ι β).Sim
    neighbours mtu config mesh' :=
  ⟨_, h.run.tail (e := .lose n) trivial, h.refines.eraseIdx n⟩

/-- So is one that is heard twice. -/
lemma duplicate (n : ℕ) :
    ∃ mesh', ({ links with air := links.air ++ links.air[n]?.toList } : Links ι β).Sim
      neighbours mtu config mesh' := by
  refine ⟨_, h.run.tail (e := .duplicate n) trivial, { h.refines with air := ?_ }⟩
  have hmap := congrArg (fun l => l[n]?) h.refines.air
  rw [List.getElem?_map, List.getElem?_map] at hmap
  show (links.air ++ _).map _ = (mesh.flight ++ _).map _
  rw [List.map_append, List.map_append, h.refines.air, ← Option.toList_map, hmap,
    Option.toList_map]

/-- The outsider next to a node puts a frame on the air. -/
lemma outsider (i : ι) {data : Bytes β} {packet : Packet β}
    (hdecode : Packet.decode data = .ok packet) :
    ∃ mesh', ({ links with air := links.air ++ [(i, data)] } : Links ι β).Sim
      neighbours mtu config mesh' := by
  let source : Traced β := ⟨packet, 0⟩
  refine ⟨_, (h.run.tail (e := .originate (.inr i) source 0)
    ⟨rfl, Packet.version_of_decode hdecode⟩).tail (e := .station (.inr i)
      (.sendEnds (.origination (mesh.stations (.inr i)).originating.length) true 0)) trivial, ?_⟩
  rw [Mesh.step_originate_sendEnds]
  -- the stations of the nodes are as they were
  have hsame : ∀ (j : ι) (station : Station β (Traced β)),
      Function.update mesh.stations (.inr i) station (.inl j) = mesh.stations (.inl j) :=
    fun j station => Function.update_of_ne (fun heq => by cases heq) ..
  refine ⟨fun j => ?_, fun j => ?_, fun j => ?_, ?_⟩
  · dsimp only
    rw [hsame]
    exact h.refines.router j
  · show links.handed j = List.filterMap _ (mesh.originated ++ _)
    rw [List.filterMap_append, ← h.refines.handed j]
    simp
  · dsimp only
    rw [hsame]
    exact h.refines.sent j
  · show (links.air ++ _).map _ = (mesh.flight ++ _).map _
    rw [List.map_append, List.map_append, h.refines.air]
    refine congrArg _ ?_
    rw [List.map_singleton, hdecode]
    rfl

end Sim

end Links

end Chatbit
