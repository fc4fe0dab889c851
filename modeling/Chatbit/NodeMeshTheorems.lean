import Chatbit.NodeMeshLinks

/-!
# A mesh of nodes is a mesh of routers

Everything a node does with a frame beside its router, from the reassembly of a message to the
handshake that it answers, is to the mesh a delivery that ends some time, and what it sends meanwhile
is originated there (`NodeMesh.refines_mesh`).
-/

namespace Chatbit

open Lib Method Node

variable {ι β X E τ : Type} [Alphabet β] [DecidableEq β] {P : Primitives β X E}

/-! ## What a node does to its links -/

namespace Node

open Links (Originates)

variable {T : Transport β τ}

/-- What the mesh sees of a node. -/
def link (node : Node T X E) : MeshConfig × Router β × List (Bytes β) :=
  (node.mesh, node.router, node.handed)

lemma originate_moves {packet : Packet β} (hversion : packet.version = VERSION) (now : ℚ)
    (node : Node T X E) : Originates T.mtu node.link (originate packet now node).2.link := by
  refine ⟨packet, now, hversion, ?_⟩
  obtain ⟨seen, router', hmark⟩ := markSeen_ok packet now node.router
  have hrouter : (Router.markSeen packet now node.router).2 = router' := by rw [hmark]
  rw [originate, bind_of_ok (onField_ok.mpr ⟨router', hmark, rfl⟩)]
  show _ = (node.mesh, (Router.markSeen packet now node.router).2,
    node.handed ++ (frameOf T.mtu node.mesh.padding packet).toOption.toList)
  rw [hrouter]
  rcases hframe : frameOf T.mtu node.mesh.padding packet with err | frame
  · rw [transmit, self_bind, bind_apply, eval_apply]
    dsimp only
    rw [hframe]
    exact congrArg (fun frames => (node.mesh, router', frames)) (List.append_nil _).symm
  · have htransmit : transmit packet { node with router := router' } = _ :=
      transmit_of_frameOf hframe
    rw [htransmit]
    rfl

lemma originateAll_moves (clock : ℕ → ℚ) {packets : List (Packet β)}
    (hversion : ∀ packet ∈ packets, packet.version = VERSION) :
    Method.Moves (Relation.ReflTransGen (Originates T.mtu)) (link : Node T X E → _)
      (originateAll clock packets) := by
  induction packets with
  | nil => exact fun _ => .refl
  | cons packet packets ih =>
    obtain ⟨hfirst, hrest⟩ := List.forall_mem_cons.mp hversion
    exact .bind (fun node => .single (originate_moves hfirst _ node)) fun _ => ih hrest

lemma emit_moves (ptype : PacketType) (payload dstTag : Bytes β) (env : SendEnv β) :
    Method.Moves (Relation.ReflTransGen (Originates T.mtu)) (link : Node T X E → _)
      (emit ptype payload dstTag env) := by
  intro node
  rw [emit, self_bind, bind_apply, eval_apply]
  rcases hfragment : fragment ptype payload env.msgId node.capacity dstTag node.mesh.defaultTtl with
    err | packets
  · exact .refl
  · exact originateAll_moves env.clock (fun packet hpacket =>
      ((fragment_ok hfragment).2.2 packet hpacket).2) node

lemma answers_link :
    Answers (Relation.ReflTransGen (Originates T.mtu)) (link : Node T X E → _) :=
  ⟨fun _ _ => rfl, fun _ _ => rfl, emit_moves⟩

lemma deliver_moves (packet : Packet β) (env : ReceiveEnv β X) :
    Method.Moves (Relation.ReflTransGen (Originates T.mtu)) (link : Node T X E → _)
      (deliver P env packet) := by
  intro node
  rw [deliver, bind_apply, reassemble_eq]
  rcases Reassembler.add packet env.reassemblyNow node.reassembler with
    ⟨err | _ | payload, reassembler⟩
  · cases err <;> exact .refl
  · exact .refl
  · exact answers_link.handlePayload env
      (fun _ => (onBeacon_keeps (fun _ _ => rfl) (fun _ _ => rfl) payload).moves)
      { node with reassembler := reassembler }

/-- Up to its delivery, and without one, `handle` is what the router does. -/
lemma link_handle (packet : Packet β) (env : ReceiveEnv β X) (node : Node T X E) :
    let start := (node.mesh, Router.heard packet env.now env.delay
      (isForUs P env.tagNow packet node) node.router, node.handed)
    (¬ (Router.Unseen packet env.now node.router ∧ isForUs P env.tagNow packet node = .ok true) ∧
        (handle P packet env node).2.link = start) ∨
      (Router.Unseen packet env.now node.router ∧ isForUs P env.tagNow packet node = .ok true) ∧
        ∃ delivered returned, Relation.ReflTransGen (Originates T.mtu) start delivered ∧
          (handle P packet env node).2.link = (delivered.1,
            (if returned = true then Router.scheduleRelay packet env.delay delivered.2.1
              else delivered.2.1), delivered.2.2) := by
  intro start
  by_cases hunseen : Router.Unseen packet env.now node.router
  · have hstart : start.2.1 = Router.heard packet env.now env.delay
        (isForUs P env.tagNow packet node) node.router := rfl
    unfold Router.heard at hstart
    rw [if_pos hunseen] at hstart
    rcases hours : isForUs P env.tagNow packet node with err | ours
    · refine Or.inl ⟨by simp, ?_⟩
      rw [hours] at hstart
      rw [handle, Router.handle_of_unseen (isForUs_setRouter P env.tagNow packet) (deliver P env)
        hunseen, hours]
      exact congrArg (fun router => (node.mesh, router, node.handed)) hstart.symm
    cases ours with
    | false =>
      refine Or.inl ⟨by simp, ?_⟩
      rw [hours] at hstart
      rw [handle, Router.handle_of_unseen (isForUs_setRouter P env.tagNow packet) (deliver P env)
        hunseen, hours]
      exact congrArg (fun router => (node.mesh, router, node.handed)) hstart.symm
    | true =>
      rw [hours] at hstart
      have hmoves := deliver_moves (P := P) packet env
        (node.setRouter (Router.delivering packet env.now node.router))
      have hbegin : (node.setRouter (Router.delivering packet env.now node.router)).link =
          start := congrArg (fun router => (node.mesh, router, node.handed)) hstart.symm
      rw [hbegin] at hmoves
      rw [handle, Router.handle_of_ours router_setRouter setRouter_setRouter
        (isForUs_setRouter P env.tagNow packet) (deliver P env) hunseen hours, bind_apply]
      refine Or.inr ⟨⟨hunseen, rfl⟩, ?_⟩
      generalize deliver P env packet
        (node.setRouter (Router.delivering packet env.now node.router)) = result at hmoves ⊢
      rcases result with ⟨err | ⟨⟩, node'⟩
      · exact ⟨_, false, hmoves, rfl⟩
      · exact ⟨_, true, hmoves, rfl⟩
  · refine Or.inl ⟨fun h => hunseen h.1, ?_⟩
    have hstart : start.2.1 = (Router.accept packet env.now node.router).2 := if_neg hunseen
    rw [handle, Router.handle, bind_apply, onField_apply,
      Router.accept_of_seen (not_not.mp hunseen)]
    rw [Router.accept_of_seen (not_not.mp hunseen)] at hstart
    exact congrArg (fun router => (node.mesh, router, node.handed)) hstart.symm

end Node

/-! ## The network -/

namespace Links.Sim

variable [DecidableEq ι] {T : ι → Transport β τ} {neighbours : ι → List ι} {mtu : ι → ℕ}
  {config : ι → MeshConfig} {links : Links ι β} {mesh : Mesh (ι ⊕ ι) β (Traced β)}

/-- A frame on the air is heard by a node. -/
lemma receiveFrame (h : links.Sim neighbours mtu config mesh) {n : ℕ} {i : ι}
    {T : Transport β τ} (node : Node T X E) (hmtu : mtu i = T.mtu) (hconfig : node.mesh = config i)
    (hrouter : node.router = links.router i) {data : Bytes β}
    (hdata : links.air[n]? = some (i, data)) {packet : Packet β}
    (hdecode : Packet.decode data = .ok packet) (rssi : Option ℚ) (env : ReceiveEnv β X) :
    let node' := Node.receiveFrame P data rssi env node
    node'.mesh = config i ∧ ∃ frames mesh', node'.handed = node.handed ++ frames ∧
      (({ links with air := links.air.eraseIdx n } : Links ι β).put neighbours i node'.router
        frames frames).Sim neighbours mtu config mesh' := by
  intro node'
  let started : Node T X E := { node with lastRssi := rssi }
  have hnode' : node' = (handle P packet env started).2 := by
    show Node.receiveFrame P data rssi env node = _
    unfold Node.receiveFrame
    rw [hdecode]
  obtain ⟨mesh₁, hsim₁, hdelivering⟩ := h.hear hdata hdecode env.now env.delay
    (isForUs P env.tagNow packet started)
  rw [← hrouter] at hsim₁ hdelivering
  rcases link_handle (P := P) packet env started with ⟨-, hlink⟩ |
    ⟨hours, delivered, returned, hsteps, hlink⟩
  · rw [← hnode'] at hlink
    obtain ⟨hmesh, hlink⟩ := Prod.mk.inj hlink
    obtain ⟨hrouter', hhanded⟩ := Prod.mk.inj hlink
    refine ⟨hmesh.trans hconfig, [], mesh₁, hhanded.trans (List.append_nil _).symm, ?_⟩
    rw [hrouter']
    exact hsim₁
  · rw [← hnode'] at hlink
    obtain ⟨k, copy, hcopy, rfl⟩ := hdelivering hours
    rw [← hmtu] at hsteps
    obtain ⟨hmesh, frames, mesh₂, hframes, hsim₂, hsame⟩ := hsim₁.originates i hconfig
      (router_put _ _ _).symm hsteps
    rw [← hsame] at hcopy
    obtain ⟨mesh₃, hsim₃⟩ := hsim₂.deliverEnds hcopy returned env.delay
    rw [router_put, put_put, put_put] at hsim₃
    obtain ⟨hmesh', hlink⟩ := Prod.mk.inj hlink
    obtain ⟨hrouter', hhanded⟩ := Prod.mk.inj hlink
    refine ⟨hmesh'.trans hmesh, frames, mesh₃, hhanded.trans hframes, ?_⟩
    rw [hrouter']
    simpa using hsim₃

end Links.Sim

namespace NodeMesh

open Links

variable [DecidableEq ι] {T : ι → Transport β τ} {neighbours : ι → List ι}
  {config : ι → MeshConfig} {w : NodeMesh T X E} {mesh : Mesh (ι ⊕ ι) β (Traced β)}

/-- The network is this mesh of routers, and its nodes keep their configuration. -/
structure Follows (neighbours : ι → List ι) (config : ι → MeshConfig) (w : NodeMesh T X E)
    (mesh : Mesh (ι ⊕ ι) β (Traced β)) : Prop where
  sim : w.links.Sim neighbours (fun i => (T i).mtu) config mesh
  config : ∀ i, (w.node i).mesh = config i

/-- What an event of a node changes of the links. -/
lemma links_act (w : NodeMesh T X E) (i : ι) (event : NodeEvent β X)
    {handed frames : List (Bytes β)}
    (hhanded : ((w.node i).step P event).handed = (w.node i).handed ++ handed)
    (hputs : (w.node i).puts P event = frames) :
    (w.act P neighbours i event).links =
      w.links.put neighbours i ((w.node i).step P event).router handed frames := by
  have hupdate : ∀ {ρ : Type} (f : (i : ι) → Node (T i) X E → ρ),
      (fun j => f j ((Function.update w.node i ((w.node i).step P event)) j)) =
        Function.update (fun j => f j (w.node j)) i (f i ((w.node i).step P event)) := by
    intro ρ f
    funext j
    by_cases hj : j = i
    · subst hj
      rw [Function.update_self, Function.update_self]
    · rw [Function.update_of_ne hj, Function.update_of_ne hj]
  unfold act links put
  dsimp only
  rw [hputs, hupdate fun _ node => node.router, hupdate fun _ node => node.handed, hhanded]

lemma config_act (hconfig : ∀ i, (w.node i).mesh = config i) {i : ι} {event : NodeEvent β X}
    (hstep : ((w.node i).step P event).mesh = config i) (j : ι) :
    ((w.act P neighbours i event).node j).mesh = config j := by
  unfold act
  dsimp only
  by_cases hj : j = i
  · subst hj
    rw [Function.update_self]
    exact hstep
  · rw [Function.update_of_ne hj]
    exact hconfig j

lemma puts_of_handed {T : Transport β τ} {node : Node T X E} (event : NodeEvent β X)
    {handed : List (Bytes β)} (hhanded : (node.step P event).handed = node.handed ++ handed)
    (hevent : ∀ n sent now, event ≠ .inbound (.relayEnds n sent now)) :
    node.puts P event = handed := by
  unfold Node.puts
  rw [hhanded, List.drop_left]
  split
  · exact absurd rfl (hevent _ _ _)
  · exact List.append_nil _

/-- A node hears a frame that is on the air. -/
lemma Follows.hears (h : w.Follows neighbours config mesh) {n : ℕ} {i : ι} {data : Bytes β}
    (hdata : w.air[n]? = some (i, data)) {packet : Packet β}
    (hdecode : Packet.decode data = .ok packet) (rssi : Option ℚ) (env : ReceiveEnv β X) :
    ∃ mesh', ({ w with air := w.air.eraseIdx n }.act P neighbours i
      (.inbound (.frame data rssi env))).Follows neighbours config mesh' := by
  obtain ⟨hconfig, frames, mesh', hhanded, hsim⟩ := h.sim.receiveFrame (P := P) (w.node i) rfl
    (h.config i) rfl hdata hdecode rssi env
  have hputs := puts_of_handed (.inbound (.frame data rssi env)) hhanded
    fun _ _ _ heq => by cases heq
  refine ⟨mesh', ?_, config_act (w := { w with air := w.air.eraseIdx n }) h.config hconfig⟩
  rw [links_act { w with air := w.air.eraseIdx n } i (.inbound (.frame data rssi env)) hhanded
    hputs]
  exact hsim

/-- An event of a node is a few steps of the mesh. -/
lemma Follows.act (h : w.Follows neighbours config mesh) (i : ι) (event : NodeEvent β X)
    (hadmissible : w.Admissible (.node i event)) :
    ∃ mesh', (w.act P neighbours i event).Follows neighbours config mesh' := by
  -- where nothing changes, the mesh stays
  have hidle : (w.node i).step P event = w.node i → (w.node i).puts P event = [] →
      ∃ mesh', (w.act P neighbours i event).Follows neighbours config mesh' := by
    intro hstep hputs
    refine ⟨mesh, ?_, config_act h.config ((congrArg Node.mesh hstep).trans (h.config i))⟩
    have hhanded : ((w.node i).step P event).handed = (w.node i).handed ++ [] := by
      rw [hstep, List.append_nil]
    rw [links_act w i event hhanded hputs, hstep]
    exact (put_nothing neighbours w.links i).symm ▸ h.sim
  by_cases hinbound : ∃ inbound, event = .inbound inbound
  · obtain ⟨inbound, rfl⟩ := hinbound
    cases inbound with
    | frame data rssi env =>
      rcases hdecode : Packet.decode data with err | packet
      · have hstep : (w.node i).step P (.inbound (.frame data rssi env)) = w.node i := by
          rw [Node.step, Node.inbound, Node.receiveFrame, hdecode]
        exact hidle hstep (puts_of_handed _ (by rw [hstep, List.append_nil])
          fun _ _ _ heq => by cases heq)
      · -- an outsider's frame is on the air before it is heard
        obtain ⟨mesh₁, hsim₁⟩ := h.sim.outsider i hdecode
        have hfollows : ({ w with air := w.air ++ [(i, data)] } : NodeMesh T X E).Follows
            neighbours config mesh₁ := ⟨hsim₁, h.config⟩
        obtain ⟨mesh', h'⟩ := hfollows.hears (P := P) (n := w.air.length)
          List.getElem?_concat_length hdecode rssi env
        have herase : (w.air ++ [(i, data)]).eraseIdx w.air.length = w.air := by
          rw [List.eraseIdx_append_of_length_le (Nat.le_refl _), Nat.sub_self, List.eraseIdx_cons_zero,
            List.append_nil]
        dsimp only at h'
        rw [herase] at h'
        exact ⟨mesh', h'⟩
    | fire n =>
      rcases hhandle : (w.node i).router.timers[n]? with _ | handle
      · have hstep : (w.node i).step P (.inbound (.fire n)) = w.node i := by
          rw [Node.step, Node.inbound, hhandle]
        exact hidle hstep (puts_of_handed _ (by rw [hstep, List.append_nil])
          fun _ _ _ heq => by cases heq)
      · obtain ⟨mesh', hsim⟩ := h.sim.fire (i := i) hhandle
        have hstep : (w.node i).step P (.inbound (.fire n)) =
            (w.node i).setRouter (Router.fireRelay handle { (w.node i).router with
              timers := (w.node i).router.timers.eraseIdx n }) := by
          rw [Node.step, Node.inbound, hhandle]
        have hhanded : ((w.node i).step P (.inbound (.fire n))).handed =
            (w.node i).handed ++ [] := by rw [hstep, List.append_nil]; rfl
        refine ⟨mesh', ?_, config_act h.config (hstep ▸ h.config i)⟩
        rw [links_act w i _ hhanded (puts_of_handed _ hhanded fun _ _ _ heq => by cases heq), hstep]
        exact hsim
    | relayEnds n sent now =>
      rcases hpacket : (w.node i).router.relayTasks[n]? with _ | packet
      · have hstep : (w.node i).step P (.inbound (.relayEnds n sent now)) = w.node i := by
          rw [Node.step, Node.inbound, hpacket]
        have hframe : (w.node i).relayFrame n = none := by
          unfold Node.relayFrame
          rw [hpacket]
          rfl
        refine hidle hstep ?_
        unfold Node.puts
        rw [hstep, List.drop_length]
        cases sent with
        | true => exact congrArg Option.toList hframe
        | false => rfl
      · have hframe : (w.node i).relayFrame n =
            (frameOf (T i).mtu (config i).padding packet).toOption := by
          unfold Node.relayFrame
          rw [hpacket, h.config i]
          rfl
        have hsent : sent = true → ∃ frame,
            frameOf (T i).mtu (config i).padding packet = .ok frame := by
          rintro rfl
          have hsome := hadmissible (by rw [hpacket]; rfl)
          rw [hframe] at hsome
          rcases hof : frameOf (T i).mtu (config i).padding packet with err | frame
          · rw [hof] at hsome
            cases hsome
          · exact ⟨frame, rfl⟩
        obtain ⟨mesh', hsim⟩ := h.sim.relayEnds (i := i) hpacket hsent now
        have hstep : (w.node i).step P (.inbound (.relayEnds n sent now)) =
            (w.node i).setRouter (Router.finishRelay (config i) packet sent now
              { (w.node i).router with
                relayTasks := (w.node i).router.relayTasks.eraseIdx n }).2 := by
          rw [Node.step, Node.inbound, hpacket, ← h.config i]
        have hhanded : ((w.node i).step P (.inbound (.relayEnds n sent now))).handed =
            (w.node i).handed ++ [] := by rw [hstep, List.append_nil]; rfl
        have hputs : (w.node i).puts P (.inbound (.relayEnds n sent now)) = if sent then
            (frameOf (T i).mtu (config i).padding packet).toOption.toList else [] := by
          unfold Node.puts
          rw [hhanded, List.drop_left]
          cases sent with
          | true => exact congrArg Option.toList hframe
          | false => rfl
        refine ⟨mesh', ?_, config_act h.config (hstep ▸ h.config i)⟩
        rw [links_act w i _ hhanded hputs, hstep]
        exact hsim
  · push Not at hinbound
    obtain ⟨hconfig, frames, mesh', hframes, hsim, -⟩ := h.sim.originates i
      (h.config i) rfl (answers_link.step hinbound (w.node i))
    refine ⟨mesh', ?_, config_act h.config hconfig⟩
    rw [links_act w i event hframes (puts_of_handed event hframes fun _ _ _ => hinbound _)]
    exact hsim

lemma Follows.step (h : w.Follows neighbours config mesh) (event : NodeMeshEvent ι β X)
    (hadmissible : w.Admissible event) :
    ∃ mesh', (w.step P neighbours event).Follows neighbours config mesh' := by
  cases event with
  | node i event => exact h.act i event hadmissible
  | hear n rssi env =>
    unfold NodeMesh.step
    dsimp only
    rcases hdata : w.air[n]? with _ | ⟨i, data⟩
    · exact ⟨mesh, h⟩
    · obtain ⟨copy, -, hdecode⟩ := h.sim.refines.getElem? hdata
      exact h.hears hdata hdecode rssi env
  | onAir i n =>
    unfold NodeMesh.step Node.relayFrame
    dsimp only
    rcases hpacket : (w.node i).router.relayTasks[n]? with _ | packet
    · refine ⟨mesh, ?_, h.config⟩
      show Sim _ _ _ ⟨_, _, _, w.air ++ []⟩ _
      rw [List.append_nil]
      exact h.sim
    · dsimp only [Option.bind_some]
      rw [h.config i]
      rcases hframe : frameOf (T i).mtu (config i).padding packet with err | frame
      · refine ⟨mesh, ?_, h.config⟩
        show Sim _ _ _ ⟨_, _, _, w.air ++ []⟩ _
        rw [List.append_nil]
        exact h.sim
      · obtain ⟨mesh', hsim⟩ := h.sim.onAir (i := i) hpacket hframe
        exact ⟨mesh', hsim, h.config⟩
  | lose n =>
    obtain ⟨mesh', hsim⟩ := h.sim.lose n
    exact ⟨mesh', hsim, h.config⟩
  | duplicate n =>
    obtain ⟨mesh', hsim⟩ := h.sim.duplicate n
    exact ⟨mesh', hsim, h.config⟩

omit [DecidableEq β] in
lemma stats_of_refines {mtu : ι → ℕ} (h : w.links.Refines mtu config mesh) (i : ι) :
    (mesh.stations (.inl i)).router.stats = (w.node i).router.stats :=
  congrArg Router.stats (h.router i)

/-! ## Results -/

section Line

/-- `none` is between the others. -/
def lineNeighbours : Option Bool → List (Option Bool)
  | none => [some false, some true]
  | some _ => [none]

def lineIdentity : Option Bool → Identity ℕ ℕ
  | none => ⟨1, 11, "middle"⟩
  | some false => ⟨2, 12, "first"⟩
  | some true => ⟨3, 13, "last"⟩

def lineNode (i : Option Bool) : Node Node.openLink ℕ ℕ :=
  Node.new Node.openLink {} () (lineIdentity i) (.empty none) none (fun _ => .ok ())
    Node.aliceNode.capacity_eq

def lineStart : NodeMesh (fun _ : Option Bool => Node.openLink) ℕ ℕ := { node := lineNode }

/-- The beacon of the first is heard by the one in the middle, which relays it to the last. -/
def lineEvents : List (NodeMeshEvent (Option Bool) SymByte ℕ) :=
  [.node (some false) (.broadcastBeacon Node.aliceEnv), .hear 0 none (.at 1 0),
    .node none (.inbound (.fire 0)), .node none (.inbound (.relayEnds 0 true 2)),
    .hear 1 none (.at 3 0)]

def line : NodeMesh (fun _ : Option Bool => Node.openLink) ℕ ℕ :=
  lineEvents.foldl (step symbolic lineNeighbours) lineStart

end Line

end NodeMesh

end Chatbit
