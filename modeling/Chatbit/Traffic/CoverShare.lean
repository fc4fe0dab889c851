import Chatbit.Radio.RadioLink
import Chatbit.Traffic.Cover

/-!
# The share of cover traffic

`MeshConfig.cover_max_duty_fraction` of `chatbit/config.py` is to limit what cover traffic takes of
the duty-cycle budget. Nothing reads it: `_cover_loop` of `chatbit/node.py` draws its delays from
the mean interval alone, and the governor does not tell cover frames from others. So the limit is
kept where the airtimes of cover frames keep it (`respects_iff`).
-/

namespace Chatbit

open Lib

variable {β X E τ : Type} [Alphabet β] [DecidableEq β]

namespace Node

variable {T : Transport β τ} {node : Node T X E} {env : CoverEnv β} {frame : Bytes β} {length : ℕ}

/-! ## One turn -/

omit [DecidableEq β] in
lemma length_frameOf {mtu : ℕ} {padding : PaddingPolicy} {packet : Packet β}
    (h : frameOf mtu padding packet = .ok frame) :
    paddedSize (β := β) (HEADER_LEN + packet.payload.length) mtu padding = .ok frame.length := by
  obtain ⟨size, hsize, rfl⟩ := frameOf_ok_iff.mp h
  have hle := (le_paddedSize hsize).1
  rw [hsize, List.length_append, List.length_append, Packet.length_header, length_zeros,
    Nat.add_sub_cancel' hle]

/-- A turn that has a packet hands its frame to the transport. -/
lemma sendCover_of_create {packet : Packet β}
    (hlength : randint (β := β) 40 node.capacity env.choice = .ok length)
    (hcreate : Packet.create .data (randomBytes env.octets length) env.send.msgId env.tag
      node.mesh.defaultTtl 0 1 = .ok packet)
    (hframe : frameOf T.mtu node.mesh.padding packet = .ok frame) :
    ((sendCover env node).1, (sendCover env node).2.transport) = T.send frame node.transport := by
  obtain ⟨hmin, hchoice⟩ := randint_ok_iff.mp hlength
  have hmod := Nat.mod_lt env.choice (show 0 < node.capacity + 1 - 40 by omega)
  have hfragment : fragment .data (randomBytes env.octets length) env.send.msgId node.capacity
      env.tag node.mesh.defaultTtl = .ok [packet] := by
    rw [fragment_of_le (by omega) (by rw [length_randomBytes]; omega), hcreate]
    rfl
  obtain ⟨seen, router', hmark⟩ := markSeen_ok packet (env.send.clock packet.fragIndex) node.router
  have htransmit : transmit packet { node with router := router' } = _ := transmit_of_frameOf hframe
  rw [sendCover, Method.self_bind, Method.bind_of_ok (Method.eval_ok.mpr ⟨hlength, rfl⟩),
    Method.bind_apply, emit, Method.self_bind,
    Method.bind_of_ok (Method.eval_ok.mpr ⟨hfragment, rfl⟩), originateAll, Method.bind_apply,
    originate, Method.bind_of_ok (Method.onField_ok.mpr ⟨router', hmark, rfl⟩), htransmit]
  rcases T.send frame node.transport with ⟨err | ⟨⟩, transport⟩ <;> rfl

/-- A turn raises before the transport is called, or hands over the frame of one packet. -/
lemma sendCover_cases (env : CoverEnv β) (node : Node T X E) :
    (∃ err, (sendCover env node).1 = .error err ∧
      (sendCover env node).2.transport = node.transport) ∨
    ∃ length frame, 40 ≤ length ∧ node.mesh.defaultTtl ≤ MAX_TTL ∧
      paddedSize (β := β) (HEADER_LEN + length) T.mtu node.mesh.padding = .ok frame.length ∧
      ((sendCover env node).1, (sendCover env node).2.transport) =
        T.send frame node.transport := by
  rcases hlength : randint (β := β) 40 node.capacity env.choice with err | length
  · left
    rw [sendCover, Method.self_bind, hlength, Method.bind_of_error (Method.eval_apply _ _)]
    exact ⟨err, rfl, rfl⟩
  obtain ⟨hmin, hchoice⟩ := randint_ok_iff.mp hlength
  have hmod := Nat.mod_lt env.choice (show 0 < node.capacity + 1 - 40 by omega)
  rcases hcreate : Packet.create .data (randomBytes env.octets length) env.send.msgId env.tag
    node.mesh.defaultTtl 0 1 with err | packet
  · left
    rw [sendCover, Method.self_bind, Method.bind_of_ok (Method.eval_ok.mpr ⟨hlength, rfl⟩),
      Method.bind_apply, emit, Method.self_bind, fragment_of_le (by omega)
      (by rw [length_randomBytes]; omega), hcreate]
    exact ⟨err, rfl, rfl⟩
  · right
    obtain ⟨-, hpayload, -, -, httl, -⟩ := Packet.create_ok_iff.mp hcreate
    have hlen : packet.payload.length = length := by rw [hpayload, length_randomBytes]
    obtain ⟨frame, hframe⟩ : ∃ frame, frameOf T.mtu node.mesh.padding packet = .ok frame :=
      exists_frame (by omega)
    exact ⟨length, frame, by omega, httl ▸ packet.ttl_le, hlen ▸ length_frameOf hframe,
      sendCover_of_create hlength hcreate hframe⟩

/-- Any length that fits a frame may be drawn. -/
lemma exists_sendCover {size : ℕ} (hmin : 40 ≤ length) (hmax : length ≤ 0xFFFF)
    (httl : node.mesh.defaultTtl ≤ MAX_TTL)
    (hsize : paddedSize (β := β) (HEADER_LEN + length) T.mtu node.mesh.padding = .ok size) :
    ∃ (env : CoverEnv β) (frame : Bytes β), env.Drawn ∧ frame.length = size ∧
      ((sendCover env node).1, (sendCover env node).2.transport) =
        T.send frame node.transport := by
  have hmtu := (capacityFor_ok node.capacity_eq).1
  have hle := (le_paddedSize hsize).1.trans (le_paddedSize hsize).2
  let env : CoverEnv β :=
    { choice := length - 40, octets := fun _ => 0, tag := zeros 8, send := .atStart (zeros 8) }
  have hlength : randint (β := β) 40 node.capacity env.choice = .ok length := by
    refine randint_ok_iff.mpr ⟨by omega, ?_⟩
    show length = 40 + (length - 40) % (node.capacity + 1 - 40)
    rw [Nat.mod_eq_of_lt (by omega)]
    omega
  obtain ⟨packet, hcreate⟩ : ∃ packet, Packet.create .data
      (randomBytes env.octets length : Bytes β) (zeros 8) (zeros 8) node.mesh.defaultTtl 0 1 =
        .ok packet :=
    Packet.exists_create (length_zeros 8) (length_zeros 8) httl ⟨le_rfl, by decide⟩
      Nat.zero_lt_one (by rwa [length_randomBytes])
  obtain ⟨-, hpayload, -⟩ := Packet.create_ok_iff.mp hcreate
  have hlen : packet.payload.length = length := by rw [hpayload, length_randomBytes]
  obtain ⟨frame, hframe⟩ : ∃ frame, frameOf T.mtu node.mesh.padding packet = .ok frame :=
    exists_frame (by omega)
  have hframe' := length_frameOf hframe
  rw [hlen] at hframe'
  exact ⟨env, frame, ⟨length_zeros 8, length_zeros 8, length_zeros 8⟩,
    Except.ok.inj (hframe'.symm.trans hsize), sendCover_of_create hlength hcreate hframe⟩

end Node

/-! ## Runs of the loop -/

/-- The radio as the transport of a node. -/
def loraLink (mtu : ℕ) : Transport UInt8 RadioLink where
  mtu := mtu
  send := RadioLink.send

/-- A node whose cover loop went to sleep at `asleep`. -/
structure CoverRun (mtu : ℕ) (X E : Type) where
  node : Node (loraLink mtu) X E
  asleep : ℚ

inductive CoverEvent (mtu : ℕ) (X E : Type) where
  /-- The loop wakes up and sends, at `now`. -/
  | cover (draw : ℚ) (env : CoverEnv UInt8) (now later : ℚ) (write : Except (Exc UInt8) Unit)
  /-- Another task sends a frame. -/
  | other (frame : Bytes UInt8) (now later : ℚ) (write : Except (Exc UInt8) Unit)
  /-- Whatever else happens to the node. -/
  | elsewhere (node : Node (loraLink mtu) X E)

namespace CoverRun

variable {mtu : ℕ}

/-- The loop sleeps for its delay, and `send` waits for the lock. A mean of zero ends the loop. -/
def Admissible (cover : CoverConfig) (s : CoverRun mtu X E) : CoverEvent mtu X E → Prop
  | .cover draw env now later _ => cover.coverTraffic = true ∧ cover.coverIntervalMean ≠ 0 ∧
      0 ≤ draw ∧ env.Drawn ∧ s.asleep + max 0 (cover.delay draw) ≤ now ∧
      s.node.transport.ready ≤ now ∧ now ≤ later
  | .other _ now later _ => s.node.transport.ready ≤ now ∧ now ≤ later
  | .elsewhere node => node.mesh = s.node.mesh ∧ node.transport = s.node.transport

/-- The radio, for its next call. -/
def link (s : CoverRun mtu X E) (now later : ℚ) (write : Except (Exc UInt8) Unit) (cover : Bool) :
    RadioLink := { s.node.transport with now, later, write, cover }

/-- A turn that raises went back to sleep at once. -/
def step (s : CoverRun mtu X E) : CoverEvent mtu X E → CoverRun mtu X E
  | .cover _ env now later write =>
    match Node.sendCover env { s.node with transport := s.link now later write true } with
    | (.ok (), node) => { node, asleep := node.transport.ready }
    | (.error _, node) => { node, asleep := now }
  | .other frame now later write =>
    let transport := (RadioLink.send frame (s.link now later write false)).2
    { s with node := { s.node with transport } }
  | .elsewhere node => { s with node }

/-- In every window of the governor the cover frames take no more than this. -/
def Respects (window share : ℚ) (s : CoverRun mtu X E) : Prop :=
  ∀ t, spent window t s.node.transport.sent ≤ share

end CoverRun

/-- The airtimes of the cover frames that can be sent. -/
def coverAirtimes (cover : CoverConfig) (mesh : MeshConfig) (t : LoRaTransport) : Set ℚ :=
  {d | cover.coverIntervalMean ≠ 0 ∧ mesh.defaultTtl ≤ MAX_TTL ∧ ∃ length size, 40 ≤ length ∧
    paddedSize (β := UInt8) (HEADER_LEN + length) t.mtu mesh.padding = .ok size ∧
    (t.config.airtimeFor size : Except (Exc UInt8) ℚ) = .ok d ∧
    t.governor.dwellViolation d = false}

lemma coverAirtimes_subset {cover : CoverConfig} {mesh : MeshConfig} {t : LoRaTransport} :
    coverAirtimes cover mesh t ⊆ t.airtimes := by
  rintro d ⟨-, -, length, size, -, hsize, hd, hdwell⟩
  exact ⟨size, (le_paddedSize hsize).2, hd, hdwell⟩

namespace CoverRun

variable {config : RadioConfig} {driver : Driver} {t : LoRaTransport} {duty clock : ℚ}
  {cover : CoverConfig} {mesh : MeshConfig} {s : CoverRun t.mtu X E}

/-! ## What is booked -/

/-- What holds in every run on a radio that was started at `clock`. -/
structure Invariant (t : LoRaTransport) (duty clock : ℚ) (cover : CoverConfig) (mesh : MeshConfig)
    (s : CoverRun t.mtu X E) : Prop where
  mesh_eq : s.node.mesh = mesh
  link : s.node.transport.Invariant t duty clock (coverAirtimes cover mesh t)

namespace Invariant

lemma tuned (h : s.Invariant t duty clock cover mesh) (now later : ℚ)
    (write : Except (Exc UInt8) Unit) (flag : Bool) :
    (s.link now later write flag).Invariant t duty clock (coverAirtimes cover mesh t) :=
  ⟨h.link.settings, h.link.clock_le, h.link.booked, h.link.stopped, h.link.keeps⟩

/-- A call of `send` keeps the invariant of the radio, whatever it does. -/
lemma send (h : s.Invariant t duty clock cover mesh) (hduty : t.governor.dutyCycle = some duty)
    (hwindow : 0 ≤ t.governor.windowSeconds) {now later : ℚ} (hready : s.node.transport.ready ≤ now)
    (hlater : now ≤ later) (write : Except (Exc UInt8) Unit) {flag : Bool} {frame : Bytes UInt8}
    (hcover : flag = true → ∀ d, t.config.airtimeFor frame.length =
      (.ok d : Except (Exc UInt8) ℚ) → t.governor.dwellViolation d = false →
        d ∈ coverAirtimes cover mesh t) :
    (RadioLink.send frame (s.link now later write flag)).2.Invariant t duty clock
      (coverAirtimes cover mesh t) := by
  rcases hsend : RadioLink.send frame (s.link now later write flag) with ⟨err | ⟨⟩, link'⟩
  · exact ((h.tuned now later write flag).send_error hduty hready hsend).1
  · exact ((h.tuned now later write flag).send_ok hduty hwindow hready hlater hcover hsend).1

lemma step (h : s.Invariant t duty clock cover mesh) (hduty : t.governor.dutyCycle = some duty)
    (hwindow : 0 ≤ t.governor.windowSeconds) {e : CoverEvent t.mtu X E}
    (he : s.Admissible cover e) : (s.step e).Invariant t duty clock cover mesh := by
  cases e with
  | cover draw env now later write =>
    obtain ⟨-, hmean, -, -, -, hready, hlater⟩ := he
    have hmesh : (Node.sendCover env
        { s.node with transport := s.link now later write true }).2.mesh = mesh :=
      (Node.keeps_sendCover (f := Node.mesh) env (Node.keeps_mesh_emit .data) (fun _ _ => rfl)
        _).trans h.mesh_eq
    have hlink : (Node.sendCover env
        { s.node with transport := s.link now later write true }).2.transport.Invariant t duty clock
          (coverAirtimes cover mesh t) := by
      rcases Node.sendCover_cases env { s.node with transport := s.link now later write true } with
        ⟨err, -, htransport⟩ | ⟨length, frame, hmin, httl, hsize, hsend⟩
      · rw [htransport]
        exact h.tuned now later write true
      · have htransport := congrArg Prod.snd hsend
        simp only at htransport
        rw [htransport]
        simp only [h.mesh_eq] at httl hsize
        exact h.send hduty hwindow hready hlater write fun _ d hd hdwell =>
          ⟨hmean, httl, length, frame.length, hmin, hsize, hd, hdwell⟩
    rw [CoverRun.step]
    rcases hturn : Node.sendCover env { s.node with transport := s.link now later write true } with
      ⟨err | ⟨⟩, node⟩ <;> rw [hturn] at hmesh hlink
    · exact ⟨hmesh, hlink⟩
    · exact ⟨hmesh, hlink⟩
  | other frame now later write =>
    obtain ⟨hready, hlater⟩ := he
    refine ⟨h.mesh_eq, h.send hduty hwindow hready hlater write fun hflag => ?_⟩
    exact absurd hflag Bool.false_ne_true
  | elsewhere node =>
    obtain ⟨hmesh, htransport⟩ := he
    exact ⟨hmesh.trans h.mesh_eq, htransport ▸ h.link⟩

end Invariant

/-- A node on a radio that was started at `clock`, as its cover loop begins. -/
def start (node : Node (loraLink t.mtu) X E) (clock : ℚ) : CoverRun t.mtu X E where
  node := { node with transport := RadioLink.start t clock }
  asleep := clock

/-- The loop and the radio wait for nothing but the end of what is booked. -/
def Free (clock : ℚ) (s : CoverRun t.mtu X E) : Prop :=
  ∀ c, clock ≤ c → (∀ u ∈ s.node.transport.sent, u.stop ≤ c) →
    s.asleep ≤ c ∧ s.node.transport.ready ≤ c

/-- Whatever the budget admits, the loop and the other tasks can send. -/
lemma exists_step (h : s.Invariant t duty clock cover mesh) (hfree : s.Free clock)
    (hduty : t.governor.dutyCycle = some duty) (hwindow : 0 ≤ t.governor.windowSeconds)
    (hmtu : t.mtu ≤ 255) (hcover : cover.coverTraffic = true) {c : ℚ} {u : Use ℚ}
    (hc : clock ≤ c) (hstop : ∀ v ∈ s.node.transport.sent, v.stop ≤ c) (hstart : c ≤ u.start)
    (hany : u.duration ∈ t.airtimes)
    (hmarked : u.marked = true → u.duration ∈ coverAirtimes cover mesh t)
    (hbudget : total (fun v => c - t.governor.windowSeconds ≤ v.start) s.node.transport.sent +
      u.duration ≤ duty * t.governor.windowSeconds) :
    ∃ e, s.Admissible cover e ∧
      (s.step e).node.transport.sent = s.node.transport.sent ++ [u] ∧ (s.step e).Free clock := by
  obtain ⟨hasleep, hready⟩ := hfree c hc hstop
  obtain ⟨marked, start, duration⟩ := u
  -- the call of `send`, and what the loop is left with
  have hsend : ∀ frame : Bytes UInt8, frame.length ≤ t.mtu →
      (t.config.airtimeFor frame.length : Except (Exc UInt8) ℚ) = .ok duration →
      t.governor.dwellViolation duration = false →
      ∃ link', RadioLink.send frame (s.link c start (.ok ()) marked) = (.ok (), link') ∧
        link'.sent = s.node.transport.sent ++ [⟨marked, start, duration⟩] ∧
        link'.ready = (⟨marked, start, duration⟩ : Use ℚ).stop := by
    intro frame hframe hd hdwell
    have htuned := h.tuned c start (.ok ()) marked
    obtain ⟨link', hlink'⟩ := htuned.send_of_fits hduty hready rfl hframe hd hdwell hbudget
    obtain ⟨-, d, hd', hsent, hready'⟩ := htuned.send_ok hduty hwindow hready hstart
      (fun hflag d hd' _ => Except.ok.inj (hd.symm.trans hd') ▸ hmarked hflag) hlink'
    obtain rfl := Except.ok.inj (hd.symm.trans hd')
    exact ⟨link', hlink', hsent, hready'⟩
  have hlast : ∀ {l : List (Use ℚ)} {u : Use ℚ} {c : ℚ}, (∀ v ∈ l ++ [u], v.stop ≤ c) →
      u.stop ≤ c := fun hall => hall _ (List.mem_append_right _ (List.mem_singleton_self _))
  cases marked with
  | true =>
    obtain ⟨hmean, httl, length, size, hmin, hsize, hd, hdwell⟩ := hmarked rfl
    have hle := (le_paddedSize hsize).2
    have hle' := (le_paddedSize hsize).1
    rw [← h.mesh_eq] at httl hsize
    obtain ⟨env, frame, henv, hframe, hturn⟩ : ∃ (env : CoverEnv UInt8) (frame : Bytes UInt8),
        env.Drawn ∧ frame.length = size ∧
        ((Node.sendCover env { s.node with transport := s.link c start (.ok ()) true }).1,
          (Node.sendCover env { s.node with
            transport := s.link c start (.ok ()) true }).2.transport) =
          RadioLink.send frame (s.link c start (.ok ()) true) :=
      Node.exists_sendCover hmin (by omega) httl hsize
    obtain ⟨link', hlink', hsent, hready'⟩ := hsend frame (by omega) (hframe ▸ hd) hdwell
    refine ⟨.cover 0 env c start (.ok ()), ⟨hcover, hmean, le_rfl, henv, ?_, hready, hstart⟩, ?_⟩
    · rw [CoverConfig.delay, zero_div, max_self, add_zero]
      exact hasleep
    · rcases hnode : Node.sendCover env { s.node with
        transport := s.link c start (.ok ()) true } with ⟨err | ⟨⟩, node⟩
      · rw [hnode, hlink'] at hturn
        cases (Prod.mk.inj hturn).1
      · rw [hnode, hlink'] at hturn
        obtain rfl : node.transport = link' := (Prod.mk.inj hturn).2
        rw [step, hnode]
        refine ⟨hsent, fun c' _ hall => ?_⟩
        rw [hsent] at hall
        exact ⟨hready'.trans_le (hlast hall), hready'.trans_le (hlast hall)⟩
  | false =>
    obtain ⟨length, hlength, hd, hdwell⟩ := hany
    obtain ⟨link', hlink', hsent, hready'⟩ := hsend (zeros length) (by rwa [length_zeros])
      (by rwa [length_zeros]) hdwell
    refine ⟨.other (zeros length) c start (.ok ()), ⟨hready, hstart⟩, ?_⟩
    rw [step, hlink']
    refine ⟨hsent, fun c' _ hall => ?_⟩
    rw [hsent] at hall
    have hafter : start ≤ c' := (le_add_of_nonneg_right (le_max_left 0 duration)).trans (hlast hall)
    exact ⟨hasleep.trans (hstart.trans hafter), hready'.trans_le (hlast hall)⟩

lemma Invariant.start (hevents : t.governor.events = []) (duty clock : ℚ) (cover : CoverConfig)
    (node : Node (loraLink t.mtu) X E) :
    (start node clock).Invariant t duty clock cover node.mesh :=
  ⟨rfl, RadioLink.Invariant.start hevents duty clock _⟩

/-- What the runs of the loop book is what the governor admits. -/
theorem exists_run_iff (hinit : LoRaTransport.init config driver true = .ok t)
    (hduty : t.governor.dutyCycle = some duty) (hcover : cover.coverTraffic = true)
    (node : Node (loraLink t.mtu) X E) {l : List (Use ℚ)} :
    (∃ s, Reaches (Admissible cover) step (start node clock) s ∧ s.node.transport.sent = l) ↔
      Booked t.governor.windowSeconds (duty * t.governor.windowSeconds) clock
        (coverAirtimes cover node.mesh t) t.airtimes l := by
  obtain ⟨-, ⟨-, -, hwindow⟩, hmtu, hevents, -⟩ := LoRaTransport.init_ok hinit
  have hwindow' : 0 ≤ t.governor.windowSeconds := by
    rw [hwindow]
    norm_num
  have hrun : ∀ {s}, Reaches (Admissible cover) step (start node clock) s →
      s.Invariant t duty clock cover node.mesh := fun hs =>
    hs.invariant (.start hevents duty clock cover node) fun u e hu he => hu.step hduty hwindow' he
  constructor
  · rintro ⟨s, hs, rfl⟩
    exact (hrun hs).link.booked
  · intro h
    suffices hfree : ∃ s, Reaches (Admissible cover) step (start node clock) s ∧
        s.node.transport.sent = l ∧ s.Free clock by
      obtain ⟨s, hs, hsent, -⟩ := hfree
      exact ⟨s, hs, hsent⟩
    induction h with
    | nil => exact ⟨_, .refl _, rfl, fun c hc _ => ⟨hc, hc⟩⟩
    | @snoc l c u hl hc hstop hstart hany hmarked hbudget ih =>
      obtain ⟨s, hs, rfl, hfree⟩ := ih
      obtain ⟨e, he, hsent, hfree'⟩ := exists_step (hrun hs) hfree hduty hwindow' hmtu hcover hc
        hstop hstart hany hmarked hbudget
      exact ⟨s.step e, hs.tail he, hsent, hfree'⟩

/-! ## Frames of one size -/

/-- With a preamble that is a number of symbols, every frame takes time. -/
lemma airtimes_pos (hinit : LoRaTransport.init config driver true = .ok t)
    (hpreamble : 0 ≤ config.preambleSymbols) {d : ℚ} (hd : d ∈ t.airtimes) : 0 < d := by
  obtain ⟨hvalid, ⟨rfl, -, -⟩, -⟩ := LoRaTransport.init_ok hinit
  obtain ⟨-, hbw, -⟩ := RadioConfig.validate_ok hvalid
  obtain ⟨length, -, hd, -⟩ := hd
  rw [RadioConfig.airtimeFor_eq hvalid, Except.ok.injEq] at hd
  have hpreamble' : (0 : ℚ) ≤ t.config.preambleSymbols := Int.cast_nonneg hpreamble
  have hpayload : (0 : ℚ) ≤ t.config.payloadSymbols length :=
    Int.cast_nonneg (le_max_right _ _)
  have hsymbol : (0 : ℚ) < 2 ^ t.config.spreadingFactor / t.config.bandwidthHz :=
    div_pos (by positivity) (Nat.cast_pos.mpr hbw)
  rw [← hd]
  exact mul_pos (by linarith) hsymbol

/-- Frames that are padded to the MTU all take as long. -/
lemma coverAirtimes_strict {mesh : MeshConfig} (hstrict : mesh.padding = .strict) {d : ℚ}
    (hd : d ∈ coverAirtimes cover mesh t) : coverAirtimes cover mesh t = {d} := by
  have hunique : ∀ e ∈ coverAirtimes cover mesh t,
      (t.config.airtimeFor t.mtu : Except (Exc UInt8) ℚ) = .ok e := by
    rintro e ⟨-, -, length, size, -, hsize, he, -⟩
    simp only [paddedSize, hstrict] at hsize
    split_ifs at hsize
    obtain rfl := Except.ok.inj hsize
    exact he
  refine Set.eq_singleton_iff_unique_mem.mpr ⟨hd, fun e he => ?_⟩
  exact Except.ok.inj ((hunique e he).symm.trans (hunique d hd))

/-- Under the strict padding policy the limit is kept if as many cover frames as the budget allows
are within the fraction. -/
theorem fitsShare_strict (hinit : LoRaTransport.init config driver true = .ok t)
    (hduty : t.governor.dutyCycle = some duty) (hpreamble : 0 ≤ config.preambleSymbols)
    (hstrict : mesh.padding = .strict) {d share : ℚ} (hd : d ∈ coverAirtimes cover mesh t) :
    FitsShare t.governor.windowSeconds (duty * t.governor.windowSeconds) share
        (coverAirtimes cover mesh t) t.airtimes ↔
      ⌊duty * t.governor.windowSeconds / d⌋₊ * d ≤ share := by
  obtain ⟨-, ⟨-, -, hwindow⟩, -, -, hrange⟩ := LoRaTransport.init_ok hinit
  obtain ⟨hnonneg, hle⟩ := hrange duty hduty
  have hwindow' : 0 ≤ t.governor.windowSeconds := by
    rw [hwindow]
    norm_num
  rw [coverAirtimes_strict hstrict hd]
  exact fitsShare_iff_floor (fun _ => airtimes_pos hinit hpreamble) (coverAirtimes_subset hd)
    (mul_le_of_le_one_left hwindow' hle) (mul_nonneg hnonneg hwindow')

/-! ## The share -/

/-- With cover traffic on a radio whose duty cycle is limited, for every configuration and whatever
the delays are: in every run the cover frames of every window keep to the configured fraction of the
budget exactly when all cover frames that fit the window and the budget, fit that fraction. -/
theorem respects_iff (hinit : LoRaTransport.init config driver true = .ok t)
    (hduty : t.governor.dutyCycle = some duty) (hcover : cover.coverTraffic = true)
    (node : Node (loraLink t.mtu) X E) (clock : ℚ) :
    (∀ s, Reaches (Admissible cover) step (start node clock) s → s.Respects
      t.governor.windowSeconds
      (cover.coverMaxDutyFraction * (duty * t.governor.windowSeconds))) ↔
      FitsShare t.governor.windowSeconds (duty * t.governor.windowSeconds)
        (cover.coverMaxDutyFraction * (duty * t.governor.windowSeconds))
        (coverAirtimes cover node.mesh t) t.airtimes := by
  obtain ⟨-, ⟨-, -, hwindow⟩, -, -, hrange⟩ := LoRaTransport.init_ok hinit
  have hwindow' : 0 ≤ t.governor.windowSeconds := by
    rw [hwindow]
    norm_num
  rw [← fitsShare_iff clock hwindow' (mul_nonneg (hrange duty hduty).1 hwindow')
    coverAirtimes_subset]
  constructor
  · intro h l hl
    obtain ⟨s, hs, rfl⟩ := (exists_run_iff hinit hduty hcover node).mpr hl
    exact h s hs
  · intro h s hs
    exact h _ ((exists_run_iff hinit hduty hcover node).mp ⟨s, hs, rfl⟩)

/-- The default configuration with a SLIP radio. -/
def slipRadio : LoRaTransport where
  config := {}
  driver := .slip
  governor := { dutyCycle := some (1 / 100) }
  mtu := 200

def slipNode : Node (loraLink slipRadio.mtu) ℕ ℕ where
  transport := .start slipRadio 0
  sessions := { identity := { signingPrivate := 1, staticPrivate := 2 }, trust := .empty none }
  capacity := 177
  capacity_eq := rfl

/-- A full frame takes a second. -/
lemma airtime_slipRadio {cover : CoverConfig} (hmean : cover.coverIntervalMean ≠ 0) :
    15696 / 15625 ∈ coverAirtimes cover slipNode.mesh slipRadio :=
  ⟨hmean, by decide, 40, 200, le_rfl, rfl, by decide +kernel, rfl⟩

lemma init_slipRadio : LoRaTransport.init {} .slip true = .ok slipRadio := rfl

/-- 35 cover frames fit the budget of 36 seconds, and 98 % of it. -/
theorem respects_iff_slip :
    LoRaTransport.init {} .slip true = .ok slipRadio ∧
      ∀ s, Reaches (Admissible { coverTraffic := true, coverMaxDutyFraction := 49 / 50 }) step
        (start slipNode 0) s → s.Respects 3600 (49 / 50 * (1 / 100 * 3600)) := by
  refine ⟨init_slipRadio, (respects_iff init_slipRadio rfl rfl slipNode 0).mpr ?_⟩
  refine (fitsShare_strict init_slipRadio rfl (by decide) rfl
    (airtime_slipRadio (by norm_num))).mpr ?_
  have hfloor : ⌊(1 / 100 : ℚ) * 3600 / (15696 / 15625)⌋₊ = 35 := by
    rw [Nat.floor_eq_iff (by norm_num)]
    constructor <;> norm_num
  show (⌊(1 / 100 : ℚ) * 3600 / (15696 / 15625)⌋₊ : ℚ) * (15696 / 15625) ≤
    49 / 50 * (1 / 100 * 3600)
  rw [hfloor]
  norm_num

/-- On the defaults, nine cover frames with delays of zero are more than a quarter of the budget. -/
theorem cover_exceeds_share :
    LoRaTransport.init {} .slip true = .ok slipRadio ∧
      ∃ s, Reaches (Admissible { coverTraffic := true }) step (start slipNode 0) s ∧
        ¬ s.Respects 3600 (1 / 4 * (1 / 100 * 3600)) := by
  refine ⟨init_slipRadio, ?_⟩
  have hairtime : 15696 / 15625 ∈ coverAirtimes { coverTraffic := true } slipNode.mesh slipRadio :=
    airtime_slipRadio (by norm_num)
  obtain ⟨l, hl, hspent, -⟩ : ∃ l, Booked 3600 (1 / 100 * 3600) 0
      (coverAirtimes { coverTraffic := true } slipNode.mesh slipRadio) slipRadio.airtimes l ∧
      spent 3600 0 l = (List.replicate 9 (15696 / 15625)).sum ∧ _ := by
    refine Booked.exists_spent (by norm_num) coverAirtimes_subset (fun d hd => ?_)
      (fun e he => absurd he List.not_mem_nil) (by norm_num) (by norm_num)
    rw [List.eq_of_mem_replicate hd]
    exact ⟨hairtime, by norm_num⟩
  obtain ⟨s, hs, rfl⟩ := (exists_run_iff init_slipRadio rfl rfl slipNode).mpr hl
  refine ⟨s, hs, fun hrespects => ?_⟩
  have hle := hrespects 0
  rw [hspent] at hle
  norm_num at hle

end CoverRun

end Chatbit
