import Mathlib.Algebra.Order.BigOperators.Group.List
import Chatbit.Lib.Runs
import Chatbit.Radio.LoRaTheorems

/-!
# What the governor is told

`send` checks and records the airtime of the frame. A SLIP radio transmits the frame, a RYLR module
the hex digits that stand for it, which are twice as many bytes. So the governor accounts for what
is sent with the one driver and, except for a few very short frames, not with the other.
-/

namespace Chatbit

open Lib

/-- A call that returned: the governor before and after, and what the radio then transmits. -/
structure Transmission where
  now : ℚ
  later : ℚ
  before : DutyCycleGovernor
  after : DutyCycleGovernor
  frame : Bytes UInt8
  onAir : Bytes UInt8

namespace Transmission

/-- What the call recorded. -/
def recorded (x : Transmission) : ℚ := (x.after.events.getLast?.map Prod.snd).getD 0

/-- How long the radio transmits. -/
def airtime (config : RadioConfig) (x : Transmission) : ℚ :=
  match (config.airtimeFor x.onAir.length : Except (Exc UInt8) ℚ) with
  | .ok d => d
  | .error _ => 0

end Transmission

structure SendRun where
  transport : LoRaTransport
  transmissions : List Transmission := []

inductive SendEvent where
  | start
  | stop
  | send (frame : Bytes UInt8) (now later : ℚ) (write : Except (Exc UInt8) Unit)

namespace SendRun

def afterSend (s : SendRun) (frame : Bytes UInt8) (now later : ℚ)
    (write : Except (Exc UInt8) Unit) : SendRun :=
  let (result, transport) := s.transport.send frame now later write
  { transport
    transmissions := match result with
      | .ok () => s.transmissions ++
          [⟨now, later, s.transport.governor, transport.governor, frame,
            transport.driver.transmits ((transport.serial.getD []).getLastD [])⟩]
      | .error _ => s.transmissions }

def step (s : SendRun) : SendEvent → SendRun
  | .start => { s with transport := s.transport.start }
  | .stop => { s with transport := s.transport.stop }
  | .send frame now later write => s.afterSend frame now later write

/-- The total of a quantity over the transmissions that were recorded in a window. -/
def total (w t : ℚ) (f : Transmission → ℚ) (s : SendRun) : ℚ :=
  ((s.transmissions.filter fun x => t ≤ x.later ∧ x.later ≤ t + w).map f).sum

/-- Each transmission was checked and recorded with the airtime of what the radio transmits, and no
window has less recorded than was transmitted. -/
def Accounted (config : RadioConfig) (s : SendRun) : Prop :=
  (∀ x ∈ s.transmissions, x.before.Charges (x.airtime config) x.now x.later x.after) ∧
    ∀ w t, s.total w t (Transmission.airtime config) ≤ s.total w t Transmission.recorded

/-- What holds of the transmissions of a transport. -/
structure Invariant (config : RadioConfig) (driver : Driver) (s : SendRun) : Prop where
  transport : s.transport.config = config ∧ s.transport.driver = driver ∧
    s.transport.governor.windowSeconds = 3600
  charged : ∀ x ∈ s.transmissions, x.before.windowSeconds = 3600 ∧
    x.onAir.length = driver.bytesOnAir x.frame.length ∧
    ∃ d, (config.airtimeFor x.frame.length : Except (Exc UInt8) ℚ) = .ok d ∧
      x.before.Charges d x.now x.later x.after

variable {config : RadioConfig} {driver : Driver} {s : SendRun}

lemma Invariant.afterSend (h : s.Invariant config driver) (frame : Bytes UInt8) (now later : ℚ)
    (write : Except (Exc UInt8) Unit) :
    (s.afterSend frame now later write).Invariant config driver := by
  obtain ⟨rfl, rfl, hwindow⟩ := h.transport
  have hkeeps := LoRaTransport.keeps_send
    (f := fun t => (t.config, t.driver, t.governor.windowSeconds)) (fun _ _ => rfl)
    (fun _ _ => rfl) (fun _ _ => rfl) frame now later write s.transport
  simp only [Prod.mk.injEq] at hkeeps
  rcases hsend : s.transport.send frame now later write with ⟨err | _, transport⟩
  · rw [hsend] at hkeeps
    rw [SendRun.afterSend, hsend]
    exact ⟨⟨hkeeps.1, hkeeps.2.1, hkeeps.2.2.trans hwindow⟩, h.charged⟩
  · rw [hsend] at hkeeps
    rw [SendRun.afterSend, hsend]
    refine ⟨⟨hkeeps.1, hkeeps.2.1, hkeeps.2.2.trans hwindow⟩, fun x hx => ?_⟩
    rcases List.mem_append.mp hx with hx | hx
    · exact h.charged x hx
    · obtain ⟨written, d, -, -, hairtime, hcharges, htransport⟩ := LoRaTransport.send_ok hsend
      rw [List.mem_singleton.mp hx]
      refine ⟨hwindow, ?_, d, hairtime, hcharges⟩
      rw [htransport]
      simp only [Option.getD_some, List.getLastD_concat]
      exact length_transmits _ _

lemma Invariant.step (h : s.Invariant config driver) (event : SendEvent) :
    (s.step event).Invariant config driver := by
  cases event with
  | start => exact ⟨h.transport, h.charged⟩
  | stop => exact ⟨h.transport, h.charged⟩
  | send frame now later write => exact h.afterSend frame now later write

/-- What a call recorded is at most how long the radio transmits, and is that exactly when the
driver sends as many symbols as were charged. -/
lemma Invariant.recorded (h : s.Invariant config driver) (hvalid : config.validate = .ok ())
    {x : Transmission} (hx : x ∈ s.transmissions) :
    x.before.Charges x.recorded x.now x.later x.after ∧
      (x.airtime config = x.recorded ↔ driver = .slip ∨ config.DoublesFree x.frame.length) := by
  obtain ⟨hwindow, hlen, d, hd, hcharges⟩ := h.charged x hx
  have hrecorded : x.recorded = d := by
    rw [Transmission.recorded, hcharges.getLast? (by rw [hwindow]; norm_num)]
    rfl
  refine ⟨hrecorded ▸ hcharges, ?_⟩
  have honAir : (config.airtimeFor x.onAir.length : Except (Exc UInt8) ℚ) =
      .ok (x.airtime config) := by
    rw [Transmission.airtime, RadioConfig.airtimeFor_eq hvalid]
  rw [hrecorded]
  cases driver with
  | slip =>
    refine iff_of_true ?_ (Or.inl rfl)
    rw [hlen] at honAir
    exact Except.ok.inj (honAir.symm.trans hd)
  | rylr =>
    have hle : x.frame.length ≤ x.onAir.length := by
      rw [hlen]
      exact Nat.le_mul_of_pos_left _ (by decide)
    rw [(RadioConfig.airtimeFor_le hvalid hd honAir hle).2, hlen]
    rw [show Driver.rylr.bytesOnAir x.frame.length = 2 * x.frame.length from rfl,
      RadioConfig.payloadSymbols_double hvalid]
    exact ⟨Or.inr, fun h => h.resolve_left (by decide)⟩

/-- A transport that has been built. -/
lemma invariant_init {enforceDutyCycle : Bool} {transport : LoRaTransport}
    (hinit : LoRaTransport.init config driver enforceDutyCycle = .ok transport) :
    config.validate = .ok () ∧ Invariant config driver { transport } := by
  obtain ⟨hvalid, htransport, -⟩ := LoRaTransport.init_ok hinit
  exact ⟨hvalid, ⟨htransport, fun x hx => (nomatch hx)⟩⟩

/-- In every run of a transport, for either driver and every valid configuration, the governor
accounts for what is really sent exactly when each frame goes to a SLIP radio, or its hex digits
take no more symbols than the frame itself. -/
theorem accounted_iff {enforceDutyCycle : Bool} {transport : LoRaTransport}
    (hinit : LoRaTransport.init config driver enforceDutyCycle = .ok transport)
    (hs : Reaches (fun _ _ => True) step { transport } s) :
    s.Accounted config ↔
      ∀ x ∈ s.transmissions, driver = .slip ∨ config.DoublesFree x.frame.length := by
  obtain ⟨hvalid, hstart⟩ := invariant_init hinit
  have hinv : s.Invariant config driver :=
    hs.invariant hstart fun _ event hu _ => hu.step event
  constructor
  · rintro ⟨hcharges, -⟩ x hx
    obtain ⟨hrecorded, hiff⟩ := hinv.recorded hvalid hx
    have hwindow : 0 ≤ x.before.windowSeconds := by
      rw [(hinv.charged x hx).1]
      norm_num
    exact hiff.mp ((hcharges x hx).unique hrecorded hwindow)
  · intro hfree
    have heq : ∀ x ∈ s.transmissions, x.airtime config = x.recorded :=
      fun x hx => (hinv.recorded hvalid hx).2.mpr (hfree x hx)
    refine ⟨fun x hx => heq x hx ▸ (hinv.recorded hvalid hx).1, fun w t => ?_⟩
    exact List.sum_le_sum fun x hx => (heq x (List.mem_of_mem_filter hx)).le

/-- The default configuration with a SLIP radio and the transmission of a full frame, and with a RYLR
module and that of one byte, whose two digits take no more symbols. -/
theorem accounted_iff_drivers :
    (∃ transport s, LoRaTransport.init {} .slip true = .ok transport ∧
      s = [.start, .send (zeros 200) 0 0 (.ok ())].foldl step { transport } ∧
      s.transmissions.length = 1 ∧ s.Accounted {}) ∧
    ∃ transport s, LoRaTransport.init {} .rylr true = .ok transport ∧
      s = [.start, .send (zeros 1) 0 0 (.ok ())].foldl step { transport } ∧
      s.transmissions.length = 1 ∧ s.Accounted {} := by
  have hslip : LoRaTransport.init {} .slip true = .ok _ := rfl
  have hrylr : LoRaTransport.init {} .rylr true = .ok _ := rfl
  constructor
  · refine ⟨_, _, rfl, rfl, by decide +kernel, ?_⟩
    refine (accounted_iff hslip ((Reaches.refl _).foldl fun _ _ _ => trivial)).mpr ?_
    exact fun _ _ => Or.inl rfl
  · refine ⟨_, _, rfl, rfl, by decide +kernel, ?_⟩
    refine (accounted_iff hrylr ((Reaches.refl _).foldl fun _ _ _ => trivial)).mpr ?_
    decide +kernel

/-- A RYLR module on the default configuration, and the transmission of a frame of 100 bytes. -/
def rylrHundred : SendRun :=
  [.start, .send (zeros 100) 0 0 (.ok ())].foldl step
    { transport := {
        config := {}, driver := .rylr, governor := { dutyCycle := some (1 / 100) }, mtu := 120 } }

/-- The frame is recorded with 554 ms, and the module transmits for a second. -/
theorem rylr_undercharged :
    ∃ transport, LoRaTransport.init {} .rylr true = .ok transport ∧
      Reaches (fun _ _ => True) step { transport } rylrHundred ∧
      rylrHundred.total 3600 0 Transmission.recorded = 8656 / 15625 ∧
      rylrHundred.total 3600 0 (Transmission.airtime {}) = 15696 / 15625 ∧
      ¬ rylrHundred.Accounted {} := by
  have hrecorded : rylrHundred.total 3600 0 Transmission.recorded = 8656 / 15625 := by
    decide +kernel
  have hairtime : rylrHundred.total 3600 0 (Transmission.airtime {}) = 15696 / 15625 := by
    decide +kernel
  refine ⟨_, rfl, (Reaches.refl _).foldl fun _ _ _ => trivial, hrecorded, hairtime, fun h => ?_⟩
  have hle := h.2 3600 0
  rw [hrecorded, hairtime] at hle
  norm_num at hle

end SendRun

end Chatbit
