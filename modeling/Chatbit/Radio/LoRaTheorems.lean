import Chatbit.Radio.AirtimeTheorems
import Chatbit.Radio.Slip

/-!
# The transmit path

The airtime of a payload as a number of symbols, what a radio transmits for what is written to its
port, and what a `send` call that returns has done.
-/

namespace Chatbit

open Lib

/-! ## Time on air -/

namespace RadioConfig

variable {config : RadioConfig} {n m : ℕ}

/-- The symbols of a payload beyond the first eight. -/
def payloadSymbols (n : ℕ) (config : RadioConfig) : ℤ :=
  Airtime.payloadSymbols n config.spreadingFactor config.bandwidthHz config.codingRate

/-- The airtime of a valid configuration. -/
lemma airtimeFor_eq {β : Type} (hvalid : config.validate = .ok ()) (n : ℕ) :
    (config.airtimeFor n : Except (Exc β) ℚ) =
      .ok ((config.preambleSymbols + 17 / 4 + 8 + config.payloadSymbols n) *
        (2 ^ config.spreadingFactor / config.bandwidthHz)) := by
  obtain ⟨hsf, hbw, hcr⟩ := validate_ok hvalid
  rw [airtimeFor, Airtime.timeOnAir_eq hsf hbw hcr, payloadSymbols]

/-- Doubling a length of `n` bytes adds no symbol to the payload. -/
def DoublesFree (n : ℕ) (config : RadioConfig) : Prop :=
  n = 0 ∨ (8 * n + 43 - 4 * config.spreadingFactor) /
      Airtime.divisor config.spreadingFactor config.bandwidthHz =
    (16 * n + 43 - 4 * config.spreadingFactor) /
      Airtime.divisor config.spreadingFactor config.bandwidthHz

instance : Decidable (config.DoublesFree n) := inferInstanceAs (Decidable (_ ∨ _))

/-- The symbols of a payload that is not empty, in natural numbers. -/
lemma payloadSymbols_of_pos (hvalid : config.validate = .ok ()) (hn : 0 < n) :
    config.payloadSymbols n = ((8 * n + 43 - 4 * config.spreadingFactor) /
      Airtime.divisor config.spreadingFactor config.bandwidthHz + 1 : ℕ) * config.codingRate := by
  obtain ⟨hsf, -, -⟩ := validate_ok hvalid
  have hqpos : 0 < Airtime.divisor config.spreadingFactor config.bandwidthHz :=
    (Nat.zero_lt_succ 15).trans_le (Airtime.divisor_pos hsf.1 config.bandwidthHz)
  unfold payloadSymbols Airtime.payloadSymbols Airtime.numerator
  rw [Rat.ceil_intCast_div_natCast]
  set q := Airtime.divisor config.spreadingFactor config.bandwidthHz
  obtain ⟨k, hk⟩ : ∃ k : ℕ, 8 * n + 43 - 4 * config.spreadingFactor = k := ⟨_, rfl⟩
  have hnum : -(8 * (n : ℤ) - 4 * config.spreadingFactor + 44) = -((k : ℤ) + 1) := by omega
  have hceil : -(-((k : ℤ) + 1) / (q : ℤ)) = (k / q : ℕ) + 1 := by
    have hdiv : (q : ℤ) * (k / q : ℕ) + (k % q : ℕ) = k := by exact_mod_cast Nat.div_add_mod k q
    have hmod : ((k % q : ℕ) : ℤ) < q := by exact_mod_cast Nat.mod_lt k hqpos
    have hmod' : (0 : ℤ) ≤ (k % q : ℕ) := Int.natCast_nonneg _
    have hfloor : -((k : ℤ) + 1) / (q : ℤ) = -((k / q : ℕ) + 1 : ℤ) := by
      rw [Int.ediv_eq_iff_of_pos (by exact_mod_cast hqpos)]
      constructor <;> linarith
    rw [hfloor, neg_neg]
  rw [hnum, hceil, hk]
  push_cast
  exact max_eq_left (by positivity)

lemma payloadSymbols_mono (hvalid : config.validate = .ok ()) (h : n ≤ m) :
    config.payloadSymbols n ≤ config.payloadSymbols m := by
  obtain ⟨hsf, -, -⟩ := validate_ok hvalid
  rw [payloadSymbols, payloadSymbols, Airtime.payloadSymbols_eq, Airtime.payloadSymbols_eq]
  exact mul_le_mul_of_nonneg_right (Airtime.codewords_mono hsf.1 _ h) (Int.natCast_nonneg _)

lemma payloadSymbols_double (hvalid : config.validate = .ok ()) :
    config.payloadSymbols (2 * n) = config.payloadSymbols n ↔ config.DoublesFree n := by
  obtain ⟨-, -, hcr⟩ := validate_ok hvalid
  rcases Nat.eq_zero_or_pos n with rfl | hn
  · exact iff_of_true rfl (Or.inl rfl)
  · rw [payloadSymbols_of_pos hvalid hn, payloadSymbols_of_pos hvalid (by omega)]
    have hcr' : (config.codingRate : ℤ) ≠ 0 := by omega
    rw [mul_left_inj' hcr', Nat.cast_inj, Nat.add_right_cancel_iff, eq_comm, ← mul_assoc]
    exact ⟨Or.inr, fun h => h.resolve_left hn.ne'⟩

/-- A longer payload takes longer, unless it has as many symbols. -/
lemma airtimeFor_le {β : Type} (hvalid : config.validate = .ok ()) {d d' : ℚ}
    (hn : (config.airtimeFor n : Except (Exc β) ℚ) = .ok d)
    (hm : (config.airtimeFor m : Except (Exc β) ℚ) = .ok d') (h : n ≤ m) :
    d ≤ d' ∧ (d' = d ↔ config.payloadSymbols m = config.payloadSymbols n) := by
  obtain ⟨-, hbw, -⟩ := validate_ok hvalid
  have hsymbol : (0 : ℚ) < 2 ^ config.spreadingFactor / config.bandwidthHz :=
    div_pos (by positivity) (Nat.cast_pos.mpr hbw)
  rw [airtimeFor_eq hvalid, Except.ok.injEq] at hn hm
  obtain rfl := hn
  obtain rfl := hm
  constructor
  · refine mul_le_mul_of_nonneg_right ?_ hsymbol.le
    exact add_le_add_right (Int.cast_le.mpr (payloadSymbols_mono hvalid h)) _
  · rw [mul_left_inj' hsymbol.ne', add_right_inj, Int.cast_inj]

end RadioConfig

/-! ## What the radio transmits -/

/-- What follows the first comma. -/
def afterComma (line : Bytes UInt8) : Bytes UInt8 := (line.dropWhile fun c => c ≠ 44).drop 1

/-- What the radio transmits for what is written to its port: a RYLR module the payload of
`AT+SEND`, SLIP firmware the frame without its escapes. -/
def Driver.transmits (written : Bytes UInt8) : Driver → Bytes UInt8
  | .rylr => (afterComma (afterComma written)).dropLast.dropLast
  | .slip => (SlipCodec.feed written {}).2.headD []

lemma afterComma_append {l : Bytes UInt8} (h : 44 ∉ l) (r : Bytes UInt8) :
    afterComma (l ++ 44 :: r) = r := by
  have hall : ∀ c ∈ l, decide (c ≠ 44) = true := fun c hc => decide_eq_true fun heq => h (heq ▸ hc)
  rw [afterComma, List.dropWhile_append_of_pos hall]
  rfl

/-- A number is written without a comma. -/
lemma comma_not_mem_digits (n : ℕ) : (44 : UInt8) ∉ (ascii (toString n) : Bytes UInt8) := by
  intro hmem
  obtain ⟨c, hc, hcomma⟩ := List.mem_map.mp hmem
  have hdigits : c ∈ Nat.toDigits 10 n := by simpa using hc
  have hdigit := Nat.isDigit_of_mem_toDigits (b := 10) (by decide) (by decide) hdigits
  obtain ⟨hlow, hhigh⟩ := Char.isDigit_iff_toNat.mp hdigit
  have hlow' : 48 ≤ c.toNat := hlow
  have hhigh' : c.toNat ≤ 57 := hhigh
  have hnat : c.toNat % 256 = 44 := by
    have := congrArg UInt8.toNat hcomma
    simpa [ofOctet] using this
  omega

lemma length_hexUpper (frame : Bytes UInt8) : (hexUpper frame).length = 2 * frame.length := by
  simp [hexUpper, List.length_flatMap, Nat.mul_comm]

/-- The module gets the hex digits of the frame. -/
lemma transmits_rylr (frame : Bytes UInt8) :
    Driver.rylr.transmits (Driver.rylr.command frame) = hexUpper frame := by
  have hcommand : Driver.rylr.command frame = (ascii "AT+SEND=0" : Bytes UInt8) ++
      44 :: (ascii (toString (hexUpper frame).length) ++ 44 :: (hexUpper frame ++ [13, 10])) := by
    have hhead : (ascii "AT+SEND=0," : Bytes UInt8) = ascii "AT+SEND=0" ++ [44] := by decide
    simp only [Driver.command, ascii, toString, String.toList_append, List.map_append] at hhead ⊢
    rw [hhead]
    simp
    exact ⟨rfl, rfl, rfl⟩
  have hname : (44 : UInt8) ∉ (ascii "AT+SEND=0" : Bytes UInt8) := by decide
  change (afterComma (afterComma (Driver.rylr.command frame))).dropLast.dropLast = _
  rw [hcommand, afterComma_append hname, afterComma_append (comma_not_mem_digits _)]
  simp

/-- The firmware gets the frame itself. -/
lemma transmits_slip (frame : Bytes UInt8) :
    Driver.slip.transmits (Driver.slip.command frame) = frame := by
  change (SlipCodec.feed (SlipCodec.encode frame) {}).2.headD [] = frame
  rw [SlipCodec.feed_encode]
  cases frame with
  | nil => rfl
  | cons byte frame => rfl

/-- The radio transmits this many bytes for a frame of `n`. -/
def Driver.bytesOnAir (n : ℕ) : Driver → ℕ
  | .rylr => 2 * n
  | .slip => n

lemma length_transmits (driver : Driver) (frame : Bytes UInt8) :
    (driver.transmits (driver.command frame)).length = driver.bytesOnAir frame.length := by
  cases driver with
  | rylr => rw [transmits_rylr, length_hexUpper]; rfl
  | slip => rw [transmits_slip]; rfl

/-! ## One call -/

namespace DutyCycleGovernor

variable {g g' : DutyCycleGovernor} {d d' now later : ℚ}

/-- A check at `now` and a record at `later`, both of an airtime `d`, turn `g` into `g'`. -/
def Charges (d now later : ℚ) (g g' : DutyCycleGovernor) : Prop :=
  ∃ mid, check (β := UInt8) d now g = (.ok (), mid) ∧
    record (β := UInt8) d later mid = (.ok (), g')

/-- A check changes no more than the events. -/
lemma keeps_check {ρ : Type} {f : DutyCycleGovernor → ρ}
    (hevents : ∀ events g, f { g with events := events } = f g) (d now : ℚ) :
    Method.Keeps f (check d now : Method (Exc UInt8) DutyCycleGovernor Unit) := by
  refine Method.Keeps.bind (Method.Keeps.self _) fun g => ?_
  split_ifs
  · exact fun _ => rfl
  · split
    · exact fun _ => rfl
    · refine Method.Keeps.bind (Method.Keeps.update fun g => hevents _ g) fun _ =>
        Method.Keeps.bind (Method.Keeps.self _) fun g => ?_
      dsimp only
      split_ifs
      · exact fun _ => rfl
      · exact fun _ => rfl

/-- A dropped prefix ends before an element that is to stay. -/
lemma getLast?_dropWhile {α : Type} {p : α → Bool} {x : α} (h : p x = false) (l : List α) :
    ((l ++ [x]).dropWhile p).getLast? = some x := by
  induction l with
  | nil => simp [h]
  | cons y l ih =>
    rw [List.cons_append, List.dropWhile_cons]
    split_ifs
    · exact ih
    · rw [← List.cons_append, List.getLast?_append]
      rfl

/-- What was charged is the last event, since it is younger than the window. -/
lemma Charges.getLast? (h : Charges d now later g g') (hwindow : 0 ≤ g.windowSeconds) :
    g'.events.getLast? = some (later, d) := by
  obtain ⟨mid, hcheck, hrecord⟩ := h
  have hmid : mid.windowSeconds = g.windowSeconds := by
    have := keeps_check (f := windowSeconds) (fun _ _ => rfl) d now g
    rwa [hcheck] at this
  obtain ⟨-, rfl⟩ := Prod.mk.inj hrecord
  have hlate : ¬ later < later - mid.windowSeconds := by
    rw [hmid]
    linarith
  exact getLast?_dropWhile (p := fun event => event.1 < later - mid.windowSeconds)
    (x := (later, d)) (decide_eq_false hlate) mid.events

lemma Charges.unique (h : Charges d now later g g') (h' : Charges d' now later g g')
    (hwindow : 0 ≤ g.windowSeconds) : d = d' := by
  have heq := (h.getLast? hwindow).symm.trans (h'.getLast? hwindow)
  exact (Prod.mk.inj (Option.some.inj heq)).2

end DutyCycleGovernor

namespace LoRaTransport

variable {t t' : LoRaTransport} {frame : Bytes UInt8} {now later : ℚ}
  {write : Except (Exc UInt8) Unit}

/-- A transport that has been built. Where the duty cycle is limited, it is a part of the time. -/
lemma init_ok {config : RadioConfig} {driver : Driver} {enforceDutyCycle : Bool}
    (h : init config driver enforceDutyCycle = .ok t) :
    config.validate = .ok () ∧ (t.config = config ∧ t.driver = driver ∧
      t.governor.windowSeconds = 3600) ∧ t.mtu ≤ 255 ∧ t.governor.events = [] ∧
      ∀ duty ∈ t.governor.dutyCycle, 0 ≤ duty ∧ duty ≤ 1 := by
  rcases hvalid : config.validate with err | _
  · simp [init, hvalid, bind, Except.bind] at h
  rcases hplan : config.regionPlan with err | plan
  · simp [init, hvalid, hplan, bind, Except.bind] at h
  simp only [init, hvalid, hplan, bind, Except.bind, pure, Except.pure, Except.ok.injEq] at h
  subst h
  refine ⟨rfl, ⟨rfl, rfl, rfl⟩, ?_, rfl, fun duty hduty => ?_⟩
  · cases driver with
    | rylr => exact (min_le_right _ _).trans (by decide)
    | slip => exact min_le_right _ _
  · have hregions : ∀ plan ∈ REGIONS, ∀ duty ∈ plan.dutyCycle, 0 ≤ duty ∧ duty ≤ 1 := by
      decide +kernel
    have hmem : plan ∈ REGIONS := by
      rw [RadioConfig.regionPlan, getRegion] at hplan
      split at hplan
      · next h => exact Except.ok.inj hplan ▸ List.mem_of_find?_eq_some h
      · cases hplan
    refine hregions plan hmem duty ?_
    cases enforceDutyCycle with
    | true => exact hduty
    | false => cases hduty

/-- What a `send` call that returns has done: it charged the airtime of the frame, and the radio
got its command. -/
lemma send_ok (h : send frame now later write t = (.ok (), t')) :
    ∃ written d, t.serial = some written ∧ frame.length ≤ t.mtu ∧
      (t.config.airtimeFor frame.length : Except (Exc UInt8) ℚ) = .ok d ∧
      t.governor.Charges d now later t'.governor ∧
      t' = { t with
        governor := t'.governor, serial := some (written ++ [t.driver.command frame])
        framesSent := t.framesSent + 1 } := by
  unfold send at h
  rw [Method.self_bind] at h
  split_ifs at h with hrunning hmtu
  · cases h
  · cases h
  rcases hserial : t.serial with _ | written
  · exact absurd (Or.inr hserial) hrunning
  obtain ⟨d, t₁, heval, h⟩ := Method.bind_ok.mp h
  obtain ⟨hairtime, rfl⟩ := Method.eval_ok.mp heval
  obtain ⟨_, t₁, hgovernor, h⟩ := Method.bind_ok.mp h
  obtain ⟨g, hcheck, rfl⟩ := Method.onField_ok.mp hgovernor
  obtain ⟨_, t₂, hwrite, h⟩ := Method.bind_ok.mp h
  obtain ⟨-, rfl⟩ := Method.eval_ok.mp hwrite
  rw [Method.update_bind] at h
  obtain ⟨_, t₃, hgovernor', h⟩ := Method.bind_ok.mp h
  obtain ⟨g', hrecord, rfl⟩ := Method.onField_ok.mp hgovernor'
  obtain ⟨-, rfl⟩ := Prod.mk.inj h
  refine ⟨written, d, rfl, Nat.not_lt.mp hmtu, hairtime, ⟨g, hcheck, hrecord⟩, ?_⟩
  rw [hserial]
  rfl

/-- A call changes no more than the events of the governor, what has been written and the count. -/
lemma keeps_send {ρ : Type} {f : LoRaTransport → ρ}
    (hevents : ∀ events t, f { t with governor := { t.governor with events := events } } = f t)
    (hserial : ∀ g t, f { t with serial := t.serial.map g } = f t)
    (hframes : ∀ n t, f { t with framesSent := n } = f t) (frame : Bytes UInt8) (now later : ℚ)
    (write : Except (Exc UInt8) Unit) : Method.Keeps f (send frame now later write) := by
  have hgovernor : ∀ (m : Method (Exc UInt8) DutyCycleGovernor Unit),
      Method.Keeps (fun g => { g with events := [] }) m → Method.Keeps f (onGovernor m) := by
    intro m hm t
    have hsame := congrArg (fun g => f { t with governor := g }) (hm t.governor)
    have hleft := hevents [] { t with governor := (m t.governor).2 }
    exact hleft.symm.trans (hsame.trans (hevents [] t))
  refine Method.Keeps.bind (Method.Keeps.self _) fun t => ?_
  split_ifs
  · exact fun _ => rfl
  · exact fun _ => rfl
  · refine Method.Keeps.bind (Method.Keeps.eval _ _) fun d => ?_
    refine Method.Keeps.bind (hgovernor _ (DutyCycleGovernor.keeps_check (fun _ _ => rfl) d now))
      fun _ => ?_
    refine Method.Keeps.bind (Method.Keeps.eval _ _) fun _ => ?_
    refine Method.Keeps.bind (Method.Keeps.update fun t => hserial _ t) fun _ => ?_
    refine Method.Keeps.bind (hgovernor _ fun _ => rfl) fun _ => ?_
    exact Method.Keeps.update fun t => hframes _ t

end LoRaTransport

end Chatbit
