import Mathlib.Tactic.Linarith
import Mathlib.Order.SuccPred.Archimedean
import Mathlib.Data.Nat.SuccPred
import Chatbit.Radio.Airtime

/-!
# How airtime grows

`timeOnAir` with an explicit header, a CRC and the low data rate rule, as a number of symbols times
the length of a symbol. A spreading factor more doubles the length of a symbol, and the symbols that
it saves are fewer than half of them.
-/

namespace Chatbit

namespace Airtime

variable {β : Type} {n m sf bw cr : ℕ} {preamble : ℤ}

/-! ## Symbols -/

/-- 1 where the symbol duration exceeds 16 ms. -/
def lowDataRate (sf bw : ℕ) : ℕ := if 16 * bw < 1000 * 2 ^ sf then 1 else 0

def numerator (n sf : ℕ) : ℤ := 8 * n - 4 * sf + 44

def divisor (sf bw : ℕ) : ℕ := 4 * (sf - 2 * lowDataRate sf bw)

/-- The symbols of a payload beyond the first eight. -/
def payloadSymbols (n sf bw cr : ℕ) : ℤ :=
  max (⌈((numerator n sf : ℚ) / (divisor sf bw : ℚ))⌉ * cr) 0

lemma lowDataRate_le (sf bw : ℕ) : lowDataRate sf bw ≤ 1 := by
  unfold lowDataRate
  split_ifs
  · exact le_rfl
  · exact Nat.zero_le 1

/-- The optimisation is on for symbols of more than 16 ms. -/
lemma lowDataRate_eq_one_iff (sf : ℕ) (hbw : 0 < bw) :
    lowDataRate sf bw = 1 ↔ (16 / 1000 : ℚ) < 2 ^ sf / bw := by
  have hbw' : (0 : ℚ) < bw := Nat.cast_pos.mpr hbw
  have hiff : (16 / 1000 : ℚ) < 2 ^ sf / bw ↔ 16 * bw < 1000 * 2 ^ sf := by
    rw [div_lt_div_iff₀ (by norm_num) hbw', mul_comm ((2 : ℚ) ^ _)]
    exact_mod_cast Iff.rfl
  rw [hiff, lowDataRate]
  split_ifs with hlong
  · exact iff_of_true rfl hlong
  · exact iff_of_false (by decide) hlong

/-- The divisor is positive for every spreading factor. -/
lemma divisor_pos (hsf : 6 ≤ sf) (bw : ℕ) : 16 ≤ divisor sf bw := by
  have := lowDataRate_le sf bw
  unfold divisor
  omega

/-- The divisor as the code computes it. -/
lemma divisor_eq (hsf : 6 ≤ sf) (hbw : 0 < bw) :
    (4 * ((sf : ℤ) - 2 * (if decide ((2 : ℚ) ^ sf / bw > 16 / 1000) = true then 1 else 0)) : ℤ) =
      divisor sf bw := by
  have hle := lowDataRate_le sf bw
  have hde := lowDataRate_eq_one_iff sf hbw
  unfold divisor
  split_ifs with hlong
  · rw [hde.mpr (of_decide_eq_true hlong)]
    omega
  · have hzero : lowDataRate sf bw = 0 := by
      have := mt hde.mp fun hlt => hlong (decide_eq_true hlt)
      omega
    rw [hzero]
    omega

/-- For settings that are accepted, the airtime is a number of symbols. -/
lemma timeOnAir_eq (hsf : 6 ≤ sf ∧ sf ≤ 12) (hbw : 0 < bw) (hcr : 5 ≤ cr ∧ cr ≤ 8) (n : ℕ)
    (preamble : ℤ) :
    (timeOnAir n sf bw cr preamble true true none : Except (Exc β) ℚ) =
      .ok ((preamble + 17 / 4 + 8 + payloadSymbols n sf bw cr) * (2 ^ sf / bw)) := by
  unfold timeOnAir
  rw [if_neg (not_not.mpr hsf), if_neg (not_not.mpr hcr)]
  simp only [Option.getD_none, if_true, mul_zero, sub_zero]
  have hnum : (8 * n - 4 * sf + 28 + 16 : ℤ) = numerator n sf := by
    unfold numerator
    ring
  rw [hnum, divisor_eq hsf.1 hbw]
  congr 1
  unfold payloadSymbols
  push_cast
  ring

/-! ## Code words -/

/-- The symbols as code words of `cr` symbols each. -/
def codewords (n sf bw : ℕ) : ℤ := max ⌈((numerator n sf : ℚ) / (divisor sf bw : ℚ))⌉ 0

/-- The payload is sent in codewords. -/
lemma payloadSymbols_eq (n sf bw cr : ℕ) :
    payloadSymbols n sf bw cr = codewords n sf bw * cr := by
  rw [codewords, max_mul_of_nonneg _ _ (Int.natCast_nonneg cr), zero_mul]
  rfl

lemma codewords_nonneg (n sf bw : ℕ) : 0 ≤ codewords n sf bw := le_max_right _ _

/-- The number of codewords is the quotient, rounded up. -/
lemma codewords_le_iff (hsf : 6 ≤ sf) {k : ℤ} (hk : 0 ≤ k) :
    codewords n sf bw ≤ k ↔ numerator n sf ≤ k * divisor sf bw := by
  have hdiv : (0 : ℚ) < divisor sf bw :=
    Nat.cast_pos.mpr (lt_of_lt_of_le (by norm_num) (divisor_pos hsf bw))
  rw [codewords, max_le_iff, and_iff_left hk, Int.ceil_le, div_le_iff₀ hdiv]
  exact_mod_cast Iff.rfl

/-- The codewords have room for the payload. -/
lemma numerator_le (hsf : 6 ≤ sf) (n bw : ℕ) :
    numerator n sf ≤ codewords n sf bw * divisor sf bw :=
  (codewords_le_iff hsf (codewords_nonneg n sf bw)).mp le_rfl

/-- A larger spreading factor does not turn the optimisation off. -/
lemma lowDataRate_succ (sf bw : ℕ) : lowDataRate sf bw ≤ lowDataRate (sf + 1) bw := by
  have hpow : 2 ^ sf ≤ 2 ^ (sf + 1) := Nat.pow_le_pow_right (by norm_num) (Nat.le_succ sf)
  unfold lowDataRate
  split_ifs <;> omega

/-- A larger bandwidth does not turn it on. -/
lemma lowDataRate_anti (sf : ℕ) {bw bw' : ℕ} (h : bw ≤ bw') :
    lowDataRate sf bw' ≤ lowDataRate sf bw := by
  unfold lowDataRate
  split_ifs <;> omega

/-- The divisor grows by 4 at most, and stays above 4. -/
lemma codewords_succ (hsf : 6 ≤ sf) (n bw : ℕ) :
    codewords n sf bw ≤ 2 * codewords n (sf + 1) bw + 1 := by
  have hnext := codewords_nonneg n (sf + 1) bw
  rw [codewords_le_iff hsf (by omega)]
  have hfit := numerator_le (le_trans hsf (Nat.le_succ sf)) n bw
  have hdiv : (divisor (sf + 1) bw : ℤ) ≤ divisor sf bw + 4 := by
    have := lowDataRate_succ sf bw
    have := lowDataRate_le (sf + 1) bw
    unfold divisor
    omega
  have hfour : (4 : ℤ) ≤ divisor sf bw := by
    have := divisor_pos hsf bw
    omega
  generalize codewords n (sf + 1) bw = k at *
  calc numerator n sf = numerator n (sf + 1) + 4 := by unfold numerator; push_cast; ring
    _ ≤ k * divisor (sf + 1) bw + 4 := by linarith
    _ ≤ k * (divisor sf bw + 4) + 4 := by
      have := mul_le_mul_of_nonneg_left hdiv hnext
      linarith
    _ = k * divisor sf bw + (k + 1) * 4 := by ring
    _ ≤ k * divisor sf bw + (k + 1) * divisor sf bw := by
      have := mul_le_mul_of_nonneg_left hfour (by omega : 0 ≤ k + 1)
      linarith
    _ = (2 * k + 1) * divisor sf bw := by ring

/-- A larger bandwidth needs no more codewords. -/
lemma codewords_anti (hsf : 6 ≤ sf) (n : ℕ) {bw bw' : ℕ} (h : bw ≤ bw') :
    codewords n sf bw' ≤ codewords n sf bw := by
  have hnonneg := codewords_nonneg n sf bw
  rw [codewords_le_iff hsf hnonneg]
  have hdiv : (divisor sf bw : ℤ) ≤ divisor sf bw' := by
    have := lowDataRate_anti sf h
    unfold divisor
    omega
  exact le_trans (numerator_le hsf n bw) (mul_le_mul_of_nonneg_left hdiv hnonneg)

/-- A longer payload needs no fewer codewords. -/
lemma codewords_mono (hsf : 6 ≤ sf) (bw : ℕ) (h : n ≤ m) :
    codewords n sf bw ≤ codewords m sf bw := by
  rw [codewords_le_iff hsf (codewords_nonneg m sf bw)]
  refine le_trans ?_ (numerator_le hsf m bw)
  unfold numerator
  omega

/-! ## Airtime -/

/-- The airtime in code words. -/
def airtime (cr : ℕ) (preamble : ℤ) (n sf bw : ℕ) : ℚ :=
  (preamble + 17 / 4 + 8 + codewords n sf bw * cr) * (2 ^ sf / bw)

/-- The code computes the airtime of the formula. -/
lemma timeOnAir_eq_airtime (hsf : 6 ≤ sf ∧ sf ≤ 12) (hbw : 0 < bw) (hcr : 5 ≤ cr ∧ cr ≤ 8)
    (n : ℕ) (preamble : ℤ) :
    (timeOnAir n sf bw cr preamble true true none : Except (Exc β) ℚ) =
      .ok (airtime cr preamble n sf bw) := by
  rw [timeOnAir_eq hsf hbw hcr, payloadSymbols_eq, airtime]
  push_cast
  rfl

/-- The code words take no more than half of the symbols less 8, and there are 12.25 besides. -/
lemma airtime_succ (hsf : 6 ≤ sf) (hbw : 0 < bw) (hcr : cr ≤ 8) (hpreamble : 0 ≤ preamble)
    (n : ℕ) : airtime cr preamble n sf bw < airtime cr preamble n (sf + 1) bw := by
  have hstep : (codewords n sf bw : ℚ) ≤ 2 * codewords n (sf + 1) bw + 1 := by
    exact_mod_cast codewords_succ hsf n bw
  have hpreamble' : (0 : ℚ) ≤ preamble := Int.cast_nonneg hpreamble
  have hcr' : (cr : ℚ) ≤ 8 := by exact_mod_cast hcr
  have hwords := mul_le_mul_of_nonneg_right hstep (Nat.cast_nonneg (α := ℚ) cr)
  have hsymbol : (0 : ℚ) < 2 ^ sf / bw := by
    have : (0 : ℚ) < bw := Nat.cast_pos.mpr hbw
    positivity
  have hdouble : airtime cr preamble n (sf + 1) bw =
      2 * (preamble + 17 / 4 + 8 + codewords n (sf + 1) bw * cr) * (2 ^ sf / bw) := by
    rw [airtime, pow_succ]
    ring
  rw [hdouble, airtime]
  refine mul_lt_mul_of_pos_right ?_ hsymbol
  linarith

/-- A larger bandwidth makes a frame shorter. -/
lemma airtime_anti (hsf : 6 ≤ sf) (hpreamble : 0 ≤ preamble) (n : ℕ) {bw bw' : ℕ} (hbw : 0 < bw)
    (h : bw < bw') : airtime cr preamble n sf bw' < airtime cr preamble n sf bw := by
  have hpreamble' : (0 : ℚ) ≤ preamble := Int.cast_nonneg hpreamble
  have hwords : (codewords n sf bw' * cr : ℚ) ≤ codewords n sf bw * cr :=
    mul_le_mul_of_nonneg_right (by exact_mod_cast codewords_anti hsf n h.le) (Nat.cast_nonneg cr)
  have hnonneg : (0 : ℚ) ≤ codewords n sf bw' * cr :=
    mul_nonneg (by exact_mod_cast codewords_nonneg n sf bw') (Nat.cast_nonneg cr)
  have hbw' : (0 : ℚ) < bw := Nat.cast_pos.mpr hbw
  have hsymbol : (2 ^ sf / bw' : ℚ) < 2 ^ sf / bw :=
    div_lt_div_of_pos_left (by positivity) hbw' (by exact_mod_cast h)
  unfold airtime
  refine mul_lt_mul' (by linarith) hsymbol (by positivity) (by linarith)

/-- A longer payload does not. -/
lemma airtime_mono (hsf : 6 ≤ sf) (bw : ℕ) (h : n ≤ m) :
    airtime cr preamble n sf bw ≤ airtime cr preamble m sf bw := by
  have hwords : (codewords n sf bw * cr : ℚ) ≤ codewords m sf bw * cr :=
    mul_le_mul_of_nonneg_right (by exact_mod_cast codewords_mono hsf bw h) (Nat.cast_nonneg cr)
  unfold airtime
  exact mul_le_mul_of_nonneg_right (by linarith) (by positivity)

/-- Airtime is a function of payload, spreading factor and bandwidth that is strictly increasing in
the second, strictly decreasing in the third and not decreasing in the first. -/
theorem timeOnAir_order (hcr : 5 ≤ cr ∧ cr ≤ 8) (hpreamble : 0 ≤ preamble) :
    ∃ time : ℕ → ℕ → ℕ → ℚ,
      (∀ n, ∀ sf ∈ Set.Icc 6 12, ∀ bw ∈ Set.Ioi 0,
        (timeOnAir n sf bw cr preamble true true none : Except (Exc β) ℚ) =
          .ok (time n sf bw)) ∧
      (∀ n, ∀ bw ∈ Set.Ioi 0, StrictMonoOn (fun sf => time n sf bw) (Set.Icc 6 12)) ∧
      (∀ n, ∀ sf ∈ Set.Icc 6 12, StrictAntiOn (fun bw => time n sf bw) (Set.Ioi 0)) ∧
      ∀ sf ∈ Set.Icc 6 12, ∀ bw ∈ Set.Ioi 0, Monotone fun n => time n sf bw := by
  refine ⟨airtime cr preamble, fun n sf hsf bw hbw => timeOnAir_eq_airtime hsf hbw hcr n preamble,
    fun n bw hbw => ?_, fun n sf hsf bw hbw bw' _ h => ?_, fun sf hsf bw _ n m h => ?_⟩
  · refine strictMonoOn_of_lt_succ Set.ordConnected_Icc fun sf _ hsf _ => ?_
    exact airtime_succ hsf.1 hbw hcr.2 hpreamble n
  · exact airtime_anti hsf.1 hpreamble n hbw h
  · exact airtime_mono hsf.1 bw h

/-- For the defaults of the source. -/
theorem timeOnAir_order_default :
    ∃ time : ℕ → ℕ → ℕ → ℚ,
      (∀ n, ∀ sf ∈ Set.Icc 6 12, ∀ bw ∈ Set.Ioi 0,
        (timeOnAir n sf bw 5 8 true true none : Except (Exc UInt8) ℚ) =
          .ok (time n sf bw)) ∧
      (∀ n, ∀ bw ∈ Set.Ioi 0, StrictMonoOn (fun sf => time n sf bw) (Set.Icc 6 12)) ∧
      (∀ n, ∀ sf ∈ Set.Icc 6 12, StrictAntiOn (fun bw => time n sf bw) (Set.Ioi 0)) ∧
      ∀ sf ∈ Set.Icc 6 12, ∀ bw ∈ Set.Ioi 0, Monotone fun n => time n sf bw :=
  timeOnAir_order (by decide) (by decide)

end Airtime

end Chatbit
