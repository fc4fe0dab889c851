import Mathlib.Algebra.Order.Ring.Unbundled.Rat
import Mathlib.Data.Rat.Floor
import Chatbit.Lib.Method
import Chatbit.Crypto.Primitives

/-!
# Time on air and the duty-cycle governor

`chatbit/radio/airtime.py`: the function `time_on_air` and the class `DutyCycleGovernor`. Times and
durations are exact.
-/

namespace Chatbit

open Lib

/-- Airtime in seconds for one LoRa frame, at a bandwidth that is not zero. Without a value of its
own, `lowDataRateOptimize` is on when the symbol duration exceeds 16 ms. -/
def timeOnAir {β : Type} (payloadBytes spreadingFactor bandwidthHz codingRate : ℕ)
    (preambleSymbols : ℤ) (explicitHeader crc : Bool) (lowDataRateOptimize : Option Bool) :
    Except (Exc β) ℚ :=
  if ¬ (6 ≤ spreadingFactor ∧ spreadingFactor ≤ 12) then
    .error (.valueError "spreading factor must be 6..12")
  else if ¬ (5 ≤ codingRate ∧ codingRate ≤ 8) then
    .error (.valueError "coding rate must be 5..8 (for 4/5 .. 4/8)")
  else
    let symbolDuration : ℚ := 2 ^ spreadingFactor / bandwidthHz
    let de : ℤ := if lowDataRateOptimize.getD (symbolDuration > 16 / 1000) then 1 else 0
    let ih : ℤ := if explicitHeader then 0 else 1
    let crcBits : ℤ := if crc then 16 else 0
    let preambleTime := (preambleSymbols + 17 / 4) * symbolDuration
    let numerator : ℤ := 8 * payloadBytes - 4 * spreadingFactor + 28 + crcBits - 20 * ih
    let denominator : ℤ := 4 * (spreadingFactor - 2 * de)
    let payloadSymbols : ℤ := 8 + max (⌈(numerator / denominator : ℚ)⌉ * codingRate) 0
    .ok (preambleTime + payloadSymbols * symbolDuration)

/-! ## The governor -/

structure DutyCycleGovernor where
  dutyCycle : Option ℚ
  windowSeconds : ℚ := 3600
  maxDwellMs : Option ℚ := none
  events : List (ℚ × ℚ) := []
deriving DecidableEq

namespace DutyCycleGovernor

variable {β : Type}

/-- `_prune` -/
def prune (now : ℚ) (g : DutyCycleGovernor) : DutyCycleGovernor :=
  { g with events := g.events.dropWhile fun event => event.1 < now - g.windowSeconds }

/-- The loop that works out when enough old airtime ages out of the window. -/
def waitSeconds (window now needed freed : ℚ) : List (ℚ × ℚ) → ℚ
  | [] => window
  | (timestamp, duration) :: events =>
    if freed + duration ≥ needed then max 0 (timestamp + window - now)
    else waitSeconds window now needed (freed + duration) events

def dwellViolation (airtimeSeconds : ℚ) (g : DutyCycleGovernor) : Bool :=
  match g.maxDwellMs with
  | none => false
  | some maxDwellMs => airtimeSeconds * 1000 > maxDwellMs

/-- Raise `DutyCycleExceeded` if this transmission is not allowed. -/
def check (airtimeSeconds now : ℚ) : Method (Exc β) DutyCycleGovernor Unit := do
  let g ← Method.self
  if g.dwellViolation airtimeSeconds then Method.raise (.dutyCycleExceeded 0)
  else match g.dutyCycle with
    | none => return ()
    | some dutyCycle =>
      Method.update (prune now)
      let g ← Method.self
      let used := (g.events.map Prod.snd).sum
      let budgetSeconds := dutyCycle * g.windowSeconds
      if used + airtimeSeconds ≤ budgetSeconds then return ()
      else Method.raise (.dutyCycleExceeded
        (waitSeconds g.windowSeconds now (used + airtimeSeconds - budgetSeconds) 0 g.events))

def record (airtimeSeconds now : ℚ) : Method (Exc β) DutyCycleGovernor Unit := do
  Method.update fun g => { g with events := g.events ++ [(now, airtimeSeconds)] }
  Method.update (prune now)

end DutyCycleGovernor

end Chatbit
