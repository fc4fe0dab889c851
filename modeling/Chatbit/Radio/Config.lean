import Chatbit.Radio.Airtime

/-!
# Radio configuration

The band plans of `chatbit/radio/regions.py` and the class `RadioConfig` of `chatbit/config.py`,
without the fields that only descriptions print.
-/

namespace Chatbit

structure Region where
  name : String
  freqMinHz : ℤ
  freqMaxHz : ℤ
  maxPowerDbm : ℤ
  /-- A part of the time, or unlimited. -/
  dutyCycle : Option ℚ
  maxDwellMs : Option ℚ
deriving DecidableEq

/-- `RegionError`. The first two texts print the values that are kept here, the frequencies in MHz,
and the second the names of all regions. -/
inductive RegionError where
  | outOfBand (frequencyHz : ℤ) (plan : Region)
  | unknownRegion (name : String)
  | invalid (msg : String)
deriving DecidableEq

def Region.validate (frequencyHz powerDbm : ℤ) (plan : Region) : Except RegionError Unit :=
  if ¬ (plan.freqMinHz ≤ frequencyHz ∧ frequencyHz ≤ plan.freqMaxHz) then
    .error (.outOfBand frequencyHz plan)
  else if powerDbm > plan.maxPowerDbm then
    .error (.invalid s!"{powerDbm} dBm exceeds the {plan.name} limit of {plan.maxPowerDbm} dBm")
  else .ok ()

def REGIONS : List Region := [
  ⟨"EU868", 863000000, 870000000, 14, some (1 / 100), none⟩,
  ⟨"EU433", 433050000, 434790000, 10, some (1 / 10), none⟩,
  ⟨"US915", 902000000, 928000000, 30, none, some 400⟩,
  ⟨"AU915", 915000000, 928000000, 30, none, some 400⟩,
  ⟨"AS923", 915000000, 928000000, 16, some (1 / 100), some 400⟩,
  ⟨"IN865", 865000000, 867000000, 30, none, none⟩,
  ⟨"KR920", 920900000, 923300000, 14, none, none⟩,
  ⟨"CN470", 470000000, 510000000, 17, none, none⟩,
  ⟨"ISM2400", 2400000000, 2500000000, 20, none, none⟩,
  ⟨"LAB", 1, 6000000000, 0, none, none⟩]

/-- `str.upper` as far as it decides which region a name means: besides the ASCII letters, the
dotless i and the long s have ASCII capitals. -/
def upperChar (c : Char) : Char :=
  if c.toNat = 0x131 then 'I' else if c.toNat = 0x17F then 'S' else c.toUpper

def getRegion (name : String) : Except RegionError Region :=
  match REGIONS.find? fun plan => plan.name.toList = name.toList.map upperChar with
  | some plan => .ok plan
  | none => .error (.unknownRegion name)

structure RadioConfig where
  region : String := "EU868"
  frequencyHz : ℤ := 868100000
  spreadingFactor : ℕ := 9
  bandwidthHz : ℕ := 125000
  codingRate : ℕ := 5
  txPowerDbm : ℤ := 14
  preambleSymbols : ℤ := 8
  mtu : ℕ := 200
deriving DecidableEq

namespace RadioConfig

def regionPlan (config : RadioConfig) : Except RegionError Region := getRegion config.region

def bandwidths : List ℕ :=
  [7800, 10400, 15600, 20800, 31250, 41700, 62500, 125000, 250000, 500000]

def validate (config : RadioConfig) : Except RegionError Unit := do
  let plan ← config.regionPlan
  plan.validate config.frequencyHz config.txPowerDbm
  if ¬ (6 ≤ config.spreadingFactor ∧ config.spreadingFactor ≤ 12) then
    throw (.invalid "spreading factor must be 6..12")
  if config.bandwidthHz ∉ bandwidths then
    throw (.invalid s!"unsupported bandwidth {config.bandwidthHz} Hz")
  if ¬ (5 ≤ config.codingRate ∧ config.codingRate ≤ 8) then
    throw (.invalid "coding rate must be 5..8")
  if ¬ (16 ≤ config.mtu ∧ config.mtu ≤ 255) then
    throw (.invalid "mtu must be 16..255 bytes")

def airtimeFor {β : Type} (frameBytes : ℕ) (config : RadioConfig) : Except (Exc β) ℚ :=
  timeOnAir frameBytes config.spreadingFactor config.bandwidthHz config.codingRate
    config.preambleSymbols true true none

/-- A configuration that validates has the modulation settings that `time_on_air` wants, and a
bandwidth that is not zero. -/
lemma validate_ok {config : RadioConfig} (h : config.validate = .ok ()) :
    (6 ≤ config.spreadingFactor ∧ config.spreadingFactor ≤ 12) ∧ 0 < config.bandwidthHz ∧
      (5 ≤ config.codingRate ∧ config.codingRate ≤ 8) := by
  rcases hplan : config.regionPlan with err | plan
  · simp [validate, hplan, bind, Except.bind] at h
  rcases hregion : plan.validate config.frequencyHz config.txPowerDbm with err | _
  · simp [validate, hplan, hregion, bind, Except.bind] at h
  simp only [validate, hplan, hregion, bind, Except.bind, throw, throwThe,
    MonadExceptOf.throw] at h
  by_cases hsf : 6 ≤ config.spreadingFactor ∧ config.spreadingFactor ≤ 12
  · by_cases hbw : config.bandwidthHz ∈ bandwidths
    · by_cases hcr : 5 ≤ config.codingRate ∧ config.codingRate ≤ 8
      · have hpos : ∀ bw ∈ bandwidths, 0 < bw := by decide
        exact ⟨hsf, hpos _ hbw, hcr⟩
      · simp [hsf, hbw, hcr] at h
    · simp [hsf, hbw] at h
  · simp [hsf] at h

end RadioConfig

end Chatbit
