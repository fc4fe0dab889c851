import Chatbit.Radio.Config

/-!
# The LoRa transport

The framing codec and the transmit path of `chatbit/radio/lora.py`. The serial port keeps what has
been written to it. Whether a write succeeds and what the clock shows are arguments.
-/

namespace Chatbit

open Lib

def SLIP_END : UInt8 := 0xC0
def SLIP_ESC : UInt8 := 0xDB
def SLIP_ESC_END : UInt8 := 0xDC
def SLIP_ESC_ESC : UInt8 := 0xDD

def RYLR_MAX_PAYLOAD : ℕ := 240

structure SlipCodec where
  buf : Bytes UInt8 := []
  escaped : Bool := false
deriving DecidableEq

namespace SlipCodec

/-- What stands for a byte between two delimiters. -/
def escape (byte : UInt8) : Bytes UInt8 :=
  if byte = SLIP_END then [SLIP_ESC, SLIP_ESC_END]
  else if byte = SLIP_ESC then [SLIP_ESC, SLIP_ESC_ESC]
  else [byte]

def encode (payload : Bytes UInt8) : Bytes UInt8 :=
  [SLIP_END] ++ payload.flatMap escape ++ [SLIP_END]

/-- The body of the loop of `feed`, with the frames that are complete so far. -/
def feedByte (state : SlipCodec × List (Bytes UInt8)) (byte : UInt8) :
    SlipCodec × List (Bytes UInt8) :=
  let (codec, frames) := state
  if codec.escaped then
    if byte = SLIP_ESC_END then ({ buf := codec.buf ++ [SLIP_END] }, frames)
    else if byte = SLIP_ESC_ESC then ({ buf := codec.buf ++ [SLIP_ESC] }, frames)
    else ({}, frames)
  else if byte = SLIP_ESC then ({ codec with escaped := true }, frames)
  else if byte = SLIP_END then
    if codec.buf ≠ [] then ({ codec with buf := [] }, frames ++ [codec.buf])
    else (codec, frames)
  else ({ codec with buf := codec.buf ++ [byte] }, frames)

/-- Push received bytes in, get zero or more complete frames out. -/
def feed (data : Bytes UInt8) (codec : SlipCodec) : SlipCodec × List (Bytes UInt8) :=
  data.foldl feedByte (codec, [])

end SlipCodec

/-- A digit of `bytes.hex().upper()`. -/
def hexDigit (n : ℕ) : UInt8 := if n < 10 then UInt8.ofNat (48 + n) else UInt8.ofNat (55 + n)

/-- `frame.hex().upper()` -/
def hexUpper (frame : Bytes UInt8) : Bytes UInt8 :=
  frame.flatMap fun byte => [hexDigit (byte.toNat / 16), hexDigit (byte.toNat % 16)]

inductive Driver where
  | rylr
  | slip
deriving DecidableEq

/-- What `send` writes to the port for a frame. -/
def Driver.command (frame : Bytes UInt8) : Driver → Bytes UInt8
  | .rylr =>
    let payload := hexUpper frame
    ascii s!"AT+SEND=0,{payload.length}," ++ payload ++ ascii "\r\n"
  | .slip => SlipCodec.encode frame

structure LoRaTransport where
  config : RadioConfig
  driver : Driver
  governor : DutyCycleGovernor
  mtu : ℕ
  running : Bool := false
  /-- The port, if it is open, as the writes it has taken. -/
  serial : Option (List (Bytes UInt8)) := none
  framesSent : ℕ := 0
deriving DecidableEq

namespace LoRaTransport

/-- `__init__`; hex encoding doubles every byte on the AT interface. -/
def init (config : RadioConfig) (driver : Driver) (enforceDutyCycle : Bool) :
    Except RegionError LoRaTransport := do
  config.validate
  let plan ← config.regionPlan
  return {
    config, driver
    governor := {
      dutyCycle := if enforceDutyCycle then plan.dutyCycle else none
      maxDwellMs := if enforceDutyCycle then plan.maxDwellMs else none }
    mtu := match driver with
      | .rylr => min config.mtu (RYLR_MAX_PAYLOAD / 2)
      | .slip => min config.mtu 255 }

/-- What `start` and `stop` leave of the state that `send` reads. -/
def start (t : LoRaTransport) : LoRaTransport := { t with running := true, serial := some [] }

def stop (t : LoRaTransport) : LoRaTransport := { t with running := false, serial := none }

def onGovernor {α : Type} (m : Method (Exc UInt8) DutyCycleGovernor α) :
    Method (Exc UInt8) LoRaTransport α :=
  Method.onField governor (fun governor t => { t with governor }) m

/-- The lock makes the call from the check on one step. `write` is what the port does; `now` and
`later` are the clock at the check and at the record. -/
def send (frame : Bytes UInt8) (now later : ℚ) (write : Except (Exc UInt8) Unit) :
    Method (Exc UInt8) LoRaTransport Unit := do
  let t ← Method.self
  if ¬ t.running ∨ t.serial = none then
    Method.raise (.transportError "transport is not started")
  else if frame.length > t.mtu then
    Method.raise (.valueError s!"frame of {frame.length} bytes exceeds MTU {t.mtu}")
  else
    let airtime ← Method.eval (t.config.airtimeFor frame.length)
    onGovernor (DutyCycleGovernor.check airtime now)
    Method.eval write
    Method.update fun t => { t with
      serial := t.serial.map fun written => written ++ [t.driver.command frame] }
    onGovernor (DutyCycleGovernor.record airtime later)
    Method.update fun t => { t with framesSent := t.framesSent + 1 }

end LoRaTransport

end Chatbit
