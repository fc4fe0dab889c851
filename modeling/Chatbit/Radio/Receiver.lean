import Mathlib.Data.List.DropRight
import Chatbit.Crypto.Hex
import Chatbit.Lib.Lines
import Chatbit.Radio.LoRa

/-!
# The receive path of the LoRa transport

What `chatbit/radio/lora.py` does with the bytes of the serial port: a reader thread cuts them into
frames, a pump moves the frames to the queue of the event loop, and `frames()` takes them from
there. The three take turns in any order. `float` is the built-in, with the numbers it reads.
-/

namespace Chatbit

open Lib

/-- One frame off the link, plus whatever the radio knows about it. -/
structure ReceivedFrame (ρ : Type) where
  data : Bytes UInt8
  rssi : Option ρ := none
  snr : Option ρ := none
  timestamp : ℚ := 0
deriving DecidableEq

/-- `str.isspace` of one character -/
def isSpace (c : Char) : Bool :=
  (0x09 ≤ c.toNat ∧ c.toNat ≤ 0x0D) ∨ (0x1C ≤ c.toNat ∧ c.toNat ≤ 0x20) ∨
    (0x2000 ≤ c.toNat ∧ c.toNat ≤ 0x200A) ∨
    c.toNat ∈ [0x85, 0xA0, 0x1680, 0x2028, 0x2029, 0x202F, 0x205F, 0x3000]

/-- `str.strip` -/
def strip (text : List Char) : List Char := (text.dropWhile isSpace).rdropWhile isSpace

/-- Parse `+RCV=<addr>,<len>,<hexdata>,<rssi>,<snr>`; `put` fills in the time. -/
def parseRylrLine {ρ : Type} (float : List Char → Option ρ) (line : List Char) :
    Option (ReceivedFrame ρ) :=
  if "+RCV=".toList.isPrefixOf line then
    let parts := (line.drop "+RCV=".length).splitOn ','
    if parts.length < 5 then none
    else do
      let hexData := parts.getD 2 []
      let rssi ← float (parts.getD (parts.length - 2) [])
      let snr ← float (parts.getD (parts.length - 1) [])
      return { data := ← fromHex hexData, rssi := some rssi, snr := some snr }
  else none

/-- What the reader thread, the pump and `frames()` read and write. `yielded` is a history, and so is
`readings`, which counts how often the clock has been read. -/
structure LoRaReceiver (ρ : Type) where
  driver : Driver
  codec : SlipCodec := {}
  lineBuf : Bytes UInt8 := []
  rxQueue : List (ReceivedFrame ρ) := []
  asyncQueue : List (ReceivedFrame ρ) := []
  framesReceived : ℕ := 0
  readings : ℕ := 0
  yielded : List (ReceivedFrame ρ) := []
deriving DecidableEq

/-- What happens next: the reader thread has read some bytes, the pump takes a frame, or the
consumer does. -/
inductive ReceiverEvent where
  | read (chunk : Bytes UInt8)
  | pump
  | take
deriving DecidableEq

namespace LoRaReceiver

-- `clock n` is what `time.monotonic` returns when it is called after `n` other calls
variable {ρ : Type} (float : List Char → Option ρ) (clock : ℕ → ℚ)

/-- `_rx_queue.put` of a frame that has just been timestamped -/
def put (frame : ReceivedFrame ρ) (r : LoRaReceiver ρ) : LoRaReceiver ρ :=
  { r with
    rxQueue := r.rxQueue ++ [{ frame with timestamp := clock r.readings }]
    readings := r.readings + 1 }

/-- The body of the loop over the lines. -/
def readLine (line : Bytes UInt8) (r : LoRaReceiver ρ) : LoRaReceiver ρ :=
  match parseRylrLine float (strip (decodeUtf8 line)) with
  | some parsed => r.put clock parsed
  | none => r

/-- `while b"\n" in line_buf` -/
def readLines (lineBuf : Bytes UInt8) (r : LoRaReceiver ρ) : LoRaReceiver ρ :=
  match h : cutLine 0x0A lineBuf with
  | none => { r with lineBuf }
  | some (line, rest) =>
    have : rest.length < lineBuf.length := length_of_cutLine h
    readLines rest (r.readLine float clock line)
termination_by lineBuf.length

/-- One turn of `_read_loop`. -/
def readChunk (chunk : Bytes UInt8) (r : LoRaReceiver ρ) : LoRaReceiver ρ :=
  if chunk = [] then r
  else match r.driver with
    | .slip =>
      let (codec, frames) := r.codec.feed chunk
      frames.foldl (fun r frame => r.put clock { data := frame }) { r with codec }
    | .rylr => r.readLines float clock (r.lineBuf ++ chunk)

/-- One turn of `_pump`. -/
def pump (r : LoRaReceiver ρ) : LoRaReceiver ρ :=
  match r.rxQueue with
  | [] => r
  | item :: rest =>
    { r with
      rxQueue := rest
      framesReceived := r.framesReceived + 1
      asyncQueue := r.asyncQueue ++ [item] }

/-- One turn of `frames()`. -/
def take (r : LoRaReceiver ρ) : LoRaReceiver ρ :=
  match r.asyncQueue with
  | [] => r
  | item :: rest => { r with asyncQueue := rest, yielded := r.yielded ++ [item] }

def step (r : LoRaReceiver ρ) : ReceiverEvent → LoRaReceiver ρ
  | .read chunk => r.readChunk float clock chunk
  | .pump => r.pump
  | .take => r.take

def run (driver : Driver) (events : List ReceiverEvent) : LoRaReceiver ρ :=
  events.foldl (step float clock) { driver }

end LoRaReceiver

/-- The bytes that an event reads. -/
def ReceiverEvent.bytes : ReceiverEvent → Bytes UInt8
  | .read chunk => chunk
  | _ => []

/-- The bytes that have been read. -/
def bytesRead (events : List ReceiverEvent) : Bytes UInt8 := events.flatMap ReceiverEvent.bytes

end Chatbit
