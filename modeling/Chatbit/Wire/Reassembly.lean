import Mathlib.Data.List.MinMax
import Mathlib.Algebra.Order.Ring.Unbundled.Rat
import Chatbit.Lib.Method
import Chatbit.Lib.OrderedDict
import Chatbit.Wire.Fragment

/-!
# Reassembly

The class `Reassembler` of `chatbit/wire/fragment.py`.
-/

namespace Chatbit

open Lib

def MAX_PENDING_MESSAGES : ℕ := 64
def MAX_MESSAGE_BYTES : ℕ := 64 * 1024
def REASSEMBLY_TIMEOUT : ℚ := 300

/-- `_Partial` -/
structure Partial (β : Type) where
  fragCount : ℕ
  ptype : PacketType
  fragments : OrderedDict ℕ (Bytes β) := .empty
  totalBytes : ℕ := 0
  firstSeen : ℚ := 0

namespace Partial

variable {β : Type} (part : Partial β)

def complete : Bool := part.fragments.length = part.fragCount

/-- `b"".join(self.fragments[i] for i in range(self.frag_count))`. It is only called when every
index has its fragment. -/
def assemble : Bytes β :=
  (List.range part.fragCount).flatMap fun i => (part.fragments.get? i).getD []

/-- The assignments that take a fragment in. -/
def insert (packet : Packet β) : Partial β :=
  { part with
    fragments := part.fragments.set packet.fragIndex packet.payload
    totalBytes := part.totalBytes + packet.payload.length }

end Partial

structure Reassembler (β : Type) where
  maxPending : ℕ := MAX_PENDING_MESSAGES
  maxBytes : ℕ := MAX_MESSAGE_BYTES
  timeout : ℚ := REASSEMBLY_TIMEOUT
  pending : OrderedDict (Bytes β) (Partial β) := .empty

namespace Reassembler

variable {β : Type} [DecidableEq β]

/-- `_expire` -/
def expire (now : ℚ) (r : Reassembler β) : Reassembler β :=
  { r with pending := r.pending.filter fun _ part => ! decide (now - part.firstSeen > r.timeout) }

def delete (msgId : Bytes β) (r : Reassembler β) : Reassembler β :=
  { r with pending := r.pending.erase msgId }

def assign (msgId : Bytes β) (part : Partial β) (r : Reassembler β) : Reassembler β :=
  { r with pending := r.pending.set msgId part }

/-- `min(self._pending, key=lambda k: self._pending[k].first_seen)` -/
def oldest (r : Reassembler β) : Option (Bytes β) :=
  (r.pending.entries.argmin fun entry => entry.2.firstSeen).map Prod.fst

/-- Make room for one more message. -/
def evict : Method (Exc β) (Reassembler β) Unit := do
  let r ← Method.self
  if r.pending.length ≥ r.maxPending then
    match r.oldest with
    | none => Method.raise (.valueError "min() iterable argument is empty")
    | some oldest => Method.update (delete oldest)

/-- The message that the packet belongs to, which it may be the first of. -/
def partialFor (packet : Packet β) (now : ℚ) : Method (Exc β) (Reassembler β) (Partial β) := do
  let r ← Method.self
  match r.pending.get? packet.msgId with
  | some part => return part
  | none =>
    evict
    let part : Partial β := {
      fragCount := packet.fragCount, ptype := packet.ptype, firstSeen := now }
    Method.update (assign packet.msgId part)
    return part

/-- What `add` does with the message that the packet belongs to. -/
def addTo (packet : Packet β) (part : Partial β) :
    Method (Exc β) (Reassembler β) (Option (Bytes β)) := do
  let r ← Method.self
  if part.fragCount ≠ packet.fragCount ∨ part.ptype ≠ packet.ptype then
    Method.update (delete packet.msgId)
    Method.raise (.reassemblyError "inconsistent fragment metadata for msg_id")
  else if packet.fragIndex ∈ part.fragments.keys then return none
  else if part.totalBytes + packet.payload.length > r.maxBytes then
    Method.update (delete packet.msgId)
    Method.raise (.reassemblyError "reassembled message would exceed the size limit")
  else
    let part := part.insert packet
    if part.complete then
      Method.update (delete packet.msgId)
      return some part.assemble
    else
      Method.update (assign packet.msgId part)
      return none

/-- Feed in a fragment. It returns the full payload once the message is complete. -/
def add (packet : Packet β) (now : ℚ) : Method (Exc β) (Reassembler β) (Option (Bytes β)) := do
  Method.update (expire now)
  if packet.fragCount = 1 then return some packet.payload
  else
    let part ← partialFor packet now
    addTo packet part

end Reassembler

end Chatbit
