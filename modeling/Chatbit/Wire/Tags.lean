import Mathlib.Data.Rat.Floor
import Chatbit.Crypto.Primitives

/-!
# Rotating recipient tags

`chatbit/wire/tags.py`. Times are exact rationals.
-/

namespace Chatbit

variable {β X E : Type} [Alphabet β] [DecidableEq β]

namespace Tags

def EPOCH_SECONDS : ℕ := 600
def EPOCH_SKEW : ℕ := 1

def tagDomain : Bytes β := ascii "chatbit/v1 tag"
def handshakeDomain : Bytes β := ascii "chatbit/v1 handshake-tag"

/-- `int(now // EPOCH_SECONDS)` -/
def currentEpoch (now : ℚ) : ℤ := (now / EPOCH_SECONDS).floor

/-- `epoch.to_bytes(8, "big")` -/
def epochBytes (epoch : ℤ) : Except (Exc β) (Bytes β) :=
  if epoch < 0 then .error (.overflowError "can't convert negative int to unsigned")
  else intToBytes 8 epoch.toNat

variable (P : Primitives β X E)

def computeTag (tagKey : Bytes β) (epoch : ℤ) : Except (Exc β) (Bytes β) := do
  let raw ← epochBytes epoch
  return (P.hmacSha256 tagKey (tagDomain ++ raw)).take 8

/-- Tag addressed to a peer there is no session with yet. -/
def handshakeTag (responderStaticPub : Bytes β) (epoch : ℤ) : Except (Exc β) (Bytes β) := do
  let raw ← epochBytes epoch
  return (P.hmacSha256 responderStaticPub (handshakeDomain ++ raw)).take 8

/-- Every tag we should currently recognise, allowing for clock skew of one epoch. -/
def acceptableTags (tagKey : Bytes β) (now : ℚ) (handshake : Bool) :
    Except (Exc β) (List (Bytes β)) :=
  let tagAt := if handshake then handshakeTag P tagKey else computeTag P tagKey
  let deltas := (List.range (2 * EPOCH_SKEW + 1)).map fun n => (n : ℤ) - EPOCH_SKEW
  deltas.mapM fun delta => tagAt (currentEpoch now + delta)

/-- `matches` -/
def tagMatches (tag tagKey : Bytes β) (now : ℚ) (handshake : Bool) : Except (Exc β) Bool := do
  let candidates ← acceptableTags P tagKey now handshake
  return tag ∈ candidates

end Tags

end Chatbit
