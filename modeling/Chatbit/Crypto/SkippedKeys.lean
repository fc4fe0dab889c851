import Chatbit.Lib.Runs
import Chatbit.Lib.Trace
import Chatbit.Crypto.RatchetErrors

/-!
# The stored keys of one ratchet

A run of one ratchet, from either constructor, under arguments of any kind: the peer is not trusted
to use its keys as the protocol has it. The methods that derive keys are written once more with a
trace of what they derive, store and delete. From it come the number of chain steps of a call, and
the list `recent` that a dictionary with the oldest key evicted first should hold.
-/

namespace Chatbit

open Lib

variable {β X E : Type} [Alphabet β] [DecidableEq β] (P : Primitives β X E)

/-- What happens to message keys: `_kdf_ck` derives one that is stored, or one that is tried at
once, or a stored one is deleted after use. -/
inductive KeyEvent (β : Type) where
  | stored (name : Bytes β × ℕ) (msgKey : Bytes β)
  | tried
  | spent (name : Bytes β × ℕ)

/-- The event is a step of a chain. -/
def KeyEvent.isChainStep : KeyEvent β → Bool
  | stored _ _ | tried => true
  | spent _ => false

namespace DoubleRatchet

/-- The state of a traced method. -/
abbrev Traced (β X : Type) := DoubleRatchet β X × List (KeyEvent β)

/-! ## Traced methods -/

def trySkippedTraced (header : MessageHeader β) (ciphertext associatedData : Bytes β) :
    Method (Exc β) (Traced β X) (Option (Bytes β)) := do
  match ← (trySkipped P header ciphertext associatedData).beside with
  | none => return none
  | some plaintext =>
    Method.emit (.spent (header.ratchetPub, header.n))
    return some plaintext

def skipLoopTraced (dhrPub : Bytes β) :
    ℕ → (ckr : Bytes β) → Method (Exc β) (Traced β X) (List (Bytes β × ℕ))
  | 0, _ => return []
  | turns + 1, ckr => do
    let s ← Method.self
    Method.emit (.stored (dhrPub, s.1.nr) (kdfCk P ckr).2)
    (Method.update fun st => skipOne P dhrPub ckr st).beside
    let popped ← skipLoopTraced dhrPub turns (kdfCk P ckr).1
    return skipOnePops P dhrPub ckr s.1 ++ popped

def skipMessageKeysTraced (until_ : ℕ) :
    Method (Exc β) (Traced β X) (List (Bytes β × ℕ)) := do
  let s ← Method.self
  match s.1.ckr with
  | none =>
    if until_ > 0 then
      Method.raise (.skippedKeyLimit "cannot skip keys with no receiving chain")
    else return []
  | some ckr =>
    if until_ - s.1.nr > MAX_SKIP then
      Method.raise (.skippedKeyLimit
        s!"message claims to skip {until_ - s.1.nr} keys (limit {MAX_SKIP})")
    else match s.1.dhrPub with
      | none => Method.raise .assertionError
      | some dhrPub => skipLoopTraced P dhrPub (until_ - s.1.nr) ckr

def decryptCurrentTraced (header : MessageHeader β) (ciphertext associatedData : Bytes β) :
    Method (Exc β) (Traced β X) (Bytes β) := do
  let s ← Method.self
  match s.1.ckr with
  | none => Method.raise (.ratchetError "no receiving chain established")
  | some _ =>
    Method.emit .tried
    (decryptCurrent P header ciphertext associatedData).beside

def beginChainTraced (header : MessageHeader β) (fresh : X) :
    Method (Exc β) (Traced β X) (List (Bytes β × ℕ)) := do
  let s ← Method.self
  if some header.ratchetPub ≠ s.1.dhrPub then
    let popped ← skipMessageKeysTraced P header.pn
    (dhRatchet P header fresh).beside
    return popped
  else return []

def trialTraced (header : MessageHeader β) (ciphertext associatedData : Bytes β) (fresh : X) :
    Method (Exc β) (Traced β X) (Bytes β × List (Bytes β × ℕ)) := do
  let popped ← beginChainTraced P header fresh
  let popped' ← skipMessageKeysTraced P header.n
  let plaintext ← decryptCurrentTraced P header ciphertext associatedData
  return (plaintext, popped ++ popped')

/-- `decrypt` with the trace of the copy it works on, which it keeps also when it raises. -/
def decryptTraced (header : MessageHeader β) (ciphertext associatedData : Bytes β) (fresh : X) :
    Method (Exc β) (Traced β X) (Bytes β) := do
  match ← trySkippedTraced P header ciphertext associatedData with
  | some plaintext => return plaintext
  | none =>
    let s ← Method.self
    match trialTraced P header ciphertext associatedData fresh s with
    | (.error e, s') =>
      Method.update fun s => (s.1, s'.2)
      Method.raise (trialError e)
    | (.ok (plaintext, _), s') =>
      Method.update fun _ => s'
      return plaintext

/-! ## Runs -/

/-- The state that either constructor returns. -/
def Constructed (st : DoubleRatchet β X) : Prop :=
  (∃ sharedKey peerRatchetPub dhs, initSender P sharedKey peerRatchetPub dhs = .ok st) ∨
    ∃ sharedKey ratchetPrivate, initReceiver sharedKey ratchetPrivate = .ok st

end DoubleRatchet

/-- A call of one of the two methods, with `keygen` returning `fresh`. -/
inductive RatchetCall (β X : Type) where
  | encrypt (plaintext associatedData : Bytes β)
  | decrypt (header : MessageHeader β) (ciphertext associatedData : Bytes β) (fresh : X)

/-- The ratchet after a call, whether it returns or raises. -/
def RatchetCall.apply (st : DoubleRatchet β X) : RatchetCall β X → DoubleRatchet β X
  | encrypt plaintext associatedData => (DoubleRatchet.encrypt P plaintext associatedData st).2
  | decrypt header ciphertext associatedData fresh =>
    (DoubleRatchet.decrypt P header ciphertext associatedData fresh st).2

/-- A ratchet and the keys that it stored most recently, the newest last, as many as it may keep. -/
structure WatchedRatchet (β X : Type) where
  ratchet : DoubleRatchet β X
  recent : List ((Bytes β × ℕ) × Bytes β) := []

namespace WatchedRatchet

/-- A key that is stored is the newest of its name; the oldest ones above the cap are forgotten. -/
def remember (recent : List ((Bytes β × ℕ) × Bytes β)) :
    KeyEvent β → List ((Bytes β × ℕ) × Bytes β)
  | .stored name msgKey =>
    let recent := recent.filter (fun entry => entry.1 ≠ name) ++ [(name, msgKey)]
    recent.drop (recent.length - MAX_SKIPPED_KEYS)
  | .tried => recent
  | .spent name => recent.filter fun entry => entry.1 ≠ name

/-- What a refused call stored was on the copy that it drops. -/
def apply (w : WatchedRatchet β X) : RatchetCall β X → WatchedRatchet β X
  | .encrypt plaintext associatedData =>
    { w with ratchet := (DoubleRatchet.encrypt P plaintext associatedData w.ratchet).2 }
  | .decrypt header ciphertext associatedData fresh =>
    match DoubleRatchet.decryptTraced P header ciphertext associatedData fresh (w.ratchet, []) with
    | (.ok _, st, events) => ⟨st, events.foldl remember w.recent⟩
    | (.error _, st, _) => ⟨st, w.recent⟩

end WatchedRatchet

namespace DoubleRatchet

/-! ## What a call stores -/

/-- The key of a message on the receiving chain, or on the chain that its ratchet key starts. -/
def headerKey (st : DoubleRatchet β X) (header : MessageHeader β) : Option (Bytes β) :=
  if st.dhrPub = some header.ratchetPub then
    st.ckr.map fun ckr => messageKey P ckr (header.n - st.nr)
  else some (messageKey P
    (kdfRk P st.rk (P.exchange st.dhsPriv header.ratchetPub)).2 header.n)

/-- The next keys of a chain that is at `ck`, with their names. -/
def keysOn (pub ck : Bytes β) (nr count : ℕ) : List ((Bytes β × ℕ) × Bytes β) :=
  (List.range count).map fun i => ((pub, nr + i), messageKey P ck i)

/-- The keys that the message skips on the chain it closes. -/
def closes (st : DoubleRatchet β X) (header : MessageHeader β) :
    List ((Bytes β × ℕ) × Bytes β) :=
  match st.dhrPub, st.ckr with
  | some old, some ckr => keysOn P old ckr st.nr (header.pn - st.nr)
  | _, _ => []

/-- The keys that the message skips: on the receiving chain, or on the one that it closes and the
one that it starts. -/
def skips (st : DoubleRatchet β X) (header : MessageHeader β) :
    List ((Bytes β × ℕ) × Bytes β) :=
  if st.dhrPub = some header.ratchetPub then
    match st.ckr with
    | some ckr => keysOn P header.ratchetPub ckr st.nr (header.n - st.nr)
    | none => []
  else closes P st header ++ keysOn P header.ratchetPub
    (kdfRk P st.rk (P.exchange st.dhsPriv header.ratchetPub)).2 0 header.n

/-- The message does not skip more than a call may. -/
def WithinLimit (st : DoubleRatchet β X) (header : MessageHeader β) : Prop :=
  if st.dhrPub = some header.ratchetPub then header.n - st.nr ≤ MAX_SKIP
  else header.n ≤ MAX_SKIP ∧
    if st.ckr = none then header.pn = 0 else header.pn - st.nr ≤ MAX_SKIP

/-- The ciphertext opens under the key that its header names, which is within reach. -/
structure Acceptable (st : DoubleRatchet β X) (header : MessageHeader β)
    (ciphertext associatedData : Bytes β) (fresh : X) : Prop where
  limit : WithinLimit st header
  secrets : st.dhrPub ≠ some header.ratchetPub → header.ratchetPub.length = DHLEN ∧
    P.exchange st.dhsPriv header.ratchetPub ≠ zeros DHLEN ∧
    P.exchange fresh header.ratchetPub ≠ zeros DHLEN
  opens : ∃ msgKey plaintext, headerKey P st header = some msgKey ∧
    openWith P msgKey header ciphertext associatedData = .ok plaintext

/-- The message comes on a chain, not with a stored key, and is acceptable. -/
def Advances (st : DoubleRatchet β X) (header : MessageHeader β)
    (ciphertext associatedData : Bytes β) (fresh : X) : Prop :=
  st.skipped.get? (header.ratchetPub, header.n) = none ∧
    Acceptable P st header ciphertext associatedData fresh

/-- No message that advances the ratchet skips a key under the name of a stored one. -/
def StoresNew (st : DoubleRatchet β X) : RatchetCall β X → Prop
  | .encrypt _ _ => True
  | .decrypt header ciphertext associatedData fresh =>
    Advances P st header ciphertext associatedData fresh →
      ∀ entry ∈ skips P st header, entry.1 ∉ st.skipped.keys

/-- No message that advances the ratchet skips, together with what is stored already, more than
the limit of keys for one ratchet key. -/
def StoresFew (st : DoubleRatchet β X) : RatchetCall β X → Prop
  | .encrypt _ _ => True
  | .decrypt header ciphertext associatedData fresh =>
    Advances P st header ciphertext associatedData fresh →
      ∀ pub, ((st.skipped.keys ++ (skips P st header).map Prod.fst).dedup.filter fun name =>
        name.1 = pub).length ≤ MAX_SKIP

end DoubleRatchet

end Chatbit
