import Chatbit.Lib.Method
import Chatbit.Lib.OrderedDict
import Chatbit.Crypto.Primitives

/-!
# Identities and pinned peers

`chatbit/crypto/identity.py`, less the files. Sessions share the `PeerIdentity` objects of the
trust store, and the store changes them in place, so the store keeps its objects in a list and
hands out positions in it (`PeerRef`). What `_save` writes is kept in `file`.
-/

namespace Chatbit

open Lib

variable {β X E : Type} [Alphabet β] [DecidableEq β]

def SIG_DOMAIN : Bytes β := ascii "chatbit/v1 identity-binding"

/-- `raw.hex()` -/
def hex (raw : Bytes β) : String :=
  String.ofList (raw.flatMap fun b =>
    [Nat.digitChar ((toOctet b).toNat / 16), Nat.digitChar ((toOctet b).toNat % 16)])

def fingerprintFromKeys (P : Primitives β X E) (ed25519Pub x25519Pub : Bytes β) : Bytes β :=
  P.sha256 (ascii "chatbit/v1 fingerprint" ++ ed25519Pub ++ x25519Pub)

/-! ## Our own identity -/

structure Identity (X E : Type) where
  signingPrivate : E
  staticPrivate : X
  nickname : String := "anon"
deriving DecidableEq

namespace Identity

variable (P : Primitives β X E) (identity : Identity X E)

def signingPublic : Bytes β := P.ed25519PublicBytes identity.signingPrivate

def staticPublic : Bytes β := P.x25519PublicBytes identity.staticPrivate

def signTranscript (handshakeHash : Bytes β) : Bytes β :=
  P.sign identity.signingPrivate (SIG_DOMAIN ++ handshakeHash)

end Identity

/-! ## Peers -/

structure PeerIdentity (β : Type) where
  signingPublic : Bytes β
  staticPublic : Bytes β
  nickname : String := ""
  verified : Bool := false
  firstSeen : ℚ := 0
deriving DecidableEq

namespace PeerIdentity

variable (P : Primitives β X E) (peer : PeerIdentity β)

def fingerprint : Bytes β := fingerprintFromKeys P peer.signingPublic peer.staticPublic

def shortId : String := hex ((peer.fingerprint P).take 4)

def verifyTranscript (handshakeHash signature : Bytes β) : Bool :=
  P.verify peer.signingPublic signature (SIG_DOMAIN ++ handshakeHash)

end PeerIdentity

/-- A reference to a `PeerIdentity` object of the trust store. -/
abbrev PeerRef := ℕ

/-! ## The trust store -/

/-- Pinned peers, keyed by their signing key. `keyed` says that each entry refers to an object with
that signing key. -/
structure TrustStore (β : Type) where
  path : Option String
  objects : List (PeerIdentity β)
  peers : OrderedDict (Bytes β) PeerRef
  file : Option (List (PeerIdentity β))
  keyed : ∀ e ∈ peers.entries, ∃ p, objects[e.2]? = some p ∧ p.signingPublic = e.1

namespace TrustStore

def empty (path : Option String) : TrustStore β where
  path := path
  objects := []
  peers := .empty
  file := none
  keyed := by simp [OrderedDict.empty]

variable (store : TrustStore β)

/-- The object that a reference refers to. -/
def object (ref : PeerRef) : Option (PeerIdentity β) := store.objects[ref]?

def get (signingPublic : Bytes β) : Option (PeerIdentity β) :=
  (store.peers.get? signingPublic).bind store.object

/-- `list(self._peers.values())` -/
def all : List (PeerIdentity β) := store.peers.values.filterMap store.object

/-- `_save` -/
def save : TrustStore β :=
  match store.path with
  | none => store
  | some _ => { store with file := some store.all }

/-- `self._peers[peer.signing_public] = peer` of a new object. -/
def add (peer : PeerIdentity β) : TrustStore β where
  path := store.path
  objects := store.objects ++ [peer]
  peers := store.peers.set peer.signingPublic store.objects.length
  file := store.file
  keyed := by
    rintro ⟨k, ref⟩ he
    rcases OrderedDict.mem_set.mp he with ⟨rfl, rfl⟩ | ⟨-, he⟩
    · exact ⟨peer, by simp, rfl⟩
    · obtain ⟨p, hp, hk⟩ := store.keyed _ he
      exact ⟨p, (List.getElem?_append_left (List.getElem?_eq_some_iff.mp hp).1).trans hp, hk⟩

/-- Assign to fields of an object, other than its signing key. -/
def modify (ref : PeerRef) (f : PeerIdentity β → PeerIdentity β)
    (hf : ∀ p, (f p).signingPublic = p.signingPublic) : TrustStore β where
  path := store.path
  objects := store.objects.modify ref f
  peers := store.peers
  file := store.file
  keyed := by
    intro e he
    obtain ⟨p, hp, hk⟩ := store.keyed e he
    rw [List.getElem?_modify, hp]
    by_cases hr : ref = e.2
    · exact ⟨f p, by simp [hr], (hf p).trans hk⟩
    · exact ⟨p, by simp [hr], hk⟩

/-- `self._peers.pop(signing_public, None)` -/
def erase (signingPublic : Bytes β) : TrustStore β where
  path := store.path
  objects := store.objects
  peers := store.peers.erase signingPublic
  file := store.file
  keyed := fun e he => store.keyed e (OrderedDict.mem_erase.mp he).2

/-- Record a peer seen in a signature-verified handshake. -/
def observe (P : Primitives β X E) (signingPublic staticPublic : Bytes β) (nickname : String)
    (now : ℚ) : Method (Exc β) (TrustStore β) PeerRef := do
  let store ← Method.self
  match store.peers.get? signingPublic with
  | none =>
    Method.update fun store => store.add
      { signingPublic := signingPublic, staticPublic := staticPublic, nickname := nickname,
        verified := false, firstSeen := now }
    Method.update save
    return store.objects.length
  | some ref =>
    match store.object ref with
    | none => Method.raise .assertionError -- excluded by `keyed`
    | some existing =>
      if existing.staticPublic ≠ staticPublic then
        Method.raise (.keyChangedError
          (if existing.nickname ≠ "" then existing.nickname else existing.shortId P)
          existing.staticPublic staticPublic)
      else if nickname ≠ "" ∧ nickname ≠ existing.nickname then
        Method.update fun store =>
          (store.modify ref (fun p => { p with nickname := nickname }) fun _ => rfl).save
        return ref
      else return ref

/-- An assignment to fields of the object of a known peer, and `_save`. -/
def change (signingPublic : Bytes β) (unknown : String) (f : PeerIdentity β → PeerIdentity β)
    (hf : ∀ p, (f p).signingPublic = p.signingPublic) :
    Method (Exc β) (TrustStore β) PeerRef := do
  let store ← Method.self
  match store.peers.get? signingPublic with
  | none => Method.raise (.trustError unknown)
  | some ref =>
    Method.update fun store => (store.modify ref f hf).save
    return ref

/-- Record that the user compared safety numbers out of band. -/
def markVerified (signingPublic : Bytes β) : Method (Exc β) (TrustStore β) PeerRef :=
  change signingPublic "cannot verify an unknown peer" (fun p => { p with verified := true })
    fun _ => rfl

/-- Deliberately accept a changed key, dropping verified status. -/
def repin (signingPublic staticPublic : Bytes β) : Method (Exc β) (TrustStore β) PeerRef :=
  change signingPublic "cannot re-pin an unknown peer"
    (fun p => { p with staticPublic := staticPublic, verified := false }) fun _ => rfl

def forget (signingPublic : Bytes β) : Method (Exc β) (TrustStore β) Unit :=
  Method.update fun store => (store.erase signingPublic).save

end TrustStore

end Chatbit
