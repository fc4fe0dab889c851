import Chatbit.Crypto.Hex
import Chatbit.Crypto.SharedTrust

/-!
# The trust file

What `_save` writes and `_load` reads, as the JSON values they are: keys are in hex, and three of
the fields of a peer may be missing. JSON itself keeps these values, and replacing the file is
atomic (`TrustRestarts` shows both). A store never gets ahead of its file: every change is written
before the call that made it is over (`reopen_after`).
-/

namespace Chatbit

open Lib

variable {X E : Type}

/-! ## The file -/

/-- An item of the list `peers` of the file. -/
structure PeerEntry where
  signingPublic : String
  staticPublic : String
  nickname : Option String
  verified : Option Bool
  firstSeen : Option ℚ
deriving DecidableEq

/-- What `_save` writes of a peer. -/
def PeerIdentity.toEntry (peer : PeerIdentity UInt8) : PeerEntry where
  signingPublic := hex peer.signingPublic
  staticPublic := hex peer.staticPublic
  nickname := some peer.nickname
  verified := some peer.verified
  firstSeen := some peer.firstSeen

/-- What `_load` makes of an item; `none` where it raises. -/
def PeerEntry.toPeer (entry : PeerEntry) : Option (PeerIdentity UInt8) := do
  return {
    signingPublic := ← fromHex entry.signingPublic.toList
    staticPublic := ← fromHex entry.staticPublic.toList
    nickname := entry.nickname.getD ""
    verified := entry.verified.getD false
    firstSeen := entry.firstSeen.getD 0 }

/-- Reading inverts writing. -/
lemma PeerIdentity.toPeer_toEntry (peer : PeerIdentity UInt8) :
    peer.toEntry.toPeer = some peer := by
  unfold PeerEntry.toPeer toEntry
  simp only [fromHex_hex]
  rfl

namespace TrustStore

variable {path : String} {initial : Option (List PeerEntry)} {store store₀ : TrustStore UInt8}

/-- `TrustStore(path)`, where `disk` is what the file holds if it exists; `none` where it raises.
The new store has written nothing. -/
def openFile (path : String) (disk : Option (List PeerEntry)) : Option (TrustStore UInt8) := do
  match disk with
  | none => return empty (some path)
  | some entries => return { load path (some (← entries.mapM PeerEntry.toPeer)) with file := none }

/-- What the file holds: what the store wrote last, or what was there before. -/
def onDisk (initial : Option (List PeerEntry)) (store : TrustStore UInt8) :
    Option (List PeerEntry) :=
  match store.file with
  | none => initial
  | some peers => some (peers.map PeerIdentity.toEntry)

/-- The store after some calls, each of which returned or raised. -/
def afterOps (P : Primitives UInt8 X E) (ops : List (TrustOp UInt8)) (store : TrustStore UInt8) :
    TrustStore UInt8 := ops.foldl (fun store op => (op.run P store).2) store

/-- The file reads as the store. -/
def Synced (path : String) (initial : Option (List PeerEntry)) (store : TrustStore UInt8) : Prop :=
  ∃ loaded, openFile path (onDisk initial store) = some loaded ∧ loaded.all = store.all

lemma mapM_toEntry (peers : List (PeerIdentity UInt8)) :
    (peers.map PeerIdentity.toEntry).mapM PeerEntry.toPeer = some peers := by
  induction peers with
  | nil => rfl
  | cons peer peers ih =>
    rw [List.map_cons, List.mapM_cons, PeerIdentity.toPeer_toEntry, ih]
    rfl

lemma synced_save {unsaved : TrustStore UInt8} (hpath : unsaved.path = some path) :
    Synced path initial unsaved.save := by
  have hdisk : onDisk initial unsaved.save =
      some (unsaved.save.all.map PeerIdentity.toEntry) := by
    rw [onDisk, file_save hpath]
  refine ⟨{ load path (some unsaved.save.all) with file := none }, ?_,
    all_load_all path unsaved.save⟩
  rw [hdisk, openFile]
  simp only [mapM_toEntry]
  rfl

/-- A call writes what it changes. -/
lemma Synced.run (h : Synced path initial store) (hpath : store.path = some path)
    (P : Primitives UInt8 X E) (op : TrustOp UInt8) : Synced path initial (op.run P store).2 := by
  have hsaves := saves_run P store op
  revert hsaves
  generalize (op.run P store).2 = store'
  intro hsaves
  cases hsaves with
  | stays => exact h
  | saves _ _ hunsaved => exact synced_save (hunsaved.trans hpath)

lemma path_openFile {disk : Option (List PeerEntry)} (h : openFile path disk = some store) :
    store.path = some path ∧ store.file = none := by
  unfold openFile at h
  rcases disk with _ | entries
  · obtain rfl := Option.some.inj h
    exact ⟨rfl, rfl⟩
  · obtain ⟨peers, -, hload⟩ := Option.bind_eq_some_iff.mp h
    obtain rfl := Option.some.inj hload
    exact ⟨path_load path _, rfl⟩

/-- After every sequence of calls on a store with a file, the file reads as the store: the same
peers in the same order, with the same fields. -/
theorem reopen_after (P : Primitives UInt8 X E) (hopen : openFile path initial = some store₀)
    (ops : List (TrustOp UInt8)) :
    ∃ loaded, openFile path (onDisk initial (afterOps P ops store₀)) = some loaded ∧
      loaded.all = (afterOps P ops store₀).all := by
  obtain ⟨hpath, hfile⟩ := path_openFile hopen
  have hfirst : Synced path initial store₀ := ⟨store₀, by rw [onDisk, hfile, hopen], rfl⟩
  have hrun : ∀ store, Synced path initial store → store.path = some path →
      Synced path initial (afterOps P ops store) := by
    induction ops with
    | nil => exact fun store h _ => h
    | cons op ops ih =>
      exact fun store h hpath => ih _ (h.run hpath P op) ((path_run P store op).trans hpath)
  exact hrun store₀ hfirst hpath

/-- Primitives that compute nothing: the store only hashes for the text of an exception. -/
def noPrimitives : Primitives UInt8 Unit Unit where
  sha256 _ := zeros 32
  hmacSha256 _ _ := zeros 32
  chachaEncrypt _ _ plaintext _ := plaintext
  chachaDecrypt _ _ _ _ := none
  x25519PublicBytes _ := zeros 32
  exchange _ _ := zeros 32
  ed25519PublicBytes _ := zeros 32
  sign _ _ := zeros 64
  ed25519Verify _ _ _ := false

/-- A file with one peer, of whom it says no more than the keys: another key is refused, and the
first one verified. -/
theorem reopen_after_refusal :
    let initial := some [PeerEntry.mk "AB 01" "cd" none none none]
    let ops : List (TrustOp UInt8) := [.observe [0xAB, 1] [0xEE] "eve" 5, .markVerified [0xAB, 1]]
    ∃ store₀, openFile "trust.json" initial = some store₀ ∧
      ∃ loaded, openFile "trust.json" (onDisk initial (afterOps noPrimitives ops store₀)) =
          some loaded ∧ loaded.all = (afterOps noPrimitives ops store₀).all := by
  intro initial ops
  have hopen : openFile "trust.json" initial =
      some { load "trust.json" (some [⟨[0xAB, 1], [0xCD], "", false, 0⟩]) with file := none } := rfl
  exact ⟨_, hopen, reopen_after noPrimitives hopen ops⟩

end TrustStore

end Chatbit
