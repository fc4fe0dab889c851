import Mathlib.Logic.Equiv.List
import Mathlib.Tactic.DeriveEncodable
import Chatbit.NodeNetworkTheorems

/-!
# Safety numbers

The number that two users compare out of band, `safety_number` of `chatbit/crypto/identity.py`. It
is computed from the two fingerprints in sorted order. Two honest users who hold each other's keys
always see the same number, and where two users see the same number, either they hold each other's
keys or the digits of two different pairs of fingerprints have collided.
-/

namespace Chatbit

open Lib

variable {ι β X E τ : Type} [Alphabet β] [DecidableEq β] (P : Primitives β X E)

/-! ## The number -/

/-- `f"{b:03d}"` -/
def decimal3 (b : UInt8) : List Char :=
  [Nat.digitChar (b.toNat / 100), Nat.digitChar (b.toNat / 10 % 10), Nat.digitChar (b.toNat % 10)]

/-- The number that is made of the two fingerprints, one after the other. -/
def safetyDigits (ikm : Bytes β) : String :=
  let digest := P.hkdf ikm [] (ascii "chatbit/v1 safety-number") 30
  let digits := (digest.flatMap fun b => (decimal3 (toOctet b)).drop 1).take 60
  let digits := digits ++ List.replicate (60 - digits.length) '0'
  String.intercalate " " ((List.range 12).map fun i => String.ofList ((digits.drop (5 * i)).take 5))

section Order

-- the order of byte strings; for strings of octets it is the lexicographic one
variable (le : Bytes β → Bytes β → Prop) [DecidableRel le]

/-- `lo + hi` of `sorted([a_fingerprint, b_fingerprint])` -/
def sortedPair (aFingerprint bFingerprint : Bytes β) : Bytes β :=
  if le aFingerprint bFingerprint then aFingerprint ++ bFingerprint
  else bFingerprint ++ aFingerprint

def safetyNumber (aFingerprint bFingerprint : Bytes β) : String :=
  safetyDigits P (sortedPair le aFingerprint bFingerprint)

def Identity.fingerprint (identity : Identity X E) : Bytes β :=
  fingerprintFromKeys P (identity.signingPublic P) (identity.staticPublic P)

/-- The number that both sides compare out of band to detect a man in the middle. -/
def Node.safetyNumberWith {T : Transport β τ} (node : Node T X E) (signingPublic : Bytes β) :
    Option String :=
  (node.sessions.trust.get signingPublic).map fun peer =>
    safetyNumber P le (node.sessions.identity.fingerprint P) (peer.fingerprint P)

variable {P le}

omit [Alphabet β] [DecidableEq β] in
lemma sortedPair_comm [Std.Total le] [Std.Antisymm le] (a b : Bytes β) :
    sortedPair le a b = sortedPair le b a := by
  unfold sortedPair
  by_cases hab : le a b
  · by_cases hba : le b a
    · obtain rfl := Std.Antisymm.antisymm a b hab hba
      rfl
    · rw [if_pos hab, if_neg hba]
  · have hba : le b a := (Std.Total.total a b).resolve_left hab
    rw [if_neg hab, if_pos hba]

omit [Alphabet β] [DecidableEq β] in
/-- Of fingerprints of one length, the pair can be told, but not which is whose. -/
lemma sortedPair_inj {a b c d : Bytes β} (hab : a.length = b.length) (hac : a.length = c.length)
    (had : a.length = d.length) (h : sortedPair le a b = sortedPair le c d) :
    (a = c ∧ b = d) ∨ (a = d ∧ b = c) := by
  unfold sortedPair at h
  split_ifs at h
  · exact Or.inl (List.append_inj h hac)
  · exact Or.inr (List.append_inj h had)
  · obtain ⟨hbc, had⟩ := List.append_inj h (hab.symm.trans hac)
    exact Or.inr ⟨had, hbc⟩
  · obtain ⟨hbd, hac⟩ := List.append_inj h (hab.symm.trans had)
    exact Or.inl ⟨hac, hbd⟩

omit [DecidableEq β] in
lemma fingerprint_inj (hH : P.HashIdeal) {k k' s s' : Bytes β} (hk : k.length = k'.length)
    (h : fingerprintFromKeys P k s = fingerprintFromKeys P k' s') : k = k' ∧ s = s' := by
  have hkeys := hH.sha256_inj _ _ h
  rw [List.append_assoc, List.append_assoc] at hkeys
  exact List.append_inj (List.append_cancel_left hkeys) hk

omit [Alphabet β] in
lemma TrustStore.signingPublic_of_get {store : TrustStore β} {k : Bytes β} {p : PeerIdentity β}
    (h : store.get k = some p) : p.signingPublic = k := by
  obtain ⟨ref, href, hobject⟩ := Option.bind_eq_some_iff.mp h
  obtain ⟨p', hp', hkey⟩ := TrustStore.object_of_get? href
  obtain rfl := Option.some.inj (hobject.symm.trans hp')
  exact hkey

namespace NodeWorld

variable [DecidableEq ι] {T : ι → Transport β τ} {identity : ι → Identity X E}
  {w : NodeWorld T X E} {a b : ι}

/-- The number that `a` sees for a peer. -/
lemma Right.safetyNumberWith (hP : P.Correct) (hw : w.Right P identity) {k : Bytes β}
    {p : PeerIdentity β} (hp : (w.node a).sessions.trust.get k = some p) :
    (w.node a).safetyNumberWith P le k =
      some (safetyNumber P le ((identity a).fingerprint P)
        (fingerprintFromKeys P k p.staticPublic)) := by
  have hid : (w.node a).sessions.identity = identity a := (hw.managers.ok hP).identity_eq a
  rw [Node.safetyNumberWith, hp, hid, Option.map_some, PeerIdentity.fingerprint,
    TrustStore.signingPublic_of_get hp]

lemma Right.length_of_get (hw : w.Right P identity) {k : Bytes β} {p : PeerIdentity β}
    (hp : (w.node a).sessions.trust.get k = some p) : k.length = 32 := by
  obtain ⟨ref, -, hobject⟩ := Option.bind_eq_some_iff.mp hp
  rw [← TrustStore.signingPublic_of_get hp]
  exact (hw.trust a ref p hobject).1

/-- Two users that hold each other's true keys see the same number. -/
lemma Right.safetyNumberWith_comm [Std.Total le] [Std.Antisymm le] (hP : P.Correct)
    (hw : w.Right P identity) {p q : PeerIdentity β}
    (hp : (w.node a).sessions.trust.get ((identity b).signingPublic P) = some p)
    (hq : (w.node b).sessions.trust.get ((identity a).signingPublic P) = some q)
    (hps : p.staticPublic = (identity b).staticPublic P)
    (hqs : q.staticPublic = (identity a).staticPublic P) :
    (w.node a).safetyNumberWith P le ((identity b).signingPublic P) =
      (w.node b).safetyNumberWith P le ((identity a).signingPublic P) := by
  rw [hw.safetyNumberWith hP hp, hw.safetyNumberWith hP hq, hps, hqs, Option.some_inj, safetyNumber,
    safetyNumber]
  exact congrArg (safetyDigits P) (sortedPair_comm _ _)

/-- Two users with different keys whose numbers are made of the same fingerprints hold each other's
keys. -/
lemma Right.owners_of_sortedPair (hP : P.Correct) (hH : P.HashIdeal) (hw : w.Right P identity)
    (hab : (identity a).signingPublic P ≠ (identity b).signingPublic P) {k k' : Bytes β}
    {p q : PeerIdentity β} (hp : (w.node a).sessions.trust.get k = some p)
    (hq : (w.node b).sessions.trust.get k' = some q)
    (hpair : sortedPair le ((identity a).fingerprint P) (fingerprintFromKeys P k p.staticPublic) =
      sortedPair le ((identity b).fingerprint P) (fingerprintFromKeys P k' q.staticPublic)) :
    (k = (identity b).signingPublic P ∧ p.staticPublic = (identity b).staticPublic P) ∧
      (k' = (identity a).signingPublic P ∧ q.staticPublic = (identity a).staticPublic P) := by
  have hlen : ∀ a, ((identity a).signingPublic P).length = 32 :=
    fun a => hP.length_ed25519Public _
  have hsha : ∀ k s k' s' : Bytes β, (fingerprintFromKeys P k s).length =
      (fingerprintFromKeys P k' s').length :=
    fun _ _ _ _ => (hP.length_sha256 _).trans (hP.length_sha256 _).symm
  rcases sortedPair_inj (hsha _ _ _ _) (hsha _ _ _ _) (hsha _ _ _ _) hpair with
    ⟨hown, -⟩ | ⟨hleft, hright⟩
  · exact absurd (fingerprint_inj hH ((hlen a).trans (hlen b).symm) hown).1 hab
  · obtain ⟨hk', hs'⟩ := fingerprint_inj hH ((hlen a).trans (hw.length_of_get hq).symm) hleft
    obtain ⟨hk, hs⟩ := fingerprint_inj hH ((hw.length_of_get hp).trans (hlen b).symm) hright
    exact ⟨⟨hk, hs⟩, hk'.symm, hs'.symm⟩

/-- Unless the user has re-pinned it, the static key under the key of `b` is that of `b`. -/
lemma Right.static_of_get (hw : w.Right P identity) {p : PeerIdentity β}
    (hp : (w.node a).sessions.trust.get ((identity b).signingPublic P) = some p)
    (hpinned : (a, (identity b).signingPublic P, p.staticPublic) ∉ w.repinned) :
    p.staticPublic = (identity b).staticPublic P := by
  obtain ⟨ref, -, hobject⟩ := Option.bind_eq_some_iff.mp hp
  have hkey := TrustStore.signingPublic_of_get hp
  refine ((hw.trust a ref p hobject).2 b hkey.symm).resolve_right ?_
  rw [hkey]
  exact hpinned

/-- Whatever the network has done: if two users hold each other's signing keys, and have not
re-pinned them, they see the same safety number. And if the numbers that two users with different
keys see for two peers are the same, then each of these peers is the other user, with the static key
that is really his, or the digits of the two pairs of fingerprints collide. -/
theorem safety_numbers [Std.Total le] [Std.Antisymm le] (hP : P.Correct) (hH : P.HashIdeal)
    (hw : w.Reachable P identity) {k k' : Bytes β}
    {p q : PeerIdentity β} (hp : (w.node a).sessions.trust.get k = some p)
    (hq : (w.node b).sessions.trust.get k' = some q) :
    (k = (identity b).signingPublic P → k' = (identity a).signingPublic P →
      (a, k, p.staticPublic) ∉ w.repinned → (b, k', q.staticPublic) ∉ w.repinned →
      (w.node a).safetyNumberWith P le k = (w.node b).safetyNumberWith P le k') ∧
    ((identity a).signingPublic P ≠ (identity b).signingPublic P →
      (w.node a).safetyNumberWith P le k = (w.node b).safetyNumberWith P le k' →
      (k = (identity b).signingPublic P ∧ p.staticPublic = (identity b).staticPublic P) ∧
        (k' = (identity a).signingPublic P ∧ q.staticPublic = (identity a).staticPublic P) ∨
      ∃ ikm ikm' : Bytes β,
        ikm = sortedPair le ((identity a).fingerprint P)
          (fingerprintFromKeys P k p.staticPublic) ∧
        ikm' = sortedPair le ((identity b).fingerprint P)
          (fingerprintFromKeys P k' q.staticPublic) ∧
        ikm ≠ ikm' ∧ safetyDigits P ikm = safetyDigits P ikm') := by
  have hright := hw.right hP hH
  constructor
  · rintro rfl rfl hpinned hpinned'
    exact hright.safetyNumberWith_comm hP hp hq (hright.static_of_get hp hpinned)
      (hright.static_of_get hq hpinned')
  · intro hab
    -- equal numbers are those of equal pairs, unless the digits collide
    rw [hright.safetyNumberWith hP hp, hright.safetyNumberWith hP hq, Option.some_inj,
      or_iff_not_imp_right]
    intro hnumber hcollision
    have hpair : sortedPair le ((identity a).fingerprint P)
          (fingerprintFromKeys P k p.staticPublic) =
        sortedPair le ((identity b).fingerprint P)
          (fingerprintFromKeys P k' q.staticPublic) := by
      by_contra hne
      exact hcollision ⟨_, _, rfl, rfl, hne, hnumber⟩
    exact hright.owners_of_sortedPair hP hH hab hp hq hpair

end NodeWorld

end Order

/-! ## Alice and Bob compare -/

instance encodableOctet : Encodable UInt8 :=
  Encodable.ofLeftInverse UInt8.toNat UInt8.ofNat fun _ => UInt8.ofNat_toNat

deriving instance Encodable for SymOp, SymByte

/-- An order of symbolic byte strings. -/
def symbolicLe (a b : Bytes SymByte) : Prop := Encodable.encode a ≤ Encodable.encode b

instance : DecidableRel symbolicLe := fun a b =>
  inferInstanceAs (Decidable (Encodable.encode a ≤ Encodable.encode b))

instance : Std.Total symbolicLe := ⟨fun _ _ => le_total _ _⟩

instance : Std.Antisymm symbolicLe :=
  ⟨fun _ _ hab hba => Encodable.encode_injective (le_antisymm hab hba)⟩

namespace NodeWorld

open LabelRun SessionManager.Meeting

/-- The record of the other user. -/
def recordOf (a : Bool) : PeerIdentity SymByte where
  signingPublic := (identities !a).signingPublic symbolic
  staticPublic := (identities !a).staticPublic symbolic

/-- Alice and Bob have pinned each other before. -/
def acquainted : NodeWorld (fun _ : Bool => Node.openLink) ℕ ℕ where
  node a := Node.new Node.openLink {} () (identities a) ((TrustStore.empty none).add (recordOf a))
    none (fun _ => .ok ()) Node.aliceNode.capacity_eq

lemma object_acquainted {a : Bool} {ref : PeerRef} {p : PeerIdentity SymByte}
    (h : ((TrustStore.empty none).add (recordOf a)).object ref = some p) : p = recordOf a := by
  rcases TrustStore.object_add (TrustStore.empty none) _ h with h | ⟨-, h⟩
  · cases h
  · exact h

lemma starts_acquainted : Starts symbolic identities acquainted.node := by
  refine ⟨fun a => ⟨_, rfl, fun ref p hp => ?_⟩, fun _ => rfl⟩
  obtain rfl := object_acquainted hp
  refine ⟨symbolic_correct.length_ed25519Public _, fun b hb => ?_⟩
  obtain rfl : b = !a := by
    cases a <;> cases b <;> first | rfl | exact absurd (SymByte.signingKey_inj hb) (by decide)
  rfl

lemma reachable_acquainted : acquainted.Reachable symbolic identities :=
  ⟨acquainted.node, starts_acquainted, .refl _⟩

/-- Alice and Bob see the same number. -/
theorem safety_numbers_meeting :
    (acquainted.node false).safetyNumberWith symbolic symbolicLe (bob.signingPublic symbolic) =
      (acquainted.node true).safetyNumberWith symbolic symbolicLe (alice.signingPublic symbolic) :=
  (safety_numbers symbolic_correct symbolic_hashIdeal reachable_acquainted
    (show _ = some (recordOf false) by decide +kernel)
    (show _ = some (recordOf true) by decide +kernel)).1 rfl rfl List.not_mem_nil List.not_mem_nil

end NodeWorld

end Chatbit
