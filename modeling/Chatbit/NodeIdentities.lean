import Mathlib.Data.Finset.Card
import Mathlib.Data.List.Perm.Subperm
import Mathlib.Data.List.TakeWhile
import Mathlib.Data.Set.Finite.Lattice
import Mathlib.Data.Set.Finite.List
import Chatbit.Crypto.Octets
import Chatbit.NodeBeacons
import Chatbit.SessionKeys

/-!
# The identities that a node hears of

What arrives at a node is signed by at most one identity: a beacon, a RESP or a FIN
(`Node.signers`). The discovered peers, the pinned peers and the sessions are filed under the keys
of these identities. So besides what the configuration limits, there are as many entries as
identities were heard of in the run, or were known to begin with, and no limit but their number
(`Node.bounded_by_identities`).
-/

namespace Chatbit

open Lib Method

variable {β X E τ : Type} [Alphabet β] [DecidableEq β] {P : Primitives β X E}

namespace Node

variable {T : Transport β τ}

/-! ## Who has signed -/

/-- The identity that a beacon is of, if it is long enough and signed. -/
def beaconSigner (P : Primitives β X E) (payload : Bytes β) : Option (Bytes β) :=
  if 32 + 32 + 8 + 64 + 1 ≤ payload.length ∧ (beaconCandidate payload).verifyTranscript P
      (payload.take 72) ((payload.drop 72).take 64) = true then
    some (beaconCandidate payload).signingPublic
  else none

/-- The identities whose signatures an event hands to the node, in a beacon or in a handshake. -/
def signers (P : Primitives β X E) (node : Node T X E) (event : InboundEvent β X) :
    List (Bytes β) :=
  ((node.beaconOf P (.inbound event)).bind (beaconSigner P)).toList ++
    ((node.callOf P (.inbound event)).bind (node.sessions.callSigner P)).toList

/-- The identities that the node hears of, one after the other. -/
def identities (P : Primitives β X E) (node : Node T X E) :
    List (InboundEvent β X) → List (Bytes β)
  | [] => []
  | event :: events => node.signers P event ++ (inbound P node event).identities P events

/-! ## What is filed under their keys -/

/-- The node has filed what it keeps of others under keys of `K`. -/
structure KeysIn (K : Set (Bytes β)) (node : Node T X E) : Prop where
  discovered : ∀ k ∈ node.discovered.keys, k ∈ K
  sessions : node.sessions.KeysIn K

variable {K : Set (Bytes β)} {node : Node T X E}

lemma KeysIn.inbound (h : node.KeysIn K) {event : InboundEvent β X}
    (hsigners : ∀ k ∈ node.signers P event, k ∈ K) : (inbound P node event).KeysIn K := by
  have hsessions := sessions_step (P := P) node (.inbound event)
  constructor
  · rcases discovered_step (P := P) node (.inbound event) with hsame | ⟨payload, hbeacon, hfinds⟩
    · show ∀ k ∈ (node.step P (.inbound event)).discovered.keys, k ∈ K
      rw [hsame]
      exact h.discovered
    rcases hfinds with hsame | ⟨hintroduces, hset⟩
    · show ∀ k ∈ (node.step P (.inbound event)).discovered.keys, k ∈ K
      rw [hsame]
      exact h.discovered
    · -- the beacon that adds an entry is signed under its key
      have hsigner : beaconSigner P payload = some (beaconCandidate payload).signingPublic :=
        if_pos ⟨hintroduces.length, hintroduces.verified⟩
      show ∀ k ∈ (node.step P (.inbound event)).discovered.keys, k ∈ K
      rw [hset]
      intro k hk
      rcases OrderedDict.mem_keys_set_iff.mp hk with rfl | hk
      · apply hsigners
        apply List.mem_append_left
        rw [hbeacon, Option.bind_some, hsigner]
        exact List.mem_singleton_self _
      · exact h.discovered k hk
  · show (node.step P (.inbound event)).sessions.KeysIn K
    rw [hsessions]
    rcases hcall : node.callOf P (.inbound event) with _ | c
    · exact h.sessions
    · refine h.sessions.call fun k hk => hsigners k (List.mem_append_right _ ?_)
      rw [hcall, Option.bind_some, hk]
      exact List.mem_singleton_self _

lemma KeysIn.foldl_inbound (h : node.KeysIn K) {events : List (InboundEvent β X)}
    (hidentities : ∀ k ∈ node.identities P events, k ∈ K) :
    (events.foldl (Node.inbound P) node).KeysIn K := by
  induction events generalizing node with
  | nil => exact h
  | cons event events ih =>
    exact ih (h.inbound fun k hk => hidentities k (List.mem_append_left _ hk))
      fun k hk => hidentities k (List.mem_append_right _ hk)

omit [Alphabet β] in
/-- Filed under keys of two kinds. -/
lemma length_le_of_keys {V : Type} {d : OrderedDict (Bytes β) V} {heard known : List (Bytes β)}
    (h : ∀ k ∈ d.keys, k ∈ heard ∨ k ∈ known) : d.length ≤ heard.dedup.length + known.length := by
  rw [← d.length_keys, ← List.length_append]
  apply (d.nodup_keys.subperm _).length_le
  intro k hk
  exact List.mem_append.mpr ((h k hk).imp_left List.mem_dedup.mpr)

/-- The entries of the seven collections are limited by the configuration, what the trust store held
to begin with and the number of identities that the node has heard of. -/
lemma sizes_foldl_inbound (mesh : MeshConfig) (transport : τ) (identity : Identity X E)
    (trust : TrustStore β) (onMessage : Option (IncomingMessage β → Except (Exc β) Unit))
    (onEvent : Event β → Except (Exc β) Unit) {capacity : ℕ}
    (hcapacity : capacityFor (β := β) T.mtu HEADER_LEN = .ok capacity)
    (events : List (InboundEvent β X)) :
    let node := new T mesh transport identity trust onMessage onEvent hcapacity
    ∀ size ∈ (events.foldl (Node.inbound P) node).sizes, size ≤ limits mesh +
      ((node.identities P events).dedup.length + trust.objects.length) := by
  intro node
  have hbounded : (events.foldl (Node.inbound P) node).Bounded mesh :=
    (bounded_new mesh transport identity trust onMessage onEvent hcapacity).foldl_inbound events
  have hnew : node.KeysIn {k | k ∈ node.identities P events ∨
      k ∈ trust.objects.map PeerIdentity.signingPublic} :=
    ⟨fun _ hmem => absurd hmem List.not_mem_nil,
      fun p hp => Or.inr (List.mem_map_of_mem hp), fun _ hmem => absurd hmem List.not_mem_nil⟩
  have hkeys := hnew.foldl_inbound (P := P) fun k hk => Or.inl hk
  have hlength : ∀ {V : Type} {d : OrderedDict (Bytes β) V}, (∀ k ∈ d.keys,
      k ∈ node.identities P events ∨ k ∈ trust.objects.map PeerIdentity.signingPublic) →
      d.length ≤ (node.identities P events).dedup.length + trust.objects.length := by
    intro V d hd
    exact (length_le_of_keys hd).trans_eq (congrArg _ (List.length_map _))
  exact hbounded.sizes_le (hlength hkeys.discovered) (hlength hkeys.sessions.trust.peers)
    (hlength hkeys.sessions.sessions)

/-! ## As many as there are -/

omit [Alphabet β] [DecidableEq β] in
/-- There is a later time when the cache has forgotten every frame. -/
lemma exists_forgotten (cache : DedupCache β) (t : ℚ) :
    ∃ now, t ≤ now ∧ ∀ key, key ∉ (cache.expire now).seen.keys := by
  obtain ⟨last, hlast⟩ : BddAbove {stamp | stamp ∈ cache.seen.values} :=
    (List.finite_toSet _).bddAbove
  refine ⟨max t (last + cache.ttl + 1), le_max_left _ _, fun key hkey => ?_⟩
  have hall : ∀ entry ∈ cache.seen.entries,
      decide (entry.2 < max t (last + cache.ttl + 1) - cache.ttl) = true := by
    intro entry hentry
    have hle : entry.2 ≤ last := hlast (List.mem_map_of_mem hentry)
    have hmax := le_max_right t (last + cache.ttl + 1)
    rw [decide_eq_true_eq]
    linarith
  have hnone : (cache.expire (max t (last + cache.ttl + 1))).seen.entries = [] :=
    List.dropWhile_eq_nil_iff.mpr hall
  obtain ⟨stamp, hmem⟩ := OrderedDict.mem_keys_iff.mp hkey
  rw [hnone] at hmem
  exact absurd hmem List.not_mem_nil

/-- A new broadcast of one packet completes its message. -/
lemma completes_single {packet : Packet β} {env : ReceiveEnv β X} (hone : packet.fragCount = 1)
    (hbroadcast : packet.dstTag = broadcastTag)
    (hunseen : Router.Unseen packet env.now node.router) :
    node.completes P packet env = some packet.payload := by
  have hours : isForUs P env.tagNow packet node = .ok true := by
    unfold isForUs Packet.isBroadcast
    rw [hbroadcast, decide_eq_true rfl, if_pos rfl]
    rfl
  rw [completes_of_ours ⟨hunseen, hours⟩, Reassembler.add_single hone]
  rfl

/-- The node hears of the identity that a beacon names, and of nobody else. -/
lemma signers_beacon (hP : P.Correct) {attacker : Identity X E} {timestamp data : Bytes β}
    (htimestamp : timestamp.length = 8) {packet : Packet β}
    (hdata : Packet.decode data = .ok packet) (htype : packet.ptype = .beacon)
    (hpayload : packet.payload = attacker.beacon P timestamp)
    {env : ReceiveEnv β X} (hcompletes : node.completes P packet env = some packet.payload)
    (rssi : Option ℚ) :
    node.signers P (.frame data rssi env) = [attacker.signingPublic P] := by
  have harrives : node.arrives P data env = some (packet, packet.payload) := by
    simp only [arrives, hdata, hcompletes, Option.map_some]
  have hsigner : beaconSigner P packet.payload = some (attacker.signingPublic P) := by
    rw [hpayload]
    refine (if_pos ⟨(length_beacon hP attacker htimestamp).1,
      verifyTranscript_beacon hP attacker htimestamp⟩).trans (congrArg some ?_)
    exact (beacon_fields hP attacker htimestamp).1
  have hbeacon : node.beaconOf P (.inbound (.frame data rssi env)) = some packet.payload := by
    simp only [beaconOf, harrives, Option.bind_some, htype, if_true]
  have hcall : node.callOf P (.inbound (.frame data rssi env)) = none := by
    simp only [callOf, harrives, Option.bind_some, callOfPayload, htype]
  rw [signers, hbeacon, hcall, Option.bind_some, hsigner]
  rfl

/-- A beacon of an identity that the node has not heard of, at some later time. -/
lemma exists_beacon (hP : P.Correct) (node : Node T X E) (t : ℚ) {k : Bytes β}
    (hk : k ∈ Set.range P.ed25519PublicBytes) (hunknown : node.Unknown P k) :
    ∃ (event : InboundEvent β X) (candidate : PeerIdentity β) (now : ℚ), t ≤ now ∧
      (∀ reading ∈ event.readings, reading = now) ∧ node.signers P event = [k] ∧
      (inbound P node event).heard = (node.sessions, node.discovered.set k candidate) := by
  obtain ⟨e, rfl⟩ := hk
  let attacker : Identity X E := { signingPrivate := e
                                   staticPrivate := node.sessions.identity.staticPrivate }
  have htimestamp : (zeros 8 : Bytes β).length = 8 := length_zeros 8
  have hlen := (length_beacon hP attacker htimestamp).2
  let packet := beaconPacket (attacker.beacon P (zeros 8)) (by omega)
  obtain ⟨now, hle, hforgotten⟩ := exists_forgotten node.router.dedup t
  have hdecode : Packet.decode (packet.header ++ packet.payload ++ []) = .ok packet :=
    Packet.decode_append rfl []
  have hcompletes : node.completes P packet (.at now attacker.staticPrivate) =
      some packet.payload := completes_single rfl rfl (hforgotten _)
  refine ⟨.frame (packet.header ++ packet.payload ++ []) none (.at now attacker.staticPrivate),
    beaconCandidate (attacker.beacon P (zeros 8)), now, hle, ?_, ?_, ?_⟩
  · intro reading hreading
    simpa [InboundEvent.readings, ReceiveEnv.at] using hreading
  · exact signers_beacon hP htimestamp hdecode rfl rfl hcompletes none
  · obtain ⟨router, reassembler, hheard⟩ := heard_handle (P := P) packet
      (.at now attacker.staticPrivate) { node with lastRssi := none } rfl rfl (hforgotten _)
    show (receiveFrame P _ none _ node).heard = _
    unfold receiveFrame
    rw [hdecode]
    show (handle P packet _ _).2.heard = _
    rw [hheard]
    exact heard_onBeacon hP htimestamp ⟨hunknown.other, hunknown.unpinned, hunknown.undiscovered⟩

/-- The node hears of one identity after the other. -/
lemma exists_flood (hP : P.Correct) (keys : List (Bytes β)) (hnodup : keys.Nodup)
    (node : Node T X E) (t : ℚ)
    (hkeys : ∀ k ∈ keys, k ∈ Set.range P.ed25519PublicBytes ∧ node.Unknown P k) :
    ∃ events : List (InboundEvent β X),
      (∀ reading ∈ events.flatMap InboundEvent.readings, t ≤ reading) ∧
      (events.flatMap InboundEvent.readings).Pairwise (· ≤ ·) ∧
      node.identities P events = keys ∧
      (events.foldl (inbound P) node).discovered.length =
        node.discovered.length + keys.length := by
  induction keys generalizing node t with
  | nil => exact ⟨[], fun _ hmem => absurd hmem List.not_mem_nil, .nil, rfl, rfl⟩
  | cons k keys ih =>
    obtain ⟨hfirst, hrest⟩ := List.nodup_cons.mp hnodup
    obtain ⟨hrange, hunknown⟩ := hkeys k List.mem_cons_self
    obtain ⟨event, candidate, now, hle, hreadings, hsigners, hheard⟩ :=
      exists_beacon hP node t hrange hunknown
    obtain ⟨hsessions, hdiscovered⟩ := Prod.mk.inj hheard
    -- the others are still unknown
    have hothers : ∀ k' ∈ keys, k' ∈ Set.range P.ed25519PublicBytes ∧
        (inbound P node event).Unknown P k' := by
      intro k' hk'
      obtain ⟨hrange', hother, hunpinned, hundiscovered⟩ := hkeys k' (List.mem_cons_of_mem _ hk')
      refine ⟨hrange', ?_, ?_, ?_⟩
      · rwa [hsessions]
      · rwa [hsessions]
      · rw [hdiscovered]
        intro hmem
        rcases OrderedDict.mem_keys_set_iff.mp hmem with rfl | hmem
        · exact hfirst hk'
        · exact hundiscovered hmem
    obtain ⟨events, hlater, hsorted, hidentities, hlength⟩ :=
      ih hrest (inbound P node event) now hothers
    refine ⟨event :: events, ?_, ?_, ?_, ?_⟩
    · intro reading hmem
      rw [List.flatMap_cons, List.mem_append] at hmem
      rcases hmem with hmem | hmem
      · exact hle.trans_eq (hreadings reading hmem).symm
      · exact hle.trans (hlater reading hmem)
    · rw [List.flatMap_cons, List.pairwise_append]
      refine ⟨List.pairwise_of_forall_mem_list ?_, hsorted, ?_⟩
      · intro a ha b hb
        rw [hreadings a ha, hreadings b hb]
      · intro a ha b hb
        rw [hreadings a ha]
        exact hlater b hb
    · rw [identities, hsigners, hidentities]
      rfl
    · rw [List.foldl_cons, hlength, hdiscovered, OrderedDict.length_set,
        if_neg hunknown.undiscovered, List.length_cons]
      omega

/-! ## The bound -/

/-- The bound holds in every run in which the node hears of `n` identities at most, on a clock that
does not go back. -/
def BoundedFor (P : Primitives β X E) (node : Node T X E) (n bound : ℕ) : Prop :=
  ∀ events : List (InboundEvent β X),
    (events.flatMap InboundEvent.readings).Pairwise (· ≤ ·) →
    (node.identities P events).dedup.length ≤ n →
    ∀ size ∈ (events.foldl (inbound P) node).sizes, size ≤ bound

/-- More identities than the bound exceed it. -/
lemma not_boundedFor (hP : P.Correct) {node : Node T X E} {bound : ℕ} {keys : Finset (Bytes β)}
    (hcard : keys.card = bound + 1)
    (hkeys : ∀ k ∈ keys, k ∈ Set.range P.ed25519PublicBytes ∧ node.Unknown P k) :
    ¬ BoundedFor P node (bound + 1) bound := by
  intro hbounded
  obtain ⟨events, -, hsorted, hidentities, hlength⟩ :=
    exists_flood hP keys.toList keys.nodup_toList node 0 fun k hk =>
      hkeys k (Finset.mem_toList.mp hk)
  have hfew : (node.identities P events).dedup.length ≤ bound + 1 := by
    rw [hidentities, keys.nodup_toList.dedup, Finset.length_toList, hcard]
  have hsize : (events.foldl (inbound P) node).discovered.length ∈
      (events.foldl (inbound P) node).sizes := by simp [sizes]
  have hle := hbounded events hsorted hfew _ hsize
  rw [hlength, Finset.length_toList, hcard] at hle
  omega

/-- What a new node keeps is bounded by its configuration, what its trust store holds and the number
of identities that it hears of in the run. Without the last there is no bound: one more identity
than any bound exceeds it. -/
theorem bounded_by_identities (hP : P.Correct) (mesh : MeshConfig) (transport : τ)
    (identity : Identity X E) (trust : TrustStore β)
    (onMessage : Option (IncomingMessage β → Except (Exc β) Unit))
    (onEvent : Event β → Except (Exc β) Unit) {capacity : ℕ}
    (hcapacity : capacityFor (β := β) T.mtu HEADER_LEN = .ok capacity) :
    let node := new T mesh transport identity trust onMessage onEvent hcapacity
    (∀ n, BoundedFor P node n (limits mesh + (n + trust.objects.length))) ∧
      ∀ (bound : ℕ) (keys : Finset (Bytes β)), keys.card = bound + 1 →
        (∀ k ∈ keys, k ∈ Set.range P.ed25519PublicBytes ∧ node.Unknown P k) →
        ¬ BoundedFor P node (bound + 1) bound := by
  intro node
  constructor
  · intro n events _ hfew size hsize
    have hle := sizes_foldl_inbound (P := P) mesh transport identity trust onMessage onEvent
      hcapacity events size hsize
    exact hle.trans (Nat.add_le_add_left (Nat.add_le_add_right hfew _) _)
  · exact fun bound keys hcard hkeys => not_boundedFor hP hcard hkeys

/-! ## Strangers -/

/-- A link for octets that takes every frame. -/
def octetLink : Transport UInt8 Unit where
  mtu := 200
  send _ := pure ()

def octetKey (n : ℕ) : RawKey := ⟨toBytesBig DHLEN n, length_toBytesBig DHLEN n⟩

lemma octetKey_inj {n m : ℕ} (hn : n < 256 ^ DHLEN) (hm : m < 256 ^ DHLEN)
    (h : (octetKey n).val = (octetKey m).val) : n = m := by
  simp only [octetKey] at h
  exact toBytesBig_inj hn hm h

/-- A node with the default settings and the key 0. -/
def octetNode : Node octetLink RawKey RawKey :=
  new octetLink {} () ⟨octetKey 0, octetKey 0, "alice"⟩ (.empty none) none (fun _ => .ok ())
    (rfl : capacityFor (β := UInt8) 200 HEADER_LEN = .ok 177)

/-- The node knows nobody. -/
lemma octetNode_unknown {n : ℕ} (hpos : n ≠ 0) (h : n < 256 ^ DHLEN) :
    (octetKey n).val ∈ Set.range octets.ed25519PublicBytes ∧
      octetNode.Unknown octets (octetKey n).val := by
  refine ⟨⟨octetKey n, octets_signingPublic _⟩, ?_, rfl, List.not_mem_nil⟩
  intro hown
  exact hpos (octetKey_inj h (Nat.pow_pos (by decide)) hown)

/-- As many identities as one likes, up to the number of keys. -/
lemma exists_octetKeys {count : ℕ} (h : count < 256 ^ DHLEN) :
    ∃ keys : Finset (Bytes UInt8), keys.card = count ∧ ∀ k ∈ keys,
      k ∈ Set.range octets.ed25519PublicBytes ∧ octetNode.Unknown octets k := by
  have hlt : ∀ n ∈ Finset.range count, n + 1 < 256 ^ DHLEN := fun n hn =>
    lt_of_le_of_lt (Finset.mem_range.mp hn) h
  refine ⟨(Finset.range count).image fun n => (octetKey (n + 1)).val, ?_, ?_⟩
  · rw [Finset.card_image_of_injOn, Finset.card_range]
    intro n hn m hm heq
    have hsucc : n + 1 = m + 1 := octetKey_inj (hlt n hn) (hlt m hm) heq
    omega
  · intro k hk
    obtain ⟨n, hn, rfl⟩ := Finset.mem_image.mp hk
    exact octetNode_unknown (Nat.succ_ne_zero n) (hlt n hn)

/-- Three identities fill little, and one is more than none. -/
theorem bounded_by_identities_octets :
    BoundedFor octets octetNode 3 (4096 + 64 + 512 + 32 + 3) ∧
      ¬ BoundedFor octets octetNode 1 0 := by
  have hbounds := bounded_by_identities (T := octetLink) octets_correct {} ()
    ⟨octetKey 0, octetKey 0, "alice"⟩ (.empty none) none (fun _ => .ok ())
    (rfl : capacityFor (β := UInt8) 200 HEADER_LEN = .ok 177)
  have hroom : 1 < 256 ^ DHLEN := Nat.one_lt_pow (by decide) (by decide)
  obtain ⟨keys, hcard, hkeys⟩ := exists_octetKeys hroom
  exact ⟨hbounds.1 3, hbounds.2 0 keys hcard hkeys⟩

/-- A node of Alice's with the default settings. -/
def defaultNode : Node openLink ℕ ℕ :=
  new openLink {} () SessionManager.Meeting.alice (.empty none) none (fun _ => .ok ())
    (rfl : capacityFor (β := SymByte) 200 HEADER_LEN = .ok 177)

/-- Strangers make up identities, and send a beacon for each. Where there is no end of identities,
there is no bound; and on octets whatever is below the number of the keys is none. -/
theorem strangers_fill_state :
    (¬ ∃ bound, ∀ n, BoundedFor symbolic defaultNode n bound) ∧
      ∀ bound, bound + 1 < 256 ^ DHLEN → ¬ BoundedFor octets octetNode (bound + 1) bound := by
  constructor
  · rintro ⟨bound, hbounded⟩
    have hinfinite : (Set.range symbolic.ed25519PublicBytes).Infinite :=
      Set.infinite_range_of_injective fun _ _ => SymByte.signingKey_inj
    obtain ⟨keys, hkeys, hcard⟩ := (hinfinite.sdiff (Set.finite_singleton
      (defaultNode.sessions.identity.signingPublic symbolic))).exists_subset_card_eq (bound + 1)
    exact not_boundedFor symbolic_correct hcard
      (fun k hk => ⟨(hkeys hk).1, (hkeys hk).2, rfl, List.not_mem_nil⟩) (hbounded (bound + 1))
  · intro bound hbound
    obtain ⟨keys, hcard, hkeys⟩ := exists_octetKeys hbound
    exact not_boundedFor octets_correct hcard hkeys

end Node

end Chatbit
