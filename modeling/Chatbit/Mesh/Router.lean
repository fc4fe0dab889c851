import Mathlib.Data.Rat.Init
import Mathlib.Algebra.Order.Ring.Unbundled.Rat
import Chatbit.Lib.Method
import Chatbit.Lib.OrderedDict
import Chatbit.Wire.Packet
import Chatbit.Wire.Padding

/-!
# The router

`chatbit/mesh/router.py`. The methods that await something are here in the pieces between the
awaits; what they are awaiting (a delivery, a send) is the caller's. The event loop keeps the timers
that `call_later` starts, so a router keeps its own (`timers`), and cancelling a handle drops its
timer.

The router reads of a frame its identifier and its TTL (`Frame`), so it may as well handle frames
that carry something else along.
-/

namespace Chatbit

open Lib

/-- The routing settings. -/
structure MeshConfig where
  defaultTtl : ℕ := 7
  dedupCacheSize : ℕ := 4096
  dedupTtlSeconds : ℚ := 900
  storeForward : Bool := true
  storeCapacity : ℕ := 512
  storeTtlSeconds : ℚ := 3600
  padding : PaddingPolicy := .strict

/-- What the router reads of a frame: it keeps its identifier on its way. -/
class Frame (β : outParam Type) (F : Type) where
  dedupKey : F → Bytes β × ℕ
  decrementTtl : F → Option F
  dedupKey_decrementTtl : ∀ frame forwarded, decrementTtl frame = some forwarded →
    dedupKey forwarded = dedupKey frame

variable {β F : Type} [Alphabet β] [DecidableEq β]

omit [Alphabet β] [DecidableEq β] in
lemma Packet.decrementTtl_eq_some_iff {packet forwarded : Packet β} :
    packet.decrementTtl = some forwarded ↔
      1 < packet.ttl ∧ forwarded = { packet with
        ttl := packet.ttl - 1, ttl_le := Nat.le_trans (Nat.sub_le _ _) packet.ttl_le } := by
  unfold Packet.decrementTtl
  by_cases h : packet.ttl ≤ 1
  · rw [if_pos h]
    simp only [reduceCtorEq, false_iff]
    omega
  · rw [if_neg h, Option.some.injEq, eq_comm]
    exact ⟨fun heq => ⟨by omega, heq⟩, And.right⟩

instance : Frame β (Packet β) where
  dedupKey := Packet.dedupKey
  decrementTtl := Packet.decrementTtl
  dedupKey_decrementTtl packet forwarded h := by
    obtain ⟨-, rfl⟩ := Packet.decrementTtl_eq_some_iff.mp h
    rfl

/-! ## The cache of frames seen -/

/-- Bounded, time-limited set of recently seen frame identifiers. -/
structure DedupCache (β : Type) where
  capacity : ℕ := 4096
  ttl : ℚ := 900
  seen : OrderedDict (Bytes β × ℕ) ℚ := .empty

namespace DedupCache

/-- What `_expire` leaves. -/
def expire (now : ℚ) (cache : DedupCache β) : DedupCache β :=
  { cache with seen := cache.seen.dropWhile fun _ timestamp => decide (timestamp < now - cache.ttl) }

/-- `seen`: check and insert. It returns whether the key was there. -/
def checkSeen (key : Bytes β × ℕ) (now : ℚ) : Method (Exc β) (DedupCache β) Bool := do
  Method.update (expire now)
  let cache ← Method.self
  if key ∈ cache.seen.keys then return true
  else
    Method.update fun cache =>
      { cache with seen := (cache.seen.set key now).evictOldest cache.capacity }
    return false

omit [Alphabet β] in
lemma checkSeen_of_mem {key : Bytes β × ℕ} {now : ℚ} {cache : DedupCache β}
    (h : key ∈ (cache.expire now).seen.keys) :
    checkSeen key now cache = (.ok true, cache.expire now) := by
  unfold checkSeen
  rw [Method.update_bind, Method.self_bind, if_pos h]
  rfl

omit [Alphabet β] in
lemma checkSeen_of_not_mem {key : Bytes β × ℕ} {now : ℚ} {cache : DedupCache β}
    (h : key ∉ (cache.expire now).seen.keys) :
    checkSeen key now cache = (.ok false, { cache with
      seen := ((cache.expire now).seen.set key now).evictOldest cache.capacity }) := by
  unfold checkSeen
  rw [Method.update_bind, Method.self_bind, if_neg h]
  rfl

end DedupCache

/-! ## The router -/

/-- `_StoredFrame` -/
structure StoredFrame (F : Type) where
  packet : F
  storedAt : ℚ

/-- `now - entry.stored_at > self.config.store_ttl_seconds` -/
def StoredFrame.expired (config : MeshConfig) (now : ℚ) (entry : StoredFrame F) : Bool :=
  decide (now - entry.storedAt > config.storeTtlSeconds)

structure RouterStats where
  received : ℕ := 0
  duplicates : ℕ := 0
  relayed : ℕ := 0
  relaySuppressed : ℕ := 0
  expired : ℕ := 0
  deliveredLocal : ℕ := 0
  stored : ℕ := 0
  replayed : ℕ := 0

/-- `asyncio.TimerHandle`: the `id`-th call of `call_later`, of `_fire_relay(key, packet)`. -/
structure TimerHandle (β F : Type) where
  id : ℕ
  delay : ℚ
  key : Bytes β × ℕ
  packet : F

/-- `timers` are the calls of `call_later` that have neither run nor been cancelled, of `calls` so
far. -/
structure Router (β : Type) (F : Type := Packet β) where
  dedup : DedupCache β := {}
  stats : RouterStats := {}
  store : List (StoredFrame F) := []
  pendingRelays : OrderedDict (Bytes β × ℕ) (TimerHandle β F) := .empty
  relayTasks : List F := []
  timers : List (TimerHandle β F) := []
  calls : ℕ := 0

namespace Router

/-- `__init__` -/
def new (config : MeshConfig) : Router β F where
  dedup := { capacity := config.dedupCacheSize, ttl := config.dedupTtlSeconds }

variable [Frame β F]

/-- The part of `originate` that comes before the transmission. -/
def markSeen (packet : F) (now : ℚ) : Method (Exc β) (Router β F) Bool :=
  Method.onField dedup (fun dedup router => { router with dedup := dedup })
    (DedupCache.checkSeen (Frame.dedupKey packet) now)

/-! ### Relaying -/

/-- `handle.cancel()` -/
def cancelTimer (handle : TimerHandle β F) (router : Router β F) : Router β F :=
  { router with
    timers := router.timers.filter fun timer =>
      ! decide (timer.id = handle.id ∧ timer.key = handle.key) }

def cancelPendingRelay (key : Bytes β × ℕ) (router : Router β F) : Router β F :=
  match router.pendingRelays.get? key with
  | none => router
  | some handle =>
    cancelTimer handle { router with
      pendingRelays := router.pendingRelays.erase key
      stats := { router.stats with relaySuppressed := router.stats.relaySuppressed + 1 } }

/-- `delay` is what `rng.uniform` draws. -/
def scheduleRelay (packet : F) (delay : ℚ) (router : Router β F) : Router β F :=
  match Frame.decrementTtl packet with
  | none => { router with stats := { router.stats with expired := router.stats.expired + 1 } }
  | some forwarded =>
    let key := Frame.dedupKey packet
    let handle : TimerHandle β F := ⟨router.calls, delay, key, forwarded⟩
    { router with
      timers := router.timers ++ [handle], calls := router.calls + 1
      pendingRelays := router.pendingRelays.set key handle }

/-- The event loop runs a timer, which starts a relay task. -/
def fireRelay (handle : TimerHandle β F) (router : Router β F) : Router β F :=
  { router with
    pendingRelays := router.pendingRelays.erase handle.key
    relayTasks := router.relayTasks ++ [handle.packet] }

/-! ### Inbound -/

/-- `handle` up to the local delivery. It returns whether the frame is new. -/
def accept (packet : F) (now : ℚ) : Method (Exc β) (Router β F) Bool := do
  Method.update fun router =>
    { router with stats := { router.stats with received := router.stats.received + 1 } }
  if ← markSeen packet now then
    Method.update fun router =>
      { router with stats := { router.stats with duplicates := router.stats.duplicates + 1 } }
    Method.update (cancelPendingRelay (Frame.dedupKey packet))
    return false
  else return true

/-- The router once it has counted a frame and looked it up. -/
def counted (packet : F) (now : ℚ) (router : Router β F) : Router β F :=
  { router with
    dedup := (DedupCache.checkSeen (Frame.dedupKey packet) now router.dedup).2
    stats := { router.stats with received := router.stats.received + 1 } }

/-- The router once it has dropped a frame that it had seen. -/
def dropped (packet : F) (now : ℚ) (router : Router β F) : Router β F :=
  cancelPendingRelay (Frame.dedupKey packet) { counted packet now router with
    stats := { (counted packet now router).stats with
      duplicates := router.stats.duplicates + 1 } }

omit [Alphabet β] in
lemma accept_of_new {packet : F} {now : ℚ} {router : Router β F}
    (h : Frame.dedupKey packet ∉ (router.dedup.expire now).seen.keys) :
    accept packet now router = (.ok true, counted packet now router) := by
  unfold accept counted
  rw [Method.update_bind, Method.bind_apply, markSeen, Method.onField_apply,
    DedupCache.checkSeen_of_not_mem h]
  rfl

omit [Alphabet β] in
lemma accept_of_seen {packet : F} {now : ℚ} {router : Router β F}
    (h : Frame.dedupKey packet ∈ (router.dedup.expire now).seen.keys) :
    accept packet now router = (.ok false, dropped packet now router) := by
  unfold accept dropped counted
  rw [Method.update_bind, Method.bind_apply, markSeen, Method.onField_apply,
    DedupCache.checkSeen_of_mem h]
  rfl

/-- Process one frame received from the transport, for an owner that has the router as a field.
Answering whether the frame is for us does not change the owner. -/
def handle {σ : Type} (get : σ → Router β F) (set : Router β F → σ → σ)
    (isForUs : F → σ → Except (Exc β) Bool) (deliver : F → Method (Exc β) σ Unit) (packet : F)
    (now delay : ℚ) : Method (Exc β) σ Unit := do
  if ← Method.onField get set (accept packet now) then
    let owner ← Method.self
    if ← Method.eval (isForUs packet owner) then
      Method.onField get set (Method.update fun router => { router with
        stats := { router.stats with deliveredLocal := router.stats.deliveredLocal + 1 } })
      deliver packet
    Method.onField get set (Method.update (scheduleRelay packet delay))

/-! ### Store and forward -/

def storeFrame (config : MeshConfig) (packet : F) (now : ℚ) :
    Method (Exc β) (Router β F) Unit := do
  if config.storeForward then
    let router ← Method.self
    if router.store.length ≥ config.storeCapacity then
      match router.store with
      | [] => Method.raise (.indexError "pop from empty list")
      | _ :: rest => Method.update fun router => { router with store := rest }
    Method.update fun router => { router with
      store := router.store ++ [⟨packet, now⟩]
      stats := { router.stats with stored := router.stats.stored + 1 } }

/-- How many entries `store` pops. -/
def overflow (config : MeshConfig) (router : Router β F) : ℕ :=
  if router.store.length ≥ config.storeCapacity then 1 else 0

omit [Alphabet β] [DecidableEq β] [Frame β F] in
/-- What `store` does: nothing, where it is off or raises, or a new entry at the end. -/
lemma storeFrame_cases (config : MeshConfig) (packet : F) (now : ℚ) (router : Router β F) :
    (storeFrame config packet now router).2 = router ∧
        (config.storeForward = true → config.storeCapacity = 0) ∨
      config.storeForward = true ∧ (storeFrame config packet now router).2 = { router with
        store := router.store.drop (overflow config router) ++ [⟨packet, now⟩]
        stats := { router.stats with stored := router.stats.stored + 1 } } := by
  unfold storeFrame overflow
  by_cases hforward : config.storeForward = true
  · rw [if_pos hforward, Method.self_bind]
    split_ifs with hfull
    · rcases hentries : router.store with _ | ⟨oldest, rest⟩
      · left
        rw [hentries] at hfull
        exact ⟨rfl, fun _ => Nat.le_zero.mp hfull⟩
      · exact Or.inr ⟨hforward, rfl⟩
    · exact Or.inr ⟨hforward, rfl⟩
  · rw [if_neg hforward]
    exact Or.inl ⟨rfl, fun h => absurd h hforward⟩

/-- What a relay task does once its send has returned or raised; `now` is the clock of `store`. -/
def finishRelay (config : MeshConfig) (packet : F) (sent : Bool) (now : ℚ) :
    Method (Exc β) (Router β F) Unit := do
  if sent then
    Method.update fun router =>
      { router with stats := { router.stats with relayed := router.stats.relayed + 1 } }
  else if config.storeForward then
    storeFrame config packet now

def storedCount (router : Router β F) : ℕ := router.store.length

/-- A call of `replay_store` that awaits a send: the argument, the position of its iterator and its
other locals. -/
structure Replay (F : Type) where
  now : ℚ
  index : ℕ
  entry : StoredFrame F
  keep : List (StoredFrame F)
  sent : ℕ

/-- The next entry that has not expired, of those from `index` on, and the position after it. -/
def nextEntry (config : MeshConfig) (now : ℚ) :
    ℕ → List (StoredFrame F) → Option (ℕ × StoredFrame F)
  | _, [] => none
  | index, entry :: rest =>
    if entry.expired config now then nextEntry config now (index + 1) rest
    else some (index + 1, entry)

/-- The loop of `replay_store` up to its next send, or to its end, where it returns the count. -/
def replayFrom (config : MeshConfig) (now : ℚ) (index : ℕ) (keep : List (StoredFrame F))
    (sent : ℕ) (router : Router β F) : Router β F × (ℕ ⊕ Replay F) :=
  match nextEntry config now index (router.store.drop index) with
  | none => ({ router with store := keep }, .inl sent)
  | some (index, entry) => (router, .inr ⟨now, index, entry, keep, sent⟩)

def replayStore (config : MeshConfig) (now : ℚ) (router : Router β F) :
    Router β F × (ℕ ⊕ Replay F) := replayFrom config now 0 [] 0 router

/-- `replay_store` goes on once its send has returned or raised. -/
def resumeReplay (config : MeshConfig) (replay : Replay F) (sent : Bool) (router : Router β F) :
    Router β F × (ℕ ⊕ Replay F) :=
  if sent then
    replayFrom config replay.now replay.index replay.keep (replay.sent + 1)
      { router with stats := { router.stats with replayed := router.stats.replayed + 1 } }
  else replayFrom config replay.now replay.index (replay.keep ++ [replay.entry]) replay.sent router

end Router

end Chatbit
