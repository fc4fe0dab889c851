import Mathlib.Tactic.Abel
import Mathlib.Algebra.Order.Group.Multiset
import Chatbit.Lib.Inherits
import Chatbit.Mesh.Flood
import Chatbit.Mesh.Replay

/-!
# What a station holds

A frame that a router has accepted is in one place at a time: it is being delivered, its timer is
running, its relay is being sent, it waits in the store or it has been sent. The router moves it on,
rewrites its TTL or drops it, and never copies it (`inherits_step`). A frame whose timer is running
counts as the relay that it will be.
-/

namespace Chatbit

open Lib

variable {ι β F : Type} [Alphabet β] [DecidableEq β] [Marked β F] [DecidableEq ι]

/-! ## The dedup cache -/

omit [Alphabet β] [DecidableEq β] in
/-- Expiring adds no key. -/
lemma DedupCache.mem_keys_of_expire {key : Bytes β × ℕ} {now : ℚ} {cache : DedupCache β}
    (h : key ∈ (cache.expire now).seen.keys) : key ∈ cache.seen.keys :=
  ((List.dropWhile_sublist _).map Prod.fst).subset h

omit [Alphabet β] in
/-- A lookup adds no other key. -/
lemma DedupCache.mem_keys_of_checkSeen {key looked : Bytes β × ℕ} {now : ℚ} {cache : DedupCache β}
    (h : key ∈ (checkSeen looked now cache).2.seen.keys) :
    key = looked ∨ key ∈ cache.seen.keys := by
  by_cases hlooked : looked ∈ (cache.expire now).seen.keys
  · rw [checkSeen_of_mem hlooked] at h
    exact Or.inr (mem_keys_of_expire h)
  · rw [checkSeen_of_not_mem hlooked] at h
    obtain ⟨v, hv⟩ := OrderedDict.mem_keys_iff.mp h
    rcases OrderedDict.mem_set.mp (OrderedDict.mem_of_mem_evictOldest hv) with hnew | ⟨-, hold⟩
    · exact Or.inl hnew.1
    · exact Or.inr (mem_keys_of_expire (OrderedDict.mem_keys_iff.mpr ⟨v, hold⟩))

/-- No entry expires, or is evicted, when a frame is looked up. -/
def DedupCache.Keeps (key : Bytes β × ℕ) (now : ℚ) (cache : DedupCache β) : Prop :=
  (cache.expire now).seen = cache.seen ∧
    (key ∈ cache.seen.keys ∨ cache.seen.length < cache.capacity)

instance (key : Bytes β × ℕ) (now : ℚ) (cache : DedupCache β) : Decidable (cache.Keeps key now) :=
  inferInstanceAs (Decidable (_ ∧ _))

omit [Alphabet β] [DecidableEq β] in
/-- Where nothing expires, expiring changes nothing. -/
lemma DedupCache.Keeps.expire_eq {key : Bytes β × ℕ} {now : ℚ} {cache : DedupCache β}
    (h : cache.Keeps key now) : cache.expire now = cache := by
  show { cache with seen := (cache.expire now).seen } = cache
  rw [h.1]

omit [Alphabet β] in
/-- Then a lookup adds its key, and the others stay. -/
lemma DedupCache.Keeps.keys {key : Bytes β × ℕ} {now : ℚ} {cache : DedupCache β}
    (h : cache.Keeps key now) :
    key ∈ (checkSeen key now cache).2.seen.keys ∧
      ∀ k ∈ cache.seen.keys, k ∈ (checkSeen key now cache).2.seen.keys := by
  have hexpire := h.expire_eq
  obtain ⟨-, hroom⟩ := h
  by_cases hkey : key ∈ cache.seen.keys
  · rw [checkSeen_of_mem (by rw [hexpire]; exact hkey), hexpire]
    exact ⟨hkey, fun _ hk => hk⟩
  · have hlength : (cache.seen.set key now).length ≤ cache.capacity := by
      rw [OrderedDict.length_set, if_neg hkey]
      exact hroom.resolve_left hkey
    rw [checkSeen_of_not_mem (by rw [hexpire]; exact hkey), hexpire]
    rw [OrderedDict.evictOldest_of_le hlength]
    refine ⟨OrderedDict.mem_keys_set _ _ _, ?_⟩
    intro k hk
    obtain ⟨v, hv⟩ := OrderedDict.mem_keys_iff.mp hk
    apply OrderedDict.mem_keys_iff.mpr
    exact ⟨v, OrderedDict.mem_set.mpr (Or.inr ⟨fun h => hkey (h ▸ hk), hv⟩)⟩

/-! ## What a router holds -/

namespace Router

/-- One copy of a frame is relayed as another. -/
def Forwards (frame forwarded : F) : Prop :=
  (Frame.decrementTtl frame).map Marked.relayed = some forwarded

/-- The relays that are scheduled or being sent. -/
def relaying (router : Router β F) : Multiset F :=
  (router.timers.map fun handle => Marked.relayed handle.packet : Multiset F) +
    (router.relayTasks : Multiset F)

/-- The entries of the store that a replay has yet to send, and those that it keeps. -/
def waitingEntries (store : List (StoredFrame F)) : Option (Replay F) → List (StoredFrame F)
  | none => store
  | some replay => replay.entry :: (replay.keep ++ store.drop replay.index)

def waiting (router : Router β F) (replay : Option (Replay F)) : Multiset F :=
  ((waitingEntries router.store replay).map StoredFrame.packet : List F)

variable {router : Router β F}

omit [Alphabet β] in
/-- Scheduling a relay leaves the cache alone. -/
lemma dedup_scheduleRelay (packet : F) (delay : ℚ) (router : Router β F) :
    (scheduleRelay packet delay router).dedup = router.dedup := by
  unfold scheduleRelay
  split <;> rfl

omit [Alphabet β] in
/-- It leaves the store alone. -/
lemma store_scheduleRelay (packet : F) (delay : ℚ) (router : Router β F) :
    (scheduleRelay packet delay router).store = router.store := by
  unfold scheduleRelay
  split <;> rfl

omit [Alphabet β] in
/-- A relay that is scheduled takes the frame on. -/
lemma relaying_scheduleRelay (packet : F) (delay : ℚ) (router : Router β F) :
    Inherits Forwards (scheduleRelay packet delay router).relaying
      ({packet} + router.relaying) := by
  unfold scheduleRelay
  rcases hforwarded : Frame.decrementTtl packet with _ | forwarded
  · exact .of_le (Multiset.le_add_left _ _)
  · have hmoved : relaying { router with
        timers := router.timers ++ [⟨router.calls, delay, Frame.dedupKey packet, forwarded⟩] } =
          {Marked.relayed forwarded} + router.relaying := by
      unfold relaying
      rw [List.map_append, ← Multiset.coe_add]
      show _ + ({Marked.relayed forwarded} : Multiset F) + _ = _
      abel
    show Inherits Forwards (relaying { router with
      timers := router.timers ++ [⟨router.calls, delay, Frame.dedupKey packet, forwarded⟩] }) _
    rw [hmoved]
    have hforwards : Forwards packet (Marked.relayed forwarded) := by
      unfold Forwards
      rw [hforwarded]
      rfl
    exact (Inherits.of_rewrites hforwards).add_right _

omit [Alphabet β] [Marked β F] in
/-- Cancelling a relay drops timers, and nothing else. -/
lemma cancelPendingRelay_eq (key : Bytes β × ℕ) (router : Router β F) :
    (cancelPendingRelay key router).dedup = router.dedup ∧
      (cancelPendingRelay key router).store = router.store ∧
      (cancelPendingRelay key router).relayTasks = router.relayTasks ∧
      (cancelPendingRelay key router).timers.Sublist router.timers := by
  unfold cancelPendingRelay
  rcases router.pendingRelays.get? key with _ | handle
  · exact ⟨rfl, rfl, rfl, List.Sublist.refl _⟩
  · exact ⟨rfl, rfl, rfl, List.filter_sublist⟩

omit [Alphabet β] in
/-- Dropping a frame leaves the store, and the cache as the lookup left it. -/
lemma dropped_eq (packet : F) (now : ℚ) (router : Router β F) :
    (dropped packet now router).dedup =
        (DedupCache.checkSeen (Frame.dedupKey packet) now router.dedup).2 ∧
      (dropped packet now router).store = router.store := by
  obtain ⟨hdedup, hstore, -, -⟩ := cancelPendingRelay_eq (Frame.dedupKey packet)
    { counted packet now router with
      stats := { (counted packet now router).stats with
        duplicates := router.stats.duplicates + 1 } }
  exact ⟨hdedup, hstore⟩

omit [Alphabet β] in
/-- A frame that was seen may end a relay, and starts none. -/
lemma relaying_dropped_le (packet : F) (now : ℚ) (router : Router β F) :
    (dropped packet now router).relaying ≤ router.relaying := by
  obtain ⟨-, -, htasks, htimers⟩ := cancelPendingRelay_eq (Frame.dedupKey packet)
    { counted packet now router with
      stats := { (counted packet now router).stats with
        duplicates := router.stats.duplicates + 1 } }
  unfold dropped relaying
  rw [htasks]
  apply Multiset.add_le_add_right
  exact Multiset.coe_le.mpr (htimers.map _).subperm

omit [Alphabet β] in
/-- A timer that runs becomes a relay task: the frame is still being relayed. -/
lemma relaying_fireRelay {n : ℕ} {handle : TimerHandle β F} (h : router.timers[n]? = some handle) :
    (fireRelay (Station.relayOf handle) { router with
      timers := router.timers.eraseIdx n }).relaying = router.relaying := by
  have htimers := congrArg (Multiset.map fun handle : TimerHandle β F =>
    Marked.relayed handle.packet) (coe_of_getElem? h)
  rw [Multiset.map_add, Multiset.map_singleton, Multiset.map_coe, Multiset.map_coe] at htimers
  have htasks : ((router.relayTasks ++ [Marked.relayed handle.packet] : List F) : Multiset F) =
      {Marked.relayed handle.packet} + (router.relayTasks : Multiset F) := by
    rw [← Multiset.coe_add, add_comm]
    rfl
  show ((router.timers.eraseIdx n).map fun handle => Marked.relayed handle.packet : Multiset F) +
    ((router.relayTasks ++ [Marked.relayed handle.packet] : List F) : Multiset F) = router.relaying
  unfold relaying
  rw [htimers, htasks]
  abel

omit [Alphabet β] [DecidableEq β] [Marked β F] in
/-- What is stored comes last, and what is popped comes first. -/
lemma drop_storeFrame (config : MeshConfig) (packet : F) (now : ℚ) (router : Router β F)
    (index : ℕ) :
    ((storeFrame config packet now router).2.store.drop index).Sublist
      (router.store.drop index ++ [⟨packet, now⟩]) := by
  rcases storeFrame_cases config packet now router with ⟨h, -⟩ | ⟨-, h⟩
  · rw [h]
    exact List.sublist_append_left _ _
  · rw [h]
    show ((router.store.drop (overflow config router) ++
      ([⟨packet, now⟩] : List (StoredFrame F))).drop index).Sublist _
    rw [List.drop_append, List.drop_drop]
    -- popping moves the position on
    apply List.Sublist.append _ (List.drop_sublist _ _)
    exact List.drop_sublist_drop_left router.store (Nat.le_add_left index _)

omit [Alphabet β] [DecidableEq β] [Marked β F] in
/-- Storing a frame adds this frame to what waits, at most. -/
lemma waiting_storeFrame (config : MeshConfig) (packet : F) (now : ℚ) (router : Router β F)
    (replay : Option (Replay F)) :
    (storeFrame config packet now router).2.waiting replay ≤
      {packet} + router.waiting replay := by
  have hentries : (waitingEntries (storeFrame config packet now router).2.store replay).Sublist
      (waitingEntries router.store replay ++ [⟨packet, now⟩]) := by
    rcases replay with _ | replay
    · exact drop_storeFrame config packet now router 0
    · show (replay.entry :: (replay.keep ++ _)).Sublist
        (replay.entry :: (replay.keep ++ router.store.drop replay.index) ++ [⟨packet, now⟩])
      -- what the replay has kept, and the entry it is sending, are out of the reach of `store`
      rw [List.cons_append, List.append_assoc]
      apply List.Sublist.cons_cons
      exact (List.Sublist.refl _).append (drop_storeFrame config packet now router replay.index)
  have hle := Multiset.coe_le.mpr (hentries.map StoredFrame.packet).subperm
  rw [List.map_append, ← Multiset.coe_add, add_comm] at hle
  exact hle

omit [Alphabet β] [DecidableEq β] [Marked β F] in
/-- The iterator of a replay passes each entry once. -/
lemma waiting_replayFrom (config : MeshConfig) (now : ℚ) (index : ℕ)
    (keep : List (StoredFrame F)) (sent : ℕ) (router : Router β F) :
    (router.replayFrom config now index keep sent).1.waiting
        (router.replayFrom config now index keep sent).2.getRight? ≤
      ((keep ++ router.store.drop index).map StoredFrame.packet : List F) := by
  unfold replayFrom
  rcases hnext : nextEntry config now index (router.store.drop index) with _ | ⟨index', next⟩
  · -- the call ends, and what it has kept becomes the store
    show ((keep.map StoredFrame.packet : List F) : Multiset F) ≤ _
    rw [List.map_append]
    exact Multiset.coe_le.mpr (List.sublist_append_left _ _).subperm
  · -- the entries that are passed over have expired, and are no longer waiting
    obtain ⟨passed, rest, hdrop, rfl, -⟩ := nextEntry_eq_some hnext
    have hrest : router.store.drop (index + passed.length + 1) = rest := by
      rw [Nat.add_assoc, ← List.drop_drop, hdrop, ← List.drop_drop, List.drop_left]
      rfl
    show ((((next :: (keep ++ router.store.drop (index + passed.length + 1))).map
      StoredFrame.packet : List F)) : Multiset F) ≤ _
    rw [hrest, hdrop]
    apply Multiset.coe_le.mpr
    have hperm : (next :: (keep ++ rest)).Perm (keep ++ next :: rest) := List.perm_middle.symm
    have hsub : (keep ++ next :: rest).Sublist (keep ++ (passed ++ next :: rest)) :=
      (List.Sublist.refl _).append (List.sublist_append_right _ _)
    exact (hperm.map StoredFrame.packet).subperm.trans (hsub.map StoredFrame.packet).subperm

/-- Only the store and the counters differ. -/
def StoreOnly (before after : Router β F) : Prop :=
  after = { before with store := after.store, stats := after.stats }

omit [Alphabet β] [DecidableEq β] in
/-- What changes the store only relays the same frames. -/
lemma StoreOnly.relaying_eq {before after : Router β F} (h : StoreOnly before after) :
    after.relaying = before.relaying := by
  rw [h]
  rfl

omit [Alphabet β] [DecidableEq β] [Marked β F] in
/-- It has seen the same frames. -/
lemma StoreOnly.dedup_eq {before after : Router β F} (h : StoreOnly before after) :
    after.dedup = before.dedup := by
  rw [h]

omit [Alphabet β] [DecidableEq β] [Marked β F] in
/-- Storing is a change of the store. -/
lemma storeOnly_storeFrame (config : MeshConfig) (frame : F) (now : ℚ) (router : Router β F) :
    StoreOnly router (storeFrame config frame now router).2 := by
  unfold StoreOnly
  rcases storeFrame_cases config frame now router with ⟨h, -⟩ | ⟨-, h⟩
  · rw [h]
  · rw [h]

omit [Alphabet β] [DecidableEq β] [Marked β F] in
/-- A relay task that was not sent stores its frame, or drops it. -/
lemma finishRelay_false (config : MeshConfig) (frame : F) (now : ℚ) (router : Router β F) :
    (finishRelay config frame false now router).2 = router ∨
      (finishRelay config frame false now router).2 = (storeFrame config frame now router).2 := by
  unfold finishRelay
  rw [if_neg Bool.false_ne_true]
  split_ifs with hforward
  · exact Or.inr rfl
  · exact Or.inl rfl

omit [Alphabet β] [DecidableEq β] [Marked β F] in
/-- So the end of a relay task is a change of the store. -/
lemma storeOnly_finishRelay (config : MeshConfig) (frame : F) (returned : Bool) (now : ℚ)
    (router : Router β F) :
    StoreOnly router (finishRelay config frame returned now router).2 := by
  cases returned with
  | true => rfl
  | false =>
    rcases finishRelay_false config frame now router with h | h
    · rw [h]
      rfl
    · rw [h]
      exact storeOnly_storeFrame config frame now router

omit [Alphabet β] [DecidableEq β] [Marked β F] in
/-- So is each step of a replay. -/
lemma storeOnly_replayFrom (config : MeshConfig) (now : ℚ) (index : ℕ)
    (keep : List (StoredFrame F)) (sent : ℕ) (router : Router β F) :
    StoreOnly router (router.replayFrom config now index keep sent).1 := by
  unfold replayFrom
  split <;> rfl

omit [Alphabet β] [DecidableEq β] [Marked β F] in
/-- So is going on after a send that has returned or raised. -/
lemma storeOnly_resumeReplay (config : MeshConfig) (replay : Replay F) (returned : Bool)
    (router : Router β F) :
    StoreOnly router (router.resumeReplay config replay returned).1 := by
  cases returned with
  | true =>
    have h := storeOnly_replayFrom config replay.now replay.index replay.keep (replay.sent + 1)
      { router with stats := { router.stats with replayed := router.stats.replayed + 1 } }
    exact h
  | false => exact storeOnly_replayFrom _ _ _ _ _ router

omit [Alphabet β] [DecidableEq β] [Marked β F] in
/-- A relay whose send has failed leaves its frame in the store, or nowhere. -/
lemma waiting_finishRelay (config : MeshConfig) (frame : F) (returned : Bool) (now : ℚ)
    (router : Router β F) (replay : Option (Replay F)) :
    (finishRelay config frame returned now router).2.waiting replay +
      (if returned then {frame} else 0) ≤ {frame} + router.waiting replay := by
  cases returned with
  | true => exact le_of_eq (add_comm _ _)
  | false =>
    rw [if_neg Bool.false_ne_true, add_zero]
    rcases finishRelay_false config frame now router with h | h
    · rw [h]
      exact Multiset.le_add_left _ _
    · rw [h]
      exact waiting_storeFrame config frame now router replay

omit [Alphabet β] [DecidableEq β] [Marked β F] in
/-- A replay whose send has ended goes on with what is waiting. -/
lemma waiting_resumeReplay (config : MeshConfig) (replay : Replay F) (returned : Bool)
    (router : Router β F) :
    (router.resumeReplay config replay returned).1.waiting
        (router.resumeReplay config replay returned).2.getRight? +
      (if returned then {replay.entry.packet} else 0) ≤ router.waiting (some replay) := by
  have hwaiting : router.waiting (some replay) = {replay.entry.packet} +
      ((replay.keep ++ router.store.drop replay.index).map StoredFrame.packet : List F) := rfl
  rw [hwaiting]
  cases returned with
  | true =>
    rw [if_pos rfl, add_comm]
    apply Multiset.add_le_add_left
    exact waiting_replayFrom config replay.now replay.index replay.keep (replay.sent + 1)
      { router with stats := { router.stats with replayed := router.stats.replayed + 1 } }
  | false =>
    rw [if_neg Bool.false_ne_true, add_zero]
    have hrest := waiting_replayFrom config replay.now replay.index
      (replay.keep ++ [replay.entry]) replay.sent router
    apply le_trans hrest
    apply Multiset.coe_le.mpr
    rw [List.append_assoc]
    exact (List.perm_middle.map StoredFrame.packet).subperm

end Router

/-! ## What a station holds -/

namespace Station

open Router

variable {station : Station β F}

def held (station : Station β F) : Multiset F :=
  (station.originating : Multiset F) + station.delivering + station.router.relaying +
    station.router.waiting station.replay + station.transmitted

lemma coe_append_singleton (l : List F) (frame : F) :
    ((l ++ [frame] : List F) : Multiset F) = {frame} + (l : Multiset F) := by
  rw [← Multiset.coe_add, add_comm]
  rfl

omit [Alphabet β] in
/-- What a station originates it holds. -/
lemma held_originate (frame : F) (now : ℚ) (station : Station β F) :
    (station.originate frame now).held = {frame} + station.held := by
  show ((station.originating ++ [frame] : List F) : Multiset F) + station.delivering +
    station.router.relaying + station.router.waiting station.replay + station.transmitted = _
  rw [coe_append_singleton]
  unfold held
  abel

omit [Alphabet β] in
/-- A relay that is scheduled takes on a frame that was elsewhere. -/
lemma inherits_scheduleRelay (frame : F) (delay : ℚ) (station : Station β F) :
    Inherits Forwards
      ({ station with router := scheduleRelay frame delay station.router } : Station β F).held
      ({frame} + station.held) := by
  have hmove := (relaying_scheduleRelay frame delay station.router).add_right
    (station.originating + station.delivering + station.router.waiting station.replay +
      station.transmitted)
  have hwaiting : (scheduleRelay frame delay station.router).waiting station.replay =
      station.router.waiting station.replay := by
    unfold waiting
    rw [store_scheduleRelay]
  have hnew : ({ station with router := scheduleRelay frame delay station.router } :
      Station β F).held = (scheduleRelay frame delay station.router).relaying +
        (station.originating + station.delivering + station.router.waiting station.replay +
          station.transmitted) := by
    unfold held
    rw [hwaiting]
    abel
  have hold : ({frame} + station.held : Multiset F) = {frame} + station.router.relaying +
      (station.originating + station.delivering + station.router.waiting station.replay +
        station.transmitted) := by
    unfold held
    abel
  rw [hnew, hold]
  exact hmove

omit [Alphabet β] in
/-- The pieces of `handle` are `handle`, when nothing comes between them. -/
theorem hear_deliverEnds (hidle : station.delivering = []) (frame : F) (now : ℚ)
    (forUs : Except (Exc β) Bool) (outcome : Except (Exc β) Unit) (delay : ℚ) :
    ((station.hear frame now forUs delay).deliverEnds 0 outcome.isOk delay).router =
      (handle id (fun router _ => router) (fun _ _ => forUs) (fun _ => Method.eval outcome) frame
        now delay station.router).2 := by
  unfold handle
  rw [Method.bind_apply, Method.onField_apply, id]
  have hnone : station.delivering[0]? = none := by
    rw [hidle]
    rfl
  by_cases hseen : Frame.dedupKey frame ∈ (station.router.dedup.expire now).seen.keys
  · rw [hear_of_seen hseen, accept_of_seen hseen, deliverEnds_of_none]
    · rfl
    · exact hnone
  · rw [hear_of_new hseen, accept_of_new hseen]
    rcases forUs with _ | ours
    · rw [deliverEnds_of_none]
      · rfl
      · exact hnone
    · cases ours with
      | false =>
        dsimp only
        rw [deliverEnds_of_none]
        · rfl
        · exact hnone
      | true =>
        have hsome : (station.delivering ++ [frame])[0]? = some frame := by
          rw [hidle]
          rfl
        dsimp only
        rw [deliverEnds_of_some hsome]
        -- where the delivery raises, neither schedules a relay
        rcases outcome with _ | _
        · rfl
        · rfl

omit [Alphabet β] in
/-- A frame that is heard is looked up, whatever becomes of it. -/
lemma dedup_hear (frame : F) (now : ℚ) (forUs : Except (Exc β) Bool) (delay : ℚ)
    (station : Station β F) :
    (station.hear frame now forUs delay).router.dedup =
      (DedupCache.checkSeen (Frame.dedupKey frame) now station.router.dedup).2 := by
  by_cases hseen : Frame.dedupKey frame ∈ (station.router.dedup.expire now).seen.keys
  · rw [hear_of_seen hseen]
    exact (dropped_eq frame now station.router).1
  · rw [hear_of_new hseen]
    rcases forUs with _ | ours
    · rfl
    · cases ours with
      | true => rfl
      | false => exact dedup_scheduleRelay _ _ _

omit [Alphabet β] in
/-- Every frame that is heard counts as handled. -/
lemma handled_hear (frame : F) (now : ℚ) (forUs : Except (Exc β) Bool) (delay : ℚ)
    (station : Station β F) :
    (station.hear frame now forUs delay).handled = station.handled ++ [frame] := by
  by_cases hseen : Frame.dedupKey frame ∈ (station.router.dedup.expire now).seen.keys
  · rw [hear_of_seen hseen]
    rfl
  · rw [hear_of_new hseen]
    rcases forUs with _ | ours
    · rfl
    · cases ours <;> rfl

omit [Alphabet β] in
/-- A frame that was seen adds nothing to what a station holds. -/
lemma held_le_of_seen {frame : F} {now : ℚ}
    (h : Frame.dedupKey frame ∈ (station.router.dedup.expire now).seen.keys)
    (forUs : Except (Exc β) Bool) (delay : ℚ) :
    (station.hear frame now forUs delay).held ≤ station.held := by
  rw [hear_of_seen h]
  unfold held
  apply Multiset.add_le_add_right
  apply add_le_add
  · exact Multiset.add_le_add_left (relaying_dropped_le frame now station.router)
  · unfold waiting
    rw [(dropped_eq frame now station.router).2]
    exact le_refl _

omit [Alphabet β] in
/-- A new frame adds at most a copy with one hop less. -/
lemma inherits_hear_of_new {frame : F} {now : ℚ}
    (h : Frame.dedupKey frame ∉ (station.router.dedup.expire now).seen.keys)
    (forUs : Except (Exc β) Bool) (delay : ℚ) :
    Inherits Forwards (station.hear frame now forUs delay).held ({frame} + station.held) := by
  rw [hear_of_new h]
  rcases forUs with _ | ours
  · exact .of_le (Multiset.le_add_left _ _)
  · cases ours with
    | true =>
      apply Inherits.of_le
      show (station.originating : Multiset F) + (station.delivering ++ [frame] : List F) +
        station.router.relaying + station.router.waiting station.replay + station.transmitted ≤ _
      rw [coe_append_singleton]
      unfold held
      apply le_of_eq
      abel
    | false => exact inherits_scheduleRelay frame delay (station.counting frame now)

/-- A send puts its frame on the air, or not. -/
lemma sent_le (frame : F) (returned : Bool) :
    (if returned then {frame} else 0 : Multiset F) ≤ {frame} := by
  cases returned with
  | true => exact le_refl _
  | false => exact Multiset.zero_le _

/-- A send that has returned adds its frame to what was transmitted. -/
lemma coe_transmitted (l : List F) (frame : F) (returned : Bool) :
    ((if returned then l ++ [frame] else l : List F) : Multiset F) =
      (if returned then {frame} else 0) + (l : Multiset F) := by
  cases returned with
  | true => exact coe_append_singleton l frame
  | false => exact (zero_add _).symm

omit [Alphabet β] in
/-- Whatever a station does by itself, it makes no second copy of a frame. -/
theorem inherits_step (config : MeshConfig) (station : Station β F) (event : StationEvent) :
    Inherits Forwards (station.step config event).held station.held := by
  have hstepped := stepped_step config station event
  generalize station.step config event = after at hstepped ⊢
  cases hstepped with
  | idle => exact .refl _
  | @delivered n frame hframe returned delay =>
    -- the frame leaves `delivering`, and its relay is scheduled if the delivery has returned
    have hheld : station.held = {frame} +
        ({ station with delivering := station.delivering.eraseIdx n } : Station β F).held := by
      unfold held
      rw [coe_of_getElem? hframe]
      abel
    rw [hheld]
    cases returned with
    | true =>
      exact inherits_scheduleRelay frame delay
        { station with delivering := station.delivering.eraseIdx n }
    | false => exact .of_le (Multiset.le_add_left _ _)
  | fired hhandle =>
    -- from the timers to the relay tasks
    have hrelaying := relaying_fireRelay hhandle
    apply Inherits.of_le
    unfold held
    rw [hrelaying]
    exact le_refl _
  | @originated n frame hframe returned now =>
    have hheld : station.held = {frame} +
        ({ station with originating := station.originating.eraseIdx n } : Station β F).held := by
      unfold held
      rw [coe_of_getElem? hframe]
      abel
    apply Inherits.of_le
    rw [hheld]
    unfold held
    rw [coe_transmitted]
    calc _ = (if returned then {frame} else 0) + ((station.originating.eraseIdx n : Multiset F) +
          station.delivering + station.router.relaying + station.router.waiting station.replay +
          station.transmitted) := by abel
      _ ≤ _ := Multiset.add_le_add_right (sent_le frame returned)
  | @relayed n frame hframe returned now =>
    -- sent, or back to the store
    have hrelaying : station.router.relaying = {frame} +
        relaying { station.router with relayTasks := station.router.relayTasks.eraseIdx n } := by
      unfold relaying
      rw [coe_of_getElem? hframe]
      abel
    have hwaiting := waiting_finishRelay config frame returned now
      { station.router with relayTasks := station.router.relayTasks.eraseIdx n } station.replay
    apply Inherits.of_le
    unfold held
    rw [coe_transmitted, (storeOnly_finishRelay config frame returned now _).relaying_eq, hrelaying]
    calc _ = ((finishRelay config frame returned now { station.router with
            relayTasks := station.router.relayTasks.eraseIdx n }).2.waiting station.replay +
          (if returned then {frame} else 0)) + ((station.originating : Multiset F) +
          (station.delivering : Multiset F) + relaying { station.router with
            relayTasks := station.router.relayTasks.eraseIdx n } +
          (station.transmitted : Multiset F)) := by abel
      _ ≤ _ := Multiset.add_le_add_right hwaiting
      _ = _ := by
        show {frame} + station.router.waiting station.replay + _ = _
        abel
  | @replayed replay hreplay returned now =>
    have hwaiting := waiting_resumeReplay config replay returned station.router
    apply Inherits.of_le
    unfold held
    rw [coe_transmitted, (storeOnly_resumeReplay config replay returned _).relaying_eq, hreplay]
    calc _ = ((station.router.resumeReplay config replay returned).1.waiting
            (station.router.resumeReplay config replay returned).2.getRight? +
          (if returned then {replay.entry.packet} else 0)) + ((station.originating : Multiset F) +
          (station.delivering : Multiset F) + station.router.relaying +
          (station.transmitted : Multiset F)) := by abel
      _ ≤ _ := Multiset.add_le_add_right hwaiting
      _ = _ := by abel
  | replaying hreplay now =>
    have hwaiting := waiting_replayFrom config now 0 [] 0 station.router
    have hstore := storeOnly_replayFrom config now 0 [] 0 station.router
    apply Inherits.of_le
    unfold held replayStore
    rw [hstore.relaying_eq, hreplay]
    apply Multiset.add_le_add_right
    apply Multiset.add_le_add_left
    exact hwaiting

omit [Alphabet β] in
/-- What a station does by itself leaves the dedup cache and what it has been handed alone. -/
lemma step_eq (config : MeshConfig) (station : Station β F) (event : StationEvent) :
    (station.step config event).router.dedup = station.router.dedup ∧
      (station.step config event).delivered = station.delivered ∧
      (station.step config event).handled = station.handled := by
  have hstepped := stepped_step config station event
  generalize station.step config event = after at hstepped ⊢
  cases hstepped with
  | idle => exact ⟨rfl, rfl, rfl⟩
  | @delivered n frame hframe returned delay =>
    cases returned with
    | true => exact ⟨dedup_scheduleRelay frame delay station.router, rfl, rfl⟩
    | false => exact ⟨rfl, rfl, rfl⟩
  | fired hhandle => exact ⟨rfl, rfl, rfl⟩
  | originated hframe returned now => exact ⟨rfl, rfl, rfl⟩
  | @relayed n frame hframe returned now =>
    exact ⟨(storeOnly_finishRelay config frame returned now _).dedup_eq, rfl, rfl⟩
  | @replayed replay hreplay returned now =>
    exact ⟨(storeOnly_resumeReplay config replay returned _).dedup_eq, rfl, rfl⟩
  | replaying hreplay now =>
    exact ⟨(storeOnly_replayFrom config now 0 [] 0 _).dedup_eq, rfl, rfl⟩

omit [Alphabet β] [DecidableEq β] in
/-- A frame that is being sent is one that the station holds. -/
lemma mem_held_of_sendingFrame {sending : Sending} {frame : F}
    (h : station.sendingFrame sending = some frame) : frame ∈ station.held := by
  unfold held
  simp only [Multiset.mem_add]
  cases sending with
  | origination n => exact Or.inl (Or.inl (Or.inl (Or.inl (List.mem_of_getElem? h))))
  | relay n =>
    have hrelaying : frame ∈ station.router.relaying :=
      Multiset.mem_add.mpr (Or.inr (List.mem_of_getElem? h))
    exact Or.inl (Or.inl (Or.inr hrelaying))
  | replay =>
    obtain ⟨replay, hreplay, rfl⟩ := Option.map_eq_some_iff.mp h
    have hwaiting : replay.entry.packet ∈ station.router.waiting station.replay := by
      rw [hreplay]
      exact List.mem_cons_self
    exact Or.inl (Or.inr hwaiting)

end Station

end Chatbit
