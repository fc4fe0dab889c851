import Mathlib.Data.List.Perm.Subperm
import Chatbit.Lib.Runs
import Chatbit.Mesh.Router

/-!
# A replay while frames are stored

`replay_store` iterates over the list that `store` changes, and awaits a send for every entry. As
long as `store` only appends, the iterator gets to what is stored meanwhile, and every entry is
sent, kept or found expired (`replay_loses_nothing`). When the store is full, `store` pops the front
of the list under the iterator: the next entry moves to a position that the iterator has passed, and
is lost when the list is replaced at the end.
-/

namespace Chatbit

open Lib

variable {β F : Type} [Alphabet β] [DecidableEq β] [Frame β F]

/-- A call of `replay_store`, which has returned a count or awaits a send, and what has happened
since it began: `start` is what the store held then. -/
structure ReplayRun (β F : Type) where
  router : Router β F
  call : ℕ ⊕ Router.Replay F
  start : List (StoredFrame F)
  stored : List (StoredFrame F) := []
  evicted : List (StoredFrame F) := []
  sent : List (StoredFrame F) := []

/-- A relay fails and calls `store`, or the send of the replay returns or raises. -/
inductive ReplayEvent (F : Type) where
  | store (packet : F) (now : ℚ)
  | sendReturns
  | sendRaises

namespace ReplayRun

def begin (config : MeshConfig) (now : ℚ) (router : Router β F) : ReplayRun β F :=
  let (router', call) := router.replayStore config now
  { router := router', call := call, start := router.store }

/-- What `store` adds to the store. -/
def added (config : MeshConfig) (packet : F) (now : ℚ) : List (StoredFrame F) :=
  if config.storeForward then [⟨packet, now⟩] else []

/-- What it pops. -/
def popped (config : MeshConfig) (router : Router β F) : List (StoredFrame F) :=
  if config.storeForward ∧ router.store.length ≥ config.storeCapacity then router.store.take 1
  else []

def step (config : MeshConfig) (run : ReplayRun β F) (event : ReplayEvent F) : ReplayRun β F :=
  match run.call, event with
  | .inl _, _ => run
  | .inr _, .store packet now => { run with
    router := (run.router.storeFrame config packet now).2
    stored := run.stored ++ added config packet now
    evicted := run.evicted ++ popped config run.router }
  | .inr replay, .sendReturns =>
    let (router, call) := run.router.resumeReplay config replay true
    { run with router := router, call := call, sent := run.sent ++ [replay.entry] }
  | .inr replay, .sendRaises =>
    let (router, call) := run.router.resumeReplay config replay false
    { run with router := router, call := call }

/-- Each entry has been sent once, has expired, was evicted or is in the store, and what was evicted
is not. -/
def NothingLost (config : MeshConfig) (now : ℚ) (run : ReplayRun β F) : Prop :=
  (∃ expired gone, (∀ entry ∈ expired, entry.expired config now = true) ∧
    gone.Subperm run.evicted ∧
    (run.start ++ run.stored).Perm (run.sent ++ expired ++ gone ++ run.router.store)) ∧
  ∀ entry ∈ run.evicted, entry ∉ run.router.store

/-- The store has room for a frame that is stored now. -/
def HasRoom (config : MeshConfig) (run : ReplayRun β F) : ReplayEvent F → Prop
  | .store _ _ => config.storeForward = true → run.router.store.length < config.storeCapacity
  | _ => True

end ReplayRun

/-! ## The iterator -/

namespace Router

variable {config : MeshConfig} {now : ℚ} {index sent : ℕ} {keep : List (StoredFrame F)}
  {router : Router β F}

lemma expired_of_nextEntry_none {entries : List (StoredFrame F)}
    (h : nextEntry config now index entries = none) :
    ∀ entry ∈ entries, entry.expired config now = true := by
  induction entries generalizing index with
  | nil => exact fun _ he => absurd he List.not_mem_nil
  | cons entry rest ih =>
    unfold nextEntry at h
    split_ifs at h with hexpired
    intro e he
    rcases List.mem_cons.mp he with rfl | he
    · exact hexpired
    · exact ih h e he

/-- The iterator passes over the expired entries before the next one. -/
lemma nextEntry_eq_some {entries : List (StoredFrame F)} {index' : ℕ} {next : StoredFrame F}
    (h : nextEntry config now index entries = some (index', next)) :
    ∃ passed rest, entries = passed ++ next :: rest ∧ index' = index + passed.length + 1 ∧
      (∀ entry ∈ passed, entry.expired config now = true) ∧ next.expired config now = false := by
  induction entries generalizing index with
  | nil => cases h
  | cons entry rest ih =>
    unfold nextEntry at h
    split_ifs at h with hexpired
    · obtain ⟨passed, rest', rfl, rfl, hpassed, hnext⟩ := ih h
      refine ⟨entry :: passed, rest', rfl, ?_, ?_, hnext⟩
      · rw [List.length_cons]
        omega
      · intro e he
        rcases List.mem_cons.mp he with rfl | he
        · exact hexpired
        · exact hpassed e he
    · obtain ⟨rfl, rfl⟩ := Prod.mk.inj (Option.some.inj h)
      exact ⟨[], rest, rfl, rfl, fun _ he => absurd he List.not_mem_nil,
        Bool.eq_false_of_not_eq_true hexpired⟩

omit [Alphabet β] [DecidableEq β] [Frame β F] in
/-- `store` with room in the store. -/
lemma storeFrame_of_room
    (h : config.storeForward = true → router.store.length < config.storeCapacity) (packet : F)
    (storedAt : ℚ) :
    (router.storeFrame config packet storedAt).2.store =
      router.store ++ ReplayRun.added config packet storedAt := by
  unfold ReplayRun.added
  rcases storeFrame_cases config packet storedAt router with ⟨hsame, hoff⟩ | ⟨hforward, hnew⟩
  · have hoff : ¬ config.storeForward = true := fun hforward => by
      have hroom := h hforward
      rw [hoff hforward] at hroom
      exact Nat.not_lt_zero _ hroom
    rw [hsame, if_neg hoff, List.append_nil]
  · have hpopped : router.overflow config = 0 := if_neg (Nat.not_le.mpr (h hforward))
    rw [hnew, if_pos hforward, hpopped]
    rfl

end Router

/-! ## What becomes of each entry -/

namespace ReplayRun

variable {config : MeshConfig} {now : ℚ} {run : ReplayRun β F}

/-- The entries before the iterator have been sent, have expired, are kept or are being sent. Once
the call has returned, what is kept is the store. -/
def Accounted (config : MeshConfig) (now : ℚ) (entries sent : List (StoredFrame F))
    (router : Router β F) : ℕ ⊕ Router.Replay F → Prop
  | .inl count => sent.length = count ∧ ∃ expired,
    (∀ entry ∈ expired, entry.expired config now = true) ∧
      entries.Perm (sent ++ expired ++ router.store)
  | .inr replay => sent.length = replay.sent ∧ replay.now = now ∧ router.store = entries ∧
    replay.index ≤ entries.length ∧ ∃ expired,
      (∀ entry ∈ expired, entry.expired config now = true) ∧
        (entries.take replay.index).Perm (sent ++ expired ++ replay.keep ++ [replay.entry])

lemma perm_shift {α : Type} (a b c d : List α) : (a ++ b ++ c ++ d).Perm (a ++ (b ++ d) ++ c) := by
  simp only [List.append_assoc]
  exact List.Perm.append_left a (List.Perm.append_left b List.perm_append_comm)

omit [Alphabet β] [DecidableEq β] [Frame β F] in
/-- The loop goes on to its next send, or to its end. -/
lemma accounted_replayFrom {router : Router β F} {entries : List (StoredFrame F)} {index : ℕ}
    (sent expired keep : List (StoredFrame F)) (hstore : router.store = entries)
    (hindex : index ≤ entries.length)
    (hexpired : ∀ entry ∈ expired, entry.expired config now = true)
    (hbefore : (entries.take index).Perm (sent ++ expired ++ keep)) :
    Accounted config now entries sent (router.replayFrom config now index keep sent.length).1
      (router.replayFrom config now index keep sent.length).2 := by
  unfold Router.replayFrom
  rw [hstore]
  rcases hnext : Router.nextEntry config now index (entries.drop index) with _ | ⟨index', next⟩
  · -- the iterator is at the end
    have hrest := Router.expired_of_nextEntry_none hnext
    refine ⟨rfl, expired ++ entries.drop index, ?_, ?_⟩
    · intro entry he
      rcases List.mem_append.mp he with he | he
      · exact hexpired entry he
      · exact hrest entry he
    · calc entries
          _ = entries.take index ++ entries.drop index := (List.take_append_drop _ _).symm
          List.Perm _ (sent ++ expired ++ keep ++ entries.drop index) := hbefore.append_right _
          List.Perm _ (sent ++ (expired ++ entries.drop index) ++ keep) := perm_shift _ _ _ _
  · obtain ⟨passed, rest, hdrop, rfl, hpassed, -⟩ := Router.nextEntry_eq_some hnext
    have hsplit : entries = entries.take index ++ (passed ++ next :: rest) := by
      rw [← hdrop, List.take_append_drop]
    have hlen : (entries.take index).length = index := by
      rw [List.length_take]
      omega
    -- the positions up to the next entry: those before, those passed over and the entry itself
    have htake : entries.take (index + passed.length + 1) =
        entries.take index ++ passed ++ [next] := by
      have hprefix :
          (entries.take index ++ passed ++ [next]).length = index + passed.length + 1 := by
        simp only [List.length_append, hlen, List.length_singleton]
      conv_lhs => rw [hsplit]
      rw [← hprefix, show entries.take index ++ (passed ++ next :: rest) =
        entries.take index ++ passed ++ [next] ++ rest by simp]
      exact List.take_left
    refine ⟨rfl, rfl, hstore, ?_, expired ++ passed, ?_, ?_⟩
    · have hentries := congrArg List.length hsplit
      simp only [List.length_append, List.length_cons, hlen] at hentries
      show index + passed.length + 1 ≤ entries.length
      omega
    · intro entry he
      rcases List.mem_append.mp he with he | he
      · exact hexpired entry he
      · exact hpassed entry he
    · show (entries.take (index + passed.length + 1)).Perm _
      rw [htake]
      exact ((hbefore.append_right passed).trans (perm_shift _ _ _ _)).append_right [next]

/-- The invariant of a run in which `store` has always had room. -/
structure Tracks (config : MeshConfig) (now : ℚ) (run : ReplayRun β F) : Prop where
  evicted : run.evicted = []
  accounted : Accounted config now (run.start ++ run.stored) run.sent run.router run.call

omit [Alphabet β] [DecidableEq β] [Frame β F] in
lemma tracks_begin (router : Router β F) : Tracks config now (begin config now router) where
  evicted := rfl
  accounted := by
    show Accounted config now (router.store ++ []) [] _ _
    rw [List.append_nil]
    exact accounted_replayFrom [] [] [] rfl (Nat.zero_le _)
      (fun _ he => absurd he List.not_mem_nil) (.refl _)

omit [Alphabet β] [DecidableEq β] [Frame β F] in
lemma Tracks.step (h : Tracks config now run) {event : ReplayEvent F}
    (hroom : run.HasRoom config event) : Tracks config now (run.step config event) := by
  obtain ⟨hevicted, haccounted⟩ := h
  rcases run with ⟨router, call, start, stored, evicted, sent⟩
  cases call with
  | inl count => exact ⟨hevicted, haccounted⟩
  | inr replay =>
    obtain ⟨hcount, rfl, hstore, hindex, expired, hexpired, hbefore⟩ := haccounted
    cases event with
    | store packet storedAt =>
      have hroom : config.storeForward = true → router.store.length < config.storeCapacity := hroom
      -- with room, nothing is popped and the positions stay
      have hpop : popped config router = [] :=
        if_neg fun h => absurd h.2 (Nat.not_le.mpr (hroom h.1))
      refine ⟨?_, hcount, rfl, ?_, ?_, expired, hexpired, ?_⟩
      · show evicted ++ popped config router = []
        rw [hpop, List.append_nil]
        exact hevicted
      · show (router.storeFrame config packet storedAt).2.store =
          start ++ (stored ++ added config packet storedAt)
        rw [Router.storeFrame_of_room hroom, hstore, List.append_assoc]
      · show replay.index ≤ (start ++ (stored ++ added config packet storedAt)).length
        rw [← List.append_assoc, List.length_append]
        exact Nat.le_add_right_of_le hindex
      · show ((start ++ (stored ++ added config packet storedAt)).take replay.index).Perm _
        rw [← List.append_assoc, List.take_append_of_le_length hindex]
        exact hbefore
    | sendReturns =>
      refine ⟨hevicted, ?_⟩
      -- the entry joins those that have been sent
      have hcounted : { router with
          stats := { router.stats with replayed := router.stats.replayed + 1 } }.store =
            start ++ stored := hstore
      have hnext := accounted_replayFrom (sent ++ [replay.entry]) expired replay.keep hcounted
        hindex hexpired (hbefore.trans ?_)
      · rw [List.length_append, List.length_singleton, hcount] at hnext
        exact hnext
      · simp only [List.append_assoc]
        apply List.Perm.append_left
        rw [← List.append_assoc]
        exact List.perm_append_comm
    | sendRaises =>
      refine ⟨hevicted, ?_⟩
      -- the entry joins those that are kept
      have hnext := accounted_replayFrom sent expired (replay.keep ++ [replay.entry]) hstore hindex
        hexpired (by rw [← List.append_assoc]; exact hbefore)
      rw [hcount] at hnext
      exact hnext

/-! ## The capacity of the store -/

omit [Alphabet β] [DecidableEq β] [Frame β F] in
/-- `store` keeps the bound, and the list does not get shorter. -/
lemma length_storeFrame {router : Router β F} (hcapacity : 1 ≤ config.storeCapacity)
    (h : router.store.length ≤ config.storeCapacity) (packet : F) (storedAt : ℚ) :
    router.store.length ≤ (router.storeFrame config packet storedAt).2.store.length ∧
      (router.storeFrame config packet storedAt).2.store.length ≤ config.storeCapacity := by
  rcases Router.storeFrame_cases config packet storedAt router with ⟨hsame, -⟩ | ⟨-, hnew⟩
  · rw [hsame]
    exact ⟨le_refl _, h⟩
  · rw [hnew]
    show _ ≤ (router.store.drop (router.overflow config) ++ [_]).length ∧
      (router.store.drop (router.overflow config) ++ [_]).length ≤ _
    rw [List.length_append, List.length_drop, List.length_singleton]
    unfold Router.overflow
    split_ifs with hfull
    · -- the oldest entry goes, the new one comes
      omega
    · omega

/-- The store is within its capacity, and so is what a replay has kept. -/
def Bounded (config : MeshConfig) (run : ReplayRun β F) : Prop :=
  run.router.store.length ≤ config.storeCapacity ∧
    match run.call with
    | .inl _ => True
    | .inr replay =>
      replay.keep.length + 1 ≤ replay.index ∧ replay.index ≤ run.router.store.length

omit [Alphabet β] [DecidableEq β] [Frame β F] in
lemma bounded_replayFrom (router : Router β F) (keep : List (StoredFrame F)) {index sent : ℕ}
    (hcapacity : router.store.length ≤ config.storeCapacity) (hindex : index ≤ router.store.length)
    (hkeep : keep.length ≤ index) {run : ReplayRun β F}
    (hrun : (run.router, run.call) = router.replayFrom config now index keep sent) :
    run.Bounded config := by
  unfold Router.replayFrom at hrun
  unfold Bounded
  rcases hnext : Router.nextEntry config now index (router.store.drop index) with
    _ | ⟨index', next⟩
  · rw [hnext] at hrun
    obtain ⟨hrouter, hcall⟩ := Prod.mk.inj hrun
    rw [hrouter, hcall]
    exact ⟨by show keep.length ≤ _; omega, trivial⟩
  · obtain ⟨passed, rest, hdrop, rfl, -⟩ := Router.nextEntry_eq_some hnext
    rw [hnext] at hrun
    obtain ⟨hrouter, hcall⟩ := Prod.mk.inj hrun
    have hlen := congrArg List.length hdrop
    rw [List.length_drop, List.length_append, List.length_cons] at hlen
    rw [hrouter, hcall]
    refine ⟨hcapacity, ?_, ?_⟩
    · show keep.length + 1 ≤ index + passed.length + 1
      omega
    · show index + passed.length + 1 ≤ router.store.length
      omega

omit [Alphabet β] [DecidableEq β] [Frame β F] in
lemma Bounded.step (h : run.Bounded config) (hcapacity : 1 ≤ config.storeCapacity)
    (event : ReplayEvent F) : (run.step config event).Bounded config := by
  rcases run with ⟨router, call, start, stored, evicted, sent⟩
  cases call with
  | inl count => exact h
  | inr replay =>
    obtain ⟨hstore, hkeep, hindex⟩ := h
    cases event with
    | store packet storedAt =>
      obtain ⟨hlonger, hbound⟩ := length_storeFrame hcapacity hstore packet storedAt
      exact ⟨hbound, hkeep, Nat.le_trans hindex hlonger⟩
    | sendReturns =>
      apply bounded_replayFrom { router with
        stats := { router.stats with replayed := router.stats.replayed + 1 } } replay.keep hstore
        hindex (Nat.le_of_succ_le hkeep)
      rfl
    | sendRaises =>
      apply bounded_replayFrom router (replay.keep ++ [replay.entry]) hstore hindex
      · rw [List.length_append, List.length_singleton]
        exact hkeep
      · rfl

omit [Alphabet β] [DecidableEq β] [Frame β F] in
/-- The store is never above its capacity, whatever is stored during a replay. -/
theorem storedCount_le (hcapacity : 1 ≤ config.storeCapacity) {router : Router β F}
    (hstore : router.storedCount ≤ config.storeCapacity)
    (hrun : Reaches (fun _ _ => True) (step config) (begin config now router) run) :
    run.router.storedCount ≤ config.storeCapacity := by
  have hbegin : (begin config now router).Bounded config :=
    bounded_replayFrom router [] hstore (Nat.zero_le _) (Nat.zero_le _) rfl
  have hbounded : run.Bounded config :=
    hrun.invariant (I := fun run => run.Bounded config) hbegin
      fun run event h _ => h.step hcapacity event
  exact hbounded.1

/-! ## Results -/

omit [Alphabet β] [DecidableEq β] [Frame β F] in
/-- Where every frame that is stored while a send is awaited finds room in the store, the store is
never above its capacity, and a replay that returns has lost no frame. -/
theorem replay_loses_nothing (hcapacity : 1 ≤ config.storeCapacity) (router : Router β F)
    (hrun : Reaches (HasRoom config) (step config) (begin config now router) run) :
    (router.storedCount ≤ config.storeCapacity →
      run.router.storedCount ≤ config.storeCapacity) ∧
    ∀ count, run.call = .inl count → run.sent.length = count ∧ run.NothingLost config now := by
  constructor
  · intro hstore
    exact storedCount_le hcapacity hstore (hrun.mono fun _ _ _ => trivial)
  · intro count hcall
    have htracks : Tracks config now run :=
      hrun.invariant (I := Tracks config now) (tracks_begin router)
        fun run event h hroom => h.step hroom
    obtain ⟨hevicted, haccounted⟩ := htracks
    rw [hcall] at haccounted
    obtain ⟨hcount, expired, hexpired, hperm⟩ := haccounted
    refine ⟨hcount, ⟨expired, [], hexpired, ?_, ?_⟩, ?_⟩
    · exact (List.nil_sublist _).subperm
    · rw [List.append_nil]
      exact hperm
    · rw [hevicted]
      exact fun _ he => absurd he List.not_mem_nil

/-! ## A full store -/

def storable (payload : UInt8) : Packet UInt8 :=
  .ofFields .data [payload] (List.replicate 8 payload) (List.replicate 8 0) 6 0 1
    ⟨List.length_replicate, List.length_replicate, by decide, by decide, by decide,
      show 1 ≤ 0xFFFF by decide⟩

def holding (packet : Packet UInt8) : Router UInt8 := { store := [⟨packet, 0⟩] }

/-- A relay fails while the only entry of a full store is being sent. -/
def fullRun : ReplayRun UInt8 (Packet UInt8) :=
  [ReplayEvent.store (storable 2) 1, .sendReturns].foldl (step { storeCapacity := 1 })
    (begin { storeCapacity := 1 } 1 (holding (storable 1)))

/-- The new frame takes the place that the iterator has passed, and is lost. -/
theorem full_store_loses_frame :
    Reaches (fun _ _ => True) (step { storeCapacity := 1 })
      (begin { storeCapacity := 1 } 1 (holding (storable 1))) fullRun ∧
    fullRun.call = .inl 1 ∧ fullRun.router.store = [] ∧
    ¬ fullRun.NothingLost { storeCapacity := 1 } 1 := by
  have hstore : fullRun.router.store = [] := List.isEmpty_iff.mp (by decide +kernel)
  refine ⟨(Reaches.refl _).foldl fun _ _ _ => trivial,
    Sum.getLeft?_eq_some_iff.mp (by decide +kernel), hstore, ?_⟩
  intro h
  obtain ⟨⟨expired, gone, hexpired, hgone, hperm⟩, -⟩ := h
  -- the new frame has not been sent, has not expired and was not evicted
  have hstored : (1 : ℚ) ∈ fullRun.stored.map StoredFrame.storedAt := by decide +kernel
  obtain ⟨entry, hentry, hat⟩ := List.mem_map.mp hstored
  have hnew : entry ∈ fullRun.sent ++ expired ++ gone ++ fullRun.router.store :=
    hperm.subset (List.mem_append_right _ hentry)
  have hsent : fullRun.sent.map StoredFrame.storedAt = [0] := by decide +kernel
  have hevicted : fullRun.evicted.map StoredFrame.storedAt = [0] := by decide +kernel
  have hnever : (1 : ℚ) ∉ [0] := by decide +kernel
  rw [hstore, List.append_nil] at hnew
  rcases List.mem_append.mp hnew with hnew | hgo
  · rcases List.mem_append.mp hnew with hnew | hexp
    · exact hnever (hsent ▸ hat ▸ List.mem_map_of_mem hnew)
    · have hfresh : entry.expired { storeCapacity := 1 } 1 = false := by
        unfold StoredFrame.expired
        rw [hat]
        decide +kernel
      rw [hexpired entry hexp] at hfresh
      cases hfresh
  · exact hnever (hevicted ▸ hat ▸ List.mem_map_of_mem (hgone.subset hgo))

/-- With room for one more, the same run sends the one frame and the other. -/
theorem replay_loses_nothing_roomy :
    let roomy := [ReplayEvent.store (storable 2) 1, .sendReturns, .sendRaises].foldl
      (step { storeCapacity := 2 }) (begin { storeCapacity := 2 } 1 (holding (storable 1)))
    roomy.router.storedCount ≤ 2 ∧ roomy.sent.length = 1 ∧
      roomy.NothingLost { storeCapacity := 2 } 1 := by
  intro roomy
  have hrun : Reaches (HasRoom { storeCapacity := 2 }) (step { storeCapacity := 2 })
      (begin { storeCapacity := 2 } 1 (holding (storable 1))) roomy :=
    (((Reaches.refl _).tail fun _ => by decide +kernel).tail trivial).tail trivial
  obtain ⟨hbound, hreturned⟩ := replay_loses_nothing (by decide) (holding (storable 1)) hrun
  exact ⟨hbound (by decide), hreturned 1 (Sum.getLeft?_eq_some_iff.mp (by decide +kernel))⟩

end ReplayRun

end Chatbit
