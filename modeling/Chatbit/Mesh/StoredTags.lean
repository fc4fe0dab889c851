import Chatbit.Inbound
import Chatbit.Mesh.Replay
import Chatbit.Traffic.Length
import Chatbit.Wire.TagTheorems

/-!
# Stored frames and their tags

A relay keeps a stored frame for `store_ttl_seconds`, an hour by default. The tag of a frame is of
the ten minutes in which it was made, and a receiver accepts it in the ten minutes after them too.
So a frame may be sent again when nobody recognises it any more (`recognised_iff`).
-/

namespace Chatbit

open Lib

variable {β F X E : Type} [Alphabet β] [DecidableEq β] [Frame β F] {P : Primitives β X E}

/-! ## What a replay sends -/

namespace ReplayRun

variable {config : MeshConfig} {now : ℚ}

omit [Alphabet β] [DecidableEq β] [Frame β F] in
lemma foldl_of_returned {run : ReplayRun β F} {count : ℕ} (h : run.call = .inl count)
    (events : List (ReplayEvent F)) : events.foldl (step config) run = run := by
  induction events with
  | nil => rfl
  | cons event events ih =>
    have hstep : run.step config event = run := by
      unfold step
      rw [h]
    rwa [List.foldl_cons, hstep]

omit [Alphabet β] [DecidableEq β] [Frame β F] in
/-- Sends that all return are of the entries from the iterator on that have not expired. -/
lemma sent_sendReturns (n : ℕ) (run : ReplayRun β F) (index sent : ℕ)
    (keep : List (StoredFrame F)) (router : Router β F)
    (hn : (router.store.drop index).length ≤ n)
    (hrun : (run.router, run.call) = router.replayFrom config now index keep sent) :
    ((List.replicate n ReplayEvent.sendReturns).foldl (step config) run).sent =
      run.sent ++ (router.store.drop index).filter fun entry => !entry.expired config now := by
  induction n generalizing run index sent router with
  | zero =>
    rw [List.length_eq_zero_iff.mp (Nat.le_zero.mp hn)]
    exact (List.append_nil _).symm
  | succ n ih =>
    unfold Router.replayFrom at hrun
    rcases hnext : Router.nextEntry config now index (router.store.drop index) with
      _ | ⟨index', next⟩
    · -- the rest has expired, and the call has returned
      rw [hnext] at hrun
      have hrest := Router.expired_of_nextEntry_none hnext
      rw [foldl_of_returned (congrArg Prod.snd hrun), List.filter_eq_nil_iff.mpr, List.append_nil]
      exact fun entry he => by simp [hrest entry he]
    · rw [hnext] at hrun
      obtain ⟨hrouter, hcall⟩ := Prod.mk.inj hrun
      obtain ⟨passed, rest, hdrop, rfl, hpassed, hfresh⟩ := Router.nextEntry_eq_some hnext
      have hrest : router.store.drop (index + passed.length + 1) = rest := by
        rw [Nat.add_assoc, ← List.drop_drop, hdrop, List.drop_append]
        simp
      have hfilter : (passed ++ next :: rest).filter (fun entry => !entry.expired config now) =
          next :: rest.filter fun entry => !entry.expired config now := by
        have hnone : passed.filter (fun entry => !entry.expired config now) = [] :=
          List.filter_eq_nil_iff.mpr fun entry he => by simp [hpassed entry he]
        rw [List.filter_append, hnone, List.nil_append, List.filter_cons_of_pos (by simp [hfresh])]
      have hlen : rest.length ≤ n := by
        rw [hdrop, List.length_append, List.length_cons] at hn
        omega
      -- the send of `next` returns
      have hstep : run.step config .sendReturns = { run with
          router := (run.router.resumeReplay config
            ⟨now, index + passed.length + 1, next, keep, sent⟩ true).1
          call := (run.router.resumeReplay config
            ⟨now, index + passed.length + 1, next, keep, sent⟩ true).2
          sent := run.sent ++ [next] } := by
        unfold step
        rw [hcall]
      have hlater := ih (run.step config .sendReturns) (index + passed.length + 1) (sent + 1)
        { router with stats := { router.stats with replayed := router.stats.replayed + 1 } }
        (by rw [hrest]; exact hlen) (by rw [hstep, hrouter]; rfl)
      rw [List.replicate_succ, List.foldl_cons, hlater, hrest, hdrop, hfilter, hstep]
      exact List.append_assoc run.sent [next] _

end ReplayRun

namespace Router

/-- What `replay_store` sends if every send returns. -/
def replays (config : MeshConfig) (now : ℚ) (router : Router β F) : List (StoredFrame F) :=
  ((List.replicate router.store.length ReplayEvent.sendReturns).foldl (ReplayRun.step config)
    (ReplayRun.begin config now router)).sent

omit [Alphabet β] [DecidableEq β] [Frame β F] in
lemma replays_eq (config : MeshConfig) (now : ℚ) (router : Router β F) :
    router.replays config now = router.store.filter fun entry => !entry.expired config now := by
  exact ReplayRun.sent_sendReturns router.store.length (ReplayRun.begin config now router) 0 0 []
    router le_rfl rfl

omit [Alphabet β] [DecidableEq β] [Frame β F] in
/-- A relay that could not send the frame on stores it, and replays it while it is not too old. -/
lemma mem_replays_finishRelay (frame : F) {storedAt now : ℚ}
    (h : now - storedAt ≤ ({} : MeshConfig).storeTtlSeconds) :
    ⟨frame, storedAt⟩ ∈
      ((Router.new {} : Router β F).finishRelay {} frame false storedAt).2.replays {} now := by
  rw [replays_eq]
  refine List.mem_filter.mpr ⟨List.mem_singleton_self _, ?_⟩
  rw [StoredFrame.expired, Bool.not_eq_true', decide_eq_false_iff_not]
  exact not_lt.mpr h

end Router

/-! ## Who recognises the frame -/

/-- If a relay that stored the packet at `s` replays it at `t'`, the session owns its tag then. The
monotonic clock of the relay is ahead by `offset`. -/
def Recognised (P : Primitives β X E) (config : MeshConfig) (session : Session β X)
    (packet : Packet β) (s t' : ℚ) : Prop :=
  ∀ (router : Router β) (offset : ℚ),
    ⟨packet, s + offset⟩ ∈ router.replays config (t' + offset) →
    session.ownsTag P packet.dstTag t' = .ok true

section Recognised

variable {sender recipient : Session β X} {packet : Packet β} {s t t' : ℚ}

/-- While a stored packet has not expired, some relay replays it. -/
lemma recognised_iff_ownsTag (hkept : t' - s ≤ ({} : MeshConfig).storeTtlSeconds) :
    Recognised P {} recipient packet s t' ↔
      recipient.ownsTag P packet.dstTag t' = .ok true := by
  constructor
  · intro h
    exact h _ 0 (Router.mem_replays_finishRelay packet (by rwa [add_sub_add_right_eq_sub]))
  · exact fun h _ _ _ => h

/-- The recipient owns the tag of `t` until the epoch after that of `t` ends, if its clock is past
the first epoch and before the last one that has a number of eight octets. -/
lemma ownsTag_iff (hdistinct : Tags.Distinct P false recipient.recvTagKey)
    (hkey : sender.sendTagKey = recipient.recvTagKey)
    (htag : sender.currentSendTag P t = .ok packet.dstTag) (ht : t ≤ t') :
    recipient.ownsTag P packet.dstTag t' = .ok true ↔
      Tags.EPOCH_SECONDS ≤ t' ∧ t' < (Tags.currentEpoch t + 2) * Tags.EPOCH_SECONDS ∧
        t' < (256 ^ 8 - 1) * Tags.EPOCH_SECONDS := by
  have hsent : Tags.tagAt P false recipient.recvTagKey (Tags.currentEpoch t) = .ok packet.dstTag :=
    hkey ▸ htag
  have hlate : t' < (Tags.currentEpoch t + 2) * Tags.EPOCH_SECONDS ↔
      Tags.currentEpoch t' < Tags.currentEpoch t + 2 := by
    rw [Tags.currentEpoch_lt_iff]
    norm_num
  have hle : Tags.currentEpoch t ≤ Tags.currentEpoch t' := Tags.currentEpoch_mono ht
  have hnear : |Tags.currentEpoch t' - Tags.currentEpoch t| ≤ Tags.EPOCH_SKEW ↔
      Tags.currentEpoch t' < Tags.currentEpoch t + 2 := by
    rw [abs_of_nonneg (sub_nonneg.mpr hle), Tags.EPOCH_SKEW]
    omega
  have hfound : (∃ epoch, |Tags.currentEpoch t' - epoch| ≤ Tags.EPOCH_SKEW ∧
      Tags.tagAt P false recipient.recvTagKey epoch = .ok packet.dstTag) ↔
      Tags.currentEpoch t' < Tags.currentEpoch t + 2 := by
    rw [← hnear]
    constructor
    · -- the tag is of one epoch only
      rintro ⟨epoch, hskew, hepoch⟩
      rwa [hdistinct _ _ _ hsent hepoch]
    · exact fun h => ⟨_, h, hsent⟩
  rw [Session.ownsTag, Tags.tagMatches_ok_iff, hfound, hlate, ← Tags.one_le_currentEpoch_iff,
    ← Tags.currentEpoch_add_one_lt_iff]
  tauto

/-- A packet tagged at `t`, stored at `s` and replayed at `t'` is recognised exactly in the epoch of
`t` and the one after. -/
theorem recognised_iff (hdistinct : Tags.Distinct P false recipient.recvTagKey)
    (hkey : sender.sendTagKey = recipient.recvTagKey)
    (htag : sender.currentSendTag P t = .ok packet.dstTag) (hts : t ≤ s) (hst' : s ≤ t')
    (hkept : t' - s ≤ ({} : MeshConfig).storeTtlSeconds) :
    Recognised P {} recipient packet s t' ↔
      Tags.EPOCH_SECONDS ≤ t' ∧ t' < (Tags.currentEpoch t + 2) * Tags.EPOCH_SECONDS ∧
        t' < (256 ^ 8 - 1) * Tags.EPOCH_SECONDS :=
  (recognised_iff_ownsTag hkept).trans (ownsTag_iff hdistinct hkey htag (hts.trans hst'))

/-- Whenever a packet is tagged, a relay that stores it at once replays it when nobody recognises it
any more. -/
theorem store_outlasts_tag (hdistinct : Tags.Distinct P false recipient.recvTagKey)
    (hkey : sender.sendTagKey = recipient.recvTagKey)
    (htag : sender.currentSendTag P t = .ok packet.dstTag) :
    ¬ Recognised P {} recipient packet t (t + ({} : MeshConfig).storeTtlSeconds) := by
  have hlater : t ≤ t + ({} : MeshConfig).storeTtlSeconds := by norm_num
  rw [recognised_iff_ownsTag (by rw [add_sub_cancel_left]),
    ownsTag_iff hdistinct hkey htag hlater]
  rintro ⟨-, h, -⟩
  have hepoch := Tags.le_currentEpoch_iff.mp (le_refl (Tags.currentEpoch t))
  rw [Tags.EPOCH_SECONDS] at h hepoch
  push_cast at h hepoch
  linarith

end Recognised

/-! ## A frame of ten o'clock -/

open Node

/-- A packet from Alice to Bob. -/
def tenOClock : Packet SymByte :=
  .ofFields .data [] (zeros 8)
    ((symbolic.hmacSha256 (zeros 32) (Tags.tagDomain ++ toBytesBig 8 60)).take 8) 6 0 1
    (by decide)

/-- The relay that stored it at ten replays it at eleven, and Bob does not own its tag. -/
theorem replayed_unrecognised :
    aliceSession.currentSendTag symbolic 36000 = .ok tenOClock.dstTag ∧
    aliceSession.sendTagKey = bobSession.recvTagKey ∧
    ⟨tenOClock, 36000⟩ ∈ ((Router.new {} : Router SymByte).finishRelay {} tenOClock false
      36000).2.replays {} 39600 ∧
    bobSession.ownsTag symbolic tenOClock.dstTag 39600 = .ok false ∧
    ¬ Recognised symbolic {} bobSession tenOClock 36000 39600 := by
  have hkept : (39600 : ℚ) - 36000 ≤ ({} : MeshConfig).storeTtlSeconds := by norm_num
  have howns : bobSession.ownsTag symbolic tenOClock.dstTag 39600 = .ok false := by decide +kernel
  refine ⟨by decide +kernel, rfl, Router.mem_replays_finishRelay tenOClock hkept, howns, ?_⟩
  rw [recognised_iff_ownsTag hkept, howns]
  exact nofun

/-- At ten past ten he does. -/
theorem recognised_iff_ten_past :
    Recognised symbolic {} bobSession tenOClock 36000 36600 ↔
      Tags.EPOCH_SECONDS ≤ (36600 : ℚ) ∧
      (36600 : ℚ) < (Tags.currentEpoch 36000 + 2) * Tags.EPOCH_SECONDS ∧
        (36600 : ℚ) < (256 ^ 8 - 1) * Tags.EPOCH_SECONDS :=
  recognised_iff (Tags.distinct_of_tagIdeal symbolic_tagIdeal _ _)
    (show aliceSession.sendTagKey = bobSession.recvTagKey from rfl) (by decide +kernel) le_rfl
    (by norm_num) (by norm_num)

end Chatbit
