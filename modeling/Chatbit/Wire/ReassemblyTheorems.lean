import Mathlib.Algebra.Order.BigOperators.Group.List
import Mathlib.Algebra.Order.Group.Nat
import Mathlib.Data.List.Dedup
import Mathlib.Data.List.Induction
import Mathlib.Data.List.Perm.Subperm
import Chatbit.Wire.Reassembly

/-!
# What reassembly returns

`add` looks at one message only: as long as there is room, it leaves the other messages alone
(`add_eq`, `addTo_state`), and what it holds of a message that does not expire is the fragments that
have arrived (`Tracks`). The fragments that `fragment` makes of a payload therefore come back as the
payload, with the call that completes them (`add_afterAll`).
-/

namespace Chatbit

open Lib

variable {β : Type} {packets : List (Packet β)} {ptype : PacketType} {msgId payload : Bytes β}

/-! ## The packets of a message -/

/-- These packets are the fragments of this payload, in order. -/
structure Fragments (packets : List (Packet β)) (ptype : PacketType) (msgId payload : Bytes β) :
    Prop where
  indices : packets.map Packet.fragIndex = List.range packets.length
  fields : ∀ packet ∈ packets,
    packet.fragCount = packets.length ∧ packet.ptype = ptype ∧ packet.msgId = msgId
  payload : (packets.map Packet.payload).flatten = payload

lemma fragments_of_fragment {dstTag : Bytes β} {capacity ttl : ℕ}
    (h : fragment ptype payload msgId capacity dstTag ttl = .ok packets) :
    Fragments packets ptype msgId payload := by
  have hpayload := flatten_fragment h
  unfold fragment at h
  split_ifs at h with hzero
  simp only at h
  split_ifs at h with hmany
  have hall := mapM_ok_iff.mp h
  have hlen : packets.length = (chunks capacity payload).length := by
    rw [← hall.length_eq, List.length_zipIdx]
  constructor
  · have heq : List.Forall₂ Eq ((chunks capacity payload).zipIdx.map Prod.snd)
        (packets.map Packet.fragIndex) := by
      rw [List.forall₂_map_left_iff, List.forall₂_map_right_iff]
      exact hall.imp fun a b hab => (Packet.create_ok_iff.mp hab).2.2.2.2.2.1.symm
    rw [List.forall₂_eq_eq_eq, List.zipIdx_map_snd] at heq
    rw [← heq, hlen, List.range_eq_range']
  · have hfields : List.Forall₂ (fun b a => (Packet.fragCount b = packets.length ∧
        b.ptype = ptype ∧ b.msgId = msgId) ∧ True) packets (chunks capacity payload).zipIdx := by
      apply List.Forall₂.flip
      apply hall.imp
      intro a b hab
      obtain ⟨hptype, -, hmsgId, -, -, -, hcount, -⟩ := Packet.create_ok_iff.mp hab
      exact ⟨⟨hcount.trans hlen.symm, hptype, hmsgId⟩, trivial⟩
    exact ((List.forall₂_and_left ..).mp hfields).1
  · exact hpayload

namespace Fragments

variable (h : Fragments packets ptype msgId payload)

include h

lemma nodup_pairs : (packets.map fun packet => (packet.fragIndex, packet.payload)).Nodup := by
  apply List.Nodup.of_map Prod.fst
  rw [List.map_map]
  show (packets.map Packet.fragIndex).Nodup
  rw [h.indices]
  exact List.nodup_range

end Fragments

/-! ## What has arrived of a message -/

/-- The partial message holds the fragments that are in the history. -/
structure Tracks (packets : List (Packet β)) (ptype : PacketType) (history : List (Packet β))
    (part : Partial β) : Prop where
  fragCount : part.fragCount = packets.length
  ptype : part.ptype = ptype
  entries : ∀ entry, entry ∈ part.fragments.entries ↔
    ∃ packet ∈ packets, packet ∈ history ∧ (packet.fragIndex, packet.payload) = entry
  totalBytes : part.totalBytes = (part.fragments.values.map List.length).sum

namespace Tracks

variable {history : List (Packet β)} {part : Partial β}

lemma subperm (h : Tracks packets ptype history part) : part.fragments.entries.Subperm
    (packets.map fun packet => (packet.fragIndex, packet.payload)) := by
  apply List.Nodup.subperm
  · exact List.Nodup.of_map Prod.fst part.fragments.nodup
  · intro entry hentry
    obtain ⟨packet, hp, -, rfl⟩ := (h.entries entry).mp hentry
    exact List.mem_map_of_mem hp

/-- The fragments that have arrived are no longer than the payload. -/
lemma totalBytes_le (h : Tracks packets ptype history part)
    (hf : Fragments packets ptype msgId payload) : part.totalBytes ≤ payload.length := by
  obtain ⟨l, hperm, hsub⟩ := h.subperm
  have hle := (hsub.map fun entry => entry.2.length).sum_le_sum (fun _ _ => Nat.zero_le _)
  rw [h.totalBytes, ← hf.payload, List.length_flatten, OrderedDict.values, List.map_map,
    List.map_map]
  rw [(hperm.map _).sum_eq, List.map_map] at hle
  exact hle

/-- The message is complete when every fragment has arrived. -/
lemma complete_iff (h : Tracks packets ptype history part)
    (hf : Fragments packets ptype msgId payload) :
    part.complete = true ↔ ∀ packet ∈ packets, packet ∈ history := by
  have hlen : part.complete = true ↔ part.fragments.entries.length = packets.length := by
    unfold Partial.complete
    rw [decide_eq_true_eq, h.fragCount]
    rfl
  rw [hlen]
  constructor
  · intro heq packet hp
    -- as many entries as fragments, all of them different
    have hperm := h.subperm.perm_of_length_le (by rw [List.length_map, heq])
    have hmem := hperm.mem_iff.mpr (List.mem_map_of_mem hp)
    obtain ⟨packet', hp', hhist, heq'⟩ := (h.entries _).mp hmem
    have hinj : (packets.map Packet.fragIndex).Nodup := hf.indices ▸ List.nodup_range
    obtain rfl := List.inj_on_of_nodup_map hinj hp' hp (congrArg Prod.fst heq')
    exact hhist
  · intro hall
    have hle := h.subperm.length_le
    rw [List.length_map] at hle
    have hge : (packets.map fun packet => (packet.fragIndex, packet.payload)).Subperm
        part.fragments.entries := by
      apply List.Nodup.subperm hf.nodup_pairs
      intro entry hentry
      obtain ⟨packet, hp, rfl⟩ := List.mem_map.mp hentry
      exact (h.entries _).mpr ⟨packet, hp, hall packet hp, rfl⟩
    have hge := hge.length_le
    rw [List.length_map] at hge
    omega

/-- A complete message is the payload. -/
lemma assemble (h : Tracks packets ptype history part)
    (hf : Fragments packets ptype msgId payload) (hall : ∀ packet ∈ packets, packet ∈ history) :
    part.assemble = payload := by
  unfold Partial.assemble
  rw [h.fragCount, ← hf.indices, List.flatMap_map, ← hf.payload, ← List.flatMap_def]
  apply List.flatMap_congr
  intro packet hp
  have hget : part.fragments.get? packet.fragIndex = some packet.payload :=
    OrderedDict.get?_eq_some_iff.mpr ((h.entries _).mpr ⟨packet, hp, hall packet hp, rfl⟩)
  rw [hget, Option.getD_some]

lemma mem_keys_iff (h : Tracks packets ptype history part)
    (hf : Fragments packets ptype msgId payload) {packet : Packet β} (hp : packet ∈ packets) :
    packet.fragIndex ∈ part.fragments.keys ↔ packet ∈ history := by
  rw [OrderedDict.mem_keys_iff]
  constructor
  · intro hkey
    obtain ⟨bytes, hmem⟩ := hkey
    obtain ⟨packet', hp', hhist, heq⟩ := (h.entries _).mp hmem
    have hinj : (packets.map Packet.fragIndex).Nodup := hf.indices ▸ List.nodup_range
    obtain rfl := List.inj_on_of_nodup_map hinj hp' hp (congrArg Prod.fst heq)
    exact hhist
  · intro hhist
    exact ⟨packet.payload, (h.entries _).mpr ⟨packet, hp, hhist, rfl⟩⟩

/-- A fragment that arrives for the first time is taken in. -/
lemma insert (h : Tracks packets ptype history part)
    (hf : Fragments packets ptype msgId payload) {packet : Packet β} (hp : packet ∈ packets)
    (hnew : packet ∉ history) :
    Tracks packets ptype (history ++ [packet]) (part.insert packet) := by
  have hkey : packet.fragIndex ∉ part.fragments.keys :=
    fun hmem => hnew ((h.mem_keys_iff hf hp).mp hmem)
  have hentries : (part.insert packet).fragments.entries =
      part.fragments.entries ++ [(packet.fragIndex, packet.payload)] := by
    show (part.fragments.set _ _).entries = _
    unfold OrderedDict.set
    rw [dif_neg hkey]
  refine ⟨h.fragCount, h.ptype, ?_, ?_⟩
  · intro entry
    rw [hentries, List.mem_append, List.mem_singleton, h.entries]
    constructor
    · intro hentry
      rcases hentry with ⟨q, hq, hhist, heq⟩ | rfl
      · exact ⟨q, hq, List.mem_append_left _ hhist, heq⟩
      · exact ⟨packet, hp, List.mem_append_right _ (List.mem_singleton_self _), rfl⟩
    · intro hentry
      obtain ⟨q, hq, hhist, heq⟩ := hentry
      rcases List.mem_append.mp hhist with hhist | hhist
      · exact Or.inl ⟨q, hq, hhist, heq⟩
      · obtain rfl := List.mem_singleton.mp hhist
        exact Or.inr heq.symm
  · show part.totalBytes + packet.payload.length = _
    unfold OrderedDict.values
    rw [hentries, h.totalBytes]
    simp [OrderedDict.values]

/-- What has arrived is what counts, not in how many copies. -/
lemma congr {history' : List (Packet β)} (h : Tracks packets ptype history part)
    (hiff : ∀ packet ∈ packets, packet ∈ history ↔ packet ∈ history') :
    Tracks packets ptype history' part := by
  refine ⟨h.fragCount, h.ptype, fun entry => ?_, h.totalBytes⟩
  rw [h.entries]
  constructor
  · rintro ⟨packet, hp, hhist, heq⟩
    exact ⟨packet, hp, (hiff packet hp).mp hhist, heq⟩
  · rintro ⟨packet, hp, hhist, heq⟩
    exact ⟨packet, hp, (hiff packet hp).mpr hhist, heq⟩

/-- Nothing has arrived of a message that is new. -/
lemma fresh {now : ℚ} (hnone : ∀ packet ∈ packets, packet ∉ history) :
    Tracks packets ptype history
      { fragCount := packets.length, ptype := ptype, firstSeen := now } := by
  refine ⟨rfl, rfl, fun entry => ?_, rfl⟩
  constructor
  · intro hmem
    cases hmem
  · rintro ⟨packet, hp, hhist, -⟩
    exact absurd hhist (hnone packet hp)

end Tracks

/-! ## One call of `add` -/

namespace Reassembler

variable [DecidableEq β] {r : Reassembler β} {packet : Packet β} {now : ℚ}

omit [DecidableEq β] in
lemma keys_expire_subset (now : ℚ) (r : Reassembler β) :
    (expire now r).pending.keys ⊆ r.pending.keys := by
  intro k hk
  obtain ⟨part, hpart⟩ := OrderedDict.mem_keys_iff.mp hk
  exact OrderedDict.mem_keys_iff.mpr ⟨part, (OrderedDict.mem_filter.mp hpart).1⟩

/-- What is pending after the old has expired was pending before. -/
lemma get?_of_get?_expire {k : Bytes β} {part : Partial β}
    (h : (expire now r).pending.get? k = some part) : r.pending.get? k = some part := by
  unfold expire at h
  rw [OrderedDict.get?_filter, Option.filter_eq_some_iff] at h
  exact h.1

/-- A message that is recent does not expire. -/
lemma get?_expire_of_recent {k : Bytes β}
    (h : ∀ part, r.pending.get? k = some part → now - part.firstSeen ≤ r.timeout) :
    (expire now r).pending.get? k = r.pending.get? k := by
  unfold expire
  rw [OrderedDict.get?_filter]
  rcases hget : r.pending.get? k with _ | part
  · rfl
  · have hle := h part hget
    simpa using hle

/-- The message that the packet belongs to, or the one that it starts. -/
def partialOf (r : Reassembler β) (packet : Packet β) (now : ℚ) : Partial β :=
  (r.pending.get? packet.msgId).getD
    { fragCount := packet.fragCount, ptype := packet.ptype, firstSeen := now }

lemma partialFor_of_room
    (h : packet.msgId ∈ r.pending.keys ∨ r.pending.length < r.maxPending) :
    partialFor packet now r =
      (.ok (r.partialOf packet now), assign packet.msgId (r.partialOf packet now) r) := by
  unfold partialFor partialOf
  rw [Method.self_bind]
  rcases hget : r.pending.get? packet.msgId with _ | part
  · have hnot := OrderedDict.get?_eq_none_iff.mp hget
    have hroom := h.resolve_left hnot
    have hevict : evict r = (.ok (), r) := by
      unfold evict
      rw [Method.self_bind, if_neg (by omega)]
      rfl
    simp only
    rw [Method.bind_of_ok hevict]
    rfl
  · -- assigning the message that is there changes nothing
    show (Except.ok part, r) = (Except.ok part, assign packet.msgId part r)
    unfold assign
    rw [OrderedDict.set_of_get? hget]

/-- What `add` does when there is room. -/
lemma add_eq (hroom : packet.fragCount ≠ 1 → packet.msgId ∈ (expire now r).pending.keys ∨
      (expire now r).pending.length < r.maxPending) :
    add packet now r =
      if packet.fragCount = 1 then (.ok (some packet.payload), expire now r)
      else addTo packet ((expire now r).partialOf packet now)
        (assign packet.msgId ((expire now r).partialOf packet now) (expire now r)) := by
  unfold add
  rw [Method.update_bind]
  split_ifs with hone
  · rfl
  · rw [Method.bind_of_ok (partialFor_of_room (hroom hone))]

/-- What `addTo` does, and when. -/
lemma addTo_cases (packet : Packet β) (part : Partial β) (r : Reassembler β) :
    (∃ e, addTo packet part (assign packet.msgId part r) = (.error e, delete packet.msgId r)) ∨
    (part.fragCount = packet.fragCount ∧ part.ptype = packet.ptype ∧
      ((packet.fragIndex ∈ part.fragments.keys ∧
        addTo packet part (assign packet.msgId part r) =
          (.ok none, assign packet.msgId part r)) ∨
      (packet.fragIndex ∉ part.fragments.keys ∧ (part.insert packet).totalBytes ≤ r.maxBytes ∧
        addTo packet part (assign packet.msgId part r) =
          if (part.insert packet).complete then
            (.ok (some (part.insert packet).assemble), delete packet.msgId r)
          else (.ok none, assign packet.msgId (part.insert packet) r)))) := by
  have hdelete : delete packet.msgId (assign packet.msgId part r) = delete packet.msgId r := by
    unfold delete assign
    rw [OrderedDict.erase_set_self]
  unfold addTo
  rw [Method.self_bind]
  by_cases hfields : part.fragCount ≠ packet.fragCount ∨ part.ptype ≠ packet.ptype
  · rw [if_pos hfields]
    exact Or.inl ⟨_, Prod.ext rfl hdelete⟩
  rw [if_neg hfields]
  rw [not_or, not_not, not_not] at hfields
  by_cases hdup : packet.fragIndex ∈ part.fragments.keys
  · rw [if_pos hdup]
    exact Or.inr ⟨hfields.1, hfields.2, Or.inl ⟨hdup, rfl⟩⟩
  rw [if_neg hdup]
  by_cases hsize : part.totalBytes + packet.payload.length > (assign packet.msgId part r).maxBytes
  · rw [if_pos hsize]
    exact Or.inl ⟨_, Prod.ext rfl hdelete⟩
  rw [if_neg hsize]
  refine Or.inr ⟨hfields.1, hfields.2, Or.inr ⟨hdup, not_lt.mp hsize, ?_⟩⟩
  by_cases hcomplete : (part.insert packet).complete = true
  · rw [if_pos hcomplete, if_pos hcomplete]
    exact Prod.ext rfl hdelete
  · rw [if_neg hcomplete, if_neg hcomplete]
    show (Except.ok none, assign _ _ (assign _ _ r)) = _
    unfold assign
    rw [OrderedDict.set_set]

/-- What `addTo` leaves: the message is gone, or it has kept its time. -/
lemma addTo_state (packet : Packet β) (part : Partial β) (r : Reassembler β) :
    (addTo packet part (assign packet.msgId part r)).2 = delete packet.msgId r ∨
      ∃ part', part'.firstSeen = part.firstSeen ∧
        (addTo packet part (assign packet.msgId part r)).2 = assign packet.msgId part' r := by
  rcases addTo_cases packet part r with
    ⟨err, heq⟩ | ⟨-, -, ⟨-, heq⟩ | ⟨-, -, heq⟩⟩
  · exact Or.inl (congrArg Prod.snd heq)
  · exact Or.inr ⟨part, rfl, congrArg Prod.snd heq⟩
  · rw [heq]
    split_ifs
    · exact Or.inl rfl
    · exact Or.inr ⟨part.insert packet, rfl, rfl⟩

/-- What `addTo` does with a fragment of the message. -/
lemma addTo_of_tracks {history : List (Packet β)} {part : Partial β}
    (hf : Fragments packets ptype msgId payload) (hp : packet ∈ packets)
    (htracks : Tracks packets ptype history part) (hsize : payload.length ≤ r.maxBytes)
    (hearlier : ¬ ∀ q ∈ packets, q ∈ history) :
    ((∀ q ∈ packets, q ∈ history ++ [packet]) ∧
      addTo packet part (assign packet.msgId part r) =
        (.ok (some payload), delete packet.msgId r)) ∨
    ((¬ ∀ q ∈ packets, q ∈ history ++ [packet]) ∧
      ∃ part', Tracks packets ptype (history ++ [packet]) part' ∧
        addTo packet part (assign packet.msgId part r) =
          (.ok none, assign packet.msgId part' r)) := by
  obtain ⟨hcount, hptype, -⟩ := hf.fields packet hp
  have hfields : ¬ (part.fragCount ≠ packet.fragCount ∨ part.ptype ≠ packet.ptype) := by
    rw [htracks.fragCount, htracks.ptype, hcount, hptype]
    simp
  unfold addTo
  rw [Method.self_bind, if_neg hfields]
  by_cases hdup : packet ∈ history
  · -- a duplicate completes nothing
    have hsame : ∀ q ∈ packets, q ∈ history ↔ q ∈ history ++ [packet] := by
      intro q _
      rw [List.mem_append, List.mem_singleton]
      exact ⟨Or.inl, fun h => h.elim id fun h => h ▸ hdup⟩
    have hnot : ¬ ∀ q ∈ packets, q ∈ history ++ [packet] :=
      fun hall => hearlier fun q hq => (hsame q hq).mpr (hall q hq)
    rw [if_pos ((htracks.mem_keys_iff hf hp).mpr hdup)]
    exact Or.inr ⟨hnot, part, htracks.congr hsame, rfl⟩
  · have hkey : packet.fragIndex ∉ part.fragments.keys :=
      fun hmem => hdup ((htracks.mem_keys_iff hf hp).mp hmem)
    have hinsert := htracks.insert hf hp hdup
    have hbytes : (part.insert packet).totalBytes ≤ payload.length := hinsert.totalBytes_le hf
    have hfits : ¬ part.totalBytes + packet.payload.length >
        (assign packet.msgId part r).maxBytes := not_lt.mpr (hbytes.trans hsize)
    rw [if_neg hkey, if_neg hfits]
    by_cases hall : ∀ q ∈ packets, q ∈ history ++ [packet]
    · apply Or.inl
      refine ⟨hall, ?_⟩
      rw [if_pos ((hinsert.complete_iff hf).mpr hall), hinsert.assemble hf hall]
      show (Except.ok (some payload), delete _ (assign _ _ r)) = _
      unfold delete assign
      rw [OrderedDict.erase_set_self]
    · apply Or.inr
      refine ⟨hall, part.insert packet, hinsert, ?_⟩
      rw [if_neg fun hcomplete => hall ((hinsert.complete_iff hf).mp hcomplete)]
      show (Except.ok none, assign _ _ (assign _ _ r)) = _
      unfold assign
      rw [OrderedDict.set_set]

/-! ## A run of calls -/

/-- The reassembler after these calls, whether they return or raise. -/
def afterAll (calls : List (Packet β × ℚ)) (r : Reassembler β) : Reassembler β :=
  calls.foldl (fun r call => (add call.1 call.2 r).2) r

/-- The messages of more than one fragment that the calls are for. -/
def pendingIds (calls : List (Packet β × ℚ)) : List (Bytes β) :=
  (calls.filter fun call => call.1.fragCount ≠ 1).map fun call => call.1.msgId

/-- The reassembler has the time and the room for all the messages of the calls. -/
structure Within (calls : List (Packet β × ℚ)) (r : Reassembler β) : Prop where
  time : ∀ call ∈ calls, ∀ earlier ∈ calls, call.2 - earlier.2 ≤ r.timeout
  room : (pendingIds calls).dedup.length ≤ r.maxPending

/-- The message is new to the reassembler, which keeps it while the calls go on: they all come
within the timeout, and there is room for the messages that are pending and those of the calls. -/
structure Room (msgId : Bytes β) (calls : List (Packet β × ℚ)) (r : Reassembler β) : Prop where
  time : ∀ call ∈ calls, ∀ earlier ∈ calls, earlier.1.msgId = msgId →
    call.2 - earlier.2 ≤ r.timeout
  room : (r.pending.keys ++ pendingIds calls).dedup.length ≤ r.maxPending
  fresh : msgId ∉ r.pending.keys

/-- What is pending after some of the calls was so before or comes from them, and the message has
the time of a call for it. -/
structure PendingFrom (msgId : Bytes β) (before : List (Packet β × ℚ)) (r₀ r : Reassembler β) :
    Prop where
  maxPending : r.maxPending = r₀.maxPending
  maxBytes : r.maxBytes = r₀.maxBytes
  timeout : r.timeout = r₀.timeout
  keys : r.pending.keys ⊆ r₀.pending.keys ++ pendingIds before
  firstSeen : ∀ part, r.pending.get? msgId = some part →
    ∃ call ∈ before, call.1.msgId = msgId ∧ part.firstSeen = call.2

/-- What the reassembler holds of the message is what has arrived of it. -/
def Gathered (packets : List (Packet β)) (ptype : PacketType) (history : List (Packet β))
    (r : Reassembler β) : Prop :=
  ∀ packet ∈ packets, ∀ now, Tracks packets ptype history (r.partialOf packet now)

section Run

variable {calls before : List (Packet β × ℚ)} {call : Packet β × ℚ} {r₀ : Reassembler β}

/-- An empty reassembler has the room for each of the messages. -/
lemma Within.toRoom (h : r.Within calls) (hempty : r.pending = .empty) (msgId : Bytes β) :
    r.Room msgId calls where
  time := fun call hcall earlier hearlier _ => h.time call hcall earlier hearlier
  room := by
    rw [hempty]
    exact h.room
  fresh := by
    rw [hempty]
    exact List.not_mem_nil

omit [DecidableEq β] in
lemma pendingIds_append (calls calls' : List (Packet β × ℚ)) :
    pendingIds (calls ++ calls') = pendingIds calls ++ pendingIds calls' := by
  unfold pendingIds
  rw [List.filter_append, List.map_append]

omit [DecidableEq β] in
lemma pendingIds_subset (h : ∀ c ∈ before, c ∈ calls) : pendingIds before ⊆ pendingIds calls :=
  List.map_subset _ fun c hc => List.mem_filter.mpr
    ⟨h c (List.mem_filter.mp hc).1, (List.mem_filter.mp hc).2⟩

lemma afterAll_append_singleton (before : List (Packet β × ℚ)) (call : Packet β × ℚ)
    (r : Reassembler β) :
    afterAll (before ++ [call]) r = (add call.1 call.2 (afterAll before r)).2 := by
  unfold afterAll
  rw [List.foldl_append]
  rfl

namespace PendingFrom

lemma expire (h : PendingFrom msgId before r₀ r) (now : ℚ) :
    PendingFrom msgId before r₀ (expire now r) where
  maxPending := h.maxPending
  maxBytes := h.maxBytes
  timeout := h.timeout
  keys := fun _ hk => h.keys (keys_expire_subset now r hk)
  firstSeen := fun part hpart => h.firstSeen part (get?_of_get?_expire hpart)

/-- Further calls change nothing about where it comes from. -/
lemma mono (h : PendingFrom msgId before r₀ r) (call : Packet β × ℚ) :
    PendingFrom msgId (before ++ [call]) r₀ r where
  maxPending := h.maxPending
  maxBytes := h.maxBytes
  timeout := h.timeout
  keys := fun k hk => by
    rw [pendingIds_append, ← List.append_assoc]
    exact List.mem_append_left _ (h.keys hk)
  firstSeen := fun part hpart => by
    obtain ⟨c, hc, hown, heq⟩ := h.firstSeen part hpart
    exact ⟨c, List.mem_append_left _ hc, hown, heq⟩

/-- There is room for the message of one of the calls. -/
lemma hasRoom (h : PendingFrom msgId before r₀ r) (hroom : r₀.Room msgId calls)
    (hsub : ∀ c ∈ before ++ [call], c ∈ calls) (hmany : call.1.fragCount ≠ 1) :
    call.1.msgId ∈ r.pending.keys ∨ r.pending.length < r₀.maxPending := by
  apply or_iff_not_imp_left.mpr
  intro hnew
  -- the pending messages and the new one are distinct messages of those there is room for
  have hnodup : (call.1.msgId :: r.pending.keys).Nodup :=
    List.nodup_cons.mpr ⟨hnew, r.pending.nodup_keys⟩
  have hsubset : call.1.msgId :: r.pending.keys ⊆
      (r₀.pending.keys ++ pendingIds calls).dedup := by
    intro k hk
    rw [List.mem_dedup]
    rcases List.mem_cons.mp hk with rfl | hk
    · refine List.mem_append_right _ (pendingIds_subset hsub ?_)
      rw [pendingIds_append]
      exact List.mem_append_right _ (by simp [pendingIds, hmany])
    · rcases List.mem_append.mp (h.keys hk) with hk | hk
      · exact List.mem_append_left _ hk
      · exact List.mem_append_right _
          (pendingIds_subset (fun c hc => hsub c (List.mem_append_left _ hc)) hk)
  have hle := (List.Nodup.subperm hnodup hsubset).length_le
  rw [List.length_cons, OrderedDict.length_keys] at hle
  exact hle.trans hroom.room

/-- One of the calls, after some others. -/
lemma add_eq (h : PendingFrom msgId before r₀ r) (hroom : r₀.Room msgId calls)
    (hsub : ∀ c ∈ before ++ [call], c ∈ calls) :
    add call.1 call.2 r =
      if call.1.fragCount = 1 then (.ok (some call.1.payload), Reassembler.expire call.2 r)
      else addTo call.1 ((Reassembler.expire call.2 r).partialOf call.1 call.2)
        (assign call.1.msgId ((Reassembler.expire call.2 r).partialOf call.1 call.2)
          (Reassembler.expire call.2 r)) := by
  apply Reassembler.add_eq
  intro hmany
  rw [h.maxPending]
  exact (h.expire call.2).hasRoom hroom hsub hmany

/-- What one of the calls leaves. -/
lemma add (h : PendingFrom msgId before r₀ r) (hroom : r₀.Room msgId calls)
    (hsub : ∀ c ∈ before ++ [call], c ∈ calls) :
    PendingFrom msgId (before ++ [call]) r₀ (add call.1 call.2 r).2 := by
  rw [h.add_eq hroom hsub]
  have hexpired := h.expire call.2
  generalize Reassembler.expire call.2 r = r at hexpired
  have hmono := hexpired.mono call
  split_ifs with hone
  · exact hmono
  rcases addTo_state call.1 (r.partialOf call.1 call.2) r with hstate | ⟨part', hfirst, hstate⟩
  · rw [hstate]
    refine ⟨hmono.maxPending, hmono.maxBytes, hmono.timeout, fun k hk => ?_, fun part hpart => ?_⟩
    · obtain ⟨part, hpart⟩ := OrderedDict.mem_keys_iff.mp hk
      exact hmono.keys (OrderedDict.mem_keys_iff.mpr ⟨part, (OrderedDict.mem_erase.mp hpart).2⟩)
    · have hmem := (OrderedDict.mem_erase.mp (OrderedDict.get?_eq_some_iff.mp hpart)).2
      exact hmono.firstSeen part (OrderedDict.get?_eq_some_iff.mpr hmem)
  · rw [hstate]
    refine ⟨hmono.maxPending, hmono.maxBytes, hmono.timeout, fun k hk => ?_, fun part hpart => ?_⟩
    · rcases OrderedDict.mem_keys_set_iff.mp hk with rfl | hk
      · refine List.mem_append_right _ ?_
        rw [pendingIds_append]
        exact List.mem_append_right _ (by simp [pendingIds, hone])
      · exact hmono.keys hk
    · by_cases hid : msgId = call.1.msgId
      · subst hid
        obtain rfl : part' = part :=
          Option.some.inj ((OrderedDict.get?_set_self r.pending _ part').symm.trans hpart)
        -- a partial that is new counts from this call
        rw [hfirst]
        unfold partialOf
        rcases hget : r.pending.get? call.1.msgId with _ | part
        · exact ⟨call, List.mem_append_right _ (List.mem_singleton_self _), rfl, rfl⟩
        · exact hmono.firstSeen part hget
      · exact hmono.firstSeen part ((OrderedDict.get?_set_of_ne _ _ hid).symm.trans hpart)

/-- Nothing expires of the message. -/
lemma get?_expire (h : PendingFrom msgId before r₀ r) (hroom : r₀.Room msgId calls)
    (hsub : ∀ c ∈ before ++ [call], c ∈ calls) :
    (Reassembler.expire call.2 r).pending.get? msgId = r.pending.get? msgId := by
  apply get?_expire_of_recent
  intro part hpart
  obtain ⟨earlier, hearlier, hown, heq⟩ := h.firstSeen part hpart
  rw [h.timeout, heq]
  exact hroom.time call (hsub call (by simp)) earlier (hsub earlier (by simp [hearlier])) hown

end PendingFrom

/-- What has arrived of the message is still there when the old has expired. -/
lemma Gathered.expire {history : List (Packet β)} (hf : Fragments packets ptype msgId payload)
    (h : Gathered packets ptype history r) (hpending : PendingFrom msgId before r₀ r)
    (hroom : r₀.Room msgId calls) (hsub : ∀ c ∈ before ++ [call], c ∈ calls) :
    Gathered packets ptype history (expire call.2 r) := by
  intro packet hp now
  have hsame : (Reassembler.expire call.2 r).partialOf packet now = r.partialOf packet now := by
    unfold partialOf
    rw [(hf.fields packet hp).2.2, hpending.get?_expire hroom hsub]
  rw [hsame]
  exact h packet hp now

/-- A call for another message leaves what has arrived of this one. -/
lemma Gathered.add_other {history : List (Packet β)}
    (hf : Fragments packets ptype msgId payload) (h : Gathered packets ptype history r)
    (hpending : PendingFrom msgId before r₀ r) (hroom : r₀.Room msgId calls)
    (hsub : ∀ c ∈ before ++ [call], c ∈ calls) (hother : call.1.msgId ≠ msgId) :
    Gathered packets ptype history (add call.1 call.2 r).2 := by
  have hexpired := h.expire hf hpending hroom hsub
  rw [hpending.add_eq hroom hsub]
  generalize Reassembler.expire call.2 r = r at hexpired
  split_ifs with hone
  · exact hexpired
  intro packet hp now
  have hid : packet.msgId ≠ call.1.msgId := by
    rw [(hf.fields packet hp).2.2]
    exact hother.symm
  have hsame : (addTo call.1 (r.partialOf call.1 call.2)
      (assign call.1.msgId (r.partialOf call.1 call.2) r)).2.partialOf packet now =
        r.partialOf packet now := by
    unfold partialOf
    rcases addTo_state call.1 (r.partialOf call.1 call.2) r with hstate | ⟨part', -, hstate⟩
    · unfold partialOf at hstate
      rw [hstate, delete, OrderedDict.get?_erase_of_ne _ hid]
    · unfold partialOf at hstate
      rw [hstate, assign, OrderedDict.get?_set_of_ne _ _ hid]
  rw [hsame]
  exact hexpired packet hp now

/-- A call for the message returns the payload if it completes it, and takes the fragment in
otherwise. -/
lemma Gathered.add_own {history : List (Packet β)}
    (hf : Fragments packets ptype msgId payload) (h : Gathered packets ptype history r)
    (hpending : PendingFrom msgId before r₀ r) (hroom : r₀.Room msgId calls)
    (hsub : ∀ c ∈ before ++ [call], c ∈ calls) (hcall : call.1 ∈ packets)
    (hsize : payload.length ≤ r₀.maxBytes) (hearlier : ¬ ∀ q ∈ packets, q ∈ history) :
    ((∀ q ∈ packets, q ∈ history ++ [call.1]) ∧
      (add call.1 call.2 r).1 = .ok (some payload)) ∨
    ((¬ ∀ q ∈ packets, q ∈ history ++ [call.1]) ∧
      (add call.1 call.2 r).1 = .ok none ∧
      Gathered packets ptype (history ++ [call.1]) (add call.1 call.2 r).2) := by
  obtain ⟨hcount, -, hid⟩ := hf.fields call.1 hcall
  have hexpired := h.expire hf hpending hroom hsub
  have hmaxBytes := (hpending.expire call.2).maxBytes
  rw [hpending.add_eq hroom hsub]
  generalize Reassembler.expire call.2 r = r at hexpired hmaxBytes
  split_ifs with hone
  · -- a message of one fragment does not wait
    obtain ⟨only, honly⟩ := List.length_eq_one_iff.mp (hcount.symm.trans hone)
    have heq : call.1 = only := by rw [honly] at hcall; exact List.mem_singleton.mp hcall
    have hpayload := hf.payload
    rw [honly] at hpayload
    apply Or.inl
    constructor
    · intro q hq
      rw [honly] at hq
      rw [List.mem_singleton.mp hq, heq]
      simp
    · rw [heq, ← hpayload]
      simp
  · rw [← hmaxBytes] at hsize
    rcases addTo_of_tracks hf hcall (hexpired call.1 hcall call.2) hsize hearlier with
      ⟨hall, hadd⟩ | ⟨hnot, part', htracks, hadd⟩
    · exact Or.inl ⟨hall, by rw [hadd]⟩
    · refine Or.inr ⟨hnot, by rw [hadd], fun packet hp now => ?_⟩
      rw [hadd]
      unfold partialOf
      simp only [assign]
      rw [(hf.fields packet hp).2.2, hid, OrderedDict.get?_set_self]
      exact htracks

/-- Before a message is complete, the reassembler holds what has arrived of it. -/
lemma gathered_afterAll (hf : Fragments packets ptype msgId payload)
    (hroom : r.Room msgId calls) (hsize : payload.length ≤ r.maxBytes)
    (hours : ∀ c ∈ calls, c.1.msgId = msgId → c.1 ∈ packets) (hsub : ∀ c ∈ before, c ∈ calls)
    (hearlier : ¬ ∀ q ∈ packets, q ∈ before.map Prod.fst) :
    PendingFrom msgId before r (afterAll before r) ∧
      Gathered packets ptype (before.map Prod.fst) (afterAll before r) := by
  induction before using List.reverseRecOn with
  | nil =>
    have hnone : r.pending.get? msgId = none := OrderedDict.get?_eq_none_iff.mpr hroom.fresh
    constructor
    · refine ⟨rfl, rfl, rfl, List.subset_append_left _ _, fun part hpart => ?_⟩
      rw [show afterAll [] r = r from rfl, hnone] at hpart
      cases hpart
    · intro packet hp now
      obtain ⟨hcount, hptype, hid⟩ := hf.fields packet hp
      show Tracks packets ptype [] (r.partialOf packet now)
      unfold partialOf
      rw [hid, hnone, Option.getD_none, hcount, hptype]
      exact Tracks.fresh fun _ _ => List.not_mem_nil
  | append_singleton before call ih =>
    rw [List.map_append, List.map_singleton] at hearlier ⊢
    obtain ⟨hpending, hgathered⟩ := ih (fun c hc => hsub c (List.mem_append_left _ hc))
      fun hall => hearlier fun q hq => List.mem_append_left _ (hall q hq)
    rw [afterAll_append_singleton]
    refine ⟨hpending.add hroom hsub, ?_⟩
    by_cases hid : call.1.msgId = msgId
    · have hcall := hours call (hsub call (by simp)) hid
      -- a call that completed the message would have been one too early
      have hnot : ¬ ∀ q ∈ packets, q ∈ before.map Prod.fst :=
        fun hall => hearlier fun q hq => List.mem_append_left _ (hall q hq)
      rcases hgathered.add_own hf hpending hroom hsub hcall hsize hnot with
        ⟨hall, -⟩ | ⟨-, -, hadd⟩
      · exact absurd hall hearlier
      · exact hadd
    · intro packet hp now
      apply (hgathered.add_other hf hpending hroom hsub hid packet hp now).congr
      intro q hq
      rw [List.mem_append, List.mem_singleton]
      refine ⟨Or.inl, fun h => h.elim id fun heq => ?_⟩
      rw [heq] at hq
      exact absurd (hf.fields _ hq).2.2 hid

/-- The call that completes a message returns its payload, and an earlier one returns nothing. -/
lemma add_afterAll {after : List (Packet β × ℚ)} (hf : Fragments packets ptype msgId payload)
    (hroom : r.Room msgId (before ++ call :: after)) (hsize : payload.length ≤ r.maxBytes)
    (hours : ∀ c ∈ before ++ call :: after, c.1.msgId = msgId → c.1 ∈ packets)
    (hid : call.1.msgId = msgId) (hearlier : ¬ ∀ q ∈ packets, q ∈ before.map Prod.fst) :
    ((∀ q ∈ packets, q ∈ before.map Prod.fst ++ [call.1]) →
      (add call.1 call.2 (afterAll before r)).1 = .ok (some payload)) ∧
    ((¬ ∀ q ∈ packets, q ∈ before.map Prod.fst ++ [call.1]) →
      (add call.1 call.2 (afterAll before r)).1 = .ok none) := by
  obtain ⟨hpending, hgathered⟩ := gathered_afterAll hf hroom hsize hours
    (fun c hc => List.mem_append_left _ hc) hearlier
  have hsub : ∀ c ∈ before ++ [call], c ∈ before ++ call :: after := by
    intro c hc
    rw [List.mem_append, List.mem_singleton] at hc
    rw [List.mem_append, List.mem_cons]
    exact hc.imp_right Or.inl
  rcases hgathered.add_own hf hpending hroom hsub (hours call (by simp) hid) hsize hearlier with
    ⟨hall, hadd⟩ | ⟨hnot, hadd, -⟩
  · exact ⟨fun _ => hadd, fun hnot => absurd hall hnot⟩
  · exact ⟨fun hall => absurd hall hnot, fun _ => hadd⟩

end Run

end Reassembler

end Chatbit
