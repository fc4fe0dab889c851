import Chatbit.Wire.ReassemblyTheorems

/-!
# What reassembly holds

`ReassemblyTheorems` follows one message that has the time and the room to arrive. Here the packets
are arbitrary: every call may expire, evict and discard. What is pending stays within the limits
(`Bounded`), and each pending message holds the first arrival of each fragment since it was created
(`Collects`), so a payload that is returned is made of those.
-/

namespace Chatbit

open Lib

variable {β : Type}

/-! ## What is stated -/

/-- A pending message is incomplete, counts its bytes and is not too long or too old. -/
structure Partial.Bounded (maxBytes : ℕ) (timeout now : ℚ) (part : Partial β) : Prop where
  incomplete : part.complete = false
  totalBytes : part.totalBytes = (part.fragments.values.map List.length).sum
  totalBytes_le : part.totalBytes ≤ maxBytes
  indices : ∀ i ∈ part.fragments.keys, i < part.fragCount
  age : now - part.firstSeen ≤ timeout

namespace Partial

variable {part : Partial β} {packet : Packet β} {maxBytes : ℕ} {timeout now : ℚ}

/-- A message that has just been created keeps the limits. -/
lemma bounded_fresh (packet : Packet β) (now : ℚ) (maxBytes : ℕ) (htimeout : 0 ≤ timeout) :
    Bounded maxBytes timeout now
      { fragCount := packet.fragCount, ptype := packet.ptype, firstSeen := now : Partial β } := by
  have hcount := packet.fragCount_range.1
  refine ⟨?_, rfl, Nat.zero_le _, fun i hi => (nomatch hi), ?_⟩
  · show decide (0 = packet.fragCount) = false
    rw [decide_eq_false_iff_not]
    omega
  · rwa [sub_self]

lemma Bounded.insert_indices (h : part.Bounded maxBytes timeout now)
    (hcount : part.fragCount = packet.fragCount) :
    ∀ i ∈ (part.insert packet).fragments.keys, i < part.fragCount := by
  intro i hi
  obtain ⟨payload, hmem⟩ := OrderedDict.mem_keys_iff.mp hi
  rcases OrderedDict.mem_set.mp hmem with ⟨rfl, -⟩ | ⟨-, hmem⟩
  · rw [hcount]
    exact packet.fragIndex_lt
  · exact h.indices i (OrderedDict.mem_keys_iff.mpr ⟨payload, hmem⟩)

/-- Taking in a fragment keeps the limits unless it completes the message. -/
lemma Bounded.insert (h : part.Bounded maxBytes timeout now)
    (hcount : part.fragCount = packet.fragCount) (hnew : packet.fragIndex ∉ part.fragments.keys)
    (hsize : (part.insert packet).totalBytes ≤ maxBytes)
    (hcomplete : (part.insert packet).complete = false) :
    (part.insert packet).Bounded maxBytes timeout now := by
  refine ⟨hcomplete, ?_, hsize, h.insert_indices hcount, h.age⟩
  show part.totalBytes + packet.payload.length =
    ((part.fragments.set packet.fragIndex packet.payload).values.map List.length).sum
  unfold OrderedDict.set OrderedDict.values
  rw [dif_neg hnew, h.totalBytes]
  simp [OrderedDict.values]

end Partial

namespace Reassembler

/-- Two reassemblers with the same limits. -/
structure SameLimits (r₀ r : Reassembler β) : Prop where
  maxPending : r.maxPending = r₀.maxPending
  maxBytes : r.maxBytes = r₀.maxBytes
  timeout : r.timeout = r₀.timeout

/-- What is pending at a time keeps the limits that the reassembler was made with. -/
structure Bounded (r₀ : Reassembler β) (now : ℚ) (r : Reassembler β) : Prop where
  limits : SameLimits r₀ r
  pending : r.pending.length ≤ r₀.maxPending
  partials : ∀ entry ∈ r.pending.entries, entry.2.Bounded r₀.maxBytes r₀.timeout now

variable [DecidableEq β]

/-- The fragments of a message of several fragments, in the order of their arrival. -/
def arrivals (msgId : Bytes β) (calls : List (Packet β × ℚ)) : List (Packet β) :=
  (calls.map Prod.fst).filter fun packet => packet.msgId = msgId ∧ packet.fragCount ≠ 1

/-- The message is pending when the call has dropped what is stale. -/
def PendingAt (msgId : Bytes β) (call : Packet β × ℚ) (r : Reassembler β) : Prop :=
  msgId ∈ (expire call.2 r).pending.keys

/-- After the calls in `old`, the call `created` creates a pending message that all the calls in
`since` find pending. -/
structure Creates (r₀ : Reassembler β) (msgId : Bytes β) (old : List (Packet β × ℚ))
    (created : Packet β × ℚ) (since : List (Packet β × ℚ)) : Prop where
  first : created.1.msgId = msgId
  several : created.1.fragCount ≠ 1
  absent : ¬ PendingAt msgId created (afterAll old r₀)
  kept : ∀ mid call rest, since = mid ++ call :: rest →
    PendingAt msgId call (afterAll (old ++ created :: mid) r₀)

/-- The payload consists of the first arrivals, in the order of their indices. -/
def FirstArrivals (packets : List (Packet β)) (fragCount : ℕ) (payload : Bytes β) : Prop :=
  ∃ firsts : List (Packet β),
    List.Forall₂ (fun i packet => packets.find? (fun packet => packet.fragIndex = i) = some packet)
      (List.range fragCount) firsts ∧
    payload = (firsts.map Packet.payload).flatten

/-- The last of the calls has returned a payload that is made of recent fragments of one message:
the first arrival of each since the message was created. -/
def Assembled (r₀ : Reassembler β) (calls : List (Packet β × ℚ)) (call : Packet β × ℚ)
    (payload : Bytes β) : Prop :=
  ∃ old created since, calls = old ++ created :: since ∧
    Creates r₀ call.1.msgId old created since ∧
    (∀ c ∈ created :: since, call.2 - c.2 ≤ r₀.timeout) ∧
    (∀ packet ∈ arrivals call.1.msgId (created :: since),
      packet.fragCount = call.1.fragCount ∧ packet.ptype = call.1.ptype) ∧
    FirstArrivals (arrivals call.1.msgId (created :: since)) call.1.fragCount payload

/-! ## One call -/

variable {r r₀ : Reassembler β} {packet : Packet β} {part : Partial β} {now : ℚ}

/-- There is room for one more message after an eviction, which touches no other message. -/
lemma evict_ok (hpos : 1 ≤ r.maxPending) (hlen : r.pending.length ≤ r.maxPending) :
    ∃ r', evict r = (.ok (), r') ∧ r'.pending.length < r.maxPending ∧
      (∀ entry ∈ r'.pending.entries, entry ∈ r.pending.entries) ∧ SameLimits r r' := by
  unfold evict
  rw [Method.self_bind]
  split_ifs with hfull
  · rcases hold : r.oldest with _ | oldest
    · -- something is pending when there is no room
      unfold oldest at hold
      rw [Option.map_eq_none_iff, List.argmin_eq_none] at hold
      have hzero : r.pending.length = 0 := by
        unfold OrderedDict.length
        rw [hold, List.length_nil]
      omega
    · have hmem : oldest ∈ r.pending.keys := by
        obtain ⟨entry, hentry, rfl⟩ := Option.map_eq_some_iff.mp hold
        exact List.mem_map_of_mem (List.argmin_mem hentry)
      refine ⟨delete oldest r, rfl, ?_, ?_, ⟨rfl, rfl, rfl⟩⟩
      · have herase : (delete oldest r).pending.length + 1 = r.pending.length :=
          OrderedDict.length_erase hmem
        omega
      · intro entry hentry
        exact (OrderedDict.mem_erase.mp hentry).2
  · exact ⟨r, rfl, not_le.mp hfull, fun _ h => h, ⟨rfl, rfl, rfl⟩⟩

/-! ## The limits -/

omit [DecidableEq β] in
lemma SameLimits.trans {r' : Reassembler β} (h : SameLimits r₀ r) (h' : SameLimits r r') :
    SameLimits r₀ r' :=
  ⟨h'.maxPending.trans h.maxPending, h'.maxBytes.trans h.maxBytes, h'.timeout.trans h.timeout⟩

omit [DecidableEq β] in
/-- What is not stale has kept the limits. -/
lemma Bounded.of_mem_expire {earlier : ℚ} (h : Bounded r₀ earlier r)
    {entry : Bytes β × Partial β} (hentry : entry ∈ (expire now r).pending.entries) :
    entry.2.Bounded r₀.maxBytes r₀.timeout now := by
  obtain ⟨hmem, hrecent⟩ := OrderedDict.mem_filter.mp hentry
  obtain ⟨hincomplete, htotal, hsize, hindices, -⟩ := h.partials entry hmem
  refine ⟨hincomplete, htotal, hsize, hindices, ?_⟩
  rw [← h.limits.timeout]
  simpa using hrecent

/-- The message that a packet belongs to keeps the limits before the packet is taken in. -/
lemma Bounded.partialOf {earlier : ℚ} (h : Bounded r₀ earlier r) (htimeout : 0 ≤ r₀.timeout)
    (packet : Packet β) (now : ℚ) :
    ((expire now r).partialOf packet now).Bounded r₀.maxBytes r₀.timeout now := by
  unfold Reassembler.partialOf
  rcases hget : (expire now r).pending.get? packet.msgId with _ | part
  · exact Partial.bounded_fresh packet now _ htimeout
  · exact h.of_mem_expire (OrderedDict.get?_eq_some_iff.mp hget)

/-- A call looks at the message that the packet belongs to, after making room for it. -/
lemma Bounded.add_cases {earlier : ℚ} (h : Bounded r₀ earlier r) (hpos : 1 ≤ r₀.maxPending)
    (packet : Packet β) (now : ℚ) :
    (packet.fragCount = 1 ∧
      add packet now r = (.ok (some packet.payload), expire now r)) ∨
    (packet.fragCount ≠ 1 ∧ ∃ r',
      (∀ entry ∈ r'.pending.entries, entry ∈ (expire now r).pending.entries) ∧ SameLimits r₀ r' ∧
      (r'.pending.set packet.msgId ((expire now r).partialOf packet now)).length ≤ r₀.maxPending ∧
      add packet now r = addTo packet ((expire now r).partialOf packet now)
        (assign packet.msgId ((expire now r).partialOf packet now) r')) := by
  have hlimits := h.limits
  have hexpire : (expire now r).pending.length ≤ r₀.maxPending :=
    (List.length_filter_le _ _).trans h.pending
  unfold add
  rw [Method.update_bind]
  split_ifs with hone
  · exact Or.inl ⟨hone, rfl⟩
  refine Or.inr ⟨hone, ?_⟩
  unfold partialFor
  rw [Method.bind_apply, Method.self_bind]
  unfold Reassembler.partialOf
  rcases hget : (expire now r).pending.get? packet.msgId with _ | part
  -- a new message needs room, a known one has it
  · have hmax : (expire now r).maxPending = r₀.maxPending := hlimits.maxPending
    rw [← hmax] at hpos hexpire ⊢
    obtain ⟨r', hevict, hlt, hsub, hlimits'⟩ := evict_ok hpos hexpire
    refine ⟨r', hsub, hlimits.trans ⟨hlimits'.maxPending, hlimits'.maxBytes, hlimits'.timeout⟩,
      ?_, ?_⟩
    · rw [OrderedDict.length_set]
      split_ifs
      · exact hlt.le
      · exact hlt
    · simp only
      rw [Method.bind_of_ok hevict]
      rfl
  · refine ⟨expire now r, fun _ h => h, hlimits.trans ⟨rfl, rfl, rfl⟩, ?_, ?_⟩
    · rw [Option.getD_some, OrderedDict.set_of_get? hget]
      exact hexpire
    · show _ = addTo packet part { expire now r with
        pending := (expire now r).pending.set packet.msgId part }
      rw [OrderedDict.set_of_get? hget]
      rfl

/-- A call keeps the limits, whether it returns or raises. -/
lemma Bounded.add {earlier : ℚ} (h : Bounded r₀ earlier r) (hpos : 1 ≤ r₀.maxPending)
    (htimeout : 0 ≤ r₀.timeout) (packet : Packet β) (now : ℚ) :
    Bounded r₀ now (add packet now r).2 := by
  have hcur := h.partialOf htimeout packet now
  rcases h.add_cases hpos packet now with ⟨-, hadd⟩ | ⟨-, r', hsub, hlimits, hlen, hadd⟩
  · rw [hadd]
    have hlimits := h.limits
    exact ⟨⟨hlimits.maxPending, hlimits.maxBytes, hlimits.timeout⟩,
      (List.length_filter_le _ _).trans h.pending, fun _ => h.of_mem_expire⟩
  have hset : ∀ part : Partial β,
      (r'.pending.set packet.msgId part).length ≤ r₀.maxPending := fun part => by
    rw [OrderedDict.length_set] at hlen ⊢
    exact hlen
  -- the message of the packet is put back, or it is gone
  have hassign : ∀ part : Partial β, part.Bounded r₀.maxBytes r₀.timeout now →
      Bounded r₀ now (assign packet.msgId part r') := by
    intro part hpart
    refine ⟨⟨hlimits.maxPending, hlimits.maxBytes, hlimits.timeout⟩, hset part,
      fun entry hentry => ?_⟩
    rcases OrderedDict.mem_set.mp hentry with ⟨-, heq⟩ | ⟨-, hmem⟩
    · rw [heq]
      exact hpart
    · exact h.of_mem_expire (hsub entry hmem)
  have hdelete : Bounded r₀ now (delete packet.msgId r') := by
    refine ⟨⟨hlimits.maxPending, hlimits.maxBytes, hlimits.timeout⟩, ?_, fun entry hentry =>
      h.of_mem_expire (hsub entry (OrderedDict.mem_erase.mp hentry).2)⟩
    have hle : (delete packet.msgId r').pending.length ≤ r'.pending.length :=
      List.length_filter_le _ _
    have hset := hset (r.partialOf packet now)
    rw [OrderedDict.length_set] at hset
    split_ifs at hset <;> omega
  rw [hadd]
  rcases addTo_cases packet ((expire now r).partialOf packet now) r' with
    ⟨e, hraise⟩ | ⟨hcount, -, ⟨-, hdup⟩ | ⟨hnew, hsize, hinsert⟩⟩
  · rw [hraise]
    exact hdelete
  · rw [hdup]
    exact hassign _ hcur
  · rw [hinsert]
    split_ifs with hcomplete
    · exact hdelete
    · rw [hlimits.maxBytes] at hsize
      exact hassign _ (hcur.insert hcount hnew hsize (Bool.eq_false_iff.mpr hcomplete))

/-! ## What a pending message is made of -/

variable {msgId : Bytes β} {old since before calls : List (Packet β × ℚ)}
  {call created : Packet β × ℚ}

/-- A pending message holds the first arrival of each fragment since it was created. -/
def Collects (r₀ : Reassembler β) (calls : List (Packet β × ℚ)) (msgId : Bytes β)
    (part : Partial β) : Prop :=
  ∃ old created since, calls = old ++ created :: since ∧
    Creates r₀ msgId old created since ∧ part.firstSeen = created.2 ∧
    (∀ packet ∈ arrivals msgId (created :: since),
      packet.fragCount = part.fragCount ∧ packet.ptype = part.ptype) ∧
    ∀ i, part.fragments.get? i =
      ((arrivals msgId (created :: since)).find? fun packet => packet.fragIndex = i).map
        Packet.payload

lemma arrivals_append (msgId : Bytes β) (calls calls' : List (Packet β × ℚ)) :
    arrivals msgId (calls ++ calls') = arrivals msgId calls ++ arrivals msgId calls' := by
  unfold arrivals
  rw [List.map_append, List.filter_append]

lemma arrivals_own (hid : call.1.msgId = msgId) (hmany : call.1.fragCount ≠ 1) :
    arrivals msgId [call] = [call.1] := by
  simp [arrivals, hid, hmany]

lemma arrivals_other (h : ¬ (call.1.msgId = msgId ∧ call.1.fragCount ≠ 1)) :
    arrivals msgId [call] = [] := by
  simpa [arrivals] using h

/-- A call that finds the message pending comes since its creation. -/
lemma Creates.snoc (h : Creates r₀ msgId old created since)
    (hpending : PendingAt msgId call (afterAll (old ++ created :: since) r₀)) :
    Creates r₀ msgId old created (since ++ [call]) := by
  refine ⟨h.first, h.several, h.absent, fun mid call' rest heq => ?_⟩
  rcases List.eq_nil_or_concat rest with rfl | ⟨rest, last, rfl⟩
  · obtain ⟨rfl, hcall⟩ := List.append_inj' heq rfl
    rw [← (List.cons.inj hcall).1]
    exact hpending
  · rw [List.concat_eq_append, ← List.cons_append, ← List.append_assoc] at heq
    obtain ⟨heq, -⟩ := List.append_inj' heq rfl
    exact h.kept mid call' rest heq

/-- A call for another message changes nothing about this one. -/
lemma Collects.other (h : Collects r₀ before msgId part)
    (hpending : PendingAt msgId call (afterAll before r₀))
    (hother : ¬ (call.1.msgId = msgId ∧ call.1.fragCount ≠ 1)) :
    Collects r₀ (before ++ [call]) msgId part := by
  obtain ⟨old, created, since, rfl, hcreates, hfirst, hfields, hget⟩ := h
  have hsame : arrivals msgId (created :: (since ++ [call])) =
      arrivals msgId (created :: since) := by
    rw [← List.cons_append, arrivals_append, arrivals_other hother, List.append_nil]
  refine ⟨old, created, since ++ [call], by simp, hcreates.snoc hpending, hfirst, ?_, ?_⟩
  · rwa [hsame]
  · rwa [hsame]

/-- A fragment of the message is its index's first arrival unless there is an earlier one. -/
lemma Collects.arrive {part' : Partial β} (h : Collects r₀ before call.1.msgId part)
    (hpending : PendingAt call.1.msgId call (afterAll before r₀)) (hmany : call.1.fragCount ≠ 1)
    (hcall : part.fragCount = call.1.fragCount ∧ part.ptype = call.1.ptype)
    (hsame : part'.fragCount = part.fragCount ∧ part'.ptype = part.ptype ∧
      part'.firstSeen = part.firstSeen)
    (hget' : ∀ i, part'.fragments.get? i = (part.fragments.get? i).or
      (if call.1.fragIndex = i then some call.1.payload else none)) :
    Collects r₀ (before ++ [call]) call.1.msgId part' := by
  obtain ⟨old, created, since, rfl, hcreates, hfirst, hfields, hget⟩ := h
  obtain ⟨hcount, hptype, hseen⟩ := hsame
  refine ⟨old, created, since ++ [call], by simp, hcreates.snoc hpending, hseen.trans hfirst,
    ?_, ?_⟩
  · intro packet hpacket
    rw [← List.cons_append, arrivals_append, arrivals_own rfl hmany, List.mem_append,
      List.mem_singleton] at hpacket
    rw [hcount, hptype]
    rcases hpacket with hpacket | rfl
    · exact hfields packet hpacket
    · exact ⟨hcall.1.symm, hcall.2.symm⟩
  · intro i
    rw [← List.cons_append, arrivals_append, arrivals_own rfl hmany, List.find?_append, hget', hget]
    cases (arrivals call.1.msgId (created :: since)).find? fun packet => packet.fragIndex = i with
    | some packet => rfl
    | none => by_cases hi : call.1.fragIndex = i <;> simp [hi]

/-- A message that is created holds the fragment that creates it. -/
lemma Collects.create (habsent : ¬ PendingAt call.1.msgId call (afterAll before r₀))
    (hmany : call.1.fragCount ≠ 1) :
    Collects r₀ (before ++ [call]) call.1.msgId
      (Partial.insert { fragCount := call.1.fragCount, ptype := call.1.ptype, firstSeen := call.2 }
        call.1) := by
  refine ⟨before, call, [], rfl, ⟨rfl, hmany, habsent, ?_⟩, rfl, ?_, ?_⟩
  · intro mid call' rest heq
    cases mid <;> cases heq
  · intro packet hpacket
    rw [arrivals_own rfl hmany, List.mem_singleton] at hpacket
    rw [hpacket]
    exact ⟨rfl, rfl⟩
  · intro i
    show (OrderedDict.set .empty call.1.fragIndex call.1.payload).get? i = _
    rw [arrivals_own rfl hmany]
    by_cases hi : call.1.fragIndex = i
    · subst hi
      rw [OrderedDict.get?_set_self]
      simp
    · rw [OrderedDict.get?_set_of_ne _ _ (Ne.symm hi), List.find?_singleton,
        if_neg (by simpa using hi)]
      rfl

/-- What is pending collects the fragments of its message. -/
def CollectsAll (r₀ : Reassembler β) (calls : List (Packet β × ℚ)) : Prop :=
  ∀ msgId part, (afterAll calls r₀).pending.get? msgId = some part →
    Collects r₀ calls msgId part

lemma CollectsAll.of_mem_expire (h : CollectsAll r₀ before)
    (hget : (expire now (afterAll before r₀)).pending.get? msgId = some part) :
    Collects r₀ before msgId part := by
  have hmem := (OrderedDict.mem_filter.mp (OrderedDict.get?_eq_some_iff.mp hget)).1
  exact h msgId part (OrderedDict.get?_eq_some_iff.mpr hmem)

/-- The message of a fragment that is taken in collects it. -/
lemma CollectsAll.arrive (h : CollectsAll r₀ before) (hmany : call.1.fragCount ≠ 1)
    (hpart : (expire call.2 (afterAll before r₀)).partialOf call.1 call.2 = part)
    (hcount : part.fragCount = call.1.fragCount) (hptype : part.ptype = call.1.ptype) :
    (call.1.fragIndex ∈ part.fragments.keys →
      Collects r₀ (before ++ [call]) call.1.msgId part) ∧
    (call.1.fragIndex ∉ part.fragments.keys →
      Collects r₀ (before ++ [call]) call.1.msgId (part.insert call.1)) := by
  unfold partialOf at hpart
  rcases hget : (expire call.2 (afterAll before r₀)).pending.get? call.1.msgId with _ | cur
  -- the first fragment of a message opens it, a later one is looked up
  · rw [hget, Option.getD_none] at hpart
    subst hpart
    have habsent : ¬ PendingAt call.1.msgId call (afterAll before r₀) :=
      OrderedDict.get?_eq_none_iff.mp hget
    exact ⟨fun hdup => (nomatch hdup), fun _ => Collects.create habsent hmany⟩
  · rw [hget, Option.getD_some] at hpart
    subst hpart
    have hpending : PendingAt call.1.msgId call (afterAll before r₀) :=
      OrderedDict.mem_keys_of_get? hget
    have hcollects := h.of_mem_expire hget
    constructor
    -- the first arrival of a fragment is what counts
    · intro hdup
      refine hcollects.arrive hpending hmany ⟨hcount, hptype⟩ ⟨rfl, rfl, rfl⟩ fun i => ?_
      split_ifs with hi
      · obtain ⟨payload, hpayload⟩ := OrderedDict.exists_get?_of_mem_keys hdup
        rw [← hi, hpayload, Option.some_or]
      · rw [Option.or_none]
    · intro hnew
      refine hcollects.arrive hpending hmany ⟨hcount, hptype⟩ ⟨rfl, rfl, rfl⟩ fun i => ?_
      show (cur.fragments.set call.1.fragIndex call.1.payload).get? i = _
      split_ifs with hi
      · subst hi
        rw [OrderedDict.get?_set_self, OrderedDict.get?_eq_none_iff.mpr hnew, Option.none_or]
      · rw [OrderedDict.get?_set_of_ne _ _ (Ne.symm hi), Option.or_none]

/-- After a call, what is pending still collects the fragments of its message. -/
lemma CollectsAll.add {earlier : ℚ} (h : CollectsAll r₀ before)
    (hbounded : Bounded r₀ earlier (afterAll before r₀)) (hpos : 1 ≤ r₀.maxPending)
    (call : Packet β × ℚ) : CollectsAll r₀ (before ++ [call]) := by
  intro k part hpart
  rw [afterAll_append_singleton] at hpart
  rcases hbounded.add_cases hpos call.1 call.2 with
    ⟨hone, hadd⟩ | ⟨hmany, r', hsub, -, -, hadd⟩
  · rw [hadd] at hpart
    exact (h.of_mem_expire hpart).other (OrderedDict.mem_keys_of_get? hpart)
      fun hcall => hcall.2 hone
  have hother : k ≠ call.1.msgId → r'.pending.get? k = some part →
      Collects r₀ (before ++ [call]) k part := by
    intro hne hget
    have hmem := hsub (k, part) (OrderedDict.get?_eq_some_iff.mp hget)
    have hget := OrderedDict.get?_eq_some_iff.mpr hmem
    exact (h.of_mem_expire hget).other (OrderedDict.mem_keys_of_get? hget)
      fun hcall => hne hcall.1.symm
  -- the message of the packet is put back, or it is gone
  have hassign : ∀ part', (assign call.1.msgId part' r').pending.get? k = some part →
      Collects r₀ (before ++ [call]) call.1.msgId part' →
      Collects r₀ (before ++ [call]) k part := by
    intro part' hget hcollects
    unfold assign at hget
    by_cases hk : k = call.1.msgId
    · subst hk
      rw [OrderedDict.get?_set_self] at hget
      rwa [← Option.some.inj hget]
    · rw [OrderedDict.get?_set_of_ne _ _ hk] at hget
      exact hother hk hget
  have hdelete : (delete call.1.msgId r').pending.get? k = some part →
      Collects r₀ (before ++ [call]) k part := by
    intro hget
    obtain ⟨hk, hmem⟩ := OrderedDict.mem_erase.mp (OrderedDict.get?_eq_some_iff.mp hget)
    exact hother hk (OrderedDict.get?_eq_some_iff.mpr hmem)
  rw [hadd] at hpart
  rcases addTo_cases call.1
    ((expire call.2 (afterAll before r₀)).partialOf call.1 call.2) r' with
    ⟨e, hraise⟩ | ⟨hcount, hptype, ⟨hdup, hreturn⟩ | ⟨hnew, -, hinsert⟩⟩
  · rw [hraise] at hpart
    exact hdelete hpart
  · rw [hreturn] at hpart
    exact hassign _ hpart ((h.arrive hmany rfl hcount hptype).1 hdup)
  · rw [hinsert] at hpart
    split_ifs at hpart
    · exact hdelete hpart
    · exact hassign _ hpart ((h.arrive hmany rfl hcount hptype).2 hnew)

/-! ## A run of calls -/

/-- The clock of the calls does not go backwards. -/
def Nondecreasing (calls : List (Packet β × ℚ)) : Prop := (calls.map Prod.snd).Pairwise (· ≤ ·)

/-- What a run of calls preserves. -/
lemma bounded_collects_afterAll (hempty : r₀.pending = .empty) (hpos : 1 ≤ r₀.maxPending)
    (htimeout : 0 ≤ r₀.timeout) (calls : List (Packet β × ℚ)) :
    (∃ now, Bounded r₀ now (afterAll calls r₀)) ∧ CollectsAll r₀ calls := by
  induction calls using List.reverseRecOn with
  | nil =>
    refine ⟨⟨0, ⟨rfl, rfl, rfl⟩, ?_, ?_⟩, ?_⟩
    · show r₀.pending.length ≤ _
      rw [hempty]
      exact Nat.zero_le _
    · show ∀ entry ∈ r₀.pending.entries, _
      rw [hempty]
      exact fun entry hentry => (nomatch hentry)
    · intro k part hpart
      rw [show afterAll [] r₀ = r₀ from rfl, hempty] at hpart
      cases hpart
  | append_singleton before call ih =>
    obtain ⟨⟨earlier, hbounded⟩, hcollects⟩ := ih
    refine ⟨⟨call.2, ?_⟩, hcollects.add hbounded hpos call⟩
    rw [afterAll_append_singleton]
    exact hbounded.add hpos htimeout call.1 call.2

/-- A message that has every fragment is made of first arrivals. -/
lemma Collects.firstArrivals (h : Collects r₀ calls msgId part)
    (hindices : ∀ i < part.fragCount, i ∈ part.fragments.keys) :
    ∃ old created since, calls = old ++ created :: since ∧ Creates r₀ msgId old created since ∧
      part.firstSeen = created.2 ∧
      (∀ packet ∈ arrivals msgId (created :: since),
        packet.fragCount = part.fragCount ∧ packet.ptype = part.ptype) ∧
      FirstArrivals (arrivals msgId (created :: since)) part.fragCount part.assemble := by
  obtain ⟨old, created, since, hcalls, hcreates, hfirst, hfields, hget⟩ := h
  refine ⟨old, created, since, hcalls, hcreates, hfirst, hfields, ?_⟩
  have hfind : ∀ i ∈ List.range part.fragCount, ∃ packet,
      (arrivals msgId (created :: since)).find? (fun packet => packet.fragIndex = i) =
        some packet ∧ (part.fragments.get? i).getD [] = packet.payload := by
    intro i hi
    obtain ⟨payload, hpayload⟩ :=
      OrderedDict.exists_get?_of_mem_keys (hindices i (List.mem_range.mp hi))
    have hmap := hpayload
    rw [hget] at hmap
    obtain ⟨packet, hpacket, heq⟩ := Option.map_eq_some_iff.mp hmap
    exact ⟨packet, hpacket, by rw [hpayload, heq, Option.getD_some]⟩
  unfold FirstArrivals Partial.assemble
  generalize List.range part.fragCount = indices at hfind
  induction indices with
  | nil => exact ⟨[], List.Forall₂.nil, rfl⟩
  | cons i indices ih =>
    obtain ⟨packet, hpacket, heq⟩ := hfind i List.mem_cons_self
    obtain ⟨firsts, hfirsts, hflat⟩ := ih fun i hi => hfind i (List.mem_cons_of_mem _ hi)
    refine ⟨packet :: firsts, List.Forall₂.cons hpacket hfirsts, ?_⟩
    rw [List.flatMap_cons, heq, hflat, List.map_cons, List.flatten_cons]

omit [DecidableEq β] in
/-- As many distinct indices as there are fragments, all of them in range, are all the indices. -/
lemma mem_keys_of_complete (hcomplete : part.complete = true)
    (hindices : ∀ i ∈ part.fragments.keys, i < part.fragCount) :
    ∀ i < part.fragCount, i ∈ part.fragments.keys := by
  intro i hi
  have hsub : part.fragments.keys.Subperm (List.range part.fragCount) :=
    part.fragments.nodup_keys.subperm fun j hj => List.mem_range.mpr (hindices j hj)
  have hlen : (List.range part.fragCount).length ≤ part.fragments.keys.length := by
    rw [List.length_range, OrderedDict.length_keys]
    exact (decide_eq_true_eq.mp hcomplete).ge
  exact (hsub.perm_of_length_le hlen).mem_iff.mpr (List.mem_range.mpr hi)

/-- A payload of several fragments that is returned is made of recent first arrivals. -/
lemma assembled_of_add {earlier : ℚ} {payload : Bytes β}
    (hbounded : Bounded r₀ earlier (afterAll before r₀)) (hcollects : CollectsAll r₀ before)
    (hpos : 1 ≤ r₀.maxPending) (htimeout : 0 ≤ r₀.timeout)
    (hclock : Nondecreasing (before ++ [call])) (hmany : call.1.fragCount ≠ 1)
    (hreturn : (add call.1 call.2 (afterAll before r₀)).1 = .ok (some payload)) :
    Assembled r₀ (before ++ [call]) call payload := by
  have hcur := hbounded.partialOf htimeout call.1 call.2
  rcases hbounded.add_cases hpos call.1 call.2 with ⟨hone, -⟩ | ⟨-, r', -, -, -, hadd⟩
  · exact absurd hone hmany
  rw [hadd] at hreturn
  generalize hpart : (expire call.2 (afterAll before r₀)).partialOf call.1 call.2 = part
    at hreturn hcur
  rcases addTo_cases call.1 part r' with
    ⟨e, hraise⟩ | ⟨hcount, hptype, ⟨-, hdup⟩ | ⟨hnew, -, hinsert⟩⟩
  · rw [hraise] at hreturn
    cases hreturn
  · rw [hdup] at hreturn
    cases hreturn
  · rw [hinsert] at hreturn
    split_ifs at hreturn with hcomplete
    · obtain rfl := Option.some.inj (Except.ok.inj hreturn)
      have hall := mem_keys_of_complete hcomplete (hcur.insert_indices hcount)
      obtain ⟨old, created, since, hcalls, hcreates, hfirst, hfields, hfirsts⟩ :=
        ((hcollects.arrive hmany hpart hcount hptype).2 hnew).firstArrivals hall
      have hcount' : (part.insert call.1).fragCount = call.1.fragCount := hcount
      have hptype' : (part.insert call.1).ptype = call.1.ptype := hptype
      rw [hcount', hptype'] at hfields
      rw [hcount'] at hfirsts
      refine ⟨old, created, since, hcalls, hcreates, fun c hc => ?_, hfields, hfirsts⟩
      -- no call since is earlier than the first of them
      have hle : created.2 ≤ c.2 := by
        unfold Nondecreasing at hclock
        rw [hcalls, List.map_append, List.pairwise_append, List.map_cons,
          List.pairwise_cons] at hclock
        rcases List.mem_cons.mp hc with rfl | hc
        · exact le_refl _
        · exact hclock.2.1.1 _ (List.mem_map_of_mem hc)
      have hage : call.2 - created.2 ≤ r₀.timeout := hfirst ▸ hcur.age
      exact (sub_le_sub_left hle _).trans hage
    · cases hreturn

/-- Whatever arrives, what is pending keeps the limits, and a payload of several fragments is made
of the first arrivals of one message. -/
theorem bounded_and_assembled (r₀ : Reassembler β) (hempty : r₀.pending = .empty)
    (hpos : 1 ≤ r₀.maxPending) (htimeout : 0 ≤ r₀.timeout) (before : List (Packet β × ℚ))
    (call : Packet β × ℚ) (hclock : Nondecreasing (before ++ [call])) :
    Bounded r₀ call.2 (afterAll (before ++ [call]) r₀) ∧
      ∀ payload, call.1.fragCount > 1 →
        (add call.1 call.2 (afterAll before r₀)).1 = .ok (some payload) →
        Assembled r₀ (before ++ [call]) call payload := by
  obtain ⟨⟨earlier, hbounded⟩, hcollects⟩ :=
    bounded_collects_afterAll hempty hpos htimeout before
  constructor
  · rw [afterAll_append_singleton]
    exact hbounded.add hpos htimeout call.1 call.2
  · intro payload hmany hreturn
    exact assembled_of_add hbounded hcollects hpos htimeout hclock hmany.ne' hreturn

/-- One of the two halves of a message. -/
def half (i : ℕ) (payload : Bytes UInt8) (h : i < 2) (hlen : payload.length ≤ 0xFFFF) :
    Packet UInt8 :=
  .ofFields .data payload [1, 2, 3, 4, 5, 6, 7, 8] [9, 9, 9, 9, 9, 9, 9, 9] 7 i 2
    ⟨rfl, rfl, by decide, by decide, h, hlen⟩

/-- A forged half that comes after the real one does not replace it. -/
theorem assembled_halves :
    let first := half 0 [10, 20] (by decide) (by decide)
    let forged := half 0 [66, 66] (by decide) (by decide)
    let second := half 1 [30] (by decide) (by decide)
    Bounded {} 2 (afterAll [(first, 0), (forged, 1), (second, 2)] {}) ∧
      Assembled {} [(first, 0), (forged, 1), (second, 2)] (second, 2) [10, 20, 30] := by
  intro first forged second
  have hclock : Nondecreasing ([(first, 0), (forged, 1)] ++ [(second, 2)]) := by
    unfold Nondecreasing
    decide +kernel
  have hall := bounded_and_assembled {} rfl (by decide) (by decide +kernel)
    [(first, 0), (forged, 1)] (second, 2) hclock
  refine ⟨hall.1, hall.2 [10, 20, 30] (by decide) ?_⟩
  decide +kernel

end Reassembler

end Chatbit
