import Chatbit.Wire.ReassemblyTheorems

/-!
# Packets that disagree with a message

Two packets of one identifier that disagree about their message belong to no message: the second
discards what has arrived with the first, unless it claims to be a whole message of its own. Such a
packet never gets to the check (`add_single`).
-/

namespace Chatbit

open Lib

namespace Reassembler

variable {β : Type} [DecidableEq β] {r : Reassembler β} {packet : Packet β} {now : ℚ}
  {part : Partial β}

/-- The reassembler holds a message under the identifier of the packet that has not expired, and the
packet disagrees with it. -/
structure Conflicts (r : Reassembler β) (packet : Packet β) (now : ℚ) (part : Partial β) :
    Prop where
  held : r.pending.get? packet.msgId = some part
  recent : now - part.firstSeen ≤ r.timeout
  differs : part.fragCount ≠ packet.fragCount ∨ part.ptype ≠ packet.ptype

/-- The packet is refused, and the message it belongs to is gone. -/
def Discards (r : Reassembler β) (packet : Packet β) (now : ℚ) : Prop :=
  ∃ msg r', add packet now r = (.error (.reassemblyError msg), r') ∧
    packet.msgId ∉ r'.pending.keys

/-- A message of one packet goes through, whatever is held under its identifier. -/
lemma add_single (hone : packet.fragCount = 1) (now : ℚ) (r : Reassembler β) :
    add packet now r = (.ok (some packet.payload), expire now r) := by
  unfold add
  rw [Method.update_bind, if_pos hone]
  rfl

lemma get?_expire (h : r.pending.get? packet.msgId = some part)
    (hrecent : now - part.firstSeen ≤ r.timeout) :
    (expire now r).pending.get? packet.msgId = some part := by
  unfold expire
  rw [OrderedDict.get?_filter, h]
  exact Option.filter_eq_some_iff.mpr ⟨rfl, by simpa using hrecent⟩

lemma addTo_of_differs (h : part.fragCount ≠ packet.fragCount ∨ part.ptype ≠ packet.ptype) :
    addTo packet part r =
      (.error (.reassemblyError "inconsistent fragment metadata for msg_id"),
        delete packet.msgId r) := by
  unfold addTo
  rw [Method.self_bind, if_pos h]
  rfl

/-- A packet that disagrees with a held message is refused with it, if it is one of several. -/
lemma add_of_conflicts (h : Conflicts r packet now part) (hmany : packet.fragCount ≠ 1) :
    add packet now r =
      (.error (.reassemblyError "inconsistent fragment metadata for msg_id"),
        delete packet.msgId (expire now r)) := by
  have hfound : partialFor packet now (expire now r) = (.ok part, expire now r) := by
    unfold partialFor
    rw [Method.self_bind, get?_expire h.held h.recent]
    rfl
  unfold add
  rw [Method.update_bind, if_neg hmany, Method.bind_of_ok hfound, addTo_of_differs h.differs]

/-- A packet that disagrees with a message discards it exactly if it is not a whole message. -/
theorem discards_iff (h : Conflicts r packet now part) :
    Discards r packet now ↔ packet.fragCount ≠ 1 := by
  constructor
  · rintro ⟨msg, r', hadd, -⟩ hone
    rw [add_single hone] at hadd
    cases hadd
  · intro hmany
    refine ⟨_, _, add_of_conflicts h hmany, ?_⟩
    apply OrderedDict.get?_eq_none_iff.mp
    exact OrderedDict.get?_erase_self _ _

/-- The first fragment of `fragCount`, of one and the same identifier. -/
def opening (fragCount : ℕ) (payload : Bytes UInt8) (hlen : payload.length ≤ 0xFFFF)
    (hcount : 1 ≤ fragCount ∧ fragCount ≤ MAX_FRAGMENTS) : Packet UInt8 :=
  .ofFields .data payload [1, 2, 3, 4, 5, 6, 7, 8] [9, 9, 9, 9, 9, 9, 9, 9] 7 0 fragCount
    ⟨rfl, rfl, by decide, hcount, hcount.1, hlen⟩

/-- What the first fragment of three leaves. -/
def opened : Partial UInt8 where
  fragCount := 3
  ptype := .data
  fragments := OrderedDict.empty.set 0 [10, 20]
  totalBytes := 2

/-- Three fragments against seven. -/
theorem discards_seven :
    let three := opening 3 [10, 20] (by decide) (by decide)
    let seven := opening 7 [66, 66] (by decide) (by decide)
    Discards (add three 0 {}).2 seven 1 ↔ seven.fragCount ≠ 1 := by
  intro three seven
  have hconflicts : Conflicts (add three 0 {}).2 seven 1 opened := by
    constructor
    · rfl
    · decide +kernel
    · decide
  exact discards_iff hconflicts

/-- Three fragments against one: the one is delivered, and the first of the three stays. -/
theorem single_goes_through :
    let three := opening 3 [10, 20] (by decide) (by decide)
    let single := opening 1 [66, 66] (by decide) (by decide)
    Conflicts (add three 0 {}).2 single 1 opened ∧
      (add single 1 (add three 0 {}).2).1 = .ok (some [66, 66]) ∧
      single.msgId ∈ (add single 1 (add three 0 {}).2).2.pending.keys ∧
      ¬ Discards (add three 0 {}).2 single 1 := by
  intro three single
  refine ⟨⟨rfl, by decide +kernel, by decide⟩, rfl, by decide +kernel, ?_⟩
  rintro ⟨msg, r', hadd, -⟩
  rw [add_single rfl] at hadd
  cases hadd

end Reassembler

end Chatbit
