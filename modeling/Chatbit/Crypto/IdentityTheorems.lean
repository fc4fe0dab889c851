import Chatbit.Crypto.Identity
import Chatbit.Crypto.Assumptions

/-!
# What pinning does

`observe` is the only operation of the trust store that a handshake performs. When it returns, the
object it returns has the keys that were presented; when it raises, nothing has changed.
-/

namespace Chatbit

open Lib

variable {β X E : Type} [Alphabet β] [DecidableEq β] {P : Primitives β X E}

namespace TrustStore

variable {store store' : TrustStore β}

omit [Alphabet β] [DecidableEq β] in
@[simp] lemma save_objects (store : TrustStore β) : store.save.objects = store.objects := by
  unfold save
  split <;> rfl

omit [Alphabet β] [DecidableEq β] in
@[simp] lemma save_peers (store : TrustStore β) : store.save.peers = store.peers := by
  unfold save
  split <;> rfl

omit [Alphabet β] in
/-- Each entry refers to an object with its signing key. -/
lemma object_of_get? {signingPublic : Bytes β} {ref : PeerRef}
    (h : store.peers.get? signingPublic = some ref) :
    ∃ p, store.object ref = some p ∧ p.signingPublic = signingPublic :=
  store.keyed _ (OrderedDict.get?_eq_some_iff.mp h)

omit [Alphabet β] in
lemma get_of_none {k : Bytes β} (hget : store.peers.get? k = none) : store.get k = none := by
  rw [TrustStore.get, hget]
  rfl

omit [Alphabet β] in
lemma get_of_object {k : Bytes β} {ref : PeerRef} {p : PeerIdentity β}
    (hget : store.peers.get? k = some ref) (hobj : store.object ref = some p) :
    store.get k = some p := by
  rw [TrustStore.get, hget]
  exact hobj

/-! ## What the operations do -/

/-- What `observe` returns or raises, and the store that it leaves. -/
inductive ObserveEnds (P : Primitives β X E) (store : TrustStore β) (k staticPublic : Bytes β)
    (nickname : String) (now : ℚ) : Except (Exc β) PeerRef × TrustStore β → Prop
  | pins (hget : store.peers.get? k = none) :
    ObserveEnds P store k staticPublic nickname now
      (.ok store.objects.length, (store.add ⟨k, staticPublic, nickname, false, now⟩).save)
  | refuses {ref : PeerRef} {p : PeerIdentity β} (hget : store.peers.get? k = some ref)
    (hobj : store.object ref = some p) (hstatic : p.staticPublic ≠ staticPublic) :
    ObserveEnds P store k staticPublic nickname now
      (.error (.keyChangedError (if p.nickname ≠ "" then p.nickname else p.shortId P)
        p.staticPublic staticPublic), store)
  | renames {ref : PeerRef} {p : PeerIdentity β} (hget : store.peers.get? k = some ref)
    (hobj : store.object ref = some p) (hstatic : p.staticPublic = staticPublic)
    (hnick : nickname ≠ "" ∧ nickname ≠ p.nickname) :
    ObserveEnds P store k staticPublic nickname now
      (.ok ref, (store.modify ref (fun p => { p with nickname := nickname }) fun _ => rfl).save)
  | knows {ref : PeerRef} {p : PeerIdentity β} (hget : store.peers.get? k = some ref)
    (hobj : store.object ref = some p) (hstatic : p.staticPublic = staticPublic)
    (hnick : ¬ (nickname ≠ "" ∧ nickname ≠ p.nickname)) :
    ObserveEnds P store k staticPublic nickname now (.ok ref, store)

lemma observe_ends (P : Primitives β X E) (store : TrustStore β) (k staticPublic : Bytes β)
    (nickname : String) (now : ℚ) :
    ObserveEnds P store k staticPublic nickname now
      (observe P k staticPublic nickname now store) := by
  rcases hget : store.peers.get? k with _ | ref
  · simp only [observe, Method.self_bind, hget, Method.update_bind, Method.pure_apply]
    exact .pins hget
  obtain ⟨p, hobj, -⟩ := object_of_get? hget
  by_cases hstatic : p.staticPublic = staticPublic
  · by_cases hnick : nickname ≠ "" ∧ nickname ≠ p.nickname
    · simp only [observe, Method.self_bind, hget, hobj, hstatic, ne_eq, not_true_eq_false,
        if_false, if_pos hnick, Method.update_bind, Method.pure_apply]
      exact .renames hget hobj hstatic hnick
    · simp only [observe, Method.self_bind, hget, hobj, hstatic, ne_eq, not_true_eq_false,
        if_false, if_neg hnick, Method.pure_apply]
      exact .knows hget hobj hstatic hnick
  · simp only [observe, Method.self_bind, hget, hobj, ne_eq, hstatic, not_false_eq_true, if_true,
      Method.raise_apply]
    exact .refuses hget hobj hstatic

/-- What `mark_verified` and `repin` do. -/
inductive ChangeEnds (store : TrustStore β) (k : Bytes β) (unknown : String)
    (f : PeerIdentity β → PeerIdentity β) (hf : ∀ p, (f p).signingPublic = p.signingPublic) :
    Except (Exc β) PeerRef × TrustStore β → Prop
  | raises (hget : store.peers.get? k = none) :
    ChangeEnds store k unknown f hf (.error (.trustError unknown), store)
  | changes {ref : PeerRef} {p : PeerIdentity β} (hget : store.peers.get? k = some ref)
    (hobj : store.object ref = some p) :
    ChangeEnds store k unknown f hf (.ok ref, (store.modify ref f hf).save)

omit [Alphabet β] in
lemma change_ends (store : TrustStore β) (k : Bytes β) (unknown : String)
    (f : PeerIdentity β → PeerIdentity β) (hf : ∀ p, (f p).signingPublic = p.signingPublic) :
    ChangeEnds store k unknown f hf (change k unknown f hf store) := by
  rcases hget : store.peers.get? k with _ | ref
  · simp only [change, Method.self_bind, hget, Method.raise_apply]
    exact .raises hget
  · obtain ⟨p, hobj, -⟩ := object_of_get? hget
    simp only [change, Method.self_bind, hget, Method.update_bind, Method.pure_apply]
    exact .changes hget hobj

/-! ## What `observe` checks -/

/-- The static key that is presented is the pinned one, if there is one. -/
def Compatible (store : TrustStore β) (signingPublic staticPublic : Bytes β) : Prop :=
  ∀ p, store.get signingPublic = some p → p.staticPublic = staticPublic

/-- The object that `observe` returns has the keys that were presented. -/
lemma observe_ok {signingPublic staticPublic : Bytes β} {nickname : String} {now : ℚ}
    {ref : PeerRef}
    (h : observe P signingPublic staticPublic nickname now store = (.ok ref, store')) :
    ∃ p, store'.object ref = some p ∧ p.signingPublic = signingPublic ∧
      p.staticPublic = staticPublic := by
  have hends := observe_ends P store signingPublic staticPublic nickname now
  rw [h] at hends
  cases hends with
  | pins hget =>
    refine ⟨⟨signingPublic, staticPublic, nickname, false, now⟩, ?_, rfl, rfl⟩
    simp [object, add]
  | @renames ref p hget hobj hstatic hnick =>
    obtain ⟨p', hobj', hkey⟩ := object_of_get? hget
    obtain rfl := Option.some.inj (hobj.symm.trans hobj')
    refine ⟨{ p with nickname := nickname }, ?_, hkey, hstatic⟩
    rw [object] at hobj
    simp [object, modify, hobj]
  | @knows ref p hget hobj hstatic hnick =>
    obtain ⟨p', hobj', hkey⟩ := object_of_get? hget
    obtain rfl := Option.some.inj (hobj.symm.trans hobj')
    exact ⟨p, hobj, hkey, hstatic⟩

/-- `observe` raises nothing but `KeyChangedError`, and then the store is as it was. -/
lemma observe_error {signingPublic staticPublic : Bytes β} {nickname : String} {now : ℚ}
    {err : Exc β}
    (h : observe P signingPublic staticPublic nickname now store = (.error err, store')) :
    ¬ store.Compatible signingPublic staticPublic ∧
      (∃ name pinned, err = .keyChangedError name pinned staticPublic) ∧ store' = store := by
  have hends := observe_ends P store signingPublic staticPublic nickname now
  rw [h] at hends
  cases hends with
  | refuses hget hobj hstatic =>
    exact ⟨fun hc => hstatic (hc _ (get_of_object hget hobj)), ⟨_, _, rfl⟩, rfl⟩

lemma compatible_of_observe {signingPublic staticPublic : Bytes β} {nickname : String} {now : ℚ}
    {ref : PeerRef}
    (h : observe P signingPublic staticPublic nickname now store = (.ok ref, store')) :
    store.Compatible signingPublic staticPublic := by
  intro p hp
  have hends := observe_ends P store signingPublic staticPublic nickname now
  rw [h] at hends
  cases hends with
  | pins hget =>
    rw [get_of_none hget] at hp
    cases hp
  | renames hget hobj hstatic | knows hget hobj hstatic =>
    obtain rfl := Option.some.inj ((get_of_object hget hobj).symm.trans hp)
    exact hstatic

/-- `observe` returns whenever it is not asked to change a pinned key. -/
lemma observe_of_compatible {signingPublic staticPublic : Bytes β}
    (hc : store.Compatible signingPublic staticPublic) (nickname : String) (now : ℚ) :
    ∃ ref store', observe P signingPublic staticPublic nickname now store = (.ok ref, store') := by
  rcases h : observe P signingPublic staticPublic nickname now store with ⟨err | ref, store'⟩
  · exact absurd hc (observe_error h).1
  · exact ⟨ref, store', rfl⟩

end TrustStore

end Chatbit
