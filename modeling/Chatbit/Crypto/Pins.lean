import Mathlib.Logic.Function.Basic
import Chatbit.Crypto.IdentityTheorems

/-!
# What is pinned

What a trust store is for: to each signing key it pins one static key, which is verified or not.
The four operations act on this abstract state (`Pins.apply`) without a look at nicknames or times,
and the store refines it (`TrustStore.pins_run`).
-/

namespace Chatbit

open Lib

variable {β X E : Type} [Alphabet β] [DecidableEq β]

/-! ## The abstract store -/

/-- The static key that is pinned for a signing key, and whether it is verified. -/
abbrev Pins (β : Type) := Bytes β → Option (Bytes β × Bool)

inductive PinOp (β : Type) where
  | observe (signingPublic staticPublic : Bytes β)
  | markVerified (signingPublic : Bytes β)
  | repin (signingPublic staticPublic : Bytes β)
  | forget (signingPublic : Bytes β)
deriving DecidableEq

/-- The peer that an operation is about. -/
def PinOp.peer : PinOp β → Bytes β
  | .observe signingPublic _ | .markVerified signingPublic | .repin signingPublic _
  | .forget signingPublic => signingPublic

namespace Pins

/-- What an operation makes of the pin of its peer. -/
def change (pin : Option (Bytes β × Bool)) : PinOp β → Option (Bytes β × Bool)
  | .observe _ staticPublic => some (pin.getD (staticPublic, false))
  | .markVerified _ => pin.map fun p => (p.1, true)
  | .repin _ staticPublic => pin.map fun _ => (staticPublic, false)
  | .forget _ => none

def apply (pins : Pins β) (op : PinOp β) : Pins β :=
  Function.update pins op.peer (change (pins op.peer) op)

/-- When an operation returns. -/
def Permits (pins : Pins β) : PinOp β → Prop
  | .observe signingPublic staticPublic =>
    ∀ p, pins signingPublic = some p → p.1 = staticPublic
  | .markVerified signingPublic | .repin signingPublic _ => (pins signingPublic).isSome
  | .forget _ => True

end Pins

/-! ## The operations of the store -/

/-- A call on the trust store, with all that it is told. -/
inductive TrustOp (β : Type) where
  | observe (signingPublic staticPublic : Bytes β) (nickname : String) (now : ℚ)
  | markVerified (signingPublic : Bytes β)
  | repin (signingPublic staticPublic : Bytes β)
  | forget (signingPublic : Bytes β)
deriving DecidableEq

namespace TrustOp

/-- What matters for the pins. -/
def pinOp : TrustOp β → PinOp β
  | .observe signingPublic staticPublic _ _ => .observe signingPublic staticPublic
  | .markVerified signingPublic => .markVerified signingPublic
  | .repin signingPublic staticPublic => .repin signingPublic staticPublic
  | .forget signingPublic => .forget signingPublic

def run (P : Primitives β X E) : TrustOp β → Method (Exc β) (TrustStore β) Unit
  | .observe signingPublic staticPublic nickname now => do
    let _ ← TrustStore.observe P signingPublic staticPublic nickname now
  | .markVerified signingPublic => do
    let _ ← TrustStore.markVerified signingPublic
  | .repin signingPublic staticPublic => do
    let _ ← TrustStore.repin signingPublic staticPublic
  | .forget signingPublic => TrustStore.forget signingPublic

end TrustOp

namespace TrustStore

def pins (store : TrustStore β) : Pins β := fun signingPublic =>
  (store.get signingPublic).map fun p => (p.staticPublic, p.verified)

variable {store : TrustStore β}

omit [Alphabet β] in
@[simp] lemma get_save (store : TrustStore β) : store.save.get = store.get := by
  funext k
  rw [TrustStore.get, TrustStore.get, save_peers]
  congr 1
  funext ref
  rw [object, object, save_objects]

omit [Alphabet β] in
lemma get_add (store : TrustStore β) (peer : PeerIdentity β) :
    (store.add peer).get = Function.update store.get peer.signingPublic (some peer) := by
  funext k
  by_cases hk : k = peer.signingPublic
  · subst hk
    simp [TrustStore.get, add, object]
  · rw [Function.update_of_ne hk, TrustStore.get, TrustStore.get, add,
      OrderedDict.get?_set_of_ne _ _ hk]
    rcases hget : store.peers.get? k with _ | ref
    · rfl
    · obtain ⟨p, hp, -⟩ := object_of_get? hget
      exact List.getElem?_append_left (List.getElem?_eq_some_iff.mp hp).1

omit [Alphabet β] in
/-- Two signing keys never refer to one object. -/
lemma get_modify {k : Bytes β} {ref : PeerRef} (href : store.peers.get? k = some ref)
    (f : PeerIdentity β → PeerIdentity β) (hf : ∀ p, (f p).signingPublic = p.signingPublic) :
    (store.modify ref f hf).get = Function.update store.get k ((store.get k).map f) := by
  obtain ⟨p, hp, hkey⟩ := object_of_get? href
  funext k'
  by_cases hk : k' = k
  · subst hk
    rw [object] at hp
    simp [TrustStore.get, modify, object, href, hp]
  · rw [Function.update_of_ne hk, TrustStore.get, TrustStore.get, modify]
    rcases hget : store.peers.get? k' with _ | ref'
    · rfl
    · obtain ⟨p', hp', hkey'⟩ := object_of_get? hget
      have hne : ref ≠ ref' := by
        rintro rfl
        obtain rfl := Option.some.inj (hp.symm.trans hp')
        exact hk (hkey'.symm.trans hkey)
      simp [object, hne]

omit [Alphabet β] in
lemma get_erase (store : TrustStore β) (k : Bytes β) :
    (store.erase k).get = Function.update store.get k none := by
  funext k'
  by_cases hk : k' = k
  · subst hk
    simp [TrustStore.get, erase]
  · rw [Function.update_of_ne hk, TrustStore.get, TrustStore.get, erase,
      OrderedDict.get?_erase_of_ne _ hk]
    rfl

omit [Alphabet β] in
/-- A pin is changed where an object is. -/
lemma pins_of_get {store' : TrustStore β} {k : Bytes β} {p : Option (PeerIdentity β)}
    (h : store'.get = Function.update store.get k p) :
    store'.pins = Function.update store.pins k (p.map fun p => (p.staticPublic, p.verified)) := by
  funext k'
  rw [pins, h]
  by_cases hk : k' = k
  · subst hk
    simp
  · rw [Function.update_of_ne hk, Function.update_of_ne hk]
    rfl

/-- What an operation does to the pins, and when it returns. A call that raises changes nothing. -/
inductive Runs (store : TrustStore β) (op : PinOp β) :
    Except (Exc β) Unit × TrustStore β → Prop
  | returns {store' : TrustStore β} (hpermits : store.pins.Permits op)
      (hpins : store'.pins = store.pins.apply op) : Runs store op (.ok (), store')
  | raises {err : Exc β} (hpermits : ¬ store.pins.Permits op)
      (hpins : store.pins = store.pins.apply op) : Runs store op (.error err, store)

omit [Alphabet β] in
lemma pin_of_get {k : Bytes β} {p : Option (PeerIdentity β)} (h : store.get k = p) :
    store.pins k = p.map fun p => (p.staticPublic, p.verified) := by
  rw [pins, h]

omit [Alphabet β] in
/-- An operation on an object changes the pin of its peer only. -/
lemma pins_apply {store' : TrustStore β} {op : PinOp β} {p p' : Option (PeerIdentity β)}
    (hold : store.get op.peer = p) (hnew : store'.get = Function.update store.get op.peer p')
    (h : (p'.map fun p => (p.staticPublic, p.verified)) =
      Pins.change (p.map fun p => (p.staticPublic, p.verified)) op) :
    store'.pins = store.pins.apply op := by
  rw [pins_of_get hnew, h, Pins.apply, pin_of_get hold]

omit [Alphabet β] in
/-- An operation on an unknown or a refused peer leaves its pin. -/
lemma pins_apply_self {op : PinOp β} {p : Option (PeerIdentity β)} (hold : store.get op.peer = p)
    (h : (p.map fun p => (p.staticPublic, p.verified)) =
      Pins.change (p.map fun p => (p.staticPublic, p.verified)) op) :
    store.pins = store.pins.apply op :=
  pins_apply hold (by rw [← hold, Function.update_eq_self]) h

lemma runs_observe (P : Primitives β X E) (store : TrustStore β) (k staticPublic : Bytes β)
    (nickname : String) (now : ℚ) :
    store.Runs (.observe k staticPublic)
      ((TrustOp.observe k staticPublic nickname now).run P store) := by
  have hends := observe_ends P store k staticPublic nickname now
  rw [TrustOp.run, Method.bind_apply]
  revert hends
  generalize observe P k staticPublic nickname now store = result
  intro hends
  cases hends with
  | pins hget =>
    have hk := get_of_none hget
    have hnew := (get_save _).trans (get_add store ⟨k, staticPublic, nickname, false, now⟩)
    exact .returns (by simp [Pins.Permits, pin_of_get hk]) (pins_apply hk hnew rfl)
  | refuses hget hobj hstatic =>
    have hk := get_of_object hget hobj
    exact .raises (by simp [Pins.Permits, pin_of_get hk, hstatic]) (pins_apply_self hk rfl)
  | renames hget hobj hstatic =>
    have hk := get_of_object hget hobj
    have hnew := (get_save _).trans (get_modify hget (fun p => { p with nickname }) fun _ => rfl)
    rw [hk] at hnew
    exact .returns (by simp [Pins.Permits, pin_of_get hk, hstatic]) (pins_apply hk hnew rfl)
  | knows hget hobj hstatic =>
    have hk := get_of_object hget hobj
    exact .returns (by simp [Pins.Permits, pin_of_get hk, hstatic]) (pins_apply_self hk rfl)

omit [Alphabet β] in
/-- `mark_verified` and `repin` change the pin of a known peer. -/
lemma runs_change (store : TrustStore β) {k : Bytes β} {unknown : String}
    {f : PeerIdentity β → PeerIdentity β} {hf : ∀ p, (f p).signingPublic = p.signingPublic}
    {op : PinOp β} (hpeer : op.peer = k) (hpermits : store.pins.Permits op ↔ (store.pins k).isSome)
    (hchange : ∀ pin : Option (PeerIdentity β),
      ((pin.map f).map fun p => (p.staticPublic, p.verified)) =
        Pins.change (pin.map fun p => (p.staticPublic, p.verified)) op) :
    store.Runs op
      ((do let _ ← change k unknown f hf : Method (Exc β) (TrustStore β) Unit) store) := by
  subst hpeer
  have hends := change_ends store op.peer unknown f hf
  rw [Method.bind_apply]
  revert hends
  generalize change op.peer unknown f hf store = result
  intro hends
  cases hends with
  | raises hget =>
    have hk := get_of_none hget
    refine .raises ?_ (pins_apply_self hk (hchange none))
    rw [hpermits, pin_of_get hk]
    exact Bool.false_ne_true
  | changes hget hobj =>
    have hk := get_of_object hget hobj
    refine .returns ?_ (pins_apply hk ?_ (hchange _))
    · rw [hpermits, pin_of_get hk]
      rfl
    · rw [get_save, get_modify hget, hk]

/-- Every operation acts on the pins as it should, whatever nicknames are stored or told. -/
theorem runs_run (P : Primitives β X E) (store : TrustStore β) (op : TrustOp β) :
    store.Runs op.pinOp (op.run P store) := by
  cases op with
  | observe k staticPublic nickname now => exact runs_observe P store k staticPublic nickname now
  | markVerified k => exact runs_change store rfl Iff.rfl fun pin => by cases pin <;> rfl
  | repin k staticPublic => exact runs_change store rfl Iff.rfl fun pin => by cases pin <;> rfl
  | forget k =>
    have hget : (store.erase k).save.get = Function.update store.get k none := by
      rw [get_save, get_erase]
    exact .returns trivial (pins_apply rfl hget rfl)

theorem pins_run (P : Primitives β X E) (store : TrustStore β) (op : TrustOp β) :
    (op.run P store).2.pins = store.pins.apply op.pinOp := by
  have h := runs_run P store op
  revert h
  generalize op.run P store = result
  rintro (⟨-, hpins⟩ | ⟨-, hpins⟩)
  · exact hpins
  · exact hpins

theorem returns_iff (P : Primitives β X E) (store : TrustStore β) (op : TrustOp β) :
    (∃ last, op.run P store = (.ok (), last)) ↔ store.pins.Permits op.pinOp := by
  have h := runs_run P store op
  revert h
  generalize op.run P store = result
  rintro (⟨hpermits, -⟩ | ⟨hpermits, -⟩)
  · exact iff_of_true ⟨_, rfl⟩ hpermits
  · exact iff_of_false (by simp) hpermits

end TrustStore

end Chatbit
