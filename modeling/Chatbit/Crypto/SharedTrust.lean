import Chatbit.Crypto.Pins
import Chatbit.Crypto.Symbolic
import Chatbit.Lib.Runs

/-!
# Trust stores that share a file

A `TrustStore` reads its file once, in `__init__`, and every operation that changes something
writes the whole file from memory. Several processes may have the same file open: a chat that is
running, and the `chatbit peers --verify` that it tells its user to run. The ledger says what should
be in the file: each operation that changes something, applied to what the others made of the pins.
-/

namespace Chatbit

open Lib SymByte

variable {ι β X E : Type} [DecidableEq ι] [Alphabet β] [DecidableEq β]

/-! ## What may become of a pin -/

namespace Pins

/-- The pin is still there, and verified if it was. -/
def Survives : Option (Bytes β × Bool) → Option (Bytes β × Bool) → Prop
  | none, _ => True
  | some _, none => False
  | some pin, some pin' => pin.1 = pin'.1 ∧ (pin.2 = true → pin'.2 = true)

instance : ∀ pin pin' : Option (Bytes β × Bool), Decidable (Survives pin pin')
  | none, _ => inferInstanceAs (Decidable True)
  | some _, none => inferInstanceAs (Decidable False)
  | some pin, some pin' =>
    inferInstanceAs (Decidable (pin.1 = pin'.1 ∧ (pin.2 = true → pin'.2 = true)))

omit [Alphabet β] [DecidableEq β] in
lemma Survives.refl : ∀ pin : Option (Bytes β × Bool), Survives pin pin
  | none => trivial
  | some _ => ⟨rfl, id⟩

omit [Alphabet β] [DecidableEq β] in
lemma Survives.trans : ∀ {pin pin' pin'' : Option (Bytes β × Bool)}, Survives pin pin' →
    Survives pin' pin'' → Survives pin pin''
  | none, _, _, _, _ => trivial
  | some _, some _, some _, h, h' => ⟨h.1.trans h'.1, fun hv => h'.2 (h.2 hv)⟩

/-- What `disk` holds of the peer of an operation, as far as the operation keeps it, is in `memory`
too. -/
def Agrees (disk memory : Option (Bytes β × Bool)) : PinOp β → Prop
  | .observe _ staticPublic => Survives disk (some (memory.getD (staticPublic, false)))
  | .markVerified _ => ∀ pin, disk = some pin → ∃ pin', memory = some pin' ∧ pin.1 = pin'.1
  | .repin _ _ | .forget _ => True

/-- An operation in `memory` is about to write all that is on `disk` back. -/
def Current (disk memory : Pins β) (op : PinOp β) : Prop :=
  (∀ k, k ≠ op.peer → Survives (disk k) (memory k)) ∧ Agrees (disk op.peer) (memory op.peer) op

omit [Alphabet β] [DecidableEq β] in
lemma Current.refl (pins : Pins β) (op : PinOp β) : Current pins pins op := by
  refine ⟨fun k _ => .refl _, ?_⟩
  cases op with
  | observe k staticPublic =>
    rw [PinOp.peer]
    rcases pins k with _ | pin
    · exact trivial
    · exact .refl (some pin)
  | markVerified k => exact fun pin h => ⟨pin, h, rfl⟩
  | repin k staticPublic => exact trivial
  | forget k => exact trivial

omit [Alphabet β] in
/-- One operation, on two memories that it is permitted in: nothing that it should make of the one
is missing in what it makes of the other. -/
lemma survives_apply_iff {disk memory : Pins β} {op : PinOp β} (hop : memory.Permits op) :
    (∀ k, Survives (disk.apply op k) (memory.apply op k)) ↔ Current disk memory op := by
  have hother : ∀ k, k ≠ op.peer →
      (Survives (disk.apply op k) (memory.apply op k) ↔ Survives (disk k) (memory k)) := by
    intro k hk
    rw [apply, apply, Function.update_of_ne hk, Function.update_of_ne hk]
  have hself : Survives (disk.apply op op.peer) (memory.apply op op.peer) ↔
      Survives (change (disk op.peer) op) (change (memory op.peer) op) := by
    rw [apply, apply, Function.update_self, Function.update_self]
  have hsplit : (∀ k, Survives (disk.apply op k) (memory.apply op k)) ↔
      (∀ k, k ≠ op.peer → Survives (disk k) (memory k)) ∧
        Survives (change (disk op.peer) op) (change (memory op.peer) op) := by
    constructor
    · exact fun h => ⟨fun k hk => (hother k hk).mp (h k), hself.mp (h _)⟩
    · rintro ⟨h, h'⟩ k
      by_cases hk : k = op.peer
      · rw [hk]
        exact hself.mpr h'
      · exact (hother k hk).mpr (h k hk)
  rw [hsplit, Current]
  refine and_congr_right fun _ => ?_
  cases op with
  | observe k staticPublic =>
    rw [PinOp.peer]
    rcases hk : disk k with _ | pin
    · -- a new pin is what the operation says
      refine iff_of_true ?_ trivial
      rcases hm : memory k with _ | pin'
      · exact .refl _
      · exact ⟨(hop pin' hm).symm, fun h => by cases h⟩
    · rfl
  | markVerified k =>
    obtain ⟨pin', hm⟩ := Option.isSome_iff_exists.mp hop
    rw [PinOp.peer, hm]
    rcases disk k with _ | pin <;> simp [Survives, change, Agrees]
  | repin k staticPublic =>
    obtain ⟨pin', hm⟩ := Option.isSome_iff_exists.mp hop
    rw [PinOp.peer, hm]
    rcases disk k with _ | pin <;> simp [Survives, change, Agrees]
  | forget k => simp [change, Survives, Agrees]

omit [Alphabet β] [DecidableEq β] in
lemma Survives.agrees {pin pin' memory : Option (Bytes β × Bool)} {op : PinOp β}
    (h : Survives pin pin') (h' : Agrees pin' memory op) : Agrees pin memory op := by
  cases op with
  | observe k staticPublic => exact h.trans h'
  | markVerified k =>
    rintro p rfl
    rcases pin' with _ | p'
    · exact h.elim
    · obtain ⟨p'', hp'', hstatic⟩ := h' p' rfl
      exact ⟨p'', hp'', h.1.trans hstatic⟩
  | repin k staticPublic => exact trivial
  | forget k => exact trivial

omit [Alphabet β] in
/-- What survives on disk survives an operation that is about to write all of that back. -/
lemma Survives.apply {ledger disk memory : Pins β} {op : PinOp β} (hop : memory.Permits op)
    (h : ∀ k, Survives (ledger k) (disk k)) (hcurrent : Current disk memory op) (k : Bytes β) :
    Survives (ledger.apply op k) (memory.apply op k) :=
  (survives_apply_iff hop).mpr
    ⟨fun k hk => (h k).trans (hcurrent.1 k hk), (h op.peer).agrees hcurrent.2⟩ k

end Pins

/-! ## Reading and writing the file -/

namespace TrustOp

/-- Whether the operation gets to `_save`. -/
def Writes (store : TrustStore β) : TrustOp β → Prop
  | .observe signingPublic staticPublic nickname _ =>
    match store.get signingPublic with
    | none => True
    | some existing =>
      existing.staticPublic = staticPublic ∧ nickname ≠ "" ∧ nickname ≠ existing.nickname
  | .markVerified signingPublic | .repin signingPublic _ => (store.get signingPublic).isSome
  | .forget _ => True

instance (store : TrustStore β) : ∀ op : TrustOp β, Decidable (op.Writes store)
  | .observe signingPublic staticPublic nickname _ =>
    match h : store.get signingPublic with
    | none => isTrue (by simp [Writes, h])
    | some existing => decidable_of_iff
        (existing.staticPublic = staticPublic ∧ nickname ≠ "" ∧ nickname ≠ existing.nickname)
        (by simp [Writes, h])
  | .markVerified signingPublic | .repin signingPublic _ =>
    inferInstanceAs (Decidable (store.get signingPublic).isSome)
  | .forget _ => inferInstanceAs (Decidable True)

end TrustOp

namespace TrustStore

/-- `TrustStore(path)` and `_load`, where `file` is the content of the file if it exists. -/
def load (path : String) (file : Option (List (PeerIdentity β))) : TrustStore β :=
  match file with
  | none => empty (some path)
  | some entries => { entries.foldl add (empty (some path)) with file := file }

variable {store : TrustStore β}

omit [Alphabet β] [DecidableEq β] in
lemma all_keys (store : TrustStore β) :
    store.all.map PeerIdentity.signingPublic = store.peers.keys := by
  have hentries : ∀ l : List (Bytes β × PeerRef),
      (∀ e ∈ l, ∃ p, store.object e.2 = some p ∧ p.signingPublic = e.1) →
      ((l.map Prod.snd).filterMap store.object).map PeerIdentity.signingPublic =
        l.map Prod.fst := by
    intro l hl
    induction l with
    | nil => rfl
    | cons e l ih =>
      obtain ⟨p, hp, hkey⟩ := hl e List.mem_cons_self
      rw [List.map_cons, List.filterMap_cons_some hp, List.map_cons, List.map_cons, hkey,
        ih fun e he => hl e (List.mem_cons_of_mem _ he)]
  exact hentries _ store.keyed

omit [Alphabet β] in
lemma get_eq_some_iff {k : Bytes β} {p : PeerIdentity β} :
    store.get k = some p ↔ p ∈ store.all ∧ p.signingPublic = k := by
  rw [TrustStore.get, Option.bind_eq_some_iff, all, List.mem_filterMap]
  constructor
  · rintro ⟨ref, hget, hobj⟩
    have hmem := OrderedDict.get?_eq_some_iff.mp hget
    obtain ⟨p', hobj', hkey⟩ := store.keyed _ hmem
    obtain rfl := Option.some.inj (hobj.symm.trans hobj')
    exact ⟨⟨ref, List.mem_map_of_mem hmem, hobj⟩, hkey⟩
  · rintro ⟨⟨ref, href, hobj⟩, rfl⟩
    obtain ⟨⟨k, ref'⟩, hmem, rfl⟩ := List.mem_map.mp href
    obtain ⟨p', hobj', hkey⟩ := store.keyed _ hmem
    obtain rfl := Option.some.inj (hobj.symm.trans hobj')
    refine ⟨ref', OrderedDict.get?_eq_some_iff.mpr ?_, hobj⟩
    rw [hkey]
    exact hmem

omit [Alphabet β] in
/-- A new peer goes to the end. -/
lemma all_add {peer : PeerIdentity β} (h : peer.signingPublic ∉ store.peers.keys) :
    (store.add peer).all = store.all ++ [peer] := by
  have hold : store.peers.values.filterMap (store.add peer).object = store.all := by
    apply List.filterMap_congr
    intro ref href
    obtain ⟨e, he, rfl⟩ := List.mem_map.mp href
    obtain ⟨p, hp, -⟩ := store.keyed e he
    exact List.getElem?_append_left (List.getElem?_eq_some_iff.mp hp).1
  have hnew : (store.add peer).object store.objects.length = some peer := by
    simp [add, object]
  have hvalues : (store.add peer).peers.values = store.peers.values ++ [store.objects.length] := by
    rw [OrderedDict.values, add, OrderedDict.entries_set_of_not_mem h, List.map_append]
    rfl
  rw [all, hvalues, List.filterMap_append, hold, List.filterMap_cons_some hnew]
  rfl

omit [Alphabet β] in
/-- Loading entries with different signing keys adds each of them. -/
lemma all_foldl_add (store : TrustStore β) {entries : List (PeerIdentity β)}
    (hnodup : (entries.map PeerIdentity.signingPublic).Nodup)
    (hnew : ∀ e ∈ entries, e.signingPublic ∉ store.peers.keys) :
    (entries.foldl add store).all = store.all ++ entries := by
  induction entries generalizing store with
  | nil => exact (List.append_nil _).symm
  | cons e entries ih =>
    obtain ⟨hnot, hnodup'⟩ := List.nodup_cons.mp hnodup
    obtain ⟨hfirst, hrest⟩ := List.forall_mem_cons.mp hnew
    have hall := all_add hfirst
    -- the keys of the others are still free
    have hnew' : ∀ e' ∈ entries, e'.signingPublic ∉ (store.add e).peers.keys := by
      intro e' he'
      rw [← all_keys, hall, List.map_append, List.mem_append, all_keys]
      rintro (hmem | hmem)
      · exact hrest e' he' hmem
      · have heq : e'.signingPublic = e.signingPublic := by simpa using hmem
        exact hnot (heq ▸ List.mem_map_of_mem he')
    rw [List.foldl_cons, ih (store.add e) hnodup' hnew', hall, List.append_assoc]
    rfl

omit [Alphabet β] in
/-- What is written is what is read. -/
lemma all_load_all (path : String) (store : TrustStore β) :
    (load path (some store.all)).all = store.all := by
  have hnodup : (store.all.map PeerIdentity.signingPublic).Nodup := by
    rw [all_keys]
    exact store.peers.nodup_keys
  exact all_foldl_add (empty (some path)) hnodup fun _ _ => List.not_mem_nil

omit [Alphabet β] in
theorem pins_load_all (path : String) (store : TrustStore β) :
    (load path (some store.all)).pins = store.pins := by
  have hget : (load path (some store.all)).get = store.get := by
    funext k
    refine Option.ext fun p => ?_
    rw [get_eq_some_iff, get_eq_some_iff, all_load_all]
  funext k
  rw [pins, pins, hget]

omit [Alphabet β] [DecidableEq β] in
lemma path_save (store : TrustStore β) : store.save.path = store.path := by
  unfold save
  split <;> rfl

omit [Alphabet β] [DecidableEq β] in
lemma all_save (store : TrustStore β) : store.save.all = store.all := by
  rw [all, all, save_peers]
  congr 1
  funext ref
  rw [object, object, save_objects]

omit [Alphabet β] [DecidableEq β] in
lemma file_save {path : String} (h : store.path = some path) :
    store.save.file = some store.save.all := by
  rw [all_save, save, h]

omit [Alphabet β] in
lemma path_foldl_add (store : TrustStore β) (entries : List (PeerIdentity β)) :
    (entries.foldl add store).path = store.path := by
  induction entries generalizing store with
  | nil => rfl
  | cons e entries ih => exact ih (store.add e)

omit [Alphabet β] in
lemma path_load (path : String) (file : Option (List (PeerIdentity β))) :
    (load path file).path = some path := by
  cases file with
  | none => rfl
  | some entries => exact path_foldl_add (empty (some path)) entries

/-- An operation leaves the store as it was, or is permitted, changes it and then writes it. -/
inductive Saves (store : TrustStore β) (op : TrustOp β) : TrustStore β → Prop
  | stays (hwrites : ¬ op.Writes store) : Saves store op store
  | saves {unsaved : TrustStore β} (hwrites : op.Writes store)
    (hpermits : store.pins.Permits op.pinOp) (hpath : unsaved.path = store.path) :
    Saves store op unsaved.save

lemma saves_observe (P : Primitives β X E) (store : TrustStore β) (k staticPublic : Bytes β)
    (nickname : String) (now : ℚ) :
    store.Saves (.observe k staticPublic nickname now)
      (observe P k staticPublic nickname now store).2 := by
  have hends := observe_ends P store k staticPublic nickname now
  revert hends
  generalize observe P k staticPublic nickname now store = result
  intro hends
  cases hends with
  | pins hget =>
    have hk := get_of_none hget
    exact .saves (by simp [TrustOp.Writes, hk])
      (by simp [Pins.Permits, TrustOp.pinOp, pin_of_get hk]) rfl
  | refuses hget hobj hstatic =>
    exact .stays (by simp [TrustOp.Writes, get_of_object hget hobj, hstatic])
  | renames hget hobj hstatic hnick =>
    have hk := get_of_object hget hobj
    exact .saves (by simp [TrustOp.Writes, hk, hstatic, hnick])
      (by simp [Pins.Permits, TrustOp.pinOp, pin_of_get hk, hstatic]) rfl
  | knows hget hobj hstatic hnick =>
    exact .stays (by simpa [TrustOp.Writes, get_of_object hget hobj, hstatic] using hnick)

omit [Alphabet β] in
/-- `mark_verified` and `repin` write when the peer is known. -/
lemma saves_change (store : TrustStore β) {k : Bytes β} {unknown : String}
    {f : PeerIdentity β → PeerIdentity β} {hf : ∀ p, (f p).signingPublic = p.signingPublic}
    {op : TrustOp β} (hwrites : op.Writes store ↔ (store.get k).isSome)
    (hpermits : store.pins.Permits op.pinOp ↔ (store.pins k).isSome) :
    store.Saves op (change k unknown f hf store).2 := by
  have hends := change_ends store k unknown f hf
  revert hends
  generalize change k unknown f hf store = result
  intro hends
  cases hends with
  | raises hget => exact .stays (by rw [hwrites, get_of_none hget]; exact Bool.false_ne_true)
  | changes hget hobj =>
    have hk := get_of_object hget hobj
    exact .saves (by rw [hwrites, hk]; rfl) (by rw [hpermits, pin_of_get hk]; rfl) rfl

lemma saves_run (P : Primitives β X E) (store : TrustStore β) (op : TrustOp β) :
    store.Saves op (op.run P store).2 := by
  cases op with
  | observe k staticPublic nickname now =>
    rw [TrustOp.run, Method.snd_bind_pure]
    exact saves_observe P store k staticPublic nickname now
  | markVerified k =>
    rw [TrustOp.run, Method.snd_bind_pure]
    exact saves_change store Iff.rfl Iff.rfl
  | repin k staticPublic =>
    rw [TrustOp.run, Method.snd_bind_pure]
    exact saves_change store Iff.rfl Iff.rfl
  | forget k =>
    have hpath : (store.erase k).path = store.path := rfl
    exact .saves trivial trivial hpath

lemma path_run (P : Primitives β X E) (store : TrustStore β) (op : TrustOp β) :
    (op.run P store).2.path = store.path := by
  have hsaves := saves_run P store op
  revert hsaves
  generalize (op.run P store).2 = store'
  intro hsaves
  cases hsaves with
  | stays => rfl
  | saves _ _ hpath => rw [path_save, hpath]

end TrustStore

/-! ## Processes -/

/-- A store that has a file. -/
abbrev OpenStore (β : Type) (path : String) := { store : TrustStore β // store.path = some path }

/-- The file, and the stores of the processes that have it open. -/
structure SharedTrust (ι β : Type) (path : String) where
  file : Option (List (PeerIdentity β)) := none
  stores : ι → Option (OpenStore β path) := fun _ => none

/-- A process opens the file, or calls an operation of its store. -/
inductive SharedTrustEvent (ι β : Type) where
  | opens (process : ι)
  | call (process : ι) (op : TrustOp β)

namespace SharedTrust

variable {path : String} (s : SharedTrust ι β path)

/-- What a process that opens the file now finds pinned. -/
def disk : Pins β := (TrustStore.load path s.file).pins

def opens (process : ι) : SharedTrust ι β path where
  file := s.file
  stores := Function.update s.stores process
    (some ⟨TrustStore.load path s.file, TrustStore.path_load path s.file⟩)

/-- An operation on the store of a process, which writes the file that all share. -/
def call (P : Primitives β X E) (process : ι) (op : TrustOp β) : SharedTrust ι β path :=
  match s.stores process with
  | none => s
  | some store =>
    let store' := (op.run P { store.1 with file := s.file }).2
    { file := store'.file
      stores := Function.update s.stores process
        (some ⟨store', (TrustStore.path_run P _ op).trans store.2⟩) }

end SharedTrust

/-- A shared file and what should be in it. -/
structure TrustLedger (ι β : Type) (path : String) where
  shared : SharedTrust ι β path
  ledger : Pins β

namespace TrustLedger

variable {path : String} (P : Primitives β X E) (h : TrustLedger ι β path)

/-- Nobody has opened the file yet. -/
def begin (path : String) (file : Option (List (PeerIdentity β))) : TrustLedger ι β path where
  shared := { file }
  ledger := (TrustStore.load path file).pins

def step (h : TrustLedger ι β path) : SharedTrustEvent ι β → TrustLedger ι β path
  | .opens process => { h with shared := h.shared.opens process }
  | .call process op =>
    { shared := h.shared.call P process op
      ledger :=
        match h.shared.stores process with
        | none => h.ledger
        | some store => if op.Writes store.1 then h.ledger.apply op.pinOp else h.ledger }

/-- A process that is about to write has seen what the others wrote. -/
def UpToDate (h : TrustLedger ι β path) : SharedTrustEvent ι β → Prop
  | .opens _ => True
  | .call process op => ∀ store, h.shared.stores process = some store → op.Writes store.1 →
    h.shared.disk.Current store.1.pins op.pinOp

/-- What an operation leaves in the file. -/
lemma disk_call {process : ι} {op : TrustOp β} {store : OpenStore β path}
    (hstore : h.shared.stores process = some store) :
    (op.Writes store.1 ∧ store.1.pins.Permits op.pinOp ∧
      (h.shared.call P process op).disk = store.1.pins.apply op.pinOp) ∨
    (¬ op.Writes store.1 ∧ (h.shared.call P process op).disk = h.shared.disk) := by
  -- the operation does not read the file
  have hpins := TrustStore.pins_run P { store.1 with file := h.shared.file } op
  have hsaves := TrustStore.saves_run P { store.1 with file := h.shared.file } op
  rw [SharedTrust.disk, SharedTrust.call, hstore]
  dsimp only
  revert hpins hsaves
  generalize (op.run P { store.1 with file := h.shared.file }).2 = store'
  intro hpins hsaves
  cases hsaves with
  | stays hwrites => exact Or.inr ⟨hwrites, rfl⟩
  | saves hwrites hop hpath =>
    refine Or.inl ⟨hwrites, hop, ?_⟩
    rw [TrustStore.file_save (hpath.trans store.2), TrustStore.pins_load_all, hpins]
    rfl

/-- One write keeps what is in the file, but for what it is to change, exactly when its process has
seen what the others wrote. -/
theorem kept_iff {process : ι} {op : TrustOp β} {store : OpenStore β path}
    (hstore : h.shared.stores process = some store) (hwrites : op.Writes store.1) :
    (∀ k, Pins.Survives (h.shared.disk.apply op.pinOp k)
        ((h.shared.call P process op).disk k)) ↔
      h.shared.disk.Current store.1.pins op.pinOp := by
  rcases disk_call P h hstore with ⟨-, hop, hdisk⟩ | ⟨hnot, -⟩
  · rw [hdisk]
    exact Pins.survives_apply_iff hop
  · exact absurd hwrites hnot

lemma ledger_call {process : ι} {op : TrustOp β} {store : OpenStore β path}
    (hstore : h.shared.stores process = some store) :
    (h.step P (.call process op)).ledger =
      if op.Writes store.1 then h.ledger.apply op.pinOp else h.ledger := by
  rw [step, hstore]

/-- What survives in the file survives the next step. -/
lemma survives_step (e : SharedTrustEvent ι β) (hup : h.UpToDate e)
    (hk : ∀ k, Pins.Survives (h.ledger k) (h.shared.disk k)) (k : Bytes β) :
    Pins.Survives ((h.step P e).ledger k) ((h.step P e).shared.disk k) := by
  cases e with
  | opens process => exact hk k
  | call process op =>
    have hshared : (h.step P (.call process op)).shared = h.shared.call P process op := rfl
    rcases hstore : h.shared.stores process with _ | store
    · -- a process without a store does nothing
      rw [step, SharedTrust.call, hstore]
      exact hk k
    · rw [ledger_call P h hstore, hshared]
      rcases disk_call P h hstore with ⟨hwrites, hop, hdisk⟩ | ⟨hnot, hdisk⟩
      · rw [if_pos hwrites, hdisk]
        exact Pins.Survives.apply hop hk (hup store hstore hwrites) k
      · rw [if_neg hnot, hdisk]
        exact hk k

/-- Whatever processes open the file and call, in any order: as long as a process that writes has
seen what the others wrote, no pin and no verification is lost. -/
theorem nothing_lost {file : Option (List (PeerIdentity β))}
    (hrun : Reaches UpToDate (step P) (begin path file) h) (k : Bytes β) :
    Pins.Survives (h.ledger k) (h.shared.disk k) :=
  hrun.invariant (I := fun h => ∀ k, Pins.Survives (h.ledger k) (h.shared.disk k))
    (fun _ => .refl _) (fun h e hk hup => survives_step P h e hup hk) k

/-- A peer with the keys of number `n` is seen. -/
def sees (n : ℕ) : TrustOp SymByte := .observe (signingKey n) (publicKey n) "" 0

/-- The user compares safety numbers while the chat runs. -/
def verifiedElsewhere : TrustLedger Bool SymByte "trust.json" :=
  [.opens false, .call false (sees 1), .opens true, .call true (.markVerified (signingKey 1)),
    .call true (sees 2), .call false (sees 3)].foldl (step symbolic) (begin "trust.json" none)

/-- The chat sees one more peer, and the verification is lost, and the peer that only the other
process has seen. -/
theorem stale_save_loses :
    Reaches (fun _ _ => True) (step symbolic) (begin "trust.json" none) verifiedElsewhere ∧
    verifiedElsewhere.ledger (signingKey 1) = some (publicKey 1, true) ∧
    verifiedElsewhere.shared.disk (signingKey 1) = some (publicKey 1, false) ∧
    verifiedElsewhere.ledger (signingKey 2) = some (publicKey 2, false) ∧
    verifiedElsewhere.shared.disk (signingKey 2) = none ∧
    ¬ ∀ k, Pins.Survives (verifiedElsewhere.ledger k) (verifiedElsewhere.shared.disk k) := by
  refine ⟨(Reaches.refl _).foldl fun _ _ _ => trivial, by decide +kernel, by decide +kernel,
    by decide +kernel, by decide +kernel, fun h => ?_⟩
  exact absurd (h (signingKey 1)) (by decide +kernel)

/-- The chat starts after the other process has verified its peer. -/
theorem nothing_lost_reopened :
    let ended := [.opens false, .call false (sees 1), .opens true,
      .call true (.markVerified (signingKey 1)), .opens false, .call false (sees 3)].foldl
        (step symbolic) (begin "trust.json" none)
    ended.ledger (signingKey 1) = some (publicKey 1, true) ∧
      Pins.Survives (ended.ledger (signingKey 1)) (ended.shared.disk (signingKey 1)) := by
  intro ended
  have hrun : Reaches UpToDate (step symbolic) (begin "trust.json" none) ended := by
    refine (Reaches.refl _).run ⟨trivial, ?_, trivial, ?_, trivial, ?_, trivial⟩
    all_goals
      -- each process has just opened the file
      rintro store hstore -
      obtain rfl := Option.some.inj hstore
      exact Pins.Current.refl _ _
  exact ⟨by decide +kernel, nothing_lost symbolic ended hrun (signingKey 1)⟩

end TrustLedger

end Chatbit
