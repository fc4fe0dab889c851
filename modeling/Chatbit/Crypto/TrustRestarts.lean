import Chatbit.Crypto.IdentityFileTheorems
import Chatbit.Crypto.TrustFile

/-!
# The trust store across restarts

The trust file down to its text, and processes that are killed at any step of writing it, each
followed by the next one. What the records of a store are is said without its objects
(`TrustOp.onRecords`), and the store refines it (`TrustStore.all_run`). A process that is killed
loses nothing but the call it was killed in (`TrustProcess.restarts_keep`).
-/

namespace Chatbit

open Lib

variable {X E : Type}

/-! ## The records of a store -/

section Records

variable {β : Type} [Alphabet β] [DecidableEq β]

/-- What a call makes of the records, which stand in the order in which they were made. -/
def TrustOp.onRecords (peers : List (PeerIdentity β)) : TrustOp β → List (PeerIdentity β)
  | .observe k staticPublic nickname now =>
    if ∀ p ∈ peers, p.signingPublic ≠ k then peers ++ [⟨k, staticPublic, nickname, false, now⟩]
    else peers.map fun p =>
      if p.signingPublic = k ∧ p.staticPublic = staticPublic ∧ nickname ≠ "" then
        { p with nickname := nickname }
      else p
  | .markVerified k => peers.map fun p =>
      if p.signingPublic = k then { p with verified := true } else p
  | .repin k staticPublic => peers.map fun p =>
      if p.signingPublic = k then { p with staticPublic := staticPublic, verified := false } else p
  | .forget k => peers.filter fun p => p.signingPublic ≠ k

namespace TrustStore

variable {store : TrustStore β} {k : Bytes β}

omit [Alphabet β] in
/-- A record is known by its key. -/
lemma eq_of_mem_all {p p' : PeerIdentity β} (hp : p ∈ store.all) (hp' : p' ∈ store.all)
    (hkey : p'.signingPublic = p.signingPublic) : p' = p := by
  have hget : store.get p.signingPublic = some p := get_eq_some_iff.mpr ⟨hp, rfl⟩
  have hget' : store.get p.signingPublic = some p' := get_eq_some_iff.mpr ⟨hp', hkey⟩
  exact Option.some.inj (hget'.symm.trans hget)

omit [Alphabet β] in
lemma mem_all_of_object {ref : PeerRef} {p : PeerIdentity β}
    (hget : store.peers.get? k = some ref) (hobj : store.object ref = some p) :
    p ∈ store.all ∧ p.signingPublic = k := get_eq_some_iff.mp (get_of_object hget hobj)

omit [Alphabet β] in
lemma forall_ne_of_none (hget : store.peers.get? k = none) :
    ∀ p ∈ store.all, p.signingPublic ≠ k := by
  intro p hp hkey
  have hsome : store.get k = some p := get_eq_some_iff.mpr ⟨hp, hkey⟩
  rw [get_of_none hget] at hsome
  cases hsome

omit [Alphabet β] in
/-- Assigning to an object changes one record. -/
lemma all_modify {ref : PeerRef} (href : store.peers.get? k = some ref)
    (f : PeerIdentity β → PeerIdentity β) (hf : ∀ p, (f p).signingPublic = p.signingPublic) :
    (store.modify ref f hf).all =
      store.all.map fun p => if p.signingPublic = k then f p else p := by
  obtain ⟨p, hp, hkey⟩ := object_of_get? href
  have hobject : ∀ ref' ∈ store.peers.values, (store.modify ref f hf).object ref' =
      (store.object ref').map fun p => if p.signingPublic = k then f p else p := by
    intro _ hvalue
    obtain ⟨⟨k', ref'⟩, he, rfl⟩ := List.mem_map.mp hvalue
    obtain ⟨p', hp', hkey'⟩ := store.keyed _ he
    rw [object, modify, List.getElem?_modify, object, hp']
    by_cases heq : ref = ref'
    · subst heq
      obtain rfl := Option.some.inj (hp.symm.trans hp')
      simp [hkey]
    · have hne : p'.signingPublic ≠ k := by
        intro hk
        have hget : store.peers.get? k = some ref' :=
          OrderedDict.get?_eq_some_iff.mpr (hk ▸ hkey' ▸ he)
        exact heq (Option.some.inj (href.symm.trans hget))
      simp [heq, hne]
  show store.peers.values.filterMap (store.modify ref f hf).object = _
  rw [List.filterMap_congr hobject, ← List.map_filterMap]
  rfl

omit [Alphabet β] in
/-- Forgetting drops one record. -/
lemma all_erase (store : TrustStore β) (k : Bytes β) :
    (store.erase k).all = store.all.filter fun p => p.signingPublic ≠ k := by
  have hentries : ∀ l : List (Bytes β × PeerRef),
      (∀ e ∈ l, ∃ p, store.object e.2 = some p ∧ p.signingPublic = e.1) →
      ((l.filter fun e => e.1 ≠ k).map Prod.snd).filterMap store.object =
        ((l.map Prod.snd).filterMap store.object).filter fun p => p.signingPublic ≠ k := by
    intro l hl
    induction l with
    | nil => rfl
    | cons e l ih =>
      obtain ⟨p, hp, hkey⟩ := hl e List.mem_cons_self
      have ih := ih fun e he => hl e (List.mem_cons_of_mem _ he)
      rw [List.map_cons, List.filterMap_cons_some hp]
      by_cases hk : e.1 = k
      · rw [List.filter_cons_of_neg (by simp [hk]), List.filter_cons_of_neg (by simp [hkey, hk]),
          ih]
      · rw [List.filter_cons_of_pos (by simp [hk]), List.filter_cons_of_pos (by simp [hkey, hk]),
          List.map_cons, List.filterMap_cons_some hp, ih]
  exact hentries _ store.keyed

omit [Alphabet β] [DecidableEq β] in
lemma map_all_eq {f : PeerIdentity β → PeerIdentity β} (h : ∀ p ∈ store.all, f p = p) :
    store.all.map f = store.all := (List.map_congr_left h).trans (List.map_id' store.all)

omit [Alphabet β] in
lemma all_change {f : PeerIdentity β → PeerIdentity β}
    {hf : ∀ p, (f p).signingPublic = p.signingPublic} {unknown : String} :
    (change k unknown f hf store).2.all =
      store.all.map fun p => if p.signingPublic = k then f p else p := by
  have hends := change_ends store k unknown f hf
  revert hends
  generalize change k unknown f hf store = result
  intro hends
  cases hends with
  | raises hget =>
    have hnone := forall_ne_of_none hget
    exact (map_all_eq fun p hp => if_neg (hnone p hp)).symm
  | changes hget hobj => exact (all_save _).trans (all_modify hget f hf)

/-- The store does to its records what the call says. -/
lemma all_run (P : Primitives β X E) (store : TrustStore β) (op : TrustOp β) :
    (op.run P store).2.all = op.onRecords store.all := by
  cases op with
  | observe k staticPublic nickname now =>
    have hrun : ((TrustOp.observe k staticPublic nickname now).run P store).2 =
        (observe P k staticPublic nickname now store).2 := Method.snd_bind_pure _ _ _
    rw [hrun, TrustOp.onRecords]
    have hends := observe_ends P store k staticPublic nickname now
    revert hends
    generalize observe P k staticPublic nickname now store = result
    intro hends
    have hknown : ∀ {p : PeerIdentity β}, p ∈ store.all ∧ p.signingPublic = k →
        ¬ ∀ p ∈ store.all, p.signingPublic ≠ k := fun h hall => hall _ h.1 h.2
    cases hends with
    | pins hget =>
      have hkeys : k ∉ store.peers.keys := OrderedDict.get?_eq_none_iff.mp hget
      rw [if_pos (forall_ne_of_none hget), all_save, all_add hkeys]
    | @refuses ref p hget hobj hstatic =>
      obtain ⟨hp, hkey⟩ := mem_all_of_object hget hobj
      rw [if_neg (hknown ⟨hp, hkey⟩)]
      refine (map_all_eq fun p' hp' => if_neg ?_).symm
      rintro ⟨hk, hsame, -⟩
      obtain rfl := eq_of_mem_all hp hp' (hk.trans hkey.symm)
      exact hstatic hsame
    | @renames ref p hget hobj hstatic hnick =>
      obtain ⟨hp, hkey⟩ := mem_all_of_object hget hobj
      rw [if_neg (hknown ⟨hp, hkey⟩), all_save, all_modify hget]
      refine List.map_congr_left fun p' hp' => ?_
      by_cases hk : p'.signingPublic = k
      · obtain rfl := eq_of_mem_all hp hp' (hk.trans hkey.symm)
        rw [if_pos hk, if_pos ⟨hk, hstatic, hnick.1⟩]
      · rw [if_neg hk, if_neg fun h => hk h.1]
    | @knows ref p hget hobj hstatic hnick =>
      obtain ⟨hp, hkey⟩ := mem_all_of_object hget hobj
      rw [if_neg (hknown ⟨hp, hkey⟩)]
      refine (map_all_eq fun p' hp' => ?_).symm
      by_cases hcond : p'.signingPublic = k ∧ p'.staticPublic = staticPublic ∧ nickname ≠ ""
      · -- the nickname is the one that is there
        obtain rfl := eq_of_mem_all hp hp' (hcond.1.trans hkey.symm)
        have hsame : nickname = p'.nickname := by
          by_contra hne
          exact hnick ⟨hcond.2.2, hne⟩
        rw [if_pos hcond, hsame]
      · exact if_neg hcond
  | markVerified k => exact (congrArg all (Method.snd_bind_pure _ _ _)).trans all_change
  | repin k staticPublic => exact (congrArg all (Method.snd_bind_pure _ _ _)).trans all_change
  | forget k => exact (all_save _).trans (all_erase store k)

end TrustStore

end Records

/-! ## The text of the file -/

/-- What `_save` writes of a peer. -/
def PeerIdentity.fields (peer : PeerIdentity UInt8) : List (String × Json ℚ) :=
  [("signing_public", .str (codePoints (hex peer.signingPublic))),
    ("static_public", .str (codePoints (hex peer.staticPublic))),
    ("nickname", .str (codePoints peer.nickname)), ("verified", .bool peer.verified),
    ("first_seen", .float peer.firstSeen)]

def PeerIdentity.toJson (peer : PeerIdentity UInt8) : Json ℚ := .object peer.fields

namespace Lib.Json

/-- A value that is a string. -/
def text? : Json ℚ → Option String
  | .str s => ofCodePoints s
  | _ => none

/-- A value that is `true` or `false`. -/
def flag? : Json ℚ → Option Bool
  | .bool b => some b
  | _ => none

/-- A value that is a number. -/
def number? : Json ℚ → Option ℚ
  | .float x => some x
  | .int n => some n
  | _ => none

/-- `entry[key]`, and what is read of it. -/
def required {α : Type} (entry : List (List ℕ × Json ℚ)) (key : String)
    (read : Json ℚ → Option α) : Option α := (get? entry key).bind read

/-- `entry.get(key, ..)`, and what is read of it if it is there. -/
def optional {α : Type} (entry : List (List ℕ × Json ℚ)) (key : String)
    (read : Json ℚ → Option α) : Option (Option α) :=
  match get? entry key with
  | none => some none
  | some v => (read v).map some

section Fields

variable {α : Type} {fields : List (String × Json ℚ)} {key : String} {v : Json ℚ} {a : α}
  {read : Json ℚ → Option α}

lemma required_object (hfield : fields.lookup key = some v) (hread : read v = some a) :
    required (fields.map fun (key, v) => (codePoints key, v)) key read = some a := by
  rw [required, get?_object, hfield, Option.bind_some, hread]

lemma optional_object (hfield : fields.lookup key = some v) (hread : read v = some a) :
    optional (fields.map fun (key, v) => (codePoints key, v)) key read = some (some a) := by
  rw [optional, get?_object, hfield]
  show (read v).map some = _
  rw [hread]
  rfl

end Fields

end Lib.Json

/-- What `_load` reads of an item of the list; `none` where it raises. The fields that may be
missing are taken to have the types that `_save` gives them. -/
def PeerEntry.ofJson (entry : Json ℚ) : Option PeerEntry :=
  match entry with
  | .obj fields => do
    return {
      signingPublic := ← Json.required fields "signing_public" Json.text?
      staticPublic := ← Json.required fields "static_public" Json.text?
      nickname := ← Json.optional fields "nickname" Json.text?
      verified := ← Json.optional fields "verified" Json.flag?
      firstSeen := ← Json.optional fields "first_seen" Json.number? }
  | _ => none

/-- A time that reads back from its text. -/
def TrustOp.Dated (J : FloatFormat ℚ) : TrustOp UInt8 → Prop
  | .observe _ _ _ now => Json.Reads J now
  | _ => True

namespace TrustStore

variable (J : FloatFormat ℚ)

/-- The `blob` of `_save`. -/
def fileJson (peers : List (PeerIdentity UInt8)) : Json ℚ :=
  .object [("v", .int 1), ("peers", .arr (peers.map PeerIdentity.toJson))]

/-- What `_save` writes. -/
def fileText (peers : List (PeerIdentity UInt8)) : List Char :=
  Json.dumps J (some 2) (fileJson peers)

/-- `json.load(fh).get("peers", [])`, with each item as it is read. -/
def entriesOf (text : List Char) : Option (List PeerEntry) :=
  match Json.loads J text with
  | some (.obj fields) =>
    match Json.get? fields "peers" with
    | none => some []
    | some (.arr items) => items.mapM PeerEntry.ofJson
    | some _ => none
  | _ => none

/-- `TrustStore(path)`, on the text of the file if it exists. -/
def openText (path : String) (file : Option (List Char)) : Option (TrustStore UInt8) :=
  match file with
  | none => openFile path none
  | some text => (entriesOf J text).bind fun entries => openFile path (some entries)

variable {J} {path : String} {peers : List (PeerIdentity UInt8)}

/-- Reading inverts writing. -/
lemma ofJson_toJson (peer : PeerIdentity UInt8) :
    PeerEntry.ofJson peer.toJson = some peer.toEntry := by
  have htext : ∀ s, Json.text? (.str (codePoints s)) = some s := ofCodePoints_codePoints
  let entry := peer.fields.map fun (key, v) => (codePoints key, v)
  have hsigning : Json.required entry "signing_public" Json.text? =
      some (hex peer.signingPublic) := Json.required_object rfl (htext _)
  have hstatic : Json.required entry "static_public" Json.text? =
      some (hex peer.staticPublic) := Json.required_object rfl (htext _)
  have hnickname : Json.optional entry "nickname" Json.text? = some (some peer.nickname) :=
    Json.optional_object rfl (htext _)
  have hverified : Json.optional entry "verified" Json.flag? = some (some peer.verified) :=
    Json.optional_object rfl rfl
  have hseen : Json.optional entry "first_seen" Json.number? = some (some peer.firstSeen) :=
    Json.optional_object rfl rfl
  show PeerEntry.ofJson (.obj entry) = _
  simp only [PeerEntry.ofJson, hsigning, hstatic, hnickname, hverified, hseen]
  rfl

lemma plain_toJson {peer : PeerIdentity UInt8} (h : Json.Reads J peer.firstSeen) :
    Json.Plain J peer.toJson := by
  refine Json.plain_object (by simp [PeerIdentity.fields]) ?_
  simp only [PeerIdentity.fields, List.forall_mem_cons, List.not_mem_nil, IsEmpty.forall_iff,
    implies_true, and_true]
  exact ⟨.str (Json.isText_codePoints _), .str (Json.isText_codePoints _),
    .str (Json.isText_codePoints _), .bool _, .float h⟩

lemma plain_fileJson (h : ∀ p ∈ peers, Json.Reads J p.firstSeen) :
    Json.Plain J (fileJson peers) := by
  refine Json.plain_object (by simp) ?_
  simp only [List.forall_mem_cons, List.not_mem_nil, IsEmpty.forall_iff, implies_true, and_true]
  exact ⟨.int 1, .arr (List.forall_mem_map.mpr fun p hp => plain_toJson (h p hp))⟩

lemma entriesOf_fileText (h : ∀ p ∈ peers, Json.Reads J p.firstSeen) :
    entriesOf J (fileText J peers) = some (peers.map PeerIdentity.toEntry) := by
  have hitems : (peers.map PeerIdentity.toJson).mapM PeerEntry.ofJson =
      some (peers.map PeerIdentity.toEntry) := by
    clear h
    induction peers with
    | nil => rfl
    | cons peer peers ih =>
      rw [List.map_cons, List.mapM_cons, ofJson_toJson, ih]
      rfl
  have hpeers : Json.get? ([("v", Json.int 1), ("peers", .arr (peers.map PeerIdentity.toJson))].map
      fun (key, v) => (codePoints key, v)) "peers" =
        some (.arr (peers.map PeerIdentity.toJson)) := Json.get?_object
  unfold entriesOf fileText
  rw [Json.loads_dumps (plain_fileJson h)]
  simp only [fileJson, Json.object, hpeers, hitems]

/-- A file that a store has written opens as its records. -/
lemma openText_fileText (path : String) (store : TrustStore UInt8)
    (h : ∀ p ∈ store.all, Json.Reads J p.firstSeen) :
    ∃ loaded, openText J path (some (fileText J store.all)) = some loaded ∧
      loaded.path = some path ∧ loaded.all = store.all := by
  refine ⟨{ load path (some store.all) with file := none }, ?_, path_load path _,
    all_load_all path store⟩
  rw [openText, entriesOf_fileText h, Option.bind_some, openFile]
  simp only [mapM_toEntry]
  rfl

end TrustStore

/-! ## Processes that are killed -/

/-- A call on the store of a process, and after how many steps of writing the file the process is
killed, if it is. A call that writes nothing is over by then. -/
structure TrustCall where
  op : TrustOp UInt8
  stop : Option ℕ

/-- A process with its store, and the file on disk. -/
structure TrustProcess where
  store : TrustStore UInt8
  files : FilePair Char

namespace TrustProcess

section Steps

variable (P : Primitives UInt8 X E) (J : FloatFormat ℚ) (path : String)

/-- The first process, which finds no file. -/
def begin (temporary : Option (FileCopy Char)) : TrustProcess :=
  ⟨.empty (some path), ⟨none, temporary⟩⟩

/-- A call, with what it writes up to where the process is killed. -/
def call (w : TrustProcess) (c : TrustCall) : TrustProcess :=
  -- what is written is what the call leaves in `file`
  let store := (c.op.run P { w.store with file := none }).2
  ⟨store, match store.file with
    | none => w.files
    | some peers => w.files.overwrite (TrustStore.fileText J peers) c.stop⟩

/-- A call, and the next process if this one is killed; `none` if that one does not start. -/
def step (w : TrustProcess) (c : TrustCall) : Option TrustProcess :=
  let w := w.call P J c
  match c.stop with
  | none => some w
  | some _ =>
    (TrustStore.openText J path (w.files.file.map FileCopy.data)).map fun store => ⟨store, w.files⟩

end Steps

/-- The calls that have an effect: all but some of those in which a process was killed. -/
inductive Kept : List TrustCall → List (TrustOp UInt8) → Prop
  | nil : Kept [] []
  | keeps {call : TrustCall} {calls : List TrustCall} {ops : List (TrustOp UInt8)}
      (h : Kept calls ops) : Kept (call :: calls) (call.op :: ops)
  | loses {call : TrustCall} {calls : List TrustCall} {ops : List (TrustOp UInt8)}
      (hkilled : call.stop ≠ none) (h : Kept calls ops) : Kept (call :: calls) ops

/-- The file holds these records, readable by its owner alone, and so does the store. -/
structure Holds (J : FloatFormat ℚ) (path : String) (w : TrustProcess)
    (peers : List (PeerIdentity UInt8)) : Prop where
  path : w.store.path = some path
  all : w.store.all = peers
  dated : ∀ p ∈ peers, Json.Reads J p.firstSeen
  file : w.files.file = none ∧ peers = [] ∨
    w.files.file = some ⟨TrustStore.fileText J peers, true⟩

variable {P : Primitives UInt8 X E} {J : FloatFormat ℚ} {path : String} {w : TrustProcess}
  {peers : List (PeerIdentity UInt8)}

lemma dated_onRecords {op : TrustOp UInt8} (hop : op.Dated J)
    (h : ∀ p ∈ peers, Json.Reads J p.firstSeen) :
    ∀ p ∈ op.onRecords peers, Json.Reads J p.firstSeen := by
  have hmap : ∀ f : PeerIdentity UInt8 → PeerIdentity UInt8,
      (∀ p, (f p).firstSeen = p.firstSeen) → ∀ p ∈ peers.map f, Json.Reads J p.firstSeen := by
    intro f hf
    refine List.forall_mem_map.mpr fun p hp => ?_
    rw [hf]
    exact h p hp
  cases op with
  | observe k staticPublic nickname now =>
    rw [TrustOp.onRecords]
    split
    · exact List.forall_mem_append.mpr ⟨h, List.forall_mem_singleton.mpr hop⟩
    · exact hmap _ fun p => by split <;> rfl
  | markVerified k => exact hmap _ fun p => by split <;> rfl
  | repin k staticPublic => exact hmap _ fun p => by split <;> rfl
  | forget k => exact fun p hp => h p (List.mem_of_mem_filter hp)

/-- The next process starts with what the file holds. -/
lemma Holds.reopens (h : Holds J path w peers) :
    ∃ store, TrustStore.openText J path (w.files.file.map FileCopy.data) = some store ∧
      Holds J path ⟨store, w.files⟩ peers := by
  rcases h.file with ⟨hfile, rfl⟩ | hfile
  · refine ⟨.empty (some path), ?_, rfl, rfl, h.dated, h.file⟩
    rw [hfile]
    rfl
  · have hdated := h.dated
    rw [← h.all] at hdated
    obtain ⟨loaded, hopen, hpath, hall⟩ := TrustStore.openText_fileText path w.store hdated
    refine ⟨loaded, ?_, hpath, hall.trans h.all, h.dated, h.file⟩
    rw [hfile, ← hopen, h.all]
    rfl

/-- A call changes the file as it changes the store, or the process is killed before it does. -/
lemma Holds.call (h : Holds J path w peers) (P : Primitives UInt8 X E) {c : TrustCall}
    (hdated : c.op.Dated J) : Holds J path (w.call P J c) (c.op.onRecords peers) ∨
      c.stop ≠ none ∧ (w.call P J c).files.file = w.files.file := by
  have hall : (c.op.run P { w.store with file := none }).2.all = c.op.onRecords peers := by
    rw [TrustStore.all_run, ← h.all]
    rfl
  have hsaves := TrustStore.saves_run P { w.store with file := none } c.op
  unfold TrustProcess.call
  revert hall hsaves
  generalize (c.op.run P { w.store with file := none }).2 = store
  intro hall hsaves
  have hpeers := dated_onRecords hdated h.dated
  cases hsaves with
  | stays _ =>
    have hsame : c.op.onRecords peers = peers := hall.symm.trans h.all
    refine .inl ⟨h.path, hall, hpeers, ?_⟩
    rw [hsame]
    exact h.file
  | @saves unsaved _ _ hpath =>
    have hpath' : unsaved.path = some path := hpath.trans h.path
    have hfile := FilePair.file_overwrite (TrustStore.fileText J (c.op.onRecords peers)) c.stop
      w.files
    simp only [TrustStore.file_save hpath', hall]
    cases hdone : completes (TrustStore.fileText J (c.op.onRecords peers)) c.stop with
    | true =>
      rw [hdone, if_pos rfl] at hfile
      exact .inl ⟨(TrustStore.path_save _).trans hpath', hall, hpeers, .inr hfile⟩
    | false =>
      rw [hdone, if_neg Bool.false_ne_true] at hfile
      refine .inr ⟨fun hstop => ?_, hfile⟩
      rw [hstop] at hdone
      cases hdone

/-- A call is kept, or a process is killed in it and it is not. -/
lemma Holds.step (h : Holds J path w peers) (P : Primitives UInt8 X E) {c : TrustCall}
    (hdated : c.op.Dated J) :
    ∃ w', w.step P J path c = some w' ∧ (Holds J path w' (c.op.onRecords peers) ∨
      c.stop ≠ none ∧ Holds J path w' peers) := by
  have hcall := h.call P hdated
  unfold TrustProcess.step
  cases hstop : c.stop with
  | none => exact ⟨_, rfl, .inl (hcall.resolve_right fun hkilled => hkilled.1 hstop)⟩
  | some steps =>
    let next (store : TrustStore UInt8) : TrustProcess := ⟨store, (w.call P J c).files⟩
    rcases hcall with hheld | ⟨hkilled, hfile⟩
    · obtain ⟨store, hopen, hheld⟩ := hheld.reopens
      exact ⟨next store, congrArg (Option.map next) hopen, .inl hheld⟩
    · -- the file is as it was
      have hold : Holds J path ⟨w.store, (w.call P J c).files⟩ peers :=
        ⟨h.path, h.all, h.dated, hfile ▸ h.file⟩
      obtain ⟨store, hopen, hheld⟩ := hold.reopens
      exact ⟨next store, congrArg (Option.map next) hopen, .inr ⟨Option.some_ne_none steps, hheld⟩⟩

/-- What holds of the records before some calls, holds after them of what those that are kept make
of them. -/
lemma Holds.run (h : Holds J path w peers) (P : Primitives UInt8 X E) {calls : List TrustCall}
    (hdated : ∀ c ∈ calls, c.op.Dated J) :
    ∃ w', calls.foldlM (TrustProcess.step P J path) w = some w' ∧
      ∃ ops, Kept calls ops ∧ Holds J path w' (ops.foldl TrustOp.onRecords peers) := by
  induction calls generalizing w peers with
  | nil => exact ⟨w, rfl, [], .nil, h⟩
  | cons c calls ih =>
    obtain ⟨hfirst, hrest⟩ := List.forall_mem_cons.mp hdated
    obtain ⟨w', hstep, hheld⟩ := h.step P hfirst
    rw [List.foldlM_cons, hstep]
    rcases hheld with hheld | ⟨hkilled, hheld⟩
    · obtain ⟨w'', hrun, ops, hkept, hend⟩ := ih hheld hrest
      exact ⟨w'', hrun, c.op :: ops, .keeps hkept, hend⟩
    · obtain ⟨w'', hrun, ops, hkept, hend⟩ := ih hheld hrest
      exact ⟨w'', hrun, ops, .loses hkilled hkept, hend⟩

/-- After all calls, the store and the file hold the records that the calls that were kept have
made, in their order: all calls that returned or raised, and some of those in which a process was
killed. No process fails to start. -/
theorem restarts_keep (P : Primitives UInt8 X E) (J : FloatFormat ℚ) (path : String)
    (temporary : Option (FileCopy Char)) (calls : List TrustCall)
    (hdated : ∀ c ∈ calls, c.op.Dated J) :
    ∃ w, calls.foldlM (step P J path) (begin path temporary) = some w ∧
      ∃ ops, Kept calls ops ∧ Holds J path w (ops.foldl TrustOp.onRecords []) := by
  have hbegin : Holds J path (begin path temporary) [] :=
    ⟨rfl, rfl, fun _ hp => absurd hp List.not_mem_nil, .inl ⟨rfl, rfl⟩⟩
  exact hbegin.run P hdated

/-- A format for times that are all the same. -/
def fiveOClock : FloatFormat ℚ := ⟨fun _ => ['5', '.', '0'], fun _ => 5, 0, 0, 0⟩

lemma reads_fiveOClock : Json.Reads fiveOClock 5 := by
  refine .number ⟨false, ['5'], ['0'], []⟩ ⟨.inr ⟨by decide, by decide⟩, ?_, ?_, .inl rfl⟩
    (by decide) rfl rfl
  · exact List.forall_mem_singleton.mpr (by decide)
  · exact List.forall_mem_singleton.mpr (by decide)

/-- Two peers are met, and the process is killed while it marks the first one as verified and again
while it forgets the second one. -/
theorem restarts_keep_killed :
    let calls : List TrustCall := [⟨.observe [1] [2] "bob" 5, none⟩, ⟨.markVerified [1], some 7⟩,
      ⟨.observe [3] [4] "carol" 5, none⟩, ⟨.forget [3], some 1000⟩]
    ∃ w, calls.foldlM (step TrustStore.noPrimitives fiveOClock "trust.json")
        (begin "trust.json" none) = some w ∧
      ∃ ops, Kept calls ops ∧
        Holds fiveOClock "trust.json" w (ops.foldl TrustOp.onRecords []) := by
  intro calls
  refine restarts_keep TrustStore.noPrimitives fiveOClock "trust.json" none calls ?_
  simp only [calls, List.forall_mem_cons, List.not_mem_nil, IsEmpty.forall_iff, implies_true,
    and_true]
  exact ⟨reads_fiveOClock, trivial, reads_fiveOClock, trivial⟩

end TrustProcess

end Chatbit
