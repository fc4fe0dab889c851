import Chatbit.Inbound
import Chatbit.SessionPins
import Chatbit.Traffic.Length

/-!
# What the verified label says

A session keeps a reference to the trust store's record of its peer, and `_on_data` reads the label
of a message from that record when the message arrives. The history beside the manager (`LabelRun`)
says for which key each session was authenticated, and for which keys a mark is in force. A label is
right as long as no mark is made for another key than that of a live session on the record, and no
record with a live session is forgotten while it is verified (`LabelRun.Sound`).
-/

namespace Chatbit

open Lib HandshakeState

variable {β X E τ : Type} [Alphabet β] [DecidableEq β] {P : Primitives β X E}

/-! ## Records -/

namespace TrustStore

variable {store : TrustStore β}

omit [Alphabet β] [DecidableEq β] in
lemma object_save (store : TrustStore β) (ref : PeerRef) :
    store.save.object ref = store.object ref := by
  rw [object, object, save_objects]

omit [Alphabet β] [DecidableEq β] in
lemma object_modify (store : TrustStore β) (ref₀ ref : PeerRef)
    (f : PeerIdentity β → PeerIdentity β) (hf : ∀ p, (f p).signingPublic = p.signingPublic) :
    (store.modify ref₀ f hf).object ref =
      if ref₀ = ref then (store.object ref).map f else store.object ref := by
  by_cases h : ref₀ = ref <;> simp [object, modify, h]

omit [Alphabet β] in
lemma object_add (store : TrustStore β) (peer : PeerIdentity β) {ref : PeerRef}
    {p : PeerIdentity β} (h : (store.add peer).object ref = some p) :
    store.object ref = some p ∨ store.object ref = none ∧ p = peer := by
  rw [object, add] at h
  rcases Nat.lt_trichotomy ref store.objects.length with hlt | rfl | hgt
  · exact Or.inl ((List.getElem?_append_left hlt).symm.trans h)
  · refine Or.inr ⟨List.getElem?_eq_none le_rfl, ?_⟩
    simpa using h.symm
  · rw [List.getElem?_eq_none (by simp; omega)] at h
    cases h

/-- Records stay, with their keys and labels, and only new ones are added. -/
structure KeepsRecords (store store' : TrustStore β) : Prop where
  object : ∀ ref p, store.object ref = some p →
    ∃ p', store'.object ref = some p' ∧ p'.signingPublic = p.signingPublic
  verified : ∀ ref p', store'.object ref = some p' → p'.verified = true →
    ∃ p, store.object ref = some p ∧ p.verified = true ∧ p.staticPublic = p'.staticPublic
  entry : ∀ k ref, store.peers.get? k = some ref → store'.peers.get? k = some ref
  new : ∀ k ref, store'.peers.get? k = some ref →
    store.peers.get? k = some ref ∨ store.object ref = none

omit [Alphabet β] in
lemma KeepsRecords.refl (store : TrustStore β) : KeepsRecords store store where
  object _ p h := ⟨p, h, rfl⟩
  verified _ p h hv := ⟨p, h, hv, rfl⟩
  entry _ _ h := h
  new _ _ h := Or.inl h

lemma keepsRecords_observe (P : Primitives β X E) (store : TrustStore β) (k staticPublic : Bytes β)
    (nickname : String) (now : ℚ) :
    KeepsRecords store (observe P k staticPublic nickname now store).2 := by
  have hends := observe_ends P store k staticPublic nickname now
  revert hends
  generalize observe P k staticPublic nickname now store = result
  intro hends
  cases hends with
  -- a new record has a new reference, and is not verified
  | pins hget =>
    constructor
    · intro ref p h
      refine ⟨p, ?_, rfl⟩
      rw [object_save]
      exact (List.getElem?_append_left (List.getElem?_eq_some_iff.mp h).1).trans h
    · intro ref p' h hv
      rw [object_save] at h
      rcases object_add store _ h with h | ⟨-, rfl⟩
      · exact ⟨p', h, hv, rfl⟩
      · cases hv
    · intro k' ref h
      have hne : k' ≠ k := by
        rintro rfl
        rw [hget] at h
        cases h
      rw [save_peers]
      exact (OrderedDict.get?_set_of_ne _ _ hne).trans h
    · intro k' ref h
      rw [save_peers, add] at h
      by_cases hk : k' = k
      · subst hk
        obtain rfl := Option.some.inj ((OrderedDict.get?_set_self _ _ _).symm.trans h)
        exact Or.inr (List.getElem?_eq_none le_rfl)
      · exact Or.inl ((OrderedDict.get?_set_of_ne _ _ hk).symm.trans h)
  | refuses | knows => exact .refl store
  -- a new nickname changes neither the keys nor the label
  | @renames ref₀ p₀ hget hobj hstatic hnick =>
    constructor
    · intro ref p h
      rw [object_save, object_modify, h]
      split_ifs
      · exact ⟨_, rfl, rfl⟩
      · exact ⟨p, rfl, rfl⟩
    · intro ref p' h hv
      rw [object_save, object_modify] at h
      split_ifs at h
      · obtain ⟨p, hp, rfl⟩ := Option.map_eq_some_iff.mp h
        exact ⟨p, hp, hv, rfl⟩
      · exact ⟨p', h, hv, rfl⟩
    · intro k' ref h
      rw [save_peers]
      exact h
    · intro k' ref h
      rw [save_peers] at h
      exact Or.inl h

/-- The record that `observe` returns is the one under the key. -/
lemma get?_of_observe {k staticPublic : Bytes β} {nickname : String} {now : ℚ} {ref : PeerRef}
    {store' : TrustStore β}
    (h : observe P k staticPublic nickname now store = (.ok ref, store')) :
    store'.peers.get? k = some ref := by
  have hends := observe_ends P store k staticPublic nickname now
  rw [h] at hends
  cases hends with
  | pins hget =>
    rw [save_peers]
    exact OrderedDict.get?_set_self _ _ _
  | renames hget =>
    rw [save_peers]
    exact hget
  | knows hget => exact hget

end TrustStore

/-! ## The history -/

/-- The signing key and the static key that the message for a pending entry presents. -/
def SessionManager.presented (manager : SessionManager β X E) (payload : Bytes β)
    (expectRatchet : Bool)
    (read : Bytes β → Method (Exc β) (HandshakeState β X) (Bytes β × Bytes β × Bytes β)) :
    Option (Bytes β × Bytes β) := do
  let pending ← manager.pending.get? (payload.take HS_ID_LEN)
  let (rs, _, body) ← (read (payload.drop HS_ID_LEN) pending.handshake).1.toOption
  let claim ← (decodeIdentityPayload body expectRatchet).toOption
  return (claim.signingPub, rs)

/-- Whether a handler has returned a session. -/
def made {α : Type} : Except (Exc β) (Option α) → Bool
  | .ok (some _) => true
  | _ => false

/-- A manager, and what has happened to it: the static key that the handshake of each session
authenticated, and the static key that `mark_verified` was called on for each peer, if that has not
been revoked. -/
structure LabelRun (β X E : Type) where
  manager : SessionManager β X E
  authenticated : Bytes β → Option (Bytes β)
  marked : Bytes β → Option (Bytes β)

namespace LabelRun

/-- No session yet; the marks are those of the trust store. -/
def begin (identity : Identity X E) (trust : TrustStore β) : LabelRun β X E where
  manager := { identity, trust }
  authenticated := fun _ => none
  marked := fun k => (trust.get k).bind fun p => if p.verified then some p.staticPublic else none

variable (P : Primitives β X E) (w : LabelRun β X E)

/-- The keys that a call authenticates. -/
def authenticates : Call β X → Option (Bytes β × Bytes β)
  | .response payload fresh now establishedAt =>
    if made (SessionManager.handleResponse P payload fresh now establishedAt w.manager).1 then
      w.manager.presented payload true (readMessage2 P)
    else none
  | .fin payload fresh now establishedAt =>
    if made (SessionManager.handleFin P payload fresh now establishedAt w.manager).1 then
      w.manager.presented payload false (readMessage3 P)
    else none
  | _ => none

/-- What a call does to the marks. -/
def marks : Call β X → Bytes β → Option (Bytes β)
  | .markVerified k =>
    match w.manager.trust.get k with
    | none => w.marked
    | some p => Function.update w.marked k (some p.staticPublic)
  | .repin k _ | .forget k => Function.update w.marked k none
  | _ => w.marked

def step (w : LabelRun β X E) : TrustEvent β X → LabelRun β X E
  | .call c =>
    { manager := w.manager.call P c
      authenticated :=
        match w.authenticates P c with
        | none => w.authenticated
        | some (k, s) => Function.update w.authenticated k (some s)
      marked := w.marks c }
  | .observe signingPublic staticPublic nickname now =>
    { w with manager :=
        w.manager.onTrust (TrustStore.observe P signingPublic staticPublic nickname now) }

/-- The session of a peer refers to the record that is in the store, which is `p`. -/
def Live (k : Bytes β) (p : PeerIdentity β) : Prop :=
  ∃ session, w.manager.sessions.get? k = some session ∧
    w.manager.trust.peers.get? k = some session.peer ∧
    w.manager.trust.object session.peer = some p

/-- A mark is for the key that the live session on the record was authenticated for, and no record
with a live session is forgotten while it is verified. -/
def Sound (w : LabelRun β X E) : TrustEvent β X → Prop
  | .call (.markVerified k) => ∀ p, w.Live k p → w.authenticated k = some p.staticPublic
  | .call (.forget k) => ∀ p, w.Live k p → p.verified = false
  | _ => True

/-- Records are verified for marked keys, and those of sessions for the authenticated ones. -/
structure Labelled (w : LabelRun β X E) : Prop where
  record : ∀ k p, w.manager.trust.get k = some p → p.verified = true →
    w.marked k = some p.staticPublic
  owner : ∀ k session, w.manager.sessions.get? k = some session →
    ∃ p, w.manager.trust.object session.peer = some p ∧ p.signingPublic = k
  live : ∀ k session p, w.manager.sessions.get? k = some session →
    w.manager.trust.object session.peer = some p → p.verified = true →
      w.manager.trust.peers.get? k = some session.peer ∧
        w.authenticated k = some p.staticPublic

/-- Whoever has a session with a verified record was marked for the key that the session was
authenticated for. -/
def Right (w : LabelRun β X E) : Prop :=
  ∀ k session p, w.manager.sessions.get? k = some session →
    w.manager.trust.object session.peer = some p → p.verified = true →
      ∃ s, w.authenticated k = some s ∧ w.marked k = some s

omit [Alphabet β] in
lemma sound_markVerified {w : LabelRun β X E} {k : Bytes β}
    (h : (w.manager.trust.get k).map PeerIdentity.staticPublic = w.authenticated k) :
    w.Sound (.call (.markVerified k)) := by
  rintro p ⟨session, -, hentry, hobj⟩
  rw [← h, TrustStore.get_of_object hentry hobj, Option.map_some]

omit [Alphabet β] in
lemma Labelled.right {w : LabelRun β X E} (h : w.Labelled) : w.Right := by
  intro k session p hsession hobj hv
  obtain ⟨hentry, hauth⟩ := h.live k session p hsession hobj hv
  exact ⟨p.staticPublic, hauth, h.record k p (TrustStore.get_of_object hentry hobj) hv⟩

/-! ## What events preserve -/

section Events

variable {P w}

omit [Alphabet β] in
/-- Sessions stay or go, and records are kept. -/
lemma Labelled.of_keeps {w' : LabelRun β X E} (h : w.Labelled)
    (htrust : w.manager.trust.KeepsRecords w'.manager.trust) (hmarked : w'.marked = w.marked)
    (hsessions : ∀ k session', w'.manager.sessions.get? k = some session' →
      ∃ session, w.manager.sessions.get? k = some session ∧ session.peer = session'.peer)
    (hauthenticated : w'.authenticated = w.authenticated) : w'.Labelled where
  record k p' hget hv := by
    obtain ⟨ref, hpeers, hobj⟩ := Option.bind_eq_some_iff.mp hget
    obtain ⟨p, hp, hv, hstatic⟩ := htrust.verified ref p' hobj hv
    rcases htrust.new k ref hpeers with hpeers | hnone
    · rw [hmarked, ← hstatic]
      exact h.record k p (TrustStore.get_of_object hpeers hp) hv
    · rw [hp] at hnone
      cases hnone
  owner k session' hget := by
    obtain ⟨session, hold, hpeer⟩ := hsessions k session' hget
    obtain ⟨p, hp, hkey⟩ := h.owner k session hold
    obtain ⟨p', hp', hkey'⟩ := htrust.object _ p hp
    exact ⟨p', hpeer ▸ hp', hkey'.trans hkey⟩
  live k session' p' hget hobj hv := by
    obtain ⟨session, hold, hpeer⟩ := hsessions k session' hget
    obtain ⟨p, hp, hv, hstatic⟩ := htrust.verified _ p' hobj hv
    rw [← hpeer] at hp
    obtain ⟨hentry, hauth⟩ := h.live k session p hold hp hv
    rw [← hpeer, hauthenticated, ← hstatic]
    exact ⟨htrust.entry k _ hentry, hauth⟩

/-- A handshake completes: its session is authenticated for the key of its record. -/
lemma Labelled.of_completed {w' : LabelRun β X E} (h : w.Labelled) {k s : Bytes β}
    {nickname : String} {now : ℚ} {session : Session β X} {hsId : Bytes β}
    {trust' : TrustStore β}
    (hobserve : TrustStore.observe P k s nickname now w.manager.trust = (.ok session.peer, trust'))
    (hmanager : w'.manager = w.manager.completed hsId k trust' session)
    (hmarked : w'.marked = w.marked)
    (hauthenticated : w'.authenticated = Function.update w.authenticated k (some s)) :
    w'.Labelled := by
  have hkeeps : w.manager.trust.KeepsRecords trust' := by
    have hkeeps := TrustStore.keepsRecords_observe P w.manager.trust k s nickname now
    rwa [hobserve] at hkeeps
  obtain ⟨p₀, hobj₀, hkey₀, hstatic₀⟩ := TrustStore.observe_ok hobserve
  -- the trust store first, and then the session
  have h₁ : Labelled { w with manager := { w.manager with trust := trust' } } :=
    h.of_keeps hkeeps rfl (fun k session hget => ⟨session, hget, rfl⟩) rfl
  have hsessions : w'.manager.sessions = w.manager.sessions.set k session := by rw [hmanager]; rfl
  have htrust : w'.manager.trust = trust' := by rw [hmanager]; rfl
  constructor
  · rw [htrust, hmarked]
    exact h₁.record
  · intro k' session' hget
    rw [htrust]
    rw [hsessions] at hget
    by_cases hk : k' = k
    · subst hk
      obtain rfl := Option.some.inj ((OrderedDict.get?_set_self _ _ _).symm.trans hget)
      exact ⟨p₀, hobj₀, hkey₀⟩
    · exact h₁.owner k' session' ((OrderedDict.get?_set_of_ne _ _ hk).symm.trans hget)
  · intro k' session' p hget hobj hv
    rw [htrust] at hobj ⊢
    rw [hauthenticated]
    rw [hsessions] at hget
    by_cases hk : k' = k
    · subst hk
      obtain rfl := Option.some.inj ((OrderedDict.get?_set_self _ _ _).symm.trans hget)
      obtain rfl := Option.some.inj (hobj₀.symm.trans hobj)
      rw [Function.update_self, hstatic₀]
      exact ⟨TrustStore.get?_of_observe hobserve, rfl⟩
    · rw [Function.update_of_ne hk]
      exact h₁.live k' session' p ((OrderedDict.get?_set_of_ne _ _ hk).symm.trans hget) hobj hv

omit [Alphabet β] in
/-- A change of the record of one peer, where the sessions and what they were authenticated for
stay. -/
lemma Labelled.of_change {w' : LabelRun β X E} (h : w.Labelled) {k : Bytes β}
    {f : PeerIdentity β → PeerIdentity β} {hf : ∀ p, (f p).signingPublic = p.signingPublic}
    {unknown : String}
    (hmanager : w'.manager = w.manager.onTrust (TrustStore.change k unknown f hf))
    (hauthenticated : w'.authenticated = w.authenticated)
    (hmarked : ∀ k', k' ≠ k → w'.marked k' = w.marked k')
    (hsome : ∀ p, w.manager.trust.get k = some p → (f p).verified = true →
      w'.marked k = some (f p).staticPublic)
    (hlive : ∀ p, w.Live k p → (f p).verified = true →
      w.authenticated k = some (f p).staticPublic) : w'.Labelled := by
  have hsessions : w'.manager.sessions = w.manager.sessions := by rw [hmanager]; rfl
  have htrust : w'.manager.trust = (TrustStore.change k unknown f hf w.manager.trust).2 := by
    rw [hmanager]; rfl
  have hends := TrustStore.change_ends w.manager.trust k unknown f hf
  revert hends htrust
  generalize TrustStore.change k unknown f hf w.manager.trust = result
  intro htrust hends
  cases hends with
  | raises hget =>
    replace htrust : w'.manager.trust = w.manager.trust := htrust
    constructor
    · intro k' p' hget' hv
      rw [htrust] at hget'
      by_cases hk : k' = k
      · rw [hk, TrustStore.get_of_none hget] at hget'
        cases hget'
      · rw [hmarked k' hk]
        exact h.record k' p' hget' hv
    · rw [htrust, hsessions]
      exact h.owner
    · rw [htrust, hsessions, hauthenticated]
      exact h.live
  | @changes ref p₀ hget hobj =>
    replace htrust : w'.manager.trust = (w.manager.trust.modify ref f hf).save := htrust
    have hobject : ∀ ref', w'.manager.trust.object ref' =
        if ref = ref' then (w.manager.trust.object ref').map f
        else w.manager.trust.object ref' := by
      intro ref'
      rw [htrust, TrustStore.object_save, TrustStore.object_modify]
    have hentries : w'.manager.trust.peers = w.manager.trust.peers := by
      rw [htrust, TrustStore.save_peers]; rfl
    have hknown := TrustStore.get_of_object hget hobj
    constructor
    · intro k' p' hget' hv
      rw [htrust, TrustStore.get_save, TrustStore.get_modify hget] at hget'
      by_cases hk : k' = k
      · subst hk
        rw [Function.update_self, hknown] at hget'
        obtain rfl := Option.some.inj hget'
        exact hsome p₀ hknown hv
      · rw [Function.update_of_ne hk] at hget'
        rw [hmarked k' hk]
        exact h.record k' p' hget' hv
    · intro k' session hsession
      rw [hsessions] at hsession
      obtain ⟨p, hp, hkey⟩ := h.owner k' session hsession
      rw [hobject, hp]
      split_ifs
      · exact ⟨f p, rfl, (hf p).trans hkey⟩
      · exact ⟨p, rfl, hkey⟩
    · intro k' session p' hsession hobj' hv
      rw [hsessions] at hsession
      rw [hobject] at hobj'
      rw [hentries, hauthenticated]
      split_ifs at hobj' with href
      · -- the session of the peer refers to the record that changes
        subst href
        rw [hobj] at hobj'
        obtain rfl := Option.some.inj hobj'
        obtain ⟨p, hp, hkey⟩ := h.owner k' session hsession
        obtain ⟨p'', hp'', hkey'⟩ := TrustStore.object_of_get? hget
        rw [hobj] at hp hp''
        obtain rfl := Option.some.inj hp
        obtain rfl := Option.some.inj hp''
        obtain rfl : k' = k := hkey.symm.trans hkey'
        exact ⟨hget, hlive p₀ ⟨session, hsession, hget, hobj⟩ hv⟩
      · exact h.live k' session p' hsession hobj' hv

omit [Alphabet β] in
/-- A peer is forgotten whose live session, if there is one, is not verified. -/
lemma Labelled.of_forget {w' : LabelRun β X E} (h : w.Labelled) {k : Bytes β}
    (hmanager : w'.manager = w.manager.onTrust
      (TrustStore.forget k : Method (Exc β) (TrustStore β) Unit))
    (hauthenticated : w'.authenticated = w.authenticated)
    (hmarked : ∀ k', k' ≠ k → w'.marked k' = w.marked k')
    (hlive : ∀ p, w.Live k p → p.verified = false) : w'.Labelled := by
  have hsessions : w'.manager.sessions = w.manager.sessions := by rw [hmanager]; rfl
  have htrust : w'.manager.trust = (w.manager.trust.erase k).save := by rw [hmanager]; rfl
  have hobject : w'.manager.trust.object = w.manager.trust.object := by
    funext ref
    rw [htrust, TrustStore.object_save]
    rfl
  constructor
  · intro k' p' hget hv
    rw [htrust, TrustStore.get_save, TrustStore.get_erase] at hget
    by_cases hk : k' = k
    · subst hk
      rw [Function.update_self] at hget
      cases hget
    · rw [Function.update_of_ne hk] at hget
      rw [hmarked k' hk]
      exact h.record k' p' hget hv
  · rw [hobject, hsessions]
    exact h.owner
  · intro k' session p hsession hobj hv
    rw [hsessions] at hsession
    rw [hobject] at hobj
    obtain ⟨hentry, hauth⟩ := h.live k' session p hsession hobj hv
    -- a verified record of a session is still in the store, so its peer is not the forgotten one
    have hk : k' ≠ k := by
      rintro rfl
      rw [hlive p ⟨session, hsession, hentry, hobj⟩] at hv
      cases hv
    rw [htrust, TrustStore.save_peers, hauthenticated]
    exact ⟨(OrderedDict.get?_erase_of_ne _ hk).trans hentry, hauth⟩

/-! ## One event -/

omit [DecidableEq β] in
lemma keeps_encrypt (plaintext : Bytes β) :
    Method.Keeps Session.peer (Session.encrypt P plaintext) := by
  unfold Session.encrypt
  refine Method.Keeps.bind (fun _ => rfl) fun sent => ?_
  refine Method.Keeps.bind (Method.Keeps.update fun _ => rfl) fun _ => ?_
  exact Method.Keeps.bind (Method.Keeps.eval _ _) fun _ => Method.Keeps.pure _ _

lemma keeps_decrypt (blob : Bytes β) (fresh : X) :
    Method.Keeps Session.peer (Session.decrypt P blob fresh) := by
  unfold Session.decrypt
  refine Method.Keeps.bind (Method.Keeps.self _) fun session => ?_
  split_ifs
  · exact fun _ => rfl
  · refine Method.Keeps.bind (Method.Keeps.eval _ _) fun header => ?_
    split
    · exact Method.Keeps.bind (Method.Keeps.update fun _ => rfl) fun _ _ => rfl
    · exact Method.Keeps.bind (Method.Keeps.update fun _ => rfl) fun _ => Method.Keeps.pure _ _

omit [Alphabet β] in
/-- A call on a session leaves the record that it refers to. -/
lemma peer_onSession {α : Type} {m : Method (Exc β) (Session β X) α}
    (hm : Method.Keeps Session.peer m) (manager : SessionManager β X E) {k k' : Bytes β}
    {session' : Session β X}
    (hget : (manager.onSession k m).sessions.get? k' = some session') :
    ∃ session, manager.sessions.get? k' = some session ∧ session.peer = session'.peer := by
  rw [SessionManager.onSession] at hget
  rcases hs : manager.sessionFor k with _ | session
  · rw [hs] at hget
    exact ⟨session', hget, rfl⟩
  · rw [hs] at hget
    by_cases hk : k' = k
    · subst hk
      obtain rfl := Option.some.inj ((OrderedDict.get?_set_self _ _ _).symm.trans hget)
      exact ⟨session, hs, (hm session).symm⟩
    · exact ⟨session', (OrderedDict.get?_set_of_ne _ _ hk).symm.trans hget, rfl⟩

lemma keepsRecords_of_observes {store store' : TrustStore β}
    (h : TrustStore.Observes P store store') : store.KeepsRecords store' := by
  rcases h with rfl | ⟨k, s, nickname, now, rfl⟩
  · exact .refl store'
  · exact TrustStore.keepsRecords_observe P store k s nickname now

omit [Alphabet β] [DecidableEq β] in
lemma made_eq_true_iff {α : Type} {outcome : Except (Exc β) (Option α)} :
    made outcome = true ↔ ∃ a, outcome = .ok (some a) := by
  rcases outcome with err | _ | a <;> simp [made]

/-- A call that authenticates nothing, leaves the sessions and observes at most. -/
lemma Labelled.of_unmade (h : w.Labelled) {c : Call β X}
    (htrust : TrustStore.Observes P w.manager.trust (w.manager.call P c).trust)
    (hsessions : (w.manager.call P c).sessions = w.manager.sessions)
    (hauthenticates : w.authenticates P c = none) (hmarks : w.marks c = w.marked) :
    (w.step P (.call c)).Labelled := by
  refine h.of_keeps (keepsRecords_of_observes htrust) hmarks (fun k session hget => ?_) ?_
  · exact ⟨session, hsessions ▸ hget, rfl⟩
  · rw [LabelRun.step, hauthenticates]

section Handlers

variable (hP : P.Correct) (hw : SessionManager.WellFormed P w.manager)
include hP hw

/-- A RESP that gives a session presents the keys that the session is kept and pinned under. -/
lemma authenticates_response {payload : Bytes β} {fresh : X} {now establishedAt : ℚ}
    {result : Bytes β × Session β X} {manager' : SessionManager β X E}
    (hok : SessionManager.handleResponse P payload fresh now establishedAt w.manager =
      (.ok (some result), manager')) :
    ∃ k s nickname trust',
      w.authenticates P (.response payload fresh now establishedAt) = some (k, s) ∧
      TrustStore.observe P k s nickname now w.manager.trust = (.ok result.2.peer, trust') ∧
      manager' = w.manager.completed (payload.take HS_ID_LEN) k trust' result.2 := by
  obtain ⟨fin, session⟩ := result
  obtain ⟨pending, e, m, ref, trust', keys, haccepts, -, rfl, rfl⟩ :=
    (SessionManager.handleResponse_some_iff hP hw).mp hok
  obtain ⟨peerStatic, startedAt, rfl⟩ := haccepts.pending_eq
  refine ⟨m.claim.signingPub, m.rs, m.claim.nickname, trust', ?_, haccepts.observed, rfl⟩
  have hread := haccepts.valid.read hP w.manager.identity.staticPrivate
  rw [authenticates, hok]
  simp [made, SessionManager.presented, haccepts.get_pending, SessionManager.startPending, hread,
    haccepts.valid.claim_eq, Except.toOption]

lemma authenticates_fin {payload : Bytes β} {fresh : X} {now establishedAt : ℚ}
    {session : Session β X} {manager' : SessionManager β X E}
    (hok : SessionManager.handleFin P payload fresh now establishedAt w.manager =
      (.ok (some session), manager')) :
    ∃ k s nickname trust',
      w.authenticates P (.fin payload fresh now establishedAt) = some (k, s) ∧
      TrustStore.observe P k s nickname now w.manager.trust = (.ok session.peer, trust') ∧
      manager' = w.manager.completed (payload.take HS_ID_LEN) k trust' session := by
  obtain ⟨pending, re, e, r, m, ref, trust', keys, haccepts, rfl, rfl⟩ :=
    (SessionManager.handleFin_some_iff hP hw).mp hok
  obtain ⟨startedAt, rfl⟩ := haccepts.pending_eq
  refine ⟨m.claim.signingPub, m.rs, m.claim.nickname, trust', ?_, haccepts.observed, rfl⟩
  have hread := haccepts.valid.read hP
  rw [authenticates, hok]
  simp [made, SessionManager.presented, haccepts.get_pending, SessionManager.respPending, respState,
    hread, haccepts.valid.claim_eq, Except.toOption]

omit hP hw in
/-- A handler of a handshake message, which completes a handshake when it gives something. -/
lemma Labelled.of_handler (h : w.Labelled) {α : Type} {c : Call β X}
    {outcome : Except (Exc β) (Option α) × SessionManager β X E}
    (hcall : w.manager.call P c = outcome.2) (hmarks : w.marks c = w.marked)
    (hunmade : made outcome.1 = false → w.authenticates P c = none)
    (htrust : TrustStore.Observes P w.manager.trust outcome.2.trust)
    (hsome : ∀ a manager', outcome = (.ok (some a), manager') →
      ∃ session hsId k s nickname now trust', w.authenticates P c = some (k, s) ∧
        TrustStore.observe P k s nickname now w.manager.trust = (.ok session.peer, trust') ∧
        manager' = w.manager.completed hsId k trust' session)
    (hnone : (∀ a manager', outcome ≠ (.ok (some a), manager')) →
      outcome.2.sessions = w.manager.sessions) : (w.step P (.call c)).Labelled := by
  by_cases hmade : made outcome.1 = true
  · obtain ⟨a, hok⟩ := made_eq_true_iff.mp hmade
    obtain ⟨session, hsId, k, s, nickname, now, trust', hauth, hobserve, hmanager⟩ :=
      hsome a outcome.2 (Prod.ext hok rfl)
    refine h.of_completed hobserve (hcall.trans hmanager) hmarks ?_
    rw [LabelRun.step, hauth]
  · refine h.of_unmade (hcall ▸ htrust) ?_ (hunmade (Bool.of_not_eq_true hmade)) hmarks
    rw [hcall]
    refine hnone fun a manager' hok => hmade ?_
    exact made_eq_true_iff.mpr ⟨a, congrArg Prod.fst hok⟩

lemma Labelled.response (h : w.Labelled) (payload : Bytes β) (fresh : X) (now establishedAt : ℚ) :
    (w.step P (.call (.response payload fresh now establishedAt))).Labelled := by
  refine h.of_handler rfl rfl (fun hmade => if_neg (by simp [hmade]))
    (SessionManager.observes_handleResponse payload w.manager) (fun result manager' hok => ?_)
    fun hok => ?_
  · obtain ⟨k, s, nickname, trust', hends⟩ := authenticates_response hP hw hok
    exact ⟨result.2, _, k, s, nickname, now, trust', hends⟩
  · rcases SessionManager.handleResponse_of_not_some hP hw hok with
      ⟨-, heq⟩ | ⟨-, err, manager', heq, hspoiled⟩
    · rw [heq]
    · rw [heq]
      exact hspoiled.sessions

lemma Labelled.fin (h : w.Labelled) (payload : Bytes β) (fresh : X) (now establishedAt : ℚ) :
    (w.step P (.call (.fin payload fresh now establishedAt))).Labelled := by
  refine h.of_handler rfl rfl (fun hmade => if_neg (by simp [hmade]))
    (SessionManager.observes_handleFin payload w.manager) (fun session manager' hok => ?_)
    fun hok => ?_
  · obtain ⟨k, s, nickname, trust', hends⟩ := authenticates_fin hP hw hok
    exact ⟨session, _, k, s, nickname, now, trust', hends⟩
  · rcases SessionManager.handleFin_of_not_some hP hw hok with
      ⟨-, heq⟩ | ⟨-, err, manager', heq, hspoiled⟩
    · rw [heq]
    · rw [heq]
      exact hspoiled.sessions

/-- Every event keeps the labels right, as long as it is sound. -/
lemma Labelled.step (h : w.Labelled) {event : TrustEvent β X} (hsound : w.Sound event) :
    (w.step P event).Labelled := by
  have hrefl : w.manager.trust.KeepsRecords w.manager.trust := .refl _
  cases event with
  | observe k s nickname now =>
    exact h.of_keeps (TrustStore.keepsRecords_observe P w.manager.trust k s nickname now) rfl
      (fun k session hget => ⟨session, hget, rfl⟩) rfl
  | call c =>
    cases c with
    | start peerStatic hsId e now startedAt wallNow =>
      have hsnd := SessionManager.startHandshake_snd (P := P) w.manager peerStatic hsId e now
        startedAt wallNow
      refine h.of_unmade (Or.inl ?_) ?_ rfl rfl
      · rw [SessionManager.call, hsnd]; rfl
      · rw [SessionManager.call, hsnd]; rfl
    | init payload e r now startedAt =>
      have heq := SessionManager.handleInit_eq hP w.manager payload e r now startedAt
      refine h.of_unmade (Or.inl ?_) ?_ rfl rfl
      · rw [SessionManager.call, heq]
        split_ifs <;> rfl
      · rw [SessionManager.call, heq]
        split_ifs <;> rfl
    | response payload fresh now establishedAt => exact h.response hP hw payload fresh now _
    | fin payload fresh now establishedAt => exact h.fin hP hw payload fresh now _
    | encrypt k plaintext =>
      refine h.of_keeps ?_ rfl (fun k' session' => peer_onSession (keeps_encrypt plaintext) _) rfl
      rw [LabelRun.step, SessionManager.call, SessionManager.onSession]
      split <;> exact hrefl
    | decrypt k blob fresh =>
      refine h.of_keeps ?_ rfl (fun k' session' => peer_onSession (keeps_decrypt blob fresh) _) rfl
      rw [LabelRun.step, SessionManager.call, SessionManager.onSession]
      split <;> exact hrefl
    -- a dropped session takes nothing with it
    | drop k =>
      refine h.of_keeps hrefl rfl (fun k' session' hget => ⟨session', ?_, rfl⟩) rfl
      have hmem := OrderedDict.mem_erase.mp (OrderedDict.get?_eq_some_iff.mp hget)
      exact OrderedDict.get?_eq_some_iff.mpr hmem.2
    | markVerified k =>
      refine h.of_change rfl rfl (fun k' hk => ?_) (fun p hp _ => ?_) fun p hp _ => hsound p hp
      · show w.marks (.markVerified k) k' = w.marked k'
        rw [marks]
        rcases w.manager.trust.get k with _ | p
        · rfl
        · exact Function.update_of_ne hk _ _
      · show w.marks (.markVerified k) k = some p.staticPublic
        rw [marks, hp]
        exact Function.update_self _ _ _
    | repin k s =>
      exact h.of_change rfl rfl (fun k' hk => Function.update_of_ne hk _ _)
        (fun p hp hv => absurd hv Bool.false_ne_true) fun p hp hv => absurd hv Bool.false_ne_true
    | forget k =>
      exact h.of_forget rfl rfl (fun k' hk => Function.update_of_ne hk _ _) hsound

omit hP hw [Alphabet β] in
/-- What the store does to the record of a live session. -/
lemma Live.change {k : Bytes β} {p : PeerIdentity β} (h : w.Live k p) (unknown : String)
    (f : PeerIdentity β → PeerIdentity β) (hf : ∀ p, (f p).signingPublic = p.signingPublic) :
    ∃ session, w.manager.sessions.get? k = some session ∧
      (TrustStore.change k unknown f hf w.manager.trust : Except (Exc β) PeerRef × _).2.object
        session.peer = some (f p) := by
  obtain ⟨session, hsession, hentry, hobj⟩ := h
  refine ⟨session, hsession, ?_⟩
  have hends := TrustStore.change_ends w.manager.trust k unknown f hf
  revert hends
  generalize TrustStore.change k unknown f hf w.manager.trust = result
  intro hends
  cases hends with
  | raises hget =>
    rw [hget] at hentry
    cases hentry
  | changes hget =>
    obtain rfl := Option.some.inj (hentry.symm.trans hget)
    rw [TrustStore.object_save, TrustStore.object_modify, if_pos rfl, hobj]
    rfl

/-- One event keeps the labels right exactly when it is sound. -/
theorem right_step_iff (h : w.Labelled) (event : TrustEvent β X) :
    (w.step P event).Right ↔ w.Sound event := by
  refine ⟨fun hright => ?_, fun hsound => (h.step hP hw hsound).right⟩
  cases event with
  | observe => trivial
  | call c =>
    cases c with
    | markVerified k =>
      intro p hlive
      obtain ⟨session, hsession, hobj⟩ := hlive.change "cannot verify an unknown peer"
        (fun p => { p with verified := true }) fun _ => rfl
      obtain ⟨s, hauth, hmarked⟩ := hright k session _ hsession hobj rfl
      obtain ⟨session', -, hentry, hp⟩ := hlive
      have hmarks : w.marks (.markVerified k) k = some p.staticPublic := by
        rw [marks, TrustStore.get_of_object hentry hp]
        exact Function.update_self _ _ _
      obtain rfl := Option.some.inj (hmarked.symm.trans hmarks)
      exact hauth
    | forget k =>
      rintro p ⟨session, hsession, -, hobj⟩
      by_contra hv
      have hobj' : (w.manager.trust.erase k).save.object session.peer = some p := by
        rw [TrustStore.object_save]
        exact hobj
      obtain ⟨s, -, hmarked⟩ := hright k session p hsession hobj' (by simpa using hv)
      have hmarks : w.marks (.forget k) k = none := Function.update_self _ _ _
      rw [show (w.step P (.call (.forget k))).marked k = w.marks (.forget k) k from rfl,
        hmarks] at hmarked
      cases hmarked
    | _ => trivial

end Handlers

end Events

/-! ## Runs -/

/-- The manager is well formed, and the labels are right. -/
lemma labelled_of_run (hP : P.Correct) {identity : Identity X E} {trust : TrustStore β}
    {w : LabelRun β X E} (hrun : Reaches Sound (step P) (begin identity trust) w) :
    SessionManager.WellFormed P w.manager ∧ w.Labelled := by
  refine hrun.invariant (I := fun w => SessionManager.WellFormed P w.manager ∧ w.Labelled)
    ⟨?_, ?_⟩ fun w event ⟨hw, h⟩ hsound => ⟨?_, h.step hP hw hsound⟩
  · exact (SessionManager.Reachable.wellFormed hP ⟨identity, trust, .refl _⟩)
  · constructor
    · intro k p hget hv
      have hget : trust.get k = some p := hget
      show (trust.get k).bind _ = _
      rw [hget, Option.bind_some, if_pos hv]
    · intro k session hget
      cases hget
    · intro k session p hget
      cases hget
  · cases event with
    | call c => exact hw.call hP c
    | observe => exact hw

end LabelRun

/-! ## What reaches the application -/

namespace Node

variable {T : Transport β τ}

/-- `_on_data` hands this message to the application: whatever the callback is, the call ends as
the callback does on it. -/
def Presents (P : Primitives β X E) (node : Node T X E) (packet : Packet β) (payload : Bytes β)
    (env : ReceiveEnv β X) (message : IncomingMessage β) : Prop :=
  ∀ onMessage, (onData P packet payload env { node with onMessage := some onMessage }).1 =
    onMessage message

/-- The message that it hands over, read off the session that owns the tag. -/
def incoming (P : Primitives β X E) (node : Node T X E) (packet : Packet β) (payload : Bytes β)
    (env : ReceiveEnv β X) : Option (IncomingMessage β) :=
  match node.sessions.sessionByTag P packet.dstTag env.dataNow with
  | .ok (some (_, session)) =>
    match (Session.decrypt P payload env.fresh session).1 with
    | .ok plaintext =>
      match decodeMessage plaintext, node.sessions.peerOf session with
      | .ok (.text, timestamp, body), some peer => some {
          peer := peer, kind := .text, text := decodeReplace body, timestamp := timestamp
          verified := peer.verified, rssi := node.lastRssi }
      | _, _ => none
    | _ => none
  | _ => none

/-- Either the callback decides how the call ends, or it is not called. -/
lemma onData_cases (P : Primitives β X E) (node : Node T X E) (packet : Packet β)
    (payload : Bytes β) (env : ReceiveEnv β X) :
    (∃ message, node.incoming P packet payload env = some message ∧ ∀ onMessage,
      (onData P packet payload env { node with onMessage := some onMessage }).1 =
        onMessage message) ∨
    (node.incoming P packet payload env = none ∧ ∃ outcome, ∀ onMessage,
      (onData P packet payload env { node with onMessage := some onMessage }).1 = outcome) := by
  unfold incoming
  rcases htag : node.sessions.sessionByTag P packet.dstTag env.dataNow with
    err | _ | ⟨signingPublic, session⟩
  · exact Or.inr ⟨rfl, .error err, fun f => by simp [onData, Method.bind_apply, htag]⟩
  · exact Or.inr ⟨rfl, .ok (), fun f => by simp [onData, Method.bind_apply, htag]⟩
  rcases hdecrypt : Session.decrypt P payload env.fresh session with ⟨err | plaintext, session'⟩
  · refine Or.inr ⟨by simp only [hdecrypt], ?_⟩
    cases err with
    | sessionError msg =>
      exact ⟨.ok (), fun f => by
        simp [onData, Method.bind_apply, htag, openData, onSession, Method.onField, hdecrypt]⟩
    | _ =>
      exact ⟨.error _, fun f => by
        simp [onData, Method.bind_apply, htag, openData, onSession, Method.onField, hdecrypt]; rfl⟩
  have hplain : ∀ f, (onData P packet payload env { node with onMessage := some f }).1 =
      (onPlaintext session plaintext { node with
        onMessage := some f
        sessions := { node.sessions with
          sessions := node.sessions.sessions.set signingPublic session' } }).1 := fun f => by
    simp [onData, Method.bind_apply, htag, openData, onSession, Method.onField, hdecrypt]
  -- what `on_plaintext` reads of the node, decrypting has not changed
  simp only [hplain, hdecrypt]
  rcases hdecode : decodeMessage plaintext with err | ⟨kind, timestamp, body⟩
  · exact Or.inr ⟨rfl, .ok (), fun f => by simp [onPlaintext, hdecode]⟩
  have hpeer : ∀ sessions,
      SessionManager.peerOf { node.sessions with sessions := sessions } session =
        node.sessions.peerOf session := fun _ => rfl
  cases kind with
  | text =>
    rcases hrecord : node.sessions.peerOf session with _ | peer
    · exact Or.inr ⟨rfl, .error .assertionError, fun f => by
        simp [onPlaintext, hdecode, count, hpeer, hrecord]⟩
    · exact Or.inl ⟨_, rfl, fun f => by simp [onPlaintext, hdecode, count, hpeer, hrecord]⟩
  | ack | nick =>
    exact Or.inr ⟨by rcases node.sessions.peerOf session with _ | peer <;> rfl, .ok (), fun f => by
      simp [onPlaintext, hdecode, count]⟩

theorem presents_iff (P : Primitives β X E) (node : Node T X E) (packet : Packet β)
    (payload : Bytes β) (env : ReceiveEnv β X) (message : IncomingMessage β) :
    node.Presents P packet payload env message ↔
      node.incoming P packet payload env = some message := by
  classical
  rcases onData_cases P node packet payload env with
    ⟨message', hincoming, hends⟩ | ⟨hnone, outcome, hends⟩
  · rw [hincoming, Option.some_inj]
    constructor
    · intro h
      -- a callback that returns on this message only
      let only : IncomingMessage β → Except (Exc β) Unit := fun m =>
        if m = message then .ok () else .error .assertionError
      have honly : only message' = .ok () := by
        rw [← hends only, h only]
        exact if_pos rfl
      by_contra hne
      rw [show only message' = .error .assertionError from if_neg hne] at honly
      cases honly
    · rintro rfl
      exact hends
  · refine iff_of_false (fun h => ?_) (by simp [hnone])
    have hok := (hends fun _ => .ok ()).symm.trans (h fun _ => .ok ())
    have herr := (hends fun _ => .error .assertionError).symm.trans
      (h fun _ => .error .assertionError)
    rw [hok] at herr
    cases herr

/-- A delivered message has the label of the record of the session that owns its tag. -/
lemma Presents.session {P : Primitives β X E} {node : Node T X E} {packet : Packet β}
    {payload : Bytes β} {env : ReceiveEnv β X} {message : IncomingMessage β}
    (h : node.Presents P packet payload env message) :
    ∃ k session p,
      node.sessions.sessionByTag P packet.dstTag env.dataNow = .ok (some (k, session)) ∧
      node.sessions.peerOf session = some p ∧ message.verified = p.verified := by
  rw [presents_iff, incoming] at h
  rcases htag : node.sessions.sessionByTag P packet.dstTag env.dataNow with
    err | _ | ⟨k, session⟩
  · simp [htag] at h
  · simp [htag] at h
  simp only [htag] at h
  split at h
  · split at h
    · rename_i p _ hpeer
      obtain rfl := Option.some.inj h
      exact ⟨k, session, p, rfl, hpeer, rfl⟩
    · cases h
  · cases h

end Node

/-- From any identity and trust store, whatever handshakes, messages and trust operations there
are: as long as each `mark_verified` and `forget` is sound when it is called, a message that is
delivered as verified came over a session that was authenticated for a static key, and for this
static key the peer is marked. -/
theorem verified_is_marked (hP : P.Correct) {identity : Identity X E} {trust : TrustStore β}
    {w : LabelRun β X E}
    (hrun : Reaches LabelRun.Sound (LabelRun.step P) (LabelRun.begin identity trust) w)
    {T : Transport β τ} (node : Node T X E) (hnode : node.sessions = w.manager)
    {packet : Packet β} {payload : Bytes β} {env : ReceiveEnv β X} {message : IncomingMessage β}
    (h : node.Presents P packet payload env message) (hv : message.verified = true) :
    ∃ k s session,
      node.sessions.sessionByTag P packet.dstTag env.dataNow = .ok (some (k, session)) ∧
      w.authenticated k = some s ∧ w.marked k = some s := by
  obtain ⟨k, session, p, htag, hpeer, hlabel⟩ := h.session
  have hmem := mem_of_sessionByTagIn htag
  rw [hnode] at hmem hpeer
  obtain ⟨s, hauth, hmarked⟩ := (LabelRun.labelled_of_run P hP hrun).2.right k session p
    (OrderedDict.get?_eq_some_iff.mpr hmem) hpeer (hlabel ▸ hv)
  exact ⟨k, s, session, htag, hauth, hmarked⟩

/-! ## A mark for another key -/

namespace LabelRun

open SessionManager.Meeting

/-- Bob asks for Alice. -/
def asked : SessionManager SymByte ℕ ℕ :=
  ({ identity := bob, trust := .empty none } : SessionManager SymByte ℕ ℕ).call symbolic
    (.start (alice.staticPublic symbolic) hsId 12 0 0 0)

/-- His FIN when she has answered, and his session. -/
def bobsEnd : Bytes SymByte × Option (Session SymByte ℕ) :=
  match (SessionManager.handleResponse symbolic (responseOf alice) 13 0 0 asked).1 with
  | .ok (some (fin, session)) => (fin, some session)
  | _ => ([], none)

/-- The payload of his first text, and its tag. -/
def greeting : Bytes SymByte × Bytes SymByte :=
  (bobsEnd.2.bind fun session => (Session.encryptTagged symbolic
    (encodeMessage .text (zeros 8) (encodeUtf8 "hi")) 6000 session).1.toOption).getD ([], [])

def greetingPacket : Packet SymByte :=
  .ofFields .data greeting.1 (zeros 8) greeting.2 7 0 1 (by decide +kernel)

def bobsKey : Bytes SymByte := bob.signingPublic symbolic

/-- Alice after the handshake. -/
def met : LabelRun SymByte ℕ ℕ :=
  ((begin alice (.empty none)).step symbolic
    (.call (.init (hsId ++ SymByte.publicKey 12) 22 23 0 0))).step symbolic
      (.call (.fin bobsEnd.1 33 0 0))

def aliceNode (w : LabelRun SymByte ℕ ℕ) : Node Node.openLink ℕ ℕ where
  transport := ()
  sessions := w.manager
  capacity := 177
  capacity_eq := Node.aliceNode.capacity_eq

/-- The clocks when the greeting comes. -/
def arrival : ReceiveEnv SymByte ℕ where
  now := 1
  delay := 1 / 10
  tagNow := 6000
  dataNow := 6000
  reassemblyNow := 1
  ephemeral := 41
  ratchetPrivate := 42
  fresh := 43
  pendingNow := 1
  startedAt := 1
  pinNow := 6000
  establishedAt := 6000
  send := Node.aliceEnv

/-- What Alice's application is handed when the greeting comes. -/
def handed (w : LabelRun SymByte ℕ ℕ) : Option (IncomingMessage SymByte) :=
  (aliceNode w).incoming symbolic greetingPacket greetingPacket.payload arrival

/-- Alice re-pins Bob, and marks the new key. -/
def remarked : LabelRun SymByte ℕ ℕ :=
  (met.step symbolic (.call (.repin bobsKey (SymByte.publicKey 99)))).step symbolic
    (.call (.markVerified bobsKey))

/-- Alice marks Bob. -/
def noted : LabelRun SymByte ℕ ℕ := met.step symbolic (.call (.markVerified bobsKey))

/-- Alice marks Bob, and forgets him. -/
def forgotten : LabelRun SymByte ℕ ℕ := noted.step symbolic (.call (.forget bobsKey))

lemma presents_of_handed {w : LabelRun SymByte ℕ ℕ}
    (h : (handed w).map IncomingMessage.verified = some true) :
    ∃ message, (aliceNode w).Presents symbolic greetingPacket greetingPacket.payload
      arrival message ∧ message.verified = true := by
  obtain ⟨message, hmessage, hv⟩ := Option.map_eq_some_iff.mp h
  exact ⟨message, (Node.presents_iff _ _ _ _ _ _).mpr hmessage, hv⟩

/-- The session that owns the tag was authenticated for a key that Alice has not marked. -/
lemma not_marked {w : LabelRun SymByte ℕ ℕ}
    (htag : ((aliceNode w).sessions.sessionByTag symbolic greetingPacket.dstTag
      arrival.dataNow).toOption.join.map Prod.fst = some bobsKey)
    (hne : w.authenticated bobsKey ≠ w.marked bobsKey) :
    ¬ ∃ k s session, (aliceNode w).sessions.sessionByTag symbolic greetingPacket.dstTag
      arrival.dataNow = .ok (some (k, session)) ∧
      w.authenticated k = some s ∧ w.marked k = some s := by
  rintro ⟨k, s, session, hfound, hauth, hmarked⟩
  rw [hfound] at htag
  obtain rfl : k = bobsKey := Option.some.inj htag
  exact hne (hauth.trans hmarked.symm)

end LabelRun

open LabelRun SessionManager.Meeting in
/-- Alice marks another key than the session was authenticated for, or revokes her mark, and the
message is delivered as verified. -/
theorem label_of_another_key :
    Reaches (fun _ _ => True) (step symbolic) (begin alice (.empty none)) remarked ∧
    Reaches (fun _ _ => True) (step symbolic) (begin alice (.empty none)) forgotten ∧
    (∃ message, (aliceNode remarked).Presents symbolic greetingPacket greetingPacket.payload
      arrival message ∧ message.verified = true) ∧
    (∃ message, (aliceNode forgotten).Presents symbolic greetingPacket greetingPacket.payload
      arrival message ∧ message.verified = true) ∧
    (¬ ∃ k s session, (aliceNode remarked).sessions.sessionByTag symbolic greetingPacket.dstTag
      arrival.dataNow = .ok (some (k, session)) ∧
      remarked.authenticated k = some s ∧ remarked.marked k = some s) ∧
    ¬ ∃ k s session, (aliceNode forgotten).sessions.sessionByTag symbolic greetingPacket.dstTag
      arrival.dataNow = .ok (some (k, session)) ∧
      forgotten.authenticated k = some s ∧ forgotten.marked k = some s := by
  have hmet : Reaches (fun _ _ => True) (step symbolic) (begin alice (.empty none)) met :=
    ((Reaches.refl _).tail trivial).tail trivial
  exact ⟨(hmet.tail trivial).tail trivial, (hmet.tail trivial).tail trivial,
    presents_of_handed (by decide +kernel), presents_of_handed (by decide +kernel),
    not_marked (by decide +kernel) (by decide +kernel),
    not_marked (by decide +kernel) (by decide +kernel)⟩

open LabelRun SessionManager.Meeting in
/-- Alice marks the key that the handshake has authenticated. -/
theorem verified_is_marked_noted :
    ∃ k s session,
      (aliceNode noted).sessions.sessionByTag symbolic greetingPacket.dstTag
        arrival.dataNow = .ok (some (k, session)) ∧
      noted.authenticated k = some s ∧ noted.marked k = some s := by
  have hmet : Reaches Sound (step symbolic) (begin alice (.empty none)) met :=
    ((Reaches.refl _).tail trivial).tail trivial
  have hsound : met.Sound (.call (.markVerified bobsKey)) :=
    sound_markVerified (by decide +kernel)
  obtain ⟨message, hmessage, hv⟩ := presents_of_handed (w := noted) (by decide +kernel)
  exact verified_is_marked symbolic_correct (hmet.tail hsound) (aliceNode noted) rfl hmessage hv

end Chatbit
