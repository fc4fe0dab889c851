import Chatbit.ConversationTheorems
import Chatbit.Crypto.ForwardSecrecy
import Chatbit.NodeFeeds

/-!
# A text that arrives is heard

One side sends a text, and the frames reach the other side, directly or over relays, in any order,
some of them more than once, with whatever else in between. When the last frame that was missing
comes, the application is handed the text (`Conversation.delivers`).
-/

namespace Chatbit

open Lib Method

variable {β X E τ : Type} [Alphabet β] [DecidableEq β] {P : Primitives β X E}

/-! ## Copies of packets -/

/-- A copy of a packet, on its way: relays change the time to live. -/
def Packet.CopyOf (packet original : Packet β) : Prop :=
  ∃ ttl h, packet = { original with ttl := ttl, ttl_le := h }

namespace Packet

variable {packet copy copy' : Packet β}

omit [Alphabet β] [DecidableEq β] in
/-- What a relay sends on is a copy. -/
lemma copyOf_of_decrementTtl (h : packet.decrementTtl = some copy) : copy.CopyOf packet := by
  unfold decrementTtl at h
  split_ifs at h
  obtain rfl := Option.some.inj h
  exact ⟨packet.ttl - 1, _, rfl⟩

omit [Alphabet β] [DecidableEq β] in
lemma CopyOf.trans (h : copy'.CopyOf copy) (h' : copy.CopyOf packet) : copy'.CopyOf packet := by
  obtain ⟨ttl, hle, rfl⟩ := h
  obtain ⟨_, _, rfl⟩ := h'
  exact ⟨ttl, hle, rfl⟩

omit [Alphabet β] [DecidableEq β] in
lemma CopyOf.fragIndex (h : copy.CopyOf packet) : copy.fragIndex = packet.fragIndex := by
  obtain ⟨_, _, rfl⟩ := h
  rfl

end Packet

namespace Reassembler

variable {packets : List (Packet β)} {ptype : PacketType} {payload msgId dstTag : Bytes β}
  {capacity ttl : ℕ} {before : List (Packet β × ℚ)} {packet : Packet β} {now : ℚ}
  {r : Reassembler β}

/-- The call on the packet that the sender made. -/
def original (ttl : ℕ) (h : ttl ≤ MAX_TTL) (call : Packet β × ℚ) : Packet β × ℚ :=
  ({ call.1 with ttl := ttl, ttl_le := h }, call.2)

omit [Alphabet β] in
lemma afterAll_map_original (h : ttl ≤ MAX_TTL) (calls : List (Packet β × ℚ))
    (r : Reassembler β) : afterAll (calls.map (original ttl h)) r = afterAll calls r := by
  rw [afterAll, afterAll, List.foldl_map]
  rfl

omit [Alphabet β] [DecidableEq β] in
lemma pendingIds_map_original (h : ttl ≤ MAX_TTL) (calls : List (Packet β × ℚ)) :
    pendingIds (calls.map (original ttl h)) = pendingIds calls := by
  rw [pendingIds, pendingIds, List.filter_map, List.map_map]
  rfl

omit [Alphabet β] in
/-- The call with the last missing copy returns the payload. -/
lemma add_copies (hfragment : fragment ptype payload msgId capacity dstTag ttl = .ok packets)
    (hroom : r.Room msgId (before ++ [(packet, now)])) (hsize : payload.length ≤ r.maxBytes)
    (hown : ∀ c ∈ before, c.1.msgId = msgId → ∃ q ∈ packets, c.1.CopyOf q)
    (hcopy : ∃ q ∈ packets, packet.CopyOf q)
    (hmissing : ¬ ∀ q ∈ packets, ∃ c ∈ before, c.1.CopyOf q)
    (hall : ∀ q ∈ packets, ∃ c ∈ before ++ [(packet, now)], c.1.CopyOf q) :
    (add packet now (afterAll before r)).1 = .ok (some payload) := by
  have hf := fragments_of_fragment hfragment
  obtain ⟨q₀, hq₀, hcopy₀⟩ := hcopy
  have httl : ttl ≤ MAX_TTL := by
    rw [← ttl_of_fragment hfragment hq₀]
    exact q₀.ttl_le
  -- a copy of one of the packets is the packet once the sender's time to live is put back
  have horiginal : ∀ c : Packet β × ℚ, ∀ q ∈ packets,
      c.1.CopyOf q → (original ttl httl c).1 = q := by
    rintro ⟨packet, now⟩ q hq ⟨t, ht, rfl⟩
    have hq := ttl_of_fragment hfragment hq
    subst hq
    rfl
  have hmsgId : packet.msgId = msgId := by
    obtain ⟨t, ht, hcall⟩ := hcopy₀
    rw [hcall]
    exact (hf.fields q₀ hq₀).2.2
  have hback : ∀ c : Packet β × ℚ, c.1.CopyOf (original ttl httl c).1 :=
    fun c => ⟨c.1.ttl, c.1.ttl_le, rfl⟩
  have hcalls : before.map (original ttl httl) ++ [original ttl httl (packet, now)] =
      (before ++ [(packet, now)]).map (original ttl httl) := by
    rw [List.map_append, List.map_singleton]
  have hroom' :
      r.Room msgId (before.map (original ttl httl) ++ [original ttl httl (packet, now)]) := by
    rw [hcalls]
    refine ⟨?_, ?_, hroom.fresh⟩
    · intro c' hc' earlier' hearlier' hid
      obtain ⟨c, hc, rfl⟩ := List.mem_map.mp hc'
      obtain ⟨earlier, hearlier, rfl⟩ := List.mem_map.mp hearlier'
      exact hroom.time c hc earlier hearlier hid
    · rw [pendingIds_map_original]
      exact hroom.room
  have hours : ∀ c ∈ before.map (original ttl httl) ++ [original ttl httl (packet, now)],
      c.1.msgId = msgId → c.1 ∈ packets := by
    intro c' hc' hid
    rcases List.mem_append.mp hc' with hc' | hc'
    · obtain ⟨c, hc, rfl⟩ := List.mem_map.mp hc'
      obtain ⟨q, hq, hcq⟩ := hown c hc hid
      rw [horiginal c q hq hcq]
      exact hq
    · rw [List.mem_singleton.mp hc', horiginal (packet, now) q₀ hq₀ hcopy₀]
      exact hq₀
  have hearlier : ¬ ∀ q ∈ packets, q ∈ (before.map (original ttl httl)).map Prod.fst := by
    intro harrived
    refine hmissing fun q hq => ?_
    obtain ⟨c', hc', rfl⟩ := List.mem_map.mp (harrived q hq)
    obtain ⟨c, hc, rfl⟩ := List.mem_map.mp hc'
    exact ⟨c, hc, hback c⟩
  have hadd := add_afterAll hf hroom' hsize hours hmsgId hearlier
  rw [← afterAll_map_original httl]
  refine hadd.1 fun q hq => ?_
  obtain ⟨c, hc, hcq⟩ := hall q hq
  rw [← horiginal c q hq hcq, List.mem_append, List.mem_singleton]
  rcases List.mem_append.mp hc with hc | hc
  · exact Or.inl (List.mem_map_of_mem (List.mem_map_of_mem hc))
  · rw [List.mem_singleton.mp hc]
    exact Or.inr rfl

end Reassembler

/-! ## The tags of the sessions -/

/-- What the tags of a session are computed with. -/
def Session.tagKeys (session : Session β X) : Bytes β × Bytes β :=
  (session.sendTagKey, session.recvTagKey)

namespace Session

omit [DecidableEq β] in
lemma tagKeys_encrypt (plaintext : Bytes β) (session : Session β X) :
    (encrypt P plaintext session).2.tagKeys = session.tagKeys := by
  have hkeeps : Keeps Session.tagKeys
      (encrypt P plaintext : Method (Exc β) (Session β X) (Bytes β)) :=
    .bind (fun _ => rfl) fun _ => .bind (.update fun _ => rfl) fun _ =>
      .bind (.eval _ _) fun _ => .pure _ _
  exact hkeeps session

lemma tagKeys_decrypt (blob : Bytes β) (fresh : X) (session : Session β X) :
    (decrypt P blob fresh session).2.tagKeys = session.tagKeys := by
  rcases h : decrypt P blob fresh session with ⟨err | plaintext, session'⟩
  · rw [decrypt_error h]
  · obtain ⟨_, _, _, _, _, rfl⟩ := decrypt_ok_iff.mp h
    rfl

end Session

/-- Within the time of an epoch, the receiver finds the tag. -/
lemma Tags.tagMatches_computeTag {tagKey tag : Bytes β} {t now : ℚ}
    (htag : computeTag P tagKey (currentEpoch t) = .ok tag) (hlow : EPOCH_SECONDS ≤ now)
    (hhigh : now < (256 ^ 8 - 1) * EPOCH_SECONDS) (hnear : |t - now| ≤ EPOCH_SECONDS) :
    tagMatches P tag tagKey now false = .ok true := by
  refine tagMatches_ok_iff.mpr ⟨one_le_currentEpoch_iff.mpr hlow,
    currentEpoch_add_one_lt_iff.mpr hhigh, iff_of_true rfl ⟨currentEpoch t, ?_, htag⟩⟩
  rw [abs_sub_comm]
  exact currentEpoch_near hnear

/-- The session is found if no other owns the tag. -/
lemma sessionByTagIn_of_alone {tag k : Bytes β} {now : ℚ} {session : Session β X}
    {l : List (Bytes β × Session β X)} (hmem : (k, session) ∈ l)
    (hone : ∀ session', (k, session') ∈ l → session' = session)
    (howns : session.ownsTag P tag now = .ok true)
    (halone : ∀ entry ∈ l, entry.1 ≠ k → entry.2.ownsTag P tag now = .ok false) :
    sessionByTagIn P tag now l = .ok (some (k, session)) := by
  induction l with
  | nil => cases hmem
  | cons entry rest ih =>
    obtain ⟨k', session'⟩ := entry
    rw [sessionByTagIn]
    by_cases hk : k' = k
    · subst hk
      obtain rfl := hone session' List.mem_cons_self
      rw [howns]
      rfl
    · have hfalse := halone (k', session') List.mem_cons_self hk
      rw [hfalse]
      have hrest : (k, session) ∈ rest := by
        rcases List.mem_cons.mp hmem with heq | hrest
        · exact absurd (congrArg Prod.fst heq).symm hk
        · exact hrest
      exact ih hrest (fun s hs => hone s (List.mem_cons_of_mem _ hs))
        fun e he => halone e (List.mem_cons_of_mem _ he)

namespace Conversation

variable {T : Side → Transport β τ} {key : Side → Bytes β} {k : Bytes β} {a r : X}
  {c : Conversation T X E} {keys : Bytes β × Bytes β × Bytes β}

/-- The key that a side sends its tags under. -/
def sendKey (keys : Bytes β × Bytes β × Bytes β) : Side → Bytes β
  | .initiator => keys.2.1
  | .responder => keys.2.2

/-- The sessions have the tag keys of the handshake. -/
def Tagged (key : Side → Bytes β) (keys : Bytes β × Bytes β × Bytes β)
    (c : Conversation T X E) : Prop :=
  ∀ side session, (c.node side).sessions.sessionFor (key side.peer) = some session →
    session.tagKeys = (sendKey keys side, sendKey keys side.peer)

lemma Tagged.step (h : c.Tagged key keys) (hfollows : c.Follows P key k a r)
    {event : Side × NodeEvent β X} (hadm : c.Admissible P key event) :
    (c.step P key event).Tagged key keys := by
  obtain ⟨side, event⟩ := event
  intro side' session' hs'
  rw [step_node] at hs'
  by_cases hside : side' = side
  · subst hside
    rw [Function.update_self] at hs'
    obtain ⟨session, hs, -⟩ := hfollows.session side'
    have hadm := hadm.2
    rcases hevent : c.ratchetEvent P key side' event with _ | e
    · rw [hevent] at hadm
      exact h side' session' (hadm.symm.trans hs')
    rw [Node.sessions_step] at hs'
    rcases ratchetEvent_some hevent with ⟨plaintext, hcall, -⟩ | ⟨blob, fresh, header, hcall, -, -⟩
    · rw [hcall] at hs'
      obtain rfl := Option.some.inj ((sessionFor_onSession _ hs _).symm.trans hs')
      rw [Session.tagKeys_encrypt]
      exact h side' session hs
    · rw [hcall] at hs'
      obtain rfl := Option.some.inj ((sessionFor_onSession _ hs _).symm.trans hs')
      rw [Session.tagKeys_decrypt]
      exact h side' session hs
  · rw [Function.update_of_ne hside] at hs'
    exact h side' session' hs'

/-- In every state of a conversation the ratchets are those of a run, and the tag keys those of the
handshake. -/
lemma Met.invariant {node : (side : Side) → Node (T side) X E} {initiator responder : Session β X}
    (hP : P.Correct) (h : Met P key node keys a r initiator responder)
    (hrun : Reaches (Admissible P key) (Conversation.step P key)
      (begin P node a r initiator responder) c) :
    c.Follows P key keys.1 a r ∧ c.Tagged key keys := by
  refine hrun.invariant (I := fun c => c.Follows P key keys.1 a r ∧ c.Tagged key keys)
    ⟨h.follows, ?_⟩ fun c event h hadm => ⟨h.1.step hP hadm, h.2.step h.1 hadm⟩
  intro side session hs
  cases side with
  | initiator =>
    obtain rfl := Option.some.inj (h.session_initiator.symm.trans hs)
    exact Prod.ext h.paired.initiator_sends h.paired.initiator_receives
  | responder =>
    obtain rfl := Option.some.inj (h.session_responder.symm.trans hs)
    exact Prod.ext h.paired.responder_sends h.paired.responder_receives

/-! ## Runs by lists of events -/

/-- The events of one side. -/
def eventsOf (side : Side) (events : List (Side × NodeEvent β X)) : List (NodeEvent β X) :=
  (events.filter fun e => e.1 = side).map Prod.snd

lemma node_foldl (events : List (Side × NodeEvent β X)) (c : Conversation T X E) (side : Side) :
    (events.foldl (Conversation.step P key) c).node side =
      (eventsOf side events).foldl (Node.step P) (c.node side) := by
  induction events generalizing c with
  | nil => rfl
  | cons event events ih =>
    obtain ⟨side', event⟩ := event
    rw [List.foldl_cons, ih, step_node, eventsOf, eventsOf]
    by_cases hside : side' = side
    · subst hside
      rw [Function.update_self, List.filter_cons_of_pos (by simp), List.map_cons, List.foldl_cons]
    · rw [Function.update_of_ne (Ne.symm hside), List.filter_cons_of_neg (by simpa using hside)]

/-- What has been sealed stays in the history. -/
lemma sent_foldl (events : List (Side × NodeEvent β X)) (c : Conversation T X E) :
    c.run.sent ⊆ (events.foldl (Conversation.step P key) c).run.sent := by
  induction events generalizing c with
  | nil => exact List.Subset.refl _
  | cons event events ih =>
    obtain ⟨side, event⟩ := event
    refine List.Subset.trans ?_ (ih _)
    rw [step_run]
    rcases c.ratchetEvent P key side event with _ | e
    · exact List.Subset.refl _
    · exact (c.run.mem_step e).1

end Conversation

/-! ## The last frame -/

/-- What the last frame of a message finds at its receiver, who has fed `before` to the reassembler
`r` since the message was sent at `sentAt`: the packet is a new copy of one of the packets, which
completes them; no other packet carries their message id, and `r` has room for the message beside
what was pending in it; the clocks are less than an epoch apart, and no other session owns the
tag. -/
structure Ready (P : Primitives β X E) (k : Bytes β) (sentAt : ℚ) (packets : List (Packet β))
    (before : List (Packet β × ℚ)) (r : Reassembler β) {T : Transport β τ} (node : Node T X E)
    (packet : Packet β) (env : ReceiveEnv β X) : Prop where
  unseen : Router.Unseen packet env.now node.router
  time : ∀ now ∈ [env.tagNow, env.dataNow], Tags.EPOCH_SECONDS ≤ now ∧
    now < (256 ^ 8 - 1) * Tags.EPOCH_SECONDS ∧ |sentAt - now| ≤ Tags.EPOCH_SECONDS
  alone : ∀ now ∈ [env.tagNow, env.dataNow], ∀ entry ∈ node.sessions.sessions.entries,
    entry.1 ≠ k → entry.2.ownsTag P packet.dstTag now = .ok false
  room : r.Room packet.msgId (before ++ [(packet, env.reassemblyNow)])
  own : ∀ call ∈ before, call.1.msgId = packet.msgId → ∃ q ∈ packets, call.1.CopyOf q
  copy : ∃ q ∈ packets, packet.CopyOf q
  missing : ¬ ∀ q ∈ packets, ∃ call ∈ before, call.1.CopyOf q
  complete : ∀ q ∈ packets, ∃ call ∈ before ++ [(packet, env.reassemblyNow)], call.1.CopyOf q

namespace Ready

variable {k : Bytes β} {sentAt : ℚ} {packets : List (Packet β)} {before : List (Packet β × ℚ)}
  {r : Reassembler β} {T : Transport β τ} {node : Node T X E} {packet : Packet β}
  {env : ReceiveEnv β X} {session : Session β X} {payload msgId tag : Bytes β} {capacity ttl : ℕ}

/-- The session finds its tag, at both times at which it is looked for. -/
lemma sessionByTag (h : Ready P k sentAt packets before r node packet env)
    (hs : node.sessions.sessionFor k = some session)
    (htag : Tags.computeTag P session.recvTagKey (Tags.currentEpoch sentAt) = .ok packet.dstTag)
    {now : ℚ} (hnow : now ∈ [env.tagNow, env.dataNow]) :
    node.sessions.sessionByTag P packet.dstTag now = .ok (some (k, session)) := by
  obtain ⟨hlow, hhigh, hnear⟩ := h.time now hnow
  refine sessionByTagIn_of_alone (OrderedDict.get?_eq_some_iff.mp hs) (fun session' hmem => ?_)
    (Tags.tagMatches_computeTag htag hlow hhigh hnear) (h.alone now hnow)
  exact Option.some.inj ((OrderedDict.get?_eq_some_iff.mpr hmem).symm.trans hs)

/-- The frame completes the payload. -/
lemma arrives (h : Ready P k sentAt packets before r node packet env)
    (hs : node.sessions.sessionFor k = some session)
    (hfragment : fragment .data payload msgId capacity tag ttl = .ok packets)
    (htag : Tags.computeTag P session.recvTagKey (Tags.currentEpoch sentAt) = .ok tag)
    (hreassembler : node.reassembler = Reassembler.afterAll before r)
    (hsize : payload.length ≤ r.maxBytes) {data : Bytes β}
    (hdecode : Packet.decode data = .ok packet) (rssi : Option ℚ) :
    node.arrives P data env = some (packet, payload) ∧ packet.ptype = .data ∧
      node.sessions.sessionByTag P packet.dstTag env.dataNow = .ok (some (k, session)) := by
  have hf := fragments_of_fragment hfragment
  obtain ⟨q, hq, t, ht, hcopy⟩ := h.copy
  have hptype : packet.ptype = .data := by
    rw [hcopy]
    exact (hf.fields q hq).2.1
  have hmsgId : packet.msgId = msgId := by
    rw [hcopy]
    exact (hf.fields q hq).2.2
  have hdstTag : packet.dstTag = tag := by
    rw [hcopy]
    exact ((fragment_ok hfragment).2.2 q hq).1
  rw [← hdstTag] at htag
  have hours : Node.isForUs P env.tagNow packet node = .ok true := by
    unfold Node.isForUs
    split_ifs with hbroadcast hinit
    · rfl
    · rw [hptype] at hinit
      cases hinit
    · rw [h.sessionByTag hs htag List.mem_cons_self]
      rfl
  refine ⟨(Node.arrives_eq_some_iff rssi).mpr ⟨?_, ?_⟩, hptype, h.sessionByTag hs htag (by simp)⟩
  · rw [Node.feeds, hdecode]
    show node.feedsPacket P packet env = _
    rw [Node.feedsPacket, if_pos h.unseen, hours]
  · rw [hreassembler]
    exact Reassembler.add_copies hfragment (hmsgId ▸ h.room) hsize (hmsgId ▸ h.own) h.copy h.missing
      h.complete

end Ready

namespace Conversation

variable {T : Side → Transport β τ} {key : Side → Bytes β} {k : Bytes β} {a r : X}
  {c : Conversation T X E} {keys : Bytes β × Bytes β × Bytes β}

/-! ## The frames of a text -/

omit [DecidableEq β] in
lemma mapM_decode_frames {mtu : ℕ} {padding : PaddingPolicy} {packets : List (Packet β)}
    {frames : List (Bytes β)}
    (hframes : List.Forall₂ (fun packet frame => Node.frameOf mtu padding packet = .ok frame)
      packets frames)
    (hversion : ∀ packet ∈ packets, packet.version = VERSION) :
    frames.mapM Packet.decode = .ok packets := by
  induction hframes with
  | nil => rfl
  | cons hframe _ ih =>
    obtain ⟨hfirst, hrest⟩ := List.forall_mem_cons.mp hversion
    rw [List.mapM_cons, Node.decode_frameOf hframe hfirst, ih hrest]
    rfl

/-- What a side hands to its transport when `send_text` returns `True`. -/
lemma Follows.sends (h : c.Follows P key k a r) (hP : P.Correct) (htagged : c.Tagged key keys)
    {side : Side} {text : String} {env : SendEnv β} {node' : Node (T side) X E}
    (hsend : Node.sendText P (key side.peer) text env (c.node side) = (.ok true, node')) :
    ∃ frames packets header encoded ct tag msgId capacity ttl,
      node'.handed = (c.node side).handed ++ frames ∧
      frames.mapM Packet.decode = .ok packets ∧
      fragment .data (encoded ++ ct) msgId capacity tag ttl = .ok packets ∧
      Tags.computeTag P (sendKey keys side) (Tags.currentEpoch env.wallNow) = .ok tag ∧
      header.encode = .ok encoded ∧ header.ratchetPub.length = 32 ∧
      ∃ m ∈ (c.step P key (side, .sendText (key side.peer) text env)).run.sent,
        m.side = side ∧ m.header = header ∧ m.ad = [] ∧ m.ciphertext = ct ∧
        m.plaintext = Node.textPayload env text := by
  obtain ⟨session, session', frames, hs, hemits, hhanded⟩ := Node.sendText_true hsend
  obtain ⟨blob, tag, msgId, capacity, ttl, padding, packets, htagged', hfragment, hframes⟩ :=
    hemits.packets
  obtain ⟨henc, htag⟩ := Session.encryptTagged_ok_iff.mp htagged'
  obtain ⟨header, encoded, ct, st, hratchet, hencode, rfl, -⟩ := Session.encrypt_ok_iff.mp henc
  obtain ⟨session₀, hs₀, hsame⟩ := h.session side
  obtain rfl := Option.some.inj (hs₀.symm.trans hs)
  rw [hsame] at hratchet
  have hdecode := mapM_decode_frames hframes fun packet hp =>
    ((fragment_ok hfragment).2.2 packet hp).2
  refine ⟨frames, packets, header, encoded, ct, tag, msgId, capacity, ttl, hhanded, hdecode,
    hfragment, ?_, hencode, ?_, ?_⟩
  · rw [Session.currentSendTag_encrypt henc] at htag
    have hkey : session₀.sendTagKey = sendKey keys side := congrArg Prod.fst (htagged side _ hs)
    rw [← hkey]
    exact htag
  · obtain ⟨cks, encoded', -, rfl, -⟩ := (DoubleRatchet.encrypt_ok_iff hP).mp hratchet
    exact hP.length_x25519Public _
  · rw [step_run, ratchetEvent_sendText]
    show ∃ m ∈ (c.run.afterEncrypt P side (Node.textPayload env text) []).sent, _
    rw [RatchetRun.afterEncrypt, hratchet]
    exact ⟨_, List.mem_append_right _ (List.mem_singleton_self _), rfl, rfl, rfl, rfl, rfl⟩

/-- A message of the other side that arrives whole is heard, now or before. -/
lemma Follows.hears (h : c.Follows P key k a r) (hP : P.Correct) (hH : P.HashIdeal)
    (hD : P.DhIdeal) {side : Side} {m : Sent β} (hm : m ∈ c.run.sent) (hside : m.side = side.peer)
    {env : SendEnv β} {text : String} (hplaintext : m.plaintext = Node.textPayload env text)
    (htime : env.timestamp.length = 8) (hev : m.header.index ∉ c.run.evicted side)
    (hskip : (c.run.ratchet side).SkipsWithin m.header) (hpub : m.header.ratchetPub.length = 32)
    {encoded : Bytes β} (hencode : m.header.encode = .ok encoded) {data : Bytes β}
    {rssi : Option ℚ} {renv : ReceiveEnv β X} {packet : Packet β} {session : Session β X}
    (harrives : (c.node side).arrives P data renv = some (packet, encoded ++ m.ciphertext))
    (hptype : packet.ptype = .data)
    (htag : (c.node side).sessions.sessionByTag P packet.dstTag renv.dataNow =
      .ok (some (key side.peer, session))) :
    (env.timestamp, text) ∈
      ((c.step P key (side, .inbound (.frame data rssi renv))).heard key side).map
        IncomingMessage.content := by
  have hpeer : m.side.peer = side := by rw [hside, Side.peer_peer]
  have htext : textOf m.plaintext = some (env.timestamp, text) := by
    rw [hplaintext, textOf_textPayload htime]
  rw [Conversation.heard_step, if_pos rfl, List.mem_append]
  by_cases hnew : m.delivery ∈ c.run.accepted
  · -- it has been accepted before
    refine Or.inl ?_
    rw [h.heard side, RatchetRun.acceptedTexts]
    exact List.mem_filterMap.mpr ⟨m.delivery,
      List.mem_filter.mpr ⟨hnew, decide_eq_true hpeer⟩, htext⟩
  · refine Or.inr ?_
    subst hpeer
    have hopens := RatchetRun.genuine_decrypts hP hH hD h.run hm hnew hev hskip renv.fresh
    have hlen := MessageHeader.length_of_encode hencode
    have htake : (encoded ++ m.ciphertext).take RATCHET_HEADER_LEN = encoded :=
      List.take_left' (by rw [hlen, hpub]; rfl)
    have hdrop : (encoded ++ m.ciphertext).drop RATCHET_HEADER_LEN = m.ciphertext :=
      List.drop_left' (by rw [hlen, hpub]; rfl)
    obtain ⟨message, hmessage, hkey, hcontent⟩ := (h.handed_text_iff hP m.side.peer
      (.inbound (.frame data rssi renv)) (env.timestamp, text)).mpr
      ⟨m.header, m.ciphertext, renv.fresh, by
        rw [ratchetEvent, Node.callOf_eq_decrypt_iff.mpr ⟨data, rssi, renv, packet, session, rfl,
          harrives, hptype, htag, rfl⟩, Option.bind_some, Call.ratchetEvent, if_pos rfl, htake,
          MessageHeader.decode_encode hencode hpub, hdrop],
        by rw [← h.no_ad m hm, hopens]; exact htext⟩
    rw [hmessage, ← hcontent]
    refine List.mem_map_of_mem (List.mem_filter.mpr ⟨List.mem_singleton_self _, ?_⟩)
    exact decide_eq_true hkey

/-- A side sends a text. Whatever happens after that: when the frame comes to the other side that
completes those of the text, while its key can still be reached, its application has been handed
the text. -/
theorem delivers (hP : P.Correct) (hH : P.HashIdeal) (hD : P.DhIdeal)
    {node : (side : Side) → Node (T side) X E} {initiator responder : Session β X}
    (h : Met P key node keys a r initiator responder)
    (hrun : Reaches (Admissible P key) (Conversation.step P key)
      (begin P node a r initiator responder) c) {side : Side} {text : String} {env : SendEnv β}
    (htime : env.timestamp.length = 8) {node' : Node (T side) X E}
    (hsend : Node.sendText P (key side.peer) text env (c.node side) = (.ok true, node')) :
    ∃ frames packets header,
      node'.handed = (c.node side).handed ++ frames ∧
      frames.mapM Packet.decode = .ok packets ∧
      MessageHeader.decode ((packets.map Packet.payload).flatten.take RATCHET_HEADER_LEN) =
        .ok header ∧
      ∀ (events : List (Side × NodeEvent β X)) (data : Bytes β) (rssi : Option ℚ)
        (renv : ReceiveEnv β X) (packet : Packet β),
        let sent := c.step P key (side, .sendText (key side.peer) text env)
        let before := events.foldl (Conversation.step P key) sent
        AdmitsAll (Admissible P key) (Conversation.step P key) sent events →
        (packets.map Packet.payload).flatten.length ≤ (c.node side.peer).reassembler.maxBytes →
        Packet.decode data = .ok packet →
        Ready P (key side) env.wallNow packets
          ((sent.node side.peer).fedBy P (eventsOf side.peer events))
          (c.node side.peer).reassembler (before.node side.peer) packet renv →
        header.index ∉ before.run.evicted side.peer →
        (before.run.ratchet side.peer).SkipsWithin header →
        (env.timestamp, text) ∈
          ((before.step P key (side.peer, .inbound (.frame data rssi renv))).heard key
            side.peer).map IncomingMessage.content := by
  obtain ⟨hfollows, htagged⟩ := h.invariant hP hrun
  obtain ⟨frames, packets, header, encoded, ct, tag, msgId, capacity, ttl, hhanded, hdecode,
    hfragment, htag, hencode, hpub, m, hm, hside, rfl, had, rfl, hplaintext⟩ :=
    hfollows.sends hP htagged hsend
  have hflatten := flatten_fragment hfragment
  have hlen := MessageHeader.length_of_encode hencode
  refine ⟨frames, packets, m.header, hhanded, hdecode, ?_, ?_⟩
  · rw [hflatten, List.take_left' (by rw [hlen, hpub]; rfl)]
    exact MessageHeader.decode_encode hencode hpub
  intro events data rssi renv packet sent before hadmits hsize hpacket hready hev hskip
  -- the invariants hold where the last frame arrives, too
  have hsent := hrun.tail (admissible_sendText c side text htime)
  obtain ⟨hfollows', htagged'⟩ := h.invariant hP (hsent.run hadmits)
  obtain ⟨session, hs, -⟩ := hfollows'.session side.peer
  have hkeys := htagged' side.peer session hs
  rw [Side.peer_peer] at hs hkeys
  -- the other reassembler has had what its node was handed since, and nothing of the sending
  have hsame : (sent.node side.peer).reassembler = (c.node side.peer).reassembler := by
    rw [step_node, Function.update_of_ne (Side.peer_ne side)]
  have hreassembler : (before.node side.peer).reassembler =
      Reassembler.afterAll ((sent.node side.peer).fedBy P (eventsOf side.peer events))
        (c.node side.peer).reassembler := by
    rw [node_foldl, Node.reassembler_run, hsame]
  rw [hflatten] at hsize
  have hkey : session.recvTagKey = sendKey keys side := congrArg Prod.snd hkeys
  obtain ⟨harrives, hptype, hfound⟩ := hready.arrives hs hfragment (by rw [hkey]; exact htag)
    hreassembler hsize hpacket rssi
  exact hfollows'.hears hP hH hD (sent_foldl events sent hm) (hside.trans (Side.peer_peer _).symm)
    hplaintext htime hev hskip hpub hencode harrives hptype (by rw [Side.peer_peer]; exact hfound)

/-! ## A text of two packets -/

open LabelRun

/-- A link with room for 57 bytes of payload. -/
def narrowLink : Transport SymByte Unit := { Node.openLink with mtu := 80 }

def narrowNode (side : Side) : Node narrowLink ℕ ℕ where
  transport := ()
  sessions := (meetingNode side).sessions
  capacity := 57
  capacity_eq := rfl

/-- Bob and Alice on the narrow link. -/
def narrow : Conversation (fun _ => narrowLink) ℕ ℕ :=
  begin symbolic narrowNode 13 23 bobsSession alicesSession

lemma met_narrow : Met symbolic meetingKey narrowNode meetingKeys 13 23 bobsSession
    alicesSession where
  manager side := by
    cases side with
    | initiator => exact reachable_bobsManager
    | responder => exact reachable_met
  session_initiator := met_meeting.session_initiator
  session_responder := met_meeting.session_responder
  paired := paired_meeting
  ne := by decide

/-- Half of a broadcast, whose other half never comes. -/
def half : Packet SymByte :=
  .ofFields .beacon [] (ascii "announce") broadcastTag 7 0 2 (by decide)

/-- Alice waits for the other half when Bob sends his text. -/
def waiting : Conversation (fun _ => narrowLink) ℕ ℕ :=
  narrow.step symbolic meetingKey (hears half 1 43)

def told : Conversation (fun _ => narrowLink) ℕ ℕ :=
  waiting.step symbolic meetingKey (.initiator, .sendText (meetingKey .responder) "hi" bobsEnv)

/-- The two packets of his text. -/
def pieces : List (Packet SymByte) :=
  ((told.node .initiator).handed.mapM Packet.decode).toOption.getD []

def piece (i : ℕ) : Packet SymByte := pieces.getD i half

/-- The piece as a relay sends it on. -/
def relayed (i : ℕ) : Packet SymByte := (piece i).decrementTtl.getD half

/-- The piece after two relays. -/
def relayedTwice (i : ℕ) : Packet SymByte := (relayed i).decrementTtl.getD half

def repeats : List (Side × NodeEvent SymByte ℕ) := [hears (relayed 1) 2 44, hears (piece 1) 3 45]

lemma half_admissible : narrow.Admissible symbolic meetingKey (hears half 1 43) :=
  admissible_of_callOf_none _ (by decide +kernel)

lemma sendText_waiting : ∃ node', Node.sendText symbolic (meetingKey .responder) "hi" bobsEnv
    (waiting.node .initiator) = (.ok true, node') ∧
      node'.handed.mapM Packet.decode = .ok [piece 0, piece 1] := by
  have hok : (Node.sendText symbolic (meetingKey .responder) "hi" bobsEnv
    (waiting.node .initiator)).1.toOption = some true := by decide +kernel
  have hpieces : ((Node.sendText symbolic (meetingKey .responder) "hi" bobsEnv
    (waiting.node .initiator)).2.handed.mapM Packet.decode).toOption =
      some [piece 0, piece 1] := by decide +kernel
  revert hok hpieces
  generalize Node.sendText symbolic (meetingKey .responder) "hi" bobsEnv
    (waiting.node .initiator) = result
  obtain ⟨err | sent, node'⟩ := result
  · intro hok
    cases hok
  · intro hok hpieces
    obtain rfl := Option.some.inj hok
    refine ⟨node', rfl, ?_⟩
    rcases hdecode : node'.handed.mapM Packet.decode with err | packets
    · rw [hdecode] at hpieces
      cases hpieces
    · rw [hdecode] at hpieces
      exact congrArg Except.ok (Option.some.inj hpieces)

/-- Of what comes before the last piece, the reassembler is fed the first copy of the other one. -/
lemma fedBy_repeats : (told.node .responder).fedBy symbolic (eventsOf .responder repeats) =
    [(relayed 1, 2)] := by decide +kernel

lemma relayed_copyOf : (relayed 1).CopyOf (piece 1) :=
  Packet.copyOf_of_decrementTtl (by decide +kernel)

lemma relayedTwice_copyOf : (relayedTwice 0).CopyOf (piece 0) :=
  (Packet.copyOf_of_decrementTtl (show (relayed 0).decrementTtl = some (relayedTwice 0) by
    decide +kernel)).trans (Packet.copyOf_of_decrementTtl (by decide +kernel))

lemma ready_narrow : Ready symbolic (meetingKey .initiator) bobsEnv.wallNow [piece 0, piece 1]
    [(relayed 1, 2)] (waiting.node .responder).reassembler
    ((repeats.foldl (Conversation.step symbolic meetingKey) told).node .responder)
    (relayedTwice 0) (arrivalAt 4 46) where
  unseen := by decide +kernel
  time := by decide +kernel
  alone := by decide +kernel
  room := ⟨by decide +kernel, by decide +kernel, by decide +kernel⟩
  own := by
    intro call hcall _
    obtain rfl := List.mem_singleton.mp hcall
    exact ⟨piece 1, by simp, relayed_copyOf⟩
  copy := ⟨piece 0, by simp, relayedTwice_copyOf⟩
  missing := by
    intro hall
    obtain ⟨call, hcall, hcopy⟩ := hall (piece 0) List.mem_cons_self
    obtain rfl := List.mem_singleton.mp hcall
    exact absurd hcopy.fragIndex (by decide +kernel)
  complete := by
    intro q hq
    rcases List.mem_pair.mp hq with rfl | rfl
    · exact ⟨_, List.mem_append_right _ (List.mem_singleton_self _), relayedTwice_copyOf⟩
    · exact ⟨_, List.mem_cons_self, relayed_copyOf⟩

lemma repeats_admissible :
    AdmitsAll (Admissible symbolic meetingKey) (Conversation.step symbolic meetingKey) told
      repeats :=
  ⟨admissible_of_callOf_none _ (by decide +kernel),
    admissible_of_callOf_none _ (by decide +kernel), trivial⟩

/-- Bob's text reaches Alice in two packets, the second one first, over a relay and once more
without it, and the first one over two relays, while she waits for the rest of another message. -/
theorem delivers_narrow :
    (zeros 8, "hi") ∈ (((repeats.foldl (Conversation.step symbolic meetingKey) told).step symbolic
      meetingKey (hears (relayedTwice 0) 4 46)).heard meetingKey .responder).map
        IncomingMessage.content := by
  obtain ⟨node', hsend, hpieces⟩ := sendText_waiting
  have hwaiting : Reaches (Admissible symbolic meetingKey) (Conversation.step symbolic meetingKey)
      narrow waiting := (Reaches.refl _).tail half_admissible
  obtain ⟨frames, packets, header, hhanded, hdecode, hheader, hall⟩ :=
    delivers symbolic_correct symbolic_hashIdeal symbolic_dhIdeal met_narrow hwaiting
      (show bobsEnv.timestamp.length = 8 from rfl) hsend
  have hnone : (waiting.node .initiator).handed = [] := by decide +kernel
  rw [hhanded, hnone, List.nil_append] at hpieces
  obtain rfl : packets = [piece 0, piece 1] := Except.ok.inj (hdecode.symm.trans hpieces)
  have hindex : (MessageHeader.decode (([piece 0, piece 1].map Packet.payload).flatten.take
      RATCHET_HEADER_LEN)).toOption.map (fun header => (header.pn, header.n)) = some (0, 0) := by
    decide +kernel
  rw [hheader] at hindex
  obtain ⟨hpn, hn⟩ := Prod.mk.inj (Option.some.inj hindex)
  let before := repeats.foldl (Conversation.step symbolic meetingKey) told
  have hfirst : (before.run.ratchet .responder).dhrPub = none := by decide +kernel
  have hne : (before.run.ratchet .responder).dhrPub ≠ some header.ratchetPub :=
    fun h => Option.some_ne_none _ (h.symm.trans hfirst)
  have hskip : (before.run.ratchet .responder).SkipsWithin header :=
    Or.inr (Eq.mpr (if_neg hne) ⟨(Nat.sub_le _ _).trans (hpn.le.trans (Nat.zero_le _)),
      hn.le.trans (Nat.zero_le _)⟩)
  have hevicted : before.run.evicted .responder = [] := by decide +kernel
  have hev : header.index ∉ before.run.evicted .responder := by
    rw [hevicted]
    exact List.not_mem_nil
  have hpacket : Packet.decode ((relayedTwice 0).header ++ (relayedTwice 0).payload) =
      .ok (relayedTwice 0) := by
    rw [← List.append_nil ((relayedTwice 0).header ++ (relayedTwice 0).payload)]
    exact Packet.decode_append (by decide +kernel) []
  exact hall repeats _ none (arrivalAt 4 46) (relayedTwice 0) repeats_admissible (by decide +kernel)
    hpacket (fedBy_repeats ▸ ready_narrow) hev hskip

end Conversation

end Chatbit
