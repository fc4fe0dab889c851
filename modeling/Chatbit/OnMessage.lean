import Chatbit.Conversation

/-!
# What the callback is called with

`on_message` of `chatbit/node.py` is the application's, and a call of it shows in what it raises. A
turn of the receive loop calls it with the message that `Node.hands` reads off the frame, and with
no other (`hands_iff_notifies`).
-/

namespace Chatbit

open Lib Method

variable {β X E τ : Type} [Alphabet β] [DecidableEq β] {P : Primitives β X E}

namespace Node

variable {T : Transport β τ} {node : Node T X E}

/-! ## The message of a frame -/

/-- The message of a data payload: the session of the tag decrypts it to a text. -/
lemma incoming_eq_some_iff {packet : Packet β} {payload : Bytes β} {env : ReceiveEnv β X}
    {message : IncomingMessage β} :
    node.incoming P packet payload env = some message ↔
      ∃ k session plaintext timestamp body peer,
        node.sessions.sessionByTag P packet.dstTag env.dataNow = .ok (some (k, session)) ∧
        (Session.decrypt P payload env.fresh session).1 = .ok plaintext ∧
        decodeMessage plaintext = .ok (.text, timestamp, body) ∧
        node.sessions.peerOf session = some peer ∧
        message = {
          peer := peer, kind := .text, text := decodeReplace body, timestamp := timestamp
          verified := peer.verified, rssi := node.lastRssi } := by
  constructor
  · intro h
    unfold incoming at h
    split at h
    · rename_i k session htag
      split at h
      · rename_i plaintext hdecrypt
        split at h
        · rename_i timestamp body peer hdecode hpeer
          exact ⟨k, session, plaintext, timestamp, body, peer, htag, hdecrypt, hdecode, hpeer,
            (Option.some.inj h).symm⟩
        · cases h
      · cases h
    · cases h
  · rintro ⟨k, session, plaintext, timestamp, body, peer, htag, hdecrypt, hdecode, hpeer, rfl⟩
    simp only [incoming, htag, hdecrypt, hdecode, hpeer]

/-- A message is handed over when a data frame completes a payload that the session of its tag
decrypts to a text. -/
lemma hands_eq_some_iff {event : NodeEvent β X} {message : IncomingMessage β} :
    node.hands P event = some message ↔
      ∃ data rssi env packet payload,
        event = .inbound (.frame data rssi env) ∧
        node.arrives P data env = some (packet, payload) ∧ packet.ptype = .data ∧
        incoming P { node with lastRssi := rssi } packet payload env = some message := by
  constructor
  · intro h
    unfold hands at h
    split at h
    · rename_i data rssi env
      obtain ⟨⟨packet, payload⟩, harrives, h⟩ := Option.bind_eq_some_iff.mp h
      dsimp only at h
      split_ifs at h with hptype
      exact ⟨data, rssi, env, packet, payload, rfl, harrives, hptype, h⟩
    · cases h
  · rintro ⟨data, rssi, env, packet, payload, rfl, harrives, hptype, h⟩
    rw [hands, harrives, Option.bind_some]
    exact (if_pos hptype).trans h

/-- A payload arrives with the frame of the packet that completes it. -/
lemma arrives_iff_completes {data : Bytes β} {env : ReceiveEnv β X} {packet : Packet β}
    {payload : Bytes β} : node.arrives P data env = some (packet, payload) ↔
      Packet.decode data = .ok packet ∧ node.completes P packet env = some payload := by
  rw [arrives]
  rcases Packet.decode data with err | packet'
  · simp
  · simp only [Except.ok.injEq, Option.map_eq_some_iff, Prod.mk.injEq]
    constructor
    · rintro ⟨payload', hcompletes, rfl, rfl⟩
      exact ⟨rfl, hcompletes⟩
    · rintro ⟨rfl, hcompletes⟩
      exact ⟨payload, hcompletes, rfl, rfl⟩

/-! ## Where handling a frame returns -/

/-- A frame is handled without an exception if it is not new, not for us, or delivered so. -/
lemma handle_ok_iff (packet : Packet β) (env : ReceiveEnv β X) (node : Node T X E) :
    (handle P packet env node).1 = .ok () ↔ (Router.Unseen packet env.now node.router →
      isForUs P env.tagNow packet node = .ok false ∨
        isForUs P env.tagNow packet node = .ok true ∧ node.Delivers P packet env) := by
  by_cases hunseen : Router.Unseen packet env.now node.router
  · rw [imp_iff_right hunseen]
    rcases hours : isForUs P env.tagNow packet node with err | ours
    · rw [handle, Router.handle_of_unseen (isForUs_setRouter P env.tagNow packet) (deliver P env)
        hunseen, hours]
      refine iff_of_false (fun h => ?_) (by simp)
      cases h
    cases ours with
    | false =>
      rw [handle, Router.handle_of_unseen (isForUs_setRouter P env.tagNow packet) (deliver P env)
        hunseen, hours]
      exact iff_of_true rfl (.inl rfl)
    | true =>
      rw [handle, Router.handle_of_ours router_setRouter setRouter_setRouter
        (isForUs_setRouter P env.tagNow packet) (deliver P env) hunseen hours, bind_apply]
      have hdeliver : (deliver P env packet
          (node.setRouter (Router.delivering packet env.now node.router))).1 = .ok () ↔
            node.Delivers P packet env := deliver_ok_iff
      simp only [true_and, Except.ok.injEq, Bool.true_eq_false, false_or]
      rw [← hdeliver]
      rcases deliver P env packet (node.setRouter (Router.delivering packet env.now node.router))
        with ⟨err | ⟨⟩, node'⟩
      · exact Iff.rfl
      · exact iff_of_true rfl rfl
  · rw [handle, Router.handle, bind_apply, onField_apply,
      Router.accept_of_seen (not_not.mp hunseen)]
    exact iff_of_true rfl fun h => absurd h hunseen

/-- A data payload that is a text to hand over is taken as the callback takes the text. -/
lemma takesData_iff_passes {packet : Packet β} {payload : Bytes β} {env : ReceiveEnv β X}
    {message : IncomingMessage β} (h : node.incoming P packet payload env = some message)
    (onMessage : IncomingMessage β → Except (Exc β) Unit) :
    TakesData P { node with onMessage := some onMessage } packet payload env ↔
      node.Passes (onMessage message) True := by
  obtain ⟨k, session, plaintext, timestamp, body, peer, htag, hdecrypt, hdecode, hpeer, rfl⟩ :=
    incoming_eq_some_iff.mp h
  unfold TakesData
  simp only [htag]
  unfold Method.wp
  rcases hopened : Session.decrypt P payload env.fresh session with ⟨opened, session'⟩
  obtain rfl : opened = .ok plaintext := by rw [← hdecrypt, hopened]
  simp only [TakesPlaintext, hdecode, hpeer]
  exact Iff.rfl

/-- Any other is not shown to the callback. -/
lemma takesData_congr {packet : Packet β} {payload : Bytes β} {env : ReceiveEnv β X}
    (h : node.incoming P packet payload env = none)
    (onMessage onMessage' : IncomingMessage β → Except (Exc β) Unit) :
    TakesData P { node with onMessage := some onMessage } packet payload env ↔
      TakesData P { node with onMessage := some onMessage' } packet payload env := by
  unfold incoming at h
  unfold TakesData
  rcases htag : node.sessions.sessionByTag P packet.dstTag env.dataNow with err | _ | ⟨k, session⟩
  · exact Iff.rfl
  · exact Iff.rfl
  simp only [htag] at h ⊢
  unfold Method.wp
  rcases hopened : Session.decrypt P payload env.fresh session with ⟨err | plaintext, session'⟩
  · exact Iff.rfl
  simp only [hopened] at h ⊢
  unfold TakesPlaintext
  rcases hdecode : decodeMessage plaintext with err | ⟨kind, timestamp, body⟩
  · exact Iff.rfl
  simp only [hdecode] at h
  cases kind with
  | text =>
    rcases hpeer : node.sessions.peerOf session with _ | peer
    · exact Iff.rfl
    · rw [hpeer] at h
      cases h
  | ack | nick => exact Iff.rfl

/-- A frame that completes a payload is handled as the payload is. -/
lemma handle_ok_iff_handles {packet : Packet β} {env : ReceiveEnv β X} {payload : Bytes β}
    (h : node.completes P packet env = some payload) :
    (handle P packet env node).1 = .ok () ↔ node.Handles P packet payload env := by
  rw [handle_ok_iff]
  unfold completes at h
  split at h
  · rename_i hunseen
    split at h
    · rename_i payload' hours hadd
      obtain rfl := Option.some.inj h
      rw [imp_iff_right hunseen, hours, Delivers, Method.wp]
      rcases hadded : Reassembler.add packet env.reassemblyNow node.reassembler with ⟨added, after⟩
      obtain rfl : added = .ok (some payload') := by rw [← hadd, hadded]
      simp
    · cases h
  · cases h

/-- Any other does not reach the callback. -/
lemma handle_ok_congr {packet : Packet β} {env : ReceiveEnv β X}
    (h : node.completes P packet env = none)
    (onMessage onMessage' : IncomingMessage β → Except (Exc β) Unit) :
    (handle P packet env { node with onMessage := some onMessage }).1 = .ok () ↔
      (handle P packet env { node with onMessage := some onMessage' }).1 = .ok () := by
  rw [handle_ok_iff, handle_ok_iff]
  refine imp_congr_right fun hunseen => or_congr_right (and_congr_right fun hours => ?_)
  have hnone : ∀ payload, (Reassembler.add packet env.reassemblyNow node.reassembler).1 ≠
      .ok (some payload) := fun payload hadd => by
    have hunseen : Router.Unseen packet env.now node.router := hunseen
    have hours : isForUs P env.tagNow packet node = .ok true := hours
    rw [completes, if_pos hunseen, hours, hadd] at h
    cases h
  unfold Delivers Method.wp
  dsimp only
  rcases hadded : Reassembler.add packet env.reassemblyNow node.reassembler with
    ⟨err | _ | payload, after⟩
  · exact Iff.rfl
  · simp
  · exact absurd (congrArg Prod.fst hadded) (hnone payload)

/-! ## The calls -/

/-- `router.handle` hands this message to the application: whatever the callback is, it returns
where the callback on the message does, or raises what `_deliver` catches. -/
def Notifies (P : Primitives β X E) (node : Node T X E) (packet : Packet β)
    (env : ReceiveEnv β X) (message : IncomingMessage β) : Prop :=
  ∀ onMessage, (handle P packet env { node with onMessage := some onMessage }).1 = .ok () ↔
    node.Passes (onMessage message) True

/-- Either a frame completes a text, which the callback is called with, or the callback does not
matter. -/
lemma notifies_cases (P : Primitives β X E) (node : Node T X E) (packet : Packet β)
    (env : ReceiveEnv β X) :
    (∃ payload message, node.completes P packet env = some payload ∧ packet.ptype = .data ∧
      node.incoming P packet payload env = some message ∧
      node.Notifies P packet env message) ∨
    (∀ payload, node.completes P packet env = some payload → packet.ptype = .data →
      node.incoming P packet payload env = none) ∧ ∀ onMessage onMessage',
        (handle P packet env { node with onMessage := some onMessage }).1 = .ok () ↔
          (handle P packet env { node with onMessage := some onMessage' }).1 = .ok () := by
  rcases hcompletes : node.completes P packet env with _ | payload
  · exact .inr ⟨fun _ h => absurd h (Option.some_ne_none _).symm, handle_ok_congr hcompletes⟩
  have hhandled : ∀ onMessage,
      (handle P packet env { node with onMessage := some onMessage }).1 = .ok () ↔
        Handles P { node with onMessage := some onMessage } packet payload env :=
    fun onMessage => handle_ok_iff_handles hcompletes
  simp only [hhandled, Notifies, Option.some.injEq, forall_eq']
  unfold Handles
  by_cases hptype : packet.ptype = .data
  · simp only [hptype, true_and, forall_true_left]
    rcases hincoming : node.incoming P packet payload env with _ | message
    · exact .inr ⟨rfl, takesData_congr hincoming⟩
    · exact .inl ⟨payload, message, rfl, hincoming, takesData_iff_passes hincoming⟩
  · refine .inr ⟨fun h => absurd h hptype, fun _ _ => ?_⟩
    cases h : packet.ptype with
    | data => exact absurd h hptype
    | _ => exact Iff.rfl

/-- `router.handle` calls the callback with a message exactly if the frame completes this text. -/
theorem notifies_iff {packet : Packet β} {env : ReceiveEnv β X} {message : IncomingMessage β} :
    node.Notifies P packet env message ↔ ∃ payload, node.completes P packet env = some payload ∧
      packet.ptype = .data ∧ node.incoming P packet payload env = some message := by
  classical
  -- a callback that returns on this message only
  let only : IncomingMessage β → Except (Exc β) Unit := fun m =>
    if m = message then .ok () else .error .assertionError
  have honly : only message = .ok () := if_pos rfl
  rcases notifies_cases P node packet env with
    ⟨payload, message', hcompletes, hptype, hincoming, h⟩ | ⟨hnone, hcongr⟩
  · constructor
    · intro hmessage
      have hpasses : node.Passes (only message') True := by
        rw [← h only, hmessage only, honly]
        trivial
      obtain rfl : message' = message := by
        by_contra hne
        rw [show only message' = .error .assertionError from if_neg hne] at hpasses
        exact hpasses
      exact ⟨payload, hcompletes, hptype, hincoming⟩
    · rintro ⟨payload', hcompletes', -, hincoming'⟩
      obtain rfl := Option.some.inj (hcompletes.symm.trans hcompletes')
      obtain rfl := Option.some.inj (hincoming.symm.trans hincoming')
      exact h
  · refine iff_of_false (fun hmessage => ?_) ?_
    · have hraised := (hmessage fun _ => .error .assertionError).mp
        ((hcongr only _).mp ((hmessage only).mpr (by rw [honly]; trivial)))
      exact hraised
    · rintro ⟨payload, hcompletes, hptype, hincoming⟩
      rw [hnone payload hcompletes hptype] at hincoming
      cases hincoming

/-- What an event hands over is what the callback is called with. -/
theorem hands_iff_notifies {data : Bytes β} {rssi : Option ℚ} {env : ReceiveEnv β X}
    {message : IncomingMessage β} :
    node.hands P (.inbound (.frame data rssi env)) = some message ↔
      ∃ packet, Packet.decode data = .ok packet ∧
        Notifies P { node with lastRssi := rssi } packet env message := by
  simp only [notifies_iff]
  constructor
  · intro h
    obtain ⟨data', rssi', env', packet, payload, hevent, harrives, hptype, hincoming⟩ :=
      hands_eq_some_iff.mp h
    cases hevent
    obtain ⟨hdecode, hcompletes⟩ := arrives_iff_completes.mp harrives
    exact ⟨packet, hdecode, payload, hcompletes, hptype, hincoming⟩
  · rintro ⟨packet, hdecode, payload, hcompletes, hptype, hincoming⟩
    exact hands_eq_some_iff.mpr ⟨data, rssi, env, packet, payload, rfl,
      arrives_iff_completes.mpr ⟨hdecode, hcompletes⟩, hptype, hincoming⟩

end Node

end Chatbit
