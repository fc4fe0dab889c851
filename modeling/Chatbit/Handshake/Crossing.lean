import Chatbit.Crypto.IdentityTheorems
import Chatbit.SessionRun

/-!
# Handshakes that cross

Two honest session managers and the handshake payloads on their way between them. Either may start
a handshake at any time, and any payload in flight may be the next to arrive. Each keeps one
session for the other: the initiator replaces it when it accepts a RESP, the responder when it
accepts the FIN. A FIN in flight therefore carries the session that its sender made with it, which
the network does not see.
-/

namespace Chatbit

open Lib HandshakeState

variable {β X E : Type} [Alphabet β] [DecidableEq β]

inductive Party where
  | left | right
deriving DecidableEq

def Party.other : Party → Party
  | left => right
  | right => left

@[simp] lemma Party.other_other (p : Party) : p.other.other = p := by cases p <;> rfl

lemma Party.other_ne (p : Party) : p.other ≠ p := by cases p <;> simp [other]

lemma Party.eq_or_eq_other (p q : Party) : q = p ∨ q = p.other := by
  cases p <;> cases q <;> simp [other]

deriving instance DecidableEq for DoubleRatchet, Session

/-- The entry that a FIN belongs to opens it. -/
def SessionManager.Opens (P : Primitives β X E) (manager : SessionManager β X E)
    (payload : Bytes β) : Prop :=
  ∃ pending ∈ manager.pending.get? (payload.take HS_ID_LEN), pending.initiator = false ∧
    (readMessage3 P (payload.drop HS_ID_LEN) pending.handshake).1.isOk

/-- A handshake payload in flight. -/
inductive Payload (β X : Type) where
  | init (payload : Bytes β)
  | response (payload : Bytes β)
  | fin (payload : Bytes β) (made : Session β X)

/-- The session that the sender made when it sent the payload. -/
def Payload.made : Payload β X → Option (Session β X)
  | fin _ made => some made
  | _ => none

structure Duo (β X E : Type) where
  manager : Party → SessionManager β X E
  /-- Payloads, each with the party that it is on its way to. -/
  flight : List (Party × Payload β X)

inductive DuoEvent (β X : Type) where
  | start (p : Party) (hsId : Bytes β) (ephemeral : X) (now startedAt wallNow : ℚ)
  /-- The payload at this place arrives. `handle_init` draws both keys, `handle_response` draws
  the first. -/
  | deliver (i : ℕ) (ephemeral ratchetPrivate : X) (now later : ℚ)

namespace Duo

variable (P : Primitives β X E)

def initial (identity : Party → Identity X E) (trust : Party → TrustStore β) : Duo β X E where
  manager p := { identity := identity p, trust := trust p }
  flight := []

/-- The session that a party holds for the other. -/
def session (duo : Duo β X E) (p : Party) : Option (Session β X) :=
  (duo.manager p).sessionFor ((duo.manager p.other).identity.signingPublic P)

/-- After a call at `p`, which leaves `manager` and sends the payloads `sent` to the other. -/
def afterCall (duo : Duo β X E) (p : Party) (manager : SessionManager β X E)
    (sent : List (Payload β X)) : Duo β X E where
  manager := Function.update duo.manager p manager
  flight := duo.flight ++ sent.map (p.other, ·)

/-- What a call sends when it returns. -/
def sends {α : Type} (f : α → Payload β X) : Except (Exc β) (Option α) → List (Payload β X)
  | .ok (some a) => [f a]
  | _ => []

/-- A payload arrives at `p`. -/
def receive (duo : Duo β X E) (p : Party) (ephemeral ratchetPrivate : X) (now later : ℚ) :
    Payload β X → Duo β X E
  | .init payload =>
    let (result, manager) :=
      SessionManager.handleInit P payload ephemeral ratchetPrivate now later (duo.manager p)
    duo.afterCall p manager (sends .response result)
  | .response payload =>
    let (result, manager) := 
      SessionManager.handleResponse P payload ephemeral now later (duo.manager p)
    duo.afterCall p manager (sends (fun r => .fin r.1 r.2) result)
  | .fin payload _ =>
    let (_, manager) := SessionManager.handleFin P payload ephemeral now later (duo.manager p)
    duo.afterCall p manager []

def step (duo : Duo β X E) : DuoEvent β X → Duo β X E
  | .start p hsId ephemeral now startedAt wallNow =>
    let (result, manager) := SessionManager.startHandshake P
      ((duo.manager p.other).identity.staticPublic P) hsId ephemeral now startedAt wallNow
      (duo.manager p)
    duo.afterCall p manager (sends (fun r => .init r.1) (result.map some))
  | .deliver i ephemeral ratchetPrivate now later =>
    match duo.flight[i]? with
    | none => duo
    | some (p, payload) =>
      { duo with flight := duo.flight.eraseIdx i }.receive P p ephemeral ratchetPrivate now later
        payload

/-- `random_bytes` returns as many bytes as it is asked for. -/
def Admissible (_ : Duo β X E) : DuoEvent β X → Prop
  | .start _ hsId _ _ _ _ => hsId.length = HS_ID_LEN
  | .deliver .. => True

def Reachable (identity : Party → Identity X E) (duo : Duo β X E) : Prop :=
  ∃ trust, Reaches Admissible (step P) (initial identity trust) duo

/-! ## In order -/

/-- Of these payloads, one goes to `p` and was sent with the session that its sender holds. -/
def Owed (duo : Duo β X E) (flight : List (Party × Payload β X)) (p : Party) : Prop :=
  ∃ item ∈ flight, item.1 = p ∧ item.2.made.isSome ∧ item.2.made = duo.session P p.other

/-- `p` waits for this FIN, and has not pinned another key for its sender. -/
def Awaits (duo : Duo β X E) (p : Party) (payload : Bytes β) : Prop :=
  (duo.manager p).Opens P payload ∧
    (duo.manager p).trust.Compatible ((duo.manager p.other).identity.signingPublic P)
      ((duo.manager p.other).identity.staticPublic P)

/-- The FIN does not arrive out of order with another handshake. If `p` waits for it, then its
sender still holds the session that it made with it, or a later FIN to `p` is on its way; if `p`
does not, then the sender no longer holds that session, or `p` has none to be left behind with, or
a FIN that replaces the sender's is on its way. -/
def FinInOrder (duo : Duo β X E) (rest : List (Party × Payload β X)) (p : Party)
    (payload : Bytes β) (made : Session β X) : Prop :=
  (duo.Awaits P p payload → duo.session P p.other = some made ∨ duo.Owed P rest p) ∧
  (¬ duo.Awaits P p payload →
    duo.session P p.other ≠ some made ∨ duo.session P p = none ∨ duo.Owed P rest p.other)

/-- The condition on a step. -/
def InOrder (duo : Duo β X E) : DuoEvent β X → Prop
  | .start .. => True
  | .deliver i .. =>
    ∀ p payload made, duo.flight[i]? = some (p, .fin payload made) →
      duo.FinInOrder P (duo.flight.eraseIdx i) p payload made

end Duo

end Chatbit
