import Mathlib.Logic.Function.Basic
import Chatbit.Mesh.Router

/-!
# A mesh of routers

A network of stations, each a router with the calls of it that are awaiting something, and the
frames on the air. The environment chooses the order of everything: which frame on the air is heard
next, lost or duplicated, which timer fires, how a delivery or a send ends, and when the store is
replayed.

A frame may have its relays noted on it (`Marked`, `Traced`). The station that sends a relay notes
it, whatever its router has made of the TTL: that the TTL counts the relays is a theorem.
-/

namespace Chatbit

open Lib

/-- Frames on which the relays that they go through may be noted. The router reads no note. -/
class Marked (β : outParam Type) (F : Type) extends Frame β F where
  relayed : F → F
  dedupKey_relayed : ∀ frame, dedupKey (relayed frame) = dedupKey frame

/-- Nothing is noted on a packet. -/
instance [Alphabet β] [DecidableEq β] : Marked β (Packet β) where
  relayed := id
  dedupKey_relayed _ := rfl

variable {ι β F : Type} [Alphabet β] [DecidableEq β] [Marked β F] [DecidableEq ι]

/-! ## A station -/

/-- A router, the calls of `originate`, `handle` and `replay_store` that are awaiting something, and
the frames that were handed to the local delivery, were handled, and were sent so far. -/
structure Station (β F : Type) where
  router : Router β F
  originating : List F := []
  delivering : List F := []
  replay : Option (Router.Replay F) := none
  delivered : List F := []
  handled : List F := []
  transmitted : List F := []

/-- A send that is being awaited. -/
inductive Sending where
  | origination (n : ℕ)
  | relay (n : ℕ)
  | replay

/-- What a station does by itself. -/
inductive StationEvent where
  | deliverEnds (n : ℕ) (returned : Bool) (delay : ℚ)
  | fire (n : ℕ)
  | sendEnds (sending : Sending) (returned : Bool) (now : ℚ)
  | replay (now : ℚ)

namespace Station

/-- The frame that is being sent. -/
def sendingFrame (station : Station β F) : Sending → Option F
  | .origination n => station.originating[n]?
  | .relay n => station.router.relayTasks[n]?
  | .replay => station.replay.map fun replay => replay.entry.packet

/-- `originate` up to its send. -/
def originate (frame : F) (now : ℚ) (station : Station β F) : Station β F :=
  { station with
    router := (Router.markSeen frame now station.router).2
    originating := station.originating ++ [frame] }

/-- `handle` up to the local delivery, or to its end; `forUs` is what `_is_for_us` returns or
raises. -/
def hear (frame : F) (now : ℚ) (forUs : Except (Exc β) Bool) (delay : ℚ) (station : Station β F) :
    Station β F :=
  let station := { station with handled := station.handled ++ [frame] }
  match Router.accept frame now station.router with
  | (.ok true, router) =>
    match forUs with
    | .ok true => { station with
      router := { router with
        stats := { router.stats with deliveredLocal := router.stats.deliveredLocal + 1 } }
      delivering := station.delivering ++ [frame], delivered := station.delivered ++ [frame] }
    | .ok false => { station with router := Router.scheduleRelay frame delay router }
    | .error _ => { station with router := router }
  | (_, router) => { station with router := router }

/-- `handle` goes on once its delivery has returned or raised. -/
def deliverEnds (n : ℕ) (returned : Bool) (delay : ℚ) (station : Station β F) : Station β F :=
  match station.delivering[n]? with
  | none => station
  | some frame => { station with
    delivering := station.delivering.eraseIdx n
    router :=
      if returned then Router.scheduleRelay frame delay station.router else station.router }

/-- The frame of a timer, as it is sent when the timer has fired. -/
def relayOf (handle : TimerHandle β F) : TimerHandle β F :=
  { handle with packet := Marked.relayed handle.packet }

/-- A timer fires: the router begins to send a relay, which is noted on the frame. -/
def fire (n : ℕ) (station : Station β F) : Station β F :=
  match station.router.timers[n]? with
  | none => station
  | some handle => { station with
    router := Router.fireRelay (relayOf handle) { station.router with
      timers := station.router.timers.eraseIdx n } }

/-- A send has returned or raised, and the call that awaits it goes on. -/
def sendEnds (config : MeshConfig) (sending : Sending) (returned : Bool) (now : ℚ)
    (station : Station β F) : Station β F :=
  match sending, station.sendingFrame sending with
  | _, none => station
  | .origination n, some frame => { station with
    originating := station.originating.eraseIdx n
    transmitted := if returned then station.transmitted ++ [frame] else station.transmitted }
  | .relay n, some frame => { station with
    router := (Router.finishRelay config frame returned now { station.router with
      relayTasks := station.router.relayTasks.eraseIdx n }).2
    transmitted := if returned then station.transmitted ++ [frame] else station.transmitted }
  | .replay, some frame =>
    match station.replay with
    | none => station
    | some replay =>
      let (router, call) := station.router.resumeReplay config replay returned
      { station with
        router := router, replay := call.getRight?
        transmitted := if returned then station.transmitted ++ [frame] else station.transmitted }

/-- `replay_store` up to its first send. Its calls do not overlap. -/
def beginReplay (config : MeshConfig) (now : ℚ) (station : Station β F) : Station β F :=
  match station.replay with
  | some _ => station
  | none =>
    let (router, call) := station.router.replayStore config now
    { station with router := router, replay := call.getRight? }

section Equations

variable {station : Station β F} {frame : F} {config : MeshConfig} {n : ℕ} {returned : Bool}
  {now delay : ℚ}

/-- A station that has counted a frame. -/
def counting (frame : F) (now : ℚ) (station : Station β F) : Station β F :=
  { station with
    handled := station.handled ++ [frame], router := Router.counted frame now station.router }

omit [Alphabet β] in
/-- A frame that was seen is counted and dropped. -/
lemma hear_of_seen (h : Frame.dedupKey frame ∈ (station.router.dedup.expire now).seen.keys)
    (forUs : Except (Exc β) Bool) (delay : ℚ) :
    station.hear frame now forUs delay = { station.counting frame now with
      router := Router.dropped frame now station.router } := by
  unfold hear
  dsimp only
  rw [Router.accept_of_seen h]
  rfl

omit [Alphabet β] in
/-- A new frame is delivered if it is for us, and relayed otherwise. -/
lemma hear_of_new (h : Frame.dedupKey frame ∉ (station.router.dedup.expire now).seen.keys)
    (forUs : Except (Exc β) Bool) (delay : ℚ) :
    station.hear frame now forUs delay =
      match forUs with
      | .ok true => { station.counting frame now with
        router := { Router.counted frame now station.router with
          stats := { (Router.counted frame now station.router).stats with
            deliveredLocal := station.router.stats.deliveredLocal + 1 } }
        delivering := station.delivering ++ [frame], delivered := station.delivered ++ [frame] }
      | .ok false => { station.counting frame now with
        router := Router.scheduleRelay frame delay (Router.counted frame now station.router) }
      | .error _ => station.counting frame now := by
  unfold hear
  dsimp only
  rw [Router.accept_of_new h]
  rfl

omit [Alphabet β] in
/-- Where there is no such delivery, none ends. -/
lemma deliverEnds_of_none (h : station.delivering[n]? = none) :
    station.deliverEnds n returned delay = station := by
  unfold deliverEnds
  rw [h]

omit [Alphabet β] in
/-- A delivery that returns is followed by the relay. -/
lemma deliverEnds_of_some (h : station.delivering[n]? = some frame) :
    station.deliverEnds n returned delay = { station with
      delivering := station.delivering.eraseIdx n
      router :=
        if returned then Router.scheduleRelay frame delay station.router else station.router } := by
  unfold deliverEnds
  rw [h]

end Equations

def step (config : MeshConfig) (station : Station β F) : StationEvent → Station β F
  | .deliverEnds n returned delay => station.deliverEnds n returned delay
  | .fire n => station.fire n
  | .sendEnds sending returned now => station.sendEnds config sending returned now
  | .replay now => station.beginReplay config now

/-- What a step can do. -/
inductive Stepped (config : MeshConfig) (station : Station β F) :
    StationEvent → Station β F → Prop where
  | idle (event : StationEvent) : Stepped config station event station
  | delivered {n : ℕ} {frame : F} (h : station.delivering[n]? = some frame) (returned : Bool)
      (delay : ℚ) : Stepped config station (.deliverEnds n returned delay) { station with
        delivering := station.delivering.eraseIdx n
        router :=
          if returned then Router.scheduleRelay frame delay station.router else station.router }
  | fired {n : ℕ} {handle : TimerHandle β F} (h : station.router.timers[n]? = some handle) :
      Stepped config station (.fire n) { station with
        router := Router.fireRelay (relayOf handle) { station.router with
          timers := station.router.timers.eraseIdx n } }
  | originated {n : ℕ} {frame : F} (h : station.originating[n]? = some frame) (returned : Bool)
      (now : ℚ) : Stepped config station (.sendEnds (.origination n) returned now) { station with
        originating := station.originating.eraseIdx n
        transmitted :=
          if returned then station.transmitted ++ [frame] else station.transmitted }
  | relayed {n : ℕ} {frame : F} (h : station.router.relayTasks[n]? = some frame)
      (returned : Bool) (now : ℚ) :
      Stepped config station (.sendEnds (.relay n) returned now) { station with
        router := (Router.finishRelay config frame returned now { station.router with
          relayTasks := station.router.relayTasks.eraseIdx n }).2
        transmitted :=
          if returned then station.transmitted ++ [frame] else station.transmitted }
  | replayed {replay : Router.Replay F} (h : station.replay = some replay) (returned : Bool)
      (now : ℚ) : Stepped config station (.sendEnds .replay returned now) { station with
        router := (station.router.resumeReplay config replay returned).1
        replay := (station.router.resumeReplay config replay returned).2.getRight?
        transmitted := if returned then station.transmitted ++ [replay.entry.packet]
          else station.transmitted }
  | replaying (h : station.replay = none) (now : ℚ) :
      Stepped config station (.replay now) { station with
        router := (station.router.replayStore config now).1
        replay := (station.router.replayStore config now).2.getRight? }

omit [Alphabet β] in
/-- The branches of a step: an event of what is not there (a timer, a delivery, a send) changes
nothing. -/
theorem stepped_step (config : MeshConfig) (station : Station β F) (event : StationEvent) :
    Stepped config station event (station.step config event) := by
  cases event with
  | deliverEnds n returned delay =>
    show Stepped config station _ (station.deliverEnds n returned delay)
    rcases hframe : station.delivering[n]? with _ | frame
    · rw [deliverEnds_of_none hframe]
      exact .idle _
    · rw [deliverEnds_of_some hframe]
      exact .delivered hframe returned delay
  | fire n =>
    show Stepped config station _ (station.fire n)
    unfold fire
    rcases hhandle : station.router.timers[n]? with _ | handle
    · exact .idle _
    · exact .fired hhandle
  | sendEnds sending returned now =>
    show Stepped config station _ (station.sendEnds config sending returned now)
    unfold sendEnds
    -- an event of a send that is not there is no event
    rcases hframe : station.sendingFrame sending with _ | frame
    · exact .idle _
    cases sending with
    | origination n => exact .originated hframe returned now
    | relay n => exact .relayed hframe returned now
    | replay =>
      obtain ⟨replay, hreplay, rfl⟩ := Option.map_eq_some_iff.mp hframe
      dsimp only
      rw [hreplay]
      exact .replayed hreplay returned now
  | replay now =>
    show Stepped config station _ (station.beginReplay config now)
    unfold beginReplay
    rcases hreplay : station.replay with _ | replay
    · exact .replaying hreplay now
    · exact .idle _

end Station

/-! ## The network -/

/-- The stations, the frames on the air with who may hear them, and the frames that were originated
so far. -/
structure Mesh (ι β F : Type) where
  stations : ι → Station β F
  flight : List (ι × F) := []
  originated : List (ι × F) := []

/-- A frame is on the air once its send has returned, and may be before (`onAir`), as often as the
radio likes. -/
inductive MeshEvent (ι β F : Type) where
  | originate (i : ι) (frame : F) (now : ℚ)
  | hear (n : ℕ) (now : ℚ) (forUs : Except (Exc β) Bool) (delay : ℚ)
  | station (i : ι) (event : StationEvent)
  | onAir (i : ι) (sending : Sending)
  | lose (n : ℕ)
  | duplicate (n : ℕ)

namespace Mesh

/-- Every router as `__init__` leaves it. -/
def initial (config : ι → MeshConfig) : Mesh ι β F where
  stations i := { router := Router.new (config i) }

/-- The copies of a frame that a station sends, one for each neighbour. -/
def copies (neighbours : ι → List ι) (i : ι) (frame : Option F) : List (ι × F) :=
  match frame with
  | none => []
  | some frame => (neighbours i).map fun j => (j, frame)

/-- The frame that a station puts on the air in a step. -/
def emitted (station : Station β F) : StationEvent → Option F
  | .sendEnds sending true _ => station.sendingFrame sending
  | _ => none

def setStation (i : ι) (station : Station β F) (mesh : Mesh ι β F) : Mesh ι β F :=
  { mesh with stations := Function.update mesh.stations i station }

def step (neighbours : ι → List ι) (config : ι → MeshConfig) (mesh : Mesh ι β F) :
    MeshEvent ι β F → Mesh ι β F
  | .originate i frame now =>
    { mesh.setStation i ((mesh.stations i).originate frame now) with
      originated := mesh.originated ++ [(i, frame)] }
  | .hear n now forUs delay =>
    match mesh.flight[n]? with
    | none => mesh
    | some (i, frame) =>
      { mesh.setStation i ((mesh.stations i).hear frame now forUs delay) with
        flight := mesh.flight.eraseIdx n }
  | .station i event =>
    { mesh.setStation i ((mesh.stations i).step (config i) event) with
      flight := mesh.flight ++ copies neighbours i (emitted (mesh.stations i) event) }
  | .onAir i sending =>
    { mesh with
      flight := mesh.flight ++ copies neighbours i ((mesh.stations i).sendingFrame sending) }
  | .lose n => { mesh with flight := mesh.flight.eraseIdx n }
  | .duplicate n => { mesh with flight := mesh.flight ++ mesh.flight[n]?.toList }

variable {neighbours : ι → List ι} {config : ι → MeshConfig} {mesh : Mesh ι β F} {n : ℕ}
  {now delay : ℚ} {forUs : Except (Exc β) Bool}

omit [Alphabet β] in
/-- Nothing is heard when nothing is in flight. -/
lemma step_hear_of_none (h : mesh.flight[n]? = none) :
    mesh.step neighbours config (.hear n now forUs delay) = mesh := by
  unfold step
  dsimp only
  rw [h]

omit [Alphabet β] in
/-- A copy that is heard is no longer in flight. -/
lemma step_hear_of_some {i : ι} {frame : F} (h : mesh.flight[n]? = some (i, frame)) :
    mesh.step neighbours config (.hear n now forUs delay) =
      { mesh.setStation i ((mesh.stations i).hear frame now forUs delay) with
        flight := mesh.flight.eraseIdx n } := by
  unfold step
  dsimp only
  rw [h]

end Mesh

/-! ## What a copy has been through -/

/-- A copy of a frame, with how many relays it has been through. -/
structure Traced (β : Type) where
  packet : Packet β
  hops : ℕ := 0

/-- The router handles the packet, and passes the count on as it is. -/
instance : Frame β (Traced β) where
  dedupKey frame := frame.packet.dedupKey
  decrementTtl frame := frame.packet.decrementTtl.map fun packet => { frame with packet := packet }
  dedupKey_decrementTtl frame forwarded h := by
    obtain ⟨packet, hpacket, rfl⟩ := Option.map_eq_some_iff.mp h
    exact Frame.dedupKey_decrementTtl frame.packet packet hpacket

/-- A relay counts, whatever TTL it is sent with. -/
instance : Marked β (Traced β) where
  relayed frame := { frame with hops := frame.hops + 1 }
  dedupKey_relayed _ := rfl

end Chatbit
