import Chatbit.Lib.SharedBudget
import Chatbit.Radio.DutyCycle
import Chatbit.Radio.LoRaTheorems

/-!
# A radio that is shared

What a LoRa transport with a duty cycle sends for those who share it. The lock is free again when a
transmission is over, so what has been sent is `Booked` in the governor's window, whoever it was
sent for.
-/

namespace Chatbit

open Lib

namespace LoRaTransport

/-- The airtimes of the frames that are not refused for their size alone. -/
def airtimes (t : LoRaTransport) : Set ℚ :=
  {d | ∃ length ≤ t.mtu, (t.config.airtimeFor length : Except (Exc UInt8) ℚ) = .ok d ∧
    t.governor.dwellViolation d = false}

variable {t t' : LoRaTransport} {duty d now later : ℚ} {frame : Bytes UInt8} {err : Exc UInt8}
  {write : Except (Exc UInt8) Unit}

/-- A call that raises leaves the events, or what a check leaves of them. -/
lemma send_error (hduty : t.governor.dutyCycle = some duty)
    (h : send frame now later write t = (.error err, t')) :
    t'.governor = t.governor ∨ t'.governor = t.governor.prune now := by
  unfold send at h
  rw [Method.self_bind] at h
  split_ifs at h with hrunning hmtu
  · exact Or.inl (congrArg governor (Prod.mk.inj h).2.symm)
  · exact Or.inl (congrArg governor (Prod.mk.inj h).2.symm)
  rcases Method.bind_error.mp h with h | ⟨d, t₁, heval, h⟩
  · exact Or.inl (congrArg governor (Prod.mk.inj h).2.symm)
  obtain ⟨-, rfl⟩ := Method.eval_ok.mp heval
  rcases DutyCycleGovernor.check_cases (β := UInt8) (c := now) (d := d) hduty with
    ⟨err, hcheck⟩ | ⟨err, hcheck⟩ | ⟨-, -, hcheck⟩ <;>
    rw [Method.bind_apply, onGovernor, Method.onField_apply, hcheck] at h
  · exact Or.inl (congrArg governor (Prod.mk.inj h).2.symm)
  · exact Or.inr (congrArg governor (Prod.mk.inj h).2.symm)
  · -- only the port raises behind the check
    rcases write with err | ⟨⟩
    · exact Or.inr (congrArg governor (Prod.mk.inj h).2.symm)
    · cases h

/-- A call that fits the budget returns. -/
lemma send_of_fits (hrunning : t.running = true) (hserial : t.serial.isSome = true)
    (hduty : t.governor.dutyCycle = some duty) (hmtu : frame.length ≤ t.mtu)
    (hd : (t.config.airtimeFor frame.length : Except (Exc UInt8) ℚ) = .ok d)
    (hdwell : t.governor.dwellViolation d = false)
    (hbudget : ((t.governor.prune now).events.map Prod.snd).sum + d ≤
      duty * t.governor.windowSeconds) :
    (send frame now later (.ok ()) t).1 = .ok () := by
  have hcheck : DutyCycleGovernor.check d now t.governor =
      ((.ok (), t.governor.prune now) : Except (Exc UInt8) Unit × _) := by
    rw [DutyCycleGovernor.check_apply hdwell hduty, if_pos hbudget]
  have hstarted : ¬ (¬ t.running = true ∨ t.serial = none) := by
    rintro (hstopped | hclosed)
    · exact hstopped hrunning
    · exact Option.isSome_iff_ne_none.mp hserial hclosed
  rw [send, Method.self_bind, if_neg hstarted, if_neg (Nat.not_lt.mpr hmtu),
    Method.bind_of_ok (Method.eval_ok.mpr ⟨hd, rfl⟩), Method.bind_apply, onGovernor,
    Method.onField_apply, hcheck]
  rfl

end LoRaTransport

/-- A radio, and what its next call of `send` reads: the clock at the check and at the record, what
the port does, and whether the frame is a cover frame. `sent` is a history. -/
structure RadioLink where
  radio : LoRaTransport
  now : ℚ
  later : ℚ
  write : Except (Exc UInt8) Unit := .ok ()
  cover : Bool := false
  /-- When the lock is free. -/
  ready : ℚ
  sent : List (Use ℚ) := []

namespace RadioLink

/-- A radio that has been started. -/
def start (t : LoRaTransport) (clock : ℚ) : RadioLink where
  radio := t.start
  now := clock
  later := clock
  ready := clock

def send (frame : Bytes UInt8) : Method (Exc UInt8) RadioLink Unit := fun link =>
  match link.radio.send frame link.now link.later link.write with
  | (.ok (), radio) =>
    let (start, duration) := radio.governor.events.getLastD (link.later, 0)
    let use : Use ℚ := { marked := link.cover, start, duration }
    (.ok (), { link with radio, ready := use.stop, sent := link.sent ++ [use] })
  | (.error err, radio) => (.error err, { link with radio, ready := link.now })

/-- What no call changes. -/
def settings (t : LoRaTransport) : RadioConfig × ℕ × DutyCycleGovernor × Bool × Bool :=
  (t.config, t.mtu, { t.governor with events := [] }, t.running, t.serial.isSome)

/-- What holds of a radio that was started at `clock`, where cover frames take these airtimes. -/
structure Invariant (t : LoRaTransport) (duty clock : ℚ) (covers : Set ℚ) (link : RadioLink) :
    Prop where
  settings : settings link.radio = settings t.start
  clock_le : clock ≤ link.ready
  booked : Booked t.governor.windowSeconds (duty * t.governor.windowSeconds) clock covers
    t.airtimes link.sent
  stopped : ∀ u ∈ link.sent, u.stop ≤ link.ready
  keeps : ∃ x ≤ link.ready - t.governor.windowSeconds,
    link.radio.governor.KeepsSince x (link.sent.map fun u => (u.start, u.duration))

variable {t : LoRaTransport} {duty clock d : ℚ} {covers : Set ℚ} {link link' : RadioLink}
  {frame : Bytes UInt8} {err : Exc UInt8}

lemma settings_send (frame : Bytes UInt8) (now later : ℚ) (write : Except (Exc UInt8) Unit) :
    Method.Keeps settings (LoRaTransport.send frame now later write) :=
  LoRaTransport.keeps_send (fun _ _ => rfl)
    (fun _ _ => by simp only [settings, Option.isSome_map]) (fun _ _ => rfl) frame now later write

/-- What the check adds up. -/
lemma sum_events {g : DutyCycleGovernor} {x : ℚ} {sent : List (Use ℚ)}
    (h : g.KeepsSince x (sent.map fun u => (u.start, u.duration))) :
    (g.events.map Prod.snd).sum = total (fun u => x ≤ u.start) sent := by
  rw [h, List.filter_map, List.map_map]
  rfl

namespace Invariant

lemma windowSeconds (h : link.Invariant t duty clock covers) :
    link.radio.governor.windowSeconds = t.governor.windowSeconds :=
  congrArg (fun settings => settings.2.2.1.windowSeconds) h.settings

lemma dutyCycle (h : link.Invariant t duty clock covers) :
    link.radio.governor.dutyCycle = t.governor.dutyCycle :=
  congrArg (fun settings => settings.2.2.1.dutyCycle) h.settings

lemma dwellViolation (h : link.Invariant t duty clock covers) (d : ℚ) :
    link.radio.governor.dwellViolation d = t.governor.dwellViolation d :=
  congrArg (fun settings => settings.2.2.1.dwellViolation d) h.settings

/-- Time passes. -/
lemma prune (h : link.Invariant t duty clock covers) (hready : link.ready ≤ link.now) :
    (link.radio.governor.prune link.now).KeepsSince (link.now - t.governor.windowSeconds)
      (link.sent.map fun u => (u.start, u.duration)) := by
  obtain ⟨x, hx, hkeeps⟩ := h.keeps
  have hprune := hkeeps.prune (c := link.now) (List.pairwise_map.mpr h.booked.sorted)
  rw [h.windowSeconds] at hprune
  exact hprune (hx.trans (sub_le_sub_right hready _))

/-- Nothing has been sent at first. -/
lemma start (hevents : t.governor.events = []) (duty clock : ℚ) (covers : Set ℚ) :
    (start t clock).Invariant t duty clock covers where
  settings := rfl
  clock_le := le_rfl
  booked := .nil
  stopped _ hu := absurd hu List.not_mem_nil
  keeps := ⟨_, le_rfl, hevents⟩

/-- A call that raises sends nothing. -/
lemma send_error (h : link.Invariant t duty clock covers) (hduty : t.governor.dutyCycle = some duty)
    (hready : link.ready ≤ link.now) (hsend : send frame link = (.error err, link')) :
    link'.Invariant t duty clock covers ∧ link'.sent = link.sent ∧ link'.ready = link.now := by
  rcases hradio : link.radio.send frame link.now link.later link.write with ⟨err' | ⟨⟩, radio⟩
  · obtain ⟨-, rfl⟩ : err' = err ∧ { link with radio, ready := link.now } = link' := by
      simpa [send, hradio] using hsend
    have hsettings := settings_send frame link.now link.later link.write link.radio
    rw [hradio] at hsettings
    refine ⟨⟨hsettings.trans h.settings, h.clock_le.trans hready, h.booked,
      fun u hu => (h.stopped u hu).trans hready, ?_⟩, rfl, rfl⟩
    rcases LoRaTransport.send_error (h.dutyCycle.trans hduty) hradio with hgovernor | hgovernor
    · obtain ⟨x, hx, hkeeps⟩ := h.keeps
      exact ⟨x, hx.trans (sub_le_sub_right hready _), hgovernor ▸ hkeeps⟩
    · exact ⟨_, le_rfl, hgovernor ▸ h.prune hready⟩
  · simp [send, hradio] at hsend

/-- A call that returns has sent the frame. -/
lemma send_ok (h : link.Invariant t duty clock covers) (hduty : t.governor.dutyCycle = some duty)
    (hwindow : 0 ≤ t.governor.windowSeconds) (hready : link.ready ≤ link.now)
    (hlater : link.now ≤ link.later)
    (hcover : link.cover = true → ∀ d, t.config.airtimeFor frame.length =
      (.ok d : Except (Exc UInt8) ℚ) → t.governor.dwellViolation d = false → d ∈ covers)
    (hsend : send frame link = (.ok (), link')) :
    link'.Invariant t duty clock covers ∧ ∃ d,
      (t.config.airtimeFor frame.length : Except (Exc UInt8) ℚ) = .ok d ∧
      link'.sent = link.sent ++ [⟨link.cover, link.later, d⟩] ∧
      link'.ready = (⟨link.cover, link.later, d⟩ : Use ℚ).stop := by
  rcases hradio : link.radio.send frame link.now link.later link.write with ⟨err | ⟨⟩, radio⟩
  · simp [send, hradio] at hsend
  have hsettings := settings_send frame link.now link.later link.write link.radio
  rw [hradio] at hsettings
  obtain ⟨-, d, -, hmtu, hd, hcharges, -⟩ := LoRaTransport.send_ok hradio
  have hlast := hcharges.getLast? (h.windowSeconds ▸ hwindow)
  -- what the check has passed
  obtain ⟨mid, hcheck, hrecord⟩ := hcharges
  obtain ⟨hdwell, hbudget, hmid⟩ : link.radio.governor.dwellViolation d = false ∧
      ((link.radio.governor.prune link.now).events.map Prod.snd).sum + d ≤
        duty * link.radio.governor.windowSeconds ∧ mid = link.radio.governor.prune link.now := by
    rcases DutyCycleGovernor.check_cases (β := UInt8) (c := link.now) (d := d)
      (h.dutyCycle.trans hduty) with ⟨err, h'⟩ | ⟨err, h'⟩ | ⟨hdwell, hbudget, h'⟩ <;>
      rw [h'] at hcheck
    · cases hcheck
    · cases hcheck
    · exact ⟨hdwell, hbudget, (Prod.mk.inj hcheck).2.symm⟩
  have hkept := h.prune hready
  rw [sum_events hkept, h.windowSeconds] at hbudget
  rw [h.dwellViolation] at hdwell
  have hconfig : link.radio.config = t.config := congrArg Prod.fst h.settings
  have hmtu' : link.radio.mtu = t.mtu := congrArg (fun settings => settings.2.1) h.settings
  rw [hconfig] at hd
  rw [hmtu'] at hmtu
  set use : Use ℚ := ⟨link.cover, link.later, d⟩ with huse
  have hlink : { link with radio, ready := use.stop, sent := link.sent ++ [use] } = link' := by
    have hlastD : radio.governor.events.getLastD (link.later, 0) = (link.later, d) := by
      rw [List.getLastD_eq_getLast?, hlast]
      rfl
    simp only [send, hradio, hlastD] at hsend
    exact (Prod.mk.inj hsend).2
  have hstop : link.later ≤ use.stop := le_add_of_nonneg_right (le_max_left 0 d)
  have hbooked := h.booked.snoc (u := use) (h.clock_le.trans hready)
    (fun u hu => (h.stopped u hu).trans hready) hlater ⟨frame.length, hmtu, hd, hdwell⟩
    (fun hcount => hcover hcount d hd hdwell) hbudget
  rw [← hlink]
  refine ⟨⟨hsettings.trans h.settings, ?_, hbooked, fun u hu => ?_, ?_⟩, d, hd, rfl, rfl⟩
  · exact ((h.clock_le.trans hready).trans hlater).trans hstop
  · rcases List.mem_append.mp hu with hu | hu
    · exact (((h.stopped u hu).trans hready).trans hlater).trans hstop
    · exact (congrArg Use.stop (List.mem_singleton.mp hu)).le
  · -- the transmission itself is kept, and the others as before
    refine ⟨link.later - t.governor.windowSeconds, sub_le_sub_right hstop _, ?_⟩
    have hgovernor : radio.governor = ({ mid with
        events := mid.events ++ [(link.later, d)] } : DutyCycleGovernor).prune link.later :=
      (Prod.mk.inj hrecord).2.symm
    have hwindow' : mid.windowSeconds = t.governor.windowSeconds := hmid ▸ h.windowSeconds
    have happend : ({ mid with events := mid.events ++ [(link.later, d)] } :
        DutyCycleGovernor).KeepsSince (link.now - t.governor.windowSeconds)
        ((link.sent ++ [use]).map fun u => (u.start, u.duration)) := by
      have hself : link.now - t.governor.windowSeconds ≤ link.later := by linarith
      rw [DutyCycleGovernor.KeepsSince, List.map_append, List.filter_append, List.map_singleton,
        List.filter_singleton, decide_eq_true hself, hmid, hkept]
      rfl
    rw [hgovernor, ← hwindow']
    rw [← hwindow'] at happend
    exact happend.prune (c := link.later) (List.pairwise_map.mpr hbooked.sorted)
      (sub_le_sub_right hlater _)

/-- A frame that fits the budget is sent. -/
lemma send_of_fits (h : link.Invariant t duty clock covers)
    (hduty : t.governor.dutyCycle = some duty) (hready : link.ready ≤ link.now)
    (hwrite : link.write = .ok ()) (hmtu : frame.length ≤ t.mtu)
    (hd : (t.config.airtimeFor frame.length : Except (Exc UInt8) ℚ) = .ok d)
    (hdwell : t.governor.dwellViolation d = false)
    (hbudget : total (fun u => link.now - t.governor.windowSeconds ≤ u.start) link.sent + d ≤
      duty * t.governor.windowSeconds) :
    ∃ link', send frame link = (.ok (), link') := by
  have hsettings := h.settings
  simp only [RadioLink.settings, LoRaTransport.start, Prod.mk.injEq] at hsettings
  obtain ⟨hconfig, hmtu', -, hrunning, hserial⟩ := hsettings
  rw [← hconfig] at hd
  rw [← hmtu'] at hmtu
  rw [← h.dwellViolation] at hdwell
  rw [← sum_events (h.prune hready), ← h.windowSeconds] at hbudget
  have hsend : (LoRaTransport.send frame link.now link.later (.ok ()) link.radio).1 = .ok () :=
    LoRaTransport.send_of_fits hrunning hserial (h.dutyCycle.trans hduty) hmtu hd hdwell hbudget
  rcases hradio : link.radio.send frame link.now link.later link.write with ⟨err | ⟨⟩, radio⟩
  · rw [hwrite] at hradio
    rw [hradio] at hsend
    cases hsend
  · simp only [send, hradio]
    exact ⟨_, rfl⟩

end Invariant

end RadioLink

end Chatbit
