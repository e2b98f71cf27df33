import Chaskiwasi.Lib.Run
import Mathlib.Algebra.Order.Ring.Int
import Mathlib.Data.List.Nodup

/-!
# The low-voltage backstop

While a session is active the gauge watches the voltage, and its alert sets a flag.  Whoever
services the alert switches the radio off, waits a moment and reads the voltage again: it arms the
gauge anew if the voltage came back, and has the screen wiped if not.

The alert comes at any time while the gauge is armed, and the service runs beside the session, so
the service is two steps: it takes the flag, and it ends after the moment's wait.  The session may
end, and another begin, before the service or in the middle of it.  Nothing takes the flag back when
a session ends, and the service does not ask whether its session is still there.
-/

namespace Chaskiwasi.Device.Power

/-! ## The monitor -/

def gracefulSocPct : ℤ := 5
def emergencyMilliVolts : ℤ := 3300
def emergencyConfirmMarginMv : ℤ := 100
def gaugePollIntervalMs : ℤ := 1000

structure Reading where
  socPct : ℤ := 0
  millivolts : ℤ := 0
  charging : Bool := false
  valid : Bool := false
  deriving DecidableEq, Repr

/-- Which of the seams are wired. -/
structure Deps where
  gauge : Bool := true
  onEmergency : Bool := true
  delayMs : Bool := true
  deriving DecidableEq, Repr

/-- The clock, what the gauge reads, and whether arming it works. -/
structure MonitorIO where
  now : ℤ := 0
  reading : Reading := {}
  arms : Bool := true
  deriving DecidableEq, Repr

/-- What is written down of a run. -/
inductive Note
  /-- A service took the flag that the alert with this number had set. -/
  | serviced (alert : ℕ)
  /-- It ended with the gauge armed again. -/
  | cancelled
  /-- It ended with `on_emergency`: the session its alert was raised in, and the one that was active
  then. -/
  | emergency (raised active : Option ℕ)
  deriving DecidableEq, Repr

/-- An alert that is pending or serviced: its number, and the session in which it was raised. -/
structure Alert where
  id : ℕ := 0
  session : Option ℕ := none
  deriving DecidableEq, Repr

structure Monitor where
  session : Bool := false
  alertPending : Bool := false
  latched : Bool := false
  last : Reading := {}
  lastSampleMs : ℤ := 0
  haveSample : Bool := false
  /-- The gauge's alert is armed. -/
  armed : Bool := false
  /-- The alert whose service has not ended. -/
  servicing : Option Alert := none
  /-- The alert that set the flag last. -/
  alert : Alert := {}
  /-- How many sessions have begun. -/
  sessions : ℕ := 0
  log : List Note := []
  deriving DecidableEq, Repr

namespace Monitor

variable (d : Deps) (m : Monitor) (io : MonitorIO)

/-- The session that is active. -/
def active : Option ℕ := if m.session then some m.sessions else none

/-- `Sample`. -/
def sample (force : Bool) : Monitor :=
  if d.gauge = false then m
  else if ¬ force ∧ m.haveSample ∧ io.now - m.lastSampleMs < gaugePollIntervalMs then m
  else { m with last := io.reading, lastSampleMs := io.now, haveSample := true }

/-- `Arm`. -/
def arm : Monitor := if d.gauge then { m with armed := m.armed || io.arms } else m

/-- `Disarm`. -/
def disarm : Monitor := if d.gauge then { m with armed := false } else m

/-- `BeginSession`. -/
def beginSession : Monitor :=
  if m.session then m
  else (({ m with session := true, sessions := m.sessions + 1 }.sample d io true).arm d io)

/-- `EndSession`. -/
def endSession : Monitor :=
  if ¬ m.session then m else { m with session := false }.disarm d

/-- `GracefulThresholdCrossed`. -/
def gracefulThresholdCrossed : Monitor × Bool :=
  if ¬ m.session then (m, false)
  else
    let m := m.sample d io false
    if ¬ m.last.valid then (m, false)
    else if m.last.charging then ({ m with latched := false }, false)
    else if gracefulSocPct ≤ m.last.socPct then (m, false)
    else if m.latched then (m, false)
    else ({ m with latched := true }, true)

/-- `OnAlert`: the gauge's alert goes off. -/
def onAlert : Monitor :=
  { m with alertPending := true, alert := ⟨m.alert.id + 1, m.active⟩ }

/-- `ServiceEmergency` up to its wait. -/
def beginService : Monitor :=
  if ¬ m.alertPending then m
  else
    { m with
      alertPending := false
      servicing := some m.alert
      log := m.log ++ [.serviced m.alert.id] }

/-- `Recovered`: every uncertain answer is no. -/
def recovered : Bool :=
  d.gauge && d.delayMs && io.reading.valid &&
    decide (emergencyMilliVolts + emergencyConfirmMarginMv ≤ io.reading.millivolts)

/-- `ServiceEmergency` from its wait on. -/
def endService (alert : Alert) : Monitor :=
  let m := if d.gauge ∧ d.delayMs then { m with last := io.reading } else m
  let m := { m with servicing := none }
  if recovered d io then { m.arm d io with log := m.log ++ [.cancelled] }
  else if d.onEmergency then { m with log := m.log ++ [.emergency alert.session m.active] }
  else m

end Monitor

inductive Act
  | beginSession (io : MonitorIO)
  | endSession
  | alert
  | beginService
  | endService (io : MonitorIO)
  | graceful (io : MonitorIO)
  deriving DecidableEq, Repr

/-- The gauge's alert goes off only while it is armed, and one service runs at a time. -/
def step (d : Deps) (m : Monitor) : Act → Option Monitor
  | .beginSession io => some (m.beginSession d io)
  | .endSession => some (m.endSession d)
  | .alert => if m.armed then some m.onAlert else none
  | .beginService =>
      match m.servicing with
      | none => some m.beginService
      | some _ => none
  | .endService io => m.servicing.map (m.endService d io)
  | .graceful io => some (m.gracefulThresholdCrossed d io).1

/-! ## What is asked of the monitor -/

/-- The alerts that were serviced. -/
def serviced (log : List Note) : List ℕ :=
  log.filterMap fun
    | .serviced alert => some alert
    | _ => none

/-- The gauge is armed in a session only, each alert is serviced once, and `on_emergency` runs in
the session in which its alert was raised. -/
structure Confined (m : Monitor) : Prop where
  armed : m.armed = true → m.session = true
  once : (serviced m.log).Nodup
  emergency : ∀ raised active, .emergency raised active ∈ m.log → ∀ n, raised = some n →
    active = some n

/-- Whatever happens in which order. -/
def AlwaysConfined : Prop :=
  ∀ d acts m, Run.run (step d) {} acts = some m → Confined m

/-- A service that arms the gauge ends in a session, and one that has the screen wiped ends in the
one in which its alert was raised. -/
def InSession (d : Deps) (m : Monitor) : Act → Prop
  | .endService io => ∀ alert ∈ m.servicing,
      if Monitor.recovered d io then io.arms = true → m.session = true
      else d.onEmergency = true → ∀ n ∈ alert.session, m.active = some n
  | _ => True

instance (d : Deps) (m : Monitor) : ∀ act, Decidable (InSession d m act)
  | .endService io =>
      inferInstanceAs (Decidable (∀ alert ∈ m.servicing,
        if Monitor.recovered d io then io.arms = true → m.session = true
        else d.onEmergency = true → ∀ n ∈ alert.session, m.active = some n))
  | .beginSession _ | .endSession | .alert | .beginService | .graceful _ => isTrue trivial

/-! ## What the steps keep -/

/-- What is known as long as every service ends in its session. -/
structure Inv (d : Deps) (m : Monitor) : Prop where
  confined : Confined m
  /-- No gauge, no alert. -/
  wired : d.gauge = false → m.armed = false
  /-- The flag was set by an alert that nobody has serviced. -/
  pending : m.alertPending = true → ∀ id ∈ serviced m.log, id < m.alert.id
  served : ∀ id ∈ serviced m.log, id ≤ m.alert.id

lemma serviced_append (ns ms : List Note) : serviced (ns ++ ms) = serviced ns ++ serviced ms :=
  List.filterMap_append

variable {d : Deps} {m m' : Monitor} {io : MonitorIO}

/-- What the gauge's readings do not touch. -/
structure SameAlerts (m m' : Monitor) : Prop where
  session : m'.session = m.session
  sessions : m'.sessions = m.sessions
  alertPending : m'.alertPending = m.alertPending
  alert : m'.alert = m.alert
  log : m'.log = m.log

lemma SameAlerts.trans {m'' : Monitor} (h : SameAlerts m m') (h' : SameAlerts m' m'') :
    SameAlerts m m'' :=
  ⟨h'.session.trans h.session, h'.sessions.trans h.sessions, h'.alertPending.trans h.alertPending,
    h'.alert.trans h.alert, h'.log.trans h.log⟩

lemma Inv.of_same (h : Inv d m) (hsame : SameAlerts m m')
    (harmed : m'.armed = true → m'.session = true) (hwired : d.gauge = false → m'.armed = false) :
    Inv d m' := by
  obtain ⟨-, -, hpending, halert, hlog⟩ := hsame
  refine ⟨⟨harmed, hlog ▸ h.confined.once, hlog ▸ h.confined.emergency⟩, hwired, ?_, ?_⟩
  · rw [hpending, hlog, halert]
    exact h.pending
  · rw [hlog, halert]
    exact h.served

lemma sample_same (d : Deps) (m : Monitor) (io : MonitorIO) (force : Bool) :
    SameAlerts m (m.sample d io force) ∧ (m.sample d io force).armed = m.armed := by
  unfold Monitor.sample
  split
  · exact ⟨⟨rfl, rfl, rfl, rfl, rfl⟩, rfl⟩
  · split
    · exact ⟨⟨rfl, rfl, rfl, rfl, rfl⟩, rfl⟩
    · exact ⟨⟨rfl, rfl, rfl, rfl, rfl⟩, rfl⟩

lemma arm_same (d : Deps) (m : Monitor) (io : MonitorIO) : SameAlerts m (m.arm d io) := by
  unfold Monitor.arm
  split <;> exact ⟨rfl, rfl, rfl, rfl, rfl⟩

lemma disarm_same (d : Deps) (m : Monitor) : SameAlerts m (m.disarm d) := by
  unfold Monitor.disarm
  split <;> exact ⟨rfl, rfl, rfl, rfl, rfl⟩

/-- A gauge that is not wired is never armed, so none is armed after this. -/
lemma armed_disarm (h : d.gauge = false → m.armed = false) : (m.disarm d).armed = false := by
  unfold Monitor.disarm
  cases hgauge : d.gauge with
  | true => rfl
  | false => exact h hgauge

lemma graceful_same (d : Deps) (m : Monitor) (io : MonitorIO) :
    SameAlerts m (m.gracefulThresholdCrossed d io).1 ∧
      (m.gracefulThresholdCrossed d io).1.armed = m.armed := by
  obtain ⟨⟨hsession, hsessions, hpending, halert, hlog⟩, harmed⟩ := sample_same d m io false
  unfold Monitor.gracefulThresholdCrossed
  split
  · exact ⟨⟨rfl, rfl, rfl, rfl, rfl⟩, rfl⟩
  · dsimp only
    split
    · exact ⟨⟨hsession, hsessions, hpending, halert, hlog⟩, harmed⟩
    · split
      · exact ⟨⟨hsession, hsessions, hpending, halert, hlog⟩, harmed⟩
      · split
        · exact ⟨⟨hsession, hsessions, hpending, halert, hlog⟩, harmed⟩
        · split <;> exact ⟨⟨hsession, hsessions, hpending, halert, hlog⟩, harmed⟩

lemma armed_arm (h : (m.arm d io).armed = true) : m.armed = true ∨ io.arms = true := by
  unfold Monitor.arm at h
  split at h
  · exact Bool.or_eq_true_iff.1 h
  · exact Or.inl h

lemma armed_arm_of_gauge (hgauge : d.gauge = true) :
    (m.arm d io).armed = (m.armed || io.arms) := by
  rw [Monitor.arm, if_pos hgauge]

lemma not_armed_arm (h : d.gauge = false) : (m.arm d io).armed = m.armed := by
  rw [Monitor.arm, if_neg (by simp [h])]

/-- A session that begins arms the gauge. -/
lemma Inv.beginSession (h : Inv d m) (io : MonitorIO) : Inv d (m.beginSession d io) := by
  unfold Monitor.beginSession
  split
  · exact h
  · set begun : Monitor := { m with session := true, sessions := m.sessions + 1 } with hbegun
    have hbegin : Inv d begun :=
      ⟨⟨fun _ => rfl, h.confined.once, h.confined.emergency⟩, h.wired, h.pending, h.served⟩
    obtain ⟨hsampled, harmed⟩ := sample_same d begun io true
    have hsample : Inv d (begun.sample d io true) := by
      refine hbegin.of_same hsampled (fun _ => ?_) (harmed ▸ hbegin.wired)
      rw [hsampled.session, hbegun]
    refine hsample.of_same (arm_same d _ io) (fun _ => ?_) fun hgauge => ?_
    · rw [(arm_same d _ io).session, hsampled.session, hbegun]
    · exact (not_armed_arm hgauge).trans (hsample.wired hgauge)

/-- One that ends disarms it. -/
lemma Inv.endSession (h : Inv d m) : Inv d (m.endSession d) := by
  unfold Monitor.endSession
  split
  · exact h
  · set ended : Monitor := { m with session := false } with hended
    have hoff : (ended.disarm d).armed = false := armed_disarm h.wired
    have hsame := disarm_same d ended
    refine ⟨⟨fun harmed => ?_, ?_, ?_⟩, fun _ => hoff, ?_, ?_⟩
    · rw [hoff] at harmed
      cases harmed
    · rw [hsame.log]
      exact h.confined.once
    · rw [hsame.log]
      exact h.confined.emergency
    · rw [hsame.alertPending, hsame.log, hsame.alert]
      exact h.pending
    · rw [hsame.log, hsame.alert]
      exact h.served

lemma Inv.onAlert (h : Inv d m) : Inv d m.onAlert :=
  ⟨⟨h.confined.armed, h.confined.once, h.confined.emergency⟩, h.wired,
    fun _ id hid => Nat.lt_succ_of_le (h.served id hid),
    fun id hid => (h.served id hid).trans (Nat.le_succ _)⟩

/-- A service takes the flag of an alert that was not serviced before. -/
lemma Inv.beginService (h : Inv d m) : Inv d m.beginService := by
  unfold Monitor.beginService
  split
  · exact h
  · rename_i hpending
    rw [not_not] at hpending
    have hserviced : serviced (m.log ++ [.serviced m.alert.id]) = serviced m.log ++ [m.alert.id] :=
      serviced_append ..
    refine ⟨⟨h.confined.armed, ?_, fun raised active hmem => ?_⟩, h.wired, nofun, fun id hid => ?_⟩
    · show (serviced (m.log ++ [.serviced m.alert.id])).Nodup
      rw [hserviced]
      refine List.nodup_append.2
        ⟨h.confined.once, List.nodup_singleton _, fun id hid last hlast => ?_⟩
      rw [List.mem_singleton.1 hlast]
      exact (h.pending hpending id hid).ne
    · refine h.confined.emergency raised active ?_
      simpa using hmem
    · have hid : id ∈ serviced m.log ++ [m.alert.id] := hserviced ▸ hid
      rcases List.mem_append.1 hid with hid | hid
      · exact h.served id hid
      · exact (List.mem_singleton.1 hid).le

/-! ## The end of a service -/

section EndService

variable (d : Deps) (m : Monitor) (io : MonitorIO) (alert : Alert)

/-- The monitor after the voltage was read again. -/
def read : Monitor :=
  { (if d.gauge ∧ d.delayMs then { m with last := io.reading } else m) with servicing := none }

lemma read_same : SameAlerts m (read d m io) ∧ (read d m io).armed = m.armed := by
  unfold read
  split <;> exact ⟨⟨rfl, rfl, rfl, rfl, rfl⟩, rfl⟩

lemma endService_eq :
    m.endService d io alert =
      if Monitor.recovered d io then
        { (read d m io).arm d io with log := (read d m io).log ++ [.cancelled] }
      else if d.onEmergency then
        { read d m io with
          log := (read d m io).log ++ [.emergency alert.session (read d m io).active] }
      else read d m io := rfl

end EndService

/-- A note that services nothing. -/
lemma Inv.of_note {n : Note} (h : Inv d m) (hsame : SameAlerts m m')
    (harmed : m'.armed = true → m'.session = true) (hwired : d.gauge = false → m'.armed = false)
    (hn : serviced [n] = [])
    (hemergency : ∀ raised active, n = .emergency raised active → ∀ k, raised = some k →
      active = some k) :
    Inv d { m' with log := m'.log ++ [n] } := by
  have hlog : serviced (m'.log ++ [n]) = serviced m.log := by
    rw [serviced_append, hn, List.append_nil, hsame.log]
  refine ⟨⟨harmed, hlog ▸ h.confined.once, fun raised active hmem => ?_⟩, hwired, ?_, ?_⟩
  · rcases List.mem_append.1 hmem with hmem | hmem
    · exact h.confined.emergency raised active (hsame.log ▸ hmem)
    · exact hemergency raised active (List.mem_singleton.1 hmem).symm
  · show m'.alertPending = true → ∀ id ∈ serviced (m'.log ++ [n]), id < m'.alert.id
    rw [hsame.alertPending, hlog, hsame.alert]
    exact h.pending
  · show ∀ id ∈ serviced (m'.log ++ [n]), id ≤ m'.alert.id
    rw [hlog, hsame.alert]
    exact h.served

lemma active_read (d : Deps) (m : Monitor) (io : MonitorIO) :
    (read d m io).active = m.active := by
  obtain ⟨hsame, -⟩ := read_same d m io
  rw [Monitor.active, hsame.session, hsame.sessions, Monitor.active]

/-- A service keeps what is known if it ends in its session. -/
lemma Inv.endService (h : Inv d m) {alert : Alert} (hservicing : m.servicing = some alert)
    (hin : InSession d m (.endService io)) : Inv d (m.endService d io alert) := by
  have hin := hin alert hservicing
  obtain ⟨hread, hreadArmed⟩ := read_same d m io
  rw [endService_eq]
  by_cases hrecovered : Monitor.recovered d io = true
  · rw [if_pos hrecovered] at hin ⊢
    have hsame := arm_same d (read d m io) io
    rw [← hsame.log]
    refine h.of_note (n := .cancelled) (hread.trans hsame) (fun harmed => ?_) (fun hgauge => ?_) rfl
      nofun
    · rw [hsame.session, hread.session]
      rcases armed_arm harmed with harmed | harms
      · exact h.confined.armed (hreadArmed ▸ harmed)
      · exact hin harms
    · rw [not_armed_arm hgauge, hreadArmed]
      exact h.wired hgauge
  · rw [if_neg hrecovered] at hin ⊢
    have harmed : (read d m io).armed = true → (read d m io).session = true := by
      rw [hreadArmed, hread.session]
      exact h.confined.armed
    by_cases hwire : d.onEmergency = true
    · rw [if_pos hwire]
      refine h.of_note hread harmed (hreadArmed ▸ h.wired) rfl fun raised active heq k hk => ?_
      obtain ⟨rfl, rfl⟩ := Note.emergency.inj heq
      rw [active_read]
      exact hin hwire k hk
    · rw [if_neg hwire]
      exact h.of_same hread harmed (hreadArmed ▸ h.wired)

/-- A service that does not end in its session shows. -/
lemma inSession_of_confined {alert : Alert}
    (hservicing : m.servicing = some alert) (hconfined : Confined (m.endService d io alert)) :
    InSession d m (.endService io) := by
  intro a ha
  obtain rfl := Option.some.inj (hservicing.symm.trans ha)
  obtain ⟨hread, hreadArmed⟩ := read_same d m io
  rw [endService_eq] at hconfined
  by_cases hrecovered : Monitor.recovered d io = true
  · rw [if_pos hrecovered] at hconfined ⊢
    intro harms
    have hgauge : d.gauge = true := by
      simp only [Monitor.recovered, Bool.and_eq_true] at hrecovered
      exact hrecovered.1.1.1
    have harmed : ((read d m io).arm d io).armed = true := by
      rw [armed_arm_of_gauge hgauge, harms, Bool.or_true]
    rw [← hread.session, ← (arm_same d (read d m io) io).session]
    exact hconfined.armed harmed
  · rw [if_neg hrecovered] at hconfined ⊢
    intro hwire n hn
    rw [if_pos hwire] at hconfined
    rw [← active_read d m io]
    exact hconfined.emergency alert.session _
      (List.mem_append_right _ (List.mem_singleton_self _)) n hn

/-! ## Every run -/

lemma inv_start (d : Deps) : Inv d {} :=
  ⟨⟨nofun, List.nodup_nil, fun _ _ h => nomatch h⟩, fun _ => rfl, nofun, fun _ h => nomatch h⟩

lemma Inv.step {act : Act} (h : Inv d m) (hstep : step d m act = some m') :
    (InSession d m act → Inv d m') ∧ (Confined m' → InSession d m act) := by
  cases act with
  | beginSession io =>
      obtain rfl := Option.some.inj hstep
      exact ⟨fun _ => h.beginSession io, fun _ => trivial⟩
  | endSession =>
      obtain rfl := Option.some.inj hstep
      exact ⟨fun _ => h.endSession, fun _ => trivial⟩
  | alert =>
      rw [Power.step] at hstep
      split at hstep
      · obtain rfl := Option.some.inj hstep
        exact ⟨fun _ => h.onAlert, fun _ => trivial⟩
      · cases hstep
  | beginService =>
      rw [Power.step] at hstep
      split at hstep
      · obtain rfl := Option.some.inj hstep
        exact ⟨fun _ => h.beginService, fun _ => trivial⟩
      · cases hstep
  | endService io =>
      obtain ⟨alert, hservicing, rfl⟩ := Option.map_eq_some_iff.1 hstep
      exact ⟨h.endService hservicing, inSession_of_confined hservicing⟩
  | graceful io =>
      obtain rfl := Option.some.inj hstep
      obtain ⟨hsame, harmed⟩ := graceful_same d m io
      refine ⟨fun _ => h.of_same hsame ?_ (harmed ▸ h.wired), fun _ => trivial⟩
      rw [harmed, hsame.session]
      exact h.confined.armed

/-- The session ends while an alert is pending, and the voltage is back when it is serviced. -/
def lateService : List Act :=
  [.beginSession {}, .alert, .endSession, .beginService,
    .endService { reading := ⟨40, 3700, false, true⟩ }]

/-- The same alert, serviced while the session lasts. -/
def timelyService : List Act :=
  [.beginSession {}, .alert, .beginService, .endService { reading := ⟨40, 3700, false, true⟩ },
    .alert, .beginService, .endService { reading := ⟨1, 3200, false, true⟩ }, .endSession]

end Chaskiwasi.Device.Power
