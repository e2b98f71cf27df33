import Chaskiwasi.Lib.Run
import Mathlib.Data.Int.Basic

/-!
# Waking up

Every wake is a boot.  `appMain` reads the uptime and the bookkeeping in the RTC segment, `decide`
picks the one job the boot exists for, `run` does it, and after a sync the next one is scheduled.

The segment outlives deep sleep, but the uptime starts over at each boot.  Both deadlines in the
segment, the next sync and the last charge of the doorbell limiter, are uptimes of the boot that
wrote them, and the boots that read them compare them with their own.  `Mark` keeps what the numbers
lost: the boot they belong to, and the moment they stood for.
-/

namespace Chaskiwasi.Device.Wake

/-! ## The policy -/

inductive Reason
  /-- Power-on or reset. -/
  | coldBoot
  | timer
  | keypress
  | usb
  /-- A wake source that was not armed. -/
  | unknown
  deriving DecidableEq, Repr

inductive SyncCause
  | none
  | firstBoot
  | scheduled
  | doorbell
  | outboundQueued
  | userKey
  deriving DecidableEq, Repr

/-- What survives deep sleep and dies with the power; all of it is zero then. -/
structure RtcState where
  magic : ℕ := 0
  bootCount : UInt32 := 0
  lastReason : Reason := .coldBoot
  unreadMirror : Bool := false
  unreadMirrorValid : Bool := false
  lastSmsWakeMs : ℤ := 0
  nextSyncDueMs : ℤ := 0
  deriving DecidableEq, Repr

def kRtcMagic : ℕ := 0x43483101

def kBootConservativeWindowMs : ℤ := 60000

def kMinWakeIntervalMs : ℤ := 5 * 60 * 1000

def intact (s : RtcState) : Bool := s.magic = kRtcMagic

/-- The conservative values of a boot that found nothing: the sync is due, and the limiter leaves
its window in one minute. -/
def reconstruct (uptimeMs : ℤ) : RtcState where
  magic := kRtcMagic
  lastReason := .coldBoot
  nextSyncDueMs := uptimeMs
  lastSmsWakeMs := uptimeMs + kBootConservativeWindowMs - kMinWakeIntervalMs
  unreadMirrorValid := false

def noteWake (s : RtcState) (r : Reason) : RtcState :=
  { s with lastReason := r, bootCount := s.bootCount + 1 }

def smsWakeAllowed (s : RtcState) (uptimeMs : ℤ) : Bool :=
  kMinWakeIntervalMs ≤ uptimeMs - s.lastSmsWakeMs

def noteSmsWake (s : RtcState) (uptimeMs : ℤ) : RtcState := { s with lastSmsWakeMs := uptimeMs }

def scheduleNextSync (s : RtcState) (uptimeMs intervalS : ℤ) : RtcState :=
  { s with nextSyncDueMs := uptimeMs + intervalS * 1000 }

def setUnreadMirror (s : RtcState) (anyUnread : Bool) : RtcState :=
  { s with unreadMirror := anyUnread, unreadMirrorValid := true }

def coverNeedsRerender (s : RtcState) (anyUnread : Bool) : Bool :=
  if s.unreadMirrorValid then s.unreadMirror != anyUnread else true

structure Inputs where
  reason : Reason
  uptimeMs : ℤ
  rtcIntact : Bool
  nextSyncDueMs : ℤ
  outboundQueued : Bool
  belowBatteryFloor : Bool := false
  deriving DecidableEq, Repr

structure Plan where
  pollDoorbell : Bool := false
  sync : Bool := false
  cause : SyncCause := .none
  openUi : Bool := false
  chargeMe : Bool := false
  deriving DecidableEq, Repr

namespace Inputs

variable (i : Inputs)

/-- Why a background wake syncs, if it does. -/
def syncIsDue : Option SyncCause :=
  if i.outboundQueued then some .outboundQueued
  else if !i.rtcIntact || i.nextSyncDueMs ≤ i.uptimeMs then some .scheduled
  else none

/-- A plan that syncs where that is due. -/
def dueSync (pollDoorbell : Bool) : Plan :=
  { pollDoorbell := pollDoorbell
    sync := i.syncIsDue.isSome
    cause := i.syncIsDue.getD .none }

def decide : Plan :=
  if i.belowBatteryFloor then { chargeMe := true }
  else
    match i.reason with
    | .keypress => { openUi := true }
    | .timer => i.dueSync true
    | .usb => i.dueSync false
    | .coldBoot => { sync := true, cause := .firstBoot }
    | .unknown => i.dueSync true

/-- A timer wake with a battery polls the doorbell, and syncs where that is due. -/
lemma decide_of_timer (h : i.reason = .timer) (hfloor : i.belowBatteryFloor = false) :
    i.decide = i.dueSync true := by
  rw [Inputs.decide, hfloor, h]
  rfl

end Inputs

/-- What draining the modem's buffer found. -/
structure DoorbellPoll where
  received : Bool := false
  accepted : Bool := false
  deriving DecidableEq, Repr

/-- What the jobs of a wake answer. -/
structure Jobs where
  pollDoorbell : DoorbellPoll := {}
  anyUnread : Bool := false
  deriving DecidableEq, Repr

structure RunResult where
  doorbellAccepted : Bool := false
  synced : Bool := false
  cause : SyncCause := .none
  uiOpened : Bool := false
  coverRendered : Bool := false
  chargeMe : Bool := false
  deriving DecidableEq, Repr

section Run

variable (i : Inputs) (rtc : RtcState) (jobs : Jobs)

/-- Whether the poll charges the limiter: a message came, and the window was open. -/
def charges : Bool :=
  i.decide.pollDoorbell && jobs.pollDoorbell.received && smsWakeAllowed rtc i.uptimeMs

/-- Whether the doorbell asks for a sync. -/
def rings : Bool :=
  i.decide.pollDoorbell && jobs.pollDoorbell.accepted && smsWakeAllowed rtc i.uptimeMs

def run : RunResult × RtcState :=
  if i.decide.chargeMe then ({ chargeMe := true, coverRendered := true }, rtc)
  else
    let charged := if charges i rtc jobs then noteSmsWake rtc i.uptimeMs else rtc
    let out : RunResult :=
      { doorbellAccepted := rings i rtc jobs
        synced := i.decide.sync || rings i rtc jobs
        cause := if rings i rtc jobs then .doorbell else i.decide.cause }
    if i.decide.openUi then ({ out with uiOpened := true }, charged)
    else
      ({ out with coverRendered := coverNeedsRerender charged jobs.anyUnread },
        setUnreadMirror charged jobs.anyUnread)

end Run

/-! ## One boot -/

/-- One boot, as the world around it decides it. -/
structure Boot where
  /-- How long the device was asleep, or off, before. -/
  gap : ℤ
  reason : Reason
  /-- The RTC segment was lost with the power. -/
  lost : Bool := false
  /-- The uptime as `app_main` reads it. -/
  uptimeMs : ℤ
  /-- The stores opened; where they do not, the device goes back to sleep. -/
  opened : Bool := true
  outboundQueued : Bool := false
  jobs : Jobs := {}
  /-- The uptime after the job, and the interval in the settings by then. -/
  doneMs : ℤ
  syncIntervalS : ℤ
  /-- The uptime as the device goes to sleep. -/
  sleepMs : ℤ
  deriving DecidableEq, Repr

def minSyncIntervalS : ℤ := 60

namespace Boot

variable (b : Boot) (rtc : RtcState)

/-- The segment as the boot finds it. -/
def segment : RtcState := if b.lost then {} else rtc

/-- The segment as it is repaired. -/
def found : RtcState :=
  noteWake (if intact (b.segment rtc) then b.segment rtc else reconstruct b.uptimeMs) b.reason

def inputs : Inputs where
  reason := b.reason
  uptimeMs := b.uptimeMs
  rtcIntact := intact (b.segment rtc)
  nextSyncDueMs := (b.found rtc).nextSyncDueMs
  outboundQueued := b.outboundQueued

def intervalS : ℤ :=
  if minSyncIntervalS < b.syncIntervalS then b.syncIntervalS else minSyncIntervalS

/-- What the wake did, and the segment then; nothing, where the stores did not open. -/
def ran : RunResult × RtcState :=
  if b.opened then run (b.inputs rtc) (b.found rtc) b.jobs else ({}, b.found rtc)

/-- The segment as the device goes to sleep. -/
def appMain : RtcState :=
  if (b.ran rtc).1.synced then scheduleNextSync (b.ran rtc).2 b.doneMs b.intervalS
  else (b.ran rtc).2

end Boot

/-! ## What a boot leaves in the segment -/

section Segment

variable (i : Inputs) (rtc : RtcState) (jobs : Jobs)

lemma run_segment : (run i rtc jobs).2.magic = rtc.magic ∧
    (run i rtc jobs).2.nextSyncDueMs = rtc.nextSyncDueMs ∧
    (run i rtc jobs).2.lastSmsWakeMs =
      if (!i.decide.chargeMe && charges i rtc jobs) = true then i.uptimeMs
      else rtc.lastSmsWakeMs := by
  unfold run
  cases hfloor : i.decide.chargeMe with
  | true => exact ⟨rfl, rfl, rfl⟩
  | false =>
      cases hcharges : charges i rtc jobs with
      | true =>
          cases i.decide.openUi with
          | true => exact ⟨rfl, rfl, rfl⟩
          | false => exact ⟨rfl, rfl, rfl⟩
      | false =>
          cases i.decide.openUi with
          | true => exact ⟨rfl, rfl, rfl⟩
          | false => exact ⟨rfl, rfl, rfl⟩

end Segment

namespace Boot

variable (b : Boot) (rtc : RtcState)

/-- Whether the boot finds the segment as the last one left it. -/
def keeps : Bool := intact (b.segment rtc)

lemma chargeMe_inputs : (b.inputs rtc).decide.chargeMe = false := by
  unfold Inputs.decide inputs
  rw [if_neg Bool.false_ne_true]
  cases b.reason with
  | coldBoot => rfl
  | timer => rfl
  | keypress => rfl
  | usb => rfl
  | unknown => rfl

/-- Whether the boot charges the limiter. -/
def chargesLimiter : Bool := b.opened && charges (b.inputs rtc) (b.found rtc) b.jobs

lemma intact_found : intact (b.found rtc) = true := by
  unfold found noteWake
  by_cases h : intact (b.segment rtc) = true
  · rw [if_pos h]
    exact h
  · rw [if_neg h]
    rfl

lemma ran_segment : intact (b.ran rtc).2 = true ∧
    (b.ran rtc).2.nextSyncDueMs = (b.found rtc).nextSyncDueMs ∧
    (b.ran rtc).2.lastSmsWakeMs =
      if b.chargesLimiter rtc = true then b.uptimeMs else (b.found rtc).lastSmsWakeMs := by
  have hfound := b.intact_found rtc
  unfold ran chargesLimiter
  cases hopened : b.opened with
  | false => exact ⟨hfound, rfl, rfl⟩
  | true =>
      obtain ⟨hmagic, hdue, hsms⟩ := run_segment (b.inputs rtc) (b.found rtc) b.jobs
      rw [b.chargeMe_inputs rtc, Bool.not_false, Bool.true_and] at hsms
      rw [if_pos rfl, Bool.true_and]
      refine ⟨?_, hdue, hsms⟩
      unfold intact
      rw [hmagic]
      exact hfound

/-- The deadline and the limiter after a boot. -/
lemma appMain_segment : intact (b.appMain rtc) = true ∧
    (b.appMain rtc).nextSyncDueMs =
      (if (b.ran rtc).1.synced = true then b.doneMs + b.intervalS * 1000
        else (b.found rtc).nextSyncDueMs) ∧
    (b.appMain rtc).lastSmsWakeMs =
      if b.chargesLimiter rtc = true then b.uptimeMs else (b.found rtc).lastSmsWakeMs := by
  obtain ⟨hran, hdue, hsms⟩ := b.ran_segment rtc
  unfold appMain
  by_cases hsynced : (b.ran rtc).1.synced = true
  · rw [if_pos hsynced, if_pos hsynced]
    exact ⟨hran, rfl, hsms⟩
  · rw [if_neg hsynced, if_neg hsynced]
    exact ⟨hran, hdue, hsms⟩

end Boot

/-! ## Sleeping and waking -/

/-- A moment that was written down as an uptime, and when the boot began that wrote it. -/
structure Mark where
  boot : ℤ
  time : ℤ
  deriving DecidableEq, Repr

structure Sleeper where
  rtc : RtcState
  /-- Real time, at which the device last went to sleep. -/
  clock : ℤ
  /-- When it last synced, and the interval until the next, in milliseconds.  Nothing reads this,
  nor the next two. -/
  lastSync : Option (ℤ × ℤ) := none
  due : Mark
  charged : Mark
  deriving DecidableEq, Repr

namespace Sleeper

variable (s : Sleeper) (b : Boot)

/-- When the boot begins. -/
def start : ℤ := s.clock + b.gap

/-- The time as `app_main` reads the uptime. -/
def now : ℤ := s.start b + b.uptimeMs

/-- When the sync is due, as the boot finds it. -/
def dueAt : Mark := if b.keeps s.rtc then s.due else ⟨s.start b, s.now b⟩

/-- When the limiter was last charged, as the boot finds it; a limiter that was lost is as if
charged so that one minute is left. -/
def chargedAt : Mark :=
  if b.keeps s.rtc then s.charged
  else ⟨s.start b, s.now b + kBootConservativeWindowMs - kMinWakeIntervalMs⟩

def step : Option Sleeper :=
  if 0 ≤ b.gap ∧ 0 ≤ b.uptimeMs ∧ b.uptimeMs ≤ b.doneMs ∧ b.doneMs ≤ b.sleepMs then
    let done := s.start b + b.doneMs
    some
      { rtc := b.appMain s.rtc
        clock := s.start b + b.sleepMs
        lastSync :=
          if (b.ran s.rtc).1.synced then some (done, b.intervalS * 1000) else s.lastSync
        due :=
          if (b.ran s.rtc).1.synced then ⟨s.start b, done + b.intervalS * 1000⟩ else s.dueAt b
        charged := if b.chargesLimiter s.rtc then ⟨s.start b, s.now b⟩ else s.chargedAt b }
  else none

/-- Whether the interval has passed since the last sync. -/
def Late : Prop := ∃ x ∈ s.lastSync, x.2 ≤ s.now b - x.1

instance : Decidable (s.Late b) := inferInstanceAs (Decidable (∃ x ∈ s.lastSync, _))

/-- A timer wake that comes late syncs, and five minutes after it was charged the limiter lets the
doorbell through. -/
def Punctual : Prop :=
  b.opened = true →
    (b.reason = .timer → s.Late b → (b.inputs s.rtc).decide.sync = true) ∧
      (kMinWakeIntervalMs ≤ s.now b - (s.chargedAt b).time →
        smsWakeAllowed (b.found s.rtc) b.uptimeMs = true)

instance : Decidable (s.Punctual b) := inferInstanceAs (Decidable (_ → _))

/-- A letter is queued, or the segment was lost, or the deadline has passed by at least as long as
lies between the starts of the two boots; and the same of the five minutes, where they have
passed. -/
def MakesUp : Prop :=
  b.opened = true →
    (b.reason = .timer → s.Late b → b.outboundQueued = true ∨ b.keeps s.rtc = false ∨
      s.start b - (s.dueAt b).boot ≤ s.now b - (s.dueAt b).time) ∧
      (kMinWakeIntervalMs ≤ s.now b - (s.chargedAt b).time →
        kMinWakeIntervalMs + (s.start b - (s.chargedAt b).boot) ≤ s.now b - (s.chargedAt b).time)

instance : Decidable (s.MakesUp b) := inferInstanceAs (Decidable (_ → _))

/-- The segment holds the marks, each as an uptime of its own boot. -/
def Kept : Prop :=
  intact s.rtc = true →
    s.rtc.nextSyncDueMs = s.due.time - s.due.boot ∧
      s.rtc.lastSmsWakeMs = s.charged.time - s.charged.boot

variable {s b} {s' s₀ : Sleeper} {bs : List Boot}

/-- The same of the segment that a boot has found or repaired. -/
lemma Kept.found (h : s.Kept) :
    (b.found s.rtc).nextSyncDueMs = (s.dueAt b).time - (s.dueAt b).boot ∧
      (b.found s.rtc).lastSmsWakeMs = (s.chargedAt b).time - (s.chargedAt b).boot := by
  unfold Boot.found dueAt chargedAt Boot.keeps
  by_cases hkeeps : intact (b.segment s.rtc) = true
  · rw [if_pos hkeeps, if_pos hkeeps, if_pos hkeeps]
    have hsegment : b.segment s.rtc = s.rtc := by
      unfold Boot.segment at hkeeps ⊢
      cases hlost : b.lost with
      | false => rfl
      | true =>
          rw [hlost, if_pos rfl] at hkeeps
          cases hkeeps
    rw [hsegment] at hkeeps ⊢
    exact h hkeeps
  · rw [if_neg hkeeps, if_neg hkeeps, if_neg hkeeps]
    unfold noteWake reconstruct now
    constructor
    · simp only
      omega
    · simp only
      omega

lemma Kept.step (h : s.Kept) (hstep : s.step b = some s') : s'.Kept := by
  unfold Sleeper.step at hstep
  by_cases htimes : 0 ≤ b.gap ∧ 0 ≤ b.uptimeMs ∧ b.uptimeMs ≤ b.doneMs ∧ b.doneMs ≤ b.sleepMs
  swap
  · rw [if_neg htimes] at hstep
    cases hstep
  rw [if_pos htimes] at hstep
  obtain rfl := Option.some.inj hstep
  obtain ⟨-, hdue, hsms⟩ := b.appMain_segment s.rtc
  obtain ⟨hdueAt, hchargedAt⟩ := h.found (b := b)
  intro _
  constructor
  · rw [hdue]
    by_cases hsynced : (b.ran s.rtc).1.synced = true
    · simp only [if_pos hsynced]
      omega
    · simp only [if_neg hsynced]
      exact hdueAt
  · rw [hsms]
    by_cases hcharges : b.chargesLimiter s.rtc = true
    · simp only [if_pos hcharges, now]
      omega
    · simp only [if_neg hcharges]
      exact hchargedAt

/-- What one boot does is right exactly where it makes up for the boot that wrote the mark. -/
lemma Kept.punctual_iff_makesUp (h : s.Kept) : s.Punctual b ↔ s.MakesUp b := by
  obtain ⟨hdue, hsms⟩ := h.found (b := b)
  refine forall_congr' fun _ => and_congr (forall_congr' fun htimer => forall_congr' fun _ => ?_)
    (forall_congr' fun _ => ?_)
  · rw [Inputs.decide_of_timer _ htimer rfl]
    unfold Inputs.dueSync Inputs.syncIsDue
    change Option.isSome (if b.outboundQueued = true then _ else
      if (!b.keeps s.rtc || decide ((b.found s.rtc).nextSyncDueMs ≤ b.uptimeMs)) = true then _
        else none) = true ↔ _
    rw [hdue]
    cases b.outboundQueued with
    | true => simp
    | false =>
        cases b.keeps s.rtc with
        | false => simp
        | true =>
            have hearly : (s.dueAt b).time - (s.dueAt b).boot ≤ b.uptimeMs ↔
                s.start b - (s.dueAt b).boot ≤ s.now b - (s.dueAt b).time := by
              unfold now
              omega
            simp [← hearly]
  · unfold smsWakeAllowed
    rw [decide_eq_true_eq, hsms]
    unfold now
    omega

/-- A device is punctual in all its boots exactly where each of them makes up for the boot that
wrote the mark. -/
theorem punctual_iff (h : s₀.rtc = {}) :
    Run.Meets step Punctual s₀ bs ↔ Run.Meets step MakesUp s₀ bs := by
  refine Run.meets_congr (I := Kept) (fun _ _ _ hs hstep => hs.step hstep)
    (fun _ _ hs => hs.punctual_iff_makesUp) ?_
  intro hintact
  rw [h] at hintact
  cases hintact

end Sleeper

namespace Sample

def firstBoot : Boot where
  gap := 0
  reason := .coldBoot
  uptimeMs := 400
  doneMs := 5000
  syncIntervalS := 60
  sleepMs := 6000

def timerBoot : Boot where
  gap := 900000
  reason := .timer
  uptimeMs := 400
  doneMs := 500
  syncIntervalS := 60
  sleepMs := 600

/-- A boot with a letter to send that reads the uptime after a minute. -/
def slowBoot : Boot :=
  { timerBoot with outboundQueued := true, uptimeMs := 61000, doneMs := 62000, sleepMs := 63000 }

/-- A device that was never powered. -/
def newSleeper : Sleeper where
  rtc := {}
  clock := 0
  due := ⟨0, 0⟩
  charged := ⟨0, 0⟩

end Sample

namespace Sleeper

theorem punctual_iff_slowBoot :
    Run.Meets step Punctual Sample.newSleeper [Sample.firstBoot, Sample.slowBoot] :=
  (punctual_iff rfl).2 (by decide)

/-- A quarter of an hour after a sync that was to be repeated each minute, the timer wake finds that
it is not due. -/
theorem timer_wake_too_early :
    ¬ ∀ (s₀ : Sleeper) (bs : List Boot), s₀.rtc = {} → Run.Meets step Punctual s₀ bs := by
  intro h
  have hpunctual := h Sample.newSleeper [Sample.firstBoot, Sample.timerBoot] rfl
  revert hpunctual
  decide

end Sleeper

/-! ### Devices that only sleep -/

/-- A timer wake with nothing to send and no doorbell, which reads the uptime in its first
minute. -/
structure Boot.Quiet (b : Boot) : Prop where
  reason : b.reason = .timer
  kept : b.lost = false
  nothing : b.outboundQueued = false
  silent : b.jobs.pollDoorbell.accepted = false
  early : b.uptimeMs < 60000

/-- A deadline that no first minute reaches. -/
def Sleeper.Unreached (s : Sleeper) : Prop :=
  intact s.rtc = true ∧ 60000 ≤ s.rtc.nextSyncDueMs

namespace Sleeper

variable {s s' t : Sleeper} {b : Boot} {bs : List Boot}

lemma Unreached.found (h : s.Unreached) (hb : b.Quiet) :
    b.keeps s.rtc = true ∧ b.found s.rtc = noteWake s.rtc b.reason := by
  have hsegment : b.segment s.rtc = s.rtc := by
    unfold Boot.segment
    rw [hb.kept]
    rfl
  unfold Boot.keeps Boot.found
  rw [hsegment, if_pos h.1]
  exact ⟨h.1, rfl⟩

lemma Unreached.not_synced (h : s.Unreached) (hb : b.Quiet) :
    (b.ran s.rtc).1.synced = false := by
  obtain ⟨hkeeps, hfound⟩ := h.found hb
  unfold Boot.ran
  cases b.opened with
  | false => rfl
  | true =>
      have hdue : (b.inputs s.rtc).syncIsDue = none := by
        unfold Inputs.syncIsDue
        have hnot : ¬ (b.found s.rtc).nextSyncDueMs ≤ b.uptimeMs := by
          rw [hfound]
          have hearly := hb.early
          have hreach := h.2
          change ¬ s.rtc.nextSyncDueMs ≤ b.uptimeMs
          omega
        rw [if_neg, if_neg]
        · change ¬ (!b.keeps s.rtc || _) = true
          rw [hkeeps, Bool.not_true, Bool.false_or, decide_eq_true_eq]
          exact hnot
        · change ¬ b.outboundQueued = true
          rw [hb.nothing]
          exact Bool.false_ne_true
      have hsync : (b.inputs s.rtc).decide.sync = false := by
        rw [Inputs.decide_of_timer _ hb.reason rfl, Inputs.dueSync, hdue]
        rfl
      have hrings : rings (b.inputs s.rtc) (b.found s.rtc) b.jobs = false := by
        unfold rings
        rw [hb.silent, Bool.and_false, Bool.false_and]
      change (run _ _ _).1.synced = false
      unfold run
      rw [b.chargeMe_inputs s.rtc, if_neg Bool.false_ne_true, hsync, hrings]
      cases (b.inputs s.rtc).decide.openUi with
      | true => rfl
      | false => rfl

lemma Unreached.step (h : s.Unreached) (hb : b.Quiet) (hstep : s.step b = some s') :
    s'.Unreached ∧ s'.lastSync = s.lastSync := by
  have hnot := h.not_synced hb
  obtain ⟨hintact, hdue, -⟩ := b.appMain_segment s.rtc
  rw [hnot, if_neg Bool.false_ne_true, (h.found hb).2] at hdue
  unfold Sleeper.step at hstep
  by_cases htimes : 0 ≤ b.gap ∧ 0 ≤ b.uptimeMs ∧ b.uptimeMs ≤ b.doneMs ∧ b.doneMs ≤ b.sleepMs
  · rw [if_pos htimes] at hstep
    obtain rfl := Option.some.inj hstep
    refine ⟨⟨hintact, ?_⟩, if_neg (by rw [hnot]; exact Bool.false_ne_true)⟩
    rw [hdue]
    exact h.2
  · rw [if_neg htimes] at hstep
    cases hstep

/-- However long it sleeps, a device that is woken by its timer alone never syncs on schedule. -/
theorem never_on_schedule (h : s.Unreached) (hquiet : ∀ b ∈ bs, b.Quiet)
    (hrun : Run.run step s bs = some t) : t.lastSync = s.lastSync := by
  have hend : t.Unreached ∧ t.lastSync = s.lastSync :=
    Run.run_invariant_of_meets (I := fun u => u.Unreached ∧ u.lastSync = s.lastSync)
      (fun u b u' hu hb hstep =>
        let hlater := hu.1.step hb hstep
        ⟨hlater.1, hlater.2.trans hu.2⟩)
      ⟨h, rfl⟩ (Run.meets_of_mem hquiet) hrun
  exact hend.2

end Sleeper
end Chaskiwasi.Device.Wake
