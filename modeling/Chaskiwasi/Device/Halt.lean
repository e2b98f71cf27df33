import Chaskiwasi.Device.Wake

/-!
# The provisioning halt

A server that answers 401 does not know the device, and asking again does not help.  So a 401 halts
the engine, and `runSync` passes over a halted engine until the sync key is pressed.

The halt is a field of the engine, and the engine is built anew by every boot and every time the
letters are formatted.  `Asker` keeps beside it what the field was for: whether the device stands
refused (`refused`), and whether the engine is another one since (`rebuilt`).
-/

namespace Chaskiwasi.Device.Halt

open Wake

/-! ## The engine -/

inductive Trigger
  | userKey
  | scheduled
  | pututu
  | outboundQueued
  deriving DecidableEq, Repr

inductive Fault
  | none
  | noSignal
  | cantReachHome
  /-- 401. -/
  | provisioningFault
  | roadBusy
  | serverFault
  deriving DecidableEq, Repr

inductive Outcome
  | ok
  | transportFail
  | tlsTrustFail
  deriving DecidableEq, Repr

/-- What became of a response that could be decoded. -/
structure Applied where
  more : Bool
  applyIncomplete : Bool
  deriving DecidableEq, Repr

/-- What the transport brings back, and what the device makes of it; `none` is a body that it cannot
decode. -/
structure Result where
  outcome : Outcome := .ok
  httpStatus : ℤ := 200
  retryAfterS : ℤ := 0
  applied : Option Applied := none
  deriving DecidableEq, Repr

def faultFor (r : Result) : Fault :=
  match r.outcome with
  | .tlsTrustFail => .cantReachHome
  | .transportFail => .noSignal
  | .ok =>
      if r.httpStatus = 200 then .none
      else if r.httpStatus = 401 then .provisioningFault
      else if r.httpStatus = 503 then .roadBusy
      else .serverFault

structure EngineImpl where
  consecutiveFailures : ℕ := 0
  retryAfterMs : ℤ := 0
  halted : Bool := false
  deriving DecidableEq, Repr

def kBackoffLadderMs : List ℤ := [30 * 1000, 2 * 60 * 1000, 10 * 60 * 1000]

def kMaxRetryAfterS : ℤ := 24 * 60 * 60

def kBackoffNextScheduledWake : ℤ := 0

def kBackoffHalted : ℤ := -1

def maxDrainRounds : ℕ := 10

namespace EngineImpl

variable (e : EngineImpl)

/-- A 401 stops, a 503 may say when, and anything else takes the next step of the ladder. -/
def noteFailure (f : Fault) (retryAfterS : ℤ) : EngineImpl :=
  if f = .provisioningFault then { e with halted := true, retryAfterMs := 0 }
  else if f = .roadBusy ∧ 0 < retryAfterS then
    let s := if retryAfterS < kMaxRetryAfterS then retryAfterS else kMaxRetryAfterS
    { e with retryAfterMs := s * 1000 }
  else { e with retryAfterMs := 0, consecutiveFailures := e.consecutiveFailures + 1 }

def nextBackoffMs : ℤ :=
  if e.halted then kBackoffHalted
  else if 0 < e.retryAfterMs then e.retryAfterMs
  else
    match e.consecutiveFailures with
    | 0 => kBackoffNextScheduledWake
    | n + 1 => kBackoffLadderMs.getD n kBackoffNextScheduledWake

def resetBackoff : EngineImpl := {}

/-- The rounds of one sync, with so many left: on `more` the next one follows at once. -/
def drain (results : ℕ → Result) : ℕ → ℕ → EngineImpl → Fault × EngineImpl
  | 0, _, e => (.none, e)
  | left + 1, round, e =>
      let r := results round
      if faultFor r ≠ .none then (faultFor r, e.noteFailure (faultFor r) r.retryAfterS)
      else
        match r.applied with
        | none => (.serverFault, e.noteFailure .serverFault 0)
        | some a =>
            if a.applyIncomplete || !a.more then (.none, e) else drain results left (round + 1) e

/-- The fault of a sync, and the engine after it. -/
def runOnce (t : Trigger) (results : ℕ → Result) : Fault × EngineImpl :=
  let e := if t = .userKey then resetBackoff else e
  let r := drain results maxDrainRounds 0 e
  (r.1, if r.1 = .none then resetBackoff else r.2)

end EngineImpl

/-! ## What starts a sync -/

structure SyncReport where
  attempted : Bool := false
  fault : Fault := .none
  backoffMs : ℤ := 0
  deriving DecidableEq, Repr

/-- The only place a sync starts; there is no engine where the build has no transport. -/
def runSync (engine : Option EngineImpl) (t : Trigger) (results : ℕ → Result) :
    SyncReport × Option EngineImpl :=
  match engine with
  | none => ({ fault := .noSignal }, none)
  | some e =>
      if t ≠ .userKey ∧ e.nextBackoffMs = kBackoffHalted then
        ({ fault := .provisioningFault, backoffMs := kBackoffHalted }, some e)
      else
        let r := e.runOnce t results
        ({ attempted := true, fault := r.1, backoffMs := r.2.nextBackoffMs }, some r.2)

def triggerFor : SyncCause → Trigger
  | .userKey => .userKey
  | .doorbell => .pututu
  | .outboundQueued => .outboundQueued
  | .none | .firstBoot | .scheduled => .scheduled

/-- A new engine, where there is a link. -/
def buildEngine (link : Bool) : Option EngineImpl := if link then some {} else none

structure Asker where
  rtc : RtcState
  engine : Option EngineImpl := none
  /-- The last answer was a 401, and nobody pressed the key or stored a token since.  Nothing reads
  this, nor the next. -/
  refused : Bool := false
  /-- The engine is not the one that had that answer. -/
  rebuilt : Bool := false
  deriving DecidableEq, Repr

inductive Event
  /-- A wake, with what the transport brings back if it syncs. -/
  | boot (b : Boot) (link : Bool) (results : ℕ → Result)
  /-- A sync within a session. -/
  | sync (t : Trigger) (results : ℕ → Result)
  /-- The letters are formatted, or that fails. -/
  | reformat (ok link : Bool)
  | setDeviceToken (ok link : Bool)

namespace Asker

variable (s : Asker)

/-- The engine a boot builds; none, where the stores do not open. -/
def built (b : Boot) (link : Bool) : Option EngineImpl :=
  if b.opened then buildEngine link else none

/-- The sync an event starts: its trigger, its report and the engine after it. -/
def syncOf : Event → Option (Trigger × SyncReport × Option EngineImpl)
  | .boot b link results =>
      if (b.ran s.rtc).1.synced then
        let t := triggerFor (b.ran s.rtc).1.cause
        some (t, runSync (built b link) t results)
      else none
  | .sync t results => some (t, runSync s.engine t results)
  | .reformat _ _ | .setDeviceToken _ _ => none

/-- Whether the device stands refused after a sync. -/
def refusedAfter (t : Trigger) (r : SyncReport) : Bool :=
  if r.attempted && r.fault = .provisioningFault then true
  else if t = .userKey then false
  else s.refused

/-- Whether a sync was answered with a 401. -/
def answered401 (r : SyncReport) : Bool := r.attempted && r.fault = .provisioningFault

def step : Event → Option Asker
  | .boot b link results =>
      some
        { rtc := b.appMain s.rtc
          engine :=
            match s.syncOf (.boot b link results) with
            | none => built b link
            | some (_, _, engine) => engine
          refused :=
            match s.syncOf (.boot b link results) with
            | none => s.refused
            | some (t, r, _) => s.refusedAfter t r
          rebuilt :=
            match s.syncOf (.boot b link results) with
            | none => true
            | some (_, r, _) => !answered401 r }
  | .sync t results =>
      let r := runSync s.engine t results
      some
        { s with
          engine := r.2
          refused := s.refusedAfter t r.1
          rebuilt := if answered401 r.1 then false else s.rebuilt }
  | .reformat ok link =>
      some { s with engine := if ok then buildEngine link else none, rebuilt := true }
  | .setDeviceToken ok link =>
      if ok then some { s with engine := buildEngine link, refused := false } else some s

/-- While the device stands refused, nothing but the key makes an attempt. -/
def Holds (e : Event) : Prop :=
  s.refused = true → ∀ x ∈ s.syncOf e, x.2.1.attempted = true → x.1 = .userKey

instance (e : Event) : Decidable (s.Holds e) := inferInstanceAs (Decidable (_ → _))

/-- While the device stands refused, no wake of a device with a transport calls for a sync, and no
background sync is asked of an engine that is another one since. -/
def Undisturbed (e : Event) : Prop :=
  s.refused = true →
    match e with
    | .boot b link _ => (b.ran s.rtc).1.synced = false ∨ link = false
    | .sync t _ => t = .userKey ∨ s.engine = none ∨ s.rebuilt = false
    | .reformat _ _ | .setDeviceToken _ _ => True

instance : ∀ e, Decidable (s.Undisturbed e)
  | .boot _ _ _ => inferInstanceAs (Decidable (_ → _ ∨ _))
  | .sync _ _ => inferInstanceAs (Decidable (_ → _ ∨ _ ∨ _))
  | .reformat _ _ => inferInstanceAs (Decidable (_ → True))
  | .setDeviceToken _ _ => inferInstanceAs (Decidable (_ → True))

/-- The engine is halted where it is the one that was refused. -/
def Kept : Prop := ∀ e ∈ s.engine, e.halted = (s.refused && !s.rebuilt)

end Asker

/-! ## When an engine is halted -/

namespace EngineImpl

variable (e : EngineImpl)

lemma halted_noteFailure (f : Fault) (n : ℤ) :
    (e.noteFailure f n).halted = (e.halted || decide (f = .provisioningFault)) := by
  unfold noteFailure
  by_cases hfault : f = .provisioningFault
  · rw [if_pos hfault, decide_eq_true hfault, Bool.or_true]
  · rw [if_neg hfault, decide_eq_false hfault, Bool.or_false]
    by_cases hbusy : f = .roadBusy ∧ 0 < n
    · rw [if_pos hbusy]
    · rw [if_neg hbusy]

/-- The pauses of the ladder are no halt. -/
lemma nextBackoffMs_eq_halted_iff : e.nextBackoffMs = kBackoffHalted ↔ e.halted = true := by
  have hladder : ∀ n, 0 ≤ kBackoffLadderMs.getD n kBackoffNextScheduledWake := by
    intro n
    match n with
    | 0 | 1 | 2 => decide
    | n + 3 => exact Int.le_refl _
  have hhalted : kBackoffHalted < 0 := by decide
  unfold nextBackoffMs
  cases e.halted with
  | true => simp
  | false =>
      rw [if_neg Bool.false_ne_true]
      refine iff_of_false (fun h => ?_) Bool.false_ne_true
      by_cases hretry : 0 < e.retryAfterMs
      · rw [if_pos hretry] at h
        omega
      · rw [if_neg hretry] at h
        cases hfailures : e.consecutiveFailures with
        | zero =>
            rw [hfailures] at h
            cases h
        | succ n =>
            rw [hfailures] at h
            have hpause := hladder n
            simp only at h
            omega

/-- Of the rounds of a sync only a 401 halts, and it is the last. -/
lemma halted_drain (results : ℕ → Result) (left round : ℕ) (h : e.halted = false) :
    (e.drain results left round).2.halted =
      decide ((e.drain results left round).1 = .provisioningFault) := by
  induction left generalizing round with
  | zero => exact h
  | succ left ih =>
      unfold drain
      by_cases hfault : faultFor (results round) = .none
      · simp only [hfault, ne_eq, not_true, if_false]
        cases (results round).applied with
        | none => rw [halted_noteFailure, h, Bool.false_or]
        | some a =>
            by_cases hlast : (a.applyIncomplete || !a.more) = true
            · simp only [if_pos hlast]
              exact h
            · simp only [if_neg hlast]
              exact ih (round + 1)
      · simp only [ne_eq, hfault, not_false_iff, if_true]
        rw [halted_noteFailure, h, Bool.false_or]

/-- A sync that is made leaves the engine halted exactly where a 401 ended it. -/
lemma halted_runOnce (t : Trigger) (results : ℕ → Result) (h : t = .userKey ∨ e.halted = false) :
    (e.runOnce t results).2.halted =
      decide ((e.runOnce t results).1 = .provisioningFault) := by
  have hstart : (if t = .userKey then resetBackoff else e).halted = false := by
    by_cases hkey : t = .userKey
    · rw [if_pos hkey]
      rfl
    · rw [if_neg hkey]
      exact h.resolve_left hkey
  have hdrain := halted_drain _ results maxDrainRounds 0 hstart
  unfold runOnce
  simp only
  by_cases hfault : (drain results maxDrainRounds 0 (if t = .userKey then resetBackoff else e)).1 =
      .none
  · rw [if_pos hfault, hfault]
    rfl
  · rw [if_neg hfault]
    exact hdrain

end EngineImpl

/-! ## What a sync makes of the halt -/

section RunSync

variable {e : EngineImpl} {t : Trigger}

lemma runSync_of_halted (results : ℕ → Result) (ht : t ≠ .userKey) (h : e.halted = true) :
    runSync (some e) t results =
      ({ fault := .provisioningFault, backoffMs := kBackoffHalted }, some e) := by
  unfold runSync
  exact if_pos ⟨ht, e.nextBackoffMs_eq_halted_iff.2 h⟩

/-- Where the key was pressed or nothing is halted, the attempt is made, and it leaves the engine
halted exactly where the answer was a 401. -/
lemma runSync_of_free (results : ℕ → Result) (h : t = .userKey ∨ e.halted = false) :
    (runSync (some e) t results).1.attempted = true ∧
      ∃ e', (runSync (some e) t results).2 = some e' ∧
        e'.halted = Asker.answered401 (runSync (some e) t results).1 := by
  have hfree : ¬ (t ≠ .userKey ∧ e.nextBackoffMs = kBackoffHalted) := by
    rintro ⟨ht, hhalted⟩
    have hnot := h.resolve_left ht
    rw [e.nextBackoffMs_eq_halted_iff.1 hhalted] at hnot
    cases hnot
  have hafter := e.halted_runOnce t results h
  unfold runSync
  simp only
  rw [if_neg hfree]
  exact ⟨rfl, _, rfl, hafter⟩

end RunSync

lemma triggerFor_eq_userKey {c : SyncCause} (h : triggerFor c = .userKey) : c = .userKey := by
  cases c with
  | userKey => rfl
  | none => cases h
  | firstBoot => cases h
  | scheduled => cases h
  | doorbell => cases h
  | outboundQueued => cases h

/-- A wake never syncs for the key. -/
lemma cause_ran (b : Boot) (rtc : RtcState) : (b.ran rtc).1.cause ≠ .userKey := by
  have hdue : (b.inputs rtc).syncIsDue ≠ some .userKey := by
    unfold Inputs.syncIsDue
    by_cases hqueued : (b.inputs rtc).outboundQueued = true
    · rw [if_pos hqueued]
      nofun
    · rw [if_neg hqueued]
      by_cases hdue : (!(b.inputs rtc).rtcIntact ||
          decide ((b.inputs rtc).nextSyncDueMs ≤ (b.inputs rtc).uptimeMs)) = true
      · rw [if_pos hdue]
        nofun
      · rw [if_neg hdue]
        nofun
  have hdueSync : ∀ poll, ((b.inputs rtc).dueSync poll).cause ≠ .userKey := by
    intro poll
    unfold Inputs.dueSync
    cases hcause : (b.inputs rtc).syncIsDue with
    | none => nofun
    | some c =>
        intro h
        rw [hcause] at hdue
        exact hdue (congrArg some h)
  have hplan : (b.inputs rtc).decide.cause ≠ .userKey := by
    unfold Inputs.decide
    cases (b.inputs rtc).belowBatteryFloor with
    | true => nofun
    | false =>
        rw [if_neg Bool.false_ne_true]
        cases (b.inputs rtc).reason with
        | coldBoot => nofun
        | timer => exact hdueSync true
        | keypress => nofun
        | usb => exact hdueSync false
        | unknown => exact hdueSync true
  unfold Boot.ran
  cases b.opened with
  | false => nofun
  | true =>
      rw [if_pos rfl]
      unfold run
      rw [b.chargeMe_inputs rtc, if_neg Bool.false_ne_true]
      have hcause : (if rings (b.inputs rtc) (b.found rtc) b.jobs = true then SyncCause.doorbell
          else (b.inputs rtc).decide.cause) ≠ .userKey := by
        by_cases hrings : rings (b.inputs rtc) (b.found rtc) b.jobs = true
        · rw [if_pos hrings]
          nofun
        · rw [if_neg hrings]
          exact hplan
      cases (b.inputs rtc).decide.openUi with
      | true => exact hcause
      | false => exact hcause

namespace Asker

variable {s s' s₀ : Asker} {e : Event} {es : List Event} {t : Trigger} {results : ℕ → Result}

/-! ## The halt follows the last answer -/

lemma built_eq_of_synced {b : Boot} {rtc : RtcState} (h : (b.ran rtc).1.synced = true)
    (link : Bool) : built b link = buildEngine link := by
  unfold built
  cases hopened : b.opened with
  | true => rfl
  | false =>
      unfold Boot.ran at h
      rw [hopened] at h
      cases h

lemma syncOf_boot {b : Boot} (h : (b.ran s.rtc).1.synced = true) (link : Bool)
    (results : ℕ → Result) :
    s.syncOf (.boot b link results) =
      some (triggerFor (b.ran s.rtc).1.cause,
        runSync (buildEngine link) (triggerFor (b.ran s.rtc).1.cause) results) := by
  unfold syncOf
  simp only [if_pos h, built_eq_of_synced h]

lemma syncOf_boot_none {b : Boot} (h : ¬ (b.ran s.rtc).1.synced = true) (link : Bool)
    (results : ℕ → Result) : s.syncOf (.boot b link results) = none := by
  unfold syncOf
  exact if_neg h

/-- A new engine is not halted. -/
lemma kept_new (opened link : Bool) (h : (s.refused && !s.rebuilt) = false) :
    ({ s with engine := if opened then buildEngine link else none } : Asker).Kept := by
  intro e he
  cases opened with
  | false => cases he
  | true =>
      cases link with
      | false => cases he
      | true =>
          obtain rfl := Option.some.inj he
          exact h.symm

/-- A sync keeps the halt in step: what is skipped changes nothing, and what is made halts exactly
where it is refused. -/
lemma Kept.sync (h : s.Kept) (t : Trigger) (results : ℕ → Result) :
    ({ s with
      engine := (runSync s.engine t results).2
      refused := s.refusedAfter t (runSync s.engine t results).1
      rebuilt := if answered401 (runSync s.engine t results).1 then false else s.rebuilt } :
      Asker).Kept := by
  intro e' he'
  cases hengine : s.engine with
  | none =>
      simp only [hengine] at he'
      cases he'
  | some e =>
      have hhalted : e.halted = (s.refused && !s.rebuilt) := h e hengine
      simp only [hengine] at he' ⊢
      by_cases hfree : t = .userKey ∨ e.halted = false
      · obtain ⟨-, e'', he'', hafter⟩ := runSync_of_free results hfree
        obtain rfl := Option.some.inj (he''.symm.trans he')
        rw [hafter]
        unfold refusedAfter
        cases hanswer : answered401 (runSync (some e) t results).1 with
        | true =>
            rw [answered401] at hanswer
            rw [hanswer]
            rfl
        | false =>
            rw [answered401] at hanswer
            rw [hanswer, if_neg Bool.false_ne_true, if_neg Bool.false_ne_true]
            by_cases hkey : t = .userKey
            · rw [if_pos hkey]
              rfl
            · rw [if_neg hkey, ← hhalted, hfree.resolve_left hkey]
      · have hkey : t ≠ .userKey := fun ht => hfree (.inl ht)
        have hstands : e.halted = true := by
          cases hcase : e.halted with
          | true => rfl
          | false => exact absurd (.inr hcase) hfree
        rw [runSync_of_halted results hkey hstands] at he' ⊢
        obtain rfl := Option.some.inj he'
        unfold refusedAfter answered401
        simp only [Bool.false_and, Bool.false_eq_true, if_false, if_neg hkey]
        exact hhalted

lemma Kept.step (h : s.Kept) (hstep : s.step e = some s') : s'.Kept := by
  cases e with
  | boot b link results =>
      obtain rfl := Option.some.inj hstep
      have hbuilt : ({ s with engine := built b link, rebuilt := true } : Asker).Kept :=
        @kept_new { s with rebuilt := true } b.opened link (Bool.and_false _)
      by_cases hsynced : (b.ran s.rtc).1.synced = true
      · rw [built_eq_of_synced hsynced] at hbuilt
        have hsync := hbuilt.sync (triggerFor (b.ran s.rtc).1.cause) results
        simp only [syncOf_boot hsynced]
        intro e he
        have hafter := hsync e he
        simp only at hafter ⊢
        rw [hafter]
        cases answered401
          (runSync (buildEngine link) (triggerFor (b.ran s.rtc).1.cause) results).1 with
        | true => rfl
        | false => rfl
      · simp only [syncOf_boot_none hsynced]
        exact hbuilt
  | sync t results =>
      obtain rfl := Option.some.inj hstep
      exact h.sync t results
  | reformat ok link =>
      obtain rfl := Option.some.inj hstep
      exact @kept_new { s with rebuilt := true } ok link (Bool.and_false _)
  | setDeviceToken ok link =>
      cases ok with
      | false =>
          obtain rfl := Option.some.inj hstep
          exact h
      | true =>
          obtain rfl := Option.some.inj hstep
          exact @kept_new { s with refused := false } true link rfl

/-- An event makes no attempt of its own while the device stands refused, exactly where it is
undisturbed. -/
lemma Kept.holds_iff (h : s.Kept) : s.Holds e ↔ s.Undisturbed e := by
  unfold Holds Undisturbed
  refine imp_congr_right fun hrefused => ?_
  cases e with
  | boot b link results =>
      by_cases hsynced : (b.ran s.rtc).1.synced = true
      · have hcause : triggerFor (b.ran s.rtc).1.cause ≠ .userKey :=
          fun hkey => cause_ran b s.rtc (triggerFor_eq_userKey hkey)
        rw [syncOf_boot hsynced]
        simp only [Option.mem_some_iff, forall_eq', hsynced, Bool.true_eq_false, false_or]
        cases link with
        | false => exact iff_of_true nofun rfl
        | true =>
            obtain ⟨hattempted, -⟩ := @runSync_of_free {} (triggerFor (b.ran s.rtc).1.cause) results
              (.inr rfl)
            exact iff_of_false (fun hno => hcause (hno hattempted)) nofun
      · rw [syncOf_boot_none hsynced]
        exact iff_of_true nofun (.inl (Bool.eq_false_iff.2 hsynced))
  | sync t results =>
      simp only [syncOf, Option.mem_some_iff, forall_eq']
      cases hengine : s.engine with
      | none => exact iff_of_true nofun (.inr (.inl rfl))
      | some e =>
          have hhalted := h e hengine
          rw [hrefused, Bool.true_and] at hhalted
          by_cases hkey : t = .userKey
          · exact iff_of_true (fun _ => hkey) (.inl hkey)
          · cases hrebuilt : s.rebuilt with
            | true =>
                rw [hrebuilt] at hhalted
                obtain ⟨hattempted, -⟩ :=
                  runSync_of_free (t := t) results (.inr hhalted)
                refine iff_of_false (fun hno => hkey (hno hattempted)) ?_
                rintro (hyes | hyes | hyes)
                · exact hkey hyes
                · cases hyes
                · cases hyes
            | false =>
                rw [hrebuilt] at hhalted
                rw [runSync_of_halted results hkey hhalted]
                exact iff_of_true nofun (.inr (.inr rfl))
  | reformat ok link => exact iff_of_true nofun trivial
  | setDeviceToken ok link => exact iff_of_true nofun trivial

/-- From a device that has no engine yet, nothing asks again after a 401 exactly where it is left
undisturbed. -/
theorem stops_asking_iff (h : s₀.engine = none) :
    Run.Meets step Holds s₀ es ↔ Run.Meets step Undisturbed s₀ es := by
  refine Run.meets_congr (I := Kept) (fun _ _ _ hs hstep => hs.step hstep)
    (fun _ _ hs => hs.holds_iff) ?_
  intro e he
  rw [h] at he
  cases he

end Asker

namespace Sample

/-- The server answers 401. -/
def refusing : ℕ → Result := fun _ => { httpStatus := 401 }

def coldBoot : Boot where
  gap := 0
  reason := .coldBoot
  uptimeMs := 400
  doneMs := 5000
  syncIntervalS := 60
  sleepMs := 6000

/-- A timer wake with a letter to send. -/
def letterBoot : Boot := { coldBoot with gap := 900000, reason := .timer, outboundQueued := true }

def keyBoot : Boot := { letterBoot with reason := .keypress }

def newAsker : Asker where
  rtc := {}

end Sample

namespace Asker

theorem stops_asking_iff_keyBoot :
    Run.Meets step Holds Sample.newAsker
      [.boot Sample.coldBoot true Sample.refusing, .boot Sample.keyBoot true Sample.refusing,
        .sync .userKey Sample.refusing, .sync .outboundQueued Sample.refusing] :=
  (stops_asking_iff rfl).2 (by decide)

/-- A device that was refused at its first boot asks again at the next, for the letter it holds. -/
theorem asks_again_after_boot :
    ¬ ∀ (s₀ : Asker) (es : List Event), s₀.engine = none → Run.Meets step Holds s₀ es := by
  intro h
  have hholds := h Sample.newAsker
    [.boot Sample.coldBoot true Sample.refusing, .boot Sample.letterBoot true Sample.refusing] rfl
  revert hholds
  decide

end Asker
end Chaskiwasi.Device.Halt
