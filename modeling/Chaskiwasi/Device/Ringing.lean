import Chaskiwasi.Device.Wake
import Chaskiwasi.Pututu.Crypto

/-!
# The doorbell at a wake

A wake polls the doorbell: each message that the modem holds is verified, and where one is accepted
the wake syncs.  Two limiters stand in the way of that, and each has its own memory.  The verifier's
is charged by every message that it lets through, at the time it reads it; the wake's is charged
once for all of them, at the time the device woke.  And the verifier opens a minute after the clock
began, the wake one minute after the limiter was reconstructed.

So there are times at which a message passes the first and not the second (`letThrough`).  A token
read then is spent: its counter is stored, and no sync follows.
-/

namespace Chaskiwasi.Device.Ringing

open Wake
open Pututu (Bytes Doorstep Counter verify rateLimited recordWake booted token standardHmac)

/-- One message that the modem holds: when it is read, and how the write of its counter would
end. -/
structure Message where
  atMs : ℤ
  body : Bytes
  write : WriteOutcome := .done
  deriving DecidableEq, Repr

/-- One wake of a power cycle. -/
structure Call where
  inputs : Inputs
  messages : List Message := []
  anyUnread : Bool := false
  /-- The uptime after the job, and the interval until the next sync. -/
  doneMs : ℤ
  syncIntervalS : ℤ
  deriving DecidableEq, Repr

section Poll

variable (hmac : Bytes → Bytes → Vector (Fin 256) 32) (d : Pututu.Deps)

/-- `Verify` on each message in turn. -/
def drain (s : Doorstep) : List Message → List Pututu.Verdict × Doorstep
  | [] => ([], s)
  | m :: ms =>
      let r := verify hmac d s m.atMs m.write m.body
      let rest := drain r.2 ms
      (r.1 :: rest.1, rest.2)

/-- What `PollDoorbell` reports of it. -/
def pollOf (messages : List Message) (verdicts : List Pututu.Verdict) : DoorbellPoll where
  received := !messages.isEmpty
  accepted := verdicts.any fun v => v = .accept

/-- The messages that find the verifier's limiter open. -/
def letThrough (s : Doorstep) : List Message → List Message
  | [] => []
  | m :: ms =>
      if rateLimited d s (Pututu.now d m.atMs) then letThrough s ms
      else m :: letThrough (recordWake d s (Pututu.now d m.atMs)) ms

/-- The message is a token of a counter above the stored one, and that counter would be stored. -/
def Raises (highWater : ℕ) (m : Message) : Prop :=
  d.counters = true ∧ m.write.written = true ∧
    ∃ c : Counter, highWater < c ∧ m.body = token hmac c d.hmacKey

end Poll

/-- The RTC segment, the counter and the limiter of the verifier, and the last reading of the
clock. -/
structure Ringer where
  rtc : RtcState
  door : Doorstep
  clock : ℤ
  /-- When the device woke for the syncs that the doorbell asked for, the latest first.  Nothing
  reads this. -/
  rung : List ℤ := []
  deriving DecidableEq, Repr

/-- The power came back: the limiter is reconstructed, and the verifier remembers its counter. -/
structure Ringer.Fresh (s : Ringer) : Prop where
  rtc : ∃ uptimeMs, s.rtc = reconstruct uptimeMs ∧ 0 ≤ uptimeMs ∧ uptimeMs ≤ s.clock
  door : ∃ highWater, s.door = { highWater := highWater }
  rung : s.rung = []

namespace Ringer

variable (hmac : Bytes → Bytes → Vector (Fin 256) 32) (d : Pututu.Deps) (s : Ringer) (w : Call)

/-- The segment as the wake finds it. -/
def found : RtcState := noteWake s.rtc w.inputs.reason

/-- The messages that the wake polls. -/
def polled : List Message := if w.inputs.decide.pollDoorbell then w.messages else []

/-- What the verifier of the wake, a new one, makes of them. -/
def heard : List Pututu.Verdict × Doorstep := drain hmac d (booted s.door true) (polled w)

def ran : RunResult × RtcState :=
  run w.inputs (s.found w)
    { pollDoorbell := pollOf (polled w) (s.heard hmac d w).1, anyUnread := w.anyUnread }

/-- Whether the wake syncs for the doorbell. -/
def answers : Bool := (s.ran hmac d w).1.synced && (s.ran hmac d w).1.cause = .doorbell

/-- One wake, where the clock does not run backwards. -/
def step : Option Ringer :=
  let times := s.clock :: w.inputs.uptimeMs :: w.messages.map Message.atMs ++ [w.doneMs]
  if times.Pairwise (· ≤ ·) then
    some
      { rtc :=
          if (s.ran hmac d w).1.synced then
            scheduleNextSync (s.ran hmac d w).2 w.doneMs w.syncIntervalS
          else (s.ran hmac d w).2
        door := (s.heard hmac d w).2
        clock := w.doneMs
        rung := if s.answers hmac d w then w.inputs.uptimeMs :: s.rung else s.rung }
  else none

/-- Whether the wake's limiter is open. -/
def allowed : Bool := smsWakeAllowed (s.found w) w.inputs.uptimeMs

/-- What a wake is to do: the syncs of the doorbell are an interval apart, messages that find the
limiter closed neither charge it nor raise the counter, and what is accepted is answered. -/
structure Answered : Prop where
  apart : s.answers hmac d w = true → ∀ t ∈ s.rung, kMinWakeIntervalMs ≤ w.inputs.uptimeMs - t
  closed : s.allowed w = false →
    (s.ran hmac d w).2.lastSmsWakeMs = s.rtc.lastSmsWakeMs ∧
      (s.heard hmac d w).2.highWater = s.door.highWater
  answered : .accept ∈ (s.heard hmac d w).1 → (s.ran hmac d w).1.synced = true

/-- While the wake's limiter is closed, nothing that passes the verifier's raises the counter. -/
def Attended : Prop :=
  s.allowed w = false →
    ∀ m ∈ letThrough d (booted s.door true) (polled w), ¬ Raises hmac d s.door.highWater m

end Ringer

/-! ## Draining -/

section Drain

variable {hmac : Bytes → Bytes → Vector (Fin 256) 32} {d : Pututu.Deps} {s t : Doorstep}
  {m : Message} {ms : List Message}

/-- The same limiter. -/
def Alike (s t : Doorstep) : Prop :=
  s.lastWakeMs = t.lastWakeMs ∧ s.rtcLastWakeMs = t.rtcLastWakeMs

lemma Alike.rateLimited (h : Alike s t) (now : ℤ) : rateLimited d s now = rateLimited d t now := by
  unfold Pututu.rateLimited Pututu.lastWake
  rw [h.1, h.2]

lemma Alike.recordWake (h : Alike s t) (now : ℤ) :
    Alike (recordWake d s now) (recordWake d t now) := by
  unfold Alike Pututu.recordWake
  rw [h.2]
  exact ⟨rfl, rfl⟩

lemma Alike.letThrough (h : Alike s t) (ms : List Message) :
    letThrough d s ms = letThrough d t ms := by
  induction ms generalizing s t with
  | nil => rfl
  | cons m ms ih =>
      unfold Ringing.letThrough
      rw [h.rateLimited, ih h, ih (h.recordWake _)]

lemma verify_of_limited (h : rateLimited d s (Pututu.now d m.atMs) = true) :
    verify hmac d s m.atMs m.write m.body = (.rateLimited, s) := by
  unfold verify
  exact if_pos h

/-- What the second half does to the counter. -/
lemma verifyToken_raises (hmac : Bytes → Bytes → Vector (Fin 256) 32) (d : Pututu.Deps)
    (s : Doorstep) (o : WriteOutcome) (n : ℕ) (mac : Bytes) :
    Alike (Pututu.verifyToken hmac d s o n mac).2 s ∧
      if d.counters = true ∧ o.written = true ∧ s.highWater < n ∧
        mac = Pututu.computeMAC hmac n d.hmacKey
      then (Pututu.verifyToken hmac d s o n mac).2.highWater = n
      else (Pututu.verifyToken hmac d s o n mac).2.highWater = s.highWater ∧
        (Pututu.verifyToken hmac d s o n mac).1 ≠ .accept := by
  unfold Pututu.verifyToken
  by_cases hmac' : Pututu.equals mac (Pututu.computeMAC hmac n d.hmacKey) = false
  · rw [if_pos hmac', if_neg fun h => absurd ((Pututu.equals_iff.2 h.2.2.2).symm.trans hmac') nofun]
    exact ⟨⟨rfl, rfl⟩, rfl, nofun⟩
  rw [if_neg hmac']
  have hauthentic := Pututu.equals_iff.1 (Bool.not_eq_false _ ▸ hmac')
  by_cases hcounters : d.counters = false
  · rw [if_pos hcounters, if_neg fun h => absurd (h.1.symm.trans hcounters) nofun]
    exact ⟨⟨rfl, rfl⟩, rfl, nofun⟩
  rw [if_neg hcounters]
  rw [Bool.not_eq_false] at hcounters
  by_cases hstale : n ≤ s.highWater
  · rw [if_pos hstale, if_neg fun h => absurd h.2.2.1 (not_lt_of_ge hstale)]
    exact ⟨⟨rfl, rfl⟩, rfl, nofun⟩
  rw [if_neg hstale]
  rw [not_le] at hstale
  refine ⟨⟨rfl, rfl⟩, ?_⟩
  cases hwritten : o.written with
  | true =>
      rw [if_pos ⟨hcounters, rfl, hstale, hauthentic⟩]
      rfl
  | false =>
      have hok : o.ok = false := by
        rw [← Bool.not_eq_true]
        exact fun hok => absurd ((WriteOutcome.written_of_ok hok).symm.trans hwritten) nofun
      rw [if_neg fun h => absurd h.2.1 nofun, hok]
      exact ⟨rfl, nofun⟩

/-- A message that is let through charges the limiter, and it raises the counter or is not
accepted. -/
lemma verify_of_open (h : rateLimited d s (Pututu.now d m.atMs) = false) :
    Alike (verify hmac d s m.atMs m.write m.body).2 (recordWake d s (Pututu.now d m.atMs)) ∧
      (Raises hmac d s.highWater m →
        s.highWater < (verify hmac d s m.atMs m.write m.body).2.highWater) ∧
      (¬ Raises hmac d s.highWater m →
        (verify hmac d s m.atMs m.write m.body).2.highWater = s.highWater ∧
          (verify hmac d s m.atMs m.write m.body).1 ≠ .accept) := by
  unfold verify
  rw [if_neg (h ▸ Bool.false_ne_true)]
  cases hsplit : Pututu.split m.body with
  | none =>
      refine ⟨⟨rfl, rfl⟩, fun hraises => ?_, fun _ => ⟨rfl, nofun⟩⟩
      obtain ⟨-, -, c, -, hbody⟩ := hraises
      rw [hbody, Pututu.split_token] at hsplit
      cases hsplit
  | some parts =>
      obtain ⟨n, mac⟩ := parts
      obtain ⟨hmax, -, -, hbody⟩ := Pututu.split_eq_some.1 hsplit
      obtain ⟨halike, hhigh⟩ := verifyToken_raises hmac d
        (recordWake d s (Pututu.now d m.atMs)) m.write n mac
      refine ⟨halike, fun hraises => ?_, fun hnot => ?_⟩
      · obtain ⟨hcounters, hwritten, c, hlt, htoken⟩ := hraises
        rw [htoken, Pututu.split_token] at hsplit
        obtain ⟨rfl, rfl⟩ := Prod.mk.inj (Option.some.inj hsplit)
        rw [if_pos ⟨hcounters, hwritten, hlt, rfl⟩] at hhigh
        exact hlt.trans_eq hhigh.symm
      · rw [if_neg] at hhigh
        · exact hhigh
        · rintro ⟨hcounters, hwritten, hlt, rfl⟩
          have hword : n < 2 ^ 64 := lt_of_le_of_lt hmax (by decide)
          have htoken : m.body = token hmac ⟨n, hword⟩ d.hmacKey := by
            rw [Pututu.token_eq, hbody]
          exact hnot ⟨hcounters, hwritten, ⟨n, hword⟩, hlt, htoken⟩

/-- Nothing raises the counter where nothing that is let through would. -/
lemma drain_of_not_raises (halike : Alike s t)
    (h : ∀ m ∈ letThrough d t ms, ¬ Raises hmac d s.highWater m) :
    (drain hmac d s ms).2.highWater = s.highWater ∧ .accept ∉ (drain hmac d s ms).1 := by
  induction ms generalizing s t with
  | nil => exact ⟨rfl, List.not_mem_nil⟩
  | cons m ms ih =>
      unfold letThrough at h
      unfold drain
      cases hlimit : rateLimited d s (Pututu.now d m.atMs) with
      | true =>
          rw [halike.rateLimited] at hlimit
          rw [if_pos hlimit] at h
          rw [← halike.rateLimited] at hlimit
          rw [verify_of_limited hlimit]
          obtain ⟨hhigh, hnot⟩ := ih halike h
          exact ⟨hhigh, fun hmem => hnot ((List.mem_cons.1 hmem).resolve_left nofun)⟩
      | false =>
          obtain ⟨htimes, -, hnone⟩ := @verify_of_open hmac d s m hlimit
          rw [halike.rateLimited] at hlimit
          rw [if_neg (hlimit ▸ Bool.false_ne_true), List.forall_mem_cons] at h
          obtain ⟨hsame, hverdict⟩ := hnone h.1
          have hafter : Alike (verify hmac d s m.atMs m.write m.body).2
              (recordWake d t (Pututu.now d m.atMs)) :=
            ⟨htimes.1.trans (halike.recordWake _).1, htimes.2.trans (halike.recordWake _).2⟩
          obtain ⟨hhigh, hnot⟩ := ih hafter (hsame ▸ h.2)
          exact ⟨hhigh.trans hsame,
            fun hmem => (List.mem_cons.1 hmem).elim (fun heq => hverdict heq.symm) hnot⟩

lemma highWater_le_drain (hmac : Bytes → Bytes → Vector (Fin 256) 32) (d : Pututu.Deps)
    (s : Doorstep) (ms : List Message) :
    s.highWater ≤ (drain hmac d s ms).2.highWater := by
  induction ms generalizing s with
  | nil => exact le_refl _
  | cons m ms ih =>
      refine le_trans ?_ (ih _)
      rcases Pututu.verify_cases hmac d s m.atMs m.write m.body with
        ⟨-, hle, -⟩ | ⟨-, -, -, -, c, hc, -, hstored⟩
      · exact hle
      · exact le_of_lt (hstored ▸ hc)

/-- What raises the counter is let through, and is above it. -/
lemma not_raises_of_drain (halike : Alike s t)
    (h : (drain hmac d s ms).2.highWater = s.highWater) :
    ∀ m ∈ letThrough d t ms, ¬ Raises hmac d s.highWater m := by
  induction ms generalizing s t with
  | nil => exact fun m hm => absurd hm List.not_mem_nil
  | cons m ms ih =>
      unfold letThrough
      unfold drain at h
      cases hlimit : rateLimited d s (Pututu.now d m.atMs) with
      | true =>
          rw [verify_of_limited hlimit] at h
          rw [halike.rateLimited] at hlimit
          rw [if_pos hlimit]
          exact ih halike h
      | false =>
          obtain ⟨htimes, hraise, hnone⟩ := @verify_of_open hmac d s m hlimit
          rw [halike.rateLimited] at hlimit
          have hle := highWater_le_drain hmac d (verify hmac d s m.atMs m.write m.body).2 ms
          have hnot : ¬ Raises hmac d s.highWater m := by
            intro hraises
            have hlt := hraise hraises
            have heq : (drain hmac d (verify hmac d s m.atMs m.write m.body).2 ms).2.highWater =
                s.highWater := h
            omega
          have hsame := (hnone hnot).1
          have hafter : Alike (verify hmac d s m.atMs m.write m.body).2
              (recordWake d t (Pututu.now d m.atMs)) :=
            ⟨htimes.1.trans (halike.recordWake _).1, htimes.2.trans (halike.recordWake _).2⟩
          rw [if_neg (hlimit ▸ Bool.false_ne_true), List.forall_mem_cons]
          refine ⟨hnot, ?_⟩
          have hrest := ih hafter (h.trans hsame.symm)
          rw [hsame] at hrest
          exact hrest

end Drain

/-! ## One wake -/

section Wake

variable {hmac : Bytes → Bytes → Vector (Fin 256) 32} {d : Pututu.Deps} {s s' s₀ : Ringer}
  {w : Call} {ws : List Call}

/-- The syncs of the doorbell charged the limiter. -/
def Ringer.Charged (s : Ringer) : Prop := ∀ t ∈ s.rung, t ≤ s.rtc.lastSmsWakeMs

lemma mem_of_pollOf {messages : List Message} {verdicts : List Pututu.Verdict} :
    (pollOf messages verdicts).accepted = true ↔ .accept ∈ verdicts := by
  unfold pollOf
  rw [List.any_eq_true]
  constructor
  · rintro ⟨v, hv, heq⟩
    exact of_decide_eq_true heq ▸ hv
  · exact fun h => ⟨_, h, decide_eq_true rfl⟩

namespace Ringer

lemma accepted_iff : (pollOf (polled w) (s.heard hmac d w).1).accepted = true ↔
    .accept ∈ (s.heard hmac d w).1 := mem_of_pollOf

/-- Below the battery floor nothing is polled. -/
lemma chargeMe_of_polls {i : Inputs} (hpoll : i.decide.pollDoorbell = true) :
    i.decide.chargeMe = false := by
  cases hfloor : i.belowBatteryFloor with
  | true =>
      rw [Inputs.decide, hfloor, if_pos rfl] at hpoll
      cases hpoll
  | false =>
      rw [Inputs.decide, hfloor, if_neg Bool.false_ne_true]
      cases i.reason with
      | coldBoot | timer | keypress | usb | unknown => rfl

lemma polls_of_ne_nil (h : polled w ≠ []) : w.inputs.decide.pollDoorbell = true := by
  unfold polled at h
  by_contra hno
  rw [if_neg hno] at h
  exact h rfl

lemma heard_of_nil (h : polled w = []) : s.heard hmac d w = ([], booted s.door true) := by
  unfold heard
  rw [h]
  rfl

/-- A plan never syncs for the doorbell. -/
lemma cause_decide_ne (i : Inputs) : i.decide.cause ≠ .doorbell := by
  have hdue : ∀ poll, (i.dueSync poll).cause ≠ .doorbell := by
    intro poll
    unfold Inputs.dueSync Inputs.syncIsDue
    cases i.outboundQueued with
    | true => nofun
    | false =>
        rw [if_neg Bool.false_ne_true]
        split_ifs
        · nofun
        · nofun
  unfold Inputs.decide
  cases i.belowBatteryFloor with
  | true => nofun
  | false =>
      rw [if_neg Bool.false_ne_true]
      cases i.reason with
      | coldBoot | keypress => nofun
      | timer | usb | unknown => exact hdue _

/-- A wake that accepts a token while its limiter is open syncs for it, and for nothing else that
the doorbell brought. -/
lemma answers_iff : s.answers hmac d w = true ↔
    .accept ∈ (s.heard hmac d w).1 ∧ s.allowed w = true := by
  have hrings : rings w.inputs (s.found w)
      { pollDoorbell := pollOf (polled w) (s.heard hmac d w).1, anyUnread := w.anyUnread } = true ↔
      .accept ∈ (s.heard hmac d w).1 ∧ s.allowed w = true := by
    unfold rings allowed
    rw [Bool.and_eq_true, Bool.and_eq_true, accepted_iff]
    refine and_congr_left fun _ => and_iff_right_of_imp fun haccept => ?_
    refine polls_of_ne_nil fun hnil => ?_
    rw [heard_of_nil hnil] at haccept
    cases haccept
  rw [← hrings]
  unfold answers ran run
  cases hcharge : w.inputs.decide.chargeMe with
  | true =>
      refine iff_of_false Bool.false_ne_true fun h => ?_
      unfold rings at h
      have hpoll := (Bool.and_eq_true_iff.1 (Bool.and_eq_true_iff.1 h).1).1
      exact absurd (hcharge.symm.trans (chargeMe_of_polls hpoll)) nofun
  | false =>
      rw [if_neg Bool.false_ne_true]
      generalize rings _ _ _ = b
      have hcause := cause_decide_ne w.inputs
      cases w.inputs.decide.openUi with
      | true | false =>
          cases b with
          | true => simp
          | false => simp [hcause]

lemma synced_of_answers (h : s.answers hmac d w = true) : (s.ran hmac d w).1.synced = true :=
  (Bool.and_eq_true_iff.1 h).1

/-- The limiter after a wake. -/
lemma lastSmsWakeMs_ran : (s.ran hmac d w).2.lastSmsWakeMs =
    if polled w ≠ [] ∧ s.allowed w = true then w.inputs.uptimeMs else s.rtc.lastSmsWakeMs := by
  obtain ⟨-, -, hsegment⟩ := run_segment w.inputs (s.found w)
    { pollDoorbell := pollOf (polled w) (s.heard hmac d w).1, anyUnread := w.anyUnread }
  unfold ran
  rw [hsegment]
  refine if_congr ?_ rfl rfl
  unfold charges allowed pollOf
  rw [Bool.and_eq_true, Bool.and_eq_true, Bool.and_eq_true]
  constructor
  · rintro ⟨-, ⟨-, hreceived⟩, hopen⟩
    refine ⟨fun hnil => ?_, hopen⟩
    rw [hnil] at hreceived
    cases hreceived
  · rintro ⟨hne, hopen⟩
    have hpoll := polls_of_ne_nil hne
    refine ⟨by rw [chargeMe_of_polls hpoll]; rfl, ⟨hpoll, ?_⟩, hopen⟩
    cases hmessages : polled w with
    | nil => exact absurd hmessages hne
    | cons m ms => rfl

/-! ## Every wake -/

lemma le_of_allowed (h : s.allowed w = true) :
    s.rtc.lastSmsWakeMs ≤ w.inputs.uptimeMs - kMinWakeIntervalMs := by
  have hopen : kMinWakeIntervalMs ≤ w.inputs.uptimeMs - s.rtc.lastSmsWakeMs := of_decide_eq_true h
  omega

/-- The verifier and the limiter after a wake. -/
lemma door_rtc_of_step (hstep : s.step hmac d w = some s') :
    s'.door = (s.heard hmac d w).2 ∧ s'.rtc.lastSmsWakeMs =
      if polled w ≠ [] ∧ s.allowed w = true then w.inputs.uptimeMs else s.rtc.lastSmsWakeMs := by
  unfold Ringer.step at hstep
  simp only at hstep
  by_cases htimes : (s.clock :: w.inputs.uptimeMs :: w.messages.map Message.atMs ++
      [w.doneMs]).Pairwise (· ≤ ·)
  swap
  · rw [if_neg htimes] at hstep
    cases hstep
  rw [if_pos htimes] at hstep
  obtain rfl := Option.some.inj hstep
  refine ⟨rfl, ?_⟩
  rw [← lastSmsWakeMs_ran]
  show RtcState.lastSmsWakeMs (if _ then _ else _) = _
  split_ifs
  · rfl
  · rfl

lemma rung_of_step (hstep : s.step hmac d w = some s') :
    s'.rung = if s.answers hmac d w = true then w.inputs.uptimeMs :: s.rung else s.rung := by
  unfold Ringer.step at hstep
  simp only at hstep
  split at hstep
  · obtain rfl := Option.some.inj hstep
    rfl
  · cases hstep

lemma Charged.step (h : s.Charged) (hstep : s.step hmac d w = some s') : s'.Charged := by
  have hpos : 0 < kMinWakeIntervalMs := by decide
  intro t ht
  rw [(door_rtc_of_step hstep).2]
  rw [rung_of_step hstep] at ht
  by_cases hanswers : s.answers hmac d w = true
  · obtain ⟨haccept, hopen⟩ := answers_iff.1 hanswers
    have hle := le_of_allowed hopen
    have hne : polled w ≠ [] := by
      intro hnil
      rw [heard_of_nil hnil] at haccept
      cases haccept
    rw [if_pos ⟨hne, hopen⟩]
    rw [if_pos hanswers] at ht
    rcases List.mem_cons.1 ht with rfl | ht
    · exact le_refl _
    · have hcharged := h t ht
      omega
  · rw [if_neg hanswers] at ht
    have hcharged := h t ht
    split_ifs with hcharge
    · have hle := le_of_allowed hcharge.2
      omega
    · exact hcharged

/-- One wake does what it is to do exactly where nothing slips between the limiters. -/
lemma Charged.answered_iff (h : s.Charged) : s.Answered hmac d w ↔ s.Attended hmac d w := by
  constructor
  · intro hanswered hclosed
    exact not_raises_of_drain (s := booted s.door true) ⟨rfl, rfl⟩ (hanswered.closed hclosed).2
  · intro hattended
    refine ⟨fun hanswers t ht => ?_, fun hclosed => ⟨?_, ?_⟩, fun haccept => ?_⟩
    · have hle := le_of_allowed (answers_iff.1 hanswers).2
      have hcharged := h t ht
      omega
    · rw [lastSmsWakeMs_ran, if_neg fun hopen => Bool.false_ne_true (hclosed.symm.trans hopen.2)]
    · exact (drain_of_not_raises ⟨rfl, rfl⟩ (hattended hclosed)).1
    · cases hopen : s.allowed w with
      | true => exact synced_of_answers (answers_iff.2 ⟨haccept, hopen⟩)
      | false => exact absurd haccept (drain_of_not_raises ⟨rfl, rfl⟩ (hattended hopen)).2

/-- From when the power comes back, every wake answers what it accepts, and no more often than it
may, exactly where nothing that passes the verifier's limiter while the other is closed raises the
counter. -/
theorem answered_iff_attended (h : s₀.Fresh) :
    Run.Meets (step hmac d) (Answered hmac d) s₀ ws ↔
      Run.Meets (step hmac d) (Attended hmac d) s₀ ws := by
  refine Run.meets_congr (I := Charged) (fun _ _ _ hs hstep => hs.step hstep)
    (fun _ _ hs => hs.answered_iff) ?_
  intro t ht
  rw [h.rung] at ht
  cases ht

/-! ## When the limiters agree -/

/-- The messages are read as the device wakes, and none in the time between the first minute of the
clock and the minute after the limiter was reconstructed. -/
def Apart (reconstructedMs : ℤ) (_ : Ringer) (w : Call) : Prop :=
  ∀ m ∈ polled w, m.atMs = w.inputs.uptimeMs ∧
    (w.inputs.uptimeMs < Pututu.kBootQuietMs ∨
      reconstructedMs + kBootConservativeWindowMs ≤ w.inputs.uptimeMs)

/-- Neither limiter was charged yet, or both were at the same time. -/
def Aligned (reconstructedMs : ℤ) (s : Ringer) : Prop :=
  (s.door.rtcLastWakeMs = 0 ∧
      s.rtc.lastSmsWakeMs = reconstructedMs + kBootConservativeWindowMs - kMinWakeIntervalMs) ∨
    (s.door.rtcLastWakeMs = s.rtc.lastSmsWakeMs ∧ Pututu.kBootQuietMs ≤ s.rtc.lastSmsWakeMs)

/-- A verifier with a clock, and with memory that outlives a sleep. -/
structure Lasting (d : Pututu.Deps) : Prop where
  monotonicMs : d.monotonicMs = true
  loadLastWakeMs : d.loadLastWakeMs = true
  storeLastWakeMs : d.storeLastWakeMs = true

lemma Lasting.now_eq (hd : Lasting d) (u : ℤ) : Pututu.now d u = u := if_pos hd.monotonicMs

lemma Lasting.rateLimited_iff (hd : Lasting d) (door : Doorstep) (u : ℤ) :
    rateLimited d door u = true ↔ u < Pututu.kBootQuietMs ∨
      door.rtcLastWakeMs ≠ 0 ∧ (u < door.rtcLastWakeMs ∨
        u - door.rtcLastWakeMs < Pututu.kMinWakeIntervalMs) := by
  have hlast : Pututu.lastWake d door = door.rtcLastWakeMs := if_pos hd.loadLastWakeMs
  unfold rateLimited
  rw [hlast]
  split_ifs with hquiet hzero
  · exact iff_of_true rfl (.inl hquiet)
  · exact iff_of_false id fun h => h.elim hquiet fun h => h.1 hzero
  · rw [Bool.or_eq_true, decide_eq_true_iff, decide_eq_true_iff]
    exact ⟨fun h => .inr ⟨hzero, h⟩, fun h => (h.resolve_left hquiet).2⟩

/-- Messages that find the verifier's limiter closed leave it alone. -/
lemma Lasting.drain_limited (hd : Lasting d) {u : ℤ} {ms : List Message} {door : Doorstep}
    (hms : ∀ m ∈ ms, m.atMs = u) (h : rateLimited d door u = true) :
    letThrough d door ms = [] ∧ (drain hmac d door ms).2 = door := by
  induction ms with
  | nil => exact ⟨rfl, rfl⟩
  | cons m ms ih =>
      rw [List.forall_mem_cons] at hms
      have hlimit : rateLimited d door (Pututu.now d m.atMs) = true := by
        rw [hd.now_eq, hms.1]
        exact h
      unfold letThrough drain
      rw [if_pos hlimit, verify_of_limited hlimit]
      exact ih hms.2

/-- Of messages that find it open the first charges it. -/
lemma Lasting.drain_open (hd : Lasting d) {u : ℤ} {ms : List Message} {door : Doorstep}
    (hms : ∀ m ∈ ms, m.atMs = u) (hne : ms ≠ []) (h : rateLimited d door u = false) :
    (drain hmac d door ms).2.rtcLastWakeMs = u := by
  cases ms with
  | nil => exact absurd rfl hne
  | cons m ms =>
      rw [List.forall_mem_cons] at hms
      have hlimit : rateLimited d door (Pututu.now d m.atMs) = false := by
        rw [hd.now_eq, hms.1]
        exact h
      have hcharged : (verify hmac d door m.atMs m.write m.body).2.rtcLastWakeMs = u := by
        rw [(verify_of_open hlimit).1.2, hd.now_eq, hms.1]
        exact if_pos hd.storeLastWakeMs
      have hquiet : ¬ u < Pututu.kBootQuietMs := by
        intro hquiet
        rw [(hd.rateLimited_iff door u).2 (.inl hquiet)] at h
        cases h
      have hinterval : (0 : ℤ) < Pututu.kMinWakeIntervalMs ∧ (0 : ℤ) < Pututu.kBootQuietMs := by
        decide
      have hclosed := (hd.rateLimited_iff (verify hmac d door m.atMs m.write m.body).2 u).2 <| by
        rw [hcharged]
        exact .inr ⟨by omega, .inr (by omega)⟩
      unfold drain
      simp only
      rw [(hd.drain_limited hms.2 hclosed).2]
      exact hcharged

/-- While the limiters agree they are open at the same times. -/
lemma Aligned.rateLimited_eq {u₀ : ℤ} (hd : Lasting d) (hu : 0 ≤ u₀) (h : s.Aligned u₀)
    (hw : w.inputs.uptimeMs < Pututu.kBootQuietMs ∨
      u₀ + kBootConservativeWindowMs ≤ w.inputs.uptimeMs) :
    rateLimited d (booted s.door true) w.inputs.uptimeMs = !s.allowed w := by
  have hallowed : s.allowed w = true ↔
      kMinWakeIntervalMs ≤ w.inputs.uptimeMs - s.rtc.lastSmsWakeMs := decide_eq_true_iff
  have hquiet : Pututu.kBootQuietMs = 60000 := rfl
  have hwindow : kBootConservativeWindowMs = 60000 := rfl
  have hinterval : kMinWakeIntervalMs = 300000 := rfl
  have hinterval' : Pututu.kMinWakeIntervalMs = 300000 := rfl
  have hkept : (booted s.door true).rtcLastWakeMs = s.door.rtcLastWakeMs := rfl
  rw [Bool.eq_iff_iff, hd.rateLimited_iff, hkept, Bool.not_eq_true', ← Bool.not_eq_true, hallowed]
  rcases h with ⟨hzero, hlimiter⟩ | ⟨hsame, hle⟩
  · rw [hzero, hlimiter]
    omega
  · rw [hsame]
    omega

lemma Aligned.attended {u₀ : ℤ} (hd : Lasting d) (hu : 0 ≤ u₀) (h : s.Aligned u₀)
    (hw : Apart u₀ s w) : s.Attended hmac d w := by
  intro hclosed m hm
  cases hpolled : polled w with
  | nil =>
      rw [hpolled] at hm
      cases hm
  | cons m₁ ms =>
      have htime := (hw m₁ (hpolled ▸ List.mem_cons_self)).2
      have hlimit := h.rateLimited_eq hd hu htime
      rw [hclosed] at hlimit
      have hnone : letThrough d (booted s.door true) (polled w) = [] :=
        (@Lasting.drain_limited hmac d hd _ _ _ (fun m hm => (hw m hm).1) hlimit).1
      rw [hnone] at hm
      cases hm

lemma Aligned.step {u₀ : ℤ} (hd : Lasting d) (hu : 0 ≤ u₀) (h : s.Aligned u₀)
    (hw : Apart u₀ s w) (hstep : s.step hmac d w = some s') : s'.Aligned u₀ := by
  obtain ⟨hdoor, hlimiter⟩ := door_rtc_of_step hstep
  unfold Aligned
  rw [hdoor, hlimiter]
  unfold heard
  by_cases hnil : polled w = []
  · rw [hnil, if_neg fun hno => hno.1 rfl]
    exact h
  · obtain ⟨m, ms, hpolled⟩ := List.exists_cons_of_ne_nil hnil
    have htime := (hw m (hpolled ▸ List.mem_cons_self)).2
    have hlimit := h.rateLimited_eq hd hu htime
    cases hopen : s.allowed w with
    | false =>
        rw [hopen] at hlimit
        rw [(hd.drain_limited (fun m hm => (hw m hm).1) hlimit).2, if_neg fun hno => by cases hno.2]
        exact h
    | true =>
        rw [hopen] at hlimit
        rw [hd.drain_open (fun m hm => (hw m hm).1) hnil hlimit, if_pos ⟨hnil, rfl⟩]
        refine .inr ⟨rfl, not_lt.1 fun hquiet => ?_⟩
        rw [(hd.rateLimited_iff _ _).2 (.inl hquiet)] at hlimit
        cases hlimit

/-- Where the verifier has memory that outlives a sleep, the messages are read as the device wakes,
and none is read between the first minute of the clock and the minute after the limiter was
reconstructed, the two limiters never disagree. -/
theorem attended_of_apart {u₀ : ℤ} (hd : Lasting d) (hu : 0 ≤ u₀) (hrtc : s₀.rtc = reconstruct u₀)
    (hdoor : s₀.door.rtcLastWakeMs = 0)
    (hws : Run.Meets (Ringer.step hmac d) (Apart u₀) s₀ ws) :
    Run.Meets (Ringer.step hmac d) (Attended hmac d) s₀ ws := by
  have hstart : s₀.Aligned u₀ := .inl ⟨hdoor, by rw [hrtc]; rfl⟩
  have hboth : Run.Meets (Ringer.step hmac d)
      (fun s w => s.Attended hmac d w ∧ Apart u₀ s w) s₀ ws :=
    (Run.meets_congr_of_meets (I := Aligned u₀) (fun _ _ _ hs hw hstep => hs.step hd hu hw hstep)
      (fun _ _ hs => ⟨And.right, fun hw => ⟨hs.attended hd hu hw, hw⟩⟩) hstart).2 hws
  exact hboth.imp fun _ _ h => h.1

end Ringer

end Wake

namespace Sample

def ringDeps : Pututu.Deps where
  hmacKey := Pututu.ascii "key".toList

/-- The device is on for five seconds. -/
def newRinger : Ringer where
  rtc := reconstruct 5000
  door := { highWater := 0 }
  clock := 5000

/-- A timer wake at this uptime, which finds one message. -/
def ringAt (uptimeMs : ℤ) (body : Bytes) : Call where
  inputs :=
    { reason := .timer, uptimeMs := uptimeMs, rtcIntact := true, nextSyncDueMs := 21600000
      outboundQueued := false }
  messages := [{ atMs := uptimeMs, body := body }]
  doneMs := uptimeMs + 1000
  syncIntervalS := 21600

lemma fresh_newRinger : newRinger.Fresh :=
  ⟨⟨5000, rfl, by decide, by decide⟩, ⟨0, rfl⟩, rfl⟩

end Sample

namespace Ringer

/-- Two tokens two minutes apart: the first is answered, and the second is left alone by both
limiters. -/
theorem answered_twoTokens :
    ∃ s w, s.Fresh ∧ (s.answers Pututu.Sample.flatHmac Sample.ringDeps w) = true ∧
      Run.Meets (step Pututu.Sample.flatHmac Sample.ringDeps)
        (Answered Pututu.Sample.flatHmac Sample.ringDeps) s
        [w, Sample.ringAt 220000 (token Pututu.Sample.flatHmac 2 Sample.ringDeps.hmacKey)] := by
  refine ⟨Sample.newRinger,
    Sample.ringAt 100000 (token Pututu.Sample.flatHmac 1 Sample.ringDeps.hmacKey),
    Sample.fresh_newRinger, by decide +kernel, ?_⟩
  refine (answered_iff_attended Sample.fresh_newRinger).2 ⟨fun hclosed => ?_, fun s' hstep => ?_⟩
  · exact absurd hclosed (by decide)
  · have hall : (step Pututu.Sample.flatHmac Sample.ringDeps Sample.newRinger
        (Sample.ringAt 100000 (token Pututu.Sample.flatHmac 1 Sample.ringDeps.hmacKey))).all
        (fun s => (letThrough Sample.ringDeps (booted s.door true) (polled (Sample.ringAt 220000
          (token Pututu.Sample.flatHmac 2 Sample.ringDeps.hmacKey)))).isEmpty) = true := by
      decide +kernel
    rw [hstep, Option.all_some, List.isEmpty_iff] at hall
    refine ⟨fun _ m hm => ?_, fun _ _ => trivial⟩
    rw [hall] at hm
    cases hm

/-- A minute after the clock began, and not yet one after the limiter was reconstructed, a token is
spent and nobody answers it. -/
theorem not_answered :
    ¬ ∀ (d : Pututu.Deps) (s₀ : Ringer) (ws : List Call), s₀.Fresh →
      Run.Meets (step standardHmac d) (Answered standardHmac d) s₀ ws := by
  intro hall
  have hanswered := (hall Sample.ringDeps Sample.newRinger
    [Sample.ringAt 61000 (token standardHmac 1 Sample.ringDeps.hmacKey)] Sample.fresh_newRinger).1
  have hclosed : Sample.newRinger.allowed
      (Sample.ringAt 61000 (token standardHmac 1 Sample.ringDeps.hmacKey)) = false := by decide
  have hnot := not_raises_of_drain (s := booted Sample.newRinger.door true) ⟨rfl, rfl⟩
    (hanswered.closed hclosed).2
  have hlimit : rateLimited Sample.ringDeps (booted Sample.newRinger.door true)
      (Pututu.now Sample.ringDeps 61000) = false := by decide
  refine hnot { atMs := 61000, body := token standardHmac 1 Sample.ringDeps.hmacKey } ?_
    ⟨rfl, rfl, 1, by decide, rfl⟩
  show _ ∈ letThrough _ _ [_]
  unfold letThrough
  rw [hlimit]
  exact List.mem_cons_self

end Ringer

end Chaskiwasi.Device.Ringing
