import Chaskiwasi.Device.Screens
import Mathlib.Order.Monotone.Basic
import Mathlib.Data.Int.ConditionallyCompleteOrder
import Mathlib.Order.ConditionallyCompleteLattice.Basic

/-!
# The keyboard

The bus says which key is held at the moment, or cannot be read.  `poll` makes key events of that: a
debouncer, with a repeat timer on the value it has accepted.  One poll reads the bus once and emits
at most one event.

The law on what is emitted (`Lawful`) is about the readings alone.  A press is emitted for a value
that was read without a break for as long as a dome may bounce, and a repeat for the value that was
pressed last, while nothing else was held for that long and every reading worked.  The two facts
behind it are on the state: what the candidate says of the last readings (`exists_since`), and what
an armed repeat says of the press it belongs to (`exists_press_of_armed`).
-/

namespace Chaskiwasi.Device.KeebDeck

/-! ## The source -/

def debounceMs : ℤ := 12
def repeatDelayMs : ℤ := 500
def repeatIntervalMs : ℤ := 120

def scanNone : UInt8 := 0x00
def scanBack : UInt8 := 0x1B
def scanErase : UInt8 := 0x08
def scanEnter : UInt8 := 0x0D
def scanLeft : UInt8 := 0xB4
def scanUp : UInt8 := 0xB5
def scanDown : UInt8 := 0xB6
def scanRight : UInt8 := 0xB7
def scanEnye : UInt8 := 0x80
def scanEnyeUpper : UInt8 := 0x81
def scanPutAway : UInt8 := 0xC0
def scanSync : UInt8 := 0xC1
def scanFrontlight : UInt8 := 0xC2

/-- The keys that repeat: the characters, erase and the arrows. -/
def repeatable : Key → Bool
  | .erase | .char | .up | .down | .left | .right => true
  | _ => false

/-- `DecodeKeebDeck`.  What nobody has verified is no key. -/
def decodeKeebDeck (scancode : UInt8) : KeyEvent :=
  if scancode = scanPutAway then ⟨.putAway, 0⟩
  else if scancode = scanSync then ⟨.sync, 0⟩
  else if scancode = scanFrontlight then ⟨.frontlight, 0⟩
  else if scancode = scanEnter then ⟨.enter, 0⟩
  else if scancode = scanBack then ⟨.back, 0⟩
  else if scancode = scanErase then ⟨.erase, 0⟩
  else if scancode = scanUp then ⟨.up, 0⟩
  else if scancode = scanDown then ⟨.down, 0⟩
  else if scancode = scanLeft then ⟨.left, 0⟩
  else if scancode = scanRight then ⟨.right, 0⟩
  else if scancode = scanEnye then ⟨.char, 0x00F1⟩
  else if scancode = scanEnyeUpper then ⟨.char, 0x00D1⟩
  else if 0x20 ≤ scancode ∧ scancode ≤ 0x7E then ⟨.char, scancode.toNat⟩
  else ⟨.none, 0⟩

structure Deps where
  /-- Whether there is a bus. -/
  bus : Bool := true
  /-- Takes the place of `decodeKeebDeck`. -/
  decode : Option (UInt8 → KeyEvent) := none

/-- `Decode`. -/
def Deps.event (d : Deps) (scancode : UInt8) : KeyEvent :=
  match d.decode with
  | some f => f scancode
  | none => decodeKeebDeck scancode

structure Source where
  accepted : UInt8 := scanNone
  candidate : UInt8 := scanNone
  candidateSince : ℤ := 0
  repeatArmed : Bool := false
  repeatEvent : KeyEvent := ⟨.none, 0⟩
  nextRepeat : ℤ := 0
  deriving DecidableEq, Repr

/-- The clock at a poll, and what is read; `none` is an error of the bus. -/
structure Poll where
  now : ℤ
  reading : Option UInt8
  deriving DecidableEq, Repr

namespace Source

/-- `Repeat`.  The next one counts from now, so none are owed for the time nobody polled. -/
def «repeat» (s : Source) (now : ℤ) : Source × Option KeyEvent :=
  if ¬ s.repeatArmed ∨ now < s.nextRepeat then (s, none)
  else ({ s with nextRepeat := now + repeatIntervalMs }, some s.repeatEvent)

/-- A reading has settled. -/
def settle (s : Source) (d : Deps) (raw : UInt8) (now : ℤ) : Source × Option KeyEvent :=
  let s := { s with accepted := raw, repeatArmed := false }
  if raw = scanNone then (s, none)
  else
    let e := d.event raw
    if e.key = .none then (s, none)
    else if repeatable e.key then
      ({ s with repeatArmed := true, repeatEvent := e, nextRepeat := now + repeatDelayMs }, some e)
    else (s, some e)

/-- `Poll`. -/
def poll (s : Source) (d : Deps) (p : Poll) : Source × Option KeyEvent :=
  if d.bus = false then (s, none)
  else
    match p.reading with
    | none => ({ s with repeatArmed := false, candidate := s.accepted }, none)
    | some raw =>
        if raw ≠ s.candidate then ({ s with candidate := raw, candidateSince := p.now }, none)
        else if raw = s.accepted then s.repeat p.now
        else if p.now - s.candidateSince < debounceMs then (s, none)
        else s.settle d raw p.now

end Source

/-! ## Polls that follow each other -/

section Trace

variable (d : Deps) (polls : ℕ → Poll)

/-- The source when the `n`th poll begins. -/
def state : ℕ → Source
  | 0 => {}
  | n + 1 => ((state n).poll d (polls n)).1

/-- What the `n`th poll emits. -/
def emitted (n : ℕ) : Option KeyEvent := ((state d polls n).poll d (polls n)).2

/-- From one poll to the other the reading is the same. -/
def Steady (v : UInt8) (a b : ℕ) : Prop :=
  ∀ i, a ≤ i → i ≤ b → (polls i).reading = some v

/-- Between the two polls a value was held for as long as a dome may bounce. -/
def Settled (v : UInt8) (m n : ℕ) : Prop :=
  ∃ a b, m < a ∧ a ≤ b ∧ b < n ∧ Steady polls v a b ∧ debounceMs ≤ (polls b).now - (polls a).now

/-- The poll emits an event for a value that was not the accepted one. -/
structure Pressed (n : ℕ) (k : UInt8) (e : KeyEvent) : Prop where
  emits : emitted d polls n = some e
  reading : (polls n).reading = some k
  news : (state d polls n).accepted ≠ k

/-- The poll emits an event for the value that was accepted before. -/
structure Repeated (n : ℕ) (k : UInt8) (e : KeyEvent) : Prop where
  emits : emitted d polls n = some e
  reading : (polls n).reading = some k
  old : (state d polls n).accepted = k

/-- One press, one event. -/
structure Lawful : Prop where
  /-- What is emitted is a press or a repeat. -/
  emits : ∀ n e, emitted d polls n = some e →
    (∃ k, Pressed d polls n k e) ∨ ∃ k, Repeated d polls n k e
  /-- A press comes after its value was held for as long as a dome may bounce. -/
  settles : ∀ n k e, Pressed d polls n k e → e = d.event k ∧
    ∃ a ≤ n, Steady polls k a n ∧ debounceMs ≤ (polls n).now - (polls a).now
  /-- Between two presses of a key something else was held for that long. -/
  apart : ∀ m n k e e', m < n → Pressed d polls m k e → Pressed d polls n k e' →
    ∃ v ≠ k, Settled polls v m n
  /-- A key that does not repeat is emitted once, until something else was. -/
  once : ∀ m n k e e', m < n → emitted d polls m = some e → emitted d polls n = some e' →
    (polls m).reading = some k → (polls n).reading = some k → repeatable e.key = false →
      ∃ v ≠ k, Settled polls v m n
  /-- A repeat belongs to a press of the key, which is held since: nothing else was, and the bus
  could be read.  It keeps its distance from the press, and from the repeats in between. -/
  repeats : ∀ n k e, Repeated d polls n k e → ∃ m < n, Pressed d polls m k e ∧
    (∀ v ≠ k, ¬ Settled polls v m (n + 1)) ∧ (∀ i, m < i → i ≤ n → (polls i).reading ≠ none) ∧
    repeatDelayMs ≤ (polls n).now - (polls m).now ∧
    ∀ i, m < i → i < n → emitted d polls i ≠ none →
      repeatIntervalMs ≤ (polls n).now - (polls i).now

end Trace

/-! ## What a poll does -/

/-- The ways a poll can go. -/
inductive PollStep (d : Deps) (s : Source) (p : Poll) : Source → Option KeyEvent → Prop
  | unread (h : p.reading = none) :
      PollStep d s p { s with repeatArmed := false, candidate := s.accepted } none
  | changed {raw : UInt8} (h : p.reading = some raw) (hne : raw ≠ s.candidate) :
      PollStep d s p { s with candidate := raw, candidateSince := p.now } none
  | held (h : p.reading = some s.accepted) (hc : s.candidate = s.accepted) : PollStep d s p s none
  | repeated (h : p.reading = some s.accepted) (hc : s.candidate = s.accepted)
      (harmed : s.repeatArmed = true) (hdue : s.nextRepeat ≤ p.now) :
      PollStep d s p { s with nextRepeat := p.now + repeatIntervalMs } (some s.repeatEvent)
  | waiting (h : p.reading = some s.candidate) (hne : s.candidate ≠ s.accepted)
      (hearly : p.now - s.candidateSince < debounceMs) : PollStep d s p s none
  | settled (h : p.reading = some s.candidate) (hne : s.candidate ≠ s.accepted)
      (hlong : debounceMs ≤ p.now - s.candidateSince) :
      PollStep d s p (s.settle d s.candidate p.now).1 (s.settle d s.candidate p.now).2

lemma pollStep_poll {d : Deps} (hbus : d.bus = true) (s : Source) (p : Poll) :
    PollStep d s p (s.poll d p).1 (s.poll d p).2 := by
  rw [Source.poll, if_neg (by simp [hbus])]
  cases hread : p.reading with
  | none => exact .unread hread
  | some raw =>
      by_cases hne : raw ≠ s.candidate
      · simp only [if_pos hne]
        exact .changed hread hne
      · obtain rfl := not_not.1 hne
        simp only [if_neg hne]
        by_cases hold : s.candidate = s.accepted
        · simp only [if_pos hold]
          rw [hold] at hread
          rw [Source.repeat]
          by_cases hquiet : ¬ s.repeatArmed ∨ p.now < s.nextRepeat
          · rw [if_pos hquiet]
            exact .held hread hold
          · rw [if_neg hquiet]
            rw [not_or, not_not, not_lt] at hquiet
            exact .repeated hread hold hquiet.1 hquiet.2
        · simp only [if_neg hold]
          by_cases hearly : p.now - s.candidateSince < debounceMs
          · simp only [if_pos hearly]
            exact .waiting hread hold hearly
          · simp only [if_neg hearly]
            exact .settled hread hold (not_lt.1 hearly)

/-- What becomes of a value that has settled. -/
lemma settle_cases (s : Source) (d : Deps) (raw : UInt8) (now : ℤ) :
    (s.settle d raw now).1.accepted = raw ∧ (s.settle d raw now).1.candidate = s.candidate ∧
      (s.settle d raw now).1.candidateSince = s.candidateSince ∧
      (∀ e, (s.settle d raw now).2 = some e → e = d.event raw) ∧
      ((s.settle d raw now).1.repeatArmed = true →
        (s.settle d raw now).2 = some (d.event raw) ∧ repeatable (d.event raw).key = true ∧
          (s.settle d raw now).1.repeatEvent = d.event raw ∧
          (s.settle d raw now).1.nextRepeat = now + repeatDelayMs) := by
  unfold Source.settle
  by_cases hnone : raw = scanNone
  · simp [hnone]
  · by_cases hkey : (d.event raw).key = .none
    · simp [hnone, hkey]
    · cases hrep : repeatable (d.event raw).key with
      | true => simp [hnone, hkey, hrep]
      | false => simp [hnone, hkey, hrep]

variable {d : Deps} {polls : ℕ → Poll}

lemma pollStep (hbus : d.bus = true) (polls : ℕ → Poll) (n : ℕ) :
    PollStep d (state d polls n) (polls n) (state d polls (n + 1)) (emitted d polls n) :=
  pollStep_poll hbus (state d polls n) (polls n)

/-! ## The candidate -/

/-- A candidate that is not the accepted value was read at every poll since it became one. -/
lemma exists_since (hbus : d.bus = true) (polls : ℕ → Poll) (n : ℕ)
    (hne : (state d polls n).candidate ≠ (state d polls n).accepted) :
    ∃ a < n, (polls a).now = (state d polls n).candidateSince ∧
      ∀ i, a ≤ i → i < n → (polls i).reading = some (state d polls n).candidate := by
  induction n with
  | zero => exact absurd rfl hne
  | succ n ih =>
      have hstep := pollStep hbus polls n
      generalize state d polls (n + 1) = s' at hstep hne ⊢
      generalize emitted d polls n = out at hstep
      cases hstep with
      | unread => exact absurd rfl hne
      | changed hread =>
          refine ⟨n, n.lt_succ_self, rfl, fun i hi hlt => ?_⟩
          obtain rfl : i = n := le_antisymm (Nat.lt_succ_iff.1 hlt) hi
          exact hread
      | held hread hc | repeated hread hc => exact absurd hc hne
      | waiting hread =>
          obtain ⟨a, ha, hsince, hsteady⟩ := ih hne
          refine ⟨a, ha.trans n.lt_succ_self, hsince, fun i hi hlt => ?_⟩
          rcases Nat.lt_succ_iff_lt_or_eq.1 hlt with hlt | rfl
          · exact hsteady i hi hlt
          · exact hread
      | settled =>
          obtain ⟨haccepted, hcandidate, -⟩ :=
            settle_cases (state d polls n) d (state d polls n).candidate (polls n).now
          exact absurd (hcandidate.trans haccepted.symm) hne

/-- What is accepted anew was held for as long as a dome may bounce. -/
lemma steady_of_accepted (hbus : d.bus = true) {n : ℕ}
    (hne : (state d polls (n + 1)).accepted ≠ (state d polls n).accepted) :
    ∃ a ≤ n, Steady polls (state d polls (n + 1)).accepted a n ∧
      debounceMs ≤ (polls n).now - (polls a).now := by
  have hsince := exists_since hbus polls n
  have hstep := pollStep hbus polls n
  generalize state d polls (n + 1) = s' at hstep hne ⊢
  generalize emitted d polls n = out at hstep
  cases hstep with
  | unread | changed | held | repeated | waiting => exact absurd rfl hne
  | settled hread hcand hlong =>
      obtain ⟨a, ha, hnow, hsteady⟩ := hsince hcand
      have haccepted :=
        (settle_cases (state d polls n) d (state d polls n).candidate (polls n).now).1
      refine ⟨a, ha.le, fun i hi hle => ?_, hnow ▸ hlong⟩
      rw [haccepted]
      rcases Nat.lt_or_eq_of_le hle with hlt | rfl
      · exact hsteady i hi hlt
      · exact hread

/-- A value that is read and not accepted is the candidate, since when it was read first or
before. -/
lemma candidate_of_steady (hbus : d.bus = true) (hmono : Monotone fun n => (polls n).now)
    {v k : UInt8} (hvk : v ≠ k) {a b : ℕ} (hab : a ≤ b) (hsteady : Steady polls v a b)
    (hkept : ∀ i, a ≤ i → i ≤ b + 1 → (state d polls i).accepted = k) :
    (state d polls (b + 1)).candidate = v ∧
      (state d polls (b + 1)).candidateSince ≤ (polls a).now ∧
      (polls b).now - (polls a).now < debounceMs := by
  induction b, hab using Nat.le_induction with
  | base =>
      have hsince := exists_since hbus polls a
      have hread := hsteady a (le_refl a) (le_refl a)
      have hold := hkept a (le_refl a) a.le_succ
      have hnew := hkept (a + 1) a.le_succ (le_refl _)
      have hstep := pollStep hbus polls a
      generalize state d polls (a + 1) = s' at hstep hnew ⊢
      generalize emitted d polls a = out at hstep
      have hshort : (polls a).now - (polls a).now < debounceMs := by
        rw [Int.sub_self]
        decide
      cases hstep with
      | unread h => exact absurd (h.symm.trans hread) nofun
      | changed h => exact ⟨Option.some.inj (h.symm.trans hread), le_refl _, hshort⟩
      | held h | repeated h =>
          exact absurd ((Option.some.inj (hread.symm.trans h)).trans hold) hvk
      | waiting h hne =>
          obtain ⟨c, hc, hnow, -⟩ := hsince hne
          exact ⟨Option.some.inj (h.symm.trans hread), hnow ▸ hmono hc.le, hshort⟩
      | settled h =>
          have haccepted :=
            (settle_cases (state d polls a) d (state d polls a).candidate (polls a).now).1
          have hv := Option.some.inj (hread.symm.trans h)
          exact absurd ((hv.trans haccepted.symm).trans hnew) hvk
  | succ b hab ih =>
      obtain ⟨hcandidate, hsince, -⟩ := ih (fun i hi hle => hsteady i hi (hle.trans b.le_succ))
        fun i hi hle => hkept i hi (hle.trans (Nat.le_succ _))
      have hread := hsteady (b + 1) (hab.trans b.le_succ) (le_refl _)
      have hold := hkept (b + 1) (hab.trans b.le_succ) (Nat.le_succ _)
      have hnew := hkept (b + 1 + 1) (hab.trans (by omega)) (le_refl _)
      have hstep := pollStep hbus polls (b + 1)
      generalize state d polls (b + 1 + 1) = s' at hstep hnew ⊢
      generalize emitted d polls (b + 1) = out at hstep
      cases hstep with
      | unread h => exact absurd (h.symm.trans hread) nofun
      | changed h hne =>
          exact absurd ((Option.some.inj (h.symm.trans hread)).trans hcandidate.symm) hne
      | held h | repeated h =>
          exact absurd ((Option.some.inj (hread.symm.trans h)).trans hold) hvk
      | waiting h hne hearly => exact ⟨hcandidate, hsince, by omega⟩
      | settled h =>
          have haccepted := (settle_cases (state d polls (b + 1)) d
            (state d polls (b + 1)).candidate (polls (b + 1)).now).1
          have hv := Option.some.inj (hread.symm.trans h)
          exact absurd ((hv.trans haccepted.symm).trans hnew) hvk

/-! ## Presses -/

lemma accepted_of_pressed (hbus : d.bus = true) {n : ℕ} {k : UInt8} {e : KeyEvent}
    (h : Pressed d polls n k e) : (state d polls (n + 1)).accepted = k ∧ e = d.event k := by
  have hemits := h.emits
  have hstep := pollStep hbus polls n
  generalize state d polls (n + 1) = s' at hstep ⊢
  generalize emitted d polls n = out at hstep hemits
  cases hstep with
  | unread | changed | held | waiting => cases hemits
  | repeated hread => exact absurd (Option.some.inj (hread.symm.trans h.reading)) h.news
  | settled hread =>
      obtain rfl := Option.some.inj (hread.symm.trans h.reading)
      obtain ⟨haccepted, -, -, hevent, -⟩ :=
        settle_cases (state d polls n) d (state d polls n).candidate (polls n).now
      exact ⟨haccepted, hevent e hemits⟩

/-- A value that was accepted and is no longer gave way to another. -/
lemma settled_of_given_up (hbus : d.bus = true) {m n : ℕ} {k : UInt8} (hmn : m < n)
    (hread : (polls m).reading = some k) (hbefore : (state d polls (m + 1)).accepted = k)
    (hafter : (state d polls n).accepted ≠ k) : ∃ v ≠ k, Settled polls v m n := by
  have hleft : ∃ i, m < i ∧ i < n ∧ (state d polls i).accepted = k ∧
      (state d polls (i + 1)).accepted ≠ k := by
    induction n, hmn using Nat.le_induction with
    | base => exact absurd hbefore hafter
    | succ n hmn ih =>
        by_cases hn : (state d polls n).accepted = k
        · exact ⟨n, hmn, n.lt_succ_self, hn, hafter⟩
        · obtain ⟨i, hmi, hin, hi⟩ := ih hn
          exact ⟨i, hmi, hin.trans n.lt_succ_self, hi⟩
  obtain ⟨i, hmi, hin, hold, hnew⟩ := hleft
  obtain ⟨a, hai, hsteady, hlong⟩ :=
    steady_of_accepted hbus (fun heq => hnew (heq.trans hold))
  refine ⟨_, hnew, a, i, ?_, hai, hin, hsteady, hlong⟩
  by_contra hle
  have hv := hsteady m (not_lt.1 hle) hmi.le
  exact hnew (Option.some.inj (hv.symm.trans hread))

/-! ## Repeats -/

/-- An armed repeat belongs to a press, and nothing but that key was accepted since. -/
lemma exists_press_of_armed (hbus : d.bus = true) (n : ℕ)
    (harmed : (state d polls n).repeatArmed = true) :
    ∃ m < n, Pressed d polls m (state d polls n).accepted (state d polls n).repeatEvent ∧
      repeatable (state d polls n).repeatEvent.key = true ∧
      (∀ i, m < i → i < n → (polls i).reading ≠ none) ∧
      (∀ i, m < i → i ≤ n → (state d polls i).accepted = (state d polls n).accepted) ∧
      (polls m).now + repeatDelayMs ≤ (state d polls n).nextRepeat ∧
      ∀ i, m < i → i < n → emitted d polls i ≠ none →
        (polls i).now + repeatIntervalMs ≤ (state d polls n).nextRepeat := by
  induction n with
  | zero => cases harmed
  | succ n ih =>
      have hstep := pollStep hbus polls n
      -- a poll that reads a key and leaves the repeat as it is, or emits it
      have hlater : ∀ s', state d polls (n + 1) = s' → (polls n).reading ≠ none →
          s'.accepted = (state d polls n).accepted →
          s'.repeatEvent = (state d polls n).repeatEvent →
          (state d polls n).repeatArmed = true → (state d polls n).nextRepeat ≤ s'.nextRepeat →
          (emitted d polls n ≠ none → (polls n).now + repeatIntervalMs ≤ s'.nextRepeat) →
          ∃ m < n + 1, Pressed d polls m s'.accepted s'.repeatEvent ∧
            repeatable s'.repeatEvent.key = true ∧
            (∀ i, m < i → i < n + 1 → (polls i).reading ≠ none) ∧
            (∀ i, m < i → i ≤ n + 1 → (state d polls i).accepted = s'.accepted) ∧
            (polls m).now + repeatDelayMs ≤ s'.nextRepeat ∧
            ∀ i, m < i → i < n + 1 → emitted d polls i ≠ none →
              (polls i).now + repeatIntervalMs ≤ s'.nextRepeat := by
        intro s' hs' hread haccepted hevent harmed hnext hemits
        obtain ⟨m, hmn, hpressed, hrep, hreads, hkept, hdelay, hinterval⟩ := ih harmed
        rw [haccepted, hevent]
        refine ⟨m, hmn.trans n.lt_succ_self, hpressed, hrep, fun i hi hlt => ?_, fun i hi hle => ?_,
          hdelay.trans hnext, fun i hi hlt hi' => ?_⟩
        · rcases Nat.lt_succ_iff_lt_or_eq.1 hlt with hlt | rfl
          · exact hreads i hi hlt
          · exact hread
        · rcases Nat.lt_or_eq_of_le hle with hlt | rfl
          · exact hkept i hi (Nat.lt_succ_iff.1 hlt)
          · rw [hs', haccepted]
        · rcases Nat.lt_succ_iff_lt_or_eq.1 hlt with hlt | rfl
          · exact (hinterval i hi hlt hi').trans hnext
          · exact hemits hi'
      generalize hs' : state d polls (n + 1) = s' at hstep harmed hlater ⊢
      generalize hout : emitted d polls n = out at hstep hlater
      cases hstep with
      | unread => cases harmed
      | changed hread =>
          exact hlater _ rfl (hread ▸ nofun) rfl rfl harmed (le_refl _) fun h => absurd rfl h
      | held hread =>
          exact hlater _ rfl (hread ▸ nofun) rfl rfl harmed (le_refl _) fun h => absurd rfl h
      | waiting hread =>
          exact hlater _ rfl (hread ▸ nofun) rfl rfl harmed (le_refl _) fun h => absurd rfl h
      | repeated hread hc _ hdue =>
          refine hlater _ rfl (hread ▸ nofun) rfl rfl harmed ?_ fun _ => le_refl _
          show (state d polls n).nextRepeat ≤ (polls n).now + repeatIntervalMs
          have : (0 : ℤ) ≤ repeatIntervalMs := by decide
          omega
      | settled hread hne hlong =>
          obtain ⟨haccepted, -, -, -, harms⟩ :=
            settle_cases (state d polls n) d (state d polls n).candidate (polls n).now
          obtain ⟨hemits, hrep, hevent, hnext⟩ := harms harmed
          rw [haccepted, hevent, hnext]
          refine ⟨n, n.lt_succ_self, ⟨hout.trans hemits, hread, hne.symm⟩, hrep,
            fun i hi hlt => by omega, fun i hi hle => ?_, le_refl _, fun i hi hlt => by omega⟩
          obtain rfl : i = n + 1 := by omega
          rw [hs', haccepted]

lemma armed_of_repeated (hbus : d.bus = true) {n : ℕ} {k : UInt8} {e : KeyEvent}
    (h : Repeated d polls n k e) :
    (state d polls n).repeatArmed = true ∧ (state d polls n).repeatEvent = e ∧
      (state d polls n).nextRepeat ≤ (polls n).now ∧ (state d polls (n + 1)).accepted = k := by
  have hemits := h.emits
  have hold := h.old
  have hstep := pollStep hbus polls n
  generalize state d polls (n + 1) = s' at hstep ⊢
  generalize emitted d polls n = out at hstep hemits
  cases hstep with
  | unread | changed | held | waiting => cases hemits
  | repeated hread hc harmed hdue => exact ⟨harmed, Option.some.inj hemits, hdue, hold⟩
  | settled hread hne =>
      exact absurd ((Option.some.inj (hread.symm.trans h.reading)).trans hold.symm) hne

/-! ## The law -/

lemma lawful_emits (hbus : d.bus = true) {n : ℕ} {e : KeyEvent} (h : emitted d polls n = some e) :
    (∃ k, Pressed d polls n k e) ∨ ∃ k, Repeated d polls n k e := by
  have hread : ∃ k, (polls n).reading = some k := by
    have hstep := pollStep hbus polls n
    generalize state d polls (n + 1) = s' at hstep
    generalize emitted d polls n = out at hstep h
    cases hstep with
    | unread | changed | held | waiting => cases h
    | repeated hread | settled hread => exact ⟨_, hread⟩
  obtain ⟨k, hread⟩ := hread
  by_cases hold : (state d polls n).accepted = k
  · exact Or.inr ⟨k, h, hread, hold⟩
  · exact Or.inl ⟨k, h, hread, hold⟩

lemma lawful_repeats (hbus : d.bus = true) (hmono : Monotone fun n => (polls n).now) {n : ℕ}
    {k : UInt8} {e : KeyEvent} (h : Repeated d polls n k e) :
    ∃ m < n, Pressed d polls m k e ∧ repeatable e.key = true ∧
      (∀ v ≠ k, ¬ Settled polls v m (n + 1)) ∧ (∀ i, m < i → i ≤ n → (polls i).reading ≠ none) ∧
      repeatDelayMs ≤ (polls n).now - (polls m).now ∧
      ∀ i, m < i → i < n → emitted d polls i ≠ none →
        repeatIntervalMs ≤ (polls n).now - (polls i).now := by
  obtain ⟨harmed, hevent, hdue, hafter⟩ := armed_of_repeated hbus h
  obtain ⟨m, hmn, hpressed, hrep, hreads, hkept, hdelay, hinterval⟩ :=
    exists_press_of_armed hbus n harmed
  rw [h.old, hevent] at hpressed
  rw [hevent] at hrep
  refine ⟨m, hmn, hpressed, hrep, fun v hv => ?_, fun i hi hle => ?_, by omega,
    fun i hi hlt hi' => ?_⟩
  · rintro ⟨a, b, hma, hab, hbn, hsteady, hlong⟩
    have hsince := candidate_of_steady hbus hmono hv hab hsteady fun i hi hle => ?_
    · exact absurd hlong (not_le.2 hsince.2.2)
    · rcases Nat.lt_or_eq_of_le (hle.trans (Nat.succ_le_of_lt hbn)) with hlt | rfl
      · exact (hkept i (hma.trans_le hi) (Nat.lt_succ_iff.1 hlt)).trans h.old
      · exact hafter
  · rcases Nat.lt_or_eq_of_le hle with hlt | rfl
    · exact hreads i hi hlt
    · rw [h.reading]
      nofun
  · have := hinterval i hi hlt hi'
    omega

/-- What the source emits is lawful, whatever is read, whenever it is polled. -/
theorem lawful_of_monotone (d : Deps) (polls : ℕ → Poll) (hmono : Monotone fun n => (polls n).now) :
    Lawful d polls := by
  cases hbus : d.bus with
  | false =>
      have hnone : ∀ n, emitted d polls n = none := fun n => by
        rw [emitted, Source.poll, if_pos hbus]
      refine ⟨fun n e h => ?_, fun n k e h => ?_, fun m n k e e' _ h => ?_,
        fun m n k e e' _ h => ?_, fun n k e h => ?_⟩
      · exact absurd ((hnone n).symm.trans h) nofun
      · exact absurd ((hnone n).symm.trans h.emits) nofun
      · exact absurd ((hnone m).symm.trans h.emits) nofun
      · exact absurd ((hnone m).symm.trans h) nofun
      · exact absurd ((hnone n).symm.trans h.emits) nofun
  | true =>
      have hsettles : ∀ n k e, Pressed d polls n k e → e = d.event k ∧
          ∃ a ≤ n, Steady polls k a n ∧ debounceMs ≤ (polls n).now - (polls a).now := by
        intro n k e h
        obtain ⟨haccepted, hevent⟩ := accepted_of_pressed hbus h
        have hne : (state d polls (n + 1)).accepted ≠ (state d polls n).accepted := by
          rw [haccepted]
          exact h.news.symm
        exact ⟨hevent, haccepted ▸ steady_of_accepted hbus hne⟩
      have hapart : ∀ m n k e e', m < n → Pressed d polls m k e → Pressed d polls n k e' →
          ∃ v ≠ k, Settled polls v m n := fun m n k e e' hmn hm hn =>
        settled_of_given_up hbus hmn hm.reading (accepted_of_pressed hbus hm).1 hn.news
      refine ⟨fun n e => lawful_emits hbus, hsettles, hapart,
        fun m n k e e' hmn hm hn hreadm hreadn hrep => ?_, fun n k e h => ?_⟩
      · -- neither of the two is a repeat
        have hpress : ∀ i e, emitted d polls i = some e → (polls i).reading = some k →
            repeatable e.key = false → Pressed d polls i k e := by
          intro i e hi hread hrep
          rcases lawful_emits hbus hi with ⟨k', h⟩ | ⟨k', h⟩
          · obtain rfl := Option.some.inj (h.reading.symm.trans hread)
            exact h
          · obtain ⟨-, -, -, hrep', -⟩ := lawful_repeats hbus hmono h
            exact absurd (hrep'.symm.trans hrep) nofun
        have hpm := hpress m e hm hreadm hrep
        rcases lawful_emits hbus hn with ⟨k', h⟩ | ⟨k', h⟩
        · obtain rfl := Option.some.inj (h.reading.symm.trans hreadn)
          exact hapart m n k' e e' hmn hpm h
        · obtain rfl := Option.some.inj (h.reading.symm.trans hreadn)
          obtain ⟨i, -, hpressed, hrep', -⟩ := lawful_repeats hbus hmono h
          have hsame : e = e' := (hsettles m k' e hpm).1.trans (hsettles i k' e' hpressed).1.symm
          rw [hsame, hrep'] at hrep
          cases hrep
      · obtain ⟨m, hmn, hpressed, -, hrest⟩ := lawful_repeats hbus hmono h
        exact ⟨m, hmn, hpressed, hrest⟩

/-- Somebody leans on the `a`, and the source is polled ten times a second. -/
def leaning (n : ℕ) : Poll := ⟨100 * n, some 0x61⟩

theorem lawful_leaning :
    Lawful {} leaning ∧ emitted {} leaning 1 = some ⟨.char, 0x61⟩ ∧
      emitted {} leaning 5 = none ∧ emitted {} leaning 6 = some ⟨.char, 0x61⟩ :=
  ⟨lawful_of_monotone {} leaning fun m n hmn => by simpa [leaning] using hmn, by decide, by decide,
    by decide⟩

end Chaskiwasi.Device.KeebDeck
