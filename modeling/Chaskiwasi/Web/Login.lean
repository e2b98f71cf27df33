import Chaskiwasi.Lib.Run
import Chaskiwasi.Web.Throttle

/-!
# Login attempts against one account

An attempt is three steps: the throttle is asked, the password is verified, and the throttle is told
how it went.  Between them other attempts take theirs, and a failed one waits a second before it is
counted.  The throttle goes by the submitted name and an account by the normalised one, so the
attempts on one account may be spread over several entries.

Both gaps let an account be tried faster than its failures allow.  Two ways of submitting close
them: while the failures that could come, with those that have come, are at most five, anything
goes; past that, an attempt must be alone, under the name that counted every failure.
-/

namespace Chaskiwasi

/-- `verifyPassword`: whether a password matches an encoded argon2id hash. -/
class Passwords where
  verifyPassword : String → String → Bool

namespace Login

/-- How far an attempt that the throttle let through has got. -/
inductive Stage
  /-- About to have its password verified. -/
  | checked
  /-- Verified; about to be counted. -/
  | verified (ok : Bool) (time : ℤ)
  | answered
  deriving DecidableEq, Repr

structure Attempt where
  name : String
  password : String
  stage : Stage
  deriving DecidableEq, Repr

/-- A password was verified. -/
structure Verification where
  name : String
  ok : Bool
  time : ℤ
  deriving DecidableEq, Repr

structure World where
  now : ℤ
  throttle : Throttle := fun _ => none
  /-- The password hash of every account, by its normalised name. -/
  accounts : String → Option String
  /-- The attempts that were let through, in the order in which they came. -/
  attempts : List Attempt := []
  /-- Every verification, newest first; no procedure reads it. -/
  log : List Verification := []

inductive Act
  | submit (name password : String) (now : ℤ)
  | verify (i : ℕ) (now : ℤ)
  | record (i : ℕ) (now : ℤ)
  /-- The accounts change. -/
  | accounts (accounts : String → Option String)

def World.setStage (w : World) (i : ℕ) (a : Attempt) (stage : Stage) : World :=
  { w with attempts := w.attempts.set i { a with stage := stage } }

section Steps

variable [Runes] [Passwords]

/-- `FileStore.Verify`. -/
def verify (accounts : String → Option String) (name password : String) : Bool :=
  match (normalizeName name).bind accounts with
  | none => false
  | some passwordHash => Passwords.verifyPassword passwordHash password

/-- One step of `handleLogin`.  The clock never goes back. -/
def step (w : World) (act : Act) : Option World :=
  match act with
  | .submit name password now =>
      if now < w.now then none
      else if (w.throttle.check name now).1 then
        some { w with now := now, attempts := w.attempts ++ [⟨name, password, .checked⟩] }
      else some { w with now := now }
  | .verify i now =>
      match w.attempts[i]? with
      | some a =>
          if now < w.now ∨ a.stage ≠ .checked then none
          else
            let ok := verify w.accounts a.name a.password
            some (({ w with now := now, log := ⟨a.name, ok, now⟩ :: w.log } : World).setStage i a
              (.verified ok now))
      | none => none
  | .record i now =>
      match w.attempts[i]? with
      | some a =>
          if now < w.now then none
          else
            match a.stage with
            | .verified true _ =>
                some (({ w with
                  now := now
                  throttle := w.throttle.succeed a.name } : World).setStage i a .answered)
            | .verified false time =>
                if now < time + failureDelay then none
                else
                  some (({ w with now := now, throttle := w.throttle.fail a.name now } :
                    World).setStage i a .answered)
            | _ => none
      | none => none
  | .accounts accounts => some { w with accounts := accounts }

/-- Nobody has tried yet. -/
def initial (now : ℤ) (accounts : String → Option String) : World where
  now := now
  accounts := accounts

end Steps

section Account

variable [Runes] {account : String} {w w' : World} {act : Act} {log : List Verification}
  {v : Verification} {i : ℕ} {a : Attempt}

/-! ## What an account has seen -/

/-- Whether a submitted name is the account's. -/
def IsFor (account name : String) : Prop := normalizeName name = some account

instance (account name : String) : Decidable (IsFor account name) :=
  inferInstanceAs (Decidable (_ = _))

/-- The verifications for an account. -/
def seen (account : String) (log : List Verification) : List Verification :=
  log.filter fun v => IsFor account v.name

/-- The consecutive failures an account has seen last. -/
def streak (account : String) (log : List Verification) : ℕ :=
  ((seen account log).takeWhile fun v => !v.ok).length

/-- Whether, by `time`, the lockout that the last failure calls for is over. -/
def Elapsed (account : String) (log : List Verification) (time : ℤ) : Prop :=
  ∀ v ∈ (seen account log).head?, v.time + backoffFor (streak account log) ≤ time

instance (account : String) (log : List Verification) (time : ℤ) :
    Decidable (Elapsed account log time) :=
  inferInstanceAs (Decidable (∀ v ∈ _, _))

/-- After five or more consecutive failures, nothing is verified for the account before the lockout
is over. -/
def Throttled (account : String) (log : List Verification) : Prop :=
  ∀ later v earlier, log = later ++ v :: earlier → IsFor account v.name →
    throttleThreshold ≤ streak account earlier → Elapsed account earlier v.time

/-- The attempts on the account that have yet to be verified. -/
def pending (account : String) (attempts : List Attempt) : ℕ :=
  attempts.countP fun a => IsFor account a.name ∧ a.stage = .checked

/-- No attempt on the account is between its check and its record. -/
def Alone (account : String) (attempts : List Attempt) : Prop :=
  ∀ a ∈ attempts, IsFor account a.name → a.stage = .answered

instance (account : String) (attempts : List Attempt) : Decidable (Alone account attempts) :=
  inferInstanceAs (Decidable (∀ a ∈ _, _))

/-- Under this name, the throttle has counted every consecutive failure of the account, the last one
among them. -/
def Counted (account name : String) (w : World) : Prop :=
  (∃ e ∈ w.throttle name, streak account w.log ≤ e.failures) ∧
    ∀ v ∈ (seen account w.log).head?, v.name = name

instance (account name : String) (w : World) : Decidable (Counted account name w) :=
  inferInstanceAs (Decidable (_ ∧ _))

/-- An attempt the throttle lets through cannot be too early: with every attempt that is yet to be
verified it would make at most five consecutive failures, or it is alone and its name has counted
them all. -/
def Orderly (account : String) (w : World) : Act → Prop
  | .submit name _ now => IsFor account name → (w.throttle.check name now).1 = true →
      streak account w.log + pending account w.attempts + 1 ≤ throttleThreshold ∨
        Alone account w.attempts ∧ Counted account name w
  | _ => True

instance (account : String) (w : World) : ∀ act, Decidable (Orderly account w act)
  | .submit .. => inferInstanceAs (Decidable (_ → _ → _))
  | .verify .. | .record .. | .accounts _ => inferInstanceAs (Decidable True)

/-- A submission under one of the account's names, or any other step. -/
def Act.IsFor (account : String) : Act → Prop
  | .submit name _ _ => Login.IsFor account name
  | _ => True

instance (account : String) : ∀ act : Act, Decidable (act.IsFor account)
  | .submit .. => inferInstanceAs (Decidable (_ = _))
  | .verify .. | .record .. | .accounts _ => inferInstanceAs (Decidable True)

lemma seen_cons_of_isFor (h : IsFor account v.name) :
    seen account (v :: log) = v :: seen account log :=
  List.filter_cons_of_pos (by simpa using h)

lemma seen_cons_of_not (h : ¬ IsFor account v.name) : seen account (v :: log) = seen account log :=
  List.filter_cons_of_neg (by simpa using h)

lemma streak_cons_le (h : IsFor account v.name) :
    streak account (v :: log) ≤ streak account log + 1 := by
  unfold streak
  rw [seen_cons_of_isFor h]
  cases hv : v.ok with
  | true => simp [hv]
  | false => simp [hv]

lemma streak_cons_of_not (h : ¬ IsFor account v.name) :
    streak account (v :: log) = streak account log := by
  rw [streak, seen_cons_of_not h, streak]

/-- The last verification of a streak failed. -/
lemma ok_of_streak_pos (h : 0 < streak account log) (hv : v ∈ (seen account log).head?) :
    v.ok = false ∧ v ∈ log := by
  have hmem : v ∈ seen account log := List.mem_of_mem_head? hv
  refine ⟨?_, (List.mem_filter.1 hmem).1⟩
  unfold streak at h
  cases hseen : seen account log with
  | nil => simp [hseen] at hv
  | cons u rest =>
      obtain rfl : u = v := by simpa [hseen] using hv
      by_contra hok
      simp [hseen, hok] at h

lemma throttled_cons (hlog : Throttled account log)
    (hv : IsFor account v.name → throttleThreshold ≤ streak account log →
      Elapsed account log v.time) : Throttled account (v :: log) := by
  intro later u earlier heq hu hstreak
  cases later with
  | nil =>
      obtain ⟨rfl, rfl⟩ := List.cons.inj heq
      exact hv hu hstreak
  | cons x later => exact hlog later u earlier (List.cons.inj heq).2 hu hstreak

/-! ## What one step can do -/

variable [Passwords] {n : ℕ} {stage : Stage} {attempts : List Attempt} {acts : List Act}

/-- What one step can do. -/
inductive Stepped (w : World) : Act → World → Prop
  | passed (name password : String) (now : ℤ) (hnow : w.now ≤ now)
      (hcheck : (w.throttle.check name now).1 = true) :
      Stepped w (.submit name password now)
        { w with now := now, attempts := w.attempts ++ [⟨name, password, .checked⟩] }
  | refused (name password : String) (now : ℤ) (hnow : w.now ≤ now) :
      Stepped w (.submit name password now) { w with now := now }
  | verified (i : ℕ) (now : ℤ) (a : Attempt) (ok : Bool) (hi : w.attempts[i]? = some a)
      (hstage : a.stage = .checked) (hnow : w.now ≤ now) :
      Stepped w (.verify i now)
        (({ w with now := now, log := ⟨a.name, ok, now⟩ :: w.log } : World).setStage i a
          (.verified ok now))
  | succeeded (i : ℕ) (now : ℤ) (a : Attempt) (time : ℤ) (hi : w.attempts[i]? = some a)
      (hstage : a.stage = .verified true time) (hnow : w.now ≤ now) :
      Stepped w (.record i now)
        (({ w with now := now, throttle := w.throttle.succeed a.name } : World).setStage i a
          .answered)
  | failed (i : ℕ) (now : ℤ) (a : Attempt) (time : ℤ) (hi : w.attempts[i]? = some a)
      (hstage : a.stage = .verified false time) (hnow : w.now ≤ now) :
      Stepped w (.record i now)
        (({ w with now := now, throttle := w.throttle.fail a.name now } : World).setStage i a
          .answered)
  | accounts (accounts : String → Option String) :
      Stepped w (.accounts accounts) { w with accounts := accounts }

lemma step_stepped (h : step w act = some w') : Stepped w act w' := by
  cases act with
  | submit name password now =>
      rw [step] at h
      split_ifs at h with hnow hcheck
      · obtain rfl := Option.some.inj h
        exact .passed name password now (by omega) hcheck
      · obtain rfl := Option.some.inj h
        exact .refused name password now (by omega)
  | verify i now =>
      rw [step] at h
      cases hi : w.attempts[i]? with
      | none => simp [hi] at h
      | some a =>
          simp only [hi] at h
          split_ifs at h with hguard
          obtain rfl := Option.some.inj h
          rw [not_or, not_lt, not_not] at hguard
          exact .verified i now a _ hi hguard.2 hguard.1
  | record i now =>
      rw [step] at h
      cases hi : w.attempts[i]? with
      | none => simp [hi] at h
      | some a =>
          simp only [hi] at h
          split_ifs at h with hnow
          cases hstage : a.stage with
          | checked => simp [hstage] at h
          | answered => simp [hstage] at h
          | verified ok time =>
              cases ok with
              | true =>
                  simp only [hstage] at h
                  obtain rfl := Option.some.inj h
                  exact .succeeded i now a time hi hstage (by omega)
              | false =>
                  simp only [hstage] at h
                  split_ifs at h
                  obtain rfl := Option.some.inj h
                  exact .failed i now a time hi hstage (by omega)
  | accounts accounts =>
      obtain rfl := Option.some.inj h
      exact .accounts accounts

/-! ## Counting the attempts -/

omit [Runes] [Passwords] in
lemma mem_set_of_ne {b c : Attempt} (hi : attempts[i]? = some a) (hb : b ∈ attempts)
    (hne : b ≠ a) : b ∈ attempts.set i c := by
  obtain ⟨j, hj⟩ := List.mem_iff_getElem?.1 hb
  have hij : i ≠ j := by
    intro heq
    rw [heq, hj] at hi
    exact hne (Option.some.inj hi)
  rw [List.mem_iff_getElem?]
  exact ⟨j, by rw [List.getElem?_set_ne hij, hj]⟩

omit [Runes] [Passwords] in
lemma mem_set_self {c : Attempt} (hi : attempts[i]? = some a) : c ∈ attempts.set i c := by
  obtain ⟨hlt, -⟩ := List.getElem?_eq_some_iff.1 hi
  exact List.mem_set hlt c

omit [Passwords] in
/-- An attempt of the account that is verified is no longer pending. -/
lemma pending_set_verified (stage : Stage) (hi : attempts[i]? = some a)
    (hfor : IsFor account a.name) (hchecked : a.stage = .checked) (hstage : stage ≠ .checked) :
    pending account (attempts.set i { a with stage := stage }) + 1 = pending account attempts := by
  obtain ⟨hlt, rfl⟩ := List.getElem?_eq_some_iff.1 hi
  have hle := List.boole_getElem_le_countP
    (p := fun a : Attempt => decide (IsFor account a.name ∧ a.stage = .checked)) hlt
  unfold pending
  rw [List.countP_set hlt]
  simp only [hfor, hchecked, hstage, and_self, and_false, decide_true, decide_false, if_true,
    Bool.false_eq_true, if_false] at hle ⊢
  omega

omit [Passwords] in
/-- Any other step of an attempt leaves the pending ones as they are. -/
lemma pending_set_other (hi : attempts[i]? = some a)
    (h : ¬ IsFor account a.name ∨ a.stage ≠ .checked ∧ stage ≠ .checked) :
    pending account (attempts.set i { a with stage := stage }) = pending account attempts := by
  obtain ⟨hlt, rfl⟩ := List.getElem?_eq_some_iff.1 hi
  unfold pending
  rw [List.countP_set hlt]
  rcases h with hfor | ⟨hchecked, hstage⟩
  · simp [hfor]
  · simp [hchecked, hstage]

omit [Passwords] in
lemma pending_eq_zero_of_alone (h : Alone account attempts) : pending account attempts = 0 := by
  rw [pending, List.countP_eq_zero]
  intro a ha hp
  obtain ⟨hfor, hchecked⟩ := of_decide_eq_true hp
  rw [h a ha hfor] at hchecked
  cases hchecked

/-! ## What orderly attempts keep -/

/-- A failure that the throttle has not been told of. -/
def Uncounted (v : Verification) (attempts : List Attempt) : Prop :=
  ∃ a ∈ attempts, a.name = v.name ∧ a.stage = .verified false v.time

/-- An entry that has reached the threshold locks for long enough after a failure. -/
def Locks (v : Verification) (o : Option ThrottleEntry) : Prop :=
  ∀ e ∈ o, throttleThreshold ≤ e.failures →
    ∃ lock, e.lockedUntil = some lock ∧ v.time + backoffFor e.failures ≤ lock

/-- So many attempts may be pending: none, too few to matter, or one that is late enough. -/
def Pace (account : String) (log : List Verification) (n : ℕ) (now : ℤ) : Prop :=
  n = 0 ∨ streak account log + n ≤ throttleThreshold ∨ n = 1 ∧ Elapsed account log now

structure Sound (account : String) (w : World) : Prop where
  pace : Pace account w.log (pending account w.attempts) w.now
  times : ∀ v ∈ w.log, v.time ≤ w.now
  counted : ∀ v ∈ w.log, v.ok = false → Uncounted v w.attempts ∨ Locks v (w.throttle v.name)
  throttled : Throttled account w.log

omit [Passwords] in
lemma Elapsed.mono {time time' : ℤ} (h : Elapsed account log time) (hle : time ≤ time') :
    Elapsed account log time' := fun v hv => (h v hv).trans hle

omit [Passwords] in
lemma elapsed_cons_of_not {time : ℤ} (h : ¬ IsFor account v.name) :
    Elapsed account (v :: log) time ↔ Elapsed account log time := by
  rw [Elapsed, Elapsed, seen_cons_of_not h, streak_cons_of_not h]

omit [Passwords] in
lemma Pace.mono {now now' : ℤ} (h : Pace account log n now) (hle : now ≤ now') :
    Pace account log n now' := by
  rcases h with h | h | ⟨h, helapsed⟩
  · exact Or.inl h
  · exact Or.inr (Or.inl h)
  · exact Or.inr (Or.inr ⟨h, helapsed.mono hle⟩)

omit [Passwords] in
/-- One of the pending attempts is verified. -/
lemma Pace.verified {now now' : ℤ} (h : Pace account log (n + 1) now)
    (hfor : IsFor account v.name) : Pace account (v :: log) n now' := by
  have hstreak : streak account (v :: log) ≤ streak account log + 1 := streak_cons_le hfor
  rcases h with h | h | ⟨h, -⟩
  · omega
  · exact Or.inr (Or.inl (by omega))
  · exact Or.inl (by omega)

omit [Passwords] in
lemma Pace.other {now : ℤ} (h : Pace account log n now) (hfor : ¬ IsFor account v.name) :
    Pace account (v :: log) n now := by
  rw [Pace, streak_cons_of_not hfor, elapsed_cons_of_not hfor]
  exact h

omit [Passwords] in
lemma Pace.elapsed {now : ℤ} (h : Pace account log (n + 1) now)
    (hstreak : throttleThreshold ≤ streak account log) : Elapsed account log now := by
  rcases h with h | h | ⟨-, helapsed⟩
  · omega
  · omega
  · exact helapsed

omit [Passwords] in
/-- An attempt that is alone, under a name that has counted every failure, comes after the
lockout. -/
lemma Sound.elapsed_of_counted (hw : Sound account w) {name : String} {now : ℤ}
    (halone : Alone account w.attempts) (hcounted : Counted account name w)
    (hcheck : (w.throttle.check name now).1 = true)
    (hstreak : throttleThreshold ≤ streak account w.log) : Elapsed account w.log now := by
  intro v hv
  obtain ⟨⟨e, he, hle⟩, hname⟩ := hcounted
  have hvname := hname v hv
  have hpos : 0 < streak account w.log := by
    have : 0 < throttleThreshold := by decide
    omega
  obtain ⟨hok, hmem⟩ := ok_of_streak_pos hpos hv
  have hfor : IsFor account v.name :=
    of_decide_eq_true (List.mem_filter.1 (List.mem_of_mem_head? hv)).2
  rcases hw.counted v hmem hok with ⟨a, ha, haname, hastage⟩ | hlocks
  · -- The last failure was told: nothing is in flight.
    rw [halone a ha (haname ▸ hfor)] at hastage
    cases hastage
  · rw [hvname] at hlocks
    obtain ⟨lock, hlock, hbound⟩ := hlocks e he (hstreak.trans hle)
    have hpassed := Throttle.lockedUntil_le_of_check hcheck he hlock
    have hmono := backoffFor_mono hstreak hle
    omega

omit [Passwords] in
lemma Sound.passed (hw : Sound account w) {name password : String} {now : ℤ}
    (hnow : w.now ≤ now) (hcheck : (w.throttle.check name now).1 = true)
    (horder : Orderly account w (.submit name password now)) :
    Sound account
      { w with now := now, attempts := w.attempts ++ [⟨name, password, .checked⟩] } where
  pace := by
    show Pace account w.log (pending account (w.attempts ++ [⟨name, password, .checked⟩])) now
    by_cases hfor : IsFor account name
    · have hpending : pending account (w.attempts ++ [⟨name, password, .checked⟩]) =
          pending account w.attempts + 1 := by
        simp [pending, hfor]
      rw [hpending]
      rcases horder hfor hcheck with hroom | ⟨halone, hcounted⟩
      · exact Or.inr (Or.inl hroom)
      · rw [pending_eq_zero_of_alone halone]
        by_cases hstreak : throttleThreshold ≤ streak account w.log
        · exact Or.inr (Or.inr ⟨rfl, hw.elapsed_of_counted halone hcounted hcheck hstreak⟩)
        · exact Or.inr (Or.inl (by omega))
    · have hpending : pending account (w.attempts ++ [⟨name, password, .checked⟩]) =
          pending account w.attempts := by
        simp [pending, hfor]
      rw [hpending]
      exact hw.pace.mono hnow
  times := fun v hv => (hw.times v hv).trans hnow
  counted := by
    intro v hv hok
    rcases hw.counted v hv hok with ⟨a, ha, hname, hstage⟩ | hlocks
    · exact Or.inl ⟨a, List.mem_append_left _ ha, hname, hstage⟩
    · exact Or.inr hlocks
  throttled := hw.throttled

omit [Passwords] in
lemma Sound.verified (hw : Sound account w) {now : ℤ} {ok : Bool} (hi : w.attempts[i]? = some a)
    (hstage : a.stage = .checked) (hnow : w.now ≤ now) :
    Sound account
      (({ w with now := now, log := ⟨a.name, ok, now⟩ :: w.log } : World).setStage i a
        (.verified ok now)) where
  pace := by
    show Pace account (⟨a.name, ok, now⟩ :: w.log)
      (pending account (w.attempts.set i { a with stage := .verified ok now })) now
    have hpace := hw.pace
    by_cases hfor : IsFor account a.name
    · have hpending := pending_set_verified (.verified ok now) hi hfor hstage (by simp)
      rw [← hpending] at hpace
      exact hpace.verified hfor
    · rw [pending_set_other hi (Or.inl hfor)]
      exact (hpace.mono hnow).other (v := ⟨a.name, ok, now⟩) hfor
  times := by
    intro v hv
    rcases List.mem_cons.1 hv with rfl | hv
    · show now ≤ now
      exact le_refl _
    · exact (hw.times v hv).trans hnow
  counted := by
    intro v hv hok
    rcases List.mem_cons.1 hv with rfl | hv
    · refine Or.inl ⟨_, mem_set_self hi, rfl, ?_⟩
      show Stage.verified ok now = .verified false now
      rw [show ok = false from hok]
    · rcases hw.counted v hv hok with ⟨b, hb, hname, hbstage⟩ | hlocks
      · refine Or.inl ⟨b, mem_set_of_ne hi hb ?_, hname, hbstage⟩
        intro heq
        rw [heq, hstage] at hbstage
        cases hbstage
      · exact Or.inr hlocks
  throttled := by
    refine throttled_cons hw.throttled fun hfor hstreak => ?_
    have hpending := pending_set_verified .answered hi hfor hstage (by simp)
    have hpace := hw.pace
    rw [← hpending] at hpace
    exact (hpace.elapsed hstreak).mono hnow

omit [Passwords] in
/-- The throttle is told how an attempt went, and from then on holds that against its name. -/
lemma Sound.recorded (hw : Sound account w) {now time : ℤ} {ok : Bool}
    (hi : w.attempts[i]? = some a) (hstage : a.stage = .verified ok time) (hnow : w.now ≤ now)
    {o : Option ThrottleEntry}
    (ho : ∀ v ∈ w.log, v.name = a.name → v.ok = false → Locks v o) :
    Sound account
      (({ w with now := now, throttle := w.throttle.set a.name o } : World).setStage i a
        .answered) where
  pace := by
    show Pace account w.log (pending account (w.attempts.set i { a with stage := .answered })) now
    have hstages : a.stage ≠ .checked ∧ Stage.answered ≠ .checked := by simp [hstage]
    rw [pending_set_other hi (Or.inr hstages)]
    exact hw.pace.mono hnow
  times := fun v hv => (hw.times v hv).trans hnow
  counted := by
    intro v hv hok
    show _ ∨ Locks v (w.throttle.set a.name o v.name)
    by_cases hname : v.name = a.name
    · rw [hname, Throttle.set_self]
      exact Or.inr (ho v hv hname hok)
    · rw [Throttle.set_of_ne hname]
      rcases hw.counted v hv hok with ⟨b, hb, hbname, hbstage⟩ | hlocks
      · refine Or.inl ⟨b, mem_set_of_ne hi hb ?_, hbname, hbstage⟩
        intro heq
        exact hname (by rw [← hbname, heq])
      · exact Or.inr hlocks
  throttled := hw.throttled

omit [Runes] [Passwords] in
/-- A failure that is counted locks from then on. -/
lemma locks_failed {e : ThrottleEntry} {now : ℤ} (hv : v.time ≤ now) :
    Locks v (some (Throttle.failed e now)) := by
  intro e' he' hthreshold
  obtain rfl := Option.some.inj he'
  refine ⟨now + backoffFor (e.failures + 1), ?_, ?_⟩
  · exact if_neg (not_lt.2 hthreshold)
  · show v.time + backoffFor (e.failures + 1) ≤ now + backoffFor (e.failures + 1)
    omega

theorem Sound.step (hw : Sound account w) (horder : Orderly account w act)
    (h : step w act = some w') : Sound account w' := by
  cases step_stepped h with
  | passed name password now hnow hcheck => exact hw.passed hnow hcheck horder
  | refused name password now hnow =>
      exact ⟨hw.pace.mono hnow, fun v hv => (hw.times v hv).trans hnow, hw.counted, hw.throttled⟩
  | verified i now a ok hi hstage hnow => exact hw.verified hi hstage hnow
  | succeeded i now a time hi hstage hnow =>
      refine hw.recorded hi hstage hnow fun v _ _ _ => ?_
      intro e he
      cases he
  | failed i now a time hi hstage hnow =>
      refine hw.recorded hi hstage hnow fun v hv _ _ => ?_
      exact locks_failed ((hw.times v hv).trans hnow)
  | accounts accounts => exact ⟨hw.pace, hw.times, hw.counted, hw.throttled⟩

omit [Passwords] in
lemma sound_initial (account : String) (now : ℤ) (accounts : String → Option String) :
    Sound account (initial now accounts) := by
  refine ⟨Or.inl rfl, ?_, ?_, ?_⟩
  · intro v hv
    cases hv
  · intro v hv
    cases hv
  · intro later v earlier heq
    exact absurd heq.symm (by simp [initial])

/-- Attempts on an account, all of them under names that are the account's, however they interleave,
are never verified before the lockout is over. -/
def CannotBeOutrun : Prop :=
  ∀ (account : String) (now : ℤ) (accounts : String → Option String) (acts : List Act) (w : World),
    (∀ act ∈ acts, act.IsFor account) →
    Run.run step (initial now accounts) acts = some w → Throttled account w.log

/-- **Orderly attempts cannot outrun the backoff.**  Where every attempt on the account that the
throttle lets through is one of at most five failures that there can be, or is alone and under the
name that has counted them all, no password is verified for the account, once it has seen five or
more consecutive failures, before the lockout is over. -/
theorem throttled_of_orderly {now : ℤ} {accounts : String → Option String}
    (horder : Run.Meets step (Orderly account) (initial now accounts) acts)
    (hrun : Run.run step (initial now accounts) acts = some w) : Throttled account w.log := by
  have hsound : Sound account w :=
    Run.run_invariant_of_meets (fun s a s' hs ha h => hs.step ha h)
      (sound_initial account now accounts) horder hrun
  exact hsound.throttled

end Account

namespace Sample

/-- Passwords kept as they are. -/
@[reducible]
def passwords : Passwords := ⟨fun encoded password => encoded = password⟩

/-- One account. -/
def accounts (name : String) : Option String := if name = "ana" then some "secret" else none

/-- One wrong guess a second, each under the next of the names. -/
def guesses (names : List String) : List Act :=
  names.zipIdx.flatMap fun (name, i) =>
    [.submit name "guess" (i * second), .verify i (i * second), .record i ((i + 1) * second)]

end Sample

/-- After five guesses as `ana`, two more go through as `Ana`, a second apart. -/
theorem other_spelling_outruns : ¬ @CannotBeOutrun Sample.runes Sample.passwords := by
  intro hclaim
  have hnames : ∀ act ∈ Sample.guesses ["ana", "ana", "ana", "ana", "ana", "Ana", "Ana"],
      @Act.IsFor Sample.runes "ana" act := by
    decide +kernel
  let _ := Sample.runes
  let _ := Sample.passwords
  have heval : ((Run.run step (initial 0 Sample.accounts)
      (Sample.guesses ["ana", "ana", "ana", "ana", "ana", "Ana", "Ana"])).any fun w =>
        decide (∃ v ∈ w.log.head?, IsFor "ana" v.name ∧
          throttleThreshold ≤ streak "ana" w.log.tail ∧ ¬ Elapsed "ana" w.log.tail v.time)) =
      true := by
    decide +kernel
  obtain ⟨w, hrun, hfast⟩ := Run.exists_of_any heval
  obtain ⟨v, hv, hfor, hstreak, helapsed⟩ := of_decide_eq_true hfast
  have hthrottled := hclaim "ana" 0 Sample.accounts _ w hnames hrun
  refine helapsed (hthrottled [] v w.log.tail ?_ hfor hstreak)
  rw [List.nil_append, List.cons_head?_tail hv]

/-- Five guesses, one that is refused, and the right password once the lockout is over. -/
def Sample.waits : List Act :=
  Sample.guesses ["ana", "ana", "ana", "ana", "ana"] ++
    [.submit "ana" "guess" (5 * second), .submit "ana" "secret" (6 * second),
      .verify 5 (6 * second), .record 5 (6 * second)]

/-- Whoever waits gets in, and nothing was verified too early. -/
theorem waits_throttled : ∃ w,
    @Run.run _ _ (@step Sample.runes Sample.passwords) (initial 0 Sample.accounts) Sample.waits =
      some w ∧ w.log.length = 6 ∧ @Throttled Sample.runes "ana" w.log := by
  have horder : Run.Meets (@step Sample.runes Sample.passwords) (@Orderly Sample.runes "ana")
      (initial 0 Sample.accounts) Sample.waits := by
    decide +kernel
  have heval : ((Run.run (@step Sample.runes Sample.passwords) (initial 0 Sample.accounts)
      Sample.waits).any fun w => decide (w.log.length = 6)) = true := by
    decide +kernel
  obtain ⟨w, hrun, hlen⟩ := Run.exists_of_any heval
  exact ⟨w, hrun, of_decide_eq_true hlen,
    @throttled_of_orderly Sample.runes "ana" w Sample.passwords _ 0 _ horder hrun⟩

end Login
end Chaskiwasi
