import Chaskiwasi.Ayllu.Address
import Mathlib.Data.String.Basic
import Mathlib.Algebra.Order.Group.Int

/-!
# Guardian names and the login throttle

A guardian signs in under a name that is trimmed and lower-cased before the account is looked up.
The throttle counts consecutive failures, and from the fifth on refuses attempts for a time that
doubles with each further one, up to a minute.  It counts them for the name as it was submitted.
Times are in nanoseconds.
-/

namespace Chaskiwasi

def second : ℤ := 1000000000

/-- The flat pause on every failed login. -/
def failureDelay : ℤ := second

def throttleThreshold : ℕ := 5

def throttleBase : ℤ := second

def throttleCap : ℤ := 60 * second

/-- The doubling loop of `backoffFor`, for so many rounds. -/
def doubled : ℕ → ℤ → ℤ
  | 0, backoff => backoff
  | n + 1, backoff =>
      if throttleCap ≤ backoff * 2 then throttleCap else doubled n (backoff * 2)

/-- The lockout after so many consecutive failures. -/
def backoffFor (failures : ℕ) : ℤ :=
  if failures < throttleThreshold then 0 else doubled (failures - throttleThreshold) throttleBase

lemma doubled_le_succ (n : ℕ) {backoff : ℤ} (h0 : 0 ≤ backoff) (hcap : backoff ≤ throttleCap) :
    doubled n backoff ≤ doubled (n + 1) backoff := by
  induction n generalizing backoff with
  | zero =>
      unfold doubled
      split_ifs with h
      · exact hcap
      · unfold doubled
        omega
  | succ n ih =>
      rw [doubled, doubled]
      split_ifs with h
      · exact le_refl _
      · exact ih (by omega) (by omega)

lemma doubled_mono {m n : ℕ} (h : m ≤ n) {backoff : ℤ} (h0 : 0 ≤ backoff)
    (hcap : backoff ≤ throttleCap) : doubled m backoff ≤ doubled n backoff := by
  induction n, h using Nat.le_induction with
  | base => exact le_refl _
  | succ n _ ih => exact ih.trans (doubled_le_succ n h0 hcap)

/-- More failures never shorten the lockout. -/
lemma backoffFor_mono {k failures : ℕ} (hk : throttleThreshold ≤ k) (h : k ≤ failures) :
    backoffFor k ≤ backoffFor failures := by
  rw [backoffFor, backoffFor, if_neg (by omega), if_neg (by omega)]
  exact doubled_mono (by omega) (by decide) (by decide)

structure ThrottleEntry where
  failures : ℕ := 0
  /-- `none` is the zero time: no lockout in force. -/
  lockedUntil : Option ℤ := none
  deriving DecidableEq, Repr

/-- The throttle's entries, by submitted name. -/
abbrev Throttle := String → Option ThrottleEntry

namespace Throttle

/-- Whether an attempt may proceed, and how long to wait where it may not. -/
def check (t : Throttle) (name : String) (now : ℤ) : Bool × ℤ :=
  match (t name).bind ThrottleEntry.lockedUntil with
  | none => (true, 0)
  | some lockedUntil => if 0 < lockedUntil - now then (false, lockedUntil - now) else (true, 0)

def set (t : Throttle) (name : String) (e : Option ThrottleEntry) : Throttle :=
  fun n => if n = name then e else t n

/-- The entry after one more failure. -/
def failed (e : ThrottleEntry) (now : ℤ) : ThrottleEntry where
  failures := e.failures + 1
  lockedUntil :=
    if e.failures + 1 < throttleThreshold then none else some (now + backoffFor (e.failures + 1))

/-- Records a failed attempt. -/
def fail (t : Throttle) (name : String) (now : ℤ) : Throttle :=
  t.set name (some (failed ((t name).getD {}) now))

/-- Clears the counter. -/
def succeed (t : Throttle) (name : String) : Throttle := t.set name none

variable {t : Throttle} {name n : String} {now : ℤ} {e : ThrottleEntry}

lemma set_of_ne {o : Option ThrottleEntry} (h : n ≠ name) : t.set name o n = t n := if_neg h

lemma set_self (t : Throttle) (name : String) (o : Option ThrottleEntry) :
    t.set name o name = o := if_pos rfl

/-- An entry that locks lets nobody through before its time. -/
lemma lockedUntil_le_of_check (h : (t.check name now).1 = true) (he : t name = some e)
    {lockedUntil : ℤ} (hlock : e.lockedUntil = some lockedUntil) : lockedUntil ≤ now := by
  simp only [check, he, Option.bind_some, hlock] at h
  split_ifs at h with hlt
  omega

end Throttle

section Names

variable [Runes]

/-- The name an account is kept under, where the text is one. -/
def normalizeName (name : String) : Option String :=
  let norm := String.ofList ((trimSpace name.toList).map Runes.toLower)
  if norm = "" ∨ 32 < norm.utf8ByteSize then none
  else if norm.toList.all fun c =>
      ('a' ≤ c && c ≤ 'z') || ('0' ≤ c && c ≤ '9') || c = '.' || c = '-' || c = '_' then
    some norm
  else none

end Names
end Chaskiwasi
