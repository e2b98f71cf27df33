import Chaskiwasi.Device.Outbox
import Chaskiwasi.Lib.Base64
import Chaskiwasi.Lib.Run
import Mathlib.Tactic.IntervalCases

/-!
# The doorbell token

A token is a counter in decimal and a MAC over that decimal.  The server writes it and the device
reads it, each with code of its own.

The device authenticates the bytes but stores the number, so it must take each number in one
spelling only.  It does: what `parseCounter` accepts is what `formatUint` writes
(`parseCounter_eq_some`), and so what `split` accepts and `verify` authenticates is what `token`
makes.  A replay is then the same number again, and the high-water counter, which is written before
anything is accepted, stops it.
-/

namespace Chaskiwasi.Pututu

/-- A byte string. -/
abbrev Bytes := List UInt8

def ascii (text : List Char) : Bytes := text.map Char.toUInt8

/-! ## What the server mints -/

/-- A counter is a 64-bit word. -/
abbrev Counter := Fin (2 ^ 64)

/-- The decimal digits, without a sign or a leading zero. -/
def formatUint (n : ℕ) : Bytes := ascii (Nat.toDigits 10 n)

def dot : UInt8 := 46

def tokenPrefix : Bytes := ascii "CH1".toList

def macBytes : ℕ := 12

def stdSymbol (s : Fin 64) : Char :=
  "ABCDEFGHIJKLMNOPQRSTUVWXYZabcdefghijklmnopqrstuvwxyz0123456789+/".toList.getD s 'A'

section Mint

-- HMAC-SHA256: a key, a text and the digest.
variable (hmac : Bytes → Bytes → Vector (Fin 256) 32)

/-- The first bytes of the digest in base64; there are twelve, so there is no padding. -/
def computeMAC (counter : ℕ) (key : Bytes) : Bytes :=
  ascii ((Base64.sextets ((hmac key (formatUint counter)).toList.take macBytes)).map stdSymbol)

def token (counter : Counter) (key : Bytes) : Bytes :=
  tokenPrefix ++ dot :: formatUint counter ++ dot :: computeMAC hmac counter key

end Mint

/-! ## What the device reads -/

def kPrefix : Bytes := ascii "CH1.".toList

def kMacChars : ℕ := 16

def kMaxCounterDigits : ℕ := 20

def kMax : ℕ := 2 ^ 64 - 1

/-- One more digit, unless it is none or the number grows too large. -/
def parseDigit (v : ℕ) (c : UInt8) : Option ℕ :=
  if c < 48 ∨ 57 < c then none
  else
    let d := (c - 48).toNat
    if (kMax - d) / 10 < v then none else some (v * 10 + d)

/-- Only the canonical decimal rendering of a 64-bit word. -/
def parseCounter (s : Bytes) : Option ℕ :=
  if s.isEmpty ∨ kMaxCounterDigits < s.length then none
  else if 1 < s.length ∧ s.head? = some 48 then none
  else s.foldlM parseDigit 0

/-- Prefix, counter, one dot and a MAC of the right length. -/
def split (body : Bytes) : Option (ℕ × Bytes) :=
  if body.length ≤ kPrefix.length then none
  else if body.take kPrefix.length ≠ kPrefix then none
  else
    let text := (body.drop kPrefix.length).takeWhile fun c => c ≠ dot
    match (body.drop kPrefix.length).dropWhile fun c => c ≠ dot with
    | [] => none
    | _ :: mac =>
        if mac.length ≠ kMacChars then none
        else if dot ∈ mac then none
        else (parseCounter text).map fun counter => (counter, mac)

/-- Compares in a time that does not depend on where the two differ. -/
def equals (a b : Bytes) : Bool :=
  if a.length ≠ b.length then false
  else (List.zipWith (fun x y => x ^^^ y) a b).foldl (fun diff x => diff ||| x) 0 = 0

inductive Verdict
  | accept
  | badFormat
  | badMac
  | staleCounter
  | rateLimited
  | notPersisted
  deriving DecidableEq, Repr

def kMinWakeIntervalMs : ℤ := 5 * 60 * 1000

def kBootQuietMs : ℤ := 60 * 1000

/-- What a verifier is built with; a field of type `Bool` says whether there is such a thing. -/
structure Deps where
  counters : Bool := true
  hmacKey : Bytes
  monotonicMs : Bool := true
  loadLastWakeMs : Bool := true
  storeLastWakeMs : Bool := true

/-- The high-water counter, the last wake in the memory that outlives a sleep, and the last wake in
the verifier. -/
structure Doorstep where
  highWater : ℕ
  rtcLastWakeMs : ℤ := 0
  lastWakeMs : ℤ := 0
  deriving DecidableEq, Repr

section Verify

variable (hmac : Bytes → Bytes → Vector (Fin 256) 32) (d : Deps) (s : Doorstep)

/-- Without a clock it is always the first minute. -/
def now (ms : ℤ) : ℤ := if d.monotonicMs then ms else 0

def lastWake : ℤ := if d.loadLastWakeMs then s.rtcLastWakeMs else s.lastWakeMs

def rateLimited (now : ℤ) : Bool :=
  if now < kBootQuietMs then true
  else if lastWake d s = 0 then false
  else now < lastWake d s || now - lastWake d s < kMinWakeIntervalMs

def recordWake (now : ℤ) : Doorstep :=
  { s with
    lastWakeMs := now
    rtcLastWakeMs := if d.storeLastWakeMs then now else s.rtcLastWakeMs }

/-- The second half of `Verify`: the MAC, the stored counter and, where the counter is above it, the
write, which ends as `o`. -/
def verifyToken (o : WriteOutcome) (counter : ℕ) (mac : Bytes) : Verdict × Doorstep :=
  if equals mac (computeMAC hmac counter d.hmacKey) = false then (.badMac, s)
  else if d.counters = false then (.notPersisted, s)
  else if counter ≤ s.highWater then (.staleCounter, s)
  else
    (if o.ok then .accept else .notPersisted,
      { s with highWater := if o.written then counter else s.highWater })

/-- `Verify`, where the clock reads `ms`. -/
def verify (ms : ℤ) (o : WriteOutcome) (body : Bytes) : Verdict × Doorstep :=
  if rateLimited d s (now d ms) then (.rateLimited, s)
  else
    match split body with
    | none => (.badFormat, recordWake d s (now d ms))
    | some (counter, mac) => verifyToken hmac d (recordWake d s (now d ms)) o counter mac

end Verify

/-! ## One spelling for each counter -/

section Spelling

variable {s body mac : Bytes} {v w n : ℕ} {c : UInt8}

/-- The digit of a number below ten. -/
def digit (d : ℕ) : UInt8 := (Nat.digitChar d).toUInt8

lemma digit_spec {d : ℕ} (h : d < 10) :
    ¬ (digit d < 48 ∨ 57 < digit d) ∧ (digit d - 48).toNat = d := by
  interval_cases d <;> decide

lemma exists_digit (h : ¬ (c < 48 ∨ 57 < c)) : ∃ d < 10, c = digit d := by
  have hval : ∀ d < 10, (digit d).toNat = 48 + d := by decide
  rw [not_or, UInt8.not_lt, UInt8.not_lt, UInt8.le_iff_toNat_le, UInt8.le_iff_toNat_le] at h
  have hlow : 48 ≤ c.toNat := h.1
  have hhigh : c.toNat ≤ 57 := h.2
  refine ⟨c.toNat - 48, by omega, UInt8.toNat_inj.1 ?_⟩
  rw [hval _ (by omega)]
  omega

lemma formatUint_of_lt (h : n < 10) : formatUint n = [digit n] := by
  rw [formatUint, Nat.toDigits_of_lt_base h]
  rfl

lemma formatUint_append {d : ℕ} (hn : 0 < n) (hd : d < 10) :
    formatUint (n * 10 + d) = formatUint n ++ [digit d] := by
  have happend := Nat.toDigits_append_toDigits (b := 10) (by decide) hn hd
  rw [formatUint, mul_comm, ← happend, Nat.toDigits_of_lt_base hd]
  exact List.map_append

lemma formatUint_ne_nil (n : ℕ) : formatUint n ≠ [] := by
  rw [formatUint, ascii, ne_eq, List.map_eq_nil_iff]
  exact Nat.toDigits_ne_nil

/-- Every number is a digit, or a smaller number and a digit. -/
lemma formatUint_cases (n : ℕ) :
    (n < 10 ∧ formatUint n = [digit n]) ∨
      ∃ m d, 0 < m ∧ d < 10 ∧ n = m * 10 + d ∧ formatUint n = formatUint m ++ [digit d] := by
  by_cases h : n < 10
  · exact Or.inl ⟨h, formatUint_of_lt h⟩
  · have hn : n / 10 * 10 + n % 10 = n := by omega
    have hm : 0 < n / 10 := by omega
    have hd : n % 10 < 10 := by omega
    refine Or.inr ⟨n / 10, n % 10, hm, hd, hn.symm, ?_⟩
    rw [← formatUint_append hm hd, hn]

lemma parseDigit_eq_some :
    parseDigit v c = some w ↔ ∃ d < 10, c = digit d ∧ w = v * 10 + d ∧ w ≤ kMax := by
  unfold parseDigit
  constructor
  · intro h
    by_cases hc : c < 48 ∨ 57 < c
    · rw [if_pos hc] at h
      cases h
    rw [if_neg hc] at h
    obtain ⟨d, hd, rfl⟩ := exists_digit hc
    simp only [(digit_spec hd).2] at h
    split_ifs at h with hmax
    obtain rfl := Option.some.inj h
    have hk : 10 ≤ kMax := by decide
    rw [not_lt] at hmax
    exact ⟨d, hd, rfl, rfl, by omega⟩
  · rintro ⟨d, hd, rfl, rfl, hmax⟩
    obtain ⟨hc, hval⟩ := digit_spec hd
    rw [if_neg hc, hval, if_neg]
    omega

/-- Digits read after a number that is not zero are the digits written after it. -/
lemma formatUint_of_foldlM (hv : 0 < v) (h : s.foldlM parseDigit v = some w) :
    formatUint w = formatUint v ++ s ∧ (v ≤ kMax → w ≤ kMax) := by
  induction s generalizing v with
  | nil =>
      obtain rfl := Option.some.inj h
      exact ⟨(List.append_nil _).symm, id⟩
  | cons c s ih =>
      rw [List.foldlM_cons] at h
      obtain ⟨v', hdigit, hrest⟩ := Option.bind_eq_some_iff.1 h
      obtain ⟨d, hd, rfl, rfl, hmax⟩ := parseDigit_eq_some.1 hdigit
      obtain ⟨hformat, hle⟩ := ih (by omega) hrest
      refine ⟨?_, fun _ => hle hmax⟩
      rw [hformat, formatUint_append hv hd, List.append_assoc]
      rfl

/-- What is written is read as itself. -/
lemma foldlM_formatUint (h : n ≤ kMax) : (formatUint n).foldlM parseDigit 0 = some n := by
  induction n using Nat.strong_induction_on with
  | _ n ih =>
      rcases formatUint_cases n with ⟨hn, hformat⟩ | ⟨m, d, hm, hd, rfl, hformat⟩
      · rw [hformat, List.foldlM_cons, parseDigit_eq_some.2 ⟨n, hn, rfl, by omega, h⟩]
        rfl
      · rw [hformat, List.foldlM_append, ih m (by omega) (by omega)]
        change (parseDigit m (digit d)).bind _ = _
        rw [parseDigit_eq_some.2 ⟨d, hd, rfl, rfl, h⟩]
        rfl

lemma length_formatUint_le (h : n ≤ kMax) : (formatUint n).length ≤ kMaxCounterDigits := by
  rw [formatUint, ascii, List.length_map, Nat.length_toDigits_le_iff (by decide) (by decide)]
  exact lt_of_le_of_lt h (by decide)

/-- A number of more than one digit does not begin with a zero. -/
lemma head_formatUint (h : 1 < (formatUint n).length) : (formatUint n).head? ≠ some 48 := by
  induction n using Nat.strong_induction_on with
  | _ n ih =>
      rcases formatUint_cases n with ⟨hn, hformat⟩ | ⟨m, d, hm, hd, rfl, hformat⟩
      · rw [hformat] at h
        exact absurd h (lt_irrefl 1)
      · rw [hformat, List.head?_append_of_ne_nil _ (formatUint_ne_nil m)]
        rcases formatUint_cases m with ⟨hm', hformat'⟩ | ⟨m', d', hm'', hd', rfl, hformat'⟩
        · rw [hformat', List.head?_cons]
          intro hzero
          have hval := (digit_spec hm').2
          rw [Option.some.inj hzero] at hval
          exact absurd hval.symm (ne_of_gt hm)
        · refine ih (m' * 10 + d') (by omega) ?_
          rw [hformat', List.length_append]
          have hpos := List.length_pos_iff.2 (formatUint_ne_nil m')
          simp only [List.length_singleton]
          omega

/-- The device reads a counter in the spelling of the server and in no other. -/
theorem parseCounter_eq_some : parseCounter s = some n ↔ n ≤ kMax ∧ s = formatUint n := by
  unfold parseCounter
  constructor
  · intro h
    split_ifs at h with hlen hzero
    cases s with
    | nil => exact absurd (Or.inl rfl) hlen
    | cons c s =>
        rw [List.foldlM_cons] at h
        obtain ⟨v, hdigit, hrest⟩ := Option.bind_eq_some_iff.1 h
        obtain ⟨d, hd, rfl, rfl, hmax⟩ := parseDigit_eq_some.1 hdigit
        rw [zero_mul, zero_add] at hrest hmax
        by_cases hpos : 0 < d
        · obtain ⟨hformat, hle⟩ := formatUint_of_foldlM hpos hrest
          refine ⟨hle hmax, ?_⟩
          rw [hformat, formatUint_of_lt hd]
          rfl
        · obtain rfl : d = 0 := by omega
          cases s with
          | nil =>
              obtain rfl := Option.some.inj hrest
              exact ⟨hmax, (formatUint_of_lt hd).symm⟩
          | cons c' s =>
              refine absurd ⟨?_, rfl⟩ hzero
              simp only [List.length_cons]
              omega
  · rintro ⟨hmax, rfl⟩
    have hlen : ¬ ((formatUint n).isEmpty = true ∨ kMaxCounterDigits < (formatUint n).length) := by
      rintro (hempty | hlong)
      · exact formatUint_ne_nil n (List.isEmpty_iff.1 hempty)
      · exact absurd hlong (not_lt_of_ge (length_formatUint_le hmax))
    rw [if_neg hlen, if_neg fun h => head_formatUint h.1 h.2]
    exact foldlM_formatUint hmax

/-- A number is written without a dot. -/
lemma dot_not_mem_formatUint (n : ℕ) : dot ∉ formatUint n := by
  have hdigit : ∀ d < 10, dot ≠ digit d := by decide
  induction n using Nat.strong_induction_on with
  | _ n ih =>
      rcases formatUint_cases n with ⟨hn, hformat⟩ | ⟨m, d, hm, hd, rfl, hformat⟩
      · rw [hformat, List.mem_singleton]
        exact hdigit n hn
      · rw [hformat, List.mem_append, List.mem_singleton, not_or]
        exact ⟨ih m (by omega), hdigit d hd⟩

end Spelling

/-! ## One form for each token -/

section Form

variable {hmac : Bytes → Bytes → Vector (Fin 256) 32} {key body mac : Bytes} {n : ℕ}

lemma length_computeMAC (n : ℕ) (key : Bytes) :
    (computeMAC hmac n key).length = kMacChars := by
  have hlen : ((hmac key (formatUint n)).toList.take macBytes).length = 3 * 4 := by
    rw [List.length_take, Vector.length_toList]
    rfl
  rw [computeMAC, ascii, List.length_map, List.length_map, Base64.length_sextets hlen]
  rfl

lemma dot_not_mem_computeMAC (n : ℕ) (key : Bytes) : dot ∉ computeMAC hmac n key := by
  have hsymbol : ∀ t : Fin 64, (stdSymbol t).toUInt8 ≠ dot := by decide +kernel
  unfold computeMAC ascii
  rw [List.map_map]
  intro hmem
  obtain ⟨t, -, ht⟩ := List.mem_map.1 hmem
  exact hsymbol t ht

/-- What `split` accepts is a prefix, a counter in its one spelling, a dot and a MAC without a
dot. -/
theorem split_eq_some :
    split body = some (n, mac) ↔ n ≤ kMax ∧ mac.length = kMacChars ∧ dot ∉ mac ∧
      body = kPrefix ++ (formatUint n ++ dot :: mac) := by
  unfold split
  constructor
  · intro h
    split_ifs at h with hlen hprefix
    rw [not_not] at hprefix
    have hbody : body = kPrefix ++ ((body.drop kPrefix.length).takeWhile (fun c => c ≠ dot) ++
        (body.drop kPrefix.length).dropWhile fun c => c ≠ dot) := by
      rw [List.takeWhile_append_dropWhile]
      nth_rewrite 1 [← hprefix]
      exact (List.take_append_drop _ _).symm
    cases hrest : (body.drop kPrefix.length).dropWhile fun c => c ≠ dot with
    | nil =>
        rw [hrest] at h
        cases h
    | cons c rest =>
        rw [hrest] at h hbody
        have hc : c = dot := by
          have hhead := List.head?_dropWhile_not (fun c => decide (c ≠ dot))
            (body.drop kPrefix.length)
          rw [hrest, List.head?_cons] at hhead
          exact not_not.1 (of_decide_eq_false hhead)
        simp only at h
        split_ifs at h with hmac hdot
        obtain ⟨counter, hcounter, heq⟩ := Option.map_eq_some_iff.1 h
        obtain ⟨rfl, rfl⟩ := Prod.mk.inj heq
        obtain ⟨hmax, htext⟩ := parseCounter_eq_some.1 hcounter
        rw [htext, hc] at hbody
        exact ⟨hmax, not_not.1 hmac, hdot, hbody⟩
  · rintro ⟨hmax, hmac, hdot, rfl⟩
    have htext : (formatUint n ++ dot :: mac).takeWhile (fun c => c ≠ dot) = formatUint n := by
      rw [List.takeWhile_append_of_pos, List.takeWhile_cons_of_neg, List.append_nil]
      · simp
      · intro c hc
        exact decide_eq_true fun heq => dot_not_mem_formatUint n (heq ▸ hc)
    have hrest : (formatUint n ++ dot :: mac).dropWhile (fun c => c ≠ dot) = dot :: mac := by
      rw [List.dropWhile_append_of_pos, List.dropWhile_cons_of_neg]
      · simp
      · intro c hc
        exact decide_eq_true fun heq => dot_not_mem_formatUint n (heq ▸ hc)
    rw [if_neg, if_neg]
    · simp only [List.drop_left, hrest, htext]
      rw [if_neg (not_not.2 hmac), if_neg hdot, parseCounter_eq_some.2 ⟨hmax, rfl⟩]
      rfl
    · rw [not_not]
      exact List.take_left
    · simp only [List.length_append, List.length_cons]
      omega

lemma foldl_or_eq_zero {l : Bytes} {diff : UInt8} :
    l.foldl (fun diff x => diff ||| x) diff = 0 ↔ diff = 0 ∧ ∀ x ∈ l, x = 0 := by
  induction l generalizing diff with
  | nil => simp
  | cons x l ih =>
      rw [List.foldl_cons, ih, UInt8.or_eq_zero_iff, List.forall_mem_cons, and_assoc]

lemma forall_xor_eq_zero {a b : Bytes} (h : a.length = b.length) :
    (∀ x ∈ List.zipWith (fun x y => x ^^^ y) a b, x = 0) ↔ a = b := by
  induction a generalizing b with
  | nil =>
      obtain rfl := List.length_eq_zero_iff.1 h.symm
      simp
  | cons x a ih =>
      cases b with
      | nil => cases h
      | cons y b =>
          rw [List.zipWith_cons_cons, List.forall_mem_cons, ih (Nat.succ.inj h), List.cons.injEq,
            UInt8.xor_eq_zero_iff]

/-- `Equals` is equality. -/
lemma equals_iff {a b : Bytes} : equals a b = true ↔ a = b := by
  unfold equals
  by_cases hlen : a.length = b.length
  · rw [if_neg (not_not.2 hlen), decide_eq_true_eq, foldl_or_eq_zero, forall_xor_eq_zero hlen]
    exact and_iff_right rfl
  · rw [if_pos hlen]
    refine iff_of_false Bool.false_ne_true fun heq => hlen ?_
    rw [heq]

/-- The server's tokens, as the device takes them apart. -/
lemma token_eq (c : Counter) (key : Bytes) :
    token hmac c key = kPrefix ++ (formatUint c ++ dot :: computeMAC hmac c key) := by
  rw [token, List.append_assoc]
  rfl

lemma split_token (c : Counter) (key : Bytes) :
    split (token hmac c key) = some (↑c, computeMAC hmac c key) :=
  split_eq_some.2 ⟨Nat.le_sub_one_of_lt c.isLt, length_computeMAC _ _,
    dot_not_mem_computeMAC _ _, token_eq c key⟩

/-- A token has one counter. -/
lemma counter_of_token {c c' : Counter} (h : token hmac c key = token hmac c' key) : c = c' := by
  have hpair := (split_token c key).symm.trans (h ▸ split_token c' key)
  exact Fin.ext (Prod.mk.inj (Option.some.inj hpair)).1

end Form

/-! ## What is accepted -/

section Accept

variable {hmac : Bytes → Bytes → Vector (Fin 256) 32} {d : Deps} {s : Doorstep} {ms : ℤ}
  {o : WriteOutcome} {body : Bytes}

/-- How the second half ends. -/
lemma verifyToken_cases (hmac : Bytes → Bytes → Vector (Fin 256) 32) (d : Deps) (s : Doorstep)
    (o : WriteOutcome) (n : ℕ) (mac : Bytes) :
    ((verifyToken hmac d s o n mac).1 ≠ .accept ∧
        s.highWater ≤ (verifyToken hmac d s o n mac).2.highWater ∧
        (mac = computeMAC hmac n d.hmacKey → s.highWater < n →
          d.counters = false ∨ o.ok = false)) ∨
      ((verifyToken hmac d s o n mac).1 = .accept ∧ mac = computeMAC hmac n d.hmacKey ∧
        d.counters = true ∧ o.ok = true ∧ s.highWater < n ∧
          (verifyToken hmac d s o n mac).2.highWater = n) := by
  generalize hv : verifyToken hmac d s o n mac = v
  unfold verifyToken at hv
  by_cases hmac' : equals mac (computeMAC hmac n d.hmacKey) = false
  · rw [if_pos hmac'] at hv
    rw [← hv]
    refine Or.inl ⟨nofun, le_refl _, fun heq => ?_⟩
    rw [equals_iff.2 heq] at hmac'
    cases hmac'
  rw [if_neg hmac'] at hv
  have heq := equals_iff.1 (Bool.not_eq_false _ ▸ hmac')
  by_cases hcounters : d.counters = false
  · rw [if_pos hcounters] at hv
    rw [← hv]
    exact Or.inl ⟨nofun, le_refl _, fun _ _ => Or.inl hcounters⟩
  rw [if_neg hcounters] at hv
  rw [Bool.not_eq_false] at hcounters
  by_cases hstale : n ≤ s.highWater
  · rw [if_pos hstale] at hv
    rw [← hv]
    exact Or.inl ⟨nofun, le_refl _, fun _ hlt => absurd hlt (not_lt_of_ge hstale)⟩
  rw [if_neg hstale] at hv
  rw [not_le] at hstale
  rw [← hv]
  cases hok : o.ok with
  | false =>
      refine Or.inl ⟨nofun, ?_, fun _ _ => Or.inr rfl⟩
      change s.highWater ≤ if o.written then n else s.highWater
      split_ifs
      · exact le_of_lt hstale
      · exact le_refl _
  | true =>
      refine Or.inr ⟨rfl, heq, hcounters, rfl, hstale, ?_⟩
      exact if_pos (WriteOutcome.written_of_ok hok)

/-- What one call does.  Either it accepts, with all that goes before, or it does not; in both cases
the stored counter only rises. -/
lemma verify_cases (hmac : Bytes → Bytes → Vector (Fin 256) 32) (d : Deps) (s : Doorstep) (ms : ℤ)
    (o : WriteOutcome) (body : Bytes) :
    ((verify hmac d s ms o body).1 ≠ .accept ∧
        s.highWater ≤ (verify hmac d s ms o body).2.highWater ∧
        ∀ c : Counter, s.highWater < c → body = token hmac c d.hmacKey →
          rateLimited d s (now d ms) = true ∨ d.counters = false ∨ o.ok = false) ∨
      ((verify hmac d s ms o body).1 = .accept ∧ rateLimited d s (now d ms) = false ∧
        d.counters = true ∧ o.ok = true ∧ ∃ c : Counter, s.highWater < c ∧
          body = token hmac c d.hmacKey ∧ (verify hmac d s ms o body).2.highWater = c) := by
  unfold verify
  cases hlimit : rateLimited d s (now d ms) with
  | true => exact Or.inl ⟨nofun, le_refl _, fun _ _ _ => Or.inl rfl⟩
  | false =>
      rw [if_neg Bool.false_ne_true]
      cases hsplit : split body with
      | none =>
          refine Or.inl ⟨nofun, le_refl _, fun c _ hbody => ?_⟩
          rw [hbody, split_token] at hsplit
          cases hsplit
      | some parts =>
          obtain ⟨n, mac⟩ := parts
          obtain ⟨hmax, -, -, hbody⟩ := split_eq_some.1 hsplit
          rcases verifyToken_cases hmac d (recordWake d s (now d ms)) o n mac with
            ⟨hnot, hle, hwhy⟩ | ⟨hyes, hmac', hcounters, hok, hlt, hstored⟩
          · refine Or.inl ⟨hnot, hle, fun c hc htoken => Or.inr ?_⟩
            rw [htoken, split_token] at hsplit
            obtain ⟨rfl, rfl⟩ := Prod.mk.inj (Option.some.inj hsplit)
            exact hwhy rfl hc
          · have hword : n < 2 ^ 64 := lt_of_le_of_lt hmax (by decide)
            refine Or.inr ⟨hyes, rfl, hcounters, hok, ⟨n, hword⟩, hlt, ?_, hstored⟩
            rw [token_eq, hbody, hmac']

/-- A body is accepted exactly where the limiter is open, it is a token of a counter above the
stored one, and that counter is stored. -/
lemma verify_eq_accept :
    (verify hmac d s ms o body).1 = .accept ↔ rateLimited d s (now d ms) = false ∧
      (∃ c : Counter, s.highWater < c ∧ body = token hmac c d.hmacKey) ∧
        d.counters = true ∧ o.ok = true := by
  rcases verify_cases hmac d s ms o body with ⟨hnot, -, hwhy⟩ | ⟨hyes, hlimit, hd, ho, c, hc, hb, -⟩
  · refine iff_of_false hnot ?_
    rintro ⟨hlimit, ⟨c, hc, hbody⟩, hd, ho⟩
    rcases hwhy c hc hbody with h | h | h
    · exact Bool.false_ne_true (hlimit.symm.trans h)
    · exact Bool.false_ne_true (h.symm.trans hd)
    · exact Bool.false_ne_true (h.symm.trans ho)
  · exact iff_of_true hyes ⟨hlimit, ⟨c, hc, hb⟩, hd, ho⟩

end Accept

/-! ## Runs -/

/-- The doorstep, and the tokens accepted, newest first, each with the counter that was stored when
it was accepted. -/
structure Watch where
  door : Doorstep
  accepted : List (Bytes × ℕ) := []
  deriving DecidableEq, Repr

inductive Ring
  /-- A message, the clock, and how the write of the counter ends. -/
  | sms (body : Bytes) (ms : ℤ) (o : WriteOutcome)
  /-- The same, and power is lost before anybody hears of the verdict. -/
  | unheard (body : Bytes) (ms : ℤ) (o : WriteOutcome)
  /-- A new verifier; the memory that outlives a sleep is kept, or it is not. -/
  | boot (kept : Bool)
  deriving DecidableEq, Repr

section Runs

variable (hmac : Bytes → Bytes → Vector (Fin 256) 32) (d : Deps)

def booted (s : Doorstep) (kept : Bool) : Doorstep :=
  { s with lastWakeMs := 0, rtcLastWakeMs := if kept then s.rtcLastWakeMs else 0 }

def step (w : Watch) : Ring → Option Watch
  | .sms body ms o =>
      let r := verify hmac d w.door ms o body
      some
        { door := r.2
          accepted :=
            if r.1 = .accept then (body, r.2.highWater) :: w.accepted else w.accepted }
  | .unheard body ms o => some { w with door := (verify hmac d w.door ms o body).2 }
  | .boot kept => some { w with door := booted w.door kept }

/-- Each token was accepted with its own counter stored, and the counters only rose. -/
structure Guarded (low : ℕ) (w : Watch) : Prop where
  low : low ≤ w.door.highWater
  token : ∀ x ∈ w.accepted, ∃ c : Counter, x = (token hmac c d.hmacKey, ↑c)
  rising : (w.accepted.map Prod.snd).Pairwise (· > ·)
  stored : ∀ x ∈ w.accepted, x.2 ≤ w.door.highWater

variable {hmac d} {low : ℕ} {w w' w₀ : Watch} {rs : List Ring}

lemma Guarded.raised (h : Guarded hmac d low w) {door : Doorstep}
    (hle : w.door.highWater ≤ door.highWater) : Guarded hmac d low { w with door := door } :=
  ⟨le_trans h.low hle, h.token, h.rising, fun x hx => le_trans (h.stored x hx) hle⟩

lemma Guarded.step {r : Ring} (h : Guarded hmac d low w) (hstep : step hmac d w r = some w') :
    Guarded hmac d low w' := by
  cases r with
  | sms body ms o =>
      obtain rfl := Option.some.inj hstep
      rcases verify_cases hmac d w.door ms o body with
        ⟨hnot, hle, -⟩ | ⟨hyes, -, -, -, c, hc, hbody, hstored⟩
      · rw [if_neg hnot]
        exact h.raised hle
      · rw [if_pos hyes]
        have hraised := h.raised (le_of_lt (hstored ▸ hc))
        refine ⟨hraised.low, ?_, ?_, ?_⟩
        · rw [List.forall_mem_cons]
          exact ⟨⟨c, by rw [hbody, ← hbody, hstored]⟩, h.token⟩
        · rw [List.map_cons, List.pairwise_cons, List.forall_mem_map]
          refine ⟨fun x hx => ?_, h.rising⟩
          rw [hstored]
          exact lt_of_le_of_lt (h.stored x hx) hc
        · rw [List.forall_mem_cons]
          exact ⟨le_refl _, hraised.stored⟩
  | unheard body ms o =>
      obtain rfl := Option.some.inj hstep
      rcases verify_cases hmac d w.door ms o body with ⟨-, hle, -⟩ | ⟨-, -, -, -, c, hc, -, hstored⟩
      · exact h.raised hle
      · exact h.raised (le_of_lt (hstored ▸ hc))
  | boot kept =>
      obtain rfl := Option.some.inj hstep
      exact h.raised (le_refl _)

lemma Guarded.run (h : Guarded hmac d low w₀) (hrun : Run.run (Pututu.step hmac d) w₀ rs = some w) :
    Guarded hmac d low w :=
  Run.run_invariant (fun _ _ _ hw hstep => hw.step hstep) h hrun

/-- Counters that only rose make no token accepted twice. -/
lemma Guarded.nodup (h : Guarded hmac d low w) : (w.accepted.map Prod.fst).Nodup := by
  refine List.pairwise_map.2 ((List.pairwise_map.1 h.rising).imp_of_mem fun hx hy hlt heq => ?_)
  obtain ⟨c, hc⟩ := h.token _ hx
  obtain ⟨c', hc'⟩ := h.token _ hy
  rw [hc, hc'] at heq hlt
  obtain rfl := counter_of_token heq
  exact lt_irrefl _ hlt

/-- The two sides of the doorbell agree.  A message is accepted exactly where the limiter is open
and the message is the server's token of a counter above the stored one, and that counter is stored.
In every run each token is accepted at most once, with its own counter stored by then, and the
stored counter never falls. -/
theorem doorbell_agrees (hmac : Bytes → Bytes → Vector (Fin 256) 32) (d : Deps) :
    (∀ s ms o body, (verify hmac d s ms o body).1 = .accept ↔
      rateLimited d s (now d ms) = false ∧
        (∃ c : Counter, s.highWater < c ∧ body = token hmac c d.hmacKey) ∧
          d.counters = true ∧ o.ok = true) ∧
      ∀ w₀ rs w, w₀.accepted = [] → Run.run (step hmac d) w₀ rs = some w →
        (w.accepted.map Prod.fst).Nodup ∧ w₀.door.highWater ≤ w.door.highWater ∧
          ∀ x ∈ w.accepted, ∃ c : Counter, x = (token hmac c d.hmacKey, ↑c) := by
  refine ⟨fun s ms o body => verify_eq_accept, fun w₀ rs w hnone hrun => ?_⟩
  have hstart : Guarded hmac d w₀.door.highWater w₀ := by
    refine ⟨le_refl _, ?_, ?_, ?_⟩
    · simp [hnone]
    · simp [hnone]
    · simp [hnone]
  have hend := hstart.run hrun
  exact ⟨hend.nodup, hend.low, hend.token⟩

end Runs

namespace Sample

def flatHmac (_ _ : Bytes) : Vector (Fin 256) 32 := Vector.replicate 32 0

def doorDeps : Deps where
  hmacKey := ascii "key".toList

/-- A token, the same again, one whose counter is not stored, and then stored. -/
def rings : List Ring :=
  [.sms (token flatHmac 9 doorDeps.hmacKey) 60000 .done,
    .sms (token flatHmac 9 doorDeps.hmacKey) 400000 .done,
    .sms (token flatHmac 10 doorDeps.hmacKey) 800000 .unchanged,
    .sms (token flatHmac 10 doorDeps.hmacKey) 1200000 .done]

end Sample

theorem doorbell_agrees_rings :
    ∃ w, Run.run (step Sample.flatHmac Sample.doorDeps) ⟨⟨7, 0, 0⟩, []⟩ Sample.rings = some w ∧
      w.accepted.length = 2 ∧ (w.accepted.map Prod.fst).Nodup ∧ 7 ≤ w.door.highWater := by
  have hany : (Run.run (step Sample.flatHmac Sample.doorDeps) ⟨⟨7, 0, 0⟩, []⟩ Sample.rings).any
      (fun w => decide (w.accepted.length = 2)) = true := by
    decide +kernel
  obtain ⟨w, hrun, hw⟩ := Run.exists_of_any hany
  obtain ⟨hnodup, hle, -⟩ := (doorbell_agrees Sample.flatHmac Sample.doorDeps).2 _ _ w rfl hrun
  exact ⟨w, hrun, of_decide_eq_true hw, hnodup, hle⟩

end Chaskiwasi.Pututu
