import Chaskiwasi.Guardians.Store
import Chaskiwasi.Pututu.Token
import Chaskiwasi.Sync.Cursor

/-!
# The session cookie

A cookie carries a payload and its MAC.  The payload is a guardian's name, an expiry and a session
epoch, with a zero byte between them.  A name has no zero byte, and a number is written in one way,
so a payload names one guardian, one expiry and one epoch (`sessionPayload_injective`).

The cookie key signs the tokens of the forms as well, each kind of text under a heading of its own.
-/

namespace Chaskiwasi.Guardians

open Pututu (Bytes ascii formatUint)

/-- HMAC-SHA256 of a text under a key. -/
class Hmac where
  hmac : Bytes → Bytes → Bytes

/-! ## Texts and numbers -/

/-- The bytes of a text. -/
def utf8 (s : String) : Bytes := s.toList.flatMap String.utf8EncodeChar

/-- The text of the bytes, where they are one. -/
def text? (b : Bytes) : Option String := String.fromUTF8? ⟨b.toArray⟩

def plus : UInt8 := 43

def minus : UInt8 := 45

/-- `strconv.FormatInt` in base ten. -/
def formatInt : ℤ → Bytes
  | .ofNat n => formatUint n
  | .negSucc n => minus :: formatUint (n + 1)

/-- One more digit. -/
def digitAfter (v : ℕ) (c : UInt8) : Option ℕ :=
  if c < 48 ∨ 57 < c then none else some (v * 10 + (c - 48).toNat)

def parseUint (s : Bytes) : Option ℕ := if s = [] then none else s.foldlM digitAfter 0

/-- `strconv.ParseInt` in base ten and 64 bits, and so `strconv.Atoi`. -/
def parseInt (s : Bytes) : Option ℤ :=
  if s.head? = some minus then
    (parseUint s.tail).bind fun n => if n ≤ 2 ^ 63 then some (-n) else none
  else
    (parseUint (if s.head? = some plus then s.tail else s)).bind fun n =>
      if n < 2 ^ 63 then some n else none

/-! ## The payload -/

/-- `Time.Unix`, of a time in nanoseconds. -/
def unix (time : ℤ) : ℤ := time / second

def sessionPayload (guardian : String) (expiry : ℤ) (epoch : ℤ) : Bytes :=
  utf8 guardian ++ 0 :: formatInt (unix expiry) ++ 0 :: formatInt epoch

structure Session where
  guardian : Bytes
  epoch : ℤ
  expiry : ℤ
  deriving DecidableEq, Repr

/-- The session of a payload. -/
def readPayload (payload : Bytes) : Option Session :=
  match payload.splitOn 0 with
  | [guardian, expiry, epoch] =>
      (parseInt expiry).bind fun expiry =>
        (parseInt epoch).map fun epoch =>
          { guardian := guardian, epoch := epoch, expiry := expiry * second }
  | _ => none

/-! ## The cookie -/

def sessionVersion : List Char := "v1".toList

/-- What is signed for a session. -/
def sessionText (payload : Bytes) : Bytes := ascii "wasi-session-v1".toList ++ 0 :: payload

/-- What is signed for a form. -/
def csrfText (guardian : Bytes) (epoch : ℤ) (nonce : Bytes) : Bytes :=
  ascii "wasi-csrf-v1".toList ++ 0 :: guardian ++ 0 :: formatInt epoch ++ 0 :: nonce

def encodeBytes (b : Bytes) : List Char := rawURLEncoding.encode (b.map UInt8.toFin)

def decodeBytes (s : List Char) : Option Bytes :=
  (rawURLEncoding.decode s).map fun b => b.map UInt8.ofFin

section Cookie

variable [Hmac] (cookieKey : Bytes)

def signSession (payload : Bytes) : Bytes := Hmac.hmac cookieKey (sessionText payload)

/-- The cookie of a payload. -/
def cookieOf (payload : Bytes) : List Char :=
  sessionVersion ++ '.' :: encodeBytes payload ++ '.' :: encodeBytes (signSession cookieKey payload)

/-- The payload of a cookie and the MAC beside it. -/
def decodeCookie (value : List Char) : Option (Bytes × Bytes) :=
  match value.splitOn '.' with
  | [version, payload, mac] =>
      if version = sessionVersion then
        (decodeBytes payload).bind fun payload => (decodeBytes mac).map fun mac => (payload, mac)
      else none
  | _ => none

/-- The payload of a cookie whose MAC verifies. -/
def openCookie (value : List Char) : Option Bytes :=
  match decodeCookie value with
  | none => none
  | some (payload, mac) => if mac = signSession cookieKey payload then some payload else none

end Cookie

/-! ## Numbers read back -/

section Numbers

variable {m n : ℕ} {c : UInt8} {v w : ℕ}

lemma digitAfter_digit {d : ℕ} (hd : d < 10) (v : ℕ) :
    digitAfter v (Pututu.digit d) = some (v * 10 + d) := by
  obtain ⟨hc, hval⟩ := Pututu.digit_spec hd
  rw [digitAfter, if_neg hc, hval]

lemma foldlM_digitAfter (n : ℕ) : (formatUint n).foldlM digitAfter 0 = some n := by
  induction n using Nat.strong_induction_on with
  | _ n ih =>
      rcases Pututu.formatUint_cases n with ⟨hn, hformat⟩ | ⟨m, d, hm, hd, rfl, hformat⟩
      · rw [hformat, List.foldlM_cons, digitAfter_digit hn, Nat.zero_mul, Nat.zero_add]
        rfl
      · rw [hformat, List.foldlM_append, ih m (by omega)]
        change (digitAfter m (Pututu.digit d)).bind _ = _
        rw [digitAfter_digit hd]
        rfl

lemma parseUint_formatUint (n : ℕ) : parseUint (formatUint n) = some n := by
  rw [parseUint, if_neg (Pututu.formatUint_ne_nil n), foldlM_digitAfter]

/-- The digits of a number are digits. -/
lemma mem_formatUint {n : ℕ} (h : c ∈ formatUint n) : ∃ d < 10, c = Pututu.digit d := by
  induction n using Nat.strong_induction_on with
  | _ n ih =>
      rcases Pututu.formatUint_cases n with ⟨hn, hformat⟩ | ⟨m, d, hm, hd, rfl, hformat⟩
      · rw [hformat, List.mem_singleton] at h
        exact ⟨n, hn, h⟩
      · rw [hformat, List.mem_append, List.mem_singleton] at h
        rcases h with h | h
        · exact ih m (by omega) h
        · exact ⟨d, hd, h⟩

lemma digit_ne {d : ℕ} (hd : d < 10) :
    Pututu.digit d ≠ 0 ∧ Pututu.digit d ≠ plus ∧ Pututu.digit d ≠ minus := by
  interval_cases d <;> decide

lemma head_formatUint_ne (n : ℕ) :
    (formatUint n).head? ≠ some plus ∧ (formatUint n).head? ≠ some minus := by
  constructor
  · intro h
    obtain ⟨d, hd, hplus⟩ := mem_formatUint (List.mem_of_head? h)
    exact (digit_ne hd).2.1 hplus.symm
  · intro h
    obtain ⟨d, hd, hminus⟩ := mem_formatUint (List.mem_of_head? h)
    exact (digit_ne hd).2.2 hminus.symm

/-- A number reads back, where it fits into 64 bits, as itself. -/
lemma parseInt_formatInt {z y : ℤ} (h : parseInt (formatInt z) = some y) : y = z := by
  cases z with
  | ofNat n =>
      unfold parseInt formatInt at h
      obtain ⟨hplus, hminus⟩ := head_formatUint_ne n
      rw [if_neg hminus, if_neg hplus, parseUint_formatUint, Option.bind_some] at h
      by_cases hn : n < 2 ^ 63
      · rw [if_pos hn] at h
        exact (Option.some.inj h).symm
      · rw [if_neg hn] at h
        cases h
  | negSucc n =>
      unfold parseInt formatInt at h
      rw [List.head?_cons, if_pos rfl, List.tail_cons, parseUint_formatUint,
        Option.bind_some] at h
      by_cases hn : n + 1 ≤ 2 ^ 63
      · rw [if_pos hn] at h
        obtain rfl := Option.some.inj h
        rfl
      · rw [if_neg hn] at h
        cases h

lemma formatInt_injective {y z : ℤ} (h : formatInt y = formatInt z) : y = z := by
  have hnat : ∀ {m n : ℕ}, formatUint m = formatUint n → m = n := by
    intro m n hmn
    have hparse := parseUint_formatUint m
    rw [hmn, parseUint_formatUint] at hparse
    exact (Option.some.inj hparse).symm
  cases y with
  | ofNat m =>
      cases z with
      | ofNat n => exact congrArg Int.ofNat (hnat h)
      | negSucc n =>
          exfalso
          refine (head_formatUint_ne m).2 ?_
          have hhead := congrArg List.head? h
          exact hhead
  | negSucc m =>
      cases z with
      | ofNat n =>
          exfalso
          refine (head_formatUint_ne n).2 ?_
          have hhead := congrArg List.head? h
          exact hhead.symm
      | negSucc n =>
          have htail := hnat (List.cons.inj h).2
          rw [Nat.succ_injective htail]

lemma zero_not_mem_formatInt (z : ℤ) : 0 ∉ formatInt z := by
  have hnat : ∀ n, 0 ∉ formatUint n := by
    intro n h
    obtain ⟨d, hd, hzero⟩ := mem_formatUint h
    exact (digit_ne hd).1 hzero.symm
  cases z with
  | ofNat n => exact hnat n
  | negSucc n =>
      intro h
      rcases List.mem_cons.1 h with h | h
      · exact absurd h (by decide)
      · exact hnat (n + 1) h

end Numbers

/-! ## A payload names one session -/

section Payload

variable {g g' : String} {t t' e e' : ℤ} {s : Session}

lemma utf8_eq (s : String) : utf8 s = s.toByteArray.data.toList := by
  rw [← String.utf8Encode_toList, List.utf8Encode, List.toList_data_toByteArray, utf8]

lemma text?_utf8 (s : String) : text? (utf8 s) = some s := by
  rw [text?, utf8_eq, Array.toArray_toList, String.fromUTF8?, dif_pos s.isValidUTF8]
  rfl

lemma zero_not_mem_utf8 (h : g.toList.all isNameChar = true) : 0 ∉ utf8 g := by
  intro hmem
  obtain ⟨c, hc, hzero⟩ := List.mem_flatMap.1 hmem
  obtain ⟨hlow, hhigh, -⟩ := toNat_of_isNameChar (List.all_eq_true.1 h c hc)
  have hsmall : c.val.toNat ≤ 127 := by
    change c.toNat ≤ 127
    omega
  simp only [String.utf8EncodeChar, if_pos hsmall, List.mem_singleton] at hzero
  have hval := congrArg UInt8.toNat hzero
  simp only [UInt8.toNat_zero, UInt8.toNat_ofNat'] at hval
  have hlow' : 33 ≤ c.val.toNat := hlow
  omega

lemma splitOn_sessionPayload (h : g.toList.all isNameChar = true) :
    (sessionPayload g t e).splitOn 0 = [utf8 g, formatInt (unix t), formatInt e] := by
  have hjoin : sessionPayload g t e =
      [0].intercalate [utf8 g, formatInt (unix t), formatInt e] := by
    simp [sessionPayload, List.intercalate]
  rw [hjoin]
  refine List.splitOn_intercalate 0 ?_ (List.cons_ne_nil _ _)
  intro l hl
  rcases List.mem_cons.1 hl with rfl | hl
  · exact zero_not_mem_utf8 h
  · rcases List.mem_cons.1 hl with rfl | hl
    · exact zero_not_mem_formatInt _
    · rw [List.mem_singleton.1 hl]
      exact zero_not_mem_formatInt _

/-- Of names as they are kept, a payload has one guardian, one expiry and one epoch. -/
lemma sessionPayload_injective (hg : g.toList.all isNameChar = true)
    (hg' : g'.toList.all isNameChar = true)
    (h : sessionPayload g t e = sessionPayload g' t' e') :
    g = g' ∧ unix t = unix t' ∧ e = e' := by
  have hsplit := congrArg (List.splitOn 0) h
  rw [splitOn_sessionPayload hg, splitOn_sessionPayload hg'] at hsplit
  obtain ⟨hname, hrest⟩ := List.cons.inj hsplit
  obtain ⟨hexpiry, hrest⟩ := List.cons.inj hrest
  refine ⟨?_, formatInt_injective hexpiry, formatInt_injective (List.cons.inj hrest).1⟩
  have htext := text?_utf8 g
  rw [hname, text?_utf8] at htext
  exact (Option.some.inj htext).symm

/-- What is read from a payload is what was written into it. -/
lemma readPayload_sessionPayload (hg : g.toList.all isNameChar = true)
    (h : readPayload (sessionPayload g t e) = some s) :
    s = { guardian := utf8 g, epoch := e, expiry := unix t * second } := by
  unfold readPayload at h
  rw [splitOn_sessionPayload hg] at h
  obtain ⟨expiry, hexpiry, hrest⟩ := Option.bind_eq_some_iff.1 h
  obtain ⟨epoch, hepoch, rfl⟩ := Option.map_eq_some_iff.1 hrest
  rw [parseInt_formatInt hexpiry, parseInt_formatInt hepoch]

lemma sessionText_injective {p q : Bytes} (h : sessionText p = sessionText q) : p = q :=
  (List.cons.inj (List.append_cancel_left h)).2

/-- The text of a form is none of a session. -/
lemma csrfText_ne_sessionText (guardian : Bytes) (epoch : ℤ) (nonce p : Bytes) :
    csrfText guardian epoch nonce ≠ sessionText p := by
  intro h
  -- The headings differ in their sixth byte.
  have hbyte : (csrfText guardian epoch nonce)[5]? = (sessionText p)[5]? :=
    congrArg (fun b => b[5]?) h
  have hheads : (some 99 : Option UInt8) = some 115 := hbyte
  exact absurd hheads (by decide)

end Payload
end Chaskiwasi.Guardians
