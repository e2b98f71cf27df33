import Chaskiwasi.Lib.Absorb
import Mathlib.Data.Nat.Find
import Mathlib.Data.Nat.Prime.Basic
import Mathlib.Data.Nat.Sqrt

/-!
# SHA-256 and HMAC as their standards write them

FIPS 180-4 defines SHA-256 on a whole message: it is padded to whole blocks, the blocks are
absorbed in order, and the last hash value is the digest.  RFC 2104 defines HMAC over any hash
function that works in blocks.  Both are written down here the way those texts do, to be compared
with code and not to be run: the message schedule is its recurrence, and the constants are what the
standard says they are, the first bits of the fractional parts of the roots of the first primes.

`roundConstant_eq` and `initialWord_eq` are the way from a table in code to those constants.
-/

namespace Sha256

/-! ## Functions on words -/

def rotr (n x : UInt32) : UInt32 := (x >>> n) ||| (x <<< (32 - n))

def ch (x y z : UInt32) : UInt32 := (x &&& y) ^^^ (~~~x &&& z)

def maj (x y z : UInt32) : UInt32 := (x &&& y) ^^^ (x &&& z) ^^^ (y &&& z)

def bigSigma0 (x : UInt32) : UInt32 := rotr 2 x ^^^ rotr 13 x ^^^ rotr 22 x

def bigSigma1 (x : UInt32) : UInt32 := rotr 6 x ^^^ rotr 11 x ^^^ rotr 25 x

def smallSigma0 (x : UInt32) : UInt32 := rotr 7 x ^^^ rotr 18 x ^^^ (x >>> 3)

def smallSigma1 (x : UInt32) : UInt32 := rotr 17 x ^^^ rotr 19 x ^^^ (x >>> 10)

/-! ## Constants -/

/-- The first sixty-four primes. -/
def primes : List ℕ := (List.range 312).filter Nat.Prime

lemma primes_eq : primes =
    [2, 3, 5, 7, 11, 13, 17, 19, 23, 29, 31, 37, 41, 43, 47, 53, 59, 61, 67, 71, 73, 79, 83, 89,
      97, 101, 103, 107, 109, 113, 127, 131, 137, 139, 149, 151, 157, 163, 167, 173, 179, 181, 191,
      193, 197, 199, 211, 223, 227, 229, 233, 239, 241, 251, 257, 263, 269, 271, 277, 281, 283, 293,
      307, 311] := by decide +kernel

/-- The whole part of the cube root. -/
def cubeRoot (n : ℕ) : ℕ := Nat.findGreatest (fun k => k ^ 3 ≤ n) n

lemma cubeRoot_eq {n k : ℕ} (hle : k ^ 3 ≤ n) (hlt : n < (k + 1) ^ 3) : cubeRoot n = k := by
  have hk : k ≤ n := le_trans (Nat.le_self_pow (by decide) k) hle
  apply le_antisymm
  · by_contra hgt
    have hroot : cubeRoot n ^ 3 ≤ n :=
      Nat.findGreatest_spec (P := fun k => k ^ 3 ≤ n) hk hle
    have hpow : (k + 1) ^ 3 ≤ cubeRoot n ^ 3 := Nat.pow_le_pow_left (by omega) 3
    omega
  · exact Nat.le_findGreatest hk hle

/-- The first thirty-two bits of the fractional part of a prime's cube root. -/
def roundConstant (t : ℕ) : UInt32 := UInt32.ofNat (cubeRoot (primes.getD t 0 * 2 ^ 96))

/-- The same of its square root. -/
def initialWord (i : ℕ) : UInt32 := UInt32.ofNat (Nat.sqrt (primes.getD i 0 * 2 ^ 64))

lemma roundConstant_eq {t k : ℕ} (hle : k ^ 3 ≤ primes.getD t 0 * 2 ^ 96)
    (hlt : primes.getD t 0 * 2 ^ 96 < (k + 1) ^ 3) : roundConstant t = UInt32.ofNat k := by
  rw [roundConstant, cubeRoot_eq hle hlt]

lemma initialWord_eq {i k : ℕ} (hle : k * k ≤ primes.getD i 0 * 2 ^ 64)
    (hlt : primes.getD i 0 * 2 ^ 64 < (k + 1) * (k + 1)) : initialWord i = UInt32.ofNat k := by
  rw [initialWord, ← Nat.eq_sqrt.2 ⟨hle, hlt⟩]

/-! ## Padding -/

/-- The number of zero bytes: the least that leaves eight bytes to the end of a block. -/
def zeros (length : ℕ) : ℕ := (119 - length % 64) % 64

/-- The number of bits, in eight bytes. -/
def lengthField (bits : ℕ) : List UInt8 :=
  (List.range 8).map fun i => UInt8.ofNat (bits / 256 ^ (7 - i))

def pad (message : List UInt8) : List UInt8 :=
  message ++ (0x80 :: List.replicate (zeros message.length) 0) ++ lengthField (message.length * 8)

@[simp] lemma length_lengthField (bits : ℕ) : (lengthField bits).length = 8 := by
  rw [lengthField, List.length_map, List.length_range]

lemma dvd_length_pad (message : List UInt8) : 64 ∣ (pad message).length := by
  rw [pad, List.length_append, List.length_append, List.length_cons, List.length_replicate,
    length_lengthField, zeros]
  omega

/-! ## The hash -/

/-- A word of its bytes, the first the highest. -/
def wordOf (bytes : List UInt8) : UInt32 :=
  UInt32.ofNat (bytes.foldl (fun n b => n * 256 + b.toNat) 0)

/-- The words of a block. -/
def blockWord (block : List UInt8) (t : ℕ) : UInt32 := wordOf ((block.drop (t * 4)).take 4)

/-- The message schedule. -/
def schedule (block : List UInt8) (t : ℕ) : UInt32 :=
  if t < 16 then blockWord block t
  else
    smallSigma1 (schedule block (t - 2)) + schedule block (t - 7) +
      smallSigma0 (schedule block (t - 15)) + schedule block (t - 16)
termination_by t
decreasing_by all_goals omega

/-- One round on the working variables `a` to `h`. -/
def round (w : ℕ → UInt32) (v : Vector UInt32 8) (t : ℕ) : Vector UInt32 8 :=
  let t1 := v.get 7 + bigSigma1 (v.get 4) + ch (v.get 4) (v.get 5) (v.get 6) + roundConstant t + w t
  let t2 := bigSigma0 (v.get 0) + maj (v.get 0) (v.get 1) (v.get 2)
  #v[t1 + t2, v.get 0, v.get 1, v.get 2, v.get 3 + t1, v.get 4, v.get 5, v.get 6]

/-- The next hash value. -/
def compress (h : Vector UInt32 8) (block : List UInt8) : Vector UInt32 8 :=
  Vector.zipWith (fun x y => x + y) ((List.range 64).foldl (round (schedule block)) h) h

def initial : Vector UInt32 8 := Vector.ofFn fun i => initialWord i

def wordBytes (w : UInt32) : List UInt8 :=
  [(w >>> 24).toUInt8, (w >>> 16).toUInt8, (w >>> 8).toUInt8, w.toUInt8]

def digest (message : List UInt8) : List UInt8 :=
  (Absorb.absorb 64 compress initial (pad message)).toList.flatMap wordBytes

lemma length_digest (message : List UInt8) : (digest message).length = 32 := by
  rw [digest, List.length_flatMap]
  have hword : (fun w : UInt32 => (wordBytes w).length) = fun _ => 4 := rfl
  rw [hword, List.map_const', List.sum_replicate_nat, Vector.length_toList]

end Sha256

/-! ## HMAC -/

namespace Hmac

variable (hash : List UInt8 → List UInt8) (size : ℕ) (key text : List UInt8)

/-- The key in one block: hashed where it is longer, and filled up with zeros. -/
def blockKey : List UInt8 :=
  let short := if size < key.length then hash key else key
  short ++ List.replicate (size - short.length) 0

def hmac : List UInt8 :=
  hash ((blockKey hash size key).map (fun b => b ^^^ 0x5c) ++
    hash ((blockKey hash size key).map (fun b => b ^^^ 0x36) ++ text))

end Hmac
