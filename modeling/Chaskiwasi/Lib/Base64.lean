import Mathlib.Tactic.Common
import Mathlib.Data.List.Basic
import Mathlib.Data.Fin.Basic

/-!
# Base64 over an arbitrary alphabet

A base64 text carries its bytes six bits at a time, four symbols to three bytes, and an
unpadded text ends on a short group of two or three symbols; `padded` fills that group up.  The
*bit layer* of this file turns bytes into sextets and back; the *symbol layer* spells sextets in an
alphabet and reads them back, passing over a set of characters that a decoder ignores.

The decoder is the tolerant one that standard libraries ship by default: the spare bits of a
short last group are dropped without being checked, so several texts decode to one byte
string.  What was encoded decodes to itself (`decode_encode`), whatever the length; the other
direction holds of whole groups alone (`sextets_bytes`).
-/

namespace Base64

/-! ## The bit layer -/

/-- The sextets of a byte string, three bytes to four sextets, the last group short. -/
def sextets : List (Fin 256) → List (Fin 64)
  | [] => []
  | [a] => [⟨a / 4, by omega⟩, ⟨a % 4 * 16, by omega⟩]
  | [a, b] => [⟨a / 4, by omega⟩, ⟨a % 4 * 16 + b / 16, by omega⟩, ⟨b % 16 * 4, by omega⟩]
  | a :: b :: c :: rest =>
      ⟨a / 4, by omega⟩ :: ⟨a % 4 * 16 + b / 16, by omega⟩ ::
        ⟨b % 16 * 4 + c / 64, by omega⟩ :: ⟨c % 64, by omega⟩ :: sextets rest

/-- Three bytes come to four sextets. -/
lemma length_sextets {n : ℕ} {bs : List (Fin 256)} (h : bs.length = 3 * n) :
    (sextets bs).length = 4 * n := by
  induction bs using sextets.induct generalizing n with
  | case1 =>
      rw [List.length_nil] at h
      rw [sextets, List.length_nil]
      omega
  | case2 a =>
      rw [List.length_singleton] at h
      omega
  | case3 a b =>
      simp only [List.length_cons, List.length_nil] at h
      omega
  | case4 a b c rest ih =>
      simp only [List.length_cons] at h
      have hrest : rest.length = 3 * (n - 1) := by omega
      simp only [sextets, List.length_cons, ih hrest]
      omega

/-- The bytes of a sextet string.  A single left-over sextet holds less than a byte and is an
error; the spare bits of a short last group are dropped. -/
def bytes : List (Fin 64) → Option (List (Fin 256))
  | [] => some []
  | [_] => none
  | [s, t] => some [⟨s * 4 + t / 16, by omega⟩]
  | [s, t, u] => some [⟨s * 4 + t / 16, by omega⟩, ⟨t % 16 * 16 + u / 4, by omega⟩]
  | s :: t :: u :: v :: rest =>
      (bytes rest).map fun tail =>
        ⟨s * 4 + t / 16, by omega⟩ :: ⟨t % 16 * 16 + u / 4, by omega⟩ ::
          ⟨u % 4 * 64 + v, by omega⟩ :: tail

lemma bytes_sextets (bs : List (Fin 256)) : bytes (sextets bs) = some bs := by
  induction bs using sextets.induct with
  | case1 => rfl
  | case2 a =>
      simp only [sextets, bytes, Option.some.injEq, List.cons.injEq, and_true]
      exact Fin.ext (by simp only; omega)
  | case3 a b =>
      simp only [sextets, bytes, Option.some.injEq, List.cons.injEq, and_true]
      exact ⟨Fin.ext (by simp only; omega), Fin.ext (by simp only; omega)⟩
  | case4 a b c rest ih =>
      simp only [sextets, bytes, ih, Option.map_some, Option.some.injEq, List.cons.injEq, and_true]
      exact ⟨Fin.ext (by simp only; omega), Fin.ext (by simp only; omega),
        Fin.ext (by simp only; omega)⟩

/-- Of whole groups the bytes are spelled by no other sextets. -/
lemma sextets_bytes {n : ℕ} {ss : List (Fin 64)} {bs : List (Fin 256)} (h : bytes ss = some bs)
    (hlen : bs.length = 3 * n) : sextets bs = ss := by
  induction ss using bytes.induct generalizing n bs with
  | case1 =>
      obtain rfl := Option.some.inj h
      rfl
  | case2 s => cases h
  | case3 s t =>
      obtain rfl := Option.some.inj h
      simp only [List.length_cons, List.length_nil] at hlen
      omega
  | case4 s t u =>
      obtain rfl := Option.some.inj h
      simp only [List.length_cons, List.length_nil] at hlen
      omega
  | case5 s t u v rest ih =>
      obtain ⟨tail, htail, rfl⟩ := Option.map_eq_some_iff.1 h
      simp only [List.length_cons] at hlen
      have hrest := ih htail (n := n - 1) (by omega)
      simp only [sextets, hrest, List.cons.injEq, and_true]
      refine ⟨Fin.ext ?_, Fin.ext ?_, Fin.ext ?_, Fin.ext ?_⟩
      · simp only
        omega
      · simp only
        omega
      · simp only
        omega
      · simp only
        omega
/-! ## Padding -/

section Padded

variable {α : Type*} (symbol : Fin 64 → α) (fill : α)

/-- The symbols of a byte string, filled up to a multiple of four. -/
def padded (bs : List (Fin 256)) : List α :=
  (sextets bs).map symbol ++ List.replicate ((4 - (sextets bs).length % 4) % 4) fill

lemma padded_three (a b c : Fin 256) (rest : List (Fin 256)) :
    padded symbol fill (a :: b :: c :: rest) =
      (sextets [a, b, c]).map symbol ++ padded symbol fill rest := by
  simp only [padded, sextets, List.length_cons, Nat.add_assoc, Nat.reduceAdd, Nat.add_mod_right,
    List.map_cons, List.map_nil, List.cons_append, List.nil_append]

end Padded

/-! ## The symbol layer -/

/-- An alphabet: how a sextet is spelled, how a character is read, and which characters a
decoder passes over. -/
structure Alphabet where
  symbol : Fin 64 → Char
  value : Char → Option (Fin 64)
  ignored : Char → Bool
  /-- A spelled sextet reads back as itself. -/
  value_symbol : ∀ s, value (symbol s) = some s
  /-- No symbol of the alphabet is passed over. -/
  not_ignored : ∀ s, ignored (symbol s) = false

namespace Alphabet

variable (A : Alphabet)

def encode (bs : List (Fin 256)) : List Char :=
  (sextets bs).map A.symbol

def decode (text : List Char) : Option (List (Fin 256)) :=
  ((text.filter fun c => !A.ignored c).mapM A.value).bind bytes

lemma filter_ignored_symbols (ss : List (Fin 64)) :
    ((ss.map A.symbol).filter fun c => !A.ignored c) = ss.map A.symbol := by
  rw [List.filter_eq_self]
  intro c hc
  obtain ⟨s, -, rfl⟩ := List.mem_map.1 hc
  simp [A.not_ignored s]

lemma mapM_value_symbols (ss : List (Fin 64)) : (ss.map A.symbol).mapM A.value = some ss := by
  induction ss with
  | nil => rfl
  | cons s ss ih => simp [List.mapM_cons, A.value_symbol, ih]

/-- What was encoded decodes to itself. -/
theorem decode_encode (bs : List (Fin 256)) : A.decode (A.encode bs) = some bs := by
  rw [decode, encode, filter_ignored_symbols, mapM_value_symbols, Option.bind_some, bytes_sextets]

end Alphabet
end Base64
