import Mathlib.Algebra.BigOperators.Group.List.Basic
import Mathlib.Algebra.Order.Ring.Nat
import Mathlib.Data.Int.Notation
import Mathlib.Data.List.TakeWhile

/-!
# JSON values and their text

A value is a tree; its numbers are kept as they are written, because a reader may tell `1e+15` from
`1000000000000000`.  `print` is the text without spaces, for a writer with a given way to escape the
characters of a string.

Two things about C are here too.  A C string ends at its first NUL, so a reader or writer that hands
strings through as such loses the rest (`cstr`).  And a whole number in a double is printed with as
few digits as read back (`Literal.ofDouble`): with 15, in the form with an exponent if it has more
than that many, or else with 17.
-/

/-- A number as it is written. -/
inductive Literal
  /-- Neither fraction nor exponent. -/
  | int (n : ℤ)
  /-- `m` times ten to the power of `e`, written with an exponent. -/
  | sci (m e : ℕ)
  deriving DecidableEq, Repr

namespace Literal

/-- The number of decimal digits. -/
def digits (n : ℕ) : ℕ := (Nat.toDigits 10 n).length

/-- The digits that count are those up to the last that is not zero. -/
def print : Literal → List Char
  | int n => (if n < 0 then ['-'] else []) ++ Nat.toDigits 10 n.natAbs
  | sci m e =>
      let ds := ((Nat.toDigits 10 m).reverse.dropWhile (· = '0')).reverse
      let exponent := Nat.toDigits 10 (e + digits m - 1)
      ds.take 1 ++ (if ds.length ≤ 1 then [] else '.' :: ds.drop 1) ++ ['e', '+'] ++
        (if exponent.length < 2 then ['0'] else []) ++ exponent

def value : Literal → ℤ
  | int n => n
  | sci m e => m * 10 ^ e

/-- A whole number with `p` significant digits; one in the middle between two such goes up. -/
def ofPrecision (p n : ℕ) : Literal :=
  if n < 10 ^ p then int n
  else
    let e := digits n - p
    sci ((2 * n + 10 ^ e) / (2 * 10 ^ e)) e

/-- A whole number in a double: with 15 digits, if that reads back, and else with 17. -/
def ofDouble (n : ℕ) : Literal :=
  if (ofPrecision 15 n).value = n then ofPrecision 15 n else ofPrecision 17 n

end Literal

inductive Json
  | null
  | bool (b : Bool)
  | num (n : Literal)
  | str (s : String)
  | arr (xs : List Json)
  | obj (fields : List (String × Json))

namespace Json

/-- The field with a name.  A writer gives each name once. -/
def get? : Json → String → Option Json
  | obj fields, key => (fields.find? (·.1 = key)).map (·.2)
  | _, _ => none

/-- A field that is left out where it has no value. -/
def optional (key : String) (x : Option Json) : List (String × Json) := (x.map (key, ·)).toList

section Get

variable {key key' : String} {x : Json} {fields rest : List (String × Json)}

@[simp] lemma get?_nil : (obj []).get? key = none := rfl

@[simp] lemma get?_cons :
    (obj ((key', x) :: fields)).get? key =
      if key' = key then some x else (obj fields).get? key := by
  rw [get?, List.find?_cons]
  by_cases h : key' = key
  · rw [if_pos h, decide_eq_true h]
    rfl
  · rw [if_neg h, decide_eq_false h]
    rfl

@[simp] lemma get?_optional_append {x : Option Json} :
    (obj (optional key' x ++ rest)).get? key =
      if key' = key then x.or ((obj rest).get? key) else (obj rest).get? key := by
  cases x with
  | none => simp [optional]
  | some x => simp [optional]

@[simp] lemma get?_optional {x : Option Json} :
    (obj (optional key' x)).get? key = if key' = key then x else none := by
  have h := @get?_optional_append key key' [] x
  rw [List.append_nil, get?_nil, Option.or_none] at h
  exact h

end Get

section Print

variable (esc : Char → List Char)

def quote (s : String) : List Char := '"' :: (s.toList.flatMap esc ++ ['"'])

mutual

/-- The text of a value. -/
def print : Json → List Char
  | null => ['n', 'u', 'l', 'l']
  | bool true => ['t', 'r', 'u', 'e']
  | bool false => ['f', 'a', 'l', 's', 'e']
  | num n => n.print
  | str s => quote esc s
  | arr xs => '[' :: ([','].intercalate (printElems xs) ++ [']'])
  | obj fields => '\x7b' :: ([','].intercalate (printFields fields) ++ ['\x7d'])

def printElems : List Json → List (List Char)
  | [] => []
  | x :: xs => print x :: printElems xs

def printFields : List (String × Json) → List (List Char)
  | [] => []
  | (key, x) :: fields => (quote esc key ++ ':' :: print x) :: printFields fields

end

end Print

end Json

/-! ## What C makes of it -/

/-- A C string ends at the first NUL. -/
def cstr (s : String) : String := String.ofList (s.toList.takeWhile (· ≠ '\x00'))

/-- Nothing of the string is lost in C. -/
def NulFree (s : String) : Prop := '\x00' ∉ s.toList

instance (s : String) : Decidable (NulFree s) := inferInstanceAs (Decidable (_ ∉ _))

lemma cstr_eq_iff {s : String} : cstr s = s ↔ NulFree s := by
  rw [cstr, ← String.toList_inj, String.toList_ofList, List.takeWhile_eq_self_iff, NulFree]
  constructor
  · intro h hmem
    simpa using h _ hmem
  · intro h c hc
    simp only [ne_eq, decide_eq_true_eq]
    rintro rfl
    exact h hc
