import Mathlib.Tactic.Common

/-!
# Address comparison

Contacts are matched by address after normalisation: a `Name <addr>` wrapper is tolerated,
surrounding white space goes, and the domain, the part after the last `@`, is lower-cased.  The
local part is compared as written.

`strings.ToLower` maps each rune by the Unicode tables.  Which mapping those tables hold is
nothing this development relies on, so it is the class `Runes`; every result below holds of
whatever mapping an instance names.
-/

namespace Chaskiwasi

/-- The rune mapping `strings.ToLower` applies. -/
class Runes where
  toLower : Char → Char

/-- ASCII case mapping. -/
@[reducible]
def Sample.runes : Runes := ⟨Char.toLower⟩

/-- `unicode.IsSpace`. -/
def isSpace (c : Char) : Bool :=
  c ∈ ['\t', '\n', '\x0b', '\x0c', '\r', ' ', '\u0085', '\u00a0', '\u1680', '\u2028', '\u2029',
    '\u202f', '\u205f', '\u3000'] ||
  ('\u2000' ≤ c && c ≤ '\u200a')

/-- No other character of ASCII is white space. -/
lemma isSpace_of_toNat {c : Char} (hlow : 33 ≤ c.toNat) (hhigh : c.toNat < 128) :
    isSpace c = false := by
  have hspaces : ∀ d ∈ ['\t', '\n', '\x0b', '\x0c', '\r', ' ', '\u0085', '\u00a0', '\u1680',
      '\u2028', '\u2029', '\u202f', '\u205f', '\u3000'], d.toNat < 33 ∨ 128 ≤ d.toNat := by
    simp only [List.forall_mem_cons, List.not_mem_nil, IsEmpty.forall_iff, implies_true, and_true]
    decide
  unfold isSpace
  rw [Bool.or_eq_false_iff, decide_eq_false_iff_not, Bool.and_eq_false_iff]
  constructor
  · intro hmem
    have hd := hspaces c hmem
    omega
  · left
    rw [decide_eq_false_iff_not]
    intro hle
    have hge : 8192 ≤ c.toNat := hle
    omega

def trimLeft (s : List Char) : List Char :=
  s.dropWhile isSpace

/-- `strings.TrimSpace`. -/
def trimSpace (s : List Char) : List Char :=
  (trimLeft (trimLeft s).reverse).reverse

/-- What stands before and after the last `c`, where there is one. -/
def splitLast (c : Char) : List Char → Option (List Char × List Char)
  | [] => none
  | x :: xs =>
      match splitLast c xs with
      | some (before, after) => some (x :: before, after)
      | none => if x = c then some ([], xs) else none

section SplitLast

variable {s before after : List Char} {c : Char}

lemma splitLast_eq_none_iff : splitLast c s = none ↔ c ∉ s := by
  induction s with
  | nil => simp [splitLast]
  | cons x s ih =>
      rw [splitLast]
      cases hs : splitLast c s with
      | some p =>
          have hmem : c ∈ s := by
            by_contra hc
            rw [ih.2 hc] at hs
            cases hs
          simp [hmem]
      | none => simp [ih.1 hs, eq_comm]

lemma splitLast_eq_some (h : splitLast c s = some (before, after)) :
    s = before ++ c :: after ∧ c ∉ after := by
  induction s generalizing before with
  | nil => cases h
  | cons x s ih =>
      rw [splitLast] at h
      cases hs : splitLast c s with
      | some p =>
          simp only [hs, Option.some.injEq] at h
          obtain ⟨b, a⟩ := p
          obtain ⟨rfl, rfl⟩ := Prod.mk.inj h
          obtain ⟨heq, hc⟩ := ih hs
          exact ⟨by rw [heq, List.cons_append], hc⟩
      | none =>
          simp only [hs] at h
          split_ifs at h with hx
          obtain ⟨rfl, rfl⟩ := Prod.mk.inj (Option.some.inj h)
          exact ⟨by rw [hx, List.nil_append], splitLast_eq_none_iff.1 hs⟩

/-- Where it splits is where the text was put together. -/
lemma splitLast_append (h : c ∉ after) :
    splitLast c (before ++ c :: after) = some (before, after) := by
  induction before with
  | nil =>
      rw [List.nil_append, splitLast, splitLast_eq_none_iff.2 h]
      exact if_pos rfl
  | cons x before ih => rw [List.cons_append, splitLast, ih]

end SplitLast

/-- The address inside a `Name <addr>` wrapper, or the text itself. -/
def unwrapAddress (s : List Char) : List Char :=
  match splitLast '<' s with
  | none => s
  | some (_, rest) => if '>' ∈ rest then rest.takeWhile (· ≠ '>') else s

/-- An address as it is compared. -/
def normalizeAddress [Runes] (addr : String) : String :=
  let s := trimSpace (unwrapAddress (trimSpace addr.toList))
  match splitLast '@' s with
  | none => String.ofList s
  | some (localPart, domain) => String.ofList (localPart ++ '@' :: domain.map Runes.toLower)

lemma trimLeft_trimLeft (s : List Char) : trimLeft (trimLeft s) = trimLeft s := by
  induction s with
  | nil => rfl
  | cons c s ih =>
      by_cases hc : isSpace c = true
      · simpa [trimLeft, List.dropWhile_cons, hc] using ih
      · simp [trimLeft, hc]

/-- What is trimmed on the right alone begins as it did. -/
lemma trimLeft_of_prefix {s t : List Char} (hs : trimLeft s = s) (ht : t <+: s) :
    trimLeft t = t := by
  obtain ⟨u, rfl⟩ := ht
  cases t with
  | nil => rfl
  | cons c t =>
      by_cases hc : isSpace c = true
      · have hlen := congrArg List.length hs
        simp only [trimLeft, List.cons_append, List.dropWhile_cons, hc, if_true,
          List.length_cons] at hlen
        have hle := (List.dropWhile_sublist (p := isSpace) (l := t ++ u)).length_le
        omega
      · simp [trimLeft, hc]

lemma trimSpace_trimSpace (s : List Char) : trimSpace (trimSpace s) = trimSpace s := by
  have hright : (trimLeft (trimLeft s).reverse).reverse <+: trimLeft s := by
    rw [← List.reverse_suffix, List.reverse_reverse]
    exact List.dropWhile_suffix _
  have hleft := trimLeft_of_prefix (trimLeft_trimLeft s) hright
  rw [trimSpace, trimSpace, hleft, List.reverse_reverse, trimLeft_trimLeft]

/-- The sentinel address of the messages Wasi writes itself. -/
def systemAddress : String := "system@wasi.internal"

/-- The display name behind the system contact. -/
def systemName : String := "Wasi"

/-- The reserved system contact's id. -/
def sysContactID : String := "c_sys"

/-- Whether an address names the system contact. -/
def IsSystem [Runes] (addr : String) : Prop :=
  normalizeAddress addr = normalizeAddress systemAddress

instance [Runes] (addr : String) : Decidable (IsSystem addr) :=
  inferInstanceAs (Decidable (_ = _))

/-- Surrounding white space does not matter. -/
lemma normalizeAddress_trim [Runes] (addr : String) :
    normalizeAddress (String.ofList (trimSpace addr.toList)) = normalizeAddress addr := by
  unfold normalizeAddress
  rw [String.toList_ofList, trimSpace_trimSpace]

end Chaskiwasi
