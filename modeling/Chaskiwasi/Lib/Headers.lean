import Mathlib.Data.List.Basic
import Mathlib.Tactic.Common

/-!
# A header block and a body

A message is a block of fields, a line for each, an empty line and a body.  What a reader takes for
a field is a matter of where it sees line breaks, so a value that has one can end the block early or
put a field of its own into it.  A value without one can do neither: what was written is what is
read (`read_render`), whether a reader wants a carriage return before each newline or not.
-/

namespace Headers

/-- A field on its line. -/
def line (field : List Char × List Char) : List Char := field.1 ++ ": ".toList ++ field.2

def render (fields : List (List Char × List Char)) (body : List Char) : List Char :=
  (fields.flatMap fun field => line field ++ ['\r', '\n']) ++ ['\r', '\n'] ++ body

/-- The first line of a text, without its line break, and what follows it.  A newline ends a line,
with or without a carriage return before it. -/
def readLine (before : List Char) : List Char → Option (List Char × List Char)
  | [] => none
  | c :: rest =>
      if c = '\n' then
        some (if before.getLast? = some '\r' then before.dropLast else before, rest)
      else readLine (before ++ [c]) rest

lemma length_of_readLine {before text first rest : List Char}
    (h : readLine before text = some (first, rest)) : rest.length < text.length := by
  induction text generalizing before with
  | nil => cases h
  | cons c text ih =>
      rw [readLine] at h
      by_cases hc : c = '\n'
      · rw [if_pos hc] at h
        rw [(Prod.mk.inj (Option.some.inj h)).2]
        exact Nat.lt_succ_self _
      · rw [if_neg hc] at h
        exact Nat.lt_succ_of_lt (ih h)

/-- The lines before the first empty line, and what follows that. -/
def read (text : List Char) : Option (List (List Char) × List Char) :=
  match _h : readLine [] text with
  | none => none
  | some (first, rest) =>
      if first = [] then some ([], rest)
      else (read rest).map fun r => (first :: r.1, r.2)
termination_by text.length
decreasing_by exact length_of_readLine _h

lemma readLine_append {text : List Char} (h : '\n' ∉ text) (before rest : List Char) :
    readLine before (text ++ '\n' :: rest) =
      some (if (before ++ text).getLast? = some '\r' then (before ++ text).dropLast
        else before ++ text, rest) := by
  induction text generalizing before with
  | nil => rw [List.nil_append, readLine, if_pos rfl, List.append_nil]
  | cons c text ih =>
      rw [List.mem_cons, not_or] at h
      rw [List.cons_append, readLine, if_neg (Ne.symm h.1), ih h.2, List.append_assoc]
      rfl

/-- A line as it was written. -/
lemma readLine_line {text : List Char} (h : '\n' ∉ text) (rest : List Char) :
    readLine [] (text ++ ['\r', '\n'] ++ rest) = some (text, rest) := by
  have hsplit : text ++ ['\r', '\n'] ++ rest = text ++ ['\r'] ++ '\n' :: rest := by
    rw [List.append_assoc, List.append_assoc]
    rfl
  rw [hsplit, readLine_append, List.nil_append, if_pos List.getLast?_concat, List.dropLast_concat]
  rw [List.mem_append, not_or]
  exact ⟨h, by decide⟩

/-- A field that stays on its line. -/
def Single (field : List Char × List Char) : Prop := '\n' ∉ field.1 ∧ '\n' ∉ field.2

lemma newline_notMem_line {field : List Char × List Char} (h : Single field) :
    '\n' ∉ line field := by
  rw [line, List.mem_append, List.mem_append, not_or, not_or]
  exact ⟨⟨h.1, by decide⟩, h.2⟩

/-- **What was written is what is read.** -/
theorem read_render {fields : List (List Char × List Char)} (h : ∀ field ∈ fields, Single field)
    (body : List Char) : read (render fields body) = some (fields.map line, body) := by
  induction fields with
  | nil =>
      have hempty : readLine [] (render [] body) = some ([], body) :=
        readLine_line List.not_mem_nil body
      rw [read]
      split
      · next hnone =>
          rw [hempty] at hnone
          cases hnone
      · next first rest hsome =>
          rw [hempty] at hsome
          obtain ⟨rfl, rfl⟩ := Prod.mk.inj (Option.some.inj hsome)
          rfl
  | cons field fields ih =>
      have hfirst : readLine [] (render (field :: fields) body) =
          some (line field, render fields body) := by
        rw [render, List.flatMap_cons, List.append_assoc, List.append_assoc, ← List.append_assoc
          (fields.flatMap _)]
        exact readLine_line (newline_notMem_line (h field List.mem_cons_self)) _
      have hne : line field ≠ [] := by
        rw [line]
        simp
      rw [read]
      split
      · next hnone =>
          rw [hfirst] at hnone
          cases hnone
      · next first rest hsome =>
          rw [hfirst] at hsome
          obtain ⟨rfl, rfl⟩ := Prod.mk.inj (Option.some.inj hsome)
          rw [if_neg hne, ih fun f hf => h f (List.mem_cons_of_mem _ hf)]
          rfl

end Headers
