import Mathlib.Data.List.Basic
import Mathlib.Tactic.Common

/-!
# Lines that are written one behind the other

A text of lines, each with its terminator, can be cut short at any symbol: by a write that stopped,
or by a reader that came early.  A reader that takes complete lines only, and drops what is behind
the last terminator, then reads the first of the lines that were written and never a piece of one
(`complete_take`).
-/

namespace Lines

variable {α : Type*} [DecidableEq α] (nl : α)

/-- The complete lines of a text, with what is read so far of the next. -/
def completeFrom (line : List α) : List α → List (List α)
  | [] => []
  | c :: rest => if c = nl then line :: completeFrom [] rest else completeFrom (line ++ [c]) rest

def complete (text : List α) : List (List α) := completeFrom nl [] text

/-- Each line with its terminator. -/
def text (lines : List (List α)) : List α := lines.flatMap fun line => line ++ [nl]

variable {nl} {line : List α}

lemma completeFrom_of_notMem (h : nl ∉ line) (before : List α) :
    completeFrom nl before line = [] := by
  induction line generalizing before with
  | nil => rfl
  | cons c line ih =>
      rw [List.mem_cons, not_or] at h
      rw [completeFrom, if_neg (Ne.symm h.1)]
      exact ih h.2 _

lemma completeFrom_append (h : nl ∉ line) (before rest : List α) :
    completeFrom nl before (line ++ nl :: rest) = (before ++ line) :: complete nl rest := by
  induction line generalizing before with
  | nil => rw [List.nil_append, completeFrom, if_pos rfl, List.append_nil, complete]
  | cons c line ih =>
      rw [List.mem_cons, not_or] at h
      rw [List.cons_append, completeFrom, if_neg (Ne.symm h.1), ih h.2, List.append_assoc,
        List.singleton_append]

omit [DecidableEq α] in
lemma text_cons (line : List α) (lines : List (List α)) :
    text nl (line :: lines) = line ++ nl :: text nl lines := by
  rw [text, List.flatMap_cons, List.append_assoc, List.singleton_append]
  rfl

/-- What a cut leaves of a text of lines is its first lines, and all of them only where nothing was
cut. -/
theorem complete_take {lines : List (List α)} (h : ∀ line ∈ lines, nl ∉ line) (n : ℕ) :
    ∃ k ≤ lines.length, complete nl ((text nl lines).take n) = lines.take k ∧
      (n < (text nl lines).length → k < lines.length) := by
  induction lines generalizing n with
  | nil =>
      refine ⟨0, Nat.le_refl 0, ?_, fun hn => absurd hn (Nat.not_lt_zero n)⟩
      rw [text, List.flatMap_nil, List.take_nil]
      rfl
  | cons line lines ih =>
      have hline := h line List.mem_cons_self
      rw [text_cons]
      by_cases hn : n ≤ line.length
      · refine ⟨0, Nat.zero_le _, ?_, fun _ => Nat.succ_pos _⟩
        rw [List.take_append_of_le_length hn, complete, List.take_zero]
        exact completeFrom_of_notMem (fun hmem => hline (List.mem_of_mem_take hmem)) []
      · obtain ⟨k, hk, htake, hlt⟩ :=
          ih (fun l hl => h l (List.mem_cons_of_mem _ hl)) (n - line.length - 1)
        have hcut : (line ++ nl :: text nl lines).take n =
            line ++ nl :: (text nl lines).take (n - line.length - 1) := by
          rw [List.take_append, List.take_of_length_le (by omega),
            show n - line.length = n - line.length - 1 + 1 by omega, List.take_succ_cons]
          rfl
        refine ⟨k + 1, Nat.succ_le_succ hk, ?_, ?_⟩
        · rw [hcut, complete, completeFrom_append hline, List.nil_append, htake,
            List.take_succ_cons]
        · intro hn'
          rw [List.length_append, List.length_cons] at hn'
          exact Nat.succ_lt_succ (hlt (by omega))

lemma complete_text {lines : List (List α)} (h : ∀ line ∈ lines, nl ∉ line) :
    complete nl (text nl lines) = lines := by
  induction lines with
  | nil => rfl
  | cons line lines ih =>
      rw [text_cons, complete, completeFrom_append (h line List.mem_cons_self), List.nil_append,
        ih fun l hl => h l (List.mem_cons_of_mem _ hl)]

end Lines
