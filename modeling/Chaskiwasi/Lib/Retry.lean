import Mathlib.Logic.Function.Iterate
import Mathlib.Tactic.Common

/-!
# Trying a command again

A caller that does not get an answer tries again, and does not know whether the command took effect.
An `Attempt` says whether it did, and what the caller returns, if anything; `run` is the loop.  The
state it leaves is the command's effect as many times as an attempt was executed (`run_fst`).  For a
command whose repetition changes nothing that is one effect or none (`run_fst_of_idempotent`); for
any other, the loop is safe exactly where no attempt is executed behind one whose answer was lost
(`executions_le_one_iff`).
-/

namespace Retry

variable {σ β : Type*}

/-- One attempt: whether the command took effect, and what the caller returns; with `none` it tries
again. -/
structure Attempt (β : Type*) where
  executed : Bool
  result : Option β

/-- The attempts up to the first after which the caller returns. -/
def run (exec : σ → σ) : σ → List (Attempt β) → σ × Option β
  | s, [] => (s, none)
  | s, a :: rest =>
      let s' := if a.executed then exec s else s
      match a.result with
      | some r => (s', some r)
      | none => run exec s' rest

/-- How many of the attempts that are made take effect. -/
def executions : List (Attempt β) → ℕ
  | [] => 0
  | a :: rest =>
      (if a.executed then 1 else 0) + if a.result.isSome then 0 else executions rest

/-- No attempt takes effect behind one that did and whose answer was lost. -/
def Clean : List (Attempt β) → Prop
  | [] => True
  | a :: rest =>
      a.result = none → if a.executed then executions rest = 0 else Clean rest

variable {exec : σ → σ} {s : σ} {as : List (Attempt β)}

theorem run_fst (exec : σ → σ) (s : σ) (as : List (Attempt β)) :
    (run exec s as).1 = exec^[executions as] s := by
  induction as generalizing s with
  | nil => rfl
  | cons a rest ih =>
      simp only [run, executions]
      cases a.result with
      | some r => cases a.executed <;> rfl
      | none =>
          simp only [Option.isSome_none, Bool.false_eq_true, if_false]
          rw [ih]
          cases a.executed with
          | false => simp
          | true => simp only [if_true, Nat.add_comm 1, Function.iterate_succ_apply]

/-- A command that may be repeated leaves one effect or none. -/
theorem run_fst_of_idempotent (hexec : ∀ s, exec (exec s) = exec s) (s : σ)
    (as : List (Attempt β)) :
    (run exec s as).1 = if executions as = 0 then s else exec s := by
  rw [run_fst]
  cases executions as with
  | zero => rfl
  | succ n =>
      rw [Function.iterate_succ_apply]
      exact Function.iterate_fixed (hexec s) n

/-- Where an answer is returned only for an attempt that took effect, there is one when it is. -/
theorem executions_pos {b : β} (hanswered : ∀ a ∈ as, a.result = some b → a.executed = true)
    (h : (run exec s as).2 = some b) : 0 < executions as := by
  induction as generalizing s with
  | nil => cases h
  | cons a rest ih =>
      rw [List.forall_mem_cons] at hanswered
      simp only [run] at h
      simp only [executions]
      cases hresult : a.result with
      | some r =>
          simp only [hresult] at h
          have hexecuted := hanswered.1 (hresult.trans h)
          simp [hexecuted]
      | none =>
          simp only [hresult] at h
          have hpos := ih hanswered.2 h
          simp only [Option.isSome_none, Bool.false_eq_true, if_false]
          omega

theorem executions_le_one_iff : executions as ≤ 1 ↔ Clean as := by
  induction as with
  | nil => simp [executions, Clean]
  | cons a rest ih =>
      simp only [executions, Clean]
      cases a.result with
      | some r => cases a.executed <;> simp
      | none =>
          cases a.executed with
          | false => simpa using ih
          | true =>
              simp only [Option.isSome_none, Bool.false_eq_true, if_false, if_true, forall_const]
              omega

instance (as : List (Attempt β)) : Decidable (Clean as) :=
  decidable_of_iff _ executions_le_one_iff

end Retry
