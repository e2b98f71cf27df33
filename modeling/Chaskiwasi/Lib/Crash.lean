import Mathlib.Data.List.Basic
import Mathlib.Tactic.Common

/-!
# Programs that power can fail

A program over a state type changes what is durable in single acts, one after another.  How an act
goes is not the program's choice: it is given an outcome, and what it does to the state and what it
answers depend on that outcome.  Power can be lost before any act, and nothing is lost between two.

`Prog` is such a program and `run` executes it against a list of outcomes; where the list ends
before the program does, power is lost.  A run keeps its history: each state an act was made in,
with the outcome it had.  `steady` is the execution in which every act has one and the same outcome,
the good one, and power stays.

`Triple P p Q R` says that from a state with `P` the program returns only in states with `Q` and is
cut only in states with `R`; the three speak about the history too, so that they can say what was so
at some moment before.  There is one rule for each way to build a program, one for a loop that may
be left early (`each`), and `Triple.steady` carries what a triple says over to the execution in
which nothing fails.
-/

namespace Crash

/-- A program over the state `σ` that returns an `α` and whose acts have outcomes in `ω`. -/
inductive Prog (ω σ α : Type) where
  | ret (a : α)
  /-- Reads the state. -/
  | look (k : σ → Prog ω σ α)
  /-- Changes what is not durable. -/
  | set (f : σ → σ) (k : Prog ω σ α)
  /-- A durable change. -/
  | act (f : ω → σ → σ × Bool) (k : Bool → Prog ω σ α)

/-- How a run ends: it returns, with the outcomes that are left over, or power is lost. -/
inductive Ending (ω σ α : Type) where
  | back (a : α) (past : List (σ × ω)) (s : σ) (rest : List ω)
  | cut (past : List (σ × ω)) (s : σ)

variable {ω σ α β γ : Type}

/-- The state in which a run ended. -/
def Ending.state : Ending ω σ α → σ
  | .back _ _ s _ => s
  | .cut _ s => s

/-- The history of a run. -/
def Ending.past : Ending ω σ α → List (σ × ω)
  | .back _ past _ _ => past
  | .cut past _ => past

namespace Prog

def bind : Prog ω σ α → (α → Prog ω σ β) → Prog ω σ β
  | ret a, k => k a
  | look p, k => look fun s => (p s).bind k
  | set f p, k => set f (p.bind k)
  | act f p, k => act f fun b => (p b).bind k

instance : Monad (Prog ω σ) where
  pure := ret
  bind := bind

/-- The state, as the program sees it. -/
def get : Prog ω σ σ := look ret

/-- A change of what is not durable. -/
def modify (f : σ → σ) : Prog ω σ Unit := set f (ret ())

/-- One durable change, and its answer. -/
def attempt (f : ω → σ → σ × Bool) : Prog ω σ Bool := act f ret

/-- Executes a program against the outcomes of its acts, the latest act first in the history. -/
def run : Prog ω σ α → List (σ × ω) → σ → List ω → Ending ω σ α
  | ret a, past, s, os => .back a past s os
  | look p, past, s, os => (p s).run past s os
  | set f p, past, s, os => p.run past (f s) os
  | act _ _, past, s, [] => .cut past s
  | act f p, past, s, o :: os => (p (f o s).2).run ((s, o) :: past) (f o s).1 os

/-- The execution in which every act has the outcome `good`. -/
def steady (good : ω) : Prog ω σ α → σ → α × σ
  | ret a, s => (a, s)
  | look p, s => (p s).steady good s
  | set f p, s => p.steady good (f s)
  | act f p, s => (p (f good s).2).steady good (f good s).1

/-- Goes through a list until the body answers false, with a value that is handed on. -/
def each (body : β → γ → Prog ω σ (Bool × γ)) : List β → γ → Prog ω σ (Bool × γ)
  | [], c => pure (true, c)
  | x :: xs, c => do
      let r ← body x c
      if r.1 then each body xs r.2 else pure r

lemma run_bind (p : Prog ω σ α) (k : α → Prog ω σ β) (past : List (σ × ω)) (s : σ)
    (os : List ω) :
    (p >>= k).run past s os =
      match p.run past s os with
      | .back a past' s' rest => (k a).run past' s' rest
      | .cut past' s' => .cut past' s' := by
  induction p generalizing past s os with
  | ret a => rfl
  | look p ih => exact ih s past s os
  | set f p ih => exact ih past (f s) os
  | act f p ih =>
      cases os with
      | nil => rfl
      | cons o os => exact ih _ _ _ os

/-- The execution in which every act goes well is a run. -/
lemma exists_run_steady (good : ω) (p : Prog ω σ α) (past : List (σ × ω)) (s : σ)
    (hpast : ∀ x ∈ past, x.2 = good) :
    ∃ os past', p.run past s os = .back (p.steady good s).1 past' (p.steady good s).2 [] ∧
      ∀ x ∈ past', x.2 = good := by
  induction p generalizing past s with
  | ret a => exact ⟨[], past, rfl, hpast⟩
  | look p ih => exact ih s past s hpast
  | set f p ih => exact ih past (f s) hpast
  | act f p ih =>
      have hcons : ∀ x ∈ (s, good) :: past, x.2 = good := by
        intro x hx
        rcases List.mem_cons.1 hx with rfl | hx
        · rfl
        · exact hpast x hx
      obtain ⟨os, past', hrun, hgood⟩ := ih (f good s).2 _ (f good s).1 hcons
      exact ⟨good :: os, past', hrun, hgood⟩

end Prog

/-! ## Triples -/

/-- An assertion about the history and the state. -/
abbrev Assertion (ω σ : Type) := List (σ × ω) → σ → Prop

/-- `A` after an answer of true, `B` after one of false. -/
def Answers (A B : Assertion ω σ) : Bool → Assertion ω σ
  | true => A
  | false => B

def Ending.Meets (Q : α → Assertion ω σ) (R : Assertion ω σ) : Ending ω σ α → Prop
  | .back a past s _ => Q a past s
  | .cut past s => R past s

lemma answers_self {A : Assertion ω σ} {b : Bool} {past : List (σ × ω)} {s : σ}
    (h : Answers A A b past s) : A past s := by
  cases b with
  | true => exact h
  | false => exact h

/-- What holds wherever a run returns and wherever it is cut holds where it ends. -/
lemma Ending.Meets.ended {Q : α → Assertion ω σ} {R A : Assertion ω σ} {e : Ending ω σ α}
    (h : e.Meets Q R) (hQ : ∀ a past s, Q a past s → A past s)
    (hR : ∀ past s, R past s → A past s) : A e.past e.state := by
  cases e with
  | back a past s rest => exact hQ a past s h
  | cut past s => exact hR past s h

/-- From where `P` holds, the program returns only where `Q` holds and is cut only where `R`
holds. -/
def Triple (P : Assertion ω σ) (p : Prog ω σ α) (Q : α → Assertion ω σ) (R : Assertion ω σ) :
    Prop :=
  ∀ past s os, P past s → (p.run past s os).Meets Q R

namespace Triple

variable {P P' R R' : Assertion ω σ} {Q Q' : α → Assertion ω σ}

theorem ret {a : α} (h : ∀ past s, P past s → Q a past s) : Triple P (pure a) Q R :=
  fun past s _ hP => h past s hP

theorem get : Triple P Prog.get (fun t past s => P past s ∧ s = t) R :=
  fun _ _ _ hP => ⟨hP, rfl⟩

theorem modify {f : σ → σ} {Q : Unit → Assertion ω σ} (h : ∀ past s, P past s → Q () past (f s)) :
    Triple P (Prog.modify f) Q R :=
  fun past s _ hP => h past s hP

/-- One act: power may be lost before it, and otherwise it is made, whatever its outcome. -/
theorem attempt {f : ω → σ → σ × Bool} {Q : Bool → Assertion ω σ}
    (hcut : ∀ past s, P past s → R past s)
    (hact : ∀ past s o, P past s → Q (f o s).2 ((s, o) :: past) (f o s).1) :
    Triple P (Prog.attempt f) Q R := by
  intro past s os hP
  cases os with
  | nil => exact hcut past s hP
  | cons o os => exact hact past s o hP

/-- One act, by its answer. -/
theorem attempt_answers {f : ω → σ → σ × Bool} {A B : Assertion ω σ}
    (hcut : ∀ past s, P past s → R past s)
    (htrue : ∀ past s o, P past s → (f o s).2 = true → A ((s, o) :: past) (f o s).1)
    (hfalse : ∀ past s o, P past s → (f o s).2 = false → B ((s, o) :: past) (f o s).1) :
    Triple P (Prog.attempt f) (Answers A B) R := by
  refine attempt hcut fun past s o hP => ?_
  cases hb : (f o s).2 with
  | true => exact htrue past s o hP hb
  | false => exact hfalse past s o hP hb

theorem bind {p : Prog ω σ α} {k : α → Prog ω σ β} {Q' : β → Assertion ω σ}
    (hp : Triple P p Q R) (hk : ∀ a, Triple (Q a) (k a) Q' R) : Triple P (p >>= k) Q' R := by
  intro past s os hP
  have hmeets := hp past s os hP
  rw [Prog.run_bind]
  cases hrun : p.run past s os with
  | back a past' s' rest =>
      rw [hrun] at hmeets
      exact hk a past' s' rest hmeets
  | cut past' s' =>
      rw [hrun] at hmeets
      exact hmeets

theorem conseq {p : Prog ω σ α} (h : Triple P' p Q' R') (hP : ∀ past s, P past s → P' past s)
    (hQ : ∀ a past s, Q' a past s → Q a past s) (hR : ∀ past s, R' past s → R past s) :
    Triple P p Q R := by
  intro past s os hPs
  have hmeets := h past s os (hP past s hPs)
  cases hrun : p.run past s os with
  | back a past' s' rest =>
      rw [hrun] at hmeets
      exact hQ a past' s' hmeets
  | cut past' s' =>
      rw [hrun] at hmeets
      exact hR past' s' hmeets

/-- What does not depend on the state may be assumed at the start. -/
theorem assume {φ : Prop} {p : Prog ω σ α} (h : φ → Triple P p Q R) :
    Triple (fun past s => φ ∧ P past s) p Q R :=
  fun past s os hP => h hP.1 past s os hP.2

/-- A loop keeps what each turn keeps; a turn that leaves it early leaves what `F` says. -/
theorem each {body : β → γ → Prog ω σ (Bool × γ)} {I : List β → γ → Assertion ω σ}
    {F : γ → Assertion ω σ}
    (h : ∀ x xs c,
      Triple (I (x :: xs) c) (body x c) (fun r => Answers (I xs r.2) (F r.2) r.1) R)
    (xs : List β) (c : γ) :
    Triple (I xs c) (Prog.each body xs c) (fun r => Answers (I [] r.2) (F r.2) r.1) R := by
  induction xs generalizing c with
  | nil => exact Triple.ret fun _ _ hI => hI
  | cons x xs ih =>
      refine Triple.bind (h x xs c) fun r => ?_
      obtain ⟨b, c'⟩ := r
      cases b with
      | true => exact ih c'
      | false => exact Triple.ret fun _ _ hF => hF

/-- What a triple says of the execution in which every act goes well. -/
theorem steady {p : Prog ω σ α} {s : σ} (good : ω) (h : Triple P p Q R) (hP : P [] s) :
    ∃ past, (∀ x ∈ past, x.2 = good) ∧ Q (p.steady good s).1 past (p.steady good s).2 := by
  obtain ⟨os, past, hrun, hgood⟩ :=
    p.exists_run_steady good [] s fun x hx => absurd hx List.not_mem_nil
  have hmeets := h [] s os hP
  rw [hrun] at hmeets
  exact ⟨past, hgood, hmeets⟩

end Triple
end Crash
