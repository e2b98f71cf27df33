import Mathlib.Tactic.Common
import Mathlib.Data.List.Basic

/-!
# Runs of a step function

A system is given here by a partial step function on an arbitrary state type: `step s a` is
the state after the action `a`, or `none` where `a` is not possible in `s`.  A run is a list
of actions, all of which were possible.

Two rules carry an invariant from one step to a whole run.  `run_invariant` is the plain one.
`run_invariant_of_meets` is for systems whose invariant survives only the steps that meet a
condition: `Meets step C s as` says that every step of the run from `s` meets `C` in the state
it is taken in.  A condition on the states a run visits (`visits`), or on its actions alone, is
such a condition too (`meets_of_visits`, `meets_of_mem`).  `run_refines` carries a view of one system
as another from its steps to its runs, and `run_simulates` a relation between the two.
-/

namespace Run

variable {σ α : Type*} {step : σ → α → Option σ}

/-- The state after a list of actions, where all of them were possible. -/
def run (step : σ → α → Option σ) : σ → List α → Option σ
  | s, [] => some s
  | s, a :: as => (step s a).bind fun s' => run step s' as

/-- Every step of the run from `s` meets `C` in the state it is taken in. -/
def Meets (step : σ → α → Option σ) (C : σ → α → Prop) : σ → List α → Prop
  | _, [] => True
  | s, a :: as => C s a ∧ ∀ s', step s a = some s' → Meets step C s' as

instance Meets.decidable {C : σ → α → Prop} [∀ s a, Decidable (C s a)] :
    ∀ (s : σ) (as : List α), Decidable (Meets step C s as)
  | _, [] => isTrue trivial
  | s, a :: as =>
      have : Decidable (∀ s', step s a = some s' → Meets step C s' as) :=
        match hs : step s a with
        | none => isTrue fun _ h => by cases h
        | some s' =>
            have : Decidable (Meets step C s' as) := Meets.decidable s' as
            decidable_of_iff (Meets step C s' as)
              ⟨fun h _ heq => Option.some.inj heq ▸ h, fun h => h s' rfl⟩
      inferInstanceAs (Decidable (_ ∧ _))

/-- The states the run from `s` visits, up to the first action that is not possible. -/
def visits (step : σ → α → Option σ) : σ → List α → List σ
  | s, [] => [s]
  | s, a :: as =>
      s :: match step s a with
        | none => []
        | some s' => visits step s' as

@[simp] lemma run_nil (s : σ) : run step s [] = some s := rfl

lemma run_cons_eq_some {s t : σ} {a : α} {as : List α} :
    run step s (a :: as) = some t ↔ ∃ s', step s a = some s' ∧ run step s' as = some t := by
  simp only [run, Option.bind_eq_some_iff]

lemma run_append_eq_some {s t : σ} {as bs : List α} :
    run step s (as ++ bs) = some t ↔
      ∃ m, run step s as = some m ∧ run step m bs = some t := by
  induction as generalizing s with
  | nil => simp
  | cons a as ih =>
      simp only [List.cons_append, run_cons_eq_some, ih]
      constructor
      · rintro ⟨s', hs', m, hm, ht⟩
        exact ⟨m, ⟨s', hs', hm⟩, ht⟩
      · rintro ⟨m, ⟨s', hs', hm⟩, ht⟩
        exact ⟨s', hs', m, hm, ht⟩

/-- A run that was evaluated to a state with a property. -/
lemma exists_of_any {s : σ} {as : List α} {p : σ → Bool} (h : (run step s as).any p = true) :
    ∃ t, run step s as = some t ∧ p t = true := by
  cases hrun : run step s as with
  | none => simp [hrun] at h
  | some t => exact ⟨t, rfl, by simpa [hrun] using h⟩

/-- An invariant of the steps that meet a condition holds at the end of every run all of
whose steps meet it. -/
theorem run_invariant_of_meets {C : σ → α → Prop} {I : σ → Prop}
    (hstep : ∀ s a s', I s → C s a → step s a = some s' → I s')
    {s t : σ} {as : List α} (hs : I s) (hC : Meets step C s as)
    (hrun : run step s as = some t) : I t := by
  induction as generalizing s with
  | nil =>
      obtain rfl := Option.some.inj hrun
      exact hs
  | cons a as ih =>
      obtain ⟨s', hs', ht⟩ := run_cons_eq_some.1 hrun
      exact ih (hstep s a s' hs hC.1 hs') (hC.2 s' hs') ht

/-- A property of the actions of a run holds at each of its steps. -/
lemma meets_of_mem {C : α → Prop} {s : σ} {as : List α} (h : ∀ a ∈ as, C a) :
    Meets step (fun _ a => C a) s as := by
  induction as generalizing s with
  | nil => trivial
  | cons a as ih =>
      refine ⟨h a (List.mem_cons_self ..), fun s' _ => ?_⟩
      exact ih fun b hb => h b (List.mem_cons_of_mem _ hb)

/-- An invariant of the steps holds at the end of every run. -/
theorem run_invariant {I : σ → Prop} (hstep : ∀ s a s', I s → step s a = some s' → I s')
    {s t : σ} {as : List α} (hs : I s) (hrun : run step s as = some t) : I t :=
  run_invariant_of_meets (C := fun _ _ => True) (fun s a s' hI _ => hstep s a s' hI) hs
    (meets_of_mem fun _ _ => trivial) hrun

lemma mem_visits_self (s : σ) (as : List α) : s ∈ visits step s as := by
  cases as <;> exact List.mem_cons_self ..

lemma mem_visits_of_step {s s' t : σ} {a : α} {as : List α} (h : step s a = some s')
    (ht : t ∈ visits step s' as) : t ∈ visits step s (a :: as) := by
  rw [visits, h]
  exact List.mem_cons_of_mem _ ht

lemma mem_visits_of_run {s t : σ} {as : List α} (h : run step s as = some t) :
    t ∈ visits step s as := by
  induction as generalizing s with
  | nil =>
      obtain rfl := Option.some.inj h
      exact mem_visits_self s []
  | cons a as ih =>
      obtain ⟨s', hs', ht⟩ := run_cons_eq_some.1 h
      exact mem_visits_of_step hs' (ih ht)

/-- An invariant of the steps that meet a condition holds in every state that a run all of whose
steps meet it visits. -/
theorem visits_invariant_of_meets {C : σ → α → Prop} {I : σ → Prop}
    (hstep : ∀ s a s', I s → C s a → step s a = some s' → I s') {s : σ} {as : List α} (hs : I s)
    (hC : Meets step C s as) : ∀ t ∈ visits step s as, I t := by
  induction as generalizing s with
  | nil =>
      intro t ht
      obtain rfl := List.mem_singleton.1 ht
      exact hs
  | cons a as ih =>
      intro t ht
      rw [visits] at ht
      rcases List.mem_cons.1 ht with rfl | ht
      · exact hs
      · cases hs' : step s a with
        | none =>
            rw [hs'] at ht
            cases ht
        | some s' =>
            rw [hs'] at ht
            exact ih (hstep s a s' hs hC.1 hs') (hC.2 s' hs') t ht

/-- A property of the states a run visits holds before and after each of its steps. -/
lemma meets_of_visits {Q : σ → Prop} {s : σ} {as : List α} (h : ∀ t ∈ visits step s as, Q t) :
    Meets step (fun s a => Q s ∧ ∀ s', step s a = some s' → Q s') s as := by
  induction as generalizing s with
  | nil => trivial
  | cons a as ih =>
      refine ⟨⟨h s (mem_visits_self s _), fun s' hs' => ?_⟩, fun s' hs' => ?_⟩
      · exact h s' (mem_visits_of_step hs' (mem_visits_self s' as))
      · exact ih fun t ht => h t (mem_visits_of_step hs' ht)

/-- Where a step leads out of `Q` exactly when it fails to meet `C`, a run stays in `Q` exactly
when all of its steps meet `C`. -/
theorem forall_visits_iff_meets_of_run {I Q : σ → Prop} {C D : σ → α → Prop}
    (hstep : ∀ s a s', I s → D s a → step s a = some s' → (C s a → I s') ∧ (Q s' → C s a))
    (hQ : ∀ s, I s → Q s) {s t : σ} {as : List α} (hs : I s) (hD : Meets step D s as)
    (hrun : run step s as = some t) : (∀ v ∈ visits step s as, Q v) ↔ Meets step C s as := by
  induction as generalizing s with
  | nil =>
      have hvisits : visits step s [] = [s] := rfl
      rw [hvisits]
      exact ⟨fun _ => trivial, fun _ v hv => List.mem_singleton.1 hv ▸ hQ s hs⟩
  | cons a as ih =>
      obtain ⟨s', hs', hrest⟩ := run_cons_eq_some.1 hrun
      obtain ⟨hkeep, hleave⟩ := hstep s a s' hs hD.1 hs'
      have hlater := fun hI : I s' => ih hI (hD.2 s' hs') hrest
      have hvisits : visits step s (a :: as) = s :: visits step s' as := by
        rw [visits, hs']
      rw [hvisits]
      constructor
      · intro h
        have hC := hleave (h s' (List.mem_cons_of_mem _ (mem_visits_self s' as)))
        refine ⟨hC, fun v hv => ?_⟩
        obtain rfl := Option.some.inj (hs'.symm.trans hv)
        exact (hlater (hkeep hC)).1 fun v hv => h v (List.mem_cons_of_mem _ hv)
      · intro h v hv
        rcases List.mem_cons.1 hv with rfl | hv
        · exact hQ v hs
        · exact (hlater (hkeep h.1)).2 (h.2 s' hs') v hv

lemma exists_run (htotal : ∀ s a, ∃ s', step s a = some s') (s : σ) (as : List α) :
    ∃ t, run step s as = some t := by
  induction as generalizing s with
  | nil => exact ⟨s, rfl⟩
  | cons a as ih =>
      obtain ⟨s', hs'⟩ := htotal s a
      obtain ⟨t, ht⟩ := ih s'
      exact ⟨t, run_cons_eq_some.2 ⟨s', hs', ht⟩⟩

/-- The same, where every action is possible. -/
theorem forall_visits_iff_meets {I Q : σ → Prop} {C D : σ → α → Prop}
    (htotal : ∀ s a, ∃ s', step s a = some s')
    (hstep : ∀ s a s', I s → D s a → step s a = some s' → (C s a → I s') ∧ (Q s' → C s a))
    (hQ : ∀ s, I s → Q s) {s : σ} {as : List α} (hs : I s) (hD : Meets step D s as) :
    (∀ t ∈ visits step s as, Q t) ↔ Meets step C s as := by
  obtain ⟨t, hrun⟩ := exists_run htotal s as
  exact forall_visits_iff_meets_of_run hstep hQ hs hD hrun

/-- An invariant of the steps that meet a condition holds before each step of a run all of whose
steps meet it. -/
lemma Meets.with_invariant {C : σ → α → Prop} {I : σ → Prop}
    (hstep : ∀ s a s', I s → C s a → step s a = some s' → I s') {s : σ} {as : List α} (hs : I s)
    (hC : Meets step C s as) : Meets step (fun s a => I s ∧ C s a) s as := by
  induction as generalizing s with
  | nil => trivial
  | cons a as ih =>
      exact ⟨⟨hs, hC.1⟩, fun s' hs' => ih (hstep s a s' hs hC.1 hs') (hC.2 s' hs')⟩

lemma Meets.and {C D : σ → α → Prop} {s : σ} {as : List α} (hC : Meets step C s as)
    (hD : Meets step D s as) : Meets step (fun s a => C s a ∧ D s a) s as := by
  induction as generalizing s with
  | nil => trivial
  | cons a as ih => exact ⟨⟨hC.1, hD.1⟩, fun s' hs' => ih (hC.2 s' hs') (hD.2 s' hs')⟩

lemma Meets.imp {C D : σ → α → Prop} {s : σ} {as : List α} (h : Meets step C s as)
    (himp : ∀ s a, C s a → D s a) : Meets step D s as := by
  induction as generalizing s with
  | nil => trivial
  | cons a as ih => exact ⟨himp s a h.1, fun s' hs' => ih (h.2 s' hs')⟩

/-- Conditions that come to the same wherever an invariant holds, where the steps that meet one of
them keep it. -/
lemma meets_congr_of_meets {C D : σ → α → Prop} {I : σ → Prop}
    (hstep : ∀ s a s', I s → D s a → step s a = some s' → I s')
    (h : ∀ s a, I s → (C s a ↔ D s a)) {s : σ} {as : List α} (hs : I s) :
    Meets step C s as ↔ Meets step D s as := by
  induction as generalizing s with
  | nil => exact Iff.rfl
  | cons a as ih =>
      have hlater : D s a → ∀ s', step s a = some s' → (Meets step C s' as ↔ Meets step D s' as) :=
        fun hD s' hs' => ih (hstep s a s' hs hD hs')
      constructor
      · intro hC
        have hD := (h s a hs).1 hC.1
        exact ⟨hD, fun s' hs' => (hlater hD s' hs').1 (hC.2 s' hs')⟩
      · intro hD
        exact ⟨(h s a hs).2 hD.1, fun s' hs' => (hlater hD.1 s' hs').2 (hD.2 s' hs')⟩

/-- Conditions that come to the same wherever an invariant holds. -/
lemma meets_congr {C D : σ → α → Prop} {I : σ → Prop}
    (hstep : ∀ s a s', I s → step s a = some s' → I s') (h : ∀ s a, I s → (C s a ↔ D s a)) {s : σ}
    {as : List α} (hs : I s) : Meets step C s as ↔ Meets step D s as :=
  meets_congr_of_meets (fun s a s' hs _ hstep' => hstep s a s' hs hstep') h hs

lemma Meets.append {C : σ → α → Prop} {s m : σ} {as bs : List α}
    (h : Meets step C s (as ++ bs)) (hrun : run step s as = some m) :
    Meets step C s as ∧ Meets step C m bs := by
  induction as generalizing s with
  | nil =>
      obtain rfl := Option.some.inj hrun
      exact ⟨trivial, h⟩
  | cons a as ih =>
      obtain ⟨s', hs', hm⟩ := run_cons_eq_some.1 hrun
      refine ⟨⟨h.1, fun t ht => ?_⟩, (ih (h.2 s' hs') hm).2⟩
      obtain rfl := Option.some.inj (hs'.symm.trans ht)
      exact (ih (h.2 s' hs') hm).1

/-- A run of one system is a run of another, as a view of it shows it, where each of its steps is. -/
theorem run_refines {τ β : Type*} {step' : τ → β → Option τ} {I : σ → Prop} {view : σ → τ}
    (hI : ∀ s a s', I s → step s a = some s' → I s')
    (hstep : ∀ s a s', I s → step s a = some s' → ∃ bs, run step' (view s) bs = some (view s'))
    {s t : σ} {as : List α} (hs : I s) (hrun : run step s as = some t) :
    ∃ bs, run step' (view s) bs = some (view t) := by
  induction as generalizing s with
  | nil =>
      obtain rfl := Option.some.inj hrun
      exact ⟨[], rfl⟩
  | cons a as ih =>
      obtain ⟨s', hs', ht⟩ := run_cons_eq_some.1 hrun
      obtain ⟨bs, hbs⟩ := hstep s a s' hs hs'
      obtain ⟨cs, hcs⟩ := ih (hI s a s' hs hs') ht
      exact ⟨bs ++ cs, run_append_eq_some.2 ⟨view s', hbs, hcs⟩⟩

/-- A run of one system is matched by a run of another, up to a relation, where each of its steps
is that meets a condition. -/
theorem run_simulates {τ β : Type*} {step' : τ → β → Option τ} {C : σ → α → Prop} {R : σ → τ → Prop}
    (hstep : ∀ s a s' t, R s t → C s a → step s a = some s' →
      ∃ bs t', run step' t bs = some t' ∧ R s' t')
    {s s' : σ} {t : τ} {as : List α} (hR : R s t) (hC : Meets step C s as)
    (hrun : run step s as = some s') : ∃ bs t', run step' t bs = some t' ∧ R s' t' := by
  induction as generalizing s t with
  | nil =>
      obtain rfl := Option.some.inj hrun
      exact ⟨[], t, rfl, hR⟩
  | cons a as ih =>
      obtain ⟨m, hm, hrest⟩ := run_cons_eq_some.1 hrun
      obtain ⟨bs, u, hbs, hRm⟩ := hstep s a m t hR hC.1 hm
      obtain ⟨cs, v, hcs, hRs'⟩ := ih hRm (hC.2 m hm) hrest
      exact ⟨bs ++ cs, v, run_append_eq_some.2 ⟨u, hbs, hcs⟩, hRs'⟩

/-! ## What a run comes to -/

/-- Whatever comes next of what meets `C`, the run comes to a state in `Q`; and until it has, there
is something that comes next. -/
inductive Comes (step : σ → α → Option σ) (C : σ → α → Prop) (Q : σ → Prop) : σ → Prop
  | here {s : σ} (h : Q s) : Comes step C Q s
  | next {s : σ} (hcan : ∃ a s', C s a ∧ step s a = some s')
      (hall : ∀ a s', C s a → step s a = some s' → Comes step C Q s') : Comes step C Q s

/-- A run comes to `Q` if short of `Q` it can go on, and every step lowers a measure. -/
theorem comes_of_measure {C : σ → α → Prop} {I Q : σ → Prop} (μ : σ → ℕ)
    (hcan : ∀ s, I s → ¬ Q s → ∃ a s', C s a ∧ step s a = some s')
    (hless : ∀ s a s', I s → ¬ Q s → C s a → step s a = some s' → I s' ∧ μ s' < μ s) {s : σ}
    (hs : I s) : Comes step C Q s := by
  induction hn : μ s using Nat.strongRecOn generalizing s with
  | ind n ih =>
      by_cases hQ : Q s
      · exact .here hQ
      · refine .next (hcan s hs hQ) fun a s' hC hstep => ?_
        obtain ⟨hs', hlt⟩ := hless s a s' hs hQ hC hstep
        exact ih (μ s') (hn ▸ hlt) hs' rfl

/-- A state short of `Q` from which the run comes to `Q` has a next one, and every next one does
too. -/
lemma Comes.next_of_not {C : σ → α → Prop} {Q : σ → Prop} {s : σ} (h : Comes step C Q s)
    (hQ : ¬ Q s) : ∀ a s', C s a → step s a = some s' → Comes step C Q s' := by
  cases h with
  | here hhere => exact absurd hhere hQ
  | next hcan hall => exact hall

end Run
