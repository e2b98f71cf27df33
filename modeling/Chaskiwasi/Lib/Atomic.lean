import Mathlib.Data.List.Basic
import Mathlib.Tactic.Common

/-!
# Replacing a file

A file is replaced by writing another one beside it and renaming that over it.  The data is synced
before the rename, and the directory after it.

A `Disk` is what stands under the name, and what may stand there after power was lost, when the
renames since the directory was synced may or may not have happened.  Each step may fail, and power
may be lost between any two.  What stands under the name then is what could have stood there before,
or the new data, and all of it (`between_of_mem_states`).  A step that fails up to the rename leaves
the old data; one that fails after it leaves the new (`entry_replace`).
-/

namespace Atomic

variable {α : Type*}

/-- A file.  Its data is `none` where not all of it was written. -/
structure Inode (α : Type*) where
  data : Option α := none
  synced : Bool := false
  deriving DecidableEq, Repr

/-- A file with all of its data. -/
def whole (a : α) : Inode α := ⟨some a, true⟩

structure Disk (α : Type*) where
  /-- What stands under the name. -/
  entry : Option (Inode α)
  /-- What may stand under it after power was lost. -/
  durable : List (Option (Inode α))
  temp : Option (Inode α) := none
  deriving DecidableEq, Repr

inductive Step
  | create
  | write
  | sync
  | close
  | chmod
  | rename
  | openDir
  | syncDir
  deriving DecidableEq, Repr

namespace Step

/-- What a step does where it works. -/
def done (a : α) (s : Step) (d : Disk α) : Disk α :=
  match s with
  | create => { d with temp := some {} }
  | write => { d with temp := some { data := some a } }
  | sync => { d with temp := d.temp.map fun f => { f with synced := true } }
  | rename => { entry := d.temp, durable := d.temp :: d.durable }
  | syncDir => { d with durable := [d.entry] }
  | close | chmod | openDir => d

/-- What it does where it fails: some of the data may have been written. -/
def failed (s : Step) (d : Disk α) : Disk α :=
  match s with
  | write => { d with temp := d.temp.map fun _ => {} }
  | _ => d

/-- A step that changes nothing. -/
def settles : Step → Bool
  | close | chmod => true
  | _ => false

/-- A step after the rename. -/
def follows : Step → Bool
  | openDir | syncDir => true
  | _ => false

end Step

/-! ## Runs of steps -/

section Runs

variable (a : α) (fault : Option Step)

/-- The disk after the steps, one of which may fail. -/
def run : List Step → Disk α → Disk α
  | [], d => d
  | s :: ss, d => if fault = some s then s.failed d else run ss (s.done a d)

/-- The disks that power may be lost with. -/
def states : List Step → Disk α → List (Disk α)
  | [], d => [d]
  | s :: ss, d => d :: if fault = some s then [s.failed d] else states ss (s.done a d)

/-- The steps up to the rename. -/
def early (settle : List Step) : List Step :=
  .create :: .write :: .sync :: (settle ++ [.rename])

/-- Replaces the file, and removes the other one if it is still there; whether no step failed. -/
def replace (settle after : List Step) (d : Disk α) : Disk α × Bool :=
  ({ run a fault (early settle ++ after) d with temp := none },
    decide (∀ s ∈ early settle ++ after, fault ≠ some s))

end Runs

variable {a : α} {fault : Option Step} {settle after : List Step} {d x : Disk α}

lemma run_append (ss ts : List Step) (d : Disk α) :
    run a fault (ss ++ ts) d =
      if ∀ s ∈ ss, fault ≠ some s then run a fault ts (run a fault ss d)
      else run a fault ss d := by
  induction ss generalizing d with
  | nil => simp [run]
  | cons s ss ih =>
      by_cases hs : fault = some s
      · simp [run, hs]
      · simp [run, hs, ih]

/-- What every step keeps holds of every disk on the way. -/
lemma forall_states {P : Disk α → Prop} {ss : List Step}
    (h : ∀ s ∈ ss, ∀ x, P x → P (s.done a x) ∧ P (s.failed x)) (hd : P d) :
    ∀ x ∈ states a fault ss d, P x := by
  induction ss generalizing d with
  | nil => simpa [states] using hd
  | cons s ss ih =>
      rw [List.forall_mem_cons] at h
      rw [states, List.forall_mem_cons]
      refine ⟨hd, ?_⟩
      by_cases hs : fault = some s
      · rw [if_pos hs, List.forall_mem_singleton]
        exact (h.1 d hd).2
      · rw [if_neg hs]
        exact ih h.2 (h.1 d hd).1

lemma mem_states_append {ss ts : List Step} (h : x ∈ states a fault (ss ++ ts) d) :
    x ∈ states a fault ss d ∨
      (∀ s ∈ ss, fault ≠ some s) ∧ x ∈ states a fault ts (run a fault ss d) := by
  induction ss generalizing d with
  | nil => exact Or.inr ⟨by simp, h⟩
  | cons s ss ih =>
      rw [List.cons_append, states, List.mem_cons] at h
      rw [states, List.mem_cons]
      rcases h with rfl | h
      · exact Or.inl (Or.inl rfl)
      · by_cases hs : fault = some s
        · rw [if_pos hs] at h ⊢
          exact Or.inl (Or.inr h)
        · rw [if_neg hs] at h ⊢
          rcases ih h with h | ⟨hss, h⟩
          · exact Or.inl (Or.inr h)
          · refine Or.inr ⟨List.forall_mem_cons.2 ⟨hs, hss⟩, ?_⟩
            rwa [run, if_neg hs]

/-- A step that changes nothing, and works or fails. -/
lemma run_settle (h : ∀ s ∈ settle, s.settles = true) (d : Disk α) : run a fault settle d = d := by
  induction settle generalizing d with
  | nil => rfl
  | cons s ss ih =>
      rw [List.forall_mem_cons] at h
      have hsame : s.done a d = d ∧ s.failed d = d := by
        have hs := h.1
        cases s with
        | close | chmod => exact ⟨rfl, rfl⟩
        | create | write | sync | rename | openDir | syncDir => cases hs
      rw [run, hsame.1, hsame.2, ih h.2, ite_self]

/-- The file is replaced as a whole. -/
lemma run_early (h : ∀ s ∈ settle, s.settles = true)
    (hfault : ∀ s ∈ early settle, fault ≠ some s) :
    run a fault (early settle) d =
      { entry := some (whole a), durable := some (whole a) :: d.durable } := by
  simp only [early, List.forall_mem_cons, List.forall_mem_append] at hfault
  obtain ⟨hcreate, hwrite, hsync, hsettle, hrename, -⟩ := hfault
  rw [early, run, if_neg hcreate, run, if_neg hwrite, run, if_neg hsync, run_append,
    if_pos hsettle, run_settle h, run, if_neg hrename]
  rfl

/-! ## What power leaves -/

/-- Under the name stands what could have stood there before, or the new data. -/
structure Between (a : α) (d x : Disk α) : Prop where
  entry : x.entry = d.entry ∨ x.entry = some (whole a)
  durable : ∀ y ∈ x.durable, y ∈ d.durable ∨ y = some (whole a)

/-- Before the rename, nothing changes under the name. -/
structure Untouched (d x : Disk α) : Prop where
  entry : x.entry = d.entry
  durable : x.durable = d.durable

lemma Untouched.between (h : Untouched d x) : Between a d x :=
  ⟨Or.inl h.entry, fun _ hy => Or.inl (h.durable ▸ hy)⟩

/-- A step that is neither the rename nor after it. -/
lemma Untouched.step {s : Step} (hs : s ≠ .rename ∧ s.follows = false) (h : Untouched d x) :
    Untouched d (s.done a x) ∧ Untouched d (s.failed x) := by
  cases s with
  | create | write | sync | close | chmod => exact ⟨⟨h.entry, h.durable⟩, ⟨h.entry, h.durable⟩⟩
  | rename => exact absurd rfl hs.1
  | openDir | syncDir => cases hs.2

lemma run_mem_states (a : α) (fault : Option Step) (ss : List Step) (d : Disk α) :
    run a fault ss d ∈ states a fault ss d := by
  induction ss generalizing d with
  | nil => exact List.mem_singleton_self d
  | cons s ss ih =>
      rw [run, states]
      by_cases hs : fault = some s
      · rw [if_pos hs, if_pos hs]
        exact List.mem_cons_of_mem _ (List.mem_singleton_self _)
      · rw [if_neg hs, if_neg hs]
        exact List.mem_cons_of_mem _ (ih _)

/-- The steps in front of the rename. -/
def first (settle : List Step) : List Step := .create :: .write :: .sync :: settle

lemma early_eq (settle : List Step) : early settle = first settle ++ [.rename] := rfl

lemma untouched_of_mem_first (h : ∀ s ∈ settle, s.settles = true)
    (hx : x ∈ states a fault (first settle) d) : Untouched d x := by
  refine forall_states (P := Untouched d) (fun s hs y hy => hy.step ?_) ⟨rfl, rfl⟩ x hx
  simp only [first, List.mem_cons] at hs
  rcases hs with rfl | rfl | rfl | hs
  · exact ⟨by decide, rfl⟩
  · exact ⟨by decide, rfl⟩
  · exact ⟨by decide, rfl⟩
  · have hsettles := h s hs
    cases s with
    | close | chmod => exact ⟨by decide, rfl⟩
    | create | write | sync | rename | openDir | syncDir => cases hsettles

/-- After the rename, the new data stands under the name. -/
structure Renamed (a : α) (d x : Disk α) : Prop where
  entry : x.entry = some (whole a)
  durable : ∀ y ∈ x.durable, y ∈ d.durable ∨ y = some (whole a)

lemma Renamed.between (h : Renamed a d x) : Between a d x := ⟨Or.inr h.entry, h.durable⟩

lemma Renamed.step {s : Step} (hs : s.follows = true) (h : Renamed a d x) :
    Renamed a d (s.done a x) ∧ Renamed a d (s.failed x) := by
  cases s with
  | create | write | sync | close | chmod | rename => cases hs
  | openDir => exact ⟨h, h⟩
  | syncDir =>
      refine ⟨⟨h.entry, fun y hy => Or.inr ?_⟩, h⟩
      rw [List.mem_singleton.1 hy, h.entry]

lemma renamed_of_mem_after (h : ∀ s ∈ after, s.follows = true)
    (hx : x ∈ states a fault after
      { entry := some (whole a), durable := some (whole a) :: d.durable }) : Renamed a d x := by
  refine forall_states (P := Renamed a d) (fun s hs y hy => hy.step (h s hs)) ⟨rfl, ?_⟩ x hx
  intro y hy
  exact (List.mem_cons.1 hy).symm

/-- The steps up to the rename leave everything as it was, or replace the file. -/
lemma mem_states_early (h : ∀ s ∈ settle, s.settles = true)
    (hx : x ∈ states a fault (early settle) d) : Untouched d x ∨ Renamed a d x := by
  rw [early_eq] at hx
  rcases mem_states_append hx with hx | ⟨hfirst, hx⟩
  · exact Or.inl (untouched_of_mem_first h hx)
  · by_cases hrename : fault = some .rename
    · have hlast := untouched_of_mem_first h (run_mem_states a fault _ d)
      simp only [states, if_pos hrename, Step.failed, List.mem_cons, List.not_mem_nil, or_false,
        or_self] at hx
      exact Or.inl (hx ▸ hlast)
    · have hearly : ∀ s ∈ early settle, fault ≠ some s := by
        rw [early_eq, List.forall_mem_append, List.forall_mem_singleton]
        exact ⟨hfirst, hrename⟩
      have hrun := run_early (a := a) (d := d) h hearly
      rw [early_eq, run_append, if_pos hfirst, run, if_neg hrename, run] at hrun
      rw [states, if_neg hrename, states, List.mem_cons, List.mem_singleton] at hx
      rcases hx with rfl | rfl
      · exact Or.inl (untouched_of_mem_first h (run_mem_states a fault _ d))
      · rw [hrun]
        refine Or.inr ⟨rfl, fun y hy => ?_⟩
        exact (List.mem_cons.1 hy).symm

/-- Wherever power is lost, all of the old data or all of the new stands under the name. -/
theorem between_of_mem_states (hsettle : ∀ s ∈ settle, s.settles = true)
    (hafter : ∀ s ∈ after, s.follows = true)
    (hx : x ∈ states a fault (early settle ++ after) d) : Between a d x := by
  rcases mem_states_append hx with hx | ⟨hearly, hx⟩
  · rcases mem_states_early hsettle hx with hold | hnew
    · exact hold.between
    · exact hnew.between
  · rw [run_early hsettle hearly] at hx
    exact (renamed_of_mem_after hafter hx).between

/-- Where a step up to the rename fails, the old data stands under the name, and otherwise the
new. -/
theorem entry_replace (hsettle : ∀ s ∈ settle, s.settles = true)
    (hafter : ∀ s ∈ after, s.follows = true) :
    (replace a fault settle after d).1.entry =
      if ∀ s ∈ early settle, fault ≠ some s then some (whole a) else d.entry := by
  show (run a fault (early settle ++ after) d).entry = _
  rw [run_append]
  by_cases hearly : ∀ s ∈ early settle, fault ≠ some s
  · rw [if_pos hearly, if_pos hearly, run_early hsettle hearly]
    exact (renamed_of_mem_after hafter (run_mem_states a fault _ _)).entry
  · rw [if_neg hearly, if_neg hearly]
    rw [early_eq, run_append]
    by_cases hfirst : ∀ s ∈ first settle, fault ≠ some s
    · have hrename : fault = some .rename := by
        by_contra hne
        refine hearly ?_
        rw [early_eq, List.forall_mem_append, List.forall_mem_singleton]
        exact ⟨hfirst, hne⟩
      rw [if_pos hfirst, run, if_pos hrename]
      exact (untouched_of_mem_first hsettle (run_mem_states a fault _ d)).entry
    · rw [if_neg hfirst]
      exact (untouched_of_mem_first hsettle (run_mem_states a fault _ d)).entry

/-- The file that is left is one that power may have left. -/
lemma between_replace (hsettle : ∀ s ∈ settle, s.settles = true)
    (hafter : ∀ s ∈ after, s.follows = true) : Between a d (replace a fault settle after d).1 := by
  have hlast := between_of_mem_states hsettle hafter
    (run_mem_states a fault (early settle ++ after) d)
  exact ⟨hlast.entry, hlast.durable⟩

/-! ## Files that are whole -/

/-- Whatever stands under the name, now or after power was lost, has all of its data. -/
structure Complete (d : Disk α) : Prop where
  entry : ∀ f, d.entry = some f → ∃ a, f = whole a
  durable : ∀ f, some f ∈ d.durable → ∃ a, f = whole a

lemma Complete.of_between (h : Complete d) (hx : Between a d x) : Complete x := by
  refine ⟨fun f hf => ?_, fun f hf => ?_⟩
  · rcases hx.entry with hold | hnew
    · exact h.entry f (hold ▸ hf)
    · exact ⟨a, Option.some.inj (hf.symm.trans hnew)⟩
  · rcases hx.durable _ hf with hold | hnew
    · exact h.durable f hold
    · exact ⟨a, Option.some.inj hnew⟩

/-- What is read from the file; a file of which some data is missing is not. -/
def content? (d : Disk α) : Option (Option α) :=
  match d.entry with
  | none => some none
  | some f => f.data.map some

end Atomic
