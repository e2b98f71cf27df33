import Mathlib.Data.List.Basic
import Mathlib.Tactic.Common

/-!
# Grouping a sequence by a machine

A machine reads symbols one after the other, and says before each but the first whether a group
begins there.  One thing is asked of it: where a group begins, its state is the one in which it
would have begun.  Then the groups of a sequence do not depend on what stands around them: any of
them that follow each other are the groups of what they make up (`groups_slice`).

A symbol resets the machine when nothing that stood before it matters after it.  Put between two
sequences, it adds at most one group to theirs.

`offsets` is where the pieces of a sequence begin and end.
-/

/-! ## The machine -/

structure Breaker (σ α : Type*) where
  start : α → σ
  /-- A group begins at the symbol. -/
  breaks : σ → α → Bool
  next : σ → α → σ
  forgets : ∀ st x, breaks st x = true → next st x = start x

namespace Breaker

variable {σ α : Type*} (m : Breaker σ α)

/-- The groups, from within one that has been read so far. -/
def groupsFrom : σ → List α → List α → List (List α)
  | _, group, [] => [group]
  | st, group, x :: xs =>
      if m.breaks st x then group :: groupsFrom (m.next st x) [x] xs
      else groupsFrom (m.next st x) (group ++ [x]) xs

def groups : List α → List (List α)
  | [] => []
  | x :: xs => m.groupsFrom (m.start x) [x] xs

lemma flatten_groupsFrom (st : σ) (group xs : List α) :
    (m.groupsFrom st group xs).flatten = group ++ xs := by
  induction xs generalizing st group with
  | nil => simp [groupsFrom]
  | cons x xs ih =>
      rw [groupsFrom]
      split_ifs
      · rw [List.flatten_cons, ih, List.singleton_append]
      · rw [ih, List.append_assoc, List.singleton_append]

@[simp] lemma flatten_groups (xs : List α) : (m.groups xs).flatten = xs := by
  cases xs with
  | nil => rfl
  | cons x xs => exact m.flatten_groupsFrom _ _ _

/-! ## Groups taken alone -/

lemma groups_tail_groupsFrom (st : σ) (group xs : List α) :
    m.groups (m.groupsFrom st group xs).tail.flatten = (m.groupsFrom st group xs).tail := by
  induction xs generalizing st group with
  | nil => rfl
  | cons x xs ih =>
      rw [groupsFrom]
      split_ifs with hbreaks
      · -- The machine begins anew at `x`.
        rw [List.tail_cons, m.forgets st x hbreaks]
        exact congrArg m.groups (m.flatten_groups (x :: xs))
      · exact ih _ _

lemma groups_drop (n : ℕ) (xs : List α) :
    m.groups ((m.groups xs).drop n).flatten = (m.groups xs).drop n := by
  induction n generalizing xs with
  | zero => rw [List.drop_zero, m.flatten_groups]
  | succ n ih =>
      have htail : m.groups (m.groups xs).tail.flatten = (m.groups xs).tail := by
        cases xs with
        | nil => rfl
        | cons x xs => exact m.groups_tail_groupsFrom _ _ _
      rw [← List.drop_tail, ← htail]
      exact ih _

lemma exists_groupsFrom_take (st : σ) (group xs : List α) (n : ℕ) :
    ∃ ys, m.groupsFrom st group ys = (m.groupsFrom st group xs).take (n + 1) := by
  induction xs generalizing st group n with
  | nil => exact ⟨[], by simp [groupsFrom]⟩
  | cons x xs ih =>
      by_cases hbreaks : m.breaks st x = true
      · cases n with
        | zero => exact ⟨[], by simp [groupsFrom, hbreaks]⟩
        | succ n =>
            obtain ⟨ys, hys⟩ := ih (m.next st x) [x] n
            exact ⟨x :: ys, by
              rw [groupsFrom, groupsFrom, if_pos hbreaks, if_pos hbreaks, hys,
                List.take_succ_cons]⟩
      · obtain ⟨ys, hys⟩ := ih (m.next st x) (group ++ [x]) n
        exact ⟨x :: ys, by rw [groupsFrom, groupsFrom, if_neg hbreaks, if_neg hbreaks, hys]⟩

lemma groups_take (n : ℕ) (xs : List α) :
    m.groups ((m.groups xs).take n).flatten = (m.groups xs).take n := by
  cases n with
  | zero => rfl
  | succ n =>
      cases xs with
      | nil => rfl
      | cons x xs =>
          obtain ⟨ys, hys⟩ := m.exists_groupsFrom_take (m.start x) [x] xs n
          rw [groups, ← hys, flatten_groupsFrom]
          rfl

/-- Groups that follow each other are the groups of what they make up. -/
theorem groups_slice (xs : List α) (i n : ℕ) :
    m.groups (((m.groups xs).drop i).take n).flatten = ((m.groups xs).drop i).take n := by
  rw [← m.groups_drop i xs]
  exact m.groups_take n _

/-! ## Counting groups -/

/-- The number of groups that begin. -/
def countBreaks : σ → List α → ℕ
  | _, [] => 0
  | st, x :: xs => (if m.breaks st x then 1 else 0) + countBreaks (m.next st x) xs

lemma length_groupsFrom (st : σ) (group xs : List α) :
    (m.groupsFrom st group xs).length = m.countBreaks st xs + 1 := by
  induction xs generalizing st group with
  | nil => rfl
  | cons x xs ih =>
      rw [groupsFrom, countBreaks]
      split_ifs
      · rw [List.length_cons, ih]
        omega
      · rw [ih, Nat.zero_add]

lemma countBreaks_append (st : σ) (xs ys : List α) :
    m.countBreaks st (xs ++ ys) = m.countBreaks st xs + m.countBreaks (xs.foldl m.next st) ys := by
  induction xs generalizing st with
  | nil => rw [List.nil_append, countBreaks, List.foldl_nil, Nat.zero_add]
  | cons x xs ih =>
      rw [List.cons_append, countBreaks, countBreaks, ih, List.foldl_cons, Nat.add_assoc]

/-- Nothing that stood before the symbol matters after it. -/
structure Resets (r : α) : Prop where
  next : ∀ st, m.next st r = m.start r
  start : ∀ x, m.next (m.start r) x = m.start x

lemma countBreaks_start_le {r : α} (hr : m.Resets r) (xs : List α) :
    m.countBreaks (m.start r) xs ≤ (m.groups xs).length := by
  cases xs with
  | nil => exact Nat.zero_le _
  | cons x xs =>
      rw [countBreaks, hr.start, groups, length_groupsFrom]
      split_ifs
      · omega
      · omega

/-- Between two sequences such a symbol adds at most one group. -/
theorem length_groups_append_le {r : α} (hr : m.Resets r) (xs ys : List α) :
    (m.groups (xs ++ r :: ys)).length ≤ (m.groups xs).length + 1 + (m.groups ys).length := by
  have hle := m.countBreaks_start_le hr ys
  cases xs with
  | nil =>
      have hlen : (m.groups (r :: ys)).length = m.countBreaks (m.start r) ys + 1 :=
        m.length_groupsFrom _ _ _
      rw [List.nil_append]
      omega
  | cons x xs =>
      rw [List.cons_append, groups, groups, length_groupsFrom, length_groupsFrom,
        countBreaks_append, countBreaks, hr.next]
      split_ifs
      · omega
      · omega

end Breaker

/-! ## Offsets -/

namespace Breaks

variable {α : Type*}

/-- Where each piece ends, when the first one begins at `pos`. -/
def ends (pos : ℕ) : List (List α) → List ℕ
  | [] => []
  | piece :: pieces => (pos + piece.length) :: ends (pos + piece.length) pieces

def offsets (pieces : List (List α)) : List ℕ := 0 :: ends 0 pieces

@[simp] lemma length_ends (pos : ℕ) (pieces : List (List α)) :
    (ends pos pieces).length = pieces.length := by
  induction pieces generalizing pos with
  | nil => rfl
  | cons piece pieces ih => rw [ends, List.length_cons, ih, List.length_cons]

@[simp] lemma length_offsets (pieces : List (List α)) :
    (offsets pieces).length = pieces.length + 1 := by
  rw [offsets, List.length_cons, length_ends]

lemma getElem?_cons_ends (pos : ℕ) {pieces : List (List α)} {i : ℕ} (hi : i ≤ pieces.length) :
    (pos :: ends pos pieces)[i]? = some (pos + (pieces.take i).flatten.length) := by
  induction pieces generalizing pos i with
  | nil =>
      obtain rfl : i = 0 := by simpa using hi
      simp
  | cons piece pieces ih =>
      cases i with
      | zero => simp
      | succ i =>
          rw [List.getElem?_cons_succ, ends, ih _ (by simpa using hi), List.take_succ_cons,
            List.flatten_cons, List.length_append, Nat.add_assoc]

lemma getD_offsets {pieces : List (List α)} {i : ℕ} (hi : i ≤ pieces.length) :
    (offsets pieces).getD i 0 = (pieces.take i).flatten.length := by
  rw [offsets, List.getD_eq_getElem?_getD, getElem?_cons_ends 0 hi, Option.getD_some, Nat.zero_add]

/-- What stands between two offsets is the pieces between them. -/
lemma drop_take_offsets {pieces : List (List α)} {i j : ℕ} (hij : i ≤ j) (hj : j ≤ pieces.length) :
    (pieces.flatten.drop ((offsets pieces).getD i 0)).take
        ((offsets pieces).getD j 0 - (offsets pieces).getD i 0) =
      ((pieces.drop i).take (j - i)).flatten := by
  have hsplit : pieces.take j = pieces.take i ++ (pieces.drop i).take (j - i) := by
    rw [← List.take_add, Nat.add_sub_cancel' hij]
  have hall : pieces.flatten =
      (pieces.take i).flatten ++ (((pieces.drop i).take (j - i)).flatten ++
        (pieces.drop j).flatten) := by
    rw [← List.append_assoc, ← List.flatten_append, ← hsplit, ← List.flatten_append,
      List.take_append_drop]
  rw [getD_offsets (Nat.le_trans hij hj), getD_offsets hj, hsplit, List.flatten_append,
    List.length_append, Nat.add_sub_cancel_left]
  nth_rewrite 1 [hall]
  rw [List.drop_left, List.take_left]

/-- What stands from an offset on is the pieces from there on. -/
lemma drop_offsets {pieces : List (List α)} {i : ℕ} (hi : i ≤ pieces.length) :
    pieces.flatten.drop ((offsets pieces).getD i 0) = (pieces.drop i).flatten := by
  have hall : pieces.flatten = (pieces.take i).flatten ++ (pieces.drop i).flatten := by
    rw [← List.flatten_append, List.take_append_drop]
  rw [getD_offsets hi]
  nth_rewrite 1 [hall]
  rw [List.drop_left]

/-- What stands between the neighbours among the offsets is the pieces. -/
theorem slices_offsets (pieces : List (List α)) :
    (List.range pieces.length).map (fun i =>
        (pieces.flatten.drop ((offsets pieces).getD i 0)).take
          ((offsets pieces).getD (i + 1) 0 - (offsets pieces).getD i 0)) = pieces := by
  apply List.ext_getElem
  · rw [List.length_map, List.length_range]
  · intro i hi hpieces
    rw [List.getElem_map, List.getElem_range, drop_take_offsets (Nat.le_add_right i 1) hpieces,
      Nat.add_sub_cancel_left, List.drop_eq_getElem_cons hpieces, List.take_succ_cons,
      List.take_zero, List.flatten_cons, List.flatten_nil, List.append_nil]

end Breaks
