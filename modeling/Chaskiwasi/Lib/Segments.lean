import Mathlib.Data.List.Basic
import Mathlib.Tactic.Common

/-!
# Cutting a text between its clusters

A segmentation divides a text into clusters, the units a reader counts.  Two facts are asked of it:
the clusters in their order are the text, and a text that was cut after one of its clusters divides
into the clusters before the cut.  Nothing bounds the size of a cluster.

`first n s` keeps the first `n` clusters.
-/

class Segmentation (α : Type*) where
  clusters : List α → List (List α)
  flatten_clusters : ∀ s, (clusters s).flatten = s
  clusters_take : ∀ s n, clusters ((clusters s).take n).flatten = (clusters s).take n

namespace Segmentation

variable {α : Type*} [Segmentation α] {s : List α} {n : ℕ}

/-- The number of clusters. -/
def count (s : List α) : ℕ := (clusters s).length

/-- The first `n` clusters. -/
def first (n : ℕ) (s : List α) : List α := ((clusters s).take n).flatten

lemma clusters_first (n : ℕ) (s : List α) : clusters (first n s) = (clusters s).take n :=
  clusters_take s n

lemma first_zero (s : List α) : first 0 s = [] := rfl

@[simp] lemma count_nil : count ([] : List α) = 0 := by
  have h := clusters_first 0 ([] : List α)
  rw [first_zero, List.take_zero] at h
  rw [count, h, List.length_nil]

lemma count_first (n : ℕ) (s : List α) : count (first n s) = min n (count s) := by
  rw [count, clusters_first, List.length_take, count]

lemma length_le_flatten {β : Type*} {pieces : List (List β)} (h : [] ∉ pieces) :
    pieces.length ≤ pieces.flatten.length := by
  induction pieces with
  | nil => exact Nat.le_refl 0
  | cons piece pieces ih =>
      rw [List.mem_cons, not_or] at h
      have hpos := List.length_pos_iff.2 (Ne.symm h.1)
      have hle := ih h.2
      rw [List.flatten_cons, List.length_append, List.length_cons]
      omega

/-- Where no cluster is empty, there are no more clusters than symbols. -/
lemma count_le_length (h : [] ∉ clusters s) : count s ≤ s.length := by
  conv_rhs => rw [← flatten_clusters s]
  exact length_le_flatten h

end Segmentation
