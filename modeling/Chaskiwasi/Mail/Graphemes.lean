import Chaskiwasi.Lib.Segments
import Mathlib.Data.Int.Basic

/-!
# Grapheme clusters

Every cap on text in the system counts extended grapheme clusters.  The server takes them from
`uniseg`, which stands here as a segmentation of texts into clusters.
-/

namespace Chaskiwasi

/-- `uniseg`. -/
abbrev Uniseg := Segmentation Char

namespace Graphemes

variable [Uniseg]

/-- `graphemes.Count`. -/
def countClusters (s : String) : ℕ := Segmentation.count s.toList

/-- The loop of `Truncate` over the clusters, with the clusters counted and taken so far. -/
def truncateLoop (s : String) (n : ℤ) : ℤ → List Char → List (List Char) → String × Bool
  | _, _, [] => (s, false)
  | count, taken, c :: cs =>
      if n < count + 1 then (String.ofList taken, true)
      else truncateLoop s n (count + 1) (taken ++ c) cs

/-- `graphemes.Truncate`. -/
def truncate (s : String) (n : ℤ) : String × Bool :=
  if s = "" then ("", false)
  else if n ≤ 0 then ("", true)
  else truncateLoop s n 0 [] (Segmentation.clusters s.toList)

/-- The first `n` clusters of a text. -/
def firstClusters (n : ℕ) (s : String) : String := String.ofList (Segmentation.first n s.toList)

omit [Uniseg] in
lemma truncateLoop_eq (s : String) (n : ℕ) {k : ℕ} (hk : k ≤ n) (taken : List Char)
    (rest : List (List Char)) :
    truncateLoop s n k taken rest =
      if rest.length ≤ n - k then (s, false)
      else (String.ofList (taken ++ (rest.take (n - k)).flatten), true) := by
  induction rest generalizing k taken with
  | nil => simp [truncateLoop]
  | cons c cs ih =>
      rw [truncateLoop]
      by_cases hfull : k = n
      · subst hfull
        rw [if_pos (by omega), if_neg (by simp)]
        simp
      · have hsucc : n - k = (n - (k + 1)) + 1 := by omega
        have hcast : (k : ℤ) + 1 = ((k + 1 : ℕ) : ℤ) := by omega
        rw [if_neg (by omega), hcast, ih (by omega), hsucc, List.take_succ_cons, List.flatten_cons,
          List.length_cons, List.append_assoc]
        simp

/-- What `Truncate` returns for a positive cap. -/
theorem truncate_eq (s : String) {n : ℕ} (hn : 0 < n) :
    truncate s n =
      if countClusters s ≤ n then (s, false) else (firstClusters n s, true) := by
  unfold truncate
  by_cases hs : s = ""
  · subst hs
    simp [countClusters]
  · rw [if_neg hs, if_neg (by omega)]
    exact truncateLoop_eq s n (Nat.zero_le n) [] _

lemma countClusters_firstClusters (n : ℕ) (s : String) :
    countClusters (firstClusters n s) = min n (countClusters s) := by
  rw [countClusters, firstClusters, String.toList_ofList, Segmentation.count_first, countClusters]

lemma countClusters_truncate (s : String) {n : ℕ} (hn : 0 < n) :
    countClusters (truncate s n).1 = min n (countClusters s) := by
  rw [truncate_eq s hn]
  split_ifs with h
  · exact (min_eq_right h).symm
  · exact countClusters_firstClusters n s

/-- What is left is the beginning of the text. -/
lemma truncate_prefix (s : String) {n : ℕ} (hn : 0 < n) :
    (truncate s n).1.toList <+: s.toList := by
  rw [truncate_eq s hn]
  split_ifs
  · exact List.prefix_rfl
  · rw [firstClusters, String.toList_ofList, Segmentation.first]
    conv_rhs => rw [← Segmentation.flatten_clusters s.toList, ← List.take_append_drop n
      (Segmentation.clusters s.toList), List.flatten_append]
    exact List.prefix_append _ _

lemma truncate_snd (s : String) {n : ℕ} (hn : 0 < n) :
    (truncate s n).2 = true ↔ n < countClusters s := by
  rw [truncate_eq s hn]
  split_ifs with h
  · simpa using h
  · simpa using h

end Graphemes

namespace Sample

/-- One cluster a character. -/
@[reducible]
def uniseg : Uniseg where
  clusters := fun s => s.map fun c => [c]
  flatten_clusters := by
    intro s
    induction s with
    | nil => rfl
    | cons c s ih => rw [List.map_cons, List.flatten_cons, ih, List.singleton_append]
  clusters_take := by
    intro s n
    have hflatten : ∀ t : List Char, (t.map fun c => [c]).flatten = t := by
      intro t
      induction t with
      | nil => rfl
      | cons c t ih => rw [List.map_cons, List.flatten_cons, ih, List.singleton_append]
    rw [← List.map_take, hflatten]

end Sample
end Chaskiwasi
