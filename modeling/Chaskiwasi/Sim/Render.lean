import Chaskiwasi.Mail.Graphemes
import Mathlib.Data.List.Forall2

/-!
# The lines of the simulator

`Wrap` breaks a text into lines of so many grapheme clusters.  It appends the clusters to the line
one after the other, and a cut is where it starts the next line.  Here the lines are rows of
clusters (`rows`): those of each paragraph together are the paragraph, all of them full but the last
(`Filled`).  A paragraph ends at a cluster that is a line feed; a carriage return with its line feed
is one cluster, and is none of these.
-/

namespace Chaskiwasi.Sim

/-- What `Wrap` has so far: the lines, the current one and the number of its clusters. -/
structure Wrapping where
  lines : List (List Char) := []
  current : List Char := []
  count : ℕ := 0

def Wrapping.flush (w : Wrapping) : Wrapping where
  lines := w.lines ++ [w.current]

def Wrapping.add (width : ℕ) (w : Wrapping) (cluster : List Char) : Wrapping :=
  if cluster = ['\n'] then w.flush
  else
    let w' := if width ≤ w.count then w.flush else w
    { w' with current := w'.current ++ cluster, count := w'.count + 1 }

/-- The width that is used. -/
def lineWidth (width : ℤ) : ℕ := if width ≤ 0 then 1 else width.toNat

def wrap [Uniseg] (body : String) (width : ℤ) : List String :=
  let w := (Segmentation.clusters body.toList).foldl (Wrapping.add (lineWidth width)) {}
  (w.lines ++ [w.current]).map String.ofList

/-! ## Rows of clusters -/

/-- The paragraphs of a text. -/
def paragraphs : List (List Char) → List (List (List Char))
  | [] => [[]]
  | cluster :: rest =>
      if cluster = ['\n'] then [] :: paragraphs rest
      else
        match paragraphs rest with
        | [] => [[cluster]]
        | p :: ps => (cluster :: p) :: ps

/-- The rows, from a row that is begun. -/
def rows (width : ℕ) : List (List Char) → List (List Char) → List (List (List Char))
  | row, [] => [row]
  | row, cluster :: rest =>
      if cluster = ['\n'] then row :: rows width [] rest
      else if width ≤ row.length then row :: rows width [cluster] rest
      else rows width (row ++ [cluster]) rest

/-- The rows of a paragraph: together they are the paragraph, and all are full but the last. -/
structure Filled (width : ℕ) (paragraph : List (List Char)) (group : List (List (List Char))) :
    Prop where
  joined : group.flatten = paragraph
  nonempty : group ≠ []
  fits : ∀ row ∈ group, row.length ≤ width
  full : ∀ row ∈ group.dropLast, row.length = width

section Rows

variable {width : ℕ} {clusters : List (List Char)} {row : List (List Char)} {w : Wrapping}

lemma rows_cons (cluster : List Char) (rest : List (List Char)) :
    rows width row (cluster :: rest) =
      if cluster = ['\n'] then row :: rows width [] rest
      else if width ≤ row.length then row :: rows width [cluster] rest
      else rows width (row ++ [cluster]) rest := rfl

/-- Each cluster ends the row, begins the next one or joins it: the lines keep step. -/
lemma add_cluster (cluster : List Char) (rest : List (List Char))
    (hcurrent : w.current = row.flatten) (hcount : w.count = row.length) :
    ∃ done row', rows width row (cluster :: rest) = done ++ rows width row' rest ∧
      (w.add width cluster).lines = w.lines ++ done.map List.flatten ∧
      (w.add width cluster).current = row'.flatten ∧
      (w.add width cluster).count = row'.length := by
  have hflush : w.flush.lines = w.lines ++ [row.flatten] := by
    rw [← hcurrent]
    rfl
  unfold Wrapping.add
  rw [rows_cons]
  by_cases hnewline : cluster = ['\n']
  · rw [if_pos hnewline, if_pos hnewline]
    exact ⟨[row], [], rfl, hflush, rfl, rfl⟩
  rw [if_neg hnewline, if_neg hnewline]
  by_cases hfull : width ≤ row.length
  · have hfull' : width ≤ w.count := hcount.symm ▸ hfull
    rw [if_pos hfull', if_pos hfull]
    exact ⟨[row], [cluster], rfl, hflush, (List.append_nil cluster).symm, rfl⟩
  · have hfull' : ¬ width ≤ w.count := hcount.symm ▸ hfull
    rw [if_neg hfull', if_neg hfull]
    refine ⟨[], row ++ [cluster], rfl, (List.append_nil _).symm, ?_, ?_⟩
    · dsimp only
      rw [hcurrent, List.flatten_append, List.flatten_singleton]
    · dsimp only
      rw [hcount, List.length_append, List.length_singleton]

/-- The lines are the texts of the rows. -/
lemma foldl_add (hcurrent : w.current = row.flatten) (hcount : w.count = row.length) :
    (clusters.foldl (Wrapping.add width) w).lines ++
        [(clusters.foldl (Wrapping.add width) w).current] =
      w.lines ++ (rows width row clusters).map List.flatten := by
  induction clusters generalizing w row with
  | nil =>
      rw [List.foldl_nil, hcurrent]
      rfl
  | cons cluster rest ih =>
      obtain ⟨done, row', hrows, hlines, hcurrent', hcount'⟩ :=
        @add_cluster width row w cluster rest hcurrent hcount
      rw [List.foldl_cons, ih hcurrent' hcount', hlines, hrows, List.map_append,
        List.append_assoc]

/-- The rows go paragraph by paragraph, the first of them with the row that is begun. -/
lemma exists_groups (hwidth : 0 < width) (hrow : row.length ≤ width) :
    ∃ p ps g gs, paragraphs clusters = p :: ps ∧ rows width row clusters = g ++ gs.flatten ∧
      Filled width (row ++ p) g ∧ List.Forall₂ (Filled width) ps gs := by
  induction clusters generalizing row with
  | nil =>
      refine ⟨[], [], [row], [], rfl, rfl, ⟨?_, List.cons_ne_nil _ _, ?_, nofun⟩, .nil⟩
      · rw [List.flatten_singleton, List.append_nil]
      · intro row' hrow'
        rw [List.mem_singleton.1 hrow']
        exact hrow
  | cons cluster rest ih =>
      unfold paragraphs
      rw [rows_cons]
      by_cases hnewline : cluster = ['\n']
      · rw [if_pos hnewline, if_pos hnewline]
        obtain ⟨p, ps, g, gs, hparagraphs, hrows, hfilled, hall⟩ := @ih [] (Nat.zero_le _)
        refine ⟨[], p :: ps, [row], g :: gs, by rw [hparagraphs], ?_,
          ⟨?_, List.cons_ne_nil _ _, ?_, nofun⟩, .cons hfilled hall⟩
        · rw [hrows]
          rfl
        · rw [List.flatten_singleton, List.append_nil]
        · intro row' hrow'
          rw [List.mem_singleton.1 hrow']
          exact hrow
      rw [if_neg hnewline, if_neg hnewline]
      by_cases hfull : width ≤ row.length
      · rw [if_pos hfull]
        obtain ⟨p, ps, g, gs, hparagraphs, hrows, hfilled, hall⟩ := @ih [cluster] hwidth
        refine ⟨cluster :: p, ps, row :: g, gs, by rw [hparagraphs], by rw [hrows]; rfl,
          ⟨?_, List.cons_ne_nil _ _, ?_, ?_⟩, hall⟩
        · rw [List.flatten_cons, hfilled.joined]
          rfl
        · intro row' hrow'
          rcases List.mem_cons.1 hrow' with rfl | hrow'
          · exact hrow
          · exact hfilled.fits row' hrow'
        · intro row' hrow'
          rw [List.dropLast_cons_of_ne_nil hfilled.nonempty] at hrow'
          rcases List.mem_cons.1 hrow' with rfl | hrow'
          · exact le_antisymm hrow hfull
          · exact hfilled.full row' hrow'
      · rw [if_neg hfull]
        have hroom : (row ++ [cluster]).length ≤ width := by
          rw [List.length_append, List.length_singleton]
          omega
        obtain ⟨p, ps, g, gs, hparagraphs, hrows, hfilled, hall⟩ := ih hroom
        refine ⟨cluster :: p, ps, g, gs, by rw [hparagraphs], hrows, ?_, hall⟩
        rw [List.append_assoc] at hfilled
        exact hfilled

/-- The lines of a text are the rows of its paragraphs, and all of a paragraph's are full but the
last: nothing is lost, and no cut is inside a cluster. -/
theorem wrap_fills [Uniseg] (body : String) (lineLength : ℤ) :
    ∃ groups, List.Forall₂ (Filled (lineWidth lineLength))
        (paragraphs (Segmentation.clusters body.toList)) groups ∧
      wrap body lineLength = groups.flatten.map fun row => String.ofList row.flatten := by
  have hwidth : 0 < lineWidth lineLength := by
    unfold lineWidth
    split_ifs with h
    · exact Nat.one_pos
    · omega
  obtain ⟨p, ps, g, gs, hparagraphs, hrows, hfilled, hall⟩ :=
    @exists_groups (lineWidth lineLength) (Segmentation.clusters body.toList) [] hwidth
      (Nat.zero_le _)
  refine ⟨g :: gs, ?_, ?_⟩
  · rw [hparagraphs]
    exact .cons hfilled hall
  · have hlines := @foldl_add (lineWidth lineLength) (Segmentation.clusters body.toList) [] {} rfl rfl
    unfold wrap
    dsimp only at hlines ⊢
    rw [hlines, hrows, List.nil_append, List.map_map]
    rfl

end Rows
end Chaskiwasi.Sim
