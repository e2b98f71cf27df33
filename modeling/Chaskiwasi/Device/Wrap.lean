import Chaskiwasi.Device.Utf8proc
import Mathlib.Data.List.Basic
import Mathlib.Data.List.Forall2
import Mathlib.Data.Int.Basic
import Mathlib.Algebra.GroupWithZero.Nat

/-!
# Lines and pages

The device breaks a body into lines, and the lines into pages.  One loop over the clusters keeps a
line, a word that is still being read, and whether white space stands between them.  A line break
ends the line, white space ends the word, and a word that is too long for any line is cut between
its clusters.

A body is read here as paragraphs of glyphs.  A glyph is a cluster that is neither white space nor a
line break, with whether white space stood before it.  The lines are the rows of a layout of these
glyphs (`exists_shows`): each row is some glyphs that follow each other, with one space where white
space separated two of them.

`Loop` is what the loop keeps, over all its variables; there is a lemma for each kind of cluster.
-/

namespace Chaskiwasi.Device.Wrap

open Utf8proc

/-! ## The source -/

/-- CR, LF, or both. -/
def isNewlineCluster (c : List UInt8) : Bool :=
  if c = [] then false else c.all fun ch => !(ch ≠ 0x0A && ch ≠ 0x0D)

structure Wrapping where
  lines : List (List UInt8) := []
  line : List UInt8 := []
  lineLen : ℕ := 0
  pendingSpace : Bool := false
  word : List UInt8 := []
  wordLen : ℕ := 0
  deriving DecidableEq, Repr

/-- A screenful of lines. -/
structure Page where
  lines : List (List UInt8) := []
  deriving DecidableEq, Repr

structure Metrics where
  panelWPx : ℤ := 264
  panelHPx : ℤ := 176
  glyphWPx : ℤ := 6
  glyphHPx : ℤ := 13
  marginPx : ℤ := 2
  reservedTopRows : ℤ := 1
  reservedBottomRows : ℤ := 1

namespace Metrics

def charsPerLine (m : Metrics) : ℤ :=
  if m.glyphWPx ≤ 0 then 0
  else
    let usablePx := m.panelWPx - 2 * m.marginPx
    let n := usablePx.tdiv m.glyphWPx
    if 0 < n then n else 0

def linesPerPage (m : Metrics) : ℤ :=
  if m.glyphHPx ≤ 0 then 0
  else
    let reservedPx := (m.reservedTopRows + m.reservedBottomRows) * m.glyphHPx
    let usablePx := m.panelHPx - reservedPx
    let n := usablePx.tdiv m.glyphHPx
    if 0 < n then n else 0

end Metrics

section Layout

variable [Data]

/-- A cluster that words may break at: a single code point. -/
def isSpaceCluster (c : List UInt8) : Bool :=
  if c = [0x20] ∨ c = [0x09] then true
  else
    match iterate c with
    | none => false
    | some (len, cp) => if len ≠ c.length then false else Data.isZs cp

namespace Wrapping

/-- The line is pushed, and a new one begins. -/
def endLine (w : Wrapping) : Wrapping :=
  { w with lines := w.lines ++ [w.line], line := [], lineLen := 0 }

def addSpace (w : Wrapping) : Wrapping :=
  { w with line := w.line ++ [0x20], lineLen := w.lineLen + 1 }

/-- The lines that a word fills from its cluster `start` on, and where the last line begins. -/
def hardWrap (word : List UInt8) (wb : List ℕ) (wordLen cpl : ℕ) :
    ℕ → ℕ → List (List UInt8) × ℕ
  | 0, start => ([], start)
  | fuel + 1, start =>
      if cpl < wordLen - start then
        let stop := start + cpl
        let (lines, last) := hardWrap word wb wordLen cpl fuel stop
        (substr word (wb.getD start 0) (wb.getD stop 0 - wb.getD start 0) :: lines, last)
      else ([], start)

/-- The word goes on the line, or on lines of its own. -/
def addWord (cpl : ℕ) (w : Wrapping) : Wrapping :=
  if w.wordLen ≤ cpl then
    { w with line := w.line ++ w.word, lineLen := w.lineLen + w.wordLen }
  else
    let wb := graphemeBoundaries w.word
    let (lines, start) := hardWrap w.word wb w.wordLen cpl w.wordLen 0
    { w with
      lines := w.lines ++ lines
      line := w.word.drop (wb.getD start 0)
      lineLen := w.wordLen - start }

/-- `place_word`. -/
def placeWord (cpl : ℕ) (w : Wrapping) : Wrapping :=
  if w.wordLen = 0 then { w with pendingSpace := false }
  else
    let sep := if w.pendingSpace && decide (0 < w.lineLen) then 1 else 0
    let (w, sep) :=
      if 0 < w.lineLen ∧ cpl < w.lineLen + sep + w.wordLen then (w.endLine, 0) else (w, sep)
    let w := if sep ≠ 0 then w.addSpace else w
    { w.addWord cpl with word := [], wordLen := 0, pendingSpace := false }

/-- One cluster of the loop of `BreakLines`. -/
def step (cpl : ℕ) (w : Wrapping) (cluster : List UInt8) : Wrapping :=
  if isNewlineCluster cluster then
    { (w.placeWord cpl).endLine with pendingSpace := false }
  else if isSpaceCluster cluster then
    let w := w.placeWord cpl
    if 0 < w.lineLen then { w with pendingSpace := true } else w
  else { w with word := w.word ++ cluster, wordLen := w.wordLen + 1 }

end Wrapping

def breakLines (body : List UInt8) (charsPerLine : ℤ) : List (List UInt8) :=
  let charsPerLine := if charsPerLine < 1 then 1 else charsPerLine
  if body = [] then []
  else
    let cpl := charsPerLine.toNat
    let w := ((clusters body).foldl (Wrapping.step cpl) {}).placeWord cpl
    if 0 < w.lineLen ∨ w.lines = [] then w.lines ++ [w.line] else w.lines

/-- The loop of `Paginate`, from the line `i` on. -/
def pagesFrom (lines : List (List UInt8)) (pageSize : ℕ) : ℕ → ℕ → List Page
  | 0, _ => []
  | fuel + 1, i =>
      if i < lines.length then
        let stop := min lines.length (i + pageSize)
        ⟨(lines.drop i).take (stop - i)⟩ :: pagesFrom lines pageSize fuel (i + pageSize)
      else []

def paginate (body : List UInt8) (m : Metrics) : List Page :=
  if m.charsPerLine ≤ 0 ∨ m.linesPerPage ≤ 0 then []
  else
    let lines := breakLines body m.charsPerLine
    if lines = [] then [{}] else pagesFrom lines m.linesPerPage.toNat lines.length 0

/-! ## Glyphs and rows -/

/-- A cluster that is shown, and whether white space stood before it. -/
structure Glyph where
  spaced : Bool
  bytes : List UInt8
  deriving DecidableEq, Repr

/-- The glyphs of a paragraph, behind white space or not. -/
def glyphs : Bool → List (List UInt8) → List Glyph
  | _, [] => []
  | spaced, c :: cs =>
      if isSpaceCluster c then glyphs true cs else ⟨spaced, c⟩ :: glyphs false cs

/-- The clusters between the line breaks of a text. -/
def paragraphs (body : List UInt8) : List (List (List UInt8)) :=
  (clusters body).splitOnP isNewlineCluster

end Layout

section Rows

/-- What a row of glyphs looks like. -/
def rowBytes : List Glyph → List UInt8
  | [] => []
  | g :: gs => g.bytes ++ gs.flatMap fun g => (if g.spaced then [0x20] else []) ++ g.bytes

/-- The columns of a row. -/
def rowWidth : List Glyph → ℕ
  | [] => 0
  | _ :: gs => 1 + (gs.map fun g => if g.spaced then 2 else 1).sum

/-- No white space stands between the glyphs. -/
def Solid (gs : List Glyph) : Prop := ∀ g ∈ gs.tail, g.spaced = false

lemma Solid.slice {gs : List Glyph} (h : Solid gs) (i n : ℕ) : Solid ((gs.drop i).take n) := by
  intro g hg
  refine h g ?_
  rw [← List.drop_one, List.drop_take, List.drop_drop] at hg
  rw [← List.drop_one]
  have hsuffix : gs.drop (i + 1) <:+ gs.drop 1 := by
    rw [Nat.add_comm, ← List.drop_drop]
    exact List.drop_suffix _ _
  exact hsuffix.subset (List.mem_of_mem_take hg)

lemma Solid.rowBytes {gs : List Glyph} (h : Solid gs) :
    rowBytes gs = (gs.map Glyph.bytes).flatten := by
  cases gs with
  | nil => rfl
  | cons g gs =>
      rw [Wrap.rowBytes, List.map_cons, List.flatten_cons]
      congr 1
      rw [List.flatMap_def]
      congr 1
      refine List.map_congr_left fun d hd => ?_
      rw [h d hd]
      rfl

lemma Solid.rowWidth {gs : List Glyph} (h : Solid gs) : rowWidth gs = gs.length := by
  cases gs with
  | nil => rfl
  | cons g gs =>
      have hsum : ((gs.map fun g => if g.spaced then 2 else 1).sum : ℕ) = gs.length := by
        have hmap : (gs.map fun g => if g.spaced then 2 else 1) = gs.map fun _ => 1 :=
          List.map_congr_left fun d hd => by rw [h d hd]; rfl
        rw [hmap]
        simp
      rw [Wrap.rowWidth, hsum, List.length_cons, Nat.add_comm]

/-- A word behind a row, with the space between them. -/
lemma rowBytes_append {row word : List Glyph} {g : Glyph} (hrow : row ≠ []) (h : Solid (g :: word))
    (hg : g.spaced = true) :
    rowBytes (row ++ g :: word) =
      rowBytes row ++ 0x20 :: ((g :: word).map Glyph.bytes).flatten := by
  obtain ⟨first, row, rfl⟩ := List.exists_cons_of_ne_nil hrow
  rw [List.cons_append, rowBytes, rowBytes, List.flatMap_append, List.flatMap_cons, hg,
    ← h.rowBytes, rowBytes]
  simp [List.append_assoc]

lemma rowWidth_append {row word : List Glyph} {g : Glyph} (hrow : row ≠ []) (h : Solid (g :: word))
    (hg : g.spaced = true) :
    rowWidth (row ++ g :: word) = rowWidth row + 1 + (g :: word).length := by
  have hword := h.rowWidth
  obtain ⟨first, row, rfl⟩ := List.exists_cons_of_ne_nil hrow
  rw [rowWidth] at hword
  rw [List.cons_append, rowWidth, rowWidth, List.map_append, List.sum_append, List.map_cons,
    List.sum_cons, hg, if_pos rfl]
  omega

lemma rowWidth_pos {row : List Glyph} : 0 < rowWidth row ↔ row ≠ [] := by
  cases row with
  | nil => simp [rowWidth]
  | cons g gs =>
      refine ⟨fun _ => List.cons_ne_nil g gs, fun _ => ?_⟩
      rw [rowWidth]
      omega

end Rows

/-! ## Placing a word -/

section Placing

variable [Data] {cpl : ℕ} {w : Wrapping} {finished : List (List Glyph)}
  {row word : List Glyph}

/-- A row that is no wider than a line, and has no more clusters than columns. -/
structure Fits (cpl : ℕ) (row : List Glyph) : Prop where
  count : countGraphemes (rowBytes row) ≤ rowWidth row
  width : rowWidth row ≤ cpl

lemma fits_nil (cpl : ℕ) : Fits cpl [] where
  count := Nat.zero_le _
  width := Nat.zero_le _

/-- The glyphs of a text that follow each other without white space. -/
structure Word (word : List Glyph) : Prop where
  solid : Solid word
  clusters : clusters (word.map Glyph.bytes).flatten = word.map Glyph.bytes

lemma Word.slice (h : Word word) (i n : ℕ) : Word ((word.drop i).take n) where
  solid := h.solid.slice i n
  clusters := by
    have hslice := clusters_slice (word.map Glyph.bytes).flatten i n
    rw [h.clusters] at hslice
    rw [List.map_take, List.map_drop]
    exact hslice

lemma Word.fits (h : Word word) (hlen : word.length ≤ cpl) : Fits cpl word where
  count := by
    rw [h.solid.rowBytes, h.solid.rowWidth, countGraphemes_eq, h.clusters, List.length_map]
  width := by
    rw [h.solid.rowWidth]
    exact hlen

/-- What the loop holds: finished rows, a row, and a word. -/
structure Holds (cpl : ℕ) (w : Wrapping) (finished : List (List Glyph)) (row word : List Glyph) :
    Prop where
  lines : w.lines = finished.map rowBytes
  line : w.line = rowBytes row
  lineLen : w.lineLen = rowWidth row
  wordBytes : w.word = (word.map Glyph.bytes).flatten
  wordLen : w.wordLen = word.length
  finishedFits : ∀ r ∈ finished, Fits cpl r
  rowFits : Fits cpl row

lemma Holds.endLine (h : Holds cpl w finished row word) :
    Holds cpl w.endLine (finished ++ [row]) [] word where
  lines := by rw [Wrapping.endLine, h.lines, h.line, List.map_append, List.map_singleton]
  line := rfl
  lineLen := rfl
  wordBytes := h.wordBytes
  wordLen := h.wordLen
  finishedFits := by
    intro r hr
    rcases List.mem_append.1 hr with hr | hr
    · exact h.finishedFits r hr
    · rw [List.mem_singleton.1 hr]
      exact h.rowFits
  rowFits := fits_nil cpl

lemma hardWrap_rows (hcpl : 1 ≤ cpl) (hword : Word word) (fuel start : ℕ)
    (hstart : start < word.length) (hfuel : word.length - start ≤ fuel) :
    ∃ (rows : List (List Glyph)) (last : ℕ),
      Wrapping.hardWrap (word.map Glyph.bytes).flatten
          (Breaks.offsets (word.map Glyph.bytes)) word.length cpl fuel start =
        (rows.map rowBytes, last) ∧
      rows.flatten ++ word.drop last = word.drop start ∧ (∀ r ∈ rows, Fits cpl r) ∧
      last < word.length ∧ word.length - last ≤ cpl := by
  induction fuel generalizing start with
  | zero => omega
  | succ fuel ih =>
      rw [Wrapping.hardWrap]
      by_cases hlong : cpl < word.length - start
      · obtain ⟨rows, last, heq, hflatten, hfits, hlast, hshort⟩ :=
          ih (start + cpl) (by omega) (by omega)
        have hslice := hword.slice start cpl
        have hlen : ((word.drop start).take cpl).length = cpl := by
          rw [List.length_take, List.length_drop]
          omega
        have hbytes := Breaks.drop_take_offsets (Nat.le_add_right start cpl)
          (show start + cpl ≤ (word.map Glyph.bytes).length by rw [List.length_map]; omega)
        rw [Nat.add_sub_cancel_left, ← List.map_drop, ← List.map_take,
          ← hslice.solid.rowBytes] at hbytes
        refine ⟨(word.drop start).take cpl :: rows, last, ?_, ?_, ?_, hlast, hshort⟩
        · simp only [if_pos hlong, heq, List.map_cons]
          exact congrArg (fun line => (line :: rows.map rowBytes, last)) hbytes
        · rw [List.flatten_cons, List.append_assoc, hflatten, ← List.drop_drop,
            List.take_append_drop]
        · intro r hr
          rcases List.mem_cons.1 hr with rfl | hr
          · exact hslice.fits (Nat.le_of_eq hlen)
          · exact hfits r hr
      · refine ⟨[], start, ?_, rfl, fun r hr => absurd hr List.not_mem_nil, hstart, by omega⟩
        rw [if_neg hlong]
        rfl

lemma addWord_short (h : w.wordLen ≤ cpl) :
    w.addWord cpl = { w with line := w.line ++ w.word, lineLen := w.lineLen + w.wordLen } :=
  if_pos h

lemma addWord_long {lines : List (List UInt8)} {start : ℕ} (h : ¬ w.wordLen ≤ cpl)
    (heq : Wrapping.hardWrap w.word (graphemeBoundaries w.word) w.wordLen cpl w.wordLen 0 =
      (lines, start)) :
    w.addWord cpl =
      { w with
        lines := w.lines ++ lines
        line := w.word.drop ((graphemeBoundaries w.word).getD start 0)
        lineLen := w.wordLen - start } := by
  rw [Wrapping.addWord, if_neg h]
  simp only [heq]

/-- A word that begins a line. -/
lemma Holds.addWord_nil (h : Holds cpl w finished [] word) (hcpl : 1 ≤ cpl) (hword : Word word)
    (hne : word ≠ []) :
    ∃ more row', Holds cpl { w.addWord cpl with word := [], wordLen := 0, pendingSpace := false }
        (finished ++ more) row' [] ∧ more.flatten ++ row' = word ∧ row' ≠ [] := by
  have hlineLen : w.lineLen = 0 := h.lineLen
  have hline : w.line = [] := h.line
  by_cases hshort : w.wordLen ≤ cpl
  · refine ⟨[], word, ?_, rfl, hne⟩
    rw [addWord_short hshort, List.append_nil]
    refine ⟨h.lines, ?_, ?_, rfl, rfl, h.finishedFits, hword.fits (h.wordLen ▸ hshort)⟩
    · show w.line ++ w.word = rowBytes word
      rw [hline, List.nil_append, h.wordBytes, hword.solid.rowBytes]
    · show w.lineLen + w.wordLen = rowWidth word
      rw [hlineLen, Nat.zero_add, h.wordLen, hword.solid.rowWidth]
  · obtain ⟨rows, last, heq, hflatten, hfits, hlast, hrest⟩ :=
      hardWrap_rows hcpl hword word.length 0 (List.length_pos_iff.2 hne) (Nat.sub_le _ _)
    have hend : Word (word.drop last) := by
      have hslice := hword.slice last (word.drop last).length
      rwa [List.take_length] at hslice
    have hbounds : graphemeBoundaries w.word = Breaks.offsets (word.map Glyph.bytes) := by
      rw [graphemeBoundaries_eq_offsets, h.wordBytes, hword.clusters]
    have hdrop := Breaks.drop_offsets
      (show last ≤ (word.map Glyph.bytes).length by rw [List.length_map]; exact Nat.le_of_lt hlast)
    rw [← List.map_drop, ← hend.solid.rowBytes, ← hbounds, ← h.wordBytes] at hdrop
    rw [← hbounds, ← h.wordBytes, ← h.wordLen] at heq
    refine ⟨rows, word.drop last, ?_, ?_, ?_⟩
    · rw [addWord_long hshort heq]
      refine ⟨?_, hdrop, ?_, rfl, rfl, ?_, hend.fits ?_⟩
      · show w.lines ++ rows.map rowBytes = (finished ++ rows).map rowBytes
        rw [List.map_append, ← h.lines]
      · show w.wordLen - last = rowWidth (word.drop last)
        rw [hend.solid.rowWidth, List.length_drop, h.wordLen]
      · intro r hr
        rcases List.mem_append.1 hr with hr | hr
        · exact h.finishedFits r hr
        · exact hfits r hr
      · rw [List.length_drop]
        exact hrest
    · rw [hflatten, List.drop_zero]
    · rw [Ne, List.drop_eq_nil_iff]
      omega

/-- What `place_word` does: the word stands behind the row, or on rows of its own. -/
theorem Holds.placeWord (h : Holds cpl w finished row word) (hcpl : 1 ≤ cpl) (hword : Word word)
    (hspaced : ∀ g ∈ word.head?, row ≠ [] → g.spaced = true ∧ w.pendingSpace = true) :
    ∃ more row', Holds cpl (w.placeWord cpl) (finished ++ more) row' [] ∧
      more.flatten ++ row' = row ++ word ∧ (row' = [] → row = [] ∧ more = [] ∧ word = []) := by
  rw [Wrapping.placeWord, h.wordLen]
  cases hw : word with
  | nil =>
      subst hw
      refine ⟨[], row, ?_, (List.append_nil row).symm, fun hrow => ⟨hrow, rfl, rfl⟩⟩
      rw [if_pos List.length_nil, List.append_nil]
      exact ⟨h.lines, h.line, h.lineLen, h.wordBytes, rfl, h.finishedFits, h.rowFits⟩
  | cons g gs =>
      rw [← hw]
      have hne : word ≠ [] := by rw [hw]; exact List.cons_ne_nil g gs
      have hlen : word.length ≠ 0 := fun h0 => hne (List.length_eq_zero_iff.1 h0)
      rw [if_neg hlen]
      by_cases hrow : row = []
      · subst hrow
        have hzero : w.lineLen = 0 := h.lineLen
        obtain ⟨more, row', hholds, hflatten, hrow'⟩ := h.addWord_nil hcpl hword hne
        refine ⟨more, row', ?_, hflatten, fun hnil => absurd hnil hrow'⟩
        simpa [hzero] using hholds
      · obtain ⟨hg, hpending⟩ := hspaced g (by rw [hw]; rfl) hrow
        have hpos : 0 < w.lineLen := by rw [h.lineLen]; exact rowWidth_pos.2 hrow
        by_cases hfull : cpl < w.lineLen + 1 + word.length
        · -- The line ends, and the word begins the next.
          obtain ⟨more, row', hholds, hflatten, hrow'⟩ := h.endLine.addWord_nil hcpl hword hne
          refine ⟨row :: more, row', ?_, ?_, fun hnil => absurd hnil hrow'⟩
          · rw [List.append_assoc] at hholds
            simpa [hpending, hpos, hfull] using hholds
          · rw [List.flatten_cons, List.append_assoc, hflatten]
        · have hshort : w.addSpace.wordLen ≤ cpl := by
            show w.wordLen ≤ cpl
            rw [h.wordLen]
            omega
          have hbytes := rowBytes_append hrow (hw ▸ hword.solid) hg
          have hwidth := rowWidth_append hrow (hw ▸ hword.solid) hg
          rw [← hw] at hbytes hwidth
          have hholds : Holds cpl { w.addSpace.addWord cpl with
              word := [], wordLen := 0, pendingSpace := false } finished (row ++ word) [] := by
            rw [addWord_short hshort]
            refine ⟨h.lines, ?_, ?_, rfl, rfl, h.finishedFits, ?_, ?_⟩
            · show w.line ++ [0x20] ++ w.word = rowBytes (row ++ word)
              rw [hbytes, h.line, h.wordBytes, List.append_assoc, List.singleton_append]
            · show w.lineLen + 1 + w.wordLen = rowWidth (row ++ word)
              rw [hwidth, h.lineLen, h.wordLen]
            · have hspace := countGraphemes_append_space (rowBytes row)
                (word.map Glyph.bytes).flatten
              have hcount : countGraphemes (word.map Glyph.bytes).flatten = word.length := by
                rw [countGraphemes_eq, hword.clusters, List.length_map]
              have hrowCount := h.rowFits.count
              rw [hbytes, hwidth]
              omega
            · rw [hwidth, ← h.lineLen]
              omega
          refine ⟨[], row ++ word, ?_, rfl,
            fun hnil => absurd (List.append_eq_nil_iff.1 hnil).2 hne⟩
          rw [List.append_nil]
          simpa [hpending, hpos, hfull] using hholds

/-! ## The loop -/

/-- Whether white space stands at the end of a paragraph. -/
def spaceEnd (p : List (List UInt8)) : Bool := p.foldl (fun _ c => isSpaceCluster c) false

lemma glyphs_append (spaced : Bool) (p q : List (List UInt8)) :
    glyphs spaced (p ++ q) =
      glyphs spaced p ++ glyphs (p.foldl (fun _ c => isSpaceCluster c) spaced) q := by
  induction p generalizing spaced with
  | nil => rfl
  | cons c p ih =>
      rw [List.cons_append, glyphs, glyphs, List.foldl_cons]
      by_cases hc : isSpaceCluster c = true
      · rw [if_pos hc, if_pos hc, hc, ih]
      · rw [if_neg hc, if_neg hc, Bool.eq_false_iff.2 hc, ih, List.cons_append]

lemma spaceEnd_concat (p : List (List UInt8)) (c : List UInt8) :
    spaceEnd (p ++ [c]) = isSpaceCluster c := by
  rw [spaceEnd, List.foldl_append]
  rfl

lemma glyphs_concat_space {p : List (List UInt8)} {c : List UInt8} (hc : isSpaceCluster c = true) :
    glyphs false (p ++ [c]) = glyphs false p := by
  rw [glyphs_append, glyphs, if_pos hc, glyphs, List.append_nil]

lemma glyphs_concat {p : List (List UInt8)} {c : List UInt8} (hc : ¬ isSpaceCluster c = true) :
    glyphs false (p ++ [c]) = glyphs false p ++ [⟨spaceEnd p, c⟩] := by
  rw [glyphs_append, glyphs, if_neg hc, glyphs]
  rfl

/-- The glyphs of a paragraph are its clusters without the white space. -/
lemma map_bytes_glyphs (spaced : Bool) (p : List (List UInt8)) :
    (glyphs spaced p).map Glyph.bytes = p.filter fun c => !isSpaceCluster c := by
  induction p generalizing spaced with
  | nil => rfl
  | cons c p ih =>
      rw [glyphs, List.filter_cons]
      by_cases hc : isSpaceCluster c = true
      · rw [if_pos hc, hc, ih]
        rfl
      · rw [if_neg hc, Bool.eq_false_iff.2 hc, List.map_cons, ih]
        rfl

/-- What the loop has made of the clusters `done`: rows for the paragraphs `ps`, which a line break
has ended, and what it holds of the paragraph `p`. -/
structure Loop (cpl : ℕ) (done : List (List UInt8)) (w : Wrapping) (ps : List (List (List UInt8)))
    (p : List (List UInt8)) (blocks : List (List (List Glyph))) (cur : List (List Glyph))
    (row word : List Glyph) : Prop where
  holds : Holds cpl w (blocks.flatten ++ cur) row word
  split : ∀ rest, (done ++ rest).splitOnP isNewlineCluster =
    ps ++ (p ++ rest).splitOnP isNewlineCluster
  unbroken : ∀ c ∈ p, isNewlineCluster c = false
  shownBlocks : List.Forall₂ (fun p rows => rows.flatten = glyphs false p) ps blocks
  ended : ∀ rows ∈ blocks, rows ≠ []
  shown : cur.flatten ++ (row ++ word) = glyphs false p
  read : word.map Glyph.bytes <:+ done
  solid : Solid word
  fresh : row = [] → cur = []
  between : word = [] → row ≠ [] → spaceEnd p = true ∧ w.pendingSpace = true
  before : ∀ g ∈ word.head?, row ≠ [] → g.spaced = true ∧ w.pendingSpace = true
  within : word ≠ [] → spaceEnd p = false

lemma loop_init (cpl : ℕ) : Loop cpl [] {} [] [] [] [] [] [] where
  holds := ⟨rfl, rfl, rfl, rfl, rfl, fun r hr => absurd hr List.not_mem_nil, fits_nil cpl⟩
  split := fun _ => rfl
  unbroken := fun c hc => absurd hc List.not_mem_nil
  shownBlocks := List.Forall₂.nil
  ended := fun rows hrows => absurd hrows List.not_mem_nil
  shown := rfl
  read := List.suffix_rfl
  solid := fun g hg => absurd hg List.not_mem_nil
  fresh := fun _ => rfl
  between := fun _ hrow => absurd rfl hrow
  before := fun _ hg => absurd hg (by simp)
  within := fun hword => absurd rfl hword

/-- Clusters that follow each other in a text are the clusters of what they make up. -/
lemma clusters_of_infix {ws : List (List UInt8)} {s : List UInt8} (h : ws <:+: clusters s) :
    clusters ws.flatten = ws := by
  obtain ⟨front, rest, heq⟩ := h
  have hslice := clusters_slice s front.length ws.length
  rw [← heq, List.append_assoc, List.drop_left, List.take_left] at hslice
  exact hslice

section Step

variable {s : List UInt8} {done rest : List (List UInt8)} {c : List UInt8}
  {ps : List (List (List UInt8))} {p : List (List UInt8)} {blocks : List (List (List Glyph))}
  {cur : List (List Glyph)}

lemma Loop.toWord (h : Loop cpl done w ps p blocks cur row word)
    (hdone : done ++ rest = clusters s) : Word word where
  solid := h.solid
  clusters := clusters_of_infix
    (h.read.isInfix.trans ⟨[], rest, by rw [List.nil_append, hdone]⟩)

/-- The word is placed: the paragraph stands in rows. -/
lemma Loop.placeWord (h : Loop cpl done w ps p blocks cur row word) (hcpl : 1 ≤ cpl)
    (hdone : done ++ rest = clusters s) :
    ∃ cur' row', Holds cpl (w.placeWord cpl) (blocks.flatten ++ cur') row' [] ∧
      cur'.flatten ++ row' = glyphs false p ∧ (row' = [] → cur' = []) := by
  obtain ⟨more, row', hholds, hflatten, hfresh⟩ :=
    h.holds.placeWord hcpl (h.toWord hdone) h.before
  refine ⟨cur ++ more, row', ?_, ?_, ?_⟩
  · rw [← List.append_assoc]
    exact hholds
  · rw [List.flatten_append, List.append_assoc, hflatten, h.shown]
  · intro hrow'
    obtain ⟨hrow, hmore, -⟩ := hfresh hrow'
    rw [h.fresh hrow, hmore, List.append_nil]

/-- A line break ends the paragraph. -/
lemma Loop.newline (h : Loop cpl done w ps p blocks cur row word) (hcpl : 1 ≤ cpl)
    (hdone : done ++ rest = clusters s) (hc : isNewlineCluster c = true) :
    ∃ block, Loop cpl (done ++ [c]) (w.step cpl c) (ps ++ [p]) [] (blocks ++ [block]) [] [] [] := by
  obtain ⟨cur', row', hholds, hshown, -⟩ := h.placeWord hcpl hdone
  have hend := hholds.endLine
  refine ⟨cur' ++ [row'], ?_⟩
  rw [Wrapping.step, if_pos hc]
  exact
    { holds := by
        rw [List.append_nil, List.flatten_append, List.flatten_singleton, ← List.append_assoc]
        exact ⟨hend.lines, hend.line, hend.lineLen, hend.wordBytes, hend.wordLen,
          hend.finishedFits, hend.rowFits⟩
      split := by
        intro rest
        rw [List.append_assoc, h.split, List.singleton_append,
          List.splitOnP_append_cons_of_forall_mem h.unbroken c hc, List.append_assoc]
        rfl
      unbroken := fun c hc => absurd hc List.not_mem_nil
      shownBlocks := by
        refine List.rel_append h.shownBlocks (List.Forall₂.cons ?_ List.Forall₂.nil)
        rw [List.flatten_append, List.flatten_singleton, hshown]
      ended := by
        intro rows hrows
        rcases List.mem_append.1 hrows with hrows | hrows
        · exact h.ended rows hrows
        · rw [List.mem_singleton.1 hrows]
          simp
      shown := rfl
      read := List.nil_suffix
      solid := fun g hg => absurd hg List.not_mem_nil
      fresh := fun _ => rfl
      between := fun _ hrow => absurd rfl hrow
      before := fun _ hg => absurd hg (by simp)
      within := fun hword => absurd rfl hword }

/-- White space ends the word. -/
lemma Loop.space (h : Loop cpl done w ps p blocks cur row word) (hcpl : 1 ≤ cpl)
    (hdone : done ++ rest = clusters s) (hnewline : ¬ isNewlineCluster c = true)
    (hc : isSpaceCluster c = true) :
    ∃ cur' row', Loop cpl (done ++ [c]) (w.step cpl c) ps (p ++ [c]) blocks cur' row' [] := by
  obtain ⟨cur', row', hholds, hshown, hfresh⟩ := h.placeWord hcpl hdone
  refine ⟨cur', row', ?_⟩
  rw [Wrapping.step, if_neg hnewline, if_pos hc]
  have hpending : row' ≠ [] → 0 < (w.placeWord cpl).lineLen := by
    intro hrow
    rw [hholds.lineLen]
    exact rowWidth_pos.2 hrow
  exact
    { holds := by
        show Holds cpl (if 0 < (w.placeWord cpl).lineLen then _ else _) _ row' []
        split_ifs
        · exact ⟨hholds.lines, hholds.line, hholds.lineLen, hholds.wordBytes, hholds.wordLen,
            hholds.finishedFits, hholds.rowFits⟩
        · exact hholds
      split := by
        intro rest
        rw [List.append_assoc, h.split, List.append_assoc]
      unbroken := by
        intro d hd
        rcases List.mem_append.1 hd with hd | hd
        · exact h.unbroken d hd
        · rw [List.mem_singleton.1 hd]
          exact Bool.eq_false_iff.2 hnewline
      shownBlocks := h.shownBlocks
      ended := h.ended
      shown := by rw [List.append_nil, hshown, glyphs_concat_space hc]
      read := List.nil_suffix
      solid := fun g hg => absurd hg List.not_mem_nil
      fresh := hfresh
      between := by
        intro _ hrow
        rw [spaceEnd_concat]
        refine ⟨hc, ?_⟩
        show (if 0 < (w.placeWord cpl).lineLen then _ else _ : Wrapping).pendingSpace = true
        rw [if_pos (hpending hrow)]
      before := fun _ hg => absurd hg (by simp)
      within := fun hword => absurd rfl hword }

/-- Any other cluster goes to the word. -/
lemma Loop.glyph (h : Loop cpl done w ps p blocks cur row word)
    (hnewline : ¬ isNewlineCluster c = true) (hc : ¬ isSpaceCluster c = true) :
    Loop cpl (done ++ [c]) (w.step cpl c) ps (p ++ [c]) blocks cur row
      (word ++ [⟨spaceEnd p, c⟩]) := by
  rw [Wrapping.step, if_neg hnewline, if_neg hc]
  exact
    { holds :=
        { lines := h.holds.lines
          line := h.holds.line
          lineLen := h.holds.lineLen
          wordBytes := by
            show w.word ++ c = _
            rw [h.holds.wordBytes]
            simp
          wordLen := by
            show w.wordLen + 1 = _
            rw [h.holds.wordLen, List.length_append, List.length_singleton]
          finishedFits := h.holds.finishedFits
          rowFits := h.holds.rowFits }
      split := by
        intro rest
        rw [List.append_assoc, h.split, List.append_assoc]
      unbroken := by
        intro d hd
        rcases List.mem_append.1 hd with hd | hd
        · exact h.unbroken d hd
        · rw [List.mem_singleton.1 hd]
          exact Bool.eq_false_iff.2 hnewline
      shownBlocks := h.shownBlocks
      ended := h.ended
      shown := by rw [glyphs_concat hc, ← h.shown, List.append_assoc, List.append_assoc]
      read := by
        obtain ⟨front, hfront⟩ := h.read
        refine ⟨front, ?_⟩
        rw [List.map_append, List.map_singleton, ← List.append_assoc, hfront]
      solid := by
        cases hword : word with
        | nil => exact fun g hg => absurd hg List.not_mem_nil
        | cons d ds =>
            intro g hg
            rw [List.cons_append, List.tail_cons, List.mem_append] at hg
            rcases hg with hg | hg
            · exact h.solid g (hword ▸ hg)
            · rw [List.mem_singleton.1 hg]
              exact h.within (by rw [hword]; exact List.cons_ne_nil d ds)
      fresh := h.fresh
      between := fun hword => absurd hword (by simp)
      before := by
        intro g hg hrow
        cases hword : word with
        | nil =>
            rw [hword] at hg
            obtain rfl : (⟨spaceEnd p, c⟩ : Glyph) = g := by simpa using hg
            exact h.between hword hrow
        | cons d ds =>
            rw [hword] at hg
            exact h.before g (by rw [hword]; exact hg) hrow
      within := by
        intro _
        rw [spaceEnd_concat]
        exact Bool.eq_false_iff.2 hc }

/-- Over all the clusters of a text. -/
theorem Loop.run (h : Loop cpl done w ps p blocks cur row word) (hcpl : 1 ≤ cpl)
    (hdone : done ++ rest = clusters s) :
    ∃ ps' p' blocks' cur' row' word',
      Loop cpl (clusters s) (rest.foldl (Wrapping.step cpl) w) ps' p' blocks' cur' row' word' := by
  induction rest generalizing done w ps p blocks cur row word with
  | nil =>
      rw [List.append_nil] at hdone
      exact ⟨ps, p, blocks, cur, row, word, hdone ▸ h⟩
  | cons c rest ih =>
      have hnext : done ++ [c] ++ rest = clusters s := by
        rw [List.append_assoc, List.singleton_append, hdone]
      rw [List.foldl_cons]
      by_cases hnewline : isNewlineCluster c = true
      · obtain ⟨block, hloop⟩ := h.newline hcpl hdone hnewline
        exact ih hloop hnext
      · by_cases hspace : isSpaceCluster c = true
        · obtain ⟨cur', row', hloop⟩ := h.space hcpl hdone hnewline hspace
          exact ih hloop hnext
        · exact ih (h.glyph hnewline hspace) hnext

end Step

/-! ## Pages -/

section Pages

omit [Data]

lemma flatMap_pagesFrom (lines : List (List UInt8)) {pageSize : ℕ} (hsize : 1 ≤ pageSize)
    (fuel i : ℕ) (hfuel : lines.length - i ≤ fuel) :
    (pagesFrom lines pageSize fuel i).flatMap Page.lines = lines.drop i := by
  induction fuel generalizing i with
  | zero =>
      rw [List.drop_eq_nil_of_le (by omega)]
      rfl
  | succ fuel ih =>
      rw [pagesFrom]
      split_ifs with hi
      · have htake : (lines.drop i).take (min lines.length (i + pageSize) - i) =
            (lines.drop i).take pageSize := by
          apply List.take_eq_take_iff.2
          rw [List.length_drop]
          omega
        rw [List.flatMap_cons, ih _ (by omega), htake, ← List.drop_drop, List.take_append_drop]
      · rw [List.drop_eq_nil_of_le (by omega)]
        rfl

lemma length_of_mem_pagesFrom {lines : List (List UInt8)} {pageSize fuel i : ℕ} {page : Page}
    (h : page ∈ pagesFrom lines pageSize fuel i) : page.lines.length ≤ pageSize := by
  induction fuel generalizing i with
  | zero => cases h
  | succ fuel ih =>
      rw [pagesFrom] at h
      split_ifs at h
      · rcases List.mem_cons.1 h with rfl | h
        · show ((lines.drop i).take _).length ≤ pageSize
          rw [List.length_take]
          omega
        · exact ih h
      · cases h

end Pages

lemma paginate_eq (body : List UInt8) {m : Metrics} (hcpl : 1 ≤ m.charsPerLine)
    (hlpp : 1 ≤ m.linesPerPage) :
    (paginate body m).flatMap Page.lines = breakLines body m.charsPerLine ∧
      ∀ page ∈ paginate body m, (page.lines.length : ℤ) ≤ m.linesPerPage := by
  rw [paginate, if_neg (by omega)]
  by_cases hlines : breakLines body m.charsPerLine = []
  · simp only [hlines, if_true]
    refine ⟨rfl, ?_⟩
    intro page hpage
    rw [List.mem_singleton.1 hpage]
    show (0 : ℤ) ≤ m.linesPerPage
    omega
  · simp only [hlines, if_false]
    refine ⟨?_, ?_⟩
    · rw [flatMap_pagesFrom _ (by omega) _ _ (Nat.sub_le _ _), List.drop_zero]
    · intro page hpage
      have hle := length_of_mem_pagesFrom hpage
      omega

/-! ## What is shown -/

omit [Data] in
lemma flatten_splitOnP {α : Type*} (p : α → Bool) (xs : List α) :
    (xs.splitOnP p).flatten = xs.filter fun x => !p x := by
  induction xs with
  | nil => rfl
  | cons x xs ih =>
      rw [List.splitOnP_cons_eq_if_modifyHead, List.filter_cons]
      by_cases hx : p x = true
      · rw [if_pos hx, hx, List.flatten_cons, ih]
        rfl
      · obtain ⟨first, others, hsplit⟩ :=
          List.exists_cons_of_ne_nil (List.splitOnP_ne_nil p xs)
        rw [if_neg hx, Bool.eq_false_iff.2 hx, hsplit, List.modifyHead_cons, List.flatten_cons,
          List.cons_append, ← List.flatten_cons, ← hsplit, ih]
        rfl

/-- The rows show each cluster that is neither white space nor a line break, once and in order. -/
lemma map_bytes_blocks {ps : List (List (List UInt8))} {blocks : List (List (List Glyph))}
    (h : List.Forall₂ (fun p rows => rows.flatten = glyphs false p) ps blocks) :
    blocks.flatten.flatten.map Glyph.bytes = ps.flatten.filter fun c => !isSpaceCluster c := by
  induction h with
  | nil => rfl
  | cons hrows _ ih =>
      rw [List.flatten_cons, List.flatten_append, List.map_append, hrows, map_bytes_glyphs, ih,
        List.flatten_cons, List.filter_append]

/-- A layout of a text: rows for each of its paragraphs, at least one for each that a line break
ends. -/
structure Shows (body : List UInt8) (blocks : List (List (List Glyph))) : Prop where
  shown : List.Forall₂ (fun p rows => rows.flatten = glyphs false p) (paragraphs body) blocks
  ended : ∀ rows ∈ blocks.dropLast, rows ≠ []

/-- The lines are the rows of a layout of the text. -/
theorem exists_shows (body : List UInt8) {charsPerLine : ℤ} (hcpl : 1 ≤ charsPerLine) :
    ∃ blocks, Shows body blocks ∧ breakLines body charsPerLine = blocks.flatten.map rowBytes ∧
      ∀ row ∈ blocks.flatten, Fits charsPerLine.toNat row := by
  have hpos : 1 ≤ charsPerLine.toNat := by omega
  rw [breakLines]
  by_cases hbody : body = []
  · subst hbody
    refine ⟨[[]], ⟨List.Forall₂.cons rfl List.Forall₂.nil, ?_⟩, rfl, ?_⟩
    · exact fun rows hrows => absurd hrows List.not_mem_nil
    · exact fun row hrow => absurd hrow List.not_mem_nil
  · obtain ⟨ps, p, blocks, cur, row, word, hloop⟩ :=
      (loop_init charsPerLine.toNat).run hpos (List.nil_append (clusters body))
    obtain ⟨cur', row', hholds, hshown, hfresh⟩ :=
      hloop.placeWord hpos (List.append_nil (clusters body))
    have hparagraphs : paragraphs body = ps ++ [p] := by
      have hsplit := hloop.split []
      rw [List.append_nil, List.append_nil, List.splitOnP_eq_singleton hloop.unbroken] at hsplit
      exact hsplit
    have hlayout : ∀ rows : List (List Glyph), rows.flatten = glyphs false p →
        Shows body (blocks ++ [rows]) := by
      intro rows hrows
      refine ⟨?_, ?_⟩
      · rw [hparagraphs]
        exact List.rel_append hloop.shownBlocks (List.Forall₂.cons hrows List.Forall₂.nil)
      · rw [List.dropLast_concat]
        exact hloop.ended
    rw [if_neg hbody, if_neg (show ¬ charsPerLine < 1 by omega)]
    set w := ((clusters body).foldl (Wrapping.step charsPerLine.toNat) {}).placeWord
      charsPerLine.toNat
    by_cases hlast : 0 < w.lineLen ∨ w.lines = []
    · have hend := hholds.endLine
      refine ⟨blocks ++ [cur' ++ [row']], hlayout _ ?_, ?_, ?_⟩
      · rw [List.flatten_append, List.flatten_singleton, hshown]
      · have hlines : w.lines ++ [w.line] = (blocks.flatten ++ cur' ++ [row']).map rowBytes :=
          hend.lines
        show (if 0 < w.lineLen ∨ w.lines = [] then w.lines ++ [w.line] else w.lines) = _
        rw [if_pos hlast, hlines, List.flatten_append, List.flatten_singleton, List.append_assoc]
      · rw [List.flatten_append, List.flatten_singleton, ← List.append_assoc]
        exact hend.finishedFits
    · have hrow : row' = [] := by
        by_contra hne
        refine hlast (Or.inl ?_)
        rw [hholds.lineLen]
        exact rowWidth_pos.2 hne
      have hcur : cur' = [] := hfresh hrow
      subst hrow hcur
      refine ⟨blocks ++ [[]], hlayout _ hshown, ?_, ?_⟩
      · have hlines := hholds.lines
        show (if 0 < w.lineLen ∨ w.lines = [] then w.lines ++ [w.line] else w.lines) = _
        rw [if_neg hlast, hlines, List.append_nil, List.flatten_append, List.flatten_singleton,
          List.append_nil]
      · rw [List.flatten_append, List.flatten_singleton]
        exact hholds.finishedFits

/-- Every cluster of a text is shown once, on lines that are not too wide and pages that are not
too long. -/
theorem layout_shows (body : List UInt8) {charsPerLine : ℤ} (hcpl : 1 ≤ charsPerLine) :
    (∃ blocks, Shows body blocks ∧
      blocks.flatten.flatten.map Glyph.bytes =
        (clusters body).filter (fun c => !isNewlineCluster c && !isSpaceCluster c) ∧
      breakLines body charsPerLine = blocks.flatten.map rowBytes) ∧
    (∀ line ∈ breakLines body charsPerLine, (countGraphemes line : ℤ) ≤ charsPerLine) ∧
    ∀ m : Metrics, m.charsPerLine = charsPerLine → 1 ≤ m.linesPerPage →
      (paginate body m).flatMap Page.lines = breakLines body charsPerLine ∧
      ∀ page ∈ paginate body m, (page.lines.length : ℤ) ≤ m.linesPerPage := by
  obtain ⟨blocks, hlayout, hlines, hfits⟩ := exists_shows body hcpl
  refine ⟨⟨blocks, hlayout, ?_, hlines⟩, ?_, ?_⟩
  · rw [map_bytes_blocks hlayout.shown, paragraphs, flatten_splitOnP, List.filter_filter]
    simp only [Bool.and_comm]
  · intro line hline
    rw [hlines, List.mem_map] at hline
    obtain ⟨row, hrow, rfl⟩ := hline
    have hcount := (hfits row hrow).count
    have hwidth := (hfits row hrow).width
    omega
  · rintro m rfl hlpp
    exact paginate_eq body hcpl hlpp

end Placing

/-- A long word, white space at the margin, and a line break, on lines of four clusters. -/
theorem layout_shows_word :
    (∀ line ∈ @breakLines Sample.data "ab  abcdefg\nx".toUTF8.toList 4,
      (@countGraphemes Sample.data line : ℤ) ≤ 4) ∧
    (@paginate Sample.data "ab  abcdefg\nx".toUTF8.toList { panelWPx := 28 }).flatMap Page.lines =
      ["ab", "abcd", "efg", "x"].map fun line => line.toUTF8.toList := by
  have h := @layout_shows Sample.data "ab  abcdefg\nx".toUTF8.toList 4 (by decide)
  refine ⟨h.2.1, (h.2.2 { panelWPx := 28 } (by decide) (by decide)).1.trans ?_⟩
  decide +kernel

end Chaskiwasi.Device.Wrap
