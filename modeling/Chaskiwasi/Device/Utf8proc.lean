import Chaskiwasi.Lib.Breaks
import Chaskiwasi.Lib.Segments

/-!
# Clusters on the device

The device counts and cuts a text between its grapheme clusters, which it takes from `utf8proc`: a
decoder of code points, and a machine over their classes that says between which of them a cluster
ends.  A byte that is not UTF-8 stands for U+FFFD, so every text has clusters.

The property table is a parameter.  Of its values only one matters here: the class of the space.

`graphemeBoundaries_eq` says that the loop over positions is the machine over decoded symbols, and
`clusters_slice` that clusters that follow each other in a text are the clusters of what they make
up.
-/

namespace Chaskiwasi.Device.Utf8proc

/-! ## Decoding -/

def utfCont (ch : UInt8) : Bool := ch &&& 0xc0 == 0x80

/-- `utf8proc_iterate`: how long the first code point is, and which one; `none` on an error. -/
def iterate : List UInt8 → Option (ℕ × ℕ)
  | [] => none
  | uc :: str =>
      if uc < 0x80 then some (1, uc.toNat)
      -- Between 0xc2 and 0xf4, or not UTF-8.
      else if uc < 0xc2 ∨ 0xf4 < uc then none
      else if uc < 0xe0 then
        match str with
        | c :: _ =>
            if utfCont c then some (2, ((uc.toNat &&& 0x1f) <<< 6) ||| (c.toNat &&& 0x3f))
            else none
        | _ => none
      else if uc < 0xf0 then
        match str with
        | c :: d :: _ =>
            if !utfCont c || !utfCont d then none
            else if uc = 0xed ∧ 0x9f < c then none
            else
              let cp := ((uc.toNat &&& 0xf) <<< 12) ||| ((c.toNat &&& 0x3f) <<< 6) |||
                (d.toNat &&& 0x3f)
              if cp < 0x800 then none else some (3, cp)
        | _ => none
      else
        match str with
        | c :: d :: e :: _ =>
            if !utfCont c || !utfCont d || !utfCont e then none
            else if uc = 0xf0 ∧ c < 0x90 then none
            else if uc = 0xf4 ∧ 0x8f < c then none
            else some (4, ((uc.toNat &&& 7) <<< 18) ||| ((c.toNat &&& 0x3f) <<< 12) |||
              ((d.toNat &&& 0x3f) <<< 6) ||| (e.toNat &&& 0x3f))
        | _ => none

/-- `DecodeAt`: the length and the code point at a position. -/
def decodeAt (s : List UInt8) (pos : ℕ) : ℕ × ℕ := (iterate (s.drop pos)).getD (1, 0xFFFD)

section Iterate

variable {a b : List UInt8} {n cp : ℕ}

lemma iterate_length (h : iterate a = some (n, cp)) : 1 ≤ n ∧ n ≤ a.length := by
  rcases a with _ | ⟨w, _ | ⟨x, _ | ⟨y, _ | ⟨z, t⟩⟩⟩⟩ <;> simp only [iterate] at h <;>
    grind

/-- More bytes change no code point. -/
lemma iterate_append (h : iterate a = some (n, cp)) : iterate (a ++ b) = some (n, cp) := by
  rcases a with _ | ⟨w, _ | ⟨x, _ | ⟨y, _ | ⟨z, t⟩⟩⟩⟩ <;> simp only [iterate] at h <;>
    simp only [iterate, List.cons_append, List.nil_append] <;> grind

/-- Bytes after a code point do not matter to it. -/
lemma iterate_of_append (h : iterate (a ++ b) = some (n, cp)) (hn : n ≤ a.length) :
    iterate a = some (n, cp) := by
  rcases a with _ | ⟨w, _ | ⟨x, _ | ⟨y, _ | ⟨z, t⟩⟩⟩⟩ <;>
    simp only [iterate, List.cons_append, List.nil_append] at h <;>
    simp only [iterate] <;> grind

/-- No code point goes on over a space. -/
lemma iterate_append_space (ha : a ≠ []) (h : iterate (a ++ 0x20 :: b) = some (n, cp)) :
    n ≤ a.length := by
  have hcont : utfCont 0x20 = false := by decide
  rcases a with _ | ⟨w, _ | ⟨x, _ | ⟨y, _ | ⟨z, t⟩⟩⟩⟩ <;>
    simp only [iterate, List.cons_append, List.nil_append] at h <;> grind

lemma decodeAt_length (ha : a ≠ []) : 1 ≤ (decodeAt a 0).1 ∧ (decodeAt a 0).1 ≤ a.length := by
  rw [decodeAt, List.drop_zero]
  cases h : iterate a with
  | none => exact ⟨Nat.le_refl 1, List.length_pos_iff.2 ha⟩
  | some r => exact iterate_length h

/-- What a text begins with does not depend on what follows it. -/
lemma decodeAt_append (h : (decodeAt (a ++ b) 0).1 ≤ a.length) :
    decodeAt (a ++ b) 0 = decodeAt a 0 := by
  rw [decodeAt, List.drop_zero] at h ⊢
  rw [decodeAt, List.drop_zero]
  cases hall : iterate (a ++ b) with
  | none =>
      cases ha : iterate a with
      | none => rfl
      | some r =>
          rw [iterate_append ha] at hall
          cases hall
  | some r =>
      rw [hall] at h
      rw [iterate_of_append hall h]

lemma decodeAt_append_space (ha : a ≠ []) : decodeAt (a ++ 0x20 :: b) 0 = decodeAt a 0 := by
  apply decodeAt_append
  rw [decodeAt, List.drop_zero]
  cases h : iterate (a ++ 0x20 :: b) with
  | none => exact List.length_pos_iff.2 ha
  | some r => exact iterate_append_space ha h

end Iterate

/-- A code point of a text, with its bytes. -/
structure Decoded where
  bytes : List UInt8
  cp : ℕ
  deriving DecidableEq, Repr

/-- The code points of a text in their order. -/
def decodeAll (s : List UInt8) : List Decoded :=
  if hs : s = [] then []
  else
    have : 1 ≤ (decodeAt s 0).1 := (decodeAt_length hs).1
    have := List.length_pos_iff.2 hs
    ⟨s.take (decodeAt s 0).1, (decodeAt s 0).2⟩ :: decodeAll (s.drop (decodeAt s 0).1)
termination_by s.length
decreasing_by
  rw [List.length_drop]
  omega

def bytesOf (ds : List Decoded) : List UInt8 := ds.flatMap Decoded.bytes

section DecodeAll

variable {s : List UInt8} {d : Decoded} {ds es : List Decoded}

@[simp] lemma bytesOf_nil : bytesOf [] = [] := rfl

@[simp] lemma bytesOf_cons (d : Decoded) (ds : List Decoded) :
    bytesOf (d :: ds) = d.bytes ++ bytesOf ds := rfl

@[simp] lemma bytesOf_append (ds es : List Decoded) :
    bytesOf (ds ++ es) = bytesOf ds ++ bytesOf es := List.flatMap_append

@[simp] lemma decodeAll_nil : decodeAll [] = [] := by
  rw [decodeAll, dif_pos rfl]

lemma decodeAll_of_ne_nil (hs : s ≠ []) :
    decodeAll s =
      ⟨s.take (decodeAt s 0).1, (decodeAt s 0).2⟩ :: decodeAll (s.drop (decodeAt s 0).1) := by
  rw [decodeAll, dif_neg hs]

lemma decodeAll_eq_cons (h : decodeAll s = d :: ds) :
    s ≠ [] ∧ d = ⟨s.take (decodeAt s 0).1, (decodeAt s 0).2⟩ ∧
      decodeAll (s.drop (decodeAt s 0).1) = ds := by
  have hs : s ≠ [] := by
    rintro rfl
    rw [decodeAll_nil] at h
    cases h
  rw [decodeAll_of_ne_nil hs] at h
  exact ⟨hs, (List.cons.inj h).1.symm, (List.cons.inj h).2⟩

@[simp] lemma bytesOf_decodeAll (s : List UInt8) : bytesOf (decodeAll s) = s := by
  induction hds : decodeAll s generalizing s with
  | nil =>
      by_contra hs
      rw [decodeAll_of_ne_nil (Ne.symm hs)] at hds
      cases hds
  | cons d ds ih =>
      obtain ⟨-, rfl, hrest⟩ := decodeAll_eq_cons hds
      rw [bytesOf_cons, ih _ hrest, List.take_append_drop]

/-- The end of a text, from between two code points. -/
lemma decodeAll_bytesOf_right (h : decodeAll s = ds ++ es) : decodeAll (bytesOf es) = es := by
  induction ds generalizing s with
  | nil =>
      rw [List.nil_append] at h
      rw [← h, bytesOf_decodeAll]
  | cons d ds ih => exact ih (decodeAll_eq_cons h).2.2

/-- The beginning of a text, up to between two code points. -/
lemma decodeAll_bytesOf_left (h : decodeAll s = ds ++ es) : decodeAll (bytesOf ds) = ds := by
  induction ds generalizing s with
  | nil => exact decodeAll_nil
  | cons d ds ih =>
      obtain ⟨hs, hd, hrest⟩ := decodeAll_eq_cons h
      have hlen := decodeAt_length hs
      have hbytes : d.bytes.length = (decodeAt s 0).1 := by
        rw [hd, List.length_take]
        omega
      have hsplit : bytesOf (d :: ds) ++ bytesOf es = s := by
        rw [← bytesOf_append]
        exact (congrArg bytesOf h.symm).trans (bytesOf_decodeAll s)
      have hdecode : decodeAt (bytesOf (d :: ds)) 0 = decodeAt s 0 := by
        rw [← hsplit]
        refine (decodeAt_append ?_).symm
        rw [hsplit, bytesOf_cons, List.length_append]
        omega
      have hne : bytesOf (d :: ds) ≠ [] := by
        rw [bytesOf_cons]
        apply List.ne_nil_of_length_pos
        rw [List.length_append]
        omega
      rw [decodeAll_of_ne_nil hne, hdecode, ← hbytes, bytesOf_cons, List.take_left, List.drop_left,
        ih hrest]
      congr 1
      rw [hd]

lemma decodeAll_append_space (a b : List UInt8) :
    decodeAll (a ++ 0x20 :: b) = decodeAll a ++ ⟨[0x20], 0x20⟩ :: decodeAll b := by
  induction hds : decodeAll a generalizing a with
  | nil =>
      have ha : a = [] := by rw [← bytesOf_decodeAll a, hds, bytesOf_nil]
      have hdecode : decodeAt (0x20 :: b) 0 = (1, 0x20) := rfl
      rw [ha, List.nil_append, decodeAll_of_ne_nil (List.cons_ne_nil _ _), hdecode]
      rfl
  | cons d ds ih =>
      obtain ⟨ha, rfl, hrest⟩ := decodeAll_eq_cons hds
      have hlen := (decodeAt_length ha).2
      rw [decodeAll_of_ne_nil (List.append_ne_nil_of_left_ne_nil ha _), decodeAt_append_space ha,
        List.take_append_of_le_length hlen, List.drop_append_of_le_length hlen, ih _ hrest,
        List.cons_append]

end DecodeAll

/-! ## Boundaries -/

/-- `utf8proc_boundclass_t`. -/
inductive BoundClass
  | start
  | other
  | cr
  | lf
  | control
  | extend
  | l
  | v
  | t
  | lv
  | lvt
  | regionalIndicator
  | spacingMark
  | prepend
  | zwj
  | eBase
  | eModifier
  | glueAfterZwj
  | eBaseGaz
  | extendedPictographic
  | eZwg
  deriving DecidableEq, Repr

/-- `utf8proc_properties`, as far as the layout reads it. -/
class Data where
  boundclass : ℕ → BoundClass
  /-- The category is `UTF8PROC_CATEGORY_ZS`. -/
  isZs : ℕ → Bool
  boundclass_space : boundclass 0x20 = .other

/-- `grapheme_break_simple`. -/
def graphemeBreakSimple (lbc tbc : BoundClass) : Bool :=
  if lbc = .start then true
  else if lbc = .cr ∧ tbc = .lf then false
  else if lbc = .cr ∨ lbc = .lf ∨ lbc = .control then true
  else if tbc = .cr ∨ tbc = .lf ∨ tbc = .control then true
  else if lbc = .l ∧ (tbc = .l ∨ tbc = .v ∨ tbc = .lv ∨ tbc = .lvt) then false
  else if (lbc = .lv ∨ lbc = .v) ∧ (tbc = .v ∨ tbc = .t) then false
  else if (lbc = .lvt ∨ lbc = .t) ∧ tbc = .t then false
  else if tbc = .extend ∨ tbc = .zwj ∨ tbc = .spacingMark ∨ lbc = .prepend then false
  else if lbc = .eZwg ∧ tbc = .extendedPictographic then false
  else if lbc = .regionalIndicator ∧ tbc = .regionalIndicator then false
  else true

/-- What `grapheme_break_extended` leaves in its state. -/
def nextState (state tbc : BoundClass) : BoundClass :=
  if state = tbc ∧ tbc = .regionalIndicator then .other
  else if state = .extendedPictographic then
    if tbc = .extend then .extendedPictographic
    else if tbc = .zwj then .eZwg
    else tbc
  else tbc

/-- `grapheme_break_extended`: whether a cluster ends between the two, and the state. -/
def graphemeBreakExtended (lbc tbc state : BoundClass) : Bool × BoundClass :=
  let state := if state = .start then lbc else state
  (graphemeBreakSimple state tbc, nextState state tbc)

/-- Where a cluster begins, only its own class is kept. -/
lemma nextState_of_break {state tbc : BoundClass} (h : graphemeBreakSimple state tbc = true) :
    nextState state tbc = tbc := by
  unfold nextState
  split_ifs with hri hpict hextend hzwj
  · obtain ⟨rfl, rfl⟩ := hri
    cases h
  · subst hpict hextend
    cases h
  · subst hpict hzwj
    cases h
  · rfl
  · rfl

lemma eq_start_of_nextState {state tbc : BoundClass} (h : nextState state tbc = .start) :
    tbc = .start := by
  unfold nextState at h
  split_ifs at h
  · exact h
  · exact h

section Clusters

variable [Data]

open Data

/-- The loop of `GraphemeBoundaries`, from the code point `cp` that ends at `pos`. -/
def boundaryLoop (s : List UInt8) : ℕ → ℕ → ℕ → BoundClass → List ℕ
  | 0, _, _, _ => []
  | fuel + 1, pos, cp, state =>
      if pos < s.length then
        let (nextLen, nextCp) := decodeAt s pos
        let (breaks, state) := graphemeBreakExtended (boundclass cp) (boundclass nextCp) state
        (if breaks then [pos] else []) ++ boundaryLoop s fuel (pos + nextLen) nextCp state
      else []

def graphemeBoundaries (s : List UInt8) : List ℕ :=
  if s = [] then [0]
  else
    let (len, cp) := decodeAt s 0
    0 :: boundaryLoop s s.length len cp .start ++ [s.length]

def countGraphemes (s : List UInt8) : ℕ := (graphemeBoundaries s).length - 1

/-- `substr`. -/
def substr (s : List UInt8) (pos n : ℕ) : List UInt8 := (s.drop pos).take n

def truncateGraphemes (s : List UInt8) (n : ℕ) : List UInt8 :=
  let bounds := graphemeBoundaries s
  let idx := min n (bounds.length - 1)
  substr s 0 (bounds.getD idx 0)

/-- The clusters of a text, between its boundaries. -/
def clusters (s : List UInt8) : List (List UInt8) :=
  let bounds := graphemeBoundaries s
  (List.range (bounds.length - 1)).map fun i =>
    substr s (bounds.getD i 0) (bounds.getD (i + 1) 0 - bounds.getD i 0)

/-! ## The machine behind the loop -/

/-- The state with which `grapheme_break_extended` goes on. -/
def effective (cp : ℕ) (state : BoundClass) : BoundClass :=
  if state = .start then boundclass cp else state

def clusterBreaker : Breaker BoundClass Decoded where
  start d := boundclass d.cp
  breaks state d := graphemeBreakSimple state (boundclass d.cp)
  next state d := nextState state (boundclass d.cp)
  forgets _ _ h := nextState_of_break h

lemma effective_nextState (state : BoundClass) (cp : ℕ) :
    effective cp (nextState state (boundclass cp)) = nextState state (boundclass cp) := by
  unfold effective
  split_ifs with h
  · rw [h, eq_start_of_nextState h]
  · rfl

lemma boundaryLoop_eq (s : List UInt8) (fuel pos cp : ℕ) (state : BoundClass)
    (group : List Decoded) (q : ℕ) (hq : q + (bytesOf group).length = pos) (hpos : pos ≤ s.length)
    (hfuel : s.length - pos ≤ fuel) :
    boundaryLoop s fuel pos cp state ++ [s.length] =
      Breaks.ends q
        ((clusterBreaker.groupsFrom (effective cp state) group (decodeAll (s.drop pos))).map
          bytesOf) := by
  induction fuel generalizing pos cp state group q with
  | zero =>
      obtain rfl : pos = s.length := by omega
      rw [boundaryLoop, List.drop_length, decodeAll_nil]
      simp [Breaker.groupsFrom, Breaks.ends, hq]
  | succ fuel ih =>
      rw [boundaryLoop]
      by_cases hlt : pos < s.length
      · have hne : s.drop pos ≠ [] := by
          rw [Ne, List.drop_eq_nil_iff]
          omega
        have hdecode : decodeAt s pos = decodeAt (s.drop pos) 0 := by
          rw [decodeAt, decodeAt, List.drop_zero]
        have hlen := decodeAt_length hne
        rw [List.length_drop] at hlen
        rw [if_pos hlt, hdecode, decodeAll_of_ne_nil hne, List.drop_drop, Breaker.groupsFrom]
        set len := (decodeAt (s.drop pos) 0).1
        set next := (decodeAt (s.drop pos) 0).2
        set d : Decoded := ⟨(s.drop pos).take len, next⟩
        have hd : (bytesOf [d]).length = len := by
          show (((s.drop pos).take len) ++ []).length = len
          rw [List.append_nil, List.length_take, List.length_drop]
          omega
        show (if graphemeBreakSimple (effective cp state) (boundclass next) then [pos] else []) ++
          boundaryLoop s fuel (pos + len) next
            (nextState (effective cp state) (boundclass next)) ++ [s.length] = _
        have hstate := effective_nextState (effective cp state) next
        by_cases hbreak : graphemeBreakSimple (effective cp state) (boundclass next) = true
        · have hih := ih (pos + len) next (nextState (effective cp state) (boundclass next)) [d] pos
            (by rw [hd]) (by omega) (by omega)
          rw [hstate] at hih
          rw [if_pos hbreak, List.append_assoc, hih, if_pos (show clusterBreaker.breaks _ d = true
            from hbreak), List.map_cons, Breaks.ends, hq]
          rfl
        · have hih := ih (pos + len) next (nextState (effective cp state) (boundclass next))
            (group ++ [d]) q (by rw [bytesOf_append, List.length_append, hd]; omega) (by omega)
            (by omega)
          rw [hstate] at hih
          rw [if_neg hbreak, List.nil_append, hih, if_neg (show ¬ clusterBreaker.breaks _ d = true
            from hbreak)]
          rfl
      · obtain rfl : pos = s.length := by omega
        rw [if_neg hlt, List.drop_length, decodeAll_nil]
        simp [Breaker.groupsFrom, Breaks.ends, hq]

/-- The clusters that the machine makes of a text. -/
def grouped (s : List UInt8) : List (List UInt8) :=
  (clusterBreaker.groups (decodeAll s)).map bytesOf

/-- The boundaries are where the machine's clusters begin and end. -/
theorem graphemeBoundaries_eq (s : List UInt8) :
    graphemeBoundaries s = Breaks.offsets (grouped s) := by
  unfold graphemeBoundaries
  by_cases hs : s = []
  · rw [if_pos hs, hs, grouped, decodeAll_nil]
    rfl
  · have hlen := decodeAt_length hs
    have hloop := boundaryLoop_eq s s.length (decodeAt s 0).1 (decodeAt s 0).2 .start
      [⟨s.take (decodeAt s 0).1, (decodeAt s 0).2⟩] 0
      (by
        rw [bytesOf_cons, bytesOf_nil, List.append_nil, List.length_take]
        omega) hlen.2 (by omega)
    rw [if_neg hs, grouped, decodeAll_of_ne_nil hs, Breaks.offsets]
    exact congrArg (0 :: ·) hloop

omit [Data] in
lemma flatten_map_bytesOf (gs : List (List Decoded)) :
    (gs.map bytesOf).flatten = bytesOf gs.flatten := by
  induction gs with
  | nil => rfl
  | cons g gs ih => rw [List.map_cons, List.flatten_cons, List.flatten_cons, ih, bytesOf_append]

lemma flatten_grouped (s : List UInt8) : (grouped s).flatten = s := by
  rw [grouped, flatten_map_bytesOf, Breaker.flatten_groups, bytesOf_decodeAll]

lemma clusters_eq (s : List UInt8) : clusters s = grouped s := by
  have hslices := Breaks.slices_offsets (grouped s)
  rw [flatten_grouped] at hslices
  conv_rhs => rw [← hslices]
  rw [clusters, graphemeBoundaries_eq, Breaks.length_offsets, Nat.add_sub_cancel]
  rfl

lemma graphemeBoundaries_eq_offsets (s : List UInt8) :
    graphemeBoundaries s = Breaks.offsets (clusters s) := by
  rw [clusters_eq, graphemeBoundaries_eq]

lemma countGraphemes_eq (s : List UInt8) : countGraphemes s = (clusters s).length := by
  rw [countGraphemes, graphemeBoundaries_eq_offsets, Breaks.length_offsets, Nat.add_sub_cancel]

/-! ## The clusters of a text -/

@[simp] lemma flatten_clusters (s : List UInt8) : (clusters s).flatten = s := by
  rw [clusters_eq, flatten_grouped]

/-- Clusters that follow each other in a text are the clusters of what they make up. -/
theorem clusters_slice (s : List UInt8) (i n : ℕ) :
    clusters (((clusters s).drop i).take n).flatten = ((clusters s).drop i).take n := by
  have hsplit : decodeAll s =
      ((clusterBreaker.groups (decodeAll s)).take i).flatten ++
        ((((clusterBreaker.groups (decodeAll s)).drop i).take n).flatten ++
          (((clusterBreaker.groups (decodeAll s)).drop i).drop n).flatten) := by
    rw [← List.flatten_append, List.take_append_drop, ← List.flatten_append,
      List.take_append_drop, clusterBreaker.flatten_groups]
  have hmiddle := decodeAll_bytesOf_left (decodeAll_bytesOf_right hsplit)
  rw [clusters_eq, clusters_eq, grouped, grouped, ← List.map_drop, ← List.map_take,
    flatten_map_bytesOf, hmiddle, clusterBreaker.groups_slice]

lemma resets_space : clusterBreaker.Resets ⟨[0x20], 0x20⟩ where
  next state := by
    show nextState state (boundclass 0x20) = boundclass 0x20
    rw [boundclass_space]
    unfold nextState
    simp
  start d := by
    show nextState (boundclass 0x20) (boundclass d.cp) = boundclass d.cp
    rw [boundclass_space]
    unfold nextState
    rw [if_neg, if_neg (by decide)]
    rintro ⟨hother, hri⟩
    rw [hri] at hother
    cases hother

/-- A space between two texts adds at most one cluster to theirs. -/
theorem countGraphemes_append_space (a b : List UInt8) :
    countGraphemes (a ++ 0x20 :: b) ≤ countGraphemes a + 1 + countGraphemes b := by
  have hle := clusterBreaker.length_groups_append_le resets_space (decodeAll a) (decodeAll b)
  rw [countGraphemes_eq, countGraphemes_eq, countGraphemes_eq, clusters_eq, clusters_eq,
    clusters_eq, grouped, grouped, grouped, decodeAll_append_space, List.length_map,
    List.length_map, List.length_map]
  exact hle

instance deviceSegmentation : Segmentation UInt8 where
  clusters := clusters
  flatten_clusters := flatten_clusters
  clusters_take s n := clusters_slice s 0 n

/-- `TruncateGraphemes` keeps the first clusters. -/
lemma truncateGraphemes_eq (s : List UInt8) (n : ℕ) :
    truncateGraphemes s n = Segmentation.first n s := by
  have hoffset : (Breaks.offsets (clusters s)).getD (min n (clusters s).length) 0 =
      ((clusters s).take n).flatten.length := by
    rw [Breaks.getD_offsets (Nat.min_le_right _ _), ← List.take_eq_take_min]
  have hsplit : ((clusters s).take n).flatten ++ ((clusters s).drop n).flatten = s := by
    rw [← List.flatten_append, List.take_append_drop, flatten_clusters]
  rw [truncateGraphemes, substr, List.drop_zero, graphemeBoundaries_eq_offsets,
    Breaks.length_offsets, Nat.add_sub_cancel, hoffset]
  nth_rewrite 2 [← hsplit]
  rw [List.take_left]
  rfl

end Clusters

namespace Sample

/-- The table, for the letters of a few scripts and the marks on them. -/
@[reducible]
def data : Data where
  boundclass cp :=
    if cp = 0x0D then .cr
    else if cp = 0x0A then .lf
    else if cp < 0x20 ∨ cp = 0x7F then .control
    else if 0x300 ≤ cp ∧ cp < 0x370 then .extend
    else .other
  isZs cp := cp = 0x20 || cp = 0xA0 || cp = 0x3000
  boundclass_space := by decide

end Sample
end Chaskiwasi.Device.Utf8proc
