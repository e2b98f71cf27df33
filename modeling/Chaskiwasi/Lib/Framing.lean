import Mathlib.Data.List.Basic
import Mathlib.Data.List.Infix
import Mathlib.Tactic.Common

/-!
# Frames in a stream of symbols

A frame starts with a fixed word, the magic, and a header that declares its length; the whole of it
is checked before it is believed.  A reader that does not know where it is in a stream looks for the
magic, and on anything that is not a frame drops one symbol and looks again.

`next` is that reader on a buffer, `drain` takes every frame out of one.  It does not matter how a
stream is cut into pieces on its way into the buffer (`drain_append`): what a piece decides, later
pieces do not change.  And where the magic does not overlap with itself, frames that are separated
by arbitrary text without a magic in it come out as they went in (`drain_weave`).
A stream may also grow under its reader (`drain_append_noise`, `drain_append_frame`).
-/

/-- A frame format over an alphabet. -/
structure Framing (α : Type*) where
  magic : List α
  /-- The length of the magic and the header. -/
  header : ℕ
  /-- The length of the whole frame, from its header; `none` is refused. -/
  declared : List α → Option ℕ
  /-- Whether a whole frame is believed. -/
  accepts : List α → Bool
  magic_le : magic.length ≤ header
  header_pos : 0 < header
  le_declared : ∀ h n, declared h = some n → header ≤ n

namespace Framing

variable {α : Type*} [DecidableEq α] (f : Framing α)

/-- Drops symbols up to the first magic, or up to what may still become one. -/
def seek : List α → List α
  | [] => []
  | x :: xs =>
      if f.magic <+: x :: xs ∨ xs.length + 1 < f.magic.length then x :: xs else seek xs

lemma length_seek_le (buf : List α) : (f.seek buf).length ≤ buf.length := by
  induction buf with
  | nil => exact le_rfl
  | cons x xs ih =>
      rw [seek]
      split_ifs
      · exact le_rfl
      · exact le_trans ih (by simp)

lemma length_drop_seek_lt {buf : List α} (h : ¬ (f.seek buf).length < f.header) :
    ((f.seek buf).drop 1).length < buf.length := by
  have hle := f.length_seek_le buf
  have hpos := f.header_pos
  rw [List.length_drop]
  omega

/-- The first frame in a buffer, and what is left of the buffer. -/
def next (buf : List α) : Option (List α) × List α :=
  if _h : (f.seek buf).length < f.header then (none, f.seek buf)
  else
    match f.declared ((f.seek buf).take f.header) with
    | none => next ((f.seek buf).drop 1)
    | some n =>
        if (f.seek buf).length < n then (none, f.seek buf)
        else if f.accepts ((f.seek buf).take n) then
          (some ((f.seek buf).take n), (f.seek buf).drop n)
        else next ((f.seek buf).drop 1)
termination_by buf.length
decreasing_by
  · exact f.length_drop_seek_lt _h
  · exact f.length_drop_seek_lt _h

variable {f}

/-! ## Cutting a stream anywhere -/

lemma seek_of_prefix {buf : List α} (h : f.magic <+: buf) : f.seek buf = buf := by
  cases buf with
  | nil => rfl
  | cons x xs => rw [seek, if_pos (Or.inl h)]

/-- Looking for the magic in a piece first loses none. -/
lemma seek_append (buf more : List α) : f.seek (buf ++ more) = f.seek (f.seek buf ++ more) := by
  induction buf with
  | nil => rfl
  | cons x xs ih =>
      by_cases hstop : f.magic <+: x :: xs ∨ xs.length + 1 < f.magic.length
      · rw [show f.seek (x :: xs) = x :: xs by rw [seek, if_pos hstop]]
      · rw [show f.seek (x :: xs) = f.seek xs by rw [seek, if_neg hstop], ← ih]
        rw [not_or, not_lt] at hstop
        have hnot : ¬ (f.magic <+: x :: (xs ++ more) ∨
            (xs ++ more).length + 1 < f.magic.length) := by
          rintro (hstart | hlength)
          · refine hstop.1 (List.prefix_of_prefix_length_le hstart ?_ (by simpa using hstop.2))
            exact List.prefix_append (x :: xs) more
          · rw [List.length_append] at hlength
            omega
        show f.seek (x :: (xs ++ more)) = _
        rw [seek, if_neg hnot]

lemma seek_seek (buf : List α) : f.seek (f.seek buf) = f.seek buf := by
  have h := f.seek_append buf []
  rw [List.append_nil, List.append_nil] at h
  exact h.symm

/-- Only what follows the first magic matters. -/
lemma next_seek (buf : List α) : f.next (f.seek buf) = f.next buf := by
  rw [next.eq_def f (f.seek buf), next.eq_def f buf, seek_seek]

lemma next_append_seek (buf more : List α) :
    f.next (buf ++ more) = f.next (f.seek buf ++ more) := by
  rw [← next_seek, seek_append, next_seek]

/-- What the reader does with a buffer once it has found the magic.  A piece decides as much as it
holds: a frame, or a refused candidate, whatever follows; and otherwise it waits. -/
lemma next_cases (buf : List α) :
    (f.next buf = (none, f.seek buf) ∧ ((f.seek buf).length < f.header ∨
      ∃ n, f.declared ((f.seek buf).take f.header) = some n ∧ (f.seek buf).length < n)) ∨
    (∃ n, f.declared ((f.seek buf).take f.header) = some n ∧ f.header ≤ (f.seek buf).length ∧
      n ≤ (f.seek buf).length ∧ f.accepts ((f.seek buf).take n) = true ∧
      f.next buf = (some ((f.seek buf).take n), (f.seek buf).drop n)) ∨
    (f.header ≤ (f.seek buf).length ∧ f.next buf = f.next ((f.seek buf).drop 1) ∧
      (f.declared ((f.seek buf).take f.header) = none ∨
        ∃ n, f.declared ((f.seek buf).take f.header) = some n ∧ n ≤ (f.seek buf).length ∧
          f.accepts ((f.seek buf).take n) = false)) := by
  rw [next.eq_def f buf]
  by_cases hshort : (f.seek buf).length < f.header
  · rw [dif_pos hshort]
    exact Or.inl ⟨rfl, Or.inl hshort⟩
  · rw [dif_neg hshort]
    have hlong : f.header ≤ (f.seek buf).length := not_lt.1 hshort
    cases hdeclared : f.declared ((f.seek buf).take f.header) with
    | none => exact Or.inr (Or.inr ⟨hlong, rfl, Or.inl rfl⟩)
    | some n =>
        dsimp only
        by_cases hwait : (f.seek buf).length < n
        · rw [if_pos hwait]
          exact Or.inl ⟨rfl, Or.inr ⟨n, rfl, hwait⟩⟩
        · rw [if_neg hwait]
          cases haccepts : f.accepts ((f.seek buf).take n) with
          | true => exact Or.inr (Or.inl ⟨n, rfl, hlong, not_lt.1 hwait, haccepts, rfl⟩)
          | false => exact Or.inr (Or.inr ⟨hlong, rfl, Or.inr ⟨n, rfl, not_lt.1 hwait, haccepts⟩⟩)

lemma prefix_seek_or_short (buf : List α) :
    f.magic <+: f.seek buf ∨ (f.seek buf).length < f.magic.length := by
  induction buf with
  | nil =>
      rcases Nat.eq_zero_or_pos f.magic.length with hnil | hpos
      · exact Or.inl (by rw [List.length_eq_zero_iff.1 hnil]; exact List.nil_prefix)
      · exact Or.inr hpos
  | cons x xs ih =>
      rw [seek]
      split_ifs with hstop
      · exact hstop
      · exact ih

lemma prefix_seek {buf : List α} (h : f.header ≤ (f.seek buf).length) : f.magic <+: f.seek buf := by
  rcases f.prefix_seek_or_short buf with hstart | hshort
  · exact hstart
  · have hle := f.magic_le
    omega

section Start

variable {b : List α} {n : ℕ}

/-- A frame at the start of a buffer. -/
lemma next_of_frame (hmagic : f.magic <+: b) (hlong : f.header ≤ b.length)
    (hdeclared : f.declared (b.take f.header) = some n) (hn : n ≤ b.length)
    (haccepts : f.accepts (b.take n) = true) : f.next b = (some (b.take n), b.drop n) := by
  rw [next.eq_def f b, seek_of_prefix hmagic, dif_neg (not_lt.2 hlong), hdeclared]
  dsimp only
  rw [if_neg (not_lt.2 hn), if_pos haccepts]

/-- What is refused at the start of a buffer. -/
lemma next_of_refused (hmagic : f.magic <+: b) (hlong : f.header ≤ b.length)
    (hrefused : f.declared (b.take f.header) = none ∨
      ∃ n, f.declared (b.take f.header) = some n ∧ n ≤ b.length ∧
        f.accepts (b.take n) = false) : f.next b = f.next (b.drop 1) := by
  rw [next.eq_def f b, seek_of_prefix hmagic, dif_neg (not_lt.2 hlong)]
  rcases hrefused with hnone | ⟨n, hdeclared, hn, haccepts⟩
  · rw [hnone]
  · rw [hdeclared]
    dsimp only
    rw [if_neg (not_lt.2 hn), haccepts, if_neg (by simp)]

end Start

/-- What a piece decides, later pieces do not change; where it decides nothing, what it leaves is
all that matters of it. -/
theorem next_append (buf more : List α) :
    f.next (buf ++ more) =
      match f.next buf with
      | (some fr, rest) => (some fr, rest ++ more)
      | (none, rest) => f.next (rest ++ more) := by
  induction hlength : buf.length using Nat.strong_induction_on generalizing buf with
  | _ k ih =>
      have hpiece : ∀ b : List α, f.header ≤ b.length →
          (b ++ more).take f.header = b.take f.header := fun b hb =>
        List.take_append_of_le_length hb
      rw [next_append_seek]
      rcases f.next_cases buf with ⟨hnext, -⟩ | ⟨n, hdeclared, hlong, hn, haccepts, hnext⟩ |
        ⟨hlong, hnext, hrefused⟩
      · rw [hnext]
      · have hmagic := (prefix_seek hlong).trans (List.prefix_append (f.seek buf) more)
        have htake : (f.seek buf ++ more).take n = (f.seek buf).take n :=
          List.take_append_of_le_length hn
        rw [hnext, next_of_frame hmagic (n := n)]
        · rw [htake, List.drop_append_of_le_length hn]
        · rw [List.length_append]
          omega
        · rw [hpiece _ hlong, hdeclared]
        · rw [List.length_append]
          omega
        · rw [htake, haccepts]
      · have hmagic := (prefix_seek hlong).trans (List.prefix_append (f.seek buf) more)
        have hone : 1 ≤ (f.seek buf).length := le_trans f.header_pos hlong
        rw [hnext, next_of_refused hmagic, List.drop_append_of_le_length hone]
        · refine ih _ ?_ _ rfl
          rw [← hlength]
          exact f.length_drop_seek_lt (not_lt.2 hlong)
        · rw [List.length_append]
          omega
        · rw [hpiece _ hlong]
          rcases hrefused with hnone | ⟨n, hdeclared, hn, haccepts⟩
          · exact Or.inl hnone
          · refine Or.inr ⟨n, hdeclared, ?_, ?_⟩
            · rw [List.length_append]
              omega
            · rw [List.take_append_of_le_length hn, haccepts]

lemma length_next_lt {buf fr rest : List α} (h : f.next buf = (some fr, rest)) :
    rest.length < buf.length := by
  induction hlength : buf.length using Nat.strong_induction_on generalizing buf with
  | _ k ih =>
      have hle := f.length_seek_le buf
      rcases f.next_cases buf with ⟨hnext, -⟩ | ⟨n, hdeclared, hlong, -, -, hnext⟩ |
        ⟨hlong, hnext, -⟩
      · rw [hnext] at h
        cases h
      · rw [hnext] at h
        obtain rfl := (Prod.mk.inj h).2
        have hn := f.le_declared _ _ hdeclared
        have hpos := f.header_pos
        rw [List.length_drop]
        omega
      · have hlt := f.length_drop_seek_lt (not_lt.2 hlong)
        rw [hnext] at h
        exact lt_trans (ih _ (hlength ▸ hlt) h rfl) (hlength ▸ hlt)

lemma length_next_le (buf : List α) : (f.next buf).2.length ≤ buf.length := by
  induction hlength : buf.length using Nat.strong_induction_on generalizing buf with
  | _ k ih =>
      have hle := f.length_seek_le buf
      rcases f.next_cases buf with ⟨hnext, -⟩ | ⟨n, -, -, -, -, hnext⟩ | ⟨hlong, hnext, -⟩
      · rw [hnext, ← hlength]
        exact hle
      · rw [hnext, ← hlength, List.length_drop]
        omega
      · have hlt := f.length_drop_seek_lt (not_lt.2 hlong)
        rw [hnext, ← hlength]
        exact le_trans (ih _ (hlength ▸ hlt) _ rfl) (le_of_lt hlt)

variable (f) in
/-- Every frame in a buffer, and what is left of the buffer. -/
def drain (buf : List α) : List (List α) × List α :=
  match _h : f.next buf with
  | (none, rest) => ([], rest)
  | (some fr, rest) => (fr :: (drain rest).1, (drain rest).2)
termination_by buf.length
decreasing_by exact length_next_lt _h

lemma drain_of_none {buf rest : List α} (h : f.next buf = (none, rest)) :
    f.drain buf = ([], rest) := by
  rw [drain.eq_def f buf]
  split
  next rest' h' =>
    obtain rfl := (Prod.mk.inj (h.symm.trans h')).2
    rfl
  next fr rest' h' =>
    rw [h] at h'
    cases h'

lemma drain_of_some {buf fr rest : List α} (h : f.next buf = (some fr, rest)) :
    f.drain buf = (fr :: (f.drain rest).1, (f.drain rest).2) := by
  rw [drain.eq_def f buf]
  split
  next rest' h' =>
    rw [h] at h'
    cases h'
  next fr' rest' h' =>
    obtain ⟨hfr, rfl⟩ := Prod.mk.inj (h.symm.trans h')
    obtain rfl := Option.some.inj hfr
    rfl

/-- A stream may be taken out piece by piece. -/
theorem drain_append (buf more : List α) :
    f.drain (buf ++ more) =
      ((f.drain buf).1 ++ (f.drain ((f.drain buf).2 ++ more)).1,
        (f.drain ((f.drain buf).2 ++ more)).2) := by
  induction hlength : buf.length using Nat.strong_induction_on generalizing buf with
  | _ k ih =>
      have happend := f.next_append buf more
      cases hnext : f.next buf with
      | mk fr rest =>
          rw [hnext] at happend
          cases fr with
          | none =>
              rw [drain_of_none hnext, List.nil_append]
              cases hlater : f.next (rest ++ more) with
              | mk fr' rest' =>
                  have hboth : f.next (buf ++ more) = (fr', rest') := happend.trans hlater
                  cases fr' with
                  | none => rw [drain_of_none hboth, drain_of_none hlater]
                  | some fr' => rw [drain_of_some hboth, drain_of_some hlater]
          | some fr =>
              rw [drain_of_some hnext, drain_of_some happend,
                ih rest.length (hlength ▸ length_next_lt hnext) rest rfl, List.cons_append]

/-- What is left holds no frame. -/
lemma drain_drain (buf : List α) : (f.drain (f.drain buf).2).1 = [] := by
  have h := f.drain_append buf []
  rw [List.append_nil, List.append_nil] at h
  have hfirst := congrArg Prod.fst h
  dsimp only at hfirst
  exact List.self_eq_append_right.1 hfirst

variable (f) in
/-- A stream that arrives in pieces: every frame is taken out as soon as it is there. -/
def feed : List α → List (List α) → List (List α)
  | _, [] => []
  | buf, piece :: pieces =>
      (f.drain (buf ++ piece)).1 ++ feed (f.drain (buf ++ piece)).2 pieces

/-- The frames of a stream do not depend on how it was cut into pieces. -/
theorem feed_eq {buf : List α} (h : (f.drain buf).1 = []) (pieces : List (List α)) :
    f.feed buf pieces = (f.drain (buf ++ pieces.flatten)).1 := by
  induction pieces generalizing buf with
  | nil =>
      rw [List.flatten_nil, List.append_nil, h]
      rfl
  | cons piece pieces ih =>
      rw [List.flatten_cons, ← List.append_assoc, drain_append, ← ih (drain_drain _)]
      rfl

/-! ## Frames among noise -/

variable (f) in
/-- The magic starts nowhere inside itself. -/
def Unbordered : Prop :=
  ∀ k, 0 < k → k < f.magic.length → ¬ f.magic.drop k <+: f.magic

variable (f) in
/-- A whole frame, and nothing else. -/
structure IsFrame (fr : List α) : Prop where
  magic : f.magic <+: fr
  header_le : f.header ≤ fr.length
  declared : f.declared (fr.take f.header) = some fr.length
  accepts : f.accepts fr = true

lemma seek_suffix (buf : List α) : f.seek buf <:+ buf := by
  induction buf with
  | nil => exact List.suffix_refl _
  | cons x xs ih =>
      rw [seek]
      split_ifs
      · exact List.suffix_refl _
      · exact ih.trans (List.suffix_cons x xs)

/-- Noise before a frame is skipped, whatever it ends in. -/
lemma seek_noise (hborder : f.Unbordered) {noise b : List α} (hnoise : ¬ f.magic <:+: noise)
    (hb : f.magic <+: b) : f.seek (noise ++ b) = b := by
  induction noise with
  | nil => exact seek_of_prefix hb
  | cons x xs ih =>
      have hxs : ¬ f.magic <:+: xs := fun h => hnoise (h.trans (List.suffix_cons x xs).isInfix)
      have hle := hb.length_le
      have hnot : ¬ (f.magic <+: x :: (xs ++ b) ∨ (xs ++ b).length + 1 < f.magic.length) := by
        rintro (hstart | hlength)
        · rcases Nat.lt_or_ge (x :: xs).length f.magic.length with hlt | hge
          · -- The magic would start in the noise and end in the frame's own magic.
            have hdrop : f.magic.drop (x :: xs).length <+: b := by
              have h := hstart.drop (x :: xs).length
              rwa [← List.cons_append, List.drop_left] at h
            refine hborder _ (Nat.succ_pos _) hlt ?_
            exact List.prefix_of_prefix_length_le hdrop hb (by simp)
          · refine hnoise (List.IsPrefix.isInfix ?_)
            exact List.prefix_of_prefix_length_le hstart (List.prefix_append (x :: xs) b) hge
        · rw [List.length_append] at hlength
          omega
      show f.seek (x :: (xs ++ b)) = b
      rw [seek, if_neg hnot, ih hxs]

/-- Frames, each after some noise, and noise at the end. -/
def weave : List (List α × List α) → List α → List α
  | [], last => last
  | (noise, fr) :: parts, last => noise ++ (fr ++ weave parts last)

lemma next_noise {noise : List α} (h : ¬ f.magic <:+: noise) :
    f.next noise = (none, f.seek noise) := by
  have hshort : (f.seek noise).length < f.header := by
    rcases f.prefix_seek_or_short noise with hstart | hshort
    · exact absurd (hstart.isInfix.trans (f.seek_suffix noise).isInfix) h
    · exact lt_of_lt_of_le hshort f.magic_le
  rw [next.eq_def, dif_pos hshort]

/-- Noise holds no frame. -/
lemma drain_noise {noise : List α} (h : ¬ f.magic <:+: noise) : (f.drain noise).1 = [] := by
  rw [drain_of_none (next_noise h)]

/-- Frames come out of any noise as they went in. -/
theorem drain_weave (hborder : f.Unbordered) {parts : List (List α × List α)} {last : List α}
    (hparts : ∀ p ∈ parts, ¬ f.magic <:+: p.1 ∧ f.IsFrame p.2) (hlast : ¬ f.magic <:+: last) :
    (f.drain (weave parts last)).1 = parts.map Prod.snd := by
  induction parts with
  | nil => exact drain_noise hlast
  | cons p parts ih =>
      obtain ⟨hnoise, hframe⟩ := hparts p (List.mem_cons_self ..)
      have hmagic := hframe.magic.trans (List.prefix_append p.2 (weave parts last))
      have hle : p.2.length ≤ (p.2 ++ weave parts last).length := by simp
      have hnext : f.next (p.2 ++ weave parts last) = (some p.2, weave parts last) := by
        rw [next_of_frame hmagic (le_trans hframe.header_le hle) (n := p.2.length) ?_ hle]
        · rw [List.take_left, List.drop_left]
        · rw [List.take_left, hframe.accepts]
        · rw [List.take_append_of_le_length hframe.header_le, hframe.declared]
      have hwhole : f.next (weave (p :: parts) last) = (some p.2, weave parts last) := by
        rw [show weave (p :: parts) last = p.1 ++ (p.2 ++ weave parts last) from rfl, ← next_seek,
          seek_noise hborder hnoise hmagic, hnext]
      rw [drain_of_some hwhole, List.map_cons,
        ih fun q hq => hparts q (List.mem_cons_of_mem _ hq)]

/-! ## A stream that grows -/

/-- Noise that is written to a stream brings no frame, as long as it spells no magic together with
what the reader would keep. -/
theorem drain_append_noise {buf noise : List α} (h : ¬ f.magic <:+: (f.drain buf).2 ++ noise) :
    (f.drain (buf ++ noise)).1 = (f.drain buf).1 ∧ ¬ f.magic <:+: (f.drain (buf ++ noise)).2 := by
  rw [drain_append, drain_of_none (next_noise h)]
  refine ⟨List.append_nil _, fun hmagic => h ?_⟩
  exact hmagic.trans (f.seek_suffix _).isInfix

/-- A frame that is written to a stream is its last one, and nothing is left behind it. -/
theorem drain_append_frame (hborder : f.Unbordered) {buf fr : List α}
    (h : ¬ f.magic <:+: (f.drain buf).2) (hfr : f.IsFrame fr) :
    f.drain (buf ++ fr) = ((f.drain buf).1 ++ [fr], []) := by
  have hnext : f.next ((f.drain buf).2 ++ fr) = (some fr, []) := by
    rw [← next_seek, seek_noise hborder h hfr.magic, next_of_frame hfr.magic hfr.header_le
      (n := fr.length) hfr.declared le_rfl]
    · rw [List.take_length, List.drop_length]
    · rw [List.take_length, hfr.accepts]
  have hnil : f.drain [] = ([], []) :=
    drain_of_none (next_noise fun hmagic => h (hmagic.trans (List.nil_infix)))
  rw [drain_append, drain_of_some hnext, hnil]

end Framing
