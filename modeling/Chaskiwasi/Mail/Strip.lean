import Chaskiwasi.Ayllu.Address
import Mathlib.Data.List.DropRight

/-!
# Quote stripping without the strip service

Where the strip service does not answer, the server has two narrow rules of its own: leading quoted
lines go, and so does what follows a signature delimiter.  Both go by lines, and so does the removal
of soft line breaks in front of them; each takes the text apart anew.

A line is what stands between two newlines, so a carriage return before the newline belongs to it.
The soft breaks' pass takes it off, the others do not, and a delimiter with a carriage return is not
the delimiter: text that is not flowed is cut in one form and not in the other
(`formsAgree_false_iff`).  And blank lines count as quoted, so a plain letter that begins with
one is not returned as it was.
-/

namespace Chaskiwasi.Mail.Strip

/-! ## The two rules -/

def splitLines (text : List Char) : List (List Char) := text.splitOn '\n'

def joinLines (lines : List (List Char)) : List Char := List.intercalate ['\n'] lines

/-- Dash, dash, exactly one space. -/
def signatureDelimiter : List Char := ['-', '-', ' ']

structure Result where
  body : List Char
  trimmed : Bool
  degraded : Bool
  deriving DecidableEq, Repr

def isQuoted (line : List Char) : Bool := line.head? = some '>'

def isBlank (line : List Char) : Bool := trimSpace line = []

/-- Drops the leading quoted lines, and any blank lines between them. -/
def dropLeadingQuoted (text : List Char) : List Char :=
  joinLines ((splitLines text).dropWhile fun line => isQuoted line || isBlank line)

/-- Drops everything from the first signature delimiter on. -/
def cutAtSignature (text : List Char) : List Char :=
  if signatureDelimiter ∈ splitLines text then
    joinLines ((splitLines text).takeWhile fun line => line ≠ signatureDelimiter)
  else text

/-- `strings.TrimSuffix` of a carriage return. -/
def trimCR (line : List Char) : List Char :=
  if line.getLast? = some '\r' then line.dropLast else line

def isSoftBreak (line : List Char) : Bool :=
  line.getLast? = some ' ' && decide (line ≠ signatureDelimiter)

/-- One more line: joined to the line before it where that ends softly, but never the delimiter. -/
def unwrapLine (out : List (List Char)) (raw : List Char) : List (List Char) :=
  let line := trimCR raw
  let line := if line.head? = some ' ' then line.drop 1 else line
  match out.getLast? with
  | some previous =>
      if line ≠ signatureDelimiter ∧ isSoftBreak previous = true then
        out.dropLast ++ [previous ++ line]
      else out ++ [line]
  | none => out ++ [line]

def unwrapFlowed (text : List Char) : List Char :=
  joinLines ((splitLines text).foldl unwrapLine [])

def fallback (text : List Char) (formatFlowed : Bool) : Result :=
  let working := if formatFlowed then unwrapFlowed text else text
  let trimmedBody := cutAtSignature (dropLeadingQuoted working)
  { body := trimmedBody, trimmed := decide (trimmedBody ≠ working), degraded := true }

/-! ## The two forms of a text -/

/-- Lines without the carriage returns of their line endings; the last line has no ending. -/
def bareLines : List (List Char) → List (List Char)
  | [] => []
  | [line] => [line]
  | line :: next :: rest => line.rdropWhile (fun c => c = '\r') :: bareLines (next :: rest)

/-- Lines with a carriage return before each newline. -/
def crLines : List (List Char) → List (List Char)
  | [] => []
  | [line] => [line]
  | line :: next :: rest => (line ++ ['\r']) :: crLines (next :: rest)

def lfForm (text : List Char) : List Char := joinLines (bareLines (splitLines text))

def crlfForm (text : List Char) : List Char := joinLines (crLines (bareLines (splitLines text)))

/-- The same lines, whatever their endings. -/
def SameLines (a b : List Char) : Prop := (splitLines a).map trimCR = (splitLines b).map trimCR

instance (a b : List Char) : Decidable (SameLines a b) := inferInstanceAs (Decidable (_ = _))

/-- The two forms of a text come to the same result, up to line endings. -/
def FormsAgree (text : List Char) (formatFlowed : Bool) : Prop :=
  SameLines (fallback (crlfForm text) formatFlowed).body
      (fallback (lfForm text) formatFlowed).body ∧
    (fallback (crlfForm text) formatFlowed).trimmed =
      (fallback (lfForm text) formatFlowed).trimmed

instance (text : List Char) (formatFlowed : Bool) : Decidable (FormsAgree text formatFlowed) :=
  inferInstanceAs (Decidable (_ ∧ _))

/-- Not flowed, no quoted line before the first line with words in it, and no delimiter. -/
def Plain (text : List Char) (formatFlowed : Bool) : Prop :=
  formatFlowed = false ∧
    (∀ line ∈ (splitLines text).takeWhile fun line => isQuoted line || isBlank line,
      isQuoted line = false) ∧
    signatureDelimiter ∉ splitLines text

instance (text : List Char) (formatFlowed : Bool) : Decidable (Plain text formatFlowed) :=
  inferInstanceAs (Decidable (_ ∧ _))

/-- A plain letter comes back as it was. -/
def PlainKept (text : List Char) (formatFlowed : Bool) : Prop :=
  Plain text formatFlowed →
    fallback text formatFlowed = { body := text, trimmed := false, degraded := true }

/-- The lines behind the leading quoted and blank ones. -/
def keptLines (lines : List (List Char)) : List (List Char) :=
  lines.dropWhile fun line => isQuoted line || isBlank line

/-! ## Lines -/

/-- Lines that a text can have: at least one, and no newline in any. -/
structure IsLines (lines : List (List Char)) : Prop where
  ne_nil : lines ≠ []
  newline : ∀ line ∈ lines, '\n' ∉ line

lemma newline_notMem_splitLines (text : List Char) : ∀ line ∈ splitLines text, '\n' ∉ line := by
  induction text with
  | nil =>
      intro line hline
      rw [List.mem_singleton.1 hline]
      exact List.not_mem_nil
  | cons c text ih =>
      intro line hline
      rw [splitLines, List.splitOn_cons_eq_if_modifyHead] at hline
      split_ifs at hline with hc
      · rcases List.mem_cons.1 hline with rfl | hline
        · exact List.not_mem_nil
        · exact ih line hline
      · rw [← splitLines] at hline
        cases hsplit : splitLines text with
        | nil =>
            rw [hsplit] at hline
            exact absurd hline List.not_mem_nil
        | cons first rest =>
            rw [hsplit] at hline ih
            rcases List.mem_cons.1 hline with rfl | hline
            · rw [List.mem_cons, not_or]
              exact ⟨fun heq => hc (beq_iff_eq.2 heq.symm), ih first List.mem_cons_self⟩
            · exact ih line (List.mem_cons_of_mem _ hline)

lemma isLines_splitLines (text : List Char) : IsLines (splitLines text) :=
  ⟨List.splitOn_ne_nil _ _, newline_notMem_splitLines text⟩

@[simp] lemma joinLines_splitLines (text : List Char) : joinLines (splitLines text) = text :=
  List.intercalate_splitOn '\n'

variable {lines : List (List Char)}

lemma IsLines.splitLines (h : IsLines lines) : splitLines (joinLines lines) = lines :=
  List.splitOn_intercalate '\n' h.newline h.ne_nil

lemma IsLines.of_subset {some : List (List Char)} (h : IsLines lines) (hne : some ≠ [])
    (hsub : some ⊆ lines) : IsLines some :=
  ⟨hne, fun line hline => h.newline line (hsub hline)⟩

/-- What both rules make of lines. -/
def strippedLines (lines : List (List Char)) : List (List Char) :=
  (keptLines lines).takeWhile fun line => line ≠ signatureDelimiter

lemma keptLines_suffix (lines : List (List Char)) : keptLines lines <:+ lines :=
  List.dropWhile_suffix _

lemma strippedLines_subset (lines : List (List Char)) : strippedLines lines ⊆ lines :=
  List.Subset.trans (List.takeWhile_prefix _).subset (keptLines_suffix lines).subset

lemma cutAtSignature_joinLines (h : IsLines lines) :
    cutAtSignature (joinLines lines) =
      joinLines (lines.takeWhile fun line => line ≠ signatureDelimiter) := by
  rw [cutAtSignature, h.splitLines]
  split_ifs with hmem
  · rfl
  · rw [List.takeWhile_eq_self_iff.2]
    intro line hline
    exact decide_eq_true fun heq => hmem (heq ▸ hline)

lemma strip_joinLines (h : IsLines lines) :
    cutAtSignature (dropLeadingQuoted (joinLines lines)) = joinLines (strippedLines lines) := by
  rw [dropLeadingQuoted, h.splitLines]
  change cutAtSignature (joinLines (keptLines lines)) = _
  by_cases hnil : keptLines lines = []
  · rw [strippedLines, hnil]
    rfl
  · exact cutAtSignature_joinLines (h.of_subset hnil (keptLines_suffix lines).subset)

/-- Text that loses no line is all there is to come back as it was; an empty text is the one that
loses its only line and is the same. -/
lemma joinLines_strippedLines_eq_iff (h : IsLines lines) :
    joinLines (strippedLines lines) = joinLines lines ↔
      strippedLines lines = lines ∨ lines = [[]] := by
  constructor
  · intro heq
    by_cases hnil : strippedLines lines = []
    · right
      rw [hnil] at heq
      have hsplit := h.splitLines
      rw [← heq] at hsplit
      exact hsplit.symm
    · left
      have hsplit := congrArg splitLines heq
      rw [h.splitLines, (h.of_subset hnil (strippedLines_subset lines)).splitLines] at hsplit
      exact hsplit
  · rintro (heq | rfl)
    · rw [heq]
    · rfl

lemma fallback_false (h : IsLines lines) :
    (fallback (joinLines lines) false).body = joinLines (strippedLines lines) ∧
      ((fallback (joinLines lines) false).trimmed = false ↔
        strippedLines lines = lines ∨ lines = [[]]) := by
  have hbody : (fallback (joinLines lines) false).body = joinLines (strippedLines lines) :=
    strip_joinLines h
  refine ⟨hbody, ?_⟩
  change decide ((fallback (joinLines lines) false).body ≠ joinLines lines) = false ↔ _
  rw [hbody, decide_eq_false_iff_not, not_not, joinLines_strippedLines_eq_iff h]

/-! ## The two forms, line by line -/

variable {line last : List Char} {init : List (List Char)}

@[simp] lemma length_crLines (lines : List (List Char)) :
    (crLines lines).length = lines.length := by
  induction lines using crLines.induct with
  | case1 => rfl
  | case2 line => rfl
  | case3 line next rest ih =>
      rw [crLines, List.length_cons, ih]
      rfl

lemma bareLines_concat (init : List (List Char)) (last : List Char) :
    bareLines (init ++ [last]) =
      (init.map fun line => line.rdropWhile fun c => c = '\r') ++ [last] := by
  induction init with
  | nil => rfl
  | cons line init ih =>
      have hsome : init ++ [last] ≠ [] := List.concat_ne_nil last init
      obtain ⟨next, rest, hrest⟩ := List.exists_cons_of_ne_nil hsome
      rw [List.cons_append, hrest, bareLines, ← hrest, ih]
      rfl

lemma crLines_concat (init : List (List Char)) (last : List Char) :
    crLines (init ++ [last]) = (init.map fun line => line ++ ['\r']) ++ [last] := by
  induction init with
  | nil => rfl
  | cons line init ih =>
      have hsome : init ++ [last] ≠ [] := List.concat_ne_nil last init
      obtain ⟨next, rest, hrest⟩ := List.exists_cons_of_ne_nil hsome
      rw [List.cons_append, hrest, crLines, ← hrest, ih]
      rfl

@[simp] lemma trimCR_append (line : List Char) : trimCR (line ++ ['\r']) = line := by
  rw [trimCR, if_pos List.getLast?_concat, List.dropLast_concat]

lemma trimCR_of_ne (h : line.getLast? ≠ some '\r') : trimCR line = line := if_neg h

/-- No line with an ending ends in a carriage return. -/
def Bare (lines : List (List Char)) : Prop :=
  ∀ line ∈ lines.dropLast, line.getLast? ≠ some '\r'

lemma isLines_bareLines (h : IsLines lines) :
    IsLines (bareLines lines) ∧ Bare (bareLines lines) := by
  obtain ⟨init, last, rfl⟩ := (List.eq_nil_or_concat' lines).resolve_left h.ne_nil
  rw [bareLines_concat]
  refine ⟨⟨List.concat_ne_nil _ _, ?_⟩, ?_⟩
  · intro line hline
    rcases List.mem_append.1 hline with hline | hline
    · obtain ⟨l, hl, rfl⟩ := List.mem_map.1 hline
      exact fun hmem => h.newline l (List.mem_append_left _ hl)
        ((List.rdropWhile_prefix _ l).subset hmem)
    · exact h.newline line (List.mem_append_right _ hline)
  · intro line hline hlast
    rw [List.dropLast_concat] at hline
    obtain ⟨l, -, rfl⟩ := List.mem_map.1 hline
    obtain ⟨hne, heq⟩ := List.mem_getLast?_eq_getLast hlast
    exact List.rdropWhile_last_not _ _ hne (decide_eq_true heq.symm)

lemma isLines_crLines (h : IsLines lines) : IsLines (crLines lines) := by
  obtain ⟨init, last, rfl⟩ := (List.eq_nil_or_concat' lines).resolve_left h.ne_nil
  rw [crLines_concat]
  refine ⟨List.concat_ne_nil _ _, ?_⟩
  intro line hline
  rcases List.mem_append.1 hline with hline | hline
  · obtain ⟨l, hl, rfl⟩ := List.mem_map.1 hline
    rw [List.mem_append, List.mem_singleton, not_or]
    exact ⟨h.newline l (List.mem_append_left _ hl), by decide⟩
  · exact h.newline line (List.mem_append_right _ hline)

lemma trimSpace_eq_nil_iff : trimSpace line = [] ↔ ∀ c ∈ line, isSpace c = true := by
  rw [trimSpace, List.reverse_eq_nil_iff, trimLeft, List.dropWhile_eq_nil_iff]
  simp only [List.mem_reverse]
  constructor
  · intro h
    have hnil : trimLeft line = [] := by
      by_contra hne
      have hhead : isSpace ((trimLeft line).head hne) = false :=
        List.head_dropWhile_not isSpace hne
      rw [h _ (List.head_mem hne)] at hhead
      cases hhead
    exact List.dropWhile_eq_nil_iff.1 hnil
  · intro h c hc
    exact h c ((List.dropWhile_suffix _).subset hc)

lemma isQuoted_append (line : List Char) : isQuoted (line ++ ['\r']) = isQuoted line := by
  cases line with
  | nil => rfl
  | cons c line => rfl

lemma isBlank_append (line : List Char) : isBlank (line ++ ['\r']) = isBlank line := by
  rw [isBlank, isBlank]
  apply decide_eq_decide.2
  rw [trimSpace_eq_nil_iff, trimSpace_eq_nil_iff, List.forall_mem_append]
  have hcr : ∀ c ∈ ['\r'], isSpace c = true := List.forall_mem_singleton.2 rfl
  exact and_iff_left hcr

/-- A carriage return does not change which lines are quoted or blank. -/
lemma keptLines_crLines (lines : List (List Char)) :
    keptLines (crLines lines) = crLines (keptLines lines) := by
  induction lines using crLines.induct with
  | case1 => rfl
  | case2 line =>
      rw [crLines, keptLines, List.dropWhile_cons]
      split_ifs
      · rfl
      · rfl
  | case3 line next rest ih =>
      rw [crLines, keptLines, List.dropWhile_cons, isQuoted_append, isBlank_append, keptLines,
        List.dropWhile_cons]
      split_ifs with hdrop
      · exact ih
      · rfl

/-- A line with a carriage return is never the delimiter. -/
lemma takeWhile_crLines (init : List (List Char)) (last : List Char) :
    (crLines (init ++ [last])).takeWhile (fun line => line ≠ signatureDelimiter) =
      (init.map fun line => line ++ ['\r']) ++
        [last].takeWhile fun line => line ≠ signatureDelimiter := by
  rw [crLines_concat, List.takeWhile_append_of_pos]
  intro line hline
  obtain ⟨l, -, rfl⟩ := List.mem_map.1 hline
  apply decide_eq_true
  intro heq
  have hlast := congrArg List.getLast? heq
  rw [List.getLast?_concat] at hlast
  exact absurd hlast (by decide)

lemma sublist_strippedLines (lines : List (List Char)) :
    (strippedLines lines).Sublist lines :=
  List.Sublist.trans (List.takeWhile_prefix _).sublist (keptLines_suffix lines).sublist

/-- The lines of the two forms that are left, with as many lines. -/
lemma strippedLines_forms (hbare : Bare lines)
    (hsig : signatureDelimiter ∉ (keptLines lines).dropLast) :
    (strippedLines (crLines lines)).length = (strippedLines lines).length ∧
      (strippedLines (crLines lines)).map trimCR = (strippedLines lines).map trimCR := by
  rw [strippedLines, keptLines_crLines, strippedLines]
  rcases List.eq_nil_or_concat' (keptLines lines) with hnil | ⟨init, last, hkept⟩
  · rw [hnil]
    exact ⟨rfl, rfl⟩
  · obtain ⟨dropped, hdropped⟩ := keptLines_suffix lines
    rw [hkept] at hsig hdropped ⊢
    rw [List.dropLast_concat] at hsig
    have hinit : ∀ line ∈ init, trimCR line = line := by
      intro line hline
      apply trimCR_of_ne (hbare line ?_)
      rw [← hdropped, ← List.append_assoc, List.dropLast_concat]
      exact List.mem_append_right _ hline
    have hall : ∀ line ∈ init, decide (line ≠ signatureDelimiter) = true :=
      fun line hline => decide_eq_true fun heq => hsig (heq ▸ hline)
    rw [takeWhile_crLines, List.takeWhile_append_of_pos hall]
    refine ⟨?_, ?_⟩
    · rw [List.length_append, List.length_append, List.length_map]
    · rw [List.map_append, List.map_append, List.map_map, List.map_congr_left hinit]
      have hid : (trimCR ∘ fun line => line ++ ['\r']) = fun line => line :=
        funext fun line => trimCR_append line
      rw [hid]

/-- A delimiter with a line ending, behind the leading quoted and blank lines, is cut in one form
and stays in the other. -/
lemma strippedLines_differ (hbare : Bare lines)
    (hsig : signatureDelimiter ∈ (keptLines lines).dropLast) :
    signatureDelimiter ∈ (strippedLines (crLines lines)).map trimCR ∧
      signatureDelimiter ∉ (strippedLines lines).map trimCR := by
  rw [strippedLines, keptLines_crLines, strippedLines]
  rcases List.eq_nil_or_concat' (keptLines lines) with hnil | ⟨init, last, hkept⟩
  · rw [hnil] at hsig
    exact absurd hsig List.not_mem_nil
  · obtain ⟨dropped, hdropped⟩ := keptLines_suffix lines
    rw [hkept] at hsig hdropped ⊢
    rw [List.dropLast_concat] at hsig
    refine ⟨?_, ?_⟩
    · rw [takeWhile_crLines, List.map_append, List.map_map]
      apply List.mem_append_left
      exact List.mem_map.2 ⟨signatureDelimiter, hsig, trimCR_append _⟩
    · intro hmem
      obtain ⟨line, hline, htrim⟩ := List.mem_map.1 hmem
      have hprop := List.mem_takeWhile_imp hline
      -- The cut leaves lines that have an ending, and those are bare.
      have hinit : line ∈ init := by
        rw [List.takeWhile_append, if_neg] at hline
        · exact (List.takeWhile_prefix _).subset hline
        · intro hlen
          have hself := (List.takeWhile_prefix _).eq_of_length hlen
          exact of_decide_eq_true (List.takeWhile_eq_self_iff.1 hself _ hsig) rfl
      rw [trimCR_of_ne (hbare line ?_)] at htrim
      · exact (of_decide_eq_true hprop) htrim
      · rw [← hdropped, ← List.append_assoc, List.dropLast_concat]
        exact List.mem_append_right _ hinit

lemma map_trimCR_splitLines {lines : List (List Char)} (h : lines = [] ∨ IsLines lines) :
    (splitLines (joinLines lines)).map trimCR =
      if lines = [] then [[]] else lines.map trimCR := by
  rcases h with rfl | h
  · rfl
  · rw [if_neg h.ne_nil, h.splitLines]

/-- **Where the two forms agree**, in text that is not flowed: no delimiter has a line ending. -/
lemma formsAgree_false_iff (text : List Char) :
    FormsAgree text false ↔
      signatureDelimiter ∉ (keptLines (bareLines (splitLines text))).dropLast := by
  obtain ⟨hlines, hbare⟩ := isLines_bareLines (isLines_splitLines text)
  set lines := bareLines (splitLines text) with hdef
  have hcr := isLines_crLines hlines
  obtain ⟨hbody, htrimmed⟩ := fallback_false hlines
  obtain ⟨hbody', htrimmed'⟩ := fallback_false hcr
  have hlf : lfForm text = joinLines lines := rfl
  have hcrlf : crlfForm text = joinLines (crLines lines) := rfl
  have hkept : ∀ ls : List (List Char), IsLines ls →
      strippedLines ls = [] ∨ IsLines (strippedLines ls) := by
    intro ls hls
    by_cases hnil : strippedLines ls = []
    · exact Or.inl hnil
    · exact Or.inr (hls.of_subset hnil (strippedLines_subset ls))
  rw [FormsAgree, SameLines, hlf, hcrlf, hbody, hbody', map_trimCR_splitLines (hkept _ hcr),
    map_trimCR_splitLines (hkept _ hlines)]
  constructor
  · rintro ⟨hsame, -⟩ hsig
    obtain ⟨hin, hout⟩ := strippedLines_differ hbare hsig
    rw [if_neg (fun hnil => by rw [hnil] at hin; exact List.not_mem_nil hin)] at hsame
    rw [hsame] at hin
    split_ifs at hin with hnil
    · exact absurd hin (by decide)
    · exact hout hin
  · intro hsig
    obtain ⟨hlen, hmap⟩ := strippedLines_forms hbare hsig
    refine ⟨?_, ?_⟩
    · by_cases hnil : strippedLines lines = []
      · have hnil' : strippedLines (crLines lines) = [] := by
          rw [hnil] at hlen
          exact List.eq_nil_of_length_eq_zero hlen
        rw [if_pos hnil, if_pos hnil']
      · have hnil' : strippedLines (crLines lines) ≠ [] := by
          intro h
          rw [h] at hlen
          exact hnil (List.eq_nil_of_length_eq_zero hlen.symm)
        rw [if_neg hnil, if_neg hnil', hmap]
    · -- Both forms lose a line or neither does.
      rw [Bool.eq_iff_iff, ← not_iff_not, Bool.not_eq_true, Bool.not_eq_true, htrimmed, htrimmed']
      have hall : strippedLines (crLines lines) = crLines lines ↔ strippedLines lines = lines := by
        constructor
        · intro h
          apply (sublist_strippedLines lines).eq_of_length
          rw [← hlen, h, length_crLines]
        · intro h
          apply (sublist_strippedLines (crLines lines)).eq_of_length
          rw [hlen, h, length_crLines]
      have hempty : crLines lines = [[]] ↔ lines = [[]] := by
        obtain ⟨init, last, hconcat⟩ := (List.eq_nil_or_concat' lines).resolve_left hlines.ne_nil
        rw [hconcat, crLines_concat]
        cases init with
        | nil => rfl
        | cons line init =>
            refine iff_of_false ?_ ?_
            · intro h
              exact absurd (congrArg List.length h) (by simp)
            · intro h
              exact absurd (congrArg List.length h) (by simp)
      rw [hall, hempty]

/-- The soft breaks' pass takes the carriage returns off, so flowed text has one form. -/
lemma unwrapFlowed_forms (text : List Char) :
    unwrapFlowed (crlfForm text) = unwrapFlowed (lfForm text) := by
  obtain ⟨hlines, hbare⟩ := isLines_bareLines (isLines_splitLines text)
  rw [unwrapFlowed, unwrapFlowed, lfForm, crlfForm, (isLines_crLines hlines).splitLines,
    hlines.splitLines]
  obtain ⟨init, last, hconcat⟩ := (List.eq_nil_or_concat' _).resolve_left hlines.ne_nil
  rw [hconcat] at hbare ⊢
  rw [crLines_concat, List.foldl_append, List.foldl_append, List.foldl_map]
  congr 2
  have hinit : ∀ line ∈ init, trimCR line = line := by
    intro line hline
    apply trimCR_of_ne (hbare line ?_)
    rw [List.dropLast_concat]
    exact hline
  apply List.foldl_ext
  intro out line hline
  rw [unwrapLine, unwrapLine, trimCR_append, hinit line hline]

lemma formsAgree_true (text : List Char) : FormsAgree text true := by
  have hsame : fallback (crlfForm text) true = fallback (lfForm text) true := by
    rw [fallback, fallback, if_pos rfl, if_pos rfl, unwrapFlowed_forms]
  rw [FormsAgree, hsame]
  exact ⟨rfl, rfl⟩

/-- A plain letter comes back as it was where no blank line stands at its head. -/
lemma plain_kept_iff {text : List Char} (h : Plain text false) :
    fallback text false = { body := text, trimmed := false, degraded := true } ↔
      text = [] ∨ ∀ line ∈ (splitLines text).head?, isBlank line = false := by
  obtain ⟨-, hquoted, hsig⟩ := h
  have hlines := isLines_splitLines text
  obtain ⟨hbody, htrimmed⟩ := fallback_false hlines
  rw [joinLines_splitLines] at hbody htrimmed
  have hstripped : strippedLines (splitLines text) = keptLines (splitLines text) := by
    rw [strippedLines, List.takeWhile_eq_self_iff]
    intro line hline
    exact decide_eq_true fun heq => hsig (heq ▸ (keptLines_suffix _).subset hline)
  have hempty : splitLines text = [[]] ↔ text = [] := by
    constructor
    · intro heq
      rw [← joinLines_splitLines text, heq]
      rfl
    · rintro rfl
      rfl
  have hkept : keptLines (splitLines text) = splitLines text ↔
      ∀ line ∈ (splitLines text).head?, isBlank line = false := by
    obtain ⟨line, rest, hsplit⟩ := List.exists_cons_of_ne_nil hlines.ne_nil
    rw [hsplit] at hquoted ⊢
    rw [List.takeWhile_cons] at hquoted
    rw [keptLines, List.dropWhile_cons, List.head?_cons]
    split_ifs at hquoted ⊢ with hdrop
    · have hline := hquoted line List.mem_cons_self
      rw [hline, Bool.false_or] at hdrop
      refine iff_of_false ?_ ?_
      · intro heq
        have hle := (List.dropWhile_suffix (l := rest)
          fun line => isQuoted line || isBlank line).length_le
        rw [heq, List.length_cons] at hle
        omega
      · intro hall
        rw [hall line rfl] at hdrop
        cases hdrop
    · rw [Bool.not_eq_true, Bool.or_eq_false_iff] at hdrop
      refine iff_of_true rfl ?_
      rintro l ⟨⟩
      exact hdrop.2
  rw [hstripped, hempty, hkept, or_comm] at htrimmed
  rw [← htrimmed]
  constructor
  · intro heq
    rw [heq]
  · intro hfalse
    have heq : (fallback text false).body = text := by
      have hnot : decide ((fallback text false).body ≠ text) = false := hfalse
      exact not_not.1 (of_decide_eq_false hnot)
    have hdegraded : (fallback text false).degraded = true := rfl
    cases hresult : fallback text false with
    | mk body trimmed degraded =>
        rw [hresult] at heq hfalse hdegraded
        rw [← heq, ← hfalse, ← hdegraded]

/-! ## When a text is treated alike and a plain letter left alone -/

/-- **Exactly when quote stripping does not go by the form and leaves plain letters alone.**  The
text is flowed, or both of these hold: behind its leading quoted and blank lines no delimiter has a
line ending; and it does not begin with a blank line, unless it is empty or not plain. -/
theorem fallback_sound_iff (text : List Char) (formatFlowed : Bool) :
    (FormsAgree text formatFlowed ∧ PlainKept text formatFlowed) ↔
      formatFlowed = true ∨
        (signatureDelimiter ∉ (keptLines (bareLines (splitLines text))).dropLast ∧
          (Plain text formatFlowed →
            text = [] ∨ ∀ line ∈ (splitLines text).head?, isBlank line = false)) := by
  cases formatFlowed with
  | true =>
      refine iff_of_true ⟨formsAgree_true text, ?_⟩ (Or.inl rfl)
      rintro ⟨h, -⟩
      cases h
  | false =>
      rw [formsAgree_false_iff, PlainKept, or_iff_right (by decide)]
      refine and_congr_right fun _ => forall_congr' fun h => ?_
      exact plain_kept_iff h

/-- A letter whose signature is cut where its lines end in newlines, and kept where they end in
carriage returns and newlines; and a plain letter with a blank line at its head, which it loses. -/
theorem fallback_not_sound :
    ¬ FormsAgree "hola\n-- \nana".toList false ∧ ¬ PlainKept "\nhola".toList false := by
  refine ⟨by decide, fun h => ?_⟩
  exact absurd (h (by decide)) (by decide)

end Chaskiwasi.Mail.Strip
