import Chaskiwasi.Ayllu.Address
import Chaskiwasi.Mail.Graphemes
import Mathlib.Data.List.TakeWhile

/-!
# Subjects, inbound and outbound

A relative's subject is tidied for the list on the device: reply and forward prefixes go, white
space is collapsed, and the text is cut at a cap.  A child's subject goes the other way, into a
header, and there no control character may be left.  The two share the collapse and the cap.

The prefixes are found by a regular expression, which has white space of its own (`isReSpace`), less
than the collapse has (`isSpace`); and they are stripped at most fifty times.  Where neither of the
two matters, what `normalizeInbound` returns begins with no prefix (`normalizeInbound_normal`).
-/

namespace Chaskiwasi.Mail.Subject

/-! ## White space -/

/-- The runs of what is not white space: `strings.FieldsFunc`. -/
def fields (s : List Char) : List (List Char) :=
  (s.splitOnP isSpace).filter fun field => field ≠ []

/-- Every run of white space becomes one blank, and the ends are trimmed. -/
def collapseWhitespace (s : List Char) : List Char := List.intercalate [' '] (fields s)

/-- `unicode.IsControl`. -/
def isControl (c : Char) : Bool := c ≤ '\x1f' || ('\x7f' ≤ c && c ≤ '\u009f')

def maxGraphemes : ℕ := 100

def generatedMaxGraphemes : ℕ := 40

section Outbound

variable [Uniseg]

def sanitizeCapped (raw : String) (capGraphemes : ℕ) : String :=
  let stripped := raw.toList.map fun r => if isControl r then ' ' else r
  (Graphemes.truncate (String.ofList (collapseWhitespace stripped)) capGraphemes).1

def sanitize (raw : String) : String := sanitizeCapped raw maxGraphemes

/-- The first words of the body, or the owner's name where there are none. -/
def generate (body ownerName : String) : String :=
  let firstWords := String.ofList (collapseWhitespace body.toList)
  let generated := sanitizeCapped firstWords generatedMaxGraphemes
  if generated ≠ "" then generated else sanitizeCapped ("Letter from " ++ ownerName) maxGraphemes

/-- The text of an outbound subject, before it is encoded. -/
def outboundPlain (rawSubject body ownerName : String) : String :=
  let plain := sanitize rawSubject
  if plain = "" then generate body ownerName else plain

/-- `mime.QEncoding.Encode` is what `encode` stands for. -/
def outbound (encode : String → String) (rawSubject body ownerName : String) : String :=
  encode (outboundPlain rawSubject body ownerName)

end Outbound

/-! ## Prefixes -/

/-- The white space of a regular expression. -/
def isReSpace (c : Char) : Bool := c ∈ ['\t', '\n', '\x0c', '\r', ' ']

def replyPrefixes : List (List Char) :=
  ["re".toList, "fwd".toList, "fw".toList, "aw".toList, "sv".toList, "vs".toList, "res".toList,
    "antw".toList, "tr".toList, "wg".toList]

/-- One letter of a pattern in any case; the long s is an `s` too. -/
def matchesLetter (p c : Char) : Bool := c.toLower = p || (p = 's' && c = 'ſ')

/-- What stands behind a word of a pattern. -/
def dropWord : List Char → List Char → Option (List Char)
  | [], s => some s
  | _ :: _, [] => none
  | p :: word, c :: s => if matchesLetter p c then dropWord word s else none

def dropColon : List Char → Option (List Char)
  | [] => none
  | c :: behind => if c = ':' then some behind else none

/-- What stands behind one prefix and its colon, for any notion of white space. -/
def afterColon (space : Char → Bool) (s : List Char) : Option (List Char) :=
  replyPrefixes.findSome? fun word =>
    (dropWord word (s.dropWhile space)).bind fun rest => dropColon (rest.dropWhile space)

/-- One leading prefix, with the white space around it, replaced by nothing. -/
def replaceReplyPrefix (s : List Char) : List Char :=
  match afterColon isReSpace s with
  | none => s
  | some behind => behind.dropWhile isReSpace

def maxPrefixStrips : ℕ := 50

def stripPrefixes : ℕ → List Char → List Char
  | 0, decoded => decoded
  | n + 1, decoded =>
      let stripped := replaceReplyPrefix decoded
      if stripped = decoded then decoded else stripPrefixes n stripped

/-- `decodeHeader` stands for the decoder of encoded words, which fails on a malformed one. -/
def normalizeInbound [Uniseg] (decodeHeader : String → Option String) (raw : String) : String :=
  let decoded := (decodeHeader raw).getD raw
  let collapsed := collapseWhitespace (stripPrefixes maxPrefixStrips decoded.toList)
  (Graphemes.truncate (String.ofList collapsed) maxGraphemes).1

/-! ## The collapse, word by word -/

variable {s t : List Char} {c : Char}

lemma fields_cons_of_isSpace (h : isSpace c = true) (s : List Char) :
    fields (c :: s) = fields s := by
  rw [fields, List.splitOnP_cons_eq_if_modifyHead, if_pos h,
    List.filter_cons_of_neg (by simp), fields]

lemma fields_dropWhile (s : List Char) : fields (s.dropWhile isSpace) = fields s := by
  induction s with
  | nil => rfl
  | cons c s ih =>
      rw [List.dropWhile_cons]
      split_ifs with hc
      · rw [ih, fields_cons_of_isSpace hc]
      · rfl

/-- A word and what stands behind it. -/
lemma fields_append {word : List Char} (hne : word ≠ []) (hword : ∀ c ∈ word, isSpace c = false)
    (hrest : ∀ c ∈ s.head?, isSpace c = true) : fields (word ++ s) = word :: fields s := by
  cases s with
  | nil =>
      rw [List.append_nil, fields, List.splitOnP_eq_singleton hword,
        List.filter_cons_of_pos (by simpa using hne)]
      rfl
  | cons c s =>
      have hc : isSpace c = true := hrest c rfl
      rw [fields, List.splitOnP_append_cons_of_forall_mem hword c hc,
        List.filter_cons_of_pos (by simpa using hne), fields_cons_of_isSpace hc]
      rfl

/-- Text is white space, or begins with a word, which white space or the end follows. -/
lemma word_cases (s : List Char) : s.dropWhile isSpace = [] ∨
    ∃ word rest, s.dropWhile isSpace = word ++ rest ∧ word ≠ [] ∧
      (∀ c ∈ word, isSpace c = false) ∧ ∀ c ∈ rest.head?, isSpace c = true := by
  cases ht : s.dropWhile isSpace with
  | nil => exact Or.inl rfl
  | cons c t =>
      have hc : isSpace c = false := by
        have hne : s.dropWhile isSpace ≠ [] := by
          rw [ht]
          exact List.cons_ne_nil c t
        have hhead := List.head_dropWhile_not isSpace hne
        simp only [ht, List.head_cons] at hhead
        exact hhead
      refine Or.inr ⟨(c :: t).takeWhile fun c => !isSpace c, (c :: t).dropWhile fun c => !isSpace c,
        List.takeWhile_append_dropWhile.symm, ?_, ?_, ?_⟩
      · rw [List.takeWhile_cons_of_pos (by rw [hc]; rfl)]
        exact List.cons_ne_nil _ _
      · intro d hd
        have hnot := List.mem_takeWhile_imp hd
        simpa using hnot
      · intro d hd
        have hne : (c :: t).dropWhile (fun c => !isSpace c) ≠ [] := by
          intro hnil
          rw [hnil] at hd
          cases hd
        have hhead := List.head_dropWhile_not (fun c => !isSpace c) hne
        rw [List.head?_eq_some_head hne] at hd
        rw [Option.some.inj hd] at hhead
        simpa using hhead

lemma collapseWhitespace_nil (h : s.dropWhile isSpace = []) : collapseWhitespace s = [] := by
  rw [collapseWhitespace, ← fields_dropWhile, h]
  rfl

/-- The first word, and a blank and the rest where there is one. -/
lemma collapseWhitespace_word {word rest : List Char} (hs : s.dropWhile isSpace = word ++ rest)
    (hne : word ≠ []) (hword : ∀ c ∈ word, isSpace c = false)
    (hrest : ∀ c ∈ rest.head?, isSpace c = true) :
    collapseWhitespace s =
      word ++ if fields rest = [] then [] else ' ' :: collapseWhitespace rest := by
  rw [collapseWhitespace, ← fields_dropWhile, hs, fields_append hne hword hrest]
  split_ifs with hnil
  · rw [hnil, List.intercalate_singleton, List.append_nil]
  · rw [List.intercalate_cons_of_ne_nil hnil, List.append_assoc]
    rfl

/-- An induction over the words of a text. -/
lemma word_induction {P : List Char → Prop} (hnil : ∀ s, s.dropWhile isSpace = [] → P s)
    (hword : ∀ s word rest, s.dropWhile isSpace = word ++ rest → word ≠ [] →
      (∀ c ∈ word, isSpace c = false) → (∀ c ∈ rest.head?, isSpace c = true) → P rest → P s)
    (s : List Char) : P s := by
  induction hn : s.length using Nat.strong_induction_on generalizing s with
  | _ n ih =>
      rcases word_cases s with h | ⟨word, rest, hs, hne, hall, hrest⟩
      · exact hnil s h
      · refine hword s word rest hs hne hall hrest (ih rest.length ?_ rest rfl)
        have hle := (List.dropWhile_suffix (l := s) isSpace).length_le
        have hpos := List.length_pos_iff.2 hne
        rw [hs, List.length_append] at hle
        omega

/-- What the collapse leaves is single blanks and what is not white space. -/
lemma mem_collapseWhitespace (h : c ∈ collapseWhitespace s) :
    c = ' ' ∨ isSpace c = false ∧ c ∈ s := by
  induction s using word_induction with
  | hnil s hs =>
      rw [collapseWhitespace_nil hs] at h
      exact absurd h List.not_mem_nil
  | hword s word rest hs hne hall hrest ih =>
      have hsub : word ++ rest ⊆ s := hs ▸ (List.dropWhile_suffix isSpace).subset
      rw [collapseWhitespace_word hs hne hall hrest] at h
      rcases List.mem_append.1 h with h | h
      · exact Or.inr ⟨hall c h, hsub (List.mem_append_left _ h)⟩
      · split_ifs at h with hnil
        · exact absurd h List.not_mem_nil
        · rcases List.mem_cons.1 h with h | h
          · exact Or.inl h
          · exact (ih h).imp_right fun hc => ⟨hc.1, hsub (List.mem_append_right _ hc.2)⟩

/-- The collapse begins where the words do. -/
lemma head?_collapseWhitespace (s : List Char) :
    (collapseWhitespace s).head? = (s.dropWhile isSpace).head? := by
  rcases word_cases s with h | ⟨word, rest, hs, hne, hall, hrest⟩
  · rw [collapseWhitespace_nil h, h]
  · rw [collapseWhitespace_word hs hne hall hrest, hs, List.head?_append_of_ne_nil _ hne,
      List.head?_append_of_ne_nil _ hne]

lemma dropWhile_of_head {space : Char → Bool} (h : ∀ c ∈ s.head?, space c = false) :
    s.dropWhile space = s := by
  cases s with
  | nil => rfl
  | cons c s => exact List.dropWhile_cons_of_neg (by rw [h c rfl]; decide)

/-- No blank is left at the head. -/
lemma dropWhile_collapseWhitespace (s : List Char) :
    (collapseWhitespace s).dropWhile isSpace = collapseWhitespace s := by
  apply dropWhile_of_head
  intro c hc
  rcases word_cases s with hs | ⟨word, rest, hs, hne, hall, -⟩
  · rw [collapseWhitespace_nil hs] at hc
    cases hc
  · rw [head?_collapseWhitespace, hs, List.head?_append_of_ne_nil _ hne] at hc
    exact hall c (List.mem_of_mem_head? hc)

/-! ## Prefixes that stand there or not -/

/-- Whether a text begins with a reply or forward prefix, whatever the white space. -/
def BeginsWithPrefix (s : List Char) : Prop := afterColon isSpace s ≠ none

lemma isSpace_of_isReSpace (h : isReSpace c = true) : isSpace c = true := by
  rw [isReSpace, decide_eq_true_eq] at h
  simp only [List.mem_cons, List.not_mem_nil, or_false] at h
  rcases h with rfl | rfl | rfl | rfl | rfl
  all_goals decide

lemma dropColon_eq_some {behind : List Char} : dropColon s = some behind ↔ s = ':' :: behind := by
  cases s with
  | nil => exact iff_of_false (by simp [dropColon]) (by simp)
  | cons c s =>
      rw [dropColon]
      split_ifs with hc
      · rw [hc, Option.some.injEq, List.cons.injEq]
        exact (and_iff_right rfl).symm
      · refine iff_of_false (by simp) fun heq => hc (List.cons.inj heq).1

/-- A prefix: one of the words, and a colon behind it. -/
lemma exists_word {space : Char → Bool} {behind : List Char}
    (h : afterColon space s = some behind) :
    ∃ word ∈ replyPrefixes, ∃ rest, dropWord word (s.dropWhile space) = some rest ∧
      rest.dropWhile space = ':' :: behind := by
  obtain ⟨word, hword, heq⟩ := List.exists_of_findSome?_eq_some h
  obtain ⟨rest, hrest, hcolon⟩ := Option.bind_eq_some_iff.1 heq
  exact ⟨word, hword, rest, hrest, dropColon_eq_some.1 hcolon⟩

lemma afterColon_ne_none {space : Char → Bool} {word rest behind : List Char}
    (hword : word ∈ replyPrefixes) (hdrop : dropWord word (s.dropWhile space) = some rest)
    (hcolon : rest.dropWhile space = ':' :: behind) : afterColon space s ≠ none := by
  intro hnone
  have hall := List.findSome?_eq_none_iff.1 hnone word hword
  rw [hdrop, Option.bind_some, dropColon_eq_some.2 hcolon] at hall
  cases hall

/-- White space at the head does not count. -/
lemma afterColon_dropWhile {space drop : Char → Bool} (h : ∀ c, drop c = true → space c = true)
    (s : List Char) : afterColon space (s.dropWhile drop) = afterColon space s := by
  have hdrop : (s.dropWhile drop).dropWhile space = s.dropWhile space := by
    induction s with
    | nil => rfl
    | cons c s ih =>
        rw [List.dropWhile_cons]
        split_ifs with hc
        · rw [ih, List.dropWhile_cons_of_pos (h c hc)]
        · rfl
  rw [afterColon, hdrop, afterColon]

lemma toNat_letter {word : List Char} (hword : word ∈ replyPrefixes) {p : Char} (hp : p ∈ word) :
    97 ≤ p.toNat ∧ p.toNat ≤ 122 := by
  have hall : (replyPrefixes.all fun word => word.all fun p =>
      decide (97 ≤ p.toNat ∧ p.toNat ≤ 122)) = true := by decide
  rw [List.all_eq_true] at hall
  exact of_decide_eq_true (List.all_eq_true.1 (hall word hword) p hp)

/-- A letter of a prefix is not white space. -/
lemma isSpace_of_matchesLetter {word : List Char} (hword : word ∈ replyPrefixes) {p : Char}
    (hp : p ∈ word) (h : matchesLetter p c = true) : isSpace c = false := by
  obtain ⟨hlow, hhigh⟩ := toNat_letter hword hp
  rw [matchesLetter, Bool.or_eq_true, decide_eq_true_eq, Bool.and_eq_true, decide_eq_true_eq,
    decide_eq_true_eq] at h
  rcases h with h | ⟨-, rfl⟩
  · by_cases hupper : c.val ≥ 'A'.val ∧ c.val ≤ 'Z'.val
    · have h65 : 65 ≤ c.toNat := hupper.1
      have h90 : c.toNat ≤ 90 := hupper.2
      exact isSpace_of_toNat (by omega) (by omega)
    · have hsame : c.toLower = c := dif_neg hupper
      obtain rfl : c = p := hsame.symm.trans h
      exact isSpace_of_toNat (by omega) (by omega)
  · decide

/-- Less white space at the head, where what stands behind it is not white space either way. -/
lemma dropWhile_eq_of_head {c : Char} {rest : List Char} (hs : s.dropWhile isReSpace = c :: rest)
    (hc : isSpace c = false) : s.dropWhile isSpace = c :: rest := by
  induction s with
  | nil => cases hs
  | cons d s ih =>
      rw [List.dropWhile_cons] at hs
      split_ifs at hs with hd
      · rw [List.dropWhile_cons_of_pos (isSpace_of_isReSpace hd), ih hs]
      · obtain ⟨rfl, rfl⟩ := List.cons.inj hs
        exact dropWhile_of_head fun e he => (Option.some.inj he) ▸ hc

lemma word_ne_nil {word : List Char} (h : word ∈ replyPrefixes) : word ≠ [] := by
  have hall : ∀ word ∈ replyPrefixes, word ≠ [] := by decide
  exact hall word h

/-- A word that stands at the head of a text. -/
lemma exists_cons_of_dropWord {word rest : List Char} (hword : word ∈ replyPrefixes)
    (h : dropWord word s = some rest) : ∃ c t, s = c :: t ∧ isSpace c = false := by
  cases hw : word with
  | nil => exact absurd hw (word_ne_nil hword)
  | cons p word' =>
      rw [hw] at h
      cases s with
      | nil => cases h
      | cons c t =>
          rw [dropWord] at h
          split_ifs at h with hmatch
          exact ⟨c, t, rfl, isSpace_of_matchesLetter hword (hw ▸ List.mem_cons_self) hmatch⟩

/-- What the regular expression takes for a prefix is one. -/
lemma beginsWithPrefix_of_re {behind : List Char} (h : afterColon isReSpace s = some behind) :
    BeginsWithPrefix s := by
  obtain ⟨word, hword, rest, hdrop, hcolon⟩ := exists_word h
  obtain ⟨c, t, ht, hc⟩ := exists_cons_of_dropWord hword hdrop
  have hdrop' : dropWord word (s.dropWhile isSpace) = some rest := by
    rw [dropWhile_eq_of_head ht hc, ← ht, hdrop]
  exact afterColon_ne_none hword hdrop' (dropWhile_eq_of_head hcolon (by decide))

/-! ## The loop -/

/-- A text of `n` prefixes, each with no white space before its colon but that of the regular
expression, and a rest that begins with no prefix, whatever the white space. -/
def Stacked : ℕ → List Char → Prop
  | 0, s => ¬ BeginsWithPrefix s
  | n + 1, s => ∃ behind, afterColon isReSpace s = some behind ∧ Stacked n behind

lemma stacked_dropWhile {n : ℕ} (h : Stacked n s) : Stacked n (s.dropWhile isReSpace) := by
  cases n with
  | zero =>
      intro hbegins
      rw [BeginsWithPrefix, afterColon_dropWhile fun c => isSpace_of_isReSpace] at hbegins
      exact h hbegins
  | succ n =>
      obtain ⟨behind, hbehind, hn⟩ := h
      refine ⟨behind, ?_, hn⟩
      rw [afterColon_dropWhile fun c hc => hc, hbehind]

lemma length_of_dropWord {word rest : List Char} (h : dropWord word s = some rest) :
    rest.length ≤ s.length := by
  induction word generalizing s with
  | nil => rw [Option.some.inj h]
  | cons p word ih =>
      cases s with
      | nil => cases h
      | cons c s =>
          rw [dropWord] at h
          split_ifs at h
          exact Nat.le_succ_of_le (ih h)

/-- A prefix takes a symbol at least, its colon. -/
lemma length_lt_of_afterColon {space : Char → Bool} {behind : List Char}
    (h : afterColon space s = some behind) : behind.length < s.length := by
  obtain ⟨word, hword, rest, hdrop, hcolon⟩ := exists_word h
  have hrest := length_of_dropWord hdrop
  have hs := (List.dropWhile_suffix (l := s) space).length_le
  have hle := (List.dropWhile_suffix (l := rest) space).length_le
  rw [hcolon, List.length_cons] at hle
  omega

/-- As many passes as there are prefixes take them all. -/
lemma stripPrefixes_of_stacked {n m : ℕ} (h : Stacked n s) (hle : n ≤ m) :
    ¬ BeginsWithPrefix (stripPrefixes m s) := by
  induction n generalizing m s with
  | zero =>
      have hnone : afterColon isReSpace s = none := by
        cases hre : afterColon isReSpace s with
        | none => rfl
        | some behind => exact absurd (beginsWithPrefix_of_re hre) h
      cases m with
      | zero => exact h
      | succ m =>
          rw [stripPrefixes, replaceReplyPrefix, hnone]
          rw [if_pos rfl]
          exact h
  | succ n ih =>
      obtain ⟨behind, hbehind, hn⟩ := h
      cases m with
      | zero => omega
      | succ m =>
          have hlt := length_lt_of_afterColon hbehind
          have hdrop := (List.dropWhile_suffix (l := behind) isReSpace).length_le
          have hne : behind.dropWhile isReSpace ≠ s := by
            intro heq
            rw [heq] at hdrop
            omega
          rw [stripPrefixes, replaceReplyPrefix, hbehind]
          rw [if_neg hne]
          exact ih (stacked_dropWhile hn) (by omega)

/-! ## What the collapse and the cap leave at the head -/

lemma dropWord_append {word rest : List Char} (h : dropWord word s = some rest) (t : List Char) :
    dropWord word (s ++ t) = some (rest ++ t) := by
  induction word generalizing s with
  | nil => rw [Option.some.inj h]; rfl
  | cons p word ih =>
      cases s with
      | nil => cases h
      | cons c s =>
          rw [dropWord] at h
          split_ifs at h with hmatch
          rw [List.cons_append, dropWord, if_pos hmatch, ih h]

lemma dropWhile_append_of_cons {space : Char → Bool} {c : Char} {rest : List Char}
    (h : s.dropWhile space = c :: rest) (t : List Char) :
    (s ++ t).dropWhile space = c :: rest ++ t := by
  rw [List.dropWhile_append, h]
  rfl

/-- A cut makes no prefix. -/
lemma beginsWithPrefix_append (h : BeginsWithPrefix s) (t : List Char) :
    BeginsWithPrefix (s ++ t) := by
  obtain ⟨behind, hbehind⟩ := Option.ne_none_iff_exists'.1 h
  obtain ⟨word, hword, rest, hdrop, hcolon⟩ := exists_word hbehind
  obtain ⟨c, u, hu, -⟩ := exists_cons_of_dropWord hword hdrop
  have hdrop' : dropWord word ((s ++ t).dropWhile isSpace) = some (rest ++ t) := by
    rw [dropWhile_append_of_cons hu, ← hu, dropWord_append hdrop]
  exact afterColon_ne_none hword hdrop' (dropWhile_append_of_cons hcolon t)

/-- A word that matches in front of a blank matches within the text before the blank. -/
lemma dropWord_of_append {word rest tail front : List Char}
    (hword : ∀ p ∈ word, matchesLetter p ' ' = false) (htail : ∀ c ∈ tail.head?, c = ' ')
    (h : dropWord word (front ++ tail) = some rest) :
    ∃ g, dropWord word front = some g ∧ rest = g ++ tail := by
  induction word generalizing front with
  | nil => exact ⟨front, rfl, (Option.some.inj h).symm⟩
  | cons p word ih =>
      cases front with
      | nil =>
          cases tail with
          | nil => cases h
          | cons c tail =>
              obtain rfl := htail c rfl
              rw [List.nil_append, dropWord, hword p List.mem_cons_self] at h
              cases h
      | cons c front =>
          rw [List.cons_append, dropWord] at h
          split_ifs at h with hmatch
          obtain ⟨g, hg, hrest⟩ := ih (fun q hq => hword q (List.mem_cons_of_mem _ hq)) h
          refine ⟨g, ?_, hrest⟩
          rw [dropWord, if_pos hmatch, hg]

lemma subset_of_dropWord {word front g : List Char} (h : dropWord word front = some g) :
    g ⊆ front := by
  induction word generalizing front with
  | nil => rw [Option.some.inj h]; exact List.Subset.refl g
  | cons p word ih =>
      cases front with
      | nil => cases h
      | cons c front =>
          rw [dropWord] at h
          split_ifs at h
          exact List.Subset.trans (ih h) (List.subset_cons_self _ _)

/-- The collapse makes no prefix. -/
lemma beginsWithPrefix_of_collapseWhitespace (h : BeginsWithPrefix (collapseWhitespace s)) :
    BeginsWithPrefix s := by
  obtain ⟨behind, hbehind⟩ := Option.ne_none_iff_exists'.1 h
  obtain ⟨word, hword, rest, hdrop, hcolon⟩ := exists_word hbehind
  have hblank : ∀ p ∈ word, matchesLetter p ' ' = false := by
    have hall : (replyPrefixes.all fun word => word.all fun p => !matchesLetter p ' ') = true := by
      decide
    intro p hp
    rw [List.all_eq_true] at hall
    exact Bool.not_eq_true' _ ▸ List.all_eq_true.1 (hall word hword) p hp
  rcases word_cases s with hs | ⟨front, tail, hs, hne, hall, htail⟩
  · rw [collapseWhitespace_nil hs] at hdrop
    obtain ⟨c, t, hnil, -⟩ := exists_cons_of_dropWord hword hdrop
    cases hnil
  · have hcollapse := collapseWhitespace_word hs hne hall htail
    rw [dropWhile_collapseWhitespace, hcollapse] at hdrop
    obtain ⟨g, hg, rfl⟩ := dropWord_of_append hblank (by
      intro c hc
      split_ifs at hc
      · cases hc
      · exact (Option.some.inj hc).symm) hdrop
    have hdrop' : dropWord word (s.dropWhile isSpace) = some (g ++ tail) := by
      rw [hs, dropWord_append hg]
    cases g with
    | cons c g =>
        -- The colon stands in the first word.
        have hc : isSpace c = false := hall c (subset_of_dropWord hg List.mem_cons_self)
        rw [List.cons_append, List.dropWhile_cons_of_neg (by rw [hc]; decide)] at hcolon
        obtain ⟨rfl, -⟩ := List.cons.inj hcolon
        exact afterColon_ne_none hword hdrop' (List.dropWhile_cons_of_neg (by rw [hc]; decide))
    | nil =>
        -- The colon stands behind white space.
        rw [List.nil_append] at hcolon
        split_ifs at hcolon with hnil
        · cases hcolon
        · rw [List.dropWhile_cons_of_pos (by decide)] at hcolon
          have hhead := head?_collapseWhitespace tail
          rw [← dropWhile_collapseWhitespace, hcolon, List.head?_cons] at hhead
          obtain ⟨behind', hbehind'⟩ := List.head?_eq_some_iff.1 hhead.symm
          exact afterColon_ne_none hword hdrop' hbehind'

/-! ## Inbound subjects -/

section Inbound

variable [Uniseg] (decodeHeader : String → Option String) (raw : String)

/-- **Inbound subjects are tidied.**  Whatever the header, its subject has one kind of white space,
the blank, and so one line, and a hundred clusters at most; and it begins with no reply or forward
prefix where fifty at most were stacked, with no white space before their colons but that of the
regular expression. -/
theorem normalizeInbound_normal :
    (∀ c ∈ (normalizeInbound decodeHeader raw).toList, isSpace c = true → c = ' ') ∧
      Graphemes.countClusters (normalizeInbound decodeHeader raw) ≤ maxGraphemes ∧
      ∀ n ≤ maxPrefixStrips, Stacked n ((decodeHeader raw).getD raw).toList →
        ¬ BeginsWithPrefix (normalizeInbound decodeHeader raw).toList := by
  have hpos : 0 < maxGraphemes := by decide
  have hkept := Graphemes.truncate_prefix (String.ofList (collapseWhitespace
    (stripPrefixes maxPrefixStrips ((decodeHeader raw).getD raw).toList))) hpos
  rw [String.toList_ofList] at hkept
  refine ⟨?_, ?_, ?_⟩
  · intro c hc hspace
    rcases mem_collapseWhitespace (hkept.subset hc) with hc | ⟨hc, -⟩
    · exact hc
    · rw [hc] at hspace
      cases hspace
  · rw [normalizeInbound, Graphemes.countClusters_truncate _ hpos]
    exact Nat.min_le_left _ _
  · intro n hn hstacked hbegins
    obtain ⟨rest, hrest⟩ := hkept
    have hcollapsed := beginsWithPrefix_append hbegins rest
    rw [normalizeInbound, hrest] at hcollapsed
    exact stripPrefixes_of_stacked hstacked hn
      (beginsWithPrefix_of_collapseWhitespace hcollapsed)

end Inbound

/-- Two prefixes, in two languages. -/
theorem normalizeInbound_normal_two :
    ¬ BeginsWithPrefix (@normalizeInbound Sample.uniseg some "Re: AW : hola").toList :=
  (@normalizeInbound_normal Sample.uniseg some "Re: AW : hola").2.2 2 (by decide)
    ⟨_, rfl, _, rfl, by unfold Stacked BeginsWithPrefix; decide⟩

/-- Of fifty-one prefixes one is left. -/
theorem normalizeInbound_not_normal :
    BeginsWithPrefix (@normalizeInbound Sample.uniseg some
      (String.ofList ((List.replicate 51 "re:".toList).flatten ++ "hola".toList))).toList := by
  unfold BeginsWithPrefix
  decide +kernel

/-! ## Outbound subjects -/

section Clean

variable [Uniseg]

/-- No control character, and no more clusters than the cap. -/
lemma sanitizeCapped_clean (raw : String) {cap : ℕ} (hcap : 0 < cap) :
    (∀ c ∈ (sanitizeCapped raw cap).toList, isControl c = false) ∧
      Graphemes.countClusters (sanitizeCapped raw cap) ≤ cap := by
  refine ⟨?_, ?_⟩
  · intro c hc
    have hmem := (Graphemes.truncate_prefix _ hcap).subset hc
    rw [String.toList_ofList] at hmem
    rcases mem_collapseWhitespace hmem with rfl | ⟨-, hmem⟩
    · decide
    · obtain ⟨r, -, rfl⟩ := List.mem_map.1 hmem
      split_ifs with hr
      · decide
      · exact Bool.not_eq_true _ ▸ hr
  · rw [sanitizeCapped, Graphemes.countClusters_truncate _ hcap]
    exact Nat.min_le_left _ _

/-- The text of an outbound subject, whichever of its three sources it has. -/
lemma outboundPlain_clean (rawSubject body ownerName : String) :
    (∀ c ∈ (outboundPlain rawSubject body ownerName).toList, isControl c = false) ∧
      Graphemes.countClusters (outboundPlain rawSubject body ownerName) ≤ maxGraphemes := by
  have hmax : 0 < maxGraphemes := by decide
  have hgenerated : 0 < generatedMaxGraphemes := by decide
  rw [outboundPlain]
  split_ifs with hempty
  · rw [generate]
    split_ifs with hwords
    · obtain ⟨hclean, hcount⟩ :=
        sanitizeCapped_clean (String.ofList (collapseWhitespace body.toList)) hgenerated
      exact ⟨hclean, le_trans hcount (by decide)⟩
    · exact sanitizeCapped_clean _ hmax
  · exact sanitizeCapped_clean _ hmax

end Clean

end Chaskiwasi.Mail.Subject
