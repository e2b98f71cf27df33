import Chaskiwasi.Lib.Lines
import Chaskiwasi.Pututu.Token
import Chaskiwasi.Sync.Wire
import Mathlib.Data.List.TakeWhile

/-!
# Records on flash

Every file of the device's stores is a record: pairs of a key and a value, a line for each, with the
line breaks of a value escaped.  A file can be cut short by a loss of power, so what a reader may
rely on is not only that a record reads back as it was written (`decode_encode`) but that a torn one
reads as its first pairs, each of them whole (`decode_torn`).

Letters, outbox entries, the contact snapshot and the overlays are kept as records.  Strings are the
device's own here, bytes of any kind, and numbers are its machine integers.
-/

namespace Chaskiwasi.Device.Record

open Pututu (Bytes ascii formatUint)

/-! ## Pairs and lines -/

def backslash : UInt8 := 92

def newline : UInt8 := 10

def carriageReturn : UInt8 := 13

def equalsSign : UInt8 := 61

/-- The pairs of a file, in order. -/
abbrev Pairs := List (Bytes × Bytes)

def escape (c : UInt8) : Bytes :=
  if c = backslash then [backslash, backslash]
  else if c = newline then [backslash, 110]
  else if c = carriageReturn then [backslash, 114]
  else [c]

def encodeRecord (r : Pairs) : Bytes :=
  r.flatMap fun p => p.1 ++ equalsSign :: p.2.flatMap escape ++ [newline]

/-- A backslash at the very end stands for itself. -/
def unescape : Bytes → Bytes
  | [] => []
  | [c] => [c]
  | c :: d :: rest =>
      if c ≠ backslash then c :: unescape (d :: rest)
      else if d = 110 then newline :: unescape rest
      else if d = 114 then carriageReturn :: unescape rest
      else d :: unescape rest

def splitCompleteLines (text : Bytes) : List Bytes := Lines.complete newline text

/-- A line without an equals sign is not a pair, and is passed over. -/
def decodeLine (line : Bytes) : Option (Bytes × Bytes) :=
  if equalsSign ∈ line then
    some (line.takeWhile fun c => c ≠ equalsSign,
      unescape ((line.dropWhile fun c => c ≠ equalsSign).drop 1))
  else none

def decodeRecord (text : Bytes) : Pairs := (splitCompleteLines text).filterMap decodeLine

/-- The first value under a key. -/
def find (r : Pairs) (key : Bytes) : Option Bytes := (r.find? fun p => p.1 = key).map Prod.snd

/-! ## Numbers and flags -/

def isSpace (c : UInt8) : Bool := c = 32 || (9 ≤ c && c ≤ 13)

def isDigit (c : UInt8) : Bool := 48 ≤ c && c ≤ 57

/-- White space, a sign, digits: the number, and what stands behind it.  Without a digit nothing is
read. -/
def strtoll (s : Bytes) : Option (ℤ × Bytes) :=
  let t := s.dropWhile isSpace
  let negative := t.head? = some 45
  let u := if t.head? = some 45 ∨ t.head? = some 43 then t.drop 1 else t
  let digits := u.takeWhile isDigit
  if digits = [] then none
  else
    let n : ℕ := digits.foldl (fun v c => v * 10 + (c - 48).toNat) 0
    some (if negative then -n else n, u.dropWhile isDigit)

/-- A C string ends at its first zero byte. -/
def parseI64 (s : Bytes) : Option Int64 :=
  if s = [] then none
  else
    match strtoll (s.takeWhile fun c => c ≠ 0) with
    | none => none
    | some (v, rest) =>
        if v < -2 ^ 63 ∨ 2 ^ 63 ≤ v then none
        else if rest ≠ [] then none
        else some (Int64.ofInt v)

def readI64 (r : Pairs) (key : Bytes) : Option Int64 := (find r key).bind parseI64

def readInt (r : Pairs) (key : Bytes) : Option Int32 := (readI64 r key).map Int64.toInt32

def parseBit (s : Bytes) : Option Bool :=
  if s = [49] then some true else if s = [48] then some false else none

def readBool (r : Pairs) (key : Bytes) : Option Bool := (find r key).bind parseBit

/-- The decimal digits of a number, behind its sign. -/
def formatInt (i : ℤ) : Bytes := if i < 0 then 45 :: formatUint i.natAbs else formatUint i.natAbs

def bit (b : Bool) : Bytes := if b then [49] else [48]

/-! ## Letters -/

structure Letter where
  id : Bytes := []
  contactID : Bytes := []
  subject : Bytes := []
  date : Int64 := 0
  body : Bytes := []
  trimmed : Bool := false
  truncated : Bool := false
  degraded : Bool := false
  deriving DecidableEq

structure StoredLetter where
  letter : Letter := {}
  unread : Bool := true
  deriving DecidableEq

def letterRecord (l : Letter) (unread : Bool) : Pairs :=
  [(ascii "id".toList, l.id), (ascii "contact_id".toList, l.contactID),
    (ascii "subject".toList, l.subject), (ascii "date".toList, formatInt l.date.toInt),
    (ascii "trimmed".toList, bit l.trimmed), (ascii "truncated".toList, bit l.truncated),
    (ascii "degraded".toList, bit l.degraded), (ascii "unread".toList, bit unread),
    (ascii "body".toList, l.body)]

def encodeLetter (l : Letter) (unread : Bool) : Bytes := encodeRecord (letterRecord l unread)

/-- What the pairs say about a letter; a field they do not have keeps its value. -/
def letterOf (r : Pairs) (out : StoredLetter) : Option StoredLetter :=
  match find r (ascii "id".toList) with
  | none => none
  | some id =>
      if id = [] then none
      else some
        { letter :=
            { id := id
              contactID := (find r (ascii "contact_id".toList)).getD out.letter.contactID
              subject := (find r (ascii "subject".toList)).getD out.letter.subject
              body := (find r (ascii "body".toList)).getD out.letter.body
              date := (readI64 r (ascii "date".toList)).getD out.letter.date
              trimmed := (readBool r (ascii "trimmed".toList)).getD out.letter.trimmed
              truncated := (readBool r (ascii "truncated".toList)).getD out.letter.truncated
              degraded := (readBool r (ascii "degraded".toList)).getD out.letter.degraded }
          unread := (readBool r (ascii "unread".toList)).getD out.unread }

def decodeLetter (text : Bytes) (out : StoredLetter) : Option StoredLetter :=
  letterOf (decodeRecord text) out

/-! ## Outbox entries -/

/-- A status as a number; the last is for one that is not known. -/
def statusCode : Option AckStatus → Int32
  | some .sent => 0
  | some .rejectedInactive => 1
  | some .rejectedUnknownContact => 2
  | some .invalid => 3
  | some .rejectedUndeliverable => 4
  | none => 5

def statusOf (n : Int32) : Option (Option AckStatus) :=
  if n = 0 then some (some .sent)
  else if n = 1 then some (some .rejectedInactive)
  else if n = 2 then some (some .rejectedUnknownContact)
  else if n = 3 then some (some .invalid)
  else if n = 4 then some (some .rejectedUndeliverable)
  else if n = 5 then some none
  else none

structure OutboxEntry where
  localID : Bytes := []
  contactID : Bytes := []
  subject : Bytes := []
  body : Bytes := []
  composedAt : Int64 := 0
  rejected : Bool := false
  /-- `none` is `kUnknown`. -/
  rejectStatus : Option AckStatus := none
  deriving DecidableEq

def entryRecord (e : OutboxEntry) : Pairs :=
  [(ascii "local_id".toList, e.localID), (ascii "contact_id".toList, e.contactID),
    (ascii "subject".toList, e.subject), (ascii "body".toList, e.body),
    (ascii "composed_at".toList, formatInt e.composedAt.toInt),
    (ascii "rejected".toList, bit e.rejected),
    (ascii "reject_status".toList, formatInt (statusCode e.rejectStatus).toInt)]

def encodeEntry (e : OutboxEntry) : Bytes := encodeRecord (entryRecord e)

def entryOf (r : Pairs) (out : OutboxEntry) : Option OutboxEntry :=
  match find r (ascii "local_id".toList) with
  | none => none
  | some id =>
      if id = [] then none
      else some
        { localID := id
          contactID := (find r (ascii "contact_id".toList)).getD out.contactID
          subject := (find r (ascii "subject".toList)).getD out.subject
          body := (find r (ascii "body".toList)).getD out.body
          composedAt := (readI64 r (ascii "composed_at".toList)).getD out.composedAt
          rejected := (readBool r (ascii "rejected".toList)).getD out.rejected
          rejectStatus := ((readInt r (ascii "reject_status".toList)).bind statusOf).getD
            out.rejectStatus }

def decodeEntry (text : Bytes) (out : OutboxEntry) : Option OutboxEntry :=
  entryOf (decodeRecord text) out

/-! ## The contact snapshot -/

structure AylluContact where
  id : Bytes := []
  name : Bytes := []
  active : Bool := false
  pinned : Bool := false
  order : Int32 := 0
  portrait : Bytes := []
  deriving DecidableEq

structure Ayllu where
  version : Int32 := 0
  contacts : List AylluContact := []
  deriving DecidableEq

def contactRecord (c : AylluContact) : Pairs :=
  [(ascii "contact.id".toList, c.id), (ascii "contact.name".toList, c.name),
    (ascii "contact.active".toList, bit c.active), (ascii "contact.pinned".toList, bit c.pinned),
    (ascii "contact.order".toList, formatInt c.order.toInt),
    (ascii "contact.portrait".toList, c.portrait)]

def snapshotRecord (a : Ayllu) : Pairs :=
  (ascii "version".toList, formatInt a.version.toInt) :: a.contacts.flatMap contactRecord

def encodeSnapshot (a : Ayllu) : Bytes := encodeRecord (snapshotRecord a)

def parseInt (s : Bytes) : Option Int32 := (parseI64 s).map Int64.toInt32

/-- A field of the contact that was opened last. -/
def AylluContact.read (c : AylluContact) (key value : Bytes) : AylluContact :=
  if key = ascii "contact.name".toList then { c with name := value }
  else if key = ascii "contact.active".toList then
    { c with active := (parseBit value).getD c.active }
  else if key = ascii "contact.pinned".toList then
    { c with pinned := (parseBit value).getD c.pinned }
  else if key = ascii "contact.order".toList then { c with order := (parseInt value).getD c.order }
  else if key = ascii "contact.portrait".toList then { c with portrait := value }
  else c

/-- A pair of the file: a repeated id opens the next row, any other key belongs to the last. -/
def readRow {α : Type} (idKey : Bytes) (opened : Bytes → α) (read : α → Bytes → Bytes → α)
    (rows : List α) (p : Bytes × Bytes) : List α :=
  if p.1 = idKey then rows ++ [opened p.2]
  else
    match rows.getLast? with
    | none => rows
    | some row => rows.dropLast ++ [read row p.1 p.2]

def snapshotOf (r : Pairs) (out : Ayllu) : Ayllu :=
  { version := (readInt r (ascii "version".toList)).getD out.version
    contacts := r.foldl (readRow (ascii "contact.id".toList) (fun id => { id := id })
      AylluContact.read) out.contacts }

def decodeSnapshot (text : Bytes) (out : Ayllu) : Ayllu := snapshotOf (decodeRecord text) out

/-! ## The overlays -/

structure Overlay where
  nickname : Option Bytes := none
  pinned : Option Bool := none
  order : Option Int32 := none
  portrait : Option Bytes := none
  deriving DecidableEq

/-- A field that is not set has no pair. -/
def overlayRecord (row : Bytes × Overlay) : Pairs :=
  (ascii "overlay.id".toList, row.1) ::
    ((row.2.nickname.toList.map fun v => (ascii "overlay.nickname".toList, v)) ++
      (row.2.pinned.toList.map fun b => (ascii "overlay.pinned".toList, bit b)) ++
      (row.2.order.toList.map fun n => (ascii "overlay.order".toList, formatInt n.toInt)) ++
      row.2.portrait.toList.map fun v => (ascii "overlay.portrait".toList, v))

def encodeOverlays (rows : List (Bytes × Overlay)) : Bytes :=
  encodeRecord (rows.flatMap overlayRecord)

def readOverlay (row : Bytes × Overlay) (key value : Bytes) : Bytes × Overlay :=
  if key = ascii "overlay.nickname".toList then (row.1, { row.2 with nickname := some value })
  else if key = ascii "overlay.pinned".toList then
    (row.1, { row.2 with pinned := (parseBit value).or row.2.pinned })
  else if key = ascii "overlay.order".toList then
    (row.1, { row.2 with order := (parseInt value).or row.2.order })
  else if key = ascii "overlay.portrait".toList then
    (row.1, { row.2 with portrait := some value })
  else row

def overlaysOf (r : Pairs) : List (Bytes × Overlay) :=
  r.foldl (readRow (ascii "overlay.id".toList) (fun id => (id, {})) readOverlay) []

def decodeOverlays (text : Bytes) : List (Bytes × Overlay) := overlaysOf (decodeRecord text)

/-! ## What is written reads back -/

/-- The line of a pair. -/
def lineOf (p : Bytes × Bytes) : Bytes := p.1 ++ equalsSign :: p.2.flatMap escape

/-- Keys that a line can hold: no equals sign and no line break. -/
def Plain (keys : List Bytes) : Prop := ∀ key ∈ keys, equalsSign ∉ key ∧ newline ∉ key

instance (keys : List Bytes) : Decidable (Plain keys) :=
  inferInstanceAs (Decidable (∀ key ∈ keys, equalsSign ∉ key ∧ newline ∉ key))

/-- The keys of a record. -/
def keys (r : Pairs) : List Bytes := r.map Prod.fst

lemma encodeRecord_eq (r : Pairs) : encodeRecord r = Lines.text newline (r.map lineOf) := by
  rw [Lines.text, List.flatMap_map]
  rfl

lemma newline_notMem_escape (c : UInt8) : newline ∉ escape c := by
  unfold escape
  split_ifs with hb hn hr
  · decide
  · decide
  · decide
  · rw [List.mem_singleton]
    exact Ne.symm hn

lemma unescape_escape_append (c : UInt8) (rest : Bytes) :
    unescape (escape c ++ rest) = c :: unescape rest := by
  unfold escape
  split_ifs with hb hn hr
  · rw [List.cons_append, List.cons_append, List.nil_append, unescape, if_neg (not_not.2 rfl),
      if_neg (by decide), if_neg (by decide), hb]
  · rw [List.cons_append, List.cons_append, List.nil_append, unescape, if_neg (not_not.2 rfl),
      if_pos rfl, hn]
  · rw [List.cons_append, List.cons_append, List.nil_append, unescape, if_neg (not_not.2 rfl),
      if_neg (by decide), if_pos rfl, hr]
  · -- An ordinary byte, whether or not something follows it.
    cases rest with
    | nil => rfl
    | cons d rest => rw [List.singleton_append, unescape, if_pos hb]

lemma unescape_escape (v : Bytes) : unescape (v.flatMap escape) = v := by
  induction v with
  | nil => rfl
  | cons c v ih => rw [List.flatMap_cons, unescape_escape_append, ih]

lemma decodeLine_lineOf {p : Bytes × Bytes} (h : equalsSign ∉ p.1) :
    decodeLine (lineOf p) = some p := by
  have hall : ∀ c ∈ p.1, (decide (c ≠ equalsSign)) = true := by
    intro c hc
    exact decide_eq_true fun heq => h (heq ▸ hc)
  have hstop : decide (equalsSign ≠ equalsSign) = false := decide_eq_false (not_not.2 rfl)
  rw [decodeLine, lineOf, if_pos (List.mem_append_right _ List.mem_cons_self),
    List.takeWhile_append_of_pos hall, List.dropWhile_append_of_pos hall,
    List.takeWhile_cons_of_neg (by rw [hstop]; decide),
    List.dropWhile_cons_of_neg (by rw [hstop]; decide),
    List.append_nil, List.drop_succ_cons, List.drop_zero, unescape_escape]

lemma filterMap_lineOf {r : Pairs} (h : Plain (keys r)) :
    (r.map lineOf).filterMap decodeLine = r := by
  induction r with
  | nil => rfl
  | cons p r ih =>
      rw [List.map_cons, List.filterMap_cons, decodeLine_lineOf (h _ List.mem_cons_self).1,
        ih fun key hkey => h key (List.mem_cons_of_mem _ hkey)]

lemma newline_notMem_lineOf {r : Pairs} (h : Plain (keys r)) :
    ∀ line ∈ r.map lineOf, newline ∉ line := by
  intro line hline
  obtain ⟨p, hp, rfl⟩ := List.mem_map.1 hline
  have hkey := h p.1 (List.mem_map.2 ⟨p, hp, rfl⟩)
  rw [lineOf, List.mem_append, List.mem_cons, List.mem_flatMap]
  rintro (hmem | heq | ⟨c, -, hc⟩)
  · exact hkey.2 hmem
  · exact absurd heq (by decide)
  · exact newline_notMem_escape c hc

/-- **A record reads back as it was written.** -/
lemma decode_encode {r : Pairs} (h : Plain (keys r)) : decodeRecord (encodeRecord r) = r := by
  rw [decodeRecord, encodeRecord_eq, splitCompleteLines, Lines.complete_text
    (newline_notMem_lineOf h), filterMap_lineOf h]

/-- **A torn record reads as its first pairs**, wherever it was torn, and not as all of them. -/
lemma decode_torn {r : Pairs} (h : Plain (keys r)) (n : ℕ) :
    ∃ k ≤ r.length, decodeRecord ((encodeRecord r).take n) = r.take k ∧
      (n < (encodeRecord r).length → k < r.length) := by
  obtain ⟨k, hk, htake, hlt⟩ := Lines.complete_take (newline_notMem_lineOf h) n
  rw [List.length_map] at hk hlt
  rw [encodeRecord_eq]
  refine ⟨k, hk, ?_, hlt⟩
  rw [decodeRecord, splitCompleteLines, htake, ← List.map_take]
  refine filterMap_lineOf fun key hkey => h key ?_
  rw [keys, List.map_take] at hkey
  exact List.mem_of_mem_take hkey

/-! ## Numbers -/

/-- What holds of the ten digits. -/
lemma digit_cases {P : UInt8 → Prop} (h : ∀ d < 10, P (Pututu.digit d)) {c : UInt8}
    (hc : isDigit c = true) : P c := by
  rw [isDigit, Bool.and_eq_true, decide_eq_true_eq, decide_eq_true_eq] at hc
  obtain ⟨d, hd, rfl⟩ := Pututu.exists_digit (c := c)
    (not_or.2 ⟨UInt8.not_lt.2 hc.1, UInt8.not_lt.2 hc.2⟩)
  exact h d hd

lemma digits_of_foldlM {s : Bytes} {v w : ℕ} (h : s.foldlM Pututu.parseDigit v = some w) :
    (∀ c ∈ s, isDigit c = true) ∧ s.foldl (fun v c => v * 10 + (c - 48).toNat) v = w := by
  induction s generalizing v with
  | nil => exact ⟨fun c hc => absurd hc List.not_mem_nil, Option.some.inj h⟩
  | cons c s ih =>
      rw [List.foldlM_cons] at h
      obtain ⟨v', hdigit, hrest⟩ := Option.bind_eq_some_iff.1 h
      obtain ⟨d, hd, rfl, rfl, -⟩ := Pututu.parseDigit_eq_some.1 hdigit
      obtain ⟨hnot, hval⟩ := Pututu.digit_spec hd
      obtain ⟨hall, hfold⟩ := ih hrest
      refine ⟨?_, ?_⟩
      · rw [not_or, UInt8.not_lt, UInt8.not_lt] at hnot
        intro c hc
        rcases List.mem_cons.1 hc with rfl | hc
        · rw [isDigit, decide_eq_true hnot.1, decide_eq_true hnot.2]
          rfl
        · exact hall c hc
      · rw [List.foldl_cons, hval]
        exact hfold

lemma formatUint_digits {n : ℕ} (h : n < 2 ^ 64) : (∀ c ∈ formatUint n, isDigit c = true) ∧
    (formatUint n).foldl (fun v c => v * 10 + (c - 48).toNat) 0 = n :=
  digits_of_foldlM (Pututu.foldlM_formatUint (Nat.le_sub_one_of_lt h))

/-- What `strtoll` reads of digits. -/
lemma strtoll_formatInt {i : ℤ} (h : i.natAbs < 2 ^ 64) : strtoll (formatInt i) = some (i, []) := by
  obtain ⟨hall, hval⟩ := formatUint_digits h
  have hne := Pututu.formatUint_ne_nil i.natAbs
  have htake : (formatUint i.natAbs).takeWhile isDigit = formatUint i.natAbs :=
    List.takeWhile_eq_self_iff.2 hall
  have hdrop : (formatUint i.natAbs).dropWhile isDigit = [] := List.dropWhile_eq_nil_iff.2 hall
  rw [strtoll, formatInt]
  by_cases hneg : i < 0
  · rw [if_pos hneg]
    have hspace : (45 :: formatUint i.natAbs).dropWhile isSpace = 45 :: formatUint i.natAbs :=
      List.dropWhile_cons_of_neg (by decide)
    simp only [hspace, List.head?_cons, true_or, if_true, List.drop_succ_cons, List.drop_zero,
      htake, hdrop, hval]
    rw [if_neg hne, show -(i.natAbs : ℤ) = i by omega]
  · rw [if_neg hneg]
    obtain ⟨c, s, hs⟩ := List.exists_cons_of_ne_nil hne
    have hc : isDigit c = true := hall c (hs ▸ List.mem_cons_self)
    have hspace : (formatUint i.natAbs).dropWhile isSpace = formatUint i.natAbs := by
      rw [hs]
      apply List.dropWhile_cons_of_neg
      exact digit_cases (P := fun c => ¬ isSpace c = true) (by decide) hc
    have hsign : (formatUint i.natAbs).head? ≠ some 45 ∧ (formatUint i.natAbs).head? ≠ some 43 := by
      rw [hs, List.head?_cons]
      exact digit_cases (P := fun c => some c ≠ some 45 ∧ some c ≠ some 43) (by decide) hc
    simp only [hspace, hsign.1, hsign.2, or_self, if_false, htake, hdrop, hval]
    rw [if_neg hne, show (i.natAbs : ℤ) = i by omega]

lemma takeWhile_formatInt {i : ℤ} (h : i.natAbs < 2 ^ 64) :
    (formatInt i).takeWhile (fun c => c ≠ 0) = formatInt i := by
  obtain ⟨hall, -⟩ := formatUint_digits h
  have hdigit : ∀ c : UInt8, isDigit c = true → c ≠ 0 :=
    fun c => digit_cases (P := fun c => c ≠ 0) (by decide)
  rw [List.takeWhile_eq_self_iff]
  intro c hc
  apply decide_eq_true
  rw [formatInt] at hc
  split_ifs at hc with hneg
  · rcases List.mem_cons.1 hc with rfl | hc
    · decide
    · exact hdigit c (hall c hc)
  · exact hdigit c (hall c hc)

lemma formatInt_ne_nil (i : ℤ) : formatInt i ≠ [] := by
  unfold formatInt
  split_ifs
  · exact List.cons_ne_nil _ _
  · exact Pututu.formatUint_ne_nil _

lemma parseI64_formatInt (i : Int64) : parseI64 (formatInt i.toInt) = some i := by
  have hlo := i.le_toInt
  have hhi := i.toInt_lt
  have habs : i.toInt.natAbs < 2 ^ 64 := by omega
  rw [parseI64, if_neg (formatInt_ne_nil _), takeWhile_formatInt habs, strtoll_formatInt habs]
  simp only
  rw [if_neg (by omega), if_neg (not_not.2 rfl), Int64.ofInt_toInt]

lemma parseInt_formatInt (i : Int32) : parseInt (formatInt i.toInt) = some i := by
  have h : i.toInt = i.toInt64.toInt := i.toInt_toInt64.symm
  rw [parseInt, h, parseI64_formatInt, Option.map_some, Int32.toInt32_toInt64]

lemma parseBit_bit (b : Bool) : parseBit (bit b) = some b := by
  cases b with
  | false => rfl
  | true => rfl

lemma statusOf_statusCode (s : Option AckStatus) : statusOf (statusCode s) = some s := by
  rcases s with - | (- | - | - | - | -)
  all_goals rfl

/-! ## The four files -/

lemma plain_letterRecord (l : Letter) (unread : Bool) : Plain (keys (letterRecord l unread)) := by
  have hkeys : keys (letterRecord l unread) = keys (letterRecord {} true) := rfl
  rw [hkeys]
  decide

lemma letterOf_letterRecord {l : Letter} (h : l.id ≠ []) (unread : Bool) (out : StoredLetter) :
    letterOf (letterRecord l unread) out = some ⟨l, unread⟩ := by
  have hid : find (letterRecord l unread) (ascii "id".toList) = some l.id := rfl
  have hcontact : find (letterRecord l unread) (ascii "contact_id".toList) = some l.contactID := rfl
  have hsubject : find (letterRecord l unread) (ascii "subject".toList) = some l.subject := rfl
  have hbody : find (letterRecord l unread) (ascii "body".toList) = some l.body := rfl
  have hdate : readI64 (letterRecord l unread) (ascii "date".toList) = some l.date :=
    parseI64_formatInt l.date
  have htrimmed : readBool (letterRecord l unread) (ascii "trimmed".toList) = some l.trimmed :=
    parseBit_bit l.trimmed
  have htruncated : readBool (letterRecord l unread) (ascii "truncated".toList) =
      some l.truncated := parseBit_bit l.truncated
  have hdegraded : readBool (letterRecord l unread) (ascii "degraded".toList) = some l.degraded :=
    parseBit_bit l.degraded
  have hunread : readBool (letterRecord l unread) (ascii "unread".toList) = some unread :=
    parseBit_bit unread
  simp only [letterOf, hid, if_neg h, hcontact, hsubject, hbody, hdate, htrimmed, htruncated,
    hdegraded, hunread, Option.getD_some]

lemma plain_entryRecord (e : OutboxEntry) : Plain (keys (entryRecord e)) := by
  have hkeys : keys (entryRecord e) = keys (entryRecord {}) := rfl
  rw [hkeys]
  decide

lemma entryOf_entryRecord {e : OutboxEntry} (h : e.localID ≠ []) (out : OutboxEntry) :
    entryOf (entryRecord e) out = some e := by
  have hid : find (entryRecord e) (ascii "local_id".toList) = some e.localID := rfl
  have hcontact : find (entryRecord e) (ascii "contact_id".toList) = some e.contactID := rfl
  have hsubject : find (entryRecord e) (ascii "subject".toList) = some e.subject := rfl
  have hbody : find (entryRecord e) (ascii "body".toList) = some e.body := rfl
  have hcomposed : readI64 (entryRecord e) (ascii "composed_at".toList) = some e.composedAt :=
    parseI64_formatInt e.composedAt
  have hrejected : readBool (entryRecord e) (ascii "rejected".toList) = some e.rejected :=
    parseBit_bit e.rejected
  have hstatus : readInt (entryRecord e) (ascii "reject_status".toList) =
      some (statusCode e.rejectStatus) := parseInt_formatInt _
  simp only [entryOf, hid, if_neg h, hcontact, hsubject, hbody, hcomposed, hrejected, hstatus,
    Option.bind_some, statusOf_statusCode, Option.getD_some]

/-- The rows that a list of pairs opens behind those there are: a row of which the first pair has
the id and the others are read one by one. -/
lemma foldl_readRow {α : Type} {idKey : Bytes} {opened : Bytes → α} {read : α → Bytes → Bytes → α}
    {fields : Pairs} (h : idKey ∉ keys fields) (rows : List α) (row : α) :
    fields.foldl (readRow idKey opened read) (rows ++ [row]) =
      rows ++ [fields.foldl (fun row p => read row p.1 p.2) row] := by
  induction fields generalizing row with
  | nil => rfl
  | cons p fields ih =>
      rw [keys, List.map_cons, List.mem_cons, not_or] at h
      have hp : readRow idKey opened read (rows ++ [row]) p = rows ++ [read row p.1 p.2] := by
        rw [readRow, if_neg (Ne.symm h.1), List.getLast?_append, List.getLast?_singleton]
        simp only [Option.some_or, List.dropLast_concat]
      rw [List.foldl_cons, hp, ih h.2, List.foldl_cons]

/-- Rows that were written one after the other. -/
lemma foldl_readRow_flatMap {α β : Type} (idKey : Bytes) (opened : Bytes → α)
    (read : α → Bytes → Bytes → α) (id : β → Bytes) (fields : β → Pairs) (made : β → α)
    (hkeys : ∀ b, idKey ∉ keys (fields b))
    (hmade : ∀ b, (fields b).foldl (fun row p => read row p.1 p.2) (opened (id b)) = made b)
    (bs : List β) (rows : List α) :
    (bs.flatMap fun b => (idKey, id b) :: fields b).foldl (readRow idKey opened read) rows =
      rows ++ bs.map made := by
  induction bs generalizing rows with
  | nil => rw [List.flatMap_nil, List.foldl_nil, List.map_nil, List.append_nil]
  | cons b bs ih =>
      have hopen : readRow idKey opened read rows (idKey, id b) = rows ++ [opened (id b)] :=
        if_pos rfl
      rw [List.flatMap_cons, List.foldl_append, List.foldl_cons, hopen, foldl_readRow (hkeys b),
        hmade, ih, List.map_cons, List.append_assoc, List.singleton_append]

lemma read_contactRecord (c : AylluContact) :
    (contactRecord c).tail.foldl (fun row p => AylluContact.read row p.1 p.2) { id := c.id } =
      c := by
  have hname : AylluContact.read { id := c.id } (ascii "contact.name".toList) c.name =
      { id := c.id, name := c.name } := rfl
  have hactive : AylluContact.read { id := c.id, name := c.name } (ascii "contact.active".toList)
      (bit c.active) = { id := c.id, name := c.name, active := c.active } := by
    show AylluContact.mk _ _ ((parseBit (bit c.active)).getD false) _ _ _ = _
    rw [parseBit_bit]
    rfl
  have hpinned : AylluContact.read { id := c.id, name := c.name, active := c.active }
      (ascii "contact.pinned".toList) (bit c.pinned) =
      { id := c.id, name := c.name, active := c.active, pinned := c.pinned } := by
    show AylluContact.mk _ _ _ ((parseBit (bit c.pinned)).getD false) _ _ = _
    rw [parseBit_bit]
    rfl
  have horder : AylluContact.read
      { id := c.id, name := c.name, active := c.active, pinned := c.pinned }
      (ascii "contact.order".toList) (formatInt c.order.toInt) =
      { id := c.id, name := c.name, active := c.active, pinned := c.pinned, order := c.order } := by
    show AylluContact.mk _ _ _ _ ((parseInt (formatInt c.order.toInt)).getD 0) _ = _
    rw [parseInt_formatInt]
    rfl
  rw [contactRecord, List.tail_cons]
  simp only [List.foldl_cons, List.foldl_nil]
  rw [hname, hactive, hpinned, horder]
  rfl

lemma keys_flatMap {β : Type} (f : β → Pairs) (bs : List β) :
    keys (bs.flatMap f) = bs.flatMap fun b => keys (f b) := List.map_flatMap

lemma keys_contactRecord (c : AylluContact) :
    keys (contactRecord c) = keys (contactRecord {}) := rfl

lemma plain_snapshotRecord (a : Ayllu) : Plain (keys (snapshotRecord a)) := by
  have hcontact : Plain (keys (contactRecord {})) := by decide
  have hversion : Plain [ascii "version".toList] := by decide
  intro key hkey
  rcases List.mem_cons.1 hkey with rfl | hkey
  · exact hversion _ List.mem_cons_self
  · rw [← keys, keys_flatMap] at hkey
    obtain ⟨c, -, hc⟩ := List.mem_flatMap.1 hkey
    exact hcontact key (keys_contactRecord c ▸ hc)

lemma snapshotOf_snapshotRecord (a : Ayllu) : snapshotOf (snapshotRecord a) {} = a := by
  have hversion : readInt (snapshotRecord a) (ascii "version".toList) = some a.version :=
    parseInt_formatInt a.version
  have hstray : readRow (ascii "contact.id".toList) (fun id => { id := id }) AylluContact.read []
      (ascii "version".toList, formatInt a.version.toInt) = [] := rfl
  have hkeys : ∀ c, ascii "contact.id".toList ∉ keys (contactRecord c).tail := by
    intro c
    have hnot : ascii "contact.id".toList ∉ (keys (contactRecord {})).tail := by decide
    have htail : keys (contactRecord c).tail = (keys (contactRecord {})).tail := by
      rw [keys, List.map_tail, ← keys, keys_contactRecord]
    rw [htail]
    exact hnot
  have hrows := foldl_readRow_flatMap (ascii "contact.id".toList)
    (fun id => ({ id := id } : AylluContact)) AylluContact.read AylluContact.id
    (fun c => (contactRecord c).tail) (fun c => c) hkeys read_contactRecord a.contacts []
  rw [List.nil_append, List.map_id'] at hrows
  rw [snapshotOf, hversion, snapshotRecord, List.foldl_cons, hstray]
  exact congrArg (Ayllu.mk a.version) hrows

lemma read_overlayRecord (row : Bytes × Overlay) :
    (overlayRecord row).tail.foldl (fun row p => readOverlay row p.1 p.2) (row.1, {}) = row := by
  obtain ⟨id, nickname, pinned, order, portrait⟩ := row
  have hnickname : ∀ v o, readOverlay (id, o) (ascii "overlay.nickname".toList) v =
      (id, { o with nickname := some v }) := fun v o => rfl
  have hpinned : ∀ b o, readOverlay (id, o) (ascii "overlay.pinned".toList) (bit b) =
      (id, { o with pinned := some b }) := by
    intro b o
    show (id, { o with pinned := (parseBit (bit b)).or o.pinned }) = _
    rw [parseBit_bit, Option.some_or]
  have horder : ∀ (n : Int32) o, readOverlay (id, o) (ascii "overlay.order".toList)
      (formatInt n.toInt) = (id, { o with order := some n }) := by
    intro n o
    show (id, { o with order := (parseInt (formatInt n.toInt)).or o.order }) = _
    rw [parseInt_formatInt, Option.some_or]
  have hportrait : ∀ v o, readOverlay (id, o) (ascii "overlay.portrait".toList) v =
      (id, { o with portrait := some v }) := fun v o => rfl
  rw [overlayRecord, List.tail_cons, List.foldl_append, List.foldl_append, List.foldl_append]
  -- Each of the four steps reads its own field where it is set.
  have h1 : (nickname.toList.map fun v => (ascii "overlay.nickname".toList, v)).foldl
      (fun row p => readOverlay row p.1 p.2) (id, {}) = (id, { nickname := nickname }) := by
    cases nickname with
    | none => rfl
    | some v =>
        rw [Option.toList_some, List.map_singleton, List.foldl_cons, List.foldl_nil]
        exact hnickname v {}
  have h2 : (pinned.toList.map fun b => (ascii "overlay.pinned".toList, bit b)).foldl
      (fun row p => readOverlay row p.1 p.2) (id, { nickname := nickname }) =
      (id, { nickname := nickname, pinned := pinned }) := by
    cases pinned with
    | none => rfl
    | some b =>
        rw [Option.toList_some, List.map_singleton, List.foldl_cons, List.foldl_nil]
        exact hpinned b _
  have h3 : (order.toList.map fun n => (ascii "overlay.order".toList, formatInt n.toInt)).foldl
      (fun row p => readOverlay row p.1 p.2) (id, { nickname := nickname, pinned := pinned }) =
      (id, { nickname := nickname, pinned := pinned, order := order }) := by
    cases order with
    | none => rfl
    | some n =>
        rw [Option.toList_some, List.map_singleton, List.foldl_cons, List.foldl_nil]
        exact horder n _
  simp only
  rw [h1, h2, h3]
  cases portrait with
  | none => rfl
  | some v =>
      rw [Option.toList_some, List.map_singleton, List.foldl_cons, List.foldl_nil]
      exact hportrait v _

/-- The keys that a row of overlays may have after its id. -/
def overlayKeys : List Bytes :=
  [ascii "overlay.nickname".toList, ascii "overlay.pinned".toList, ascii "overlay.order".toList,
    ascii "overlay.portrait".toList]

lemma keys_overlayRecord (row : Bytes × Overlay) :
    ∀ key ∈ keys (overlayRecord row).tail, key ∈ overlayKeys := by
  intro key hkey
  rw [overlayRecord, List.tail_cons, keys, List.mem_map] at hkey
  obtain ⟨p, hp, rfl⟩ := hkey
  simp only [List.mem_append, List.mem_map, Option.mem_toList] at hp
  rw [overlayKeys, List.mem_cons, List.mem_cons, List.mem_cons, List.mem_singleton]
  rcases hp with ((⟨v, -, rfl⟩ | ⟨b, -, rfl⟩) | ⟨n, -, rfl⟩) | ⟨v, -, rfl⟩
  · exact Or.inl rfl
  · exact Or.inr (Or.inl rfl)
  · exact Or.inr (Or.inr (Or.inl rfl))
  · exact Or.inr (Or.inr (Or.inr rfl))

lemma plain_overlayRecord (rows : List (Bytes × Overlay)) :
    Plain (keys (rows.flatMap overlayRecord)) := by
  have hid : Plain [ascii "overlay.id".toList] := by decide
  have hfields : Plain overlayKeys := by decide
  intro key hkey
  rw [keys_flatMap] at hkey
  obtain ⟨row, -, hrow⟩ := List.mem_flatMap.1 hkey
  rcases List.mem_cons.1 hrow with rfl | hrow
  · exact hid _ List.mem_cons_self
  · exact hfields key (keys_overlayRecord row key hrow)

lemma overlaysOf_overlayRecord (rows : List (Bytes × Overlay)) :
    overlaysOf (rows.flatMap overlayRecord) = rows := by
  have hkeys : ∀ row, ascii "overlay.id".toList ∉ keys (overlayRecord row).tail := by
    intro row hmem
    have hid : ascii "overlay.id".toList ∉ overlayKeys := by decide
    exact hid (keys_overlayRecord row _ hmem)
  have hrows := foldl_readRow_flatMap (ascii "overlay.id".toList) (fun id => (id, {})) readOverlay
    Prod.fst (fun row => (overlayRecord row).tail) (fun row => row) hkeys read_overlayRecord rows []
  rw [List.nil_append, List.map_id'] at hrows
  exact hrows

/-! ## Every byte of a file -/

/-- What a reader that goes by the pairs makes of a file that may be torn: what it makes of the
first pairs, all of which are whole. -/
def Tears {β : Type} (r : Pairs) (read : Pairs → β) : Prop :=
  ∀ n, ∃ k ≤ r.length, (n < (encodeRecord r).length → k < r.length) ∧
    read (decodeRecord ((encodeRecord r).take n)) = read (r.take k)

lemma tears {β : Type} {r : Pairs} (h : Plain (keys r)) (read : Pairs → β) : Tears r read := by
  intro n
  obtain ⟨k, hk, htake, hlt⟩ := decode_torn h n
  exact ⟨k, hk, hlt, by rw [htake]⟩

/-- **Records round-trip and tear safely.**  A record with keys that a line can hold decodes to
itself; so do letters and outbox entries that have an id, snapshots and overlays.  Any part of an
encoding, however it was cut, decodes to the first pairs of the record, each as it was, and a part
that misses a byte misses the last pair; and each of the four readers makes of a part what it makes
of those pairs. -/
theorem records_roundtrip_torn :
    (∀ r, Plain (keys r) → decodeRecord (encodeRecord r) = r ∧ Tears r id) ∧
      (∀ (l : Letter) unread out, l.id ≠ [] →
        decodeLetter (encodeLetter l unread) out = some ⟨l, unread⟩) ∧
      (∀ (l : Letter) unread out, Tears (letterRecord l unread) fun r => letterOf r out) ∧
      (∀ (e : OutboxEntry) out, e.localID ≠ [] → decodeEntry (encodeEntry e) out = some e) ∧
      (∀ (e : OutboxEntry) out, Tears (entryRecord e) fun r => entryOf r out) ∧
      (∀ a, decodeSnapshot (encodeSnapshot a) {} = a ∧
        Tears (snapshotRecord a) fun r => snapshotOf r {}) ∧
      ∀ rows, decodeOverlays (encodeOverlays rows) = rows ∧
        Tears (rows.flatMap overlayRecord) overlaysOf := by
  refine ⟨fun r h => ⟨decode_encode h, tears h id⟩, fun l unread out h => ?_,
    fun l unread out => tears (plain_letterRecord l unread) _, fun e out h => ?_,
    fun e out => tears (plain_entryRecord e) _,
    fun a => ⟨?_, tears (plain_snapshotRecord a) _⟩,
    fun rows => ⟨?_, tears (plain_overlayRecord rows) _⟩⟩
  · rw [decodeLetter, encodeLetter, decode_encode (plain_letterRecord l unread)]
    exact letterOf_letterRecord h unread out
  · rw [decodeEntry, encodeEntry, decode_encode (plain_entryRecord e)]
    exact entryOf_entryRecord h out
  · rw [decodeSnapshot, encodeSnapshot, decode_encode (plain_snapshotRecord a)]
    exact snapshotOf_snapshotRecord a
  · rw [decodeOverlays, encodeOverlays, decode_encode (plain_overlayRecord rows)]
    exact overlaysOf_overlayRecord rows

/-- A record with every byte that is escaped, a letter and an outbox entry. -/
theorem records_roundtrip_torn_sample :
    let r : Pairs := [(ascii "a".toList, [92, 10, 13, 61]), ([], [])]
    let l : Letter := { id := ascii "l-1".toList, date := -1, body := [92, 110, 10] }
    let e : OutboxEntry := { localID := ascii "7".toList, rejected := true }
    decodeRecord (encodeRecord r) = r ∧
      decodeLetter (encodeLetter l false) {} = some ⟨l, false⟩ ∧
      decodeEntry (encodeEntry e) {} = some e :=
  ⟨(records_roundtrip_torn.1 _ (by decide)).1, records_roundtrip_torn.2.1 _ _ _ (by decide),
    records_roundtrip_torn.2.2.2.1 _ _ (by decide)⟩

end Chaskiwasi.Device.Record
