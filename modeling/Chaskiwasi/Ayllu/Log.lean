import Chaskiwasi.Ayllu.Mutate

/-!
# The change log

`ayllu-log.jsonl` holds one line of JSON for each change of the contact table that the family is
told of.  It is the one file of the server that is appended to and not rewritten, so a write to it
can stop anywhere, and what the next process finds is the bytes that were written.

JSON itself is a parameter, `EventCodec`, with the two facts the log rests on: a text has no newline
in it, and reads back as the event it was made of.  Nothing is said about other texts.  The central
fact is `lines_append`: what is appended where a line begins forms lines of its own and leaves the
lines before it alone.  Appended to a line that was cut short, it becomes part of that line.
-/

namespace Chaskiwasi

def newline : UInt8 := 10

/-- `json.Marshal` and `json.Unmarshal` on an `Event`.  Spaces around a text do not matter to
`json.Unmarshal`, so the trimming that precedes it is left out. -/
class EventCodec where
  marshal : Event → List UInt8
  unmarshal : List UInt8 → Option Event
  newline_not_mem : ∀ e, newline ∉ marshal e
  marshal_ne_nil : ∀ e, marshal e ≠ []
  unmarshal_marshal : ∀ e, unmarshal (marshal e) = some e

/-- How an append to the log ends. -/
inductive LogOutcome
  | done
  /-- An error, or the end of the process, after this many bytes were written. -/
  | cut (n : ℕ)
  deriving DecidableEq, Repr

/-- The bytes that reach the file. -/
def LogOutcome.written (line : List UInt8) : LogOutcome → List UInt8
  | .done => line
  | .cut n => line.take n

/-- The longest line a `bufio.Scanner` is given room for, with its newline. -/
def scanLimit : ℕ := 2 ^ 20

/-- `bufio.ScanLines`: a last line needs no newline. -/
def lines : List UInt8 → List (List UInt8)
  | [] => []
  | b :: bs =>
      if b = newline then [] :: lines bs
      else
        match lines bs with
        | [] => [[b]]
        | l :: ls => (b :: l) :: ls

section Codec

variable [EventCodec]

/-- The line an event is appended as. -/
def logLine (e : Event) : List UInt8 :=
  EventCodec.marshal e ++ [newline]

/-- `ReadLog`: the events from `since` on, or an error where a line is too long. -/
def readLog (file : List UInt8) (since : ℤ) : Option (List Event) :=
  if ∃ l ∈ lines file, scanLimit ≤ l.length then none
  else some (((lines file).filterMap EventCodec.unmarshal).filter fun e => ¬ e.time < since)

end Codec

/-! ## Lines -/

/-- The next byte begins a line. -/
def AtLineStart (file : List UInt8) : Prop :=
  ∀ b ∈ file.getLast?, b = newline

instance (file : List UInt8) : Decidable (AtLineStart file) :=
  inferInstanceAs (Decidable (∀ b ∈ file.getLast?, _))

lemma AtLineStart.tail {b : UInt8} {file : List UInt8} (h : AtLineStart (b :: file)) :
    AtLineStart file := by
  intro x hx
  cases file with
  | nil => cases hx
  | cons c file => exact h x (by rwa [List.getLast?_cons_cons])

/-- What is appended where a line begins leaves the lines before it alone. -/
theorem lines_append {file : List UInt8} (h : AtLineStart file) (more : List UInt8) :
    lines (file ++ more) = lines file ++ lines more := by
  induction file with
  | nil => rfl
  | cons b file ih =>
      rw [List.cons_append, lines, lines, ih h.tail]
      by_cases hb : b = newline
      · simp only [if_pos hb, List.cons_append]
      · simp only [if_neg hb]
        -- A byte that ends no line is not the last one.
        have hne : lines file ≠ [] := by
          intro hnil
          cases file with
          | nil => exact hb (h b rfl)
          | cons c file =>
              rw [lines] at hnil
              split at hnil
              · cases hnil
              · split at hnil <;> cases hnil
        obtain ⟨l, ls, heq⟩ := List.exists_cons_of_ne_nil hne
        simp only [heq, List.cons_append]

lemma lines_of_not_mem {text : List UInt8} (hne : text ≠ []) (h : newline ∉ text) :
    lines text = [text] := by
  induction text with
  | nil => exact absurd rfl hne
  | cons b text ih =>
      obtain ⟨hb, htext⟩ := not_or.1 (mt List.mem_cons.2 h)
      rw [lines, if_neg (Ne.symm hb)]
      by_cases hnil : text = []
      · rw [hnil, lines]
      · rw [ih hnil htext]

lemma lines_line {text : List UInt8} (hne : text ≠ []) (h : newline ∉ text) :
    lines (text ++ [newline]) = [text] := by
  induction text with
  | nil => exact absurd rfl hne
  | cons b text ih =>
      obtain ⟨hb, htext⟩ := not_or.1 (mt List.mem_cons.2 h)
      rw [List.cons_append, lines, if_neg (Ne.symm hb)]
      by_cases hnil : text = []
      · subst hnil
        simp [lines]
      · rw [ih hnil htext]

lemma atLineStart_line [EventCodec] (file : List UInt8) (e : Event) :
    AtLineStart (file ++ logLine e) := by
  intro b hb
  rw [logLine, ← List.append_assoc, List.getLast?_append] at hb
  simpa using hb.symm

section Reading

variable [EventCodec] {file : List UInt8} {evs : List Event} {e : Event} {o : LogOutcome}

/-- An append that wrote the whole text, with its newline or without, leaves it as one line. -/
lemma lines_written (h : EventCodec.marshal e <+: o.written (logLine e)) :
    lines (o.written (logLine e)) = [EventCodec.marshal e] := by
  have hline := lines_line (EventCodec.marshal_ne_nil e) (EventCodec.newline_not_mem e)
  cases o with
  | done => exact hline
  | cut n =>
      have hlen : (EventCodec.marshal e).length ≤ n := by
        have hle := h.length_le
        rw [LogOutcome.written, List.length_take] at hle
        omega
      by_cases hall : (logLine e).length ≤ n
      · rw [LogOutcome.written, List.take_of_length_le hall]
        exact hline
      · have hn : n = (EventCodec.marshal e).length := by
          rw [logLine, List.length_append, List.length_singleton] at hall
          omega
        rw [LogOutcome.written, hn, logLine, List.take_left]
        exact lines_of_not_mem (EventCodec.marshal_ne_nil e) (EventCodec.newline_not_mem e)

lemma filterMap_marshal (evs : List Event) :
    (evs.map EventCodec.marshal).filterMap EventCodec.unmarshal = evs := by
  rw [List.filterMap_map]
  calc evs.filterMap (EventCodec.unmarshal ∘ EventCodec.marshal)
      = evs.filterMap some := by
        congr 1
        funext e
        exact EventCodec.unmarshal_marshal e
    _ = evs := List.filterMap_some

/-- A log whose lines are these events, each shorter than the scanner's room, reads back as those of
them that are recent. -/
theorem readLog_of_lines (h : lines file = evs.map EventCodec.marshal)
    (hshort : ∀ e ∈ evs, (EventCodec.marshal e).length < scanLimit) (since : ℤ) :
    readLog file since = some (evs.filter fun e => ¬ e.time < since) := by
  have hroom : ¬ ∃ l ∈ evs.map EventCodec.marshal, scanLimit ≤ l.length := by
    rintro ⟨l, hl, hlong⟩
    obtain ⟨e, he, rfl⟩ := List.mem_map.1 hl
    exact absurd (hshort e he) (not_lt.2 hlong)
  rw [readLog, h, if_neg hroom, filterMap_marshal]

/-- Whatever such a log reads back as is some of these events, in their order. -/
lemma readLog_sublist {since : ℤ} {read : List Event} (h : lines file = evs.map EventCodec.marshal)
    (hread : readLog file since = some read) : read.Sublist evs := by
  unfold readLog at hread
  split_ifs at hread
  obtain rfl := Option.some.inj hread
  have hevs : (lines file).filterMap EventCodec.unmarshal = evs := by
    rw [h]
    exact filterMap_marshal evs
  rw [hevs]
  exact List.filter_sublist

end Reading

/-! ## A sample encoding -/

namespace Sample

/-- A number as so many ones and a two. -/
def encodeNat (n : ℕ) : List UInt8 := List.replicate n 1 ++ [2]

/-- A list of numbers, and a three. -/
def encodeNats (ns : List ℕ) : List UInt8 := ns.flatMap encodeNat ++ [3]

def decodeGo (n : ℕ) (ns : List ℕ) : List UInt8 → List (List ℕ)
  | [] => []
  | b :: bs =>
      if b = 1 then decodeGo (n + 1) ns bs
      else if b = 2 then decodeGo 0 (ns ++ [n]) bs
      else ns :: decodeGo 0 [] bs

lemma decodeGo_ones (k n : ℕ) (ns : List ℕ) (rest : List UInt8) :
    decodeGo n ns (List.replicate k 1 ++ rest) = decodeGo (n + k) ns rest := by
  induction k generalizing n with
  | zero => rfl
  | succ k ih =>
      rw [List.replicate_succ, List.cons_append, decodeGo, if_pos rfl, ih]
      congr 1
      omega

lemma decodeGo_flatMap (ms ns : List ℕ) (rest : List UInt8) :
    decodeGo 0 ns (ms.flatMap encodeNat ++ rest) = decodeGo 0 (ns ++ ms) rest := by
  induction ms generalizing ns with
  | nil => simp
  | cons m ms ih =>
      have hone : decodeGo 0 ns (encodeNat m ++ (ms.flatMap encodeNat ++ rest)) =
          decodeGo 0 (ns ++ [m]) (ms.flatMap encodeNat ++ rest) := by
        rw [encodeNat, List.append_assoc, decodeGo_ones]
        simp [decodeGo]
      rw [List.flatMap_cons, List.append_assoc, hone, ih]
      simp

lemma decodeGo_encodeNats (fields : List (List ℕ)) :
    decodeGo 0 [] (fields.flatMap encodeNats) = fields := by
  induction fields with
  | nil => rfl
  | cons ns fields ih =>
      have hone : decodeGo 0 [] (encodeNats ns ++ fields.flatMap encodeNats) =
          ns :: decodeGo 0 [] (fields.flatMap encodeNats) := by
        rw [encodeNats, List.append_assoc, decodeGo_flatMap]
        simp [decodeGo]
      rw [List.flatMap_cons, hone, ih]

def text (s : String) : List ℕ := s.toList.map Char.toNat

def ofText (ns : List ℕ) : String := String.ofList (ns.map Char.ofNat)

lemma ofText_text (s : String) : ofText (text s) = s := by
  simp [ofText, text, Function.comp_def]

def action : Action → ℕ
  | .add => 0
  | .deactivate => 1
  | .reactivate => 2
  | .readdress => 3
  | .cosmetic => 4

def ofAction : ℕ → Action
  | 0 => .add
  | 1 => .deactivate
  | 2 => .reactivate
  | 3 => .readdress
  | _ => .cosmetic

def fields (e : Event) : List (List ℕ) :=
  [[e.time.toNat, (-e.time).toNat], text e.actor, [action e.action], text e.contactID, text e.name,
    text e.oldAddress, text e.newAddress, [e.version]]

def ofFields : List (List ℕ) → Option Event
  | [[t, t'], actor, [a], contactID, name, oldAddress, newAddress, [version]] =>
      some { time := t - t', actor := ofText actor, action := ofAction a,
             contactID := ofText contactID, name := ofText name, oldAddress := ofText oldAddress,
             newAddress := ofText newAddress, version := version }
  | _ => none

lemma ofFields_fields (e : Event) : ofFields (fields e) = some e := by
  have htime : ((e.time.toNat : ℤ) - ((-e.time).toNat : ℤ)) = e.time := by omega
  have haction : ofAction (action e.action) = e.action := by
    cases e.action <;> rfl
  simp only [fields, ofFields, htime, haction, ofText_text]

lemma newline_not_mem_encodeNats (ns : List ℕ) : newline ∉ encodeNats ns := by
  simp [encodeNats, encodeNat, newline]

@[reducible] def codec : EventCodec where
  marshal := fun e => (fields e).flatMap encodeNats
  unmarshal := fun bytes => ofFields (decodeGo 0 [] bytes)
  newline_not_mem := by
    intro e he
    obtain ⟨ns, -, hns⟩ := List.mem_flatMap.1 he
    exact newline_not_mem_encodeNats ns hns
  marshal_ne_nil := by
    intro e
    simp [fields, encodeNats, encodeNat]
  unmarshal_marshal := by
    intro e
    rw [decodeGo_encodeNats, ofFields_fields]

end Sample

end Chaskiwasi
