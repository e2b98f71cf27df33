import Chaskiwasi.Ayllu.Log
import Chaskiwasi.Lib.Lines
import Chaskiwasi.Lib.Run
import Chaskiwasi.Outbound.State
import Chaskiwasi.Sync.Codec

/-!
# The kipu log and requests that overlap

Every sync adds one line to the file of its day.  `Append` reads the whole file, puts its line
behind it and writes the file anew.  The writing is serialised for the whole process and replaces
the file at once; nothing holds the reading and the writing of one `Append` together, and the
handlers of requests run beside each other.

So there are two steps to an `Append`, and what others do may fall between them.  The world keeps
beside each file the Appends whose lines it consists of (`standing`), and the Appends that returned
nil in the order in which they did (`returned`).  A file loses the line of an Append that returned
nil exactly where another one that had read the file before writes it (`visits_kept_iff`).

JSON is a parameter, with the one fact that the lines of the file rest on: its text has no newline.
A time is the number of nanoseconds since the epoch, and the file of a day has that day's number.
-/

namespace Chaskiwasi.KipuLog

/-- `json.Marshal` on a block and on a `line`; `none` is an error. -/
class LineCodec (Block : Type) where
  marshalBlock : Block → Option (List UInt8)
  marshalLine : ℤ → Option Block → Option (List UInt8)
  newline_not_mem : ∀ {now kipu l}, marshalLine now kipu = some l → newline ∉ l

/-! ## The two steps of an Append -/

/-- `pathFor`: the file of the UTC day. -/
def pathFor (now : ℤ) : ℤ := now / (24 * 60 * 60 * 1000000000)

section Codec

variable {Block : Type} [LineCodec Block]

/-- What `Append` does before it looks at the file: a block that is too large is dropped, and the
line goes without it. -/
def encode (block : Option Block) (now : ℤ) : Option (List UInt8) :=
  match block with
  | none => LineCodec.marshalLine now (none : Option Block)
  | some b =>
      (LineCodec.marshalBlock b).bind fun raw =>
        LineCodec.marshalLine now (if raw.length > Codec.maxKipuBytes then none else some b)

lemma newline_notMem_of_encode {block : Option Block} {now : ℤ} {encoded : List UInt8}
    (h : encode block now = some encoded) : newline ∉ encoded := by
  cases block with
  | none => exact LineCodec.newline_not_mem h
  | some b =>
      obtain ⟨raw, -, hline⟩ := Option.bind_eq_some_iff.1 h
      exact LineCodec.newline_not_mem hline

end Codec

/-- One `Append`, with the line it writes. -/
structure Entry where
  id : ℕ
  caller : ℕ
  day : ℤ
  encoded : List UInt8
  deriving DecidableEq, Repr

/-- An `Append` that has read the file. -/
structure Pending where
  entry : Entry
  /-- The file it read; empty where there was none. -/
  existing : List UInt8
  /-- The Appends whose lines that file consisted of. -/
  standing : List Entry
  /-- How many Appends to the file had returned nil by then. -/
  before : ℕ
  deriving DecidableEq, Repr

/-- The bytes an `Append` writes. -/
def Pending.updated (p : Pending) : List UInt8 := p.existing ++ p.entry.encoded ++ [newline]

structure World where
  files : ℤ → Option (List UInt8)
  /-- What each caller is in the middle of.  A caller makes one call after the other. -/
  calls : ℕ → Option Pending
  /-- How many Appends came as far as to read the file. -/
  next : ℕ
  /-- The Appends whose lines were put behind what the file of a day began with. -/
  standing : ℤ → List Entry
  /-- The Appends that returned nil. -/
  returned : List Entry

inductive Act (Block : Type)
  /-- A caller begins an `Append` and reads the file, or fails to. -/
  | read (caller : ℕ) (block : Option Block) (now : ℤ) (fails : Bool)
  /-- It goes on and writes the file, and returns. -/
  | write (caller : ℕ) (o : WriteOutcome)
  deriving DecidableEq, Repr

namespace World

variable {Block : Type}

def content (w : World) (day : ℤ) : List UInt8 := (w.files day).getD []

/-- The Appends to the file of a day that returned nil. -/
def done (w : World) (day : ℤ) : List Entry := w.returned.filter (·.day = day)

/-- The rename, with its bookkeeping. -/
def land (w : World) (p : Pending) : World :=
  { w with
    files := Function.update w.files p.entry.day (some p.updated)
    standing := Function.update w.standing p.entry.day (p.standing ++ [p.entry]) }

/-- The caller's `Append` returns. -/
def finish (w : World) (caller : ℕ) : World :=
  { w with calls := Function.update w.calls caller none }

/-- The first half of `Append`. -/
def read [LineCodec Block] (w : World) (caller : ℕ) (block : Option Block) (now : ℤ)
    (fails : Bool) : World :=
  match encode block now with
  | none => w
  | some encoded =>
      if fails then w
      else
        let p : Pending :=
          { entry := ⟨w.next, caller, pathFor now, encoded⟩
            existing := w.content (pathFor now)
            standing := w.standing (pathFor now)
            before := (w.done (pathFor now)).length }
        { w with calls := Function.update w.calls caller (some p), next := w.next + 1 }

/-- The second half: `atomicfile.WriteFile`, under its mutex from beginning to end. -/
def write (w : World) (caller : ℕ) (p : Pending) : WriteOutcome → World
  | .done => { (w.land p).finish caller with returned := w.returned ++ [p.entry] }
  | .unchanged => w.finish caller
  | .replaced => (w.land p).finish caller

end World

/-- A caller that is in the middle of an `Append` begins no other. -/
def step {Block : Type} [LineCodec Block] (w : World) : Act Block → Option World
  | .read caller block now fails =>
      match w.calls caller with
      | some _ => none
      | none => some (w.read caller block now fails)
  | .write caller o => (w.calls caller).map fun p => w.write caller p o

/-! ## What is asked of the log -/

/-- The file of each day is what it was, with a line for each `Append` that stands in it, in the
order in which they were begun; and each that returned nil stands in it once. -/
structure Kept (w₀ w : World) : Prop where
  whole : ∀ day, Lines.complete newline (w.content day) =
    Lines.complete newline (w₀.content day) ++ (w.standing day).map Entry.encoded
  order : ∀ day, (w.standing day).Pairwise fun e e' => e.id < e'.id
  once : ∀ e ∈ w.returned, (w.standing e.day).count e = 1

/-- Nothing is in progress, and every file is a file of lines. -/
structure Idle (w : World) : Prop where
  calls : ∀ caller, w.calls caller = none
  standing : ∀ day, w.standing day = []
  returned : w.returned = []
  lines : ∀ day, ∃ ls, w.content day = Lines.text newline ls ∧ ∀ l ∈ ls, newline ∉ l

/-- No other `Append` to the file returned nil between this one's reading and its writing. -/
def Fresh {Block : Type} (w : World) : Act Block → Prop
  | .write caller o => o ≠ .unchanged →
      ∀ p ∈ w.calls caller, (w.done p.entry.day).length = p.before
  | .read .. => True

instance {Block : Type} (w : World) : ∀ act : Act Block, Decidable (Fresh w act)
  | .write caller o =>
      inferInstanceAs (Decidable (o ≠ .unchanged →
        ∀ p ∈ w.calls caller, (w.done p.entry.day).length = p.before))
  | .read .. => isTrue trivial

/-- The log loses no line, whatever the callers do and in which order. -/
def NoLineLost (Block : Type) [LineCodec Block] : Prop :=
  ∀ (w₀ : World) (acts : List (Act Block)) (w : World), Idle w₀ →
    Run.run step w₀ acts = some w → Kept w₀ w

/-! ## What every step keeps -/

/-- An `Append` that is no longer in progress. -/
def Ended (w : World) (e : Entry) : Prop :=
  e.id < w.next ∧ ∀ caller p, w.calls caller = some p → p.entry.id ≠ e.id

/-- What holds of an `Append` that has read the file. -/
structure Behind (w₀ w : World) (p : Pending) : Prop where
  id_lt : p.entry.id < w.next
  newline_notMem : newline ∉ p.entry.encoded
  existing : p.existing =
    w₀.content p.entry.day ++ Lines.text newline (p.standing.map Entry.encoded)
  newer : ∀ e ∈ p.standing, e.id < p.entry.id
  sorted : p.standing.Pairwise fun e e' => e.id < e'.id
  ended : ∀ e ∈ p.standing, Ended w e
  lines : ∀ e ∈ p.standing, newline ∉ e.encoded
  before_le : p.before ≤ (w.done p.entry.day).length
  read : ∀ e ∈ (w.done p.entry.day).take p.before, e ∈ p.standing
  missed : ∀ e ∈ (w.done p.entry.day).drop p.before, e ∉ p.standing

/-- What the steps keep that overwrite no line of an `Append` that returned nil. -/
structure Inv (w₀ w : World) : Prop where
  content : ∀ day, w.content day =
    w₀.content day ++ Lines.text newline ((w.standing day).map Entry.encoded)
  sorted : ∀ day, (w.standing day).Pairwise fun e e' => e.id < e'.id
  ended : ∀ day, ∀ e ∈ w.standing day, Ended w e
  lines : ∀ day, ∀ e ∈ w.standing day, newline ∉ e.encoded
  stands : ∀ e ∈ w.returned, e ∈ w.standing e.day
  apart : ∀ c c' p p', w.calls c = some p → w.calls c' = some p' → p.entry.id = p'.entry.id → c = c'
  behind : ∀ c p, w.calls c = some p → Behind w₀ w p

variable {w₀ w : World} {p : Pending} {caller : ℕ}

lemma calls_cases {f : ℕ → Option Pending} {x : Option Pending} {a c : ℕ}
    (h : Function.update f a x c = some p) : c = a ∧ x = some p ∨ c ≠ a ∧ f c = some p := by
  by_cases hc : c = a
  · rw [hc, Function.update_self] at h
    exact Or.inl ⟨hc, h⟩
  · rw [Function.update_of_ne hc] at h
    exact Or.inr ⟨hc, h⟩

lemma calls_finish {c : ℕ} {q : Pending} (h : (w.finish caller).calls c = some q) :
    c ≠ caller ∧ w.calls c = some q := by
  rcases calls_cases (f := w.calls) h with ⟨-, hnone⟩ | h
  · cases hnone
  · exact h

lemma Inv.kept (hlines : ∀ day, ∃ ls, w₀.content day = Lines.text newline ls ∧
    ∀ l ∈ ls, newline ∉ l) (h : Inv w₀ w) : Kept w₀ w := by
  refine ⟨fun day => ?_, h.sorted, fun e he => ?_⟩
  · obtain ⟨ls, hls, hfree⟩ := hlines day
    have hall : ∀ l ∈ ls ++ (w.standing day).map Entry.encoded, newline ∉ l := by
      intro l hl
      rcases List.mem_append.1 hl with hl | hl
      · exact hfree l hl
      · obtain ⟨e, he, rfl⟩ := List.mem_map.1 hl
        exact h.lines day e he
    have htext : w.content day = Lines.text newline (ls ++ (w.standing day).map Entry.encoded) := by
      rw [h.content day, hls]
      exact (List.flatMap_append ..).symm
    rw [htext, hls, Lines.complete_text hall, Lines.complete_text hfree]
  · have hnodup : (w.standing e.day).Nodup := by
      refine (h.sorted e.day).imp fun hlt heq => ?_
      exact absurd hlt (heq ▸ lt_irrefl _)
    exact List.count_eq_one_of_mem hnodup (h.stands e he)

lemma Idle.inv (h : Idle w) : Inv w w where
  content day := by
    rw [h.standing day]
    exact (List.append_nil _).symm
  sorted day := h.standing day ▸ List.Pairwise.nil
  ended day e he := by
    rw [h.standing day] at he
    cases he
  lines day e he := by
    rw [h.standing day] at he
    cases he
  stands e he := by
    rw [h.returned] at he
    cases he
  apart c c' p p' hp := by
    rw [h.calls c] at hp
    cases hp
  behind c p hp := by
    rw [h.calls c] at hp
    cases hp

/-- An `Append` that returns leaves the others as they are. -/
lemma Inv.finish (h : Inv w₀ w) (caller : ℕ) : Inv w₀ (w.finish caller) := by
  have hcalls : ∀ c q, (w.finish caller).calls c = some q → w.calls c = some q :=
    fun c q hq => (calls_finish hq).2
  have hended : ∀ e, Ended w e → Ended (w.finish caller) e := fun e he =>
    ⟨he.1, fun c q hq => he.2 c q (hcalls c q hq)⟩
  refine ⟨h.content, h.sorted, fun day e he => hended e (h.ended day e he), h.lines, h.stands,
    fun c c' q q' hq hq' => h.apart c c' q q' (hcalls c q hq) (hcalls c' q' hq'), fun c q hq => ?_⟩
  have hq := h.behind c q (hcalls c q hq)
  exact { hq with ended := fun e he => hended e (hq.ended e he) }

/-- One that reads the file stands behind all that stands in it. -/
lemma Inv.read {encoded : List UInt8} (h : Inv w₀ w) (hidle : w.calls caller = none)
    (hfree : newline ∉ encoded) (day : ℤ) :
    Inv w₀ { w with
      calls := Function.update w.calls caller (some
        { entry := ⟨w.next, caller, day, encoded⟩
          existing := w.content day
          standing := w.standing day
          before := (w.done day).length })
      next := w.next + 1 } := by
  set p : Pending :=
    { entry := ⟨w.next, caller, day, encoded⟩
      existing := w.content day
      standing := w.standing day
      before := (w.done day).length } with hp
  set v : World := { w with calls := Function.update w.calls caller (some p), next := w.next + 1 }
    with hv
  have hcalls : ∀ c q, v.calls c = some q → c = caller ∧ q = p ∨ w.calls c = some q := by
    intro c q hq
    rcases calls_cases (f := w.calls) hq with ⟨hc, hsome⟩ | ⟨-, hq⟩
    · exact Or.inl ⟨hc, (Option.some.inj hsome).symm⟩
    · exact Or.inr hq
  have hended : ∀ e, Ended w e → Ended v e := by
    intro e he
    refine ⟨he.1.trans (Nat.lt_succ_self _), fun c q hq => ?_⟩
    rcases hcalls c q hq with ⟨-, rfl⟩ | hq
    · exact he.1.ne'
    · exact he.2 c q hq
  refine ⟨h.content, h.sorted, fun day e he => hended e (h.ended day e he), h.lines, h.stands,
    fun c c' q q' hq hq' heq => ?_, fun c q hq => ?_⟩
  · rcases hcalls c q hq with ⟨rfl, rfl⟩ | hq
    · rcases hcalls c' q' hq' with ⟨rfl, -⟩ | hq'
      · rfl
      · exact absurd heq (h.behind c' q' hq').id_lt.ne'
    · rcases hcalls c' q' hq' with ⟨-, rfl⟩ | hq'
      · exact absurd heq (h.behind c q hq).id_lt.ne
      · exact h.apart c c' q q' hq hq' heq
  · rcases hcalls c q hq with ⟨-, rfl⟩ | hq
    · have hall : (w.done day).take (w.done day).length = w.done day := List.take_length
      have hnone : (w.done day).drop (w.done day).length = [] := List.drop_length
      refine ⟨Nat.lt_succ_self _, hfree, h.content day, fun e he => (h.ended day e he).1,
        h.sorted day, fun e he => hended e (h.ended day e he), h.lines day, le_refl _,
        fun e he => ?_, fun e he => ?_⟩
      · have he' : e ∈ w.done day := hall ▸ he
        obtain ⟨hmem, hday⟩ := List.mem_filter.1 he'
        have hday : e.day = day := of_decide_eq_true hday
        show e ∈ w.standing day
        exact hday ▸ h.stands e hmem
      · have he' : e ∈ ([] : List Entry) := hnone ▸ he
        cases he'
    · have hq := h.behind c q hq
      exact { hq with
        id_lt := hq.id_lt.trans (Nat.lt_succ_self _)
        ended := fun e he => hended e (hq.ended e he) }

/-- The file as it is written stands by what its writer read, where nothing was missed. -/
lemma Inv.land (h : Inv w₀ w) (hp : w.calls caller = some p)
    (hfresh : (w.done p.entry.day).length = p.before) : Inv w₀ ((w.land p).finish caller) := by
  have hbehind := h.behind caller p hp
  have hcalls : ∀ c q, ((w.land p).finish caller).calls c = some q →
      c ≠ caller ∧ w.calls c = some q := fun c q hq => calls_finish (w := w.land p) hq
  have hended : ∀ e, Ended w e → Ended ((w.land p).finish caller) e := fun e he =>
    ⟨he.1, fun c q hq => he.2 c q (hcalls c q hq).2⟩
  have hself : Ended ((w.land p).finish caller) p.entry := by
    refine ⟨hbehind.id_lt, fun c q hq heq => ?_⟩
    exact (hcalls c q hq).1 (h.apart c caller q p (hcalls c q hq).2 hp heq)
  have hstanding : ∀ day, ((w.land p).finish caller).standing day =
      if day = p.entry.day then p.standing ++ [p.entry] else w.standing day := by
    intro day
    exact Function.update_apply ..
  have hcontent : ∀ day, ((w.land p).finish caller).content day =
      if day = p.entry.day then p.updated else w.content day := by
    intro day
    by_cases hday : day = p.entry.day
    · rw [if_pos hday, hday]
      show (Function.update w.files p.entry.day (some p.updated) p.entry.day).getD [] = p.updated
      rw [Function.update_self, Option.getD_some]
    · rw [if_neg hday]
      show (Function.update w.files p.entry.day (some p.updated) day).getD [] = w.content day
      rw [Function.update_of_ne hday, World.content]
  have hmem : ∀ day, ∀ e ∈ ((w.land p).finish caller).standing day,
      e ∈ p.standing ∨ e = p.entry ∨ e ∈ w.standing day := by
    intro day e he
    rw [hstanding day] at he
    split at he
    · rcases List.mem_append.1 he with he | he
      · exact Or.inl he
      · exact Or.inr (Or.inl (List.mem_singleton.1 he))
    · exact Or.inr (Or.inr he)
  refine ⟨fun day => ?_, fun day => ?_, fun day e he => ?_, fun day e he => ?_, fun e he => ?_,
    fun c c' q q' hq hq' => h.apart c c' q q' (hcalls c q hq).2 (hcalls c' q' hq').2,
    fun c q hq => ?_⟩
  · rw [hcontent day, hstanding day]
    by_cases hday : day = p.entry.day
    · rw [if_pos hday, if_pos hday, hday, Pending.updated, hbehind.existing, List.map_append,
        Lines.text, Lines.text, List.flatMap_append, List.append_assoc, List.append_assoc]
      simp
    · rw [if_neg hday, if_neg hday]
      exact h.content day
  · rw [hstanding day]
    split
    · refine List.pairwise_append.2 ⟨hbehind.sorted, List.pairwise_singleton _ _, ?_⟩
      intro e he e' he'
      exact List.mem_singleton.1 he' ▸ hbehind.newer e he
    · exact h.sorted day
  · rcases hmem day e he with he | rfl | he
    · exact hended e (hbehind.ended e he)
    · exact hself
    · exact hended e (h.ended day e he)
  · rcases hmem day e he with he | rfl | he
    · exact hbehind.lines e he
    · exact hbehind.newline_notMem
    · exact h.lines day e he
  · rw [hstanding e.day]
    split
    · rename_i hday
      have hdone : e ∈ w.done p.entry.day := List.mem_filter.2 ⟨he, decide_eq_true hday⟩
      rw [← List.take_length (l := w.done p.entry.day), hfresh] at hdone
      exact List.mem_append_left _ (hbehind.read e hdone)
    · exact h.stands e he
  · have hq' := h.behind c q (hcalls c q hq).2
    exact { hq' with ended := fun e he => hended e (hq'.ended e he) }

/-- One that returned nil stands in its file, and those that had read the file before do not know
of it. -/
lemma Inv.return {e : Entry} (h : Inv w₀ w) (hstands : e ∈ w.standing e.day)
    (hmissed : ∀ c q, w.calls c = some q → e ∉ q.standing) :
    Inv w₀ { w with returned := w.returned ++ [e] } := by
  refine ⟨h.content, h.sorted, h.ended, h.lines, fun e' he' => ?_, h.apart, fun c q hq => ?_⟩
  · rcases List.mem_append.1 he' with he' | he'
    · exact h.stands e' he'
    · exact List.mem_singleton.1 he' ▸ hstands
  · have hq' := h.behind c q hq
    have hdone : ({ w with returned := w.returned ++ [e] } : World).done q.entry.day =
        w.done q.entry.day ++ [e].filter (·.day = q.entry.day) := List.filter_append ..
    have hle := hq'.before_le
    refine { hq' with before_le := ?_, read := fun e' he' => ?_, missed := fun e' he' => ?_ }
    · rw [hdone, List.length_append]
      omega
    · rw [hdone, List.take_append_of_le_length hle] at he'
      exact hq'.read e' he'
    · rw [hdone, List.drop_append_of_le_length hle] at he'
      rcases List.mem_append.1 he' with he' | he'
      · exact hq'.missed e' he'
      · exact List.mem_singleton.1 (List.mem_of_mem_filter he') ▸ hmissed c q hq

variable {Block : Type} [LineCodec Block]

lemma read_cases (w : World) (caller : ℕ) (block : Option Block) (now : ℤ) (fails : Bool) :
    w.read caller block now fails = w ∨
      ∃ encoded, newline ∉ encoded ∧ w.read caller block now fails = { w with
        calls := Function.update w.calls caller (some
          { entry := ⟨w.next, caller, pathFor now, encoded⟩
            existing := w.content (pathFor now)
            standing := w.standing (pathFor now)
            before := (w.done (pathFor now)).length })
        next := w.next + 1 } := by
  rw [World.read]
  cases hencode : encode block now with
  | none => exact Or.inl rfl
  | some encoded =>
      cases fails with
      | true => exact Or.inl rfl
      | false => exact Or.inr ⟨encoded, newline_notMem_of_encode hencode, rfl⟩

/-- What a step can do. -/
lemma step_cases {act : Act Block} {w' : World} (hstep : step w act = some w') :
    (∃ caller block now fails, act = .read caller block now fails ∧ w.calls caller = none ∧
      w' = w.read caller block now fails) ∨
    ∃ caller o p, act = .write caller o ∧ w.calls caller = some p ∧ w' = w.write caller p o := by
  cases act with
  | read caller block now fails =>
      cases hcall : w.calls caller with
      | some p =>
          rw [step, hcall] at hstep
          cases hstep
      | none =>
          rw [step, hcall] at hstep
          exact Or.inl ⟨caller, block, now, fails, rfl, hcall, (Option.some.inj hstep).symm⟩
  | write caller o =>
      obtain ⟨p, hp, rfl⟩ := Option.map_eq_some_iff.1 hstep
      exact Or.inr ⟨caller, o, p, rfl, hp, rfl⟩

/-- A step that overwrites no line of an `Append` that returned nil keeps what is known. -/
theorem Inv.step {act : Act Block} {w' : World} (h : Inv w₀ w) (hfresh : Fresh w act)
    (hstep : step w act = some w') : Inv w₀ w' := by
  obtain ⟨caller, block, now, fails, rfl, hidle, rfl⟩ | ⟨caller, o, p, rfl, hp, rfl⟩ :=
    step_cases hstep
  · rcases read_cases w caller block now fails with hsame | ⟨encoded, hfree, hread⟩
    · exact hsame.symm ▸ h
    · exact hread.symm ▸ h.read hidle hfree _
  · cases o with
    | unchanged => exact h.finish caller
    | replaced => exact h.land hp (hfresh (by decide) p hp)
    | done =>
        have hland := h.land hp (hfresh (by decide) p hp)
        refine hland.return ?_ fun c q hq hmem => ?_
        · show p.entry ∈
            Function.update w.standing p.entry.day (p.standing ++ [p.entry]) p.entry.day
          rw [Function.update_self]
          exact List.mem_append_right _ (List.mem_singleton_self _)
        · have hq' : w.calls c = some q := (calls_finish (w := w.land p) hq).2
          exact ((h.behind c q hq').ended p.entry hmem).2 caller p hp rfl

/-- A write that overwrites such a line leaves a file without it. -/
lemma Inv.fresh_of_kept {act : Act Block} {w' : World} (h : Inv w₀ w)
    (hstep : KipuLog.step w act = some w') (hkept : Kept w₀ w') : Fresh w act := by
  obtain ⟨caller, block, now, fails, rfl, -, rfl⟩ | ⟨caller, o, p, rfl, hp, rfl⟩ :=
    step_cases hstep
  · trivial
  · intro ho q hq
    obtain rfl := Option.some.inj (hp.symm.trans hq)
    have hbehind := h.behind caller p hp
    by_contra hne
    have hlt : p.before < (w.done p.entry.day).length :=
      lt_of_le_of_ne hbehind.before_le (Ne.symm hne)
    -- the first that returned nil and was missed
    set e := (w.done p.entry.day)[p.before] with he
    have hdone : e ∈ w.done p.entry.day := List.getElem_mem hlt
    obtain ⟨hreturned, hday⟩ := List.mem_filter.1 hdone
    have hday : e.day = p.entry.day := of_decide_eq_true hday
    have hmissed : e ∉ p.standing := by
      refine hbehind.missed e ?_
      rw [List.drop_eq_getElem_cons hlt]
      exact List.mem_cons_self
    have hother : e ≠ p.entry := by
      intro heq
      exact (h.ended e.day e (h.stands e hreturned)).2 caller p hp (heq ▸ rfl)
    have hgone : e ∉ (w.write caller p o).standing e.day := by
      have hstanding : (w.write caller p o).standing e.day = p.standing ++ [p.entry] := by
        cases o with
        | unchanged => exact absurd rfl ho
        | done | replaced =>
            rw [hday]
            exact Function.update_self ..
      rw [hstanding, List.mem_append, List.mem_singleton, not_or]
      exact ⟨hmissed, hother⟩
    have hreturned' : e ∈ (w.write caller p o).returned := by
      cases o with
      | unchanged | replaced => exact hreturned
      | done => exact List.mem_append_left _ hreturned
    have honce := hkept.once e hreturned'
    rw [List.count_eq_zero_of_not_mem hgone] at honce
    cases honce

/-! ## Every run -/

/-- In every run from an idle log, the log loses no line if and only if no `Append` writes a file
that another one wrote, and returned nil, since it read it. -/
theorem visits_kept_iff {acts : List (Act Block)} (hidle : Idle w₀)
    (hrun : Run.run KipuLog.step w₀ acts = some w) :
    (∀ v ∈ Run.visits KipuLog.step w₀ acts, Kept w₀ v) ↔ Run.Meets KipuLog.step Fresh w₀ acts :=
  Run.forall_visits_iff_meets_of_run (D := fun _ _ => True)
    (fun _ _ _ h _ hstep => ⟨fun hfresh => h.step hfresh hstep, h.fresh_of_kept hstep⟩)
    (fun _ h => h.kept hidle.lines) hidle.inv (Run.meets_of_mem fun _ _ => trivial) hrun

end Chaskiwasi.KipuLog

namespace Chaskiwasi.Sample

open KipuLog

def textBytes (s : String) : List UInt8 := s.toList.map fun c => UInt8.ofNat c.toNat

/-- The text of a block that says no more than whether the battery is being charged. -/
def chargingText (charging : Bool) : String :=
  if charging then "\x7b\"charging\":true\x7d" else "\x7b\"charging\":false\x7d"

/-- The text of the first and the second second of 1970. -/
def stampText (now : ℤ) : String :=
  if now = 0 then "1970-01-01T00:00:00Z" else "1970-01-01T00:00:01Z"

def lineText (now : ℤ) (kipu : Option Bool) : String :=
  "\x7b\"at\":\"" ++ stampText now ++ "\"" ++
    (match kipu with
      | none => ""
      | some charging => ",\"kipu\":" ++ chargingText charging) ++ "\x7d"

lemma newline_notMem_lineText (now : ℤ) (kipu : Option Bool) :
    newline ∉ textBytes (lineText now kipu) := by
  unfold lineText stampText
  split <;> rcases kipu with _ | _ | _ <;> decide

instance chargingCodec : LineCodec Bool where
  marshalBlock charging := some (textBytes (chargingText charging))
  marshalLine now kipu := some (textBytes (lineText now kipu))
  newline_not_mem {now kipu _} h := Option.some.inj h ▸ newline_notMem_lineText now kipu

/-- The first start: no file, and no request. -/
def emptyLog : KipuLog.World := ⟨fun _ => none, fun _ => none, 0, fun _ => [], []⟩

lemma emptyLog_idle : KipuLog.Idle emptyLog :=
  ⟨fun _ => rfl, fun _ => rfl, rfl, fun _ => ⟨[], rfl, fun _ h => nomatch h⟩⟩

/-- Two requests; both have read the file when the first writes it. -/
def overlapping : List (KipuLog.Act Bool) :=
  [.read 0 (some true) 0 false, .read 1 (some false) 1000000000 false, .write 0 .done,
    .write 1 .done]

/-- The same, one after the other. -/
def oneByOne : List (KipuLog.Act Bool) :=
  [.read 0 (some true) 0 false, .write 0 .done, .read 1 (some false) 1000000000 false,
    .write 1 .done]

end Chaskiwasi.Sample

namespace Chaskiwasi.KipuLog

open Sample

theorem not_noLineLost : ¬ NoLineLost Bool := by
  intro h
  have hlost : (Run.run KipuLog.step emptyLog overlapping).any (fun w =>
      w.returned.any fun e => decide ((w.standing e.day).count e ≠ 1)) = true := by decide
  obtain ⟨w, hrun, hlost⟩ := Run.exists_of_any hlost
  obtain ⟨e, he, hcount⟩ := List.any_eq_true.1 hlost
  exact of_decide_eq_true hcount ((h emptyLog overlapping w emptyLog_idle hrun).once e he)

theorem visits_kept_oneByOne :
    ∃ w, Run.run KipuLog.step emptyLog oneByOne = some w ∧ w.returned.length = 2 ∧
      ∀ v ∈ Run.visits KipuLog.step emptyLog oneByOne, Kept emptyLog v := by
  have hmeets : Run.Meets KipuLog.step Fresh emptyLog oneByOne := by decide
  have hboth : (Run.run KipuLog.step emptyLog oneByOne).any
      (fun w => decide (w.returned.length = 2)) = true := by decide
  obtain ⟨w, hrun, hboth⟩ := Run.exists_of_any hboth
  exact ⟨w, hrun, of_decide_eq_true hboth, (visits_kept_iff emptyLog_idle hrun).2 hmeets⟩

end Chaskiwasi.KipuLog
