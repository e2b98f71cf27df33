import Chaskiwasi.Ayllu.Log
import Chaskiwasi.Lib.Run

/-!
# The change log over a run of changes

`Mutate` appends to the change log after the table is durable.  A crash, or an error, can stop that
append at any byte, and nothing looks at the end of the file before the next one: `appendLogLocked`
opens it for appending and writes.  A torn line therefore takes the next line into itself, and
neither reads back.

A `Journal` is the table and the log on disk; what is durable of a change that stopped in its append
is the table with it and the bytes that were written.  `log_keeps_lines` gives the appends that
`ReadLog` recovers from: those that begin a line.
-/

namespace Chaskiwasi

/-- The contact table and the change log, as they are on disk. -/
structure Journal where
  table : Table
  log : List UInt8 := []
  /-- The events whose append returned nil, in order.  No procedure reads them. -/
  completed : List Event := []

/-- One call of `Mutate`, with what it meets outside and how its append to the log ends. -/
structure Entry where
  io : MutateIO := {}
  actor : String
  mutation : Mutation
  outcome : LogOutcome := .done
  deriving DecidableEq, Repr

namespace Journal

section Steps

variable [Runes] [EventCodec] (maxContacts : ℕ)

/-- The event a call appends; a cosmetic change is not logged. -/
def appends (j : Journal) (e : Entry) : Option Event :=
  match (mutate maxContacts { e.io with logged := true } e.actor e.mutation j.table).1 with
  | .error _ => none
  | .ok ev => if ev.action = .cosmetic then none else some ev

/-- What a call leaves on disk. -/
def step (j : Journal) (e : Entry) : Option Journal :=
  let io := { e.io with logged := decide (e.outcome = .done) }
  let table := (mutate maxContacts io e.actor e.mutation j.table).2
  match j.appends maxContacts e with
  | none => some { j with table := table }
  | some ev =>
      some
        { table := table
          log := j.log ++ e.outcome.written (logLine ev)
          completed := if e.outcome = .done then j.completed ++ [ev] else j.completed }

/-- `ReadLog` returns, in order and as they were, the events from `since` on whose append
completed. -/
def ReadsBack (j : Journal) : Prop :=
  ∀ since, ∃ read, readLog j.log since = some read ∧
    (j.completed.filter fun e => ¬ e.time < since).Sublist read

/-- An append that completes begins a line, and none makes a line too long for the reader. -/
def Clear (j : Journal) (e : Entry) : Prop :=
  ∀ ev ∈ j.appends maxContacts e,
    (e.outcome = .done → AtLineStart j.log) ∧
      ∀ l ∈ lines (j.log ++ e.outcome.written (logLine ev)), l.length < scanLimit

instance (j : Journal) (e : Entry) : Decidable (j.Clear maxContacts e) :=
  Option.decidableForallMem _

end Steps

/-! ## What a run keeps -/

section Kept

variable [EventCodec] {j : Journal} {ev : Event}

/-- The log is whole lines and perhaps a torn one, and the completed events are among the whole
lines. -/
structure Kept (j : Journal) : Prop where
  split : ∃ whole torn, j.log = whole ++ torn ∧ AtLineStart whole ∧
    j.completed.Sublist ((lines whole).filterMap EventCodec.unmarshal)
  short : ∀ l ∈ lines j.log, l.length < scanLimit

lemma kept_empty (t : Table) : Kept { table := t } where
  split := ⟨[], [], rfl, nofun, List.Sublist.refl _⟩
  short := nofun

theorem Kept.readsBack (h : j.Kept) : j.ReadsBack := by
  intro since
  obtain ⟨whole, torn, hlog, hstart, hsub⟩ := h.split
  have hroom : ¬ ∃ l ∈ lines j.log, scanLimit ≤ l.length := by
    rintro ⟨l, hl, hlong⟩
    exact absurd (h.short l hl) (not_lt.2 hlong)
  refine ⟨_, if_neg hroom, List.Sublist.filter _ ?_⟩
  rw [hlog, lines_append hstart, List.filterMap_append]
  exact hsub.trans (List.sublist_append_left _ _)

/-- An append that is cut short adds to the torn line, or ends it. -/
lemma Kept.cut_short (h : j.Kept) (n : ℕ) :
    ∃ whole torn, j.log ++ (LogOutcome.cut n).written (logLine ev) = whole ++ torn ∧
      AtLineStart whole ∧ j.completed.Sublist ((lines whole).filterMap EventCodec.unmarshal) := by
  obtain ⟨whole, torn, hlog, hstart, hsub⟩ := h.split
  exact ⟨whole, torn ++ (LogOutcome.cut n).written (logLine ev),
    by rw [hlog, List.append_assoc], hstart, hsub⟩

/-- An append that completes where a line begins is a line of its own, after all the others. -/
lemma Kept.complete (h : j.Kept) (ev : Event) (hstart : AtLineStart j.log) :
    (j.completed ++ [ev]).Sublist
      ((lines (j.log ++ logLine ev)).filterMap EventCodec.unmarshal) := by
  obtain ⟨whole, torn, hlog, hwhole, hsub⟩ := h.split
  have hline : lines (logLine ev) = [EventCodec.marshal ev] :=
    lines_line (EventCodec.marshal_ne_nil ev) (EventCodec.newline_not_mem ev)
  have hread : [EventCodec.marshal ev].filterMap EventCodec.unmarshal = [ev] :=
    filterMap_marshal [ev]
  rw [lines_append hstart, List.filterMap_append, hline, hread, hlog, lines_append hwhole,
    List.filterMap_append]
  exact (hsub.trans (List.sublist_append_left _ _)).append (List.Sublist.refl _)

end Kept

section Runs

variable [Runes] [EventCodec] {maxContacts : ℕ} {j j' : Journal} {e : Entry}

theorem Kept.step (h : j.Kept) (hclear : j.Clear maxContacts e)
    (hstep : j.step maxContacts e = some j') : j'.Kept := by
  unfold Journal.step at hstep
  cases hev : j.appends maxContacts e with
  | none =>
      simp only [hev] at hstep
      obtain rfl := Option.some.inj hstep
      exact ⟨h.split, h.short⟩
  | some ev =>
      simp only [hev] at hstep
      obtain rfl := Option.some.inj hstep
      obtain ⟨hbegins, hshort⟩ := hclear ev hev
      refine ⟨?_, hshort⟩
      cases ho : e.outcome with
      | done =>
          rw [if_pos rfl]
          have hlines := h.complete ev (hbegins ho)
          exact ⟨j.log ++ logLine ev, [], (List.append_nil _).symm, atLineStart_line _ _, hlines⟩
      | cut n =>
          rw [if_neg nofun]
          exact h.cut_short n

/-- **Where every completed append begins a line, the log keeps them all.**  Over any run of
changes, with appends cut short at any byte, in which an append that completes finds the log empty
or at the beginning of a line, and none makes a line too long for the reader: `ReadLog` returns, in
order and unaltered, every event whose append completed. -/
theorem log_keeps_lines {t : Table} {entries : List Entry}
    (hclear : Run.Meets (Journal.step maxContacts) (Clear maxContacts) { table := t } entries)
    (hrun : Run.run (Journal.step maxContacts) { table := t } entries = some j) :
    j.ReadsBack := by
  have hkept : j.Kept :=
    Run.run_invariant_of_meets (I := Kept) (fun s a s' hs hc hstep => hs.step hc hstep)
      (kept_empty t) hclear hrun
  exact hkept.readsBack

end Runs

/-- The log keeps every completed line, wherever the appends before it stopped. -/
def KeepsEveryLine [Runes] [EventCodec] : Prop :=
  ∀ (maxContacts : ℕ) (t : Table) (entries : List Entry) (j : Journal),
    Run.run (step maxContacts) { table := t } entries = some j → j.ReadsBack

end Journal

namespace Sample

/-- A contact is added under a drawn id, and the append ends so. -/
def recorded (id name : String) (o : LogOutcome) : Entry where
  io := { now := 1, drawn := [some id] }
  actor := "ana"
  mutation := { action := .add, name := name, address := name }
  outcome := o

/-- Rosa is added; the append for Tomas stops after this many bytes; Ines is added. -/
def tornAt (n : ℕ) : List Entry :=
  [recorded "c_a" "r" .done, recorded "c_b" "t" (.cut n), recorded "c_c" "i" .done]

end Sample

namespace Journal

/-- The append for Tomas writes nothing, and both others read back. -/
theorem log_keeps_lines_uncut : ∃ j,
    Run.run (@step Sample.runes Sample.codec 24) { table := Sample.noContacts }
      (Sample.tornAt 0) = some j ∧ @ReadsBack Sample.codec j := by
  have hclear : Run.Meets (@step Sample.runes Sample.codec 24)
      (@Clear Sample.runes Sample.codec 24) { table := Sample.noContacts } (Sample.tornAt 0) := by
    decide +kernel
  exact ⟨_, rfl, @log_keeps_lines Sample.runes Sample.codec 24 _ _ _ hclear rfl⟩

/-- Two bytes of the line for Tomas reach the file, and the line for Ines is glued to them. -/
theorem torn_line_swallows_next : ¬ @KeepsEveryLine Sample.runes Sample.codec := by
  intro hclaim
  have heval : ((Run.run (@step Sample.runes Sample.codec 24) { table := Sample.noContacts }
      (Sample.tornAt 2)).any fun j =>
        decide ((j.completed.filter fun e => ¬ e.time < 0).length = 2) &&
          decide ((@readLog Sample.codec j.log 0).map List.length = some 1)) = true := by
    decide +kernel
  obtain ⟨j, hrun, hevals⟩ := Run.exists_of_any heval
  obtain ⟨hcompleted, hread⟩ := Bool.and_eq_true_iff.1 hevals
  obtain ⟨read, hlog, hsub⟩ := hclaim 24 _ _ j hrun 0
  have hlen := of_decide_eq_true hread
  rw [hlog, Option.map_some, Option.some.injEq] at hlen
  have hle := hsub.length_le
  rw [of_decide_eq_true hcompleted, hlen] at hle
  exact absurd hle (by decide)

end Journal
end Chaskiwasi
