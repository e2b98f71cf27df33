import Chaskiwasi.Notice.Service

/-!
# Every change is announced

The change log is what the recovery works from: a change whose line is in the log is announced at
the next start, whatever became of the queue and of INBOX, because `Reconcile` derives the same id
from the line that `Announce` derived from the change.  `recover_covers` follows one change through
the recovery, and `recovery_completes` shows that the recovery comes to its end.

What is not in the log the recovery cannot know of.  The contact file is written first, and a server
that stops before the append, or whose append fails, has a change in its contact file that no record
owes a notice for.  `Recorded` says of each step that it leaves no such change, and under it the log
reads back as the changes of the contact file (`World.Logged`).
-/

namespace Chaskiwasi.Notice

variable [Runes] [EventCodec] {cfg : Config} {w w' w₀ : World} {p p' : Process} {o : Outcome}
  {acts : List Act}

/-! ## The log follows the contact file -/

/-- A step leaves no change in the contact file without a line of its own in the log: the process
does not end between the two writes, the file is not replaced by a write that fails, and the text
reaches the log whole, at the start of a line, and short enough to be read back. -/
def Recorded (cfg : Config) (w : World) : Act → Prop
  | .stop => ∀ p ∈ w.process, p.mutating = none
  | .commit _ now drawn actor m o => ∀ p ∈ w.process,
      ∀ c ∈ p.contacts.mutated cfg now drawn actor m, c.1.action ≠ .cosmetic → o ≠ .replaced
  | .record o => ∀ p ∈ w.process, ∀ c ∈ p.mutating, AtLineStart w.log ∧
      EventCodec.marshal c.2 <+: o.written (logLine c.2) ∧
      (EventCodec.marshal c.2).length < scanLimit
  | _ => True

instance (w : World) : DecidablePred (Recorded cfg w) := fun act =>
  match act with
  | .stop => inferInstanceAs (Decidable (∀ p ∈ w.process, p.mutating = none))
  | .commit .. => inferInstanceAs (Decidable (∀ p ∈ w.process, ∀ c ∈ _, _ → _))
  | .record _ => inferInstanceAs (Decidable (∀ p ∈ w.process, ∀ c ∈ p.mutating, _ ∧ _))
  | .openData _ | .announce .. | .abandon _ | .recover _ | .rewrite _ | .delete _ => isTrue trivial

omit [Runes] [EventCodec] in
/-- The change that is in the contact file and not yet in the log. -/
def World.unlogged (w : World) : List Event :=
  ((w.process.bind Process.mutating).map Prod.snd).toList

/-- The log holds these events, and the contact file and the table in memory are made by them and by
the change in progress. -/
structure World.Logged (w : World) (logged : List Event) : Prop where
  log : lines w.log = logged.map EventCodec.marshal
  short : ∀ ev ∈ logged, (EventCodec.marshal ev).length < scanLimit
  changes : w.contacts.changes = logged ++ w.unlogged
  memory : ∀ p ∈ w.process, p.contacts.changes = w.contacts.changes

omit [Runes] in
/-- A step that touches neither the contacts nor the log. -/
lemma World.Logged.of_same {logged : List Event} (h : w.Logged logged)
    (hcontacts : w'.contacts = w.contacts) (hlog : w'.log = w.log)
    (hprocess : (w'.process.map fun p => (p.contacts, p.mutating)) =
      w.process.map fun p => (p.contacts, p.mutating)) : w'.Logged logged := by
  have hunlogged : w'.unlogged = w.unlogged := by
    have hmap := congrArg (fun x : Option (Contacts × Option (ℕ × Event)) => x.bind Prod.snd)
      hprocess
    simp only [Option.bind_map] at hmap
    rw [World.unlogged, World.unlogged]
    exact congrArg (fun x => (x.map Prod.snd).toList) hmap
  refine ⟨hlog ▸ h.log, h.short, by rw [hcontacts, hunlogged, h.changes], fun p' hp' => ?_⟩
  have hmem : (p'.contacts, p'.mutating) ∈ w'.process.map fun p => (p.contacts, p.mutating) :=
    Option.mem_map_of_mem _ hp'
  rw [hprocess] at hmem
  obtain ⟨p, hp, heq⟩ := Option.mem_map.1 hmem
  rw [hcontacts, ← h.memory p hp, (Prod.mk.inj heq).1]

omit [Runes] in
lemma recoverStep_same (hp : w.process = some p) (h : recoverStep cfg w p o = some w') :
    w'.contacts = w.contacts ∧ w'.log = w.log ∧
      (w'.process.map fun p => (p.contacts, p.mutating)) =
        w.process.map fun p => (p.contacts, p.mutating) := by
  have hcases := recoverStep_cases h
  revert hcases
  generalize p.stage = stage
  intro hcases
  cases hcases with
  | delivered loop sent rest pn d =>
      have hd := deliver_delivers cfg w p pn o d
      refine ⟨hd.contacts, hd.log, ?_⟩
      simp [World.run, hp, hd.memory, hd.mutating]
  | _ => exact ⟨rfl, rfl, by simp [World.run, hp]⟩

/-- **One step keeps the log abreast of the contact file**, where it leaves no change without a
line. -/
theorem logged_step {logged : List Event} {act : Act} (h : w.Logged logged)
    (hact : Recorded cfg w act) (hstep : step cfg w act = some w') :
    ∃ logged, w'.Logged logged := by
  cases step_cases hstep with
  | opened server hp =>
      have hchanges := h.changes
      simp only [World.unlogged, hp, Option.bind_none, Option.map_none,
        Option.toList_none] at hchanges
      refine ⟨logged, h.log, h.short, ?_, ?_⟩
      · simpa [World.run, World.unlogged] using hchanges
      · intro p hmem
        obtain rfl := Option.some.inj hmem
        rfl
  | stopped =>
      have hchanges := h.changes
      have hnone : w.unlogged = [] := by
        unfold World.unlogged
        cases hp : w.process with
        | none => rfl
        | some p => simp [hact p hp]
      rw [hnone, List.append_nil] at hchanges
      exact ⟨logged, h.log, h.short, by simpa [World.unlogged] using hchanges, by simp⟩
  | refused k now drawn actor m out => exact ⟨logged, h⟩
  | committed k now drawn actor m out p ev contacts hp hmutating hserving hm =>
      have hchanges := h.changes
      simp only [World.unlogged, hp, Option.bind_some, hmutating, Option.map_none,
        Option.toList_none, List.append_nil] at hchanges
      have hext := Contacts.mutated_changes hm
      have hmem := h.memory p hp
      cases out with
      | unchanged => exact ⟨logged, h⟩
      | done =>
          refine ⟨logged, h.log, h.short, ?_, ?_⟩
          · by_cases hcosmetic : ev.action = .cosmetic
            · simp only [commit, World.run, World.unlogged, hcosmetic, if_true,
                Option.bind_some, Option.map_none, Option.toList_none, List.append_nil]
              rw [hext, if_pos hcosmetic, hmem, hchanges]
            · simp only [commit, World.run, World.unlogged, hcosmetic, if_false,
                Option.bind_some, Option.map_some, Option.toList_some]
              rw [hext, if_neg hcosmetic, hmem, hchanges]
          · intro p' hp'
            obtain rfl := Option.some.inj hp'
            rfl
      | replaced =>
          -- Only a cosmetic change may replace the file and then be rolled back.
          have hcosmetic : ev.action = .cosmetic := by
            by_contra hne
            exact hact p hp (ev, contacts) hm hne rfl
          have hsame : contacts.changes = w.contacts.changes := by
            rw [hext, if_pos hcosmetic, hmem]
          refine ⟨logged, h.log, h.short, ?_, ?_⟩
          · exact hsame.trans h.changes
          · intro q hq
            exact (h.memory q hq).trans hsame.symm
  | recorded out p k ev hp hm =>
      obtain ⟨hstart, hwhole, hshort⟩ := hact p hp (k, ev) hm
      have hchanges := h.changes
      simp only [World.unlogged, hp, Option.bind_some, hm, Option.map_some,
        Option.toList_some] at hchanges
      refine ⟨logged ++ [ev], ?_, ?_, ?_, ?_⟩
      · simp only [World.run]
        rw [lines_append hstart, h.log, lines_written hwhole, List.map_append]
        rfl
      · intro e he
        rcases List.mem_append.1 he with he | he
        · exact h.short e he
        · rw [List.mem_singleton.1 he]
          exact hshort
      · have hdone : ∀ q : Process, q.mutating = none →
            w.contacts.changes = logged ++ [ev] ++ (q.mutating.map Prod.snd).toList := by
          intro q hq
          rw [hq, Option.map_none, Option.toList_none, List.append_nil]
          exact hchanges
        simp only [World.run, World.unlogged, Option.bind_some]
        split_ifs <;> exact hdone _ rfl
      · intro q hq
        obtain rfl := Option.some.inj hq
        have hmem := h.memory p hp
        split_ifs <;> exact hmem
  | announced k out p pn d hp ha =>
      have hd := deliver_delivers cfg w p pn out d
      refine ⟨logged, h.of_same hd.contacts hd.log ?_⟩
      simp [World.run, Process.setAnnounce, hp, hd.memory, hd.mutating]
  | abandoned k p hp =>
      exact ⟨logged, h.of_same rfl rfl (by simp [World.run, Process.setAnnounce, hp])⟩
  | recovered out p w' hp hrecover =>
      obtain ⟨hcontacts, hlog, hprocess⟩ := recoverStep_same hp hrecover
      exact ⟨logged, h.of_same hcontacts hlog hprocess⟩
  | rewritten out p hp =>
      have hd := update_delivers w p id out
      refine ⟨logged, h.of_same hd.contacts hd.log ?_⟩
      simp [World.run, hp, hd.memory, hd.mutating]
  | deleted messageID =>
      exact ⟨logged, h.of_same rfl rfl rfl⟩

/-! ## The recovery -/

/-- Where a recovery stands, in which nothing fails, the recent changes are in INBOX or ahead. -/
def Stage.Covers (cfg : Config) (inbox : List String) (recent : List Event) : Stage → Prop
  | .reconcile pending => ∀ ev ∈ recent, pendingFor cfg ev ∈ pending
  | .entries .reconcile sent rest => sent ⊆ inbox ∧ ∀ ev ∈ recent,
      messageIDFor cfg (noticeIDFor cfg ev) ∈ inbox ∨ pendingFor cfg ev ∈ rest
  | .delivering .reconcile sent rest pn d => sent ⊆ inbox ∧ ∀ ev ∈ recent,
      messageIDFor cfg (noticeIDFor cfg ev) ∈ inbox ∨ pendingFor cfg ev ∈ rest ∨
        pendingFor cfg ev = pn ∧ d ≠ .clearing
  | .serving => ∀ ev ∈ recent, messageIDFor cfg (noticeIDFor cfg ev) ∈ inbox
  | _ => True

/-- A step of the recovery whose round trips and writes succeed, at a time. -/
def recovery (now : ℤ) : Act := .recover { now := now }

/-- The world a recovery works in: its log holds these events, and it has come to where the recent
ones are covered. -/
structure World.Recovers (cfg : Config) (w : World) (now : ℤ) (logged : List Event) : Prop where
  log : w.Logged logged
  settled : ∀ p ∈ w.process, p.mutating = none
  covers : ∀ p ∈ w.process, p.stage.Covers cfg w.inbox
    (logged.filter fun ev => ¬ ev.time < now - noticeReconcileWindow)

omit [Runes] [EventCodec] in
/-- A notice that `Reconcile` delivers, or comes to, is in INBOX when it is done with it. -/
lemma covers_delivered {now : ℤ} {sent : List String} {rest : List PendingNotice}
    {pn : PendingNotice} {d : Delivery} {recent : List Event}
    (hrecent : ∀ ev ∈ recent, ev.action ≠ .cosmetic)
    (h : (Stage.delivering .reconcile sent rest pn d).Covers cfg w.inbox recent) :
    Stage.Covers cfg (deliver cfg w p pn { now := now } d).1.1.inbox recent
      (match (deliver cfg w p pn { now := now } d).2 with
        | some d' => .delivering .reconcile sent rest pn d'
        | none => .entries .reconcile sent rest) := by
  obtain ⟨hsent, hall⟩ := h
  cases d with
  | adding =>
      refine ⟨hsent, fun ev hev => ?_⟩
      exact (hall ev hev).imp_right fun h => h.imp_right fun h => ⟨h.1, by simp⟩
  | clearing =>
      refine ⟨hsent, fun ev hev => ?_⟩
      exact (hall ev hev).imp_right fun h => h.resolve_right fun h => h.2 rfl
  | appending =>
      by_cases hcosmetic : pn.action = .cosmetic
      · simp only [deliver, if_pos hcosmetic]
        refine ⟨hsent, fun ev hev => (hall ev hev).imp_right fun h => h.resolve_right ?_⟩
        rintro ⟨rfl, -⟩
        exact hrecent ev hev hcosmetic
      · simp only [deliver, if_neg hcosmetic]
        refine ⟨fun id hid => List.mem_cons_of_mem _ (hsent hid), fun ev hev => ?_⟩
        rcases hall ev hev with hin | hrest | ⟨rfl, -⟩
        · exact Or.inl (List.mem_cons_of_mem _ hin)
        · exact Or.inr (Or.inl hrest)
        · exact Or.inl (List.mem_cons_self ..)

/-- **A step of the recovery covers what was covered.** -/
theorem recover_covers {now : ℤ} {logged : List Event} (h : w.Recovers cfg now logged)
    (hstep : step cfg w (recovery now) = some w') : w'.Recovers cfg now logged := by
  obtain ⟨p, hp, hstep⟩ := Option.bind_eq_some_iff.1 hstep
  obtain ⟨hcontacts, hlog, hprocess⟩ := recoverStep_same hp hstep
  have hsettled : ∀ q ∈ w'.process, q.mutating = none := by
    intro q hq
    have hmem := Option.mem_map_of_mem (fun p : Process => (p.contacts, p.mutating)) hq
    rw [hprocess, hp] at hmem
    exact (Prod.mk.inj (Option.some.inj hmem)).2.symm.trans (h.settled p hp)
  have hrecent : ∀ ev ∈ logged.filter fun ev => ¬ ev.time < now - noticeReconcileWindow,
      ev.action ≠ .cosmetic := by
    intro ev hev
    apply w.contacts.not_cosmetic
    rw [h.log.changes]
    exact List.mem_append_left _ (List.mem_filter.1 hev).1
  have hread := readLog_of_lines h.log.log h.log.short (now - noticeReconcileWindow)
  refine ⟨h.log.of_same hcontacts hlog hprocess, hsettled, ?_⟩
  have hcovers := h.covers p hp
  have hcases := recoverStep_cases hstep
  generalize logged.filter (fun ev => ¬ ev.time < now - noticeReconcileWindow) = recent at *
  generalize p.stage = stage at hcases hcovers
  intro q hq
  cases hcases with
  | flushListed | flushSkipped | flushed | cleared =>
      obtain rfl := Option.some.inj hq
      trivial
  | unread hnone =>
      rw [hnone rfl] at hread
      cases hread
  | read events hevents =>
      obtain rfl := Option.some.inj hq
      obtain rfl := Option.some.inj (hread.symm.trans hevents)
      intro ev hev
      exact List.mem_map_of_mem (List.mem_filter.2 ⟨hev, by simpa using hrecent ev hev⟩)
  | reconcileListed pending =>
      obtain rfl := Option.some.inj hq
      exact ⟨List.filter_sublist.subset, fun ev hev => Or.inr (hcovers ev hev)⟩
  | reconcileSkipped pending hskipped =>
      obtain rfl := Option.some.inj hq
      obtain rfl := hskipped.resolve_right (by simp)
      intro ev hev
      cases hcovers ev hev
  | reconciled sent =>
      obtain rfl := Option.some.inj hq
      intro ev hev
      exact (hcovers.2 ev hev).resolve_right List.not_mem_nil
  | begun loop sent pn rest hnew =>
      obtain rfl := Option.some.inj hq
      cases loop with
      | flush => trivial
      | reconcile =>
          refine ⟨hcovers.1, fun ev hev => (hcovers.2 ev hev).imp_right fun hmem => ?_⟩
          rcases List.mem_cons.1 hmem with heq | hmem
          · exact Or.inr ⟨heq, by simp [Loop.first]⟩
          · exact Or.inl hmem
  | skipped sent pn rest hsent =>
      obtain rfl := Option.some.inj hq
      refine ⟨hcovers.1, fun ev hev => ?_⟩
      rcases hcovers.2 ev hev with hin | hmem
      · exact Or.inl hin
      · rcases List.mem_cons.1 hmem with rfl | hmem
        · exact Or.inl (hcovers.1 hsent)
        · exact Or.inr hmem
  | delivered loop sent rest pn d =>
      obtain rfl := Option.some.inj hq
      cases loop with
      | flush => cases (deliver cfg w p pn { now := now } d).2 <;> trivial
      | reconcile => exact covers_delivered hrecent hcovers

/-! ## The recovery comes to its end -/

def Delivery.left : Delivery → ℕ
  | .adding => 3
  | .appending => 2
  | .clearing => 1

/-- A bound on the steps a recovery has before it, for a log of so many events and a queue of so
many notices. -/
def Stage.left (logged queued : ℕ) : Stage → ℕ
  | .flush => 4 * queued + 4 * logged + 5
  | .entries .flush _ rest => 4 * rest.length + 4 * logged + 4
  | .delivering .flush _ rest _ d => 4 * rest.length + d.left + 4 * logged + 4
  | .readLog => 4 * logged + 3
  | .reconcile pending => 4 * pending.length + 2
  | .entries .reconcile _ rest => 4 * rest.length + 1
  | .delivering .reconcile _ rest _ d => 4 * rest.length + d.left + 1
  | .serving => 0
  | .cli => 0

def World.Serving (w : World) : Prop := ∃ p ∈ w.process, p.stage = .serving

omit [Runes] [EventCodec] in
lemma deliver_left (cfg : Config) (w : World) (p : Process) (pn : PendingNotice) (o : Outcome)
    (d : Delivery) :
    ∀ d' ∈ (deliver cfg w p pn o d).2, d'.left < d.left := by
  intro d' hd'
  rcases deliver_goes hd' with ⟨rfl, -, rfl⟩ | ⟨rfl, rfl⟩
  · decide
  · decide

omit [Runes] in
/-- Each step of the recovery leaves fewer before it. -/
lemma recover_left {now : ℤ} {events : List Event}
    (hread : readLog w.log (now - noticeReconcileWindow) = some events)
    (h : recoverStep cfg w p { now := now } = some w') :
    ∃ p', w'.process = some p' ∧
      p'.stage.left events.length p'.queue.length < p.stage.left events.length p.queue.length := by
  have hcases := recoverStep_cases h
  generalize p.stage = stage at hcases
  cases hcases with
  | flushListed hqueue => exact ⟨_, rfl, by simp only [Stage.left]; omega⟩
  | flushSkipped => exact ⟨_, rfl, by simp only [Stage.left]; omega⟩
  | unread hnone => exact ⟨_, rfl, by simp only [Stage.left]; omega⟩
  | read events' hevents =>
      obtain rfl := Option.some.inj (hread.symm.trans hevents)
      have hle := List.length_filter_le (fun ev : Event => decide (ev.action ≠ .cosmetic)) events
      exact ⟨_, rfl, by simp only [Stage.left, List.length_map]; omega⟩
  | reconcileListed pending => exact ⟨_, rfl, by simp only [Stage.left]; omega⟩
  | reconcileSkipped pending hskipped => exact ⟨_, rfl, by simp only [Stage.left]; omega⟩
  | flushed sent => exact ⟨_, rfl, by simp only [Stage.left, List.length_nil]; omega⟩
  | reconciled sent => exact ⟨_, rfl, by simp only [Stage.left, List.length_nil]; omega⟩
  | begun loop sent pn rest hnew =>
      refine ⟨_, rfl, ?_⟩
      cases loop <;> simp only [Stage.left, Loop.first, Delivery.left, List.length_cons] <;> omega
  | cleared sent pn rest hsent =>
      exact ⟨_, rfl, by simp only [Stage.left, Delivery.left, List.length_cons]; omega⟩
  | skipped sent pn rest hsent =>
      exact ⟨_, rfl, by simp only [Stage.left, List.length_cons]; omega⟩
  | delivered loop sent rest pn d =>
      refine ⟨_, rfl, ?_⟩
      have hpos : 0 < d.left := by cases d <;> decide
      have hless := deliver_left cfg w p pn { now := now } d
      cases hnext : (deliver cfg w p pn { now := now } d).2 with
      | none => cases loop <;> simp only [Stage.left] <;> omega
      | some d' =>
          have hlt := hless d' hnext
          cases loop <;> simp only [Stage.left] <;> omega

omit [Runes] in
/-- The recovery goes on until the server serves. -/
lemma recover_possible (cfg : Config) (w : World) (o : Outcome) (hserving : p.stage ≠ .serving)
    (hcli : p.stage ≠ .cli) : ∃ w', recoverStep cfg w p o = some w' := by
  unfold recoverStep
  cases hstage : p.stage with
  | flush =>
      simp only
      split_ifs <;> exact ⟨_, rfl⟩
  | readLog =>
      simp only
      split <;> exact ⟨_, rfl⟩
  | reconcile pending =>
      simp only
      split_ifs <;> exact ⟨_, rfl⟩
  | entries loop sent rest =>
      cases rest with
      | nil => cases loop <;> exact ⟨_, rfl⟩
      | cons pn rest =>
          cases loop with
          | flush => exact ⟨_, rfl⟩
          | reconcile =>
              simp only
              split_ifs <;> exact ⟨_, rfl⟩
  | delivering loop sent rest pn d => exact ⟨_, rfl⟩
  | serving => exact absurd hstage hserving
  | cli => exact absurd hstage hcli

omit [Runes] in
lemma recover_not_cli (h : recoverStep cfg w p o = some w') :
    ∀ p' ∈ w'.process, p'.stage ≠ .cli := by
  intro p' hp'
  have hcases := recoverStep_cases h
  generalize p.stage = stage at hcases
  cases hcases with
  | delivered loop sent rest pn d =>
      obtain rfl := Option.some.inj hp'
      cases (deliver cfg w p pn o d).2 <;> simp
  | _ =>
      obtain rfl := Option.some.inj hp'
      simp

/-- **A recovery in which nothing fails comes to its end**, and covers then what it covered. -/
theorem recovery_completes {now : ℤ} {logged : List Event} (h : w.Recovers cfg now logged)
    (hp : w.process = some p) (hcli : p.stage ≠ .cli) :
    ∃ n w', Run.run (step cfg) w (List.replicate n (recovery now)) = some w' ∧ w'.Serving ∧
      w'.Recovers cfg now logged := by
  have hread := readLog_of_lines h.log.log h.log.short (now - noticeReconcileWindow)
  obtain ⟨bound, hbound⟩ : ∃ b, p.stage.left
      (logged.filter fun ev => ¬ ev.time < now - noticeReconcileWindow).length p.queue.length < b :=
    ⟨_, Nat.lt_succ_self _⟩
  induction bound generalizing w p with
  | zero => exact absurd hbound (Nat.not_lt_zero _)
  | succ bound ih =>
      by_cases hserving : p.stage = .serving
      · exact ⟨0, w, rfl, ⟨p, hp, hserving⟩, h⟩
      · obtain ⟨v, hv⟩ := recover_possible cfg w { now := now } hserving hcli
        have hstep : step cfg w (recovery now) = some v :=
          Option.bind_eq_some_iff.2 ⟨p, hp, hv⟩
        obtain ⟨q, hq, hless⟩ := recover_left hread hv
        have hlog : v.log = w.log := (recoverStep_same hp hv).2.1
        obtain ⟨n, w', hrun, hdone⟩ := ih (recover_covers h hstep) hq (recover_not_cli hv q hq)
          (hlog ▸ hread) (by omega)
        refine ⟨n + 1, w', ?_, hdone⟩
        rw [List.replicate_succ]
        exact Run.run_cons_eq_some.2 ⟨v, hstep, hrun⟩

/-! ## Along a run -/

/-- The server starts, and so many steps of the recovery succeed. -/
def restart (now : ℤ) (n : ℕ) : List Act := .openData true :: List.replicate n (recovery now)

/-- What the recovery is there for: after a start at which it comes to its end with nothing failing,
every change in the contact file, no older than the window, has its notice in INBOX. -/
def EveryChangeAnnounced (cfg : Config) : Prop :=
  ∀ (w₀ : World) (acts : List Act) (w : World) (now : ℤ) (n : ℕ) (w' : World), w₀.Fresh →
    Run.run (step cfg) w₀ acts = some w → Run.run (step cfg) w (restart now n) = some w' →
    w'.Serving → ∀ ev ∈ w'.contacts.changes, now - noticeReconcileWindow ≤ ev.time →
      messageIDFor cfg (noticeIDFor cfg ev) ∈ w'.inbox

/-- **Every change that was recorded is announced.**  In every run whose steps leave no change of
the contact file without a line of its own in the log, whatever else fails and wherever the process
stops, the next start with nothing failing comes to serve, and then every change in the contact
file has its notice in INBOX. -/
theorem changes_announced (hfresh : w₀.Fresh) (hacts : Run.Meets (step cfg) (Recorded cfg) w₀ acts)
    (hrun : Run.run (step cfg) w₀ acts = some w) (hstopped : w.process = none) (now : ℤ) :
    (∃ n w', Run.run (step cfg) w (restart now n) = some w' ∧ w'.Serving) ∧
      ∀ n w', Run.run (step cfg) w (restart now n) = some w' → w'.Serving →
        ∀ ev ∈ w'.contacts.changes, now - noticeReconcileWindow ≤ ev.time →
          messageIDFor cfg (noticeIDFor cfg ev) ∈ w'.inbox := by
  have hstart : w₀.Logged [] :=
    ⟨by rw [hfresh.log]; rfl, by simp, by simp [hfresh.changes, World.unlogged, hfresh.process],
      by simp [hfresh.process]⟩
  have hkept : ∀ v act v', (∃ logged, v.Logged logged) → Recorded cfg v act →
      step cfg v act = some v' → ∃ logged, v'.Logged logged := by
    rintro v act v' ⟨logged, hv⟩ hact hstep
    exact logged_step hv hact hstep
  obtain ⟨logged, hlogged⟩ := Run.run_invariant_of_meets hkept ⟨[], hstart⟩ hacts hrun
  obtain ⟨p, hopen⟩ : ∃ p : Process, step cfg w (.openData true) = some (w.run p) ∧
      p.contacts = w.contacts ∧ p.mutating = none ∧ p.stage = .flush :=
    ⟨_, by simp only [step, hstopped]; rfl, rfl, rfl, rfl⟩
  obtain ⟨hopen, hcontacts, hmutating, hflush⟩ := hopen
  have hrecovers : (w.run p).Recovers cfg now logged := by
    have hchanges := hlogged.changes
    simp only [World.unlogged, hstopped, Option.bind_none, Option.map_none,
      Option.toList_none] at hchanges
    refine ⟨⟨hlogged.log, hlogged.short, ?_, ?_⟩, ?_, ?_⟩
    · simpa [World.run, World.unlogged, hmutating] using hchanges
    · intro q hq
      obtain rfl := Option.some.inj hq
      exact congrArg Contacts.changes hcontacts
    · intro q hq
      obtain rfl := Option.some.inj hq
      exact hmutating
    · intro q hq
      obtain rfl := Option.some.inj hq
      rw [hflush]
      trivial
  constructor
  · obtain ⟨n, w', hrec, hserving, -⟩ :=
      recovery_completes hrecovers rfl (by simp [hflush])
    exact ⟨n, w', Run.run_cons_eq_some.2 ⟨_, hopen, hrec⟩, hserving⟩
  · rintro n w' hrestart ⟨q, hq, hserving⟩ ev hev hrecent
    obtain ⟨v, hv, hrec⟩ := Run.run_cons_eq_some.1 hrestart
    obtain rfl := Option.some.inj (hopen.symm.trans hv)
    have hcovered : w'.Recovers cfg now logged := by
      refine Run.run_invariant_of_meets (I := fun u => u.Recovers cfg now logged)
        (C := fun _ act => act = recovery now) (fun u act u' hu hact hstep => ?_) hrecovers
        (Run.meets_of_mem fun act hact => List.eq_of_mem_replicate hact) hrec
      subst hact
      exact recover_covers hu hstep
    have hchanges := hcovered.log.changes
    simp only [World.unlogged, Option.mem_def.1 hq, Option.bind_some, hcovered.settled q hq,
      Option.map_none, Option.toList_none, List.append_nil] at hchanges
    have hcovers := hcovered.covers q hq
    rw [hserving] at hcovers
    refine hcovers ev (List.mem_filter.2 ⟨hchanges ▸ hev, ?_⟩)
    simpa using hrecent

/-! ## Between the contact file and the log -/

omit [Runes] [EventCodec]

/-- The server stops after Rosa is in the contact file and before she is in the log. -/
def unrecordedRun : List Act := restart 1 3 ++ [Sample.addRosa, .stop]

/-- The server stops after Rosa is in the log and before her notice is in the queue. -/
def recordedRun : List Act := restart 1 3 ++ [Sample.addRosa, .record .done, .stop]

instance : DecidablePred World.Serving := fun w =>
  inferInstanceAs (Decidable (∃ p ∈ w.process, p.stage = .serving))

/-- **A change that the log does not have is never announced.** -/
theorem unrecorded_change_silent :
    ¬ @EveryChangeAnnounced Chaskiwasi.Sample.runes Chaskiwasi.Sample.codec Sample.config := by
  intro hclaim
  have heval : ((Run.run (@step Sample.config Chaskiwasi.Sample.runes Chaskiwasi.Sample.codec)
      Sample.fresh unrecordedRun).any fun w =>
        (Run.run (@step Sample.config Chaskiwasi.Sample.runes Chaskiwasi.Sample.codec) w
          (restart 10 3)).any fun w' => decide w'.Serving &&
            w'.contacts.changes.any fun ev => decide (10 - noticeReconcileWindow ≤ ev.time ∧
              messageIDFor Sample.config (noticeIDFor Sample.config ev) ∉ w'.inbox)) = true := by
    decide +kernel
  obtain ⟨w, hrun, heval⟩ := Run.exists_of_any heval
  obtain ⟨w', hrestart, heval⟩ := Run.exists_of_any heval
  obtain ⟨hserving, hsilent⟩ := Bool.and_eq_true_iff.1 heval
  obtain ⟨ev, hev, hmissing⟩ := List.any_eq_true.1 hsilent
  obtain ⟨hrecent, hmissing⟩ := of_decide_eq_true hmissing
  exact hmissing (hclaim Sample.fresh unrecordedRun w 10 3 w' ⟨rfl, rfl, rfl⟩ hrun hrestart
    (of_decide_eq_true hserving) ev hev hrecent)

/-- The same change is announced when it is in the log. -/
theorem recorded_change_announced :
    ∃ w w', Run.run (@step Sample.config Chaskiwasi.Sample.runes Chaskiwasi.Sample.codec)
        Sample.fresh recordedRun = some w ∧
      Run.run (@step Sample.config Chaskiwasi.Sample.runes Chaskiwasi.Sample.codec) w
        (restart 10 8) = some w' ∧
      ∃ ev ∈ w'.contacts.changes,
        messageIDFor Sample.config (noticeIDFor Sample.config ev) ∈ w'.inbox := by
  have heval : ((Run.run (@step Sample.config Chaskiwasi.Sample.runes Chaskiwasi.Sample.codec)
      Sample.fresh recordedRun).any fun w => w.process.isNone &&
        (Run.run (@step Sample.config Chaskiwasi.Sample.runes Chaskiwasi.Sample.codec) w
          (restart 10 8)).any fun w' => decide w'.Serving &&
            w'.contacts.changes.any fun ev => decide (10 - noticeReconcileWindow ≤ ev.time)) =
      true := by
    decide +kernel
  obtain ⟨w, hrun, heval⟩ := Run.exists_of_any heval
  obtain ⟨hstopped, heval⟩ := Bool.and_eq_true_iff.1 heval
  obtain ⟨w', hrestart, heval⟩ := Run.exists_of_any heval
  obtain ⟨hserving, hrecent⟩ := Bool.and_eq_true_iff.1 heval
  obtain ⟨ev, hev, hrecent⟩ := List.any_eq_true.1 hrecent
  have hacts : Run.Meets (@step Sample.config Chaskiwasi.Sample.runes Chaskiwasi.Sample.codec)
      (@Recorded Chaskiwasi.Sample.runes Chaskiwasi.Sample.codec Sample.config) Sample.fresh
      recordedRun := by
    decide +kernel
  have hannounced := @changes_announced Chaskiwasi.Sample.runes Chaskiwasi.Sample.codec
    Sample.config w Sample.fresh recordedRun ⟨rfl, rfl, rfl⟩ hacts hrun
    (Option.isNone_iff_eq_none.1 hstopped) 10
  exact ⟨w, w', hrun, hrestart, ev, hev, hannounced.2 8 w' hrestart (of_decide_eq_true hserving) ev
    hev (of_decide_eq_true hrecent)⟩

end Chaskiwasi.Notice
