import Chaskiwasi.Notice.Once
import Mathlib.Data.List.Count

/-!
# A delivered notice and the starts after it

Once a notice is in INBOX and out of the pending queue, the change is still in the log, and every
start within the window goes through it again: `Reconcile` asks INBOX whether it has been told.  So
whether it is told again is up to whoever tidies INBOX.  Where each listing of `Reconcile` that goes
through the change still shows its notice, no step of any later run appends it (`not_told_again`):
the queue never has it again, and a new change has an id of its own.
-/

namespace Chaskiwasi.Notice

variable {cfg : Config} {w w' : World} {p : Process} {o : Outcome} {acts : List Act} {ev : Event}
  {id : String}

/-! ## Nothing is left to do for a notice -/

/-- What a recovery has before it appends no notice of this id: the listing showed it, or it is
only to be cleared. -/
def Stage.Behind (cfg : Config) (id : String) : Stage → Prop
  | .entries _ sent rest => ∀ pn ∈ rest, pn.id = id → messageIDFor cfg id ∈ sent
  | .delivering _ sent rest pn d =>
      (∀ pn' ∈ rest, pn'.id = id → messageIDFor cfg id ∈ sent) ∧ (pn.id = id → d = .clearing)
  | _ => True

/-- The process has the change, and nothing of its notice before it. -/
structure Process.Cleared (cfg : Config) (p : Process) (ev : Event) : Prop where
  changed : ev ∈ p.contacts.changes
  queue : noticeIDFor cfg ev ∉ p.queue.map PendingNotice.id
  mutating : ∀ c ∈ p.mutating, noticeIDFor cfg c.2 ≠ noticeIDFor cfg ev
  announcing : ∀ k, ∀ a ∈ p.announcing k, a.1.id ≠ noticeIDFor cfg ev
  stage : p.stage.Behind cfg (noticeIDFor cfg ev)

/-- A change is in the contact file, and its notice has been cleared from the pending queue: the
queue has it no more, and no process has it before it. -/
structure World.Cleared (cfg : Config) (w : World) (ev : Event) : Prop where
  changed : ev ∈ w.contacts.changes
  queue : noticeIDFor cfg ev ∉ w.queue.map PendingNotice.id
  process : ∀ p ∈ w.process, p.Cleared cfg ev

/-- How many times INBOX has the notice of a change. -/
def World.told (cfg : Config) (w : World) (ev : Event) : ℕ :=
  w.inbox.count (messageIDFor cfg (noticeIDFor cfg ev))

/-- What `Reconcile` is about to ask INBOX for. -/
def Stage.asks : Stage → List PendingNotice
  | .reconcile pending => pending
  | _ => []

/-- If `Reconcile` lists INBOX here and goes through this change, the listing shows its notice. -/
def Shown (cfg : Config) (ev : Event) (w : World) : Act → Prop
  | .recover o => o.list = true → ∀ p ∈ w.process,
      noticeIDFor cfg ev ∈ p.stage.asks.map PendingNotice.id →
        messageIDFor cfg (noticeIDFor cfg ev) ∈ w.inbox
  | _ => True

instance (w : World) : DecidablePred (Shown cfg ev w) := fun act =>
  match act with
  | .recover _ => inferInstanceAs (Decidable (_ → ∀ p ∈ w.process, _ → _))
  | .openData _ | .stop | .commit .. | .record _ | .announce .. | .abandon _ | .rewrite _
  | .delete _ => isTrue trivial

/-! ## One step -/

lemma update_not_mem {f : List PendingNotice → List PendingNotice} (out : WriteOutcome)
    (hfile : id ∉ w.queue.map PendingNotice.id) (hmemory : id ∉ p.queue.map PendingNotice.id)
    (hf : id ∉ (f p.queue).map PendingNotice.id) :
    id ∉ (update w p f out).1.queue.map PendingNotice.id ∧
      id ∉ (update w p f out).2.queue.map PendingNotice.id := by
  cases out with
  | done => exact ⟨hf, hf⟩
  | unchanged => exact ⟨hfile, hmemory⟩
  | replaced => exact ⟨hf, hmemory⟩

/-- A delivery of another notice, or one that only clears, tells nothing of this one. -/
lemma deliver_cleared {pn : PendingNotice} {d : Delivery} (cfg : Config) (o : Outcome)
    (hfile : id ∉ w.queue.map PendingNotice.id) (hmemory : id ∉ p.queue.map PendingNotice.id)
    (hclears : pn.id = id → d = .clearing) :
    id ∉ (deliver cfg w p pn o d).1.1.queue.map PendingNotice.id ∧
      id ∉ (deliver cfg w p pn o d).1.2.queue.map PendingNotice.id ∧
      (deliver cfg w p pn o d).1.1.inbox.count (messageIDFor cfg id) =
        w.inbox.count (messageIDFor cfg id) := by
  cases d with
  | adding =>
      have hother : id ≠ pn.id := fun heq => by cases hclears heq.symm
      have hadded : id ∉ (addPendingNotice pn p.queue).map PendingNotice.id := by
        rw [addPendingNotice, List.map_append, List.mem_append, not_or]
        exact ⟨hmemory, fun hin => hother (List.mem_singleton.1 hin)⟩
      obtain ⟨hfile', hmemory'⟩ := update_not_mem o.write hfile hmemory hadded
      exact ⟨hfile', hmemory', congrArg _ (update_inbox ..)⟩
  | appending =>
      have hother : messageIDFor cfg pn.id ≠ messageIDFor cfg id :=
        fun heq => by cases hclears (messageIDFor_injective cfg heq)
      unfold deliver
      by_cases hcosmetic : pn.action = .cosmetic
      · simp only [if_pos hcosmetic]
        exact ⟨hfile, hmemory, trivial⟩
      · simp only [if_neg hcosmetic]
        cases o.append with
        | failed => exact ⟨hfile, hmemory, rfl⟩
        | stored => exact ⟨hfile, hmemory, List.count_cons_of_ne hother⟩
        | lost => exact ⟨hfile, hmemory, List.count_cons_of_ne hother⟩
  | clearing =>
      have hremoved : id ∉ (removePendingNotice pn.id p.queue).map PendingNotice.id :=
        fun hin => hmemory ((List.filter_sublist.map _).subset hin)
      obtain ⟨hfile', hmemory'⟩ := update_not_mem o.write hfile hmemory hremoved
      exact ⟨hfile', hmemory', congrArg _ (update_inbox ..)⟩

variable [Runes] [EventCodec]

omit [Runes] in
/-- A step of the recovery tells nothing again, where its listing shows what has been told. -/
lemma Process.Cleared.recover (h : w.Cleared cfg ev) (hp : w.process = some p)
    (hshown : Shown cfg ev w (.recover o)) (hstep : recoverStep cfg w p o = some w') :
    w'.Cleared cfg ev ∧ w'.told cfg ev = w.told cfg ev := by
  have hcleared := h.process p hp
  have hlisted : ∀ pending, p.stage = .reconcile pending → o.list = true →
      noticeIDFor cfg ev ∈ pending.map PendingNotice.id →
        messageIDFor cfg (noticeIDFor cfg ev) ∈ w.inbox := by
    intro pending hstage hlist hin
    refine hshown hlist p hp ?_
    rw [hstage]
    exact hin
  -- A step that only goes to another stage.
  have hgoes : ∀ stage : Stage, stage.Behind cfg (noticeIDFor cfg ev) →
      (w.run { p with stage := stage }).Cleared cfg ev := by
    intro stage hstage
    refine ⟨h.changed, h.queue, fun q hq => ?_⟩
    obtain rfl := Option.some.inj hq
    exact ⟨hcleared.changed, hcleared.queue, hcleared.mutating, hcleared.announcing, hstage⟩
  have hbehind := hcleared.stage
  have hunlisted : ∀ pending, p.stage = .reconcile pending → o.list = false →
      w' = w.run { p with stage := .serving } := by
    intro pending hstage hlist
    simp only [recoverStep, hstage, hlist] at hstep
    exact (Option.some.inj (by simpa using hstep)).symm
  have hcases := recoverStep_cases hstep
  generalize p.stage = stage at hcases hbehind hlisted hunlisted
  cases hcases with
  | flushListed hqueue =>
      refine ⟨hgoes _ fun pn hpn heq => ?_, rfl⟩
      exact absurd (List.mem_map.2 ⟨pn, hpn, heq⟩) hcleared.queue
  | flushSkipped => exact ⟨hgoes _ trivial, rfl⟩
  | unread hnone => exact ⟨hgoes _ trivial, rfl⟩
  | read events hevents => exact ⟨hgoes _ trivial, rfl⟩
  | reconcileListed pending =>
      cases hlist : o.list with
      | false =>
          rw [hunlisted pending rfl hlist]
          exact ⟨hgoes _ trivial, rfl⟩
      | true =>
          refine ⟨hgoes _ fun pn hpn heq => ?_, rfl⟩
          have hin : noticeIDFor cfg ev ∈ pending.map PendingNotice.id :=
            List.mem_map.2 ⟨pn, hpn, heq⟩
          refine List.mem_filter.2 ⟨hlisted pending rfl hlist hin, ?_⟩
          exact decide_eq_true (List.mem_map.2 ⟨pn, hpn, congrArg (messageIDFor cfg) heq⟩)
  | reconcileSkipped pending hskipped => exact ⟨hgoes _ trivial, rfl⟩
  | flushed sent => exact ⟨hgoes _ trivial, rfl⟩
  | reconciled sent => exact ⟨hgoes _ trivial, rfl⟩
  | begun loop sent pn rest hnew =>
      refine ⟨hgoes _ ⟨fun pn' hpn' => hbehind pn' (List.mem_cons_of_mem _ hpn'), fun heq => ?_⟩,
        rfl⟩
      exact absurd (heq ▸ hbehind pn (List.mem_cons_self ..) heq) hnew
  | cleared sent pn rest hsent =>
      exact ⟨hgoes _ ⟨fun pn' hpn' => hbehind pn' (List.mem_cons_of_mem _ hpn'), fun _ => rfl⟩,
        rfl⟩
  | skipped sent pn rest hsent =>
      exact ⟨hgoes _ fun pn' hpn' => hbehind pn' (List.mem_cons_of_mem _ hpn'), rfl⟩
  | delivered loop sent rest pn d =>
      obtain ⟨hrest, hclears⟩ := hbehind
      have hd := deliver_delivers cfg w p pn o d
      obtain ⟨hfile, hmemory, htold⟩ := deliver_cleared cfg o h.queue hcleared.queue hclears
      refine ⟨⟨hd.contacts ▸ h.changed, hfile, fun q hq => ?_⟩, htold⟩
      obtain rfl := Option.some.inj hq
      refine ⟨hd.memory ▸ hcleared.changed, hmemory, ?_, ?_, ?_⟩
      · exact fun c hc => hcleared.mutating c (hd.mutating ▸ hc)
      · exact fun k a ha => hcleared.announcing k a (hd.announcing ▸ ha)
      · cases hnext : (deliver cfg w p pn o d).2 with
        | none => exact hrest
        | some d' =>
            refine ⟨hrest, fun heq => ?_⟩
            obtain rfl := hclears heq
            cases hnext

omit [EventCodec] in
/-- A new change has an id of its own. -/
lemma noticeIDFor_ne_of_mutated {now : ℤ} {drawn : List (Option String)} {actor : String}
    {m : Mutation} {new : Event} {contacts : Contacts}
    (hm : p.contacts.mutated cfg now drawn actor m = some (new, contacts))
    (hchanged : ev ∈ p.contacts.changes) (hcosmetic : new.action ≠ .cosmetic)
    (hdist : ∀ a ∈ contacts.changes, ∀ b ∈ contacts.changes,
      noticeIDFor cfg a = noticeIDFor cfg b → a.version = b.version) :
    noticeIDFor cfg new ≠ noticeIDFor cfg ev := by
  intro heq
  have hchanges := Contacts.mutated_changes hm
  rw [if_neg hcosmetic] at hchanges
  have hversion := hdist new (by simp [hchanges]) ev (by simp [hchanges, hchanged]) heq
  have hnext := Contacts.mutated_version hm
  have hle := p.contacts.le_version ev hchanged
  omega

/-- **One step tells nothing again**, where a listing of `Reconcile` shows what has been told. -/
theorem cleared_step {act : Act} (h : w.Cleared cfg ev) (hdist : w'.Distinguishes cfg)
    (hshown : Shown cfg ev w act) (hstep : step cfg w act = some w') :
    w'.Cleared cfg ev ∧ w'.told cfg ev ≤ w.told cfg ev := by
  cases step_cases hstep with
  | opened server hp =>
      refine ⟨⟨h.changed, h.queue, fun q hq => ?_⟩, le_rfl⟩
      obtain rfl := Option.some.inj hq
      refine ⟨h.changed, h.queue, by simp, by simp, ?_⟩
      cases server <;> trivial
  | stopped =>
      exact ⟨⟨h.changed, h.queue, by simp⟩, le_rfl⟩
  | refused k now drawn actor m out => exact ⟨h, le_rfl⟩
  | committed k now drawn actor m out p new contacts hp hmutating hserving hm =>
      have hcleared := h.process p hp
      have hkept : ev ∈ contacts.changes := by
        rw [Contacts.mutated_changes hm]
        split_ifs
        · exact hcleared.changed
        · exact List.mem_append_left _ hcleared.changed
      cases out with
      | unchanged => exact ⟨h, le_rfl⟩
      | replaced => exact ⟨⟨hkept, h.queue, h.process⟩, le_rfl⟩
      | done =>
          refine ⟨⟨hkept, h.queue, fun q hq => ?_⟩, le_rfl⟩
          obtain rfl := Option.some.inj hq
          refine ⟨hkept, hcleared.queue, fun c hc => ?_, hcleared.announcing, hcleared.stage⟩
          simp only [Option.mem_def] at hc
          split_ifs at hc with hcosmetic
          obtain rfl := Option.some.inj hc
          exact noticeIDFor_ne_of_mutated hm hcleared.changed hcosmetic hdist
  | recorded out p k new hp hm =>
      have hcleared := h.process p hp
      have hother := hcleared.mutating (k, new) hm
      refine ⟨⟨h.changed, h.queue, fun q hq => ?_⟩, le_rfl⟩
      obtain rfl := Option.some.inj hq
      split_ifs
      · refine ⟨hcleared.changed, hcleared.queue, by simp [Process.setAnnounce], fun j a ha => ?_,
          hcleared.stage⟩
        simp only [Process.setAnnounce, Option.mem_def] at ha
        split_ifs at ha
        · obtain rfl := Option.some.inj ha
          exact hother
        · exact hcleared.announcing j a ha
      · exact ⟨hcleared.changed, hcleared.queue, by simp, hcleared.announcing, hcleared.stage⟩
  | announced k out p pn d hp ha =>
      have hcleared := h.process p hp
      have hother := hcleared.announcing k (pn, d) ha
      have hd := deliver_delivers cfg w p pn out d
      obtain ⟨hfile, hmemory, htold⟩ := deliver_cleared (d := d) cfg out h.queue hcleared.queue
        fun heq => absurd heq hother
      refine ⟨⟨hd.contacts ▸ h.changed, hfile, fun q hq => ?_⟩, le_of_eq htold⟩
      obtain rfl : (deliver cfg w p pn out d).1.2.setAnnounce k
          ((deliver cfg w p pn out d).2.map fun d' => (pn, d')) = q := Option.some.inj hq
      refine ⟨hd.memory ▸ hcleared.changed, hmemory, ?_, fun j a hja => ?_, ?_⟩
      · exact fun c hc => hcleared.mutating c (hd.mutating ▸ hc)
      · by_cases hj : j = k
        · simp only [Process.setAnnounce, if_pos hj, Option.mem_def] at hja
          obtain ⟨d', -, rfl⟩ := Option.map_eq_some_iff.1 hja
          exact hother
        · simp only [Process.setAnnounce, if_neg hj, hd.announcing] at hja
          exact hcleared.announcing j a hja
      · exact hd.stage ▸ hcleared.stage
  | abandoned k p hp =>
      have hcleared := h.process p hp
      refine ⟨⟨h.changed, h.queue, fun q hq => ?_⟩, le_rfl⟩
      obtain rfl := Option.some.inj hq
      refine ⟨hcleared.changed, hcleared.queue, hcleared.mutating, fun j a hja => ?_,
        hcleared.stage⟩
      simp only [Process.setAnnounce, Option.mem_def] at hja
      split_ifs at hja
      exact hcleared.announcing j a hja
  | recovered out p w' hp hrecover =>
      obtain ⟨hcleared, htold⟩ := Process.Cleared.recover h hp hshown hrecover
      exact ⟨hcleared, le_of_eq htold⟩
  | rewritten out p hp =>
      have hcleared := h.process p hp
      have hd := update_delivers w p id out
      obtain ⟨hfile, hmemory⟩ := update_not_mem (f := id) out h.queue hcleared.queue
        hcleared.queue
      refine ⟨⟨hd.contacts ▸ h.changed, hfile, fun q hq => ?_⟩, ?_⟩
      · obtain rfl := Option.some.inj hq
        exact ⟨hd.memory ▸ hcleared.changed, hmemory,
          fun c hc => hcleared.mutating c (hd.mutating ▸ hc),
          fun j a hja => hcleared.announcing j a (hd.announcing ▸ hja),
          hd.stage ▸ hcleared.stage⟩
      · exact le_of_eq (congrArg _ (update_inbox ..))
  | deleted messageID =>
      exact ⟨⟨h.changed, h.queue, h.process⟩, List.filter_sublist.count_le _⟩

/-! ## Along a run -/

/-- A step does not put the notice of a change into INBOX. -/
def Silent (cfg : Config) (ev : Event) (w : World) (act : Act) : Prop :=
  ∀ w', step cfg w act = some w' → w'.told cfg ev ≤ w.told cfg ev

/-- A run of which no step tells of a change ends with no more notices of it. -/
lemma told_le_of_silent (h : Run.Meets (step cfg) (Silent cfg ev) w acts)
    (hrun : Run.run (step cfg) w acts = some w') : w'.told cfg ev ≤ w.told cfg ev := by
  refine Run.run_invariant_of_meets (I := fun v => v.told cfg ev ≤ w.told cfg ev) ?_ le_rfl h hrun
  exact fun v act v' hle hsilent hstep => (hsilent v' hstep).trans hle

/-- What `Reconcile` promises of a notice that was in INBOX and has been cleared from the queue: no
step of a later run, whatever happens in INBOX, appends it again. -/
def NeverToldAgain (cfg : Config) : Prop :=
  ∀ (w₀ : World) (acts : List Act) (w : World) (acts' : List Act) (w' : World) (ev : Event),
    w₀.Blank → Run.run (step cfg) w₀ acts = some w →
    (∃ v ∈ Run.visits (step cfg) w₀ acts, 0 < v.told cfg ev) → w.Cleared cfg ev →
    (∀ v ∈ Run.visits (step cfg) w acts', v.Distinguishes cfg) →
    Run.run (step cfg) w acts' = some w' → Run.Meets (step cfg) (Silent cfg ev) w acts'

/-- **A delivered notice is not told again where every listing still shows it.**  From a state in
which a change's notice has been cleared from the queue, no step of a later run appends it, if
whenever `Reconcile` lists INBOX with the change among those it goes through, the notice is still
there. -/
theorem not_told_again (hcleared : w.Cleared cfg ev)
    (hdist : ∀ v ∈ Run.visits (step cfg) w acts, v.Distinguishes cfg)
    (hshown : Run.Meets (step cfg) (Shown cfg ev) w acts) :
    Run.Meets (step cfg) (Silent cfg ev) w acts := by
  have hscope := (Run.meets_of_visits hdist).and hshown
  refine (Run.Meets.with_invariant (I := fun v => v.Cleared cfg ev) ?_ hcleared hscope).imp ?_
  · rintro v act v' hv ⟨⟨-, hnext⟩, hact⟩ hstep
    exact (cleared_step hv (hnext v' hstep) hact hstep).1
  · rintro v act ⟨hv, ⟨-, hnext⟩, hact⟩ v' hstep
    exact (cleared_step hv (hnext v' hstep) hact hstep).2

/-! ## A start after INBOX was tidied -/

omit [Runes] [EventCodec]

namespace Sample

/-- Rosa is added, and her notice put into the queue, appended to INBOX and cleared. -/
def toldRun : List Act :=
  [.openData true, ok, ok, ok, addRosa, .record .done, .announce 0 {}, .announce 0 {},
    .announce 0 {}, .stop]

/-- The change that adds Rosa. -/
def rosaAdded : Event where
  time := 5
  actor := "ana"
  action := .add
  contactID := "c_01"
  name := "Rosa"
  oldAddress := ""
  newAddress := "rosa@x"
  version := 1

/-- A start at which nothing fails. -/
def start : List Act := .openData true :: List.replicate 8 ok

/-- Rosa's notice is taken out of INBOX before the start. -/
def tidiedStart : List Act := .delete (messageIDFor config (noticeIDFor config rosaAdded)) :: start

end Sample

lemma World.cleared_of_stopped (hstopped : w.process.isNone = true)
    (h : ev ∈ w.contacts.changes ∧ noticeIDFor cfg ev ∉ w.queue.map PendingNotice.id) :
    w.Cleared cfg ev := by
  refine ⟨h.1, h.2, fun p hp => ?_⟩
  rw [Option.isNone_iff_eq_none.1 hstopped] at hp
  cases hp

/-- **A notice that was taken out of INBOX is told again at the next start.** -/
theorem tidied_notice_told_again :
    ¬ @NeverToldAgain Chaskiwasi.Sample.runes Chaskiwasi.Sample.codec Sample.config := by
  intro hclaim
  have hseen : ∃ v ∈ Run.visits (@step Sample.config Chaskiwasi.Sample.runes
      Chaskiwasi.Sample.codec) Sample.fresh Sample.toldRun,
      0 < v.told Sample.config Sample.rosaAdded := by
    decide +kernel
  have heval : ((Run.run (@step Sample.config Chaskiwasi.Sample.runes Chaskiwasi.Sample.codec)
      Sample.fresh Sample.toldRun).any fun w => w.process.isNone &&
        decide (Sample.rosaAdded ∈ w.contacts.changes ∧
          noticeIDFor Sample.config Sample.rosaAdded ∉ w.queue.map PendingNotice.id) &&
        decide (∀ v ∈ Run.visits (@step Sample.config Chaskiwasi.Sample.runes
          Chaskiwasi.Sample.codec) w Sample.tidiedStart, v.Distinguishes Sample.config) &&
        (Run.run (@step Sample.config Chaskiwasi.Sample.runes Chaskiwasi.Sample.codec) w
          [.delete (messageIDFor Sample.config (noticeIDFor Sample.config Sample.rosaAdded))]).any
          fun v => decide (v.told Sample.config Sample.rosaAdded = 0) &&
            (Run.run (@step Sample.config Chaskiwasi.Sample.runes Chaskiwasi.Sample.codec) v
              Sample.start).any fun w' => decide (w'.told Sample.config Sample.rosaAdded = 1)) =
      true := by
    decide +kernel
  obtain ⟨w, hrun, heval⟩ := Run.exists_of_any heval
  simp only [Bool.and_eq_true, decide_eq_true_eq] at heval
  obtain ⟨⟨⟨hstopped, hgone⟩, hdist⟩, heval⟩ := heval
  obtain ⟨v, hdeleted, heval⟩ := Run.exists_of_any heval
  simp only [Bool.and_eq_true, decide_eq_true_eq] at heval
  obtain ⟨hnone, heval⟩ := heval
  obtain ⟨w', hstart, hagain⟩ := Run.exists_of_any heval
  have hsilent := hclaim Sample.fresh Sample.toldRun w Sample.tidiedStart w' Sample.rosaAdded
    ⟨⟨rfl, rfl, rfl⟩, rfl, rfl⟩ hrun hseen (World.cleared_of_stopped hstopped hgone) hdist
    (Run.run_append_eq_some.2 ⟨v, hdeleted, hstart⟩)
  have hle := @told_le_of_silent Sample.config v w' Sample.start Sample.rosaAdded
    Chaskiwasi.Sample.runes Chaskiwasi.Sample.codec (hsilent.append hdeleted).2 hstart
  have hone := of_decide_eq_true hagain
  omega

/-- Where it is left there, it is not. -/
theorem kept_notice_not_told_again :
    ∃ w, Run.run (@step Sample.config Chaskiwasi.Sample.runes Chaskiwasi.Sample.codec)
        Sample.fresh Sample.toldRun = some w ∧
      w.told Sample.config Sample.rosaAdded = 1 ∧
      Run.Meets (@step Sample.config Chaskiwasi.Sample.runes Chaskiwasi.Sample.codec)
        (@Silent Chaskiwasi.Sample.runes Chaskiwasi.Sample.codec Sample.config Sample.rosaAdded) w
        Sample.start := by
  have heval : ((Run.run (@step Sample.config Chaskiwasi.Sample.runes Chaskiwasi.Sample.codec)
      Sample.fresh Sample.toldRun).any fun w => w.process.isNone &&
        decide (Sample.rosaAdded ∈ w.contacts.changes ∧
          noticeIDFor Sample.config Sample.rosaAdded ∉ w.queue.map PendingNotice.id) &&
        decide (∀ v ∈ Run.visits (@step Sample.config Chaskiwasi.Sample.runes
          Chaskiwasi.Sample.codec) w Sample.start, v.Distinguishes Sample.config) &&
        decide (Run.Meets (@step Sample.config Chaskiwasi.Sample.runes Chaskiwasi.Sample.codec)
          (Shown Sample.config Sample.rosaAdded) w Sample.start) &&
        decide (w.told Sample.config Sample.rosaAdded = 1)) = true := by
    decide +kernel
  obtain ⟨w, hrun, heval⟩ := Run.exists_of_any heval
  simp only [Bool.and_eq_true, decide_eq_true_eq] at heval
  obtain ⟨⟨⟨⟨hstopped, hgone⟩, hdist⟩, hshown⟩, hone⟩ := heval
  exact ⟨w, hrun, hone, @not_told_again Sample.config w Sample.start Sample.rosaAdded
    Chaskiwasi.Sample.runes Chaskiwasi.Sample.codec (World.cleared_of_stopped hstopped hgone) hdist
    hshown⟩

end Chaskiwasi.Notice
