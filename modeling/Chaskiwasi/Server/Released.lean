import Chaskiwasi.Server.Gate

/-!
# One letter, released

A guardian who wants to deliver one old letter without reopening the channel reactivates the
contact, releases the letter, and deactivates the contact again.  The release puts the letter into
INBOX under a fresh UID, above every cursor the device holds, and the arrival path rings for it.
The next sync's reconciliation then meets a message above the delivery boundary whose sender is
inactive: exactly what the gate holds.

So the sequence delivers nothing, in any run: a released letter cannot enter INBOX again under the
UID it was given (`World.Spent`), so the gate has no window for it, and the sync that should carry
it answers without it.
-/

namespace Chaskiwasi

variable [Runes] {cfg : Config} {w w' w₀ w₁ w₂ : World} {acts acts₂ : List Act} {k : ℕ} {m : Raw}

omit [Runes] in
/-- The UID of a message was assigned: whatever enters INBOX from now on is another message. -/
def World.Spent (w : World) (m : Raw) : Prop := m.uid ≤ w.inbox.last

lemma World.Spent.step {act : Act} (h : w.Spent m) (hkeeps : act.Keeps)
    (hstep : step cfg w act = some w') : w'.Spent m :=
  le_trans h (step_advances hkeeps hstep).last

lemma World.Spent.not_entering {act : Act} (h : w.Spent m) (hkeeps : act.Keeps)
    (hstep : Chaskiwasi.step cfg w act = some w') (hm : m ∈ w'.inbox.msgs) : m ∈ w.inbox.msgs := by
  rcases (step_advances hkeeps hstep).inbox m hm with hold | hnew
  · exact hold
  · exact absurd h (not_le_of_gt hnew)

omit [Runes] in
lemma World.moveIn_released {uid fresh : UID} {reply : Reply} {v : World}
    (hv : w.moveIn uid reply fresh = some v) (hm : .released m ∈ v.log) :
    .released m ∈ w.log ∨ v.Spent m := by
  rcases World.moveIn_cases hv with rfl | ⟨raw, -, -, hfresh, held, -, rfl⟩
  · exact Or.inl hm
  · rcases List.mem_cons.1 hm with heq | hm
    · obtain rfl := Note.released.inj heq
      exact Or.inr (le_refl _)
    · exact Or.inl hm

/-- What a pass releases, it releases under a UID that is spent from then on. -/
lemma PassStep.released_mem {caller : Caller} {pc : Pass} (h : PassStep cfg w caller pc w')
    (hm : .released m ∈ w'.log) : .released m ∈ w.log ∨ w'.Spent m := by
  have unfinished : ∀ {v : World} {ok : Bool}, .released m ∈ (v.finish caller ok).log →
      .released m ∈ v.log := by
    intro v ok hv
    rcases World.mem_finish_log hv with hv | ⟨j, -, heq⟩
    · exact hv
    · cases heq
  rcases h.log_mem hm with hold | hnew
  · exact Or.inl hold
  · cases hnew with
    | released raw m hlast =>
        cases h with
        | aborted => exact Or.inl (unfinished hm)
        | unheld raw fresh v hv => exact World.moveIn_released (v := v) hv hm
        | unholdFailed raw fresh reply v hv =>
            refine (World.moveIn_released hv (unfinished hm)).imp_right fun hspent => ?_
            rw [World.Spent, World.finish_inbox]
            exact hspent

/-- Every UID a release gave out is spent. -/
def World.ReleasedSpent (w : World) : Prop := ∀ m, .released m ∈ w.log → w.Spent m

lemma step_releasedSpent {act : Act} (h : w.ReleasedSpent) (hkeeps : act.Keeps)
    (hstep : step cfg w act = some w') : w'.ReleasedSpent := by
  intro m hm
  rcases step_log_mem hstep hm with hold | hnew
  · exact (h m hold).step hkeeps hstep
  · cases hnew with
    | pass reply fresh io caller pc n hpass hn =>
        have hpstep : passStep cfg w caller pc reply fresh io = some w' := by
          simpa only [step, hpass] using hstep
        rcases (passStep_cases hpstep).released_mem hm with hold | hspent
        · exact (h m hold).step hkeeps hstep
        · exact hspent

lemma releasedSpent_of_run (hw : w₀.AtRest) (hkeeps : ∀ act ∈ acts, act.Keeps)
    (hrun : Run.run (step cfg) w₀ acts = some w) : w.ReleasedSpent := by
  have hmeets : Run.Meets (step cfg) (fun _ act => act.Keeps) w₀ acts := Run.meets_of_mem hkeeps
  refine Run.run_invariant_of_meets (fun s a s' hs ha hstep => step_releasedSpent hs ha hstep) ?_
    hmeets hrun
  intro m hm
  rw [hw.log] at hm
  cases hm

/-! ## The documented sequence -/

/-- The log says that this release put this message into INBOX, and returned nil. -/
def ReleasedBy (log : List Note) (job : Job) (m : Raw) : Prop :=
  ∃ newer since older, log = newer ++ .returned job true :: since ++ .released m :: older ∧
    ∀ j ok, .returned j ok ∉ since

omit [Runes] in
lemma ReleasedBy.mem {log : List Note} {job : Job} (h : ReleasedBy log job m) :
    .released m ∈ log := by
  obtain ⟨newer, since, older, rfl, -⟩ := h
  simp

/-- A guardian releases one letter of a deactivated contact and deactivates the contact again: in
`w₁` the release has returned nil and sync `k` was not asked yet, and the deactivation leaves the
server in `w₂`.  From there on the contact stays deactivated, and `k` is asked with concrete cursors
only. -/
structure OneLetter (cfg : Config) (w₁ w₂ : World) (acts₂ : List Act) (m : Raw) (k : ℕ) : Prop where
  sequence : ∃ uid actor actor' sender contact io event,
    cfg.pipeline.headerFrom m.data = some sender ∧ w₁.table.resolve sender = some contact ∧
      ReleasedBy w₁.log (.release (.deactivated actor contact.id) uid) m ∧
      mutate cfg.maxContacts io actor' { action := .deactivate, contactID := contact.id } w₁.table =
        (.ok event, w₂.table) ∧
      ∀ v ∈ Run.visits (step cfg) w₂ acts₂, v.table.resolve sender = w₂.table.resolve sender
  rest : w₂ = { w₁ with table := w₂.table }
  unasked : w₁.syncs k = none ∧ ∀ r, .responded k r ∉ w₁.log
  concrete : ∀ cursor, .request k cursor ∈ acts₂ →
    (cursorBoundary cursor w₂.uidValidity).isSome

/-- A one-letter release sticks: the sync delivers the letter, and no reconciliation returns it to
Held. -/
def OneLetterSticks (cfg : Config) : Prop :=
  ∀ (w₀ w₁ w₂ w : World) (acts₁ acts₂ : List Act) (m : Raw) (k : ℕ), w₀.AtRest →
    (∀ act ∈ acts₁ ++ acts₂, act.Keeps) → Run.run (step cfg) w₀ acts₁ = some w₁ →
    OneLetter cfg w₁ w₂ acts₂ m k → Run.run (step cfg) w₂ acts₂ = some w →
    ∀ r, .responded k r ∈ w.log → m ∈ r.sources ∧ .quarantined m ∉ w.log

/-- From the deactivation on, filing holds the letter wherever it meets it. -/
lemma OneLetter.barred (h : OneLetter cfg w₁ w₂ acts₂ m k) :
    ∀ v ∈ Run.visits (step cfg) w₂ acts₂, Barred cfg.pipeline v.table m.data := by
  obtain ⟨-, -, actor, sender, contact, io, event, hfrom, hres, -, hmutate, hstays⟩ := h.sequence
  intro v hv sender' hfrom' contact' hres'
  obtain rfl := Option.some.inj (hfrom.symm.trans hfrom')
  have htomb := resolve_of_deactivate hres hmutate
  rw [hstays v hv, htomb] at hres'
  obtain rfl := Option.some.inj hres'
  rfl

lemma OneLetter.guarded (h : OneLetter cfg w₁ w₂ acts₂ m k) : w₂.Guarded k m := by
  rw [h.rest]
  refine ⟨fun pc hpc => ?_, fun r hr => absurd hr (h.unasked.2 r)⟩
  have hnone : w₁.syncs k = some pc := hpc
  rw [h.unasked.1] at hnone
  cases hnone

/-- **A one-letter release never sticks.**  Whatever happens before and between, the sync that is
asked after the contact was deactivated again does not deliver the letter. -/
theorem one_letter_not_delivered (hw : w₀.AtRest) (hkeeps : ∀ act ∈ acts ++ acts₂, act.Keeps)
    (hrun₁ : Run.run (step cfg) w₀ acts = some w₁) (h : OneLetter cfg w₁ w₂ acts₂ m k)
    (hrun : Run.run (step cfg) w₂ acts₂ = some w) :
    ∀ r, .responded k r ∈ w.log → m ∉ r.sources := by
  have hkeeps₁ : ∀ act ∈ acts, act.Keeps := fun a ha => hkeeps a (List.mem_append_left _ ha)
  have hkeeps₂ : ∀ act ∈ acts₂, act.Keeps := fun a ha => hkeeps a (List.mem_append_right _ ha)
  obtain ⟨uid, actor, -, sender, contact, -, -, -, -, hreleased, -⟩ := h.sequence
  have hspent : w₂.Spent m := by
    rw [h.rest]
    exact releasedSpent_of_run hw hkeeps₁ hrun₁ m hreleased.mem
  have hmeets : Run.Meets (step cfg) (fun _ act => act.Keeps) w₂ acts₂ := Run.meets_of_mem hkeeps₂
  have henter : Run.Meets (step cfg) (fun v act => v.Unwatched k → ∀ v', step cfg v act = some v' →
      m ∈ v'.inbox.msgs → m ∈ v.inbox.msgs) w₂ acts₂ := by
    refine (hmeets.with_invariant (I := fun v => v.Spent m) ?_ hspent).imp ?_
    · exact fun s a s' hs ha hstep => hs.step ha hstep
    · exact fun v act hv _ v' hstep => hv.1.not_entering hv.2 hstep
  have hguarded := not_delivered_of_guarded h.guarded hkeeps₂ h.concrete
    (fun v hv _ => h.barred v hv) henter hrun
  exact hguarded.log

/-! ## One letter from Rosa -/

omit [Runes]

/-- Rosa's letter, as the spam backstop left it in Held. -/
def heldLetter : Raw := Sample.delivered 1 "rosa@x"

/-- Her letter is released, with everything answered as it should be. -/
def releaseRun : List Act :=
  [.intoHeld heldLetter, .call (.release (.deactivated "ana" "c_01") 1), Sample.passOk 0,
    Sample.passOk 0, Sample.passOk 0, Sample.passOk 1, Sample.passOk 0, Sample.passOk 0,
    Sample.passOk 0]

/-- A sync from the cursor the device holds, after she was deactivated again. -/
def afterwardsRun : List Act :=
  [.request 0 (encodeCursor 1 0), Sample.syncOk, Sample.syncOk, Sample.passOk 0, Sample.passOk 0,
    Sample.passOk 2, Sample.passOk 0, Sample.syncOk, Sample.syncOk, Sample.syncOk, Sample.syncOk]

/-- What Rosa's deactivation returns, and the table it leaves. -/
def deactivateRosa (t : Table) : Except MutateError Event × Table :=
  @mutate Sample.runes Sample.config.maxContacts {} "ana"
    { action := .deactivate, contactID := (Sample.rosa true).id } t

/-- The server after the deactivation. -/
def World.withoutRosa (w : World) : World :=
  { w with table := (deactivateRosa w.table).2 }

/-- The log after the release. -/
def releaseLog : List Note :=
  [.returned (.release (.deactivated "ana" "c_01") 1) true, .kept heldLetter "c_01", .fetched,
    .released heldLetter]

/-- What is to check of the server after the release. -/
def releasedRosa (w : World) : Bool :=
  decide (w.log = releaseLog) && (w.syncs 0).isNone && decide (w.uidValidity = 1) &&
    decide (@Table.resolve Sample.runes w.table "rosa@x" = some (Sample.rosa true)) &&
    (deactivateRosa w.table).1.isOk

/-- What is to check of the run of the sync. -/
def afterwards (w : World) : Bool :=
  ((Run.visits (@step Sample.runes Sample.config) w afterwardsRun).all fun v =>
    decide (@Table.resolve Sample.runes v.table "rosa@x" = some (Sample.rosa false))) &&
  (Run.run (@step Sample.runes Sample.config) w afterwardsRun).any fun v =>
    decide (.responded 0 ⟨1, 0, [], false, []⟩ ∈ v.log)

lemma keeps_oneLetter : ∀ act ∈ releaseRun ++ afterwardsRun, act.Keeps := by decide

/-- The two runs are an instance of the sequence, and the sync answers without the letter. -/
lemma oneLetter_rosa : ∃ w₁ w₂ w, Run.run (@step Sample.runes Sample.config)
    (Sample.world (Sample.onlyRosa false)) releaseRun = some w₁ ∧
    @OneLetter Sample.runes Sample.config w₁ w₂ afterwardsRun heldLetter 0 ∧
    Run.run (@step Sample.runes Sample.config) w₂ afterwardsRun = some w ∧
    .responded 0 ⟨1, 0, [], false, []⟩ ∈ w.log := by
  have heval : ((Run.run (@step Sample.runes Sample.config)
      (Sample.world (Sample.onlyRosa false)) releaseRun).any fun w =>
        releasedRosa w && afterwards w.withoutRosa) = true := by
    decide +kernel
  obtain ⟨w₁, hrun₁, hchecks⟩ := Run.exists_of_any heval
  obtain ⟨hreleased, hafter⟩ := Bool.and_eq_true_iff.1 hchecks
  obtain ⟨hvisits, hany⟩ := Bool.and_eq_true_iff.1 hafter
  obtain ⟨w, hrun, hr⟩ := Run.exists_of_any hany
  simp only [releasedRosa, Bool.and_eq_true, decide_eq_true_eq, Option.isNone_iff_eq_none]
    at hreleased
  obtain ⟨⟨⟨⟨hlog, hsync⟩, huv⟩, hres⟩, hok⟩ := hreleased
  have hstays : ∀ v ∈ Run.visits (@step Sample.runes Sample.config) w₁.withoutRosa afterwardsRun,
      @Table.resolve Sample.runes v.table "rosa@x" = some (Sample.rosa false) :=
    fun v hv => of_decide_eq_true (List.all_eq_true.1 hvisits v hv)
  refine ⟨w₁, w₁.withoutRosa, w, hrun₁, ?_, hrun, of_decide_eq_true hr⟩
  refine @OneLetter.mk Sample.runes _ _ _ _ _ _ ?_ rfl ⟨hsync, by simp [hlog, releaseLog]⟩ ?_
  · cases hmutate : (deactivateRosa w₁.table).1 with
    | error e => simp [hmutate, Except.isOk, Except.toBool] at hok
    | ok event =>
        refine ⟨1, "ana", "ana", "rosa@x", Sample.rosa true, {}, event, by decide +kernel, hres,
          ⟨[], [.kept heldLetter "c_01", .fetched], [], hlog, by simp⟩, ?_, fun v hv => ?_⟩
        · exact Prod.ext hmutate rfl
        · rw [hstays v hv, hstays _ (Run.mem_visits_self _ _)]
  · intro cursor hreq
    have hcursor : cursor = encodeCursor 1 0 := by
      simp [afterwardsRun, Sample.syncOk, Sample.passOk] at hreq
      exact hreq
    have hboundary : cursorBoundary (encodeCursor 1 0) w₁.uidValidity = some 0 := by
      rw [huv]
      exact cursorBoundary_encodeCursor_self 1 0
    rw [hcursor]
    exact Option.isSome_iff_exists.2 ⟨0, hboundary⟩

/-- A one-letter release does not stick. -/
theorem one_letter_returns : ¬ @OneLetterSticks Sample.runes Sample.config := by
  intro hsticks
  obtain ⟨w₁, w₂, w, hrun₁, hone, hrun, hr⟩ := oneLetter_rosa
  have hdelivered := hsticks _ w₁ w₂ w releaseRun afterwardsRun heldLetter 0
    (Sample.world_atRest _) keeps_oneLetter hrun₁ hone hrun _ hr
  simp at hdelivered

/-- The sync that follows answers without Rosa's letter. -/
theorem one_letter_rosa_not_delivered :
    ∃ w₁ w₂ w r, Run.run (@step Sample.runes Sample.config)
      (Sample.world (Sample.onlyRosa false)) releaseRun = some w₁ ∧
      Run.run (@step Sample.runes Sample.config) w₂ afterwardsRun = some w ∧
      .responded 0 r ∈ w.log ∧ heldLetter ∉ r.sources := by
  obtain ⟨w₁, w₂, w, hrun₁, hone, hrun, hr⟩ := oneLetter_rosa
  exact ⟨w₁, w₂, w, _, hrun₁, hrun, hr, @one_letter_not_delivered Sample.runes _ _ _ _ _ _ _ _ _
    (Sample.world_atRest _) keeps_oneLetter hrun₁ hone hrun _ hr⟩

end Chaskiwasi
