import Chaskiwasi.Server.Messages
import Chaskiwasi.Server.Sample

/-!
# The gate in front of a sync

A sync that carries a concrete cursor reconciles before it fetches, so that mail from a stranger
or from a removed contact is in Held before the same sync could deliver it.  The gate is two round
trips to the mailbox, a listing and a fetch, and what it guarantees is about the messages it saw:
`guarded_step` follows one message whose sender is barred from the listing through the decision
and the move, up to the fetch that no longer finds it.

What enters INBOX between the listing and the fetch the gate never sees.  `World.Unwatched` names
that interval, and the results of this file stand on either side of it: nothing barred is delivered
in a run where nothing barred enters while the sync is unwatched, and a run where something does
delivers it.
-/

namespace Chaskiwasi

variable [Runes]

/-- As filing reads it, the sender is unknown to the contact table or inactive in it. -/
def Barred (P : Pipeline) (t : Table) (data : List UInt8) : Prop :=
  ∀ addr, P.headerFrom data = some addr → ∀ contact, t.resolve addr = some contact →
    contact.active = false

/-- Reconciliation sends a barred message above its delivery boundary to Held. -/
lemma quarantines_of_barred {P : Pipeline} {t : Table} {raw : Raw} {deliveredUID : UID}
    (h : Barred P t raw.data) (habove : deliveredUID < raw.uid) :
    quarantines P t (some deliveredUID) raw = true := by
  unfold quarantines
  cases hfrom : P.headerFrom raw.data with
  | none => rfl
  | some addr =>
      cases hres : t.resolve addr with
      | none => simp [hres]
      | some contact => simp [hres, h addr hfrom contact hres, habove]

/-- A sync has listed INBOX and has not fetched from it yet. -/
def World.Unwatched (w : World) (k : ℕ) : Prop :=
  (∃ bound rest maxUID, w.pass = some ⟨.sync k, .sweep bound rest maxUID⟩) ∨
    (∃ bound raw rest maxUID, w.pass = some ⟨.sync k, .quarantine bound raw rest maxUID⟩) ∨
    (∃ cursor, w.syncs k = some (.assemble cursor)) ∨
    ∃ uidValidity boundary, w.syncs k = some (.fetching uidValidity boundary)

/-! ## One message and one sync -/

section Guard

/-- Where a message that is above the boundary must still be for a reconciliation to catch it. -/
def Pass.Catches (deliveredUID : UID) (m : Raw) (inbox : Folder) : Pass → Prop
  | .list bound => bound = some deliveredUID
  | .sweep bound rest _ =>
      bound = some deliveredUID ∧ (m ∈ inbox.msgs → deliveredUID < m.uid → m ∈ rest)
  | .quarantine bound raw rest _ =>
      bound = some deliveredUID ∧ (m ∈ inbox.msgs → deliveredUID < m.uid → m = raw ∨ m ∈ rest)
  | _ => False

/-- What keeps a message out of a sync's response, at each place of the sync. -/
def World.Guards (w : World) (k : ℕ) (m : Raw) : Sync → Prop
  | .start cursor => ∃ deliveredUID, cursorBoundary cursor w.uidValidity = some deliveredUID
  | .waiting cursor bound =>
      ∃ deliveredUID, cursorBoundary cursor w.uidValidity = some deliveredUID ∧
        bound = some deliveredUID
  | .reconciling cursor =>
      ∃ deliveredUID, cursorBoundary cursor w.uidValidity = some deliveredUID ∧
        ∃ pc, w.pass = some ⟨.sync k, pc⟩ ∧ pc.Catches deliveredUID m w.inbox
  | .assemble cursor =>
      ∃ deliveredUID, cursorBoundary cursor w.uidValidity = some deliveredUID ∧
        (m ∈ w.inbox.msgs → ¬ deliveredUID < m.uid)
  | .fetching _ boundary =>
      ∃ deliveredUID, boundary = some deliveredUID ∧ (m ∈ w.inbox.msgs → ¬ deliveredUID < m.uid)
  | .deriving_ _ _ sources rest _ => m ∉ sources ∧ m ∉ rest
  | .committing _ _ sources _ => m ∉ sources

/-- A message is kept out of what a sync has answered and of what it is about to answer. -/
structure World.Guarded (w : World) (k : ℕ) (m : Raw) : Prop where
  sync : ∀ pc, w.syncs k = some pc → w.Guards k m pc
  log : ∀ r, .responded k r ∈ w.log → m ∉ r.sources

variable {cfg : Config} {w w' : World} {k : ℕ} {m : Raw}

omit [Runes] in
/-- A step that leaves the sync where it is, and lets the message into INBOX only while the sync
is watched, leaves the guard in place. -/
lemma World.Guarded.of_frame (h : w.Guarded k m) (hsync : w'.syncs k = w.syncs k)
    (huv : w'.uidValidity = w.uidValidity)
    (hpass : ∀ cursor, w.syncs k = some (.reconciling cursor) → w'.pass = w.pass)
    (hinbox : w.Unwatched k → m ∈ w'.inbox.msgs → m ∈ w.inbox.msgs)
    (hlog : ∀ r, .responded k r ∈ w'.log → .responded k r ∈ w.log) : w'.Guarded k m where
  log := fun r hr => h.log r (hlog r hr)
  sync := by
    intro pc hpc
    rw [hsync] at hpc
    have hg := h.sync pc hpc
    cases pc with
    | start cursor => simpa only [World.Guards, huv] using hg
    | waiting cursor bound => simpa only [World.Guards, huv] using hg
    | reconciling cursor =>
        obtain ⟨deliveredUID, hb, pcp, hrun, hcatch⟩ := hg
        refine ⟨deliveredUID, huv ▸ hb, pcp, (hpass cursor hpc).trans hrun, ?_⟩
        cases pcp with
        | list bound => exact hcatch
        | sweep bound rest maxUID =>
            exact ⟨hcatch.1, fun hm => hcatch.2 (hinbox (Or.inl ⟨_, _, _, hrun⟩) hm)⟩
        | quarantine bound raw rest maxUID =>
            exact ⟨hcatch.1,
              fun hm => hcatch.2 (hinbox (Or.inr (Or.inl ⟨_, _, _, _, hrun⟩)) hm)⟩
        | _ => exact hcatch.elim
    | assemble cursor =>
        obtain ⟨deliveredUID, hb, hout⟩ := hg
        exact ⟨deliveredUID, huv ▸ hb,
          fun hm => hout (hinbox (Or.inr (Or.inr (Or.inl ⟨_, hpc⟩))) hm)⟩
    | fetching uidValidity boundary =>
        obtain ⟨deliveredUID, hb, hout⟩ := hg
        exact ⟨deliveredUID, hb,
          fun hm => hout (hinbox (Or.inr (Or.inr (Or.inr ⟨_, _, hpc⟩))) hm)⟩
    | deriving_ => exact hg
    | committing => exact hg

omit [Runes] in
lemma World.Guarded.of_ended (h : w.Guarded k m) (hsync : w'.syncs k = none)
    (hlog : ∀ r, .responded k r ∈ w'.log → .responded k r ∈ w.log) : w'.Guarded k m :=
  ⟨fun pc hpc => by simp [hsync] at hpc, fun r hr => h.log r (hlog r hr)⟩

omit [Runes] in
lemma World.reconciled_eq_none {s : Option Sync} (h : ∀ cursor, s ≠ some (.reconciling cursor)) :
    World.reconciled s = none := by
  unfold World.reconciled
  split
  · next cursor => exact absurd rfl (h cursor)
  · rfl

/-- The pass a sync called catches the message, if it is barred, wherever the pass stands. -/
lemma PassStep.guards_reconciling {pc : Pass} {cursor : String} {deliveredUID : UID}
    (hsync : w.syncs k = some (.reconciling cursor))
    (hb : cursorBoundary cursor w.uidValidity = some deliveredUID)
    (hcatch : pc.Catches deliveredUID m w.inbox) (hstep : PassStep cfg w (.sync k) pc w')
    (hbarred : m ∈ w.inbox.msgs → Barred cfg.pipeline w.table m.data) :
    ∀ pc', w'.syncs k = some pc' → w'.Guards k m pc' := by
  intro pc' hpc'
  -- Where the pass goes on, the sync stays where it is.
  have stays : ∀ {v : World} {next : Pass}, v.syncs = w.syncs → v.uidValidity = w.uidValidity →
      next.Catches deliveredUID m v.inbox → (v.goto (.sync k) next).syncs k = some pc' →
      (v.goto (.sync k) next).Guards k m pc' := by
    intro v next hv huv hnext heq
    have hrec : some (Sync.reconciling cursor) = some pc' :=
      hsync.symm.trans ((congrFun hv k).symm.trans heq)
    obtain rfl := Option.some.inj hrec
    exact ⟨deliveredUID, huv ▸ hb, next, rfl, hnext⟩
  have ended : ∀ {v : World}, (v.finish (.sync k) false).syncs k ≠ some pc' := by
    intro v heq
    simp [World.finish] at heq
  cases hstep with
  | aborted => exact absurd hpc' ended
  | quarantineFailed => exact absurd hpc' ended
  | listed bound => exact stays rfl rfl ⟨hcatch, fun hm _ => hm⟩ hpc'
  | swept bound maxUID =>
      simp only [World.finish, if_true, World.raise, hsync, World.reconciled,
        Option.some.injEq] at hpc'
      obtain rfl := hpc'
      refine ⟨deliveredUID, hb, fun hm habove => ?_⟩
      exact absurd (hcatch.2 hm habove) (by simp)
  | suspected bound raw rest maxUID hq =>
      exact stays rfl rfl ⟨hcatch.1, fun hm habove => List.mem_cons.1 (hcatch.2 hm habove)⟩ hpc'
  | left bound raw rest maxUID hq =>
      refine stays (v := w.note (.left raw)) rfl rfl ⟨hcatch.1, fun hm habove => ?_⟩ hpc'
      rcases List.mem_cons.1 (hcatch.2 hm habove) with rfl | hrest
      · have hheld := quarantines_of_barred (hbarred hm) habove
        rw [hcatch.1, hheld] at hq
        cases hq
      · exact hrest
  | quarantined bound raw rest maxUID fresh v hv =>
      have hadv := World.moveOut_advances hv
      refine stays hadv.2.2.2.1 hadv.1.uidValidity ⟨hcatch.1, fun hm habove => ?_⟩ hpc'
      obtain ⟨hold, hne⟩ := World.ne_of_moveOut_ok hv hm
      exact (hcatch.2 hold habove).resolve_left fun heq => hne (congrArg Raw.uid heq)
  | _ => exact hcatch.elim

/-- A step of whatever pass is running keeps a barred message guarded. -/
lemma PassStep.guarded (h : w.Guarded k m) {caller : Caller} {pc : Pass}
    (hpass : w.pass = some ⟨caller, pc⟩) (hstep : PassStep cfg w caller pc w')
    (hbarred : m ∈ w.inbox.msgs → Barred cfg.pipeline w.table m.data)
    (henter : w.Unwatched k → m ∈ w'.inbox.msgs → m ∈ w.inbox.msgs) : w'.Guarded k m := by
  have hlog : ∀ r, .responded k r ∈ w'.log → .responded k r ∈ w.log :=
    fun r hr => hstep.responded_mem hr
  by_cases hrec : ∃ cursor, w.syncs k = some (.reconciling cursor)
  · obtain ⟨cursor, hsync⟩ := hrec
    obtain ⟨deliveredUID, hb, pcp, hrun, hcatch⟩ := h.sync _ hsync
    obtain ⟨rfl, rfl⟩ := Running.mk.inj (Option.some.inj (hpass.symm.trans hrun))
    exact ⟨hstep.guards_reconciling hsync hb hcatch hbarred, fun r hr => h.log r (hlog r hr)⟩
  · rcases hstep.syncs_cases k with heq | ⟨-, -, hnone | hdone⟩
    · exact h.of_frame heq hstep.advances.uidValidity
        (fun cursor hc => absurd ⟨cursor, hc⟩ hrec) henter hlog
    · exact h.of_ended hnone hlog
    · refine h.of_ended (hdone.trans (World.reconciled_eq_none fun cursor hc => ?_)) hlog
      exact hrec ⟨cursor, hc⟩

/-- A step of the sync keeps the message guarded. -/
lemma SyncStep.guarded (h : w.Guarded k m) {pc : Sync} (hpc : w.syncs k = some pc)
    (hstep : SyncStep cfg w k pc w') : w'.Guarded k m := by
  have hg := h.sync pc hpc
  -- The sync's next place, and what guards the message there.
  have goes : ∀ {v : World} {next : Option Sync}, v.log = w.log →
      (∀ pc', next = some pc' → (v.setSync k next).Guards k m pc') →
      (v.setSync k next).Guarded k m := by
    intro v next hlog hnext
    refine ⟨fun pc' hpc' => hnext pc' (by simpa using hpc'), fun r hr => h.log r ?_⟩
    exact hlog ▸ hr
  cases hstep with
  | failed => exact goes rfl (by simp)
  | started cursor =>
      refine goes rfl fun pc' heq => ?_
      obtain rfl := Option.some.inj heq
      obtain ⟨deliveredUID, hb⟩ := hg
      exact ⟨deliveredUID, hb, hb⟩
  | called cursor bound hfree =>
      refine goes (v := w.goto (.sync k) (.list bound)) rfl fun pc' heq => ?_
      obtain rfl := Option.some.inj heq
      obtain ⟨deliveredUID, hb, hbound⟩ := hg
      exact ⟨deliveredUID, hb, .list bound, rfl, hbound⟩
  | assembling cursor =>
      refine goes rfl fun pc' heq => ?_
      obtain rfl := Option.some.inj heq
      exact hg
  | fetched uidValidity boundary budget =>
      refine goes rfl fun pc' heq => ?_
      obtain rfl := Option.some.inj heq
      obtain ⟨deliveredUID, rfl, hout⟩ := hg
      refine ⟨by simp, fun hm => ?_⟩
      obtain ⟨hmem, habove⟩ := Folder.mem_of_mem_fetchAbove hm
      exact hout hmem habove
  | through uidValidity asm sources capped =>
      refine goes rfl fun pc' heq => ?_
      obtain rfl := Option.some.inj heq
      exact hg.1
  | skipped uidValidity asm sources raw rest capped =>
      refine goes rfl fun pc' heq => ?_
      obtain rfl := Option.some.inj heq
      exact ⟨hg.1, fun hm => hg.2 (List.mem_cons_of_mem _ hm)⟩
  | derived uidValidity asm sources raw rest capped letter budget hderive =>
      refine goes rfl fun pc' heq => ?_
      obtain rfl := Option.some.inj heq
      refine ⟨fun hm => ?_, fun hm => hg.2 (List.mem_cons_of_mem _ hm)⟩
      rcases List.mem_append.1 hm with hm | hm
      · exact hg.1 hm
      · exact hg.2 (List.mem_singleton.1 hm ▸ List.mem_cons_self ..)
  | stopped uidValidity asm sources raw rest capped =>
      refine goes rfl fun pc' heq => ?_
      obtain rfl := Option.some.inj heq
      exact hg.1
  | responded uidValidity asm sources more =>
      refine ⟨fun pc' hpc' => by simp at hpc', fun r hr => ?_⟩
      rcases List.mem_cons.1 hr with heq | hr
      · obtain ⟨-, rfl⟩ := Note.responded.inj heq
        exact hg
      · exact h.log r hr

/-- **The step lemma of the gate.**  A message that is barred while it is in INBOX, and that does
not enter INBOX while the sync is unwatched, stays out of what the sync answers. -/
theorem guarded_step {act : Act} (h : w.Guarded k m) (hkeeps : act.Keeps)
    (hrequest : ∀ cursor, act = .request k cursor →
      ∃ deliveredUID, cursorBoundary cursor w.uidValidity = some deliveredUID)
    (hbarred : m ∈ w.inbox.msgs → Barred cfg.pipeline w.table m.data)
    (hstep : step cfg w act = some w')
    (henter : w.Unwatched k → m ∈ w'.inbox.msgs → m ∈ w.inbox.msgs) : w'.Guarded k m := by
  have huv := (step_advances hkeeps hstep).uidValidity
  cases worldStep_cases hstep with
  | arrived raw hfresh =>
      exact h.of_frame rfl huv (fun _ _ => rfl) henter fun r hr => by simpa using hr
  | intoHeld | mutated => exact h.of_frame rfl huv (fun _ _ => rfl) henter fun r hr => hr
  | renumbered => exact hkeeps.elim
  | called j hfree =>
      refine h.of_frame rfl huv (fun cursor hsync => ?_) henter fun r hr => hr
      -- The mutex is free, so the sync is not reconciling.
      obtain ⟨-, -, pc, hrun, -⟩ := h.sync _ hsync
      rw [hfree] at hrun
      cases hrun
  | passed reply fresh io caller pc w' hpass hstep =>
      exact (passStep_cases hstep).guarded h hpass hbarred henter
  | requested j cursor hnone =>
      by_cases hj : k = j
      · subst hj
        refine ⟨fun pc hpc => ?_, fun r hr => h.log r hr⟩
        have heq : some (Sync.start cursor) = some pc := by simpa using hpc
        obtain rfl := Option.some.inj heq
        exact hrequest cursor rfl
      · exact h.of_frame (by simp [hj]) huv (fun _ _ => rfl) henter fun r hr => hr
  | synced j reply skeleton pc w' hpc hsync =>
      by_cases hj : k = j
      · subst hj
        exact hsync.guarded h hpc
      · refine h.of_frame (hsync.syncs_eq hj) huv (fun cursor hk => ?_) henter fun r hr => ?_
        · cases hsync with
          | called cursor' bound hfree =>
              obtain ⟨-, -, pc, hrun, -⟩ := h.sync _ hk
              rw [hfree] at hrun
              cases hrun
          | _ => rfl
        · cases hsync with
          | responded =>
              exact (List.mem_cons.1 hr).resolve_left fun heq => hj (Note.responded.inj heq).1
          | _ => exact hr

end Guard

/-! ## What the gate lets through -/

/-- The sender a letter would be attributed to is unknown to the contact table or inactive in
it. -/
def SenderBarred (P : Pipeline) (t : Table) (data : List UInt8) : Prop :=
  ∀ addr, P.envelopeFrom data = some addr → ∀ contact, t.resolve addr = some contact →
    contact.active = false

omit [Runes] in
/-- Filing's and derivation's readers do not read two different senders in a message. -/
def ReadsAlike (P : Pipeline) (data : List UInt8) : Prop :=
  ∀ addr addr', P.headerFrom data = some addr → P.envelopeFrom data = some addr' → addr = addr'

lemma barred_of_senderBarred {P : Pipeline} {t : Table} {data : List UInt8} {addr : String}
    (halike : ReadsAlike P data) (hfrom : P.envelopeFrom data = some addr)
    (h : SenderBarred P t data) : Barred P t data := by
  intro addr' hheader
  exact h addr' (halike addr' addr hheader hfrom ▸ hfrom)

/-- The gate's promise, as the code states it: a sync with a concrete cursor answers with no letter
from a sender who was barred whenever the message was in INBOX. -/
def GateHasNoWindow (cfg : Config) : Prop :=
  ∀ (w₀ : World) (acts : List Act) (w : World) (k : ℕ) (m : Raw), w₀.AtRest →
    (∀ act ∈ acts, act.Keeps) →
    (∀ cursor, .request k cursor ∈ acts → (cursorBoundary cursor w₀.uidValidity).isSome) →
    (∀ v ∈ Run.visits (step cfg) w₀ acts,
      m ∈ v.inbox.msgs → SenderBarred cfg.pipeline v.table m.data) →
    Run.run (step cfg) w₀ acts = some w → ∀ r, .responded k r ∈ w.log → m ∉ r.sources

/-- No message from a barred sender enters INBOX by this step while the sync is unwatched. -/
def Watched (cfg : Config) (k : ℕ) (w : World) (act : Act) : Prop :=
  w.Unwatched k → ∀ w', step cfg w act = some w' → ∀ x ∈ w'.inbox.msgs, x ∉ w.inbox.msgs →
    ¬ SenderBarred cfg.pipeline w'.table x.data

variable {cfg : Config} {w w₀ : World} {acts : List Act} {k : ℕ} {m : Raw}

/-- Every message behind a letter has a From address derivation could read. -/
lemma sources_readable (hw : w₀.AtRest) (hrun : Run.run (step cfg) w₀ acts = some w) {r : Response}
    (hr : .responded k r ∈ w.log) (hm : m ∈ r.sources) :
    ∃ addr, cfg.pipeline.envelopeFrom m.data = some addr := by
  have hsourced : w.Sourced fun raw _ =>
      (∃ addr, cfg.pipeline.envelopeFrom raw.data = some addr) ∧ True := by
    refine Run.run_invariant (fun s a s' hs hstep => step_sourced hs ?_ hstep) ?_ hrun
    · intro _ _ raw letter _ _ hderive
      obtain ⟨addr, -, hfrom, -⟩ := cfg.pipeline.derive_eq_ok hderive
      exact ⟨⟨addr, hfrom⟩, trivial⟩
    · exact ⟨by simp [hw.syncs], by simp [hw.log]⟩
  exact ((List.forall₂_and_left _ _).1 (hsourced.log k r hr)).1 m hm

omit [Runes] in
lemma World.AtRest.guarded (hw : w₀.AtRest) : w₀.Guarded k m :=
  ⟨by simp [hw.syncs], by simp [hw.log]⟩

/-- A message that is barred wherever it stands in INBOX, and that never enters INBOX while the
sync is unwatched, is not among the messages the sync delivers, however often it is asked. -/
lemma not_delivered_of_guarded (hg : w₀.Guarded k m) (hkeeps : ∀ act ∈ acts, act.Keeps)
    (hrequest : ∀ cursor, .request k cursor ∈ acts →
      (cursorBoundary cursor w₀.uidValidity).isSome)
    (hbarred : ∀ v ∈ Run.visits (step cfg) w₀ acts,
      m ∈ v.inbox.msgs → Barred cfg.pipeline v.table m.data)
    (henter : Run.Meets (step cfg) (fun v act => v.Unwatched k → ∀ v', step cfg v act = some v' →
      m ∈ v'.inbox.msgs → m ∈ v.inbox.msgs) w₀ acts)
    (hrun : Run.run (step cfg) w₀ acts = some w) : w.Guarded k m := by
  let scope : Act → Prop := fun act => act.Keeps ∧
    ∀ cursor, act = .request k cursor → (cursorBoundary cursor w₀.uidValidity).isSome
  have hscope : ∀ act ∈ acts, scope act := fun act hact =>
    ⟨hkeeps act hact, fun cursor heq => hrequest cursor (heq ▸ hact)⟩
  have hscoped : Run.Meets (step cfg) (fun _ act => scope act) w₀ acts := Run.meets_of_mem hscope
  have hmeets := (hscoped.and (Run.meets_of_visits hbarred)).and henter
  refine (Run.run_invariant_of_meets
    (I := fun v => v.Guarded k m ∧ v.uidValidity = w₀.uidValidity) ?_ ⟨hg, rfl⟩ hmeets hrun).1
  rintro v act v' ⟨hv, huv⟩ ⟨⟨hact, hin⟩, hwatch⟩ hstep
  refine ⟨guarded_step hv hact.1 (fun cursor heq => ?_) hin.1 hstep
    (fun hun => hwatch hun v' hstep), ?_⟩
  · rw [huv]
    exact Option.isSome_iff_exists.1 (hact.2 cursor heq)
  · rw [(step_advances hact.1 hstep).uidValidity, huv]

omit [Runes]

/-- A letter from Rosa, who has been removed. -/
def late : Raw := Sample.delivered 1 "rosa@x"

/-- The sync lists an empty INBOX, the letter arrives, and the sync fetches it. -/
def lateRun : List Act :=
  [.request 0 (encodeCursor 1 0), Sample.syncOk, Sample.syncOk, Sample.passOk 0, Sample.passOk 0,
    .arrive late, Sample.syncOk, Sample.syncOk, Sample.syncOk, Sample.syncOk, Sample.syncOk]

/-- The letter arrives first, and the sync's reconciliation moves it to Held. -/
def earlyRun : List Act :=
  [.arrive late, .request 0 (encodeCursor 1 0), Sample.syncOk, Sample.syncOk, Sample.passOk 0,
    Sample.passOk 0, Sample.passOk 1, Sample.passOk 0, Sample.syncOk, Sample.syncOk, Sample.syncOk,
    Sample.syncOk]

/-- Whether some response carries the message. -/
def World.delivers (m : Raw) (w : World) : Bool :=
  w.log.any fun n => match n with
    | .responded _ r => decide (m ∈ r.sources)
    | _ => false

lemma World.exists_of_delivers {w : World} (h : w.delivers m = true) :
    ∃ k r, .responded k r ∈ w.log ∧ m ∈ r.sources := by
  obtain ⟨n, hn, hm⟩ := List.any_eq_true.1 h
  cases n with
  | responded k r => exact ⟨k, r, hn, of_decide_eq_true hm⟩
  | _ => cases hm

/-- Rosa is barred, if the table says she is inactive. -/
lemma senderBarred_rosa {t : Table} {m : Raw}
    (hfrom : Sample.pipeline.envelopeFrom m.data = some "rosa@x")
    (h : ((@Table.resolve Sample.runes t "rosa@x").all fun c => !c.active) = true) :
    @SenderBarred Sample.runes Sample.pipeline t m.data := by
  intro addr haddr contact hres
  obtain rfl := Option.some.inj (hfrom.symm.trans haddr)
  simpa [hres] using h

/-- Whether a step taken while sync `0` is in progress brings nothing into INBOX. -/
def bringsNothing (v : World) (act : Act) : Bool :=
  (v.syncs 0).isNone && v.pass.isNone ||
    (@step Sample.runes Sample.config v act).all fun v' =>
      v'.inbox.msgs.all fun x => decide (x ∈ v.inbox.msgs)

lemma watched_of_bringsNothing {v : World} {act : Act} (h : bringsNothing v act = true) :
    @Watched Sample.runes Sample.config 0 v act := by
  intro hun v' hstep x hx hnew
  rcases Bool.or_eq_true_iff.1 h with h | h
  · simp only [Bool.and_eq_true, Option.isNone_iff_eq_none] at h
    simp [World.Unwatched, h.1, h.2] at hun
  · rw [hstep] at h
    have hold := List.all_eq_true.1 h x hx
    exact absurd (of_decide_eq_true hold) hnew

end Chaskiwasi
