import Chaskiwasi.Server.Gate

/-!
# What a response covered stays in INBOX

What the device was given is history: a letter it received, and anything at or below a cursor it
was handed, should never go to Held afterwards, whatever becomes of the sender.  Reconciliation
tells history from mail that is still to be delivered by the cursor of the sync that called it, and
by that alone.  A device that reads its window again goes back: the second round of its resync
carries a concrete cursor, below what it had before, and the letters of a removed contact in
between are moved away.

`World.Covered` is what the responses so far covered, and `Spares` what a step must not do for the
history to be kept.  Most of it is about `Sweeps`, the two branches that move a known sender's
message.  That nothing a response covered is a stranger's (`World.Settled`) needs no such
condition: a sync reconciles before it fetches, so it can pass over a stranger's message only if
that arrived in between.
-/

namespace Chaskiwasi

/-! ## History -/

/-- The message is behind a letter of the response, or lies at or below its cursor. -/
def Response.Covers (r : Response) (uidValidity : UID) (m : Raw) : Prop :=
  m ∈ r.sources ∨ r.uidValidity = uidValidity ∧ m.uid ≤ r.lastUID

instance (r : Response) (uidValidity : UID) (m : Raw) : Decidable (r.Covers uidValidity m) :=
  inferInstanceAs (Decidable (_ ∨ _))

namespace World

/-- An earlier response covers the message. -/
def Covered (w : World) (m : Raw) : Prop :=
  ∃ k r, .responded k r ∈ w.log ∧ r.Covers w.uidValidity m

/-- No message went to Held after a response had covered it. -/
def HistoryKept (w : World) : Prop :=
  ∀ newer n older m, w.log = newer ++ n :: older → n = .held m ∨ n = .quarantined m →
    ∀ k r, .responded k r ∈ older → ¬ r.Covers w.uidValidity m

variable {w w' : World}

lemma HistoryKept.of_eq (h : w.HistoryKept) (huv : w'.uidValidity = w.uidValidity)
    (hlog : w'.log = w.log) : w'.HistoryKept := by
  unfold HistoryKept
  rw [huv, hlog]
  exact h

lemma HistoryKept.cons {n : Note} (h : w.HistoryKept) (huv : w'.uidValidity = w.uidValidity)
    (hlog : w'.log = n :: w.log) (hn : ∀ m, n = .held m ∨ n = .quarantined m → ¬ w.Covered m) :
    w'.HistoryKept := by
  intro newer n' older m heq hmoved k r hr
  rw [huv]
  rw [hlog] at heq
  rcases List.cons_eq_append_iff.1 heq with ⟨rfl, hcons⟩ | ⟨rest, rfl, hrest⟩
  · obtain ⟨rfl, rfl⟩ := List.cons.inj hcons
    exact fun hcovers => hn m hmoved ⟨k, r, hr, hcovers⟩
  · exact h rest n' older m hrest hmoved k r hr

lemma HistoryKept.finish (h : w.HistoryKept) (caller : Caller) (ok : Bool) :
    (w.finish caller ok).HistoryKept := by
  cases caller with
  | job j => exact h.cons (n := .returned j ok) rfl rfl (by simp)
  | sync k => exact h.of_eq rfl rfl

end World

/-- What happens at the server while nothing is released and INBOX keeps its UIDVALIDITY: syncs,
arrivals, passes of `HandleNotify` and `Reconcile`, and changes of the contact table. -/
def Act.Inbound : Act → Prop
  | .renumber .. => False
  | .call (.release ..) => False
  | _ => True

instance : DecidablePred Act.Inbound := fun act =>
  match act with
  | .renumber .. | .call (.release ..) => isFalse id
  | .arrive _ | .intoHeld _ | .mutate .. | .call .reconcile | .call .handleNotify | .pass ..
  | .request .. | .sync .. => isTrue trivial

lemma Act.Inbound.keeps {act : Act} (h : act.Inbound) : act.Keeps := by
  cases act with
  | renumber uidValidity inbox => exact h
  | _ => trivial

/-! ## What a step must not do -/

/-- The message a pass is about to move. -/
def Pass.hand : Pass → Option Raw
  | .quarantine _ raw _ _ => some raw
  | .hold raw _ _ => some raw
  | _ => none

/-- The messages a pass has yet to decide about, or to move. -/
def Pass.raws : Pass → List Raw
  | .sweep _ rest _ => rest
  | .quarantine _ raw rest _ => raw :: rest
  | .file rest _ => rest
  | .hold raw rest _ => raw :: rest
  | _ => []

lemma Pass.mem_raws_of_hand {pc : Pass} {raw : Raw} (h : pc.hand = some raw) :
    raw ∈ pc.raws := by
  cases pc with
  | quarantine bound x rest maxUID =>
      obtain rfl := Option.some.inj h
      exact List.mem_cons_self ..
  | hold x rest full =>
      obtain rfl := Option.some.inj h
      exact List.mem_cons_self ..
  | _ => cases h

/-- A sync has reconciled and has not fetched yet. -/
def Sync.Between : Sync → Prop
  | .assemble _ => True
  | .fetching .. => True
  | _ => False

lemma World.unwatched_of_between {w : World} {k : ℕ} {pc : Sync} (hk : w.syncs k = some pc)
    (h : pc.Between) : w.Unwatched k := by
  cases pc with
  | assemble cursor => exact Or.inr (Or.inr (Or.inl ⟨cursor, hk⟩))
  | fetching uidValidity boundary => exact Or.inr (Or.inr (Or.inr ⟨uidValidity, boundary, hk⟩))
  | _ => exact h.elim

/-- A place of a pass that is no release. -/
def Pass.Inbound : Pass → Prop
  | .findHeld .. => False
  | .check .. => False
  | .change .. => False
  | .unhold _ => False
  | _ => True

variable [Runes]

/-- As filing reads it, the sender is in the contact table. -/
def Resolves (P : Pipeline) (t : Table) (data : List UInt8) : Prop :=
  ∃ sender, P.headerFrom data = some sender ∧ (t.resolve sender).isSome

/-- As filing reads it, the sender is a removed contact. -/
def Removed (P : Pipeline) (t : Table) (data : List UInt8) : Prop :=
  ∃ sender contact, P.headerFrom data = some sender ∧ t.resolve sender = some contact ∧
    contact.active = false

/-- The pass examines a message that a response covered, and is about to take it for one that is
still to be delivered: reconciliation, because its sender was removed and it lies above the
delivery boundary, or the arrival path, because its sender is not active. -/
def Sweeps (cfg : Config) (w : World) : Pass → Prop
  | .sweep (some deliveredUID) (raw :: _) _ =>
      w.Covered raw ∧ Removed cfg.pipeline w.table raw.data ∧ deliveredUID < raw.uid
  | .file (raw :: _) _ => w.Covered raw ∧ activeSender cfg.pipeline w.table raw = none
  | _ => False

/-- INBOX has assigned every UID up to the one a cursor names. -/
def World.Reached (w : World) (cursor : String) : Prop :=
  ∀ uid, cursorBoundary cursor w.uidValidity = some uid → uid ≤ w.inbox.last

/-- What keeps the history: a request carries a cursor that INBOX has reached; no stranger's message
arrives between the listing and the fetch of a sync; no pass takes a message that was covered for
one still to be delivered; and no response covers the message that a pass is about to move. -/
def Spares (cfg : Config) (w : World) : Act → Prop
  | .request _ cursor => w.Reached cursor
  | .arrive raw => (∃ k, w.Unwatched k) → Resolves cfg.pipeline w.table raw.data
  | .pass .. => ∀ running ∈ w.pass, ¬ Sweeps cfg w running.pc
  | .sync k .. => ∀ uidValidity asm sources more,
      w.syncs k = some (.committing uidValidity asm sources more) →
      ∀ running ∈ w.pass, ∀ raw, running.pc.hand = some raw →
        ¬ (Response.mk uidValidity asm.lastUID asm.letters more sources).Covers w.uidValidity raw
  | _ => True

variable {cfg : Config} {P : Pipeline} {t t' : Table} {raw : Raw}

lemma Resolves.grows {data : List UInt8} (h : Resolves P t data) (hgrows : t.Grows t') :
    Resolves P t' data := by
  obtain ⟨sender, hfrom, hres⟩ := h
  exact ⟨sender, hfrom, hgrows.resolve hres⟩

/-- What reconciliation leaves alone has a sender the table knows. -/
lemma resolves_of_left {bound : Option UID} (h : quarantines P t bound raw = false) :
    Resolves P t raw.data := by
  unfold quarantines at h
  cases hfrom : P.headerFrom raw.data with
  | none => simp [hfrom] at h
  | some sender =>
      refine ⟨sender, hfrom, ?_⟩
      cases hres : t.resolve sender with
      | none => simp [hfrom, hres] at h
      | some contact => rfl

/-- What reconciliation moves, of the senders the table knows, is a removed contact's, and above
the delivery boundary. -/
lemma removed_of_quarantines {bound : Option UID} (h : quarantines P t bound raw = true)
    (hres : Resolves P t raw.data) :
    ∃ deliveredUID, bound = some deliveredUID ∧ Removed P t raw.data ∧ deliveredUID < raw.uid := by
  obtain ⟨sender, hfrom, hsome⟩ := hres
  obtain ⟨contact, hcontact⟩ := Option.isSome_iff_exists.1 hsome
  unfold quarantines at h
  simp only [hfrom, hcontact] at h
  cases bound with
  | none => cases h
  | some deliveredUID =>
      simp only [Bool.and_eq_true, Bool.not_eq_true', decide_eq_true_eq] at h
      exact ⟨deliveredUID, rfl, ⟨sender, contact, hfrom, hcontact, h.1⟩, h.2⟩

/-! ## The invariant -/

namespace World

/-- INBOX holds no stranger's message up to a UID, and none will come. -/
structure Settled (cfg : Config) (w : World) (uid : UID) : Prop where
  last : uid ≤ w.inbox.last
  resolves : ∀ m ∈ w.inbox.msgs, m.uid ≤ uid → Resolves cfg.pipeline w.table m.data

/-- INBOX holds no stranger's message. -/
def Clean (cfg : Config) (w : World) : Prop :=
  ∀ m ∈ w.inbox.msgs, Resolves cfg.pipeline w.table m.data

/-- What INBOX holds under the message's UID, if anything, is the message. -/
structure Names (w : World) (raw : Raw) : Prop where
  last : raw.uid ≤ w.inbox.last
  unique : ∀ m ∈ w.inbox.msgs, m.uid = raw.uid → m = raw

/-- What holds of a sync, at each of its places. -/
def Serves (cfg : Config) (w : World) : Sync → Prop
  | .start cursor => w.Reached cursor
  | .waiting cursor _ => w.Reached cursor
  | .reconciling cursor => w.Reached cursor
  | .assemble cursor => w.Reached cursor ∧ w.Clean cfg
  | .fetching _ boundary => (∀ uid, boundary = some uid → uid ≤ w.inbox.last) ∧ w.Clean cfg
  | .deriving_ _ asm sources rest _ =>
      w.Settled cfg asm.lastUID ∧ (∀ x ∈ sources, w.Settled cfg x.uid) ∧
        ∀ x ∈ rest, w.Settled cfg x.uid
  | .committing _ asm sources _ =>
      w.Settled cfg asm.lastUID ∧ ∀ x ∈ sources, w.Settled cfg x.uid

/-- A reconciliation has yet to examine whatever a stranger has in INBOX. -/
def Cleans (cfg : Config) (w : World) : Pass → Prop
  | .list _ => True
  | .sweep _ rest _ =>
      ∀ m ∈ w.inbox.msgs, m ∈ rest ∨ Resolves cfg.pipeline w.table m.data
  | .quarantine _ raw rest _ =>
      ∀ m ∈ w.inbox.msgs, m ∈ raw :: rest ∨ Resolves cfg.pipeline w.table m.data
  | _ => False

/-- What holds of the pass that holds the mutex. -/
structure Passes (cfg : Config) (w : World) (caller : Caller) (pc : Pass) : Prop where
  inbound : pc.Inbound
  names : ∀ x ∈ pc.raws, w.Names x
  cleans : ∀ k, caller = .sync k → w.Cleans cfg pc
  hand : ∀ x, pc.hand = some x → x ∈ w.inbox.msgs → ¬ w.Covered x

structure Unswept (cfg : Config) (w : World) : Prop where
  addressed : w.table.Addressed
  syncs : ∀ k pc, w.syncs k = some pc → w.Serves cfg pc
  pass : ∀ caller pc, w.pass = some ⟨caller, pc⟩ → w.Passes cfg caller pc
  log : ∀ k r, .responded k r ∈ w.log →
    w.Settled cfg r.lastUID ∧ ∀ x ∈ r.sources, w.Settled cfg x.uid
  kept : w.HistoryKept

variable {w w' : World} {uid : UID}

/-! ### What only grows -/

lemma Settled.mono (h : w.Settled cfg uid) (hadv : w.Advances w')
    (hgrows : w.table.Grows w'.table) : w'.Settled cfg uid where
  last := le_trans h.last hadv.last
  resolves := by
    intro m hm huid
    rcases hadv.inbox m hm with hold | hnew
    · exact (h.resolves m hold huid).grows hgrows
    · exact absurd hnew (not_lt.2 (le_trans huid h.last))

lemma Clean.settled (h : w.Clean cfg) (hlast : uid ≤ w.inbox.last) : w.Settled cfg uid :=
  ⟨hlast, fun m hm _ => h m hm⟩

lemma Clean.mono (h : w.Clean cfg) (hgrows : w.table.Grows w'.table)
    (henters : ∀ m ∈ w'.inbox.msgs,
      m ∈ w.inbox.msgs ∨ Resolves cfg.pipeline w'.table m.data) : w'.Clean cfg := by
  intro m hm
  rcases henters m hm with hold | hnew
  · exact (h m hold).grows hgrows
  · exact hnew

lemma Names.mono {x : Raw} (h : w.Names x) (hadv : w.Advances w') : w'.Names x where
  last := le_trans h.last hadv.last
  unique := by
    intro m hm huid
    rcases hadv.inbox m hm with hold | hnew
    · exact h.unique m hold huid
    · exact absurd hnew (not_lt.2 (huid ▸ h.last))

omit [Runes] in
/-- A message of INBOX is the one its UID names, now and later. -/
lemma names_of_mem {x : Raw} (hx : x ∈ w.inbox.msgs) : w.Names x where
  last := w.inbox.le_last x hx
  unique := fun _ hm huid => w.inbox.eq_of_uid_eq hm hx huid

omit [Runes] in
lemma Reached.mono {cursor : String} (h : w.Reached cursor)
    (huv : w'.uidValidity = w.uidValidity) (hlast : w.inbox.last ≤ w'.inbox.last) :
    w'.Reached cursor := by
  intro uid hb
  rw [huv] at hb
  exact le_trans (h uid hb) hlast

/-- A sync that a step leaves where it is. -/
lemma Serves.mono {pc : Sync} (h : w.Serves cfg pc) (hadv : w.Advances w')
    (hgrows : w.table.Grows w'.table) (henters : pc.Between → ∀ m ∈ w'.inbox.msgs,
      m ∈ w.inbox.msgs ∨ Resolves cfg.pipeline w'.table m.data) : w'.Serves cfg pc := by
  cases pc with
  | start cursor => exact Reached.mono h hadv.uidValidity hadv.last
  | waiting cursor bound => exact Reached.mono h hadv.uidValidity hadv.last
  | reconciling cursor => exact Reached.mono h hadv.uidValidity hadv.last
  | assemble cursor =>
      exact ⟨h.1.mono hadv.uidValidity hadv.last, h.2.mono hgrows (henters trivial)⟩
  | fetching uidValidity boundary =>
      exact ⟨fun uid hb => le_trans (h.1 uid hb) hadv.last, h.2.mono hgrows (henters trivial)⟩
  | deriving_ uidValidity asm sources rest capped =>
      exact ⟨h.1.mono hadv hgrows, fun x hx => (h.2.1 x hx).mono hadv hgrows,
        fun x hx => (h.2.2 x hx).mono hadv hgrows⟩
  | committing uidValidity asm sources more =>
      exact ⟨h.1.mono hadv hgrows, fun x hx => (h.2 x hx).mono hadv hgrows⟩

/-- A pass that a step leaves where it is. -/
lemma Passes.mono {caller : Caller} {pc : Pass} (h : w.Passes cfg caller pc)
    (hpass : w.pass = some ⟨caller, pc⟩) (hadv : w.Advances w')
    (hgrows : w.table.Grows w'.table)
    (henters : ∀ k, w.Unwatched k → ∀ m ∈ w'.inbox.msgs,
      m ∈ w.inbox.msgs ∨ Resolves cfg.pipeline w'.table m.data)
    (hcovered : ∀ x, pc.hand = some x → w'.Covered x → w.Covered x) :
    w'.Passes cfg caller pc where
  inbound := h.inbound
  names := fun x hx => (h.names x hx).mono hadv
  cleans := by
    rintro k rfl
    have hcleans := h.cleans k rfl
    cases pc with
    | list bound => trivial
    | sweep bound rest maxUID =>
        intro m hm
        rcases henters k (Or.inl ⟨bound, rest, maxUID, hpass⟩) m hm with hold | hnew
        · exact (hcleans m hold).imp_right fun hres => hres.grows hgrows
        · exact Or.inr hnew
    | quarantine bound raw rest maxUID =>
        intro m hm
        rcases henters k (Or.inr (Or.inl ⟨bound, raw, rest, maxUID, hpass⟩)) m hm with hold | hnew
        · exact (hcleans m hold).imp_right fun hres => hres.grows hgrows
        · exact Or.inr hnew
    | _ => exact hcleans.elim
  hand := by
    intro x hx hin hcov
    have hnames := h.names x (Pass.mem_raws_of_hand hx)
    rcases hadv.inbox x hin with hold | hnew
    · exact h.hand x hx hold (hcovered x hx hcov)
    · exact absurd hnew (not_lt.2 hnames.last)

/-- What is in INBOX and covered is no stranger's. -/
lemma Unswept.resolves_of_covered (h : w.Unswept cfg) {x : Raw} (hx : x ∈ w.inbox.msgs)
    (hcovered : w.Covered x) : Resolves cfg.pipeline w.table x.data := by
  obtain ⟨k, r, hr, hcovers⟩ := hcovered
  obtain ⟨hlast, hsources⟩ := h.log k r hr
  rcases hcovers with hmem | ⟨-, hle⟩
  · exact (hsources x hmem).resolves x hx (le_refl _)
  · exact hlast.resolves x hx hle

omit [Runes] in
/-- A move of a message that was not covered. -/
lemma HistoryKept.moveOut {v : World} {note : Raw → Note} {reply : Reply} {fresh : UID}
    {raw : Raw} (h : w.HistoryKept) (hv : w.moveOut raw.uid note reply fresh = some v)
    (hnote : note = .held ∨ note = .quarantined) (hnames : w.Names raw)
    (hraw : raw ∈ w.inbox.msgs → ¬ w.Covered raw) : v.HistoryKept := by
  rcases moveOut_cases hv with ⟨rfl, -⟩ | ⟨held, rfl, -⟩ | ⟨m, hm, huid, held, rfl⟩
  · exact h
  · exact h.of_eq rfl rfl
  · obtain rfl := hnames.unique m hm huid
    refine h.cons (n := note m) rfl rfl fun m' hmoved => ?_
    have heq : m' = m := by
      rcases hnote with rfl | rfl <;> rcases hmoved with hmoved | hmoved <;>
        simp_all
    rw [heq]
    exact hraw hm

end World

/-! ## One step of a pass -/

variable {w w' : World} {caller : Caller} {pc : Pass}

/-- A pass that is no release lets nothing into INBOX. -/
lemma PassStep.mem_of_mem (hin : pc.Inbound) (h : PassStep cfg w caller pc w') :
    ∀ m ∈ w'.inbox.msgs, m ∈ w.inbox.msgs := by
  have moved : ∀ {v : World} {uid fresh : UID} {note : Raw → Note} {reply : Reply},
      w.moveOut uid note reply fresh = some v → ∀ m ∈ v.inbox.msgs, m ∈ w.inbox.msgs := by
    intro v uid fresh note reply hv m hm
    rcases World.moveOut_cases hv with ⟨rfl, -⟩ | ⟨held, rfl, -⟩ | ⟨x, -, -, held, rfl⟩
    · exact hm
    · exact hm
    · exact (Folder.mem_remove.1 hm).1
  intro m hm
  cases h with
  | aborted | swept | filed => simpa using hm
  | listed | suspected | left | fetched | refetch | kept | refused => exact hm
  | quarantined bound raw rest maxUID fresh v hv => exact moved hv m hm
  | quarantineFailed bound raw rest maxUID fresh reply v hv => exact moved hv m (by simpa using hm)
  | held raw rest full fresh v hv => exact moved hv m hm
  | holdFailed raw rest full fresh reply v hv => exact moved hv m (by simpa using hm)
  | _ => exact hin.elim

/-- What a pass leaves of the history. -/
lemma PassStep.historyKept (hpc : w.Passes cfg caller pc) (hkept : w.HistoryKept)
    (h : PassStep cfg w caller pc w') : w'.HistoryKept := by
  have note : ∀ {n : Note}, (∀ m, n ≠ .held m ∧ n ≠ .quarantined m) → (w.note n).HistoryKept := by
    intro n hn
    exact hkept.cons rfl rfl fun m hm => absurd hm (by simp [hn m])
  have moved : ∀ {v : World} {raw : Raw} {fresh : UID} {note : Raw → Note} {reply : Reply},
      w.moveOut raw.uid note reply fresh = some v → note = .held ∨ note = .quarantined →
      pc.hand = some raw → v.HistoryKept := by
    intro v raw fresh note reply hv hnote hhand
    exact hkept.moveOut hv hnote (hpc.names raw (Pass.mem_raws_of_hand hhand))
      (hpc.hand raw hhand)
  cases h with
  | aborted => exact hkept.finish caller false
  | swept bound maxUID =>
      have hraised : (w.raise maxUID).HistoryKept := hkept.of_eq rfl rfl
      exact hraised.finish caller true
  | filed => exact hkept.finish caller true
  | listed | suspected | refetch | refused => exact hkept.of_eq rfl rfl
  | left bound raw rest maxUID hq => exact (note (n := .left raw) (by simp)).of_eq rfl rfl
  | fetched => exact (note (n := .fetched) (by simp)).of_eq rfl rfl
  | kept raw rest full contact hsender =>
      exact (note (n := .kept raw contact.id) (by simp)).of_eq rfl rfl
  | quarantined bound raw rest maxUID fresh v hv => exact (moved hv (Or.inr rfl) rfl).of_eq rfl rfl
  | quarantineFailed bound raw rest maxUID fresh reply v hv =>
      exact (moved hv (Or.inr rfl) rfl).finish caller false
  | held raw rest full fresh v hv => exact (moved hv (Or.inl rfl) rfl).of_eq rfl rfl
  | holdFailed raw rest full fresh reply v hv =>
      exact (moved hv (Or.inl rfl) rfl).finish caller false
  | _ => exact hpc.inbound.elim

/-- The pass goes on to a place where it is as it should be. -/
lemma PassStep.passes (hw : w.Unswept cfg) (hpc : w.Passes cfg caller pc)
    (hspares : ¬ Sweeps cfg w pc) (h : PassStep cfg w caller pc w') :
    ∀ caller' pc', w'.pass = some ⟨caller', pc'⟩ → w'.Passes cfg caller' pc' := by
  have goes : ∀ {v : World} {next : Pass}, w.Advances v → next.Inbound →
      (∀ x ∈ next.raws, x ∈ pc.raws ∨ x ∈ v.inbox.msgs) →
      (∀ k, caller = .sync k → v.Cleans cfg next) →
      (∀ x, next.hand = some x → x ∈ v.inbox.msgs → ¬ v.Covered x) →
      ∀ caller' pc', (v.goto caller next).pass = some ⟨caller', pc'⟩ →
        (v.goto caller next).Passes cfg caller' pc' := by
    intro v next hadv hin hraws hcleans hhand caller' pc' heq
    obtain ⟨rfl, rfl⟩ := Running.mk.inj (Option.some.inj heq)
    refine ⟨hin, fun x hx => ?_, fun k hk => ?_, hhand⟩
    · rcases hraws x hx with hold | hmem
      · exact ((hpc.names x hold).mono hadv).mono (.of_frame rfl rfl rfl rfl)
      · exact World.names_of_mem hmem
    · have hv := hcleans k hk
      cases next <;> exact hv
  have unmoved : w.Advances w := .refl w
  -- The arrival path is not called by a sync.
  have unsynced : (∀ v : World, ¬ v.Cleans cfg pc) → ∀ k, caller ≠ .sync k :=
    fun hnot k hk => hnot w (hpc.cleans k hk)
  cases h with
  | aborted | swept | filed | quarantineFailed | holdFailed => simp
  | listed bound =>
      exact goes unmoved trivial (fun x hx => Or.inr hx) (fun k _ m hm => Or.inl hm)
        (by simp [Pass.hand])
  | suspected bound raw rest maxUID hq =>
      refine goes unmoved trivial (fun x hx => Or.inl hx) (fun k hk => hpc.cleans k hk) ?_
      intro x hx hin hcovered
      obtain rfl := Option.some.inj hx
      obtain ⟨deliveredUID, rfl, hremoved, habove⟩ :=
        removed_of_quarantines hq (hw.resolves_of_covered hin hcovered)
      exact hspares ⟨hcovered, hremoved, habove⟩
  | left bound raw rest maxUID hq =>
      refine goes (v := w.note (.left raw)) (.of_frame rfl rfl rfl rfl) trivial
        (fun x hx => Or.inl (List.mem_cons_of_mem _ hx)) (fun k hk m hm => ?_) (by simp [Pass.hand])
      rcases hpc.cleans k hk m hm with hmem | hres
      · rcases List.mem_cons.1 hmem with rfl | hmem
        · exact Or.inr (resolves_of_left hq)
        · exact Or.inl hmem
      · exact Or.inr hres
  | quarantined bound raw rest maxUID fresh v hv =>
      have hadv := World.moveOut_advances hv
      refine goes hadv.1 trivial (fun x hx => Or.inl (List.mem_cons_of_mem _ hx))
        (fun k hk m hm => ?_) (by simp [Pass.hand])
      obtain ⟨hold, hne⟩ := World.ne_of_moveOut_ok hv hm
      rcases hpc.cleans k hk m hold with hmem | hres
      · exact Or.inl ((List.mem_cons.1 hmem).resolve_left fun heq => hne (congrArg Raw.uid heq))
      · exact Or.inr (by rw [hadv.2.2.1]; exact hres)
  | fetched raws hraws =>
      subst hraws
      refine goes (v := w.note .fetched) (.of_frame rfl rfl rfl rfl) trivial
        (fun x hx => Or.inr (Folder.mem_of_mem_fetchAbove hx).1) (fun k hk => ?_)
        (by simp [Pass.hand])
      exact absurd hk (unsynced (fun _ h => h) k)
  | refetch =>
      refine goes unmoved trivial (by simp [Pass.raws]) (fun k hk => ?_) (by simp [Pass.hand])
      exact absurd hk (unsynced (fun _ h => h) k)
  | kept raw rest full contact hsender =>
      have hadv : w.Advances ((w.note (.kept raw contact.id)).raise raw.uid) :=
        unmoved.of_inbox_eq rfl rfl (by simp) rfl
      refine goes hadv trivial (fun x hx => Or.inl (List.mem_cons_of_mem _ hx)) (fun k hk => ?_)
        (by simp [Pass.hand])
      exact absurd hk (unsynced (fun _ h => h) k)
  | refused raw rest full hsender =>
      refine goes unmoved trivial (fun x hx => Or.inl hx) (fun k hk => ?_) ?_
      · exact absurd hk (unsynced (fun _ h => h) k)
      · intro x hx _ hcovered
        obtain rfl := Option.some.inj hx
        exact hspares ⟨hcovered, hsender⟩
  | held raw rest full fresh v hv =>
      have hadv : w.Advances (v.raise raw.uid) :=
        (World.moveOut_advances hv).1.of_inbox_eq rfl rfl (by simp) rfl
      refine goes hadv trivial (fun x hx => Or.inl (List.mem_cons_of_mem _ hx)) (fun k hk => ?_)
        (by simp [Pass.hand])
      exact absurd hk (unsynced (fun _ h => h) k)
  | _ => exact hpc.inbound.elim

/-- A reconciliation that a sync called lets it go on when nothing is left to examine. -/
lemma PassStep.clean_of_assemble {k : ℕ} {cursor : String} (hpc : w.Passes cfg (.sync k) pc)
    (h : PassStep cfg w (.sync k) pc w') (hold : w.syncs k = some (.reconciling cursor))
    (hnew : w'.syncs k = some (.assemble cursor)) : w'.Clean cfg := by
  have stays : ∀ {v : World}, v.syncs = w.syncs → v.syncs k ≠ some (.assemble cursor) := by
    intro v hv heq
    rw [hv, hold] at heq
    cases heq
  have ended : ∀ {v : World}, (v.finish (.sync k) false).syncs k ≠ some (.assemble cursor) := by
    intro v heq
    simp [World.finish] at heq
  have hcleans := hpc.cleans k rfl
  cases h with
  | aborted => exact absurd hnew ended
  | quarantineFailed => exact absurd hnew ended
  | holdFailed => exact absurd hnew ended
  | swept bound maxUID =>
      intro m hm
      exact (hcleans m hm).resolve_left List.not_mem_nil
  | listed bound => exact absurd hnew (stays rfl)
  | suspected => exact absurd hnew (stays rfl)
  | left => exact absurd hnew (stays rfl)
  | quarantined bound raw rest maxUID fresh v hv =>
      exact absurd hnew (stays (World.moveOut_advances hv).2.2.2.1)
  | fetched | refetch | filed | kept | refused | held => exact hcleans.elim
  | _ => exact hpc.inbound.elim

/-- What holds of the syncs after a step of the pass: the one that called it goes on once its
reconciliation is through. -/
lemma PassStep.serves (hw : w.Unswept cfg) (hpass : w.pass = some ⟨caller, pc⟩)
    (h : PassStep cfg w caller pc w') (j : ℕ) (s : Sync) (hs : w'.syncs j = some s) :
    w'.Serves cfg s := by
  have hpc := hw.pass caller pc hpass
  have hadv := h.advances
  have hgrows := (hadv.table hw.addressed).1
  have henters : ∀ m ∈ w'.inbox.msgs,
      m ∈ w.inbox.msgs ∨ Resolves cfg.pipeline w'.table m.data :=
    fun m hm => Or.inl (h.mem_of_mem hpc.inbound m hm)
  rcases h.syncs_cases j with heq | ⟨rfl, -, hnone | hrec⟩
  · have hold : w.syncs j = some s := heq.symm.trans hs
    exact (hw.syncs j s hold).mono hadv hgrows fun _ => henters
  · rw [hnone] at hs
    cases hs
  · cases hsync : w.syncs j with
    | none => simp [hrec, hsync, World.reconciled] at hs
    | some s₀ =>
        rw [hrec, hsync] at hs
        cases s₀ with
        | reconciling cursor =>
            obtain rfl : Sync.assemble cursor = s := Option.some.inj hs
            have hreached := (hw.syncs j _ hsync).mono hadv hgrows fun _ => henters
            exact ⟨hreached, h.clean_of_assemble hpc hsync (by rw [hrec, hsync]; rfl)⟩
        | _ => cases hs

/-- **One step of the pass keeps the history**, where it takes nothing covered for undelivered. -/
lemma PassStep.unswept (hw : w.Unswept cfg) (hpass : w.pass = some ⟨caller, pc⟩)
    (hspares : ¬ Sweeps cfg w pc) (h : PassStep cfg w caller pc w') : w'.Unswept cfg := by
  have hpc := hw.pass caller pc hpass
  have hadv := h.advances
  obtain ⟨hgrows, haddressed⟩ := hadv.table hw.addressed
  refine ⟨haddressed, h.serves hw hpass, h.passes hw hpc hspares, fun k r hr => ?_,
    h.historyKept hpc hw.kept⟩
  obtain ⟨hlast, hsources⟩ := hw.log k r (h.responded_mem hr)
  exact ⟨hlast.mono hadv hgrows, fun x hx => (hsources x hx).mono hadv hgrows⟩

/-! ## One step of a sync -/

/-- Where a sync goes, what it has passed over is settled. -/
lemma SyncStep.serves_next {k : ℕ} {pc : Sync} (hold : w.Serves cfg pc)
    (h : SyncStep cfg w k pc w') (s : Sync) (hs : w'.syncs k = some s) : w.Serves cfg s := by
  have next : ∀ {v : World} {s' : Sync}, (v.setSync k (some s')).syncs k = some s → s' = s := by
    intro v s' heq
    simpa using heq
  cases h with
  | failed => simp at hs
  | started cursor =>
      obtain rfl := next hs
      exact hold
  | called cursor bound hfree =>
      obtain rfl := next hs
      exact hold
  | assembling cursor =>
      obtain rfl := next hs
      exact hold
  | fetched uidValidity boundary budget =>
      obtain rfl := next hs
      obtain ⟨hreached, hclean⟩ := hold
      have hfetched : ∀ x ∈ (fetchFrom w.inbox cfg.resyncWindow boundary).1, x ∈ w.inbox.msgs := by
        intro x hx
        cases boundary with
        | none => exact Folder.mem_of_mem_recent hx
        | some uid => exact (Folder.mem_of_mem_fetchAbove hx).1
      refine ⟨hclean.settled ?_, by simp, fun x hx => ?_⟩
      · cases boundary with
        | none => exact Fin.zero_le _
        | some uid => exact hreached uid rfl
      · exact hclean.settled (w.inbox.le_last x (hfetched x hx))
  | through uidValidity asm sources capped =>
      obtain rfl := next hs
      exact ⟨hold.1, hold.2.1⟩
  | skipped uidValidity asm sources raw rest capped =>
      obtain rfl := next hs
      exact ⟨hold.2.2 raw (List.mem_cons_self ..), hold.2.1,
        fun x hx => hold.2.2 x (List.mem_cons_of_mem _ hx)⟩
  | derived uidValidity asm sources raw rest capped letter budget hderive =>
      obtain rfl := next hs
      refine ⟨hold.2.2 raw (List.mem_cons_self ..), fun x hx => ?_,
        fun x hx => hold.2.2 x (List.mem_cons_of_mem _ hx)⟩
      rcases List.mem_append.1 hx with hx | hx
      · exact hold.2.1 x hx
      · obtain rfl := List.mem_singleton.1 hx
        exact hold.2.2 x (List.mem_cons_self ..)
  | stopped uidValidity asm sources raw rest capped =>
      obtain rfl := next hs
      exact ⟨hold.1, hold.2.1⟩
  | responded uidValidity asm sources more => simp at hs

/-- A step that answers nothing and moves nothing out of INBOX. -/
lemma World.Unswept.frame (hw : w.Unswept cfg) (hadv : w.Advances w')
    (henters : (∃ k, w.Unwatched k) → ∀ m ∈ w'.inbox.msgs,
      m ∈ w.inbox.msgs ∨ Resolves cfg.pipeline w'.table m.data)
    (hsyncs : ∀ k s, w'.syncs k = some s → w.syncs k = some s ∨ w'.Serves cfg s)
    (hpass : ∀ caller pc, w'.pass = some ⟨caller, pc⟩ →
      w.pass = some ⟨caller, pc⟩ ∨ w'.Passes cfg caller pc)
    (hlog : ∀ k r, .responded k r ∈ w'.log → .responded k r ∈ w.log)
    (hkept : w'.HistoryKept) : w'.Unswept cfg := by
  obtain ⟨hgrows, haddressed⟩ := hadv.table hw.addressed
  refine ⟨haddressed, fun k s hs => ?_, fun caller pc heq => ?_, fun k r hr => ?_, hkept⟩
  · rcases hsyncs k s hs with hold | hnew
    · exact (hw.syncs k s hold).mono hadv hgrows
        fun hbetween => henters ⟨k, World.unwatched_of_between hold hbetween⟩
    · exact hnew
  · rcases hpass caller pc heq with hold | hnew
    · refine (hw.pass caller pc hold).mono hold hadv hgrows (fun k hk => henters ⟨k, hk⟩) ?_
      rintro x - ⟨k, r, hr, hcovers⟩
      rw [hadv.uidValidity] at hcovers
      exact ⟨k, r, hlog k r hr, hcovers⟩
    · exact hnew
  · obtain ⟨hlast, hsources⟩ := hw.log k r (hlog k r hr)
    exact ⟨hlast.mono hadv hgrows, fun x hx => (hsources x hx).mono hadv hgrows⟩

/-- **One step of a sync keeps the history**, where its response covers nothing that is about to
move. -/
lemma SyncStep.unswept {k : ℕ} {pc : Sync} (hw : w.Unswept cfg) (hk : w.syncs k = some pc)
    (hspares : ∀ uidValidity asm sources more, pc = .committing uidValidity asm sources more →
      ∀ running ∈ w.pass, ∀ raw, running.pc.hand = some raw →
        ¬ (Response.mk uidValidity asm.lastUID asm.letters more sources).Covers w.uidValidity raw)
    (h : SyncStep cfg w k pc w') : w'.Unswept cfg := by
  have hsame := h.sameMail
  have hadv : w.Advances w' :=
    .of_frame hsame.uidValidity hsame.inbox hsame.highWater hsame.table
  obtain ⟨hgrows, haddressed⟩ := hadv.table hw.addressed
  have henters : ∀ m ∈ w'.inbox.msgs, m ∈ w.inbox.msgs ∨
      Resolves cfg.pipeline w'.table m.data := by
    rw [hsame.inbox]
    exact fun m hm => Or.inl hm
  have hsyncs : ∀ j s, w'.syncs j = some s → w.syncs j = some s ∨ w'.Serves cfg s := by
    intro j s hs
    by_cases hj : j = k
    · subst hj
      exact Or.inr ((h.serves_next (hw.syncs j pc hk) s hs).mono hadv hgrows fun _ => henters)
    · exact Or.inl ((h.syncs_eq hj).symm.trans hs)
  cases h with
  | called cursor bound hfree =>
      refine hw.frame hadv (fun _ => henters) hsyncs (fun caller' pc' heq => Or.inr ?_)
        (fun _ _ hr => hr) (hw.kept.of_eq rfl rfl)
      obtain ⟨rfl, rfl⟩ := Running.mk.inj (Option.some.inj heq)
      exact ⟨trivial, by simp [Pass.raws], fun _ _ => trivial, by simp [Pass.hand]⟩
  | responded uidValidity asm sources more =>
      obtain ⟨hlast, hsources⟩ := hw.syncs k _ hk
      refine ⟨haddressed, fun j s hs => ?_, fun caller' pc' heq => ?_, fun j r hr => ?_,
        hw.kept.cons (n := .responded k _) rfl rfl (by simp)⟩
      · rcases hsyncs j s hs with hold | hnew
        · exact (hw.syncs j s hold).mono hadv hgrows fun _ => henters
        · exact hnew
      · refine (hw.pass caller' pc' heq).mono heq hadv hgrows (fun _ _ => henters) fun x hx => ?_
        rintro ⟨j, r, hr, hcovers⟩
        rcases List.mem_cons.1 hr with heq' | hr
        · obtain ⟨rfl, rfl⟩ := Note.responded.inj heq'
          exact absurd hcovers (hspares _ _ _ _ rfl _ heq x hx)
        · exact ⟨j, r, hr, hcovers⟩
      · rcases List.mem_cons.1 hr with heq | hr
        · obtain ⟨rfl, rfl⟩ := Note.responded.inj heq
          exact ⟨hlast.mono hadv hgrows, fun x hx => (hsources x hx).mono hadv hgrows⟩
        · obtain ⟨hlast', hsources'⟩ := hw.log j r hr
          exact ⟨hlast'.mono hadv hgrows, fun x hx => (hsources' x hx).mono hadv hgrows⟩
  | _ =>
      exact hw.frame hadv (fun _ => henters) hsyncs (fun _ _ heq => Or.inl heq)
        (fun _ _ hr => hr) (hw.kept.of_eq rfl rfl)

/-! ## Runs -/

/-- **The step lemma of the history.** -/
theorem unswept_step {act : Act} (hw : w.Unswept cfg) (hin : act.Inbound)
    (hspares : Spares cfg w act) (hstep : step cfg w act = some w') : w'.Unswept cfg := by
  have hadv := step_advances hin.keeps hstep
  cases worldStep_cases hstep with
  | arrived raw hfresh =>
      refine hw.frame hadv (fun hunwatched m hm => ?_) (fun _ _ hs => Or.inl hs)
        (fun _ _ heq => Or.inl heq) (by simp) ?_
      · rcases (Folder.mem_push (h := hfresh)).1 hm with hold | rfl
        · exact Or.inl hold
        · exact Or.inr (hspares hunwatched)
      · exact hw.kept.cons (n := .arrived raw) rfl rfl (by simp)
  | intoHeld | mutated =>
      exact hw.frame hadv (fun _ _ hm => Or.inl hm) (fun _ _ hs => Or.inl hs)
        (fun _ _ heq => Or.inl heq) (fun _ _ hr => hr) (hw.kept.of_eq rfl rfl)
  | renumbered => exact hin.elim
  | called j hfree =>
      refine hw.frame hadv (fun _ _ hm => Or.inl hm) (fun _ _ hs => Or.inl hs)
        (fun caller' pc' heq => Or.inr ?_) (fun _ _ hr => hr) (hw.kept.of_eq rfl rfl)
      obtain ⟨rfl, rfl⟩ := Running.mk.inj (Option.some.inj heq)
      cases j with
      | reconcile | handleNotify =>
          exact ⟨trivial, by simp [Pass.raws, Job.entry], by simp,
            by simp [Pass.hand, Job.entry]⟩
      | release rel uid => exact hin.elim
  | passed reply fresh io caller pc w' hpass hstep =>
      exact (passStep_cases hstep).unswept hw hpass (hspares ⟨caller, pc⟩ hpass)
  | requested k cursor hnone =>
      refine hw.frame hadv (fun _ _ hm => Or.inl hm) (fun j s hs => ?_)
        (fun _ _ heq => Or.inl heq) (fun _ _ hr => hr) (hw.kept.of_eq rfl rfl)
      by_cases hj : j = k
      · obtain rfl : Sync.start cursor = s := by simpa [hj] using hs
        exact Or.inr hspares
      · exact Or.inl (by simpa [hj] using hs)
  | synced k reply skeleton pc w' hpc hsync =>
      refine hsync.unswept hw hpc fun uidValidity asm sources more heq => ?_
      exact hspares uidValidity asm sources more (hpc.trans (congrArg some heq))

lemma World.AtRest.unswept {w₀ : World} (hw : w₀.AtRest) (haddressed : w₀.table.Addressed) :
    w₀.Unswept cfg where
  addressed := haddressed
  syncs := by simp [hw.syncs]
  pass := by simp [hw.pass]
  log := by simp [hw.log]
  kept := by simp [World.HistoryKept, hw.log]

/-- History is never swept. -/
def HistoryNeverSwept (cfg : Config) : Prop :=
  ∀ (w₀ w : World) (acts : List Act), w₀.AtRest → w₀.table.Addressed →
    (∀ act ∈ acts, act.Inbound) → Run.run (step cfg) w₀ acts = some w → w.HistoryKept

variable {w₀ : World} {acts : List Act}

omit [Runes]

namespace Sample

/-- The budget is full after one letter. -/
def slow : Config := { config with encodedLength := fun _ => 20000 }

def oldLetter : Raw := delivered 1 "rosa@x"

def newLetter : Raw := delivered 2 "rosa@x"

/-- A sync of two letters, until it has reconciled and fetched, and so many steps more. -/
def syncRun (cursor : String) (steps : ℕ) : List Act :=
  [.request 0 cursor, syncOk, syncOk, passOk 0, passOk 0, passOk 0, passOk 0, syncOk, syncOk] ++
    List.replicate steps syncOk

/-- Two letters from Rosa, and the two rounds in which the device gets them. -/
def drainRun : List Act :=
  [.arrive oldLetter, .arrive newLetter] ++ syncRun "" 3 ++ syncRun (encodeCursor 1 1) 3

def removeRosa : Act := .mutate {} "ana" { action := .deactivate, contactID := "c_01" }

/-- The device is reset; it gets the first letter again, Rosa is removed, and it goes on. -/
def resetRun : List Act :=
  drainRun ++ syncRun "" 3 ++ [removeRosa, .request 0 (encodeCursor 1 1), syncOk, syncOk, passOk 0,
    passOk 0, passOk 0, passOk 1]

/-- Rosa is removed, and the device goes on from where it is. -/
def onwardRun : List Act := drainRun ++ removeRosa :: syncRun (encodeCursor 1 2) 2

lemma onlyRosa_addressed (active : Bool) : (onlyRosa active).Addressed := by
  intro c hc
  obtain rfl := List.mem_singleton.1 hc
  exact ⟨by simp [rosa], by simp [rosa]⟩

end Sample

/-- Whether the last thing that happened is that a covered message was quarantined. -/
def World.sweptLast (w : World) : Bool :=
  match w.log with
  | .quarantined m :: older => older.any fun n => match n with
      | .responded _ r => decide (r.Covers w.uidValidity m)
      | _ => false
  | _ => false

lemma World.not_historyKept_of_sweptLast {w : World} (h : w.sweptLast = true) :
    ¬ w.HistoryKept := by
  intro hkept
  unfold World.sweptLast at h
  split at h
  next m older hlog =>
    obtain ⟨n, hn, hcovers⟩ := List.any_eq_true.1 h
    cases n with
    | responded k r =>
        exact hkept [] _ older m hlog (Or.inr rfl) k r hn (of_decide_eq_true hcovers)
    | _ => cases hcovers
  · cases h

/-- Whether a step of the sample spares the history, where it is easily seen. -/
def sparesPlainly (w : World) (act : Act) : Bool :=
  match act with
  | .request _ cursor =>
      (cursorBoundary cursor w.uidValidity).all fun uid => decide (uid ≤ w.inbox.last)
  | .arrive raw =>
      (Sample.pipeline.headerFrom raw.data).any fun sender =>
        (@Table.resolve Sample.runes w.table sender).isSome
  | .pass .. => w.pass.all fun running => match running.pc with
      | .sweep (some deliveredUID) (raw :: _) _ => decide (raw.uid ≤ deliveredUID) ||
          ((Sample.pipeline.headerFrom raw.data).bind
            (@Table.resolve Sample.runes w.table)).all Contact.active
      | .file (_ :: _) _ => false
      | _ => true
  | .sync .. => w.pass.isNone
  | _ => true

lemma spares_of_sparesPlainly {w : World} {act : Act} (h : sparesPlainly w act = true) :
    @Spares Sample.runes Sample.slow w act := by
  cases act with
  | request k cursor =>
      intro uid hb
      simpa [sparesPlainly, hb] using h
  | arrive raw =>
      intro _
      cases hfrom : Sample.pipeline.headerFrom raw.data with
      | none => simp [sparesPlainly, hfrom] at h
      | some sender => exact ⟨sender, hfrom, by simpa [sparesPlainly, hfrom] using h⟩
  | pass reply fresh io =>
      rintro ⟨caller, pc⟩ hrun hsweeps
      simp only [sparesPlainly, Option.mem_def.1 hrun, Option.all_some] at h
      cases pc with
      | sweep bound rest maxUID =>
          cases bound with
          | none => exact hsweeps
          | some deliveredUID =>
              cases rest with
              | nil => exact hsweeps
              | cons raw rest =>
                  obtain ⟨-, ⟨sender, contact, hfrom, hres, hremoved⟩, habove⟩ := hsweeps
                  have hfrom' : Sample.pipeline.headerFrom raw.data = some sender := hfrom
                  simp [hfrom', hres, hremoved, not_le.2 habove] at h
      | file rest full =>
          cases rest with
          | nil => exact hsweeps
          | cons raw rest => cases h
      | _ => exact hsweeps
  | sync k reply skeleton =>
      intro uidValidity asm sources more _ running hrun
      simp [sparesPlainly, Option.mem_def.1 hrun] at h
  | _ => trivial

end Chaskiwasi
