import Chaskiwasi.Device.Addressee

/-!
# What the child wrote is kept

The text of an open composition is in memory.  It becomes durable in the draft slot, by an autosave,
or in the outbox, by being sent, and two flags guard it on the way: the interface knows that a
composition is open, the store that its slot is occupied.

`KeepsText` says what one event owes to it: what is durable stays so, unless the child discards it
or goes on writing; the writing screen is left with its text saved; and no letter is opened over
another one.  `Sound` is the invariant that carries it: away from the writing screen, the text of an
open composition is durable.

A fault is shown without a save, whatever screen it is shown over.  Over unsaved text it breaks the
invariant, and the runs that keep every text are those in which that does not happen.
-/

namespace Chaskiwasi.Device

/-! ## Texts and where they are -/

/-- What the child wrote of a letter. -/
structure Text where
  subject : String
  body : String
  deriving DecidableEq, Repr

def Text.Blank (t : Text) : Prop := t.body = "" ∧ t.subject = ""

instance : DecidablePred Text.Blank := fun _ => inferInstanceAs (Decidable (_ ∧ _))

def Draft.text (d : Draft) : Text := ⟨d.subject, d.body⟩

def OutboxEntry.text (e : OutboxEntry) : Text := ⟨e.subject, e.body⟩

def Pending.text (p : Pending) : Text := ⟨p.subject, p.body⟩

lemma Draft.usable_iff {d : Draft} : d.usable = true ↔ ¬ d.text.Blank := by
  simp only [Draft.usable, Text.Blank, Draft.text, decide_eq_true_eq]

namespace Desk

def text (d : Desk) : Text := ⟨d.subject, d.body⟩

def InSlot (d : Desk) (t : Text) : Prop :=
  ∃ s draft, d.drafts = some s ∧ s.slot = some draft ∧ draft.text = t

def InOutbox (d : Desk) (t : Text) : Prop :=
  ∃ b, d.outbox = some b ∧ ∃ e ∈ b.files, e.text = t

/-- On flash. -/
def Durable (d : Desk) (t : Text) : Prop := d.InSlot t ∨ d.InOutbox t

end Desk

/-- The child drops the draft, on the screen that asks about it. -/
def Discards (u : Ui) (act : UiAct) : Prop :=
  u.screen = .draftConflict ∧ act.key? = some .enter ∧ u.selected ≠ 0

/-- What an event owes to what the child wrote. -/
structure KeepsText (u : Ui) (act : UiAct) (v : Ui) : Prop where
  /-- Durable text stays durable, but for the slot's: the child may discard it, or it is an earlier
  save of the open composition, whose text is durable now. -/
  durable : ∀ t, ¬ t.Blank → u.desk.Durable t →
    v.desk.Durable t ∨
      u.desk.InSlot t ∧ (Discards u act ∨ u.draftOpen = true ∧ v.desk.Durable u.desk.text)
  /-- The writing screen is left with its text saved. -/
  leaving : u.screen = .composeWrite → v.screen ≠ .composeWrite → u.draftOpen = true →
    ¬ u.desk.text.Blank → v.desk.Durable u.desk.text
  /-- A letter is opened over nothing but itself, or over what was discarded. -/
  opening : u.screen ≠ .composeWrite → v.draftOpen = true →
    (u.draftOpen = false ∨ v.desk.text ≠ u.desk.text) → ¬ Discards u act →
    (∀ t, ¬ t.Blank → u.desk.InSlot t → t = v.desk.text) ∧
      (u.draftOpen = true → ¬ u.desk.text.Blank → v.desk.Durable u.desk.text)

/-- The autosave of a wipe saves. -/
def SavesAtWipe (u : Ui) (act : UiAct) (v : Ui) : Prop :=
  act.event = .autosaveDraft → u.draftOpen = true → v.desk.Durable u.desk.text

/-- Nothing but the screens touches the stores, and no write fails. -/
structure Quiet (act : UiAct) : Prop where
  event : ∀ deps, act.event ≠ .background deps
  saveDraft : act.io.saveDraft = .done
  discardDraft : act.io.discardDraft = .done
  mintLocalID : act.io.mintLocalID = .done
  addLetter : act.io.addLetter = .done
  discardLetter : act.io.discardLetter = .done

/-- No fault is shown over unsaved text, and what is sent gets a local id that no letter in the
outbox has. -/
structure Careful (u : Ui) (act : UiAct) : Prop where
  fault : ∀ k diagnostic, act.event = .showFault k diagnostic → u.screen = .composeWrite →
    u.draftOpen = true → ¬ u.desk.text.Blank → u.desk.Durable u.desk.text
  fresh : u.screen = .composeWrite → act.key? = some .enter → ∀ b, u.deps.outbox = some b →
    ∀ e ∈ b.files, e.localID ≠ formatLocalID b.next

/-! ## The invariant -/

namespace Desk

structure Sound (d : Desk) : Prop where
  slot : d.draftOpen = true → ∃ s, d.drafts = some s
  /-- The writing screen with no composition open was not come to over a draft. -/
  writing : d.screen = .composeWrite → d.draftOpen = true ∨ ∀ t, ¬ t.Blank → ¬ d.InSlot t
  pending : ∀ s, d.drafts = some s → s.pending = s.load.isSome
  outbox : ∀ b, d.outbox = some b → b.Mirrors
  /-- Away from the writing screen, the text of the open composition is durable. -/
  left : d.screen ≠ .composeWrite → d.draftOpen = true → ¬ d.text.Blank → d.Durable d.text
  listed : d.screen = .outbox → d.queued = (d.outbox.map Outbox.all).getD []
  /-- A letter that waits to be reopened is still in the outbox. -/
  asked : d.screen = .draftConflict → d.pending.kind = .recompose →
    ∃ b, d.outbox = some b ∧ ∃ e ∈ b.files, e.localID = d.pending.localID ∧
      e.text = d.pending.text

variable {d d' : Desk} {t : Text} {s : DraftStore} {b : Outbox}

lemma InSlot.congr (h : d.InSlot t) (hdrafts : d'.drafts = d.drafts) : d'.InSlot t := by
  obtain ⟨s, draft, hs, hslot, ht⟩ := h
  exact ⟨s, draft, hdrafts.trans hs, hslot, ht⟩

lemma InOutbox.congr (h : d.InOutbox t) (houtbox : d'.outbox = d.outbox) : d'.InOutbox t := by
  obtain ⟨b, hb, e, he, ht⟩ := h
  exact ⟨b, houtbox.trans hb, e, he, ht⟩

lemma Durable.congr (h : d.Durable t) (hdrafts : d'.drafts = d.drafts)
    (houtbox : d'.outbox = d.outbox) : d'.Durable t :=
  h.imp (fun hslot => hslot.congr hdrafts) fun hout => hout.congr houtbox

lemma text_autosaveDraft (d : Desk) (at' : ℤ) (o : WriteOutcome) :
    (d.autosaveDraft at' o).text = d.text := by
  unfold autosaveDraft
  split_ifs <;> rfl

lemma queued_goTo_outbox (d : Desk) :
    (d.goTo .outbox).queued = (d.outbox.map Outbox.all).getD [] := by
  simp only [goTo, if_true]

/-- An occupied slot is pending. -/
lemma pending_of_inSlot (h : ∀ s, d.drafts = some s → s.pending = s.load.isSome)
    (ht : d.InSlot t) (hblank : ¬ t.Blank) : d.drafts.any DraftStore.pending = true := by
  obtain ⟨s, draft, hs, hslot, rfl⟩ := ht
  have hload : s.load = some draft := by
    rw [DraftStore.load, hslot]
    exact Option.filter_eq_some_iff.2 ⟨rfl, Draft.usable_iff.2 hblank⟩
  rw [hs]
  show s.pending = true
  rw [h s hs, hload]
  rfl

/-- A free slot holds nothing. -/
lemma Sound.not_inSlot (h : d.Sound) (hs : d.drafts = some s) (hfree : s.pending = false)
    (hblank : ¬ t.Blank) : ¬ d.InSlot t := by
  intro ht
  have hpending := pending_of_inSlot h.pending ht hblank
  rw [hs] at hpending
  rw [show s.pending = true from hpending] at hfree
  cases hfree

end Desk

namespace DraftStore

/-- The slot after a save that went through. -/
def holding (draft : Draft) : DraftStore := { slot := some draft, pending := draft.usable }

lemma save_done (s : DraftStore) (draft : Draft) : (s.save draft .done).1 = holding draft := rfl

lemma pending_holding (draft : Draft) :
    (holding draft).pending = (holding draft).load.isSome := by
  show draft.usable = (Option.filter Draft.usable (some draft)).isSome
  cases husable : draft.usable with
  | true => rw [Option.filter_some_pos husable]; rfl
  | false => rw [Option.filter_some_neg (by simp [husable])]; rfl

lemma discard_done (s : DraftStore) : (s.discard .done).1 = {} := by
  unfold DraftStore.discard
  by_cases hslot : s.slot = none
  · rw [if_pos hslot, ← hslot]
  · rw [if_neg hslot, if_pos (show WriteOutcome.done.ok = true from rfl)]

end DraftStore

namespace Outbox

variable {b : Outbox} {e : OutboxEntry}

/-- Retiring a letter takes it, and nothing else, off flash and out of memory. -/
lemma Mirrors.discard (h : b.Mirrors) (localID : String) :
    (b.discard localID .done).1.Mirrors ∧
      ∀ e ∈ b.files, e.localID ≠ localID → e ∈ (b.discard localID .done).1.files := by
  have hresolve := @Outbox.Mirrors.resolve b .done localID (some .sent) h
  have hsame : (b.discard localID .done).1 = (b.resolve localID (some .sent) .done).1 := by
    unfold Outbox.discard Outbox.resolve
    cases b.find? localID with
    | none => rfl
    | some e => rfl
  cases hok : (b.resolve localID (some .sent) .done).2 with
  | true =>
      obtain ⟨hmirrors, hfiles⟩ := hresolve.1 hok
      rw [hsame, hfiles]
      exact ⟨hmirrors, fun e he hid => List.mem_filterMap.2 ⟨e, he, settle_of_ne hid⟩⟩
  | false =>
      obtain ⟨hfail, -⟩ := hresolve.2 hok
      cases hfail

/-- Adding a letter under a fresh id keeps every other. -/
lemma Mirrors.insert (h : b.Mirrors) (hfresh : ∀ e' ∈ b.files, e'.localID ≠ e.localID) :
    (b.insert e .done).Mirrors ∧ e ∈ (b.insert e .done).files ∧
      ∀ e' ∈ b.files, e' ∈ (b.insert e .done).files := by
  have hput : ∀ e', e' ∈ Keyed.put OutboxEntry.localID e b.files ↔ e' = e ∨ e' ∈ b.files := by
    intro e'
    rw [h.ascending.mem_put_iff]
    exact or_congr_right ⟨And.left, fun he => ⟨he, hfresh e' he⟩⟩
  refine ⟨⟨h.ascending.put e, fun e' => ?_⟩, Keyed.mem_put_self _ _, fun e' he => ?_⟩
  · show e' ∈ b.entries ++ [e] ↔ e' ∈ Keyed.put OutboxEntry.localID e b.files
    rw [hput, List.mem_append, List.mem_singleton, h.entries, or_comm]
  · exact (hput e').2 (Or.inr he)

end Outbox

/-! ## What each effect owes -/

section Effects

open Desk

variable [Layout] {u v : Ui} {act : UiAct} {p : Pending} {io : UiIO}

omit [Layout] in
/-- An effect that leaves the text, the composition and the stores. -/
lemma keeps_of_same (hsound : v.desk.Sound) (hdrafts : v.desk.drafts = u.desk.drafts)
    (houtbox : v.desk.outbox = u.desk.outbox) (htext : v.desk.text = u.desk.text)
    (hopen : v.draftOpen = u.draftOpen)
    (hleft : u.screen = .composeWrite → v.screen ≠ .composeWrite → u.draftOpen = true →
      ¬ u.desk.text.Blank → u.desk.Durable u.desk.text) :
    v.desk.Sound ∧ KeepsText u act v := by
  refine ⟨hsound, fun t _ ht => Or.inl (ht.congr hdrafts houtbox), ?_, ?_⟩
  · intro hwrite haway hopen' hblank
    exact (hleft hwrite haway hopen' hblank).congr hdrafts houtbox
  · rintro - hvopen (hclosed | hother) -
    · rw [hopen, hclosed] at hvopen
      cases hvopen
    · exact absurd htext hother

omit [Layout] in
/-- Another screen is shown, and no text is touched. -/
lemma sound_goTo {d : Desk} (h : d.Sound) {s : Screen} (hs : s.OfLetter = false)
    (hleft : d.screen = .composeWrite → d.draftOpen = true → ¬ d.text.Blank → d.Durable d.text) :
    (d.goTo s).Sound where
  slot := h.slot
  writing := fun heq => absurd heq (Screen.ne_of_ofLetter hs).1
  pending := h.pending
  outbox := h.outbox
  left := by
    intro _ hopen hblank
    by_cases hwrite : d.screen = .composeWrite
    · exact (hleft hwrite hopen hblank).congr rfl rfl
    · exact (h.left hwrite hopen hblank).congr rfl rfl
  listed := fun heq => if_pos heq
  asked := fun heq => absurd heq (Screen.ne_of_ofLetter hs).2

omit [Layout] in
lemma screen_openCompose (d : Desk) (contactID subject body : String) :
    (d.openCompose contactID subject body).screen ≠ .outbox ∧
      (d.openCompose contactID subject body).screen ≠ .draftConflict := by
  show (if contactID = "" then Screen.composePick else .composeWrite) ≠ _ ∧
    (if contactID = "" then Screen.composePick else .composeWrite) ≠ _
  split_ifs
  · exact ⟨nofun, nofun⟩
  · exact ⟨nofun, nofun⟩

omit [Layout] in
lemma sound_goTo_write {d : Desk} (h : d.Sound) (hopen : d.draftOpen = true) :
    (d.goTo .composeWrite).Sound where
  slot := h.slot
  writing := fun _ => Or.inl hopen
  pending := h.pending
  outbox := h.outbox
  left := fun haway => absurd rfl haway
  listed := nofun
  asked := nofun

omit [Layout] in
lemma desk_setFieldText (u : Ui) (text : String) :
    ∃ subject body, (u.setFieldText text).desk =
      { u.desk with subject := subject, body := body } := by
  unfold Ui.setFieldText
  split
  · exact ⟨u.subject, text, rfl⟩
  · exact ⟨text, u.body, rfl⟩

omit [Layout] in
/-- Opening a letter on a sound desk: the letters in the outbox stay durable, and either nothing was
opened, or nothing was in the slot. -/
lemma sound_startDraft (h : u.desk.Sound) (haway : u.screen ≠ .composeWrite)
    (hsave : io.saveDraft = .done) (hdiscard : io.discardLetter = .done)
    (hp : p.kind = .recompose → ∃ b, u.deps.outbox = some b ∧
      ∃ e ∈ b.files, e.localID = p.localID ∧ e.text = p.text) :
    (u.startDraft p io).desk.Sound ∧
      (∀ t, u.desk.InOutbox t → (u.startDraft p io).desk.Durable t) ∧
      (((u.startDraft p io).desk.drafts = u.desk.drafts ∧
        (u.startDraft p io).desk.outbox = u.desk.outbox ∧
        (u.startDraft p io).desk.text = u.desk.text ∧
        (u.startDraft p io).draftOpen = u.draftOpen) ∨
      ∀ t, ¬ t.Blank → ¬ u.desk.InSlot t) := by
  rcases u.startDraft_cases p io with
    ⟨-, hdesk⟩ | ⟨s, hs, ⟨-, hdesk⟩ | ⟨hfree, -, hdesk⟩ | ⟨-, hfails, -⟩⟩
  · have hopen := congrArg Desk.draftOpen hdesk
    rw [hdesk]
    exact ⟨h, fun t ht => Or.inr ht, Or.inl ⟨rfl, rfl, rfl, hopen⟩⟩
  · have hopen := congrArg Desk.draftOpen hdesk
    rw [hdesk]
    refine ⟨?_, fun t ht => Or.inr (ht.congr rfl), Or.inl ⟨rfl, rfl, rfl, hopen⟩⟩
    exact
      { slot := h.slot
        writing := nofun
        pending := h.pending
        outbox := h.outbox
        left := fun _ hopen hblank => (h.left haway hopen hblank).congr rfl rfl
        listed := nofun
        asked := fun _ hkind => hp hkind }
  · rw [hsave, DraftStore.save_done] at hdesk
    have hslot : (u.startDraft p io).desk.InSlot p.text := by
      rw [hdesk]
      exact ⟨_, _, rfl, rfl, rfl⟩
    have hretired : ∀ b, u.deps.outbox = some b → p.kind = .recompose →
        (b.discard p.localID io.discardLetter).1.Mirrors ∧
          ∀ t, u.desk.InOutbox t → (u.startDraft p io).desk.Durable t := by
      intro b hb hkind
      obtain ⟨b', hb', e, he, hid, htext⟩ := hp hkind
      obtain rfl := Option.some.inj (hb.symm.trans hb')
      obtain ⟨hmirrors, hothers⟩ := (h.outbox b hb).discard p.localID
      rw [hdiscard]
      refine ⟨hmirrors, ?_⟩
      rintro t ⟨b'', hb'', e', he', rfl⟩
      obtain rfl := Option.some.inj (hb.symm.trans hb'')
      by_cases hid' : e'.localID = p.localID
      · obtain rfl := (h.outbox b hb).ascending.eq_of_key_eq he' he (hid'.trans hid.symm)
        rw [htext]
        exact Or.inl hslot
      · refine Or.inr ⟨(b.discard p.localID .done).1, ?_, e', hothers e' he' hid', rfl⟩
        rw [hdesk]
        show (if p.kind = .recompose then _ else _) = _
        rw [if_pos hkind, hb, hdiscard]
        rfl
    have hscreen : (u.startDraft p io).desk.screen ≠ .outbox ∧
        (u.startDraft p io).desk.screen ≠ .draftConflict := by
      rw [hdesk]
      exact screen_openCompose _ _ _ _
    refine ⟨?_, fun t ht => ?_, Or.inr fun t hblank => h.not_inSlot hs hfree hblank⟩
    · exact
        { slot := fun _ => ⟨_, congrArg Desk.drafts hdesk⟩
          writing := fun _ => Or.inl (congrArg Desk.draftOpen hdesk)
          pending := by
            intro s' hs'
            obtain rfl := Option.some.inj ((congrArg Desk.drafts hdesk).symm.trans hs')
            exact DraftStore.pending_holding _
          outbox := by
            intro b' hb'
            have heq := (congrArg Desk.outbox hdesk).symm.trans hb'
            dsimp only [Desk.openCompose, Desk.goTo] at heq
            by_cases hkind : p.kind = .recompose
            · rw [if_pos hkind] at heq
              obtain ⟨b, hb, rfl⟩ := Option.map_eq_some_iff.1 heq
              exact (hretired b hb hkind).1
            · rw [if_neg hkind] at heq
              exact h.outbox b' heq
          left := fun _ _ _ => Or.inl (by rwa [show (u.startDraft p io).desk.text = p.text by
            rw [hdesk]; rfl])
          listed := fun heq => absurd heq hscreen.1
          asked := fun heq => absurd heq hscreen.2 }
    · by_cases hkind : p.kind = .recompose
      · obtain ⟨b, hb, -⟩ := hp hkind
        exact (hretired b hb hkind).2 t ht
      · refine Or.inr (ht.congr ?_)
        rw [hdesk]
        exact if_neg hkind
  · rw [hsave] at hfails
    cases hfails

omit [Layout] in
/-- A save on a sound desk: where a composition is open, its text is in the slot. -/
lemma sound_autosaveDraft {d : Desk} (h : d.Sound) (at' : ℤ) :
    (d.autosaveDraft at' .done).Sound ∧
      ((d.draftOpen = false ∧ d.autosaveDraft at' .done = d) ∨
      d.draftOpen = true ∧ (d.autosaveDraft at' .done).InSlot d.text ∧
        ∃ drafts, d.autosaveDraft at' .done = { d with drafts := drafts }) := by
  unfold autosaveDraft
  by_cases hopen : d.draftOpen = true
  · obtain ⟨s, hs⟩ := h.slot hopen
    rw [if_pos hopen, hs]
    have hslot : InSlot
        { d with drafts := some (.holding ⟨d.contactID, d.subject, d.body, at'⟩) } d.text :=
      ⟨_, _, rfl, rfl, rfl⟩
    refine ⟨?_, Or.inr ⟨hopen, hslot, _, rfl⟩⟩
    exact
      { slot := fun _ => ⟨_, rfl⟩
        writing := fun _ => Or.inl hopen
        pending := by
          intro s' hs'
          obtain rfl := Option.some.inj hs'
          exact DraftStore.pending_holding _
        outbox := h.outbox
        left := fun _ _ _ => Or.inl hslot
        listed := h.listed
        asked := h.asked }
  · rw [if_neg hopen]
    exact ⟨h, Or.inl ⟨by simpa using hopen, rfl⟩⟩

omit [Layout] in
/-- Another screen after a save. -/
lemma sound_saved_goTo {d : Desk} (h : d.Sound) (at' : ℤ) {s : Screen} (hs : s.OfLetter = false) :
    ((d.autosaveDraft at' .done).goTo s).Sound := by
  obtain ⟨hsound, ⟨hclosed, hsame⟩ | ⟨-, hslot, drafts, heq⟩⟩ := sound_autosaveDraft h at'
  · refine sound_goTo hsound hs fun _ hopen => ?_
    rw [hsame, hclosed] at hopen
    cases hopen
  · refine sound_goTo hsound hs fun _ _ _ => Or.inl ?_
    rwa [show (d.autosaveDraft at' .done).text = d.text by rw [heq]; rfl]

omit [Layout] in
/-- What a save makes durable may take the place of an earlier save, and of nothing else. -/
lemma keeps_of_saved (hsound : v.desk.Sound) (hslot : v.desk.InSlot u.desk.text)
    (houtbox : v.desk.outbox = u.desk.outbox) (htext : v.desk.text = u.desk.text)
    (huopen : u.draftOpen = true) : v.desk.Sound ∧ KeepsText u act v := by
  refine ⟨hsound, fun t _ ht => ?_, fun _ _ _ _ => Or.inl hslot, ?_⟩
  · rcases ht with ht | ht
    · exact Or.inr ⟨ht, Or.inr ⟨huopen, Or.inl hslot⟩⟩
    · exact Or.inl (Or.inr (ht.congr houtbox))
  · rintro - - (hclosed | hother) -
    · rw [huopen] at hclosed
      cases hclosed
    · exact absurd htext hother

omit [Layout] in
/-- Whatever is done after a save, short of touching texts and stores. -/
lemma keeps_after_save (h : u.desk.Sound) (hsound : v.desk.Sound) (hsave : io.saveDraft = .done)
    (hdrafts : v.desk.drafts = (u.autosaveDraft io).desk.drafts)
    (houtbox : v.desk.outbox = u.desk.outbox) (htext : v.desk.text = u.desk.text)
    (hopen : v.draftOpen = u.draftOpen) : v.desk.Sound ∧ KeepsText u act v := by
  rw [Ui.desk_autosaveDraft, hsave] at hdrafts
  rcases (sound_autosaveDraft h (Ui.stamp io)).2 with ⟨hclosed, hsame⟩ | ⟨huopen, hslot, -⟩
  · rw [hsame] at hdrafts
    refine keeps_of_same hsound hdrafts houtbox htext hopen fun _ _ huopen => ?_
    rw [show u.draftOpen = false from hclosed] at huopen
    cases huopen
  · exact keeps_of_saved hsound (hslot.congr hdrafts) houtbox htext huopen

omit [Layout] in
/-- A save, and then another screen. -/
lemma keeps_saved_goTo (h : u.desk.Sound) (hsave : io.saveDraft = .done) {s : Screen}
    (hs : s.OfLetter = false) (hdesk : v.desk = (u.autosaveDraft io).desk.goTo s) :
    v.desk.Sound ∧ KeepsText u act v := by
  rw [Ui.desk_autosaveDraft, hsave] at hdesk
  refine keeps_after_save h (hdesk ▸ sound_saved_goTo h _ hs) hsave ?_ ?_ ?_ ?_
  · rw [hdesk, Ui.desk_autosaveDraft, hsave]
    rfl
  · rw [hdesk]
    exact outbox_autosaveDraft _ _ _
  · rw [hdesk]
    exact text_autosaveDraft _ _ _
  · exact (congrArg Desk.draftOpen hdesk).trans (draftOpen_autosaveDraft _ _ _)

omit [Layout] in
lemma keeps_startDraft (h : u.desk.Sound) (haway : u.screen ≠ .composeWrite)
    (hsave : io.saveDraft = .done) (hdiscard : io.discardLetter = .done)
    (hp : p.kind = .recompose → ∃ b, u.deps.outbox = some b ∧
      ∃ e ∈ b.files, e.localID = p.localID ∧ e.text = p.text) :
    (u.startDraft p io).desk.Sound ∧ KeepsText u act (u.startDraft p io) := by
  obtain ⟨hsound, hout, ⟨hdrafts, houtbox, htext, hopen⟩ | hfree⟩ :=
    sound_startDraft h haway hsave hdiscard hp
  · exact keeps_of_same hsound hdrafts houtbox htext hopen fun hwrite => absurd hwrite haway
  · refine ⟨hsound, fun t hblank ht => ?_, fun hwrite => absurd hwrite haway, ?_⟩
    · rcases ht with ht | ht
      · exact absurd ht (hfree t hblank)
      · exact Or.inl (hout t ht)
    · intro _ _ _ _
      refine ⟨fun t hblank ht => absurd ht (hfree t hblank), fun hopen hblank => ?_⟩
      rcases h.left haway hopen hblank with ht | ht
      · exact absurd ht (hfree _ hblank)
      · exact hout _ ht

omit [Layout] in
/-- Sending moves the text from memory, and from the slot, to the outbox. -/
lemma keeps_send (h : u.desk.Sound) (hwrite : u.screen = .composeWrite) (hquiet : Quiet act)
    (hfresh : ∀ b, u.deps.outbox = some b → ∀ e ∈ b.files, e.localID ≠ formatLocalID b.next) :
    (u.send act.io).desk.Sound ∧ KeepsText u act (u.send act.io) := by
  rcases u.send_cases act.io with
    ⟨-, hdesk⟩ | ⟨b, -, hb, ⟨-, hdesk⟩ | ⟨-, -, -, hdesk⟩ | ⟨-, -, hfails, -⟩ | ⟨-, hfails, -⟩⟩
  · have hopen := congrArg Desk.draftOpen hdesk
    refine keeps_of_same (hdesk.symm ▸ h) (by rw [hdesk]) (by rw [hdesk]) (by rw [hdesk]) hopen
      fun _ haway => absurd ((congrArg Desk.screen hdesk).trans hwrite) haway
  · -- The outbox is full: the letter parks in the slot.
    exact keeps_saved_goTo h hquiet.saveDraft rfl hdesk
  · rw [hquiet.mintLocalID, hquiet.addLetter, hquiet.discardDraft] at hdesk
    have hmirrors : (b.mint .done).Mirrors := ⟨(h.outbox b hb).ascending, (h.outbox b hb).entries⟩
    obtain ⟨hmirrors', hsent, hothers⟩ := hmirrors.insert (e := u.finished b act.io) (hfresh b hb)
    have hdurable : (u.send act.io).desk.Durable u.desk.text := by
      rw [hdesk]
      exact Or.inr ⟨_, rfl, _, hsent, rfl⟩
    refine ⟨?_, fun t hblank ht => ?_, fun _ _ _ _ => hdurable, fun haway => absurd hwrite haway⟩
    · rw [hdesk]
      exact
        { slot := nofun
          writing := nofun
          pending := by
            intro s hs
            obtain ⟨s', -, hs'⟩ := Option.map_eq_some_iff.1 hs
            rw [DraftStore.discard_done] at hs'
            rw [← hs']
            rfl
          outbox := by
            rintro b' hb'
            obtain rfl := Option.some.inj hb'
            exact hmirrors'
          left := nofun
          listed := fun _ => queued_goTo_outbox _
          asked := nofun }
    · rcases ht with ht | ⟨b', hb', e, he, rfl⟩
      · rcases h.writing hwrite with hopen | hfree
        · exact Or.inr ⟨ht, Or.inr ⟨hopen, hdurable⟩⟩
        · exact absurd ht (hfree t hblank)
      · obtain rfl := Option.some.inj (hb.symm.trans hb')
        refine Or.inl (Or.inr ⟨_, congrArg Desk.outbox hdesk, e, hothers e he, rfl⟩)
  · rw [hquiet.addLetter] at hfails
    cases hfails
  · rw [hquiet.mintLocalID] at hfails
    cases hfails

omit [Layout] in
/-- Keeping the draft opens what is in the slot. -/
lemma keeps_keepPendingDraft (h : u.desk.Sound) (hscreen : u.screen = .draftConflict) :
    (u.keepPendingDraft io).desk.Sound ∧ KeepsText u act (u.keepPendingDraft io) := by
  have haway : u.screen ≠ .composeWrite := by
    rw [hscreen]
    exact nofun
  rcases u.keepPendingDraft_cases io with ⟨-, hdesk⟩ | ⟨draft, hload, hdesk⟩
  · have hquit : Sound { u.desk with pending := {} } :=
      { slot := h.slot
        writing := h.writing
        pending := h.pending
        outbox := h.outbox
        left := h.left
        listed := h.listed
        asked := nofun }
    have hopen := congrArg Desk.draftOpen hdesk
    refine keeps_of_same (hdesk ▸ sound_goTo hquit rfl fun hwrite => absurd hwrite haway)
      (by rw [hdesk]; rfl) (by rw [hdesk]; rfl) (by rw [hdesk]; rfl) hopen
      fun hwrite => absurd hwrite haway
  · obtain ⟨s, hs, hslot⟩ := Option.bind_eq_some_iff.1 hload
    have hslot' : s.slot = some draft := (Option.filter_eq_some_iff.1 hslot).1
    have hdrafts : (u.keepPendingDraft io).desk.drafts = u.desk.drafts := by
      rw [hdesk]
      rfl
    have houtbox : (u.keepPendingDraft io).desk.outbox = u.desk.outbox := by
      rw [hdesk]
      rfl
    have htext : (u.keepPendingDraft io).desk.text = draft.text := by
      rw [hdesk]
      rfl
    have hnew : (u.keepPendingDraft io).desk.InSlot draft.text :=
      ⟨s, draft, hdrafts.trans hs, hslot', rfl⟩
    have hscreen' := screen_openCompose { u.desk with pending := {} } draft.contactID draft.subject
      draft.body
    rw [← hdesk] at hscreen'
    refine ⟨?_, fun t _ ht => Or.inl (ht.congr hdrafts houtbox),
      fun hwrite => absurd hwrite haway, fun _ _ _ _ => ⟨?_, ?_⟩⟩
    · exact
        { slot := fun _ => ⟨s, hdrafts.trans hs⟩
          writing := fun _ => Or.inl (congrArg Desk.draftOpen hdesk)
          pending := fun s' hs' => h.pending s' (hdrafts.symm.trans hs')
          outbox := fun b hb => h.outbox b (houtbox.symm.trans hb)
          left := fun _ _ _ => Or.inl (htext ▸ hnew)
          listed := fun heq => absurd heq hscreen'.1
          asked := fun heq => absurd heq hscreen'.2 }
    · rintro t - ⟨s', draft', hs', hdraft', rfl⟩
      obtain rfl := Option.some.inj (hs.symm.trans hs')
      obtain rfl := Option.some.inj (hslot'.symm.trans hdraft')
      exact htext.symm
    · intro hopen hblank
      exact (h.left haway hopen hblank).congr hdrafts houtbox

omit [Layout] in
/-- Dropping the draft is the child's own choice, and touches nothing else. -/
lemma keeps_dropPendingDraft (h : u.desk.Sound) (hscreen : u.screen = .draftConflict)
    (hquiet : Quiet act) (hdiscards : Discards u act) :
    (u.dropPendingDraft act.io).desk.Sound ∧ KeepsText u act (u.dropPendingDraft act.io) := by
  have haway : u.screen ≠ .composeWrite := by
    rw [hscreen]
    exact nofun
  have hdropped : (u.dropped act.io).desk.Sound :=
    { slot := nofun
      writing := fun hwrite => absurd hwrite haway
      pending := by
        intro s hs
        obtain ⟨s', -, hs'⟩ := Option.map_eq_some_iff.1 hs
        rw [hquiet.discardDraft, DraftStore.discard_done] at hs'
        rw [← hs']
        rfl
      outbox := h.outbox
      left := nofun
      listed := h.listed
      asked := nofun }
  have hgoal : (u.dropPendingDraft act.io).desk.Sound ∧
      ∀ t, u.desk.InOutbox t → (u.dropPendingDraft act.io).desk.Durable t := by
    rw [Ui.dropPendingDraft_eq]
    by_cases hkind : u.pending.kind = .resume
    · rw [if_pos hkind, Ui.desk_goTo]
      exact ⟨sound_goTo hdropped rfl nofun, fun t ht => Or.inr ht⟩
    · rw [if_neg hkind]
      have hstart := sound_startDraft (p := u.pending) hdropped haway hquiet.saveDraft
        hquiet.discardLetter (h.asked hscreen)
      exact ⟨hstart.1, fun t ht => hstart.2.1 t ht⟩
  refine ⟨hgoal.1, fun t _ ht => ?_, fun hwrite => absurd hwrite haway,
    fun _ _ _ hnot => absurd hdiscards hnot⟩
  rcases ht with ht | ht
  · exact Or.inr ⟨ht, Or.inl hdiscards⟩
  · exact Or.inl (hgoal.2 t ht)

/-- What is left of an event owes the child every text, where no write fails, no fault is shown over
unsaved text and every local id is fresh. -/
theorem keeps_of_effect (h : u.desk.Sound) (hquiet : Quiet act) (hcareful : Careful u act)
    (heffect : Ui.Effect u act v) : v.desk.Sound ∧ KeepsText u act v := by
  cases heffect with
  | stays => exact keeps_of_same h rfl rfl rfl rfl fun hwrite haway => absurd hwrite haway
  | fields | adjusts =>
      exact keeps_of_same
        { slot := h.slot
          writing := h.writing
          pending := h.pending
          outbox := h.outbox
          left := h.left
          listed := h.listed
          asked := h.asked }
        rfl rfl rfl rfl fun hwrite haway => absurd hwrite haway
  | goes s hs hfault =>
      have hleft : u.screen = .composeWrite → u.draftOpen = true → ¬ u.desk.text.Blank →
          u.desk.Durable u.desk.text := by
        intro hwrite
        obtain ⟨k, diagnostic, hevent⟩ := hfault hwrite
        exact hcareful.fault k diagnostic hevent hwrite
      have hdesk := Ui.desk_goTo u s
      exact keeps_of_same (hdesk ▸ sound_goTo h hs hleft) (by rw [hdesk]; rfl) (by rw [hdesk]; rfl)
        (by rw [hdesk]; rfl) (congrArg Desk.draftOpen hdesk) fun hwrite _ => hleft hwrite
  | offers hscreen =>
      have haway : u.screen ≠ .composeWrite := by
        rintro heq
        rw [heq] at hscreen
        rcases hscreen with hscreen | hscreen <;> cases hscreen
      have hdesk := Ui.desk_goTo { u with pending := { kind := .resume } } .draftConflict
      refine keeps_of_same ?_ (by rw [hdesk]; rfl) (by rw [hdesk]; rfl) (by rw [hdesk]; rfl)
        (congrArg Desk.draftOpen hdesk) fun hwrite => absurd hwrite haway
      rw [hdesk]
      exact
        { slot := h.slot
          writing := nofun
          pending := h.pending
          outbox := h.outbox
          left := fun _ hopen hblank => (h.left haway hopen hblank).congr rfl rfl
          listed := nofun
          asked := nofun }
  | edits text hwrite =>
      obtain ⟨subject, body, hdesk⟩ := desk_setFieldText u text
      have hstay := congrArg Desk.screen hdesk
      have haway : (u.setFieldText text).screen ≠ .composeWrite → False := fun hne =>
        hne (hstay.trans hwrite)
      refine ⟨?_, fun t _ ht => Or.inl (ht.congr (by rw [hdesk]) (by rw [hdesk])),
        fun _ hne => (haway hne).elim, fun hne => absurd hwrite hne⟩
      rw [hdesk]
      exact
        { slot := h.slot
          writing := h.writing
          pending := h.pending
          outbox := h.outbox
          left := fun hne => absurd hwrite hne
          listed := h.listed
          asked := h.asked }
  | saves =>
      refine keeps_after_save h ?_ hquiet.saveDraft rfl ?_ ?_ ?_
      · rw [Ui.desk_autosaveDraft, hquiet.saveDraft]
        exact (sound_autosaveDraft h _).1
      · rw [Ui.desk_autosaveDraft, outbox_autosaveDraft]
      · rw [Ui.desk_autosaveDraft, text_autosaveDraft]
      · exact (congrArg Desk.draftOpen (Ui.desk_autosaveDraft u act.io)).trans
          (draftOpen_autosaveDraft _ _ _)
  | leaves =>
      have hdesk := Ui.desk_goTo (u.autosaveDraft act.io) .composePick
      exact keeps_saved_goTo h hquiet.saveDraft rfl hdesk
  | attaches c hscreen _ hopen =>
      have hsound : ({ u with contactID := c.id } : Ui).desk.Sound :=
        { slot := h.slot
          writing := h.writing
          pending := h.pending
          outbox := h.outbox
          left := h.left
          listed := h.listed
          asked := h.asked }
      have hdesk := Ui.desk_goTo (({ u with contactID := c.id } : Ui).autosaveDraft act.io)
        .composeWrite
      rw [Ui.desk_autosaveDraft, hquiet.saveDraft] at hdesk
      have hsaved := (sound_autosaveDraft hsound (Ui.stamp act.io)).1
      have hkeeps := @keeps_after_save { u with contactID := c.id }
        (({ u with contactID := c.id }.autosaveDraft act.io).goTo .composeWrite) act act.io hsound
        (hdesk ▸ sound_goTo_write hsaved ((draftOpen_autosaveDraft _ _ _).trans hopen))
        hquiet.saveDraft (by rw [hdesk, Ui.desk_autosaveDraft, hquiet.saveDraft]; rfl)
        (by rw [hdesk]; exact outbox_autosaveDraft _ _ _)
        (by rw [hdesk]; exact text_autosaveDraft _ _ _)
        ((congrArg Desk.draftOpen hdesk).trans (draftOpen_autosaveDraft _ _ _))
      exact ⟨hkeeps.1, hkeeps.2.durable, hkeeps.2.leaving, hkeeps.2.opening⟩
  | begins c hscreen =>
      refine keeps_startDraft h ?_ hquiet.saveDraft hquiet.discardLetter nofun
      rw [hscreen]
      exact nofun
  | reopens q hscreen _ hq =>
      refine keeps_startDraft h ?_ hquiet.saveDraft hquiet.discardLetter fun _ => ?_
      · rw [hscreen]
        exact nofun
      · have hqueued : u.queued = (u.deps.outbox.map Outbox.all).getD [] := h.listed hscreen
        rw [hqueued] at hq
        cases houtbox : u.deps.outbox with
        | none =>
            rw [houtbox] at hq
            cases hq
        | some b =>
            rw [houtbox] at hq
            have hmem : q ∈ b.all := List.mem_of_getElem? hq
            refine ⟨b, rfl, q, ?_, rfl, rfl⟩
            exact ((h.outbox b houtbox).entries q).1 ((List.mem_insertionSort _).1 hmem)
  | sends hwrite hkey => exact keeps_send h hwrite hquiet (hcareful.fresh hwrite hkey)
  | keeps hscreen => exact keeps_keepPendingDraft h hscreen
  | drops hscreen hkey hsel => exact keeps_dropPendingDraft h hscreen hquiet ⟨hscreen, hkey, hsel⟩
  | background deps hevent => exact absurd hevent (hquiet.event deps)

/-! ## Runs -/

/-- One event keeps the desk sound and every text. -/
theorem keeps_of_step (h : u.desk.Sound) (hquiet : Quiet act) (hcareful : Careful u act)
    (hstep : u.step act = some v) : v.desk.Sound ∧ KeepsText u act v := by
  obtain ⟨w, heffect, hdesk⟩ := Ui.step_effect hstep
  obtain ⟨k, m, hnoted⟩ := u.noted_eq act
  rw [hnoted] at heffect
  have hw := keeps_of_effect (u := { u with lastKey := k, message := m }) h hquiet
    ⟨hcareful.fault, hcareful.fresh⟩ heffect
  have hscreen : v.screen = w.screen := congrArg Desk.screen hdesk
  have hopen : v.draftOpen = w.draftOpen := congrArg Desk.draftOpen hdesk
  refine ⟨hdesk ▸ hw.1, fun t hblank ht => ?_, fun hwrite haway => ?_, fun haway hvopen hnew => ?_⟩
  · rw [hdesk]
    exact hw.2.durable t hblank ht
  · rw [hdesk]
    exact hw.2.leaving hwrite (hscreen ▸ haway)
  · rw [hdesk] at hnew ⊢
    exact hw.2.opening haway (hopen ▸ hvopen) hnew

lemma savesAtWipe_of_step (h : u.desk.Sound) (hquiet : Quiet act) (hstep : u.step act = some v) :
    SavesAtWipe u act v := by
  intro hevent hopen
  obtain rfl := Option.some.inj hstep
  rw [hevent]
  show (u.autosaveDraft act.io).desk.Durable u.desk.text
  rw [Ui.desk_autosaveDraft, hquiet.saveDraft]
  rcases (sound_autosaveDraft h (Ui.stamp act.io)).2 with ⟨hclosed, -⟩ | ⟨-, hslot, -⟩
  · rw [show u.draftOpen = false from hclosed] at hopen
    cases hopen
  · exact Or.inl hslot

end Effects

/-- The stores as a boot opens them. -/
def Deps.booted (deps : Deps) : Deps :=
  { deps with drafts := deps.drafts.map DraftStore.opened, outbox := deps.outbox.map Outbox.opened }

/-- A desk with nothing open is sound on every screen, but for the writing screen over a draft. -/
lemma sound_of_closed {d : Desk} (hclosed : d.draftOpen = false)
    (hpending : ∀ s, d.drafts = some s → s.pending = s.load.isSome)
    (houtbox : ∀ b, d.outbox = some b → b.Mirrors) (hkind : d.pending.kind ≠ .recompose)
    {s : Screen} (hfree : s = .composeWrite → ∀ t, ¬ t.Blank → ¬ d.InSlot t) :
    (d.goTo s).Sound where
  slot := fun hopen => absurd (hclosed.symm.trans hopen) (by simp)
  writing := fun hwrite => Or.inr (hfree hwrite)
  pending := hpending
  outbox := houtbox
  left := fun _ hopen => absurd (hclosed.symm.trans hopen) (by simp)
  listed := fun heq => if_pos heq
  asked := fun _ h => absurd h hkind

/-- A session opens on a sound desk. -/
lemma sound_opened {deps : Deps} (hfiles : ∀ b, deps.outbox = some b →
    Keyed.Ascending OutboxEntry.localID b.files) (initial : Screen) (io : UiIO) :
    (opened deps.booted initial io).desk.Sound := by
  have hpending : ∀ s, deps.booted.drafts = some s → s.pending = s.load.isSome := by
    intro s hs
    obtain ⟨s', -, rfl⟩ := Option.map_eq_some_iff.1 hs
    rfl
  have houtbox : ∀ b, deps.booted.outbox = some b → b.Mirrors := by
    intro b hb
    obtain ⟨b', hb', rfl⟩ := Option.map_eq_some_iff.1 hb
    exact Outbox.mirrors_opened (hfiles b' hb')
  unfold opened Ui.start
  dsimp only
  split_ifs with hpin hcover
  · rw [Ui.desk_present, Ui.desk_goTo]
    exact sound_of_closed rfl hpending houtbox (fun h => by cases h) nofun
  · rw [Ui.desk_present, Ui.desk_goTo]
    exact sound_of_closed rfl hpending houtbox (fun h => by cases h) nofun
  · rw [Ui.desk_present]
    unfold Ui.offerPendingDraftOr
    split_ifs with hoffer
    · rw [Ui.desk_goTo]
      exact sound_of_closed rfl hpending houtbox (fun h => by cases h) nofun
    · rw [Ui.desk_goTo]
      refine sound_of_closed rfl hpending houtbox (fun h => by cases h) ?_
      refine fun _ t hblank ht => hoffer ?_
      exact Desk.pending_of_inSlot hpending ht hblank

/-- In every session, over whatever a boot finds, where no write fails: no event loses a text, and
the autosave of a wipe saves. -/
def DraftsNeverDie [Layout] : Prop :=
  ∀ (deps : Deps) (initial : Screen) (io : UiIO) (acts : List UiAct),
    (∀ b, deps.outbox = some b → Keyed.Ascending OutboxEntry.localID b.files) →
    (∀ act ∈ acts, Quiet act) →
    Run.Meets Ui.step (fun u act => ∀ v, u.step act = some v → KeepsText u act v ∧
      SavesAtWipe u act v) (opened deps.booted initial io) acts

/-- **Drafts never die, where no fault is shown over unsaved text.**  In every session whose writes
go through, if no fault is shown on the writing screen while its text is not durable, and every
letter that is sent gets a fresh local id, then at every event what is durable stays durable until
the child discards it or goes on writing, the writing screen is left with its text saved, and no
letter is opened over another one. -/
theorem texts_kept [Layout] {deps : Deps} {initial : Screen} {io : UiIO} {acts : List UiAct}
    (hfiles : ∀ b, deps.outbox = some b → Keyed.Ascending OutboxEntry.localID b.files)
    (hquiet : ∀ act ∈ acts, Quiet act)
    (hcareful : Run.Meets Ui.step Careful (opened deps.booted initial io) acts) :
    Run.Meets Ui.step (fun u act => ∀ v, u.step act = some v → KeepsText u act v ∧
      SavesAtWipe u act v) (opened deps.booted initial io) acts := by
  have hboth := (Run.meets_of_mem hquiet).and hcareful
  refine (hboth.with_invariant (I := fun u => u.desk.Sound) (fun u act v hu hact hstep => ?_)
    (sound_opened hfiles initial io)).imp ?_
  · exact (keeps_of_step hu hact.1 hact.2 hstep).1
  · rintro u act ⟨hu, hact, hcare⟩ v hstep
    exact ⟨(keeps_of_step hu hact hcare hstep).2, savesAtWipe_of_step hu hact hstep⟩

namespace Sample

/-- A letter to Rosa is begun. -/
def begunLetter : List UiAct :=
  [⟨.key ⟨.right, 0⟩, {}⟩, ⟨.key ⟨.enter, 0⟩, {}⟩, ⟨.key ⟨.char, 104⟩, {}⟩]

/-- The road is busy while the child writes. -/
def busyRoadAt : UiAct := ⟨.showFault .roadBusy "", {}⟩

/-- The child steps out of the letter, the road is busy, and the letter is taken up again, finished
and sent. -/
def finishedLetter : List UiAct :=
  begunLetter ++ [⟨.key ⟨.back, 0⟩, {}⟩, busyRoadAt, ⟨.key ⟨.back, 0⟩, {}⟩,
    ⟨.key ⟨.right, 0⟩, {}⟩, ⟨.key ⟨.enter, 0⟩, {}⟩, ⟨.key ⟨.char, 105⟩, {}⟩,
    ⟨.key ⟨.enter, 0⟩, {}⟩]

end Sample

/-- No fault on the writing screen at all, and fresh local ids. -/
lemma careful_of_check {u : Ui} {act : UiAct}
    (hfault : act.key? = none → u.screen ≠ .composeWrite)
    (hfresh : u.screen = .composeWrite → act.key? = some .enter →
      (u.deps.outbox.all fun b =>
        b.files.all fun e => decide (e.localID ≠ formatLocalID b.next)) = true) :
    Careful u act where
  fault := by
    intro k diagnostic hevent hwrite
    refine absurd hwrite (hfault ?_)
    rw [UiAct.key?, hevent]
  fresh := by
    intro hwrite hkey b hb e he
    have hall := hfresh hwrite hkey
    rw [hb] at hall
    exact of_decide_eq_true (List.all_eq_true.1 hall e he)

/-- A letter that was left before the fault was shown is kept throughout. -/
theorem finished_letter_kept :
    Run.Meets (@Ui.step Sample.layout)
      (fun u act => ∀ v, @Ui.step Sample.layout u act = some v →
        KeepsText u act v ∧ SavesAtWipe u act v)
      (opened Sample.postDeps.booted .inbox {}) Sample.finishedLetter := by
  have hcheck : Run.Meets (@Ui.step Sample.layout)
      (fun u act => (act.key? = none → u.screen ≠ .composeWrite) ∧
        (u.screen = .composeWrite → act.key? = some .enter →
          (u.deps.outbox.all fun b =>
            b.files.all fun e => decide (e.localID ≠ formatLocalID b.next)) = true))
      (opened Sample.postDeps.booted .inbox {}) Sample.finishedLetter := by
    decide +kernel
  refine @texts_kept Sample.layout Sample.postDeps .inbox {} Sample.finishedLetter ?_ ?_
    (hcheck.imp fun u act h => careful_of_check h.1 h.2)
  · intro b hb
    obtain rfl := Option.some.inj hb
    exact List.Pairwise.nil
  · intro act hact
    simp only [Sample.finishedLetter, Sample.begunLetter, Sample.busyRoadAt, List.cons_append,
      List.nil_append, List.mem_cons, List.not_mem_nil, or_false] at hact
    rcases hact with rfl | rfl | rfl | rfl | rfl | rfl | rfl | rfl | rfl | rfl <;>
      exact ⟨(fun _ h => by cases h), rfl, rfl, rfl, rfl, rfl⟩

/-- A fault over a letter that is being written leaves its text nowhere. -/
theorem fault_leaves_unsaved : ¬ @DraftsNeverDie Sample.layout := by
  intro hclaim
  have hmeets := hclaim Sample.postDeps .inbox {} (Sample.begunLetter ++ [Sample.busyRoadAt])
    (by
      intro b hb
      obtain rfl := Option.some.inj hb
      exact List.Pairwise.nil)
    (by
      intro act hact
      simp only [Sample.begunLetter, Sample.busyRoadAt, List.cons_append, List.nil_append,
        List.mem_cons, List.not_mem_nil, or_false] at hact
      rcases hact with rfl | rfl | rfl | rfl <;>
        exact ⟨(fun _ h => by cases h), rfl, rfl, rfl, rfl, rfl⟩)
  have heval : ((Run.run (@Ui.step Sample.layout) (opened Sample.postDeps.booted .inbox {})
      Sample.begunLetter).any fun u =>
        decide (u.screen = .composeWrite ∧ u.draftOpen = true ∧ u.desk.text = ⟨"", "h"⟩) &&
          (@Ui.step Sample.layout u Sample.busyRoadAt).any fun v =>
            decide (v.screen = .fault ∧ v.deps.outbox = some {} ∧
              v.deps.drafts = some (.holding ⟨"c_01", "", "", 0⟩))) = true := by
    decide +kernel
  obtain ⟨u, hrun, hu⟩ := Run.exists_of_any heval
  obtain ⟨hbefore, hafter⟩ := Bool.and_eq_true_iff.1 hu
  obtain ⟨hwrite, hopen, htext⟩ := of_decide_eq_true hbefore
  obtain ⟨v, hv, hfault⟩ := (Option.any_eq_true _ _).1 hafter
  obtain ⟨hscreen, houtbox, hdrafts⟩ := of_decide_eq_true hfault
  have hlast := ((hmeets.append hrun).2.1 v hv).1.leaving hwrite (by rw [hscreen]; exact nofun)
    hopen (by rw [htext]; decide)
  rw [htext] at hlast
  rcases hlast with ⟨s, draft, hs, hslot, hdraft⟩ | ⟨b, hb, e, he, -⟩
  · obtain rfl := Option.some.inj (hdrafts.symm.trans hs)
    obtain rfl := Option.some.inj hslot
    exact absurd hdraft (by decide)
  · obtain rfl := Option.some.inj (houtbox.symm.trans hb)
    cases he

end Chaskiwasi.Device
