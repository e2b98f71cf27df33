import Chaskiwasi.Device.Screens

/-!
# What an event can do to a letter that is being written

Thirteen screens share one state, but few of their keys touch the letter that is being written.
`Effect` lists what an event can do to it, once for all screens: type into it, save it, leave it,
put a person to it, open another one over it, send it, or answer the question about the draft slot.
Everything else stays, or goes to another screen.  `step_effect` is the case analysis, and what is
said of letters and drafts over runs of events is read off it.

What is painted, and which row is selected, does not matter here: states are compared by their
`desk`.
-/

namespace Chaskiwasi.Device

/-- The screens that belong to the letter that is being written. -/
def Screen.OfLetter (s : Screen) : Bool := s = .composeWrite || s = .draftConflict

lemma Screen.ne_of_ofLetter {s : Screen} (h : s.OfLetter = false) :
    s ≠ .composeWrite ∧ s ≠ .draftConflict := by
  constructor <;> rintro rfl <;> cases h

/-- The letter that is being written, the screen, and the stores behind it. -/
@[ext]
structure Desk where
  screen : Screen
  queued : List OutboxEntry
  drafts : Option DraftStore
  outbox : Option Outbox
  settings : Option Settings
  contactID : String
  subject : String
  body : String
  field : Field
  draftOpen : Bool
  composeMax : ℕ
  pending : Pending

namespace Desk

/-- Another screen is shown; the outbox screen rereads its list. -/
def goTo (d : Desk) (s : Screen) : Desk :=
  { d with
    screen := s
    queued := if s = .outbox then (d.outbox.map Outbox.all).getD [] else d.queued }

/-- The composition on the desk is saved to the slot, if there is one. -/
def autosaveDraft (d : Desk) (at' : ℤ) (o : WriteOutcome) : Desk :=
  if d.draftOpen then
    { d with
      drafts := d.drafts.map fun s => (s.save ⟨d.contactID, d.subject, d.body, at'⟩ o).1 }
  else d

@[simp] lemma outbox_autosaveDraft (d : Desk) (at' : ℤ) (o : WriteOutcome) :
    (d.autosaveDraft at' o).outbox = d.outbox := by
  unfold autosaveDraft
  split_ifs <;> rfl

@[simp] lemma draftOpen_autosaveDraft (d : Desk) (at' : ℤ) (o : WriteOutcome) :
    (d.autosaveDraft at' o).draftOpen = d.draftOpen := by
  unfold autosaveDraft
  split_ifs <;> rfl

@[simp] lemma contactID_autosaveDraft (d : Desk) (at' : ℤ) (o : WriteOutcome) :
    (d.autosaveDraft at' o).contactID = d.contactID := by
  unfold autosaveDraft
  split_ifs <;> rfl

def openCompose (d : Desk) (contactID subject body : String) : Desk :=
  { d with
    contactID := contactID
    subject := subject
    body := body
    field := .body
    draftOpen := true
    composeMax := (d.settings.map fun (s : Settings) => s.maxLetterChars.toNat).getD 500 }.goTo
      (if contactID = "" then .composePick else .composeWrite)

def closeCompose (d : Desk) : Desk :=
  { d with contactID := "", subject := "", body := "", draftOpen := false }

end Desk

namespace Ui

def desk (u : Ui) : Desk where
  screen := u.screen
  queued := u.queued
  drafts := u.deps.drafts
  outbox := u.deps.outbox
  settings := u.deps.settings
  contactID := u.contactID
  subject := u.subject
  body := u.body
  field := u.field
  draftOpen := u.draftOpen
  composeMax := u.composeMax
  pending := u.pending

section Frames

variable (u : Ui)

@[simp] lemma desk_goTo (s : Screen) : (u.goTo s).desk = u.desk.goTo s := by cases s <;> rfl

@[simp] lemma desk_rebuild : u.rebuild.desk = u.desk := rfl

@[simp] lemma desk_present (r : Refresh) : (u.present r).desk = u.desk := by
  unfold present
  dsimp only
  by_cases hpanel : u.rebuild.deps.panel = true
  · rw [if_pos hpanel]
    rfl
  · rw [if_neg hpanel]
    rfl

@[simp] lemma desk_move (delta : ℤ) (count : ℕ) : (u.move delta count).desk = u.desk := by
  unfold move
  split_ifs <;> rfl

@[simp] lemma desk_openCompose (contactID subject body : String) (io : UiIO) :
    (u.openCompose contactID subject body io).desk = u.desk.openCompose contactID subject body :=
  desk_goTo _ _

@[simp] lemma desk_autosaveDraft (io : UiIO) :
    (u.autosaveDraft io).desk = u.desk.autosaveDraft (stamp io) io.saveDraft := by
  unfold autosaveDraft Desk.autosaveDraft
  by_cases hopen : u.draftOpen = true
  · rw [if_pos hopen, if_pos (show u.desk.draftOpen = true from hopen)]
    cases hdrafts : u.deps.drafts with
    | none =>
        rw [show u.desk.drafts = none from hdrafts]
        exact congrArg (fun x => ({ u.desk with drafts := x } : Desk)) hdrafts
    | some drafts =>
        rw [show u.desk.drafts = some drafts from hdrafts]
        rfl
  · rw [if_neg hopen, if_neg (show ¬ u.desk.draftOpen = true from hopen)]

@[simp] lemma contactID_goTo (s : Screen) : (u.goTo s).contactID = u.contactID :=
  congrArg Desk.contactID (u.desk_goTo s)

@[simp] lemma draftOpen_goTo (s : Screen) : (u.goTo s).draftOpen = u.draftOpen :=
  congrArg Desk.draftOpen (u.desk_goTo s)

@[simp] lemma body_goTo (s : Screen) : (u.goTo s).body = u.body :=
  congrArg Desk.body (u.desk_goTo s)

@[simp] lemma composeMax_goTo (s : Screen) : (u.goTo s).composeMax = u.composeMax :=
  congrArg Desk.composeMax (u.desk_goTo s)

@[simp] lemma outbox_goTo (s : Screen) : (u.goTo s).deps.outbox = u.deps.outbox :=
  congrArg Desk.outbox (u.desk_goTo s)

@[simp] lemma contactID_autosaveDraft (io : UiIO) :
    (u.autosaveDraft io).contactID = u.contactID :=
  (congrArg Desk.contactID (u.desk_autosaveDraft io)).trans (Desk.contactID_autosaveDraft _ _ _)

@[simp] lemma draftOpen_autosaveDraft (io : UiIO) :
    (u.autosaveDraft io).draftOpen = u.draftOpen :=
  (congrArg Desk.draftOpen (u.desk_autosaveDraft io)).trans (Desk.draftOpen_autosaveDraft _ _ _)

@[simp] lemma outbox_autosaveDraft (io : UiIO) :
    (u.autosaveDraft io).deps.outbox = u.deps.outbox :=
  (congrArg Desk.outbox (u.desk_autosaveDraft io)).trans (Desk.outbox_autosaveDraft _ _ _)

/-- Opening a letter over the slot: refused where there is no slot, asked about where a draft is
pending, and otherwise done if the slot can be written. -/
lemma startDraft_cases (p : Pending) (io : UiIO) :
    (u.deps.drafts = none ∧ (u.startDraft p io).desk = u.desk) ∨
    ∃ drafts, u.deps.drafts = some drafts ∧
      ((drafts.pending = true ∧
        (u.startDraft p io).desk = { u.desk with pending := p }.goTo .draftConflict) ∨
      (drafts.pending = false ∧ io.saveDraft.ok = true ∧
        (u.startDraft p io).desk =
          Desk.openCompose
            { u.desk with
              drafts := some (drafts.save ⟨p.contactID, p.subject, p.body, stamp io⟩ io.saveDraft).1
              outbox :=
                if p.kind = .recompose then
                  u.deps.outbox.map fun b => (b.discard p.localID io.discardLetter).1
                else u.deps.outbox }
            p.contactID p.subject p.body) ∨
      (drafts.pending = false ∧ io.saveDraft.ok = false ∧
        (u.startDraft p io).desk =
          { u.desk with
            drafts :=
              some (drafts.save ⟨p.contactID, p.subject, p.body, stamp io⟩ io.saveDraft).1 })) := by
  unfold startDraft
  cases hdrafts : u.deps.drafts with
  | none => exact Or.inl ⟨rfl, rfl⟩
  | some drafts =>
      refine Or.inr ⟨drafts, rfl, ?_⟩
      cases hpending : drafts.pending with
      | true =>
          refine Or.inl ⟨rfl, ?_⟩
          simp only [DraftStore.start, hpending, if_true, desk_goTo]
          exact congrArg (fun x => Desk.goTo { u.desk with drafts := x, pending := p } _)
            hdrafts.symm
      | false =>
          refine Or.inr ?_
          cases hok : io.saveDraft.ok with
          | true =>
              refine Or.inl ⟨rfl, rfl, ?_⟩
              simp only [DraftStore.start, hpending, Bool.false_eq_true, if_false, DraftStore.save,
                hok, desk_openCompose]
              rfl
          | false =>
              refine Or.inr ⟨rfl, rfl, ?_⟩
              simp only [DraftStore.start, hpending, Bool.false_eq_true, if_false, DraftStore.save,
                hok]
              rfl

/-- Sending: refused without a body or an outbox, parked where the outbox is full, and otherwise two
writes. -/
lemma send_cases (io : UiIO) :
    ((u.body = "" ∨ u.deps.outbox = none) ∧ (u.send io).desk = u.desk) ∨
    ∃ b, u.body ≠ "" ∧ u.deps.outbox = some b ∧
      ((outboxCap ≤ b.sendableCount ∧ (u.send io).desk = (u.autosaveDraft io).desk.goTo .outbox) ∨
      (b.sendableCount < outboxCap ∧ io.mintLocalID.ok = true ∧ io.addLetter.ok = true ∧
        (u.send io).desk =
          (Desk.closeCompose
            { u.desk with
              outbox := some ((b.mint io.mintLocalID).insert (u.finished b io) io.addLetter)
              drafts := u.deps.drafts.map fun d => (d.discard io.discardDraft).1 }).goTo
            .outbox) ∨
      (b.sendableCount < outboxCap ∧ io.mintLocalID.ok = true ∧ io.addLetter.ok = false ∧
        (u.send io).desk =
          { u.desk with
            outbox := some ((b.mint io.mintLocalID).insert (u.finished b io) io.addLetter) }) ∨
      (b.sendableCount < outboxCap ∧ io.mintLocalID.ok = false ∧
        (u.send io).desk = { u.desk with outbox := some (b.mint io.mintLocalID) })) := by
  unfold send
  by_cases hbody : u.body = ""
  · rw [if_pos hbody]
    exact Or.inl ⟨Or.inl hbody, rfl⟩
  · rw [if_neg hbody]
    cases houtbox : u.deps.outbox with
    | none => exact Or.inl ⟨Or.inr rfl, rfl⟩
    | some b =>
        refine Or.inr ⟨b, hbody, rfl, ?_⟩
        dsimp only
        by_cases hfull : outboxCap ≤ b.sendableCount
        · refine Or.inl ⟨hfull, ?_⟩
          rw [if_pos hfull, desk_goTo]
          rfl
        · rw [if_neg hfull]
          refine Or.inr ?_
          have hroom : b.sendableCount < outboxCap := by omega
          cases hmint : io.mintLocalID.ok with
          | false => exact Or.inr (Or.inr ⟨hroom, rfl, rfl⟩)
          | true =>
              cases hadd : io.addLetter.ok with
              | false => exact Or.inr (Or.inl ⟨hroom, rfl, rfl, rfl⟩)
              | true =>
                  refine Or.inl ⟨hroom, rfl, rfl, ?_⟩
                  simp only [if_true, desk_goTo]
                  rfl

/-- Keeping the draft of the slot opens it again, where one is there. -/
lemma keepPendingDraft_cases (io : UiIO) :
    (u.deps.drafts.bind DraftStore.load = none ∧
      (u.keepPendingDraft io).desk = { u.desk with pending := {} }.goTo .inbox) ∨
    ∃ draft, u.deps.drafts.bind DraftStore.load = some draft ∧
      (u.keepPendingDraft io).desk =
        { u.desk with pending := {} }.openCompose draft.contactID draft.subject draft.body := by
  unfold keepPendingDraft
  cases hload : u.deps.drafts.bind DraftStore.load with
  | none => exact Or.inl ⟨rfl, desk_goTo _ _⟩
  | some draft => exact Or.inr ⟨draft, rfl, desk_openCompose _ _ _ _ _⟩

/-- What is left when the draft of the slot is dropped. -/
def dropped (io : UiIO) : Ui :=
  closeCompose
    { u with
      deps := { u.deps with drafts := u.deps.drafts.map fun d => (d.discard io.discardDraft).1 }
      pending := {} }

lemma dropPendingDraft_eq (io : UiIO) :
    u.dropPendingDraft io =
      if u.pending.kind = .resume then (u.dropped io).goTo .inbox
      else (u.dropped io).startDraft u.pending io := rfl

end Frames

/-- The event has reached the interface: a key is noted before a screen gets it. -/
def noted (u : Ui) (act : UiAct) : Ui :=
  match act.event with
  | .key e => u.touched e act.io
  | _ => u

@[simp] lemma desk_noted (u : Ui) (act : UiAct) : (u.noted act).desk = u.desk := by
  unfold noted
  split <;> rfl

/-- Only the time and the message are noted. -/
lemma noted_eq (u : Ui) (act : UiAct) :
    ∃ k m, u.noted act = { u with lastKey := k, message := m } := by
  unfold noted
  split
  · exact ⟨_, _, rfl⟩
  · exact ⟨u.lastKey, u.message, rfl⟩

end Ui

/-- The key that is pressed, if one is. -/
def UiAct.key? (act : UiAct) : Option Key :=
  match act.event with
  | .key e => some e.key
  | _ => none

lemma UiAct.key?_of_key {act : UiAct} {e : KeyEvent} {k : Key} (hact : act.event = .key e)
    (hkey : e.key = k) : act.key? = some k := by
  simp only [UiAct.key?, hact, hkey]

namespace Ui

section Effects

variable [Layout]

/-- What a key on the writing screen makes of the text of a field. -/
inductive Edited (u : Ui) : String → Prop
  | appended (codepoint : ℕ) (hroom : Layout.countGraphemes u.fieldText < u.fieldCap)
      (hfits : Layout.countGraphemes (appendCodepoint u.fieldText codepoint) ≤ u.fieldCap) :
      Edited u (appendCodepoint u.fieldText codepoint)
  | truncated (codepoint : ℕ) (hroom : Layout.countGraphemes u.fieldText < u.fieldCap) :
      Edited u (Layout.truncateGraphemes (appendCodepoint u.fieldText codepoint) u.fieldCap)
  | erased : Edited u (Layout.eraseLastGrapheme u.fieldText)

/-- What an event does to the letter that is being written. -/
inductive Effect (u : Ui) (act : UiAct) : Ui → Prop
  | stays : Effect u act u
  /-- Another screen, but none that belongs to a letter; the writing screen is left so for a fault
  only. -/
  | goes (s : Screen) (hs : s.OfLetter = false)
      (h : u.screen = .composeWrite → ∃ k diagnostic, act.event = .showFault k diagnostic) :
      Effect u act (u.goTo s)
  /-- `OfferPendingDraft`. -/
  | offers (h : u.screen = .cover ∨ u.screen = .pin) :
      Effect u act ({ u with pending := { kind := .resume } }.goTo .draftConflict)
  | edits (text : String) (h : u.screen = .composeWrite) (hedited : u.Edited text) :
      Effect u act (u.setFieldText text)
  /-- The other field of the writing screen. -/
  | fields (f : Field) : Effect u act { u with field := f }
  | saves : Effect u act (u.autosaveDraft act.io)
  | leaves (h : u.screen = .composeWrite) :
      Effect u act ((u.autosaveDraft act.io).goTo .composePick)
  | attaches (c : MergedContact) (h : u.screen = .composePick) (hkey : act.key? = some .enter)
      (hopen : u.draftOpen = true) (hc : u.picker[u.selected]? = some c) :
      Effect u act (({ u with contactID := c.id }.autosaveDraft act.io).goTo .composeWrite)
  | begins (c : MergedContact) (h : u.screen = .composePick) (hkey : act.key? = some .enter)
      (hopen : u.draftOpen = false) (hc : u.picker[u.selected]? = some c) :
      Effect u act (u.startDraft { kind := .newLetter, contactID := c.id } act.io)
  | reopens (q : OutboxEntry) (h : u.screen = .outbox) (hkey : act.key? = some .enter)
      (hq : u.queued[u.selected]? = some q) (hrejected : q.rejected = true) :
      Effect u act
        (u.startDraft ⟨.recompose, q.contactID, q.subject, q.body, q.localID⟩ act.io)
  | sends (h : u.screen = .composeWrite) (hkey : act.key? = some .enter) :
      Effect u act (u.send act.io)
  | keeps (h : u.screen = .draftConflict) (hkey : act.key? = some .enter) (hsel : u.selected = 0) :
      Effect u act (u.keepPendingDraft act.io)
  | drops (h : u.screen = .draftConflict) (hkey : act.key? = some .enter) (hsel : u.selected ≠ 0) :
      Effect u act (u.dropPendingDraft act.io)
  /-- The child's own settings. -/
  | adjusts (settings : Option Settings) (h : u.screen = .settings) :
      Effect u act { u with deps := { u.deps with settings := settings } }
  | background (deps : Deps) (h : act.event = .background deps) :
      Effect u act { u with deps := deps }

/-- An effect, up to what is painted and selected. -/
def Does (u : Ui) (act : UiAct) (v : Ui) : Prop :=
  ∃ w, Effect u act w ∧ v.desk = w.desk

variable {u v w : Ui} {act : UiAct} {e : KeyEvent}

lemma Effect.does (h : Effect u act v) : Does u act v := ⟨v, h, rfl⟩

lemma Does.of_desk_eq (h : Does u act w) (hv : v.desk = w.desk) : Does u act v := by
  obtain ⟨w', hw', hdesk⟩ := h
  exact ⟨w', hw', hv.trans hdesk⟩

lemma does_of_desk_eq (h : v.desk = u.desk) : Does u act v := ⟨u, .stays, h⟩

/-- From any screen but the writing screen, a key may lead to any that belongs to no letter. -/
lemma does_goTo (h : u.screen ≠ .composeWrite) (hw : w.desk = u.desk) {s : Screen}
    (hs : s.OfLetter = false) : Does u act (w.goTo s) :=
  ⟨u.goTo s, .goes s hs fun hwrite => absurd hwrite h, by rw [desk_goTo, desk_goTo, hw]⟩

lemma does_offerPendingDraftOr (h : u.screen = .cover ∨ u.screen = .pin) (hw : w.desk = u.desk)
    {s : Screen} (hs : s.OfLetter = false) : Does u act (w.offerPendingDraftOr s) := by
  have hne : u.screen ≠ .composeWrite := by
    rintro heq
    simp [heq] at h
  unfold offerPendingDraftOr
  by_cases hpending : w.deps.drafts.any DraftStore.pending = true
  · rw [if_pos hpending]
    refine ⟨_, .offers h, ?_⟩
    rw [desk_goTo, desk_goTo]
    refine congrArg (fun d => Desk.goTo { d with pending := { kind := .resume } } _) hw
  · rw [if_neg hpending]
    exact does_goTo hne hw hs

/-! ## The screens -/

omit [Layout] in
/-- The four top-level screens belong to no letter. -/
lemma ofLetter_tab (n : ℕ) : (tabs.getD n .inbox).OfLetter = false := by
  have htabs : ∀ s ∈ tabs, s.OfLetter = false := by decide
  rw [List.getD_eq_getElem?_getD]
  cases hn : tabs[n]? with
  | none => rfl
  | some s => exact htabs s (List.mem_of_getElem? hn)

lemma does_keyTabs (h : u.screen ≠ .composeWrite) (count : ℕ) :
    Does u act (u.keyTabs e count) := by
  unfold keyTabs
  cases e.key with
  | up | down => exact does_of_desk_eq (desk_move u _ count)
  | left | right => exact does_goTo h rfl (ofLetter_tab _)
  | none | enter | back | putAway | sync | frontlight | char | erase => exact does_of_desk_eq rfl

lemma does_keyCover (h : u.screen = .cover) : Does u act (u.keyCover e).1 := by
  unfold keyCover
  by_cases hnone : e.key = .none
  · rw [if_pos hnone]
    exact does_of_desk_eq rfl
  · rw [if_neg hnone]
    by_cases hpin : u.pinRequired = true
    · rw [if_pos hpin]
      exact does_goTo (by simp [h]) rfl rfl
    · rw [if_neg hpin]
      exact does_offerPendingDraftOr (Or.inl h) rfl rfl

lemma does_keyPin (h : u.screen = .pin) (io : UiIO) : Does u act (u.keyPin e io).1 := by
  unfold keyPin
  by_cases hbackoff : u.backoffUntil ≠ 0 ∧ io.now < u.backoffUntil
  · rw [if_pos hbackoff]
    exact does_of_desk_eq rfl
  · rw [if_neg hbackoff]
    dsimp only
    cases e.key with
    | enter =>
        dsimp only
        by_cases hok : io.verifyPin = true
        · rw [if_pos hok]
          exact does_offerPendingDraftOr (Or.inr h) (by rfl) rfl
        · rw [if_neg hok]
          exact does_of_desk_eq rfl
    | char =>
        dsimp only
        split_ifs <;> exact does_of_desk_eq rfl
    | none | up | down | left | right | back | putAway | sync | frontlight | erase =>
        exact does_of_desk_eq rfl

lemma does_keyInbox (h : u.screen = .inbox) (io : UiIO) : Does u act (u.keyInbox e io).1 := by
  have hne : u.screen ≠ .composeWrite := by simp [h]
  unfold keyInbox
  cases e.key with
  | enter =>
      dsimp only
      unfold openSelectedLetter
      cases hl : u.letters[u.selected]? with
      | none => exact does_of_desk_eq rfl
      | some l => exact does_goTo hne (by rfl) rfl
  | none | up | down | left | right | back | putAway | sync | frontlight | char | erase =>
      exact does_keyTabs hne _

lemma does_keyRead (h : u.screen = .read) : Does u act (u.keyRead e).1 := by
  unfold keyRead
  cases e.key with
  | back | enter => exact does_goTo (by simp [h]) rfl rfl
  | right | down =>
      dsimp only
      split_ifs <;> exact does_of_desk_eq rfl
  | left | up | none | putAway | sync | frontlight | char | erase => exact does_of_desk_eq rfl

lemma does_keyPick (h : u.screen = .composePick) (hact : act.event = .key e) :
    Does u act (u.keyPick e act.io).1 := by
  have hne : u.screen ≠ .composeWrite := by simp [h]
  unfold keyPick
  cases hkey : e.key with
  | enter =>
      dsimp only
      cases hc : u.picker[u.selected]? with
      | none => exact does_of_desk_eq rfl
      | some c =>
          dsimp only
          by_cases hopen : u.draftOpen = true
          · rw [if_pos hopen]
            exact (Effect.attaches c h (UiAct.key?_of_key hact hkey) hopen hc).does
          · rw [if_neg hopen]
            exact (Effect.begins c h (UiAct.key?_of_key hact hkey) (by simpa using hopen) hc).does
  | back => exact does_goTo hne rfl rfl
  | none | up | down | left | right | putAway | sync | frontlight | char | erase =>
      exact does_keyTabs hne _

lemma does_keyWrite (h : u.screen = .composeWrite) (hact : act.event = .key e) :
    Does u act (u.keyWrite e act.io).1 := by
  have hset : ∀ (text : String) (w : Ui), w.desk = (u.setFieldText text).desk → u.Edited text →
      Does u act w := fun text w hw hedited => (Effect.edits text h hedited).does.of_desk_eq hw
  unfold keyWrite
  cases hkey : e.key with
  | char =>
      dsimp only
      unfold keyWriteChar
      by_cases hfull : u.fieldCap ≤ Layout.countGraphemes u.fieldText
      · rw [if_pos hfull]
        exact does_of_desk_eq rfl
      · rw [if_neg hfull]
        dsimp only
        by_cases hover : u.fieldCap <
            Layout.countGraphemes (appendCodepoint u.fieldText e.codepoint)
        · rw [if_pos hover]
          exact hset _ _ rfl (.truncated e.codepoint (by omega))
        · rw [if_neg hover]
          exact hset _ _ rfl (.appended e.codepoint (by omega) (by omega))
  | erase =>
      dsimp only
      by_cases hempty : u.fieldText = ""
      · rw [if_pos hempty]
        exact does_of_desk_eq rfl
      · rw [if_neg hempty]
        exact hset _ _ rfl .erased
  | back => exact (Effect.leaves h).does
  | up | down => exact (Effect.fields _).does
  | enter => exact (Effect.sends h (UiAct.key?_of_key hact hkey)).does
  | none | left | right | putAway | sync | frontlight => exact does_of_desk_eq rfl

lemma does_keyOutbox (h : u.screen = .outbox) (hact : act.event = .key e) :
    Does u act (u.keyOutbox e act.io).1 := by
  have hne : u.screen ≠ .composeWrite := by simp [h]
  unfold keyOutbox
  cases hkey : e.key with
  | enter =>
      dsimp only
      cases hq : u.queued[u.selected]? with
      | none => exact does_of_desk_eq rfl
      | some q =>
          dsimp only
          by_cases hrejected : q.rejected = true
          · rw [if_pos hrejected]
            exact (Effect.reopens q h (UiAct.key?_of_key hact hkey) hq hrejected).does
          · rw [if_neg hrejected]
            exact does_of_desk_eq rfl
  | back => exact does_goTo hne rfl rfl
  | none | up | down | left | right | putAway | sync | frontlight | char | erase =>
      exact does_keyTabs hne _

lemma does_cycleFont (h : u.screen = .settings) (io : UiIO) : Does u act (u.cycleFont io) := by
  unfold cycleFont
  cases u.deps.settings with
  | none => exact does_of_desk_eq rfl
  | some s =>
      dsimp only
      split_ifs <;> exact (Effect.adjusts _ h).does.of_desk_eq rfl

lemma does_cycleFrontlight (h : u.screen = .settings) (io : UiIO) :
    Does u act (u.cycleFrontlight io) := by
  unfold cycleFrontlight
  cases u.deps.settings with
  | none => exact does_of_desk_eq rfl
  | some s => exact (Effect.adjusts _ h).does

lemma does_keySettings (h : u.screen = .settings) (io : UiIO) :
    Does u act (u.keySettings e io).1 := by
  have hne : u.screen ≠ .composeWrite := by simp [h]
  unfold keySettings
  cases e.key with
  | back => exact does_goTo hne rfl rfl
  | enter =>
      dsimp only
      split
      · exact does_cycleFont h io
      · exact does_cycleFrontlight h io
      · exact does_goTo hne rfl rfl
      · exact does_goTo hne rfl rfl
      · exact does_goTo hne rfl rfl
  | none | up | down | left | right | putAway | sync | frontlight | char | erase =>
      exact does_keyTabs hne _

lemma does_keyFault (h : u.screen = .fault) : Does u act (u.keyFault e).1 := by
  have hne : u.screen ≠ .composeWrite := by simp [h]
  unfold keyFault
  split_ifs
  · exact does_of_desk_eq rfl
  · exact does_goTo hne (by rfl) rfl
  · exact does_of_desk_eq rfl

lemma does_keyConflict (h : u.screen = .draftConflict) (hact : act.event = .key e) :
    Does u act (u.keyConflict e act.io).1 := by
  unfold keyConflict
  cases hkey : e.key with
  | up | down => exact does_of_desk_eq (desk_move u _ 2)
  | enter =>
      dsimp only
      by_cases hsel : u.selected = 0
      · rw [if_pos hsel]
        exact (Effect.keeps h (UiAct.key?_of_key hact hkey) hsel).does
      · rw [if_neg hsel]
        exact (Effect.drops h (UiAct.key?_of_key hact hkey) hsel).does
  | none | left | right | back | putAway | sync | frontlight | char | erase =>
      exact does_of_desk_eq rfl

lemma does_keyContacts (h : u.screen = .settingsContacts) (io : UiIO) :
    Does u act (u.keyContacts e io).1 := by
  have hne : u.screen ≠ .composeWrite := by simp [h]
  unfold keyContacts
  split_ifs with hediting
  · unfold keyNicknameEdit commitNickname
    cases e.key with
    | char | back =>
        dsimp only
        split_ifs <;> exact does_of_desk_eq rfl
    | enter =>
        dsimp only
        split <;> exact does_of_desk_eq rfl
    | none | up | down | left | right | putAway | sync | frontlight | erase =>
        exact does_of_desk_eq rfl
  · cases e.key with
    | up | down => exact does_of_desk_eq (desk_move u _ _)
    | right =>
        dsimp only
        unfold togglePinned
        split <;> exact does_of_desk_eq rfl
    | back => exact does_goTo hne rfl rfl
    | enter =>
        dsimp only
        split <;> exact does_of_desk_eq rfl
    | none | left | putAway | sync | frontlight | char | erase => exact does_of_desk_eq rfl

lemma does_keyLines (h : u.screen ≠ .composeWrite) : Does u act (u.keyLines e).1 := by
  unfold keyLines
  cases e.key with
  | up | down => exact does_of_desk_eq (desk_move u _ _)
  | back | enter => exact does_goTo h rfl rfl
  | none | left | right | putAway | sync | frontlight | char | erase => exact does_of_desk_eq rfl

lemma does_keyScreen (hact : act.event = .key e) :
    Does u act (u.keyScreen e act.io).1 := by
  unfold keyScreen
  cases h : u.screen with
  | cover => exact does_keyCover h
  | pin => exact does_keyPin h _
  | inbox => exact does_keyInbox h _
  | read => exact does_keyRead h
  | composePick => exact does_keyPick h hact
  | composeWrite => exact does_keyWrite h hact
  | outbox => exact does_keyOutbox h hact
  | settings => exact does_keySettings h _
  | fault => exact does_keyFault h
  | draftConflict => exact does_keyConflict h hact
  | settingsContacts => exact does_keyContacts h _
  | settingsLog | settingsAbout => exact does_keyLines (by simp [h])

lemma does_tick : Does u act (u.tick act.io) := by
  obtain ⟨⟨hpin, -⟩, htick⟩ | ⟨-, w, hw, hrest⟩ := u.tick_cases act.io
  · rw [htick]
    exact (does_offerPendingDraftOr (Or.inr hpin) (by rfl) rfl).of_desk_eq (desk_present _ _)
  have hdoes : Does u act w := by
    rcases hw with rfl | rfl
    · exact does_of_desk_eq rfl
    · exact Effect.saves.does
  obtain ⟨-, htick⟩ | ⟨-, ⟨-, htick⟩ | ⟨-, htick⟩⟩ := hrest
  · rw [htick]
    exact hdoes.of_desk_eq (desk_present _ _)
  · rw [htick]
    exact hdoes.of_desk_eq (desk_present _ _)
  · rw [htick]
    exact hdoes

/-- Everything an event can do to the letter that is being written. -/
theorem step_effect (h : u.step act = some v) :
    ∃ w, Effect (u.noted act) act w ∧ v.desk = w.desk := by
  obtain rfl := Option.some.inj h
  unfold noted
  cases hevent : act.event with
  | key e =>
      dsimp only
      unfold key
      dsimp only
      have hdoes := does_keyScreen (u := u.touched e act.io) hevent
      split_ifs
      · exact hdoes.of_desk_eq (desk_rebuild _)
      · exact hdoes.of_desk_eq (desk_present _ _)
  | tick => exact does_tick
  | showFault k diagnostic =>
      refine ⟨u.goTo .fault, .goes _ rfl fun _ => ⟨k, diagnostic, hevent⟩, ?_⟩
      dsimp only [showFault]
      rw [desk_present, desk_goTo, desk_goTo]
      rfl
  | autosaveDraft => exact Effect.saves.does
  | background deps => exact (Effect.background deps hevent).does

end Effects
end Ui
end Chaskiwasi.Device
