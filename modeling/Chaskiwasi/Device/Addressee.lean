import Chaskiwasi.Device.Desk
import Chaskiwasi.Device.Locked

/-!
# To whom a letter goes

A letter is begun to a person, who is shown while it is written.  The composition stays open behind
the other screens, with its person, and the picker and the outbox can be reached from it.  What is
asked of them: a person, once there, is replaced only by the answer to the question about the draft
slot.

Two handlers replace it.  The picker attaches whoever is chosen to an open composition, meant for a
resumed draft that had no person yet; it does not look whether there is one.  The outbox reopens a
rejected letter over a composition that has not reached the draft slot.  A run keeps every letter
with its person if and only if neither happens to another person's text.
-/

namespace Chaskiwasi.Device

namespace Ui

/-- There is an open composition with something in it. -/
def Writing (u : Ui) : Prop := u.draftOpen = true ∧ ¬ (u.body = "" ∧ u.subject = "")

instance (u : Ui) : Decidable u.Writing := inferInstanceAs (Decidable (_ ∧ _))

end Ui

/-- The question about the draft slot is answered. -/
def Resolves (u : Ui) (act : UiAct) : Prop :=
  u.screen = .draftConflict ∧ act.key? = some .enter

instance (u : Ui) (act : UiAct) : Decidable (Resolves u act) :=
  inferInstanceAs (Decidable (_ ∧ _))

/-- The interface, with the person who was shown when the text of the open composition was begun;
empty while there is no text, or nobody to it. -/
structure Begun where
  ui : Ui
  shown : String := ""

namespace Begun

/-- Text that is begun, or taken up by the child's own answer, is to whoever is shown then. -/
def shownAfter (b : Begun) (act : UiAct) (v : Ui) : String :=
  if v.Writing then if b.shown = "" ∨ Resolves b.ui act then v.contactID else b.shown else ""

def step [Layout] (b : Begun) (act : UiAct) : Option Begun :=
  (b.ui.step act).map fun v => ⟨v, b.shownAfter act v⟩

end Begun

/-- The open composition keeps its person, unless it had none or the child answered the question. -/
def KeepsContact (u : Ui) (act : UiAct) (v : Ui) : Prop :=
  u.Writing → v.draftOpen = true →
    v.contactID = u.contactID ∨ u.contactID = "" ∨ Resolves u act

/-- A letter that a key puts in the outbox is to the person it was begun to. -/
def SendsAsBegun (b : Begun) (act : UiAct) (v : Ui) : Prop :=
  b.shown ≠ "" → act.key? = some .enter →
    ∀ o, v.deps.outbox = some o → ∀ e ∈ o.files,
      (∀ o', b.ui.deps.outbox = some o' → e ∉ o'.files) → e.contactID = b.shown

def Faithful [Layout] (b : Begun) (act : UiAct) : Prop :=
  ∀ v, b.ui.step act = some v → KeepsContact b.ui act v ∧ SendsAsBegun b act v

/-- Whom Enter puts to an open composition: the one chosen in the picker, or the one of a rejected
letter that is reopened while nothing is pending in the slot. -/
inductive Assigns (u : Ui) (act : UiAct) : String → Prop
  | picked (c : MergedContact) (h : u.screen = .composePick) (hkey : act.key? = some .enter)
      (hc : u.picker[u.selected]? = some c) : Assigns u act c.id
  | reopened (q : OutboxEntry) (drafts : DraftStore) (h : u.screen = .outbox)
      (hkey : act.key? = some .enter) (hq : u.queued[u.selected]? = some q)
      (hrejected : q.rejected = true) (hdrafts : u.deps.drafts = some drafts)
      (hfree : drafts.pending = false) (hok : act.io.saveDraft.ok = true) :
      Assigns u act q.contactID

/-- Another person is put to text that has one. -/
def Readdresses (u : Ui) (act : UiAct) : Prop :=
  u.Writing ∧ u.contactID ≠ "" ∧ ∃ id, Assigns u act id ∧ id ≠ u.contactID

section Person

variable [Layout] {u v : Ui} {act : UiAct} {p : Pending} {io : UiIO}

/-! ## One event -/

omit [Layout] in
lemma contactID_startDraft (u : Ui) (p : Pending) (io : UiIO) :
    ((u.startDraft p io).contactID = u.contactID ∧ (u.startDraft p io).draftOpen = u.draftOpen) ∨
      (u.startDraft p io).contactID = p.contactID ∧ (u.startDraft p io).draftOpen = true ∧
        ∃ drafts, u.deps.drafts = some drafts ∧ drafts.pending = false ∧
          io.saveDraft.ok = true := by
  rcases u.startDraft_cases p io with
    ⟨-, hdesk⟩ | ⟨drafts, hdrafts, ⟨-, hdesk⟩ | ⟨hfree, hok, hdesk⟩ | ⟨-, -, hdesk⟩⟩
  · exact Or.inl ⟨congrArg Desk.contactID hdesk, congrArg Desk.draftOpen hdesk⟩
  · exact Or.inl ⟨congrArg Desk.contactID hdesk, congrArg Desk.draftOpen hdesk⟩
  · exact Or.inr ⟨congrArg Desk.contactID hdesk, congrArg Desk.draftOpen hdesk,
      drafts, hdrafts, hfree, hok⟩
  · exact Or.inl ⟨congrArg Desk.contactID hdesk, congrArg Desk.draftOpen hdesk⟩

omit [Layout] in
@[simp] lemma contactID_setFieldText (u : Ui) (text : String) :
    (u.setFieldText text).contactID = u.contactID := by
  unfold Ui.setFieldText
  cases u.field <;> rfl

omit [Layout] in
/-- Sending closes the composition, or leaves its person. -/
lemma contactID_send (u : Ui) (io : UiIO) :
    (u.send io).contactID = u.contactID ∨ (u.send io).draftOpen = false := by
  rcases u.send_cases io with
    ⟨-, hdesk⟩ | ⟨b, -, -, ⟨-, hdesk⟩ | ⟨-, -, -, hdesk⟩ | ⟨-, -, -, hdesk⟩ | ⟨-, -, hdesk⟩⟩
  · exact Or.inl (congrArg Desk.contactID hdesk)
  · exact Or.inl ((congrArg Desk.contactID hdesk).trans (Ui.contactID_autosaveDraft u io))
  · exact Or.inr (congrArg Desk.draftOpen hdesk)
  · exact Or.inl (congrArg Desk.contactID hdesk)
  · exact Or.inl (congrArg Desk.contactID hdesk)

lemma contactID_of_effect (h : Ui.Effect u act v) (hopen : u.draftOpen = true) :
    v.contactID = u.contactID ∨ v.draftOpen = false ∨ Resolves u act ∨
      Assigns u act v.contactID := by
  cases h with
  | stays | fields | adjusts | background => exact Or.inl rfl
  | goes => exact Or.inl (Ui.contactID_goTo u _)
  | offers => exact Or.inl (Ui.contactID_goTo _ _)
  | edits text => exact Or.inl (contactID_setFieldText u text)
  | saves => exact Or.inl (Ui.contactID_autosaveDraft u act.io)
  | leaves => exact Or.inl ((Ui.contactID_goTo _ _).trans (Ui.contactID_autosaveDraft u act.io))
  | attaches c hscreen hkey _ hc =>
      rw [Ui.contactID_goTo, Ui.contactID_autosaveDraft]
      exact Or.inr (Or.inr (Or.inr (.picked c hscreen hkey hc)))
  | begins c _ _ hclosed =>
      rw [hclosed] at hopen
      cases hopen
  | reopens q hscreen hkey hq hrejected =>
      rcases contactID_startDraft u ⟨.recompose, q.contactID, q.subject, q.body, q.localID⟩ act.io
        with ⟨hcontact, -⟩ | ⟨hcontact, -, drafts, hdrafts, hfree, hok⟩
      · exact Or.inl hcontact
      · rw [hcontact]
        exact Or.inr (Or.inr (Or.inr
          (.reopened q drafts hscreen hkey hq hrejected hdrafts hfree hok)))
  | sends =>
      rcases contactID_send u act.io with hcontact | hclosed
      · exact Or.inl hcontact
      · exact Or.inr (Or.inl hclosed)
  | keeps hscreen hkey | drops hscreen hkey => exact Or.inr (Or.inr (Or.inl ⟨hscreen, hkey⟩))

omit [Layout] in
lemma assigns_of_noted {id : String} (h : Assigns (u.noted act) act id) : Assigns u act id := by
  obtain ⟨k, m, hnoted⟩ := u.noted_eq act
  rw [hnoted] at h
  cases h with
  | picked c hscreen hkey hc => exact .picked c hscreen hkey hc
  | reopened q drafts hscreen hkey hq hrejected hdrafts hfree hok =>
      exact .reopened q drafts hscreen hkey hq hrejected hdrafts hfree hok

omit [Layout] in
lemma resolves_of_noted (h : Resolves (u.noted act) act) : Resolves u act := by
  obtain ⟨k, m, hnoted⟩ := u.noted_eq act
  rw [hnoted] at h
  exact h

/-- The person of an open composition is replaced only by the answer to the question, or by whoever
Enter puts to it. -/
theorem contactID_of_step (h : u.step act = some v) (hopen : u.draftOpen = true)
    (hstill : v.draftOpen = true) :
    v.contactID = u.contactID ∨ Resolves u act ∨ Assigns u act v.contactID := by
  obtain ⟨w, heffect, hdesk⟩ := Ui.step_effect h
  have hnoted := u.desk_noted act
  have hcontact : v.contactID = w.contactID := congrArg Desk.contactID hdesk
  have hwopen : w.draftOpen = true := (congrArg Desk.draftOpen hdesk).symm.trans hstill
  rw [hcontact]
  rcases contactID_of_effect heffect ((congrArg Desk.draftOpen hnoted).trans hopen) with
    hsame | hclosed | hresolves | hassigns
  · exact Or.inl (hsame.trans (congrArg Desk.contactID hnoted))
  · rw [hclosed] at hwopen
    cases hwopen
  · exact Or.inr (Or.inl (resolves_of_noted hresolves))
  · exact Or.inr (Or.inr (assigns_of_noted hassigns))

/-! ## What is sent -/

omit [Layout] in
lemma mem_files_discard {b : Outbox} {localID : String} {o : WriteOutcome} {e : OutboxEntry}
    (he : e ∈ (b.discard localID o).1.files) : e ∈ b.files := by
  unfold Outbox.discard at he
  split at he
  · exact he
  · unfold Outbox.erase at he
    dsimp only at he
    split_ifs at he
    · exact he
    · exact List.mem_of_mem_filter he
    · exact List.mem_of_mem_filter he
    · exact he

omit [Layout] in
/-- Opening a letter puts none in the outbox. -/
lemma mem_files_startDraft {o : Outbox} {e : OutboxEntry}
    (h : (u.startDraft p io).deps.outbox = some o) (he : e ∈ o.files) :
    ∃ o', u.deps.outbox = some o' ∧ e ∈ o'.files := by
  rcases u.startDraft_cases p io with
    ⟨-, hdesk⟩ | ⟨drafts, -, ⟨-, hdesk⟩ | ⟨-, -, hdesk⟩ | ⟨-, -, hdesk⟩⟩
  · exact ⟨o, (congrArg Desk.outbox hdesk).symm.trans h, he⟩
  · exact ⟨o, (congrArg Desk.outbox hdesk).symm.trans h, he⟩
  · have houtbox := (congrArg Desk.outbox hdesk).symm.trans h
    dsimp only [Desk.openCompose, Desk.goTo] at houtbox
    split_ifs at houtbox
    · obtain ⟨b, hb, rfl⟩ := Option.map_eq_some_iff.1 houtbox
      exact ⟨b, hb, mem_files_discard he⟩
    · exact ⟨o, houtbox, he⟩
  · exact ⟨o, (congrArg Desk.outbox hdesk).symm.trans h, he⟩

omit [Layout] in
/-- Whatever sending puts in the outbox is the open composition. -/
lemma mem_files_send {o : Outbox} {e : OutboxEntry} (h : (u.send io).deps.outbox = some o)
    (he : e ∈ o.files) :
    (∃ o', u.deps.outbox = some o' ∧ e ∈ o'.files) ∨ ∃ b, e = u.finished b io := by
  have hinsert : ∀ b : Outbox, u.deps.outbox = some b →
      some ((b.mint io.mintLocalID).insert (u.finished b io) io.addLetter) = some o →
      (∃ o', u.deps.outbox = some o' ∧ e ∈ o'.files) ∨ ∃ b, e = u.finished b io := by
    rintro b hb heq
    obtain rfl := Option.some.inj heq
    simp only [Outbox.insert] at he
    split_ifs at he
    · rcases Keyed.mem_of_mem_put he with rfl | he
      · exact Or.inr ⟨b, rfl⟩
      · exact Or.inl ⟨b, hb, he⟩
    · exact Or.inl ⟨b, hb, he⟩
  rcases u.send_cases io with
    ⟨-, hdesk⟩ | ⟨b, -, hb, ⟨-, hdesk⟩ | ⟨-, -, -, hdesk⟩ | ⟨-, -, -, hdesk⟩ | ⟨-, -, hdesk⟩⟩
  · exact Or.inl ⟨o, (congrArg Desk.outbox hdesk).symm.trans h, he⟩
  · have houtbox := (congrArg Desk.outbox hdesk).symm.trans h
    rw [Ui.desk_autosaveDraft] at houtbox
    exact Or.inl ⟨o, (Desk.outbox_autosaveDraft _ _ _).symm.trans houtbox, he⟩
  · exact hinsert b hb ((congrArg Desk.outbox hdesk).symm.trans h)
  · exact hinsert b hb ((congrArg Desk.outbox hdesk).symm.trans h)
  · have houtbox := (congrArg Desk.outbox hdesk).symm.trans h
    obtain rfl := Option.some.inj houtbox
    exact Or.inl ⟨b, hb, he⟩

lemma mem_files_of_effect {o : Outbox} {e : OutboxEntry} (h : Ui.Effect u act v)
    (hkey : act.key? = some .enter) (ho : v.deps.outbox = some o) (he : e ∈ o.files) :
    (∃ o', u.deps.outbox = some o' ∧ e ∈ o'.files) ∨ ∃ b, e = u.finished b act.io := by
  cases h with
  | stays | fields | adjusts => exact Or.inl ⟨o, ho, he⟩
  | goes | offers =>
      rw [Ui.outbox_goTo] at ho
      exact Or.inl ⟨o, ho, he⟩
  | edits text =>
      refine Or.inl ⟨o, ?_, he⟩
      rw [← ho]
      unfold Ui.setFieldText
      cases u.field <;> rfl
  | saves => exact Or.inl ⟨o, (Ui.outbox_autosaveDraft _ _).symm.trans ho, he⟩
  | leaves | attaches =>
      rw [Ui.outbox_goTo, Ui.outbox_autosaveDraft] at ho
      exact Or.inl ⟨o, ho, he⟩
  | begins | reopens => exact Or.inl (mem_files_startDraft ho he)
  | sends => exact mem_files_send ho he
  | keeps =>
      rcases u.keepPendingDraft_cases act.io with ⟨-, hdesk⟩ | ⟨draft, -, hdesk⟩
      · exact Or.inl ⟨o, (congrArg Desk.outbox hdesk).symm.trans ho, he⟩
      · exact Or.inl ⟨o, (congrArg Desk.outbox hdesk).symm.trans ho, he⟩
  | drops =>
      rw [Ui.dropPendingDraft_eq] at ho
      split_ifs at ho
      · rw [Ui.outbox_goTo] at ho
        exact Or.inl ⟨o, ho, he⟩
      · exact Or.inl (mem_files_startDraft (u := u.dropped act.io) ho he)
  | background deps hevent =>
      rw [UiAct.key?, hevent] at hkey
      cases hkey

/-- Whatever Enter puts in the outbox is the open composition. -/
theorem mem_files_of_step {o : Outbox} {e : OutboxEntry} (h : u.step act = some v)
    (hkey : act.key? = some .enter) (ho : v.deps.outbox = some o) (he : e ∈ o.files)
    (hnew : ∀ o', u.deps.outbox = some o' → e ∉ o'.files) : ∃ b, e = u.finished b act.io := by
  obtain ⟨w, heffect, hdesk⟩ := Ui.step_effect h
  have hnoted := u.desk_noted act
  rcases mem_files_of_effect heffect hkey ((congrArg Desk.outbox hdesk).symm.trans ho) he with
    ⟨o', ho', he'⟩ | ⟨b, hfinished⟩
  · exact absurd he' (hnew o' ((congrArg Desk.outbox hnoted).symm.trans ho'))
  · obtain ⟨k, m, heq⟩ := u.noted_eq act
    rw [heq] at hfinished
    exact ⟨b, hfinished⟩

/-! ## The two ways to another person -/

lemma desk_key (u : Ui) (e : KeyEvent) (io : UiIO) :
    (u.key e io).desk = ((u.touched e io).keyScreen e io).1.desk := by
  unfold Ui.key
  dsimp only
  split_ifs
  · exact Ui.desk_rebuild _
  · exact Ui.desk_present _ _

omit [Layout] in
lemma key_of_enter (hkey : act.key? = some .enter) : ∃ e, act.event = .key e ∧ e.key = .enter := by
  unfold UiAct.key? at hkey
  cases hevent : act.event with
  | key e =>
      rw [hevent] at hkey
      exact ⟨e, rfl, Option.some.inj hkey⟩
  | tick | showFault | autosaveDraft | background =>
      rw [hevent] at hkey
      cases hkey

/-- Whoever Enter puts to an open composition is its person afterwards. -/
lemma contactID_of_assigns {id : String} (hopen : u.draftOpen = true) (h : Assigns u act id) :
    ∃ v, u.step act = some v ∧ v.contactID = id ∧ v.draftOpen = true := by
  have hkey : act.key? = some .enter := by
    cases h with
    | picked _ _ hkey _ | reopened _ _ _ hkey _ _ _ _ _ => exact hkey
  obtain ⟨e, hevent, henter⟩ := key_of_enter hkey
  suffices hpress : ((u.touched e act.io).keyScreen e act.io).1.contactID = id ∧
      ((u.touched e act.io).keyScreen e act.io).1.draftOpen = true by
    have hdesk := desk_key u e act.io
    exact ⟨u.key e act.io, by simp only [Ui.step, hevent],
      (congrArg Desk.contactID hdesk).trans hpress.1,
      (congrArg Desk.draftOpen hdesk).trans hpress.2⟩
  cases h with
  | picked c hscreen _ hc =>
      have hrow : (u.touched e act.io).picker[(u.touched e act.io).selected]? = some c := hc
      simp only [Ui.keyScreen, show (u.touched e act.io).screen = .composePick from hscreen,
        Ui.keyPick, henter, hrow, show (u.touched e act.io).draftOpen = true from hopen, if_true,
        Ui.contactID_goTo, Ui.draftOpen_goTo, Ui.contactID_autosaveDraft,
        Ui.draftOpen_autosaveDraft]
      exact ⟨trivial, trivial⟩
  | reopened q drafts hscreen _ hq hrejected hdrafts hfree hok =>
      have hrow : (u.touched e act.io).queued[(u.touched e act.io).selected]? = some q := hq
      simp only [Ui.keyScreen, show (u.touched e act.io).screen = .outbox from hscreen,
        Ui.keyOutbox, henter, hrow, hrejected, if_true]
      rcases (u.touched e act.io).startDraft_cases
          ⟨.recompose, q.contactID, q.subject, q.body, q.localID⟩ act.io with
        ⟨hnone, -⟩ | ⟨d, hd, ⟨hpending, -⟩ | ⟨-, -, hdesk⟩ | ⟨-, hfails, -⟩⟩
      · rw [show (u.touched e act.io).deps.drafts = some drafts from hdrafts] at hnone
        cases hnone
      · obtain rfl : drafts = d := Option.some.inj (hdrafts.symm.trans hd)
        rw [hfree] at hpending
        cases hpending
      · exact ⟨congrArg Desk.contactID hdesk, congrArg Desk.draftOpen hdesk⟩
      · rw [hok] at hfails
        cases hfails

/-! ## Runs -/

/-- The person shown when the text was begun is still the one it is to. -/
def Begun.Kept (b : Begun) : Prop := b.shown ≠ "" → b.ui.Writing ∧ b.ui.contactID = b.shown

variable {b b' : Begun}

lemma Begun.step_eq_some (h : b.step act = some b') :
    b.ui.step act = some b'.ui ∧ b'.shown = b.shownAfter act b'.ui := by
  obtain ⟨w, hw, rfl⟩ := Option.map_eq_some_iff.1 h
  exact ⟨hw, rfl⟩

lemma Begun.Kept.keeps_iff (hb : b.Kept) :
    Faithful b act ↔ ¬ Readdresses b.ui act := by
  constructor
  · rintro hfaithful ⟨hwriting, hperson, id, hassigns, hother⟩
    obtain ⟨w, hw, hid, hopen⟩ := contactID_of_assigns hwriting.1 hassigns
    rcases (hfaithful w hw).1 hwriting hopen with hsame | hnobody | ⟨hscreen, -⟩
    · exact hother (hid.symm.trans hsame)
    · exact hperson hnobody
    · cases hassigns with
      | picked c hpick _ _ =>
          rw [hpick] at hscreen
          cases hscreen
      | reopened q drafts houtbox _ _ _ _ _ _ =>
          rw [houtbox] at hscreen
          cases hscreen
  · intro hsafe v hv
    constructor
    · intro hwriting hopen
      by_cases hperson : b.ui.contactID = ""
      · exact Or.inr (Or.inl hperson)
      · rcases contactID_of_step hv hwriting.1 hopen with hsame | hresolves | hassigns
        · exact Or.inl hsame
        · exact Or.inr (Or.inr hresolves)
        · by_contra hchanged
          refine hsafe ⟨hwriting, hperson, v.contactID, hassigns, fun heq => ?_⟩
          exact hchanged (Or.inl heq)
    · intro hshown hkey o ho e he hnew
      obtain ⟨o', rfl⟩ := mem_files_of_step hv hkey ho he hnew
      exact (hb hshown).2

/-- One event keeps the person, unless it puts another one to the text. -/
lemma Begun.Kept.step (hb : b.Kept) (hsafe : ¬ Readdresses b.ui act) (h : b.step act = some b') :
    b'.Kept := by
  obtain ⟨hstep, hshown⟩ := Begun.step_eq_some h
  intro hsome
  rw [hshown] at hsome ⊢
  unfold Begun.shownAfter at hsome ⊢
  by_cases hwriting : b'.ui.Writing
  · rw [if_pos hwriting] at hsome ⊢
    refine ⟨hwriting, ?_⟩
    by_cases hfresh : b.shown = "" ∨ Resolves b.ui act
    · rw [if_pos hfresh]
    · rw [if_neg hfresh]
      rw [not_or] at hfresh
      obtain ⟨hbefore, hcontact⟩ := hb hfresh.1
      have hkeeps := (hb.keeps_iff.2 hsafe b'.ui hstep).1 hbefore hwriting.1
      rcases hkeeps with hsame | hnobody | hresolves
      · exact hsame.trans hcontact
      · exact absurd (hcontact.symm.trans hnobody) hfresh.1
      · exact absurd hresolves hfresh.2
  · rw [if_neg hwriting] at hsome
    exact absurd rfl hsome

/-- From the opening of a session on, at every event, an open composition with text keeps the person
it has, but for the child's own answer, and what is sent is to the person it was begun to. -/
def EveryLetterFaithful : Prop :=
  ∀ (deps : Deps) (initial : Screen) (io : UiIO) (acts : List UiAct),
    Run.Meets Begun.step Faithful ⟨opened deps initial io, ""⟩ acts

/-- **A letter goes to whom it was written exactly while no other person is put to it.**  In every
run of events from the opening of a session, every open composition with text keeps its person, and
every letter goes to whoever was shown when it was begun, if and only if the picker and the outbox
never put another person to text that has one. -/
theorem addressed_iff (deps : Deps) (initial : Screen) (io : UiIO) (acts : List UiAct) :
    Run.Meets Begun.step Faithful ⟨opened deps initial io, ""⟩ acts ↔
      Run.Meets Begun.step (fun b act => ¬ Readdresses b.ui act)
        ⟨opened deps initial io, ""⟩ acts :=
  Run.meets_congr_of_meets (I := Begun.Kept) (fun _ _ _ hb hsafe h => hb.step hsafe h)
    (fun _ _ hb => hb.keeps_iff) fun hshown => absurd rfl hshown

end Person

namespace Sample

/-- Two people to write to. -/
def postDeps : Deps where
  outbox := some {}
  drafts := some {}
  settings := some {}
  contacts := some
    { snapshot :=
        ⟨1, [⟨"c_01", "Rosa", true, false, 0, ""⟩, ⟨"c_02", "Tomas", true, false, 1, ""⟩]⟩ }

/-- A letter is begun to the one, the child steps out of it, and goes to the other. -/
def steppedOut : List UiAct :=
  [⟨.key ⟨.right, 0⟩, {}⟩, ⟨.key ⟨.enter, 0⟩, {}⟩, ⟨.key ⟨.char, 104⟩, {}⟩, ⟨.key ⟨.back, 0⟩, {}⟩,
    ⟨.key ⟨.down, 0⟩, {}⟩]

end Sample

/-- A letter begun to one person, left and taken up through another, is to the other. -/
theorem picked_anew_readdresses : ¬ @EveryLetterFaithful Sample.layout := by
  intro hclaim
  have hmeets := hclaim Sample.postDeps .inbox {} (Sample.steppedOut ++ [⟨.key ⟨.enter, 0⟩, {}⟩])
  have heval : ((Run.run (@Begun.step Sample.layout) ⟨opened Sample.postDeps .inbox {}, ""⟩
      Sample.steppedOut).any fun b =>
        decide (b.ui.Writing ∧ b.ui.contactID = "c_01" ∧ b.ui.screen = .composePick) &&
          (@Ui.step Sample.layout b.ui ⟨.key ⟨.enter, 0⟩, {}⟩).any fun v =>
            decide (v.draftOpen = true ∧ v.contactID = "c_02")) = true := by
    decide +kernel
  obtain ⟨b, hrun, hb⟩ := Run.exists_of_any heval
  obtain ⟨hbefore, hafter⟩ := Bool.and_eq_true_iff.1 hb
  obtain ⟨hwriting, hrosa, hscreen⟩ := of_decide_eq_true hbefore
  obtain ⟨v, hv, hpicked⟩ := (Option.any_eq_true _ _).1 hafter
  obtain ⟨hopen, htomas⟩ := of_decide_eq_true hpicked
  have hlast := (hmeets.append hrun).2.1
  rcases (hlast v hv).1 hwriting hopen with hsame | hnobody | ⟨hconflict, -⟩
  · rw [htomas, hrosa] at hsame
    exact absurd hsame (by decide)
  · rw [hrosa] at hnobody
    exact absurd hnobody (by decide)
  · rw [hscreen] at hconflict
    cases hconflict

end Chaskiwasi.Device
