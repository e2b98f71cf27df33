import Chaskiwasi.Device.Addressee
import Chaskiwasi.Device.Panel

/-!
# What is on the glass

The panel keeps what was painted last, and a key is answered by painting again.  Letters and
erasures are not: their paint is put off until a word ends or the child pauses, and one flag stands
for it.  The flag belongs to the writing screen, but no screen asks whose it is: as long as it is
set, no key of any screen is answered by a paint.

`Glass` is the interface with what its panel shows.  `Timely` is what is expected of a key: whatever
it turns to is painted before it returns, and only typing waits.  `Batched` is the condition on the
keys that find the flag set.
-/

namespace Chaskiwasi.Device

namespace Ui

section Keys

variable [Layout] (u : Ui) (e : KeyEvent) (io : UiIO)

/-- The refresh that the screen's handler asks for. -/
def asked : Refresh := ((u.touched e io).keyScreen e io).2

/-- The key leads to another screen, or there is a message to show that was not there. -/
def Turns : Prop :=
  (u.key e io).screen ≠ u.screen ∨ (u.key e io).message ≠ (u.touched e io).message

/-- What is expected of a key.  What it turns to is on the panel before it returns, in the way that
the handler asked for; and it leaves a paint for later only on the writing screen, with the same
field. -/
structure Timely : Prop where
  turned : u.Turns e io → (u.key e io).refreshes = u.asked e io :: u.refreshes
  left : (u.key e io).refreshes = u.refreshes →
    u.screen = .composeWrite ∧ (u.key e io).screen = .composeWrite ∧ (u.key e io).field = u.field

/-- The field takes another code point. -/
def HasRoom (codepoint : ℕ) : Prop :=
  Layout.countGraphemes u.fieldText < u.fieldCap ∧
    Layout.countGraphemes (appendCodepoint u.fieldText codepoint) ≤ u.fieldCap

/-- A key of the writing screen that stays there, with the same field and nothing to say, or that
sends the letter. -/
def Writes : Prop :=
  match e.key with
  | .char => u.HasRoom e.codepoint
  | .enter => u.sends io = true
  | .back | .up | .down => False
  | _ => True

/-- A key that comes while a paint is put off writes, or gives up the letter that was. -/
def Batched : Prop :=
  u.deferredPaint = true →
    match u.screen with
    | .composeWrite => u.Writes e io
    | .draftConflict => e.key = .enter ∧ u.selected ≠ 0
    | _ => False

instance (codepoint : ℕ) : Decidable (u.HasRoom codepoint) :=
  inferInstanceAs (Decidable (_ ∧ _))

instance : Decidable (u.Writes e io) := by
  unfold Writes
  cases e.key <;> infer_instance

instance : Decidable (u.Batched e io) := by
  unfold Batched
  cases u.screen <;> infer_instance

end Keys

/-! ## Frames -/

/-- What the writing screen shows besides the text. -/
structure Sheet where
  screen : Screen
  message : Option Message
  field : Field

def sheet (u : Ui) : Sheet := ⟨u.screen, u.message, u.field⟩

section Frames

variable {u : Ui}

lemma sheet_present (u : Ui) (r : Refresh) : (u.present r).sheet = u.sheet := by
  unfold present
  dsimp only
  split_ifs <;> rfl

lemma deferredPaint_present (u : Ui) (r : Refresh) :
    (u.present r).deferredPaint = u.deferredPaint := by
  unfold present
  dsimp only
  split_ifs <;> rfl

/-- A refresh that is not partial is not made a full one. -/
lemma refreshes_present_of_ne {r : Refresh} (hpanel : u.deps.panel = true)
    (hr : r ≠ .partialRefresh) : (u.present r).refreshes = r :: u.refreshes := by
  unfold present
  dsimp only
  rw [if_pos (show u.rebuild.deps.panel = true from hpanel)]
  cases r with
  | partialRefresh => exact absurd rfl hr
  | fast | full => rfl

/-- A paint does not go unnoticed. -/
lemma refreshes_present_ne {w : Ui} (hpanel : u.deps.panel = true) (hw : w.canvas = u.canvas)
    (r : Refresh) : (w.present r).refreshes ≠ u.refreshes := by
  intro hsame
  obtain ⟨r', hr'⟩ := refreshes_present ((congrArg Canvas.panel hw).trans hpanel) r
  rw [hr', show w.refreshes = u.refreshes from congrArg Canvas.refreshes hw] at hsame
  exact List.cons_ne_self _ _ hsame

lemma screen_goTo (u : Ui) (s : Screen) : (u.goTo s).screen = s := by cases s <;> rfl

lemma sheet_setFieldText (u : Ui) (text : String) : (u.setFieldText text).sheet = u.sheet := by
  obtain ⟨subject, body, h⟩ := u.setFieldText_eq text
  rw [h]
  rfl

lemma message_goTo (u : Ui) (s : Screen) : (u.goTo s).message = u.message := by cases s <;> rfl

end Frames

/-! ## What a handler leaves for the writing screen -/

section Handlers

variable [Layout] {u : Ui} {e : KeyEvent} {io : UiIO}

lemma sheet_key (u : Ui) (e : KeyEvent) (io : UiIO) :
    (u.key e io).sheet = ((u.touched e io).keyScreen e io).1.sheet := by
  unfold key
  dsimp only
  split_ifs
  · rfl
  · exact sheet_present _ _

/-- A character that there is no room for is refused with a message. -/
lemma refused_keyWriteChar {codepoint : ℕ} (h : ¬ u.HasRoom codepoint) :
    (u.keyWriteChar codepoint io).1.message ≠ none ∧ (u.keyWriteChar codepoint io).2 = .fast := by
  unfold keyWriteChar
  dsimp only
  split_ifs with hfull hover
  · exact ⟨nofun, rfl⟩
  · exact ⟨nofun, rfl⟩
  · exact absurd ⟨not_le.1 hfull, not_lt.1 hover⟩ h

lemma sheet_keyWriteChar {codepoint : ℕ} (h : u.HasRoom codepoint) :
    (u.keyWriteChar codepoint io).1.sheet = u.sheet := by
  unfold keyWriteChar
  rw [if_neg (not_le.2 h.1)]
  dsimp only
  rw [if_neg (not_lt.2 h.2)]
  exact sheet_setFieldText u _

/-- Where there is no room, nothing changes about the paint. -/
lemma charDefers_of_not_room {codepoint : ℕ} (h : ¬ u.HasRoom codepoint) :
    u.charDefers codepoint = u.deferredPaint := by
  unfold charDefers
  split_ifs with hfull hover
  · rfl
  · rfl
  · exact absurd ⟨not_le.1 hfull, not_lt.1 hover⟩ h

omit [Layout] in
/-- There is always something to say of a letter that should be sent. -/
lemma message_send (u : Ui) (io : UiIO) : (u.send io).message ≠ none := by
  unfold send
  by_cases hempty : u.body = ""
  · rw [if_pos hempty]
    nofun
  · rw [if_neg hempty]
    cases u.deps.outbox with
    | none => nofun
    | some b =>
        dsimp only
        split_ifs
        · rw [message_goTo]
          nofun
        · rw [message_goTo]
          nofun
        · nofun
        · nofun

lemma keyScreen_of_writing (h : u.screen = .composeWrite) : u.keyScreen e io = u.keyWrite e io := by
  unfold keyScreen
  rw [h]

/-- Only the writing screen asks for a partial refresh. -/
lemma asked_of_screen (hscreen : u.screen ≠ .composeWrite) :
    (u.keyScreen e io).2 ≠ .partialRefresh := by
  unfold keyScreen
  cases hu : u.screen with
  | composeWrite => exact absurd hu hscreen
  | cover | pin | inbox | read | composePick | outbox | settings | fault | draftConflict
  | settingsContacts | settingsLog | settingsAbout =>
      dsimp only [keyCover, keyPin, keyInbox, openSelectedLetter, keyRead, keyPick, keyOutbox,
        keySettings, keyFault, keyConflict, keyContacts, keyNicknameEdit, keyLines]
      repeat' split
      all_goals nofun

/-- Whatever the writing screen leaves for later stays on it, if what comes while a paint is put off
does. -/
lemma sheet_keyWrite_of_defers (hdefers : u.writeDefers e io = true)
    (h : u.deferredPaint = true → u.Writes e io) : (u.keyWrite e io).1.sheet = u.sheet := by
  unfold writeDefers at hdefers
  unfold Writes at h
  unfold keyWrite
  cases hkey : e.key with
  | char =>
      rw [hkey] at hdefers h
      refine sheet_keyWriteChar (by_contra fun hroom => hroom (h ?_))
      rw [← charDefers_of_not_room hroom]
      exact hdefers
  | erase =>
      dsimp only
      split_ifs
      · rfl
      · exact sheet_setFieldText u _
  | enter =>
      rw [hkey] at hdefers h
      simp only [Bool.and_eq_true, Bool.not_eq_true'] at hdefers
      rw [h hdefers.1] at hdefers
      cases hdefers.2
  | back | up | down =>
      rw [hkey] at hdefers h
      exact (h hdefers).elim
  | none | left | right | putAway | sync | frontlight => rfl

/-- A key that does not write shows something else. -/
lemma turns_keyWrite (h : ¬ u.Writes e io) :
    (u.keyWrite e io).1.screen ≠ .composeWrite ∨ (u.keyWrite e io).1.field ≠ u.field ∨
      e.key ≠ .none ∧ (u.keyWrite e io).1.message ≠ none := by
  unfold Writes at h
  unfold keyWrite
  cases hkey : e.key with
  | char =>
      rw [hkey] at h
      exact .inr (.inr ⟨nofun, (refused_keyWriteChar h).1⟩)
  | enter => exact .inr (.inr ⟨nofun, message_send u io⟩)
  | back =>
      refine .inl ?_
      dsimp only
      rw [screen_goTo]
      nofun
  | up | down =>
      refine .inr (.inl ?_)
      dsimp only
      cases u.field <;> nofun
  | none | left | right | putAway | sync | frontlight | erase =>
      rw [hkey] at h
      exact absurd trivial h

/-- The writing screen asks for a partial refresh for what is typed or erased, and for nothing
else. -/
lemma sheet_of_asked (h : (u.keyScreen e io).2 = .partialRefresh) :
    (u.keyScreen e io).1.sheet = u.sheet := by
  have hscreen : u.screen = .composeWrite := by_contra fun hne => asked_of_screen hne h
  rw [keyScreen_of_writing hscreen] at h ⊢
  unfold keyWrite at h ⊢
  cases hkey : e.key with
  | char =>
      rw [hkey] at h
      refine sheet_keyWriteChar (by_contra fun hroom => ?_)
      rw [(refused_keyWriteChar hroom).2] at h
      cases h
  | erase =>
      dsimp only
      split_ifs
      · rfl
      · exact sheet_setFieldText u _
  | enter | back | up | down =>
      rw [hkey] at h
      cases h
  | none | left | right | putAway | sync | frontlight => rfl

/-! ## One key -/

lemma deferredPaint_keyScreen (u : Ui) (e : KeyEvent) (io : UiIO) :
    ((u.touched e io).keyScreen e io).1.deferredPaint = u.defers e io :=
  congrArg Canvas.deferred (canvas_keyScreen (u.touched e io) e io)

lemma key_of_defers (h : u.defers e io = true) :
    u.key e io = ((u.touched e io).keyScreen e io).1.rebuild := by
  unfold key
  dsimp only
  rw [deferredPaint_keyScreen, if_pos h]

lemma key_of_not_defers (h : u.defers e io = false) :
    u.key e io = ((u.touched e io).keyScreen e io).1.present (u.asked e io) := by
  unfold key
  dsimp only
  rw [deferredPaint_keyScreen, h, if_neg Bool.false_ne_true]
  rfl

lemma refreshes_of_defers (h : u.defers e io = true) : (u.key e io).refreshes = u.refreshes := by
  rw [key_of_defers h]
  exact congrArg Canvas.refreshes (canvas_keyScreen (u.touched e io) e io)

/-- A handler that leaves the sheet as it was turns to nothing. -/
lemma not_turns_of_sheet (h : ((u.touched e io).keyScreen e io).1.sheet = (u.touched e io).sheet) :
    ¬ u.Turns e io := by
  have hsheet := (sheet_key u e io).trans h
  rintro (hscreen | hmessage)
  · exact hscreen (congrArg Sheet.screen hsheet)
  · exact hmessage (congrArg Sheet.message hsheet)

/-- A key that is answered by a paint is answered in time. -/
lemma timely_of_not_defers (hpanel : u.deps.panel = true) (h : u.defers e io = false) :
    u.Timely e io := by
  have hcanvas := canvas_keyScreen (u.touched e io) e io
  have hpanel' : ((u.touched e io).keyScreen e io).1.deps.panel = true :=
    (congrArg Canvas.panel hcanvas).trans hpanel
  have hrefreshes : ((u.touched e io).keyScreen e io).1.refreshes = u.refreshes :=
    congrArg Canvas.refreshes hcanvas
  constructor
  · intro hturns
    have hasked : u.asked e io ≠ .partialRefresh :=
      fun hpartial => not_turns_of_sheet (sheet_of_asked hpartial) hturns
    rw [key_of_not_defers h, refreshes_present_of_ne hpanel' hasked, hrefreshes]
  · intro hleft
    obtain ⟨r, hr⟩ := refreshes_present hpanel' (u.asked e io)
    rw [key_of_not_defers h, hr, hrefreshes] at hleft
    exact absurd hleft (List.cons_ne_self r u.refreshes)

/-- A key whose paint is left for later is answered in time where it writes. -/
lemma timely_iff_of_defers (h : u.defers e io = true) :
    u.Timely e io ↔ u.screen = .composeWrite ∧ (u.deferredPaint = true → u.Writes e io) := by
  have hrefreshes := refreshes_of_defers h
  have hsheet := sheet_key u e io
  have hwrite : u.screen = .composeWrite →
      (u.touched e io).keyScreen e io = (u.touched e io).keyWrite e io :=
    fun hscreen => @keyScreen_of_writing _ (u.touched e io) e io hscreen
  constructor
  · intro htimely
    obtain ⟨hscreen, hstays, hfield⟩ := htimely.left hrefreshes
    refine ⟨hscreen, fun _ => by_contra fun hwrites => ?_⟩
    rw [hwrite hscreen] at hsheet
    rcases @turns_keyWrite _ (u.touched e io) e io hwrites with hgone | hother | ⟨hkey, hmessage⟩
    · exact hgone ((congrArg Sheet.screen hsheet).symm.trans hstays)
    · exact hother ((congrArg Sheet.field hsheet).symm.trans hfield)
    · have hnone : (u.touched e io).message = none := if_neg hkey
      have hnew : (u.key e io).message ≠ (u.touched e io).message := by
        rw [hnone]
        exact fun hold => hmessage ((congrArg Sheet.message hsheet).symm.trans hold)
      have hpainted := htimely.turned (.inr hnew)
      rw [hrefreshes] at hpainted
      exact List.cons_ne_self _ _ hpainted.symm
  · rintro ⟨hscreen, hwrites⟩
    have hdefers : (u.touched e io).writeDefers e io = true := by
      unfold defers at h
      rw [hscreen] at h
      exact h
    have hsame : ((u.touched e io).keyScreen e io).1.sheet = (u.touched e io).sheet := by
      rw [hwrite hscreen]
      exact sheet_keyWrite_of_defers hdefers hwrites
    refine ⟨fun hturns => absurd hturns (not_turns_of_sheet hsame), fun _ => ?_⟩
    rw [hsame] at hsheet
    exact ⟨hscreen, (congrArg Sheet.screen hsheet).trans hscreen, congrArg Sheet.field hsheet⟩

/-- A key of the writing screen that is painted behind typing writes, too. -/
lemma writes_of_not_defers (hdeferred : u.deferredPaint = true)
    (h : u.writeDefers e io = false) : u.Writes e io := by
  unfold writeDefers at h
  unfold Writes
  cases hkey : e.key with
  | char =>
      rw [hkey] at h
      refine by_contra fun hroom => ?_
      rw [charDefers_of_not_room hroom, hdeferred] at h
      cases h
  | enter =>
      rw [hkey] at h
      simpa [hdeferred] using h
  | back | up | down =>
      rw [hkey, hdeferred] at h
      cases h
  | none | left | right | putAway | sync | frontlight | erase => trivial

/-- **One key.**  It is answered in time exactly where it keeps to what a paint that is put off
allows. -/
theorem timely_iff (hpanel : u.deps.panel = true) : u.Timely e io ↔ u.Batched e io := by
  cases hdefers : u.defers e io with
  | false =>
      refine iff_of_true (timely_of_not_defers hpanel hdefers) fun hdeferred => ?_
      unfold defers at hdefers
      cases hscreen : u.screen with
      | composeWrite =>
          rw [hscreen] at hdefers
          exact writes_of_not_defers hdeferred hdefers
      | draftConflict =>
          rw [hscreen] at hdefers
          simpa [hdeferred] using hdefers
      | cover | pin | inbox | read | composePick | outbox | settings | fault | settingsContacts
      | settingsLog | settingsAbout =>
          rw [hscreen, hdeferred] at hdefers
          cases hdefers
  | true =>
      rw [timely_iff_of_defers hdefers]
      unfold Batched
      unfold defers at hdefers
      cases hscreen : u.screen with
      | composeWrite => exact ⟨fun h => h.2, fun h => ⟨rfl, h⟩⟩
      | draftConflict =>
          rw [hscreen] at hdefers
          simp only [Bool.and_eq_true, Bool.or_eq_true, bne_iff_ne, beq_iff_eq] at hdefers
          refine ⟨nofun, fun h => ?_⟩
          obtain ⟨hkey, hsel⟩ := h hdefers.1
          rcases hdefers.2 with hother | hfirst
          · exact absurd hkey hother
          · exact absurd hfirst hsel
      | cover | pin | inbox | read | composePick | outbox | settings | fault | settingsContacts
      | settingsLog | settingsAbout =>
          rw [hscreen] at hdefers
          exact ⟨nofun, fun h => (h hdefers).elim⟩

lemma deps_key (u : Ui) (e : KeyEvent) (io : UiIO) :
    (u.key e io).deps = ((u.touched e io).keyScreen e io).1.deps := by
  unfold key
  dsimp only
  split_ifs
  · rfl
  · exact deps_present _ _

lemma panel_key (u : Ui) (e : KeyEvent) (io : UiIO) : (u.key e io).deps.panel = u.deps.panel := by
  rw [deps_key]
  exact congrArg Canvas.panel (canvas_keyScreen (u.touched e io) e io)

lemma sessionStep_key (u : Ui) (e : KeyEvent) (io : UiIO) :
    u.sessionStep ⟨.key e, io⟩ = some (u.key e io) := by
  unfold sessionStep step
  rw [Option.map_some, ← panel_key u e io]

lemma screen_tick (hpanel : u.deps.panel = true) (h : (u.tick io).refreshes = u.refreshes) :
    (u.tick io).screen = u.screen := by
  obtain ⟨-, htick⟩ | ⟨-, w, hw, hrest⟩ := u.tick_cases io
  · have hopened : ({ u with unlocked := true } : Ui).openAfterUnlock.canvas = u.canvas :=
      canvas_offerPendingDraftOr _ _
    rw [htick] at h
    exact absurd h (refreshes_present_ne hpanel hopened _)
  obtain ⟨drafts, lastSave, rfl⟩ := exists_eq_of_saved hw
  obtain ⟨-, htick⟩ | ⟨-, ⟨-, htick⟩ | ⟨-, htick⟩⟩ := hrest
  · rw [htick]
    exact congrArg Sheet.screen (sheet_present _ _)
  · rw [htick]
    exact congrArg Sheet.screen (sheet_present _ _)
  · rw [htick]

/-- An event that is not a key paints where it changes the screen. -/
lemma screen_of_not_painted {act : UiAct} {v : Ui} (hpanel : u.deps.panel = true)
    (hkey : ∀ e, act.event ≠ .key e) (h : u.sessionStep act = some v)
    (hrefreshes : v.refreshes = u.refreshes) : v.screen = u.screen := by
  obtain ⟨event, io⟩ := act
  obtain rfl := Option.some.inj h
  cases event with
  | key e => exact absurd rfl (hkey e)
  | tick => exact screen_tick hpanel hrefreshes
  | showFault k diagnostic =>
      have hpainted : (u.showFault k diagnostic).refreshes ≠ u.refreshes := by
        unfold showFault
        refine refreshes_present_ne hpanel ?_ _
        exact canvas_goTo _ _
      exact absurd hrefreshes hpainted
  | autosaveDraft =>
      obtain ⟨drafts, lastSave, hsaved⟩ := u.autosaveDraft_eq io
      show (u.autosaveDraft io).screen = u.screen
      rw [hsaved]
  | background deps => rfl

lemma deferredPaint_key (u : Ui) (e : KeyEvent) (io : UiIO) :
    (u.key e io).deferredPaint = u.defers e io := by
  cases hdefers : u.defers e io with
  | true =>
      rw [key_of_defers hdefers]
      exact (deferredPaint_keyScreen u e io).trans hdefers
  | false =>
      rw [key_of_not_defers hdefers, deferredPaint_present]
      exact (deferredPaint_keyScreen u e io).trans hdefers

/-- The screens on which a paint may be put off: a fault comes while the child is typing. -/
def Pauses (u : Ui) : Prop := u.deferredPaint = true → u.screen = .composeWrite ∨ u.screen = .fault

lemma pauses_key (hpanel : u.deps.panel = true) (h : u.Batched e io) : (u.key e io).Pauses := by
  intro hdeferred
  rw [deferredPaint_key] at hdeferred
  exact .inl (((timely_iff hpanel).2 h).left (refreshes_of_defers hdeferred)).2.1

lemma pauses_tick (h : u.Pauses) : (u.tick io).Pauses := by
  have hnot : u.screen = .pin → u.deferredPaint = false := by
    intro hpin
    by_contra hdeferred
    rcases h (by simpa using hdeferred) with hwrite | hfault
    · rw [hpin] at hwrite
      cases hwrite
    · rw [hpin] at hfault
      cases hfault
  intro hdeferred
  obtain ⟨⟨hpin, -⟩, htick⟩ | ⟨-, w, hw, hrest⟩ := u.tick_cases io
  · have hopened :
        ({ u with unlocked := true } : Ui).openAfterUnlock.deferredPaint = u.deferredPaint :=
      congrArg Canvas.deferred (canvas_offerPendingDraftOr _ _)
    rw [htick, deferredPaint_present, hopened, hnot hpin] at hdeferred
    cases hdeferred
  obtain ⟨drafts, lastSave, rfl⟩ := exists_eq_of_saved hw
  obtain ⟨-, htick⟩ | ⟨-, ⟨⟨hpin, -⟩, htick⟩ | ⟨-, htick⟩⟩ := hrest
  · rw [htick, deferredPaint_present] at hdeferred
    cases hdeferred
  · rw [htick, deferredPaint_present] at hdeferred
    rw [hnot hpin] at hdeferred
    cases hdeferred
  · rw [htick] at hdeferred ⊢
    exact h hdeferred

end Handlers

end Ui

/-! ## The glass -/

/-- The interface, and what its panel was painted from last.  An event that paints does so at its
end. -/
structure Glass where
  ui : Ui
  shown : Ui

namespace Glass

def opened (deps : Deps) (initial : Screen) (io : UiIO) : Glass :=
  ⟨Device.opened deps initial io, Device.opened deps initial io⟩

variable [Layout]

/-- One event of a session. -/
def step (g : Glass) (act : UiAct) : Option Glass :=
  (g.ui.sessionStep act).map fun v =>
    ⟨v, if v.refreshes = g.ui.refreshes then g.shown else v⟩

/-- Behind an event the glass shows the current screen; a key is answered in time, and what it
turned to is what the glass shows. -/
structure Follows (g : Glass) (act : UiAct) : Prop where
  screen : ∀ g', g.step act = some g' → g'.shown.screen = g'.ui.screen
  turned : ∀ e g', act.event = .key e → g.step act = some g' → g.ui.Turns e act.io →
    g'.shown = g'.ui
  timely : ∀ e, act.event = .key e → g.ui.Timely e act.io

/-- The condition on an event. -/
def Batches (g : Glass) (act : UiAct) : Prop :=
  match act.event with
  | .key e => g.ui.Batched e act.io
  | _ => True

variable {g g' : Glass} {act : UiAct}

lemma step_eq_some (h : g.step act = some g') :
    g.ui.sessionStep act = some g'.ui ∧
      g'.shown = if g'.ui.refreshes = g.ui.refreshes then g.shown else g'.ui := by
  obtain ⟨v, hv, rfl⟩ := Option.map_eq_some_iff.1 h
  exact ⟨hv, rfl⟩

instance (g : Glass) : ∀ act : UiAct, Decidable (g.Batches act)
  | ⟨.key e, io⟩ => inferInstanceAs (Decidable (g.ui.Batched e io))
  | ⟨.tick, _⟩ | ⟨.showFault .., _⟩ | ⟨.autosaveDraft, _⟩ | ⟨.background _, _⟩ =>
      inferInstanceAs (Decidable True)

/-- One event, on a glass that shows the current screen. -/
theorem follows_iff (hpanel : g.ui.deps.panel = true) (hscreen : g.shown.screen = g.ui.screen) :
    g.Follows act ↔ g.Batches act := by
  obtain ⟨event, io⟩ := act
  constructor
  · intro h
    cases event with
    | key e => exact (Ui.timely_iff hpanel).1 (h.timely e rfl)
    | tick | showFault k diagnostic | autosaveDraft | background deps => trivial
  · intro h
    have htimely : ∀ e, (⟨event, io⟩ : UiAct).event = .key e → g.ui.Timely e io := by
      rintro e rfl
      exact (Ui.timely_iff hpanel).2 h
    refine ⟨fun g' hstep => ?_, fun e g' hkey hstep hturns => ?_, htimely⟩
    · obtain ⟨hui, hshown⟩ := step_eq_some hstep
      rw [hshown]
      split_ifs with hsame
      · rw [hscreen]
        symm
        cases event with
        | key e =>
            have hkey := Option.some.inj ((Ui.sessionStep_key g.ui e io).symm.trans hui)
            rw [← hkey] at hsame ⊢
            obtain ⟨hwriting, hstays, -⟩ := (htimely e rfl).left hsame
            exact hstays.trans hwriting.symm
        | tick | showFault k diagnostic | autosaveDraft | background deps =>
            exact Ui.screen_of_not_painted hpanel (fun e h => by cases h) hui hsame
      · rfl
    · obtain ⟨hui, hshown⟩ := step_eq_some hstep
      cases hkey
      have hkey := Option.some.inj ((Ui.sessionStep_key g.ui e io).symm.trans hui)
      have hrefreshes := (htimely e rfl).turned hturns
      rw [hshown, if_neg]
      rw [← hkey, hrefreshes]
      exact List.cons_ne_self _ _

/-- **The glass follows the keys that keep to what is put off.**  In a session with a panel, with
any events, every event is followed if and only if every key that finds a paint put off writes, or
gives up the letter. -/
theorem follows_iff_batches {deps : Deps} {initial : Screen} {io : UiIO} {acts : List UiAct}
    (hpanel : deps.panel = true) :
    Run.Meets step Follows (opened deps initial io) acts ↔
      Run.Meets step Batches (opened deps initial io) acts := by
  have hstart : (opened deps initial io).ui.deps.panel = true ∧
      (opened deps initial io).shown.screen = (opened deps initial io).ui.screen :=
    ⟨panel_opened.trans hpanel, rfl⟩
  refine Run.meets_congr_of_meets (I := fun g => g.ui.deps.panel = true ∧
    g.shown.screen = g.ui.screen) ?_ (fun g act hg => follows_iff hg.1 hg.2) hstart
  intro g act g' hg hbatches hstep
  obtain ⟨hui, -⟩ := step_eq_some hstep
  have hfollows := (follows_iff hg.1 hg.2).2 hbatches
  exact ⟨(Ui.shows_sessionStep hui).1.trans hg.1, hfollows.screen g' hstep⟩

lemma pauses_step (hpanel : g.ui.deps.panel = true) (hpauses : g.ui.Pauses)
    (hbatches : g.Batches act) (h : g.step act = some g') : g'.ui.Pauses := by
  obtain ⟨event, io⟩ := act
  obtain ⟨hui, -⟩ := step_eq_some h
  cases event with
  | key e =>
      rw [← Option.some.inj ((Ui.sessionStep_key g.ui e io).symm.trans hui)]
      exact Ui.pauses_key hpanel hbatches
  | tick =>
      rw [← Option.some.inj hui]
      exact Ui.pauses_tick hpauses
  | showFault k diagnostic =>
      rw [← Option.some.inj hui]
      exact fun _ => .inr (congrArg Ui.Sheet.screen (Ui.sheet_present _ _))
  | autosaveDraft =>
      obtain ⟨drafts, lastSave, hsaved⟩ := g.ui.autosaveDraft_eq io
      rw [← Option.some.inj hui]
      show (g.ui.autosaveDraft io).Pauses
      rw [hsaved]
      exact hpauses
  | background deps =>
      rw [← Option.some.inj hui]
      exact hpauses

/-- Where they do, a paint is only ever put off on the writing screen, or under a fault that came
while the child was typing. -/
theorem pauses_of_batches {deps : Deps} {initial : Screen} {io : UiIO} {acts : List UiAct}
    (hpanel : deps.panel = true) (hbatches : Run.Meets step Batches (opened deps initial io) acts)
    (hrun : Run.run step (opened deps initial io) acts = some g) : g.ui.Pauses := by
  have hstart : (opened deps initial io).ui.deps.panel = true ∧
      (opened deps initial io).ui.Pauses := by
    refine ⟨panel_opened.trans hpanel, fun hdeferred => ?_⟩
    obtain ⟨u, hu, hopened⟩ := @opened_eq_present deps initial io
    have hnot : (Device.opened deps initial io).deferredPaint = false := by
      rw [hopened, Ui.deferredPaint_present]
      exact congrArg Canvas.deferred hu
    exact absurd (hnot.symm.trans hdeferred) Bool.false_ne_true
  exact (Run.run_invariant_of_meets (I := fun g => g.ui.deps.panel = true ∧ g.ui.Pauses)
    (fun g act g' hg hact hstep => ⟨(Ui.shows_sessionStep (step_eq_some hstep).1).1.trans hg.1,
      pauses_step hg.1 hg.2 hact hstep⟩) hstart hbatches hrun).2

end Glass

namespace Sample

/-- A word, and back to the person it is for. -/
def finishedWord : List UiAct :=
  [⟨.key ⟨.right, 0⟩, {}⟩, ⟨.key ⟨.enter, 0⟩, {}⟩, ⟨.key ⟨.char, 104⟩, {}⟩,
    ⟨.key ⟨.char, 32⟩, {}⟩, ⟨.key ⟨.back, 0⟩, {}⟩]

end Sample

namespace Glass

theorem follows_finishedWord :
    Run.Meets (@step Sample.layout) (@Follows Sample.layout)
      (opened Sample.postDeps .inbox {}) Sample.finishedWord :=
  (@follows_iff_batches Sample.layout _ _ _ _ rfl).2 (by decide +kernel)

/-- Whoever steps out in the middle of a word does not see where to. -/
theorem not_follows : ¬ ∀ (deps : Deps) (initial : Screen) (io : UiIO) (acts : List UiAct),
    deps.panel = true →
      Run.Meets (@step Sample.layout) (@Follows Sample.layout) (opened deps initial io) acts := by
  intro h
  have hmeets := h Sample.postDeps .inbox {} Sample.steppedOut rfl
  have hback := (((hmeets.2 _ rfl).2 _ rfl).2 _ rfl).1
  exact absurd (@Follows.screen Sample.layout _ _ hback _ rfl) (by decide +kernel)

end Glass

end Chaskiwasi.Device
