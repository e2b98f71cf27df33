import Chaskiwasi.Device.Locked

/-!
# The panel: waveforms and waits

The panel takes its time with a waveform, and its callers must wait until it is done before they
start another.  Two parts of the device start waveforms.  The interface does so whenever it paints,
and never waits; the wipe waits behind each of its own, and in an emergency before the first.

`Waited` is the panel's contract, over all the commands that it receives.  `canvas_keyScreen` says
of every key what becomes of the paint that is put off, and `waveforms_wait_iff` which sessions keep
the contract: those that paint once, and end in an emergency.
-/

namespace Chaskiwasi.Device

/-! ## The contract -/

inductive Command
  | partialRefresh
  | fastRefresh
  | fullRefresh
  /-- The alternating black and white flush. -/
  | clearFlush (passes : ℤ)
  | waitBusy
  | deepSleep
  deriving DecidableEq, Repr

/-- The command starts a waveform. -/
def Command.isWaveform : Command → Bool
  | .partialRefresh | .fastRefresh | .fullRefresh | .clearFlush _ => true
  | .waitBusy | .deepSleep => false

/-- Between a waveform and each one before it the panel is waited for. -/
def Waited (cs : List Command) : Prop :=
  ∀ past c between c' later, cs = past ++ c :: between ++ c' :: later →
    c.isWaveform = true → c'.isWaveform = true → .waitBusy ∈ between

/-- Before the first waveform the panel is waited for. -/
def WaitsFirst (cs : List Command) : Prop :=
  ∀ between c later, cs = between ++ c :: later → c.isWaveform = true → .waitBusy ∈ between

lemma waited_nil : Waited [] := by
  intro past c between c' later h
  simp at h

lemma waitsFirst_nil : WaitsFirst [] := by
  intro between c later h
  simp at h

lemma waited_cons {c : Command} {cs : List Command} :
    Waited (c :: cs) ↔ Waited cs ∧ (c.isWaveform = true → WaitsFirst cs) := by
  constructor
  · intro h
    constructor
    · rintro past d between d' later rfl hd hd'
      exact h (c :: past) d between d' later rfl hd hd'
    · rintro hc between d later rfl hd
      exact h [] c between d later rfl hc hd
  · rintro ⟨hlater, hfirst⟩ past d between d' later heq hd hd'
    cases past with
    | nil =>
        obtain ⟨rfl, rfl⟩ := List.cons.inj heq
        exact hfirst hd between d' later rfl hd'
    | cons c' past =>
        obtain ⟨rfl, rfl⟩ := List.cons.inj heq
        exact hlater past d between d' later rfl hd hd'

lemma waitsFirst_cons {c : Command} {cs : List Command} :
    WaitsFirst (c :: cs) ↔ c = .waitBusy ∨ c.isWaveform = false ∧ WaitsFirst cs := by
  constructor
  · intro h
    by_cases hwait : c = .waitBusy
    · exact Or.inl hwait
    · refine Or.inr ⟨?_, ?_⟩
      · by_contra hc
        simpa using h [] c cs rfl (by simpa using hc)
      · rintro between d later rfl hd
        have hmem := h (c :: between) d later rfl hd
        exact (List.mem_cons.1 hmem).resolve_left fun heq => hwait heq.symm
  · rintro h between d later heq hd
    cases between with
    | nil =>
        obtain ⟨rfl, rfl⟩ := List.cons.inj heq
        rcases h with rfl | ⟨hc, -⟩
        · cases hd
        · rw [hd] at hc
          cases hc
    | cons c' between =>
        obtain ⟨rfl, rfl⟩ := List.cons.inj heq
        rcases h with rfl | ⟨-, hlater⟩
        · exact List.mem_cons_self
        · exact List.mem_cons_of_mem _ (hlater between d later rfl hd)

/-! ## The wipe -/

/-- What a wipe has at hand. -/
structure WipeDeps where
  panel : Bool := true
  rail : Bool := true
  sleeper : Bool := true
  radio : Bool := true
  renderCover : Bool := true
  /-- What `voltage_ok` says, where it is there. -/
  voltageOk : Option Bool := none
  maskInput : Bool := true
  gracefulFlushPasses : ℤ := 4
  emergencyFlushPasses : ℤ := 4

/-- A call that a wipe makes. -/
inductive WipeCall
  | maskInput
  | powerDownRadio
  | renderCover (cover : Ui.CoverState)
  | panel (c : Command)
  | cutRail
  | deepSleep (wakeOnChargerOnly : Bool)
  deriving DecidableEq, Repr

namespace WipeDeps

variable (d : WipeDeps)

def flush (passes : ℤ) : List WipeCall :=
  if d.panel then [.panel (.clearFlush passes), .panel .waitBusy] else []

/-- `RenderCover`. -/
def drawCover (cover : Ui.CoverState) : List WipeCall :=
  if d.panel then
    (if d.renderCover then [.renderCover cover] else []) ++
      [.panel .fullRefresh, .panel .waitBusy]
  else []

def park (wakeOnChargerOnly : Bool) : List WipeCall :=
  (if d.panel then [.panel .deepSleep] else []) ++ (if d.rail then [.cutRail] else []) ++
    if d.sleeper then [.deepSleep wakeOnChargerOnly] else []

def gracefulWipe (cover : Ui.CoverState) : List WipeCall :=
  (if d.maskInput then [.maskInput] else []) ++ d.flush d.gracefulFlushPasses ++
    d.drawCover cover ++ d.park false

def emergencyWipe (cover : Ui.CoverState) : List WipeCall :=
  (if d.maskInput then [.maskInput] else []) ++ (if d.radio then [.powerDownRadio] else []) ++
    -- A waveform in flight is never aborted.
    (if d.panel then [.panel .waitBusy] else []) ++ d.flush d.emergencyFlushPasses ++
    (if d.voltageOk.getD true then d.drawCover cover else []) ++ d.park true

end WipeDeps

inductive Wipe
  | graceful
  | emergency
  deriving DecidableEq, Repr

def WipeDeps.wipe (d : WipeDeps) (cover : Ui.CoverState) : Wipe → List WipeCall
  | .graceful => d.gracefulWipe cover
  | .emergency => d.emergencyWipe cover

def WipeCall.command? : WipeCall → Option Command
  | .panel c => some c
  | _ => none

/-- What a panel receives from a wipe. -/
def wipeCommands (calls : List WipeCall) : List Command := calls.filterMap WipeCall.command?

section Wipes

variable (d : WipeDeps) (cover : Ui.CoverState)

/-- A call that is made to something else. -/
lemma wipeCommands_aside {call : WipeCall} (h : call.command? = none) (p : Prop) [Decidable p] :
    wipeCommands (if p then [call] else []) = [] := by
  split_ifs
  · simp [wipeCommands, h]
  · rfl

lemma wipeCommands_append (calls later : List WipeCall) :
    wipeCommands (calls ++ later) = wipeCommands calls ++ wipeCommands later :=
  List.filterMap_append ..

lemma commands_flush (passes : ℤ) :
    wipeCommands (d.flush passes) = if d.panel then [.clearFlush passes, .waitBusy] else [] := by
  unfold WipeDeps.flush
  split_ifs <;> rfl

lemma commands_drawCover :
    wipeCommands (d.drawCover cover) = if d.panel then [.fullRefresh, .waitBusy] else [] := by
  unfold WipeDeps.drawCover
  split_ifs <;> rfl

lemma commands_park (wakeOnChargerOnly : Bool) :
    wipeCommands (d.park wakeOnChargerOnly) = if d.panel then [.deepSleep] else [] := by
  unfold WipeDeps.park
  have hrail := wipeCommands_aside (rfl : WipeCall.cutRail.command? = none) (d.rail = true)
  have hsleeper := wipeCommands_aside
    (rfl : (WipeCall.deepSleep wakeOnChargerOnly).command? = none) (d.sleeper = true)
  rw [wipeCommands_append, wipeCommands_append, hrail, hsleeper]
  split_ifs <;> rfl

lemma commands_gracefulWipe :
    wipeCommands (d.gracefulWipe cover) =
      if d.panel then
        [.clearFlush d.gracefulFlushPasses, .waitBusy, .fullRefresh, .waitBusy, .deepSleep]
      else [] := by
  unfold WipeDeps.gracefulWipe
  rw [wipeCommands_append, wipeCommands_append, wipeCommands_append, wipeCommands_aside rfl,
    commands_flush, commands_drawCover, commands_park]
  split_ifs <;> rfl

lemma commands_emergencyWipe :
    wipeCommands (d.emergencyWipe cover) =
      if d.panel then
        [.waitBusy, .clearFlush d.emergencyFlushPasses, .waitBusy] ++
          (if d.voltageOk.getD true then [.fullRefresh, .waitBusy] else []) ++ [.deepSleep]
      else [] := by
  have hcover : wipeCommands (if d.voltageOk.getD true then d.drawCover cover else []) =
      if d.voltageOk.getD true then
        if d.panel then [.fullRefresh, .waitBusy] else []
      else [] := by
    rw [← commands_drawCover d cover]
    split_ifs <;> rfl
  unfold WipeDeps.emergencyWipe
  rw [wipeCommands_append, wipeCommands_append, wipeCommands_append, wipeCommands_append,
    wipeCommands_append, wipeCommands_aside rfl, wipeCommands_aside rfl, commands_flush, hcover,
    commands_park]
  split_ifs <;> rfl

/-- A wipe waits behind each of its own waveforms. -/
theorem waited_wipe (w : Wipe) : Waited (wipeCommands (d.wipe cover w)) := by
  cases w with
  | graceful =>
      rw [WipeDeps.wipe, commands_gracefulWipe]
      split_ifs <;>
        simp [waited_cons, waitsFirst_cons, waited_nil, waitsFirst_nil, Command.isWaveform]
  | emergency =>
      rw [WipeDeps.wipe, commands_emergencyWipe]
      split_ifs <;>
        simp [waited_cons, waitsFirst_cons, waited_nil, waitsFirst_nil, Command.isWaveform]

/-- Only an emergency's wipe waits before its first waveform. -/
theorem waitsFirst_wipe_iff (w : Wipe) :
    WaitsFirst (wipeCommands (d.wipe cover w)) ↔ (d.panel = true → w = .emergency) := by
  cases w with
  | graceful =>
      rw [WipeDeps.wipe, commands_gracefulWipe]
      split_ifs with hpanel
      · simp [waitsFirst_cons, Command.isWaveform, hpanel]
      · simp [waitsFirst_nil, hpanel]
  | emergency =>
      rw [WipeDeps.wipe, commands_emergencyWipe]
      split_ifs <;> simp [waitsFirst_cons, waitsFirst_nil]

end Wipes

/-! ## What the interface puts off -/

def Refresh.command : Refresh → Command
  | .partialRefresh => .partialRefresh
  | .fast => .fastRefresh
  | .full => .fullRefresh

lemma Refresh.isWaveform_command (r : Refresh) : r.command.isWaveform = true := by
  cases r <;> rfl

/-- What painting depends on, and what it has asked for. -/
@[ext]
structure Canvas where
  panel : Bool
  deferred : Bool
  refreshes : List Refresh

namespace Ui

def canvas (u : Ui) : Canvas := ⟨u.deps.panel, u.deferredPaint, u.refreshes⟩

/-- What the panel has received from the interface. -/
def commands (u : Ui) : List Command := u.refreshes.reverse.map Refresh.command

section Putting

variable [Layout] (u : Ui) (e : KeyEvent) (io : UiIO)

/-- Typed into a field with room, a character that does not end a word waits for one that does. -/
def charDefers (codepoint : ℕ) : Bool :=
  if u.fieldCap ≤ Layout.countGraphemes u.fieldText then u.deferredPaint
  else if u.fieldCap < Layout.countGraphemes (appendCodepoint u.fieldText codepoint) then
    u.deferredPaint
  else !decide (codepoint = ' '.toNat ∨ codepoint = '\n'.toNat)

/-- The letter can be sent, and both writes go well. -/
def sends (u : Ui) (io : UiIO) : Bool :=
  u.body != "" && u.deps.outbox.any (fun b => decide (b.sendableCount < outboxCap)) &&
    io.mintLocalID.ok && io.addLetter.ok

def writeDefers : Bool :=
  match e.key with
  | .char => u.charDefers e.codepoint
  | .erase => u.deferredPaint || u.fieldText != ""
  | .enter => u.deferredPaint && !u.sends io
  | _ => u.deferredPaint

/-- Whether a paint is put off behind a key: letters and erasures put it off, and it stays so until
the letter is closed. -/
def defers : Bool :=
  match u.screen with
  | .composeWrite => u.writeDefers e io
  | .draftConflict => u.deferredPaint && (e.key != .enter || u.selected == 0)
  | _ => u.deferredPaint

/-- Whether an event paints. -/
def paints (act : UiAct) : Bool :=
  match act.event with
  | .key e => !u.defers e act.io
  | .tick =>
      u.screen = .pin && !u.pinRequired ||
        u.deferredPaint && composeIdleRefreshMs ≤ act.io.now - u.lastEdit ||
        u.screen = .pin && u.backoffUntil ≠ 0 && u.backoffUntil ≤ act.io.now
  | .showFault .. => true
  | .autosaveDraft | .background _ => false

end Putting

section Frames

variable (u : Ui)

@[simp] lemma canvas_goTo (s : Screen) : (u.goTo s).canvas = u.canvas := by cases s <;> rfl

@[simp] lemma canvas_move (delta : ℤ) (count : ℕ) : (u.move delta count).canvas = u.canvas := by
  unfold move
  split_ifs <;> rfl

@[simp] lemma canvas_offerPendingDraftOr (s : Screen) :
    (u.offerPendingDraftOr s).canvas = u.canvas := by
  unfold offerPendingDraftOr
  split_ifs
  · exact canvas_goTo _ _
  · exact canvas_goTo _ _

@[simp] lemma canvas_openCompose (contactID subject body : String) (io : UiIO) :
    (u.openCompose contactID subject body io).canvas = u.canvas :=
  canvas_goTo _ _

@[simp] lemma canvas_autosaveDraft (io : UiIO) : (u.autosaveDraft io).canvas = u.canvas := by
  obtain ⟨drafts, lastSave, h⟩ := u.autosaveDraft_eq io
  rw [h]
  rfl

@[simp] lemma canvas_startDraft (p : Pending) (io : UiIO) :
    (u.startDraft p io).canvas = u.canvas := by
  unfold startDraft
  cases u.deps.drafts with
  | none => rfl
  | some drafts =>
      dsimp only
      split
      · exact canvas_openCompose _ _ _ _ _
      · exact canvas_goTo _ _
      · rfl

lemma canvas_keyTabs (e : KeyEvent) (count : ℕ) : (u.keyTabs e count).canvas = u.canvas := by
  unfold keyTabs
  cases e.key with
  | up | down => exact canvas_move _ _ _
  | left | right => exact canvas_goTo _ _
  | none | enter | back | putAway | sync | frontlight | char | erase => rfl

end Frames

/-! ## The screens -/

section Screens

variable [Layout] (u : Ui) (e : KeyEvent) (io : UiIO)

omit [Layout] in
lemma canvas_keyCover : (u.keyCover e).1.canvas = u.canvas := by
  unfold keyCover
  split_ifs
  · rfl
  · exact canvas_goTo _ _
  · exact canvas_offerPendingDraftOr _ _

omit [Layout] in
lemma canvas_keyPin : (u.keyPin e io).1.canvas = u.canvas := by
  unfold keyPin
  by_cases hbackoff : u.backoffUntil ≠ 0 ∧ io.now < u.backoffUntil
  · rw [if_pos hbackoff]
    rfl
  · rw [if_neg hbackoff]
    dsimp only
    cases e.key with
    | enter =>
        dsimp only
        by_cases hok : io.verifyPin = true
        · rw [if_pos hok]
          exact canvas_offerPendingDraftOr _ _
        · rw [if_neg hok]
          rfl
    | char =>
        dsimp only
        split_ifs <;> rfl
    | none | up | down | left | right | back | putAway | sync | frontlight | erase => rfl

lemma canvas_keyInbox : (u.keyInbox e io).1.canvas = u.canvas := by
  unfold keyInbox
  cases e.key with
  | enter =>
      dsimp only
      unfold openSelectedLetter
      cases u.letters[u.selected]? with
      | none => rfl
      | some l => exact canvas_goTo _ _
  | none | up | down | left | right | back | putAway | sync | frontlight | char | erase =>
      exact canvas_keyTabs _ _ _

omit [Layout] in
lemma canvas_keyRead : (u.keyRead e).1.canvas = u.canvas := by
  unfold keyRead
  cases e.key with
  | back | enter => exact canvas_goTo _ _
  | right | down =>
      dsimp only
      split_ifs <;> rfl
  | left | up | none | putAway | sync | frontlight | char | erase => rfl

omit [Layout] in
lemma canvas_keyPick : (u.keyPick e io).1.canvas = u.canvas := by
  unfold keyPick
  cases e.key with
  | enter =>
      dsimp only
      cases u.picker[u.selected]? with
      | none => rfl
      | some c =>
          dsimp only
          split_ifs
          · exact (canvas_goTo _ _).trans (canvas_autosaveDraft _ _)
          · exact canvas_startDraft _ _ _
  | back => exact canvas_goTo _ _
  | none | up | down | left | right | putAway | sync | frontlight | char | erase =>
      exact canvas_keyTabs _ _ _

omit [Layout] in
lemma canvas_keyOutbox : (u.keyOutbox e io).1.canvas = u.canvas := by
  unfold keyOutbox
  cases e.key with
  | enter =>
      dsimp only
      cases u.queued[u.selected]? with
      | none => rfl
      | some q =>
          dsimp only
          split_ifs
          · exact canvas_startDraft _ _ _
          · rfl
  | back => exact canvas_goTo _ _
  | none | up | down | left | right | putAway | sync | frontlight | char | erase =>
      exact canvas_keyTabs _ _ _

lemma canvas_cycleFont : (u.cycleFont io).canvas = u.canvas := by
  unfold cycleFont
  cases u.deps.settings with
  | none => rfl
  | some s =>
      dsimp only
      split_ifs <;> rfl

omit [Layout] in
lemma canvas_cycleFrontlight : (u.cycleFrontlight io).canvas = u.canvas := by
  unfold cycleFrontlight
  cases u.deps.settings with
  | none => rfl
  | some s => rfl

lemma canvas_keySettings : (u.keySettings e io).1.canvas = u.canvas := by
  unfold keySettings
  cases e.key with
  | back => exact canvas_goTo _ _
  | enter =>
      dsimp only
      split
      · exact canvas_cycleFont _ _
      · exact canvas_cycleFrontlight _ _
      · exact canvas_goTo _ _
      · exact canvas_goTo _ _
      · exact canvas_goTo _ _
  | none | up | down | left | right | putAway | sync | frontlight | char | erase =>
      exact canvas_keyTabs _ _ _

omit [Layout] in
lemma canvas_keyFault : (u.keyFault e).1.canvas = u.canvas := by
  unfold keyFault
  split_ifs
  · rfl
  · exact canvas_goTo _ _
  · rfl

omit [Layout] in
lemma canvas_keyLines : (u.keyLines e).1.canvas = u.canvas := by
  unfold keyLines
  cases e.key with
  | up | down => exact canvas_move _ _ _
  | back | enter => exact canvas_goTo _ _
  | none | left | right | putAway | sync | frontlight | char | erase => rfl

lemma canvas_keyContacts : (u.keyContacts e io).1.canvas = u.canvas := by
  unfold keyContacts
  split_ifs with hediting
  · unfold keyNicknameEdit commitNickname
    cases e.key with
    | char | back =>
        dsimp only
        split_ifs <;> rfl
    | enter =>
        dsimp only
        split <;> rfl
    | none | up | down | left | right | putAway | sync | frontlight | erase => rfl
  · cases e.key with
    | up | down => exact canvas_move _ _ _
    | right =>
        dsimp only
        unfold togglePinned
        split <;> rfl
    | back => exact canvas_goTo _ _
    | enter =>
        dsimp only
        split <;> rfl
    | none | left | putAway | sync | frontlight | char | erase => rfl

omit [Layout] in
/-- A letter that was sent takes the paint that was put off with it. -/
lemma canvas_send :
    (u.send io).canvas = { u.canvas with deferred := u.deferredPaint && !u.sends io } := by
  have hkept : ∀ v : Ui, v.canvas = u.canvas → u.sends io = false →
      v.canvas = { u.canvas with deferred := u.deferredPaint && !u.sends io } := by
    rintro v hv hsends
    rw [hv, hsends, Bool.not_false, Bool.and_true]
    rfl
  unfold send
  by_cases hbody : u.body = ""
  · rw [if_pos hbody]
    exact hkept _ rfl (by simp [sends, hbody])
  · rw [if_neg hbody]
    cases houtbox : u.deps.outbox with
    | none => exact hkept _ rfl (by simp [sends, houtbox])
    | some b =>
        dsimp only
        by_cases hfull : outboxCap ≤ b.sendableCount
        · rw [if_pos hfull]
          exact hkept _ ((canvas_goTo _ _).trans (canvas_autosaveDraft _ _))
            (by simp [sends, houtbox, hfull])
        · rw [if_neg hfull]
          cases hmint : io.mintLocalID.ok with
          | false => exact hkept _ rfl (by simp [sends, hmint])
          | true =>
              cases hadd : io.addLetter.ok with
              | false => exact hkept _ rfl (by simp [sends, hadd])
              | true =>
                  have hsends : u.sends io = true := by
                    simp [sends, hbody, houtbox, hmint, hadd, not_le.1 hfull]
                  rw [if_pos rfl, if_pos rfl, hsends, Bool.not_true, Bool.and_false]
                  exact canvas_goTo _ _

omit [Layout] in
/-- Only the text of a field is set. -/
lemma setFieldText_eq (text : String) :
    ∃ subject body, u.setFieldText text = { u with subject := subject, body := body } := by
  unfold setFieldText
  cases u.field with
  | body => exact ⟨u.subject, _, rfl⟩
  | subject => exact ⟨_, u.body, rfl⟩

lemma canvas_keyWriteChar (codepoint : ℕ) :
    (u.keyWriteChar codepoint io).1.canvas =
      { u.canvas with deferred := u.charDefers codepoint } := by
  unfold keyWriteChar charDefers
  by_cases hfull : u.fieldCap ≤ Layout.countGraphemes u.fieldText
  · rw [if_pos hfull, if_pos hfull]
    rfl
  · rw [if_neg hfull, if_neg hfull]
    dsimp only
    by_cases hover : u.fieldCap < Layout.countGraphemes (appendCodepoint u.fieldText codepoint)
    · obtain ⟨subject, body, h⟩ := u.setFieldText_eq
        (Layout.truncateGraphemes (appendCodepoint u.fieldText codepoint) u.fieldCap)
      rw [if_pos hover, if_pos hover, h]
      rfl
    · obtain ⟨subject, body, h⟩ := u.setFieldText_eq (appendCodepoint u.fieldText codepoint)
      rw [if_neg hover, if_neg hover, h]
      rfl

lemma canvas_keyWrite :
    (u.keyWrite e io).1.canvas = { u.canvas with deferred := u.writeDefers e io } := by
  unfold keyWrite writeDefers
  cases e.key with
  | char => exact canvas_keyWriteChar u io e.codepoint
  | erase =>
      dsimp only
      by_cases hempty : u.fieldText = ""
      · rw [if_pos hempty]
        simp [hempty, canvas]
      · obtain ⟨subject, body, h⟩ := u.setFieldText_eq (Layout.eraseLastGrapheme u.fieldText)
        rw [if_neg hempty, h]
        simp [hempty, canvas]
  | back => exact (canvas_goTo _ _).trans (canvas_autosaveDraft _ _)
  | enter => exact canvas_send u io
  | up | down | none | left | right | putAway | sync | frontlight => rfl

omit [Layout] in
lemma canvas_keepPendingDraft : (u.keepPendingDraft io).canvas = u.canvas := by
  unfold keepPendingDraft
  cases u.deps.drafts.bind DraftStore.load with
  | none => exact canvas_goTo _ _
  | some draft => exact canvas_openCompose _ _ _ _ _

omit [Layout] in
/-- The letter that was dropped takes the paint that was put off with it. -/
lemma canvas_dropPendingDraft :
    (u.dropPendingDraft io).canvas = { u.canvas with deferred := false } := by
  unfold dropPendingDraft
  dsimp only
  split_ifs
  · exact canvas_goTo _ _
  · exact canvas_startDraft _ _ _

omit [Layout] in
lemma canvas_keyConflict :
    (u.keyConflict e io).1.canvas =
      { u.canvas with deferred := u.deferredPaint && (e.key != .enter || u.selected == 0) } := by
  unfold keyConflict
  cases hkey : e.key with
  | up | down =>
      dsimp only
      rw [canvas_move]
      simp [canvas]
  | enter =>
      dsimp only
      by_cases hsel : u.selected = 0
      · rw [if_pos hsel, canvas_keepPendingDraft]
        simp [canvas, hsel]
      · rw [if_neg hsel, canvas_dropPendingDraft]
        simp [hsel]
  | none | left | right | back | putAway | sync | frontlight | char | erase => simp [canvas]

/-- **What a key makes of the paint that is put off.** -/
theorem canvas_keyScreen :
    (u.keyScreen e io).1.canvas = { u.canvas with deferred := u.defers e io } := by
  unfold keyScreen defers
  cases u.screen with
  | cover => exact canvas_keyCover u e
  | pin => exact canvas_keyPin u e io
  | inbox => exact canvas_keyInbox u e io
  | read => exact canvas_keyRead u e
  | composePick => exact canvas_keyPick u e io
  | composeWrite => exact canvas_keyWrite u e io
  | outbox => exact canvas_keyOutbox u e io
  | settings => exact canvas_keySettings u e io
  | fault => exact canvas_keyFault u e
  | draftConflict => exact canvas_keyConflict u e io
  | settingsContacts => exact canvas_keyContacts u e io
  | settingsLog | settingsAbout => exact canvas_keyLines u e

end Screens

/-! ## A session -/

section Session

variable {u v : Ui} {act : UiAct} {acts : List UiAct}

lemma deps_present (u : Ui) (r : Refresh) : (u.present r).deps = u.deps := by
  unfold present
  dsimp only
  split_ifs <;> rfl

/-- An update is one waveform. -/
lemma refreshes_present {u : Ui} (h : u.deps.panel = true) (r : Refresh) :
    ∃ r', (u.present r).refreshes = r' :: u.refreshes := by
  unfold present
  dsimp only
  rw [if_pos (show u.rebuild.deps.panel = true from h)]
  exact ⟨_, rfl⟩

lemma refreshes_present_of_no_panel {u : Ui} (h : u.deps.panel = false) (r : Refresh) :
    (u.present r).refreshes = u.refreshes := by
  unfold present
  dsimp only
  rw [if_neg]
  · rfl
  · rw [show u.rebuild.deps.panel = false from h]
    exact Bool.false_ne_true

/-- From `u` to `v` the panel got a waveform, if there is one, exactly where `painted`. -/
def Shows (u v : Ui) (painted : Prop) : Prop :=
  ∃ rs, v.refreshes = rs ++ u.refreshes ∧ (rs = [] ↔ (u.deps.panel = true → ¬ painted))

lemma shows_present {b : Bool} {painted : Prop} (hv : v.canvas = { u.canvas with deferred := b })
    (r : Refresh) (h : painted) : Shows u (v.present r) painted := by
  have hpanel : v.deps.panel = u.deps.panel := congrArg Canvas.panel hv
  have hrefreshes : v.refreshes = u.refreshes := congrArg Canvas.refreshes hv
  cases hp : u.deps.panel with
  | true =>
      obtain ⟨r', hr'⟩ := refreshes_present (hpanel.trans hp) r
      rw [hrefreshes] at hr'
      exact ⟨[r'], hr', by simp [hp, h]⟩
  | false =>
      have hr := refreshes_present_of_no_panel (hpanel.trans hp) r
      exact ⟨[], hr.trans hrefreshes, by simp [hp]⟩

lemma shows_nothing {painted : Prop} (hv : v.refreshes = u.refreshes) (h : ¬ painted) :
    Shows u v painted :=
  ⟨[], hv, iff_of_true rfl fun _ => h⟩

variable [Layout]

lemma shows_key (u : Ui) (e : KeyEvent) (io : UiIO) :
    Shows u (u.key e io) (u.paints ⟨.key e, io⟩ = true) := by
  have hcanvas : ((u.touched e io).keyScreen e io).1.canvas =
      { u.canvas with deferred := u.defers e io } := canvas_keyScreen _ e io
  have hdeferred : ((u.touched e io).keyScreen e io).1.deferredPaint = u.defers e io :=
    congrArg Canvas.deferred hcanvas
  have hpaints : u.paints ⟨.key e, io⟩ = !u.defers e io := rfl
  unfold key
  dsimp only
  rw [hdeferred, hpaints]
  cases hdefers : u.defers e io with
  | true =>
      rw [if_pos rfl]
      exact shows_nothing (congrArg Canvas.refreshes hcanvas) (by simp)
  | false =>
      rw [if_neg (by simp)]
      exact shows_present hcanvas _ rfl

lemma shows_tick (u : Ui) (io : UiIO) : Shows u (u.tick io) (u.paints ⟨.tick, io⟩ = true) := by
  obtain ⟨hcleared, htick⟩ | ⟨hcleared, w, hw, hrest⟩ := u.tick_cases io
  · rw [htick]
    exact shows_present (canvas_offerPendingDraftOr _ _) _ (by simp [paints, hcleared])
  obtain ⟨drafts, lastSave, rfl⟩ := exists_eq_of_saved hw
  obtain ⟨hidle, htick⟩ | ⟨hidle, ⟨hbackoff, htick⟩ | ⟨hbackoff, htick⟩⟩ := hrest
  · rw [htick]
    exact shows_present (b := false) rfl _ (by simp [paints, hidle])
  · rw [htick]
    refine shows_present (b := u.deferredPaint) ?_ _ (by simp [paints, hbackoff])
    rfl
  · rw [htick]
    refine shows_nothing rfl ?_
    simp only [paints, Bool.or_eq_true, Bool.and_eq_true, decide_eq_true_eq, Bool.not_eq_true']
    rintro ((hgate | hdue) | ⟨⟨hpin, hwaiting⟩, hover⟩)
    · exact hcleared hgate
    · exact hidle hdue
    · exact hbackoff ⟨hpin, hwaiting, hover⟩

/-- One event of a session.  The panel stays where it is. -/
def sessionStep (u : Ui) (act : UiAct) : Option Ui :=
  (u.step act).map fun v => { v with deps := { v.deps with panel := u.deps.panel } }

/-- **One event.** -/
theorem shows_sessionStep (h : u.sessionStep act = some v) :
    v.deps.panel = u.deps.panel ∧ Shows u v (u.paints act = true) := by
  obtain ⟨event, io⟩ := act
  obtain rfl := Option.some.inj h
  refine ⟨rfl, ?_⟩
  cases event with
  | key e => exact shows_key u e io
  | tick => exact shows_tick u io
  | showFault k diagnostic => exact shows_present (canvas_goTo _ _) _ rfl
  | autosaveDraft =>
      exact shows_nothing (congrArg Canvas.refreshes (canvas_autosaveDraft u io)) (by simp [paints])
  | background deps => exact shows_nothing rfl (by simp [paints])

/-- A session without a paint asks the panel for nothing. -/
theorem shows_run (hrun : Run.run sessionStep u acts = some v) :
    ∃ rs, v.refreshes = rs ++ u.refreshes ∧ (rs = [] ↔ (u.deps.panel = true →
      Run.Meets sessionStep (fun u act => u.paints act = false) u acts)) := by
  induction acts generalizing u with
  | nil =>
      obtain rfl := Option.some.inj hrun
      exact ⟨[], rfl, iff_of_true rfl fun _ => trivial⟩
  | cons act acts ih =>
      obtain ⟨m, hm, hrest⟩ := Run.run_cons_eq_some.1 hrun
      obtain ⟨hpanel, first, hfirst, hfirst_iff⟩ := shows_sessionStep hm
      obtain ⟨later, hlater, hlater_iff⟩ := ih hrest
      refine ⟨later ++ first, by rw [hlater, hfirst, List.append_assoc], ?_⟩
      have hmeets : Run.Meets sessionStep (fun u act => u.paints act = false) u (act :: acts) ↔
          u.paints act = false ∧
            Run.Meets sessionStep (fun u act => u.paints act = false) m acts := by
        refine and_congr_right fun _ => ⟨fun h => h m hm, fun h m' hm' => ?_⟩
        obtain rfl := Option.some.inj (hm.symm.trans hm')
        exact h
      rw [List.append_eq_nil_iff, hfirst_iff, hlater_iff, hpanel, hmeets, Bool.not_eq_true]
      exact and_comm.trans imp_and.symm

end Session

end Ui

/-! ## The sessions that keep the contract -/

section Contract

variable {deps : Deps} {initial : Screen} {io : UiIO}

/-- A session opens with a paint, whatever it opens on. -/
lemma opened_eq_present :
    ∃ u : Ui, u.canvas = ⟨deps.panel, false, []⟩ ∧ opened deps initial io = u.present .full := by
  unfold opened Ui.start
  dsimp only
  split_ifs
  · exact ⟨_, Ui.canvas_goTo _ _, rfl⟩
  · exact ⟨_, Ui.canvas_goTo _ _, rfl⟩
  · exact ⟨_, Ui.canvas_offerPendingDraftOr _ _, rfl⟩

lemma panel_opened : (opened deps initial io).deps.panel = deps.panel := by
  obtain ⟨u, hu, hopened⟩ := @opened_eq_present deps initial io
  rw [hopened, Ui.deps_present]
  exact congrArg Canvas.panel hu

lemma refreshes_opened (hpanel : deps.panel = true) :
    ∃ r, (opened deps initial io).refreshes = [r] := by
  obtain ⟨u, hu, hopened⟩ := @opened_eq_present deps initial io
  obtain ⟨r, hr⟩ := Ui.refreshes_present ((congrArg Canvas.panel hu).trans hpanel) .full
  rw [hopened]
  exact ⟨r, hr.trans (congrArg (List.cons r) (congrArg Canvas.refreshes hu))⟩

lemma refreshes_opened_of_no_panel (hpanel : deps.panel = false) :
    (opened deps initial io).refreshes = [] := by
  obtain ⟨u, hu, hopened⟩ := @opened_eq_present deps initial io
  rw [hopened, Ui.refreshes_present_of_no_panel ((congrArg Canvas.panel hu).trans hpanel)]
  exact congrArg Canvas.refreshes hu

/-- Behind a first waveform, any others have to be waited for. -/
lemma waited_waveforms_iff {r : Refresh} {rs : List Refresh} {cs : List Command} :
    Waited ((r :: rs).map Refresh.command ++ cs) ↔ rs = [] ∧ Waited cs ∧ WaitsFirst cs := by
  rw [List.map_cons, List.cons_append, waited_cons]
  cases rs with
  | nil => simp [r.isWaveform_command]
  | cons r' rs =>
      have hnot : ¬ WaitsFirst ((r' :: rs).map Refresh.command ++ cs) := by
        rw [List.map_cons, List.cons_append, waitsFirst_cons]
        rintro (hwait | ⟨hquiet, -⟩)
        · cases r' <;> cases hwait
        · rw [r'.isWaveform_command] at hquiet
          cases hquiet
      refine iff_of_false (fun h => hnot (h.2 r.isWaveform_command)) fun h => ?_
      cases h.1

/-- All that a panel receives, from a session and from the wipe that ends it. -/
def received (u : Ui) (calls : List WipeCall) : List Command := u.commands ++ wipeCommands calls

variable [Layout] {acts : List UiAct} {u : Ui}

/-- **The waveforms are waited for where there is one of them before the wipe.**  In a session with
any events, ended by any wipe, the panel is waited for between all of its waveforms if and only if
the interface has no panel to paint on, or no event paints after the start, and the wipe is that of
an emergency or has no panel itself. -/
theorem waveforms_wait_iff (hrun : Run.run Ui.sessionStep (opened deps initial io) acts = some u)
    (d : WipeDeps) (cover : Ui.CoverState) (w : Wipe) :
    Waited (received u (d.wipe cover w)) ↔ (deps.panel = true →
      Run.Meets Ui.sessionStep (fun u act => u.paints act = false) (opened deps initial io) acts ∧
        (d.panel = true → w = .emergency)) := by
  obtain ⟨rs, hrs, hnone⟩ := Ui.shows_run hrun
  unfold received Ui.commands
  rw [panel_opened] at hnone
  cases hpanel : deps.panel with
  | false =>
      have hempty : rs = [] := hnone.2 fun hp => by simp [hpanel] at hp
      rw [hrs, hempty, refreshes_opened_of_no_panel hpanel]
      exact iff_of_true (waited_wipe d cover w) (fun hp => by cases hp)
  | true =>
      obtain ⟨r, hr⟩ := @refreshes_opened deps initial io hpanel
      have hmeets : rs = [] ↔ Run.Meets Ui.sessionStep (fun u act => u.paints act = false)
          (opened deps initial io) acts := by
        rw [hnone, hpanel]
        exact ⟨fun h => h rfl, fun h _ => h⟩
      rw [hrs, hr, List.reverse_append, List.reverse_singleton, List.singleton_append,
        waited_waveforms_iff, List.reverse_eq_nil_iff, hmeets, waitsFirst_wipe_iff]
      exact ⟨fun h _ => ⟨h.1, h.2.2⟩, fun h => ⟨(h rfl).1, waited_wipe d cover w, (h rfl).2⟩⟩

/-- What the panel is promised: whatever happens in a session, and whichever wipe ends it, every
waveform is waited for before the next. -/
def WaveformsWait : Prop :=
  ∀ (deps : Deps) (initial : Screen) (io : UiIO) (acts : List UiAct) (u : Ui) (d : WipeDeps)
    (cover : Ui.CoverState) (w : Wipe),
    Run.run Ui.sessionStep (opened deps initial io) acts = some u →
      Waited (received u (d.wipe cover w))

end Contract

namespace Sample

/-- The cover of a device with half a battery. -/
def resting : Ui.CoverState := ⟨.resting, false, 50, false⟩

/-- Nobody presses a key. -/
def untouched : List UiAct :=
  [⟨.tick, { now := 1000 }⟩, ⟨.autosaveDraft, { now := 2000 }⟩, ⟨.tick, { now := 60000 }⟩]

end Sample

/-- The battery gives out while the cover is on the glass, and the cover is waited for. -/
theorem untouched_waits : ∃ u, Run.run (@Ui.sessionStep Sample.layout)
    (opened Sample.lockedDeps .cover {}) Sample.untouched = some u ∧
      Waited (received u (({} : WipeDeps).wipe Sample.resting .emergency)) := by
  have hmeets : Run.Meets (@Ui.sessionStep Sample.layout)
      (fun u act => @Ui.paints Sample.layout u act = false)
      (opened Sample.lockedDeps .cover {}) Sample.untouched := by
    decide +kernel
  exact ⟨_, rfl, (@waveforms_wait_iff _ _ _ Sample.layout Sample.untouched _ rfl _ _ _).2
    fun _ => ⟨hmeets, fun _ => rfl⟩⟩

/-- **A device that is put away flushes the panel while the cover is still being drawn.** -/
theorem graceful_wipe_interrupts : ¬ @WaveformsWait Sample.layout := by
  intro hclaim
  have hwaited := hclaim {} .cover {} [] _ {} Sample.resting .graceful rfl
  cases hwaited [] .fullRefresh [] (.clearFlush 4) [.waitBusy, .fullRefresh, .waitBusy, .deepSleep]
    rfl rfl rfl

end Chaskiwasi.Device
