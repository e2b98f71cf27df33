import Chaskiwasi.Device.Stores
import Chaskiwasi.Lib.Run

/-!
# The screens

The user interface is a state machine: one screen is current, every screen has its own keys, and
ticks, faults and the wipe's autosave come from outside.  `Ui` is its whole state, the stores behind
it included; what is painted is left out, but for the number of rows and lines, which bound the
selection, and for which refreshes the panel was asked for.

An event comes with a `UiIO`: the clock, what the seams answer, and how each write ends.  No event
writes to the same file twice in the same way.
-/

namespace Chaskiwasi.Device

inductive Screen
  | cover
  | pin
  | inbox
  | read
  | composePick
  | composeWrite
  | outbox
  | settings
  | fault
  | draftConflict
  | settingsContacts
  | settingsLog
  | settingsAbout
  deriving DecidableEq, Repr

inductive FaultKind
  | none
  | cantReachHome
  | askYourGuardians
  | roadBusy
  | chargeMe
  deriving DecidableEq, Repr

inductive Key
  | none
  | up
  | down
  | left
  | right
  | enter
  | back
  | putAway
  | sync
  | frontlight
  | char
  | erase
  deriving DecidableEq, Repr

structure KeyEvent where
  key : Key
  /-- Valid for `char`. -/
  codepoint : ℕ := 0
  deriving DecidableEq, Repr

/-- The waveform an update deserves. -/
inductive Refresh
  | partialRefresh
  | fast
  | full
  deriving DecidableEq, Repr

/-- The strings that `message_` is set to. -/
inductive Message
  | storageFailed
  | composeEmpty
  | outboxFull
  | composeSent
  | pinTryAgainSoon
  | pinWrong
  | composeTooLong
  deriving DecidableEq, Repr

inductive PendingKind
  | none
  /-- Woke with a draft. -/
  | resume
  /-- Picked a person while a different draft was open. -/
  | newLetter
  /-- Reopening a rejected letter. -/
  | recompose
  deriving DecidableEq, Repr

/-- What the child was trying to do when the draft slot turned out to be occupied. -/
structure Pending where
  kind : PendingKind := .none
  contactID : String := ""
  subject : String := ""
  body : String := ""
  localID : String := ""
  deriving DecidableEq, Repr

inductive Field
  | body
  | subject
  deriving DecidableEq, Repr

/-- What is behind the screens; `none` is a null pointer. -/
structure Deps where
  letters : Option LetterStore := none
  outbox : Option Outbox := none
  drafts : Option DraftStore := none
  settings : Option Settings := none
  contacts : Option ContactStore := none
  /-- How many entries the health log has to show. -/
  logEntries : ℕ := 0
  /-- Whether there is a panel, and a painter for it. -/
  panel : Bool := true
  deriving DecidableEq, Repr

/-- What the about screen and the cover are told. -/
structure About where
  batteryPct : ℤ := 0
  charging : Bool := false
  deriving DecidableEq, Repr

/-- What an event finds outside the interface. -/
structure UiIO where
  now : ℤ := 0
  nowEpoch : ℤ := 0
  clockValid : Bool := false
  /-- What `verify_pin` says of the entry. -/
  verifyPin : Bool := false
  about : Option About := none
  markRead : WriteOutcome := .done
  saveDraft : WriteOutcome := .done
  discardDraft : WriteOutcome := .done
  mintLocalID : WriteOutcome := .done
  addLetter : WriteOutcome := .done
  discardLetter : WriteOutcome := .done
  saveSettings : WriteOutcome := .done
  saveOverlay : WriteOutcome := .done
  deriving DecidableEq, Repr

structure Ui where
  deps : Deps
  screen : Screen := .cover
  /-- One selection per screen. -/
  sel : Screen → ℕ := fun _ => 0
  message : Option Message := none
  letters : List StoredLetter := []
  queued : List OutboxEntry := []
  picker : List MergedContact := []
  roster : List MergedContact := []
  openLetter : Option StoredLetter := none
  pages : ℕ := 0
  page : ℕ := 0
  contactID : String := ""
  subject : String := ""
  body : String := ""
  field : Field := .body
  draftOpen : Bool := false
  composeMax : ℕ := 500
  pending : Pending := {}
  editing : Bool := false
  editBuf : String := ""
  pinEntry : List Char := []
  wrongAttempts : ℕ := 0
  backoffUntil : ℤ := 0
  unlocked : Bool := false
  fault : FaultKind := .none
  diagnostic : String := ""
  chargeMe : Bool := false
  lastKey : ℤ := 0
  lastSave : ℤ := 0
  lastEdit : ℤ := 0
  deferredPaint : Bool := false
  partialsSinceFull : ℕ := 0
  /-- The number of lines of the view, where a key handler reads it. -/
  viewLines : ℕ := 0
  /-- What the panel was asked for, newest first. -/
  refreshes : List Refresh := []

/-- Text layout: grapheme clusters, as the device counts and cuts them, and pages. -/
class Layout where
  countGraphemes : String → ℕ
  truncateGraphemes : String → ℕ → String
  eraseLastGrapheme : String → String
  /-- How many pages a body takes at a font step. -/
  pages : String → ℤ → ℕ

def defaultLettersKeep : ℕ := 200

def maxNicknameGraphemes : ℕ := 24

def maxSubjectGraphemes : ℕ := 100

def pinMaxDigits : ℕ := 6

def pinBackoffFirstMs : ℤ := 1000

def pinBackoffMaxMs : ℤ := 60000

def draftAutosaveIntervalMs : ℤ := 30000

def composeIdleRefreshMs : ℤ := 200

def partialsBeforeFullRefresh : ℕ := 8

def frontlightStepCount : ℤ := 4

namespace Ui

/-! ## Small helpers -/

/-- Whether a pushed PIN is yet to be entered. -/
def pinRequired (u : Ui) : Bool := !u.unlocked && u.deps.settings.any Settings.pinEnabled

/-- The time a letter or a draft is stamped with. -/
def stamp (io : UiIO) : ℤ := if io.clockValid then io.nowEpoch else 0

def selected (u : Ui) : ℕ := u.sel u.screen

def setSelected (u : Ui) (n : ℕ) : Ui :=
  { u with sel := fun s => if s = u.screen then n else u.sel s }

def reloadLetters (u : Ui) : Ui :=
  { u with letters := (u.deps.letters.map fun l => l.listNewestFirst defaultLettersKeep).getD [] }

def reloadOutbox (u : Ui) : Ui :=
  { u with queued := (u.deps.outbox.map Outbox.all).getD [] }

def reloadContacts (u : Ui) : Ui :=
  { u with
    picker := (u.deps.contacts.map ContactStore.composable).getD []
    roster := (u.deps.contacts.map ContactStore.merged).getD [] }

/-- `Go`. -/
def goTo (u : Ui) (s : Screen) : Ui :=
  let v : Ui :=
    { u with
      sel := if s ≠ u.screen then fun t => if t = s then 0 else u.sel t else u.sel
      screen := s
      editing := false }
  match s with
  | .inbox => v.reloadLetters
  | .outbox => v.reloadOutbox
  | .composePick | .settingsContacts => v.reloadContacts
  | _ => v

def move (u : Ui) (delta : ℤ) (count : ℕ) : Ui :=
  if count = 0 then u.setSelected 0
  else u.setSelected (min (max (u.selected + delta) 0) (count - 1)).toNat

/-- The four top-level screens, cycled left and right. -/
def tabs : List Screen := [.inbox, .composePick, .outbox, .settings]

def tab (u : Ui) (delta : ℤ) : Ui :=
  let idx : ℤ := if u.screen ∈ tabs then tabs.idxOf u.screen else 0
  u.goTo (tabs.getD ((idx + delta + 4) % 4).toNat .inbox)

/-! ## Drafts -/

/-- `OfferPendingDraft`, or what comes where there is none to offer. -/
def offerPendingDraftOr (u : Ui) (s : Screen) : Ui :=
  if u.deps.drafts.any DraftStore.pending then
    { u with pending := { kind := .resume } }.goTo .draftConflict
  else u.goTo s

def openCompose (u : Ui) (contactID subject body : String) (io : UiIO) : Ui :=
  { u with
    contactID := contactID
    subject := subject
    body := body
    field := .body
    draftOpen := true
    lastSave := io.now
    composeMax := (u.deps.settings.map fun (s : Settings) => s.maxLetterChars.toNat).getD 500 }.goTo
      (if contactID = "" then .composePick else .composeWrite)

def closeCompose (u : Ui) : Ui :=
  { u with contactID := "", subject := "", body := "", draftOpen := false, deferredPaint := false }

/-- Never overwrites: a pending draft turns the request into a question. -/
def startDraft (u : Ui) (p : Pending) (io : UiIO) : Ui :=
  match u.deps.drafts with
  | none => { u with message := some .storageFailed }
  | some drafts =>
      match drafts.start ⟨p.contactID, p.subject, p.body, stamp io⟩ io.saveDraft with
      | (drafts', .started) =>
          -- The text is in the slot before the entry that held it is retired.
          let outbox' :=
            if p.kind = .recompose then
              u.deps.outbox.map fun b => (b.discard p.localID io.discardLetter).1
            else u.deps.outbox
          { u with deps := { u.deps with drafts := some drafts', outbox := outbox' } }.openCompose
            p.contactID p.subject p.body io
      | (drafts', .draftPending) =>
          { u with
            deps := { u.deps with drafts := some drafts' }
            pending := p }.goTo .draftConflict
      | (drafts', .writeFailed) =>
          { u with
            deps := { u.deps with drafts := some drafts' }
            message := some .storageFailed }

def autosaveDraft (u : Ui) (io : UiIO) : Ui :=
  if u.draftOpen then
    match u.deps.drafts with
    | none => u
    | some drafts =>
        { u with
          deps :=
            { u.deps with
              drafts :=
                some (drafts.save ⟨u.contactID, u.subject, u.body, stamp io⟩ io.saveDraft).1 }
          lastSave := io.now }
  else u

/-! ## Sending -/

/-- The entry `Add` makes. -/
def finished (u : Ui) (b : Outbox) (io : UiIO) : OutboxEntry where
  localID := formatLocalID b.next
  contactID := u.contactID
  subject := u.subject
  body := u.body
  composedAt := stamp io

def send (u : Ui) (io : UiIO) : Ui :=
  if u.body = "" then { u with message := some .composeEmpty }
  else
    match u.deps.outbox with
    | none => { u with message := some .storageFailed }
    | some b =>
        if outboxCap ≤ b.sendableCount then
          -- The finished letter parks as the draft.
          { u.autosaveDraft io with message := some .outboxFull }.goTo .outbox
        else
          let minted := b.mint io.mintLocalID
          if io.mintLocalID.ok then
            let b' := minted.insert (u.finished b io) io.addLetter
            if io.addLetter.ok then
              let drafts' := u.deps.drafts.map fun d => (d.discard io.discardDraft).1
              { { u with
                  deps := { u.deps with outbox := some b', drafts := drafts' } }.closeCompose with
                message := some .composeSent }.goTo .outbox
            else
              { u with
                deps := { u.deps with outbox := some b' }
                message := some .storageFailed }
          else
            { u with
              deps := { u.deps with outbox := some minted }
              message := some .storageFailed }

/-! ## Painting -/

/-- The number of rows of the view. -/
def rowCount (u : Ui) : ℕ :=
  match u.screen with
  | .inbox => u.letters.length
  | .composePick => u.picker.length
  | .composeWrite => 1
  | .outbox => u.queued.length
  | .settings => 5
  | .draftConflict => 2
  | .settingsContacts => u.roster.length
  | .cover | .pin | .read | .fault | .settingsLog | .settingsAbout => 0

/-- The number of lines of the view, on the screens that scroll them. -/
def lineCount (u : Ui) : ℕ :=
  match u.screen with
  | .settingsLog => max u.deps.logEntries 1
  | .settingsAbout => 3
  | _ => 0

/-- Builds the view, which brings the selection back into the rows. -/
def rebuild (u : Ui) : Ui :=
  { u.setSelected (min u.selected (u.rowCount - 1)) with viewLines := u.lineCount }

/-- Builds the view and updates the panel, every so many partials in full. -/
def present (u : Ui) (r : Refresh) : Ui :=
  let v := u.rebuild
  if v.deps.panel then
    let partials := if r = .partialRefresh then v.partialsSinceFull + 1 else v.partialsSinceFull
    let r' := if r = .partialRefresh ∧ partialsBeforeFullRefresh ≤ partials then .full else r
    { v with
      partialsSinceFull := if r' = .full then 0 else partials
      refreshes := r' :: v.refreshes }
  else v

/-! ## The keys of each screen -/

def keyCover (u : Ui) (e : KeyEvent) : Ui × Refresh :=
  if e.key = .none then (u, .fast)
  else if u.pinRequired then (u.goTo .pin, .full)
  else (u.offerPendingDraftOr .inbox, .full)

/-- The doubling loop of `BackoffMs`, for so many rounds. -/
def doubledBackoff : ℕ → ℤ → ℤ
  | 0, ms => ms
  | n + 1, ms => if ms < pinBackoffMaxMs then doubledBackoff n (ms * 2) else ms

def backoffMs (attempts : ℕ) : ℤ :=
  min (doubledBackoff (attempts - 1) pinBackoffFirstMs) pinBackoffMaxMs

def openAfterUnlock (u : Ui) : Ui := u.offerPendingDraftOr .inbox

def keyPin (u : Ui) (e : KeyEvent) (io : UiIO) : Ui × Refresh :=
  if u.backoffUntil ≠ 0 ∧ io.now < u.backoffUntil then
    ({ u with message := some .pinTryAgainSoon }, .fast)
  else
    let u := { u with backoffUntil := 0 }
    match e.key with
    | .char =>
        if '0'.toNat ≤ e.codepoint ∧ e.codepoint ≤ '9'.toNat ∧ u.pinEntry.length < pinMaxDigits then
          ({ u with pinEntry := u.pinEntry ++ [Char.ofNat e.codepoint] }, .fast)
        else (u, .fast)
    | .back => ({ u with pinEntry := u.pinEntry.dropLast }, .fast)
    | .enter =>
        let u := { u with pinEntry := [] }
        if io.verifyPin then
          ({ u with
              unlocked := true
              wrongAttempts := 0
              backoffUntil := 0 }.openAfterUnlock, .full)
        else
          ({ u with
             wrongAttempts := u.wrongAttempts + 1
             backoffUntil := io.now + backoffMs (u.wrongAttempts + 1)
             message := some .pinWrong }, .fast)
    | _ => (u, .fast)

/-- The keys that all four top-level screens share. -/
def keyTabs (u : Ui) (e : KeyEvent) (count : ℕ) : Ui :=
  match e.key with
  | .up => u.move (-1) count
  | .down => u.move 1 count
  | .left => u.tab (-1)
  | .right => u.tab 1
  | _ => u

section Texts

variable [Layout]

def paginate (u : Ui) : Ui :=
  { u with
    pages :=
      match u.openLetter with
      | none => 1
      | some l =>
          max (Layout.pages l.letter.body ((u.deps.settings.map Settings.fontStep).getD 0)) 1 }

def openSelectedLetter (u : Ui) (io : UiIO) : Ui × Refresh :=
  match u.letters[u.selected]? with
  | none => (u, .fast)
  | some l =>
      let read : StoredLetter := { l with unread := false }
      ({ u with
         deps :=
           { u.deps with letters :=
               u.deps.letters.map fun (s : LetterStore) => s.markRead l.letter.id io.markRead }
         letters := u.letters.set u.selected read
         openLetter := some read
         page := 0 }.paginate.goTo .read, .full)

def keyInbox (u : Ui) (e : KeyEvent) (io : UiIO) : Ui × Refresh :=
  match e.key with
  | .enter => u.openSelectedLetter io
  | _ => (u.keyTabs e u.letters.length, .fast)

def keyRead (u : Ui) (e : KeyEvent) : Ui × Refresh :=
  match e.key with
  | .left | .up => ({ u with page := u.page - 1 }, .fast)
  | .right | .down => (if u.page + 1 < u.pages then { u with page := u.page + 1 } else u, .fast)
  | .back | .enter => (u.goTo .inbox, .fast)
  | _ => (u, .fast)

def keyPick (u : Ui) (e : KeyEvent) (io : UiIO) : Ui × Refresh :=
  match e.key with
  | .enter =>
      match u.picker[u.selected]? with
      | none => (u, .fast)
      | some c =>
          if u.draftOpen then
            -- A resumed draft that had no person yet: attach and keep writing.
            (({ u with contactID := c.id }.autosaveDraft io).goTo .composeWrite, .fast)
          else (u.startDraft { kind := .newLetter, contactID := c.id } io, .fast)
  | .back => (u.goTo .inbox, .fast)
  | _ => (u.keyTabs e u.picker.length, .fast)

/-- The field that has the keys. -/
def fieldText (u : Ui) : String :=
  match u.field with
  | .body => u.body
  | .subject => u.subject

def setFieldText (u : Ui) (text : String) : Ui :=
  match u.field with
  | .body => { u with body := text }
  | .subject => { u with subject := text }

def fieldCap (u : Ui) : ℕ :=
  match u.field with
  | .body => u.composeMax
  | .subject => maxSubjectGraphemes

def appendCodepoint (s : String) (codepoint : ℕ) : String :=
  if codepoint.isValidChar then s.push (Char.ofNat codepoint) else s

def keyWriteChar (u : Ui) (codepoint : ℕ) (io : UiIO) : Ui × Refresh :=
  if u.fieldCap ≤ Layout.countGraphemes u.fieldText then
    ({ u with message := some .composeTooLong }, .fast)
  else
    let text := appendCodepoint u.fieldText codepoint
    if u.fieldCap < Layout.countGraphemes text then
      ({ u.setFieldText (Layout.truncateGraphemes text u.fieldCap) with
         message := some .composeTooLong }, .fast)
    else
      -- The panel waits for the end of a word, or for a pause.
      let wordEnds := codepoint = ' '.toNat ∨ codepoint = '\n'.toNat
      ({ u.setFieldText text with lastEdit := io.now, deferredPaint := !decide wordEnds },
        .partialRefresh)

def keyWrite (u : Ui) (e : KeyEvent) (io : UiIO) : Ui × Refresh :=
  match e.key with
  | .char => u.keyWriteChar e.codepoint io
  | .erase =>
      if u.fieldText = "" then (u, .fast)
      else
        ({ u.setFieldText (Layout.eraseLastGrapheme u.fieldText) with
           lastEdit := io.now
           deferredPaint := true }, .partialRefresh)
  | .back => ((u.autosaveDraft io).goTo .composePick, .fast)
  | .up | .down =>
      ({ u with field := if u.field = .body then .subject else .body }, .fast)
  | .enter => (u.send io, .full)
  | _ => (u, .fast)

def keyOutbox (u : Ui) (e : KeyEvent) (io : UiIO) : Ui × Refresh :=
  match e.key with
  | .enter =>
      match u.queued[u.selected]? with
      | none => (u, .fast)
      | some q =>
          if q.rejected then
            (u.startDraft ⟨.recompose, q.contactID, q.subject, q.body, q.localID⟩ io, .fast)
          else (u, .fast)
  | .back => (u.goTo .inbox, .fast)
  | _ => (u.keyTabs e u.queued.length, .fast)

def cycleFont (u : Ui) (io : UiIO) : Ui :=
  match u.deps.settings with
  | none => u
  | some s =>
      let s' := s.setFontStep ((s.fontStep + 1) % Settings.fontStepCount) io.saveSettings
      let v : Ui := { u with deps := { u.deps with settings := some s' } }
      if v.openLetter.any fun l => l.letter.id ≠ "" then
        let v := v.paginate
        { v with page := min v.page (v.pages - 1) }
      else v

def cycleFrontlight (u : Ui) (io : UiIO) : Ui :=
  match u.deps.settings with
  | none => u
  | some s =>
      let s' := s.setFrontlightStep ((s.frontlightStep + 1) % frontlightStepCount) io.saveSettings
      { u with deps := { u.deps with settings := some s' } }

def keySettings (u : Ui) (e : KeyEvent) (io : UiIO) : Ui × Refresh :=
  match e.key with
  | .back => (u.goTo .inbox, .fast)
  | .enter =>
      match u.selected with
      | 0 => (u.cycleFont io, .full)
      | 1 => (u.cycleFrontlight io, .fast)
      | 2 => (u.goTo .settingsContacts, .fast)
      | 3 => (u.goTo .settingsLog, .fast)
      | _ => (u.goTo .settingsAbout, .fast)
  | _ => (u.keyTabs e 5, .fast)

/-- The stored decoration behind a merged contact. -/
def overlayOf (c : MergedContact) : Overlay where
  nickname := if c.name ≠ c.serverName then some c.name else none
  pinned := some c.pinned

def setOverlay (u : Ui) (id : String) (overlay : Overlay) (io : UiIO) : Ui :=
  { u with
    deps :=
      { u.deps with
        contacts :=
          u.deps.contacts.map fun (s : ContactStore) => s.setOverlay id overlay io.saveOverlay }
    }.reloadContacts

def togglePinned (u : Ui) (io : UiIO) : Ui :=
  match u.roster[u.selected]?, u.deps.contacts with
  | some c, some _ => u.setOverlay c.id { overlayOf c with pinned := some !c.pinned } io
  | _, _ => u

def commitNickname (u : Ui) (io : UiIO) : Ui :=
  match u.roster[u.selected]?, u.deps.contacts with
  | some c, some _ =>
      let nickname := if u.editBuf ≠ "" ∧ u.editBuf ≠ c.serverName then some u.editBuf else none
      u.setOverlay c.id { overlayOf c with nickname := nickname } io
  | _, _ => u

def keyNicknameEdit (u : Ui) (e : KeyEvent) (io : UiIO) : Ui × Refresh :=
  match e.key with
  | .char =>
      if Layout.countGraphemes u.editBuf < maxNicknameGraphemes then
        ({ u with editBuf := appendCodepoint u.editBuf e.codepoint }, .fast)
      else (u, .fast)
  | .back =>
      if u.editBuf = "" then ({ u with editing := false }, .fast)
      else ({ u with editBuf := Layout.eraseLastGrapheme u.editBuf }, .fast)
  | .enter => ({ u.commitNickname io with editing := false }, .fast)
  | _ => (u, .fast)

def keyContacts (u : Ui) (e : KeyEvent) (io : UiIO) : Ui × Refresh :=
  if u.editing then u.keyNicknameEdit e io
  else
    match e.key with
    | .up => (u.move (-1) u.roster.length, .fast)
    | .down => (u.move 1 u.roster.length, .fast)
    | .right => (u.togglePinned io, .fast)
    | .back => (u.goTo .settings, .fast)
    | .enter =>
        match u.roster[u.selected]? with
        | none => (u, .fast)
        | some c => ({ u with editing := true, editBuf := c.name }, .fast)
    | _ => (u, .fast)

def keepPendingDraft (u : Ui) (io : UiIO) : Ui :=
  let v : Ui := { u with pending := {} }
  match u.deps.drafts.bind DraftStore.load with
  | none => v.goTo .inbox
  | some draft => v.openCompose draft.contactID draft.subject draft.body io

def dropPendingDraft (u : Ui) (io : UiIO) : Ui :=
  let drafts' := u.deps.drafts.map fun d => (d.discard io.discardDraft).1
  let v := { u with deps := { u.deps with drafts := drafts' }, pending := {} }.closeCompose
  if u.pending.kind = .resume then v.goTo .inbox else v.startDraft u.pending io

def keyConflict (u : Ui) (e : KeyEvent) (io : UiIO) : Ui × Refresh :=
  match e.key with
  | .up => (u.move (-1) 2, .fast)
  | .down => (u.move 1 2, .fast)
  | .enter => (if u.selected = 0 then u.keepPendingDraft io else u.dropPendingDraft io, .full)
  | _ => (u, .fast)

def keyFault (u : Ui) (e : KeyEvent) : Ui × Refresh :=
  -- Every fault but one is informational: the child can carry on.
  if u.fault = .chargeMe then (u, .fast)
  else if e.key = .back ∨ e.key = .enter then
    ({ u with fault := .none, diagnostic := "" }.goTo .inbox, .full)
  else (u, .fast)

def keyLines (u : Ui) (e : KeyEvent) : Ui × Refresh :=
  match e.key with
  | .up => (u.move (-1) u.viewLines, .fast)
  | .down => (u.move 1 u.viewLines, .fast)
  | .back | .enter => (u.goTo .settings, .fast)
  | _ => (u, .fast)

/-! ## The events -/

/-- Opens a session on a screen.  A pushed PIN outranks everything. -/
def start (u : Ui) (initial : Screen) (io : UiIO) : Ui :=
  let v : Ui := { u with lastKey := io.now, lastSave := io.now }
  if v.pinRequired then (v.goTo .pin).present .full
  else if initial = .cover then (v.goTo .cover).present .full
  else (v.offerPendingDraftOr initial).present .full

/-- What the current screen does with a key. -/
def keyScreen (u : Ui) (e : KeyEvent) (io : UiIO) : Ui × Refresh :=
  match u.screen with
  | .cover => u.keyCover e
  | .pin => u.keyPin e io
  | .inbox => u.keyInbox e io
  | .read => u.keyRead e
  | .composePick => u.keyPick e io
  | .composeWrite => u.keyWrite e io
  | .outbox => u.keyOutbox e io
  | .settings => u.keySettings e io
  | .fault => u.keyFault e
  | .draftConflict => u.keyConflict e io
  | .settingsContacts => u.keyContacts e io
  | .settingsLog | .settingsAbout => u.keyLines e

/-- A key is noted before the screen gets it, and clears the message of the one before. -/
def touched (u : Ui) (e : KeyEvent) (io : UiIO) : Ui :=
  { u with lastKey := io.now, message := if e.key = .none then u.message else none }

def key (u : Ui) (e : KeyEvent) (io : UiIO) : Ui :=
  let p := (u.touched e io).keyScreen e io
  if p.1.deferredPaint then p.1.rebuild else p.1.present p.2

def tick (u : Ui) (io : UiIO) : Ui :=
  if u.screen = .pin ∧ u.pinRequired = false then
    -- A PIN cleared from afar unlocks.
    { u with unlocked := true }.openAfterUnlock.present .full
  else
    let v :=
      if u.draftOpen ∧ draftAutosaveIntervalMs ≤ io.now - u.lastSave then u.autosaveDraft io else u
    if v.deferredPaint ∧ composeIdleRefreshMs ≤ io.now - v.lastEdit then
      { v with deferredPaint := false }.present .partialRefresh
    else if v.screen = .pin ∧ v.backoffUntil ≠ 0 ∧ v.backoffUntil ≤ io.now then
      { v with backoffUntil := 0 }.present .fast
    else v

def showFault (u : Ui) (k : FaultKind) (diagnostic : String) : Ui :=
  { u with
    fault := k
    diagnostic := diagnostic
    chargeMe := u.chargeMe || decide (k = FaultKind.chargeMe) }.goTo .fault |>.present .full

inductive CoverKind
  | resting
  | chargeMe
  deriving DecidableEq, Repr

/-- What the cover that a wipe leaves is drawn from. -/
structure CoverState where
  kind : CoverKind
  anyUnread : Bool
  batteryPct : ℤ
  charging : Bool
  deriving DecidableEq, Repr

def coverState (u : Ui) (io : UiIO) : CoverState where
  kind := if u.chargeMe then .chargeMe else .resting
  anyUnread := u.deps.letters.any fun s => s.letters.any StoredLetter.unread
  batteryPct := (io.about.getD {}).batteryPct
  charging := (io.about.getD {}).charging

end Texts

/-! ## What saving and ticking do -/

section Saving

variable {u w : Ui} {io : UiIO}

/-- A draft that is saved leaves all but the slot and the time as it was. -/
lemma autosaveDraft_eq (u : Ui) (io : UiIO) : ∃ drafts lastSave,
    u.autosaveDraft io =
      { u with deps := { u.deps with drafts := drafts }, lastSave := lastSave } := by
  unfold autosaveDraft
  split_ifs
  · cases hdrafts : u.deps.drafts with
    | none => exact ⟨u.deps.drafts, u.lastSave, rfl⟩
    | some drafts => exact ⟨_, _, rfl⟩
  · exact ⟨u.deps.drafts, u.lastSave, rfl⟩

lemma exists_eq_of_saved (h : w = u ∨ w = u.autosaveDraft io) : ∃ drafts lastSave,
    w = { u with deps := { u.deps with drafts := drafts }, lastSave := lastSave } := by
  rcases h with rfl | rfl
  · exact ⟨w.deps.drafts, w.lastSave, rfl⟩
  · exact u.autosaveDraft_eq io

/-- A tick opens the lock of a PIN that was cleared.  Else it may save the draft; and it paints what
was put off, or the end of a backoff, or nothing. -/
lemma tick_cases (u : Ui) (io : UiIO) :
    (u.screen = .pin ∧ u.pinRequired = false) ∧
        u.tick io = { u with unlocked := true }.openAfterUnlock.present .full ∨
      ¬ (u.screen = .pin ∧ u.pinRequired = false) ∧
        ∃ w : Ui, (w = u ∨ w = u.autosaveDraft io) ∧
          ((u.deferredPaint = true ∧ composeIdleRefreshMs ≤ io.now - u.lastEdit) ∧
              u.tick io = { w with deferredPaint := false }.present .partialRefresh ∨
            ¬ (u.deferredPaint = true ∧ composeIdleRefreshMs ≤ io.now - u.lastEdit) ∧
              ((u.screen = .pin ∧ u.backoffUntil ≠ 0 ∧ u.backoffUntil ≤ io.now) ∧
                  u.tick io = { w with backoffUntil := 0 }.present .fast ∨
                ¬ (u.screen = .pin ∧ u.backoffUntil ≠ 0 ∧ u.backoffUntil ≤ io.now) ∧
                  u.tick io = w)) := by
  unfold tick
  by_cases hcleared : u.screen = .pin ∧ u.pinRequired = false
  · rw [if_pos hcleared]
    exact .inl ⟨hcleared, rfl⟩
  · rw [if_neg hcleared]
    dsimp only
    generalize hw : (if u.draftOpen = true ∧ draftAutosaveIntervalMs ≤ io.now - u.lastSave then
      u.autosaveDraft io else u) = w
    have hsaved : w = u ∨ w = u.autosaveDraft io := by
      rw [← hw]
      split_ifs
      · exact .inr rfl
      · exact .inl rfl
    refine .inr ⟨hcleared, w, hsaved, ?_⟩
    obtain ⟨drafts, lastSave, rfl⟩ := exists_eq_of_saved hsaved
    dsimp only
    by_cases hidle : u.deferredPaint = true ∧ composeIdleRefreshMs ≤ io.now - u.lastEdit
    · rw [if_pos hidle]
      exact .inl ⟨hidle, rfl⟩
    · rw [if_neg hidle]
      by_cases hbackoff : u.screen = .pin ∧ u.backoffUntil ≠ 0 ∧ u.backoffUntil ≤ io.now
      · rw [if_pos hbackoff]
        exact .inr ⟨hidle, .inl ⟨hbackoff, rfl⟩⟩
      · rw [if_neg hbackoff]
        exact .inr ⟨hidle, .inr ⟨hbackoff, rfl⟩⟩

end Saving

end Ui

inductive UiEvent
  | key (e : KeyEvent)
  | tick
  | showFault (k : FaultKind) (diagnostic : String)
  | autosaveDraft
  /-- Something else on the device changes the stores or the settings. -/
  | background (deps : Deps)

/-- An event, with what it finds outside. -/
structure UiAct where
  event : UiEvent
  io : UiIO := {}

/-- One event. -/
def Ui.step [Layout] (u : Ui) (act : UiAct) : Option Ui :=
  some <|
    match act.event with
    | .key e => u.key e act.io
    | .tick => u.tick act.io
    | .showFault k diagnostic => u.showFault k diagnostic
    | .autosaveDraft => u.autosaveDraft act.io
    | .background deps => { u with deps := deps }

end Chaskiwasi.Device
