import Chaskiwasi.Device.Screens
import Chaskiwasi.Device.Wrap
import Chaskiwasi.Sync.Codec

/-!
# Views, and how they are painted

What a screen shows is built as a `View`: its texts, in the order in which they stand on the panel,
and which row is selected.  Painting gives every title, message line, row and line of the view a row
of the panel, from the top, as long as there is one; the last row is the footer's.

The words come from a table (`ViewIO.text`).  `places` says what stands on which row of the panel,
and `paint` what is drawn there.
-/

namespace Chaskiwasi.Device

open Utf8proc
open Wrap (Page Metrics breakLines)

def utf8 (s : String) : List UInt8 := s.toUTF8.data.toList

/-- The entries of the table of strings that the views read. -/
inductive StringId
  | appName
  | systemSender
  | contactUnknown
  | stateWaiting
  | stateCouldntSend
  | inboxTitle
  | inboxEmpty
  | readTrimmed
  | readTruncated
  | readPageFmt
  | composePickTitle
  | composePickEmpty
  | composeWriteTitle
  | composeSubjectHint
  | composeTooLong
  | composeEmpty
  | composeSent
  | composeCounterFmt
  | draftResume
  | draftLetItGo
  | outboxFull
  | draftConflictPrompt
  | draftKeepWriting
  | draftStartNew
  | outboxTitle
  | outboxEmpty
  | sendFailed
  | sendFailedAction
  | storageFailed
  | faultCantReachHome
  | faultAskGuardians
  | faultRoadBusy
  | faultChargeMe
  | faultDiagnosticFmt
  | pinPrompt
  | pinWrong
  | pinTryAgainSoon
  | pinDigitMark
  | settingsTitle
  | settingsFontSize
  | settingsFontNormal
  | settingsFontBigger
  | settingsFrontlight
  | settingsLightOff
  | settingsLightStepFmt
  | settingsContacts
  | settingsNickname
  | settingsKeepAtTop
  | settingsWhatItTells
  | settingsLogEmpty
  | settingsAbout
  | aboutVersionFmt
  | aboutBatteryFmt
  | aboutSignalFmt
  | logLineFmt
  | logBatteryFmt
  | logCharging
  | logSignalGood
  | logSignalWeak
  | logSignalNone
  | logNothingWaiting
  | logOneWaiting
  | logManyWaitingFmt
  | listSeparator
  | timeFmt
  | dayMon
  | dayTue
  | dayWed
  | dayThu
  | dayFri
  | daySat
  | daySun
  deriving DecidableEq, Repr

/-- `chaski_text`: the table that the device is built with. -/
def chaskiText : StringId → String
  | .appName => "Chaski"
  | .systemSender => "Wasi"
  | .contactUnknown => "Someone"
  | .stateWaiting => "waiting"
  | .stateCouldntSend => "couldn't send"
  | .inboxTitle => "Letters"
  | .inboxEmpty => "No letters yet."
  | .readTrimmed => "..."
  | .readTruncated => "This letter continues in the archive at home."
  | .readPageFmt => "\x7b\x7d of \x7b\x7d"
  | .composePickTitle => "Write to"
  | .composePickEmpty => "No one to write to yet."
  | .composeWriteTitle => "Your letter"
  | .composeSubjectHint => "About (you can skip this)"
  | .composeTooLong => "That's as long as a letter can be."
  | .composeEmpty => "Write something first."
  | .composeSent => "Your letter is waiting for the runner."
  | .composeCounterFmt => "\x7b\x7d/\x7b\x7d"
  | .draftResume => "Keep writing the letter you started?"
  | .draftLetItGo => "Let it go"
  | .outboxFull => "The bag is full. Send these first."
  | .draftConflictPrompt => "You're still writing another letter."
  | .draftKeepWriting => "Keep writing that one"
  | .draftStartNew => "Start a new one instead"
  | .outboxTitle => "On the road"
  | .outboxEmpty => "Nothing is waiting."
  | .sendFailed => "This letter couldn't be sent. Ask your guardians about it."
  | .sendFailedAction => "Write it again"
  | .storageFailed => "That didn't save. Try again."
  | .faultCantReachHome => "Can't reach home."
  | .faultAskGuardians => "Something needs a grown-up. Ask your guardians."
  | .faultRoadBusy => "The road is busy. Trying again soon."
  | .faultChargeMe => "Nearly out of power. Please charge me."
  | .faultDiagnosticFmt => "For a grown-up: \x7b\x7d"
  | .pinPrompt => "Your number"
  | .pinWrong => "Not quite. Try again."
  | .pinTryAgainSoon => "Wait a moment, then try again."
  | .pinDigitMark => "*"
  | .settingsTitle => "Settings"
  | .settingsFontSize => "Text size"
  | .settingsFontNormal => "Normal"
  | .settingsFontBigger => "Bigger"
  | .settingsFrontlight => "Light"
  | .settingsLightOff => "Off"
  | .settingsLightStepFmt => "Step \x7b\x7d"
  | .settingsContacts => "Names and faces"
  | .settingsNickname => "What you call them"
  | .settingsKeepAtTop => "Keep at the top"
  | .settingsWhatItTells => "What my Chaski tells home"
  | .settingsLogEmpty => "Nothing has been told yet."
  | .settingsAbout => "About this Chaski"
  | .aboutVersionFmt => "Version \x7b\x7d"
  | .aboutBatteryFmt => "Battery \x7b\x7d%"
  | .aboutSignalFmt => "Signal \x7b\x7d"
  | .logLineFmt => "\x7b\x7d - \x7b\x7d"
  | .logBatteryFmt => "battery \x7b\x7d%"
  | .logCharging => "charging"
  | .logSignalGood => "good signal"
  | .logSignalWeak => "weak signal"
  | .logSignalNone => "no signal"
  | .logNothingWaiting => "nothing waiting"
  | .logOneWaiting => "1 letter waiting"
  | .logManyWaitingFmt => "\x7b\x7d letters waiting"
  | .listSeparator => ", "
  | .timeFmt => "\x7b\x7d \x7b\x7d:\x7b\x7d"
  | .dayMon => "Mon"
  | .dayTue => "Tue"
  | .dayWed => "Wed"
  | .dayThu => "Thu"
  | .dayFri => "Fri"
  | .daySat => "Sat"
  | .daySun => "Sun"

def Message.stringId : Message → StringId
  | .storageFailed => .storageFailed
  | .composeEmpty => .composeEmpty
  | .outboxFull => .outboxFull
  | .composeSent => .composeSent
  | .pinTryAgainSoon => .pinTryAgainSoon
  | .pinWrong => .pinWrong
  | .composeTooLong => .composeTooLong

/-! ## Pieces of text -/

/-- Each pair of braces stands for the next argument. -/
def format : List UInt8 → List (List UInt8) → List UInt8
  | 0x7B :: 0x7D :: p, args => args.headD [] ++ format p args.tail
  | c :: p, args => c :: format p args
  | [], _ => []

def int (v : ℤ) : List UInt8 := utf8 (toString v)

def pad2 (v : ℤ) : List UInt8 := if (int v).length < 2 then 0x30 :: int v else int v

/-- In the order of `tm_wday`. -/
def dayIds : List StringId := [.daySun, .dayMon, .dayTue, .dayWed, .dayThu, .dayFri, .daySat]

/-- One report of the device's health, as the log keeps it. -/
structure HealthEntry where
  at' : ℤ
  block : Codec.Kipu

/-- What the about screen is told. -/
structure Facts extends About where
  firmwareVersion : String := ""
  rssi : ℤ := 0

/-- What the building of a view finds outside the interface. -/
structure ViewIO where
  /-- The table of strings. -/
  text : StringId → String
  clockValid : Bool := false
  facts : Facts := {}
  /-- The entries of the health log, newest first. -/
  recent : ℕ → HealthEntry
  /-- The pages that the open letter was broken into. -/
  pages : List Page := []

namespace ViewIO

variable (io : ViewIO)

/-- `T`. -/
def t (id : StringId) : List UInt8 := utf8 (io.text id)

/-- Empty as long as no sync has set the clock. -/
def timeLabel (epoch : ℤ) : List UInt8 :=
  if !io.clockValid || epoch ≤ 0 then []
  else
    format (io.t .timeFmt)
      [io.t (dayIds.getD ((epoch / 86400 + 4) % 7).toNat .daySun), pad2 (epoch % 86400 / 3600),
        pad2 (epoch % 3600 / 60)]

end ViewIO

def signalStringId (rssi : ℤ) : StringId :=
  if rssi = 0 then .logSignalNone
  else if -85 ≤ rssi then .logSignalGood
  else if -105 ≤ rssi then .logSignalWeak
  else .logSignalNone

/-- One line of a list screen. -/
structure Row where
  primary : List UInt8 := []
  secondary : List UInt8 := []
  meta' : List UInt8 := []
  unread : Bool := false
  marked : Bool := false
  deriving DecidableEq, Repr

structure View where
  screen : Screen
  title : List UInt8 := []
  message : List (List UInt8) := []
  rows : List Row := []
  lines : List (List UInt8) := []
  selected : ℕ := 0
  page : ℕ := 0
  pageCount : ℕ := 0
  graphemesUsed : ℕ := 0
  graphemesMax : ℕ := 0
  diagnostic : List UInt8 := []
  fault : FaultKind := .none
  editing : Bool := false
  deriving DecidableEq, Repr

inductive FontSize
  | small
  | large
  deriving DecidableEq, Repr

def metricsFor : FontSize → Metrics
  | .small => {}
  | .large => { glyphWPx := 8, glyphHPx := 16 }

/-! ## Building a view -/

namespace Ui

def fontSize (u : Ui) : FontSize :=
  if 1 ≤ (u.deps.settings.map Settings.fontStep).getD 0 then .large else .small

def metrics (u : Ui) : Metrics := metricsFor u.fontSize

/-- A contact without an entry, or without a name, has a fallback label. -/
def contactLabel (u : Ui) (io : ViewIO) (contactID : String) : List UInt8 :=
  let fallback := io.t (if contactID = sysContactID then .systemSender else .contactUnknown)
  match u.deps.contacts.map fun s => s.lookup contactID with
  | some (c, true) => if c.name ≠ "" then utf8 c.name else fallback
  | _ => fallback

def logLine (io : ViewIO) (e : HealthEntry) : List UInt8 :=
  let sep := io.t .listSeparator
  let battery := format (io.t .logBatteryFmt) [int e.block.batteryPct]
  let charging := if e.block.charging then sep ++ io.t .logCharging else []
  let waiting :=
    if e.block.queueDepth.1 ≤ 0 then io.t .logNothingWaiting
    else if e.block.queueDepth.1 = 1 then io.t .logOneWaiting
    else format (io.t .logManyWaitingFmt) [int e.block.queueDepth]
  let parts :=
    battery ++ charging ++ sep ++ io.t (signalStringId e.block.rssi) ++ sep ++ waiting
  let label := io.timeLabel e.at'
  if label = [] then parts else format (io.t .logLineFmt) [label, parts]

section Building

variable [Data] (u : Ui) (io : ViewIO) (v : View)

/-- `BreakLines` of a string of the table, at the width of the panel. -/
def broken (id : StringId) : List (List UInt8) := breakLines (io.t id) u.metrics.charsPerLine

def buildPin : View :=
  { v with
    title := io.t .appName
    editing := true
    message := if v.message = [] then u.broken io .pinPrompt else v.message
    -- The digits are counted, and not shown.
    lines := v.lines ++ [(u.pinEntry.map fun _ => io.t .pinDigitMark).flatten] }

omit [Data] in
def buildInbox : View :=
  let v := { v with title := io.t .inboxTitle }
  if u.letters = [] then { v with lines := v.lines ++ [io.t .inboxEmpty] }
  else
    { v with
      rows := v.rows ++ u.letters.map fun l =>
        { primary := u.contactLabel io l.letter.contactID
          secondary := utf8 l.letter.subject
          meta' := io.timeLabel l.letter.date
          unread := l.unread } }

def buildRead : View :=
  let letter := u.openLetter.map StoredLetter.letter
  let last := io.pages.length ≤ u.page + 1
  let lines := ((io.pages[u.page]?).map Page.lines).getD v.lines
  let lines := if last ∧ letter.any Letter.trimmed then lines ++ [io.t .readTrimmed] else lines
  { v with
    title := u.contactLabel io ((letter.map Letter.contactID).getD "")
    page := u.page
    pageCount := io.pages.length
    lines :=
      if last ∧ letter.any Letter.truncated then lines ++ u.broken io .readTruncated else lines }

omit [Data] in
def buildPick : View :=
  let v := { v with title := io.t .composePickTitle }
  if u.picker = [] then { v with lines := v.lines ++ [io.t .composePickEmpty] }
  else
    { v with
      rows := v.rows ++ u.picker.map fun c => { primary := utf8 c.name, marked := c.pinned } }

def buildWrite : View :=
  { v with
    title := u.contactLabel io u.contactID
    editing := true
    graphemesUsed := Utf8proc.countGraphemes (utf8 u.body)
    graphemesMax := u.composeMax
    rows :=
      v.rows ++
        [{ primary := if u.subject = "" then io.t .composeSubjectHint else utf8 u.subject
           marked := u.field = .subject }]
    lines := breakLines (utf8 u.body) u.metrics.charsPerLine }

def buildOutbox : View :=
  let v := { v with title := io.t .outboxTitle }
  if u.queued = [] then { v with lines := v.lines ++ [io.t .outboxEmpty] }
  else
    let v :=
      { v with
        rows := v.rows ++ u.queued.map fun q =>
          { primary := u.contactLabel io q.contactID
            secondary := utf8 q.subject
            meta' := io.t (if q.rejected then .stateCouldntSend else .stateWaiting)
            marked := q.rejected } }
    if (u.queued[u.selected]?).any OutboxEntry.rejected ∧ u.message = none then
      { v with
        message := u.broken io .sendFailed
        lines := v.lines ++ [io.t .sendFailedAction] }
    else v

omit [Data] in
def buildSettings : View :=
  let s := u.deps.settings.getD {}
  { v with
    title := io.t .settingsTitle
    rows :=
      v.rows ++
        [{ primary := io.t .settingsFontSize
           secondary :=
             io.t (if 1 ≤ s.fontStep then .settingsFontBigger else .settingsFontNormal) },
          { primary := io.t .settingsFrontlight
            secondary :=
              if s.frontlightStep = 0 then io.t .settingsLightOff
              else format (io.t .settingsLightStepFmt) [int s.frontlightStep] },
          { primary := io.t .settingsContacts },
          { primary := io.t .settingsWhatItTells },
          { primary := io.t .settingsAbout }] }

omit [Data] in
def buildContacts : View :=
  let v :=
    { v with
      title := io.t .settingsContacts
      rows := v.rows ++ u.roster.map fun c =>
        { primary := utf8 c.name
          secondary := if c.pinned then io.t .settingsKeepAtTop else []
          marked := c.pinned } }
  if u.editing then
    { v with lines := v.lines ++ [io.t .settingsNickname, utf8 u.editBuf], editing := true }
  else v

omit [Data] in
def buildLog : View :=
  { v with
    title := io.t .settingsWhatItTells
    lines :=
      v.lines ++
        if u.deps.logEntries = 0 then [io.t .settingsLogEmpty]
        else (List.range u.deps.logEntries).map fun i => logLine io (io.recent i) }

omit [Data] in
def buildAbout (io : ViewIO) (v : View) : View :=
  { v with
    title := io.t .settingsAbout
    lines :=
      v.lines ++
        [format (io.t .aboutVersionFmt) [utf8 io.facts.firmwareVersion],
          format (io.t .aboutBatteryFmt) [int io.facts.batteryPct],
          format (io.t .aboutSignalFmt) [io.t (signalStringId io.facts.rssi)]] }

def FaultKind.stringId : FaultKind → StringId
  | .cantReachHome => .faultCantReachHome
  | .askYourGuardians => .faultAskGuardians
  | .roadBusy => .faultRoadBusy
  | .chargeMe => .faultChargeMe
  | .none => .faultAskGuardians

def buildFault : View :=
  { v with
    title := io.t .appName
    message := u.broken io (FaultKind.stringId u.fault)
    diagnostic :=
      if u.diagnostic = "" then v.diagnostic
      else format (io.t .faultDiagnosticFmt) [utf8 u.diagnostic] }

def buildConflict : View :=
  let resume := u.pending.kind = .resume
  { v with
    title := io.t .composeWriteTitle
    message := u.broken io (if resume then .draftResume else .draftConflictPrompt)
    rows :=
      v.rows ++
        [{ primary := io.t .draftKeepWriting },
          { primary := io.t (if resume then .draftLetItGo else .draftStartNew) }] }

/-- The view before its selection is brought back into the rows. -/
def build : View :=
  let v : View :=
    { screen := u.screen
      fault := u.fault
      editing := u.editing
      message := (u.message.map fun m => u.broken io m.stringId).getD [] }
  match u.screen with
  | .cover => v
  | .pin => u.buildPin io v
  | .inbox => u.buildInbox io v
  | .read => u.buildRead io v
  | .composePick => u.buildPick io v
  | .composeWrite => u.buildWrite io v
  | .outbox => u.buildOutbox io v
  | .settings => u.buildSettings io v
  | .fault => u.buildFault io v
  | .draftConflict => u.buildConflict io v
  | .settingsContacts => u.buildContacts io v
  | .settingsLog => u.buildLog io v
  | .settingsAbout => buildAbout io v

/-- The view of `Rebuild`. -/
def view : View :=
  let v := u.build io
  { v with selected := min u.selected (v.rows.length - 1) }

end Building

end Ui

/-! ## Painting -/

/-- The marks that a screen's painting draws. -/
inductive Glyph
  | unread
  | selected
  | mark
  deriving DecidableEq, Repr

/-- A call of the painter. -/
inductive Draw
  | clear (w h : ℤ)
  | text (row col : ℤ) (line : List UInt8)
  | glyph (row col : ℤ) (g : Glyph)
  deriving DecidableEq, Repr

/-- What of a view stands on a row of the panel. -/
inductive Part
  | title
  | message (i : ℕ)
  | row (i : ℕ)
  | line (i : ℕ)
  deriving DecidableEq, Repr

/-- A loop of `Paint`: one part on each row of the panel, as long as there are rows above the limit;
and the row behind the last. -/
def place (limit : ℤ) : List Part → ℤ → List (ℤ × Part) × ℤ
  | [], row => ([], row)
  | p :: ps, row =>
      if row < limit then
        let (placed, next) := place limit ps (row + 1)
        ((row, p) :: placed, next)
      else ([], row)

def ellipsize [Data] (s : List UInt8) (maxGraphemes : ℤ) : List UInt8 :=
  if Utf8proc.countGraphemes s ≤ maxGraphemes.toNat then s
  else truncateGraphemes s maxGraphemes.toNat

namespace View

variable (v : View)

/-- The title and the message, from the top. -/
def headPlaces (rowsAvail : ℤ) : List (ℤ × Part) × ℤ :=
  let title := place rowsAvail (if v.title = [] then [] else [.title]) 0
  let message := place rowsAvail ((List.range v.message.length).map Part.message) title.2
  (title.1 ++ message.1, message.2)

/-- How many rows of a list there is room for behind the head. -/
def listRows (rowsAvail : ℤ) : ℤ := max 0 (rowsAvail - (v.headPlaces rowsAvail).2 - 1)

/-- The first row of the list's window, which follows the selection. -/
def first (rowsAvail : ℤ) : ℕ :=
  if 0 < v.listRows rowsAvail ∧ v.listRows rowsAvail ≤ v.selected then
    (v.selected - v.listRows rowsAvail + 1).toNat
  else 0

/-- What `Paint` puts on the rows of the panel, but for the footer. -/
def places (rowsAvail : ℤ) : List (ℤ × Part) :=
  let head := v.headPlaces rowsAvail
  let rows := place (rowsAvail - 1)
    (((List.range v.rows.length).drop (v.first rowsAvail)).map Part.row) head.2
  let lines := place (rowsAvail - 1) ((List.range v.lines.length).map Part.line) rows.2
  head.1 ++ rows.1 ++ lines.1

section Drawing

variable (io : ViewIO)

def rowText (r : Row) : List UInt8 :=
  let sep := io.t .listSeparator
  r.primary ++ (if r.secondary = [] then [] else sep ++ r.secondary) ++
    if r.meta' = [] then [] else sep ++ r.meta'

variable [Data] (cols : ℤ)

def drawRow (row : ℤ) (i : ℕ) (item : Row) : List Draw :=
  (if i = v.selected then [.glyph row 0 .selected] else []) ++
    (if item.unread then [.glyph row 1 .unread] else []) ++
    (if item.marked then [.glyph row 1 .mark] else []) ++
    [.text row 2 (ellipsize (rowText io item) (max 0 (cols - 2)))]

/-- What is drawn for a part. -/
def draw (row : ℤ) : Part → List Draw
  | .title => [.text row 0 (ellipsize v.title cols)]
  | .message i => (v.message[i]?).toList.map (.text row 0)
  | .row i => (v.rows[i]?).toList.flatMap (v.drawRow io cols row i)
  | .line i => (v.lines[i]?).toList.map (.text row 0)

omit [Data] in
def paintFooter (row : ℤ) : List Draw :=
  if row < 0 then []
  else if v.diagnostic ≠ [] then [.text row 0 v.diagnostic]
  else if v.screen = .composeWrite then
    [.text row 0 (format (io.t .composeCounterFmt) [int v.graphemesUsed, int v.graphemesMax])]
  else if v.screen = .read ∧ 0 < v.pageCount then
    [.text row 0 (format (io.t .readPageFmt) [int (v.page + 1), int v.pageCount])]
  else []

def paint (m : Metrics) : List Draw :=
  .clear m.panelWPx m.panelHPx ::
    (v.places m.linesPerPage).flatMap (fun p => v.draw io m.charsPerLine p.1 p.2) ++
      v.paintFooter io (m.linesPerPage - 1)

end Drawing

/-- A part of the view is painted. -/
def Shows (rowsAvail : ℤ) (p : Part) : Prop := ∃ row, (row, p) ∈ v.places rowsAvail

/-- The rows of the panel that the title and the whole message take. -/
def head : ℕ := (if v.title = [] then 0 else 1) + v.message.length

end View

/-! ## Which parts are painted -/

section Places

variable {limit row : ℤ} {ps : List Part} {p : Part}

/-- A loop places the parts one below the other, above the limit. -/
lemma mem_place {r : ℤ} :
    (r, p) ∈ (place limit ps row).1 ↔ ∃ j : ℕ, ps[j]? = some p ∧ r = row + j ∧ r < limit := by
  induction ps generalizing row with
  | nil => simp [place]
  | cons q ps ih =>
      unfold place
      split_ifs with hrow
      · rw [List.mem_cons, ih]
        constructor
        · rintro (heq | ⟨j, hj, hr, hlt⟩)
          · obtain ⟨rfl, rfl⟩ := Prod.mk.inj heq
            exact ⟨0, rfl, by simp, hrow⟩
          · exact ⟨j + 1, hj, by omega, hlt⟩
        · rintro ⟨j, hj, hr, hlt⟩
          cases j with
          | zero =>
              obtain rfl := Option.some.inj hj
              exact .inl (by rw [hr]; simp)
          | succ j => exact .inr ⟨j, hj, by omega, hlt⟩
      · refine iff_of_false List.not_mem_nil ?_
        rintro ⟨j, -, hr, hlt⟩
        omega

lemma place_snd : (place limit ps row).2 = row + min (ps.length : ℤ) (max 0 (limit - row)) := by
  induction ps generalizing row with
  | nil => simp [place]
  | cons q ps ih =>
      unfold place
      split_ifs with hrow
      · dsimp only
        rw [ih, List.length_cons]
        push_cast
        omega
      · rw [List.length_cons]
        push_cast
        omega

/-- A loop over a list by its indices. -/
lemma exists_mem_place_map {f : ℕ → Part} (hf : f.Injective) {n k i : ℕ} :
    (∃ r, (r, f i) ∈ (place limit (((List.range n).drop k).map f) row).1) ↔
      k ≤ i ∧ i < n ∧ row + (i - k) < limit := by
  simp only [mem_place]
  constructor
  · rintro ⟨r, j, hj, rfl, hlt⟩
    rw [List.getElem?_map, List.getElem?_drop, Option.map_eq_some_iff] at hj
    obtain ⟨i', hi', heq⟩ := hj
    obtain rfl := hf heq
    obtain ⟨hlen, hval⟩ := List.getElem?_eq_some_iff.1 hi'
    rw [List.getElem_range] at hval
    rw [List.length_range] at hlen
    omega
  · rintro ⟨hk, hn, hlt⟩
    refine ⟨row + (i - k), i - k, ?_, by omega, hlt⟩
    rw [List.getElem?_map, List.getElem?_drop, Nat.add_sub_cancel' hk,
      List.getElem?_range hn]
    rfl

end Places

namespace View

variable {v : View} {rowsAvail : ℤ} {i : ℕ}

/-- The head takes its rows, or all that there are. -/
lemma headPlaces_snd (h : 0 ≤ rowsAvail) :
    (v.headPlaces rowsAvail).2 = min (v.head : ℤ) rowsAvail := by
  unfold headPlaces head
  dsimp only
  rw [place_snd, place_snd, List.length_map, List.length_range]
  split_ifs <;> simp <;> omega

lemma not_mem_place {limit row r : ℤ} {ps : List Part} {p : Part} (h : p ∉ ps) :
    (r, p) ∉ (place limit ps row).1 := by
  rw [mem_place]
  rintro ⟨j, hj, -⟩
  exact h (List.mem_of_getElem? hj)

/-- A loop puts only parts of its own kind anywhere. -/
lemma not_mem_place_map {limit row r : ℤ} {is : List ℕ} {f : ℕ → Part} {p : Part}
    (h : ∀ i, f i ≠ p) : (r, p) ∉ (place limit (is.map f) row).1 := by
  refine not_mem_place fun hmem => ?_
  obtain ⟨i, -, hi⟩ := List.mem_map.1 hmem
  exact h i hi

/-- The head has no row of the list and no line. -/
lemma not_mem_headPlaces {r : ℤ} {p : Part} (htitle : p ≠ .title) (hmessage : ∀ i, p ≠ .message i) :
    (r, p) ∉ (v.headPlaces rowsAvail).1 := by
  unfold headPlaces
  dsimp only
  rw [List.mem_append, not_or]
  constructor
  · refine not_mem_place ?_
    split_ifs
    · exact List.not_mem_nil
    · rwa [List.mem_singleton]
  · exact not_mem_place_map fun i heq => hmessage i heq.symm

/-- The rows stand where their loop puts them. -/
lemma mem_places_row {r : ℤ} :
    (r, .row i) ∈ v.places rowsAvail ↔
      (r, .row i) ∈ (place (rowsAvail - 1)
        (((List.range v.rows.length).drop (v.first rowsAvail)).map Part.row)
        (v.headPlaces rowsAvail).2).1 := by
  unfold places
  dsimp only
  rw [List.mem_append, List.mem_append]
  constructor
  · rintro ((hhead | hrow) | hline)
    · exact absurd hhead (not_mem_headPlaces nofun nofun)
    · exact hrow
    · exact absurd hline (not_mem_place_map fun _ => by simp)
  · exact fun h => .inl (.inr h)

/-- The lines stand where their loop puts them, behind the rows. -/
lemma mem_places_line {r : ℤ} :
    (r, .line i) ∈ v.places rowsAvail ↔
      (r, .line i) ∈ (place (rowsAvail - 1) ((List.range v.lines.length).map Part.line)
        (place (rowsAvail - 1)
          (((List.range v.rows.length).drop (v.first rowsAvail)).map Part.row)
          (v.headPlaces rowsAvail).2).2).1 := by
  unfold places
  dsimp only
  rw [List.mem_append, List.mem_append]
  constructor
  · rintro ((hhead | hrow) | hline)
    · exact absurd hhead (not_mem_headPlaces nofun nofun)
    · exact absurd hrow (not_mem_place_map fun _ => by simp)
    · exact hline
  · exact fun h => .inr h

/-- The rows of the window that there is room for. -/
lemma shows_row_iff :
    v.Shows rowsAvail (.row i) ↔ v.first rowsAvail ≤ i ∧ i < v.rows.length ∧
      (v.headPlaces rowsAvail).2 + (i - v.first rowsAvail) < rowsAvail - 1 := by
  rw [← exists_mem_place_map (f := Part.row) fun _ _ h => Part.row.inj h]
  exact exists_congr fun r => mem_places_row

/-- **The window follows the selection.**  The selected row is painted where the head leaves a row
above the footer. -/
theorem shows_selected_iff (h : 0 ≤ rowsAvail) (hsel : v.selected < v.rows.length) :
    v.Shows rowsAvail (.row v.selected) ↔ (v.head : ℤ) + 1 < rowsAvail := by
  have htop := v.headPlaces_snd h
  rw [shows_row_iff]
  unfold first listRows
  rw [htop]
  split_ifs <;> omega

/-- A line is painted where it and everything before it fits above the footer. -/
theorem shows_line_iff (h : 0 ≤ rowsAvail) (hsel : v.rows = [] ∨ v.selected < v.rows.length) :
    v.Shows rowsAvail (.line i) ↔
      i < v.lines.length ∧ (v.head : ℤ) + v.rows.length + i + 1 < rowsAvail := by
  have htop := v.headPlaces_snd h
  have hshows : v.Shows rowsAvail (.line i) ↔ 0 ≤ i ∧ i < v.lines.length ∧
      (place (rowsAvail - 1) (((List.range v.rows.length).drop (v.first rowsAvail)).map Part.row)
        (v.headPlaces rowsAvail).2).2 + (i - (0 : ℕ)) < rowsAvail - 1 := by
    rw [← exists_mem_place_map (f := Part.line) fun _ _ h => Part.line.inj h, List.drop_zero]
    exact exists_congr fun r => mem_places_line
  have hfirst : v.first rowsAvail =
      if 0 < max 0 (rowsAvail - min (v.head : ℤ) rowsAvail - 1) ∧
          max 0 (rowsAvail - min (v.head : ℤ) rowsAvail - 1) ≤ v.selected then
        (v.selected - max 0 (rowsAvail - min (v.head : ℤ) rowsAvail - 1) + 1).toNat
      else 0 := by
    unfold first listRows
    rw [htop]
  have hsel : v.rows.length = 0 ∨ v.selected < v.rows.length :=
    hsel.imp_left (congrArg List.length)
  rw [hshows, place_snd, List.length_map, List.length_drop, List.length_range, htop]
  split_ifs at hfirst
  · rw [hfirst]
    omega
  · rw [hfirst]
    omega

/-- What is painted is drawn: the selected row with its mark, and a line as it is. -/
lemma draw_selected [Data] {io : ViewIO} {m : Metrics} (hsel : v.selected < v.rows.length)
    (h : v.Shows m.linesPerPage (.row v.selected)) :
    ∃ row, Draw.glyph row 0 .selected ∈ v.paint io m := by
  obtain ⟨row, hrow⟩ := h
  refine ⟨row, List.mem_append_left _ (List.mem_cons_of_mem _ (List.mem_flatMap.2 ⟨_, hrow, ?_⟩))⟩
  unfold draw
  dsimp only
  rw [List.getElem?_eq_getElem hsel]
  simp [drawRow]

lemma draw_line [Data] {io : ViewIO} {m : Metrics} (hi : i < v.lines.length)
    (h : v.Shows m.linesPerPage (.line i)) : ∃ row, Draw.text row 0 v.lines[i] ∈ v.paint io m := by
  obtain ⟨row, hrow⟩ := h
  refine ⟨row, List.mem_append_left _ (List.mem_cons_of_mem _ (List.mem_flatMap.2 ⟨_, hrow, ?_⟩))⟩
  unfold draw
  dsimp only
  rw [List.getElem?_eq_getElem hi]
  exact List.mem_singleton_self _

end View

end Chaskiwasi.Device
