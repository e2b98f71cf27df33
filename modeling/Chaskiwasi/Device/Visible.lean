import Chaskiwasi.Device.Glass
import Chaskiwasi.Device.View

/-!
# What the child can see

Title, message, rows and lines share the rows of one panel, and only the rows of a list are shown
through a window that follows the selection.  Lines are painted from the first, as far as there is
room, on the writing screen and in the log of what the device tells home as everywhere else.

`Visible` is what the child should see on these screens, and `visible_iff` where it does.
-/

namespace Chaskiwasi.Device

open Utf8proc
open Wrap (breakLines)

/-- The screens whose keys move a selection over rows. -/
def Screen.isList : Screen → Bool
  | .inbox | .composePick | .outbox | .settings | .draftConflict | .settingsContacts => true
  | .cover | .pin | .read | .composeWrite | .fault | .settingsLog | .settingsAbout => false

/-- Only no text has no lines. -/
lemma breakLines_eq_nil_iff [Data] {body : List UInt8} {charsPerLine : ℤ} :
    breakLines body charsPerLine = [] ↔ body = [] := by
  unfold breakLines
  dsimp only
  by_cases hbody : body = []
  · simp [hbody]
  · rw [if_neg hbody]
    refine iff_of_false ?_ hbody
    generalize Wrap.Wrapping.placeWord _ _ = w
    split_ifs with hline
    · simp
    · exact fun hlines => hline (.inr hlines)

namespace Ui

section Views

variable [Data] (u : Ui) (io : ViewIO)

/-- The current view has a part painted. -/
def Paints (p : Part) : Prop := (u.view io).Shows u.metrics.linesPerPage p

/-- The interface's count of rows is the view's. -/
lemma length_rows_view : (u.view io).rows.length = u.rowCount := by
  unfold view build rowCount
  cases u.screen with
  | inbox =>
      dsimp only [buildInbox]
      split_ifs with hempty
      · rw [hempty]
        rfl
      · simp
  | composePick =>
      dsimp only [buildPick]
      split_ifs with hempty
      · rw [hempty]
        rfl
      · simp
  | outbox =>
      dsimp only [buildOutbox]
      split_ifs with hempty hrejected
      · rw [hempty]
        rfl
      · simp
      · simp
  | settingsContacts =>
      dsimp only [buildContacts]
      split_ifs <;> simp
  | cover | pin | read | composeWrite | settings | fault | draftConflict | settingsLog
  | settingsAbout => rfl

/-- Building the view again brings the selection to the row that the view selects. -/
lemma selected_rebuild : u.rebuild.selected = (u.view io).selected := by
  have hselected : (u.view io).selected = min u.selected ((u.view io).rows.length - 1) := rfl
  rw [hselected, length_rows_view]
  unfold rebuild selected setSelected
  simp

lemma selected_lt (h : (u.view io).rows ≠ []) : (u.view io).selected < (u.view io).rows.length := by
  have hpos := List.length_pos_iff.2 h
  have hselected : (u.view io).selected = min u.selected ((u.view io).rows.length - 1) := rfl
  omega

omit [Data] in
lemma linesPerPage_metrics :
    u.metrics.linesPerPage = if u.fontSize = .small then 11 else 9 := by
  unfold metrics
  cases u.fontSize <;> rfl

omit [Data] in
lemma linesPerPage_nonneg : 0 ≤ u.metrics.linesPerPage := by
  rw [linesPerPage_metrics]
  split_ifs <;> omega

end Views

/-! ## The log -/

section Log

variable [Layout] {u : Ui} {io : UiIO} {k : Key}

omit [Layout] in
lemma move_eq_setSelected (u : Ui) (delta : ℤ) (count : ℕ) :
    ∃ n, u.move delta count = u.setSelected n := by
  unfold move
  split_ifs
  · exact ⟨_, rfl⟩
  · exact ⟨_, rfl⟩

/-- Up and down leave the log where it is, with nothing to say. -/
lemma key_log (hscreen : u.screen = .settingsLog) (hkey : k = .up ∨ k = .down) :
    (u.key ⟨k, 0⟩ io).screen = .settingsLog ∧ (u.key ⟨k, 0⟩ io).deps = u.deps ∧
      (u.key ⟨k, 0⟩ io).message = none := by
  have hkeyed : ∃ n, ((u.touched ⟨k, 0⟩ io).keyScreen ⟨k, 0⟩ io).1 =
      (u.touched ⟨k, 0⟩ io).setSelected n := by
    unfold keyScreen
    rw [show (u.touched ⟨k, 0⟩ io).screen = .settingsLog from hscreen]
    rcases hkey with rfl | rfl <;> exact move_eq_setSelected _ _ _
  obtain ⟨n, hkeyed⟩ := hkeyed
  have hsheet := sheet_key u ⟨k, 0⟩ io
  have hdeps := deps_key u ⟨k, 0⟩ io
  rw [hkeyed] at hsheet hdeps
  have hnone : (u.touched ⟨k, 0⟩ io).message = none := by
    refine if_neg ?_
    rcases hkey with rfl | rfl <;> nofun
  exact ⟨(congrArg Sheet.screen hsheet).trans hscreen, hdeps,
    (congrArg Sheet.message hsheet).trans hnone⟩

/-- Any number of them do. -/
lemma keys_log {ks : List Key} (hscreen : u.screen = .settingsLog)
    (hkeys : ∀ k ∈ ks, k = .up ∨ k = .down) :
    (ks.foldl (fun u k => u.key ⟨k, 0⟩ io) u).screen = .settingsLog ∧
      (ks.foldl (fun u k => u.key ⟨k, 0⟩ io) u).deps = u.deps := by
  induction ks generalizing u with
  | nil => exact ⟨hscreen, rfl⟩
  | cons k ks ih =>
      obtain ⟨hk, hdeps, -⟩ := @key_log _ u io k hscreen (hkeys k (List.mem_cons_self ..))
      obtain ⟨hks, hdeps'⟩ := ih hk fun k' hk' => hkeys k' (List.mem_cons_of_mem _ hk')
      exact ⟨hks, hdeps'.trans hdeps⟩

end Log

section Told

variable [Data] {u : Ui} {io : ViewIO}

/-- The row of the panel that a title takes. -/
def titleRows (title : List UInt8) : ℕ := if title = [] then 0 else 1

lemma view_log (hscreen : u.screen = .settingsLog) :
    (u.view io).title = io.t .settingsWhatItTells ∧ (u.view io).rows = [] ∧
      (u.view io).lines.length = max u.deps.logEntries 1 ∧
        (u.view io).message = (u.message.map fun m => u.broken io m.stringId).getD [] := by
  unfold view build
  rw [hscreen]
  dsimp only [buildLog]
  refine ⟨rfl, rfl, ?_, rfl⟩
  rw [List.nil_append]
  split_ifs with hnone
  · rw [hnone]
    rfl
  · rw [List.length_map, List.length_range]
    omega

/-- The entries that are painted are the first. -/
lemma paints_log_iff (hscreen : u.screen = .settingsLog) {i : ℕ} (hi : i < u.deps.logEntries) :
    u.Paints io (.line i) ↔
      ((u.view io).head : ℤ) + i + 1 < u.metrics.linesPerPage := by
  obtain ⟨-, hrows, hlines, -⟩ := @view_log _ u io hscreen
  unfold Paints
  rw [View.shows_line_iff u.linesPerPage_nonneg (.inl hrows), hrows, hlines]
  simp
  omega

end Told

/-! ## What can be seen -/

section Visible

variable [Layout] [Data] {u : Ui} {io : ViewIO} {t : UiIO}

/-- What the child should see: of a list, the selected row; of what it writes, the last line; and
every entry of the log, after some presses of up and down. -/
structure Visible (u : Ui) (io : ViewIO) (t : UiIO) : Prop where
  chosen : u.screen.isList = true → (u.view io).rows ≠ [] →
    u.Paints io (.row (u.view io).selected)
  written : u.screen = .composeWrite → (u.view io).lines ≠ [] →
    u.Paints io (.line ((u.view io).lines.length - 1))
  told : u.screen = .settingsLog → ∀ i < u.deps.logEntries, ∃ ks : List Key,
    (∀ k ∈ ks, k = .up ∨ k = .down) ∧
      (ks.foldl (fun u k => u.key ⟨k, 0⟩ t) u).Paints io (.line i)

/-- There is room for it: behind the title and the message for a row; behind those and the subject
for the whole text; behind the title for the whole log; and always for the footer. -/
def Fits (u : Ui) (io : ViewIO) : Prop :=
  match u.screen with
  | .inbox | .composePick | .outbox | .settings | .draftConflict | .settingsContacts =>
      u.rowCount = 0 ∨ ((u.view io).head : ℤ) + 1 < u.metrics.linesPerPage
  | .composeWrite =>
      u.body = "" ∨
        ((u.view io).head : ℤ) + (breakLines (utf8 u.body) u.metrics.charsPerLine).length + 1 <
          u.metrics.linesPerPage
  | .settingsLog =>
      u.deps.logEntries = 0 ∨
        (titleRows (io.t .settingsWhatItTells) : ℤ) + u.deps.logEntries < u.metrics.linesPerPage
  | .cover | .pin | .read | .fault | .settingsAbout => True

omit [Layout] in
lemma lines_write (io : ViewIO) (hscreen : u.screen = .composeWrite) :
    (u.view io).lines = breakLines (utf8 u.body) u.metrics.charsPerLine := by
  unfold view build
  rw [hscreen]
  rfl

omit [Layout] in
lemma lines_eq_nil_iff (io : ViewIO) (hscreen : u.screen = .composeWrite) :
    (u.view io).lines = [] ↔ u.body = "" := by
  rw [lines_write io hscreen, breakLines_eq_nil_iff]
  unfold utf8
  constructor
  · intro h
    have hsize : u.body.toByteArray.size = 0 := congrArg List.length h
    rwa [String.size_toByteArray, String.utf8ByteSize_eq_zero_iff] at hsize
  · intro h
    rw [h]
    rfl

omit [Layout] in
/-- A list shows its selected row where the head leaves it one. -/
lemma chosen_iff (hrows : (u.view io).rows ≠ []) :
    u.Paints io (.row (u.view io).selected) ↔
      ((u.view io).head : ℤ) + 1 < u.metrics.linesPerPage :=
  View.shows_selected_iff u.linesPerPage_nonneg (u.selected_lt io hrows)

omit [Layout] in
/-- The writing screen shows the last line where the whole text fits. -/
lemma written_iff (hscreen : u.screen = .composeWrite) (hlines : (u.view io).lines ≠ []) :
    u.Paints io (.line ((u.view io).lines.length - 1)) ↔
      ((u.view io).head : ℤ) + (u.view io).lines.length + 1 < u.metrics.linesPerPage := by
  have hcount : (u.view io).rows.length = 1 := by
    rw [length_rows_view]
    unfold rowCount
    rw [hscreen]
  have hrows : (u.view io).rows ≠ [] := List.length_pos_iff.1 (by omega)
  have hpos := List.length_pos_iff.2 hlines
  unfold Paints
  rw [View.shows_line_iff u.linesPerPage_nonneg (.inr (u.selected_lt io hrows)), hcount]
  omega

/-- The log shows its last entry where it shows all of them at once: the keys move a selection that
no row has, and the lines stay where they are. -/
lemma told_iff (hscreen : u.screen = .settingsLog) :
    (∀ i < u.deps.logEntries, ∃ ks : List Key, (∀ k ∈ ks, k = .up ∨ k = .down) ∧
        (ks.foldl (fun u k => u.key ⟨k, 0⟩ t) u).Paints io (.line i)) ↔
      u.deps.logEntries = 0 ∨
        (titleRows (io.t .settingsWhatItTells) : ℤ) + u.deps.logEntries <
          u.metrics.linesPerPage := by
  have hhead (v : Ui) (hv : v.screen = .settingsLog) :
      (v.view io).head = titleRows (io.t .settingsWhatItTells) + (v.view io).message.length := by
    obtain ⟨htitle, -⟩ := @view_log _ v io hv
    unfold View.head titleRows
    rw [htitle]
  constructor
  · intro h
    by_contra hmany
    rw [not_or] at hmany
    obtain ⟨ks, hks, hpaints⟩ := h (u.deps.logEntries - 1) (by omega)
    obtain ⟨hlog, hdeps⟩ := @keys_log _ u t ks hscreen hks
    rw [paints_log_iff hlog (by rw [hdeps]; omega), hhead _ hlog] at hpaints
    unfold metrics fontSize at hpaints hmany
    rw [hdeps] at hpaints
    omega
  · intro h i hi
    obtain ⟨hlog, hdeps, hnone⟩ := @key_log _ u t .up hscreen (.inl rfl)
    refine ⟨[.up], fun k hk => .inl (List.mem_singleton.1 hk), ?_⟩
    show (u.key ⟨.up, 0⟩ t).Paints io (.line i)
    obtain ⟨-, -, -, hmessage⟩ := @view_log _ (u.key ⟨.up, 0⟩ t) io hlog
    rw [paints_log_iff hlog (by rw [hdeps]; exact hi), hhead _ hlog, hmessage, hnone]
    unfold metrics fontSize at h ⊢
    rw [hdeps]
    simp
    omega

/-- **What the child sees.**  Whatever the state, the strings, the font and the lengths: what it
acts on can be seen if and only if there is room for it. -/
theorem visible_iff (u : Ui) (io : ViewIO) (t : UiIO) : u.Visible io t ↔ u.Fits io := by
  unfold Fits
  cases hscreen : u.screen with
  | inbox | composePick | outbox | settings | draftConflict | settingsContacts =>
      dsimp only
      rw [← length_rows_view u io, List.length_eq_zero_iff]
      have hlist : u.screen.isList = true := by
        rw [hscreen]
        rfl
      constructor
      · intro h
        refine or_iff_not_imp_left.2 fun hrows => ?_
        exact (chosen_iff hrows).1 (h.chosen hlist hrows)
      · intro h
        refine ⟨fun _ hrows => (chosen_iff hrows).2 (h.resolve_left hrows), fun hother => ?_,
          fun hother => ?_⟩
        · rw [hscreen] at hother
          cases hother
        · rw [hscreen] at hother
          cases hother
  | composeWrite =>
      dsimp only
      rw [← lines_write io hscreen, ← lines_eq_nil_iff io hscreen]
      constructor
      · intro h
        refine or_iff_not_imp_left.2 fun hlines => ?_
        exact (written_iff hscreen hlines).1 (h.written hscreen hlines)
      · intro h
        refine ⟨fun hother => ?_,
          fun _ hlines => (written_iff hscreen hlines).2 (h.resolve_left hlines), fun hother => ?_⟩
        · rw [hscreen] at hother
          cases hother
        · rw [hscreen] at hother
          cases hother
  | settingsLog =>
      dsimp only
      rw [← told_iff (t := t) hscreen]
      constructor
      · exact fun h => h.told hscreen
      · intro h
        refine ⟨fun hother => ?_, fun hother => ?_, fun _ => h⟩
        · rw [hscreen] at hother
          cases hother
        · rw [hscreen] at hother
          cases hother
  | cover | pin | read | fault | settingsAbout =>
      refine iff_of_true ⟨fun hother => ?_, fun hother => ?_, fun hother => ?_⟩ trivial
      all_goals
        rw [hscreen] at hother
        cases hother

end Visible

end Ui

namespace Sample

/-- A report from a device at rest. -/
def report : HealthEntry where
  at' := 0
  block :=
    { batteryPct := ⟨50, by decide⟩
      charging := false
      rat := ""
      rssi := ⟨-80, by decide⟩
      queueDepth := ⟨2, by decide⟩
      fw := "" }

/-- The words of the device, and a log of reports. -/
def words : ViewIO := { text := chaskiText, recent := fun _ => report }

/-- The log with all the reports that it keeps. -/
def fullLog : Ui := { deps := { logEntries := 32 }, screen := .settingsLog }

end Sample

namespace Ui

/-- Of a full log the child never sees the older reports. -/
theorem not_visible : ¬ ∀ (u : Ui) (io : ViewIO) (t : UiIO),
    @Visible Sample.layout Utf8proc.Sample.data u io t := by
  intro h
  have htold := @Visible.told Sample.layout Utf8proc.Sample.data _ _ _
    (h Sample.fullLog Sample.words {}) rfl
  rcases (@told_iff Sample.layout Utf8proc.Sample.data Sample.fullLog Sample.words {} rfl).1 htold
    with hnone | hfew
  · exact absurd hnone (by decide)
  · exact absurd hfew (by decide)

end Ui

end Chaskiwasi.Device
