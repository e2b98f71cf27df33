import Chaskiwasi.Device.ShownFiles
import Chaskiwasi.Lib.Atomic
import Chaskiwasi.Lib.Run

/-!
# Calls that fail

A call on one of the device's stores goes to the file system in steps, and each may fail.  How a
write, a removal or an append ends follows from the step that failed (`ended`, `removed`,
`appended`); what matters is whether the file is the new one by then.

A `World` is the six stores of a running device.  `failed_unchanged_iff` is about every call that
returns false, in every state that is reached by calls that met their condition: it changed nothing,
in memory and for a reboot, exactly where it meets its condition too.
-/

namespace Chaskiwasi.Device.Failed

open Atomic

/-! ## The file steps -/

section Files

variable {α : Type}

/-- `WriteAtomic`: the file, and the answer. -/
def writeAtomic (a : α) (fault : Option Step) (d : Disk α) : Disk α × Bool :=
  replace a fault [.close] [.openDir, .syncDir] d

/-- How `WriteAtomic` ends. -/
def ended : Option Step → WriteOutcome
  | none | some .chmod => .done
  | some .openDir | some .syncDir => .replaced
  | some .create | some .write | some .sync | some .close | some .rename => .unchanged

/-- The file is the new one, and the answer true, where the outcome says so. -/
theorem writeAtomic_ended (a : α) (fault : Option Step) (d : Disk α) :
    (writeAtomic a fault d).1.entry = (if (ended fault).written then some (whole a) else d.entry) ∧
      (writeAtomic a fault d).2 = (ended fault).ok := by
  have hentry : (writeAtomic a fault d).1.entry =
      if ∀ s ∈ early [.close], fault ≠ some s then some (whole a) else d.entry :=
    entry_replace (by decide) (by decide)
  have hok : (writeAtomic a fault d).2 =
      decide (∀ s ∈ early [.close] ++ [.openDir, .syncDir], fault ≠ some s) := rfl
  rw [hentry, hok]
  cases fault with
  | none => exact ⟨if_pos (by decide), by decide⟩
  | some s =>
      cases s with
      | create | write | sync | close | rename => exact ⟨if_neg (by decide), by decide⟩
      | chmod | openDir | syncDir => exact ⟨if_pos (by decide), by decide⟩

inductive RemoveStep
  | unlink
  | openDir
  | syncDir
  deriving DecidableEq, Repr

/-- `Remove`: what is left under the name, and the answer.  A file that is not there is removed
already. -/
def removeFile (fault : Option RemoveStep) : Option α → Option α × Bool
  | none => (none, true)
  | some a => if fault = some .unlink then (some a, false) else (none, decide (fault = none))

/-- How the removal of a file ends. -/
def removed : Option RemoveStep → WriteOutcome
  | none => .done
  | some .unlink => .unchanged
  | some .openDir | some .syncDir => .replaced

theorem removeFile_removed (a : α) (fault : Option RemoveStep) :
    removeFile fault (some a) =
      (if (removed fault).written then none else some a, (removed fault).ok) := by
  cases fault with
  | none => rfl
  | some s =>
      cases s with
      | unlink => rfl
      | openDir | syncDir => rfl

/-- `AppendLine`; where the write fails, `n` bytes of the line are in the file. -/
def appendLine (line : String) (fault : Option Step) (n : ℕ) (text : List Char) :
    List Char × Bool :=
  match fault with
  | some .create => (text, false)
  | some .write => (text ++ (terminated line).take n, false)
  | some .sync => (text ++ terminated line, false)
  | _ => (text ++ terminated line, true)

/-- How an append ends. -/
def appended : Option Step → WriteOutcome
  | some .create | some .write => .unchanged
  | some .sync => .replaced
  | _ => .done

/-- The line is among the complete ones where the outcome says so; a write that fails leaves the
newline out at least. -/
theorem appendLine_appended {text : List Char} {line : String} {n : ℕ} (hwhole : Whole text)
    (hline : '\n' ∉ line.toList) (hn : n ≤ line.toList.length) (fault : Option Step) :
    linesOf (appendLine line fault n text).1 =
        (if (appended fault).written then linesOf text ++ [line] else linesOf text) ∧
      (appendLine line fault n text).2 = (appended fault).ok := by
  have hall : linesOf (text ++ terminated line) = linesOf text ++ [line] := by
    rw [linesOf_append hwhole, linesOf_terminated hline]
  have hpart : linesOf (text ++ (terminated line).take n) = linesOf text := by
    rw [linesOf_append hwhole, linesOf_take hline, if_neg (not_lt.2 hn), List.append_nil]
  cases fault with
  | none => exact ⟨hall, rfl⟩
  | some s =>
      cases s with
      | create => exact ⟨rfl, rfl⟩
      | write => exact ⟨hpart, rfl⟩
      | sync | close | chmod | rename | openDir | syncDir => exact ⟨hall, rfl⟩

end Files

/-! ## The stores of a running device -/

structure World where
  letters : FileLetterStore
  outbox : Outbox
  seen : FileSeenRing
  state : FileStateStore
  settings : FileSettingsStore
  contacts : FileStore

/-- The stores by their names. -/
inductive Object
  | letters
  | outbox
  | seen
  | state
  | settings
  | contacts
  deriving DecidableEq, Repr

/-- A call that writes, and the file step of it that fails. -/
inductive Call
  | put (l : Letter) (fault : Option Step)
  | markRead (id : String) (fault : Option Step)
  | evictBeyond (keep : ℕ) (faults : String → Option RemoveStep)
  | add (contactID subject body : String) (composedAt : ℤ) (counter letter : Option Step)
  | resolve (localID : String) (status : Option AckStatus) (write : Option Step)
      (remove : Option RemoveStep)
  | discard (localID : String) (fault : Option RemoveStep)
  | addSeen (id : String) (fault : Option Step)
  | setCursor (cursor : String) (fault : Option Step)
  | setAylluVersion (v : ℕ) (fault : Option Step)
  | setLastSyncAt (t : ℤ) (fault : Option Step)
  | setFontStep (step : ℤ) (fault : Option Step)
  | setFrontlightStep (step : ℤ) (fault : Option Step)
  | setPinEnabled (enabled : Bool) (fault : Option Step)
  | applyConfig (c : PushedConfig) (fault : Option Step)
  | applySnapshot (a : Ayllu) (fault : Option Step)
  | setOverlay (id : String) (overlay : Overlay) (fault : Option Step)
  | clearOverlay (id : String) (fault : Option Step)

def Call.object : Call → Object
  | put .. | markRead .. | evictBeyond .. => .letters
  | add .. | resolve .. | discard .. => .outbox
  | addSeen .. => .seen
  | setCursor .. | setAylluVersion .. | setLastSyncAt .. => .state
  | setFontStep .. | setFrontlightStep .. | setPinEnabled .. | applyConfig .. => .settings
  | applySnapshot .. | setOverlay .. | clearOverlay .. => .contacts

/-- How the one write of `Resolve` ends: an ack of `sent` removes the file. -/
def resolved (status : Option AckStatus) (write : Option Step) (remove : Option RemoveStep) :
    WriteOutcome :=
  if status = some .sent then removed remove else ended write

/-- How the one write of the ring's `Add` ends: the file is rewritten where it has drifted past the
ring, and appended to otherwise. -/
def recorded (s : FileSeenRing) (fault : Option Step) : WriteOutcome :=
  if s.linesOnDisk + 1 > s.capacity + s.slack then ended fault else appended fault

namespace World

/-- A device on a partition that was just formatted. -/
def fresh (capacity : ℕ) : World where
  letters := {}
  outbox := Outbox.formatted.opened
  seen := .empty capacity
  state := ⟨{}, {}⟩
  settings := ⟨{}, {}⟩
  contacts := ⟨⟨⟨0, []⟩, ⟨0, []⟩⟩, ⟨[], []⟩⟩

variable (w : World)

/-- The stores opened anew; `o` is how the ring's file is rewritten, where it is. -/
def opened (o : WriteOutcome) : World where
  letters := w.letters.opened
  outbox := w.outbox.opened
  seen := w.seen.opened o
  state := FileStateStore.opened w.state
  settings := FileSettingsStore.opened w.settings
  contacts := w.contacts.opened

/-- A call, and whether it returned true.  `EvictBeyond` returns the number of letters it removed,
and none counts as false. -/
def call : Call → World × Bool
  | .put l fault =>
      let (letters, ok) := w.letters.put l (ended fault)
      ({ w with letters }, ok)
  | .markRead id fault =>
      let (letters, ok) := w.letters.markRead id (ended fault)
      ({ w with letters }, ok)
  | .evictBeyond keep faults =>
      let (letters, n) := w.letters.evictBeyond keep fun id => removed (faults id)
      ({ w with letters }, decide (n ≠ 0))
  | .add contactID subject body composedAt counter letter =>
      let (outbox, localID) :=
        w.outbox.add contactID subject body composedAt (ended counter) (ended letter)
      ({ w with outbox }, localID.isSome)
  | .resolve localID status write remove =>
      let (outbox, ok) := w.outbox.resolve localID status (resolved status write remove)
      ({ w with outbox }, ok)
  | .discard localID fault =>
      let (outbox, ok) := w.outbox.discard localID (removed fault)
      ({ w with outbox }, ok)
  | .addSeen id fault =>
      let (seen, ok) := w.seen.add id (recorded w.seen fault)
      ({ w with seen }, ok)
  | .setCursor cursor fault =>
      let (state, ok) := FileStateStore.setCursor w.state cursor (ended fault)
      ({ w with state }, ok)
  | .setAylluVersion v fault =>
      let (state, ok) := FileStateStore.setAylluVersion w.state v (ended fault)
      ({ w with state }, ok)
  | .setLastSyncAt t fault =>
      let (state, ok) := FileStateStore.setLastSyncAt w.state t (ended fault)
      ({ w with state }, ok)
  | .setFontStep step fault =>
      let (settings, ok) := FileSettingsStore.setFontStep w.settings step (ended fault)
      ({ w with settings }, ok)
  | .setFrontlightStep step fault =>
      let (settings, ok) := FileSettingsStore.setFrontlightStep w.settings step (ended fault)
      ({ w with settings }, ok)
  | .setPinEnabled enabled fault =>
      let (settings, ok) := FileSettingsStore.setPinEnabled w.settings enabled (ended fault)
      ({ w with settings }, ok)
  | .applyConfig c fault =>
      let (settings, ok) := FileSettingsStore.applyConfig w.settings c (ended fault)
      ({ w with settings }, ok)
  | .applySnapshot a fault =>
      let (contacts, ok) := w.contacts.applySnapshot a (ended fault)
      ({ w with contacts }, ok)
  | .setOverlay id overlay fault =>
      let (contacts, ok) := w.contacts.setOverlay id overlay (ended fault)
      ({ w with contacts }, ok)
  | .clearOverlay id fault =>
      let (contacts, ok) := w.contacts.clearOverlay id (ended fault)
      ({ w with contacts }, ok)

/-- A store shows the same in two worlds.  The number of the last local id, which the state shows,
is in a file of the outbox. -/
def Shows : Object → World → World → Prop
  | .letters, v, w => v.letters.view = w.letters.view
  | .outbox, v, w => v.outbox.view = w.outbox.view
  | .seen, v, w => v.seen.view = w.seen.view
  | .state, v, w =>
      FileStateStore.snapshot v.state v.outbox.counter =
        FileStateStore.snapshot w.state w.outbox.counter
  | .settings, v, w => v.settings.held = w.settings.held
  | .contacts, v, w => v.contacts.view = w.contacts.view

/-- The store shows what it did before the call, and so it does when it is opened anew. -/
def LeavesUnchanged (c : Call) : Prop :=
  Shows c.object (w.call c).1 w ∧ ∀ o, Shows c.object ((w.call c).1.opened o) (w.call c).1

/-- The condition on a call, by what it does and which file step fails. -/
def Safe : Call → Prop
  | .put l fault => w.letters.PutSafe l (ended fault)
  | .markRead id fault => w.letters.MarkReadSafe id (ended fault)
  | .evictBeyond keep faults => w.letters.EvictSafe keep fun id => removed (faults id)
  | .add _ _ _ _ counter letter => w.outbox.AddSafe (ended counter) (ended letter)
  | .resolve localID status write remove =>
      w.outbox.ResolveSafe localID status (resolved status write remove)
  | .discard localID fault => w.outbox.DiscardSafe localID (removed fault)
  | .addSeen id fault => w.seen.AddSafe id (recorded w.seen fault)
  | .setCursor cursor fault => w.state.CommitSafe { w.state.held with cursor } (ended fault)
  | .setAylluVersion v fault =>
      w.state.CommitSafe { w.state.held with aylluVersion := v } (ended fault)
  | .setLastSyncAt t fault =>
      w.state.CommitSafe { w.state.held with lastSyncAt := t } (ended fault)
  | .setFontStep step fault =>
      w.settings.CommitSafe { w.settings.held with fontStep := step }.sanitise (ended fault)
  | .setFrontlightStep step fault =>
      w.settings.CommitSafe { w.settings.held with frontlightStep := step }.sanitise (ended fault)
  | .setPinEnabled enabled fault =>
      w.settings.CommitSafe { w.settings.held with pinEnabled := enabled }.sanitise (ended fault)
  | .applyConfig c fault =>
      w.settings.CommitSafe (w.settings.held.edit c).sanitise (ended fault)
  | .applySnapshot a fault => w.contacts.SnapshotSafe a (ended fault)
  | .setOverlay id overlay fault => w.contacts.SetSafe id overlay (ended fault)
  | .clearOverlay id fault => w.contacts.ClearSafe id (ended fault)

/-- What a call must meet besides for the calls after it: its letter's number fits the counter's
file, and contacts that show the same are the same. -/
def Steady : Call → Prop
  | .add .. => w.outbox.highWater + 1 < 2 ^ 63
  | .applySnapshot a fault => w.contacts.snapshot.CommitSafe a (ended fault)
  | .setOverlay id overlay fault =>
      id ≠ "" → w.contacts.overlays.CommitSafe
        (FileStore.setRow w.contacts.overlays.held id overlay) (ended fault)
  | .clearOverlay id fault =>
      (w.contacts.overlays.held.find? fun row => row.1 = id).isSome = true →
        ended fault ≠ .replaced
  | _ => True

/-- What memory has is what the files have, in each of the stores. -/
structure Faithful : Prop where
  letters : w.letters.Mirrors
  outbox : w.outbox.Sound
  seen : w.seen.Exact
  state : w.state.file = w.state.held
  settings : FileSettingsStore.Sound w.settings
  contacts : w.contacts.Sound

variable {w} {c : Call} {capacity : ℕ}

lemma faithful_fresh (capacity : ℕ) : (fresh capacity).Faithful where
  letters := ⟨List.Pairwise.nil, List.nodup_nil, fun _ => Iff.rfl⟩
  outbox :=
    { mirrors := ⟨List.Pairwise.nil, fun _ => Iff.rfl⟩
      nodup := List.nodup_nil
      minted := by simp [fresh, Outbox.opened, Outbox.formatted]
      le := le_refl _
      lt := by simp [fresh, Outbox.opened, Outbox.formatted] }
  seen := ⟨List.drop_nil, List.nodup_nil, by simp [fresh, FileSeenRing.empty]⟩
  state := rfl
  settings := ⟨rfl, rfl⟩
  contacts := ⟨rfl, List.Perm.refl _, List.nodup_nil⟩

lemma Faithful.opened (h : w.Faithful) (o : WriteOutcome) : (w.opened o).Faithful where
  letters := FileLetterStore.mirrors_opened h.letters.ascending
  outbox := h.outbox.opened
  seen := (h.seen.opened (o := o)).1
  state := rfl
  settings := h.settings.opened
  contacts := h.contacts.opened

/-- A call that meets its conditions keeps memory and files together. -/
theorem Faithful.call (h : w.Faithful) (hsafe : w.Safe c) (hsteady : w.Steady c) :
    (w.call c).1.Faithful := by
  cases c with
  | put l fault => exact { h with letters := h.letters.put_of_putSafe hsafe }
  | markRead id fault => exact { h with letters := h.letters.markRead_of_markReadSafe hsafe }
  | evictBeyond keep faults => exact { h with letters := h.letters.removeEach hsafe }
  | add contactID subject body composedAt counter letter =>
      exact { h with outbox := h.outbox.add hsteady hsafe }
  | resolve localID status write remove => exact { h with outbox := h.outbox.resolve hsafe }
  | discard localID fault => exact { h with outbox := h.outbox.discard hsafe }
  | addSeen id fault => exact { h with seen := h.seen.add_of_addSafe hsafe }
  | setCursor cursor fault =>
      exact { h with state := Mirrored.commit_file_eq_held h.state hsafe }
  | setAylluVersion v fault =>
      exact { h with state := Mirrored.commit_file_eq_held h.state hsafe }
  | setLastSyncAt t fault =>
      exact { h with state := Mirrored.commit_file_eq_held h.state hsafe }
  | setFontStep step fault => exact { h with settings := h.settings.commit hsafe }
  | setFrontlightStep step fault => exact { h with settings := h.settings.commit hsafe }
  | setPinEnabled enabled fault => exact { h with settings := h.settings.commit hsafe }
  | applyConfig c fault => exact { h with settings := h.settings.commit hsafe }
  | applySnapshot a fault => exact { h with contacts := h.contacts.applySnapshot hsteady }
  | setOverlay id overlay fault => exact { h with contacts := h.contacts.setOverlay hsteady }
  | clearOverlay id fault => exact { h with contacts := h.contacts.clearOverlay hsteady }

/-- Where memory and files are together, a call that returned false changed nothing exactly where
it met its condition. -/
theorem Faithful.leavesUnchanged_iff (h : w.Faithful) (hfalse : (w.call c).2 = false) :
    w.LeavesUnchanged c ↔ w.Safe c := by
  cases c with
  | put l fault =>
      exact h.letters.put_unchanged_iff hfalse
  | markRead id fault =>
      exact h.letters.markRead_unchanged_iff hfalse
  | evictBeyond keep faults =>
      have hnone : (w.letters.evictBeyond keep fun id => removed (faults id)).2 = 0 := by
        exact not_not.1 (of_decide_eq_false hfalse)
      exact h.letters.evictBeyond_unchanged_iff hnone
  | add contactID subject body composedAt counter letter =>
      have hnone := Option.isSome_eq_false_iff.1 hfalse
      exact h.outbox.add_unchanged_iff (Option.isNone_iff_eq_none.1 hnone)
  | resolve localID status write remove =>
      exact h.outbox.resolve_unchanged_iff hfalse
  | discard localID fault =>
      exact h.outbox.discard_unchanged_iff hfalse
  | addSeen id fault =>
      exact h.seen.add_unchanged_iff hfalse
  | setCursor cursor fault =>
      exact FileStateStore.commit_unchanged_iff h.state hfalse w.outbox.counter
  | setAylluVersion v fault =>
      exact FileStateStore.commit_unchanged_iff h.state hfalse w.outbox.counter
  | setLastSyncAt t fault =>
      exact FileStateStore.commit_unchanged_iff h.state hfalse w.outbox.counter
  | setFontStep step fault =>
      exact h.settings.commit_unchanged_iff hfalse
  | setFrontlightStep step fault =>
      exact h.settings.commit_unchanged_iff hfalse
  | setPinEnabled enabled fault =>
      exact h.settings.commit_unchanged_iff hfalse
  | applyConfig c fault =>
      exact h.settings.commit_unchanged_iff hfalse
  | applySnapshot a fault =>
      exact h.contacts.applySnapshot_unchanged_iff hfalse
  | setOverlay id overlay fault =>
      exact h.contacts.setOverlay_unchanged_iff hfalse
  | clearOverlay id fault =>
      exact h.contacts.clearOverlay_unchanged_iff hfalse

end World

/-! ## Runs -/

inductive Event
  | call (c : Call)
  /-- A reboot; `o` is how the ring's file is rewritten, where it is. -/
  | boot (o : WriteOutcome)

def step (w : World) : Event → Option World
  | .call c => some (w.call c).1
  | .boot o => some (w.opened o)

/-- The condition on a run: each of its calls meets its own. -/
def Orderly (w : World) : Event → Prop
  | .call c => w.Safe c ∧ w.Steady c
  | .boot _ => True

lemma faithful_step {w v : World} {ev : Event} (h : w.Faithful) (horderly : Orderly w ev)
    (hstep : step w ev = some v) : v.Faithful := by
  cases ev with
  | call c =>
      obtain rfl := Option.some.inj hstep
      exact h.call horderly.1 horderly.2
  | boot o =>
      obtain rfl := Option.some.inj hstep
      exact h.opened o

/-- In every state that a run of calls that meet their conditions reaches, a call that returns false
leaves what the store shows as it was, and as the files have it, exactly where the call meets its
condition. -/
theorem failed_unchanged_iff {capacity : ℕ} {evs : List Event} {w : World} {c : Call}
    (horderly : Run.Meets step Orderly (.fresh capacity) evs)
    (hrun : Run.run step (.fresh capacity) evs = some w) (hfalse : (w.call c).2 = false) :
    w.LeavesUnchanged c ↔ w.Safe c :=
  (Run.run_invariant_of_meets (fun _ _ _ => faithful_step) (World.faithful_fresh capacity) horderly
    hrun).leavesUnchanged_iff hfalse

namespace Sample

/-- A cursor is stored, and the device is booted again. -/
def events : List Event := [.call (.setCursor "c1" none), .boot .done]

def booted : World := ((World.fresh 1000).call (.setCursor "c1" none)).1.opened .done

lemma orderly_events : Run.Meets step Orderly (.fresh 1000) events := by
  refine ⟨⟨fun ho => absurd ho (by decide), trivial⟩, fun v hv => ?_⟩
  exact ⟨trivial, fun _ _ => trivial⟩

lemma run_events : Run.run step (.fresh 1000) events = some booted := rfl

end Sample

theorem failed_unchanged_rename :
    Sample.booted.Safe (.setCursor "c2" (some .rename)) ∧
      Sample.booted.LeavesUnchanged (.setCursor "c2" (some .rename)) := by
  have hsafe : Sample.booted.Safe (.setCursor "c2" (some .rename)) :=
    fun ho => absurd ho (by decide)
  exact ⟨hsafe, (failed_unchanged_iff Sample.orderly_events Sample.run_events rfl).2 hsafe⟩

/-- The directory cannot be synced after the rename: the cursor in memory is the old one, and the
one in the file the new. -/
theorem failed_not_unchanged :
    ¬ ∀ (capacity : ℕ) (evs : List Event) (w : World) (c : Call),
      Run.run step (.fresh capacity) evs = some w → (w.call c).2 = false →
        w.LeavesUnchanged c := by
  intro h
  have hsame := (h 1000 [] _ (.setCursor "c1" (some .syncDir)) rfl rfl).2 .done
  have hcursor : "c1" = "" := congrArg (fun x => x.1.cursor) hsame
  exact absurd hcursor (by decide)

/-- An id that could not be written is in the ring until the next boot. -/
example : ¬ (World.fresh 1000).LeavesUnchanged (.addSeen "l1" (some .write)) := by
  rintro ⟨hsame, -⟩
  have hcontains : true = false := congrFun (congrArg FileSeenRing.View.contains hsame) "l1"
  cases hcontains

end Chaskiwasi.Device.Failed
