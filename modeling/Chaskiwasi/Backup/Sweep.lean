import Chaskiwasi.Backup.Name
import Chaskiwasi.Lib.Files
import Chaskiwasi.Server.Config

/-!
# The retention of the backups

After each backup a sweep removes the directories beside it whose name is read as a time in front
of the cutoff.  It is to remove the backups that are older than the retention, and nothing else.

Two things come between.  A name is read as a time whatever follows its last hyphen, and with a
fraction behind the seconds, so that a directory which a person named after a backup goes with the
backups.  And the retention is counted in nanoseconds of 64 bits, which come round after 106751
days; the cutoff is then later than it should be.  `sweepsOwnOld_iff` says that there is nothing
else.
-/

namespace Chaskiwasi
namespace Backup

open Calendar Files

/-! ## The settings -/

/-- What the command goes by. -/
structure Settings where
  dir : String
  retainDays : Int64
  positive : 0 < retainDays.toInt

inductive SettingsError
  | load
  | retention (days : Int64)
  deriving DecidableEq, Repr

/-- `backupSettings`, with the file at the configured path, if there is one, as TOML. -/
def backupSettings (config : Option (Option WasiToml)) (dirOverride : String)
    (retainOverride : Int64) : Except SettingsError Settings := do
  let (dir, retainDays) ←
    match config with
    | none => pure (WasiToml.defaultBackupDir, WasiToml.defaultBackupRetain)
    | some file =>
        match WasiToml.load file with
        | none => throw .load
        | some cfg => pure (cfg.backupDir, cfg.backupRetainDays)
  let dir := if dirOverride ≠ "" then dirOverride else dir
  let retainDays := if 0 < retainOverride.toInt then retainOverride else retainDays
  if h : 0 < retainDays.toInt then pure ⟨dir, retainDays, h⟩ else throw (.retention retainDays)

/-! ## The sweep -/

/-- `now.Add(-time.Duration(retainDays) * 24 * time.Hour)`. -/
def cutoff (now : Moment) (retainDays : Int64) : ℤ :=
  now.nanos + (-retainDays * 24 * 3600000000000).toInt

def expired (cutoff : ℤ) (e : DirEntry) : Bool :=
  e.kind = .dir && (parseBackupName e.name).any fun time => decide (time.nanos < cutoff)

inductive SweepError
  | reading
  | removing (name : Name)
  deriving DecidableEq, Repr

structure Swept where
  removed : List Name := []
  error : Option SweepError := none
  deriving DecidableEq, Repr

/-- The loop over the entries, up to the first that cannot be removed. -/
def sweepEntries (cutoff : ℤ) (fails : Name → Bool) : List DirEntry → Swept
  | [] => {}
  | e :: es =>
      if expired cutoff e then
        if fails e.name then { error := some (.removing e.name) }
        else
          let rest := sweepEntries cutoff fails es
          { rest with removed := e.name :: rest.removed }
      else sweepEntries cutoff fails es

/-- `sweepOldBackups`, with what `ReadDir` gives and the names that `RemoveAll` fails for. -/
def sweepOldBackups (entries : Option (List DirEntry)) (retainDays : Int64) (now : Moment)
    (fails : Name → Bool) : Swept :=
  match entries with
  | none => { error := some .reading }
  | some entries =>
      let swept := sweepEntries (cutoff now retainDays) fails entries
      if swept.error = none then { swept with removed := swept.removed.mergeSort } else swept

/-- The names that `RemoveAll` was called for. -/
def Swept.called (s : Swept) : List Name :=
  s.removed ++
    match s.error with
    | some (.removing name) => [name]
    | _ => []

/-! ## What is asked of it -/

/-- The retention, in nanoseconds. -/
def span (retainDays : Int64) : ℤ := 86400000000000 * retainDays.toInt

/-- The name was made for a time, which lies so many days back. -/
def OwnOld (retainDays : Int64) (now : Moment) (name : Name) : Prop :=
  ∃ time, Minted name time ∧ time.whole.nanos < now.nanos - span retainDays

/-- It removes the directories that are its own and old. -/
structure SweepsOwnOld (entries : List DirEntry) (retainDays : Int64) (now : Moment) : Prop where
  /-- And whichever calls fail, none is made for anything else. -/
  only : ∀ fails, ∀ name ∈ (sweepOldBackups (some entries) retainDays now fails).called,
    { name := name, kind := .dir } ∈ entries ∧ OwnOld retainDays now name
  all : ∀ name, { name := name, kind := .dir } ∈ entries → OwnOld retainDays now name →
    name ∈ (sweepOldBackups (some entries) retainDays now fun _ => false).removed

/-- How often the retention comes round in 64 bits. -/
def turns (retainDays : Int64) : ℤ := (span retainDays + (2 ^ 63 - 1)) / 2 ^ 64

/-- No directory has a name that is read as a time without having been made for it, unless it is
late enough; and none has a time between the end of the retention and that end as it comes
round. -/
structure Spared (entries : List DirEntry) (retainDays : Int64) (now : Moment) : Prop where
  handMade : ∀ name time, { name := name, kind := .dir } ∈ entries →
    parseBackupName name = some time → (∀ made, ¬ Minted name made) →
    now.nanos - span retainDays + 2 ^ 64 * turns retainDays ≤ time.nanos
  minted : ∀ name time, { name := name, kind := .dir } ∈ entries → Minted name time →
    now.nanos - span retainDays ≤ time.whole.nanos →
    now.nanos - span retainDays + 2 ^ 64 * turns retainDays ≤ time.whole.nanos

/-- For every listing, every retention and every reading of the clock. -/
def AlwaysSweepsOwnOld : Prop :=
  ∀ (entries : List DirEntry) (settings : Settings) (now : Moment),
    SweepsOwnOld entries settings.retainDays now

/-! ## The cutoff -/

section Cutoff

variable (now : Moment) {retainDays : Int64}

lemma turns_nonneg (hpos : 0 < retainDays.toInt) : 0 ≤ turns retainDays := by
  unfold turns span
  omega

/-- No retention that a person would write comes round. -/
lemma turns_eq_zero (hpos : 0 < retainDays.toInt) (hle : retainDays.toInt ≤ 106751) :
    turns retainDays = 0 := by
  unfold turns span
  omega

/-- A retention that comes round puts the cutoff so much later. -/
lemma cutoff_eq :
    cutoff now retainDays = now.nanos - span retainDays + 2 ^ 64 * turns retainDays := by
  have hhours : (24 : Int64).toInt = 24 := by decide
  have hnanos : (3600000000000 : Int64).toInt = 3600000000000 := by decide
  have hspan : -retainDays.toInt * 24 * 3600000000000 = -span retainDays := by
    rw [span]
    omega
  have hbmod : (-retainDays * 24 * 3600000000000).toInt = (-span retainDays).bmod (2 ^ 64) := by
    rw [Int64.toInt_mul, Int64.toInt_mul, Int64.toInt_neg, hhours, hnanos, Int.bmod_mul_bmod,
      Int.mul_assoc, Int.bmod_mul_bmod, ← Int.mul_assoc, hspan]
  have hturns : (-span retainDays).bmod (2 ^ 64) =
      -span retainDays + 2 ^ 64 * turns retainDays := by
    unfold turns
    exact (Int.bmod_eq_iff (by decide)).2 ⟨by omega, by omega, by omega⟩
  rw [cutoff, hbmod, hturns]
  omega

end Cutoff

/-! ## What is removed -/

section Sweep

variable {entries : List DirEntry} {retainDays : Int64} {now : Moment} {name : Name}
  {time : Moment} {fails : Name → Bool}

lemma expired_iff {c : ℤ} {e : DirEntry} : expired c e = true ↔
    e = { name := e.name, kind := .dir } ∧
      ∃ time, parseBackupName e.name = some time ∧ time.nanos < c := by
  obtain ⟨name, kind⟩ := e
  simp [expired, Option.any_eq_true]

/-- Whatever fails, only what is expired is touched. -/
lemma called_sweepEntries {c : ℤ} (h : name ∈ (sweepEntries c fails entries).called) :
    ∃ e ∈ entries, e.name = name ∧ expired c e = true := by
  induction entries with
  | nil => cases h
  | cons e es ih =>
      unfold sweepEntries at h
      split at h
      · rename_i hexpired
        split at h
        · obtain rfl : name = e.name := by simpa [Swept.called] using h
          exact ⟨e, List.mem_cons_self .., rfl, hexpired⟩
        · rcases List.mem_cons.1 h with rfl | hrest
          · exact ⟨e, List.mem_cons_self .., rfl, hexpired⟩
          · obtain ⟨e', he', hname⟩ := ih hrest
            exact ⟨e', List.mem_cons_of_mem _ he', hname⟩
      · obtain ⟨e', he', hname⟩ := ih h
        exact ⟨e', List.mem_cons_of_mem _ he', hname⟩

/-- And when nothing fails, all of it is removed. -/
lemma removed_sweepEntries (c : ℤ) :
    sweepEntries c (fun _ => false) entries =
      { removed := (entries.filter (expired c)).map DirEntry.name } := by
  induction entries with
  | nil => rfl
  | cons e es ih =>
      unfold sweepEntries
      split
      · rename_i hexpired
        rw [ih, List.filter_cons_of_pos hexpired]
        rfl
      · rename_i hkept
        rw [ih, List.filter_cons_of_neg hkept]

lemma called_sweepOldBackups
    (h : name ∈ (sweepOldBackups (some entries) retainDays now fails).called) :
    { name := name, kind := .dir } ∈ entries ∧
      ∃ time, parseBackupName name = some time ∧ time.nanos < cutoff now retainDays := by
  have hcalled : name ∈ (sweepEntries (cutoff now retainDays) fails entries).called := by
    simp only [sweepOldBackups] at h
    split at h
    · simpa [Swept.called] using h
    · exact h
  obtain ⟨e, he, rfl, hexpired⟩ := called_sweepEntries hcalled
  obtain ⟨hdir, hbefore⟩ := expired_iff.1 hexpired
  exact ⟨hdir ▸ he, hbefore⟩

lemma removed_sweepOldBackups (hdir : { name := name, kind := .dir } ∈ entries)
    (hparse : parseBackupName name = some time) (hbefore : time.nanos < cutoff now retainDays) :
    name ∈ (sweepOldBackups (some entries) retainDays now fun _ => false).removed := by
  simp only [sweepOldBackups, removed_sweepEntries, if_pos, List.mem_mergeSort]
  have hexpired := List.mem_filter.2 ⟨hdir, expired_iff.2 ⟨rfl, time, hparse, hbefore⟩⟩
  exact List.mem_map.2 ⟨_, hexpired, rfl⟩

lemma called_of_removed {s : Swept} (h : name ∈ s.removed) : name ∈ s.called :=
  List.mem_append_left _ h

/-- The times that one name was made for lie in the same second. -/
lemma Minted.whole_eq {made made' : Moment} (h : Minted name made) (h' : Minted name made') :
    made.whole = made'.whole := by
  have hparse := parseBackupName_of_minted h
  rw [parseBackupName_of_minted h'] at hparse
  exact (Option.some.inj hparse).symm

/-- **The backup sweep removes its own old backups exactly if it spares the rest.**  For every
listing, every positive retention and every reading of the clock: whichever of its calls fail, it
touches only directories whose names were made by `uniqueBackupPath` for a time longer ago than the
retention, and when none fails it removes all of these, if and only if no directory in the listing
has a name that is read as a time in front of the cutoff without having been made by the command,
and none of the command's own has a time between the end of the retention and that end as it comes
round in 64 bits. -/
theorem sweepsOwnOld_iff (entries : List DirEntry) (settings : Settings) (now : Moment) :
    SweepsOwnOld entries settings.retainDays now ↔ Spared entries settings.retainDays now := by
  constructor
  · intro h
    refine ⟨fun name time hmem hparse hmade => ?_, fun name time hmem hminted hkept => ?_⟩
    · rw [← cutoff_eq]
      by_contra hbefore
      rw [not_le] at hbefore
      obtain ⟨-, made, hminted, -⟩ := h.only _ name
        (called_of_removed (removed_sweepOldBackups hmem hparse hbefore))
      exact hmade made hminted
    · rw [← cutoff_eq]
      by_contra hbefore
      rw [not_le] at hbefore
      obtain ⟨-, made, hminted', hold⟩ := h.only _ name
        (called_of_removed
          (removed_sweepOldBackups hmem (parseBackupName_of_minted hminted) hbefore))
      rw [hminted'.whole_eq hminted] at hold
      exact absurd hold (not_lt.2 hkept)
  · intro h
    refine ⟨fun fails name hname => ?_, fun name hmem hold => ?_⟩
    · obtain ⟨hmem, time, hparse, hbefore⟩ := called_sweepOldBackups hname
      rw [cutoff_eq] at hbefore
      refine ⟨hmem, ?_⟩
      by_cases hmade : ∃ made, Minted name made
      · obtain ⟨made, hminted⟩ := hmade
        rw [parseBackupName_of_minted hminted] at hparse
        obtain rfl := Option.some.inj hparse
        refine ⟨made, hminted, ?_⟩
        by_contra hkept
        exact absurd hbefore (not_lt.2 (h.minted name made hmem hminted (not_lt.1 hkept)))
      · rw [not_exists] at hmade
        exact absurd hbefore (not_lt.2 (h.handMade name time hmem hparse hmade))
    · obtain ⟨made, hminted, hbefore⟩ := hold
      refine removed_sweepOldBackups hmem (parseBackupName_of_minted hminted) ?_
      have hturns := turns_nonneg settings.positive
      rw [cutoff_eq]
      omega

/-- Where it is so, the backup just taken stays. -/
lemma SweepsOwnOld.fresh_kept (h : SweepsOwnOld entries retainDays now) (hminted : Minted name time)
    (hfresh : now.nanos - span retainDays ≤ time.whole.nanos) :
    name ∉ (sweepOldBackups (some entries) retainDays now fails).called := by
  intro hname
  obtain ⟨-, made, hminted', hold⟩ := h.only fails name hname
  rw [hminted'.whole_eq hminted] at hold
  exact absurd hold (not_lt.2 hfresh)

/-- With a retention that does not come round, the listing needs only to be free of look-alikes. -/
lemma spared_of_minted (hpos : 0 < retainDays.toInt) (hle : retainDays.toInt ≤ 106751)
    (h : ∀ name time, { name := name, kind := .dir } ∈ entries →
      parseBackupName name = some time → ∃ made, Minted name made) :
    Spared entries retainDays now where
  handMade name time hmem hparse hmade := by
    obtain ⟨made, hminted⟩ := h name time hmem hparse
    exact absurd hminted (hmade made)
  minted name time hmem hminted hkept := by
    rw [turns_eq_zero hpos hle]
    omega

/-- A name that was made ends as a time does, or as a number. -/
lemma last_of_minted (h : Minted name time) :
    ∀ c ∈ name.getLast?, c = 'Z' ∨ c.isDigit = true := by
  obtain ⟨k, hk, rfl⟩ := minted_iff.1 h
  intro c hc
  cases k with
  | zero => exact Or.inl (Option.some.inj hc).symm
  | succ k =>
      rw [candidate, suffixed, formatInt_ofNat hk] at hc
      have hmem : c ∈ Nat.toDigits 10 (k + 1) := by
        rw [List.append_cons, List.getLast?_append_of_ne_nil _ Nat.toDigits_ne_nil] at hc
        exact List.mem_of_mem_getLast? hc
      exact Or.inr (Nat.isDigit_of_mem_toDigits (by decide) (by decide) hmem)

end Sweep
end Backup

namespace Sample

/-- A week. -/
def week : Backup.Settings := ⟨"/backups", 7, by decide⟩

/-- A backup that a person set aside. -/
def setAside : Files.DirEntry := ⟨"20200101T000000Z-keep".toList, .dir⟩

/-- A morning six years later. -/
def sixYearsLater : Calendar.Moment :=
  ⟨{ year := 2026, month := 8, day := 2, hour := 6 }, by decide⟩

end Sample

namespace Backup

theorem not_alwaysSweepsOwnOld : ¬ AlwaysSweepsOwnOld := by
  intro h
  have hremoved : Sample.setAside.name ∈
      (sweepOldBackups (some [Sample.setAside]) 7 Sample.sixYearsLater fun _ => false).removed := by
    decide +kernel
  obtain ⟨-, made, hminted, -⟩ := (h [Sample.setAside] Sample.week Sample.sixYearsLater).only _ _
    (called_of_removed hremoved)
  have hlast := last_of_minted hminted 'p' rfl
  exact absurd hlast (by decide)

end Backup
end Chaskiwasi
