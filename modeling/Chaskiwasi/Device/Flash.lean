import Chaskiwasi.Device.Stores
import Mathlib.Data.List.Perm.Basic

/-!
# The stores a sync writes

A sync writes to six places: the letters, the outbox, the ring of the letters seen, the sync state,
the contact snapshot and the settings.  Each is a file, or a directory of files, and an object that
holds in memory what it needs of them.  A write ends as a `WriteOutcome` says, and memory follows
only where it returned true.  The seen ring is the exception: it takes an id into memory first.

A file is kept here as what it decodes to.  The directory of letters may hold files that do not
decode, and opening the store passes over them.
-/

namespace Chaskiwasi.Device

/-! ## One file, replaced as a whole -/

/-- A value kept as one file, with what the running firmware holds of it. -/
structure Mirrored (α : Type) where
  file : α
  held : α
  deriving DecidableEq, Repr

namespace Mirrored

variable {α : Type} (s : Mirrored α) (next : α) (o : WriteOutcome)

/-- Writes the file, and holds the new value where the write returned true. -/
def commit : Mirrored α × Bool :=
  ({ file := if o.written then next else s.file, held := if o.ok then next else s.held }, o.ok)

lemma file_commit : (s.commit next o).1.file = next ∨ (s.commit next o).1.file = s.file := by
  unfold commit
  cases o.written
  · exact Or.inr rfl
  · exact Or.inl rfl

end Mirrored

/-! ## The sync state -/

/-- The machine-owned record in the file `state`. -/
structure SyncState where
  /-- Opaque, never parsed. -/
  cursor : String := ""
  aylluVersion : ℕ := 0
  lastSyncAt : ℤ := 0
  deriving DecidableEq, Repr

abbrev FileStateStore := Mirrored SyncState

namespace FileStateStore

variable (s : FileStateStore)

def opened : FileStateStore := { s with held := s.file }

/-- The whole record is rewritten every time. -/
def setCursor (cursor : String) (o : WriteOutcome) : FileStateStore × Bool :=
  s.commit { s.held with cursor := cursor } o

def setAylluVersion (v : ℕ) (o : WriteOutcome) : FileStateStore × Bool :=
  s.commit { s.held with aylluVersion := v } o

def setLastSyncAt (t : ℤ) (o : WriteOutcome) : FileStateStore × Bool :=
  s.commit { s.held with lastSyncAt := t } o

end FileStateStore

/-! ## The contact snapshot -/

abbrev FileSnapshot := Mirrored Ayllu

namespace FileSnapshot

variable (s : FileSnapshot)

def opened : FileSnapshot := { s with held := s.file }

/-- The snapshot replaces membership wholesale; the overlay is another file. -/
def applySnapshot (a : Ayllu) (o : WriteOutcome) : FileSnapshot × Bool := s.commit a o

def version : ℕ := s.held.version

end FileSnapshot

/-! ## The settings -/

/-- The settings as their file holds them. -/
structure StoredSettings extends Settings where
  syncIntervalS : ℤ := 21600
  rat : String := ""
  cover : String := ""
  deriving DecidableEq, Repr

/-- The config block as the device decodes it: an absent field is `none`. -/
structure PushedConfig where
  maxLetterChars : Option ℤ := none
  syncIntervalS : Option ℤ := none
  rat : Option String := none
  cover : Option String := none
  deriving DecidableEq, Repr

def minSyncIntervalS : ℤ := 60

/-- Bounds what the device will act on. -/
def StoredSettings.sanitise (s : StoredSettings) : StoredSettings :=
  { s with
    toSettings := s.toSettings.sanitise
    syncIntervalS := if s.syncIntervalS < minSyncIntervalS then minSyncIntervalS
      else s.syncIntervalS }

/-- Field by field, and absent means untouched. -/
def StoredSettings.edit (s : StoredSettings) (c : PushedConfig) : StoredSettings :=
  { s with
    maxLetterChars := c.maxLetterChars.getD s.maxLetterChars
    syncIntervalS := c.syncIntervalS.getD s.syncIntervalS
    rat := c.rat.getD s.rat
    cover := c.cover.getD s.cover }

/-- What a bound that has been applied does: nothing. -/
lemma Settings.sanitise_sanitise (s : Settings) : s.sanitise.sanitise = s.sanitise := by
  have hcount : fontStepCount - 1 = 1 := rfl
  simp only [sanitise, hcount, Settings.mk.injEq, and_true]
  refine ⟨by omega, by omega, ?_⟩
  split_ifs
  · rfl
  · rfl
  · rfl

lemma StoredSettings.sanitise_sanitise (s : StoredSettings) :
    s.sanitise.sanitise = s.sanitise := by
  simp only [sanitise, Settings.sanitise_sanitise, StoredSettings.mk.injEq, and_true, true_and]
  split_ifs
  · rfl
  · rfl
  · rfl

lemma StoredSettings.edit_edit (s : StoredSettings) (c : PushedConfig) :
    (s.edit c).edit c = s.edit c := by
  have hgetD : ∀ {α : Type} (x : Option α) (a : α), x.getD (x.getD a) = x.getD a := by
    intro α x a
    cases x with
    | none => rfl
    | some v => rfl
  simp only [edit, hgetD]

/-- What was bounded before an edit is bounded after it. -/
lemma StoredSettings.sanitise_edit_sanitise (s : StoredSettings) (c : PushedConfig) :
    (s.sanitise.edit c).sanitise = (s.edit c).sanitise := by
  have hcount : Settings.fontStepCount - 1 = 1 := rfl
  obtain ⟨chars, interval, rat, cover⟩ := c
  simp only [sanitise, edit, Settings.sanitise, hcount, StoredSettings.mk.injEq,
    Settings.mk.injEq, and_true]
  refine ⟨⟨by omega, by omega, ?_⟩, ?_⟩
  · cases chars with
    | none =>
        by_cases hlow : s.maxLetterChars ≤ 0
        · simp [hlow]
        · simp [hlow]
    | some v => rfl
  · cases interval with
    | none =>
        by_cases hlow : s.syncIntervalS < minSyncIntervalS
        · simp [hlow]
        · simp [hlow]
    | some v => rfl

/-- A config applied again changes nothing. -/
lemma StoredSettings.edit_sanitise_edit (s : StoredSettings) (c : PushedConfig) :
    ((s.edit c).sanitise.edit c).sanitise = (s.edit c).sanitise := by
  rw [sanitise_edit_sanitise, edit_edit]

abbrev FileSettingsStore := Mirrored StoredSettings

namespace FileSettingsStore

variable (s : FileSettingsStore)

def opened : FileSettingsStore := { s with held := s.file.sanitise }

def applyConfig (c : PushedConfig) (o : WriteOutcome) : FileSettingsStore × Bool :=
  s.commit (s.held.edit c).sanitise o

end FileSettingsStore

/-! ## The letters -/

/-- A character that may stand in a file name. -/
def safeChar (c : Char) : Bool :=
  ('a' ≤ c && c ≤ 'z') || ('A' ≤ c && c ≤ 'Z') || ('0' ≤ c && c ≤ '9') || c = '-' || c = '_' ||
    c = '.'

/-- Safe characters are one byte each, so the length is that of the source. -/
def nameIsSafe (name : String) : Bool :=
  match name.toList with
  | [] => false
  | c :: cs => decide (cs.length + 1 ≤ 64) && decide (c ≠ '.') && (c :: cs).all safeChar

/-- A file under `letters/`. -/
structure LetterFile where
  name : String
  /-- `none` where the file does not decode. -/
  content : Option StoredLetter
  deriving DecidableEq, Repr

/-- What the index holds of a letter: everything but its text. -/
structure Meta where
  id : String
  date : ℤ
  unread : Bool
  deriving DecidableEq, Repr

/-- Newest first, ties broken by the id. -/
def Meta.Before (a b : Meta) : Prop := b.date < a.date ∨ b.date = a.date ∧ b.id ≤ a.id

instance : DecidableRel Meta.Before := fun a b =>
  inferInstanceAs (Decidable (b.date < a.date ∨ b.date = a.date ∧ b.id ≤ a.id))

structure FileLetterStore where
  /-- The files under `letters/`, in the order of their names. -/
  files : List LetterFile := []
  /-- In memory. -/
  index : List Meta := []
  deriving DecidableEq, Repr

/-- What the index holds of a file; a file that is not a letter under its own name is skipped. -/
def LetterFile.meta? (f : LetterFile) : Option Meta :=
  match f.content with
  | none => none
  | some l =>
      if nameIsSafe f.name = true ∧ l.letter.id = f.name then
        some ⟨l.letter.id, l.letter.date, l.unread⟩
      else none

namespace FileLetterStore

/-- The letters to keep where the caller says 0. -/
def defaultLettersKeep : ℕ := 200

def scan (files : List LetterFile) : List Meta := files.filterMap LetterFile.meta?

def opened (s : FileLetterStore) : FileLetterStore := { s with index := scan s.files }

def findMeta (s : FileLetterStore) (id : String) : Option Meta :=
  s.index.find? fun m => m.id = id

/-- Whether a letter is unread by the index; one that is not there is new. -/
def unreadIn (index : List Meta) (id : String) : Bool :=
  match index.find? fun m => m.id = id with
  | none => true
  | some m => m.unread

/-- The index after a letter's file was written: the letter's own entry is replaced, or one is
added. -/
def entered (index : List Meta) (l : Letter) : List Meta :=
  let m : Meta := ⟨l.id, l.date, unreadIn index l.id⟩
  match index.find? fun n => n.id = l.id with
  | none => index ++ [m]
  | some _ => index.map fun n => if n.id = l.id then m else n

/-- Writes one letter's file.  A repeat does not bring the unread flag back. -/
def put (s : FileLetterStore) (l : Letter) (o : WriteOutcome) : FileLetterStore × Bool :=
  if nameIsSafe l.id = false then (s, false)
  else
    let stored : StoredLetter := ⟨l, unreadIn s.index l.id⟩
    ({ files := if o.written then Keyed.put LetterFile.name ⟨l.id, some stored⟩ s.files else s.files
       index := if o.ok then entered s.index l else s.index },
      o.ok)

/-- The letter in the file of that name. -/
def load (s : FileLetterStore) (id : String) : Option StoredLetter :=
  (s.files.find? fun f => f.name = id).bind LetterFile.content

/-- Reads one letter; the index is asked first. -/
def get (s : FileLetterStore) (id : String) : Option StoredLetter :=
  if (s.findMeta id).isNone then none else s.load id

/-- Rewrites one letter's file as read. -/
def markRead (s : FileLetterStore) (id : String) (o : WriteOutcome) : FileLetterStore × Bool :=
  match s.findMeta id with
  | none => (s, false)
  | some m =>
      if m.unread = false then (s, true)
      else
        match s.load id with
        | none => (s, false)
        | some l =>
            let stored : StoredLetter := { l with unread := false }
            ({ files :=
                 if o.written then Keyed.put LetterFile.name ⟨id, some stored⟩ s.files else s.files
               index :=
                 if o.ok then
                   s.index.map fun n => if n.id = id then { n with unread := false } else n
                 else s.index },
              o.ok)

def ordered (index : List Meta) : List Meta := index.insertionSort Meta.Before

/-- The letters that stand beyond the newest `keep`. -/
def doomed (s : FileLetterStore) (keep : ℕ) : List String :=
  ((ordered s.index).drop (if keep = 0 then defaultLettersKeep else keep)).map Meta.id

/-- Removes one letter's file; one that is not there is removed already. -/
def remove (s : FileLetterStore) (id : String) (o : WriteOutcome) : FileLetterStore × Bool :=
  let files := s.files.filter fun f => f.name ≠ id
  let index := s.index.filter fun m => m.id ≠ id
  if s.files.all fun f => f.name ≠ id then ({ s with index }, true)
  else if o.ok then ({ files, index }, true)
  else ({ s with files := if o.written then files else s.files }, false)

/-! ### Memory and files -/

/-- Memory holds exactly the letters on flash. -/
structure Mirrors (s : FileLetterStore) : Prop where
  ascending : Keyed.Ascending LetterFile.name s.files
  nodup : (s.index.map Meta.id).Nodup
  index : ∀ m, m ∈ s.index ↔ m ∈ scan s.files

/-- Whether the letter under a name is unread; one that is not there is. -/
def unreadOf (files : List LetterFile) (id : String) : Bool := unreadIn (scan files) id

/-- The directory after a letter was written to it. -/
def putFile (files : List LetterFile) (l : Letter) : List LetterFile :=
  Keyed.put LetterFile.name ⟨l.id, some ⟨l, unreadOf files l.id⟩⟩ files

/-- The directory after the letters beyond the newest `keep` were removed. -/
def evicted (keep : ℕ) (files : List LetterFile) : List LetterFile :=
  files.filter fun f => f.name ∉ doomed ⟨files, scan files⟩ keep

variable {s : FileLetterStore} {files : List LetterFile} {m : Meta} {l : Letter} {id : String}
  {o : WriteOutcome} {keep : ℕ}

lemma id_of_meta? {f : LetterFile} (h : f.meta? = some m) : m.id = f.name := by
  unfold LetterFile.meta? at h
  cases hcontent : f.content with
  | none => simp [hcontent] at h
  | some stored =>
      simp only [hcontent] at h
      split_ifs at h with hname
      obtain rfl := Option.some.inj h
      exact hname.2

lemma meta?_stored (hsafe : nameIsSafe l.id = true) (unread : Bool) :
    LetterFile.meta? ⟨l.id, some ⟨l, unread⟩⟩ = some ⟨l.id, l.date, unread⟩ :=
  if_pos ⟨hsafe, rfl⟩

lemma nodup_scan (h : Keyed.Ascending LetterFile.name files) :
    ((scan files).map Meta.id).Nodup := by
  have hlt : (scan files).Pairwise fun a b => a.id < b.id := by
    refine List.Pairwise.filterMap _ (fun f g hlt m hm n hn => ?_) h
    rw [id_of_meta? hm, id_of_meta? hn]
    exact hlt
  exact List.Pairwise.map Meta.id (fun _ _ => ne_of_lt) hlt

lemma mirrors_opened (h : Keyed.Ascending LetterFile.name s.files) : s.opened.Mirrors :=
  ⟨h, nodup_scan h, fun _ => Iff.rfl⟩

lemma Mirrors.findMeta_eq (h : s.Mirrors) (id : String) :
    s.findMeta id = (scan s.files).find? fun m => m.id = id := by
  ext m
  rw [findMeta, Keyed.find?_eq_some_iff h.nodup,
    Keyed.find?_eq_some_iff (nodup_scan h.ascending), h.index]

lemma mem_scan_put (h : Keyed.Ascending LetterFile.name files) (hsafe : nameIsSafe l.id = true)
    (unread : Bool) :
    m ∈ scan (Keyed.put LetterFile.name ⟨l.id, some ⟨l, unread⟩⟩ files) ↔
      m = ⟨l.id, l.date, unread⟩ ∨ m ∈ scan files ∧ m.id ≠ l.id := by
  simp only [scan, List.mem_filterMap]
  constructor
  · rintro ⟨f, hf, hm⟩
    rcases h.mem_put_iff.1 hf with rfl | ⟨hf, hne⟩
    · rw [meta?_stored hsafe] at hm
      exact Or.inl (Option.some.inj hm).symm
    · exact Or.inr ⟨⟨f, hf, hm⟩, id_of_meta? hm ▸ hne⟩
  · rintro (rfl | ⟨⟨f, hf, hm⟩, hne⟩)
    · exact ⟨_, Keyed.mem_put_self _ _, meta?_stored hsafe _⟩
    · exact ⟨f, h.mem_put_iff.2 (Or.inr ⟨hf, id_of_meta? hm ▸ hne⟩), hm⟩

lemma unreadOf_putFile (h : Keyed.Ascending LetterFile.name files)
    (hsafe : nameIsSafe l.id = true) : unreadOf (putFile files l) l.id = unreadOf files l.id := by
  have hfind : (scan (putFile files l)).find? (fun m => m.id = l.id) =
      some ⟨l.id, l.date, unreadOf files l.id⟩ :=
    (Keyed.find?_eq_some_iff (nodup_scan (h.put _))).2
        ⟨(mem_scan_put h hsafe _).2 (Or.inl rfl), rfl⟩
  rw [unreadOf, unreadIn, hfind]

/-- Writing a letter again changes nothing. -/
theorem putFile_putFile (h : Keyed.Ascending LetterFile.name files)
    (hsafe : nameIsSafe l.id = true) : putFile (putFile files l) l = putFile files l := by
  rw [putFile, unreadOf_putFile h hsafe]
  exact Keyed.put_put _ rfl

/-- The entry of a letter that is not in the index yet is added; that of one that is, replaced. -/
lemma mem_entered {index : List Meta} (h : (index.map Meta.id).Nodup) :
    m ∈ entered index l ↔ m = ⟨l.id, l.date, unreadIn index l.id⟩ ∨ m ∈ index ∧ m.id ≠ l.id := by
  unfold entered
  cases hfind : index.find? fun n => n.id = l.id with
  | none =>
      have hnew : ∀ n ∈ index, n.id ≠ l.id := by simpa [List.find?_eq_none] using hfind
      rw [List.mem_append, List.mem_singleton, or_comm]
      exact or_congr_right ⟨fun hm => ⟨hm, hnew m hm⟩, And.left⟩
  | some n =>
      obtain ⟨hn, hid⟩ := (Keyed.find?_eq_some_iff h).1 hfind
      rw [List.mem_map]
      constructor
      · rintro ⟨m', hm', rfl⟩
        by_cases hid' : m'.id = l.id
        · exact Or.inl (if_pos hid')
        · rw [if_neg hid']
          exact Or.inr ⟨hm', hid'⟩
      · rintro (rfl | ⟨hm, hne⟩)
        · exact ⟨n, hn, if_pos hid⟩
        · exact ⟨m, hm, if_neg hne⟩

lemma nodup_entered {index : List Meta} (h : (index.map Meta.id).Nodup) (l : Letter) :
    ((entered index l).map Meta.id).Nodup := by
  unfold entered
  cases hfind : index.find? fun n => n.id = l.id with
  | none =>
      have hnew : ∀ n ∈ index, n.id ≠ l.id := by simpa [List.find?_eq_none] using hfind
      rw [List.map_append, List.nodup_append]
      refine ⟨h, by simp, ?_⟩
      simpa using fun n hn => hnew n hn
  | some n =>
      have hids : (index.map fun n =>
          if n.id = l.id then (⟨l.id, l.date, unreadIn index l.id⟩ : Meta) else n).map Meta.id =
            index.map Meta.id := by
        rw [List.map_map]
        refine List.map_congr_left fun n _ => ?_
        by_cases hn : n.id = l.id
        · simp [hn]
        · simp [hn]
      rw [hids]
      exact h

lemma put_of_safe (hsafe : nameIsSafe l.id = true) (s : FileLetterStore) (o : WriteOutcome) :
    s.put l o =
      (⟨if o.written then Keyed.put LetterFile.name ⟨l.id, some ⟨l, unreadIn s.index l.id⟩⟩ s.files
        else s.files,
        if o.ok then entered s.index l else s.index⟩, o.ok) :=
  if_neg (by simp [hsafe])

lemma safe_of_put (hput : (s.put l o).2 = true) : nameIsSafe l.id = true := by
  by_contra hsafe
  rw [Bool.not_eq_true] at hsafe
  rw [FileLetterStore.put, if_pos hsafe] at hput
  cases hput

/-- What `Put` does under a safe name, where memory holds what is on flash. -/
theorem Mirrors.put (h : s.Mirrors) (hsafe : nameIsSafe l.id = true) :
    ((s.put l o).2 = true → (s.put l o).1.Mirrors ∧ (s.put l o).1.files = putFile s.files l) ∧
    ((s.put l o).2 = false → o.ok = false ∧
      ((s.put l o).1.files = putFile s.files l ∨ (s.put l o).1.files = s.files)) := by
  have hunread : unreadIn s.index l.id = unreadOf s.files l.id := by
    rw [unreadOf, unreadIn, unreadIn, ← h.findMeta_eq, findMeta]
  have hput : (s.put l o).1.files = if o.written then putFile s.files l else s.files := by
    rw [put_of_safe hsafe, putFile, ← hunread]
  have hanswer : (s.put l o).2 = o.ok := by rw [put_of_safe hsafe]
  rw [hanswer]
  refine ⟨fun hok => ?_, fun hok => ⟨hok, ?_⟩⟩
  · have hfiles : (s.put l o).1.files = putFile s.files l := by
      rw [hput, WriteOutcome.written_of_ok hok, if_pos rfl]
    have hindex : (s.put l o).1.index = entered s.index l := by
      rw [put_of_safe hsafe]
      exact if_pos hok
    refine ⟨⟨?_, ?_, fun m => ?_⟩, hfiles⟩
    · rw [hfiles]
      exact h.ascending.put _
    · rw [hindex]
      exact nodup_entered h.nodup l
    · rw [hindex, hfiles, mem_entered h.nodup, hunread, h.index, putFile,
        mem_scan_put h.ascending hsafe]
  · rw [hput]
    cases o.written
    · exact Or.inr rfl
    · exact Or.inl rfl

/-- What `Remove` does: the letter goes from files and index, or the call failed before the file was
gone, or after. -/
lemma remove_cases (s : FileLetterStore) (id : String) (o : WriteOutcome) :
    ((s.remove id o).2 = true ∧ (s.remove id o).1 =
      ⟨s.files.filter fun f => f.name ≠ id, s.index.filter fun m => m.id ≠ id⟩) ∨
    ((s.remove id o).2 = false ∧ o = .unchanged ∧ (s.remove id o).1 = s) ∨
    ((s.remove id o).2 = false ∧ o = .replaced ∧ (s.remove id o).1 =
      { s with files := s.files.filter fun f => f.name ≠ id }) := by
  by_cases hall : s.files.all fun f => decide (f.name ≠ id)
  · refine Or.inl ?_
    rw [remove, if_pos hall]
    refine ⟨rfl, ?_⟩
    rw [List.filter_eq_self.2 (List.all_eq_true.1 hall)]
  · rw [remove, if_neg hall]
    cases o with
    | done => exact Or.inl ⟨rfl, rfl⟩
    | unchanged => exact Or.inr (Or.inl ⟨rfl, rfl, rfl⟩)
    | replaced => exact Or.inr (Or.inr ⟨rfl, rfl, rfl⟩)

/-- What `Remove` leaves: a file under another name stays, and only a failed write leaves the
file. -/
lemma files_remove (s : FileLetterStore) (id : String) (o : WriteOutcome) :
    (s.remove id o).1.files = s.files.filter (fun f => decide (f.name ≠ id)) ∨
      o.ok = false ∧ (s.remove id o).1.files = s.files := by
  rcases remove_cases s id o with ⟨-, hs⟩ | ⟨-, rfl, hs⟩ | ⟨-, -, hs⟩
  · exact Or.inl (congrArg FileLetterStore.files hs)
  · exact Or.inr ⟨rfl, congrArg FileLetterStore.files hs⟩
  · exact Or.inl (congrArg FileLetterStore.files hs)

instance : Std.Total Meta.Before where
  total a b := by
    rcases lt_trichotomy a.date b.date with hlt | heq | hgt
    · exact Or.inr (Or.inl hlt)
    · rcases le_total a.id b.id with hle | hle
      · exact Or.inr (Or.inr ⟨heq, hle⟩)
      · exact Or.inl (Or.inr ⟨heq.symm, hle⟩)
    · exact Or.inl (Or.inl hgt)

instance : IsTrans Meta Meta.Before where
  trans a b c := by
    rintro (hab | ⟨hab, hab'⟩) (hbc | ⟨hbc, hbc'⟩)
    · exact Or.inl (lt_trans hbc hab)
    · exact Or.inl (hbc ▸ hab)
    · exact Or.inl (hab ▸ hbc)
    · exact Or.inr ⟨hbc.trans hab, le_trans hbc' hab'⟩

lemma before_antisymm {a b : Meta} (hab : a.Before b) (hba : b.Before a) : a.id = b.id := by
  rcases hab with hab | ⟨hab, hab'⟩
  · rcases hba with hba | ⟨hba, -⟩
    · exact absurd hba (lt_asymm hab)
    · exact absurd hba (ne_of_gt hab)
  · rcases hba with hba | ⟨-, hba'⟩
    · exact absurd hab (ne_of_gt hba)
    · exact le_antisymm hba' hab'

/-- The order depends on what the index holds, and not on how it came to hold it. -/
lemma ordered_eq {xs ys : List Meta} (hx : (xs.map Meta.id).Nodup) (hy : (ys.map Meta.id).Nodup)
    (h : ∀ m, m ∈ xs ↔ m ∈ ys) : ordered xs = ordered ys := by
  have hperm : xs.Perm ys :=
    (List.perm_ext_iff_of_nodup (List.Nodup.of_map _ hx) (List.Nodup.of_map _ hy)).2 h
  refine List.Perm.eq_of_pairwise (fun a b ha hb hab hba => ?_)
    (List.pairwise_insertionSort _ _) (List.pairwise_insertionSort _ _)
    ((List.perm_insertionSort _ _).trans (hperm.trans (List.perm_insertionSort _ _).symm))
  have hax := (List.mem_insertionSort _).1 ha
  have hbx := (h b).2 ((List.mem_insertionSort _).1 hb)
  exact List.inj_on_of_nodup_map hx hax hbx (before_antisymm hab hba)

lemma Mirrors.doomed_eq (h : s.Mirrors) (keep : ℕ) :
    s.doomed keep = doomed ⟨s.files, scan s.files⟩ keep := by
  rw [doomed, doomed, ordered_eq h.nodup (nodup_scan h.ascending) h.index]

/-! ### Reading -/

/-- A directory has one file of a name, and the index one entry of an id. -/
structure Tidy (s : FileLetterStore) : Prop where
  ascending : Keyed.Ascending LetterFile.name s.files
  nodup : (s.index.map Meta.id).Nodup

lemma tidy_opened (h : Keyed.Ascending LetterFile.name s.files) : s.opened.Tidy :=
  ⟨h, nodup_scan h⟩

lemma Tidy.put (h : s.Tidy) (l : Letter) (o : WriteOutcome) : (s.put l o).1.Tidy := by
  cases hsafe : nameIsSafe l.id with
  | false =>
      rw [FileLetterStore.put, if_pos hsafe]
      exact h
  | true =>
      rw [put_of_safe hsafe]
      constructor
      · cases o.written
        · exact h.ascending
        · exact h.ascending.put _
      · cases o.ok
        · exact h.nodup
        · exact nodup_entered h.nodup l

lemma Tidy.remove (h : s.Tidy) (id : String) (o : WriteOutcome) : (s.remove id o).1.Tidy := by
  have hfiles := h.ascending.filter fun f => decide (f.name ≠ id)
  have hindex := h.nodup.sublist (List.Sublist.map Meta.id
    (List.filter_sublist (p := fun m => decide (m.id ≠ id))))
  rcases remove_cases s id o with ⟨-, hs⟩ | ⟨-, -, hs⟩ | ⟨-, -, hs⟩
  · rw [hs]
    exact ⟨hfiles, hindex⟩
  · rw [hs]
    exact h
  · rw [hs]
    exact ⟨hfiles, h.nodup⟩

lemma Tidy.markRead (h : s.Tidy) (id : String) (o : WriteOutcome) : (s.markRead id o).1.Tidy := by
  have hids : (s.index.map fun m => if m.id = id then { m with unread := false } else m).map
      Meta.id = s.index.map Meta.id := by
    rw [List.map_map]
    refine List.map_congr_left fun m _ => ?_
    by_cases hm : m.id = id
    · simp [hm]
    · simp [hm]
  unfold FileLetterStore.markRead
  cases s.findMeta id with
  | none => exact h
  | some m =>
      dsimp only
      by_cases hread : m.unread = false
      · rw [if_pos hread]
        exact h
      · rw [if_neg hread]
        cases s.load id with
        | none => exact h
        | some l =>
            constructor
            · dsimp only
              split_ifs
              · exact h.ascending.put _
              · exact h.ascending
            · dsimp only
              split_ifs
              · exact hids ▸ h.nodup
              · exact h.nodup

lemma load_eq_some_iff (h : Keyed.Ascending LetterFile.name s.files) {x : StoredLetter} :
    s.load id = some x ↔ (⟨id, some x⟩ : LetterFile) ∈ s.files := by
  rw [load, Option.bind_eq_some_iff]
  constructor
  · rintro ⟨f, hf, hcontent⟩
    obtain ⟨hmem, hname⟩ := (Keyed.find?_eq_some_iff h.nodup_map).1 hf
    rw [← hname, ← hcontent]
    exact hmem
  · intro hmem
    exact ⟨_, (Keyed.find?_eq_some_iff h.nodup_map).2 ⟨hmem, rfl⟩, rfl⟩

lemma Tidy.get_eq_some_iff (h : s.Tidy) {x : StoredLetter} :
    s.get id = some x ↔ (∃ m ∈ s.index, m.id = id) ∧ ⟨id, some x⟩ ∈ s.files := by
  have hindex : (s.findMeta id).isNone = false ↔ ∃ m ∈ s.index, m.id = id := by
    simp [findMeta]
  rw [← hindex, ← load_eq_some_iff h.ascending, get]
  cases hnone : (s.findMeta id).isNone with
  | true => simp
  | false => simp

/-- The letter just written is what is read. -/
lemma Tidy.get_put_self (h : s.Tidy) (hput : (s.put l o).2 = true) :
    (s.put l o).1.get l.id = some ⟨l, unreadIn s.index l.id⟩ := by
  have hsafe := safe_of_put hput
  refine (h.put l o).get_eq_some_iff.2 ?_
  rw [put_of_safe hsafe] at hput ⊢
  dsimp only at hput ⊢
  rw [WriteOutcome.written_of_ok hput, hput, if_pos rfl, if_pos rfl]
  exact ⟨⟨_, (mem_entered h.nodup).2 (Or.inl rfl), rfl⟩, Keyed.mem_put_self _ _⟩

/-- What is read under an id depends on the file of that name and on there being an entry. -/
lemma Tidy.get_congr {s' : FileLetterStore} (h : s.Tidy) (h' : s'.Tidy)
    (hindex : (∃ m ∈ s'.index, m.id = id) ↔ ∃ m ∈ s.index, m.id = id)
    (hfiles : ∀ x, (⟨id, some x⟩ : LetterFile) ∈ s'.files ↔ (⟨id, some x⟩ : LetterFile) ∈ s.files) :
    s'.get id = s.get id := by
  ext x
  rw [h'.get_eq_some_iff, h.get_eq_some_iff, hindex, hfiles]

lemma Tidy.get_put_of_ne (h : s.Tidy) (hne : id ≠ l.id) : (s.put l o).1.get id = s.get id := by
  cases hsafe : nameIsSafe l.id with
  | false => rw [FileLetterStore.put, if_pos hsafe]
  | true =>
      refine h.get_congr (h.put l o) ?_ fun x => ?_
      · rw [put_of_safe hsafe]
        cases o.ok
        · exact Iff.rfl
        · simp only [if_true, mem_entered h.nodup]
          constructor
          · rintro ⟨m, rfl | ⟨hm, -⟩, rfl⟩
            · exact absurd rfl hne
            · exact ⟨m, hm, rfl⟩
          · rintro ⟨m, hm, rfl⟩
            exact ⟨m, Or.inr ⟨hm, hne⟩, rfl⟩
      · rw [put_of_safe hsafe]
        cases o.written
        · exact Iff.rfl
        · simp only [if_true, h.ascending.mem_put_iff, LetterFile.mk.injEq, hne, false_and,
            false_or, ne_eq, not_false_iff, and_true]

lemma Tidy.get_remove_of_ne {id' : String} (h : s.Tidy) (hne : id ≠ id') :
    (s.remove id' o).1.get id = s.get id := by
  have hfile : ∀ x, (⟨id, some x⟩ : LetterFile) ∈ s.files.filter (fun f => decide (f.name ≠ id')) ↔
      (⟨id, some x⟩ : LetterFile) ∈ s.files := by simp [hne]
  have hindex : (∃ m ∈ s.index.filter (fun m => decide (m.id ≠ id')), m.id = id) ↔
      ∃ m ∈ s.index, m.id = id := by
    constructor
    · rintro ⟨m, hm, hid⟩
      exact ⟨m, List.mem_of_mem_filter hm, hid⟩
    · rintro ⟨m, hm, rfl⟩
      exact ⟨m, List.mem_filter.2 ⟨hm, decide_eq_true hne⟩, rfl⟩
  have htidy := h.remove id' o
  rcases remove_cases s id' o with ⟨-, hs⟩ | ⟨-, -, hs⟩ | ⟨-, -, hs⟩
  · rw [hs] at htidy ⊢
    exact h.get_congr htidy hindex hfile
  · rw [hs]
  · rw [hs] at htidy ⊢
    exact h.get_congr htidy Iff.rfl hfile

end FileLetterStore

/-! ## The letters seen -/

/-- The fewest ids a ring remembers. -/
def minSeenIDs : ℕ := 1000

structure FileSeenRing where
  capacity : ℕ
  minSeenIDs_le : minSeenIDs ≤ capacity
  /-- The complete lines of the file `seen`, oldest first. -/
  lines : List String := []
  /-- In memory. -/
  linesOnDisk : ℕ := 0
  ring : List String := []
  deriving DecidableEq, Repr

namespace FileSeenRing

variable (s : FileSeenRing)

/-- A ring of the capacity asked for, and no less than the fewest, over an empty file. -/
def empty (capacity : ℕ) : FileSeenRing where
  capacity := max capacity minSeenIDs
  minSeenIDs_le := le_max_right ..

/-- The lines by which the file may drift past the ring. -/
def slack : ℕ := s.capacity / 8

def contains (id : String) : Bool := s.ring.contains id

/-- Rewrites the file as the ring. -/
def compact (o : WriteOutcome) : FileSeenRing × Bool :=
  ({ s with
     lines := if o.written then s.ring else s.lines
     linesOnDisk := if o.ok then s.ring.length else s.linesOnDisk }, o.ok)

/-- The lines a ring is loaded from. -/
def window : List String := s.lines.drop (s.lines.length - s.capacity)

/-- Takes in the ids of the lines that the ring does not contain. -/
def loaded (ring lines : List String) : List String :=
  lines.foldl (fun ring id => if id = "" ∨ id ∈ ring then ring else ring ++ [id]) ring

/-- What a boot makes of the file. -/
def opened (o : WriteOutcome) : FileSeenRing :=
  let s := { s with linesOnDisk := s.lines.length, ring := loaded [] s.window }
  if s.linesOnDisk > s.capacity + s.slack then (s.compact o).1 else s

/-- The ring with an id taken in, the oldest one dropped at capacity. -/
def taken (id : String) : List String :=
  let ring := s.ring ++ [id]
  if ring.length > s.capacity then ring.tail else ring

/-- Records an id: in memory first, and then in the file. -/
def add (id : String) (o : WriteOutcome) : FileSeenRing × Bool :=
  if nameIsSafe id = false then (s, false)
  else if s.contains id = true then (s, true)
  else
    let s := { s with ring := s.taken id }
    if s.linesOnDisk + 1 > s.capacity + s.slack then s.compact o
    else
      ({ s with
         lines := if o.written then s.lines ++ [id] else s.lines
         linesOnDisk := if o.ok then s.linesOnDisk + 1 else s.linesOnDisk }, o.ok)

/-! ### Memory and file -/

/-- The file holds of the ids in `X` those in `K`, in such a way that recording the ones it does not
hold pushes none of them out. -/
structure OnFile (X : Finset String) (K : List String) (s : FileSeenRing) : Prop where
  spares : Ring.Spares s.capacity X s.window
  holds : ∀ x ∈ X, x ∈ s.window ↔ x ∈ K

/-- Memory holds of the ids in `X` what a reload would find, and the ones that are missing can be
recorded without pushing any of `X` out, of memory or of the file. -/
structure Settled (X : Finset String) (s : FileSeenRing) : Prop where
  length_le : s.ring.length ≤ s.capacity
  blank : "" ∉ s.ring
  spares : Ring.Spares s.capacity X s.ring
  file : OnFile X s.ring s

variable {s} {X : Finset String} {K : List String} {id : String} {o : WriteOutcome}

lemma OnFile.congr {K' : List String} (h : OnFile X K s) (hK : ∀ x ∈ X, x ∈ K ↔ x ∈ K') :
    OnFile X K' s :=
  ⟨h.spares, fun x hx => (h.holds x hx).trans (hK x hx)⟩

/-- A file of the lines of a short ring. -/
lemma window_of_le {lines : List String} (hlines : s.lines = lines)
    (hlen : lines.length ≤ s.capacity) : s.window = lines := by
  rw [window, hlines, Nat.sub_eq_zero_of_le hlen, List.drop_zero]

lemma taken_eq (h : s.ring.length ≤ s.capacity) : s.taken id = Ring.push s.capacity id s.ring := by
  rw [taken, Ring.push_eq_drop]
  split_ifs with hlong
  · have hone : (s.ring ++ [id]).length - s.capacity = 1 := by
      simp only [List.length_append, List.length_cons, List.length_nil] at hlong ⊢
      omega
    rw [hone, List.drop_one]
  · rw [Nat.sub_eq_zero_of_le (not_lt.1 hlong), List.drop_zero]

/-! ### Loading -/

lemma loaded_cons (ring : List String) (id : String) (lines : List String) :
    loaded ring (id :: lines) =
      loaded (if id = "" ∨ id ∈ ring then ring else ring ++ [id]) lines := rfl

/-- Loading appends, and no more than there are lines. -/
lemma exists_loaded (ring lines : List String) :
    ∃ more, loaded ring lines = ring ++ more ∧ more.length ≤ lines.length := by
  induction lines generalizing ring with
  | nil => exact ⟨[], (List.append_nil ring).symm, le_refl _⟩
  | cons id lines ih =>
      rw [loaded_cons]
      split_ifs
      · obtain ⟨more, heq, hlen⟩ := ih ring
        exact ⟨more, heq, le_trans hlen (Nat.le_succ _)⟩
      · obtain ⟨more, heq, hlen⟩ := ih (ring ++ [id])
        refine ⟨id :: more, ?_, Nat.succ_le_succ hlen⟩
        rw [heq, List.append_assoc, List.singleton_append]

lemma mem_loaded {ring lines : List String} {x : String} :
    x ∈ loaded ring lines ↔ x ∈ ring ∨ x ∈ lines ∧ x ≠ "" := by
  induction lines generalizing ring with
  | nil => simp [loaded]
  | cons id lines ih =>
      rw [loaded_cons, ih, List.mem_cons]
      split_ifs with hskip
      · constructor
        · rintro (h | ⟨h, hx⟩)
          · exact Or.inl h
          · exact Or.inr ⟨Or.inr h, hx⟩
        · rintro (h | ⟨rfl | h, hx⟩)
          · exact Or.inl h
          · exact Or.inl (hskip.resolve_left hx)
          · exact Or.inr ⟨h, hx⟩
      · rw [not_or] at hskip
        rw [List.mem_append, List.mem_singleton]
        constructor
        · rintro ((h | rfl) | ⟨h, hx⟩)
          · exact Or.inl h
          · exact Or.inr ⟨Or.inl rfl, hskip.1⟩
          · exact Or.inr ⟨Or.inr h, hx⟩
        · rintro (h | ⟨rfl | h, hx⟩)
          · exact Or.inl (Or.inl h)
          · exact Or.inl (Or.inr rfl)
          · exact Or.inr ⟨h, hx⟩

/-- A ring that spares `X` spares it still when its repetitions and blank lines are passed over. -/
lemma spares_loaded {cap : ℕ} {lines : List String} (hX : "" ∉ X)
    (h : Ring.Spares cap X lines) : Ring.Spares cap X (loaded [] lines) := by
  obtain ⟨old, recent, rfl, hold, hroom⟩ := h
  obtain ⟨more, hmore, hlen⟩ := exists_loaded (loaded [] old) recent
  have hsplit : loaded [] (old ++ recent) = loaded [] old ++ more := by
    rw [← hmore]
    exact List.foldl_append
  refine ⟨loaded [] old, more, hsplit, fun x hx hmem => ?_, ?_⟩
  · rcases mem_loaded.1 hmem with hmem | hmem
    · cases hmem
    · exact hold x hx hmem.1
  · have hmissing : (X.filter fun x => x ∉ loaded [] (old ++ recent)) =
        X.filter fun x => x ∉ old ++ recent := by
      refine Finset.filter_congr fun x hx => ?_
      have hne : x ≠ "" := fun heq => hX (heq ▸ hx)
      simp [mem_loaded, hne]
    rw [hmissing]
    omega

lemma length_loaded_le (lines : List String) : (loaded [] lines).length ≤ lines.length := by
  obtain ⟨more, hmore, hlen⟩ := exists_loaded [] lines
  rw [hmore, List.nil_append]
  exact hlen

/-- After a reload memory holds what the file held, and nothing more. -/
theorem OnFile.opened (h : OnFile X K s) (hX : "" ∉ X) :
    Settled X (s.opened o) ∧ ∀ x ∈ X, x ∈ (s.opened o).ring ↔ x ∈ K := by
  have hlen : (loaded [] s.window).length ≤ s.capacity := by
    refine le_trans (length_loaded_le _) ?_
    rw [window, List.length_drop]
    omega
  have hmem : ∀ x ∈ X, x ∈ loaded [] s.window ↔ x ∈ K := by
    intro x hx
    have hne : x ≠ "" := fun heq => hX (heq ▸ hx)
    rw [← h.holds x hx, mem_loaded]
    simp [hne]
  have hblank : "" ∉ loaded [] s.window := by
    rw [mem_loaded]
    simp
  have hring : (s.opened o).ring = loaded [] s.window := by
    rw [FileSeenRing.opened]
    dsimp only
    split_ifs
    · rfl
    · rfl
  have hcap : (s.opened o).capacity = s.capacity := by
    rw [FileSeenRing.opened]
    dsimp only
    split_ifs
    · rfl
    · rfl
  -- A file rewritten on the way is the ring that was loaded.
  have hwindow : (s.opened o).window = s.window ∨ (s.opened o).window = loaded [] s.window := by
    rw [FileSeenRing.opened]
    dsimp only
    split_ifs
    · cases hwritten : o.written with
      | true => exact Or.inr (window_of_le (by simp [compact, hwritten]) hlen)
      | false => exact Or.inl (by simp [window, compact, hwritten])
    · exact Or.inl rfl
  have hspares := spares_loaded hX h.spares
  refine ⟨⟨by rw [hring, hcap]; exact hlen, hring ▸ hblank, by rw [hring, hcap]; exact hspares,
    ?_⟩, fun x hx => hring ▸ hmem x hx⟩
  refine ⟨?_, fun x hx => ?_⟩
  · rw [hcap]
    rcases hwindow with hw | hw
    · rw [hw]
      exact h.spares
    · rw [hw]
      exact hspares
  · rw [hring, hmem x hx]
    rcases hwindow with hw | hw
    · rw [hw]
      exact h.holds x hx
    · rw [hw]
      exact hmem x hx

lemma ne_empty_of_safe (hsafe : nameIsSafe id = true) : id ≠ "" := by
  rintro rfl
  simp [nameIsSafe] at hsafe

/-- The ring with a missing id taken in. -/
lemma Settled.taken (h : Settled X s) (hid : id ∈ X) (hsafe : nameIsSafe id = true)
    (hnew : id ∉ s.ring) :
    (s.taken id).length ≤ s.capacity ∧ "" ∉ s.taken id ∧ Ring.Spares s.capacity X (s.taken id) ∧
      ∀ x ∈ X, x ∈ s.taken id ↔ x ∈ s.ring ∨ x = id := by
  rw [taken_eq h.length_le]
  obtain ⟨hspares, hmem⟩ := h.spares.push hid hnew
  refine ⟨Ring.length_push_le _ _ _, fun hblank => ?_, hspares, hmem⟩
  rcases Ring.mem_of_mem_push hblank with hblank | hblank
  · exact h.blank hblank
  · exact ne_empty_of_safe hsafe hblank.symm

/-- A file rewritten as the ring holds what the ring holds. -/
lemma onFile_of_lines {s' : FileSeenRing} {ring : List String} (hlines : s'.lines = ring)
    (hlen : ring.length ≤ s'.capacity) (hspares : Ring.Spares s'.capacity X ring)
    (hK : ∀ x ∈ X, x ∈ ring ↔ x ∈ K) : OnFile X K s' := by
  have hwindow := window_of_le hlines hlen
  refine ⟨?_, fun x hx => ?_⟩
  · rw [hwindow]
    exact hspares
  · rw [hwindow]
    exact hK x hx

/-- A line appended to the file is one more id there. -/
lemma OnFile.append (h : OnFile X K s) {s' : FileSeenRing} (hid : id ∈ X) (hnew : id ∉ K)
    (hcap : s'.capacity = s.capacity) (hlines : s'.lines = s.lines ++ [id]) :
    OnFile X (K ++ [id]) s' := by
  have hwindow : s'.window = Ring.push s.capacity id s.window := by
    rw [window, window, Ring.push_drop, hlines, hcap]
  obtain ⟨hspares, hmem⟩ := h.spares.push hid fun hmem => hnew ((h.holds id hid).1 hmem)
  refine ⟨?_, fun x hx => ?_⟩
  · rw [hwindow, hcap]
    exact hspares
  · rw [hwindow, hmem x hx, h.holds x hx, List.mem_append, List.mem_singleton]

lemma OnFile.of_lines (h : OnFile X K s) {s' : FileSeenRing} (hcap : s'.capacity = s.capacity)
    (hlines : s'.lines = s.lines) : OnFile X K s' := by
  have hwindow : s'.window = s.window := by rw [window, window, hlines, hcap]
  refine ⟨?_, fun x hx => ?_⟩
  · rw [hwindow, hcap]
    exact h.spares
  · rw [hwindow]
    exact h.holds x hx

lemma add_of_full (hsafe : nameIsSafe id = true) (hnew : s.contains id = false)
    (hfull : s.linesOnDisk + 1 > s.capacity + s.slack) :
    s.add id o = compact { s with ring := s.taken id } o := by
  rw [FileSeenRing.add, if_neg (by simp [hsafe]), if_neg (by simp [hnew])]
  exact if_pos hfull

lemma add_of_room (hsafe : nameIsSafe id = true) (hnew : s.contains id = false)
    (hroom : ¬ s.linesOnDisk + 1 > s.capacity + s.slack) :
    s.add id o = ({ s with
      ring := s.taken id
      lines := if o.written then s.lines ++ [id] else s.lines
      linesOnDisk := if o.ok then s.linesOnDisk + 1 else s.linesOnDisk }, o.ok) := by
  rw [FileSeenRing.add, if_neg (by simp [hsafe]), if_neg (by simp [hnew])]
  exact if_neg hroom

/-- Memory takes a missing id, however the write ends. -/
lemma ring_add (hsafe : nameIsSafe id = true) (hnew : s.contains id = false) (o : WriteOutcome) :
    (s.add id o).1.ring = s.taken id ∧ (s.add id o).1.capacity = s.capacity ∧
      (s.add id o).2 = o.ok := by
  by_cases hfull : s.linesOnDisk + 1 > s.capacity + s.slack
  · rw [add_of_full hsafe hnew hfull]
    exact ⟨rfl, rfl, rfl⟩
  · rw [add_of_room hsafe hnew hfull]
    exact ⟨rfl, rfl, rfl⟩

lemma add_of_refused (hsafe : nameIsSafe id = false) (s : FileSeenRing) (o : WriteOutcome) :
    s.add id o = (s, false) := if_pos hsafe

lemma add_of_known (hsafe : nameIsSafe id = true) (hknown : s.contains id = true)
    (o : WriteOutcome) : s.add id o = (s, true) := by
  rw [FileSeenRing.add, if_neg (by simp [hsafe]), if_pos hknown]

/-- What `Add` does with an id that is missing: an answer of true means that memory and file have
it; otherwise the write failed, and the file has it or is as it was. -/
theorem Settled.add (h : Settled X s) (hid : id ∈ X) (hsafe : nameIsSafe id = true)
    (hnew : s.contains id = false) :
    ((s.add id o).2 = true → Settled X (s.add id o).1 ∧
      ∀ x ∈ X, x ∈ (s.add id o).1.ring ↔ x ∈ s.ring ∨ x = id) ∧
    ((s.add id o).2 = false → o.ok = false ∧
      (OnFile X (s.ring ++ [id]) (s.add id o).1 ∨ OnFile X s.ring (s.add id o).1)) := by
  have hnot : id ∉ s.ring := by simpa [contains] using hnew
  obtain ⟨hlen, hblank, hspares, hmem⟩ := h.taken hid hsafe hnot
  have happend : ∀ x ∈ X, x ∈ s.taken id ↔ x ∈ s.ring ++ [id] := by
    intro x hx
    rw [hmem x hx, List.mem_append, List.mem_singleton]
  by_cases hfull : s.linesOnDisk + 1 > s.capacity + s.slack
  · rw [add_of_full hsafe hnew hfull]
    refine ⟨fun hok => ⟨⟨hlen, hblank, hspares, ?_⟩, hmem⟩, fun hok => ⟨hok, ?_⟩⟩
    · exact onFile_of_lines (if_pos (WriteOutcome.written_of_ok hok)) hlen hspares
        fun _ _ => Iff.rfl
    · cases hwritten : o.written with
      | true => exact Or.inl (onFile_of_lines (if_pos hwritten) hlen hspares happend)
      | false => exact Or.inr (h.file.of_lines rfl (by simp [compact, hwritten]))
  · rw [add_of_room hsafe hnew hfull]
    refine ⟨fun hok => ⟨⟨hlen, hblank, hspares, ?_⟩, hmem⟩, fun hok => ⟨hok, ?_⟩⟩
    · refine OnFile.congr (K := s.ring ++ [id]) ?_ fun x hx => (happend x hx).symm
      exact h.file.append hid hnot rfl (if_pos (WriteOutcome.written_of_ok hok))
    · cases hwritten : o.written with
      | true => exact Or.inl (h.file.append hid hnot rfl rfl)
      | false => exact Or.inr (h.file.of_lines rfl rfl)

end FileSeenRing
end Chaskiwasi.Device
