import Mathlib.Data.Int.Basic
import Mathlib.Tactic.Common

/-!
# The configuration file and its watcher

`wasi.toml` is written by hand.  `load` fills in the defaults and validates; a `Loaded` is a file
that passed.  The watcher polls the file's times and size, and puts a newly loaded configuration in
place of the current one; a file that does not load leaves the last good one.

Of the file's keys those are here that `validate` checks or a sync reads.
-/

namespace Chaskiwasi

/-- What TOML makes of the file: a key that is absent has its zero value. -/
structure Toml where
  ownerName : String := ""
  mailIMAP : String := ""
  mailSMTP : String := ""
  mailAddress : String := ""
  tokenHash : String := ""
  deviceListen : String := ""
  guardianListen : String := ""
  maxLetterChars : ℤ := 0
  budgetBytes : ℤ := 0
  resyncWindow : ℤ := 0
  intervalS : ℤ := 0
  rat : String := ""
  cover : String := ""
  deriving DecidableEq, Repr

namespace Toml

def defaultMaxLetterChars : ℤ := 500

def defaultBudgetBytes : ℤ := 2048

def defaultResyncWindow : ℤ := 200

def defaultIntervalS : ℤ := 21600

/-- A key that is zero is taken for one that was left out. -/
def orDefault (n default : ℤ) : ℤ := if n = 0 then default else n

def applyDefaults (t : Toml) : Toml :=
  { t with
    maxLetterChars := orDefault t.maxLetterChars defaultMaxLetterChars
    budgetBytes := orDefault t.budgetBytes defaultBudgetBytes
    resyncWindow := orDefault t.resyncWindow defaultResyncWindow
    intervalS := orDefault t.intervalS defaultIntervalS }

/-- Whether a text is 64 hexadecimal characters. -/
def isHex64 (s : String) : Bool :=
  decide (s.utf8ByteSize = 64) && s.toList.all fun c =>
    decide ('0' ≤ c) && decide (c ≤ '9') || decide ('a' ≤ c) && decide (c ≤ 'f') ||
      decide ('A' ≤ c) && decide (c ≤ 'F')

/-- The problem with a key that may not be empty. -/
def require (key value : String) : List String :=
  if value ≠ "" then [] else [key ++ " is required"]

/-- Every problem with the file, together. -/
def validate (t : Toml) : List String :=
  require "owner.name" t.ownerName ++
  require "mail.imap" t.mailIMAP ++
  require "mail.smtp" t.mailSMTP ++
  require "mail.address" t.mailAddress ++
  require "device.listen" t.deviceListen ++
  require "guardian.listen" t.guardianListen ++
  (if t.tokenHash = "" then ["device.token_hash is required"]
    else if isHex64 t.tokenHash then []
    else ["device.token_hash must be 64 hex characters (SHA-256 of the device token), got " ++
      toString t.tokenHash.length ++ " characters"]) ++
  (if t.maxLetterChars ≤ 0 then
      ["sync.max_letter_chars must be greater than 0, got " ++ toString t.maxLetterChars]
    else [])

/-- Every default passes its own check. -/
lemma applyDefaults_maxLetterChars (t : Toml) (h : t.maxLetterChars = 0) :
    0 < t.applyDefaults.maxLetterChars := by
  simp [applyDefaults, orDefault, h, defaultMaxLetterChars]

lemma maxLetterChars_pos {t : Toml} (h : t.validate = []) : 0 < t.maxLetterChars := by
  unfold validate at h
  have hlast := (List.append_eq_nil_iff.1 h).2
  by_contra hle
  rw [if_pos (by omega)] at hlast
  cases hlast

end Toml

/-- A configuration that passed. -/
structure Loaded where
  toml : Toml
  valid : toml.validate = []

namespace Loaded

/-- `Load`, of a file that reads as TOML or does not. -/
def load (file : Option Toml) : Option Loaded :=
  file.bind fun t =>
    if h : t.applyDefaults.validate = [] then some ⟨t.applyDefaults, h⟩ else none

lemma maxLetterChars_pos (l : Loaded) : 0 < l.toml.maxLetterChars :=
  Toml.maxLetterChars_pos l.valid

end Loaded

/-- What `stat` says of the file. -/
structure FileInfo where
  modTime : ℤ
  size : ℤ
  deriving DecidableEq, Repr

/-- The watcher: the last good configuration, and the file it was loaded from. -/
structure Watcher where
  current : Loaded
  seen : FileInfo

namespace Watcher

/-- `NewWatcher`: there is nothing to fall back to yet. -/
def new (file : Option Toml) (stat : Option FileInfo) : Option Watcher :=
  match Loaded.load file, stat with
  | some cfg, some fi => some ⟨cfg, fi⟩
  | _, _ => none

/-- One poll. -/
def reloadIfChanged (w : Watcher) (stat : Option FileInfo) (file : Option Toml) : Watcher :=
  match stat with
  | none => w
  | some fi =>
      if fi = w.seen then w
      else
        match Loaded.load file with
        | none => w
        | some cfg => ⟨cfg, fi⟩

end Watcher
end Chaskiwasi
