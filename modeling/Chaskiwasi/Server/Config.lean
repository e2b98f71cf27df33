import Chaskiwasi.Server.Toml
import Mathlib.Data.Int.Basic

/-!
# The keys of the configuration file that the retention reads

Three keys of `wasi.toml` say how long what the server keeps is kept: of the day-files of the kipu
log, and of the backups, with the place of these.  Each has a default for a key that is zero or
empty, and `validate` looks at none of them; the backup command refuses a retention that is not
positive, and the kipu log takes what it is given.

An integer of the file is one of 64 bits.
-/

namespace Chaskiwasi

/-- What TOML makes of the file, with these keys. -/
structure WasiToml extends Toml where
  kipuRetentionDays : Int64 := 0
  backupDir : String := ""
  backupRetainDays : Int64 := 0
  deriving DecidableEq

namespace WasiToml

def defaultKipuRetention : Int64 := 14

def defaultBackupDir : String := "/backups"

def defaultBackupRetain : Int64 := 7

def applyDefaults (t : WasiToml) : WasiToml where
  toToml := t.toToml.applyDefaults
  kipuRetentionDays := if t.kipuRetentionDays = 0 then defaultKipuRetention else t.kipuRetentionDays
  backupDir := if t.backupDir = "" then defaultBackupDir else t.backupDir
  backupRetainDays := if t.backupRetainDays = 0 then defaultBackupRetain else t.backupRetainDays

lemma orDefault_orDefault (n d : ℤ) :
    Toml.orDefault (Toml.orDefault n d) d = Toml.orDefault n d := by
  unfold Toml.orDefault
  split <;> simp_all

/-- A key with its default is set. -/
lemma default_ne {α : Type} [DecidableEq α] {unset d : α} (hd : d ≠ unset) (x : α) :
    (if x = unset then d else x) ≠ unset := by
  split_ifs with hx
  · exact hd
  · exact hx

/-- The defaults are filled in once. -/
lemma applyDefaults_applyDefaults (t : WasiToml) :
    t.applyDefaults.applyDefaults = t.applyDefaults := by
  have htoml : t.toToml.applyDefaults.applyDefaults = t.toToml.applyDefaults := by
    simp only [Toml.applyDefaults, orDefault_orDefault]
  have hkipu : t.applyDefaults.kipuRetentionDays ≠ 0 := default_ne (by decide) _
  have hdir : t.applyDefaults.backupDir ≠ "" := default_ne (by decide) _
  have hretain : t.applyDefaults.backupRetainDays ≠ 0 := default_ne (by decide) _
  calc
    t.applyDefaults.applyDefaults =
        ⟨t.toToml.applyDefaults.applyDefaults, t.applyDefaults.kipuRetentionDays,
          t.applyDefaults.backupDir, t.applyDefaults.backupRetainDays⟩ := by
      rw [applyDefaults, if_neg hkipu, if_neg hdir, if_neg hretain]
      rfl
    _ = t.applyDefaults := by rw [htoml]; rfl

/-- A file that `Load` accepted. -/
structure Accepted extends WasiToml where
  valid : toToml.validate = []
  defaulted : toWasiToml.applyDefaults = toWasiToml

/-- `Load`, with these keys. -/
def load (file : Option WasiToml) : Option Accepted :=
  file.bind fun t =>
    if h : t.toToml.applyDefaults.validate = [] then
      some ⟨t.applyDefaults, h, applyDefaults_applyDefaults t⟩
    else none

/-- The other keys are loaded as they are without these. -/
lemma load_toToml (file : Option WasiToml) :
    (load file).map (fun c => c.toToml) =
      (Loaded.load (file.map WasiToml.toToml)).map Loaded.toml := by
  cases file with
  | none => rfl
  | some t =>
      simp only [load, Loaded.load, Option.map_some, Option.bind_some]
      split <;> rfl

/-- What was accepted is accepted as it is. -/
lemma Accepted.load_self (c : Accepted) : load (some c.toWasiToml) = some c := by
  have hvalid : c.toToml.applyDefaults.validate = [] := by
    have htoml : c.toToml.applyDefaults = c.toToml := congrArg WasiToml.toToml c.defaulted
    rw [htoml, c.valid]
  have hload : load (some c.toWasiToml) =
      some ⟨c.toWasiToml.applyDefaults, hvalid, applyDefaults_applyDefaults _⟩ := dif_pos hvalid
  rw [hload]
  obtain ⟨t, hval, hdef⟩ := c
  congr

lemma Accepted.kipuRetentionDays_ne (c : Accepted) : c.kipuRetentionDays ≠ 0 := by
  rw [← c.defaulted]
  exact default_ne (by decide) _

end WasiToml
end Chaskiwasi
