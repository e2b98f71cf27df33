import Chaskiwasi.Sync.Codec
import Chaskiwasi.Server.Announced
import Chaskiwasi.Lib.Run

/-!
# The settings that the server pushes

The guardians set the length of a letter, the interval between syncs, the radio and the cover in the
server's configuration, and every response carries them.  The response leaves out a text that is
empty, and the device leaves alone what is not there; so what has been cleared on the server stays
on the device.  The settings are written before the cursor, and nobody looks at how that write ends:
the cursor goes on to say that the response was applied.

A `World` is the server's configuration and the device.  `settings_of_applied` follows the settings
through an application, and `taken_iff` says when they come to be the server's.
-/

namespace Chaskiwasi.Device

open Engine Codec

/-! ## The settings through an application -/

section Application

variable {keep : ℕ} {d e : Engine} {r : SyncResponse} {c : PushedConfig}

/-- Before the config the settings are those of `d`, and behind it they are what its write has made
of them; that write is the last but one. -/
def settingsOutline (keep : ℕ) (d : Engine) (hconfig : r.config = some c) : Outline keep r where
  acking _ _ e := e.settings = d.settings
  snapped _ e := e.settings = d.settings
  reading _ _ _ e := e.settings = d.settings
  writing _ _ _ _ e := e.settings = d.settings
  evicting _ _ e := e.settings = d.settings
  configuring _ e := e.settings = d.settings
  ending past e := ∃ x past', past = x :: past' ∧
    e.settings = (FileSettingsStore.applyConfig d.settings c x.2).1
  final past e := ∃ y x past', past = y :: x :: past' ∧
    e.settings = (FileSettingsStore.applyConfig d.settings c x.2).1
  failed _ _ := True
  cut _ _ := True
  clock := fun _ _ _ h => h
  resolve := fun _ _ => Crash.Triple.attempt_answers (fun _ _ _ => trivial) (fun _ _ _ h _ => h)
    fun _ _ _ _ _ => trivial
  without := fun _ _ _ h => h
  snapshot := fun _ _ => Crash.Triple.attempt_answers (fun _ _ _ => trivial) (fun _ _ _ h _ => h)
    fun _ _ _ _ _ => trivial
  version := fun _ _ => Crash.Triple.attempt_answers (fun _ _ _ => trivial) (fun _ _ _ h _ => h)
    fun _ _ _ _ _ => trivial
  seen := fun _ _ _ _ _ h _ => h
  put := fun _ _ _ => Crash.Triple.attempt_answers (fun _ _ _ => trivial)
    (fun _ _ _ h _ => h.1) fun _ _ _ _ _ => trivial
  add := fun _ _ _ => Crash.Triple.attempt_answers (fun _ _ _ => trivial) (fun _ _ _ h _ => h)
    fun _ _ _ _ _ => trivial
  read := fun _ _ h => h
  evict := fun _ _ _ h => h
  remove := fun _ _ => Crash.Triple.attempt_answers (fun _ _ _ => trivial) (fun _ _ _ h _ => h)
    fun _ _ _ h _ => h
  evicted := fun _ _ h => h
  unchanged := fun hnone => by
    rw [hconfig] at hnone
    cases hnone
  config := by
    intro c' hc'
    obtain rfl := Option.some.inj (hconfig.symm.trans hc')
    apply Crash.Triple.attempt_answers
    · exact fun _ _ _ => trivial
    · rintro past e o h -
      exact ⟨_, past, rfl, congrArg (fun s => (FileSettingsStore.applyConfig s c o).1) h⟩
    · rintro past e o h -
      exact ⟨_, past, rfl, congrArg (fun s => (FileSettingsStore.applyConfig s c o).1) h⟩
  cursor := by
    apply Crash.Triple.attempt_answers
    · exact fun _ _ _ => trivial
    · rintro past e o ⟨x, past', rfl, h⟩ -
      exact ⟨_, x, past', rfl, h⟩
    · exact fun _ _ _ _ _ => trivial

/-- How the write of the settings ended, in the history of an application that was completed: it is
the last but one. -/
def configWrite (past : List (Engine × WriteOutcome)) : Option WriteOutcome :=
  past[1]?.map Prod.snd

/-- The settings after an application that was completed. -/
theorem settings_of_applied {out : Outcome} {past : List (Engine × WriteOutcome)}
    {os rest : List WriteOutcome} (hconfig : r.config = some c)
    (hrun : (applyResponse keep r).run [] d os = .back out past e rest)
    (hout : out.applyIncomplete = false) :
    ∃ o, configWrite past = some o ∧
      e.settings = (FileSettingsStore.applyConfig d.settings c o).1 := by
  have hmeets := (settingsOutline keep d hconfig).triple [] d os rfl
  rw [hrun, Crash.Ending.Meets, Outline.Ends, hout] at hmeets
  obtain ⟨y, x, past', rfl, h⟩ := hmeets
  exact ⟨x.2, rfl, h⟩

end Application

/-! ## The settings that both should have -/

/-- The settings with all four pushed values, as the device bounds them. -/
def wanted (c : DeviceConfig) (s : StoredSettings) : StoredSettings :=
  (s.edit ⟨some c.maxLetterChars, some c.syncIntervalS, some c.rat, some c.cover⟩).sanitise

/-- The device's four values are the server's, as the device bounds them. -/
def Converged (c : DeviceConfig) (s : StoredSettings) : Prop :=
  s.maxLetterChars = (wanted c s).maxLetterChars ∧ s.syncIntervalS = (wanted c s).syncIntervalS ∧
    s.rat = c.rat ∧ s.cover = c.cover

instance (c : DeviceConfig) (s : StoredSettings) : Decidable (Converged c s) :=
  inferInstanceAs (Decidable (_ ∧ _ ∧ _ ∧ _))

/-- A number comes to the same behind the device's bound, whether it is read as a C `int` or not. -/
def SameInterval (D : Doubles) (n : ℤ) : Prop :=
  max minSyncIntervalS (valueint D n) = max minSyncIntervalS n

/-- A text that the device has once it was pushed. -/
def TextTaken (pushed held : String) : Prop :=
  if pushed = "" then held = "" else NulFree pushed

/-- With the settings of the server pushed to a device that holds these, and their write ending so,
the device has the server's settings. -/
def Taken (D : Doubles) (c : DeviceConfig) (held : StoredSettings) (o : WriteOutcome) : Prop :=
  if o.ok then
    c.maxLetterChars < 2 ^ 31 ∧ SameInterval D c.syncIntervalS ∧ TextTaken c.rat held.rat ∧
      TextTaken c.cover held.cover
  else Converged c held

variable {D : Doubles} {c : DeviceConfig} {held : StoredSettings} {o : WriteOutcome}

lemma textTaken_iff {block : Json} {key pushed held : String}
    (h : block.get? key = omitEmpty pushed) :
    (requiredString block key).getD held = pushed ↔ TextTaken pushed held := by
  unfold TextTaken omitEmpty at *
  by_cases hempty : pushed = ""
  · rw [if_pos hempty] at h ⊢
    rw [requiredString, h, hempty]
    rfl
  · rw [if_neg hempty] at h ⊢
    rw [requiredString_str h]
    exact cstr_eq_iff

/-- The length of a letter arrives where it is an `int`. -/
lemma maxLetterChars_taken {n : ℤ} (hpos : 0 < n) :
    (if valueint D n ≤ 0 then 500 else valueint D n) = n ↔ n < 2 ^ 31 := by
  constructor
  · intro h
    have hle : valueint D n ≤ 2 ^ 31 - 1 := by
      unfold valueint
      omega
    split_ifs at h
    · omega
    · omega
  · intro hlt
    have hread : valueint D n = n := (valueint_eq_iff D n).2 ⟨by omega, hlt⟩
    rw [hread, if_neg (by omega)]

/-- **The device comes to have the server's settings exactly where they are taken.** -/
theorem converged_applyConfig_iff (hpos : 0 < c.maxLetterChars) (s : FileSettingsStore) :
    Converged c (FileSettingsStore.applyConfig s (decodeConfig D (marshalConfig c)) o).1.held ↔
      Taken D c s.held o := by
  unfold Taken FileSettingsStore.applyConfig Mirrored.commit
  by_cases hok : o.ok = true
  · obtain ⟨hchars, hinterval, hrat, hcover⟩ := get?_config c
    have hbound : ∀ n : ℤ, (if n < minSyncIntervalS then minSyncIntervalS else n) =
        max minSyncIntervalS n := by
      intro n
      unfold minSyncIntervalS
      omega
    rw [if_pos hok, if_pos hok]
    unfold Converged
    rw [← maxLetterChars_taken (D := D) hpos, ← textTaken_iff hrat, ← textTaken_iff hcover]
    simp only [wanted, StoredSettings.sanitise, StoredSettings.edit, Settings.sanitise,
      decodeConfig, hchars, hinterval, Option.getD_some, Literal.value, hbound, SameInterval,
      if_neg (not_le.2 hpos)]
  · rw [if_neg hok, if_neg hok]

/-! ## The server and the device -/

structure World where
  /-- The server's configuration. -/
  config : Loaded
  device : Engine
  /-- Whether the device is running. -/
  up : Bool := true

inductive Act
  /-- The guardians change the configuration. -/
  | configure (l : Loaded)
  /-- A response goes to the device, but for its settings, which are the server's own; and how the
  writes of the application end.  Where they give out, power is lost. -/
  | sync (answer : Codec.Response) (os : List WriteOutcome)
  /-- The child changes a setting of the device's own. -/
  | adjust (fontStep frontlightStep : ℤ) (pinEnabled : Bool) (o : WriteOutcome)
  | boot (o : WriteOutcome)

section Steps

variable (D : Doubles) (keep : ℕ)

/-- What the device decodes of a response. -/
def World.decoded (w : World) (answer : Codec.Response) : Option SyncResponse :=
  decodeResponse D (marshalResponse
    { answer with config := some (Announced.deviceConfig w.config.toml) })

/-- How the application of a response ends, where the device accepts it. -/
def World.applied (w : World) (answer : Codec.Response) (os : List WriteOutcome) :
    Option (Crash.Ending WriteOutcome Engine Outcome) :=
  (w.decoded D answer).map fun r => (applyResponse keep r).run [] w.device os

def step (w : World) : Act → Option World
  | .configure l => some { w with config := l }
  | .sync answer os =>
      if w.up then
        match w.applied D keep answer os with
        | none => some w
        | some (.back _ _ e _) => some { w with device := e }
        | some (.cut _ e) => some { w with device := e, up := false }
      else none
  | .adjust fontStep frontlightStep pinEnabled o =>
      if w.up then
        let held := w.device.settings.held
        let next := { held with
          fontStep := fontStep, frontlightStep := frontlightStep, pinEnabled := pinEnabled }
        some { w with device := { w.device with
          settings := (w.device.settings.commit next.sanitise o).1 } }
      else none
  | .boot o => some { w with device := w.device.opened o, up := true }

/-- If the step is a sync whose response is applied completely, the device has the server's settings
after it. -/
def Converges (w : World) : Act → Prop
  | .sync answer os => ∀ out past e rest,
      w.applied D keep answer os = some (.back out past e rest) → out.applyIncomplete = false →
        Converged (Announced.deviceConfig w.config.toml) e.settings.held
  | _ => True

/-- If the step is such a sync, the server's settings are taken. -/
def Takes (w : World) : Act → Prop
  | .sync answer os => ∀ out past e rest,
      w.applied D keep answer os = some (.back out past e rest) → out.applyIncomplete = false →
        ∀ o ∈ configWrite past,
          Taken D (Announced.deviceConfig w.config.toml) w.device.settings.held o
  | _ => True

end Steps

variable {keep : ℕ} {w : World} {acts : List Act}

/-- A response that the device accepts brings it what it can read of the server's settings. -/
lemma config_of_decoded {answer : Codec.Response} {r : SyncResponse}
    (h : w.decoded D answer = some r) :
    r.config = some (decodeConfig D (marshalConfig (Announced.deviceConfig w.config.toml))) := by
  obtain ⟨acks, letters, ayllu, -, -, -, rfl⟩ := (decodeResponse_marshalResponse D).1 h
  rfl

/-- One step. -/
theorem converges_iff_takes (w : World) (act : Act) :
    Converges D keep w act ↔ Takes D keep w act := by
  cases act with
  | sync answer os =>
      refine forall₄_congr fun out past e rest => forall₂_congr fun happlied hout => ?_
      obtain ⟨r, hr, hrun⟩ := Option.map_eq_some_iff.1 happlied
      obtain ⟨o, hwrite, hsettings⟩ := settings_of_applied (config_of_decoded hr) hrun hout
      have hpos : 0 < (Announced.deviceConfig w.config.toml).maxLetterChars :=
        w.config.maxLetterChars_pos
      rw [hsettings, converged_applyConfig_iff hpos, hwrite]
      constructor
      · rintro h o' ho'
        obtain rfl := Option.some.inj ho'
        exact h
      · exact fun h => h o rfl
  | configure l => exact Iff.rfl
  | adjust fontStep frontlightStep pinEnabled o => exact Iff.rfl
  | boot o => exact Iff.rfl

/-- **The pushed settings converge exactly where they are taken.**  In every history of changed
configurations, syncs and boots, with any write of the device failing, each sync whose response was
applied completely leaves the device with the server's settings, if and only if at each of them the
write of the settings went well, the numbers are an `int` or raised by the bound, and each text is
free of NUL, and empty only where the device's is; or, where the write failed, the device had the
server's settings already. -/
theorem settings_converge_iff :
    Run.Meets (step D keep) (Converges D keep) w acts ↔
      Run.Meets (step D keep) (Takes D keep) w acts :=
  Run.meets_congr (I := fun _ => True) (fun _ _ _ _ _ => trivial)
    (fun w act _ => converges_iff_takes w act) trivial

/-- What the guardians are promised: whatever they change, and whatever writes fail, a sync that was
applied completely leaves the device with the server's settings. -/
def AlwaysConverges (D : Doubles) : Prop :=
  ∀ (keep : ℕ) (w : World) (acts : List Act), Run.Meets (step D keep) (Converges D keep) w acts

end Chaskiwasi.Device

namespace Chaskiwasi.Sample

open Device

/-- A configuration with this cover. -/
def covered (cover : String) : Loaded where
  toml := { toml 500 with intervalS := 3600, cover := cover }
  valid := (by decide +kernel : ({ toml 500 with intervalS := 3600 } : Toml).validate = [])

/-- A server that wants a cover, and a device as it was made. -/
def coveredServer : Device.World where
  config := covered "Ada"
  device :=
    { seen := FileSeenRing.empty 1000
      contacts := ⟨⟨0, []⟩, ⟨0, []⟩⟩ }

/-- A response with nothing to say. -/
def nothing : Codec.Response where
  serverTime := 1
  cursor := "1:1"
  pututuCounter := 1

end Chaskiwasi.Sample

namespace Chaskiwasi.Device

/-- The device behind an application that was completed. -/
def completed : Option (Crash.Ending WriteOutcome Engine Outcome) → Option Engine
  | some (.back out _ e _) => if out.applyIncomplete then none else some e
  | _ => none

lemma completed_eq_some {ending : Option (Crash.Ending WriteOutcome Engine Outcome)} {e : Engine}
    (h : completed ending = some e) :
    ∃ out past rest, ending = some (.back out past e rest) ∧ out.applyIncomplete = false := by
  unfold completed at h
  split at h
  · split_ifs at h with hout
    obtain rfl := Option.some.inj h
    exact ⟨_, _, _, rfl, by simpa using hout⟩
  · cases h

/-- A sync, and then the cover is taken back. -/
def coverTakenBack : List Act :=
  [.sync Sample.nothing [.done, .done], .configure (Sample.covered "")]

/-- **A cover that was taken back stays on the device.** -/
theorem cleared_cover_stays : ¬ AlwaysConverges Sample.exactDoubles := by
  intro hclaim
  have hmeets := hclaim 10 Sample.coveredServer
    (coverTakenBack ++ [.sync Sample.nothing [.done, .done]])
  have heval : ((Run.run (step Sample.exactDoubles 10) Sample.coveredServer
      coverTakenBack).any fun w =>
        (completed (w.applied Sample.exactDoubles 10 Sample.nothing [.done, .done])).any fun e =>
          decide (¬ Converged (Announced.deviceConfig w.config.toml) e.settings.held)) = true := by
    decide +kernel
  obtain ⟨w, hrun, heval⟩ := Run.exists_of_any heval
  obtain ⟨e, hcompleted, hstays⟩ := (Option.any_eq_true _ _).1 heval
  obtain ⟨out, past, rest, happlied, hout⟩ := completed_eq_some hcompleted
  exact of_decide_eq_true hstays
    ((hmeets.append hrun).2.1 out past e rest happlied hout)

end Chaskiwasi.Device
