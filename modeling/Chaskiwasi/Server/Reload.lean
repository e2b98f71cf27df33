import Chaskiwasi.Lib.Run
import Chaskiwasi.Server.Announced

/-!
# The watcher and a file that is replaced under it

The watcher knows `wasi.toml` by its time and size, and takes them in a step of its own: a poll
takes them first and reads the file after that, the start reads the file first and takes them after
that.  The file may be replaced between any two of these steps.

A poll that reads a newer file than it took the time and size of will find at the next poll that
they differ, and read again.  The start that took the time and size of a newer file than it read
has no such second chance.  The same comes of a file that is put in place with the time and size
that were recorded of another.  `asOnDisk_iff` says that nothing else keeps the configuration of
the file from being the one in force.
-/

namespace Chaskiwasi

deriving instance DecidableEq for Loaded
deriving instance DecidableEq for Watcher

namespace Reload

/-- `wasi.toml`: what `stat` says of it, and what TOML makes of it. -/
structure ConfigFile where
  info : FileInfo
  content : Option Toml
  deriving DecidableEq

/-- `Load` of the file. -/
def ConfigFile.load (f : ConfigFile) : Option Loaded := Loaded.load f.content

/-- How far the watcher is. -/
inductive Stage
  /-- `NewWatcher` begins. -/
  | starting
  /-- It has loaded the file. -/
  | loaded (cfg : Loaded)
  /-- It has returned an error. -/
  | refused
  /-- Between two polls. -/
  | watching (w : Watcher)
  /-- A poll has found the file changed. -/
  | polling (w : Watcher) (fi : FileInfo)
  deriving DecidableEq

/-- `Current`, once there is a watcher. -/
def Stage.current? : Stage → Option Loaded
  | watching w | polling w _ => some w.current
  | starting | loaded _ | refused => none

structure World where
  file : ConfigFile
  stage : Stage := .starting
  /-- The poll under way began after the file was last replaced.  No step reads it. -/
  begun : Bool := false
  /-- A whole poll has run since the file was last replaced.  No step reads it. -/
  polled : Bool := false
  deriving DecidableEq

inductive Act
  /-- Another file is renamed over this one. -/
  | replace (f : ConfigFile)
  /-- The watcher's `os.Stat`, which may fail. -/
  | stat (works : Bool)
  /-- The watcher's `Load`, whose `os.ReadFile` may fail. -/
  | load (works : Bool)
  deriving DecidableEq

/-! ## The steps -/

namespace World

variable (s : World)

/-- The second step of `NewWatcher`. -/
def started (cfg : Loaded) : Stage := .watching ⟨cfg, s.file.info⟩

/-- The first step of `reloadIfChanged`. -/
def looked (w : Watcher) : World :=
  if s.file.info = w.seen then { s with polled := true }
  else { s with stage := .polling w s.file.info, begun := true }

/-- The second step of `reloadIfChanged`. -/
def reloaded (w : Watcher) (fi : FileInfo) : World :=
  { s with
    stage := .watching (match s.file.load with
      | none => w
      | some cfg => ⟨cfg, fi⟩)
    begun := false
    polled := s.polled || s.begun }

end World

def step (s : World) : Act → Option World
  | .replace f =>
      if f.info = s.file.info then none
      else some { s with file := f, begun := false, polled := false }
  | .stat works =>
      match s.stage with
      | .loaded cfg => some { s with stage := if works then s.started cfg else .refused }
      | .watching w => some (if works then s.looked w else s)
      | _ => none
  | .load works =>
      match s.stage with
      | .starting =>
          some { s with stage := ((if works then s.file.load else none).elim .refused .loaded) }
      | .polling w fi =>
          some (if works then s.reloaded w fi else { s with stage := .watching w, begun := false })
      | _ => none

/-! ## What is asked of the watcher -/

/-- The file is valid and a whole poll has run since it is what it is, and so it is in force. -/
def InForce (s : World) : Prop :=
  s.polled = true → ∀ cfg, s.file.load = some cfg → s.stage.current? = some cfg

/-- The watcher goes on, and the file is left alone. -/
def Quiet : Act → Prop
  | .stat works | .load works => works = true
  | .replace _ => False

/-- With the file left alone, it is in force once a whole poll has run. -/
def Settles (s : World) : Prop :=
  ∀ acts s', (∀ act ∈ acts, Quiet act) → Run.run step s acts = some s' → InForce s'

/-- A step with an invalid file leaves `Current` what it is. -/
def Keeps (s : World) (act : Act) : Prop :=
  s.file.load = none → ∀ s', step s act = some s' → ∀ cfg, s.stage.current? = some cfg →
    s'.stage.current? = some cfg

/-- The configuration in force is the one on the disk. -/
structure AsOnDisk (file : ConfigFile) (acts : List Act) : Prop where
  settles : ∀ s ∈ Run.visits step { file } acts, Settles s
  keeps : Run.Meets step Keeps { file } acts

/-- The file looks like the one that was loaded, and says something else. -/
def Mistaken (w : Watcher) (f : ConfigFile) : Prop :=
  f.info = w.seen ∧ ∃ cfg ∈ f.load, cfg ≠ w.current

instance (w : Watcher) (f : ConfigFile) : Decidable (Mistaken w f) :=
  inferInstanceAs (Decidable (_ ∧ _))

/-- No file is put in place that the watcher will take for the one it loaded: while it starts, none
that says something else than the one it read; between two polls, none with the recorded time and
size.  A poll that cannot read what it found changed leaves no such file behind. -/
def Told (s : World) (act : Act) : Prop :=
  match s.stage, act with
  | .loaded cfg, .replace f => ¬ Mistaken ⟨cfg, f.info⟩ f
  | .watching w, .replace f => ¬ Mistaken w f
  | .polling w _, .load false => ¬ Mistaken w s.file
  | _, _ => True

instance : ∀ (s : World) (act : Act), Decidable (Told s act)
  | ⟨_, .loaded cfg, _, _⟩, .replace f => inferInstanceAs (Decidable (¬ Mistaken ⟨cfg, f.info⟩ f))
  | ⟨_, .watching w, _, _⟩, .replace f => inferInstanceAs (Decidable (¬ Mistaken w f))
  | ⟨file, .polling w _, _, _⟩, .load false => inferInstanceAs (Decidable (¬ Mistaken w file))
  | ⟨_, .starting, _, _⟩, _ | ⟨_, .refused, _, _⟩, _ | ⟨_, .loaded _, _, _⟩, .stat _
  | ⟨_, .loaded _, _, _⟩, .load _ | ⟨_, .watching _, _, _⟩, .stat _
  | ⟨_, .watching _, _, _⟩, .load _ | ⟨_, .polling _ _, _, _⟩, .replace _
  | ⟨_, .polling _ _, _, _⟩, .stat _ | ⟨_, .polling _ _, _, _⟩, .load true => isTrue trivial

/-- Whatever is put in place, and when. -/
def AlwaysAsOnDisk : Prop :=
  ∀ file acts s, Run.run step { file } acts = some s → AsOnDisk file acts

/-! ## The steps without a replacement between them -/

section Undisturbed

variable {s s' : World} {w : Watcher} {act : Act}

/-- A start that nothing disturbs is `NewWatcher`. -/
lemma start_undisturbed (file : ConfigFile) :
    (Run.run step { file } [.load true, .stat true]).map World.stage =
      (Watcher.new file.content (some file.info)).map Stage.watching := by
  have hload : Loaded.load file.content = file.load := rfl
  cases hfile : file.load with
  | none => simp [Run.run, step, Watcher.new, hload, hfile]
  | some cfg => simp [Run.run, step, World.started, Watcher.new, hload, hfile]

/-- A poll that nothing disturbs is `reloadIfChanged`. -/
lemma poll_undisturbed (s : World) {w : Watcher} (hstage : s.stage = .watching w) :
    (Run.run step s
      (.stat true :: if s.file.info = w.seen then [] else [.load true])).map World.stage =
        some (.watching (w.reloadIfChanged (some s.file.info) s.file.content)) := by
  have hload : Loaded.load s.file.content = s.file.load := rfl
  by_cases hseen : s.file.info = w.seen
  · simp [Run.run, step, hstage, World.looked, hseen, Watcher.reloadIfChanged]
  · cases hfile : s.file.load with
    | none =>
        simp [Run.run, step, hstage, World.looked, World.reloaded, hseen,
          Watcher.reloadIfChanged, hload, hfile]
    | some cfg =>
        simp [Run.run, step, hstage, World.looked, World.reloaded, hseen,
          Watcher.reloadIfChanged, hload, hfile]

end Undisturbed

/-! ## What every step keeps -/

section Invariant

variable {s s' : World} {act : Act}

/-- What a step can do. -/
lemma step_cases (hstep : step s act = some s') :
    (∃ f, act = .replace f ∧ s' = { s with file := f, begun := false, polled := false }) ∨
    (∃ works, act = .load works ∧ s.stage = .starting ∧
      s' = { s with stage := (if works then s.file.load else none).elim .refused .loaded }) ∨
    (∃ works cfg, act = .stat works ∧ s.stage = .loaded cfg ∧
      s' = { s with stage := if works then s.started cfg else .refused }) ∨
    (∃ works w, act = .stat works ∧ s.stage = .watching w ∧
      s' = if works then s.looked w else s) ∨
    ∃ works w fi, act = .load works ∧ s.stage = .polling w fi ∧
      s' = if works then s.reloaded w fi else { s with stage := .watching w, begun := false } := by
  cases act with
  | replace f =>
      rw [step] at hstep
      split at hstep
      · cases hstep
      · exact Or.inl ⟨f, rfl, (Option.some.inj hstep).symm⟩
  | stat works =>
      cases hstage : s.stage with
      | starting | refused | polling =>
          rw [step, hstage] at hstep
          cases hstep
      | loaded cfg =>
          rw [step, hstage] at hstep
          exact Or.inr (Or.inr (Or.inl ⟨works, cfg, rfl, rfl, (Option.some.inj hstep).symm⟩))
      | watching w =>
          rw [step, hstage] at hstep
          exact Or.inr (Or.inr (Or.inr (Or.inl ⟨works, w, rfl, rfl, (Option.some.inj hstep).symm⟩)))
  | load works =>
      cases hstage : s.stage with
      | loaded | refused | watching =>
          rw [step, hstage] at hstep
          cases hstep
      | starting =>
          rw [step, hstage] at hstep
          exact Or.inr (Or.inl ⟨works, rfl, rfl, (Option.some.inj hstep).symm⟩)
      | polling w fi =>
          rw [step, hstage] at hstep
          exact Or.inr (Or.inr (Or.inr (Or.inr
            ⟨works, w, fi, rfl, rfl, (Option.some.inj hstep).symm⟩)))

/-- What is known of the file, at each stage. -/
def Inv (s : World) : Prop :=
  match s.stage with
  | .starting | .refused => s.polled = false
  | .loaded cfg => s.polled = false ∧ ∀ c ∈ s.file.load, c = cfg
  | .watching w => ¬ Mistaken w s.file ∧ InForce s
  | .polling .. => InForce s

lemma Inv.inForce (h : Inv s) : InForce s := by
  intro hpolled
  cases hstage : s.stage with
  | starting | refused =>
      rw [Inv, hstage] at h
      exact absurd hpolled (by simp [h])
  | loaded cfg =>
      rw [Inv, hstage] at h
      exact absurd hpolled (by simp [h.1])
  | watching w =>
      rw [Inv, hstage] at h
      exact hstage ▸ h.2 hpolled
  | polling w fi =>
      rw [Inv, hstage] at h
      exact hstage ▸ h hpolled

lemma inv_watching {w : Watcher} (hstage : s.stage = .watching w) :
    Inv s ↔ ¬ Mistaken w s.file ∧ InForce s := by
  rw [Inv, hstage]

/-- A poll that read the file has it in force, if it is valid. -/
lemma inv_reloaded (s : World) (w : Watcher) (fi : FileInfo) : Inv (s.reloaded w fi) := by
  cases hload : s.file.load with
  | none =>
      have hnone : ∀ cfg, s.file.load ≠ some cfg := by simp [hload]
      refine (inv_watching rfl).2 ⟨?_, ?_⟩
      · rintro ⟨-, cfg, hcfg, -⟩
        exact hnone cfg hcfg
      · rintro - cfg hcfg
        exact absurd hcfg (hnone cfg)
  | some cfg =>
      have hstage : (s.reloaded w fi).stage = .watching ⟨cfg, fi⟩ := by
        simp [World.reloaded, hload]
      refine (inv_watching hstage).2 ⟨?_, ?_⟩
      · rintro ⟨-, c, hc, hne⟩
        exact hne (Option.some.inj (hc.symm.trans hload))
      · rintro - c hc
        rw [hstage, ← hc]
        exact hload.symm

/-- A step that is told of the file keeps what is known. -/
theorem Inv.step (h : Inv s) (htold : Told s act) (hstep : Reload.step s act = some s') :
    Inv s' := by
  obtain ⟨f, rfl, rfl⟩ | ⟨works, rfl, hstage, rfl⟩ | ⟨works, cfg, rfl, hstage, rfl⟩ |
    ⟨works, w, rfl, hstage, rfl⟩ | ⟨works, w, fi, rfl, hstage, rfl⟩ := step_cases hstep
  · obtain ⟨file, stage, begun, polled⟩ := s
    cases stage with
    | starting | refused => exact rfl
    | loaded cfg =>
        refine ⟨rfl, fun c hc => ?_⟩
        by_contra hne
        exact htold ⟨rfl, c, hc, hne⟩
    | watching w => exact ⟨htold, fun hpolled => nomatch hpolled⟩
    | polling w fi => exact fun hpolled => nomatch hpolled
  · rw [Inv, hstage] at h
    cases works with
    | false => exact h
    | true =>
        rw [if_pos rfl]
        cases hload : s.file.load with
        | none => exact h
        | some cfg => exact ⟨h, fun c hc => Option.some.inj (hc.symm.trans hload)⟩
  · rw [Inv, hstage] at h
    obtain ⟨hpolled, hread⟩ := h
    cases works with
    | false => exact hpolled
    | true =>
        refine (inv_watching rfl).2 ⟨?_, fun hp => ?_⟩
        · rintro ⟨-, c, hc, hne⟩
          exact hne (hread c hc)
        · exact absurd hp (by simp [hpolled])
  · obtain ⟨file, stage, begun, polled⟩ := s
    obtain rfl : stage = .watching w := hstage
    obtain ⟨htaken, hforce⟩ := h
    cases works with
    | false => exact ⟨htaken, hforce⟩
    | true =>
        rw [if_pos rfl, World.looked]
        by_cases hseen : file.info = w.seen
        · rw [if_pos hseen]
          refine ⟨htaken, fun _ cfg hcfg => ?_⟩
          by_contra hne
          exact htaken ⟨hseen, cfg, hcfg, fun heq => hne (heq ▸ rfl)⟩
        · rw [if_neg hseen]
          exact hforce
  · obtain ⟨file, stage, begun, polled⟩ := s
    obtain rfl : stage = .polling w fi := hstage
    cases works with
    | true => exact inv_reloaded _ w fi
    | false => exact ⟨htold, h⟩

/-- What the watcher does while the file is left alone needs to be told nothing. -/
lemma told_of_quiet (h : Quiet act) : Told s act := by
  obtain ⟨file, stage, begun, polled⟩ := s
  cases act with
  | replace f => exact h.elim
  | stat works => cases stage <;> trivial
  | load works =>
      obtain rfl : works = true := h
      cases stage <;> trivial

lemma Inv.settles (h : Inv s) : Settles s := by
  intro acts s' hquiet hrun
  have hmeets : Run.Meets Reload.step (fun _ act => Quiet act) s acts := Run.meets_of_mem hquiet
  have hinv : Inv s' := Run.run_invariant_of_meets (fun _ _ _ hs hact hstep =>
    hs.step (told_of_quiet hact) hstep) h hmeets hrun
  exact hinv.inForce

/-- A file that the watcher takes for the one it loaded stays out of force. -/
lemma not_settles_of_mistaken {w : Watcher} (hstage : s.stage = .watching w)
    (h : Mistaken w s.file) : ¬ Settles s := by
  intro hsettles
  obtain ⟨hseen, cfg, hcfg, hne⟩ := h
  have hrun : Run.run Reload.step s [.stat true] = some { s with polled := true } := by
    simp [Run.run, Reload.step, hstage, World.looked, hseen]
  have hforce := hsettles [.stat true] _ (by simp [Quiet]) hrun rfl cfg hcfg
  rw [hstage] at hforce
  exact hne (Option.some.inj hforce).symm

/-- A step that is not told of the file leaves one out of force. -/
lemma told_of_settles (hstep : Reload.step s act = some s') (h : Settles s') : Told s act := by
  obtain ⟨file, stage, begun, polled⟩ := s
  obtain ⟨f, rfl, rfl⟩ | ⟨works, rfl, hstage, rfl⟩ | ⟨works, cfg, rfl, hstage, rfl⟩ |
    ⟨works, w, rfl, hstage, rfl⟩ | ⟨works, w, fi, rfl, hstage, rfl⟩ := step_cases hstep
  · cases stage with
    | starting | refused | polling => trivial
    | loaded cfg =>
        intro hmistaken
        -- the start takes the time and size of the new file
        have hsettles : Settles { file := f, stage := .watching ⟨cfg, f.info⟩ } := by
          intro acts s' hquiet hrun
          refine h (.stat true :: acts) s' (List.forall_mem_cons.2 ⟨rfl, hquiet⟩) ?_
          exact Run.run_cons_eq_some.2 ⟨_, rfl, hrun⟩
        exact not_settles_of_mistaken rfl hmistaken hsettles
    | watching w => exact fun hmistaken => not_settles_of_mistaken rfl hmistaken h
  · obtain rfl : stage = .starting := hstage
    trivial
  · obtain rfl : stage = .loaded cfg := hstage
    trivial
  · obtain rfl : stage = .watching w := hstage
    trivial
  · obtain rfl : stage = .polling w fi := hstage
    cases works with
    | true => trivial
    | false =>
        intro hmistaken
        exact not_settles_of_mistaken (s := ⟨file, .watching w, false, polled⟩) rfl hmistaken h

/-- `Current` becomes what the file says, or stays. -/
lemma keeps_of_step (s : World) (act : Act) : Keeps s act := by
  intro hload s' hstep cfg hcfg
  obtain ⟨f, rfl, rfl⟩ | ⟨works, rfl, hstage, rfl⟩ | ⟨works, cfg', rfl, hstage, rfl⟩ |
    ⟨works, w, rfl, hstage, rfl⟩ | ⟨works, w, fi, rfl, hstage, rfl⟩ := step_cases hstep
  · exact hcfg
  · rw [hstage] at hcfg
    cases hcfg
  · rw [hstage] at hcfg
    cases hcfg
  · cases works with
    | false => exact hcfg
    | true =>
        rw [if_pos rfl, World.looked]
        split
        · exact hcfg
        · exact (congrArg Stage.current? hstage).symm.trans hcfg
  · rw [hstage] at hcfg
    cases works with
    | false => exact hcfg
    | true =>
        rw [if_pos rfl, World.reloaded, hload]
        exact hcfg

end Invariant

/-! ## Every run -/

/-- **The configuration in force is the one on the disk exactly if no file slips past the watcher.**
Over any order of replacements and of the watcher's steps: in every state of the run, with the file
left alone from there on, a valid file is in force once a whole poll has run, and an invalid one
never changes what is, if and only if no file is put in place that says something else than the one
the start has read and is about to take the time and size of, none with the recorded time and size
of another, and no poll fails to read one like that. -/
theorem asOnDisk_iff {file : ConfigFile} {acts : List Act} {s : World}
    (hrun : Run.run step { file } acts = some s) :
    AsOnDisk file acts ↔ Run.Meets step Told { file } acts := by
  have hiff : (∀ v ∈ Run.visits step { file } acts, Settles v) ↔
      Run.Meets step Told { file } acts :=
    Run.forall_visits_iff_meets_of_run (I := Inv) (D := fun _ _ => True)
      (fun _ _ _ hs _ hstep => ⟨fun htold => hs.step htold hstep, told_of_settles hstep⟩)
      (fun _ hs => hs.settles) rfl (Run.meets_of_mem fun _ _ => trivial) hrun
  refine ⟨fun h => hiff.1 h.settles, fun h => ⟨hiff.2 h, ?_⟩⟩
  have hall : Run.Meets step (fun _ _ => True) { file } acts := Run.meets_of_mem fun _ _ => trivial
  exact hall.imp fun v act _ => keeps_of_step v act

end Reload

namespace Sample

/-- The file with this limit, written at this second. -/
def configFile (maxLetterChars modTime : ℤ) : Reload.ConfigFile :=
  ⟨⟨modTime, 400⟩, some (toml maxLetterChars)⟩

/-- The file is replaced between the two steps of the start. -/
def replacedAtStart : List Reload.Act :=
  [.load true, .replace (configFile 1 1), .stat true]

/-- The file is replaced between the two steps of a poll. -/
def replacedInPoll : List Reload.Act :=
  [.load true, .stat true, .replace (configFile 1 1), .stat true, .replace (configFile 2 2),
    .load true, .stat true, .load true]

end Sample

namespace Reload

open Sample

theorem not_alwaysAsOnDisk : ¬ AlwaysAsOnDisk := by
  intro h
  have heval : (Run.run step { file := configFile 500 0 } replacedAtStart).any (fun s =>
      match s.stage with
      | .watching w => decide (Mistaken w s.file)
      | _ => false) = true := by decide +kernel
  obtain ⟨s, hrun, hmistaken⟩ := Run.exists_of_any heval
  have hsettles := (h _ _ s hrun).settles s (Run.mem_visits_of_run hrun)
  cases hstage : s.stage with
  | watching w =>
      rw [hstage] at hmistaken
      exact not_settles_of_mistaken hstage (of_decide_eq_true hmistaken) hsettles
  | starting | loaded | refused | polling =>
      rw [hstage] at hmistaken
      cases hmistaken

theorem asOnDisk_replacedInPoll : AsOnDisk (configFile 500 0) replacedInPoll := by
  have hrun : (Run.run step { file := configFile 500 0 } replacedInPoll).isSome = true := by
    decide +kernel
  obtain ⟨s, hrun⟩ := Option.isSome_iff_exists.1 hrun
  exact (asOnDisk_iff hrun).2 (by decide +kernel)

end Reload
end Chaskiwasi
