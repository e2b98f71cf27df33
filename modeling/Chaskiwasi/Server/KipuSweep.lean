import Chaskiwasi.Lib.Calendar
import Chaskiwasi.Lib.Run
import Chaskiwasi.Server.Announced
import Chaskiwasi.Server.Config

/-!
# The retention of the kipu log

The log has one file for each day, and a sweep at the start of the server and every day after that
removes the files whose day is older than the configured number of days.  Nothing looks at that
number: a negative one puts the cutoff behind the present day, and the file that is being written
goes with the others.  A number so large that the cutoff does not fit 64 bits can do the same.

`clear_iff` says for which numbers, at a reading of the clock, a sweep removes nothing that is to
stay, and `sparesPresent_iff` carries it over every run of sweeps and of syncs between them.
-/

namespace Chaskiwasi
namespace KipuSweep

open Calendar

/-! ## The files -/

/-- An entry of the log's directory. -/
structure Entry where
  name : List Char
  isDir : Bool := false
  deriving DecidableEq, Repr

def dayFileLayout : Layout := [.year, .lit '-', .month, .lit '-', .day]

def suffix : List Char := ".jsonl".toList

/-- `pathFor`, in the log's directory. -/
def pathFor (stamp : Fields) : List Char := dayFileLayout.format stamp ++ suffix

/-- `dayFileRE`, with what its group matched. -/
def dayFileRE : List Char → Option (List Char)
  | a :: b :: c :: d :: '-' :: e :: f :: '-' :: g :: h :: rest =>
      if [a, b, c, d, e, f, g, h].all Char.isDigit ∧ rest = suffix then
        some [a, b, c, d, '-', e, f, '-', g, h]
      else none
  | _ => none

/-- The day of a file, if it is a day-file. -/
def dayOf (name : List Char) : Option Moment := (dayFileRE name).bind dayFileLayout.parse

/-! ## The sweep -/

/-- `Truncate(24 * time.Hour)`. -/
def truncateDay (seconds : ℤ) : ℤ := seconds - seconds % 86400

/-- `AddDate(0, 0, days)`.  A time counts its seconds in 64 bits. -/
def addDays (seconds : ℤ) (days : Int64) : ℤ := (seconds + 86400 * days.toInt).bmod (2 ^ 64)

def cutoff (now : Moment) (retentionDays : Int64) : ℤ :=
  addDays (truncateDay now.seconds) (-retentionDays)

/-- What the sweep removes. -/
def expired (now : Moment) (retentionDays : Int64) (e : Entry) : Bool :=
  !e.isDir && (dayOf e.name).any fun day => decide (day.seconds < cutoff now retentionDays)

/-- Which of the sweep's calls fail. -/
structure SweepIO where
  readDir : Bool := false
  remove : List Char → Bool := fun _ => false

/-- `Sweep`: the directory after it, and the names it could not remove. -/
def sweep (dir : List Entry) (now : Moment) (retentionDays : Int64) (io : SweepIO) :
    List Entry × List (List Char) :=
  if io.readDir then (dir, [])
  else
    (dir.filter fun e => !(expired now retentionDays e && !io.remove e.name),
      (dir.filter fun e => expired now retentionDays e && io.remove e.name).map Entry.name)

inductive Act
  /-- `RunRetentionSweeper` sweeps. -/
  | sweep (now : Moment) (io : SweepIO)
  /-- A sync adds its line to the file of its day. -/
  | append (now : Moment)

/-- The reading of the clock that a sweep goes by. -/
def Act.reading : Act → Option Moment
  | sweep now _ => some now
  | append _ => none

def step (retentionDays : Int64) (dir : List Entry) : Act → Option (List Entry)
  | .sweep now io => some (sweep dir now retentionDays io).1
  | .append now =>
      some (if { name := pathFor now.toFields } ∈ dir then dir
        else dir ++ [{ name := pathFor now.toFields }])

/-! ## What is asked of it -/

/-- Older than the retention, and neither the present day nor a later one. -/
def Due (now : Moment) (retentionDays : ℤ) (day : ℤ) : Prop :=
  day < now.dayNumber - retentionDays ∧ day < now.dayNumber

/-- A sweep removes no file but day-files that are due. -/
def Spares (retentionDays : Int64) (dir : List Entry) : Act → Prop
  | .sweep now io => ∀ e ∈ dir, e ∉ (sweep dir now retentionDays io).1 →
      e.isDir = false ∧ ∃ day : Moment, e.name = pathFor day.toFields ∧
        Due now retentionDays.toInt day.dayNumber
  | .append _ => True

/-- Whatever the directory holds, whichever calls fail, and however many syncs there are between
the sweeps at these readings: each removes only what is due, and what is due at none of them
stays. -/
structure SparesPresent (retentionDays : Int64) (nows : List Moment) : Prop where
  removes : ∀ dir acts, acts.filterMap Act.reading = nows →
    Run.Meets (step retentionDays) (Spares retentionDays) dir acts
  survives : ∀ dir acts dir', acts.filterMap Act.reading = nows →
    Run.run (step retentionDays) dir acts = some dir' →
    ∀ day : Moment, { name := pathFor day.toFields } ∈ dir →
      (∀ now ∈ nows, ¬ Due now retentionDays.toInt day.dayNumber) →
      { name := pathFor day.toFields } ∈ dir'

/-- A positive retention that, counted back in seconds from the present day, fits 64 bits; or one
of the others that come around them to where no file is harmed: with a larger one, in front of
every day that has a file, and with a negative one, not behind the present day. -/
def Clear (today retention : ℤ) : Prop :=
  (0 < retention → 86400 * (retention - today) ≤ 2 ^ 63 ∨
    366 * 86400 ≤ 86400 * (retention - today) % 2 ^ 64 ∧
      86400 * (retention - today) % 2 ^ 64 ≤ 2 ^ 63) ∧
  (retention ≤ 0 → 86400 * -retention % 2 ^ 64 = 0 ∨
    2 ^ 63 ≤ 86400 * today + 86400 * -retention % 2 ^ 64)

instance (today retention : ℤ) : Decidable (Clear today retention) :=
  inferInstanceAs (Decidable (_ ∧ _))

/-- With every configuration that is accepted, and at every reading of the clock. -/
def AlwaysSpares : Prop :=
  ∀ (cfg : WasiToml.Accepted) (nows : List Moment), SparesPresent cfg.kipuRetentionDays nows

/-! ## Names and days -/

section Names

variable {name : List Char} {day : Moment}

lemma unpointed_dayFileLayout : Layout.Unpointed dayFileLayout := by
  intro c hc
  simp only [dayFileLayout, List.mem_cons, List.not_mem_nil, Part.lit.injEq, reduceCtorEq, or_false,
    false_or, or_self] at hc
  subst hc
  decide

/-- The day of a file is read back from its name, as the beginning of that day. -/
lemma dayOf_pathFor (day : Moment) : dayOf (pathFor day.toFields) = some day.midnight := by
  have hgroup : dayFileRE (pathFor day.toFields) = some (dayFileLayout.format day.toFields) := by
    have hdigit : ∀ n, (Nat.digitChar (n % 10)).isDigit = true := fun n =>
      (digitChar_spec (Nat.mod_lt n (by decide))).1
    refine if_pos ⟨?_, rfl⟩
    simp [hdigit]
  rw [dayOf, hgroup]
  exact Layout.parse_format day day.midnight unpointed_dayFileLayout rfl

/-- Only a name that was written for a day has one. -/
lemma dayOf_eq_some (hday : dayOf name = some day) :
    name = pathFor day.toFields ∧ day.midnight = day := by
  obtain ⟨group, hgroup, hparse⟩ := Option.bind_eq_some_iff.1 hday
  unfold dayFileRE at hgroup
  split at hgroup
  · rename_i a b c d e f g h rest
    split at hgroup
    · rename_i hre
      obtain ⟨hdigits, rfl⟩ := hre
      obtain rfl := Option.some.inj hgroup
      simp only [List.all_cons, List.all_nil, Bool.and_true, Bool.and_eq_true] at hdigits
      obtain ⟨ha, hb, hc, hd, he, hf, hg, hh⟩ := hdigits
      obtain ⟨read, hread, hvalid⟩ := Option.bind_eq_some_iff.1 hparse
      split at hvalid
      · obtain rfl := Option.some.inj hvalid
        have hfields : read =
            { year := 1000 * value a + 100 * value b + 10 * value c + value d
              month := 10 * value e + value f
              day := 10 * value g + value h } := by
          simp [dayFileLayout, Layout.fields, getYear, getnum, ha, hb, hc, hd, he, hf, hg,
            hh] at hread
          exact hread.2.symm
        subst hfields
        refine ⟨?_, rfl⟩
        simp [pathFor, dayFileLayout, Layout.format, Part.format, four_value ha hb hc hd,
          two_value he hf, two_value hg hh]
      · cases hvalid
    · cases hgroup
  · cases hgroup

/-- A name names one day. -/
lemma dayNumber_eq_of_pathFor {day day' : Moment}
    (h : pathFor day.toFields = pathFor day'.toFields) : day.dayNumber = day'.dayNumber := by
  have hread := dayOf_pathFor day
  rw [h, dayOf_pathFor] at hread
  exact (congrArg (fun m : Moment => m.dayNumber) (Option.some.inj hread)).symm

end Names

/-! ## One sweep -/

section Cutoff

variable (now : Moment) (r : Int64)

lemma cutoff_eq : cutoff now r = (86400 * (now.dayNumber - r.toInt)).bmod (2 ^ 64) := by
  have htrunc : truncateDay now.seconds = 86400 * now.dayNumber := by
    have hdiv := now.seconds_div
    simp only [truncateDay]
    omega
  rw [cutoff, addDays, htrunc, Int64.toInt_neg, ← Int.add_bmod_bmod, Int.mul_bmod_bmod,
    Int.add_bmod_bmod]
  congr 1
  omega

/-- The cutoff, as 64 bits hold it. -/
lemma cutoff_of {c : ℤ} (hlow : -2 ^ 63 ≤ c) (hhigh : c < 2 ^ 63)
    (hturns : (2 ^ 64 : ℤ) ∣ c - 86400 * (now.dayNumber - r.toInt)) : cutoff now r = c := by
  rw [cutoff_eq]
  exact (Int.bmod_eq_iff (by decide)).2 ⟨hlow, hhigh, hturns⟩

/-- Counted from the retention's side. -/
lemma cutoff_of_pos :
    let rest := 86400 * (r.toInt - now.dayNumber) % 2 ^ 64
    cutoff now r = if rest ≤ 2 ^ 63 then -rest else 2 ^ 64 - rest := by
  intro rest
  split
  · exact cutoff_of now r (by omega) (by omega) (by omega)
  · exact cutoff_of now r (by omega) (by omega) (by omega)

/-- Counted from the present day's side. -/
lemma cutoff_of_neg :
    let rest := 86400 * -r.toInt % 2 ^ 64
    cutoff now r = if 86400 * now.dayNumber + rest < 2 ^ 63 then 86400 * now.dayNumber + rest
      else 86400 * now.dayNumber + rest - 2 ^ 64 := by
  have htoday := now.dayNumber_ge
  have htoday' := now.dayNumber_lt
  intro rest
  split
  · exact cutoff_of now r (by omega) (by omega) (by omega)
  · exact cutoff_of now r (by omega) (by omega) (by omega)

/-- A retention that is clear is one whose cutoff no file stands in front of that is to stay. -/
lemma clear_iff : Clear now.dayNumber r.toInt ↔
    ∀ day : Moment, 86400 * day.dayNumber < cutoff now r → Due now r.toInt day.dayNumber := by
  have htoday := now.dayNumber_ge
  have htoday' := now.dayNumber_lt
  unfold Clear Due
  by_cases hpos : 0 < r.toInt
  · rw [and_iff_left fun hneg => absurd hneg (not_le.2 hpos), imp_iff_right hpos]
    constructor
    · rintro (hfits | ⟨hfar, hnear⟩) day hday
      · have hcut : cutoff now r = 86400 * (now.dayNumber - r.toInt) :=
          cutoff_of now r (by omega) (by omega) (by omega)
        omega
      · have hfirst := day.dayNumber_ge
        rw [cutoff_of_pos, if_pos hnear] at hday
        omega
    · intro h
      have hfirst := h firstDay
      rw [dayNumber_firstDay, cutoff_of_pos] at hfirst
      split at hfirst <;> omega
  · rw [and_iff_right fun h => absurd h hpos, imp_iff_right (not_lt.1 hpos), cutoff_of_neg]
    constructor
    · intro hclear day hday
      have hlt : 86400 * -r.toInt % 2 ^ 64 < 2 ^ 64 := Int.emod_lt_of_pos _ (by decide)
      generalize 86400 * -r.toInt % 2 ^ 64 = rest at hclear hday hlt
      have hbefore : day.dayNumber < now.dayNumber := by split at hday <;> omega
      exact ⟨by omega, hbefore⟩
    · intro h
      have hself := h now
      split at hself <;> omega

/-- Of the retentions that a person would write, those that are clear are the positive ones. -/
lemma clear_iff_pos {retention : ℤ} (hlow : -10 ^ 14 ≤ retention) (hhigh : retention ≤ 10 ^ 14)
    (hne : retention ≠ 0) : Clear now.dayNumber retention ↔ 0 < retention := by
  have htoday := now.dayNumber_ge
  have htoday' := now.dayNumber_lt
  constructor
  · intro hclear
    by_contra hneg
    have hmod : 86400 * -retention % 2 ^ 64 = 86400 * -retention :=
      Int.emod_eq_of_lt (by omega) (by omega)
    have hwrapped := hclear.2 (by omega)
    rw [hmod] at hwrapped
    omega
  · exact fun hpos => ⟨fun _ => Or.inl (by omega), fun hneg => absurd hneg (by omega)⟩

/-- A day-file that is in front of the cutoff. -/
lemma expired_iff {e : Entry} : expired now r e = true ↔
    e.isDir = false ∧ ∃ day : Moment, e.name = pathFor day.toFields ∧
      86400 * day.dayNumber < cutoff now r := by
  rw [expired, Bool.and_eq_true, Bool.not_eq_true', Option.any_eq_true]
  refine and_congr_right fun _ => ⟨?_, ?_⟩
  · rintro ⟨day, hday, hbefore⟩
    obtain ⟨hname, hmidnight⟩ := dayOf_eq_some hday
    refine ⟨day, hname, ?_⟩
    rw [← hmidnight, Moment.seconds_midnight] at hbefore
    exact of_decide_eq_true hbefore
  · rintro ⟨day, hname, hbefore⟩
    refine ⟨day.midnight, hname ▸ dayOf_pathFor day, ?_⟩
    rw [Moment.seconds_midnight]
    exact decide_eq_true hbefore

lemma mem_sweep {dir : List Entry} {io : SweepIO} {e : Entry} :
    e ∈ (sweep dir now r io).1 ↔
      e ∈ dir ∧ (io.readDir = true ∨ expired now r e = false ∨ io.remove e.name = true) := by
  unfold sweep
  split
  · simp_all
  · simp_all [List.mem_filter]

/-- A sweep with a clear retention spares what is to stay. -/
lemma spares_of_clear (h : Clear now.dayNumber r.toInt) (dir : List Entry) (io : SweepIO) :
    Spares r dir (.sweep now io) := by
  intro e he hgone
  have hexpired : expired now r e = true := by
    by_contra hkept
    exact hgone ((mem_sweep now r).2 ⟨he, Or.inr (Or.inl (by simpa using hkept))⟩)
  obtain ⟨hfile, day, hname, hbefore⟩ := (expired_iff now r).1 hexpired
  exact ⟨hfile, day, hname, (clear_iff now r).1 h day hbefore⟩

end Cutoff

/-! ## Every run -/

section Runs

variable {r : Int64} {nows : List Moment}

/-- What is due at no sweep of a run stays. -/
lemma survives_of_spares {dir dir' : List Entry} {acts : List Act} {day : Moment}
    (hspares : Run.Meets (step r) (Spares r) dir acts)
    (hstays : ∀ now ∈ acts.filterMap Act.reading, ¬ Due now r.toInt day.dayNumber)
    (hrun : Run.run (step r) dir acts = some dir')
    (hmem : { name := pathFor day.toFields } ∈ dir) :
    { name := pathFor day.toFields } ∈ dir' := by
  have hacts : Run.Meets (step r)
      (fun _ act => ∀ now ∈ act.reading, ¬ Due now r.toInt day.dayNumber) dir acts :=
    Run.meets_of_mem fun act hact now hnow =>
      hstays now (List.mem_filterMap.2 ⟨act, hact, hnow⟩)
  refine Run.run_invariant_of_meets (I := fun d => { name := pathFor day.toFields } ∈ d)
    (fun d act d' hd hC hstep => ?_) hmem (hspares.and hacts) hrun
  obtain ⟨hspare, hdue⟩ := hC
  cases act with
  | append now =>
      obtain rfl := Option.some.inj hstep
      split
      · exact hd
      · exact List.mem_append_left _ hd
  | sweep now io =>
      obtain rfl := Option.some.inj hstep
      by_contra hgone
      obtain ⟨-, day', hname, hdue'⟩ := hspare _ hd hgone
      exact hdue now rfl (dayNumber_eq_of_pathFor hname ▸ hdue')

/-- A sweep that spares what is to stay in every directory has a retention that is clear. -/
lemma clear_of_spares {now : Moment} (h : ∀ dir, Spares r dir (.sweep now {})) :
    Clear now.dayNumber r.toInt := by
  refine (clear_iff now r).2 fun day hbefore => ?_
  have hexpired : expired now r { name := pathFor day.toFields } = true :=
    (expired_iff now r).2 ⟨rfl, day, rfl, hbefore⟩
  have hgone : ({ name := pathFor day.toFields } : Entry) ∉
      (sweep [{ name := pathFor day.toFields }] now r {}).1 := by
    simp [mem_sweep, hexpired]
  obtain ⟨-, day', hname, hdue⟩ := h _ _ (List.mem_singleton_self _) hgone
  exact dayNumber_eq_of_pathFor hname ▸ hdue

lemma clear_of_removes {now : Moment} (hmem : now ∈ nows)
    (h : ∀ dir acts, acts.filterMap Act.reading = nows →
      Run.Meets (step r) (Spares r) dir acts) : Clear now.dayNumber r.toInt := by
  induction nows with
  | nil => cases hmem
  | cons first rest ih =>
      rcases List.mem_cons.1 hmem with rfl | hmem
      · -- this sweep is the first, and the later ones fail
        refine clear_of_spares fun dir => ?_
        refine (h dir (.sweep now {} :: rest.map fun m => .sweep m { readDir := true }) ?_).1
        simp [List.filterMap_map, Act.reading, Function.comp_def]
      · -- the first sweep fails, and leaves the directory as it is
        refine ih hmem fun dir acts hacts => ?_
        have hfirst := h dir (.sweep first { readDir := true } :: acts) (by
          simp [Act.reading, hacts])
        exact hfirst.2 dir rfl

/-- **Retention spares the present exactly if its cutoff is clear of it.**  For every configuration
that is accepted and any readings of the clock: in every directory, whichever calls fail and
whatever the syncs add between the sweeps at these readings, each sweep removes only day-files that
are older than the retention, never the present day's or a later one, and every day-file within the
retention survives all of them, if and only if at each reading the retention is positive and fits
64 bits in seconds, or is one of those that come around them to where they harm nothing. -/
theorem sparesPresent_iff (cfg : WasiToml.Accepted) (nows : List Moment) :
    SparesPresent cfg.kipuRetentionDays nows ↔
      ∀ now ∈ nows, Clear now.dayNumber cfg.kipuRetentionDays.toInt := by
  constructor
  · exact fun h now hmem => clear_of_removes hmem h.removes
  · intro h
    have hremoves : ∀ dir acts, acts.filterMap Act.reading = nows →
        Run.Meets (step cfg.kipuRetentionDays) (Spares cfg.kipuRetentionDays) dir acts := by
      intro dir acts hacts
      have hclear : Run.Meets (step cfg.kipuRetentionDays)
          (fun _ act => ∀ now ∈ act.reading, Clear now.dayNumber cfg.kipuRetentionDays.toInt)
          dir acts := Run.meets_of_mem fun act hact now hnow =>
        h now (hacts ▸ List.mem_filterMap.2 ⟨act, hact, hnow⟩)
      refine hclear.imp fun d act hact => ?_
      cases act with
      | append now => trivial
      | sweep now io => exact spares_of_clear now _ (hact now rfl) d io
    exact ⟨hremoves, fun dir acts dir' hacts hrun day hmem hstays =>
      survives_of_spares (hremoves dir acts hacts) (hacts ▸ hstays) hrun hmem⟩

end Runs
end KipuSweep

namespace Sample

/-- A file that asks for this retention, as it is loaded. -/
def retaining (days : Int64) : WasiToml.Accepted where
  toWasiToml := ({ toml 500 with kipuRetentionDays := days } : WasiToml).applyDefaults
  valid := (by decide +kernel : (toml 500).applyDefaults.validate = [])
  defaulted := WasiToml.applyDefaults_applyDefaults _

/-- Noon on a day in July. -/
def julyNoon : Calendar.Moment := ⟨{ year := 2026, month := 7, day := 30, hour := 12 }, by decide⟩

end Sample

namespace KipuSweep

theorem not_alwaysSpares : ¬ AlwaysSpares := by
  intro h
  have hclear := clear_of_removes (List.mem_singleton_self Sample.julyNoon)
    (h (Sample.retaining (-1)) [Sample.julyNoon]).removes
  exact absurd hclear (by decide +kernel)

end KipuSweep
end Chaskiwasi
