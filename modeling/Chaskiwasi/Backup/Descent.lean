import Chaskiwasi.Backup.Copy
import Mathlib.Data.List.GetD

/-!
# A backup ends and is complete

The walk of a backup ends because it writes to a new place, apart from the directories it reads.
Nothing looks at that: with a backup directory inside the data directory, below a name that is not
left out, the walk comes to its own copy, where it finds the copy of the way to it, and goes down
into it again, each time one round deeper (`descends`).  With the data directory itself, or below a
name that is left out, the walk does not come to its copy.

`endsComplete_iff` says that this is the only way, but for a backup directory in which `Stat` does
not say of any of the names that it is free.
-/

namespace Chaskiwasi
namespace Backup

open Calendar Files

/-! ## What is asked of it -/

/-- Whichever of its calls fail, the backup comes to its end, and when it has made a directory, that
is a new one with exactly the files that are kept of the tree as it was before. -/
structure EndsComplete (denied : Name → Bool) (time : Moment) (dataDir backupDir : Path)
    (fs : Tree) : Prop where
  ends : ∀ faults, ∃ fuel out,
    runOneBackup faults denied fuel time dataDir backupDir fs = some out
  complete : ∀ faults fuel dest fs',
    runOneBackup faults denied fuel time dataDir backupDir fs = some (.ok dest, fs') →
    fs.node dest = none ∧ (∃ name, dest = backupDir ++ [name]) ∧
      Copied (Kept true) fs fs' dataDir dest

/-- The way from the data directory down to the backup directory is one that the walk takes. -/
def Inside (dataDir backupDir : Path) : Prop :=
  ∃ c rel, backupDir = dataDir ++ c :: rel ∧ (∀ d ∈ c :: rel, excludedNames d = false) ∧
    excludedTopLevelDirs c = false

/-- `Stat` says of one of the names that it does not exist. -/
def Free (denied : Name → Bool) (time : Moment) (backupDir : Path) (fs : Tree) : Prop :=
  ∃ k, fs.node (backupDir ++ [candidate time k]) = none ∧ denied (candidate time k) = false

/-- For every tree, with every backup directory, and with `Stat` as it should be. -/
def AlwaysEndsComplete : Prop :=
  ∀ (time : Moment) (dataDir backupDir : Path) (fs : Tree),
    EndsComplete (fun _ => false) time dataDir backupDir fs

/-! ## Down and down -/

section Descent

/-- So far down a way from the data directory. -/
def trail (dataDir : Path) (way : ℕ → Name) (n : ℕ) : Path := dataDir ++ (List.range n).map way

variable {dataDir : Path} {way : ℕ → Name} {topLevel : Bool} {n m turn fuel : ℕ} {fs fs' : Tree}
  {faults : Faults}

lemma trail_le (h : n ≤ m) : trail dataDir way n <+: trail dataDir way m := by
  obtain ⟨k, rfl⟩ := Nat.exists_eq_add_of_le h
  rw [trail, trail, List.range_add, List.map_append, ← List.append_assoc]
  exact List.prefix_append _ _

lemma trail_succ : trail dataDir way (n + 1) = trail dataDir way n ++ [way n] := by
  rw [trail, trail, List.range_succ, List.map_append, List.map_singleton, List.append_assoc]

lemma length_trail : (trail dataDir way n).length = dataDir.length + n := by
  rw [trail, List.length_append, List.length_map, List.length_range]

/-- Farther down, the way goes on by the next name. -/
lemma trail_add (dataDir : Path) (way : ℕ → Name) (n : ℕ) (h : 0 < m) :
    ∃ rest, trail dataDir way (n + m) = trail dataDir way n ++ way n :: rest := by
  induction m with
  | zero => cases h
  | succ m ih =>
      rw [← Nat.add_assoc, trail_succ]
      rcases Nat.eq_zero_or_pos m with rfl | hm
      · exact ⟨[], rfl⟩
      · obtain ⟨rest, hrest⟩ := ih hm
        exact ⟨rest ++ [way (n + m)], by rw [hrest, List.append_assoc, List.cons_append]⟩

/-- Beside the way, the walk is apart from what it writes. -/
lemma apart_beside {c : Name} (hne : c ≠ way n) (hm : 0 < m) :
    Apart false (trail dataDir way n ++ [c]) (trail dataDir way (n + m) ++ [c]) := by
  refine ⟨fun hpre => ?_, fun rel hrel => ?_⟩
  · have hlen := hpre.length_le
    simp only [List.length_append, length_trail, List.length_singleton] at hlen
    omega
  · obtain ⟨rest, hrest⟩ := trail_add dataDir way n hm
    rw [hrest, List.append_assoc, List.append_assoc] at hrel
    exact absurd (List.cons.inj (List.append_cancel_left hrel)).1.symm hne

/-- A walk that has not come to its end: for want of fuel, or because a call has failed. -/
def CutOff (faults : Faults) : Option (Except CopyError Unit × Tree) → Prop
  | none => True
  | some (result, _) => result ≠ .ok () ∧ faults ≠ {}

/-- Nor does a loop that has not come to the end of one of its rounds. -/
lemma CutOff.copyEntries {copyDir : Path → Path → Tree → Option (Except CopyError Unit × Tree)}
    {src dst : Path} {e : DirEntry} {rest : List DirEntry}
    (h : CutOff faults (copyEntry copyDir faults topLevel src dst e fs)) :
    CutOff faults (copyEntries copyDir faults topLevel src dst (e :: rest) fs) := by
  rw [Backup.copyEntries]
  cases hrun : copyEntry copyDir faults topLevel src dst e fs with
  | none => trivial
  | some out =>
      obtain ⟨result, fs'⟩ := out
      rw [hrun] at h
      cases result with
      | error err => exact h
      | ok _ => exact absurd rfl h.1

/-- The loop comes to the next name of the way. -/
lemma copyEntries_cutOff {rest : List DirEntry} (hperiod : way (n + turn) = way n)
    (hturn : 2 ≤ turn) (hname : excludedNames (way n) = false)
    (htop : topLevel = true → excludedTopLevelDirs (way n) = false)
    (hnext : ∀ fs', (∀ i < n + 1 + turn, fs'.node (trail dataDir way i) = some .dir) →
      fs'.node (trail dataDir way (n + 1 + turn)) = none →
      CutOff faults (copyTree faults fuel false (trail dataDir way (n + 1))
        (trail dataDir way (n + 1 + turn)) fs'))
    (hdirs : ∀ i ≤ n + turn, fs.node (trail dataDir way i) = some .dir)
    (hentries : ∀ e ∈ rest, ∃ m, fs.node (trail dataDir way n ++ [e.name]) = some m ∧
      e.kind = m.kind)
    (hpending : ∀ e ∈ rest, fs.node (trail dataDir way (n + turn) ++ [e.name]) = none)
    (hnodup : (rest.map DirEntry.name).Nodup) (hway : way n ∈ rest.map DirEntry.name) :
    CutOff faults (copyEntries (copyTree faults fuel false) faults topLevel
      (trail dataDir way n) (trail dataDir way (n + turn)) rest fs) := by
  induction rest generalizing fs with
  | nil => cases hway
  | cons e rest ih =>
      obtain ⟨m, hm, hkind⟩ := hentries e (List.mem_cons_self ..)
      have hfresh := hpending e (List.mem_cons_self ..)
      by_cases he : e.name = way n
      · have hdir := hdirs (n + 1) (by omega)
        rw [trail_succ, ← he, hm] at hdir
        obtain rfl := Option.some.inj hdir
        have hdst : trail dataDir way (n + turn) ++ [way n] = trail dataDir way (n + 1 + turn) := by
          rw [Nat.add_right_comm, trail_succ, hperiod]
        have hwalk := hnext fs (fun i hi => hdirs i (by omega)) (by rw [← hdst, ← he, hfresh])
        apply CutOff.copyEntries
        unfold copyEntry
        rw [he, if_neg (by simp [hname]),
          if_neg (fun h => Bool.eq_false_iff.1 (htop h.1) h.2.2), hkind, ← trail_succ, hdst]
        exact hwalk
      · have hentry : Spec _ _ _ (trail dataDir way n ++ [e.name])
            (trail dataDir way (n + turn) ++ [e.name]) fs
            (copyEntry (copyTree faults fuel false) faults topLevel (trail dataDir way n)
              (trail dataDir way (n + turn)) e fs) :=
          copyEntry_spec (hdirs (n + turn) le_rfl) hfresh hm hkind fun hdir _ _ =>
            (copyTree_spec (apart_beside he (by omega)) (hdirs (n + turn) le_rfl) hfresh).imp id
              fun hnone => ⟨hnone, by rw [hm, hdir]⟩
        rw [copyEntries]
        cases hrun : copyEntry (copyTree faults fuel false) faults topLevel (trail dataDir way n)
          (trail dataDir way (n + turn)) e fs with
        | none => trivial
        | some out =>
            obtain ⟨result, fs'⟩ := out
            rw [hrun] at hentry
            obtain ⟨hsame, -, hwell⟩ := hentry
            cases result with
            | error err =>
                exact ⟨fun hok => by (cases hok), fun hnone => absurd (hwell hnone) (by simp)⟩
            | ok _ =>
                have hother : ∀ q : Path, q.length ≤ dataDir.length + (n + turn) →
                    fs'.node q = fs.node q := by
                  intro q hq
                  apply hsame.node_of_length
                  rw [List.length_append, length_trail, List.length_singleton]
                  exact Nat.lt_succ_of_le hq
                obtain ⟨hnot, hnodup'⟩ := List.nodup_cons.1 hnodup
                refine ih (fun i hi => ?_) (fun d hd => ?_) (fun d hd => ?_) hnodup' ?_
                · rw [hother _ (by rw [length_trail]; omega), hdirs i hi]
                · obtain ⟨m', hm', hkind'⟩ := hentries d (List.mem_cons_of_mem _ hd)
                  refine ⟨m', ?_, hkind'⟩
                  rw [hother, hm']
                  rw [List.length_append, length_trail, List.length_singleton]
                  omega
                · have hne : d.name ≠ e.name := fun heq => hnot (heq ▸ List.mem_map_of_mem hd)
                  have hnode := hsame.node_other hne []
                  rw [List.append_nil] at hnode
                  rw [hnode, hpending d (List.mem_cons_of_mem _ hd)]
                · exact (List.mem_cons.1 hway).resolve_left fun heq => he heq.symm

/-- **A walk that comes to its own copy does not come to its end.**  Along a way that repeats
itself, with the copy one turn ahead of the walk, no number of nested calls is enough: it goes on
until a call fails. -/
theorem descends (hperiod : ∀ i, way (i + turn) = way i) (hturn : 2 ≤ turn)
    (hname : ∀ i, excludedNames (way i) = false)
    (htop : topLevel = true → excludedTopLevelDirs (way n) = false)
    (hdirs : ∀ i < n + turn, fs.node (trail dataDir way i) = some .dir)
    (hfresh : fs.node (trail dataDir way (n + turn)) = none) :
    CutOff faults (copyTree faults fuel topLevel (trail dataDir way n)
      (trail dataDir way (n + turn)) fs) := by
  induction fuel generalizing n topLevel fs with
  | zero => trivial
  | succ fuel ih =>
      obtain ⟨entries, hlist⟩ := Tree.readDir_of_dir (hdirs n (by omega))
      obtain ⟨last, hlast⟩ : ∃ last, n + turn = last + 1 := ⟨n + turn - 1, by omega⟩
      have hplace : trail dataDir way (n + turn) = trail dataDir way last ++ [way last] := by
        rw [hlast, trail_succ]
      obtain ⟨made, fs', hmk, hnode, hnew, hfails⟩ :=
        Tree.mkdirAll_new faults.mkdir (hdirs last (by omega)) (hplace ▸ hfresh)
      rw [← hplace] at hmk hnode hnew
      have hother : ∀ q : Path, q.length ≠ dataDir.length + (n + turn) →
          fs'.node q = fs.node q := by
        intro q hq
        apply hnode
        rintro rfl
        exact hq length_trail
      have hchild : ∀ (i : ℕ) (c : Name),
          (trail dataDir way i ++ [c]).length = dataDir.length + i + 1 := by
        intro i c
        rw [List.length_append, length_trail, List.length_singleton]
      have hlong : ∀ c : Name, fs'.node (trail dataDir way (n + turn) ++ [c]) = none := by
        intro c
        rw [hother _ (by rw [hchild]; omega), Tree.node_below hfresh]
      have hnext := hdirs (n + 1) (by omega)
      rw [trail_succ] at hnext
      rw [copyTree]
      by_cases hread : faults.readDir (trail dataDir way n) = true
      · rw [if_pos hread]
        refine ⟨fun hok => by (cases hok), ?_⟩
        rintro rfl
        cases hread
      rw [if_neg hread, hlist]
      simp only [hmk]
      cases made with
      | false =>
          refine ⟨fun hok => by (cases hok), ?_⟩
          rintro rfl
          obtain ⟨q, hq⟩ := hfails rfl
          cases hq
      | true =>
          refine copyEntries_cutOff (hperiod n) hturn (hname n) htop (fun fs' hdirs' hfresh' =>
            ih (fun h => by cases h) hdirs' hfresh') (fun i hi => ?_) (fun e he => ?_)
            (fun e _ => hlong e.name) (Tree.nodup_readDir hlist) ?_
          · rcases Nat.lt_or_eq_of_le hi with hlt | rfl
            · rw [hother _ (by rw [length_trail]; omega), hdirs i hlt]
            · exact hnew rfl
          · obtain ⟨m, hm, hkind⟩ := (Tree.mem_readDir hlist).1 he
            refine ⟨m, ?_, hkind⟩
            rw [hother _ (by rw [hchild]; omega), hm]
          · have hentry := (Tree.mem_readDir (e := ⟨way n, .dir⟩) hlist).2 ⟨.dir, hnext, rfl⟩
            exact List.mem_map_of_mem hentry

end Descent

/-! ## Into its own copy -/

section Inside

variable {dataDir backupDir : Path} {name c : Name} {rel : Path} {fs : Tree} {time : Moment} {k : ℕ}

/-- The way down to the copy, again and again. -/
def round (cycle : Path) (i : ℕ) : Name := cycle.getD (i % cycle.length) []

lemma map_round (cycle : Path) : (List.range cycle.length).map (round cycle) = cycle := by
  refine List.ext_getElem (by simp) fun i hi hi' => ?_
  rw [List.getElem_map, List.getElem_range, round, Nat.mod_eq_of_lt hi']
  exact List.getD_eq_getElem cycle [] hi'

lemma round_mem (cycle : Path) (h : 0 < cycle.length) (i : ℕ) : round cycle i ∈ cycle := by
  have hi := Nat.mod_lt i h
  rw [round, List.getD_eq_getElem cycle [] hi]
  exact List.getElem_mem hi

/-- The backup's own name is not left out. -/
lemma excludedNames_candidate : excludedNames (candidate time k) = false := by
  obtain ⟨rest, hbase⟩ : ∃ rest, base time = Nat.digitChar (time.year / 100 / 10 % 10) :: rest :=
    ⟨_, rfl⟩
  have hdigit := (digitChar_spec (d := time.year / 100 / 10 % 10) (Nat.mod_lt _ (by decide))).1
  obtain ⟨d, rest', hd, hcons⟩ : ∃ d rest, d.isDigit = true ∧ candidate time k = d :: rest := by
    cases k with
    | zero => exact ⟨_, _, hdigit, hbase⟩
    | succ k => exact ⟨_, _, hdigit, by rw [candidate, suffixed, hbase, List.cons_append]⟩
  have hdot : ('.' == d) = false := by
    rw [beq_eq_false_iff_ne]
    rintro rfl
    cases hd
  have hatomic : ".atomicfile-".toList.isPrefixOf (d :: rest') = false := by
    have hhead : ".atomicfile-".toList = '.' :: "atomicfile-".toList := by decide
    rw [hhead, List.isPrefixOf_cons_cons, hdot, Bool.false_and]
  have hlock : d :: rest' ≠ dataLockName := by
    have hhead : dataLockName = '.' :: "wasi.lock".toList := by decide
    rw [hhead]
    intro heq
    rw [(List.cons.inj heq).1, beq_self_eq_true] at hdot
    cases hdot
  rw [hcons, excludedNames, hatomic, Bool.false_or, decide_eq_false_iff_not]
  exact hlock

/-- With the backup directory on its way, the walk comes to its own copy. -/
lemma copyTree_inside (faults : Faults) (fuel : ℕ) (hbackup : backupDir = dataDir ++ c :: rel)
    (hnames : ∀ d ∈ c :: rel, excludedNames d = false) (htop : excludedTopLevelDirs c = false)
    (hname : excludedNames name = false) (hdir : fs.node backupDir = some .dir)
    (hfresh : fs.node (backupDir ++ [name]) = none) :
    CutOff faults (copyTree faults fuel true dataDir (backupDir ++ [name]) fs) := by
  subst hbackup
  have hlen : (c :: rel ++ [name]).length = rel.length + 2 := by simp
  have htrail : dataDir ++ c :: rel ++ [name] =
      trail dataDir (round (c :: rel ++ [name])) (0 + (rel.length + 2)) := by
    rw [trail, Nat.zero_add, ← hlen, map_round, List.append_assoc]
  have hstart : dataDir = trail dataDir (round (c :: rel ++ [name])) 0 := by simp [trail]
  rw [htrail] at hfresh ⊢
  nth_rewrite 1 [hstart]
  refine descends (fun i => ?_) (by omega) (fun i => ?_) (fun _ => ?_) (fun i hi => ?_) hfresh
  · rw [round, round, hlen, Nat.add_mod_right]
  · have hmem := round_mem (c :: rel ++ [name]) (by simp) i
    rcases List.mem_append.1 hmem with hmem | hmem
    · exact hnames _ hmem
    · rw [List.mem_singleton.1 hmem, hname]
  · exact htop
  · -- the directories down to the backup directory
    refine Tree.dir_above ?_ hdir
    have hlast : dataDir ++ c :: rel =
        trail dataDir (round (c :: rel ++ [name])) (rel.length + 1) := by
      rw [Nat.zero_add, trail_succ] at htrail
      exact List.append_inj_left' htrail rfl
    rw [hlast]
    exact trail_le (by omega)

end Inside

/-! ## Every backup -/

section Every

variable {faults : Faults} {denied : Name → Bool} {fuel : ℕ} {time : Moment}
  {dataDir backupDir : Path} {fs fs' : Tree} {n : ℕ} {name : Name}

lemma shallow_bound (fs : Tree) (topLevel : Bool) (src : Path) (h : fs.bound ≤ n) :
    Shallow fs topLevel src n := by
  refine ⟨(Nat.succ_pos _).trans_le h, fun rel _ hrel => ?_⟩
  have hlen := fs.length_lt_bound (p := src ++ rel) (by simp [hrel])
  rw [List.length_append] at hlen
  omega

/-- Out of the way of the walk, the copy is apart from what is read; and above the data directory
there is none. -/
lemma copyTree_outside (faults : Faults) (n : ℕ) (hinside : ¬ Inside dataDir backupDir)
    (hdir : fs.node backupDir = some .dir) (hfresh : fs.node (backupDir ++ [name]) = none) :
    Spec (Shallow fs true dataDir n) False (Kept true) dataDir (backupDir ++ [name]) fs
      (copyTree faults n true dataDir (backupDir ++ [name]) fs) := by
  by_cases hpre : backupDir ++ [name] <+: dataDir
  · -- there is no data directory
    have hnone : fs.node dataDir = none := by
      by_contra hne
      exact not_prefix_of_ne_none hfresh hne hpre
    have hread : fs.readDir dataDir = none := by
      rw [Tree.readDir, hnone]
      rfl
    cases n with
    | zero => exact fun hshallow => absurd hshallow.1 (Nat.lt_irrefl 0)
    | succ n =>
        rw [copyTree, hread, ite_self]
        exact ⟨SameOff.refl _ fs, fun hok => by (cases hok), False.elim⟩
  · refine (copyTree_spec ⟨hpre, fun rel hrel => ?_⟩ hdir hfresh).imp id False.elim
    cases rel with
    | nil =>
        rw [List.append_nil] at hrel
        exact absurd (hrel ▸ List.prefix_rfl) hpre
    | cons c rel =>
        by_cases hrel' : rel = []
        · exact Or.inl (by rw [hrel', List.length_singleton])
        · refine Or.inr fun hkept => hinside ?_
          rw [← List.dropLast_concat_getLast hrel', ← List.cons_append, ← List.append_assoc] at hrel
          refine ⟨c, rel.dropLast, List.append_inj_left' hrel rfl, fun d hd => ?_, ?_⟩
          · refine hkept.1 d ?_
            rcases List.mem_cons.1 hd with rfl | hd
            · exact List.mem_cons_self ..
            · exact List.mem_cons_of_mem _ (List.mem_of_mem_dropLast hd)
          · exact hkept.2 rfl c rel rfl hrel'

section Made

variable {fails : Path → Bool} {made : Bool}

lemma made_dir (hmk : fs.mkdirAll fails backupDir = (true, fs')) :
    fs'.node backupDir = some .dir := by
  have hdir := Tree.mkdirAll_of_true (congrArg Prod.fst hmk) List.prefix_rfl
  rwa [hmk] at hdir

variable (hmk : fs.mkdirAll fails backupDir = (made, fs'))
include hmk

/-- With the backup directory, nothing is made in it. -/
lemma made_child (c : Name) : fs'.node (backupDir ++ [c]) = fs.node (backupDir ++ [c]) := by
  have hframe := Tree.mkdirAll_frame fails fs backupDir (backupDir ++ [c])
  rw [hmk] at hframe
  rcases hframe with hsame | ⟨-, -, hpre⟩
  · exact hsame
  · have hlen := hpre.length_le
    rw [List.length_append, List.length_singleton] at hlen
    omega

/-- And no file. -/
lemma made_file (q : Path) (content : List UInt8) :
    fs'.node q = some (.file content) ↔ fs.node q = some (.file content) := by
  have hframe := Tree.mkdirAll_frame fails fs backupDir q
  rw [hmk] at hframe
  rcases hframe with hsame | ⟨hnone, hdir, -⟩
  · rw [hsame]
  · rw [hdir, hnone]
    simp

end Made

lemma runOneBackup_of_failed (hmk : fs.mkdirAll faults.mkdir backupDir = (false, fs')) :
    runOneBackup faults denied fuel time dataDir backupDir fs =
      some (.error (.creatingBackupDirectory backupDir), fs') := by
  rw [runOneBackup, hmk]

/-- What a backup that comes to its end has done. -/
lemma runOneBackup_cases {result : Except CopyError Path}
    (hrun : runOneBackup faults denied fuel time dataDir backupDir fs = some (result, fs')) :
    (fs.mkdirAll faults.mkdir backupDir = (false, fs') ∧
      result = .error (.creatingBackupDirectory backupDir)) ∨
    ∃ fs₁ name walked fs₂, fs.mkdirAll faults.mkdir backupDir = (true, fs₁) ∧
      uniqueBackupPath (fun n => fs₁.node (backupDir ++ [n]) = none && !denied n) time fuel =
        some name ∧
      copyTree faults fuel true dataDir (backupDir ++ [name]) fs₁ = some (walked, fs₂) ∧
      ((walked = .ok () ∧ result = .ok (backupDir ++ [name]) ∧ fs' = fs₂) ∨
        ∃ err, walked = .error err ∧ result = .error err ∧
          fs' = if faults.removeAll then fs₂ else fs₂.removeAll (backupDir ++ [name])) := by
  cases hmk : fs.mkdirAll faults.mkdir backupDir with
  | mk made fs₁ =>
      cases made with
      | false =>
          rw [runOneBackup_of_failed hmk] at hrun
          obtain ⟨rfl, rfl⟩ := Prod.mk.inj (Option.some.inj hrun)
          exact Or.inl ⟨rfl, rfl⟩
      | true =>
          simp only [runOneBackup, hmk] at hrun
          obtain ⟨name, hname, hcopy⟩ := Option.bind_eq_some_iff.1 hrun
          split at hcopy
          · cases hcopy
          · rename_i fs₂ hwalk
            obtain ⟨rfl, rfl⟩ := Prod.mk.inj (Option.some.inj hcopy)
            exact Or.inr ⟨fs₁, name, _, _, rfl, hname, hwalk, Or.inl ⟨rfl, rfl, rfl⟩⟩
          · rename_i err fs₂ hwalk
            obtain ⟨rfl, rfl⟩ := Prod.mk.inj (Option.some.inj hcopy)
            exact Or.inr ⟨fs₁, name, _, fs₂, rfl, hname, hwalk, Or.inr ⟨err, rfl, rfl, rfl⟩⟩

/-- A name that is made is one that was not there. -/
lemma fresh_of_uniqueBackupPath
    (h : uniqueBackupPath (fun n => fs.node (backupDir ++ [n]) = none && !denied n) time fuel =
      some name) : fs.node (backupDir ++ [name]) = none := by
  obtain ⟨-, -, -, habsent, -⟩ := uniqueBackupPath_eq_some.1 h
  exact of_decide_eq_true (Bool.and_eq_true_iff.1 habsent).1

lemma ends_of_outside (faults : Faults) (hfree : Free denied time backupDir fs)
    (hinside : ¬ Inside dataDir backupDir) :
    ∃ fuel out, runOneBackup faults denied fuel time dataDir backupDir fs = some out := by
  obtain ⟨k, hfree, hallowed⟩ := hfree
  cases hmk : fs.mkdirAll faults.mkdir backupDir with
  | mk made fs' =>
      cases made with
      | false => exact ⟨0, _, runOneBackup_of_failed hmk⟩
      | true =>
          -- enough for the names that are taken, and for the depth of the tree
          have hfuel : k < max (k + 1) fs'.bound := lt_max_of_lt_left (Nat.lt_succ_self k)
          have habsent : (decide (fs'.node (backupDir ++ [candidate time k]) = none) &&
              !denied (candidate time k)) = true := by
            simp [made_child hmk, hfree, hallowed]
          obtain ⟨name, hname⟩ : ∃ name, uniqueBackupPath
              (fun n => fs'.node (backupDir ++ [n]) = none && !denied n) time
              (max (k + 1) fs'.bound) = some name := uniqueBackupPath_of_absent habsent hfuel
          have hspec := copyTree_outside faults (max (k + 1) fs'.bound) hinside (made_dir hmk)
            (fresh_of_uniqueBackupPath hname)
          cases hcopy : copyTree faults (max (k + 1) fs'.bound) true dataDir (backupDir ++ [name])
            fs' with
          | none =>
              rw [hcopy] at hspec
              exact absurd (shallow_bound fs' true dataDir (le_max_right _ _)) hspec
          | some out =>
              obtain ⟨result, fs''⟩ := out
              refine ⟨max (k + 1) fs'.bound, ?_⟩
              simp only [runOneBackup, hmk, hname, Option.bind_some, hcopy]
              cases result <;> exact ⟨_, rfl⟩

lemma complete_of_outside {dest : Path} (hinside : ¬ Inside dataDir backupDir)
    (hrun : runOneBackup faults denied fuel time dataDir backupDir fs = some (.ok dest, fs')) :
    fs.node dest = none ∧ (∃ name, dest = backupDir ++ [name]) ∧
      Copied (Kept true) fs fs' dataDir dest := by
  rcases runOneBackup_cases hrun with ⟨-, herr⟩ |
    ⟨fs₁, name, walked, fs₂, hmk, hname, hwalk, ⟨rfl, hdest, rfl⟩ | ⟨err, -, herr, -⟩⟩
  · cases herr
  · obtain rfl := Except.ok.inj hdest
    have hfresh := fresh_of_uniqueBackupPath hname
    have hspec := copyTree_outside faults fuel hinside (made_dir hmk) hfresh
    rw [hwalk] at hspec
    have hcopied := hspec.2.1 rfl
    refine ⟨by rw [← made_child hmk, hfresh], ⟨name, rfl⟩, fun rel content => ?_,
      hcopied.noOther⟩
    rw [hcopied.files, made_file hmk]
  · cases herr

/-- A backup that fails leaves no file behind, unless its directory cannot be removed. -/
theorem runOneBackup_failed {err : CopyError} (hinside : ¬ Inside dataDir backupDir)
    (hremove : faults.removeAll = false)
    (hrun : runOneBackup faults denied fuel time dataDir backupDir fs = some (.error err, fs'))
    (q : Path) (content : List UInt8) :
    fs'.node q = some (.file content) ↔ fs.node q = some (.file content) := by
  rcases runOneBackup_cases hrun with ⟨hmk, -⟩ |
    ⟨fs₁, name, walked, fs₂, hmk, hname, hwalk, ⟨-, hok, -⟩ | ⟨err', -, -, rfl⟩⟩
  · exact made_file hmk q content
  · cases hok
  · have hfresh := fresh_of_uniqueBackupPath hname
    have hspec := copyTree_outside faults fuel hinside (made_dir hmk) hfresh
    rw [hwalk] at hspec
    rw [hremove, if_neg Bool.false_ne_true, Tree.node_removeAll (List.concat_ne_nil _ _)]
    by_cases hq : backupDir ++ [name] <+: q
    · obtain ⟨rel, rfl⟩ := hq
      rw [if_pos (List.prefix_append _ _), Tree.node_below (by rw [← made_child hmk, hfresh])]
    · rw [if_neg hq, hspec.1 q hq, made_file hmk]

/-- A backup for which no name is free, or whose walk comes to its own copy, makes no directory,
whichever calls fail; and it ends only where one fails. -/
theorem runOneBackup_cutOff {result : Except CopyError Path}
    (h : Free denied time backupDir fs → Inside dataDir backupDir)
    (hrun : runOneBackup faults denied fuel time dataDir backupDir fs = some (result, fs')) :
    (∀ dest, result ≠ .ok dest) ∧ (faults = {} → fs.Blocked backupDir) := by
  rcases runOneBackup_cases hrun with ⟨hmk, rfl⟩ | ⟨fs₁, name, walked, fs₂, hmk, hname, hwalk, hend⟩
  · refine ⟨fun dest hok => by (cases hok), ?_⟩
    rintro rfl
    by_contra hblocked
    have hmade := Tree.mkdirAll_of_not_blocked (fun _ => rfl) hblocked
    cases (congrArg Prod.fst hmk).symm.trans hmade
  · obtain ⟨k, -, rfl, habsent, -⟩ := uniqueBackupPath_eq_some.1 hname
    have hfresh := fresh_of_uniqueBackupPath hname
    have hallowed : denied (candidate time k) = false := by
      simpa using (Bool.and_eq_true_iff.1 habsent).2
    obtain ⟨c, rel, hbackup, hnames, htop⟩ := h ⟨k, by rw [← made_child hmk, hfresh], hallowed⟩
    have hcut := copyTree_inside faults fuel hbackup hnames htop excludedNames_candidate
      (made_dir hmk) hfresh
    rw [hwalk] at hcut
    rcases hend with ⟨rfl, -⟩ | ⟨err, -, rfl, -⟩
    · exact absurd rfl hcut.1
    · exact ⟨fun dest hok => by (cases hok), fun hnone => absurd hnone hcut.2⟩

/-- **A backup ends and is complete exactly if it does not come to its own copy.**  For every tree,
data directory, backup directory and time: whichever of its calls fail, the backup ends, and the
directory it makes has exactly the files that are kept of the tree as it was before, at the same
places and with the same contents, if and only if something stands in the way of the backup
directory, so that nothing is begun; or `Stat` finds one of the names free, and the backup directory
does not lie inside the data directory below names that are not left out. -/
theorem endsComplete_iff (denied : Name → Bool) (time : Moment) (dataDir backupDir : Path)
    (fs : Tree) :
    EndsComplete denied time dataDir backupDir fs ↔
      fs.Blocked backupDir ∨
        Free denied time backupDir fs ∧ ¬ Inside dataDir backupDir := by
  constructor
  · intro h
    by_contra hnot
    obtain ⟨hblocked, hnot⟩ := not_or.1 hnot
    obtain ⟨fuel, ⟨result, fs'⟩, hrun⟩ := h.ends {}
    exact hblocked ((runOneBackup_cutOff (not_and_not_right.1 hnot) hrun).2 rfl)
  · rintro (hblocked | ⟨hfree, hinside⟩)
    · have hmk : ∀ faults : Faults, fs.mkdirAll faults.mkdir backupDir =
          (false, (fs.mkdirAll faults.mkdir backupDir).2) :=
        fun faults => Prod.ext hblocked.mkdirAll rfl
      refine ⟨fun faults => ⟨0, _, runOneBackup_of_failed (hmk faults)⟩,
        fun faults fuel dest fs' hrun => ?_⟩
      rw [runOneBackup_of_failed (hmk faults)] at hrun
      cases hrun
    · exact ⟨fun faults => ends_of_outside faults hfree hinside,
        fun faults fuel dest fs' hrun => complete_of_outside hinside hrun⟩

end Every

end Backup

namespace Sample

def dataDir : Files.Path := ["data".toList]

/-- A backup directory in the data directory. -/
def backups : Files.Path := ["data".toList, "backups".toList]

/-- A data directory with nothing in it. -/
def emptyData : Files.Tree := (Files.Tree.empty.mkdirAll (fun _ => false) dataDir).2

def firstSecond : Calendar.Moment := ⟨{ year := 2026 }, by decide⟩

end Sample

namespace Backup

theorem not_alwaysEndsComplete : ¬ AlwaysEndsComplete := by
  intro h
  obtain ⟨fuel, ⟨result, fs'⟩, hrun⟩ :=
    (h Sample.firstSecond Sample.dataDir Sample.backups Sample.emptyData).ends {}
  have hblocked : ¬ Sample.emptyData.Blocked Sample.backups := by
    rintro ⟨q, hq, hne, hdir⟩
    have hcases : ∀ q ∈ Sample.backups.inits, Sample.emptyData.node q = none ∨
        Sample.emptyData.node q = some .dir := by decide +kernel
    exact (hcases q ((List.mem_inits _ _).2 hq)).elim hne hdir
  have hinside : Inside Sample.dataDir Sample.backups :=
    ⟨"backups".toList, [], rfl, by decide +kernel, by decide⟩
  exact hblocked ((runOneBackup_cutOff (fun _ => hinside) hrun).2 rfl)

end Backup
end Chaskiwasi
