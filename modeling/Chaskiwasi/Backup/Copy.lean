import Chaskiwasi.Backup.Name
import Chaskiwasi.Lib.Files

/-!
# The copy of a backup

A backup walks the data directory and makes, under a new name in the backup directory, what it
finds there: each directory's listing is read before the directory's copy is made, and two kinds of
names are left out, some wherever they are and some in the data directory itself.

The walk reads a tree that it writes to.  `copyTree_spec` says what a walk leaves when the place it
writes to is `Apart` from the directories it will read: outside that place nothing changes, and
there, when no call has failed, are exactly the files to be kept.  It also says that the walk then
ends, with as many nested calls as the tree is deep.
-/

namespace Chaskiwasi
namespace Backup

open Calendar Files

/-! ## What is left out -/

def dataLockName : Name := ".wasi.lock".toList

def excludedTopLevelDirs (name : Name) : Bool := name = "kipu".toList

def excludedNames (name : Name) : Bool :=
  ".atomicfile-".toList.isPrefixOf name || name = dataLockName

/-! ## Calls that fail -/

/-- Which of the calls for a file fails. -/
inductive FileFault
  | stat
  | source
  | create
  /-- After so many bytes. -/
  | copy (written : ℕ)
  | sync
  | close
  deriving DecidableEq, Repr

/-- The calls that fail, other than for what the tree holds. -/
structure Faults where
  readDir : Path → Bool := fun _ => false
  mkdir : Path → Bool := fun _ => false
  file : Path → Option FileFault := fun _ => none
  removeAll : Bool := false

inductive CopyError
  | creatingBackupDirectory (dir : Path)
  | reading (dir : Path)
  | creating (dir : Path)
  | file (fault : FileFault) (path : Path)
  deriving DecidableEq, Repr

/-! ## The walk -/

/-- What of a file's content is in its copy when the calls for it are done, or one of them has
failed. -/
def written (content : List UInt8) : Option FileFault → List UInt8
  | some (.copy written) => content.take written
  | _ => content

/-- `copyFile`, of what a listing gave as a regular file. -/
def copyFile (faults : Faults) (src dst : Path) (fs : Tree) : Except CopyError Unit × Tree :=
  match fs.node src with
  | some (.file content) =>
      match faults.file src with
      | some .stat => (.error (.file .stat src), fs)
      | some .source => (.error (.file .source src), fs)
      | some .create => (.error (.file .create dst), fs)
      | fault =>
          match fs.add dst (.file (written content fault)) with
          | none => (.error (.file .create dst), fs)
          | some fs' =>
              match fault with
              | none => (.ok (), fs')
              | some fault => (.error (.file fault dst), fs')
  | _ => (.error (.file .stat src), fs)

section Walk

variable (copyDir : Path → Path → Tree → Option (Except CopyError Unit × Tree)) (faults : Faults)
  (topLevel : Bool) (src dst : Path)

/-- One round of `copyTree`'s loop, with what it does for a directory. -/
def copyEntry (e : DirEntry) (fs : Tree) : Option (Except CopyError Unit × Tree) :=
  if excludedNames e.name then some (.ok (), fs)
  else if topLevel ∧ e.kind = .dir ∧ excludedTopLevelDirs e.name then some (.ok (), fs)
  else
    match e.kind with
    | .dir => copyDir (src ++ [e.name]) (dst ++ [e.name]) fs
    | .regular => some (copyFile faults (src ++ [e.name]) (dst ++ [e.name]) fs)
    | .other => some (.ok (), fs)

/-- The loop, up to the first round that fails. -/
def copyEntries : List DirEntry → Tree → Option (Except CopyError Unit × Tree)
  | [], fs => some (.ok (), fs)
  | e :: es, fs =>
      match copyEntry copyDir faults topLevel src dst e fs with
      | some (.ok (), fs') => copyEntries es fs'
      | failed => failed

end Walk

/-- `copyTree`, with so many calls nested at most. -/
def copyTree (faults : Faults) : ℕ → Bool → Path → Path → Tree →
    Option (Except CopyError Unit × Tree)
  | 0, _, _, _, _ => none
  | fuel + 1, topLevel, src, dst, fs =>
      match if faults.readDir src then none else fs.readDir src with
      | none => some (.error (.reading src), fs)
      | some entries =>
          match fs.mkdirAll faults.mkdir dst with
          | (false, fs') => some (.error (.creating dst), fs')
          | (true, fs') =>
              copyEntries (copyTree faults fuel false) faults topLevel src dst entries fs'

/-- `runOneBackup`, with the names in the backup directory for which `Stat` fails otherwise than
because they do not exist, and with so much fuel for each of its loops. -/
def runOneBackup (faults : Faults) (denied : Name → Bool) (fuel : ℕ) (time : Moment)
    (dataDir backupDir : Path) (fs : Tree) : Option (Except CopyError Path × Tree) :=
  match fs.mkdirAll faults.mkdir backupDir with
  | (false, fs') => some (.error (.creatingBackupDirectory backupDir), fs')
  | (true, fs') =>
      (uniqueBackupPath (fun n => fs'.node (backupDir ++ [n]) = none && !denied n) time fuel).bind
        fun name =>
          let dest := backupDir ++ [name]
          match copyTree faults fuel true dataDir dest fs' with
          | none => none
          | some (.ok (), fs'') => some (.ok dest, fs'')
          | some (.error err, fs'') =>
              some (.error err, if faults.removeAll then fs'' else fs''.removeAll dest)

/-! ## What is asked of it -/

/-- A file at this relative path belongs in a backup. -/
def Kept (topLevel : Bool) (rel : Path) : Prop :=
  (∀ c ∈ rel, excludedNames c = false) ∧
    (topLevel = true → ∀ c rest, rel = c :: rest → rest ≠ [] → excludedTopLevelDirs c = false)

/-- Below the copy are the files of the tree that are kept, and but for directories nothing else. -/
structure Copied (kept : Path → Prop) (fs fs' : Tree) (src dst : Path) : Prop where
  files : ∀ rel content, fs'.node (dst ++ rel) = some (.file content) ↔
    kept rel ∧ fs.node (src ++ rel) = some (.file content)
  noOther : ∀ rel, fs'.node (dst ++ rel) ≠ some .other

/-- Outside this place nothing has changed. -/
def SameOff (dst : Path) (fs fs' : Tree) : Prop := ∀ q, ¬ dst <+: q → fs'.node q = fs.node q

/-- The place to write to is not at or above the directory to read, and below it only where the
walk does not go. -/
def Apart (topLevel : Bool) (src dst : Path) : Prop :=
  ¬ dst <+: src ∧ ∀ rel, dst = src ++ rel → rel.length = 1 ∨ ¬ Kept topLevel rel

/-- The directories to be walked are less deep than this. -/
def Shallow (fs : Tree) (topLevel : Bool) (src : Path) (n : ℕ) : Prop :=
  0 < n ∧ ∀ rel, Kept topLevel rel → fs.node (src ++ rel) = some .dir → rel.length < n

/-- What a walk is to leave: it is not cut off, if the directories are shallow; it keeps to its
place; and it has copied what is kept if it reports no error, which it does not if all is well. -/
def Spec (shallow well : Prop) (kept : Path → Prop) (src dst : Path) (fs : Tree) :
    Option (Except CopyError Unit × Tree) → Prop
  | none => ¬ shallow
  | some (result, fs') => SameOff dst fs fs' ∧ (result = .ok () → Copied kept fs fs' src dst) ∧
      (well → result = .ok ())

/-! ## Names that are kept -/

section Kept

variable {topLevel : Bool} {c : Name} {rel rel' : Path}

lemma Kept.of_prefix (h : Kept topLevel rel') (hpre : rel <+: rel') : Kept topLevel rel := by
  obtain ⟨s, rfl⟩ := hpre
  refine ⟨fun c hc => h.1 c (List.mem_append_left s hc), fun htop c rest hrel hrest => ?_⟩
  subst hrel
  exact h.2 htop c (rest ++ s) rfl (by simp [hrest])

/-- In a directory the walk goes to, the same is kept as below it. -/
lemma kept_cons (hname : excludedNames c = false)
    (hdir : topLevel = true → excludedTopLevelDirs c = false) :
    Kept topLevel (c :: rel) ↔ Kept false rel := by
  constructor
  · exact fun h => ⟨fun d hd => h.1 d (List.mem_cons_of_mem _ hd), fun htop => by cases htop⟩
  · intro h
    refine ⟨List.forall_mem_cons.2 ⟨hname, h.1⟩, fun htop d rest hrel _ => ?_⟩
    obtain ⟨rfl, -⟩ := List.cons.inj hrel
    exact hdir htop

end Kept

/-! ## Where the walk writes -/

section Places

variable {fs fs' fs'' : Tree} {topLevel : Bool} {src dst q : Path} {c : Name} {rel : Path}
  {kept : Path → Prop} {n : ℕ}

lemma SameOff.refl (dst : Path) (fs : Tree) : SameOff dst fs fs := fun _ _ => rfl

lemma SameOff.trans (h : SameOff dst fs fs') (h' : SameOff dst fs' fs'') : SameOff dst fs fs'' :=
  fun q hq => (h' q hq).trans (h q hq)

lemma SameOff.of_prefix {place : Path} (h : SameOff place fs fs') (hpre : dst <+: place) :
    SameOff dst fs fs' :=
  fun q hq => h q fun hplace => hq (hpre.trans hplace)

/-- A path that is too short is not in the place. -/
lemma SameOff.node_of_length (h : SameOff dst fs fs') (hq : q.length < dst.length) :
    fs'.node q = fs.node q :=
  h q fun hpre => absurd hpre.length_le (not_le.2 hq)

/-- Where nothing was there is nothing in place of the copy. -/
lemma not_prefix_of_ne_none (hfresh : fs.node dst = none) (h : fs.node q ≠ none) : ¬ dst <+: q := by
  rintro ⟨r, rfl⟩
  exact h (Tree.node_below hfresh)

/-- What the walk goes to is not in the place it writes to. -/
lemma Apart.not_prefix (h : Apart topLevel src dst) (hfresh : fs.node dst = none)
    (hc : fs.node (src ++ [c]) ≠ none) (hkept : Kept topLevel (c :: rel)) :
    ¬ dst <+: src ++ c :: rel := by
  intro hpre
  rcases List.prefix_or_prefix_of_prefix hpre (List.prefix_append src (c :: rel)) with hle | hge
  · exact h.1 hle
  · obtain ⟨r, rfl⟩ := hge
    have hr : r <+: c :: rel := (List.prefix_append_right_inj src).1 hpre
    rcases h.2 r rfl with hlen | hnot
    · obtain ⟨d, rfl⟩ := List.length_eq_one_iff.1 hlen
      obtain ⟨rfl, -⟩ := List.cons_prefix_cons.1 hr
      exact hc hfresh
    · exact hnot (hkept.of_prefix hr)

/-- Neither is what it goes to from a directory. -/
lemma Apart.child (h : Apart topLevel src dst) (hfresh : fs.node dst = none)
    (hc : fs.node (src ++ [c]) ≠ none) (hname : excludedNames c = false)
    (hdir : topLevel = true → excludedTopLevelDirs c = false) :
    Apart false (src ++ [c]) (dst ++ [c]) := by
  refine ⟨fun hpre => ?_, fun rel hrel => ?_⟩
  · rcases List.prefix_concat_iff.1 hpre with heq | hpre
    · exact h.1 ((List.append_inj_left' heq rfl) ▸ List.prefix_rfl)
    · exact h.1 ((List.prefix_append dst [c]).trans hpre)
  · -- the copy's path below the directory is its path below the one above, and this name
    induction rel using List.reverseRecOn with
    | nil =>
        rw [List.append_nil] at hrel
        exact absurd ((List.append_inj_left' hrel rfl) ▸ List.prefix_rfl) h.1
    | append_singleton rel d _ =>
        rw [← List.append_assoc, List.append_assoc src] at hrel
        have hdst : dst = src ++ c :: rel := List.append_inj_left' hrel rfl
        rcases h.2 _ hdst with hlen | hnot
        · obtain rfl : rel = [] := by simpa using hlen
          exact absurd (hdst ▸ hfresh) hc
        · refine Or.inr fun hkept => hnot ((kept_cons hname hdir).2 ?_)
          exact hkept.of_prefix (List.prefix_append rel [d])

/-- The directories below a directory are less deep. -/
lemma Shallow.child (h : Shallow fs topLevel src (n + 1)) (hapart : Apart topLevel src dst)
    (hfresh : fs.node dst = none) (hsame : SameOff dst fs fs')
    (hc : fs.node (src ++ [c]) = some .dir) (hname : excludedNames c = false)
    (hdir : topLevel = true → excludedTopLevelDirs c = false) :
    Shallow fs' false (src ++ [c]) n := by
  have hdeep : ∀ rel, Kept false rel → fs'.node (src ++ c :: rel) = some .dir → rel.length < n := by
    intro rel hkept hrel
    have hkept' : Kept topLevel (c :: rel) := (kept_cons hname hdir).2 hkept
    rw [hsame _ (hapart.not_prefix hfresh (by simp [hc]) hkept')] at hrel
    exact Nat.lt_of_succ_lt_succ (h.2 _ hkept' hrel)
  have hnil : Kept false [] := ⟨by simp, by simp⟩
  have hself : fs'.node (src ++ [c]) = some .dir := by
    rw [hsame _ (not_prefix_of_ne_none hfresh (by simp [hc])), hc]
  refine ⟨Nat.zero_lt_of_lt (hdeep [] hnil hself), fun rel hkept hrel => hdeep rel hkept ?_⟩
  rwa [List.append_assoc] at hrel

lemma Spec.imp {shallow shallow' well well' : Prop}
    {out : Option (Except CopyError Unit × Tree)} (h : Spec shallow well kept src dst fs out)
    (hshallow : shallow' → shallow) (hwell : well' → well) :
    Spec shallow' well' kept src dst fs out := by
  cases out with
  | none => exact fun hdeep => h (hshallow hdeep)
  | some out => exact ⟨h.1, h.2.1, fun hall => h.2.2 (hwell hall)⟩

/-- Nothing to keep and nothing there. -/
lemma copied_of_fresh (hfresh : fs.node dst = none)
    (h : ∀ rel content, kept rel → fs.node (src ++ rel) ≠ some (.file content)) :
    Copied kept fs fs src dst where
  files rel content := by
    rw [Tree.node_below hfresh]
    exact ⟨fun hno => (nomatch hno), fun ⟨hkept, hfile⟩ => absurd hfile (h rel content hkept)⟩
  noOther rel := by
    rw [Tree.node_below hfresh]
    exact Option.some_ne_none _ |>.symm

end Places

/-! ## One entry -/

section Entry

variable {faults : Faults} {topLevel : Bool} {src dst : Path} {fs : Tree} {c : Name}
  {content : List UInt8}

/-- A file's copy is added, or the part of it that was written, or nothing. -/
lemma copyFile_eq (faults : Faults) (hdir : fs.node dst = some .dir)
    (hfresh : fs.node (dst ++ [c]) = none) (hfile : fs.node src = some (.file content)) :
    (∃ err, faults ≠ {} ∧ copyFile faults src (dst ++ [c]) fs = (.error err, fs)) ∨
      ∃ fs', (∀ q, fs'.node q = if q = dst ++ [c] then
          some (.file (written content (faults.file src))) else fs.node q) ∧
        copyFile faults src (dst ++ [c]) fs =
          (match faults.file src with
            | none => .ok ()
            | some fault => .error (.file fault (dst ++ [c])), fs') := by
  obtain ⟨fs', hadd, hnode⟩ :=
    Tree.add_of (n := .file (written content (faults.file src))) hdir hfresh
  unfold copyFile
  rw [hfile]
  cases hfault : faults.file src with
  | none =>
      rw [hfault] at hadd hnode
      exact Or.inr ⟨fs', hnode, by simp only [hadd]⟩
  | some fault =>
      rw [hfault] at hadd hnode
      cases fault with
      | stat | source | create =>
          refine Or.inl ⟨_, ?_, rfl⟩
          rintro rfl
          cases hfault
      | copy _ | sync | close => exact Or.inr ⟨fs', hnode, by simp only [hadd]⟩

lemma copied_file {fs' : Tree} {kept : Path → Prop} (hfresh : fs.node dst = none)
    (hfile : fs.node src = some (.file content)) (hkept : kept [])
    (hnode : ∀ q, fs'.node q = if q = dst then some (.file content) else fs.node q) :
    Copied kept fs fs' src dst := by
  have hbelow : ∀ rel, rel ≠ [] → fs'.node (dst ++ rel) = none := by
    intro rel hrel
    have hne : dst ++ rel ≠ dst := fun heq => hrel (List.append_right_eq_self.1 heq)
    rw [hnode, if_neg hne, Tree.node_below hfresh]
  have hself : fs'.node (dst ++ []) = some (.file content) := by
    rw [List.append_nil, hnode, if_pos rfl]
  refine ⟨fun rel content' => ?_, fun rel => ?_⟩
  · by_cases hrel : rel = []
    · rw [hrel, hself, List.append_nil, hfile]
      exact (and_iff_right hkept).symm
    · rw [hbelow rel hrel]
      refine ⟨fun hno => (nomatch hno), fun ⟨_, hrel'⟩ => ?_⟩
      have hne : fs.node (src ++ rel) ≠ none := by simp [hrel']
      have hdir := Tree.node_above hne hrel
      rw [hfile] at hdir
      cases hdir
  · by_cases hrel : rel = []
    · rw [hrel, hself]
      exact fun h => (nomatch h)
    · rw [hbelow rel hrel]
      exact fun h => (nomatch h)

lemma copyFile_spec (hdir : fs.node dst = some .dir) (hfresh : fs.node (dst ++ [c]) = none)
    (hfile : fs.node src = some (.file content)) {kept : Path → Prop} (hkept : kept [])
    (shallow : Prop) :
    Spec shallow (faults = {}) kept src (dst ++ [c]) fs
      (some (copyFile faults src (dst ++ [c]) fs)) := by
  rcases copyFile_eq faults hdir hfresh hfile with ⟨err, hne, herr⟩ | ⟨fs', hnode, heq⟩
  · rw [herr]
    exact ⟨SameOff.refl _ fs, fun hok => (nomatch hok), fun hnone => absurd hnone hne⟩
  · rw [heq]
    refine ⟨fun q hq => ?_, fun hok => ?_, ?_⟩
    · rw [hnode, if_neg]
      rintro rfl
      exact hq List.prefix_rfl
    · cases hfault : faults.file src with
      | some fault =>
          rw [hfault] at hok
          cases hok
      | none =>
          rw [hfault] at hnode
          exact copied_file hfresh hfile hkept hnode
    · rintro rfl
      rfl

/-- What a round of the loop leaves, if the walk of a directory leaves what it is to leave. -/
lemma copyEntry_spec {copyDir : Path → Path → Tree → Option (Except CopyError Unit × Tree)}
    {e : DirEntry} {n : Node} {shallow : Prop} (hdir : fs.node dst = some .dir)
    (hfresh : fs.node (dst ++ [e.name]) = none) (hn : fs.node (src ++ [e.name]) = some n)
    (hkind : e.kind = n.kind)
    (hsub : n = .dir → excludedNames e.name = false →
      (topLevel = true → excludedTopLevelDirs e.name = false) →
      Spec shallow (faults = {}) (Kept false) (src ++ [e.name]) (dst ++ [e.name]) fs
        (copyDir (src ++ [e.name]) (dst ++ [e.name]) fs)) :
    Spec shallow (faults = {}) (fun rel => Kept topLevel (e.name :: rel)) (src ++ [e.name])
      (dst ++ [e.name]) fs (copyEntry copyDir faults topLevel src dst e fs) := by
  have hskip : (∀ rel content, Kept topLevel (e.name :: rel) →
      fs.node (src ++ [e.name] ++ rel) ≠ some (.file content)) →
      Spec shallow (faults = {}) (fun rel => Kept topLevel (e.name :: rel)) (src ++ [e.name])
        (dst ++ [e.name]) fs (some (.ok (), fs)) := fun hno =>
    ⟨SameOff.refl _ fs, fun _ => copied_of_fresh hfresh hno, fun _ => rfl⟩
  -- below the entry is a file only if the entry is a directory
  have hbelow : ∀ rel content, fs.node (src ++ [e.name] ++ rel) = some (.file content) →
      rel = [] ∧ n = .file content ∨ rel ≠ [] ∧ n = .dir := by
    intro rel content hfile
    by_cases hrel : rel = []
    · rw [hrel, List.append_nil, hn] at hfile
      exact Or.inl ⟨hrel, Option.some.inj hfile⟩
    · have hne : fs.node (src ++ [e.name] ++ rel) ≠ none := by
        rw [hfile]
        exact Option.some_ne_none _
      have habove := Tree.node_above hne hrel
      rw [hn] at habove
      exact Or.inr ⟨hrel, Option.some.inj habove⟩
  unfold copyEntry
  split
  · rename_i hname
    refine hskip fun rel content hkept => ?_
    rw [hkept.1 e.name (List.mem_cons_self ..)] at hname
    cases hname
  · rename_i hname
    rw [Bool.not_eq_true] at hname
    split
    · rename_i hexcluded
      refine hskip fun rel content hkept hfile => ?_
      rcases hbelow rel content hfile with ⟨-, rfl⟩ | ⟨hrel, -⟩
      · rw [hkind] at hexcluded
        cases hexcluded.2.1
      · exact Bool.eq_false_iff.1 (hkept.2 hexcluded.1 e.name rel rfl hrel) hexcluded.2.2
    · rename_i hincluded
      cases n with
      | dir =>
          have htop : topLevel = true → excludedTopLevelDirs e.name = false :=
            fun htop => Bool.eq_false_iff.2 fun hdir => hincluded ⟨htop, hkind, hdir⟩
          have hkept : (fun rel => Kept topLevel (e.name :: rel)) = Kept false :=
            funext fun rel => propext (kept_cons hname htop)
          rw [hkind, hkept]
          exact hsub rfl hname htop
      | file content =>
          rw [hkind]
          have hone : Kept topLevel [e.name] :=
            ⟨List.forall_mem_singleton.2 hname, fun _ c rest hrel hrest =>
              absurd (List.cons.inj hrel).2.symm hrest⟩
          exact copyFile_spec hdir hfresh hn hone shallow
      | other =>
          rw [hkind]
          refine hskip fun rel content hkept hfile => ?_
          rcases hbelow rel content hfile with ⟨-, hno⟩ | ⟨-, hno⟩ <;> cases hno

end Entry

/-! ## The loop -/

section Loop

variable {faults : Faults} {topLevel : Bool} {src dst : Path} {fs fs' fs'' : Tree}
  {e : DirEntry} {rest : List DirEntry}

/-- With these entries still to come: nothing is in place of their copies, and the others are
copied from the tree as it was when the directory was read. -/
structure Progress (topLevel : Bool) (fs fs' : Tree) (src dst : Path) (rest : List DirEntry) :
    Prop where
  same : SameOff dst fs fs'
  dir : fs'.node dst = some .dir
  pending : ∀ e ∈ rest, fs'.node (dst ++ [e.name]) = none
  copied : ∀ c, c ∉ rest.map DirEntry.name →
    Copied (fun rel => Kept topLevel (c :: rel)) fs fs' (src ++ [c]) (dst ++ [c])

/-- What was not in place of another name's copy. -/
lemma SameOff.node_other {c d : Name} (h : SameOff (dst ++ [c]) fs fs') (hne : d ≠ c)
    (rel : Path) : fs'.node (dst ++ [d] ++ rel) = fs.node (dst ++ [d] ++ rel) := by
  refine h _ fun hpre => ?_
  rw [List.append_assoc, List.prefix_append_right_inj] at hpre
  exact hne (List.cons_prefix_cons.1 hpre).1.symm

lemma SameOff.node_self {c : Name} (h : SameOff (dst ++ [c]) fs fs') :
    fs'.node dst = fs.node dst := by
  apply h.node_of_length
  rw [List.length_append, List.length_singleton]
  exact Nat.lt_succ_self _

/-- When its directory has just been made. -/
lemma Progress.start (hlist : fs.readDir src = some rest) (hfresh : fs.node dst = none)
    (hnode : ∀ q, q ≠ dst → fs'.node q = fs.node q) (hdir : fs'.node dst = some .dir) :
    Progress topLevel fs fs' src dst rest := by
  have hbelow : ∀ c rel, fs'.node (dst ++ [c] ++ rel) = none := by
    intro c rel
    have hne : dst ++ ([c] ++ rel) ≠ dst := fun heq => by
      have hnil := List.append_right_eq_self.1 heq
      cases hnil
    rw [List.append_assoc, hnode _ hne, Tree.node_below hfresh]
  refine ⟨fun q hq => hnode q fun heq => hq (heq ▸ List.prefix_rfl), hdir, fun e _ => ?_,
    fun c hc => ⟨fun rel content => ?_, fun rel => ?_⟩⟩
  · have hnone := hbelow e.name []
    rwa [List.append_nil] at hnone
  · rw [hbelow]
    refine ⟨fun hno => (nomatch hno), fun ⟨_, hfile⟩ => ?_⟩
    -- it would be in the listing
    cases hn : fs.node (src ++ [c]) with
    | none =>
        rw [Tree.node_below hn] at hfile
        cases hfile
    | some n =>
        have hentry := (Tree.mem_readDir (e := ⟨c, n.kind⟩) hlist).2 ⟨n, hn, rfl⟩
        exact absurd (List.mem_map_of_mem hentry) hc
  · rw [hbelow]
    exact fun hno => (nomatch hno)

lemma Progress.step (h : Progress topLevel fs fs' src dst (e :: rest))
    (hnodup : ((e :: rest).map DirEntry.name).Nodup) (hapart : Apart topLevel src dst)
    (hfresh : fs.node dst = none) (he : fs.node (src ++ [e.name]) ≠ none)
    (hsame : SameOff (dst ++ [e.name]) fs' fs'')
    (hcopied : Copied (fun rel => Kept topLevel (e.name :: rel)) fs' fs'' (src ++ [e.name])
      (dst ++ [e.name])) :
    Progress topLevel fs fs'' src dst rest := by
  obtain ⟨hother, -⟩ := List.nodup_cons.1 hnodup
  refine ⟨h.same.trans (hsame.of_prefix (List.prefix_append _ _)), ?_, fun d hd => ?_,
    fun c hc => ?_⟩
  · rw [hsame.node_self, h.dir]
  · have hne : d.name ≠ e.name := fun heq => hother (heq ▸ List.mem_map_of_mem hd)
    have hnode := hsame.node_other hne []
    rw [List.append_nil] at hnode
    rw [hnode, h.pending d (List.mem_cons_of_mem _ hd)]
  · by_cases hce : c = e.name
    · subst hce
      refine ⟨fun rel content => ?_, hcopied.noOther⟩
      rw [hcopied.files]
      refine and_congr_right fun hkept => ?_
      have hnode : fs'.node (src ++ [e.name] ++ rel) = fs.node (src ++ [e.name] ++ rel) := by
        rw [List.append_assoc]
        exact h.same _ (hapart.not_prefix hfresh he hkept)
      rw [hnode]
    · have hold := h.copied c (by simp [hce, hc])
      refine ⟨fun rel content => ?_, fun rel => ?_⟩
      · rw [hsame.node_other hce, hold.files]
      · rw [hsame.node_other hce]
        exact hold.noOther rel

lemma Progress.copied_all (h : Progress topLevel fs fs' src dst [])
    (hsrc : fs.node src = some .dir) : Copied (Kept topLevel) fs fs' src dst := by
  refine ⟨fun rel content => ?_, fun rel => ?_⟩
  · cases rel with
    | nil => simp [h.dir, hsrc]
    | cons c rel =>
        have hc := (h.copied c (by simp)).files rel content
        rwa [List.append_assoc, List.append_assoc] at hc
  · cases rel with
    | nil => simp [h.dir]
    | cons c rel =>
        have hc := (h.copied c (by simp)).noOther rel
        rwa [List.append_assoc] at hc

/-- The loop leaves what it is to leave, if the walks of the directories do. -/
lemma copyEntries_spec {copyDir : Path → Path → Tree → Option (Except CopyError Unit × Tree)}
    {n : ℕ} (hapart : Apart topLevel src dst) (hfresh : fs.node dst = none)
    (hsrc : fs.node src = some .dir)
    (hcopyDir : ∀ fs' c, Apart false (src ++ [c]) (dst ++ [c]) → fs'.node dst = some .dir →
      fs'.node (dst ++ [c]) = none →
      Spec (Shallow fs' false (src ++ [c]) n) (faults = {} ∧ fs'.node (src ++ [c]) = some .dir)
        (Kept false) (src ++ [c]) (dst ++ [c]) fs' (copyDir (src ++ [c]) (dst ++ [c]) fs'))
    (hentries : ∀ e ∈ rest, ∃ m, fs.node (src ++ [e.name]) = some m ∧ e.kind = m.kind)
    (hnodup : (rest.map DirEntry.name).Nodup) (h : Progress topLevel fs fs' src dst rest) :
    Spec (Shallow fs topLevel src (n + 1)) (faults = {}) (Kept topLevel) src dst fs
      (copyEntries copyDir faults topLevel src dst rest fs') := by
  induction rest generalizing fs' with
  | nil => exact ⟨h.same, fun _ => h.copied_all hsrc, fun _ => rfl⟩
  | cons e rest ih =>
      obtain ⟨m, hm, hkind⟩ := hentries e (List.mem_cons_self ..)
      have hne : fs.node (src ++ [e.name]) ≠ none := by simp [hm]
      have hm' : fs'.node (src ++ [e.name]) = some m := by
        rw [h.same _ (not_prefix_of_ne_none hfresh hne), hm]
      have hentry : Spec (Shallow fs topLevel src (n + 1)) (faults = {})
          (fun rel => Kept topLevel (e.name :: rel)) (src ++ [e.name]) (dst ++ [e.name]) fs'
          (copyEntry copyDir faults topLevel src dst e fs') := by
        refine copyEntry_spec h.dir (h.pending e (List.mem_cons_self ..)) hm' hkind ?_
        intro hdir hname htop
        subst hdir
        exact (hcopyDir fs' e.name (hapart.child hfresh hne hname htop) h.dir
          (h.pending e (List.mem_cons_self ..))).imp
          (fun hshallow => hshallow.child hapart hfresh h.same hm hname htop)
          (fun hnone => ⟨hnone, hm'⟩)
      rw [copyEntries]
      cases hrun : copyEntry copyDir faults topLevel src dst e fs' with
      | none =>
          rw [hrun] at hentry
          exact hentry
      | some out =>
          obtain ⟨result, fs''⟩ := out
          rw [hrun] at hentry
          obtain ⟨hsame, hcopied, hwell⟩ := hentry
          cases result with
          | error err =>
              refine ⟨h.same.trans (hsame.of_prefix (List.prefix_append _ _)),
                fun hok => (nomatch hok), fun hnone => ?_⟩
              cases hwell hnone
          | ok _ =>
              refine ih (fun d hd => hentries d (List.mem_cons_of_mem _ hd))
                (List.nodup_cons.1 hnodup).2 ?_
              exact h.step hnodup hapart hfresh hne hsame (hcopied rfl)

end Loop

/-! ## The walk -/

/-- **A walk that writes apart from where it reads ends, and copies.**  If it is not cut off it
changes nothing outside its place, and has there exactly the files that are to be kept, unless it
reports an error; with as many calls nested as the tree is deep it is not cut off. -/
theorem copyTree_spec {faults : Faults} {n : ℕ} {topLevel : Bool} {src dst : Path} {c : Name}
    {fs : Tree} (hapart : Apart topLevel src (dst ++ [c])) (hdir : fs.node dst = some .dir)
    (hfresh : fs.node (dst ++ [c]) = none) :
    Spec (Shallow fs topLevel src n) (faults = {} ∧ fs.node src = some .dir) (Kept topLevel) src
      (dst ++ [c]) fs (copyTree faults n topLevel src (dst ++ [c]) fs) := by
  induction n generalizing topLevel src dst c fs with
  | zero => exact fun hshallow => absurd hshallow.1 (Nat.lt_irrefl 0)
  | succ n ih =>
      rw [copyTree]
      cases hread : (if faults.readDir src then none else fs.readDir src) with
      | none =>
          refine ⟨SameOff.refl _ fs, fun hok => (nomatch hok), ?_⟩
          rintro ⟨rfl, hsrc⟩
          obtain ⟨entries, hentries⟩ := Tree.readDir_of_dir hsrc
          exact absurd (hread.symm.trans hentries) (nomatch ·)
      | some entries =>
          have hlist : fs.readDir src = some entries := by
            split at hread
            · cases hread
            · exact hread
          have hsrc := Tree.dir_of_readDir hlist
          obtain ⟨made, fs', hmk, hnode, hnew, hfails⟩ :=
            Tree.mkdirAll_new faults.mkdir hdir hfresh
          rw [hmk]
          cases made with
          | false =>
              refine ⟨fun q hq => hnode q fun heq => hq (heq ▸ List.prefix_rfl),
                fun hok => (nomatch hok), ?_⟩
              rintro ⟨rfl, -⟩
              obtain ⟨q, hq⟩ := hfails rfl
              cases hq
          | true =>
              exact (copyEntries_spec hapart hfresh hsrc (fun fs' d hapart' hdir' hfresh' =>
                ih hapart' hdir' hfresh') (fun e he => (Tree.mem_readDir hlist).1 he)
                (Tree.nodup_readDir hlist) (Progress.start hlist hfresh hnode (hnew rfl))).imp id
                And.left

end Backup
end Chaskiwasi
