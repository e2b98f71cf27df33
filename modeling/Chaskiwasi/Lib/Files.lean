import Mathlib.Algebra.Order.BigOperators.Group.List
import Mathlib.Algebra.Order.Ring.Nat
import Mathlib.Data.Char
import Mathlib.Data.List.Dedup
import Mathlib.Data.List.Infix
import Mathlib.Data.List.Lex
import Mathlib.Tactic.Common

/-!
# A tree of files

A `Tree` says what stands at each path of a file system: finitely many of them have something, and
what stands below another path has a directory there.  A path is the list of its names from the
root, and none of them is a link.

The calls are those that a program makes of paths: it lists a directory, makes one with what is
missing above it, adds a file where nothing was, and removes a path with all that is below it.
Each has one lemma that says what it leaves at every path.
-/

namespace Files

abbrev Name := List Char

abbrev Path := List Name

inductive Node
  | dir
  | file (content : List UInt8)
  /-- A link, a socket or a device. -/
  | other
  deriving DecidableEq, Repr

/-- What a listing says of an entry. -/
inductive Kind
  | dir
  | regular
  | other
  deriving DecidableEq, Repr

def Node.kind : Node → Kind
  | dir => .dir
  | file _ => .regular
  | other => .other

structure DirEntry where
  name : Name
  kind : Kind
  deriving DecidableEq, Repr

structure Tree where
  node : Path → Option Node
  paths : List Path
  mem_paths : ∀ p, p ∈ paths ↔ node p ≠ none
  root : node [] = some .dir
  parent : ∀ p c, node (p ++ [c]) ≠ none → node p = some .dir

namespace Tree

/-- A root with nothing in it. -/
def empty : Tree where
  node p := if p = [] then some .dir else none
  paths := [[]]
  mem_paths p := by simp
  root := rfl
  parent p c h := absurd (if_neg (List.concat_ne_nil c p)) h

variable {t t' : Tree} {p q r : Path} {c : Name} {n : Node} {fails : Path → Bool}

/-! ## Above and below -/

lemma node_above (h : t.node (p ++ r) ≠ none) (hr : r ≠ []) : t.node p = some .dir := by
  induction r using List.reverseRecOn with
  | nil => exact absurd rfl hr
  | append_singleton r c ih =>
      rw [← List.append_assoc] at h
      have hdir := t.parent _ _ h
      by_cases hnil : r = []
      · rwa [hnil, List.append_nil] at hdir
      · exact ih (by simp [hdir]) hnil

lemma node_below (h : t.node p = none) : t.node (p ++ r) = none := by
  by_contra hne
  by_cases hr : r = []
  · rw [hr, List.append_nil] at hne
    exact hne h
  · rw [node_above hne hr] at h
    cases h

lemma dir_above (hpq : p <+: q) (h : t.node q = some .dir) : t.node p = some .dir := by
  obtain ⟨r, rfl⟩ := hpq
  by_cases hr : r = []
  · rwa [hr, List.append_nil] at h
  · exact node_above (by simp [h]) hr

/-- No path is as long as all of them together. -/
def bound (t : Tree) : ℕ := (t.paths.map List.length).sum + 1

lemma length_lt_bound (h : t.node p ≠ none) : p.length < t.bound :=
  Nat.lt_succ_of_le (List.single_le_sum (fun _ _ => Nat.zero_le _) _
    (List.mem_map_of_mem ((t.mem_paths p).2 h)))

/-! ## The calls -/

/-- The names in a directory, in order. -/
def names (t : Tree) (p : Path) : List Name :=
  ((t.paths.filterMap fun q => if q.dropLast = p then q.getLast? else none).dedup).mergeSort

def readDir (t : Tree) (p : Path) : Option (List DirEntry) :=
  if t.node p = some .dir then
    some ((t.names p).filterMap fun c => (t.node (p ++ [c])).map fun n => ⟨c, n.kind⟩)
  else none

/-- A new node, where nothing is and in a directory. -/
def add (t : Tree) (p : Path) (n : Node) : Option Tree :=
  if h : p ≠ [] ∧ t.node p.dropLast = some .dir ∧ t.node p = none then
    some
      { node := fun q => if q = p then some n else t.node q
        paths := p :: t.paths
        mem_paths := by
          intro q
          by_cases hq : q = p <;> simp [hq, t.mem_paths]
        root := by simp [Ne.symm h.1, t.root]
        parent := by
          obtain ⟨-, hdir, habsent⟩ := h
          intro q c hqc
          have hq : t.node q = some .dir := by
            by_cases heq : q ++ [c] = p
            · rwa [← heq, List.dropLast_concat] at hdir
            · exact t.parent q c (by simpa [heq] using hqc)
          have hne : q ≠ p := by
            rintro rfl
            rw [habsent] at hq
            cases hq
          simp [hne, hq] }
  else none

/-- The directory, made if nothing is there. -/
def mkdir (fails : Path → Bool) (t : Tree) (p : Path) : Option Tree :=
  match t.node p with
  | some .dir => some t
  | some _ => none
  | none => if fails p then none else t.add p .dir

/-- Each in the one in front of it, up to the first that fails. -/
def mkdirs (fails : Path → Bool) (t : Tree) : List Path → Bool × Tree
  | [] => (true, t)
  | p :: ps =>
      match mkdir fails t p with
      | none => (false, t)
      | some t' => mkdirs fails t' ps

/-- `os.MkdirAll`, with the paths that cannot be made. -/
def mkdirAll (fails : Path → Bool) (t : Tree) (p : Path) : Bool × Tree := mkdirs fails t p.inits

/-- `os.RemoveAll`. -/
def removeAll (t : Tree) (p : Path) : Tree :=
  if h : p = [] then t
  else
    { node := fun q => if p <+: q then none else t.node q
      paths := t.paths.filter fun q => !decide (p <+: q)
      mem_paths := by
        intro q
        by_cases hq : p <+: q <;> simp [hq, t.mem_paths]
      root := by simp [h, t.root]
      parent := by
        intro q c hqc
        have hout : ¬ p <+: q ++ [c] := by
          intro hin
          exact hqc (if_pos hin)
        have hq : ¬ p <+: q := fun hin => hout (hin.trans (List.prefix_append q [c]))
        rw [if_neg hout] at hqc
        rw [if_neg hq]
        exact t.parent q c hqc }

/-! ## What they leave -/

lemma mem_names : c ∈ t.names p ↔ t.node (p ++ [c]) ≠ none := by
  rw [names, List.mem_mergeSort, List.mem_dedup, List.mem_filterMap, ← t.mem_paths]
  constructor
  · rintro ⟨q, hq, hlast⟩
    split at hlast
    · rename_i hinit
      obtain ⟨init, rfl⟩ := List.getLast?_eq_some_iff.1 hlast
      rw [List.dropLast_concat] at hinit
      rwa [← hinit]
    · cases hlast
  · intro h
    exact ⟨p ++ [c], h, by simp⟩

lemma nodup_names : (t.names p).Nodup :=
  (List.mergeSort_perm _ _).nodup_iff.2 (List.nodup_dedup _)

lemma readDir_of_dir (h : t.node p = some .dir) : ∃ es, t.readDir p = some es := ⟨_, if_pos h⟩

lemma dir_of_readDir {es : List DirEntry} (h : t.readDir p = some es) : t.node p = some .dir := by
  by_contra hdir
  rw [readDir, if_neg hdir] at h
  cases h

lemma mem_readDir {es : List DirEntry} {e : DirEntry} (h : t.readDir p = some es) :
    e ∈ es ↔ ∃ n, t.node (p ++ [e.name]) = some n ∧ e.kind = n.kind := by
  unfold readDir at h
  split at h
  · obtain rfl := Option.some.inj h
    simp only [List.mem_filterMap, Option.map_eq_some_iff, mem_names]
    constructor
    · rintro ⟨c, -, n, hn, rfl⟩
      exact ⟨n, hn, rfl⟩
    · rintro ⟨n, hn, hkind⟩
      exact ⟨e.name, by simp [hn], n, hn, by rw [← hkind]⟩
  · cases h

lemma nodup_readDir {es : List DirEntry} (h : t.readDir p = some es) :
    (es.map DirEntry.name).Nodup := by
  unfold readDir at h
  split at h
  · obtain rfl := Option.some.inj h
    rw [List.map_filterMap]
    have hname : ∀ c d, d ∈ ((t.node (p ++ [c])).map fun n => (⟨c, n.kind⟩ : DirEntry)).map
        DirEntry.name → c = d := by
      intro c d hd
      cases hn : t.node (p ++ [c]) with
      | none => simp [hn] at hd
      | some n => simpa [hn] using hd
    exact t.nodup_names.filterMap fun c c' d hd hd' => (hname c d hd).trans (hname c' d hd').symm
  · cases h

lemma add_of (hdir : t.node p = some .dir) (habsent : t.node (p ++ [c]) = none) :
    ∃ t', t.add (p ++ [c]) n = some t' ∧
      ∀ q, t'.node q = if q = p ++ [c] then some n else t.node q := by
  have h : p ++ [c] ≠ [] ∧ t.node (p ++ [c]).dropLast = some .dir ∧ t.node (p ++ [c]) = none :=
    ⟨List.concat_ne_nil _ _, by rwa [List.dropLast_concat], habsent⟩
  exact ⟨_, dif_pos h, fun _ => rfl⟩

lemma add_eq_some (h : t.add p n = some t') :
    t.node p = none ∧ ∀ q, t'.node q = if q = p then some n else t.node q := by
  unfold add at h
  split at h
  · rename_i hfree
    obtain rfl := Option.some.inj h
    exact ⟨hfree.2.2, fun _ => rfl⟩
  · cases h

lemma node_removeAll (hp : p ≠ []) (q : Path) :
    (t.removeAll p).node q = if p <+: q then none else t.node q := by
  rw [removeAll, dif_neg hp]

/-- A directory, or a place for one in another. -/
def HasPlace (t : Tree) (p : Path) : Prop :=
  t.node p = some .dir ∨ p ≠ [] ∧ t.node p.dropLast = some .dir ∧ t.node p = none

lemma mkdir_of_hasPlace (hfails : ∀ q, fails q = false) (hp : t.HasPlace p) :
    ∃ t', mkdir fails t p = some t' := by
  rcases hp with hdir | ⟨hne, hdir, hnone⟩
  · exact ⟨t, by rw [mkdir, hdir]⟩
  · rw [← List.dropLast_concat_getLast hne] at hnone ⊢
    obtain ⟨t', hadd, -⟩ := add_of (n := .dir) hdir hnone
    refine ⟨t', ?_⟩
    simp only [mkdir, hnone, hfails, Bool.false_eq_true, if_false, hadd]

lemma mkdir_eq_some (h : mkdir fails t p = some t') :
    t'.node p = some .dir ∧ ∀ q, t'.node q = t.node q ∨ t.node q = none ∧ q = p := by
  unfold mkdir at h
  split at h
  · rename_i hdir
    obtain rfl := Option.some.inj h
    exact ⟨hdir, fun q => Or.inl rfl⟩
  · cases h
  · split at h
    · cases h
    · obtain ⟨hnone, hnode⟩ := add_eq_some h
      refine ⟨by rw [hnode, if_pos rfl], fun q => ?_⟩
      by_cases hq : q = p
      · exact Or.inr ⟨hq ▸ hnone, hq⟩
      · exact Or.inl (by rw [hnode, if_neg hq])

/-- Only directories are made, and only where one was missing. -/
lemma mkdirs_frame (fails : Path → Bool) (t : Tree) (ps : List Path) (q : Path) :
    (mkdirs fails t ps).2.node q = t.node q ∨
      t.node q = none ∧ (mkdirs fails t ps).2.node q = some .dir ∧ q ∈ ps := by
  induction ps generalizing t with
  | nil => exact Or.inl rfl
  | cons p ps ih =>
      unfold mkdirs
      split
      · exact Or.inl rfl
      · rename_i t' hmk
        obtain ⟨hdir, hframe⟩ := mkdir_eq_some hmk
        rcases hframe q with hsame | ⟨hnone, rfl⟩
        · rw [← hsame]
          exact (ih t').imp_right fun h => ⟨h.1, h.2.1, List.mem_cons_of_mem _ h.2.2⟩
        · rcases ih t' with hsame | ⟨hnone', -⟩
          · exact Or.inr ⟨hnone, hsame.trans hdir, List.mem_cons_self ..⟩
          · rw [hdir] at hnone'
            cases hnone'

/-- When none failed, all of them are there. -/
lemma mkdirs_of_true {ps : List Path} (h : (mkdirs fails t ps).1 = true) :
    ∀ q ∈ ps, (mkdirs fails t ps).2.node q = some .dir := by
  induction ps generalizing t with
  | nil => simp
  | cons p ps ih =>
      unfold mkdirs at h ⊢
      cases hmk : mkdir fails t p with
      | none =>
          rw [hmk] at h
          cases h
      | some t' =>
          rw [hmk] at h
          refine List.forall_mem_cons.2 ⟨?_, ih h⟩
          have hp := (mkdir_eq_some hmk).1
          rcases mkdirs_frame fails t' ps p with hsame | ⟨hnone, -⟩
          · exact hsame.trans hp
          · rw [hp] at hnone
            cases hnone

/-- Something stands in the way of a directory at the path. -/
def Blocked (t : Tree) (p : Path) : Prop :=
  ∃ q, q <+: p ∧ t.node q ≠ none ∧ t.node q ≠ some .dir

lemma mkdirAll_frame (fails : Path → Bool) (t : Tree) (p q : Path) :
    (mkdirAll fails t p).2.node q = t.node q ∨
      t.node q = none ∧ (mkdirAll fails t p).2.node q = some .dir ∧ q <+: p :=
  (mkdirs_frame fails t p.inits q).imp_right fun h => ⟨h.1, h.2.1, (List.mem_inits _ _).1 h.2.2⟩

lemma mkdirAll_of_true (h : (mkdirAll fails t p).1 = true) (hq : q <+: p) :
    (mkdirAll fails t p).2.node q = some .dir :=
  mkdirs_of_true h q ((List.mem_inits _ _).2 hq)

/-- What stands in the way is not removed. -/
lemma Blocked.mkdirAll (h : Blocked t p) : (t.mkdirAll fails p).1 = false := by
  obtain ⟨q, hq, hne, hdir⟩ := h
  by_contra htrue
  rw [Bool.not_eq_false] at htrue
  rcases mkdirAll_frame fails t p q with hsame | ⟨hnone, -⟩
  · rw [mkdirAll_of_true htrue hq] at hsame
    exact hdir hsame.symm
  · exact hne hnone

lemma mkdirs_inits (hfails : ∀ q, fails q = false) (r : Path)
    (hp : t.HasPlace p)
    (hfree : ∀ q, q <+: r → t.node (p ++ q) = none ∨ t.node (p ++ q) = some .dir) :
    (mkdirs fails t (r.inits.map (p ++ ·))).1 = true := by
  induction r generalizing p t with
  | nil =>
      obtain ⟨t', hmk⟩ := mkdir_of_hasPlace hfails hp
      simp [mkdirs, hmk]
  | cons c r ih =>
      obtain ⟨t', hmk⟩ := mkdir_of_hasPlace hfails hp
      obtain ⟨hdir, hframe⟩ := mkdir_eq_some hmk
      have htail : (r.inits.map (c :: ·)).map (p ++ ·) = r.inits.map ((p ++ [c]) ++ ·) := by
        simp [Function.comp_def]
      rw [List.inits_cons, List.map_cons, List.append_nil, mkdirs, hmk, htail]
      have hnode : ∀ q, t'.node ((p ++ [c]) ++ q) = t.node (p ++ c :: q) := by
        intro q
        rw [List.append_assoc]
        rcases hframe (p ++ ([c] ++ q)) with hsame | ⟨-, heq⟩
        · exact hsame
        · have hlen := congrArg List.length heq
          simp at hlen
      have hchild : t'.HasPlace (p ++ [c]) := by
        have hfirst := hnode []
        rw [List.append_nil] at hfirst
        rw [HasPlace, hfirst, List.dropLast_concat]
        rcases hfree [c] (by simp) with hnone | hdir'
        · exact Or.inr ⟨List.concat_ne_nil _ _, hdir, hnone⟩
        · exact Or.inl hdir'
      have hrest : ∀ q, q <+: r → t'.node ((p ++ [c]) ++ q) = none ∨
          t'.node ((p ++ [c]) ++ q) = some .dir := by
        intro q hq
        rw [hnode]
        exact hfree (c :: q) (List.cons_prefix_cons.2 ⟨rfl, hq⟩)
      exact ih hchild hrest

/-- Nothing else makes it fail by itself. -/
lemma mkdirAll_of_not_blocked (hfails : ∀ q, fails q = false) (h : ¬ Blocked t p) :
    (mkdirAll fails t p).1 = true := by
  have hinits : p.inits.map ([] ++ ·) = p.inits := List.map_id _
  rw [mkdirAll, ← hinits]
  refine mkdirs_inits hfails p (Or.inl t.root) fun q hq => ?_
  by_contra hne
  rw [not_or] at hne
  exact h ⟨q, hq, hne⟩

/-- In a directory one is made, or none. -/
lemma mkdirAll_child (hdir : t.node p = some .dir) {q : Path} (hq : q ≠ p ++ [c]) :
    (mkdirAll fails t (p ++ [c])).2.node q = t.node q := by
  rcases mkdirAll_frame fails t (p ++ [c]) q with hsame | ⟨hnone, -, hpre⟩
  · exact hsame
  · rcases List.prefix_concat_iff.1 hpre with heq | hpre
    · exact absurd heq hq
    · rw [dir_above hpre hdir] at hnone
      cases hnone

lemma not_blocked_child (hdir : t.node p = some .dir) (habsent : t.node (p ++ [c]) = none) :
    ¬ Blocked t (p ++ [c]) := by
  rintro ⟨q, hpre, hne, hnotdir⟩
  rcases List.prefix_concat_iff.1 hpre with rfl | hpre
  · exact hne habsent
  · exact hnotdir (dir_above hpre hdir)

/-- It is made, unless a call fails. -/
lemma mkdirAll_new (fails : Path → Bool) (hdir : t.node p = some .dir)
    (habsent : t.node (p ++ [c]) = none) :
    ∃ made t', t.mkdirAll fails (p ++ [c]) = (made, t') ∧
      (∀ q, q ≠ p ++ [c] → t'.node q = t.node q) ∧
      (made = true → t'.node (p ++ [c]) = some .dir) ∧ (made = false → ∃ q, fails q = true) := by
  refine ⟨_, _, rfl, fun q hq => mkdirAll_child hdir hq,
    fun hmade => mkdirAll_of_true hmade List.prefix_rfl, fun hmade => ?_⟩
  by_contra hnone
  have hfails : ∀ q, fails q = false := by simpa using hnone
  cases hmade.symm.trans (mkdirAll_of_not_blocked hfails (not_blocked_child hdir habsent))

end Tree
end Files
