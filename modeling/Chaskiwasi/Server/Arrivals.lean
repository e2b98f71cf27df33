import Chaskiwasi.Server.Sample

/-!
# Every arrival is decided about

One mark in memory, `arrivalHighWater`, stands for what filing has already decided about: the
arrival path looks above it only, and raises it as it goes; reconciliation raises it to the highest
UID it listed.  So a message is decided about in one of two ways.  The arrival path judges it, by
the active contacts, and rings or moves it to Held; or reconciliation examines it, by the whole
table, and moves it to Held or leaves it where it is, and then the arrival path never sees it.

`World.Accounted` is what the mark means: whatever arrived and is not decided about is in INBOX,
above the mark, and no message was judged twice.  `World.Covers` says how far the pass that holds
the mutex has come, and `accounted_step` that one step keeps both, as long as INBOX keeps its
UIDVALIDITY.  The mark belongs to no UIDVALIDITY: where INBOX is renumbered from low values, what
arrives next is below it and is not looked at.
-/

namespace Chaskiwasi

/-! ## What the log says of a message -/

/-- The arrival path judged the message, and carried its judgement out. -/
def Note.judges (m : Raw) : Note → Bool
  | .kept raw _ => raw = m
  | .held raw => raw = m
  | _ => false

/-- How often the arrival path judged the message. -/
def judgements (m : Raw) (log : List Note) : ℕ := log.countP (Note.judges m)

/-- Reconciliation examined the message: it left it in INBOX, or moved it to Held. -/
def Examined (m : Raw) (log : List Note) : Prop := .left m ∈ log ∨ .quarantined m ∈ log

/-- The message reached INBOX: it was delivered or appended, or a release moved it there. -/
def Arrived (m : Raw) (log : List Note) : Prop := .arrived m ∈ log ∨ .released m ∈ log

def Decided (m : Raw) (log : List Note) : Prop := 0 < judgements m log ∨ Examined m log

def Undecided (m : Raw) (log : List Note) : Prop := Arrived m log ∧ ¬ Decided m log

/-- The log as it was when the arrival path last fetched. -/
def beforeFetch (log : List Note) : List Note := (log.dropWhile fun n => n ≠ .fetched).tail

/-- A note that reports neither an arrival nor a judgement. -/
def Note.Plain : Note → Prop
  | .left _ | .fetched | .returned .. | .responded .. => True
  | _ => False

section Log

variable {m : Raw} {n : Note} {log : List Note}

lemma beforeFetch_cons (h : n ≠ .fetched) : beforeFetch (n :: log) = beforeFetch log := by
  simp [beforeFetch, h]

lemma beforeFetch_fetched : beforeFetch (.fetched :: log) = log := by
  simp [beforeFetch]

lemma judgements_cons :
    judgements m (n :: log) = judgements m log + if n.judges m then 1 else 0 := by
  rw [judgements, List.countP_cons, judgements]

lemma Decided.cons (h : Decided m log) : Decided m (n :: log) := by
  rcases h with hjudged | hleft | hquarantined
  · left
    rw [judgements_cons]
    omega
  · exact Or.inr (Or.inl (List.mem_cons_of_mem _ hleft))
  · exact Or.inr (Or.inr (List.mem_cons_of_mem _ hquarantined))

lemma decided_of_judges (h : n.judges m = true) : Decided m (n :: log) := by
  left
  rw [judgements_cons, if_pos h]
  omega

/-- A message that is undecided after a note was undecided before, unless the note is its
arrival. -/
lemma Undecided.of_cons (h : Undecided m (n :: log)) :
    Undecided m log ∨ n = .arrived m ∨ n = .released m := by
  obtain ⟨harrived, hnot⟩ := h
  have hbefore : ¬ Decided m log := fun hdecided => hnot hdecided.cons
  rcases harrived with hn | hn
  · rcases List.mem_cons.1 hn with heq | hn
    · exact Or.inr (Or.inl heq.symm)
    · exact Or.inl ⟨Or.inl hn, hbefore⟩
  · rcases List.mem_cons.1 hn with heq | hn
    · exact Or.inr (Or.inr heq.symm)
    · exact Or.inl ⟨Or.inr hn, hbefore⟩

lemma Note.Plain.undecided (hn : n.Plain) (h : Undecided m (n :: log)) : Undecided m log := by
  rcases h.of_cons with hbefore | rfl | rfl
  · exact hbefore
  · exact hn.elim
  · exact hn.elim

lemma Note.Plain.judges (hn : n.Plain) : n.judges m = false := by
  cases n <;> first | rfl | exact hn.elim

end Log

/-! ## What the mark means -/

/-- What arrived and is not decided about is in INBOX, above the mark; no message was judged twice;
and whenever `HandleNotify` returned nil, everything that had arrived by its last fetch was decided
about. -/
structure World.Accounted (w : World) : Prop where
  mark : w.highWater ≤ w.inbox.last
  waiting : ∀ m, Undecided m w.log → m ∈ w.inbox.msgs ∧ w.highWater < m.uid
  judged : ∀ m, 0 < judgements m w.log →
    m.uid ≤ w.highWater ∨ m ∉ w.inbox.msgs ∧ m.uid ≤ w.inbox.last
  once : ∀ m, judgements m w.log ≤ 1
  returns : ∀ newer older, w.log = newer ++ .returned .handleNotify true :: older →
    ∀ m, Arrived m (beforeFetch older) → Decided m older

namespace World

variable {w w' : World} {raw : Raw} {n : Note} {uid : UID}

lemma Accounted.of_eq (h : w.Accounted) (hinbox : w'.inbox = w.inbox)
    (hmark : w'.highWater = w.highWater) (hlog : w'.log = w.log) : w'.Accounted where
  mark := by rw [hinbox, hmark]; exact h.mark
  waiting := by rw [hinbox, hmark, hlog]; exact h.waiting
  judged := by rw [hinbox, hmark, hlog]; exact h.judged
  once := by rw [hlog]; exact h.once
  returns := by rw [hlog]; exact h.returns

/-- One more note: what the log said about the returns it still says. -/
lemma Accounted.returns_cons (h : w.Accounted)
    (hreturned : n = .returned .handleNotify true →
      ∀ m, Arrived m (beforeFetch w.log) → Decided m w.log) :
    ∀ newer older, n :: w.log = newer ++ .returned .handleNotify true :: older →
      ∀ m, Arrived m (beforeFetch older) → Decided m older := by
  intro newer older hlog
  rcases List.cons_eq_append_iff.1 hlog with ⟨rfl, heq⟩ | ⟨rest, rfl, hrest⟩
  · obtain ⟨rfl, rfl⟩ := List.cons.inj heq
    exact hreturned rfl
  · exact h.returns rest older hrest

lemma Accounted.plain (h : w.Accounted) (hn : n.Plain)
    (hreturned : n = .returned .handleNotify true →
      ∀ m, Arrived m (beforeFetch w.log) → Decided m w.log) : (w.note n).Accounted where
  mark := h.mark
  waiting := fun m hm => h.waiting m (hn.undecided hm)
  judged := by
    intro m hm
    rw [note_log, judgements_cons, hn.judges] at hm
    exact h.judged m hm
  once := by
    intro m
    rw [note_log, judgements_cons, hn.judges]
    exact h.once m
  returns := h.returns_cons hreturned

/-- The mark is raised, below whatever is undecided. -/
lemma Accounted.raise (h : w.Accounted) (hlast : uid ≤ w.inbox.last)
    (hbelow : ∀ m, Undecided m w.log → uid < m.uid) : (w.raise uid).Accounted where
  mark := max_le h.mark hlast
  waiting := fun m hm => ⟨(h.waiting m hm).1, max_lt (h.waiting m hm).2 (hbelow m hm)⟩
  judged := fun m hm => (h.judged m hm).imp_left fun hle => le_max_of_le_left hle
  once := h.once
  returns := h.returns

/-- A message enters INBOX. -/
lemma Accounted.push (h : w.Accounted) (hfresh : w.inbox.last < raw.uid) (held : Folder)
    (hn : n = .arrived raw ∨ n = .released raw) :
    World.Accounted
      { w with inbox := w.inbox.push raw hfresh, held := held, log := n :: w.log } := by
  have hplain : ∀ m, n.judges m = false := by
    rintro m
    rcases hn with rfl | rfl <;> rfl
  refine ⟨le_trans h.mark (le_of_lt hfresh), fun m hm => ?_, fun m hm => ?_, fun m => ?_,
    h.returns_cons (by rcases hn with rfl | rfl <;> simp)⟩
  · rcases hm.of_cons with hbefore | harrival
    · obtain ⟨hmem, habove⟩ := h.waiting m hbefore
      exact ⟨(Folder.mem_push (h := hfresh)).2 (Or.inl hmem), habove⟩
    · have heq : m = raw := by rcases hn with rfl | rfl <;> simpa [eq_comm] using harrival
      rw [heq]
      exact ⟨(Folder.mem_push (h := hfresh)).2 (Or.inr rfl), lt_of_le_of_lt h.mark hfresh⟩
  · rw [judgements_cons, hplain] at hm
    refine (h.judged m hm).imp_right fun ⟨hout, hle⟩ => ?_
    refine ⟨fun hin => ?_, le_trans hle (le_of_lt hfresh)⟩
    rcases (Folder.mem_push (h := hfresh)).1 hin with hin | rfl
    · exact hout hin
    · exact absurd hfresh (not_lt.2 hle)
  · rw [judgements_cons, hplain]
    exact h.once m

/-- A message leaves INBOX: reconciliation moved it, or the arrival path, which looks above the mark
only. -/
lemma Accounted.remove (h : w.Accounted) (hraw : raw ∈ w.inbox.msgs) (held : Folder)
    (hn : n = .held raw ∧ w.highWater < raw.uid ∨ n = .quarantined raw) :
    World.Accounted
      { w with inbox := w.inbox.remove raw.uid, held := held, log := n :: w.log } := by
  have hjudges : ∀ m, n.judges m = true → m = raw ∧ judgements m w.log = 0 := by
    intro m hm
    rcases hn with ⟨rfl, habove⟩ | rfl
    · obtain rfl : raw = m := by simpa [Note.judges] using hm
      refine ⟨rfl, Nat.eq_zero_of_not_pos fun hpos => ?_⟩
      rcases h.judged raw hpos with hle | ⟨hout, -⟩
      · exact absurd habove (not_lt.2 hle)
      · exact hout hraw
    · cases hm
  have hdecided : Decided raw (n :: w.log) := by
    rcases hn with ⟨rfl, -⟩ | rfl
    · exact decided_of_judges (by simp [Note.judges])
    · exact Or.inr (Or.inr (List.mem_cons_self ..))
  have hout : ∀ m, m = raw → m ∉ (w.inbox.remove raw.uid).msgs := by
    rintro m rfl hin
    exact (Folder.mem_remove.1 hin).2 rfl
  refine ⟨h.mark, fun m hm => ?_, fun m hm => ?_, fun m => ?_,
    h.returns_cons (by rcases hn with ⟨rfl, -⟩ | rfl <;> simp)⟩
  · have hne : m ≠ raw := by
      rintro rfl
      exact hm.2 hdecided
    have hbefore : Undecided m w.log := by
      rcases hm.of_cons with hbefore | harrival
      · exact hbefore
      · rcases hn with ⟨rfl, -⟩ | rfl <;> simp at harrival
    obtain ⟨hmem, habove⟩ := h.waiting m hbefore
    refine ⟨Folder.mem_remove.2 ⟨hmem, fun huid => hne ?_⟩, habove⟩
    exact w.inbox.eq_of_uid_eq hmem hraw huid
  · rw [judgements_cons] at hm
    by_cases hj : n.judges m = true
    · obtain ⟨rfl, -⟩ := hjudges m hj
      exact Or.inr ⟨hout m rfl, w.inbox.le_last m hraw⟩
    · rw [if_neg hj] at hm
      exact (h.judged m hm).imp_right fun ⟨hnot, hle⟩ =>
        ⟨fun hin => hnot (Folder.mem_remove.1 hin).1, hle⟩
  · rw [judgements_cons]
    by_cases hj : n.judges m = true
    · rw [if_pos hj, (hjudges m hj).2]
    · rw [if_neg hj]
      exact h.once m

/-- The arrival path leaves a message in INBOX: the first above the mark. -/
lemma Accounted.keep (h : w.Accounted) (hraw : raw ∈ w.inbox.msgs) (habove : w.highWater < raw.uid)
    (hfirst : ∀ m, Undecided m w.log → m = raw ∨ raw.uid < m.uid) (contactID : String) :
    ((w.note (.kept raw contactID)).raise raw.uid).Accounted := by
  have hunjudged : judgements raw w.log = 0 := by
    refine Nat.eq_zero_of_not_pos fun hpos => ?_
    rcases h.judged raw hpos with hle | ⟨hout, -⟩
    · exact absurd habove (not_lt.2 hle)
    · exact hout hraw
  refine ⟨max_le h.mark (w.inbox.le_last raw hraw), fun m hm => ?_, fun m hm => ?_, fun m => ?_,
    h.returns_cons (by simp)⟩
  · have hne : m ≠ raw := by
      rintro rfl
      exact hm.2 (decided_of_judges (by simp [Note.judges]))
    have hbefore : Undecided m w.log := by
      rcases hm.of_cons with hbefore | harrival
      · exact hbefore
      · simp at harrival
    obtain ⟨hmem, hmark⟩ := h.waiting m hbefore
    exact ⟨hmem, max_lt hmark ((hfirst m hbefore).resolve_left hne)⟩
  · by_cases heq : raw = m
    · rw [← heq]
      exact Or.inl (le_max_right _ _)
    · rw [raise_log, note_log, judgements_cons, if_neg (by simpa [Note.judges] using heq)] at hm
      exact (h.judged m hm).imp_left fun hle => le_max_of_le_left hle
  · rw [raise_log, note_log, judgements_cons]
    by_cases heq : raw = m
    · rw [← heq, hunjudged]
      split_ifs <;> omega
    · rw [if_neg (by simpa [Note.judges] using heq)]
      exact h.once m

/-! ## How far a pass has come -/

/-- Reconciliation has yet to examine `rest`: of what it listed, or above all of it, is whatever is
undecided. -/
structure Listed (w : World) (rest : List Raw) (maxUID : UID) : Prop where
  maxUID_le : maxUID ≤ w.inbox.last
  rest_le : ∀ x ∈ rest, x.uid ≤ w.inbox.last
  ahead : ∀ m, Undecided m w.log → m ∈ rest ∨ maxUID < m.uid ∧ ∀ x ∈ rest, x.uid < m.uid

/-- The arrival path has yet to judge `rest`. -/
structure Fetched (w : World) (rest : List Raw) (full : Bool) : Prop where
  sorted : Keyed.Ascending Raw.uid rest
  mem : ∀ x ∈ rest, x ∈ w.inbox.msgs ∧ w.highWater < x.uid
  ahead : ∀ m, Undecided m w.log → m ∈ rest ∨ ∀ x ∈ rest, x.uid < m.uid
  /-- A page that was not full held everything that had arrived. -/
  complete : full = false → ∀ m, Arrived m (beforeFetch w.log) → ¬ Decided m w.log → m ∈ rest

/-- How far the pass that holds the mutex has come. -/
def Covers (w : World) (caller : Caller) : Pass → Prop
  | .list _ => caller ≠ .job .handleNotify
  | .sweep _ rest maxUID => caller ≠ .job .handleNotify ∧ w.Listed rest maxUID
  | .quarantine _ raw rest maxUID =>
      caller ≠ .job .handleNotify ∧ w.Listed (raw :: rest) maxUID
  | .file rest full => w.Fetched rest full
  | .hold raw rest full => w.Fetched (raw :: rest) full
  | _ => True

/-- What happens outside of a pass: something may enter INBOX, and a response is made. -/
structure Outside (w w' : World) : Prop where
  inbox : ∀ m ∈ w.inbox.msgs, m ∈ w'.inbox.msgs
  last : w.inbox.last ≤ w'.inbox.last
  highWater : w'.highWater = w.highWater
  undecided : ∀ m, Undecided m w'.log → Undecided m w.log ∨ w.inbox.last < m.uid
  decided : ∀ m, Decided m w.log → Decided m w'.log
  fetch : beforeFetch w'.log = beforeFetch w.log

lemma Outside.of_eq (hinbox : w'.inbox = w.inbox) (hmark : w'.highWater = w.highWater)
    (hlog : w'.log = w.log) : w.Outside w' where
  inbox := by rw [hinbox]; exact fun _ hm => hm
  last := by rw [hinbox]
  highWater := hmark
  undecided := by rw [hlog]; exact fun _ hm => Or.inl hm
  decided := by rw [hlog]; exact fun _ hm => hm
  fetch := by rw [hlog]

lemma Listed.outside {rest : List Raw} {maxUID : UID} (h : w.Listed rest maxUID)
    (hout : w.Outside w') : w'.Listed rest maxUID where
  maxUID_le := le_trans h.maxUID_le hout.last
  rest_le := fun x hx => le_trans (h.rest_le x hx) hout.last
  ahead := by
    intro m hm
    rcases hout.undecided m hm with hbefore | hnew
    · exact h.ahead m hbefore
    · exact Or.inr ⟨lt_of_le_of_lt h.maxUID_le hnew,
        fun x hx => lt_of_le_of_lt (h.rest_le x hx) hnew⟩

lemma Fetched.outside {rest : List Raw} {full : Bool} (h : w.Fetched rest full)
    (hout : w.Outside w') : w'.Fetched rest full where
  sorted := h.sorted
  mem := by
    intro x hx
    rw [hout.highWater]
    exact ⟨hout.inbox x (h.mem x hx).1, (h.mem x hx).2⟩
  ahead := by
    intro m hm
    rcases hout.undecided m hm with hbefore | hnew
    · exact h.ahead m hbefore
    · exact Or.inr fun x hx => lt_of_le_of_lt (w.inbox.le_last x (h.mem x hx).1) hnew
  complete := by
    intro hfull m harrived hnot
    rw [hout.fetch] at harrived
    exact h.complete hfull m harrived fun hdecided => hnot (hout.decided m hdecided)

lemma Covers.outside {caller : Caller} {pc : Pass} (h : w.Covers caller pc)
    (hout : w.Outside w') : w'.Covers caller pc := by
  cases pc with
  | list bound => exact h
  | sweep bound rest maxUID => exact ⟨h.1, h.2.outside hout⟩
  | quarantine bound raw rest maxUID => exact ⟨h.1, h.2.outside hout⟩
  | file rest full => exact Fetched.outside h hout
  | hold raw rest full => exact Fetched.outside h hout
  | fetch | findHeld | check | change | unhold => trivial

/-! ### Reconciliation goes on -/

lemma Accounted.listed (h : w.Accounted) : w.Listed w.inbox.msgs 0 where
  maxUID_le := Fin.zero_le _
  rest_le := w.inbox.le_last
  ahead := fun m hm => Or.inl (h.waiting m hm).1

lemma Listed.suspect {rest : List Raw} {maxUID : UID} (h : w.Listed (raw :: rest) maxUID) :
    w.Listed (raw :: rest) (max maxUID raw.uid) where
  maxUID_le := max_le h.maxUID_le (h.rest_le raw (List.mem_cons_self ..))
  rest_le := h.rest_le
  ahead := by
    intro m hm
    refine (h.ahead m hm).imp_right fun ⟨hmax, hrest⟩ => ⟨max_lt hmax ?_, hrest⟩
    exact hrest raw (List.mem_cons_self ..)

/-- The first of the list is decided about, in one way or the other. -/
lemma Listed.tail {rest : List Raw} {maxUID : UID} (h : w.Listed (raw :: rest) maxUID)
    (hlast : w.inbox.last ≤ w'.inbox.last)
    (hundecided : ∀ m, Undecided m w'.log → Undecided m w.log ∧ m ≠ raw) :
    w'.Listed rest maxUID where
  maxUID_le := le_trans h.maxUID_le hlast
  rest_le := fun x hx => le_trans (h.rest_le x (List.mem_cons_of_mem _ hx)) hlast
  ahead := by
    intro m hm
    obtain ⟨hbefore, hne⟩ := hundecided m hm
    rcases h.ahead m hbefore with hmem | ⟨hmax, hrest⟩
    · exact Or.inl ((List.mem_cons.1 hmem).resolve_left hne)
    · exact Or.inr ⟨hmax, fun x hx => hrest x (List.mem_cons_of_mem _ hx)⟩

/-! ### The arrival path goes on -/

lemma Accounted.fetched (h : w.Accounted) :
    (w.note .fetched).Fetched (w.inbox.fetchAbove w.highWater arrivalBatchSize)
      ((w.inbox.fetchAbove w.highWater arrivalBatchSize).length = arrivalBatchSize) where
  sorted := w.inbox.fetchAbove_sorted _ _
  mem := fun _ hx => Folder.mem_of_mem_fetchAbove hx
  ahead := by
    intro m hm
    obtain ⟨hmem, habove⟩ := h.waiting m (Note.Plain.undecided (n := .fetched) trivial hm)
    exact Folder.mem_fetchAbove_or_lt hmem habove
  complete := by
    intro hfull m harrived hnot
    rw [note_log, beforeFetch_fetched] at harrived
    obtain ⟨hmem, habove⟩ := h.waiting m ⟨harrived, fun hdecided => hnot hdecided.cons⟩
    refine (Folder.mem_fetchAbove_or_full hmem habove).resolve_left ?_
    exact of_decide_eq_false hfull

/-- The first of the page is judged. -/
lemma Fetched.tail {rest : List Raw} {full : Bool} (h : w.Fetched (raw :: rest) full)
    (hinbox : ∀ x ∈ rest, raw.uid < x.uid → x ∈ w.inbox.msgs → x ∈ w'.inbox.msgs)
    (hmark : ∀ x ∈ rest, w.highWater < x.uid → raw.uid < x.uid → w'.highWater < x.uid)
    (hundecided : ∀ m, Undecided m w'.log → Undecided m w.log ∧ m ≠ raw)
    (hdecided : ∀ m, m = raw ∨ Decided m w.log → Decided m w'.log)
    (hfetch : beforeFetch w'.log = beforeFetch w.log) : w'.Fetched rest full where
  sorted := (List.pairwise_cons.1 h.sorted).2
  mem := by
    intro x hx
    obtain ⟨hmem, habove⟩ := h.mem x (List.mem_cons_of_mem _ hx)
    have hlater : raw.uid < x.uid := (List.pairwise_cons.1 h.sorted).1 x hx
    exact ⟨hinbox x hx hlater hmem, hmark x hx habove hlater⟩
  ahead := by
    intro m hm
    obtain ⟨hbefore, hne⟩ := hundecided m hm
    rcases h.ahead m hbefore with hmem | hrest
    · exact Or.inl ((List.mem_cons.1 hmem).resolve_left hne)
    · exact Or.inr fun x hx => hrest x (List.mem_cons_of_mem _ hx)
  complete := by
    intro hfull m harrived hnot
    rw [hfetch] at harrived
    have hmem := h.complete hfull m harrived fun hbefore => hnot (hdecided m (Or.inr hbefore))
    exact (List.mem_cons.1 hmem).resolve_left fun heq => hnot (hdecided m (Or.inl heq))

lemma Fetched.first {rest : List Raw} {full : Bool} (h : w.Fetched (raw :: rest) full) :
    ∀ m, Undecided m w.log → m = raw ∨ raw.uid < m.uid := by
  intro m hm
  rcases h.ahead m hm with hmem | hrest
  · rcases List.mem_cons.1 hmem with heq | hmem
    · exact Or.inl heq
    · exact Or.inr ((List.pairwise_cons.1 h.sorted).1 m hmem)
  · exact Or.inr (hrest raw (List.mem_cons_self ..))

/-! ## What a move does -/

section Moves

variable {v : World} {note : Raw → Note} {reply : Reply} {fresh : UID}

lemma Accounted.moveOut (h : w.Accounted) (hv : w.moveOut uid note reply fresh = some v)
    (hn : note = .held ∧ w.highWater < uid ∨ note = .quarantined) : v.Accounted := by
  rcases moveOut_cases hv with ⟨rfl, -⟩ | ⟨held, rfl, -⟩ | ⟨x, hx, rfl, held, rfl⟩
  · exact h
  · exact h.of_eq rfl rfl rfl
  · refine h.remove hx held ?_
    rcases hn with ⟨rfl, habove⟩ | rfl
    · exact Or.inl ⟨rfl, habove⟩
    · exact Or.inr rfl

lemma undecided_of_moveOut (hv : w.moveOut uid note reply fresh = some v)
    (hn : note = .held ∨ note = .quarantined) {m : Raw} (hm : Undecided m v.log) :
    Undecided m w.log := by
  rcases moveOut_cases hv with ⟨rfl, -⟩ | ⟨held, rfl, -⟩ | ⟨x, -, -, held, rfl⟩
  · exact hm
  · exact hm
  · rcases hm.of_cons with hbefore | harrival
    · exact hbefore
    · rcases hn with rfl | rfl <;> simp at harrival

lemma beforeFetch_of_moveOut (hv : w.moveOut uid note reply fresh = some v)
    (hn : ∀ x, note x ≠ .fetched) : beforeFetch v.log = beforeFetch w.log := by
  rcases moveOut_cases hv with ⟨rfl, -⟩ | ⟨held, rfl, -⟩ | ⟨x, -, -, held, rfl⟩
  · rfl
  · rfl
  · exact beforeFetch_cons (hn x)

lemma mem_of_moveOut (hv : w.moveOut uid note reply fresh = some v) {x : Raw}
    (hx : x ∈ w.inbox.msgs) (hne : x.uid ≠ uid) : x ∈ v.inbox.msgs := by
  rcases moveOut_cases hv with ⟨rfl, -⟩ | ⟨held, rfl, -⟩ | ⟨y, -, -, held, rfl⟩
  · exact hx
  · exact hx
  · exact Folder.mem_remove.2 ⟨hx, hne⟩

/-- What the arrival path moved is judged. -/
lemma decided_of_moveOut (hv : w.moveOut raw.uid .held .ok fresh = some v)
    (hraw : raw ∈ w.inbox.msgs) {m : Raw} (hm : m = raw ∨ Decided m w.log) : Decided m v.log := by
  rcases moveOut_cases hv with ⟨-, hnone⟩ | ⟨held, -, hne⟩ | ⟨x, hx, huid, held, rfl⟩
  · exact absurd rfl (hnone rfl raw hraw)
  · exact absurd rfl hne
  · obtain rfl : x = raw := w.inbox.eq_of_uid_eq hx hraw huid
    rcases hm with rfl | hm
    · exact decided_of_judges (by simp [Note.judges])
    · exact hm.cons

lemma Accounted.moveIn (h : w.Accounted) (hv : w.moveIn uid reply fresh = some v) :
    v.Accounted := by
  rcases moveIn_cases hv with rfl | ⟨x, -, -, hfresh, held, -, rfl⟩
  · exact h
  · exact h.push hfresh held (Or.inr rfl)

lemma Accounted.finish (h : w.Accounted) {caller : Caller} {ok : Bool}
    (hreturned : ok = true → caller = .job .handleNotify →
      ∀ m, Arrived m (beforeFetch w.log) → Decided m w.log) : (w.finish caller ok).Accounted := by
  cases caller with
  | job j =>
      refine (h.plain (n := .returned j ok) trivial fun heq => ?_).of_eq rfl rfl rfl
      obtain ⟨rfl, rfl⟩ := Note.returned.inj heq
      exact hreturned rfl rfl
  | sync k => exact h.of_eq rfl rfl rfl

end Moves

/-! ## One step -/

/-- The mark means what it should, and so does the place of the pass that holds the mutex. -/
structure Tracked (w : World) : Prop where
  accounted : w.Accounted
  pass : ∀ caller pc, w.pass = some ⟨caller, pc⟩ → w.Covers caller pc

lemma Tracked.outside (h : w.Tracked) (haccounted : w'.Accounted) (hout : w.Outside w')
    (hpass : w'.pass = w.pass) : w'.Tracked :=
  ⟨haccounted, fun caller pc hpc => (h.pass caller pc (hpass ▸ hpc)).outside hout⟩

lemma Tracked.of_eq (h : w.Tracked) (hinbox : w'.inbox = w.inbox)
    (hmark : w'.highWater = w.highWater) (hlog : w'.log = w.log) (hpass : w'.pass = w.pass) :
    w'.Tracked :=
  h.outside (h.accounted.of_eq hinbox hmark hlog) (.of_eq hinbox hmark hlog) hpass

lemma Accounted.goto (h : w.Accounted) {caller : Caller} {pc : Pass} (hpc : w.Covers caller pc) :
    (w.goto caller pc).Tracked := by
  refine ⟨h.of_eq rfl rfl rfl, fun caller' pc' heq => ?_⟩
  obtain ⟨rfl, rfl⟩ := Running.mk.inj (Option.some.inj heq)
  exact hpc.outside (.of_eq rfl rfl rfl)

lemma Accounted.ended (h : w.Accounted) {caller : Caller} {ok : Bool}
    (hreturned : ok = true → caller = .job .handleNotify →
      ∀ m, Arrived m (beforeFetch w.log) → Decided m w.log) : (w.finish caller ok).Tracked :=
  ⟨h.finish hreturned, by simp⟩

lemma Accounted.failed (h : w.Accounted) (caller : Caller) : (w.finish caller false).Tracked :=
  h.ended fun hok => nomatch hok

end World

variable [Runes] {cfg : Config} {w w' : World}

/-- One step of the pass. -/
lemma PassStep.tracked {caller : Caller} {pc : Pass} (h : w.Accounted) (hpc : w.Covers caller pc)
    (hstep : PassStep cfg w caller pc w') : w'.Tracked := by
  have hmutate : ∀ io actor m, World.Accounted
      { w with table := (mutate cfg.maxContacts io actor m w.table).2 } :=
    fun _ _ _ => h.of_eq rfl rfl rfl
  cases hstep with
  | aborted => exact h.failed caller
  | listed bound => exact h.goto ⟨hpc, h.listed⟩
  | swept bound maxUID =>
      have hbelow : ∀ m, Undecided m w.log → maxUID < m.uid := by
        intro m hm
        exact ((hpc.2.ahead m hm).resolve_left (by simp)).1
      exact (h.raise hpc.2.maxUID_le hbelow).ended fun _ heq => absurd heq hpc.1
  | suspected bound raw rest maxUID hq => exact h.goto ⟨hpc.1, hpc.2.suspect⟩
  | left bound raw rest maxUID hq =>
      refine (h.plain (n := .left raw) trivial (by simp)).goto ⟨hpc.1, ?_⟩
      refine hpc.2.suspect.tail (le_refl _) fun m hm =>
        ⟨Note.Plain.undecided (n := .left raw) trivial hm, ?_⟩
      rintro rfl
      exact hm.2 (Or.inr (Or.inl (List.mem_cons_self ..)))
  | quarantined bound raw rest maxUID fresh v hv =>
      have hv' := h.moveOut hv (Or.inr rfl)
      refine hv'.goto ⟨hpc.1, hpc.2.tail (World.moveOut_advances hv).1.last fun m hm => ?_⟩
      refine ⟨World.undecided_of_moveOut hv (Or.inr rfl) hm, ?_⟩
      rintro rfl
      exact (World.ne_of_moveOut_ok hv (hv'.waiting m hm).1).2 rfl
  | quarantineFailed bound raw rest maxUID fresh reply v hv =>
      exact (h.moveOut hv (Or.inr rfl)).failed caller
  | fetched raws hraws =>
      subst hraws
      exact (h.plain (n := .fetched) trivial (by simp)).goto h.fetched
  | refetch => exact h.goto trivial
  | filed =>
      refine h.ended fun _ _ m harrived => ?_
      by_contra hnot
      exact absurd (World.Fetched.complete hpc rfl m harrived hnot) (by simp)
  | kept raw rest full contact hsender =>
      obtain ⟨hraw, habove⟩ := World.Fetched.mem hpc raw (List.mem_cons_self ..)
      refine (h.keep hraw habove (World.Fetched.first hpc) contact.id).goto ?_
      refine World.Fetched.tail hpc (fun _ _ _ hx => hx) (fun _ _ => max_lt) (fun m hm => ?_)
        (fun m hm => ?_) (beforeFetch_cons (by simp))
      · refine ⟨?_, ?_⟩
        · rcases hm.of_cons with hbefore | harrival
          · exact hbefore
          · simp at harrival
        · rintro rfl
          exact hm.2 (decided_of_judges (by simp [Note.judges]))
      · rcases hm with rfl | hm
        · exact decided_of_judges (by simp [Note.judges])
        · exact hm.cons
  | refused raw rest full hsender => exact h.goto hpc
  | held raw rest full fresh v hv =>
      obtain ⟨hraw, habove⟩ := World.Fetched.mem hpc raw (List.mem_cons_self ..)
      have hadv := World.moveOut_advances hv
      have hv' := h.moveOut hv (Or.inl ⟨rfl, habove⟩)
      have hundecided : ∀ m, Undecided m v.log → Undecided m w.log ∧ m ≠ raw := by
        intro m hm
        refine ⟨World.undecided_of_moveOut hv (Or.inl rfl) hm, ?_⟩
        rintro rfl
        exact (World.ne_of_moveOut_ok hv (hv'.waiting m hm).1).2 rfl
      have hfetch : beforeFetch v.log = beforeFetch w.log :=
        World.beforeFetch_of_moveOut hv (fun _ => by simp)
      have hlast : raw.uid ≤ v.inbox.last := le_trans (w.inbox.le_last raw hraw) hadv.1.last
      refine (hv'.raise hlast fun m hm => ?_).goto ?_
      · obtain ⟨hbefore, hne⟩ := hundecided m hm
        exact (World.Fetched.first hpc m hbefore).resolve_left hne
      · refine World.Fetched.tail hpc (fun x _ hlater hx => ?_) (fun x _ hx => ?_) hundecided
          (fun m hm => World.decided_of_moveOut hv hraw hm) hfetch
        · exact World.mem_of_moveOut hv hx (ne_of_gt hlater)
        · exact max_lt (lt_of_eq_of_lt hadv.2.1 hx)
  | holdFailed raw rest full fresh reply v hv =>
      have habove := (World.Fetched.mem hpc raw (List.mem_cons_self ..)).2
      exact (h.moveOut hv (Or.inl ⟨rfl, habove⟩)).failed caller
  | found | checked | confirmed | unchanged => exact h.goto trivial
  | changed rel raw sender actor m io event hm hok =>
      exact (hmutate io actor m).goto trivial
  | changeFailed rel raw sender actor m io =>
      exact (hmutate io actor m).failed caller
  | unheld raw fresh v hv => exact (h.moveIn hv).goto trivial
  | unholdFailed raw fresh reply v hv => exact (h.moveIn hv).failed caller

/-- One step of a sync. -/
lemma SyncStep.tracked {k : ℕ} {pc : Sync} (h : w.Tracked) (hstep : SyncStep cfg w k pc w') :
    w'.Tracked := by
  cases hstep with
  | called cursor bound hfree =>
      have hcovers : w.Covers (.sync k) (.list bound) := by simp [World.Covers]
      exact (h.accounted.goto hcovers).of_eq rfl rfl rfl rfl
  | responded uidValidity asm sources more =>
      let n : Note := .responded k ⟨uidValidity, asm.lastUID, asm.letters, more, sources⟩
      have hnoted : (w.note n).Tracked := by
        refine h.outside (h.accounted.plain (n := n) trivial (by simp [n])) ?_ rfl
        exact ⟨fun _ hm => hm, le_refl _, rfl,
          fun m hm => Or.inl (Note.Plain.undecided (n := n) trivial hm), fun _ hm => hm.cons,
          beforeFetch_cons (by simp [n])⟩
      exact hnoted.of_eq rfl rfl rfl rfl
  | _ => exact h.of_eq rfl rfl rfl rfl

/-- **The step lemma of the mark.**  While INBOX keeps its UIDVALIDITY, every step keeps it. -/
theorem tracked_step {act : Act} (h : w.Tracked) (hkeeps : act.Keeps)
    (hstep : step cfg w act = some w') : w'.Tracked := by
  cases worldStep_cases hstep with
  | arrived raw hfresh =>
      refine h.outside (h.accounted.push hfresh w.held (Or.inl rfl)) ?_ rfl
      refine ⟨fun m hm => (Folder.mem_push (h := hfresh)).2 (Or.inl hm), le_of_lt hfresh, rfl,
        fun m hm => ?_, fun _ hm => hm.cons, beforeFetch_cons (by simp)⟩
      refine hm.of_cons.imp_right fun harrival => ?_
      obtain rfl : raw = m := by simpa using harrival
      exact hfresh
  | intoHeld | mutated | requested => exact h.of_eq rfl rfl rfl rfl
  | renumbered => exact hkeeps.elim
  | called j hfree =>
      cases j with
      | reconcile =>
          have hcovers : w.Covers (.job .reconcile) (.list none) := by simp [World.Covers]
          exact h.accounted.goto hcovers
      | handleNotify => exact h.accounted.goto trivial
      | release rel uid => exact h.accounted.goto trivial
  | passed reply fresh io caller pc w' hpass hstep =>
      exact (passStep_cases hstep).tracked h.accounted (h.pass _ _ hpass)
  | synced k reply skeleton pc w' hpc hsync => exact hsync.tracked h

/-! ## Along a run -/

omit [Runes] in
lemma World.AtRest.tracked (hw : w.AtRest) (hmark : w.highWater ≤ w.inbox.last) : w.Tracked where
  pass := by simp [hw.pass]
  accounted :=
    { mark := hmark
      waiting := by simp [hw.log, Undecided, Arrived]
      judged := by simp [hw.log, judgements]
      once := by simp [hw.log, judgements]
      returns := by simp [hw.log] }

/-- What `HandleNotify` is there for, in a process that has started: `Start` has returned nil in
`w₁`, before which INBOX may have been renumbered if `before` allows it, and whenever `HandleNotify`
has returned nil since, what arrived before its last fetch is settled. -/
def ArrivalsSettled (cfg : Config) (before : Act → Prop) (Settled : Raw → List Note → Prop) :
    Prop :=
  ∀ (w₀ w₁ w : World) (acts₁ acts₂ : List Act) (m : Raw) (newer older : List Note),
    w₀.AtRest → w₀.highWater = 0 → (∀ act ∈ acts₁, before act) → (∀ act ∈ acts₂, act.Keeps) →
    Run.run (step cfg) w₀ acts₁ = some w₁ → .returned .reconcile true ∈ w₁.log →
    Run.run (step cfg) w₁ acts₂ = some w →
    w.log = newer ++ .returned .handleNotify true :: older → ¬ Arrived m w₁.log →
    Arrived m (beforeFetch older) → Settled m older

/-- Judged by the arrival path once, or moved to Held by a reconciliation. -/
def JudgedOnce (m : Raw) (log : List Note) : Prop :=
  judgements m log = 1 ∨ .quarantined m ∈ log

variable {w₀ : World} {acts : List Act} {m : Raw} {newer older : List Note}

omit [Runes]

namespace Sample

/-- `Start`, on an empty mailbox. -/
def startRun : List Act := [.call .reconcile, passOk 0, passOk 0]

def notifyRun (steps : ℕ) : List Act := .call .handleNotify :: List.replicate steps (passOk 0)

/-- A letter from Rosa, who is in the list. -/
def firstLetter : Raw := delivered 1 "rosa@x"

/-- A reconciliation comes first and leaves it where it is. -/
def sweptRun : List Act :=
  [.arrive firstLetter, .call .reconcile, passOk 0, passOk 0, passOk 0] ++ notifyRun 2

def earlierLetter : Raw := delivered 5 "rosa@x"

/-- INBOX, renumbered from low values. -/
def renumbered : Folder := Folder.empty.push { earlierLetter with uid := 1 } (by decide)

/-- `Start`, a letter that is kept, and another UIDVALIDITY. -/
def renumberRun : List Act :=
  startRun ++ [.arrive earlierLetter] ++ notifyRun 3 ++ [.renumber 2 renumbered]

/-- A stranger's letter, the first to arrive after that. -/
def strangersLetter : Raw := delivered 2 "eve@x"

def unseenRun : List Act := .arrive strangersLetter :: notifyRun 2

end Sample

end Chaskiwasi
