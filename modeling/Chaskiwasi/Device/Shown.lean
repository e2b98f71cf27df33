import Chaskiwasi.Device.Seen

/-!
# What the stores show

Each of the device's stores is an object over its files.  Its readers give a `view`, and opening it
anew gives the view that the files hold.  A call that failed should leave both as they were
(`Unchanged`).

Most calls write first and let memory follow where the write returned true.  Then a call that fails
before the rename leaves everything alone, and one that fails after it leaves the new file under the
old memory.  `Resolve` with a reject and `Add` of the seen ring change memory first, and do not take
it back.  For each call there is a condition here, and a call that failed left the view as it was
exactly where the condition holds.
-/

namespace Chaskiwasi.Device

/-- What a store shows is as before, and so is what its files hold. -/
def Unchanged {σ ν : Type} (view : σ → ν) (opened : WriteOutcome → σ → σ) (s s' : σ) : Prop :=
  view s' = view s ∧ ∀ o, view (opened o s') = view s'

/-! ## The letters -/

namespace FileLetterStore

def unreadCount (s : FileLetterStore) : ℕ := s.index.countP Meta.unread

def count (s : FileLetterStore) : ℕ := s.index.length

/-- The newest letters, as far as their files can be read. -/
def listNewestFirst (s : FileLetterStore) (limit : ℕ) : List StoredLetter :=
  ((ordered s.index).filterMap fun m => s.load m.id).take limit

/-- Removes letters one after the other, and counts those that were; a removal that fails is passed
over. -/
def removeEach (os : String → WriteOutcome) (s : FileLetterStore) :
    List String → FileLetterStore × ℕ
  | [] => (s, 0)
  | id :: ids =>
      let (s, ok) := s.remove id (os id)
      let (s, removed) := removeEach os s ids
      (s, if ok then removed + 1 else removed)

/-- Removes the letters that stand beyond the newest `keep`. -/
def evictBeyond (s : FileLetterStore) (keep : ℕ) (os : String → WriteOutcome) :
    FileLetterStore × ℕ :=
  s.removeEach os (s.doomed keep)

structure View where
  get : String → Option StoredLetter
  listNewestFirst : ℕ → List StoredLetter
  unreadCount : ℕ
  count : ℕ

def view (s : FileLetterStore) : View := ⟨s.get, s.listNewestFirst, s.unreadCount, s.count⟩

variable {s : FileLetterStore} {l : Letter} {id : String} {ids : List String} {o : WriteOutcome}
  {os : String → WriteOutcome} {keep : ℕ} {m : Meta}

lemma Mirrors.tidy (h : s.Mirrors) : s.Tidy := ⟨h.ascending, h.nodup⟩

lemma Mirrors.perm (h : s.Mirrors) : s.index.Perm (scan s.files) :=
  (List.perm_ext_iff_of_nodup (List.Nodup.of_map _ h.nodup)
    (List.Nodup.of_map _ (nodup_scan h.ascending))).2 h.index

/-- A store whose memory mirrors its files shows what the files hold. -/
lemma Mirrors.view_opened (h : s.Mirrors) : s.opened.view = s.view := by
  have hload : s.opened.load = s.load := rfl
  have hordered : ordered s.opened.index = ordered s.index :=
    (ordered_eq h.nodup (nodup_scan h.ascending) h.index).symm
  have hget : s.opened.get = s.get := by
    funext id
    rw [get, get, h.findMeta_eq, hload]
    rfl
  have hlist : s.opened.listNewestFirst = s.listNewestFirst := by
    funext limit
    rw [listNewestFirst, listNewestFirst, hordered, hload]
  rw [view, view, View.mk.injEq]
  exact ⟨hget, hlist, (h.perm.countP_eq _).symm, h.perm.length_eq.symm⟩

/-- The file of a letter that the index has. -/
lemma Mirrors.load_of_mem (h : s.Mirrors) (hm : m ∈ s.index) :
    ∃ x, s.load m.id = some x ∧ nameIsSafe m.id = true ∧ m = ⟨x.letter.id, x.letter.date, x.unread⟩
      := by
  obtain ⟨f, hf, hmeta⟩ := List.mem_filterMap.1 ((h.index m).1 hm)
  have hname := id_of_meta? hmeta
  unfold LetterFile.meta? at hmeta
  cases hcontent : f.content with
  | none => simp [hcontent] at hmeta
  | some x =>
      simp only [hcontent] at hmeta
      split_ifs at hmeta with hsafe
      refine ⟨x, (load_eq_some_iff h.ascending).2 ?_, hname ▸ hsafe.1,
        (Option.some.inj hmeta).symm⟩
      rw [hname, ← hcontent]
      exact hf

lemma findMeta_eq_some_iff (h : s.Mirrors) : s.findMeta id = some m ↔ m ∈ s.index ∧ m.id = id :=
  Keyed.find?_eq_some_iff h.nodup

lemma get_of_findMeta (hm : s.findMeta id = some m) : s.get id = s.load id := by
  rw [get, hm]
  rfl

lemma load_of_get {x : StoredLetter} (hget : s.get id = some x) : s.load id = some x := by
  unfold get at hget
  split_ifs at hget
  exact hget

/-! ### `Put` -/

/-- Where `Put` fails after the rename, the file held the letter already. -/
def PutSafe (s : FileLetterStore) (l : Letter) (o : WriteOutcome) : Prop :=
  nameIsSafe l.id = true → o = .replaced → s.load l.id = some ⟨l, unreadIn s.index l.id⟩

lemma Mirrors.put_failed (h : s.Mirrors) (hsafe : s.PutSafe l o) (hfalse : (s.put l o).2 = false) :
    (s.put l o).1 = s := by
  cases hname : nameIsSafe l.id with
  | false => rw [FileLetterStore.put, if_pos hname]
  | true =>
      rw [put_of_safe hname] at hfalse ⊢
      cases o with
      | done => cases hfalse
      | unchanged => rfl
      | replaced =>
          have hfile := (load_eq_some_iff h.ascending).1 (hsafe hname rfl)
          simp only [WriteOutcome.written, WriteOutcome.ok, if_true, Bool.false_eq_true, if_false,
            Keyed.Ascending.put_of_mem h.ascending hfile]

lemma Mirrors.put_of_putSafe (h : s.Mirrors) (hsafe : s.PutSafe l o) : (s.put l o).1.Mirrors := by
  cases hanswer : (s.put l o).2 with
  | false =>
      rw [h.put_failed hsafe hanswer]
      exact h
  | true => exact ((h.put (safe_of_put hanswer)).1 hanswer).1

theorem Mirrors.put_unchanged_iff (h : s.Mirrors) (hfalse : (s.put l o).2 = false) :
    Unchanged view (fun _ => FileLetterStore.opened) s (s.put l o).1 ↔ s.PutSafe l o := by
  constructor
  · rintro ⟨hview, hopened⟩ hname rfl
    have hsame : (s.put l .replaced).1.opened.get l.id = s.get l.id :=
      congrFun (congrArg View.get ((hopened .done).trans hview)) l.id
    refine load_of_get (hsame ▸ ?_)
    rw [put_of_safe hname]
    have hasc := h.ascending.put ⟨l.id, some ⟨l, unreadIn s.index l.id⟩⟩
    refine (tidy_opened hasc).get_eq_some_iff.2 ⟨⟨⟨l.id, l.date, unreadIn s.index l.id⟩, ?_, rfl⟩,
      Keyed.mem_put_self _ _⟩
    exact (mem_scan_put h.ascending hname _).2 (Or.inl rfl)
  · intro hsafe
    rw [h.put_failed hsafe hfalse]
    exact ⟨rfl, fun _ => h.view_opened⟩

/-! ### `MarkRead` -/

/-- Where `MarkRead` comes to write, the write does not fail after the rename. -/
def MarkReadSafe (s : FileLetterStore) (id : String) (o : WriteOutcome) : Prop :=
  ∀ m, s.findMeta id = some m → m.unread = true → o ≠ .replaced

lemma markRead_of_unread {x : StoredLetter} (hm : s.findMeta id = some m)
    (hunread : m.unread = true) (hload : s.load id = some x) (o : WriteOutcome) :
    s.markRead id o =
      (⟨if o.written then
          Keyed.put LetterFile.name ⟨id, some { x with unread := false }⟩ s.files else s.files,
        if o.ok then s.index.map fun n => if n.id = id then { n with unread := false } else n
        else s.index⟩, o.ok) := by
  simp only [markRead, hm, hunread, Bool.true_eq_false, if_false, hload]

lemma markRead_cases (s : FileLetterStore) (id : String) (o : WriteOutcome) :
    (s.markRead id o).1 = s ∨ ∃ m, s.findMeta id = some m ∧ m.unread = true ∧
      (s.markRead id o).2 = o.ok ∧ (o = .unchanged → (s.markRead id o).1 = s) := by
  cases hm : s.findMeta id with
  | none => exact Or.inl (by simp only [markRead, hm])
  | some m =>
      cases hunread : m.unread with
      | false => exact Or.inl (by simp only [markRead, hm, hunread, if_true])
      | true =>
          cases hload : s.load id with
          | none => exact Or.inl (by simp [markRead, hm, hunread, hload])
          | some x =>
              rw [markRead_of_unread hm hunread hload]
              refine Or.inr ⟨m, rfl, hunread, rfl, ?_⟩
              rintro rfl
              rfl

lemma markRead_failed (hsafe : s.MarkReadSafe id o) (hfalse : (s.markRead id o).2 = false) :
    (s.markRead id o).1 = s := by
  rcases markRead_cases s id o with hsame | ⟨m, hm, hunread, hanswer, hsame⟩
  · exact hsame
  · cases o with
    | done => exact absurd (hanswer.symm.trans hfalse) (by decide)
    | unchanged => exact hsame rfl
    | replaced => exact absurd rfl (hsafe m hm hunread)

/-- The index after a letter was read mirrors the files. -/
lemma Mirrors.markRead_done (h : s.Mirrors) (id : String) : (s.markRead id .done).1.Mirrors := by
  have htidy := h.tidy.markRead id .done
  refine ⟨htidy.ascending, htidy.nodup, fun n => ?_⟩
  cases hm : s.findMeta id with
  | none =>
      simp only [FileLetterStore.markRead, hm]
      exact h.index n
  | some m =>
      cases hunread : m.unread with
      | false =>
          simp only [FileLetterStore.markRead, hm, hunread, if_true]
          exact h.index n
      | true =>
          obtain ⟨hmem, rfl⟩ := (findMeta_eq_some_iff h).1 hm
          obtain ⟨x, hload, hname, hx⟩ := h.load_of_mem hmem
          have hid : m.id = x.letter.id := congrArg Meta.id hx
          have hdate : m.date = x.letter.date := congrArg Meta.date hx
          rw [markRead_of_unread hm hunread hload]
          simp only [WriteOutcome.written, WriteOutcome.ok, if_true]
          rw [hid] at hname ⊢
          rw [mem_scan_put h.ascending hname, ← h.index, List.mem_map]
          constructor
          · rintro ⟨k, hk, rfl⟩
            by_cases hkid : k.id = x.letter.id
            · have hkm : k = m :=
                List.inj_on_of_nodup_map h.nodup hk hmem (hkid.trans hid.symm)
              rw [if_pos hkid, hkm, ← hid, ← hdate]
              exact Or.inl rfl
            · rw [if_neg hkid]
              exact Or.inr ⟨hk, hkid⟩
          · rintro (rfl | ⟨hn, hne⟩)
            · refine ⟨m, hmem, ?_⟩
              rw [if_pos hid, ← hid, ← hdate]
            · exact ⟨n, hn, if_neg hne⟩

lemma Mirrors.markRead_of_markReadSafe (h : s.Mirrors) (hsafe : s.MarkReadSafe id o) :
    (s.markRead id o).1.Mirrors := by
  rcases markRead_cases s id o with hsame | ⟨m, hm, hunread, -, hsame⟩
  · rw [hsame]
    exact h
  · cases o with
    | done => exact h.markRead_done id
    | unchanged =>
        rw [hsame rfl]
        exact h
    | replaced => exact absurd rfl (hsafe m hm hunread)

theorem Mirrors.markRead_unchanged_iff (h : s.Mirrors) (hfalse : (s.markRead id o).2 = false) :
    Unchanged view (fun _ => FileLetterStore.opened) s (s.markRead id o).1 ↔
      s.MarkReadSafe id o := by
  constructor
  · rintro ⟨hview, -⟩ m hm hunread rfl
    obtain ⟨hmem, rfl⟩ := (findMeta_eq_some_iff h).1 hm
    obtain ⟨x, hload, -, hx⟩ := h.load_of_mem hmem
    have hget : (s.markRead m.id .replaced).1.get m.id = s.get m.id :=
      congrFun (congrArg View.get hview) m.id
    -- The file that is read is the new one.
    have hnew : (s.markRead m.id .replaced).1.load m.id = some { x with unread := false } := by
      rw [markRead_of_unread hm hunread hload]
      exact (load_eq_some_iff (h.ascending.put _)).2 (Keyed.mem_put_self _ _)
    have hindex : (s.markRead m.id .replaced).1.findMeta m.id = some m := by
      rw [markRead_of_unread hm hunread hload]
      exact hm
    rw [get_of_findMeta hindex, get_of_findMeta hm, hnew, hload] at hget
    have hread : x.unread = false := (congrArg StoredLetter.unread (Option.some.inj hget)).symm
    rw [hx] at hunread
    exact absurd (hunread.symm.trans hread) (by decide)
  · intro hsafe
    rw [markRead_failed hsafe hfalse]
    exact ⟨rfl, fun _ => h.view_opened⟩

/-! ### `EvictBeyond` -/

/-- No removal fails after the file is gone. -/
def EvictSafe (s : FileLetterStore) (keep : ℕ) (os : String → WriteOutcome) : Prop :=
  ∀ id ∈ s.doomed keep, os id ≠ .replaced

/-- A removal that nothing cuts between the file and the index. -/
lemma Mirrors.remove (h : s.Mirrors) (ho : o ≠ .replaced) : (s.remove id o).1.Mirrors := by
  rcases remove_cases s id o with ⟨-, hs⟩ | ⟨-, -, hs⟩ | ⟨-, rfl, -⟩
  · rw [hs]
    refine ⟨h.ascending.filter _, h.nodup.sublist (List.Sublist.map _ List.filter_sublist),
      fun m => ?_⟩
    rw [List.mem_filter, h.index, scan, List.mem_filterMap, scan, List.mem_filterMap]
    constructor
    · rintro ⟨⟨f, hf, hm⟩, hid⟩
      exact ⟨f, List.mem_filter.2 ⟨hf, id_of_meta? hm ▸ hid⟩, hm⟩
    · rintro ⟨f, hf, hm⟩
      obtain ⟨hf, hid⟩ := List.mem_filter.1 hf
      exact ⟨⟨f, hf, hm⟩, id_of_meta? hm ▸ hid⟩
  · rw [hs]
    exact h
  · exact absurd rfl ho

lemma removeEach_cons (os : String → WriteOutcome) (s : FileLetterStore) (id : String)
    (ids : List String) :
    (s.removeEach os (id :: ids)).1 = ((s.remove id (os id)).1.removeEach os ids).1 := rfl

lemma Mirrors.removeEach (h : s.Mirrors) (hos : ∀ id ∈ ids, os id ≠ .replaced) :
    (s.removeEach os ids).1.Mirrors := by
  induction ids generalizing s with
  | nil => exact h
  | cons id ids ih =>
      rw [List.forall_mem_cons] at hos
      exact ih (h.remove hos.1) hos.2

/-- Removals of which none succeeded, and none was cut between the file and the index. -/
lemma removeEach_failed (hos : ∀ id ∈ ids, os id ≠ .replaced)
    (hnone : (s.removeEach os ids).2 = 0) : (s.removeEach os ids).1 = s := by
  induction ids with
  | nil => rfl
  | cons id ids ih =>
      rw [List.forall_mem_cons] at hos
      rw [FileLetterStore.removeEach] at hnone ⊢
      rcases remove_cases s id (os id) with ⟨hanswer, -⟩ | ⟨hanswer, -, hs⟩ | ⟨-, ho, -⟩
      · simp [hanswer] at hnone
      · simp only [hanswer, hs, Bool.false_eq_true, if_false] at hnone ⊢
        exact ih hos.2 hnone
      · exact absurd ho hos.1

lemma mem_files_removeEach {f : LetterFile} (hf : f ∈ (s.removeEach os ids).1.files) :
    f ∈ s.files ∧ (f.name ∈ ids → os f.name = .unchanged) := by
  induction ids generalizing s with
  | nil => exact ⟨hf, by simp⟩
  | cons id ids ih =>
      rw [removeEach_cons] at hf
      obtain ⟨hmem, hids⟩ := ih hf
      rw [List.mem_cons]
      rcases remove_cases s id (os id) with ⟨-, hs⟩ | ⟨-, ho, hs⟩ | ⟨-, -, hs⟩
      · rw [hs, List.mem_filter] at hmem
        have hne : f.name ≠ id := by simpa using hmem.2
        exact ⟨hmem.1, fun hid => hids (hid.resolve_left hne)⟩
      · rw [hs] at hmem
        refine ⟨hmem, ?_⟩
        rintro (rfl | hid)
        · exact ho
        · exact hids hid
      · rw [hs, List.mem_filter] at hmem
        have hne : f.name ≠ id := by simpa using hmem.2
        exact ⟨hmem.1, fun hid => hids (hid.resolve_left hne)⟩

lemma mem_index_of_mem_doomed (hid : id ∈ s.doomed keep) : ∃ m ∈ s.index, m.id = id := by
  obtain ⟨m, hm, rfl⟩ := List.mem_map.1 hid
  exact ⟨m, (List.mem_insertionSort _).1 (List.mem_of_mem_drop hm), rfl⟩

/-- An eviction that removed nothing. -/
theorem Mirrors.evictBeyond_unchanged_iff (h : s.Mirrors)
    (hnone : (s.evictBeyond keep os).2 = 0) :
    Unchanged view (fun _ => FileLetterStore.opened) s (s.evictBeyond keep os).1 ↔
      s.EvictSafe keep os := by
  constructor
  · rintro ⟨hview, -⟩ id hid ho
    obtain ⟨m, hmem, rfl⟩ := mem_index_of_mem_doomed hid
    obtain ⟨x, hload, -⟩ := h.load_of_mem hmem
    have hget : (s.evictBeyond keep os).1.get m.id = s.get m.id :=
      congrFun (congrArg View.get hview) m.id
    rw [get_of_findMeta ((findMeta_eq_some_iff h).2 ⟨hmem, rfl⟩), hload] at hget
    have hfile := load_of_get hget
    rw [load, Option.bind_eq_some_iff] at hfile
    obtain ⟨f, hf, -⟩ := hfile
    have hname : f.name = m.id := by simpa using List.find?_some hf
    have hkept := (mem_files_removeEach (List.mem_of_find?_eq_some hf)).2 (hname ▸ hid)
    rw [hname, ho] at hkept
    cases hkept
  · intro hsafe
    have hsame : (s.evictBeyond keep os).1 = s := removeEach_failed hsafe hnone
    rw [hsame]
    exact ⟨rfl, fun _ => h.view_opened⟩

end FileLetterStore

/-! ## The outbox -/

/-- The digits of a local id read back as its number. -/
lemma ofDigitChars_formatLocalID (n : ℕ) :
    Nat.ofDigitChars 10 (formatLocalID n).toList 0 = n := by
  rw [formatLocalID, String.toList_ofList, Nat.ofDigitChars_append,
    Nat.ofDigitChars_replicate_zero, Nat.mul_zero, Nat.ofDigitChars_ten_toDigits]

lemma formatLocalID_injective : Function.Injective formatLocalID := by
  intro m n h
  rw [← ofDigitChars_formatLocalID m, h, ofDigitChars_formatLocalID n]

namespace Outbox

/-- Queues a letter, and returns the local id it was given.  The counter is written before the
letter. -/
def add (b : Outbox) (contactID subject body : String) (composedAt : ℤ) (o₁ o₂ : WriteOutcome) :
    Outbox × Option String :=
  if outboxCap ≤ b.sendableCount then (b, none)
  else if o₁.ok = false then (b.mint o₁, none)
  else
    let localID := formatLocalID b.next
    ((b.mint o₁).insert { localID, contactID, subject, body, composedAt } o₂,
      if o₂.ok then some localID else none)

structure View where
  all : List OutboxEntry
  sendable : List OutboxEntry
  sendableCount : ℕ

def view (b : Outbox) : View := ⟨b.all, b.sendable, b.sendableCount⟩

/-- Memory mirrors the files, and the local ids are numbers that the counter has passed. -/
structure Sound (b : Outbox) : Prop where
  mirrors : b.Mirrors
  nodup : (b.entries.map OutboxEntry.localID).Nodup
  minted : ∀ e ∈ b.files, ∃ k ≤ b.highWater, e.localID = formatLocalID k
  le : b.highWater ≤ b.counter
  lt : b.counter < 2 ^ 63

variable {b b' : Outbox} {e : OutboxEntry} {o o₁ o₂ : WriteOutcome} {localID : String}
  {contactID subject body : String} {composedAt : ℤ} {status : Option AckStatus}

lemma Sound.perm (h : b.Sound) : b.entries.Perm b.files :=
  (List.perm_ext_iff_of_nodup (List.Nodup.of_map _ h.nodup)
    (List.Nodup.of_map _ h.mirrors.ascending.nodup_map)).2 h.mirrors.entries

lemma sorted_eq {xs ys : List OutboxEntry} (hx : (xs.map OutboxEntry.localID).Nodup)
    (hperm : xs.Perm ys) :
    (xs.insertionSort fun x y => x.localID ≤ y.localID) =
      ys.insertionSort fun x y => x.localID ≤ y.localID := by
  have htotal : Std.Total fun x y : OutboxEntry => x.localID ≤ y.localID :=
    ⟨fun _ _ => le_total _ _⟩
  have htrans : IsTrans OutboxEntry fun x y => x.localID ≤ y.localID := ⟨fun _ _ _ => le_trans⟩
  refine List.Perm.eq_of_pairwise (fun x y hmem hmem' hxy hyx => ?_)
    (List.pairwise_insertionSort _ _) (List.pairwise_insertionSort _ _)
    ((List.perm_insertionSort _ _).trans (hperm.trans (List.perm_insertionSort _ _).symm))
  have hyx' := hperm.mem_iff.2 ((List.mem_insertionSort _).1 hmem')
  exact List.inj_on_of_nodup_map hx ((List.mem_insertionSort _).1 hmem) hyx' (le_antisymm hxy hyx)

lemma Sound.view_opened (h : b.Sound) : b.opened.view = b.view := by
  have hsorted := sorted_eq h.nodup h.perm
  rw [view, view, View.mk.injEq, all, all, sendable, sendable, hsorted]
  exact ⟨rfl, rfl, (h.perm.countP_eq _).symm⟩

lemma Sound.opened (h : b.Sound) : b.opened.Sound := by
  have hcounter : parseCounter b.counter = b.counter := if_pos h.lt
  refine ⟨mirrors_opened h.mirrors.ascending, h.mirrors.ascending.nodup_map, fun e he => ?_, ?_,
    h.lt⟩
  · obtain ⟨k, hk, hid⟩ := h.minted e he
    refine ⟨k, ?_, hid⟩
    simp only [Outbox.opened, hcounter]
    exact le_trans hk h.le
  · simp only [Outbox.opened, hcounter]
    exact le_refl _

lemma view_congr (hentries : b'.entries = b.entries) : b'.view = b.view := by
  simp only [view, all, sendable, sendableCount, hentries]

/-- The counter does not show. -/
lemma Sound.unchanged_of_eq (h : b.Sound) (hentries : b'.entries = b.entries)
    (hfiles : b'.files = b.files) : Unchanged view (fun _ => Outbox.opened) b b' := by
  refine ⟨view_congr hentries, fun _ => ?_⟩
  have hopened : b'.opened.view = b.opened.view := view_congr hfiles
  rw [hopened, h.view_opened, view_congr hentries]

lemma mem_all : e ∈ b.all ↔ e ∈ b.entries := List.mem_insertionSort _

/-- What a reboot finds is what was there. -/
lemma Sound.mem_files_of_unchanged (h : b.Sound)
    (hsame : Unchanged view (fun _ => Outbox.opened) b b') (e : OutboxEntry) :
    e ∈ b'.files ↔ e ∈ b.files := by
  have hall : b'.opened.all = b.all := congrArg View.all ((hsame.2 .done).trans hsame.1)
  have hmem : e ∈ b'.opened.all ↔ e ∈ b'.files := mem_all
  rw [← hmem, hall, mem_all, h.mirrors.entries]

/-! ### `Add` -/

/-- Where `Add` comes to write the letter, that write does not fail after the rename. -/
def AddSafe (b : Outbox) (o₁ o₂ : WriteOutcome) : Prop :=
  b.sendableCount < outboxCap → o₁.ok = true → o₂ ≠ .replaced

lemma Sound.next_eq (h : b.Sound) : b.next = b.highWater + 1 := next_of_lt h.le h.lt

/-- The next local id is new. -/
lemma Sound.ne_next (h : b.Sound) (he : e ∈ b.files) : e.localID ≠ formatLocalID b.next := by
  obtain ⟨k, hk, hid⟩ := h.minted e he
  rw [hid, h.next_eq]
  intro heq
  have hnext := formatLocalID_injective heq
  omega

lemma Sound.mint (h : b.Sound) (hroom : b.highWater + 1 < 2 ^ 63) (o : WriteOutcome) :
    (b.mint o).Sound := by
  refine ⟨⟨h.mirrors.ascending, h.mirrors.entries⟩, h.nodup, fun e he => ?_,
    mint_le h.le h.lt, mint_lt h.le h.lt hroom⟩
  obtain ⟨k, hk, hid⟩ := h.minted e he
  exact ⟨k, hk.trans (highWater_le_mint h.le h.lt), hid⟩

/-- A letter under a new local id that was just counted. -/
lemma Sound.insert_done (h : b.Sound) (hid : e.localID = formatLocalID b.highWater)
    (hnew : ∀ x ∈ b.files, x.localID ≠ e.localID) : (b.insert e .done).Sound := by
  have hfiles : (b.insert e .done).files = Keyed.put OutboxEntry.localID e b.files := rfl
  have hentries : (b.insert e .done).entries = b.entries ++ [e] := rfl
  refine ⟨⟨?_, fun x => ?_⟩, ?_, fun x hx => ?_, h.le, h.lt⟩
  · rw [hfiles]
    exact h.mirrors.ascending.put e
  · rw [hfiles, hentries, h.mirrors.ascending.mem_put_iff, List.mem_append, List.mem_singleton,
      h.mirrors.entries, or_comm]
    exact or_congr_right ⟨fun hx => ⟨hx, hnew x hx⟩, And.left⟩
  · rw [hentries, List.map_append, List.map_singleton]
    refine List.nodup_append.2 ⟨h.nodup, List.nodup_singleton _, fun x hx y hy => ?_⟩
    obtain ⟨z, hz, rfl⟩ := List.mem_map.1 hx
    rw [List.mem_singleton.1 hy]
    exact hnew z ((h.mirrors.entries z).1 hz)
  · rw [hfiles, h.mirrors.ascending.mem_put_iff] at hx
    rcases hx with rfl | ⟨hx, -⟩
    · exact ⟨b.highWater, le_refl _, hid⟩
    · exact h.minted x hx

lemma add_of_full (hfull : outboxCap ≤ b.sendableCount) :
    b.add contactID subject body composedAt o₁ o₂ = (b, none) := if_pos hfull

lemma add_of_room (hroom : b.sendableCount < outboxCap) :
    b.add contactID subject body composedAt o₁ o₂ =
      if o₁.ok = false then (b.mint o₁, none)
      else
        ((b.mint o₁).insert
            ⟨formatLocalID b.next, contactID, subject, body, composedAt, false, none, 0⟩ o₂,
          if o₂.ok then some (formatLocalID b.next) else none) :=
  if_neg (not_le.2 hroom)

lemma Sound.add (h : b.Sound) (hroom : b.highWater + 1 < 2 ^ 63) (hsafe : b.AddSafe o₁ o₂) :
    (b.add contactID subject body composedAt o₁ o₂).1.Sound := by
  by_cases hfull : outboxCap ≤ b.sendableCount
  · rw [add_of_full hfull]
    exact h
  · rw [add_of_room (not_le.1 hfull)]
    cases hok : o₁.ok with
    | false =>
        rw [if_pos rfl]
        exact h.mint hroom o₁
    | true =>
        rw [if_neg (by decide)]
        have hhigh : (b.mint o₁).highWater = b.next := if_pos hok
        cases o₂ with
        | done =>
            refine (h.mint hroom o₁).insert_done ?_ fun x hx => ?_
            · rw [hhigh]
            · exact h.ne_next hx
        | unchanged => exact h.mint hroom o₁
        | replaced => exact absurd rfl (hsafe (not_le.1 hfull) hok)

theorem Sound.add_unchanged_iff (h : b.Sound)
    (hfalse : (b.add contactID subject body composedAt o₁ o₂).2 = none) :
    Unchanged view (fun _ => Outbox.opened) b (b.add contactID subject body composedAt o₁ o₂).1 ↔
      b.AddSafe o₁ o₂ := by
  constructor
  · rintro hsame hroom hok rfl
    rw [add_of_room hroom, if_neg (by simp [hok])] at hsame
    -- The letter that a reboot would find is under a local id that no letter has.
    have hfile := (h.mem_files_of_unchanged hsame _).1 (Keyed.mem_put_self b.files _)
    exact h.ne_next hfile rfl
  · intro hsafe
    by_cases hfull : outboxCap ≤ b.sendableCount
    · rw [add_of_full hfull]
      exact h.unchanged_of_eq rfl rfl
    · rw [add_of_room (not_le.1 hfull)] at hfalse ⊢
      cases hok : o₁.ok with
      | false =>
          rw [if_pos rfl]
          exact h.unchanged_of_eq rfl rfl
      | true =>
          rw [hok, if_neg (by decide)] at hfalse
          rw [if_neg (by decide)]
          cases o₂ with
          | done => cases hfalse
          | unchanged => exact h.unchanged_of_eq rfl rfl
          | replaced => exact absurd rfl (hsafe (not_le.1 hfull) hok)

/-! ### `Erase` -/

lemma Sound.without_done (h : b.Sound) (localID : String) : (b.without localID .done).Sound := by
  refine ⟨⟨h.mirrors.ascending.filter _, fun e => ?_⟩,
    h.nodup.sublist (List.Sublist.map _ List.filter_sublist),
    fun e he => h.minted e (List.mem_of_mem_filter he), h.le, h.lt⟩
  simp only [without, WriteOutcome.written, WriteOutcome.ok, if_true, List.mem_filter,
    h.mirrors.entries]

lemma Sound.erase (h : b.Sound) (he : b.find? localID = some e) (ho : o ≠ .replaced) :
    (b.erase localID o).1.Sound := by
  rw [h.mirrors.erase_eq he]
  cases o with
  | done => exact h.without_done localID
  | unchanged => exact h
  | replaced => exact absurd rfl ho

lemma Sound.erase_unchanged_iff (h : b.Sound) (he : b.find? localID = some e)
    (hfalse : (b.erase localID o).2 = false) :
    Unchanged view (fun _ => Outbox.opened) b (b.erase localID o).1 ↔ o ≠ .replaced := by
  rw [h.mirrors.erase_eq he] at hfalse ⊢
  constructor
  · rintro hsame rfl
    obtain ⟨hmem, hid⟩ := mem_of_find? he
    have hfile := (h.mem_files_of_unchanged hsame e).2 ((h.mirrors.entries e).1 hmem)
    have hne := (List.mem_filter.1 hfile).2
    simp [hid] at hne
  · intro ho
    cases o with
    | done => cases hfalse
    | unchanged => exact h.unchanged_of_eq rfl rfl
    | replaced => exact absurd rfl ho

/-! ### `Resolve` and `Discard` -/

/-- Where `Resolve` comes to remove a letter, the removal does not fail after the file is gone, and
where it comes to write a reject, the write succeeds or the letter had that reject already. -/
def ResolveSafe (b : Outbox) (localID : String) (status : Option AckStatus) (o : WriteOutcome) :
    Prop :=
  ∀ e, b.find? localID = some e →
    if status = some .sent then o ≠ .replaced else o.ok = true ∨ reject status e = e

/-- Where `Discard` comes to remove a letter, the removal does not fail after the file is gone. -/
def DiscardSafe (b : Outbox) (localID : String) (o : WriteOutcome) : Prop :=
  ∀ e, b.find? localID = some e → o ≠ .replaced

lemma Sound.rejected_done (h : b.Sound) (he : b.find? localID = some e)
    (hsent : status ≠ some .sent) : (b.rejected localID status e .done).Sound := by
  have hmirrors : (b.resolve localID status .done).2 = true →
      (b.resolve localID status .done).1.Mirrors ∧ (b.resolve localID status .done).1.files =
        b.files.filterMap (settle localID status) := h.mirrors.resolve.1
  rw [resolve_reject he hsent] at hmirrors
  obtain ⟨hmirrors, hfiles⟩ := hmirrors rfl
  refine ⟨hmirrors, ?_, fun x hx => ?_, h.le, h.lt⟩
  · have hids : (b.rejected localID status e .done).entries.map OutboxEntry.localID =
        b.entries.map OutboxEntry.localID := by
      simp only [rejected, List.map_map]
      refine List.map_congr_left fun x _ => ?_
      by_cases hx : x.localID = localID
      · simp [hx]
      · simp [hx]
    rw [hids]
    exact h.nodup
  · rw [hfiles, List.mem_filterMap] at hx
    obtain ⟨y, hy, hsettle⟩ := hx
    rw [localID_of_settle hsettle]
    exact h.minted y hy

/-- A reject that was there already changes nothing. -/
lemma Sound.rejected_eq (h : b.Sound) (he : b.find? localID = some e)
    (hagain : reject status e = e) (o : WriteOutcome) : b.rejected localID status e o = b := by
  obtain ⟨hmem, hid⟩ := mem_of_find? he
  have hentries : (b.entries.map fun x => if x.localID = localID then reject status x else x) =
      b.entries := by
    refine (List.map_congr_left fun x hx => ?_).trans (List.map_id _)
    split_ifs with hx'
    · rw [List.inj_on_of_nodup_map h.nodup hx hmem (hx'.trans hid.symm), hagain]
      rfl
    · rfl
  have hput : Keyed.put OutboxEntry.localID e b.files = b.files :=
    Keyed.Ascending.put_of_mem h.mirrors.ascending ((h.mirrors.entries e).1 hmem)
  simp only [rejected, hentries, hagain, hput, ite_self]

lemma Sound.resolve (h : b.Sound) (hsafe : b.ResolveSafe localID status o) :
    (b.resolve localID status o).1.Sound := by
  cases he : b.find? localID with
  | none =>
      rw [resolve_none he]
      exact h
  | some e =>
      have hcond := hsafe e he
      by_cases hsent : status = some .sent
      · subst hsent
        rw [resolve_sent he]
        exact h.erase he (by simpa using hcond)
      · rw [if_neg hsent] at hcond
        rw [resolve_reject he hsent]
        rcases hcond with hok | hagain
        · cases o with
          | done => exact h.rejected_done he hsent
          | unchanged => cases hok
          | replaced => cases hok
        · dsimp only
          rw [h.rejected_eq he hagain]
          exact h

theorem Sound.resolve_unchanged_iff (h : b.Sound)
    (hfalse : (b.resolve localID status o).2 = false) :
    Unchanged view (fun _ => Outbox.opened) b (b.resolve localID status o).1 ↔
      b.ResolveSafe localID status o := by
  cases he : b.find? localID with
  | none =>
      rw [resolve_none he] at hfalse
      cases hfalse
  | some e =>
      have hcond : b.ResolveSafe localID status o ↔
          if status = some .sent then o ≠ .replaced else o.ok = true ∨ reject status e = e := by
        constructor
        · exact fun hsafe => hsafe e he
        · rintro hsafe x hx
          obtain rfl := Option.some.inj (he.symm.trans hx)
          exact hsafe
      rw [hcond]
      by_cases hsent : status = some .sent
      · subst hsent
        rw [resolve_sent he] at hfalse ⊢
        rw [if_pos rfl]
        exact h.erase_unchanged_iff he hfalse
      · rw [resolve_reject he hsent] at hfalse ⊢
        rw [if_neg hsent]
        constructor
        · rintro ⟨hview, -⟩
          obtain ⟨hmem, hid⟩ := mem_of_find? he
          -- The entry in memory is the rejected one, whatever became of the file.
          have hall : (b.rejected localID status e o).all = b.all := congrArg View.all hview
          have hnew : reject status e ∈ (b.rejected localID status e o).all :=
            mem_all.2 (List.mem_map.2 ⟨e, hmem, if_pos hid⟩)
          rw [hall, mem_all] at hnew
          exact Or.inr (List.inj_on_of_nodup_map h.nodup hnew hmem rfl)
        · rintro (hok | hagain)
          · exact absurd (hok.symm.trans hfalse) (by decide)
          · dsimp only
            rw [h.rejected_eq he hagain]
            exact h.unchanged_of_eq rfl rfl

lemma Sound.discard (h : b.Sound) (hsafe : b.DiscardSafe localID o) :
    (b.discard localID o).1.Sound := by
  unfold Outbox.discard
  split
  · exact h
  · next e he => exact h.erase he (hsafe e he)

theorem Sound.discard_unchanged_iff (h : b.Sound) (hfalse : (b.discard localID o).2 = false) :
    Unchanged view (fun _ => Outbox.opened) b (b.discard localID o).1 ↔
      b.DiscardSafe localID o := by
  unfold Outbox.discard at hfalse ⊢
  split at hfalse
  · next he =>
    refine ⟨fun _ e he' => ?_, fun _ => h.unchanged_of_eq rfl rfl⟩
    rw [he] at he'
    cases he'
  · next e he =>
    have herase := h.erase_unchanged_iff he hfalse
    exact herase.trans ⟨fun ho _ _ => ho, fun hsafe => hsafe e he⟩

end Outbox
end Chaskiwasi.Device
