import Chaskiwasi.Device.Apply

/-!
# What an application stores, and what eviction leaves

The device keeps the newest letters, and newest is by the letter's own date.  A letter is stored in
the order in which it arrives, and eviction comes after the last of them, so a letter that arrives
with an old date can be stored and evicted in one application.  Its id stays in the seen ring, and
it is not taken again.

`fresh` says which letters of a response are stored and `newest` which ids stay; both are computed
from the response and from what the device holds before it.  `copies_of_applied` reads the store off
them, for every application that succeeds.
-/

namespace Chaskiwasi.Device

open Crash

namespace FileLetterStore

/-- How many letters a caller asks to keep. -/
def kept (keep : ℕ) : ℕ := if keep = 0 then defaultLettersKeep else keep

/-- What is read under an id after some letters were written. -/
def copied (s : FileLetterStore) (ls : List Letter) (id : String) : Option StoredLetter :=
  match ls.reverse.find? fun l => l.id = id with
  | none => s.get id
  | some l => some ⟨l, unreadIn s.index id⟩

variable {s : FileLetterStore} {ls : List Letter} {l : Letter} {id : String}

lemma copied_of_not_mem (h : id ∉ ls.map Letter.id) : s.copied ls id = s.get id := by
  have hfind : ls.reverse.find? (fun l => l.id = id) = none := by
    rw [List.find?_eq_none]
    intro l hl
    rw [decide_eq_true_eq]
    rintro rfl
    exact h (List.mem_map_of_mem (List.mem_reverse.1 hl))
  rw [copied, hfind]

lemma exists_copied (h : id ∈ ls.map Letter.id) :
    ∃ l ∈ ls, l.id = id ∧ s.copied ls id = some ⟨l, unreadIn s.index id⟩ := by
  cases hfind : ls.reverse.find? fun l => l.id = id with
  | none =>
      obtain ⟨l, hl, hid⟩ := List.mem_map.1 h
      exact absurd hid (by simpa using List.find?_eq_none.1 hfind l (List.mem_reverse.2 hl))
  | some l =>
      refine ⟨l, List.mem_reverse.1 (List.mem_of_find?_eq_some hfind), ?_, ?_⟩
      · simpa using List.find?_some hfind
      · rw [copied, hfind]

lemma copied_concat (l : Letter) (ls : List Letter) (id : String) :
    s.copied (ls ++ [l]) id =
      if l.id = id then some ⟨l, unreadIn s.index id⟩ else s.copied ls id := by
  rw [copied, List.reverse_append, List.reverse_singleton, List.singleton_append,
    List.find?_cons]
  by_cases hid : l.id = id
  · simp [hid]
  · simp [hid, copied]

/-- A letter entered under its id does not change which letters are unread. -/
lemma unreadIn_entered {index : List Meta} (h : (index.map Meta.id).Nodup) (l : Letter)
    (id : String) : unreadIn (entered index l) id = unreadIn index id := by
  by_cases hid : id = l.id
  · subst hid
    have hfind : (entered index l).find? (fun m => m.id = l.id) =
        some ⟨l.id, l.date, unreadIn index l.id⟩ :=
      (Keyed.find?_eq_some_iff (nodup_entered h l)).2 ⟨(mem_entered h).2 (Or.inl rfl), rfl⟩
    rw [unreadIn, hfind]
  · have hfind : (entered index l).find? (fun m => m.id = id) =
        index.find? fun m => m.id = id := by
      ext m
      rw [Keyed.find?_eq_some_iff (nodup_entered h l), Keyed.find?_eq_some_iff h, mem_entered h]
      constructor
      · rintro ⟨rfl | ⟨hm, -⟩, hmid⟩
        · exact absurd hmid.symm hid
        · exact ⟨hm, hmid⟩
      · rintro ⟨hm, rfl⟩
        exact ⟨Or.inr ⟨hm, hid⟩, rfl⟩
    rw [unreadIn, unreadIn, hfind]

lemma get_remove_self (s : FileLetterStore) (id : String) :
    (s.remove id .done).1.get id = none := by
  have hindex : (s.remove id .done).1.index = s.index.filter fun m => m.id ≠ id := by
    unfold remove
    dsimp only
    split_ifs with hall hok
    · rfl
    · rfl
    · exact absurd rfl hok
    · exact absurd rfl hok
  have hfind : (s.remove id .done).1.findMeta id = none := by
    rw [findMeta, hindex, List.find?_eq_none]
    intro m hm
    simpa using (List.mem_filter.1 hm).2
  rw [get, hfind, Option.isNone_none, if_pos rfl]

end FileLetterStore

namespace Engine

/-- The letters that are stored: those not in the ring when their turn comes. -/
def fresh (seen : FileSeenRing) : List Letter → List Letter
  | [] => []
  | l :: ls =>
      if seen.contains l.id then fresh seen ls
      else l :: fresh { seen with ring := seen.taken l.id } ls

/-- The letters of a response that the device stores. -/
def stored (d : Engine) (r : SyncResponse) : List Letter := fresh d.seen r.letters

/-- The index after the letters of a response, and before eviction. -/
def shelf (d : Engine) (r : SyncResponse) : List Meta :=
  (d.stored r).foldl FileLetterStore.entered d.letters.index

/-- The ids of the newest letters, as many as are kept, of all that stand before eviction. -/
def newest (keep : ℕ) (d : Engine) (r : SyncResponse) : List String :=
  ((FileLetterStore.ordered (d.shelf r)).take (FileLetterStore.kept keep)).map Meta.id

/-! ## Which letters are fresh -/

section Fresh

variable {seen : FileSeenRing} {id : String} {l : Letter} {ls : List Letter} {o : WriteOutcome}

lemma contains_iff : seen.contains id = true ↔ id ∈ seen.ring := by simp [FileSeenRing.contains]

lemma mem_of_mem_taken {x : String} (h : x ∈ seen.taken id) : x ∈ seen.ring ∨ x = id := by
  have hmem : x ∈ seen.ring ++ [id] := by
    unfold FileSeenRing.taken at h
    dsimp only at h
    split_ifs at h
    · exact List.mem_of_mem_tail h
    · exact h
  exact (List.mem_append.1 hmem).imp_right List.mem_singleton.1

lemma fresh_of_seen (h : seen.contains l.id = true) : fresh seen (l :: ls) = fresh seen ls :=
  if_pos h

lemma fresh_of_new (h : seen.contains l.id = false) :
    fresh seen (l :: ls) = l :: fresh { seen with ring := seen.taken l.id } ls :=
  if_neg (by simp [h])

lemma mem_of_mem_fresh (h : l ∈ fresh seen ls) : l ∈ ls := by
  induction ls generalizing seen with
  | nil => cases h
  | cons l' ls ih =>
      cases hseen : seen.contains l'.id with
      | true =>
          rw [fresh_of_seen hseen] at h
          exact List.mem_cons_of_mem _ (ih h)
      | false =>
          rw [fresh_of_new hseen] at h
          rcases List.mem_cons.1 h with rfl | h
          · exact List.mem_cons_self
          · exact List.mem_cons_of_mem _ (ih h)

/-- A letter whose id the ring does not have is stored, or another one is under that id. -/
lemma mem_fresh (hl : l ∈ ls) (hnew : seen.contains l.id = false) :
    l.id ∈ (fresh seen ls).map Letter.id := by
  induction ls generalizing seen with
  | nil => cases hl
  | cons l' ls ih =>
      have htail : l ≠ l' → l ∈ ls := fun hne => (List.mem_cons.1 hl).resolve_left hne
      cases hseen : seen.contains l'.id with
      | true =>
          rw [fresh_of_seen hseen]
          refine ih (htail ?_) hnew
          rintro rfl
          rw [hnew] at hseen
          cases hseen
      | false =>
          rw [fresh_of_new hseen, List.map_cons, List.mem_cons]
          by_cases hid : l.id = l'.id
          · exact Or.inl hid
          · refine Or.inr (ih (htail fun heq => hid (heq ▸ rfl)) ?_)
            rw [← Bool.not_eq_true, contains_iff]
            intro hmem
            rcases mem_of_mem_taken hmem with hmem | hmem
            · rw [contains_iff.2 hmem] at hnew
              cases hnew
            · exact hid hmem

/-- The letters that are stored depend on the ring and its capacity only. -/
lemma fresh_congr (seen seen' : FileSeenRing) (hring : seen.ring = seen'.ring)
    (hcap : seen.capacity = seen'.capacity) (ls : List Letter) :
    fresh seen ls = fresh seen' ls := by
  induction ls generalizing seen seen' with
  | nil => rfl
  | cons l ls ih =>
      have hcontains : seen.contains l.id = seen'.contains l.id := by
        rw [FileSeenRing.contains, FileSeenRing.contains, hring]
      have htaken : seen.taken l.id = seen'.taken l.id := by
        rw [FileSeenRing.taken, FileSeenRing.taken, hring, hcap]
      have hrest : fresh { seen with ring := seen.taken l.id } ls =
          fresh { seen' with ring := seen'.taken l.id } ls := ih _ _ htaken hcap
      rw [fresh, fresh, hcontains, ih _ _ hring hcap, hrest]

/-- What `Add` makes of the ring when it answers true for an id that was missing. -/
lemma fresh_add (hnew : seen.contains id = false) (hadd : (seen.add id o).2 = true)
    (ls : List Letter) :
    fresh (seen.add id o).1 ls = fresh { seen with ring := seen.taken id } ls := by
  cases hsafe : nameIsSafe id with
  | false =>
      rw [FileSeenRing.add_of_refused hsafe] at hadd
      cases hadd
  | true =>
      obtain ⟨hring, hcap, -⟩ := FileSeenRing.ring_add hsafe hnew o
      refine fresh_congr _ _ ?_ ?_ ls
      · exact hring
      · exact hcap

end Fresh

/-! ## Along the application -/

section Application

/-- No write has failed. -/
def Unfailing (past : List (Engine × WriteOutcome)) : Prop := ∀ x ∈ past, x.2 = .done

variable (keep : ℕ) (d : Engine) (r : SyncResponse)

/-- The letters in `done` are written, so many of them that are fresh. -/
structure Shelving (done : List Letter) (e : Engine) : Prop where
  tidy : e.letters.Tidy
  index : e.letters.index = done.foldl FileLetterStore.entered d.letters.index
  unread : ∀ id, FileLetterStore.unreadIn e.letters.index id =
    FileLetterStore.unreadIn d.letters.index id
  copies : ∀ id, e.letters.get id = d.letters.copied done id

/-- The letters under `ids` are still to be removed. -/
structure Thinning (ids : List String) (past : List (Engine × WriteOutcome)) (e : Engine) :
    Prop where
  tidy : e.letters.Tidy
  some_stored : d.stored r ≠ []
  old : ∀ id ∈ ids, id ∉ newest keep d r
  copies : ∀ id ∈ newest keep d r, e.letters.get id = d.letters.copied (d.stored r) id
  gone : Unfailing past → ∀ id ∉ newest keep d r, id ∈ ids ∨ e.letters.get id = none

/-- What is read after the application: the newest letters, and the others where they could not be
removed. -/
structure Thinned (past : List (Engine × WriteOutcome)) (e : Engine) : Prop where
  copies : ∀ id, d.stored r = [] ∨ id ∈ newest keep d r →
    e.letters.get id = d.letters.copied (d.stored r) id
  gone : Unfailing past → d.stored r ≠ [] → ∀ id ∉ newest keep d r, e.letters.get id = none

variable {keep d r} {e : Engine} {l : Letter} {ls done : List Letter} {o : WriteOutcome}
  {past : List (Engine × WriteOutcome)}

lemma Unfailing.of_cons {x : Engine × WriteOutcome} (h : Unfailing (x :: past)) :
    x.2 = .done ∧ Unfailing past :=
  ⟨h x List.mem_cons_self, fun y hy => h y (List.mem_cons_of_mem _ hy)⟩

lemma shelving_start (htidy : d.letters.Tidy) (he : e.letters = d.letters) :
    Shelving d [] e := by
  rw [← he] at htidy
  refine ⟨htidy, ?_, fun id => ?_, fun id => ?_⟩
  · rw [he, List.foldl_nil]
  · rw [he]
  · rw [he, FileLetterStore.copied_of_not_mem (by simp)]

/-- What `Put` does, where it answers true. -/
lemma Shelving.put (h : Shelving d done e) (hput : (e.letters.put l o).2 = true) :
    Shelving d (done ++ [l]) { e with letters := (e.letters.put l o).1 } := by
  have hindex : (e.letters.put l o).1.index = FileLetterStore.entered e.letters.index l := by
    have hsafe := FileLetterStore.safe_of_put hput
    rw [FileLetterStore.put_of_safe hsafe] at hput ⊢
    exact if_pos hput
  refine ⟨h.tidy.put l o, ?_, fun id => ?_, fun id => ?_⟩
  · rw [hindex, h.index, List.foldl_append]
    rfl
  · rw [hindex, FileLetterStore.unreadIn_entered h.tidy.nodup, h.unread]
  · rw [FileLetterStore.copied_concat]
    by_cases hid : l.id = id
    · subst hid
      rw [if_pos rfl, h.tidy.get_put_self hput, h.unread]
    · rw [if_neg hid, h.tidy.get_put_of_ne (Ne.symm hid), h.copies]

/-- The order has each id once. -/
lemma nodup_ordered {index : List Meta} (h : (index.map Meta.id).Nodup) :
    ((FileLetterStore.ordered index).map Meta.id).Nodup :=
  ((List.perm_insertionSort Meta.Before index).map Meta.id).nodup_iff.2 h

/-- The letters to remove are those in the index that are not among the newest. -/
lemma mem_doomed {id : String} (h : (e.letters.index.map Meta.id).Nodup)
    (hindex : e.letters.index = d.shelf r) :
    id ∈ e.letters.doomed keep ↔ id ∈ e.letters.index.map Meta.id ∧ id ∉ newest keep d r := by
  have hnodup := nodup_ordered h
  have hmem : id ∈ e.letters.index.map Meta.id ↔
      id ∈ (FileLetterStore.ordered e.letters.index).map Meta.id :=
    ((List.perm_insertionSort Meta.Before _).map Meta.id).mem_iff.symm
  rw [hmem, FileLetterStore.doomed, newest, ← hindex, List.map_drop, List.map_take]
  constructor
  · intro hdrop
    refine ⟨List.mem_of_mem_drop hdrop, fun htake => ?_⟩
    exact List.disjoint_take_drop hnodup (le_refl _) htake hdrop
  · rintro ⟨hall, htake⟩
    rw [← List.take_append_drop (FileLetterStore.kept keep)
      ((FileLetterStore.ordered e.letters.index).map Meta.id), List.mem_append] at hall
    exact hall.resolve_left htake

lemma Shelving.doomed (h : Shelving d (d.stored r) e) (hsome : d.stored r ≠ []) :
    Thinning keep d r (e.letters.doomed keep) past e := by
  have hdoomed : ∀ id, id ∈ e.letters.doomed keep ↔
      id ∈ e.letters.index.map Meta.id ∧ id ∉ newest keep d r :=
    fun id => mem_doomed h.tidy.nodup h.index
  refine ⟨h.tidy, hsome, fun id hid => ((hdoomed id).1 hid).2, fun id _ => h.copies id,
    fun _ id hid => ?_⟩
  by_cases hmem : id ∈ e.letters.index.map Meta.id
  · exact Or.inl ((hdoomed id).2 ⟨hmem, hid⟩)
  · refine Or.inr ?_
    have hfind : e.letters.findMeta id = none := by
      rw [FileLetterStore.findMeta, List.find?_eq_none]
      intro m hm
      rw [decide_eq_true_eq]
      rintro rfl
      exact hmem (List.mem_map_of_mem hm)
    rw [FileLetterStore.get, hfind, Option.isNone_none, if_pos rfl]

lemma Thinning.remove {id : String} {ids : List String} (h : Thinning keep d r (id :: ids) past e) :
    Thinning keep d r ids ((e, o) :: past) { e with letters := (e.letters.remove id o).1 } := by
  refine ⟨h.tidy.remove id o, h.some_stored,
    fun id' hid' => h.old id' (List.mem_cons_of_mem _ hid'), fun id' hid' => ?_,
    fun hpast id' hold => ?_⟩
  · have hne : id' ≠ id := by
      rintro rfl
      exact h.old _ List.mem_cons_self hid'
    rw [h.tidy.get_remove_of_ne hne, h.copies id' hid']
  · obtain ⟨hdone, hbefore⟩ := hpast.of_cons
    obtain rfl : o = .done := hdone
    by_cases hne : id' = id
    · subst hne
      exact Or.inr (FileLetterStore.get_remove_self _ _)
    · rw [h.tidy.get_remove_of_ne hne]
      refine (h.gone hbefore id' hold).imp_left fun hmem => ?_
      exact (List.mem_cons.1 hmem).resolve_left hne

lemma Shelving.thinned (h : Shelving d (d.stored r) e) (hnone : d.stored r = []) :
    Thinned keep d r past e :=
  ⟨fun id _ => h.copies id, fun _ hsome => absurd hnone hsome⟩

lemma Thinning.thinned (h : Thinning keep d r [] past e) : Thinned keep d r past e := by
  refine ⟨fun id hid => h.copies id (hid.resolve_left h.some_stored), fun hpast _ id hid => ?_⟩
  exact (h.gone hpast id hid).resolve_left List.not_mem_nil

/-- What is read stays so with writes elsewhere. -/
lemma Thinned.cons (h : Thinned keep d r past e) (x : Engine × WriteOutcome) (e' : Engine)
    (he : e'.letters = e.letters) : Thinned keep d r (x :: past) e' := by
  refine ⟨fun id hid => ?_, fun hpast hsome id hid => ?_⟩
  · rw [he, h.copies id hid]
  · rw [he, h.gone hpast.of_cons.2 hsome id hid]

/-- The outline of an application, for the letters that can be read. -/
def lettersOutline (keep : ℕ) (d : Engine) (htidy : d.letters.Tidy) (r : SyncResponse) :
    Outline keep r where
  acking _ _ e := e.letters = d.letters ∧ e.seen = d.seen
  snapped _ e := e.letters = d.letters ∧ e.seen = d.seen
  reading ls n _ e := ∃ done, d.stored r = done ++ fresh e.seen ls ∧ done.length = n ∧
    Shelving d done e
  writing l ls n _ e := ∃ done,
    d.stored r = done ++ l :: fresh { e.seen with ring := e.seen.taken l.id } ls ∧
      done.length = n ∧ Shelving d (done ++ [l]) e ∧ e.seen.contains l.id = false
  evicting ids := Thinning keep d r ids
  configuring := Thinned keep d r
  ending := Thinned keep d r
  final := Thinned keep d r
  failed _ _ := True
  cut _ _ := True
  clock := fun _ _ _ h => h
  resolve := fun _ _ => Triple.attempt_answers (fun _ _ _ => trivial)
    (fun _ _ _ h _ => h) fun _ _ _ _ _ => trivial
  without := by
    rintro - past e ⟨hletters, hseen⟩
    refine ⟨[], ?_, rfl, shelving_start htidy hletters⟩
    rw [hseen, stored, List.nil_append]
  snapshot := fun _ _ => Triple.attempt_answers (fun _ _ _ => trivial)
    (fun _ _ _ h _ => h) fun _ _ _ _ _ => trivial
  version := by
    refine fun _ _ => Triple.attempt_answers (fun _ _ _ => trivial) ?_ fun _ _ _ _ _ => trivial
    rintro past e o ⟨hletters, hseen⟩ -
    refine ⟨[], ?_, rfl, shelving_start htidy hletters⟩
    rw [hseen, stored, List.nil_append]
  seen := by
    rintro l ls n past e ⟨done, hstored, hlen, h⟩ hseen
    exact ⟨done, fresh_of_seen hseen ▸ hstored, hlen, h⟩
  put := by
    refine fun l ls n => Triple.attempt_answers (fun _ _ _ => trivial) ?_ fun _ _ _ _ _ => trivial
    rintro past e o ⟨⟨done, hstored, hlen, h⟩, hnew⟩ hput
    exact ⟨done, fresh_of_new hnew ▸ hstored, hlen, h.put hput, hnew⟩
  add := by
    refine fun l ls n => Triple.attempt_answers (fun _ _ _ => trivial) ?_ fun _ _ _ _ _ => trivial
    rintro past e o ⟨done, hstored, hlen, h, hnew⟩ hadd
    refine ⟨done ++ [l], ?_, ?_, h.tidy, h.index, h.unread, h.copies⟩
    · rw [fresh_add hnew hadd, hstored, List.append_assoc, List.singleton_append]
    · rw [List.length_append, hlen, List.length_singleton]
  read := by
    rintro past e ⟨done, hstored, hlen, h⟩
    rw [fresh, List.append_nil] at hstored
    rw [← hstored] at h hlen
    exact h.thinned (List.length_eq_zero_iff.1 hlen)
  evict := by
    rintro n past e ⟨done, hstored, hlen, h⟩
    rw [fresh, List.append_nil] at hstored
    rw [← hstored] at h hlen
    refine h.doomed fun hnone => ?_
    rw [hnone] at hlen
    cases hlen
  remove := fun _ _ => Triple.attempt_answers (fun _ _ _ => trivial)
    (fun _ _ _ h _ => h.remove) fun _ _ _ h _ => h.remove
  evicted := fun _ _ h => h.thinned
  unchanged := fun _ _ _ h => h
  config := fun _ _ => Triple.attempt_answers (fun _ _ _ => trivial)
    (fun _ _ _ h _ => h.cons _ _ rfl) fun _ _ _ h _ => h.cons _ _ rfl
  cursor := Triple.attempt_answers (fun _ _ _ => trivial)
    (fun _ _ _ h _ => h.cons _ _ rfl) fun _ _ _ _ _ => trivial

/-- What the store holds after an application that succeeded. -/
theorem copies_of_applied {out : Outcome} {os rest : List WriteOutcome} (htidy : d.letters.Tidy)
    (hrun : (applyResponse keep r).run [] d os = .back out past e rest)
    (hout : out.applyIncomplete = false) : Thinned keep d r past e := by
  have hmeets := (lettersOutline keep d htidy r).triple [] d os (And.intro rfl rfl)
  rw [hrun, Ending.Meets, Outline.Ends, hout] at hmeets
  exact hmeets

/-- After an application that succeeded, whatever became of the eviction, each letter of the
response that was not seen before can be read, if it is among the newest letters that the device is
to keep. -/
theorem newest_letters_kept {out : Outcome} {os rest : List WriteOutcome} (htidy : d.letters.Tidy)
    (hrun : (applyResponse keep r).run [] d os = .back out past e rest)
    (hout : out.applyIncomplete = false) (hl : l ∈ r.letters)
    (hnew : d.seen.contains l.id = false) (hrank : l.id ∈ newest keep d r) :
    ∃ x, e.letters.get l.id = some x ∧ x.letter ∈ r.letters ∧ x.letter.id = l.id := by
  obtain ⟨l', hl', hid, hcopy⟩ :=
    FileLetterStore.exists_copied (s := d.letters) (mem_fresh hl hnew)
  have hget := (copies_of_applied htidy hrun hout).copies l.id (Or.inr hrank)
  exact ⟨_, hget.trans hcopy, mem_of_mem_fresh hl', hid⟩

end Application
end Engine

/-! ## A letter that is too old -/

namespace Sample

/-- A letter of the year in which the device was given, and one that was held back since long. -/
def currentLetter : Letter := ⟨"l-1", "rosa", "", 1700000000, "hola", false, false, false⟩

def heldLetter : Letter := ⟨"l-2", "rosa", "", 1600000000, "hola", false, false, false⟩

/-- A device that holds the current letter only. -/
def shelfDevice : Engine where
  letters := ⟨[⟨"l-1", some ⟨currentLetter, false⟩⟩], [⟨"l-1", 1700000000, false⟩]⟩
  seen := { FileSeenRing.empty 1000 with lines := ["l-1"], linesOnDisk := 1, ring := ["l-1"] }
  contacts := ⟨⟨1, []⟩, ⟨1, []⟩⟩

/-- The response that brings the old letter. -/
def heldResponse : SyncResponse where
  cursor := "1:2"
  letters := [heldLetter]

end Sample

namespace Engine

theorem newest_letters_kept_held :
    ∃ past e, (applyResponse 2 Sample.heldResponse).run [] Sample.shelfDevice
        [.done, .done, .done] = .back { lettersStored := 1 } past e [] ∧
      ∃ x, e.letters.get "l-2" = some x ∧ x.letter ∈ Sample.heldResponse.letters ∧
        x.letter.id = "l-2" := by
  have hrun : ∃ past e, (applyResponse 2 Sample.heldResponse).run [] Sample.shelfDevice
      [.done, .done, .done] = .back { lettersStored := 1 } past e [] := ⟨_, _, rfl⟩
  have htidy : Sample.shelfDevice.letters.Tidy := ⟨List.pairwise_singleton _ _, by decide⟩
  obtain ⟨past, e, hrun⟩ := hrun
  exact ⟨past, e, hrun, newest_letters_kept (l := Sample.heldLetter) htidy hrun rfl (by decide)
    (by decide) (by decide)⟩

/-- A device that keeps one letter stores the old one, removes it, and does not take it again. -/
theorem held_letter_evicted :
    ¬ ∀ (keep : ℕ) (d : Engine) (r : SyncResponse) (os : List WriteOutcome) (out : Outcome)
        (past : List (Engine × WriteOutcome)) (e : Engine) (rest : List WriteOutcome),
      d.letters.Tidy → r.letters.length ≤ keep →
      (applyResponse keep r).run [] d os = .back out past e rest → out.applyIncomplete = false →
      ∀ l ∈ r.letters, d.seen.contains l.id = false → (e.letters.get l.id).isSome = true := by
  intro h
  have hsome := h 1 Sample.shelfDevice Sample.heldResponse [.done, .done, .done, .done] _ _ _ _
    ⟨List.pairwise_singleton _ _, by decide⟩ (by decide) rfl rfl Sample.heldLetter (by decide)
    (by decide)
  revert hsome
  decide

end Engine
end Chaskiwasi.Device
