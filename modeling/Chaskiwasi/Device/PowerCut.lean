import Chaskiwasi.Device.Replay
import Chaskiwasi.Device.Retention

/-!
# Safe wherever power is lost

An application makes many durable writes, and any of them may be the last or fail.  Two things are
certain wherever that was, whatever the device held: a cursor that is the response's stands for
letters that were written or had been seen, and the outbox has lost and marked only what an ack
names (`Safe`).  The third is that the response, applied again, leads where it would have led
(`reapplied`).

The third needs a device whose memory is what a reload would find.  The seen ring takes an id into
memory before it writes it down, and eviction comes only after a letter was stored; so a letter that
memory passes over is after a reload stored again, and evicted.
-/

namespace Chaskiwasi.Device

open Crash

namespace Engine

variable {past : List (Engine × WriteOutcome)} {e : Engine} {e' : OutboxEntry} {o : WriteOutcome}
  {ls : List Letter}

/-! ## At every point -/

section Safety

variable {keep : ℕ} {d : Engine} {r : SyncResponse} {a : DecodedAck} {b : Outbox} {l : Letter}
  {id : String}

/-- Nothing was removed from the outbox, and nothing marked in it, but by an ack for it. -/
structure Honest (d : Engine) (r : SyncResponse) (b : Outbox) : Prop where
  kept : ∀ x ∈ d.outbox.files, (∃ y ∈ b.files, y.localID = x.localID) ∨
    ∃ a ∈ r.acks, a.localID = x.localID ∧ a.status = some .sent
  marked : ∀ y ∈ b.files, y.rejected = true →
    (∃ x ∈ d.outbox.files, x.localID = y.localID ∧ x.rejected = true) ∨
      ∃ a ∈ r.acks, a.localID = y.localID ∧ a.status ≠ some .sent

lemma honest_self (d : Engine) (r : SyncResponse) : Honest d r d.outbox :=
  ⟨fun x hx => Or.inl ⟨x, hx, rfl⟩, fun y hy hrejected => Or.inl ⟨y, hy, rfl, hrejected⟩⟩

/-- Files that were there, without those of a letter that was sent. -/
lemma Honest.erase (h : Honest d r b) (ha : a ∈ r.acks) (hsent : a.status = some .sent)
    {b' : Outbox} (hfiles : b'.files = b.files ∨
      b'.files = b.files.filter fun e => decide (e.localID ≠ a.localID)) : Honest d r b' := by
  have hmem : ∀ y ∈ b'.files, y ∈ b.files := by
    intro y hy
    rcases hfiles with hfiles | hfiles
    · exact hfiles ▸ hy
    · rw [hfiles] at hy
      exact List.mem_of_mem_filter hy
  refine ⟨fun x hx => ?_, fun y hy => h.marked y (hmem y hy)⟩
  rcases h.kept x hx with ⟨y, hy, hid⟩ | hack
  · by_cases hsame : y.localID = a.localID
    · exact Or.inr ⟨a, ha, hsame.symm.trans hid, hsent⟩
    · refine Or.inl ⟨y, ?_, hid⟩
      rcases hfiles with hfiles | hfiles
      · exact hfiles ▸ hy
      · rw [hfiles]
        exact List.mem_filter.2 ⟨hy, by simpa using hsame⟩
  · exact Or.inr hack

/-- A letter that was rejected, written over its file. -/
lemma Honest.reject (h : Honest d r b) (ha : a ∈ r.acks) (hsent : a.status ≠ some .sent)
    (hid : e'.localID = a.localID) {b' : Outbox} (hfiles : b'.files = b.files ∨
      b'.files = Keyed.put OutboxEntry.localID (Outbox.reject a.status e') b.files) :
    Honest d r b' := by
  rcases hfiles with hfiles | hfiles
  · exact ⟨fun x hx => hfiles ▸ h.kept x hx, fun y hy => h.marked y (hfiles ▸ hy)⟩
  · refine ⟨fun x hx => ?_, fun y hy hrejected => ?_⟩
    · refine (h.kept x hx).imp_left ?_
      rintro ⟨y, hy, hyid⟩
      obtain ⟨y', hy', hyid'⟩ : ∃ y' ∈ Keyed.put OutboxEntry.localID (Outbox.reject a.status e')
          b.files, y'.localID = y.localID := Keyed.exists_mem_put _ hy
      exact ⟨y', hfiles ▸ hy', hyid'.trans hyid⟩
    · rw [hfiles] at hy
      rcases Keyed.mem_of_mem_put hy with rfl | hy
      · exact Or.inr ⟨a, ha, hid.symm, hsent⟩
      · exact h.marked y hy hrejected

lemma Honest.resolve (h : Honest d r b) (ha : a ∈ r.acks) :
    Honest d r (b.resolve a.localID a.status o).1 := by
  unfold Outbox.resolve
  cases hfind : b.find? a.localID with
  | none => exact h
  | some e =>
      by_cases hsent : a.status = some .sent
      · dsimp only
        rw [if_pos hsent]
        refine h.erase ha hsent ?_
        unfold Outbox.erase
        dsimp only
        split_ifs
        · exact Or.inl rfl
        · exact Or.inr rfl
        · exact Or.inr rfl
        · exact Or.inl rfl
      · dsimp only
        rw [if_neg hsent]
        refine h.reject ha hsent (Outbox.mem_of_find? hfind).2 ?_
        dsimp only
        split_ifs
        · exact Or.inr rfl
        · exact Or.inl rfl

/-- A letter of the response with this id has stood in its file. -/
def Written (r : SyncResponse) (past : List (Engine × WriteOutcome)) (e : Engine) (id : String) :
    Prop :=
  ∃ s ∈ e :: past.map Prod.fst, ∃ l ∈ r.letters, l.id = id ∧
    ∃ unread, (⟨id, some ⟨l, unread⟩⟩ : LetterFile) ∈ s.letters.files

/-- The letter was seen before, or has been written. -/
def Accounted (d : Engine) (r : SyncResponse) (past : List (Engine × WriteOutcome)) (e : Engine)
    (id : String) : Prop :=
  id ∈ d.seen.ring ∨ Written r past e id

/-- What was written has been written. -/
lemma Accounted.cons (h : Accounted d r past e id) (o : WriteOutcome) (e' : Engine) :
    Accounted d r ((e, o) :: past) e' id := by
  refine h.imp_right ?_
  rintro ⟨s, hs, hwritten⟩
  exact ⟨s, List.mem_cons_of_mem _ (by simpa using hs), hwritten⟩

/-- The ids that the ring has are accounted for, and the letters but for some. -/
structure Reads (d : Engine) (r : SyncResponse) (ls : List Letter)
    (past : List (Engine × WriteOutcome)) (e : Engine) : Prop where
  ring : ∀ x ∈ e.seen.ring, Accounted d r past e x
  letters : ∀ l ∈ r.letters, l ∈ ls ∨ Accounted d r past e l.id
  sub : ∀ l ∈ ls, l ∈ r.letters

/-- The cursor on flash is one that the device had. -/
def Earlier (d e : Engine) : Prop :=
  (e.state.file.cursor = d.state.file.cursor ∨ e.state.file.cursor = d.state.held.cursor) ∧
    e.state.held.cursor = d.state.held.cursor

/-- The version of the contacts is written with a cursor that the device had. -/
lemma Earlier.setAylluVersion (h : Earlier d e) (v : ℕ) (o : WriteOutcome) :
    Earlier d { e with state := (FileStateStore.setAylluVersion e.state v o).1 } := by
  unfold FileStateStore.setAylluVersion Mirrored.commit
  constructor
  · dsimp only
    split_ifs
    · exact Or.inr h.2
    · exact h.1
  · dsimp only
    split_ifs
    · exact h.2
    · exact h.2

/-- What is certain wherever an application ends. -/
def Safe (d : Engine) (r : SyncResponse) (past : List (Engine × WriteOutcome)) (e : Engine) :
    Prop :=
  Honest d r e.outbox ∧ (Earlier d e ∨ ∀ l ∈ r.letters, Accounted d r past e l.id)

lemma Reads.cons (h : Reads d r ls past e) (o : WriteOutcome) {e' : Engine}
    (hseen : e'.seen = e.seen) : Reads d r ls ((e, o) :: past) e' where
  ring := fun x hx => (h.ring x (hseen ▸ hx)).cons o e'
  letters := fun l hl => (h.letters l hl).imp_right fun hl => hl.cons o e'
  sub := h.sub

lemma reads_start (he : e.seen = d.seen) : Reads d r r.letters past e where
  ring := fun _ hx => Or.inl (he ▸ hx)
  letters := fun _ hl => Or.inl hl
  sub := fun _ hl => hl

/-- A letter that is accounted for is done with. -/
lemma Reads.tail (h : Reads d r (l :: ls) past e) (hl : Accounted d r past e l.id) :
    Reads d r ls past e where
  ring := h.ring
  letters := by
    intro l' hl'
    rcases h.letters l' hl' with hmem | hdone
    · rcases List.mem_cons.1 hmem with rfl | hmem
      · exact Or.inr hl
      · exact Or.inl hmem
    · exact Or.inr hdone
  sub := fun l' hl' => h.sub l' (List.mem_cons_of_mem _ hl')

/-- A letter whose write returned true has been written. -/
lemma written_put (hl : l ∈ r.letters) (hok : (e.letters.put l o).2 = true) :
    Written r ((e, o) :: past) { e with letters := (e.letters.put l o).1 } l.id := by
  have hsafe := FileLetterStore.safe_of_put hok
  refine ⟨_, List.mem_cons_self, l, hl, rfl, FileLetterStore.unreadIn e.letters.index l.id, ?_⟩
  rw [FileLetterStore.put_of_safe hsafe] at hok ⊢
  dsimp only at hok ⊢
  rw [if_pos (WriteOutcome.written_of_ok hok)]
  exact Keyed.mem_put_self _ _

/-- An id that is recorded is the only one that is new to the ring. -/
lemma mem_of_mem_add {x : String} {s : FileSeenRing} (h : x ∈ (s.add id o).1.ring) :
    x ∈ s.ring ∨ x = id := by
  cases hsafe : nameIsSafe id with
  | false =>
      rw [FileSeenRing.add_of_refused hsafe] at h
      exact Or.inl h
  | true =>
      cases hknown : s.contains id with
      | true =>
          rw [FileSeenRing.add_of_known hsafe hknown] at h
          exact Or.inl h
      | false =>
          rw [(FileSeenRing.ring_add hsafe hknown o).1] at h
          exact mem_of_mem_taken h

lemma Reads.add (h : Reads d r (l :: ls) past e) (hl : Accounted d r past e l.id) :
    Reads d r ls ((e, o) :: past) { e with seen := (e.seen.add l.id o).1 } where
  ring := by
    intro x hx
    rcases mem_of_mem_add hx with hx | rfl
    · exact (h.ring x hx).cons o _
    · exact hl.cons o _
  letters := fun l' hl' => ((h.tail hl).letters l' hl').imp_right fun hdone => hdone.cons o _
  sub := (h.tail hl).sub

/-- The outline of an application for what is certain at every point. -/
def safeOutline (keep : ℕ) (d : Engine) (r : SyncResponse) : Outline keep r where
  acking as _ e := (∀ a ∈ as, a ∈ r.acks) ∧ Honest d r e.outbox ∧ e.seen = d.seen ∧ Earlier d e
  snapped _ e := Honest d r e.outbox ∧ e.seen = d.seen ∧ Earlier d e
  reading ls _ past e := Honest d r e.outbox ∧ Earlier d e ∧ Reads d r ls past e
  writing l ls _ past e := Honest d r e.outbox ∧ Earlier d e ∧ Reads d r (l :: ls) past e ∧
    Accounted d r past e l.id
  evicting _ past e := Honest d r e.outbox ∧ Earlier d e ∧ Reads d r [] past e
  configuring past e := Honest d r e.outbox ∧ Earlier d e ∧ Reads d r [] past e
  ending past e := Honest d r e.outbox ∧ Earlier d e ∧ Reads d r [] past e
  final := Safe d r
  failed := Safe d r
  cut := Safe d r
  clock := fun _ _ _ h => h
  resolve := by
    intro a as
    apply Triple.attempt_answers
    · exact fun past e h => ⟨h.2.1, Or.inl h.2.2.2⟩
    · exact fun past e o h _ => ⟨fun b hb => h.1 b (List.mem_cons_of_mem _ hb),
        h.2.1.resolve (h.1 a List.mem_cons_self), h.2.2⟩
    · exact fun past e o h _ => ⟨h.2.1.resolve (h.1 a List.mem_cons_self), Or.inl h.2.2.2⟩
  without := fun _ _ _ h => ⟨h.2.1, h.2.2.2, reads_start h.2.2.1⟩
  snapshot := by
    intro a _
    apply Triple.attempt_answers
    · exact fun past e h => ⟨h.2.1, Or.inl h.2.2.2⟩
    · exact fun past e o h _ => h.2
    · exact fun past e o h _ => ⟨h.2.1, Or.inl h.2.2.2⟩
  version := by
    intro a _
    apply Triple.attempt_answers
    · exact fun past e h => ⟨h.1, Or.inl h.2.2⟩
    · exact fun past e o h _ => ⟨h.1, h.2.2.setAylluVersion _ o, reads_start h.2.1⟩
    · exact fun past e o h _ => ⟨h.1, Or.inl (h.2.2.setAylluVersion _ o)⟩
  seen := by
    rintro l ls n past e ⟨hhonest, hearlier, hreads⟩ hseen
    refine ⟨hhonest, hearlier, hreads.tail (hreads.ring l.id ?_)⟩
    simpa [FileSeenRing.contains] using hseen
  put := by
    intro l ls n
    apply Triple.attempt_answers
    · exact fun past e h => ⟨h.1.1, Or.inl h.1.2.1⟩
    · rintro past e o ⟨⟨hhonest, hearlier, hreads⟩, -⟩ hok
      exact ⟨hhonest, hearlier, hreads.cons o rfl,
        Or.inr (written_put (hreads.sub l List.mem_cons_self) hok)⟩
    · exact fun past e o h _ => ⟨h.1.1, Or.inl h.1.2.1⟩
  add := by
    intro l ls n
    apply Triple.attempt_answers
    · exact fun past e h => ⟨h.1, Or.inl h.2.1⟩
    · exact fun past e o h _ => ⟨h.1, h.2.1, h.2.2.1.add h.2.2.2⟩
    · exact fun past e o h _ => ⟨h.1, Or.inl h.2.1⟩
  read := fun _ _ h => h
  evict := fun _ _ _ h => h
  remove := fun _ _ => Triple.attempt_answers (fun _ _ h => ⟨h.1, Or.inl h.2.1⟩)
    (fun _ _ o h _ => ⟨h.1, h.2.1, h.2.2.cons o rfl⟩)
    fun _ _ o h _ => ⟨h.1, h.2.1, h.2.2.cons o rfl⟩
  evicted := fun _ _ h => h
  unchanged := fun _ _ _ h => h
  config := fun _ _ => Triple.attempt_answers (fun _ _ h => ⟨h.1, Or.inl h.2.1⟩)
    (fun _ _ o h _ => ⟨h.1, h.2.1, h.2.2.cons o rfl⟩)
    fun _ _ o h _ => ⟨h.1, h.2.1, h.2.2.cons o rfl⟩
  cursor := by
    have hall : ∀ past (e : Engine), Reads d r [] past e →
        ∀ l ∈ r.letters, Accounted d r past e l.id := fun past e h l hl =>
      (h.letters l hl).resolve_left List.not_mem_nil
    apply Triple.attempt_answers
    · exact fun past e h => ⟨h.1, Or.inl h.2.1⟩
    · exact fun past e o h _ => ⟨h.1, Or.inr (hall _ _ (h.2.2.cons o rfl))⟩
    · exact fun past e o h _ => ⟨h.1, Or.inr (hall _ _ (h.2.2.cons o rfl))⟩

/-- **Wherever an application ends, its cursor stands for letters that are accounted for, and the
outbox was changed by its acks only.** -/
theorem safe_of_applyResponse (keep : ℕ) (d : Engine) (r : SyncResponse) (os : List WriteOutcome) :
    Safe d r ((applyResponse keep r).run [] d os).past
      ((applyResponse keep r).run [] d os).state := by
  have hmeets := (safeOutline keep d r).triple [] d os
    ⟨fun _ ha => ha, honest_self d r, rfl, ⟨Or.inl rfl, rfl⟩⟩
  exact hmeets.ended (fun _ _ _ h => answers_self h) fun _ _ h => h

end Safety

/-! ## Crash safety -/

/-- What is to be found after a reload, wherever an application of `r` to `d` ended: a cursor that
stands for letters that are accounted for, an outbox that was changed by the acks only, and files
from which the same response leads where it would have led at once. -/
structure Recovers (keep : ℕ) (d : Engine) (r : SyncResponse) (os : List WriteOutcome)
    (o : WriteOutcome) : Prop where
  cursor : (((applyResponse keep r).run [] d os).state.opened o).state.file.cursor = r.cursor →
    ∀ l ∈ r.letters, Accounted d r ((applyResponse keep r).run [] d os).past
      ((applyResponse keep r).run [] d os).state l.id
  outbox : Honest d r (((applyResponse keep r).run [] d os).state.opened o).outbox
  again : Reapplies keep d r (((applyResponse keep r).run [] d os).state.opened o)

/-- **An application is safe wherever it ends.**  For every device, every response and every point
at which power is lost or a write fails: the cursor on flash is the response's only if the device
had it, or every letter of the response has been written or was seen before; and the outbox has
lost or marked only what an ack names.  Where memory is what a reload would find, and the ring has
room for the ids of the response, the response applied again ends in the same outbox, contacts,
settings and cursor as if nothing had happened, and with every letter. -/
theorem crash_safe (keep : ℕ) (d : Engine) (r : SyncResponse) (os : List WriteOutcome)
    (o : WriteOutcome) :
    let ending := (applyResponse keep r).run [] d os
    let reloaded := ending.state.opened o
    (reloaded.state.file.cursor = r.cursor →
      (d.state.file.cursor = r.cursor ∨ d.state.held.cursor = r.cursor) ∨
        ∀ l ∈ r.letters, Accounted d r ending.past ending.state l.id) ∧
    Honest d r reloaded.outbox ∧
    (d.Mirrors → FileSeenRing.Settled r.ids d.seen → Reapplies keep d r reloaded) := by
  dsimp only
  obtain ⟨hhonest, hcursor⟩ := safe_of_applyResponse keep d r os
  refine ⟨fun heq => ?_, ⟨hhonest.kept, hhonest.marked⟩, fun hd hs => ?_⟩
  · refine hcursor.imp_left fun hearlier => ?_
    have hfile : ((applyResponse keep r).run [] d os).state.state.file.cursor = r.cursor := heq
    rw [← hfile]
    exact hearlier.1.imp Eq.symm Eq.symm
  · exact reapplied hd hs (cut_of_applyResponse hd hs os) o

end Engine

namespace Sample

/-- The device, after it wrote the old letter and could not record it on flash. -/
def halfRecorded : Engine :=
  ((Engine.applyResponse 1 heldResponse).run [] shelfDevice [.done, .unchanged]).state

lemma mirrors_shelfDevice : shelfDevice.Mirrors where
  outbox := ⟨List.Pairwise.nil, fun _ => Iff.rfl⟩
  letters := by
    have hindex : shelfDevice.letters.index = FileLetterStore.scan shelfDevice.letters.files := by
      decide
    exact ⟨List.pairwise_singleton _ _, by decide, fun m => by rw [hindex]⟩
  state := rfl
  settings := by decide

lemma settled_shelfDevice : FileSeenRing.Settled heldResponse.ids shelfDevice.seen := by
  have hids : heldResponse.ids = {"l-2"} := by decide
  have hspares : Ring.Spares 1000 ({"l-2"} : Finset String) ["l-1"] :=
    ⟨["l-1"], [], rfl, by decide, by decide⟩
  have hwindow : shelfDevice.seen.window = ["l-1"] := by decide
  rw [hids]
  refine ⟨by decide, by decide, hspares, ?_, fun x _ => ?_⟩
  · rw [hwindow]
    exact hspares
  · rw [hwindow]
    exact Iff.rfl

end Sample

namespace Engine

/-- The old letter is written, power is lost, and the response comes again. -/
theorem crash_safe_shelfDevice :
    Recovers 1 Sample.shelfDevice Sample.heldResponse [.done] .done := by
  obtain ⟨hcursor, houtbox, hagain⟩ :=
    crash_safe 1 Sample.shelfDevice Sample.heldResponse [.done] .done
  refine ⟨fun heq => (hcursor heq).resolve_left ?_, houtbox,
    hagain Sample.mirrors_shelfDevice Sample.settled_shelfDevice⟩
  decide

/-- **A ring that is ahead of its file makes a difference.**  An application at once passes the old
letter over and evicts nothing; after a reload it is written again, and evicted. -/
theorem halfRecorded_differs :
    ¬ ∀ (keep : ℕ) (d : Engine) (r : SyncResponse) (os : List WriteOutcome) (o : WriteOutcome),
      Recovers keep d r os o := by
  intro h
  have hletters := (h 1 Sample.halfRecorded Sample.heldResponse [] .done).again.2
  revert hletters
  decide

end Engine
end Chaskiwasi.Device
