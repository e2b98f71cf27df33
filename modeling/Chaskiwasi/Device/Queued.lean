import Chaskiwasi.Device.Shown

/-!
# Letters that wait to be sent

An outbox over its whole history: letters are added, resolved and discarded, every write may fail,
and power may be lost at any of them or between two calls, after which the outbox is opened again.

The counter is written before the letter, so it is never behind a letter on flash or in memory
(`Tracked`), whatever is lost.  That is all the local ids rest on: they ascend, as numbers and as
the names of files (`formatLocalID_lt`), and none is given twice.  `History` keeps beside the outbox
what was promised of it: the ids that `Add` returned, the letters that are still to be sent, and the
ids of those that were.
-/

namespace Chaskiwasi.Device

/-! ## Numbers of a fixed width -/

/-- The value of a digit. -/
def digitValue (c : Char) : ℕ := c.toNat - '0'.toNat

lemma digitValue_le {c : Char} (h : c.isDigit = true) :
    digitValue c ≤ 9 ∧ c.toNat = 48 + digitValue c := by
  simp only [Char.isDigit, Bool.and_eq_true, decide_eq_true_eq] at h
  have hlow : 48 ≤ c.toNat := h.1
  have hhigh : c.toNat ≤ 57 := h.2
  have hzero : '0'.toNat = 48 := rfl
  rw [digitValue, hzero]
  omega

lemma ofDigitChars_cons_zero (c : Char) (cs : List Char) :
    Nat.ofDigitChars 10 (c :: cs) 0 =
      10 ^ cs.length * digitValue c + Nat.ofDigitChars 10 cs 0 := by
  rw [Nat.ofDigitChars_cons, Nat.ofDigitChars_eq_ofDigitChars_zero, Nat.mul_zero, Nat.zero_add,
    digitValue]

/-- The value of a text of digits is below the power of its length. -/
lemma ofDigitChars_lt {cs : List Char} (h : ∀ c ∈ cs, c.isDigit = true) :
    Nat.ofDigitChars 10 cs 0 < 10 ^ cs.length := by
  induction cs with
  | nil => decide
  | cons c cs ih =>
      have hc := (digitValue_le (h c List.mem_cons_self)).1
      have hcs := ih fun x hx => h x (List.mem_cons_of_mem c hx)
      have hhead : 10 ^ cs.length * digitValue c ≤ 10 ^ cs.length * 9 := Nat.mul_le_mul_left _ hc
      rw [ofDigitChars_cons_zero, List.length_cons, Nat.pow_succ]
      omega

/-- Texts of digits of one length are ordered as their values are. -/
lemma lt_of_ofDigitChars_lt {xs ys : List Char} (hx : ∀ c ∈ xs, c.isDigit = true)
    (hy : ∀ c ∈ ys, c.isDigit = true) (hlength : xs.length = ys.length)
    (h : Nat.ofDigitChars 10 xs 0 < Nat.ofDigitChars 10 ys 0) : xs < ys := by
  induction xs generalizing ys with
  | nil =>
      obtain rfl := List.length_eq_zero_iff.1 hlength.symm
      exact absurd h (lt_irrefl _)
  | cons x xs ih =>
      cases ys with
      | nil => cases hlength
      | cons y ys =>
          rw [List.length_cons, List.length_cons, Nat.succ_inj] at hlength
          rw [List.forall_mem_cons] at hx hy
          rw [ofDigitChars_cons_zero, ofDigitChars_cons_zero, hlength] at h
          have hx' := (digitValue_le hx.1).2
          have hy' := (digitValue_le hy.1).2
          rw [List.cons_lt_cons_iff]
          rcases Nat.lt_trichotomy (digitValue x) (digitValue y) with hlt | heq | hgt
          · left
            show x.toNat < y.toNat
            omega
          · right
            have hsame : x = y := Char.toNat_inj.1 (by omega)
            rw [heq] at h
            exact ⟨hsame, ih hx.2 hy.2 hlength (Nat.lt_of_add_lt_add_left h)⟩
          · have hsmall := ofDigitChars_lt hy.2
            have hle : 10 ^ ys.length * (digitValue y + 1) ≤ 10 ^ ys.length * digitValue x :=
              Nat.mul_le_mul_left _ hgt
            rw [Nat.mul_add, Nat.mul_one] at hle
            omega

/-- As long as the digits suffice, later local ids come later in the order of names. -/
theorem formatLocalID_lt {m n : ℕ} (hmn : m < n) (hn : n < 10 ^ localIDDigits) :
    formatLocalID m < formatLocalID n := by
  have hdigits : ∀ k, ∀ c ∈ (formatLocalID k).toList, c.isDigit = true := by
    intro k c hc
    rw [formatLocalID, String.toList_ofList] at hc
    rcases List.mem_append.1 hc with hc | hc
    · rw [List.eq_of_mem_replicate hc]
      rfl
    · exact Nat.isDigit_of_mem_toDigits (by decide) (by decide) hc
  have hlength : ∀ k < 10 ^ localIDDigits, (formatLocalID k).toList.length = localIDDigits := by
    intro k hk
    have hle : (Nat.toDigits 10 k).length ≤ localIDDigits :=
      (Nat.length_toDigits_le_iff (by decide) (by decide)).2 hk
    rw [formatLocalID, String.toList_ofList, List.length_append, List.length_replicate]
    omega
  rw [String.lt_iff_toList_lt]
  refine lt_of_ofDigitChars_lt (hdigits m) (hdigits n) ?_ ?_
  · rw [hlength m (hmn.trans hn), hlength n hn]
  · rw [ofDigitChars_formatLocalID, ofDigitChars_formatLocalID]
    exact hmn

namespace Outbox

variable {b b' : Outbox} {e : OutboxEntry} {o o₁ o₂ : WriteOutcome} {id localID : String}
  {contactID subject body : String} {composedAt : ℤ} {status : Option AckStatus}

/-! ## The counter is never behind -/

/-- Power was lost, and the outbox was opened again. -/
def reopened (b : Outbox) : Outbox := b.cut.opened

/-- Every letter, on flash or in memory, has a number that the counter in memory has passed, and
the one on flash is not behind that. -/
structure Tracked (b : Outbox) : Prop where
  ascending : Keyed.Ascending OutboxEntry.localID b.files
  nodup : (b.entries.map OutboxEntry.localID).Nodup
  files : ∀ e ∈ b.files, ∃ k ≤ b.highWater, e.localID = formatLocalID k
  entries : ∀ e ∈ b.entries, ∃ k ≤ b.highWater, e.localID = formatLocalID k
  le : b.highWater ≤ b.counter
  lt : b.counter < 2 ^ 63

/-- The letter is on flash and in memory. -/
structure Holds (b : Outbox) (e : OutboxEntry) : Prop where
  file : e ∈ b.files
  entry : e ∈ b.entries

/-- Nothing on flash or in memory has the local id. -/
structure Free (b : Outbox) (id : String) : Prop where
  files : ∀ e ∈ b.files, e.localID ≠ id
  entries : ∀ e ∈ b.entries, e.localID ≠ id

/-- What a call may do to the letters it does not name, and to the counter. -/
structure Leaves (named : String → Prop) (b b' : Outbox) : Prop where
  tracked : b'.Tracked
  highWater : b.highWater ≤ b'.highWater
  holds : ∀ e, ¬ named e.localID → b.Holds e → b'.Holds e
  free : ∀ id, ¬ named id → b.Free id → b'.Free id

lemma Tracked.next_eq (h : b.Tracked) : b.next = b.highWater + 1 := next_of_lt h.le h.lt

lemma Tracked.ne_next (h : b.Tracked) (hid : ∃ k ≤ b.highWater, id = formatLocalID k) :
    id ≠ formatLocalID b.next := by
  obtain ⟨k, hk, rfl⟩ := hid
  intro heq
  have hnext := formatLocalID_injective heq
  rw [h.next_eq] at hnext
  omega

lemma Tracked.free_next (h : b.Tracked) : b.Free (formatLocalID b.next) :=
  ⟨fun e he => h.ne_next (h.files e he), fun e he => h.ne_next (h.entries e he)⟩

lemma Tracked.leaves_self (h : b.Tracked) (named : String → Prop) : Leaves named b b :=
  ⟨h, le_refl _, fun _ _ he => he, fun _ _ hid => hid⟩

lemma Leaves.trans {named : String → Prop} {b'' : Outbox} (h : Leaves named b b')
    (h' : Leaves named b' b'') : Leaves named b b'' :=
  ⟨h'.tracked, h.highWater.trans h'.highWater,
    fun e he hold => h'.holds e he (h.holds e he hold),
    fun id hid hfree => h'.free id hid (h.free id hid hfree)⟩

/-- What is opened again has lost nothing that was on flash. -/
lemma Tracked.leaves_reopened (h : b.Tracked) (named : String → Prop) :
    Leaves named b b.reopened := by
  have hcounter : b.reopened.highWater = b.counter := if_pos h.lt
  have hfiles : ∀ e ∈ b.files, ∃ k ≤ b.reopened.highWater, e.localID = formatLocalID k := by
    intro e he
    obtain ⟨k, hk, hid⟩ := h.files e he
    exact ⟨k, hcounter ▸ hk.trans h.le, hid⟩
  exact ⟨⟨h.ascending, h.ascending.nodup_map, hfiles, hfiles, hcounter.le, h.lt⟩,
    hcounter ▸ h.le, fun e _ hold => ⟨hold.file, hold.file⟩,
    fun id _ hfree => ⟨hfree.files, hfree.files⟩⟩

/-! ## `Add` -/

lemma Tracked.mint (h : b.Tracked) (hroom : b.highWater + 1 < 2 ^ 63) (named : String → Prop)
    (o : WriteOutcome) : Leaves named b (b.mint o) := by
  have hhigh : b.highWater ≤ (b.mint o).highWater := highWater_le_mint h.le h.lt
  have hmono : ∀ e : OutboxEntry, (∃ k ≤ b.highWater, e.localID = formatLocalID k) →
      ∃ k ≤ (b.mint o).highWater, e.localID = formatLocalID k := by
    rintro e ⟨k, hk, hid⟩
    exact ⟨k, hk.trans hhigh, hid⟩
  exact ⟨⟨h.ascending, h.nodup, fun e he => hmono e (h.files e he),
    fun e he => hmono e (h.entries e he), mint_le h.le h.lt, mint_lt h.le h.lt hroom⟩, hhigh,
    fun _ _ hold => ⟨hold.file, hold.entry⟩, fun _ _ hfree => ⟨hfree.files, hfree.entries⟩⟩

/-- A letter under a local id that is not there yet. -/
lemma Tracked.insert (h : b.Tracked) (hid : ∃ k ≤ b.highWater, e.localID = formatLocalID k)
    (hfree : b.Free e.localID) (o : WriteOutcome) :
    Leaves (fun id => id = e.localID) b (b.insert e o) := by
  have hfiles : ∀ x, x ∈ (b.insert e o).files ↔ x ∈ b.files ∨ o.written = true ∧ x = e := by
    intro x
    simp only [Outbox.insert]
    cases o.written with
    | false => simp
    | true =>
        simp only [if_true, true_and]
        rw [h.ascending.mem_put_iff, or_comm]
        exact or_congr_left ⟨And.left, fun hx => ⟨hx, hfree.files x hx⟩⟩
  have hentries : ∀ x, x ∈ (b.insert e o).entries ↔ x ∈ b.entries ∨ o.ok = true ∧ x = e := by
    intro x
    simp only [Outbox.insert]
    cases o.ok with
    | false => simp
    | true => simp
  refine ⟨⟨?_, ?_, fun x hx => ?_, fun x hx => ?_, h.le, h.lt⟩, le_refl _,
    fun x _ hold => ⟨(hfiles x).2 (Or.inl hold.file), (hentries x).2 (Or.inl hold.entry)⟩,
    fun id hne hold => ⟨fun x hx => ?_, fun x hx => ?_⟩⟩
  · simp only [Outbox.insert]
    split_ifs
    · exact h.ascending.put e
    · exact h.ascending
  · simp only [Outbox.insert]
    split_ifs
    · rw [List.map_append, List.map_singleton]
      refine List.nodup_append.2 ⟨h.nodup, List.nodup_singleton _, fun x hx y hy => ?_⟩
      obtain ⟨z, hz, rfl⟩ := List.mem_map.1 hx
      rw [List.mem_singleton.1 hy]
      exact hfree.entries z hz
    · exact h.nodup
  · rcases (hfiles x).1 hx with hx | ⟨-, rfl⟩
    · exact h.files x hx
    · exact hid
  · rcases (hentries x).1 hx with hx | ⟨-, rfl⟩
    · exact h.entries x hx
    · exact hid
  · rcases (hfiles x).1 hx with hx | ⟨-, rfl⟩
    · exact hold.files x hx
    · exact Ne.symm hne
  · rcases (hentries x).1 hx with hx | ⟨-, rfl⟩
    · exact hold.entries x hx
    · exact Ne.symm hne

/-- The letter that `Add` makes. -/
def fresh (b : Outbox) (contactID subject body : String) (composedAt : ℤ) : OutboxEntry where
  localID := formatLocalID b.next
  contactID := contactID
  subject := subject
  body := body
  composedAt := composedAt

/-- What `Add` can do: nothing to any other letter; and where it succeeds, the new one is there
under a number that comes next. -/
lemma Tracked.add (h : b.Tracked) (hroom : b.highWater + 1 < 2 ^ 63)
    (contactID subject body : String) (composedAt : ℤ) (o₁ o₂ : WriteOutcome) :
    Leaves (fun id => id = formatLocalID b.next) b
        (b.add contactID subject body composedAt o₁ o₂).1 ∧
      ∀ id, (b.add contactID subject body composedAt o₁ o₂).2 = some id →
        id = formatLocalID b.next ∧ (b.add contactID subject body composedAt o₁ o₂).1.highWater =
            b.highWater + 1 ∧
          (b.add contactID subject body composedAt o₁ o₂).1.Holds
            (b.fresh contactID subject body composedAt) := by
  by_cases hfull : outboxCap ≤ b.sendableCount
  · rw [add_of_full hfull]
    exact ⟨h.leaves_self _, nofun⟩
  · rw [add_of_room (not_le.1 hfull)]
    cases hok : o₁.ok with
    | false =>
        rw [if_pos rfl]
        exact ⟨h.mint hroom _ o₁, nofun⟩
    | true =>
        rw [if_neg (by decide)]
        have hminted := h.mint hroom (fun id => id = formatLocalID b.next) o₁
        have hhigh : (b.mint o₁).highWater = b.next := if_pos hok
        have hfree : (b.mint o₁).Free (formatLocalID b.next) :=
          ⟨h.free_next.files, h.free_next.entries⟩
        have hinserted := hminted.tracked.insert
          (e := b.fresh contactID subject body composedAt) ⟨b.next, hhigh.ge, rfl⟩ hfree o₂
        refine ⟨hminted.trans hinserted, fun id hid => ?_⟩
        cases o₂ with
        | done =>
            obtain rfl := Option.some.inj hid
            refine ⟨rfl, hhigh.trans h.next_eq, Keyed.mem_put_self _ _, ?_⟩
            exact List.mem_append_right _ (List.mem_singleton_self _)
        | unchanged | replaced => cases hid

/-! ## `Resolve` and `Discard` -/

/-- Without the letters of a local id, on flash or in memory or both. -/
lemma Tracked.leaves_filter (h : b.Tracked) (hhigh : b'.highWater = b.highWater)
    (hcounter : b'.counter = b.counter)
    (hfiles : b'.files = b.files ∨ b'.files = b.files.filter fun e => decide (e.localID ≠ localID))
    (hentries : b'.entries = b.entries ∨
      b'.entries = b.entries.filter fun e => decide (e.localID ≠ localID)) :
    Leaves (fun id => id = localID) b b' := by
  have hsubFiles : b'.files.Sublist b.files := by
    rcases hfiles with heq | heq
    · rw [heq]
    · rw [heq]
      exact List.filter_sublist
  have hsubEntries : b'.entries.Sublist b.entries := by
    rcases hentries with heq | heq
    · rw [heq]
    · rw [heq]
      exact List.filter_sublist
  refine ⟨⟨h.ascending.sublist hsubFiles, h.nodup.sublist (hsubEntries.map _),
    fun e he => hhigh ▸ h.files e (hsubFiles.subset he),
    fun e he => hhigh ▸ h.entries e (hsubEntries.subset he), ?_, hcounter ▸ h.lt⟩, hhigh.ge,
    fun e hne hold => ⟨?_, ?_⟩, fun id _ hfree => ⟨fun e he => hfree.files e (hsubFiles.subset he),
      fun e he => hfree.entries e (hsubEntries.subset he)⟩⟩
  · rw [hhigh, hcounter]
    exact h.le
  · rcases hfiles with heq | heq
    · exact heq ▸ hold.file
    · exact heq ▸ List.mem_filter.2 ⟨hold.file, decide_eq_true hne⟩
  · rcases hentries with heq | heq
    · exact heq ▸ hold.entry
    · exact heq ▸ List.mem_filter.2 ⟨hold.entry, decide_eq_true hne⟩

/-- What `Erase` can do.  Where it returns true, or power is lost and the removal is on flash, the
letter is gone. -/
lemma Tracked.erase (h : b.Tracked) (localID : String) (o : WriteOutcome) :
    Leaves (fun id => id = localID) b (b.erase localID o).1 ∧
      ((b.erase localID o).2 = true → (b.erase localID o).1.Free localID) ∧
      (o.written = true → ∀ e ∈ (b.erase localID o).1.files, e.localID ≠ localID) ∧
      (o.written = false → ∀ e ∈ b.files, e ∈ (b.erase localID o).1.files) := by
  have hout : ∀ xs : List OutboxEntry, ∀ e ∈ xs.filter fun e => decide (e.localID ≠ localID),
      e.localID ≠ localID := fun xs e he => of_decide_eq_true (List.mem_filter.1 he).2
  unfold Outbox.erase
  by_cases hall : b.files.all (fun e => decide (e.localID ≠ localID)) = true
  · have hnone : ∀ e ∈ b.files, e.localID ≠ localID := fun e he =>
      of_decide_eq_true (List.all_eq_true.1 hall e he)
    simp only [if_pos hall]
    exact ⟨h.leaves_filter rfl rfl (Or.inl rfl) (Or.inr rfl), fun _ => ⟨hnone, hout _⟩,
      fun _ => hnone, fun _ e he => he⟩
  · simp only [if_neg hall]
    cases o with
    | done =>
        exact ⟨h.leaves_filter rfl rfl (Or.inr rfl) (Or.inr rfl), fun _ => ⟨hout _, hout _⟩,
          fun _ => hout _, nofun⟩
    | unchanged =>
        exact ⟨h.leaves_filter rfl rfl (Or.inl rfl) (Or.inl rfl), nofun, nofun, fun _ e he => he⟩
    | replaced =>
        exact ⟨h.leaves_filter rfl rfl (Or.inr rfl) (Or.inl rfl), nofun, fun _ => hout _, nofun⟩

/-- A reject touches its own letter only. -/
lemma Tracked.rejected (h : b.Tracked) (he : b.find? localID = some e) (status : Option AckStatus)
    (o : WriteOutcome) : Leaves (fun id => id = localID) b (b.rejected localID status e o) := by
  obtain ⟨hmem, hid⟩ := mem_of_find? he
  have hids : (b.rejected localID status e o).entries.map OutboxEntry.localID =
      b.entries.map OutboxEntry.localID := by
    simp only [Outbox.rejected, List.map_map]
    refine List.map_congr_left fun x _ => ?_
    by_cases hx : x.localID = localID
    · simp [hx]
    · simp [hx]
  have hentry : ∀ x ∈ (b.rejected localID status e o).entries,
      ∃ y ∈ b.entries, y.localID = x.localID := by
    intro x hx
    exact List.mem_map.1 (hids ▸ List.mem_map_of_mem hx)
  have hfile : ∀ x, x ∈ (b.rejected localID status e o).files →
      x ∈ b.files ∨ x.localID = localID := by
    intro x hx
    simp only [Outbox.rejected] at hx
    split_ifs at hx
    · rcases Keyed.mem_of_mem_put hx with rfl | hx
      · exact Or.inr hid
      · exact Or.inl hx
    · exact Or.inl hx
  refine ⟨⟨?_, hids ▸ h.nodup, fun x hx => ?_, fun x hx => ?_, h.le, h.lt⟩, le_refl _,
    fun x hne hold => ⟨?_, ?_⟩, fun id hne hfree => ⟨fun x hx => ?_, fun x hx => ?_⟩⟩
  · simp only [Outbox.rejected]
    split_ifs
    · exact h.ascending.put _
    · exact h.ascending
  · rcases hfile x hx with hx | hx
    · exact h.files x hx
    · obtain ⟨k, hk, hid'⟩ := h.entries e hmem
      exact ⟨k, hk, hx.trans (hid.symm.trans hid')⟩
  · obtain ⟨y, hy, hid'⟩ := hentry x hx
    exact hid' ▸ h.entries y hy
  · simp only [Outbox.rejected]
    split_ifs
    · refine h.ascending.mem_put_iff.2 (Or.inr ⟨hold.file, ?_⟩)
      rw [localID_reject, hid]
      exact hne
    · exact hold.file
  · exact List.mem_map.2 ⟨x, hold.entry, if_neg hne⟩
  · rcases hfile x hx with hx | hx
    · exact hfree.files x hx
    · exact hx ▸ Ne.symm hne
  · obtain ⟨y, hy, hid'⟩ := hentry x hx
    exact hid' ▸ hfree.entries y hy

/-- What `Resolve` can do: nothing to any other letter.  Where the write has not reached the flash,
the files are as they were; and a letter that is resolved as sent is gone. -/
lemma Tracked.resolve (h : b.Tracked) (localID : String) (status : Option AckStatus)
    (o : WriteOutcome) :
    Leaves (fun id => id = localID) b (b.resolve localID status o).1 ∧
      (o.written = false → ∀ e ∈ b.files, e ∈ (b.resolve localID status o).1.files) ∧
      (status = some .sent → (b.find? localID).isSome →
        ((b.resolve localID status o).2 = true → (b.resolve localID status o).1.Free localID) ∧
          (o.written = true →
            ∀ e ∈ (b.resolve localID status o).1.files, e.localID ≠ localID)) := by
  cases he : b.find? localID with
  | none =>
      rw [resolve_none he]
      exact ⟨h.leaves_self _, fun _ _ he => he, fun _ hsome => absurd hsome (by decide)⟩
  | some e =>
      by_cases hsent : status = some .sent
      · subst hsent
        rw [resolve_sent he]
        obtain ⟨hleaves, hfree, hwritten, hkept⟩ := h.erase localID o
        exact ⟨hleaves, hkept, fun _ _ => ⟨hfree, hwritten⟩⟩
      · rw [resolve_reject he hsent]
        refine ⟨h.rejected he status o, fun ho x hx => ?_, fun heq => absurd heq hsent⟩
        simp only [Outbox.rejected, ho]
        exact hx

lemma Tracked.discard (h : b.Tracked) (localID : String) (o : WriteOutcome) :
    Leaves (fun id => id = localID) b (b.discard localID o).1 ∧
      (o.written = false → ∀ e ∈ b.files, e ∈ (b.discard localID o).1.files) := by
  unfold Outbox.discard
  split
  · exact ⟨h.leaves_self _, fun _ _ he => he⟩
  · obtain ⟨hleaves, -, -, hkept⟩ := h.erase localID o
    exact ⟨hleaves, hkept⟩

lemma Free.find?_eq_none (h : b.Free id) : b.find? id = none :=
  List.find?_eq_none.2 fun e he => by simpa using h.entries e he

lemma counter_erase (b : Outbox) (localID : String) (o : WriteOutcome) :
    (b.erase localID o).1.counter = b.counter := by
  unfold Outbox.erase
  dsimp only
  split_ifs <;> rfl

lemma counter_resolve (b : Outbox) (localID : String) (status : Option AckStatus)
    (o : WriteOutcome) : (b.resolve localID status o).1.counter = b.counter := by
  unfold Outbox.resolve
  split
  · rfl
  · split
    · exact counter_erase b localID o
    · rfl

lemma counter_discard (b : Outbox) (localID : String) (o : WriteOutcome) :
    (b.discard localID o).1.counter = b.counter := by
  unfold Outbox.discard
  split
  · rfl
  · exact counter_erase b localID o

lemma Tracked.counter_add_le (h : b.Tracked) (contactID subject body : String) (composedAt : ℤ)
    (o₁ o₂ : WriteOutcome) :
    (b.add contactID subject body composedAt o₁ o₂).1.counter ≤ b.counter + 1 := by
  have hle := h.le
  have hmint : (b.mint o₁).counter ≤ b.counter + 1 := by
    simp only [Outbox.mint, h.next_eq]
    split_ifs <;> omega
  by_cases hfull : outboxCap ≤ b.sendableCount
  · rw [add_of_full hfull]
    exact Nat.le_succ _
  · rw [add_of_room (not_le.1 hfull)]
    cases o₁.ok with
    | false => exact hmint
    | true => exact hmint

/-! ## The order of the list -/

/-- Letters of the outbox whose local ids ascend are listed in that order. -/
lemma Tracked.sublist_sendable (h : b.Tracked) {es : List OutboxEntry}
    (hes : Keyed.Ascending OutboxEntry.localID es) (hmem : ∀ e ∈ es, e ∈ b.entries)
    (hsend : ∀ e ∈ es, e.rejected = false) : es.Sublist b.sendable := by
  have hlisted : ∀ e ∈ es, e ∈ b.sendable := by
    intro e he
    refine List.mem_filter.2 ⟨(List.mem_insertionSort _).2 (hmem e he), ?_⟩
    simp [hsend e he]
  have hsorted : b.sendable.Pairwise fun x y => x.localID ≤ y.localID := by
    have htotal : Std.Total fun x y : OutboxEntry => x.localID ≤ y.localID :=
      ⟨fun _ _ => le_total _ _⟩
    have htrans : IsTrans OutboxEntry fun x y => x.localID ≤ y.localID := ⟨fun _ _ _ => le_trans⟩
    exact (List.pairwise_insertionSort _ _).filter _
  have hnodup : (b.sendable.map OutboxEntry.localID).Nodup := by
    have hperm : (b.entries.insertionSort fun x y => x.localID ≤ y.localID).Perm b.entries :=
      List.perm_insertionSort _ _
    exact ((hperm.map OutboxEntry.localID).nodup_iff.2 h.nodup).sublist
      (List.filter_sublist.map _)
  -- the listed letters that are among these are these
  have heq : es = b.sendable.filter fun e => decide (e ∈ es) := by
    refine List.Perm.eq_of_pairwise
      (fun x y hx hy (hxy : x.localID ≤ y.localID) (hyx : y.localID ≤ x.localID) => ?_)
      (hes.imp le_of_lt) (hsorted.filter _) ?_
    · have hx : x ∈ b.sendable := hlisted x hx
      exact List.inj_on_of_nodup_map hnodup hx (List.mem_of_mem_filter hy) (le_antisymm hxy hyx)
    · refine (List.perm_ext_iff_of_nodup (List.Nodup.of_map _ hes.nodup_map)
        ((List.Nodup.of_map _ hnodup).filter _)).2 fun e => ?_
      rw [List.mem_filter, decide_eq_true_iff]
      exact ⟨fun he => ⟨hlisted e he, he⟩, And.right⟩
  rw [heq]
  exact List.filter_sublist

end Outbox

/-! ## Histories -/

/-- An outbox, with what was promised of it. -/
structure History where
  box : Outbox := Outbox.formatted.opened
  /-- The local ids that `Add` returned. -/
  returned : List String := []
  /-- The letters whose `Add` succeeded and that were neither resolved nor discarded since. -/
  waiting : List OutboxEntry := []
  /-- The local ids of the letters that were resolved as sent. -/
  sent : List String := []
  /-- How often `Add` was called. -/
  adds : ℕ := 0

namespace History

/-- A call with how its writes end, and whether power is lost before it returns; or a loss of power
between two calls. -/
inductive Event
  | add (contactID subject body : String) (composedAt : ℤ) (o₁ o₂ : WriteOutcome) (lost : Bool)
  | resolve (localID : String) (status : Option AckStatus) (o : WriteOutcome) (lost : Bool)
  | discard (localID : String) (o : WriteOutcome) (lost : Bool)
  | boot
  deriving DecidableEq, Repr

/-- What a call leaves, where power may have been lost in it. -/
def left (b : Outbox) (lost : Bool) : Outbox := if lost then b.reopened else b

/-- A call that names a letter settles it, unless power was lost before its write. -/
def settles (o : WriteOutcome) (lost : Bool) : Bool := !lost || o.written

/-- The waiting letters after a call that names one of them. -/
def unsettled (h : History) (localID : String) (o : WriteOutcome) (lost : Bool) :
    List OutboxEntry :=
  if settles o lost then h.waiting.filter fun e => decide (e.localID ≠ localID) else h.waiting

def step (h : History) : Event → History
  | .add contactID subject body composedAt o₁ o₂ lost =>
      let r := h.box.add contactID subject body composedAt o₁ o₂
      let h := { h with box := left r.1 lost, adds := h.adds + 1 }
      match lost, r.2 with
      | false, some id =>
          { h with
            returned := h.returned ++ [id]
            waiting := h.waiting ++ [⟨id, contactID, subject, body, composedAt, false, none, 0⟩] }
      | _, _ => h
  | .resolve localID status o lost =>
      let r := h.box.resolve localID status o
      { h with
        box := left r.1 lost
        waiting := h.unsettled localID o lost
        sent := if status = some .sent ∧ (h.box.find? localID).isSome ∧
            (if lost then o.written else r.2) then h.sent ++ [localID] else h.sent }
  | .discard localID o lost =>
      { h with
        box := left (h.box.discard localID o).1 lost
        waiting := h.unsettled localID o lost }
  | .boot => { h with box := h.box.reopened }

/-! ## What is promised -/

/-- The ids that were returned ascend; the letters that wait are listed in the order in which they
were composed; and no letter that was sent is there, or is found by another boot. -/
structure Kept (h : History) : Prop where
  ascending : h.returned.Pairwise (· < ·)
  composed : (h.waiting.map OutboxEntry.localID).Sublist h.returned
  listed : h.waiting.Sublist h.box.sendable
  gone : ∀ id ∈ h.sent, ∀ e ∈ h.box.all ++ h.box.reopened.all, e.localID ≠ id

def isAdd : Event → Bool
  | .add .. => true
  | _ => false

/-- What the steps keep. -/
structure Inv (h : History) : Prop where
  tracked : h.box.Tracked
  counter_le : h.box.counter ≤ h.adds
  returned : ∃ ks : List ℕ, h.returned = ks.map formatLocalID ∧ ks.Pairwise (· < ·) ∧
    ∀ k ∈ ks, k ≤ h.box.highWater
  composed : (h.waiting.map OutboxEntry.localID).Sublist h.returned
  waiting : ∀ e ∈ h.waiting, e.rejected = false ∧ h.box.Holds e
  sent : ∀ id ∈ h.sent, h.box.Free id ∧ ∃ k ≤ h.box.highWater, id = formatLocalID k

variable {h : History} {b : Outbox} {lost : Bool} {o : WriteOutcome} {localID : String}

lemma counter_left (b : Outbox) (lost : Bool) : (left b lost).counter = b.counter := by
  cases lost <;> rfl

lemma leaves_left {named : String → Prop} {b' : Outbox} (hleaves : Outbox.Leaves named b b')
    (lost : Bool) : Outbox.Leaves named b (left b' lost) := by
  cases lost with
  | false => exact hleaves
  | true => exact hleaves.trans (hleaves.tracked.leaves_reopened named)

lemma returned_mono {b' : Outbox} (hhigh : h.box.highWater ≤ b'.highWater)
    (hreturned : ∃ ks : List ℕ, h.returned = ks.map formatLocalID ∧ ks.Pairwise (· < ·) ∧
      ∀ k ∈ ks, k ≤ h.box.highWater) :
    ∃ ks : List ℕ, h.returned = ks.map formatLocalID ∧ ks.Pairwise (· < ·) ∧
      ∀ k ∈ ks, k ≤ b'.highWater := by
  obtain ⟨ks, hks, hsorted, hle⟩ := hreturned
  exact ⟨ks, hks, hsorted, fun k hk => (hle k hk).trans hhigh⟩

/-- A call that names a letter, and may settle it. -/
lemma Inv.named {b' : Outbox} {sent' : List String} (hinv : Inv h)
    (hleaves : Outbox.Leaves (fun id => id = localID) h.box b')
    (hcounter : b'.counter = h.box.counter)
    (hkept : o.written = false → ∀ e ∈ h.box.files, e ∈ b'.files)
    (hsent : ∀ id ∈ sent', (left b' lost).Free id ∧
      ∃ k ≤ (left b' lost).highWater, id = formatLocalID k) :
    Inv { h with
      box := left b' lost
      waiting := h.unsettled localID o lost
      sent := sent' } := by
  have hleft := leaves_left hleaves lost
  have hsub : (h.unsettled localID o lost).Sublist h.waiting := by
    unfold unsettled
    split_ifs
    · exact List.filter_sublist
    · exact List.Sublist.refl _
  refine ⟨hleft.tracked, ?_, returned_mono (h := h) hleft.highWater hinv.returned,
    (hsub.map _).trans hinv.composed, fun e he => ?_, hsent⟩
  · show (left b' lost).counter ≤ h.adds
    rw [counter_left, hcounter]
    exact hinv.counter_le
  · obtain ⟨hrejected, hholds⟩ := hinv.waiting e (hsub.subset he)
    refine ⟨hrejected, ?_⟩
    by_cases hsettles : settles o lost = true
    · rw [unsettled, if_pos hsettles] at he
      exact hleft.holds e (of_decide_eq_true (List.mem_filter.1 he).2) hholds
    · -- power was lost before the write, and the file is as it was
      rw [settles, Bool.not_eq_true, Bool.or_eq_false_iff, Bool.not_eq_false'] at hsettles
      obtain ⟨rfl, hunwritten⟩ := hsettles
      have hfile := hkept hunwritten e hholds.file
      exact ⟨hfile, hfile⟩

lemma Inv.add {contactID subject body : String} {composedAt : ℤ} {o₁ o₂ : WriteOutcome}
    (hinv : Inv h) (hroom : h.adds + 1 < 10 ^ localIDDigits) :
    Inv (h.step (.add contactID subject body composedAt o₁ o₂ lost)) := by
  have hle := hinv.tracked.le
  have hcounter := hinv.counter_le
  have hdigits : 10 ^ localIDDigits < 2 ^ 63 := by decide
  obtain ⟨hleaves, hresult⟩ := hinv.tracked.add (by omega : h.box.highWater + 1 < 2 ^ 63)
    contactID subject body composedAt o₁ o₂
  have hcount := hinv.tracked.counter_add_le contactID subject body composedAt o₁ o₂
  unfold step
  dsimp only
  generalize h.box.add contactID subject body composedAt o₁ o₂ = r at hleaves hresult hcount ⊢
  have hnew := hinv.tracked.free_next
  have hleft := leaves_left hleaves lost
  have hold : ∀ e ∈ h.waiting, e.rejected = false ∧ (left r.1 lost).Holds e := by
    intro e he
    obtain ⟨hrejected, hholds⟩ := hinv.waiting e he
    exact ⟨hrejected, hleft.holds e (hnew.entries e hholds.entry) hholds⟩
  have hsent : ∀ id ∈ h.sent, (left r.1 lost).Free id ∧
      ∃ k ≤ (left r.1 lost).highWater, id = formatLocalID k := by
    intro id hid
    obtain ⟨hfree, k, hk, hid'⟩ := hinv.sent id hid
    have hne := hinv.tracked.ne_next ⟨k, hk, hid'⟩
    exact ⟨hleft.free id hne hfree, k, hk.trans hleft.highWater, hid'⟩
  have hsame : Inv { h with box := left r.1 lost, adds := h.adds + 1 } := by
    refine ⟨hleft.tracked, ?_, returned_mono (h := h) hleft.highWater hinv.returned,
      hinv.composed, hold, hsent⟩
    show (left r.1 lost).counter ≤ h.adds + 1
    rw [counter_left]
    omega
  cases lost with
  | true => exact hsame
  | false =>
      obtain ⟨box, result⟩ := r
      cases result with
      | none => exact hsame
      | some id =>
          obtain ⟨rfl, hhigh, hholds⟩ := hresult id rfl
          have hhigh : box.highWater = h.box.highWater + 1 := hhigh
          refine ⟨hsame.tracked, hsame.counter_le, ?_, ?_, fun e he => ?_, hsent⟩
          · obtain ⟨ks, hks, hsorted, hle'⟩ := hinv.returned
            refine ⟨ks ++ [h.box.next], ?_, ?_, fun k hk => ?_⟩
            · rw [List.map_append, ← hks]
              rfl
            · refine List.pairwise_append.2 ⟨hsorted, List.pairwise_singleton _ _, ?_⟩
              intro k hk k' hk'
              rw [List.mem_singleton.1 hk', hinv.tracked.next_eq]
              exact Nat.lt_succ_of_le (hle' k hk)
            · show k ≤ box.highWater
              rw [hhigh]
              rcases List.mem_append.1 hk with hk | hk
              · exact (hle' k hk).trans (Nat.le_succ _)
              · rw [List.mem_singleton.1 hk, hinv.tracked.next_eq]
          · show ((h.waiting ++ [_]).map OutboxEntry.localID).Sublist (h.returned ++ [_])
            rw [List.map_append]
            exact hinv.composed.append (List.Sublist.refl _)
          · rcases List.mem_append.1 he with he | he
            · exact hold e he
            · rw [List.mem_singleton.1 he]
              exact ⟨rfl, hholds⟩

lemma Inv.resolve {status : Option AckStatus} (hinv : Inv h) :
    Inv (h.step (.resolve localID status o lost)) := by
  obtain ⟨hleaves, hkept, hgone⟩ := hinv.tracked.resolve localID status o
  have hleft := leaves_left hleaves lost
  refine hinv.named hleaves (Outbox.counter_resolve ..) hkept fun id hid => ?_
  have hold : ∀ id ∈ h.sent, (left (h.box.resolve localID status o).1 lost).Free id ∧
      ∃ k ≤ (left (h.box.resolve localID status o).1 lost).highWater, id = formatLocalID k := by
    intro id hid
    obtain ⟨hfree, k, hk, hid'⟩ := hinv.sent id hid
    refine ⟨?_, k, hk.trans hleft.highWater, hid'⟩
    by_cases hne : id = localID
    · -- it names no letter any more
      subst hne
      rw [Outbox.resolve_none hfree.find?_eq_none]
      cases lost with
      | false => exact hfree
      | true => exact ⟨hfree.files, hfree.files⟩
    · exact hleft.free id hne hfree
  by_cases hnow : status = some .sent ∧ (h.box.find? localID).isSome ∧
      (if lost then o.written else (h.box.resolve localID status o).2)
  · rw [if_pos hnow] at hid
    rcases List.mem_append.1 hid with hid | hid
    · exact hold id hid
    · obtain rfl := List.mem_singleton.1 hid
      obtain ⟨hstatus, hsome, hdone⟩ := hnow
      obtain ⟨htrue, hwritten⟩ := hgone hstatus hsome
      obtain ⟨e, he⟩ := Option.isSome_iff_exists.1 hsome
      obtain ⟨hmem, hid'⟩ := Outbox.mem_of_find? he
      obtain ⟨k, hk, hnumber⟩ := hinv.tracked.entries e hmem
      refine ⟨?_, k, hk.trans hleft.highWater, hid' ▸ hnumber⟩
      cases lost with
      | false => exact htrue hdone
      | true => exact ⟨hwritten hdone, hwritten hdone⟩
  · rw [if_neg hnow] at hid
    exact hold id hid

lemma Inv.discard (hinv : Inv h) : Inv (h.step (.discard localID o lost)) := by
  obtain ⟨hleaves, hkept⟩ := hinv.tracked.discard localID o
  have hleft := leaves_left hleaves lost
  refine hinv.named hleaves (Outbox.counter_discard ..) hkept fun id hid => ?_
  obtain ⟨hfree, k, hk, hid'⟩ := hinv.sent id hid
  refine ⟨?_, k, hk.trans hleft.highWater, hid'⟩
  by_cases hne : id = localID
  · subst hne
    have hsame : h.box.discard id o = (h.box, false) := by
      simp only [Outbox.discard, hfree.find?_eq_none]
    rw [hsame]
    cases lost with
    | false => exact hfree
    | true => exact ⟨hfree.files, hfree.files⟩
  · exact hleft.free id hne hfree

lemma Inv.boot (hinv : Inv h) : Inv (h.step .boot) := by
  have hleaves := hinv.tracked.leaves_reopened fun _ => False
  refine ⟨hleaves.tracked, hinv.counter_le, returned_mono (h := h) hleaves.highWater hinv.returned,
    hinv.composed, fun e he => ?_, fun id hid => ?_⟩
  · obtain ⟨hrejected, hholds⟩ := hinv.waiting e he
    exact ⟨hrejected, hleaves.holds e not_false hholds⟩
  · obtain ⟨hfree, k, hk, hid'⟩ := hinv.sent id hid
    exact ⟨hleaves.free id not_false hfree, k, hk.trans hleaves.highWater, hid'⟩

/-! ## Every history -/

lemma adds_step (h : History) (e : Event) :
    (h.step e).adds = h.adds + if isAdd e then 1 else 0 := by
  cases e with
  | add contactID subject body composedAt o₁ o₂ lost =>
      simp only [step]
      split <;> rfl
  | resolve | discard | boot => rfl

lemma Inv.step {e : Event} (hinv : Inv h) (hroom : (h.step e).adds < 10 ^ localIDDigits) :
    Inv (h.step e) := by
  cases e with
  | add =>
      rw [adds_step] at hroom
      exact hinv.add hroom
  | resolve => exact hinv.resolve
  | discard => exact hinv.discard
  | boot => exact hinv.boot

lemma inv_start : Inv {} where
  tracked := ⟨List.Pairwise.nil, List.nodup_nil, nofun, nofun, le_refl _, by decide⟩
  counter_le := le_refl _
  returned := ⟨[], rfl, List.Pairwise.nil, nofun⟩
  composed := List.Sublist.refl _
  waiting := nofun
  sent := nofun

lemma adds_foldl (es : List Event) (h : History) :
    (es.foldl step h).adds = h.adds + es.countP isAdd := by
  induction es generalizing h with
  | nil => rfl
  | cons e es ih =>
      rw [List.foldl_cons, ih, adds_step, List.countP_cons]
      omega

lemma inv_foldl {es : List Event} (hinv : Inv h)
    (hroom : (es.foldl step h).adds < 10 ^ localIDDigits) : Inv (es.foldl step h) := by
  induction es generalizing h with
  | nil => exact hinv
  | cons e es ih =>
      refine ih (hinv.step ?_) hroom
      rw [List.foldl_cons, adds_foldl] at hroom
      omega

lemma Inv.kept (hinv : Inv h) (hroom : h.adds < 10 ^ localIDDigits) : Kept h := by
  have hhigh : h.box.highWater < 10 ^ localIDDigits :=
    (hinv.tracked.le.trans hinv.counter_le).trans_lt hroom
  have hascending : h.returned.Pairwise (· < ·) := by
    obtain ⟨ks, hks, hsorted, hle⟩ := hinv.returned
    rw [hks, List.pairwise_map]
    refine hsorted.imp_of_mem fun {m n} _ hn hmn => ?_
    exact formatLocalID_lt hmn ((hle n hn).trans_lt hhigh)
  refine ⟨hascending, hinv.composed, ?_, fun id hid e he => ?_⟩
  · refine hinv.tracked.sublist_sendable (List.pairwise_map.1 (hascending.sublist hinv.composed))
      (fun e he => (hinv.waiting e he).2.entry) fun e he => (hinv.waiting e he).1
  · obtain ⟨hfree, -⟩ := hinv.sent id hid
    rcases List.mem_append.1 he with he | he
    · exact hfree.entries e ((List.mem_insertionSort _).1 he)
    · exact hfree.files e ((List.mem_insertionSort _).1 he)

/-- As long as the digits of the local ids suffice, the ids that `Add` returns ascend, every letter
it took is listed until it is settled, and none that was sent comes back, whatever fails and
whenever power is lost. -/
theorem kept_of_adds (es : List Event) (hroom : es.countP isAdd < 10 ^ localIDDigits) :
    Kept (es.foldl step {}) := by
  have hadds : (es.foldl step {}).adds < 10 ^ localIDDigits := by
    rw [adds_foldl]
    exact (Nat.zero_add _).trans_lt hroom
  exact (inv_foldl inv_start hadds).kept hadds

/-- Power is lost behind the counter and behind the removal. -/
def interrupted : List Event :=
  [.add "mama" "" "uno" 1 .done .done false, .add "mama" "" "dos" 2 .done .unchanged true,
    .add "mama" "" "tres" 3 .done .done false,
    .resolve (formatLocalID 1) (some .sent) .replaced true, .boot]

theorem kept_interrupted :
    (interrupted.foldl step {}).returned = [formatLocalID 1, formatLocalID 3] ∧
      (interrupted.foldl step {}).sent = [formatLocalID 1] ∧ Kept (interrupted.foldl step {}) :=
  ⟨by decide +kernel, by decide +kernel, kept_of_adds interrupted (by decide)⟩

end History

end Chaskiwasi.Device
