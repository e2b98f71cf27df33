import Chaskiwasi.Mail.Imap
import Chaskiwasi.Mail.Folder
import Mathlib.Order.Lattice

/-!
# Fetching what is above a UID

`FetchAbove` asks the server for the UIDs from the next one on, as a range to `*`.  In IMAP `*` is
the highest UID of the folder, and a range is what lies between its two ends, whichever of them is
the greater.  So where nothing is above the UID, the range runs backwards and holds the last
message; and above the greatest UID of all the next one is zero, which the client writes as `*`.
The folder's own `fetchAbove` is what the caller is promised.
-/

namespace Chaskiwasi.Imap

/-- What `*` stands for: the highest UID of the folder. -/
def top (f : Folder) : UID := (f.msgs.getLast?.map Raw.uid).getD 0

/-- The answer to a UID FETCH of `start:*`, in UID order.  The client writes zero as `*`. -/
def fetchRange (f : Folder) (start : UID) : List Raw :=
  let low := if start = 0 then top f else start
  f.msgs.filter fun m => min low (top f) ≤ m.uid ∧ m.uid ≤ max low (top f)

/-- One round of `FetchAbove` on a connection. -/
def fetchOnce (uid : UID) (max : ℤ) (f : Folder) (p : Pass) :
    Folder × Except Failure (List Raw) :=
  if p.select ≠ .answered then (f, .error .select)
  else if max ≤ 0 then (f, .ok [])
  else if p.command ≠ .answered then (f, .error .command)
  else (f, .ok ((fetchRange f (uid + 1)).take max.toNat))

def fetchAbove (conn : Bool) (f : Folder) (uid : UID) (max : ℤ) (passes : List Pass) :
    Option (Except CallError (List Raw)) :=
  (withConn (fetchOnce uid max) conn f passes).2

variable {f : Folder} {uid : UID} {max : ℤ} {m : Raw}

/-! ## The range -/

lemma le_top (hm : m ∈ f.msgs) : m.uid ≤ top f := by
  have hne : f.msgs ≠ [] := List.ne_nil_of_mem hm
  have hsorted := f.sorted
  rw [← List.dropLast_append_getLast hne, Keyed.Ascending, List.pairwise_append] at hsorted
  rw [← List.dropLast_append_getLast hne, List.mem_append, List.mem_singleton] at hm
  have htop : top f = (f.msgs.getLast hne).uid := by
    rw [top, List.getLast?_eq_some_getLast hne]
    rfl
  rw [htop]
  rcases hm with hm | rfl
  · exact le_of_lt (hsorted.2.2 m hm _ (List.mem_singleton_self _))
  · exact le_rfl

lemma exists_top (h : f.msgs ≠ []) : ∃ m ∈ f.msgs, m.uid = top f := by
  refine ⟨f.msgs.getLast h, List.getLast_mem h, ?_⟩
  rw [top, List.getLast?_eq_some_getLast h]
  rfl

/-- Where something is above the UID, the range holds just that. -/
lemma fetchRange_of_above (h : ∃ m ∈ f.msgs, uid < m.uid) :
    fetchRange f (uid + 1) = f.above uid := by
  obtain ⟨m, hm, habove⟩ := h
  have htop : uid < top f := lt_of_lt_of_le habove (le_top hm)
  have hnext : (uid + 1).val = uid.val + 1 := by
    have hlast : (top f).val < 2 ^ 32 := (top f).isLt
    rw [Fin.val_add]
    have hless := Fin.lt_def.1 htop
    have hone : (1 : UID).val = 1 := rfl
    rw [hone]
    exact Nat.mod_eq_of_lt (by omega)
  have hstart : uid + 1 ≠ 0 := by
    intro hzero
    have hval := congrArg Fin.val hzero
    rw [hnext] at hval
    exact Nat.succ_ne_zero _ hval
  have hle : uid + 1 ≤ top f := by
    rw [Fin.le_def, hnext]
    exact htop
  unfold fetchRange Folder.above
  simp only [if_neg hstart, min_eq_left hle, max_eq_right hle]
  apply List.filter_congr
  intro x hx
  rw [decide_eq_decide, Fin.le_def, hnext]
  constructor
  · exact fun h => h.1
  · exact fun h => ⟨h, le_top hx⟩

lemma filter_top (f : Folder) :
    (f.msgs.filter fun m => m.uid = top f) = f.msgs.getLast?.toList := by
  rcases List.eq_nil_or_concat f.msgs with hempty | ⟨front, last, hsplit⟩
  · rw [hempty]
    rfl
  · rw [List.concat_eq_append] at hsplit
    have hlast : f.msgs.getLast? = some last := by
      rw [hsplit, List.getLast?_concat]
    have htop : top f = last.uid := by
      rw [top, hlast]
      rfl
    have hsorted := f.sorted
    rw [hsplit, Keyed.Ascending, List.pairwise_append] at hsorted
    have hfront : (front.filter fun m => m.uid = last.uid) = [] := by
      rw [List.filter_eq_nil_iff]
      intro m hm heq
      have hless := hsorted.2.2 m hm last (List.mem_singleton_self _)
      exact absurd (of_decide_eq_true heq) (ne_of_lt hless)
    rw [htop, hlast, hsplit, List.filter_append, hfront]
    simp

/-- Where nothing is above the UID, the range runs backwards, and holds the last message alone. -/
lemma fetchRange_of_none_above (h : ∀ m ∈ f.msgs, m.uid ≤ uid) :
    fetchRange f (uid + 1) = f.msgs.getLast?.toList := by
  have htop : top f ≤ uid := by
    by_cases hempty : f.msgs = []
    · rw [top, hempty]
      exact Fin.zero_le _
    · obtain ⟨m, hm, hlast⟩ := exists_top hempty
      exact hlast ▸ h m hm
  have hlow : min (if uid + 1 = 0 then top f else uid + 1) (top f) = top f := by
    apply min_eq_right
    split
    · exact le_rfl
    next hnext =>
      have hval : (uid + 1).val ≠ 0 := fun hzero => hnext (Fin.ext hzero)
      rw [Fin.val_add] at hval
      rw [Fin.le_def, Fin.val_add]
      have hle := Fin.le_def.1 htop
      have hone : (1 : UID).val = 1 := rfl
      rw [hone] at hval ⊢
      have huid : uid.val < 2 ^ 32 := uid.isLt
      omega
  rw [← filter_top]
  unfold fetchRange
  apply List.filter_congr
  intro m hm
  rw [decide_eq_decide, hlow]
  constructor
  · exact fun hrange => le_antisymm (le_top hm) hrange.1
  · intro heq
    rw [heq]
    exact ⟨le_rfl, le_max_right _ _⟩

/-! ## What the call returns -/

lemma eq_of_fetchAbove {conn : Bool} {passes : List Pass} {out : List Raw}
    (h : fetchAbove conn f uid max passes = some (.ok out)) :
    out = if max ≤ 0 then [] else (fetchRange f (uid + 1)).take max.toNat := by
  have hround : ∀ g p, g = f → (fetchOnce uid max g p).1 = f := by
    rintro g p rfl
    unfold fetchOnce
    split_ifs <;> rfl
  obtain ⟨g, p, rfl, hout⟩ := withConn_ok (I := fun g => g = f) hround rfl h
  unfold fetchOnce at hout
  split_ifs at hout ⊢
  · exact (Except.ok.inj hout).symm
  · exact (Except.ok.inj hout).symm

/-- On a good connection the call returns. -/
lemma fetchAbove_good (f : Folder) (uid : UID) (max : ℤ) :
    fetchAbove true f uid max [{}] =
      some (.ok (if max ≤ 0 then [] else (fetchRange f (uid + 1)).take max.toNat)) := by
  unfold fetchAbove
  by_cases hmax : max ≤ 0
  · simp [withConn, fetchOnce, hmax]
  · simp [withConn, fetchOnce, hmax]

/-- A caller that has every message is handed the last one again. -/
theorem fetches_last_again (h : ∀ m ∈ f.msgs, m.uid ≤ uid) (hmax : 0 < max) :
    fetchAbove true f uid max [{}] = some (.ok f.msgs.getLast?.toList) := by
  rw [fetchAbove_good, if_neg (not_le.2 hmax), fetchRange_of_none_above h,
    List.take_of_length_le]
  have hlength : f.msgs.getLast?.toList.length ≤ 1 := by
    cases f.msgs.getLast? <;> simp
  omega

/-- What `FetchAbove` promises of a folder, a UID and a limit: whatever becomes of the connections,
what it returns is the lowest messages above the UID, up to the limit, in UID order. -/
def FetchesWhatIsAbove (f : Folder) (uid : UID) (max : ℤ) : Prop :=
  ∀ conn passes out, fetchAbove conn f uid max passes = some (.ok out) →
    out = f.fetchAbove uid max.toNat

/-- **What is fetched is what is promised where there is something to fetch.**  `FetchAbove` returns
just the messages above the UID if and only if the limit is not positive, the folder is empty, or
some message is above the UID. -/
theorem fetches_what_is_above_iff :
    FetchesWhatIsAbove f uid max ↔ max ≤ 0 ∨ f.msgs = [] ∨ ∃ m ∈ f.msgs, uid < m.uid := by
  constructor
  · intro h
    by_contra hnone
    rw [not_or, not_or] at hnone
    obtain ⟨hmax, hne, hnone⟩ := hnone
    have hpast : ∀ m ∈ f.msgs, m.uid ≤ uid := fun m hm => not_lt.1 fun habove =>
      hnone ⟨m, hm, habove⟩
    have hlast := h true [{}] _ (fetches_last_again hpast (not_le.1 hmax))
    have hnothing : f.above uid = [] := by
      rw [Folder.above, List.filter_eq_nil_iff]
      intro m hm habove
      exact hnone ⟨m, hm, of_decide_eq_true habove⟩
    rw [Folder.fetchAbove, hnothing, List.take_nil] at hlast
    apply hne
    rw [← List.getLast?_eq_none_iff]
    cases hget : f.msgs.getLast? with
    | none => rfl
    | some m =>
        rw [hget] at hlast
        cases hlast
  · intro h conn passes out hout
    rw [eq_of_fetchAbove hout, Folder.fetchAbove]
    by_cases hmax : max ≤ 0
    · rw [if_pos hmax, Int.toNat_of_nonpos hmax, List.take_zero]
    rw [if_neg hmax]
    rcases h with hnot | hempty | habove
    · exact absurd hnot hmax
    · simp [fetchRange, Folder.above, hempty]
    · rw [fetchRange_of_above habove]

/-- What the caller is promised, of every folder, UID and limit. -/
def AlwaysFetchesWhatIsAbove : Prop :=
  ∀ (f : Folder) (uid : UID) (max : ℤ), FetchesWhatIsAbove f uid max

/-- A folder with one message, under UID 1. -/
def Sample.oneLetter : Folder :=
  Folder.empty.push { uid := 1, internalDate := 0, data := [], origin := .delivered } (by decide)

/-- **A device that has the only letter is sent it again.** -/
theorem only_letter_fetched_again : ¬ AlwaysFetchesWhatIsAbove := by
  intro hclaim
  have hout := hclaim Sample.oneLetter 1 10 true [{}] _ (fetchAbove_good _ _ _)
  revert hout
  decide

end Chaskiwasi.Imap
