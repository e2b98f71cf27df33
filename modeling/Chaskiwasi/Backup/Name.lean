import Chaskiwasi.Ayllu.Address
import Chaskiwasi.Lib.Calendar
import Chaskiwasi.Lib.Files
import Mathlib.Data.Int.Notation

/-!
# The names of the backups

A backup is a directory under the time at which it began, with a number behind a hyphen when that
name is taken.  The retention reads the time back from the name, by the layout it was written with;
where that fails it drops what follows the last hyphen, whatever that is.

`Minted` is the relation of a name to the time it was made for, and `parseBackupName_of_minted` says
that such a name is read as that time.  Other names are read as times as well.
-/

namespace Chaskiwasi
namespace Backup

open Calendar Files

def backupTimeFormat : Layout :=
  [.year, .month, .day, .lit 'T', .hour, .minute, .second, .lit 'Z']

def base (time : Moment) : Name := backupTimeFormat.format time.toFields

/-- `%d`. -/
def formatInt (n : ℤ) : List Char :=
  if n < 0 then '-' :: Nat.toDigits 10 n.natAbs else Nat.toDigits 10 n.natAbs

def suffixed (base : Name) (i : Int64) : Name := base ++ '-' :: formatInt i.toInt

/-- The loop of `uniqueBackupPath`, for so many rounds: from this path and this counter. -/
def search (absent : Name → Bool) (base : Name) : ℕ → Name → Int64 → Option Name
  | 0, _, _ => none
  | fuel + 1, path, i =>
      if absent path then some path else search absent base fuel (suffixed base i) (i + 1)

/-- `uniqueBackupPath`, where `Stat` finds that these names do not exist. -/
def uniqueBackupPath (absent : Name → Bool) (time : Moment) (fuel : ℕ) : Option Name :=
  search absent (base time) fuel (base time) 1

/-- The name that the loop looks at in this round. -/
def candidate (time : Moment) : ℕ → Name
  | 0 => base time
  | k + 1 => suffixed (base time) (Int64.ofNat (k + 1))

def parseBackupName (name : Name) : Option Moment :=
  match backupTimeFormat.parse name with
  | some time => some time
  | none =>
      match splitLast '-' name with
      | some (c :: before, _) => backupTimeFormat.parse (c :: before)
      | _ => none

/-- A name that `uniqueBackupPath` makes for a time, with some names taken: fewer than its counter
can count. -/
def Minted (name : Name) (time : Moment) : Prop :=
  ∃ taken : List Name, taken.length < 2 ^ 63 ∧
    ∃ fuel, uniqueBackupPath (fun n => !taken.contains n) time fuel = some name

section Names

variable {time : Moment} {name : Name} {absent : Name → Bool} {fuel i j k : ℕ}

/-! ## Which names are made -/

lemma search_eq_some :
    search absent (base time) fuel (candidate time i) (Int64.ofNat (i + 1)) = some name ↔
      ∃ k, k < fuel ∧ name = candidate time (i + k) ∧ absent name = true ∧
        ∀ j < k, absent (candidate time (i + j)) = false := by
  induction fuel generalizing i with
  | zero => simp [search]
  | succ fuel ih =>
      rw [search]
      by_cases habsent : absent (candidate time i) = true
      · rw [if_pos habsent, Option.some.injEq]
        constructor
        · rintro rfl
          exact ⟨0, Nat.succ_pos _, rfl, habsent, fun j hj => absurd hj (Nat.not_lt_zero j)⟩
        · rintro ⟨k, -, rfl, -, hbefore⟩
          cases k with
          | zero => rfl
          | succ k =>
              have hfirst := hbefore 0 (Nat.succ_pos k)
              rw [Nat.add_zero, habsent] at hfirst
              cases hfirst
      · have hnext : Int64.ofNat (i + 1) + 1 = Int64.ofNat (i + 1 + 1) := (Int64.ofNat_add _ 1).symm
        have hcandidate : suffixed (base time) (Int64.ofNat (i + 1)) = candidate time (i + 1) := rfl
        rw [if_neg habsent, hnext, hcandidate, ih]
        rw [Bool.not_eq_true] at habsent
        constructor
        · rintro ⟨k, hk, hname, hfree, hbefore⟩
          rw [Nat.add_right_comm] at hname
          refine ⟨k + 1, Nat.succ_lt_succ hk, hname, hfree, fun j hj => ?_⟩
          cases j with
          | zero => exact habsent
          | succ j =>
              have hj' := hbefore j (Nat.lt_of_succ_lt_succ hj)
              rwa [Nat.add_right_comm] at hj'
        · rintro ⟨k, hk, hname, hfree, hbefore⟩
          cases k with
          | zero =>
              rw [hname, Nat.add_zero, habsent] at hfree
              cases hfree
          | succ k =>
              refine ⟨k, Nat.lt_of_succ_lt_succ hk, ?_, hfree, fun j hj => ?_⟩
              · rwa [Nat.add_right_comm]
              · rw [Nat.add_right_comm]
                exact hbefore (j + 1) (Nat.succ_lt_succ hj)

/-- The name that is made is the first that is free. -/
lemma uniqueBackupPath_eq_some : uniqueBackupPath absent time fuel = some name ↔
    ∃ k, k < fuel ∧ name = candidate time k ∧ absent name = true ∧
      ∀ j < k, absent (candidate time j) = false := by
  have hsearch : search absent (base time) fuel (candidate time 0) (Int64.ofNat (0 + 1)) =
      some name ↔ _ := search_eq_some
  simp only [Nat.zero_add] at hsearch
  exact hsearch

lemma uniqueBackupPath_of_absent (habsent : absent (candidate time k) = true) (hk : k < fuel) :
    ∃ name, uniqueBackupPath absent time fuel = some name := by
  have hexists : ∃ k, absent (candidate time k) = true := ⟨k, habsent⟩
  refine ⟨candidate time (Nat.find hexists), uniqueBackupPath_eq_some.2 ⟨_, ?_, rfl,
    Nat.find_spec hexists, fun j hj => Bool.eq_false_iff.2 (Nat.find_min hexists hj)⟩⟩
  exact (Nat.find_min' hexists habsent).trans_lt hk

lemma formatInt_ofNat (hk : k < 2 ^ 63) : formatInt (Int64.ofNat k).toInt = Nat.toDigits 10 k := by
  rw [Int64.toInt_ofNat_of_lt hk, formatInt, if_neg (by omega), Int.natAbs_natCast]

/-- As long as the counter does not run over, no name comes twice. -/
lemma candidate_inj (hi : i < 2 ^ 63) (hj : j < 2 ^ 63) (h : candidate time i = candidate time j) :
    i = j := by
  cases i with
  | zero =>
      cases j with
      | zero => rfl
      | succ j => simp [candidate, suffixed] at h
  | succ i =>
      cases j with
      | zero => simp [candidate, suffixed] at h
      | succ j =>
          have hdigits : Nat.toDigits 10 (i + 1) = Nat.toDigits 10 (j + 1) := by
            rw [← formatInt_ofNat hi, ← formatInt_ofNat hj]
            exact List.cons_inj_right '-' |>.1 (List.append_cancel_left h)
          have hvalue := congrArg (fun s => Nat.ofDigitChars 10 s 0) hdigits
          simpa only [Nat.ofDigitChars_ten_toDigits] using hvalue

lemma nodup_candidates (hk : k ≤ 2 ^ 63) : ((List.range k).map (candidate time)).Nodup := by
  refine List.Nodup.map_on (fun i hi j hj h => ?_) List.nodup_range
  rw [List.mem_range] at hi hj
  exact candidate_inj (by omega) (by omega) h

/-- The names that are made are the time, and the time with a number. -/
lemma minted_iff : Minted name time ↔ ∃ k < 2 ^ 63, name = candidate time k := by
  constructor
  · rintro ⟨taken, htaken, fuel, hmade⟩
    obtain ⟨k, -, hname, -, hbefore⟩ := uniqueBackupPath_eq_some.1 hmade
    refine ⟨k, ?_, hname⟩
    -- the names of the rounds before were all taken
    by_contra hk
    have hsub : (List.range (2 ^ 63)).map (candidate time) ⊆ taken := by
      intro n hn
      obtain ⟨j, hj, rfl⟩ := List.mem_map.1 hn
      simpa using hbefore j (by rw [List.mem_range] at hj; omega)
    have hlen := (List.subperm_of_subset (nodup_candidates le_rfl) hsub).length_le
    rw [List.length_map, List.length_range] at hlen
    omega
  · rintro ⟨k, hk, rfl⟩
    refine ⟨(List.range k).map (candidate time), by simpa using hk, k + 1,
      uniqueBackupPath_eq_some.2 ⟨k, Nat.lt_succ_self k, rfl, ?_, fun j hj => ?_⟩⟩
    · rw [Bool.not_eq_true', List.contains_eq_mem, decide_eq_false_iff_not, List.mem_map]
      rintro ⟨j, hj, heq⟩
      rw [List.mem_range] at hj
      have hjk := candidate_inj (by omega) hk heq
      omega
    · rw [Bool.not_eq_false', List.contains_iff_mem]
      exact List.mem_map_of_mem (List.mem_range.2 hj)

/-! ## How they are read -/

lemma unpointed_backupTimeFormat : Layout.Unpointed backupTimeFormat := by
  intro c hc
  simp only [backupTimeFormat, List.mem_cons, List.not_mem_nil, Part.lit.injEq, reduceCtorEq,
    or_false, false_or] at hc
  rcases hc with rfl | rfl <;> decide

/-- A name is read as the time it was made for, in whole seconds. -/
lemma parseBackupName_candidate (hk : k < 2 ^ 63) :
    parseBackupName (candidate time k) = some time.whole := by
  have hbase : backupTimeFormat.parse (base time) = some time.whole :=
    Layout.parse_format time time.whole unpointed_backupTimeFormat rfl
  cases k with
  | zero =>
      rw [candidate, parseBackupName, hbase]
  | succ k =>
      have hcandidate : candidate time (k + 1) = base time ++ '-' :: Nat.toDigits 10 (k + 1) := by
        rw [candidate, suffixed, formatInt_ofNat hk]
      have hparse : backupTimeFormat.parse (candidate time (k + 1)) = none := by
        rw [hcandidate]
        exact Layout.parse_format_append time unpointed_backupTimeFormat (List.cons_ne_nil _ _)
          (by simp)
      have hdigits : '-' ∉ Nat.toDigits 10 (k + 1) := by
        intro hmem
        have hdigit := Nat.isDigit_of_mem_toDigits (by decide) (by decide) hmem
        cases hdigit
      have hsplit : splitLast '-' (candidate time (k + 1)) =
          some (base time, Nat.toDigits 10 (k + 1)) := by
        rw [hcandidate]
        exact splitLast_append hdigits
      obtain ⟨c, before, hcons⟩ : ∃ c before, base time = c :: before := ⟨_, _, rfl⟩
      rw [parseBackupName, hparse, hsplit, hcons, ← hbase, hcons]

lemma parseBackupName_of_minted (h : Minted name time) :
    parseBackupName name = some time.whole := by
  obtain ⟨k, hk, rfl⟩ := minted_iff.1 h
  exact parseBackupName_candidate hk

end Names
end Backup
end Chaskiwasi
