import Mathlib.Tactic.Common
import Mathlib.Data.Finset.Card
import Mathlib.Data.List.Basic
import Mathlib.Data.List.Infix
import Mathlib.Data.List.Rotate

/-!
# Rings: bounded lists that forget their oldest entries

A ring of capacity `cap` is a list, oldest entry first, that keeps the last `cap` entries recorded
(`push`).  It is asked for the newest entry with a property (`newest?`).

`Within p a d xs` says that `a` is that entry and that at most `d` entries were recorded after it.
It is what a run can count: one push costs one (`Within.push`), and as long as the count stays
below the capacity the entry is still found (`Within.newest?_eq`).

`Trails x L xs` counts distinct entries: what is newer than `x` is in the set `L`.  In a ring
without repetitions `x` stays for as long as `L` is smaller than the capacity (`Trails.push`).

A ring may be kept in an array of its capacity, with the index of its oldest entry (`Circular`); that
is the same ring (`Circular.toList_record`).

`Spares cap X xs` looks ahead: however many of the entries in `X` are still missing, recording
them pushes none of `X` out.  Recording one that is missing keeps it so (`Spares.push`).
-/

namespace Ring

variable {α : Type*}

/-- Appends an entry and keeps the newest `cap`. -/
def push (cap : ℕ) (a : α) (xs : List α) : List α :=
  ((a :: xs.reverse).take cap).reverse

/-- The newest entry with a property. -/
def newest? (p : α → Bool) (xs : List α) : Option α :=
  xs.reverse.find? p

/-- The newest entry with the property is `a`, and at most `d` entries are newer. -/
def Within (p : α → Bool) (a : α) (d : ℕ) (xs : List α) : Prop :=
  ∃ older newer, xs = older ++ a :: newer ∧ p a = true ∧ (∀ b ∈ newer, p b = false) ∧
    newer.length ≤ d

/-- What stands before the newest entries has nothing of `X`, and the newest entries leave room for
all of `X` that is missing. -/
def Spares [DecidableEq α] (cap : ℕ) (X : Finset α) (xs : List α) : Prop :=
  ∃ old recent, xs = old ++ recent ∧ (∀ x ∈ X, x ∉ old) ∧
    recent.length + (X.filter fun x => x ∉ xs).card ≤ cap

variable {p : α → Bool} {a b : α} {d d' cap : ℕ} {xs : List α}

/-- The oldest entries are dropped, as many as exceed the capacity. -/
lemma push_eq_drop (cap : ℕ) (a : α) (xs : List α) :
    push cap a xs = (xs ++ [a]).drop ((xs ++ [a]).length - cap) := by
  have hrev : a :: xs.reverse = (xs ++ [a]).reverse := by simp
  rw [push, hrev, List.take_reverse, List.reverse_reverse]

lemma mem_of_mem_push (h : b ∈ push cap a xs) : b ∈ xs ∨ b = a := by
  rw [push_eq_drop] at h
  rcases List.mem_append.1 (List.mem_of_mem_drop h) with hb | hb
  · exact Or.inl hb
  · exact Or.inr (List.mem_singleton.1 hb)

lemma mem_push_self (hcap : 0 < cap) (a : α) (xs : List α) : a ∈ push cap a xs := by
  rw [push_eq_drop, List.drop_append_of_le_length]
  · exact List.mem_append_right _ (List.mem_singleton_self a)
  · rw [List.length_append, List.length_singleton]
    omega

lemma map_push {β : Type*} (f : α → β) (cap : ℕ) (a : α) (xs : List α) :
    (push cap a xs).map f = push cap (f a) (xs.map f) := by
  rw [push_eq_drop, push_eq_drop, List.map_drop, List.map_append, List.map_singleton,
    List.length_append, List.length_append, List.length_map]
  rfl

lemma length_push_le (cap : ℕ) (a : α) (xs : List α) : (push cap a xs).length ≤ cap := by
  rw [push_eq_drop, List.length_drop]
  omega

lemma newest?_eq_none_iff : newest? p xs = none ↔ ∀ b ∈ xs, p b = false := by
  simp [newest?, List.find?_eq_none]

lemma mem_of_newest? (h : newest? p xs = some a) : a ∈ xs ∧ p a = true :=
  ⟨List.mem_reverse.1 (List.mem_of_find?_eq_some h), List.find?_some h⟩

lemma Within.newest?_eq (h : Within p a d xs) : newest? p xs = some a := by
  obtain ⟨older, newer, rfl, ha, hnewer, -⟩ := h
  have hskip : newer.reverse.find? p = none := by
    rw [List.find?_eq_none]
    intro b hb
    simp [hnewer b (List.mem_reverse.1 hb)]
  simp [newest?, List.find?_append, hskip, ha]

lemma Within.mono (h : Within p a d xs) (hd : d ≤ d') : Within p a d' xs := by
  obtain ⟨older, newer, hxs, ha, hnewer, hlen⟩ := h
  exact ⟨older, newer, hxs, ha, hnewer, le_trans hlen hd⟩

/-- The newest entry, with the number of entries that are newer. -/
lemma within_findIdx (h : newest? p xs = some a) : Within p a (xs.reverse.findIdx p) xs := by
  obtain ⟨ha, newer, older, hsplit, hnewer⟩ := List.find?_eq_some_iff_append.1 h
  refine ⟨older.reverse, newer.reverse, ?_, ha, ?_, ?_⟩
  · rw [← List.reverse_reverse xs, hsplit]
    simp
  · intro b hb
    simpa using hnewer b (List.mem_reverse.1 hb)
  · have hnone : newer.findIdx p = newer.length :=
      List.findIdx_eq_length.2 fun b hb => by simpa using hnewer b hb
    rw [hsplit, List.findIdx_append, hnone, if_neg (Nat.lt_irrefl _), List.length_reverse]
    exact Nat.le_add_left _ _

/-- Where at least that many newest entries are not kept, none with the property is. -/
lemma not_of_mem_drop {n : ℕ} (h : xs.length ≤ n + xs.reverse.findIdx p) :
    ∀ b ∈ xs.drop n, p b = false := by
  intro b hb
  rw [← List.reverse_reverse xs, List.drop_reverse, List.mem_reverse, List.length_reverse] at hb
  obtain ⟨i, hi, rfl⟩ := List.mem_take_iff_getElem.1 hb
  have hlt : i < xs.reverse.findIdx p := by omega
  simpa using List.not_of_lt_findIdx hlt

/-- What was just recorded is the newest. -/
lemma within_push_self (hcap : 0 < cap) (ha : p a = true) : Within p a 0 (push cap a xs) := by
  refine ⟨xs.drop ((xs ++ [a]).length - cap), [], ?_, ha, by simp, le_refl _⟩
  rw [push_eq_drop, List.drop_append_of_le_length]
  rw [List.length_append, List.length_singleton]
  omega

/-- A push of something else costs one, and evicts nothing that stands within the capacity. -/
lemma Within.push (h : Within p a d xs) (hb : p b = false) (hd : d + 1 < cap) :
    Within p a (d + 1) (push cap b xs) := by
  obtain ⟨older, newer, rfl, ha, hnewer, hlen⟩ := h
  refine ⟨older.drop ((older ++ a :: newer ++ [b]).length - cap), newer ++ [b], ?_, ha, ?_, ?_⟩
  · rw [push_eq_drop, List.append_assoc, List.cons_append, List.drop_append_of_le_length]
    simp only [List.length_append, List.length_cons, List.length_nil]
    omega
  · intro c hc
    rcases List.mem_append.1 hc with hc | hc
    · exact hnewer c hc
    · rw [List.mem_singleton.1 hc]
      exact hb
  · simp only [List.length_append, List.length_cons, List.length_nil]
    omega

/-! ## Distinct entries -/

/-- `x` stands in the ring, and what is newer is in `L`. -/
def Trails (x : α) (L : Finset α) (xs : List α) : Prop :=
  ∃ older newer, xs = older ++ x :: newer ∧ ∀ b ∈ newer, b ∈ L

lemma Trails.mem {x : α} {L : Finset α} (h : Trails x L xs) : x ∈ xs := by
  obtain ⟨older, newer, rfl, -⟩ := h
  exact List.mem_append_right _ List.mem_cons_self

lemma Trails.mono {x : α} {L L' : Finset α} (h : Trails x L xs) (hL : L ⊆ L') :
    Trails x L' xs := by
  obtain ⟨older, newer, rfl, hnewer⟩ := h
  exact ⟨older, newer, rfl, fun b hb => hL (hnewer b hb)⟩

lemma nodup_push (h : xs.Nodup) (hb : b ∉ xs) : (push cap b xs).Nodup := by
  rw [push_eq_drop]
  refine List.Nodup.sublist (List.drop_sublist _ _) ?_
  rw [List.nodup_append]
  refine ⟨h, List.nodup_singleton b, fun x hx y hy => ?_⟩
  rw [List.mem_singleton.1 hy]
  rintro rfl
  exact hb hx

/-- Nothing is newer than the last entry. -/
lemma trails_of_getLast? {x : α} (h : xs.getLast? = some x) : Trails x ∅ xs := by
  obtain ⟨older, rfl⟩ := List.getLast?_eq_some_iff.1 h
  exact ⟨older, [], rfl, fun _ hb => absurd hb List.not_mem_nil⟩

lemma getLast?_push (hcap : 0 < cap) (a : α) (xs : List α) :
    (push cap a xs).getLast? = some a := by
  rw [push_eq_drop, List.drop_append_of_le_length, List.getLast?_concat]
  rw [List.length_append, List.length_singleton]
  omega

/-- As long as fewer distinct entries than the capacity were recorded after it, an entry stays. -/
theorem Trails.push [DecidableEq α] {x : α} {L : Finset α} (h : Trails x L xs) (hxs : xs.Nodup)
    (hb : b ∉ xs) (hL : b ∈ L) (hcard : (L.erase x).card < cap) : Trails x L (push cap b xs) := by
  obtain ⟨older, newer, rfl, hnewer⟩ := h
  have hnodup : (newer ++ [b]).Nodup ∧ x ∉ newer ++ [b] := by
    have hx := (List.nodup_append.1 hxs).2.1
    rw [List.nodup_cons] at hx
    rw [List.mem_append, List.mem_cons, not_or, not_or] at hb
    refine ⟨?_, ?_⟩
    · rw [List.nodup_append]
      refine ⟨hx.2, List.nodup_singleton b, fun y hy z hz => ?_⟩
      rw [List.mem_singleton.1 hz]
      rintro rfl
      exact hb.2.2 hy
    · rw [List.mem_append, List.mem_singleton, not_or]
      exact ⟨hx.1, Ne.symm hb.2.1⟩
  have hsub : (newer ++ [b]).toFinset ⊆ L.erase x := by
    intro y hy
    rw [List.mem_toFinset] at hy
    refine Finset.mem_erase.2 ⟨fun heq => hnodup.2 (heq ▸ hy), ?_⟩
    rcases List.mem_append.1 hy with hy | hy
    · exact hnewer y hy
    · rw [List.mem_singleton.1 hy]
      exact hL
  have hlen : (newer ++ [b]).length < cap := by
    rw [← List.toFinset_card_of_nodup hnodup.1]
    exact lt_of_le_of_lt (Finset.card_le_card hsub) hcard
  refine ⟨older.drop ((older ++ x :: newer ++ [b]).length - cap), newer ++ [b], ?_, fun y hy =>
    Finset.mem_of_mem_erase (hsub (List.mem_toFinset.2 hy))⟩
  rw [push_eq_drop, List.append_assoc, List.cons_append, List.drop_append_of_le_length]
  rw [List.length_append] at hlen
  simp only [List.length_append, List.length_cons, List.length_nil] at hlen ⊢
  omega

/-! ## Looking ahead -/

section Spares

variable [DecidableEq α] {X : Finset α}

/-- One of the missing entries is recorded: all of `X` that was there stays, and there is still room
for the rest. -/
theorem Spares.push (h : Spares cap X xs) (ha : a ∈ X) (hnew : a ∉ xs) :
    Spares cap X (push cap a xs) ∧ ∀ x ∈ X, x ∈ push cap a xs ↔ x ∈ xs ∨ x = a := by
  obtain ⟨old, recent, rfl, hold, hroom⟩ := h
  have hpos : 0 < (X.filter fun x => x ∉ old ++ recent).card :=
    Finset.card_pos.2 ⟨a, Finset.mem_filter.2 ⟨ha, hnew⟩⟩
  -- What is dropped is a part of `old`.
  have hpush : Ring.push cap a (old ++ recent) =
      old.drop ((old ++ recent ++ [a]).length - cap) ++ (recent ++ [a]) := by
    rw [push_eq_drop, List.append_assoc, List.drop_append_of_le_length]
    simp only [List.length_append, List.length_cons, List.length_nil]
    omega
  have hmem : ∀ x ∈ X, x ∈ Ring.push cap a (old ++ recent) ↔ x ∈ old ++ recent ∨ x = a := by
    intro x hx
    have hdrop : ∀ n, x ∉ old.drop n := fun n hmem => hold x hx (List.mem_of_mem_drop hmem)
    rw [hpush]
    simp [hdrop, hold x hx]
  have hmissing : (X.filter fun x => x ∉ Ring.push cap a (old ++ recent)) =
      (X.filter fun x => x ∉ old ++ recent).erase a := by
    ext x
    simp only [Finset.mem_filter, Finset.mem_erase]
    constructor
    · rintro ⟨hx, hout⟩
      rw [hmem x hx, not_or] at hout
      exact ⟨hout.2, hx, hout.1⟩
    · rintro ⟨hne, hx, hout⟩
      refine ⟨hx, ?_⟩
      rw [hmem x hx, not_or]
      exact ⟨hout, hne⟩
  refine ⟨⟨_, _, hpush, fun x hx hmem => hold x hx (List.mem_of_mem_drop hmem), ?_⟩, hmem⟩
  rw [hmissing, Finset.card_erase_of_mem (Finset.mem_filter.2 ⟨ha, hnew⟩), List.length_append,
    List.length_singleton]
  omega

end Spares

/-- Recording an entry in the newest `cap` of a list is recording it in the list. -/
lemma push_drop (cap : ℕ) (a : α) (xs : List α) :
    push cap a (xs.drop (xs.length - cap)) = (xs ++ [a]).drop ((xs ++ [a]).length - cap) := by
  rw [push_eq_drop]
  by_cases hcap : cap = 0
  · subst hcap
    simp
  · have hle : xs.length - cap ≤ xs.length := Nat.sub_le ..
    rw [← List.drop_append_of_le_length hle, List.drop_drop]
    congr 1
    simp only [List.length_drop, List.length_append, List.length_cons, List.length_nil]
    omega

/-! ## A ring in an array -/

/-- The entries in an array that is filled once and then overwritten, oldest first.  The index is
that of the oldest entry once the array is full. -/
structure Circular (α : Type*) (cap : ℕ) where
  entries : List α
  oldest : ℕ
  length_le : entries.length ≤ cap
  oldest_eq : entries.length < cap → oldest = 0
  oldest_lt : oldest < cap

namespace Circular

variable {α : Type*} {cap : ℕ}

def empty (hcap : 0 < cap) : Circular α cap := ⟨[], 0, Nat.zero_le _, fun _ => rfl, hcap⟩

/-- Overwrites the oldest entry, once there is no room. -/
def record (a : α) (c : Circular α cap) : Circular α cap :=
  if h : c.entries.length < cap then
    { c with
      entries := c.entries ++ [a]
      length_le := by
        rw [List.length_append, List.length_singleton]
        omega
      oldest_eq := fun _ => c.oldest_eq h }
  else
    { c with
      entries := c.entries.set c.oldest a
      oldest := (c.oldest + 1) % cap
      length_le := by
        rw [List.length_set]
        exact c.length_le
      oldest_eq := fun hlt => absurd (List.length_set ▸ hlt) h
      oldest_lt := Nat.mod_lt _ (Nat.zero_lt_of_lt c.oldest_lt) }

/-- The newest `n` entries, newest first. -/
def recent (c : Circular α cap) (n : ℕ) : List α :=
  (List.range (min n c.entries.length)).filterMap fun i =>
    c.entries[(c.oldest + c.entries.length - 1 - i) % c.entries.length]?

/-- The ring that is kept. -/
def toList (c : Circular α cap) : List α := c.entries.rotate c.oldest

lemma toList_empty (hcap : 0 < cap) : (empty hcap : Circular α cap).toList = [] := rfl

lemma length_toList (c : Circular α cap) : c.toList.length = c.entries.length :=
  List.length_rotate ..

/-- Overwriting the first entry of a rotated list, and turning it on. -/
lemma rotate_set {xs : List α} {i : ℕ} (h : i < xs.length) (a : α) :
    (xs.set i a).rotate (i + 1) = (xs.rotate i ++ [a]).drop 1 := by
  have hset : xs.set i a = (xs.take i ++ [a]) ++ xs.drop (i + 1) := by
    rw [List.set_eq_take_append_cons_drop, if_pos h, List.append_assoc, List.singleton_append]
  have hlength : (xs.take i ++ [a]).length = i + 1 := by
    rw [List.length_append, List.length_take, List.length_singleton]
    omega
  rw [hset, ← hlength, List.rotate_append_length_eq, hlength,
    List.rotate_eq_drop_append_take (le_of_lt h), List.append_assoc,
    List.drop_append_of_le_length, List.drop_drop]
  rw [List.length_drop]
  omega

theorem toList_record (a : α) (c : Circular α cap) :
    (c.record a).toList = push cap a c.toList := by
  rw [push_eq_drop, List.length_append, List.length_singleton, length_toList]
  obtain ⟨entries, oldest, hle, hzero, hlt⟩ := c
  rw [record]
  dsimp only [toList]
  split_ifs with hroom
  · dsimp only
    rw [hzero hroom, List.rotate_zero, List.rotate_zero, Nat.sub_eq_zero_of_le hroom,
      List.drop_zero]
  · obtain rfl : entries.length = cap := le_antisymm hle (not_lt.1 hroom)
    have hmod := List.rotate_mod (entries.set oldest a) (oldest + 1)
    rw [List.length_set] at hmod
    dsimp only
    rw [hmod, rotate_set hlt, Nat.add_sub_cancel_left]

lemma filterMap_getElem? (xs : List α) :
    (List.range xs.length).filterMap (fun i => xs[i]?) = xs := by
  induction xs with
  | nil => rfl
  | cons x xs ih =>
      rw [List.length_cons, List.range_succ_eq_map, List.filterMap_cons, List.filterMap_map]
      simpa [Function.comp_def] using ih

theorem recent_eq (c : Circular α cap) (n : ℕ) : c.recent n = c.toList.reverse.take n := by
  have hlength : (c.toList.reverse.take n).length = min n c.entries.length := by
    rw [List.length_take, List.length_reverse, length_toList]
  rw [← filterMap_getElem? (c.toList.reverse.take n), hlength, recent]
  refine List.filterMap_congr fun i hi => ?_
  have hi := lt_min_iff.1 (List.mem_range.1 hi)
  have hindex : c.oldest + c.entries.length - 1 - i =
      c.entries.length - 1 - i + c.oldest := by omega
  rw [List.getElem?_take_of_lt hi.1, List.getElem?_reverse (length_toList c ▸ hi.2), length_toList,
    toList, List.getElem?_rotate (by omega), hindex]

/-- What is kept of a history that began with an empty array is its newest part. -/
theorem toList_foldl_record {xs : List α} {c : Circular α cap}
    (h : c.toList = xs.drop (xs.length - cap)) (as : List α) :
    (as.foldl (fun c a => c.record a) c).toList = (xs ++ as).drop ((xs ++ as).length - cap) := by
  induction as generalizing c xs with
  | nil => rw [List.foldl_nil, List.append_nil, h]
  | cons a as ih =>
      have hrecord : (c.record a).toList = (xs ++ [a]).drop ((xs ++ [a]).length - cap) := by
        rw [toList_record, h, push_drop]
      rw [List.foldl_cons, ih hrecord, List.append_assoc, List.singleton_append]

/-- The newest of a history, newest first. -/
theorem recent_foldl_record (hcap : 0 < cap) (as : List α) (n : ℕ) :
    (as.foldl (fun c a => c.record a) (empty hcap)).recent n = (as.reverse.take cap).take n := by
  have hempty : (empty hcap : Circular α cap).toList =
      ([] : List α).drop (([] : List α).length - cap) := by
    rw [toList_empty, List.drop_nil]
  rw [recent_eq, toList_foldl_record hempty, List.nil_append, ← List.take_reverse]

end Circular

end Ring
