import Mathlib.Tactic.Common
import Mathlib.Data.List.Basic
import Mathlib.Data.List.Nodup
import Mathlib.Data.List.Pairwise
import Mathlib.Order.Defs.LinearOrder
import Mathlib.Order.Lattice

/-!
# Lists ascending in a key

A table kept as a list whose items ascend strictly in a key: the order in which a program
walks a sorted map, with at most one item under a key.  `put` writes an item under its key,
replacing the one that was there; the list stays ascending, and the items under other keys stay
as they were.
-/

namespace Keyed

variable {α κ : Type*} [LinearOrder κ] {key : α → κ}

/-- The items ascend strictly in the key. -/
def Ascending (key : α → κ) (xs : List α) : Prop :=
  xs.Pairwise fun a b => key a < key b

/-- Writes `a` under its key. -/
def put (key : α → κ) (a : α) : List α → List α
  | [] => [a]
  | x :: xs =>
      if key a < key x then a :: x :: xs
      else if key a = key x then a :: xs
      else x :: put key a xs

/-- A key names one item. -/
theorem Ascending.eq_of_key_eq {xs : List α} (h : Ascending key xs) {a b : α} (ha : a ∈ xs)
    (hb : b ∈ xs) (hk : key a = key b) : a = b := by
  have hinj : xs.Pairwise fun a b => key a = key b → a = b :=
    List.Pairwise.imp (fun hlt heq => absurd heq (ne_of_lt hlt)) h
  have hflip : xs.Pairwise (flip fun a b => key a = key b → a = b) :=
    List.Pairwise.imp (fun hlt heq => absurd heq (ne_of_gt hlt)) h
  exact List.Pairwise.forall_of_forall_of_flip (fun _ _ _ => rfl) hinj hflip ha hb hk

lemma mem_of_mem_put {xs : List α} {a b : α} (hb : b ∈ put key a xs) : b = a ∨ b ∈ xs := by
  induction xs with
  | nil => exact Or.inl (List.mem_singleton.1 hb)
  | cons x xs ih =>
      rw [put] at hb
      split_ifs at hb
      · exact List.mem_cons.1 hb
      · rcases List.mem_cons.1 hb with rfl | hb
        · exact Or.inl rfl
        · exact Or.inr (List.mem_cons_of_mem _ hb)
      · rcases List.mem_cons.1 hb with rfl | hb
        · exact Or.inr (List.mem_cons_self ..)
        · exact (ih hb).imp_right (List.mem_cons_of_mem _)

theorem Ascending.put {xs : List α} (h : Ascending key xs) (a : α) :
    Ascending key (put key a xs) := by
  induction xs with
  | nil => exact List.pairwise_singleton _ _
  | cons x xs ih =>
      obtain ⟨hx, hxs⟩ := List.pairwise_cons.1 h
      rw [Keyed.put]
      split_ifs with hlt heq
      · refine List.pairwise_cons.2 ⟨fun b hb => ?_, h⟩
        rcases List.mem_cons.1 hb with rfl | hb
        · exact hlt
        · exact lt_trans hlt (hx b hb)
      · exact List.pairwise_cons.2 ⟨fun b hb => heq ▸ hx b hb, hxs⟩
      · refine List.pairwise_cons.2 ⟨fun b hb => ?_, ih hxs⟩
        rcases mem_of_mem_put hb with rfl | hb
        · exact lt_of_le_of_ne (not_lt.1 hlt) (Ne.symm heq)
        · exact hx b hb

/-- After a write, the items are the one written and those under other keys. -/
theorem Ascending.mem_put_iff {xs : List α} (h : Ascending key xs) {a b : α} :
    b ∈ Keyed.put key a xs ↔ b = a ∨ b ∈ xs ∧ key b ≠ key a := by
  induction xs with
  | nil => simp [Keyed.put]
  | cons x xs ih =>
      obtain ⟨hx, hxs⟩ := List.pairwise_cons.1 h
      rw [Keyed.put]
      split_ifs with hlt heq
      · have hne : ∀ c ∈ x :: xs, key c ≠ key a := by
          intro c hc
          rcases List.mem_cons.1 hc with rfl | hc
          · exact ne_of_gt hlt
          · exact ne_of_gt (lt_trans hlt (hx c hc))
        rw [List.mem_cons]
        exact or_congr_right ⟨fun hb => ⟨hb, hne b hb⟩, fun hb => hb.1⟩
      · have hne : ∀ c ∈ xs, key c ≠ key a := fun c hc => heq ▸ ne_of_gt (hx c hc)
        rw [List.mem_cons, List.mem_cons]
        refine or_congr_right ⟨fun hb => ⟨Or.inr hb, hne b hb⟩, fun hb => ?_⟩
        rcases hb with ⟨rfl | hb, hk⟩
        · exact absurd heq.symm hk
        · exact hb
      · rw [List.mem_cons, List.mem_cons, ih hxs]
        constructor
        · rintro (rfl | rfl | ⟨hb, hk⟩)
          · exact Or.inr ⟨Or.inl rfl, fun hk => heq hk.symm⟩
          · exact Or.inl rfl
          · exact Or.inr ⟨Or.inr hb, hk⟩
        · rintro (rfl | ⟨rfl | hb, hk⟩)
          · exact Or.inr (Or.inl rfl)
          · exact Or.inl rfl
          · exact Or.inr (Or.inr ⟨hb, hk⟩)

/-- An item written over the first one with a property is, if it has the property, the first one
with it. -/
theorem Ascending.find?_put {xs : List α} (h : Ascending key xs) {p : α → Bool} {a b : α}
    (hfind : xs.find? p = some a) (hkey : key b = key a) (hp : p b = true) :
    (Keyed.put key b xs).find? p = some b := by
  induction xs with
  | nil => simp at hfind
  | cons x xs ih =>
      obtain ⟨hx, hxs⟩ := List.pairwise_cons.1 h
      by_cases hpx : p x = true
      · rw [List.find?_cons_of_pos hpx, Option.some.injEq] at hfind
        have hkx : key b = key x := by rw [hkey, hfind]
        rw [Keyed.put, if_neg (by rw [hkx]; exact lt_irrefl _), if_pos hkx]
        exact List.find?_cons_of_pos hp
      · rw [List.find?_cons_of_neg hpx] at hfind
        -- The item is written behind `x`, whose key is below.
        have hlt : key x < key b := by
          rw [hkey]
          exact hx a (List.mem_of_find?_eq_some hfind)
        rw [Keyed.put, if_neg (lt_asymm hlt), if_neg (ne_of_gt hlt),
          List.find?_cons_of_neg hpx]
        exact ih hxs hfind

lemma length_put_le (key : α → κ) (a : α) (xs : List α) :
    (put key a xs).length ≤ xs.length + 1 := by
  induction xs with
  | nil => simp [put]
  | cons x xs ih =>
      rw [put]
      split_ifs
      · simp
      · simp
      · simpa using ih

/-- A write over an item adds none. -/
theorem Ascending.length_put_of_mem {xs : List α} (h : Ascending key xs) {a b : α} (hb : b ∈ xs)
    (hk : key b = key a) : (Keyed.put key a xs).length = xs.length := by
  induction xs with
  | nil => cases hb
  | cons x xs ih =>
      obtain ⟨hx, hxs⟩ := List.pairwise_cons.1 h
      rw [Keyed.put]
      split_ifs with hlt heq
      · exfalso
        rcases List.mem_cons.1 hb with rfl | hb
        · exact absurd hk.symm (ne_of_lt hlt)
        · exact absurd hk.symm (ne_of_lt (lt_trans hlt (hx b hb)))
      · rfl
      · have hb' : b ∈ xs := by
          refine (List.mem_cons.1 hb).resolve_left fun hbx => heq ?_
          rw [← hk, hbx]
        simp [ih hxs hb']

lemma mem_put_self (xs : List α) (a : α) : a ∈ put key a xs := by
  induction xs with
  | nil => exact List.mem_singleton_self a
  | cons x xs ih =>
      rw [put]
      split_ifs
      · exact List.mem_cons_self ..
      · exact List.mem_cons_self ..
      · exact List.mem_cons_of_mem _ ih

/-- A key that has an item keeps one. -/
lemma exists_mem_put {xs : List α} {b : α} (a : α) (hb : b ∈ xs) :
    ∃ c ∈ put key a xs, key c = key b := by
  induction xs with
  | nil => cases hb
  | cons x xs ih =>
      rw [put]
      split_ifs with hlt heq
      · exact ⟨b, List.mem_cons_of_mem _ hb, rfl⟩
      · rcases List.mem_cons.1 hb with rfl | hb
        · exact ⟨a, List.mem_cons_self .., heq⟩
        · exact ⟨b, List.mem_cons_of_mem _ hb, rfl⟩
      · rcases List.mem_cons.1 hb with rfl | hb
        · exact ⟨b, List.mem_cons_self .., rfl⟩
        · obtain ⟨c, hc, hkey⟩ := ih hb
          exact ⟨c, List.mem_cons_of_mem _ hc, hkey⟩

/-- Writing over an item changes that item and no other. -/
theorem Ascending.put_eq_map {xs : List α} (h : Ascending key xs) {a b : α} (hb : b ∈ xs)
    (hk : key b = key a) :
    Keyed.put key a xs = xs.map fun x => if key x = key a then a else x := by
  induction xs with
  | nil => cases hb
  | cons x xs ih =>
      obtain ⟨hx, hxs⟩ := List.pairwise_cons.1 h
      rcases List.mem_cons.1 hb with rfl | hb
      · have htail : (xs.map fun y => if key y = key a then a else y) = xs := by
          refine (List.map_congr_left fun y hy => ?_).trans (List.map_id xs)
          exact if_neg fun heq => ne_of_gt (hx y hy) (heq.trans hk.symm)
        rw [Keyed.put, if_neg (by rw [hk]; exact lt_irrefl _), if_pos hk.symm, List.map_cons,
          if_pos hk, htail]
      · have hlt : key x < key a := hk ▸ hx b hb
        rw [Keyed.put, if_neg (lt_asymm hlt), if_neg (ne_of_gt hlt), List.map_cons,
          if_neg (ne_of_lt hlt), ih hxs hb]

/-- An item that is there already is written over itself. -/
lemma Ascending.put_of_mem {xs : List α} (h : Ascending key xs) {a : α} (ha : a ∈ xs) :
    Keyed.put key a xs = xs := by
  rw [h.put_eq_map ha rfl]
  refine (List.map_congr_left fun x hx => ?_).trans (List.map_id xs)
  split_ifs with hkey
  · exact (h.eq_of_key_eq hx ha hkey).symm
  · rfl

/-- An item above all the others goes to the end. -/
lemma put_of_above {xs : List α} {a : α} (h : ∀ x ∈ xs, key x < key a) :
    put key a xs = xs ++ [a] := by
  induction xs with
  | nil => rfl
  | cons x xs ih =>
      have hlt := h x (List.mem_cons_self ..)
      rw [put, if_neg (lt_asymm hlt), if_neg (ne_of_gt hlt),
        ih fun y hy => h y (List.mem_cons_of_mem _ hy)]
      rfl

/-- Of two writes under one key the second is what counts. -/
lemma put_put (xs : List α) {a b : α} (hk : key a = key b) :
    put key a (put key b xs) = put key a xs := by
  induction xs with
  | nil => simp [put, hk]
  | cons x xs ih =>
      by_cases hlt : key b < key x
      · simp [put, hk, hlt]
      · by_cases heq : key b = key x
        · have hirr : ¬ key a < key x := hk ▸ hlt
          rw [put, if_neg hlt, if_pos heq, put, if_neg (by rw [hk]; exact lt_irrefl _), if_pos hk,
            put, if_neg hirr, if_pos (hk.trans heq)]
        · simp [put, hk, hlt, heq, ih]

lemma Ascending.filterMap {xs : List α} (h : Ascending key xs) {f : α → Option α}
    (hf : ∀ x y, f x = some y → key y = key x) : Ascending key (xs.filterMap f) := by
  refine List.Pairwise.filterMap f (fun x y hlt x' hx' y' hy' => ?_) h
  rw [hf x x' hx', hf y y' hy']
  exact hlt

lemma Ascending.filter {xs : List α} (h : Ascending key xs) (p : α → Bool) :
    Ascending key (xs.filter p) :=
  List.Pairwise.filter p h

lemma Ascending.nodup_map {xs : List α} (h : Ascending key xs) : (xs.map key).Nodup :=
  List.Pairwise.map key (fun _ _ => ne_of_lt) h

/-- Where keys are distinct, the one item under a key is found. -/
lemma find?_eq_some_iff {ι : Type*} [DecidableEq ι] {key : α → ι} {xs : List α}
    (h : (xs.map key).Nodup) {a : α} {k : ι} :
    (xs.find? fun x => key x = k) = some a ↔ a ∈ xs ∧ key a = k := by
  constructor
  · intro hfind
    exact ⟨List.mem_of_find?_eq_some hfind, by simpa using List.find?_some hfind⟩
  · rintro ⟨ha, hk⟩
    cases hfind : xs.find? fun x => key x = k with
    | none => simpa [hk] using List.find?_eq_none.1 hfind a ha
    | some b =>
        have hb : key b = k := by simpa using List.find?_some hfind
        rw [List.inj_on_of_nodup_map h (List.mem_of_find?_eq_some hfind) ha (hb.trans hk.symm)]

end Keyed
