import Chaskiwasi.Device.Seen
import Chaskiwasi.Sync.Codec
import Mathlib.Logic.Function.Basic

/-!
# What the simulated device keeps

The simulator stands for a device in the end-to-end tests.  Its state is saved to one file as a
whole, all but the index of the letter ids that it has seen, which is made anew from their list when
the file is read.

The list is a ring of exactly the thousand entries that the contract asks for, and as long as the
index says what the list says (`State.Indexed`), marking a letter as seen is recording it in the
ring.  So it is on the firmware, whose ring is appended to a file of its own: with the same ids the
two remember the same letters (`agrees_with_firmware`).
-/

namespace Chaskiwasi.Sim

def seenLetterIDCap : ℕ := 1000

/-- The fields of `State` that are saved.  The cursor is opaque. -/
structure Saved where
  cursor : String := ""
  aylluVersion : ℕ := 0
  ayllu : List AylluContact := []
  /-- Oldest first. -/
  seenLetterIDs : List String := []
  outbox : List Outbound := []
  outboxSeq : ℕ := 0
  letters : List Letter := []
  maxLetterChars : ℤ := 0
  pututuCounterSeen : ℕ := 0
  /-- `none` is the zero time. -/
  lastPututuWakeAt : Option ℤ := none
  deriving DecidableEq, Repr

structure State extends Saved where
  seenIndex : String → Bool := fun _ => false

def freshState : State := {}

/-- `"o-%06d"` -/
def localID (seq : ℕ) : String :=
  String.ofList (['o', '-'] ++ (Nat.toDigits 10 seq).leftpad 6 '0')

lemma localID_injective : Function.Injective localID := by
  intro m n h
  have hchars := List.append_cancel_left (String.ofList_injective h)
  have hvalue := congrArg (fun l => Nat.ofDigitChars 10 l 0) hchars
  simpa [List.leftpad, Nat.ofDigitChars_append, Nat.ofDigitChars_replicate_zero,
    Nat.ofDigitChars_ten_toDigits] using hvalue

namespace State

variable (s : State)

def hasSeen (letterID : String) : Bool := s.seenIndex letterID

/-- Where the list has grown too long, what is dropped is taken out of the index. -/
def markSeen (letterID : String) : State :=
  if s.seenIndex letterID then s
  else
    let ids := s.seenLetterIDs ++ [letterID]
    let index := Function.update s.seenIndex letterID true
    let excess := ids.length - seenLetterIDCap
    { s with
      seenLetterIDs := ids.drop excess
      seenIndex := (ids.take excess).foldl (fun index id => Function.update index id false) index }

def nextLocalID : String × State :=
  (localID (s.outboxSeq + 1), { s with outboxSeq := s.outboxSeq + 1 })

def rebuildIndex : State :=
  { s with
    seenIndex :=
      s.seenLetterIDs.foldl (fun index id => Function.update index id true) fun _ => false }

end State

/-- `loadState`: a missing file is a new device. -/
def loadState (file : Option Saved) : State :=
  match file with
  | none => freshState
  | some saved => State.rebuildIndex { toSaved := saved }

/-! ## The index and the list -/

section Index

variable {ids : List String} {id : String} {index : String → Bool} {b : Bool}

lemma foldl_update :
    ids.foldl (fun index id => Function.update index id b) index id =
      if id ∈ ids then b else index id := by
  induction ids generalizing index with
  | nil => rfl
  | cons x ids ih =>
      rw [List.foldl_cons, ih]
      by_cases hid : id ∈ ids
      · rw [if_pos hid, if_pos (List.mem_cons_of_mem x hid)]
      · by_cases hx : id = x
        · subst hx
          rw [if_neg hid, if_pos List.mem_cons_self, Function.update_self]
        · have hcons : id ∉ x :: ids := by
            rw [List.mem_cons, not_or]
            exact ⟨hx, hid⟩
          rw [if_neg hid, if_neg hcons, Function.update_of_ne hx]

namespace State

/-- The index says what the list says, and the list repeats nothing. -/
structure Indexed (s : State) : Prop where
  index : ∀ id, s.seenIndex id = true ↔ id ∈ s.seenLetterIDs
  nodup : s.seenLetterIDs.Nodup
  size : s.seenLetterIDs.length ≤ seenLetterIDCap

variable {s : State}

lemma indexed_fresh : freshState.Indexed where
  index := by simp [freshState]
  nodup := List.nodup_nil
  size := Nat.zero_le _

lemma indexed_rebuildIndex (hnodup : s.seenLetterIDs.Nodup)
    (hsize : s.seenLetterIDs.length ≤ seenLetterIDCap) : s.rebuildIndex.Indexed where
  index := by
    intro id
    show s.seenLetterIDs.foldl (fun index id => Function.update index id true) _ id = true ↔ _
    rw [foldl_update]
    by_cases hid : id ∈ s.seenLetterIDs
    · rw [if_pos hid]
      exact ⟨fun _ => hid, fun _ => rfl⟩
    · rw [if_neg hid]
      exact ⟨fun h => absurd h Bool.false_ne_true, fun h => absurd h hid⟩
  nodup := hnodup
  size := hsize

lemma markSeen_of_seen (h : s.hasSeen id = true) : s.markSeen id = s := if_pos h

/-- Marking an id that is new records it in the ring. -/
lemma seenLetterIDs_markSeen (h : s.hasSeen id = false) :
    (s.markSeen id).seenLetterIDs = Ring.push seenLetterIDCap id s.seenLetterIDs := by
  unfold hasSeen at h
  unfold markSeen
  rw [h, if_neg Bool.false_ne_true, Ring.push_eq_drop]

/-- In the index what was dropped is no longer seen. -/
lemma seenIndex_markSeen (h : s.hasSeen id = false) (x : String) :
    (s.markSeen id).seenIndex x =
      if x ∈ (s.seenLetterIDs ++ [id]).take ((s.seenLetterIDs ++ [id]).length - seenLetterIDCap)
      then false else Function.update s.seenIndex id true x := by
  unfold hasSeen at h
  unfold markSeen
  rw [h, if_neg Bool.false_ne_true]
  dsimp only
  rw [foldl_update]

lemma Indexed.hasSeen_iff (hs : s.Indexed) : s.hasSeen id = true ↔ id ∈ s.seenLetterIDs :=
  hs.index id

lemma Indexed.not_mem (hs : s.Indexed) (h : s.hasSeen id = false) : id ∉ s.seenLetterIDs := by
  rw [← hs.hasSeen_iff, h]
  exact Bool.false_ne_true

/-- What is dropped stands nowhere else in the list. -/
lemma Indexed.markSeen (hs : s.Indexed) (id : String) : (s.markSeen id).Indexed := by
  cases hseen : s.hasSeen id with
  | true =>
      rw [markSeen_of_seen hseen]
      exact hs
  | false =>
      have hnew := hs.not_mem hseen
      have hlist := seenLetterIDs_markSeen hseen
      have hsize := Ring.length_push_le seenLetterIDCap id s.seenLetterIDs
      rw [← hlist] at hsize
      refine ⟨fun x => ?_, hlist ▸ Ring.nodup_push hs.nodup hnew, hsize⟩
      · have hall : (s.seenLetterIDs ++ [id]).Nodup :=
          List.nodup_append.2 ⟨hs.nodup, List.nodup_singleton id, fun a ha b hb heq =>
            hnew (List.mem_singleton.1 hb ▸ heq ▸ ha)⟩
        rw [seenIndex_markSeen hseen, hlist, Ring.push_eq_drop]
        generalize (s.seenLetterIDs ++ [id]).length - seenLetterIDCap = excess
        have hmem : x ∈ s.seenLetterIDs ++ [id] ↔ Function.update s.seenIndex id true x = true := by
          rw [List.mem_append, List.mem_singleton, Function.update_apply, ← hs.index]
          by_cases hx : x = id
          · simp [hx]
          · simp [hx]
        rw [← List.take_append_drop excess (s.seenLetterIDs ++ [id])] at hall
        have hdisjoint := List.disjoint_of_nodup_append hall
        by_cases htake : x ∈ (s.seenLetterIDs ++ [id]).take excess
        · rw [if_pos htake]
          exact ⟨fun h => absurd h Bool.false_ne_true, fun h => absurd h (hdisjoint htake)⟩
        · rw [if_neg htake, ← hmem]
          refine ⟨fun h => ?_, List.mem_of_mem_drop⟩
          rw [← List.take_append_drop excess (s.seenLetterIDs ++ [id]), List.mem_append] at h
          exact h.resolve_left htake

lemma Indexed.loadState (hs : s.Indexed) : (loadState (some s.toSaved)).Indexed :=
  indexed_rebuildIndex hs.nodup hs.size

end State
end Index

/-! ## The firmware's ring -/

section Firmware

open Device (FileSeenRing nameIsSafe)

/-- A letter's id is marked; or both are started anew, the simulator from what it saved. -/
inductive Remember
  | mark (id : String)
  | restart (o : WriteOutcome)

def Remember.simulated (s : State) : Remember → State
  | .mark id => s.markSeen id
  | .restart _ => loadState (some s.toSaved)

/-- The firmware's ring writes to flash each time. -/
def Remember.onDevice (r : FileSeenRing) : Remember → FileSeenRing
  | .mark id => (r.add id .done).1
  | .restart o => r.opened o

/-- The two lists are one. -/
structure Matches (s : State) (r : FileSeenRing) : Prop where
  indexed : s.Indexed
  exact : r.Exact
  capacity : r.capacity = seenLetterIDCap
  same : s.seenLetterIDs = r.ring

variable {s : State} {r : FileSeenRing} {e : Remember}

lemma Matches.hasSeen (h : Matches s r) (id : String) : s.hasSeen id = r.contains id := by
  rw [Bool.eq_iff_iff, h.indexed.hasSeen_iff, h.same, FileSeenRing.contains, List.contains_iff_mem]

lemma Matches.step (h : Matches s r) (hsafe : ∀ id, e = .mark id → nameIsSafe id = true) :
    Matches (e.simulated s) (e.onDevice r) := by
  cases e with
  | restart o =>
      obtain ⟨hexact, hring⟩ := h.exact.opened (o := o)
      refine ⟨h.indexed.loadState, hexact, ?_, ?_⟩
      · exact (FileSeenRing.capacity_opened r o).trans h.capacity
      · exact h.same.trans hring.symm
  | mark id =>
      have hindexed := h.indexed.markSeen id
      have hexact := (h.exact.add id).1
      have hcap := (FileSeenRing.capacity_add r id .done).trans h.capacity
      have hname := hsafe id rfl
      cases hseen : s.hasSeen id with
      | true =>
          have hknown : r.contains id = true := (h.hasSeen id).symm.trans hseen
          refine ⟨hindexed, hexact, hcap, ?_⟩
          show (s.markSeen id).seenLetterIDs = (r.add id .done).1.ring
          rw [State.markSeen_of_seen hseen, FileSeenRing.add_of_known hname hknown]
          exact h.same
      | false =>
          have hnew : r.contains id = false := (h.hasSeen id).symm.trans hseen
          refine ⟨hindexed, hexact, hcap, ?_⟩
          show (s.markSeen id).seenLetterIDs = (r.add id .done).1.ring
          rw [State.seenLetterIDs_markSeen hseen, (FileSeenRing.ring_add hname hnew .done).1,
            FileSeenRing.taken_eq h.exact.length_le, h.capacity, h.same]

lemma matches_empty : Matches freshState (FileSeenRing.empty 0) where
  indexed := State.indexed_fresh
  exact := ⟨rfl, List.nodup_nil, List.not_mem_nil⟩
  capacity := rfl
  same := rfl

/-- Of the same letters, marked in the same order and with the same restarts, the simulator and the
firmware remember the same. -/
theorem agrees_with_firmware (es : List Remember)
    (hsafe : ∀ id, .mark id ∈ es → nameIsSafe id = true) (id : String) :
    (es.foldl Remember.simulated freshState).hasSeen id =
      (es.foldl Remember.onDevice (FileSeenRing.empty 0)).contains id := by
  have hmatches : ∀ (s : State) (r : FileSeenRing), Matches s r →
      Matches (es.foldl Remember.simulated s) (es.foldl Remember.onDevice r) := by
    induction es with
    | nil => exact fun _ _ h => h
    | cons e es ih =>
        intro s r h
        apply ih
        · exact fun id hid => hsafe id (List.mem_cons_of_mem e hid)
        · apply h.step
          rintro id rfl
          exact hsafe id List.mem_cons_self
  exact (hmatches _ _ matches_empty).hasSeen id

/-- Two letters, and a restart between them. -/
def Sample.marks : List Remember := [.mark "l-1", .restart .done, .mark "l-2"]

theorem agrees_with_firmware_marks :
    (Sample.marks.foldl Remember.simulated freshState).hasSeen "l-1" = true ∧
      ∀ id, (Sample.marks.foldl Remember.simulated freshState).hasSeen id =
        (Sample.marks.foldl Remember.onDevice (FileSeenRing.empty 0)).contains id := by
  constructor
  · decide +kernel
  · apply agrees_with_firmware
    intro id hid
    simp only [Sample.marks, List.mem_cons, Remember.mark.injEq, List.not_mem_nil, reduceCtorEq,
      false_or, or_false] at hid
    rcases hid with rfl | rfl
    · decide +kernel
    · decide +kernel

end Firmware
end Chaskiwasi.Sim
