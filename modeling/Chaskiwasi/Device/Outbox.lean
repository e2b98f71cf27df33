import Chaskiwasi.Lib.Keyed
import Chaskiwasi.Outbound.State
import Mathlib.Data.List.Sort
import Mathlib.Data.String.Basic

/-!
# The device's outbox

A letter the child has finished writing is a file under `outbox/`, named by its local id, and stays
there until an ack.  Local ids come from a counter kept in a file of its own, `local_id`, which is
written before the letter.  Both files are on the letters partition.

An `Outbox` is the two on flash together with what the running firmware holds of them in memory,
which a reboot reads back (`opened`) and a power cut loses (`cut`).
-/

namespace Chaskiwasi

namespace WriteOutcome

/-- Whether the file is the new one. -/
def written : WriteOutcome → Bool
  | .done | .replaced => true
  | .unchanged => false

/-- Whether the write returned true. -/
def ok : WriteOutcome → Bool
  | .done => true
  | .unchanged | .replaced => false

lemma written_of_ok {o : WriteOutcome} (h : o.ok = true) : o.written = true := by
  cases o <;> simp_all [ok, written]

lemma ok_of_not_written {o : WriteOutcome} (h : o.written = false) : o.ok = false := by
  cases hok : o.ok with
  | false => rfl
  | true =>
      rw [written_of_ok hok] at h
      cases h

end WriteOutcome

namespace Device

structure OutboxEntry where
  localID : String
  contactID : String
  subject : String
  body : String
  composedAt : ℤ := 0
  /-- A terminal reject was received; the text is kept. -/
  rejected : Bool := false
  /-- `none` is `kUnknown`. -/
  rejectStatus : Option AckStatus := none
  /-- Which of the letters composed on the device this is, as in `OutboundItem`. -/
  composed : ℕ := 0
  deriving DecidableEq, Repr

/-- The letter as a request carries it. -/
def OutboxEntry.item (e : OutboxEntry) : OutboundItem where
  letter := ⟨e.localID, e.contactID, e.subject, e.body⟩
  composed := e.composed

/-- The cap on letters waiting to be sent. -/
def outboxCap : ℕ := 12

/-- The digits of a local id. -/
def localIDDigits : ℕ := 16

def formatLocalID (n : ℕ) : String :=
  String.ofList (List.replicate (localIDDigits - (Nat.toDigits 10 n).length) '0' ++
    Nat.toDigits 10 n)

/-- The number `LoadCounter` reads back from what was written; one that does not fit a signed 64-bit
number reads as no value. -/
def parseCounter (n : ℕ) : ℕ := if n < 2 ^ 63 then n else 0

structure Outbox where
  /-- The file `local_id`; 0 where there is none. -/
  counter : ℕ := 0
  /-- The files under `outbox/`, in the order of their names. -/
  files : List OutboxEntry := []
  /-- In memory. -/
  highWater : ℕ := 0
  entries : List OutboxEntry := []
  deriving DecidableEq, Repr

namespace Outbox

/-- What a boot makes of the files. -/
def opened (b : Outbox) : Outbox :=
  { b with highWater := parseCounter b.counter, entries := b.files }

/-- What a power cut leaves. -/
def cut (b : Outbox) : Outbox := { b with highWater := 0, entries := [] }

/-- The partition was formatted. -/
def formatted : Outbox := {}

def sendableCount (b : Outbox) : ℕ := b.entries.countP fun e => !e.rejected

/-- Every entry, in the order of the local ids. -/
def all (b : Outbox) : List OutboxEntry :=
  b.entries.insertionSort fun x y => x.localID ≤ y.localID

/-- What the next sync carries: everything not rejected, in the order of the local ids. -/
def sendable (b : Outbox) : List OutboxEntry :=
  (b.entries.insertionSort fun x y => x.localID ≤ y.localID).filter fun e => !e.rejected

/-- The number of the next letter, in 64 bits. -/
def next (b : Outbox) : ℕ := (b.highWater + 1) % 2 ^ 64

/-- The first write of `Add`, of the counter. -/
def mint (b : Outbox) (o : WriteOutcome) : Outbox :=
  { b with
    counter := if o.written then b.next else b.counter
    highWater := if o.ok then b.next else b.highWater }

/-- The second write of `Add`, of the letter. -/
def insert (b : Outbox) (e : OutboxEntry) (o : WriteOutcome) : Outbox :=
  { b with
    files := if o.written then Keyed.put OutboxEntry.localID e b.files else b.files
    entries := if o.ok then b.entries ++ [e] else b.entries }

def find? (b : Outbox) (localID : String) : Option OutboxEntry :=
  b.entries.find? fun e => e.localID = localID

/-- `Erase`; removing a file that is not there succeeds. -/
def erase (b : Outbox) (localID : String) (o : WriteOutcome) : Outbox × Bool :=
  let others := fun e : OutboxEntry => decide (e.localID ≠ localID)
  if b.files.all others then ({ b with entries := b.entries.filter others }, true)
  else if o.ok then
    ({ b with files := b.files.filter others, entries := b.entries.filter others }, true)
  else ({ b with files := if o.written then b.files.filter others else b.files }, false)

/-- An entry after a reject. -/
def reject (status : Option AckStatus) (e : OutboxEntry) : OutboxEntry :=
  { e with rejected := true, rejectStatus := status }

/-- Applies one terminal ack: `sent` removes the entry, anything else keeps it with its text.  An
ack for a local id that is not there changes nothing and succeeds. -/
def resolve (b : Outbox) (localID : String) (status : Option AckStatus) (o : WriteOutcome) :
    Outbox × Bool :=
  match b.find? localID with
  | none => (b, true)
  | some e =>
      if status = some .sent then b.erase localID o
      else
        ({ b with
           entries := b.entries.map fun e => if e.localID = localID then reject status e else e
           files :=
             if o.written then Keyed.put OutboxEntry.localID (reject status e) b.files
             else b.files },
         o.ok)

/-- `Discard`. -/
def discard (b : Outbox) (localID : String) (o : WriteOutcome) : Outbox × Bool :=
  match b.find? localID with
  | none => (b, false)
  | some _ => b.erase localID o

/-! ## What is in an outbox -/

/-- Every letter in the outbox, on flash or in memory, satisfies `K`. -/
structure AllIn (K : OutboundItem → Prop) (b : Outbox) : Prop where
  files : ∀ e ∈ b.files, K e.item
  entries : ∀ e ∈ b.entries, K e.item

variable {K L : OutboundItem → Prop} {b : Outbox} {e : OutboxEntry} {o : WriteOutcome}
  {localID : String} {status : Option AckStatus}

lemma mem_of_find? (h : b.find? localID = some e) : e ∈ b.entries ∧ e.localID = localID :=
  ⟨List.mem_of_find?_eq_some h, by simpa using List.find?_some h⟩

section Counter

variable (hle : b.highWater ≤ b.counter) (hlt : b.counter < 2 ^ 63)
include hle hlt

/-- As long as it fits its file, the counter does not run over. -/
lemma next_of_lt : b.next = b.highWater + 1 := by
  rw [next, Nat.mod_eq_of_lt (by omega)]

lemma highWater_le_mint : b.highWater ≤ (b.mint o).highWater := by
  simp only [mint, next_of_lt hle hlt]
  split_ifs
  · exact Nat.le_succ _
  · exact le_refl _

/-- The number in the file is written before the one in memory. -/
lemma mint_le : (b.mint o).highWater ≤ (b.mint o).counter := by
  simp only [mint, next_of_lt hle hlt]
  cases o with
  | done => exact le_refl _
  | unchanged => exact hle
  | replaced => exact Nat.le_succ _

lemma mint_lt (hroom : b.highWater + 1 < 2 ^ 63) : (b.mint o).counter < 2 ^ 63 := by
  simp only [mint, next_of_lt hle hlt]
  split_ifs
  · exact hroom
  · exact hlt

end Counter

lemma AllIn.mono (h : AllIn K b) (hKL : ∀ i, K i → L i) : AllIn L b :=
  ⟨fun e he => hKL _ (h.files e he), fun e he => hKL _ (h.entries e he)⟩

lemma AllIn.and (hK : AllIn K b) (hL : AllIn L b) : AllIn (fun i => K i ∧ L i) b :=
  ⟨fun e he => ⟨hK.files e he, hL.files e he⟩, fun e he => ⟨hK.entries e he, hL.entries e he⟩⟩

lemma AllIn.opened (h : AllIn K b) : AllIn K b.opened := ⟨h.files, h.files⟩

lemma AllIn.cut (h : AllIn K b) : AllIn K b.cut := ⟨h.files, by simp [Outbox.cut]⟩

lemma allIn_formatted : AllIn K formatted := ⟨by simp [formatted], by simp [formatted]⟩

lemma AllIn.mint (h : AllIn K b) : AllIn K (b.mint o) := ⟨h.files, h.entries⟩

lemma AllIn.insert (h : AllIn K b) (he : K e.item) : AllIn K (b.insert e o) where
  files := by
    intro e' hmem
    simp only [Outbox.insert] at hmem
    split_ifs at hmem
    · rcases Keyed.mem_of_mem_put hmem with rfl | hmem
      · exact he
      · exact h.files e' hmem
    · exact h.files e' hmem
  entries := by
    intro e' hmem
    simp only [Outbox.insert] at hmem
    split_ifs at hmem
    · rcases List.mem_append.1 hmem with hmem | hmem
      · exact h.entries e' hmem
      · rw [List.mem_singleton.1 hmem]
        exact he
    · exact h.entries e' hmem

lemma AllIn.erase (h : AllIn K b) : AllIn K (b.erase localID o).1 := by
  unfold Outbox.erase
  have hfilter : ∀ {xs : List OutboxEntry} {p : OutboxEntry → Bool}, (∀ e ∈ xs, K e.item) →
      ∀ e ∈ xs.filter p, K e.item := fun hxs e he => hxs e (List.mem_of_mem_filter he)
  dsimp only
  split_ifs
  · exact ⟨h.files, hfilter h.entries⟩
  · exact ⟨hfilter h.files, hfilter h.entries⟩
  · exact ⟨hfilter h.files, h.entries⟩
  · exact ⟨h.files, h.entries⟩

lemma AllIn.resolve (h : AllIn K b) : AllIn K (b.resolve localID status o).1 := by
  unfold Outbox.resolve
  split
  · exact h
  next e he =>
    by_cases hsent : status = some .sent
    · rw [if_pos hsent]
      exact h.erase
    · rw [if_neg hsent]
      refine ⟨fun e' hmem => ?_, fun e' hmem => ?_⟩
      · dsimp only at hmem
        split_ifs at hmem
        · rcases Keyed.mem_of_mem_put hmem with rfl | hmem
          · exact h.entries e (mem_of_find? he).1
          · exact h.files e' hmem
        · exact h.files e' hmem
      · obtain ⟨e'', hmem', rfl⟩ := List.mem_map.1 hmem
        split_ifs
        · exact h.entries e'' hmem'
        · exact h.entries e'' hmem'

lemma AllIn.discard (h : AllIn K b) : AllIn K (b.discard localID o).1 := by
  unfold Outbox.discard
  split
  · exact h
  · exact h.erase

lemma AllIn.sendable (h : AllIn K b) : ∀ e ∈ b.sendable, K e.item := by
  intro e he
  exact h.entries e ((List.mem_insertionSort _).1 (List.mem_of_mem_filter he))

/-! ## What an ack does to the files -/

/-- What an ack makes of one letter. -/
def settle (localID : String) (status : Option AckStatus) (e : OutboxEntry) : Option OutboxEntry :=
  if e.localID = localID then
    if status = some .sent then none else some (reject status e)
  else some e

/-- Memory holds exactly the letters on flash. -/
structure Mirrors (b : Outbox) : Prop where
  ascending : Keyed.Ascending OutboxEntry.localID b.files
  entries : ∀ e, e ∈ b.entries ↔ e ∈ b.files

@[simp] lemma localID_reject (status : Option AckStatus) (e : OutboxEntry) :
    (reject status e).localID = e.localID := rfl

@[simp] lemma reject_reject (status status' : Option AckStatus) (e : OutboxEntry) :
    reject status (reject status' e) = reject status e := rfl

lemma settle_of_ne (h : e.localID ≠ localID) : settle localID status e = some e := if_neg h

lemma settle_sent (h : e.localID = localID) : settle localID (some .sent) e = none := by
  rw [settle, if_pos h, if_pos rfl]

lemma settle_reject (h : e.localID = localID) (hsent : status ≠ some .sent) :
    settle localID status e = some (reject status e) := by
  rw [settle, if_pos h, if_neg hsent]

lemma localID_of_settle {e' : OutboxEntry} (h : settle localID status e = some e') :
    e'.localID = e.localID := by
  unfold settle at h
  split_ifs at h
  · obtain rfl := Option.some.inj h
    rfl
  · obtain rfl := Option.some.inj h
    rfl

lemma mirrors_opened (h : Keyed.Ascending OutboxEntry.localID b.files) : Mirrors b.opened :=
  ⟨h, fun _ => Iff.rfl⟩

lemma Mirrors.filterMap_settle_of_none (h : Mirrors b) (hnone : b.find? localID = none) :
    b.files.filterMap (settle localID status) = b.files := by
  refine (List.filterMap_congr fun e he => ?_).trans List.filterMap_some
  refine settle_of_ne fun hid => ?_
  simpa [hid] using List.find?_eq_none.1 hnone e ((h.entries e).2 he)

lemma map_eq_settle (hsent : status ≠ some .sent) (entries : List OutboxEntry) :
    (entries.map fun e => if e.localID = localID then reject status e else e) =
      entries.filterMap (settle localID status) := by
  rw [← List.filterMap_eq_map]
  refine List.filterMap_congr fun e _ => ?_
  by_cases hid : e.localID = localID
  · rw [settle_reject hid hsent]
    simp [hid]
  · rw [settle_of_ne hid]
    simp [hid]

lemma filter_eq_settle (localID : String) (files : List OutboxEntry) :
    (files.filter fun e => decide (e.localID ≠ localID)) =
      files.filterMap (settle localID (some .sent)) := by
  rw [← List.filterMap_eq_filter]
  refine List.filterMap_congr fun e _ => ?_
  by_cases hid : e.localID = localID
  · simp [settle, Option.guard, hid]
  · simp [settle, Option.guard, hid]

lemma Mirrors.put_eq_settle (h : Mirrors b) (he : b.find? localID = some e)
    (hsent : status ≠ some .sent) :
    Keyed.put OutboxEntry.localID (reject status e) b.files =
      b.files.filterMap (settle localID status) := by
  obtain ⟨hmem, hid⟩ := mem_of_find? he
  have hfile := (h.entries e).1 hmem
  rw [h.ascending.put_eq_map hfile (a := reject status e) rfl, ← List.filterMap_eq_map]
  refine List.filterMap_congr fun e' he' => ?_
  rw [localID_reject, hid]
  by_cases hid' : e'.localID = localID
  · obtain rfl : e' = e := h.ascending.eq_of_key_eq he' hfile (hid'.trans hid.symm)
    rw [settle_reject hid' hsent]
    simp [hid']
  · rw [settle_of_ne hid']
    simp [hid']

/-- Memory settled as the files are mirrors them. -/
lemma Mirrors.settled (h : Mirrors b) {b' : Outbox}
    (hfiles : b'.files = b.files.filterMap (settle localID status))
    (hentries : b'.entries = b.entries.filterMap (settle localID status)) :
    Mirrors b' where
  ascending := by
    rw [hfiles]
    exact h.ascending.filterMap fun _ _ => localID_of_settle
  entries := by
    intro e
    rw [hentries, hfiles, List.mem_filterMap, List.mem_filterMap]
    exact exists_congr fun e₀ => and_congr_left fun _ => h.entries e₀

/-- The files and the entries without a letter. -/
def without (b : Outbox) (localID : String) (o : WriteOutcome) : Outbox :=
  { b with
    files := if o.written then b.files.filter fun e => decide (e.localID ≠ localID) else b.files
    entries := if o.ok then b.entries.filter fun e => decide (e.localID ≠ localID) else b.entries }

/-- The file of a letter in memory is there to be removed. -/
lemma Mirrors.erase_eq (h : b.Mirrors) (he : b.find? localID = some e) (o : WriteOutcome) :
    b.erase localID o = (b.without localID o, o.ok) := by
  obtain ⟨hmem, hid⟩ := mem_of_find? he
  have hthere : b.files.all (fun e => decide (e.localID ≠ localID)) = false := by
    rw [List.all_eq_false]
    exact ⟨e, (h.entries e).1 hmem, by simp [hid]⟩
  simp only [Outbox.erase, hthere, Bool.false_eq_true, if_false]
  cases o with
  | done => rfl
  | unchanged => rfl
  | replaced => rfl

/-- The files and the entries with a letter rejected. -/
def rejected (b : Outbox) (localID : String) (status : Option AckStatus) (e : OutboxEntry)
    (o : WriteOutcome) : Outbox :=
  { b with
    entries := b.entries.map fun e => if e.localID = localID then reject status e else e
    files :=
      if o.written then Keyed.put OutboxEntry.localID (reject status e) b.files else b.files }

lemma resolve_sent (he : b.find? localID = some e) (o : WriteOutcome) :
    b.resolve localID (some .sent) o = b.erase localID o := by
  simp only [resolve, he, if_true]

lemma resolve_reject (he : b.find? localID = some e) (hsent : status ≠ some .sent)
    (o : WriteOutcome) :
    b.resolve localID status o = (b.rejected localID status e o, o.ok) := by
  simp only [resolve, he, if_neg hsent]
  rfl

lemma resolve_none (hnone : b.find? localID = none) (o : WriteOutcome) :
    b.resolve localID status o = (b, true) := by
  simp only [resolve, hnone]

/-- What resolving an ack does, where memory holds what is on flash: an answer of true means that
files and memory are the settled ones; otherwise the write failed, and the files are the settled
ones or the old ones. -/
theorem Mirrors.resolve (h : Mirrors b) :
    ((b.resolve localID status o).2 = true → (b.resolve localID status o).1.Mirrors ∧
      (b.resolve localID status o).1.files = b.files.filterMap (settle localID status)) ∧
    ((b.resolve localID status o).2 = false → o.ok = false ∧
      ((b.resolve localID status o).1.files = b.files.filterMap (settle localID status) ∨
        (b.resolve localID status o).1.files = b.files)) := by
  cases hfind : b.find? localID with
  | none =>
      have hsame : b.files.filterMap (settle localID status) = b.files :=
        h.filterMap_settle_of_none hfind
      simp only [Outbox.resolve, hfind]
      exact ⟨fun _ => ⟨h, hsame.symm⟩, fun hfalse => by simp at hfalse⟩
  | some e =>
      by_cases hsent : status = some .sent
      · subst hsent
        rw [resolve_sent hfind, h.erase_eq hfind]
        simp only [without, filter_eq_settle]
        cases hok : o.ok with
        | true =>
            rw [WriteOutcome.written_of_ok hok]
            exact ⟨fun _ => ⟨h.settled rfl rfl, rfl⟩, fun hfalse => by simp at hfalse⟩
        | false =>
            refine ⟨fun htrue => by simp at htrue, fun _ => ⟨rfl, ?_⟩⟩
            cases o.written
            · exact Or.inr rfl
            · exact Or.inl rfl
      · rw [resolve_reject hfind hsent]
        simp only [rejected, h.put_eq_settle hfind hsent]
        refine ⟨fun hok => ?_, fun hok => ⟨hok, ?_⟩⟩
        · rw [WriteOutcome.written_of_ok hok, if_pos rfl]
          exact ⟨h.settled rfl (map_eq_settle hsent _), rfl⟩
        · cases o.written
          · exact Or.inr rfl
          · exact Or.inl rfl

end Outbox
end Device
end Chaskiwasi
