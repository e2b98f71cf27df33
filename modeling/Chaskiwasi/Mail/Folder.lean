import Chaskiwasi.Lib.Keyed
import Mathlib.Order.Fin.Basic
import Mathlib.Algebra.Group.Nat.Defs
import Mathlib.Algebra.GroupWithZero.Nat

/-!
# The mailbox: messages and folders

The mailbox is the sole store of letters; nothing on the server keeps a copy.  What the server
sees of it is a folder: messages under ascending UIDs that the mail server assigns, each fresh
one above every UID the folder ever assigned.  `Folder` carries that as fields, so a folder out
of order, or one that hands a UID out twice, cannot be built.

The operations are those of the `Mailbox` interface that read or change one folder:
`fetchAbove`, `recent`, the listing (the folder's own `msgs`), and the two halves of a move,
`remove` and `push`.  Moving a message that is no longer there changes nothing and is no error,
which `remove` inherits from `List.filter`.
-/

namespace Chaskiwasi

/-- A 32-bit UID or UIDVALIDITY. -/
abbrev UID := Fin (2 ^ 32)

instance uidNeZero : NeZero (2 ^ 32 : ℕ) := ⟨by decide⟩

/-- Who put a message into the mailbox: the mail server, delivering it, or `notice.Service`,
appending it.  No modelled function reads this; it is kept for statements about where a
message came from. -/
inductive Origin
  | delivered
  | appended
  deriving DecidableEq, Repr

/-- One message as it exists in the mailbox, untouched. -/
structure Raw where
  uid : UID
  /-- The mail server's receipt time, in seconds. -/
  internalDate : ℤ
  /-- The full message text. -/
  data : List UInt8
  origin : Origin
  deriving DecidableEq, Repr

/-- A folder: its messages in UID order, and the highest UID it ever assigned. -/
structure Folder where
  msgs : List Raw
  last : UID
  sorted : Keyed.Ascending Raw.uid msgs
  le_last : ∀ m ∈ msgs, m.uid ≤ last
  pos : ∀ m ∈ msgs, 0 < m.uid

namespace Folder

def empty : Folder where
  msgs := []
  last := 0
  sorted := List.Pairwise.nil
  le_last := by simp
  pos := by simp

/-- The messages strictly above `uid`, in UID order. -/
def above (f : Folder) (uid : UID) : List Raw :=
  f.msgs.filter fun m => uid < m.uid

/-- Up to `max` messages with UID strictly above `uid`, in UID order. -/
def fetchAbove (f : Folder) (uid : UID) (max : ℕ) : List Raw :=
  (f.above uid).take max

/-- The most recent `n` messages, in UID order. -/
def recent (f : Folder) (n : ℕ) : List Raw :=
  f.msgs.drop (f.msgs.length - n)

/-- The message under a UID, if the folder holds one. -/
def find (f : Folder) (uid : UID) : Option Raw :=
  f.msgs.find? fun m => m.uid = uid

/-- The folder without the message under `uid`.  The UID stays spent. -/
def remove (f : Folder) (uid : UID) : Folder where
  msgs := f.msgs.filter fun m => m.uid ≠ uid
  last := f.last
  sorted := List.Pairwise.filter _ f.sorted
  le_last := fun m hm => f.le_last m (List.mem_of_mem_filter hm)
  pos := fun m hm => f.pos m (List.mem_of_mem_filter hm)

/-- The folder with one more message, under a UID the folder has not assigned before. -/
def push (f : Folder) (r : Raw) (h : f.last < r.uid) : Folder where
  msgs := f.msgs ++ [r]
  last := r.uid
  sorted := by
    rw [Keyed.Ascending, List.pairwise_append]
    refine ⟨f.sorted, List.pairwise_singleton _ _, fun a ha b hb => ?_⟩
    rw [List.mem_singleton.1 hb]
    exact lt_of_le_of_lt (f.le_last a ha) h
  le_last := by
    intro m hm
    rcases List.mem_append.1 hm with hm | hm
    · exact le_of_lt (lt_of_le_of_lt (f.le_last m hm) h)
    · rw [List.mem_singleton.1 hm]
  pos := by
    intro m hm
    rcases List.mem_append.1 hm with hm | hm
    · exact f.pos m hm
    · rw [List.mem_singleton.1 hm]
      exact lt_of_le_of_lt (Fin.zero_le _) h

/-- Whether a folder holds another's messages, in order, under other UIDs. -/
def Renumbers (f g : Folder) : Prop :=
  (f.msgs.map fun m => { m with uid := 0 }) = g.msgs.map fun m => { m with uid := 0 }

instance (f g : Folder) : Decidable (f.Renumbers g) :=
  inferInstanceAs (Decidable (_ = _))

/-! ## What the operations hold -/

variable {f : Folder} {m r : Raw} {uid : UID}

@[simp] lemma mem_above : m ∈ f.above uid ↔ m ∈ f.msgs ∧ uid < m.uid := by
  simp [above]

lemma mem_of_mem_fetchAbove {max : ℕ} (h : m ∈ f.fetchAbove uid max) :
    m ∈ f.msgs ∧ uid < m.uid :=
  mem_above.1 (List.mem_of_mem_take h)

/-- A page that is not full holds everything above the mark. -/
lemma mem_fetchAbove_or_full {max : ℕ} (hm : m ∈ f.msgs) (habove : uid < m.uid) :
    (f.fetchAbove uid max).length = max ∨ m ∈ f.fetchAbove uid max := by
  by_cases hlen : (f.above uid).length ≤ max
  · right
    rw [fetchAbove, List.take_of_length_le hlen]
    exact mem_above.2 ⟨hm, habove⟩
  · left
    rw [fetchAbove, List.length_take]
    omega

lemma mem_of_mem_recent {n : ℕ} (h : m ∈ f.recent n) : m ∈ f.msgs :=
  List.mem_of_mem_drop h

lemma above_zero (f : Folder) : f.above 0 = f.msgs := by
  rw [above, List.filter_eq_self]
  intro m hm
  exact decide_eq_true (f.pos m hm)

@[simp] lemma mem_remove : m ∈ (f.remove uid).msgs ↔ m ∈ f.msgs ∧ m.uid ≠ uid := by
  simp [remove]

@[simp] lemma mem_push {h : f.last < r.uid} : m ∈ (f.push r h).msgs ↔ m ∈ f.msgs ∨ m = r := by
  simp [push]

lemma find_eq_some (h : f.find uid = some m) : m ∈ f.msgs ∧ m.uid = uid := by
  refine ⟨List.mem_of_find?_eq_some h, ?_⟩
  simpa using List.find?_some h

/-- A UID names one message of the folder. -/
lemma eq_of_uid_eq {a b : Raw} (ha : a ∈ f.msgs) (hb : b ∈ f.msgs) (h : a.uid = b.uid) :
    a = b :=
  f.sorted.eq_of_key_eq ha hb h

/-- The messages above a mark that lies between a prefix of the folder's tail and what
follows it. -/
lemma above_eq_of_append {lo hi : UID} {p q : List Raw} (h : f.above lo = p ++ q)
    (hp : ∀ m ∈ p, m.uid ≤ hi) (hq : ∀ m ∈ q, hi < m.uid) (hle : lo ≤ hi) :
    f.above hi = q := by
  have hsplit : f.above hi = (f.above lo).filter fun m => hi < m.uid := by
    rw [above, above, List.filter_filter]
    refine List.filter_congr fun m _ => ?_
    rw [Bool.eq_iff_iff]
    simp only [decide_eq_true_eq, Bool.and_eq_true]
    exact ⟨fun hm => ⟨hm, lt_of_le_of_lt hle hm⟩, fun hm => hm.1⟩
  rw [hsplit, h, List.filter_append]
  have hnone : p.filter (fun m => decide (hi < m.uid)) = [] := by
    rw [List.filter_eq_nil_iff]
    intro m hm
    simpa using hp m hm
  have hall : q.filter (fun m => decide (hi < m.uid)) = q := by
    rw [List.filter_eq_self]
    intro m hm
    simpa using hq m hm
  rw [hnone, hall, List.nil_append]

lemma above_sorted (f : Folder) (uid : UID) : Keyed.Ascending Raw.uid (f.above uid) :=
  List.Pairwise.filter _ f.sorted

lemma fetchAbove_sorted (f : Folder) (uid : UID) (max : ℕ) :
    Keyed.Ascending Raw.uid (f.fetchAbove uid max) :=
  List.Pairwise.take (f.above_sorted uid)

/-- What a page leaves out is above all of it. -/
lemma mem_fetchAbove_or_lt {max : ℕ} (hm : m ∈ f.msgs) (habove : uid < m.uid) :
    m ∈ f.fetchAbove uid max ∨ ∀ x ∈ f.fetchAbove uid max, x.uid < m.uid := by
  have hmem : m ∈ (f.above uid).take max ++ (f.above uid).drop max := by
    rw [List.take_append_drop]
    exact mem_above.2 ⟨hm, habove⟩
  have hsorted := f.above_sorted uid
  rw [← List.take_append_drop max (f.above uid), Keyed.Ascending, List.pairwise_append] at hsorted
  rcases List.mem_append.1 hmem with htake | hdrop
  · exact Or.inl htake
  · exact Or.inr fun x hx => hsorted.2.2 x hx m hdrop

end Folder
end Chaskiwasi
