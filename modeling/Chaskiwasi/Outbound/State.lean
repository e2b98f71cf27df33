import Chaskiwasi.Lib.Ring
import Chaskiwasi.Mail.Folder
import Chaskiwasi.Sync.Wire

/-!
# What the server remembers of the outbox

The ack ring holds the terminal outcome of every outbound letter the server has processed, the
newest 4096 of them, keyed by the device's local id.  It is part of `state.json`, which is
rewritten as a whole on every change; a `Store` is that file together with the state the running
process has published, and the two differ after a write that failed late.
-/

namespace Chaskiwasi

/-- One child-authored letter awaiting submission. -/
structure Outbound where
  localID : String
  contactID : String
  subject : String := ""
  body : String
  deriving DecidableEq, Repr

/-- One decoded outbound letter. -/
structure OutboundItem where
  letter : Outbound
  /-- A field this server does not know was present. -/
  unknownFields : Bool := false
  /-- Which of the letters composed on the device this is.  No modelled function reads it; it is
  kept for statements about whose letter an ack is for. -/
  composed : ℕ := 0
  deriving DecidableEq, Repr

/-- One terminal ack. -/
structure AckEntry where
  localID : String
  status : AckStatus
  at_ : ℤ
  /-- The letter whose processing ended so.  Kept for statements, as `composed` is. -/
  item : OutboundItem
  deriving DecidableEq, Repr

/-- The ack ring capacity. -/
def ackRingSize : ℕ := 4096

/-- The ack ring, oldest entry first. -/
structure AckRing where
  entries : List AckEntry
  deriving DecidableEq, Repr

/-- Whether an entry is for a local id. -/
def AckEntry.isFor (localID : String) (e : AckEntry) : Bool := e.localID = localID

namespace AckRing

/-- The recorded terminal ack for a local id, the newest if there were two. -/
def lookup (r : AckRing) (localID : String) : Option AckEntry :=
  Ring.newest? (AckEntry.isFor localID) r.entries

/-- Appends a terminal ack, evicting the oldest entry at capacity. -/
def record (r : AckRing) (e : AckEntry) : AckRing :=
  ⟨Ring.push ackRingSize e r.entries⟩

/-- The ring answers for a local id with this entry, and fewer than `d + 1` entries are newer. -/
def Holds (r : AckRing) (localID : String) (e : AckEntry) (d : ℕ) : Prop :=
  Ring.Within (AckEntry.isFor localID) e d r.entries

variable {r : AckRing} {localID : String} {e e' : AckEntry} {d : ℕ}

lemma entries_record (r : AckRing) (e : AckEntry) :
    (r.record e).entries = Ring.push ackRingSize e r.entries := rfl

lemma Holds.lookup_eq (h : r.Holds localID e d) : r.lookup localID = some e :=
  Ring.Within.newest?_eq h

lemma Holds.record (h : r.Holds localID e d) (hne : e'.localID ≠ localID)
    (hd : d + 1 < ackRingSize) : (r.record e').Holds localID e (d + 1) := by
  rw [Holds, entries_record]
  exact Ring.Within.push h (by simpa [AckEntry.isFor] using hne) hd

lemma holds_record_self (r : AckRing) (e : AckEntry) : (r.record e).Holds e.localID e 0 := by
  rw [Holds, entries_record]
  exact Ring.within_push_self (by decide) (by simp [AckEntry.isFor])

lemma localID_of_lookup (h : r.lookup localID = some e) : e ∈ r.entries ∧ e.localID = localID := by
  obtain ⟨hmem, hfor⟩ := Ring.mem_of_newest? h
  exact ⟨hmem, by simpa [AckEntry.isFor] using hfor⟩

lemma lookup_eq_none_iff : r.lookup localID = none ↔ ∀ e ∈ r.entries, e.localID ≠ localID := by
  rw [lookup, Ring.newest?_eq_none_iff]
  simp [AckEntry.isFor]

lemma mem_record (h : e ∈ (r.record e').entries) : e ∈ r.entries ∨ e = e' := by
  rw [entries_record] at h
  exact Ring.mem_of_mem_push h

end AckRing

/-- The part of `state.json` that a sync reads or writes. -/
structure State where
  /-- The mirror of the device's cursor. -/
  uidValidity : UID := 0
  lastUID : UID := 0
  acks : AckRing := ⟨[]⟩
  pututuCounter : ℕ := 0
  lastSyncAt : ℤ := 0
  deriving DecidableEq, Repr

/-- The state with the doorbell counter moved on, in 64 bits, for an SMS that carries it. -/
def State.nextPututuCounter (s : State) : State :=
  { s with pututuCounter := (s.pututuCounter + 1) % 2 ^ 64 }

/-- Jumps the doorbell counter forward to what the device has accepted, never backward. -/
def State.reconcilePututuCounter (s : State) (seen : ℕ) : State :=
  { s with pututuCounter := if s.pututuCounter < seen then seen else s.pututuCounter }

lemma State.le_reconcilePututuCounter (s : State) (seen : ℕ) :
    s.pututuCounter ≤ (s.reconcilePututuCounter seen).pututuCounter ∧
      seen ≤ (s.reconcilePututuCounter seen).pututuCounter := by
  unfold reconcilePututuCounter
  by_cases h : s.pututuCounter < seen
  · simp only [h, if_true]
    omega
  · simp only [h, if_false]
    omega

/-- How the rewriting of the file ends. -/
inductive WriteOutcome
  | done
  /-- An error before the rename: the file is as it was. -/
  | unchanged
  /-- An error after the rename, from the directory: the file is the new one. -/
  | replaced
  deriving DecidableEq, Repr

structure Store where
  /-- What a process that opens the store finds; the empty state where there is no file. -/
  file : State
  /-- The published state, while a process runs. -/
  current : Option State
  deriving DecidableEq, Repr

namespace Store

/-- `Open`. -/
def opened (s : Store) : Store := { s with current := some s.file }

/-- `Update`, while a process runs: the store afterwards, and whether nil was returned. -/
def update (s : Store) (f : State → State) (o : WriteOutcome) : Option (Store × Bool) :=
  s.current.map fun st =>
    match o with
    | .done => (⟨f st, some (f st)⟩, true)
    | .unchanged => (s, false)
    | .replaced => ({ s with file := f st }, false)

/-- What an update can do. -/
lemma update_cases {s s' : Store} {f : State → State} {o : WriteOutcome} {ok : Bool}
    (h : s.update f o = some (s', ok)) :
    ∃ st, s.current = some st ∧
      (o = .done ∧ ok = true ∧ s' = ⟨f st, some (f st)⟩ ∨ o = .unchanged ∧ ok = false ∧ s' = s ∨
        o = .replaced ∧ ok = false ∧ s' = { s with file := f st }) := by
  obtain ⟨st, hcur, h⟩ := Option.map_eq_some_iff.1 h
  refine ⟨st, hcur, ?_⟩
  cases o with
  | done =>
      obtain ⟨rfl, rfl⟩ := Prod.mk.inj h
      exact Or.inl ⟨rfl, rfl, rfl⟩
  | unchanged =>
      obtain ⟨rfl, rfl⟩ := Prod.mk.inj h
      exact Or.inr (Or.inl ⟨rfl, rfl, rfl⟩)
  | replaced =>
      obtain ⟨rfl, rfl⟩ := Prod.mk.inj h
      exact Or.inr (Or.inr ⟨rfl, rfl, rfl⟩)

end Store
end Chaskiwasi
