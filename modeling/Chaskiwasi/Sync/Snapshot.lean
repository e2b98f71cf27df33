import Chaskiwasi.Ayllu.History
import Chaskiwasi.Device.Apply
import Chaskiwasi.Lib.Run
import Mathlib.Algebra.Group.Int.Defs

/-!
# The contact snapshot and its version

A sync ships the device's view of the contact list where the version that the device reports is not
the server's.  Whether the two then agree is decided by a bare number.

Along one history of the server a version names one table (`Made`): every change that is written
mints the next one.  A data directory that is restored begins another history, in which later
changes mint the same versions for other tables.  And a server that nothing was ever added to and a
device that was never synced both say 0, so that the device is not even given the system contact.
-/

namespace Chaskiwasi

open Crash Device

/-! ## The device's view -/

namespace Table

/-- The system contact goes as a tombstone: its name on a notice is rendered, and nobody can write
to it. -/
def deviceContacts (t : Table) : List AylluContact :=
  ⟨sysContactID, systemName, false, false, 0, ""⟩ ::
    t.contacts.map fun c => ⟨c.id, c.name, c.active, c.pinned, c.order, c.portrait⟩

/-- The device's Ayllu block, unless the version requested is the one the table has. -/
def deviceView (t : Table) (requestVersion : ℕ) : Option Ayllu :=
  if requestVersion = t.version then none else some ⟨t.version, t.deviceContacts⟩

end Table

/-- How the device reads the numbers of a response: as doubles, which are exact up to 2 ^ 53. -/
structure Doubles where
  ofNumber : ℤ → ℤ
  exact : ∀ n : ℤ, n.natAbs ≤ 2 ^ 53 → ofNumber n = n

/-- Whether a number is an `int` of the device. -/
def IsInt (n : ℤ) : Prop := -2 ^ 31 ≤ n ∧ n < 2 ^ 31

instance (n : ℤ) : Decidable (IsInt n) := inferInstanceAs (Decidable (_ ∧ _))

namespace Doubles

variable (D : Doubles)

def intOr (n : ℤ) : ℤ := (D.ofNumber n).bmod (2 ^ 32)

lemma isInt_intOr (n : ℤ) : IsInt (D.intOr n) := by
  have hlow := Int.le_bmod (x := D.ofNumber n) (m := 2 ^ 32) (by decide)
  have hhigh := Int.bmod_lt (x := D.ofNumber n) (m := 2 ^ 32) (by decide)
  unfold IsInt intOr
  omega

/-- A number arrives as it is exactly where it is an `int`. -/
lemma intOr_eq_iff {n : ℤ} : D.intOr n = n ↔ IsInt n := by
  constructor
  · intro h
    rw [← h]
    exact D.isInt_intOr n
  · rintro ⟨hlow, hhigh⟩
    have hsmall : n.natAbs ≤ 2 ^ 53 := by omega
    rw [intOr, D.exact n hsmall]
    refine Int.bmod_eq_of_le ?_ ?_
    · omega
    · omega

def decodeContact (c : AylluContact) : AylluContact := { c with order := D.intOr c.order }

def decodeAyllu (a : Ayllu) : Ayllu := { a with contacts := a.contacts.map D.decodeContact }

lemma decodeContact_eq_iff {c : AylluContact} : D.decodeContact c = c ↔ IsInt c.order := by
  rw [← D.intOr_eq_iff]
  constructor
  · exact fun h => congrArg AylluContact.order h
  · intro h
    rw [decodeContact, h]

/-- A device reads a list of contacts as it is exactly where each order is an `int`. -/
lemma map_decodeContact_eq_iff {cs : List AylluContact} :
    cs.map D.decodeContact = cs ↔ ∀ c ∈ cs, IsInt c.order := by
  calc cs.map D.decodeContact = cs
      ↔ cs.map D.decodeContact = cs.map id := by rw [List.map_id]
    _ ↔ ∀ c ∈ cs, D.decodeContact c = c := List.map_inj_left
    _ ↔ ∀ c ∈ cs, IsInt c.order := forall₂_congr fun c _ => D.decodeContact_eq_iff

/-- The contacts of a table, as the device comes to have them. -/
def received (t : Table) : List AylluContact := t.deviceContacts.map D.decodeContact

end Doubles

/-! ## What an application does to the snapshot -/

namespace Device.Engine

/-- Either file and memory are as they were or they are the snapshot of the response. -/
def Mixed (c : FileSnapshot) (a : Option Ayllu) (c' : FileSnapshot) : Prop :=
  (c'.held = c.held ∨ a = some c'.held) ∧ (c'.file = c.file ∨ a = some c'.file)

/-- Both are, where the response has one. -/
def Replaced (c : FileSnapshot) (a : Option Ayllu) (c' : FileSnapshot) : Prop :=
  match a with
  | none => c' = c
  | some a => c' = ⟨a, a⟩

lemma mixed_of_eq {c c' : FileSnapshot} {a : Option Ayllu} (h : c' = c) : Mixed c a c' := by
  rw [h]
  exact ⟨Or.inl rfl, Or.inl rfl⟩

lemma Replaced.mixed {c c' : FileSnapshot} {a : Option Ayllu} (h : Replaced c a c') :
    Mixed c a c' := by
  cases a with
  | none =>
      exact mixed_of_eq h
  | some a =>
      obtain rfl : c' = ⟨a, a⟩ := h
      exact ⟨Or.inr rfl, Or.inr rfl⟩

lemma mixed_commit (c : FileSnapshot) (a : Ayllu) (o : WriteOutcome) :
    Mixed c (some a) (c.commit a o).1 := by
  unfold Mixed Mirrored.commit
  constructor
  · cases o.ok
    · exact Or.inl rfl
    · exact Or.inr rfl
  · cases o.written
    · exact Or.inl rfl
    · exact Or.inr rfl

lemma replaced_commit {c : FileSnapshot} {a : Ayllu} {o : WriteOutcome}
    (h : (c.commit a o).2 = true) : (c.commit a o).1 = ⟨a, a⟩ := by
  cases o with
  | done => rfl
  | unchanged => cases h
  | replaced => cases h

/-- The outline of an application, for the snapshot. -/
def snapshotOutline (keep : ℕ) (c : FileSnapshot) (r : SyncResponse) : Outline keep r where
  acking _ _ e := e.contacts = c
  snapped _ e := Replaced c r.ayllu e.contacts
  reading _ _ _ e := Replaced c r.ayllu e.contacts
  writing _ _ _ _ e := Replaced c r.ayllu e.contacts
  evicting _ _ e := Replaced c r.ayllu e.contacts
  configuring _ e := Replaced c r.ayllu e.contacts
  ending _ e := Replaced c r.ayllu e.contacts
  final _ e := Replaced c r.ayllu e.contacts
  failed _ e := Mixed c r.ayllu e.contacts
  cut _ e := Mixed c r.ayllu e.contacts
  clock := fun _ _ _ h => h
  resolve := fun _ _ => Triple.attempt_answers (fun _ _ h => mixed_of_eq h)
    (fun _ _ _ h _ => h) fun _ _ _ h _ => mixed_of_eq h
  without := fun hnone _ _ h => by
    rw [hnone]
    exact h
  snapshot := fun a ha => Triple.attempt_answers (fun _ _ h => mixed_of_eq h)
    (fun _ _ o h hok => by
      rw [ha]
      exact replaced_commit hok)
    fun _ _ o h _ => by
      rw [ha, ← h]
      exact mixed_commit _ a o
  version := fun _ _ => Triple.attempt_answers (fun _ _ h => h.mixed) (fun _ _ _ h _ => h)
    fun _ _ _ h _ => Replaced.mixed h
  seen := fun _ _ _ _ _ h _ => h
  put := fun _ _ _ => Triple.attempt_answers (fun _ _ h => h.1.mixed) (fun _ _ _ h _ => h.1)
    fun _ _ _ h _ => Replaced.mixed h.1
  add := fun _ _ _ => Triple.attempt_answers (fun _ _ h => h.mixed) (fun _ _ _ h _ => h)
    fun _ _ _ h _ => Replaced.mixed h
  read := fun _ _ h => h
  evict := fun _ _ _ h => h
  remove := fun _ _ => Triple.attempt_answers (fun _ _ h => h.mixed) (fun _ _ _ h _ => h)
    fun _ _ _ h _ => h
  evicted := fun _ _ h => h
  unchanged := fun _ _ _ h => h
  config := fun _ _ => Triple.attempt_answers (fun _ _ h => h.mixed) (fun _ _ _ h _ => h)
    fun _ _ _ h _ => h
  cursor := Triple.attempt_answers (fun _ _ h => h.mixed) (fun _ _ _ h _ => h)
    fun _ _ _ h _ => Replaced.mixed h

/-- Whether a response was applied to its end. -/
def succeeded : Crash.Ending WriteOutcome Engine Outcome → Bool
  | .back out _ _ _ => !out.applyIncomplete
  | .cut _ _ => false

/-- An application that is completed replaces the snapshot as the response says, and one that is not
leaves a mixture. -/
theorem snapshot_of_applied (keep : ℕ) (d : Engine) (r : SyncResponse) (os : List WriteOutcome) :
    Mixed d.contacts r.ayllu ((applyResponse keep r).run [] d os).state.contacts ∧
      (succeeded ((applyResponse keep r).run [] d os) = true →
        Replaced d.contacts r.ayllu ((applyResponse keep r).run [] d os).state.contacts) := by
  have hmeets := (snapshotOutline keep d.contacts r).triple [] d os rfl
  cases hrun : (applyResponse keep r).run [] d os with
  | cut past e =>
      rw [hrun] at hmeets
      exact ⟨hmeets, fun h => by cases h⟩
  | back out past e rest =>
      rw [hrun] at hmeets
      change Answers (fun _ e => Mixed d.contacts r.ayllu e.contacts)
        (fun _ e => Replaced d.contacts r.ayllu e.contacts) out.applyIncomplete past e at hmeets
      cases hout : out.applyIncomplete with
      | true =>
          rw [hout] at hmeets
          refine ⟨hmeets, fun h => ?_⟩
          rw [succeeded, hout] at h
          cases h
      | false =>
          rw [hout] at hmeets
          exact ⟨Replaced.mixed hmeets, fun _ => hmeets⟩

end Device.Engine

/-! ## A server and a device -/

/-- The table a snapshot was made of, and how many restores came before it. -/
structure Given where
  table : Table
  restores : ℕ

structure Sides where
  /-- In the memory of the server. -/
  table : Table
  /-- In the file. -/
  file : Table
  backups : List Table
  device : Engine
  /-- How often the data directory was restored.  Nothing reads this, nor the next two. -/
  restores : ℕ := 0
  /-- What the snapshot in the memory of the device was made of; `none` where it never had one. -/
  held : Option Given := none
  /-- The same for the file. -/
  stored : Option Given := none

namespace Sides

/-- What a change writes; `none` where it is refused. -/
def written [Runes] (maxContacts : ℕ) (ch : Change) (t : Table) : Option Table :=
  if ch.mutation.aimsAtSystem then none
  else (applyMutation maxContacts ch.io.drawn t ch.mutation).toOption.map t.commit

inductive Event
  /-- A change of the contact list, and how the write of the file ends. -/
  | change (ch : Change) (o : WriteOutcome)
  /-- The server starts again. -/
  | restart
  | backup
  /-- The data directory is again that of the `n`-th backup, and the server starts. -/
  | restore (n : ℕ)
  /-- One round: what else is in the response, and how the writes of the device end, as far as it
  has power; where it has none, it boots. -/
  | sync (others : SyncResponse) (os : List WriteOutcome) (o : WriteOutcome)
  /-- The device boots. -/
  | reboot (o : WriteOutcome)

structure Setup where
  maxContacts : ℕ
  lettersKeep : ℕ
  doubles : Doubles

section Steps

variable (S : Setup) (s : Sides)

/-- The response to the device, whatever else is in it. -/
def respond (others : SyncResponse) : SyncResponse :=
  { others with
    ayllu := (s.table.deviceView s.device.contacts.version).map S.doubles.decodeAyllu }

/-- How the device applies it. -/
def applied (others : SyncResponse) (os : List WriteOutcome) :
    Crash.Ending WriteOutcome Engine Outcome :=
  (Engine.applyResponse S.lettersKeep (s.respond S others)).run [] s.device os

def rebooted (o : WriteOutcome) : Sides :=
  { s with device := s.device.opened o, held := s.stored }

/-- The device with what an application made of it. -/
def took (e : Engine) : Sides :=
  let now : Given := ⟨s.table, s.restores⟩
  { s with
    device := e
    held := if e.contacts.held = s.device.contacts.held then s.held else some now
    stored := if e.contacts.file = s.device.contacts.file then s.stored else some now }

def sync (others : SyncResponse) (os : List WriteOutcome) (o : WriteOutcome) : Sides :=
  match s.applied S others os with
  | .back _ _ e _ => s.took e
  | .cut _ e => (s.took e).rebooted o

def step [Runes] : Event → Option Sides
  | .change ch o =>
      let io := { ch.io with persisted := o.ok }
      some { s with
        table := (mutate S.maxContacts io ch.actor ch.mutation s.table).2
        file := if o.written then (written S.maxContacts ch s.table).getD s.file else s.file }
  | .restart => some { s with table := s.file }
  | .backup => some { s with backups := s.file :: s.backups }
  | .restore n =>
      s.backups[n]?.map fun t => { s with table := t, file := t, restores := s.restores + 1 }
  | .sync others os o => some (s.sync S others os o)
  | .reboot o => some (s.rebooted o)

end Steps

/-! ### What a snapshot was made of -/

section Invariant

variable {S : Setup} {s s' : Sides} {t t' : Table} {restores : ℕ} {g : Option Given} {a : Ayllu}

/-- What a snapshot was made of.  Without a restore since, the server's version is not below the one
it was made at, and where it is that one the table is that one too. -/
def Made (S : Setup) (restores : ℕ) (t : Table) (g : Option Given) (a : Ayllu) : Prop :=
  match g with
  | none => a = ⟨0, []⟩
  | some g => a = ⟨g.table.version, S.doubles.received g.table⟩ ∧ g.restores ≤ restores ∧
      (g.restores = restores →
        g.table.version ≤ t.version ∧ (g.table.version = t.version → g.table = t))

lemma Made.later (h : Made S restores t g a) (ht : t' = t ∨ t.version < t'.version) :
    Made S restores t' g a := by
  rcases ht with rfl | hlt
  · exact h
  cases g with
  | none => exact h
  | some g =>
      obtain ⟨ha, hle, hline⟩ := h
      refine ⟨ha, hle, fun hsame => ?_⟩
      have hversion := (hline hsame).1
      exact ⟨by omega, fun heq => by omega⟩

lemma Made.restored (h : Made S restores t g a) (t' : Table) : Made S (restores + 1) t' g a := by
  cases g with
  | none => exact h
  | some g =>
      obtain ⟨ha, hle, -⟩ := h
      exact ⟨ha, by omega, fun hsame => by omega⟩

lemma made_now : Made S restores t (some ⟨t, restores⟩) ⟨t.version, S.doubles.received t⟩ :=
  ⟨rfl, le_refl _, fun _ => ⟨le_refl _, fun _ => rfl⟩⟩

/-- The file of the server is at its table, or one change ahead that was reported as failed; and
what the device has was made of a table of the server. -/
structure Kept (S : Setup) (s : Sides) : Prop where
  file : s.file = s.table ∨ s.table.version < s.file.version
  held : Made S s.restores s.table s.held s.device.contacts.held
  stored : Made S s.restores s.table s.stored s.device.contacts.file

lemma Kept.rebooted (h : Kept S s) (o : WriteOutcome) : Kept S (s.rebooted o) :=
  ⟨h.file, h.stored, h.stored⟩

/-- What the device was not given before is of the table of the server. -/
lemma made_of_mixed {others : SyncResponse} {now before : Ayllu}
    (h : Made S s.restores s.table g before)
    (hmixed : now = before ∨ (s.respond S others).ayllu = some now) :
    Made S s.restores s.table (if now = before then g else some ⟨s.table, s.restores⟩) now := by
  by_cases hsame : now = before
  · rw [if_pos hsame, hsame]
    exact h
  · rw [if_neg hsame]
    obtain ⟨a, ha, rfl⟩ := Option.map_eq_some_iff.1 (hmixed.resolve_left hsame)
    rw [Table.deviceView] at ha
    split_ifs at ha
    obtain rfl := Option.some.inj ha
    exact made_now

lemma Kept.sync (h : Kept S s) (others : SyncResponse) (os : List WriteOutcome)
    (o : WriteOutcome) : Kept S (s.sync S others os o) := by
  have hmixed := (Engine.snapshot_of_applied S.lettersKeep s.device (s.respond S others) os).1
  have hheld := made_of_mixed (s := s) h.held hmixed.1
  have hstored := made_of_mixed (s := s) h.stored hmixed.2
  have htook : Kept S (s.took (s.applied S others os).state) := ⟨h.file, hheld, hstored⟩
  unfold Sides.sync
  cases hrun : s.applied S others os with
  | back out past e rest =>
      rw [hrun] at htook
      exact htook
  | cut past e =>
      rw [hrun] at htook
      exact htook.rebooted o

variable [Runes]

/-- What is written is of the next version, and what a change leaves in memory is what was written
or what was there. -/
lemma mutate_eq_written (maxContacts : ℕ) (ch : Change) (b : Bool) (t : Table) :
    (mutate maxContacts { ch.io with persisted := b } ch.actor ch.mutation t).2 =
      if b then (written maxContacts ch t).getD t else t := by
  unfold mutate written
  by_cases hsys : ch.mutation.aimsAtSystem = true
  · rw [if_pos hsys, if_pos hsys, Option.getD_none, ite_self]
  · rw [if_neg hsys, if_neg hsys]
    cases applyMutation maxContacts ch.io.drawn t ch.mutation with
    | error e => rw [Except.toOption, Option.map_none, Option.getD_none, ite_self]
    | ok r =>
        cases b with
        | false => rfl
        | true =>
            simp only [if_true]
            split
            · rfl
            · rfl

lemma version_of_written {maxContacts : ℕ} {ch : Change} (h : written maxContacts ch t = some t') :
    t'.version = t.version + 1 := by
  unfold written at h
  split_ifs at h
  obtain ⟨r, -, rfl⟩ := Option.map_eq_some_iff.1 h
  rfl

lemma Kept.change (h : Kept S s) (ch : Change) (o : WriteOutcome)
    (hstep : s.step S (.change ch o) = some s') : Kept S s' := by
  obtain rfl := Option.some.inj hstep
  rw [mutate_eq_written]
  cases hwritten : written S.maxContacts ch s.table with
  | none =>
      simp only [Option.getD_none, ite_self]
      exact h
  | some t =>
      have hversion := version_of_written hwritten
      have hlater : t = s.table ∨ s.table.version < t.version := Or.inr (by omega)
      cases o with
      | done => exact ⟨Or.inl rfl, h.held.later hlater, h.stored.later hlater⟩
      | unchanged => exact h
      | replaced => exact ⟨hlater, h.held, h.stored⟩

lemma Kept.step {e : Event} (h : Kept S s) (hstep : s.step S e = some s') : Kept S s' := by
  cases e with
  | change ch o => exact h.change ch o hstep
  | restart =>
      obtain rfl := Option.some.inj hstep
      exact ⟨Or.inl rfl, h.held.later h.file, h.stored.later h.file⟩
  | backup =>
      obtain rfl := Option.some.inj hstep
      exact ⟨h.file, h.held, h.stored⟩
  | restore n =>
      obtain ⟨t, -, rfl⟩ := Option.map_eq_some_iff.1 hstep
      exact ⟨Or.inl rfl, h.held.restored t, h.stored.restored t⟩
  | sync others os o =>
      obtain rfl := Option.some.inj hstep
      exact h.sync others os o
  | reboot o =>
      obtain rfl := Option.some.inj hstep
      exact h.rebooted o

end Invariant

/-! ### Agreement -/

section Agreement

variable (S : Setup) (s : Sides)

/-- A sync that is applied to its end. -/
def Completes : Event → Bool
  | .sync others os _ => Engine.succeeded (s.applied S others os)
  | _ => false

/-- After a sync that is applied to its end the device has the contacts of the server. -/
def Agrees [Runes] (e : Event) : Prop :=
  s.Completes S e = true → ∀ s' ∈ s.step S e,
    s'.device.contacts.held.contacts = s.table.deviceContacts

instance [Runes] (e : Event) : Decidable (s.Agrees S e) := inferInstanceAs (Decidable (_ → _))

/-- Every order is an `int` of the device; and where the versions are the same, the device has a
snapshot, and either the server was not restored since it was made or the table it was made of
shows the device what the table of the server does. -/
def Current : Prop :=
  (∀ c ∈ s.table.contacts, IsInt c.order) ∧
    (s.device.contacts.version = s.table.version → ∃ g ∈ s.held, g.restores = s.restores ∨
      S.doubles.received g.table = S.doubles.received s.table)

instance : Decidable (s.Current S) := inferInstanceAs (Decidable (_ ∧ _))

/-- A server without contacts, and a device that was never synced. -/
structure Fresh : Prop where
  version : s.table.version = 0
  contacts : s.table.contacts = []
  file : s.file = s.table
  backups : s.backups = []
  device : s.device.contacts = ⟨⟨0, []⟩, ⟨0, []⟩⟩
  held : s.held = none
  stored : s.stored = none

variable {S s} {s₀ : Sides} {es : List Event}

lemma Fresh.kept (h : Fresh s) : Kept S s := by
  refine ⟨Or.inl h.file, ?_, ?_⟩
  · rw [h.held, h.device]
    rfl
  · rw [h.stored, h.device]
    rfl

lemma received_eq_iff (D : Doubles) (t : Table) :
    D.received t = t.deviceContacts ↔ ∀ c ∈ t.contacts, IsInt c.order := by
  rw [Doubles.received, D.map_decodeContact_eq_iff, Table.deviceContacts, List.forall_mem_cons,
    List.forall_mem_map]
  exact and_iff_right (by decide)

/-- What a device has received is made of `int`s. -/
lemma decode_received (D : Doubles) (t : Table) :
    (D.received t).map D.decodeContact = D.received t := by
  rw [D.map_decodeContact_eq_iff, Doubles.received, List.forall_mem_map]
  exact fun c _ => D.isInt_intOr c.order

/-- What a sync leaves is the server's exactly where the condition holds. -/
lemma Kept.agrees_iff (h : Kept S s) {others : SyncResponse} {os : List WriteOutcome}
    (hdone : Engine.succeeded (s.applied S others os) = true) (o : WriteOutcome) :
    (s.sync S others os o).device.contacts.held.contacts = s.table.deviceContacts ↔
      s.Current S := by
  have hreplaced := (Engine.snapshot_of_applied S.lettersKeep s.device (s.respond S others) os).2
    hdone
  have hdevice : (s.sync S others os o).device.contacts =
      (s.applied S others os).state.contacts := by
    unfold Sides.sync
    cases hrun : s.applied S others os with
    | back out past e rest => rfl
    | cut past e =>
        rw [hrun] at hdone
        cases hdone
  rw [hdevice]
  by_cases hversion : s.device.contacts.version = s.table.version
  · -- Nothing is shipped.
    have hnone : (s.respond S others).ayllu = none := by
      rw [respond, Table.deviceView, if_pos hversion, Option.map_none]
    rw [hnone] at hreplaced
    have hsame : (s.applied S others os).state.contacts = s.device.contacts := hreplaced
    have hmade := h.held
    rw [hsame, Current]
    cases hheld : s.held with
    | none =>
        rw [hheld] at hmade
        have hempty : s.device.contacts.held = ⟨0, []⟩ := hmade
        rw [hempty]
        constructor
        · intro hnil
          cases hnil
        · rintro ⟨-, hgiven⟩
          obtain ⟨g, hg, -⟩ := hgiven hversion
          cases hg
    | some g =>
        rw [hheld] at hmade
        obtain ⟨hcontacts, -, hline⟩ := hmade
        have hsame' : g.table.version = s.table.version := by
          rw [FileSnapshot.version, hcontacts] at hversion
          exact hversion
        rw [hcontacts]
        constructor
        · intro hagree
          have hfits : S.doubles.received s.table = s.table.deviceContacts := by
            rw [Doubles.received, ← hagree]
            exact decode_received S.doubles g.table
          exact ⟨(received_eq_iff S.doubles s.table).1 hfits,
            fun _ => ⟨g, rfl, Or.inr (hagree.trans hfits.symm)⟩⟩
        · rintro ⟨hfits, hgiven⟩
          obtain ⟨g', hg', hline'⟩ := hgiven hversion
          obtain rfl := Option.some.inj hg'
          rw [← received_eq_iff S.doubles] at hfits
          rcases hline' with hunrestored | hshown
          · rw [(hline hunrestored).2 hsame']
            exact hfits
          · exact hshown.trans hfits
  · -- The snapshot is shipped.
    have hsome : (s.respond S others).ayllu =
        some ⟨s.table.version, S.doubles.received s.table⟩ := by
      rw [respond, Table.deviceView, if_neg hversion]
      rfl
    rw [hsome] at hreplaced
    have hnew : (s.applied S others os).state.contacts =
        ⟨⟨s.table.version, S.doubles.received s.table⟩,
          ⟨s.table.version, S.doubles.received s.table⟩⟩ := hreplaced
    rw [hnew, Current, ← received_eq_iff S.doubles]
    exact (and_iff_left fun hsame => absurd hsame hversion).symm

variable [Runes]

end Agreement
end Sides

/-! ### Samples -/

namespace Sample

/-- A device that loses nothing of a number. -/
def exactDoubles : Doubles := ⟨id, fun _ _ => rfl⟩

def sides : Sides.Setup where
  maxContacts := 24
  lettersKeep := 200
  doubles := exactDoubles

def freshSides : Sides where
  table := noContacts
  file := noContacts
  backups := []
  device := { seen := .empty 1000, contacts := ⟨⟨0, []⟩, ⟨0, []⟩⟩ }

/-- A sync that brings no letters. -/
def emptySync : Sides.Event := .sync ⟨0, "c", [], [], false, none, none⟩ [.done, .done, .done] .done

/-- Tomas is added, and the device syncs; then the data directory is that of before, and somebody
else is added. -/
def otherHistory : List Sides.Event :=
  [.change (adds "c_a" "Rosa" "rosa@x") .done, .backup,
    .change (adds "c_b" "Tomas" "tomas@x") .done, emptySync, .restore 0,
    .change (adds "c_c" "Pia" "pia@x") .done, emptySync]

/-- The same, but the device syncs before somebody else is added, too. -/
def seenHistory : List Sides.Event :=
  [.change (adds "c_a" "Rosa" "rosa@x") .done, .backup,
    .change (adds "c_b" "Tomas" "tomas@x") .done, emptySync, .restore 0, emptySync,
    .change (adds "c_c" "Pia" "pia@x") .done, emptySync]

lemma fresh_freshSides : freshSides.Fresh := ⟨rfl, rfl, rfl, rfl, rfl, rfl, rfl⟩

/-- The first sync of a device with a server without contacts brings it nothing. -/
example : ¬ @Sides.Agrees sides freshSides runes emptySync := by decide +kernel

end Sample

namespace Sides

end Sides
end Chaskiwasi
