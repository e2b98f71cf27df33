import Chaskiwasi.Ayllu.Mutate
import Chaskiwasi.Guardians.Store
import Chaskiwasi.Lib.Atomic
import Chaskiwasi.Lib.Run
import Chaskiwasi.Notice.Service

/-!
# What the server serves and what its files hold

`state.json`, `ayllu.toml` and `guardians.toml` are each replaced as a whole on every change, and
the object in memory follows where the write returned nil.  On an error it stays as it was, or is
rolled back.

A write that fails before the rename left the file alone, and so memory and file agree.  A write can
also fail after it, when the directory cannot be opened or synced; then the new file is in place and
memory is the old one.  The guardians' store finds its file changed at the next call, if the file's
time or size tell; the two others do not look.  `agrees_iff_safe` says that this is all that can go
wrong, over every run of calls.
-/

namespace Chaskiwasi.Durable

open Atomic

/-! ## The files -/

/-- `atomicfile.WriteFile`: the disk, and whether nil is returned. -/
def writeFile {α : Type} (a : α) (fault : Option Step) (d : Disk α) : Disk α × Bool :=
  replace a fault [.close, .chmod] [.openDir, .syncDir] d

/-- The disks that the process may die with while `writeFile` runs. -/
def writeStates {α : Type} (a : α) (fault : Option Step) (d : Disk α) : List (Disk α) :=
  states a fault (early [.close, .chmod] ++ [.openDir, .syncDir]) d

/-- A step after the rename fails. -/
def Late (fault : Option Step) : Prop := fault = some .openDir ∨ fault = some .syncDir

instance (fault : Option Step) : Decidable (Late fault) := inferInstanceAs (Decidable (_ ∨ _))

/-- All of `state.json`. -/
structure StateData extends State where
  pendingNotices : List Notice.PendingNotice := []
  deriving DecidableEq, Repr

/-- The on-disk shape of `ayllu.toml`. -/
structure AylluFile where
  version : ℕ
  contacts : List Contact
  deriving DecidableEq, Repr

/-- A row that was read, under its id.  One that claims the id of the system is dropped. -/
def enter (t : Table) (c : Contact) : Table :=
  if h : c.id = sysContactID then t
  else
    { version := t.version
      contacts := Keyed.put Contact.id c t.contacts
      sorted := t.sorted.put c
      no_sys := by
        intro d hd
        rcases Keyed.mem_of_mem_put hd with rfl | hd
        · exact h
        · exact t.no_sys d hd }

namespace AylluFile

/-- The table that `Open` makes of the file. -/
def table (f : AylluFile) : Table :=
  f.contacts.foldl enter (.empty f.version)

/-- The file that `persistLocked` writes, with the rows in the order of their ids. -/
def ofTable (t : Table) : AylluFile := ⟨t.version, t.contacts⟩

end AylluFile

/-! ## The objects -/

structure World where
  state : StateData
  stateFile : Disk StateData
  table : Table
  tableFile : Disk AylluFile
  guardians : Guardians.FileStore
  guardiansFile : Disk Guardians.File

inductive Call
  /-- `none` is an error. -/
  | update (f : StateData → Option StateData)
  | mutate (maxContacts : ℕ) (io : MutateIO) (actor : String) (m : Mutation)
  | add (name password hash : String)
  | setPassword (name password hash : String)

/-- A call, the step of its write that fails, and what `os.Stat` tells of the file it writes. -/
structure Act where
  call : Call
  fault : Option Step := none
  info : Guardians.Info := {}

section Calls

variable [Runes]

namespace World

variable (w : World)

/-- `state.FileStore.Update`. -/
def update (f : StateData → Option StateData) (fault : Option Step) : World :=
  match f w.state with
  | none => w
  | some working =>
      let (disk, ok) := writeFile working fault w.stateFile
      { w with stateFile := disk, state := if ok then working else w.state }

/-- The table that a mutation hands to `persistLocked`. -/
def committed (maxContacts : ℕ) (io : MutateIO) (m : Mutation) : Option Table :=
  if m.aimsAtSystem then none
  else (applyMutation maxContacts io.drawn w.table m).toOption.map w.table.commit

/-- `ayllu.FileStore.Mutate`. -/
def mutate (maxContacts : ℕ) (io : MutateIO) (actor : String) (m : Mutation)
    (fault : Option Step) : World :=
  match w.committed maxContacts io m with
  | none => w
  | some t =>
      let (disk, ok) := writeFile (AylluFile.ofTable t) fault w.tableFile
      { w with
        tableFile := disk
        table := (Chaskiwasi.mutate maxContacts { io with persisted := ok } actor m w.table).2 }

/-- The guardians' file as it is read; `none` where it is missing. -/
def guardiansRead : Option Guardians.File := (content? w.guardiansFile).join

/-- The guardians' store after `refreshLocked`, which every call begins with. -/
def refreshed : Guardians.FileStore :=
  w.guardians.refresh (w.guardiansRead.map Guardians.File.info)
    (w.guardiansRead.map Guardians.File.guardians)

/-- `Add` and `SetPassword` of `guardians.FileStore`, from where the name and the password were
checked. -/
def commitRow (row : Guardians.Table → Except Guardians.Err Guardians.Guardian)
    (fault : Option Step) (info : Guardians.Info) : World :=
  match row w.refreshed.byName with
  | .error _ => { w with guardians := w.refreshed }
  | .ok g =>
      let file := ⟨Keyed.put Guardians.Guardian.name g w.refreshed.byName, info⟩
      let (disk, ok) := writeFile file fault w.guardiansFile
      { w with
        guardiansFile := disk
        guardians := w.refreshed.commit g (if ok then .done else .unchanged) (some info) }

end World

/-- What a guardians' call does once the refreshed table is there, if it gets there. -/
def guardiansRow :
    Call → Option (Guardians.Table → Except Guardians.Err Guardians.Guardian)
  | .add name password hash =>
      (Guardians.checked .invalidName name password).toOption.map (Guardians.addedRow · hash)
  | .setPassword name password hash =>
      (Guardians.checked .noSuchGuardian name password).toOption.map (Guardians.changedRow · hash)
  | _ => none

def step (w : World) (act : Act) : Option World :=
  match act.call with
  | .update f => some (w.update f act.fault)
  | .mutate maxContacts io actor m => some (w.mutate maxContacts io actor m act.fault)
  | call => some ((guardiansRow call).elim w fun row => w.commitRow row act.fault act.info)

end Calls

/-! ## What a new process opens -/

/-- `state.Open`; a missing file is the empty state. -/
def openState (d : Disk StateData) : Option StateData :=
  (content? d).map fun file => file.getD {}

/-- `ayllu.Open`; a missing file is the empty table. -/
def openTable (d : Disk AylluFile) : Option Table :=
  (content? d).map fun file => (file.getD ⟨0, []⟩).table

/-- `guardians.Open`. -/
def openGuardians [Runes] (d : Disk Guardians.File) : Option Guardians.Table :=
  (content? d).bind fun file =>
    (Guardians.opened (file.map Guardians.File.guardians) (file.map Guardians.File.info)).map
      Guardians.FileStore.byName

/-- What is served is what a new process would load. -/
structure Agrees [Runes] (w : World) : Prop where
  state : openState w.stateFile = some w.state
  table : openTable w.tableFile = some w.table
  guardians : openGuardians w.guardiansFile = some w.refreshed.byName

/-- The write of the call does not fail after the rename; or nothing is written; or what is written
is the same; or the guardians' store will see that its file has changed. -/
def Safe [Runes] (w : World) (act : Act) : Prop :=
  Late act.fault →
    match act.call with
    | .update f => ∀ working, f w.state = some working → working = w.state
    | .mutate maxContacts io _ m => w.committed maxContacts io m = none
    | call => ∀ row g, guardiansRow call = some row → row w.refreshed.byName = .ok g →
        act.info ≠ w.refreshed.loaded

/-! ## Where the process may stop -/

section Stops

variable [Runes]

namespace World

variable (w : World)

/-- What a call writes to `state.json`. -/
def newState : Call → Option StateData
  | .update f => f w.state
  | _ => none

/-- What a call writes to `ayllu.toml`. -/
def newTable : Call → Option AylluFile
  | .mutate maxContacts io _ m => (w.committed maxContacts io m).map AylluFile.ofTable
  | _ => none

/-- What a call writes to `guardians.toml`. -/
def newGuardians (call : Call) (info : Guardians.Info) : Option Guardians.File :=
  (guardiansRow call).bind fun row =>
    (row w.refreshed.byName).toOption.map fun g =>
      ⟨Keyed.put Guardians.Guardian.name g w.refreshed.byName, info⟩

end World

/-- The disks that the process may die with. -/
def diskStates {α : Type} (new : Option α) (fault : Option Step) (d : Disk α) : List (Disk α) :=
  new.elim [d] fun a => writeStates a fault d

/-- The files at a moment at which the process, or the power, may go while a call runs. -/
structure Stopped (w : World) (act : Act) (x : World) : Prop where
  stateFile : x.stateFile ∈ diskStates (w.newState act.call) act.fault w.stateFile
  tableFile : x.tableFile ∈ diskStates (w.newTable act.call) act.fault w.tableFile
  guardiansFile :
    x.guardiansFile ∈ diskStates (w.newGuardians act.call act.info) act.fault w.guardiansFile

/-- Whatever stands under the name, now or after power was lost, is all of a version that could
have stood there before, or all of the new one. -/
structure OneVersion {α : Type} (new : Option α) (d x : Disk α) : Prop where
  complete : Complete x
  entry : x.entry = d.entry ∨ ∃ a, new = some a ∧ x.entry = some (whole a)
  durable : ∀ y ∈ x.durable, y ∈ d.durable ∨ ∃ a, new = some a ∧ y = some (whole a)

end Stops

/-! ## One write -/

section Write

variable {α : Type} {a : α} {fault : Option Step} {d : Disk α}

lemma writeFile_cases (a : α) (fault : Option Step) (d : Disk α) :
    (fault = none ∧ (writeFile a fault d).2 = true ∧
        (writeFile a fault d).1.entry = some (whole a)) ∨
      (¬ Late fault ∧ (writeFile a fault d).2 = false ∧ (writeFile a fault d).1.entry = d.entry) ∨
        Late fault ∧ (writeFile a fault d).2 = false ∧
          (writeFile a fault d).1.entry = some (whole a) := by
  have hentry : (replace a fault [.close, .chmod] [.openDir, .syncDir] d).1.entry = _ :=
    entry_replace (by decide) (by decide)
  have hok : (writeFile a fault d).2 =
      decide (∀ s ∈ early [.close, .chmod] ++ [.openDir, .syncDir], fault ≠ some s) := rfl
  rw [writeFile, hentry, ← writeFile, hok]
  cases fault with
  | none => exact Or.inl ⟨rfl, by decide, if_pos (by decide)⟩
  | some s =>
      cases s with
      | create | write | sync | close | chmod | rename =>
          exact Or.inr (Or.inl ⟨by decide, by decide, if_neg (by decide)⟩)
      | openDir | syncDir => exact Or.inr (Or.inr ⟨by decide, by decide, if_pos (by decide)⟩)

lemma complete_writeFile (h : Complete d) : Complete (writeFile a fault d).1 :=
  h.of_between (between_replace (by decide) (by decide))

lemma content?_of_entry {x y : Disk α} (h : x.entry = y.entry) : content? x = content? y := by
  rw [content?, content?, h]

lemma content?_of_whole (h : d.entry = some (whole a)) : content? d = some (some a) := by
  rw [content?, h]
  rfl

lemma oneVersion_of_mem {new : Option α} {x : Disk α} (h : Complete d)
    (hx : x ∈ diskStates new fault d) : OneVersion new d x := by
  cases new with
  | none =>
      obtain rfl : x = d := List.mem_singleton.1 hx
      exact ⟨h, Or.inl rfl, fun y hy => Or.inl hy⟩
  | some a =>
      have hbetween : Between a d x := between_of_mem_states (by decide) (by decide) hx
      exact ⟨h.of_between hbetween, hbetween.entry.imp_right fun hnew => ⟨a, rfl, hnew⟩,
        fun y hy => (hbetween.durable y hy).imp_right fun hnew => ⟨a, rfl, hnew⟩⟩

end Write

/-! ## The contact table -/

section Ayllu

lemma enter_version (t : Table) (c : Contact) : (enter t c).version = t.version := by
  unfold enter
  split_ifs <;> rfl

lemma enter_of_above {t : Table} {c : Contact} (hc : c.id ≠ sysContactID)
    (habove : ∀ d ∈ t.contacts, d.id < c.id) : (enter t c).contacts = t.contacts ++ [c] := by
  unfold enter
  rw [dif_neg hc]
  exact Keyed.put_of_above habove

/-- What is written is read. -/
lemma table_ofTable (t : Table) : (AylluFile.ofTable t).table = t := by
  have hrows : ∀ (rest : List Contact) (s : Table), s.version = t.version →
      Keyed.Ascending Contact.id (s.contacts ++ rest) → (∀ c ∈ rest, c.id ≠ sysContactID) →
      (rest.foldl enter s).version = t.version ∧
        (rest.foldl enter s).contacts = s.contacts ++ rest := by
    intro rest
    induction rest with
    | nil =>
        intro s hversion _ _
        exact ⟨hversion, (List.append_nil _).symm⟩
    | cons c rest ih =>
        intro s hversion hsorted hsys
        rw [List.forall_mem_cons] at hsys
        have habove : ∀ d ∈ s.contacts, d.id < c.id := fun d hd =>
          (List.pairwise_append.1 hsorted).2.2 d hd c List.mem_cons_self
        have hcontacts := enter_of_above hsys.1 habove
        rw [List.foldl_cons]
        obtain ⟨hv, hc⟩ := ih (enter s c) ((enter_version s c).trans hversion)
          (by rwa [hcontacts, List.append_assoc]) hsys.2
        exact ⟨hv, by rw [hc, hcontacts, List.append_assoc]; rfl⟩
  obtain ⟨hversion, hcontacts⟩ := hrows t.contacts (.empty t.version) rfl
    t.sorted t.no_sys
  rw [AylluFile.table]
  cases hread : (AylluFile.ofTable t).contacts.foldl enter
      (.empty (AylluFile.ofTable t).version) with
  | mk version contacts sorted no_sys =>
      have hv : version = t.version := by
        rw [← hversion]
        exact (congrArg Table.version hread).symm
      have hc : contacts = t.contacts := by
        have hall := hcontacts.trans (List.nil_append t.contacts)
        exact (congrArg Table.contacts hread).symm.trans hall
      subst hv hc
      rfl

variable [Runes] {w : World} {maxContacts : ℕ} {io : MutateIO} {m : Mutation} {actor : String}
  {t : Table}

/-- A mutation leaves the table that it persisted. -/
lemma mutate_snd (h : w.committed maxContacts io m = some t) (ok : Bool) :
    (mutate maxContacts { io with persisted := ok } actor m w.table).2 =
      if ok then t else w.table := by
  unfold World.committed at h
  unfold mutate
  by_cases hsys : m.aimsAtSystem = true
  · rw [if_pos hsys] at h
    cases h
  · rw [if_neg hsys] at h ⊢
    dsimp only
    cases hrow : applyMutation maxContacts io.drawn w.table m with
    | error e =>
        rw [hrow] at h
        cases h
    | ok r =>
        rw [hrow] at h
        obtain rfl := Option.some.inj h
        cases ok with
        | true =>
            simp only [if_true]
            split_ifs <;> rfl
        | false => rfl

/-- Every change counts. -/
lemma version_of_committed (h : w.committed maxContacts io m = some t) :
    t.version = w.table.version + 1 := by
  unfold World.committed at h
  split_ifs at h
  cases hrow : applyMutation maxContacts io.drawn w.table m with
  | error e =>
      rw [hrow] at h
      cases h
  | ok r =>
      rw [hrow] at h
      obtain rfl := Option.some.inj h
      rfl

end Ayllu

/-! ## The guardians' table -/

section Guardians

open Guardians

variable [Runes]

section Parse

variable [NameRunes] {data : List Guardian} {t t' : Guardians.Table} {g : Guardian}

lemma sound_of_parseRow (ht : Sound t) (h : parseRow t g = some t') : Sound t' := by
  unfold parseRow at h
  cases hname : normalizeName g.name with
  | none =>
      rw [hname] at h
      cases h
  | some name =>
      rw [hname] at h
      dsimp only at h
      split_ifs at h with hepoch
      obtain rfl := Option.some.inj h
      exact ht.put (normalizeName_self hname) (not_lt.1 hepoch)

/-- What is read is in order, even where the file was not. -/
lemma sound_of_parse (h : parse data = some t) : Sound t := by
  have hfold : ∀ (rest : List Guardian) (s : Guardians.Table), Sound s →
      rest.foldlM parseRow s = some t → Sound t := by
    intro rest
    induction rest with
    | nil =>
        intro s hs h
        obtain rfl := Option.some.inj h
        exact hs
    | cons g rest ih =>
        intro s hs h
        rw [List.foldlM_cons, Option.bind_eq_bind, Option.bind_eq_some_iff] at h
        obtain ⟨s', hrow, hrest⟩ := h
        exact ih s' (sound_of_parseRow hs hrow) hrest
  exact hfold data [] sound_nil h

end Parse

/-- A call that gets to the table enters a new account, or changes one. -/
lemma guardiansRow_cases {call : Call} {row : Guardians.Table → Except Err Guardian}
    (hcall : guardiansRow call = some row) :
    ∃ name norm hash, normalizeName name = some norm ∧
      (row = addedRow norm hash ∨ row = changedRow norm hash) := by
  cases call with
  | update f => cases hcall
  | mutate maxContacts io actor m => cases hcall
  | add name password hash =>
      cases hchecked : checked .invalidName name password with
      | error e => simp [guardiansRow, hchecked, Except.toOption] at hcall
      | ok norm =>
          simp only [guardiansRow, hchecked, Except.toOption, Option.map_some,
            Option.some.injEq] at hcall
          exact ⟨name, norm, hash, checked_eq_ok hchecked, Or.inl hcall.symm⟩
  | setPassword name password hash =>
      cases hchecked : checked .noSuchGuardian name password with
      | error e => simp [guardiansRow, hchecked, Except.toOption] at hcall
      | ok norm =>
          simp only [guardiansRow, hchecked, Except.toOption, Option.map_some,
            Option.some.injEq] at hcall
          exact ⟨name, norm, hash, checked_eq_ok hchecked, Or.inr hcall.symm⟩

/-- What a call writes is in order, and is not what was there. -/
lemma sound_of_guardiansRow [NameRunes] {call : Call} {row : Guardians.Table → Except Err Guardian}
    {t : Guardians.Table} {g : Guardian} (hcall : guardiansRow call = some row) (ht : Sound t)
    (hg : row t = .ok g) :
    Sound (Keyed.put Guardian.name g t) ∧ Keyed.put Guardian.name g t ≠ t := by
  obtain ⟨name, norm, hash, hnorm, rfl | rfl⟩ := guardiansRow_cases hcall
  · have hproper := proper_addedRow ht (normalizeName_self hnorm) hg
    have hself := ht.get?_put_self hproper.named hproper.counted
    refine ⟨ht.put hproper.named hproper.counted, fun hsame => ?_⟩
    obtain ⟨rfl, hnone⟩ := addedRow_eq_ok hg
    rw [hsame] at hself
    cases hnone.symm.trans hself
  · obtain ⟨hproper, old, hold, hless⟩ := proper_changedRow ht hg
    have hself := ht.get?_put_self hproper.named hproper.counted
    refine ⟨ht.put hproper.named hproper.counted, fun hsame => ?_⟩
    rw [hsame, hold] at hself
    exact absurd (congrArg Guardian.sessionEpoch (Option.some.inj hself)) (ne_of_lt hless)

variable {w v : World}

omit [Runes] in
/-- The file that was read. -/
lemma guardiansRead_of_whole (file : File) (h : w.guardiansFile.entry = some (whole file)) :
    w.guardiansRead = some file := by
  rw [World.guardiansRead, content?_of_whole h]
  rfl

lemma openGuardians_of_whole {d : Disk File} {file : File} (h : d.entry = some (whole file)) :
    openGuardians d = parse file.guardians := by
  rw [openGuardians, content?_of_whole h, Option.bind_some]
  show (opened (some file.guardians) _).map FileStore.byName = _
  rw [opened, Option.map_map]
  cases parse file.guardians <;> rfl

/-- A file that was just read is not read again. -/
lemma refreshed_again (hfile : v.guardiansFile.entry = w.guardiansFile.entry)
    (hstore : v.guardians = w.refreshed) : v.refreshed = w.refreshed := by
  have hread : v.guardiansRead = w.guardiansRead := by
    rw [World.guardiansRead, World.guardiansRead, content?_of_entry hfile]
  rw [World.refreshed, hread, hstore, World.refreshed]
  cases hfile' : w.guardiansRead with
  | none => rfl
  | some file =>
      show (w.guardians.refresh (some file.info) (some file.guardians)).refresh (some file.info)
        (some file.guardians) = w.guardians.refresh (some file.info) (some file.guardians)
      by_cases hinfo : file.info = w.guardians.loaded
      · have hsame : w.guardians.refresh (some file.info) (some file.guardians) = w.guardians := by
          rw [FileStore.refresh]
          exact if_pos hinfo
        rw [hsame, hsame]
      · cases hparse : parse file.guardians with
        | none =>
            have hsame : w.guardians.refresh (some file.info) (some file.guardians) =
                w.guardians := by
              simp [FileStore.refresh, hinfo, hparse]
            rw [hsame, hsame]
        | some t => simp [FileStore.refresh, hinfo, hparse]

lemma Agrees.sound [NameRunes] (h : Agrees w) : Sound w.refreshed.byName := by
  have hopen := h.guardians
  rw [openGuardians, Option.bind_eq_some_iff] at hopen
  obtain ⟨file, -, hopened⟩ := hopen
  cases file with
  | none =>
      have hnil : [] = w.refreshed.byName := Option.some.inj hopened
      exact hnil ▸ sound_nil
  | some file =>
      obtain ⟨store, hstore, hname⟩ := Option.map_eq_some_iff.1 hopened
      obtain ⟨t, ht, rfl⟩ := Option.map_eq_some_iff.1 hstore
      exact hname ▸ sound_of_parse ht

end Guardians

/-! ## One call -/

section Step

variable [Runes] {w w' : World} {fault : Option Step} {info : Guardians.Info}

omit [Runes] in
lemma update_eq {f : StateData → Option StateData} {working : StateData}
    (hf : f w.state = some working) :
    w.update f fault =
      { w with
        stateFile := (writeFile working fault w.stateFile).1
        state := if (writeFile working fault w.stateFile).2 then working else w.state } := by
  rw [World.update, hf]

omit [Runes] in
lemma openState_of_whole {d : Disk StateData} {st : StateData} (h : d.entry = some (whole st)) :
    openState d = some st := by
  rw [openState, content?_of_whole h]
  rfl

omit [Runes] in
lemma openTable_of_whole {d : Disk AylluFile} {t : Table}
    (h : d.entry = some (whole (AylluFile.ofTable t))) : openTable d = some t := by
  rw [openTable, content?_of_whole h]
  exact congrArg some (table_ofTable t)

/-- After an update, memory and file agree, unless the write failed late and would have changed
something. -/
lemma agrees_update (hw : Agrees w) (f : StateData → Option StateData) :
    Agrees (w.update f fault) ↔
      (Late fault → ∀ working, f w.state = some working → working = w.state) := by
  cases hf : f w.state with
  | none =>
      have hsame : w.update f fault = w := by rw [World.update, hf]
      rw [hsame]
      refine ⟨fun _ _ working hworking => ?_, fun _ => hw⟩
      cases hworking
  | some working =>
      rw [update_eq hf]
      rcases writeFile_cases working fault w.stateFile with ⟨hfault, hok, hentry⟩ |
        ⟨hearly, hok, hentry⟩ | ⟨hlate, hok, hentry⟩
      · rw [hok]
        refine ⟨fun _ hlate => ?_, fun _ => ⟨openState_of_whole hentry, hw.table, hw.guardians⟩⟩
        rw [hfault] at hlate
        exact absurd hlate (by decide)
      · rw [hok]
        have hopen := hw.state
        rw [openState, ← content?_of_entry hentry] at hopen
        exact ⟨fun _ hlate => absurd hlate hearly, fun _ => ⟨hopen, hw.table, hw.guardians⟩⟩
      · rw [hok]
        constructor
        · intro h _ working' hworking'
          obtain rfl := Option.some.inj hworking'
          exact Option.some.inj ((openState_of_whole hentry).symm.trans h.state)
        · intro h
          have hsame := h hlate working rfl
          refine ⟨(openState_of_whole hentry).trans ?_, hw.table, hw.guardians⟩
          exact congrArg some hsame

/-- After a mutation, memory and file agree, unless the write failed late. -/
lemma agrees_mutate (hw : Agrees w) (maxContacts : ℕ) (io : MutateIO) (actor : String)
    (m : Mutation) :
    Agrees (w.mutate maxContacts io actor m fault) ↔
      (Late fault → w.committed maxContacts io m = none) := by
  cases hcommitted : w.committed maxContacts io m with
  | none =>
      have hsame : w.mutate maxContacts io actor m fault = w := by rw [World.mutate, hcommitted]
      rw [hsame]
      exact ⟨fun _ _ => rfl, fun _ => hw⟩
  | some t =>
      have hmutate : w.mutate maxContacts io actor m fault =
          { w with
            tableFile := (writeFile (AylluFile.ofTable t) fault w.tableFile).1
            table := if (writeFile (AylluFile.ofTable t) fault w.tableFile).2 then t
              else w.table } := by
        rw [World.mutate, hcommitted]
        simp only [mutate_snd hcommitted]
      rw [hmutate]
      rcases writeFile_cases (AylluFile.ofTable t) fault w.tableFile with ⟨hfault, hok, hentry⟩ |
        ⟨hearly, hok, hentry⟩ | ⟨hlate, hok, hentry⟩
      · rw [hok]
        refine ⟨fun _ hlate => ?_, fun _ => ⟨hw.state, openTable_of_whole hentry, hw.guardians⟩⟩
        rw [hfault] at hlate
        exact absurd hlate (by decide)
      · rw [hok]
        have hopen := hw.table
        rw [openTable, ← content?_of_entry hentry] at hopen
        exact ⟨fun _ hlate => absurd hlate hearly, fun _ => ⟨hw.state, hopen, hw.guardians⟩⟩
      · rw [hok]
        refine ⟨fun h => ?_, fun h => by cases h hlate⟩
        -- The version in the file is one ahead.
        have hsame : t = w.table :=
          Option.some.inj ((openTable_of_whole hentry).symm.trans h.table)
        have hversion := version_of_committed hcommitted
        rw [hsame] at hversion
        omega

open Guardians in
/-- After a guardians' call, memory and file agree, unless the write failed late and the new file
looks like the one that was read. -/
lemma agrees_commitRow [NameRunes] (hw : Agrees w) {call : Call}
    {row : Guardians.Table → Except Err Guardian} (hcall : guardiansRow call = some row) :
    Agrees (w.commitRow row fault info) ↔
      (Late fault → ∀ g, row w.refreshed.byName = .ok g → info ≠ w.refreshed.loaded) := by
  cases hrow : row w.refreshed.byName with
  | error e =>
      have hsame : w.commitRow row fault info = { w with guardians := w.refreshed } := by
        rw [World.commitRow, hrow]
      rw [hsame]
      refine ⟨fun _ _ g hg => ?_, fun _ => ⟨hw.state, hw.table, ?_⟩⟩
      · cases hg
      · have hagain : ({ w with guardians := w.refreshed } : World).refreshed = w.refreshed :=
          refreshed_again rfl rfl
        rw [hagain]
        exact hw.guardians
  | ok g =>
      obtain ⟨hsound, hne⟩ := sound_of_guardiansRow hcall hw.sound hrow
      set t := Keyed.put Guardian.name g w.refreshed.byName with ht
      set file : File := ⟨t, info⟩ with hfile
      set v : World :=
        { w with
          guardiansFile := (writeFile file fault w.guardiansFile).1
          guardians := w.refreshed.commit g
            (if (writeFile file fault w.guardiansFile).2 then .done else .unchanged) (some info) }
        with hv
      have hcommit : w.commitRow row fault info = v := by rw [World.commitRow, hrow]
      rw [hcommit]
      rcases writeFile_cases file fault w.guardiansFile with ⟨hfault, hok, hentry⟩ |
        ⟨hearly, hok, hentry⟩ | ⟨hlate, hok, hentry⟩
      · have hstore : v.guardians = { byName := t, loaded := info } := by
          rw [hv, hok]
          rfl
        have hrefreshed : v.refreshed = { byName := t, loaded := info } := by
          rw [World.refreshed, guardiansRead_of_whole file hentry, hstore]
          exact if_pos rfl
        refine ⟨fun _ hlate => ?_, fun _ => ⟨hw.state, hw.table, ?_⟩⟩
        · rw [hfault] at hlate
          exact absurd hlate (by decide)
        · rw [hrefreshed]
          exact (openGuardians_of_whole hentry).trans hsound.parse
      · have hstore : v.guardians = w.refreshed := by
          rw [hv, hok]
          rfl
        refine ⟨fun _ hlate => absurd hlate hearly, fun _ => ⟨hw.state, hw.table, ?_⟩⟩
        have hopen := hw.guardians
        rw [refreshed_again hentry hstore]
        rw [openGuardians, ← content?_of_entry hentry] at hopen
        exact hopen
      · have hstore : v.guardians = w.refreshed := by
          rw [hv, hok]
          rfl
        have hopen : openGuardians v.guardiansFile = some t :=
          (openGuardians_of_whole hentry).trans hsound.parse
        have hrefreshed : v.refreshed =
            w.refreshed.refresh (some info) (some t) := by
          rw [World.refreshed, guardiansRead_of_whole file hentry, hstore]
          rfl
        constructor
        · intro h _ g' hg' hinfo
          have hsame := h.guardians
          rw [hopen, hrefreshed, FileStore.refresh, hinfo] at hsame
          exact hne (by simpa using hsame)
        · intro h
          have hinfo := h hlate g rfl
          refine ⟨hw.state, hw.table, ?_⟩
          rw [hopen, hrefreshed]
          simp [FileStore.refresh, hinfo, hsound.parse]

/-- The same, where the name and the password have yet to be checked. -/
lemma agrees_guardians [Guardians.NameRunes] (hw : Agrees w) (call : Call) :
    Agrees ((guardiansRow call).elim w fun row => w.commitRow row fault info) ↔
      (Late fault → ∀ row g, guardiansRow call = some row → row w.refreshed.byName = .ok g →
        info ≠ w.refreshed.loaded) := by
  cases hcall : guardiansRow call with
  | none =>
      refine ⟨fun _ _ row g hrow => ?_, fun _ => hw⟩
      cases hrow
  | some row =>
      rw [Option.elim_some, agrees_commitRow hw hcall]
      constructor
      · intro h hlate row' g hrow' hg
        obtain rfl := Option.some.inj hrow'
        exact h hlate g hg
      · intro h hlate g hg
        exact h hlate row g rfl hg

/-- A call leaves memory and file in agreement exactly where it is safe. -/
lemma agrees_step [Guardians.NameRunes] (hw : Agrees w) {act : Act}
    (hstep : step w act = some w') : Agrees w' ↔ Safe w act := by
  obtain ⟨call, fault, info⟩ := act
  cases call with
  | update f =>
      obtain rfl := Option.some.inj hstep
      exact agrees_update hw f
  | mutate maxContacts io actor m =>
      obtain rfl := Option.some.inj hstep
      exact agrees_mutate hw maxContacts io actor m
  | add name password hash =>
      obtain rfl := Option.some.inj hstep
      exact agrees_guardians hw _
  | setPassword name password hash =>
      obtain rfl := Option.some.inj hstep
      exact agrees_guardians hw _

/-- No file is there in part. -/
structure Intact (w : World) : Prop where
  stateFile : Complete w.stateFile
  tableFile : Complete w.tableFile
  guardiansFile : Complete w.guardiansFile

lemma intact_step (hw : Intact w) {act : Act} (hstep : step w act = some w') : Intact w' := by
  obtain ⟨call, fault, info⟩ := act
  have hrow : ∀ row, Intact (w.commitRow row fault info) := by
    intro row
    unfold World.commitRow
    split
    · exact ⟨hw.stateFile, hw.tableFile, hw.guardiansFile⟩
    · exact ⟨hw.stateFile, hw.tableFile, complete_writeFile hw.guardiansFile⟩
  cases call with
  | update f =>
      obtain rfl := Option.some.inj hstep
      unfold World.update
      split
      · exact hw
      · exact ⟨complete_writeFile hw.stateFile, hw.tableFile, hw.guardiansFile⟩
  | mutate maxContacts io actor m =>
      obtain rfl := Option.some.inj hstep
      unfold World.mutate
      split
      · exact hw
      · exact ⟨hw.stateFile, complete_writeFile hw.tableFile, hw.guardiansFile⟩
  | add name password hash =>
      obtain rfl := Option.some.inj hstep
      cases guardiansRow (.add name password hash) with
      | none => exact hw
      | some row => exact hrow row
  | setPassword name password hash =>
      obtain rfl := Option.some.inj hstep
      cases guardiansRow (.setPassword name password hash) with
      | none => exact hw
      | some row => exact hrow row

end Step

/-! ## Runs of calls -/

section Runs

variable [Runes] [Guardians.NameRunes] {w : World}

/-- In every state of a run, what is served is what the files hold, exactly where every call of the
run is safe.  And wherever the process stops, each file is all of one version. -/
theorem agrees_iff_safe (hagrees : Agrees w) (hintact : Intact w) (acts : List Act) :
    ((∀ v ∈ Run.visits step w acts, Agrees v) ↔ Run.Meets step Safe w acts) ∧
      ∀ v ∈ Run.visits step w acts, ∀ act x, Stopped v act x →
        OneVersion (v.newState act.call) v.stateFile x.stateFile ∧
        OneVersion (v.newTable act.call) v.tableFile x.tableFile ∧
        OneVersion (v.newGuardians act.call act.info) v.guardiansFile x.guardiansFile := by
  have htotal : ∀ (v : World) (act : Act), ∃ v', step v act = some v' := by
    intro v act
    unfold step
    split <;> exact ⟨_, rfl⟩
  constructor
  · refine Run.forall_visits_iff_meets (I := Agrees) (D := fun _ _ => True) htotal ?_
      (fun v hv => hv) hagrees (Run.meets_of_mem fun _ _ => trivial)
    intro v act v' hv _ hstep
    exact ⟨(agrees_step hv hstep).2, (agrees_step hv hstep).1⟩
  · intro v hv act x hx
    have hv := Run.visits_invariant_of_meets (C := fun _ _ => True) (I := Intact)
      (fun s a s' hs _ hstep => intact_step hs hstep) hintact
      (Run.meets_of_mem fun _ _ => trivial) v hv
    exact ⟨oneVersion_of_mem hv.stateFile hx.stateFile, oneVersion_of_mem hv.tableFile hx.tableFile,
      oneVersion_of_mem hv.guardiansFile hx.guardiansFile⟩

end Runs

/-! ## A new server -/

namespace Sample

/-- There is no file, and nothing is known. -/
def newServer : World where
  state := {}
  stateFile := { entry := none, durable := [none] }
  table := Chaskiwasi.Sample.noContacts
  tableFile := { entry := none, durable := [none] }
  guardians := {}
  guardiansFile := { entry := none, durable := [none] }

lemma agrees_newServer : @Agrees Chaskiwasi.Sample.runes newServer :=
  @Agrees.mk Chaskiwasi.Sample.runes newServer rfl rfl rfl

lemma complete_none {α : Type} : Complete ({ entry := none, durable := [none] } : Disk α) := by
  refine ⟨fun f hf => ?_, fun f hf => ?_⟩
  · cases hf
  · cases List.mem_singleton.1 hf

lemma intact_newServer : Intact newServer := ⟨complete_none, complete_none, complete_none⟩

/-- A sync is noted. -/
def synced (fault : Option Step) : Act where
  call := .update fun st => some { st with lastSyncAt := 7 }
  fault := fault

end Sample

/-- A sync is noted, after one whose note could not be synced. -/
theorem agrees_synced :
    Run.Meets (@step Chaskiwasi.Sample.runes) (@Safe Chaskiwasi.Sample.runes) Sample.newServer
        [Sample.synced (some .sync), Sample.synced none] ∧
      ∀ v ∈ Run.visits (@step Chaskiwasi.Sample.runes) Sample.newServer
        [Sample.synced (some .sync), Sample.synced none], @Agrees Chaskiwasi.Sample.runes v := by
  have hsafe : Run.Meets (@step Chaskiwasi.Sample.runes) (@Safe Chaskiwasi.Sample.runes)
      Sample.newServer [Sample.synced (some .sync), Sample.synced none] := by
    refine Run.meets_of_mem (C := fun act => ∀ w, @Safe Chaskiwasi.Sample.runes w act) ?_ |>.imp
      fun w act h => h w
    intro act hact w hlate
    simp only [List.mem_cons, List.not_mem_nil, or_false] at hact
    rcases hact with rfl | rfl
    · exact absurd hlate (by decide)
    · exact absurd hlate (by decide)
  exact ⟨hsafe, (@agrees_iff_safe Chaskiwasi.Sample.runes Guardians.Sample.nameRunes
    Sample.newServer Sample.agrees_newServer Sample.intact_newServer _).1.2 hsafe⟩

/-- A sync is noted in the file alone, where the directory cannot be synced. -/
theorem agrees_not_of_syncDir :
    ¬ ∀ (acts : List Act), ∀ v ∈ Run.visits (@step Chaskiwasi.Sample.runes) Sample.newServer acts,
      @Agrees Chaskiwasi.Sample.runes v := by
  intro h
  let w := Sample.newServer.update (fun st => some { st with lastSyncAt := 7 }) (some .syncDir)
  have hrun : Run.run (@step Chaskiwasi.Sample.runes) Sample.newServer
      [Sample.synced (some .syncDir)] = some w := rfl
  have hstate := @Agrees.state Chaskiwasi.Sample.runes w
    (h [Sample.synced (some .syncDir)] w (Run.mem_visits_of_run hrun))
  exact absurd hstate (by decide)

end Chaskiwasi.Durable
