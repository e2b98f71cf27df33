import Chaskiwasi.Notice.Recovery
import Mathlib.Logic.Function.Basic

/-!
# Processes that take turns

The server and the command line tool for contacts read the files of the data directory into memory
once and write them from there, so two of them at work on one directory would undo each other's
changes.  Before it reads anything, each takes a lock on a file of the directory; the server keeps
it while it runs, the tool for its one change, and the kernel lets go of it when the process ends,
however it ends.

Here any number of processes are started and ended in any order, and their steps are interleaved.
The one that has the lock is the process of `Notice.World`, and the others do nothing to the files
(`takes_turns`); what a process has changed stays changed, whoever comes next
(`no_change_is_lost`).
-/

namespace Chaskiwasi.DataLock

open Notice (Config Contacts Process PendingNotice)

/-- What a process was started for, or what is left of it. -/
inductive Command
  | serve
  | contactsList
  | contacts (actor : String) (m : Mutation)
  deriving DecidableEq

def Command.server : Command → Bool
  | .serve => true
  | .contactsList | .contacts .. => false

/-- The steps that a command takes in an open directory, and what is left of it after one. -/
def Command.next : Command → Notice.Act → Option Command
  | .serve, .commit .. | .serve, .record _ | .serve, .announce .. | .serve, .abandon _
  | .serve, .recover _ | .serve, .rewrite _ => some .serve
  | .contacts actor m, .commit _ _ _ actor' m' _ =>
      if actor' = actor ∧ m' = m then some .contactsList else none
  | .contactsList, .record _ => some .contactsList
  | _, _ => none

/-- Where a process stands. -/
inductive Proc
  | started (cmd : Command)
  /-- It has the lock and has not read the files. -/
  | locked (cmd : Command)
  | opened (cmd : Command) (p : Process)

/-- What is on disk, and INBOX. -/
structure Files where
  contacts : Contacts
  log : List UInt8
  queue : List PendingNotice
  inbox : List String

def Files.of (w : Notice.World) : Files := ⟨w.contacts, w.log, w.queue, w.inbox⟩

/-- The files with one process, or none. -/
def Files.held (f : Files) (process : Option Process) : Notice.World :=
  ⟨f.contacts, f.log, f.queue, f.inbox, process⟩

/-- `openStore` and the opening of the stores in `runServe`: what a process begins with. -/
def Files.load (f : Files) (cmd : Command) : Process where
  contacts := f.contacts
  queue := f.queue
  stage := if cmd.server then .flush else .cli

structure World where
  files : Files
  /-- Who has the lock. -/
  holder : Option ℕ := none
  procs : ℕ → Option Proc := fun _ => none
  /-- The changes that were written, in their order.  No procedure reads these. -/
  made : List Event := []

inductive Act
  | start (pid : ℕ) (cmd : Command)
  /-- The lock file is opened, and the lock is asked for; or it cannot be opened. -/
  | lock (pid : ℕ) (fails : Bool)
  /-- The configuration and the files are read, or one of them cannot be. -/
  | load (pid : ℕ) (fails : Bool)
  | act (pid : ℕ) (act : Notice.Act)
  /-- The process returns, or is killed, at whatever point. -/
  | exit (pid : ℕ)
  /-- Someone deletes a notice from INBOX. -/
  | delete (messageID : String)

/-- `acquireDataLock`: who has the lock then, unless it is refused. -/
def acquireDataLock (holder : Option ℕ) (pid : ℕ) (fails : Bool) : Option ℕ :=
  if fails then none else if holder.isSome then none else some pid

/-- The process is gone, and with it its hold on the lock. -/
def World.ended (w : World) (pid : ℕ) : World :=
  { w with
    holder := if w.holder = some pid then none else w.holder
    procs := Function.update w.procs pid none }

section Steps

variable [Runes] [EventCodec] (cfg : Config)

/-- What a step writes to the contact file and does not roll back, but for cosmetic changes. -/
def madeBy (p : Process) : Notice.Act → List Event
  | .commit _ now drawn actor m .done =>
      match p.contacts.mutated cfg now drawn actor m with
      | some (ev, _) => if ev.action = .cosmetic then [] else [ev]
      | none => []
  | _ => []

def step (w : World) : Act → Option World
  | .start pid cmd =>
      match w.procs pid with
      | none => some { w with procs := Function.update w.procs pid (some (.started cmd)) }
      | some _ => none
  | .lock pid fails =>
      match w.procs pid with
      | some (.started cmd) =>
          match acquireDataLock w.holder pid fails with
          | none => some (w.ended pid)
          | some pid' =>
              some { w with
                holder := some pid'
                procs := Function.update w.procs pid (some (.locked cmd)) }
      | _ => none
  | .load pid fails =>
      match w.procs pid with
      | some (.locked cmd) =>
          if fails then some (w.ended pid)
          else
            let opened : Proc := .opened cmd (w.files.load cmd)
            some { w with procs := Function.update w.procs pid (some opened) }
      | _ => none
  | .act pid act =>
      match w.procs pid with
      | some (.opened cmd p) =>
          (cmd.next act).bind fun cmd' =>
            (Notice.step cfg (w.files.held (some p)) act).bind fun after =>
              after.process.map fun p' =>
                { w with
                  files := .of after
                  procs := Function.update w.procs pid (some (.opened cmd' p'))
                  made := w.made ++ madeBy cfg p act }
      | _ => none
  | .exit pid =>
      match w.procs pid with
      | some _ => some (w.ended pid)
      | none => none
  | .delete messageID =>
      some { w with
        files := { w.files with inbox := w.files.inbox.filter fun id => id ≠ messageID } }

end Steps

/-! ## One at a time -/

/-- It is past the lock. -/
def Proc.HasLock : Proc → Prop
  | .started _ => False
  | .locked _ | .opened .. => True

def Proc.memory : Proc → Option Process
  | .opened _ p => some p
  | .started _ | .locked _ => none

/-- Only the one that has the lock is past it. -/
def World.Exclusive (w : World) : Prop :=
  ∀ pid, ∀ proc ∈ w.procs pid, proc.HasLock → w.holder = some pid

/-- The process that the one with the lock has become, once it has read the files. -/
def World.open (w : World) : Option Process :=
  w.holder.bind fun pid => (w.procs pid).bind Proc.memory

/-- What the world is to those who know of one process only. -/
def World.alone (w : World) : Notice.World := w.files.held w.open

section Processes

variable {w w' : World} {pid : ℕ} {proc : Proc} {files : Files} {made : List Event}

lemma open_of_holder (h : w.holder = some pid) : w.open = (w.procs pid).bind Proc.memory := by
  unfold World.open
  rw [h, Option.bind_some]

lemma open_of_no_holder (h : w.holder = none) : w.open = none := by
  unfold World.open
  rw [h, Option.bind_none]

lemma open_congr (hholder : w'.holder = w.holder)
    (hprocs : ∀ pid ∈ w.holder, w'.procs pid = w.procs pid) : w'.open = w.open := by
  cases h : w.holder with
  | none => rw [open_of_no_holder h, open_of_no_holder (hholder.trans h)]
  | some pid => rw [open_of_holder h, open_of_holder (hholder.trans h), hprocs pid h]

/-- The world with a process further on. -/
def World.move (w : World) (files : Files) (made : List Event) (pid : ℕ) (proc : Proc) : World :=
  { w with files := files, procs := Function.update w.procs pid (some proc), made := made }

lemma procs_move : (w.move files made pid proc).procs pid = some proc :=
  Function.update_self pid _ _

lemma procs_move_of_ne {other : ℕ} (h : other ≠ pid) :
    (w.move files made pid proc).procs other = w.procs other :=
  Function.update_of_ne h _ _

lemma procs_ended : (w.ended pid).procs pid = none := Function.update_self pid _ _

lemma procs_ended_of_ne {other : ℕ} (h : other ≠ pid) :
    (w.ended pid).procs other = w.procs other :=
  Function.update_of_ne h _ _

lemma World.Exclusive.move (h : w.Exclusive) (hproc : proc.HasLock → w.holder = some pid) :
    (w.move files made pid proc).Exclusive := by
  intro other proc' hproc' hlock
  by_cases hpid : other = pid
  · subst hpid
    rw [procs_move] at hproc'
    obtain rfl := Option.mem_some_iff.1 hproc'
    exact hproc hlock
  · rw [procs_move_of_ne hpid] at hproc'
    exact h other proc' hproc' hlock

/-- A process without a memory of the files changes nothing for those that have one. -/
lemma open_move_of_memory (h : (w.procs pid).bind Proc.memory = none)
    (hproc : proc.memory = none) : (w.move files made pid proc).open = w.open := by
  by_cases hholder : w.holder = some pid
  · rw [open_of_holder (w := w.move files made pid proc) hholder, open_of_holder hholder,
      procs_move, h]
    exact hproc
  · refine open_congr rfl fun other hother => procs_move_of_ne ?_
    rintro rfl
    exact hholder hother

lemma World.Exclusive.ended (h : w.Exclusive) (pid : ℕ) : (w.ended pid).Exclusive := by
  intro other proc hproc hlock
  by_cases hpid : other = pid
  · subst hpid
    rw [procs_ended] at hproc
    exact absurd hproc (Option.not_mem_none proc)
  · rw [procs_ended_of_ne hpid] at hproc
    have hholder := h other proc hproc hlock
    have hne : w.holder ≠ some pid := by
      rw [hholder]
      exact fun heq => hpid (Option.some.inj heq)
    exact (if_neg hne).trans hholder

/-- What is left open when a process ends: nothing, if it had the lock. -/
lemma open_ended (w : World) (pid : ℕ) :
    (w.ended pid).open = if w.holder = some pid then none else w.open := by
  by_cases hholder : w.holder = some pid
  · rw [if_pos hholder]
    exact open_of_no_holder (if_pos hholder)
  · rw [if_neg hholder]
    refine open_congr (if_neg hholder) fun other hother => procs_ended_of_ne ?_
    rintro rfl
    exact hholder hother

end Processes

section Steps

variable [Runes] [EventCodec] {cfg : Config} {w w' : World} {act : Act}

/-- What one step can do. -/
inductive Stepped (cfg : Config) (w : World) : Act → World → Prop
  | started (pid : ℕ) (cmd : Command) (h : w.procs pid = none) :
      Stepped cfg w (.start pid cmd) (w.move w.files w.made pid (.started cmd))
  | locked (pid : ℕ) (cmd : Command) (h : w.procs pid = some (.started cmd))
      (hfree : w.holder = none) :
      Stepped cfg w (.lock pid false)
        { w.move w.files w.made pid (.locked cmd) with holder := some pid }
  | refused (pid : ℕ) (fails : Bool) (cmd : Command) (h : w.procs pid = some (.started cmd)) :
      Stepped cfg w (.lock pid fails) (w.ended pid)
  | loaded (pid : ℕ) (cmd : Command) (h : w.procs pid = some (.locked cmd)) :
      Stepped cfg w (.load pid false) (w.move w.files w.made pid (.opened cmd (w.files.load cmd)))
  | unread (pid : ℕ) (cmd : Command) (h : w.procs pid = some (.locked cmd)) :
      Stepped cfg w (.load pid true) (w.ended pid)
  | acted (pid : ℕ) (a : Notice.Act) (cmd cmd' : Command) (p p' : Process) (after : Notice.World)
      (h : w.procs pid = some (.opened cmd p)) (hcmd : cmd.next a = some cmd')
      (hstep : Notice.step cfg (w.files.held (some p)) a = some after)
      (hafter : after.process = some p') :
      Stepped cfg w (.act pid a)
        (w.move (.of after) (w.made ++ madeBy cfg p a) pid (.opened cmd' p'))
  | exited (pid : ℕ) : Stepped cfg w (.exit pid) (w.ended pid)
  | deleted (messageID : String) :
      Stepped cfg w (.delete messageID) { w with
        files := { w.files with inbox := w.files.inbox.filter fun id => id ≠ messageID } }

theorem step_cases (h : step cfg w act = some w') : Stepped cfg w act w' := by
  unfold step at h
  cases act with
  | start pid cmd =>
      cases hproc : w.procs pid with
      | none =>
          simp only [hproc] at h
          obtain rfl := Option.some.inj h
          exact .started pid cmd hproc
      | some proc => simp only [hproc, reduceCtorEq] at h
  | lock pid fails =>
      dsimp only at h
      split at h
      next cmd hproc =>
        unfold acquireDataLock at h
        split_ifs at h with hfails hheld
        · obtain rfl := Option.some.inj h
          exact .refused pid fails cmd hproc
        · obtain rfl := Option.some.inj h
          exact .refused pid fails cmd hproc
        · obtain rfl := Option.some.inj h
          rw [Bool.not_eq_true] at hfails
          subst hfails
          exact .locked pid cmd hproc (Option.not_isSome_iff_eq_none.1 hheld)
      · cases h
  | load pid fails =>
      dsimp only at h
      split at h
      next cmd hproc =>
        split_ifs at h with hfails
        · obtain rfl := Option.some.inj h
          subst hfails
          exact .unread pid cmd hproc
        · obtain rfl := Option.some.inj h
          rw [Bool.not_eq_true] at hfails
          subst hfails
          exact .loaded pid cmd hproc
      · cases h
  | act pid a =>
      dsimp only at h
      split at h
      next cmd p hproc =>
        obtain ⟨cmd', hcmd, h⟩ := Option.bind_eq_some_iff.1 h
        obtain ⟨after, hstep, h⟩ := Option.bind_eq_some_iff.1 h
        obtain ⟨p', hafter, rfl⟩ := Option.map_eq_some_iff.1 h
        exact .acted pid a cmd cmd' p p' after hproc hcmd hstep hafter
      · cases h
  | exit pid =>
      dsimp only at h
      split at h
      · obtain rfl := Option.some.inj h
        exact .exited pid
      · cases h
  | delete messageID =>
      obtain rfl := Option.some.inj h
      exact .deleted messageID

lemma World.Exclusive.step (h : w.Exclusive) (hstep : step cfg w act = some w') :
    w'.Exclusive := by
  cases step_cases hstep with
  | started pid cmd hproc => exact h.move False.elim
  | locked pid cmd hproc hfree =>
      intro other proc hother hlock
      by_cases hpid : other = pid
      · rw [hpid]
      · have hsame : proc ∈ w.procs other := by
          rw [procs_move_of_ne hpid] at hother
          exact hother
        exact absurd (h other proc hsame hlock) (hfree ▸ Option.some_ne_none other |>.symm)
  | refused pid fails cmd hproc => exact h.ended pid
  | loaded pid cmd hproc => exact h.move fun _ => h pid _ hproc trivial
  | unread pid cmd hproc => exact h.ended pid
  | acted pid a cmd cmd' p p' after hproc hcmd hstep' hafter =>
      exact h.move fun _ => h pid _ hproc trivial
  | exited pid => exact h.ended pid
  | deleted messageID => exact h

omit [Runes] [EventCodec] in
lemma eq_held {after : Notice.World} {process : Option Process} (h : after.process = process) :
    after = (Files.of after).held process := by
  subst h
  rfl

/-- What a step comes to for those who know of one process: one step of it, or none. -/
lemma alone_step (h : w.Exclusive) (hstep : step cfg w act = some w') :
    ∃ acts, Run.run (Notice.step cfg) w.alone acts = some w'.alone := by
  have hended : ∀ pid, ∃ acts, Run.run (Notice.step cfg) w.alone acts =
      some (w.ended pid).alone := by
    intro pid
    unfold World.alone
    rw [open_ended]
    split_ifs with hholder
    · exact ⟨[.stop], rfl⟩
    · exact ⟨[], rfl⟩
  cases step_cases hstep with
  | started pid cmd hproc =>
      refine ⟨[], ?_⟩
      unfold World.alone
      rw [open_move_of_memory (by rw [hproc]; rfl) rfl]
      rfl
  | locked pid cmd hproc hfree =>
      refine ⟨[], ?_⟩
      unfold World.alone
      rw [open_of_no_holder hfree, open_of_holder rfl]
      dsimp only
      rw [procs_move]
      rfl
  | refused pid fails cmd hproc => exact hended pid
  | unread pid cmd hproc => exact hended pid
  | exited pid => exact hended pid
  | loaded pid cmd hproc =>
      have hholder := h pid _ hproc trivial
      refine ⟨[.openData cmd.server], ?_⟩
      unfold World.alone
      rw [open_of_holder hholder, hproc, open_of_holder (w := w.move ..) hholder, procs_move]
      rfl
  | acted pid a cmd cmd' p p' after hproc hcmd hstep' hafter =>
      have hholder := h pid _ hproc trivial
      refine ⟨[a], Run.run_cons_eq_some.2 ⟨after, ?_, ?_⟩⟩
      · unfold World.alone
        rw [open_of_holder hholder, hproc]
        exact hstep'
      · unfold World.alone
        rw [open_of_holder (w := w.move ..) hholder, procs_move]
        exact congrArg some (eq_held hafter)
  | deleted messageID => exact ⟨[.delete messageID], rfl⟩

/-! ## What was changed -/

/-- What was changed is among the changes of the contact file, and of the table that is in memory. -/
structure World.Keeps (w : World) : Prop where
  exclusive : w.Exclusive
  file : w.made.Sublist w.files.contacts.changes
  memory : ∀ p ∈ w.open, w.made.Sublist p.contacts.changes

section Contacts

variable {f : Files} {p p' : Process} {a : Notice.Act} {after : Notice.World} {made : List Event}

omit [EventCodec] in
lemma madeBy_done (k : ℕ) (now : ℤ) (drawn : List (Option String)) (actor : String)
    (m : Mutation) :
    madeBy cfg p (.commit k now drawn actor m .done) =
      match p.contacts.mutated cfg now drawn actor m with
      | some (ev, _) => if ev.action = .cosmetic then [] else [ev]
      | none => [] := rfl

/-- What a mutation makes is what it puts behind the changes that are in memory, and then the file
has it too. -/
lemma made_of_commit {k : ℕ} {now : ℤ} {drawn : List (Option String)} {actor : String}
    {m : Mutation} {o : WriteOutcome}
    (hstep : Notice.step cfg (f.held (some p)) (.commit k now drawn actor m o) = some after)
    (hafter : after.process = some p') :
    p'.contacts.changes = p.contacts.changes ++ madeBy cfg p (.commit k now drawn actor m o) ∧
      (after.contacts = p'.contacts ∨
        madeBy cfg p (.commit k now drawn actor m o) = [] ∧
          (after.contacts = f.contacts ∨ p.contacts.changes <+: after.contacts.changes)) := by
  unfold Notice.step Notice.World.withProcess at hstep
  obtain ⟨p₀, hp₀, hstep⟩ := Option.bind_eq_some_iff.1 hstep
  obtain rfl := Option.some.inj hp₀
  split_ifs at hstep
  have hmade : madeBy cfg p (.commit k now drawn actor m .unchanged) = [] ∧
      madeBy cfg p (.commit k now drawn actor m .replaced) = [] := ⟨rfl, rfl⟩
  cases hm : p.contacts.mutated cfg now drawn actor m with
  | none =>
      rw [hm] at hstep
      obtain rfl := Option.some.inj hstep
      obtain rfl := Option.some.inj hafter
      have hnone : madeBy cfg p (.commit k now drawn actor m o) = [] := by
        cases o with
        | done => rw [madeBy_done, hm]
        | unchanged => exact hmade.1
        | replaced => exact hmade.2
      rw [hnone, List.append_nil]
      exact ⟨rfl, .inr ⟨rfl, .inl rfl⟩⟩
  | some r =>
      obtain ⟨ev, contacts⟩ := r
      rw [hm] at hstep
      have hchanges := Contacts.mutated_changes hm
      cases o with
      | done =>
          obtain rfl := Option.some.inj hstep
          obtain rfl := Option.some.inj hafter
          refine ⟨?_, .inl rfl⟩
          rw [madeBy_done, hm]
          dsimp only
          show contacts.changes = _
          rw [hchanges]
          split_ifs
          · rw [List.append_nil]
          · rfl
      | unchanged =>
          obtain rfl := Option.some.inj hstep
          obtain rfl := Option.some.inj hafter
          rw [hmade.1, List.append_nil]
          exact ⟨rfl, .inr ⟨rfl, .inl rfl⟩⟩
      | replaced =>
          obtain rfl := Option.some.inj hstep
          obtain rfl := Option.some.inj hafter
          rw [hmade.2, List.append_nil]
          refine ⟨rfl, .inr ⟨rfl, .inr ?_⟩⟩
          show p.contacts.changes <+: contacts.changes
          rw [hchanges]
          split_ifs
          · exact List.prefix_rfl
          · exact List.prefix_append _ _

/-- The other steps leave the contacts as they are. -/
lemma contacts_of_step (hstep : Notice.step cfg (f.held (some p)) a = some after)
    (hafter : after.process = some p') (ha : ∀ k now drawn actor m o,
      a ≠ .commit k now drawn actor m o) :
    after.contacts = f.contacts ∧ p'.contacts = p.contacts := by
  cases Notice.step_cases hstep with
  | opened server hp => exact absurd hp (Option.some_ne_none p)
  | stopped => exact absurd hafter.symm (Option.some_ne_none p')
  | refused k now drawn actor m out => exact absurd rfl (ha k now drawn actor m out)
  | committed k now drawn actor m out => exact absurd rfl (ha k now drawn actor m out)
  | recorded out q k ev hp hm =>
      obtain rfl := Option.some.inj hp
      obtain rfl := Option.some.inj hafter
      refine ⟨rfl, ?_⟩
      split_ifs
      · rfl
      · rfl
  | announced k out q pn d hp ha =>
      obtain rfl := Option.some.inj hp
      obtain rfl := Option.some.inj hafter
      have hd := Notice.deliver_delivers cfg (f.held (some p)) p pn out d
      exact ⟨hd.contacts, hd.memory⟩
  | abandoned k q hp =>
      obtain rfl := Option.some.inj hp
      obtain rfl := Option.some.inj hafter
      exact ⟨rfl, rfl⟩
  | recovered out q w' hp hrecover =>
      obtain ⟨hcontacts, -, hprocess⟩ := Notice.recoverStep_same hp hrecover
      rw [hafter] at hprocess
      exact ⟨hcontacts, (Prod.mk.inj (Option.some.inj hprocess)).1⟩
  | rewritten out q hp =>
      obtain rfl := Option.some.inj hp
      obtain rfl := Option.some.inj hafter
      have hd := Notice.update_delivers (f.held (some p)) p id out
      exact ⟨hd.contacts, hd.memory⟩
  | deleted messageID =>
      obtain rfl := Option.some.inj hafter
      exact ⟨rfl, rfl⟩

/-- Whatever a step does, what was made before it and what it makes is in the file and in memory
afterwards. -/
lemma made_step (hfile : made.Sublist f.contacts.changes) (hmemory : made.Sublist p.contacts.changes)
    (hstep : Notice.step cfg (f.held (some p)) a = some after) (hafter : after.process = some p') :
    (made ++ madeBy cfg p a).Sublist after.contacts.changes ∧
      (made ++ madeBy cfg p a).Sublist p'.contacts.changes := by
  by_cases ha : ∃ k now drawn actor m o, a = .commit k now drawn actor m o
  · obtain ⟨k, now, drawn, actor, m, o, rfl⟩ := ha
    obtain ⟨hchanges, hcontacts⟩ := made_of_commit hstep hafter
    have hnew : (made ++ madeBy cfg p (.commit k now drawn actor m o)).Sublist
        p'.contacts.changes := by
      rw [hchanges]
      exact hmemory.append_right _
    refine ⟨?_, hnew⟩
    rcases hcontacts with hcontacts | ⟨hnone, hcontacts | hprefix⟩
    · rw [hcontacts]
      exact hnew
    · rw [hnone, List.append_nil, hcontacts]
      exact hfile
    · rw [hnone, List.append_nil]
      exact hmemory.trans hprefix.sublist
  · obtain ⟨hcontacts, hmem⟩ := contacts_of_step hstep hafter fun k now drawn actor m o heq =>
      ha ⟨k, now, drawn, actor, m, o, heq⟩
    have hnone : madeBy cfg p a = [] := by
      unfold madeBy
      split
      next k now drawn actor m => exact absurd ⟨k, now, drawn, actor, m, .done, rfl⟩ ha
      · rfl
    rw [hnone, List.append_nil, hcontacts, hmem]
    exact ⟨hfile, hmemory⟩

end Contacts

omit [Runes] [EventCodec] in
lemma World.Keeps.ended (h : w.Keeps) (pid : ℕ) : (w.ended pid).Keeps := by
  refine ⟨h.exclusive.ended pid, h.file, fun p hp => ?_⟩
  rw [open_ended] at hp
  split_ifs at hp
  · exact absurd hp (Option.not_mem_none p)
  · exact h.memory p hp

lemma World.Keeps.step (h : w.Keeps) (hstep : step cfg w act = some w') : w'.Keeps := by
  have hexclusive := h.exclusive.step hstep
  cases step_cases hstep with
  | started pid cmd hproc =>
      refine ⟨hexclusive, h.file, fun p hp => h.memory p ?_⟩
      rw [open_move_of_memory (by rw [hproc]; rfl) rfl] at hp
      exact hp
  | locked pid cmd hproc hfree =>
      refine ⟨hexclusive, h.file, fun p hp => ?_⟩
      rw [open_of_holder rfl] at hp
      dsimp only at hp
      rw [procs_move] at hp
      exact absurd hp (Option.not_mem_none p)
  | refused pid fails cmd hproc => exact h.ended pid
  | unread pid cmd hproc => exact h.ended pid
  | exited pid => exact h.ended pid
  | loaded pid cmd hproc =>
      refine ⟨hexclusive, h.file, fun p hp => ?_⟩
      rw [open_of_holder (w := w.move ..) (h.exclusive pid _ hproc trivial), procs_move] at hp
      obtain rfl := Option.some.inj hp
      exact h.file
  | acted pid a cmd cmd' p p' after hproc hcmd hstep' hafter =>
      have hholder := h.exclusive pid _ hproc trivial
      have hopen : p ∈ w.open := by
        rw [open_of_holder hholder, hproc]
        exact Option.mem_some_self p
      obtain ⟨hfile, hmemory⟩ := made_step h.file (h.memory p hopen) hstep' hafter
      refine ⟨hexclusive, hfile, fun q hq => ?_⟩
      rw [open_of_holder (w := w.move ..) hholder, procs_move] at hq
      obtain rfl := Option.some.inj hq
      exact hmemory
  | deleted messageID => exact ⟨hexclusive, h.file, h.memory⟩

/-- A data directory that no process has open. -/
structure World.Idle (w : World) : Prop where
  procs : ∀ pid, w.procs pid = none
  made : w.made = []

omit [Runes] [EventCodec] in
lemma World.Idle.keeps (h : w.Idle) : w.Keeps where
  exclusive := by
    intro pid proc hproc
    rw [h.procs] at hproc
    exact absurd hproc (Option.not_mem_none proc)
  file := by
    rw [h.made]
    exact List.nil_sublist _
  memory := by
    intro p _
    rw [h.made]
    exact List.nil_sublist _

namespace Sample

def fresh : World where
  files := .of Notice.Sample.fresh

/-- The command line tool is refused while the server runs, and adds Rosa once it was killed. -/
def acts : List Act :=
  let add : Mutation := { action := .add, name := "Rosa", address := "rosa@x" }
  [.start 1 .serve, .start 2 (.contacts "ana" add), .lock 1 false, .lock 2 false, .load 1 false,
    .exit 1, .start 3 (.contacts "ana" add), .lock 3 false, .load 3 false,
    .act 3 Notice.Sample.addRosa, .act 3 (.record .done), .exit 3]

end Sample

/-- However processes are started, interleaved, ended and killed, what they do to the files is a run
of one process after the other, each from the files that the one before it left. -/
theorem takes_turns (acts : List Act) (w₀ w : World) (hidle : w₀.Idle)
    (hrun : Run.run (step cfg) w₀ acts = some w) :
    w.Exclusive ∧ ∃ acts', Run.run (Notice.step cfg) (w₀.files.held none) acts' = some w.alone := by
  have hexclusive : w.Exclusive :=
    Run.run_invariant (fun _ _ _ h hstep => h.step hstep) hidle.keeps.exclusive hrun
  have hopen : w₀.open = none := by
    unfold World.open
    cases w₀.holder with
    | none => rfl
    | some pid =>
        rw [Option.bind_some, hidle.procs]
        rfl
  have hstart : w₀.alone = w₀.files.held none := congrArg w₀.files.held hopen
  rw [← hstart]
  exact ⟨hexclusive, Run.run_refines (fun _ _ _ h hstep => h.step hstep)
    (fun _ _ _ h hstep => alone_step h hstep) hidle.keeps.exclusive hrun⟩

omit [Runes] [EventCodec] in
theorem takes_turns_refused : ∃ w,
    Run.run (@step Chaskiwasi.Sample.runes Chaskiwasi.Sample.codec Notice.Sample.config)
        Sample.fresh Sample.acts = some w ∧ w.Exclusive ∧ w.procs 2 = none := by
  have heval : ((Run.run (@step Chaskiwasi.Sample.runes Chaskiwasi.Sample.codec
      Notice.Sample.config) Sample.fresh Sample.acts).any fun w => (w.procs 2).isNone) = true := by
    decide +kernel
  obtain ⟨w, hrun, hgone⟩ := Run.exists_of_any heval
  have hturns := @takes_turns Chaskiwasi.Sample.runes Chaskiwasi.Sample.codec
    Notice.Sample.config Sample.acts Sample.fresh w ⟨fun _ => rfl, rfl⟩ hrun
  exact ⟨w, hrun, hturns.1, Option.isNone_iff_eq_none.1 hgone⟩

/-- Every change that a process made stands in the contact file, in the order in which they were
made and each under a version of its own, whatever other processes were started meanwhile. -/
theorem no_change_is_lost (acts : List Act) (w₀ w : World) (hidle : w₀.Idle)
    (hrun : Run.run (step cfg) w₀ acts = some w) :
    w.made.Sublist w.files.contacts.changes ∧
      w.made.Pairwise fun a b => a.version < b.version := by
  have hkeeps : w.Keeps := Run.run_invariant (fun _ _ _ h hstep => h.step hstep) hidle.keeps hrun
  exact ⟨hkeeps.file, w.files.contacts.versions.sublist hkeeps.file⟩

omit [Runes] [EventCodec] in
theorem no_change_is_lost_rosa : ∃ w,
    Run.run (@step Chaskiwasi.Sample.runes Chaskiwasi.Sample.codec Notice.Sample.config)
        Sample.fresh Sample.acts = some w ∧ w.made.length = 1 ∧
      w.made.Sublist w.files.contacts.changes := by
  have heval : ((Run.run (@step Chaskiwasi.Sample.runes Chaskiwasi.Sample.codec
      Notice.Sample.config) Sample.fresh Sample.acts).any fun w =>
        decide (w.made.length = 1)) = true := by
    decide +kernel
  obtain ⟨w, hrun, hone⟩ := Run.exists_of_any heval
  have hkept := @no_change_is_lost Chaskiwasi.Sample.runes Chaskiwasi.Sample.codec
    Notice.Sample.config Sample.acts Sample.fresh w ⟨fun _ => rfl, rfl⟩ hrun
  exact ⟨w, hrun, of_decide_eq_true hone, hkept.1⟩

end Steps

end Chaskiwasi.DataLock
