import Chaskiwasi.Ayllu.Log
import Chaskiwasi.Lib.Run
import Chaskiwasi.Outbound.State
import Mathlib.Algebra.Group.Int.Defs

/-!
# Announcing a contact change

A change of the contact table is written four times before the family has been told of it: to
`ayllu.toml`, to the change log, to the pending queue in `state.json`, and to INBOX as a letter.
The server may stop between any two of these writes, and each may fail.  At its next start `Flush`
goes through what the queue still holds, and `Reconcile` through the recent changes of the log; both
list INBOX once before they begin, and leave out what the listing shows.

A `World` is the three files, the notices in INBOX, and the process that holds the data directory:
the server, or the command line tool while the server is stopped.  The rest of INBOX carries no
notice's Message-ID and is left out.  The steps are those single writes, so a stop between two of
them is a stop between two actions.
-/

namespace Chaskiwasi

/-- The text of an action, as files have it. -/
def Action.text : Action → String
  | .add => "add"
  | .deactivate => "deactivate"
  | .reactivate => "reactivate"
  | .readdress => "readdress"
  | .cosmetic => "cosmetic"

namespace Notice

/-- What does not change while the server runs.  `digest` is the hexadecimal text of the first 16
bytes of a SHA-256 sum. -/
structure Config where
  mailboxAddress : String
  digest : String → String
  maxContacts : ℕ := 24

/-- `noticeReconcileWindow`, in nanoseconds. -/
def noticeReconcileWindow : ℤ := 90 * 24 * 3600 * 10 ^ 9

/-! ## Notices -/

structure PendingNotice where
  id : String
  time : ℤ
  action : Action
  contactID : String
  name : String
  actor : String
  deriving DecidableEq, Repr

/-- The domain half of an address. -/
def domainOf (addr : String) : String :=
  match splitLast '@' addr.toList with
  | none => "localhost"
  | some (_, domain) => if domain = [] then "localhost" else String.ofList domain

section Ids

variable (cfg : Config)

/-- A notice's id: the same change always has the same one. -/
def noticeIDFor (ev : Event) : String :=
  cfg.digest (toString ev.version ++ "\x00" ++ ev.action.text ++ "\x00" ++ ev.contactID ++ "\x00" ++
    toString ev.time)

/-- The Message-ID of the letter for a notice. -/
def messageIDFor (id : String) : String :=
  "<notice-" ++ id ++ "@" ++ domainOf cfg.mailboxAddress ++ ">"

/-- What the queue holds for a change. -/
def pendingFor (ev : Event) : PendingNotice where
  id := noticeIDFor cfg ev
  time := ev.time
  action := ev.action
  contactID := ev.contactID
  name := ev.name
  actor := ev.actor

/-- The wanted Message-IDs that one listing of INBOX shows. -/
def alreadyAppended (inbox : List String) (pending : List PendingNotice) : List String :=
  inbox.filter fun id => id ∈ pending.map fun pn => messageIDFor cfg pn.id

lemma messageIDFor_injective : Function.Injective (messageIDFor cfg) := by
  intro a b h
  have hlist := congrArg String.toList h
  simp only [messageIDFor, String.toList_append, List.append_cancel_left_eq,
    List.append_cancel_right_eq] at hlist
  exact String.toList_injective hlist

end Ids

/-- `AddPendingNotice`: whether the queue has one of that id already is not asked. -/
def addPendingNotice (pn : PendingNotice) (queue : List PendingNotice) : List PendingNotice :=
  queue ++ [pn]

/-- `RemovePendingNotice`. -/
def removePendingNotice (id : String) (queue : List PendingNotice) : List PendingNotice :=
  queue.filter fun pn => pn.id ≠ id

/-! ## The contact file -/

/-- A contact table, and the changes that made it, in order, but for cosmetic ones.  No procedure
reads the changes; they are kept for statements about what is durable. -/
structure Contacts where
  table : Table
  changes : List Event
  not_cosmetic : ∀ ev ∈ changes, ev.action ≠ .cosmetic
  versions : changes.Pairwise fun a b => a.version < b.version
  le_version : ∀ ev ∈ changes, ev.version ≤ table.version

lemma mutate_ok [Runes] {maxContacts : ℕ} {io : MutateIO} {actor : String} {m : Mutation}
    {t t' : Table} {ev : Event} (h : mutate maxContacts io actor m t = (.ok ev, t')) :
    ev.version = t'.version ∧ t'.version = t.version + 1 := by
  obtain ⟨r, -, rfl, -, -, -, -, -, hversion⟩ := mutate_eq_ok h
  exact ⟨hversion, rfl⟩

namespace Contacts

/-- The contacts with one more change. -/
def extend (c : Contacts) (ev : Event) (table : Table)
    (h : ev.version = table.version ∧ table.version = c.table.version + 1) : Contacts where
  table := table
  changes := if ev.action = .cosmetic then c.changes else c.changes ++ [ev]
  not_cosmetic := by
    intro e he
    split_ifs at he with hcosmetic
    · exact c.not_cosmetic e he
    · rcases List.mem_append.1 he with he | he
      · exact c.not_cosmetic e he
      · rwa [List.mem_singleton.1 he]
  versions := by
    split_ifs
    · exact c.versions
    · rw [List.pairwise_append]
      refine ⟨c.versions, List.pairwise_singleton _ _, fun a ha b hb => ?_⟩
      rw [List.mem_singleton.1 hb]
      have hle := c.le_version a ha
      omega
  le_version := by
    intro e he
    split_ifs at he
    · have hle := c.le_version e he
      omega
    · rcases List.mem_append.1 he with he | he
      · have hle := c.le_version e he
        omega
      · rw [List.mem_singleton.1 he]
        exact le_of_eq h.1

/-- What `Mutate` writes, where it does not refuse: the change, and the contacts with it. -/
def mutated [Runes] (cfg : Config) (now : ℤ) (drawn : List (Option String)) (actor : String)
    (m : Mutation) (c : Contacts) : Option (Event × Contacts) :=
  match h : mutate cfg.maxContacts { now := now, drawn := drawn } actor m c.table with
  | (.error _, _) => none
  | (.ok ev, table) => some (ev, c.extend ev table (mutate_ok h))

end Contacts

/-! ## The processes -/

/-- The two loops of the recovery. -/
inductive Loop
  | flush
  | reconcile
  deriving DecidableEq, Repr

/-- Where the delivery of one notice stands: what it writes next. -/
inductive Delivery
  | adding
  | appending
  | clearing
  deriving DecidableEq, Repr

/-- Where a process stands. -/
inductive Stage
  /-- `Flush`, about to look at the queue. -/
  | flush
  /-- About to read the change log. -/
  | readLog
  /-- `Reconcile`, about to list INBOX. -/
  | reconcile (pending : List PendingNotice)
  /-- A loop of the recovery, about to take the first of the rest.  `sent` is what the listing
  showed. -/
  | entries (loop : Loop) (sent : List String) (rest : List PendingNotice)
  | delivering (loop : Loop) (sent : List String) (rest : List PendingNotice) (pn : PendingNotice)
      (d : Delivery)
  | serving
  /-- The command line tool: it changes contacts and announces nothing. -/
  | cli
  deriving DecidableEq, Repr

structure Process where
  /-- The table in memory. -/
  contacts : Contacts
  /-- The queue in the published state. -/
  queue : List PendingNotice
  stage : Stage
  /-- The change that has been written to `ayllu.toml` and not yet to the log, and who makes it.
  The store's mutex is held meanwhile. -/
  mutating : Option (ℕ × Event) := none
  /-- The calls of `Announce` in progress. -/
  announcing : ℕ → Option (PendingNotice × Delivery) := fun _ => none

structure World where
  /-- `ayllu.toml`. -/
  contacts : Contacts
  /-- `ayllu-log.jsonl`. -/
  log : List UInt8
  /-- The pending queue in `state.json`. -/
  queue : List PendingNotice
  /-- The Message-IDs of the notices in INBOX. -/
  inbox : List String
  process : Option Process := none

/-- How an APPEND ends. -/
inductive AppendOutcome
  | stored
  | failed
  /-- The message was stored, and an error reported. -/
  | lost
  deriving DecidableEq, Repr

/-- How the one round trip or write of a step ends, and the time. -/
structure Outcome where
  list : Bool := true
  read : Bool := true
  write : WriteOutcome := .done
  append : AppendOutcome := .stored
  now : ℤ := 0
  deriving DecidableEq, Repr

inductive Act
  /-- A process starts: the server, or the command line tool. -/
  | openData (server : Bool)
  /-- The process ends, at whatever point. -/
  | stop
  /-- A contact is changed, up to the writing of `ayllu.toml`. -/
  | commit (k : ℕ) (now : ℤ) (drawn : List (Option String)) (actor : String) (m : Mutation)
      (o : WriteOutcome)
  /-- The change in progress is appended to the log. -/
  | record (o : LogOutcome)
  | announce (k : ℕ) (o : Outcome)
  /-- The call of `Announce` is not made, or goes no further. -/
  | abandon (k : ℕ)
  | recover (o : Outcome)
  /-- Something else in `state.json` is updated. -/
  | rewrite (o : WriteOutcome)
  /-- Someone deletes a notice from INBOX. -/
  | delete (messageID : String)

/-! ## The steps -/

section Steps

variable (cfg : Config)

def World.run (w : World) (p : Process) : World := { w with process := some p }

/-- `Update` of the queue: the file and the published state afterwards. -/
def update (w : World) (p : Process) (f : List PendingNotice → List PendingNotice) :
    WriteOutcome → World × Process
  | .done => ({ w with queue := f p.queue }, { p with queue := f p.queue })
  | .unchanged => (w, p)
  | .replaced => ({ w with queue := f p.queue }, p)

/-- One step of the delivery of a notice, and what comes next, if anything. -/
def deliver (w : World) (p : Process) (pn : PendingNotice) (o : Outcome) :
    Delivery → (World × Process) × Option Delivery
  | .adding =>
      (update w p (addPendingNotice pn) o.write, if o.write = .done then some .appending else none)
  | .appending =>
      -- There is no wording for a cosmetic change.
      if pn.action = .cosmetic then ((w, p), none)
      else
        match o.append with
        | .stored => (({ w with inbox := messageIDFor cfg pn.id :: w.inbox }, p), some .clearing)
        | .failed => ((w, p), none)
        | .lost => (({ w with inbox := messageIDFor cfg pn.id :: w.inbox }, p), none)
  | .clearing => (update w p (removePendingNotice pn.id) o.write, none)

/-- One step of the recovery. -/
def recoverStep [EventCodec] (w : World) (p : Process) (o : Outcome) : Option World :=
  let goto (stage : Stage) : Option World := some (w.run { p with stage := stage })
  match p.stage with
  | .flush =>
      if p.queue ≠ [] ∧ o.list then
        goto (.entries .flush (alreadyAppended cfg w.inbox p.queue) p.queue)
      else goto .readLog
  | .readLog =>
      match if o.read then readLog w.log (o.now - noticeReconcileWindow) else none with
      | none => goto .serving
      | some events =>
          goto (.reconcile
            ((events.filter fun ev : Event => ev.action ≠ .cosmetic).map (pendingFor cfg)))
  | .reconcile pending =>
      if pending ≠ [] ∧ o.list then
        goto (.entries .reconcile (alreadyAppended cfg w.inbox pending) pending)
      else goto .serving
  | .entries .flush _ [] => goto .readLog
  | .entries .reconcile _ [] => goto .serving
  | .entries .flush sent (pn :: rest) =>
      goto (.delivering .flush sent rest pn
        (if messageIDFor cfg pn.id ∈ sent then .clearing else .appending))
  | .entries .reconcile sent (pn :: rest) =>
      if messageIDFor cfg pn.id ∈ sent then goto (.entries .reconcile sent rest)
      else goto (.delivering .reconcile sent rest pn .adding)
  | .delivering loop sent rest pn d =>
      let ((w', p'), next) := deliver cfg w p pn o d
      some (w'.run { p' with
        stage := match next with
          | some d' => .delivering loop sent rest pn d'
          | none => .entries loop sent rest })
  | .serving => none
  | .cli => none

/-- The writing of `ayllu.toml`: a change that could not be written is rolled back in memory. -/
def commit (w : World) (p : Process) (k : ℕ) (ev : Event) (contacts : Contacts) :
    WriteOutcome → World
  | .done =>
      { w with contacts := contacts }.run { p with
        contacts := contacts
        mutating := if ev.action = Action.cosmetic then none else some (k, ev) }
  | .unchanged => w
  | .replaced => { w with contacts := contacts }

def Process.setAnnounce (p : Process) (k : ℕ) (a : Option (PendingNotice × Delivery)) : Process :=
  { p with announcing := fun j => if j = k then a else p.announcing j }

/-- What a step does to the running process, where there is one. -/
def World.withProcess (w : World) (f : Process → Option World) : Option World :=
  w.process.bind f

def step [Runes] [EventCodec] (w : World) (act : Act) : Option World :=
  match act with
  | .openData server =>
      match w.process with
      | some _ => none
      | none => some (w.run { contacts := w.contacts, queue := w.queue,
                              stage := if server then .flush else .cli })
  | .stop => some { w with process := none }
  | .commit k now drawn actor m o =>
      w.withProcess fun p =>
        if p.mutating = none ∧ p.announcing k = none ∧ (p.stage = .serving ∨ p.stage = .cli) then
          match p.contacts.mutated cfg now drawn actor m with
          | none => some w
          | some (ev, contacts) => some (commit w p k ev contacts o)
        else none
  | .record o =>
      w.withProcess fun p =>
        p.mutating.map fun (k, ev) =>
          let recorded := { w with log := w.log ++ o.written (logLine ev) }
          let p' := { p with mutating := none }
          -- `Mutate` returns the event, and the caller in the server announces it.
          recorded.run (if o = .done ∧ p.stage = .serving then
            p'.setAnnounce k (some (pendingFor cfg ev, .adding)) else p')
  | .announce k o =>
      w.withProcess fun p =>
        (p.announcing k).map fun (pn, d) =>
          let ((w', p'), next) := deliver cfg w p pn o d
          w'.run (p'.setAnnounce k (next.map fun d' => (pn, d')))
  | .abandon k => w.withProcess fun p => some (w.run (p.setAnnounce k none))
  | .recover o => w.withProcess fun p => recoverStep cfg w p o
  | .rewrite o =>
      w.withProcess fun p =>
        if p.stage = .cli then none
        else
          let (w', p') := update w p id o
          some (w'.run p')
  | .delete messageID => some { w with inbox := w.inbox.filter fun id => id ≠ messageID }

end Steps

/-! ## What a step can do -/

variable {cfg : Config} {w w' : World} {p p' : Process} {pn : PendingNotice} {o : Outcome}
  {d : Delivery}

/-- What a mutation adds to the changes. -/
lemma Contacts.mutated_changes [Runes] {c c' : Contacts} {now : ℤ} {drawn : List (Option String)}
    {actor : String} {m : Mutation} {ev : Event}
    (h : c.mutated cfg now drawn actor m = some (ev, c')) :
    c'.changes = if ev.action = .cosmetic then c.changes else c.changes ++ [ev] := by
  unfold mutated at h
  split at h
  · cases h
  · obtain ⟨rfl, rfl⟩ := Prod.mk.inj (Option.some.inj h)
    rfl

lemma Contacts.mutated_version [Runes] {c c' : Contacts} {now : ℤ} {drawn : List (Option String)}
    {actor : String} {m : Mutation} {ev : Event}
    (h : c.mutated cfg now drawn actor m = some (ev, c')) :
    ev.version = c.table.version + 1 := by
  unfold mutated at h
  split at h
  · cases h
  next heq =>
    obtain ⟨rfl, -⟩ := Prod.mk.inj (Option.some.inj h)
    obtain ⟨hev, ht⟩ := mutate_ok heq
    exact hev.trans ht

/-- A delivery touches the queue and INBOX alone. -/
structure Delivers (w w' : World) (p p' : Process) : Prop where
  contacts : w'.contacts = w.contacts
  log : w'.log = w.log
  memory : p'.contacts = p.contacts
  mutating : p'.mutating = p.mutating
  announcing : p'.announcing = p.announcing
  stage : p'.stage = p.stage

lemma update_delivers (w : World) (p : Process) (f : List PendingNotice → List PendingNotice)
    (o : WriteOutcome) : Delivers w (update w p f o).1 p (update w p f o).2 := by
  cases o <;> exact ⟨rfl, rfl, rfl, rfl, rfl, rfl⟩

lemma update_inbox (w : World) (p : Process) (f : List PendingNotice → List PendingNotice)
    (o : WriteOutcome) : (update w p f o).1.inbox = w.inbox := by
  cases o <;> rfl

/-- A delivery goes on from a notice that the file has to the append, and from an append that was
stored to the clearing. -/
lemma deliver_goes {d d' : Delivery} (h : d' ∈ (deliver cfg w p pn o d).2) :
    d = .adding ∧ o.write = .done ∧ d' = .appending ∨ d = .appending ∧ d' = .clearing := by
  cases d with
  | adding =>
      simp only [deliver] at h
      split_ifs at h with hdone
      · exact Or.inl ⟨rfl, hdone, (Option.some.inj h).symm⟩
      · cases h
  | appending =>
      simp only [deliver] at h
      split_ifs at h
      · cases h
      · cases happend : o.append with
        | stored =>
            simp only [happend] at h
            exact Or.inr ⟨rfl, (Option.some.inj h).symm⟩
        | failed => simp [happend] at h
        | lost => simp [happend] at h
  | clearing => cases h

lemma deliver_delivers (cfg : Config) (w : World) (p : Process) (pn : PendingNotice) (o : Outcome)
    (d : Delivery) :
    Delivers w (deliver cfg w p pn o d).1.1 p (deliver cfg w p pn o d).1.2 := by
  cases d with
  | adding => exact update_delivers w p _ o.write
  | clearing => exact update_delivers w p _ o.write
  | appending =>
      unfold deliver
      by_cases hcosmetic : pn.action = .cosmetic
      · simp only [if_pos hcosmetic]
        exact ⟨rfl, rfl, rfl, rfl, rfl, rfl⟩
      · simp only [if_neg hcosmetic]
        cases o.append <;> exact ⟨rfl, rfl, rfl, rfl, rfl, rfl⟩

/-- Where a loop begins with a notice that the listing did not show. -/
def Loop.first : Loop → Delivery
  | .flush => .appending
  | .reconcile => .adding

/-- What one step of the recovery can do. -/
inductive RecoverStep [EventCodec] (cfg : Config) (w : World) (p : Process) (o : Outcome) :
    Stage → World → Prop
  | flushListed (hqueue : p.queue ≠ []) :
      RecoverStep cfg w p o .flush
        (w.run { p with stage := .entries .flush (alreadyAppended cfg w.inbox p.queue) p.queue })
  | flushSkipped : RecoverStep cfg w p o .flush (w.run { p with stage := .readLog })
  | unread (h : o.read = true → readLog w.log (o.now - noticeReconcileWindow) = none) :
      RecoverStep cfg w p o .readLog (w.run { p with stage := .serving })
  | read (events : List Event)
      (h : readLog w.log (o.now - noticeReconcileWindow) = some events) :
      RecoverStep cfg w p o .readLog
        (w.run { p with
          stage := .reconcile ((events.filter fun ev : Event => ev.action ≠ .cosmetic).map
            (pendingFor cfg)) })
  | reconcileListed (pending : List PendingNotice) :
      RecoverStep cfg w p o (.reconcile pending)
        (w.run
          { p with stage := .entries .reconcile (alreadyAppended cfg w.inbox pending) pending })
  | reconcileSkipped (pending : List PendingNotice) (h : pending = [] ∨ o.list = false) :
      RecoverStep cfg w p o (.reconcile pending) (w.run { p with stage := .serving })
  | flushed (sent : List String) :
      RecoverStep cfg w p o (.entries .flush sent []) (w.run { p with stage := .readLog })
  | reconciled (sent : List String) :
      RecoverStep cfg w p o (.entries .reconcile sent []) (w.run { p with stage := .serving })
  | begun (loop : Loop) (sent : List String) (pn : PendingNotice) (rest : List PendingNotice)
      (hnew : messageIDFor cfg pn.id ∉ sent) :
      RecoverStep cfg w p o (.entries loop sent (pn :: rest))
        (w.run { p with stage := .delivering loop sent rest pn loop.first })
  | cleared (sent : List String) (pn : PendingNotice) (rest : List PendingNotice)
      (hsent : messageIDFor cfg pn.id ∈ sent) :
      RecoverStep cfg w p o (.entries .flush sent (pn :: rest))
        (w.run { p with stage := .delivering .flush sent rest pn .clearing })
  | skipped (sent : List String) (pn : PendingNotice) (rest : List PendingNotice)
      (hsent : messageIDFor cfg pn.id ∈ sent) :
      RecoverStep cfg w p o (.entries .reconcile sent (pn :: rest))
        (w.run { p with stage := .entries .reconcile sent rest })
  | delivered (loop : Loop) (sent : List String) (rest : List PendingNotice) (pn : PendingNotice)
      (d : Delivery) :
      RecoverStep cfg w p o (.delivering loop sent rest pn d)
        ((deliver cfg w p pn o d).1.1.run { (deliver cfg w p pn o d).1.2 with
          stage := match (deliver cfg w p pn o d).2 with
            | some d' => .delivering loop sent rest pn d'
            | none => .entries loop sent rest })

theorem recoverStep_cases [EventCodec] (h : recoverStep cfg w p o = some w') :
    RecoverStep cfg w p o p.stage w' := by
  unfold recoverStep at h
  cases hstage : p.stage with
  | flush =>
      simp only [hstage] at h
      split_ifs at h with hlisted <;> obtain rfl := Option.some.inj h
      · exact .flushListed hlisted.1
      · exact .flushSkipped
  | readLog =>
      simp only [hstage] at h
      cases hread : o.read with
      | false =>
          simp only [hread, Bool.false_eq_true, if_false] at h
          obtain rfl := Option.some.inj h
          exact .unread (by simp [hread])
      | true =>
          simp only [hread, if_true] at h
          cases hlog : readLog w.log (o.now - noticeReconcileWindow) with
          | none =>
              simp only [hlog] at h
              obtain rfl := Option.some.inj h
              exact .unread fun _ => hlog
          | some events =>
              simp only [hlog] at h
              obtain rfl := Option.some.inj h
              exact .read events hlog
  | reconcile pending =>
      simp only [hstage] at h
      split_ifs at h with hlisted <;> obtain rfl := Option.some.inj h
      · exact .reconcileListed pending
      · refine .reconcileSkipped pending ?_
        rw [not_and_or, not_not, Bool.not_eq_true] at hlisted
        exact hlisted
  | entries loop sent rest =>
      cases rest with
      | nil =>
          cases loop <;> simp only [hstage] at h <;> obtain rfl := Option.some.inj h
          · exact .flushed sent
          · exact .reconciled sent
      | cons pn rest =>
          by_cases hsent : messageIDFor cfg pn.id ∈ sent
          · cases loop <;> simp only [hstage, if_pos hsent] at h <;> obtain rfl := Option.some.inj h
            · exact .cleared sent pn rest hsent
            · exact .skipped sent pn rest hsent
          · cases loop <;> simp only [hstage, if_neg hsent] at h <;> obtain rfl := Option.some.inj h
            · exact .begun .flush sent pn rest hsent
            · exact .begun .reconcile sent pn rest hsent
  | delivering loop sent rest pn d =>
      simp only [hstage] at h
      obtain rfl := Option.some.inj h
      exact .delivered loop sent rest pn d
  | serving => simp [hstage] at h
  | cli => simp [hstage] at h

lemma recoverStep_log [EventCodec] (h : recoverStep cfg w p o = some w') : w'.log = w.log := by
  have hcases := recoverStep_cases h
  generalize p.stage = stage at hcases
  cases hcases with
  | delivered loop sent rest pn d => exact (deliver_delivers cfg w p pn o d).log
  | _ => rfl

/-- What one step can do. -/
inductive Stepped [Runes] [EventCodec] (cfg : Config) (w : World) : Act → World → Prop
  | opened (server : Bool) (hp : w.process = none) :
      Stepped cfg w (.openData server) (w.run
        { contacts := w.contacts, queue := w.queue, stage := if server then .flush else .cli })
  | stopped : Stepped cfg w .stop { w with process := none }
  | refused (k : ℕ) (now : ℤ) (drawn : List (Option String)) (actor : String) (m : Mutation)
      (out : WriteOutcome) : Stepped cfg w (.commit k now drawn actor m out) w
  | committed (k : ℕ) (now : ℤ) (drawn : List (Option String)) (actor : String) (m : Mutation)
      (out : WriteOutcome) (p : Process) (ev : Event) (contacts : Contacts)
      (hp : w.process = some p) (hmutating : p.mutating = none)
      (hserving : p.stage = .serving ∨ p.stage = .cli)
      (hm : p.contacts.mutated cfg now drawn actor m = some (ev, contacts)) :
      Stepped cfg w (.commit k now drawn actor m out) (commit w p k ev contacts out)
  | recorded (out : LogOutcome) (p : Process) (k : ℕ) (ev : Event) (hp : w.process = some p)
      (hm : p.mutating = some (k, ev)) :
      Stepped cfg w (.record out) (World.run { w with log := w.log ++ out.written (logLine ev) }
        (if out = .done ∧ p.stage = .serving then
          Process.setAnnounce { p with mutating := none } k (some (pendingFor cfg ev, .adding))
        else { p with mutating := none }))
  | announced (k : ℕ) (out : Outcome) (p : Process) (pn : PendingNotice) (d : Delivery)
      (hp : w.process = some p) (ha : p.announcing k = some (pn, d)) :
      Stepped cfg w (.announce k out) ((deliver cfg w p pn out d).1.1.run
        ((deliver cfg w p pn out d).1.2.setAnnounce k
          ((deliver cfg w p pn out d).2.map fun d' => (pn, d'))))
  | abandoned (k : ℕ) (p : Process) (hp : w.process = some p) :
      Stepped cfg w (.abandon k) (w.run (p.setAnnounce k none))
  | recovered (out : Outcome) (p : Process) (w' : World) (hp : w.process = some p)
      (hrecover : recoverStep cfg w p out = some w') : Stepped cfg w (.recover out) w'
  | rewritten (out : WriteOutcome) (p : Process) (hp : w.process = some p) :
      Stepped cfg w (.rewrite out) ((update w p id out).1.run (update w p id out).2)
  | deleted (messageID : String) :
      Stepped cfg w (.delete messageID)
        { w with inbox := w.inbox.filter fun id => id ≠ messageID }

theorem step_cases [Runes] [EventCodec] {act : Act} (h : step cfg w act = some w') :
    Stepped cfg w act w' := by
  cases act with
  | openData server =>
      cases hp : w.process with
      | some p => simp [step, hp] at h
      | none =>
          simp only [step, hp, Option.some.injEq] at h
          subst h
          exact .opened server hp
  | stop =>
      obtain rfl := Option.some.inj h
      exact .stopped
  | commit k now drawn actor m out =>
      obtain ⟨p, hp, h⟩ := Option.bind_eq_some_iff.1 h
      split_ifs at h with hfree
      cases hm : p.contacts.mutated cfg now drawn actor m with
      | none =>
          simp only [hm, Option.some.injEq] at h
          subst h
          exact .refused ..
      | some c =>
          obtain ⟨ev, contacts⟩ := c
          simp only [hm, Option.some.injEq] at h
          subst h
          exact .committed k now drawn actor m out p ev contacts hp hfree.1 hfree.2.2 hm
  | record out =>
      obtain ⟨p, hp, h⟩ := Option.bind_eq_some_iff.1 h
      obtain ⟨⟨k, ev⟩, hm, rfl⟩ := Option.map_eq_some_iff.1 h
      exact .recorded out p k ev hp hm
  | announce k out =>
      obtain ⟨p, hp, h⟩ := Option.bind_eq_some_iff.1 h
      obtain ⟨⟨pn, d⟩, ha, rfl⟩ := Option.map_eq_some_iff.1 h
      exact .announced k out p pn d hp ha
  | abandon k =>
      obtain ⟨p, hp, h⟩ := Option.bind_eq_some_iff.1 h
      obtain rfl := Option.some.inj h
      exact .abandoned k p hp
  | recover out =>
      obtain ⟨p, hp, h⟩ := Option.bind_eq_some_iff.1 h
      exact .recovered out p w' hp h
  | rewrite out =>
      obtain ⟨p, hp, h⟩ := Option.bind_eq_some_iff.1 h
      split_ifs at h
      obtain rfl : (update w p id out).1.run (update w p id out).2 = w' := Option.some.inj h
      exact .rewritten out p hp
  | delete messageID =>
      obtain rfl := Option.some.inj h
      exact .deleted messageID

/-- A data directory before its first change. -/
structure World.Fresh (w : World) : Prop where
  process : w.process = none
  log : w.log = []
  changes : w.contacts.changes = []

/-! ## A sample -/

namespace Sample

def config : Config where
  mailboxAddress := "family@x"
  digest := id

/-- A data directory without contacts, and an INBOX without notices. -/
def fresh : World where
  contacts := { table := Chaskiwasi.Sample.noContacts, changes := [], not_cosmetic := by simp,
                versions := List.Pairwise.nil, le_version := by simp }
  log := []
  queue := []
  inbox := []

/-- Ana adds Rosa, at time 5. -/
def addRosa : Act :=
  .commit 0 5 [some "c_01"] "ana" { action := .add, name := "Rosa", address := "rosa@x" } .done

end Sample

end Notice
end Chaskiwasi
