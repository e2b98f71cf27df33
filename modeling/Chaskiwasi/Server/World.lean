import Chaskiwasi.Ayllu.Mutate
import Chaskiwasi.Lib.Run
import Chaskiwasi.Sync.Assemble
import Mathlib.Tactic.Simps.Basic

/-!
# The server's inbound side, step by step

Mail reaches the child through four procedures that share one mailbox: reconciliation, the arrival
path, release from Held, and the sync handler.  The first three run under one mutex; syncs overlap
with everything, and so do the mail server, which puts messages into the mailbox at any moment,
and the guardian pages, which change the contact table.

A `World` is the state all of them share, with the program counter of the filing pass that holds
the mutex (`Pass`), those of the syncs in progress (`Sync`), and a log of what happened, newest
first, which no procedure reads.  One step of the world is one round trip to the mailbox, one
consultation of the contact table, or one event outside the server.  What a round trip answers is
part of the action, `Reply`: a move may fail before it did anything, after the copy but before the
original went, or after both.

The Spam folder is not part of the state: what the spam backstop moves appears in Held as a
message, at any moment (`Act.intoHeld`).
-/

namespace Chaskiwasi

/-- The page size of the arrival path's fetch. -/
def arrivalBatchSize : ℕ := 50

/-- What does not change while the server runs. -/
structure Config where
  pipeline : Pipeline
  encodedLength : Letter → ℕ
  maxContacts : ℕ := 24
  resyncWindow : ℕ := 50
  budgetBytes : ℤ := 16384

/-! ## Program counters -/

/-- The three ways a message leaves Held. -/
inductive Release
  | stranger (actor name : String)
  | deactivated (actor contactID : String)
  | active
  deriving DecidableEq, Repr

/-- Where the filing pass that holds the mutex stands. -/
inductive Pass
  /-- Reconciliation, about to list INBOX; with the delivery boundary above which an inactive
  contact's mail is held, or none. -/
  | list (bound : Option UID)
  /-- Reconciliation, about to decide on the first of the listed messages. -/
  | sweep (bound : Option UID) (rest : List Raw) (maxUID : UID)
  /-- Reconciliation, about to move a message to Held. -/
  | quarantine (bound : Option UID) (raw : Raw) (rest : List Raw) (maxUID : UID)
  /-- The arrival path, about to fetch above the high-water mark. -/
  | fetch
  /-- The arrival path, about to decide on the first of the fetched messages. -/
  | file (rest : List Raw) (full : Bool)
  /-- The arrival path, about to move a message to Held. -/
  | hold (raw : Raw) (rest : List Raw) (full : Bool)
  /-- A release, about to list Held. -/
  | findHeld (rel : Release) (uid : UID)
  /-- A release, about to consult the contact table about the sender. -/
  | check (rel : Release) (raw : Raw)
  /-- A release, about to change the contact table. -/
  | change (rel : Release) (raw : Raw) (sender : String)
  /-- A release, about to move the message to INBOX. -/
  | unhold (raw : Raw)
  deriving DecidableEq, Repr

/-- A filing procedure called by something other than a sync. -/
inductive Job
  | reconcile
  | handleNotify
  | release (rel : Release) (uid : UID)
  deriving DecidableEq, Repr

/-- Who called the filing pass. -/
inductive Caller
  | job (j : Job)
  | sync (k : ℕ)
  deriving DecidableEq, Repr

/-- The filing pass that holds the mutex. -/
structure Running where
  caller : Caller
  pc : Pass
  deriving DecidableEq, Repr

/-- Where a sync stands.  `sources` are the messages behind the letters assembled so far. -/
inductive Sync
  /-- About to read UIDVALIDITY. -/
  | start (cursor : String)
  /-- About to call reconciliation, or waiting for the mutex. -/
  | waiting (cursor : String) (bound : Option UID)
  | reconciling (cursor : String)
  /-- About to read UIDVALIDITY again. -/
  | assemble (cursor : String)
  /-- About to fetch. -/
  | fetching (uidValidity : UID) (boundary : Option UID)
  | deriving_ (uidValidity : UID) (asm : Assembly) (sources rest : List Raw) (capped : Bool)
  /-- About to write the sync state and answer. -/
  | committing (uidValidity : UID) (asm : Assembly) (sources : List Raw) (more : Bool)
  deriving DecidableEq, Repr

/-! ## The log -/

/-- The part of a response this side of the server makes. -/
structure Response where
  uidValidity : UID
  lastUID : UID
  letters : List Letter
  more : Bool
  /-- The messages behind the letters. -/
  sources : List Raw
  deriving DecidableEq, Repr

inductive Note
  /-- A message reached INBOX by delivery or append. -/
  | arrived (raw : Raw)
  /-- The arrival path fetched. -/
  | fetched
  /-- The arrival path left a message in INBOX, for this contact, and rang the doorbell. -/
  | kept (raw : Raw) (contactID : String)
  /-- The arrival path moved a message from INBOX to Held. -/
  | held (raw : Raw)
  /-- Reconciliation examined a message and left it in INBOX. -/
  | left (raw : Raw)
  /-- Reconciliation moved a message from INBOX to Held. -/
  | quarantined (raw : Raw)
  /-- A release moved a message from Held to INBOX, where it is this one. -/
  | released (raw : Raw)
  /-- A procedure returned, with nil or with an error. -/
  | returned (j : Job) (ok : Bool)
  | responded (k : ℕ) (r : Response)
  deriving DecidableEq, Repr

/-! ## The state -/

structure World where
  inbox : Folder
  held : Folder
  uidValidity : UID
  table : Table
  /-- `arrivalHighWater`. -/
  highWater : UID
  /-- The filing pass that holds the mutex, if one does. -/
  pass : Option Running
  /-- The syncs in progress. -/
  syncs : ℕ → Option Sync
  log : List Note

/-- What one round trip to the mailbox answers. -/
inductive Reply
  | ok
  | failed
  /-- A move that copied the message and then failed. -/
  | copied
  /-- Done, and reported as an error. -/
  | lost
  deriving DecidableEq, Repr

namespace World

@[simps]
def note (w : World) (n : Note) : World :=
  { w with log := n :: w.log }

@[simps]
def goto (w : World) (caller : Caller) (pc : Pass) : World :=
  { w with pass := some ⟨caller, pc⟩ }

@[simps]
def setSync (w : World) (k : ℕ) (s : Option Sync) : World :=
  { w with syncs := fun j => if j = k then s else w.syncs j }

/-- Raises the high-water mark to a UID. -/
@[simps]
def raise (w : World) (uid : UID) : World :=
  { w with highWater := max w.highWater uid }

/-- A reconciling sync goes on to assemble. -/
def reconciled : Option Sync → Option Sync
  | some (.reconciling cursor) => some (.assemble cursor)
  | _ => none

/-- The pass releases the mutex and hands its outcome to its caller. -/
def finish (w : World) (caller : Caller) (ok : Bool) : World :=
  match caller with
  | .job j => { w with pass := none, log := .returned j ok :: w.log }
  | .sync k =>
      { w with
        pass := none
        syncs := fun j =>
          if j = k then (if ok then reconciled (w.syncs k) else none) else w.syncs j }

/-- `Move` from INBOX to Held.  A UID that INBOX no longer holds moves nothing. -/
def moveOut (w : World) (uid : UID) (n : Raw → Note) (reply : Reply) (fresh : UID) :
    Option World :=
  match w.inbox.find uid with
  | none => some w
  | some raw =>
      if reply = .failed then some w
      else if h : w.held.last < fresh then
        let held := w.held.push { raw with uid := fresh } h
        if reply = .copied then some { w with held := held }
        else some { w with inbox := w.inbox.remove uid, held := held, log := n raw :: w.log }
      else none

/-- `Move` from Held to INBOX. -/
def moveIn (w : World) (uid : UID) (reply : Reply) (fresh : UID) : Option World :=
  match w.held.find uid with
  | none => some w
  | some raw =>
      if reply = .failed then some w
      else if h : w.inbox.last < fresh then
        let raw' := { raw with uid := fresh }
        let inbox := w.inbox.push raw' h
        if reply = .copied then some { w with inbox := inbox, log := .released raw' :: w.log }
        else some { w with
                    inbox := inbox, held := w.held.remove uid, log := .released raw' :: w.log }
      else none

end World

/-! ## The filing pass -/

section Steps

variable [Runes] (cfg : Config)

/-- Reconciliation's decision about a message: whether it goes to Held. -/
def quarantines (P : Pipeline) (t : Table) (bound : Option UID) (raw : Raw) : Bool :=
  match P.headerFrom raw.data with
  | none => true
  | some sender =>
      match t.resolve sender with
      | none => true
      | some contact =>
          match bound with
          | none => false
          | some deliveredUID => !contact.active && deliveredUID < raw.uid

/-- The arrival path's decision about a message: the active contact it is kept for. -/
def activeSender (P : Pipeline) (t : Table) (raw : Raw) : Option Contact :=
  (P.headerFrom raw.data).bind t.resolveActive

/-- The contact change a release makes on the way. -/
def Release.mutation (sender : String) : Release → Option (String × Mutation)
  | .stranger actor name => some (actor, { action := .add, name := name, address := sender })
  | .deactivated actor contactID => some (actor, { action := .reactivate, contactID := contactID })
  | .active => none

/-- One step of the filing pass. -/
def passStep (w : World) (caller : Caller) (pc : Pass) (reply : Reply) (fresh : UID)
    (io : MutateIO) : Option World :=
  match pc with
  | .list bound =>
      if reply = .ok then some (w.goto caller (.sweep bound w.inbox.msgs 0))
      else some (w.finish caller false)
  | .sweep _ [] maxUID => some ((w.raise maxUID).finish caller true)
  | .sweep bound (raw :: rest) maxUID =>
      if quarantines cfg.pipeline w.table bound raw then
        some (w.goto caller (.quarantine bound raw rest (max maxUID raw.uid)))
      else some ((w.note (.left raw)).goto caller (.sweep bound rest (max maxUID raw.uid)))
  | .quarantine bound raw rest maxUID =>
      (w.moveOut raw.uid .quarantined reply fresh).map fun w' =>
        if reply = .ok then w'.goto caller (.sweep bound rest maxUID) else w'.finish caller false
  | .fetch =>
      if reply = .ok then
        let raws := w.inbox.fetchAbove w.highWater arrivalBatchSize
        some ((w.note .fetched).goto caller (.file raws (raws.length = arrivalBatchSize)))
      else some (w.finish caller false)
  | .file [] full => if full then some (w.goto caller .fetch) else some (w.finish caller true)
  | .file (raw :: rest) full =>
      match activeSender cfg.pipeline w.table raw with
      | some contact =>
          some (((w.note (.kept raw contact.id)).raise raw.uid).goto caller (.file rest full))
      | none => some (w.goto caller (.hold raw rest full))
  | .hold raw rest full =>
      (w.moveOut raw.uid .held reply fresh).map fun w' =>
        if reply = .ok then (w'.raise raw.uid).goto caller (.file rest full)
        else w'.finish caller false
  | .findHeld rel uid =>
      if reply = .ok then
        match w.held.find uid with
        | none => some (w.finish caller false)
        | some raw => some (w.goto caller (.check rel raw))
      else some (w.finish caller false)
  | .check rel raw =>
      match cfg.pipeline.headerFrom raw.data with
      | none => some (w.finish caller false)
      | some sender =>
          match rel with
          | .stranger .. => some (w.goto caller (.change rel raw sender))
          | .deactivated _ contactID =>
              -- A release never reopens a channel other than the one that sent this letter.
              if (w.table.resolve sender).map Contact.id = some contactID then
                some (w.goto caller (.change rel raw sender))
              else some (w.finish caller false)
          | .active =>
              if (w.table.resolveActive sender).isSome then some (w.goto caller (.unhold raw))
              else some (w.finish caller false)
  | .change rel raw sender =>
      match rel.mutation sender with
      | none => some (w.goto caller (.unhold raw))
      | some (actor, m) =>
          let (result, table) := mutate cfg.maxContacts io actor m w.table
          match result with
          | .ok _ => some ({ w with table := table }.goto caller (.unhold raw))
          | .error _ => some ({ w with table := table }.finish caller false)
  | .unhold raw =>
      (w.moveIn raw.uid reply fresh).map fun w' =>
        if reply = .ok then w'.goto caller .fetch else w'.finish caller false

/-! ## The sync handler -/

/-- One step of a sync.  `skeleton` is the length of the response without its letters. -/
def syncStep (w : World) (k : ℕ) (reply : Reply) (skeleton : ℕ) : Option World :=
  match w.syncs k with
  | none => none
  | some (.start cursor) =>
      if reply = .ok then
        some (w.setSync k (some (.waiting cursor (cursorBoundary cursor w.uidValidity))))
      else some (w.setSync k none)
  | some (.waiting cursor bound) =>
      match w.pass with
      | some _ => none
      | none => some ((w.goto (.sync k) (.list bound)).setSync k (some (.reconciling cursor)))
  | some (.reconciling _) => none
  | some (.assemble cursor) =>
      if reply = .ok then
        some (w.setSync k
          (some (.fetching w.uidValidity (cursorBoundary cursor w.uidValidity))))
      else some (w.setSync k none)
  | some (.fetching uidValidity boundary) =>
      if reply = .ok then
        let (raws, capped) := fetchFrom w.inbox cfg.resyncWindow boundary
        some (w.setSync k (some (.deriving_ uidValidity
          ⟨budgetFor cfg.budgetBytes skeleton, [], boundary.getD 0⟩ [] raws capped)))
      else some (w.setSync k none)
  | some (.deriving_ uidValidity asm sources [] capped) =>
      some (w.setSync k (some (.committing uidValidity asm sources capped)))
  | some (.deriving_ uidValidity asm sources (raw :: rest) capped) =>
      let derived := cfg.pipeline.derive w.table raw
      match assembleOne cfg.encodedLength asm raw.uid derived with
      | .next asm' =>
          let sources' := match derived with
            | .ok _ => sources ++ [raw]
            | .error _ => sources
          some (w.setSync k (some (.deriving_ uidValidity asm' sources' rest capped)))
      | .stop => some (w.setSync k (some (.committing uidValidity asm sources true)))
      | .fail _ => some (w.setSync k none)
  | some (.committing uidValidity asm sources more) =>
      if reply = .ok then
        some ((w.note (.responded k ⟨uidValidity, asm.lastUID, asm.letters, more, sources⟩)).setSync
          k none)
      else some (w.setSync k none)

/-! ## The world -/

/-- What happens next. -/
inductive Act
  /-- The mail server delivers into INBOX, or `notice.Service` appends to it. -/
  | arrive (raw : Raw)
  /-- A message appears in Held: the spam backstop moved it there. -/
  | intoHeld (raw : Raw)
  /-- A guardian page changes the contact table. -/
  | mutate (io : MutateIO) (actor : String) (m : Mutation)
  /-- INBOX's UIDVALIDITY changes, and its messages are renumbered. -/
  | renumber (uidValidity : UID) (inbox : Folder)
  /-- A filing procedure is called and takes the mutex. -/
  | call (j : Job)
  | pass (reply : Reply) (fresh : UID) (io : MutateIO)
  /-- A sync request arrives. -/
  | request (k : ℕ) (cursor : String)
  | sync (k : ℕ) (reply : Reply) (skeleton : ℕ)

/-- Where a filing procedure starts. -/
def Job.entry : Job → Pass
  | .reconcile => .list none
  | .handleNotify => .fetch
  | .release rel uid => .findHeld rel uid

def step (w : World) (act : Act) : Option World :=
  match act with
  | .arrive raw =>
      if h : w.inbox.last < raw.uid then
        some { w with inbox := w.inbox.push raw h, log := .arrived raw :: w.log }
      else none
  | .intoHeld raw =>
      if h : w.held.last < raw.uid then some { w with held := w.held.push raw h } else none
  | .mutate io actor m => some { w with table := (mutate cfg.maxContacts io actor m w.table).2 }
  | .renumber uidValidity inbox =>
      if uidValidity ≠ w.uidValidity ∧ inbox.Renumbers w.inbox then
        some { w with uidValidity := uidValidity, inbox := inbox }
      else none
  | .call j =>
      match w.pass with
      | some _ => none
      | none => some (w.goto (.job j) j.entry)
  | .pass reply fresh io =>
      match w.pass with
      | none => none
      | some running => passStep cfg w running.caller running.pc reply fresh io
  | .request k cursor =>
      match w.syncs k with
      | some _ => none
      | none => some (w.setSync k (some (.start cursor)))
  | .sync k reply skeleton => syncStep cfg w k reply skeleton

end Steps

/-- A server at rest: no pass and no sync in progress, nothing logged. -/
structure World.AtRest (w : World) : Prop where
  pass : w.pass = none
  syncs : ∀ k, w.syncs k = none
  log : w.log = []

end Chaskiwasi
