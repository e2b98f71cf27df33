import Chaskiwasi.Ayllu.Table
import Chaskiwasi.Lib.Run
import Chaskiwasi.Outbound.State
import Mathlib.Tactic.Simps.Basic

/-!
# The sync handler's outbound half, step by step

For every letter of a request the handler consults the ack ring, and only then does any work: it
resolves the contact, validates, submits over SMTP, records the outcome durably, and acks.  The ring
it consults is a copy taken once, when the request's letters are reached; what it records goes both
into that copy and, through the store, into the published state.

A `Post.World` is what the handlers share: the store, the contact table, and the handlers in
progress, each at one `Stage`.  A step of a handler is one lookup, one submission, or one write.
How a submission or a write ends is part of the action.  The process may stop at any moment, which
ends every handler in progress, and start again from the file.  The log says what happened, newest
first; no procedure reads it.
-/

namespace Chaskiwasi

/-- `uniseg.GraphemeClusterCount`. -/
class Graphemes where
  count : String → ℕ

/-- The wire cap on a device-assigned local id. -/
def maxLocalIDBytes : ℕ := 32

section SendOne

variable [Graphemes]

def validOutbound (letter : Outbound) (unknownFields : Bool) (maxLetterChars : ℤ) : Bool :=
  !unknownFields && decide (letter.localID.utf8ByteSize ≤ maxLocalIDBytes) &&
    decide (trimSpace letter.body.toList ≠ []) &&
    decide ((Graphemes.count letter.body : ℤ) ≤ maxLetterChars)

/-- The contact a letter may be submitted to, or the status that rejects it. -/
def recipient (t : Table) (item : OutboundItem) (maxLetterChars : ℤ) : Except AckStatus Contact :=
  match t.byID item.letter.contactID with
  | none => .error .rejectedUnknownContact
  | some contact =>
      -- The system contact always resolves, but nobody writes to it.
      if item.letter.contactID = sysContactID then .error .rejectedUnknownContact
      else if ¬ contact.active then .error .rejectedInactive
      else if validOutbound item.letter item.unknownFields maxLetterChars then .ok contact
      else .error .invalid

/-- What the submission answers. -/
inductive SendReply
  | accepted
  /-- `ErrUndeliverable`: this letter will never be taken. -/
  | undeliverable
  /-- `ErrUnreachable`. -/
  | unreachable
  /-- Anything else: a transient refusal, a refusal of our own login. -/
  | refused
  deriving DecidableEq, Repr

structure SendIO where
  /-- Whether a Message-ID could be minted. -/
  built : Bool := true
  reply : SendReply := .accepted
  deriving DecidableEq, Repr

inductive SendError
  | unreachable
  | other
  deriving DecidableEq, Repr

/-- Whether a letter gets as far as the submission. -/
def submits (t : Table) (io : SendIO) (item : OutboundItem) (maxLetterChars : ℤ) : Bool :=
  (recipient t item maxLetterChars).isOk && io.built

def sendOne (t : Table) (io : SendIO) (item : OutboundItem) (maxLetterChars : ℤ) :
    Except SendError AckStatus :=
  match recipient t item maxLetterChars with
  | .error status => .ok status
  | .ok _ =>
      if io.built then
        match io.reply with
        | .accepted => .ok .sent
        | .undeliverable => .ok .rejectedUndeliverable
        | .unreachable => .error .unreachable
        | .refused => .error .other
      else .error .other

end SendOne

namespace Post

/-- Where a handler stands.  `acks` are the ring entries behind the acks so far. -/
inductive Stage
  /-- Before the request's letters: reconciliation and telemetry. -/
  | received
  /-- About to look up the first of the remaining letters. -/
  | looking (ring : AckRing) (rest : List OutboundItem) (acks : List AckEntry)
  /-- About to run `sendOne`. -/
  | sending (ring : AckRing) (item : OutboundItem) (rest : List OutboundItem)
      (acks : List AckEntry)
  /-- About to record the outcome. -/
  | recording (ring : AckRing) (item : OutboundItem) (status : AckStatus)
      (rest : List OutboundItem) (acks : List AckEntry)
  /-- About to assemble the inbound letters, write the sync state and answer. -/
  | committing (acks : List AckEntry)
  deriving DecidableEq, Repr

structure Handler where
  items : List OutboundItem
  maxLetterChars : ℤ
  now : ℤ
  pututuCounterSeen : ℕ
  stage : Stage
  deriving DecidableEq, Repr

inductive Note
  /-- A process opened the store and found this ring. -/
  | opened (ring : AckRing)
  | requested (k : ℕ) (items : List OutboundItem)
  /-- A letter was handed to SMTP, which took it or did not. -/
  | submitted (k : ℕ) (item : OutboundItem) (accepted : Bool)
  /-- The processing of a letter ended in a terminal status. -/
  | decided (k : ℕ) (item : OutboundItem) (status : AckStatus)
  /-- The processing of a letter ended in an error. -/
  | failed (k : ℕ) (item : OutboundItem)
  /-- An ack was written, and the write returned nil. -/
  | recorded (e : AckEntry)
  /-- An ack reached the file in a write that returned an error. -/
  | replaced (e : AckEntry)
  | responded (k : ℕ) (items : List OutboundItem) (acks : List AckEntry)
  deriving DecidableEq, Repr

structure World where
  store : Store
  table : Table
  handlers : ℕ → Option Handler
  log : List Note

/-- How the things a step does outside the server end. -/
structure HandlerIO where
  /-- Whether what comes before or after the letters succeeds. -/
  ok : Bool := true
  send : SendIO := {}
  write : WriteOutcome := .done
  uidValidity : UID := 0
  lastUID : UID := 0
  deriving DecidableEq, Repr

inductive Act
  | start
  | stop
  /-- The contact table changes. -/
  | contacts (t : Table)
  /-- Another writer of `state.json`, which leaves the ring alone. -/
  | other (s : State) (o : WriteOutcome)
  | request (k : ℕ) (items : List OutboundItem) (maxLetterChars : ℤ) (now : ℤ)
      (pututuCounterSeen : ℕ)
  | handle (k : ℕ) (io : HandlerIO)

@[simps]
def World.setHandler (w : World) (k : ℕ) (h : Option Handler) : World :=
  { w with handlers := fun j => if j = k then h else w.handlers j }

lemma World.handlers_cases {w : World} {j k : ℕ} {s : Option Handler} {h : Handler}
    (hj : (w.setHandler k s).handlers j = some h) :
    (j = k ∧ s = some h) ∨ (j ≠ k ∧ w.handlers j = some h) := by
  by_cases hjk : j = k
  · exact Or.inl ⟨hjk, by simpa [hjk] using hj⟩
  · exact Or.inr ⟨hjk, by simpa [hjk] using hj⟩

@[simps]
def World.note (w : World) (n : Note) : World :=
  { w with log := n :: w.log }

/-- The entry a handler records for a letter. -/
def Handler.entry (h : Handler) (item : OutboundItem) (status : AckStatus) : AckEntry :=
  ⟨item.letter.localID, status, h.now, item⟩

/-- `recordAck`'s change of the state. -/
def recordAck (e : AckEntry) (s : State) : State := { s with acks := s.acks.record e }

/-- `commitSync`'s change of the state. -/
def commitSync (h : Handler) (io : HandlerIO) (s : State) : State :=
  State.reconcilePututuCounter
    { s with lastSyncAt := h.now, uidValidity := io.uidValidity, lastUID := io.lastUID }
    h.pututuCounterSeen

variable [Graphemes]

/-- One step of a handler. -/
def handleStep (w : World) (k : ℕ) (h : Handler) (io : HandlerIO) : Option World :=
  let goto (v : World) (stage : Stage) : World := v.setHandler k (some { h with stage := stage })
  match h.stage with
  | .received =>
      if io.ok then
        if h.items = [] then some (goto w (.committing []))
        else w.store.current.map fun st => goto w (.looking st.acks h.items [])
      else some (w.setHandler k none)
  | .looking _ [] acks => some (goto w (.committing acks))
  | .looking ring (item :: rest) acks =>
      match ring.lookup item.letter.localID with
      | some e => some (goto w (.looking ring rest (acks ++ [e])))
      | none => some (goto w (.sending ring item rest acks))
  | .sending ring item rest acks =>
      let v :=
        if submits w.table io.send item h.maxLetterChars then
          w.note (.submitted k item (io.send.reply = .accepted))
        else w
      match sendOne w.table io.send item h.maxLetterChars with
      | .ok status =>
          some (goto (v.note (.decided k item status)) (.recording ring item status rest acks))
      | .error .unreachable => some ((v.note (.failed k item)).setHandler k none)
      | .error .other => some (goto (v.note (.failed k item)) (.looking ring rest acks))
  | .recording ring item status rest acks =>
      let e := h.entry item status
      (w.store.update (recordAck e) io.write).map fun (store, ok) =>
        let v : World := { w with store := store }
        if ok then goto (v.note (.recorded e)) (.looking (ring.record e) rest (acks ++ [e]))
        else if io.write = .replaced then goto (v.note (.replaced e)) (.looking ring rest acks)
        else goto v (.looking ring rest acks)
  | .committing acks =>
      if io.ok then
        (w.store.update (commitSync h io) io.write).map fun (store, ok) =>
          let v : World := { w with store := store }
          if ok then (v.note (.responded k h.items acks)).setHandler k none
          else v.setHandler k none
      else some (w.setHandler k none)

def step (w : World) (act : Act) : Option World :=
  match act with
  | .start =>
      match w.store.current with
      | some _ => none
      | none =>
          some ({ w with store := w.store.opened }.note (.opened w.store.file.acks))
  | .stop =>
      some { w with
             store := { w.store with current := none }
             handlers := fun _ => none }
  | .contacts t => some { w with table := t }
  | .other s o =>
      (w.store.update (fun st => { s with acks := st.acks }) o).map fun (store, _) =>
        { w with store := store }
  | .request k items maxLetterChars now pututuCounterSeen =>
      match w.store.current, w.handlers k with
      | some _, none =>
          some ((w.note (.requested k items)).setHandler k
            (some ⟨items, maxLetterChars, now, pututuCounterSeen, .received⟩))
      | _, _ => none
  | .handle k io =>
      match w.handlers k with
      | none => none
      | some h => handleStep w k h io

/-! ## What one step can do -/

/-- The log after a letter was processed, with or without a submission.  The outcome is `sent` where
SMTP took the letter, and only there. -/
def Processed (k : ℕ) (item : OutboundItem) (w : World) (n : Note) (log : List Note) : Prop :=
  (log = n :: w.log ∧ n ≠ .decided k item .sent) ∨
    ∃ accepted, log = n :: .submitted k item accepted :: w.log ∧
      (accepted = true ↔ n = .decided k item .sent)

/-- What one step of a handler can do. -/
inductive HandleStep (w : World) (k : ℕ) (h : Handler) (io : HandlerIO) : Stage → World → Prop
  /-- An error outside the letters: the request is answered with nothing. -/
  | ended (stage : Stage) (hstage : stage = .received ∨ ∃ acks, stage = .committing acks) :
      HandleStep w k h io stage (w.setHandler k none)
  | empty (hitems : h.items = []) :
      HandleStep w k h io .received (w.setHandler k (some { h with stage := .committing [] }))
  | snapshot (st : State) (hcur : w.store.current = some st) :
      HandleStep w k h io .received
        (w.setHandler k (some { h with stage := .looking st.acks h.items [] }))
  | finished (ring : AckRing) (acks : List AckEntry) :
      HandleStep w k h io (.looking ring [] acks)
        (w.setHandler k (some { h with stage := .committing acks }))
  | replayed (ring : AckRing) (item : OutboundItem) (rest : List OutboundItem)
      (acks : List AckEntry) (e : AckEntry) (he : ring.lookup item.letter.localID = some e) :
      HandleStep w k h io (.looking ring (item :: rest) acks)
        (w.setHandler k (some { h with stage := .looking ring rest (acks ++ [e]) }))
  | fresh (ring : AckRing) (item : OutboundItem) (rest : List OutboundItem) (acks : List AckEntry)
      (hnone : ring.lookup item.letter.localID = none) :
      HandleStep w k h io (.looking ring (item :: rest) acks)
        (w.setHandler k (some { h with stage := .sending ring item rest acks }))
  | decided (ring : AckRing) (item : OutboundItem) (rest : List OutboundItem)
      (acks : List AckEntry) (status : AckStatus) (log : List Note)
      (hlog : Processed k item w (.decided k item status) log) :
      HandleStep w k h io (.sending ring item rest acks)
        ({ w with log := log }.setHandler k
          (some { h with stage := .recording ring item status rest acks }))
  | unacked (ring : AckRing) (item : OutboundItem) (rest : List OutboundItem)
      (acks : List AckEntry) (log : List Note) (hlog : Processed k item w (.failed k item) log) :
      HandleStep w k h io (.sending ring item rest acks)
        ({ w with log := log }.setHandler k (some { h with stage := .looking ring rest acks }))
  | aborted (ring : AckRing) (item : OutboundItem) (rest : List OutboundItem)
      (acks : List AckEntry) (log : List Note) (hlog : Processed k item w (.failed k item) log) :
      HandleStep w k h io (.sending ring item rest acks) ({ w with log := log }.setHandler k none)
  | recorded (ring : AckRing) (item : OutboundItem) (status : AckStatus)
      (rest : List OutboundItem) (acks : List AckEntry) (st : State)
      (hcur : w.store.current = some st) :
      HandleStep w k h io (.recording ring item status rest acks)
        (({ w with store := ⟨recordAck (h.entry item status) st,
                             some (recordAck (h.entry item status) st)⟩ }.note
            (.recorded (h.entry item status))).setHandler k
          (some { h with stage := .looking (ring.record (h.entry item status)) rest
                                    (acks ++ [h.entry item status]) }))
  | replaced (ring : AckRing) (item : OutboundItem) (status : AckStatus)
      (rest : List OutboundItem) (acks : List AckEntry) (st : State)
      (hcur : w.store.current = some st) (hwrite : io.write = .replaced) :
      HandleStep w k h io (.recording ring item status rest acks)
        (({ w with store := { w.store with file := recordAck (h.entry item status) st } }.note
            (.replaced (h.entry item status))).setHandler k
          (some { h with stage := .looking ring rest acks }))
  | unrecorded (ring : AckRing) (item : OutboundItem) (status : AckStatus)
      (rest : List OutboundItem) (acks : List AckEntry) (hwrite : io.write = .unchanged) :
      HandleStep w k h io (.recording ring item status rest acks)
        (w.setHandler k (some { h with stage := .looking ring rest acks }))
  | responded (acks : List AckEntry) (st st' : State) (hcur : w.store.current = some st)
      (hacks : st'.acks = st.acks) :
      HandleStep w k h io (.committing acks)
        (({ w with store := ⟨st', some st'⟩ }.note (.responded k h.items acks)).setHandler k none)
  | uncommitted (acks : List AckEntry) (st st' : State) (hcur : w.store.current = some st)
      (hacks : st'.acks = st.acks) :
      HandleStep w k h io (.committing acks)
        ({ w with store := { w.store with file := st' } }.setHandler k none)

variable {w w' : World}

lemma recipient_ne_sent {t : Table} {item : OutboundItem} {maxLetterChars : ℤ}
    {status : AckStatus} (h : recipient t item maxLetterChars = .error status) :
    status ≠ .sent := by
  unfold recipient at h
  split at h
  · cases h
    simp
  · split_ifs at h <;> cases h <;> simp

/-- A letter is acked as sent where it was submitted and SMTP took it. -/
lemma sendOne_eq_sent_iff {t : Table} {io : SendIO} {item : OutboundItem} {maxLetterChars : ℤ} :
    sendOne t io item maxLetterChars = .ok .sent ↔
      submits t io item maxLetterChars = true ∧ io.reply = .accepted := by
  unfold sendOne submits
  cases hrec : recipient t item maxLetterChars with
  | error status =>
      have hne : status ≠ .sent := recipient_ne_sent hrec
      simp [Except.isOk, Except.toBool, hne]
  | ok contact =>
      cases hbuilt : io.built with
      | false => simp [Except.isOk, Except.toBool]
      | true => cases io.reply <;> simp [Except.isOk, Except.toBool]

theorem handleStep_cases {k : ℕ} {h : Handler} {io : HandlerIO}
    (hstep : handleStep w k h io = some w') : HandleStep w k h io h.stage w' := by
  unfold handleStep at hstep
  cases hstage : h.stage with
  | received =>
      simp only [hstage] at hstep
      split_ifs at hstep with hok hitems
      · obtain rfl := Option.some.inj hstep
        exact .empty hitems
      · obtain ⟨st, hcur, rfl⟩ := Option.map_eq_some_iff.1 hstep
        exact .snapshot st hcur
      · obtain rfl := Option.some.inj hstep
        exact .ended _ (Or.inl rfl)
  | looking ring rest acks =>
      cases rest with
      | nil =>
          simp only [hstage] at hstep
          obtain rfl := Option.some.inj hstep
          exact .finished ring acks
      | cons item rest =>
          simp only [hstage] at hstep
          cases hlook : ring.lookup item.letter.localID with
          | some e =>
              simp only [hlook] at hstep
              obtain rfl := Option.some.inj hstep
              exact .replayed ring item rest acks e hlook
          | none =>
              simp only [hlook] at hstep
              obtain rfl := Option.some.inj hstep
              exact .fresh ring item rest acks hlook
  | sending ring item rest acks =>
      simp only [hstage] at hstep
      -- Whether the letter was submitted shows in the log alone.
      have hprocessed : ∀ n : Note, (n = .decided k item .sent ↔
          submits w.table io.send item h.maxLetterChars = true ∧ io.send.reply = .accepted) →
          ∃ log, Processed k item w n log ∧
            (if submits w.table io.send item h.maxLetterChars then
              w.note (.submitted k item (io.send.reply = .accepted)) else w).note n =
              { w with log := log } := by
        intro n hn
        by_cases hsub : submits w.table io.send item h.maxLetterChars = true
        · refine ⟨_, Or.inr ⟨decide (io.send.reply = .accepted), rfl, ?_⟩,
            by simp [hsub, World.note]⟩
          rw [hn, decide_eq_true_iff]
          simp [hsub]
        · refine ⟨_, Or.inl ⟨rfl, fun heq => hsub (hn.1 heq).1⟩, by simp [hsub, World.note]⟩
      cases hsend : sendOne w.table io.send item h.maxLetterChars with
      | ok status =>
          simp only [hsend] at hstep
          obtain ⟨log, hlog, heq⟩ := hprocessed (.decided k item status) (by
            rw [← sendOne_eq_sent_iff, hsend]
            simp)
          rw [heq] at hstep
          obtain rfl := Option.some.inj hstep
          exact .decided ring item rest acks status log hlog
      | error err =>
          simp only [hsend] at hstep
          obtain ⟨log, hlog, heq⟩ := hprocessed (.failed k item) (by
            rw [← sendOne_eq_sent_iff, hsend]
            simp)
          cases err with
          | unreachable =>
              simp only [heq] at hstep
              obtain rfl := Option.some.inj hstep
              exact .aborted ring item rest acks log hlog
          | other =>
              simp only [heq] at hstep
              obtain rfl := Option.some.inj hstep
              exact .unacked ring item rest acks log hlog
  | recording ring item status rest acks =>
      simp only [hstage] at hstep
      obtain ⟨⟨store, ok⟩, hupd, hstep⟩ := Option.map_eq_some_iff.1 hstep
      obtain ⟨st, hcur, ⟨hwrite, rfl, rfl⟩ | ⟨hwrite, rfl, rfl⟩ | ⟨hwrite, rfl, rfl⟩⟩ :=
        Store.update_cases hupd
      · simp only [if_true] at hstep
        exact hstep ▸ .recorded ring item status rest acks st hcur
      · simp only [hwrite, Bool.false_eq_true, reduceCtorEq, if_false] at hstep
        exact hstep ▸ .unrecorded ring item status rest acks hwrite
      · simp only [hwrite, Bool.false_eq_true, if_false, if_true] at hstep
        exact hstep ▸ .replaced ring item status rest acks st hcur hwrite
  | committing acks =>
      simp only [hstage] at hstep
      split_ifs at hstep with hok
      · obtain ⟨⟨store, ok⟩, hupd, hstep⟩ := Option.map_eq_some_iff.1 hstep
        obtain ⟨st, hcur, ⟨hwrite, rfl, rfl⟩ | ⟨hwrite, rfl, rfl⟩ | ⟨hwrite, rfl, rfl⟩⟩ :=
          Store.update_cases hupd
        · simp only [if_true] at hstep
          exact hstep ▸ .responded acks st _ hcur rfl
        · simp only [Bool.false_eq_true, if_false] at hstep
          exact hstep ▸ .ended _ (Or.inr ⟨acks, rfl⟩)
        · simp only [Bool.false_eq_true, if_false] at hstep
          exact hstep ▸ .uncommitted acks st _ hcur rfl
      · obtain rfl := Option.some.inj hstep
        exact .ended _ (Or.inr ⟨acks, rfl⟩)

omit [Graphemes] in
lemma HandleStep.handlers_eq {k j : ℕ} {h : Handler} {io : HandlerIO} {stage : Stage}
    (hstep : HandleStep w k h io stage w') (hj : j ≠ k) : w'.handlers j = w.handlers j := by
  cases hstep <;> simp [hj]

/-- What one step can do. -/
inductive PostStep (w : World) : Act → World → Prop
  | opened (hcur : w.store.current = none) :
      PostStep w .start ({ w with store := w.store.opened }.note (.opened w.store.file.acks))
  | stopped :
      PostStep w .stop
        { w with store := { w.store with current := none }, handlers := fun _ => none }
  | contacts (t : Table) : PostStep w (.contacts t) { w with table := t }
  | updated (s : State) (o : WriteOutcome) (store : Store) (ok : Bool)
      (hupd : w.store.update (fun st => { s with acks := st.acks }) o = some (store, ok)) :
      PostStep w (.other s o) { w with store := store }
  | requested (k : ℕ) (items : List OutboundItem) (maxLetterChars now : ℤ)
      (pututuCounterSeen : ℕ) (hnone : w.handlers k = none) :
      PostStep w (.request k items maxLetterChars now pututuCounterSeen)
        ((w.note (.requested k items)).setHandler k
          (some ⟨items, maxLetterChars, now, pututuCounterSeen, .received⟩))
  | handled (k : ℕ) (io : HandlerIO) (h : Handler) (w' : World) (hk : w.handlers k = some h)
      (hstep : handleStep w k h io = some w') : PostStep w (.handle k io) w'

theorem postStep_cases {act : Act} (h : step w act = some w') : PostStep w act w' := by
  unfold step at h
  cases act with
  | start =>
      dsimp only at h
      split at h
      · cases h
      next hcur =>
        obtain rfl := Option.some.inj h
        exact .opened hcur
  | stop =>
      obtain rfl := Option.some.inj h
      exact .stopped
  | contacts t =>
      obtain rfl := Option.some.inj h
      exact .contacts t
  | other s o =>
      obtain ⟨⟨store, ok⟩, hupd, rfl⟩ := Option.map_eq_some_iff.1 h
      exact .updated s o store ok hupd
  | request k items maxLetterChars now pututuCounterSeen =>
      dsimp only at h
      split at h
      next hnone =>
        obtain rfl := Option.some.inj h
        exact .requested k items maxLetterChars now pututuCounterSeen hnone
      · cases h
  | handle k io =>
      dsimp only at h
      split at h
      · cases h
      next handler hk => exact .handled k io handler w' hk h

/-- What a step of a handler logs: a response is the acks at hand, and a letter decided as sent was
taken by SMTP. -/
structure Logs (stage : Stage) (new : List Note) : Prop where
  responded : ∀ k items as, .responded k items as ∈ new → stage = .committing as
  sent : ∀ k item, .decided k item .sent ∈ new → .submitted k item true ∈ new

omit [Graphemes] in
lemma Processed.logs {k : ℕ} {item : OutboundItem} {n : Note} {log : List Note} (stage : Stage)
    (hlog : Processed k item w n log)
    (hn : (∃ status, n = .decided k item status) ∨ n = .failed k item) :
    ∃ new, log = new ++ w.log ∧ Logs stage new := by
  have hplain : (∀ j items as, .responded j items as ≠ n) ∧
      ∀ j item', .decided j item' .sent = n → n = .decided k item .sent ∧ j = k ∧ item' = item := by
    rcases hn with ⟨status, rfl⟩ | rfl
    · refine ⟨by simp, fun j item' heq => ?_⟩
      obtain ⟨rfl, rfl, rfl⟩ := Note.decided.inj heq
      simp
    · simp
  rcases hlog with ⟨rfl, hne⟩ | ⟨accepted, rfl, hsent⟩
  · refine ⟨[n], rfl, fun j items as hmem => ?_, fun j item' hmem => ?_⟩
    · exact absurd (List.mem_singleton.1 hmem) (hplain.1 j items as)
    · exact absurd (hplain.2 j item' (List.mem_singleton.1 hmem)).1 hne
  · refine ⟨[n, .submitted k item accepted], rfl, fun j items as hmem => ?_, fun j item' hmem => ?_⟩
    · rcases List.mem_cons.1 hmem with heq | hmem
      · exact absurd heq (hplain.1 j items as)
      · simp at hmem
    · rcases List.mem_cons.1 hmem with heq | hmem
      · obtain ⟨hn, rfl, rfl⟩ := hplain.2 j item' heq
        rw [hsent.2 hn]
        exact List.mem_cons_of_mem _ (List.mem_singleton_self _)
      · simp at hmem

omit [Graphemes] in
lemma HandleStep.logs {k : ℕ} {h : Handler} {io : HandlerIO} {stage : Stage}
    (hstep : HandleStep w k h io stage w') : ∃ new, w'.log = new ++ w.log ∧ Logs stage new := by
  cases hstep with
  | decided ring item rest acks status log hlog => exact hlog.logs _ (Or.inl ⟨status, rfl⟩)
  | unacked ring item rest acks log hlog => exact hlog.logs _ (Or.inr rfl)
  | aborted ring item rest acks log hlog => exact hlog.logs _ (Or.inr rfl)
  | recorded ring item status rest acks st hcur =>
      exact ⟨[.recorded (h.entry item status)], rfl, by simp, by simp⟩
  | replaced ring item status rest acks st hcur hwrite =>
      exact ⟨[.replaced (h.entry item status)], rfl, by simp, by simp⟩
  | responded acks st st' hcur hacks =>
      refine ⟨[.responded k h.items acks], rfl, fun j items as hmem => ?_, by simp⟩
      obtain ⟨-, -, rfl⟩ := Note.responded.inj (List.mem_singleton.1 hmem)
      rfl
  | _ => exact ⟨[], rfl, by simp, by simp⟩

/-- What a step logs. -/
lemma step_logs {act : Act} (hstep : step w act = some w') :
    ∃ new, w'.log = new ++ w.log ∧
      (∀ k items as, .responded k items as ∈ new →
        ∃ j h, w.handlers j = some h ∧ h.stage = .committing as) ∧
      ∀ k item, .decided k item .sent ∈ new → .submitted k item true ∈ new := by
  cases postStep_cases hstep with
  | opened hcur =>
      exact ⟨[.opened w.store.file.acks], rfl, by simp, by simp⟩
  | stopped | contacts | updated => exact ⟨[], rfl, by simp, by simp⟩
  | requested k items maxLetterChars now seen hnone =>
      exact ⟨[.requested k items], rfl, by simp, by simp⟩
  | handled k io h w' hk hstep =>
      obtain ⟨new, hlog, hlogs⟩ := (handleStep_cases hstep).logs
      exact ⟨new, hlog, fun j items as hmem => ⟨k, h, hk, hlogs.responded j items as hmem⟩,
        hlogs.sent⟩

/-- A request comes into being only by arriving. -/
lemma step_handlers_eq_none {act : Act} {j : ℕ} (hj : w.handlers j = none)
    (hact : ∀ items maxLetterChars now seen, act ≠ .request j items maxLetterChars now seen)
    (hstep : step w act = some w') : w'.handlers j = none := by
  cases postStep_cases hstep with
  | stopped => rfl
  | opened | contacts | updated => exact hj
  | requested k items maxLetterChars now seen hnone =>
      have hne : j ≠ k := fun heq => hact items maxLetterChars now seen (by rw [heq])
      simp [hne, hj]
  | handled k io h w' hk hstep =>
      have hne : j ≠ k := fun heq => by rw [heq, hk] at hj; cases hj
      rw [(handleStep_cases hstep).handlers_eq hne, hj]

/-- The act is not the arrival of a request numbered `n` or above. -/
def Act.Below (n : ℕ) : Act → Prop
  | .request k _ _ _ _ => k < n
  | _ => True

instance (n : ℕ) : DecidablePred (Act.Below n) := fun act =>
  match act with
  | .request k _ _ _ _ => inferInstanceAs (Decidable (k < n))
  | .start | .stop | .contacts _ | .other .. | .handle .. => isTrue trivial

/-- Where requests are numbered below `n`, no other handler is ever in progress. -/
lemma step_handlers_below {n : ℕ} (hw : ∀ k, n ≤ k → w.handlers k = none) {act : Act}
    (hact : act.Below n) (hstep : step w act = some w') : ∀ k, n ≤ k → w'.handlers k = none := by
  intro k hk
  refine step_handlers_eq_none (hw k hk) (fun items maxLetterChars now seen heq => ?_) hstep
  rw [heq] at hact
  exact absurd hact (not_lt.2 hk)

end Post

/-! ## A sample post office -/

namespace Sample

/-- One cluster a character. -/
@[reducible]
def graphemes : Graphemes := ⟨String.length⟩

/-- No process runs; the only contact is Rosa, active; nothing is remembered. -/
def post : Post.World where
  store := ⟨{}, none⟩
  table := onlyRosa true
  handlers := fun _ => none
  log := []

/-- A letter to Rosa. -/
def toRosa (localID body : String) (composed : ℕ) : OutboundItem where
  letter := { localID := localID, contactID := "c_01", body := body }
  composed := composed

/-- Request `k` arrives, carrying these letters. -/
def posts (k : ℕ) (items : List OutboundItem) : Post.Act := .request k items 100 0 0

/-- A step of request `k`, with everything answered as it should be. -/
def handleOk (k : ℕ) : Post.Act := .handle k {}

end Sample
end Chaskiwasi
