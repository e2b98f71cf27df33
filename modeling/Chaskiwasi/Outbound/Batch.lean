import Chaskiwasi.Outbound.Handler
import Chaskiwasi.Outbound.Letter
import Mathlib.Data.Finset.Card
import Mathlib.Data.Finset.SDiff

/-!
# The letters of one request

A request brings letters, and the server works through them one after the other.  Each should fare
as if it had been sent alone.  Only a local id that stands twice is different: once it has been
acked, its ack is repeated.

Two things can go wrong.  A letter that cannot be read takes the whole request with it.  And the
ring is bounded: an entry that answers a letter further down may be pushed out by the letters
before it, which then is submitted once more.  `batch_alone_iff` says that there is nothing else.
-/

namespace Chaskiwasi.Outbound.Batch

open Chaskiwasi.Outbound.Letter

/-- How one letter of a request fared. -/
structure Outcome where
  localID : String
  /-- It was handed to SMTP. -/
  submitted : Bool
  ack : Option AckStatus
  deriving DecidableEq, Repr

/-- What a request is handled with. -/
structure Setting where
  table : Table
  maxLetterChars : ℤ
  now : ℤ

section Handling

variable [Graphemes]

/-- One letter: how it fares, and what is recorded for it. -/
def processOne (c : Setting) (ring : AckRing) (item : OutboundItem) (io : SendIO) :
    Option (Outcome × Option AckEntry) :=
  let localID := item.letter.localID
  match ring.lookup localID with
  | some e => some (⟨localID, false, some e.status⟩, none)
  | none =>
      let submitted := submits c.table io item c.maxLetterChars
      match sendOne c.table io item c.maxLetterChars with
      | .ok status => some (⟨localID, submitted, some status⟩, some ⟨localID, status, c.now, item⟩)
      | .error .unreachable => none
      | .error .other => some (⟨localID, submitted, none⟩, none)

/-- The ring with what was recorded. -/
def recorded (ring : AckRing) (e : Option AckEntry) : AckRing := e.elim ring ring.record

/-- `processOutbound`, where every ack can be written; `none` where SMTP cannot be reached. -/
def processOutbound (c : Setting) : AckRing → List (OutboundItem × SendIO) → Option (List Outcome)
  | _, [] => some []
  | ring, (item, io) :: rest =>
      (processOne c ring item io).bind fun (o, e) =>
        (processOutbound c (recorded ring e) rest).map (o :: ·)

/-- The acks of the response. -/
def acks (os : List Outcome) : List (String × AckStatus) :=
  os.filterMap fun o => o.ack.map (o.localID, ·)

/-- The letters of a request whose body has so many bytes. -/
def handleBatch (c : Setting) (ring : AckRing) (raws : List Json) (ios : List SendIO) (bytes : ℕ) :
    Option (List Outcome) :=
  if Codec.maxRequestBytes < bytes then none
  else (raws.mapM decodeOutbound).bind fun items => processOutbound c ring (items.zip ios)

/-! ## Each letter alone -/

/-- How each letter fares in a request of its own; once a local id has been acked, its ack is
repeated. -/
def eachAlone (c : Setting) (ring : AckRing) :
    List (String × AckStatus) → List (OutboundItem × SendIO) → Option (List Outcome)
  | _, [] => some []
  | acked, (item, io) :: rest =>
      match acked.lookup item.letter.localID with
      | some status =>
          (eachAlone c ring acked rest).map (⟨item.letter.localID, false, some status⟩ :: ·)
      | none =>
          match processOutbound c ring [(item, io)] with
          | some [o] =>
              (eachAlone c ring ((o.ack.map (o.localID, ·)).toList ++ acked) rest).map (o :: ·)
          | _ => none

/-- The request is handled, and each letter fares as if it had been sent alone. -/
def Alone (c : Setting) (ring : AckRing) (raws : List Json) (ios : List SendIO) (bytes : ℕ) :
    Prop :=
  ∃ items os, raws.mapM decodeOutbound = some items ∧
    handleBatch c ring raws ios bytes = some os ∧ eachAlone c ring [] (items.zip ios) = some os

/-! ## The handler's steps -/

/-- The letters that were handed to SMTP, newest first. -/
def submittedIDs (log : List Post.Note) : List String :=
  log.filterMap fun
    | .submitted _ item _ => some item.letter.localID
    | _ => none

section Steps

variable {c : Setting} {k : ℕ} {h : Post.Handler} {w : Post.World} {ring : AckRing}
  {es : List AckEntry} {item : OutboundItem} {io : SendIO} {rest : List OutboundItem} {st : State}

/-- A letter that is new is sent, with the outcome for the handler to record or to leave. -/
lemma exists_step_sending (io : SendIO)
    (hk : w.handlers k = some { h with stage := .sending ring item rest es }) :
    ∃ log, (submittedIDs log).reverse = (submittedIDs w.log).reverse ++
        (if submits w.table io item h.maxLetterChars then [item.letter.localID] else []) ∧
      Post.step w (.handle k { send := io }) =
        match sendOne w.table io item h.maxLetterChars with
        | .ok status => some ({ w with log := log }.setHandler k
            (some { h with stage := .recording ring item status rest es }))
        | .error .unreachable => some ({ w with log := log }.setHandler k none)
        | .error .other => some ({ w with log := log }.setHandler k
            (some { h with stage := .looking ring rest es })) := by
  cases hsubmits : submits w.table io item h.maxLetterChars with
  | true =>
      cases hsend : sendOne w.table io item h.maxLetterChars with
      | ok status =>
          refine ⟨.decided k item status :: .submitted k item (io.reply = .accepted) :: w.log,
            by simp [submittedIDs], ?_⟩
          simp [Post.step, Post.handleStep, hk, hsubmits, hsend, Post.World.note]
      | error err =>
          refine ⟨.failed k item :: .submitted k item (io.reply = .accepted) :: w.log,
            by simp [submittedIDs], ?_⟩
          cases err <;>
            simp [Post.step, Post.handleStep, hk, hsubmits, hsend, Post.World.note]
  | false =>
      cases hsend : sendOne w.table io item h.maxLetterChars with
      | ok status =>
          refine ⟨.decided k item status :: w.log, by simp [submittedIDs], ?_⟩
          simp [Post.step, Post.handleStep, hk, hsubmits, hsend, Post.World.note]
      | error err =>
          refine ⟨.failed k item :: w.log, by simp [submittedIDs], ?_⟩
          cases err <;>
            simp [Post.step, Post.handleStep, hk, hsubmits, hsend, Post.World.note]

/-- A status that can be written is in the ring and in the acks of the handler. -/
lemma step_recording {status : AckStatus} {e : AckEntry}
    (hk : w.handlers k = some { h with stage := .recording ring item status rest es })
    (hcur : w.store.current = some st) (he : h.entry item status = e) :
    Post.step w (.handle k {}) =
      some (({ w with store := ⟨Post.recordAck e st, some (Post.recordAck e st)⟩ }.note
          (.recorded e)).setHandler k
        (some { h with stage := .looking (ring.record e) rest (es ++ [e]) })) := by
  subst he
  simp only [Post.step, hk, Post.handleStep, Store.update, hcur]
  rfl

/-- What the loop does for one letter, the handler does in one step, in two or in three. -/
lemma exists_run_processOne {o : Outcome} {entry : Option AckEntry} (htable : w.table = c.table)
    (hmax : h.maxLetterChars = c.maxLetterChars) (hnow : h.now = c.now)
    (hcur : w.store.current = some st)
    (hk : w.handlers k = some { h with stage := .looking ring (item :: rest) es })
    (hone : processOne c ring item io = some (o, entry)) :
    ∃ acts w' es' st', Run.run Post.step w acts = some w' ∧
      (∀ act ∈ acts, ∃ f, act = .handle k f) ∧ w'.table = c.table ∧
      w'.store.current = some st' ∧ st'.acks = recorded st.acks entry ∧
      w'.handlers k = some { h with stage := .looking (recorded ring entry) rest (es ++ es') } ∧
      es'.map (fun e => (e.localID, e.status)) = acks [o] ∧
      (submittedIDs w'.log).reverse = (submittedIDs w.log).reverse ++
        (if o.submitted then [o.localID] else []) := by
  cases hlookup : ring.lookup item.letter.localID with
  | some e =>
      simp only [processOne, hlookup, Option.some.injEq, Prod.mk.injEq] at hone
      obtain ⟨rfl, rfl⟩ := hone
      refine ⟨[.handle k {}],
        w.setHandler k (some { h with stage := .looking ring rest (es ++ [e]) }), [e], st, ?_,
        by simp, htable, hcur, rfl, ?_, ?_, ?_⟩
      · simp [Run.run, Post.step, Post.handleStep, hk, hlookup]
      · simp [recorded]
      · simp [acks, (AckRing.localID_of_lookup hlookup).2]
      · simp
  | none =>
      have hfresh : Post.step w (.handle k {}) =
          some (w.setHandler k (some { h with stage := .sending ring item rest es })) := by
        simp [Post.step, Post.handleStep, hk, hlookup]
      set w₁ := w.setHandler k (some { h with stage := .sending ring item rest es }) with hw₁
      have hk₁ : w₁.handlers k = some { h with stage := .sending ring item rest es } := by
        simp [hw₁]
      obtain ⟨log, hlog, hsent⟩ := exists_step_sending io hk₁
      have htable₁ : w₁.table = c.table := htable
      cases hsend : sendOne c.table io item c.maxLetterChars with
      | ok status =>
          simp only [processOne, hlookup, hsend, Option.some.injEq, Prod.mk.injEq] at hone
          obtain ⟨rfl, rfl⟩ := hone
          rw [← hmax, ← htable₁] at hsend
          simp only [hsend] at hsent
          set e : AckEntry := ⟨item.letter.localID, status, c.now, item⟩ with he
          set w₂ := { w₁ with log := log }.setHandler k
            (some { h with stage := .recording ring item status rest es }) with hw₂
          have hk₂ : w₂.handlers k =
              some { h with stage := .recording ring item status rest es } := by
            simp [hw₂]
          have hrecord := step_recording (e := e) hk₂ hcur (by rw [he, ← hnow]; rfl)
          refine ⟨[.handle k {}, .handle k { send := io }, .handle k {}],
            ({ w₂ with store := ⟨Post.recordAck e st, some (Post.recordAck e st)⟩ }.note
                (.recorded e)).setHandler k
              (some { h with stage := .looking (ring.record e) rest (es ++ [e]) }),
            [e], Post.recordAck e st, ?_, by simp, htable, rfl, rfl, ?_, rfl, ?_⟩
          · rw [Run.run, hfresh, Option.bind_some, Run.run, hsent, Option.bind_some, Run.run,
              hrecord, Option.bind_some, Run.run]
          · simp [recorded]
          · simpa [submittedIDs, hw₁, hw₂, htable, hmax] using hlog
      | error err =>
          cases err with
          | unreachable =>
              simp only [processOne, hlookup, hsend] at hone
              cases hone
          | other =>
              simp only [processOne, hlookup, hsend, Option.some.injEq, Prod.mk.injEq] at hone
              obtain ⟨rfl, rfl⟩ := hone
              rw [← hmax, ← htable₁] at hsend
              simp only [hsend] at hsent
              refine ⟨[.handle k {}, .handle k { send := io }],
                ({ w₁ with log := log }.setHandler k
                  (some { h with stage := .looking ring rest es })),
                [], st, ?_, by simp, htable, hcur, rfl, ?_, rfl, ?_⟩
              · rw [Run.run, hfresh, Option.bind_some, Run.run, hsent, Option.bind_some, Run.run]
              · simp [recorded]
              · simpa [submittedIDs, hw₁, htable, hmax] using hlog

/-- What the loop does, the handler does step by step. -/
theorem run_processOutbound {xs : List (OutboundItem × SendIO)} {os : List Outcome}
    (htable : w.table = c.table) (hmax : h.maxLetterChars = c.maxLetterChars)
    (hnow : h.now = c.now) (hcur : w.store.current = some st)
    (hk : w.handlers k = some { h with stage := .looking ring (xs.map Prod.fst) es })
    (hos : processOutbound c ring xs = some os) :
    ∃ acts w' es', Run.run Post.step w acts = some w' ∧
      w'.handlers k = some { h with stage := .committing (es ++ es') } ∧
      es'.map (fun e => (e.localID, e.status)) = acks os ∧
      (submittedIDs w'.log).reverse = (submittedIDs w.log).reverse ++
        (os.filter Outcome.submitted).map Outcome.localID := by
  induction xs generalizing w ring es os st with
  | nil =>
      obtain rfl := Option.some.inj hos
      refine ⟨[.handle k {}], w.setHandler k (some { h with stage := .committing es }), [], ?_, ?_,
        rfl, ?_⟩
      · simp [Run.run, Post.step, Post.handleStep, hk]
      · simp
      · simp
  | cons x xs ih =>
      obtain ⟨item, io⟩ := x
      rw [processOutbound, Option.bind_eq_some_iff] at hos
      obtain ⟨⟨o, entry⟩, hone, hos⟩ := hos
      obtain ⟨os', hos', rfl⟩ := Option.map_eq_some_iff.1 hos
      obtain ⟨acts₁, w₁, es₁, st₁, hrun₁, -, htable₁, hcur₁, -, hk₁, hacks₁, hlog₁⟩ :=
        exists_run_processOne htable hmax hnow hcur hk hone
      obtain ⟨acts₂, w₂, es₂, hrun₂, hk₂, hacks₂, hlog₂⟩ := ih htable₁ hcur₁ hk₁ hos'
      refine ⟨acts₁ ++ acts₂, w₂, es₁ ++ es₂, ?_, ?_, ?_, ?_⟩
      · exact Run.run_append_eq_some.2 ⟨w₁, hrun₁, hrun₂⟩
      · rw [hk₂, List.append_assoc]
      · rw [List.map_append, hacks₁, hacks₂]
        exact List.filterMap_append.symm
      · rw [hlog₂, hlog₁, List.append_assoc, List.filter_cons]
        cases o.submitted with
        | true => simp
        | false => simp

end Steps

end Handling

/-! ## One letter -/

section One

variable [Graphemes] {c : Setting} {ring r : AckRing} {item : OutboundItem} {io : SendIO}
  {e : AckEntry} {acked : List (String × AckStatus)} {rest : List (OutboundItem × SendIO)}

lemma processOne_of_lookup (io : SendIO) (h : ring.lookup item.letter.localID = some e) :
    processOne c ring item io = some (⟨item.letter.localID, false, some e.status⟩, none) := by
  simp only [processOne, h]

lemma sendOne_ne_unreachable {t : Table} {maxLetterChars : ℤ} (hio : io.reply ≠ .unreachable) :
    sendOne t io item maxLetterChars ≠ .error .unreachable := by
  unfold sendOne
  cases recipient t item maxLetterChars with
  | error status => simp
  | ok contact =>
      cases hbuilt : io.built with
      | false => simp
      | true =>
          cases hreply : io.reply with
          | unreachable => exact absurd hreply hio
          | _ => simp

/-- A letter that is new to the ring. -/
lemma processOne_new (h : ring.lookup item.letter.localID = none) (hio : io.reply ≠ .unreachable) :
    ∃ o entry, processOne c ring item io = some (o, entry) ∧ o.localID = item.letter.localID ∧
      (entry = none ∧ o.ack = none ∧
          (∀ status, sendOne c.table io item c.maxLetterChars ≠ .ok status) ∨
        ∃ a, entry = some a ∧ a.localID = item.letter.localID ∧ o.ack = some a.status ∧
          o.submitted = submits c.table io item c.maxLetterChars ∧
          sendOne c.table io item c.maxLetterChars = .ok a.status) := by
  cases hsend : sendOne c.table io item c.maxLetterChars with
  | ok status =>
      refine ⟨⟨item.letter.localID, submits c.table io item c.maxLetterChars, some status⟩,
        some ⟨item.letter.localID, status, c.now, item⟩, ?_, rfl,
        Or.inr ⟨_, rfl, rfl, rfl, rfl, rfl⟩⟩
      simp only [processOne, h, hsend]
  | error err =>
      cases err with
      | unreachable => exact absurd hsend (sendOne_ne_unreachable hio)
      | other =>
          refine ⟨⟨item.letter.localID, submits c.table io item c.maxLetterChars, none⟩, none, ?_,
            rfl, Or.inl ⟨rfl, rfl, fun status hok => by cases hok⟩⟩
          simp only [processOne, h, hsend]

lemma processOne_congr (h : ring.lookup item.letter.localID = none)
    (hr : r.lookup item.letter.localID = none) :
    processOne c r item io = processOne c ring item io := by
  simp only [processOne, h, hr]

lemma processOutbound_cons {o : Outcome} {entry : Option AckEntry}
    (h : processOne c ring item io = some (o, entry)) :
    processOutbound c ring ((item, io) :: rest) =
      (processOutbound c (recorded ring entry) rest).map (o :: ·) := by
  rw [processOutbound, h, Option.bind_some]

lemma eachAlone_again {status : AckStatus} (h : acked.lookup item.letter.localID = some status) :
    eachAlone c ring acked ((item, io) :: rest) =
      (eachAlone c ring acked rest).map (⟨item.letter.localID, false, some status⟩ :: ·) := by
  simp only [eachAlone, h]

lemma eachAlone_new {o : Outcome} {entry : Option AckEntry}
    (h : acked.lookup item.letter.localID = none)
    (hone : processOne c ring item io = some (o, entry)) :
    eachAlone c ring acked ((item, io) :: rest) =
      (eachAlone c ring ((o.ack.map (o.localID, ·)).toList ++ acked) rest).map (o :: ·) := by
  have halone : processOutbound c ring [(item, io)] = some [o] := by
    rw [processOutbound_cons hone]
    rfl
  simp only [eachAlone, h, halone]

end One

/-! ## What the ring keeps -/

/-- The ring after some letters, of which those with the ids `K` were new and have been recorded. -/
structure Kept (ring : AckRing) (K : Finset String) (r : AckRing)
    (acked : List (String × AckStatus)) : Prop where
  old : ∀ id e d, ring.Holds id e d → d + K.card < ackRingSize → r.Holds id e (d + K.card)
  oldAcked : ∀ id e s, ring.lookup id = some e → acked.lookup id = some s → s = e.status
  new : ∀ id ∈ K, ring.lookup id = none ∧
    ∃ e d, acked.lookup id = some e.status ∧ r.Holds id e d ∧ d < K.card
  unseen : ∀ id, ring.lookup id = none → id ∉ K → r.lookup id = none ∧ acked.lookup id = none

lemma kept_init (ring : AckRing) : Kept ring ∅ ring [] where
  old := fun _ _ _ h _ => h
  oldAcked := fun _ _ _ _ h => by cases h
  new := fun _ h => absurd h (Finset.notMem_empty _)
  unseen := fun _ h _ => ⟨h, rfl⟩

lemma lookup_cons_self (id : String) (s : AckStatus) (acked : List (String × AckStatus)) :
    ((id, s) :: acked).lookup id = some s := by
  exact List.lookup_cons_self

lemma lookup_cons_of_ne {id id' : String} (h : id' ≠ id) (s : AckStatus)
    (acked : List (String × AckStatus)) : ((id, s) :: acked).lookup id' = acked.lookup id' := by
  rw [List.lookup_cons, beq_eq_false_iff_ne.2 h]

section Kept

variable {ring r : AckRing} {K : Finset String} {acked : List (String × AckStatus)}
  {c : Setting} {item : OutboundItem} {io : SendIO} {e : AckEntry}

/-- An entry of before is acked again. -/
lemma Kept.ackOld (h : Kept ring K r acked) {id : String} (he : ring.lookup id = some e) :
    Kept ring K r ((id, e.status) :: acked) where
  old := h.old
  oldAcked := by
    intro id' e' s he' hs
    by_cases hid : id' = id
    · subst hid
      rw [lookup_cons_self] at hs
      rw [← Option.some.inj hs, Option.some.inj (he.symm.trans he')]
    · rw [lookup_cons_of_ne hid] at hs
      exact h.oldAcked id' e' s he' hs
  new := by
    intro id' hid'
    obtain ⟨hnone, e', d, hacked, hholds, hd⟩ := h.new id' hid'
    have hne : id' ≠ id := by
      rintro rfl
      rw [he] at hnone
      cases hnone
    exact ⟨hnone, e', d, by rw [lookup_cons_of_ne hne, hacked], hholds, hd⟩
  unseen := by
    intro id' hnone hid'
    have hne : id' ≠ id := by
      rintro rfl
      rw [he] at hnone
      cases hnone
    rw [lookup_cons_of_ne hne]
    exact h.unseen id' hnone hid'

/-- A new letter is recorded. -/
lemma Kept.record (h : Kept ring K r acked) (hK : K.card < ackRingSize) {a : AckEntry}
    (hnone : ring.lookup a.localID = none) (hnew : a.localID ∉ K) :
    Kept ring (insert a.localID K) (r.record a) ((a.localID, a.status) :: acked) where
  old := by
    intro id e d hholds hd
    rw [Finset.card_insert_of_notMem hnew] at hd ⊢
    have hne : a.localID ≠ id := by
      rintro rfl
      rw [hholds.lookup_eq] at hnone
      cases hnone
    exact (h.old id e d hholds (by omega)).record hne (by omega)
  oldAcked := by
    intro id e s he hs
    have hne : id ≠ a.localID := by
      rintro rfl
      rw [he] at hnone
      cases hnone
    rw [lookup_cons_of_ne hne] at hs
    exact h.oldAcked id e s he hs
  new := by
    intro id hid
    rw [Finset.card_insert_of_notMem hnew]
    by_cases heq : id = a.localID
    · subst heq
      exact ⟨hnone, a, 0, lookup_cons_self _ _ _, AckRing.holds_record_self r a, by omega⟩
    · obtain ⟨hnone', e, d, hacked, hholds, hd⟩ :=
        h.new id ((Finset.mem_insert.1 hid).resolve_left heq)
      exact ⟨hnone', e, d + 1, by rw [lookup_cons_of_ne heq, hacked],
        hholds.record (Ne.symm heq) (by omega), by omega⟩
  unseen := by
    intro id hnone' hid
    rw [Finset.mem_insert, not_or] at hid
    obtain ⟨hr, hacked⟩ := h.unseen id hnone' hid.2
    rw [lookup_cons_of_ne hid.1]
    refine ⟨?_, hacked⟩
    rw [AckRing.lookup_eq_none_iff] at hr ⊢
    intro e he
    rcases AckRing.mem_record he with he | rfl
    · exact hr e he
    · exact Ne.symm hid.1

/-- How the ring moves on with a letter. -/
inductive Moves (ring : AckRing) (K : Finset String) (r : AckRing) (id : String) :
    Finset String → AckRing → Prop
  | stays : Moves ring K r id K r
  | records (a : AckEntry) (hid : a.localID = id) (hnone : ring.lookup id = none) (hnew : id ∉ K) :
      Moves ring K r id (insert id K) (r.record a)

variable [Graphemes]

/-- A letter whose entry, if there was one, is still there fares as if it were alone. -/
theorem Kept.step (h : Kept ring K r acked) (hK : K.card < ackRingSize)
    (hio : io.reply ≠ .unreachable)
    (hheld : ∀ e, ring.lookup item.letter.localID = some e →
      r.lookup item.letter.localID = some e) :
    ∃ o K' r' acked', Kept ring K' r' acked' ∧ Moves ring K r item.letter.localID K' r' ∧
      (∀ rest, processOutbound c r ((item, io) :: rest) =
        (processOutbound c r' rest).map (o :: ·)) ∧
      (∀ rest, eachAlone c ring acked ((item, io) :: rest) =
        (eachAlone c ring acked' rest).map (o :: ·)) ∧
      ∀ status, sendOne c.table io item c.maxLetterChars = .ok status →
        ring.lookup item.letter.localID = none → item.letter.localID ∈ K' := by
  cases hring : ring.lookup item.letter.localID with
  | some e =>
      -- The ring answers, as it would alone.
      have hone := processOne_of_lookup (c := c) io (hheld e hring)
      cases hacked : acked.lookup item.letter.localID with
      | some s =>
          refine ⟨_, K, r, acked, h, .stays, fun rest => processOutbound_cons hone, fun rest => ?_,
            fun _ _ hnone => by cases hnone⟩
          rw [eachAlone_again hacked, h.oldAcked _ e s hring hacked]
      | none =>
          have halone := processOne_of_lookup (c := c) io hring
          exact ⟨_, K, r, _, h.ackOld hring, .stays, fun rest => processOutbound_cons hone,
            fun rest => eachAlone_new hacked halone, fun _ _ hnone => by cases hnone⟩
  | none =>
      by_cases hmem : item.letter.localID ∈ K
      · -- It was recorded for an earlier letter of the request.
        obtain ⟨-, e, d, hacked, hholds, -⟩ := h.new _ hmem
        have hone := processOne_of_lookup (c := c) io hholds.lookup_eq
        exact ⟨_, K, r, acked, h, .stays, fun rest => processOutbound_cons hone,
          fun rest => eachAlone_again hacked, fun _ _ _ => hmem⟩
      · obtain ⟨hr, hacked⟩ := h.unseen _ hring hmem
        obtain ⟨o, entry, hone, hid, hcases⟩ := processOne_new (c := c) hring hio
        have hone' := (processOne_congr hring hr).trans hone
        rcases hcases with ⟨rfl, hack, hfailed⟩ | ⟨a, rfl, ha, hack, -, -⟩
        · refine ⟨o, K, r, acked, h, .stays, fun rest => processOutbound_cons hone', fun rest => ?_,
            fun status hok _ => absurd hok (hfailed status)⟩
          rw [eachAlone_new hacked hone, hack]
          rfl
        · have hkept := h.record hK (by rw [ha]; exact hring) (by rw [ha]; exact hmem)
          rw [ha] at hkept
          refine ⟨o, _, _, _, hkept, .records a ha hring hmem,
            fun rest => processOutbound_cons hone', fun rest => ?_,
            fun _ _ _ => Finset.mem_insert_self _ _⟩
          rw [eachAlone_new hacked hone, hack, hid]
          rfl

end Kept

/-! ## The letters one after the other -/

/-- The local ids of some letters. -/
def localIDs (xs : List (OutboundItem × SendIO)) : List String :=
  xs.map fun x => x.1.letter.localID

/-- How many entries are newer than the newest one with an id. -/
def newerThan (id : String) (ids : List String) : ℕ := ids.reverse.findIdx (· = id)

/-- The different ids that are not among those of the ring. -/
def fresh (ids pre : List String) : Finset String := pre.toFinset.filter (· ∉ ids)

/-- When a letter is reached whose id is in the ring, its entry is still there, even if all the
letters before it that are new have been recorded. -/
def Roomy (ids localIDs : List String) : Prop :=
  ∀ pre id post, localIDs = pre ++ id :: post → id ∈ ids →
    newerThan id ids + (fresh ids pre).card < ackRingSize

section Sequence

variable {ring r : AckRing} {K : Finset String} {acked : List (String × AckStatus)}
  {ids : List String} {xs : List (OutboundItem × SendIO)}

lemma mem_ids_iff (hids : ring.entries.map AckEntry.localID = ids) {id : String} :
    id ∈ ids ↔ ring.lookup id ≠ none := by
  rw [Ne, AckRing.lookup_eq_none_iff, ← hids, List.mem_map]
  push Not
  rfl

lemma holds_of_lookup (hids : ring.entries.map AckEntry.localID = ids) {id : String} {e : AckEntry}
    (he : ring.lookup id = some e) : ring.Holds id e (newerThan id ids) := by
  have hidx : newerThan id ids = ring.entries.reverse.findIdx (AckEntry.isFor id) := by
    rw [newerThan, ← hids, ← List.map_reverse, List.findIdx_map]
    rfl
  rw [hidx]
  exact Ring.within_findIdx he

lemma card_moves {K' : Finset String} {r' : AckRing} {id : String}
    (h : Moves ring K r id K' r') : K'.card ≤ K.card + 1 := by
  cases h with
  | stays => omega
  | records a hid hnone hnew => exact Finset.card_insert_le _ _

/-- What is recorded with a letter is new, and counted with the letter. -/
lemma subset_moves (hids : ring.entries.map AckEntry.localID = ids) {K' : Finset String}
    {r' : AckRing} {id : String} (h : Moves ring K r id K' r') (pre : List String) :
    K' ∪ fresh ids pre ⊆ K ∪ fresh ids (id :: pre) := by
  have hpre : fresh ids pre ⊆ fresh ids (id :: pre) := by
    apply Finset.filter_subset_filter
    rw [List.toFinset_cons]
    exact Finset.subset_insert _ _
  cases h with
  | stays => exact Finset.union_subset_union_right hpre
  | records a hid hnone hnew =>
      intro id' hmem
      rw [Finset.mem_union, Finset.mem_insert] at hmem
      rw [Finset.mem_union]
      rcases hmem with (rfl | hmem) | hmem
      · refine Or.inr (Finset.mem_filter.2 ⟨by simp, ?_⟩)
        rw [mem_ids_iff hids, hnone]
        exact fun hne => hne rfl
      · exact Or.inl hmem
      · exact Or.inr (hpre hmem)

variable [Graphemes] {c : Setting}

/-- Where the ring has room, each letter fares as if it were alone. -/
theorem eachAlone_of_roomy (hids : ring.entries.map AckEntry.localID = ids)
    (h : Kept ring K r acked) (hsize : K.card + xs.length ≤ ackRingSize)
    (hios : ∀ x ∈ xs, x.2.reply ≠ .unreachable)
    (hroomy : ∀ pre id post, localIDs xs = pre ++ id :: post → id ∈ ids →
      newerThan id ids + (K ∪ fresh ids pre).card < ackRingSize) :
    ∃ os, processOutbound c r xs = some os ∧ eachAlone c ring acked xs = some os := by
  induction xs generalizing K r acked with
  | nil => exact ⟨[], rfl, rfl⟩
  | cons x xs ih =>
      obtain ⟨item, io⟩ := x
      rw [List.length_cons] at hsize
      have hheld : ∀ e, ring.lookup item.letter.localID = some e →
          r.lookup item.letter.localID = some e := by
        intro e he
        have hroom := hroomy [] _ (localIDs xs) rfl ((mem_ids_iff hids).2 (by rw [he]; simp))
        rw [show fresh ids [] = ∅ from rfl, Finset.union_empty] at hroom
        exact (h.old _ e _ (holds_of_lookup hids he) hroom).lookup_eq
      obtain ⟨o, K', r', acked', hkept, hmoves, hprocess, halone, -⟩ :=
        h.step (c := c) (by omega) (hios _ List.mem_cons_self) hheld
      obtain ⟨os, hos, hos'⟩ := ih hkept (by have := card_moves hmoves; omega)
        (fun x hx => hios x (List.mem_cons_of_mem _ hx)) (by
          intro pre id post hsplit hid
          have hroom := hroomy (item.letter.localID :: pre) id post
            (by rw [List.cons_append, ← hsplit]; rfl) hid
          have hcard := Finset.card_le_card (subset_moves hids hmoves pre)
          omega)
      exact ⟨o :: os, by rw [hprocess, hos]; rfl, by rw [halone, hos']; rfl⟩

/-! ## Where the ring has no room -/

/-- The ids in the ring, when those of `L` have been recorded in it. -/
def Written (ids L : List String) (r : AckRing) : Prop :=
  r.entries.map AckEntry.localID = (ids ++ L).drop ((ids ++ L).length - ackRingSize)

omit [Graphemes] in
lemma Written.record {L : List String} (h : Written ids L r) (a : AckEntry) :
    Written ids (L ++ [a.localID]) (r.record a) := by
  rw [Written, AckRing.entries_record, Ring.map_push, h, Ring.push_drop, List.append_assoc]

omit [Graphemes] in
/-- An entry that is too old is gone. -/
lemma Written.lookup_eq_none {L : List String} (h : Written ids L r) {id : String} (hid : id ∉ L)
    (hold : ackRingSize ≤ newerThan id ids + L.length) : r.lookup id = none := by
  rw [AckRing.lookup_eq_none_iff]
  intro e he heq
  have hmem : id ∈ (ids ++ L).drop ((ids ++ L).length - ackRingSize) := by
    rw [← h, ← heq]
    exact List.mem_map_of_mem he
  rw [List.drop_append, List.mem_append] at hmem
  rcases hmem with hmem | hmem
  · have hle : ids.length ≤ (ids ++ L).length - ackRingSize +
        ids.reverse.findIdx fun id' => decide (id' = id) := by
      have hdef : newerThan id ids = ids.reverse.findIdx fun id' => decide (id' = id) := rfl
      rw [List.length_append]
      omega
    have hnot := Ring.not_of_mem_drop hle id hmem
    simp at hnot
  · exact hid (List.mem_of_mem_drop hmem)

/-- The letters are all rejected, which the entries of before were not.  Where each fares as if it
were alone, none of those entries was pushed out before its turn. -/
theorem roomy_of_eachAlone (hids : ring.entries.map AckEntry.localID = ids)
    (hstatus : ∀ e ∈ ring.entries, e.status = .invalid)
    (hsend : ∀ item io, sendOne c.table io item c.maxLetterChars = .ok .rejectedUnknownContact)
    {L : List String} (h : Kept ring K r acked) (hwritten : Written ids L r)
    (hL : ∀ id, id ∈ L ↔ id ∈ K) (hcard : L.length = K.card)
    (hsize : K.card + xs.length ≤ ackRingSize) (hios : ∀ x ∈ xs, x.2.reply ≠ .unreachable)
    {os : List Outcome} (hprocess : processOutbound c r xs = some os)
    (halone : eachAlone c ring acked xs = some os) :
    ∀ pre id post, localIDs xs = pre ++ id :: post → id ∈ ids →
      newerThan id ids + (K ∪ fresh ids pre).card < ackRingSize := by
  induction xs generalizing K r acked L os with
  | nil =>
      intro pre id post hsplit
      simp [localIDs] at hsplit
  | cons x xs ih =>
      obtain ⟨item, io⟩ := x
      rw [List.length_cons] at hsize
      have hio : io.reply ≠ .unreachable := hios (item, io) List.mem_cons_self
      have hhead : item.letter.localID ∈ ids →
          newerThan item.letter.localID ids + K.card < ackRingSize := by
        intro hid
        by_contra hfull
        obtain ⟨e, he⟩ := Option.ne_none_iff_exists'.1 ((mem_ids_iff hids).1 hid)
        have hinvalid : e.status = .invalid := hstatus e (AckRing.localID_of_lookup he).1
        have hnotMem : item.letter.localID ∉ L := by
          rw [hL]
          intro hK
          rw [(h.new _ hK).1] at he
          cases he
        have hnone := hwritten.lookup_eq_none hnotMem (by omega)
        -- Here it is rejected, and alone it would have been acked as before.
        obtain ⟨o, entry, hone, -, hcases⟩ := processOne_new (c := c) hnone hio
        rcases hcases with ⟨-, -, hfailed⟩ | ⟨a, -, -, hack, -, hok⟩
        · exact hfailed _ (hsend item io)
        · rw [processOutbound_cons hone, Option.map_eq_some_iff] at hprocess
          obtain ⟨os₁, -, rfl⟩ := hprocess
          have hrejected : a.status = .rejectedUnknownContact := by
            rw [hsend] at hok
            exact (Except.ok.inj hok).symm
          have hother : o.ack = some .invalid := by
            cases hacked : acked.lookup item.letter.localID with
            | some s =>
                rw [eachAlone_again hacked, Option.map_eq_some_iff] at halone
                obtain ⟨os₂, -, heq⟩ := halone
                rw [← (List.cons.inj heq).1, h.oldAcked _ e s he hacked, hinvalid]
            | none =>
                rw [eachAlone_new hacked (processOne_of_lookup io he),
                  Option.map_eq_some_iff] at halone
                obtain ⟨os₂, -, heq⟩ := halone
                rw [← (List.cons.inj heq).1, hinvalid]
          rw [hack, hrejected] at hother
          cases hother
      have hheld : ∀ e, ring.lookup item.letter.localID = some e →
          r.lookup item.letter.localID = some e := by
        intro e he
        have hroom := hhead ((mem_ids_iff hids).2 (by rw [he]; simp))
        exact (h.old _ e _ (holds_of_lookup hids he) hroom).lookup_eq
      obtain ⟨o, K', r', acked', hkept, hmoves, hprocess', halone', hnew⟩ :=
        h.step (c := c) (by omega) hio hheld
      rw [hprocess', Option.map_eq_some_iff] at hprocess
      rw [halone', Option.map_eq_some_iff] at halone
      obtain ⟨os₁, hos₁, rfl⟩ := hprocess
      obtain ⟨os₂, hos₂, heq⟩ := halone
      obtain rfl := (List.cons.inj heq).2
      obtain ⟨L', hwritten', hL', hcard'⟩ : ∃ L', Written ids L' r' ∧ (∀ id, id ∈ L' ↔ id ∈ K') ∧
          L'.length = K'.card := by
        cases hmoves with
        | stays => exact ⟨L, hwritten, hL, hcard⟩
        | records a hid hnone hnotMem =>
            refine ⟨L ++ [a.localID], hwritten.record a, fun id => ?_, ?_⟩
            · rw [List.mem_append, List.mem_singleton, Finset.mem_insert, hL, hid, or_comm]
            · rw [List.length_append, List.length_singleton, Finset.card_insert_of_notMem hnotMem,
                hcard]
      intro pre id post hsplit hid
      cases pre with
      | nil =>
          obtain rfl : item.letter.localID = id := (List.cons.inj hsplit).1
          rw [show fresh ids [] = ∅ from rfl, Finset.union_empty]
          exact hhead hid
      | cons id' pre =>
          obtain ⟨hid', hsplit'⟩ := List.cons.inj hsplit
          have hroom := ih hkept hwritten' hL' hcard' (by have := card_moves hmoves; omega)
            (fun x hx => hios x (List.mem_cons_of_mem _ hx)) hos₁ hos₂ pre id post hsplit' hid
          have hsub : K ∪ fresh ids (id' :: pre) ⊆ K' ∪ fresh ids pre := by
            intro id'' hmem
            rw [Finset.mem_union] at hmem ⊢
            rcases hmem with hmem | hmem
            · refine Or.inl ?_
              cases hmoves with
              | stays => exact hmem
              | records => exact Finset.mem_insert_of_mem hmem
            · obtain ⟨hin, hout⟩ := Finset.mem_filter.1 hmem
              rw [List.toFinset_cons, Finset.mem_insert] at hin
              rcases hin with rfl | hin
              · refine Or.inl (hid' ▸ hnew _ (hsend item io) ?_)
                by_contra hne
                exact hout (hid' ▸ (mem_ids_iff hids).2 hne)
              · exact Or.inr (Finset.mem_filter.2 ⟨hin, hout⟩)
          have hle := Finset.card_le_card hsub
          omega

end Sequence

/-! ## The size of a request -/

/-- The bytes that a value takes in any text, at the least. -/
def valueBytes : Json → ℕ
  | .str s => s.length + 2
  | _ => 1

/-- The bytes that an element takes, at the least. -/
def elementBytes : Json → ℕ
  | .obj fields => 2 + (fields.map fun f => f.1.length + 3 + valueBytes f.2).sum
  | _ => 1

/-- The bytes that the outbound array takes, at the least: its elements, and what stands between
them. -/
def leastBytes (raws : List Json) : ℕ := 1 + (raws.map fun raw => elementBytes raw + 1).sum

/-- An object with a local id that is a text and not empty. -/
def HasLocalID (raw : Json) : Prop :=
  ∃ fields s, raw = .obj fields ∧ ("local_id", .str s) ∈ fields ∧ s ≠ ""

lemma le_sum_of_mem {n : ℕ} {ns : List ℕ} (h : n ∈ ns) : n ≤ ns.sum := by
  obtain ⟨front, rest, rfl⟩ := List.append_of_mem h
  rw [List.sum_append, List.sum_cons]
  omega

lemma elementBytes_of_hasLocalID {raw : Json} (h : HasLocalID raw) : 16 ≤ elementBytes raw := by
  obtain ⟨fields, s, rfl, hmem, hne⟩ := h
  have hlength : 1 ≤ s.length := by
    rw [Nat.one_le_iff_ne_zero, Ne, String.length_eq_zero_iff]
    exact hne
  have hle := le_sum_of_mem
    (List.mem_map_of_mem (f := fun f : String × Json => f.1.length + 3 + valueBytes f.2) hmem)
  dsimp only at hle
  have hname : "local_id".length = 8 := by decide
  have hvalue : valueBytes (.str s) = s.length + 2 := rfl
  rw [elementBytes]
  omega

lemma length_mul_le {raws : List Json} (h : ∀ raw ∈ raws, HasLocalID raw) :
    raws.length * 17 ≤ (raws.map fun raw => elementBytes raw + 1).sum := by
  induction raws with
  | nil => exact Nat.zero_le _
  | cons raw raws ih =>
      rw [List.forall_mem_cons] at h
      have hraw := elementBytes_of_hasLocalID h.1
      have hrest := ih h.2
      rw [List.length_cons, List.map_cons, List.sum_cons]
      omega

/-- No request has more letters than the ring has entries. -/
lemma length_le_of_leastBytes {raws : List Json} {bytes : ℕ} (hraws : ∀ raw ∈ raws, HasLocalID raw)
    (hleast : leastBytes raws ≤ bytes) (hbytes : bytes ≤ Codec.maxRequestBytes) :
    raws.length ≤ ackRingSize := by
  have hsum := length_mul_le hraws
  rw [leastBytes] at hleast
  have hmax : Codec.maxRequestBytes = 65536 := rfl
  have hring : ackRingSize = 4096 := rfl
  omega

/-! ## A request -/

section Request

variable {raws : List Json} {items : List OutboundItem}

lemma exists_items_iff :
    (∃ items, raws.mapM decodeOutbound = some items) ↔ ∀ raw ∈ raws, Readable raw := by
  induction raws with
  | nil => simp
  | cons raw raws ih =>
      rw [List.forall_mem_cons, ← ih, ← decodeOutbound_isSome_iff, Option.isSome_iff_exists]
      simp only [List.mapM_cons, Option.bind_eq_bind, Option.bind_eq_some_iff]
      constructor
      · rintro ⟨_, item, hitem, items, hitems, -⟩
        exact ⟨⟨item, hitem⟩, items, hitems⟩
      · rintro ⟨⟨item, hitem⟩, items, hitems⟩
        exact ⟨item :: items, item, hitem, items, hitems, rfl⟩

lemma localIDs_of_mapM (h : raws.mapM decodeOutbound = some items) :
    items.map (fun item => item.letter.localID) = raws.map idOf := by
  induction raws generalizing items with
  | nil =>
      obtain rfl := Option.some.inj h
      rfl
  | cons raw raws ih =>
      simp only [List.mapM_cons, Option.bind_eq_bind, Option.bind_eq_some_iff] at h
      obtain ⟨item, hitem, items, hitems, heq⟩ := h
      obtain rfl := Option.some.inj heq
      rw [List.map_cons, List.map_cons, ih hitems, (localID_of_decodeOutbound hitem).1]

lemma localIDs_zip {ios : List SendIO} (h : raws.mapM decodeOutbound = some items)
    (hlength : ios.length = raws.length) : localIDs (items.zip ios) = raws.map idOf := by
  have hitems := localIDs_of_mapM h
  have hle : items.length ≤ ios.length := by
    rw [hlength, ← List.length_map (f := idOf), ← hitems, List.length_map]
  rw [← hitems, localIDs]
  conv_rhs => rw [← List.map_fst_zip hle, List.map_map]
  rfl

variable [Graphemes]

lemma sendOne_noContacts (item : OutboundItem) (io : SendIO) (maxLetterChars : ℤ) :
    sendOne Sample.noContacts io item maxLetterChars = .ok .rejectedUnknownContact := by
  unfold sendOne recipient Table.byID
  by_cases h : item.letter.contactID = sysContactID
  · simp [h]
  · simp [h, Sample.noContacts]

end Request

/-- One letter, for a contact that is in the table. -/
def Sample.letter : Json :=
  .obj [("local_id", .str "a"), ("contact_id", .str "c_01"), ("body", .str "hola")]

/-- An id, and a number where the text of the letter belongs. -/
def Sample.numberForBody : Json := .obj [("local_id", .str "b"), ("body", .num (.int 5))]

end Chaskiwasi.Outbound.Batch
