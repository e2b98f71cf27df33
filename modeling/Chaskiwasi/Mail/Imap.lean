import Chaskiwasi.Lib.Retry
import Chaskiwasi.Lib.Keyed
import Mathlib.Data.Int.Notation
import Mathlib.Logic.Function.Basic
import Mathlib.Data.List.Count
import Mathlib.Order.Nat

/-!
# A mailbox command over a connection that may fail

Every call of the mailbox goes through `withConn`: it dials where there is no connection, runs the
command, and where the connection turns out to be closed, waits and runs the whole command again,
until the context expires.  Whether the server had executed the command before the connection was
lost it does not know.

A `Pass` is what one round of that loop meets.  `withConn` over the commands of `Move` and `Append`
is `Retry.run` over the effect of the command on the account (`run_eq`).  A message that has been
moved is not under its UID any more, so moving it again does nothing; a message that has been
appended can be appended again.
-/

namespace Chaskiwasi.Imap

/-! ## The loop -/

/-- What becomes of one command. -/
inductive Fate
  /-- Executed, and answered. -/
  | answered
  /-- The server answers NO or BAD. -/
  | refused
  /-- Executed; the connection is lost before the answer is read. -/
  | unanswered
  /-- The connection is lost before the server has the command. -/
  | unsent
  deriving DecidableEq, Repr

/-- What one round of the loop meets. -/
structure Pass where
  /-- The context has expired when the round begins. -/
  expired : Bool := false
  /-- The dial, where there is no connection: TCP, TLS and LOGIN. -/
  dials : Bool := true
  select : Fate := .answered
  command : Fate := .answered
  /-- After an error, the connection is found closed. -/
  closed : Bool := false
  /-- The wait ends before the context expires. -/
  waits : Bool := true
  deriving DecidableEq, Repr

/-- The error of the command itself. -/
inductive Failure
  | select
  | command
  deriving DecidableEq, Repr

/-- The error of the call. -/
inductive CallError
  /-- `ErrUnreachable`. -/
  | unreachable
  /-- A protocol error on a live connection. -/
  | protocol (e : Failure)
  deriving DecidableEq, Repr

variable {σ β : Type*}

/-- `conn` says whether there is a connection.  Where the rounds give out, the call has not returned
yet. -/
def withConn (fn : σ → Pass → σ × Except Failure β) :
    Bool → σ → List Pass → σ × Option (Except CallError β)
  | _, s, [] => (s, none)
  | conn, s, p :: rest =>
      if p.expired then (s, some (.error .unreachable))
      else if !conn && !p.dials then
        if p.waits then withConn fn false s rest else (s, some (.error .unreachable))
      else
        match fn s p with
        | (s', .ok b) => (s', some (.ok b))
        | (s', .error e) =>
            if p.closed then
              if p.waits then withConn fn false s' rest else (s', some (.error .unreachable))
            else (s', some (.error (.protocol e)))

/-- What a call returns is what one of its rounds returned. -/
lemma withConn_ok {fn : σ → Pass → σ × Except Failure β} {I : σ → Prop}
    (hround : ∀ s p, I s → I (fn s p).1) {conn : Bool} {s : σ} {passes : List Pass} {b : β}
    (hs : I s) (h : (withConn fn conn s passes).2 = some (.ok b)) :
    ∃ s' p, I s' ∧ (fn s' p).2 = .ok b := by
  induction passes generalizing conn s with
  | nil => cases h
  | cons p rest ih =>
      simp only [withConn] at h
      by_cases hexpired : p.expired = true
      · simp [hexpired] at h
      by_cases hconn : (!conn && !p.dials) = true
      · simp only [hexpired, hconn, if_false, if_true, Bool.false_eq_true] at h
        by_cases hwaits : p.waits = true
        · rw [if_pos hwaits] at h
          exact ih hs h
        · simp [hwaits] at h
      simp only [hexpired, hconn, if_false, Bool.false_eq_true] at h
      have hkept := hround s p hs
      cases hfn : fn s p with
      | mk s' result =>
          simp only [hfn] at h hkept
          cases result with
          | ok b' =>
              obtain rfl := Except.ok.inj (Option.some.inj h)
              exact ⟨s, p, hs, by rw [hfn]⟩
          | error e =>
              by_cases hclosed : p.closed = true
              · by_cases hwaits : p.waits = true
                · simp only [hclosed, hwaits, if_true] at h
                  exact ih hkept h
                · simp [hclosed, hwaits] at h
              · simp [hclosed] at h

/-! ## The account -/

structure Message where
  uid : ℕ
  internalDate : ℤ
  data : List UInt8
  deriving DecidableEq, Repr

/-- What the mail server has done. -/
inductive Effect
  | moved (folder : String) (uid : ℕ) (dest : String)
  | stored (folder : String) (data : List UInt8)
  deriving DecidableEq, Repr

/-- The folders as the mail server has them.  No modelled function reads the log; it is kept for
statements about what the server has done. -/
structure Account where
  messages : String → List Message
  uidNext : String → ℕ
  sorted : ∀ folder, Keyed.Ascending Message.uid (messages folder)
  below : ∀ folder, ∀ m ∈ messages folder, m.uid < uidNext folder
  log : List Effect

namespace Account

/-- A folder gets one more message, under a new UID. -/
def put (a : Account) (folder : String) (internalDate : ℤ) (data : List UInt8) : Account where
  messages := Function.update a.messages folder
    (a.messages folder ++ [⟨a.uidNext folder, internalDate, data⟩])
  uidNext := Function.update a.uidNext folder (a.uidNext folder + 1)
  sorted := by
    intro other
    by_cases h : other = folder
    · subst h
      rw [Function.update_self, Keyed.Ascending, List.pairwise_append]
      refine ⟨a.sorted other, List.pairwise_singleton _ _, fun m hm x hx => ?_⟩
      rw [List.mem_singleton.1 hx]
      exact a.below other m hm
    · rw [Function.update_of_ne h]
      exact a.sorted other
  below := by
    intro other m hm
    by_cases h : other = folder
    · subst h
      rw [Function.update_self] at hm ⊢
      rcases List.mem_append.1 hm with hm | hm
      · exact Nat.lt_succ_of_lt (a.below other m hm)
      · rw [List.mem_singleton.1 hm]
        exact Nat.lt_succ_self _
    · rw [Function.update_of_ne h] at hm ⊢
      exact a.below other m hm
  log := a.log

/-- A folder without the message under a UID. -/
def drop (a : Account) (folder : String) (uid : ℕ) : Account where
  messages := Function.update a.messages folder
    ((a.messages folder).filter fun m => m.uid ≠ uid)
  uidNext := a.uidNext
  sorted := by
    intro other
    by_cases h : other = folder
    · subst h
      rw [Function.update_self]
      exact List.Pairwise.filter _ (a.sorted other)
    · rw [Function.update_of_ne h]
      exact a.sorted other
  below := by
    intro other m hm
    by_cases h : other = folder
    · subst h
      rw [Function.update_self] at hm
      exact a.below other m (List.mem_of_mem_filter hm)
    · rw [Function.update_of_ne h] at hm
      exact a.below other m hm
  log := a.log

/-- MOVE of one UID.  A UID that names no message is passed over without an error. -/
def move (a : Account) (folder : String) (uid : ℕ) (dest : String) : Account :=
  match (a.messages folder).find? fun m => m.uid = uid with
  | none => a
  | some m =>
      { (a.drop folder uid).put dest m.internalDate m.data with
        log := .moved folder uid dest :: a.log }

/-- APPEND. -/
def append (a : Account) (folder : String) (data : List UInt8) (time : ℤ) : Account :=
  { a.put folder time data with log := .stored folder data :: a.log }

end Account

/-! ## The calls -/

/-- A command that the server is given. -/
def Fate.perform (exec : σ → σ) (s : σ) : Fate → σ × Except Failure Unit
  | .answered => (exec s, .ok ())
  | .refused => (s, .error .command)
  | .unanswered => (exec s, .error .command)
  | .unsent => (s, .error .command)

/-- A call that changes the account. -/
inductive Call
  | move (folder : String) (uid : ℕ) (dest : String)
  | append (folder : String) (data : List UInt8) (time : ℤ)
  deriving DecidableEq, Repr

/-- What the server does for the command of a call. -/
def Call.exec : Call → Account → Account
  | .move folder uid dest, a => a.move folder uid dest
  | .append folder data time, a => a.append folder data time

def Call.effect : Call → Effect
  | .move folder uid dest => .moved folder uid dest
  | .append folder data _ => .stored folder data

/-- Whether the call selects a folder first. -/
def Call.selects : Call → Bool
  | .move .. => true
  | .append .. => false

/-- One round of a call on a connection. -/
def Call.once (call : Call) (a : Account) (p : Pass) : Account × Except Failure Unit :=
  if call.selects && p.select ≠ .answered then (a, .error .select)
  else p.command.perform call.exec a

/-- `Move` and `Append`. -/
def Call.run (call : Call) (conn : Bool) (a : Account) (passes : List Pass) :
    Account × Option (Except CallError Unit) :=
  withConn call.once conn a passes

/-! ## A call is a command tried again -/

/-- What an error of the command leads to. -/
def Pass.failed (p : Pass) (e : Failure) : Option (Except CallError Unit) :=
  if p.closed then if p.waits then none else some (.error .unreachable)
  else some (.error (.protocol e))

/-- One round of the loop: whether the server executes the command, and what the call returns. -/
def Call.attempt (call : Call) (conn : Bool) (p : Pass) :
    Retry.Attempt (Except CallError Unit) :=
  if p.expired then ⟨false, some (.error .unreachable)⟩
  else if !conn && !p.dials then
    ⟨false, if p.waits then none else some (.error .unreachable)⟩
  else if call.selects && p.select ≠ .answered then ⟨false, p.failed .select⟩
  else
    match p.command with
    | .answered => ⟨true, some (.ok ())⟩
    | .refused => ⟨false, p.failed .command⟩
    | .unanswered => ⟨true, p.failed .command⟩
    | .unsent => ⟨false, p.failed .command⟩

/-- The rounds of a call.  Every round after the first has to dial. -/
def Call.attempts (call : Call) : Bool → List Pass → List (Retry.Attempt (Except CallError Unit))
  | _, [] => []
  | conn, p :: rest => call.attempt conn p :: call.attempts false rest

variable {call : Call} {conn : Bool} {a : Account} {passes : List Pass}

lemma withConn_failed {fn : σ → Pass → σ × Except Failure Unit} {s s' : σ} {p : Pass} {e : Failure}
    {rest : List Pass} (hexpired : p.expired = false) (hconn : (!conn && !p.dials) = false)
    (h : fn s p = (s', .error e)) :
    withConn fn conn s (p :: rest) =
      match p.failed e with
      | some r => (s', some r)
      | none => withConn fn false s' rest := by
  simp only [withConn, hexpired, hconn, h, Pass.failed, Bool.false_eq_true, if_false]
  cases p.closed <;> cases p.waits <;> rfl

/-- **A call is its command, tried again.** -/
theorem run_eq (call : Call) (conn : Bool) (a : Account) (passes : List Pass) :
    call.run conn a passes = Retry.run call.exec a (call.attempts conn passes) := by
  induction passes generalizing conn a with
  | nil => rfl
  | cons p rest ih =>
      unfold Call.run at ih ⊢
      simp only [Call.attempts, Retry.run]
      by_cases hexpired : p.expired = true
      · simp [withConn, Call.attempt, hexpired]
      rw [Bool.not_eq_true] at hexpired
      by_cases hconn : (!conn && !p.dials) = true
      · cases hwaits : p.waits with
        | false => simp [withConn, Call.attempt, hexpired, hconn, hwaits]
        | true => simp [withConn, Call.attempt, hexpired, hconn, hwaits, ih]
      rw [Bool.not_eq_true] at hconn
      by_cases hselect : (call.selects && p.select ≠ .answered) = true
      · have honce : call.once a p = (a, .error .select) := by
          simp only [Call.once, hselect, if_true]
        rw [withConn_failed hexpired hconn honce]
        simp only [Call.attempt, hexpired, hconn, hselect, ih, Bool.false_eq_true, if_false,
          if_true]
        cases p.failed .select <;> rfl
      have honce : call.once a p = p.command.perform call.exec a := by
        simp only [Call.once, hselect, Bool.false_eq_true, if_false]
      have hattempt : call.attempt conn p =
          match p.command with
          | .answered => ⟨true, some (.ok ())⟩
          | .refused => ⟨false, p.failed .command⟩
          | .unanswered => ⟨true, p.failed .command⟩
          | .unsent => ⟨false, p.failed .command⟩ := by
        simp only [Call.attempt, hexpired, hconn, hselect, Bool.false_eq_true, if_false]
      cases hfate : p.command with
      | answered =>
          rw [hfate] at honce hattempt
          simp only [withConn, hexpired, hconn, honce, hattempt, Fate.perform, Bool.false_eq_true,
            if_false, if_true]
      | refused | unsent =>
          rw [hfate] at honce hattempt
          rw [withConn_failed hexpired hconn honce]
          simp only [hattempt, ih, Bool.false_eq_true, if_false]
          cases p.failed .command <;> rfl
      | unanswered =>
          rw [hfate] at honce hattempt
          rw [withConn_failed hexpired hconn honce]
          simp only [hattempt, ih, if_true]
          cases p.failed .command <;> rfl

/-- Only what was executed is answered. -/
lemma executed_of_ok {x : Retry.Attempt (Except CallError Unit)}
    (hmem : x ∈ call.attempts conn passes) (hok : x.result = some (.ok ())) :
    x.executed = true := by
  induction passes generalizing conn with
  | nil => cases hmem
  | cons p rest ih =>
      rcases List.mem_cons.1 hmem with rfl | hmem
      · have hfailed : ∀ e, p.failed e ≠ some (.ok ()) := by
          intro e
          unfold Pass.failed
          split_ifs <;> simp
        unfold Call.attempt at hok ⊢
        by_cases hexpired : p.expired = true
        · simp [hexpired] at hok
        by_cases hconn : (!conn && !p.dials) = true
        · cases hwaits : p.waits <;> simp [hexpired, hconn, hwaits] at hok
        by_cases hselect : (call.selects && p.select ≠ .answered) = true
        · simp only [hexpired, hconn, hselect, if_true, if_false, Bool.false_eq_true] at hok
          exact absurd hok (hfailed _)
        simp only [hexpired, hconn, hselect, if_false, Bool.false_eq_true] at hok ⊢
        cases hfate : p.command with
        | answered => rfl
        | unanswered => rfl
        | refused | unsent =>
            rw [hfate] at hok
            exact absurd hok (hfailed _)
      · exact ih hmem

/-! ## Once -/

lemma move_of_absent {folder dest : String} {uid : ℕ}
    (h : ∀ m ∈ a.messages folder, m.uid ≠ uid) : a.move folder uid dest = a := by
  have hfind : (a.messages folder).find? (fun m => m.uid = uid) = none := by
    rw [List.find?_eq_none]
    intro m hm
    simpa using h m hm
  simp only [Account.move, hfind]

/-- A message that has been moved is not under its UID any more. -/
lemma not_mem_move (folder : String) (uid : ℕ) (dest : String) (a : Account) :
    ∀ m ∈ (a.move folder uid dest).messages folder, m.uid ≠ uid := by
  unfold Account.move
  cases hfind : (a.messages folder).find? (fun m => m.uid = uid) with
  | none =>
      rw [List.find?_eq_none] at hfind
      intro m hm
      simpa using hfind m hm
  | some m =>
      have huid : m.uid = uid := by simpa using List.find?_some hfind
      have hless : uid < a.uidNext folder :=
        huid ▸ a.below folder m (List.mem_of_find?_eq_some hfind)
      have hdropped : ∀ x ∈ (a.drop folder uid).messages folder, x.uid ≠ uid := by
        intro x hx
        simp only [Account.drop, Function.update_self] at hx
        simpa using (List.mem_filter.1 hx).2
      intro x hx
      by_cases hsame : folder = dest
      · subst hsame
        simp only [Account.put, Function.update_self, List.mem_append, List.mem_singleton] at hx
        rcases hx with hx | rfl
        · exact hdropped x hx
        · exact (ne_of_lt hless).symm
      · simp only [Account.put, Function.update_of_ne hsame] at hx
        exact hdropped x hx

/-- Moving a message that has been moved does nothing. -/
lemma move_move (folder : String) (uid : ℕ) (dest : String) (a : Account) :
    (a.move folder uid dest).move folder uid dest = a.move folder uid dest :=
  move_of_absent (not_mem_move folder uid dest a)

lemma move_log {folder dest : String} {uid : ℕ} (h : ∃ m ∈ a.messages folder, m.uid = uid) :
    (a.move folder uid dest).log = .moved folder uid dest :: a.log := by
  unfold Account.move
  cases hfind : (a.messages folder).find? (fun m => m.uid = uid) with
  | none =>
      obtain ⟨m, hm, huid⟩ := h
      rw [List.find?_eq_none] at hfind
      exact absurd huid (by simpa using hfind m hm)
  | some m => rfl

lemma append_log (folder : String) (data : List UInt8) (time : ℤ) (n : ℕ) (a : Account) :
    ((Call.append folder data time).exec^[n] a).log =
      List.replicate n (.stored folder data) ++ a.log := by
  induction n with
  | zero => rfl
  | succ n ih =>
      rw [Function.iterate_succ_apply', List.replicate_succ, List.cons_append, ← ih]
      rfl

/-- The message that a call is about: one that is to be moved is there. -/
def Call.Named (a : Account) : Call → Prop
  | .move folder uid _ => ∃ m ∈ a.messages folder, m.uid = uid
  | .append .. => True

/-- The message was moved or stored at most once, and once if the call returned nil. -/
structure Once (call : Call) (a : Account)
    (after : Account × Option (Except CallError Unit)) : Prop where
  at_most : after.1.log.count call.effect ≤ a.log.count call.effect + 1
  exactly : after.2 = some (.ok ()) →
    after.1.log.count call.effect = a.log.count call.effect + 1

def Call.isMove : Call → Bool
  | .move .. => true
  | .append .. => false

/-- **A command takes effect once, but for an append behind one whose answer was lost.**  Whatever
becomes of the connections, a call of `Move` moves its message at most once, and once if it returns
nil; a call of `Append` stores its message so if and only if no round of it reaches the server
behind one that the server executed and whose answer was lost. -/
theorem once_iff_clean (hnamed : call.Named a) :
    Once call a (call.run conn a passes) ↔
      call.isMove = true ∨ Retry.Clean (call.attempts conn passes) := by
  have hpos : (call.run conn a passes).2 = some (.ok ()) →
      0 < Retry.executions (call.attempts conn passes) := by
    intro hok
    rw [run_eq] at hok
    exact Retry.executions_pos (fun x hx hresult => executed_of_ok hx hresult) hok
  have hstate : (call.run conn a passes).1 =
      call.exec^[Retry.executions (call.attempts conn passes)] a := by
    rw [run_eq, Retry.run_fst]
  cases call with
  | move folder uid dest =>
      refine iff_of_true ?_ (Or.inl rfl)
      have hlog : (a.move folder uid dest).log.count (.moved folder uid dest) =
          a.log.count (.moved folder uid dest) + 1 := by
        rw [move_log hnamed, List.count_cons_self]
      have hidempotent : ∀ b, (Call.move folder uid dest).exec
          ((Call.move folder uid dest).exec b) = (Call.move folder uid dest).exec b :=
        move_move folder uid dest
      have hafter := Retry.run_fst_of_idempotent hidempotent a
        ((Call.move folder uid dest).attempts conn passes)
      rw [← run_eq] at hafter
      constructor
      · rw [hafter]
        split
        · exact Nat.le_succ _
        · exact le_of_eq hlog
      · intro hok
        rw [hafter, if_neg (Nat.pos_iff_ne_zero.1 (hpos hok))]
        exact hlog
  | append folder data time =>
      have hcount : ((Call.append folder data time).run conn a passes).1.log.count
          (.stored folder data) =
            Retry.executions ((Call.append folder data time).attempts conn passes) +
              a.log.count (.stored folder data) := by
        rw [hstate, append_log, List.count_append, List.count_replicate_self]
      rw [← Retry.executions_le_one_iff]
      constructor
      · intro h
        have hle := h.at_most
        simp only [Call.effect] at hle
        right
        omega
      · rintro (hmove | hle)
        · cases hmove
        · refine ⟨?_, fun hok => ?_⟩
          · simp only [Call.effect]
            omega
          · have hone := hpos hok
            simp only [Call.effect]
            omega

/-! ## An append whose answer is lost -/

/-- What a call owes: it takes effect once if it returns nil, and at most once. -/
def AlwaysOnce : Prop :=
  ∀ (call : Call) (conn : Bool) (a : Account) (passes : List Pass), call.Named a →
    Once call a (call.run conn a passes)

namespace Sample

/-- An account without messages. -/
def noMail : Account where
  messages := fun _ => []
  uidNext := fun _ => 1
  sorted := fun _ => List.Pairwise.nil
  below := by simp
  log := []

def notice : Call := .append "INBOX" [1] 5

/-- The connection is lost before the answer is read, and the next one is good. -/
def answerLost : List Pass := [{ command := .unanswered, closed := true }, {}]

/-- The connection is lost before the server has the command, and the next one is good. -/
def commandLost : List Pass := [{ command := .unsent, closed := true }, {}]

end Sample

/-- **A notice whose answer is lost is stored twice**, and the call returns nil. -/
theorem answer_lost_stored_twice : ¬ AlwaysOnce := by
  intro hclaim
  have honce := hclaim Sample.notice false Sample.noMail Sample.answerLost trivial
  have hle := honce.at_most
  revert hle
  decide

/-- Where the command itself is lost, it is stored once. -/
theorem command_lost_stored_once :
    Once Sample.notice Sample.noMail
      (Sample.notice.run false Sample.noMail Sample.commandLost) := by
  apply (once_iff_clean (show Sample.notice.Named Sample.noMail from trivial)).2
  right
  decide

end Chaskiwasi.Imap
