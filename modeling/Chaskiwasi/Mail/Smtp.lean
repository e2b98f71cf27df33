import Chaskiwasi.Outbound.Handler
import Mathlib.Data.List.Indexes

/-!
# What is told of a submission

One call of `Send` is one connection to the submission server.  A letter's fate hangs on the error
it returns: without one the letter is acked as sent, with `ErrUndeliverable` it is rejected for
good, and with any other it stays in the device's outbox and is submitted again at the next sync.

The SMTP client is a library.  What a call of it comes to is a `Report`, and a `Session` has one for
each call that `Send` makes; the greeting and EHLO belong to the first command after the connection
is there.  What really went on is the list of the calls up to the first that failed
(`upToFailure`), and `Truthful` says of an answer that it tells this.
-/

namespace Chaskiwasi.Smtp

/-! ## Errors -/

/-- The three numbers of an enhanced status code, all zero where the reply has none. -/
abbrev EnhancedCode := ℕ × ℕ × ℕ

/-- What a call of the SMTP client comes to. -/
inductive Report
  | ok
  /-- `*smtp.SMTPError`: the server's reply is not the one that the command asks for. -/
  | refused (code : ℕ) (enhanced : EnhancedCode)
  /-- The connection failed. -/
  | lost
  /-- The client cannot make sense of what the server says. -/
  | garbled
  deriving DecidableEq, Repr

/-- An error value. -/
inductive GoError
  | smtpError (code : ℕ) (enhanced : EnhancedCode)
  | connection
  | protocol
  | text (message : String)
  | errUnreachable
  | errUndeliverable
  /-- `fmt.Errorf` with `%w`. -/
  | wrap (message : String) (err : GoError)
  /-- `errors.Join` of two. -/
  | join (err sentinel : GoError)
  deriving DecidableEq, Repr

/-- `errors.Is`. -/
def GoError.is : GoError → GoError → Bool
  | .wrap message err, target => decide (.wrap message err = target) || err.is target
  | .join err sentinel, target =>
      decide (.join err sentinel = target) || err.is target || sentinel.is target
  | err, target => decide (err = target)

/-- `errors.As` with an `*smtp.SMTPError`. -/
def GoError.asSMTPError : GoError → Option (ℕ × EnhancedCode)
  | .smtpError code enhanced => some (code, enhanced)
  | .wrap _ err => err.asSMTPError
  | .join err sentinel => err.asSMTPError <|> sentinel.asSMTPError
  | _ => none

/-- The error that the client returns. -/
def Report.error : Report → Option GoError
  | .ok => none
  | .refused code enhanced => some (.smtpError code enhanced)
  | .lost => some .connection
  | .garbled => some .protocol

def unreachable (err : GoError) : GoError := .join err .errUnreachable

def undeliverable (err : GoError) : GoError := .join err .errUndeliverable

/-! ## Sending -/

def formatEnhanced (c : EnhancedCode) : String :=
  if c = (0, 0, 0) then ""
  else " (" ++ toString c.1 ++ "." ++ toString c.2.1 ++ "." ++ toString c.2.2 ++ ")"

/-- A permanent negative reply. -/
def isPermanentCode (code : ℕ) : Bool := decide (500 ≤ code ∧ code < 600)

/-- Whether an error is a broken connection rather than the server's refusal. -/
def isTransportErr (cancelled : Bool) (err : GoError) : Bool :=
  cancelled || err.asSMTPError.isNone

/-- The error of a command about the envelope.  `permanentIfRefused` says whether a 5xx condemns
the message. -/
def envelopeErr (cancelled : Bool) (err : GoError) (permanentIfRefused : Bool) : GoError :=
  if isTransportErr cancelled err then unreachable err
  else
    match err.asSMTPError with
    | none => unreachable err -- not reached
    | some (code, enhanced) =>
        let coded := .text ("server refused with code " ++ toString code ++ formatEnhanced enhanced)
        if permanentIfRefused && isPermanentCode code then undeliverable coded else coded

structure SMTPConfig where
  username : String
  startTLS : Bool := false
  /-- Whether a dial function replaces the TLS dial. -/
  dial : Bool := false

/-- What the calls of the client come to, in one call of `Send`. -/
structure Session where
  /-- Whether the context is cancelled when an error is looked at. -/
  cancelled : Bool := false
  connect : Report := .ok
  /-- The TLS handshake, or all that comes before and with STARTTLS. -/
  negotiate : Report := .ok
  auth : Report := .ok
  mail : Report := .ok
  rcpt : ℕ → String → Report := fun _ _ => .ok
  data : Report := .ok
  body : Report := .ok
  /-- The end of DATA. -/
  close : Report := .ok
  quit : Report := .ok

/-- Goes on where the report is good, and returns the error, put so, where it is not. -/
def Report.check (r : Report) (put : GoError → GoError) : Except GoError Unit :=
  match r.error with
  | none => .ok ()
  | some err => .error (put err)

def negotiate (cfg : SMTPConfig) (s : Session) : Except GoError Unit :=
  if cfg.dial then .ok ()
  else if cfg.startTLS then s.negotiate.check id
  else s.negotiate.check (.wrap "tls handshake: ")

def submit (s : Session) (rcpts : List String) (size : ℕ) : Except GoError Unit := do
  s.mail.check fun err => .wrap "mailbox: smtp mail from: " (envelopeErr s.cancelled err false)
  (rcpts.mapIdx s.rcpt).forM fun r =>
    r.check fun err => .wrap "mailbox: smtp rcpt to: " (envelopeErr s.cancelled err true)
  s.data.check fun err => .wrap "mailbox: smtp data: " (envelopeErr s.cancelled err true)
  s.body.check fun err =>
    .wrap ("mailbox: smtp data write (" ++ toString size ++ " bytes): ") (unreachable err)
  s.close.check fun err =>
    .wrap ("mailbox: smtp data close (" ++ toString size ++ " bytes): ")
      (envelopeErr s.cancelled err true)

/-- `Send` of a message of so many bytes. -/
def send (cfg : SMTPConfig) (s : Session) (rcpts : List String) (size : ℕ) :
    Except GoError Unit := do
  s.connect.check fun err => .wrap "mailbox: smtp connect: " (unreachable err)
  (negotiate cfg s).mapError fun err => .wrap "mailbox: smtp negotiate: " (unreachable err)
  if cfg.username ≠ "" then
    s.auth.check (.wrap "mailbox: smtp auth: ")
  submit s rcpts size
  s.quit.check id

/-! ## What went on -/

/-- The calls, in the order in which `Send` makes them. -/
inductive Phase
  | connect
  | negotiate
  | auth
  | mail
  | rcpt
  | data
  | body
  | close
  | quit
  deriving DecidableEq, Repr

/-- The calls of the client up to the body of the message. -/
def Session.early (cfg : SMTPConfig) (s : Session) (rcpts : List String) :
    List (Phase × Report) :=
  [(.connect, s.connect)] ++ (if cfg.dial then [] else [(.negotiate, s.negotiate)]) ++
    (if cfg.username ≠ "" then [(.auth, s.auth)] else []) ++ [(.mail, s.mail)] ++
    (rcpts.mapIdx s.rcpt).map (Prod.mk .rcpt) ++ [(.data, s.data), (.body, s.body)]

/-- All calls of the client that a whole submission makes. -/
def Session.exchange (cfg : SMTPConfig) (s : Session) (rcpts : List String) :
    List (Phase × Report) :=
  s.early cfg rcpts ++ [(.close, s.close), (.quit, s.quit)]

/-- The calls up to the first that failed, and with it. -/
def upToFailure : List (Phase × Report) → List (Phase × Report)
  | [] => []
  | (phase, r) :: rest => (phase, r) :: if r = .ok then upToFailure rest else []

/-- The calls that were made. -/
def Session.calls (cfg : SMTPConfig) (s : Session) (rcpts : List String) : List (Phase × Report) :=
  upToFailure (s.exchange cfg rcpts)

/-- The phases in which a refusal is one of this message. -/
def Phase.condemns : Phase → Bool
  | .rcpt | .data | .close => true
  | _ => false

/-- The server accepted the message. -/
def Accepted (calls : List (Phase × Report)) : Prop := (.close, .ok) ∈ calls

/-- The server refused the message for good. -/
def Condemned (calls : List (Phase × Report)) : Prop :=
  ∃ phase code enhanced, (phase, .refused code enhanced) ∈ calls ∧ phase.condemns = true ∧
    500 ≤ code ∧ code < 600

/-- The connection failed before the message was accepted. -/
def CutShort (calls : List (Phase × Report)) : Prop :=
  ∃ phase, (phase, .lost) ∈ calls ∧ phase ≠ .quit

/-- An answer tells what went on. -/
structure Truthful (calls : List (Phase × Report)) (answer : Except GoError Unit) : Prop where
  accepted : answer = .ok () ↔ Accepted calls
  condemned : (∃ err, answer = .error err ∧ err.is .errUndeliverable = true) ↔ Condemned calls
  cutShort : CutShort calls → ∃ err, answer = .error err ∧ err.is .errUnreachable = true

/-! ## The first failure decides -/

variable {cfg : SMTPConfig} {s : Session} {rcpts : List String} {size : ℕ} {phase : Phase}
  {r : Report} {calls : List (Phase × Report)}

/-- What `Send` makes of an error. -/
def blame (cfg : SMTPConfig) (cancelled : Bool) (size : ℕ) (err : GoError) : Phase → GoError
  | .connect => .wrap "mailbox: smtp connect: " (unreachable err)
  | .negotiate =>
      .wrap "mailbox: smtp negotiate: "
        (unreachable (if cfg.startTLS then err else .wrap "tls handshake: " err))
  | .auth => .wrap "mailbox: smtp auth: " err
  | .mail => .wrap "mailbox: smtp mail from: " (envelopeErr cancelled err false)
  | .rcpt => .wrap "mailbox: smtp rcpt to: " (envelopeErr cancelled err true)
  | .data => .wrap "mailbox: smtp data: " (envelopeErr cancelled err true)
  | .body => .wrap ("mailbox: smtp data write (" ++ toString size ++ " bytes): ") (unreachable err)
  | .close =>
      .wrap ("mailbox: smtp data close (" ++ toString size ++ " bytes): ")
        (envelopeErr cancelled err true)
  | .quit => err

/-- The answer that the first failure gives. -/
def answer (put : Phase → GoError → GoError) : List (Phase × Report) → Except GoError Unit
  | [] => .ok ()
  | (phase, r) :: rest => r.check (put phase) >>= fun _ => answer put rest

lemma answer_append (put : Phase → GoError → GoError) (xs ys : List (Phase × Report)) :
    answer put (xs ++ ys) = answer put xs >>= fun _ => answer put ys := by
  induction xs with
  | nil => rfl
  | cons x xs ih =>
      obtain ⟨phase, r⟩ := x
      simp only [List.cons_append, answer, ih, bind_assoc]

lemma answer_rcpt (put : Phase → GoError → GoError) (rs : List Report) :
    answer put (rs.map (Prod.mk .rcpt)) = rs.forM fun r => r.check (put .rcpt) := by
  induction rs with
  | nil => rfl
  | cons r rs ih =>
      simp only [List.map_cons, answer, ih]
      rfl

/-- `Send` answers what the first failure gives. -/
theorem send_eq_answer :
    send cfg s rcpts size =
      answer (fun phase err => blame cfg s.cancelled size err phase) (s.exchange cfg rcpts) := by
  have hok : (Except.ok () : Except GoError Unit) = pure () := rfl
  have hnegotiate : ((negotiate cfg s).mapError fun err =>
      .wrap "mailbox: smtp negotiate: " (unreachable err)) =
        answer (fun phase err => blame cfg s.cancelled size err phase)
          (if cfg.dial then [] else [(.negotiate, s.negotiate)]) := by
    unfold negotiate
    cases cfg.dial with
    | true => rfl
    | false =>
        cases hmode : cfg.startTLS <;> cases hreport : s.negotiate <;>
          simp [answer, Report.check, Report.error, Except.mapError, blame, hmode] <;> rfl
  unfold send submit Session.exchange Session.early
  rw [hnegotiate]
  simp only [answer_append, answer_rcpt, answer, bind_assoc, hok, bind_pure_unit]
  by_cases huser : cfg.username ≠ ""
  · have hauth : answer (fun phase err => blame cfg s.cancelled size err phase)
        [(.auth, s.auth)] = s.auth.check (.wrap "mailbox: smtp auth: ") := by
      cases s.auth <;> rfl
    rw [if_pos huser, if_pos huser, hauth]
    rfl
  · rw [if_neg huser, if_neg huser]
    rfl

/-! ## What the answer tells -/

lemma upToFailure_cons_ok (phase : Phase) (rest : List (Phase × Report)) :
    upToFailure ((phase, .ok) :: rest) = (phase, .ok) :: upToFailure rest := by
  simp [upToFailure]

lemma upToFailure_cons_failed {phase : Phase} {r : Report} (h : r ≠ .ok)
    (rest : List (Phase × Report)) : upToFailure ((phase, r) :: rest) = [(phase, r)] := by
  simp [upToFailure, h]

/-- There is an error exactly where a call failed, and it is what is made of that failure. -/
lemma answer_eq_error_iff {put : Phase → GoError → GoError} {err : GoError}
    {steps : List (Phase × Report)} :
    answer put steps = .error err ↔
      ∃ phase r cause, (phase, r) ∈ upToFailure steps ∧ r.error = some cause ∧
        put phase cause = err := by
  induction steps with
  | nil => simp [answer, upToFailure]
  | cons step rest ih =>
      obtain ⟨phase, r⟩ := step
      cases hreport : r.error with
      | none =>
          obtain rfl : r = .ok := by cases r <;> simp_all [Report.error]
          rw [upToFailure_cons_ok]
          have hanswer : answer put ((phase, .ok) :: rest) = answer put rest := rfl
          rw [hanswer, ih]
          constructor
          · rintro ⟨phase', r', cause, hmem, hcause, heq⟩
            exact ⟨phase', r', cause, List.mem_cons_of_mem _ hmem, hcause, heq⟩
          · rintro ⟨phase', r', cause, hmem, hcause, heq⟩
            rcases List.mem_cons.1 hmem with hhead | hmem
            · obtain ⟨rfl, rfl⟩ := Prod.mk.inj hhead
              cases hcause
            · exact ⟨phase', r', cause, hmem, hcause, heq⟩
      | some cause =>
          have hfailed : r ≠ .ok := by
            rintro rfl
            cases hreport
          have hanswer : answer put ((phase, r) :: rest) = .error (put phase cause) := by
            simp only [answer, Report.check, hreport]
            rfl
          rw [upToFailure_cons_failed hfailed, hanswer]
          constructor
          · intro h
            exact ⟨phase, r, cause, List.mem_singleton_self _, hreport, Except.error.inj h⟩
          · rintro ⟨phase', r', cause', hmem, hcause, heq⟩
            obtain ⟨rfl, rfl⟩ := Prod.mk.inj (List.mem_singleton.1 hmem)
            obtain rfl := Option.some.inj (hreport.symm.trans hcause)
            rw [heq]

lemma answer_eq_ok_iff {put : Phase → GoError → GoError} {steps : List (Phase × Report)} :
    answer put steps = .ok () ↔ ∀ step ∈ steps, step.2 = .ok := by
  induction steps with
  | nil => simp [answer]
  | cons step rest ih =>
      obtain ⟨phase, r⟩ := step
      rw [List.forall_mem_cons, ← ih]
      constructor
      · intro h
        cases r with
        | ok => exact ⟨rfl, h⟩
        | _ => cases h
      · rintro ⟨rfl, h⟩
        exact h

lemma upToFailure_sublist (steps : List (Phase × Report)) :
    List.Sublist (upToFailure steps) steps := by
  induction steps with
  | nil => exact List.Sublist.refl _
  | cons step rest ih =>
      obtain ⟨phase, r⟩ := step
      unfold upToFailure
      apply List.Sublist.cons_cons
      split
      · exact ih
      · exact List.nil_sublist _

/-- What comes after some calls was made only if these were all good. -/
lemma ok_of_mem_upToFailure_append {step : Phase × Report} {xs ys : List (Phase × Report)}
    (h : step ∈ upToFailure (xs ++ ys)) (hlater : step ∉ xs) : ∀ x ∈ xs, x.2 = .ok := by
  induction xs with
  | nil => simp
  | cons x xs ih =>
      obtain ⟨phase, r⟩ := x
      have hne : step ≠ (phase, r) := List.ne_of_not_mem_cons hlater
      have hmem := (List.mem_cons.1 h).resolve_left hne
      split at hmem
      next hok =>
        rw [List.forall_mem_cons]
        exact ⟨hok, ih hmem (List.not_mem_of_not_mem_cons hlater)⟩
      next => cases hmem

lemma upToFailure_append {xs : List (Phase × Report)} (h : ∀ x ∈ xs, x.2 = .ok)
    (ys : List (Phase × Report)) : upToFailure (xs ++ ys) = xs ++ upToFailure ys := by
  induction xs with
  | nil => rfl
  | cons x xs ih =>
      obtain ⟨phase, r⟩ := x
      rw [List.forall_mem_cons] at h
      obtain rfl : r = .ok := h.1
      rw [List.cons_append, upToFailure_cons_ok, ih h.2, List.cons_append]

lemma early_phase : ∀ step ∈ s.early cfg rcpts, step.1 ≠ .close ∧ step.1 ≠ .quit := by
  unfold Session.early
  simp only [List.forall_mem_append, List.forall_mem_map]
  refine ⟨⟨⟨⟨⟨by simp, ?_⟩, ?_⟩, by simp⟩, by simp⟩, by simp⟩
  · split <;> simp
  · split <;> simp

/-- The server accepted the message exactly where every call up to the end of DATA was good. -/
lemma accepted_iff :
    Accepted (s.calls cfg rcpts) ↔ (∀ step ∈ s.early cfg rcpts, step.2 = .ok) ∧ s.close = .ok := by
  have hlater : ((.close, .ok) : Phase × Report) ∉ s.early cfg rcpts :=
    fun hmem => (early_phase _ hmem).1 rfl
  constructor
  · intro h
    refine ⟨ok_of_mem_upToFailure_append h hlater, ?_⟩
    have hmem := (upToFailure_sublist _).subset h
    rw [Session.exchange, List.mem_append] at hmem
    have hclose := hmem.resolve_left hlater
    simp only [List.mem_cons, Prod.mk.injEq, reduceCtorEq, false_and, List.not_mem_nil, or_false,
      true_and] at hclose
    exact hclose.symm
  · rintro ⟨hearly, hclose⟩
    unfold Accepted Session.calls Session.exchange
    rw [upToFailure_append hearly, hclose]
    exact List.mem_append_right _ (List.mem_cons_self ..)

lemma envelopeErr_transport {cause : GoError} (h : cause.asSMTPError = none) (permanent : Bool) :
    envelopeErr false cause permanent = unreachable cause := by
  simp [envelopeErr, isTransportErr, h]

/-- A refusal of the envelope is for good where the reply is permanent and the phase condemns. -/
lemma envelopeErr_smtpError_is_undeliverable (code : ℕ) (enhanced : EnhancedCode)
    (permanent : Bool) :
    (envelopeErr false (.smtpError code enhanced) permanent).is .errUndeliverable = true ↔
      permanent = true ∧ 500 ≤ code ∧ code < 600 := by
  have hcode : isPermanentCode code = true ↔ 500 ≤ code ∧ code < 600 := decide_eq_true_iff
  rw [← hcode, ← Bool.and_eq_true]
  unfold envelopeErr
  cases hboth : permanent && isPermanentCode code <;>
    simp [isTransportErr, GoError.asSMTPError, GoError.is, undeliverable, hboth]

/-- An error says that the message is refused for good where it comes of a permanent refusal in a
phase that condemns. -/
lemma blame_is_undeliverable {cause : GoError} (h : r.error = some cause) :
    (blame cfg false size cause phase).is .errUndeliverable = true ↔
      phase.condemns = true ∧ ∃ code enhanced, r = .refused code enhanced ∧
        500 ≤ code ∧ code < 600 := by
  cases r with
  | ok => cases h
  | refused code enhanced =>
      obtain rfl := Option.some.inj h
      have henvelope := envelopeErr_smtpError_is_undeliverable code enhanced
      cases phase <;> cases hmode : cfg.startTLS <;>
        simp [blame, unreachable, GoError.is, Phase.condemns, henvelope, hmode]
  | lost =>
      obtain rfl := Option.some.inj h
      have henvelope := envelopeErr_transport (rfl : GoError.connection.asSMTPError = none)
      cases phase <;> cases hmode : cfg.startTLS <;>
        simp [blame, henvelope, unreachable, GoError.is, hmode]
  | garbled =>
      obtain rfl := Option.some.inj h
      have henvelope := envelopeErr_transport (rfl : GoError.protocol.asSMTPError = none)
      cases phase <;> cases hmode : cfg.startTLS <;>
        simp [blame, henvelope, unreachable, GoError.is, hmode]

/-- A connection that fails is told of, but at AUTH and at QUIT. -/
lemma blame_connection_is_unreachable (hauth : phase ≠ .auth) (hquit : phase ≠ .quit) :
    (blame cfg false size .connection phase).is .errUnreachable = true := by
  have henvelope := envelopeErr_transport (rfl : GoError.connection.asSMTPError = none)
  cases phase with
  | auth => exact absurd rfl hauth
  | quit => exact absurd rfl hquit
  | _ => simp [blame, henvelope, unreachable, GoError.is]

lemma error_of_call {cause : GoError} (hmem : (phase, r) ∈ s.calls cfg rcpts)
    (hcause : r.error = some cause) :
    send cfg s rcpts size = .error (blame cfg s.cancelled size cause phase) := by
  rw [send_eq_answer]
  apply answer_eq_error_iff.2
  exact ⟨phase, r, cause, hmem, hcause, rfl⟩

/-- **A submission is told of truthfully but for two places.**  With the context not cancelled, the
answer of `Send` tells what went on if and only if the connection does not fail during AUTH, and
QUIT goes well where the message was accepted. -/
theorem send_truthful_iff (hctx : s.cancelled = false) :
    Truthful (s.calls cfg rcpts) (send cfg s rcpts size) ↔
      (.auth, .lost) ∉ s.calls cfg rcpts ∧ (Accepted (s.calls cfg rcpts) → s.quit = .ok) := by
  have hok : send cfg s rcpts size = .ok () ↔
      Accepted (s.calls cfg rcpts) ∧ s.quit = .ok := by
    rw [send_eq_answer, answer_eq_ok_iff, accepted_iff, Session.exchange, List.forall_mem_append,
      List.forall_mem_cons, List.forall_mem_singleton, and_assoc]
  constructor
  · intro h
    constructor
    · intro hlost
      obtain ⟨err, herr, htold⟩ := h.cutShort ⟨.auth, hlost, by simp⟩
      rw [error_of_call hlost rfl] at herr
      obtain rfl := Except.error.inj herr
      simp [blame, GoError.is] at htold
    · intro haccepted
      exact (hok.1 (h.accepted.2 haccepted)).2
  · rintro ⟨hauth, hquit⟩
    refine ⟨⟨fun h => (hok.1 h).1, fun h => hok.2 ⟨h, hquit h⟩⟩, ⟨?_, ?_⟩, ?_⟩
    · rintro ⟨err, herr, htold⟩
      rw [send_eq_answer] at herr
      obtain ⟨phase, r, cause, hmem, hcause, rfl⟩ := answer_eq_error_iff.1 herr
      rw [hctx, blame_is_undeliverable hcause] at htold
      obtain ⟨hcondemns, code, enhanced, rfl, hcode⟩ := htold
      exact ⟨phase, code, enhanced, hmem, hcondemns, hcode⟩
    · rintro ⟨phase, code, enhanced, hmem, hcondemns, hcode⟩
      refine ⟨_, error_of_call hmem rfl, ?_⟩
      rw [hctx, blame_is_undeliverable (r := .refused code enhanced) rfl]
      exact ⟨hcondemns, code, enhanced, rfl, hcode⟩
    · rintro ⟨phase, hmem, hphase⟩
      refine ⟨_, error_of_call hmem rfl, ?_⟩
      rw [hctx]
      refine blame_connection_is_unreachable ?_ hphase
      rintro rfl
      exact hauth hmem

/-- What a submission owes: whatever the server answers and wherever the connection fails, it is
told of truthfully. -/
def AlwaysTruthful : Prop :=
  ∀ (cfg : SMTPConfig) (s : Session) (rcpts : List String) (size : ℕ), s.cancelled = false →
    Truthful (s.calls cfg rcpts) (send cfg s rcpts size)

/-- **An accepted message is told of as a failure** where the connection fails at QUIT. -/
theorem accepted_and_reported_failed : ¬ AlwaysTruthful := by
  intro hclaim
  have htruthful := hclaim { username := "ana" } { quit := .lost } ["rosa@x"] 5 rfl
  have haccepted : Accepted (Session.calls { username := "ana" } { quit := .lost } ["rosa@x"]) := by
    unfold Accepted
    decide
  have hok := htruthful.accepted.2 haccepted
  revert hok
  decide

/-- A recipient that the server refuses for good, and a server that hangs up in the body, are told
of truthfully. -/
theorem refused_recipient_truthful :
    Truthful
      (Session.calls { username := "ana" } { rcpt := fun _ _ => .refused 550 (5, 1, 1) } ["rosa@x"])
      (send { username := "ana" } { rcpt := fun _ _ => .refused 550 (5, 1, 1) } ["rosa@x"] 5) := by
  apply (send_truthful_iff rfl).2
  constructor
  · decide
  · intro haccepted
    rfl

/-! ## What becomes of the letter -/

/-- What `sendOne` tells apart. -/
def reply : Except GoError Unit → SendReply
  | .ok _ => .accepted
  | .error err =>
      if err.is .errUndeliverable then .undeliverable
      else if err.is .errUnreachable then .unreachable
      else .refused

variable [Graphemes]

/-- Where a submission is told of truthfully, a letter that got as far is acked as sent exactly
where the server accepted it, and rejected for good exactly where the server refused it for good. -/
theorem sendOne_of_truthful {answer : Except GoError Unit} (h : Truthful calls answer) {t : Table}
    {item : OutboundItem} {maxLetterChars : ℤ} {contact : Contact}
    (hto : recipient t item maxLetterChars = .ok contact) :
    (sendOne t { reply := reply answer } item maxLetterChars = .ok .sent ↔ Accepted calls) ∧
      (sendOne t { reply := reply answer } item maxLetterChars = .ok .rejectedUndeliverable ↔
        Condemned calls) := by
  rw [← h.accepted, ← h.condemned]
  cases answer with
  | ok u => simp [sendOne, hto, reply]
  | error err =>
      simp only [sendOne, hto, reply]
      by_cases hdead : err.is .errUndeliverable = true
      · simp [hdead]
      · by_cases hunreachable : err.is .errUnreachable = true
        · simp [hdead, hunreachable]
        · simp [hdead, hunreachable]

end Chaskiwasi.Smtp
