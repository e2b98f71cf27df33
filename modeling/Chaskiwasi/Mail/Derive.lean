import Chaskiwasi.Ayllu.Table
import Chaskiwasi.Mail.Folder
import Chaskiwasi.Sync.Wire

/-!
# From a raw message to a letter

Two parsers read a message.  Filing reads the From address with the standard mail parser
(`headerFrom`); derivation reads the whole envelope with the MIME parser (`readEnvelope`).  They,
and the services derivation hands text to, are outside the repository, and stand here as the
fields of `Pipeline`.

`derive` renders one message against the full contact table.  A message that does not parse is
one error, a sender that resolves to nobody another: assembly skips the second and stops at the
first.
-/

namespace Chaskiwasi

/-- What the MIME parser makes of a message. -/
structure Envelope where
  /-- Header values as they appeared on the wire, by name; empty where absent. -/
  header : String → String := fun _ => ""
  /-- The addresses of the From header; `none` where it does not read as an address list. -/
  fromAddrs : Option (List String)
  /-- The `text/plain` part and whether it is `format=flowed`. -/
  textPlain : String × Bool := ("", false)
  /-- The Date header in seconds, where it parses. -/
  date : Option ℤ := none

structure StripResult where
  body : String := ""
  trimmed : Bool := false
  degraded : Bool := false
  deriving DecidableEq, Repr

/-- The two parsers and the services derivation calls. -/
structure Pipeline where
  /-- The first From address, where the message and its From header parse. -/
  headerFrom : List UInt8 → Option String
  readEnvelope : List UInt8 → Option Envelope
  fromMessageID : String → String
  fromFallback : String → String → List UInt8 → String
  strip : String → Bool → StripResult
  normalizeInbound : String → String
  /-- Truncation at `max_letter_chars` graphemes. -/
  truncate : String → String × Bool

inductive DeriveError
  | parse (uid : UID)
  | unresolvedSender (uid : UID) (letterID : String)
  deriving DecidableEq, Repr

/-- A Date header is believed when it lies at most a day after and a month before the mail
server's receipt time. -/
def sanityCheckedDate (header : Option ℤ) (internal : ℤ) : ℤ :=
  match header with
  | none => internal
  | some date =>
      if 24 * 3600 < date - internal ∨ date - internal < -(30 * 24 * 3600) then internal else date

namespace Pipeline

variable (P : Pipeline)

def letterID (env : Envelope) (data : List UInt8) : String :=
  if env.header "Message-Id" ≠ "" then P.fromMessageID (env.header "Message-Id")
  else P.fromFallback (env.header "From") (env.header "Date") data

variable [Runes]

/-- `Pipeline.Derive`. -/
def derive (t : Table) (r : Raw) : Except DeriveError Letter :=
  match P.readEnvelope r.data with
  | none => .error (.parse r.uid)
  | some env =>
      let id := P.letterID env r.data
      match env.fromAddrs with
      | none => .error (.unresolvedSender r.uid id)
      | some [] => .error (.unresolvedSender r.uid id)
      | some (addr :: _) =>
          match t.resolve addr with
          | none => .error (.unresolvedSender r.uid id)
          | some contact =>
              let stripped :=
                if env.textPlain.1 = "" then {} else P.strip env.textPlain.1 env.textPlain.2
              .ok { id := id
                    contactID := contact.id
                    subject := P.normalizeInbound (env.header "Subject")
                    date := sanityCheckedDate env.date r.internalDate
                    body := (P.truncate stripped.body).1
                    trimmed := stripped.trimmed
                    truncated := (P.truncate stripped.body).2
                    degraded := stripped.degraded }

/-- The From address derivation attributes a message by. -/
def envelopeFrom (data : List UInt8) : Option String :=
  (P.readEnvelope data).bind fun env => env.fromAddrs.bind List.head?

/-- What a derived letter is made from: the message's envelope, and the contact that its From
address resolves to. -/
lemma derive_cases {t : Table} {r : Raw} {l : Letter} (h : P.derive t r = .ok l) :
    ∃ env addr addrs contact, P.readEnvelope r.data = some env ∧
      env.fromAddrs = some (addr :: addrs) ∧ t.resolve addr = some contact ∧
      l.contactID = contact.id ∧
      (l.body, l.truncated) = P.truncate
        (if env.textPlain.1 = "" then {} else P.strip env.textPlain.1 env.textPlain.2).body := by
  unfold derive at h
  cases henv : P.readEnvelope r.data with
  | none => simp [henv] at h
  | some env =>
      cases hfrom : env.fromAddrs with
      | none => simp [henv, hfrom] at h
      | some addrs =>
          cases addrs with
          | nil => simp [henv, hfrom] at h
          | cons addr addrs =>
              cases hres : t.resolve addr with
              | none => simp [henv, hfrom, hres] at h
              | some contact =>
                  simp only [henv, hfrom, hres] at h
                  obtain rfl := Except.ok.inj h
                  exact ⟨env, addr, addrs, contact, rfl, hfrom, hres, rfl, rfl⟩

/-- A derived letter is attributed to the contact its envelope's From address resolves to. -/
lemma derive_eq_ok {t : Table} {r : Raw} {l : Letter} (h : P.derive t r = .ok l) :
    ∃ addr contact, P.envelopeFrom r.data = some addr ∧ t.resolve addr = some contact ∧
      l.contactID = contact.id := by
  obtain ⟨env, addr, addrs, contact, henv, hfrom, hres, hid, -⟩ := P.derive_cases h
  exact ⟨addr, contact, by simp [envelopeFrom, henv, hfrom], hres, hid⟩

/-- The text of a message before it is cut. -/
def strippedBody (r : Raw) : String :=
  match P.readEnvelope r.data with
  | none => ""
  | some env =>
      if env.textPlain.1 = "" then "" else (P.strip env.textPlain.1 env.textPlain.2).body

/-- A letter's body is its message's text, cut. -/
lemma body_of_derive {t : Table} {r : Raw} {l : Letter} (h : P.derive t r = .ok l) :
    (l.body, l.truncated) = P.truncate (P.strippedBody r) := by
  obtain ⟨env, -, -, -, henv, -, -, -, hbody⟩ := P.derive_cases h
  rw [hbody, strippedBody]
  simp only [henv]
  split_ifs <;> rfl

end Pipeline
end Chaskiwasi
