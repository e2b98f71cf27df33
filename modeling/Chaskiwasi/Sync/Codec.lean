import Chaskiwasi.Lib.Json
import Chaskiwasi.Outbound.State
import Chaskiwasi.Sync.Snapshot

/-!
# The two ends of the wire

A request is written by the device and read by the server, a response the other way.  The server's
codec keeps text and whole numbers as they are.  The device's hands all text through as C strings
and all numbers through as doubles, and a double above ten to the 15 may be written in a form that
the server does not take for a whole number.

Where nothing of that matters, both ends mean the same (`both_ends_agree`), and the theorem says
exactly where that is.
-/

namespace Chaskiwasi.Codec

open Device

/-- The server's limit on the size of a request. -/
def maxRequestBytes : ℕ := 64 * 1024

def maxKipuBytes : ℕ := 512

/-! ## The device's side -/

/-- How cJSON escapes a character. -/
def escape (c : Char) : List Char :=
  if c = '"' then ['\\', '"']
  else if c = '\\' then ['\\', '\\']
  else if c = '\x08' then ['\\', 'b']
  else if c = '\x0c' then ['\\', 'f']
  else if c = '\n' then ['\\', 'n']
  else if c = '\r' then ['\\', 'r']
  else if c = '\t' then ['\\', 't']
  else if c.toNat < 32 then
    ['\\', 'u', '0', '0', Nat.digitChar (c.toNat / 16), Nat.digitChar (c.toNat % 16)]
  else [c]

/-- The number of bytes of a printed value. -/
def printedBytes (j : Json) : ℕ := ((j.print escape).map Char.utf8Size).sum

/-- A C `int`. -/
abbrev CInt := { n : ℤ // IsInt n }

structure Kipu where
  batteryPct : CInt
  charging : Bool
  rat : String
  rssi : CInt
  queueDepth : CInt
  fw : String

/-- What the device has to say. -/
structure Request where
  cursor : String
  aylluVersion : CInt
  pututuCounterSeen : ℕ := 0
  kipu : Option Kipu := none
  outbound : List Outbound := []

/-- Printed with `%d`, or as a double. -/
def number (n : ℕ) : Literal := if n < 2 ^ 31 then .int n else .ofDouble n

def int (n : CInt) : Json := .num (.int n.1)

def text (s : String) : Json := .str (cstr s)

/-- `EncodeKipu`. -/
def encodeKipu (k : Kipu) : Json :=
  .obj [("battery_pct", int k.batteryPct), ("charging", .bool k.charging), ("fw", text k.fw),
    ("queue_depth", int k.queueDepth), ("rat", text k.rat), ("rssi", int k.rssi)]

/-- The block, if it is not too long. -/
def kipuBlock (k : Kipu) : Option Json :=
  if printedBytes (encodeKipu k) ≤ maxKipuBytes then some (encodeKipu k) else none

/-- One letter of the outbox; an empty subject is left out. -/
def encodeOutbound (o : Outbound) : Json :=
  .obj ([("local_id", text o.localID), ("contact_id", text o.contactID)] ++
    (Json.optional "subject" (if o.subject = "" then none else some (text o.subject)) ++
      [("body", text o.body)]))

/-- `EncodeRequest`. -/
def encodeRequest (r : Request) : Json :=
  .obj ([("cursor", text r.cursor), ("ayllu_version", int r.aylluVersion)] ++
    (Json.optional "pututu_counter_seen"
      (if r.pututuCounterSeen = 0 then none else some (.num (number r.pututuCounterSeen))) ++
    (Json.optional "kipu" (r.kipu.bind kipuBlock) ++
    (Json.optional "outbound"
      (if r.outbound = [] then none else some (.arr (r.outbound.map encodeOutbound)))))))

/-! ## The server's side of a request -/

/-- A field of a Go struct; one that is missing or null stays as it was. -/
def goString : Option Json → Option String
  | none | some .null => some ""
  | some (.str s) => some s
  | some _ => none

/-- A whole number that fits its type, written as one. -/
def goInteger (low high : ℤ) : Option Json → Option ℤ
  | none | some .null => some 0
  | some (.num (.int n)) => if low ≤ n ∧ n < high then some n else none
  | some _ => none

def goInt : Option Json → Option ℤ := goInteger (-2 ^ 63) (2 ^ 63)

def goUint64 : Option Json → Option ℤ := goInteger 0 (2 ^ 64)

/-- A map of whatever there is; its fields, in their order. -/
def goMap : Option Json → Option (List (String × Json))
  | none | some .null => some []
  | some (.obj fields) => some fields
  | some _ => none

def goSlice : Option Json → Option (List Json)
  | none | some .null => some []
  | some (.arr xs) => some xs
  | some _ => none

/-- What the server makes of a request. -/
structure DecodedRequest where
  cursor : String
  aylluVersion : ℤ
  pututuCounterSeen : ℤ
  kipu : List (String × Json)
  outbound : List OutboundItem

/-- `decodeOutbound`: a letter that could not be acked is an error. -/
def decodeOutbound (raw : Json) : Option OutboundItem :=
  match raw with
  | .obj fields => do
      let localID ← goString (raw.get? "local_id")
      let contactID ← goString (raw.get? "contact_id")
      let subject ← goString (raw.get? "subject")
      let body ← goString (raw.get? "body")
      if localID = "" then none
      else
        some
          { letter := ⟨localID, contactID, subject, body⟩
            unknownFields := fields.any fun f =>
              ¬ f.1 ∈ ["local_id", "contact_id", "subject", "body"] }
  | _ => none

/-- `decodeRequest`, of a body of so many bytes. -/
def decodeRequest (body : Json) (bytes : ℕ) : Option DecodedRequest :=
  if maxRequestBytes < bytes then none
  else
    match body with
    | .null => some ⟨"", 0, 0, [], []⟩
    | .obj _ => do
        let cursor ← goString (body.get? "cursor")
        let aylluVersion ← goInt (body.get? "ayllu_version")
        let pututuCounterSeen ← goUint64 (body.get? "pututu_counter_seen")
        let kipu ← goMap (body.get? "kipu")
        let outbound ← goSlice (body.get? "outbound")
        let items ← outbound.mapM decodeOutbound
        some ⟨cursor, aylluVersion, pututuCounterSeen, kipu, items⟩
    | _ => none

/-! ## A request -/

section Request

lemma goString_text (s : String) : goString (some (text s)) = some (cstr s) := rfl

lemma get?_outbound (o : Outbound) :
    (encodeOutbound o).get? "local_id" = some (text o.localID) ∧
      (encodeOutbound o).get? "contact_id" = some (text o.contactID) ∧
      ((encodeOutbound o).get? "subject" =
        if o.subject = "" then none else some (text o.subject)) ∧
      (encodeOutbound o).get? "body" = some (text o.body) := by
  unfold encodeOutbound
  refine ⟨?_, ?_, ?_, ?_⟩
  · simp
  · simp
  · simp
  · simp

/-- The device writes no field that the server does not know. -/
lemma any_unknown_outbound {o : Outbound} {fields : List (String × Json)}
    (h : encodeOutbound o = .obj fields) :
    (fields.any fun f => ¬ f.1 ∈ ["local_id", "contact_id", "subject", "body"]) = false := by
  obtain rfl := Json.obj.inj h
  by_cases hsubject : o.subject = ""
  · simp [Json.optional, hsubject]
  · simp [Json.optional, hsubject]

lemma decodeOutbound_encodeOutbound (o : Outbound) :
    decodeOutbound (encodeOutbound o) =
      if cstr o.localID = "" then none
      else some { letter := ⟨cstr o.localID, cstr o.contactID, cstr o.subject, cstr o.body⟩ } := by
  obtain ⟨hlocal, hcontact, hsubject, hbody⟩ := get?_outbound o
  have hsubject' : goString ((encodeOutbound o).get? "subject") = some (cstr o.subject) := by
    rw [hsubject]
    split_ifs with h
    · rw [h]
      rfl
    · rfl
  obtain ⟨fields, hfields⟩ : ∃ fields, encodeOutbound o = .obj fields := ⟨_, rfl⟩
  have hknown := any_unknown_outbound hfields
  rw [hfields] at hlocal hcontact hsubject' hbody ⊢
  simp only [decodeOutbound, hlocal, hcontact, hsubject', hbody, hknown, goString_text,
    Option.bind_eq_bind, Option.bind_some]

/-- A letter arrives as it is. -/
def PlainOutbound (o : Outbound) : Prop :=
  o.localID ≠ "" ∧ NulFree o.localID ∧ NulFree o.contactID ∧ NulFree o.subject ∧ NulFree o.body

lemma letter_decodeOutbound_iff (o : Outbound) :
    ((decodeOutbound (encodeOutbound o)).map (·.letter) = some o) ↔ PlainOutbound o := by
  obtain ⟨localID, contactID, subject, body⟩ := o
  rw [decodeOutbound_encodeOutbound]
  unfold PlainOutbound
  dsimp only
  split_ifs with hempty
  · rw [Option.map_none]
    refine ⟨fun h => by (cases h), fun h => absurd ?_ h.1⟩
    rw [← cstr_eq_iff.2 h.2.1, hempty]
  · rw [Option.map_some, Option.some_inj, Outbound.mk.injEq, cstr_eq_iff, cstr_eq_iff,
      cstr_eq_iff, cstr_eq_iff]
    refine ⟨fun h => ⟨?_, h⟩, fun h => h.2⟩
    rintro rfl
    exact hempty rfl

/-- A list that is read element by element arrives as is wanted where each of its elements does. -/
lemma exists_mapM_iff {α β γ δ : Type} {dec : α → Option β} {enc : γ → α} {view : β → δ}
    {want : γ → δ} {xs : List γ} :
    (∃ ys, (xs.map enc).mapM dec = some ys ∧ ys.map view = xs.map want) ↔
      ∀ x ∈ xs, (dec (enc x)).map view = some (want x) := by
  induction xs with
  | nil => simp
  | cons x xs ih =>
      rw [List.forall_mem_cons, ← ih]
      simp only [List.map_cons, List.mapM_cons, Option.bind_eq_bind, Option.bind_eq_some_iff,
        Option.map_eq_some_iff]
      constructor
      · rintro ⟨ys, ⟨y, hy, ys', hys', hcons⟩, hview⟩
        obtain rfl := Option.some.inj hcons
        obtain ⟨hhead, htail⟩ := List.cons.inj hview
        exact ⟨⟨y, hy, hhead⟩, ys', hys', htail⟩
      · rintro ⟨⟨y, hy, hhead⟩, ys, hys, htail⟩
        exact ⟨y :: ys, ⟨y, hy, ys, hys, rfl⟩, by rw [List.map_cons, hhead, htail]⟩

/-- The same, where the elements are wanted as they are read. -/
lemma mapM_eq_some_map_iff {α β γ : Type} {dec : α → Option β} {enc : γ → α} {want : γ → β}
    {xs : List γ} :
    (xs.map enc).mapM dec = some (xs.map want) ↔ ∀ x ∈ xs, dec (enc x) = some (want x) := by
  have h : (∃ ys, (xs.map enc).mapM dec = some ys ∧ ys.map id = xs.map want) ↔
      ∀ x ∈ xs, (dec (enc x)).map id = some (want x) := exists_mapM_iff
  simpa using h

/-- Where both ends mean the same counter. -/
def PlainCounter (n : ℕ) : Prop := n < 10 ^ 15 ∨ ¬ 10 ∣ n

lemma digits_eq {p n : ℕ} (hpos : 0 < p) (hlow : 10 ^ p ≤ n) (hhigh : n < 10 ^ (p + 1)) :
    Literal.digits n = p + 1 := by
  have hle : Literal.digits n ≤ p + 1 :=
    (Nat.length_toDigits_le_iff (by decide) (Nat.succ_pos p)).2 hhigh
  have hnot : ¬ Literal.digits n ≤ p := fun h =>
    not_lt.2 hlow ((Nat.length_toDigits_le_iff (by decide) hpos).1 h)
  omega

/-- Sixteen digits, written with fifteen. -/
lemma ofPrecision_of_large {n : ℕ} (hlow : 10 ^ 15 ≤ n) (hhigh : n < 10 ^ 16) :
    Literal.ofPrecision 15 n = .sci ((2 * n + 10 ^ 1) / (2 * 10 ^ 1)) 1 := by
  rw [Literal.ofPrecision, if_neg (not_lt.2 hlow), digits_eq (by decide) hlow hhigh]

/-- A counter is written as a whole number exactly where it is short or its last digit counts. -/
lemma number_eq_int_iff {n : ℕ} (h : n < 2 ^ 53) : number n = .int n ↔ PlainCounter n := by
  unfold number PlainCounter
  rcases Nat.lt_or_ge n (2 ^ 31) with hsmall | hlarge
  · rw [if_pos hsmall]
    exact ⟨fun _ => Or.inl (by omega), fun _ => rfl⟩
  · rw [if_neg (not_lt.2 hlarge), Literal.ofDouble]
    rcases Nat.lt_or_ge n (10 ^ 15) with hshort | hlong
    · have hplain : Literal.ofPrecision 15 n = .int n := by
        rw [Literal.ofPrecision, if_pos hshort]
      rw [hplain, Literal.value, if_pos rfl]
      exact ⟨fun _ => Or.inl hshort, fun _ => rfl⟩
    · rw [ofPrecision_of_large hlong (by omega), Literal.value]
      by_cases hlast : 10 ∣ n
      · have hback : ((((2 * n + 10 ^ 1) / (2 * 10 ^ 1) : ℕ) : ℤ) * 10 ^ 1) = n := by omega
        rw [if_pos hback]
        refine ⟨fun heq => by (cases heq), fun hplain => ?_⟩
        rcases hplain with hshort | hnot
        · exact absurd hshort (not_lt.2 hlong)
        · exact absurd hlast hnot
      · have hback : ¬ ((((2 * n + 10 ^ 1) / (2 * 10 ^ 1) : ℕ) : ℤ) * 10 ^ 1) = n := by omega
        rw [if_neg hback, Literal.ofPrecision, if_pos (by omega)]
        exact ⟨fun _ => Or.inr hlast, fun _ => rfl⟩

lemma goInteger_int (low high n : ℤ) :
    goInteger low high (some (.num (.int n))) = if low ≤ n ∧ n < high then some n else none := rfl

lemma goUint64_number_iff {n : ℕ} (h : n < 2 ^ 53) :
    goUint64 (some (.num (number n))) = some (n : ℤ) ↔ PlainCounter n := by
  rw [← number_eq_int_iff h, goUint64]
  constructor
  · intro heq
    cases hnumber : number n with
    | int m =>
        rw [hnumber, goInteger_int] at heq
        split_ifs at heq
        rw [Option.some.inj heq]
    | sci m e =>
        rw [hnumber] at heq
        cases heq
  · intro hnumber
    rw [hnumber, goInteger_int, if_pos (by omega)]

lemma goInt_int (n : CInt) : goInt (some (int n)) = some n.1 := by
  obtain ⟨hlow, hhigh⟩ := n.2
  rw [int, goInt, goInteger_int, if_pos (by omega)]

/-- The fields of a request. -/
lemma get?_request (r : Request) :
    (encodeRequest r).get? "cursor" = some (text r.cursor) ∧
      (encodeRequest r).get? "ayllu_version" = some (int r.aylluVersion) ∧
      ((encodeRequest r).get? "pututu_counter_seen" =
        if r.pututuCounterSeen = 0 then none else some (.num (number r.pututuCounterSeen))) ∧
      (encodeRequest r).get? "kipu" = r.kipu.bind kipuBlock ∧
      ((encodeRequest r).get? "outbound" =
        if r.outbound = [] then none else some (.arr (r.outbound.map encodeOutbound))) := by
  unfold encodeRequest
  refine ⟨?_, ?_, ?_, ?_, ?_⟩
  · simp
  · simp
  · simp
  · simp
  · simp

/-- The request is small enough, its counter is plain, and so is all its text. -/
structure Request.Plain (r : Request) : Prop where
  cursor : NulFree r.cursor
  counter : PlainCounter r.pututuCounterSeen
  outbound : ∀ o ∈ r.outbound, PlainOutbound o
  fits : printedBytes (encodeRequest r) ≤ maxRequestBytes

/-- The server accepts the request and means the same by it. -/
def Request.Understood (r : Request) : Prop :=
  ∃ q, decodeRequest (encodeRequest r) (printedBytes (encodeRequest r)) = some q ∧
    q.cursor = r.cursor ∧ q.aylluVersion = r.aylluVersion ∧
    q.pututuCounterSeen = r.pututuCounterSeen ∧ q.outbound.map (·.letter) = r.outbound

lemma goMap_kipu (k : Option Kipu) : ∃ fields, goMap (k.bind kipuBlock) = some fields := by
  cases k with
  | none => exact ⟨[], rfl⟩
  | some k =>
      rw [Option.bind_some, kipuBlock]
      split_ifs
      · exact ⟨_, rfl⟩
      · exact ⟨[], rfl⟩

/-- The counter, as the server reads it. -/
def seenCounter (n : ℕ) : Option ℤ :=
  if n = 0 then some 0 else goUint64 (some (.num (number n)))

lemma seenCounter_eq_iff {n : ℕ} (h : n < 2 ^ 53) :
    seenCounter n = some (n : ℤ) ↔ PlainCounter n := by
  unfold seenCounter
  split_ifs with hzero
  · rw [hzero]
    exact ⟨fun _ => Or.inl (by decide), fun _ => rfl⟩
  · exact goUint64_number_iff h

lemma decodeRequest_encodeRequest {r : Request} {bytes : ℕ} {q : DecodedRequest} :
    decodeRequest (encodeRequest r) bytes = some q ↔ bytes ≤ maxRequestBytes ∧
      ∃ pututuCounterSeen kipu items, seenCounter r.pututuCounterSeen = some pututuCounterSeen ∧
        goMap (r.kipu.bind kipuBlock) = some kipu ∧
        (r.outbound.map encodeOutbound).mapM decodeOutbound = some items ∧
        q = ⟨cstr r.cursor, r.aylluVersion, pututuCounterSeen, kipu, items⟩ := by
  obtain ⟨hcursor, hversion, hcounter, hkipu, houtbound⟩ := get?_request r
  obtain ⟨fields, hfields⟩ : ∃ fields, encodeRequest r = .obj fields := ⟨_, rfl⟩
  rw [hfields] at hcursor hversion hcounter hkipu houtbound ⊢
  have hslice : goSlice ((Json.obj fields).get? "outbound") =
      some (r.outbound.map encodeOutbound) := by
    rw [houtbound]
    split_ifs with hempty
    · rw [hempty]
      rfl
    · rfl
  have hseen : goUint64 ((Json.obj fields).get? "pututu_counter_seen") =
      seenCounter r.pututuCounterSeen := by
    rw [hcounter, seenCounter]
    split_ifs <;> rfl
  unfold decodeRequest
  split_ifs with hlong
  · exact ⟨fun h => by (cases h), fun h => absurd hlong (not_lt.2 h.1)⟩
  · simp only [hcursor, goString_text, hversion, goInt_int, hseen, hkipu, hslice,
      Option.bind_eq_bind, Option.bind_some, Option.bind_eq_some_iff, Option.some_inj]
    constructor
    · rintro ⟨seen, hseen, kipu, hkipu, items, hitems, rfl⟩
      exact ⟨not_lt.1 hlong, seen, kipu, items, hseen, hkipu, hitems, rfl⟩
    · rintro ⟨-, seen, kipu, items, hseen, hkipu, hitems, rfl⟩
      exact ⟨seen, hseen, kipu, hkipu, items, hitems, rfl⟩

lemma request_understood_iff {r : Request} (h : r.pututuCounterSeen < 2 ^ 53) :
    r.Understood ↔ r.Plain := by
  have hletters : (∃ items, (r.outbound.map encodeOutbound).mapM decodeOutbound = some items ∧
      items.map (·.letter) = r.outbound.map id) ↔ ∀ o ∈ r.outbound, PlainOutbound o :=
    exists_mapM_iff.trans (forall₂_congr fun o _ => letter_decodeOutbound_iff o)
  rw [List.map_id] at hletters
  constructor
  · rintro ⟨q, hq, hcursor, -, hcounter, houtbound⟩
    obtain ⟨hfits, seen, kipu, items, hseen, -, hitems, rfl⟩ := decodeRequest_encodeRequest.1 hq
    exact ⟨cstr_eq_iff.1 hcursor, (seenCounter_eq_iff h).1 (hcounter ▸ hseen),
      hletters.1 ⟨items, hitems, houtbound⟩, hfits⟩
  · rintro ⟨hcursor, hcounter, houtbound, hfits⟩
    obtain ⟨kipu, hkipu⟩ := goMap_kipu r.kipu
    obtain ⟨items, hitems, hview⟩ := hletters.2 houtbound
    exact ⟨_, decodeRequest_encodeRequest.2 ⟨hfits, _, kipu, items,
      (seenCounter_eq_iff h).2 hcounter, hkipu, hitems, rfl⟩, cstr_eq_iff.2 hcursor, rfl, rfl,
      hview⟩

end Request

/-! ## The server's side of a response -/

/-- What the server has to say. -/
structure Response where
  serverTime : ℤ
  cursor : String
  pututuCounter : ℕ
  acks : List Ack := []
  letters : List Letter := []
  more : Bool := false
  ayllu : Option Ayllu := none
  config : Option DeviceConfig := none

def ackText : AckStatus → String
  | .sent => "sent"
  | .rejectedInactive => "rejected_inactive"
  | .rejectedUnknownContact => "rejected_unknown_contact"
  | .invalid => "invalid"
  | .rejectedUndeliverable => "rejected_undeliverable"

def marshalAck (a : Ack) : Json :=
  .obj [("local_id", .str a.localID), ("status", .str (ackText a.status))]

def marshalLetter (l : Letter) : Json :=
  .obj [("id", .str l.id), ("contact_id", .str l.contactID), ("subject", .str l.subject),
    ("date", .num (.int l.date)), ("body", .str l.body), ("trimmed", .bool l.trimmed),
    ("truncated", .bool l.truncated), ("degraded", .bool l.degraded)]

def marshalContact (c : AylluContact) : Json :=
  .obj [("id", .str c.id), ("name", .str c.name), ("active", .bool c.active),
    ("pinned", .bool c.pinned), ("order", .num (.int c.order)), ("portrait", .str c.portrait)]

def marshalAyllu (a : Ayllu) : Json :=
  .obj [("version", .num (.int a.version)), ("contacts", .arr (a.contacts.map marshalContact))]

/-- An empty string is left out. -/
def omitEmpty (s : String) : Option Json := if s = "" then none else some (.str s)

def marshalConfig (c : DeviceConfig) : Json :=
  .obj ([("max_letter_chars", .num (.int c.maxLetterChars)),
      ("sync_interval_s", .num (.int c.syncIntervalS))] ++
    (Json.optional "rat" (omitEmpty c.rat) ++ Json.optional "cover" (omitEmpty c.cover)))

/-- `json.Marshal`; an empty list is left out. -/
def marshalResponse (r : Response) : Json :=
  .obj ([("server_time", .num (.int r.serverTime)), ("cursor", .str r.cursor),
      ("pututu_counter", .num (.int r.pututuCounter))] ++
    (Json.optional "acks" (if r.acks = [] then none else some (.arr (r.acks.map marshalAck))) ++
    (Json.optional "letters"
      (if r.letters = [] then none else some (.arr (r.letters.map marshalLetter))) ++
    ([("more", .bool r.more)] ++
    (Json.optional "ayllu" (r.ayllu.map marshalAyllu) ++
      Json.optional "config" (r.config.map marshalConfig))))))

/-! ## The device's side of a response -/

def stringOr (o : Json) (key dflt : String) : String :=
  match o.get? key with
  | some (.str s) => cstr s
  | _ => dflt

def boolOr (o : Json) (key : String) (dflt : Bool) : Bool :=
  match o.get? key with
  | some (.bool b) => b
  | _ => dflt

/-- Absent is not the same as empty. -/
def requiredString (o : Json) (key : String) : Option String :=
  match o.get? key with
  | some (.str s) => some (cstr s)
  | _ => none

def isObject : Json → Bool
  | .obj _ => true
  | _ => false

section Reader

variable (D : Doubles)

def int64Or (o : Json) (key : String) (dflt : ℤ) : ℤ :=
  match o.get? key with
  | some (.num n) => D.ofNumber n.value
  | _ => dflt

def intOr (o : Json) (key : String) (dflt : ℤ) : ℤ :=
  match o.get? key with
  | some (.num n) => D.intOr n.value
  | _ => dflt

/-- `valueint`, which stops at the ends of its type. -/
def valueint (n : ℤ) : ℤ := max (-2 ^ 31) (min (2 ^ 31 - 1) (D.ofNumber n))

end Reader

def parseAckStatus (s : String) : Option AckStatus :=
  if s = "sent" then some .sent
  else if s = "rejected_inactive" then some .rejectedInactive
  else if s = "rejected_unknown_contact" then some .rejectedUnknownContact
  else if s = "invalid" then some .invalid
  else if s = "rejected_undeliverable" then some .rejectedUndeliverable
  else none

/-- `DecodeAck`, of an object. -/
def decodeAck (o : Json) : Option DecodedAck := do
  let localID ← requiredString o "local_id"
  let status ← requiredString o "status"
  if isObject o ∧ localID ≠ "" then some ⟨localID, parseAckStatus status⟩ else none

section Decode

variable (D : Doubles)

/-- `DecodeLetter`, of an object. -/
def decodeLetter (o : Json) : Option Letter := do
  let id ← requiredString o "id"
  if isObject o ∧ id ≠ "" then
    some ⟨id, stringOr o "contact_id" "", stringOr o "subject" "", int64Or D o "date" 0,
      stringOr o "body" "", boolOr o "trimmed" false, boolOr o "truncated" false,
      boolOr o "degraded" false⟩
  else none

/-- `DecodeContact`, of an object. -/
def decodeContact (o : Json) : Option AylluContact := do
  let id ← requiredString o "id"
  if isObject o ∧ id ≠ "" then
    some ⟨id, stringOr o "name" "", boolOr o "active" false, boolOr o "pinned" false,
      intOr D o "order" 0, stringOr o "portrait" ""⟩
  else none

/-- `DecodeConfig`: what is absent stays so. -/
def decodeConfig (o : Json) : PushedConfig where
  maxLetterChars :=
    match o.get? "max_letter_chars" with
    | some (.num n) => some (valueint D n.value)
    | _ => none
  syncIntervalS :=
    match o.get? "sync_interval_s" with
    | some (.num n) => some (valueint D n.value)
    | _ => none
  rat := requiredString o "rat"
  cover := requiredString o "cover"

/-- The elements of a list; anything else is passed over. -/
def elements : Option Json → List Json
  | some (.arr xs) => xs
  | _ => []

def decodeAyllu : Option Json → Option (Option Ayllu)
  | some (.obj fields) => do
      let contacts ← (elements ((Json.obj fields).get? "contacts")).mapM (decodeContact D)
      some (some ⟨(intOr D (.obj fields) "version" 0).toNat, contacts⟩)
  | _ => some none

/-- `DecodeResponse`, but for the doorbell counter. -/
def decodeResponse (root : Json) : Option SyncResponse := do
  let cursor ← requiredString root "cursor"
  let acks ← (elements (root.get? "acks")).mapM decodeAck
  let letters ← (elements (root.get? "letters")).mapM (decodeLetter D)
  let ayllu ← decodeAyllu D (root.get? "ayllu")
  if isObject root then
    some
      { serverTime := int64Or D root "server_time" 0
        cursor := cursor
        acks := acks
        letters := letters
        more := boolOr root "more" false
        ayllu := ayllu
        config :=
          match root.get? "config" with
          | some (.obj fields) => some (decodeConfig D (.obj fields))
          | _ => none }
  else none

end Decode

/-! ## A response -/

/-- An ack, as the device is to read it. -/
def decodedAck (a : Ack) : DecodedAck := ⟨a.localID, some a.status⟩

/-- A setting that the server leaves out is none to the device. -/
def pushed (c : DeviceConfig) : PushedConfig where
  maxLetterChars := some c.maxLetterChars
  syncIntervalS := some c.syncIntervalS
  rat := if c.rat = "" then none else some c.rat
  cover := if c.cover = "" then none else some c.cover

section Response

variable (D : Doubles)

lemma requiredString_str {o : Json} {key s : String} (h : o.get? key = some (.str s)) :
    requiredString o key = some (cstr s) := by
  rw [requiredString, h]

lemma parseAckStatus_ackText (s : AckStatus) : parseAckStatus (cstr (ackText s)) = some s := by
  cases s <;> decide

def PlainAck (a : Ack) : Prop := a.localID ≠ "" ∧ NulFree a.localID

lemma decodeAck_marshalAck (a : Ack) :
    decodeAck (marshalAck a) =
      if cstr a.localID ≠ "" then some ⟨cstr a.localID, some a.status⟩ else none := by
  simp [decodeAck, marshalAck, requiredString, isObject, parseAckStatus_ackText]

lemma decodeAck_marshalAck_iff (a : Ack) :
    decodeAck (marshalAck a) = some (decodedAck a) ↔ PlainAck a := by
  rw [decodeAck_marshalAck]
  constructor
  · intro h
    split_ifs at h with hid
    have heq := congrArg DecodedAck.localID (Option.some.inj h)
    exact ⟨fun hempty => hid (heq.trans hempty), cstr_eq_iff.1 heq⟩
  · rintro ⟨hne, hid⟩
    rw [cstr_eq_iff.2 hid, if_pos hne]
    rfl

structure PlainLetter (l : Letter) : Prop where
  id_ne : l.id ≠ ""
  id : NulFree l.id
  contactID : NulFree l.contactID
  subject : NulFree l.subject
  body : NulFree l.body
  date : D.ofNumber l.date = l.date

lemma decodeLetter_marshalLetter (l : Letter) :
    decodeLetter D (marshalLetter l) =
      if cstr l.id ≠ "" then
        some { l with
          id := cstr l.id
          contactID := cstr l.contactID
          subject := cstr l.subject
          date := D.ofNumber l.date
          body := cstr l.body }
      else none := by
  simp [decodeLetter, marshalLetter, requiredString, stringOr, int64Or, boolOr, isObject,
    Literal.value]

lemma decodeLetter_marshalLetter_iff (l : Letter) :
    decodeLetter D (marshalLetter l) = some l ↔ PlainLetter D l := by
  rw [decodeLetter_marshalLetter]
  constructor
  · intro h
    split_ifs at h with hid
    have heq := Option.some.inj h
    have hidEq := congrArg Letter.id heq
    exact ⟨fun hempty => hid (hidEq.trans hempty), cstr_eq_iff.1 hidEq,
      cstr_eq_iff.1 (congrArg Letter.contactID heq), cstr_eq_iff.1 (congrArg Letter.subject heq),
      cstr_eq_iff.1 (congrArg Letter.body heq), congrArg Letter.date heq⟩
  · rintro ⟨hne, hid, hcontact, hsubject, hbody, hdate⟩
    rw [cstr_eq_iff.2 hid, if_pos hne, cstr_eq_iff.2 hcontact, cstr_eq_iff.2 hsubject,
      cstr_eq_iff.2 hbody, hdate]

structure PlainContact (c : AylluContact) : Prop where
  id_ne : c.id ≠ ""
  id : NulFree c.id
  name : NulFree c.name
  order : IsInt c.order
  portrait : NulFree c.portrait

lemma decodeContact_marshalContact (c : AylluContact) :
    decodeContact D (marshalContact c) =
      if cstr c.id ≠ "" then
        some { c with
          id := cstr c.id
          name := cstr c.name
          order := D.intOr c.order
          portrait := cstr c.portrait }
      else none := by
  simp [decodeContact, marshalContact, requiredString, stringOr, intOr, boolOr, isObject,
    Literal.value]

lemma decodeContact_marshalContact_iff (c : AylluContact) :
    decodeContact D (marshalContact c) = some c ↔ PlainContact c := by
  rw [decodeContact_marshalContact]
  constructor
  · intro h
    split_ifs at h with hid
    have heq := Option.some.inj h
    have hidEq := congrArg AylluContact.id heq
    exact ⟨fun hempty => hid (hidEq.trans hempty), cstr_eq_iff.1 hidEq,
      cstr_eq_iff.1 (congrArg AylluContact.name heq),
      D.intOr_eq_iff.1 (congrArg AylluContact.order heq),
      cstr_eq_iff.1 (congrArg AylluContact.portrait heq)⟩
  · rintro ⟨hne, hid, hname, horder, hportrait⟩
    rw [cstr_eq_iff.2 hid, if_pos hne, cstr_eq_iff.2 hname, D.intOr_eq_iff.2 horder,
      cstr_eq_iff.2 hportrait]

structure PlainAyllu (a : Ayllu) : Prop where
  version : IsInt a.version
  contacts : ∀ c ∈ a.contacts, PlainContact c

/-- A version that is none of the device's numbers does not become the right one. -/
lemma toNat_intOr_eq_iff (v : ℕ) : (D.intOr v).toNat = v ↔ IsInt v := by
  rw [← D.intOr_eq_iff]
  constructor
  · intro h
    rcases Nat.eq_zero_or_pos v with rfl | hpos
    · exact D.intOr_eq_iff.2 ⟨by decide, by decide⟩
    · omega
  · intro h
    rw [h, Int.toNat_natCast]

lemma decodeAyllu_marshalAyllu_iff (a : Ayllu) :
    decodeAyllu D (some (marshalAyllu a)) = some (some a) ↔ PlainAyllu a := by
  have hcontacts : (a.contacts.map marshalContact).mapM (decodeContact D) =
      some (a.contacts.map id) ↔ ∀ c ∈ a.contacts, PlainContact c :=
    mapM_eq_some_map_iff.trans (forall₂_congr fun c _ => decodeContact_marshalContact_iff D c)
  rw [List.map_id] at hcontacts
  have hdecode : decodeAyllu D (some (marshalAyllu a)) =
      ((a.contacts.map marshalContact).mapM (decodeContact D)).bind fun contacts =>
        some (some ⟨(D.intOr a.version).toNat, contacts⟩) := by
    simp [decodeAyllu, marshalAyllu, elements, intOr, Literal.value]
  rw [hdecode, Option.bind_eq_some_iff]
  constructor
  · rintro ⟨contacts, hmap, heq⟩
    have hview := Option.some.inj (Option.some.inj heq)
    refine ⟨(toNat_intOr_eq_iff D _).1 (congrArg Ayllu.version hview), hcontacts.1 ?_⟩
    rw [hmap, ← congrArg Ayllu.contacts hview]
  · rintro ⟨hversion, hplain⟩
    exact ⟨a.contacts, hcontacts.2 hplain, by rw [(toNat_intOr_eq_iff D _).2 hversion]⟩

structure PlainConfig (c : DeviceConfig) : Prop where
  maxLetterChars : IsInt c.maxLetterChars
  syncIntervalS : IsInt c.syncIntervalS
  rat : NulFree c.rat
  cover : NulFree c.cover

lemma valueint_eq_iff (n : ℤ) : valueint D n = n ↔ IsInt n := by
  unfold valueint IsInt
  constructor
  · intro h
    omega
  · intro h
    rw [D.exact n (by omega)]
    omega

lemma requiredString_omitEmpty {o : Json} {key s : String} (h : o.get? key = omitEmpty s) :
    requiredString o key = (if s = "" then none else some s) ↔ NulFree s := by
  rw [requiredString, h, omitEmpty]
  split_ifs with hempty
  · rw [hempty]
    exact ⟨fun _ => by decide, fun _ => rfl⟩
  · exact Option.some_inj.trans cstr_eq_iff

/-- The fields of the settings. -/
lemma get?_config (c : DeviceConfig) :
    (marshalConfig c).get? "max_letter_chars" = some (.num (.int c.maxLetterChars)) ∧
      (marshalConfig c).get? "sync_interval_s" = some (.num (.int c.syncIntervalS)) ∧
      (marshalConfig c).get? "rat" = omitEmpty c.rat ∧
      (marshalConfig c).get? "cover" = omitEmpty c.cover := by
  unfold marshalConfig
  refine ⟨?_, ?_, ?_, ?_⟩
  · simp
  · simp
  · simp
  · simp

lemma decodeConfig_marshalConfig_iff (c : DeviceConfig) :
    decodeConfig D (marshalConfig c) = pushed c ↔ PlainConfig c := by
  obtain ⟨hmax, hinterval, hrat, hcover⟩ := get?_config c
  rw [decodeConfig, pushed, hmax, hinterval, PushedConfig.mk.injEq,
    requiredString_omitEmpty hrat, requiredString_omitEmpty hcover]
  dsimp only
  rw [Option.some_inj, Option.some_inj, Literal.value, Literal.value, valueint_eq_iff,
    valueint_eq_iff]
  exact ⟨fun h => ⟨h.1, h.2.1, h.2.2.1, h.2.2.2⟩, fun h => ⟨h.1, h.2, h.3, h.4⟩⟩

/-- The fields of a response. -/
lemma get?_response (r : Response) :
    (marshalResponse r).get? "cursor" = some (.str r.cursor) ∧
      (marshalResponse r).get? "more" = some (.bool r.more) ∧
      ((marshalResponse r).get? "acks" =
        if r.acks = [] then none else some (.arr (r.acks.map marshalAck))) ∧
      ((marshalResponse r).get? "letters" =
        if r.letters = [] then none else some (.arr (r.letters.map marshalLetter))) ∧
      (marshalResponse r).get? "ayllu" = r.ayllu.map marshalAyllu ∧
      (marshalResponse r).get? "config" = r.config.map marshalConfig := by
  unfold marshalResponse
  refine ⟨?_, ?_, ?_, ?_, ?_, ?_⟩
  · simp
  · simp
  · simp
  · simp
  · simp
  · simp

lemma elements_optional {α : Type} (xs : List α) (f : α → Json) [Decidable (xs = [])] :
    elements (if xs = [] then none else some (.arr (xs.map f))) = xs.map f := by
  split_ifs with h
  · rw [h]
    rfl
  · rfl

/-- What the device makes of the settings. -/
def readConfig (c : Option DeviceConfig) : Option PushedConfig :=
  c.map fun c => decodeConfig D (marshalConfig c)

lemma decodeResponse_marshalResponse {r : Response} {q : SyncResponse} :
    decodeResponse D (marshalResponse r) = some q ↔ ∃ acks letters ayllu,
      (r.acks.map marshalAck).mapM decodeAck = some acks ∧
      (r.letters.map marshalLetter).mapM (decodeLetter D) = some letters ∧
      decodeAyllu D (r.ayllu.map marshalAyllu) = some ayllu ∧
      q = ⟨int64Or D (marshalResponse r) "server_time" 0, cstr r.cursor, acks, letters, r.more,
        ayllu, readConfig D r.config⟩ := by
  obtain ⟨hcursor, hmore, hacks, hletters, hayllu, hconfig⟩ := get?_response r
  have hobject : isObject (marshalResponse r) = true := rfl
  have hread : (match (marshalResponse r).get? "config" with
      | some (.obj fields) => some (decodeConfig D (.obj fields))
      | _ => none) = readConfig D r.config := by
    rw [hconfig]
    cases r.config with
    | none => rfl
    | some c => rfl
  have hflag : boolOr (marshalResponse r) "more" false = r.more := by
    rw [boolOr, hmore]
  rw [decodeResponse, requiredString_str hcursor, hacks, hletters, hayllu, hflag, hread,
    elements_optional, elements_optional]
  simp only [hobject, if_true, Option.bind_eq_bind, Option.bind_some, Option.bind_eq_some_iff,
    Option.some_inj]
  constructor
  · rintro ⟨acks, hacks, letters, hletters, ayllu, hayllu, rfl⟩
    exact ⟨acks, letters, ayllu, hacks, hletters, hayllu, rfl⟩
  · rintro ⟨acks, letters, ayllu, hacks, hletters, hayllu, rfl⟩
    exact ⟨acks, hacks, letters, hletters, ayllu, hayllu, rfl⟩

end Response

/-- All the text of the response is plain, its ids are there, its dates are exact in a double, and
its other numbers are the device's. -/
structure Response.Plain (D : Doubles) (r : Response) : Prop where
  cursor : NulFree r.cursor
  acks : ∀ a ∈ r.acks, PlainAck a
  letters : ∀ l ∈ r.letters, PlainLetter D l
  ayllu : ∀ a ∈ r.ayllu, PlainAyllu a
  config : ∀ c ∈ r.config, PlainConfig c

/-- The device accepts the response and means the same by it. -/
def Response.Understood (D : Doubles) (r : Response) : Prop :=
  ∃ q, decodeResponse D (marshalResponse r) = some q ∧ q.cursor = r.cursor ∧ q.more = r.more ∧
    q.acks = r.acks.map decodedAck ∧ q.letters = r.letters ∧ q.ayllu = r.ayllu ∧
    q.config = r.config.map pushed

lemma decodeAyllu_map_iff (D : Doubles) (a : Option Ayllu) :
    decodeAyllu D (a.map marshalAyllu) = some a ↔ ∀ b ∈ a, PlainAyllu b := by
  cases a with
  | none => exact ⟨fun _ b h => by (cases h), fun _ => rfl⟩
  | some a =>
      rw [Option.map_some, decodeAyllu_marshalAyllu_iff]
      exact ⟨fun h b hb => Option.some.inj hb ▸ h, fun h => h a rfl⟩

lemma readConfig_iff (D : Doubles) (c : Option DeviceConfig) :
    readConfig D c = c.map pushed ↔ ∀ d ∈ c, PlainConfig d := by
  cases c with
  | none => exact ⟨fun _ d h => by (cases h), fun _ => rfl⟩
  | some c =>
      rw [readConfig, Option.map_some, Option.map_some, Option.some_inj,
        decodeConfig_marshalConfig_iff]
      exact ⟨fun h d hd => Option.some.inj hd ▸ h, fun h => h c rfl⟩

lemma response_understood_iff (D : Doubles) (r : Response) : r.Understood D ↔ r.Plain D := by
  have hacks : (r.acks.map marshalAck).mapM decodeAck = some (r.acks.map decodedAck) ↔
      ∀ a ∈ r.acks, PlainAck a :=
    mapM_eq_some_map_iff.trans (forall₂_congr fun a _ => decodeAck_marshalAck_iff a)
  have hletters : (r.letters.map marshalLetter).mapM (decodeLetter D) =
      some (r.letters.map id) ↔ ∀ l ∈ r.letters, PlainLetter D l :=
    mapM_eq_some_map_iff.trans (forall₂_congr fun l _ => decodeLetter_marshalLetter_iff D l)
  rw [List.map_id] at hletters
  constructor
  · rintro ⟨q, hq, hcursor, -, hacks', hletters', hayllu', hconfig'⟩
    obtain ⟨acks, letters, ayllu, ha, hl, hy, rfl⟩ := (decodeResponse_marshalResponse D).1 hq
    exact ⟨cstr_eq_iff.1 hcursor, hacks.1 (ha.trans (congrArg some hacks')),
      hletters.1 (hl.trans (congrArg some hletters')),
      (decodeAyllu_map_iff D _).1 (hy.trans (congrArg some hayllu')),
      (readConfig_iff D _).1 hconfig'⟩
  · rintro ⟨hcursor, ha, hl, hy, hc⟩
    exact ⟨_, (decodeResponse_marshalResponse D).2
        ⟨_, _, _, hacks.2 ha, hletters.2 hl, (decodeAyllu_map_iff D _).2 hy, rfl⟩,
      cstr_eq_iff.2 hcursor, rfl, rfl, rfl, rfl, (readConfig_iff D _).2 hc⟩

/-! ## Both -/

/-- Both ends mean the same exactly where all that C and its doubles could lose is plain. -/
theorem both_ends_agree (D : Doubles) (r : Response) {q : Request}
    (hcounter : q.pututuCounterSeen < 2 ^ 53) :
    (r.Understood D ↔ r.Plain D) ∧ (q.Understood ↔ q.Plain) :=
  ⟨response_understood_iff D r, request_understood_iff hcounter⟩

end Chaskiwasi.Codec

namespace Chaskiwasi.Sample

open Codec

/-- A letter with a NUL in its text. -/
def nulLetter : Codec.Response where
  serverTime := 1790000000
  cursor := "1:7"
  pututuCounter := 3
  letters := [⟨"l-0123456789", "c_ana", "hi", 1790000000, "one\x00two", false, false, false⟩]

def firstRequest : Codec.Request where
  cursor := ""
  aylluVersion := ⟨0, by decide⟩
  pututuCounterSeen := 5
  outbound := [⟨"0001", "c_ana", "", "hello \"you\""⟩]

end Chaskiwasi.Sample

namespace Chaskiwasi.Codec

theorem first_request_understood :
    ¬ Sample.nulLetter.Understood Sample.exactDoubles ∧ Sample.firstRequest.Understood := by
  obtain ⟨hresponse, hrequest⟩ := both_ends_agree Sample.exactDoubles Sample.nulLetter
    (q := Sample.firstRequest) (by decide)
  refine ⟨fun h => ?_, hrequest.2 ⟨?_, ?_, ?_, ?_⟩⟩
  · exact ((hresponse.1 h).letters _ (List.mem_singleton.2 rfl)).body (by decide)
  · decide
  · exact Or.inl (by decide)
  · intro o ho
    rw [List.mem_singleton.1 ho]
    exact ⟨by decide, by decide, by decide, by decide, by decide⟩
  · decide +kernel

/-- The device shows a letter that ends before its NUL. -/
theorem nul_letter_cut :
    (decodeResponse Sample.exactDoubles (marshalResponse Sample.nulLetter)).map
        (fun q => q.letters.map (·.body)) = some ["one"] ∧
      ¬ Sample.nulLetter.Understood Sample.exactDoubles := by
  refine ⟨by decide +kernel, fun h => ?_⟩
  have hplain := (response_understood_iff _ _).1 h
  exact (hplain.letters _ (List.mem_singleton.2 rfl)).body (by decide)

end Chaskiwasi.Codec
