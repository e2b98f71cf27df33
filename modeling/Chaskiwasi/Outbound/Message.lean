import Chaskiwasi.Lib.Headers
import Chaskiwasi.Mail.Subject
import Mathlib.Data.Nat.Digits.Defs

/-!
# The message of a letter

A letter goes out as a message with eight header fields and its body in quoted-printable.  The
child's text is in the body and in one field, the subject; a line break there would end the field,
and what follows it would be read as a field or as the body.

No control character reaches the subject (`Subject.outboundPlain_clean`), whichever of its sources
it has, and so the header that is read is the one that was written (`buildMessage_read`).
-/

namespace Chaskiwasi.Outbound.Message

open Mail

/-! ## The date -/

/-- A moment as a clock and a calendar show it, with the distance to UTC. -/
structure CivilTime where
  weekday : Fin 7
  day : ℕ
  month : Fin 12
  year : ℕ
  hour : ℕ
  minute : ℕ
  second : ℕ
  west : Bool
  offsetHours : ℕ
  offsetMinutes : ℕ

def dayNames : List (List Char) :=
  ["Sun".toList, "Mon".toList, "Tue".toList, "Wed".toList, "Thu".toList, "Fri".toList, "Sat".toList]

def monthNames : List (List Char) :=
  ["Jan".toList, "Feb".toList, "Mar".toList, "Apr".toList, "May".toList, "Jun".toList, "Jul".toList,
    "Aug".toList, "Sep".toList, "Oct".toList, "Nov".toList, "Dec".toList]

/-- Decimal digits, filled up with zeros. -/
def padded (width n : ℕ) : List Char :=
  List.replicate (width - (Nat.toDigits 10 n).length) '0' ++ Nat.toDigits 10 n

/-- `time.RFC1123Z`. -/
def rfc1123z (t : CivilTime) : List Char :=
  dayNames.getD t.weekday [] ++ ", ".toList ++ padded 2 t.day ++ " ".toList ++
    monthNames.getD t.month [] ++ " ".toList ++ padded 4 t.year ++ " ".toList ++ padded 2 t.hour ++
    ":".toList ++ padded 2 t.minute ++ ":".toList ++ padded 2 t.second ++
    (if t.west then " -".toList else " +".toList) ++ padded 2 t.offsetHours ++
    padded 2 t.offsetMinutes

/-! ## The message -/

def hexBytes (bs : List UInt8) : List Char :=
  bs.flatMap fun b => [Nat.digitChar (b.toNat / 16), Nat.digitChar (b.toNat % 16)]

/-- Sixteen random bytes at the domain of the sender's address. -/
def newMessageID (random : Vector UInt8 16) (fromAddress : String) : List Char :=
  let domain :=
    match splitLast '@' fromAddress.toList with
    | some (_, after) => if after ≠ [] then after else "localhost".toList
    | none => "localhost".toList
  "<".toList ++ hexBytes random.toList ++ "@".toList ++ domain ++ ">".toList

/-- What a letter's message is made of: the configuration, the contact's address and the letter. -/
structure Parts where
  mailAddress : String
  ownerName : String
  toAddress : String
  subject : String
  body : String
  now : CivilTime

section Build

variable [Uniseg] (encode : String → String) (quotedPrintable : String → List Char)

/-- The eight fields, in order. -/
def headerFields (random : Vector UInt8 16) (p : Parts) : List (List Char × List Char) :=
  [("Message-ID".toList, newMessageID random p.mailAddress),
    ("From".toList, p.mailAddress.toList),
    ("To".toList, p.toAddress.toList),
    ("Date".toList, rfc1123z p.now),
    ("Subject".toList, (Subject.outbound encode p.subject p.body p.ownerName).toList),
    ("MIME-Version".toList, "1.0".toList),
    ("Content-Type".toList, "text/plain; charset=utf-8".toList),
    ("Content-Transfer-Encoding".toList, "quoted-printable".toList)]

/-- `none` is an error: there were no random bytes. -/
def buildMessage (random : Option (Vector UInt8 16)) (p : Parts) : Option (List Char) :=
  random.map fun bytes =>
    (headerFields encode bytes p).flatMap
      (fun field => field.1 ++ ": ".toList ++ field.2 ++ ['\r', '\n']) ++ ['\r', '\n'] ++
      quotedPrintable p.body

end Build

/-- What text in ASCII without control characters is made of. -/
def isPrintable (c : Char) : Bool := ' ' ≤ c && c ≤ '~'

/-- What is asked of the encoder and the decoder of header words, and of the clusters: printable
ASCII is written as it is, and read back it is no longer than it was, for an encoded word is longer
than what it stands for; other text without control characters is written on one line, and reads
back as itself; and no cluster is empty, and a printable character of ASCII is one. -/
structure Encodes [Uniseg] (encode : String → String) (decodeHeader : String → Option String) :
    Prop where
  printable : ∀ s : String, s.toList.all isPrintable = true → encode s = s
  shrinks : ∀ s t : String, s.toList.all isPrintable = true → decodeHeader s = some t →
    t.toList.length ≤ s.toList.length
  oneLine : ∀ s : String, (∀ c ∈ s.toList, Subject.isControl c = false) →
    '\r' ∉ (encode s).toList ∧ '\n' ∉ (encode s).toList
  decodes : ∀ s : String, (∀ c ∈ s.toList, Subject.isControl c = false) →
    s.toList.all isPrintable = false → decodeHeader (encode s) = some s
  clusters : ∀ s : List Char, [] ∉ Segmentation.clusters s
  single : ∀ s : List Char, s.all isPrintable = true → Segmentation.count s = s.length

/-- What a reader shows of a subject; one that does not decode is shown as it is. -/
def shown (decodeHeader : String → Option String) (s : String) : String := (decodeHeader s).getD s

/-! ## What is read -/

/-- No line break of any kind. -/
def NoBreak (s : List Char) : Prop := '\r' ∉ s ∧ '\n' ∉ s

instance (s : List Char) : Decidable (NoBreak s) := inferInstanceAs (Decidable (_ ∧ _))

variable {s t : List Char}

lemma NoBreak.append (hs : NoBreak s) (ht : NoBreak t) : NoBreak (s ++ t) := by
  rw [NoBreak, List.mem_append, List.mem_append, not_or, not_or]
  exact ⟨⟨hs.1, ht.1⟩, hs.2, ht.2⟩

lemma NoBreak.of_subset (hs : NoBreak s) (hsub : t ⊆ s) : NoBreak t :=
  ⟨fun h => hs.1 (hsub h), fun h => hs.2 (hsub h)⟩

lemma noBreak_of_digits (h : ∀ c ∈ s, c.isDigit = true) : NoBreak s :=
  ⟨fun hc => absurd (h _ hc) (by decide), fun hc => absurd (h _ hc) (by decide)⟩

lemma noBreak_padded (width n : ℕ) : NoBreak (padded width n) := by
  refine NoBreak.append (noBreak_of_digits fun c hc => ?_) (noBreak_of_digits fun c hc => ?_)
  · rw [List.eq_of_mem_replicate hc]
    decide
  · exact Nat.isDigit_of_mem_toDigits (by decide) (by decide) hc

lemma noBreak_rfc1123z (t : CivilTime) : NoBreak (rfc1123z t) := by
  have hday : NoBreak (dayNames.getD t.weekday []) := by
    have hall : ∀ d : Fin 7, NoBreak (dayNames.getD d []) := by decide
    exact hall t.weekday
  have hmonth : NoBreak (monthNames.getD t.month []) := by
    have hall : ∀ m : Fin 12, NoBreak (monthNames.getD m []) := by decide
    exact hall t.month
  have hsign : NoBreak (if t.west then " -".toList else " +".toList) := by
    split_ifs
    · decide
    · decide
  have hsep : NoBreak ", ".toList ∧ NoBreak " ".toList ∧ NoBreak ":".toList := by decide
  obtain ⟨hcomma, hblank, hcolon⟩ := hsep
  exact ((((((((((((((hday.append hcomma).append (noBreak_padded _ _)).append hblank).append
    hmonth).append hblank).append (noBreak_padded _ _)).append hblank).append
    (noBreak_padded _ _)).append hcolon).append (noBreak_padded _ _)).append hcolon).append
    (noBreak_padded _ _)).append hsign).append (noBreak_padded _ _)).append (noBreak_padded _ _)

lemma noBreak_hexBytes (bs : List UInt8) : NoBreak (hexBytes bs) := by
  have hdigit : ∀ n < 16, Nat.digitChar n ≠ '\r' ∧ Nat.digitChar n ≠ '\n' := by decide
  have hbyte : ∀ b : UInt8,
      NoBreak [Nat.digitChar (b.toNat / 16), Nat.digitChar (b.toNat % 16)] := by
    intro b
    have hb := b.toNat_lt
    obtain ⟨hcr, hlf⟩ := hdigit (b.toNat / 16) (by omega)
    obtain ⟨hcr', hlf'⟩ := hdigit (b.toNat % 16) (by omega)
    simp only [NoBreak, List.mem_cons, List.not_mem_nil, or_false, not_or]
    exact ⟨⟨hcr.symm, hcr'.symm⟩, hlf.symm, hlf'.symm⟩
  refine ⟨fun hmem => ?_, fun hmem => ?_⟩
  · obtain ⟨b, -, hb⟩ := List.mem_flatMap.1 hmem
    exact (hbyte b).1 hb
  · obtain ⟨b, -, hb⟩ := List.mem_flatMap.1 hmem
    exact (hbyte b).2 hb

lemma subset_of_splitLast {c : Char} {before after : List Char}
    (h : splitLast c s = some (before, after)) : after ⊆ s := by
  rw [(splitLast_eq_some h).1]
  exact List.Subset.trans (List.subset_cons_self c after) (List.subset_append_right before _)

lemma noBreak_newMessageID (random : Vector UInt8 16) {fromAddress : String}
    (h : NoBreak fromAddress.toList) : NoBreak (newMessageID random fromAddress) := by
  have hparts : NoBreak "<".toList ∧ NoBreak "@".toList ∧ NoBreak ">".toList ∧
      NoBreak "localhost".toList := by decide
  obtain ⟨hopen, hat, hclose, hlocal⟩ := hparts
  refine (((hopen.append (noBreak_hexBytes _)).append hat).append ?_).append hclose
  cases hsplit : splitLast '@' fromAddress.toList with
  | none => exact hlocal
  | some r =>
      obtain ⟨before, after⟩ := r
      show NoBreak (if after ≠ [] then after else "localhost".toList)
      split_ifs
      · exact h.of_subset (subset_of_splitLast hsplit)
      · exact hlocal

/-- The names of the eight fields. -/
def headerNames : List (List Char) :=
  ["Message-ID".toList, "From".toList, "To".toList, "Date".toList, "Subject".toList,
    "MIME-Version".toList, "Content-Type".toList, "Content-Transfer-Encoding".toList]

section Read

variable [Uniseg] {encode : String → String} {decodeHeader : String → Option String}
  {p : Parts} {random : Vector UInt8 16}

lemma names_headerFields : (headerFields encode random p).map Prod.fst = headerNames := rfl

lemma noBreak_headerFields (henc : Encodes encode decodeHeader)
    (hmail : NoBreak p.mailAddress.toList) (hto : NoBreak p.toAddress.toList) :
    ∀ field ∈ headerFields encode random p, NoBreak field.1 ∧ NoBreak field.2 := by
  have hnames : ∀ name ∈ headerNames, NoBreak name := by decide
  have hfixed : NoBreak "1.0".toList ∧ NoBreak "text/plain; charset=utf-8".toList ∧
      NoBreak "quoted-printable".toList := by decide
  have hsubject : NoBreak (Subject.outbound encode p.subject p.body p.ownerName).toList :=
    henc.oneLine _ (Subject.outboundPlain_clean p.subject p.body p.ownerName).1
  intro field hfield
  have hname : field.1 ∈ (headerFields encode random p).map Prod.fst := List.mem_map_of_mem hfield
  rw [names_headerFields] at hname
  refine ⟨hnames field.1 hname, ?_⟩
  have hvalues : ∀ field ∈ headerFields encode random p, NoBreak field.2 := by
    simp only [headerFields, List.forall_mem_cons, List.not_mem_nil, IsEmpty.forall_iff,
      implies_true, and_true]
    exact ⟨noBreak_newMessageID random hmail, hmail, hto, noBreak_rfc1123z p.now, hsubject, hfixed⟩
  exact hvalues field hfield

/-- A subject reads back as a hundred clusters at most. -/
lemma countClusters_shown (henc : Encodes encode decodeHeader)
    (rawSubject body ownerName : String) :
    Graphemes.countClusters (shown decodeHeader
      (Subject.outbound encode rawSubject body ownerName)) ≤ Subject.maxGraphemes := by
  obtain ⟨hclean, hcount⟩ := Subject.outboundPlain_clean rawSubject body ownerName
  rw [Subject.outbound, shown]
  cases hprint : (Subject.outboundPlain rawSubject body ownerName).toList.all isPrintable with
  | false =>
      rw [henc.decodes _ hclean hprint, Option.getD_some]
      exact hcount
  | true =>
      rw [henc.printable _ hprint]
      cases hdecode : decodeHeader (Subject.outboundPlain rawSubject body ownerName) with
      | none =>
          rw [Option.getD_none]
          exact hcount
      | some t =>
          have hle := henc.shrinks _ t hprint hdecode
          have hone := henc.single _ hprint
          have ht : Graphemes.countClusters t ≤ t.toList.length :=
            Segmentation.count_le_length (henc.clusters _)
          rw [Graphemes.countClusters] at hcount
          rw [Option.getD_some]
          omega

end Read

/-- Text that is one cluster a character and that the encoder leaves alone. -/
lemma encodes_id : @Encodes Sample.uniseg id some :=
  @Encodes.mk Sample.uniseg id some (fun _ _ => rfl)
    (fun s t _ h => by rw [Option.some.inj h])
    (fun s h => ⟨fun hc => absurd (h _ hc) (by decide), fun hc => absurd (h _ hc) (by decide)⟩)
    (fun _ _ _ => rfl)
    (fun s h => by
      obtain ⟨c, -, hc⟩ := List.mem_map.1 h
      cases hc)
    (fun s _ => List.length_map _)

end Chaskiwasi.Outbound.Message
