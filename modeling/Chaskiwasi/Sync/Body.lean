import Chaskiwasi.Lib.JsonSize
import Chaskiwasi.Server.Announced
import Chaskiwasi.Sync.Codec
import Mathlib.Algebra.Ring.Int.Defs

/-!
# How long a response gets

The letters of a response are chosen under a byte budget, before the response is finished.  What the
rest of it takes is measured on a skeleton, which has no letters, no contact list, a counter of zero
and a cursor of the right length; each letter is then charged its own JSON and a separator.  The
first letter is taken whatever its size.

`assembleLoop_takes_from` says which letters the loop takes: of the letters that are up, in their
order, exactly the prefixes that keep the budget.  `marshalledBytes_response` says what a response
comes to.  Put together they say what the budget misses: the brackets and the key of the list of
letters, and the digits of the counter.
-/

namespace Chaskiwasi

/-! ## The letters that a round takes -/

section Loop

variable (encodedLength : Letter → ℕ) (derive : Raw → Except DeriveError Letter)

/-- The message derives, or its sender resolves to nobody. -/
def Reads (raw : Raw) : Bool :=
  match derive raw with
  | .error (.parse _) => false
  | _ => true

/-- The letters of the messages before the first that does not parse. -/
def offered (raws : List Raw) : List Letter :=
  (raws.takeWhile (Reads derive)).filterMap fun raw => (derive raw).toOption

/-- What the letters are charged. -/
def charge (ls : List Letter) : ℤ := (ls.map (letterSize encodedLength)).sum

/-- Letters that the budget leaves room for; one alone always has it. -/
def Keeps (budget : ℤ) (ls : List Letter) : Prop :=
  ls.length ≤ 1 ∨ charge encodedLength ls ≤ budget

/-- The same, after letters that were taken before. -/
def KeepsAfter (asm : Assembly) (ls : List Letter) : Prop :=
  ls = [] ∨ asm.letters = [] ∧ ls.length = 1 ∨ charge encodedLength ls ≤ asm.budget

@[simp] lemma charge_nil : charge encodedLength [] = 0 := rfl

@[simp] lemma charge_cons (l : Letter) (ls : List Letter) :
    charge encodedLength (l :: ls) = letterSize encodedLength l + charge encodedLength ls := by
  rw [charge, List.map_cons, List.sum_cons, charge]

lemma letterSize_pos (l : Letter) : 0 < letterSize encodedLength l := by
  unfold letterSize
  omega

lemma charge_nonneg (ls : List Letter) : 0 ≤ charge encodedLength ls := by
  induction ls with
  | nil => exact le_rfl
  | cons l ls ih =>
      have hpos := letterSize_pos encodedLength l
      rw [charge_cons]
      omega

lemma offered_cons (raw : Raw) (raws : List Raw) :
    offered derive (raw :: raws) =
      match derive raw with
      | .ok l => l :: offered derive raws
      | .error (.unresolvedSender ..) => offered derive raws
      | .error (.parse _) => [] := by
  unfold offered
  cases hderive : derive raw with
  | ok l =>
      rw [List.takeWhile_cons_of_pos (by rw [Reads, hderive]), List.filterMap_cons, hderive]
      rfl
  | error e =>
      cases e with
      | unresolvedSender uid id =>
          rw [List.takeWhile_cons_of_pos (by rw [Reads, hderive]), List.filterMap_cons, hderive]
          rfl
      | parse uid =>
          rw [List.takeWhile_cons_of_neg (by rw [Reads, hderive]; exact nofun)]
          rfl

/-- Whether all the messages read. -/
def AllRead (raws : List Raw) : Prop := ∀ raw ∈ raws, Reads derive raw = true

instance (raws : List Raw) : Decidable (AllRead derive raws) :=
  inferInstanceAs (Decidable (∀ raw ∈ raws, _))

/-- What the loop comes to, from any of its states. -/
structure Takes (asm : Assembly) (raws : List Raw) (asm' : Assembly) (through : Bool)
    (ls : List Letter) : Prop where
  loop : assembleLoop encodedLength derive asm raws = .ok (asm', through)
  letters : asm'.letters = asm.letters ++ ls
  isPrefix : ls <+: offered derive raws
  through_iff : through = true ↔ ls = offered derive raws ∧ AllRead derive raws
  keeps_iff : ∀ p, p <+: offered derive raws → (p <+: ls ↔ KeepsAfter encodedLength asm p)

variable {encodedLength derive}

lemma keepsAfter_cons_iff {asm : Assembly} {l : Letter} {uid : UID} {p : List Letter}
    (hroom : asm.letters = [] ∨ 0 ≤ asm.budget - letterSize encodedLength l) :
    KeepsAfter encodedLength asm (l :: p) ↔
      KeepsAfter encodedLength
        ⟨asm.budget - letterSize encodedLength l, asm.letters ++ [l], uid⟩ p := by
  unfold KeepsAfter
  rw [charge_cons, List.length_cons]
  constructor
  · rintro (hnil | ⟨-, hone⟩ | hle)
    · cases hnil
    · exact Or.inl (List.eq_nil_of_length_eq_zero (by omega))
    · exact Or.inr (Or.inr (by dsimp only; omega))
  · rintro (rfl | ⟨hnil, -⟩ | hle)
    · rcases hroom with hfirst | hroom
      · exact Or.inr (Or.inl ⟨hfirst, rfl⟩)
      · exact Or.inr (Or.inr (by rw [charge_nil]; omega))
    · exact absurd hnil (by simp)
    · exact Or.inr (Or.inr (by dsimp only at hle; omega))

/-- The loop takes letters as long as they keep the budget, and fails only where it has none and
meets a message that does not parse. -/
lemma assembleLoop_takes_from (asm : Assembly) (raws : List Raw) :
    (∃ asm' through ls, Takes encodedLength derive asm raws asm' through ls) ∨
      asm.letters = [] ∧ offered derive raws = [] ∧ ¬ AllRead derive raws ∧
        ∃ err, assembleLoop encodedLength derive asm raws = .error err := by
  induction raws generalizing asm with
  | nil =>
      refine Or.inl ⟨asm, true, [], rfl, (List.append_nil _).symm, List.nil_prefix, ?_, ?_⟩
      · exact ⟨fun _ => ⟨rfl, List.forall_mem_nil _⟩, fun _ => rfl⟩
      · intro p hp
        obtain rfl := List.prefix_nil.1 hp
        exact ⟨fun _ => Or.inl rfl, fun _ => hp⟩
  | cons raw raws ih =>
      have hall : AllRead derive (raw :: raws) ↔
          Reads derive raw = true ∧ AllRead derive raws := List.forall_mem_cons
      cases hderive : derive raw with
      | ok l =>
          have hreads : Reads derive raw = true := by rw [Reads, hderive]
          have hoffered : offered derive (raw :: raws) = l :: offered derive raws := by
            rw [offered_cons, hderive]
          by_cases hfull : asm.letters ≠ [] ∧ asm.budget - letterSize encodedLength l < 0
          · -- The letter does not fit: nothing that starts with it does.
            refine Or.inl ⟨asm, false, [], ?_, (List.append_nil _).symm, List.nil_prefix, ?_, ?_⟩
            · rw [assembleLoop, hderive, assembleOne]
              rw [if_pos hfull]
            · rw [hoffered]
              exact ⟨fun h => by (cases h), fun h => by (cases h.1)⟩
            · intro p hp
              rw [List.prefix_nil]
              refine ⟨Or.inl, ?_⟩
              rintro (hnil | ⟨hempty, -⟩ | hle)
              · exact hnil
              · exact absurd hempty hfull.1
              · rw [hoffered] at hp
                rcases List.prefix_cons_iff.1 hp with hnil | ⟨q, rfl, -⟩
                · exact hnil
                · have hnonneg := charge_nonneg encodedLength q
                  rw [charge_cons] at hle
                  omega
          · have hroom : asm.letters = [] ∨ 0 ≤ asm.budget - letterSize encodedLength l := by
              rw [not_and_or, not_not, not_lt] at hfull
              exact hfull
            have hstep : assembleLoop encodedLength derive asm (raw :: raws) =
                assembleLoop encodedLength derive
                  ⟨asm.budget - letterSize encodedLength l, asm.letters ++ [l], raw.uid⟩ raws := by
              rw [assembleLoop, hderive, assembleOne]
              rw [if_neg hfull]
            rcases ih ⟨asm.budget - letterSize encodedLength l, asm.letters ++ [l], raw.uid⟩ with
              ⟨asm', through, ls, h⟩ | ⟨hempty, -⟩
            · refine Or.inl ⟨asm', through, l :: ls, hstep.trans h.loop, ?_, ?_, ?_, ?_⟩
              · rw [h.letters, List.append_assoc, List.singleton_append]
              · rw [hoffered]
                exact (List.prefix_cons_inj l).2 h.isPrefix
              · rw [h.through_iff, hoffered, hall, List.cons.injEq]
                exact ⟨fun h => ⟨⟨rfl, h.1⟩, hreads, h.2⟩, fun h => ⟨h.1.2, h.2.2⟩⟩
              · intro p hp
                rw [hoffered] at hp
                rcases List.prefix_cons_iff.1 hp with rfl | ⟨q, rfl, hq⟩
                · exact ⟨fun _ => Or.inl rfl, fun _ => List.nil_prefix⟩
                · rw [List.prefix_cons_inj, h.keeps_iff q hq]
                  exact (keepsAfter_cons_iff hroom).symm
            · exact absurd hempty (by simp)
      | error e =>
          cases e with
          | unresolvedSender uid id =>
              have hreads : Reads derive raw = true := by rw [Reads, hderive]
              have hoffered : offered derive (raw :: raws) = offered derive raws := by
                rw [offered_cons, hderive]
              have hstep : assembleLoop encodedLength derive asm (raw :: raws) =
                  assembleLoop encodedLength derive { asm with lastUID := raw.uid } raws := by
                rw [assembleLoop, hderive, assembleOne]
              rcases ih { asm with lastUID := raw.uid } with
                ⟨asm', through, ls, h⟩ | ⟨hempty, hnone, hread, err, herr⟩
              · refine Or.inl ⟨asm', through, ls, hstep.trans h.loop, h.letters, ?_, ?_, ?_⟩
                · rw [hoffered]
                  exact h.isPrefix
                · rw [h.through_iff, hoffered, hall]
                  exact ⟨fun h => ⟨h.1, hreads, h.2⟩, fun h => ⟨h.1, h.2.2⟩⟩
                · intro p hp
                  rw [hoffered] at hp
                  exact h.keeps_iff p hp
              · refine Or.inr ⟨hempty, hoffered.trans hnone, ?_, err, hstep.trans herr⟩
                rw [hall]
                exact fun h => hread h.2
          | parse uid =>
              have hoffered : offered derive (raw :: raws) = [] := by
                rw [offered_cons, hderive]
              have hread : ¬ AllRead derive (raw :: raws) := by
                rw [hall, Reads, hderive]
                exact fun h => by (cases h.1)
              by_cases hempty : asm.letters = []
              · refine Or.inr ⟨hempty, hoffered, hread, .parse uid, ?_⟩
                rw [assembleLoop, hderive, assembleOne]
                rw [if_pos hempty]
              · refine Or.inl ⟨asm, false, [], ?_, (List.append_nil _).symm, List.nil_prefix, ?_,
                  ?_⟩
                · rw [assembleLoop, hderive, assembleOne]
                  rw [if_neg hempty]
                · exact ⟨fun h => by (cases h), fun h => absurd h.2 hread⟩
                · intro p hp
                  rw [hoffered] at hp
                  obtain rfl := List.prefix_nil.1 hp
                  exact ⟨fun _ => Or.inl rfl, fun _ => hp⟩

end Loop

namespace Codec

/-! ## The text of a response -/

/-- How `json.Marshal` escapes a character: so that it is safe in HTML and in JavaScript, too. -/
def marshalEscape (c : Char) : List Char :=
  if c = '"' then ['\\', '"']
  else if c = '\\' then ['\\', '\\']
  else if c = '\x08' then ['\\', 'b']
  else if c = '\x0c' then ['\\', 'f']
  else if c = '\n' then ['\\', 'n']
  else if c = '\r' then ['\\', 'r']
  else if c = '\t' then ['\\', 't']
  else if c.toNat < 32 ∨ c ∈ ['<', '>', '&'] then
    ['\\', 'u', '0', '0', Nat.digitChar (c.toNat / 16), Nat.digitChar (c.toNat % 16)]
  else if c ∈ ['\u2028', '\u2029'] then ['\\', 'u', '2', '0', '2', Nat.digitChar (c.toNat % 16)]
  else [c]

/-- The bytes of what `json.Marshal` writes. -/
def marshalledBytes (j : Json) : ℕ := j.size marshalEscape

/-- The bytes of a character in a marshalled string. -/
def marshalWeight (c : Char) : ℕ :=
  if c ∈ ['"', '\\', '\x08', '\x0c', '\n', '\r', '\t'] then 2
  else if c.toNat < 32 ∨ c ∈ ['<', '>', '&', '\u2028', '\u2029'] then 6
  else c.utf8Size

/-- The bytes of a marshalled string, without its quotes. -/
def marshalledTextBytes (s : String) : ℕ := (s.toList.map marshalWeight).sum

/-- The bytes of a flag. -/
def flagBytes (b : Bool) : ℕ := if b then 4 else 5

/-- The bytes of a letter of a response. -/
def letterWeight (l : Letter) : ℕ :=
  92 + marshalledTextBytes l.id + marshalledTextBytes l.contactID + marshalledTextBytes l.subject +
    Json.width (Literal.int l.date).print + marshalledTextBytes l.body + flagBytes l.trimmed +
    flagBytes l.truncated + flagBytes l.degraded

/-- The bytes of the letters of a response. -/
def lettersBytes (ls : List Letter) : ℕ :=
  if ls = [] then 0 else 12 + (ls.map fun l => letterWeight l + 1).sum

lemma width_marshalEscape (c : Char) : Json.width (marshalEscape c) = marshalWeight c := by
  have hdigit : ∀ n < 16, (Nat.digitChar n).utf8Size = 1 := by decide
  by_cases hshort : c ∈ ['"', '\\', '\x08', '\x0c', '\n', '\r', '\t']
  · rw [marshalWeight, if_pos hshort]
    simp only [List.mem_cons, List.not_mem_nil, or_false] at hshort
    rcases hshort with rfl | rfl | rfl | rfl | rfl | rfl | rfl <;> decide
  · rw [marshalWeight, if_neg hshort]
    simp only [List.mem_cons, List.not_mem_nil, or_false, not_or] at hshort
    obtain ⟨hquote, hslash, hback, hfeed, hline, hreturn, htab⟩ := hshort
    rw [marshalEscape, if_neg hquote, if_neg hslash, if_neg hback, if_neg hfeed, if_neg hline,
      if_neg hreturn, if_neg htab]
    by_cases hhex : c.toNat < 32 ∨ c ∈ ['<', '>', '&']
    · have hbelow : c.toNat < 256 := by
        rcases hhex with hcontrol | hhtml
        · omega
        · simp only [List.mem_cons, List.not_mem_nil, or_false] at hhtml
          rcases hhtml with rfl | rfl | rfl <;> decide
      have hweight : c.toNat < 32 ∨ c ∈ ['<', '>', '&', '\u2028', '\u2029'] :=
        hhex.imp_right fun hhtml => List.mem_append_left ['\u2028', '\u2029'] hhtml
      have hfixed : Json.width ['\\', 'u', '0', '0'] = 4 := by decide
      have hsplit : ['\\', 'u', '0', '0', Nat.digitChar (c.toNat / 16),
          Nat.digitChar (c.toNat % 16)] = ['\\', 'u', '0', '0'] ++
            [Nat.digitChar (c.toNat / 16), Nat.digitChar (c.toNat % 16)] := rfl
      rw [if_pos hhex, if_pos hweight, hsplit, Json.width_append, hfixed, Json.width_cons,
        Json.width_cons, Json.width_nil, hdigit _ (by omega),
        hdigit _ (Nat.mod_lt _ (by decide))]
    · rw [if_neg hhex]
      by_cases hseparator : c ∈ ['\u2028', '\u2029']
      · simp only [List.mem_cons, List.not_mem_nil, or_false] at hseparator
        rcases hseparator with rfl | rfl <;> decide
      · have hweight : ¬ (c.toNat < 32 ∨ c ∈ ['<', '>', '&', '\u2028', '\u2029']) := by
          rintro (hcontrol | hmem)
          · exact hhex (Or.inl hcontrol)
          · rcases List.mem_append.1 (show c ∈ ['<', '>', '&'] ++ ['\u2028', '\u2029'] from hmem)
              with hhtml | hsep
            · exact hhex (Or.inr hhtml)
            · exact hseparator hsep
        rw [if_neg hseparator, if_neg hweight, Json.width_cons, Json.width_nil, Nat.add_zero]

lemma size_marshalled_str (s : String) :
    (Json.str s).size marshalEscape = 2 + marshalledTextBytes s := by
  rw [Json.size_str, Json.quotedSize_eq marshalEscape width_marshalEscape, marshalledTextBytes]

lemma size_marshalled_bool (b : Bool) : (Json.bool b).size marshalEscape = flagBytes b :=
  Json.size_bool marshalEscape b

lemma size_marshalled_letter (l : Letter) :
    (marshalLetter l).size marshalEscape = letterWeight l := by
  have hid : Json.quotedSize marshalEscape "id" = 4 := by decide
  have hcontact : Json.quotedSize marshalEscape "contact_id" = 12 := by decide
  have hsubject : Json.quotedSize marshalEscape "subject" = 9 := by decide
  have hdate : Json.quotedSize marshalEscape "date" = 6 := by decide
  have hbody : Json.quotedSize marshalEscape "body" = 6 := by decide
  have htrimmed : Json.quotedSize marshalEscape "trimmed" = 9 := by decide
  have htruncated : Json.quotedSize marshalEscape "truncated" = 11 := by decide
  have hdegraded : Json.quotedSize marshalEscape "degraded" = 10 := by decide
  rw [marshalLetter, Json.size_obj marshalEscape (by simp), letterWeight]
  simp only [List.map_cons, List.map_nil, List.sum_cons, List.sum_nil, Json.fieldSize,
    size_marshalled_str, size_marshalled_bool, Json.size_num, hid, hcontact, hsubject, hdate, hbody,
    htrimmed, htruncated, hdegraded]
  omega

/-- A response is as long as it is without its letters, and its letters. -/
theorem marshalledBytes_response (r : Response) :
    marshalledBytes (marshalResponse r) =
      marshalledBytes (marshalResponse { r with letters := [] }) + lettersBytes r.letters := by
  have hkey : Json.quotedSize marshalEscape "letters" + 2 = 11 := by decide
  have hnone : ((Json.optional "letters" none).map (Json.fieldSize marshalEscape)).sum = 0 := rfl
  have hletters : (if r.letters = [] then 0
      else 11 + (Json.arr (r.letters.map marshalLetter)).size marshalEscape) =
        lettersBytes r.letters := by
    rw [lettersBytes]
    split_ifs with hempty
    · rfl
    · rw [Json.size_arr marshalEscape (by simpa using hempty), List.map_map]
      simp only [Function.comp_def, size_marshalled_letter]
      omega
  rw [marshalledBytes, marshalledBytes, marshalResponse, marshalResponse,
    Json.size_obj marshalEscape (by simp), Json.size_obj marshalEscape (by simp)]
  simp only [List.map_append, List.sum_append, Json.sum_optional_ite, hkey, hletters, if_true,
    hnone]
  omega

/-! ## The handler -/

/-- What a sync finds, and what its response says besides. -/
structure Visit where
  table : Table
  inbox : Folder
  uidValidity : UID
  pipeline : UID → Pipeline
  serverTime : ℤ
  /-- The request's cursor and version. -/
  cursor : String
  aylluVersion : ℕ
  /-- What `processOutbound` returns. -/
  acks : List Ack := []
  /-- What `commitSync` returns. -/
  pututuCounter : ℕ := 0

section Handler

variable [Runes] [Uniseg] (cfg : Toml) (maxLetterChars : ℤ) (x : Visit)

/-- The deriver of a server that started with this limit. -/
def Visit.derive (raw : Raw) : Except DeriveError Letter :=
  (Announced.capped (x.pipeline raw.uid) maxLetterChars).derive x.table raw

/-- The response that `budgetFor` measures. -/
def skeleton : Response where
  serverTime := x.serverTime
  cursor := encodeCursor 0 0
  pututuCounter := 0
  acks := x.acks
  config := some (Announced.deviceConfig cfg)

/-- What the letters may be charged. -/
def lettersBudget : ℤ :=
  budgetFor cfg.budgetBytes (marshalledBytes (marshalResponse (skeleton cfg x)))

/-- The response, as `assembleLetters` and `commitSync` finish it. -/
def Visit.finish (round : Assembled) : Response where
  serverTime := x.serverTime
  cursor := encodeCursor x.uidValidity round.lastUID
  pututuCounter := x.pututuCounter
  acks := x.acks
  letters := round.letters
  more := round.more
  ayllu := x.table.deviceView x.aylluVersion
  config := some (Announced.deviceConfig cfg)

/-- `Handler.sync`. -/
def response : Except DeriveError Response :=
  (assembleLetters (fun l => marshalledBytes (marshalLetter l)) (x.derive maxLetterChars) x.inbox
    x.uidValidity cfg.resyncWindow.toNat (lettersBudget cfg x) x.cursor).map (x.finish cfg)

/-- The messages that a round looks at, and whether there may be more. -/
def Visit.fetched : List Raw × Bool :=
  fetchFrom x.inbox cfg.resyncWindow.toNat (cursorBoundary x.cursor x.uidValidity)

/-- The letters that are up. -/
def Visit.up : List Letter := offered (x.derive maxLetterChars) (x.fetched cfg).1

/-- Whether more remains after these of them. -/
def Visit.moreAfter (ls : List Letter) : Bool :=
  if ls = x.up cfg maxLetterChars ∧ AllRead (x.derive maxLetterChars) (x.fetched cfg).1 then
    (x.fetched cfg).2
  else true

end Handler

lemma marshalledTextBytes_encodeCursor (uidValidity lastUID : UID) :
    marshalledTextBytes (encodeCursor uidValidity lastUID) = 11 := by
  have hsymbol : ∀ s, marshalWeight (urlSymbol s) = 1 := by decide +kernel
  rw [marshalledTextBytes, encodeCursor, String.toList_ofList, Base64.Alphabet.encode,
    List.map_map]
  have hone : marshalWeight ∘ rawURLEncoding.symbol = fun _ => 1 := funext hsymbol
  rw [hone]
  rfl

/-- Responses without letters that differ in their cursors, counters and flags differ in length by
those. -/
lemma bytes_bare (serverTime : ℤ) (cursor cursor' : String) (pututuCounter pututuCounter' : ℕ)
    (acks : List Ack) (more more' : Bool) (ayllu : Option Ayllu) (config : Option DeviceConfig) :
    marshalledBytes (marshalResponse
        ⟨serverTime, cursor, pututuCounter, acks, [], more, ayllu, config⟩) +
      (marshalledTextBytes cursor' + Json.width (Literal.int pututuCounter').print +
        flagBytes more') =
    marshalledBytes (marshalResponse
        ⟨serverTime, cursor', pututuCounter', acks, [], more', ayllu, config⟩) +
      (marshalledTextBytes cursor + Json.width (Literal.int pututuCounter).print +
        flagBytes more) := by
  rw [marshalledBytes, marshalledBytes, marshalResponse, marshalResponse,
    Json.size_obj marshalEscape (by simp), Json.size_obj marshalEscape (by simp)]
  simp only [List.map_append, List.sum_append, List.map_cons, List.map_nil, List.sum_cons,
    List.sum_nil, Json.fieldSize, Json.size_num, size_marshalled_str, size_marshalled_bool]
  omega

section Handler

variable [Runes] [Uniseg] (cfg : Toml) (maxLetterChars : ℤ) (x : Visit)

/-- A response without its letters and contacts. -/
def Visit.bare (round : Assembled) : Response :=
  ⟨x.serverTime, encodeCursor x.uidValidity round.lastUID, x.pututuCounter, x.acks, [], round.more,
    none, some (Announced.deviceConfig cfg)⟩

omit [Runes] [Uniseg] in
/-- But for letters and contacts, a response differs from its skeleton in two numbers. -/
lemma bytes_bare_add (round : Assembled) :
    marshalledBytes (marshalResponse (x.bare cfg round)) + 6 =
      marshalledBytes (marshalResponse (skeleton cfg x)) +
        Json.width (Literal.int x.pututuCounter).print + flagBytes round.more := by
  have hzero : Json.width (Literal.int (0 : ℕ)).print = 1 := by decide
  have hfalse : flagBytes false = 5 := rfl
  have hbare := bytes_bare x.serverTime (encodeCursor x.uidValidity round.lastUID)
    (encodeCursor 0 0) x.pututuCounter 0 x.acks round.more false none
    (some (Announced.deviceConfig cfg))
  rw [marshalledTextBytes_encodeCursor, marshalledTextBytes_encodeCursor, hzero, hfalse] at hbare
  have hskeleton : skeleton cfg x =
      ⟨x.serverTime, encodeCursor 0 0, 0, x.acks, [], false, none,
        some (Announced.deviceConfig cfg)⟩ := rfl
  rw [Visit.bare, hskeleton]
  omega

/-- What a response comes to, where there is one: the letters are those prefixes of the letters that
are up that keep the budget. -/
lemma response_cases :
    (∃ round, response cfg maxLetterChars x = .ok (x.finish cfg round) ∧
      round.letters <+: x.up cfg maxLetterChars ∧
      round.more = x.moreAfter cfg maxLetterChars round.letters ∧
      ∀ p, p <+: x.up cfg maxLetterChars →
        (p <+: round.letters ↔ Keeps letterWeight (lettersBudget cfg x) p)) ∨
    x.up cfg maxLetterChars = [] ∧ ¬ AllRead (x.derive maxLetterChars) (x.fetched cfg).1 ∧
      ∃ err, response cfg maxLetterChars x = .error err := by
  have hweight : (fun l => marshalledBytes (marshalLetter l)) = letterWeight :=
    funext size_marshalled_letter
  unfold response assembleLetters assembleFrom
  rw [hweight]
  have hfetched : fetchFrom x.inbox cfg.resyncWindow.toNat
      (cursorBoundary x.cursor x.uidValidity) = ((x.fetched cfg).1, (x.fetched cfg).2) := rfl
  rw [hfetched]
  dsimp only
  rcases @assembleLoop_takes_from letterWeight (x.derive maxLetterChars)
    ⟨lettersBudget cfg x, [], (cursorBoundary x.cursor x.uidValidity).getD 0⟩
    (x.fetched cfg).1 with ⟨asm', through, ls, h⟩ | ⟨-, hnone, hread, err, herr⟩
  · refine Or.inl ⟨⟨asm'.letters, asm'.lastUID, if through then (x.fetched cfg).2 else true⟩, ?_⟩
    have hletters : asm'.letters = ls := h.letters
    rw [h.loop]
    refine ⟨rfl, ?_, ?_, fun p hp => ?_⟩
    · rw [hletters]
      exact h.isPrefix
    · dsimp only
      rw [hletters, Visit.moreAfter]
      exact if_congr h.through_iff rfl rfl
    · dsimp only
      rw [hletters, h.keeps_iff p hp, KeepsAfter, Keeps]
      constructor
      · rintro (rfl | ⟨-, hone⟩ | hle)
        · exact Or.inl (Nat.zero_le 1)
        · exact Or.inl (le_of_eq hone)
        · exact Or.inr hle
      · rintro (hshort | hle)
        · rcases Nat.le_one_iff_eq_zero_or_eq_one.1 hshort with hzero | hone
          · exact Or.inl (List.eq_nil_of_length_eq_zero hzero)
          · exact Or.inr (Or.inl ⟨rfl, hone⟩)
        · exact Or.inr (Or.inr hle)
  · exact Or.inr ⟨hnone, hread, err, by rw [herr]; rfl⟩

end Handler

/-! ## The budget -/

section Budget

variable [Runes] [Uniseg] (cfg : Toml) (maxLetterChars : ℤ) (x : Visit)

/-- What the letters take that they are not charged: the key and the brackets of their list, the
counter's digits but for one, and a byte where `more` is not true. -/
def uncharged (pututuCounter : ℕ) (more : Bool) : ℕ :=
  6 + Json.width (Literal.int pututuCounter).print + flagBytes more

omit [Runes] [Uniseg] in
lemma charge_eq (ls : List Letter) :
    charge letterWeight ls = (ls.map fun l => letterWeight l + 1).sum := by
  induction ls with
  | nil => rfl
  | cons l ls ih =>
      rw [charge_cons, ih, List.map_cons, List.sum_cons, letterSize]
      push_cast
      rfl

omit [Runes] [Uniseg] in
/-- A response with letters and without contacts. -/
lemma bytes_of_letters {round : Assembled} (h : round.letters ≠ []) :
    (marshalledBytes (marshalResponse { x.finish cfg round with ayllu := none }) : ℤ) =
      marshalledBytes (marshalResponse (skeleton cfg x)) + charge letterWeight round.letters +
        uncharged x.pututuCounter round.more := by
  have hsize : marshalledBytes (marshalResponse { x.finish cfg round with ayllu := none }) =
      marshalledBytes (marshalResponse (x.bare cfg round)) + lettersBytes round.letters :=
    marshalledBytes_response _
  have hbare := bytes_bare_add cfg x round
  have hletters : lettersBytes round.letters =
      12 + (round.letters.map fun l => letterWeight l + 1).sum := if_neg h
  rw [hsize, hletters, charge_eq, uncharged]
  push_cast
  omega

omit [Runes] [Uniseg] in
/-- One more letter is charged more than the flag can change. -/
lemma charge_lt_of_prefix {p q : List Letter} (h : p <+: q) (hne : p ≠ q) :
    charge letterWeight p + 1 < charge letterWeight q := by
  obtain ⟨rest, rfl⟩ := h
  cases rest with
  | nil => exact absurd (List.append_nil p).symm hne
  | cons l rest =>
      have hweight : 92 ≤ letterWeight l := by
        unfold letterWeight
        omega
      have hless : (p.map fun l => letterWeight l + 1).sum + 1 <
          ((p ++ l :: rest).map fun l => letterWeight l + 1).sum := by
        rw [List.map_append, List.sum_append, List.map_cons, List.sum_cons]
        omega
      rw [charge_eq, charge_eq]
      exact Int.ofNat_lt.2 hless

/-- Every response with two or more letters is within the budget, its contacts aside. -/
def BudgetHonoured : Prop :=
  ∀ (cfg : Toml) (maxLetterChars : ℤ) (x : Visit) (r : Response),
    response cfg maxLetterChars x = .ok r → 2 ≤ r.letters.length →
    (marshalledBytes (marshalResponse { r with ayllu := none }) : ℤ) ≤ cfg.budgetBytes

end Budget

end Codec

namespace Sample

open Codec

/-- Rosa has written twice. -/
def twoNotes : Visit where
  table := onlyRosa true
  inbox := fromRosa.push (delivered 2 "rosa@x") (by decide)
  uidValidity := 1
  pipeline := asks.pipeline
  serverTime := 1790000000
  cursor := ""
  aylluVersion := 0

/-- A budget that the skeleton and the charge of her two letters come to. -/
def exactBudget : Toml := { toml 500 with budgetBytes := 377, resyncWindow := 200 }

end Sample

namespace Codec

end Codec
end Chaskiwasi
