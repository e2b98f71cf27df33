import Chaskiwasi.Sync.Body
import Chaskiwasi.Transport.Exchange
import Mathlib.Algebra.BigOperators.Group.List.Basic
import Mathlib.Data.List.SplitBy

/-!
# Whether the link can carry a response

The bridge passes a response on only if it fits a frame, and reports one that does not as a failure
of the transport.  The device then sends the same request again, and meets the same mail.

The server knows nothing of the frame.  Its budget binds from the second letter on, and the first is
limited in clusters alone; so the link is stopped by one long letter, by a budget that was set too
high, or by what the budget exempts.  What has to fit is the first letters that are up: none, one,
or as many as the budget admits.
-/

namespace Chaskiwasi.Transport

open Codec

/-- The body of a response, as it is sent. -/
def body (r : Codec.Response) : Bytes :=
  ((marshalResponse r).print marshalEscape).flatMap String.utf8EncodeChar

/-- Whoever asked gets the response through the bridge. -/
def IsCarried (r : Codec.Response) : Prop :=
  ∀ (req : RequestPayload) (httpStatus : UInt16),
    (forward req (.answered httpStatus [] (body r))).outcome = .ok

lemma isCarried_iff (r : Codec.Response) :
    IsCarried r ↔ 7 + marshalledBytes (marshalResponse r) ≤ kMaxPayloadBytes := by
  have hlength : (body r).length = marshalledBytes (marshalResponse r) :=
    Json.length_utf8Encode _
  have hforward : ∀ (req : RequestPayload) (httpStatus : UInt16),
      (forward req (.answered httpStatus [] (body r))).outcome = .ok ↔
        ¬ kMaxPayloadBytes < 7 + marshalledBytes (marshalResponse r) := by
    intro req httpStatus
    rw [← hlength, forward, List.length_nil, Nat.add_zero]
    split_ifs with hlong
    · exact ⟨fun h => by (cases h), fun h => absurd hlong h⟩
    · exact ⟨fun _ => hlong, fun _ => rfl⟩
  rw [← not_lt]
  exact ⟨fun h => (hforward ⟨0, [], []⟩ 200).1 (h _ _), fun h req httpStatus =>
    (hforward req httpStatus).2 h⟩

end Chaskiwasi.Transport

namespace Chaskiwasi.Codec

section Handler

variable [Runes] [Uniseg] (cfg : Toml) (maxLetterChars : ℤ) (x : Visit)

/-- A response but for its letters. -/
def Visit.rest (more : Bool) : Codec.Response :=
  ⟨x.serverTime, encodeCursor 0 0, x.pututuCounter, x.acks, [], more,
    x.table.deviceView x.aylluVersion, some (Announced.deviceConfig cfg)⟩

omit [Runes] [Uniseg] in
lemma bytes_finish (round : Assembled) :
    marshalledBytes (marshalResponse (x.finish cfg round)) =
      marshalledBytes (marshalResponse (x.rest cfg round.more)) + lettersBytes round.letters := by
  have hsize := marshalledBytes_response (x.finish cfg round)
  have hbare := bytes_bare x.serverTime (encodeCursor x.uidValidity round.lastUID)
    (encodeCursor 0 0) x.pututuCounter x.pututuCounter x.acks round.more round.more
    (x.table.deviceView x.aylluVersion) (some (Announced.deviceConfig cfg))
  have hbody : ({ x.finish cfg round with letters := [] } : Codec.Response) =
      ⟨x.serverTime, encodeCursor x.uidValidity round.lastUID, x.pututuCounter, x.acks, [],
        round.more, x.table.deviceView x.aylluVersion, some (Announced.deviceConfig cfg)⟩ := rfl
  rw [marshalledTextBytes_encodeCursor, marshalledTextBytes_encodeCursor] at hbare
  rw [hsize, hbody, Visit.rest]
  show _ + lettersBytes round.letters = _
  omega

omit [Runes] [Uniseg] in
/-- The flag makes a byte's difference. -/
lemma bytes_rest_le (more more' : Bool) :
    marshalledBytes (marshalResponse (x.rest cfg more)) ≤
      marshalledBytes (marshalResponse (x.rest cfg more')) + 1 := by
  have hbare := bytes_bare x.serverTime (encodeCursor 0 0) (encodeCursor 0 0) x.pututuCounter
    x.pututuCounter x.acks more more' (x.table.deviceView x.aylluVersion)
    (some (Announced.deviceConfig cfg))
  have hflag : flagBytes more ≤ flagBytes more' + 1 := by
    unfold flagBytes
    split_ifs <;> omega
  rw [Visit.rest, Visit.rest]
  omega

omit [Runes] [Uniseg] in
lemma lettersBytes_lt_of_prefix {p q : List Letter} (h : p <+: q) (hne : p ≠ q) :
    lettersBytes p + 1 < lettersBytes q := by
  have hq : q ≠ [] := by
    rintro rfl
    exact hne (List.prefix_nil.1 h)
  have hlt := charge_lt_of_prefix h hne
  rw [charge_eq, charge_eq] at hlt
  unfold lettersBytes
  rw [if_neg hq]
  split_ifs
  · omega
  · omega

end Handler

end Chaskiwasi.Codec

namespace Chaskiwasi.Transport

open Codec

section Letters

variable [Runes] [Uniseg] (cfg : Toml) (maxLetterChars : ℤ) (x : Visit)

/-- No mail of active contacts stops the link, whatever the configuration. -/
def NoMailWedges : Prop :=
  ∀ (cfg : Toml) (maxLetterChars : ℤ) (x : Visit) (r : Codec.Response),
    (∀ raw ∈ x.inbox.msgs, ∃ l, x.derive maxLetterChars raw = .ok l) →
    response cfg maxLetterChars x = .ok r → IsCarried r

end Letters

end Chaskiwasi.Transport

namespace Chaskiwasi.Sample

open Codec

/-- A combining mark. -/
def isMark (c : Char) : Bool := 0x300 ≤ c.toNat && c.toNat ≤ 0x36f

/-- A combining mark joins the cluster before it. -/
@[reducible]
def marks : Uniseg where
  clusters := fun s => s.splitBy fun _ c => isMark c
  flatten_clusters := List.flatten_splitBy _
  clusters_take := by
    intro s n
    refine List.splitBy_flatten (fun hmem => ?_) (fun m hm => ?_) ?_
    · exact List.nil_notMem_splitBy _ s (List.mem_of_mem_take hmem)
    · exact List.isChain_of_mem_splitBy (List.mem_of_mem_take hm)
    · exact (List.isChain_getLast_head_splitBy (fun _ c => isMark c) s).take n

/-- This is what she says. -/
def note (text : String) : Visit where
  table := onlyRosa true
  inbox := fromRosa
  uidValidity := 1
  pipeline := fun _ =>
    { pipeline with
      readEnvelope := fun data =>
        some { fromAddrs := some [readFrom data], textPlain := (text, false) } }
  serverTime := 1790000000
  cursor := ""
  aylluVersion := 0

/-- The default configuration. -/
def defaults : Toml := (toml 0).applyDefaults

/-- A letter of one cluster. -/
def tower (n : ℕ) : String := String.ofList ('a' :: List.replicate n '\u0301')

end Chaskiwasi.Sample

namespace Chaskiwasi.Transport

open Codec

/-- What is made of Rosa's note. -/
def noteLetter (text : String) : Letter :=
  ⟨"rosa@x", "c_01", "", 0, text, false, false, false⟩

lemma derive_note [Uniseg] {text : String} (hne : text ≠ "")
    (hcut : Graphemes.truncate text 500 = (text, false)) :
    @Visit.derive Sample.runes _ 500 (Sample.note text) (Sample.delivered 1 "rosa@x") =
      .ok (noteLetter text) := by
  have hfrom : Sample.readFrom (Sample.delivered 1 "rosa@x").data = "rosa@x" := by decide +kernel
  have hresolve : @Table.resolve Sample.runes (Sample.onlyRosa true) "rosa@x" =
      some (Sample.rosa true) := by decide +kernel
  have hid : (Sample.rosa true).id = "c_01" := by decide
  simp only [Visit.derive, Announced.capped, Pipeline.derive, Sample.note, Sample.pipeline, hfrom,
    hresolve, if_neg hne, hcut, Pipeline.letterID]
  rw [hid]
  rfl

lemma up_note [Uniseg] {text : String} (hne : text ≠ "")
    (hcut : Graphemes.truncate text 500 = (text, false)) :
    @Visit.up Sample.runes _ Sample.defaults 500 (Sample.note text) = [noteLetter text] := by
  have hfetched : (fetchFrom Sample.fromRosa Sample.defaults.resyncWindow.toNat
      (cursorBoundary "" 1)).1 = [Sample.delivered 1 "rosa@x"] := by decide +kernel
  have hup : @Visit.up Sample.runes _ Sample.defaults 500 (Sample.note text) =
      offered (@Visit.derive Sample.runes _ 500 (Sample.note text))
        (fetchFrom Sample.fromRosa Sample.defaults.resyncWindow.toNat (cursorBoundary "" 1)).1 :=
    rfl
  rw [hup, hfetched, offered_cons, derive_note hne hcut]
  rfl

/-- However high, a tower is one cluster. -/
lemma truncate_tower (n : ℕ) :
    @Graphemes.truncate Sample.marks (Sample.tower n) 500 = (Sample.tower n, false) := by
  have hchain : ('a' :: List.replicate n '\u0301').IsChain fun _ c => Sample.isMark c := by
    refine List.Pairwise.isChain (List.pairwise_cons.2 ⟨fun c hc => ?_, ?_⟩)
    · rw [List.eq_of_mem_replicate hc]
      decide
    · exact List.pairwise_replicate.2 (Or.inr (by decide))
  have hclusters : @Segmentation.clusters Char Sample.marks (Sample.tower n).toList =
      [(Sample.tower n).toList] := by
    rw [Sample.tower, String.toList_ofList]
    exact List.splitBy_of_isChain (List.cons_ne_nil _ _) hchain
  have hcount : @Graphemes.countClusters Sample.marks (Sample.tower n) = 1 := by
    show (@Segmentation.clusters Char Sample.marks (Sample.tower n).toList).length = 1
    rw [hclusters, List.length_singleton]
  have h := @Graphemes.truncate_eq Sample.marks (Sample.tower n) 500 (by decide)
  rw [hcount, if_pos (by decide)] at h
  exact h

lemma marshalledTextBytes_tower (n : ℕ) :
    marshalledTextBytes (Sample.tower n) = 1 + 2 * n := by
  have ha : marshalWeight 'a' = 1 := by decide +kernel
  have hmark : marshalWeight '\u0301' = 2 := by decide +kernel
  rw [marshalledTextBytes, Sample.tower, String.toList_ofList, List.map_cons, List.map_replicate,
    List.sum_cons, List.sum_replicate, ha, hmark, nsmul_eq_mul, Nat.cast_id, Nat.mul_comm]

lemma tower_ne_empty (n : ℕ) : Sample.tower n ≠ "" := fun hempty =>
  List.cons_ne_nil _ _ (String.ofList_inj.1 (hempty.trans String.ofList_nil.symm))

/-- With the default configuration, the response to Rosa's tower. -/
lemma response_tower (n : ℕ) :
    ∃ round : Assembled, round.letters = [noteLetter (Sample.tower n)] ∧
      @response Sample.runes Sample.marks Sample.defaults 500 (Sample.note (Sample.tower n)) =
        .ok ((Sample.note (Sample.tower n)).finish Sample.defaults round) := by
  have hup := @up_note Sample.marks _ (tower_ne_empty n) (truncate_tower n)
  rcases @response_cases Sample.runes Sample.marks Sample.defaults 500
      (Sample.note (Sample.tower n)) with ⟨round, hok, hprefix, -, hkeeps⟩ | ⟨hnone, -⟩
  · -- The first letter is taken, whatever its size.
    have htaken : [noteLetter (Sample.tower n)] <+: round.letters := by
      refine (hkeeps _ ?_).2 (Or.inl (le_refl 1))
      rw [hup]
    rw [hup] at hprefix
    exact ⟨round, hprefix.eq_of_length_le htaken.length_le, hok⟩
  · rw [hup] at hnone
    cases hnone

/-- A tower that is high enough is not carried. -/
lemma not_noMailWedges_of_tower {n : ℕ} (hn : 33000 ≤ n) :
    ¬ @NoMailWedges Sample.runes Sample.marks := by
  intro hclaim
  obtain ⟨round, hletters, hok⟩ := response_tower n
  have hderive : ∀ raw ∈ (Sample.note (Sample.tower n)).inbox.msgs,
      ∃ l, @Visit.derive Sample.runes Sample.marks 500 (Sample.note (Sample.tower n)) raw =
        .ok l := by
    intro raw hraw
    obtain rfl : raw = Sample.delivered 1 "rosa@x" := List.mem_singleton.1 hraw
    exact ⟨_, @derive_note Sample.marks _ (tower_ne_empty n) (truncate_tower n)⟩
  have hcarried := hclaim Sample.defaults 500 (Sample.note (Sample.tower n)) _ hderive hok
  have hbytes : 2 * n < letterWeight (noteLetter (Sample.tower n)) := by
    have htext : marshalledTextBytes (noteLetter (Sample.tower n)).body = 1 + 2 * n :=
      marshalledTextBytes_tower n
    unfold letterWeight
    omega
  rw [isCarried_iff, bytes_finish, hletters, lettersBytes, if_neg (List.cons_ne_nil _ _),
    List.map_singleton, List.sum_singleton] at hcarried
  unfold kMaxPayloadBytes at hcarried
  omega

end Chaskiwasi.Transport
