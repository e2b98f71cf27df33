import Chaskiwasi.Guardians.Cookie
import Mathlib.Data.List.DropRight

/-!
# The doorbell token, as the simulator reads it

The simulator reads a token with Go's own parsers, which are more tolerant than the firmware: a
counter may have leading zeros, and the MAC may have line breaks in it.  Nothing else may differ
from what the server writes (`verifyPututuToken_eq_some`), so whatever the simulator takes is the
server's token for the counter that it stores.
-/

namespace Chaskiwasi.Sim

open Pututu (Bytes Counter formatUint dot tokenPrefix macBytes stdSymbol computeMAC token)

/-- What the standard encoding reads a character as. -/
def stdValue (c : UInt8) : Option (Fin 64) :=
  (List.finRange 64).find? fun s => (stdSymbol s).toUInt8 = c

/-- The character that fills up a short group. -/
def fill : UInt8 := 61

def lineBreak (c : UInt8) : Bool := c = 13 ∨ c = 10

/-- `base64.StdEncoding.DecodeString`: line breaks are passed over. -/
def decodeString (text : Bytes) : Option (List (Fin 256)) :=
  let symbols := text.filter fun c => !lineBreak c
  let body := symbols.rdropWhile (· = fill)
  if symbols.length % 4 ≠ 0 ∨ body.length + 2 < symbols.length then none
  else (body.mapM stdValue).bind Base64.bytes

/-- `strconv.ParseUint` in base ten and 64 bits. -/
def parseCounter (s : Bytes) : Option Counter :=
  (Guardians.parseUint s).bind fun n => if h : n < 2 ^ 64 then some ⟨n, h⟩ else none

section Verify

variable (hmac : Bytes → Bytes → Vector (Fin 256) 32) (key : Bytes)

def verifyPututuToken (text : Bytes) : Option Counter :=
  match text.splitOn dot with
  | [version, digits, mac] =>
      if version ≠ tokenPrefix then none
      else
        (parseCounter digits).bind fun counter =>
          (decodeString mac).bind fun got =>
            (decodeString (computeMAC hmac counter key)).bind fun want =>
              if got = want then some counter else none
  | _ => none

end Verify

/-! ## Numbers -/

section Numbers

variable {s : Bytes} {v n : ℕ}

lemma digitAfter_eq_some {c : UInt8} :
    Guardians.digitAfter v c = some n ↔ ∃ d < 10, c = Pututu.digit d ∧ n = v * 10 + d := by
  constructor
  · intro h
    unfold Guardians.digitAfter at h
    by_cases hc : c < 48 ∨ 57 < c
    · rw [if_pos hc] at h
      cases h
    · obtain ⟨d, hd, rfl⟩ := Pututu.exists_digit hc
      rw [if_neg hc, (Pututu.digit_spec hd).2] at h
      exact ⟨d, hd, rfl, (Option.some.inj h).symm⟩
  · rintro ⟨d, hd, rfl, rfl⟩
    exact Guardians.digitAfter_digit hd v

/-- What follows a number that is not zero continues its digits. -/
lemma formatUint_of_foldlM (hv : 0 < v) (h : s.foldlM Guardians.digitAfter v = some n) :
    formatUint v ++ s = formatUint n := by
  induction s generalizing v with
  | nil =>
      obtain rfl := Option.some.inj h
      exact List.append_nil _
  | cons c s ih =>
      rw [List.foldlM_cons] at h
      obtain ⟨w, hw, hs⟩ := Option.bind_eq_some_iff.1 h
      obtain ⟨d, hd, rfl, rfl⟩ := digitAfter_eq_some.1 hw
      rw [← ih (by omega) hs, Pututu.formatUint_append hv hd, List.append_assoc]
      rfl

/-- A number may be written with zeros before it. -/
lemma parseUint_eq_some :
    Guardians.parseUint s = some n ↔ ∃ zeros, s = List.replicate zeros 48 ++ formatUint n := by
  have hzero : Pututu.digit 0 = 48 := by decide
  unfold Guardians.parseUint
  rw [Option.ite_none_left_eq_some]
  constructor
  · rintro ⟨hne, h⟩
    induction s with
    | nil => exact absurd rfl hne
    | cons c s ih =>
        rw [List.foldlM_cons] at h
        obtain ⟨w, hw, hs⟩ := Option.bind_eq_some_iff.1 h
        obtain ⟨d, hd, rfl, rfl⟩ := digitAfter_eq_some.1 hw
        rw [Nat.zero_mul, Nat.zero_add] at hs
        rcases Nat.eq_zero_or_pos d with rfl | hpos
        · by_cases hnil : s = []
          · subst hnil
            obtain rfl := Option.some.inj hs
            exact ⟨0, rfl⟩
          · obtain ⟨zeros, hs'⟩ := ih hnil hs
            refine ⟨zeros + 1, ?_⟩
            rw [hs', hzero]
            rfl
        · refine ⟨0, ?_⟩
          rw [← formatUint_of_foldlM hpos hs, Pututu.formatUint_of_lt hd]
          rfl
  · rintro ⟨zeros, rfl⟩
    refine ⟨fun h => Pututu.formatUint_ne_nil n (List.append_eq_nil_iff.1 h).2, ?_⟩
    induction zeros with
    | zero => exact Guardians.foldlM_digitAfter n
    | succ zeros ih =>
        rw [List.replicate_succ, List.cons_append, List.foldlM_cons, ← hzero,
          Guardians.digitAfter_digit (by decide)]
        rw [hzero]
        exact ih

lemma parseCounter_eq_some {c : Counter} :
    parseCounter s = some c ↔ ∃ zeros, s = List.replicate zeros 48 ++ formatUint c := by
  unfold parseCounter
  rw [Option.bind_eq_some_iff]
  constructor
  · rintro ⟨n, hn, hc⟩
    by_cases hlt : n < 2 ^ 64
    · rw [dif_pos hlt] at hc
      obtain rfl := Option.some.inj hc
      exact parseUint_eq_some.1 hn
    · rw [dif_neg hlt] at hc
      cases hc
  · intro h
    refine ⟨c, parseUint_eq_some.2 h, ?_⟩
    rw [dif_pos c.isLt]

end Numbers

/-! ## The MAC -/

section Mac

variable {text : Bytes} {c : UInt8} {t : Fin 64}

lemma stdValue_stdSymbol : ∀ t, stdValue (stdSymbol t).toUInt8 = some t := by
  decide +kernel

lemma stdValue_eq_some : stdValue c = some t ↔ (stdSymbol t).toUInt8 = c := by
  constructor
  · intro h
    unfold stdValue at h
    simpa using List.find?_some h
  · rintro rfl
    exact stdValue_stdSymbol t

lemma mapM_stdValue {ss : List (Fin 64)} :
    text.mapM stdValue = some ss ↔ text = Pututu.ascii (ss.map stdSymbol) := by
  unfold Pututu.ascii
  induction text generalizing ss with
  | nil =>
      cases ss with
      | nil => exact ⟨fun _ => rfl, fun _ => rfl⟩
      | cons t ss =>
          constructor
          · intro h
            cases h
          · intro h
            cases h
  | cons c text ih =>
      rw [List.mapM_cons]
      constructor
      · intro h
        obtain ⟨t, ht, hrest⟩ := Option.bind_eq_some_iff.1 h
        obtain ⟨ts, hts, hss⟩ := Option.bind_eq_some_iff.1 hrest
        obtain rfl := Option.some.inj hss
        rw [List.map_cons, List.map_cons, ← ih.1 hts, stdValue_eq_some.1 ht]
      · intro h
        cases ss with
        | nil => cases h
        | cons t ss =>
            rw [List.map_cons, List.map_cons, List.cons.injEq] at h
            rw [stdValue_eq_some.2 h.1.symm, ih.2 h.2]
            rfl

lemma fill_not_mem (ss : List (Fin 64)) : fill ∉ Pututu.ascii (ss.map stdSymbol) := by
  have hnone : ∀ t, (stdSymbol t).toUInt8 ≠ fill := by decide +kernel
  intro h
  obtain ⟨c, hc, hfill⟩ := List.mem_map.1 h
  obtain ⟨t, -, rfl⟩ := List.mem_map.1 hc
  exact hnone t hfill

/-- A text that decodes to whole groups spells them, with line breaks between. -/
lemma decodeString_eq_some {n : ℕ} {bs : List (Fin 256)} (hlen : bs.length = 3 * n) :
    decodeString text = some bs ↔
      (text.filter fun c => !lineBreak c) = Pututu.ascii ((Base64.sextets bs).map stdSymbol) := by
  have hsextets := Base64.length_sextets hlen
  unfold decodeString
  dsimp only
  rw [Option.ite_none_left_eq_some]
  generalize (text.filter fun c => !lineBreak c) = symbols
  constructor
  · rintro ⟨hgroups, hdecode⟩
    rw [not_or, not_not, not_lt] at hgroups
    obtain ⟨ss, hss, hbytes⟩ := Option.bind_eq_some_iff.1 hdecode
    have hbody := mapM_stdValue.1 hss
    have hback := Base64.sextets_bytes hbytes hlen
    -- Nothing was filled up.
    have hprefix := List.rdropWhile_prefix (fun c => decide (c = fill)) (l := symbols)
    have hfour : (symbols.rdropWhile fun c => decide (c = fill)).length = 4 * n := by
      rw [hbody, Pututu.ascii, List.length_map, List.length_map, ← hback, hsextets]
    have hle := hprefix.length_le
    have hwhole := hprefix.eq_of_length (by omega)
    rw [← hwhole, hbody, hback]
  · rintro rfl
    have hself : (Pututu.ascii ((Base64.sextets bs).map stdSymbol)).rdropWhile
        (fun c => decide (c = fill)) = Pututu.ascii ((Base64.sextets bs).map stdSymbol) := by
      rw [List.rdropWhile_eq_self_iff]
      intro hne hlast
      exact fill_not_mem _ (of_decide_eq_true hlast ▸ List.getLast_mem hne)
    have hlength : (Pututu.ascii ((Base64.sextets bs).map stdSymbol)).length = 4 * n := by
      rw [Pututu.ascii, List.length_map, List.length_map, hsextets]
    rw [hself, mapM_stdValue.2 rfl, Option.bind_some, Base64.bytes_sextets, hlength]
    refine ⟨?_, rfl⟩
    omega

end Mac

/-! ## The token -/

section Token

variable {hmac : Bytes → Bytes → Vector (Fin 256) 32} {key text : Bytes} {c : Counter}

/-- The MAC that the server writes decodes to the bytes that it was made of. -/
lemma decodeString_computeMAC (n : ℕ) (key : Bytes) :
    decodeString (computeMAC hmac n key) =
      some ((hmac key (formatUint n)).toList.take macBytes) := by
  have hlen : ((hmac key (formatUint n)).toList.take macBytes).length = 3 * 4 := by
    rw [List.length_take, Vector.length_toList]
    rfl
  have hnone : ∀ t, lineBreak (stdSymbol t).toUInt8 = false := by decide +kernel
  rw [decodeString_eq_some hlen, List.filter_eq_self.2]
  · rfl
  · intro c hc
    obtain ⟨symbol, hsymbol, rfl⟩ := List.mem_map.1 hc
    obtain ⟨t, -, rfl⟩ := List.mem_map.1 hsymbol
    rw [hnone t]
    rfl

/-- A MAC that decodes to the same bytes is the server's, with line breaks between. -/
lemma decodeString_eq_computeMAC {mac : Bytes} {n : ℕ} :
    decodeString mac = decodeString (computeMAC hmac n key) ↔
      (mac.filter fun c => !lineBreak c) = computeMAC hmac n key := by
  have hlen : ((hmac key (formatUint n)).toList.take macBytes).length = 3 * 4 := by
    rw [List.length_take, Vector.length_toList]
    rfl
  rw [decodeString_computeMAC, decodeString_eq_some hlen]
  rfl

lemma dot_not_mem_of_filter {mac : Bytes} {n : ℕ}
    (h : (mac.filter fun c => !lineBreak c) = computeMAC hmac n key) : dot ∉ mac := by
  intro hdot
  have hmem : dot ∈ mac.filter fun c => !lineBreak c := List.mem_filter.2 ⟨hdot, by decide⟩
  rw [h] at hmem
  exact Pututu.dot_not_mem_computeMAC n key hmem

lemma dot_not_mem_digits (zeros n : ℕ) : dot ∉ List.replicate zeros 48 ++ formatUint n := by
  intro h
  rcases List.mem_append.1 h with h | h
  · exact absurd (List.eq_of_mem_replicate h) (by decide)
  · exact Pututu.dot_not_mem_formatUint n h

/-- What the simulator takes for the token of a counter is that token, but for zeros before the
counter and line breaks in the MAC. -/
lemma verifyPututuToken_eq_some :
    verifyPututuToken hmac key text = some c ↔
      ∃ zeros mac, (mac.filter fun c => !lineBreak c) = computeMAC hmac c key ∧
        text = tokenPrefix ++ dot :: (List.replicate zeros 48 ++ formatUint c) ++ dot :: mac := by
  constructor
  · intro h
    unfold verifyPututuToken at h
    split at h
    · rename_i version digits mac hsplit
      have htext : [dot].intercalate (text.splitOn dot) = text := List.intercalate_splitOn dot
      rw [hsplit] at htext
      obtain ⟨hversion, hcounter⟩ := Option.ite_none_left_eq_some.1 h
      obtain ⟨counter, hdigits, hrest⟩ := Option.bind_eq_some_iff.1 hcounter
      obtain ⟨got, hgot, hrest⟩ := Option.bind_eq_some_iff.1 hrest
      obtain ⟨want, hwant, hequal⟩ := Option.bind_eq_some_iff.1 hrest
      obtain ⟨rfl, hc⟩ := Option.ite_none_right_eq_some.1 hequal
      obtain rfl := Option.some.inj hc
      obtain ⟨zeros, rfl⟩ := parseCounter_eq_some.1 hdigits
      refine ⟨zeros, mac, decodeString_eq_computeMAC.1 (hgot.trans hwant.symm), ?_⟩
      rw [← htext, not_not.1 hversion]
      simp [List.intercalate]
    · cases h
  · rintro ⟨zeros, mac, hsame, rfl⟩
    have hprefix : dot ∉ tokenPrefix := by decide
    have hsplit : (tokenPrefix ++ dot :: (List.replicate zeros 48 ++ formatUint c) ++
        dot :: mac).splitOn dot =
          [tokenPrefix, List.replicate zeros 48 ++ formatUint c, mac] := by
      have hjoin : tokenPrefix ++ dot :: (List.replicate zeros 48 ++ formatUint c) ++ dot :: mac =
          [dot].intercalate [tokenPrefix, List.replicate zeros 48 ++ formatUint c, mac] := by
        simp [List.intercalate]
      rw [hjoin]
      apply List.splitOn_intercalate dot _ (List.cons_ne_nil _ _)
      intro l hl
      simp only [List.mem_cons, List.not_mem_nil, or_false] at hl
      rcases hl with rfl | rfl | rfl
      · exact hprefix
      · exact dot_not_mem_digits zeros c
      · exact dot_not_mem_of_filter hsame
    have hdigits := (parseCounter_eq_some (c := c)).2 ⟨zeros, rfl⟩
    have hdecode := decodeString_eq_computeMAC.2 hsame
    unfold verifyPututuToken
    rw [hsplit]
    dsimp only
    rw [if_neg (not_not.2 rfl), hdigits, Option.bind_some, hdecode, decodeString_computeMAC,
      Option.bind_some, Option.bind_some, if_pos rfl]

/-- What the firmware takes for the token of a counter, apart from its own limits on when. -/
def onDevice (hmac : Bytes → Bytes → Vector (Fin 256) 32) (key text : Bytes) (c : Counter) : Prop :=
  ∃ mac, Pututu.split text = some (↑c, mac) ∧ Pututu.equals mac (computeMAC hmac c key) = true

lemma onDevice_iff : onDevice hmac key text c ↔ text = token hmac c key := by
  constructor
  · rintro ⟨mac, hsplit, hequal⟩
    obtain ⟨-, -, -, rfl⟩ := Pututu.split_eq_some.1 hsplit
    rw [Pututu.equals_iff.1 hequal, Pututu.token_eq]
  · rintro rfl
    exact ⟨_, Pututu.split_token c key, Pututu.equals_iff.2 rfl⟩

/-- The simulator takes the tokens that the firmware takes, with the same counters, and besides
these only what differs from one of them in zeros before the counter and line breaks in the MAC. -/
theorem simulator_reads_tokens (hmac : Bytes → Bytes → Vector (Fin 256) 32) (key text : Bytes)
    (c : Counter) :
    (onDevice hmac key text c → verifyPututuToken hmac key text = some c) ∧
      (verifyPututuToken hmac key text = some c ↔
        ∃ zeros mac, (mac.filter fun c => !lineBreak c) = computeMAC hmac c key ∧
          text = tokenPrefix ++ dot :: (List.replicate zeros 48 ++ formatUint c) ++ dot :: mac) := by
  refine ⟨fun h => ?_, verifyPututuToken_eq_some⟩
  rw [onDevice_iff] at h
  have hmac : ((computeMAC hmac c key).filter fun c => !lineBreak c) = computeMAC hmac c key :=
    decodeString_eq_computeMAC.1 rfl
  exact verifyPututuToken_eq_some.2 ⟨0, _, hmac, h⟩

end Token
end Chaskiwasi.Sim
