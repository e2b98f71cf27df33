import Chaskiwasi.Lib.Framing
import Mathlib.Algebra.Order.Ring.Nat

/-!
# The framed link

The device and the bridge talk over one serial line, which also carries the device's log, and which
either end may join or leave at any byte.  A frame has a magic, a type, a length, a payload and a
checksum.  Each end has its own reader, in its own language.

Both are the reader of `Framing` for one format, so they take the same frames out of every stream,
however it was cut into pieces on its way to either, and lose none among noise.
-/

namespace Chaskiwasi.Transport

abbrev Bytes := List UInt8

def kMagic : ℕ := 0x43484B31

def kMaxPayloadBytes : ℕ := 64 * 1024

def kHeaderBytes : ℕ := 9

def kTrailerBytes : ℕ := 4

/-- Big-endian. -/
def putU32 (v : ℕ) : Bytes :=
  [UInt8.ofNat (v / 2 ^ 24), UInt8.ofNat (v / 2 ^ 16), UInt8.ofNat (v / 2 ^ 8), UInt8.ofNat v]

def getU32 (b : Bytes) (i : ℕ) : ℕ :=
  (b.getD i 0).toNat * 2 ^ 24 + (b.getD (i + 1) 0).toNat * 2 ^ 16 +
    (b.getD (i + 2) 0).toNat * 2 ^ 8 + (b.getD (i + 3) 0).toNat

/-- One bit of the loop of `Crc32`. -/
def crcBit (crc : UInt32) : UInt32 := (crc >>> 1) ^^^ (0xEDB88320 &&& (0 - (crc &&& 1)))

/-- CRC-32/IEEE, bit by bit; also `crc32.ChecksumIEEE`. -/
def crc32 (data : Bytes) : UInt32 :=
  ~~~(data.foldl (fun crc b => Nat.iterate crcBit 8 (crc ^^^ b.toUInt32)) 0xFFFFFFFF)

/-- A type and a payload. -/
structure Frame where
  type : UInt8
  payload : Bytes
  deriving DecidableEq, Repr

/-- `Encode`, of the device: the bytes it appends. -/
def encode (f : Frame) : Option Bytes :=
  if kMaxPayloadBytes < f.payload.length then none
  else
    let covered := f.type :: (putU32 f.payload.length ++ f.payload)
    some (putU32 kMagic ++ covered ++ putU32 (crc32 covered).toNat)

/-- `EncodeFrame`, of the bridge. -/
def encodeFrame (f : Frame) : Option Bytes :=
  if kMaxPayloadBytes < f.payload.length then none
  else
    let out := putU32 kMagic ++ [f.type] ++ putU32 f.payload.length ++ f.payload
    some (out ++ putU32 (crc32 (out.drop 4)).toNat)

/-- The first magic in a buffer: the loop in `Decoder::Next`, and `indexMagic`. -/
def indexMagic (b : Bytes) : Option ℕ :=
  (List.range (b.length - 3)).find? fun i => getU32 b i == kMagic

/-! ## The device's reader -/

structure Decoder where
  buf : Bytes := []
  resyncs : ℕ := 0

namespace Decoder

def append (d : Decoder) (data : Bytes) : Decoder := { d with buf := d.buf ++ data }

/-- Discards bytes on the way to a frame. -/
def erase (d : Decoder) (n : ℕ) : Decoder := ⟨d.buf.drop n, d.resyncs + 1⟩

/-- The candidate is moved to the front. -/
def align (d : Decoder) (start : ℕ) : Decoder := if 0 < start then d.erase start else d

lemma buf_align (d : Decoder) (start : ℕ) : (d.align start).buf = d.buf.drop start := by
  unfold align
  split_ifs with h
  · rfl
  · rw [Nat.eq_zero_of_not_pos h, List.drop_zero]

lemma length_erase_align_lt {d : Decoder} {start : ℕ}
    (h : ¬ (d.align start).buf.length < kHeaderBytes) :
    ((d.align start).erase 1).buf.length < d.buf.length := by
  rw [buf_align, List.length_drop, kHeaderBytes] at h
  show ((d.align start).buf.drop 1).length < _
  rw [buf_align, List.length_drop, List.length_drop]
  omega

/-- `Next`; `none` is `kNeedMoreBytes`. -/
def next (d : Decoder) : Option Frame × Decoder :=
  match indexMagic d.buf with
  | none => (none, if 3 < d.buf.length then d.erase (d.buf.length - 3) else d)
  | some start =>
      if _h : (d.align start).buf.length < kHeaderBytes then (none, d.align start)
      else
        if kMaxPayloadBytes < getU32 (d.align start).buf 5 then ((d.align start).erase 1).next
        else
          let buf := (d.align start).buf
          let declared := getU32 buf 5
          let total := kHeaderBytes + declared + kTrailerBytes
          if buf.length < total then (none, d.align start)
          else
            if (crc32 ((buf.drop 4).take (5 + declared))).toNat ≠
                getU32 buf (kHeaderBytes + declared) then
              ((d.align start).erase 1).next
            else
              (some ⟨buf.getD 4 0, (buf.drop kHeaderBytes).take declared⟩,
                { d.align start with buf := buf.drop total })
termination_by d.buf.length
decreasing_by
  · exact length_erase_align_lt _h
  · exact length_erase_align_lt _h

end Decoder

/-! ## The bridge's reader -/

/-- What the stream says when it has no more. -/
inductive ReadErr
  | eof
  | noProgress
  deriving DecidableEq

structure FrameReader where
  buf : Bytes := []
  /-- What was discarded, on its way to the console. -/
  console : Bytes := []
  resyncs : ℕ := 0
  torn : ℕ := 0

namespace FrameReader

def discard (fr : FrameReader) (n : ℕ) : FrameReader :=
  if n = 0 then fr
  else { fr with
    buf := fr.buf.drop n
    console := fr.console ++ fr.buf.take n
    resyncs := fr.resyncs + 1 }

lemma buf_discard (fr : FrameReader) (n : ℕ) : (fr.discard n).buf = fr.buf.drop n := by
  unfold discard
  split_ifs with h
  · rw [h, List.drop_zero]
  · rfl

lemma length_discard_lt {fr : FrameReader} {start : ℕ}
    (h : ¬ (fr.discard start).buf.length < kHeaderBytes) :
    ((fr.discard start).discard 1).buf.length < fr.buf.length := by
  rw [buf_discard, List.length_drop, kHeaderBytes] at h
  rw [buf_discard, buf_discard, List.length_drop, List.length_drop]
  omega

/-- `scan`; `none` is `ok = false`. -/
def scan (fr : FrameReader) : Option Frame × FrameReader :=
  match indexMagic fr.buf with
  | none => (none, if 3 < fr.buf.length then fr.discard (fr.buf.length - 3) else fr)
  | some start =>
      if _h : (fr.discard start).buf.length < kHeaderBytes then (none, fr.discard start)
      else
        if kMaxPayloadBytes < getU32 (fr.discard start).buf 5 then
          ((fr.discard start).discard 1).scan
        else
          let buf := (fr.discard start).buf
          let declared := getU32 buf 5
          let total := kHeaderBytes + declared + kTrailerBytes
          if buf.length < total then (none, fr.discard start)
          else
            if (crc32 ((buf.drop 4).take (5 + declared))).toNat ≠
                getU32 buf (kHeaderBytes + declared) then
              (({ fr.discard start with torn := (fr.discard start).torn + 1 }).discard 1).scan
            else
              (some ⟨buf.getD 4 0, (buf.drop kHeaderBytes).take declared⟩,
                { fr.discard start with buf := buf.drop total })
termination_by fr.buf.length
decreasing_by
  · exact length_discard_lt _h
  · exact (buf_discard _ 1).symm ▸ (buf_discard (fr.discard start) 1) ▸ length_discard_lt _h

/-- `Next`, over a stream of which each read gets one piece. -/
def next (fr : FrameReader) : List Bytes → Except ReadErr Frame × FrameReader × List Bytes
  | [] =>
      match fr.scan with
      | (some f, fr') => (.ok f, fr', [])
      | (none, fr') => (.error .eof, fr', [])
  | chunk :: src =>
      match fr.scan with
      | (some f, fr') => (.ok f, fr', chunk :: src)
      | (none, fr') =>
          if chunk = [] then (.error .noProgress, fr', src)
          else next { fr' with buf := fr'.buf ++ chunk } src

end FrameReader

/-! ## The format -/

/-- The format that both readers read. -/
def frameFormat : Framing UInt8 where
  magic := putU32 kMagic
  header := kHeaderBytes
  declared := fun h =>
    if kMaxPayloadBytes < getU32 h 5 then none
    else some (kHeaderBytes + getU32 h 5 + kTrailerBytes)
  accepts := fun fr =>
    (crc32 ((fr.drop 4).take (5 + getU32 fr 5))).toNat = getU32 fr (kHeaderBytes + getU32 fr 5)
  magic_le := by decide
  header_pos := by decide
  le_declared := by
    intro h n hn
    split_ifs at hn
    obtain rfl := Option.some.inj hn
    omega

/-- What a frame carries. -/
def unframe (fr : Bytes) : Frame :=
  ⟨fr.getD 4 0, (fr.drop kHeaderBytes).take (getU32 fr 5)⟩

lemma getU32_take {b : Bytes} {i n : ℕ} (h : i + 4 ≤ n) : getU32 (b.take n) i = getU32 b i := by
  have hget : ∀ j, j < n → (b.take n).getD j 0 = b.getD j 0 := by
    intro j hj
    rw [List.getD_eq_getElem?_getD, List.getElem?_take_of_lt hj, List.getD_eq_getElem?_getD]
  rw [getU32, getU32, hget _ (by omega), hget _ (by omega), hget _ (by omega), hget _ (by omega)]

lemma getU32_drop (b : Bytes) (i n : ℕ) : getU32 (b.drop n) i = getU32 b (n + i) := by
  have hget : ∀ j, (b.drop n).getD j 0 = b.getD (n + j) 0 := by
    intro j
    rw [List.getD_eq_getElem?_getD, List.getElem?_drop, List.getD_eq_getElem?_getD]
  rw [getU32, getU32, hget, hget, hget, hget]
  rfl

lemma kMagic_digits {w x y z : ℕ} (hx : x < 256) (hy : y < 256) (hz : z < 256) :
    w * 2 ^ 24 + x * 2 ^ 16 + y * 2 ^ 8 + z = kMagic ↔
      w = 0x43 ∧ x = 0x48 ∧ y = 0x4B ∧ z = 0x31 := by
  unfold kMagic
  omega

lemma toNat_eq_iff {c : UInt8} {n : ℕ} (hn : n < 256) : c.toNat = n ↔ c = UInt8.ofNat n := by
  rw [← UInt8.toNat_inj, UInt8.toNat_ofNat_of_lt' hn]

lemma getU32_cons (w x y z : UInt8) (rest : Bytes) :
    getU32 (w :: x :: y :: z :: rest) 0 =
      w.toNat * 2 ^ 24 + x.toNat * 2 ^ 16 + y.toNat * 2 ^ 8 + z.toNat := rfl

lemma putU32_kMagic : putU32 kMagic = [0x43, 0x48, 0x4B, 0x31] := by decide

/-- The magic as a number is the magic as bytes. -/
lemma getU32_eq_kMagic_iff {b : Bytes} (h : 4 ≤ b.length) :
    getU32 b 0 = kMagic ↔ putU32 kMagic <+: b := by
  match b, h with
  | w :: x :: y :: z :: rest, _ =>
      rw [getU32_cons, kMagic_digits x.toNat_lt y.toNat_lt z.toNat_lt, putU32_kMagic]
      simp only [List.cons_prefix_cons, List.nil_prefix, and_true]
      rw [toNat_eq_iff (by decide : 0x43 < 256), toNat_eq_iff (by decide : 0x48 < 256),
        toNat_eq_iff (by decide : 0x4B < 256), toNat_eq_iff (by decide : 0x31 < 256)]
      constructor
      · rintro ⟨rfl, rfl, rfl, rfl⟩
        exact ⟨rfl, rfl, rfl, rfl⟩
      · rintro ⟨rfl, rfl, rfl, rfl⟩
        exact ⟨rfl, rfl, rfl, rfl⟩

lemma length_magic : frameFormat.magic.length = 4 := rfl

/-- The loop over a longer buffer looks at the first place, then at the places of the rest. -/
lemma find_range_cons (word : ℕ) {x : UInt8} {xs : Bytes} (h : 4 ≤ (x :: xs).length) :
    ((List.range ((x :: xs).length - 3)).find? fun i => getU32 (x :: xs) i == word) =
      if getU32 (x :: xs) 0 = word then some 0
      else ((List.range (xs.length - 3)).find? fun i => getU32 xs i == word).map Nat.succ := by
  have hrange : (x :: xs).length - 3 = (xs.length - 3) + 1 := by
    rw [List.length_cons] at h ⊢
    omega
  have hshift : ∀ i, getU32 (x :: xs) (Nat.succ i) = getU32 xs i := by
    intro i
    rw [Nat.succ_eq_one_add, ← getU32_drop (x :: xs) i 1, List.drop_one, List.tail_cons]
  have hcomp : (fun i => getU32 (x :: xs) i == word) ∘ Nat.succ = fun i => getU32 xs i == word := by
    funext i
    rw [Function.comp_apply, hshift]
  rw [hrange, List.range_succ_eq_map]
  split_ifs with hfirst
  · exact List.find?_cons_of_pos (p := fun i => getU32 (x :: xs) i == word) (beq_iff_eq.2 hfirst)
  · refine (List.find?_cons_of_neg (p := fun i => getU32 (x :: xs) i == word)
      fun heq => hfirst (beq_iff_eq.1 heq)).trans ?_
    rw [List.find?_map, hcomp]

lemma indexMagic_cons {x : UInt8} {xs : Bytes} (h : 4 ≤ (x :: xs).length) :
    indexMagic (x :: xs) =
      if getU32 (x :: xs) 0 = kMagic then some 0 else (indexMagic xs).map Nat.succ :=
  find_range_cons kMagic h

lemma indexMagic_short {b : Bytes} (h : b.length < 4) : indexMagic b = none := by
  rw [indexMagic, Nat.sub_eq_zero_of_le (by omega), List.range_zero, List.find?_nil]

/-- Both loops over the buffer find what `seek` finds. -/
lemma seek_eq (b : Bytes) :
    frameFormat.seek b = b.drop ((indexMagic b).getD (b.length - 3)) := by
  induction b with
  | nil => rfl
  | cons x xs ih =>
      rw [Framing.seek, length_magic, ← List.length_cons]
      rcases Nat.lt_or_ge (x :: xs).length 4 with hshort | hlong
      · rw [if_pos (Or.inr hshort), indexMagic_short hshort, Option.getD_none,
          Nat.sub_eq_zero_of_le (by omega), List.drop_zero]
      · rw [indexMagic_cons hlong]
        have hfirst := getU32_eq_kMagic_iff hlong
        by_cases hmagic : getU32 (x :: xs) 0 = kMagic
        · rw [if_pos hmagic, Option.getD_some, List.drop_zero]
          exact if_pos (Or.inl (hfirst.1 hmagic))
        · have hstop : ¬ (frameFormat.magic <+: x :: xs ∨ (x :: xs).length < 4) := by
            rintro (hstart | hlt)
            · exact hmagic (hfirst.2 hstart)
            · exact absurd hlt (not_lt.2 hlong)
          rw [if_neg hstop, ih, if_neg hmagic]
          cases indexMagic xs with
          | none =>
              have hpred : (x :: xs).length - 3 = (xs.length - 3) + 1 := by
                rw [List.length_cons] at hlong ⊢
                omega
              rw [Option.map_none, Option.getD_none, Option.getD_none, hpred, List.drop_succ_cons]
          | some i => rw [Option.map_some, Option.getD_some, Option.getD_some, List.drop_succ_cons]

/-- What the format reads first in a buffer, and what is left of it. -/
def read (b : Bytes) : Option Frame × Bytes :=
  ((frameFormat.next b).1.map unframe, (frameFormat.next b).2)

lemma header_eq : frameFormat.header = kHeaderBytes := rfl

lemma declared_eq (b : Bytes) :
    frameFormat.declared (b.take kHeaderBytes) =
      if kMaxPayloadBytes < getU32 b 5 then none
      else some (kHeaderBytes + getU32 b 5 + kTrailerBytes) := by
  rw [← getU32_take (b := b) (i := 5) (n := kHeaderBytes) (by decide)]
  rfl

section Whole

variable {s : Bytes} {declared : ℕ} (hdeclared : getU32 s 5 = declared)

include hdeclared

lemma getU32_take_whole :
    getU32 (s.take (kHeaderBytes + declared + kTrailerBytes)) 5 = declared := by
  rw [getU32_take (by unfold kHeaderBytes; omega), hdeclared]

lemma accepts_eq :
    frameFormat.accepts (s.take (kHeaderBytes + declared + kTrailerBytes)) =
      decide ((crc32 ((s.drop 4).take (5 + declared))).toNat =
        getU32 s (kHeaderBytes + declared)) := by
  have hcovered : ((s.take (kHeaderBytes + declared + kTrailerBytes)).drop 4).take (5 + declared) =
      (s.drop 4).take (5 + declared) := by
    rw [List.drop_take, List.take_take]
    congr 1
    unfold kHeaderBytes kTrailerBytes
    omega
  show decide ((crc32 (((s.take _).drop 4).take (5 + getU32 (s.take _) 5))).toNat =
    getU32 (s.take _) (kHeaderBytes + getU32 (s.take _) 5)) = _
  rw [getU32_take_whole hdeclared, hcovered, getU32_take (by unfold kTrailerBytes; omega)]

lemma unframe_eq :
    unframe (s.take (kHeaderBytes + declared + kTrailerBytes)) =
      ⟨s.getD 4 0, (s.drop kHeaderBytes).take declared⟩ := by
  rw [unframe, getU32_take_whole hdeclared, List.drop_take, List.take_take,
    List.getD_eq_getElem?_getD, List.getElem?_take_of_lt (by unfold kHeaderBytes; omega),
    ← List.getD_eq_getElem?_getD, Nat.min_eq_left (by omega)]

end Whole

/-- What either reader does once the first magic of its buffer stands at the front. -/
lemma read_eq {b s : Bytes} (hs : frameFormat.seek b = s) :
    read b =
      if s.length < kHeaderBytes then (none, s)
      else if kMaxPayloadBytes < getU32 s 5 then read (s.drop 1)
      else if s.length < kHeaderBytes + getU32 s 5 + kTrailerBytes then (none, s)
      else if (crc32 ((s.drop 4).take (5 + getU32 s 5))).toNat ≠
        getU32 s (kHeaderBytes + getU32 s 5) then read (s.drop 1)
      else (some ⟨s.getD 4 0, (s.drop kHeaderBytes).take (getU32 s 5)⟩,
        s.drop (kHeaderBytes + getU32 s 5 + kTrailerBytes)) := by
  rw [read, Framing.next.eq_def, hs, header_eq]
  split_ifs with hshort hbad hwait hcrc
  · rfl
  · rw [declared_eq, if_pos hbad]
    rfl
  · rw [declared_eq, if_neg hbad]
    dsimp only
    rw [if_pos hwait]
    rfl
  · rw [declared_eq, if_neg hbad]
    dsimp only
    rw [if_neg hwait, accepts_eq rfl, decide_eq_false hcrc, if_neg Bool.false_ne_true]
    rfl
  · rw [declared_eq, if_neg hbad]
    dsimp only
    rw [if_neg hwait, accepts_eq rfl, decide_eq_true (not_not.1 hcrc), if_pos rfl, Option.map_some,
      unframe_eq rfl]

/-! ## Both readers read the format -/

namespace Decoder

lemma next_eq (d : Decoder) : (d.next.1, d.next.2.buf) = read d.buf := by
  induction hlength : d.buf.length using Nat.strong_induction_on generalizing d with
  | _ k ih =>
      have hseek := seek_eq d.buf
      rw [next]
      cases hindex : indexMagic d.buf with
      | none =>
          rw [hindex, Option.getD_none] at hseek
          have hshort : (d.buf.drop (d.buf.length - 3)).length < kHeaderBytes := by
            rw [List.length_drop, kHeaderBytes]
            omega
          rw [read_eq hseek, if_pos hshort]
          dsimp only
          split_ifs with hlong
          · rfl
          · rw [Nat.sub_eq_zero_of_le (not_lt.1 hlong), List.drop_zero]
      | some start =>
          rw [hindex, Option.getD_some, ← buf_align] at hseek
          rw [read_eq hseek]
          dsimp only
          have hrest : ∀ h : ¬ (d.align start).buf.length < kHeaderBytes,
              (((d.align start).erase 1).next.1, ((d.align start).erase 1).next.2.buf) =
                read ((d.align start).buf.drop 1) := fun h =>
            ih _ (hlength ▸ length_erase_align_lt h) _ rfl
          split_ifs with hshort hbad hwait hcrc
          · rfl
          · exact hrest hshort
          · rfl
          · exact hrest hshort
          · rfl

end Decoder

namespace FrameReader

lemma scan_eq (fr : FrameReader) : (fr.scan.1, fr.scan.2.buf) = read fr.buf := by
  induction hlength : fr.buf.length using Nat.strong_induction_on generalizing fr with
  | _ k ih =>
      have hseek := seek_eq fr.buf
      rw [scan]
      cases hindex : indexMagic fr.buf with
      | none =>
          rw [hindex, Option.getD_none] at hseek
          have hshort : (fr.buf.drop (fr.buf.length - 3)).length < kHeaderBytes := by
            rw [List.length_drop, kHeaderBytes]
            omega
          rw [read_eq hseek, if_pos hshort]
          dsimp only
          split_ifs with hlong
          · rw [buf_discard]
          · rw [Nat.sub_eq_zero_of_le (not_lt.1 hlong), List.drop_zero]
      | some start =>
          rw [hindex, Option.getD_some, ← buf_discard] at hseek
          rw [read_eq hseek]
          dsimp only
          have hrest : ∀ fr' : FrameReader, fr'.buf = (fr.discard start).buf →
              ¬ (fr.discard start).buf.length < kHeaderBytes →
              ((fr'.discard 1).scan.1, (fr'.discard 1).scan.2.buf) =
                read ((fr.discard start).buf.drop 1) := by
            intro fr' hbuf h
            rw [← hbuf, ← buf_discard]
            refine ih _ ?_ _ rfl
            rw [buf_discard, hbuf, ← buf_discard, ← hlength]
            exact length_discard_lt h
          split_ifs with hshort hbad hwait hcrc
          · rfl
          · exact hrest _ rfl hshort
          · rfl
          · exact hrest _ rfl hshort
          · rfl

end FrameReader

/-! ## What each reader takes out of a stream -/

lemma length_read_lt {b rest : Bytes} {f : Frame} (h : read b = (some f, rest)) :
    rest.length < b.length := by
  cases hnext : frameFormat.next b with
  | mk fr left =>
      rw [read, hnext] at h
      obtain ⟨hframe, hrest⟩ := Prod.mk.inj h
      cases fr with
      | none => cases hframe
      | some fr =>
          rw [← hrest]
          exact Framing.length_next_lt hnext

/-- The frames of a buffer. -/
def framesIn (b : Bytes) : List Frame := (frameFormat.drain b).1.map unframe

lemma drain_of_read {b rest : Bytes} {f : Option Frame} (h : read b = (f, rest)) :
    (framesIn b, (frameFormat.drain b).2) =
      match f with
      | none => ([], rest)
      | some f => (f :: framesIn rest, (frameFormat.drain rest).2) := by
  cases hnext : frameFormat.next b with
  | mk fr left =>
      rw [read, hnext] at h
      obtain ⟨rfl, rfl⟩ := Prod.mk.inj h
      cases fr with
      | none => rw [framesIn, Framing.drain_of_none hnext]; rfl
      | some fr => rw [framesIn, Framing.drain_of_some hnext]; rfl

namespace Decoder

/-- Every frame that is there, as a caller that asks until it is told to wait. -/
def drain (d : Decoder) : List Frame × Decoder :=
  match _h : d.next with
  | (none, d') => ([], d')
  | (some f, d') => (f :: d'.drain.1, d'.drain.2)
termination_by d.buf.length
decreasing_by
  refine length_read_lt (f := f) ?_
  rw [← next_eq, _h]

/-- The frames of a stream that arrives in pieces. -/
def frames : Decoder → List Bytes → List Frame
  | _, [] => []
  | d, chunk :: chunks => (d.append chunk).drain.1 ++ frames (d.append chunk).drain.2 chunks

lemma drain_eq (d : Decoder) :
    (d.drain.1, d.drain.2.buf) = (framesIn d.buf, (frameFormat.drain d.buf).2) := by
  induction hlength : d.buf.length using Nat.strong_induction_on generalizing d with
  | _ k ih =>
      have hnext := next_eq d
      rw [drain.eq_def d]
      split
      next d' h =>
        rw [h] at hnext
        rw [drain_of_read hnext.symm]
      next f d' h =>
        rw [h] at hnext
        rw [drain_of_read hnext.symm]
        have hrest := Prod.mk.inj (ih _ (hlength ▸ length_read_lt hnext.symm) d' rfl)
        dsimp only
        rw [hrest.1, hrest.2]

lemma frames_eq (d : Decoder) (chunks : List Bytes) :
    d.frames chunks = (frameFormat.feed d.buf chunks).map unframe := by
  induction chunks generalizing d with
  | nil => rfl
  | cons chunk chunks ih =>
      obtain ⟨hframes, hbuf⟩ := Prod.mk.inj (drain_eq (d.append chunk))
      rw [frames, Framing.feed, List.map_append, ih, hframes, hbuf]
      rfl

end Decoder

namespace FrameReader

lemma next_of_some {fr fr' : FrameReader} {f : Frame} (h : fr.scan = (some f, fr'))
    (src : List Bytes) : fr.next src = (.ok f, fr', src) := by
  cases src with
  | nil => rw [next, h]
  | cons chunk src => rw [next, h]

lemma next_of_none_nil {fr fr' : FrameReader} (h : fr.scan = (none, fr')) :
    fr.next [] = (.error .eof, fr', []) := by
  rw [next, h]

lemma next_of_none_cons {fr fr' : FrameReader} (h : fr.scan = (none, fr')) {chunk : Bytes}
    (hchunk : chunk ≠ []) (src : List Bytes) :
    fr.next (chunk :: src) = next { fr' with buf := fr'.buf ++ chunk } src := by
  rw [next, h]
  exact if_neg hchunk

/-- A frame takes bytes out of the buffer or the stream. -/
lemma length_next_lt {fr fr' : FrameReader} {src src' : List Bytes} {f : Frame}
    (h : fr.next src = (.ok f, fr', src')) :
    fr'.buf.length + src'.flatten.length < fr.buf.length + src.flatten.length := by
  have hread := scan_eq fr
  cases hscan : fr.scan with
  | mk g fr'' =>
      rw [hscan] at hread
      cases g with
      | some g =>
          have hlt : fr''.buf.length < fr.buf.length := length_read_lt hread.symm
          rw [next_of_some hscan] at h
          obtain ⟨-, rfl, rfl⟩ : _ ∧ fr'' = fr' ∧ src = src' := by simpa using h
          exact Nat.add_lt_add_right hlt _
      | none =>
          have hle : fr''.buf.length ≤ fr.buf.length := by
            have hsnd := congrArg Prod.snd hread
            exact le_of_eq_of_le (congrArg List.length hsnd) (Framing.length_next_le _)
          cases src with
          | nil => simp [next_of_none_nil hscan] at h
          | cons chunk src =>
              rw [next, hscan] at h
              dsimp only at h
              split_ifs at h with hchunk
              · simp at h
              · have hlt := length_next_lt h
                rw [List.length_append] at hlt
                rw [List.flatten_cons, List.length_append]
                omega
termination_by src.length

/-- The frames of a stream, as a caller that asks until the stream ends. -/
def frames (fr : FrameReader) (src : List Bytes) : List Frame :=
  match _h : fr.next src with
  | (.error _, _, _) => []
  | (.ok f, fr', src') => f :: fr'.frames src'
termination_by fr.buf.length + src.flatten.length
decreasing_by exact length_next_lt _h

lemma frames_of_error {fr fr' : FrameReader} {src src' : List Bytes} {e : ReadErr}
    (h : fr.next src = (.error e, fr', src')) : fr.frames src = [] := by
  rw [frames.eq_def fr src]
  split
  next => rfl
  next f fr'' src'' h' =>
    rw [h] at h'
    cases h'

lemma frames_of_ok {fr fr' : FrameReader} {src src' : List Bytes} {f : Frame}
    (h : fr.next src = (.ok f, fr', src')) : fr.frames src = f :: fr'.frames src' := by
  rw [frames.eq_def fr src]
  split
  next e fr'' src'' h' =>
    rw [h] at h'
    cases h'
  next g fr'' src'' h' =>
    obtain ⟨rfl, rfl, rfl⟩ : f = g ∧ fr' = fr'' ∧ src' = src'' := by simpa using h.symm.trans h'
    rfl

/-- What a caller gets depends on no more than what the next call returns. -/
lemma frames_congr {fr fr' : FrameReader} {src src' : List Bytes}
    (h : fr.next src = fr'.next src') : fr.frames src = fr'.frames src' := by
  cases hnext : fr'.next src' with
  | mk result rest =>
      obtain ⟨left, src''⟩ := rest
      cases result with
      | error e => rw [frames_of_error (h.trans hnext), frames_of_error hnext]
      | ok f => rw [frames_of_ok (h.trans hnext), frames_of_ok hnext]

/-- Every frame of the buffer is taken before the stream is read. -/
lemma exists_drained (fr : FrameReader) (src : List Bytes) :
    ∃ fr' fr'' : FrameReader, fr'.scan = (none, fr'') ∧
      fr''.buf = (frameFormat.drain fr.buf).2 ∧
      fr.frames src = framesIn fr.buf ++ fr'.frames src := by
  induction hlength : fr.buf.length using Nat.strong_induction_on generalizing fr with
  | _ k ih =>
      have hread := scan_eq fr
      cases hscan : fr.scan with
      | mk g left =>
          rw [hscan] at hread
          have hdrain := drain_of_read hread.symm
          cases g with
          | none =>
              obtain ⟨hframes, hrest⟩ := Prod.mk.inj hdrain
              exact ⟨fr, left, hscan, hrest.symm, by rw [hframes, List.nil_append]⟩
          | some f =>
              obtain ⟨hframes, hrest⟩ := Prod.mk.inj hdrain
              have hlt : left.buf.length < fr.buf.length := length_read_lt hread.symm
              obtain ⟨fr', fr'', hstop, hbuf, heq⟩ := ih _ (hlength ▸ hlt) left rfl
              refine ⟨fr', fr'', hstop, hbuf.trans hrest.symm, ?_⟩
              rw [frames_of_ok (next_of_some hscan src), heq, hframes, List.cons_append]

lemma frames_eq (fr : FrameReader) {src : List Bytes} (hsrc : ∀ chunk ∈ src, chunk ≠ []) :
    fr.frames src =
      framesIn fr.buf ++ (frameFormat.feed (frameFormat.drain fr.buf).2 src).map unframe := by
  induction src generalizing fr with
  | nil =>
      obtain ⟨fr', fr'', hstop, -, heq⟩ := exists_drained fr []
      rw [heq, frames_of_error (next_of_none_nil hstop)]
      rfl
  | cons chunk src ih =>
      obtain ⟨fr', fr'', hstop, hbuf, heq⟩ := exists_drained fr (chunk :: src)
      have hchunk := hsrc chunk (List.mem_cons_self ..)
      rw [heq, frames_congr (next_of_none_cons hstop hchunk src),
        ih _ fun c hc => hsrc c (List.mem_cons_of_mem _ hc), Framing.feed, List.map_append, ← hbuf]
      rfl

end FrameReader

lemma frameFormat_drain_nil : frameFormat.drain [] = ([], []) := by
  refine Framing.drain_of_none ?_
  rw [Framing.next.eq_def, Framing.seek, dif_pos (by decide)]

lemma Decoder.frames_start (chunks : List Bytes) :
    Decoder.frames {} chunks = framesIn chunks.flatten := by
  rw [Decoder.frames_eq, Framing.feed_eq (congrArg Prod.fst frameFormat_drain_nil), List.nil_append,
    framesIn]

lemma FrameReader.frames_start {src : List Bytes} (hsrc : ∀ chunk ∈ src, chunk ≠ []) :
    FrameReader.frames {} src = framesIn src.flatten := by
  rw [FrameReader.frames_eq _ hsrc, frameFormat_drain_nil,
    Framing.feed_eq (congrArg Prod.fst frameFormat_drain_nil), framesIn, framesIn,
    frameFormat_drain_nil]
  rfl

/-! ## What is written is read -/

lemma getU32_putU32 {v : ℕ} (h : v < 2 ^ 32) (rest : Bytes) : getU32 (putU32 v ++ rest) 0 = v := by
  show getU32 (UInt8.ofNat _ :: UInt8.ofNat _ :: UInt8.ofNat _ :: UInt8.ofNat _ :: rest) 0 = v
  rw [getU32_cons, UInt8.toNat_ofNat', UInt8.toNat_ofNat', UInt8.toNat_ofNat', UInt8.toNat_ofNat']
  omega

lemma encodeFrame_eq (f : Frame) : encodeFrame f = encode f := by
  unfold encodeFrame encode
  split_ifs
  · rfl
  · have hcovered : (putU32 kMagic ++ [f.type] ++ putU32 f.payload.length ++ f.payload).drop 4 =
        f.type :: (putU32 f.payload.length ++ f.payload) := rfl
    dsimp only
    rw [hcovered]
    simp only [List.append_assoc, List.cons_append, List.nil_append]

section Encode

variable {f : Frame} {b : Bytes}

/-- The parts of an encoded frame. -/
lemma encode_eq_some_iff :
    encode f = some b ↔ f.payload.length ≤ kMaxPayloadBytes ∧
      b = putU32 kMagic ++ (f.type :: (putU32 f.payload.length ++ (f.payload ++
        putU32 (crc32 (f.type :: (putU32 f.payload.length ++ f.payload))).toNat))) := by
  unfold encode
  split_ifs with hlong
  · exact ⟨False.elim, fun h => absurd h.1 (not_le.2 hlong)⟩
  · dsimp only
    rw [Option.some_inj, eq_comm, and_iff_right (not_lt.1 hlong)]
    simp only [List.append_assoc, List.cons_append]

variable (h : encode f = some b)

include h

lemma drop_encode : b.drop 5 = putU32 f.payload.length ++ (f.payload ++
    putU32 (crc32 (f.type :: (putU32 f.payload.length ++ f.payload))).toNat) := by
  rw [(encode_eq_some_iff.1 h).2]
  rfl

lemma length_encode : b.length = kHeaderBytes + f.payload.length + kTrailerBytes := by
  rw [(encode_eq_some_iff.1 h).2]
  simp only [List.length_append, List.length_cons, putU32, List.length_nil, kHeaderBytes,
    kTrailerBytes]
  omega

lemma declared_encode : getU32 b 5 = f.payload.length := by
  have hle := (encode_eq_some_iff.1 h).1
  have hlt : f.payload.length < 2 ^ 32 := lt_of_le_of_lt hle (by decide)
  rw [← Nat.add_zero 5, ← getU32_drop, drop_encode h, getU32_putU32 hlt]

lemma payload_encode : (b.drop kHeaderBytes) =
    f.payload ++ putU32 (crc32 (f.type :: (putU32 f.payload.length ++ f.payload))).toNat := by
  rw [(encode_eq_some_iff.1 h).2]
  rfl

lemma crc_encode : (crc32 ((b.drop 4).take (5 + f.payload.length))).toNat =
    getU32 b (kHeaderBytes + f.payload.length) := by
  have hcovered : (b.drop 4).take (5 + f.payload.length) =
      f.type :: (putU32 f.payload.length ++ f.payload) := by
    have hdrop : b.drop 4 = (f.type :: (putU32 f.payload.length ++ f.payload)) ++
        putU32 (crc32 (f.type :: (putU32 f.payload.length ++ f.payload))).toNat := by
      rw [(encode_eq_some_iff.1 h).2]
      simp only [List.cons_append, List.append_assoc]
      rfl
    have hlength : (f.type :: (putU32 f.payload.length ++ f.payload)).length =
        5 + f.payload.length := by
      rw [List.length_cons, List.length_append, putU32]
      simp only [List.length_cons, List.length_nil]
      omega
    rw [hdrop, ← hlength, List.take_left]
  have htail : getU32 b (kHeaderBytes + f.payload.length) =
      (crc32 (f.type :: (putU32 f.payload.length ++ f.payload))).toNat := by
    rw [← Nat.add_zero (kHeaderBytes + _), ← getU32_drop, ← List.drop_drop, payload_encode h,
      List.drop_left, ← List.append_nil (putU32 _), getU32_putU32 (UInt32.toNat_lt _)]
  rw [hcovered, htail]

lemma take_whole : b.take (kHeaderBytes + f.payload.length + kTrailerBytes) = b := by
  rw [← length_encode h, List.take_length]

lemma isFrame_encode : frameFormat.IsFrame b where
  magic := by
    rw [(encode_eq_some_iff.1 h).2]
    exact List.prefix_append ..
  header_le := by
    rw [length_encode h, header_eq]
    omega
  declared := by
    rw [header_eq, declared_eq, declared_encode h,
      if_neg (not_lt.2 (encode_eq_some_iff.1 h).1), length_encode h]
  accepts := by
    have haccepts := accepts_eq (declared_encode h)
    rwa [take_whole h, decide_eq_true (crc_encode h)] at haccepts

lemma unframe_encode : unframe b = f := by
  have hunframe := unframe_eq (declared_encode h)
  rw [take_whole h, payload_encode h, List.take_left] at hunframe
  rw [hunframe, (encode_eq_some_iff.1 h).2]
  rfl

end Encode

lemma unbordered : frameFormat.Unbordered := by
  have hdecide : ∀ k < 4, 0 < k → ¬ (putU32 kMagic).drop k <+: putU32 kMagic := by decide
  exact fun k hpos hlt => hdecide k hlt hpos

/-- What one end has written: some noise, and then a frame. -/
structure Part where
  noise : Bytes
  frame : Frame
  bytes : Bytes
  quiet : ¬ putU32 kMagic <:+: noise
  encoded : encode frame = some bytes ∨ encodeFrame frame = some bytes

namespace Part

lemma encode_eq (p : Part) : encode p.frame = some p.bytes := by
  rcases p.encoded with h | h
  · exact h
  · rw [← encodeFrame_eq, h]

/-- Everything that is written, with some noise at the end. -/
def stream (parts : List Part) (last : Bytes) : Bytes :=
  Framing.weave (parts.map fun p => (p.noise, p.bytes)) last

end Part

lemma framesIn_stream (parts : List Part) {last : Bytes} (hlast : ¬ putU32 kMagic <:+: last) :
    framesIn (Part.stream parts last) = parts.map Part.frame := by
  have hparts : ∀ q ∈ parts.map fun p => (p.noise, p.bytes),
      ¬ frameFormat.magic <:+: q.1 ∧ frameFormat.IsFrame q.2 := by
    intro q hq
    obtain ⟨p, -, rfl⟩ := List.mem_map.1 hq
    exact ⟨p.quiet, isFrame_encode p.encode_eq⟩
  rw [framesIn, Part.stream, Framing.drain_weave unbordered hparts hlast, List.map_map,
    List.map_map]
  exact List.map_congr_left fun p _ => unframe_encode p.encode_eq

/-- Both readers take the same frames out of every stream, however it was cut into pieces for
either of them; and frames among noise come out as they were written. -/
theorem frames_survive :
    (∀ chunks src : List Bytes, (∀ chunk ∈ src, chunk ≠ []) → chunks.flatten = src.flatten →
      Decoder.frames {} chunks = FrameReader.frames {} src) ∧
    (∀ chunks chunks' : List Bytes, chunks.flatten = chunks'.flatten →
      Decoder.frames {} chunks = Decoder.frames {} chunks') ∧
    (∀ src src' : List Bytes, (∀ chunk ∈ src, chunk ≠ []) → (∀ chunk ∈ src', chunk ≠ []) →
      src.flatten = src'.flatten → FrameReader.frames {} src = FrameReader.frames {} src') ∧
    ∀ (parts : List Part) (last : Bytes), ¬ putU32 kMagic <:+: last →
      (∀ chunks : List Bytes, chunks.flatten = Part.stream parts last →
        Decoder.frames {} chunks = parts.map Part.frame) ∧
      ∀ src : List Bytes, (∀ chunk ∈ src, chunk ≠ []) → src.flatten = Part.stream parts last →
        FrameReader.frames {} src = parts.map Part.frame := by
  refine ⟨?_, ?_, ?_, ?_⟩
  · intro chunks src hsrc h
    rw [Decoder.frames_start, FrameReader.frames_start hsrc, h]
  · intro chunks chunks' h
    rw [Decoder.frames_start, Decoder.frames_start, h]
  · intro src src' hsrc hsrc' h
    rw [FrameReader.frames_start hsrc, FrameReader.frames_start hsrc', h]
  · intro parts last hlast
    refine ⟨?_, ?_⟩
    · intro chunks h
      rw [Decoder.frames_start, h, framesIn_stream parts hlast]
    · intro src hsrc h
      rw [FrameReader.frames_start hsrc, h, framesIn_stream parts hlast]

end Chaskiwasi.Transport

namespace Chaskiwasi.Sample

open Transport

/-- A line of the log that ends in the first bytes of the magic, and then a frame. -/
def loggedFrame : Part where
  noise := [0x49, 0x43, 0x48, 0x4B]
  frame := ⟨1, [0x2A]⟩
  bytes := (encode ⟨1, [0x2A]⟩).getD []
  quiet := by decide
  encoded := Or.inl rfl

end Chaskiwasi.Sample

namespace Chaskiwasi.Transport

theorem logged_frame_survives :
    Decoder.frames {} ((Part.stream [Sample.loggedFrame] []).map fun byte => [byte]) =
      [⟨1, [0x2A]⟩] :=
  (frames_survive.2.2.2 [Sample.loggedFrame] [] (by decide)).1 _ (by
    rw [← List.flatMap_def, List.flatMap_singleton'])

end Chaskiwasi.Transport
