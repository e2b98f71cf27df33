import Chaskiwasi.Device.View
import Chaskiwasi.Device.Fits
import Chaskiwasi.Lib.Ring
import Chaskiwasi.Sync.Body

/-!
# What the device tells about itself

A request may carry a block on the device's health.  Both ends have a limit on its size, and both
drop a block that is longer: the device before it is sent, the server before it is logged.  The
block is made of what a gauge, a modem and a caller say, so whatever they say is cut to a width that
fits (`build_fits`), and the server finds in it what was built (`health_arrives`).  It writes some
characters longer than the device does; only where there are many of these would it drop the block.

What was sent is kept for the child to read, in an array that is overwritten in a circle; the page
has a line for each of the last reports, newest first (`log_shows_the_last`).
-/

namespace Chaskiwasi.Device.Health

open Codec

/-! ## The block -/

lemma isInt_zero : IsInt 0 := by decide

def kMinBatteryPct : CInt := ⟨0, isInt_zero⟩
def kMaxBatteryPct : CInt := ⟨100, by decide⟩
def kMinRssiDbm : CInt := ⟨-199, by decide⟩
def kMaxRssiDbm : CInt := ⟨99, by decide⟩
def kMinQueueDepth : CInt := ⟨0, isInt_zero⟩
def kMaxQueueDepth : CInt := ⟨9999, by decide⟩
def kMaxRatBytes : ℕ := 16
def kMaxFwBytes : ℕ := 64

/-- `std::min(std::max(n, low), high)`. -/
def clamp (low high n : CInt) : CInt := if high.1 < max n.1 low.1 then high
  else if n.1 < low.1 then low else n

/-- The loop of `Ascii`, with what it has put out. -/
def asciiLoop (maxBytes : ℕ) : List UInt8 → List UInt8 → List UInt8
  | out, [] => out
  | out, c :: s =>
      if out.length = maxBytes then out
      else asciiLoop maxBytes (if 0x20 ≤ c ∧ c ≤ 0x7e then out ++ [c] else out) s

/-- `Ascii`: what is printable, up to a number of bytes. -/
def ascii (s : List UInt8) (maxBytes : ℕ) : String :=
  String.ofList ((asciiLoop maxBytes [] s).map fun c => Char.ofNat c.toNat)

/-- `Build`. -/
def build (batteryPct : CInt) (charging : Bool) (rat : List UInt8) (rssi queueDepth : CInt)
    (fw : List UInt8) : Kipu where
  batteryPct := clamp kMinBatteryPct kMaxBatteryPct batteryPct
  charging := charging
  rat := ascii rat kMaxRatBytes
  rssi := clamp kMinRssiDbm kMaxRssiDbm rssi
  queueDepth := clamp kMinQueueDepth kMaxQueueDepth queueDepth
  fw := ascii fw kMaxFwBytes

/-! ### What a block may say -/

lemma le_clamp (low high n : CInt) (h : low.1 ≤ high.1) :
    low.1 ≤ (clamp low high n).1 ∧ (clamp low high n).1 ≤ high.1 := by
  unfold clamp
  split_ifs with hhigh hlow
  · exact ⟨h, le_rfl⟩
  · exact ⟨le_rfl, h⟩
  · have hmax := le_max_left n.1 low.1
    omega

/-- A text of printable characters, and not too many. -/
structure Short (maxBytes : ℕ) (s : String) : Prop where
  length_le : s.toList.length ≤ maxBytes
  printable : ∀ c ∈ s.toList, 0x20 ≤ c.toNat ∧ c.toNat ≤ 0x7e

lemma asciiLoop_short {maxBytes : ℕ} {out s : List UInt8} (hlength : out.length ≤ maxBytes)
    (hout : ∀ c ∈ out, 0x20 ≤ c ∧ c ≤ 0x7e) : (asciiLoop maxBytes out s).length ≤ maxBytes ∧
      ∀ c ∈ asciiLoop maxBytes out s, 0x20 ≤ c ∧ c ≤ 0x7e := by
  induction s generalizing out with
  | nil => exact ⟨hlength, hout⟩
  | cons c s ih =>
      rw [asciiLoop]
      split_ifs with hfull hprintable
      · exact ⟨hlength, hout⟩
      · refine ih ?_ fun b hb => ?_
        · rw [List.length_append, List.length_singleton]
          omega
        · rcases List.mem_append.1 hb with hb | hb
          · exact hout b hb
          · exact (List.mem_singleton.1 hb) ▸ hprintable
      · exact ih hlength hout

lemma toNat_ofNat {n : ℕ} (h : n.isValidChar) : (Char.ofNat n).toNat = n := by
  rw [Char.ofNat, dif_pos h]
  rfl

lemma short_ascii (s : List UInt8) (maxBytes : ℕ) : Short maxBytes (ascii s maxBytes) := by
  obtain ⟨hlength, hprintable⟩ := asciiLoop_short (s := s) (Nat.zero_le maxBytes)
    (fun c hc => absurd hc List.not_mem_nil)
  refine ⟨?_, fun c hc => ?_⟩
  · rw [ascii, String.toList_ofList, List.length_map]
    exact hlength
  · rw [ascii, String.toList_ofList] at hc
    obtain ⟨b, hb, rfl⟩ := List.mem_map.1 hc
    obtain ⟨hlow, hhigh⟩ := hprintable b hb
    have hbyte := b.toNat_lt
    rw [UInt8.le_iff_toNat_le] at hlow hhigh
    rw [toNat_ofNat (Or.inl (by omega))]
    exact ⟨hlow, hhigh⟩

namespace Short

variable {maxBytes : ℕ} {s : String} (h : Short maxBytes s)

include h

lemma nulFree : NulFree s := fun hmem => absurd (h.printable _ hmem).1 (by decide)

lemma utf8Size {c : Char} (hc : c ∈ s.toList) : c.utf8Size = 1 := by
  have hle := (h.printable c hc).2
  rw [Char.utf8Size_eq_one_iff, UInt32.le_iff_toNat_le]
  exact le_trans hle (by decide)

/-- Nothing in it takes the device more than two bytes. -/
lemma textBytes_le : textBytes s ≤ 2 * maxBytes := by
  rw [textBytes, cstr_eq_iff.2 h.nulFree]
  refine le_trans (List.sum_le_card_nsmul _ 2 fun w hw => ?_) ?_
  · obtain ⟨c, hc, rfl⟩ := List.mem_map.1 hw
    have hlow := (h.printable c hc).1
    rw [weight]
    split_ifs with hshort hcontrol
    · exact le_rfl
    · omega
    · rw [h.utf8Size hc]
      decide
  · rw [List.length_map, Nat.nsmul_eq_mul, Nat.mul_comm]
    exact Nat.mul_le_mul_left 2 h.length_le

end Short

/-! ### How long a block gets -/

/-- The characters that the server writes as six bytes. -/
def htmlChars (s : String) : ℕ := s.toList.countP fun c => c ∈ ['<', '>', '&']

/-- What the server writes longer than the device. -/
lemma Short.marshalledTextBytes_eq {maxBytes : ℕ} {s : String} (h : Short maxBytes s) :
    marshalledTextBytes s = textBytes s + 5 * htmlChars s := by
  have hone : ∀ c : Char, c ∈ s.toList →
      marshalWeight c = weight c + if c ∈ ['<', '>', '&'] then 5 else 0 := by
    intro c hc
    obtain ⟨hlow, hhigh⟩ := h.printable c hc
    by_cases hshort : c ∈ ['"', '\\', '\x08', '\x0c', '\n', '\r', '\t']
    · have hnot : c ∉ ['<', '>', '&'] := by
        simp only [List.mem_cons, List.not_mem_nil, or_false] at hshort
        rcases hshort with rfl | rfl | rfl | rfl | rfl | rfl | rfl <;> decide
      rw [marshalWeight, weight, if_pos hshort, if_pos hshort, if_neg hnot]
    · have hcontrol : ¬ c.toNat < 32 := by omega
      rw [marshalWeight, weight, if_neg hshort, if_neg hshort, if_neg hcontrol, h.utf8Size hc]
      by_cases hhtml : c ∈ ['<', '>', '&']
      · have hlong : c.toNat < 32 ∨ c ∈ ['<', '>', '&', '\u2028', '\u2029'] :=
          Or.inr (List.mem_append_left ['\u2028', '\u2029'] hhtml)
        rw [if_pos hlong, if_pos hhtml]
      · have hplain : ¬ (c.toNat < 32 ∨ c ∈ ['<', '>', '&', '\u2028', '\u2029']) := by
          rintro (hlow | hmem)
          · exact hcontrol hlow
          · rcases List.mem_append.1 (show c ∈ ['<', '>', '&'] ++ ['\u2028', '\u2029'] from hmem)
              with hmem | hmem
            · exact hhtml hmem
            · simp only [List.mem_cons, List.not_mem_nil, or_false] at hmem
              rcases hmem with rfl | rfl <;> exact absurd hhigh (by decide)
        rw [if_neg hplain, if_neg hhtml]
  rw [marshalledTextBytes, textBytes, cstr_eq_iff.2 h.nulFree, htmlChars]
  generalize s.toList = cs at hone
  induction cs with
  | nil => rfl
  | cons c cs ih =>
      have hrest := ih fun b hb => hone b (List.mem_cons_of_mem _ hb)
      rw [List.map_cons, List.map_cons, List.sum_cons, List.sum_cons, hrest,
        hone c (List.mem_cons_self ..), List.countP_cons]
      simp only [decide_eq_true_eq]
      split_ifs <;> omega

lemma width_toDigits (n : ℕ) :
    Json.width (Nat.toDigits 10 n) = (Nat.toDigits 10 n).length := by
  have hdigit : ∀ c ∈ Nat.toDigits 10 n, c.utf8Size = 1 := fun c hc => by
    have h := Nat.isDigit_of_mem_toDigits (by decide) (by decide) hc
    rw [Char.isDigit, Bool.and_eq_true, decide_eq_true_eq, decide_eq_true_eq] at h
    rw [Char.utf8Size_eq_one_iff]
    exact UInt32.le_trans h.2 (by decide)
  rw [Json.width]
  generalize Nat.toDigits 10 n = cs at hdigit
  induction cs with
  | nil => rfl
  | cons c cs ih =>
      rw [List.map_cons, List.sum_cons, hdigit c (List.mem_cons_self ..),
        ih fun b hb => hdigit b (List.mem_cons_of_mem _ hb), List.length_cons, Nat.add_comm]

/-- A number of so many digits takes one byte more at most, for its sign. -/
lemma width_int_le {n : ℤ} {digits : ℕ} (hpos : 0 < digits) (h : n.natAbs < 10 ^ digits) :
    Json.width (Literal.int n).print ≤ digits + if n < 0 then 1 else 0 := by
  have hlength := (Nat.length_toDigits_le_iff (by decide) hpos).2 h
  have hminus : Json.width ['-'] = 1 := by decide
  rw [Literal.print, Json.width_append, width_toDigits]
  split_ifs
  · omega
  · rw [Json.width_nil]
    omega

/-- A clamped number takes no more than its bounds. -/
lemma width_clamp_le (low high n : CInt) {digits : ℕ} (hle : low.1 ≤ high.1) (hpos : 0 < digits)
    (hlow : low.1.natAbs < 10 ^ digits) (hhigh : high.1.natAbs < 10 ^ digits) :
    Json.width (Literal.int (clamp low high n)).print ≤ digits + if low.1 < 0 then 1 else 0 := by
  obtain ⟨h, h'⟩ := le_clamp low high n hle
  have hwidth := width_int_le (n := (clamp low high n).1) hpos (by omega)
  split_ifs at hwidth ⊢ with hneg hbelow
  · exact hwidth
  · omega
  · omega
  · exact hwidth

/-- The fields of a block, as both ends write them. -/
def fields (k : Kipu) : List (String × Json) :=
  [("battery_pct", Codec.int k.batteryPct), ("charging", .bool k.charging), ("fw", .str k.fw),
    ("queue_depth", Codec.int k.queueDepth), ("rat", .str k.rat), ("rssi", Codec.int k.rssi)]

/-- The bytes of a block without its texts. -/
def numberBytes (k : Kipu) : ℕ :=
  68 + Json.width (Literal.int k.batteryPct).print + flagBytes k.charging +
    Json.width (Literal.int k.queueDepth).print + Json.width (Literal.int k.rssi).print

/-- The bytes of a block, whatever its texts take. -/
lemma size_block (esc : Char → List Char) (k : Kipu) (fw rat : Json)
    (hkeys : ∀ key ∈ ["battery_pct", "charging", "fw", "queue_depth", "rat", "rssi"],
      Json.quotedSize esc key = 2 + key.length) :
    (Json.obj [("battery_pct", Codec.int k.batteryPct), ("charging", .bool k.charging), ("fw", fw),
      ("queue_depth", Codec.int k.queueDepth), ("rat", rat),
      ("rssi", Codec.int k.rssi)]).size esc + 4 = numberBytes k + fw.size esc + rat.size esc := by
  have hbattery : Json.quotedSize esc "battery_pct" = 13 := hkeys _ (by simp)
  have hcharging : Json.quotedSize esc "charging" = 10 := hkeys _ (by simp)
  have hfw : Json.quotedSize esc "fw" = 4 := hkeys _ (by simp)
  have hqueue : Json.quotedSize esc "queue_depth" = 13 := hkeys _ (by simp)
  have hrat : Json.quotedSize esc "rat" = 5 := hkeys _ (by simp)
  have hrssi : Json.quotedSize esc "rssi" = 6 := hkeys _ (by simp)
  rw [Json.size_obj esc (by simp), numberBytes]
  simp only [List.map_cons, List.map_nil, List.sum_cons, List.sum_nil, Json.fieldSize, hbattery,
    hcharging, hfw, hqueue, hrat, hrssi, Codec.int, Json.size_num, Json.size_bool, flagBytes]
  omega

lemma printedBytes_kipu (k : Kipu) :
    printedBytes (encodeKipu k) = numberBytes k + textBytes k.fw + textBytes k.rat := by
  have hsize := size_block escape k (text k.fw) (text k.rat) (by decide)
  rw [size_text, size_text] at hsize
  rw [printedBytes_eq_size, encodeKipu]
  omega

lemma marshalledBytes_fields (k : Kipu) : marshalledBytes (.obj (fields k)) =
    numberBytes k + marshalledTextBytes k.fw + marshalledTextBytes k.rat := by
  have hsize := size_block marshalEscape k (.str k.fw) (.str k.rat) (by decide)
  rw [size_marshalled_str, size_marshalled_str] at hsize
  rw [marshalledBytes, fields]
  omega

/-- The characters of a block that the server writes as six bytes. -/
def longChars (k : Kipu) : ℕ := htmlChars k.fw + htmlChars k.rat

section Built

variable (batteryPct rssi queueDepth : CInt) (charging : Bool) (rat fw : List UInt8)

lemma numberBytes_build_le :
    numberBytes (build batteryPct charging rat rssi queueDepth fw) ≤ 84 := by
  have hbattery : Json.width (Literal.int (clamp kMinBatteryPct kMaxBatteryPct batteryPct)).print ≤
      3 + 0 := width_clamp_le _ _ _ (by decide) (by decide) (by decide) (by decide)
  have hqueue : Json.width (Literal.int (clamp kMinQueueDepth kMaxQueueDepth queueDepth)).print ≤
      4 + 0 := width_clamp_le _ _ _ (by decide) (by decide) (by decide) (by decide)
  have hrssi : Json.width (Literal.int (clamp kMinRssiDbm kMaxRssiDbm rssi)).print ≤
      3 + 1 := width_clamp_le _ _ _ (by decide) (by decide) (by decide) (by decide)
  have hflag : flagBytes charging ≤ 5 := by
    unfold flagBytes
    split_ifs <;> decide
  show 68 + _ + flagBytes charging + _ + _ ≤ 84
  dsimp only [build]
  omega

/-- Whatever is reported, the block is not dropped by the device. -/
theorem build_fits : printedBytes (encodeKipu (build batteryPct charging rat rssi queueDepth fw)) ≤
    244 := by
  have hnumbers := numberBytes_build_le batteryPct rssi queueDepth charging rat fw
  have hrat := (short_ascii rat kMaxRatBytes).textBytes_le
  have hfw := (short_ascii fw kMaxFwBytes).textBytes_le
  rw [printedBytes_kipu]
  have hratBytes : kMaxRatBytes = 16 := rfl
  have hfwBytes : kMaxFwBytes = 64 := rfl
  dsimp only [build] at hnumbers ⊢
  omega

lemma kipuBlock_build : kipuBlock (build batteryPct charging rat rssi queueDepth fw) =
    some (.obj (fields (build batteryPct charging rat rssi queueDepth fw))) := by
  have hfits := build_fits batteryPct rssi queueDepth charging rat fw
  have hrat : cstr (ascii rat kMaxRatBytes) = ascii rat kMaxRatBytes :=
    cstr_eq_iff.2 (short_ascii rat kMaxRatBytes).nulFree
  have hfw : cstr (ascii fw kMaxFwBytes) = ascii fw kMaxFwBytes :=
    cstr_eq_iff.2 (short_ascii fw kMaxFwBytes).nulFree
  rw [kipuBlock, if_pos (le_trans hfits (by decide)), encodeKipu, fields]
  dsimp only [build, text]
  rw [hrat, hfw]

/-- **The block arrives as it was built.**  Whatever the gauge, the modem and the caller report,
every request that the server reads carries the block, field by field.  What the server would write
of it is what the device wrote and five bytes more for each long character; so with no more than 53
of these the log keeps it. -/
theorem health_arrives {r : Request} {q : DecodedRequest} {bytes : ℕ}
    (hr : r.kipu = some (build batteryPct charging rat rssi queueDepth fw))
    (hq : decodeRequest (encodeRequest r) bytes = some q) :
    let k := build batteryPct charging rat rssi queueDepth fw
    q.kipu = fields k ∧ printedBytes (encodeKipu k) ≤ maxKipuBytes ∧
      marshalledBytes (.obj q.kipu) = printedBytes (encodeKipu k) + 5 * longChars k ∧
      (longChars k ≤ 53 → marshalledBytes (.obj q.kipu) ≤ maxKipuBytes) := by
  intro k
  have hfits := build_fits batteryPct rssi queueDepth charging rat fw
  obtain ⟨-, -, kipu, -, -, hkipu, -, rfl⟩ := decodeRequest_encodeRequest.1 hq
  rw [hr, Option.bind_some, kipuBlock_build] at hkipu
  obtain rfl := Option.some.inj hkipu
  have hlimit : maxKipuBytes = 512 := rfl
  have hbytes : marshalledBytes (.obj (fields k)) =
      printedBytes (encodeKipu k) + 5 * longChars k := by
    rw [marshalledBytes_fields, printedBytes_kipu, longChars,
      (short_ascii rat kMaxRatBytes).marshalledTextBytes_eq (s := k.rat),
      (short_ascii fw kMaxFwBytes).marshalledTextBytes_eq (s := k.fw)]
    omega
  refine ⟨rfl, le_trans hfits (by decide), hbytes, fun hfew => ?_⟩
  show marshalledBytes (.obj (fields k)) ≤ maxKipuBytes
  have hbuilt : printedBytes (encodeKipu k) ≤ 244 := hfits
  rw [hbytes, hlimit]
  omega

end Built

namespace Sample

/-- What a device on the charger tells. -/
def charging : Kipu :=
  build kMaxBatteryPct true [0x4c, 0x54, 0x45] kMinRssiDbm kMinQueueDepth [0x31]

def reporting : Request := { Chaskiwasi.Sample.firstRequest with kipu := some charging }

end Sample

theorem health_arrives_from_charger : ∃ q,
    decodeRequest (encodeRequest Sample.reporting) 300 = some q ∧
      q.kipu = fields Sample.charging ∧ marshalledBytes (.obj q.kipu) ≤ maxKipuBytes := by
  obtain ⟨q, hq⟩ : ∃ q, decodeRequest (encodeRequest Sample.reporting) 300 = some q :=
    Option.isSome_iff_exists.1 (by decide +kernel)
  obtain ⟨hkipu, -, -, hkept⟩ := health_arrives kMaxBatteryPct kMinRssiDbm kMinQueueDepth true
    [0x4c, 0x54, 0x45] [0x31] (r := Sample.reporting) rfl hq
  exact ⟨q, hq, hkipu, hkept (by decide +kernel)⟩

/-! ## The log -/

def kLogCapacity : ℕ := 32

/-- `RingLog`. -/
abbrev Log := Ring.Circular HealthEntry kLogCapacity

def newLog : Log := Ring.Circular.empty (by decide)

section Page

variable [Utf8proc.Data] {u : Ui} {io : ViewIO}

/-- The interface reads the log: as many entries as it keeps, newest first. -/
structure Reads (u : Ui) (io : ViewIO) (log : Log) : Prop where
  entries : u.deps.logEntries = (log.recent kLogCapacity).length
  recent : ∀ i < u.deps.logEntries, (log.recent kLogCapacity)[i]? = some (io.recent i)

/-- **The page shows what was recorded last.**  After any number of reports there is a line for each
of the last 32, newest first, and for no other. -/
theorem log_shows_the_last (reports : List HealthEntry)
    (hreads : Reads u io (reports.foldl (fun log e => log.record e) newLog))
    (hscreen : u.screen = .settingsLog) :
    (u.view io).lines = if reports = [] then [io.t .settingsLogEmpty]
      else (reports.reverse.take kLogCapacity).map (Ui.logLine io) := by
  obtain ⟨hentries, hrecent⟩ := hreads
  rw [newLog, Ring.Circular.recent_foldl_record, List.take_take, Nat.min_self] at hentries hrecent
  have hnone : u.deps.logEntries = 0 ↔ reports = [] := by
    rw [hentries, List.length_eq_zero_iff, List.take_eq_nil_iff, List.reverse_eq_nil_iff]
    exact or_iff_right (by decide)
  have hlines : (List.range u.deps.logEntries).map (fun i => Ui.logLine io (io.recent i)) =
      (reports.reverse.take kLogCapacity).map (Ui.logLine io) := by
    refine List.ext_getElem? fun i => ?_
    rw [List.getElem?_map, List.getElem?_map]
    by_cases hi : i < u.deps.logEntries
    · rw [hrecent i hi, List.getElem?_range hi, Option.map_some, Option.map_some]
    · rw [List.getElem?_eq_none (by rw [List.length_range]; omega),
        List.getElem?_eq_none (by omega)]
      rfl
  unfold Ui.view Ui.build
  rw [hscreen]
  dsimp only [Ui.buildLog]
  rw [List.nil_append, hlines]
  exact if_congr hnone rfl rfl

end Page

namespace Sample

/-- One report, and another an hour later. -/
def reports : List HealthEntry := [⟨3600, charging⟩, ⟨7200, charging⟩]

def page : Ui := { deps := { logEntries := 2 }, screen := .settingsLog }

def words : ViewIO where
  text := chaskiText
  recent i := if i = 0 then ⟨7200, charging⟩ else ⟨3600, charging⟩

end Sample

theorem log_shows_the_last_two :
    (@Ui.view Utf8proc.Sample.data Sample.page Sample.words).lines =
      [Ui.logLine Sample.words ⟨7200, Sample.charging⟩,
        Ui.logLine Sample.words ⟨3600, Sample.charging⟩] := by
  refine @log_shows_the_last Utf8proc.Sample.data _ _ Sample.reports ⟨rfl, fun i hi => ?_⟩ rfl
  obtain rfl | rfl : i = 0 ∨ i = 1 := by
    have htwo : i < 2 := hi
    omega
  · rfl
  · rfl

end Chaskiwasi.Device.Health
