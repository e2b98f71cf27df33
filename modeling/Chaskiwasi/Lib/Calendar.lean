import Mathlib.Algebra.Group.Action.Defs
import Mathlib.Algebra.Order.BigOperators.Group.List
import Mathlib.Algebra.Order.Ring.Int
import Mathlib.Tactic.Common
import Mathlib.Tactic.IntervalCases

/-!
# Dates, and times written by a layout

A `Moment` is a time as the calendar and the clock show it in UTC, in the years that four digits can
say.  `dayNumber` counts the days and `seconds` the seconds since the first day of year 1.

A layout is a list of `Part`s.  `format` writes each of them with leading zeros.  `parse` reads them
one after the other: it takes one digit for an hour where no second one follows, and it takes a
fraction behind the seconds that the layout does not mention.  What was written by a layout is read
back by it (`parse_format`).
-/

namespace Calendar

/-! ## Days -/

def IsLeap (year : ℕ) : Prop := year % 4 = 0 ∧ (year % 100 ≠ 0 ∨ year % 400 = 0)

instance (year : ℕ) : Decidable (IsLeap year) := inferInstanceAs (Decidable (_ ∧ _))

def daysIn (month year : ℕ) : ℕ :=
  match month with
  | 2 => if IsLeap year then 29 else 28
  | 4 | 6 | 9 | 11 => 30
  | _ => 31

/-- The days of a year in front of a month. -/
def daysBefore (month year : ℕ) : ℕ := ((List.range' 1 (month - 1)).map (daysIn · year)).sum

lemma daysIn_le (month year : ℕ) : daysIn month year ≤ 31 := by
  unfold daysIn
  split
  · split <;> decide
  all_goals decide

lemma daysBefore_le (month year : ℕ) : daysBefore month year ≤ 31 * (month - 1) := by
  have hsum := List.sum_le_card_nsmul ((List.range' 1 (month - 1)).map (daysIn · year)) 31 (by
    intro n hn
    obtain ⟨k, -, rfl⟩ := List.mem_map.1 hn
    exact daysIn_le k year)
  rw [List.length_map, List.length_range', smul_eq_mul] at hsum
  rw [daysBefore]
  omega

/-- A time, field by field. -/
structure Fields where
  year : ℕ := 0
  month : ℕ := 1
  day : ℕ := 1
  hour : ℕ := 0
  minute : ℕ := 0
  second : ℕ := 0
  nsec : ℕ := 0
  deriving DecidableEq, Repr

namespace Fields

structure Valid (f : Fields) : Prop where
  year : f.year ≤ 9999
  month_pos : 1 ≤ f.month
  month_le : f.month ≤ 12
  day_pos : 1 ≤ f.day
  day_le : f.day ≤ daysIn f.month f.year
  hour : f.hour < 24
  minute : f.minute < 60
  second : f.second < 60
  nsec : f.nsec < 1000000000

instance (f : Fields) : Decidable f.Valid :=
  decidable_of_iff (f.year ≤ 9999 ∧ 1 ≤ f.month ∧ f.month ≤ 12 ∧ 1 ≤ f.day ∧
      f.day ≤ daysIn f.month f.year ∧ f.hour < 24 ∧ f.minute < 60 ∧ f.second < 60 ∧
      f.nsec < 1000000000)
    ⟨fun ⟨a, b, c, d, e, f, g, h, i⟩ => ⟨a, b, c, d, e, f, g, h, i⟩,
      fun ⟨a, b, c, d, e, f, g, h, i⟩ => ⟨a, b, c, d, e, f, g, h, i⟩⟩

/-- The days since the first of January of year 1. -/
def dayNumber (f : Fields) : ℤ :=
  let before : ℤ := f.year - 1
  365 * before + before / 4 - before / 100 + before / 400 + daysBefore f.month f.year + f.day - 1

def seconds (f : Fields) : ℤ := 86400 * f.dayNumber + 3600 * f.hour + 60 * f.minute + f.second

/-- The nanoseconds. -/
def nanos (f : Fields) : ℤ := 1000000000 * f.seconds + f.nsec

end Fields

/-- A time that the calendar and the clock can show. -/
structure Moment extends Fields where
  valid : toFields.Valid
  deriving DecidableEq

namespace Moment

variable (m : Moment)

/-- Year 0 is the first that four digits can say. -/
lemma dayNumber_ge : -366 ≤ m.dayNumber := by
  have hday := m.valid.day_pos
  simp only [Fields.dayNumber]
  omega

/-- And year 9999 is the last. -/
lemma dayNumber_lt : m.dayNumber < 4000000 := by
  have hyear := m.valid.year
  have hmonth := m.valid.month_le
  have hday := m.valid.day_le.trans (daysIn_le m.month m.year)
  have hbefore := daysBefore_le m.month m.year
  simp only [Fields.dayNumber]
  omega

/-- The clock of a day shows less than a day. -/
lemma seconds_div : m.seconds / 86400 = m.dayNumber := by
  have hhour := m.valid.hour
  have hminute := m.valid.minute
  have hsecond := m.valid.second
  simp only [Fields.seconds]
  omega

/-- The beginning of the day. -/
def midnight : Moment where
  toFields := { year := m.year, month := m.month, day := m.day }
  valid :=
    { m.valid with
      hour := (by decide : 0 < 24)
      minute := (by decide : 0 < 60)
      second := (by decide : 0 < 60)
      nsec := (by decide : 0 < 1000000000) }

@[simp] lemma dayNumber_midnight : m.midnight.dayNumber = m.dayNumber := rfl

/-- The second that the moment lies in. -/
def whole : Moment where
  toFields := { m.toFields with nsec := 0 }
  valid := { m.valid with nsec := (by decide : 0 < 1000000000) }

lemma seconds_midnight : m.midnight.seconds = 86400 * m.dayNumber := by
  show 86400 * m.dayNumber + 3600 * 0 + 60 * 0 + 0 = 86400 * m.dayNumber
  omega

end Moment

/-- The first day of all. -/
def firstDay : Moment := ⟨{}, by decide⟩

lemma dayNumber_firstDay : firstDay.dayNumber = -366 := by decide

/-! ## Numbers with leading zeros -/

def two (n : ℕ) : List Char := [Nat.digitChar (n / 10 % 10), Nat.digitChar (n % 10)]

def four (n : ℕ) : List Char := two (n / 100) ++ two (n % 100)

def value (c : Char) : ℕ := c.toNat - 48

/-- One or two digits; where the width is fixed, two. -/
def getnum (fixed : Bool) : List Char → Option (ℕ × List Char)
  | [] => none
  | [a] => if a.isDigit && !fixed then some (value a, []) else none
  | a :: b :: rest =>
      if !a.isDigit then none
      else if !b.isDigit then if fixed then none else some (value a, b :: rest)
      else some (10 * value a + value b, rest)

/-- Four digits. -/
def getYear : List Char → Option (ℕ × List Char)
  | a :: b :: c :: d :: rest =>
      if [a, b, c, d].all Char.isDigit then
        some (1000 * value a + 100 * value b + 10 * value c + value d, rest)
      else none
  | _ => none

lemma digitChar_spec {d : ℕ} (h : d < 10) :
    (Nat.digitChar d).isDigit = true ∧ value (Nat.digitChar d) = d := by
  interval_cases d <;> decide

lemma getnum_two {n : ℕ} (h : n < 100) (fixed : Bool) (rest : List Char) :
    getnum fixed (two n ++ rest) = some (n, rest) := by
  obtain ⟨hten, hvten⟩ := digitChar_spec (d := n / 10 % 10) (by omega)
  obtain ⟨hone, hvone⟩ := digitChar_spec (d := n % 10) (by omega)
  have hsum : 10 * (n / 10 % 10) + n % 10 = n := by omega
  simp [two, getnum, hten, hone, hvten, hvone, hsum]

lemma getYear_four {n : ℕ} (h : n < 10000) (rest : List Char) :
    getYear (four n ++ rest) = some (n, rest) := by
  obtain ⟨ha, hva⟩ := digitChar_spec (d := n / 100 / 10 % 10) (by omega)
  obtain ⟨hb, hvb⟩ := digitChar_spec (d := n / 100 % 10) (by omega)
  obtain ⟨hc, hvc⟩ := digitChar_spec (d := n % 100 / 10 % 10) (by omega)
  obtain ⟨hd, hvd⟩ := digitChar_spec (d := n % 100 % 10) (by omega)
  simp only [four, two, List.cons_append, List.nil_append, getYear, List.all_cons, List.all_nil,
    ha, hb, hc, hd, hva, hvb, hvc, hvd, Bool.and_self, if_pos]
  congr 2
  omega

lemma digitChar_value {c : Char} (h : c.isDigit = true) :
    value c < 10 ∧ Nat.digitChar (value c) = c := by
  have hlow : 48 ≤ c.toNat := (Char.isDigit_iff_toNat.1 h).1
  have hhigh : c.toNat ≤ 57 := (Char.isDigit_iff_toNat.1 h).2
  have hvalue : c.toNat = 48 + value c := by
    simp only [value]
    omega
  have hlt : value c < 10 := by omega
  have hchar : c = Char.ofNat (48 + value c) := by rw [← hvalue, Char.ofNat_toNat]
  refine ⟨hlt, ?_⟩
  generalize value c = n at hlt hchar
  subst hchar
  interval_cases n <;> rfl

/-- Two digits are the number they are read as. -/
lemma two_value {a b : Char} (ha : a.isDigit = true) (hb : b.isDigit = true) :
    two (10 * value a + value b) = [a, b] := by
  obtain ⟨hlta, hchara⟩ := digitChar_value ha
  obtain ⟨hltb, hcharb⟩ := digitChar_value hb
  have hten : (10 * value a + value b) / 10 % 10 = value a := by omega
  have hone : (10 * value a + value b) % 10 = value b := by omega
  rw [two, hten, hone, hchara, hcharb]

lemma four_value {a b c d : Char} (ha : a.isDigit = true) (hb : b.isDigit = true)
    (hc : c.isDigit = true) (hd : d.isDigit = true) :
    four (1000 * value a + 100 * value b + 10 * value c + value d) = [a, b, c, d] := by
  have hltc := (digitChar_value hc).1
  have hltd := (digitChar_value hd).1
  have hhigh : (1000 * value a + 100 * value b + 10 * value c + value d) / 100 =
      10 * value a + value b := by omega
  have hlow : (1000 * value a + 100 * value b + 10 * value c + value d) % 100 =
      10 * value c + value d := by omega
  rw [four, hhigh, hlow, two_value ha hb, two_value hc hd]
  rfl

/-! ## Layouts -/

inductive Part
  | lit (c : Char)
  | year
  | month
  | day
  | hour
  | minute
  | second
  deriving DecidableEq, Repr

abbrev Layout := List Part

namespace Part

def format (f : Fields) : Part → List Char
  | lit c => [c]
  | year => four f.year
  | month => two f.month
  | day => two f.day
  | hour => two f.hour
  | minute => two f.minute
  | second => two f.second

/-- The field of a part, as another time has it. -/
def fill (f g : Fields) : Part → Fields
  | lit _ => g
  | year => { g with year := f.year }
  | month => { g with month := f.month }
  | day => { g with day := f.day }
  | hour => { g with hour := f.hour }
  | minute => { g with minute := f.minute }
  | second => { g with second := f.second }

end Part

/-- The first nine digits behind the point. -/
def nanoseconds (digits : List Char) : ℕ :=
  (digits.take 9).foldl (fun n c => 10 * n + value c) 0 * 10 ^ (9 - digits.length)

/-- A point or a comma with digits behind it. -/
def fraction : List Char → Option (ℕ × List Char)
  | point :: d :: rest =>
      if (point = '.' ∨ point = ',') ∧ d.isDigit = true then
        some (nanoseconds ((d :: rest).takeWhile Char.isDigit), rest.dropWhile Char.isDigit)
      else none
  | _ => none

namespace Layout

def format (l : Layout) (f : Fields) : List Char := l.flatMap (Part.format f)

/-- Reads the parts one after the other, into the fields read so far. -/
def fields : Layout → List Char → Fields → Option Fields
  | [], s, f => if s = [] then some f else none
  | .lit c :: l, s, f =>
      match s with
      | [] => none
      | x :: rest => if x = c then fields l rest f else none
  | .year :: l, s, f =>
      (getYear s).bind fun (n, rest) => fields l rest { f with year := n }
  | .month :: l, s, f =>
      (getnum true s).bind fun (n, rest) =>
        if n = 0 ∨ 12 < n then none else fields l rest { f with month := n }
  | .day :: l, s, f =>
      (getnum true s).bind fun (n, rest) => fields l rest { f with day := n }
  | .hour :: l, s, f =>
      (getnum false s).bind fun (n, rest) =>
        if 24 ≤ n then none else fields l rest { f with hour := n }
  | .minute :: l, s, f =>
      (getnum true s).bind fun (n, rest) =>
        if 60 ≤ n then none else fields l rest { f with minute := n }
  | .second :: l, s, f =>
      (getnum true s).bind fun (n, rest) =>
        if 60 ≤ n then none
        else
          match fraction rest with
          | none => fields l rest { f with second := n }
          | some (nsec, rest) => fields l rest { f with second := n, nsec := nsec }

/-- The time, if the month has the day. -/
def parse (l : Layout) (s : List Char) : Option Moment :=
  (fields l s {}).bind fun f => if h : f.Valid then some ⟨f, h⟩ else none

/-! ## What was written is read -/

/-- No literal of the layout can be taken for the point of a fraction. -/
def Unpointed (l : Layout) : Prop := ∀ c, Part.lit c ∈ l → c ≠ '.' ∧ c ≠ ','

variable {l : Layout} {f g : Fields}

lemma fraction_eq_none {s : List Char} (h : ∀ c ∈ s.head?, c ≠ '.' ∧ c ≠ ',') :
    fraction s = none := by
  match s with
  | [] | [_] => rfl
  | point :: d :: rest =>
      obtain ⟨hpoint, hcomma⟩ := h point rfl
      simp [fraction, hpoint, hcomma]

lemma ne_point_of_isDigit {c : Char} (h : c.isDigit = true) : c ≠ '.' ∧ c ≠ ',' := by
  constructor <;> rintro rfl <;> cases h

lemma head?_two (n : ℕ) (s : List Char) : ∀ c ∈ (two n ++ s).head?, c ≠ '.' ∧ c ≠ ',' := by
  intro c hc
  obtain rfl : Nat.digitChar (n / 10 % 10) = c := Option.some.inj hc
  exact ne_point_of_isDigit (digitChar_spec (Nat.mod_lt _ (by decide))).1

lemma head?_format (hl : Unpointed l) {s : List Char} (hs : ∀ c ∈ s.head?, c ≠ '.' ∧ c ≠ ',') :
    ∀ c ∈ (l.format f ++ s).head?, c ≠ '.' ∧ c ≠ ',' := by
  cases l with
  | nil => exact hs
  | cons part l =>
      have hcons : format (part :: l) f = part.format f ++ format l f := List.flatMap_cons ..
      rw [hcons, List.append_assoc]
      cases part with
      | lit x =>
          intro c hc
          obtain rfl : x = c := Option.some.inj hc
          exact hl x (List.mem_cons_self ..)
      | year =>
          rw [Part.format, four, List.append_assoc]
          exact head?_two _ _
      | month | day | hour | minute | second => exact head?_two _ _

/-- The parts are read as they were written, if nothing follows them. -/
lemma fields_format (hf : f.Valid) (hl : Unpointed l) {s : List Char}
    (hs : ∀ c ∈ s.head?, c ≠ '.' ∧ c ≠ ',') :
    fields l (l.format f ++ s) g = if s = [] then some (l.foldl (Part.fill f) g) else none := by
  induction l generalizing g with
  | nil => rfl
  | cons part l ih =>
      have hcons : format (part :: l) f = part.format f ++ format l f := List.flatMap_cons ..
      have hrest : Unpointed l := fun c hc => hl c (List.mem_cons_of_mem _ hc)
      have hday := hf.day_le.trans (daysIn_le f.month f.year)
      have hmonth := hf.month_le
      have hhour := hf.hour
      have hminute := hf.minute
      have hsecond := hf.second
      rw [hcons, List.append_assoc, List.foldl_cons]
      cases part with
      | lit x => exact (if_pos rfl).trans (ih hrest)
      | year =>
          rw [Part.format, fields, getYear_four (Nat.lt_succ_of_le hf.year)]
          exact ih hrest
      | month =>
          rw [Part.format, fields, getnum_two (by omega)]
          exact (if_neg (by have := hf.month_pos; omega)).trans (ih hrest)
      | day =>
          rw [Part.format, fields, getnum_two (by omega)]
          exact ih hrest
      | hour =>
          rw [Part.format, fields, getnum_two (by omega)]
          exact (if_neg (by omega)).trans (ih hrest)
      | minute =>
          rw [Part.format, fields, getnum_two (by omega)]
          exact (if_neg (by omega)).trans (ih hrest)
      | second =>
          rw [Part.format, fields, getnum_two (by omega), Option.bind_some]
          refine (if_neg (by omega)).trans ?_
          rw [fraction_eq_none (head?_format hrest hs)]
          exact ih hrest

/-- What was written by a layout is read back by it, as far as the layout has the fields. -/
theorem parse_format (m m' : Moment) (hl : Unpointed l)
    (hfill : l.foldl (Part.fill m.toFields) {} = m'.toFields) :
    parse l (l.format m.toFields) = some m' := by
  have hread := fields_format (g := {}) (s := []) m.valid hl (by simp)
  rw [List.append_nil, if_pos rfl, hfill] at hread
  rw [parse, hread]
  exact dif_pos m'.valid

/-- With more behind it, it is not read. -/
lemma parse_format_append (m : Moment) (hl : Unpointed l) {s : List Char} (hne : s ≠ [])
    (hs : ∀ c ∈ s.head?, c ≠ '.' ∧ c ≠ ',') : parse l (l.format m.toFields ++ s) = none := by
  rw [parse, fields_format m.valid hl hs, if_neg hne]
  rfl

end Layout

end Calendar
