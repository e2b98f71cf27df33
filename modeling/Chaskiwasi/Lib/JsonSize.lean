import Chaskiwasi.Lib.Json

/-!
# How long a JSON text gets

The text of a value is as many bytes as UTF-8 makes of it.  That adds up: an object comes to its
fields, each with its name, a colon and a comma, an array to its elements, each with a comma, and a
string to what its characters are escaped to.
-/

namespace Json

/-- The bytes of a text. -/
def width (cs : List Char) : ℕ := (cs.map Char.utf8Size).sum

@[simp] lemma width_nil : width [] = 0 := rfl

@[simp] lemma width_cons (c : Char) (cs : List Char) : width (c :: cs) = c.utf8Size + width cs := by
  rw [width, List.map_cons, List.sum_cons, width]

@[simp] lemma width_append (cs ds : List Char) : width (cs ++ ds) = width cs + width ds := by
  rw [width, List.map_append, List.sum_append, width, width]

lemma length_utf8Encode (cs : List Char) :
    (cs.flatMap String.utf8EncodeChar).length = width cs := by
  induction cs with
  | nil => rfl
  | cons c cs ih =>
      rw [List.flatMap_cons, List.length_append, String.length_utf8EncodeChar, ih, width_cons]

/-- With commas in between, each text takes a byte more, but for the last. -/
lemma width_intercalate {ls : List (List Char)} (h : ls ≠ []) :
    width ([','].intercalate ls) + 1 = (ls.map fun l => width l + 1).sum := by
  induction ls with
  | nil => exact absurd rfl h
  | cons l ls ih =>
      cases ls with
      | nil => simp [List.intercalate]
      | cons l' ls =>
          have hcons : [','].intercalate (l :: l' :: ls) =
              l ++ (',' :: [','].intercalate (l' :: ls)) := by
            simp [List.intercalate]
          rw [hcons, width_append, width_cons, List.map_cons, List.sum_cons, ← ih (by simp)]
          have hcomma : ','.utf8Size = 1 := by decide
          omega

section Sizes

variable (esc : Char → List Char)

/-- The bytes of a printed value. -/
def size (j : Json) : ℕ := width (j.print esc)

/-- The bytes of a string with its quotes. -/
def quotedSize (s : String) : ℕ := width (quote esc s)

/-- The bytes of a field, with its comma. -/
def fieldSize (f : String × Json) : ℕ := quotedSize esc f.1 + 2 + f.2.size esc

lemma quotedSize_eq {weight : Char → ℕ} (hweight : ∀ c, width (esc c) = weight c) (s : String) :
    quotedSize esc s = 2 + (s.toList.map weight).sum := by
  have hflat : ∀ cs : List Char, width (cs.flatMap esc) = (cs.map weight).sum := by
    intro cs
    induction cs with
    | nil => rfl
    | cons c cs ih =>
        rw [List.flatMap_cons, width_append, hweight, ih, List.map_cons, List.sum_cons]
  have hquote : '"'.utf8Size = 1 := by decide
  rw [quotedSize, quote, width_cons, width_append, hflat, width_cons, width_nil, hquote]
  omega

lemma size_num (n : Literal) : (num n).size esc = width n.print := by
  rw [size, print]

lemma size_str (s : String) : (str s).size esc = quotedSize esc s := by
  rw [size, print, quotedSize]

lemma size_bool (b : Bool) : (bool b).size esc = if b then 4 else 5 := by
  cases b with
  | false =>
      rw [size, print]
      decide
  | true =>
      rw [size, print]
      decide

lemma printFields_eq (fields : List (String × Json)) :
    printFields esc fields = fields.map fun f => quote esc f.1 ++ ':' :: f.2.print esc := by
  induction fields with
  | nil => rfl
  | cons f fields ih =>
      obtain ⟨key, x⟩ := f
      rw [printFields, ih, List.map_cons]

lemma printElems_eq (xs : List Json) : printElems esc xs = xs.map (print esc) := by
  induction xs with
  | nil => rfl
  | cons x xs ih => rw [printElems, ih, List.map_cons]

/-- An object comes to its fields. -/
lemma size_obj {fields : List (String × Json)} (h : fields ≠ []) :
    (obj fields).size esc = 1 + (fields.map (fieldSize esc)).sum := by
  have hne : printFields esc fields ≠ [] := by
    rw [printFields_eq]
    simpa using h
  have hwidth := width_intercalate hne
  have hopen : '\x7b'.utf8Size = 1 := by decide
  have hclose : '\x7d'.utf8Size = 1 := by decide
  have hcolon : ':'.utf8Size = 1 := by decide
  have hsum : ((printFields esc fields).map fun l => width l + 1).sum =
      (fields.map (fieldSize esc)).sum := by
    rw [printFields_eq, List.map_map]
    congr 1
    refine List.map_congr_left fun f _ => ?_
    rw [Function.comp_apply, width_append, width_cons, hcolon, fieldSize, quotedSize, size]
    omega
  rw [size, print, width_cons, width_append, width_cons, width_nil, hopen, hclose, ← hsum,
    ← hwidth]

/-- An array comes to its elements. -/
lemma size_arr {xs : List Json} (h : xs ≠ []) :
    (arr xs).size esc = 1 + (xs.map fun x => x.size esc + 1).sum := by
  have hne : printElems esc xs ≠ [] := by
    rw [printElems_eq]
    simpa using h
  have hwidth := width_intercalate hne
  have hopen : '['.utf8Size = 1 := by decide
  have hclose : ']'.utf8Size = 1 := by decide
  have hsum : ((printElems esc xs).map fun l => width l + 1).sum =
      (xs.map fun x => x.size esc + 1).sum := by
    rw [printElems_eq, List.map_map]
    rfl
  rw [size, print, width_cons, width_append, width_cons, width_nil, hopen, hclose, ← hsum,
    ← hwidth]

/-- An optional field takes its share, or none. -/
lemma sum_optional (key : String) (x : Option Json) :
    ((optional key x).map (fieldSize esc)).sum =
      (x.map fun x => quotedSize esc key + 2 + x.size esc).getD 0 := by
  cases x with
  | none => rfl
  | some x => simp [optional, fieldSize]

lemma sum_optional_ite (key : String) (p : Prop) [Decidable p] (x : Json) :
    ((optional key (if p then none else some x)).map (fieldSize esc)).sum =
      if p then 0 else quotedSize esc key + 2 + x.size esc := by
  rw [sum_optional]
  split_ifs <;> rfl

end Sizes

end Json
