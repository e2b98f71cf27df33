import Chaskiwasi.Sync.Codec

/-!
# Reading one outbound letter

The server reads each letter of a request as Go reads an object into a struct: the fields in their
order, the last of a name wins, a null changes nothing, and a name is known in any case of its
letters.  A field that is known and has another type than text is an error, and so is a letter
without a local id.  A field that is not known is kept in mind.

`decodeOutbound_isSome_iff` says which letters are read.  Where each name stands once and as it is
written in the struct, this is the reader of `Codec` (`decodeOutbound_eq`).
-/

namespace Chaskiwasi.Outbound.Letter

/-! ## Names -/

/-- The smallest character that differs in its case only, as far as an ASCII letter is among
them. -/
def foldRune (c : Char) : Char :=
  if 'a' ≤ c ∧ c ≤ 'z' then Char.ofNat (c.toNat - 32)
  else if c = 'ſ' then 'S'
  else if c = '\u212A' then 'K'
  else c

/-- `foldName`. -/
def foldName (name : String) : List Char := name.toList.map foldRune

/-- The fields of `protocol.Outbound`. -/
inductive Field
  | localID
  | contactID
  | subject
  | body
  deriving DecidableEq, Repr

namespace Field

def all : List Field := [localID, contactID, subject, body]

def name : Field → String
  | localID => "local_id"
  | contactID => "contact_id"
  | subject => "subject"
  | body => "body"

def set (f : Field) (s : String) (o : Chaskiwasi.Outbound) : Chaskiwasi.Outbound :=
  match f with
  | localID => { o with localID := s }
  | contactID => { o with contactID := s }
  | subject => { o with subject := s }
  | body => { o with body := s }

def get (f : Field) (o : Chaskiwasi.Outbound) : String :=
  match f with
  | localID => o.localID
  | contactID => o.contactID
  | subject => o.subject
  | body => o.body

lemma get_set (f g : Field) (s : String) (o : Chaskiwasi.Outbound) :
    g.get (f.set s o) = if f = g then s else g.get o := by
  cases f <;> cases g <;> rfl

end Field

/-- The field that a name stands for.  No two names of the struct fold to the same, so that there
is no difference between a name as it is and one that folds to it. -/
def fieldOf (name : String) : Option Field :=
  Field.all.find? fun f => foldName f.name = foldName name

/-! ## Fields -/

/-- A letter that is being read, and what went wrong. -/
structure Decoding where
  letter : Chaskiwasi.Outbound := ⟨"", "", "", ""⟩
  typeError : Bool := false
  unknownField : Bool := false

def decodeField (d : Decoding) (field : String × Json) : Decoding :=
  match fieldOf field.1 with
  | none => { d with unknownField := true }
  | some f =>
      match field.2 with
      | .null => d
      | .str s => { d with letter := f.set s d.letter }
      | _ => { d with typeError := true }

def decodeFields (fields : List (String × Json)) : Decoding := fields.foldl decodeField {}

/-- `decodeOutbound`.  The second, strict reading fails where a field is not known. -/
def decodeOutbound (raw : Json) : Option OutboundItem :=
  match raw with
  | .obj fields =>
      let d := decodeFields fields
      if d.typeError then none
      else if d.letter.localID = "" then none
      else some { letter := d.letter, unknownFields := d.unknownField }
  | _ => none

/-! ## What is read -/

/-- Text, or null. -/
def isText : Json → Bool
  | .null | .str _ => true
  | _ => false

/-- Every field that is known is text or null. -/
def Typed (fields : List (String × Json)) : Prop :=
  ∀ field ∈ fields, (fieldOf field.1).isSome = true → isText field.2 = true

/-- The texts of a field, in their order. -/
def texts (f : Field) (fields : List (String × Json)) : List String :=
  fields.filterMap fun field =>
    if fieldOf field.1 = some f then
      match field.2 with
      | .str s => some s
      | _ => none
    else none

/-- The last text of a field. -/
def lastText (f : Field) (fields : List (String × Json)) : String :=
  ((texts f fields).getLast?).getD ""

/-- The local id of a letter. -/
def idOf : Json → String
  | .obj fields => lastText .localID fields
  | _ => ""

/-- A letter whose known fields are text, and whose last local id is not empty. -/
def Readable : Json → Prop
  | .obj fields => Typed fields ∧ lastText .localID fields ≠ ""
  | _ => False

section Decode

variable {d : Decoding} {fields : List (String × Json)} {field : String × Json} {raw : Json}
  {item : OutboundItem}

lemma unknownField_decodeField :
    (decodeField d field).unknownField = (d.unknownField || (fieldOf field.1).isNone) := by
  unfold decodeField
  cases hf : fieldOf field.1 with
  | none => simp
  | some f => cases hvalue : field.2 <;> simp

lemma unknownField_foldl :
    (fields.foldl decodeField d).unknownField =
      (d.unknownField || fields.any fun field => (fieldOf field.1).isNone) := by
  induction fields generalizing d with
  | nil => simp
  | cons field fields ih =>
      rw [List.foldl_cons, ih, unknownField_decodeField, List.any_cons, Bool.or_assoc]

lemma typeError_decodeField :
    (decodeField d field).typeError =
      (d.typeError || ((fieldOf field.1).isSome && !isText field.2)) := by
  unfold decodeField
  cases hf : fieldOf field.1 with
  | none => simp
  | some f => cases hvalue : field.2 <;> simp [isText]

lemma typeError_foldl :
    (fields.foldl decodeField d).typeError =
      (d.typeError || fields.any fun field => (fieldOf field.1).isSome && !isText field.2) := by
  induction fields generalizing d with
  | nil => simp
  | cons field fields ih =>
      rw [List.foldl_cons, ih, typeError_decodeField, List.any_cons, Bool.or_assoc]

lemma typeError_decodeFields : (decodeFields fields).typeError = false ↔ Typed fields := by
  rw [decodeFields, typeError_foldl]
  simp [Typed]

lemma get_decodeField (g : Field) :
    g.get (decodeField d field).letter =
      ((texts g [field]).getLast?).getD (g.get d.letter) := by
  unfold decodeField texts
  cases hf : fieldOf field.1 with
  | none => simp [hf]
  | some f =>
      cases hvalue : field.2 with
      | str s =>
          by_cases hfg : f = g
          · subst hfg
            simp [hf, hvalue, Field.get_set]
          · simp [hf, hfg, Field.get_set]
      | _ => simp [hf, hvalue]

lemma get_foldl (g : Field) :
    g.get (fields.foldl decodeField d).letter =
      ((texts g fields).getLast?).getD (g.get d.letter) := by
  induction fields generalizing d with
  | nil => rfl
  | cons field fields ih =>
      have hsplit : texts g (field :: fields) = texts g [field] ++ texts g fields := by
        rw [texts, texts, texts, ← List.filterMap_append]
        rfl
      rw [List.foldl_cons, ih, get_decodeField, hsplit, List.getLast?_append]
      cases (texts g fields).getLast? with
      | none => rfl
      | some s => rfl

lemma get_decodeFields (g : Field) :
    g.get (decodeFields fields).letter = lastText g fields := by
  rw [decodeFields, get_foldl, lastText]
  cases g <;> rfl

/-- Which letters are read. -/
theorem decodeOutbound_isSome_iff : (decodeOutbound raw).isSome = true ↔ Readable raw := by
  cases raw with
  | obj fields =>
      have hid : (decodeFields fields).letter.localID = lastText .localID fields :=
        get_decodeFields .localID
      rw [decodeOutbound, Readable, ← typeError_decodeFields, ← hid]
      cases htype : (decodeFields fields).typeError with
      | true => simp
      | false =>
          by_cases hempty : (decodeFields fields).letter.localID = ""
          · simp [hempty]
          · simp [hempty]
  | _ => simp [decodeOutbound, Readable]

lemma localID_of_decodeOutbound (h : decodeOutbound raw = some item) :
    item.letter.localID = idOf raw ∧ item.letter.localID ≠ "" := by
  cases raw with
  | obj fields =>
      have hid : (decodeFields fields).letter.localID = lastText .localID fields :=
        get_decodeFields .localID
      rw [decodeOutbound] at h
      split_ifs at h with htype hempty
      obtain rfl := Option.some.inj h
      exact ⟨hid, hempty⟩
  | _ => cases h

/-! ## Names as they are written -/

lemma fieldOf_name (f : Field) : fieldOf f.name = some f := by
  cases f <;> decide

/-- Each known name is written as in the struct, and no name stands twice. -/
structure Plain (fields : List (String × Json)) : Prop where
  exact : ∀ field ∈ fields, ∀ f, fieldOf field.1 = some f → field.1 = f.name
  once : (fields.map Prod.fst).Nodup

lemma Plain.tail (h : Plain (field :: fields)) : Plain fields where
  exact := fun g hg => h.exact g (List.mem_cons_of_mem _ hg)
  once := (List.nodup_cons.1 h.once).2

lemma Plain.goString_get? (h : Plain fields) (f : Field) :
    Codec.goString ((Json.obj fields).get? f.name) =
      if ∀ field ∈ fields, fieldOf field.1 = some f → isText field.2 = true then
        some (lastText f fields)
      else none := by
  induction fields with
  | nil => rfl
  | cons field fields ih =>
      obtain ⟨name, value⟩ := field
      rw [Json.get?_cons]
      by_cases hname : name = f.name
      · -- No other field has the name.
        have hothers : ∀ g ∈ fields, fieldOf g.1 ≠ some f := by
          intro g hg hfield
          refine (List.nodup_cons.1 h.once).1 (List.mem_map.2 ⟨g, hg, ?_⟩)
          rw [h.tail.exact g hg f hfield]
          exact hname.symm
        have hrest : texts f fields = [] := by
          rw [texts, List.filterMap_eq_nil_iff]
          intro g hg
          rw [if_neg (hothers g hg)]
        have hfield : fieldOf name = some f := by rw [hname, fieldOf_name]
        have hall : (∀ g ∈ (name, value) :: fields, fieldOf g.1 = some f → isText g.2 = true) ↔
            isText value = true := by
          rw [List.forall_mem_cons]
          exact ⟨fun hg => hg.1 hfield, fun hv => ⟨fun _ => hv,
            fun g hg hsome => absurd hsome (hothers g hg)⟩⟩
        rw [texts] at hrest
        rw [if_pos hname, if_congr hall rfl rfl, lastText, texts, List.filterMap_cons,
          if_pos hfield, hrest]
        cases value <;> rfl
      · have hfield : fieldOf name ≠ some f := fun hsome =>
          hname (h.exact (name, value) List.mem_cons_self f hsome)
        have hall : (∀ g ∈ (name, value) :: fields, fieldOf g.1 = some f → isText g.2 = true) ↔
            ∀ g ∈ fields, fieldOf g.1 = some f → isText g.2 = true := by
          rw [List.forall_mem_cons]
          exact ⟨fun hg => hg.2, fun hg => ⟨fun hsome => absurd hsome hfield, hg⟩⟩
        have htexts : texts f ((name, value) :: fields) = texts f fields := by
          rw [texts, List.filterMap_cons, if_neg hfield, texts]
        rw [if_neg hname, ih h.tail, if_congr hall rfl rfl, lastText, lastText, htexts]

lemma Plain.unknownField (h : Plain fields) :
    (fields.any fun field => (fieldOf field.1).isNone) =
      fields.any fun field => ¬ field.1 ∈ ["local_id", "contact_id", "subject", "body"] := by
  rw [Bool.eq_iff_iff, List.any_eq_true, List.any_eq_true]
  have hname : ∀ field ∈ fields, (fieldOf field.1).isNone = true ↔
      field.1 ∉ ["local_id", "contact_id", "subject", "body"] := by
    intro field hmem
    constructor
    · intro hnone hin
      obtain ⟨f, hf⟩ : ∃ f : Field, field.1 = f.name := by
        simp only [List.mem_cons, List.not_mem_nil, or_false] at hin
        rcases hin with hin | hin | hin | hin
        · exact ⟨.localID, hin⟩
        · exact ⟨.contactID, hin⟩
        · exact ⟨.subject, hin⟩
        · exact ⟨.body, hin⟩
      rw [hf, fieldOf_name] at hnone
      cases hnone
    · intro hout
      cases hfield : fieldOf field.1 with
      | none => rfl
      | some f =>
          refine absurd ?_ hout
          rw [h.exact field hmem f hfield]
          cases f <;> simp [Field.name]
  constructor
  · rintro ⟨field, hmem, hnone⟩
    exact ⟨field, hmem, decide_eq_true ((hname field hmem).1 hnone)⟩
  · rintro ⟨field, hmem, hout⟩
    exact ⟨field, hmem, (hname field hmem).2 (of_decide_eq_true hout)⟩

/-- Where names are written so, the reader is the one of `Codec`. -/
theorem decodeOutbound_eq (h : Plain fields) :
    decodeOutbound (.obj fields) = Codec.decodeOutbound (.obj fields) := by
  by_cases htyped : Typed fields
  · have htext : ∀ f : Field, Codec.goString ((Json.obj fields).get? f.name) =
        some (f.get (decodeFields fields).letter) := by
      intro f
      rw [h.goString_get?, get_decodeFields, if_pos]
      intro field hmem hsome
      exact htyped field hmem (by rw [hsome]; rfl)
    have hlocal := htext .localID
    have hcontact := htext .contactID
    have hsubject := htext .subject
    have hbody := htext .body
    have hunknown : (decodeFields fields).unknownField =
        fields.any fun field => ¬ field.1 ∈ ["local_id", "contact_id", "subject", "body"] := by
      rw [← h.unknownField, decodeFields, unknownField_foldl, Bool.false_or]
    simp only [Field.name, Field.get] at hlocal hcontact hsubject hbody
    simp only [decodeOutbound, Codec.decodeOutbound, typeError_decodeFields.2 htyped, hlocal,
      hcontact, hsubject, hbody, hunknown, Option.bind_eq_bind, Option.bind_some,
      Bool.false_eq_true, if_false]
  · have hnot := mt typeError_decodeFields.1 htyped
    obtain ⟨f, hnone⟩ : ∃ f : Field, Codec.goString ((Json.obj fields).get? f.name) = none := by
      by_contra hsome
      refine htyped fun field hmem hknown => ?_
      obtain ⟨f, hf⟩ := Option.isSome_iff_exists.1 hknown
      by_contra htext
      refine hsome ⟨f, ?_⟩
      rw [h.goString_get?, if_neg]
      exact fun hall => htext (hall field hmem hf)
    have hcodec : Codec.decodeOutbound (.obj fields) = none := by
      cases f <;> simp only [Field.name] at hnone <;>
        simp [Codec.decodeOutbound, hnone]
    rw [hcodec, decodeOutbound]
    simp only [eq_true_of_ne_false hnot, if_true]

end Decode

end Chaskiwasi.Outbound.Letter
