import Chaskiwasi.Lib.Base64
import Chaskiwasi.Mail.Folder

/-!
# The sync cursor

The device stores an opaque string and echoes it.  It encodes the pair (UIDVALIDITY, UID of the
last message accounted for): two big-endian 32-bit words, in unpadded URL-safe base64.

`decodeCursor` follows the decoder the server calls: carriage returns and newlines in the text
are passed over, the spare bits of the last group are not checked, and anything that does not
come to exactly eight bytes is reported as no cursor.  A malformed cursor is never an error;
`cursorBoundary` treats it, and one minted under another UIDVALIDITY, as no boundary at all.
-/

namespace Chaskiwasi

/-! ## The wire alphabet -/

def urlSymbols : List Char :=
  "ABCDEFGHIJKLMNOPQRSTUVWXYZabcdefghijklmnopqrstuvwxyz0123456789-_".toList

def urlSymbol (s : Fin 64) : Char :=
  urlSymbols.getD s 'A'

def urlValue (c : Char) : Option (Fin 64) :=
  (List.finRange 64).find? fun s => urlSymbol s = c

lemma urlValue_urlSymbol : ∀ s, urlValue (urlSymbol s) = some s := by
  decide +kernel

/-- `base64.RawURLEncoding`. -/
def rawURLEncoding : Base64.Alphabet where
  symbol := urlSymbol
  value := urlValue
  ignored := fun c => c = '\r' ∨ c = '\n'
  value_symbol := urlValue_urlSymbol
  not_ignored := by decide +kernel

/-! ## Big-endian words -/

def putUint32 (n : UID) : List (Fin 256) :=
  [⟨n / 16777216, by omega⟩, ⟨n / 65536 % 256, by omega⟩, ⟨n / 256 % 256, by omega⟩,
    ⟨n % 256, by omega⟩]

def uint32 (a b c d : Fin 256) : UID :=
  ⟨a * 16777216 + b * 65536 + c * 256 + d, by omega⟩

lemma uint32_putUint32 (n : UID) :
    uint32 ⟨n / 16777216, by omega⟩ ⟨n / 65536 % 256, by omega⟩ ⟨n / 256 % 256, by omega⟩
      ⟨n % 256, by omega⟩ = n :=
  Fin.ext (by simp only [uint32]; omega)

/-! ## The cursor -/

/-- Mints the opaque cursor: (uidvalidity, last accounted UID) and nothing else. -/
def encodeCursor (uidValidity lastUID : UID) : String :=
  String.ofList (rawURLEncoding.encode (putUint32 uidValidity ++ putUint32 lastUID))

/-- Parses a cursor minted by `encodeCursor`; `none` for the empty string and for anything
that does not decode to exactly eight bytes. -/
def decodeCursor (s : String) : Option (UID × UID) :=
  if s = "" then none
  else
    match rawURLEncoding.decode s.toList with
    | some [a, b, c, d, e, f, g, h] => some (uint32 a b c d, uint32 e f g h)
    | _ => none

/-- The UID up to which the device has everything, when the cursor decodes and names the
mailbox's current UIDVALIDITY; `none` for a window resync. -/
def cursorBoundary (cursor : String) (uidValidity : UID) : Option UID :=
  match decodeCursor cursor with
  | none => none
  | some (cv, cu) => if cv = uidValidity then some cu else none

lemma encodeCursor_ne_empty (uidValidity lastUID : UID) :
    encodeCursor uidValidity lastUID ≠ "" := by
  intro h
  have hnil := congrArg String.toList h
  simp [encodeCursor, Base64.Alphabet.encode, putUint32,
    Base64.sextets] at hnil

/-- A minted cursor parses back to the pair it was minted from. -/
theorem decodeCursor_encodeCursor (uidValidity lastUID : UID) :
    decodeCursor (encodeCursor uidValidity lastUID) = some (uidValidity, lastUID) := by
  rw [decodeCursor, if_neg (encodeCursor_ne_empty _ _), encodeCursor, String.toList_ofList,
    Base64.Alphabet.decode_encode]
  simp only [putUint32, List.cons_append, List.nil_append, uint32_putUint32]

/-- Under the UIDVALIDITY it was minted under, a minted cursor is a boundary at its own UID;
under any other it is none. -/
theorem cursorBoundary_encodeCursor (minted current lastUID : UID) :
    cursorBoundary (encodeCursor minted lastUID) current =
      if minted = current then some lastUID else none := by
  rw [cursorBoundary, decodeCursor_encodeCursor]

@[simp] lemma cursorBoundary_encodeCursor_self (uidValidity lastUID : UID) :
    cursorBoundary (encodeCursor uidValidity lastUID) uidValidity = some lastUID := by
  rw [cursorBoundary_encodeCursor, if_pos rfl]

@[simp] lemma cursorBoundary_empty (uidValidity : UID) : cursorBoundary "" uidValidity = none := by
  rw [cursorBoundary, decodeCursor, if_pos rfl]

end Chaskiwasi
