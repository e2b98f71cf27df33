import Chaskiwasi.Guardians.Session

/-!
# The forms of the guardian pages

A write carries two things besides the session's cookie: what the browser says of where it comes
from, and a token that the server put into the form when it rendered the page.  The token is a nonce
and a MAC over the session's guardian, its epoch and the nonce.  A guardian's name has no zero byte,
so the text that is signed names one guardian, one epoch and one nonce (`csrfText_injective`).
-/

namespace Chaskiwasi.Site

open Pututu (Bytes)
open Guardians

/-- `url.Parse`, as far as the host, and `strings.EqualFold`. -/
class Urls where
  host : String → Option String
  equalFold : String → String → Bool

inductive Method
  | get
  | head
  | post
  | other
  deriving DecidableEq, Repr

/-- `http.MethodGet` and `http.MethodHead` are the ones that write nothing. -/
def Method.safe : Method → Bool
  | .get | .head => true
  | .post | .other => false

/-- What a request carries.  An absent header is the empty text. -/
structure Request where
  method : Method
  path : String
  host : String := ""
  secFetchSite : String := ""
  origin : String := ""
  /-- The value of the session cookie. -/
  cookie : Option (List Char) := none
  /-- The fields of the form that is posted. -/
  form : List (String × String) := []
  bodySize : ℕ := 0
  deriving DecidableEq, Repr

def maxFormBytes : ℕ := 64 * 1024

/-- `PostFormValue`, behind the cap: a body over it has no fields. -/
def Request.postFormValue (r : Request) (key : String) : String :=
  if maxFormBytes < r.bodySize then ""
  else ((r.form.find? fun f => f.1 = key).map Prod.snd).getD ""

/-- The first of the two defenses. -/
def checkOrigin [Urls] (r : Request) : Bool :=
  if r.secFetchSite = "same-origin" ∨ r.secFetchSite = "none" then true
  else if r.secFetchSite = "same-site" ∨ r.secFetchSite = "cross-site" then false
  else if r.origin = "" then false
  else
    match Urls.host r.origin with
    | none => false
    | some host => host ≠ "" && Urls.equalFold host r.host

/-! ## The token -/

def csrfField : String := "csrf_token"

/-- `strings.Cut` at a dot. -/
def cut (token : List Char) : Option (List Char × List Char) :=
  if '.' ∈ token then
    some (token.takeWhile (· ≠ '.'), (token.dropWhile (· ≠ '.')).tail)
  else none

/-- The bytes of a nonce as it is written. -/
def nonceBytes (nonce : List Char) : Bytes := nonce.flatMap String.utf8EncodeChar

section Token

variable [Hmac] (cookieKey : Bytes)

def signCSRF (sess : Session) (nonce : List Char) : Bytes :=
  Guardians.Hmac.hmac cookieKey (csrfText sess.guardian sess.epoch (nonceBytes nonce))

/-- The token for a session, over a nonce that was drawn. -/
def issueCSRF (sess : Session) (nonce : Bytes) : List Char :=
  encodeBytes nonce ++ '.' :: encodeBytes (signCSRF cookieKey sess (encodeBytes nonce))

/-- The nonce of a token whose MAC verifies for the session. -/
def openCSRF (token : List Char) (sess : Session) : Option (List Char) :=
  match cut token with
  | none => none
  | some (nonce, mac) =>
      if decodeBytes mac = some (signCSRF cookieKey sess nonce) then some nonce else none

/-- The second defense: the form's own field, against the session. -/
def checkCSRF (r : Request) (sess : Session) : Bool :=
  (openCSRF cookieKey (r.postFormValue csrfField).toList sess).isSome

end Token

/-! ## What a token says -/

section Facts

variable {g g' n n' : Bytes} {e e' : ℤ}

/-- Two texts that are cut at the first of a mark are the same before it and after it. -/
lemma eq_of_append_cons_eq {α : Type*} {x : α} {a a' b b' : List α} (ha : x ∉ a) (ha' : x ∉ a')
    (h : a ++ x :: b = a' ++ x :: b') : a = a' ∧ b = b' := by
  induction a generalizing a' with
  | nil =>
      cases a' with
      | nil => exact ⟨rfl, (List.cons.inj h).2⟩
      | cons y a' => exact absurd (List.cons.inj h).1 (List.ne_of_not_mem_cons ha')
  | cons y a ih =>
      cases a' with
      | nil => exact absurd (List.cons.inj h).1.symm (List.ne_of_not_mem_cons ha)
      | cons y' a' =>
          obtain ⟨rfl, hrest⟩ := List.cons.inj h
          obtain ⟨rfl, rfl⟩ :=
            ih (List.not_mem_of_not_mem_cons ha) (List.not_mem_of_not_mem_cons ha') hrest
          exact ⟨rfl, rfl⟩

/-- Of guardians whose names have no zero byte, a signed text has one guardian, one epoch and one
nonce. -/
lemma csrfText_injective (hg : 0 ∉ g) (hg' : 0 ∉ g') (h : csrfText g e n = csrfText g' e' n') :
    g = g' ∧ e = e' ∧ n = n' := by
  unfold csrfText at h
  simp only [List.append_assoc, List.cons_append] at h
  have hfields := (List.cons.inj (List.append_cancel_left h)).2
  obtain ⟨hname, hrest⟩ := eq_of_append_cons_eq hg hg' hfields
  obtain ⟨hepoch, hnonce⟩ :=
    eq_of_append_cons_eq (zero_not_mem_formatInt e) (zero_not_mem_formatInt e') hrest
  exact ⟨hname, formatInt_injective hepoch, hnonce⟩

lemma dot_not_mem_encodeBytes (b : Bytes) : '.' ∉ encodeBytes b := by
  intro h
  obtain ⟨s, -, hdot⟩ := List.mem_map.1 h
  have hnone : ∀ s, urlSymbol s ≠ '.' := by decide +kernel
  exact hnone s hdot

lemma decodeBytes_encodeBytes (b : Bytes) : decodeBytes (encodeBytes b) = some b := by
  unfold decodeBytes encodeBytes
  rw [Base64.Alphabet.decode_encode, Option.map_some, List.map_map]
  exact congrArg some (List.map_id'' (fun _ => rfl) b)

lemma cut_append {nonce mac : List Char} (h : '.' ∉ nonce) :
    cut (nonce ++ '.' :: mac) = some (nonce, mac) := by
  have hall : ∀ c ∈ nonce, (decide (c ≠ '.')) = true := by
    intro c hc
    rw [decide_eq_true_eq]
    rintro rfl
    exact h hc
  have hmem : '.' ∈ nonce ++ '.' :: mac := List.mem_append_right _ List.mem_cons_self
  unfold cut
  rw [if_pos hmem, List.takeWhile_append_of_pos hall, List.dropWhile_append_of_pos hall]
  simp

variable [Hmac] (cookieKey : Bytes)

/-- A token that was put into a page opens for the session that it was put there for. -/
theorem openCSRF_issueCSRF (sess : Session) (nonce : Bytes) :
    openCSRF cookieKey (issueCSRF cookieKey sess nonce) sess = some (encodeBytes nonce) := by
  unfold openCSRF issueCSRF
  rw [cut_append (dot_not_mem_encodeBytes nonce)]
  simp only
  rw [if_pos (decodeBytes_encodeBytes _)]

end Facts
end Chaskiwasi.Site
