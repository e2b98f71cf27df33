import Chaskiwasi.Ayllu.Address
import Chaskiwasi.Device.Outbox

/-!
# What else the device keeps

The stores behind the screens, besides the outbox: the one draft slot, the letters, the contact list
with the child's own decoration over it, and the settings.  Every write goes to a file that is
replaced as a whole, and what a store holds in memory follows only where the write returned true.
-/

namespace Chaskiwasi.Device

/-! ## The draft slot -/

structure Draft where
  contactID : String := ""
  subject : String := ""
  body : String := ""
  updatedAt : ℤ := 0
  deriving DecidableEq, Repr

/-- There is something the child wrote. -/
def Draft.usable (d : Draft) : Bool := ¬ (d.body = "" ∧ d.subject = "")

inductive StartOutcome
  | started
  | draftPending
  | writeFailed
  deriving DecidableEq, Repr

structure DraftStore where
  /-- The file `draft`. -/
  slot : Option Draft := none
  /-- In memory. -/
  pending : Bool := false
  deriving DecidableEq, Repr

namespace DraftStore

def load (s : DraftStore) : Option Draft := s.slot.filter Draft.usable

/-- What a boot makes of the file. -/
def opened (s : DraftStore) : DraftStore := { s with pending := s.load.isSome }

/-- Replaces the slot, whatever is in it. -/
def save (s : DraftStore) (d : Draft) (o : WriteOutcome) : DraftStore × Bool :=
  ({ slot := if o.written then some d else s.slot
     pending := if o.ok then d.usable else s.pending }, o.ok)

/-- Refuses to overwrite a pending draft. -/
def start (s : DraftStore) (d : Draft) (o : WriteOutcome) : DraftStore × StartOutcome :=
  if s.pending then (s, .draftPending)
  else
    match s.save d o with
    | (s', true) => (s', .started)
    | (s', false) => (s', .writeFailed)

/-- Clears the slot; one that was never written is clear already. -/
def discard (s : DraftStore) (o : WriteOutcome) : DraftStore × Bool :=
  if s.slot = none then ({ s with pending := false }, true)
  else if o.ok then ({ slot := none, pending := false }, true)
  else ({ s with slot := if o.written then none else s.slot }, false)

end DraftStore

/-! ## The letters -/

structure StoredLetter where
  letter : Letter
  unread : Bool := true
  deriving DecidableEq, Repr

/-- The letters on flash, newest first. -/
structure LetterStore where
  letters : List StoredLetter := []
  deriving DecidableEq, Repr

namespace LetterStore

def listNewestFirst (s : LetterStore) (limit : ℕ) : List StoredLetter := s.letters.take limit

/-- Rewrites one letter's file as read. -/
def markRead (s : LetterStore) (id : String) (o : WriteOutcome) : LetterStore :=
  if o.written then
    { s with
      letters := s.letters.map fun l => if l.letter.id = id then { l with unread := false } else l }
  else s

end LetterStore

/-! ## The contacts -/

/-- The child's decoration of one contact; an unset field means the server's value. -/
structure Overlay where
  nickname : Option String := none
  pinned : Option Bool := none
  order : Option ℤ := none
  portrait : Option String := none
  deriving DecidableEq, Repr

/-- A contact with its decoration. -/
structure MergedContact where
  id : String
  name : String
  serverName : String
  active : Bool
  pinned : Bool
  order : ℤ
  portrait : String
  deriving DecidableEq, Repr

structure ContactStore where
  snapshot : Ayllu
  overlays : List (String × Overlay) := []
  /-- The file `ayllu_overlay`. -/
  overlayFile : List (String × Overlay) := []
  deriving DecidableEq, Repr

namespace ContactStore

def overlayFor (s : ContactStore) (id : String) : Option Overlay :=
  (s.overlays.find? fun row => row.1 = id).map Prod.snd

def merge (s : ContactStore) (c : AylluContact) : MergedContact :=
  let o := (s.overlayFor c.id).getD {}
  { id := c.id
    serverName := c.name
    name := ((o.nickname).filter fun n => n ≠ "").getD c.name
    active := c.active
    pinned := o.pinned.getD c.pinned
    order := o.order.getD c.order
    portrait := o.portrait.getD c.portrait }

/-- Resolves a contact id; one that is not known comes back as the id and nothing else. -/
def lookup (s : ContactStore) (id : String) : MergedContact × Bool :=
  match s.snapshot.contacts.find? fun c => c.id = id with
  | some c => (s.merge c, true)
  | none =>
      ({ id, name := "", serverName := "", active := false, pinned := false, order := 0,
         portrait := "" }, false)

/-- Pinned first, then the child's order, then the name; ties break on the id. -/
def childOrder (a b : MergedContact) : Bool :=
  if a.pinned ≠ b.pinned then a.pinned
  else if a.order ≠ b.order then a.order < b.order
  else if a.name ≠ b.name then a.name < b.name
  else a.id < b.id

/-- The order the lists are sorted by. -/
def sortedList (cs : List MergedContact) : List MergedContact :=
  cs.insertionSort fun a b => ¬ childOrder b a

/-- Every known contact, tombstones included. -/
def merged (s : ContactStore) : List MergedContact :=
  sortedList (s.snapshot.contacts.map s.merge)

/-- The contacts the child may write to. -/
def composable (s : ContactStore) : List MergedContact :=
  sortedList ((s.snapshot.contacts.filter fun c => c.active && c.id ≠ sysContactID).map s.merge)

/-- Replaces or adds one contact's decoration, and takes it back where the write fails. -/
def setOverlay (s : ContactStore) (id : String) (overlay : Overlay) (o : WriteOutcome) :
    ContactStore :=
  if id = "" then s
  else
    let rows :=
      if s.overlays.any fun row => row.1 = id then
        s.overlays.replaceF fun row => if row.1 = id then some (id, overlay) else none
      else s.overlays ++ [(id, overlay)]
    { s with
      overlays := if o.ok then rows else s.overlays
      overlayFile := if o.written then rows else s.overlayFile }

end ContactStore

/-! ## The settings -/

/-- The settings the screens read. -/
structure Settings where
  fontStep : ℤ := 0
  frontlightStep : ℤ := 0
  maxLetterChars : ℤ := 500
  pinEnabled : Bool := false
  deriving DecidableEq, Repr

namespace Settings

def fontStepCount : ℤ := 2

/-- The bounds the device puts on what it acts on. -/
def sanitise (s : Settings) : Settings :=
  { s with
    maxLetterChars := if s.maxLetterChars ≤ 0 then 500 else s.maxLetterChars
    fontStep := min (max s.fontStep 0) (fontStepCount - 1)
    frontlightStep := max s.frontlightStep 0 }

def commit (s next : Settings) (o : WriteOutcome) : Settings := if o.ok then next.sanitise else s

def setFontStep (s : Settings) (step : ℤ) (o : WriteOutcome) : Settings :=
  s.commit { s with fontStep := step } o

def setFrontlightStep (s : Settings) (step : ℤ) (o : WriteOutcome) : Settings :=
  s.commit { s with frontlightStep := step } o

end Settings
end Chaskiwasi.Device
