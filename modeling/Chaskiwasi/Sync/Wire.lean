import Mathlib.Data.Int.Notation
import Mathlib.Data.Nat.Notation
import Mathlib.Tactic.Common

/-!
# What crosses the wire

The types of the sync response that more than one side of the exchange handles: letters, acks,
the device's view of the contact list and the pushed settings.
-/

namespace Chaskiwasi

/-- One inbound letter, derived at read time and never persisted by the server. -/
structure Letter where
  /-- Stable across UIDVALIDITY resets and window resyncs. -/
  id : String
  contactID : String
  subject : String
  date : ℤ
  body : String
  trimmed : Bool := false
  truncated : Bool := false
  degraded : Bool := false
  deriving DecidableEq, Repr

/-- The outcome of one outbound letter.  All statuses are terminal. -/
inductive AckStatus
  | sent
  | rejectedInactive
  | rejectedUnknownContact
  | invalid
  | rejectedUndeliverable
  deriving DecidableEq, Repr

/-- The terminal outcome for one outbound local id. -/
structure Ack where
  localID : String
  status : AckStatus
  deriving DecidableEq, Repr

/-- One contact as the device sees it. -/
structure AylluContact where
  id : String
  name : String
  active : Bool
  pinned : Bool := false
  order : ℤ := 0
  portrait : String := ""
  deriving DecidableEq, Repr

/-- The device's view of the contact list. -/
structure Ayllu where
  version : ℕ
  contacts : List AylluContact
  deriving DecidableEq, Repr

/-- The pushed settings block. -/
structure DeviceConfig where
  maxLetterChars : ℤ
  syncIntervalS : ℤ
  rat : String := ""
  cover : String := ""
  deriving DecidableEq, Repr

end Chaskiwasi
