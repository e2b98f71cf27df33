import Chaskiwasi.Ayllu.Address
import Chaskiwasi.Lib.Keyed
import Mathlib.Data.String.Basic

/-!
# The ayllu: the contact table and the two resolutions

A removed contact stays in the table as a tombstone, with its address, because the row is the
rendering key of every letter that person ever sent; an address that is replaced stays on the
row among the past ones, for the same reason.  `Table` holds the rows in the order in which
resolution walks them, ascending id, and carries what the store's own map enforces even of a
file that was edited by hand: one row an id, and no row under the reserved system id.  That no
address is empty only the store's own writes guarantee, so it is a predicate of its own,
`Table.Addressed`.

Resolution comes in two strengths.  `resolve` consults the full table, tombstones and past
addresses included, and serves read-time derivation; `resolveActive` consults active rows under
their current address only, and serves filing and sending.  Both answer the system address with
the system contact before they consult any row.
-/

namespace Chaskiwasi

structure Contact where
  id : String
  name : String
  address : String
  pastAddresses : List String := []
  /-- False is a tombstone. -/
  active : Bool
  pinned : Bool := false
  order : ℤ := 0
  portrait : String := ""
  deriving DecidableEq, Repr

/-- The synthetic identity behind the system address. -/
def sysContact : Contact where
  id := sysContactID
  name := systemName
  address := systemAddress
  active := true

/-- No address of the row, current or past, is empty. -/
def Contact.Addressed (c : Contact) : Prop :=
  c.address ≠ "" ∧ ∀ past ∈ c.pastAddresses, past ≠ ""

structure Table where
  version : ℕ
  contacts : List Contact
  sorted : Keyed.Ascending Contact.id contacts
  no_sys : ∀ c ∈ contacts, c.id ≠ sysContactID

def Table.empty (version : ℕ) : Table where
  version := version
  contacts := []
  sorted := List.Pairwise.nil
  no_sys := by simp

/-- No row has an empty address. -/
def Table.Addressed (t : Table) : Prop :=
  ∀ c ∈ t.contacts, c.Addressed

section Resolution

variable [Runes]

/-- Whether (already normalised) `norm` is one of this contact's retained former addresses. -/
def Contact.hasPastAddress (c : Contact) (norm : String) : Bool :=
  c.pastAddresses.any fun past => normalizeAddress past = norm

/-- Whether a row answers to a normalised address: under its current address only, and only
when active, for `activeOnly`; under its current or a past address otherwise. -/
def Contact.answers (c : Contact) (norm : String) (activeOnly : Bool) : Bool :=
  if activeOnly then c.active && normalizeAddress c.address = norm
  else normalizeAddress c.address = norm || c.hasPastAddress norm

namespace Table

def resolveLocked (t : Table) (addr : String) (activeOnly : Bool) : Option Contact :=
  if IsSystem addr then some sysContact
  else t.contacts.find? fun c => c.answers (normalizeAddress addr) activeOnly

/-- Matches an address against the full table. -/
def resolve (t : Table) (addr : String) : Option Contact :=
  t.resolveLocked addr false

/-- Matches an address against active contacts only. -/
def resolveActive (t : Table) (addr : String) : Option Contact :=
  t.resolveLocked addr true

end Table
end Resolution

/-- Looks up a contact id against the full table. -/
def Table.byID (t : Table) (id : String) : Option Contact :=
  if id = sysContactID then some sysContact else t.contacts.find? fun c => c.id = id

/-! ## What a resolution says -/

namespace Table

variable [Runes] {t : Table} {addr : String} {c : Contact} {activeOnly : Bool}

lemma resolveLocked_of_isSystem (h : IsSystem addr) :
    t.resolveLocked addr activeOnly = some sysContact := by
  rw [resolveLocked, if_pos h]

lemma mem_of_resolveLocked (hsys : ¬ IsSystem addr) (h : t.resolveLocked addr activeOnly = some c) :
    c ∈ t.contacts ∧ c.answers (normalizeAddress addr) activeOnly = true := by
  rw [resolveLocked, if_neg hsys] at h
  have hans := List.find?_some h
  exact ⟨List.mem_of_find?_eq_some h, by simpa using hans⟩

/-- Only the system address resolves to the system contact. -/
lemma isSystem_of_resolveLocked (h : t.resolveLocked addr activeOnly = some c)
    (hid : c.id = sysContactID) : IsSystem addr := by
  by_contra hsys
  exact t.no_sys c (mem_of_resolveLocked hsys h).1 hid

lemma resolve_isSome_iff :
    (t.resolve addr).isSome ↔
      IsSystem addr ∨ ∃ c ∈ t.contacts, c.answers (normalizeAddress addr) false = true := by
  rw [resolve, resolveLocked]
  by_cases hsys : IsSystem addr
  · simp [hsys]
  · simp [hsys, List.find?_isSome]

end Table

/-! ## A sample table -/

namespace Sample

def noContacts : Table where
  version := 0
  contacts := []
  sorted := List.Pairwise.nil
  no_sys := by simp

/-- One contact. -/
def rosa (active : Bool) : Contact where
  id := "c_01"
  name := "Rosa"
  address := "rosa@x"
  active := active

def onlyRosa (active : Bool) : Table where
  version := 1
  contacts := [rosa active]
  sorted := List.pairwise_singleton _ _
  no_sys := by cases active <;> decide

end Sample
end Chaskiwasi
