import Chaskiwasi.Ayllu.Table

/-!
# Changing the contact table

`mutate` is `FileStore.Mutate`: refuse anything aimed at the system contact, work out the one row
the change touches, write the table, append the change log.  A failed write of the table rolls
the change back; a failed append of the log reports an error although the change stands.  What
the disk and the random source answer is given by `MutateIO`.

A change writes a `Row`, a contact that is not the system contact, so that every table a run of
changes reaches is again a `Table`.

The result the rest of the development uses is `mutate_grows`: rows are never removed and an
address a row answers to is never taken from it, so what resolved against the full table once
resolves after every later change.  It is a result about tables without empty addresses, since
an empty one is what `retainPast` drops.
-/

namespace Chaskiwasi

inductive Action
  | add
  | deactivate
  | reactivate
  | readdress
  | cosmetic
  deriving DecidableEq, Repr

/-- A requested change. -/
structure Mutation where
  action : Action
  /-- Empty on add: the store assigns or reuses one. -/
  contactID : String := ""
  name : String := ""
  address : String := ""
  pinned : Bool := false
  order : ℤ := 0
  portrait : String := ""
  deriving DecidableEq, Repr

/-- What a mutation produced. -/
structure Event where
  time : ℤ
  actor : String
  action : Action
  contactID : String
  name : String
  oldAddress : String
  newAddress : String
  version : ℕ
  deriving DecidableEq, Repr

inductive MutateError
  | unknownContact
  | maxContacts
  | systemContact
  | addRequiresAddress
  | readdressRequiresAddress
  | readdressToSameAddress
  | randomSource
  | couldNotMint
  | persisting
  | appendingLog
  deriving DecidableEq, Repr

/-- What the world outside answers while a mutation runs: the time, the ids drawn (`none` where
the random source fails), and whether the two writes succeed. -/
structure MutateIO where
  now : ℤ := 0
  drawn : List (Option String) := []
  persisted : Bool := true
  logged : Bool := true
  deriving DecidableEq, Repr

/-- A contact that may stand in a table. -/
structure Row where
  contact : Contact
  not_sys : contact.id ≠ sysContactID

namespace Table

/-- The table with a row written under its id, and the version bumped. -/
def commit (t : Table) (r : Row) : Table where
  version := t.version + 1
  contacts := Keyed.put Contact.id r.contact t.contacts
  sorted := t.sorted.put r.contact
  no_sys := by
    intro c hc
    rcases Keyed.mem_of_mem_put hc with rfl | hc
    · exact r.not_sys
    · exact t.no_sys c hc

/-- The row under an id. -/
def row? (t : Table) (id : String) : Option Row :=
  t.contacts.attach.findSome? fun c =>
    if c.1.id = id then some ⟨c.1, t.no_sys _ c.2⟩ else none

end Table

section Mutations

variable [Runes]

def retainPastGo (seen : List String) : List String → List String
  | [] => []
  | a :: as =>
      if a = "" ∨ normalizeAddress a ∈ seen then retainPastGo seen as
      else a :: retainPastGo (normalizeAddress a :: seen) as

/-- The history with `old` recorded and `newAddr` dropped, each address once. -/
def retainPast (past : List String) (old newAddr : String) : List String :=
  retainPastGo [normalizeAddress newAddr] (past ++ [old])

lemma ne_empty_of_mem_retainPastGo {seen as : List String} {b : String}
    (h : b ∈ retainPastGo seen as) : b ≠ "" := by
  induction as generalizing seen with
  | nil => cases h
  | cons a as ih =>
      rw [retainPastGo] at h
      split_ifs at h with hdrop
      · exact ih h
      · rcases List.mem_cons.1 h with rfl | h
        · exact fun hb => hdrop (Or.inl hb)
        · exact ih h

/-- A nonempty address that goes in is retained, under its normal form, unless that form was
already seen. -/
lemma retainPastGo_retains (seen : List String) {as : List String} {a : String} (ha : a ∈ as)
    (hne : a ≠ "") :
    normalizeAddress a ∈ seen ∨
      ∃ b ∈ retainPastGo seen as, normalizeAddress b = normalizeAddress a := by
  induction as generalizing seen with
  | nil => cases ha
  | cons x as ih =>
      rw [retainPastGo]
      split_ifs with hdrop
      · rcases List.mem_cons.1 ha with rfl | ha
        · exact Or.inl (hdrop.resolve_left hne)
        · exact ih seen ha
      · rcases List.mem_cons.1 ha with rfl | ha
        · exact Or.inr ⟨a, List.mem_cons_self .., rfl⟩
        · rcases ih (normalizeAddress x :: seen) ha with hseen | ⟨b, hb, heq⟩
          · rcases List.mem_cons.1 hseen with hx | hseen
            · exact Or.inr ⟨x, List.mem_cons_self .., hx.symm⟩
            · exact Or.inl hseen
          · exact Or.inr ⟨b, List.mem_cons_of_mem _ hb, heq⟩

/-- Moves a contact to another address, retaining the one it had. -/
def Contact.moveTo (c : Contact) (addr : String) : Contact :=
  { c with address := addr, pastAddresses := retainPast c.pastAddresses c.address addr }

lemma Contact.addressed_moveTo (c : Contact) {addr : String} (h : addr ≠ "") :
    (c.moveTo addr).Addressed :=
  ⟨h, fun _ hp => ne_empty_of_mem_retainPastGo hp⟩

/-- Whether a row's id and every address it answers to survive into another. -/
def Contact.Grows (c d : Contact) : Prop :=
  d.id = c.id ∧ ∀ norm, c.answers norm false = true → d.answers norm false = true

lemma Contact.answers_false_iff {c : Contact} {norm : String} :
    c.answers norm false = true ↔
      normalizeAddress c.address = norm ∨
        ∃ past ∈ c.pastAddresses, normalizeAddress past = norm := by
  simp [Contact.answers, Contact.hasPastAddress]

lemma Contact.Grows.rfl {c : Contact} : c.Grows c := ⟨Eq.refl _, fun _ h => h⟩

/-- A move takes no address from a contact. -/
lemma Contact.grows_moveTo {c : Contact} (hc : c.Addressed) (addr : String) :
    c.Grows (c.moveTo addr) := by
  refine ⟨Eq.refl _, fun norm h => ?_⟩
  have keep : ∀ a ∈ c.pastAddresses ++ [c.address], a ≠ "" → normalizeAddress a = norm →
      (c.moveTo addr).answers norm false = true := by
    intro a ha hne hnorm
    rw [Contact.answers_false_iff]
    rcases retainPastGo_retains [normalizeAddress addr] ha hne with hseen | ⟨b, hb, heq⟩
    · exact Or.inl ((List.mem_singleton.1 hseen).symm.trans hnorm)
    · exact Or.inr ⟨b, hb, heq.trans hnorm⟩
  rcases Contact.answers_false_iff.1 h with hcur | ⟨past, hp, hpast⟩
  · exact keep c.address (by simp) hc.1 hcur
  · exact keep past (by simp [hp]) (hc.2 past hp) hpast

/-! ## The five changes -/

/-- The youth's overlay, as a mutation sets it. -/
def Contact.overlay (c : Contact) (m : Mutation) : Contact :=
  { c with name := m.name, pinned := m.pinned, order := m.order, portrait := m.portrait }

def nextID (t : Table) :
    List (Option String) → Except MutateError { id : String // id ≠ sysContactID }
  | [] => .error .couldNotMint
  | none :: _ => .error .randomSource
  | some id :: rest =>
      if h : id = sysContactID then nextID t rest
      else if (t.row? id).isSome then nextID t rest
      else .ok ⟨id, h⟩

/-- The row an address is re-added to: the first one, in id order, that ever had it. -/
def Table.readded (t : Table) (norm : String) : Option Row :=
  t.contacts.attach.findSome? fun c =>
    if normalizeAddress c.1.address = norm ∨ c.1.hasPastAddress norm then
      some ⟨c.1, t.no_sys _ c.2⟩
    else none

def applyAdd (maxContacts : ℕ) (drawn : List (Option String)) (t : Table) (m : Mutation) :
    Except MutateError Row :=
  let addr := String.ofList (trimSpace m.address.toList)
  if addr = "" then .error .addRequiresAddress
  else
    let norm := normalizeAddress addr
    match t.readded norm with
    | some r =>
        if normalizeAddress r.contact.address = norm then
          .ok ⟨{ r.contact.overlay m with active := true }, r.not_sys⟩
        else .ok ⟨{ (r.contact.moveTo addr).overlay m with active := true }, r.not_sys⟩
    | none =>
        -- The cap counts tombstones, and only a genuinely new row is held to it.
        if maxContacts ≤ t.contacts.length then .error .maxContacts
        else
          match nextID t (drawn.take 32) with
          | .error e => .error e
          | .ok id =>
              .ok ⟨{ id := id.1, name := m.name, address := addr, active := true,
                     pinned := m.pinned, order := m.order, portrait := m.portrait }, id.2⟩

def applyDeactivate (t : Table) (m : Mutation) : Except MutateError Row :=
  match t.row? m.contactID with
  | none => .error .unknownContact
  | some r => .ok ⟨{ r.contact with active := false }, r.not_sys⟩

def applyReactivate (t : Table) (m : Mutation) : Except MutateError Row :=
  match t.row? m.contactID with
  | none => .error .unknownContact
  | some r => .ok ⟨{ r.contact with active := true }, r.not_sys⟩

def applyReaddress (t : Table) (m : Mutation) : Except MutateError Row :=
  match t.row? m.contactID with
  | none => .error .unknownContact
  | some r =>
      let newAddr := String.ofList (trimSpace m.address.toList)
      if newAddr = "" then .error .readdressRequiresAddress
      else if normalizeAddress r.contact.address = normalizeAddress newAddr then
        .error .readdressToSameAddress
      else .ok ⟨r.contact.moveTo newAddr, r.not_sys⟩

def applyCosmetic (t : Table) (m : Mutation) : Except MutateError Row :=
  match t.row? m.contactID with
  | none => .error .unknownContact
  | some r => .ok ⟨r.contact.overlay m, r.not_sys⟩

/-- The row a mutation writes. -/
def applyMutation (maxContacts : ℕ) (drawn : List (Option String)) (t : Table) (m : Mutation) :
    Except MutateError Row :=
  match m.action with
  | .add => applyAdd maxContacts drawn t m
  | .deactivate => applyDeactivate t m
  | .reactivate => applyReactivate t m
  | .readdress => applyReaddress t m
  | .cosmetic => applyCosmetic t m

/-- Whether a mutation is aimed at the system contact, by id or by address. -/
def Mutation.aimsAtSystem (m : Mutation) : Bool :=
  m.contactID = sysContactID ||
    ((m.action = .add || m.action = .readdress) && m.address ≠ "" && IsSystem m.address)

/-- `FileStore.Mutate`: what it returns, and the table it leaves. -/
def mutate (maxContacts : ℕ) (io : MutateIO) (actor : String) (m : Mutation) (t : Table) :
    Except MutateError Event × Table :=
  if m.aimsAtSystem then (.error .systemContact, t)
  else
    match applyMutation maxContacts io.drawn t m with
    | .error e => (.error e, t)
    | .ok r =>
        if io.persisted then
          let t' := t.commit r
          -- The table is durable by now: a log append that fails reports an error, and the
          -- change stands.
          if m.action ≠ .cosmetic ∧ ¬ io.logged then (.error .appendingLog, t')
          else
            (.ok { time := io.now, actor := actor, action := m.action, contactID := r.contact.id,
                   name := r.contact.name,
                   oldAddress :=
                     if m.action = .readdress then
                       ((t.row? m.contactID).map fun old => old.contact.address).getD ""
                     else "",
                   newAddress :=
                     if m.action = .readdress ∨ m.action = .add then r.contact.address else "",
                   version := t'.version }, t')
        else (.error .persisting, t)

/-! ## What a mutation can do to the table -/

variable {t t' : Table} {m : Mutation} {r : Row} {maxContacts : ℕ} {io : MutateIO}
  {actor : String} {ev : Event} {drawn : List (Option String)}

omit [Runes] in
lemma Table.row?_eq_some {id : String} (h : t.row? id = some r) :
    r.contact ∈ t.contacts ∧ r.contact.id = id := by
  obtain ⟨c, -, hc⟩ := List.exists_of_findSome?_eq_some h
  split_ifs at hc with hid
  obtain rfl := Option.some.inj hc
  exact ⟨c.2, hid⟩

omit [Runes] in
lemma Table.ne_of_row?_eq_none {id : String} (h : t.row? id = none) :
    ∀ c ∈ t.contacts, c.id ≠ id := by
  intro c hc hid
  have hnone := List.findSome?_eq_none_iff.1 h ⟨c, hc⟩ (List.mem_attach _ _)
  simp [hid] at hnone

lemma Table.readded_eq_some {norm : String} (h : t.readded norm = some r) :
    r.contact ∈ t.contacts ∧
      (normalizeAddress r.contact.address = norm ∨ r.contact.hasPastAddress norm = true) := by
  obtain ⟨c, -, hc⟩ := List.exists_of_findSome?_eq_some h
  split_ifs at hc with hans
  obtain rfl := Option.some.inj hc
  exact ⟨c.2, hans⟩

omit [Runes] in
/-- A drawn id that is taken names no row. -/
lemma nextID_unused {id : { id : String // id ≠ sysContactID }} (h : nextID t drawn = .ok id) :
    ∀ c ∈ t.contacts, c.id ≠ id.1 := by
  induction drawn with
  | nil => cases h
  | cons d drawn ih =>
      cases d with
      | none => cases h
      | some d =>
          rw [nextID] at h
          split_ifs at h with hsys hused
          · exact ih h
          · exact ih h
          · obtain rfl := Except.ok.inj h
            exact Table.ne_of_row?_eq_none (by simpa using hused)

/-- What a row written over `c` owes `c`. -/
structure Contact.RewrittenBy (c d : Contact) : Prop where
  id_eq : d.id = c.id
  grows : c.Addressed → c.Grows d
  addressed : c.Addressed → d.Addressed

lemma Contact.rewrittenBy_of_eq {c d : Contact} (hid : d.id = c.id)
    (haddr : d.address = c.address) (hpast : d.pastAddresses = c.pastAddresses) :
    c.RewrittenBy d where
  id_eq := hid
  grows := by
    refine fun _ => ⟨hid, fun norm h => ?_⟩
    rw [Contact.answers_false_iff] at h ⊢
    rwa [haddr, hpast]
  addressed := fun h => ⟨haddr ▸ h.1, hpast ▸ h.2⟩

lemma Contact.rewrittenBy_moveTo {c d : Contact} {addr : String} (haddr : addr ≠ "")
    (h : (c.moveTo addr).RewrittenBy d) : c.RewrittenBy d where
  id_eq := h.id_eq
  grows := fun hc =>
    have hmove := c.grows_moveTo hc addr
    have hd := h.grows (c.addressed_moveTo haddr)
    ⟨h.id_eq, fun norm hn => hd.2 norm (hmove.2 norm hn)⟩
  addressed := fun _ => h.addressed (c.addressed_moveTo haddr)

/-- What every write owes the table: it goes over one row, which loses no address by it, or adds
a row under an id that was free. -/
def Row.Owes (r : Row) (t : Table) : Prop :=
  (∃ c ∈ t.contacts, c.RewrittenBy r.contact) ∨
    (∀ c ∈ t.contacts, c.id ≠ r.contact.id) ∧ r.contact.Addressed

/-- The address a mutation asks for. -/
def Mutation.newAddress (m : Mutation) : String := String.ofList (trimSpace m.address.toList)

/-- What the row a mutation writes is made from. -/
inductive Written (maxContacts : ℕ) (t : Table) (m : Mutation) (d : Contact) : Prop
  /-- A row keeps its addresses. -/
  | overwritten (c : Contact) (hc : c ∈ t.contacts) (hid : d.id = c.id)
      (haddr : d.address = c.address) (hpast : d.pastAddresses = c.pastAddresses)
  /-- A row moves: it is the one that had the address before, or it is readdressed. -/
  | moved (c : Contact) (hc : c ∈ t.contacts) (hid : d.id = c.id) (hne : m.newAddress ≠ "")
      (haction : m.action = .add ∨ m.action = .readdress) (haddr : d.address = m.newAddress)
      (hpast : d.pastAddresses = (c.moveTo m.newAddress).pastAddresses)
      (hfrom : c.hasPastAddress (normalizeAddress m.newAddress) = true ∨
        m.action = .readdress ∧ c.id = m.contactID)
  /-- A row is new. -/
  | added (hfresh : ∀ c ∈ t.contacts, c.id ≠ d.id) (hroom : t.contacts.length < maxContacts)
      (hne : m.newAddress ≠ "") (haction : m.action = .add) (haddr : d.address = m.newAddress)
      (hpast : d.pastAddresses = [])
      (hnew : ∀ c ∈ t.contacts, c.answers (normalizeAddress m.newAddress) false = false)

lemma Table.answers_of_readded_eq_none {norm : String} (h : t.readded norm = none) :
    ∀ c ∈ t.contacts, c.answers norm false = false := by
  intro c hc
  have hnone := List.findSome?_eq_none_iff.1 h ⟨c, hc⟩ (List.mem_attach _ _)
  by_contra hans
  rw [Bool.not_eq_false, Contact.answers] at hans
  simp only [Bool.false_eq_true, if_false, Bool.or_eq_true, decide_eq_true_eq] at hans
  simp [hans] at hnone

/-- An add writes over the row that had its address, or that had it before, or adds one. -/
lemma applyAdd_cases (h : applyAdd maxContacts drawn t m = .ok r) :
    m.newAddress ≠ "" ∧
      ((∃ old, t.readded (normalizeAddress m.newAddress) = some old ∧
          normalizeAddress old.contact.address = normalizeAddress m.newAddress ∧
          r.contact = { old.contact.overlay m with active := true }) ∨
        (∃ old, t.readded (normalizeAddress m.newAddress) = some old ∧
          normalizeAddress old.contact.address ≠ normalizeAddress m.newAddress ∧
          r.contact = { (old.contact.moveTo m.newAddress).overlay m with active := true }) ∨
        ∃ id, t.readded (normalizeAddress m.newAddress) = none ∧
          t.contacts.length < maxContacts ∧ nextID t (drawn.take 32) = .ok id ∧
          r.contact =
            { id := id.1, name := m.name, address := m.newAddress, active := true,
              pinned := m.pinned, order := m.order, portrait := m.portrait }) := by
  unfold applyAdd at h
  by_cases haddr : m.newAddress = ""
  · rw [Mutation.newAddress] at haddr
    simp [haddr] at h
  refine ⟨haddr, ?_⟩
  simp only [← Mutation.newAddress.eq_1, haddr, if_false] at h
  cases hre : t.readded (normalizeAddress m.newAddress) with
  | some old =>
      simp only [hre] at h
      split_ifs at h with hcur
      · exact Or.inl ⟨old, rfl, hcur, congrArg Row.contact (Except.ok.inj h).symm⟩
      · exact Or.inr (Or.inl ⟨old, rfl, hcur, congrArg Row.contact (Except.ok.inj h).symm⟩)
  | none =>
      simp only [hre] at h
      by_cases hmax : maxContacts ≤ t.contacts.length
      · simp [hmax] at h
      simp only [hmax, if_false] at h
      cases hid : nextID t (drawn.take 32) with
      | error e => simp [hid] at h
      | ok id =>
          simp only [hid] at h
          exact Or.inr (Or.inr ⟨id, rfl, not_le.1 hmax, rfl,
            congrArg Row.contact (Except.ok.inj h).symm⟩)

omit [Runes] in
/-- The other actions begin with the row under the id. -/
lemma row?_cases {id : String} {f : Row → Except MutateError Row}
    (h : (match t.row? id with
      | none => .error .unknownContact
      | some r => f r) = Except.ok r) :
    ∃ old, old.contact ∈ t.contacts ∧ old.contact.id = id ∧ f old = .ok r := by
  cases hrow : t.row? id with
  | none =>
      rw [hrow] at h
      cases h
  | some old =>
      rw [hrow] at h
      obtain ⟨hmem, hid⟩ := Table.row?_eq_some hrow
      exact ⟨old, hmem, hid, h⟩

omit [Runes] in
lemma applyDeactivate_spec (h : applyDeactivate t m = .ok r) :
    ∃ old ∈ t.contacts, old.id = m.contactID ∧ r.contact = { old with active := false } := by
  obtain ⟨old, hmem, hid, hr⟩ := row?_cases h
  exact ⟨old.contact, hmem, hid, congrArg Row.contact (Except.ok.inj hr).symm⟩

omit [Runes] in
lemma applyReactivate_spec (h : applyReactivate t m = .ok r) :
    ∃ old ∈ t.contacts, old.id = m.contactID ∧ r.contact = { old with active := true } := by
  obtain ⟨old, hmem, hid, hr⟩ := row?_cases h
  exact ⟨old.contact, hmem, hid, congrArg Row.contact (Except.ok.inj hr).symm⟩

omit [Runes] in
lemma applyCosmetic_spec (h : applyCosmetic t m = .ok r) :
    ∃ old ∈ t.contacts, old.id = m.contactID ∧ r.contact = old.overlay m := by
  obtain ⟨old, hmem, hid, hr⟩ := row?_cases h
  exact ⟨old.contact, hmem, hid, congrArg Row.contact (Except.ok.inj hr).symm⟩

lemma applyReaddress_spec (h : applyReaddress t m = .ok r) :
    ∃ old ∈ t.contacts, old.id = m.contactID ∧ r.contact = old.moveTo m.newAddress ∧
      m.newAddress ≠ "" ∧ normalizeAddress old.address ≠ normalizeAddress m.newAddress := by
  obtain ⟨old, hmem, hid, hr⟩ := row?_cases h
  simp only [← Mutation.newAddress.eq_1] at hr
  split_ifs at hr with hempty hsame
  exact ⟨old.contact, hmem, hid, congrArg Row.contact (Except.ok.inj hr).symm, hempty, hsame⟩

theorem applyMutation_written (h : applyMutation maxContacts drawn t m = .ok r) :
    Written maxContacts t m r.contact := by
  unfold applyMutation at h
  cases hact : m.action with
  | add =>
      simp only [hact] at h
      obtain ⟨hne, ⟨old, hre, hcur, hr⟩ | ⟨old, hre, hcur, hr⟩ | ⟨id, hre, hroom, hid, hr⟩⟩ :=
        applyAdd_cases h
      · obtain ⟨hmem, -⟩ := Table.readded_eq_some hre
        exact .overwritten old.contact hmem (by rw [hr]; rfl) (by rw [hr]; rfl) (by rw [hr]; rfl)
      · obtain ⟨hmem, hans⟩ := Table.readded_eq_some hre
        exact .moved old.contact hmem (by rw [hr]; rfl) hne (Or.inl hact) (by rw [hr]; rfl)
          (by rw [hr]; rfl) (Or.inl (hans.resolve_left hcur))
      · exact .added (by rw [hr]; exact nextID_unused hid) hroom hne hact (by rw [hr])
          (by rw [hr]) (Table.answers_of_readded_eq_none hre)
  | readdress =>
      simp only [hact] at h
      obtain ⟨old, hold, hid, hr, hne, -⟩ := applyReaddress_spec h
      exact .moved old hold (by rw [hr]; rfl) hne (Or.inr hact) (by rw [hr]; rfl)
        (by rw [hr]) (Or.inr ⟨hact, hid⟩)
  | deactivate =>
      simp only [hact] at h
      obtain ⟨old, hold, -, hr⟩ := applyDeactivate_spec h
      exact .overwritten old hold (by rw [hr]) (by rw [hr]) (by rw [hr])
  | reactivate =>
      simp only [hact] at h
      obtain ⟨old, hold, -, hr⟩ := applyReactivate_spec h
      exact .overwritten old hold (by rw [hr]) (by rw [hr]) (by rw [hr])
  | cosmetic =>
      simp only [hact] at h
      obtain ⟨old, hold, -, hr⟩ := applyCosmetic_spec h
      exact .overwritten old hold (by rw [hr]; rfl) (by rw [hr]; rfl) (by rw [hr]; rfl)

theorem applyMutation_owes (h : applyMutation maxContacts drawn t m = .ok r) : r.Owes t := by
  cases applyMutation_written h with
  | overwritten c hc hid haddr hpast =>
      exact Or.inl ⟨c, hc, Contact.rewrittenBy_of_eq hid haddr hpast⟩
  | moved c hc hid hne haction haddr hpast hfrom =>
      exact Or.inl ⟨c, hc,
        Contact.rewrittenBy_moveTo hne (Contact.rewrittenBy_of_eq hid haddr hpast)⟩
  | added hfresh hroom hne haction haddr hpast hnew =>
      exact Or.inr ⟨hfresh, haddr ▸ hne, by simp [hpast]⟩

/-- The table a mutation leaves is the one it found, or that one with one row committed. -/
theorem mutate_cases (maxContacts : ℕ) (io : MutateIO) (actor : String) (m : Mutation)
    (t : Table) :
    (mutate maxContacts io actor m t).2 = t ∨
      ∃ r, applyMutation maxContacts io.drawn t m = .ok r ∧
        (mutate maxContacts io actor m t).2 = t.commit r := by
  unfold mutate
  by_cases hsys : m.aimsAtSystem
  · simp [hsys]
  simp only [hsys, if_false, Bool.false_eq_true]
  cases h : applyMutation maxContacts io.drawn t m with
  | error e => exact Or.inl rfl
  | ok r =>
      cases io.persisted with
      | false => exact Or.inl rfl
      | true =>
          refine Or.inr ⟨r, rfl, ?_⟩
          simp only [if_true]
          split
          · rfl
          · rfl

/-- A mutation that succeeds commits the row it works out, and says so under its own action. -/
lemma mutate_eq_ok (h : mutate maxContacts io actor m t = (.ok ev, t')) :
    ∃ r, applyMutation maxContacts io.drawn t m = .ok r ∧ t' = t.commit r ∧
      ev.action = m.action ∧ ev.contactID = r.contact.id ∧ m.aimsAtSystem = false ∧
      io.persisted = true ∧ (m.action ≠ .cosmetic → io.logged = true) ∧
      ev.version = t'.version := by
  unfold mutate at h
  by_cases haims : m.aimsAtSystem = true
  · simp [haims] at h
  simp only [haims, if_false, Bool.false_eq_true] at h
  cases happly : applyMutation maxContacts io.drawn t m with
  | error e => simp [happly] at h
  | ok r =>
      cases hpersisted : io.persisted with
      | false => simp [happly, hpersisted] at h
      | true =>
          simp only [happly, hpersisted, if_true] at h
          by_cases hlog : m.action ≠ .cosmetic ∧ ¬ io.logged = true
          · simp [hlog] at h
          · rw [if_neg hlog] at h
            obtain ⟨hev, rfl⟩ := Prod.mk.inj h
            obtain rfl := Except.ok.inj hev
            refine ⟨r, rfl, rfl, rfl, rfl, Bool.eq_false_of_not_eq_true haims, rfl,
              fun hne => ?_, rfl⟩
            by_contra hlogged
            exact hlog ⟨hne, hlogged⟩

/-- Every row survives, with every address it answers to. -/
def Table.Grows (t t' : Table) : Prop :=
  ∀ c ∈ t.contacts, ∃ d ∈ t'.contacts, c.Grows d

lemma Table.Grows.rfl : t.Grows t := fun c hc => ⟨c, hc, Contact.Grows.rfl⟩

omit [Runes] in
lemma Table.mem_commit {c : Contact} :
    c ∈ (t.commit r).contacts ↔ c = r.contact ∨ c ∈ t.contacts ∧ c.id ≠ r.contact.id :=
  t.sorted.mem_put_iff

/-- Rows are never removed and addresses are never taken from a row. -/
theorem mutate_grows (ht : t.Addressed) (maxContacts : ℕ) (io : MutateIO) (actor : String)
    (m : Mutation) :
    t.Grows (mutate maxContacts io actor m t).2 ∧
      (mutate maxContacts io actor m t).2.Addressed := by
  rcases mutate_cases maxContacts io actor m t with heq | ⟨r, hr, heq⟩
  · rw [heq]
    exact ⟨Table.Grows.rfl, ht⟩
  · rw [heq]
    rcases applyMutation_owes hr with ⟨c, hc, hrw⟩ | ⟨hfresh, haddr⟩
    · refine ⟨fun d hd => ?_, fun d hd => ?_⟩
      · by_cases hid : d.id = r.contact.id
        · -- The row under the written id is the one written over.
          have hdc : d = c := t.sorted.eq_of_key_eq hd hc (hid.trans hrw.id_eq)
          exact ⟨r.contact, Table.mem_commit.2 (Or.inl rfl), hdc ▸ hrw.grows (ht c hc)⟩
        · exact ⟨d, Table.mem_commit.2 (Or.inr ⟨hd, hid⟩), Contact.Grows.rfl⟩
      · rcases Table.mem_commit.1 hd with rfl | ⟨hd, -⟩
        · exact hrw.addressed (ht c hc)
        · exact ht d hd
    · refine ⟨fun d hd => ?_, fun d hd => ?_⟩
      · exact ⟨d, Table.mem_commit.2 (Or.inr ⟨hd, hfresh d hd⟩), Contact.Grows.rfl⟩
      · rcases Table.mem_commit.1 hd with rfl | ⟨hd, -⟩
        · exact haddr
        · exact ht d hd

/-- What resolved against the full table resolves against every table grown from it. -/
theorem Table.Grows.resolve (h : t.Grows t') {addr : String} (hr : (t.resolve addr).isSome) :
    (t'.resolve addr).isSome := by
  rw [Table.resolve_isSome_iff] at hr ⊢
  rcases hr with hsys | ⟨c, hc, hans⟩
  · exact Or.inl hsys
  · obtain ⟨d, hd, hgrows⟩ := h c hc
    exact Or.inr ⟨d, hd, hgrows.2 _ hans⟩

/-- A row written over the one an address resolves to, which still answers to the address, is what
the address resolves to. -/
lemma Table.resolve_commit {addr : String} {c : Contact} (hsys : ¬ IsSystem addr)
    (hres : t.resolve addr = some c) (hid : r.contact.id = c.id)
    (hans : r.contact.answers (normalizeAddress addr) false = true) :
    (t.commit r).resolve addr = some r.contact := by
  rw [Table.resolve, Table.resolveLocked, if_neg hsys] at hres ⊢
  exact t.sorted.find?_put hres hid hans

/-- After a contact is deactivated, its addresses resolve to its tombstone. -/
theorem resolve_of_deactivate {addr : String} {c : Contact} {io : MutateIO} {actor : String}
    {event : Event} (hres : t.resolve addr = some c)
    (hok : mutate maxContacts io actor { action := .deactivate, contactID := c.id } t =
      (.ok event, t')) :
    t'.resolve addr = some { c with active := false } := by
  obtain ⟨r, hr, rfl, -, -, haims, -⟩ := mutate_eq_ok hok
  obtain ⟨old, hold, hkey, hrow⟩ := applyDeactivate_spec hr
  have hid : c.id ≠ sysContactID := by
    intro hid
    simp [Mutation.aimsAtSystem, hid] at haims
  have hsys : ¬ IsSystem addr := by
    intro hsys
    rw [Table.resolve, Table.resolveLocked_of_isSystem hsys] at hres
    obtain rfl := Option.some.inj hres
    exact hid rfl
  obtain ⟨hmem, hans⟩ := Table.mem_of_resolveLocked hsys hres
  obtain rfl : old = c := t.sorted.eq_of_key_eq hold hmem hkey
  rw [← hrow]
  refine Table.resolve_commit hsys hres (by rw [hrow]) ?_
  rw [hrow]
  exact hans

end Mutations
end Chaskiwasi
