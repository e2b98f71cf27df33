import Chaskiwasi.Ayllu.Mutate
import Chaskiwasi.Lib.Run

/-!
# The contact table over a run of changes

A `Change` is one call of `Mutate` with what the disk and the random source answer to it; a run
of changes is a run of `changeTable`.  Rows stay, ids stay, and what a row answers to only grows.

Who an address resolves to is another matter.  Resolution walks the rows in id order, so an answer
is stable as long as no two rows share an address (`Table.Separate`).  An add looks for the address
on every row, past addresses included, and never makes a second row for it; a readdress looks at
nothing, and may give a row an address that another one has or had.
-/

namespace Chaskiwasi

structure Change where
  io : MutateIO
  actor : String
  mutation : Mutation
  deriving DecidableEq, Repr

section Keeps

variable [Runes] {maxContacts : ℕ} {t t' t₀ : Table} {changes later : List Change} {m : Mutation}
  {r : Row} {addr : String} {c d : Contact}

/-- One change to the table. -/
def changeTable (maxContacts : ℕ) (t : Table) (ch : Change) : Option Table :=
  some (mutate maxContacts ch.io ch.actor ch.mutation t).2

/-- What a change writes, if it writes. -/
lemma changeTable_cases {ch : Change} (h : changeTable maxContacts t ch = some t') :
    t' = t ∨ ∃ r, ch.mutation.aimsAtSystem = false ∧
      Written maxContacts t ch.mutation r.contact ∧ t' = t.commit r := by
  obtain rfl := Option.some.inj h
  by_cases haims : ch.mutation.aimsAtSystem = true
  · exact Or.inl (by simp [mutate, haims])
  · rcases mutate_cases maxContacts ch.io ch.actor ch.mutation t with heq | ⟨r, hr, heq⟩
    · exact Or.inl heq
    · exact Or.inr ⟨r, by simpa using haims, applyMutation_written hr, heq⟩

/-! ## Addresses a row has had -/

/-- The addresses of a row, current and past. -/
def Contact.addresses (c : Contact) : List String := c.address :: c.pastAddresses

lemma Contact.answers_iff_addresses {norm : String} :
    c.answers norm false = true ↔ ∃ a ∈ c.addresses, normalizeAddress a = norm := by
  rw [Contact.answers_false_iff]
  simp [Contact.addresses]

lemma mem_of_mem_retainPastGo {seen as : List String} {b : String}
    (h : b ∈ retainPastGo seen as) : b ∈ as := by
  induction as generalizing seen with
  | nil => cases h
  | cons a as ih =>
      rw [retainPastGo] at h
      split_ifs at h
      · exact List.mem_cons_of_mem _ (ih h)
      · rcases List.mem_cons.1 h with rfl | h
        · exact List.mem_cons_self ..
        · exact List.mem_cons_of_mem _ (ih h)

/-- A move brings one address, and no other. -/
lemma Contact.mem_addresses_moveTo {a : String} (h : a ∈ (c.moveTo addr).addresses) :
    a = addr ∨ a ∈ c.addresses := by
  rcases List.mem_cons.1 h with rfl | h
  · exact Or.inl rfl
  · rcases List.mem_append.1 (mem_of_mem_retainPastGo h) with h | h
    · exact Or.inr (List.mem_cons_of_mem _ h)
    · rw [List.mem_singleton.1 h]
      exact Or.inr (List.mem_cons_self ..)

/-- Where the addresses of a written row come from. -/
lemma Written.addresses (h : Written maxContacts t m d) {a : String} (ha : a ∈ d.addresses) :
    (∃ c ∈ t.contacts, d.id = c.id ∧ a ∈ c.addresses) ∨
      a = m.newAddress ∧ m.newAddress ≠ "" ∧ (m.action = .add ∨ m.action = .readdress) := by
  cases h with
  | overwritten c hc hid haddr hpast =>
      refine Or.inl ⟨c, hc, hid, ?_⟩
      rwa [Contact.addresses, haddr, hpast] at ha
  | moved c hc hid hne haction haddr hpast hfrom =>
      have ha' : a ∈ (c.moveTo m.newAddress).addresses := by
        rwa [Contact.addresses, haddr, hpast] at ha
      rcases Contact.mem_addresses_moveTo ha' with rfl | ha'
      · exact Or.inr ⟨rfl, hne, haction⟩
      · exact Or.inl ⟨c, hc, hid, ha'⟩
  | added hfresh hroom hne haction haddr hpast hnew =>
      rw [Contact.addresses, haddr, hpast, List.mem_singleton] at ha
      exact Or.inr ⟨ha, hne, Or.inl haction⟩

/-- Every nonempty address of `c` is, up to normalisation, one of `d`. -/
def Contact.Retains (c d : Contact) : Prop :=
  d.id = c.id ∧ ∀ a ∈ c.addresses, a ≠ "" →
    ∃ b ∈ d.addresses, b ≠ "" ∧ normalizeAddress b = normalizeAddress a

lemma Contact.Retains.rfl : c.Retains c := ⟨Eq.refl _, fun a ha hne => ⟨a, ha, hne, Eq.refl _⟩⟩

lemma Contact.Retains.trans {e : Contact} (hcd : c.Retains d) (hde : d.Retains e) :
    c.Retains e := by
  refine ⟨hde.1.trans hcd.1, fun a ha hne => ?_⟩
  obtain ⟨b, hb, hbne, hba⟩ := hcd.2 a ha hne
  obtain ⟨b', hb', hne', hbb⟩ := hde.2 b hb hbne
  exact ⟨b', hb', hne', hbb.trans hba⟩

lemma Contact.retains_moveTo (hid : d.id = c.id) (hne : addr ≠ "") (haddr : d.address = addr)
    (hpast : d.pastAddresses = (c.moveTo addr).pastAddresses) : c.Retains d := by
  refine ⟨hid, fun a ha hane => ?_⟩
  have hmem : a ∈ c.pastAddresses ++ [c.address] := by
    rcases List.mem_cons.1 ha with rfl | ha
    · exact List.mem_append_right _ (List.mem_singleton_self _)
    · exact List.mem_append_left _ ha
  rcases retainPastGo_retains [normalizeAddress addr] hmem hane with hseen | ⟨b, hb, heq⟩
  · refine ⟨d.address, List.mem_cons_self .., haddr ▸ hne, ?_⟩
    rw [haddr, List.mem_singleton.1 hseen]
  · refine ⟨b, ?_, ne_empty_of_mem_retainPastGo hb, heq⟩
    rw [Contact.addresses, hpast]
    exact List.mem_cons_of_mem _ hb

/-- The row a change goes over loses no address. -/
lemma Written.retains (h : Written maxContacts t m d) (hc : c ∈ t.contacts) (hid : c.id = d.id) :
    c.Retains d := by
  cases h with
  | overwritten c' hc' hid' haddr hpast =>
      obtain rfl := t.sorted.eq_of_key_eq hc hc' (hid.trans hid')
      refine ⟨hid', fun a ha hne => ⟨a, ?_, hne, rfl⟩⟩
      rwa [Contact.addresses, haddr, hpast]
  | moved c' hc' hid' hne haction haddr hpast hfrom =>
      obtain rfl := t.sorted.eq_of_key_eq hc hc' (hid.trans hid')
      exact Contact.retains_moveTo hid' hne haddr hpast
  | added hfresh hroom hne haction haddr hpast hnew => exact absurd hid (hfresh c hc)

/-! ## What every change keeps -/

/-- No row has the system address, now or in its past. -/
def Table.NoSystemAddress (t : Table) : Prop :=
  ∀ c ∈ t.contacts, ∀ a ∈ c.addresses, ¬ IsSystem a

/-- A change does not write the system address. -/
lemma not_isSystem_newAddress (haims : m.aimsAtSystem = false) (hne : m.newAddress ≠ "")
    (haction : m.action = .add ∨ m.action = .readdress) : ¬ IsSystem m.newAddress := by
  intro hsys
  have hraw : m.address ≠ "" := by
    intro hempty
    refine hne ?_
    rw [Mutation.newAddress, hempty]
    rfl
  have hsys' : IsSystem m.address := by
    rw [IsSystem, Mutation.newAddress, normalizeAddress_trim] at hsys
    exact hsys
  rcases haction with haction | haction <;>
    simp [Mutation.aimsAtSystem, haction, hraw, hsys'] at haims

/-- What a run of changes keeps of the table it began with. -/
structure Table.After (t₀ : Table) (maxContacts : ℕ) (t : Table) : Prop where
  rows : ∀ c ∈ t₀.contacts, ∃ d ∈ t.contacts, c.Retains d
  noSystem : t.NoSystemAddress
  size : t.contacts.length ≤ max maxContacts t₀.contacts.length
  version : t₀.version ≤ t.version

lemma Table.NoSystemAddress.commit (ht : t.NoSystemAddress) (haims : m.aimsAtSystem = false)
    (hw : Written maxContacts t m r.contact) : (t.commit r).NoSystemAddress := by
  intro c hc a ha
  rcases Table.mem_commit.1 hc with rfl | ⟨hc, -⟩
  · rcases hw.addresses ha with ⟨c', hc', -, ha'⟩ | ⟨rfl, hne, haction⟩
    · exact ht c' hc' a ha'
    · exact not_isSystem_newAddress haims hne haction
  · exact ht c hc a ha

omit [Runes] in
/-- A row written over another leaves the number of rows. -/
lemma Table.length_commit_of_mem (hc : c ∈ t.contacts) (hid : c.id = r.contact.id) :
    (t.commit r).contacts.length = t.contacts.length :=
  t.sorted.length_put_of_mem hc hid

theorem changeTable_after (ht : t₀.After maxContacts t) {ch : Change}
    (h : changeTable maxContacts t ch = some t') : t₀.After maxContacts t' := by
  rcases changeTable_cases h with rfl | ⟨r, haims, hw, rfl⟩
  · exact ht
  · refine ⟨fun c hc => ?_, ht.noSystem.commit haims hw, ?_, ?_⟩
    · obtain ⟨d, hd, hcd⟩ := ht.rows c hc
      by_cases hid : d.id = r.contact.id
      · exact ⟨r.contact, Table.mem_commit.2 (Or.inl rfl), hcd.trans (hw.retains hd hid)⟩
      · exact ⟨d, Table.mem_commit.2 (Or.inr ⟨hd, hid⟩), hcd⟩
    · cases hw with
      | overwritten c hc hid haddr hpast =>
          rw [Table.length_commit_of_mem hc hid.symm]
          exact ht.size
      | moved c hc hid hne haction haddr hpast hfrom =>
          rw [Table.length_commit_of_mem hc hid.symm]
          exact ht.size
      | added hfresh hroom hne haction haddr hpast hnew =>
          have hlen := Keyed.length_put_le Contact.id r.contact t.contacts
          exact le_trans hlen (le_trans hroom (le_max_left ..))
    · exact Nat.le_succ_of_le ht.version

omit [Runes] in
lemma Table.nodup_ids (t : Table) : (t.contacts.map Contact.id).Nodup := by
  rw [List.Nodup, List.pairwise_map]
  exact t.sorted.imp ne_of_lt

/-- A change that succeeds raises the version; one that fails before the table is durable changes
nothing. -/
lemma mutate_version (maxContacts : ℕ) (ch : Change) (t : Table) :
    (∀ event, (mutate maxContacts ch.io ch.actor ch.mutation t).1 = .ok event →
      t.version < (mutate maxContacts ch.io ch.actor ch.mutation t).2.version ∧
        event.version = (mutate maxContacts ch.io ch.actor ch.mutation t).2.version) ∧
    ∀ e, (mutate maxContacts ch.io ch.actor ch.mutation t).1 = .error e → e ≠ .appendingLog →
      (mutate maxContacts ch.io ch.actor ch.mutation t).2 = t := by
  unfold mutate
  by_cases haims : ch.mutation.aimsAtSystem = true
  · simp [haims]
  simp only [haims, Bool.false_eq_true, if_false]
  cases applyMutation maxContacts ch.io.drawn t ch.mutation with
  | error e => simp
  | ok r =>
      cases ch.io.persisted with
      | false => simp
      | true =>
          simp only [if_true]
          by_cases hlog : ch.mutation.action ≠ .cosmetic ∧ ¬ ch.io.logged = true
          · rw [if_pos hlog]
            exact ⟨by simp, fun e h hne => absurd (Except.error.inj h).symm hne⟩
          · rw [if_neg hlog]
            refine ⟨fun event h => ?_, by simp⟩
            obtain rfl := Except.ok.inj h
            exact ⟨Nat.lt_succ_self t.version, rfl⟩

/-- Every address of a row, the empty one too, stays with the row. -/
def AddressesOnlyGrow : Prop :=
  ∀ (maxContacts : ℕ) (t₀ t : Table) (changes : List Change), t₀.NoSystemAddress →
    Run.run (changeTable maxContacts) t₀ changes = some t →
    ∀ c ∈ t₀.contacts, ∃ d ∈ t.contacts, d.id = c.id ∧
      ∀ a ∈ c.addresses, ∃ b ∈ d.addresses, normalizeAddress b = normalizeAddress a

end Keeps

namespace Sample

/-- Rosa moves. -/
def rosaMoves : Change where
  io := {}
  actor := "ana"
  mutation := { action := .readdress, contactID := "c_01", address := "rosa@y" }

lemma noSystemAddress_onlyRosa : @Table.NoSystemAddress runes (onlyRosa true) := by
  intro c hc a ha
  obtain rfl := List.mem_singleton.1 hc
  obtain rfl := List.mem_singleton.1 ha
  decide +kernel

/-- A row of a file edited by hand, without an address. -/
def unaddressed : Table where
  version := 1
  contacts := [{ rosa true with address := "" }]
  sorted := List.pairwise_singleton _ _
  no_sys := by decide

end Sample

section Attribution

variable [Runes] {maxContacts : ℕ} {t t' t₀ : Table} {changes later : List Change} {m : Mutation}
  {r : Row} {addr : String} {c d : Contact}

/-- No two rows share an address, up to normalisation. -/
def Table.Separate (t : Table) : Prop :=
  ∀ c ∈ t.contacts, ∀ d ∈ t.contacts, ∀ norm, c.answers norm false = true →
    d.answers norm false = true → c = d

/-- A readdress goes to an address that no other row has or had. -/
def FreeAddress (t : Table) (ch : Change) : Prop :=
  ch.mutation.action = .readdress → ∀ c ∈ t.contacts, c.id ≠ ch.mutation.contactID →
    c.answers (normalizeAddress ch.mutation.newAddress) false = false

instance (t : Table) (ch : Change) : Decidable (FreeAddress t ch) :=
  inferInstanceAs (Decidable (_ → _))

/-- What a written row answers to, the row it goes over did, or no row did. -/
lemma Written.answers (hw : Written maxContacts t m d)
    (hfree : m.action = .readdress → ∀ c ∈ t.contacts, c.id ≠ m.contactID →
      c.answers (normalizeAddress m.newAddress) false = false)
    {norm : String} (hd : d.answers norm false = true) :
    (∃ c ∈ t.contacts, d.id = c.id ∧ c.answers norm false = true) ∨
      ∀ c ∈ t.contacts, c.id ≠ d.id → c.answers norm false = false := by
  obtain ⟨a, ha, rfl⟩ := Contact.answers_iff_addresses.1 hd
  rcases hw.addresses ha with ⟨c, hc, hid, hac⟩ | ⟨rfl, -, -⟩
  · exact Or.inl ⟨c, hc, hid, Contact.answers_iff_addresses.2 ⟨a, hac, rfl⟩⟩
  · cases hw with
    | overwritten c hc hid haddr hpast =>
        refine Or.inl ⟨c, hc, hid, Contact.answers_iff_addresses.2 ⟨_, ?_, rfl⟩⟩
        rwa [Contact.addresses, haddr, hpast] at ha
    | moved c hc hid hne haction haddr hpast hfrom =>
        rcases hfrom with hhad | ⟨hre, hcid⟩
        · refine Or.inl ⟨c, hc, hid, ?_⟩
          simp [Contact.answers, hhad]
        · exact Or.inr fun e he hne => hfree hre e he fun heid => hne (heid.trans (hid ▸ hcid.symm))
    | added hfresh hroom hne haction haddr hpast hnew => exact Or.inr fun e he _ => hnew e he

lemma Table.Separate.change (ht : t.Separate) {ch : Change} (hfree : FreeAddress t ch)
    (h : changeTable maxContacts t ch = some t') : t'.Separate := by
  rcases changeTable_cases h with rfl | ⟨r, -, hw, rfl⟩
  · exact ht
  · -- A row as it was shares nothing with the one written.
    have hother : ∀ c ∈ t.contacts, c.id ≠ r.contact.id → ∀ norm,
        r.contact.answers norm false = true → c.answers norm false = true → False := by
      intro c hc hid norm hr hcn
      rcases hw.answers hfree hr with ⟨old, hold, hidold, hans⟩ | hnone
      · exact hid (by rw [ht c hc old hold norm hcn hans, hidold])
      · rw [hnone c hc hid] at hcn
        cases hcn
    intro c hc d hd norm hcn hdn
    rcases Table.mem_commit.1 hc with rfl | ⟨hc, hcid⟩
    · rcases Table.mem_commit.1 hd with rfl | ⟨hd, hdid⟩
      · rfl
      · exact (hother d hd hdid norm hcn hdn).elim
    · rcases Table.mem_commit.1 hd with rfl | ⟨hd, hdid⟩
      · exact (hother c hc hcid norm hdn hcn).elim
      · exact ht c hc d hd norm hcn hdn

/-- Where no two rows share an address, a row that answers is the answer. -/
lemma Table.Separate.resolve_eq (ht : t.Separate) (hsys : ¬ IsSystem addr) (hc : c ∈ t.contacts)
    (hans : c.answers (normalizeAddress addr) false = true) : t.resolve addr = some c := by
  have hsome : (t.resolve addr).isSome := Table.resolve_isSome_iff.2 (Or.inr ⟨c, hc, hans⟩)
  obtain ⟨d, hd⟩ := Option.isSome_iff_exists.1 hsome
  obtain ⟨hdmem, hdans⟩ := Table.mem_of_resolveLocked hsys hd
  rw [hd, ht d hdmem c hc _ hdans hans]

lemma Table.Separate.resolve_of_resolveActive (ht : t.Separate)
    (h : t.resolveActive addr = some c) : t.resolve addr = some c := by
  by_cases hsys : IsSystem addr
  · rw [Table.resolveActive, Table.resolveLocked_of_isSystem hsys] at h
    rw [Table.resolve, Table.resolveLocked_of_isSystem hsys, h]
  · obtain ⟨hmem, hans⟩ := Table.mem_of_resolveLocked hsys h
    refine ht.resolve_eq hsys hmem ?_
    simp only [Contact.answers, if_true, Bool.and_eq_true] at hans
    simp only [Contact.answers, Bool.false_eq_true, if_false, Bool.or_eq_true]
    exact Or.inl hans.2

/-- An answer of one table is, by its id, an answer of a later one that keeps its rows. -/
lemma Table.Separate.resolve_later (ht' : t'.Separate) (hgrows : t.Grows t')
    (h : t.resolve addr = some c) : ∃ d, t'.resolve addr = some d ∧ d.id = c.id := by
  by_cases hsys : IsSystem addr
  · rw [Table.resolve, Table.resolveLocked_of_isSystem hsys] at h
    obtain rfl := Option.some.inj h
    exact ⟨sysContact, Table.resolveLocked_of_isSystem hsys, rfl⟩
  · obtain ⟨hmem, hans⟩ := Table.mem_of_resolveLocked hsys h
    obtain ⟨d, hd, hid, hkeeps⟩ := hgrows c hmem
    exact ⟨d, ht'.resolve_eq hsys hd (hkeeps _ hans), hid⟩

lemma Contact.Grows.trans {e : Contact} (hcd : c.Grows d) (hde : d.Grows e) : c.Grows e :=
  ⟨hde.1.trans hcd.1, fun norm h => hde.2 norm (hcd.2 norm h)⟩

lemma Table.Grows.trans {t'' : Table} (h : t.Grows t') (h' : t'.Grows t'') : t.Grows t'' := by
  intro c hc
  obtain ⟨d, hd, hcd⟩ := h c hc
  obtain ⟨e, he, hde⟩ := h' d hd
  exact ⟨e, he, hcd.trans hde⟩

/-- A table whose answers are stable: no shared address, and no empty one. -/
structure Table.Stable (t : Table) : Prop where
  separate : t.Separate
  addressed : t.Addressed

lemma Table.Stable.change (ht : t.Stable) {ch : Change} (hfree : FreeAddress t ch)
    (h : changeTable maxContacts t ch = some t') : t'.Stable ∧ t.Grows t' := by
  have hgrows := mutate_grows ht.addressed maxContacts ch.io ch.actor ch.mutation
  have hsep := ht.separate.change hfree h
  obtain rfl := Option.some.inj h
  exact ⟨⟨hsep, hgrows.2⟩, hgrows.1⟩

lemma Table.Stable.run (ht : t.Stable)
    (hfree : Run.Meets (changeTable maxContacts) FreeAddress t changes)
    (hrun : Run.run (changeTable maxContacts) t changes = some t') : t'.Stable ∧ t.Grows t' := by
  refine Run.run_invariant_of_meets (I := fun s => s.Stable ∧ t.Grows s)
    (fun s ch s' hs hch hstep => ?_) ⟨ht, Table.Grows.rfl⟩ hfree hrun
  obtain ⟨hs', hgrows⟩ := hs.1.change hch hstep
  exact ⟨hs', hs.2.trans hgrows⟩

/-- Active resolution agrees with full resolution, and answers never change, whatever is done to the
contact list. -/
def AttributionStable : Prop :=
  ∀ (maxContacts : ℕ) (changes later : List Change) (t t' : Table),
    Run.run (changeTable maxContacts) Sample.noContacts changes = some t →
    Run.run (changeTable maxContacts) t later = some t' →
    (∀ addr c, t.resolveActive addr = some c → t.resolve addr = some c) ∧
      ∀ addr c, t.resolve addr = some c → ∃ d, t'.resolve addr = some d ∧ d.id = c.id

/-- **Attribution is stable while every readdress goes to a free address.**  In each table of such a
run, what resolves as active resolves to the same contact against the full table; and once an
address has resolved to a contact, it resolves to that contact in every later table. -/
theorem attribution_stable_of_free (ht : t₀.Stable)
    (hfree : Run.Meets (changeTable maxContacts) FreeAddress t₀ (changes ++ later))
    (hrun : Run.run (changeTable maxContacts) t₀ changes = some t)
    (hlater : Run.run (changeTable maxContacts) t later = some t') :
    (∀ addr c, t.resolveActive addr = some c → t.resolve addr = some c) ∧
      ∀ addr c, t.resolve addr = some c → ∃ d, t'.resolve addr = some d ∧ d.id = c.id := by
  obtain ⟨hfirst, hrest⟩ := hfree.append hrun
  have hstable := (ht.run hfirst hrun).1
  obtain ⟨hstable', hgrows⟩ := hstable.run hrest hlater
  exact ⟨fun addr c h => hstable.separate.resolve_of_resolveActive h,
    fun addr c h => hstable'.separate.resolve_later hgrows h⟩

end Attribution

namespace Sample

/-- A contact is added under a drawn id. -/
def adds (id name address : String) : Change where
  io := { drawn := [some id] }
  actor := "ana"
  mutation := { action := .add, name := name, address := address }

/-- A contact moves. -/
def moves (id address : String) : Change where
  io := {}
  actor := "ana"
  mutation := { action := .readdress, contactID := id, address := address }

/-- Rosa and Tomas are added. -/
def introductions : List Change := [adds "c_b" "Rosa" "rosa@x", adds "c_a" "Tomas" "tomas@x"]

end Sample

/-- Tomas is given Rosa's address, and what she wrote is his from then on. -/
theorem readdress_takes_history : ¬ @AttributionStable Sample.runes := by
  intro hclaim
  have heval : ((Run.run (@changeTable Sample.runes 24) Sample.noContacts
      Sample.introductions).any fun t =>
        ((@Table.resolve Sample.runes t "rosa@x").map Contact.id == some "c_b") &&
          (Run.run (@changeTable Sample.runes 24) t [Sample.moves "c_a" "rosa@x"]).any fun t' =>
            (@Table.resolve Sample.runes t' "rosa@x").map Contact.id == some "c_a") = true := by
    decide +kernel
  obtain ⟨t, hrun, hevals⟩ := Run.exists_of_any heval
  obtain ⟨hbefore, hrest⟩ := Bool.and_eq_true_iff.1 hevals
  obtain ⟨t', hlater, hafter⟩ := Run.exists_of_any hrest
  obtain ⟨c, hc, hcid⟩ := Option.map_eq_some_iff.1 (eq_of_beq hbefore)
  obtain ⟨d, hd, hid⟩ := (hclaim 24 _ _ t t' hrun hlater).2 "rosa@x" c hc
  rw [hd, Option.map_some, hid, hcid] at hafter
  revert hafter
  decide

/-- Tomas moves to an address nobody had, and Rosa's stays hers. -/
theorem attribution_stable_of_move : ∃ t t',
    Run.run (@changeTable Sample.runes 24) Sample.noContacts Sample.introductions = some t ∧
    Run.run (@changeTable Sample.runes 24) t [Sample.moves "c_a" "tomas@y"] = some t' ∧
      ∃ c d, @Table.resolve Sample.runes t "rosa@x" = some c ∧
        @Table.resolve Sample.runes t' "rosa@x" = some d ∧ d.id = c.id := by
  have heval : ((Run.run (@changeTable Sample.runes 24) Sample.noContacts
      Sample.introductions).any fun t => (@Table.resolve Sample.runes t "rosa@x").isSome) =
        true := by
    decide +kernel
  obtain ⟨t, hrun, hsome⟩ := Run.exists_of_any heval
  obtain ⟨c, hc⟩ := Option.isSome_iff_exists.1 hsome
  have hstable : @Table.Stable Sample.runes Sample.noContacts :=
    @Table.Stable.mk Sample.runes _ (fun c hc => absurd hc (List.not_mem_nil))
      (fun c hc => absurd hc (List.not_mem_nil))
  have hfree : Run.Meets (@changeTable Sample.runes 24) (@FreeAddress Sample.runes)
      Sample.noContacts (Sample.introductions ++ [Sample.moves "c_a" "tomas@y"]) := by
    decide +kernel
  obtain ⟨d, hd, hid⟩ := (@attribution_stable_of_free Sample.runes 24 t _ _ _ _ hstable hfree hrun
    rfl).2 "rosa@x" c hc
  exact ⟨t, _, hrun, rfl, c, d, hc, hd, hid⟩

end Chaskiwasi
