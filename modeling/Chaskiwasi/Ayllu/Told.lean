import Chaskiwasi.Ayllu.History

/-!
# What an event tells

An event goes to the change log and from there to the family, as a letter that says what was done
to the list.  It carries the action that was asked for.  Whether the table took that action is
another matter: a flag can be set to what it was, and an add can find that the person is known.

`Event.Tells` is the reading a letter is written for.  `Mutation.Changes` says of a mutation, before
it is made, that there is something for it to change; only `readdress` looks for itself.
-/

namespace Chaskiwasi

section Told

variable [Runes]

/-- The contact under this id was there before, and what became of it stands so to it. -/
def Table.Turns (t t' : Table) (id : String) (R : Contact → Contact → Prop) : Prop :=
  ∃ c ∈ t.contacts, c.id = id ∧ ∃ d ∈ t'.contacts, d.id = id ∧ R c d

/-- What an event says was done, was done: someone new is on the list, a contact was closed or
opened, or a contact has moved. -/
def Event.Tells (ev : Event) (t t' : Table) : Prop :=
  match ev.action with
  | .add => (∀ c ∈ t.contacts, c.id ≠ ev.contactID) ∧ ∃ d ∈ t'.contacts, d.id = ev.contactID
  | .deactivate => t.Turns t' ev.contactID fun c d => c.active = true ∧ d.active = false
  | .reactivate => t.Turns t' ev.contactID fun c d => c.active = false ∧ d.active = true
  | .readdress => t.Turns t' ev.contactID fun c d =>
      normalizeAddress c.address ≠ normalizeAddress d.address
  | .cosmetic => True

/-- There is something for a mutation to change: the address of an add is nobody's and never was,
and the contact of a flag change has the other flag. -/
def Mutation.Changes (m : Mutation) (t : Table) : Prop :=
  match m.action with
  | .add => m.newAddress = "" ∨
      ∀ c ∈ t.contacts, c.answers (normalizeAddress m.newAddress) false = false
  | .deactivate => ∀ c ∈ t.contacts, c.id = m.contactID → c.active = true
  | .reactivate => ∀ c ∈ t.contacts, c.id = m.contactID → c.active = false
  | .readdress => True
  | .cosmetic => True

variable {maxContacts : ℕ} {io : MutateIO} {actor : String} {m : Mutation} {t t' : Table}
  {ev : Event} {r : Row} {drawn : List (Option String)}

/-- Where nothing fails, a mutation that works out a row returns an event. -/
lemma mutate_of_apply (haims : m.aimsAtSystem = false) (hpersisted : io.persisted = true)
    (hlogged : io.logged = true) (h : applyMutation maxContacts io.drawn t m = .ok r) :
    ∃ ev, mutate maxContacts io actor m t = (.ok ev, t.commit r) := by
  unfold mutate
  simp only [haims, h, hpersisted, hlogged, if_false, if_true, not_true, and_false,
    Bool.false_eq_true]
  exact ⟨_, rfl⟩

omit [Runes] in
/-- A row is written over the one with its id. -/
lemma Table.turns_commit {old : Contact} (hold : old ∈ t.contacts) (hid : r.contact.id = old.id)
    {R : Contact → Contact → Prop} :
    t.Turns (t.commit r) r.contact.id R ↔ R old r.contact := by
  constructor
  · rintro ⟨c, hc, hcid, d, hd, hdid, hR⟩
    obtain rfl : c = old := t.sorted.eq_of_key_eq hc hold (hcid.trans hid)
    rcases Table.mem_commit.1 hd with rfl | ⟨-, hne⟩
    · exact hR
    · exact absurd hdid hne
  · intro hR
    exact ⟨old, hold, hid.symm, r.contact, Table.mem_commit.2 (Or.inl rfl), rfl, hR⟩

/-! ## The four actions -/

/-- An add tells of someone new where its address was nobody's. -/
lemma applyAdd_tells_iff (h : applyAdd maxContacts drawn t m = .ok r) :
    ((∀ c ∈ t.contacts, c.id ≠ r.contact.id) ∧
        ∃ d ∈ (t.commit r).contacts, d.id = r.contact.id) ↔
      m.newAddress = "" ∨
        ∀ c ∈ t.contacts, c.answers (normalizeAddress m.newAddress) false = false := by
  obtain ⟨haddr, hcases⟩ := applyAdd_cases h
  have hthere : ∃ d ∈ (t.commit r).contacts, d.id = r.contact.id :=
    ⟨r.contact, Table.mem_commit.2 (Or.inl rfl), rfl⟩
  -- Whoever had the address is written over.
  have hover : ∀ old, t.readded (normalizeAddress m.newAddress) = some old →
      r.contact.id = old.contact.id → (¬ ∀ c ∈ t.contacts, c.id ≠ r.contact.id) ∧
        ¬ ∀ c ∈ t.contacts, c.answers (normalizeAddress m.newAddress) false = false := by
    intro old hre hid
    obtain ⟨hmem, hans⟩ := Table.readded_eq_some hre
    refine ⟨fun hfresh => hfresh _ hmem hid.symm, fun hnone => ?_⟩
    have hanswers : old.contact.answers (normalizeAddress m.newAddress) false = true := by
      simpa [Contact.answers] using hans
    rw [hnone _ hmem] at hanswers
    cases hanswers
  rcases hcases with ⟨old, hre, -, hr⟩ | ⟨old, hre, -, hr⟩ | ⟨id, hre, -, hid, hr⟩
  · obtain ⟨hfresh, hnone⟩ := hover old hre (by rw [hr]; rfl)
    exact iff_of_false (fun htold => hfresh htold.1) fun hnew => hnew.elim haddr hnone
  · obtain ⟨hfresh, hnone⟩ := hover old hre (by rw [hr]; rfl)
    exact iff_of_false (fun htold => hfresh htold.1) fun hnew => hnew.elim haddr hnone
  · have hfresh : ∀ c ∈ t.contacts, c.id ≠ r.contact.id := by
      rw [hr]
      exact nextID_unused hid
    exact iff_of_true ⟨hfresh, hthere⟩ (Or.inr (Table.answers_of_readded_eq_none hre))

omit [Runes] in
/-- What is asked of the contact under an id, and there is such a contact, is asked of that one. -/
lemma forall_row_iff {id : String} {old : Contact} (hold : old ∈ t.contacts) (hid : old.id = id)
    {P : Contact → Prop} : (∀ c ∈ t.contacts, c.id = id → P c) ↔ P old := by
  constructor
  · intro hall
    exact hall old hold hid
  · intro hP c hc hcid
    obtain rfl : c = old := t.sorted.eq_of_key_eq hc hold (hcid.trans hid.symm)
    exact hP

/-- The event of a row that is worked out tells a change exactly where there is one to make. -/
lemma tells_iff_changes (h : applyMutation maxContacts drawn t m = .ok r)
    (haction : ev.action = m.action) (hid : ev.contactID = r.contact.id) :
    ev.Tells t (t.commit r) ↔ m.Changes t := by
  unfold Event.Tells Mutation.Changes
  unfold applyMutation at h
  rw [haction, hid]
  cases hact : m.action with
  | add =>
      simp only [hact] at h
      exact applyAdd_tells_iff h
  | deactivate =>
      simp only [hact] at h ⊢
      obtain ⟨old, hold, hkey, hr⟩ := applyDeactivate_spec h
      have hset : r.contact.active = false := by rw [hr]
      rw [Table.turns_commit hold (by rw [hr]), forall_row_iff hold hkey]
      exact and_iff_left hset
  | reactivate =>
      simp only [hact] at h ⊢
      obtain ⟨old, hold, hkey, hr⟩ := applyReactivate_spec h
      have hset : r.contact.active = true := by rw [hr]
      rw [Table.turns_commit hold (by rw [hr]), forall_row_iff hold hkey]
      exact and_iff_left hset
  | readdress =>
      simp only [hact] at h ⊢
      obtain ⟨old, hold, -, hr, -, hne⟩ := applyReaddress_spec h
      rw [Table.turns_commit hold (by rw [hr]; rfl), hr, iff_true]
      exact hne
  | cosmetic => exact Iff.rfl

/-- A mutation with nothing to change is not refused for it. -/
lemma apply_of_not_changes (h : ¬ m.Changes t) :
    m.action ≠ .cosmetic ∧ ∃ r, applyMutation maxContacts drawn t m = .ok r := by
  have hrow : ∀ {c : Contact}, c ∈ t.contacts → c.id = m.contactID →
      ∃ old, t.row? m.contactID = some old := by
    intro c hc hid
    cases hnone : t.row? m.contactID with
    | none => exact absurd hid (Table.ne_of_row?_eq_none hnone c hc)
    | some old => exact ⟨old, rfl⟩
  unfold Mutation.Changes at h
  unfold applyMutation
  cases hact : m.action with
  | add =>
      simp only [hact, not_or, not_forall] at h
      obtain ⟨haddr, c, hc, hans⟩ := h
      refine ⟨by simp, ?_⟩
      cases hre : t.readded (normalizeAddress m.newAddress) with
      | none => exact absurd (Table.answers_of_readded_eq_none hre c hc) hans
      | some old =>
          simp only [applyAdd, ← Mutation.newAddress.eq_1, haddr, if_false, hre]
          split_ifs
          · exact ⟨_, rfl⟩
          · exact ⟨_, rfl⟩
  | deactivate =>
      simp only [hact, not_forall] at h
      obtain ⟨c, hc, hid, -⟩ := h
      obtain ⟨old, hold⟩ := hrow hc hid
      simp only [applyDeactivate, hold]
      exact ⟨by simp, _, rfl⟩
  | reactivate =>
      simp only [hact, not_forall] at h
      obtain ⟨c, hc, hid, -⟩ := h
      obtain ⟨old, hold⟩ := hrow hc hid
      simp only [applyReactivate, hold]
      exact ⟨by simp, _, rfl⟩
  | readdress => simp [hact] at h
  | cosmetic => simp [hact] at h

variable (maxContacts io actor m t)

/-- **An event is true exactly where there was something to change.**  Whatever a call of `Mutate`
returns tells what became of the table, if and only if the call is refused, fails on disk, or has
something to change: an add, an address that no row ever had; a flag change, a contact with the
other flag. -/
theorem event_tells_iff :
    (∀ ev t', mutate maxContacts io actor m t = (.ok ev, t') → ev.action ≠ .cosmetic →
      ev.Tells t t') ↔
      m.aimsAtSystem = true ∨ io.persisted = false ∨ io.logged = false ∨ m.Changes t := by
  constructor
  · intro htells
    by_contra hnot
    simp only [not_or, Bool.not_eq_true, Bool.not_eq_false] at hnot
    obtain ⟨haims, hpersisted, hlogged, hchanges⟩ := hnot
    obtain ⟨hcosmetic, r, hr⟩ :=
      @apply_of_not_changes _ maxContacts m t io.drawn hchanges
    obtain ⟨ev, hev⟩ := @mutate_of_apply _ maxContacts io actor m t r haims hpersisted
      hlogged hr
    obtain ⟨r', hr', -, haction, hid, -⟩ := mutate_eq_ok hev
    obtain rfl := Except.ok.inj (hr.symm.trans hr')
    exact hchanges ((tells_iff_changes hr haction hid).1
      (htells ev _ hev (haction ▸ hcosmetic)))
  · rintro hholds ev t' hev hcosmetic
    obtain ⟨r, hr, rfl, haction, hid, haims, hpersisted, hlogged, -⟩ := mutate_eq_ok hev
    rcases hholds with hrefused | hfailed | hfailed | hchanges
    · rw [haims] at hrefused
      cases hrefused
    · rw [hpersisted] at hfailed
      cases hfailed
    · rw [hlogged (haction ▸ hcosmetic)] at hfailed
      cases hfailed
    · exact (tells_iff_changes hr haction hid).2 hchanges

/-- Every event of a run of changes tells what became of the table. -/
def EventsTell : Prop :=
  ∀ (maxContacts : ℕ) (t₀ t : Table) (changes : List Change),
    Run.run (changeTable maxContacts) t₀ changes = some t →
    ∀ (ch : Change) (ev : Event) (t' : Table),
      mutate maxContacts ch.io ch.actor ch.mutation t = (.ok ev, t') → ev.action ≠ .cosmetic →
      ev.Tells t t'

end Told

namespace Sample

/-- Rosa is closed. -/
def closeRosa : Change where
  io := {}
  actor := "ana"
  mutation := { action := .deactivate, contactID := "c_01" }

end Sample

/-- Closed a second time, Rosa is reported a second time. -/
theorem closed_twice_told_twice : ¬ @EventsTell Sample.runes := by
  intro hclaim
  have heval : ((Run.run (@changeTable Sample.runes 24) (Sample.onlyRosa true)
      [Sample.closeRosa]).any fun t =>
        (@mutate Sample.runes 24 {} "ana" Sample.closeRosa.mutation t).1.toOption.any fun ev =>
          decide (ev.action = .deactivate ∧ ∀ c ∈ t.contacts, c.active = false)) = true := by
    decide +kernel
  obtain ⟨t, hrun, hevals⟩ := Run.exists_of_any heval
  cases hmutate : @mutate Sample.runes 24 {} "ana" Sample.closeRosa.mutation t with
  | mk result t' =>
      cases result with
      | error e =>
          rw [hmutate] at hevals
          cases hevals
      | ok ev =>
          rw [hmutate] at hevals
          obtain ⟨haction, hclosed⟩ := of_decide_eq_true hevals
          have htold := hclaim 24 _ t _ hrun Sample.closeRosa ev t' hmutate (by simp [haction])
          unfold Event.Tells at htold
          rw [haction] at htold
          obtain ⟨c, hc, -, d, -, -, hopen, -⟩ := htold
          rw [hclosed c hc] at hopen
          cases hopen

end Chaskiwasi
