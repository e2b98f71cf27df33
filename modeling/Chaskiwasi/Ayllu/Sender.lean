import Chaskiwasi.Ayllu.History

/-!
# A sender is who the address says

The address a message is attributed by was read from its header by a mail parser, which takes the
quotes off a quoted local part.  Resolution then normalises what it is given, and normalising reads
it once more: it unwraps `Name <addr>`.  An address whose local part holds another address in angle
brackets comes out as that other address.

`bareAddress` is what normalising makes of a text before it lower-cases the domain.  It leaves a
text alone when the text is `Bare`, and shortens it otherwise.  So the bare senders are exactly
the ones that resolve to nobody but a holder of the whole address: for any other there is a
contact list in which the shorter text belongs to somebody.
-/

namespace Chaskiwasi

/-- The text without surrounding white space and a `Name <addr>` wrapper. -/
def bareAddress (s : List Char) : List Char := trimSpace (unwrapAddress (trimSpace s))

/-- The text neither begins nor ends with white space, and no `>` follows its last `<`. -/
def Bare (s : List Char) : Prop :=
  trimSpace s = s ∧ ∀ before after, splitLast '<' s = some (before, after) → '>' ∉ after

/-- The text with its domain, what follows the last `@`, in lower case. -/
def foldDomain [Runes] (s : List Char) : String :=
  match splitLast '@' s with
  | none => String.ofList s
  | some (localPart, domain) => String.ofList (localPart ++ '@' :: domain.map Runes.toLower)

/-! ## What normalising takes away -/

section Texts

variable {s : List Char}

lemma trimSpace_sublist : (trimSpace s).Sublist s := by
  have hinner : (trimLeft (trimLeft s).reverse).Sublist (trimLeft s).reverse :=
    List.dropWhile_sublist _
  have hright : (trimSpace s).Sublist (trimLeft s) := by
    rw [← List.reverse_reverse (trimLeft s)]
    exact hinner.reverse
  exact hright.trans (List.dropWhile_sublist _)

lemma Bare.of_not_mem (htrim : trimSpace s = s) (h : '<' ∉ s) : Bare s := by
  refine ⟨htrim, fun before after hsplit => ?_⟩
  rw [splitLast_eq_none_iff.2 h] at hsplit
  cases hsplit

lemma Bare.unwrapAddress_eq (h : Bare s) : unwrapAddress s = s := by
  unfold unwrapAddress
  cases hsplit : splitLast '<' s with
  | none => rfl
  | some p => simp [h.2 p.1 p.2 hsplit]

lemma Bare.bareAddress_eq (h : Bare s) : bareAddress s = s := by
  rw [bareAddress, h.1, h.unwrapAddress_eq, h.1]

/-- What normalising unwraps holds no further wrapper. -/
lemma bare_bareAddress (s : List Char) : Bare (bareAddress s) := by
  by_cases hbare : Bare (trimSpace s)
  · rw [bareAddress, hbare.unwrapAddress_eq, trimSpace_trimSpace]
    exact hbare
  · refine Bare.of_not_mem (trimSpace_trimSpace _) fun hmem => ?_
    have hmem' : '<' ∈ unwrapAddress (trimSpace s) := trimSpace_sublist.subset hmem
    unfold unwrapAddress at hmem'
    cases hsplit : splitLast '<' (trimSpace s) with
    | none => exact hbare (Bare.of_not_mem (trimSpace_trimSpace _) (splitLast_eq_none_iff.1 hsplit))
    | some p =>
        simp only [hsplit] at hmem'
        split_ifs at hmem' with hgt
        · have hrest := (List.takeWhile_sublist _).subset hmem'
          exact (splitLast_eq_some hsplit).2 hrest
        · apply hbare
          refine ⟨trimSpace_trimSpace _, fun before after h => ?_⟩
          rw [hsplit] at h
          obtain rfl := Option.some.inj h
          exact hgt

/-- Normalising shortens what is not bare. -/
lemma length_bareAddress_lt (h : ¬ Bare s) : (bareAddress s).length < s.length := by
  have htrim : (bareAddress s).length ≤ (unwrapAddress (trimSpace s)).length :=
    trimSpace_sublist.length_le
  have hinner : (trimSpace s).length ≤ s.length := trimSpace_sublist.length_le
  by_cases heq : trimSpace s = s
  · rw [heq] at htrim
    obtain ⟨before, after, hsplit, hgt⟩ : ∃ before after,
        splitLast '<' s = some (before, after) ∧ '>' ∈ after := by
      by_contra hnone
      refine h ⟨heq, fun before after hsplit hgt => hnone ⟨before, after, hsplit, hgt⟩⟩
    have hrest : unwrapAddress s = after.takeWhile (· ≠ '>') := by
      simp [unwrapAddress, hsplit, hgt]
    have htake : (after.takeWhile (· ≠ '>')).length ≤ after.length :=
      (List.takeWhile_sublist _).length_le
    have hlen := congrArg List.length (splitLast_eq_some hsplit).1
    rw [List.length_append, List.length_cons] at hlen
    rw [hrest] at htrim
    omega
  · have hlt : (trimSpace s).length < s.length :=
      lt_of_le_of_ne hinner fun hlen => heq (trimSpace_sublist.eq_of_length hlen)
    have hunwrap : (unwrapAddress (trimSpace s)).length ≤ (trimSpace s).length := by
      unfold unwrapAddress
      cases hsplit : splitLast '<' (trimSpace s) with
      | none => exact le_refl _
      | some p =>
          have hlen := congrArg List.length (splitLast_eq_some hsplit).1
          rw [List.length_append, List.length_cons] at hlen
          show (if '>' ∈ p.2 then p.2.takeWhile (· ≠ '>') else trimSpace s).length ≤ _
          split_ifs
          · have htake := (List.takeWhile_sublist (p := (· ≠ '>')) (l := p.2)).length_le
            omega
          · exact le_refl _
    omega

end Texts

section Senders

variable [Runes] {s : List Char} {t : Table} {c : Contact} {addr : String} {activeOnly : Bool}

lemma normalizeAddress_eq (addr : String) :
    normalizeAddress addr = foldDomain (bareAddress addr.toList) := by
  have hbare : trimSpace (unwrapAddress (trimSpace addr.toList)) = bareAddress addr.toList := rfl
  cases hsplit : splitLast '@' (bareAddress addr.toList) with
  | none => simp only [normalizeAddress, foldDomain, hbare, hsplit]
  | some p => simp only [normalizeAddress, foldDomain, hbare, hsplit]

lemma length_foldDomain (s : List Char) : (foldDomain s).toList.length = s.length := by
  unfold foldDomain
  cases hsplit : splitLast '@' s with
  | none => rw [String.toList_ofList]
  | some p =>
      have hlen := congrArg List.length (splitLast_eq_some hsplit).1
      simp only [String.toList_ofList, List.length_append, List.length_cons, List.length_map]
        at hlen ⊢
      omega

lemma normalizeAddress_bareAddress (addr : String) :
    normalizeAddress (String.ofList (bareAddress addr.toList)) = normalizeAddress addr := by
  rw [normalizeAddress_eq, normalizeAddress_eq, String.toList_ofList,
    (bare_bareAddress _).bareAddress_eq]

/-- A text that is not bare is never, as a whole, what it is normalised to. -/
lemma foldDomain_ne_normalizeAddress (h : ¬ Bare addr.toList) :
    foldDomain addr.toList ≠ normalizeAddress addr := by
  intro heq
  have hlen := congrArg (fun x => x.toList.length) heq
  simp only [normalizeAddress_eq, length_foldDomain] at hlen
  have hlt := length_bareAddress_lt h
  omega

/-! ## Whom a sender resolves to -/

/-- The address as a whole is one of the contact's, the domain compared without case. -/
def Contact.IsWhole (c : Contact) (addr : String) : Prop :=
  ∃ a ∈ c.addresses, foldDomain addr.toList = normalizeAddress a

/-- Whatever resolves, one of the contact's addresses has the same normal form. -/
lemma Table.address_of_resolveLocked (h : t.resolveLocked addr activeOnly = some c) :
    ∃ a ∈ c.addresses, normalizeAddress a = normalizeAddress addr := by
  by_cases hsys : IsSystem addr
  · rw [resolveLocked_of_isSystem hsys] at h
    obtain rfl := Option.some.inj h
    exact ⟨systemAddress, List.mem_cons_self .., hsys.symm⟩
  · have hans := (mem_of_resolveLocked hsys h).2
    cases activeOnly with
    | false => exact Contact.answers_iff_addresses.1 hans
    | true =>
        simp only [Contact.answers, if_true, Bool.and_eq_true, decide_eq_true_eq] at hans
        exact ⟨c.address, List.mem_cons_self .., hans.2⟩

lemma Bare.isWhole_of_resolveLocked (hbare : Bare addr.toList)
    (h : t.resolveLocked addr activeOnly = some c) : c.IsWhole addr := by
  obtain ⟨a, ha, heq⟩ := Table.address_of_resolveLocked h
  refine ⟨a, ha, ?_⟩
  rw [heq, normalizeAddress_eq, hbare.bareAddress_eq]

/-- A contact is added under an address. -/
def addsAddress (addr : String) : Change where
  io := { drawn := [some "c_01"] }
  actor := "ana"
  mutation := { action := .add, name := "Rosa", address := addr }

/-- Where an address is trimmed, names somebody and is not the system's, a contact can have it, and
then answers to whatever has its normal form. -/
lemma exists_resolve_of_normalizeAddress {a : String} (hsys : ¬ IsSystem addr)
    (htrim : trimSpace a.toList = a.toList) (hne : a ≠ "")
    (hnorm : normalizeAddress a = normalizeAddress addr) : ∃ t c,
      Run.run (changeTable 1) Sample.noContacts [addsAddress a] = some t ∧
        t.resolve addr = some c ∧ c.addresses = [a] := by
  have hnew : String.ofList (trimSpace a.toList) = a := by
    rw [htrim, String.ofList_toList]
  have haims : (addsAddress a).mutation.aimsAtSystem = false := by
    have hsys' : ¬ IsSystem a := fun h => hsys (hnorm.symm.trans h)
    simp [Mutation.aimsAtSystem, addsAddress, hsys', sysContactID]
  have hid : "c_01" ≠ sysContactID := by decide
  let r : Row := ⟨{ id := "c_01", name := "Rosa", address := a, active := true }, hid⟩
  have happly :
      applyMutation 1 [some "c_01"] Sample.noContacts (addsAddress a).mutation = .ok r := by
    unfold applyMutation addsAddress applyAdd
    simp only [hnew, hne, if_false]
    rfl
  have hmutate : changeTable 1 Sample.noContacts (addsAddress a) =
      some (Sample.noContacts.commit r) := by
    unfold changeTable mutate
    rw [haims]
    simp only [Bool.false_eq_true, if_false]
    rw [show (addsAddress a).io.drawn = [some "c_01"] from rfl, happly]
    rfl
  refine ⟨Sample.noContacts.commit r, r.contact, ?_, ?_, rfl⟩
  · rw [Run.run, hmutate]
    rfl
  · have hans : r.contact.answers (normalizeAddress addr) false = true :=
      Contact.answers_iff_addresses.2 ⟨a, List.mem_cons_self .., hnorm⟩
    rw [Table.resolve, Table.resolveLocked, if_neg hsys]
    show [r.contact].find? (fun c => c.answers (normalizeAddress addr) false) = some r.contact
    rw [List.find?_cons, hans]

/-- For a text that is not bare there is a contact list in which it resolves to a contact who does
not have it. -/
lemma exists_resolve_not_isWhole (h : ¬ Bare addr.toList) : ∃ (changes : List Change) (t : Table)
    (c : Contact), Run.run (changeTable 1) Sample.noContacts changes = some t ∧
      t.resolve addr = some c ∧ ¬ c.IsWhole addr := by
  have hne := foldDomain_ne_normalizeAddress h
  by_cases hsys : IsSystem addr
  · refine ⟨[], _, sysContact, rfl, Table.resolveLocked_of_isSystem hsys, ?_⟩
    rintro ⟨a, ha, heq⟩
    obtain rfl := List.mem_singleton.1 ha
    exact hne (heq.trans hsys.symm)
  · have hgives : ∀ a : String, trimSpace a.toList = a.toList → a ≠ "" →
        normalizeAddress a = normalizeAddress addr → ∃ (changes : List Change) (t : Table)
          (c : Contact), Run.run (changeTable 1) Sample.noContacts changes = some t ∧
            t.resolve addr = some c ∧ ¬ c.IsWhole addr := by
      intro a htrim ha hnorm
      obtain ⟨t, c, hrun, hres, hc⟩ := exists_resolve_of_normalizeAddress hsys htrim ha hnorm
      refine ⟨_, t, c, hrun, hres, ?_⟩
      rintro ⟨b, hb, heq⟩
      rw [hc, List.mem_singleton] at hb
      rw [hb, hnorm] at heq
      exact hne heq
    by_cases hempty : bareAddress addr.toList = []
    · -- Nothing is left of the text, as of a wrapper around nothing.
      have hwrapper : bareAddress "<>".toList = [] := by decide +kernel
      refine hgives "<>" (by decide +kernel) (by decide) ?_
      rw [normalizeAddress_eq, normalizeAddress_eq, hempty, hwrapper]
    · refine hgives (String.ofList (bareAddress addr.toList)) ?_ ?_
        (normalizeAddress_bareAddress addr)
      · rw [String.toList_ofList]
        exact (bare_bareAddress _).1
      · intro heq
        exact hempty (by simpa using congrArg String.toList heq)

/-- Whatever contact list is reached, an address resolves only to a contact who has the whole of
it. -/
def WholeSender (addr : String) : Prop :=
  ∀ (maxContacts : ℕ) (changes : List Change) (t : Table),
    Run.run (changeTable maxContacts) Sample.noContacts changes = some t →
    ∀ c, t.resolve addr = some c ∨ t.resolveActive addr = some c → c.IsWhole addr

/-- **The senders that are who the address says** are the bare ones: in every contact list that can
be reached, whatever either resolution answers has the whole address, exactly when the address
neither begins nor ends with white space and no `>` follows its last `<`. -/
theorem wholeSender_iff_bare (addr : String) : WholeSender addr ↔ Bare addr.toList := by
  constructor
  · intro hwhole
    by_contra hbare
    obtain ⟨changes, t, c, hrun, hres, hnot⟩ := exists_resolve_not_isWhole hbare
    exact hnot (hwhole 1 changes t hrun c (Or.inl hres))
  · intro hbare maxContacts changes t hrun c hres
    rcases hres with hres | hres
    · exact hbare.isWhole_of_resolveLocked hres
    · exact hbare.isWhole_of_resolveLocked hres

end Senders

/-- Somebody at another host writes as Rosa, by quoting her address in the local part. -/
theorem quoted_sender_is_rosa : ¬ @WholeSender Sample.runes "<rosa@x>@evil.test" := by
  intro hclaim
  have heval : ((Run.run (@changeTable Sample.runes 24) Sample.noContacts
      [Sample.adds "c_b" "Rosa" "rosa@x"]).any fun t =>
        (@Table.resolveActive Sample.runes t "<rosa@x>@evil.test").any fun c =>
          c.addresses.all fun a =>
            @foldDomain Sample.runes "<rosa@x>@evil.test".toList ≠
              @normalizeAddress Sample.runes a) = true := by
    decide +kernel
  obtain ⟨t, hrun, hany⟩ := Run.exists_of_any heval
  obtain ⟨c, hres, hall⟩ := (Option.any_eq_true _ _).1 hany
  obtain ⟨a, ha, heq⟩ := hclaim 24 _ t hrun c (Or.inr hres)
  exact of_decide_eq_true (List.all_eq_true.1 hall a ha) heq

end Chaskiwasi
