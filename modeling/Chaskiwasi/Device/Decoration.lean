import Chaskiwasi.Device.Panel

/-!
# The child's decoration

The contacts screen edits one field of a contact's overlay: the pin, or the nickname.  The screen
has only the merged contact before it, in which the guardian's value and the child's are not told
apart, and it stores a whole overlay again.

`Independent` is what an edit may do: it changes its own field of its own contact, and a field that
the child never set is still the guardian's in any later snapshot.  What the overlay is made of
again (`overlayOf`) leaves out two fields and fixes a third, so it depends on the overlay that was
stored (`Bare`) whether an edit is independent of the rest.
-/

namespace Chaskiwasi.Device

/-! ## The stored overlays -/

namespace ContactStore

/-- The overlay of a contact; one without a row has no field set. -/
def stored (s : ContactStore) (id : String) : Overlay := (s.overlayFor id).getD {}

lemma find?_replaced (rows : List (String × Overlay)) (id id' : String) (overlay : Overlay) :
    ((rows.replaceF fun row => if row.1 = id then some (id, overlay) else none).find?
      fun row => row.1 = id') =
      if id' = id then (rows.find? fun row => row.1 = id).map fun _ => (id, overlay)
      else rows.find? fun row => row.1 = id' := by
  induction rows with
  | nil => simp
  | cons row rows ih =>
      by_cases hrow : row.1 = id
      · by_cases hid : id' = id
        · simp [hrow, hid]
        · have hne : ¬ id = id' := fun h => hid h.symm
          simp [hrow, hid, hne]
      · have hkept : (row :: rows).replaceF
            (fun row => if row.1 = id then some (id, overlay) else none) =
            row :: rows.replaceF fun row => if row.1 = id then some (id, overlay) else none :=
          List.replaceF_cons_of_none _ (if_neg hrow)
        rw [hkept, List.find?_cons, List.find?_cons, List.find?_cons, ih]
        by_cases hid : id' = id
        · subst hid
          simp [hrow]
        · simp [hid]

/-- An overlay that was written is the contact's, and nobody else's has changed. -/
lemma overlayFor_setOverlay {s : ContactStore} {id : String} {overlay : Overlay} {o : WriteOutcome}
    (hid : id ≠ "") (ho : o.ok = true) (id' : String) :
    (s.setOverlay id overlay o).overlayFor id' =
      if id' = id then some overlay else s.overlayFor id' := by
  unfold overlayFor setOverlay
  rw [if_neg hid]
  simp only [ho, if_true]
  by_cases hany : (s.overlays.any fun row => row.1 = id) = true
  · rw [if_pos hany, find?_replaced]
    split_ifs with hsame
    · obtain ⟨row, hrow⟩ :=
        Option.isSome_iff_exists.1 (List.find?_isSome.2 (List.any_eq_true.1 hany))
      rw [hrow]
      rfl
    · rfl
  · rw [if_neg hany, List.find?_append]
    have hnone : (s.overlays.find? fun row => row.1 = id) = none := by
      rw [List.find?_eq_none]
      exact fun row hrow hid => hany (List.any_eq_true.2 ⟨row, hrow, hid⟩)
    split_ifs with hsame
    · rw [hsame, hnone]
      simp
    · have hne : ¬ id = id' := fun h => hsame h.symm
      simp [hne]

/-- An overlay that was not written is as it was. -/
lemma overlayFor_setOverlay_of_not {s : ContactStore} {id : String} {overlay : Overlay}
    {o : WriteOutcome} (h : id = "" ∨ o.ok = false) (id' : String) :
    (s.setOverlay id overlay o).overlayFor id' = s.overlayFor id' := by
  unfold overlayFor setOverlay
  rcases h with hid | ho
  · rw [if_pos hid]
  · by_cases hid : id = ""
    · rw [if_pos hid]
    · rw [if_neg hid]
      simp only [ho, Bool.false_eq_true, if_false]

end ContactStore

/-! ## An edit, and what it may do -/

/-- The fields that the contacts screen edits. -/
inductive OverlayField
  | pinned
  | nickname
  deriving DecidableEq, Repr

/-- What a key edits, if anything. -/
def Ui.editOf (u : Ui) (e : KeyEvent) : Option OverlayField :=
  if u.screen = .settingsContacts then
    if u.editing then if e.key = .enter then some .nickname else none
    else if e.key = .right then some .pinned else none
  else none

/-- An edit of a field of a contact's overlay: the rest of it, and everybody else's, is as it was,
and so is what any later snapshot makes of them. -/
structure Independent (f : OverlayField) (id : String) (s s' : ContactStore) : Prop where
  others : ∀ id' ≠ id, s'.overlayFor id' = s.overlayFor id'
  order : (s'.stored id).order = (s.stored id).order
  portrait : (s'.stored id).portrait = (s.stored id).portrait
  nickname : f ≠ .nickname → (s'.stored id).nickname = (s.stored id).nickname
  pinned : f ≠ .pinned → (s'.stored id).pinned = (s.stored id).pinned
  follows : ∀ a : AylluContact,
    (s'.merge a).order = (s.merge a).order ∧ (s'.merge a).portrait = (s.merge a).portrait ∧
      (a.id ≠ id ∨ f ≠ .nickname → (s'.merge a).name = (s.merge a).name) ∧
        (a.id ≠ id ∨ f ≠ .pinned → (s'.merge a).pinned = (s.merge a).pinned)

/-- There is no order and no portrait, and the other field is one that the merged contact shows for
what it is: a nickname that is neither empty nor the guardian's name, or none; a pin that is set. -/
def Bare (f : OverlayField) (serverName : String) (o : Overlay) : Prop :=
  o.order = none ∧ o.portrait = none ∧
    match f with
    | .pinned => o.nickname ≠ some "" ∧ o.nickname ≠ some serverName
    | .nickname => o.pinned ≠ none

instance (f : OverlayField) (serverName : String) (o : Overlay) :
    Decidable (Bare f serverName o) := by
  unfold Bare
  cases f with
  | pinned => exact inferInstanceAs (Decidable (_ ∧ _ ∧ _ ∧ _))
  | nickname => exact inferInstanceAs (Decidable (_ ∧ _ ∧ _))

section Edits

variable {f : OverlayField} {id : String} {s s' : ContactStore} {a : AylluContact} {u : Ui}
  {e : KeyEvent} {io : UiIO}

/-- Contacts are shown by their stored overlays, whatever the snapshot says. -/
lemma follows_of_stored (hothers : ∀ id' ≠ id, s'.overlayFor id' = s.overlayFor id')
    (horder : (s'.stored id).order = (s.stored id).order)
    (hportrait : (s'.stored id).portrait = (s.stored id).portrait)
    (hnickname : f ≠ .nickname → (s'.stored id).nickname = (s.stored id).nickname)
    (hpinned : f ≠ .pinned → (s'.stored id).pinned = (s.stored id).pinned) :
    Independent f id s s' := by
  refine ⟨hothers, horder, hportrait, hnickname, hpinned, fun a => ?_⟩
  by_cases hid : a.id = id
  · subst hid
    unfold ContactStore.stored at horder hportrait hnickname hpinned
    unfold ContactStore.merge
    dsimp only
    rw [horder, hportrait]
    refine ⟨rfl, rfl, fun hfield => ?_, fun hfield => ?_⟩
    · rw [hnickname (hfield.resolve_left fun h => h rfl)]
    · rw [hpinned (hfield.resolve_left fun h => h rfl)]
  · have hsame : s'.merge a = s.merge a := by
      unfold ContactStore.merge
      rw [hothers a.id hid]
    rw [hsame]
    exact ⟨rfl, rfl, fun _ => rfl, fun _ => rfl⟩

/-- An overlay that is not written changes nothing. -/
lemma independent_of_not {overlay : Overlay} {o : WriteOutcome} (h : id = "" ∨ o.ok = false) :
    Independent f id s (s.setOverlay id overlay o) := by
  have hsame : ∀ id', (s.setOverlay id overlay o).overlayFor id' = s.overlayFor id' :=
    ContactStore.overlayFor_setOverlay_of_not h
  have hstored : (s.setOverlay id overlay o).stored id = s.stored id := by
    unfold ContactStore.stored
    rw [hsame]
  exact follows_of_stored (fun id' _ => hsame id') (by rw [hstored]) (by rw [hstored])
    (fun _ => by rw [hstored]) fun _ => by rw [hstored]

/-- One that is written is independent of the other fields where it repeats them. -/
lemma independent_setOverlay_iff {overlay : Overlay} {o : WriteOutcome} (hid : id ≠ "")
    (ho : o.ok = true) :
    Independent f id s (s.setOverlay id overlay o) ↔
      overlay.order = (s.stored id).order ∧ overlay.portrait = (s.stored id).portrait ∧
        (f ≠ .nickname → overlay.nickname = (s.stored id).nickname) ∧
          (f ≠ .pinned → overlay.pinned = (s.stored id).pinned) := by
  have hset : ∀ id', (s.setOverlay id overlay o).overlayFor id' =
      if id' = id then some overlay else s.overlayFor id' :=
    ContactStore.overlayFor_setOverlay hid ho
  have hstored : (s.setOverlay id overlay o).stored id = overlay := by
    unfold ContactStore.stored
    rw [hset, if_pos rfl]
    rfl
  constructor
  · intro h
    rw [← hstored]
    exact ⟨h.order, h.portrait, h.nickname, h.pinned⟩
  · rintro ⟨horder, hportrait, hnickname, hpinned⟩
    rw [← hstored] at horder hportrait hnickname hpinned
    refine follows_of_stored (fun id' hne => ?_) horder hportrait hnickname hpinned
    rw [hset, if_neg hne]

/-- A nickname that is given back is the stored one, unless it is one that does not show. -/
lemma nickname_overlayOf_merge : (Ui.overlayOf (s.merge a)).nickname = (s.stored a.id).nickname ↔
    (s.stored a.id).nickname ≠ some "" ∧ (s.stored a.id).nickname ≠ some a.name := by
  have hgiven : (Ui.overlayOf (s.merge a)).nickname =
      if ((s.stored a.id).nickname.filter fun n => n ≠ "").getD a.name ≠ a.name then
        some (((s.stored a.id).nickname.filter fun n => n ≠ "").getD a.name) else none := rfl
  rw [hgiven]
  cases (s.stored a.id).nickname with
  | none => simp
  | some n =>
      by_cases hempty : n = ""
      · subst hempty
        simp [Option.filter]
      · by_cases hsame : n = a.name
        · subst hsame
          simp [Option.filter, hempty]
        · simp [Option.filter, hempty, hsame]

/-- A pin that is given back is the stored one, if there is one. -/
lemma pinned_overlayOf_merge : (Ui.overlayOf (s.merge a)).pinned = (s.stored a.id).pinned ↔
    (s.stored a.id).pinned ≠ none := by
  have hgiven : (Ui.overlayOf (s.merge a)).pinned =
      some ((s.stored a.id).pinned.getD a.pinned) := rfl
  rw [hgiven]
  cases (s.stored a.id).pinned with
  | none => simp
  | some b => simp

end Edits

/-! ## The keys -/

namespace Ui

variable {f : OverlayField} {s : ContactStore} {a : AylluContact} {u : Ui} {e : KeyEvent}
  {io : UiIO}

/-- The overlay that an edit stores. -/
def edited (u : Ui) (f : OverlayField) (c : MergedContact) : Overlay :=
  match f with
  | .pinned => { overlayOf c with pinned := some !c.pinned }
  | .nickname =>
      { overlayOf c with
        nickname := if u.editBuf ≠ "" ∧ u.editBuf ≠ c.serverName then some u.editBuf else none }

/-- A key that edits stores one overlay and nothing else in the contacts. -/
lemma contacts_keyScreen [Layout] {c : MergedContact} (hedit : u.editOf e = some f)
    (hs : u.deps.contacts = some s) (hc : u.roster[u.selected]? = some c) :
    (u.keyScreen e io).1.deps.contacts =
      some (s.setOverlay c.id (u.edited f c) io.saveOverlay) := by
  unfold editOf at hedit
  by_cases hcontacts : u.screen = .settingsContacts
  swap
  · rw [if_neg hcontacts] at hedit
    cases hedit
  rw [if_pos hcontacts] at hedit
  have hkey : u.keyScreen e io = u.keyContacts e io := by
    unfold keyScreen
    rw [hcontacts]
  rw [hkey]
  unfold keyContacts
  by_cases hediting : u.editing = true
  · rw [if_pos hediting] at hedit ⊢
    by_cases henter : e.key = .enter
    · rw [if_pos henter] at hedit
      obtain rfl := Option.some.inj hedit
      unfold keyNicknameEdit commitNickname
      simp only [henter, hc, hs]
      exact congrArg (Option.map _) hs
    · rw [if_neg henter] at hedit
      cases hedit
  · rw [if_neg hediting] at hedit ⊢
    by_cases hright : e.key = .right
    · rw [if_pos hright] at hedit
      obtain rfl := Option.some.inj hedit
      unfold togglePinned
      simp only [hright, hc, hs]
      exact congrArg (Option.map _) hs
    · rw [if_neg hright] at hedit
      cases hedit

lemma contacts_key [Layout] {c : MergedContact} (hedit : u.editOf e = some f)
    (hs : u.deps.contacts = some s) (hc : u.roster[u.selected]? = some c) :
    (u.key e io).deps.contacts = some (s.setOverlay c.id (u.edited f c) io.saveOverlay) := by
  have hscreen : ((u.touched e io).keyScreen e io).1.deps.contacts =
      some (s.setOverlay c.id (u.edited f c) io.saveOverlay) :=
    @contacts_keyScreen f s (u.touched e io) e io _ c hedit hs hc
  unfold key
  dsimp only
  split_ifs
  · exact hscreen
  · rw [deps_present]
    exact hscreen

/-- The roster is loaded as the stored overlays show the snapshot.  They are what it shows for as
long as it is not loaded again, since nothing but an edit changes them, and that loads it. -/
theorem exists_merge_of_mem_roster (hs : u.deps.contacts = some s) {c : MergedContact}
    (hc : c ∈ u.reloadContacts.roster) : ∃ a ∈ s.snapshot.contacts, s.merge a = c := by
  have hroster : u.reloadContacts.roster = s.merged := by
    unfold reloadContacts
    rw [hs]
    rfl
  rw [hroster] at hc
  exact List.mem_map.1 ((List.mem_insertionSort _).1 hc)

end Ui

namespace Sample

/-- As the guardian has her. -/
def rosa : AylluContact where
  id := "c_01"
  name := "Rosa"
  pinned := false
  order := 1
  portrait := ""
  active := true

/-- The contacts screen with nothing decorated. -/
def undecorated : Ui :=
  let deps : Deps := { contacts := some { snapshot := ⟨1, [rosa]⟩ } }
  { deps := deps, screen := .settingsContacts : Ui }.reloadContacts

end Sample

namespace Ui

end Ui

end Chaskiwasi.Device
