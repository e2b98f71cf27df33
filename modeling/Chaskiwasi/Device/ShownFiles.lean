import Chaskiwasi.Device.Shown

/-!
# What the other stores show

The seen ring is one file that is appended to, and takes an id into memory before it writes.  The
sync state, the contact snapshot, the settings and the child's decoration are each one file that is
replaced as a whole.  Memory keeps the old value, or goes back to it, where the write returned
false, so a call is told from one that did nothing only where the file was replaced after all.
-/

namespace Chaskiwasi.Device

/-! ## The letters seen -/

namespace FileSeenRing

structure View where
  contains : String → Bool
  capacity : ℕ

def view (s : FileSeenRing) : View := ⟨s.contains, s.capacity⟩

variable {s : FileSeenRing} {id : String} {o : WriteOutcome}

lemma Exact.view_opened (h : s.Exact) (o : WriteOutcome) : (s.opened o).view = s.view := by
  have hring := (h.opened (o := o)).2
  have hcontains : (s.opened o).contains = s.contains := by
    funext id
    rw [contains, contains, hring]
  rw [view, view, hcontains, capacity_opened]

/-- Where `Add` takes an id into memory, the write succeeds. -/
def AddSafe (s : FileSeenRing) (id : String) (o : WriteOutcome) : Prop :=
  nameIsSafe id = true → s.contains id = false → o.ok = true

lemma add_failed (hsafe : s.AddSafe id o) (hfalse : (s.add id o).2 = false) :
    (s.add id o).1 = s := by
  cases hname : nameIsSafe id with
  | false => rw [add_of_refused hname]
  | true =>
      cases hnew : s.contains id with
      | true => rw [add_of_known hname hnew]
      | false =>
          rw [(ring_add hname hnew o).2.2, hsafe hname hnew] at hfalse
          cases hfalse

lemma Exact.add_of_addSafe (h : s.Exact) (hsafe : s.AddSafe id o) : (s.add id o).1.Exact := by
  cases o with
  | done => exact (h.add id).1
  | unchanged | replaced =>
      cases hname : nameIsSafe id with
      | false =>
          rw [add_of_refused hname]
          exact h
      | true =>
          cases hnew : s.contains id with
          | true =>
              rw [add_of_known hname hnew]
              exact h
          | false => cases hsafe hname hnew

theorem Exact.add_unchanged_iff (h : s.Exact) (hfalse : (s.add id o).2 = false) :
    Unchanged view (fun o s => s.opened o) s (s.add id o).1 ↔ s.AddSafe id o := by
  constructor
  · rintro ⟨hview, -⟩ hname hnew
    have hcontains : (s.add id o).1.contains id = s.contains id :=
      congrFun (congrArg View.contains hview) id
    have hmem : id ∈ (s.add id o).1.ring := by
      rw [(ring_add hname hnew o).1, taken_eq h.length_le]
      exact Ring.mem_push_self (lt_of_lt_of_le (by decide) s.minSeenIDs_le) _ _
    rw [hnew, contains, List.contains_eq_mem, decide_eq_false_iff_not] at hcontains
    exact absurd hmem hcontains
  · intro hsafe
    rw [add_failed hsafe hfalse]
    exact ⟨rfl, fun o => h.view_opened o⟩

end FileSeenRing

/-! ## One file -/

namespace Mirrored

variable {α : Type} {s : Mirrored α} {next : α} {o : WriteOutcome}

/-- Where the write fails after the rename, the file held the value already. -/
def CommitSafe (s : Mirrored α) (next : α) (o : WriteOutcome) : Prop :=
  o = .replaced → next = s.held

lemma commit_file_eq_held (h : s.file = s.held) (hsafe : s.CommitSafe next o) :
    (s.commit next o).1.file = (s.commit next o).1.held := by
  cases o with
  | done => rfl
  | unchanged => exact h
  | replaced => exact hsafe rfl

/-- A value that is shown through `v`, and of which a boot makes `norm`. -/
lemma commit_unchanged_iff {ν : Type} (v : α → ν) (norm : α → α) (h : norm s.file = s.held)
    (hfalse : (s.commit next o).2 = false) :
    Unchanged (fun s => v s.held) (fun _ s => ⟨s.file, norm s.file⟩) s
      (s.commit next o).1 ↔ (o = .replaced → v (norm next) = v s.held) := by
  constructor
  · rintro ⟨-, hopened⟩ rfl
    exact hopened .done
  · intro hsafe
    cases o with
    | done => cases hfalse
    | unchanged => exact ⟨rfl, fun _ => congrArg v h⟩
    | replaced => exact ⟨rfl, fun _ => hsafe rfl⟩

end Mirrored

namespace FileStateStore

/-- The state, and the number of the last local id, which is read from its file each time. -/
def snapshot (s : FileStateStore) (counter : ℕ) : SyncState × ℕ := (s.held, parseCounter counter)

theorem commit_unchanged_iff {s : FileStateStore} {next : SyncState} {o : WriteOutcome}
    (h : s.file = s.held) (hfalse : (s.commit next o).2 = false) (counter : ℕ) :
    Unchanged (fun s => snapshot s counter) (fun _ => opened) s (s.commit next o).1 ↔
      s.CommitSafe next o := by
  refine (Mirrored.commit_unchanged_iff (fun held => (held, parseCounter counter)) id h
    hfalse).trans (forall_congr' fun _ => ?_)
  rw [Prod.mk.injEq]
  exact and_iff_left rfl

end FileStateStore

namespace FileSettingsStore

variable (s : FileSettingsStore)

def setFontStep (step : ℤ) (o : WriteOutcome) : FileSettingsStore × Bool :=
  s.commit { s.held with fontStep := step }.sanitise o

def setFrontlightStep (step : ℤ) (o : WriteOutcome) : FileSettingsStore × Bool :=
  s.commit { s.held with frontlightStep := step }.sanitise o

def setPinEnabled (enabled : Bool) (o : WriteOutcome) : FileSettingsStore × Bool :=
  s.commit { s.held with pinEnabled := enabled }.sanitise o

/-- The file is what is held, and within the bounds. -/
structure Sound : Prop where
  file : s.file = s.held
  bounded : s.held.sanitise = s.held

variable {s} {next : StoredSettings} {o : WriteOutcome}

lemma Sound.opened (h : Sound s) : Sound s.opened := by
  have hload : s.file.sanitise = s.held := by rw [h.file, h.bounded]
  refine ⟨h.file.trans hload.symm, ?_⟩
  exact s.file.sanitise_sanitise

lemma Sound.commit (h : Sound s) (hsafe : s.CommitSafe next.sanitise o) :
    Sound (s.commit next.sanitise o).1 := by
  refine ⟨Mirrored.commit_file_eq_held h.file hsafe, ?_⟩
  simp only [Mirrored.commit]
  split_ifs
  · exact next.sanitise_sanitise
  · exact h.bounded

theorem Sound.commit_unchanged_iff (h : Sound s)
    (hfalse : (s.commit next.sanitise o).2 = false) :
    Unchanged Mirrored.held (fun _ => FileSettingsStore.opened) s (s.commit next.sanitise o).1 ↔
      s.CommitSafe next.sanitise o := by
  have hload : s.file.sanitise = s.held := by rw [h.file, h.bounded]
  refine (Mirrored.commit_unchanged_iff id StoredSettings.sanitise hload hfalse).trans
    (forall_congr' fun _ => ?_)
  rw [next.sanitise_sanitise]
  rfl

end FileSettingsStore

/-! ## The contacts -/

/-- The child's decoration, row by row. -/
abbrev OverlayRows := List (String × Overlay)

/-- The contact store with its two files. -/
structure FileStore where
  snapshot : FileSnapshot
  overlays : Mirrored OverlayRows
  deriving DecidableEq, Repr

namespace FileStore

def opened (s : FileStore) : FileStore :=
  { snapshot := s.snapshot.opened, overlays := { s.overlays with held := s.overlays.file } }

def applySnapshot (s : FileStore) (a : Ayllu) (o : WriteOutcome) : FileStore × Bool :=
  let (snapshot, ok) := s.snapshot.applySnapshot a o
  ({ s with snapshot }, ok)

/-- The rows with one contact's replaced or added. -/
def setRow (rows : OverlayRows) (id : String) (overlay : Overlay) : OverlayRows :=
  if rows.any fun row => row.1 = id then
    rows.replaceF fun row => if row.1 = id then some (id, overlay) else none
  else rows ++ [(id, overlay)]

/-- Replaces or adds one contact's decoration, and takes it back where the write fails. -/
def setOverlay (s : FileStore) (id : String) (overlay : Overlay) (o : WriteOutcome) :
    FileStore × Bool :=
  if id = "" then (s, false)
  else
    let (overlays, ok) := s.overlays.commit (setRow s.overlays.held id overlay) o
    ({ s with overlays }, ok)

/-- Removes one contact's decoration; where the write fails it is put back, behind the others. -/
def clearOverlay (s : FileStore) (id : String) (o : WriteOutcome) : FileStore × Bool :=
  match s.overlays.held.find? fun row => row.1 = id with
  | none => (s, true)
  | some row =>
      let rows := s.overlays.held.eraseP fun row => row.1 = id
      ({ s with
         overlays :=
           { file := if o.written then rows else s.overlays.file
             held := if o.ok then rows else rows ++ [row] } }, o.ok)

/-- The store behind the screens. -/
def contacts (s : FileStore) : ContactStore :=
  ⟨s.snapshot.held, s.overlays.held, s.overlays.file⟩

structure View where
  version : ℕ
  merged : List MergedContact
  composable : List MergedContact
  lookup : String → MergedContact × Bool

/-- What is shown of a snapshot under the child's decoration. -/
def viewOf (a : Ayllu) (rows : OverlayRows) : View :=
  let s : ContactStore := ⟨a, rows, rows⟩
  ⟨a.version, s.merged, s.composable, s.lookup⟩

def view (s : FileStore) : View := viewOf s.snapshot.held s.overlays.held

/-- Memory has what the files have; the rows may stand in another order. -/
structure Sound (s : FileStore) : Prop where
  snapshot : s.snapshot.file = s.snapshot.held
  overlays : s.overlays.held.Perm s.overlays.file
  nodup : (s.overlays.held.map Prod.fst).Nodup

variable {s : FileStore} {a : Ayllu} {rows rows' : OverlayRows} {id : String} {overlay : Overlay}
  {o : WriteOutcome} {row : String × Overlay}

/-- With one row for each id, their order does not show. -/
lemma viewOf_perm (hnodup : (rows.map Prod.fst).Nodup) (hperm : rows.Perm rows') (a : Ayllu) :
    viewOf a rows = viewOf a rows' := by
  have hfind : ∀ id, (rows.find? fun row => row.1 = id) = rows'.find? fun row => row.1 = id := by
    intro id
    ext row
    rw [Keyed.find?_eq_some_iff hnodup,
      Keyed.find?_eq_some_iff ((hperm.map Prod.fst).nodup_iff.1 hnodup), hperm.mem_iff]
  have hmerge : (⟨a, rows, rows⟩ : ContactStore).merge =
      (⟨a, rows', rows'⟩ : ContactStore).merge := by
    funext c
    simp only [ContactStore.merge, ContactStore.overlayFor, hfind]
  have hlookup : (⟨a, rows, rows⟩ : ContactStore).lookup =
      (⟨a, rows', rows'⟩ : ContactStore).lookup := by
    funext id
    simp only [ContactStore.lookup, hmerge]
  simp only [viewOf, ContactStore.merged, ContactStore.composable, hmerge, hlookup]

lemma Sound.view_opened (h : s.Sound) : s.opened.view = s.view := by
  have hopened : s.opened.view = viewOf s.snapshot.held s.overlays.file := by
    rw [← h.snapshot]
    rfl
  rw [hopened, view]
  exact (viewOf_perm h.nodup h.overlays _).symm

lemma Sound.opened (h : s.Sound) : s.opened.Sound :=
  ⟨rfl, List.Perm.refl _, (h.overlays.map Prod.fst).nodup_iff.1 h.nodup⟩

/-! ### `ApplySnapshot` -/

/-- Where the write fails after the rename, the new snapshot shows as the old one does. -/
def SnapshotSafe (s : FileStore) (a : Ayllu) (o : WriteOutcome) : Prop :=
  o = .replaced → viewOf a s.overlays.held = s.view

theorem Sound.applySnapshot_unchanged_iff (h : s.Sound)
    (hfalse : (s.applySnapshot a o).2 = false) :
    Unchanged view (fun _ => FileStore.opened) s (s.applySnapshot a o).1 ↔ s.SnapshotSafe a o := by
  cases o with
  | done => cases hfalse
  | unchanged =>
      refine ⟨fun _ ho => absurd ho (by decide), fun _ => ?_⟩
      exact ⟨rfl, fun _ => h.view_opened⟩
  | replaced =>
      have hopened : (s.applySnapshot a .replaced).1.opened.view = viewOf a s.overlays.held :=
        (viewOf_perm h.nodup h.overlays a).symm
      constructor
      · rintro ⟨-, hsame⟩ -
        rw [← hopened]
        exact hsame .done
      · intro hsafe
        exact ⟨rfl, fun _ => hopened.trans (hsafe rfl)⟩

lemma Sound.applySnapshot (h : s.Sound) (hsafe : s.snapshot.CommitSafe a o) :
    (s.applySnapshot a o).1.Sound :=
  ⟨Mirrored.commit_file_eq_held h.snapshot hsafe, h.overlays, h.nodup⟩

/-! ### `SetOverlay` -/

lemma map_fst_replaceF (rows : OverlayRows) (id : String) (overlay : Overlay) :
    (rows.replaceF fun row => if row.1 = id then some (id, overlay) else none).map Prod.fst =
      rows.map Prod.fst := by
  induction rows with
  | nil => rfl
  | cons row rows ih =>
      by_cases hid : row.1 = id
      · simp [hid]
      · simp [hid, ih]

lemma nodup_setRow (h : (rows.map Prod.fst).Nodup) (id : String) (overlay : Overlay) :
    ((setRow rows id overlay).map Prod.fst).Nodup := by
  unfold setRow
  split_ifs with hany
  · rw [map_fst_replaceF]
    exact h
  · rw [List.map_append, List.map_singleton]
    refine List.nodup_append.2 ⟨h, List.nodup_singleton _, fun x hx y hy => ?_⟩
    obtain ⟨row, hrow, rfl⟩ := List.mem_map.1 hx
    rw [List.mem_singleton.1 hy]
    rw [List.any_eq_true] at hany
    exact fun hid => hany ⟨row, hrow, decide_eq_true hid⟩

/-- Where the write fails after the rename, the new decoration shows as the old one does. -/
def SetSafe (s : FileStore) (id : String) (overlay : Overlay) (o : WriteOutcome) : Prop :=
  id ≠ "" → o = .replaced → viewOf s.snapshot.held (setRow s.overlays.held id overlay) = s.view

lemma setOverlay_of_ne (hid : id ≠ "") :
    s.setOverlay id overlay o =
      ({ s with overlays := (s.overlays.commit (setRow s.overlays.held id overlay) o).1 }, o.ok) :=
  if_neg hid

lemma contacts_setOverlay (s : FileStore) (id : String) (overlay : Overlay) (o : WriteOutcome) :
    (s.setOverlay id overlay o).1.contacts = s.contacts.setOverlay id overlay o := by
  by_cases hid : id = ""
  · rw [setOverlay, if_pos hid, ContactStore.setOverlay, if_pos hid]
  · rw [setOverlay_of_ne hid, ContactStore.setOverlay, if_neg hid]
    rfl

theorem Sound.setOverlay_unchanged_iff (h : s.Sound)
    (hfalse : (s.setOverlay id overlay o).2 = false) :
    Unchanged view (fun _ => FileStore.opened) s (s.setOverlay id overlay o).1 ↔
      s.SetSafe id overlay o := by
  by_cases hid : id = ""
  · rw [FileStore.setOverlay, if_pos hid]
    refine ⟨fun _ hne => absurd hid hne, fun _ => ?_⟩
    exact ⟨rfl, fun _ => h.view_opened⟩
  · rw [setOverlay_of_ne hid] at hfalse ⊢
    cases o with
    | done => cases hfalse
    | unchanged =>
        refine ⟨fun _ _ ho => absurd ho (by decide), fun _ => ?_⟩
        exact ⟨rfl, fun _ => h.view_opened⟩
    | replaced =>
        have hopened : FileStore.view (FileStore.opened
            { s with overlays :=
                (s.overlays.commit (setRow s.overlays.held id overlay) .replaced).1 }) =
              viewOf s.snapshot.held (setRow s.overlays.held id overlay) := by
          rw [← h.snapshot]
          rfl
        constructor
        · rintro ⟨-, hsame⟩ - -
          rw [← hopened]
          exact hsame .done
        · intro hsafe
          exact ⟨rfl, fun _ => hopened.trans (hsafe hid rfl)⟩

lemma Sound.setOverlay (h : s.Sound)
    (hsafe : id ≠ "" → s.overlays.CommitSafe (setRow s.overlays.held id overlay) o) :
    (s.setOverlay id overlay o).1.Sound := by
  by_cases hid : id = ""
  · rw [FileStore.setOverlay, if_pos hid]
    exact h
  · rw [setOverlay_of_ne hid]
    cases o with
    | done => exact ⟨h.snapshot, List.Perm.refl _, nodup_setRow h.nodup id overlay⟩
    | unchanged => exact h
    | replaced =>
        refine ⟨h.snapshot, ?_, h.nodup⟩
        show s.overlays.held.Perm (setRow s.overlays.held id overlay)
        rw [hsafe hid rfl]

/-! ### `ClearOverlay` -/

/-- Where the write fails after the rename, the decoration did not show. -/
def ClearSafe (s : FileStore) (id : String) (o : WriteOutcome) : Prop :=
  o = .replaced →
    viewOf s.snapshot.held (s.overlays.held.eraseP fun row => row.1 = id) = s.view

/-- A row that is put back behind the others. -/
lemma perm_putBack (hrow : (rows.find? fun row => row.1 = id) = some row) :
    ((rows.eraseP fun row => row.1 = id) ++ [row]).Perm rows := by
  induction rows with
  | nil => cases hrow
  | cons x rows ih =>
      by_cases hid : x.1 = id
      · rw [List.find?_cons_of_pos (by simpa using hid), Option.some.injEq] at hrow
        rw [List.eraseP_cons_of_pos (by simpa using hid), ← hrow]
        exact List.perm_append_singleton _ _
      · rw [List.find?_cons_of_neg (by simpa using hid)] at hrow
        rw [List.eraseP_cons_of_neg (by simpa using hid)]
        exact (ih hrow).cons x

lemma clearOverlay_of_find (hrow : (s.overlays.held.find? fun row => row.1 = id) = some row) :
    s.clearOverlay id o =
      ({ s with
         overlays :=
           { file :=
               if o.written then s.overlays.held.eraseP fun row => row.1 = id else s.overlays.file
             held :=
               if o.ok then s.overlays.held.eraseP fun row => row.1 = id
               else (s.overlays.held.eraseP fun row => row.1 = id) ++ [row] } }, o.ok) := by
  simp only [clearOverlay, hrow]

lemma nodup_eraseP (h : (rows.map Prod.fst).Nodup) (p : String × Overlay → Bool) :
    ((rows.eraseP p).map Prod.fst).Nodup :=
  h.sublist (List.Sublist.map _ List.eraseP_sublist)

theorem Sound.clearOverlay_unchanged_iff (h : s.Sound)
    (hfalse : (s.clearOverlay id o).2 = false) :
    Unchanged view (fun _ => FileStore.opened) s (s.clearOverlay id o).1 ↔ s.ClearSafe id o := by
  cases hrow : s.overlays.held.find? fun row => decide (row.1 = id) with
  | none =>
      simp only [FileStore.clearOverlay, hrow] at hfalse
      cases hfalse
  | some row =>
      rw [clearOverlay_of_find hrow] at hfalse ⊢
      have hback := perm_putBack hrow
      have hids := (hback.map Prod.fst).nodup_iff.2 h.nodup
      have hview := viewOf_perm hids hback s.snapshot.held
      cases o with
      | done => cases hfalse
      | unchanged =>
          refine ⟨fun _ ho => absurd ho (by decide), fun _ => ⟨hview, fun _ => ?_⟩⟩
          exact h.view_opened.trans hview.symm
      | replaced =>
          have hopened : FileStore.view (FileStore.opened
              { s with
                overlays :=
                  ⟨s.overlays.held.eraseP fun row => row.1 = id,
                    (s.overlays.held.eraseP fun row => row.1 = id) ++ [row]⟩ }) =
                viewOf s.snapshot.held (s.overlays.held.eraseP fun row => row.1 = id) := by
            rw [← h.snapshot]
            rfl
          constructor
          · rintro ⟨-, hsame⟩ -
            rw [← hopened]
            exact (hsame .done).trans hview
          · intro hsafe
            exact ⟨hview, fun _ => (hopened.trans (hsafe rfl)).trans hview.symm⟩

lemma Sound.clearOverlay (h : s.Sound)
    (hsafe : (s.overlays.held.find? fun row => row.1 = id).isSome = true → o ≠ .replaced) :
    (s.clearOverlay id o).1.Sound := by
  cases hrow : s.overlays.held.find? fun row => decide (row.1 = id) with
  | none =>
      simp only [FileStore.clearOverlay, hrow]
      exact h
  | some row =>
      rw [clearOverlay_of_find hrow]
      have hback := perm_putBack hrow
      cases o with
      | done => exact ⟨h.snapshot, List.Perm.refl _, nodup_eraseP h.nodup _⟩
      | unchanged =>
          exact ⟨h.snapshot, hback.trans h.overlays, (hback.map Prod.fst).nodup_iff.2 h.nodup⟩
      | replaced => exact absurd rfl (hsafe (by rw [hrow]; rfl))

end FileStore
end Chaskiwasi.Device
