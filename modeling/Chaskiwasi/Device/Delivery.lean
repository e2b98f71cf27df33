import Chaskiwasi.Device.PowerCut
import Chaskiwasi.Device.Resync

/-!
# No letter is passed over

A device tells the server in one word how far it has read: its cursor.  Whatever lies at or below it
is never offered again, so a cursor that is ahead of what the device wrote down is a letter lost.
The server moves it past what it gave and past what it skipped, the device takes it up last, and
between the two a write can fail, power can go, INBOX can be renumbered, and messages come and are
filed away.

The ghosts `stood`, `older` and `unplaced` say what became of a message.  What a round moves the
cursor past is one of the three (`answered_of_round`); what the device takes up is an old cursor, or
the response's with every letter of it written (`Traced`).  Of the seen ring it is enough that
nothing is in it which never stood: a letter that the device passes over was there.
-/

namespace Chaskiwasi

/-! ## What a round moves the cursor past -/

def DeriveError.isUnresolved : DeriveError → Bool
  | .unresolvedSender .. => true
  | .parse _ => false

/-- The message was skipped, its sender being nobody. -/
def skips (derived : Except DeriveError Letter) : Bool :=
  match derived with
  | .ok _ => false
  | .error err => err.isUnresolved

section Round

variable {encodedLength : Letter → ℕ} {derive : Raw → Except DeriveError Letter}
  {asm asm' : Assembly} {raw : Raw} {raws : List Raw} {l : Letter} {inbox : Folder}
  {resyncWindow : ℕ} {budget : ℤ} {boundary : Option UID} {round : Assembled}

/-- A message is in the letters, or it was skipped. -/
def Taken (derive : Raw → Except DeriveError Letter) (letters : List Letter) (raw : Raw) : Prop :=
  (∃ l ∈ letters, derive raw = .ok l) ∨ skips (derive raw) = true

lemma Taken.mono {letters letters' : List Letter} (h : Taken derive letters raw)
    (hle : ∀ l ∈ letters, l ∈ letters') : Taken derive letters' raw := by
  rcases h with ⟨l, hl, hderived⟩ | hskips
  · exact Or.inl ⟨l, hle l hl, hderived⟩
  · exact Or.inr hskips

/-- The loop goes on past a message it took. -/
lemma taken_of_next (h : assembleOne encodedLength asm raw.uid (derive raw) = .next asm') :
    asm'.lastUID = raw.uid ∧ (∀ l ∈ asm.letters, l ∈ asm'.letters) ∧
      Taken derive asm'.letters raw := by
  unfold assembleOne at h
  split at h
  · next hderived =>
    obtain rfl := Verdict.next.inj h
    exact ⟨rfl, fun _ hl => hl, Or.inr (by rw [hderived]; rfl)⟩
  · split_ifs at h
  · next letter hderived =>
    dsimp only at h
    split_ifs at h
    obtain rfl := Verdict.next.inj h
    refine ⟨rfl, fun _ hl => List.mem_append_left _ hl, Or.inl ⟨letter, ?_, hderived⟩⟩
    exact List.mem_append_right _ (List.mem_singleton_self _)

/-- The loop takes the first messages, up to its watermark. -/
lemma assembleLoop_takes {through : Bool}
    (h : assembleLoop encodedLength derive asm raws = .ok (asm', through)) :
    ∃ taken rest, raws = taken ++ rest ∧ asm'.lastUID = watermark asm.lastUID taken ∧
      (through = true → rest = []) ∧ (∀ l ∈ asm.letters, l ∈ asm'.letters) ∧
      ∀ raw ∈ taken, Taken derive asm'.letters raw := by
  induction raws generalizing asm with
  | nil =>
      rw [assembleLoop, Except.ok.injEq, Prod.mk.injEq] at h
      obtain ⟨rfl, -⟩ := h
      exact ⟨[], [], rfl, rfl, fun _ => rfl, fun _ hl => hl, fun _ hraw =>
        absurd hraw List.not_mem_nil⟩
  | cons raw raws ih =>
      rw [assembleLoop] at h
      cases hone : assembleOne encodedLength asm raw.uid (derive raw) with
      | stop =>
          simp only [hone, Except.ok.injEq, Prod.mk.injEq] at h
          obtain ⟨rfl, rfl⟩ := h
          exact ⟨[], raw :: raws, rfl, rfl, fun hthrough => absurd hthrough (by decide),
            fun _ hl => hl, fun _ hraw => absurd hraw List.not_mem_nil⟩
      | fail err => simp [hone] at h
      | next asm₁ =>
          simp only [hone] at h
          obtain ⟨hlast, hkeep, htaken⟩ := taken_of_next hone
          obtain ⟨taken, rest, rfl, hmark, hthrough, hkeep', htakes⟩ := ih h
          refine ⟨raw :: taken, rest, rfl, ?_, hthrough, fun l hl => hkeep' l (hkeep l hl), ?_⟩
          · rw [hmark, hlast, watermark_cons]
          · intro m hm
            rcases List.mem_cons.1 hm with rfl | hm
            · exact htaken.mono hkeep'
            · exact htakes m hm

/-- A round takes the first of what remains, up to its watermark, and all of it unless it says that
there is more. -/
lemma assembleFrom_takes
    (h : assembleFrom encodedLength derive inbox resyncWindow budget boundary = .ok round) :
    ∃ taken beyond, remaining inbox resyncWindow boundary = taken ++ beyond ∧
      taken <+: (fetchFrom inbox resyncWindow boundary).1 ∧
      round.lastUID = watermark (boundary.getD 0) taken ∧
      (round.more = false → beyond = []) ∧ ∀ raw ∈ taken, Taken derive round.letters raw := by
  obtain ⟨behind, hremaining, hwhole, -⟩ := fetchFrom_prefix inbox resyncWindow boundary
  unfold assembleFrom at h
  dsimp only at h
  cases hloop : assembleLoop encodedLength derive ⟨budget, [], boundary.getD 0⟩
      (fetchFrom inbox resyncWindow boundary).1 with
  | error err =>
      rw [hloop] at h
      cases h
  | ok result =>
      obtain ⟨asm, through⟩ := result
      rw [hloop] at h
      obtain rfl := Except.ok.inj h
      obtain ⟨taken, rest, hraws, hlast, hthrough, -, htakes⟩ := assembleLoop_takes hloop
      refine ⟨taken, rest ++ behind, ?_, ⟨rest, hraws.symm⟩, hlast, ?_, htakes⟩
      · rw [hremaining, hraws, List.append_assoc]
      · intro hmore
        cases through with
        | false => cases hmore
        | true => rw [hthrough rfl, hwhole hmore, List.append_nil]

/-- What remains at or below the watermark was taken. -/
lemma mem_taken_of_le {taken beyond : List Raw}
    (h : remaining inbox resyncWindow boundary = taken ++ beyond)
    (hmem : raw ∈ remaining inbox resyncWindow boundary)
    (hle : raw.uid ≤ watermark (boundary.getD 0) taken) : raw ∈ taken := by
  have hlt := lt_of_mem_remaining inbox resyncWindow hmem
  by_cases hnil : taken = []
  · rw [hnil] at hle
    exact absurd hlt (not_lt.2 hle)
  · have hsorted := remaining_sorted inbox resyncWindow boundary
    rw [h] at hsorted hmem
    refine (List.mem_append.1 hmem).resolve_right fun hbeyond => ?_
    have habove := (watermark_separates (boundary.getD 0) hsorted hnil).2 raw hbeyond
    exact absurd habove (not_lt.2 hle)

/-- A watermark never falls below where the round began. -/
lemma le_watermark {taken beyond : List Raw}
    (h : remaining inbox resyncWindow boundary = taken ++ beyond) :
    boundary.getD 0 ≤ watermark (boundary.getD 0) taken := by
  by_cases hnil : taken = []
  · rw [hnil]
    exact le_refl _
  · have hmem : taken.getLast hnil ∈ remaining inbox resyncWindow boundary := by
      rw [h]
      exact List.mem_append_left _ (List.getLast_mem hnil)
    rw [watermark, List.getLast?_eq_some_getLast hnil, Option.map_some, Option.getD_some]
    exact le_of_lt (lt_of_mem_remaining inbox resyncWindow hmem)

/-- The messages that lie before a window. -/
def Folder.before (f : Folder) (n : ℕ) : List Raw := f.msgs.take (f.msgs.length - n)

/-- A message remains, or the cursor has it behind it, or it lies before the window. -/
lemma remaining_or (hmem : raw ∈ inbox.msgs) :
    raw ∈ remaining inbox resyncWindow boundary ∨ (∃ uid, boundary = some uid ∧ raw.uid ≤ uid) ∨
      boundary = none ∧ raw ∈ inbox.before resyncWindow := by
  cases boundary with
  | some uid =>
      by_cases habove : uid < raw.uid
      · exact Or.inl (Folder.mem_above.2 ⟨hmem, habove⟩)
      · exact Or.inr (Or.inl ⟨uid, rfl, not_lt.1 habove⟩)
  | none =>
      rw [← List.take_append_drop (inbox.msgs.length - resyncWindow) inbox.msgs] at hmem
      rcases List.mem_append.1 hmem with hmem | hmem
      · exact Or.inr (Or.inr ⟨rfl, hmem⟩)
      · exact Or.inl hmem

end Round

namespace Device

open Crash

/-! ## What a device takes up -/

namespace Engine

/-- The ids of the letters that can be read. -/
def readable (e : Engine) : List String :=
  e.letters.files.filterMap fun file => file.content.map fun _ => file.name

section Traces

variable {d : Engine} {r : SyncResponse} {past : List (Engine × WriteOutcome)} {e e' : Engine}
  {o : WriteOutcome} {id : String}

/-- The ids that the seen ring has, and those that it would have after a reload. -/
def Remembers (e : Engine) (id : String) : Prop := id ∈ e.seen.ring ∨ id ∈ e.seen.lines

/-- Of the file, too, an id that is recorded is the only one that is new. -/
lemma mem_lines_add {s : FileSeenRing} {x : String} (h : x ∈ (s.add id o).1.lines) :
    x ∈ s.lines ∨ x ∈ s.ring ∨ x = id := by
  have htaken : x ∈ s.taken id → x ∈ s.lines ∨ x ∈ s.ring ∨ x = id :=
    fun hx => Or.inr (mem_of_mem_taken hx)
  have hwritten : ∀ lines, (x ∈ lines → x ∈ s.lines ∨ x ∈ s.ring ∨ x = id) →
      x ∈ (if o.written then lines else s.lines) → x ∈ s.lines ∨ x ∈ s.ring ∨ x = id := by
    intro lines hlines hx
    split_ifs at hx
    · exact hlines hx
    · exact Or.inl hx
  by_cases hsafe : nameIsSafe id = false
  · rw [FileSeenRing.add_of_refused hsafe] at h
    exact Or.inl h
  · by_cases hknown : s.contains id = true
    · rw [FileSeenRing.add_of_known (by simpa using hsafe) hknown] at h
      exact Or.inl h
    · rw [FileSeenRing.add, if_neg hsafe, if_neg hknown] at h
      dsimp only at h
      split at h
      · exact hwritten _ htaken h
      · refine hwritten _ (fun hx => ?_) h
        exact (List.mem_append.1 hx).imp_right fun hx => Or.inr (List.mem_singleton.1 hx)

lemma Remembers.add {x : String}
    (h : x ∈ (e.seen.add id o).1.ring ∨ x ∈ (e.seen.add id o).1.lines) :
    e.Remembers x ∨ x = id := by
  rcases h with hring | hlines
  · exact (mem_of_mem_add hring).imp_left Or.inl
  · rcases mem_lines_add hlines with hx | hx | hx
    · exact Or.inl (Or.inr hx)
    · exact Or.inl (Or.inl hx)
    · exact Or.inr hx

lemma Remembers.opened (h : (e.opened o).Remembers id) : e.Remembers id := by
  have hloaded : id ∈ FileSeenRing.loaded [] e.seen.window → id ∈ e.seen.lines := by
    intro hid
    rcases FileSeenRing.mem_loaded.1 hid with hid | ⟨hid, -⟩
    · cases hid
    · exact List.mem_of_mem_drop hid
  unfold Remembers Engine.opened FileSeenRing.opened at h
  dsimp only at h
  split_ifs at h
  · unfold FileSeenRing.compact at h
    dsimp only at h
    rcases h with hid | hid
    · exact Or.inr (hloaded hid)
    · split_ifs at hid
      · exact Or.inr (hloaded hid)
      · exact Or.inr hid
  · exact Or.inr (h.elim hloaded fun hid => hid)

/-- The cursors are ones that the device had or the response's, and it remembers nothing but what it
remembered and what has been written. -/
structure Traced (d : Engine) (r : SyncResponse) (past : List (Engine × WriteOutcome))
    (e : Engine) : Prop where
  file : e.state.file.cursor ∈ [d.state.file.cursor, d.state.held.cursor, r.cursor]
  held : e.state.held.cursor ∈ [d.state.held.cursor, r.cursor]
  seen : ∀ id, e.Remembers id → d.Remembers id ∨ Written r past e id

lemma Written.cons (h : Written r past e id) (o : WriteOutcome) (e' : Engine) :
    Written r ((e, o) :: past) e' id := by
  obtain ⟨s, hs, hwritten⟩ := h
  exact ⟨s, List.mem_cons_of_mem _ (by simpa using hs), hwritten⟩

lemma Written.clock (h : Written r past e id) (c : Option ℤ) :
    Written r past { e with clock := c } id := by
  obtain ⟨s, hs, l, hl, hid, unread, hfile⟩ := h
  rcases List.mem_cons.1 hs with rfl | hs
  · exact ⟨_, List.mem_cons_self, l, hl, hid, unread, hfile⟩
  · exact ⟨s, List.mem_cons_of_mem _ hs, l, hl, hid, unread, hfile⟩

lemma Traced.clock (h : Traced d r past e) (c : Option ℤ) :
    Traced d r past { e with clock := c } :=
  ⟨h.file, h.held, fun id hid => (h.seen id hid).imp_right fun hwritten => hwritten.clock c⟩

lemma Traced.cons (h : Traced d r past e) (o : WriteOutcome) (hstate : e'.state = e.state)
    (hseen : e'.seen = e.seen) : Traced d r ((e, o) :: past) e' := by
  refine ⟨hstate ▸ h.file, hstate ▸ h.held, fun id hid => ?_⟩
  unfold Remembers at hid
  rw [hseen] at hid
  exact (h.seen id hid).imp_right fun hwritten => hwritten.cons o e'

/-- A record that is rewritten with one of the cursors. -/
lemma Traced.commit (h : Traced d r past e) {next : SyncState}
    (hnext : next.cursor ∈ [d.state.held.cursor, r.cursor]) :
    Traced d r ((e, o) :: past) { e with state := (e.state.commit next o).1 } := by
  refine ⟨?_, ?_, fun id hid => (h.seen id hid).imp_right fun hwritten => hwritten.cons o _⟩
  · unfold Mirrored.commit
    dsimp only
    split_ifs
    · exact List.mem_cons_of_mem _ hnext
    · exact h.file
  · unfold Mirrored.commit
    dsimp only
    split_ifs
    · exact hnext
    · exact h.held

lemma Traced.add (h : Traced d r past e) (hid : Written r past e id) :
    Traced d r ((e, o) :: past) { e with seen := (e.seen.add id o).1 } := by
  refine ⟨h.file, h.held, fun x hx => ?_⟩
  rcases Remembers.add hx with hx | rfl
  · exact (h.seen x hx).imp_right fun hwritten => hwritten.cons o _
  · exact Or.inr (hid.cons o _)

/-- The outline of an application, for what it takes up. -/
def traceOutline (keep : ℕ) (d : Engine) (r : SyncResponse) : Outline keep r where
  acking _ := Traced d r
  snapped := Traced d r
  reading ls _ past e := (∀ l ∈ ls, l ∈ r.letters) ∧ Traced d r past e
  writing l ls _ past e :=
    (∀ l' ∈ l :: ls, l' ∈ r.letters) ∧ Traced d r past e ∧ Written r past e l.id
  evicting _ := Traced d r
  configuring := Traced d r
  ending := Traced d r
  final := Traced d r
  failed := Traced d r
  cut := Traced d r
  clock := fun _ _ c h => h.clock c
  resolve := fun _ _ => Triple.attempt_answers (fun _ _ h => h)
    (fun _ _ o h _ => h.cons o rfl rfl) fun _ _ o h _ => h.cons o rfl rfl
  without := fun _ _ _ h => ⟨fun _ hl => hl, h⟩
  snapshot := fun _ _ => Triple.attempt_answers (fun _ _ h => h)
    (fun _ _ o h _ => h.cons o rfl rfl) fun _ _ o h _ => h.cons o rfl rfl
  version := fun _ _ => Triple.attempt_answers (fun _ _ h => h)
    (fun _ _ _ h _ => ⟨fun _ hl => hl, h.commit h.held⟩) fun _ _ _ h _ => h.commit h.held
  seen := fun _ _ _ _ _ h _ => ⟨fun l hl => h.1 l (List.mem_cons_of_mem _ hl), h.2⟩
  put := by
    intro l ls n
    apply Triple.attempt_answers
    · exact fun past e h => h.1.2
    · rintro past e o ⟨⟨hmem, h⟩, -⟩ hok
      exact ⟨hmem, h.cons o rfl rfl, written_put (hmem l List.mem_cons_self) hok⟩
    · exact fun past e o h _ => h.1.2.cons o rfl rfl
  add := by
    intro l ls n
    apply Triple.attempt_answers
    · exact fun past e h => h.2.1
    · rintro past e o ⟨hmem, h, hwritten⟩ -
      exact ⟨fun l' hl' => hmem l' (List.mem_cons_of_mem _ hl'), h.add hwritten⟩
    · exact fun past e o h _ => h.2.1.add h.2.2
  read := fun _ _ h => h.2
  evict := fun _ _ _ h => h.2
  remove := fun _ _ => Triple.attempt_answers (fun _ _ h => h)
    (fun _ _ o h _ => h.cons o rfl rfl) fun _ _ o h _ => h.cons o rfl rfl
  evicted := fun _ _ h => h
  unchanged := fun _ _ _ h => h
  config := fun _ _ => Triple.attempt_answers (fun _ _ h => h)
    (fun _ _ o h _ => h.cons o rfl rfl) fun _ _ o h _ => h.cons o rfl rfl
  cursor := Triple.attempt_answers (fun _ _ h => h)
    (fun _ _ _ h _ => h.commit (List.mem_cons_of_mem _ (List.mem_singleton_self _)))
    fun _ _ _ h _ => h.commit (List.mem_cons_of_mem _ (List.mem_singleton_self _))

lemma traced_self (d : Engine) (r : SyncResponse) : Traced d r [] d :=
  ⟨List.mem_cons_self, List.mem_cons_self, fun _ hid => Or.inl hid⟩

lemma traced_of_applyResponse (keep : ℕ) (d : Engine) (r : SyncResponse)
    (os : List WriteOutcome) : Traced d r ((applyResponse keep r).run [] d os).past
      ((applyResponse keep r).run [] d os).state :=
  ((traceOutline keep d r).triple [] d os (traced_self d r)).ended
    (fun _ _ _ h => answers_self h) fun _ _ h => h

/-- The ids of the letters that could be read at some moment of an application. -/
def stoodIn {α : Type} (ending : Crash.Ending WriteOutcome Engine α) : List String :=
  (ending.state :: ending.past.map Prod.fst).flatMap readable

lemma mem_stoodIn {α : Type} {ending : Crash.Ending WriteOutcome Engine α}
    (h : Written r ending.past ending.state id) : id ∈ stoodIn ending := by
  obtain ⟨s, hs, l, -, -, unread, hfile⟩ := h
  exact List.mem_flatMap.2 ⟨s, hs, List.mem_filterMap.2 ⟨_, hfile, rfl⟩⟩

/-- The device after an application, booted where power was lost. -/
def afterwards {α : Type} (o : WriteOutcome) : Crash.Ending WriteOutcome Engine α → Engine
  | .back _ _ e _ => e
  | .cut _ e => e.opened o

/-- **What a device takes up stood.**  Its cursors are ones that it had, or the response's with
every letter of it known or written; and what it remembers it remembered, or has written. -/
theorem taken_up (keep : ℕ) (d : Engine) (r : SyncResponse) (os : List WriteOutcome)
    (o : WriteOutcome) :
    let ending := (applyResponse keep r).run [] d os
    (∀ c ∈ [(afterwards o ending).state.file.cursor, (afterwards o ending).state.held.cursor],
      (c = d.state.file.cursor ∨ c = d.state.held.cursor) ∨
        c = r.cursor ∧ ∀ l ∈ r.letters, l.id ∈ d.seen.ring ∨ l.id ∈ stoodIn ending) ∧
    ∀ id, (afterwards o ending).Remembers id → d.Remembers id ∨ id ∈ stoodIn ending := by
  intro ending
  obtain ⟨-, hsafe⟩ := safe_of_applyResponse keep d r os
  have htraced := traced_of_applyResponse keep d r os
  have hcursor : ∀ c ∈ [ending.state.state.file.cursor, ending.state.state.held.cursor],
      (c = d.state.file.cursor ∨ c = d.state.held.cursor) ∨
        c = r.cursor ∧ ∀ l ∈ r.letters, l.id ∈ d.seen.ring ∨ l.id ∈ stoodIn ending := by
    intro c hc
    have hold : c ∈ [d.state.file.cursor, d.state.held.cursor, r.cursor] := by
      rcases List.mem_pair.1 hc with rfl | rfl
      · exact htraced.file
      · exact List.mem_cons_of_mem _ htraced.held
    rcases hsafe with hearlier | hall
    · rcases List.mem_pair.1 hc with rfl | rfl
      · exact Or.inl hearlier.1
      · exact Or.inl (Or.inr hearlier.2)
    · simp only [List.mem_cons, List.not_mem_nil, or_false] at hold
      rcases hold with hold | hold | hold
      · exact Or.inl (Or.inl hold)
      · exact Or.inl (Or.inr hold)
      · exact Or.inr ⟨hold, fun l hl => (hall l hl).imp_right mem_stoodIn⟩
  have hseen : ∀ id, ending.state.Remembers id → d.Remembers id ∨ id ∈ stoodIn ending :=
    fun id hid => (htraced.seen id hid).imp_right mem_stoodIn
  cases hend : ending with
  | back out past e rest =>
      rw [hend] at hcursor hseen
      exact ⟨hcursor, hseen⟩
  | cut past e =>
      rw [hend] at hcursor hseen
      refine ⟨fun c hc => hcursor c ?_, fun id hid => hseen id (Remembers.opened hid)⟩
      -- What is held after a boot is what the file had.
      rcases List.mem_pair.1 hc with hc | hc
      · exact hc ▸ List.mem_cons_self
      · exact hc ▸ List.mem_cons_self

end Traces
end Engine

/-! ## INBOX and the device -/

/-- INBOX, and the device that reads it. -/
structure Delivery where
  inbox : Folder
  uidValidity : UID
  /-- The UIDVALIDITY values so far; a mail server gives none of them again. -/
  spent : List UID
  device : Engine
  /-- The ids of the letters that could be read on the device at some moment.  Nothing reads this
  and the two below. -/
  stood : List String := []
  /-- The ids of the messages that lay before the window of a round that began with one. -/
  older : List String := []
  /-- The ids of the messages that a round skipped. -/
  unplaced : List String := []

namespace Delivery

inductive Event
  | arrive (raw : Raw)
  /-- A message is filed away, or deleted. -/
  | expunge (uid : UID)
  /-- INBOX is made anew under another UIDVALIDITY, with whatever is in it. -/
  | renew (uidValidity : UID) (inbox : Folder)
  /-- One round, with the letters as they derive at that time and with whatever else is in the
  response.  Where the outcomes `os` end, power is lost; `o` is the outcome of the boot's write. -/
  | sync (budget : ℤ) (derive : Raw → Except DeriveError Letter) (others : SyncResponse)
      (os : List WriteOutcome) (o : WriteOutcome)
  /-- Whatever else the device does with its files. -/
  | work (device : Engine)
  /-- The device starts over from the empty cursor. -/
  | forget
  /-- The partition is formatted, with all that was in it. -/
  | format
  | reboot (o : WriteOutcome)

section Steps

variable (S : Setup) (x : Delivery)

/-- The UID that the device's request stands at. -/
def boundary : Option UID := cursorBoundary x.device.state.held.cursor x.uidValidity

/-- The round that answers the device's request. -/
def round (budget : ℤ) (derive : Raw → Except DeriveError Letter) : Option Assembled :=
  (assembleLetters S.encodedLength derive x.inbox x.uidValidity (windowOf S.resyncWindow) budget
    x.device.state.held.cursor).toOption

def response (others : SyncResponse) (round : Assembled) : SyncResponse :=
  { others with
    cursor := encodeCursor x.uidValidity round.lastUID
    letters := round.letters
    more := round.more }

/-- A letter goes by the id of its message. -/
def Named (raw : Raw) : Except DeriveError Letter → Prop
  | .ok l => l.id = S.idOf raw
  | .error _ => True

instance (raw : Raw) : ∀ derived, Decidable (Named S raw derived)
  | .ok l => inferInstanceAs (Decidable (l.id = S.idOf raw))
  | .error _ => inferInstanceAs (Decidable True)

def Derives (derive : Raw → Except DeriveError Letter) : Prop :=
  ∀ raw ∈ x.inbox.msgs, Named S raw (derive raw)

instance (derive : Raw → Except DeriveError Letter) : Decidable (x.Derives S derive) :=
  inferInstanceAs (Decidable (∀ raw ∈ x.inbox.msgs, _))

/-- The ids of the messages before the window, where the round begins with one. -/
def before : List String :=
  match x.boundary with
  | none => (x.inbox.before (windowOf S.resyncWindow)).map S.idOf
  | some _ => []

/-- The ids of the messages that the round skipped. -/
def skipped (derive : Raw → Except DeriveError Letter) (round : Assembled) : List String :=
  ((fetchFrom x.inbox (windowOf S.resyncWindow) x.boundary).1.filter fun raw =>
    raw.uid ≤ round.lastUID && skips (derive raw)).map S.idOf

/-- A device whose files are gone. -/
def formatted (d : Engine) : Engine where
  seen := .empty d.seen.capacity
  contacts := ⟨⟨0, []⟩, ⟨0, []⟩⟩

def withoutCursor (d : Engine) : Engine :=
  { d with
    state := ⟨{ d.state.file with cursor := "" }, { d.state.held with cursor := "" }⟩ }

/-- Nothing else touches the seen ring and the cursor. -/
def Leaves (d d' : Engine) : Prop :=
  d'.seen = d.seen ∧ d'.state.file.cursor = d.state.file.cursor ∧
    d'.state.held.cursor = d.state.held.cursor

instance (d d' : Engine) : Decidable (Leaves d d') := inferInstanceAs (Decidable (_ ∧ _))

/-- A round, applied as far as the outcomes go. -/
def synced (derive : Raw → Except DeriveError Letter) (others : SyncResponse)
    (os : List WriteOutcome) (o : WriteOutcome) (round : Assembled) : Delivery :=
  let ending := (Engine.applyResponse S.lettersKeep (x.response others round)).run [] x.device os
  { x with
    device := Engine.afterwards o ending
    stood := x.stood ++ Engine.stoodIn ending
    older := x.older ++ x.before S
    unplaced := x.unplaced ++ x.skipped S derive round }

def step (x : Delivery) : Event → Option Delivery
  | .arrive raw =>
      if h : x.inbox.last < raw.uid then some { x with inbox := x.inbox.push raw h } else none
  | .expunge uid => some { x with inbox := x.inbox.remove uid }
  | .renew uidValidity inbox =>
      if x.spent.contains uidValidity then none
      else
        some { x with
          inbox := inbox
          uidValidity := uidValidity
          spent := uidValidity :: x.spent }
  | .sync budget derive others os o =>
      if x.Derives S derive then
        (x.round S budget derive).map (x.synced S derive others os o)
      else none
  | .work device => if Leaves x.device device then some { x with device := device } else none
  | .forget => some { x with device := withoutCursor x.device }
  | .format => some { x with device := formatted x.device }
  | .reboot o => some { x with device := x.device.opened o }

end Steps

/-! ### What the device has behind it -/

section Invariant

variable {S : Setup} {x x' : Delivery} {c : String} {raw : Raw} {budget : ℤ}
  {derive : Raw → Except DeriveError Letter} {others : SyncResponse} {round : Assembled}

/-- The message's letter stood on the device, or the message lay before a window, or its sender was
nobody when its turn came. -/
def Answered (S : Setup) (x : Delivery) (raw : Raw) : Prop :=
  S.idOf raw ∈ x.stood ∨ S.idOf raw ∈ x.older ∨ S.idOf raw ∈ x.unplaced

/-- A cursor that the device may hold. -/
structure Stands (S : Setup) (x : Delivery) (c : String) : Prop where
  answered : ∀ uid, cursorBoundary c x.uidValidity = some uid →
    ∀ raw ∈ x.inbox.msgs, raw.uid ≤ uid → x.Answered S raw
  mark : ∀ uid, cursorBoundary c x.uidValidity = some uid → uid ≤ x.inbox.last
  minted : ∀ v u, decodeCursor c = some (v, u) → v ∈ x.spent

structure Behind (S : Setup) (x : Delivery) : Prop where
  file : Stands S x x.device.state.file.cursor
  held : Stands S x x.device.state.held.cursor
  seen : ∀ id, x.device.Remembers id → id ∈ x.stood
  current : x.uidValidity ∈ x.spent

lemma stands_empty (S : Setup) (x : Delivery) : Stands S x "" := by
  have hnone : ∀ uid, cursorBoundary "" x.uidValidity ≠ some uid := by
    intro uid huid
    rw [cursorBoundary_empty] at huid
    cases huid
  refine ⟨fun uid huid => absurd huid (hnone uid), fun uid huid => absurd huid (hnone uid), ?_⟩
  intro v u hvu
  rw [decodeCursor, if_pos rfl] at hvu
  cases hvu

/-- What is answered stays answered. -/
lemma Answered.mono (h : x.Answered S raw) (hstood : x.stood ⊆ x'.stood)
    (holder : x.older ⊆ x'.older) (hunplaced : x.unplaced ⊆ x'.unplaced) : x'.Answered S raw :=
  h.imp (fun hid => hstood hid) (Or.imp (fun hid => holder hid) fun hid => hunplaced hid)

/-- What answers a message that the watermark of a round has behind it. -/
structure Rounds (S : Setup) (x : Delivery) (derive : Raw → Except DeriveError Letter)
    (round : Assembled) : Prop where
  passed : ∀ raw ∈ x.inbox.msgs, raw.uid ≤ round.lastUID →
    (∃ uid, x.boundary = some uid ∧ raw.uid ≤ uid) ∨ (∃ l ∈ round.letters, derive raw = .ok l) ∨
      S.idOf raw ∈ x.before S ∨ S.idOf raw ∈ x.skipped S derive round
  whole : round.more = false → ∀ raw ∈ x.inbox.msgs,
    raw.uid ≤ round.lastUID ∨ S.idOf raw ∈ x.before S
  mark : (∀ uid, x.boundary = some uid → uid ≤ x.inbox.last) → round.lastUID ≤ x.inbox.last

lemma mem_before (hnone : x.boundary = none)
    (hmem : raw ∈ x.inbox.before (windowOf S.resyncWindow)) : S.idOf raw ∈ x.before S := by
  rw [before, hnone]
  exact List.mem_map_of_mem hmem

lemma rounds_of_round (h : x.round S budget derive = some round) : Rounds S x derive round := by
  have hround : assembleFrom S.encodedLength derive x.inbox (windowOf S.resyncWindow) budget
      x.boundary = .ok round := by
    unfold Delivery.round assembleLetters at h
    change Except.toOption (assembleFrom S.encodedLength derive x.inbox (windowOf S.resyncWindow)
      budget x.boundary) = some round at h
    cases hfrom : assembleFrom S.encodedLength derive x.inbox (windowOf S.resyncWindow) budget
        x.boundary with
    | error err =>
        rw [hfrom] at h
        cases h
    | ok round' =>
        rw [hfrom] at h
        rw [Option.some.inj h]
  obtain ⟨taken, beyond, hremaining, hfetch, hlast, hdone, htakes⟩ := assembleFrom_takes hround
  have hbegin := le_watermark hremaining
  rw [← hlast] at hbegin
  refine ⟨fun raw hraw hle => ?_, fun hmore raw hraw => ?_, fun hmark => ?_⟩
  · rcases remaining_or hraw with hmem | hbehind | ⟨hnone, hmem⟩
    · have htaken := mem_taken_of_le hremaining hmem (hlast ▸ hle)
      rcases htakes raw htaken with hletter | hskips
      · exact Or.inr (Or.inl hletter)
      · refine Or.inr (Or.inr (Or.inr (List.mem_map_of_mem (List.mem_filter.2 ⟨?_, ?_⟩))))
        · exact hfetch.subset htaken
        · rw [hskips, Bool.and_true]
          exact decide_eq_true hle
    · exact Or.inl hbehind
    · exact Or.inr (Or.inr (Or.inl (mem_before hnone hmem)))
  · rcases remaining_or hraw with hmem | ⟨uid, huid, hle⟩ | ⟨hnone, hmem⟩
    · left
      rw [hremaining, hdone hmore] at hmem
      have hsorted := remaining_sorted x.inbox (windowOf S.resyncWindow) x.boundary
      rw [hremaining, hdone hmore] at hsorted
      have htaken : raw ∈ taken := by rwa [List.append_nil] at hmem
      rw [hlast]
      exact (watermark_separates _ hsorted (List.ne_nil_of_mem htaken)).1 raw htaken
    · left
      rw [huid] at hbegin
      exact le_trans hle hbegin
    · exact Or.inr (mem_before hnone hmem)
  · rw [hlast]
    refine Exchange.watermark_le ?_ fun raw htaken => ?_
    · cases hboundary : x.boundary with
      | none => exact Fin.zero_le _
      | some uid => exact hmark uid hboundary
    · have hmem : raw ∈ remaining x.inbox (windowOf S.resyncWindow) x.boundary := by
        rw [hremaining]
        exact List.mem_append_left _ htaken
      exact Exchange.mem_of_mem_remaining hmem

/-! ### One event -/

/-- A cursor stands as long as INBOX only grows and loses messages under one UIDVALIDITY. -/
lemma Stands.mono (h : Stands S x c) (huid : x'.uidValidity = x.uidValidity)
    (hinbox : ∀ uid, uid ≤ x.inbox.last → ∀ raw ∈ x'.inbox.msgs, raw.uid ≤ uid →
      raw ∈ x.inbox.msgs)
    (hlast : x.inbox.last ≤ x'.inbox.last) (hspent : x'.spent = x.spent)
    (hanswered : ∀ raw, x.Answered S raw → x'.Answered S raw) : Stands S x' c := by
  refine ⟨fun uid hboundary raw hraw hle => ?_, fun uid hboundary => ?_, ?_⟩
  · rw [huid] at hboundary
    exact hanswered raw (h.answered uid hboundary raw
      (hinbox uid (h.mark uid hboundary) raw hraw hle) hle)
  · rw [huid] at hboundary
    exact le_trans (h.mark uid hboundary) hlast
  · rw [hspent]
    exact h.minted

/-- A UIDVALIDITY that was never given makes every cursor say nothing. -/
lemma Stands.renew (h : Stands S x c) {uidValidity : UID} (inbox : Folder)
    (hnew : uidValidity ∉ x.spent) :
    Stands S { x with
      inbox := inbox
      uidValidity := uidValidity
      spent := uidValidity :: x.spent } c := by
  have hnone : ∀ uid, cursorBoundary c uidValidity ≠ some uid := by
    intro uid huid
    unfold cursorBoundary at huid
    cases hdecode : decodeCursor c with
    | none => simp [hdecode] at huid
    | some vu =>
        obtain ⟨v, u⟩ := vu
        rw [hdecode] at huid
        dsimp only at huid
        split_ifs at huid with hv
        exact hnew (hv ▸ h.minted v u hdecode)
  exact ⟨fun uid huid => absurd huid (hnone uid), fun uid huid => absurd huid (hnone uid),
    fun v u hvu => List.mem_cons_of_mem _ (h.minted v u hvu)⟩

/-- The response's cursor stands, where each of its letters is accounted for. -/
lemma Behind.stands_response (h : Behind S x) (hderives : x.Derives S derive)
    (hrounds : Rounds S x derive round) (hinbox : x'.inbox = x.inbox)
    (huid : x'.uidValidity = x.uidValidity) (hspent : x'.spent = x.spent)
    (hanswered : ∀ raw, x.Answered S raw → x'.Answered S raw)
    (hletters : ∀ l ∈ round.letters, l.id ∈ x'.stood) (holder : x.before S ⊆ x'.older)
    (hunplaced : x.skipped S derive round ⊆ x'.unplaced) :
    Stands S x' (x.response others round).cursor := by
  have hcursor : (x.response others round).cursor =
      encodeCursor x'.uidValidity round.lastUID := by
    rw [huid]
    rfl
  rw [hcursor]
  refine ⟨fun uid hboundary raw hraw hle => ?_, fun uid hboundary => ?_, fun v u hvu => ?_⟩
  · rw [cursorBoundary_encodeCursor_self] at hboundary
    obtain rfl := Option.some.inj hboundary
    rw [hinbox] at hraw
    rcases hrounds.passed raw hraw hle with ⟨uid, hbehind, hle⟩ | ⟨l, hl, hderived⟩ | hid | hid
    · exact hanswered raw (h.held.answered uid hbehind raw hraw hle)
    · have hnamed := hderives raw hraw
      rw [hderived] at hnamed
      have hid : l.id = S.idOf raw := hnamed
      exact Or.inl (hid ▸ hletters l hl)
    · exact Or.inr (Or.inl (holder hid))
    · exact Or.inr (Or.inr (hunplaced hid))
  · rw [cursorBoundary_encodeCursor_self] at hboundary
    obtain rfl := Option.some.inj hboundary
    rw [hinbox]
    exact hrounds.mark h.held.mark
  · rw [decodeCursor_encodeCursor] at hvu
    obtain ⟨rfl, -⟩ := Prod.mk.inj (Option.some.inj hvu)
    rw [hspent, huid]
    exact h.current

/-- A round, wherever its application ends. -/
lemma Behind.sync (h : Behind S x) (hderives : x.Derives S derive)
    (hround : x.round S budget derive = some round) (os : List WriteOutcome) (o : WriteOutcome) :
    Behind S (x.synced S derive others os o round) := by
  obtain ⟨hcursors, hseen⟩ :=
    Engine.taken_up S.lettersKeep x.device (x.response others round) os o
  set x' := x.synced S derive others os o round with hx'
  have hanswered : ∀ raw, x.Answered S raw → x'.Answered S raw := fun raw hraw =>
    hraw.mono (List.subset_append_left _ _) (List.subset_append_left _ _)
      (List.subset_append_left _ _)
  have hremembered : ∀ id, x.device.Remembers id → id ∈ x'.stood :=
    fun id hid => List.mem_append_left _ (h.seen id hid)
  have hstands : ∀ c ∈ [x'.device.state.file.cursor, x'.device.state.held.cursor],
      Stands S x' c := by
    intro c hc
    have hsame : ∀ c, Stands S x c → Stands S x' c := fun c hold =>
      hold.mono rfl (fun _ _ _ hraw _ => hraw) (le_refl _) rfl hanswered
    rcases hcursors c hc with (rfl | rfl) | ⟨rfl, hletters⟩
    · exact hsame _ h.file
    · exact hsame _ h.held
    · refine h.stands_response hderives (rounds_of_round hround) rfl rfl rfl hanswered ?_
        (List.subset_append_right _ _) (List.subset_append_right _ _)
      intro l hl
      rcases hletters l hl with hring | hstood
      · exact hremembered l.id (Or.inl hring)
      · exact List.mem_append_right _ hstood
  refine ⟨hstands _ List.mem_cons_self,
    hstands _ (List.mem_cons_of_mem _ (List.mem_singleton_self _)), fun id hid => ?_, h.current⟩
  rcases hseen id hid with hid | hid
  · exact hremembered id hid
  · exact List.mem_append_right _ hid

lemma Behind.arrive (h : Behind S x) {raw : Raw} (hlast : x.inbox.last < raw.uid) :
    Behind S { x with inbox := x.inbox.push raw hlast } := by
  -- The new message lies above every cursor.
  have hinbox : ∀ uid, uid ≤ x.inbox.last → ∀ m ∈ (x.inbox.push raw hlast).msgs, m.uid ≤ uid →
      m ∈ x.inbox.msgs := by
    intro uid huid m hm hle
    refine (Folder.mem_push.1 hm).resolve_right ?_
    rintro rfl
    exact absurd (lt_of_le_of_lt huid hlast) (not_lt.2 hle)
  have hstands : ∀ c, Stands S x c → Stands S { x with inbox := x.inbox.push raw hlast } c :=
    fun c hc => hc.mono rfl hinbox (le_of_lt hlast) rfl fun _ hraw => hraw
  exact ⟨hstands _ h.file, hstands _ h.held, h.seen, h.current⟩

lemma Behind.expunge (h : Behind S x) (uid : UID) :
    Behind S { x with inbox := x.inbox.remove uid } := by
  have hstands : ∀ c, Stands S x c → Stands S { x with inbox := x.inbox.remove uid } c :=
    fun c hc => hc.mono rfl (fun _ _ m hm _ => (Folder.mem_remove.1 hm).1) (le_refl _) rfl
      fun _ hraw => hraw
  exact ⟨hstands _ h.file, hstands _ h.held, h.seen, h.current⟩

/-- Another device, whose cursors stand and which remembers no more. -/
lemma Behind.device (h : Behind S x) {d : Engine} (hfile : Stands S x d.state.file.cursor)
    (hheld : Stands S x d.state.held.cursor) (hseen : ∀ id, d.Remembers id → id ∈ x.stood) :
    Behind S { x with device := d } := by
  have hstands : ∀ c, Stands S x c → Stands S { x with device := d } c := fun c hc =>
    hc.mono rfl (fun _ _ _ hm _ => hm) (le_refl _) rfl fun _ hraw => hraw
  exact ⟨hstands _ hfile, hstands _ hheld, hseen, h.current⟩

lemma Behind.step {e : Event} (h : Behind S x) (hstep : x.step S e = some x') : Behind S x' := by
  cases e with
  | arrive raw =>
      rw [Delivery.step] at hstep
      split_ifs at hstep with hlast
      obtain rfl := Option.some.inj hstep
      exact h.arrive hlast
  | expunge uid =>
      obtain rfl := Option.some.inj hstep
      exact h.expunge uid
  | renew uidValidity inbox =>
      rw [Delivery.step] at hstep
      split_ifs at hstep with hspent
      obtain rfl := Option.some.inj hstep
      have hnew : uidValidity ∉ x.spent := fun hmem => hspent (List.contains_iff_mem.2 hmem)
      exact ⟨h.file.renew inbox hnew, h.held.renew inbox hnew, h.seen, List.mem_cons_self⟩
  | sync budget derive others os o =>
      rw [Delivery.step] at hstep
      split_ifs at hstep with hderives
      obtain ⟨round, hround, rfl⟩ := Option.map_eq_some_iff.1 hstep
      exact h.sync hderives hround os o
  | work device =>
      rw [Delivery.step] at hstep
      split_ifs at hstep with hleaves
      obtain rfl := Option.some.inj hstep
      obtain ⟨hseen, hfile, hheld⟩ := hleaves
      refine h.device (hfile ▸ h.file) (hheld ▸ h.held) fun id hid => h.seen id ?_
      unfold Engine.Remembers at hid
      rwa [hseen] at hid
  | forget =>
      obtain rfl := Option.some.inj hstep
      exact h.device (stands_empty S x) (stands_empty S x) h.seen
  | format =>
      obtain rfl := Option.some.inj hstep
      refine h.device (stands_empty S x) (stands_empty S x) fun id hid => ?_
      rcases hid with hid | hid
      · cases hid
      · cases hid
  | reboot o =>
      obtain rfl := Option.some.inj hstep
      exact h.device h.file h.file fun id hid => h.seen id hid.opened

end Invariant

/-! ### The runs -/

/-- A device that was never synced. -/
structure Unsynced (x : Delivery) : Prop where
  file : x.device.state.file.cursor = ""
  held : x.device.state.held.cursor = ""
  ring : x.device.seen.ring = []
  lines : x.device.seen.lines = []
  current : x.uidValidity ∈ x.spent

variable {S : Setup} {x₀ x : Delivery} {es : List Event}

lemma Unsynced.behind (h : Unsynced x₀) : Behind S x₀ := by
  refine ⟨h.file ▸ stands_empty S x₀, h.held ▸ stands_empty S x₀, fun id hid => ?_, h.current⟩
  unfold Engine.Remembers at hid
  rw [h.ring, h.lines] at hid
  rcases hid with hid | hid
  · cases hid
  · cases hid

/-- **No letter is passed over.**  In every run from a device that was never synced, whatever
arrives, is filed away or is renumbered, whichever write fails and wherever power is lost: every
message of INBOX that the cursor on flash has behind it is one whose letter stood on the device,
that lay before the window of a resync, or whose sender was nobody when its turn came.  Where a
round that leaves nothing behind is taken up, that is every message of INBOX. -/
theorem no_letter_passed_over (h : Unsynced x₀)
    (hrun : Run.run (Delivery.step S) x₀ es = some x) :
    (∀ uid, cursorBoundary x.device.state.file.cursor x.uidValidity = some uid →
      ∀ raw ∈ x.inbox.msgs, raw.uid ≤ uid → x.Answered S raw) ∧
    ∀ budget derive others os o round x', x.round S budget derive = some round →
      x.step S (.sync budget derive others os o) = some x' → round.more = false →
      x'.device.state.file.cursor = (x.response others round).cursor →
      ∀ raw ∈ x'.inbox.msgs, x'.Answered S raw := by
  have hbehind : Behind S x :=
    Run.run_invariant (fun _ _ _ hx hstep => hx.step hstep) h.behind hrun
  refine ⟨hbehind.file.answered, ?_⟩
  intro budget derive others os o round x' hround hstep hmore hcursor raw hraw
  have hafter := (hbehind.step hstep).file.answered
  rw [Delivery.step] at hstep
  split_ifs at hstep with hderives
  rw [hround] at hstep
  obtain rfl := Option.some.inj hstep
  rcases (rounds_of_round hround).whole hmore raw hraw with hle | hid
  · refine hafter round.lastUID ?_ raw hraw hle
    rw [hcursor]
    exact cursorBoundary_encodeCursor_self _ _
  · exact Or.inr (Or.inl (List.mem_append_right _ hid))

end Delivery

namespace Sample

def unread : Delivery where
  inbox := .empty
  uidValidity := 1
  spent := [1]
  device := { letters := ⟨[], []⟩, seen := .empty 1000, contacts := ⟨⟨0, []⟩, ⟨0, []⟩⟩ }

/-- The second of two messages comes from nobody. -/
def deriveSecond (raw : Raw) : Except DeriveError Letter :=
  if raw.data = [] then .ok (letterOf raw) else .error (.unresolvedSender raw.uid "m-1")

/-- Power is lost after the letter was written, and the round is made again. -/
def cutRound : List Delivery.Event :=
  [.arrive (message 1 []), .arrive (message 2 [1]), .sync 100000 deriveSecond noMail [.done] .done,
    .sync 100000 deriveSecond noMail [.done, .done, .done] .done]

end Sample

namespace Delivery

theorem no_letter_passed_over_cut :
    ∃ x, Run.run (Delivery.step Sample.smallShelf) Sample.unread Sample.cutRound = some x ∧
      (x.device.state.file.cursor = encodeCursor 1 2 ∧ x.uidValidity = 1 ∧
        x.inbox.msgs.length = 2) ∧
      ∀ raw ∈ x.inbox.msgs, raw.uid ≤ 2 → x.Answered Sample.smallShelf raw := by
  have hunsynced : Unsynced Sample.unread := ⟨rfl, rfl, rfl, rfl, by decide⟩
  have hany : (Run.run (Delivery.step Sample.smallShelf) Sample.unread Sample.cutRound).any
      (fun x => decide (x.device.state.file.cursor = encodeCursor 1 2 ∧ x.uidValidity = 1 ∧
        x.inbox.msgs.length = 2)) = true := by
    decide +kernel
  obtain ⟨x, hrun, hx⟩ := Run.exists_of_any hany
  have hx' := of_decide_eq_true hx
  refine ⟨x, hrun, hx', (no_letter_passed_over hunsynced hrun).1 2 ?_⟩
  rw [hx'.1, hx'.2.1]
  exact cursorBoundary_encodeCursor_self _ _

end Delivery
end Device
end Chaskiwasi
