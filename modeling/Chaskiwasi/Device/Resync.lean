import Chaskiwasi.Device.Retention
import Chaskiwasi.Device.Seen
import Chaskiwasi.Lib.Run
import Chaskiwasi.Sync.Assemble

/-!
# A window resync and the letters seen

A device that comes without a cursor, or with one of another UIDVALIDITY, is given the newest
letters once more, evicted ones among them.  What keeps those away is the seen ring.

The two windows move at different times.  The server's is the newest `resync_window` messages; the
device's is the last ids recorded.  They agree because ids are recorded in the order of the INBOX:
what was stored is a part of what lies before the zone, and the whole zone (`Caught`), and
everything a device can still be given lies in the zone or ahead of it.  Of the zone it can be given
no more than the ring has.
-/

namespace Chaskiwasi.Device

open Crash

/-! ## What an application records -/

namespace Engine

/-- The ring after these letters, where no write fails. -/
def recorded (seen : FileSeenRing) (ls : List Letter) : FileSeenRing :=
  ls.foldl (fun s l => (s.add l.id .done).1) seen

section Application

variable (d : Engine) (c : String)

/-- These letters are recorded, and the cursor is `c`, unless a write failed. -/
def Recording (c : String) (done : List Letter) (past : List (Engine × WriteOutcome))
    (e : Engine) : Prop :=
  Unfailing past →
    e.seen = recorded d.seen done ∧ e.state.held.cursor = c ∧ e.state.file.cursor = c

variable {d c} {done : List Letter} {past : List (Engine × WriteOutcome)} {e e' : Engine}
  {o : WriteOutcome} {l : Letter}

lemma Recording.cons (h : Recording d c done past e) (x : Engine × WriteOutcome)
    (hseen : e'.seen = e.seen) (hheld : e'.state.held.cursor = e.state.held.cursor)
    (hfile : e'.state.file.cursor = e.state.file.cursor) :
    Recording d c done (x :: past) e' := by
  intro hpast
  rw [hseen, hheld, hfile]
  exact h hpast.of_cons.2

lemma not_unfailing (ho : o.ok = false) : ¬ Unfailing ((e, o) :: past) := by
  intro hpast
  have hdone : o = .done := hpast.of_cons.1
  rw [hdone] at ho
  cases ho

/-- A letter that is passed over is recorded already. -/
lemma Recording.seen (h : Recording d c done past e) (hsafe : nameIsSafe l.id = true)
    (hseen : e.seen.contains l.id = true) : Recording d c (done ++ [l]) past e := by
  intro hpast
  obtain ⟨hring, hcursor⟩ := h hpast
  refine ⟨?_, hcursor⟩
  rw [recorded, List.foldl_append]
  change e.seen = ((recorded d.seen done).add l.id .done).1
  rw [← hring, FileSeenRing.add_of_known hsafe hseen]

lemma Recording.add (h : Recording d c done past e) :
    Recording d c (done ++ [l]) ((e, o) :: past) { e with seen := (e.seen.add l.id o).1 } := by
  intro hpast
  obtain ⟨hdone, hbefore⟩ := hpast.of_cons
  obtain rfl : o = .done := hdone
  obtain ⟨hring, hcursor⟩ := h hbefore
  refine ⟨?_, hcursor⟩
  rw [recorded, List.foldl_append]
  change (e.seen.add l.id .done).1 = ((recorded d.seen done).add l.id .done).1
  rw [hring]

/-- The version is written with the cursor that is held. -/
lemma Recording.version (h : Recording d c done past e) (v : ℕ) :
    Recording d c done ((e, o) :: past)
      { e with state := (FileStateStore.setAylluVersion e.state v o).1 } := by
  intro hpast
  obtain ⟨hdone, hbefore⟩ := hpast.of_cons
  obtain rfl : o = .done := hdone
  obtain ⟨hring, hheld, -⟩ := h hbefore
  exact ⟨hring, hheld, hheld⟩

lemma Recording.cursor (h : Recording d c done past e) (c' : String) :
    Recording d c' done ((e, o) :: past)
      { e with state := (FileStateStore.setCursor e.state c' o).1 } := by
  intro hpast
  obtain ⟨hdone, hbefore⟩ := hpast.of_cons
  obtain rfl : o = .done := hdone
  exact ⟨(h hbefore).1, rfl, rfl⟩

lemma ok_of_resolve {b : Outbox} {localID : String} {status : Option AckStatus}
    (h : (b.resolve localID status o).2 = false) : o.ok = false := by
  cases hok : o.ok with
  | false => rfl
  | true =>
      unfold Outbox.resolve Outbox.erase at h
      cases hfind : b.find? localID with
      | none => simp [hfind] at h
      | some e =>
          simp only [hfind, hok, if_true] at h
          by_cases hsent : status = some .sent
          · rw [if_pos hsent] at h
            split_ifs at h
          · rw [if_neg hsent] at h
            cases h

lemma ok_of_put {s : FileLetterStore} (hsafe : nameIsSafe l.id = true)
    (h : (s.put l o).2 = false) : o.ok = false := by
  rw [FileLetterStore.put_of_safe hsafe] at h
  exact h

/-- The outline of an application, for what it records. -/
def recordOutline (keep : ℕ) (d : Engine) (c : String) (r : SyncResponse)
    (hsafe : ∀ l ∈ r.letters, nameIsSafe l.id = true) : Outline keep r where
  acking _ := Recording d c []
  snapped := Recording d c []
  reading ls _ past e := ∃ done, r.letters = done ++ ls ∧ Recording d c done past e
  writing l ls _ past e := ∃ done, r.letters = done ++ l :: ls ∧ Recording d c done past e ∧
    e.seen.contains l.id = false
  evicting _ := Recording d c r.letters
  configuring := Recording d c r.letters
  ending := Recording d c r.letters
  final := Recording d r.cursor r.letters
  failed past _ := ¬ Unfailing past
  cut _ _ := True
  clock := fun _ _ _ h => h
  resolve := fun _ _ => Triple.attempt_answers (fun _ _ _ => trivial)
    (fun _ _ _ h _ => h.cons _ rfl rfl rfl)
    fun _ _ _ _ hfalse => not_unfailing (ok_of_resolve hfalse)
  without := fun _ _ _ h => ⟨[], rfl, h⟩
  snapshot := fun _ _ => Triple.attempt_answers (fun _ _ _ => trivial)
    (fun _ _ _ h _ => h.cons _ rfl rfl rfl) fun _ _ _ _ hfalse => not_unfailing hfalse
  version := fun _ _ => Triple.attempt_answers (fun _ _ _ => trivial)
    (fun _ _ _ h _ => ⟨[], rfl, h.version _⟩) fun _ _ _ _ hfalse => not_unfailing hfalse
  seen := by
    rintro l ls n past e ⟨done, hletters, h⟩ hseen
    refine ⟨done ++ [l], ?_, h.seen ?_ hseen⟩
    · rw [hletters, List.append_assoc, List.singleton_append]
    · exact hsafe l (hletters ▸ List.mem_append_right _ List.mem_cons_self)
  put := by
    refine fun l ls n => Triple.attempt_answers (fun _ _ _ => trivial) ?_ ?_
    · rintro past e o ⟨⟨done, hletters, h⟩, hnew⟩ -
      exact ⟨done, hletters, h.cons _ rfl rfl rfl, hnew⟩
    · rintro past e o ⟨⟨done, hletters, h⟩, hnew⟩ hfalse
      have hl := hsafe l (hletters ▸ List.mem_append_right _ List.mem_cons_self)
      exact not_unfailing (ok_of_put hl hfalse)
  add := by
    refine fun l ls n => Triple.attempt_answers (fun _ _ _ => trivial) ?_ ?_
    · rintro past e o ⟨done, hletters, h, hnew⟩ -
      exact ⟨done ++ [l], by rw [hletters, List.append_assoc, List.singleton_append], h.add⟩
    · rintro past e o ⟨done, hletters, h, hnew⟩ hfalse
      have hl := hsafe l (hletters ▸ List.mem_append_right _ List.mem_cons_self)
      exact not_unfailing ((FileSeenRing.ring_add hl hnew o).2.2 ▸ hfalse)
  read := by
    rintro past e ⟨done, hletters, h⟩
    rw [hletters, List.append_nil]
    exact h
  evict := by
    rintro n past e ⟨done, hletters, h⟩
    rw [hletters, List.append_nil]
    exact h
  remove := fun _ _ => Triple.attempt_answers (fun _ _ _ => trivial)
    (fun _ _ _ h _ => h.cons _ rfl rfl rfl) fun _ _ _ h _ => h.cons _ rfl rfl rfl
  evicted := fun _ _ h => h
  unchanged := fun _ _ _ h => h
  config := fun _ _ => Triple.attempt_answers (fun _ _ _ => trivial)
    (fun _ _ _ h _ => h.cons _ rfl rfl rfl) fun _ _ _ h _ => h.cons _ rfl rfl rfl
  cursor := Triple.attempt_answers (fun _ _ _ => trivial)
    (fun _ _ _ h _ => h.cursor _) fun _ _ _ _ hfalse => not_unfailing hfalse

/-- The state after an application that nothing disturbs. -/
def applied (keep : ℕ) (d : Engine) (r : SyncResponse) : Engine :=
  ((applyResponse keep r).steady .done d).2

/-- The state after the acks, the contacts and the letters, where nothing disturbs them. -/
def readUp (d : Engine) (r : SyncResponse) : Engine := ((readResponse r).steady .done d).2

variable {keep : ℕ} {r : SyncResponse}

/-- An application that nothing disturbs records the letters and takes the cursor. -/
theorem recorded_of_applied (hsafe : ∀ l ∈ r.letters, nameIsSafe l.id = true)
    (hd : d.state.held.cursor = d.state.file.cursor) :
    (applied keep d r).seen = recorded d.seen r.letters ∧
      (applied keep d r).state.held.cursor = r.cursor ∧
      (applied keep d r).state.file.cursor = r.cursor := by
  obtain ⟨past, hpast, hends⟩ :=
    (recordOutline keep d d.state.file.cursor r hsafe).triple.steady .done fun _ => ⟨rfl, hd, rfl⟩
  change Answers (fun past _ => ¬ Unfailing past) (Recording d r.cursor r.letters) _ past _ at hends
  cases hout : ((applyResponse keep r).steady .done d).1.applyIncomplete with
  | true =>
      rw [hout] at hends
      exact absurd hpast hends
  | false =>
      rw [hout] at hends
      exact hends hpast

/-- The same as far as the letters, with the cursor as it was. -/
theorem recorded_of_readUp (hsafe : ∀ l ∈ r.letters, nameIsSafe l.id = true)
    (hd : d.state.held.cursor = d.state.file.cursor) :
    (readUp d r).seen = recorded d.seen r.letters ∧
      (readUp d r).state.held.cursor = d.state.file.cursor ∧
      (readUp d r).state.file.cursor = d.state.file.cursor := by
  obtain ⟨past, hpast, hread⟩ :=
    (recordOutline 0 d d.state.file.cursor r hsafe).triple_readResponse.steady .done
      fun _ => ⟨rfl, hd, rfl⟩
  change Answers (fun past e => _ ∧ ∃ done, r.letters = done ++ [] ∧
    Recording d d.state.file.cursor done past e) (fun past _ => ¬ Unfailing past) _ past _ at hread
  cases hout : ((readResponse r).steady .done d).1.1 with
  | false =>
      rw [hout] at hread
      exact absurd hpast hread
  | true =>
      rw [hout] at hread
      obtain ⟨-, done, hletters, h⟩ := hread
      rw [hletters, List.append_nil]
      exact h hpast

end Application

/-! ## The ring as the end of what was recorded -/

/-- The ring holds the last of these ids. -/
structure Holds (seen : FileSeenRing) (ids : List String) : Prop where
  exact : seen.Exact
  ring : seen.ring = ids.drop (ids.length - seen.capacity)

section Ring

variable {seen : FileSeenRing} {ids : List String} {id : String} {ls ls' : List Letter}

lemma Holds.not_contains (h : Holds seen ids) (hid : id ∉ ids) : seen.contains id = false := by
  rw [← Bool.not_eq_true, contains_iff, h.ring]
  exact fun hmem => hid (List.mem_of_mem_drop hmem)

/-- The last ids, no more of them than the capacity, are in the ring. -/
lemma Holds.mem_ring {early last : List String} (h : Holds seen (early ++ last))
    (hlen : last.length ≤ seen.capacity) (hid : id ∈ last) : id ∈ seen.ring := by
  have hdrop : (early ++ last).length - seen.capacity ≤ early.length := by
    rw [List.length_append]
    omega
  rw [h.ring, List.drop_append_of_le_length hdrop]
  exact List.mem_append_right _ hid

lemma Holds.add (h : Holds seen ids) (hsafe : nameIsSafe id = true) (hid : id ∉ ids) :
    Holds (seen.add id .done).1 (ids ++ [id]) ∧ (seen.add id .done).1.capacity = seen.capacity := by
  obtain ⟨hexact, -, -⟩ := h.exact.add id
  obtain ⟨hring, hcap, -⟩ := FileSeenRing.ring_add hsafe (h.not_contains hid) .done
  refine ⟨⟨hexact, ?_⟩, hcap⟩
  rw [hring, hcap, FileSeenRing.taken_eq h.exact.length_le, h.ring, Ring.push_drop]

lemma Holds.opened (h : Holds seen ids) (o : WriteOutcome) :
    Holds (seen.opened o) ids ∧ (seen.opened o).capacity = seen.capacity := by
  obtain ⟨hexact, hring⟩ := h.exact.opened (o := o)
  have hcap := FileSeenRing.capacity_opened seen o
  refine ⟨⟨hexact, ?_⟩, hcap⟩
  rw [hring, hcap, h.ring]

/-- Letters that the ring has are passed over. -/
lemma recorded_of_known (hsafe : ∀ l ∈ ls, nameIsSafe l.id = true)
    (hknown : ∀ l ∈ ls, l.id ∈ seen.ring) : recorded seen ls = seen ∧ fresh seen ls = [] := by
  induction ls with
  | nil => exact ⟨rfl, rfl⟩
  | cons l ls ih =>
      have hl := contains_iff.2 (hknown l List.mem_cons_self)
      obtain ⟨hrec, hfresh⟩ := ih (fun l' hl' => hsafe l' (List.mem_cons_of_mem _ hl'))
        fun l' hl' => hknown l' (List.mem_cons_of_mem _ hl')
      have hadd := FileSeenRing.add_of_known (hsafe l List.mem_cons_self) hl .done
      refine ⟨?_, by rw [fresh_of_seen hl, hfresh]⟩
      rw [recorded, List.foldl_cons, hadd]
      exact hrec

/-- Letters that were never recorded are, in their order. -/
lemma Holds.recorded (h : Holds seen ids) (hsafe : ∀ l ∈ ls, nameIsSafe l.id = true)
    (hnodup : (ids ++ ls.map Letter.id).Nodup) :
    Holds (Engine.recorded seen ls) (ids ++ ls.map Letter.id) ∧ fresh seen ls = ls ∧
      (Engine.recorded seen ls).capacity = seen.capacity := by
  induction ls generalizing seen ids with
  | nil =>
      rw [List.map_nil, List.append_nil]
      exact ⟨h, rfl, rfl⟩
  | cons l ls ih =>
      have hassoc : ids ++ (l :: ls).map Letter.id = ids ++ [l.id] ++ ls.map Letter.id := by simp
      rw [hassoc] at hnodup ⊢
      have hid : l.id ∉ ids := by
        intro hmem
        have hpair := (List.nodup_append.1 (List.nodup_append.1 hnodup).1).2.2
        exact hpair l.id hmem l.id (List.mem_singleton_self _) rfl
      have hl := hsafe l List.mem_cons_self
      obtain ⟨hadd, hcap⟩ := h.add hl hid
      obtain ⟨hrest, hfresh, hcap'⟩ :=
        ih hadd (fun l' hl' => hsafe l' (List.mem_cons_of_mem _ hl')) hnodup
      refine ⟨hrest, ?_, hcap'.trans hcap⟩
      rw [fresh_of_new (h.not_contains hid), ← fresh_add (h.not_contains hid)
        (FileSeenRing.ring_add hl (h.not_contains hid) .done).2.2, hfresh]

lemma fresh_append (hknown : ∀ l ∈ ls, l.id ∈ seen.ring) (ls' : List Letter) :
    fresh seen (ls ++ ls') = fresh seen ls' := by
  induction ls with
  | nil => rfl
  | cons l ls ih =>
      rw [List.cons_append, fresh_of_seen (contains_iff.2 (hknown l List.mem_cons_self))]
      exact ih fun l' hl' => hknown l' (List.mem_cons_of_mem _ hl')

end Ring
end Engine

/-! ## A device and the mailbox it reads -/

def defaultResyncWindow : ℕ := 200

/-- `applyDefaults`, for the window of the configuration file. -/
def windowOf (resyncWindow : ℕ) : ℕ :=
  if resyncWindow = 0 then defaultResyncWindow else resyncWindow

lemma windowOf_pos (resyncWindow : ℕ) : 0 < windowOf resyncWindow := by
  unfold windowOf
  split_ifs with h
  · decide
  · omega

/-- What stays the same in a run. -/
structure Setup where
  encodedLength : Letter → ℕ
  /-- The id of the letter a message derives to; it does not depend on the UID. -/
  idOf : Raw → String
  idOf_renumbered : ∀ raw uid, idOf { raw with uid := uid } = idOf raw
  safe : ∀ raw, nameIsSafe (idOf raw) = true
  /-- As in the configuration file. -/
  resyncWindow : ℕ
  lettersKeep : ℕ

structure Exchange where
  inbox : Folder
  uidValidity : UID
  /-- The UIDVALIDITY values so far; a mail server gives none of them again. -/
  spent : List UID
  device : Engine
  /-- The ids under which letters were stored, in order.  Nothing reads it. -/
  log : List String := []

/-- What happens.  A sync is one round, with the letters as they derive at that time and with
whatever else is in the response. -/
inductive Event
  | arrive (raw : Raw)
  /-- INBOX's UIDVALIDITY changes, and its messages are renumbered. -/
  | renumber (uidValidity : UID) (inbox : Folder)
  | sync (budget : ℤ) (letter : Raw → Letter) (others : SyncResponse)
  /-- Power is lost when `n` letters of the response are stored and recorded; the device boots.  To
  lose it between storing a letter and recording it is to lose the write of the record. -/
  | interrupted (n : ℕ) (o : WriteOutcome) (budget : ℤ) (letter : Raw → Letter)
      (others : SyncResponse)
  /-- The device starts over from the empty cursor. -/
  | forget
  | reboot (o : WriteOutcome)

namespace Exchange

section Steps

variable (S : Setup)

/-- The ids of the messages, in their order. -/
def ids (raws : List Raw) : List String := raws.map S.idOf

def cursor (x : Exchange) : String := x.device.state.file.cursor

/-- The response to the device. -/
def respond (x : Exchange) (budget : ℤ) (letter : Raw → Letter) (others : SyncResponse) :
    Option SyncResponse :=
  match assembleLetters S.encodedLength (fun raw => .ok (letter raw)) x.inbox x.uidValidity
      (windowOf S.resyncWindow) budget x.device.state.held.cursor with
  | .error _ => none
  | .ok round => some { others with
      cursor := encodeCursor x.uidValidity round.lastUID
      letters := round.letters
      more := round.more }

/-- Each message derives to the letter of its own id. -/
def Derives (x : Exchange) (letter : Raw → Letter) : Prop :=
  ∀ raw ∈ x.inbox.msgs, (letter raw).id = S.idOf raw

instance (x : Exchange) (letter : Raw → Letter) : Decidable (x.Derives S letter) :=
  inferInstanceAs (Decidable (∀ raw ∈ x.inbox.msgs, _))

def step (x : Exchange) : Event → Option Exchange
  | .arrive raw =>
      if h : x.inbox.last < raw.uid ∧ S.idOf raw ∉ ids S x.inbox.msgs then
        some { x with inbox := x.inbox.push raw h.1 }
      else none
  | .renumber uidValidity inbox =>
      if uidValidity ∉ x.spent ∧ inbox.Renumbers x.inbox then
        some { x with
          inbox := inbox
          uidValidity := uidValidity
          spent := uidValidity :: x.spent }
      else none
  | .sync budget letter others =>
      if x.Derives S letter then
        (x.respond S budget letter others).map fun r =>
          { x with
            device := x.device.applied S.lettersKeep r
            log := x.log ++ (x.device.stored r).map Letter.id }
      else none
  | .interrupted n o budget letter others =>
      if x.Derives S letter then
        (x.respond S budget letter others).map fun r =>
          let read := { r with letters := r.letters.take n }
          { x with
            device := (x.device.readUp read).opened o
            log := x.log ++ (x.device.stored read).map Letter.id }
      else none
  | .forget =>
      let device := { x.device with
        state := ⟨{ x.device.state.file with cursor := "" },
          { x.device.state.held with cursor := "" }⟩ }
      some { x with device := device }
  | .reboot o => some { x with device := x.device.opened o }

end Steps

/-! ### Where the device stands -/

section Invariant

variable (S : Setup)

/-- The INBOX is `before`, the zone and `ahead`.  Of what lies before the zone some letters were
stored, and all of the zone; the device is never again given one from before it. -/
structure Caught (before zone ahead : List String) (x : Exchange) : Prop where
  ids : ids S x.inbox.msgs = before ++ (zone ++ ahead)
  nodup : (Exchange.ids S x.inbox.msgs).Nodup
  log : ∃ early, early.Sublist before ∧ x.log = early ++ zone
  window : before.length ≤ x.inbox.msgs.length - windowOf S.resyncWindow
  ring : Engine.Holds x.device.seen x.log
  room : windowOf S.resyncWindow ≤ x.device.seen.capacity
  /-- Of the zone, what lies ahead of the cursor is in the ring. -/
  cursor : ∀ uid, cursorBoundary x.cursor x.uidValidity = some uid → ∃ passed rest,
    zone = passed ++ rest ∧ Exchange.ids S (x.inbox.above uid) = rest ++ ahead ∧
      rest.length ≤ x.device.seen.capacity
  mark : ∀ uid, cursorBoundary x.cursor x.uidValidity = some uid → uid ≤ x.inbox.last
  held : x.device.state.held.cursor = x.cursor
  minted : ∀ v u, decodeCursor x.cursor = some (v, u) → v ∈ x.spent
  current : x.uidValidity ∈ x.spent

variable {S} {before zone ahead : List String} {x x' : Exchange} {budget : ℤ}
  {letter : Raw → Letter} {others r : SyncResponse}

/-- The messages that a round starts from, as the zone has them. -/
structure Offered (S : Setup) (before passed rest ahead : List String) (x : Exchange) : Prop where
  caught : Caught S before (passed ++ rest) ahead x
  remaining : Exchange.ids S (remaining x.inbox (windowOf S.resyncWindow)
    (cursorBoundary x.cursor x.uidValidity)) = rest ++ ahead
  room : rest.length ≤ x.device.seen.capacity

/-- A window that begins in the zone. -/
lemma Caught.offered_window (h : Caught S before zone ahead x)
    (hnone : cursorBoundary x.cursor x.uidValidity = none)
    (hzone : x.inbox.msgs.length - windowOf S.resyncWindow ≤ before.length + zone.length) :
    ∃ passed rest, Offered S before passed rest ahead x := by
  have hlen : x.inbox.msgs.length = before.length + (zone.length + ahead.length) := by
    rw [← List.length_append, ← List.length_append, ← h.ids, Exchange.ids, List.length_map]
  have hwindow := h.window
  set start := x.inbox.msgs.length - windowOf S.resyncWindow with hstart
  have hsplit : zone = zone.take (start - before.length) ++ zone.drop (start - before.length) :=
    (List.take_append_drop _ _).symm
  refine ⟨_, _, hsplit ▸ h, ?_, ?_⟩
  · rw [hnone, remaining, Folder.recent, Exchange.ids, List.map_drop]
    change (Exchange.ids S x.inbox.msgs).drop start = _
    rw [h.ids, List.drop_append, List.drop_eq_nil_of_le hwindow, List.nil_append,
      List.drop_append_of_le_length (by omega)]
  · rw [List.length_drop]
    have hroom := h.room
    omega

/-- A window that begins ahead of the zone leaves the messages between behind. -/
lemma Caught.offered_beyond (h : Caught S before zone ahead x)
    (hnone : cursorBoundary x.cursor x.uidValidity = none)
    (hzone : before.length + zone.length < x.inbox.msgs.length - windowOf S.resyncWindow) :
    ∃ before' ahead', Offered S before' [] [] ahead' x := by
  set start := x.inbox.msgs.length - windowOf S.resyncWindow with hstart
  have hlen : (Exchange.ids S x.inbox.msgs).length = x.inbox.msgs.length := List.length_map _
  have hbefore : before ++ zone = ((Exchange.ids S x.inbox.msgs).take start).take
      (before.length + zone.length) := by
    rw [List.take_take, min_eq_left (le_of_lt hzone), h.ids, ← List.append_assoc,
      List.take_left' (List.length_append ..)]
  obtain ⟨early, hearly, hlog⟩ := h.log
  refine ⟨(Exchange.ids S x.inbox.msgs).take start, (Exchange.ids S x.inbox.msgs).drop start,
    ⟨?_, h.nodup, ⟨x.log, ?_, (List.append_nil _).symm⟩, ?_, h.ring, h.room, ?_, h.mark, h.held,
      h.minted, h.current⟩, ?_, Nat.zero_le _⟩
  · exact (List.take_append_drop _ _).symm
  · rw [hlog]
    refine (List.Sublist.append hearly (List.Sublist.refl zone)).trans ?_
    rw [hbefore]
    exact List.take_sublist _ _
  · rw [List.length_take]
    omega
  · intro uid huid
    rw [hnone] at huid
    cases huid
  · rw [hnone, remaining, Folder.recent, Exchange.ids, List.map_drop]
    rfl

/-- Whatever a round is given lies in the zone and ahead of it. -/
lemma Caught.offered (h : Caught S before zone ahead x) :
    ∃ before passed rest ahead, Offered S before passed rest ahead x := by
  cases hboundary : cursorBoundary x.cursor x.uidValidity with
  | some uid =>
      obtain ⟨passed, rest, hzone, habove, hroom⟩ := h.cursor uid hboundary
      exact ⟨before, passed, rest, ahead, hzone ▸ h, by rw [hboundary]; exact habove, hroom⟩
  | none =>
      by_cases hzone : x.inbox.msgs.length - windowOf S.resyncWindow ≤ before.length + zone.length
      · obtain ⟨passed, rest, hoffered⟩ := h.offered_window hboundary hzone
        exact ⟨before, passed, rest, ahead, hoffered⟩
      · obtain ⟨before', ahead', hoffered⟩ := h.offered_beyond hboundary (not_le.1 hzone)
        exact ⟨before', [], [], ahead', hoffered⟩

/-- What recording the first of the letters offered does: the ones in the zone are known, the ones
ahead of it are new, and the zone reaches as far as the letters. -/
lemma Offered.record {before passed rest ahead : List String}
    (h : Offered S before passed rest ahead x) {ls : List Letter} {behind : List String}
    (hsafe : ∀ l ∈ ls, nameIsSafe l.id = true)
    (hls : rest ++ ahead = ls.map Letter.id ++ behind) :
    ∃ known new beyond, ahead = new ++ beyond ∧ rest ++ new = ls.map Letter.id ++ known ∧
      behind = known ++ beyond ∧ known.length ≤ x.device.seen.capacity ∧
      (known ≠ [] → new = []) ∧
      (Engine.fresh x.device.seen ls).map Letter.id = new ∧
      Engine.Holds (Engine.recorded x.device.seen ls) (x.log ++ new) ∧
      (Engine.recorded x.device.seen ls).capacity = x.device.seen.capacity := by
  obtain ⟨early, hearly, hlog⟩ := h.caught.log
  have hring := h.caught.ring
  have hknown : ∀ id ∈ rest, id ∈ x.device.seen.ring := by
    intro id hid
    rw [hlog, ← List.append_assoc] at hring
    exact hring.mem_ring h.room hid
  rcases List.append_eq_append_iff.1 hls with ⟨new, hids, hahead⟩ | ⟨known, hrest, hbehind⟩
  · -- The letters reach beyond the zone.
    obtain ⟨ks, ns, rfl, hks, hns⟩ := List.map_eq_append_iff.1 hids
    have hksafe : ∀ l ∈ ks, nameIsSafe l.id = true :=
      fun l hl => hsafe l (List.mem_append_left _ hl)
    have hnsafe : ∀ l ∈ ns, nameIsSafe l.id = true :=
      fun l hl => hsafe l (List.mem_append_right _ hl)
    have hkring : ∀ l ∈ ks, l.id ∈ x.device.seen.ring :=
      fun l hl => hknown l.id (hks ▸ List.mem_map_of_mem hl)
    have hnodup : (x.log ++ ns.map Letter.id).Nodup := by
      refine h.caught.nodup.sublist ?_
      rw [h.caught.ids, hlog, hns, hahead, List.append_assoc]
      refine List.Sublist.append hearly (List.Sublist.append (List.Sublist.refl _) ?_)
      exact List.sublist_append_left _ _
    obtain ⟨hrec, -⟩ := Engine.recorded_of_known hksafe hkring
    obtain ⟨hholds, hfresh, hcap⟩ := hring.recorded hnsafe hnodup
    have hsplit : Engine.recorded x.device.seen (ks ++ ns) = Engine.recorded x.device.seen ns := by
      rw [Engine.recorded, List.foldl_append]
      exact congrArg (fun s => Engine.recorded s ns) hrec
    refine ⟨[], new, behind, hahead, by rw [List.append_nil, hids], rfl, Nat.zero_le _,
      fun hne => absurd rfl hne, ?_, ?_, ?_⟩
    · rw [Engine.fresh_append hkring, hfresh, hns]
    · rw [hsplit, ← hns]
      exact hholds
    · rw [hsplit, hcap]
  · -- The letters end in the zone.
    have hlring : ∀ l ∈ ls, l.id ∈ x.device.seen.ring := by
      intro l hl
      refine hknown l.id ?_
      rw [hrest]
      exact List.mem_append_left _ (List.mem_map_of_mem hl)
    obtain ⟨hrec, hfresh⟩ := Engine.recorded_of_known hsafe hlring
    have hlen : known.length ≤ x.device.seen.capacity := by
      have hroom := h.room
      rw [hrest, List.length_append] at hroom
      omega
    refine ⟨known, [], ahead, rfl, by rw [List.append_nil, hrest], hbehind, hlen, fun _ => rfl,
      ?_, ?_, ?_⟩
    · rw [hfresh, List.map_nil]
    · rw [hrec, List.append_nil]
      exact hring
    · rw [hrec]

lemma mem_of_mem_remaining {f : Folder} {n : ℕ} {boundary : Option UID} {raw : Raw}
    (h : raw ∈ remaining f n boundary) : raw ∈ f.msgs := by
  cases boundary with
  | none => exact Folder.mem_of_mem_recent h
  | some uid => exact (Folder.mem_above.1 h).1

/-- Above the new cursor lies what the round left. -/
lemma above_watermark {f : Folder} {n : ℕ} (hn : 0 < n) {boundary : Option UID}
    {taken behind : List Raw} (h : remaining f n boundary = taken ++ behind)
    (hnil : taken = [] → behind = []) :
    f.above (watermark (boundary.getD 0) taken) = behind := by
  by_cases htaken : taken = []
  · rw [hnil htaken, htaken] at h ⊢
    cases boundary with
    | some uid => exact h
    | none =>
        have hmsgs : f.msgs = [] := by
          have hdrop := List.drop_eq_nil_iff.1 h
          rw [← List.length_eq_zero_iff]
          omega
        rw [Folder.above, hmsgs, List.filter_nil]
  · exact remaining_watermark f n h htaken

lemma watermark_le {f : Folder} {start : UID} {taken : List Raw} (hstart : start ≤ f.last)
    (htaken : ∀ raw ∈ taken, raw ∈ f.msgs) : watermark start taken ≤ f.last := by
  unfold watermark
  cases hlast : taken.getLast? with
  | none => exact hstart
  | some raw => exact f.le_last raw (htaken raw (List.mem_of_getLast? hlast))

/-- What a response carries: the letters of the first messages that are offered, and a cursor behind
the last of them. -/
lemma respond_spec (hheld : x.device.state.held.cursor = x.cursor) (hderives : x.Derives S letter)
    (hr : x.respond S budget letter others = some r) :
    ∃ taken behind, remaining x.inbox (windowOf S.resyncWindow)
        (cursorBoundary x.cursor x.uidValidity) = taken ++ behind ∧
      r.letters.map Letter.id = Exchange.ids S taken ∧
      (∀ l ∈ r.letters, nameIsSafe l.id = true) ∧
      r.cursor = encodeCursor x.uidValidity
        (watermark ((cursorBoundary x.cursor x.uidValidity).getD 0) taken) ∧
      x.inbox.above (watermark ((cursorBoundary x.cursor x.uidValidity).getD 0) taken) = behind ∧
      (∀ raw ∈ taken, raw ∈ x.inbox.msgs) ∧
      ∀ uid, cursorBoundary x.cursor x.uidValidity = some uid → taken.length ≤ fetchBatch := by
  obtain ⟨round, taken, behind, hround, hremaining, hletters, hlast, hmore, hdone⟩ :=
    assembleFrom_deriveAs S.encodedLength (fun raw => some (letter raw)) x.inbox
      (windowOf S.resyncWindow) budget (cursorBoundary x.cursor x.uidValidity)
  have hround' : assembleFrom S.encodedLength (fun raw => .ok (letter raw)) x.inbox
      (windowOf S.resyncWindow) budget (cursorBoundary x.cursor x.uidValidity) = .ok round := hround
  rw [respond, assembleLetters, hheld, hround'] at hr
  obtain rfl := Option.some.inj hr
  have hmem : ∀ raw ∈ taken, raw ∈ x.inbox.msgs := by
    intro raw hraw
    have hraw' : raw ∈ remaining x.inbox (windowOf S.resyncWindow)
        (cursorBoundary x.cursor x.uidValidity) := by
      rw [hremaining]
      exact List.mem_append_left _ hraw
    exact mem_of_mem_remaining hraw'
  have hid : ∀ raw ∈ taken, (letter raw).id = S.idOf raw :=
    fun raw hraw => hderives raw (hmem raw hraw)
  have hmap : round.letters = taken.map letter := by
    rw [hletters]
    exact congrFun List.filterMap_eq_map' taken
  refine ⟨taken, behind, hremaining, ?_, ?_, ?_, ?_, hmem, ?_⟩
  · rw [hmap, List.map_map]
    exact List.map_congr_left hid
  · intro l hl
    rw [hmap] at hl
    obtain ⟨raw, hraw, rfl⟩ := List.mem_map.1 hl
    rw [hid raw hraw]
    exact S.safe raw
  · exact congrArg (encodeCursor x.uidValidity) hlast
  · refine above_watermark (windowOf_pos _) hremaining fun hnil => hdone ?_
    by_contra hm
    exact hmore (by simpa using hm) hnil
  · intro uid huid
    rw [huid] at hround'
    have hlen := assembleFrom_length_le S.encodedLength x.inbox (windowOf S.resyncWindow) hround'
    rw [hmap, List.length_map] at hlen
    exact hlen

/-- The zone after a round, with the device as the round leaves it. -/
lemma Offered.caught_of_record {before passed rest ahead new beyond : List String}
    (h : Offered S before passed rest ahead x) {d : Engine} (hahead : ahead = new ++ beyond)
    (hring : Engine.Holds d.seen (x.log ++ new)) (hcap : d.seen.capacity = x.device.seen.capacity)
    (hheld : d.state.held.cursor = d.state.file.cursor)
    (hcursor : ∀ uid, cursorBoundary d.state.file.cursor x.uidValidity = some uid → ∃ passed' rest',
      passed ++ rest ++ new = passed' ++ rest' ∧
        Exchange.ids S (x.inbox.above uid) = rest' ++ beyond ∧
        rest'.length ≤ x.device.seen.capacity)
    (hmark : ∀ uid, cursorBoundary d.state.file.cursor x.uidValidity = some uid →
      uid ≤ x.inbox.last)
    (hminted : ∀ v u, decodeCursor d.state.file.cursor = some (v, u) → v ∈ x.spent) :
    Caught S before (passed ++ rest ++ new) beyond { x with device := d, log := x.log ++ new } := by
  obtain ⟨early, hearly, hlog⟩ := h.caught.log
  refine ⟨?_, h.caught.nodup, ⟨early, hearly, ?_⟩, h.caught.window, hring, ?_, ?_, hmark, hheld,
    hminted, h.caught.current⟩
  · rw [h.caught.ids, hahead]
    simp only [List.append_assoc]
  · rw [hlog]
    simp only [List.append_assoc]
  · rw [hcap]
    exact h.caught.room
  · rw [hcap]
    exact hcursor

/-- A sync. -/
lemma Caught.sync (h : Caught S before zone ahead x) (hderives : x.Derives S letter)
    (hr : x.respond S budget letter others = some r) :
    ∃ before zone ahead, Caught S before zone ahead { x with
      device := x.device.applied S.lettersKeep r
      log := x.log ++ (x.device.stored r).map Letter.id } := by
  obtain ⟨before, passed, rest, ahead, hoffered⟩ := h.offered
  obtain ⟨taken, behind, hremaining, hids, hsafe, hcursor, habove, hmem, -⟩ :=
    respond_spec h.held hderives hr
  have hls : rest ++ ahead = r.letters.map Letter.id ++ Exchange.ids S behind := by
    rw [← hoffered.remaining, hremaining, hids]
    exact List.map_append
  obtain ⟨known, new, beyond, hahead, hrest, hbehind, hlen, -, hfresh, hholds, hcap⟩ :=
    hoffered.record hsafe hls
  have hrecorded : (x.device.applied S.lettersKeep r).seen = _ ∧ _ ∧ _ :=
    Engine.recorded_of_applied hsafe h.held
  obtain ⟨hseen, hheld, hfile⟩ := hrecorded
  refine ⟨before, passed ++ rest ++ new, beyond, ?_⟩
  rw [Engine.stored, hfresh]
  refine hoffered.caught_of_record hahead (hseen ▸ hholds) (hseen ▸ hcap) (hheld.trans hfile.symm)
    ?_ ?_ ?_
  · intro uid huid
    rw [hfile, hcursor, cursorBoundary_encodeCursor_self] at huid
    obtain rfl := Option.some.inj huid
    refine ⟨passed ++ r.letters.map Letter.id, known, ?_, ?_, hlen⟩
    · rw [List.append_assoc, hrest, List.append_assoc]
    · rw [habove, hbehind]
  · intro uid huid
    rw [hfile, hcursor, cursorBoundary_encodeCursor_self] at huid
    obtain rfl := Option.some.inj huid
    refine watermark_le ?_ hmem
    cases hboundary : cursorBoundary x.cursor x.uidValidity with
    | none => exact Fin.zero_le _
    | some uid => exact h.mark uid hboundary
  · intro v u hvu
    rw [hfile, hcursor, decodeCursor_encodeCursor] at hvu
    obtain ⟨rfl, -⟩ := Prod.mk.inj (Option.some.inj hvu)
    exact h.current

/-- A sync that power cut. -/
lemma Caught.interrupted (h : Caught S before zone ahead x) (hderives : x.Derives S letter)
    (hr : x.respond S budget letter others = some r) (n : ℕ) (o : WriteOutcome) :
    ∃ before zone ahead, Caught S before zone ahead { x with
      device := (x.device.readUp { r with letters := r.letters.take n }).opened o
      log := x.log ++
        (x.device.stored { r with letters := r.letters.take n }).map Letter.id } := by
  obtain ⟨before, passed, rest, ahead, hoffered⟩ := h.offered
  obtain ⟨taken, behind, hremaining, hids, hsafe, -, -, -, hpage⟩ :=
    respond_spec h.held hderives hr
  have hsafe' : ∀ l ∈ r.letters.take n, nameIsSafe l.id = true :=
    fun l hl => hsafe l (List.mem_of_mem_take hl)
  have hls : rest ++ ahead = (r.letters.take n).map Letter.id ++
      ((r.letters.drop n).map Letter.id ++ Exchange.ids S behind) := by
    rw [← List.append_assoc, ← List.map_append, List.take_append_drop, ← hoffered.remaining,
      hremaining, hids]
    exact List.map_append
  obtain ⟨known, new, beyond, hahead, hrest, hbehind, hlen, hnew, hfresh, hholds, hcap⟩ :=
    hoffered.record hsafe' hls
  obtain ⟨hseen, hheld, hfile⟩ := Engine.recorded_of_readUp
    (r := { r with letters := r.letters.take n }) hsafe' h.held
  obtain ⟨hopened, hcap'⟩ := hholds.opened o
  have hfile' : (Engine.opened (x.device.readUp { r with letters := r.letters.take n })
      o).state.file.cursor = x.cursor := hfile
  refine ⟨before, passed ++ rest ++ new, beyond, ?_⟩
  rw [Engine.stored, hfresh]
  refine hoffered.caught_of_record hahead ?_ ?_ rfl ?_ ?_ ?_
  · rw [Engine.opened, hseen]
    exact hopened
  · rw [Engine.opened, hseen]
    exact hcap'.trans hcap
  · intro uid huid
    have hboundary : cursorBoundary x.cursor x.uidValidity = some uid := by
      rw [← hfile']
      exact huid
    have habove := hoffered.remaining
    rw [hboundary] at habove
    refine ⟨passed, rest ++ new, List.append_assoc _ _ _, ?_, ?_⟩
    · rw [List.append_assoc, ← hahead]
      exact habove
    · by_cases hknown : known = []
      · have hlen : (rest ++ new).length ≤ fetchBatch := by
          rw [hrest, hknown, List.append_nil, List.length_map]
          have htaken := congrArg List.length hids
          rw [Exchange.ids, List.length_map, List.length_map] at htaken
          have hpage := hpage uid hboundary
          have htake := List.length_take_le' n r.letters
          omega
        refine le_trans hlen (le_trans ?_ x.device.seen.minSeenIDs_le)
        decide
      · rw [hnew hknown, List.append_nil]
        exact hoffered.room
  · intro uid huid
    refine h.mark uid ?_
    rw [← hfile']
    exact huid
  · intro v u hvu
    refine h.minted v u ?_
    rw [← hfile']
    exact hvu

/-! ### The other events -/

lemma above_push {f : Folder} {raw : Raw} (hlast : f.last < raw.uid) {uid : UID}
    (huid : uid ≤ f.last) : (f.push raw hlast).above uid = f.above uid ++ [raw] := by
  change (f.msgs ++ [raw]).filter _ = _
  have hraw : decide (uid < raw.uid) = true := decide_eq_true (lt_of_le_of_lt huid hlast)
  rw [List.filter_append, List.filter_singleton, hraw]
  rfl

lemma ids_of_renumbers {f g : Folder} (h : f.Renumbers g) :
    Exchange.ids S f.msgs = Exchange.ids S g.msgs := by
  have hids : ∀ raws : List Raw, Exchange.ids S (raws.map fun m => { m with uid := 0 }) =
      Exchange.ids S raws := by
    intro raws
    rw [Exchange.ids, List.map_map]
    exact List.map_congr_left fun raw _ => S.idOf_renumbered raw 0
  rw [← hids f.msgs, ← hids g.msgs, h]

/-- A message arrives: it lies ahead. -/
lemma Caught.arrive (h : Caught S before zone ahead x) {raw : Raw} (hlast : x.inbox.last < raw.uid)
    (hid : S.idOf raw ∉ Exchange.ids S x.inbox.msgs) :
    Caught S before zone (ahead ++ [S.idOf raw]) { x with inbox := x.inbox.push raw hlast } := by
  have hids : Exchange.ids S (x.inbox.push raw hlast).msgs =
      Exchange.ids S x.inbox.msgs ++ [S.idOf raw] := List.map_append
  refine ⟨?_, ?_, h.log, ?_, h.ring, h.room, ?_, ?_, h.held, h.minted, h.current⟩
  · rw [hids, h.ids]
    simp only [List.append_assoc]
  · rw [hids]
    refine List.nodup_append.2 ⟨h.nodup, List.nodup_singleton _, ?_⟩
    intro a ha b hb hab
    rw [hab, List.mem_singleton.1 hb] at ha
    exact hid ha
  · have hlen : (x.inbox.push raw hlast).msgs.length = x.inbox.msgs.length + 1 :=
      List.length_append
    have hwindow := h.window
    change before.length ≤ (x.inbox.push raw hlast).msgs.length - windowOf S.resyncWindow
    omega
  · intro uid huid
    obtain ⟨passed, rest, hzone, habove, hroom⟩ := h.cursor uid huid
    refine ⟨passed, rest, hzone, ?_, hroom⟩
    change Exchange.ids S ((x.inbox.push raw hlast).above uid) = _
    rw [above_push hlast (h.mark uid huid), ← List.append_assoc, ← habove]
    exact List.map_append
  · exact fun uid huid => le_trans (h.mark uid huid) (le_of_lt hlast)

/-- The messages are renumbered: the cursor the device has says nothing any more. -/
lemma Caught.renumber (h : Caught S before zone ahead x) {uidValidity : UID} {inbox : Folder}
    (hnew : uidValidity ∉ x.spent) (hsame : inbox.Renumbers x.inbox) :
    Caught S before zone ahead { x with
      inbox := inbox
      uidValidity := uidValidity
      spent := uidValidity :: x.spent } := by
  have hids := ids_of_renumbers (S := S) hsame
  have hlen : inbox.msgs.length = x.inbox.msgs.length := by
    have hlen := congrArg List.length hids
    rwa [Exchange.ids, Exchange.ids, List.length_map, List.length_map] at hlen
  have hnone : cursorBoundary x.cursor uidValidity = none := by
    unfold cursorBoundary
    cases hdecode : decodeCursor x.cursor with
    | none => rfl
    | some vu =>
        obtain ⟨v, u⟩ := vu
        refine if_neg ?_
        rintro rfl
        exact hnew (h.minted v u hdecode)
  refine ⟨hids.trans h.ids, hids ▸ h.nodup, h.log, hlen ▸ h.window, h.ring, h.room, ?_, ?_, h.held,
    fun v u hvu => List.mem_cons_of_mem _ (h.minted v u hvu), List.mem_cons_self⟩
  · intro uid huid
    exact absurd (hnone.symm.trans huid) (by simp)
  · intro uid huid
    exact absurd (hnone.symm.trans huid) (by simp)

/-- The cursor is lost. -/
lemma Caught.forget (h : Caught S before zone ahead x) :
    Caught S before zone ahead { x with device := { x.device with
      state := ⟨{ x.device.state.file with cursor := "" },
        { x.device.state.held with cursor := "" }⟩ } } := by
  have hnone : cursorBoundary "" x.uidValidity = none := cursorBoundary_empty _
  refine ⟨h.ids, h.nodup, h.log, h.window, h.ring, h.room, ?_, ?_, rfl, ?_, h.current⟩
  · intro uid huid
    exact absurd (hnone.symm.trans huid) (by simp)
  · intro uid huid
    exact absurd (hnone.symm.trans huid) (by simp)
  · intro v u hvu
    change decodeCursor "" = some (v, u) at hvu
    rw [decodeCursor, if_pos rfl] at hvu
    cases hvu

lemma Caught.reboot (h : Caught S before zone ahead x) (o : WriteOutcome) :
    Caught S before zone ahead { x with device := x.device.opened o } := by
  obtain ⟨hring, hcap⟩ := h.ring.opened o
  refine ⟨h.ids, h.nodup, h.log, h.window, hring, le_of_le_of_eq h.room hcap.symm, ?_, h.mark, rfl,
    h.minted, h.current⟩
  intro uid huid
  obtain ⟨passed, rest, hzone, habove, hroom⟩ := h.cursor uid huid
  exact ⟨passed, rest, hzone, habove, le_of_le_of_eq hroom hcap.symm⟩

lemma Caught.step {e : Event} (h : Caught S before zone ahead x) (hstep : x.step S e = some x') :
    ∃ before zone ahead, Caught S before zone ahead x' := by
  cases e with
  | arrive raw =>
      rw [Exchange.step] at hstep
      split_ifs at hstep with hnew
      obtain rfl := Option.some.inj hstep
      exact ⟨_, _, _, h.arrive hnew.1 hnew.2⟩
  | renumber uidValidity inbox =>
      rw [Exchange.step] at hstep
      split_ifs at hstep with hnew
      obtain rfl := Option.some.inj hstep
      exact ⟨_, _, _, h.renumber hnew.1 hnew.2⟩
  | sync budget letter others =>
      rw [Exchange.step] at hstep
      split_ifs at hstep with hderives
      obtain ⟨r, hr, rfl⟩ := Option.map_eq_some_iff.1 hstep
      exact h.sync hderives hr
  | interrupted n o budget letter others =>
      rw [Exchange.step] at hstep
      split_ifs at hstep with hderives
      obtain ⟨r, hr, rfl⟩ := Option.map_eq_some_iff.1 hstep
      exact h.interrupted hderives hr n o
  | forget =>
      obtain rfl := Option.some.inj hstep
      exact ⟨_, _, _, h.forget⟩
  | reboot o =>
      obtain rfl := Option.some.inj hstep
      exact ⟨_, _, _, h.reboot o⟩

end Invariant

/-! ### The runs -/

/-- A device that was never synced, with room for the window in its ring. -/
structure Fresh (S : Setup) (x : Exchange) : Prop where
  nodup : (Exchange.ids S x.inbox.msgs).Nodup
  log : x.log = []
  ring : Engine.Holds x.device.seen []
  room : windowOf S.resyncWindow ≤ x.device.seen.capacity
  cursor : x.cursor = ""
  held : x.device.state.held.cursor = ""
  current : x.uidValidity ∈ x.spent

variable {S : Setup} {x₀ x : Exchange} {es : List Event}

lemma Fresh.caught (h : Fresh S x₀) : Caught S [] [] (ids S x₀.inbox.msgs) x₀ := by
  have hnone : cursorBoundary x₀.cursor x₀.uidValidity = none := by
    rw [h.cursor, cursorBoundary_empty]
  refine ⟨rfl, h.nodup, ⟨[], List.Sublist.refl _, h.log⟩, Nat.zero_le _, ?_, h.room, ?_, ?_,
    h.held.trans h.cursor.symm, ?_, h.current⟩
  · rw [h.log]
    exact h.ring
  · intro uid huid
    exact absurd (hnone.symm.trans huid) (by simp)
  · intro uid huid
    exact absurd (hnone.symm.trans huid) (by simp)
  · intro v u hvu
    rw [h.cursor, decodeCursor, if_pos rfl] at hvu
    cases hvu

end Exchange

namespace Sample

/-- A device that keeps one letter. -/
def smallShelf : Setup where
  encodedLength := fun _ => 0
  idOf := fun raw => if raw.data = [] then "m-0" else "m-1"
  idOf_renumbered := fun _ _ => rfl
  safe := fun raw => by
    split_ifs
    · decide
    · decide
  resyncWindow := 0
  lettersKeep := 1

def newDevice : Exchange where
  inbox := .empty
  uidValidity := 1
  spent := [1]
  device := { letters := ⟨[], []⟩, seen := .empty 1000, contacts := ⟨⟨0, []⟩, ⟨0, []⟩⟩ }

def message (uid : UID) (data : List UInt8) : Raw := ⟨uid, uid.val, data, .delivered⟩

def letterOf (raw : Raw) : Letter :=
  ⟨smallShelf.idOf raw, "rosa", "", raw.internalDate, "hola", false, false, false⟩

def noMail : SyncResponse where
  cursor := ""

/-- Two letters, of which one is evicted; the cursor is lost and the window is given again. -/
def resyncs : List Event :=
  [.arrive (message 1 []), .arrive (message 2 [1]), .sync 100000 letterOf noMail, .forget,
    .sync 100000 letterOf noMail]

end Sample

namespace Exchange

end Exchange
end Chaskiwasi.Device
