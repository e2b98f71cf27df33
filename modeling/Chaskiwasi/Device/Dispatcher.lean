import Chaskiwasi.Device.Screens
import Chaskiwasi.Lib.Run
import Mathlib.Algebra.BigOperators.Group.List.Basic
import Mathlib.Algebra.GroupWithZero.Nat

/-!
# Input below the screens

The dispatcher stands between the keyboard's driver and the screens.  A pump reads what waits in the
driver, at most `maxDrainPerPump` events of it, and returns one key for the screen; what else it
read waits in a queue.  Put-away and sync never reach a screen: their handlers run as soon as the
key is read, and put-away clears the queue.

A handler may call the dispatcher again, mask it or pump it, and keys may be struck at any time, so
the dispatcher is modelled by the steps of its loop: `poll` is one iteration, `ret` is a handler
that returns, `finish` is the end of a pump.  A frame is a pump that has begun, the innermost
first.  Every event has a number in the order in which they were struck.

That a put-away was read is known to the loop it was read by, and to nobody after that.  A key that
waited behind it is held back if the same loop reads it, and handed on if another one does.
-/

namespace Chaskiwasi.Device.Input

def maxDrainPerPump : ℕ := 64

def pendingCapacity : ℕ := 32

/-- An event in the driver, with its number. -/
structure Struck where
  id : ℕ
  event : KeyEvent
  deriving DecidableEq, Repr

inductive Handler
  | putAway
  | sync
  deriving DecidableEq, Repr

/-- A pump that has begun, in its loop or in the handler that it called. -/
structure Frame where
  polls : ℕ := 0
  putAwaySeen : Bool := false
  handler : Option Handler := none
  deriving DecidableEq, Repr

/-- What is written down of a run. -/
inductive Note
  /-- A pump begins, and feeds the watchdog. -/
  | fed
  /-- A key was read that is for the screens, while the dispatcher was masked or not and the queue
  full or not. -/
  | read (k : Struck) (masked full : Bool)
  /-- A put-away was read, while the driver held events up to a number, inside of the handler of
  another one or not. -/
  | putAway (k : Struck) (mark : ℕ) (inside : Bool)
  | called (h : Handler) (k : Struck)
  | masked (on : Bool)
  /-- A pump ends, and returns a key or none. -/
  | returned (out : Option Struck)
  deriving DecidableEq, Repr

structure Dispatcher where
  /-- What waits in the driver. -/
  driver : List Struck := []
  pending : List Struck := []
  masked : Bool := false
  putAwayActive : Bool := false
  syncActive : Bool := false
  frames : List Frame := []
  /-- The number of the next event. -/
  next : ℕ := 0
  /-- The number that was next when the last put-away was read. -/
  mark : ℕ := 0
  log : List Note := []
  deriving DecidableEq, Repr

inductive Act
  | strike (e : KeyEvent)
  | mask (on : Bool)
  | pump
  | poll
  | ret
  | finish
  deriving DecidableEq, Repr

namespace Dispatcher

/-- Another step of this pump's loop, or of a handler that it called, comes next. -/
def free (d : Dispatcher) : Bool :=
  match d.frames with
  | [] => true
  | f :: _ => f.handler.isSome

/-- A put-away's handler is running. -/
def inside (d : Dispatcher) : Bool := d.frames.any (·.handler = some .putAway)

def note (d : Dispatcher) (n : Note) : Dispatcher := { d with log := d.log ++ [n] }

def clear (d : Dispatcher) : Dispatcher := { d with pending := [] }

/-- `Push`: a full queue drops the newest. -/
def push (d : Dispatcher) (k : Struck) : Dispatcher :=
  if d.pending.length = pendingCapacity then d else { d with pending := d.pending ++ [k] }

/-- `Pop`. -/
def pop (d : Dispatcher) : Dispatcher × Option Struck :=
  match d.pending with
  | [] => (d, none)
  | k :: ks => ({ d with pending := ks }, some k)

/-- `Mask`. -/
def mask (d : Dispatcher) (on : Bool) : Dispatcher :=
  let d := { d.note (.masked on) with masked := on }
  if on then d.clear else d

/-- `FirePutAway`, up to its call of the handler. -/
def firePutAway (d : Dispatcher) (f : Frame) (rest : List Frame) (k : Struck) : Dispatcher :=
  if d.putAwayActive then { d with frames := f :: rest }
  else
    { d.note (.called .putAway k) with
      putAwayActive := true
      frames := { f with handler := some .putAway } :: rest }

/-- `FireSync`, up to its call of the handler. -/
def fireSync (d : Dispatcher) (f : Frame) (rest : List Frame) (k : Struck) : Dispatcher :=
  if d.syncActive then { d with frames := f :: rest }
  else
    { d.note (.called .sync k) with
      syncActive := true
      frames := { f with handler := some .sync } :: rest }

/-- The body of the loop in `Drain`. -/
def handle (d : Dispatcher) (f : Frame) (rest : List Frame) (k : Struck) : Dispatcher :=
  match k.event.key with
  | .putAway =>
      ({ d.clear with mark := d.next }.note (.putAway k d.next d.inside)).firePutAway
        { f with putAwaySeen := true } rest k
  | .sync => d.fireSync f rest k
  | _ =>
      let full := decide (d.pending.length = pendingCapacity)
      let d : Dispatcher := { d.note (.read k d.masked full) with frames := f :: rest }
      if d.masked ∨ f.putAwaySeen then d else d.push k

/-- The handler is active no longer. -/
def release (d : Dispatcher) : Handler → Dispatcher
  | .putAway => { d with putAwayActive := false }
  | .sync => { d with syncActive := false }

end Dispatcher

open Dispatcher

def step (d : Dispatcher) : Act → Option Dispatcher
  | .strike e => some { d with driver := d.driver ++ [⟨d.next, e⟩], next := d.next + 1 }
  | .mask on => if d.free then some (d.mask on) else none
  | .pump => if d.free then some { d.note .fed with frames := {} :: d.frames } else none
  | .poll =>
      match d.frames, d.driver with
      | f :: rest, k :: ks =>
          if f.handler = none ∧ f.polls < maxDrainPerPump then
            some ({ d with driver := ks }.handle { f with polls := f.polls + 1 } rest k)
          else none
      | _, _ => none
  | .ret =>
      match d.frames with
      | f :: rest =>
          f.handler.map fun h => { d.release h with frames := { f with handler := none } :: rest }
      | [] => none
  | .finish =>
      match d.frames with
      | f :: rest =>
          if f.handler = none ∧ (f.polls = maxDrainPerPump ∨ d.driver = []) then
            let r := { d with frames := rest }.pop
            some (r.1.note (.returned r.2))
          else none
      | [] => none

/-! ## What a step does -/

/-- The loop of the innermost pump reads the next event. -/
structure Polling (d : Dispatcher) (f : Frame) (rest : List Frame) (k : Struck)
    (ks : List Struck) : Prop where
  frames : d.frames = f :: rest
  driver : d.driver = k :: ks
  handler : f.handler = none
  polls : f.polls < maxDrainPerPump

/-- The ways a step can go. -/
inductive Moves (d : Dispatcher) : Act → Dispatcher → Prop
  | strike (e : KeyEvent) :
      Moves d (.strike e) { d with driver := d.driver ++ [⟨d.next, e⟩], next := d.next + 1 }
  | maskOn : Moves d (.mask true)
      { d with masked := true, pending := [], log := d.log ++ [.masked true] }
  | maskOff : Moves d (.mask false) { d with masked := false, log := d.log ++ [.masked false] }
  | pump : Moves d .pump { d with frames := {} :: d.frames, log := d.log ++ [.fed] }
  | putAway {f : Frame} {rest : List Frame} {k : Struck} {ks : List Struck}
      (h : Polling d f rest k ks) (hkey : k.event.key = .putAway)
      (hidle : d.putAwayActive = false) :
      Moves d .poll { d with
        driver := ks, pending := [], mark := d.next, putAwayActive := true
        frames := ⟨f.polls + 1, true, some .putAway⟩ :: rest
        log := d.log ++ [.putAway k d.next d.inside, .called .putAway k] }
  | putAwayAgain {f : Frame} {rest : List Frame} {k : Struck} {ks : List Struck}
      (h : Polling d f rest k ks) (hkey : k.event.key = .putAway)
      (hactive : d.putAwayActive = true) :
      Moves d .poll { d with
        driver := ks, pending := [], mark := d.next
        frames := ⟨f.polls + 1, true, none⟩ :: rest
        log := d.log ++ [.putAway k d.next d.inside] }
  | sync {f : Frame} {rest : List Frame} {k : Struck} {ks : List Struck}
      (h : Polling d f rest k ks) (hkey : k.event.key = .sync) (hidle : d.syncActive = false) :
      Moves d .poll { d with
        driver := ks, syncActive := true
        frames := ⟨f.polls + 1, f.putAwaySeen, some .sync⟩ :: rest
        log := d.log ++ [.called .sync k] }
  | syncAgain {f : Frame} {rest : List Frame} {k : Struck} {ks : List Struck}
      (h : Polling d f rest k ks) (hkey : k.event.key = .sync) :
      Moves d .poll
        { d with driver := ks, frames := ⟨f.polls + 1, f.putAwaySeen, none⟩ :: rest }
  | key {f : Frame} {rest : List Frame} {k : Struck} {ks pending : List Struck}
      (h : Polling d f rest k ks) (hkey : k.event.key ≠ .putAway ∧ k.event.key ≠ .sync)
      (hpending : pending = if d.masked ∨ f.putAwaySeen ∨ d.pending.length = pendingCapacity
        then d.pending else d.pending ++ [k]) :
      Moves d .poll { d with
        driver := ks, pending := pending
        frames := ⟨f.polls + 1, f.putAwaySeen, none⟩ :: rest
        log := d.log ++
          [.read k d.masked (decide (d.pending.length = pendingCapacity))] }
  | ret {f : Frame} {rest : List Frame} {h : Handler} (hframes : d.frames = f :: rest)
      (hhandler : f.handler = some h) :
      Moves d .ret { d.release h with frames := ⟨f.polls, f.putAwaySeen, none⟩ :: rest }
  | finish {f : Frame} {rest : List Frame} {out : Option Struck} {pending : List Struck}
      (hframes : d.frames = f :: rest) (hhandler : f.handler = none)
      (hdone : f.polls = maxDrainPerPump ∨ d.driver = [])
      (hpending : d.pending = out.toList ++ pending) :
      Moves d .finish
        { d with pending := pending, frames := rest, log := d.log ++ [.returned out] }

section Handle

variable {d : Dispatcher} {f : Frame} {rest : List Frame} {k : Struck}

lemma handle_putAway (hkey : k.event.key = .putAway) :
    d.handle f rest k =
      ({ d.clear with mark := d.next }.note (.putAway k d.next d.inside)).firePutAway
        { f with putAwaySeen := true } rest k := by
  rw [handle, hkey]

lemma handle_sync (hkey : k.event.key = .sync) : d.handle f rest k = d.fireSync f rest k := by
  rw [handle, hkey]

lemma handle_key (hkey : k.event.key ≠ .putAway ∧ k.event.key ≠ .sync) :
    d.handle f rest k =
      { d with
        pending := if d.masked ∨ f.putAwaySeen ∨ d.pending.length = pendingCapacity
          then d.pending else d.pending ++ [k]
        frames := f :: rest
        log := d.log ++ [.read k d.masked (decide (d.pending.length = pendingCapacity))] } := by
  have hdefault : d.handle f rest k =
      let d' : Dispatcher := { d with
        frames := f :: rest
        log := d.log ++ [.read k d.masked (decide (d.pending.length = pendingCapacity))] }
      if d.masked ∨ f.putAwaySeen then d' else d'.push k := by
    unfold handle
    split
    · exact absurd ‹_› hkey.1
    · exact absurd ‹_› hkey.2
    · rfl
  rw [hdefault]
  by_cases hheld : d.masked ∨ f.putAwaySeen
  · have hany : d.masked ∨ f.putAwaySeen ∨ d.pending.length = pendingCapacity :=
      hheld.imp_right Or.inl
    simp only [if_pos hheld, if_pos hany]
  · simp only [if_neg hheld, push]
    by_cases hfull : d.pending.length = pendingCapacity
    · rw [if_pos hfull, if_pos (Or.inr (Or.inr hfull))]
    · have hnone : ¬ (d.masked ∨ f.putAwaySeen ∨ d.pending.length = pendingCapacity) := by
        rintro (hm | hs | hl)
        · exact hheld (Or.inl hm)
        · exact hheld (Or.inr hs)
        · exact hfull hl
      rw [if_neg hfull, if_neg hnone]

lemma firePutAway_of_active (h : d.putAwayActive = true) :
    d.firePutAway f rest k = { d with frames := f :: rest } := if_pos h

lemma firePutAway_of_idle (h : d.putAwayActive = false) :
    d.firePutAway f rest k = { d.note (.called .putAway k) with
      putAwayActive := true
      frames := { f with handler := some .putAway } :: rest } := by
  rw [firePutAway, if_neg (by simp [h])]

lemma fireSync_of_active (h : d.syncActive = true) :
    d.fireSync f rest k = { d with frames := f :: rest } := if_pos h

lemma fireSync_of_idle (h : d.syncActive = false) :
    d.fireSync f rest k = { d.note (.called .sync k) with
      syncActive := true
      frames := { f with handler := some .sync } :: rest } := by
  rw [fireSync, if_neg (by simp [h])]

end Handle

lemma moves_of_handle {d : Dispatcher} {f : Frame} {rest : List Frame} {k : Struck}
    {ks : List Struck} (h : Polling d f rest k ks) :
    Moves d .poll ({ d with driver := ks }.handle { f with polls := f.polls + 1 } rest k) := by
  have hframe : { f with polls := f.polls + 1 } = (⟨f.polls + 1, f.putAwaySeen, none⟩ : Frame) := by
    rw [← h.handler]
  rw [hframe]
  by_cases hput : k.event.key = .putAway
  · rw [handle_putAway hput]
    rcases Bool.eq_false_or_eq_true d.putAwayActive with hactive | hactive
    · rw [firePutAway_of_active (by exact hactive)]
      exact .putAwayAgain h hput hactive
    · rw [firePutAway_of_idle (by exact hactive)]
      simp only [note, List.append_assoc]
      exact .putAway h hput hactive
  · by_cases hsync : k.event.key = .sync
    · rw [handle_sync hsync]
      rcases Bool.eq_false_or_eq_true d.syncActive with hactive | hactive
      · rw [fireSync_of_active (by exact hactive)]
        exact .syncAgain h hsync
      · rw [fireSync_of_idle (by exact hactive)]
        exact .sync h hsync hactive
    · rw [handle_key ⟨hput, hsync⟩]
      exact .key h ⟨hput, hsync⟩ rfl

lemma moves_of_step {d d' : Dispatcher} {act : Act} (h : step d act = some d') :
    Moves d act d' := by
  cases act with
  | strike e =>
      obtain rfl := Option.some.inj h
      exact .strike e
  | mask on =>
      rw [step] at h
      split at h
      · obtain rfl := Option.some.inj h
        cases on with
        | true => exact .maskOn
        | false => exact .maskOff
      · cases h
  | pump =>
      rw [step] at h
      split at h
      · obtain rfl := Option.some.inj h
        exact .pump
      · cases h
  | poll =>
      rw [step] at h
      split at h
      · rename_i f rest k ks hframes hdriver
        split at h
        · rename_i hpoll
          obtain rfl := Option.some.inj h
          exact moves_of_handle ⟨hframes, hdriver, hpoll.1, hpoll.2⟩
        · cases h
      · cases h
  | ret =>
      rw [step] at h
      split at h
      · rename_i f rest hframes
        obtain ⟨handler, hhandler, rfl⟩ := Option.map_eq_some_iff.1 h
        exact .ret hframes hhandler
      · cases h
  | finish =>
      rw [step] at h
      split at h
      · rename_i f rest hframes
        split at h
        · rename_i hdone
          obtain rfl := Option.some.inj h
          cases hpending : d.pending with
          | nil =>
              simp only [pop, note]
              exact @Moves.finish d f rest none [] hframes hdone.1 hdone.2 hpending
          | cons k ks =>
              simp only [pop, note]
              exact .finish hframes hdone.1 hdone.2 hpending
        · cases h
      · cases h

/-! ## What is asked of the dispatcher -/

/-- The pumps that ended. -/
def pumps (ns : List Note) : ℕ :=
  ns.countP fun
    | .returned _ => true
    | _ => false

/-- The keys the screens were given. -/
def delivered (ns : List Note) : List Struck :=
  ns.filterMap fun
    | .returned out => out
    | _ => none

/-- The keys for the screens that were read while the dispatcher was not masked. -/
def unmasked (ns : List Note) : List Struck :=
  ns.filterMap fun
    | .read k false _ => some k
    | _ => none

/-- The put-away was read, and its handler called, unless the handler of another one was running. -/
def Answered (p : Struck) (ns : List Note) : Prop :=
  ∃ mark inside, .putAway p mark inside ∈ ns ∧ (inside = false → .called .putAway p ∈ ns)

/-- A put-away that waits between two pumps is answered within as many pumps as it takes to read
what waits before it and the put-away itself. -/
def Fires (s t : Dispatcher) : Prop :=
  s.frames = [] → ∀ before p behind, s.driver = before ++ p :: behind →
    p.event.key = .putAway → ∀ seg, t.log = s.log ++ seg → ∀ n, before.length < n →
      (n + maxDrainPerPump - 1) / maxDrainPerPump ≤ pumps seg → Answered p seg

/-- Nothing that was struck before a put-away is delivered after it was read. -/
def Forgets (log : List Note) : Prop :=
  ∀ pre p mark inside post, log = pre ++ .putAway p mark inside :: post →
    ∀ k ∈ delivered post, p.id < k.id

/-- Nothing that waited in the driver when a put-away was read is delivered after that. -/
def HidesWaiting (log : List Note) : Prop :=
  ∀ pre p mark inside post, log = pre ++ .putAway p mark inside :: post →
    ∀ k ∈ delivered post, mark ≤ k.id

/-- No put-away, no mask, and no key that met a full queue. -/
def Quiet (seg : List Note) : Prop :=
  ∀ n ∈ seg, (∀ p mark inside, n ≠ .putAway p mark inside) ∧ n ≠ .masked true ∧
    ∀ k, n ≠ .read k false true

/-- From one moment between two pumps on, and as long as it is quiet, the keys that are not masked
are delivered in the order in which they were read. -/
def Ordered (s t : Dispatcher) : Prop :=
  s.frames = [] → ∀ seg, t.log = s.log ++ seg → Quiet seg →
    delivered seg ++ t.pending = s.pending ++ unmasked seg

/-- What is asked of every run. -/
def PutAwayFirst : Prop :=
  ∀ acts₀ acts s t, Run.run step {} acts₀ = some s → Run.run step s acts = some t →
    Fires s t ∧ Ordered s t ∧ Forgets t.log ∧ HidesWaiting t.log

/-- No loop that has read no put-away of its own reads a key while the dispatcher is not masked
and the queue has room, but one that was struck after the last put-away was read. -/
def Clean (d : Dispatcher) : Act → Prop
  | .poll => ∀ f ∈ d.frames.head?, ∀ k ∈ d.driver.head?, d.masked = false →
      f.putAwaySeen = false → d.pending.length ≠ pendingCapacity →
        k.event.key ≠ .putAway ∧ k.event.key ≠ .sync → d.mark ≤ k.id
  | _ => True

instance (d : Dispatcher) : ∀ act, Decidable (Clean d act)
  | .poll =>
      inferInstanceAs (Decidable (∀ f ∈ d.frames.head?, ∀ k ∈ d.driver.head?, d.masked = false →
        f.putAwaySeen = false → d.pending.length ≠ pendingCapacity →
          k.event.key ≠ .putAway ∧ k.event.key ≠ .sync → d.mark ≤ k.id))
  | .strike _ | .mask _ | .pump | .ret | .finish => isTrue trivial

/-! ## Numbers -/

/-- What is known of a put-away that was read: it was struck before all that waits. -/
structure Past (d : Dispatcher) (p : Struck) (mark : ℕ) : Prop where
  mark_le : mark ≤ d.mark
  id_lt : p.id < mark
  driver : ∀ k ∈ d.driver, p.id < k.id
  pending : ∀ k ∈ d.pending, p.id < k.id

/-- Events are numbered in the order in which they were struck, and read in that order. -/
structure Numbered (d : Dispatcher) : Prop where
  driver : (d.driver.map Struck.id).Pairwise (· < ·)
  next : ∀ k ∈ d.driver, k.id < d.next
  mark_le : d.mark ≤ d.next
  past : ∀ p mark inside, .putAway p mark inside ∈ d.log → Past d p mark

variable {d d' : Dispatcher} {act : Act}

lemma Past.mono {p : Struck} {mark : ℕ} (h : Past d p mark) (hmark : d.mark ≤ d'.mark)
    (hdriver : ∀ k ∈ d'.driver, k ∈ d.driver)
    (hpending : ∀ k ∈ d'.pending, k ∈ d.pending ∨ k ∈ d.driver) : Past d' p mark :=
  ⟨h.mark_le.trans hmark, h.id_lt, fun k hk => h.driver k (hdriver k hk), fun k hk =>
    (hpending k hk).elim (h.pending k) (h.driver k)⟩

/-- A step that reads no put-away and strikes nothing. -/
lemma Numbered.mono {ns : List Note} (h : Numbered d) (hlog : d'.log = d.log ++ ns)
    (hns : ∀ p mark inside, .putAway p mark inside ∉ ns) (hnext : d'.next = d.next)
    (hmark : d'.mark = d.mark) (hdriver : d'.driver.Sublist d.driver)
    (hpending : ∀ k ∈ d'.pending, k ∈ d.pending ∨ k ∈ d.driver) : Numbered d' := by
  refine ⟨h.driver.sublist (hdriver.map _), fun k hk => ?_, ?_, fun p mark inside hp => ?_⟩
  · exact hnext ▸ h.next k (hdriver.subset hk)
  · rw [hmark, hnext]
    exact h.mark_le
  · rw [hlog] at hp
    have hp := (List.mem_append.1 hp).resolve_right (hns p mark inside)
    exact (h.past p mark inside hp).mono hmark.ge (fun k hk => hdriver.subset hk) hpending

/-- A step that reads one. -/
lemma Numbered.read {f : Frame} {rest : List Frame} {k : Struck} {ks : List Struck}
    {inside : Bool} {ns : List Note} (h : Numbered d) (hpoll : Polling d f rest k ks)
    (hlog : d'.log = d.log ++ .putAway k d.next inside :: ns)
    (hns : ∀ p mark inside, .putAway p mark inside ∉ ns) (hnext : d'.next = d.next)
    (hmark : d'.mark = d.next) (hdriver : d'.driver = ks) (hpending : d'.pending = []) :
    Numbered d' := by
  have hsorted := h.driver
  rw [hpoll.driver, List.map_cons, List.pairwise_cons] at hsorted
  have hmem : ∀ j ∈ d'.driver, j ∈ d.driver := by
    intro j hj
    rw [hpoll.driver]
    exact List.mem_cons_of_mem k (hdriver ▸ hj)
  have hnone : ∀ j ∈ d'.pending, j ∈ d.pending ∨ j ∈ d.driver := by
    intro j hj
    rw [hpending] at hj
    cases hj
  refine ⟨hdriver ▸ hsorted.2, fun j hj => hnext ▸ h.next j (hmem j hj), ?_,
    fun p mark inside' hp => ?_⟩
  · rw [hmark, hnext]
  · rw [hlog, List.mem_append, List.mem_cons] at hp
    rcases hp with hp | hp | hp
    · exact (h.past p mark inside' hp).mono (h.mark_le.trans hmark.ge) hmem hnone
    · obtain ⟨rfl, rfl, rfl⟩ := Note.putAway.inj hp
      have hk : p.id < d.next := h.next p (hpoll.driver ▸ List.mem_cons_self)
      refine ⟨hmark.ge, hk, fun j hj => ?_, fun j hj => ?_⟩
      · exact hsorted.1 j.id (List.mem_map_of_mem (hdriver ▸ hj))
      · rw [hpending] at hj
        cases hj
    · exact absurd hp (hns p mark inside')

lemma Numbered.step (h : Numbered d) (hstep : step d act = some d') : Numbered d' := by
  have htail : ∀ {f rest k ks}, Polling d f rest k ks → ks.Sublist d.driver := by
    intro f rest k ks hpoll
    rw [hpoll.driver]
    exact List.sublist_cons_self k ks
  cases moves_of_step hstep with
  | strike e =>
      refine ⟨?_, ?_, h.mark_le.trans (Nat.le_succ _), fun p mark inside hp => ?_⟩
      · rw [List.map_append, List.pairwise_append]
        refine ⟨h.driver, List.pairwise_singleton _ _, ?_⟩
        simp only [List.mem_map, List.map_singleton, List.mem_singleton]
        rintro i ⟨k, hk, rfl⟩ j rfl
        exact h.next k hk
      · simp only [List.mem_append, List.mem_singleton]
        rintro k (hk | rfl)
        · exact (h.next k hk).trans (Nat.lt_succ_self _)
        · exact Nat.lt_succ_self _
      · have hpast := h.past p mark inside hp
        refine ⟨hpast.mark_le, hpast.id_lt, fun k hk => ?_, hpast.pending⟩
        rcases List.mem_append.1 hk with hk | hk
        · exact hpast.driver k hk
        · rw [List.mem_singleton.1 hk]
          exact hpast.id_lt.trans_le (hpast.mark_le.trans h.mark_le)
  | maskOn =>
      exact h.mono rfl (by simp) rfl rfl (List.Sublist.refl _) fun k hk => absurd hk (by simp)
  | maskOff => exact h.mono rfl (by simp) rfl rfl (List.Sublist.refl _) fun k hk => Or.inl hk
  | pump => exact h.mono rfl (by simp) rfl rfl (List.Sublist.refl _) fun k hk => Or.inl hk
  | putAway hpoll => exact h.read hpoll rfl (by simp) rfl rfl rfl rfl
  | putAwayAgain hpoll => exact h.read hpoll rfl (by simp) rfl rfl rfl rfl
  | sync hpoll => exact h.mono rfl (by simp) rfl rfl (htail hpoll) fun k hk => Or.inl hk
  | syncAgain hpoll =>
      exact h.mono (List.append_nil _).symm (by simp) rfl rfl (htail hpoll) fun k hk => Or.inl hk
  | key hpoll hkey hpending =>
      refine h.mono rfl (by simp) rfl rfl (htail hpoll) fun j hj => ?_
      subst hpending
      split at hj
      · exact Or.inl hj
      · rcases List.mem_append.1 hj with hj | hj
        · exact Or.inl hj
        · rw [List.mem_singleton.1 hj, hpoll.driver]
          exact Or.inr List.mem_cons_self
  | @ret f rest handler =>
      cases handler with
      | putAway | sync =>
          exact h.mono (List.append_nil _).symm (by simp) rfl rfl (List.Sublist.refl _)
            fun k hk => Or.inl hk
  | finish _ _ _ hpending =>
      refine h.mono rfl (by simp) rfl rfl (List.Sublist.refl _) fun k hk => Or.inl ?_
      rw [hpending]
      exact List.mem_append_right _ hk

/-! ## What is delivered after a put-away -/

lemma delivered_append (ns ms : List Note) : delivered (ns ++ ms) = delivered ns ++ delivered ms :=
  List.filterMap_append

/-- A property of what follows a put-away in the log, where the log grows. -/
lemma forall_after_append {R : Struck → ℕ → Struck → Prop} {log ns : List Note}
    (h : ∀ pre p mark inside post, log = pre ++ .putAway p mark inside :: post →
      ∀ k ∈ delivered post, R p mark k)
    (hold : ∀ p mark inside, .putAway p mark inside ∈ log → ∀ k ∈ delivered ns, R p mark k)
    (hnew : ∀ pre p mark inside post, ns = pre ++ .putAway p mark inside :: post →
      delivered post = []) :
    ∀ pre p mark inside post, log ++ ns = pre ++ .putAway p mark inside :: post →
      ∀ k ∈ delivered post, R p mark k := by
  intro pre p mark inside post heq k hk
  rcases List.append_eq_append_iff.1 heq with ⟨l, hpre, hns⟩ | ⟨l, hlog, hpost⟩
  · rw [hnew l p mark inside post hns] at hk
    cases hk
  · cases l with
    | nil =>
        rw [List.nil_append] at hpost
        rw [hnew [] p mark inside post hpost.symm] at hk
        cases hk
    | cons n l =>
        rw [List.cons_append] at hpost
        obtain ⟨rfl, rfl⟩ := List.cons.inj hpost
        rw [delivered_append, List.mem_append] at hk
        rcases hk with hk | hk
        · exact h pre p mark inside l hlog k hk
        · exact hold p mark inside (hlog ▸ List.mem_append_right _ List.mem_cons_self) k hk

/-- What a step writes down: a key that is delivered comes from the queue. -/
lemma exists_notes (hstep : step d act = some d') :
    ∃ ns, d'.log = d.log ++ ns ∧ (∀ k ∈ delivered ns, k ∈ d.pending) ∧
      ∀ pre p mark inside post, ns = pre ++ .putAway p mark inside :: post →
        delivered post = [] := by
  have hnil : ∀ (pre post : List Note) (n : Note), [] = pre ++ n :: post → delivered post = [] :=
    fun pre post n h => absurd h (by simp)
  have hone : ∀ (m : Note) (pre post : List Note) (n : Note), [m] = pre ++ n :: post →
      delivered post = [] := by
    intro m pre post n h
    cases pre with
    | nil =>
        obtain ⟨-, rfl⟩ := List.cons.inj h
        rfl
    | cons _ pre => exact hnil pre post n (List.cons.inj h).2
  cases moves_of_step hstep with
  | strike | syncAgain =>
      exact ⟨[], (List.append_nil _).symm, by simp [delivered], fun _ _ _ _ _ => hnil _ _ _⟩
  | maskOn | maskOff | pump | putAwayAgain | sync | key =>
      exact ⟨_, rfl, by simp [delivered], fun _ _ _ _ _ => hone _ _ _ _⟩
  | putAway =>
      refine ⟨_, rfl, by simp [delivered], fun pre p mark inside post h => ?_⟩
      cases pre with
      | nil =>
          obtain ⟨-, rfl⟩ := List.cons.inj h
          rfl
      | cons _ pre => exact hone _ pre post _ (List.cons.inj h).2
  | @ret f rest handler =>
      cases handler with
      | putAway | sync =>
          exact ⟨[], (List.append_nil _).symm, by simp [delivered], fun _ _ _ _ _ => hnil _ _ _⟩
  | @finish f rest out pending _ _ _ hpending =>
      refine ⟨_, rfl, fun k hk => ?_, fun _ _ _ _ _ => hone _ _ _ _⟩
      cases out with
      | none => cases hk
      | some j =>
          rw [List.mem_singleton.1 hk, hpending]
          exact List.mem_append_left _ (List.mem_singleton_self j)

lemma Forgets.step (h : Forgets d.log) (hnumbered : Numbered d) (hstep : step d act = some d') :
    Forgets d'.log := by
  obtain ⟨ns, hlog, hdelivered, hafter⟩ := exists_notes hstep
  rw [hlog]
  exact forall_after_append (R := fun p _ k => p.id < k.id) h
    (fun p mark inside hp k hk => (hnumbered.past p mark inside hp).pending k (hdelivered k hk))
    hafter

/-- The keys in the queue were struck after the last put-away was read, and so were all that were
delivered since. -/
structure Fresh (d : Dispatcher) : Prop where
  pending : ∀ k ∈ d.pending, d.mark ≤ k.id
  hides : HidesWaiting d.log

lemma Fresh.step (h : Fresh d) (hnumbered : Numbered d) (hclean : Clean d act)
    (hstep : step d act = some d') : Fresh d' := by
  refine ⟨?_, ?_⟩
  · cases moves_of_step hstep with
    | strike | maskOff | pump | sync | syncAgain => exact h.pending
    | maskOn | putAway | putAwayAgain => exact fun k hk => absurd hk (by simp)
    | @key f rest k ks pending hpoll hkey hpending =>
        intro j hj
        subst hpending
        split at hj
        · exact h.pending j hj
        · rename_i hroom
          rw [not_or, not_or, Bool.not_eq_true, Bool.not_eq_true] at hroom
          rcases List.mem_append.1 hj with hj | hj
          · exact h.pending j hj
          · rw [List.mem_singleton.1 hj]
            exact hclean f (hpoll.frames ▸ rfl) k (hpoll.driver ▸ rfl) hroom.1 hroom.2.1
              hroom.2.2 hkey
    | @ret f rest handler =>
        cases handler with
        | putAway | sync => exact h.pending
    | finish _ _ _ hpending =>
        intro k hk
        exact h.pending k (hpending ▸ List.mem_append_right _ hk)
  · obtain ⟨ns, hlog, hdelivered, hafter⟩ := exists_notes hstep
    rw [hlog]
    refine forall_after_append (R := fun _ mark k => mark ≤ k.id) h.hides
      (fun p mark inside hp k hk => ?_) hafter
    exact (hnumbered.past p mark inside hp).mark_le.trans (h.pending k (hdelivered k hk))

/-! ## The pumps that a put-away waits for -/

/-- A put-away is active while its handler runs, and there is one such handler at most. -/
def Guarded (d : Dispatcher) : Prop :=
  d.frames.countP (·.handler = some .putAway) = d.putAwayActive.toNat

lemma Guarded.step (h : Guarded d) (hstep : step d act = some d') : Guarded d' := by
  have hpolls : ∀ {f rest k ks} (s : Bool), Polling d f rest k ks →
      ((⟨f.polls + 1, s, none⟩ :: rest : List Frame).countP (·.handler = some .putAway)) =
        d.frames.countP (·.handler = some .putAway) := by
    intro f rest k ks s hpoll
    rw [hpoll.frames, List.countP_cons_of_neg (by simp), List.countP_cons_of_neg]
    simp [hpoll.handler]
  rw [Guarded] at h ⊢
  cases moves_of_step hstep with
  | strike | maskOn | maskOff => exact h
  | pump =>
      rw [List.countP_cons_of_neg (by simp)]
      exact h
  | putAway hpoll _ hidle =>
      rw [← hpolls true hpoll, hidle, List.countP_cons_of_neg (by simp)] at h
      rw [List.countP_cons_of_pos (by simp), h]
      rfl
  | putAwayAgain hpoll => exact (hpolls true hpoll).trans h
  | sync hpoll =>
      rw [← hpolls true hpoll, List.countP_cons_of_neg (by simp)] at h
      rw [List.countP_cons_of_neg (by simp)]
      exact h
  | syncAgain hpoll | key hpoll => exact (hpolls _ hpoll).trans h
  | @ret f rest handler hframes hhandler =>
      rw [hframes] at h
      cases handler with
      | putAway =>
          rw [List.countP_cons_of_pos (by simp [hhandler])] at h
          have hle := Bool.toNat_le d.putAwayActive
          rw [List.countP_cons_of_neg (by simp)]
          show _ = 0
          omega
      | sync =>
          rw [List.countP_cons_of_neg (by simp [hhandler])] at h
          rw [List.countP_cons_of_neg (by simp)]
          exact h
  | finish hframes hhandler =>
      rw [hframes, List.countP_cons_of_neg (by simp [hhandler])] at h
      exact h

lemma Guarded.inside (h : Guarded d) (hactive : d.putAwayActive = true) : d.inside = true := by
  rw [Guarded, hactive] at h
  have hpos : 0 < d.frames.countP (·.handler = some .putAway) := by
    rw [h]
    decide
  obtain ⟨f, hf, hhandler⟩ := List.countP_pos_iff.1 hpos
  exact List.any_eq_true.2 ⟨f, hf, hhandler⟩

lemma pumps_append (ns ms : List Note) : pumps (ns ++ ms) = pumps ns + pumps ms :=
  List.countP_append

/-- The put-away was read, or the pumps since have read what is missing before it. -/
def Awaited (s : Dispatcher) (before : List Struck) (p : Struck) (d : Dispatcher) : Prop :=
  ∃ seg, d.log = s.log ++ seg ∧
    (Answered p seg ∨ ∃ left behind, d.driver = left ++ p :: behind ∧
      left.length + maxDrainPerPump * pumps seg + (d.frames.map Frame.polls).sum ≤ before.length)

variable {s : Dispatcher} {before : List Struck} {p : Struck}

lemma Answered.append_right {ns : List Note} (h : Answered p ns) (ms : List Note) :
    Answered p (ns ++ ms) := by
  obtain ⟨mark, inside, hmem, hcalled⟩ := h
  exact ⟨mark, inside, List.mem_append_left _ hmem, fun hi => List.mem_append_left _ (hcalled hi)⟩

lemma Answered.append_left {ns : List Note} (h : Answered p ns) (ms : List Note) :
    Answered p (ms ++ ns) := by
  obtain ⟨mark, inside, hmem, hcalled⟩ := h
  exact ⟨mark, inside, List.mem_append_right _ hmem, fun hi => List.mem_append_right _ (hcalled hi)⟩

/-- A step that reads nothing and ends no pump. -/
lemma Awaited.mono {ns : List Note} (h : Awaited s before p d) (hlog : d'.log = d.log ++ ns)
    (hns : pumps ns = 0) (hdriver : ∃ more, d'.driver = d.driver ++ more)
    (hframes : (d'.frames.map Frame.polls).sum = (d.frames.map Frame.polls).sum) :
    Awaited s before p d' := by
  obtain ⟨seg, hseg, hread | ⟨left, behind, hleft, hpolls⟩⟩ := h
  · exact ⟨seg ++ ns, by rw [hlog, hseg, List.append_assoc], Or.inl (hread.append_right ns)⟩
  · obtain ⟨more, hmore⟩ := hdriver
    refine ⟨seg ++ ns, by rw [hlog, hseg, List.append_assoc],
      Or.inr ⟨left, behind ++ more, ?_, ?_⟩⟩
    · rw [hmore, hleft, List.append_assoc, List.cons_append]
    · rw [pumps_append, hns, Nat.add_zero, hframes]
      exact hpolls

/-- A step that reads another event. -/
lemma Awaited.poll {f : Frame} {rest : List Frame} {k : Struck} {ks : List Struck} {ns : List Note}
    {handler : Option Handler} {seen : Bool} (h : Awaited s before p d)
    (hpoll : Polling d f rest k ks)
    (hown : k = p → Answered p ns)
    (hlog : d'.log = d.log ++ ns) (hns : pumps ns = 0) (hdriver : d'.driver = ks)
    (hframes : d'.frames = ⟨f.polls + 1, seen, handler⟩ :: rest) : Awaited s before p d' := by
  obtain ⟨seg, hseg, hread | ⟨left, behind, hleft, hpolls⟩⟩ := h
  · exact ⟨seg ++ ns, by rw [hlog, hseg, List.append_assoc], Or.inl (hread.append_right ns)⟩
  · refine ⟨seg ++ ns, by rw [hlog, hseg, List.append_assoc], ?_⟩
    rw [hpoll.driver] at hleft
    rw [hpoll.frames, List.map_cons, List.sum_cons] at hpolls
    cases left with
    | nil => exact Or.inl ((hown (List.cons.inj hleft).1).append_left seg)
    | cons j left =>
        rw [List.cons_append] at hleft
        refine Or.inr ⟨left, behind, hdriver.trans (List.cons.inj hleft).2, ?_⟩
        rw [pumps_append, hns, Nat.add_zero, hframes, List.map_cons, List.sum_cons]
        rw [List.length_cons] at hpolls
        show left.length + maxDrainPerPump * pumps seg +
          (f.polls + 1 + (rest.map Frame.polls).sum) ≤ before.length
        omega

/-- A pump ends, and has read as much as a pump reads. -/
lemma Awaited.finish {f : Frame} {rest : List Frame} {out : Option Struck}
    (h : Awaited s before p d) (hframes : d.frames = f :: rest)
    (hdone : f.polls = maxDrainPerPump ∨ d.driver = [])
    (hlog : d'.log = d.log ++ [.returned out]) (hdriver : d'.driver = d.driver)
    (hrest : d'.frames = rest) : Awaited s before p d' := by
  obtain ⟨seg, hseg, hread | ⟨left, behind, hleft, hpolls⟩⟩ := h
  · exact ⟨seg ++ [.returned out], by rw [hlog, hseg, List.append_assoc],
      Or.inl (hread.append_right _)⟩
  · refine ⟨seg ++ [.returned out], by rw [hlog, hseg, List.append_assoc],
      Or.inr ⟨left, behind, hdriver.trans hleft, ?_⟩⟩
    have hall : f.polls = maxDrainPerPump := by
      refine hdone.resolve_right fun hnone => ?_
      rw [hnone] at hleft
      exact absurd hleft (by simp)
    rw [hframes, List.map_cons, List.sum_cons, hall] at hpolls
    have hone : pumps [.returned out] = 1 := rfl
    rw [pumps_append, hone, hrest, Nat.mul_add, Nat.mul_one]
    omega

lemma Awaited.step (h : Awaited s before p d) (hp : p.event.key = .putAway) (hguarded : Guarded d)
    (hstep : step d act = some d') : Awaited s before p d' := by
  have hother : ∀ {k : Struck} {ns : List Note}, k.event.key ≠ .putAway → k = p → Answered p ns :=
    fun hkey heq => absurd (heq ▸ hp) hkey
  cases moves_of_step hstep with
  | strike e => exact h.mono (List.append_nil _).symm rfl ⟨_, rfl⟩ rfl
  | maskOn | maskOff => exact h.mono rfl rfl ⟨[], (List.append_nil _).symm⟩ rfl
  | pump => exact h.mono rfl rfl ⟨[], (List.append_nil _).symm⟩ (by simp)
  | @putAway f rest k ks hpoll =>
      refine h.poll hpoll ?_ rfl rfl rfl rfl
      rintro rfl
      exact ⟨d.next, d.inside, List.mem_cons_self, fun _ =>
        List.mem_cons_of_mem _ (List.mem_singleton_self _)⟩
  | @putAwayAgain f rest k ks hpoll _ hactive =>
      refine h.poll hpoll ?_ rfl rfl rfl rfl
      rintro rfl
      refine ⟨d.next, d.inside, List.mem_singleton_self _, fun hi => ?_⟩
      rw [hguarded.inside hactive] at hi
      cases hi
  | sync hpoll hkey =>
      exact h.poll hpoll (hother (hkey ▸ by decide)) rfl rfl rfl rfl
  | syncAgain hpoll hkey =>
      exact h.poll hpoll (hother (hkey ▸ by decide)) (List.append_nil _).symm rfl rfl rfl
  | key hpoll hkey => exact h.poll hpoll (hother hkey.1) rfl rfl rfl rfl
  | @ret f rest handler hframes =>
      cases handler with
      | putAway | sync =>
          refine h.mono (List.append_nil _).symm rfl ⟨[], (List.append_nil _).symm⟩ ?_
          rw [hframes]
          rfl
  | finish hframes _ hdone => exact h.finish hframes hdone rfl rfl rfl

lemma fires_of_run {acts : List Act} {t : Dispatcher} (hguarded : Guarded s)
    (hrun : Run.run step s acts = some t) : Fires s t := by
  intro hframes before p behind hdriver hp seg hseg n hn hpumps
  have hstart : Awaited s before p s := by
    refine ⟨[], (List.append_nil _).symm, Or.inr ⟨before, behind, hdriver, ?_⟩⟩
    rw [hframes]
    exact le_refl _
  have hend := Run.run_invariant (I := fun d => Guarded d ∧ Awaited s before p d)
    (fun d act d' h hstep => ⟨h.1.step hstep, h.2.step hp h.1 hstep⟩) ⟨hguarded, hstart⟩ hrun
  obtain ⟨-, seg', hseg', hread | ⟨left, behind', -, hpolls⟩⟩ := hend
  · obtain rfl := List.append_cancel_left (hseg.symm.trans hseg')
    exact hread
  · obtain rfl := List.append_cancel_left (hseg.symm.trans hseg')
    -- that many pumps have read more than what waited before it
    have hmax : maxDrainPerPump = 64 := rfl
    rw [hmax] at hpumps hpolls
    omega

/-! ## No pump gets stuck -/

/-- No pump has read more than a pump reads. -/
def Bounded (d : Dispatcher) : Prop := ∀ f ∈ d.frames, f.polls ≤ maxDrainPerPump

lemma Bounded.step (h : Bounded d) (hstep : step d act = some d') : Bounded d' := by
  have hpolled : ∀ {f rest k ks} (seen : Bool) (handler : Option Handler),
      Polling d f rest k ks →
        ∀ g ∈ (⟨f.polls + 1, seen, handler⟩ :: rest : List Frame), g.polls ≤ maxDrainPerPump := by
    intro f rest k ks seen handler hpoll
    rw [Bounded, hpoll.frames] at h
    exact List.forall_mem_cons.2 ⟨hpoll.polls, (List.forall_mem_cons.1 h).2⟩
  cases moves_of_step hstep with
  | strike | maskOn | maskOff => exact h
  | pump => exact List.forall_mem_cons.2 ⟨Nat.zero_le _, h⟩
  | putAway hpoll | putAwayAgain hpoll | sync hpoll | syncAgain hpoll | key hpoll =>
      exact hpolled _ _ hpoll
  | ret hframes =>
      rw [Bounded, hframes] at h
      exact List.forall_mem_cons.2 ⟨(List.forall_mem_cons.1 h).1, (List.forall_mem_cons.1 h).2⟩
  | finish hframes =>
      rw [Bounded, hframes] at h
      exact (List.forall_mem_cons.1 h).2

/-- Outside of its handlers a pump can read on or end, and it reads no more than a pump reads. -/
theorem exists_next_of_run {acts : List Act} {t : Dispatcher} {f : Frame} {rest : List Frame}
    (hrun : Run.run step {} acts = some t) (hframes : t.frames = f :: rest)
    (hhandler : f.handler = none) :
    f.polls ≤ maxDrainPerPump ∧
      ((∃ t', step t .poll = some t') ∨ ∃ t', step t .finish = some t') := by
  have hstart : Bounded {} := fun f hf => absurd hf (by simp)
  have hbounded := Run.run_invariant (fun _ _ _ h hstep => h.step hstep) hstart hrun
  have hle : f.polls ≤ maxDrainPerPump := hbounded f (hframes ▸ List.mem_cons_self)
  have hfinish : f.polls = maxDrainPerPump ∨ t.driver = [] → ∃ t', step t .finish = some t' := by
    intro hdone
    refine Option.isSome_iff_exists.1 ?_
    simp only [step, hframes, hhandler, hdone, and_self, if_true, Option.isSome_some]
  refine ⟨hle, ?_⟩
  rcases hle.lt_or_eq with hlt | hall
  · cases hdriver : t.driver with
    | nil => exact Or.inr (hfinish (Or.inr hdriver))
    | cons k ks =>
        refine Or.inl (Option.isSome_iff_exists.1 ?_)
        simp only [step, hframes, hhandler, hdriver, hlt, and_self, if_true, Option.isSome_some]
  · exact Or.inr (hfinish (Or.inl hall))

/-! ## The order of the keys -/

lemma unmasked_append (ns ms : List Note) : unmasked (ns ++ ms) = unmasked ns ++ unmasked ms :=
  List.filterMap_append

/-- As long as it is quiet, no put-away was seen, and what was read is delivered or waits. -/
def InOrder (s d : Dispatcher) : Prop :=
  ∃ seg, d.log = s.log ++ seg ∧ (Quiet seg →
    (∀ f ∈ d.frames, f.putAwaySeen = false) ∧
      delivered seg ++ d.pending = s.pending ++ unmasked seg)

lemma InOrder.append {ns : List Note} (h : InOrder s d) (hlog : d'.log = d.log ++ ns)
    (hnew : Quiet ns → (∀ f ∈ d.frames, f.putAwaySeen = false) →
      (∀ f ∈ d'.frames, f.putAwaySeen = false) ∧
        delivered ns ++ d'.pending = d.pending ++ unmasked ns) : InOrder s d' := by
  obtain ⟨seg, hseg, hquiet⟩ := h
  refine ⟨seg ++ ns, by rw [hlog, hseg, List.append_assoc], fun hall => ?_⟩
  rw [Quiet, List.forall_mem_append] at hall
  obtain ⟨hframes, horder⟩ := hquiet hall.1
  obtain ⟨hframes', horder'⟩ := hnew hall.2 hframes
  refine ⟨hframes', ?_⟩
  rw [delivered_append, unmasked_append, List.append_assoc, horder', ← List.append_assoc, horder,
    List.append_assoc]

lemma InOrder.step (h : InOrder s d) (hstep : step d act = some d') : InOrder s d' := by
  have hpolled : ∀ {f rest k ks} (handler : Option Handler), Polling d f rest k ks →
      (∀ g ∈ d.frames, g.putAwaySeen = false) →
        ∀ g ∈ (⟨f.polls + 1, f.putAwaySeen, handler⟩ :: rest : List Frame),
          g.putAwaySeen = false := by
    intro f rest k ks handler hpoll hframes
    rw [hpoll.frames] at hframes
    exact List.forall_mem_cons.2 ⟨(List.forall_mem_cons.1 hframes).1,
      (List.forall_mem_cons.1 hframes).2⟩
  cases moves_of_step hstep with
  | strike =>
      exact h.append (List.append_nil _).symm fun _ hf => ⟨hf, by simp [delivered, unmasked]⟩
  | maskOn =>
      exact h.append rfl fun hquiet _ => absurd rfl (hquiet _ (List.mem_singleton_self _)).2.1
  | maskOff => exact h.append rfl fun _ hf => ⟨hf, by simp [delivered, unmasked]⟩
  | pump =>
      exact h.append rfl fun _ hf =>
        ⟨List.forall_mem_cons.2 ⟨rfl, hf⟩, by simp [delivered, unmasked]⟩
  | putAway => exact h.append rfl fun hquiet _ => absurd rfl ((hquiet _ List.mem_cons_self).1 _ _ _)
  | putAwayAgain =>
      exact h.append rfl fun hquiet _ => absurd rfl ((hquiet _ List.mem_cons_self).1 _ _ _)
  | sync hpoll =>
      exact h.append rfl fun _ hf => ⟨hpolled _ hpoll hf, by simp [delivered, unmasked]⟩
  | syncAgain hpoll =>
      exact h.append (List.append_nil _).symm fun _ hf =>
        ⟨hpolled _ hpoll hf, by simp [delivered, unmasked]⟩
  | @key f rest k ks pending hpoll _ hpending =>
      refine h.append rfl fun hquiet hf => ⟨hpolled _ hpoll hf, ?_⟩
      have hseen : f.putAwaySeen = false := hf f (hpoll.frames ▸ List.mem_cons_self)
      have hroom := (hquiet _ (List.mem_singleton_self _)).2.2 k
      subst hpending
      cases hmasked : d.masked with
      | true => simp [delivered, unmasked]
      | false =>
          have hlength : d.pending.length ≠ pendingCapacity := by
            intro hfull
            exact hroom (by rw [hmasked, decide_eq_true hfull])
          simp [delivered, unmasked, hseen, hlength]
  | @ret f rest handler hframes =>
      cases handler with
      | putAway | sync =>
          refine h.append (List.append_nil _).symm fun _ hf => ⟨?_, ?_⟩
          · rw [hframes] at hf
            exact List.forall_mem_cons.2
              ⟨(List.forall_mem_cons.1 hf).1, (List.forall_mem_cons.1 hf).2⟩
          · simp [delivered, unmasked, release]
  | @finish f rest out pending hframes _ _ hpending =>
      refine h.append rfl fun _ hf => ⟨?_, ?_⟩
      · rw [hframes] at hf
        exact (List.forall_mem_cons.1 hf).2
      · rw [hpending]
        cases out <;> simp [delivered, unmasked]

lemma ordered_of_run {acts : List Act} {t : Dispatcher} (hrun : Run.run step s acts = some t) :
    Ordered s t := by
  intro hframes seg hseg hquiet
  have hstart : InOrder s s :=
    ⟨[], (List.append_nil _).symm, fun _ => ⟨by simp [hframes], by simp [delivered, unmasked]⟩⟩
  obtain ⟨seg', hseg', hend⟩ := Run.run_invariant (fun _ _ _ h hstep => h.step hstep) hstart hrun
  obtain rfl := List.append_cancel_left (hseg.symm.trans hseg')
  exact (hend hquiet).2

/-! ## Every run -/

lemma numbered_start : Numbered {} :=
  ⟨List.Pairwise.nil, fun k hk => absurd hk (by simp), le_refl _, fun p mark inside hp =>
    absurd hp (by simp)⟩

/-- In every run put-away fires in time, nothing that was struck before it is delivered after it was
read, and keys are delivered in order.  Nor is anything delivered that waited behind it, in every
run in which no later loop reads such a key while the dispatcher is not masked. -/
theorem putAwayFirst_of_clean {acts₀ acts : List Act} {s t : Dispatcher}
    (hbefore : Run.run step {} acts₀ = some s) (hrun : Run.run step s acts = some t)
    (hclean : Run.Meets step Clean {} (acts₀ ++ acts)) :
    Fires s t ∧ Ordered s t ∧ Forgets t.log ∧ HidesWaiting t.log := by
  have hall := Run.run_append_eq_some.2 ⟨s, hbefore, hrun⟩
  have hstart : Guarded {} := rfl
  have hguarded : Guarded s := Run.run_invariant (fun _ _ _ h hstep => h.step hstep) hstart hbefore
  have hend := Run.run_invariant_of_meets (C := Clean)
    (I := fun d => Numbered d ∧ Forgets d.log ∧ Fresh d)
    (fun d act d' h hclean hstep =>
      ⟨h.1.step hstep, h.2.1.step h.1 hstep, h.2.2.step h.1 hclean hstep⟩)
    ⟨numbered_start, fun pre _ _ _ _ h => absurd h (by simp),
      fun k hk => absurd hk (by simp), fun pre _ _ _ _ h => absurd h (by simp)⟩ hclean hall
  exact ⟨fires_of_run hguarded hrun, ordered_of_run hrun, hend.2.1, hend.2.2.hides⟩

/-- A put-away with as many keys behind it as one pump can read, and one pump after the other. -/
def backlog : List Act :=
  .strike ⟨.putAway, 0⟩ :: (List.replicate 64 (.strike ⟨.char, 97⟩) ++
    .pump :: .poll :: .ret :: (List.replicate 63 .poll ++ [.finish, .pump, .poll, .finish]))

lemma eq_of_getElem? {log : List Note} {i : ℕ} {n : Note} (h : log[i]? = some n) :
    log = log.take i ++ n :: log.drop (i + 1) := by
  obtain ⟨hi, rfl⟩ := List.getElem?_eq_some_iff.1 h
  rw [List.getElem_cons_drop, List.take_append_drop]

theorem not_putAwayFirst : ¬ PutAwayFirst := by
  intro h
  have hany : (Run.run step {} backlog).any (fun t =>
      decide (t.log[1]? = some (.putAway ⟨0, ⟨.putAway, 0⟩⟩ 65 false)) &&
        decide (⟨64, ⟨.char, 97⟩⟩ ∈ delivered (t.log.drop 2))) = true := by decide +kernel
  obtain ⟨t, hrun, ht⟩ := Run.exists_of_any hany
  rw [Bool.and_eq_true, decide_eq_true_iff, decide_eq_true_iff] at ht
  have hle := (h [] backlog {} t rfl hrun).2.2.2 _ _ _ _ _ (eq_of_getElem? ht.1) _ ht.2
  exact absurd hle (by decide)

/-- The key behind the put-away is read by the same loop, and another is struck later. -/
def shortBacklog : List Act :=
  [.strike ⟨.putAway, 0⟩, .strike ⟨.char, 97⟩, .pump, .poll, .ret, .poll, .finish,
    .strike ⟨.char, 98⟩, .pump, .poll, .finish]

theorem putAwayFirst_shortBacklog :
    ∃ t, Run.run step {} shortBacklog = some t ∧ delivered t.log = [⟨2, ⟨.char, 98⟩⟩] ∧
      Fires {} t ∧ Ordered {} t ∧ Forgets t.log ∧ HidesWaiting t.log := by
  have hany : (Run.run step {} shortBacklog).any
      (fun t => decide (delivered t.log = [⟨2, ⟨.char, 98⟩⟩])) = true := by decide
  obtain ⟨t, hrun, ht⟩ := Run.exists_of_any hany
  have hstart : Run.run step {} [] = some ({} : Dispatcher) := rfl
  exact ⟨t, hrun, of_decide_eq_true ht, putAwayFirst_of_clean hstart hrun (by decide)⟩

end Chaskiwasi.Device.Input
