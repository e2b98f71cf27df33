import Chaskiwasi.Device.Flash
import Chaskiwasi.Lib.Crash

/-!
# Applying a response

`applyResponse` takes a decoded response to flash in a fixed order: the acks, the contact snapshot
and its version, the letters one by one, the config, and the cursor last.  A write that fails ends
it where it is, with the cursor left standing.  Two failures do not: a letter file that could not be
evicted stays, and nobody looks at what became of the config.
-/

namespace Chaskiwasi.Device

open Crash

/-- One terminal ack as the device decodes it; `none` is `kUnknown`. -/
structure DecodedAck where
  localID : String
  status : Option AckStatus
  deriving DecidableEq, Repr

/-- A decoded response, but for the doorbell counter, which is not applied. -/
structure SyncResponse where
  serverTime : ℤ := 0
  cursor : String
  acks : List DecodedAck := []
  letters : List Letter := []
  more : Bool := false
  ayllu : Option Ayllu := none
  config : Option PushedConfig := none
  deriving DecidableEq, Repr

structure Outcome where
  lettersStored : ℕ := 0
  lettersDeduped : ℕ := 0
  acksApplied : ℕ := 0
  aylluUpdated : Bool := false
  configUpdated : Bool := false
  more : Bool := false
  applyIncomplete : Bool := false
  deriving DecidableEq, Repr

/-- The outcome of an application that was abandoned. -/
def Outcome.incomplete (out : Outcome) : Outcome := { out with applyIncomplete := true }

/-- The stores the engine runs on. -/
structure Engine where
  letters : FileLetterStore := {}
  outbox : Outbox := {}
  seen : FileSeenRing
  state : FileStateStore := ⟨{}, {}⟩
  contacts : FileSnapshot
  settings : FileSettingsStore := ⟨{}, {}⟩
  /-- What the clock was last set to; there is none without a sync. -/
  clock : Option ℤ := none
  deriving DecidableEq, Repr

namespace Engine

/-- What a boot makes of the files; `o` is how the rewriting of the seen file ends, where the boot
comes to it. -/
def opened (e : Engine) (o : WriteOutcome) : Engine where
  letters := e.letters.opened
  outbox := e.outbox.opened
  seen := e.seen.opened o
  state := FileStateStore.opened e.state
  contacts := FileSnapshot.opened e.contacts
  settings := FileSettingsStore.opened e.settings
  clock := none

/-! ## The single writes -/

abbrev Apply := Prog WriteOutcome Engine

def setFromServer (epoch : ℤ) : Apply Unit := Prog.modify fun e => { e with clock := some epoch }

def resolve (a : DecodedAck) : Apply Bool := Prog.attempt fun o e =>
  let r := e.outbox.resolve a.localID a.status o
  ({ e with outbox := r.1 }, r.2)

def applySnapshot (a : Ayllu) : Apply Bool := Prog.attempt fun o e =>
  let r := FileSnapshot.applySnapshot e.contacts a o
  ({ e with contacts := r.1 }, r.2)

def setAylluVersion (v : ℕ) : Apply Bool := Prog.attempt fun o e =>
  let r := FileStateStore.setAylluVersion e.state v o
  ({ e with state := r.1 }, r.2)

def put (l : Letter) : Apply Bool := Prog.attempt fun o e =>
  let r := e.letters.put l o
  ({ e with letters := r.1 }, r.2)

def add (id : String) : Apply Bool := Prog.attempt fun o e =>
  let r := e.seen.add id o
  ({ e with seen := r.1 }, r.2)

def remove (id : String) : Apply Bool := Prog.attempt fun o e =>
  let r := e.letters.remove id o
  ({ e with letters := r.1 }, r.2)

def applyConfig (c : PushedConfig) : Apply Bool := Prog.attempt fun o e =>
  let r := FileSettingsStore.applyConfig e.settings c o
  ({ e with settings := r.1 }, r.2)

def setCursor (cursor : String) : Apply Bool := Prog.attempt fun o e =>
  let r := FileStateStore.setCursor e.state cursor o
  ({ e with state := r.1 }, r.2)

/-! ## The steps -/

/-- Step 1: a response without a time leaves the clock as it is. -/
def applyTime (serverTime : ℤ) : Apply Unit :=
  if 0 < serverTime then setFromServer serverTime else return

/-- Step 2, one ack. -/
def applyAck (a : DecodedAck) (out : Outcome) : Apply (Bool × Outcome) := do
  if ← resolve a then return (true, { out with acksApplied := out.acksApplied + 1 })
  else return (false, out)

/-- Step 3: the snapshot first and the version mirror second. -/
def applyAyllu : Option Ayllu → Outcome → Apply (Bool × Outcome)
  | none, out => return (true, out)
  | some a, out => do
      if ← applySnapshot a then
        if ← setAylluVersion a.version then return (true, { out with aylluUpdated := true })
        else return (false, out)
      else return (false, out)

/-- Step 4, one letter: check, write, record. -/
def applyLetter (l : Letter) (out : Outcome) : Apply (Bool × Outcome) := do
  let e ← Prog.get
  if e.seen.contains l.id then
    return (true, { out with lettersDeduped := out.lettersDeduped + 1 })
  else if ← put l then
    if ← add l.id then return (true, { out with lettersStored := out.lettersStored + 1 })
    else return (false, out)
  else return (false, out)

/-- Removes one letter, and counts it; one that cannot be removed is passed over. -/
def evictLetter (id : String) (removed : ℕ) : Apply (Bool × ℕ) := do
  if ← remove id then return (true, removed + 1) else return (true, removed)

/-- Drops the letters beyond the newest `keep`, and says how many. -/
def evictBeyond (keep : ℕ) : Apply ℕ := do
  let e ← Prog.get
  let r ← Prog.each evictLetter (e.letters.doomed keep) 0
  return r.2

/-- Step 5: the settings own it, and the answer is not looked at. -/
def onConfig : Option PushedConfig → Outcome → Apply Outcome
  | none, out => return out
  | some c, out => do
      let _ ← applyConfig c
      return { out with configUpdated := true }

/-- Steps 5 and 6. -/
def finish (r : SyncResponse) (out : Outcome) : Apply Outcome := do
  let out ← onConfig r.config out
  if ← setCursor r.cursor then return { out with more := r.more }
  else return out.incomplete

/-- Steps 1 to 4, as far as the last letter. -/
def readResponse (r : SyncResponse) : Apply (Bool × Outcome) := do
  applyTime r.serverTime
  let acked ← Prog.each applyAck r.acks {}
  if acked.1 then
    let met ← applyAyllu r.ayllu acked.2
    if met.1 then Prog.each applyLetter r.letters met.2 else return met
  else return acked

/-- Steps 1 to 6, in that order.  `keep` is how many letters the device keeps. -/
def applyResponse (keep : ℕ) (r : SyncResponse) : Apply Outcome := do
  let read ← readResponse r
  if read.1 then
    if 0 < read.2.lettersStored then
      let _ ← evictBeyond keep
      finish r read.2
    else finish r read.2
  else return read.2.incomplete

/-! ## Proof outlines -/

/-- One write: it answers true where `Q` holds and false where `F` holds. -/
abbrev Writes (P : Assertion WriteOutcome Engine) (p : Apply Bool)
    (Q F R : Assertion WriteOutcome Engine) : Prop :=
  Triple P p (Answers Q F) R

/-- What holds at each point of `applyResponse`, what holds where it returns with everything applied
(`final`) or having abandoned the rest (`failed`), and what holds wherever power is lost (`cut`). -/
structure Outline (keep : ℕ) (r : SyncResponse) where
  /-- Before these acks. -/
  acking : List DecodedAck → Assertion WriteOutcome Engine
  /-- Between the snapshot and its version. -/
  snapped : Assertion WriteOutcome Engine
  /-- Before these letters, with so many stored. -/
  reading : List Letter → ℕ → Assertion WriteOutcome Engine
  /-- A letter was written and is not recorded yet. -/
  writing : Letter → List Letter → ℕ → Assertion WriteOutcome Engine
  /-- Before these files are removed. -/
  evicting : List String → Assertion WriteOutcome Engine
  configuring : Assertion WriteOutcome Engine
  ending : Assertion WriteOutcome Engine
  final : Assertion WriteOutcome Engine
  failed : Assertion WriteOutcome Engine
  cut : Assertion WriteOutcome Engine
  clock : ∀ past e c, acking r.acks past e → acking r.acks past { e with clock := c }
  resolve : ∀ a as, Writes (acking (a :: as)) (resolve a) (acking as) failed cut
  without : r.ayllu = none → ∀ past e, acking [] past e → reading r.letters 0 past e
  snapshot : ∀ a, r.ayllu = some a → Writes (acking []) (applySnapshot a) snapped failed cut
  version : ∀ a, r.ayllu = some a →
    Writes snapped (setAylluVersion a.version) (reading r.letters 0) failed cut
  seen : ∀ l ls n past e, reading (l :: ls) n past e → e.seen.contains l.id = true →
    reading ls n past e
  put : ∀ l ls n, Writes (fun past e => reading (l :: ls) n past e ∧ e.seen.contains l.id = false)
    (put l) (writing l ls n) failed cut
  add : ∀ l ls n, Writes (writing l ls n) (add l.id) (reading ls (n + 1)) failed cut
  read : ∀ past e, reading [] 0 past e → configuring past e
  evict : ∀ n past e, reading [] (n + 1) past e → evicting (e.letters.doomed keep) past e
  remove : ∀ id ids, Writes (evicting (id :: ids)) (remove id) (evicting ids) (evicting ids) cut
  evicted : ∀ past e, evicting [] past e → configuring past e
  unchanged : r.config = none → ∀ past e, configuring past e → ending past e
  config : ∀ c, r.config = some c → Writes configuring (applyConfig c) ending ending cut
  cursor : Writes ending (setCursor r.cursor) final failed cut

namespace Outline

variable {keep : ℕ} {r : SyncResponse} (S : Outline keep r)

/-- Nothing was abandoned yet, and no letter was stored. -/
def Started (out : Outcome) : Prop := out.lettersStored = 0 ∧ out.applyIncomplete = false

lemma triple_applyAck (a : DecodedAck) (as : List DecodedAck) (out : Outcome) :
    Triple (fun past e => Started out ∧ S.acking (a :: as) past e) (applyAck a out)
      (fun res => Answers (fun past e => Started res.2 ∧ S.acking as past e) S.failed res.1)
      S.cut := by
  refine Triple.assume fun hout => Triple.bind (S.resolve a as) fun b => ?_
  cases b with
  | true => exact Triple.ret fun _ _ h => ⟨hout, h⟩
  | false => exact Triple.ret fun _ _ h => h

lemma triple_applyAyllu (out : Outcome) (hout : Started out) :
    Triple (S.acking []) (applyAyllu r.ayllu out)
      (fun res => Answers (fun past e => res.2.applyIncomplete = false ∧
        S.reading r.letters res.2.lettersStored past e) S.failed res.1) S.cut := by
  have hreading : ∀ past e, S.reading r.letters 0 past e →
      out.applyIncomplete = false ∧ S.reading r.letters out.lettersStored past e := by
    intro past e h
    rw [hout.1]
    exact ⟨hout.2, h⟩
  cases hayllu : r.ayllu with
  | none => exact Triple.ret fun past e h => hreading past e (S.without hayllu past e h)
  | some a =>
      refine Triple.bind (S.snapshot a hayllu) fun b => ?_
      cases b with
      | false => exact Triple.ret fun _ _ h => h
      | true =>
          refine Triple.bind (S.version a hayllu) fun b => ?_
          cases b with
          | false => exact Triple.ret fun _ _ h => h
          | true => exact Triple.ret fun past e h => hreading past e h

lemma triple_applyLetter (l : Letter) (ls : List Letter) (out : Outcome) :
    Triple (fun past e => out.applyIncomplete = false ∧
        S.reading (l :: ls) out.lettersStored past e)
      (applyLetter l out)
      (fun res => Answers (fun past e => res.2.applyIncomplete = false ∧
        S.reading ls res.2.lettersStored past e) S.failed res.1) S.cut := by
  refine Triple.assume fun hout => Triple.bind Triple.get fun e => ?_
  by_cases hseen : e.seen.contains l.id = true
  · rw [if_pos hseen]
    refine Triple.ret fun past e' h => ⟨hout, ?_⟩
    obtain ⟨h, rfl⟩ := h
    exact S.seen l ls _ past e' h hseen
  · rw [if_neg hseen]
    rw [Bool.not_eq_true] at hseen
    refine Triple.bind ((S.put l ls _).conseq (fun past e' h => ⟨h.1, h.2 ▸ hseen⟩)
      (fun _ _ _ h => h) fun _ _ h => h) fun b => ?_
    cases b with
    | false => exact Triple.ret fun _ _ h => h
    | true =>
        refine Triple.bind (S.add l ls _) fun b => ?_
        cases b with
        | false => exact Triple.ret fun _ _ h => h
        | true => exact Triple.ret fun _ _ h => ⟨hout, h⟩

lemma triple_evictBeyond (n : ℕ) :
    Triple (S.reading [] (n + 1)) (evictBeyond keep) (fun _ => S.configuring) S.cut := by
  refine Triple.bind Triple.get fun e => ?_
  have hloop : Triple (S.evicting (e.letters.doomed keep))
      (Prog.each evictLetter (e.letters.doomed keep) 0)
      (fun res => Answers (S.evicting []) (fun _ _ => False) res.1) S.cut := by
    refine Triple.each (I := fun ids _ => S.evicting ids) (F := fun _ _ _ => False)
      (fun id ids removed => ?_) _ 0
    refine Triple.bind (S.remove id ids) fun b => ?_
    cases b with
    | false => exact Triple.ret fun _ _ h => h
    | true => exact Triple.ret fun _ _ h => h
  refine Triple.bind (hloop.conseq (fun past e' h => h.2 ▸ S.evict n past e' h.1)
    (fun _ _ _ h => h) fun _ _ h => h) fun res => ?_
  obtain ⟨b, removed⟩ := res
  cases b with
  | false => exact Triple.ret fun _ _ h => absurd h id
  | true => exact Triple.ret fun past e' h => S.evicted past e' h

/-- How an application ends that got as far as this. -/
abbrev Ends (out : Outcome) : Assertion WriteOutcome Engine :=
  Answers S.failed S.final out.applyIncomplete

lemma triple_finish (out : Outcome) (hout : out.applyIncomplete = false) :
    Triple S.configuring (finish r out) S.Ends S.cut := by
  have hconfig : Triple S.configuring (onConfig r.config out)
      (fun out past e => out.applyIncomplete = false ∧ S.ending past e) S.cut := by
    cases hr : r.config with
    | none => exact Triple.ret fun past e h => ⟨hout, S.unchanged hr past e h⟩
    | some c =>
        refine Triple.bind (S.config c hr) fun b => ?_
        cases b with
        | false => exact Triple.ret fun _ _ h => ⟨hout, h⟩
        | true => exact Triple.ret fun _ _ h => ⟨hout, h⟩
  refine Triple.bind hconfig fun out => Triple.assume fun hout => Triple.bind S.cursor fun b => ?_
  cases b with
  | false => exact Triple.ret fun _ _ h => h
  | true =>
      refine Triple.ret fun past e h => ?_
      rw [Ends, hout]
      exact h

lemma triple_stored (out : Outcome) (hout : out.applyIncomplete = false) :
    Triple (S.reading [] out.lettersStored)
      (if 0 < out.lettersStored then do
        let _ ← evictBeyond keep
        finish r out
      else finish r out)
      S.Ends S.cut := by
  cases hn : out.lettersStored with
  | zero =>
      rw [if_neg (lt_irrefl 0)]
      exact (S.triple_finish out hout).conseq S.read (fun _ _ _ h => h) fun _ _ h => h
  | succ n =>
      rw [if_pos n.succ_pos]
      exact Triple.bind (S.triple_evictBeyond n) fun _ => S.triple_finish out hout

lemma triple_readResponse :
    Triple (S.acking r.acks) (readResponse r)
      (fun res => Answers (fun past e => res.2.applyIncomplete = false ∧
        S.reading [] res.2.lettersStored past e) S.failed res.1) S.cut := by
  have htime : Triple (S.acking r.acks) (applyTime r.serverTime) (fun _ => S.acking r.acks)
      S.cut := by
    unfold applyTime
    split_ifs
    · exact Triple.modify fun past e h => S.clock past e _ h
    · exact Triple.ret fun _ _ h => h
  have hacks := Triple.each
    (I := fun as (out : Outcome) past e => Started out ∧ S.acking as past e)
    (F := fun _ => S.failed) S.triple_applyAck r.acks {}
  refine Triple.bind htime fun _ => Triple.bind (hacks.conseq (fun _ _ h => ⟨⟨rfl, rfl⟩, h⟩)
    (fun _ _ _ h => h) fun _ _ h => h) fun acked => ?_
  obtain ⟨b, out⟩ := acked
  cases b with
  | false => exact Triple.ret fun _ _ h => h
  | true =>
      refine Triple.assume fun hout => Triple.bind (S.triple_applyAyllu out hout) fun met => ?_
      obtain ⟨b, out⟩ := met
      cases b with
      | false => exact Triple.ret fun _ _ h => h
      | true =>
          exact Triple.each
            (I := fun ls (out : Outcome) past e =>
              out.applyIncomplete = false ∧ S.reading ls out.lettersStored past e)
            (F := fun _ => S.failed) S.triple_applyLetter r.letters out

/-- An outline proves its triple. -/
theorem triple : Triple (S.acking r.acks) (applyResponse keep r) S.Ends S.cut := by
  refine Triple.bind S.triple_readResponse fun read => ?_
  obtain ⟨b, out⟩ := read
  cases b with
  | false => exact Triple.ret fun _ _ h => h
  | true => exact Triple.assume fun hout => S.triple_stored out hout

/-- The single writes and the clock keep `I`. -/
structure Kept (I : Engine → Prop) : Prop where
  clock : ∀ e c, I e → I { e with clock := c }
  resolve : ∀ e localID status o, I e → I { e with outbox := (e.outbox.resolve localID status o).1 }
  contacts : ∀ e a o, I e → I { e with contacts := (FileSnapshot.applySnapshot e.contacts a o).1 }
  state : ∀ e next o, I e → I { e with state := (e.state.commit next o).1 }
  put : ∀ e l o, I e → I { e with letters := (e.letters.put l o).1 }
  add : ∀ e id o, I e → I { e with seen := (e.seen.add id o).1 }
  remove : ∀ e id o, I e → I { e with letters := (e.letters.remove id o).1 }
  settings : ∀ e c o, I e →
    I { e with settings := (FileSettingsStore.applyConfig e.settings c o).1 }

/-- What the single writes keep holds everywhere. -/
def ofKept {I : Engine → Prop} (h : Kept I) (keep : ℕ) (r : SyncResponse) : Outline keep r where
  acking _ _ e := I e
  snapped _ e := I e
  reading _ _ _ e := I e
  writing _ _ _ _ e := I e
  evicting _ _ e := I e
  configuring _ e := I e
  ending _ e := I e
  final _ e := I e
  failed _ e := I e
  cut _ e := I e
  clock := fun _ e c he => h.clock e c he
  resolve := fun _ _ => Triple.attempt_answers (fun _ _ he => he)
    (fun _ e _ he _ => h.resolve e _ _ _ he) fun _ e _ he _ => h.resolve e _ _ _ he
  without := fun _ _ _ he => he
  snapshot := fun _ _ => Triple.attempt_answers (fun _ _ he => he)
    (fun _ e _ he _ => h.contacts e _ _ he) fun _ e _ he _ => h.contacts e _ _ he
  version := fun _ _ => Triple.attempt_answers (fun _ _ he => he)
    (fun _ e _ he _ => h.state e _ _ he) fun _ e _ he _ => h.state e _ _ he
  seen := fun _ _ _ _ _ he _ => he
  put := fun _ _ _ => Triple.attempt_answers (fun _ _ he => he.1)
    (fun _ e _ he _ => h.put e _ _ he.1) fun _ e _ he _ => h.put e _ _ he.1
  add := fun _ _ _ => Triple.attempt_answers (fun _ _ he => he)
    (fun _ e _ he _ => h.add e _ _ he) fun _ e _ he _ => h.add e _ _ he
  read := fun _ _ he => he
  evict := fun _ _ _ he => he
  remove := fun _ _ => Triple.attempt_answers (fun _ _ he => he)
    (fun _ e _ he _ => h.remove e _ _ he) fun _ e _ he _ => h.remove e _ _ he
  evicted := fun _ _ he => he
  unchanged := fun _ _ _ he => he
  config := fun _ _ => Triple.attempt_answers (fun _ _ he => he)
    (fun _ e _ he _ => h.settings e _ _ he) fun _ e _ he _ => h.settings e _ _ he
  cursor := Triple.attempt_answers (fun _ _ he => he)
    (fun _ e _ he _ => h.state e _ _ he) fun _ e _ he _ => h.state e _ _ he

end Outline

/-- What the single writes keep holds wherever an application ends. -/
theorem kept_of_applied {I : Engine → Prop} (h : Outline.Kept I) {e : Engine} (he : I e)
    (keep : ℕ) (r : SyncResponse) (os : List WriteOutcome) :
    I ((applyResponse keep r).run [] e os).state := by
  have hmeets := (Outline.ofKept h keep r).triple [] e os he
  exact hmeets.ended (A := fun _ e => I e) (fun _ _ _ h => answers_self h) fun _ _ h => h

end Engine
end Chaskiwasi.Device
