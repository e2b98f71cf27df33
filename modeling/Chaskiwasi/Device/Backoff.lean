import Chaskiwasi.Device.Apply
import Chaskiwasi.Device.Halt
import Mathlib.Data.List.TakeWhile

/-!
# The rounds of a sync, and the pause after it

`RunOnce` makes one exchange after another for as long as the server has more, up to a cap, and what
went wrong in the last of them decides how long the device waits before the next run.

Two records are kept beside the engine.  A run lists its exchanges, each with what was applied of
it, so that it can be said when another one followed (`Completed`).  A history lists the runs, and
`standing` takes from it the failures that still count.  The engine remembers of them a flag, a
pause and a number, and `Follows` says which.
-/

namespace Chaskiwasi.Device.Backoff

open Crash Engine
open Halt (Trigger Fault faultFor kBackoffHalted kBackoffNextScheduledWake kMaxRetryAfterS)

/-! ## `Retry-After` -/

def isBlank (c : Char) : Bool := c = ' ' || c = '\t'

/-- One more digit; a value beyond a day is a day. -/
def addDigit (v : ℕ) (c : Char) : ℕ := min (v * 10 + (c.toNat - '0'.toNat)) 86400

/-- The seconds of a header that is digits and nothing else; 0 of any other. -/
def parseRetryAfterSeconds (header : String) : ℤ :=
  let text := header.toList.dropWhile isBlank
  let digits := text.takeWhile Char.isDigit
  let behind := (text.dropWhile Char.isDigit).dropWhile isBlank
  if digits = [] then 0
  else if behind ≠ [] then 0
  else ((digits.foldl addDigit 0 : ℕ) : ℤ)

lemma foldl_addDigit (cs : List Char) (v : ℕ) :
    cs.foldl addDigit (min v 86400) = min (Nat.ofDigitChars 10 cs v) 86400 := by
  induction cs generalizing v with
  | nil => rfl
  | cons c cs ih =>
      have hdigit : addDigit (min v 86400) c = min (10 * v + (c.toNat - '0'.toNat)) 86400 := by
        unfold addDigit
        omega
      rw [List.foldl_cons, hdigit, ih, Nat.ofDigitChars_cons]

/-- A header of digits gives their value, up to a day, however many they are. -/
theorem parseRetryAfterSeconds_digits (digits : List Char) (hne : digits ≠ [])
    (hdigits : ∀ c ∈ digits, c.isDigit = true) :
    parseRetryAfterSeconds (String.ofList digits) =
      (min (Nat.ofDigitChars 10 digits 0) 86400 : ℕ) := by
  have htext : digits.dropWhile isBlank = digits := by
    cases digits with
    | nil => rfl
    | cons c cs =>
        have hc := hdigits c List.mem_cons_self
        refine List.dropWhile_cons_of_neg ?_
        unfold isBlank
        rintro h
        rw [Bool.or_eq_true, decide_eq_true_iff, decide_eq_true_iff] at h
        rcases h with rfl | rfl
        · cases hc
        · cases hc
  have htake : digits.takeWhile Char.isDigit = digits := List.takeWhile_eq_self_iff.2 hdigits
  have hdrop : digits.dropWhile Char.isDigit = [] := List.dropWhile_eq_nil_iff.2 hdigits
  unfold parseRetryAfterSeconds
  simp only [String.toList_ofList, htext, htake, hdrop, List.dropWhile_nil, if_neg hne, ne_eq,
    not_true, if_false]
  exact congrArg Nat.cast (foldl_addDigit digits 0)

/-- No header makes the engine clamp what it is told. -/
theorem parseRetryAfterSeconds_mem (header : String) :
    0 ≤ parseRetryAfterSeconds header ∧ parseRetryAfterSeconds header ≤ kMaxRetryAfterS := by
  unfold parseRetryAfterSeconds
  simp only
  split_ifs with hdigits hbehind
  · decide
  · decide
  · have hfold := foldl_addDigit ((header.toList.dropWhile isBlank).takeWhile Char.isDigit) 0
    rw [Nat.zero_min] at hfold
    rw [hfold]
    have hmax : kMaxRetryAfterS = 86400 := rfl
    omega

/-! ## The exchanges of a run -/

/-- What one exchange brings: the transport's result, the response if the body can be decoded, and
how the writes of applying it end. -/
structure Answer where
  outcome : Halt.Outcome := .ok
  httpStatus : ℤ := 200
  retryAfterS : ℤ := 0
  response : Option SyncResponse := none
  writes : List WriteOutcome := []

def Answer.fault (a : Answer) : Fault :=
  faultFor { outcome := a.outcome, httpStatus := a.httpStatus, retryAfterS := a.retryAfterS }

/-- An exchange that was made; what was applied of it, if anything, with the stores after that. -/
structure Exchange where
  answer : Answer
  applied : Option (Outcome × Engine) := none

structure Options where
  lettersKeep : ℕ := FileLetterStore.defaultLettersKeep
  maxDrainRounds : ℤ := 10
  /-- `SeamsWired`. -/
  wired : Bool := true

/-- The hard cap. -/
def Options.cap (o : Options) : ℕ := (if 0 < o.maxDrainRounds then o.maxDrainRounds else 1).toNat

/-- The engine with the stores it runs on. -/
structure Syncer where
  stores : Engine
  backoff : Halt.EngineImpl := {}

/-- What a run reports. -/
structure Report where
  fault : Fault := .none
  rounds : ℕ := 0
  totals : Outcome := {}

/-- The report after one more response was applied, or was not. -/
def Report.add (rep : Report) (applied : Outcome) (more : Bool) : Report :=
  { rep with
    totals :=
      { lettersStored := rep.totals.lettersStored + applied.lettersStored
        lettersDeduped := rep.totals.lettersDeduped + applied.lettersDeduped
        acksApplied := rep.totals.acksApplied + applied.acksApplied
        aylluUpdated := rep.totals.aylluUpdated || applied.aylluUpdated
        configUpdated := rep.totals.configUpdated || applied.configUpdated
        more := more
        applyIncomplete := rep.totals.applyIncomplete || applied.applyIncomplete } }

/-- The rounds of a run, with so many left; `none` where power is lost. -/
def drain (keep : ℕ) (answers : ℕ → Answer) :
    ℕ → ℕ → Report → Syncer → Option (Report × List Exchange × Syncer)
  | 0, _, rep, e => some (rep, [], e)
  | left + 1, round, rep, e =>
      let a := answers round
      let rep := { rep with rounds := round + 1 }
      if a.fault ≠ .none then
        some ({ rep with fault := a.fault }, [⟨a, none⟩],
          { e with backoff := e.backoff.noteFailure a.fault a.retryAfterS })
      else
        match a.response with
        | none =>
            some ({ rep with fault := .serverFault }, [⟨a, none⟩],
              { e with backoff := e.backoff.noteFailure .serverFault 0 })
        | some r =>
            match (applyResponse keep r).run [] e.stores a.writes with
            | .cut _ _ => none
            | .back applied _ stores _ =>
                let rep := rep.add applied r.more
                let e := { e with stores := stores }
                if applied.applyIncomplete || !r.more then
                  some (rep, [⟨a, some (applied, stores)⟩], e)
                else
                  (drain keep answers left (round + 1) rep e).map fun (rep, xs, e) =>
                    (rep, ⟨a, some (applied, stores)⟩ :: xs, e)

/-- A call of `RunOnce`: its trigger, what the exchanges bring, and the time and the write it ends
with. -/
structure Call where
  trigger : Trigger
  answers : ℕ → Answer
  now : ℤ := 0
  write : WriteOutcome := .done

/-- `SetLastSyncAt`, where the clock is valid. -/
def noteSyncAt (now : ℤ) (o : WriteOutcome) (e : Engine) : Engine :=
  if e.clock.isSome then { e with state := (FileStateStore.setLastSyncAt e.state now o).1 } else e

def runOnce (o : Options) (e : Syncer) (c : Call) : Option (Report × List Exchange × Syncer) :=
  if o.wired then
    let e := if c.trigger = .userKey then { e with backoff := Halt.EngineImpl.resetBackoff } else e
    (drain o.lettersKeep c.answers o.cap 0 {} e).map fun (rep, xs, e) =>
      let e :=
        if rep.fault = .none then { e with backoff := Halt.EngineImpl.resetBackoff } else e
      let stores :=
        if xs.any fun x => x.applied.isSome then noteSyncAt c.now c.write e.stores else e.stores
      (rep, xs, { e with stores := stores })
  else some ({ totals := { applyIncomplete := true } }, [], e)

/-! ## What went wrong, and what still counts -/

inductive Failure
  /-- A 401. -/
  | refused
  /-- A 503 that says when to come back. -/
  | busy (s : ℤ)
  | other
  deriving DecidableEq, Repr

def Answer.failure (a : Answer) : Option Failure :=
  if a.outcome = .ok ∧ a.httpStatus = 200 ∧ a.response.isSome then none
  else if a.outcome = .ok ∧ a.httpStatus = 401 then some .refused
  else if a.outcome = .ok ∧ a.httpStatus = 503 ∧ 0 < a.retryAfterS then some (.busy a.retryAfterS)
  else some .other

/-- The failures among exchanges, the latest first. -/
def failures (xs : List Exchange) : List Failure := xs.reverse.filterMap fun x => x.answer.failure

structure Ran where
  trigger : Trigger
  exchanges : List Exchange

/-- The failures since the last run that had none, or from the last run for the key on, the latest
first. -/
def standing : List Ran → List Failure
  | [] => []
  | r :: rs =>
      if failures r.exchanges = [] then []
      else failures r.exchanges ++ if r.trigger = .userKey then [] else standing rs

/-- 30 s, 2 min, 10 min, then the next scheduled wake. -/
def ladder : ℕ → ℤ
  | 1 => 30 * 1000
  | 2 => 2 * 60 * 1000
  | 3 => 10 * 60 * 1000
  | _ => kBackoffNextScheduledWake

/-- The pause that was asked for, or that of the ladder. -/
def roadPause (fs : List Failure) : ℤ :=
  match fs.head? with
  | some (.busy s) => min s kMaxRetryAfterS * 1000
  | _ => ladder (fs.count .other)

/-- The pause after such failures, the latest first. -/
def pauseAfter (fs : List Failure) : ℤ := if .refused ∈ fs then kBackoffHalted else roadPause fs

/-! ## What one run does -/

/-- Everything in a response reached its store, the cursor too. -/
structure FullyApplied (r : SyncResponse) (out : Outcome) (e : Engine) : Prop where
  acks : out.acksApplied = r.acks.length
  letters : out.lettersStored + out.lettersDeduped = r.letters.length
  ayllu : out.aylluUpdated = r.ayllu.isSome
  config : out.configUpdated = r.config.isSome
  cursor : e.state.file.cursor = r.cursor ∧ e.state.held.cursor = r.cursor

/-- An exchange after which there may be another. -/
structure Exchange.Completed (x : Exchange) : Prop where
  ok : x.answer.outcome = .ok ∧ x.answer.httpStatus = 200
  applied : ∃ r ∈ x.answer.response, r.more = true ∧
    ∃ out e, x.applied = some (out, e) ∧ FullyApplied r out e

/-- As far as an application has come. -/
structure Owes (r : SyncResponse) (met : Bool) (acks letters : ℕ) (out : Outcome) : Prop where
  acks : out.acksApplied + acks = r.acks.length
  letters : out.lettersStored + out.lettersDeduped + letters = r.letters.length
  ayllu : out.aylluUpdated = (met && r.ayllu.isSome)
  config : out.configUpdated = false
  complete : out.applyIncomplete = false

section Application

variable {keep : ℕ} {r : SyncResponse} {out : Outcome}

/-- Wherever it is. -/
abbrev Anywhere : Assertion WriteOutcome Engine := fun _ _ => True

lemma attempt_anywhere (f : WriteOutcome → Engine → Engine × Bool) :
    Triple Anywhere (Prog.attempt f) (fun _ => Anywhere) Anywhere :=
  Triple.attempt (fun _ _ _ => trivial) fun _ _ _ _ => trivial

lemma triple_applyAck (a : DecodedAck) (as : List DecodedAck) (out : Outcome) :
    Triple (fun _ _ => Owes r false (a :: as).length r.letters.length out) (applyAck a out)
      (fun res => Answers (fun _ _ => Owes r false as.length r.letters.length res.2) Anywhere res.1)
      Anywhere := by
  refine (Triple.assume (P := Anywhere) fun hout => Triple.bind (attempt_anywhere _)
    fun b => ?_).conseq (fun _ _ h => ⟨h, trivial⟩) (fun _ _ _ h => h) fun _ _ h => h
  cases b with
  | false => exact Triple.ret fun _ _ h => h
  | true =>
      refine Triple.ret fun _ _ _ => { hout with acks := ?_ }
      have hacks := hout.acks
      rw [List.length_cons] at hacks
      show out.acksApplied + 1 + as.length = r.acks.length
      omega

lemma triple_applyAyllu (hout : Owes r false 0 r.letters.length out) :
    Triple Anywhere (applyAyllu r.ayllu out)
      (fun res => Answers (fun _ _ => Owes r true 0 r.letters.length res.2) Anywhere res.1)
      Anywhere := by
  cases hayllu : r.ayllu with
  | none =>
      refine Triple.ret fun _ _ _ => { hout with ayllu := ?_ }
      rw [hout.ayllu, hayllu]
      rfl
  | some a =>
      refine Triple.bind (attempt_anywhere _) fun b => ?_
      cases b with
      | false => exact Triple.ret fun _ _ h => h
      | true =>
          refine Triple.bind (attempt_anywhere _) fun b => ?_
          cases b with
          | false => exact Triple.ret fun _ _ h => h
          | true =>
              refine Triple.ret fun _ _ _ => { hout with ayllu := ?_ }
              rw [hayllu]
              rfl

lemma triple_applyLetter (l : Letter) (ls : List Letter) (out : Outcome) :
    Triple (fun _ _ => Owes r true 0 (l :: ls).length out) (applyLetter l out)
      (fun res => Answers (fun _ _ => Owes r true 0 ls.length res.2) Anywhere res.1) Anywhere := by
  refine (Triple.assume (P := Anywhere) fun hout => Triple.bind Triple.get fun e => ?_).conseq
    (fun _ _ h => ⟨h, trivial⟩) (fun _ _ _ h => h) fun _ _ h => h
  have hletters := hout.letters
  rw [List.length_cons] at hletters
  by_cases hseen : e.seen.contains l.id = true
  · rw [if_pos hseen]
    refine Triple.ret fun _ _ _ => { hout with letters := ?_ }
    show out.lettersStored + (out.lettersDeduped + 1) + ls.length = r.letters.length
    omega
  · rw [if_neg hseen]
    refine Triple.bind ((attempt_anywhere _).conseq (fun _ _ _ => trivial) (fun _ _ _ h => h)
      fun _ _ h => h) fun b => ?_
    cases b with
    | false => exact Triple.ret fun _ _ h => h
    | true =>
        refine Triple.bind (attempt_anywhere _) fun b => ?_
        cases b with
        | false => exact Triple.ret fun _ _ h => h
        | true =>
            refine Triple.ret fun _ _ _ => { hout with letters := ?_ }
            show out.lettersStored + 1 + out.lettersDeduped + ls.length = r.letters.length
            omega

lemma triple_readResponse :
    Triple Anywhere (readResponse r)
      (fun res => Answers (fun _ _ => Owes r true 0 0 res.2) Anywhere res.1) Anywhere := by
  have htime : Triple Anywhere (applyTime r.serverTime) (fun _ => Anywhere) Anywhere := by
    unfold applyTime
    split_ifs
    · exact Triple.modify fun _ _ _ => trivial
    · exact Triple.ret fun _ _ _ => trivial
  have hstart : Owes r false r.acks.length r.letters.length {} :=
    ⟨Nat.zero_add _, Nat.zero_add _, rfl, rfl, rfl⟩
  have hacks := Triple.each (F := fun _ => Anywhere)
    (I := fun as out _ _ => Owes r false as.length r.letters.length out) triple_applyAck r.acks {}
  refine Triple.bind htime fun _ => Triple.bind (hacks.conseq (fun _ _ _ => hstart)
    (fun _ _ _ h => h) fun _ _ h => h) fun acked => ?_
  obtain ⟨b, out⟩ := acked
  cases b with
  | false => exact Triple.ret fun _ _ h => h
  | true =>
      refine (Triple.assume (P := Anywhere) fun hout => Triple.bind (triple_applyAyllu hout)
        fun met => ?_).conseq (fun _ _ h => ⟨h, trivial⟩) (fun _ _ _ h => h) fun _ _ h => h
      obtain ⟨b, out⟩ := met
      cases b with
      | false => exact Triple.ret fun _ _ h => h
      | true =>
          exact Triple.each (I := fun ls out _ _ => Owes r true 0 ls.length out)
            (F := fun _ => Anywhere) triple_applyLetter r.letters out

/-- How an application ends. -/
abbrev Ends (r : SyncResponse) (out : Outcome) : Assertion WriteOutcome Engine := fun _ e =>
  out.applyIncomplete = false → FullyApplied r out e

lemma triple_finish (hout : Owes r true 0 0 out) :
    Triple Anywhere (finish r out) (Ends r) Anywhere := by
  have hconfig : Triple Anywhere (onConfig r.config out)
      (fun res _ _ => res.acksApplied = r.acks.length ∧
        res.lettersStored + res.lettersDeduped = r.letters.length ∧
        res.aylluUpdated = r.ayllu.isSome ∧ res.configUpdated = r.config.isSome) Anywhere := by
    cases hr : r.config with
    | none => exact Triple.ret fun _ _ _ => ⟨hout.acks, hout.letters, hout.ayllu, hout.config⟩
    | some c =>
        exact Triple.bind (attempt_anywhere _) fun _ =>
          Triple.ret fun _ _ _ => ⟨hout.acks, hout.letters, hout.ayllu, rfl⟩
  refine Triple.bind hconfig fun res => ?_
  refine (Triple.assume (P := Anywhere) fun hres => ?_).conseq (fun _ _ h => ⟨h, trivial⟩)
    (fun _ _ _ h => h) fun _ _ h => h
  obtain ⟨hacks, hletters, hayllu, hset⟩ := hres
  have hcursor : Triple Anywhere (setCursor r.cursor)
      (Answers (fun _ e => e.state.file.cursor = r.cursor ∧ e.state.held.cursor = r.cursor)
        Anywhere) Anywhere := by
    refine Triple.attempt_answers (fun _ _ _ => trivial) (fun _ e o _ hok => ?_)
      fun _ _ _ _ _ => trivial
    cases o with
    | done => exact ⟨rfl, rfl⟩
    | unchanged => cases hok
    | replaced => cases hok
  refine Triple.bind hcursor fun b => ?_
  cases b with
  | false => exact Triple.ret fun _ _ _ h => by cases h
  | true => exact Triple.ret fun _ _ h _ => ⟨hacks, hletters, hayllu, hset, h⟩

/-- An application that says it is complete is. -/
theorem fullyApplied_of_complete {e e' : Engine} {os rest : List WriteOutcome}
    {past : List (Engine × WriteOutcome)}
    (hrun : (applyResponse keep r).run [] e os = .back out past e' rest)
    (hout : out.applyIncomplete = false) : FullyApplied r out e' := by
  have hevict : Triple Anywhere (evictBeyond keep) (fun _ => Anywhere) Anywhere := by
    refine Triple.bind (Triple.get.conseq (fun _ _ _ => trivial) (fun _ _ _ _ => trivial)
      fun _ _ h => h) fun e => ?_
    refine Triple.bind (Q := fun _ => Anywhere) ?_ fun _ => Triple.ret fun _ _ _ => trivial
    refine (Triple.each (I := fun _ _ => Anywhere) (F := fun _ => Anywhere) (fun id ids n => ?_)
      (e.letters.doomed keep) 0).conseq (fun _ _ h => h) (fun _ _ _ _ => trivial) fun _ _ h => h
    refine Triple.bind (attempt_anywhere _) fun b => ?_
    cases b with
    | false => exact Triple.ret fun _ _ _ => trivial
    | true => exact Triple.ret fun _ _ _ => trivial
  have htriple : Triple Anywhere (applyResponse keep r) (Ends r) Anywhere := by
    refine Triple.bind triple_readResponse fun read => ?_
    obtain ⟨b, out⟩ := read
    cases b with
    | false => exact Triple.ret fun _ _ _ h => by cases h
    | true =>
        refine (Triple.assume (P := Anywhere) fun howes => ?_).conseq (fun _ _ h => ⟨h, trivial⟩)
          (fun _ _ _ h => h) fun _ _ h => h
        simp only [if_true]
        by_cases hstored : 0 < out.lettersStored
        · rw [if_pos hstored]
          exact Triple.bind hevict fun _ => triple_finish howes
        · rw [if_neg hstored]
          exact triple_finish howes
  have hends := htriple [] e os trivial
  rw [hrun] at hends
  exact hends hout

end Application

/-! ## What the engine remembers -/

/-- What the three fields say of the failures that still count. -/
structure Follows (b : Halt.EngineImpl) (fs : List Failure) : Prop where
  halted : b.halted = decide (.refused ∈ fs)
  retry : b.retryAfterMs = match fs.head? with
    | some (.busy s) => min s kMaxRetryAfterS * 1000
    | _ => 0
  failures : b.consecutiveFailures = fs.count .other
  asked : ∀ s, .busy s ∈ fs → 0 < s

lemma follows_nil : Follows Halt.EngineImpl.resetBackoff [] := ⟨rfl, rfl, rfl, nofun⟩

section Follows

variable {b : Halt.EngineImpl} {fs : List Failure}

lemma Follows.refused (h : Follows b fs) (n : ℤ) :
    Follows (b.noteFailure .provisioningFault n) (.refused :: fs) where
  halted := rfl
  retry := rfl
  failures := h.failures
  asked := fun s hs => h.asked s ((List.mem_cons.1 hs).resolve_left nofun)

lemma Follows.busy (h : Follows b fs) {n : ℤ} (hn : 0 < n) :
    Follows (b.noteFailure .roadBusy n) (.busy n :: fs) := by
  have hnote : b.noteFailure .roadBusy n =
      { b with retryAfterMs := (if n < kMaxRetryAfterS then n else kMaxRetryAfterS) * 1000 } := by
    unfold Halt.EngineImpl.noteFailure
    rw [if_neg nofun, if_pos ⟨rfl, hn⟩]
  rw [hnote]
  refine ⟨?_, ?_, h.failures, fun s hs => ?_⟩
  · show b.halted = _
    rw [h.halted]
    simp
  · show (if n < kMaxRetryAfterS then n else kMaxRetryAfterS) * 1000 = min n kMaxRetryAfterS * 1000
    split_ifs with hlt
    · rw [min_eq_left hlt.le]
    · rw [min_eq_right (not_lt.1 hlt)]
  · rcases List.mem_cons.1 hs with hs | hs
    · cases hs
      exact hn
    · exact h.asked s hs

lemma Follows.other (h : Follows b fs) {f : Fault} {n : ℤ} (hf : f ≠ .provisioningFault)
    (hbusy : ¬ (f = .roadBusy ∧ 0 < n)) : Follows (b.noteFailure f n) (.other :: fs) := by
  have hnote : b.noteFailure f n =
      { b with retryAfterMs := 0, consecutiveFailures := b.consecutiveFailures + 1 } := by
    unfold Halt.EngineImpl.noteFailure
    rw [if_neg hf, if_neg hbusy]
  rw [hnote]
  refine ⟨?_, rfl, ?_, fun s hs => h.asked s ((List.mem_cons.1 hs).resolve_left nofun)⟩
  · show b.halted = _
    rw [h.halted]
    simp
  · show b.consecutiveFailures + 1 = _
    rw [h.failures, List.count_cons_self]

lemma nextBackoffMs_eq (b : Halt.EngineImpl) :
    b.nextBackoffMs = if b.halted then kBackoffHalted
      else if 0 < b.retryAfterMs then b.retryAfterMs else ladder b.consecutiveFailures := by
  obtain ⟨n, ms, halted⟩ := b
  match n with
  | 0 | 1 | 2 | 3 => rfl
  | n + 4 => rfl

/-- The pause is that of the failures that count. -/
theorem Follows.nextBackoffMs (h : Follows b fs) : b.nextBackoffMs = pauseAfter fs := by
  unfold pauseAfter roadPause
  rw [nextBackoffMs_eq, h.halted, h.failures]
  by_cases hrefused : Failure.refused ∈ fs
  · rw [if_pos hrefused, decide_eq_true hrefused, if_pos rfl]
  · rw [if_neg hrefused, decide_eq_false hrefused, if_neg Bool.false_ne_true]
    have hretry := h.retry
    cases hlast : fs.head? with
    | none =>
        rw [hlast] at hretry
        rw [hretry, if_neg (lt_irrefl _)]
    | some f =>
        rw [hlast] at hretry
        cases f with
        | refused | other => rw [hretry, if_neg (lt_irrefl _)]
        | busy s =>
            have hs := h.asked s (List.mem_of_head? hlast)
            have hmax : kMaxRetryAfterS = 86400 := rfl
            simp only at hretry ⊢
            rw [hretry, if_pos (by omega)]

end Follows

/-- A pause of less than 30 s was asked for. -/
lemma asked_of_short {fs : List Failure} (hpos : 0 < pauseAfter fs)
    (hshort : pauseAfter fs < 30 * 1000) : ∃ s, fs.head? = some (.busy s) := by
  have hladder : ¬ (0 < ladder (fs.count .other) ∧ ladder (fs.count .other) < 30 * 1000) := by
    generalize fs.count .other = n
    match n with
    | 0 | 1 | 2 | 3 => decide
    | n + 4 => exact fun h => lt_irrefl _ h.1
  unfold pauseAfter roadPause at hpos hshort
  by_cases hrefused : Failure.refused ∈ fs
  · rw [if_pos hrefused] at hpos
    exact absurd hpos (by decide)
  · rw [if_neg hrefused] at hpos hshort
    cases hlast : fs.head? with
    | none =>
        rw [hlast] at hpos hshort
        exact absurd ⟨hpos, hshort⟩ hladder
    | some f =>
        cases f with
        | busy s => exact ⟨s, rfl⟩
        | refused | other =>
            rw [hlast] at hpos hshort
            exact absurd ⟨hpos, hshort⟩ hladder

/-! ## The rounds -/

/-- What is noted of an exchange that brought no response is its failure. -/
lemma exists_failure_of_fault {a : Answer} (h : a.fault ≠ .none) :
    ∃ f, a.failure = some f ∧ ∀ b fs, Follows b fs →
      Follows (b.noteFailure a.fault a.retryAfterS) (f :: fs) := by
  unfold Answer.fault faultFor at h ⊢
  unfold Answer.failure
  cases houtcome : a.outcome with
  | tlsTrustFail => exact ⟨.other, by simp, fun b fs hb => hb.other nofun nofun⟩
  | transportFail => exact ⟨.other, by simp, fun b fs hb => hb.other nofun nofun⟩
  | ok =>
      simp only [houtcome] at h ⊢
      by_cases h200 : a.httpStatus = 200
      · rw [if_pos h200] at h
        exact absurd rfl h
      · by_cases h401 : a.httpStatus = 401
        · refine ⟨.refused, by simp [h401], fun b fs hb => ?_⟩
          rw [if_neg h200, if_pos h401]
          exact hb.refused _
        · by_cases h503 : a.httpStatus = 503
          · by_cases hasked : 0 < a.retryAfterS
            · refine ⟨.busy a.retryAfterS, by simp [h503, hasked], fun b fs hb => ?_⟩
              rw [if_neg h200, if_neg h401, if_pos h503]
              exact hb.busy hasked
            · refine ⟨.other, by simp [h503, hasked], fun b fs hb => ?_⟩
              rw [if_neg h200, if_neg h401, if_pos h503]
              exact hb.other nofun fun hno => hasked hno.2
          · refine ⟨.other, by simp [h200, h401, h503], fun b fs hb => ?_⟩
            rw [if_neg h200, if_neg h401, if_neg h503]
            exact hb.other nofun nofun

lemma ok_of_fault {a : Answer} (h : a.fault = .none) : a.outcome = .ok ∧ a.httpStatus = 200 := by
  unfold Answer.fault faultFor at h
  cases houtcome : a.outcome with
  | tlsTrustFail =>
      rw [houtcome] at h
      cases h
  | transportFail =>
      rw [houtcome] at h
      cases h
  | ok =>
      refine ⟨rfl, ?_⟩
      simp only [houtcome] at h
      split_ifs at h with h200
      exact h200

/-- How a run goes that makes at most so many exchanges. -/
structure Drained (left round : ℕ) (b b' : Halt.EngineImpl) (rep : Report) (xs : List Exchange) :
    Prop where
  rounds : rep.rounds = round + xs.length
  length_le : xs.length ≤ left
  completed : ∀ x ∈ xs.dropLast, x.Completed
  ended : (rep.fault = .none ∧ failures xs = [] ∧ b' = b) ∨
    (rep.fault ≠ .none ∧ ∃ f, failures xs = [f] ∧ ∀ fs, Follows b fs → Follows b' (f :: fs))

lemma failures_cons {x : Exchange} (h : x.answer.failure = none) (xs : List Exchange) :
    failures (x :: xs) = failures xs := by
  have hnone : [x].filterMap (fun x => x.answer.failure) = [] := List.filterMap_cons_none h
  unfold failures
  rw [List.reverse_cons, List.filterMap_append, hnone, List.append_nil]

lemma failures_singleton {x : Exchange} {f : Failure} (h : x.answer.failure = some f) :
    failures [x] = [f] := List.filterMap_cons_some h

lemma completed_nil : ∀ x ∈ ([] : List Exchange), x.Completed :=
  fun _ hx => absurd hx List.not_mem_nil

lemma drained_of_drain {keep : ℕ} {answers : ℕ → Answer} {left round : ℕ} {rep rep' : Report}
    {e e' : Syncer} {xs : List Exchange} (hrep : rep.fault = .none)
    (hrounds : rep.rounds = round)
    (h : drain keep answers left round rep e = some (rep', xs, e')) :
    Drained left round e.backoff e'.backoff rep' xs := by
  induction left generalizing round rep rep' e e' xs with
  | zero =>
      unfold drain at h
      cases h
      exact ⟨hrounds, le_refl _, completed_nil, .inl ⟨hrep, rfl, rfl⟩⟩
  | succ left ih =>
      unfold drain at h
      by_cases hfault : (answers round).fault = .none
      · simp only [hfault, ne_eq, not_true, if_false] at h
        obtain ⟨houtcome, h200⟩ := ok_of_fault hfault
        cases hresponse : (answers round).response with
        | none =>
            -- a body that cannot be decoded
            simp only [hresponse] at h
            cases h
            have hfailure : (answers round).failure = some .other := by
              simp [Answer.failure, houtcome, h200, hresponse]
            exact ⟨rfl, Nat.succ_le_succ (Nat.zero_le _), completed_nil,
              .inr ⟨nofun, .other, failures_singleton hfailure,
                fun fs hb => Follows.other (f := .serverFault) (n := 0) hb nofun nofun⟩⟩
        | some r =>
            have hfailure : (answers round).failure = none := by
              simp [Answer.failure, houtcome, h200, hresponse]
            simp only [hresponse] at h
            cases hrun : (applyResponse keep r).run [] e.stores (answers round).writes with
            | cut past s =>
                rw [hrun] at h
                cases h
            | back applied past stores rest =>
                simp only [hrun] at h
                by_cases hlast : (applied.applyIncomplete || !r.more) = true
                · rw [if_pos hlast] at h
                  cases h
                  exact ⟨rfl, Nat.succ_le_succ (Nat.zero_le _), completed_nil,
                    .inl ⟨hrep, failures_cons hfailure [], rfl⟩⟩
                · rw [if_neg hlast] at h
                  obtain ⟨⟨rep₁, ys, e₁⟩, hdrain, heq⟩ := Option.map_eq_some_iff.1 h
                  cases heq
                  rw [Bool.not_eq_true, Bool.or_eq_false_iff, Bool.not_eq_false'] at hlast
                  have hadd : (Report.add { rep with rounds := round + 1 } applied r.more).fault =
                      .none := hrep
                  have hrest : Drained left (round + 1) e.backoff e₁.backoff rep₁ ys :=
                    ih (e := { e with stores := stores }) hadd rfl hdrain
                  have hcompleted : Exchange.Completed
                      ⟨answers round, some (applied, stores)⟩ :=
                    ⟨⟨houtcome, h200⟩, r, hresponse, hlast.2, applied, stores, rfl,
                      fullyApplied_of_complete hrun hlast.1⟩
                  refine ⟨?_, Nat.succ_le_succ hrest.length_le, fun x hx => ?_, ?_⟩
                  · show rep₁.rounds = round + (ys.length + 1)
                    rw [hrest.rounds]
                    omega
                  · cases ys with
                    | nil => cases hx
                    | cons y ys =>
                        rw [List.dropLast_cons_cons] at hx
                        rcases List.mem_cons.1 hx with rfl | hx
                        · exact hcompleted
                        · exact hrest.completed x hx
                  · rw [failures_cons hfailure]
                    exact hrest.ended
      · simp only [ne_eq, hfault, not_false_iff, if_true] at h
        cases h
        obtain ⟨f, hf, hnote⟩ := exists_failure_of_fault hfault
        exact ⟨rfl, Nat.succ_le_succ (Nat.zero_le _), completed_nil,
          .inr ⟨hfault, f, failures_singleton hf, hnote _⟩⟩

/-! ## One run -/

/-- What a run does, whatever its exchanges bring. -/
structure Bounded (o : Options) (xs : List Exchange) : Prop where
  length_le : (xs.length : ℤ) ≤ max 1 o.maxDrainRounds
  completed : ∀ x ∈ xs.dropLast, x.Completed

lemma Options.cap_eq (o : Options) : (o.cap : ℤ) = max 1 o.maxDrainRounds := by
  unfold cap
  split_ifs with h
  · omega
  · omega

/-- The engine beside the runs it made: what it remembers follows them. -/
structure Inv (o : Options) (e : Syncer) (rs : List Ran) : Prop where
  follows : Follows e.backoff (standing rs)
  unwired : o.wired = false → e.backoff = {}
  bounded : ∀ r ∈ rs, Bounded o r.exchanges

variable {o : Options} {e e' : Syncer} {rs : List Ran} {c : Call}

/-- The key clears what stood, and a run that fails adds to the rest. -/
lemma standing_cons {xs : List Exchange} {f : Failure} (hxs : failures xs = [f]) (t : Trigger) :
    standing (⟨t, xs⟩ :: rs) = f :: if t = .userKey then [] else standing rs := by
  have hne : failures xs ≠ [] := hxs ▸ List.cons_ne_nil _ _
  simp only [standing]
  rw [if_neg hne, hxs, List.singleton_append]

/-- One run keeps the engine in step with what went wrong. -/
lemma Inv.runOnce {rep : Report} {xs : List Exchange} (hinv : Inv o e rs)
    (h : runOnce o e c = some (rep, xs, e')) : Inv o e' (⟨c.trigger, xs⟩ :: rs) := by
  unfold Backoff.runOnce at h
  cases hwired : o.wired with
  | false =>
      rw [hwired, if_neg Bool.false_ne_true] at h
      cases h
      have hempty : e.backoff = {} := hinv.unwired hwired
      have hbounded : Bounded o [] := ⟨by simp, completed_nil⟩
      exact ⟨hempty ▸ follows_nil, hinv.unwired, List.forall_mem_cons.2 ⟨hbounded, hinv.bounded⟩⟩
  | true =>
      rw [hwired, if_pos rfl] at h
      obtain ⟨⟨rep, xs, e₁⟩, hdrain, heq⟩ := Option.map_eq_some_iff.1 h
      have hdrained := drained_of_drain (show ({} : Report).fault = .none from rfl) rfl hdrain
      have hstart : Follows (if c.trigger = .userKey then
            { e with backoff := Halt.EngineImpl.resetBackoff } else e : Syncer).backoff
          (if c.trigger = .userKey then [] else standing rs) := by
        split_ifs
        · exact follows_nil
        · exact hinv.follows
      cases heq
      refine ⟨?_, fun hno => absurd (hwired.symm.trans hno) nofun,
        List.forall_mem_cons.2 ⟨⟨?_, hdrained.completed⟩, hinv.bounded⟩⟩
      · rcases hdrained.ended with ⟨hfault, hxs, -⟩ | ⟨hfault, f, hxs, hfollows⟩
        · rw [if_pos hfault, standing, if_pos hxs]
          exact follows_nil
        · rw [if_neg hfault, standing_cons hxs]
          exact hfollows _ hstart
      · rw [← o.cap_eq]
        exact Int.ofNat_le.2 hdrained.length_le

/-! ## Every history -/

/-- The engine, with the runs it made, the latest first. -/
structure History where
  engine : Syncer
  ran : List Ran := []

def History.step (o : Options) (h : History) (c : Call) : Option History :=
  (runOnce o h.engine c).map fun (_, xs, e) => ⟨e, ⟨c.trigger, xs⟩ :: h.ran⟩

/-- Every run is bounded, the pause is that of the failures that stand, and one of less than 30 s
was asked for. -/
structure Paced (o : Options) (h : History) : Prop where
  bounded : ∀ r ∈ h.ran, Bounded o r.exchanges
  waits : h.engine.backoff.nextBackoffMs = pauseAfter (standing h.ran)
  asked : 0 < h.engine.backoff.nextBackoffMs → h.engine.backoff.nextBackoffMs < 30 * 1000 →
    ∃ s, (standing h.ran).head? = some (.busy s)

/-- In every history of an engine that was just built, each run is bounded, goes on only from a
response that was applied as a whole, and the pause after it is that of the failures that stand:
those since the last run without one, or from the last run for the key on. -/
theorem paced_of_run {h₀ h : History} {cs : List Call} (hfresh : h₀.engine.backoff = {})
    (hnone : h₀.ran = []) (hrun : Run.run (History.step o) h₀ cs = some h) : Paced o h := by
  have hstep : ∀ h c h', Inv o h.engine h.ran → History.step o h c = some h' →
      Inv o h'.engine h'.ran := by
    intro h c h' hinv hstep
    obtain ⟨⟨rep, xs, e⟩, hran, rfl⟩ := Option.map_eq_some_iff.1 hstep
    exact hinv.runOnce hran
  have hstart : Inv o h₀.engine h₀.ran := by
    rw [hnone]
    exact ⟨hfresh ▸ follows_nil, fun _ => hfresh, nofun⟩
  have hinv := Run.run_invariant hstep hstart hrun
  have hwaits := hinv.follows.nextBackoffMs
  refine ⟨hinv.bounded, hwaits, ?_⟩
  rw [hwaits]
  exact asked_of_short

/-! ## What the key clears -/

/-- The failures since the last run that had none, the latest first. -/
def sinceFaultless : List Ran → List Failure
  | [] => []
  | r :: rs =>
      if failures r.exchanges = [] then [] else failures r.exchanges ++ sinceFaultless rs

/-- The pause if the key cleared the halt and nothing else. -/
def pauseKeyClearsHalt (rs : List Ran) : ℤ :=
  if .refused ∈ standing rs then kBackoffHalted else roadPause (sinceFaultless rs)

namespace Sample

def newHistory : History where
  engine :=
    { stores :=
        { seen := { capacity := minSeenIDs, minSeenIDs_le := le_refl _ }
          state := ⟨{}, {}⟩
          contacts := ⟨⟨0, []⟩, ⟨0, []⟩⟩ } }

/-- A run without a link. -/
def unreached (t : Trigger) : Call where
  trigger := t
  answers := fun _ => { outcome := .transportFail }

/-- A run that is told to come back in 42 s. -/
def turnedAway : Call where
  trigger := .scheduled
  answers := fun _ => { httpStatus := 503, retryAfterS := parseRetryAfterSeconds " 42" }

end Sample

theorem paced_turnedAway :
    ∃ h, Run.run (History.step {}) Sample.newHistory
        [Sample.unreached .scheduled, Sample.unreached .scheduled, Sample.turnedAway] = some h ∧
      h.engine.backoff.nextBackoffMs = 42000 ∧ Paced {} h := by
  have hany : (Run.run (History.step {}) Sample.newHistory
      [Sample.unreached .scheduled, Sample.unreached .scheduled, Sample.turnedAway]).any
        (fun h => h.engine.backoff.nextBackoffMs = 42000) = true := by decide +kernel
  obtain ⟨h, hrun, hpause⟩ := Run.exists_of_any hany
  exact ⟨h, hrun, of_decide_eq_true hpause, paced_of_run rfl rfl hrun⟩

/-- The key clears more than the halt: after two runs without a link, a third that was asked for
with the key is the first again. -/
theorem not_keyClearsHalt :
    ¬ ∀ (o : Options) (h₀ h : History) (cs : List Call), h₀.engine.backoff = {} → h₀.ran = [] →
      Run.run (History.step o) h₀ cs = some h →
      h.engine.backoff.nextBackoffMs = pauseKeyClearsHalt h.ran := by
  intro hall
  have hany : (Run.run (History.step {}) Sample.newHistory
      [Sample.unreached .scheduled, Sample.unreached .scheduled, Sample.unreached .userKey]).any
        (fun h => h.engine.backoff.nextBackoffMs ≠ pauseKeyClearsHalt h.ran) = true := by
    decide +kernel
  obtain ⟨h, hrun, hpause⟩ := Run.exists_of_any hany
  exact of_decide_eq_true hpause (hall {} Sample.newHistory h _ rfl rfl hrun)

end Chaskiwasi.Device.Backoff
