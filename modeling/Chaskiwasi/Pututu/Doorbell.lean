import Chaskiwasi.Outbound.Handler

/-!
# The doorbell counter

Every SMS carries a token made from a counter, and the device ignores a token whose counter it has
passed.  So the counter must only ever rise, and it is raised from two places: a `Ring` mints the
next one, and a sync jumps to what the device reports.  Both are updates of `state.json` under its
one writer lock; the attempts to send come after, and a retry sends the token it has.

A `World` is the store, the coalescing gate, which the process holds in memory, and the calls of
`Ring` in progress.  The file may be replaced by another one at any time, as it is when a backup is
restored; the counter then starts over, until the next sync.
-/

namespace Chaskiwasi.Doorbell

/-- How often a token is sent before it is given up. -/
def maxAttempts : ℕ := 5

/-- Where a call of `Ring` stands once it is past the gate.  A token is given by its counter. -/
inductive Stage
  /-- About to ask whether the device has synced since. -/
  | checking
  /-- About to mint a token. -/
  | minting
  /-- About to hand the token to the carrier. -/
  | sending (token attempt : ℕ)
  /-- Waiting to send it again. -/
  | waiting (token attempt : ℕ)
  deriving DecidableEq, Repr

structure Call where
  triggerAt : ℤ
  stage : Stage
  deriving DecidableEq, Repr

inductive Event
  | minted (counter : ℕ)
  /-- A sync was committed in which the device reported this counter. -/
  | synced (seen : ℕ)
  /-- The file was replaced by another. -/
  | restored
  deriving DecidableEq, Repr

structure World where
  store : Store
  /-- `none` is the zero time, before any other. -/
  nextAllowed : Option ℤ := none
  calls : ℕ → Option Call := fun _ => none
  /-- What happened, newest first; no procedure reads it. -/
  log : List Event := []

/-- How what a call waits for ends: the write, the carrier, the backoff. -/
structure CallIO where
  write : WriteOutcome := .done
  sent : Bool := true
  waited : Bool := true
  deriving DecidableEq, Repr

inductive Act
  | start
  | stop
  | restore (s : State)
  | ring (k : ℕ) (now : ℤ)
  | proceed (k : ℕ) (io : CallIO)
  /-- A sync handler commits. -/
  | commit (h : Post.Handler) (io : Post.HandlerIO)
  /-- A sync handler records an ack. -/
  | record (e : AckEntry) (o : WriteOutcome)

def World.setCall (w : World) (k : ℕ) (c : Option Call) : World :=
  { w with calls := fun j => if j = k then c else w.calls j }

/-- Whether the device has synced at or after the arrival. -/
def syncedSince (st : State) (triggerAt : ℤ) : Bool := ¬ st.lastSyncAt < triggerAt

/-- One step of a call. -/
def callStep (w : World) (k : ℕ) (c : Call) (io : CallIO) : Option World :=
  let goto (v : World) (stage : Stage) : World := v.setCall k (some { c with stage := stage })
  match c.stage with
  | .checking =>
      w.store.current.map fun st =>
        if syncedSince st c.triggerAt then w.setCall k none else goto w .minting
  | .minting =>
      w.store.current.bind fun st =>
        (w.store.update State.nextPututuCounter io.write).map fun (store, ok) =>
          let v : World := { w with store := store }
          let token := st.nextPututuCounter.pututuCounter
          if ok then goto { v with log := .minted token :: v.log } (.sending token 1)
          else v.setCall k none
  | .sending token attempt =>
      if io.sent ∨ maxAttempts ≤ attempt then some (w.setCall k none)
      else some (goto w (.waiting token (attempt + 1)))
  | .waiting token attempt =>
      w.store.current.map fun st =>
        if ¬ io.waited ∨ syncedSince st c.triggerAt then w.setCall k none
        else goto w (.sending token attempt)

/-- One step of the server, or of whoever restores its file. -/
def step (coalesceMin : ℤ) (w : World) (act : Act) : Option World :=
  match act with
  | .start =>
      match w.store.current with
      | some _ => none
      | none => some { w with store := w.store.opened, nextAllowed := none }
  | .stop =>
      some { w with store := { w.store with current := none }, calls := fun _ => none }
  | .restore s =>
      some { w with store := { w.store with file := s }, log := .restored :: w.log }
  | .ring k now =>
      match w.store.current, w.calls k with
      | some _, none =>
          if ∃ t ∈ w.nextAllowed, now < t then some w
          else some ({ w with nextAllowed := some (now + coalesceMin) }.setCall k
            (some ⟨now, .checking⟩))
      | _, _ => none
  | .proceed k io => (w.calls k).bind fun c => callStep w k c io
  | .commit h io =>
      (w.store.update (Post.commitSync h io) io.write).map fun (store, ok) =>
        { w with
          store := store
          log := if ok then .synced h.pututuCounterSeen :: w.log else w.log }
  | .record e o =>
      (w.store.update (Post.recordAck e) o).map fun (store, _) => { w with store := store }

/-! ## What a step can do to the counter -/

/-- What a counter minted later must exceed. -/
def Event.floor : Event → ℕ
  | .minted counter => counter
  | .synced seen => seen
  | .restored => 0

/-- The counters the world holds are below 2^63. -/
def World.Below (w : World) : Prop :=
  w.store.file.pututuCounter < 2 ^ 63 ∧ ∀ st ∈ w.store.current, st.pututuCounter < 2 ^ 63

instance (w : World) : Decidable w.Below := inferInstanceAs (Decidable (_ ∧ _))

/-- What one step does to the store and the log. -/
inductive Kept (w w' : World) : Prop
  /-- The file stays, and what is published is as before or read from it. -/
  | same (hfile : w'.store.file = w.store.file)
      (hcur : ∀ st, w'.store.current = some st → w.store.current = some st ∨ st = w.store.file)
      (hlog : w'.log = w.log)
  /-- A state whose counter is not less is written, as far as the write gets. -/
  | raised (st st' : State) (hst : w.store.current = some st)
      (hle : st.pututuCounter ≤ st'.pututuCounter)
      (hstore : w'.store = ⟨st', some st'⟩ ∨ w'.store = { w.store with file := st' })
      (hlog : w'.log = w.log)
  /-- A state whose counter is not less is durable, and noted. -/
  | noted (st st' : State) (e : Event) (hst : w.store.current = some st)
      (hle : st.pututuCounter ≤ st'.pututuCounter) (hfloor : e.floor ≤ st'.pututuCounter)
      (hminted : ∀ n, e = .minted n → st.pututuCounter < n)
      (hstore : w'.store = ⟨st', some st'⟩) (hlog : w'.log = e :: w.log)
  | restored (s : State) (hstore : w'.store = { w.store with file := s })
      (hlog : w'.log = .restored :: w.log)

variable {coalesceMin : ℤ} {w w' w₀ : World} {act : Act} {acts : List Act}

lemma Kept.of_eq (hstore : w'.store = w.store) (hlog : w'.log = w.log) : Kept w w' := by
  refine .same (by rw [hstore]) (fun st hst => Or.inl ?_) hlog
  rwa [hstore] at hst

/-- An update that raises the counter, noted or not. -/
lemma Kept.of_update {f : State → State} {o : WriteOutcome} {store : Store} {ok : Bool}
    {e : Event} (h : w.store.update f o = some (store, ok))
    (hf : ∀ st, w.store.current = some st → st.pututuCounter ≤ (f st).pututuCounter ∧
      e.floor ≤ (f st).pututuCounter ∧ ∀ n, e = .minted n → st.pututuCounter < n)
    (hstore : w'.store = store)
    (hlog : w'.log = w.log ∨ ok = true ∧ w'.log = e :: w.log) : Kept w w' := by
  obtain ⟨st, hst, hcases⟩ := Store.update_cases h
  obtain ⟨hle, hfloor, hminted⟩ := hf st hst
  rcases hcases with ⟨-, -, rfl⟩ | ⟨-, rfl, rfl⟩ | ⟨-, rfl, rfl⟩
  · rcases hlog with hlog | ⟨-, hlog⟩
    · exact .raised st (f st) hst hle (Or.inl hstore) hlog
    · exact .noted st (f st) e hst hle hfloor hminted hstore hlog
  · exact .of_eq hstore (hlog.resolve_right (by simp))
  · exact .raised st (f st) hst hle (Or.inr hstore) (hlog.resolve_right (by simp))

lemma callStep_kept (hbelow : w.Below) {k : ℕ} {c : Call} {io : CallIO}
    (h : callStep w k c io = some w') : Kept w w' := by
  unfold callStep at h
  cases hstage : c.stage with
  | checking =>
      simp only [hstage] at h
      obtain ⟨st, -, rfl⟩ := Option.map_eq_some_iff.1 h
      split_ifs <;> exact .of_eq rfl rfl
  | minting =>
      simp only [hstage] at h
      obtain ⟨st, hst, h⟩ := Option.bind_eq_some_iff.1 h
      obtain ⟨⟨store, ok⟩, hupd, rfl⟩ := Option.map_eq_some_iff.1 h
      have hnext : st.nextPututuCounter.pututuCounter = st.pututuCounter + 1 := by
        have hlt := hbelow.2 st hst
        show (st.pututuCounter + 1) % 2 ^ 64 = _
        omega
      refine Kept.of_update (e := .minted st.nextPututuCounter.pututuCounter) hupd ?_ ?_ ?_
      · intro st' hst'
        obtain rfl := Option.some.inj (hst.symm.trans hst')
        refine ⟨by omega, le_refl _, fun n hn => ?_⟩
        obtain rfl := Event.minted.inj hn
        omega
      · split_ifs <;> rfl
      · split_ifs with hok
        · exact Or.inr ⟨hok, rfl⟩
        · exact Or.inl rfl
  | sending token attempt =>
      simp only [hstage] at h
      split_ifs at h <;> obtain rfl := Option.some.inj h <;> exact .of_eq rfl rfl
  | waiting token attempt =>
      simp only [hstage] at h
      obtain ⟨st, -, rfl⟩ := Option.map_eq_some_iff.1 h
      split_ifs <;> exact .of_eq rfl rfl

theorem step_kept (hbelow : w.Below) (h : step coalesceMin w act = some w') : Kept w w' := by
  cases act with
  | start =>
      cases hcur : w.store.current with
      | some st => simp [step, hcur] at h
      | none =>
          simp only [step, hcur] at h
          obtain rfl := Option.some.inj h
          exact .same rfl (fun st hst => Or.inr (Option.some.inj hst).symm) rfl
  | stop =>
      obtain rfl := Option.some.inj h
      exact .same rfl (fun st hst => by cases hst) rfl
  | restore s =>
      obtain rfl := Option.some.inj h
      exact .restored s rfl rfl
  | ring k now =>
      cases hcur : w.store.current with
      | none => simp [step, hcur] at h
      | some st =>
          cases hcall : w.calls k with
          | some c => simp [step, hcur, hcall] at h
          | none =>
              simp only [step, hcur, hcall] at h
              split_ifs at h <;> obtain rfl := Option.some.inj h <;> exact .of_eq rfl rfl
  | proceed k io =>
      obtain ⟨c, -, h⟩ := Option.bind_eq_some_iff.1 h
      exact callStep_kept hbelow h
  | commit hd io =>
      obtain ⟨⟨store, ok⟩, hupd, rfl⟩ := Option.map_eq_some_iff.1 h
      refine Kept.of_update (e := .synced hd.pututuCounterSeen) hupd (fun st _ => ?_) rfl ?_
      · have hle := State.le_reconcilePututuCounter
          { st with lastSyncAt := hd.now, uidValidity := io.uidValidity, lastUID := io.lastUID }
          hd.pututuCounterSeen
        exact ⟨hle.1, hle.2, fun n hn => by cases hn⟩
      · cases ok with
        | true => exact Or.inr ⟨rfl, rfl⟩
        | false => exact Or.inl rfl
  | record e o =>
      obtain ⟨⟨store, ok⟩, hupd, rfl⟩ := Option.map_eq_some_iff.1 h
      refine Kept.of_update (e := .restored) hupd (fun st _ => ?_) rfl (Or.inl rfl)
      exact ⟨le_refl _, Nat.zero_le _, fun n hn => by cases hn⟩

/-! ## The counter over a run -/

/-- The events of the present state history: those since the file was last replaced. -/
def history (log : List Event) : List Event := log.takeWhile (· ≠ .restored)

/-- Every minted counter is above whatever its state history held before it. -/
def Rising : List Event → Prop
  | [] => True
  | e :: log => (∀ n, e = .minted n → ∀ d ∈ history log, d.floor < n) ∧ Rising log

/-- What the published state and the file owe the history. -/
structure Sound (w : World) : Prop where
  file : ∀ e ∈ history w.log, e.floor ≤ w.store.file.pututuCounter
  current : ∀ e ∈ history w.log, ∀ st, w.store.current = some st → e.floor ≤ st.pututuCounter
  rising : Rising w.log

lemma mem_history_cons {e d : Event} {log : List Event} (h : d ∈ history (e :: log)) :
    d = e ∨ d ∈ history log := by
  unfold history at h ⊢
  by_cases he : e = .restored
  · simp [he] at h
  · rw [List.takeWhile_cons_of_pos (by simpa using he)] at h
    exact List.mem_cons.1 h

theorem Sound.step (hw : Sound w) (h : Kept w w') : Sound w' := by
  cases h with
  | same hfile hcur hlog =>
      refine ⟨?_, ?_, ?_⟩
      · rw [hlog, hfile]
        exact hw.file
      · intro e he st hst
        rw [hlog] at he
        rcases hcur st hst with hst | rfl
        · exact hw.current e he st hst
        · exact hw.file e he
      · rw [hlog]
        exact hw.rising
  | raised st st' hst hle hstore hlog =>
      have hkeeps : ∀ e ∈ history w.log, e.floor ≤ st'.pututuCounter := by
        intro e he
        have hbound := hw.current e he st hst
        omega
      rcases hstore with hstore | hstore
      · refine ⟨?_, ?_, hlog ▸ hw.rising⟩
        · rw [hlog, hstore]
          exact hkeeps
        · intro e he s hs
          rw [hstore] at hs
          obtain rfl := Option.some.inj hs
          exact hkeeps e (hlog ▸ he)
      · refine ⟨?_, ?_, hlog ▸ hw.rising⟩
        · rw [hlog, hstore]
          exact hkeeps
        · intro e he s hs
          rw [hstore] at hs
          exact hw.current e (hlog ▸ he) s hs
  | noted st st' e hst hle hfloor hminted hstore hlog =>
      have hkeeps : ∀ d ∈ history w'.log, d.floor ≤ st'.pututuCounter := by
        intro d hd
        rw [hlog] at hd
        rcases mem_history_cons hd with rfl | hd
        · exact hfloor
        · have hbound := hw.current d hd st hst
          omega
      refine ⟨?_, ?_, ?_⟩
      · rw [hstore]
        exact hkeeps
      · intro d hd s hs
        rw [hstore] at hs
        obtain rfl := Option.some.inj hs
        exact hkeeps d hd
      · rw [hlog]
        refine ⟨fun n hn d hd => ?_, hw.rising⟩
        have hbound := hw.current d hd st hst
        have hlt := hminted n hn
        omega
  | restored s hstore hlog =>
      have hnone : history w'.log = [] := by
        rw [hlog, history, List.takeWhile_cons_of_neg (by simp)]
      refine ⟨?_, ?_, ?_⟩
      · rw [hnone]
        simp
      · rw [hnone]
        simp
      · rw [hlog]
        exact ⟨fun n hn => by (cases hn), hw.rising⟩

/-- A minted counter is above each earlier event of its own state history. -/
lemma Rising.floor_lt {later between earlier : List Event} {e : Event} {n : ℕ}
    (h : Rising (later ++ .minted n :: (between ++ e :: earlier))) (hbetween : .restored ∉ between)
    (he : e ≠ .restored) : e.floor < n := by
  induction later with
  | nil =>
      refine h.1 n rfl e ?_
      have htake : ∀ d ∈ between, decide (d ≠ .restored) = true := by
        intro d hd
        simpa using ne_of_mem_of_not_mem hd hbetween
      rw [history, List.takeWhile_append_of_pos htake,
      List.takeWhile_cons_of_pos (by simpa using he)]
      exact List.mem_append_right _ (List.mem_cons_self ..)
  | cons d later ih => exact ih h.2

lemma sound_run (hw₀ : Sound w₀) (hbelow : ∀ w ∈ Run.visits (step coalesceMin) w₀ acts, w.Below)
    (hrun : Run.run (step coalesceMin) w₀ acts = some w) : Sound w :=
  Run.run_invariant_of_meets (fun _ _ _ hs hb h => hs.step (step_kept hb.1 h)) hw₀
    (Run.meets_of_visits hbelow) hrun

/-- A server that has not been started yet, with this file. -/
def initial (s : State) : World where
  store := ⟨s, none⟩

lemma sound_initial (s : State) : Sound (initial s) := by
  refine ⟨?_, ?_, trivial⟩
  · intro e he
    cases he
  · intro e he
    cases he

/-- **Doorbell counters never regress.**  Whatever the calls, the syncs, the failed writes, the
restarts and the restores: a token is minted with a counter above that of every token minted before
it in the same state history, and above every counter that a sync of that history committed. -/
theorem counters_never_regress {s : State} {later between earlier : List Event} {e : Event} {n : ℕ}
    (hbelow : ∀ w ∈ Run.visits (step coalesceMin) (initial s) acts, w.Below)
    (hrun : Run.run (step coalesceMin) (initial s) acts = some w)
    (hlog : w.log = later ++ .minted n :: (between ++ e :: earlier))
    (hbetween : .restored ∉ between) :
    (∀ m, e = .minted m → m < n) ∧ ∀ seen, e = .synced seen → seen < n := by
  have hrising := (sound_run (sound_initial s) hbelow hrun).rising
  rw [hlog] at hrising
  constructor
  · intro m hm
    subst hm
    exact hrising.floor_lt hbetween (by simp)
  · intro seen hseen
    subst hseen
    exact hrising.floor_lt hbetween (by simp)

/-- A token is minted, the file is replaced by an older one, the device reports 9, and the next
token is minted. -/
def restoredRun : List Act :=
  [.start, .ring 0 5, .proceed 0 {}, .proceed 0 {}, .proceed 0 {}, .stop, .restore {}, .start,
    .commit ⟨[], 500, 7, 9, .committing []⟩ {}, .ring 0 8, .proceed 0 {}, .proceed 0 {}]

/-- The token after the restore is above what the device has seen. -/
theorem minted_above_report : ∃ w, Run.run (step 15) (initial {}) restoredRun = some w ∧
    w.log = [.minted 10, .synced 9, .restored, .minted 1] ∧ 9 < 10 := by
  have hbelow : ∀ w ∈ Run.visits (step 15) (initial {}) restoredRun, w.Below := by
    decide +kernel
  obtain ⟨w, hrun, hlog⟩ : ∃ w, Run.run (step 15) (initial {}) restoredRun = some w ∧
      w.log = [] ++ .minted 10 :: ([] ++ .synced 9 :: [.restored, .minted 1]) :=
    ⟨_, rfl, rfl⟩
  exact ⟨w, hrun, hlog, (counters_never_regress hbelow hrun hlog (by simp)).2 9 rfl⟩

end Chaskiwasi.Doorbell
