import Chaskiwasi.Outbound.Handler

/-!
# Acks are durable, and their replay sends nothing

Two invariants say what an ack rests on.  `Traced Φ Ψ` follows entries backward: whatever stands in
the published ring, in a handler's copy of it, or among the acks a handler is about to answer
satisfies `Φ` of the log so far, and what stands in the file satisfies `Ψ`, when both hold of an
entry where it is first written.  It is used twice, for an entry's durability and for the decision
behind it, and it holds of overlapping handlers too.

`Settled` follows one durable ack forward, through requests that do not overlap.  There a handler's
copy of the ring is the published ring (`Sequential`), so a letter whose ack is in the ring is found
there and not sent; the ring loses the ack only to capacity, and every entry that could push it out
is counted in the log.
-/

namespace Chaskiwasi.Post

variable {w w' v w₀ w₁ : World} {acts : List Act} {k : ℕ} {h : Handler} {io : HandlerIO}
  {e : AckEntry}

/-- No process runs, and nothing is logged. -/
structure World.AtRest (w : World) : Prop where
  current : w.store.current = none
  handlers : ∀ k, w.handlers k = none
  log : w.log = []

/-- The ring a handler works with. -/
def Stage.ring? : Stage → Option AckRing
  | .looking ring _ _ | .sending ring _ _ _ | .recording ring _ _ _ _ => some ring
  | .received | .committing _ => none

/-- The acks a handler has so far. -/
def Stage.acks : Stage → List AckEntry
  | .looking _ _ acks | .sending _ _ _ acks | .recording _ _ _ _ acks | .committing acks => acks
  | .received => []

/-! ## Where an entry comes from -/

section Traced

/-- Every entry within reach of an ack satisfies `Φ`, and every entry in the file `Ψ`. -/
structure Traced (Φ Ψ : List Note → AckEntry → Prop) (w : World) : Prop where
  file : ∀ e ∈ w.store.file.acks.entries, Ψ w.log e
  current : ∀ st, w.store.current = some st → ∀ e ∈ st.acks.entries, Φ w.log e
  ring : ∀ k h, w.handlers k = some h → ∀ ring, h.stage.ring? = some ring →
    ∀ e ∈ ring.entries, Φ w.log e
  acks : ∀ k h, w.handlers k = some h → ∀ e ∈ h.stage.acks, Φ w.log e
  decided : ∀ k h, w.handlers k = some h → ∀ ring item status rest acks,
    h.stage = .recording ring item status rest acks → .decided k item status ∈ w.log
  answered : ∀ newer k items as older, w.log = newer ++ .responded k items as :: older →
    ∀ e ∈ as, Φ older e

/-- What makes `Traced` an invariant. -/
structure Traceable (Φ Ψ : List Note → AckEntry → Prop) : Prop where
  mono : ∀ n log e, Φ log e → Φ (n :: log) e
  mono_file : ∀ n log e, Ψ log e → Ψ (n :: log) e
  file : ∀ log e, Φ log e → Ψ log e
  opened : ∀ ring log e, e ∈ ring.entries → Ψ log e → Φ (.opened ring :: log) e
  recorded : ∀ k log e, .decided k e.item e.status ∈ log → e.localID = e.item.letter.localID →
    Φ (.recorded e :: log) e ∧ Ψ (.recorded e :: log) e ∧ Ψ (.replaced e :: log) e

variable {Φ Ψ : List Note → AckEntry → Prop}

lemma Traced.setHandler (ht : Traced Φ Ψ v) {s : Option Handler}
    (hring : ∀ h ring, s = some h → h.stage.ring? = some ring → ∀ e ∈ ring.entries, Φ v.log e)
    (hacks : ∀ h, s = some h → ∀ e ∈ h.stage.acks, Φ v.log e)
    (hdecided : ∀ h ring item status rest acks, s = some h →
      h.stage = .recording ring item status rest acks → .decided k item status ∈ v.log) :
    Traced Φ Ψ (v.setHandler k s) where
  file := ht.file
  current := ht.current
  answered := ht.answered
  ring := by
    intro j h hj ring hring'
    by_cases hjk : j = k
    · exact hring h ring (by simpa [hjk] using hj) hring'
    · exact ht.ring j h (by simpa [hjk] using hj) ring hring'
  acks := by
    intro j h hj
    by_cases hjk : j = k
    · exact hacks h (by simpa [hjk] using hj)
    · exact ht.acks j h (by simpa [hjk] using hj)
  decided := by
    intro j h hj ring item status rest acks hstage
    by_cases hjk : j = k
    · subst hjk
      exact hdecided h ring item status rest acks (by simpa using hj) hstage
    · exact ht.decided j h (by simpa [hjk] using hj) ring item status rest acks hstage

lemma Traced.end (ht : Traced Φ Ψ v) : Traced Φ Ψ (v.setHandler k none) :=
  ht.setHandler (by simp) (by simp) (by simp)

lemma append_note_cases {n m : Note} {newer older log : List Note}
    (hsplit : n :: log = newer ++ m :: older) :
    (n = m ∧ log = older) ∨ ∃ newer', newer = n :: newer' ∧ log = newer' ++ m :: older := by
  cases newer with
  | nil =>
      obtain ⟨rfl, rfl⟩ := List.cons.inj hsplit
      exact Or.inl ⟨rfl, rfl⟩
  | cons n' newer' =>
      obtain ⟨rfl, hlog⟩ := List.cons.inj hsplit
      exact Or.inr ⟨newer', rfl, hlog⟩

/-- One more note, if it is not a response. -/
lemma Traced.note (hΦ : Traceable Φ Ψ) (ht : Traced Φ Ψ w) (n : Note)
    (hn : ∀ k items as, n ≠ .responded k items as) : Traced Φ Ψ (w.note n) where
  file := fun e he => hΦ.mono_file n _ e (ht.file e he)
  current := fun st hst e he => hΦ.mono n _ e (ht.current st hst e he)
  ring := fun k h hk ring hring e he => hΦ.mono n _ e (ht.ring k h hk ring hring e he)
  acks := fun k h hk e he => hΦ.mono n _ e (ht.acks k h hk e he)
  decided := fun k h hk ring item status rest acks hstage =>
    List.mem_cons_of_mem _ (ht.decided k h hk ring item status rest acks hstage)
  answered := by
    intro newer k items as older hlog
    rcases append_note_cases hlog with ⟨heq, -⟩ | ⟨newer', -, hlog'⟩
    · exact absurd heq (hn k items as)
    · exact ht.answered newer' k items as older hlog'

lemma Traced.processed (hΦ : Traceable Φ Ψ) (ht : Traced Φ Ψ w) {item : OutboundItem} {n : Note}
    {log : List Note} (hn : ∀ k items as, n ≠ .responded k items as)
    (hlog : Processed k item w n log) : Traced Φ Ψ { w with log := log } ∧ n ∈ log := by
  rcases hlog with ⟨rfl, -⟩ | ⟨accepted, rfl, -⟩
  · exact ⟨ht.note hΦ n hn, List.mem_cons_self ..⟩
  · have hsub := ht.note hΦ (.submitted k item accepted) (by simp)
    exact ⟨hsub.note hΦ n hn, List.mem_cons_self ..⟩

lemma Traced.withStore (ht : Traced Φ Ψ w) (store : Store)
    (hfile : ∀ e ∈ store.file.acks.entries, Ψ w.log e)
    (hcur : ∀ st, store.current = some st → ∀ e ∈ st.acks.entries, Φ w.log e) :
    Traced Φ Ψ { w with store := store } :=
  { ht with file := hfile, current := hcur }

lemma Traced.setStage (ht : Traced Φ Ψ v) {stage : Stage}
    (hring : ∀ ring, stage.ring? = some ring → ∀ e ∈ ring.entries, Φ v.log e)
    (hacks : ∀ e ∈ stage.acks, Φ v.log e)
    (hdecided : ∀ ring item status rest acks, stage = .recording ring item status rest acks →
      .decided k item status ∈ v.log) :
    Traced Φ Ψ (v.setHandler k (some { h with stage := stage })) := by
  refine ht.setHandler ?_ ?_ ?_
  · intro h' ring heq hring'
    obtain rfl := Option.some.inj heq
    exact hring ring hring'
  · intro h' heq
    obtain rfl := Option.some.inj heq
    exact hacks
  · intro h' ring item status rest acks heq hstage
    obtain rfl := Option.some.inj heq
    exact hdecided ring item status rest acks hstage

/-- A handler that goes on with the same ring and the same acks. -/
lemma Traced.goto (ht : Traced Φ Ψ v) (hk : v.handlers k = some h) {stage : Stage}
    (hring : ∀ ring, stage.ring? = some ring → h.stage.ring? = some ring)
    (hacks : stage.acks = h.stage.acks)
    (hdecided : ∀ ring item status rest acks, stage = .recording ring item status rest acks →
      .decided k item status ∈ v.log) :
    Traced Φ Ψ (v.setHandler k (some { h with stage := stage })) :=
  ht.setStage (fun ring hr => ht.ring k h hk ring (hring ring hr))
    (fun e he => ht.acks k h hk e (hacks ▸ he)) hdecided

lemma HandleStep.traced (hΦ : Traceable Φ Ψ) (ht : Traced Φ Ψ w) (hk : w.handlers k = some h)
    {stage : Stage} (hstage : h.stage = stage) (hstep : HandleStep w k h io stage w') :
    Traced Φ Ψ w' := by
  have hrings := ht.ring k h hk
  have hentries := ht.acks k h hk
  cases hstep with
  | ended => exact ht.end
  | empty => exact ht.goto hk (by simp [Stage.ring?]) (by simp [hstage, Stage.acks]) (by simp)
  | snapshot st hcur =>
      refine ht.setStage (fun ring hring => ?_) (by simp [Stage.acks]) (by simp)
      obtain rfl := Option.some.inj hring
      exact ht.current st hcur
  | finished ring acks =>
      exact ht.goto hk (by simp [Stage.ring?]) (by simp [hstage, Stage.acks]) (by simp)
  | replayed ring item rest acks e' he' =>
      have hring : h.stage.ring? = some ring := by rw [hstage]; rfl
      refine ht.setStage (fun ring' hring' => ?_) (fun e he => ?_) (by simp)
      · obtain rfl := Option.some.inj hring'
        exact hrings _ hring
      · rcases List.mem_append.1 he with he | he
        · exact hentries e (by rw [hstage]; exact he)
        · obtain rfl := List.mem_singleton.1 he
          exact hrings ring hring _ (AckRing.localID_of_lookup he').1
  | fresh ring item rest acks hnone =>
      exact ht.goto hk (by simp [hstage, Stage.ring?]) (by simp [hstage, Stage.acks]) (by simp)
  | decided ring item rest acks status log hlog =>
      obtain ⟨hv, hmem⟩ := ht.processed hΦ (by simp) hlog
      refine hv.goto hk (by simp [hstage, Stage.ring?]) (by simp [hstage, Stage.acks]) ?_
      intro ring' item' status' rest' acks' heq
      obtain ⟨-, rfl, rfl, -, -⟩ := Stage.recording.inj heq
      exact hmem
  | unacked ring item rest acks log hlog =>
      obtain ⟨hv, -⟩ := ht.processed hΦ (by simp) hlog
      exact hv.goto hk (by simp [hstage, Stage.ring?]) (by simp [hstage, Stage.acks]) (by simp)
  | aborted ring item rest acks log hlog => exact (ht.processed hΦ (by simp) hlog).1.end
  | recorded ring item status rest acks st hcur =>
      have hdecided := ht.decided k h hk ring item status rest acks hstage
      obtain ⟨hlive, hfile, -⟩ := hΦ.recorded k w.log (h.entry item status) hdecided rfl
      have hnote := ht.note hΦ (.recorded (h.entry item status)) (by simp)
      have hcurrent : ∀ e ∈ (recordAck (h.entry item status) st).acks.entries,
          Φ (.recorded (h.entry item status) :: w.log) e := by
        intro e he
        rcases AckRing.mem_record he with he | rfl
        · exact hΦ.mono _ _ e (ht.current st hcur e he)
        · exact hlive
      have hv := hnote.withStore ⟨recordAck (h.entry item status) st,
          some (recordAck (h.entry item status) st)⟩
        (fun e he => hΦ.file _ e (hcurrent e he))
        (fun st' heq e he => hcurrent e (by obtain rfl := Option.some.inj heq; exact he))
      refine hv.setStage (fun ring' hring' e he => ?_) (fun e he => ?_) (by simp)
      · obtain rfl := Option.some.inj hring'
        rcases AckRing.mem_record he with he | rfl
        · exact hΦ.mono _ _ e (hrings ring (by rw [hstage]; rfl) e he)
        · exact hlive
      · rcases List.mem_append.1 he with he | he
        · exact hΦ.mono _ _ e (hentries e (by rw [hstage]; exact he))
        · obtain rfl := List.mem_singleton.1 he
          exact hlive
  | replaced ring item status rest acks st hcur =>
      have hdecided := ht.decided k h hk ring item status rest acks hstage
      obtain ⟨-, -, hfile⟩ := hΦ.recorded k w.log (h.entry item status) hdecided rfl
      have hnote := ht.note hΦ (.replaced (h.entry item status)) (by simp)
      have hv := hnote.withStore { w.store with file := recordAck (h.entry item status) st }
        (fun e he => by
          rcases AckRing.mem_record he with he | rfl
          · exact hΦ.file _ e (hΦ.mono _ _ e (ht.current st hcur e he))
          · exact hfile)
        hnote.current
      exact hv.goto hk (by simp [hstage, Stage.ring?]) (by simp [hstage, Stage.acks]) (by simp)
  | unrecorded ring item status rest acks =>
      exact ht.goto hk (by simp [hstage, Stage.ring?]) (by simp [hstage, Stage.acks]) (by simp)
  | responded acks st st' hcur hacks =>
      have hcurrent : ∀ e ∈ st'.acks.entries, Φ w.log e := by
        rw [hacks]
        exact ht.current st hcur
      have hv : Traced Φ Ψ { w with store := ⟨st', some st'⟩ } :=
        ht.withStore _ (fun e he => hΦ.file _ e (hcurrent e he))
          fun s heq e he => hcurrent e (by obtain rfl := Option.some.inj heq; exact he)
      refine Traced.end ?_
      refine ⟨fun e he => hΦ.mono_file _ _ e (hv.file e he),
        fun s hs e he => hΦ.mono _ _ e (hv.current s hs e he),
        fun j h' hj ring hring e he => hΦ.mono _ _ e (hv.ring j h' hj ring hring e he),
        fun j h' hj e he => hΦ.mono _ _ e (hv.acks j h' hj e he),
        fun j h' hj ring item status rest acks hs =>
          List.mem_cons_of_mem _ (hv.decided j h' hj ring item status rest acks hs), ?_⟩
      intro newer j items as older hlog e he
      rcases append_note_cases hlog with ⟨heq, rfl⟩ | ⟨newer', -, hlog'⟩
      · obtain ⟨-, -, rfl⟩ := Note.responded.inj heq
        exact hentries e (by rw [hstage]; exact he)
      · exact hv.answered newer' j items as older hlog' e he
  | uncommitted acks st st' hcur hacks =>
      refine (ht.withStore { w.store with file := st' } (fun e he => ?_) ht.current).end
      exact hΦ.file _ e (ht.current st hcur e (hacks ▸ he))

variable [Graphemes]

/-- Tracing is an invariant of every step. -/
theorem step_traced (hΦ : Traceable Φ Ψ) (ht : Traced Φ Ψ w) {act : Act}
    (hstep : step w act = some w') : Traced Φ Ψ w' := by
  cases postStep_cases hstep with
  | opened hcur =>
      have hnote := ht.note hΦ (.opened w.store.file.acks) (by simp)
      refine hnote.withStore w.store.opened hnote.file fun st heq e he => ?_
      obtain rfl := Option.some.inj heq
      exact hΦ.opened _ _ e he (ht.file e he)
  | stopped =>
      exact { file := ht.file, answered := ht.answered, current := by simp, ring := by simp,
              acks := by simp, decided := by simp }
  | contacts t =>
      exact ⟨ht.file, ht.current, ht.ring, ht.acks, ht.decided, ht.answered⟩
  | updated s o store ok hupd =>
      obtain ⟨st, hcur, ⟨-, -, rfl⟩ | ⟨-, -, rfl⟩ | ⟨-, -, rfl⟩⟩ := Store.update_cases hupd
      · refine ht.withStore _ (fun e he => hΦ.file _ e (ht.current st hcur e he)) ?_
        intro st' heq e he
        obtain rfl := Option.some.inj heq
        exact ht.current st hcur e he
      · exact ht.withStore _ ht.file ht.current
      · exact ht.withStore _ (fun e he => hΦ.file _ e (ht.current st hcur e he)) ht.current
  | requested j items maxLetterChars now pututuCounterSeen hnone =>
      refine (ht.note hΦ (.requested j items) (by simp)).setHandler ?_ ?_ ?_
      · rintro h' ring heq hring
        obtain rfl := Option.some.inj heq
        cases hring
      · rintro h' heq e he
        obtain rfl := Option.some.inj heq
        cases he
      · rintro h' ring item status rest acks heq hs
        obtain rfl := Option.some.inj heq
        cases hs
  | handled j io h w' hj hstep => exact (handleStep_cases hstep).traced hΦ ht hj rfl

end Traced

/-- The log says that an ack was written durably: its own write returned nil, or a process found it
in the file when it started. -/
def Persisted (log : List Note) (e : AckEntry) : Prop :=
  .recorded e ∈ log ∨ ∃ ring, .opened ring ∈ log ∧ e ∈ ring.entries

lemma traceable_persisted : Traceable Persisted fun _ _ => True where
  mono := fun _ _ _ he => he.imp (List.mem_cons_of_mem _) fun ⟨ring, hring, hmem⟩ =>
    ⟨ring, List.mem_cons_of_mem _ hring, hmem⟩
  mono_file := fun _ _ _ h => h
  file := fun _ _ _ => trivial
  opened := fun ring _ _ he _ => Or.inr ⟨ring, List.mem_cons_self .., he⟩
  recorded := fun _ _ _ _ _ => ⟨Or.inl (List.mem_cons_self ..), trivial, trivial⟩

/-- An entry was in the file when the run began, or the log says that the processing of its letter
ended in its status. -/
def Decided (initial : AckRing) (log : List Note) (e : AckEntry) : Prop :=
  e ∈ initial.entries ∨
    ∃ k, .decided k e.item e.status ∈ log ∧ e.localID = e.item.letter.localID

lemma Decided.mono {initial : AckRing} {log : List Note} (n : Note)
    (he : Decided initial log e) : Decided initial (n :: log) e :=
  he.imp_right fun ⟨k, hk, hid⟩ => ⟨k, List.mem_cons_of_mem _ hk, hid⟩

lemma traceable_decided (initial : AckRing) :
    Traceable (Decided initial) (Decided initial) where
  mono := fun n _ _ he => he.mono n
  mono_file := fun n _ _ he => he.mono n
  file := fun _ _ he => he
  opened := fun _ _ _ _ he => he.mono _
  recorded := fun k log e hk hid =>
    have he : Decided initial log e := Or.inr ⟨k, hk, hid⟩
    ⟨he.mono _, he.mono _, he.mono _⟩

/-! ## Requests that do not overlap -/

/-- A request starts only when no other is in progress. -/
def Alone (w : World) : Act → Prop
  | .request .. => ∀ k, w.handlers k = none
  | _ => True

/-- At most one handler is in progress; its copy of the ring is the published ring, and the letter
it has in hand is not in it. -/
structure Sequential (w : World) : Prop where
  one : ∀ j k, w.handlers j ≠ none → w.handlers k ≠ none → j = k
  ring : ∀ k h, w.handlers k = some h → ∀ ring, h.stage.ring? = some ring →
    w.store.current.map State.acks = some ring
  inHand : ∀ k h, w.handlers k = some h → ∀ ring item rest acks,
    (h.stage = .sending ring item rest acks ∨
      ∃ status, h.stage = .recording ring item status rest acks) →
      ring.lookup item.letter.localID = none

lemma Sequential.end (hs : Sequential w) (hk : w.handlers k = some h)
    (hv : v.handlers = w.handlers) : Sequential (v.setHandler k none) := by
  have hnone : ∀ j, (v.setHandler k none).handlers j = none := by
    intro j
    by_cases hj : j = k
    · simp [hj]
    · by_contra hsome
      simp only [World.setHandler_handlers, hj, if_false, hv] at hsome
      exact hj (hs.one j k hsome (by simp [hk]))
  have hnever : ∀ j h', (v.setHandler k none).handlers j ≠ some h' := by
    intro j h'
    rw [hnone j]
    simp
  exact ⟨fun j i hj => absurd (hnone j) hj, fun j h' hj => absurd hj (hnever j h'),
    fun j h' hj => absurd hj (hnever j h')⟩

lemma Sequential.setStage (hs : Sequential w) (hk : w.handlers k = some h)
    (hv : v.handlers = w.handlers) (stage : Stage)
    (hring : ∀ ring, stage.ring? = some ring → v.store.current.map State.acks = some ring)
    (hinHand : ∀ ring item rest acks, (stage = .sending ring item rest acks ∨
      ∃ status, stage = .recording ring item status rest acks) →
      ring.lookup item.letter.localID = none) :
    Sequential (v.setHandler k (some { h with stage := stage })) := by
  have honly : ∀ j, (v.setHandler k (some { h with stage := stage })).handlers j ≠ none →
      j = k := by
    intro j hj
    by_contra hjk
    simp only [World.setHandler_handlers, hjk, if_false, hv] at hj
    exact hjk (hs.one j k hj (by simp [hk]))
  have hstage : ∀ j h', (v.setHandler k (some { h with stage := stage })).handlers j = some h' →
      h'.stage = stage := by
    intro j h' hj
    have hjk : j = k := honly j (by rw [hj]; simp)
    subst hjk
    have heq : some { h with stage := stage } = some h' := by simpa using hj
    obtain rfl := Option.some.inj heq
    rfl
  refine ⟨fun i j hi hj => (honly i hi).trans (honly j hj).symm, fun j h' hj => ?_,
    fun j h' hj => ?_⟩
  · rw [hstage j h' hj]
    exact hring
  · rw [hstage j h' hj]
    exact hinHand

lemma HandleStep.sequential (hs : Sequential w) (hk : w.handlers k = some h) {stage : Stage}
    (hstage : h.stage = stage) (hstep : HandleStep w k h io stage w') : Sequential w' := by
  have hring := hs.ring k h hk
  have hinHand := hs.inHand k h hk
  rw [hstage] at hring hinHand
  cases hstep with
  | ended => exact hs.end hk rfl
  | empty => exact hs.setStage hk rfl (.committing []) (by simp [Stage.ring?]) (by simp)
  | snapshot st hcur =>
      exact hs.setStage hk rfl (.looking st.acks h.items []) (by simp [Stage.ring?, hcur]) (by simp)
  | finished ring acks =>
      exact hs.setStage hk rfl (.committing acks) (by simp [Stage.ring?]) (by simp)
  | replayed ring item rest acks e he =>
      exact hs.setStage hk rfl (.looking ring rest (acks ++ [e])) hring (by simp)
  | fresh ring item rest acks hnone =>
      refine hs.setStage hk rfl (.sending ring item rest acks) hring ?_
      intro ring' item' rest' acks' heq
      rcases heq with heq | ⟨status, heq⟩
      · obtain ⟨rfl, rfl, -, -⟩ := Stage.sending.inj heq
        exact hnone
      · cases heq
  | decided ring item rest acks status log hlog =>
      refine hs.setStage (v := { w with log := log }) hk rfl
        (.recording ring item status rest acks) hring fun ring' item' rest' acks' heq => ?_
      rcases heq with heq | ⟨status, heq⟩
      · cases heq
      · obtain ⟨rfl, rfl, -, -, -⟩ := Stage.recording.inj heq
        exact hinHand _ _ _ _ (Or.inl rfl)
  | unacked ring item rest acks log hlog =>
      exact hs.setStage (v := { w with log := log }) hk rfl (.looking ring rest acks) hring
        (by simp)
  | aborted ring item rest acks log hlog => exact hs.end (v := { w with log := log }) hk rfl
  | recorded ring item status rest acks st hcur =>
      let u : World := { w with store := ⟨recordAck (h.entry item status) st,
        some (recordAck (h.entry item status) st)⟩ }
      refine hs.setStage (v := u.note (.recorded (h.entry item status))) hk rfl
        (.looking (ring.record (h.entry item status)) rest (acks ++ [h.entry item status]))
        (fun ring' hring' => ?_) (by simp)
      obtain rfl := Option.some.inj hring'
      have hacks := hring ring rfl
      rw [hcur] at hacks
      simp only [Option.map_some, Option.some.injEq] at hacks
      show some (st.acks.record (h.entry item status)) = some (ring.record (h.entry item status))
      rw [hacks]
  | replaced ring item status rest acks st hcur =>
      let u : World := { w with store.file := recordAck (h.entry item status) st }
      exact hs.setStage (v := u.note (.replaced (h.entry item status))) hk rfl
        (.looking ring rest acks) hring (by simp)
  | unrecorded ring item status rest acks =>
      exact hs.setStage hk rfl (.looking ring rest acks) hring (by simp)
  | responded acks st st' hcur hacks =>
      exact hs.end (v := { w with store := ⟨st', some st'⟩ }.note (.responded k h.items acks)) hk
        rfl
  | uncommitted acks st st' hcur hacks =>
      exact hs.end (v := { w with store := { w.store with file := st' } }) hk rfl

section Steps

variable [Graphemes]

lemma step_sequential (hs : Sequential w) {act : Act} (halone : Alone w act)
    (hstep : step w act = some w') : Sequential w' := by
  cases postStep_cases hstep with
  | opened hcur =>
      refine ⟨hs.one, fun j h' hj ring hring => ?_, hs.inHand⟩
      -- No handler has a ring while no process runs.
      have hpublished := hs.ring j h' hj ring hring
      simp [hcur] at hpublished
  | stopped =>
      exact ⟨by simp, by simp, by simp⟩
  | contacts t =>
      exact ⟨hs.one, hs.ring, hs.inHand⟩
  | updated s o store ok hupd =>
      have hacks : store.current.map State.acks = w.store.current.map State.acks := by
        obtain ⟨st, hcur, ⟨-, -, rfl⟩ | ⟨-, -, rfl⟩ | ⟨-, -, rfl⟩⟩ := Store.update_cases hupd
        · simp [hcur]
        · rfl
        · rfl
      exact ⟨hs.one, fun j h' hj ring hring => hacks.trans (hs.ring j h' hj ring hring), hs.inHand⟩
  | requested k items maxLetterChars now pututuCounterSeen hnone =>
      have hstage : ∀ j h', ((w.note (.requested k items)).setHandler k
          (some ⟨items, maxLetterChars, now, pututuCounterSeen, .received⟩)).handlers j =
            some h' →
          j = k ∧ h'.stage = .received := by
        intro j h' hj
        by_cases hjk : j = k
        · simp only [World.setHandler_handlers, hjk, if_true, Option.some.injEq] at hj
          exact ⟨hjk, hj ▸ rfl⟩
        · simp [hjk, halone j] at hj
      refine ⟨fun i j hi hj => ?_, fun j h' hj ring hring => ?_, fun j h' hj => ?_⟩
      · obtain ⟨hi', hi⟩ := Option.ne_none_iff_exists'.1 hi
        obtain ⟨hj', hj⟩ := Option.ne_none_iff_exists'.1 hj
        exact (hstage i hi' hi).1.trans (hstage j hj' hj).1.symm
      · rw [(hstage j h' hj).2] at hring
        cases hring
      · rw [(hstage j h' hj).2]
        simp
  | handled k io h w' hk hstep => exact (handleStep_cases hstep).sequential hs hk rfl

end Steps

/-! ## One durable ack, from then on -/

/-- The file, and the published ring if there is one, answer for a local id with this entry, and at
most `d` entries are newer. -/
def Durable (x : String) (e : AckEntry) (d : ℕ) (w : World) : Prop :=
  w.store.file.acks.Holds x e d ∧ ∀ st, w.store.current = some st → st.acks.Holds x e d

/-- Whether an ack reached the file. -/
def Note.isWrite : Note → Bool
  | .recorded _ | .replaced _ => true
  | _ => false

/-- How many acks reached the file. -/
def writes (log : List Note) : ℕ := log.countP Note.isWrite

/-- The letters a handler has not dealt with. -/
def Handler.rest (h : Handler) : List OutboundItem :=
  match h.stage with
  | .received => h.items
  | .looking _ rest _ => rest
  | .sending _ item rest _ | .recording _ item _ rest _ => item :: rest
  | .committing _ => []

/-- The acks for some letters: with `e` among them if one of the letters has the local id, and with
nothing else for it. -/
structure Answers (x : String) (e : AckEntry) (items : List OutboundItem) (acks : List AckEntry) :
    Prop where
  given : ∀ item ∈ items, item.letter.localID = x → e ∈ acks
  only : ∀ e' ∈ acks, e'.localID = x → e' = e

/-- A handler has acked what it has dealt with. -/
def Serves (x : String) (e : AckEntry) (h : Handler) : Prop :=
  ∃ done, h.items = done ++ h.rest ∧ Answers x e done h.stage.acks

/-- What was logged since an ack became durable. -/
structure Settled (x : String) (e : AckEntry) (since : List Note) (w : World) : Prop where
  serves : ∀ k items, .requested k items ∈ since →
    ∀ j h, w.handlers j = some h → Serves x e h
  silent : ∀ k item accepted, .submitted k item accepted ∈ since → item.letter.localID ≠ x
  answered : ∀ newer k items as mid, since = newer ++ .responded k items as :: mid →
    ∀ j js, .requested j js ∈ mid → Answers x e items as

section Settled

variable {x : String} {d : ℕ} {since : List Note} {item : OutboundItem}

lemma Answers.nil : Answers x e [] [] := ⟨by simp, by simp⟩

lemma Answers.skip {items : List OutboundItem} {as : List AckEntry} (ha : Answers x e items as)
    (hne : item.letter.localID ≠ x) : Answers x e (items ++ [item]) as where
  only := ha.only
  given := by
    intro item' hmem hid
    rcases List.mem_append.1 hmem with hmem | hmem
    · exact ha.given item' hmem hid
    · rw [List.mem_singleton.1 hmem] at hid
      exact absurd hid hne

lemma Answers.ack {items : List OutboundItem} {as : List AckEntry} (ha : Answers x e items as)
    {e' : AckEntry} (hid : e'.localID = item.letter.localID)
    (he : item.letter.localID = x → e' = e) : Answers x e (items ++ [item]) (as ++ [e']) where
  given := by
    intro item' hmem hx
    rcases List.mem_append.1 hmem with hmem | hmem
    · exact List.mem_append_left _ (ha.given item' hmem hx)
    · rw [List.mem_singleton.1 hmem] at hx
      rw [he hx]
      exact List.mem_append_right _ (List.mem_singleton_self _)
  only := by
    intro e'' hmem hx
    rcases List.mem_append.1 hmem with hmem | hmem
    · exact ha.only e'' hmem hx
    · rw [List.mem_singleton.1 hmem] at hx ⊢
      exact he (hid ▸ hx)

lemma Settled.setHandler (hs : Settled x e since v) {s : Option Handler}
    (hserve : ∀ j items, .requested j items ∈ since → ∀ h, s = some h → Serves x e h) :
    Settled x e since (v.setHandler k s) where
  silent := hs.silent
  answered := hs.answered
  serves := by
    intro j items hreq i h hi
    by_cases hik : i = k
    · exact hserve j items hreq h (by simpa [hik] using hi)
    · exact hs.serves j items hreq i h (by simpa [hik] using hi)

lemma Settled.of_handlers (hs : Settled x e since w) (hv : v.handlers = w.handlers) :
    Settled x e since v :=
  ⟨fun j items hreq => hv ▸ hs.serves j items hreq, hs.silent, hs.answered⟩

lemma Settled.end (hs : Settled x e since w) (hv : v.handlers = w.handlers) :
    Settled x e since (v.setHandler k none) :=
  (hs.of_handlers hv).setHandler (by simp)

/-- A handler that goes on. -/
lemma Settled.goto (hs : Settled x e since w) (hk : w.handlers k = some h)
    (hv : v.handlers = w.handlers) (stage : Stage)
    (hserve : Serves x e h → Serves x e { h with stage := stage }) :
    Settled x e since (v.setHandler k (some { h with stage := stage })) := by
  refine (hs.of_handlers hv).setHandler fun j items hreq h' heq => ?_
  obtain rfl := Option.some.inj heq
  exact hserve (hs.serves j items hreq k h hk)

lemma Settled.note (hs : Settled x e since w) {n : Note} (hreq : ∀ k items, n ≠ .requested k items)
    (hsub : ∀ k item accepted, n = .submitted k item accepted → item.letter.localID ≠ x)
    (hresp : ∀ k items as, n = .responded k items as → ∀ j js, .requested j js ∈ since →
      Answers x e items as) : Settled x e (n :: since) w where
  serves := by
    intro k items hmem
    rcases List.mem_cons.1 hmem with heq | hmem
    · exact absurd heq.symm (hreq k items)
    · exact hs.serves k items hmem
  silent := by
    intro k item accepted hmem
    rcases List.mem_cons.1 hmem with heq | hmem
    · exact hsub k item accepted heq.symm
    · exact hs.silent k item accepted hmem
  answered := by
    intro newer k items as mid hsplit j js hj
    rcases append_note_cases hsplit with ⟨heq, rfl⟩ | ⟨newer', -, hsplit'⟩
    · exact hresp k items as heq j js hj
    · exact hs.answered newer' k items as mid hsplit' j js hj

lemma Settled.processed (hs : Settled x e since w) {n : Note} {log : List Note}
    (hne : item.letter.localID ≠ x) (hlog : Processed k item w n log)
    (hn : (∃ status, n = .decided k item status) ∨ n = .failed k item) :
    ∃ new, log = new ++ w.log ∧ writes new = 0 ∧ Settled x e (new ++ since) w := by
  have hplain : (∀ k items, n ≠ .requested k items) ∧ (∀ k item accepted,
      n ≠ .submitted k item accepted) ∧ (∀ k items as, n ≠ .responded k items as) ∧
      n.isWrite = false := by
    rcases hn with ⟨status, rfl⟩ | rfl
    · simp [Note.isWrite]
    · simp [Note.isWrite]
  obtain ⟨hreq, hsub, hresp, hwrite⟩ := hplain
  rcases hlog with ⟨rfl, -⟩ | ⟨accepted, rfl, -⟩
  · refine ⟨[n], rfl, by simp [writes, hwrite], hs.note hreq ?_ ?_⟩
    · exact fun k item accepted heq => absurd heq (hsub k item accepted)
    · exact fun k items as heq => absurd heq (hresp k items as)
  · have hmid : Settled x e (.submitted k item accepted :: since) w := by
      refine hs.note (by simp) (fun j item' accepted' heq => ?_) (by simp)
      obtain ⟨-, rfl, -⟩ := Note.submitted.inj heq
      exact hne
    have hplain : Note.isWrite (.submitted k item accepted) = false := rfl
    refine ⟨[n, .submitted k item accepted], rfl, by simp [writes, hwrite, hplain], ?_⟩
    refine hmid.note hreq ?_ ?_
    · exact fun k item accepted heq => absurd heq (hsub k item accepted)
    · exact fun k items as heq => absurd heq (hresp k items as)

lemma Durable.of_store (hd : Durable x e d w) (hv : v.store = w.store) : Durable x e d v := by
  rw [Durable, hv]
  exact hd

/-- The letter a handler has in hand is not the one whose ack is durable. -/
lemma Durable.ne_inHand (hd : Durable x e d w) (hs : Sequential w) (hk : w.handlers k = some h)
    {ring : AckRing} {rest : List OutboundItem} {as : List AckEntry}
    (hstage : h.stage = .sending ring item rest as ∨
      ∃ status, h.stage = .recording ring item status rest as) : item.letter.localID ≠ x := by
  intro hid
  have hring : h.stage.ring? = some ring := by
    rcases hstage with hstage | ⟨status, hstage⟩ <;> rw [hstage] <;> rfl
  obtain ⟨st, hcur, rfl⟩ := Option.map_eq_some_iff.1 (hs.ring k h hk ring hring)
  have hnone := hs.inHand k h hk _ item rest as hstage
  rw [hid, (hd.2 st hcur).lookup_eq] at hnone
  cases hnone

lemma Durable.lookup_eq (hd : Durable x e d w) (hs : Sequential w) (hk : w.handlers k = some h)
    {ring : AckRing} (hring : h.stage.ring? = some ring) : ring.lookup x = some e := by
  obtain ⟨st, hcur, rfl⟩ := Option.map_eq_some_iff.1 (hs.ring k h hk ring hring)
  exact (hd.2 st hcur).lookup_eq

/-- A handler that has another letter in hand records it above the ack, in the file at least. -/
lemma Durable.recorded (hd : Durable x e d w) (hne : item.letter.localID ≠ x)
    (hbound : d + 1 < ackRingSize) {st : State} (hcur : w.store.current = some st)
    (status : AckStatus) :
    (recordAck (h.entry item status) st).acks.Holds x e (d + 1) :=
  (hd.2 st hcur).record hne hbound

/-- **The step lemma of replay.**  A step of a handler sends no letter whose ack is durable, and a
write costs the ack at most one place in the ring. -/
lemma HandleStep.settled (hseq : Sequential w) (hd : Durable x e d w) (hs : Settled x e since w)
    (hk : w.handlers k = some h) {stage : Stage} (hstage : h.stage = stage)
    (hstep : HandleStep w k h io stage w') :
    ∃ new, w'.log = new ++ w.log ∧ Settled x e (new ++ since) w' ∧
      (d + writes new < ackRingSize → Durable x e (d + writes new) w') := by
  have same : ∀ {v : World} {s : Option Handler}, v.store = w.store →
      Durable x e (d + writes []) (v.setHandler k s) := fun hv => hd.of_store hv
  cases hstep with
  | ended => exact ⟨[], rfl, hs.end (by rfl), fun _ => same rfl⟩
  | empty hitems =>
      refine ⟨[], rfl, hs.goto hk (by rfl) _ fun _ => ?_, fun _ => same rfl⟩
      exact ⟨[], by simp [Handler.rest, hitems], Answers.nil⟩
  | snapshot st hcur =>
      refine ⟨[], rfl, hs.goto hk (by rfl) _ fun _ => ?_, fun _ => same rfl⟩
      exact ⟨[], by simp [Handler.rest], Answers.nil⟩
  | finished ring acks =>
      refine ⟨[], rfl, hs.goto hk (by rfl) _ ?_, fun _ => same rfl⟩
      rintro ⟨done, hitems, ha⟩
      exact ⟨done, by simpa [Handler.rest, hstage] using hitems,
        by simpa [Stage.acks, hstage] using ha⟩
  | replayed ring item rest acks e' he' =>
      refine ⟨[], rfl, hs.goto hk (by rfl) _ ?_, fun _ => same rfl⟩
      rintro ⟨done, hitems, ha⟩
      have hring : h.stage.ring? = some ring := by rw [hstage]; rfl
      have hlook := hd.lookup_eq hseq hk hring
      refine ⟨done ++ [item], by simpa [Handler.rest, hstage] using hitems, ?_⟩
      have ha' : Answers x e done acks := by simpa [Stage.acks, hstage] using ha
      refine ha'.ack (AckRing.localID_of_lookup he').2 fun hid => ?_
      rw [hid, hlook] at he'
      exact (Option.some.inj he').symm
  | fresh ring item rest acks hnone =>
      refine ⟨[], rfl, hs.goto hk (by rfl) _ ?_, fun _ => same rfl⟩
      rintro ⟨done, hitems, ha⟩
      exact ⟨done, by simpa [Handler.rest, hstage] using hitems,
        by simpa [Stage.acks, hstage] using ha⟩
  | decided ring item rest acks status log hlog =>
      have hne := hd.ne_inHand hseq hk (Or.inl hstage)
      obtain ⟨new, rfl, hzero, hnew⟩ := hs.processed hne hlog (Or.inl ⟨status, rfl⟩)
      refine ⟨new, rfl, ?_, fun _ => hzero ▸ same rfl⟩
      refine hnew.goto hk (by rfl) _ ?_
      rintro ⟨done, hitems, ha⟩
      exact ⟨done, by simpa [Handler.rest, hstage] using hitems,
        by simpa [Stage.acks, hstage] using ha⟩
  | unacked ring item rest acks log hlog =>
      have hne := hd.ne_inHand hseq hk (Or.inl hstage)
      obtain ⟨new, rfl, hzero, hnew⟩ := hs.processed hne hlog (Or.inr rfl)
      refine ⟨new, rfl, ?_, fun _ => hzero ▸ same rfl⟩
      refine hnew.goto hk (by rfl) _ ?_
      rintro ⟨done, hitems, ha⟩
      have ha' : Answers x e done acks := by simpa [Stage.acks, hstage] using ha
      exact ⟨done ++ [item], by simpa [Handler.rest, hstage] using hitems, ha'.skip hne⟩
  | aborted ring item rest acks log hlog =>
      have hne := hd.ne_inHand hseq hk (Or.inl hstage)
      obtain ⟨new, rfl, hzero, hnew⟩ := hs.processed hne hlog (Or.inr rfl)
      refine ⟨new, rfl, ?_, fun _ => hzero ▸ same rfl⟩
      exact hnew.end (by rfl)
  | recorded ring item status rest acks st hcur =>
      have hne := hd.ne_inHand hseq hk (Or.inr ⟨status, hstage⟩)
      have hnote : Settled x e (.recorded (h.entry item status) :: since) w :=
        hs.note (by simp) (by simp) (by simp)
      refine ⟨[.recorded (h.entry item status)], rfl, ?_, fun hbound => ?_⟩
      · refine hnote.goto hk (by rfl) _ ?_
        rintro ⟨done, hitems, ha⟩
        have ha' : Answers x e done acks := by simpa [Stage.acks, hstage] using ha
        exact ⟨done ++ [item], by simpa [Handler.rest, hstage] using hitems,
          ha'.ack rfl fun hid => absurd hid hne⟩
      · have hheld := hd.recorded hne hbound hcur status (h := h)
        exact ⟨hheld, fun st' heq => by obtain rfl := Option.some.inj heq; exact hheld⟩
  | replaced ring item status rest acks st hcur =>
      have hne := hd.ne_inHand hseq hk (Or.inr ⟨status, hstage⟩)
      have hnote : Settled x e (.replaced (h.entry item status) :: since) w :=
        hs.note (by simp) (by simp) (by simp)
      refine ⟨[.replaced (h.entry item status)], rfl, ?_, fun hbound => ?_⟩
      · refine hnote.goto hk (by rfl) _ ?_
        rintro ⟨done, hitems, ha⟩
        have ha' : Answers x e done acks := by simpa [Stage.acks, hstage] using ha
        exact ⟨done ++ [item], by simpa [Handler.rest, hstage] using hitems, ha'.skip hne⟩
      · exact ⟨hd.recorded hne hbound hcur status, fun st' heq => (hd.2 st' heq).mono (by omega)⟩
  | unrecorded ring item status rest acks =>
      have hne := hd.ne_inHand hseq hk (Or.inr ⟨status, hstage⟩)
      refine ⟨[], rfl, hs.goto hk (by rfl) _ ?_, fun _ => same rfl⟩
      rintro ⟨done, hitems, ha⟩
      have ha' : Answers x e done acks := by simpa [Stage.acks, hstage] using ha
      exact ⟨done ++ [item], by simpa [Handler.rest, hstage] using hitems, ha'.skip hne⟩
  | responded acks st st' hcur hacks =>
      have hnote : Settled x e (.responded k h.items acks :: since) w := by
        refine hs.note (by simp) (by simp) ?_
        intro k' items as heq j js hj
        obtain ⟨-, rfl, rfl⟩ := Note.responded.inj heq
        obtain ⟨done, hitems, ha⟩ := hs.serves j js hj k h hk
        have hdone : h.items = done := by simpa [Handler.rest, hstage] using hitems
        rw [hdone]
        simpa [Stage.acks, hstage] using ha
      refine ⟨[.responded k h.items acks], rfl, hnote.end (by rfl), fun _ => ?_⟩
      · have hheld : st'.acks.Holds x e d := hacks ▸ hd.2 st hcur
        exact ⟨hheld, fun s heq => by obtain rfl := Option.some.inj heq; exact hheld⟩
  | uncommitted acks st st' hcur hacks =>
      refine ⟨[], rfl, hs.end (by rfl), fun _ => ?_⟩
      exact ⟨hacks ▸ hd.2 st hcur, hd.2⟩

lemma settled_nil (x : String) (e : AckEntry) (w : World) : Settled x e [] w :=
  ⟨by simp, by simp, fun newer k items as mid hsplit => by simp at hsplit⟩

variable [Graphemes]

lemma step_settled (hseq : Sequential w) (hd : Durable x e d w) (hs : Settled x e since w)
    {act : Act} (halone : Alone w act) (hstep : step w act = some w') :
    ∃ new, w'.log = new ++ w.log ∧ Settled x e (new ++ since) w' ∧
      (d + writes new < ackRingSize → Durable x e (d + writes new) w') := by
  cases postStep_cases hstep with
  | opened hcur =>
      have hnote : Settled x e (.opened w.store.file.acks :: since) w :=
        hs.note (by simp) (by simp) (by simp)
      refine ⟨[.opened w.store.file.acks], rfl, hnote.of_handlers rfl, fun _ => ⟨hd.1, ?_⟩⟩
      intro st heq
      obtain rfl := Option.some.inj heq
      exact hd.1
  | stopped =>
      exact ⟨[], rfl, ⟨by simp, hs.silent, hs.answered⟩, fun _ => ⟨hd.1, by simp⟩⟩
  | contacts t =>
      exact ⟨[], rfl, hs.of_handlers rfl, fun _ => hd⟩
  | updated s o store ok hupd =>
      refine ⟨[], rfl, hs.of_handlers rfl, fun _ => ?_⟩
      obtain ⟨st, hcur, ⟨-, -, rfl⟩ | ⟨-, -, rfl⟩ | ⟨-, -, rfl⟩⟩ := Store.update_cases hupd
      · refine ⟨hd.2 st hcur, fun st' heq => ?_⟩
        obtain rfl := Option.some.inj heq
        exact hd.2 st hcur
      · exact hd
      · exact ⟨hd.2 st hcur, hd.2⟩
  | requested k items maxLetterChars now pututuCounterSeen hnone =>
      refine ⟨[.requested k items], rfl, ⟨fun _ _ _ j h' hj => ?_, ?_, ?_⟩, fun _ => hd⟩
      · -- The request is the only one in progress, and nothing of it is dealt with.
        by_cases hjk : j = k
        · simp only [World.setHandler_handlers, hjk, if_true, Option.some.injEq] at hj
          obtain rfl := hj
          exact ⟨[], rfl, Answers.nil⟩
        · simp [hjk, halone j] at hj
      · intro j item accepted hmem
        exact hs.silent j item accepted (by simpa using hmem)
      · intro newer j js as mid hsplit
        rcases append_note_cases hsplit with ⟨heq, -⟩ | ⟨newer', -, hsplit'⟩
        · cases heq
        · exact hs.answered newer' j js as mid hsplit'
  | handled k io h w' hk hstep => exact (handleStep_cases hstep).settled hseq hd hs hk rfl

/-- With this note an ack is durable: it was written, or found in the file at a start, with at most
`d` newer ones above it. -/
inductive Origin (x : String) (e : AckEntry) (d : ℕ) : Note → Prop
  | recorded (hid : e.localID = x) : Origin x e d (.recorded e)
  | opened (ring : AckRing) (hheld : ring.Holds x e d) : Origin x e d (.opened ring)

omit [Graphemes] in
lemma Processed.no_origin {n : Note} {log : List Note} (hlog : Processed k item w n log)
    (hn : ¬ Origin x e d n) : ∃ new, log = new ++ w.log ∧ ∀ m ∈ new, ¬ Origin x e d m := by
  rcases hlog with ⟨rfl, -⟩ | ⟨accepted, rfl, -⟩
  · exact ⟨[n], rfl, by simpa using hn⟩
  · refine ⟨[n, .submitted k item accepted], rfl, fun m hm => ?_⟩
    rcases List.mem_cons.1 hm with rfl | hm
    · exact hn
    · rw [List.mem_singleton.1 hm]
      rintro ⟨⟩

/-- A step after which an ack is newly durable logs nothing else. -/
lemma step_origin (x : String) (e : AckEntry) (d : ℕ) {act : Act} (hstep : step w act = some w') :
    ∃ new, w'.log = new ++ w.log ∧
      ∀ n ∈ new, Origin x e d n → new = [n] ∧ Durable x e d w' := by
  have plain : ∀ {new : List Note}, (∀ n ∈ new, ¬ Origin x e d n) →
      ∀ n ∈ new, Origin x e d n → new = [n] ∧ Durable x e d w' :=
    fun hnew n hn ho => absurd ho (hnew n hn)
  cases postStep_cases hstep with
  | opened hcur =>
      refine ⟨[.opened w.store.file.acks], rfl, fun n hn ho => ?_⟩
      obtain rfl := List.mem_singleton.1 hn
      cases ho with
      | opened ring hheld =>
          refine ⟨rfl, hheld, fun st heq => ?_⟩
          obtain rfl := Option.some.inj heq
          exact hheld
  | stopped | contacts | updated => exact ⟨[], rfl, by simp⟩
  | requested k items maxLetterChars now pututuCounterSeen hnone =>
      refine ⟨[.requested k items], rfl, plain fun n hn ho => ?_⟩
      rw [List.mem_singleton.1 hn] at ho
      cases ho
  | handled k io h w' hk hstep =>
      have hcases := handleStep_cases hstep
      generalize h.stage = stage at hcases
      cases hcases with
      | recorded ring item status rest acks st hcur =>
          refine ⟨[.recorded (h.entry item status)], rfl, fun n hn ho => ?_⟩
          obtain rfl := List.mem_singleton.1 hn
          cases ho with
          | recorded hid =>
              have hheld : (recordAck (h.entry item status) st).acks.Holds x
                  (h.entry item status) d :=
                (hid ▸ AckRing.holds_record_self st.acks (h.entry item status)).mono
                  (Nat.zero_le d)
              refine ⟨rfl, hheld, fun st' heq => ?_⟩
              obtain rfl := Option.some.inj heq
              exact hheld
      | decided ring item rest acks status log hlog =>
          obtain ⟨new, rfl, hnew⟩ := hlog.no_origin (x := x) (e := e) (d := d) (by rintro ⟨⟩)
          exact ⟨new, rfl, plain hnew⟩
      | unacked ring item rest acks log hlog =>
          obtain ⟨new, rfl, hnew⟩ := hlog.no_origin (x := x) (e := e) (d := d) (by rintro ⟨⟩)
          exact ⟨new, rfl, plain hnew⟩
      | aborted ring item rest acks log hlog =>
          obtain ⟨new, rfl, hnew⟩ := hlog.no_origin (x := x) (e := e) (d := d) (by rintro ⟨⟩)
          exact ⟨new, rfl, plain hnew⟩
      | replaced ring item status rest acks st hcur =>
          refine ⟨[.replaced (h.entry item status)], rfl, plain fun n hn ho => ?_⟩
          rw [List.mem_singleton.1 hn] at ho
          cases ho
      | responded acks st st' hcur hacks =>
          refine ⟨[.responded k h.items acks], rfl, plain fun n hn ho => ?_⟩
          rw [List.mem_singleton.1 hn] at ho
          cases ho
      | _ => exact ⟨[], rfl, by simp⟩

/-- Every ack that became durable is durable still, unless the ring's capacity was recorded since;
and what was logged since is settled. -/
structure Keeps (w : World) : Prop where
  sequential : Sequential w
  kept : ∀ since n older x e d, w.log = since ++ n :: older → Origin x e d n →
    d + writes since < ackRingSize → Settled x e since w ∧ Durable x e (d + writes since) w

lemma step_keeps (hw : Keeps w) {act : Act} (halone : Alone w act) (hstep : step w act = some w') :
    Keeps w' where
  sequential := step_sequential hw.sequential halone hstep
  kept := by
    intro since n older x e d hlog horigin hbound
    obtain ⟨new, hnew, hfresh⟩ := step_origin x e d hstep
    have later : ∀ before, since = new ++ before → w.log = before ++ n :: older →
        Settled x e since w' ∧ Durable x e (d + writes since) w' := by
      intro before hsince hbefore
      have hsum : writes since = writes before + writes new := by
        rw [hsince, writes, List.countP_append, Nat.add_comm]
        rfl
      obtain ⟨hs, hd⟩ := hw.kept before n older x e d hbefore horigin (by omega)
      obtain ⟨new', hnew', hs', hd'⟩ := step_settled hw.sequential hd hs halone hstep
      have hsame : new' = new := List.append_cancel_right (hnew'.symm.trans hnew)
      rw [hsame] at hs' hd'
      refine ⟨hsince ▸ hs', ?_⟩
      rw [hsum, ← Nat.add_assoc]
      exact hd' (by omega)
    rcases List.append_eq_append_iff.1 (hnew.symm.trans hlog) with
      ⟨before, hsince, hbefore⟩ | ⟨rest, hrest, hbefore⟩
    · exact later before hsince hbefore
    · cases rest with
      | nil => exact later [] (by simpa using hrest.symm) (by simpa using hbefore.symm)
      | cons m rest =>
          obtain ⟨rfl, -⟩ := List.cons.inj hbefore
          obtain ⟨hsingle, hd⟩ := hfresh n (by simp [hrest]) horigin
          -- The note is the step's only one, so nothing was logged since.
          have hnil : since = [] := by
            have hlen := congrArg List.length (hrest.symm.trans hsingle)
            simp at hlen
            exact List.length_eq_zero_iff.1 (by omega)
          rw [hnil]
          exact ⟨settled_nil x e w', hd⟩

/-- **Ack replay is durable and sends nothing.**  In every run of requests that do not overlap, with
restarts, and whatever the submissions and the writes answer:

* an ack is answered only after it was written durably;
* once an ack is durable, and as long as fewer than 4096 acks have reached the file since, its
  letter is not submitted again, and every later request that carries the letter is answered with
  that ack and no other for it;
* a local id whose processing never ended in a terminal status is in no ring, unless the run began
  with it there, and gets no ack. -/
theorem ack_replay (hw : w₀.AtRest) (halone : Run.Meets step Alone w₀ acts)
    (hrun : Run.run step w₀ acts = some w) :
    (∀ newer k items as older, w.log = newer ++ .responded k items as :: older →
      ∀ e ∈ as, Persisted older e) ∧
    (∀ since n older x e d, w.log = since ++ n :: older → Origin x e d n →
      d + writes since < ackRingSize →
      (∀ k item accepted, .submitted k item accepted ∈ since → item.letter.localID ≠ x) ∧
      ∀ newer k items as mid, since = newer ++ .responded k items as :: mid →
        ∀ j js, .requested j js ∈ mid → Answers x e items as) ∧
    ∀ x, (∀ e ∈ w₀.store.file.acks.entries, e.localID ≠ x) →
      (∀ k item status, .decided k item status ∈ w.log → item.letter.localID ≠ x) →
      w.store.file.acks.lookup x = none ∧
      (∀ st, w.store.current = some st → st.acks.lookup x = none) ∧
      ∀ k items as, .responded k items as ∈ w.log → ∀ e ∈ as, e.localID ≠ x := by
  have traced : ∀ {Φ Ψ : List Note → AckEntry → Prop}, Traceable Φ Ψ →
      (∀ e ∈ w₀.store.file.acks.entries, Ψ [] e) → Traced Φ Ψ w := by
    intro Φ Ψ hΦ hfile
    refine Run.run_invariant (fun s a s' hs hstep => step_traced hΦ hs hstep) ?_ hrun
    exact ⟨hw.log ▸ hfile, by simp [hw.current], by simp [hw.handlers], by simp [hw.handlers],
      by simp [hw.handlers], fun newer k items as older hlog => by simp [hw.log] at hlog⟩
  have hkeeps : Keeps w := by
    refine Run.run_invariant_of_meets (fun s a s' hs ha hstep => step_keeps hs ha hstep) ?_
      halone hrun
    refine ⟨⟨by simp [hw.handlers], by simp [hw.handlers], by simp [hw.handlers]⟩, ?_⟩
    intro since n older x e d hlog
    simp [hw.log] at hlog
  refine ⟨(traced traceable_persisted fun _ _ => trivial).answered, ?_, ?_⟩
  · intro since n older x e d hlog horigin hbound
    have hs := (hkeeps.kept since n older x e d hlog horigin hbound).1
    exact ⟨hs.silent, hs.answered⟩
  · intro x hinitial hundecided
    have ht := traced (traceable_decided w₀.store.file.acks) fun e he => Or.inl he
    have other : ∀ e, Decided w₀.store.file.acks w.log e → e.localID ≠ x := by
      rintro e (he | ⟨k, hk, hid⟩)
      · exact hinitial e he
      · rw [hid]
        exact hundecided k e.item e.status hk
    refine ⟨?_, fun st hst => ?_, fun k items as hmem e he => ?_⟩
    · exact AckRing.lookup_eq_none_iff.2 fun e he => other e (ht.file e he)
    · exact AckRing.lookup_eq_none_iff.2 fun e he => other e (ht.current st hst e he)
    · obtain ⟨newer, older, hlog⟩ := List.append_of_mem hmem
      have hold : Decided w₀.store.file.acks older e := ht.answered newer k items as older hlog e he
      refine other e (hold.imp_right fun ⟨j, hj, hid⟩ => ⟨j, ?_, hid⟩)
      rw [hlog]
      exact List.mem_append_right _ (List.mem_cons_of_mem _ hj)

end Settled

/-! ## A letter sent, a restart, and the letter again -/

lemma atRest_post : Sample.post.AtRest := ⟨rfl, fun _ => rfl, rfl⟩

def replayRun : List Act :=
  [.start, Sample.posts 0 [Sample.toRosa "l-1" "hola" 1], Sample.handleOk 0, Sample.handleOk 0,
    Sample.handleOk 0, Sample.handleOk 0, Sample.handleOk 0, Sample.handleOk 0, .stop, .start,
    Sample.posts 1 [Sample.toRosa "l-1" "hola" 1], Sample.handleOk 1, Sample.handleOk 1,
    Sample.handleOk 1, Sample.handleOk 1]

/-- Whether neither of the first two requests is in progress when a request arrives. -/
def bothDone (w : World) : Act → Bool
  | .request .. => (w.handlers 0).isNone && (w.handlers 1).isNone
  | _ => true

lemma alone_of_bothDone {act : Act} (hw : ∀ k, 2 ≤ k → w.handlers k = none)
    (hdone : bothDone w act = true) : Alone w act := by
  cases act with
  | request k items maxLetterChars now seen =>
      obtain ⟨h0, h1⟩ := Bool.and_eq_true_iff.1 hdone
      intro j
      rcases j with - | - | j
      · simpa using h0
      · simpa using h1
      · exact hw (j + 2) (by omega)
  | _ => trivial

/-- The ack of that letter. -/
def ackOne : AckEntry := ⟨"l-1", .sent, 0, Sample.toRosa "l-1" "hola" 1⟩

/-- What the log says after the ack was recorded. -/
def replayed : List Note :=
  [.responded 1 [Sample.toRosa "l-1" "hola" 1] [ackOne],
    .requested 1 [Sample.toRosa "l-1" "hola" 1], .opened ⟨[ackOne]⟩,
    .responded 0 [Sample.toRosa "l-1" "hola" 1] [ackOne]]

/-- After the restart, the letter is acked from the file and not submitted again. -/
theorem ack_replay_restart :
    Answers "l-1" ackOne [Sample.toRosa "l-1" "hola" 1] [ackOne] ∧
      ∀ k item accepted, .submitted k item accepted ∈ replayed → item.letter.localID ≠ "l-1" := by
  have heval : ((Run.run (@step Sample.graphemes) Sample.post replayRun).any fun w =>
      decide (w.log = replayed ++ .recorded ackOne :: w.log.drop 5)) = true := by
    decide +kernel
  obtain ⟨w, hrun, hlog⟩ := Run.exists_of_any heval
  have hbelow : ∀ act ∈ replayRun, act.Below 2 := by decide
  have hdone : Run.Meets (@step Sample.graphemes) (fun w act => bothDone w act = true)
      Sample.post replayRun := by
    decide +kernel
  have halone : Run.Meets (@step Sample.graphemes) Alone Sample.post replayRun := by
    refine (((Run.meets_of_mem hbelow).with_invariant
      (I := fun w => ∀ k, 2 ≤ k → w.handlers k = none)
      (fun s a s' hs ha hstep => @step_handlers_below Sample.graphemes s s' 2 hs a ha hstep)
      fun _ _ => rfl).and hdone).imp ?_
    exact fun w act hw => alone_of_bothDone hw.1.1 hw.2
  have hreplay := (@ack_replay _ _ _ Sample.graphemes atRest_post halone hrun).2.1
    replayed _ _ "l-1" ackOne 0 (of_decide_eq_true hlog) (.recorded rfl) (by decide)
  exact ⟨hreplay.2 [] 1 _ _ _ rfl 1 [Sample.toRosa "l-1" "hola" 1] (List.mem_cons_self ..),
    hreplay.1⟩

end Chaskiwasi.Post
