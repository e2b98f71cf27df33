import Chaskiwasi.Server.Sample

/-!
# The notification path

The server learns of an arrival from an IDLE session on INBOX, on a connection of its own.  While a
session is established the mail server announces each new message to it, and each announcement is
a send on a channel with one slot, dropped where the slot is full; a single goroutine receives the
signals and calls `HandleNotify` for each.  A dropped send loses nothing, since `HandleNotify` looks
at the mailbox and not at the signal.

A session may be lost at any moment, and `Idle` then connects again.  Selecting INBOX on the new
connection sets the baseline from which it reports changes, so what arrived between the two
sessions is announced to neither, and `Idle` sends no signal of its own.  `World.Expects` says
what is under way that will still get to a message, `expects_step` that no step forgets one that a
session was there for, and the exact extent of the guarantee is what is expected when a session
begins.
-/

namespace Chaskiwasi.Idle

/-- Where the goroutine that receives from the channel stands. -/
inductive Consumer
  /-- Waiting for a signal, and whether the last `HandleNotify` failed. -/
  | waiting (failed : Bool)
  /-- It received a signal and waits for filing's mutex. -/
  | calling
  /-- `HandleNotify` holds the mutex. -/
  | handling
  deriving DecidableEq, Repr

structure World where
  server : Chaskiwasi.World
  /-- Whether an IDLE session is established. -/
  session : Bool := false
  /-- Whether a signal is in the channel. -/
  notify : Bool := false
  consumer : Consumer := .waiting false

inductive Act
  /-- Anything that happens at the server but for the consumer's own calls. -/
  | server (act : Chaskiwasi.Act)
  /-- `Idle` dialled, selected INBOX and idles. -/
  | connect
  | lose
  | receive
  | call

/-- What happens at the server by itself: `HandleNotify` is called by the consumer alone.  INBOX
keeps its UIDVALIDITY. -/
def Ordinary : Chaskiwasi.Act → Prop
  | .renumber .. => False
  | .call .handleNotify => False
  | _ => True

instance : DecidablePred Ordinary := fun act =>
  match act with
  | .renumber .. | .call .handleNotify => isFalse id
  | .arrive _ | .intoHeld _ | .mutate .. | .call .reconcile | .call (.release ..) | .pass ..
  | .request .. | .sync .. => isTrue trivial

/-- The rest of the world, after a step of the server. -/
def World.follow (w : World) (server : Chaskiwasi.World) : World where
  server := server
  session := w.session
  -- INBOX has assigned a UID, so the mail server announces a message to the session there is.
  notify := w.notify || (w.session && decide (w.server.inbox.last < server.inbox.last))
  consumer :=
    if w.consumer = .handling ∧ server.pass = none then
      .waiting (server.log.head? = some (.returned .handleNotify false))
    else w.consumer

section Steps

variable [Runes] (cfg : Config)

def step (w : World) (act : Act) : Option World :=
  match act with
  | .server act =>
      if Ordinary act then (Chaskiwasi.step cfg w.server act).map w.follow else none
  | .connect => if w.session then none else some { w with session := true }
  | .lose => if w.session then some { w with session := false } else none
  | .receive =>
      match w.consumer with
      | .waiting _ =>
          if w.notify then some { w with notify := false, consumer := .calling } else none
      | _ => none
  | .call =>
      match w.consumer with
      | .calling =>
          (Chaskiwasi.step cfg w.server (.call .handleNotify)).map fun server =>
            { w with server := server, consumer := .handling }
      | _ => none

end Steps

/-! ## What is under way -/

/-- Start has returned: no session yet, and nothing in the channel. -/
structure World.Started (w : World) : Prop where
  session : w.session = false
  notify : w.notify = false
  consumer : w.consumer = .waiting false

/-- A session is established, the channel is empty, and no `HandleNotify` is running or has
failed. -/
structure World.Quiet (w : World) : Prop where
  session : w.session = true
  notify : w.notify = false
  consumer : w.consumer = .waiting false

/-- A message above a UID is in INBOX, and filing has not decided about it. -/
structure World.Undecided (w : World) (since : UID) (m : Raw) : Prop where
  mem : m ∈ w.server.inbox.msgs
  since : since < m.uid
  above : w.server.highWater < m.uid

/-- Whether a pass of the arrival path still gets to a message it has not decided about. -/
def Reaches (m : Raw) : Pass → Prop
  | .fetch => True
  | .file rest full => full = true ∨ m ∈ rest
  | .hold raw rest full => full = true ∨ m = raw ∨ m ∈ rest
  | _ => False

instance (m : Raw) : DecidablePred (Reaches m) := fun pc =>
  match pc with
  | .fetch => isTrue trivial
  | .file _ _ => inferInstanceAs (Decidable (_ ∨ _))
  | .hold _ _ _ => inferInstanceAs (Decidable (_ ∨ _))
  | .list _ | .sweep .. | .quarantine .. | .findHeld .. | .check .. | .change .. | .unhold _ =>
      isFalse id

/-- Whether the consumer gets to a message filing has not decided about: it is about to call, its
pass has yet to come to the message, or the last call failed and the next one starts over. -/
def Consumer.Expects (pass : Option Running) (m : Raw) : Consumer → Prop
  | .waiting failed => failed = true
  | .calling => True
  | .handling => ∃ running ∈ pass, Reaches m running.pc

instance (pass : Option Running) (m : Raw) : DecidablePred (Consumer.Expects pass m) := fun c =>
  match c with
  | .waiting failed => inferInstanceAs (Decidable (failed = true))
  | .calling => isTrue trivial
  | .handling => inferInstanceAs (Decidable (∃ running ∈ pass, Reaches m running.pc))

/-- A signal is in the channel, or the consumer gets to the message without one. -/
def World.Expects (w : World) (m : Raw) : Prop :=
  w.notify = true ∨ w.consumer.Expects w.server.pass m

instance (w : World) (m : Raw) : Decidable (w.Expects m) :=
  inferInstanceAs (Decidable (_ ∨ _))

/-- Everything undecided is expected. -/
def World.Attends (w : World) (since : UID) : Prop :=
  ∀ m, w.Undecided since m → w.Expects m

variable [Runes] {cfg : Config}

/-! ## One step of the arrival path -/

/-- A pass that gets to a message comes to it, or fails, or has it still before it. -/
lemma reaches_step {w w' : Chaskiwasi.World} {pc : Pass} {m : Raw}
    (h : PassStep cfg w (.job .handleNotify) pc w') (hreach : Reaches m pc)
    (hm : m ∈ w.inbox.msgs) (habove : w'.highWater < m.uid) :
    (∃ running ∈ w'.pass, Reaches m running.pc) ∨
      w'.pass = none ∧ w'.log.head? = some (.returned .handleNotify false) := by
  have failed : ∀ {v : Chaskiwasi.World}, (v.finish (.job .handleNotify) false).pass = none ∧
      (v.finish (.job .handleNotify) false).log.head? = some (.returned .handleNotify false) :=
    fun {v} => ⟨rfl, rfl⟩
  cases h with
  | aborted => exact Or.inr failed
  | fetched raws hraws =>
      subst hraws
      have hhere : (w.inbox.fetchAbove w.highWater arrivalBatchSize).length = arrivalBatchSize ∨
          m ∈ w.inbox.fetchAbove w.highWater arrivalBatchSize :=
        Folder.mem_fetchAbove_or_full hm habove
      exact Or.inl ⟨_, rfl, hhere.imp_left decide_eq_true⟩
  | refetch => exact Or.inl ⟨_, rfl, trivial⟩
  | filed => simp [Reaches] at hreach
  | kept raw rest full contact hsender =>
      have hne : m ≠ raw := by
        rintro rfl
        exact absurd habove (not_lt.2 (le_max_right _ _))
      exact Or.inl ⟨_, rfl, hreach.imp_right fun hmem => (List.mem_cons.1 hmem).resolve_left hne⟩
  | refused raw rest full hsender =>
      exact Or.inl ⟨_, rfl, hreach.imp_right List.mem_cons.1⟩
  | held raw rest full fresh v hv =>
      have hne : m ≠ raw := by
        rintro rfl
        exact absurd habove (not_lt.2 (le_max_right _ _))
      exact Or.inl ⟨_, rfl, hreach.imp_right fun hmem => hmem.resolve_left hne⟩
  | holdFailed => exact Or.inr failed
  | _ => exact hreach.elim

/-- A pass that holds the mutex keeps it through every step but its own. -/
lemma step_pass_kept {w w' : Chaskiwasi.World} {act : Chaskiwasi.Act} {running : Running}
    (hpass : w.pass = some running) (h : Chaskiwasi.step cfg w act = some w') :
    w'.pass = some running ∨ ∃ reply fresh io, act = .pass reply fresh io := by
  cases worldStep_cases h with
  | passed reply fresh io => exact Or.inr ⟨reply, fresh, io, rfl⟩
  | arrived | intoHeld | mutated | renumbered | requested => exact Or.inl hpass
  | called j hfree => simp [hpass] at hfree
  | synced k reply skeleton pc w' hpc hsync =>
      left
      cases hsync with
      | called cursor bound hfree => simp [hpass] at hfree
      | _ => exact hpass

/-- A pass goes on under the caller it has. -/
lemma caller_eq {w w' : Chaskiwasi.World} {caller : Caller} {pc : Pass} {running : Running}
    (h : PassStep cfg w caller pc w') (hpass : w'.pass = some running) :
    running.caller = caller := by
  cases h with
  | aborted | swept | filed | quarantineFailed | holdFailed | changeFailed | unholdFailed =>
      simp at hpass
  | _ => exact (congrArg Running.caller (Option.some.inj hpass)).symm

/-- The consumer's own call holds the mutex while it runs, and a message that arrived while a
session was there to hear of it is expected until filing has decided about it. -/
structure World.Kept (w : World) (since : UID) : Prop where
  handling : w.consumer = .handling → ∃ pc, w.server.pass = some ⟨.job .handleNotify, pc⟩
  attends : w.session = true → w.Attends since

omit [Runes] in
lemma World.Started.kept {w : World} (h : w.Started) (since : UID) : w.Kept since where
  handling := by simp [h.consumer]
  attends := by simp [h.session]

/-- A step of the server forgets no message that is expected, and a new one is announced. -/
lemma expects_step {w : World} {since : UID} {v : Chaskiwasi.World} {act : Chaskiwasi.Act}
    (h : w.Kept since) (hsession : w.session = true) (hkeeps : act.Keeps)
    (hstep : Chaskiwasi.step cfg w.server act = some v) : (w.follow v).Attends since := by
  intro m hm
  have hadv := step_advances hkeeps hstep
  rcases hadv.inbox m hm.mem with hold | hnew
  · have hundecided : w.Undecided since m :=
      ⟨hold, hm.since, lt_of_le_of_lt hadv.highWater hm.above⟩
    rcases h.attends hsession m hundecided with hnotify | hconsumer
    · exact Or.inl (by simp [World.follow, hnotify])
    · right
      by_cases hhandling : w.consumer = .handling
      · obtain ⟨pc, hpass⟩ := h.handling hhandling
        rw [hhandling] at hconsumer
        obtain ⟨running, hrunning, hreach⟩ := hconsumer
        obtain rfl := Option.some.inj (hpass.symm.trans hrunning)
        have hnext : (∃ running ∈ v.pass, Reaches m running.pc) ∨
            v.pass = none ∧ v.log.head? = some (.returned .handleNotify false) := by
          rcases step_pass_kept hpass hstep with hkept | ⟨reply, fresh, io, rfl⟩
          · exact Or.inl ⟨_, hkept, hreach⟩
          · simp only [Chaskiwasi.step, hpass] at hstep
            exact reaches_step (passStep_cases hstep) hreach hold hm.above
        rcases hnext with ⟨running, hrun, hreach'⟩ | ⟨hnone, hhead⟩
        · have hsome : v.pass = some running := hrun
          simp only [World.follow, hhandling, hsome, reduceCtorEq, and_false, if_false]
          exact ⟨running, rfl, hreach'⟩
        · simp [World.follow, hhandling, hnone, hhead, Consumer.Expects]
      · have hsame : (w.follow v).consumer = w.consumer := by simp [World.follow, hhandling]
        rw [hsame]
        cases hc : w.consumer with
        | waiting failed =>
            rw [hc] at hconsumer
            exact hconsumer
        | calling => trivial
        | handling => exact absurd hc hhandling
  · left
    have hlast : w.server.inbox.last < v.inbox.last :=
      lt_of_lt_of_le hnew (v.inbox.le_last m hm.mem)
    simp [World.follow, hsession, hlast]

omit [Runes] in
lemma Ordinary.keeps {act : Chaskiwasi.Act} (h : Ordinary act) : act.Keeps := by
  cases act with
  | renumber uidValidity inbox => exact h
  | _ => trivial

/-- **One step keeps what is expected.**  Only the beginning of a session can leave a message that
nothing will get to. -/
theorem step_kept {w w' : World} {since : UID} {act : Act} (h : w.Kept since)
    (hconnect : act = .connect → w.Attends since) (hstep : step cfg w act = some w') :
    w'.Kept since := by
  cases act with
  | server act =>
      simp only [step] at hstep
      split_ifs at hstep with hact
      obtain ⟨v, hv, rfl⟩ := Option.map_eq_some_iff.1 hstep
      refine ⟨fun hhandling => ?_, fun hsession => expects_step h hsession hact.keeps hv⟩
      by_cases hbefore : w.consumer = .handling
      · obtain ⟨pc, hpass⟩ := h.handling hbefore
        cases hnow : v.pass with
        | none => simp [World.follow, hbefore, hnow] at hhandling
        | some running =>
            rcases step_pass_kept hpass hv with hkept | ⟨reply, fresh, io, rfl⟩
            · exact ⟨pc, hkept⟩
            · simp only [Chaskiwasi.step, hpass] at hv
              have hcaller := caller_eq (passStep_cases hv) hnow
              exact ⟨running.pc, hnow.trans (by rw [← hcaller])⟩
      · simp [World.follow, hbefore] at hhandling
  | connect =>
      simp only [step] at hstep
      split_ifs at hstep
      obtain rfl := Option.some.inj hstep
      refine ⟨h.handling, fun _ m hm => ?_⟩
      exact hconnect rfl m ⟨hm.mem, hm.since, hm.above⟩
  | lose =>
      simp only [step] at hstep
      split_ifs at hstep
      obtain rfl := Option.some.inj hstep
      exact ⟨h.handling, fun hsession => nomatch hsession⟩
  | receive =>
      cases hc : w.consumer with
      | waiting failed =>
          simp only [step, hc] at hstep
          split_ifs at hstep
          obtain rfl := Option.some.inj hstep
          exact ⟨fun hhandling => (nomatch hhandling), fun _ m _ => Or.inr trivial⟩
      | calling => simp [step, hc] at hstep
      | handling => simp [step, hc] at hstep
  | call =>
      cases hc : w.consumer with
      | waiting failed => simp [step, hc] at hstep
      | handling => simp [step, hc] at hstep
      | calling =>
          simp only [step, hc] at hstep
          obtain ⟨v, hv, rfl⟩ := Option.map_eq_some_iff.1 hstep
          cases worldStep_cases hv with
          | called j hfree =>
              exact ⟨fun _ => ⟨.fetch, rfl⟩, fun _ m _ => Or.inr ⟨_, rfl, trivial⟩⟩

/-! ## Along a run -/

/-- What the notification path is there for: whenever a session is established and nothing is under
way, every message that arrived after Start and is still in INBOX has been decided. -/
def NoArrivalMissed (cfg : Config) : Prop :=
  ∀ (w₀ : World) (acts : List Act) (w : World), w₀.Started →
    Run.run (step cfg) w₀ acts = some w → w.Quiet → ∀ m ∈ w.server.inbox.msgs,
      w₀.server.inbox.last < m.uid → m.uid ≤ w.server.highWater

variable {w w₀ : World} {acts : List Act}

/-- **No arrival is missed where each session begins with nothing forgotten.**  In every run in
which, whenever a session is established, something is under way that gets to each message that
arrived after Start and is undecided, every such message has been decided whenever a session is
established and nothing is under way. -/
theorem arrivals_decided (hstarted : w₀.Started)
    (hconnects : Run.Meets (step cfg)
      (fun v act => act = .connect → v.Attends w₀.server.inbox.last) w₀ acts)
    (hrun : Run.run (step cfg) w₀ acts = some w) (hquiet : w.Quiet) :
    ∀ m ∈ w.server.inbox.msgs, w₀.server.inbox.last < m.uid → m.uid ≤ w.server.highWater := by
  have hkept : w.Kept w₀.server.inbox.last :=
    Run.run_invariant_of_meets (fun _ _ _ hv hact hstep => step_kept hv hact hstep)
      (hstarted.kept _) hconnects hrun
  intro m hm hsince
  by_contra habove
  have hexpects := hkept.attends hquiet.session m ⟨hm, hsince, not_le.1 habove⟩
  simp [World.Expects, Consumer.Expects, hquiet.notify, hquiet.consumer] at hexpects

/-! ## Between two sessions -/

omit [Runes]

/-- Start has returned on an empty mailbox. -/
def atStart : World where
  server := Sample.world (Sample.onlyRosa true)

/-- A letter from Rosa. -/
def letter : Raw := Sample.delivered 1 "rosa@x"

/-- The session is lost, the letter arrives, and the next session begins. -/
def gapRun : List Act := [.connect, .lose, .server (.arrive letter), .connect]

/-- Whether the world is quiet with a message undecided. -/
def World.forgets (w : World) (m : Raw) : Bool :=
  w.session && !w.notify && decide (w.consumer = .waiting false) &&
    decide (m ∈ w.server.inbox.msgs ∧ w.server.highWater < m.uid)

/-- **A message that arrives between two sessions is missed.** -/
theorem gap_arrival_missed : ¬ @NoArrivalMissed Sample.runes Sample.config := by
  intro hclaim
  have heval : ((Run.run (@step Sample.runes Sample.config) atStart gapRun).any fun w =>
      w.forgets letter) = true := by
    decide +kernel
  obtain ⟨w, hrun, hforgets⟩ := Run.exists_of_any heval
  simp only [World.forgets, Bool.and_eq_true, Bool.not_eq_true', decide_eq_true_eq] at hforgets
  obtain ⟨⟨⟨hsession, hnotify⟩, hconsumer⟩, hmem, habove⟩ := hforgets
  have hdecided := hclaim atStart gapRun w ⟨rfl, rfl, rfl⟩ hrun ⟨hsession, hnotify, hconsumer⟩
    letter hmem (by decide)
  exact absurd habove (not_lt.2 hdecided)

/-- The letter arrives in a session, the session is lost while `HandleNotify` runs, and the next one
begins before it comes to the letter. -/
def heardRun : List Act :=
  [.connect, .server (.arrive letter), .receive, .call, .server (Sample.passOk 0), .lose, .connect,
    .server (Sample.passOk 0), .server (Sample.passOk 0)]

/-- Whether everything in INBOX above the mark is expected. -/
def World.attends (w : World) : Bool :=
  w.server.inbox.msgs.all fun m => decide (w.server.highWater < m.uid → w.Expects m)

lemma World.Attends.of_attends {w : World} {since : UID} (h : w.attends = true) :
    w.Attends since := by
  intro m hm
  have hexpects := of_decide_eq_true (List.all_eq_true.1 h m hm.mem)
  exact hexpects hm.above

theorem heard_arrival_decided :
    ∃ w, Run.run (@step Sample.runes Sample.config) atStart heardRun = some w ∧
      letter ∈ w.server.inbox.msgs ∧ letter.uid ≤ w.server.highWater := by
  have heval : ((Run.run (@step Sample.runes Sample.config) atStart heardRun).any fun w =>
      w.session && !w.notify && decide (w.consumer = .waiting false) &&
        decide (letter ∈ w.server.inbox.msgs)) = true := by
    decide +kernel
  obtain ⟨w, hrun, hquiet⟩ := Run.exists_of_any heval
  simp only [Bool.and_eq_true, Bool.not_eq_true', decide_eq_true_eq] at hquiet
  obtain ⟨⟨⟨hsession, hnotify⟩, hconsumer⟩, hmem⟩ := hquiet
  have hconnects : Run.Meets (@step Sample.runes Sample.config)
      (fun v act => (match act with | .connect => v.attends | _ => true) = true) atStart
      heardRun := by
    decide +kernel
  refine ⟨w, hrun, hmem, @arrivals_decided Sample.runes Sample.config w atStart heardRun
    ⟨rfl, rfl, rfl⟩ (hconnects.imp fun v act hv hact => ?_) hrun ⟨hsession, hnotify, hconsumer⟩
    letter hmem (by decide)⟩
  subst hact
  exact World.Attends.of_attends hv

end Chaskiwasi.Idle
