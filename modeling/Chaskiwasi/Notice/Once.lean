import Chaskiwasi.Notice.Service

/-!
# A notice is appended once

A notice's id is made from the change, and the change's version is made by the change alone, so two
notices of one id are two attempts at the same letter.  Four procedures append: a call of `Announce`
for a change of this process, `Flush` for what the queue holds, `Reconcile` for what the log holds;
and the last two list INBOX once, before their loop.  A loop over notices of distinct ids that the
listing did not show appends each once (`Delivers.tidy`), and what the loops go through are the
queue and the log.  The log never has a change twice.  Whether the queue can is the whole question:
`AddPendingNotice` does not look, and `Reconcile` calls it for every change that is in the log and
not in INBOX, one that `Flush` has just failed to append and left in the queue among them.
-/

namespace Chaskiwasi.Notice

variable {cfg : Config} {w w' w₀ : World} {p p' : Process} {o : Outcome} {acts : List Act}

/-! ## One delivery -/

section Tidy

variable {K : Event → Prop} {inbox : List String} {file memory : List PendingNotice}

/-- INBOX and the queue, in the file and in memory, hold each notice once, and only notices of
changes of which `K` holds. -/
structure Tidy (cfg : Config) (K : Event → Prop) (inbox : List String)
    (file memory : List PendingNotice) : Prop where
  inbox_nodup : inbox.Nodup
  file_nodup : (file.map PendingNotice.id).Nodup
  memory_nodup : (memory.map PendingNotice.id).Nodup
  inbox_known : ∀ m ∈ inbox, ∃ ev, K ev ∧ messageIDFor cfg (noticeIDFor cfg ev) = m
  file_known : ∀ pn ∈ file, ∃ ev, K ev ∧ noticeIDFor cfg ev = pn.id
  memory_known : ∀ pn ∈ memory, ∃ ev, K ev ∧ noticeIDFor cfg ev = pn.id

lemma Tidy.mono {K' : Event → Prop} (h : Tidy cfg K inbox file memory) (hK : ∀ ev, K ev → K' ev) :
    Tidy cfg K' inbox file memory where
  inbox_nodup := h.inbox_nodup
  file_nodup := h.file_nodup
  memory_nodup := h.memory_nodup
  inbox_known := fun m hm => (h.inbox_known m hm).imp fun ev hev => ⟨hK ev hev.1, hev.2⟩
  file_known := fun pn hpn => (h.file_known pn hpn).imp fun ev hev => ⟨hK ev hev.1, hev.2⟩
  memory_known := fun pn hpn => (h.memory_known pn hpn).imp fun ev hev => ⟨hK ev hev.1, hev.2⟩

/-- An update of the queue that keeps its notices apart and known. -/
lemma Tidy.update (h : Tidy cfg K w.inbox w.queue p.queue)
    {f : List PendingNotice → List PendingNotice} {o : WriteOutcome}
    (hf : o ≠ .unchanged → ((f p.queue).map PendingNotice.id).Nodup ∧
      ∀ pn ∈ f p.queue, ∃ ev, K ev ∧ noticeIDFor cfg ev = pn.id) :
    Tidy cfg K (update w p f o).1.inbox (update w p f o).1.queue (update w p f o).2.queue := by
  cases o with
  | unchanged => exact h
  | done =>
      obtain ⟨hnodup, hknown⟩ := hf (by simp)
      exact ⟨h.inbox_nodup, hnodup, hnodup, h.inbox_known, hknown, hknown⟩
  | replaced =>
      obtain ⟨hnodup, hknown⟩ := hf (by simp)
      exact ⟨h.inbox_nodup, hnodup, h.memory_nodup, h.inbox_known, hknown, h.memory_known⟩

variable {pn : PendingNotice} {d : Delivery}

/-- A delivery that writes a notice only where it is not yet keeps every notice single. -/
lemma deliver_tidy (h : Tidy cfg K w.inbox w.queue p.queue)
    (hknown : ∃ ev, K ev ∧ noticeIDFor cfg ev = pn.id)
    (hqueue : d = .adding → o.write ≠ .unchanged → pn.id ∉ p.queue.map PendingNotice.id)
    (hinbox : d ≠ .clearing → messageIDFor cfg pn.id ∉ w.inbox) (hlost : o.append ≠ .lost) :
    Tidy cfg K (deliver cfg w p pn o d).1.1.inbox (deliver cfg w p pn o d).1.1.queue
      (deliver cfg w p pn o d).1.2.queue := by
  cases d with
  | adding =>
      refine h.update fun hwrite => ?_
      have hnew := hqueue rfl hwrite
      constructor
      · rw [addPendingNotice, List.map_append, List.nodup_append]
        refine ⟨h.memory_nodup, by simp, fun a ha b hb => ?_⟩
        rintro rfl
        exact hnew (List.mem_singleton.1 hb ▸ ha)
      · intro q hq
        rcases List.mem_append.1 hq with hq | hq
        · exact h.memory_known q hq
        · rw [List.mem_singleton.1 hq]
          exact hknown
  | appending =>
      unfold deliver
      by_cases hcosmetic : pn.action = .cosmetic
      · simp only [if_pos hcosmetic]
        exact h
      · simp only [if_neg hcosmetic]
        cases happend : o.append with
        | failed => exact h
        | lost => exact absurd happend hlost
        | stored =>
            refine ⟨?_, h.file_nodup, h.memory_nodup, ?_, h.file_known, h.memory_known⟩
            · exact List.nodup_cons.2 ⟨hinbox (by simp), h.inbox_nodup⟩
            · intro m hm
              rcases List.mem_cons.1 hm with rfl | hm
              · exact hknown.imp fun ev hev => ⟨hev.1, congrArg _ hev.2⟩
              · exact h.inbox_known m hm
  | clearing =>
      refine h.update fun _ => ⟨?_, ?_⟩
      · exact h.memory_nodup.sublist (List.filter_sublist.map _)
      · exact fun q hq => h.memory_known q (List.mem_filter.1 hq).1

/-- A delivery puts nothing of another id anywhere. -/
lemma deliver_others (cfg : Config) (w : World) (p : Process) (o : Outcome) (d : Delivery)
    {id : String} (hne : id ≠ pn.id) :
    (id ∈ (deliver cfg w p pn o d).1.2.queue.map PendingNotice.id →
        id ∈ p.queue.map PendingNotice.id) ∧
      (messageIDFor cfg id ∈ (deliver cfg w p pn o d).1.1.inbox →
        messageIDFor cfg id ∈ w.inbox) := by
  have hmessage : messageIDFor cfg id ≠ messageIDFor cfg pn.id :=
    fun h => hne (messageIDFor_injective cfg h)
  cases d with
  | adding =>
      cases hwrite : o.write <;> simp [deliver, update, hwrite, addPendingNotice, hne]
  | appending =>
      unfold deliver
      by_cases hcosmetic : pn.action = .cosmetic
      · simp only [if_pos hcosmetic]
        exact ⟨fun h => h, fun h => h⟩
      · simp only [if_neg hcosmetic]
        cases o.append with
        | failed => exact ⟨fun h => h, fun h => h⟩
        | stored => exact ⟨fun h => h, fun h => (List.mem_cons.1 h).resolve_left hmessage⟩
        | lost => exact ⟨fun h => h, fun h => (List.mem_cons.1 h).resolve_left hmessage⟩
  | clearing =>
      have hsub : id ∈ (removePendingNotice pn.id p.queue).map PendingNotice.id →
          id ∈ p.queue.map PendingNotice.id :=
        fun h => (List.filter_sublist.map _).subset h
      cases hwrite : o.write with
      | unchanged => simp [deliver, update, hwrite]
      | replaced => simp [deliver, update, hwrite]
      | done => exact ⟨fun h => hsub (by simpa [deliver, update, hwrite] using h), by
          simp [deliver, update, hwrite]⟩

/-- What comes next appends only what INBOX does not have. -/
lemma deliver_next (hinbox : d ≠ .clearing → messageIDFor cfg pn.id ∉ w.inbox) :
    ∀ d' ∈ (deliver cfg w p pn o d).2, d' ≠ .adding ∧
      (d' ≠ .clearing → messageIDFor cfg pn.id ∉ (deliver cfg w p pn o d).1.1.inbox) := by
  intro d' hd'
  rcases deliver_goes hd' with ⟨rfl, hdone, rfl⟩ | ⟨rfl, rfl⟩
  · refine ⟨by simp, fun _ => ?_⟩
    have hnot := hinbox (by simp)
    simpa [deliver, update, hdone] using hnot
  · exact ⟨by simp, fun h => absurd rfl h⟩

end Tidy

/-! ## The processes -/

/-- A change is in the contact file, and in the table of the running process. -/
def Settled (w : World) (p : Process) (ev : Event) : Prop :=
  ev ∈ w.contacts.changes ∧ ev ∈ p.contacts.changes

/-- What a loop has before it: notices of changes, each once, and those its listing did not show are
not in INBOX. -/
structure Ahead (cfg : Config) (K : Event → Prop) (inbox sent : List String)
    (rest : List PendingNotice) : Prop where
  nodup : (rest.map PendingNotice.id).Nodup
  known : ∀ pn ∈ rest, ∃ ev, K ev ∧ noticeIDFor cfg ev = pn.id
  unsent : ∀ pn ∈ rest, messageIDFor cfg pn.id ∉ sent → messageIDFor cfg pn.id ∉ inbox

/-- What a loop delivers. -/
structure Delivering (cfg : Config) (K : Event → Prop) (inbox : List String) (loop : Loop)
    (rest : List PendingNotice) (pn : PendingNotice) (d : Delivery) : Prop where
  known : ∃ ev, K ev ∧ noticeIDFor cfg ev = pn.id
  apart : pn.id ∉ rest.map PendingNotice.id
  unsent : d ≠ .clearing → messageIDFor cfg pn.id ∉ inbox
  queued : loop = .flush → d ≠ .adding

def Stage.Apart (cfg : Config) (K : Event → Prop) (inbox : List String) : Stage → Prop
  | .reconcile pending => (pending.map PendingNotice.id).Nodup ∧
      ∀ pn ∈ pending, ∃ ev, K ev ∧ noticeIDFor cfg ev = pn.id
  | .entries _ sent rest => Ahead cfg K inbox sent rest
  | .delivering loop sent rest pn d =>
      Ahead cfg K inbox sent rest ∧ Delivering cfg K inbox loop rest pn d
  | _ => True

/-- No notice of an id has been made anywhere. -/
structure Unused (cfg : Config) (w : World) (p : Process) (logged : List Event) (id : String) :
    Prop where
  log : id ∉ logged.map (noticeIDFor cfg)
  inbox : messageIDFor cfg id ∉ w.inbox
  queue : id ∉ p.queue.map PendingNotice.id
  announcing : ∀ k, ∀ a ∈ p.announcing k, a.1.id ≠ id

/-- What a call of `Announce` has before it. -/
structure Announcing (cfg : Config) (w : World) (p : Process) (a : PendingNotice × Delivery) :
    Prop where
  known : ∃ ev, Settled w p ev ∧ noticeIDFor cfg ev = a.1.id
  queue : a.2 = .adding → a.1.id ∉ p.queue.map PendingNotice.id
  inbox : a.2 ≠ .clearing → messageIDFor cfg a.1.id ∉ w.inbox

/-- Every notice a process holds or is about to make is single. -/
structure Process.Kept (cfg : Config) (w : World) (p : Process) (logged : List Event) : Prop where
  tidy : Tidy cfg (Settled w p) w.inbox w.queue p.queue
  log : ∀ ev ∈ logged, Settled w p ev
  stage : p.stage.Apart cfg (Settled w p) w.inbox
  mutating : ∀ c ∈ p.mutating, Settled w p c.2 ∧ Unused cfg w p logged (noticeIDFor cfg c.2) ∧
    (p.stage = .serving ∨ p.stage = .cli)
  announcing : ∀ k, ∀ a ∈ p.announcing k, Announcing cfg w p a
  apart : ∀ k k', ∀ a ∈ p.announcing k, ∀ a' ∈ p.announcing k', a.1.id = a'.1.id → k = k'
  quiet : p.stage ≠ .serving → ∀ k, p.announcing k = none

variable {logged : List Event} {k : ℕ} {pn : PendingNotice} {d : Delivery}

lemma Delivers.settled {ev : Event} (h : Delivers w w' p p') :
    Settled w' p' ev ↔ Settled w p ev := by
  rw [Settled, Settled, h.contacts, h.memory]

/-- One step of `Announce`. -/
lemma Process.Kept.announce (h : p.Kept cfg w logged) (ha : p.announcing k = some (pn, d))
    (hlost : o.append ≠ .lost) :
    ((deliver cfg w p pn o d).1.2.setAnnounce k
      ((deliver cfg w p pn o d).2.map fun d' => (pn, d'))).Kept cfg (deliver cfg w p pn o d).1.1
        logged := by
  have hd := deliver_delivers cfg w p pn o d
  have hmine := h.announcing k (pn, d) ha
  have hserving : p.stage = .serving := by
    by_contra hne
    rw [h.quiet hne k] at ha
    cases ha
  have htidy := deliver_tidy (o := o) (d := d) h.tidy hmine.known
    (fun hadd _ => hmine.queue hadd) hmine.inbox hlost
  have hother : ∀ j, j ≠ k → ∀ a ∈ p.announcing j, a.1.id ≠ pn.id :=
    fun j hj a ha' heq => hj (h.apart j k a ha' (pn, d) ha heq)
  -- What the other calls have before them this step leaves alone.
  have hcalls : ∀ j, ∀ a ∈ ((deliver cfg w p pn o d).1.2.setAnnounce k
      ((deliver cfg w p pn o d).2.map fun d' => (pn, d'))).announcing j,
      (j = k ∧ a.1 = pn ∧ a.2 ∈ (deliver cfg w p pn o d).2) ∨ j ≠ k ∧ a ∈ p.announcing j := by
    intro j a hja
    by_cases hj : j = k
    · subst hj
      left
      simp only [Process.setAnnounce, if_true, Option.mem_def, Option.map_eq_some_iff] at hja
      obtain ⟨d', hd', rfl⟩ := hja
      exact ⟨rfl, rfl, hd'⟩
    · right
      simp only [Process.setAnnounce, if_neg hj, hd.announcing] at hja
      exact ⟨hj, hja⟩
  refine ⟨htidy.mono fun ev hev => hd.settled.2 hev, fun ev hev => hd.settled.2 (h.log ev hev),
    ?_, ?_, ?_, ?_, ?_⟩
  · have hstage : (deliver cfg w p pn o d).1.2.stage = .serving := hd.stage.trans hserving
    simp only [Process.setAnnounce, hstage]
    trivial
  · intro c hc
    have hc' : c ∈ p.mutating := by
      rw [← hd.mutating]
      exact hc
    obtain ⟨hsettled, hunused, -⟩ := h.mutating c hc'
    have hne : noticeIDFor cfg c.2 ≠ pn.id := (hunused.announcing k (pn, d) ha).symm
    obtain ⟨hqueue, hinbox⟩ := deliver_others cfg w p o d hne
    refine ⟨hd.settled.2 hsettled, ⟨hunused.log, mt hinbox hunused.inbox,
      mt hqueue hunused.queue, fun j a hja => ?_⟩, Or.inl (hd.stage.trans hserving)⟩
    rcases hcalls j a hja with ⟨-, heq, -⟩ | ⟨-, hja⟩
    · rw [heq]
      exact hne.symm
    · exact hunused.announcing j a hja
  · intro j a hja
    rcases hcalls j a hja with ⟨rfl, heq, hnext⟩ | ⟨hj, hja⟩
    · obtain ⟨hadd, hinbox⟩ := deliver_next hmine.inbox _ hnext
      refine ⟨?_, fun h => absurd h hadd, ?_⟩
      · rw [heq]
        exact hmine.known.imp fun ev hev => ⟨hd.settled.2 hev.1, hev.2⟩
      · rw [heq]
        exact hinbox
    · have hold := h.announcing j a hja
      obtain ⟨hqueue, hinbox⟩ := deliver_others cfg w p o d
        (hother j hj a hja)
      exact ⟨hold.known.imp fun ev hev => ⟨hd.settled.2 hev.1, hev.2⟩,
        fun hadd => mt hqueue (hold.queue hadd), fun hclear => mt hinbox (hold.inbox hclear)⟩
  · intro j j' a hja a' hja' heq
    rcases hcalls j a hja with ⟨hj, ha1, -⟩ | ⟨hj, hold⟩
    · rcases hcalls j' a' hja' with ⟨hj', -, -⟩ | ⟨hj', hold'⟩
      · exact hj.trans hj'.symm
      · exact absurd (heq.symm.trans (congrArg PendingNotice.id ha1)) (hother j' hj' a' hold')
    · rcases hcalls j' a' hja' with ⟨-, ha1, -⟩ | ⟨-, hold'⟩
      · exact absurd (heq.trans (congrArg PendingNotice.id ha1)) (hother j hj a hold)
      · exact h.apart j j' a hold a' hold' heq
  · intro hne
    exact absurd (hd.stage.trans hserving) hne

/-- A step that leaves INBOX, the published queue, the stage and the calls of `Announce` alone, and
unsettles no change. -/
lemma Process.Kept.of_same (h : p.Kept cfg w logged) (hinbox : w'.inbox = w.inbox)
    (hqueue : p'.queue = p.queue) (hstage : p'.stage = p.stage)
    (hannouncing : p'.announcing = p.announcing)
    (hsettled : ∀ ev, Settled w p ev → Settled w' p' ev)
    (hfile : Tidy cfg (Settled w' p') w'.inbox w'.queue p'.queue)
    (hmutating : ∀ c ∈ p'.mutating, Settled w' p' c.2 ∧
      Unused cfg w p logged (noticeIDFor cfg c.2) ∧ (p.stage = .serving ∨ p.stage = .cli)) :
    p'.Kept cfg w' logged where
  tidy := hfile
  log := fun ev hev => hsettled ev (h.log ev hev)
  stage := by
    have known : ∀ pn : PendingNotice, (∃ ev, Settled w p ev ∧ noticeIDFor cfg ev = pn.id) →
        ∃ ev, Settled w' p' ev ∧ noticeIDFor cfg ev = pn.id :=
      fun pn hpn => hpn.imp fun ev hev => ⟨hsettled ev hev.1, hev.2⟩
    have ahead : ∀ {sent : List String} {rest : List PendingNotice},
        Ahead cfg (Settled w p) w.inbox sent rest →
          Ahead cfg (Settled w' p') w'.inbox sent rest := by
      intro sent rest ha
      exact ⟨ha.nodup, fun pn hpn => known pn (ha.known pn hpn), hinbox ▸ ha.unsent⟩
    have hapart := h.stage
    rw [hstage]
    cases hs : p.stage with
    | reconcile pending =>
        rw [hs] at hapart
        exact ⟨hapart.1, fun pn hpn => known pn (hapart.2 pn hpn)⟩
    | entries loop sent rest =>
        rw [hs] at hapart
        exact ahead hapart
    | delivering loop sent rest pn d =>
        rw [hs] at hapart
        obtain ⟨hahead, hmine⟩ := hapart
        exact ⟨ahead hahead, known pn hmine.known, hmine.apart, hinbox ▸ hmine.unsent, hmine.queued⟩
    | flush | readLog | serving | cli => trivial
  mutating := by
    intro c hc
    obtain ⟨hset, hunused, hserving⟩ := hmutating c hc
    refine ⟨hset, ⟨hunused.log, hinbox ▸ hunused.inbox, hqueue ▸ hunused.queue, ?_⟩,
      hstage ▸ hserving⟩
    rw [hannouncing]
    exact hunused.announcing
  announcing := by
    intro k a ha
    rw [hannouncing] at ha
    have hcall := h.announcing k a ha
    exact ⟨hcall.known.imp fun ev hev => ⟨hsettled ev hev.1, hev.2⟩, hqueue ▸ hcall.queue,
      hinbox ▸ hcall.inbox⟩
  apart := by
    rw [hannouncing]
    exact h.apart
  quiet := by
    rw [hstage, hannouncing]
    exact h.quiet

lemma Process.Kept.run (h : p.Kept cfg w logged) (q : Process) : p.Kept cfg (w.run q) logged :=
  h.of_same rfl rfl rfl rfl (fun _ hev => hev) h.tidy h.mutating

/-! ## The recovery -/

/-- A recovery goes on to another stage. -/
lemma Process.Kept.goto (h : p.Kept cfg w logged) (hserving : p.stage ≠ .serving)
    (hcli : p.stage ≠ .cli) {stage : Stage} (hstage : stage.Apart cfg (Settled w p) w.inbox) :
    { p with stage := stage }.Kept cfg w logged where
  tidy := h.tidy
  log := h.log
  stage := hstage
  mutating := by
    intro c hc
    rcases (h.mutating c hc).2.2 with hs | hs
    · exact absurd hs hserving
    · exact absurd hs hcli
  announcing := fun k a ha => by simp [h.quiet hserving k] at ha
  apart := h.apart
  quiet := fun _ => h.quiet hserving

lemma Ahead.tail {K : Event → Prop} {inbox sent : List String} {rest : List PendingNotice}
    (h : Ahead cfg K inbox sent (pn :: rest)) : Ahead cfg K inbox sent rest where
  nodup := (List.nodup_cons.1 h.nodup).2
  known := fun q hq => h.known q (List.mem_cons_of_mem _ hq)
  unsent := fun q hq => h.unsent q (List.mem_cons_of_mem _ hq)

/-- A listing shows everything of INBOX that a loop is about. -/
lemma ahead_of_listed {K : Event → Prop} {inbox : List String} {pending : List PendingNotice}
    (hnodup : (pending.map PendingNotice.id).Nodup)
    (hknown : ∀ pn ∈ pending, ∃ ev, K ev ∧ noticeIDFor cfg ev = pn.id) :
    Ahead cfg K inbox (alreadyAppended cfg inbox pending) pending where
  nodup := hnodup
  known := hknown
  unsent := by
    intro pn hpn hunsent hin
    refine hunsent (List.mem_filter.2 ⟨hin, decide_eq_true ?_⟩)
    exact List.mem_map_of_mem hpn

/-- The notice that `Reconcile` is about to put into the queue. -/
def Stage.requeues : Stage → Option PendingNotice
  | .delivering .reconcile _ _ pn .adding => some pn
  | _ => none

/-- `Reconcile` puts no notice into the queue whose id the queue still holds. -/
def Unqueued (w : World) : Act → Prop
  | .recover o => ∀ p ∈ w.process, ∀ pn ∈ p.stage.requeues, o.write ≠ .unchanged →
      pn.id ∉ p.queue.map PendingNotice.id
  | _ => True

instance (w : World) : DecidablePred (Unqueued w) := fun act =>
  match act with
  | .recover _ => inferInstanceAs (Decidable (∀ p ∈ w.process, ∀ pn ∈ p.stage.requeues, _ → _))
  | .openData _ | .stop | .commit .. | .record _ | .announce .. | .abandon _ | .rewrite _
  | .delete _ => isTrue trivial

/-- One step of a delivery of the recovery. -/
lemma Process.Kept.delivered {loop : Loop} {sent : List String} {rest : List PendingNotice}
    (h : p.Kept cfg w logged) (hstage : p.stage = .delivering loop sent rest pn d)
    (hlost : o.append ≠ .lost)
    (hqueue : loop = .reconcile → d = .adding → o.write ≠ .unchanged →
      pn.id ∉ p.queue.map PendingNotice.id) :
    { (deliver cfg w p pn o d).1.2 with
      stage := match (deliver cfg w p pn o d).2 with
        | some d' => .delivering loop sent rest pn d'
        | none => .entries loop sent rest }.Kept cfg (deliver cfg w p pn o d).1.1 logged := by
  have hd := deliver_delivers cfg w p pn o d
  have hapart := h.stage
  rw [hstage] at hapart
  obtain ⟨hahead, hmine⟩ := hapart
  have hadd : d = .adding → o.write ≠ .unchanged → pn.id ∉ p.queue.map PendingNotice.id := by
    intro hadding
    cases loop with
    | flush => exact absurd hadding (hmine.queued rfl)
    | reconcile => exact hqueue rfl hadding
  have htidy := deliver_tidy (o := o) (d := d) h.tidy hmine.known hadd hmine.unsent hlost
  have hnone : ∀ j, (deliver cfg w p pn o d).1.2.announcing j = none := by
    intro j
    rw [hd.announcing]
    exact h.quiet (by simp [hstage]) j
  have hahead' : Ahead cfg (Settled (deliver cfg w p pn o d).1.1 (deliver cfg w p pn o d).1.2)
      (deliver cfg w p pn o d).1.1.inbox sent rest := by
    refine ⟨hahead.nodup, fun q hq => ?_, fun q hq hunsent => ?_⟩
    · exact (hahead.known q hq).imp fun ev hev => ⟨hd.settled.2 hev.1, hev.2⟩
    · have hne : q.id ≠ pn.id := fun heq => hmine.apart (heq ▸ List.mem_map_of_mem hq)
      exact mt (deliver_others cfg w p o d hne).2 (hahead.unsent q hq hunsent)
  refine ⟨htidy.mono fun ev hev => hd.settled.2 hev, fun ev hev => hd.settled.2 (h.log ev hev),
    ?_, ?_, ?_, ?_, fun _ => hnone⟩
  · cases hnext : (deliver cfg w p pn o d).2 with
    | none => exact hahead'
    | some d' =>
        obtain ⟨hne, hunsent⟩ := deliver_next hmine.unsent d' hnext
        exact ⟨hahead', hmine.known.imp fun ev hev => ⟨hd.settled.2 hev.1, hev.2⟩, hmine.apart,
          hunsent, fun _ => hne⟩
  · intro c hc
    have hc' : c ∈ p.mutating := by
      rw [← hd.mutating]
      exact hc
    rcases (h.mutating c hc').2.2 with hs | hs <;> simp [hstage] at hs
  · intro j a ha
    simp [hnone j] at ha
  · intro j j' a ha
    simp [hnone j] at ha

/-- **One step of the recovery** keeps every notice single, where `Reconcile` does not put a second
one into the queue. -/
lemma Process.Kept.recover [EventCodec] (h : p.Kept cfg w logged)
    (hlog : lines w.log = logged.map EventCodec.marshal)
    (hids : (logged.map (noticeIDFor cfg)).Nodup) (hlost : o.append ≠ .lost)
    (hqueue : ∀ sent rest pn, p.stage = .delivering .reconcile sent rest pn .adding →
      o.write ≠ .unchanged → pn.id ∉ p.queue.map PendingNotice.id)
    (hstep : recoverStep cfg w p o = some w') :
    ∃ p', w'.process = some p' ∧ p'.Kept cfg w' logged := by
  have hcases := recoverStep_cases hstep
  have hserving : p.stage ≠ .serving := by
    intro hs
    rw [hs] at hcases
    cases hcases
  have hcli : p.stage ≠ .cli := by
    intro hs
    rw [hs] at hcases
    cases hcases
  have goto : ∀ stage : Stage, stage.Apart cfg (Settled w p) w.inbox →
      ∃ p', (w.run { p with stage := stage }).process = some p' ∧
        p'.Kept cfg (w.run { p with stage := stage }) logged :=
    fun stage hstage => ⟨_, rfl, (h.goto hserving hcli hstage).run _⟩
  have hapart := h.stage
  cases hstage : p.stage with
  | serving => exact absurd hstage hserving
  | cli => exact absurd hstage hcli
  | flush =>
      rw [hstage] at hcases
      cases hcases with
      | flushListed hqueue => exact goto _ (ahead_of_listed h.tidy.memory_nodup h.tidy.memory_known)
      | flushSkipped => exact goto _ trivial
  | readLog =>
      rw [hstage] at hcases
      cases hcases with
      | unread hnone => exact goto _ trivial
      | read events hevents =>
          have hsub := readLog_sublist hlog hevents
          refine goto _ ⟨?_, fun pn hpn => ?_⟩
          · rw [List.map_map]
            exact hids.sublist ((List.filter_sublist.trans hsub).map _)
          · obtain ⟨ev, hev, rfl⟩ := List.mem_map.1 hpn
            exact ⟨ev, h.log ev (hsub.subset (List.mem_filter.1 hev).1), rfl⟩
  | reconcile pending =>
      rw [hstage] at hcases hapart
      cases hcases with
      | reconcileListed => exact goto _ (ahead_of_listed hapart.1 hapart.2)
      | reconcileSkipped => exact goto _ trivial
  | entries loop sent rest =>
      rw [hstage] at hcases hapart
      cases hcases with
      | flushed => exact goto _ trivial
      | reconciled => exact goto _ trivial
      | begun loop sent pn rest hnew =>
          refine goto _ ⟨hapart.tail, hapart.known pn (List.mem_cons_self ..), ?_, ?_, ?_⟩
          · exact (List.nodup_cons.1 hapart.nodup).1
          · exact fun _ => hapart.unsent pn (List.mem_cons_self ..) hnew
          · rintro rfl
            simp [Loop.first]
      | cleared sent pn rest hsent =>
          refine goto _ ⟨hapart.tail, hapart.known pn (List.mem_cons_self ..), ?_, ?_, ?_⟩
          · exact (List.nodup_cons.1 hapart.nodup).1
          · exact fun hne => absurd rfl hne
          · simp
      | skipped sent pn rest hsent => exact goto _ hapart.tail
  | delivering loop sent rest pn d =>
      rw [hstage] at hcases
      cases hcases with
      | delivered =>
          have hdelivered := h.delivered (o := o) hstage hlost fun hloop hadd => by
            subst hloop hadd
            exact hqueue sent rest pn hstage
          exact ⟨_, rfl, hdelivered.run _⟩

/-! ## The world -/

variable [Runes] [EventCodec]

omit [Runes] in
/-- Every notice anywhere is single, and the log holds these changes. -/
structure World.Kept (cfg : Config) (w : World) (logged : List Event) : Prop where
  log : lines w.log = logged.map EventCodec.marshal
  start : AtLineStart w.log
  nodup : (logged.map (noticeIDFor cfg)).Nodup
  stopped : w.process = none →
    Tidy cfg (fun ev => ev ∈ w.contacts.changes) w.inbox w.queue w.queue ∧
      ∀ ev ∈ logged, ev ∈ w.contacts.changes
  running : ∀ p ∈ w.process, p.Kept cfg w logged

omit [Runes] [EventCodec] in
/-- The ids of the changes in the contact file tell their versions apart. -/
def World.Distinguishes (cfg : Config) (w : World) : Prop :=
  ∀ a ∈ w.contacts.changes, ∀ b ∈ w.contacts.changes,
    noticeIDFor cfg a = noticeIDFor cfg b → a.version = b.version

omit [Runes] [EventCodec] in
/-- What may fail: the writes of `state.json`, the listings, and the appends to INBOX, of which one
that fails stores nothing.  Nobody removes anything from INBOX. -/
def Fails : Act → Prop
  | .announce _ o => o.append ≠ .lost
  | .recover o => o.append ≠ .lost
  | .record o => o = .done
  | .delete _ => False
  | _ => True

omit [Runes] [EventCodec] in
lemma unused_of_new {id : String} (h : p.Kept cfg w logged)
    (hnew : ∀ ev, Settled w p ev → noticeIDFor cfg ev ≠ id) : Unused cfg w p logged id where
  log := by
    intro hin
    obtain ⟨ev, hev, heq⟩ := List.mem_map.1 hin
    exact hnew ev (h.log ev hev) heq
  inbox := by
    intro hin
    obtain ⟨ev, hev, heq⟩ := h.tidy.inbox_known _ hin
    exact hnew ev hev (messageIDFor_injective cfg heq)
  queue := by
    intro hin
    obtain ⟨pn, hpn, heq⟩ := List.mem_map.1 hin
    obtain ⟨ev, hev, hid⟩ := h.tidy.memory_known pn hpn
    exact hnew ev hev (hid.trans heq)
  announcing := by
    intro k a ha heq
    obtain ⟨ev, hev, hid⟩ := (h.announcing k a ha).known
    exact hnew ev hev (hid.trans heq)

omit [EventCodec] in
/-- The writing of the contact file. -/
lemma Process.Kept.commit {now : ℤ} {drawn : List (Option String)} {actor : String} {m : Mutation}
    {ev : Event} {contacts : Contacts} {out : WriteOutcome} (h : p.Kept cfg w logged)
    (hp : w.process = some p) (hserving : p.stage = .serving ∨ p.stage = .cli)
    (hm : p.contacts.mutated cfg now drawn actor m = some (ev, contacts))
    (hdist : (commit w p k ev contacts out).Distinguishes cfg) :
    ∃ p', (Notice.commit w p k ev contacts out).process = some p' ∧
      p'.Kept cfg (Notice.commit w p k ev contacts out) logged := by
  have hgrow : ∀ e ∈ p.contacts.changes, e ∈ contacts.changes := by
    intro e he
    rw [Contacts.mutated_changes hm]
    split_ifs
    · exact he
    · exact List.mem_append_left _ he
  cases out with
  | unchanged => exact ⟨p, hp, h⟩
  | replaced =>
      have hsettled : ∀ e, Settled w p e → Settled { w with contacts := contacts } p e :=
        fun e he => ⟨hgrow e he.2, he.2⟩
      refine ⟨p, hp, h.of_same rfl rfl rfl rfl hsettled (h.tidy.mono hsettled) fun c hc => ?_⟩
      obtain ⟨hset, hrest⟩ := h.mutating c hc
      exact ⟨hsettled _ hset, hrest⟩
  | done =>
      refine ⟨_, rfl, ?_⟩
      have hsettled : ∀ e, Settled w p e → e ∈ contacts.changes ∧ e ∈ contacts.changes :=
        fun e he => ⟨hgrow e he.2, hgrow e he.2⟩
      refine h.of_same rfl rfl rfl rfl hsettled (h.tidy.mono hsettled) fun c hc => ?_
      by_cases hcosmetic : ev.action = Action.cosmetic
      · simp [hcosmetic] at hc
      · simp only [if_neg hcosmetic, Option.mem_def, Option.some.injEq] at hc
        subst hc
        have hev : ev ∈ contacts.changes := by
          rw [Contacts.mutated_changes hm, if_neg hcosmetic]
          exact List.mem_append_right _ (List.mem_singleton.2 rfl)
        refine ⟨⟨hev, hev⟩, unused_of_new h fun e he heq => ?_, hserving⟩
        -- The change's version is above that of every change before it.
        have hversion := hdist e (hgrow e he.2) ev hev heq
        have hle := p.contacts.le_version e he.2
        have hnew := Contacts.mutated_version hm
        omega

omit [Runes] in
/-- The append to the log, after which the server announces the change. -/
lemma Process.Kept.record {ev : Event} (h : p.Kept cfg w logged)
    (hm : p.mutating = some (k, ev)) :
    (if p.stage = Stage.serving then
      { p with mutating := none }.setAnnounce k (some (pendingFor cfg ev, .adding))
    else { p with mutating := none }).Kept cfg { w with log := w.log ++ logLine ev }
      (logged ++ [ev]) := by
  obtain ⟨hsettled, hunused, hstage⟩ := h.mutating (k, ev) hm
  have hlog : ∀ e ∈ logged ++ [ev], Settled w p e := by
    intro e he
    rcases List.mem_append.1 he with he | he
    · exact h.log e he
    · rw [List.mem_singleton.1 he]
      exact hsettled
  by_cases hserving : p.stage = .serving
  · rw [if_pos hserving]
    -- The new call is the only one of its id.
    have hcalls : ∀ j, ∀ a ∈ ({ p with mutating := none }.setAnnounce k
        (some (pendingFor cfg ev, .adding))).announcing j,
        (j = k ∧ a = (pendingFor cfg ev, .adding)) ∨ j ≠ k ∧ a ∈ p.announcing j := by
      intro j a ha
      by_cases hj : j = k
      · simp only [Process.setAnnounce, if_pos hj, Option.mem_def, Option.some.injEq] at ha
        exact Or.inl ⟨hj, ha.symm⟩
      · simp only [Process.setAnnounce, if_neg hj] at ha
        exact Or.inr ⟨hj, ha⟩
    refine ⟨h.tidy, hlog, ?_, fun c hc => ?_, ?_, ?_, fun hne => absurd hserving hne⟩
    · simp only [Process.setAnnounce, hserving]
      trivial
    · simp [Process.setAnnounce] at hc
    · intro j a ha
      rcases hcalls j a ha with ⟨-, rfl⟩ | ⟨-, hold⟩
      · exact ⟨⟨ev, hsettled, rfl⟩, fun _ => hunused.queue, fun _ => hunused.inbox⟩
      · have hcall := h.announcing j a hold
        exact ⟨hcall.known, hcall.queue, hcall.inbox⟩
    · intro j j' a ha a' ha' heq
      rcases hcalls j a ha with ⟨hj, rfl⟩ | ⟨-, hold⟩
      · rcases hcalls j' a' ha' with ⟨hj', -⟩ | ⟨-, hold'⟩
        · exact hj.trans hj'.symm
        · exact absurd heq.symm (hunused.announcing j' a' hold')
      · rcases hcalls j' a' ha' with ⟨-, rfl⟩ | ⟨-, hold'⟩
        · exact absurd heq (hunused.announcing j a hold)
        · exact h.apart j j' a hold a' hold' heq
  · rw [if_neg hserving]
    refine ⟨h.tidy, hlog, h.stage, fun c hc => ?_, fun j a ha => ?_, h.apart, h.quiet⟩
    · simp at hc
    · have hcall := h.announcing j a ha
      exact ⟨hcall.known, hcall.queue, hcall.inbox⟩

/-- **One step keeps every notice single**, where `Reconcile` does not put a second one into the
queue. -/
theorem kept_step {act : Act} (h : w.Kept cfg logged) (hfails : Fails act)
    (hdist : w'.Distinguishes cfg) (hact : Unqueued w act) (hstep : step cfg w act = some w') :
    ∃ logged, w'.Kept cfg logged := by
  cases step_cases hstep with
  | opened server hp =>
      obtain ⟨htidy, hlogged⟩ := h.stopped hp
      refine ⟨logged, h.log, h.start, h.nodup, fun hnone => ?_, fun p hmem => ?_⟩
      · cases hnone
      · obtain rfl := Option.some.inj hmem
        refine ⟨htidy.mono fun ev hev => ⟨hev, hev⟩, fun ev hev => ?_, ?_, ?_, ?_, ?_, ?_⟩
        · exact ⟨hlogged ev hev, hlogged ev hev⟩
        · cases server <;> trivial
        · simp
        · simp
        · simp
        · simp
  | stopped =>
      refine ⟨logged, h.log, h.start, h.nodup, fun _ => ?_, by simp⟩
      cases hp : w.process with
      | none => exact h.stopped hp
      | some p =>
          have hkept := h.running p hp
          have htidy := hkept.tidy.mono fun ev hev => hev.1
          exact ⟨⟨htidy.inbox_nodup, htidy.file_nodup, htidy.file_nodup, htidy.inbox_known,
            htidy.file_known, htidy.file_known⟩, fun ev hev => (hkept.log ev hev).1⟩
  | refused k now drawn actor m out => exact ⟨logged, h⟩
  | committed k now drawn actor m out p ev contacts hp hmutating hserving hm =>
      obtain ⟨p', hp', hkept⟩ := (h.running p hp).commit hp hserving hm hdist
      have hlog : (commit w p k ev contacts out).log = w.log := by
        cases out <;> rfl
      refine ⟨logged, hlog ▸ h.log, hlog ▸ h.start, h.nodup, fun hnone => ?_, fun q hq => ?_⟩
      · rw [hp'] at hnone
        cases hnone
      · obtain rfl := Option.some.inj (hp'.symm.trans hq)
        exact hkept
  | recorded out p k ev hp hm =>
      obtain rfl : out = .done := hfails
      have hkept := h.running p hp
      have hunused := (hkept.mutating (k, ev) hm).2.1
      refine ⟨logged ++ [ev], ?_, ?_, ?_, fun hnone => ?_, fun q hq => ?_⟩
      · have hline := lines_line (EventCodec.marshal_ne_nil ev) (EventCodec.newline_not_mem ev)
        simp only [World.run, LogOutcome.written]
        rw [lines_append h.start, h.log, logLine, hline, List.map_append]
        rfl
      · exact atLineStart_line w.log ev
      · rw [List.map_append, List.nodup_append]
        refine ⟨h.nodup, by simp, fun a ha b hb => ?_⟩
        rintro rfl
        exact hunused.log (List.mem_singleton.1 hb ▸ ha)
      · cases hnone
      · obtain rfl := Option.some.inj hq
        have hrecorded := hkept.record hm
        simp only [true_and]
        exact hrecorded.run _
  | announced k out p pn d hp ha =>
      have hd := deliver_delivers cfg w p pn out d
      have hkept := (h.running p hp).announce ha hfails
      refine ⟨logged, hd.log ▸ h.log, hd.log ▸ h.start, h.nodup, fun hnone => ?_, fun q hq => ?_⟩
      · cases hnone
      · obtain rfl := Option.some.inj hq
        exact hkept.run _
  | abandoned k p hp =>
      have hkept := h.running p hp
      have hcalls : ∀ j, ∀ a ∈ (p.setAnnounce k none).announcing j, a ∈ p.announcing j := by
        intro j a ha
        by_cases hj : j = k
        · simp [Process.setAnnounce, hj] at ha
        · simpa [Process.setAnnounce, hj] using ha
      refine ⟨logged, h.log, h.start, h.nodup, fun hnone => ?_, fun q hq => ?_⟩
      · cases hnone
      · obtain rfl := Option.some.inj hq
        suffices hset : (p.setAnnounce k none).Kept cfg w logged from hset.run _
        refine ⟨hkept.tidy, hkept.log, hkept.stage, fun c hc => ?_, fun j a ha => ?_,
          fun j j' a ha a' ha' => ?_, fun hne j => ?_⟩
        · obtain ⟨hset, hunused, hserving⟩ := hkept.mutating c hc
          exact ⟨hset, ⟨hunused.log, hunused.inbox, hunused.queue,
            fun j a ha => hunused.announcing j a (hcalls j a ha)⟩, hserving⟩
        · have hcall := hkept.announcing j a (hcalls j a ha)
          exact ⟨hcall.known, hcall.queue, hcall.inbox⟩
        · exact hkept.apart j j' a (hcalls j a ha) a' (hcalls j' a' ha')
        · rw [Option.eq_none_iff_forall_not_mem]
          intro a ha
          have hnone := hkept.quiet hne j
          rw [Option.eq_none_iff_forall_not_mem] at hnone
          exact hnone a (hcalls j a ha)
  | recovered out p w' hp hrecover =>
      have hqueue : ∀ sent rest pn, p.stage = .delivering .reconcile sent rest pn .adding →
          out.write ≠ .unchanged → pn.id ∉ p.queue.map PendingNotice.id := by
        intro sent rest pn hstage
        exact hact p hp pn (by rw [hstage]; rfl)
      obtain ⟨p', hp', hkept⟩ := (h.running p hp).recover h.log h.nodup hfails hqueue hrecover
      have hlog : w'.log = w.log := recoverStep_log hrecover
      refine ⟨logged, hlog ▸ h.log, hlog ▸ h.start, h.nodup, fun hnone => ?_, fun q hq => ?_⟩
      · rw [hp'] at hnone
        cases hnone
      · obtain rfl := Option.some.inj (hp'.symm.trans hq)
        exact hkept
  | rewritten out p hp =>
      have hd := update_delivers w p id out
      have hkept := h.running p hp
      have htidy := hkept.tidy.update (f := id) (o := out)
        fun _ => ⟨hkept.tidy.memory_nodup, hkept.tidy.memory_known⟩
      have hinbox : (update w p id out).1.inbox = w.inbox := update_inbox w p id out
      have hqueue : (update w p id out).2.queue = p.queue := by
        cases out <;> rfl
      refine ⟨logged, hd.log ▸ h.log, hd.log ▸ h.start, h.nodup, fun hnone => ?_, fun q hq => ?_⟩
      · cases hnone
      · obtain rfl := Option.some.inj hq
        refine Process.Kept.run (hkept.of_same hinbox hqueue hd.stage hd.announcing
          (fun ev hev => hd.settled.2 hev) (htidy.mono fun ev hev => hd.settled.2 hev) ?_) _
        intro c hc
        rw [hd.mutating] at hc
        obtain ⟨hset, hrest⟩ := hkept.mutating c hc
        exact ⟨hd.settled.2 hset, hrest⟩
  | deleted messageID => exact hfails.elim

/-! ## Along a run -/

omit [Runes] [EventCodec] in
/-- INBOX has each notice once, and so has the queue, in the file and in memory. -/
structure World.Once (w : World) : Prop where
  inbox : w.inbox.Nodup
  file : (w.queue.map PendingNotice.id).Nodup
  memory : ∀ p ∈ w.process, (p.queue.map PendingNotice.id).Nodup

omit [Runes] in
lemma World.Kept.once (h : w.Kept cfg logged) : w.Once := by
  cases hp : w.process with
  | none =>
      have htidy := (h.stopped hp).1
      exact ⟨htidy.inbox_nodup, htidy.file_nodup, by simp [hp]⟩
  | some p =>
      have htidy := (h.running p hp).tidy
      refine ⟨htidy.inbox_nodup, htidy.file_nodup, fun q hq => ?_⟩
      obtain rfl := Option.some.inj (hp.symm.trans hq)
      exact htidy.memory_nodup

omit [Runes] [EventCodec] in
lemma not_nodup_addPendingNotice {queue : List PendingNotice}
    (h : pn.id ∈ queue.map PendingNotice.id) :
    ¬ ((addPendingNotice pn queue).map PendingNotice.id).Nodup := by
  rw [addPendingNotice, List.map_append, List.nodup_append]
  rintro ⟨-, -, hdisjoint⟩
  exact hdisjoint pn.id h pn.id (by simp) rfl

/-- A step that puts a second notice of an id into the queue shows. -/
lemma unqueued_of_once {act : Act} (h : w'.Once) (hstep : step cfg w act = some w') :
    Unqueued w act := by
  cases act with
  | recover out =>
      obtain ⟨p, hp, hstep⟩ := Option.bind_eq_some_iff.1 hstep
      intro q hq pn hpn hwrite hin
      obtain rfl := Option.some.inj (hp.symm.trans hq)
      have hcases := recoverStep_cases hstep
      generalize p.stage = stage at hcases hpn
      cases hcases with
      | delivered loop sent rest pn' d =>
          cases loop with
          | flush => cases hpn
          | reconcile =>
              cases d with
              | appending => cases hpn
              | clearing => cases hpn
              | adding =>
                  obtain rfl := Option.some.inj hpn
                  have htwice := not_nodup_addPendingNotice hin
                  cases hout : out.write with
                  | unchanged => exact hwrite hout
                  | done =>
                      refine htwice ?_
                      have hfile := h.file
                      simpa [World.run, deliver, update, hout] using hfile
                  | replaced =>
                      refine htwice ?_
                      have hfile := h.file
                      simpa [World.run, deliver, update, hout] using hfile
      | _ => cases hpn
  | _ => trivial

omit [Runes] [EventCodec] in
/-- Nothing is queued, and INBOX has no notice. -/
structure World.Blank (w : World) : Prop extends w.Fresh where
  queue : w.queue = []
  inbox : w.inbox = []

omit [Runes] in
lemma World.Blank.kept (h : w.Blank) : w.Kept cfg [] where
  log := by rw [h.log]; rfl
  start := by simp [AtLineStart, h.log]
  nodup := List.nodup_nil
  stopped := fun _ => by
    rw [h.inbox, h.queue]
    exact ⟨⟨by simp, by simp, by simp, by simp, by simp, by simp⟩, by simp⟩
  running := by simp [h.process]

/-- What the ids are there for: whatever state writes, listings and appends fail, and wherever the
server stops, INBOX and the queue have each notice once. -/
def EachNoticeOnce (cfg : Config) : Prop :=
  ∀ (w₀ : World) (acts : List Act) (w : World), w₀.Blank → (∀ act ∈ acts, Fails act) →
    (∀ v ∈ Run.visits (step cfg) w₀ acts, v.Distinguishes cfg) →
    Run.run (step cfg) w₀ acts = some w → w.Once

/-- **A notice is single exactly where `Reconcile` queues none twice.**  In every run, INBOX and the
queue have each notice once in every state reached if and only if `Reconcile` never puts a notice
into the queue whose id the queue still holds. -/
theorem once_iff (hblank : w₀.Blank) (hfails : ∀ act ∈ acts, Fails act)
    (hdist : ∀ v ∈ Run.visits (step cfg) w₀ acts, v.Distinguishes cfg)
    (hrun : Run.run (step cfg) w₀ acts = some w) :
    (∀ v ∈ Run.visits (step cfg) w₀ acts, v.Once) ↔ Run.Meets (step cfg) Unqueued w₀ acts := by
  have hscope := (Run.meets_of_visits hdist).and (Run.meets_of_mem hfails)
  refine Run.forall_visits_iff_meets_of_run (I := fun v => ∃ logged, v.Kept cfg logged) ?_ ?_
    ⟨[], hblank.kept⟩ hscope hrun
  · rintro v act v' ⟨logged, hv⟩ ⟨⟨-, hnext⟩, hact⟩ hstep
    exact ⟨fun hunqueued => kept_step hv hact (hnext v' hstep) hunqueued hstep,
      fun honce => unqueued_of_once honce hstep⟩
  · rintro v ⟨logged, hv⟩
    exact hv.once

/-! ## The same change in the queue and in the log -/

omit [Runes] [EventCodec]

namespace Sample

def ok : Act := .recover {}

/-- An append that fails. -/
def noAppend : Outcome := { append := .failed }

/-- Rosa is added, and her notice is put into the queue; the append fails, and the server stops. -/
def announcedRun : List Act :=
  [.openData true, ok, ok, ok, addRosa, .record .done, .announce 0 {}, .announce 0 noAppend, .stop]

end Sample

/-- At the next start, INBOX can be listed and not appended to: `Flush` leaves the notice in the
queue, and `Reconcile` adds it again.  At the start after that, `Flush` appends both. -/
def twiceRun : List Act :=
  Sample.announcedRun ++
    [.openData true, Sample.ok, Sample.ok, .recover Sample.noAppend, Sample.ok, Sample.ok,
      Sample.ok, Sample.ok, Sample.ok, .recover Sample.noAppend, .stop] ++
    [.openData true, Sample.ok, Sample.ok, Sample.ok, Sample.ok, Sample.ok, Sample.ok, Sample.ok]

/-- At the next start nothing fails. -/
def singleRun : List Act :=
  Sample.announcedRun ++
    [.openData true, Sample.ok, Sample.ok, Sample.ok, Sample.ok, Sample.ok, Sample.ok, Sample.ok,
      Sample.ok, Sample.ok]

instance (cfg : Config) (w : World) : Decidable (w.Distinguishes cfg) :=
  inferInstanceAs (Decidable (∀ a ∈ w.contacts.changes, ∀ b ∈ w.contacts.changes, _ → _))

instance : DecidablePred Fails := fun act =>
  match act with
  | .announce _ o | .recover o => inferInstanceAs (Decidable (o.append ≠ .lost))
  | .record o => inferInstanceAs (Decidable (o = .done))
  | .delete _ => isFalse id
  | .openData _ | .stop | .commit .. | .abandon _ | .rewrite _ => isTrue trivial

/-- **A notice whose append fails at a start is appended twice at the next.** -/
theorem notice_appended_twice :
    ¬ @EachNoticeOnce Chaskiwasi.Sample.runes Chaskiwasi.Sample.codec Sample.config := by
  intro hclaim
  have heval : ((Run.run (@step Sample.config Chaskiwasi.Sample.runes Chaskiwasi.Sample.codec)
      Sample.fresh twiceRun).any fun w => decide (¬ w.inbox.Nodup)) = true := by
    decide +kernel
  have hdist : ∀ v ∈ Run.visits (@step Sample.config Chaskiwasi.Sample.runes
      Chaskiwasi.Sample.codec) Sample.fresh twiceRun, v.Distinguishes Sample.config := by
    decide +kernel
  obtain ⟨w, hrun, htwice⟩ := Run.exists_of_any heval
  have honce := hclaim Sample.fresh twiceRun w ⟨⟨rfl, rfl, rfl⟩, rfl, rfl⟩ (by decide) hdist hrun
  exact of_decide_eq_true htwice honce.inbox

/-- Where the next start appends it, the notice is single throughout. -/
theorem notice_appended_once :
    ∃ w, Run.run (@step Sample.config Chaskiwasi.Sample.runes Chaskiwasi.Sample.codec)
      Sample.fresh singleRun = some w ∧ w.inbox.length = 1 ∧ w.Once := by
  have heval : ((Run.run (@step Sample.config Chaskiwasi.Sample.runes Chaskiwasi.Sample.codec)
      Sample.fresh singleRun).any fun w => decide (w.inbox.length = 1)) = true := by
    decide +kernel
  obtain ⟨w, hrun, hone⟩ := Run.exists_of_any heval
  have hdist : ∀ v ∈ Run.visits (@step Sample.config Chaskiwasi.Sample.runes
      Chaskiwasi.Sample.codec) Sample.fresh singleRun, v.Distinguishes Sample.config := by
    decide +kernel
  have hmeets : Run.Meets (@step Sample.config Chaskiwasi.Sample.runes Chaskiwasi.Sample.codec)
      Unqueued Sample.fresh singleRun := by
    decide +kernel
  have honce := (@once_iff Sample.config w Sample.fresh singleRun Chaskiwasi.Sample.runes
    Chaskiwasi.Sample.codec ⟨⟨rfl, rfl, rfl⟩, rfl, rfl⟩ (by decide) hdist hrun).2 hmeets
  exact ⟨w, hrun, of_decide_eq_true hone, honce w (Run.mem_visits_of_run hrun)⟩

end Chaskiwasi.Notice
