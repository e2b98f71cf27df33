import Chaskiwasi.Outbound.Replay

/-!
# Requests that overlap

A handler consults a copy of the ack ring that it took when it reached the request's letters, and
nothing makes it look again.  Two handlers that carry the same letter can therefore both find no ack
for it, and both submit it.

`Agreed x e? w` is what holds as long as that does not happen: the published ring, every handler's
copy of it and every answer so far say the same about the local id `x`, namely `e?`; at most one
handler is on its way from an outcome to the ring; and at most one submission was accepted.  It
survives every step at which a handler submits the letter while nobody else has decided it (`Apart`)
and records another without pushing this one's ack out of the ring (`Roomy`).
-/

namespace Chaskiwasi.Post

variable {w w' v w₀ : World} {acts : List Act} {k : ℕ} {h : Handler} {io : HandlerIO} {x : String}

/-- A process runs, no request is in progress, and nothing is logged. -/
structure World.Idle (w : World) : Prop where
  current : ∃ st, w.store.current = some st
  handlers : ∀ k, w.handlers k = none
  log : w.log = []

/-- No crash, and no write of a handler that fails. -/
def Act.Calm : Act → Prop
  | .start | .stop => False
  | .handle _ io => io.write = .done
  | _ => True

/-! ## What is asked of the log -/

/-- A submission of a letter with this local id that SMTP took. -/
def Note.isAccepted (x : String) : Note → Bool
  | .submitted _ item true => item.letter.localID = x
  | _ => false

/-- How many times a letter with this local id was submitted successfully. -/
def accepted (x : String) (log : List Note) : ℕ := log.countP (Note.isAccepted x)

/-- The letter was submitted successfully at most once, and no two acks for it differ. -/
structure SentOnce (x : String) (w : World) : Prop where
  once : accepted x w.log ≤ 1
  agree : ∀ k items as j js bs, .responded k items as ∈ w.log → .responded j js bs ∈ w.log →
    ∀ e ∈ as, ∀ e' ∈ bs, e.localID = x → e'.localID = x → e.status = e'.status

/-- Every response to a request that carries the letter acks it. -/
def Answered (x : String) (w : World) : Prop :=
  ∀ k items as, .responded k items as ∈ w.log → (∃ item ∈ items, item.letter.localID = x) →
    ∃ e ∈ as, e.localID = x

/-! ## Where the steps of two handlers may fall -/

/-- The handler has an outcome for the local id that it has not recorded. -/
def Stage.Recording (x : String) (stage : Stage) : Prop :=
  ∃ ring item status rest acks, stage = .recording ring item status rest acks ∧
    item.letter.localID = x

/-- A handler processes the letter only while the published ring has no ack for it and nobody else
is about to record one. -/
def Apart (x : String) (w : World) : Act → Prop
  | .handle k _ => ∀ h ring item rest acks, w.handlers k = some h →
      h.stage = .sending ring item rest acks → item.letter.localID = x →
        (∀ st, w.store.current = some st → st.acks.lookup x = none) ∧
        ∀ j h', w.handlers j = some h' → ¬ h'.stage.Recording x
  | _ => True

/-- Recording another letter pushes no ack for this one out of the published ring or out of the
handler's copy. -/
def Roomy (x : String) (w : World) : Act → Prop
  | .handle k _ => ∀ h ring item status rest acks st, w.handlers k = some h →
      h.stage = .recording ring item status rest acks → w.store.current = some st →
      item.letter.localID ≠ x →
        (ring.record (h.entry item status)).lookup x = ring.lookup x ∧
        (st.acks.record (h.entry item status)).lookup x = st.acks.lookup x
  | _ => True

/-- The processing of the letter ends in a terminal status. -/
def AttemptEnds [Graphemes] (x : String) (w : World) : Act → Prop
  | .handle k io => ∀ h ring item rest acks, w.handlers k = some h →
      h.stage = .sending ring item rest acks → item.letter.localID = x →
        ∃ status, sendOne w.table io.send item h.maxLetterChars = .ok status
  | _ => True

/-- At most one send per local id, for any interleaving of requests without a crash or a failed
write. -/
def OneSendPerID [Graphemes] : Prop :=
  ∀ (x : String) (w₀ : World) (acts : List Act) (w : World), w₀.Idle → (∀ act ∈ acts, act.Calm) →
    Run.run step w₀ acts = some w →
      SentOnce x w ∧ (Run.Meets step (AttemptEnds x) w₀ acts → Answered x w)

/-! ## One answer for everybody -/

/-- Everything that answers for the local id answers `e?`. -/
structure Agreed (x : String) (e? : Option AckEntry) (w : World) : Prop where
  published : ∃ st, w.store.current = some st ∧ st.acks.lookup x = e?
  ring : ∀ k h, w.handlers k = some h → ∀ ring, h.stage.ring? = some ring →
    ∀ e, ring.lookup x = some e → e? = some e
  acks : ∀ k h, w.handlers k = some h → ∀ e ∈ h.stage.acks, e.localID = x → e? = some e
  answered : ∀ k items as, .responded k items as ∈ w.log → ∀ e ∈ as, e.localID = x → e? = some e
  one : ∀ j k h h', w.handlers j = some h → w.handlers k = some h' → h.stage.Recording x →
    h'.stage.Recording x → j = k
  recording : ∀ k h, w.handlers k = some h → h.stage.Recording x → e? = none
  sent : accepted x w.log ≤ 1
  unsent : e? = none → (∀ k h, w.handlers k = some h → ¬ h.stage.Recording x) →
    accepted x w.log = 0

variable {e? : Option AckEntry}

/-- A step that leaves the count and the answers for the local id as they are, by a handler that is
recording nothing for it, neither before nor after. -/
lemma Agreed.setHandler (ha : Agreed x e? w) (hk : w.handlers k = some h)
    (hv : v.handlers = w.handlers)
    (hpublished : ∃ st, v.store.current = some st ∧ st.acks.lookup x = e?)
    (hsent : accepted x v.log = accepted x w.log)
    (hanswered : ∀ j items as, .responded j items as ∈ v.log → ∀ e ∈ as, e.localID = x →
      e? = some e)
    (hbefore : ¬ h.stage.Recording x) {s : Option Handler}
    (hring : ∀ h', s = some h' → ∀ ring, h'.stage.ring? = some ring →
      ∀ e, ring.lookup x = some e → e? = some e)
    (hacks : ∀ h', s = some h' → ∀ e ∈ h'.stage.acks, e.localID = x → e? = some e)
    (hafter : ∀ h', s = some h' → ¬ h'.stage.Recording x) :
    Agreed x e? (v.setHandler k s) := by
  have hcases : ∀ j h', (v.setHandler k s).handlers j = some h' →
      (j = k ∧ s = some h') ∨ w.handlers j = some h' := fun j h' hj =>
    (World.handlers_cases hj).imp_right fun hj' => hv ▸ hj'.2
  have hrecording : ∀ j h', (v.setHandler k s).handlers j = some h' → h'.stage.Recording x →
      w.handlers j = some h' := by
    intro j h' hj hrec
    rcases hcases j h' hj with ⟨-, hs⟩ | hj
    · exact absurd hrec (hafter h' hs)
    · exact hj
  refine ⟨hpublished, fun j h' hj => ?_, fun j h' hj => ?_, hanswered,
    fun i j h' h'' hi hj hri hrj => ?_, fun j h' hj hrec => ?_, hsent ▸ ha.sent,
    fun hnone hidle => ?_⟩
  · rcases hcases j h' hj with ⟨-, hs⟩ | hj
    · exact hring h' hs
    · exact ha.ring j h' hj
  · rcases hcases j h' hj with ⟨-, hs⟩ | hj
    · exact hacks h' hs
    · exact ha.acks j h' hj
  · exact ha.one i j h' h'' (hrecording i h' hi hri) (hrecording j h'' hj hrj) hri hrj
  · exact ha.recording j h' (hrecording j h' hj hrec) hrec
  · show accepted x v.log = 0
    rw [hsent]
    refine ha.unsent hnone fun j h' hj hrec => ?_
    by_cases hjk : j = k
    · subst hjk
      obtain rfl := Option.some.inj (hk.symm.trans hj)
      exact hbefore hrec
    · exact hidle j h' (by simpa [hjk, hv] using hj) hrec

/-- A handler that goes on, with the store as it was. -/
lemma Agreed.goto (ha : Agreed x e? w) (hk : w.handlers k = some h) {log : List Note}
    (hsent : accepted x log = accepted x w.log)
    (hanswered : ∀ j items as, .responded j items as ∈ log → .responded j items as ∈ w.log)
    (hbefore : ¬ h.stage.Recording x) (stage : Stage)
    (hring : ∀ ring, stage.ring? = some ring → ∀ e, ring.lookup x = some e → e? = some e)
    (hacks : ∀ e ∈ stage.acks, e.localID = x → e? = some e) (hafter : ¬ stage.Recording x) :
    Agreed x e? ({ w with log := log }.setHandler k (some { h with stage := stage })) := by
  refine ha.setHandler (v := { w with log := log }) hk rfl ha.published hsent
    (fun j items as hmem => ha.answered j items as (hanswered j items as hmem)) hbefore ?_ ?_ ?_
  · intro h' heq
    obtain rfl := Option.some.inj heq
    exact hring
  · intro h' heq
    obtain rfl := Option.some.inj heq
    exact hacks
  · intro h' heq
    obtain rfl := Option.some.inj heq
    exact hafter

/-- A handler that ends. -/
lemma Agreed.end (ha : Agreed x e? w) (hk : w.handlers k = some h)
    (hv : v.handlers = w.handlers) (hcur : v.store.current = w.store.current)
    (hsent : accepted x v.log = accepted x w.log)
    (hanswered : ∀ j items as, .responded j items as ∈ v.log → .responded j items as ∈ w.log)
    (hbefore : ¬ h.stage.Recording x) : Agreed x e? (v.setHandler k none) :=
  ha.setHandler hk hv (hcur ▸ ha.published) hsent
    (fun j items as hmem => ha.answered j items as (hanswered j items as hmem)) hbefore
    (by simp) (by simp) (by simp)

lemma Processed.responded_mem {item : OutboundItem} {n : Note} {log : List Note}
    (hlog : Processed k item w n log) (hn : ∀ j items as, n ≠ .responded j items as) {j : ℕ}
    {items : List OutboundItem} {as : List AckEntry} (hmem : .responded j items as ∈ log) :
    .responded j items as ∈ w.log := by
  rcases hlog with ⟨rfl, -⟩ | ⟨took, rfl, -⟩
  · exact (List.mem_cons.1 hmem).resolve_left fun heq => hn j items as heq.symm
  · have hmem := (List.mem_cons.1 hmem).resolve_left fun heq => hn j items as heq.symm
    exact (List.mem_cons.1 hmem).resolve_left (by simp)

/-- What the processing of a letter adds to the count. -/
lemma Processed.accepted_eq {item : OutboundItem} {n : Note} {log : List Note}
    (hlog : Processed k item w n log) (hn : n.isAccepted x = false) :
    accepted x log ≤ accepted x w.log + 1 ∧
      (item.letter.localID ≠ x ∨ n = .failed k item → accepted x log = accepted x w.log) := by
  rcases hlog with ⟨rfl, -⟩ | ⟨took, rfl, htook⟩
  · exact ⟨by simp [accepted, hn], by simp [accepted, hn]⟩
  · refine ⟨?_, fun hother => ?_⟩
    · unfold accepted
      rw [List.countP_cons, List.countP_cons, hn]
      split_ifs <;> simp_all
    · have hzero : Note.isAccepted x (.submitted k item took) = false := by
        cases took with
        | false => rfl
        | true =>
            rcases hother with hne | rfl
            · simpa [Note.isAccepted] using hne
            · exact absurd (htook.1 rfl) (by simp)
      simp [accepted, hn, hzero]

/-- The letter's outcome is recorded: from then on everybody answers with it. -/
lemma Agreed.record (ha : Agreed x none w) (hk : w.handlers k = some h)
    (hrec : h.stage.Recording x) (hv : v.handlers = w.handlers) {e : AckEntry}
    (hpublished : ∃ st, v.store.current = some st ∧ st.acks.lookup x = some e)
    (hlog : v.log = .recorded e :: w.log) {h' : Handler} {ring : AckRing}
    {rest : List OutboundItem} {acks : List AckEntry} (hstage : h'.stage = .looking ring rest acks)
    (hring : ring.lookup x = some e) (hacks : ∀ e' ∈ acks, e'.localID = x → e' = e) :
    Agreed x (some e) (v.setHandler k (some h')) := by
  have hquiet : ∀ {j h''}, (v.setHandler k (some h')).handlers j = some h'' →
      ¬ h''.stage.Recording x := by
    intro j h'' hj hrec'
    rcases World.handlers_cases hj with ⟨-, heq⟩ | ⟨hjk, hj⟩
    · obtain rfl := Option.some.inj heq
      obtain ⟨_, _, _, _, _, heq, -⟩ := hrec'
      rw [hstage] at heq
      cases heq
    · exact hjk (ha.one j k h'' h (hv ▸ hj) hk hrec' hrec)
  refine ⟨hpublished, fun j h'' hj ring' hring' e' he' => ?_, fun j h'' hj e' hmem hx => ?_,
    fun j items as hmem e' he' hx => ?_, fun i j h'' _ hi _ hrec' => absurd hrec' (hquiet hi),
    fun j h'' hj hrec' => absurd hrec' (hquiet hj), ?_, by simp⟩
  · rcases World.handlers_cases hj with ⟨-, heq⟩ | ⟨-, hj⟩
    · obtain rfl := Option.some.inj heq
      rw [hstage] at hring'
      obtain rfl := Option.some.inj hring'
      exact hring.symm.trans he'
    · cases ha.ring j h'' (hv ▸ hj) ring' hring' e' he'
  · rcases World.handlers_cases hj with ⟨-, heq⟩ | ⟨-, hj⟩
    · obtain rfl := Option.some.inj heq
      rw [hstage] at hmem
      rw [hacks e' hmem hx]
    · cases ha.acks j h'' (hv ▸ hj) e' hmem hx
  · have hmem : .responded j items as ∈ w.log := by simpa [hlog] using hmem
    cases ha.answered j items as hmem e' he' hx
  · show accepted x v.log ≤ 1
    rw [hlog]
    simpa [accepted, Note.isAccepted] using ha.sent

/-- **The step lemma.**  A step of a handler keeps everybody agreed, on what was agreed before or on
the ack it has just recorded. -/
lemma HandleStep.agreed (ha : Agreed x e? w) (hk : w.handlers k = some h)
    (hwrite : io.write = .done) (hapart : Apart x w (.handle k io))
    (hroomy : Roomy x w (.handle k io)) {stage : Stage} (hstage : h.stage = stage)
    (hstep : HandleStep w k h io stage w') : ∃ e?', Agreed x e?' w' := by
  have hring := ha.ring k h hk
  have hacks := ha.acks k h hk
  have hplain : (∀ ring item status rest acks, stage ≠ .recording ring item status rest acks) →
      ¬ h.stage.Recording x := by
    rintro hne ⟨ring, item, status, rest, acks, heq, -⟩
    exact hne ring item status rest acks (hstage.symm.trans heq)
  obtain ⟨published, hcurrent, hlook⟩ := ha.published
  cases hstep with
  | ended _ hwhere =>
      refine ⟨e?, ha.end hk rfl rfl rfl (fun _ _ _ hmem => hmem) (hplain ?_)⟩
      rcases hwhere with rfl | ⟨acks, rfl⟩ <;> simp
  | empty hitems =>
      exact ⟨e?, ha.goto hk rfl (fun _ _ _ hmem => hmem) (hplain (by simp)) _
        (by simp [Stage.ring?]) (by simp [Stage.acks]) (by simp [Stage.Recording])⟩
  | snapshot st hcur =>
      refine ⟨e?, ha.goto hk rfl (fun _ _ _ hmem => hmem) (hplain (by simp)) _ ?_
        (by simp [Stage.acks]) (by simp [Stage.Recording])⟩
      intro ring heq e he
      obtain rfl := Option.some.inj heq
      obtain rfl := Option.some.inj (hcurrent.symm.trans hcur)
      rw [← hlook, he]
  | finished ring acks =>
      refine ⟨e?, ha.goto hk rfl (fun _ _ _ hmem => hmem) (hplain (by simp)) _
        (by simp [Stage.ring?]) ?_ (by simp [Stage.Recording])⟩
      simpa [hstage, Stage.acks] using hacks
  | replayed ring item rest acks e he =>
      have hring' : h.stage.ring? = some ring := by rw [hstage]; rfl
      refine ⟨e?, ha.goto hk rfl (fun _ _ _ hmem => hmem) (hplain (by simp)) _ ?_ ?_
        (by simp [Stage.Recording])⟩
      · simpa [hstage, Stage.ring?] using hring
      · intro e' hmem hid
        rcases List.mem_append.1 hmem with hmem | hmem
        · exact hacks e' (by rw [hstage]; exact hmem) hid
        · obtain rfl := List.mem_singleton.1 hmem
          refine hring ring hring' e' ?_
          rw [← hid, (AckRing.localID_of_lookup he).2, he]
  | fresh ring item rest acks hnone =>
      refine ⟨e?, ha.goto hk rfl (fun _ _ _ hmem => hmem) (hplain (by simp)) _ ?_ ?_
        (by simp [Stage.Recording])⟩
      · simpa [hstage, Stage.ring?] using hring
      · simpa [hstage, Stage.acks] using hacks
  | decided ring item rest acks status log hlog =>
      obtain ⟨hle, hother⟩ := hlog.accepted_eq (x := x) rfl
      by_cases hid : item.letter.localID = x
      · -- Nobody has decided the letter, so nothing was accepted and nothing is answered for it.
        obtain ⟨hnone, hidle⟩ := hapart h ring item rest acks hk hstage hid
        have heq : e? = none := hlook.symm.trans (hnone published hcurrent)
        have hzero := ha.unsent heq hidle
        have hstill : ∀ j h', ({ w with log := log }.setHandler k
            (some { h with stage := .recording ring item status rest acks })).handlers j = some h' →
            h'.stage.Recording x → j = k := by
          intro j h' hj hrec
          by_contra hjk
          exact hidle j h' (by simpa [hjk] using hj) hrec
        refine ⟨e?, ha.published, fun j h' hj => ?_, fun j h' hj => ?_,
          fun j items as hmem => ha.answered j items as (hlog.responded_mem (by simp) hmem),
          fun i j h' h'' hi hj hri hrj => (hstill i h' hi hri).trans (hstill j h'' hj hrj).symm,
          fun _ _ _ _ => heq, ?_, fun _ hidle' => ?_⟩
        · by_cases hjk : j = k
          · have hself :
                some { h with stage := .recording ring item status rest acks } = some h' := by
              simpa [hjk] using hj
            obtain rfl := Option.some.inj hself
            simpa [hstage, Stage.ring?] using hring
          · exact ha.ring j h' (by simpa [hjk] using hj)
        · by_cases hjk : j = k
          · have hself :
                some { h with stage := .recording ring item status rest acks } = some h' := by
              simpa [hjk] using hj
            obtain rfl := Option.some.inj hself
            simpa [hstage, Stage.acks] using hacks
          · exact ha.acks j h' (by simpa [hjk] using hj)
        · show accepted x log ≤ 1
          omega
        · exact absurd ⟨ring, item, status, rest, acks, rfl, hid⟩
            (hidle' k { h with stage := .recording ring item status rest acks } (by simp))
      · refine ⟨e?, ha.goto hk (hother (Or.inl hid)) (fun _ _ _ => hlog.responded_mem (by simp))
          (hplain (by simp)) _ ?_ ?_ ?_⟩
        · simpa [hstage, Stage.ring?] using hring
        · simpa [hstage, Stage.acks] using hacks
        · rintro ⟨ring', item', status', rest', acks', heq, hid'⟩
          obtain ⟨-, rfl, -⟩ := Stage.recording.inj heq
          exact hid hid'
  | unacked ring item rest acks log hlog =>
      have hsame := (hlog.accepted_eq (x := x) rfl).2 (Or.inr rfl)
      refine ⟨e?, ha.goto hk hsame (fun _ _ _ => hlog.responded_mem (by simp)) (hplain (by simp)) _
        ?_ ?_ (by simp [Stage.Recording])⟩
      · simpa [hstage, Stage.ring?] using hring
      · simpa [hstage, Stage.acks] using hacks
  | aborted ring item rest acks log hlog =>
      have hsame := (hlog.accepted_eq (x := x) rfl).2 (Or.inr rfl)
      exact ⟨e?, ha.end hk rfl rfl hsame (fun _ _ _ => hlog.responded_mem (by simp))
        (hplain (by simp))⟩
  | recorded ring item status rest acks st hcur =>
      obtain rfl := Option.some.inj (hcurrent.symm.trans hcur)
      have hring' : h.stage.ring? = some ring := by rw [hstage]; rfl
      let v : World := { w with store := ⟨recordAck (h.entry item status) published,
                                          some (recordAck (h.entry item status) published)⟩ }.note
        (.recorded (h.entry item status))
      have hsame : accepted x v.log = accepted x w.log := by
        simp [v, accepted, Note.isAccepted]
      by_cases hid : item.letter.localID = x
      · have hrec : h.stage.Recording x := ⟨ring, item, status, rest, acks, hstage, hid⟩
        obtain rfl := ha.recording k h hk hrec
        have hself : ∀ r : AckRing,
            (r.record (h.entry item status)).lookup x = some (h.entry item status) := by
          intro r
          rw [← hid]
          exact (AckRing.holds_record_self r (h.entry item status)).lookup_eq
        refine ⟨some (h.entry item status), ha.record (v := v) hk hrec rfl ⟨_, rfl, hself _⟩ rfl rfl
          (hself ring) fun e hmem hx => ?_⟩
        rcases List.mem_append.1 hmem with hmem | hmem
        · cases hacks e (by rw [hstage]; exact hmem) hx
        · exact List.mem_singleton.1 hmem
      · have hroom := hroomy h ring item status rest acks published hk hstage hcurrent hid
        have hbefore : ¬ h.stage.Recording x := by
          rintro ⟨ring', item', status', rest', acks', heq, hid'⟩
          obtain ⟨-, rfl, -⟩ := Stage.recording.inj (hstage.symm.trans heq)
          exact hid hid'
        refine ⟨e?, ha.setHandler (v := v) hk rfl ⟨_, rfl, hroom.2.trans hlook⟩ hsame ?_ hbefore
          ?_ ?_ ?_⟩
        · intro j items as hmem
          exact ha.answered j items as (by simpa [v] using hmem)
        · intro h' heq ring'' hring'' e he
          obtain rfl := Option.some.inj heq
          obtain rfl := Option.some.inj hring''
          exact hring ring hring' e (hroom.1.symm.trans he)
        · intro h' heq e hmem hx
          obtain rfl := Option.some.inj heq
          rcases List.mem_append.1 hmem with hmem | hmem
          · exact hacks e (by rw [hstage]; exact hmem) hx
          · rw [List.mem_singleton.1 hmem] at hx
            exact absurd hx hid
        · intro h' heq
          obtain rfl := Option.some.inj heq
          simp [Stage.Recording]
  | replaced ring item status rest acks st hcur hwrite' =>
      rw [hwrite] at hwrite'
      cases hwrite'
  | unrecorded ring item status rest acks hwrite' =>
      rw [hwrite] at hwrite'
      cases hwrite'
  | responded acks st st' hcur hst' =>
      obtain rfl := Option.some.inj (hcurrent.symm.trans hcur)
      let v : World := { w with store := ⟨st', some st'⟩ }.note (.responded k h.items acks)
      have hsame : accepted x v.log = accepted x w.log := by
        simp [v, accepted, Note.isAccepted]
      refine ⟨e?, ha.setHandler (v := v) hk rfl ⟨st', rfl, hst' ▸ hlook⟩ hsame ?_ (hplain (by simp))
        (by simp) (by simp) (by simp)⟩
      intro j items as hmem e he hx
      rcases List.mem_cons.1 hmem with heq | hmem
      · obtain ⟨-, -, rfl⟩ := Note.responded.inj heq
        exact hacks e (by rw [hstage]; exact he) hx
      · exact ha.answered j items as hmem e he hx
  | uncommitted acks st st' hcur hst' =>
      exact ⟨e?, ha.end hk rfl rfl rfl (fun _ _ _ hmem => hmem) (hplain (by simp))⟩

section Steps

variable [Graphemes]

theorem step_agreed (ha : Agreed x e? w) {act : Act} (hcalm : act.Calm) (hapart : Apart x w act)
    (hroomy : Roomy x w act) (hstep : step w act = some w') : ∃ e?', Agreed x e?' w' := by
  cases postStep_cases hstep with
  | opened | stopped => exact absurd hcalm id
  | contacts t =>
      exact ⟨e?, ha.published, ha.ring, ha.acks, ha.answered, ha.one, ha.recording, ha.sent,
        ha.unsent⟩
  | updated s o store ok hupd =>
      have hpublished : ∃ st, store.current = some st ∧ st.acks.lookup x = e? := by
        obtain ⟨st, hcur, hlook⟩ := ha.published
        obtain ⟨st', hcur', ⟨-, -, rfl⟩ | ⟨-, -, rfl⟩ | ⟨-, -, rfl⟩⟩ := Store.update_cases hupd
        · obtain rfl := Option.some.inj (hcur.symm.trans hcur')
          exact ⟨_, rfl, hlook⟩
        · exact ⟨st, hcur, hlook⟩
        · exact ⟨st, hcur, hlook⟩
      exact ⟨e?, hpublished, ha.ring, ha.acks, ha.answered, ha.one, ha.recording, ha.sent,
        ha.unsent⟩
  | requested k items maxLetterChars now pututuCounterSeen hnone =>
      have hcases : ∀ j h', ((w.note (.requested k items)).setHandler k
          (some ⟨items, maxLetterChars, now, pututuCounterSeen, .received⟩)).handlers j =
            some h' →
          h'.stage = .received ∨ w.handlers j = some h' := by
        intro j h' hj
        rcases World.handlers_cases hj with ⟨-, heq⟩ | ⟨-, hj⟩
        · exact Or.inl (Option.some.inj heq ▸ rfl)
        · exact Or.inr hj
      have hold : ∀ j h', ((w.note (.requested k items)).setHandler k
          (some ⟨items, maxLetterChars, now, pututuCounterSeen, .received⟩)).handlers j =
            some h' →
          h'.stage.Recording x → w.handlers j = some h' := by
        intro j h' hj hrec
        refine (hcases j h' hj).resolve_left fun hs => ?_
        obtain ⟨_, _, _, _, _, heq, -⟩ := hrec
        rw [hs] at heq
        cases heq
      refine ⟨e?, ha.published, fun j h' hj ring hring => ?_, fun j h' hj e he => ?_,
        fun j js as hmem => ha.answered j js as (by simpa using hmem),
        fun i j h' h'' hi hj hri hrj =>
          ha.one i j h' h'' (hold i h' hi hri) (hold j h'' hj hrj) hri hrj,
        fun j h' hj hrec => ha.recording j h' (hold j h' hj hrec) hrec, ?_, fun heq hidle => ?_⟩
      · rcases hcases j h' hj with hs | hj
        · rw [hs] at hring
          cases hring
        · exact ha.ring j h' hj ring hring
      · rcases hcases j h' hj with hs | hj
        · rw [hs] at he
          cases he
        · exact ha.acks j h' hj e he
      · show accepted x (.requested k items :: w.log) ≤ 1
        simpa [accepted, Note.isAccepted] using ha.sent
      · have hzero := ha.unsent heq fun j h' hj => hidle j h' (by
          have hjk : j ≠ k := by
            intro hjk
            rw [hjk, hnone] at hj
            cases hj
          simpa [hjk] using hj)
        show accepted x (.requested k items :: w.log) = 0
        simpa [accepted, Note.isAccepted] using hzero
  | handled k io h w' hk hstep =>
      exact (handleStep_cases hstep).agreed ha hk hcalm hapart hroomy rfl

end Steps

lemma Agreed.sentOnce (ha : Agreed x e? w) : SentOnce x w where
  once := ha.sent
  agree := by
    intro k items as j js bs hk hj e he e' he' hx hx'
    have heq := (ha.answered k items as hk e he hx).symm.trans (ha.answered j js bs hj e' he' hx')
    rw [Option.some.inj heq]

/-! ## Every request gets its ack -/

/-- A request that carries the letter has it before it, or has its ack. -/
def Handler.Covers (x : String) (h : Handler) : Prop :=
  (∃ item ∈ h.items, item.letter.localID = x) →
    (∃ item ∈ h.rest, item.letter.localID = x) ∨ ∃ e ∈ h.stage.acks, e.localID = x

/-- No request has lost the letter. -/
structure Covered (x : String) (w : World) : Prop where
  handlers : ∀ k h, w.handlers k = some h → h.Covers x
  answered : Answered x w

lemma Covered.setHandler (hc : Covered x w) (hv : v.handlers = w.handlers) {s : Option Handler}
    (hcovers : ∀ h, s = some h → h.Covers x) (hanswered : Answered x v) :
    Covered x (v.setHandler k s) where
  answered := hanswered
  handlers := by
    intro j h hj
    rcases World.handlers_cases hj with ⟨-, heq⟩ | ⟨-, hj⟩
    · exact hcovers h heq
    · exact hc.handlers j h (hv ▸ hj)

/-- A handler that goes on without an answer. -/
lemma Covered.goto (hc : Covered x w) (hk : w.handlers k = some h) (hv : v.handlers = w.handlers)
    (hlog : ∀ j items as, .responded j items as ∈ v.log → .responded j items as ∈ w.log)
    (stage : Stage)
    (hcovers : ((∃ item ∈ h.rest, item.letter.localID = x) ∨ ∃ e ∈ h.stage.acks, e.localID = x) →
      (∃ item ∈ { h with stage := stage }.rest, item.letter.localID = x) ∨
        ∃ e ∈ stage.acks, e.localID = x) :
    Covered x (v.setHandler k (some { h with stage := stage })) := by
  refine hc.setHandler hv (fun h' heq => ?_) fun j items as hmem =>
    hc.answered j items as (hlog j items as hmem)
  obtain rfl := Option.some.inj heq
  intro hitems
  exact hcovers (hc.handlers k h hk hitems)

lemma HandleStep.covered (hc : Covered x w) (hk : w.handlers k = some h)
    (hwrite : io.write = .done) {stage : Stage} (hstage : h.stage = stage)
    (hends : ∀ ring item rest acks, stage = .sending ring item rest acks →
      item.letter.localID = x →
      ∃ status, w'.handlers k = some { h with stage := .recording ring item status rest acks })
    (hstep : HandleStep w k h io stage w') : Covered x w' := by
  cases hstep with
  | ended => exact hc.setHandler rfl (by simp) hc.answered
  | empty hitems =>
      exact hc.setHandler rfl (fun h' heq => by
        obtain rfl := Option.some.inj heq
        rintro ⟨item, hmem, -⟩
        simp [hitems] at hmem) hc.answered
  | snapshot st hcur =>
      refine hc.goto hk rfl (fun _ _ _ hmem => hmem) _ ?_
      simp [Handler.rest, Stage.acks, hstage]
  | finished ring acks =>
      refine hc.goto hk rfl (fun _ _ _ hmem => hmem) _ ?_
      simp [Handler.rest, Stage.acks, hstage]
  | replayed ring item rest acks e he =>
      have hid := (AckRing.localID_of_lookup he).2
      refine hc.goto hk rfl (fun _ _ _ hmem => hmem) _ ?_
      simp only [Handler.rest, Stage.acks, hstage]
      rintro (⟨item', hmem, hx⟩ | ⟨e', hmem, hx⟩)
      · rcases List.mem_cons.1 hmem with rfl | hmem
        · exact Or.inr ⟨e, List.mem_append_right _ (List.mem_singleton_self e), hid.trans hx⟩
        · exact Or.inl ⟨item', hmem, hx⟩
      · exact Or.inr ⟨e', List.mem_append_left _ hmem, hx⟩
  | fresh ring item rest acks hnone =>
      refine hc.goto hk rfl (fun _ _ _ hmem => hmem) _ ?_
      simp [Handler.rest, Stage.acks, hstage]
  | decided ring item rest acks status log hlog =>
      refine hc.goto (v := { w with log := log }) hk rfl
        (fun j items as hmem => hlog.responded_mem (by simp) hmem) _ ?_
      simp [Handler.rest, Stage.acks, hstage]
  | unacked ring item rest acks log hlog =>
      have hne : item.letter.localID ≠ x := by
        intro hid
        obtain ⟨status, heq⟩ := hends ring item rest acks rfl hid
        simp at heq
      refine hc.goto (v := { w with log := log }) hk rfl
        (fun j items as hmem => hlog.responded_mem (by simp) hmem) _ ?_
      simp [Handler.rest, Stage.acks, hstage, hne]
  | aborted ring item rest acks log hlog =>
      exact hc.setHandler (v := { w with log := log }) rfl (by simp) fun j items as hmem =>
        hc.answered j items as (hlog.responded_mem (by simp) hmem)
  | recorded ring item status rest acks st hcur =>
      refine hc.goto (by exact hk) (by rfl) (fun j items as hmem => by simpa using hmem) _ ?_
      simp only [Handler.rest, Stage.acks, hstage]
      rintro (⟨item', hmem, hx⟩ | ⟨e', hmem, hx⟩)
      · rcases List.mem_cons.1 hmem with rfl | hmem
        · exact Or.inr ⟨h.entry item' status, by simp, hx⟩
        · exact Or.inl ⟨item', hmem, hx⟩
      · exact Or.inr ⟨e', List.mem_append_left _ hmem, hx⟩
  | replaced ring item status rest acks st hcur hwrite' =>
      rw [hwrite] at hwrite'
      cases hwrite'
  | unrecorded ring item status rest acks hwrite' =>
      rw [hwrite] at hwrite'
      cases hwrite'
  | responded acks st st' hcur hst' =>
      refine hc.setHandler (by rfl) (by simp) fun j items as hmem hitems => ?_
      rcases List.mem_cons.1 hmem with heq | hmem
      · obtain ⟨-, rfl, rfl⟩ := Note.responded.inj heq
        simpa [Handler.rest, Stage.acks, hstage] using hc.handlers k h hk hitems
      · exact hc.answered j items as hmem hitems
  | uncommitted acks st st' hcur hst' =>
      exact hc.setHandler (by rfl) (by simp) hc.answered

section Answers

variable [Graphemes]

lemma handleStep_recording {ring : AckRing} {item : OutboundItem} {rest : List OutboundItem}
    {acks : List AckEntry} {status : AckStatus} (hstage : h.stage = .sending ring item rest acks)
    (hsend : sendOne w.table io.send item h.maxLetterChars = .ok status)
    (hstep : handleStep w k h io = some w') :
    w'.handlers k = some { h with stage := .recording ring item status rest acks } := by
  unfold handleStep at hstep
  simp only [hstage, hsend] at hstep
  obtain rfl := Option.some.inj hstep
  simp

lemma step_covered (hc : Covered x w) {act : Act} (hcalm : act.Calm) (hends : AttemptEnds x w act)
    (hstep : step w act = some w') : Covered x w' := by
  cases postStep_cases hstep with
  | opened | stopped => exact absurd hcalm id
  | contacts | updated => exact ⟨hc.handlers, hc.answered⟩
  | requested k items maxLetterChars now pututuCounterSeen hnone =>
      refine hc.setHandler (v := w.note (.requested k items)) rfl (fun h' heq => ?_)
        fun j js as hmem => hc.answered j js as (by simpa using hmem)
      obtain rfl := Option.some.inj heq
      exact fun hitems => Or.inl hitems
  | handled k io h w' hk hstep =>
      refine (handleStep_cases hstep).covered hc hk hcalm rfl fun ring item rest acks hs hid => ?_
      obtain ⟨status, hsend⟩ := hends h ring item rest acks hk hs hid
      exact ⟨status, handleStep_recording hs hsend hstep⟩

end Answers

/-! ## Two requests with one letter -/

/-- The sample post office, with a process running. -/
def officeOpen : World := { Sample.post with store := ⟨{}, some {}⟩ }

lemma idle_officeOpen : officeOpen.Idle := ⟨⟨{}, rfl⟩, fun _ => rfl, rfl⟩

def letterOne : OutboundItem := Sample.toRosa "l-1" "hola" 1

/-- A second request arrives before the first has recorded its outcome. -/
def overlapRun : List Act :=
  [Sample.posts 0 [letterOne], Sample.handleOk 0, Sample.handleOk 0, Sample.posts 1 [letterOne],
    Sample.handleOk 1, Sample.handleOk 1, Sample.handleOk 0, Sample.handleOk 0, Sample.handleOk 0,
    Sample.handleOk 0, Sample.handleOk 1, Sample.handleOk 1, Sample.handleOk 1, Sample.handleOk 1]

lemma calm_overlapRun : ∀ act ∈ overlapRun, act.Calm := by
  simp [overlapRun, Act.Calm, Sample.posts, Sample.handleOk]

/-- A second request arrives early too, but takes its copy of the ring late. -/
def apartRun : List Act :=
  [Sample.posts 0 [letterOne], Sample.posts 1 [letterOne], Sample.handleOk 0, Sample.handleOk 0,
    Sample.handleOk 0, Sample.handleOk 0, Sample.handleOk 1, Sample.handleOk 1, Sample.handleOk 0,
    Sample.handleOk 0, Sample.handleOk 1, Sample.handleOk 1]

lemma calm_apartRun : ∀ act ∈ apartRun, act.Calm := by
  simp [apartRun, Act.Calm, Sample.posts, Sample.handleOk]

/-- What the conditions ask of a step of one of two handlers that carry nothing but this letter. -/
def apartCheck (w : World) : Act → Bool
  | .handle k io =>
      match w.handlers k with
      | none => true
      | some h =>
          match h.stage with
          | .sending _ item _ _ =>
              (w.store.current.all fun st => (st.acks.lookup "l-1").isNone) &&
                ([0, 1].all fun j => (w.handlers j).all fun h' =>
                  match h'.stage with
                  | .recording .. => false
                  | _ => true) &&
                (@sendOne Sample.graphemes w.table io.send item h.maxLetterChars).isOk
          | .recording _ item _ _ _ => item.letter.localID = "l-1"
          | _ => true
  | _ => true

lemma conditions_of_apartCheck {act : Act} (hw : ∀ k, 2 ≤ k → w.handlers k = none)
    (hcheck : apartCheck w act = true) :
    Apart "l-1" w act ∧ Roomy "l-1" w act ∧ @AttemptEnds Sample.graphemes "l-1" w act := by
  cases act with
  | handle k io =>
      refine ⟨?_, ?_, ?_⟩
      · intro h ring item rest acks hk hstage hid
        simp only [apartCheck, hk, hstage, Bool.and_eq_true] at hcheck
        refine ⟨fun st hcur => by simpa [hcur] using hcheck.1.1, fun j h' hj hrec => ?_⟩
        obtain ⟨_, _, _, _, _, heq, -⟩ := hrec
        have hidle := hcheck.1.2
        simp only [List.all_cons, List.all_nil, Bool.and_true, Bool.and_eq_true] at hidle
        rcases j with - | - | j
        · simp [hj, heq] at hidle
        · simp [hj, heq] at hidle
        · rw [hw (j + 2) (by omega)] at hj
          cases hj
      · intro h ring item status rest acks st hk hstage hcur hne
        simp only [apartCheck, hk, hstage] at hcheck
        exact absurd (of_decide_eq_true hcheck) hne
      · intro h ring item rest acks hk hstage hid
        simp only [apartCheck, hk, hstage, Bool.and_eq_true] at hcheck
        cases hsend : @sendOne Sample.graphemes w.table io.send item h.maxLetterChars with
        | ok status => exact ⟨status, rfl⟩
        | error err => simp [hsend, Except.isOk, Except.toBool] at hcheck
  | _ => exact ⟨trivial, trivial, trivial⟩

end Chaskiwasi.Post
