import Chaskiwasi.Device.Outbox
import Chaskiwasi.Outbound.Replay

/-!
# Whose letter an ack is for

A letter's identity, on the wire and in the server's ack ring, is its local id.  The device mints
local ids from a counter it never turns back, but the counter is a file on the letters partition,
and formatting that partition starts it again at one while the server still remembers what it
answered before.

A `Road.World` is the device's outbox and the server together, with the requests under way between
them.  `AllIn K w` says that every letter anything in it still refers to satisfies `K`.  Letters are
only copied from place to place, so the one step that can make a local id ambiguous is the one that
mints it (`FreshID`); while that never happens, an ack that removes an entry is for that entry's own
letter.
-/

namespace Chaskiwasi

/-! ## Letters within the server's reach -/

namespace Post

/-- An ack is for the letter whose processing it records, and that letter satisfies `K`. -/
def Own (K : OutboundItem → Prop) (e : AckEntry) : Prop :=
  e.localID = e.item.letter.localID ∧ K e.item

/-- Everything the server can still answer from satisfies `K`. -/
structure AllIn (K : OutboundItem → Prop) (w : World) : Prop where
  file : ∀ e ∈ w.store.file.acks.entries, Own K e
  current : ∀ st, w.store.current = some st → ∀ e ∈ st.acks.entries, Own K e
  rest : ∀ k h, w.handlers k = some h → ∀ item ∈ h.rest, K item
  ring : ∀ k h, w.handlers k = some h → ∀ ring, h.stage.ring? = some ring →
    ∀ e ∈ ring.entries, Own K e
  acks : ∀ k h, w.handlers k = some h → ∀ e ∈ h.stage.acks, Own K e

variable {K L : OutboundItem → Prop} {w w' v : World} {k : ℕ} {h : Handler} {io : HandlerIO}
  {e : AckEntry}

lemma Own.mono (he : Own K e) (hKL : ∀ i, K i → L i) : Own L e := ⟨he.1, hKL _ he.2⟩

lemma AllIn.mono (ha : AllIn K w) (hKL : ∀ i, K i → L i) : AllIn L w :=
  ⟨fun e he => (ha.file e he).mono hKL, fun st hst e he => (ha.current st hst e he).mono hKL,
    fun k h hk item hitem => hKL _ (ha.rest k h hk item hitem),
    fun k h hk ring hring e he => (ha.ring k h hk ring hring e he).mono hKL,
    fun k h hk e he => (ha.acks k h hk e he).mono hKL⟩

lemma AllIn.and (hK : AllIn K w) (hL : AllIn L w) : AllIn (fun i => K i ∧ L i) w :=
  ⟨fun e he => ⟨(hK.file e he).1, (hK.file e he).2, (hL.file e he).2⟩,
    fun st hst e he =>
      ⟨(hK.current st hst e he).1, (hK.current st hst e he).2, (hL.current st hst e he).2⟩,
    fun k h hk item hitem => ⟨hK.rest k h hk item hitem, hL.rest k h hk item hitem⟩,
    fun k h hk ring hring e he => ⟨(hK.ring k h hk ring hring e he).1,
      (hK.ring k h hk ring hring e he).2, (hL.ring k h hk ring hring e he).2⟩,
    fun k h hk e he =>
      ⟨(hK.acks k h hk e he).1, (hK.acks k h hk e he).2, (hL.acks k h hk e he).2⟩⟩

lemma AllIn.setHandler (ha : AllIn K v) {s : Option Handler}
    (hrest : ∀ h, s = some h → ∀ item ∈ h.rest, K item)
    (hring : ∀ h, s = some h → ∀ ring, h.stage.ring? = some ring → ∀ e ∈ ring.entries, Own K e)
    (hacks : ∀ h, s = some h → ∀ e ∈ h.stage.acks, Own K e) : AllIn K (v.setHandler k s) where
  file := ha.file
  current := ha.current
  rest := by
    intro j h hj
    rcases World.handlers_cases hj with ⟨-, heq⟩ | ⟨-, hj⟩
    · exact hrest h heq
    · exact ha.rest j h hj
  ring := by
    intro j h hj
    rcases World.handlers_cases hj with ⟨-, heq⟩ | ⟨-, hj⟩
    · exact hring h heq
    · exact ha.ring j h hj
  acks := by
    intro j h hj
    rcases World.handlers_cases hj with ⟨-, heq⟩ | ⟨-, hj⟩
    · exact hacks h heq
    · exact ha.acks j h hj

lemma AllIn.end (ha : AllIn K v) : AllIn K (v.setHandler k none) :=
  ha.setHandler (by simp) (by simp) (by simp)

/-- A handler that goes on. -/
lemma AllIn.goto (ha : AllIn K v) {stage : Stage}
    (hrest : ∀ item ∈ { h with stage := stage }.rest, K item)
    (hring : ∀ ring, stage.ring? = some ring → ∀ e ∈ ring.entries, Own K e)
    (hacks : ∀ e ∈ stage.acks, Own K e) :
    AllIn K (v.setHandler k (some { h with stage := stage })) := by
  refine ha.setHandler ?_ ?_ ?_
  · intro h' heq
    obtain rfl := Option.some.inj heq
    exact hrest
  · intro h' heq
    obtain rfl := Option.some.inj heq
    exact hring
  · intro h' heq
    obtain rfl := Option.some.inj heq
    exact hacks

lemma AllIn.withStore (ha : AllIn K w) (hv : v.handlers = w.handlers)
    (hfile : ∀ e ∈ v.store.file.acks.entries, Own K e)
    (hcur : ∀ st, v.store.current = some st → ∀ e ∈ st.acks.entries, Own K e) : AllIn K v :=
  ⟨hfile, hcur, hv ▸ ha.rest, hv ▸ ha.ring, hv ▸ ha.acks⟩

lemma own_record {r : AckRing} (hr : ∀ e ∈ r.entries, Own K e) (he : Own K e) :
    ∀ e' ∈ (r.record e).entries, Own K e' := by
  intro e' hmem
  rcases AckRing.mem_record hmem with hmem | rfl
  · exact hr e' hmem
  · exact he

lemma HandleStep.allIn (ha : AllIn K w) (hk : w.handlers k = some h) {stage : Stage}
    (hstage : h.stage = stage) (hstep : HandleStep w k h io stage w') : AllIn K w' := by
  have hrest := ha.rest k h hk
  have hring := ha.ring k h hk
  have hacks := ha.acks k h hk
  rw [hstage] at hring hacks
  simp only [Handler.rest, hstage] at hrest
  cases hstep with
  | ended => exact ha.end
  | empty => exact ha.goto (by simp [Handler.rest]) (by simp [Stage.ring?]) (by simp [Stage.acks])
  | snapshot st hcur =>
      refine ha.goto hrest (fun ring heq => ?_) (by simp [Stage.acks])
      obtain rfl := Option.some.inj heq
      exact ha.current st hcur
  | finished ring acks => exact ha.goto (by simp [Handler.rest]) (by simp [Stage.ring?]) hacks
  | replayed ring item rest acks e he =>
      refine ha.goto (fun i hi => hrest i (List.mem_cons_of_mem _ hi)) hring fun e' hmem => ?_
      rcases List.mem_append.1 hmem with hmem | hmem
      · exact hacks e' hmem
      · rw [List.mem_singleton.1 hmem]
        exact hring ring rfl e (AckRing.localID_of_lookup he).1
  | fresh ring item rest acks hnone => exact ha.goto hrest hring hacks
  | decided ring item rest acks status log hlog =>
      have hnoted := ha.withStore (v := { w with log := log }) rfl ha.file ha.current
      exact hnoted.goto hrest hring hacks
  | unacked ring item rest acks log hlog =>
      exact (ha.withStore (v := { w with log := log }) rfl ha.file ha.current).goto
        (fun i hi => hrest i (List.mem_cons_of_mem _ hi)) hring hacks
  | aborted ring item rest acks log hlog =>
      exact (ha.withStore (v := { w with log := log }) rfl ha.file ha.current).end
  | recorded ring item status rest acks st hcur =>
      have hentry : Own K (h.entry item status) := ⟨rfl, hrest item (List.mem_cons_self ..)⟩
      have hstored := own_record (ha.current st hcur) hentry
      let v : World := { w with store := ⟨recordAck (h.entry item status) st,
                                          some (recordAck (h.entry item status) st)⟩ }.note
        (.recorded (h.entry item status))
      refine (ha.withStore (v := v) rfl hstored fun st' heq => ?_).goto
        (fun i hi => hrest i (List.mem_cons_of_mem _ hi)) (fun ring' heq => ?_) fun e hmem => ?_
      · obtain rfl := Option.some.inj heq
        exact hstored
      · obtain rfl := Option.some.inj heq
        exact own_record (hring ring rfl) hentry
      · rcases List.mem_append.1 hmem with hmem | hmem
        · exact hacks e hmem
        · rw [List.mem_singleton.1 hmem]
          exact hentry
  | replaced ring item status rest acks st hcur =>
      have hentry : Own K (h.entry item status) := ⟨rfl, hrest item (List.mem_cons_self ..)⟩
      let v : World := { w with store.file := recordAck (h.entry item status) st }.note
        (.replaced (h.entry item status))
      exact (ha.withStore (v := v) rfl (own_record (ha.current st hcur) hentry) ha.current).goto
        (fun i hi => hrest i (List.mem_cons_of_mem _ hi)) hring hacks
  | unrecorded ring item status rest acks =>
      exact ha.goto (fun i hi => hrest i (List.mem_cons_of_mem _ hi)) hring hacks
  | responded acks st st' hcur hst' =>
      have hstored : ∀ e ∈ st'.acks.entries, Own K e := hst' ▸ ha.current st hcur
      let v : World := { w with store := ⟨st', some st'⟩ }.note (.responded k h.items acks)
      refine (ha.withStore (v := v) rfl hstored fun s heq => ?_).end
      obtain rfl := Option.some.inj heq
      exact hstored
  | uncommitted acks st st' hcur hst' =>
      have hstored : ∀ e ∈ st'.acks.entries, Own K e := hst' ▸ ha.current st hcur
      exact (ha.withStore (v := { w with store.file := st' }) rfl hstored ha.current).end

section Steps

variable [Graphemes]

lemma step_allIn (ha : AllIn K w) {act : Act}
    (hnew : ∀ k items maxLetterChars now seen, act = .request k items maxLetterChars now seen →
      ∀ item ∈ items, K item) (hstep : step w act = some w') : AllIn K w' := by
  cases postStep_cases hstep with
  | opened hcur =>
      refine ha.withStore (by rfl) ha.file fun st heq => ?_
      obtain rfl := Option.some.inj heq
      exact ha.file
  | stopped =>
      exact ⟨ha.file, by simp, by simp, by simp, by simp⟩
  | contacts t =>
      exact ⟨ha.file, ha.current, ha.rest, ha.ring, ha.acks⟩
  | updated s o store ok hupd =>
      obtain ⟨st, hcur, ⟨-, -, rfl⟩ | ⟨-, -, rfl⟩ | ⟨-, -, rfl⟩⟩ := Store.update_cases hupd
      · refine ha.withStore (by rfl) (ha.current st hcur) fun st' heq => ?_
        obtain rfl := Option.some.inj heq
        exact ha.current st hcur
      · exact ha.withStore rfl ha.file ha.current
      · exact ha.withStore (by rfl) (ha.current st hcur) ha.current
  | requested k items maxLetterChars now seen hnone =>
      refine (ha.withStore (v := w.note (.requested k items)) rfl ha.file ha.current).setHandler
        ?_ ?_ ?_
      · intro h' heq
        obtain rfl := Option.some.inj heq
        exact hnew k items maxLetterChars now seen rfl
      · intro h' heq ring hring
        obtain rfl := Option.some.inj heq
        cases hring
      · intro h' heq e he
        obtain rfl := Option.some.inj heq
        cases he
  | handled k io h w' hk hstep => exact (handleStep_cases hstep).allIn ha hk rfl

/-- A letter decided as sent was taken by SMTP. -/
def SentTaken (log : List Note) : Prop :=
  ∀ k item, .decided k item .sent ∈ log → .submitted k item true ∈ log

lemma step_sentTaken (hw : SentTaken w.log) {act : Act} (hstep : step w act = some w') :
    SentTaken w'.log := by
  obtain ⟨new, hlog, -, hsent⟩ := step_logs hstep
  rw [hlog]
  intro k item hmem
  rcases List.mem_append.1 hmem with hmem | hmem
  · exact List.mem_append_left _ (hsent k item hmem)
  · exact List.mem_append_right _ (hw k item hmem)

end Steps
end Post

/-! ## The device and the server together -/

namespace Road

open Device

/-- What the device is doing. -/
inductive Phase
  | off
  | idle
  /-- Between the two writes of `Outbox::Add`. -/
  | adding (e : OutboxEntry)
  /-- Inside the transport's `Sync`, for request `k`; the answer may have come. -/
  | waiting (k : ℕ) (answer : Option (List AckEntry))
  /-- Resolving the acks of a response. -/
  | applying (acks : List AckEntry)
  deriving DecidableEq, Repr

structure World where
  outbox : Outbox
  phase : Phase
  /-- How many letters were composed. -/
  composed : ℕ
  /-- Requests under way, with their numbers. -/
  requests : List (ℕ × List OutboundItem)
  nextRequest : ℕ
  post : Post.World
  /-- The entries removed as sent, each with the ring entry behind the ack. -/
  removed : List (OutboxEntry × AckEntry)

inductive Act
  /-- The device starts; a partition that does not mount is formatted. -/
  | boot (mounted : Bool)
  | cut
  | reformat (ok : Bool)
  | compose (contactID subject body : String) (composedAt : ℤ) (o : WriteOutcome)
  /-- The second write of `Add`. -/
  | store (o : WriteOutcome)
  | discard (localID : String) (o : WriteOutcome)
  | sync
  /-- The transport fails, or its answer is not taken. -/
  | giveUp
  | receive
  | resolve (o : WriteOutcome)
  /-- A request under way is lost. -/
  | lose (i : ℕ)
  | deliver (i : ℕ) (maxLetterChars : ℤ) (now : ℤ) (pututuCounterSeen : ℕ)
  | server (act : Post.Act)

/-- The acks the device has been given and has not resolved. -/
def Phase.acks : Phase → List AckEntry
  | .waiting _ (some acks) | .applying acks => acks
  | .off | .idle | .adding _ | .waiting _ none => []

/-- The acks of a response to request `k`. -/
def answerTo (k : ℕ) : Post.Note → Option (List AckEntry)
  | .responded j _ acks => if j = k then some acks else none
  | _ => none

/-- A device that waits is given the response to its request, if the last step produced it. -/
def Phase.answered (phase : Phase) (new : List Post.Note) : Phase :=
  match phase with
  | .waiting k none => .waiting k (new.findSome? (answerTo k))
  | phase => phase

/-- The letters of `BuildRequest`. -/
def outbound (b : Outbox) : List OutboundItem := b.sendable.map OutboxEntry.item

/-- The entry `Add` makes. -/
def World.entry (w : World) (contactID subject body : String) (composedAt : ℤ) : OutboxEntry where
  localID := formatLocalID w.outbox.next
  contactID := contactID
  subject := subject
  body := body
  composedAt := composedAt
  composed := w.composed

/-- Applies the first of the remaining acks. -/
def World.resolve (w : World) (ack : AckEntry) (rest : List AckEntry) (o : WriteOutcome) : World :=
  let (b, ok) := w.outbox.resolve ack.localID (some ack.status) o
  { w with
    outbox := b
    phase := if ok then .applying rest else .idle
    removed :=
      match w.outbox.find? ack.localID with
      | some e =>
          if ack.status = .sent ∧ (ok || o.written) = true then (e, ack) :: w.removed else w.removed
      | none => w.removed }

def step [Graphemes] (w : World) (act : Act) : Option World :=
  match act, w.phase with
  | .boot mounted, .off =>
      some { w with outbox := (if mounted then w.outbox else .formatted).opened, phase := .idle }
  | .cut, _ => some { w with outbox := w.outbox.cut, phase := .off }
  | .reformat true, .idle => some { w with outbox := Outbox.formatted.opened }
  -- The stores are closed and stay closed.
  | .reformat false, .idle => some { w with outbox := w.outbox.cut, phase := .off }
  | .compose contactID subject body composedAt o, .idle =>
      if outboxCap ≤ w.outbox.sendableCount then some w
      else if o.ok then
        some { w with
               outbox := w.outbox.mint o
               composed := w.composed + 1
               phase := .adding (w.entry contactID subject body composedAt) }
      else some { w with outbox := w.outbox.mint o }
  | .store o, .adding e => some { w with outbox := w.outbox.insert e o, phase := .idle }
  | .discard localID o, .idle => some { w with outbox := (w.outbox.discard localID o).1 }
  | .sync, .idle =>
      some { w with
             phase := .waiting w.nextRequest none
             requests := w.requests ++ [(w.nextRequest, outbound w.outbox)]
             nextRequest := w.nextRequest + 1 }
  | .giveUp, .waiting _ _ => some { w with phase := .idle }
  | .receive, .waiting _ (some acks) => some { w with phase := .applying acks }
  | .resolve _, .applying [] => some { w with phase := .idle }
  | .resolve o, .applying (ack :: rest) => some (w.resolve ack rest o)
  | .lose i, _ => some { w with requests := w.requests.eraseIdx i }
  | .deliver i maxLetterChars now seen, _ =>
      match w.requests[i]? with
      | none => none
      | some (k, items) =>
          (Post.step w.post (.request k items maxLetterChars now seen)).map fun post =>
            { w with post := post, requests := w.requests.eraseIdx i }
  | .server (.request ..), _ => none
  | .server act, phase =>
      (Post.step w.post act).map fun post =>
        { w with
          post := post
          phase := phase.answered (post.log.take (post.log.length - w.post.log.length)) }
  | _, _ => none

/-- Nothing was composed or sent yet. -/
structure World.New (w : World) : Prop where
  outbox : w.outbox = .formatted
  phase : w.phase = .off
  requests : w.requests = []
  post : w.post.AtRest
  ring : w.post.store.file.acks.entries = []
  removed : w.removed = []

/-! ## Whose letter an ack is for -/

/-- Every letter that anything still refers to satisfies `K`. -/
structure AllIn (K : OutboundItem → Prop) (w : World) : Prop where
  outbox : w.outbox.AllIn K
  adding : ∀ e, w.phase = .adding e → K e.item
  acks : ∀ e ∈ w.phase.acks, Post.Own K e
  requests : ∀ r ∈ w.requests, ∀ item ∈ r.2, K item
  post : Post.AllIn K w.post

/-- No two letters share a local id. -/
def Unambiguous (K : OutboundItem → Prop) : Prop :=
  ∀ i j, K i → K j → i.letter.localID = j.letter.localID → i = j

/-- A local id is minted only when nothing refers to an earlier letter by it: not the outbox, no
request under way or being handled, no response, and not the server's ring. -/
def FreshID (w : World) : Act → Prop
  | .compose _ _ _ _ o => o.ok = true → w.outbox.sendableCount < outboxCap →
      AllIn (fun item => item.letter.localID ≠ formatLocalID w.outbox.next) w
  | _ => True

/-- Entries are removed as sent only by an ack whose submission was of their own letter. -/
def OwnLetterSent (w : World) : Prop :=
  ∀ e ack, (e, ack) ∈ w.removed →
    ack.item = e.item ∧ ∃ k, .submitted k e.item true ∈ w.post.log

variable {K L : OutboundItem → Prop} {w w' v : World}

lemma AllIn.mono (ha : AllIn K w) (hKL : ∀ i, K i → L i) : AllIn L w :=
  ⟨ha.outbox.mono hKL, fun e he => hKL _ (ha.adding e he), fun e he => (ha.acks e he).mono hKL,
    fun r hr item hitem => hKL _ (ha.requests r hr item hitem), ha.post.mono hKL⟩

lemma AllIn.and (hK : AllIn K w) (hL : AllIn L w) : AllIn (fun i => K i ∧ L i) w :=
  ⟨hK.outbox.and hL.outbox, fun e he => ⟨hK.adding e he, hL.adding e he⟩,
    fun e he => ⟨(hK.acks e he).1, (hK.acks e he).2, (hL.acks e he).2⟩,
    fun r hr item hitem => ⟨hK.requests r hr item hitem, hL.requests r hr item hitem⟩,
    hK.post.and hL.post⟩

/-- What the device is given by a step of the server is what a handler had to answer. -/
lemma Phase.mem_acks_answered {phase : Phase} {new : List Post.Note} {e : AckEntry}
    (he : e ∈ (phase.answered new).acks) :
    e ∈ phase.acks ∨ ∃ k items acks, .responded k items acks ∈ new ∧ e ∈ acks := by
  cases phase with
  | waiting k answer =>
      cases answer with
      | some acks => exact Or.inl he
      | none =>
          right
          simp only [Phase.answered] at he
          cases hfind : new.findSome? (answerTo k) with
          | none => simp [hfind, Phase.acks] at he
          | some acks =>
              obtain ⟨n, hn, hanswer⟩ := List.exists_of_findSome?_eq_some hfind
              cases n with
              | responded j items as =>
                  simp only [answerTo] at hanswer
                  split_ifs at hanswer
                  obtain rfl := Option.some.inj hanswer
                  exact ⟨j, items, as, hn, by simpa [hfind, Phase.acks] using he⟩
              | _ => simp [answerTo] at hanswer
  | _ => exact Or.inl he

lemma Phase.answered_eq_adding {phase : Phase} {new : List Post.Note} {e : OutboxEntry}
    (h : phase.answered new = .adding e) : phase = .adding e := by
  cases phase with
  | waiting k answer => cases answer <;> simp [Phase.answered] at h
  | adding e' => exact h
  | off | idle | applying acks => cases h

/-! ## What a step of both can do -/

/-- What one step can do, from the side of the letters: the server's part is a step of its own, and
the device's part either mints a local id, or resolves an ack, or copies. -/
inductive RoadStep [Graphemes] (w : World) : Act → World → Prop
  /-- The device does something else. -/
  | device (act : Act) (v : World) (hpost : v.post = w.post) (hremoved : v.removed = w.removed)
      (hreq : ∀ r ∈ v.requests, r ∈ w.requests ∨ ∃ k, r = (k, outbound w.outbox))
      (hout : ∀ K, w.outbox.AllIn K → (∀ e, w.phase = .adding e → K e.item) → v.outbox.AllIn K)
      (hadding : ∀ e, v.phase ≠ .adding e) (hacks : ∀ e ∈ v.phase.acks, e ∈ w.phase.acks) :
      RoadStep w act v
  | lost (act : Act) (i : ℕ) : RoadStep w act { w with requests := w.requests.eraseIdx i }
  | minted (contactID subject body : String) (composedAt : ℤ) (o : WriteOutcome)
      (hcap : w.outbox.sendableCount < outboxCap) (hok : o.ok = true) :
      RoadStep w (.compose contactID subject body composedAt o)
        { w with
          outbox := w.outbox.mint o
          composed := w.composed + 1
          phase := .adding (w.entry contactID subject body composedAt) }
  | resolved (ack : AckEntry) (rest : List AckEntry) (o : WriteOutcome)
      (hphase : w.phase = .applying (ack :: rest)) :
      RoadStep w (.resolve o) (w.resolve ack rest o)
  | delivered (i k : ℕ) (items : List OutboundItem) (maxLetterChars now : ℤ) (seen : ℕ)
      (post : Post.World) (hreq : (k, items) ∈ w.requests)
      (hstep : Post.step w.post (.request k items maxLetterChars now seen) = some post) :
      RoadStep w (.deliver i maxLetterChars now seen)
        { w with post := post, requests := w.requests.eraseIdx i }
  | served (act : Post.Act) (post : Post.World)
      (hact : ∀ k items maxLetterChars now seen, act ≠ .request k items maxLetterChars now seen)
      (hstep : Post.step w.post act = some post) :
      RoadStep w (.server act)
        { w with
          post := post
          phase := w.phase.answered (post.log.take (post.log.length - w.post.log.length)) }

section Cases

variable [Graphemes]

theorem step_cases {act : Act} (hstep : step w act = some w') : RoadStep w act w' := by
  unfold step at hstep
  split at hstep
  · obtain rfl := Option.some.inj hstep
    refine .device _ _ rfl rfl (fun r hr => Or.inl hr) (fun K hK _ => ?_) (by simp)
      (by simp [Phase.acks])
    split_ifs
    · exact hK.opened
    · exact Outbox.allIn_formatted.opened
  · obtain rfl := Option.some.inj hstep
    exact .device _ _ rfl rfl (fun r hr => Or.inl hr) (fun K hK _ => hK.cut) (by simp)
      (by simp [Phase.acks])
  next hphase =>
    obtain rfl := Option.some.inj hstep
    exact .device _ _ rfl rfl (fun r hr => Or.inl hr)
      (fun K _ _ => Outbox.allIn_formatted.opened) (by simp [hphase]) (by simp)
  · obtain rfl := Option.some.inj hstep
    exact .device _ _ rfl rfl (fun r hr => Or.inl hr) (fun K hK _ => hK.cut) (by simp)
      (by simp [Phase.acks])
  next contactID subject body composedAt o hphase =>
    split_ifs at hstep with hcap hok
    · obtain rfl := Option.some.inj hstep
      exact .device _ _ rfl rfl (fun r hr => Or.inl hr) (fun K hK _ => hK) (by simp [hphase])
        (by simp)
    · obtain rfl := Option.some.inj hstep
      exact .minted contactID subject body composedAt o (not_le.1 hcap) hok
    · obtain rfl := Option.some.inj hstep
      exact .device _ _ rfl rfl (fun r hr => Or.inl hr) (fun K hK _ => hK.mint) (by simp [hphase])
        (by simp)
  next o e hphase =>
    obtain rfl := Option.some.inj hstep
    exact .device _ _ rfl rfl (fun r hr => Or.inl hr)
      (fun K hK he => hK.insert (he e hphase)) (by simp) (by simp [Phase.acks])
  next localID o hphase =>
    obtain rfl := Option.some.inj hstep
    exact .device _ _ rfl rfl (fun r hr => Or.inl hr) (fun K hK _ => hK.discard) (by simp [hphase])
      (by simp)
  · obtain rfl := Option.some.inj hstep
    refine .device _ _ rfl rfl (fun r hr => ?_) (fun K hK _ => hK) (by simp) (by simp [Phase.acks])
    rcases List.mem_append.1 hr with hr | hr
    · exact Or.inl hr
    · exact Or.inr ⟨_, List.mem_singleton.1 hr⟩
  · obtain rfl := Option.some.inj hstep
    exact .device _ _ rfl rfl (fun r hr => Or.inl hr) (fun K hK _ => hK) (by simp)
      (by simp [Phase.acks])
  next k acks hphase =>
    obtain rfl := Option.some.inj hstep
    exact .device _ _ rfl rfl (fun r hr => Or.inl hr) (fun K hK _ => hK) (by simp)
      (by simp [hphase, Phase.acks])
  · obtain rfl := Option.some.inj hstep
    exact .device _ _ rfl rfl (fun r hr => Or.inl hr) (fun K hK _ => hK) (by simp)
      (by simp [Phase.acks])
  next o ack rest hphase =>
    obtain rfl := Option.some.inj hstep
    exact .resolved ack rest o hphase
  next i =>
    obtain rfl := Option.some.inj hstep
    exact .lost _ i
  next i maxLetterChars now seen =>
    split at hstep
    · cases hstep
    next k items hreq =>
      obtain ⟨post, hpost, rfl⟩ := Option.map_eq_some_iff.1 hstep
      exact .delivered i k items maxLetterChars now seen post (List.mem_of_getElem? hreq) hpost
  · cases hstep
  next act hact =>
    obtain ⟨post, hpost, rfl⟩ := Option.map_eq_some_iff.1 hstep
    exact .served act post hact hpost
  · cases hstep

end Cases

/-! ## No local id becomes ambiguous -/

/-- Letters are copied from place to place, and one is new where a local id is minted. -/
lemma RoadStep.allIn [Graphemes] (ha : AllIn K w) {act : Act} (hstep : RoadStep w act w')
    (hnew : ∀ contactID subject body composedAt o,
      act = .compose contactID subject body composedAt o → o.ok = true →
      w.outbox.sendableCount < outboxCap → K (w.entry contactID subject body composedAt).item) :
    AllIn K w' := by
  have hlater : ∀ {i : ℕ}, ∀ r ∈ w.requests.eraseIdx i, ∀ item ∈ r.2, K item :=
    fun r hr => ha.requests r (List.mem_of_mem_eraseIdx hr)
  cases hstep with
  | device act v hpost hremoved hreq hout hadding hacks =>
      refine ⟨hout K ha.outbox ha.adding, fun e he => absurd he (hadding e),
        fun e he => ha.acks e (hacks e he), fun r hr item hitem => ?_, hpost ▸ ha.post⟩
      rcases hreq r hr with hr | ⟨k, rfl⟩
      · exact ha.requests r hr item hitem
      · obtain ⟨e, he, rfl⟩ := List.mem_map.1 hitem
        exact ha.outbox.sendable e he
  | lost act i => exact ⟨ha.outbox, ha.adding, ha.acks, hlater, ha.post⟩
  | minted contactID subject body composedAt o hcap hok =>
      refine ⟨ha.outbox.mint, fun e he => ?_, by simp [Phase.acks], ha.requests, ha.post⟩
      obtain rfl := Phase.adding.inj he
      exact hnew _ _ _ _ o rfl hok hcap
  | resolved ack rest o hphase =>
      have hrest : ∀ e ∈ (w.resolve ack rest o).phase.acks, e ∈ rest := by
        intro e he
        simp only [World.resolve] at he
        split_ifs at he
        · exact he
        · cases he
      refine ⟨ha.outbox.resolve, fun e he => ?_, fun e he => ?_, ha.requests, ha.post⟩
      · simp only [World.resolve] at he
        split_ifs at he
      · exact ha.acks e (by rw [hphase]; exact List.mem_cons_of_mem _ (hrest e he))
  | delivered i k items maxLetterChars now seen post hreq hpost =>
      refine ⟨ha.outbox, ha.adding, ha.acks, hlater, Post.step_allIn ha.post ?_ hpost⟩
      intro j js _ _ _ heq item hitem
      obtain ⟨-, rfl, -, -, -⟩ := Post.Act.request.inj heq
      exact ha.requests (k, items) hreq item hitem
  | served act post hact hpost =>
      obtain ⟨new, hlog, hresponded, -⟩ := Post.step_logs hpost
      have hnew : post.log.take (post.log.length - w.post.log.length) = new := by simp [hlog]
      refine ⟨ha.outbox, fun e he => ha.adding e (Phase.answered_eq_adding he), fun e he => ?_,
        ha.requests,
        Post.step_allIn ha.post (fun k items _ _ _ heq => absurd heq (hact _ _ _ _ _)) hpost⟩
      dsimp only at he
      rw [hnew] at he
      rcases Phase.mem_acks_answered he with he | ⟨k, items, acks, hmem, he⟩
      · exact ha.acks e he
      · obtain ⟨j, h, hj, hstage⟩ := hresponded k items acks hmem
        exact ha.post.acks j h hj e (by rw [hstage]; exact he)

/-- What makes an ack speak for its own letter: no local id is ambiguous, every ack records a
decision on its letter, and nothing was removed otherwise. -/
structure Faithful (w : World) : Prop where
  unambiguous : ∃ K, Unambiguous K ∧ AllIn K w
  traced : Post.Traced (Post.Decided ⟨[]⟩) (Post.Decided ⟨[]⟩) w.post
  taken : Post.SentTaken w.post.log
  acks : ∀ e ∈ w.phase.acks, Post.Decided ⟨[]⟩ w.post.log e
  own : OwnLetterSent w

/-- A server that goes on: what its log says, it still says. -/
lemma decided_of_append {new log : List Post.Note} {e : AckEntry}
    (he : Post.Decided ⟨[]⟩ log e) : Post.Decided ⟨[]⟩ (new ++ log) e :=
  he.imp_right fun ⟨k, hk, hid⟩ => ⟨k, List.mem_append_right _ hk, hid⟩

lemma OwnLetterSent.later (hw : OwnLetterSent w) {new : List Post.Note}
    (hlog : v.post.log = new ++ w.post.log) (hremoved : v.removed = w.removed) :
    OwnLetterSent v := by
  intro e ack hmem
  obtain ⟨heq, k, hk⟩ := hw e ack (hremoved ▸ hmem)
  exact ⟨heq, k, hlog ▸ List.mem_append_right _ hk⟩

lemma Unambiguous.insert {x : String} {item : OutboundItem} (hK : Unambiguous K)
    (hitem : item.letter.localID = x) :
    Unambiguous fun i => K i ∧ i.letter.localID ≠ x ∨ i = item := by
  rintro i j (⟨hi, hix⟩ | rfl) (⟨hj, hjx⟩ | rfl) hid
  · exact hK i j hi hj hid
  · exact absurd (hid.trans hitem) hix
  · exact absurd (hid.symm.trans hitem) hjx
  · rfl

variable [Graphemes]

lemma step_unambiguous (hw : ∃ K, Unambiguous K ∧ AllIn K w) {act : Act} (hfresh : FreshID w act)
    (hstep : RoadStep w act w') : ∃ K, Unambiguous K ∧ AllIn K w' := by
  obtain ⟨K, hK, ha⟩ := hw
  by_cases hcompose : ∃ contactID subject body composedAt o,
      act = .compose contactID subject body composedAt o ∧ o.ok = true ∧
        w.outbox.sendableCount < outboxCap
  · obtain ⟨contactID, subject, body, composedAt, o, rfl, hok, hcap⟩ := hcompose
    have hid : (w.entry contactID subject body composedAt).item.letter.localID =
        formatLocalID w.outbox.next := rfl
    refine ⟨_, hK.insert hid, ?_⟩
    refine hstep.allIn ((ha.and (hfresh hok hcap)).mono fun i hi => Or.inl hi) ?_
    intro contactID' subject' body' composedAt' o' heq _ _
    obtain ⟨rfl, rfl, rfl, rfl, -⟩ := Act.compose.inj heq
    exact Or.inr rfl
  · refine ⟨K, hK, hstep.allIn ha fun contactID subject body composedAt o heq hok hcap => ?_⟩
    exact absurd ⟨contactID, subject, body, composedAt, o, heq, hok, hcap⟩ hcompose

omit [Graphemes] in
/-- An ack that removes an entry is for the entry's own letter, which SMTP took. -/
lemma Faithful.own_resolve (hw : Faithful w) {ack : AckEntry} {rest : List AckEntry}
    (o : WriteOutcome) (hphase : w.phase = .applying (ack :: rest)) :
    OwnLetterSent (w.resolve ack rest o) := by
  intro e ack' hmem
  simp only [World.resolve] at hmem
  split at hmem
  next e' hfind =>
    split_ifs at hmem with hsent
    · rcases List.mem_cons.1 hmem with heq | hmem
      · obtain ⟨rfl, rfl⟩ := Prod.mk.inj heq
        have hack : ack' ∈ w.phase.acks := by
          rw [hphase]
          exact List.mem_cons_self ..
        obtain ⟨K, hK, ha⟩ := hw.unambiguous
        obtain ⟨hentry, hid⟩ := Outbox.mem_of_find? hfind
        have hown := ha.acks ack' hack
        have heq : ack'.item = e.item :=
          hK _ _ hown.2 (ha.outbox.entries e hentry) (hown.1.symm.trans hid.symm)
        rcases hw.acks ack' hack with hinitial | ⟨k, hk, -⟩
        · cases hinitial
        · refine ⟨heq, k, hw.taken k e.item ?_⟩
          rw [← heq, ← hsent.1]
          exact hk
      · exact hw.own e ack' hmem
    · exact hw.own e ack' hmem
  · exact hw.own e ack' hmem

/-- Faithfulness is an invariant of every step that mints no local id in use. -/
theorem step_faithful (hw : Faithful w) {act : Act} (hfresh : FreshID w act)
    (hstep : step w act = some w') : Faithful w' := by
  have hcases := step_cases hstep
  have hunambiguous := step_unambiguous hw.unambiguous hfresh hcases
  cases hcases with
  | device act v hpost hremoved hreq hout hadding hacks =>
      refine ⟨hunambiguous, hpost ▸ hw.traced, hpost ▸ hw.taken, fun e he => ?_, ?_⟩
      · rw [hpost]
        exact hw.acks e (hacks e he)
      · have hlog : w'.post.log = [] ++ w.post.log := by rw [hpost]; rfl
        exact hw.own.later hlog hremoved
  | lost act i => exact ⟨hunambiguous, hw.traced, hw.taken, hw.acks, hw.own⟩
  | minted contactID subject body composedAt o hcap hok =>
      exact ⟨hunambiguous, hw.traced, hw.taken, by simp [Phase.acks], hw.own⟩
  | resolved ack rest o hphase =>
      refine ⟨hunambiguous, hw.traced, hw.taken, fun e he => ?_, hw.own_resolve o hphase⟩
      refine hw.acks e ?_
      rw [hphase]
      simp only [World.resolve] at he
      split_ifs at he
      · exact List.mem_cons_of_mem _ he
      · cases he
  | delivered i k items maxLetterChars now seen post hreq hpost =>
      obtain ⟨new, hlog, -⟩ := Post.step_logs hpost
      exact ⟨hunambiguous, Post.step_traced (Post.traceable_decided _) hw.traced hpost,
        Post.step_sentTaken hw.taken hpost,
        fun e he => hlog ▸ decided_of_append (hw.acks e he), hw.own.later hlog rfl⟩
  | served act post hact hpost =>
      obtain ⟨new, hlog, hresponded, -⟩ := Post.step_logs hpost
      have hnew : post.log.take (post.log.length - w.post.log.length) = new := by simp [hlog]
      refine ⟨hunambiguous, Post.step_traced (Post.traceable_decided _) hw.traced hpost,
        Post.step_sentTaken hw.taken hpost, fun e he => ?_, hw.own.later hlog rfl⟩
      dsimp only at he ⊢
      rw [hnew] at he
      rw [hlog]
      rcases Phase.mem_acks_answered he with he | ⟨k, items, acks, hmem, he⟩
      · exact decided_of_append (hw.acks e he)
      · obtain ⟨j, h, hj, hstage⟩ := hresponded k items acks hmem
        exact decided_of_append (hw.traced.acks j h hj e (by rw [hstage]; exact he))

omit [Graphemes] in
/-- At first nothing refers to any letter. -/
lemma World.New.allIn (hw : w.New) : AllIn K w where
  outbox := hw.outbox ▸ Outbox.allIn_formatted
  adding := by simp [hw.phase]
  acks := by simp [hw.phase, Phase.acks]
  requests := by simp [hw.requests]
  post := ⟨by simp [hw.ring], by simp [hw.post.current], by simp [hw.post.handlers],
    by simp [hw.post.handlers], by simp [hw.post.handlers]⟩

omit [Graphemes] in
lemma World.New.faithful (hw : w.New) : Faithful w where
  unambiguous := ⟨fun _ => False, by simp [Unambiguous], hw.allIn⟩
  traced := ⟨by simp [hw.ring], by simp [hw.post.current], by simp [hw.post.handlers],
    by simp [hw.post.handlers], by simp [hw.post.handlers],
    fun newer k items as older hlog => by simp [hw.post.log] at hlog⟩
  taken := by simp [Post.SentTaken, hw.post.log]
  acks := by simp [hw.phase, Phase.acks]
  own := by simp [OwnLetterSent, hw.removed]

/-- **A sent ack is for the letter that was sent**, in every run of the device and the server
together in which no local id is minted while anything still refers to an earlier letter by it: with
power cuts, failed writes, lost messages, restarts of the server and formatted partitions, an entry
is removed as sent only by an ack that records the processing of that entry's own letter, and SMTP
took that letter. -/
theorem own_letter_sent {w₀ : World} {acts : List Act} (hw : w₀.New)
    (hfresh : Run.Meets step FreshID w₀ acts) (hrun : Run.run step w₀ acts = some w) :
    OwnLetterSent w :=
  (Run.run_invariant_of_meets (fun _ _ _ hs ha hstep => step_faithful hs ha hstep) hw.faithful
    hfresh hrun).own

/-! ## A letter, a formatted partition, another letter -/

/-- A sent ack belongs to the letter that was sent, in every run. -/
def SentAckOwnLetter : Prop :=
  ∀ (w₀ : World) (acts : List Act) (w : World), w₀.New → Run.run step w₀ acts = some w →
    OwnLetterSent w

end Road

namespace Sample

/-- A new device, and the sample post office. -/
def road : Road.World where
  outbox := .formatted
  phase := .off
  composed := 0
  requests := []
  nextRequest := 0
  post := post
  removed := []

lemma new_road : road.New where
  outbox := rfl
  phase := rfl
  requests := rfl
  post := Post.atRest_post
  ring := rfl
  removed := rfl

end Sample

namespace Road

/-- A letter to Rosa is composed and sent with the next sync, which is number `k`. -/
def sends (k : ℕ) (body : String) : List Act :=
  [.compose "c_01" "" body 0 .done, .store .done, .sync, .deliver 0 100 0 0,
    .server (Sample.handleOk k), .server (Sample.handleOk k), .server (Sample.handleOk k),
    .server (Sample.handleOk k)]

/-- The rest of a sync whose letter was submitted. -/
def finishes (k : ℕ) : List Act :=
  [.server (Sample.handleOk k), .server (Sample.handleOk k), .receive, .resolve .done,
    .resolve .done]

/-- The partition is formatted between two letters. -/
def reformatRun : List Act :=
  [.boot true, .server .start] ++ sends 0 "hola" ++ finishes 0 ++ [.reformat true] ++
    sends 1 "chau" ++ [.receive, .resolve .done]

/-- The second letter has the local id of the first, is never submitted, and is removed as sent. -/
theorem reformat_loses_letter : ¬ @SentAckOwnLetter Sample.graphemes := by
  intro hclaim
  have heval : ((Run.run (@step Sample.graphemes) Sample.road reformatRun).any fun w =>
      w.removed.any fun (e, ack) => decide (ack.item ≠ e.item)) = true := by
    decide +kernel
  obtain ⟨w, hrun, hother⟩ := Run.exists_of_any heval
  obtain ⟨⟨e, ack⟩, hmem, hne⟩ := List.any_eq_true.1 hother
  exact of_decide_eq_true hne (hclaim Sample.road reformatRun w Sample.new_road hrun e ack hmem).1

/-- One letter, sent and acked. -/
theorem own_letter_sent_once :
    ∃ w, Run.run (@step Sample.graphemes) Sample.road
        ([.boot true, .server .start] ++ sends 0 "hola" ++ finishes 0) = some w ∧
      w.removed.length = 1 ∧ OwnLetterSent w := by
  have heval : ((Run.run (@step Sample.graphemes) Sample.road
      ([.boot true, .server .start] ++ sends 0 "hola" ++ finishes 0)).any fun w =>
        decide (w.removed.length = 1)) = true := by
    decide +kernel
  obtain ⟨w, hrun, hone⟩ := Run.exists_of_any heval
  have hfresh : Run.Meets (@step Sample.graphemes) FreshID Sample.road
      ([.boot true, .server .start] ++ sends 0 "hola" ++ finishes 0) := by
    refine ⟨trivial, fun s hs => ⟨trivial, fun s' hs' => ⟨fun _ _ => ?_, fun t _ => ?_⟩⟩⟩
    · -- Nothing refers to a letter yet.
      let _ := Sample.graphemes
      exact (step_cases hs').allIn ((step_cases hs).allIn Sample.new_road.allIn (by simp)) (by simp)
    · refine Run.Meets.imp (Run.meets_of_mem (C := fun act => ∀ s, FreshID s act) ?_)
        fun s act hact => hact s
      simp [finishes, FreshID]
  exact ⟨w, hrun, of_decide_eq_true hone,
    @own_letter_sent _ Sample.graphemes _ _ Sample.new_road hfresh hrun⟩

end Road
end Chaskiwasi
