import Chaskiwasi.Device.Compose
import Chaskiwasi.Outbound.Batch
import Chaskiwasi.Outbound.Replay
import Chaskiwasi.Sync.Body

/-!
# The size of the ack ring

Every letter the server has decided on leaves its local id in `state.json`, and the ids come from
whoever holds the bearer token.  The wire caps an id at 32 bytes.  The cap is checked when a letter
is validated, but a letter to nobody, to the system or to an inactive contact is decided before
that, and an id that is too long is itself a decision to record.

So the ring has at most 4096 entries in every run, but its ids are as long as those of the letters
that were brought (`small_iff`).
-/

namespace Chaskiwasi.Post.Bounded

open Chaskiwasi.Outbound.Letter

/-! ## The text of the ring -/

section Text

variable (stamp : ℤ → String)

def marshalEntry (e : AckEntry) : Json :=
  .obj [("local_id", .str e.localID), ("status", .str (Codec.ackText e.status)),
    ("at", .str (stamp e.at_))]

def marshalRing (r : AckRing) : Json :=
  .obj [("entries", if r.entries = [] then .null else .arr (r.entries.map (marshalEntry stamp)))]

end Text

/-- The bytes of a time in RFC 3339, with nanoseconds. -/
def timeBytes : ℕ := 35

/-- The bytes of an entry, at the most. -/
def entryBound : ℕ := 286

/-- The bytes of the ring, at the most. -/
def ringBound : ℕ := 12 + (1 + ackRingSize * (entryBound + 1))

/-- An entry with a local id within the wire cap. -/
structure SmallEntry (e : AckEntry) : Prop where
  localID_ne : e.localID ≠ ""
  localID_le : e.localID.utf8ByteSize ≤ maxLocalIDBytes
  status : Codec.parseAckStatus (Codec.ackText e.status) = some e.status

structure SmallRing (stamp : ℤ → String) (r : AckRing) : Prop where
  length_le : r.entries.length ≤ ackRingSize
  entries : ∀ e ∈ r.entries, SmallEntry e
  bytes_le : Codec.marshalledBytes (marshalRing stamp r) ≤ ringBound

/-- The ring in the file, and the one of the running process. -/
structure Small (stamp : ℤ → String) (w : World) : Prop where
  file : SmallRing stamp w.store.file.acks
  current : ∀ st, w.store.current = some st → SmallRing stamp st.acks

section Sizes

variable {stamp : ℤ → String} {r : AckRing} {e : AckEntry}

lemma marshalWeight_le (c : Char) : Codec.marshalWeight c ≤ 6 * c.utf8Size := by
  have hpos : 0 < c.utf8Size := Char.utf8Size_pos c
  rw [Codec.marshalWeight]
  split_ifs <;> omega

lemma marshalledTextBytes_le (s : String) : Codec.marshalledTextBytes s ≤ 6 * s.utf8ByteSize := by
  have hsize : s.utf8ByteSize = (s.toList.map Char.utf8Size).sum := by
    conv_lhs => rw [← String.ofList_toList (s := s), Device.utf8ByteSize_ofList]
  rw [Codec.marshalledTextBytes, hsize]
  induction s.toList with
  | nil => exact Nat.zero_le _
  | cons c cs ih =>
      have hweight := marshalWeight_le c
      rw [List.map_cons, List.map_cons, List.sum_cons, List.sum_cons]
      omega

lemma parseAckStatus_ackText (status : AckStatus) :
    Codec.parseAckStatus (Codec.ackText status) = some status := by
  cases status <;> decide

lemma ackText_le (status : AckStatus) :
    Codec.marshalledTextBytes (Codec.ackText status) ≤ 24 := by
  cases status <;> decide

lemma size_marshalEntry_le (hstamp : ∀ t, Codec.marshalledTextBytes (stamp t) ≤ timeBytes)
    (he : SmallEntry e) : Codec.marshalledBytes (marshalEntry stamp e) ≤ entryBound := by
  have hid : Json.quotedSize Codec.marshalEscape "local_id" = 10 := by decide
  have hstatus : Json.quotedSize Codec.marshalEscape "status" = 8 := by decide
  have hat : Json.quotedSize Codec.marshalEscape "at" = 4 := by decide
  have hidBytes := (marshalledTextBytes_le e.localID).trans
    (Nat.mul_le_mul_left 6 he.localID_le)
  have hstatusBytes := ackText_le e.status
  have hstampBytes := hstamp e.at_
  rw [Codec.marshalledBytes, marshalEntry, Json.size_obj _ (by simp)]
  simp only [List.map_cons, List.map_nil, List.sum_cons, List.sum_nil, Json.fieldSize, hid, hstatus,
    hat, Codec.size_marshalled_str]
  rw [maxLocalIDBytes] at hidBytes
  rw [timeBytes] at hstampBytes
  rw [entryBound]
  omega

/-- Where the entries are small, so is the text of the ring. -/
theorem size_marshalRing_le (hstamp : ∀ t, Codec.marshalledTextBytes (stamp t) ≤ timeBytes)
    (hlength : r.entries.length ≤ ackRingSize) (hentries : ∀ e ∈ r.entries, SmallEntry e) :
    Codec.marshalledBytes (marshalRing stamp r) ≤ ringBound := by
  have hname : Json.quotedSize Codec.marshalEscape "entries" = 9 := by decide
  have hsum : ∀ es : List AckEntry, (∀ e ∈ es, SmallEntry e) →
      ((es.map (marshalEntry stamp)).map fun x => x.size Codec.marshalEscape + 1).sum ≤
        es.length * (entryBound + 1) := by
    intro es hes
    induction es with
    | nil => exact Nat.zero_le _
    | cons e es ih =>
        rw [List.forall_mem_cons] at hes
        have hhead := size_marshalEntry_le hstamp hes.1
        have htail := ih hes.2
        rw [Codec.marshalledBytes] at hhead
        rw [List.map_cons, List.map_cons, List.sum_cons, List.length_cons, Nat.add_one_mul]
        omega
  have hle := Nat.mul_le_mul_right (entryBound + 1) hlength
  rw [Codec.marshalledBytes, marshalRing, Json.size_obj _ (by simp), ringBound]
  simp only [List.map_cons, List.map_nil, List.sum_cons, List.sum_nil, Json.fieldSize, hname]
  by_cases hempty : r.entries = []
  · have hnull : Json.null.size Codec.marshalEscape = 4 := by decide
    have hroom : ackRingSize * (entryBound + 1) = 1175552 := rfl
    rw [if_pos hempty, hnull]
    omega
  · have hes := hsum r.entries hentries
    rw [if_neg hempty, Json.size_arr _ (by simpa using hempty)]
    omega

end Sizes

/-! ## The letters at hand -/

/-- The letters that a handler has not decided on yet, or not recorded. -/
def pending (h : Handler) : List OutboundItem :=
  match h.stage with
  | .received => h.items
  | .looking _ rest _ => rest
  | .sending _ item rest _ => item :: rest
  | .recording _ item _ rest _ => item :: rest
  | .committing _ => []

/-- A letter whose local id is within the wire cap. -/
structure SmallItem (item : OutboundItem) : Prop where
  localID_ne : item.letter.localID ≠ ""
  localID_le : item.letter.localID.utf8ByteSize ≤ maxLocalIDBytes

/-- The ring is small, and will be. -/
structure Stays (stamp : ℤ → String) (w : World) : Prop where
  small : Small stamp w
  items : ∀ k h, w.handlers k = some h → ∀ item ∈ pending h, SmallItem item

/-- Every request is one of raw letters in `A`. -/
def Brings (A : Json → Prop) (_ : World) (act : Act) : Prop :=
  ∀ k items maxLetterChars now pututuCounterSeen,
    act = .request k items maxLetterChars now pututuCounterSeen →
      ∃ raws : List Json, raws.mapM decodeOutbound = some items ∧ ∀ raw ∈ raws, A raw

/-! ## Runs -/

section Runs

variable {stamp : ℤ → String} {r : AckRing} {e : AckEntry} {w v w' : World} {k : ℕ}

lemma SmallItem.entry {item : OutboundItem} (h : SmallItem item) (handler : Handler)
    (status : AckStatus) : SmallEntry (handler.entry item status) :=
  ⟨h.localID_ne, h.localID_le, parseAckStatus_ackText status⟩

lemma SmallRing.record (hstamp : ∀ t, Codec.marshalledTextBytes (stamp t) ≤ timeBytes)
    (h : SmallRing stamp r) (he : SmallEntry e) : SmallRing stamp (r.record e) := by
  have hlength : (r.record e).entries.length ≤ ackRingSize := by
    rw [AckRing.entries_record]
    exact Ring.length_push_le _ _ _
  have hentries : ∀ e' ∈ (r.record e).entries, SmallEntry e' := by
    intro e' he'
    rcases AckRing.mem_record he' with hold | rfl
    · exact h.entries e' hold
    · exact he
  exact ⟨hlength, hentries, size_marshalRing_le hstamp hlength hentries⟩

/-- A handler goes on with letters that are small, or ends. -/
lemma Stays.setHandler {s : Option Handler} (hsmall : Small stamp v)
    (hothers : ∀ j h, v.handlers j = some h → ∀ item ∈ pending h, SmallItem item)
    (hnew : ∀ h, s = some h → ∀ item ∈ pending h, SmallItem item) :
    Stays stamp (v.setHandler k s) := by
  refine ⟨⟨hsmall.file, hsmall.current⟩, fun j h hj => ?_⟩
  rcases World.handlers_cases hj with ⟨-, hs⟩ | ⟨-, hj⟩
  · exact hnew h hs
  · exact hothers j h hj

/-- **The step lemma of the small ring.**  What a handler records is a letter it had at hand. -/
lemma HandleStep.stays (hstamp : ∀ t, Codec.marshalledTextBytes (stamp t) ≤ timeBytes)
    (hw : Stays stamp w) {h : Handler} (hk : w.handlers k = some h) {io : HandlerIO} {stage : Stage}
    (hstage : h.stage = stage) (hstep : HandleStep w k h io stage w') : Stays stamp w' := by
  have hmine := hw.items k h hk
  have hgoto : ∀ (u : World) (next : Stage), Small stamp u → u.handlers = w.handlers →
      (∀ item ∈ pending { h with stage := next }, SmallItem item) →
      Stays stamp (u.setHandler k (some { h with stage := next })) := by
    intro u next hsmall hsame hnext
    refine Stays.setHandler hsmall (hsame ▸ hw.items) fun h' hh' => ?_
    obtain rfl := Option.some.inj hh'
    exact hnext
  have hend : ∀ u : World, Small stamp u → u.handlers = w.handlers →
      Stays stamp (u.setHandler k none) := fun u hsmall hsame =>
    Stays.setHandler hsmall (hsame ▸ hw.items) fun _ hnone => by cases hnone
  have hrecorded : ∀ item status st, SmallItem item → w.store.current = some st →
      SmallRing stamp (recordAck (h.entry item status) st).acks := fun item status st hitem hcur =>
    (hw.small.current st hcur).record hstamp (hitem.entry h status)
  unfold pending at hmine
  cases hstep with
  | ended => exact hend w hw.small rfl
  | empty hitems => exact hgoto w _ hw.small rfl fun item hitem => by cases hitem
  | snapshot st hcur =>
      rw [hstage] at hmine
      exact hgoto w _ hw.small rfl hmine
  | finished ring acks => exact hgoto w _ hw.small rfl fun item hitem => by cases hitem
  | replayed ring item rest acks e he =>
      rw [hstage] at hmine
      exact hgoto w _ hw.small rfl fun i hi => hmine i (List.mem_cons_of_mem _ hi)
  | fresh ring item rest acks hnone =>
      rw [hstage] at hmine
      exact hgoto w _ hw.small rfl hmine
  | decided ring item rest acks status log hlog =>
      rw [hstage] at hmine
      exact hgoto { w with log := log } _ ⟨hw.small.file, hw.small.current⟩ rfl hmine
  | unacked ring item rest acks log hlog =>
      rw [hstage] at hmine
      exact hgoto { w with log := log } _ ⟨hw.small.file, hw.small.current⟩ rfl
        fun i hi => hmine i (List.mem_cons_of_mem _ hi)
  | aborted ring item rest acks log hlog =>
      exact hend { w with log := log } ⟨hw.small.file, hw.small.current⟩ rfl
  | recorded ring item status rest acks st hcur =>
      rw [hstage] at hmine
      have hring := hrecorded item status st (hmine item List.mem_cons_self) hcur
      refine hgoto _ _ ⟨hring, fun st' hst' => ?_⟩ rfl
        fun i hi => hmine i (List.mem_cons_of_mem _ hi)
      obtain rfl := Option.some.inj hst'
      exact hring
  | replaced ring item status rest acks st hcur hwrite =>
      rw [hstage] at hmine
      exact hgoto _ _ ⟨hrecorded item status st (hmine item List.mem_cons_self) hcur,
        hw.small.current⟩ rfl fun i hi => hmine i (List.mem_cons_of_mem _ hi)
  | unrecorded ring item status rest acks hwrite =>
      rw [hstage] at hmine
      exact hgoto w _ hw.small rfl fun i hi => hmine i (List.mem_cons_of_mem _ hi)
  | responded acks st st' hcur hacks =>
      have hring : SmallRing stamp st'.acks := hacks ▸ hw.small.current st hcur
      refine hend _ ⟨hring, fun st'' hst'' => ?_⟩ rfl
      obtain rfl := Option.some.inj hst''
      exact hring
  | uncommitted acks st st' hcur hacks =>
      exact hend _ ⟨hacks ▸ hw.small.current st hcur, hw.small.current⟩ rfl

lemma smallItem_of_brings {A : Json → Prop}
    (hA : ∀ raw, A raw → ∀ item, decodeOutbound raw = some item →
      item.letter.localID.utf8ByteSize ≤ maxLocalIDBytes)
    {raws : List Json} {items : List OutboundItem} (h : raws.mapM decodeOutbound = some items)
    (hraws : ∀ raw ∈ raws, A raw) : ∀ item ∈ items, SmallItem item := by
  induction raws generalizing items with
  | nil =>
      obtain rfl := Option.some.inj h
      exact fun item hitem => by cases hitem
  | cons raw raws ih =>
      simp only [List.mapM_cons, Option.bind_eq_bind, Option.bind_eq_some_iff] at h
      obtain ⟨item, hitem, items, hitems, heq⟩ := h
      obtain rfl := Option.some.inj heq
      rw [List.forall_mem_cons] at hraws ⊢
      exact ⟨⟨(localID_of_decodeOutbound hitem).2, hA raw hraws.1 item hitem⟩,
        ih hitems hraws.2⟩

lemma step_stays [Graphemes] (hstamp : ∀ t, Codec.marshalledTextBytes (stamp t) ≤ timeBytes)
    {A : Json → Prop}
    (hA : ∀ raw, A raw → ∀ item, decodeOutbound raw = some item →
      item.letter.localID.utf8ByteSize ≤ maxLocalIDBytes)
    {act : Act} (hw : Stays stamp w) (hbrings : Brings A w act) (hstep : step w act = some w') :
    Stays stamp w' := by
  cases postStep_cases hstep with
  | opened hcur =>
      refine ⟨⟨hw.small.file, fun st hst => ?_⟩, hw.items⟩
      obtain rfl := Option.some.inj hst
      exact hw.small.file
  | stopped =>
      refine ⟨⟨hw.small.file, fun st hst => ?_⟩, fun j h hj => ?_⟩
      · cases hst
      · cases hj
  | contacts t => exact ⟨⟨hw.small.file, hw.small.current⟩, hw.items⟩
  | updated s o store ok hupd =>
      obtain ⟨st, hcur, ⟨-, -, rfl⟩ | ⟨-, -, rfl⟩ | ⟨-, -, rfl⟩⟩ := Store.update_cases hupd
      · refine ⟨⟨hw.small.current st hcur, fun st' hst' => ?_⟩, hw.items⟩
        obtain rfl := Option.some.inj hst'
        exact hw.small.current st hcur
      · exact hw
      · exact ⟨⟨hw.small.current st hcur, hw.small.current⟩, hw.items⟩
  | requested k items maxLetterChars now pututuCounterSeen hnone =>
      obtain ⟨raws, hitems, hraws⟩ := hbrings k items maxLetterChars now pututuCounterSeen rfl
      refine Stays.setHandler ⟨hw.small.file, hw.small.current⟩ hw.items fun h hh => ?_
      obtain rfl := Option.some.inj hh
      exact smallItem_of_brings hA hitems hraws
  | handled k io h w' hk hhandle =>
      exact HandleStep.stays hstamp hw hk rfl (handleStep_cases hhandle)

/-- A letter to nobody leaves its local id in the ring, however long it is. -/
lemma exists_run_long [Graphemes] (hrest : w.AtRest) {item : OutboundItem}
    (hnone : w.store.file.acks.lookup item.letter.localID = none) :
    ∃ acts v st, Run.run step w (.start :: .contacts Sample.noContacts ::
        .request 0 [item] 0 0 0 :: .handle 0 {} :: acts) = some v ∧
      (∀ act ∈ acts, ∃ f, act = .handle 0 f) ∧ v.store.current = some st ∧
      ∃ e ∈ st.acks.entries, e.localID = item.letter.localID := by
  let c : Outbound.Batch.Setting := ⟨Sample.noContacts, 0, 0⟩
  let h : Handler := ⟨[item], 0, 0, 0, .received⟩
  let u : World := ((({ w with store := w.store.opened, table := Sample.noContacts }.note
    (.opened w.store.file.acks)).note (.requested 0 [item])).setHandler 0
      (some { h with stage := .looking w.store.file.acks [item] [] }))
  have hstart : ∀ acts, Run.run step w (.start :: .contacts Sample.noContacts ::
      .request 0 [item] 0 0 0 :: .handle 0 {} :: acts) = Run.run step u acts := by
    intro acts
    have hsame : (fun j => if j = 0 then some { h with
        stage := .looking w.store.file.acks [item] [] } else
          if j = 0 then some h else none) = u.handlers := by
      funext j
      by_cases hj : j = 0 <;> simp [hj, u, hrest.handlers]
    simp only [Run.run, step, hrest.current, hrest.handlers, Option.bind_some, World.note,
      Store.opened, World.setHandler, if_true, handleStep, List.cons_ne_nil, if_false,
      Option.map_some]
    exact congrArg (fun hs => Run.run step { u with handlers := hs } acts) hsame
  have hone : Outbound.Batch.processOne c w.store.file.acks item {} = some
      (⟨item.letter.localID, submits Sample.noContacts {} item 0, some .rejectedUnknownContact⟩,
        some ⟨item.letter.localID, .rejectedUnknownContact, 0, item⟩) := by
    simp only [Outbound.Batch.processOne, hnone, c, Outbound.Batch.sendOne_noContacts]
  have hcur : u.store.current = some w.store.file := rfl
  have hk : u.handlers 0 = some { h with stage := .looking w.store.file.acks [item] [] } := rfl
  obtain ⟨acts, v, -, st, hrun, hacts, -, hcur, hacks, -⟩ :=
    Outbound.Batch.exists_run_processOne (c := c) (h := h) rfl rfl rfl hcur hk hone
  refine ⟨acts, v, st, by rw [hstart, hrun], hacts, hcur,
    ⟨item.letter.localID, .rejectedUnknownContact, 0, item⟩, ?_, rfl⟩
  rw [hacks]
  exact Ring.mem_push_self (by decide) _ _

/-- The ring is small in every state of every run on letters of a kind, exactly where no letter of
that kind has a local id longer than the wire cap. -/
theorem small_iff [Graphemes] (hstamp : ∀ t, Codec.marshalledTextBytes (stamp t) ≤ timeBytes)
    (A : Json → Prop) (hrest : w.AtRest) (hsmall : SmallRing stamp w.store.file.acks) :
    (∀ acts, Run.Meets step (Brings A) w acts → ∀ v ∈ Run.visits step w acts, Small stamp v) ↔
      ∀ raw, A raw → ∀ item, decodeOutbound raw = some item →
        item.letter.localID.utf8ByteSize ≤ maxLocalIDBytes := by
  constructor
  · intro hall raw hraw item hitem
    by_contra hlong
    have hnone : w.store.file.acks.lookup item.letter.localID = none := by
      rw [AckRing.lookup_eq_none_iff]
      exact fun e he heq => hlong (heq ▸ (hsmall.entries e he).localID_le)
    obtain ⟨acts, v, st, hrun, hacts, hcur, e, he, hid⟩ := exists_run_long hrest hnone
    have hbrings : Run.Meets step (Brings A) w (.start :: .contacts Sample.noContacts ::
        .request 0 [item] 0 0 0 :: .handle 0 {} :: acts) := by
      refine Run.meets_of_mem fun act hact k items maxLetterChars now seen hrequest => ?_
      simp only [List.mem_cons] at hact
      rcases hact with rfl | rfl | rfl | rfl | hact
      · cases hrequest
      · cases hrequest
      · cases hrequest
        exact ⟨[raw], by simp [hitem], List.forall_mem_singleton.2 hraw⟩
      · cases hrequest
      · obtain ⟨f, rfl⟩ := hacts act hact
        cases hrequest
    have hv := hall _ hbrings v (Run.mem_visits_of_run hrun)
    exact hlong (hid ▸ ((hv.current st hcur).entries e he).localID_le)
  · intro hA acts hacts v hv
    have hstays : Stays stamp w := by
      refine ⟨⟨hsmall, fun st hst => ?_⟩, fun k h hk => ?_⟩
      · rw [hrest.current] at hst
        cases hst
      · rw [hrest.handlers] at hk
        cases hk
    exact (Run.visits_invariant_of_meets
      (fun s act s' hs hbrings hstep => step_stays hstamp hA hs hbrings hstep) hstays hacts
      v hv).small

end Runs

/-! ## A local id of 33 bytes -/

/-- A time on the server. -/
def Sample.stamp : ℤ → String := fun _ => "2026-03-01T07:00:00Z"

lemma marshalledTextBytes_stamp (t : ℤ) :
    Codec.marshalledTextBytes (Sample.stamp t) ≤ timeBytes := by
  have hbytes : Codec.marshalledTextBytes "2026-03-01T07:00:00Z" ≤ 35 := by decide
  exact hbytes

lemma smallRing_empty : SmallRing Sample.stamp ⟨[]⟩ :=
  ⟨Nat.zero_le _, fun e he => (by cases he),
    size_marshalRing_le marshalledTextBytes_stamp (Nat.zero_le _) (fun e he => by cases he)⟩

theorem small_letter :
    SmallRing Sample.stamp Sample.post.store.file.acks ∧
      ∀ acts, Run.Meets (@step Sample.graphemes) (Brings (· = Outbound.Batch.Sample.letter))
          Sample.post acts →
        ∀ v ∈ Run.visits (@step Sample.graphemes) Sample.post acts, Small Sample.stamp v := by
  refine ⟨smallRing_empty, (@small_iff _ Sample.post Sample.graphemes marshalledTextBytes_stamp
    (· = Outbound.Batch.Sample.letter) atRest_post smallRing_empty).2 ?_⟩
  rintro raw rfl item hitem
  rw [(localID_of_decodeOutbound hitem).1]
  decide +kernel

/-- A letter to nobody, with a local id of 33 bytes. -/
def Sample.longLetter : Json := .obj [("local_id", .str "aaaaaaaaaaaaaaaaaaaaaaaaaaaaaaaaa")]

/-- The letter is acked as one to an unknown contact, and its local id is in the ring. -/
theorem long_id_not_small :
    ¬ ∀ acts, Run.Meets (@step Sample.graphemes) (Brings fun _ => True) Sample.post acts →
      ∀ v ∈ Run.visits (@step Sample.graphemes) Sample.post acts, Small Sample.stamp v := by
  intro hall
  let item : OutboundItem := ⟨⟨"aaaaaaaaaaaaaaaaaaaaaaaaaaaaaaaaa", "", "", ""⟩, false, 0⟩
  let acts : List Act := [.start, .request 0 [item] 100 0 0, Sample.handleOk 0, Sample.handleOk 0,
    Sample.handleOk 0, Sample.handleOk 0]
  have hbrings : Run.Meets (@step Sample.graphemes) (Brings fun _ => True) Sample.post acts := by
    refine Run.meets_of_mem fun act hact k items maxLetterChars now seen hrequest => ?_
    simp only [acts, List.mem_cons, List.not_mem_nil, or_false] at hact
    rcases hact with rfl | rfl | rfl | rfl | rfl | rfl
    · cases hrequest
    · cases hrequest
      exact ⟨[Sample.longLetter], by decide +kernel, fun _ _ => trivial⟩
    · cases hrequest
    · cases hrequest
    · cases hrequest
    · cases hrequest
  obtain ⟨v, hrun, hv⟩ := @Run.exists_of_any _ _ (@step Sample.graphemes) Sample.post acts
    (p := fun v => v.store.file.acks.entries.any fun e =>
      decide (maxLocalIDBytes < e.localID.utf8ByteSize)) (by decide +kernel)
  obtain ⟨e, he, hlong⟩ := List.any_eq_true.1 hv
  have hsmall := (hall acts hbrings v (Run.mem_visits_of_run hrun)).file.entries e he
  exact absurd hsmall.localID_le (not_le.2 (of_decide_eq_true hlong))

end Chaskiwasi.Post.Bounded
