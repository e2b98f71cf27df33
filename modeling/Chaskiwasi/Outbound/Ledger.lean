import Chaskiwasi.Outbound.Identity

/-!
# What becomes of a finished letter

A letter is finished when `Add` returns its local id.  From then on it is a file under `outbox/`,
and four hands reach that file: an ack, the child who discards it, whoever formats the partition,
and a write over it.

`Ledger` is the road with the letters that were finished, and with those whose files a discard or a
formatting took.  `kept_of_step` says of each file what a step leaves of it.  One that an ack took
is among the `removed` of the road, and what was removed was sent (`Faithful.own`); a write over a
file is of the same letter, since no local id is ambiguous.
-/

namespace Chaskiwasi

namespace Device.Outbox

variable {b : Outbox} {e : OutboxEntry}

/-- The letter has a file. -/
def HasFile (b : Outbox) (item : OutboundItem) : Prop := ∃ e ∈ b.files, e.item = item

instance (b : Outbox) (item : OutboundItem) : Decidable (b.HasFile item) :=
  inferInstanceAs (Decidable (∃ e ∈ b.files, _))

/-- A file that `Erase` took is the one it was asked to take. -/
lemma mem_erase (localID : String) (o : WriteOutcome) (he : e ∈ b.files) :
    e ∈ (b.erase localID o).1.files ∨
      e.localID = localID ∧ ((b.erase localID o).2 || o.written) = true := by
  have hother : e.localID ≠ localID → e ∈ b.files.filter fun e => decide (e.localID ≠ localID) :=
    fun hne => List.mem_filter.2 ⟨he, decide_eq_true hne⟩
  unfold Outbox.erase
  dsimp only
  by_cases hid : e.localID = localID
  · split_ifs with hnone hok hwritten
    · exact Or.inl he
    · exact Or.inr ⟨hid, rfl⟩
    · exact Or.inr ⟨hid, hwritten⟩
    · exact Or.inl he
  · left
    split_ifs
    · exact he
    · exact hother hid
    · exact hother hid
    · exact he

end Device.Outbox

namespace Road

open Device

variable {K : OutboundItem → Prop} {w w' : World} {e x : OutboxEntry} {o : WriteOutcome}

/-! ## What a step leaves of a file -/

lemma Unambiguous.item_eq (hK : Unambiguous K) (he : K e.item) (hx : K x.item)
    (hid : e.localID = x.localID) : e.item = x.item := hK _ _ he hx hid

/-- A write over a file is of the same letter. -/
lemma Unambiguous.holds_put (hK : Unambiguous K) {files : List OutboxEntry}
    (hfiles : ∀ e ∈ files, K e.item) (hx : K x.item) (he : e ∈ files) :
    ∃ e' ∈ Keyed.put OutboxEntry.localID x files, e'.item = e.item := by
  obtain ⟨e', he', hid⟩ : ∃ e' ∈ Keyed.put OutboxEntry.localID x files, e'.localID = e.localID :=
    Keyed.exists_mem_put x he
  refine ⟨e', he', ?_⟩
  rcases Keyed.mem_of_mem_put he' with rfl | hmem
  · exact hK.item_eq hx (hfiles e he) hid
  · exact hK.item_eq (hfiles e' hmem) (hfiles e he) hid

lemma Unambiguous.holds_insert (hK : Unambiguous K) {b : Outbox} (hb : b.AllIn K)
    (hx : K x.item) (he : e ∈ b.files) : (b.insert x o).HasFile e.item := by
  unfold Outbox.HasFile Outbox.insert
  dsimp only
  split_ifs
  · exact hK.holds_put hb.files hx he
  · exact ⟨e, he, rfl⟩

/-- An ack leaves every letter but the one it says was sent. -/
lemma Unambiguous.holds_resolve (hK : Unambiguous K) (ha : AllIn K w) (ack : AckEntry)
    (rest : List AckEntry) (he : e ∈ w.outbox.files) :
    (w.resolve ack rest o).outbox.HasFile e.item ∨
      ∃ x, (x, ack) ∈ (w.resolve ack rest o).removed ∧ x.item = e.item := by
  cases hfind : w.outbox.find? ack.localID with
  | none =>
      have hres : w.outbox.resolve ack.localID (some ack.status) o = (w.outbox, true) := by
        rw [Outbox.resolve, hfind]
      left
      simp only [World.resolve, hres]
      exact ⟨e, he, rfl⟩
  | some x =>
      obtain ⟨hx, hid⟩ := Outbox.mem_of_find? hfind
      by_cases hsent : ack.status = .sent
      · have hres : w.outbox.resolve ack.localID (some ack.status) o =
            w.outbox.erase ack.localID o := by
          rw [Outbox.resolve, hfind]
          exact if_pos (congrArg some hsent)
        have herase := Outbox.mem_erase ack.localID o he
        simp only [World.resolve, hres, hfind]
        rcases herase with hkept | ⟨htaken, hdone⟩
        · exact Or.inl ⟨e, hkept, rfl⟩
        · right
          refine ⟨x, ?_, ?_⟩
          · rw [if_pos ⟨hsent, hdone⟩]
            exact List.mem_cons_self
          · exact hK.item_eq (ha.outbox.entries x hx) (ha.outbox.files e he)
              (hid.trans htaken.symm)
      · left
        have hfiles : (w.resolve ack rest o).outbox.files =
            if o.written = true then
              Keyed.put OutboxEntry.localID (Outbox.reject (some ack.status) x) w.outbox.files
            else w.outbox.files := by
          simp only [World.resolve, Outbox.resolve, hfind]
          rw [if_neg fun h => hsent (Option.some.inj h)]
        unfold Outbox.HasFile
        rw [hfiles]
        split_ifs
        · have hreject : K (Outbox.reject (some ack.status) x).item := ha.outbox.entries x hx
          exact hK.holds_put ha.outbox.files hreject he
        · exact ⟨e, he, rfl⟩

/-- The child discards a letter, or the partition is formatted. -/
def Act.Takes : Act → Prop
  | .discard .. => True
  | .boot mounted => mounted = false
  | .reformat ok => ok = true
  | _ => False

/-- **What a step leaves of a file.**  The letter still has one; or somebody took it; or an ack
did, and it was removed as sent. -/
theorem kept_of_step [Graphemes] (hK : Unambiguous K) (ha : AllIn K w) {act : Act}
    (hstep : step w act = some w') (he : e ∈ w.outbox.files) :
    w'.outbox.HasFile e.item ∨ act.Takes ∨ ∃ x ack, (x, ack) ∈ w'.removed ∧ x.item = e.item := by
  have hsame : w.outbox.HasFile e.item := ⟨e, he, rfl⟩
  unfold step at hstep
  split at hstep
  next mounted hphase =>
    obtain rfl := Option.some.inj hstep
    cases mounted with
    | true => exact Or.inl hsame
    | false => exact Or.inr (Or.inl rfl)
  · obtain rfl := Option.some.inj hstep
    exact Or.inl hsame
  · exact Or.inr (Or.inl rfl)
  · obtain rfl := Option.some.inj hstep
    exact Or.inl hsame
  · split_ifs at hstep
    · obtain rfl := Option.some.inj hstep
      exact Or.inl hsame
    · obtain rfl := Option.some.inj hstep
      exact Or.inl hsame
    · obtain rfl := Option.some.inj hstep
      exact Or.inl hsame
  next o x hphase =>
    obtain rfl := Option.some.inj hstep
    exact Or.inl (hK.holds_insert ha.outbox (ha.adding x hphase) he)
  · exact Or.inr (Or.inl trivial)
  · obtain rfl := Option.some.inj hstep
    exact Or.inl hsame
  · obtain rfl := Option.some.inj hstep
    exact Or.inl hsame
  · obtain rfl := Option.some.inj hstep
    exact Or.inl hsame
  · obtain rfl := Option.some.inj hstep
    exact Or.inl hsame
  next o ack rest hphase =>
    obtain rfl := Option.some.inj hstep
    exact (hK.holds_resolve ha ack rest he).imp_right fun ⟨x, hx⟩ => Or.inr ⟨x, ack, hx⟩
  · obtain rfl := Option.some.inj hstep
    exact Or.inl hsame
  · split at hstep
    · cases hstep
    · obtain ⟨post, -, rfl⟩ := Option.map_eq_some_iff.1 hstep
      exact Or.inl hsame
  · cases hstep
  · obtain ⟨post, -, rfl⟩ := Option.map_eq_some_iff.1 hstep
    exact Or.inl hsame
  · cases hstep

/-- What the server's log says, it says for good. -/
lemma log_of_step [Graphemes] {act : Act} (hstep : step w act = some w') :
    ∃ new, w'.post.log = new ++ w.post.log := by
  cases step_cases hstep with
  | device act v hpost => exact ⟨[], by rw [hpost]; rfl⟩
  | lost act i => exact ⟨[], rfl⟩
  | minted contactID subject body composedAt o hcap hok => exact ⟨[], rfl⟩
  | resolved ack rest o hphase => exact ⟨[], rfl⟩
  | delivered i k items maxLetterChars now seen post hreq hpost =>
      obtain ⟨new, hlog, -⟩ := Post.step_logs hpost
      exact ⟨new, hlog⟩
  | served act post hact hpost =>
      obtain ⟨new, hlog, -⟩ := Post.step_logs hpost
      exact ⟨new, hlog⟩

/-! ## The ledger -/

/-- The road, and what became of the letters.  Nothing reads the two lists. -/
structure Ledger where
  road : World
  /-- The letters whose `Add` returned their local id. -/
  finished : List OutboundItem := []
  /-- The letters whose files a discard or a formatting took. -/
  taken : List OutboundItem := []

namespace Ledger

/-- The letters whose files are gone. -/
def gone (w w' : World) : List OutboundItem :=
  (w.outbox.files.map OutboxEntry.item).filter fun item => decide ¬ w'.outbox.HasFile item

/-- The letter that a step finishes. -/
def finishes (w : World) : Act → List OutboundItem
  | .store .done =>
      match w.phase with
      | .adding e => [e.item]
      | _ => []
  | _ => []

instance (act : Act) : Decidable act.Takes := by
  cases act <;> unfold Act.Takes <;> infer_instance

def step [Graphemes] (l : Ledger) (act : Act) : Option Ledger :=
  (Road.step l.road act).map fun w =>
    { road := w
      finished := finishes l.road act ++ l.finished
      taken := if act.Takes then gone l.road w ++ l.taken else l.taken }

/-- The letter has a file, or somebody took it, or SMTP did. -/
def Settled (l : Ledger) (item : OutboundItem) : Prop :=
  l.road.outbox.HasFile item ∨ item ∈ l.taken ∨ ∃ k, .submitted k item true ∈ l.road.post.log

structure Complete (l : Ledger) : Prop where
  faithful : Faithful l.road
  settled : ∀ item ∈ l.finished, l.Settled item

variable [Graphemes] {l l' l₀ : Ledger} {act : Act} {acts : List Act} {item : OutboundItem}

/-- A letter that is settled stays so. -/
lemma Complete.settled_step (h : l.Complete) (hw : Road.step l.road act = some w')
    (hown : OwnLetterSent w') (hitem : l.Settled item) :
    Settled ⟨w', finishes l.road act ++ l.finished,
      if act.Takes then gone l.road w' ++ l.taken else l.taken⟩ item := by
  have htaken : item ∈ l.taken →
      item ∈ if act.Takes then gone l.road w' ++ l.taken else l.taken := by
    intro hmem
    split_ifs
    · exact List.mem_append_right _ hmem
    · exact hmem
  rcases hitem with ⟨e, he, rfl⟩ | hmem | ⟨k, hk⟩
  · by_cases hholds : w'.outbox.HasFile e.item
    · exact Or.inl hholds
    · obtain ⟨K, hK, ha⟩ := h.faithful.unambiguous
      rcases kept_of_step hK ha hw he with hkept | htakes | ⟨x, ack, hx, hsame⟩
      · exact absurd hkept hholds
      · refine Or.inr (Or.inl ?_)
        dsimp only
        rw [if_pos htakes]
        refine List.mem_append_left _ (List.mem_filter.2 ⟨List.mem_map_of_mem he, ?_⟩)
        exact decide_eq_true hholds
      · obtain ⟨-, k, hk⟩ := hown x ack hx
        exact Or.inr (Or.inr ⟨k, hsame ▸ hk⟩)
  · exact Or.inr (Or.inl (htaken hmem))
  · obtain ⟨new, hlog⟩ := log_of_step hw
    refine Or.inr (Or.inr ⟨k, ?_⟩)
    dsimp only
    rw [hlog]
    exact List.mem_append_right _ hk

/-- A letter whose `Add` returns has its file. -/
lemma holds_of_finishes (hw : Road.step w act = some w') (hitem : item ∈ finishes w act) :
    w'.outbox.HasFile item := by
  unfold finishes at hitem
  split at hitem
  · split at hitem
    next e hphase =>
      obtain rfl := List.mem_singleton.1 hitem
      unfold Road.step at hw
      rw [hphase] at hw
      obtain rfl := Option.some.inj hw
      exact ⟨e, Keyed.mem_put_self _ _, rfl⟩
    · cases hitem
  · cases hitem

lemma Complete.step (h : l.Complete) (hfresh : FreshID l.road act)
    (hstep : Ledger.step l act = some l') : l'.Complete := by
  obtain ⟨w', hw, rfl⟩ := Option.map_eq_some_iff.1 hstep
  have hfaithful := step_faithful h.faithful hfresh hw
  refine ⟨hfaithful, fun item hitem => ?_⟩
  rcases List.mem_append.1 hitem with hitem | hitem
  · exact Or.inl (holds_of_finishes hw hitem)
  · exact h.settled_step hw hfaithful.own (h.settled item hitem)

/-- **No finished letter is lost.**  In every run of the device and the server together in which no
local id is minted while anything still refers to an earlier letter by it, with power cuts, failed
writes, lost messages and restarts: every letter whose `Add` returned is a file under `outbox/` with
the text it had, or was discarded or formatted away, or was taken by SMTP. -/
theorem finished_letter_settled (hw : l₀.road.New) (hnone : l₀.finished = [])
    (hfresh : Run.Meets Ledger.step (fun l act => FreshID l.road act) l₀ acts)
    (hrun : Run.run Ledger.step l₀ acts = some l) :
    ∀ item ∈ l.finished,
      (∃ e ∈ l.road.outbox.files, e.item = item) ∨ item ∈ l.taken ∨
        ∃ k, .submitted k item true ∈ l.road.post.log := by
  have hcomplete : l₀.Complete := ⟨hw.faithful, fun item hitem => by
    rw [hnone] at hitem
    cases hitem⟩
  exact (Run.run_invariant_of_meets (fun _ _ _ hs ha hstep => hs.step ha hstep) hcomplete hfresh
    hrun).settled

omit [Graphemes] in
/-- One letter, finished and sent. -/
theorem finished_letter_settled_sent :
    ∃ l, Run.run (@Ledger.step Sample.graphemes) ⟨Sample.road, [], []⟩
        ([.boot true, .server .start] ++ sends 0 "hola" ++ Road.finishes 0) = some l ∧
      (l.finished.length = 1 ∧ l.road.outbox.files = [] ∧ l.taken = []) ∧
      ∀ item ∈ l.finished,
        (∃ e ∈ l.road.outbox.files, e.item = item) ∨ item ∈ l.taken ∨
          ∃ k, .submitted k item true ∈ l.road.post.log := by
  have heval : ((Run.run (@Ledger.step Sample.graphemes) ⟨Sample.road, [], []⟩
      ([.boot true, .server .start] ++ sends 0 "hola" ++ Road.finishes 0)).any fun l =>
        decide (l.finished.length = 1 ∧ l.road.outbox.files = [] ∧ l.taken = [])) = true := by
    decide +kernel
  obtain ⟨l, hrun, hone⟩ := Run.exists_of_any heval
  have hfresh : Run.Meets (@Ledger.step Sample.graphemes) (fun l act => FreshID l.road act)
      ⟨Sample.road, [], []⟩
      ([.boot true, .server .start] ++ sends 0 "hola" ++ Road.finishes 0) := by
    refine ⟨trivial, fun s hs => ⟨trivial, fun s' hs' => ⟨fun _ _ => ?_, fun t _ => ?_⟩⟩⟩
    · -- Nothing refers to a letter yet.
      let _ := Sample.graphemes
      obtain ⟨w, hw, rfl⟩ := Option.map_eq_some_iff.1 hs
      obtain ⟨w', hw', rfl⟩ := Option.map_eq_some_iff.1 hs'
      exact (step_cases hw').allIn ((step_cases hw).allIn Sample.new_road.allIn (by simp)) (by simp)
    · refine Run.Meets.imp (Run.meets_of_mem (C := fun act => ∀ s, FreshID s act) ?_)
        fun s act hact => hact s.road
      simp [Road.finishes, FreshID]
  exact ⟨l, hrun, of_decide_eq_true hone,
    @finished_letter_settled Sample.graphemes _ _ _ Sample.new_road rfl hfresh hrun⟩

end Ledger
end Road
end Chaskiwasi
