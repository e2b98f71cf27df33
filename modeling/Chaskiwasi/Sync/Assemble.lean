import Chaskiwasi.Lib.Paging
import Chaskiwasi.Mail.Derive
import Chaskiwasi.Sync.Cursor

/-!
# Assembling the letters of one response

The device reads its letters in rounds, each bounded by a page of the mailbox and by a byte
budget.  A round starts at a boundary, the UID up to which the device has everything, or at none
for a window resync; it takes messages in UID order and moves a single watermark, `lastUID`, past
each one it delivers or skips.  A message from a sender that resolves to nobody is skipped; one
that does not parse stops the round where it stands; a letter that no longer fits the budget
stops it too, unless it is the round's first.

`assembleOne` is the loop body, `assembleLoop` the loop, `assembleLetters` the function.  The
drain is then an instance of the paging library: `assembleLetters_drains` says what one round
owes, and `drain_complete` what a run of rounds, each under the cursor the one before returned,
delivers.
-/

namespace Chaskiwasi

/-- The page size of a concrete cursor's fetch. -/
def fetchBatch : ℕ := 32

/-- A letter's cost on the wire: its JSON plus the separator that joins it to the array. -/
def letterSize (encodedLength : Letter → ℕ) (l : Letter) : ℤ :=
  encodedLength l + 1

/-- How many bytes of letters fit, once the rest of the response is accounted for. -/
def budgetFor (budgetBytes : ℤ) (skeletonLength : ℕ) : ℤ :=
  budgetBytes - skeletonLength

/-- The loop's variables: what is left of the budget, the letters so far, the watermark. -/
structure Assembly where
  budget : ℤ
  letters : List Letter
  lastUID : UID
  deriving DecidableEq, Repr

/-- What one message does to the loop. -/
inductive Verdict
  | next (asm : Assembly)
  /-- The round ends here, and more remains. -/
  | stop
  /-- The round fails: it has nothing to return. -/
  | fail (err : DeriveError)
  deriving DecidableEq, Repr

/-- The loop body: what a message does, given what derivation made of it. -/
def assembleOne (encodedLength : Letter → ℕ) (asm : Assembly) (uid : UID)
    (derived : Except DeriveError Letter) : Verdict :=
  match derived with
  | .error (.unresolvedSender ..) => .next { asm with lastUID := uid }
  | .error (.parse u) => if asm.letters = [] then .fail (.parse u) else .stop
  | .ok letter =>
      let size := letterSize encodedLength letter
      if asm.letters ≠ [] ∧ asm.budget - size < 0 then .stop
      else .next { budget := asm.budget - size, letters := asm.letters ++ [letter], lastUID := uid }

/-- The loop: its variables at the end, and whether it ran through all the messages. -/
def assembleLoop (encodedLength : Letter → ℕ) (derive : Raw → Except DeriveError Letter) :
    Assembly → List Raw → Except DeriveError (Assembly × Bool)
  | asm, [] => .ok (asm, true)
  | asm, raw :: raws =>
      match assembleOne encodedLength asm raw.uid (derive raw) with
      | .next asm' => assembleLoop encodedLength derive asm' raws
      | .stop => .ok (asm, false)
      | .fail err => .error err

/-- The messages a round looks at from a boundary, and whether the page was full. -/
def fetchFrom (inbox : Folder) (resyncWindow : ℕ) : Option UID → List Raw × Bool
  | none => (inbox.recent resyncWindow, false)
  | some uid =>
      let raws := inbox.fetchAbove uid fetchBatch
      (raws, raws.length = fetchBatch)

/-- A round's letters, its watermark, and whether more remains. -/
structure Assembled where
  letters : List Letter
  lastUID : UID
  more : Bool
  deriving DecidableEq, Repr

/-- A round from a boundary. -/
def assembleFrom (encodedLength : Letter → ℕ) (derive : Raw → Except DeriveError Letter)
    (inbox : Folder) (resyncWindow : ℕ) (budget : ℤ) (boundary : Option UID) :
    Except DeriveError Assembled :=
  let (raws, capped) := fetchFrom inbox resyncWindow boundary
  match assembleLoop encodedLength derive ⟨budget, [], boundary.getD 0⟩ raws with
  | .error err => .error err
  | .ok (asm, through) => .ok ⟨asm.letters, asm.lastUID, if through then capped else true⟩

/-- The letters of one response, from the cursor the request carries. -/
def assembleLetters (encodedLength : Letter → ℕ) (derive : Raw → Except DeriveError Letter)
    (inbox : Folder) (uidValidity : UID) (resyncWindow : ℕ) (budget : ℤ) (cursor : String) :
    Except DeriveError Assembled :=
  assembleFrom encodedLength derive inbox resyncWindow budget (cursorBoundary cursor uidValidity)

/-- A round of a device that drains: it feeds back the cursor of the response before. -/
def drainRound (encodedLength : Letter → ℕ) (derive : Raw → Except DeriveError Letter)
    (inbox : Folder) (uidValidity : UID) (resyncWindow : ℕ) (budget : ℤ) (cursor : String) :
    Option (Paging.Round String Letter) :=
  match assembleLetters encodedLength derive inbox uidValidity resyncWindow budget cursor with
  | .error _ => none
  | .ok round => some ⟨encodeCursor uidValidity round.lastUID, round.letters, round.more⟩

/-! ## What one round takes

The loop takes a prefix of its messages, delivers the letters among them and leaves its
watermark on the last one. -/

/-- A fixed derivation outcome per message: a letter, or an unresolved sender. -/
def deriveAs (outcome : Raw → Option Letter) (raw : Raw) : Except DeriveError Letter :=
  match outcome raw with
  | some letter => .ok letter
  | none => .error (.unresolvedSender raw.uid "")

section Loop

variable (encodedLength : Letter → ℕ) (outcome : Raw → Option Letter)

/-- The watermark after a prefix: its last message's UID, or where it was. -/
def watermark (start : UID) (taken : List Raw) : UID :=
  (taken.getLast?.map Raw.uid).getD start

lemma watermark_cons (start : UID) (raw : Raw) (taken : List Raw) :
    watermark start (raw :: taken) = watermark raw.uid taken := by
  cases taken with
  | nil => rfl
  | cons x xs => simp [watermark, List.getLast?_eq_some_getLast]

/-- The loop over messages that all derive or all are skipped never fails: it takes a prefix,
delivers the letters in it, and stops short only after it has delivered one. -/
lemma assembleLoop_deriveAs (asm : Assembly) (raws : List Raw) :
    ∃ budget taken rest through,
      raws = taken ++ rest ∧
      assembleLoop encodedLength (deriveAs outcome) asm raws =
        .ok (⟨budget, asm.letters ++ taken.filterMap outcome, watermark asm.lastUID taken⟩,
          through) ∧
      (through = true → rest = []) ∧
      (through = false → asm.letters ++ taken.filterMap outcome ≠ []) := by
  induction raws generalizing asm with
  | nil => exact ⟨asm.budget, [], [], true, by simp [assembleLoop, watermark]⟩
  | cons raw raws ih =>
      cases hout : outcome raw with
      | none =>
          obtain ⟨budget, taken, rest, through, hraws, hloop, hthrough, hstop⟩ :=
            ih { asm with lastUID := raw.uid }
          refine ⟨budget, raw :: taken, rest, through, by rw [hraws]; rfl, ?_, hthrough, ?_⟩
          · simp only [assembleLoop, deriveAs, hout, assembleOne, hloop, watermark_cons,
              List.filterMap_cons]
          · simpa only [List.filterMap_cons, hout] using hstop
      | some letter =>
          by_cases hfull : asm.letters ≠ [] ∧ asm.budget - letterSize encodedLength letter < 0
          · refine ⟨asm.budget, [], raw :: raws, false, rfl, ?_, by simp, ?_⟩
            · simp only [assembleLoop, deriveAs, hout, assembleOne, if_pos hfull,
                List.filterMap_nil, List.append_nil]
              rfl
            · simpa using hfull.1
          · obtain ⟨budget, taken, rest, through, hraws, hloop, hthrough, hstop⟩ :=
              ih ⟨asm.budget - letterSize encodedLength letter, asm.letters ++ [letter], raw.uid⟩
            refine ⟨budget, raw :: taken, rest, through, by rw [hraws]; rfl, ?_, hthrough, ?_⟩
            · simp only [assembleLoop, deriveAs, hout, assembleOne, if_neg hfull, hloop,
                watermark_cons, List.filterMap_cons, List.append_assoc, List.cons_append,
                List.nil_append]
            · simp [hout]

/-- The messages a device at a boundary has still to read. -/
def remaining (inbox : Folder) (resyncWindow : ℕ) : Option UID → List Raw
  | none => inbox.recent resyncWindow
  | some uid => inbox.above uid

variable (inbox : Folder) (resyncWindow : ℕ)

lemma remaining_sorted (boundary : Option UID) :
    Keyed.Ascending Raw.uid (remaining inbox resyncWindow boundary) := by
  cases boundary with
  | none => exact List.Pairwise.drop inbox.sorted
  | some uid => exact inbox.above_sorted uid

lemma lt_of_mem_remaining {boundary : Option UID} {raw : Raw}
    (h : raw ∈ remaining inbox resyncWindow boundary) : boundary.getD 0 < raw.uid := by
  cases boundary with
  | none => exact inbox.pos raw (Folder.mem_of_mem_recent h)
  | some uid => exact (Folder.mem_above.1 h).2

/-- A round looks at a prefix of what remains, at all of it unless the page was full. -/
lemma fetchFrom_prefix (boundary : Option UID) :
    ∃ beyond, remaining inbox resyncWindow boundary =
        (fetchFrom inbox resyncWindow boundary).1 ++ beyond ∧
      ((fetchFrom inbox resyncWindow boundary).2 = false → beyond = []) ∧
      ((fetchFrom inbox resyncWindow boundary).2 = true →
        (fetchFrom inbox resyncWindow boundary).1 ≠ []) := by
  cases boundary with
  | none => exact ⟨[], by simp [remaining, fetchFrom]⟩
  | some uid =>
      refine ⟨(inbox.above uid).drop fetchBatch, ?_, ?_, ?_⟩
      · exact (List.take_append_drop _ _).symm
      · intro hcapped
        rw [List.drop_eq_nil_iff]
        simp only [fetchFrom, Folder.fetchAbove, List.length_take, decide_eq_false_iff_not]
          at hcapped
        omega
      · intro hcapped hnil
        simp only [fetchFrom, decide_eq_true_eq] at hcapped hnil
        rw [hnil] at hcapped
        exact absurd hcapped (by decide)

/-- The watermark of a nonempty prefix separates it from what follows. -/
lemma watermark_separates (start : UID) {taken rest : List Raw}
    (h : Keyed.Ascending Raw.uid (taken ++ rest)) (hne : taken ≠ []) :
    (∀ m ∈ taken, m.uid ≤ watermark start taken) ∧ ∀ m ∈ rest, watermark start taken < m.uid := by
  have hlast : watermark start taken = (taken.getLast hne).uid := by
    rw [watermark, List.getLast?_eq_some_getLast hne, Option.map_some, Option.getD_some]
  obtain ⟨htaken, -, hcross⟩ := List.pairwise_append.1 h
  refine ⟨fun m hm => ?_, fun m hm => ?_⟩
  · rw [hlast]
    rw [← List.dropLast_append_getLast hne, List.pairwise_append] at htaken
    rw [← List.dropLast_append_getLast hne] at hm
    rcases List.mem_append.1 hm with hm | hm
    · exact le_of_lt (htaken.2.2 m hm _ (List.mem_singleton_self _))
    · rw [List.mem_singleton.1 hm]
  · rw [hlast]
    exact hcross _ (List.getLast_mem hne) m hm

/-- After a nonempty prefix has been taken, what remains at its watermark is the rest. -/
lemma remaining_watermark {boundary : Option UID} {taken rest : List Raw}
    (h : remaining inbox resyncWindow boundary = taken ++ rest) (hne : taken ≠ []) :
    remaining inbox resyncWindow (some (watermark (boundary.getD 0) taken)) = rest := by
  have hsorted := remaining_sorted inbox resyncWindow boundary
  rw [h] at hsorted
  obtain ⟨hle, hlt⟩ := watermark_separates (boundary.getD 0) hsorted hne
  cases boundary with
  | some uid =>
      have hmem : taken.getLast hne ∈ remaining inbox resyncWindow (some uid) := by
        rw [h]
        exact List.mem_append_left _ (List.getLast_mem hne)
      have hstart : uid < (taken.getLast hne).uid :=
        lt_of_mem_remaining inbox resyncWindow hmem
      exact Folder.above_eq_of_append h hle hlt
        (le_trans (le_of_lt hstart) (hle _ (List.getLast_mem hne)))
  | none =>
      -- The window is a suffix of the folder: what precedes it lies below it.
      have hmsgs : inbox.above 0 =
          (inbox.msgs.take (inbox.msgs.length - resyncWindow) ++ taken) ++ rest := by
        rw [Folder.above_zero, List.append_assoc, ← h]
        exact (List.take_append_drop _ _).symm
      have hall := inbox.above_sorted 0
      rw [hmsgs] at hall
      have hboth := (watermark_separates 0 hall (by simp [hne])).1
      refine Folder.above_eq_of_append hmsgs (fun m hm => ?_) hlt (Fin.zero_le _)
      have hmark : watermark 0 (inbox.msgs.take (inbox.msgs.length - resyncWindow) ++ taken) =
          watermark 0 taken := by
        rw [watermark, watermark, List.getLast?_append_of_ne_nil _ hne]
      exact hmark ▸ hboth m hm

/-- What one round owes: no failure, a prefix of what remains, the letters in it, and the
watermark on its last message. -/
lemma assembleFrom_deriveAs (budget : ℤ) (boundary : Option UID) :
    ∃ round taken rest,
      assembleFrom encodedLength (deriveAs outcome) inbox resyncWindow budget boundary =
        .ok round ∧
      remaining inbox resyncWindow boundary = taken ++ rest ∧
      round.letters = taken.filterMap outcome ∧
      round.lastUID = watermark (boundary.getD 0) taken ∧
      (round.more = true → taken ≠ []) ∧ (round.more = false → rest = []) := by
  obtain ⟨beyond, hremaining, hwhole, hfull⟩ := fetchFrom_prefix inbox resyncWindow boundary
  obtain ⟨left, taken, rest, through, hraws, hloop, hthrough, hstop⟩ :=
    assembleLoop_deriveAs encodedLength outcome ⟨budget, [], boundary.getD 0⟩
      (fetchFrom inbox resyncWindow boundary).1
  refine ⟨⟨taken.filterMap outcome, watermark (boundary.getD 0) taken,
      if through then (fetchFrom inbox resyncWindow boundary).2 else true⟩,
    taken, rest ++ beyond, by simp only [assembleFrom, hloop, List.nil_append], ?_, rfl, rfl, ?_,
      ?_⟩
  · rw [hremaining, hraws, List.append_assoc]
  · intro hmore hnil
    cases through with
    | false => exact hstop rfl (by simp [hnil])
    | true =>
        refine hfull hmore ?_
        rw [hraws, hnil, hthrough rfl, List.append_nil]
  · intro hmore
    cases through with
    | false => cases hmore
    | true => rw [hthrough rfl, hwhole hmore, List.append_nil]

/-- A round has no more letters than it has messages to look at. -/
lemma assembleLoop_length_le (derive : Raw → Except DeriveError Letter) {asm asm' : Assembly}
    {raws : List Raw} {through : Bool}
    (h : assembleLoop encodedLength derive asm raws = .ok (asm', through)) :
    asm'.letters.length ≤ asm.letters.length + raws.length := by
  induction raws generalizing asm with
  | nil =>
      rw [assembleLoop, Except.ok.injEq, Prod.mk.injEq] at h
      rw [← h.1]
      exact le_refl _
  | cons raw raws ih =>
      rw [assembleLoop] at h
      cases hone : assembleOne encodedLength asm raw.uid (derive raw) with
      | stop =>
          simp only [hone, Except.ok.injEq, Prod.mk.injEq] at h
          rw [← h.1]
          exact Nat.le_add_right _ _
      | fail err => simp [hone] at h
      | next asm₁ =>
          simp only [hone] at h
          have hlen : asm₁.letters.length ≤ asm.letters.length + 1 := by
            unfold assembleOne at hone
            split at hone
            · obtain rfl := Verdict.next.inj hone
              exact Nat.le_succ _
            · split_ifs at hone
            · dsimp only at hone
              split_ifs at hone
              obtain rfl := Verdict.next.inj hone
              simp
          have hrest := ih h
          rw [List.length_cons]
          omega

/-- Every letter of a round was derived from a message the round looked at. -/
lemma mem_assembleLoop (derive : Raw → Except DeriveError Letter) {asm asm' : Assembly}
    {raws : List Raw} {through : Bool}
    (h : assembleLoop encodedLength derive asm raws = .ok (asm', through)) {l : Letter}
    (hl : l ∈ asm'.letters) : l ∈ asm.letters ∨ ∃ raw ∈ raws, derive raw = .ok l := by
  induction raws generalizing asm with
  | nil =>
      rw [assembleLoop, Except.ok.injEq, Prod.mk.injEq] at h
      exact Or.inl (h.1 ▸ hl)
  | cons raw raws ih =>
      rw [assembleLoop] at h
      cases hone : assembleOne encodedLength asm raw.uid (derive raw) with
      | stop =>
          simp only [hone, Except.ok.injEq, Prod.mk.injEq] at h
          exact Or.inl (h.1 ▸ hl)
      | fail err => simp [hone] at h
      | next asm₁ =>
          simp only [hone] at h
          rcases ih h with hl₁ | ⟨raw', hraw', hok⟩
          · unfold assembleOne at hone
            split at hone
            · obtain rfl := Verdict.next.inj hone
              exact Or.inl hl₁
            · split_ifs at hone
            · next letter hok =>
              dsimp only at hone
              split_ifs at hone
              obtain rfl := Verdict.next.inj hone
              rcases List.mem_append.1 hl₁ with hl₁ | hl₁
              · exact Or.inl hl₁
              · obtain rfl := List.mem_singleton.1 hl₁
                exact Or.inr ⟨raw, List.mem_cons_self .., hok⟩
          · exact Or.inr ⟨raw', List.mem_cons_of_mem _ hraw', hok⟩

lemma mem_assembleFrom {derive : Raw → Except DeriveError Letter} {budget : ℤ}
    {boundary : Option UID} {round : Assembled}
    (h : assembleFrom encodedLength derive inbox resyncWindow budget boundary = .ok round)
    {l : Letter} (hl : l ∈ round.letters) :
    ∃ raw ∈ (fetchFrom inbox resyncWindow boundary).1, derive raw = .ok l := by
  unfold assembleFrom at h
  dsimp only at h
  cases hloop : assembleLoop encodedLength derive ⟨budget, [], boundary.getD 0⟩
      (fetchFrom inbox resyncWindow boundary).1 with
  | error err =>
      rw [hloop] at h
      cases h
  | ok result =>
      obtain ⟨asm, through⟩ := result
      rw [hloop] at h
      obtain rfl := Except.ok.inj h
      rcases mem_assembleLoop encodedLength derive hloop hl with hnil | hraw
      · cases hnil
      · exact hraw

lemma assembleFrom_length_le {derive : Raw → Except DeriveError Letter} {budget : ℤ} {uid : UID}
    {round : Assembled}
    (h : assembleFrom encodedLength derive inbox resyncWindow budget (some uid) = .ok round) :
    round.letters.length ≤ fetchBatch := by
  unfold assembleFrom at h
  dsimp only at h
  cases hloop : assembleLoop encodedLength derive ⟨budget, [], (some uid).getD 0⟩
      (fetchFrom inbox resyncWindow (some uid)).1 with
  | error err =>
      rw [hloop] at h
      cases h
  | ok result =>
      obtain ⟨asm, through⟩ := result
      have hlen := assembleLoop_length_le encodedLength derive hloop
      rw [hloop] at h
      obtain rfl := Except.ok.inj h
      refine le_trans hlen ?_
      rw [List.length_nil, Nat.zero_add]
      exact List.length_take_le _ _

/-! ## The drain -/

/-- The UID a cursor stands at; zero for a window resync. -/
def cursorUID (uidValidity : UID) (cursor : String) : UID :=
  (cursorBoundary cursor uidValidity).getD 0

/-- A round of the drain gives what the paging library asks of one. -/
lemma drainRound_drains (uidValidity : UID) (budget : ℤ) :
    Paging.Drains (fun cursor => remaining inbox resyncWindow (cursorBoundary cursor uidValidity))
      outcome (cursorUID uidValidity)
      (drainRound encodedLength (deriveAs outcome) inbox uidValidity resyncWindow budget) := by
  have spec : ∀ cursor, ∃ round taken rest,
      drainRound encodedLength (deriveAs outcome) inbox uidValidity resyncWindow budget cursor =
        some round ∧
      remaining inbox resyncWindow (cursorBoundary cursor uidValidity) = taken ++ rest ∧
      round.out = taken.filterMap outcome ∧
      round.next = encodeCursor uidValidity (watermark (cursorUID uidValidity cursor) taken) ∧
      (round.more = true → taken ≠ []) ∧ (round.more = false → rest = []) := by
    intro cursor
    obtain ⟨round, taken, rest, hround, hremaining, hletters, hlast, hmore, hdone⟩ :=
      assembleFrom_deriveAs encodedLength outcome inbox resyncWindow budget
        (cursorBoundary cursor uidValidity)
    exact ⟨⟨encodeCursor uidValidity round.lastUID, round.letters, round.more⟩, taken, rest,
      by simp only [drainRound, assembleLetters, hround], hremaining, hletters,
      by rw [hlast]; rfl, hmore, hdone⟩
  refine ⟨fun cursor => ?_, fun cursor round hround hmore => ?_,
    fun cursor round hround hmore => ?_⟩
  · obtain ⟨round, -, -, hround, -⟩ := spec cursor
    exact ⟨round, hround⟩
  · obtain ⟨round', taken, rest, hround', hremaining, hout, hnext, hne, -⟩ := spec cursor
    obtain rfl := Option.some.inj (hround.symm.trans hround')
    have htaken := hne hmore
    have hmem : taken.getLast htaken ∈
        remaining inbox resyncWindow (cursorBoundary cursor uidValidity) := by
      rw [hremaining]
      exact List.mem_append_left _ (List.getLast_mem htaken)
    refine ⟨?_, taken, htaken, ?_, hout⟩
    · rw [hnext]
      simp only [cursorUID, cursorBoundary_encodeCursor_self, Option.getD_some]
      rw [watermark, List.getLast?_eq_some_getLast htaken, Option.map_some, Option.getD_some]
      exact lt_of_mem_remaining inbox resyncWindow hmem
    · rw [hnext, cursorBoundary_encodeCursor_self, hremaining]
      exact congrArg _ (remaining_watermark inbox resyncWindow hremaining htaken).symm
  · obtain ⟨round', taken, rest, hround', hremaining, hout, -, -, hdone⟩ := spec cursor
    obtain rfl := Option.some.inj (hround.symm.trans hround')
    rw [hremaining, hout, hdone hmore, List.append_nil]

/-- **Drain completeness and exactly-once delivery.**  Against a mailbox that does not change and
with one derivation outcome per message, a device that starts from any cursor and feeds back each
returned one is told after finitely many rounds that nothing more remains.  Its cursor's UID rises
strictly on every round that announced more, and the letters of all rounds together are those
of the resolvable messages above the starting UID (from an empty or stale cursor: among the newest
`resyncWindow`), each once, in UID order.  The budget of each round is whatever its response leaves
for letters, and a letter may have any size. -/
theorem drain_complete (uidValidity : UID) (budgetBytes : ℤ) (skeletonLength : ℕ → ℕ)
    (cursor : String) :
    ∃ fuel before last,
      Paging.drain (fun k => drainRound encodedLength (deriveAs outcome) inbox uidValidity
          resyncWindow (budgetFor budgetBytes (skeletonLength k))) fuel cursor =
        some (before ++ [last]) ∧
      (∀ round ∈ before, round.more = true) ∧ last.more = false ∧
      (cursorUID uidValidity cursor ::
        before.map fun round => cursorUID uidValidity round.next).IsChain (· < ·) ∧
      (before ++ [last]).flatMap Paging.Round.out =
        (remaining inbox resyncWindow (cursorBoundary cursor uidValidity)).filterMap outcome :=
  Paging.Drains.complete
    (fun k => drainRound_drains encodedLength outcome inbox resyncWindow uidValidity
      (budgetFor budgetBytes (skeletonLength k))) cursor

end Loop
end Chaskiwasi
