import Chaskiwasi.Device.Flash

/-!
# The seen ring, byte by byte

The file `seen` has one line for each id and is appended to; only when it has drifted past the ring
is it rewritten.  An append can stop at any byte.  What a reload makes of it is the complete lines,
and a tail without a newline is dropped, but it is not removed from the file: the next append goes
on where the tail ends, and makes one line of the two.

`FileSeenRing` has the complete lines of the file.  Here the file is its bytes (`SeenText`), and as
long as no append meets a tail the two do the same (`view_add`, `view_load`).  Then the ring is the
last lines of the file, each id once (`FileSeenRing.Exact`), and that is what a run keeps.
-/

namespace Chaskiwasi.Device

/-! ## A ring that is the end of its file -/

namespace FileSeenRing

/-- The ring is the last lines of the file, and none is repeated. -/
structure Exact (s : FileSeenRing) : Prop where
  window : s.window = s.ring
  nodup : s.ring.Nodup
  blank : "" ∉ s.ring

variable {s : FileSeenRing} {id : String} {o : WriteOutcome}

lemma length_window_le (s : FileSeenRing) : s.window.length ≤ s.capacity := by
  rw [window, List.length_drop]
  omega

lemma Exact.length_le (h : s.Exact) : s.ring.length ≤ s.capacity :=
  h.window ▸ s.length_window_le

lemma loaded_eq_append {ring lines : List String} (h : (ring ++ lines).Nodup)
    (hblank : "" ∉ lines) : loaded ring lines = ring ++ lines := by
  induction lines generalizing ring with
  | nil => rw [List.append_nil]; rfl
  | cons id lines ih =>
      rw [List.mem_cons, not_or] at hblank
      have hid : id ∉ ring := by
        intro hmem
        rw [List.nodup_append] at h
        exact h.2.2 id hmem id List.mem_cons_self rfl
      have hassoc : ring ++ id :: lines = ring ++ [id] ++ lines := by simp
      rw [loaded_cons, if_neg (not_or.2 ⟨Ne.symm hblank.1, hid⟩), hassoc]
      exact ih (hassoc ▸ h) hblank.2

lemma capacity_opened (s : FileSeenRing) (o : WriteOutcome) :
    (s.opened o).capacity = s.capacity := by
  unfold opened
  dsimp only
  split_ifs
  · rfl
  · rfl

/-- A reload of a file whose last lines are distinct takes them as they are. -/
lemma exact_opened (hnodup : s.window.Nodup) (hblank : "" ∉ s.window) :
    (s.opened o).Exact ∧ (s.opened o).ring = s.window := by
  have hloaded : loaded [] s.window = s.window := loaded_eq_append hnodup hblank
  have hring : (s.opened o).ring = s.window := by
    rw [← hloaded]
    unfold opened
    dsimp only
    split_ifs
    · rfl
    · rfl
  have hlines : (s.opened o).lines = s.window ∨ (s.opened o).lines = s.lines := by
    unfold opened
    dsimp only
    split_ifs
    · cases hwritten : o.written with
      | true =>
          left
          simp only [compact, hwritten, if_true]
          exact hloaded
      | false =>
          right
          simp [compact, hwritten]
    · exact Or.inr rfl
  refine ⟨⟨?_, hring ▸ hnodup, hring ▸ hblank⟩, hring⟩
  rw [hring]
  rcases hlines with hlines | hlines
  · exact window_of_le hlines ((capacity_opened s o).symm ▸ s.length_window_le)
  · rw [window, window, hlines, capacity_opened]

lemma Exact.opened (h : s.Exact) : (s.opened o).Exact ∧ (s.opened o).ring = s.ring := by
  have hnodup := h.nodup
  have hblank := h.blank
  rw [← h.window] at hnodup hblank ⊢
  exact exact_opened hnodup hblank

lemma capacity_add (s : FileSeenRing) (id : String) (o : WriteOutcome) :
    (s.add id o).1.capacity = s.capacity := by
  cases hsafe : nameIsSafe id with
  | false => rw [add_of_refused hsafe]
  | true =>
      cases hnew : s.contains id with
      | true => rw [add_of_known hsafe hnew]
      | false => exact (ring_add hsafe hnew o).2.1

/-- The end of the file after a missing id was to be recorded. -/
lemma Exact.window_add_of_new (h : s.Exact) (hsafe : nameIsSafe id = true)
    (hnew : s.contains id = false) (o : WriteOutcome) :
    (s.add id o).1.window = if o.written then Ring.push s.capacity id s.ring else s.ring := by
  have hpush : s.taken id = Ring.push s.capacity id s.ring := taken_eq h.length_le
  by_cases hfull : s.linesOnDisk + 1 > s.capacity + s.slack
  · rw [add_of_full hsafe hnew hfull]
    cases hwritten : o.written with
    | true =>
        rw [if_pos rfl, ← hpush]
        refine window_of_le (by simp [compact, hwritten]) ?_
        rw [hpush]
        exact Ring.length_push_le _ _ _
    | false =>
        rw [if_neg Bool.false_ne_true, ← h.window, FileSeenRing.window, FileSeenRing.window]
        simp [compact, hwritten]
  · rw [add_of_room hsafe hnew hfull]
    cases hwritten : o.written with
    | true =>
        rw [if_pos rfl, ← h.window]
        exact (Ring.push_drop _ _ _).symm
    | false => exact h.window

/-- The end of the file after `Add`, however the write ended. -/
lemma Exact.window_add (h : s.Exact) (id : String) (o : WriteOutcome) :
    (s.add id o).1.window = s.ring ∨ nameIsSafe id = true ∧ id ∉ s.ring ∧
      (s.add id o).1.window = Ring.push s.capacity id s.ring := by
  cases hsafe : nameIsSafe id with
  | false =>
      rw [add_of_refused hsafe]
      exact Or.inl h.window
  | true =>
      cases hnew : s.contains id with
      | true =>
          rw [add_of_known hsafe hnew]
          exact Or.inl h.window
      | false =>
          have hnot : id ∉ s.ring := by simpa [contains] using hnew
          rw [h.window_add_of_new hsafe hnew]
          cases o.written with
          | true => exact Or.inr ⟨rfl, hnot, rfl⟩
          | false => exact Or.inl rfl

/-- The ring as it was, or with one id more. -/
def Took (id : String) (s s' : FileSeenRing) : Prop :=
  s'.capacity = s.capacity ∧ (s'.ring = s.ring ∨ nameIsSafe id = true ∧ id ∉ s.ring ∧
    s'.ring = Ring.push s.capacity id s.ring)

/-- An `Add` that nothing disturbs. -/
lemma Exact.add (h : s.Exact) (id : String) :
    (s.add id .done).1.Exact ∧ Took id s (s.add id .done).1 ∧
      ((s.add id .done).2 = true → id ∈ (s.add id .done).1.ring) := by
  cases hsafe : nameIsSafe id with
  | false =>
      rw [add_of_refused hsafe]
      exact ⟨h, ⟨rfl, Or.inl rfl⟩, fun hok => absurd hok (by simp)⟩
  | true =>
      cases hnew : s.contains id with
      | true =>
          rw [add_of_known hsafe hnew]
          exact ⟨h, ⟨rfl, Or.inl rfl⟩, fun _ => by simpa [contains] using hnew⟩
      | false =>
          have hnot : id ∉ s.ring := by simpa [contains] using hnew
          obtain ⟨hring, hcap, -⟩ := ring_add hsafe hnew .done
          rw [taken_eq h.length_le] at hring
          have hmem : id ∈ (s.add id .done).1.ring := by
            rw [hring]
            exact Ring.mem_push_self (lt_of_lt_of_le (by decide) s.minSeenIDs_le) _ _
          have hblank : "" ∉ (s.add id .done).1.ring := by
            rw [hring]
            intro hmem
            rcases Ring.mem_of_mem_push hmem with hmem | hmem
            · exact h.blank hmem
            · exact ne_empty_of_safe hsafe hmem.symm
          refine ⟨⟨?_, hring ▸ Ring.nodup_push h.nodup hnot, hblank⟩,
            ⟨hcap, Or.inr ⟨hsafe, hnot, hring⟩⟩, fun _ => hmem⟩
          rw [hring]
          exact h.window_add_of_new hsafe hnew .done

/-- An `Add` that power cuts, and the boot after it. -/
lemma Exact.cut (h : s.Exact) (id : String) (o o' : WriteOutcome) :
    ((s.add id o).1.opened o').Exact ∧ Took id s ((s.add id o).1.opened o') := by
  have hcap : ((s.add id o).1.opened o').capacity = s.capacity :=
    (capacity_opened _ _).trans (capacity_add s id o)
  rcases h.window_add id o with hwindow | ⟨hsafe, hnot, hwindow⟩
  · have hexact := exact_opened (o := o') (hwindow ▸ h.nodup) (hwindow ▸ h.blank)
    exact ⟨hexact.1, hcap, Or.inl (hexact.2.trans hwindow)⟩
  · have hblank : "" ∉ (s.add id o).1.window := by
      rw [hwindow]
      intro hmem
      rcases Ring.mem_of_mem_push hmem with hmem | hmem
      · exact h.blank hmem
      · exact ne_empty_of_safe hsafe hmem.symm
    have hexact := exact_opened (o := o') (hwindow ▸ Ring.nodup_push h.nodup hnot) hblank
    exact ⟨hexact.1, hcap, Or.inr ⟨hsafe, hnot, hexact.2.trans hwindow⟩⟩

end FileSeenRing

/-! ## The bytes of the file -/

/-- Splits a text at its newlines; what stands behind the last one is dropped. -/
def splitCompleteLines : List Char → List (List Char)
  | [] => []
  | c :: cs =>
      if c = '\n' then [] :: splitCompleteLines cs
      else
        match splitCompleteLines cs with
        | [] => []
        | l :: ls => (c :: l) :: ls

/-- A line, as it is appended. -/
def terminated (line : String) : List Char := line.toList ++ ['\n']

/-- The text does not end in a torn line. -/
def Whole (text : List Char) : Prop := ∀ c ∈ text.getLast?, c = '\n'

instance (text : List Char) : Decidable (Whole text) := Option.decidableForallMem _

section Lines

variable {text tail : List Char} {c : Char}

lemma splitCompleteLines_of_torn (h : '\n' ∉ tail) : splitCompleteLines tail = [] := by
  induction tail with
  | nil => rfl
  | cons c cs ih =>
      rw [List.mem_cons, not_or] at h
      rw [splitCompleteLines, if_neg (Ne.symm h.1), ih h.2]

lemma splitCompleteLines_line (h : '\n' ∉ text) : splitCompleteLines (text ++ ['\n']) = [text] := by
  induction text with
  | nil => rfl
  | cons c cs ih =>
      rw [List.mem_cons, not_or] at h
      rw [List.cons_append, splitCompleteLines, if_neg (Ne.symm h.1), ih h.2]

lemma newline_not_mem_of_mem_split {l : List Char} (h : l ∈ splitCompleteLines text) :
    '\n' ∉ l := by
  induction text generalizing l with
  | nil => cases h
  | cons c cs ih =>
      rw [splitCompleteLines] at h
      split_ifs at h with hc
      · rcases List.mem_cons.1 h with rfl | h
        · exact List.not_mem_nil
        · exact ih h
      · cases hrest : splitCompleteLines cs with
        | nil =>
            rw [hrest] at h
            cases h
        | cons l' ls =>
            rw [hrest] at h ih
            rcases List.mem_cons.1 h with rfl | h
            · rw [List.mem_cons, not_or]
              exact ⟨Ne.symm hc, ih List.mem_cons_self⟩
            · exact ih (List.mem_cons_of_mem _ h)

lemma Whole.of_cons (h : Whole (c :: text)) : Whole text := by
  intro x hx
  cases text with
  | nil => cases hx
  | cons d text => exact h x (by rwa [List.getLast?_cons_cons])

/-- A line that ends is there, so the text after its first character has lines. -/
lemma splitCompleteLines_ne_nil (h : Whole text) (hne : text ≠ []) :
    splitCompleteLines text ≠ [] := by
  induction text with
  | nil => exact absurd rfl hne
  | cons c cs ih =>
      rw [splitCompleteLines]
      split_ifs with hc
      · exact List.cons_ne_nil _ _
      · have hcs : cs ≠ [] := by
          rintro rfl
          exact hc (h c rfl)
        obtain ⟨l, ls, hsplit⟩ := List.exists_cons_of_ne_nil (ih h.of_cons hcs)
        rw [hsplit]
        exact List.cons_ne_nil _ _

/-- What is appended to whole lines leaves them as they are. -/
theorem splitCompleteLines_append (h : Whole text) (more : List Char) :
    splitCompleteLines (text ++ more) = splitCompleteLines text ++ splitCompleteLines more := by
  induction text with
  | nil => rfl
  | cons c cs ih =>
      rw [List.cons_append, splitCompleteLines, splitCompleteLines, ih h.of_cons]
      split_ifs with hc
      · rfl
      · have hcs : cs ≠ [] := by
          rintro rfl
          exact hc (h c rfl)
        obtain ⟨l, ls, hsplit⟩ :=
          List.exists_cons_of_ne_nil (splitCompleteLines_ne_nil h.of_cons hcs)
        rw [hsplit]
        rfl

end Lines

/-- The ids of the complete lines. -/
def linesOf (text : List Char) : List String := (splitCompleteLines text).map String.ofList

/-- A file of these ids. -/
def encode (ids : List String) : List Char := ids.flatMap terminated

/-- The ids have no newline in them. -/
def Plain (ids : List String) : Prop := ∀ id ∈ ids, '\n' ∉ id.toList

section Ids

variable {text : List Char} {id : String} {ids : List String}

lemma plain_linesOf (text : List Char) : Plain (linesOf text) := by
  intro id hid
  obtain ⟨l, hl, rfl⟩ := List.mem_map.1 hid
  rw [String.toList_ofList]
  exact newline_not_mem_of_mem_split hl

lemma linesOf_append (h : Whole text) (more : List Char) :
    linesOf (text ++ more) = linesOf text ++ linesOf more := by
  rw [linesOf, splitCompleteLines_append h, List.map_append]
  rfl

lemma linesOf_terminated (h : '\n' ∉ id.toList) : linesOf (terminated id) = [id] := by
  rw [linesOf, terminated, splitCompleteLines_line h, List.map_singleton, String.ofList_toList]

lemma whole_terminated (text : List Char) (id : String) : Whole (text ++ terminated id) := by
  intro c hc
  rw [terminated, ← List.append_assoc, List.getLast?_concat] at hc
  exact (Option.some.inj hc).symm

/-- A file written anew is read back. -/
lemma linesOf_encode (h : Plain ids) : linesOf (encode ids) = ids := by
  induction ids with
  | nil => rfl
  | cons id ids ih =>
      have hid := h id List.mem_cons_self
      have hids : Plain ids := fun x hx => h x (List.mem_cons_of_mem _ hx)
      have hwhole := whole_terminated [] id
      rw [List.nil_append] at hwhole
      rw [encode, List.flatMap_cons, linesOf_append hwhole, linesOf_terminated hid]
      exact congrArg _ (ih hids)

/-- A part of a line, short of its end, is no line. -/
lemma linesOf_take {n : ℕ} (h : '\n' ∉ id.toList) :
    linesOf ((terminated id).take n) = if id.toList.length < n then [id] else [] := by
  split_ifs with hn
  · have hlen : (terminated id).length ≤ n := by
      rw [terminated, List.length_append, List.length_singleton]
      omega
    rw [List.take_of_length_le hlen]
    exact linesOf_terminated h
  · rw [terminated, List.take_append_of_le_length (not_lt.1 hn), linesOf,
      splitCompleteLines_of_torn fun hmem => h (List.mem_of_mem_take hmem), List.map_nil]

end Ids

/-! ## The ring over the bytes -/

/-- The seen ring, with its file as bytes. -/
structure SeenText where
  capacity : ℕ
  minSeenIDs_le : minSeenIDs ≤ capacity
  /-- The file `seen`. -/
  text : List Char := []
  /-- In memory. -/
  linesOnDisk : ℕ := 0
  ring : List String := []
  deriving Repr

namespace SeenText

/-- No file yet. -/
def empty (capacity : ℕ) : SeenText where
  capacity := max capacity minSeenIDs
  minSeenIDs_le := le_max_right ..

variable (s : SeenText)

/-- The ring, with the complete lines for the file. -/
def view : FileSeenRing := ⟨s.capacity, s.minSeenIDs_le, linesOf s.text, s.linesOnDisk, s.ring⟩

def contains (id : String) : Bool := s.ring.contains id

/-- Replaces the file as a whole. -/
def compact (o : WriteOutcome) : SeenText × Bool :=
  ({ s with
     text := if o.written then encode s.ring else s.text
     linesOnDisk := if o.ok then s.ring.length else s.linesOnDisk }, o.ok)

/-- What a boot makes of the file; `o` is how a rewriting of it ends. -/
def load (o : WriteOutcome) : SeenText :=
  let lines := linesOf s.text
  let start := lines.length - s.capacity
  let s := { s with linesOnDisk := lines.length, ring := FileSeenRing.loaded [] (lines.drop start) }
  if s.linesOnDisk > s.capacity + s.view.slack then (s.compact o).1 else s

/-- How the rewriting ends where power is lost after `n` bytes: what counts is whether the new file
was renamed. -/
def rewriting : Option ℕ → WriteOutcome
  | none => .done
  | some 0 => .unchanged
  | some _ => .replaced

/-- Records an id.  With `some n` power is lost on the way, after `n` bytes. -/
def add (id : String) (cut : Option ℕ) : SeenText × Bool :=
  if nameIsSafe id = false then (s, false)
  else if s.contains id = true then (s, true)
  else
    let s := { s with ring := s.view.taken id }
    if s.linesOnDisk + 1 > s.capacity + s.view.slack then
      s.compact (rewriting cut)
    else
      match cut with
      | none => ({ s with text := s.text ++ terminated id, linesOnDisk := s.linesOnDisk + 1 }, true)
      | some n => ({ s with text := s.text ++ (terminated id).take n }, false)

/-- `Add` comes to append a line. -/
def Appends (id : String) : Prop :=
  nameIsSafe id = true ∧ s.contains id = false ∧ ¬ s.linesOnDisk + 1 > s.capacity + s.view.slack

instance (id : String) : Decidable (s.Appends id) := inferInstanceAs (Decidable (_ ∧ _ ∧ _))

variable {s} {id : String} {o : WriteOutcome}

/-! ### Bytes and lines -/

lemma view_compact (hplain : Plain s.ring) (o : WriteOutcome) :
    (s.compact o).1.view = (s.view.compact o).1 := by
  cases hwritten : o.written with
  | true => simp [compact, view, FileSeenRing.compact, hwritten, linesOf_encode hplain]
  | false => simp [compact, view, FileSeenRing.compact, hwritten]

lemma plain_loaded (lines : List String) (h : Plain lines) :
    Plain (FileSeenRing.loaded [] lines) := by
  intro id hid
  rcases FileSeenRing.mem_loaded.1 hid with hid | hid
  · cases hid
  · exact h id hid.1

lemma plain_window (s : SeenText) : Plain s.view.window :=
  fun id hid => plain_linesOf s.text id (List.mem_of_mem_drop hid)

/-- A boot sees the lines. -/
lemma view_load (s : SeenText) (o : WriteOutcome) : (s.load o).view = s.view.opened o := by
  have hplain := plain_loaded _ s.plain_window
  unfold load FileSeenRing.opened
  dsimp only
  split_ifs with hfull hfull' hfull'
  · exact view_compact hplain o
  · exact absurd hfull hfull'
  · exact absurd hfull' hfull
  · rfl

lemma newline_not_mem_of_safe (hsafe : nameIsSafe id = true) : '\n' ∉ id.toList := by
  intro hmem
  unfold nameIsSafe at hsafe
  cases hchars : id.toList with
  | nil =>
      rw [hchars] at hmem
      cases hmem
  | cons c cs =>
      rw [hchars] at hsafe hmem
      rw [Bool.and_eq_true, List.all_eq_true] at hsafe
      exact absurd (hsafe.2 _ hmem) (by decide)

lemma plain_taken (hplain : Plain s.ring) (hsafe : nameIsSafe id = true) :
    Plain (s.view.taken id) := by
  have happend : Plain (s.ring ++ [id]) := by
    intro x hx
    rcases List.mem_append.1 hx with hx | hx
    · exact hplain x hx
    · rw [List.mem_singleton.1 hx]
      exact newline_not_mem_of_safe hsafe
  intro x hx
  unfold FileSeenRing.taken at hx
  dsimp only at hx
  split_ifs at hx
  · exact happend x (List.mem_of_mem_tail hx)
  · exact happend x hx

lemma add_of_full (hsafe : nameIsSafe id = true) (hnew : s.contains id = false)
    (hfull : s.linesOnDisk + 1 > s.capacity + s.view.slack) (cut : Option ℕ) :
    s.add id cut = compact { s with ring := s.view.taken id } (rewriting cut) := by
  unfold add
  rw [if_neg (by simp [hsafe]), if_neg (by simp [hnew])]
  exact if_pos hfull

lemma add_of_room (hroom : s.Appends id) (cut : Option ℕ) :
    s.add id cut = match cut with
      | none => ({ s with
          ring := s.view.taken id
          text := s.text ++ terminated id
          linesOnDisk := s.linesOnDisk + 1 }, true)
      | some n => ({ s with
          ring := s.view.taken id
          text := s.text ++ (terminated id).take n }, false) := by
  unfold add
  rw [if_neg (by simp [hroom.1]), if_neg (by simp [hroom.2.1])]
  exact if_neg hroom.2.2

/-- An append that does not meet a torn line is an append to the lines. -/
lemma view_append {cut : Option ℕ} (hwhole : cut ≠ some 0 → Whole s.text)
    (hroom : s.Appends id) :
    ∃ o, (s.add id cut).1.view = (s.view.add id o).1 ∧ (s.add id cut).2 = (s.view.add id o).2 ∧
      (cut = none → o = .done) := by
  have hnewline := newline_not_mem_of_safe hroom.1
  have hadd := fun o => FileSeenRing.add_of_room (s := s.view) (o := o) hroom.1 hroom.2.1 hroom.2.2
  rw [add_of_room hroom]
  cases cut with
  | none =>
      refine ⟨.done, ?_, ?_, fun _ => rfl⟩
      · rw [hadd]
        simp only [view, linesOf_append (hwhole (by simp)), linesOf_terminated hnewline]
        rfl
      · rw [hadd]
        rfl
  | some n =>
      cases n with
      | zero =>
          refine ⟨.unchanged, ?_, ?_, fun hcut => by cases hcut⟩
          · rw [hadd]
            simp [view, WriteOutcome.written, WriteOutcome.ok]
          · rw [hadd]
            rfl
      | succ n =>
          have hlines := linesOf_append (hwhole (by simp)) ((terminated id).take (n + 1))
          rw [linesOf_take hnewline] at hlines
          -- The line is there where the append came to its newline.
          by_cases hend : id.toList.length < n + 1
          · rw [if_pos hend] at hlines
            refine ⟨.replaced, ?_, ?_, fun hcut => by cases hcut⟩
            · rw [hadd]
              simp only [view, hlines]
              rfl
            · rw [hadd]
              rfl
          · rw [if_neg hend, List.append_nil] at hlines
            refine ⟨.unchanged, ?_, ?_, fun hcut => by cases hcut⟩
            · rw [hadd]
              simp only [view, hlines]
              rfl
            · rw [hadd]
              rfl

/-- An `Add` that does not meet a torn line does to the lines what it says. -/
lemma view_add (hplain : Plain s.ring) (cut : Option ℕ)
    (hwhole : s.Appends id → cut ≠ some 0 → Whole s.text) :
    ∃ o, (s.add id cut).1.view = (s.view.add id o).1 ∧ (s.add id cut).2 = (s.view.add id o).2 ∧
      (cut = none → o = .done) := by
  cases hsafe : nameIsSafe id with
  | false =>
      have hadd : s.add id cut = (s, false) := by
        unfold add
        exact if_pos hsafe
      refine ⟨.done, ?_, ?_, fun _ => rfl⟩
      · rw [hadd, FileSeenRing.add_of_refused hsafe]
      · rw [hadd, FileSeenRing.add_of_refused hsafe]
  | true =>
      cases hnew : s.contains id with
      | true =>
          have hadd : s.add id cut = (s, true) := by
            unfold add
            rw [if_neg (by simp [hsafe])]
            exact if_pos hnew
          have hknown : s.view.contains id = true := hnew
          refine ⟨.done, ?_, ?_, fun _ => rfl⟩
          · rw [hadd, FileSeenRing.add_of_known hsafe hknown]
          · rw [hadd, FileSeenRing.add_of_known hsafe hknown]
      | false =>
          by_cases hfull : s.linesOnDisk + 1 > s.capacity + s.view.slack
          · have hmissing : s.view.contains id = false := hnew
            rw [add_of_full hsafe hnew hfull]
            refine ⟨rewriting cut, ?_, ?_, ?_⟩
            · rw [FileSeenRing.add_of_full hsafe hmissing hfull]
              exact view_compact (plain_taken hplain hsafe) _
            · rw [FileSeenRing.add_of_full hsafe hmissing hfull]
              rfl
            · rintro rfl
              rfl
          · exact view_append (hwhole ⟨hsafe, hnew, hfull⟩) ⟨hsafe, hnew, hfull⟩

/-! ### Runs -/

inductive Event
  | add (id : String)
  /-- Power is lost `n` bytes into the write of an `Add`; the device boots. -/
  | cut (id : String) (n : ℕ) (o : WriteOutcome)
  | reload (o : WriteOutcome)
  deriving DecidableEq, Repr

/-- The id that is passed to `Add`. -/
def Event.passed : Event → Option String
  | .add id => some id
  | .cut id _ _ => some id
  | .reload _ => none

def step (s : SeenText) : Event → SeenText
  | .add id => (s.add id none).1
  | .cut id n o => (s.add id (some n)).1.load o
  | .reload o => s.load o

def run (s : SeenText) (evs : List Event) : SeenText := evs.foldl step s

/-- The ids that the ring takes in during a run, each counted once. -/
def further (s : SeenText) : List Event → Finset String
  | [] => ∅
  | ev :: evs =>
      ((s.step ev).ring.filter fun id => id ∉ s.ring).toFinset ∪ further (s.step ev) evs

/-- An id is recorded at its end, and no append meets a torn line. -/
def Fits (s : SeenText) : Event → Prop
  | .add id => (s.Appends id → Whole s.text) ∧ (s.contains id = true → s.ring.getLast? = some id)
  | .cut id n _ => s.Appends id → n ≠ 0 → Whole s.text
  | .reload _ => True

instance (s : SeenText) (ev : Event) : Decidable (s.Fits ev) := by
  cases ev <;> unfold Fits <;> infer_instance

def Orderly (s : SeenText) : List Event → Prop
  | [] => True
  | ev :: evs => s.Fits ev ∧ Orderly (s.step ev) evs

/-! ### What a run keeps -/

/-- The ring is the end of its file. -/
structure Faithful (s : SeenText) : Prop where
  exact : s.view.Exact
  plain : Plain s.ring

lemma faithful_empty (capacity : ℕ) : (empty capacity).Faithful where
  exact := ⟨List.drop_nil, List.nodup_nil, List.not_mem_nil⟩
  plain := fun _ hid => absurd hid List.not_mem_nil

lemma Faithful.of_took {s' : SeenText} (h : s.Faithful) (hexact : s'.view.Exact)
    (htook : FileSeenRing.Took id s.view s'.view) : s'.Faithful := by
  refine ⟨hexact, fun x hx => ?_⟩
  have hx' : x ∈ s'.view.ring := hx
  rcases htook.2 with hring | ⟨hsafe, -, hring⟩
  · rw [hring] at hx'
    exact h.plain x hx'
  · rw [hring] at hx'
    rcases Ring.mem_of_mem_push hx' with hx' | rfl
    · exact h.plain x hx'
    · exact newline_not_mem_of_safe hsafe

/-- What one step does to a faithful ring, where no append meets a torn line: the ring stays, or
takes in the id that is passed. -/
theorem Faithful.step (h : s.Faithful) {ev : Event} (hfits : s.Fits ev) :
    (s.step ev).Faithful ∧ (s.step ev).capacity = s.capacity ∧
      ((s.step ev).ring = s.ring ∨ ∃ id, ev.passed = some id ∧ id ∉ s.ring ∧
        (s.step ev).ring = Ring.push s.capacity id s.ring) := by
  cases ev with
  | add id =>
      obtain ⟨o, hview, -, hdone⟩ := view_add h.plain none fun happ _ => hfits.1 happ
      obtain rfl := hdone rfl
      obtain ⟨hexact, htook, -⟩ := h.exact.add id
      rw [← hview] at hexact htook
      refine ⟨h.of_took hexact htook, htook.1, htook.2.imp_right fun hpush => ?_⟩
      exact ⟨id, rfl, hpush.2⟩
  | cut id n o =>
      obtain ⟨o', hview, -⟩ := view_add h.plain (some n) fun happ hn =>
        hfits happ fun hzero => hn (congrArg some hzero)
      obtain ⟨hexact, htook⟩ := h.exact.cut id o' o
      rw [← hview, ← view_load] at hexact htook
      refine ⟨h.of_took hexact htook, htook.1, htook.2.imp_right fun hpush => ?_⟩
      exact ⟨id, rfl, hpush.2⟩
  | reload o =>
      obtain ⟨hexact, hring⟩ := h.exact.opened (o := o)
      have hcap := FileSeenRing.capacity_opened s.view o
      rw [← view_load] at hexact hring hcap
      have htook : FileSeenRing.Took "" s.view (s.load o).view := ⟨hcap, Or.inl hring⟩
      exact ⟨h.of_took hexact htook, hcap, Or.inl hring⟩

/-- An id whose `Add` returned true is in the ring. -/
lemma Faithful.mem_of_add (h : s.Faithful) (hfits : s.Fits (.add id))
    (hok : (s.add id none).2 = true) : id ∈ (s.step (.add id)).ring := by
  obtain ⟨o, hview, hanswer, hdone⟩ := view_add h.plain none fun happ _ => hfits.1 happ
  obtain rfl := hdone rfl
  obtain ⟨-, -, hmem⟩ := h.exact.add id
  rw [← hview, ← hanswer] at hmem
  exact hmem hok

lemma run_append (s : SeenText) (evs evs' : List Event) :
    s.run (evs ++ evs') = (s.run evs).run evs' := List.foldl_append

lemma Orderly.append {evs evs' : List Event} (h : s.Orderly (evs ++ evs')) :
    s.Orderly evs ∧ (s.run evs).Orderly evs' := by
  induction evs generalizing s with
  | nil => exact ⟨trivial, h⟩
  | cons ev evs ih =>
      obtain ⟨hfits, hrest⟩ := h
      obtain ⟨hevs, hevs'⟩ := ih hrest
      exact ⟨⟨hfits, hevs⟩, hevs'⟩

/-- A faithful ring stays so along an orderly run, and holds nothing but what was passed. -/
theorem Faithful.run (h : s.Faithful) {evs : List Event} (horderly : s.Orderly evs) :
    (s.run evs).Faithful ∧ (s.run evs).capacity = s.capacity ∧
      ∀ id ∈ (s.run evs).ring, id ∈ s.ring ∨ ∃ ev ∈ evs, ev.passed = some id := by
  induction evs generalizing s with
  | nil => exact ⟨h, rfl, fun _ hid => Or.inl hid⟩
  | cons ev evs ih =>
      obtain ⟨hfaithful, hcap, hring⟩ := h.step horderly.1
      obtain ⟨hrun, hcap', hmem⟩ := ih hfaithful horderly.2
      refine ⟨hrun, hcap'.trans hcap, fun id hid => ?_⟩
      rcases hmem id hid with hid | ⟨ev', hev', hpassed⟩
      · rcases hring with hring | ⟨id', hpassed, -, hring⟩
        · exact Or.inl (hring ▸ hid)
        · rcases Ring.mem_of_mem_push (hring ▸ hid) with hid | rfl
          · exact Or.inl hid
          · exact Or.inr ⟨ev, List.mem_cons_self, hpassed⟩
      · exact Or.inr ⟨ev', List.mem_cons_of_mem _ hev', hpassed⟩

/-- An id stays for as long as fewer other ids than the capacity are taken in. -/
theorem Faithful.trails (h : s.Faithful) {evs : List Event} (horderly : s.Orderly evs)
    {L : Finset String} (htrails : Ring.Trails id L s.ring)
    (hcard : ((L ∪ further s evs).erase id).card < s.capacity) :
    Ring.Trails id (L ∪ further s evs) (s.run evs).ring := by
  induction evs generalizing s L with
  | nil =>
      rw [further, Finset.union_empty]
      exact htrails
  | cons ev evs ih =>
      obtain ⟨hfaithful, hcap, hring⟩ := h.step horderly.1
      rw [further, ← Finset.union_assoc] at hcard ⊢
      refine ih hfaithful horderly.2 ?_ (hcap ▸ hcard)
      rcases hring with hring | ⟨id', -, hnew, hring⟩
      · rw [hring]
        exact htrails.mono Finset.subset_union_left
      · have htaken : id' ∈ (s.step ev).ring.filter fun id => id ∉ s.ring := by
          refine List.mem_filter.2 ⟨?_, by simpa using hnew⟩
          rw [hring]
          exact Ring.mem_push_self (lt_of_lt_of_le (by decide) s.minSeenIDs_le) _ _
        rw [hring] at htaken ⊢
        refine (htrails.mono Finset.subset_union_left).push h.exact.nodup hnew
          (Finset.mem_union_right _ (List.mem_toFinset.2 htaken)) (lt_of_le_of_lt ?_ hcard)
        refine Finset.card_le_card (Finset.erase_subset_erase _ ?_)
        rw [hring]
        exact Finset.subset_union_left

instance decidableOrderly : ∀ (s : SeenText) (evs : List Event), Decidable (s.Orderly evs)
  | _, [] => isTrue trivial
  | s, ev :: evs =>
      have := decidableOrderly (s.step ev) evs
      inferInstanceAs (Decidable (s.Fits ev ∧ (s.step ev).Orderly evs))

/-- What the ring is for: an id whose `Add` returned true is reported until as many other ids as the
capacity have been taken in, and nothing is reported that was not passed to `Add`. -/
structure Remembers (capacity : ℕ) (evs : List Event) : Prop where
  reported : ∀ before id after, evs = before ++ .add id :: after →
    (((empty capacity).run before).add id none).2 = true →
    ((further ((empty capacity).run (before ++ [.add id])) after).erase id).card <
      (empty capacity).capacity →
    ((empty capacity).run evs).contains id = true
  passed : ∀ id, ((empty capacity).run evs).contains id = true → ∃ ev ∈ evs, ev.passed = some id

/-- An `Add` that returned true leaves its id at the end: it was recorded just now, or it was the
newest already. -/
lemma Faithful.trails_add (h : s.Faithful) (hfits : s.Fits (.add id))
    (hok : (s.add id none).2 = true) : Ring.Trails id ∅ (s.step (.add id)).ring := by
  have hmem := h.mem_of_add hfits hok
  obtain ⟨-, -, hring⟩ := h.step hfits
  rcases hring with hring | ⟨id', hpassed, -, hring⟩
  · rw [hring] at hmem ⊢
    exact Ring.trails_of_getLast? (hfits.2 (by simpa [contains] using hmem))
  · obtain rfl : id = id' := Option.some.inj hpassed
    rw [hring]
    exact Ring.trails_of_getLast?
      (Ring.getLast?_push (lt_of_lt_of_le (by decide) s.minSeenIDs_le) _ _)

/-- In every run in which no append meets a torn line, and no id is passed that stands in the ring
already and is not the newest, the ring remembers. -/
theorem remembers_of_orderly {capacity : ℕ} {evs : List Event}
    (horderly : (empty capacity).Orderly evs) : Remembers capacity evs := by
  have hempty := faithful_empty capacity
  constructor
  · rintro before id after rfl hok hcard
    obtain ⟨hstart, hfits, hafter⟩ := horderly.append
    obtain ⟨hfaithful, hcap, -⟩ := hempty.run hstart
    obtain ⟨hadded, hcap', -⟩ := hfaithful.step hfits
    rw [run_append] at hcard ⊢
    have hstays := hadded.trails hafter (hfaithful.trails_add hfits hok)
      (by rw [Finset.empty_union, hcap', hcap]; exact hcard)
    have hmem : id ∈ (((empty capacity).run before).run (.add id :: after)).ring := hstays.mem
    simpa [contains] using hmem
  · intro id hid
    obtain ⟨-, -, hmem⟩ := hempty.run horderly
    exact (hmem id (by simpa [contains] using hid)).resolve_left List.not_mem_nil

end SeenText

/-! ## An append to a torn line -/

namespace Sample

/-- Three letters come in, and a reload between each two. -/
def wholeRun : List SeenText.Event :=
  [.add "l-1", .reload .done, .cut "l-2" 0 .done, .add "l-3", .reload .done]

/-- Power is lost two bytes into the second. -/
def tornRun : List SeenText.Event :=
  [.add "l-1", .cut "l-2" 2 .done, .add "l-3", .reload .done]

end Sample

namespace SeenText

theorem remembers_of_orderly_whole : Remembers 1000 Sample.wholeRun :=
  remembers_of_orderly (by decide)

/-- The third letter is recorded on the torn line, and the reload finds an id nobody passed. -/
theorem torn_append_forgets : ¬ ∀ capacity evs, Remembers capacity evs := by
  intro h
  have hreported := (h 1000 Sample.tornRun).reported [.add "l-1", .cut "l-2" 2 .done] "l-3"
    [.reload .done] rfl (by decide) (by decide)
  revert hreported
  decide

end SeenText
end Chaskiwasi.Device
