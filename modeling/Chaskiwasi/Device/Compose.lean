import Chaskiwasi.Device.Addressee
import Chaskiwasi.Mail.Graphemes
import Chaskiwasi.Outbound.Handler
import Mathlib.Algebra.GroupWithZero.Nat

/-!
# What the writing screen lets go, and what the server takes

The server takes a letter whose body, trimmed, is not empty, and has no more clusters than its cap.
The writing screen keeps to a cap while the child types.  It is the one that was stored when the
composition was opened: a pushed cap is for the next composition.

So a letter can leave that the server refuses: when the cap was lowered while it was being written.
What is typed never grows past the cap of its composition, or past the text that it was opened on.
-/

namespace Chaskiwasi.Device

/-! ## Text layout by clusters -/

/-- How many pages a body takes at a font step. -/
class Paging where
  pages : String → ℤ → ℕ

section Clusters

variable [Uniseg]

/-- `CountGraphemes`, `TruncateGraphemes` and `EraseLastGrapheme` cut at the boundaries of
`GraphemeBoundaries`. -/
instance clusterLayout [Paging] : Layout where
  countGraphemes := Graphemes.countClusters
  truncateGraphemes := fun s n => Graphemes.firstClusters (min n (Graphemes.countClusters s)) s
  eraseLastGrapheme := fun s =>
    if s = "" then s else Graphemes.firstClusters (Graphemes.countClusters s - 1) s
  pages := Paging.pages

/-- `graphemes.Count`, as the submission of a letter calls it. -/
instance clusterGraphemes : Graphemes := ⟨Graphemes.countClusters⟩

variable [Paging] {s : String} {n : ℕ}

lemma count_truncateGraphemes (s : String) (n : ℕ) :
    Graphemes.countClusters (Layout.truncateGraphemes s n) ≤ n := by
  show Graphemes.countClusters (Graphemes.firstClusters _ s) ≤ n
  rw [Graphemes.countClusters_firstClusters]
  omega

lemma count_eraseLastGrapheme (s : String) :
    Graphemes.countClusters (Layout.eraseLastGrapheme s) ≤ Graphemes.countClusters s := by
  show Graphemes.countClusters (if s = "" then s else Graphemes.firstClusters _ s) ≤ _
  split_ifs
  · exact le_rfl
  · rw [Graphemes.countClusters_firstClusters]
    omega

end Clusters

/-! ## Local ids -/

lemma utf8ByteSize_ofList (cs : List Char) :
    (String.ofList cs).utf8ByteSize = (cs.map Char.utf8Size).sum := by
  induction cs with
  | nil => rfl
  | cons c cs ih =>
      rw [← List.singleton_append, String.ofList_append, String.utf8ByteSize_append, ih]
      simp

lemma utf8Size_of_isDigit {c : Char} (h : c.isDigit = true) : c.utf8Size = 1 := by
  simp only [Char.isDigit, Bool.and_eq_true, decide_eq_true_eq] at h
  rw [Char.utf8Size_eq_one_iff, UInt32.le_iff_toNat_le]
  exact le_trans (UInt32.le_iff_toNat_le.1 h.2) (by decide)

lemma utf8ByteSize_of_isDigit {cs : List Char} (h : ∀ c ∈ cs, c.isDigit = true) :
    (String.ofList cs).utf8ByteSize = cs.length := by
  rw [utf8ByteSize_ofList, List.map_congr_left fun c hc => utf8Size_of_isDigit (h c hc)]
  simp

/-- A local id fits its field on the wire. -/
lemma utf8ByteSize_formatLocalID {n : ℕ} (h : n < 2 ^ 64) :
    (formatLocalID n).utf8ByteSize ≤ maxLocalIDBytes := by
  have hlength : (Nat.toDigits 10 n).length ≤ 20 :=
    (Nat.length_toDigits_le_iff (by decide) (by decide)).2 (by omega)
  have hdigits : ∀ c ∈ List.replicate (localIDDigits - (Nat.toDigits 10 n).length) '0' ++
      Nat.toDigits 10 n, c.isDigit = true := by
    intro c hc
    rcases List.mem_append.1 hc with hc | hc
    · rw [List.eq_of_mem_replicate hc]
      rfl
    · exact Nat.isDigit_of_mem_toDigits (by decide) (by decide) hc
  rw [formatLocalID, utf8ByteSize_of_isDigit hdigits, List.length_append,
    List.length_replicate, localIDDigits, maxLocalIDBytes]
  omega

/-! ## One composition -/

/-- The interface, with the text that the composition was opened on, or last taken up with from the
outbox or at the question about the slot. -/
structure Drafted where
  ui : Ui
  opened : String := ""

section Runs

variable [Uniseg] [Paging] {u v : Ui} {act : UiAct} {d d' : Drafted} {p : Pending} {io : UiIO}

namespace Drafted

def openedAfter (d : Drafted) (act : UiAct) (v : Ui) : String :=
  if v.draftOpen = true ∧ (d.ui.draftOpen = false ∨ act.key? = some .enter ∧
      (d.ui.screen = .outbox ∨ d.ui.screen = .draftConflict)) then v.body
  else d.opened

def step (d : Drafted) (act : UiAct) : Option Drafted :=
  (d.ui.step act).map fun v => ⟨v, d.openedAfter act v⟩

/-- The body is within the cap of its composition, or no longer than it was. -/
def Within (d : Drafted) : Prop :=
  Graphemes.countClusters d.ui.body ≤ max (Graphemes.countClusters d.opened) d.ui.composeMax

end Drafted

omit [Paging] in
lemma countClusters_empty : Graphemes.countClusters "" = 0 := Segmentation.count_nil

omit [Uniseg] [Paging] in
lemma body_startDraft (u : Ui) (p : Pending) (io : UiIO) :
    (u.startDraft p io).draftOpen = true ∧ (u.startDraft p io).body = p.body ∨
      (u.startDraft p io).body = u.body ∧ (u.startDraft p io).composeMax = u.composeMax := by
  rcases u.startDraft_cases p io with
    ⟨-, hdesk⟩ | ⟨drafts, -, ⟨-, hdesk⟩ | ⟨-, -, hdesk⟩ | ⟨-, -, hdesk⟩⟩
  · exact Or.inr ⟨congrArg Desk.body hdesk, congrArg Desk.composeMax hdesk⟩
  · exact Or.inr ⟨congrArg Desk.body hdesk, congrArg Desk.composeMax hdesk⟩
  · exact Or.inl ⟨congrArg Desk.draftOpen hdesk, congrArg Desk.body hdesk⟩
  · exact Or.inr ⟨congrArg Desk.body hdesk, congrArg Desk.composeMax hdesk⟩

omit [Uniseg] [Paging] in
lemma body_autosaveDraft (u : Ui) (io : UiIO) :
    (u.autosaveDraft io).body = u.body ∧ (u.autosaveDraft io).composeMax = u.composeMax := by
  have hdesk := u.desk_autosaveDraft io
  have hbody := congrArg Desk.body hdesk
  have hcap := congrArg Desk.composeMax hdesk
  unfold Desk.autosaveDraft at hbody hcap
  split_ifs at hbody hcap
  · exact ⟨hbody, hcap⟩
  · exact ⟨hbody, hcap⟩

omit [Uniseg] [Paging] in
lemma body_send (u : Ui) (io : UiIO) :
    ((u.send io).body = u.body ∨ (u.send io).body = "") ∧
      (u.send io).composeMax = u.composeMax := by
  rcases u.send_cases io with
    ⟨-, hdesk⟩ | ⟨b, -, -, ⟨-, hdesk⟩ | ⟨-, -, -, hdesk⟩ | ⟨-, -, -, hdesk⟩ | ⟨-, -, hdesk⟩⟩
  · exact ⟨Or.inl (congrArg Desk.body hdesk), congrArg Desk.composeMax hdesk⟩
  · obtain ⟨hbody, hcap⟩ := body_autosaveDraft u io
    exact ⟨Or.inl ((congrArg Desk.body hdesk).trans hbody),
      (congrArg Desk.composeMax hdesk).trans hcap⟩
  · exact ⟨Or.inr (congrArg Desk.body hdesk), congrArg Desk.composeMax hdesk⟩
  · exact ⟨Or.inl (congrArg Desk.body hdesk), congrArg Desk.composeMax hdesk⟩
  · exact ⟨Or.inl (congrArg Desk.body hdesk), congrArg Desk.composeMax hdesk⟩

/-- Typing keeps within the cap of the composition, erasing makes the body no longer. -/
lemma body_setFieldText {text : String} (h : u.Edited text) :
    (u.setFieldText text).composeMax = u.composeMax ∧
      (Graphemes.countClusters (u.setFieldText text).body ≤ u.composeMax ∨
        Graphemes.countClusters (u.setFieldText text).body ≤
          Graphemes.countClusters u.body) := by
  cases hfield : u.field with
  | subject =>
      have hset : u.setFieldText text = { u with subject := text } := by
        unfold Ui.setFieldText
        rw [hfield]
      rw [hset]
      exact ⟨rfl, Or.inr le_rfl⟩
  | body =>
      have hset : u.setFieldText text = { u with body := text } := by
        unfold Ui.setFieldText
        rw [hfield]
      have hcap : u.fieldCap = u.composeMax := by rw [Ui.fieldCap, hfield]
      have htext : u.fieldText = u.body := by rw [Ui.fieldText, hfield]
      rw [hset]
      refine ⟨rfl, ?_⟩
      cases h with
      | appended codepoint _ hfits =>
          rw [hcap] at hfits
          exact Or.inl hfits
      | truncated codepoint _ =>
          rw [hcap]
          exact Or.inl (count_truncateGraphemes _ _)
      | erased =>
          rw [htext]
          exact Or.inr (count_eraseLastGrapheme _)

omit [Uniseg] [Paging] in
/-- A session opens with nothing written. -/
lemma body_opened (deps : Deps) (initial : Screen) (io : UiIO) :
    (opened deps initial io).body = "" := by
  unfold opened Ui.start
  dsimp only
  split_ifs
  · exact congrArg Desk.body ((Ui.desk_present _ _).trans (Ui.desk_goTo _ _))
  · exact congrArg Desk.body ((Ui.desk_present _ _).trans (Ui.desk_goTo _ _))
  · unfold Ui.offerPendingDraftOr
    split_ifs
    · exact congrArg Desk.body ((Ui.desk_present _ _).trans (Ui.desk_goTo _ _))
    · exact congrArg Desk.body ((Ui.desk_present _ _).trans (Ui.desk_goTo _ _))

/-- What an event makes of the body: it is another one, or was typed within the cap, or is no
longer than it was. -/
lemma body_of_effect (h : Ui.Effect u act v) :
    (v.draftOpen = true ∧ (u.draftOpen = false ∨ act.key? = some .enter ∧
      (u.screen = .outbox ∨ u.screen = .draftConflict))) ∨
    v.composeMax = u.composeMax ∧ (Graphemes.countClusters v.body ≤ u.composeMax ∨
      Graphemes.countClusters v.body ≤ Graphemes.countClusters u.body) := by
  have hsame : v.body = u.body → v.composeMax = u.composeMax →
      v.composeMax = u.composeMax ∧ (Graphemes.countClusters v.body ≤ u.composeMax ∨
        Graphemes.countClusters v.body ≤ Graphemes.countClusters u.body) := fun hbody hcap =>
    ⟨hcap, Or.inr (le_of_eq (by rw [hbody]))⟩
  have hgone : v.body = "" → v.composeMax = u.composeMax →
      v.composeMax = u.composeMax ∧ (Graphemes.countClusters v.body ≤ u.composeMax ∨
        Graphemes.countClusters v.body ≤ Graphemes.countClusters u.body) := by
    intro hbody hcap
    rw [hbody, countClusters_empty]
    exact ⟨hcap, Or.inl (Nat.zero_le _)⟩
  cases h with
  | stays | fields | adjusts | background => exact Or.inr (hsame rfl rfl)
  | goes s => exact Or.inr (hsame (u.body_goTo s) (u.composeMax_goTo s))
  | offers => exact Or.inr (hsame (Ui.body_goTo _ _) (Ui.composeMax_goTo _ _))
  | edits text _ hedited => exact Or.inr (body_setFieldText hedited)
  | saves =>
      obtain ⟨hbody, hcap⟩ := body_autosaveDraft u act.io
      exact Or.inr (hsame hbody hcap)
  | leaves =>
      obtain ⟨hbody, hcap⟩ := body_autosaveDraft u act.io
      exact Or.inr (hsame ((Ui.body_goTo _ _).trans hbody) ((Ui.composeMax_goTo _ _).trans hcap))
  | attaches c =>
      obtain ⟨hbody, hcap⟩ := body_autosaveDraft { u with contactID := c.id } act.io
      exact Or.inr (hsame ((Ui.body_goTo _ _).trans hbody) ((Ui.composeMax_goTo _ _).trans hcap))
  | begins c _ _ hclosed =>
      rcases body_startDraft u { kind := .newLetter, contactID := c.id } act.io with
        ⟨hopen, -⟩ | ⟨hbody, hcap⟩
      · exact Or.inl ⟨hopen, Or.inl hclosed⟩
      · exact Or.inr (hsame hbody hcap)
  | reopens q hscreen hkey =>
      rcases body_startDraft u ⟨.recompose, q.contactID, q.subject, q.body, q.localID⟩ act.io with
        ⟨hopen, -⟩ | ⟨hbody, hcap⟩
      · exact Or.inl ⟨hopen, Or.inr ⟨hkey, Or.inl hscreen⟩⟩
      · exact Or.inr (hsame hbody hcap)
  | sends =>
      obtain ⟨hbody | hbody, hcap⟩ := body_send u act.io
      · exact Or.inr (hsame hbody hcap)
      · exact Or.inr (hgone hbody hcap)
  | keeps hscreen hkey =>
      rcases u.keepPendingDraft_cases act.io with ⟨-, hdesk⟩ | ⟨draft, -, hdesk⟩
      · exact Or.inr (hsame (congrArg Desk.body hdesk) (congrArg Desk.composeMax hdesk))
      · exact Or.inl ⟨congrArg Desk.draftOpen hdesk, Or.inr ⟨hkey, Or.inr hscreen⟩⟩
  | drops hscreen hkey =>
      rw [Ui.dropPendingDraft_eq] at hgone ⊢
      split_ifs at hgone ⊢
      · exact Or.inr (hgone (Ui.body_goTo _ _) (Ui.composeMax_goTo _ _))
      · rcases body_startDraft (u.dropped act.io) u.pending act.io with ⟨hopen, -⟩ | ⟨hbody, hcap⟩
        · exact Or.inl ⟨hopen, Or.inr ⟨hkey, Or.inr hscreen⟩⟩
        · exact Or.inr (hgone hbody hcap)

/-- One event keeps the body within the cap of its composition, or the text it was opened on. -/
lemma Drafted.Within.step (hd : d.Within) (h : d.step act = some d') : d'.Within := by
  obtain ⟨v, hv, rfl⟩ := Option.map_eq_some_iff.1 h
  obtain ⟨w, heffect, hdesk⟩ := Ui.step_effect hv
  obtain ⟨k, m, hnoted⟩ := d.ui.noted_eq act
  rw [hnoted] at heffect
  have hopen : v.draftOpen = w.draftOpen := congrArg Desk.draftOpen hdesk
  have hbody : v.body = w.body := congrArg Desk.body hdesk
  have hcap : v.composeMax = w.composeMax := congrArg Desk.composeMax hdesk
  unfold Within at hd ⊢
  show Graphemes.countClusters v.body ≤
    max (Graphemes.countClusters (d.openedAfter act v)) v.composeMax
  unfold openedAfter
  by_cases hnew : v.draftOpen = true ∧ (d.ui.draftOpen = false ∨ act.key? = some .enter ∧
      (d.ui.screen = .outbox ∨ d.ui.screen = .draftConflict))
  · rw [if_pos hnew]
    exact le_max_left _ _
  · rw [if_neg hnew]
    rcases body_of_effect heffect with hopened | ⟨hsame, htyped | hshorter⟩
    · exact absurd ⟨hopen.trans hopened.1, hopened.2⟩ hnew
    · rw [hbody, hcap, hsame]
      exact le_trans htyped (le_max_right _ _)
    · rw [hbody, hcap, hsame]
      exact le_trans hshorter hd

/-- The cap that the device has stored. -/
def storedCap (u : Ui) : Option ℤ := u.deps.settings.map Settings.maxLetterChars

/-- A letter that a key puts in the outbox, with the interface before it. -/
structure Sent (u : Ui) (act : UiAct) (e : OutboxEntry) : Prop where
  key : act.key? = some .enter
  added : ∃ v o, u.step act = some v ∧ v.deps.outbox = some o ∧ e ∈ o.files
  new : ∀ o, u.deps.outbox = some o → e ∉ o.files

/-- Whatever a session sends while the stored cap is the server's, the server takes. -/
def EverySentTaken : Prop :=
  ∀ (deps : Deps) (initial : Screen) (io : UiIO) (acts : List UiAct) (u : Ui) (act : UiAct)
    (e : OutboxEntry) (m : ℤ), Run.run Ui.step (opened deps initial io) acts = some u →
    Sent u act e → storedCap u = some m →
    validOutbound e.item.letter e.item.unknownFields m = true

/-- **What is sent under the cap it was written under, the server takes.**  In every run of events
from the opening of a session, whatever is pushed meanwhile: a letter that is sent, and says
something, is one that the server takes under its cap, if the composition was opened under no higher
cap, on a text within it. -/
theorem sent_taken {deps : Deps} {initial : Screen} {io : UiIO} {acts : List UiAct}
    {e : OutboxEntry} {m : ℤ}
    (hrun : Run.run Drafted.step ⟨Device.opened deps initial io, ""⟩ acts = some d)
    (hsent : Sent d.ui act e) (hcap : (d.ui.composeMax : ℤ) ≤ m)
    (hopened : (Graphemes.countClusters d.opened : ℤ) ≤ m)
    (hwords : trimSpace e.body.toList ≠ []) :
    validOutbound e.item.letter e.item.unknownFields m = true := by
  have hwithin : d.Within := by
    refine Run.run_invariant (fun _ _ _ hs h => Drafted.Within.step hs h) ?_ hrun
    have hbody : (Device.opened deps initial io).body = "" := body_opened deps initial io
    show Graphemes.countClusters (Device.opened deps initial io).body ≤ _
    rw [hbody, countClusters_empty]
    exact Nat.zero_le _
  obtain ⟨v, o, hstep, ho, he⟩ := hsent.added
  obtain ⟨b, rfl⟩ := mem_files_of_step hstep hsent.key ho he hsent.new
  have hcount : (Graphemes.countClusters d.ui.body : ℤ) ≤ m := by
    unfold Drafted.Within at hwithin
    omega
  have hid : (formatLocalID b.next).utf8ByteSize ≤ maxLocalIDBytes :=
    utf8ByteSize_formatLocalID (Nat.mod_lt _ (by decide))
  show (!false && decide ((formatLocalID b.next).utf8ByteSize ≤ maxLocalIDBytes) &&
    decide (trimSpace d.ui.body.toList ≠ []) &&
    decide ((Graphemes.countClusters d.ui.body : ℤ) ≤ m)) = true
  rw [decide_eq_true hid, decide_eq_true (show trimSpace d.ui.body.toList ≠ [] from hwords),
    decide_eq_true hcount]
  rfl

end Runs

namespace Sample

@[reducible]
def paging : Paging := ⟨fun _ _ => 1⟩

/-- Two people to write to, and letters of at most two characters. -/
def shortDeps : Deps := { postDeps with settings := some { maxLetterChars := 2 } }

/-- A letter of two characters, about to be sent. -/
def twoLetters : List UiAct :=
  [⟨.key ⟨.right, 0⟩, {}⟩, ⟨.key ⟨.enter, 0⟩, {}⟩, ⟨.key ⟨.char, 104⟩, {}⟩,
    ⟨.key ⟨.char, 105⟩, {}⟩]

/-- The cap is lowered to one character. -/
def lowered : UiAct := ⟨.background { shortDeps with settings := some { maxLetterChars := 1 } }, {}⟩

def sends : UiAct := ⟨.key ⟨.enter, 0⟩, {}⟩

/-- The letter that is sent. -/
def hi : OutboxEntry := ⟨"0000000000000001", "c_01", "", "hi", 0, false, none, 0⟩

end Sample

/-- The letter is sent where this evaluates to true. -/
lemma sent_of_any [Uniseg] [Paging] {u : Ui} (houtbox : u.deps.outbox = some {})
    (hafter : ((u.step Sample.sends).any fun v =>
      v.deps.outbox.any fun o => decide (o.files = [Sample.hi])) = true) :
    Sent u Sample.sends Sample.hi := by
  obtain ⟨v, hv, hfiles⟩ := (Option.any_eq_true _ _).1 hafter
  obtain ⟨o, ho, hhi⟩ := (Option.any_eq_true _ _).1 hfiles
  refine ⟨rfl, ⟨v, o, hv, ho, ?_⟩, fun o' ho' => ?_⟩
  · rw [of_decide_eq_true hhi]
    exact List.mem_singleton_self _
  · obtain rfl := Option.some.inj (houtbox.symm.trans ho')
    exact nofun

/-- Under the cap that it was written under, the letter is taken. -/
theorem two_letters_taken :
    @validOutbound (@clusterGraphemes Sample.uniseg) Sample.hi.item.letter
      Sample.hi.item.unknownFields 2 = true := by
  have heval : ((Run.run (@Drafted.step Sample.uniseg Sample.paging)
      ⟨opened Sample.shortDeps .inbox {}, ""⟩ Sample.twoLetters).any fun d =>
        decide (d.ui.deps.outbox = some {} ∧ d.ui.composeMax = 2 ∧ d.opened = "") &&
          (@Ui.step (@clusterLayout Sample.uniseg Sample.paging) d.ui Sample.sends).any fun v =>
            v.deps.outbox.any fun o => decide (o.files = [Sample.hi])) = true := by
    decide +kernel
  obtain ⟨d, hrun, hd⟩ := Run.exists_of_any heval
  obtain ⟨hbefore, hafter⟩ := Bool.and_eq_true_iff.1 hd
  obtain ⟨houtbox, hcap, hopened⟩ := of_decide_eq_true hbefore
  have hsent := @sent_of_any Sample.uniseg Sample.paging d.ui houtbox hafter
  refine @sent_taken Sample.uniseg Sample.paging Sample.sends d Sample.shortDeps .inbox {}
    Sample.twoLetters Sample.hi 2 hrun hsent (by rw [hcap]; rfl) ?_ (by decide +kernel)
  rw [hopened]
  decide +kernel

/-- A cap that was lowered while the letter was being written lets it go, and the server refuses
it. -/
theorem lowered_cap_refused : ¬ @EverySentTaken Sample.uniseg Sample.paging := by
  intro hclaim
  have heval : ((Run.run (@Ui.step (@clusterLayout Sample.uniseg Sample.paging))
      (opened Sample.shortDeps .inbox {}) (Sample.twoLetters ++ [Sample.lowered])).any fun u =>
        decide (u.deps.outbox = some {} ∧ storedCap u = some 1) &&
          (@Ui.step (@clusterLayout Sample.uniseg Sample.paging) u Sample.sends).any fun v =>
            v.deps.outbox.any fun o => decide (o.files = [Sample.hi])) = true := by
    decide +kernel
  obtain ⟨u, hrun, hu⟩ := Run.exists_of_any heval
  obtain ⟨hbefore, hafter⟩ := Bool.and_eq_true_iff.1 hu
  obtain ⟨houtbox, hstored⟩ := of_decide_eq_true hbefore
  have hsent := @sent_of_any Sample.uniseg Sample.paging u houtbox hafter
  have hvalid := hclaim _ _ _ _ u Sample.sends Sample.hi 1 hrun hsent hstored
  exact absurd hvalid (by decide +kernel)

end Chaskiwasi.Device
