import Chaskiwasi.Device.Compose
import Chaskiwasi.Lib.JsonSize
import Chaskiwasi.Sync.Codec
import Mathlib.Algebra.Order.BigOperators.Group.List
import Mathlib.Algebra.GroupWithZero.Nat

/-!
# How long a request gets

The writing screen counts clusters, and the server's limit on a request counts bytes, after the
escapes of JSON.  Nothing on the device relates the two: a cluster may have any number of bytes, the
cap any value that the server pushes, and the outbox holds a dozen letters.

A request is as long as its fixed part and the weights of its letters (`printedBytes_eq`), so
whether it can be sent is a matter of what those add up to (`sendable_iff_fits`).  Only the end of a
letter adds to the outbox, so a session keeps to requests that can be sent exactly where every
letter that is finished leaves the limit, with those that wait (`outbox_sendable_iff`).
-/

namespace Chaskiwasi

open Device

namespace Codec

/-- The bytes of a character in a printed string. -/
def weight (c : Char) : ℕ :=
  if c ∈ ['"', '\\', '\x08', '\x0c', '\n', '\r', '\t'] then 2
  else if c.toNat < 32 then 6
  else c.utf8Size

/-- The bytes of a printed string, without its quotes. -/
def textBytes (s : String) : ℕ := ((cstr s).toList.map weight).sum

/-- The bytes of a printed letter. -/
def letterBytes (o : Outbound) : ℕ :=
  41 + textBytes o.localID + textBytes o.contactID + textBytes o.body +
    if o.subject = "" then 0 else 13 + textBytes o.subject

/-- The bytes of the letters of a request. -/
def outboundBytes (os : List Outbound) : ℕ :=
  if os = [] then 0 else 13 + (os.map fun o => letterBytes o + 1).sum

/-- The bytes of a request without its letters. -/
def headBytes (r : Request) : ℕ :=
  30 + textBytes r.cursor + Json.width (Literal.int r.aylluVersion).print +
    (if r.pututuCounterSeen = 0 then 0 else 23 + Json.width (number r.pututuCounterSeen).print) +
    ((r.kipu.bind kipuBlock).map fun block => 8 + printedBytes block).getD 0

/-! ## The length of a request -/

lemma width_escape (c : Char) : Json.width (escape c) = weight c := by
  by_cases hshort : c ∈ ['"', '\\', '\x08', '\x0c', '\n', '\r', '\t']
  · rw [weight, if_pos hshort]
    simp only [List.mem_cons, List.not_mem_nil, or_false] at hshort
    rcases hshort with rfl | rfl | rfl | rfl | rfl | rfl | rfl <;> decide
  · have hdigit : ∀ n < 16, (Nat.digitChar n).utf8Size = 1 := by decide
    rw [weight, if_neg hshort]
    simp only [List.mem_cons, List.not_mem_nil, or_false, not_or] at hshort
    obtain ⟨hquote, hslash, hback, hfeed, hline, hreturn, htab⟩ := hshort
    rw [escape, if_neg hquote, if_neg hslash, if_neg hback, if_neg hfeed, if_neg hline,
      if_neg hreturn, if_neg htab]
    split_ifs with hcontrol
    · have hfixed : Json.width ['\\', 'u', '0', '0'] = 4 := by decide
      have hsplit : ['\\', 'u', '0', '0', Nat.digitChar (c.toNat / 16),
          Nat.digitChar (c.toNat % 16)] = ['\\', 'u', '0', '0'] ++
            [Nat.digitChar (c.toNat / 16), Nat.digitChar (c.toNat % 16)] := rfl
      rw [hsplit, Json.width_append, hfixed, Json.width_cons, Json.width_cons, Json.width_nil,
        hdigit _ (by omega), hdigit _ (Nat.mod_lt _ (by decide))]
    · rw [Json.width_cons, Json.width_nil, Nat.add_zero]

lemma printedBytes_eq_size (j : Json) : printedBytes j = j.size escape := rfl

lemma size_text (s : String) : (text s).size escape = 2 + textBytes s := by
  rw [text, Json.size_str, Json.quotedSize_eq escape width_escape, textBytes]

lemma size_outbound (o : Outbound) : (encodeOutbound o).size escape = letterBytes o := by
  have hlocal : Json.quotedSize escape "local_id" = 10 := by decide
  have hcontact : Json.quotedSize escape "contact_id" = 12 := by decide
  have hsubject : Json.quotedSize escape "subject" = 9 := by decide
  have hbody : Json.quotedSize escape "body" = 6 := by decide
  rw [encodeOutbound, Json.size_obj escape (by simp), letterBytes]
  simp only [List.map_append, List.sum_append, Json.sum_optional_ite, List.map_cons, List.map_nil,
    List.sum_cons, List.sum_nil, Json.fieldSize, hlocal, hcontact, hsubject, hbody, size_text]
  split_ifs <;> omega

/-- A request is as long as its fixed part and its letters. -/
theorem printedBytes_eq (r : Request) :
    printedBytes (encodeRequest r) = headBytes r + outboundBytes r.outbound := by
  have hcursor : Json.quotedSize escape "cursor" = 8 := by decide
  have hversion : Json.quotedSize escape "ayllu_version" = 15 := by decide
  have hcounter : Json.quotedSize escape "pututu_counter_seen" + 2 = 23 := by decide
  have hkey : Json.quotedSize escape "kipu" = 6 := by decide
  have houtbound : Json.quotedSize escape "outbound" + 2 = 12 := by decide
  have hkipu : ((Json.optional "kipu" (r.kipu.bind kipuBlock)).map (Json.fieldSize escape)).sum =
      ((r.kipu.bind kipuBlock).map fun block => 8 + printedBytes block).getD 0 := by
    rw [Json.sum_optional, hkey]
    rfl
  have hletters : (if r.outbound = [] then 0
      else 12 + (Json.arr (r.outbound.map encodeOutbound)).size escape) =
        outboundBytes r.outbound := by
    rw [outboundBytes]
    split_ifs with hempty
    · rfl
    · rw [Json.size_arr escape (by simpa using hempty), List.map_map]
      simp only [Function.comp_def, size_outbound]
      omega
  rw [printedBytes_eq_size, encodeRequest, Json.size_obj escape (by simp), headBytes]
  simp only [List.map_append, List.sum_append, Json.sum_optional_ite, houtbound, hletters, hkipu,
    hcounter, List.map_cons, List.map_nil, List.sum_cons, List.sum_nil, Json.fieldSize, hcursor,
    hversion, size_text, int, Json.size_num]
  omega

end Codec

namespace Device

open Codec

/-! ## The outbox in a request -/

/-- What else `BuildRequest` reads. -/
structure Head where
  cursor : String := ""
  aylluVersion : CInt := ⟨0, by decide⟩
  pututuCounterSeen : ℕ := 0
  kipu : Option Kipu := none

/-- `BuildRequest`. -/
def buildRequest (h : Head) (b : Outbox) : Request where
  cursor := h.cursor
  aylluVersion := h.aylluVersion
  pututuCounterSeen := h.pututuCounterSeen
  kipu := h.kipu
  outbound := b.sendable.map fun e => e.item.letter

/-- The request can be sent. -/
def Sendable (h : Head) (b : Outbox) : Prop :=
  printedBytes (encodeRequest (buildRequest h b)) ≤ maxRequestBytes

/-- The fixed part of a request and the weights of letters leave the limit. -/
def Fits (h : Head) (es : List OutboxEntry) : Prop :=
  headBytes (buildRequest h {}) + outboundBytes (es.map fun e => e.item.letter) ≤ maxRequestBytes

instance (h : Head) (es : List OutboxEntry) : Decidable (Fits h es) := Nat.decLe _ _

/-- A request can be sent exactly where the letters of the outbox fit. -/
theorem sendable_iff_fits (h : Head) (b : Outbox) : Sendable h b ↔ Fits h b.sendable := by
  rw [Sendable, printedBytes_eq]
  rfl

lemma outboundBytes_le {xs ys : List Outbound} (h : xs.Subperm ys) :
    outboundBytes xs ≤ outboundBytes ys := by
  obtain ⟨zs, hperm, hsub⟩ := h
  have hsum : (xs.map fun o => letterBytes o + 1).sum ≤
      (ys.map fun o => letterBytes o + 1).sum := by
    rw [← (hperm.map _).sum_eq]
    exact (hsub.map _).sum_le_sum fun n _ => Nat.zero_le n
  unfold outboundBytes
  by_cases hys : ys = []
  · have hxs : xs = [] := by
      rw [hys, List.sublist_nil] at hsub
      rw [hsub] at hperm
      exact hperm.symm.eq_nil
    rw [if_pos hxs, if_pos hys]
  · rw [if_neg hys]
    split_ifs
    · exact Nat.zero_le _
    · exact Nat.add_le_add_left hsum 13

lemma Fits.of_subperm {h : Head} {xs ys : List OutboxEntry} (hfits : Fits h ys)
    (hsub : xs.Subperm ys) : Fits h xs := by
  obtain ⟨zs, hperm, hsub⟩ := hsub
  have hle := outboundBytes_le ⟨zs.map fun e => e.item.letter, hperm.map _, hsub.map _⟩
  unfold Fits at hfits ⊢
  omega

/-! ## What an event does to the letters that wait -/

/-- The letter that is being written is finished and put in the outbox. -/
structure Finishes (u : Ui) (act : UiAct) (b : Outbox) : Prop where
  key : act.key? = some .enter
  screen : u.screen = .composeWrite
  body : u.body ≠ ""
  outbox : u.deps.outbox = some b
  room : b.sendableCount < outboxCap
  minted : act.io.mintLocalID.ok = true
  added : act.io.addLetter.ok = true

instance (u : Ui) (act : UiAct) (b : Outbox) : Decidable (Finishes u act b) :=
  decidable_of_iff
    (act.key? = some .enter ∧ u.screen = .composeWrite ∧ u.body ≠ "" ∧ u.deps.outbox = some b ∧
      b.sendableCount < outboxCap ∧ act.io.mintLocalID.ok = true ∧ act.io.addLetter.ok = true)
    ⟨fun ⟨hkey, hscreen, hbody, hb, hroom, hmint, hadd⟩ =>
      ⟨hkey, hscreen, hbody, hb, hroom, hmint, hadd⟩,
      fun h => ⟨h.key, h.screen, h.body, h.outbox, h.room, h.minted, h.added⟩⟩

lemma ne_background_of_key {act : UiAct} (h : act.key?.isSome = true) (deps : Deps) :
    act.event ≠ .background deps := by
  intro hevent
  rw [UiAct.key?, hevent] at h
  cases h

/-- What happens in the background puts no letter in the outbox. -/
def TakesOut (u : Ui) (act : UiAct) : Prop :=
  ∀ deps, act.event = .background deps → ∀ b', deps.outbox = some b' →
    ∃ b, u.deps.outbox = some b ∧ b'.sendable.Subperm b.sendable

/-- A letter that is finished fits, with those that wait. -/
def LeavesRoom (h : Head) (u : Ui) (act : UiAct) : Prop :=
  ∀ b, Finishes u act b → Fits h (b.sendable ++ [u.finished b act.io])

instance (h : Head) (u : Ui) (act : UiAct) : Decidable (LeavesRoom h u act) :=
  decidable_of_iff
    (∀ b ∈ u.deps.outbox, Finishes u act b → Fits h (b.sendable ++ [u.finished b act.io]))
    ⟨fun hroom b hfinishes => hroom b hfinishes.outbox hfinishes, fun hroom b _ => hroom b⟩

/-- The letters that wait, up to their order. -/
lemma sendable_perm (b : Outbox) : b.sendable.Perm (b.entries.filter fun e => !e.rejected) :=
  (List.perm_insertionSort _ b.entries).filter _

lemma sendable_subperm {b b' : Outbox} (h : b'.entries.Sublist b.entries) :
    b'.sendable.Subperm b.sendable :=
  ((sendable_perm b').subperm.trans (h.filter _).subperm).trans (sendable_perm b).symm.subperm

/-- A letter that is put in the outbox waits with the others. -/
lemma sendable_insert {b : Outbox} {e : OutboxEntry} {o o' : WriteOutcome} (ho' : o'.ok = true)
    (he : e.rejected = false) :
    (((b.mint o).insert e o').sendable).Perm (b.sendable ++ [e]) := by
  have hentries : ((b.mint o).insert e o').entries = b.entries ++ [e] := if_pos ho'
  have hnew : ([e].filter fun e => !e.rejected) = [e] := by
    rw [List.filter_cons_of_pos (by rw [he]; rfl), List.filter_nil]
  refine (sendable_perm _).trans ?_
  rw [hentries, List.filter_append, hnew]
  exact (sendable_perm b).symm.append_right [e]

/-- Discarding a letter puts none in the outbox. -/
lemma entries_discard (b : Outbox) (localID : String) (o : WriteOutcome) :
    (b.discard localID o).1.entries.Sublist b.entries := by
  unfold Outbox.discard
  split
  · exact List.Sublist.refl _
  · unfold Outbox.erase
    dsimp only
    split_ifs
    · exact List.filter_sublist
    · exact List.filter_sublist
    · exact List.Sublist.refl _
    · exact List.Sublist.refl _

/-- Everything that waits in an outbox was waiting in another one. -/
def Shrinks (x y : Option Outbox) : Prop :=
  ∀ b', y = some b' → ∃ b, x = some b ∧ b'.entries.Sublist b.entries

lemma shrinks_of_eq {x y : Option Outbox} (h : y = x) : Shrinks x y :=
  fun b' hb' => ⟨b', h.symm.trans hb', List.Sublist.refl _⟩

lemma shrinks_startDraft (u : Ui) (p : Pending) (io : UiIO) :
    Shrinks u.deps.outbox (u.startDraft p io).deps.outbox := by
  rcases u.startDraft_cases p io with
    ⟨-, hdesk⟩ | ⟨drafts, -, ⟨-, hdesk⟩ | ⟨-, -, hdesk⟩ | ⟨-, -, hdesk⟩⟩
  · exact shrinks_of_eq (congrArg Desk.outbox hdesk)
  · exact shrinks_of_eq (congrArg Desk.outbox hdesk)
  · have houtbox := congrArg Desk.outbox hdesk
    by_cases hkind : p.kind = .recompose
    · have hdiscard : (u.startDraft p io).deps.outbox =
          u.deps.outbox.map fun b => (b.discard p.localID io.discardLetter).1 :=
        houtbox.trans (if_pos hkind)
      intro b' hb'
      obtain ⟨b, hb, rfl⟩ := Option.map_eq_some_iff.1 (hdiscard.symm.trans hb')
      exact ⟨b, hb, entries_discard b _ _⟩
    · exact shrinks_of_eq (houtbox.trans (if_neg hkind))
  · exact shrinks_of_eq (congrArg Desk.outbox hdesk)

/-- Sending puts the finished letter in the outbox, or nothing. -/
lemma shrinks_send {u : Ui} {act : UiAct} (hkey : act.key? = some .enter)
    (hscreen : u.screen = .composeWrite) :
    (∃ b, Finishes u act b ∧ (u.send act.io).deps.outbox =
      some ((b.mint act.io.mintLocalID).insert (u.finished b act.io) act.io.addLetter)) ∨
    (∀ b, ¬ Finishes u act b) ∧ Shrinks u.deps.outbox (u.send act.io).deps.outbox := by
  rcases u.send_cases act.io with ⟨hnot, hdesk⟩ | ⟨b, hbody, hb, hcases⟩
  · refine Or.inr ⟨fun b hfinishes => ?_, shrinks_of_eq (congrArg Desk.outbox hdesk)⟩
    rcases hnot with hempty | hnone
    · exact hfinishes.body hempty
    · cases hnone.symm.trans hfinishes.outbox
  · have hsame : ∀ {b'}, Finishes u act b' → b' = b := fun hfinishes =>
      Option.some.inj (hfinishes.outbox.symm.trans hb)
    rcases hcases with
      ⟨hfull, hdesk⟩ | ⟨hroom, hmint, hadd, hdesk⟩ | ⟨-, -, hadd, hdesk⟩ | ⟨-, hmint, hdesk⟩
    · refine Or.inr ⟨fun b' hfinishes => ?_, shrinks_of_eq ?_⟩
      · obtain rfl := hsame hfinishes
        exact absurd hfull (not_le.2 hfinishes.room)
      · exact (congrArg Desk.outbox hdesk).trans (u.outbox_autosaveDraft act.io)
    · exact Or.inl ⟨b, ⟨hkey, hscreen, hbody, hb, hroom, hmint, hadd⟩, congrArg Desk.outbox hdesk⟩
    · refine Or.inr ⟨fun b' hfinishes => ?_, fun b' hb' => ⟨b, hb, ?_⟩⟩
      · cases hadd.symm.trans hfinishes.added
      · obtain rfl := Option.some.inj ((congrArg Desk.outbox hdesk).symm.trans hb')
        have hentries : ((b.mint act.io.mintLocalID).insert (u.finished b act.io)
            act.io.addLetter).entries = b.entries := if_neg (by rw [hadd]; exact nofun)
        rw [hentries]
    · refine Or.inr ⟨fun b' hfinishes => ?_, fun b' hb' => ⟨b, hb, ?_⟩⟩
      · cases hmint.symm.trans hfinishes.minted
      · obtain rfl := Option.some.inj ((congrArg Desk.outbox hdesk).symm.trans hb')
        exact List.Sublist.refl _

section Runs

variable [Layout] {u v : Ui} {act : UiAct}

lemma desk_key_enter {e : KeyEvent} (hscreen : u.screen = .composeWrite) (he : e.key = .enter)
    (io : UiIO) : (u.key e io).desk = ((u.touched e io).send io).desk := by
  have htouched : (u.touched e io).screen = .composeWrite := hscreen
  rw [desk_key, Ui.keyScreen, htouched]
  dsimp only
  rw [Ui.keyWrite, he]

/-- Away from the end of a letter, whatever waits was waiting, or was put there in the
background. -/
lemma shrinks_of_effect (h : Ui.Effect u act v)
    (hnot : ¬ (act.key? = some .enter ∧ u.screen = .composeWrite)) :
    (∃ deps, act.event = .background deps ∧ v.deps.outbox = deps.outbox) ∨
      Shrinks u.deps.outbox v.deps.outbox := by
  cases h with
  | stays | fields | adjusts => exact Or.inr (shrinks_of_eq rfl)
  | goes | offers => exact Or.inr (shrinks_of_eq (Ui.outbox_goTo _ _))
  | edits text =>
      refine Or.inr (shrinks_of_eq ?_)
      unfold Ui.setFieldText
      cases u.field with
      | subject => rfl
      | body => rfl
  | saves => exact Or.inr (shrinks_of_eq (u.outbox_autosaveDraft act.io))
  | leaves | attaches =>
      refine Or.inr (shrinks_of_eq ?_)
      rw [Ui.outbox_goTo, Ui.outbox_autosaveDraft]
  | begins | reopens => exact Or.inr (shrinks_startDraft u _ act.io)
  | sends hscreen hkey => exact absurd ⟨hkey, hscreen⟩ hnot
  | keeps =>
      rcases u.keepPendingDraft_cases act.io with ⟨-, hdesk⟩ | ⟨draft, -, hdesk⟩
      · exact Or.inr (shrinks_of_eq (congrArg Desk.outbox hdesk))
      · exact Or.inr (shrinks_of_eq (congrArg Desk.outbox hdesk))
  | drops =>
      rw [Ui.dropPendingDraft_eq]
      split_ifs
      · exact Or.inr (shrinks_of_eq (Ui.outbox_goTo _ _))
      · exact Or.inr (shrinks_startDraft (u.dropped act.io) u.pending act.io)
  | background deps hevent => exact Or.inl ⟨deps, hevent, rfl⟩

/-- An event finishes the letter that is being written, or happens in the background, or puts
nothing in the outbox. -/
lemma outbox_of_step (h : u.step act = some v) :
    (∃ b, Finishes u act b ∧ v.deps.outbox =
      some ((b.mint act.io.mintLocalID).insert (u.finished b act.io) act.io.addLetter)) ∨
    (∀ b, ¬ Finishes u act b) ∧
      ((∃ deps, act.event = .background deps ∧ v.deps.outbox = deps.outbox) ∨
        Shrinks u.deps.outbox v.deps.outbox) := by
  by_cases hends : act.key? = some .enter ∧ u.screen = .composeWrite
  · obtain ⟨hkey, hscreen⟩ := hends
    obtain ⟨e, hevent, he⟩ := key_of_enter hkey
    have hdesk : v.desk = ((u.touched e act.io).send act.io).desk := by
      rw [Ui.step, hevent] at h
      obtain rfl := Option.some.inj h
      exact desk_key_enter hscreen he act.io
    have houtbox : v.deps.outbox = ((u.touched e act.io).send act.io).deps.outbox :=
      congrArg Desk.outbox hdesk
    rw [houtbox]
    have htouched : (u.touched e act.io).screen = .composeWrite := hscreen
    rcases shrinks_send hkey htouched with ⟨b, hfinishes, hsent⟩ | ⟨hnone, hshrinks⟩
    · exact Or.inl ⟨b, ⟨hkey, hscreen, hfinishes.body, hfinishes.outbox, hfinishes.room,
        hfinishes.minted, hfinishes.added⟩, hsent⟩
    · exact Or.inr ⟨fun b hfinishes => hnone b ⟨hkey, hscreen, hfinishes.body, hfinishes.outbox,
        hfinishes.room, hfinishes.minted, hfinishes.added⟩, Or.inr hshrinks⟩
  · refine Or.inr ⟨fun b hfinishes => hends ⟨hfinishes.key, hfinishes.screen⟩, ?_⟩
    obtain ⟨w, heffect, hdesk⟩ := Ui.step_effect h
    obtain ⟨k, m, hnoted⟩ := u.noted_eq act
    rw [hnoted] at heffect
    have houtbox : v.deps.outbox = w.deps.outbox := congrArg Desk.outbox hdesk
    rw [houtbox]
    have hshrinks := shrinks_of_effect heffect hends
    exact hshrinks

/-- One event keeps the letters that wait within a request exactly where it leaves room. -/
lemma fits_of_step {h : Head} (hfits : ∀ b, u.deps.outbox = some b → Fits h b.sendable)
    (hquiet : TakesOut u act) (hstep : u.step act = some v) :
    (LeavesRoom h u act → ∀ b, v.deps.outbox = some b → Fits h b.sendable) ∧
      ((∀ b, v.deps.outbox = some b → Sendable h b) → LeavesRoom h u act) := by
  rcases outbox_of_step hstep with ⟨b, hfinishes, hb⟩ | ⟨hnot, hcases⟩
  · have hperm := sendable_insert (b := b) (e := u.finished b act.io) (o := act.io.mintLocalID)
      hfinishes.added rfl
    refine ⟨fun hroom b' hb' => ?_, fun hsendable b' hfinishes' => ?_⟩
    · obtain rfl := Option.some.inj (hb.symm.trans hb')
      exact (hroom b hfinishes).of_subperm hperm.subperm
    · obtain rfl := Option.some.inj (hfinishes.outbox.symm.trans hfinishes'.outbox)
      exact ((sendable_iff_fits h _).1 (hsendable _ hb)).of_subperm hperm.symm.subperm
  · refine ⟨fun _ b' hb' => ?_, fun _ b hfinishes => absurd hfinishes (hnot b)⟩
    rcases hcases with ⟨deps, hevent, houtbox⟩ | hshrinks
    · obtain ⟨b, hb, hsub⟩ := hquiet deps hevent b' (houtbox.symm.trans hb')
      exact (hfits b hb).of_subperm hsub
    · obtain ⟨b, hb, hsub⟩ := hshrinks b' hb'
      exact (hfits b hb).of_subperm (sendable_subperm hsub)

omit [Layout] in
/-- A session opens with the outbox that is there. -/
lemma outbox_opened (deps : Deps) (initial : Screen) (io : UiIO) :
    (opened deps initial io).deps.outbox = deps.outbox := by
  unfold opened Ui.start
  dsimp only
  split_ifs
  · exact congrArg Desk.outbox ((Ui.desk_present _ _).trans (Ui.desk_goTo _ _))
  · exact congrArg Desk.outbox ((Ui.desk_present _ _).trans (Ui.desk_goTo _ _))
  · unfold Ui.offerPendingDraftOr
    split_ifs
    · exact congrArg Desk.outbox ((Ui.desk_present _ _).trans (Ui.desk_goTo _ _))
    · exact congrArg Desk.outbox ((Ui.desk_present _ _).trans (Ui.desk_goTo _ _))

/-- **The outbox can be sent, all session long, exactly where every letter leaves room.**  In every
run of events from the opening of a session, whatever the stored cap and whatever is typed: the
next request can be sent in every state on the way if and only if the letters of the outbox fit at
the opening, and every letter fits that is finished, together with those that wait. -/
theorem outbox_sendable_iff (h : Head) {deps : Deps} {initial : Screen} {io : UiIO}
    {acts : List UiAct} (hquiet : Run.Meets Ui.step TakesOut (opened deps initial io) acts) :
    (∀ v ∈ Run.visits Ui.step (opened deps initial io) acts, ∀ b, v.deps.outbox = some b →
        Sendable h b) ↔
      (∀ b, deps.outbox = some b → Fits h b.sendable) ∧
        Run.Meets Ui.step (LeavesRoom h) (opened deps initial io) acts := by
  have hsendable : ∀ u : Ui, (∀ b, u.deps.outbox = some b → Fits h b.sendable) →
      ∀ b, u.deps.outbox = some b → Sendable h b := fun u hfits b hb =>
    (sendable_iff_fits h b).2 (hfits b hb)
  have hlater := fun hstart : ∀ b, (opened deps initial io).deps.outbox = some b →
      Fits h b.sendable =>
    Run.forall_visits_iff_meets (fun u act => ⟨_, rfl⟩)
      (fun u act v hfits hquiet hstep => fits_of_step hfits hquiet hstep) hsendable hstart hquiet
  rw [← outbox_opened deps initial io]
  constructor
  · intro hall
    have hstart : ∀ b, (opened deps initial io).deps.outbox = some b → Fits h b.sendable :=
      fun b hb => (sendable_iff_fits h b).1 (hall _ (Run.mem_visits_self _ _) b hb)
    exact ⟨hstart, (hlater hstart).1 hall⟩
  · rintro ⟨hstart, hroom⟩
    exact (hlater hstart).2 hroom

end Runs

/-! ## A long letter -/

section Typing

variable [Layout]

lemma desk_key_char {u : Ui} {codepoint : ℕ} (hscreen : u.screen = .composeWrite)
    (hfield : u.field = .body) (hroom : Layout.countGraphemes u.body < u.composeMax)
    (hfits : Layout.countGraphemes (Ui.appendCodepoint u.body codepoint) ≤ u.composeMax)
    (io : UiIO) :
    (u.key ⟨.char, codepoint⟩ io).desk =
      { u.desk with body := Ui.appendCodepoint u.body codepoint } := by
  have hkey : ((u.touched ⟨.char, codepoint⟩ io).keyScreen ⟨.char, codepoint⟩ io).1.desk =
      { u.desk with body := Ui.appendCodepoint u.body codepoint } := by
    simp only [Ui.keyScreen, Ui.touched, hscreen, Ui.keyWrite, Ui.keyWriteChar, Ui.fieldCap,
      Ui.fieldText, hfield, if_neg (not_le.2 hroom), if_neg (not_lt.2 hfits), Ui.setFieldText,
      Ui.desk]
  unfold Ui.key
  dsimp only
  split_ifs
  · rw [Ui.desk_rebuild, hkey]
  · rw [Ui.desk_present, hkey]

/-- A character typed again and again. -/
def typing (codepoint n : ℕ) : List UiAct := List.replicate n ⟨.key ⟨.char, codepoint⟩, {}⟩

/-- The text grows by it each time, up to the cap. -/
lemma run_typing {codepoint : ℕ} (hvalid : codepoint.isValidChar)
    (hcount : ∀ s : String, Layout.countGraphemes s = s.toList.length) {u : Ui} {n : ℕ}
    (hscreen : u.screen = .composeWrite) (hfield : u.field = .body)
    (hroom : u.body.toList.length + n ≤ u.composeMax) :
    ∃ v, Run.run Ui.step u (typing codepoint n) = some v ∧
      v.desk = { u.desk with
        body := String.ofList (u.body.toList ++ List.replicate n (Char.ofNat codepoint)) } := by
  induction n generalizing u with
  | zero =>
      refine ⟨u, rfl, ?_⟩
      rw [List.replicate_zero, List.append_nil, String.ofList_toList]
      rfl
  | succ n ih =>
      have hpush : (Ui.appendCodepoint u.body codepoint).toList =
          u.body.toList ++ [Char.ofNat codepoint] := by
        rw [Ui.appendCodepoint, if_pos hvalid, String.toList_push]
      have hlength : (Ui.appendCodepoint u.body codepoint).toList.length =
          u.body.toList.length + 1 := by
        rw [hpush, List.length_append, List.length_singleton]
      have hdesk : (u.key ⟨.char, codepoint⟩ {}).desk = _ :=
        desk_key_char hscreen hfield (by rw [hcount]; omega) (by rw [hcount, hlength]; omega) {}
      have hbody : (u.key ⟨.char, codepoint⟩ {}).body = Ui.appendCodepoint u.body codepoint :=
        congrArg Desk.body hdesk
      have hcap : (u.key ⟨.char, codepoint⟩ {}).composeMax = u.composeMax :=
        congrArg Desk.composeMax hdesk
      obtain ⟨v, hrun, hv⟩ := ih ((congrArg Desk.screen hdesk).trans hscreen)
        ((congrArg Desk.field hdesk).trans hfield) (by rw [hbody, hcap, hlength]; omega)
      refine ⟨v, Run.run_cons_eq_some.2 ⟨_, rfl, hrun⟩, ?_⟩
      rw [hv, hdesk, hbody, hpush, List.replicate_succ, List.append_assoc, List.singleton_append]

end Typing

namespace Sample

/-- Letters of up to seventy thousand characters. -/
def wideDeps : Deps := { postDeps with settings := some { maxLetterChars := 70000 } }

/-- The way to the writing screen. -/
def toWriting : List UiAct := [⟨.key ⟨.right, 0⟩, {}⟩, ⟨.key ⟨.enter, 0⟩, {}⟩]

end Sample

/-- A short letter leaves room. -/
theorem two_letters_fit :
    ∃ w b, Run.run (@Ui.step (@clusterLayout Sample.uniseg Sample.paging))
        (opened Sample.shortDeps .inbox {}) (Sample.twoLetters ++ [Sample.sends]) = some w ∧
      w.deps.outbox = some b ∧ b.files = [Sample.hi] ∧ Sendable {} b := by
  have hkeys : ∀ act ∈ Sample.twoLetters ++ [Sample.sends], act.key?.isSome = true := by
    decide
  have hall := (@outbox_sendable_iff (@clusterLayout Sample.uniseg Sample.paging) {}
    Sample.shortDeps .inbox {} (Sample.twoLetters ++ [Sample.sends])
    ((Run.meets_of_mem hkeys).imp fun u act hkey deps hevent =>
      absurd hevent (ne_background_of_key hkey deps))).2
    ⟨fun b hb => by obtain rfl := Option.some.inj hb; decide +kernel, by decide +kernel⟩
  have heval : ((Run.run (@Ui.step (@clusterLayout Sample.uniseg Sample.paging))
      (opened Sample.shortDeps .inbox {}) (Sample.twoLetters ++ [Sample.sends])).any fun w =>
        w.deps.outbox.any fun b => decide (b.files = [Sample.hi])) = true := by
    decide +kernel
  obtain ⟨w, hrun, hw⟩ := Run.exists_of_any heval
  obtain ⟨b, hb, hfiles⟩ := (Option.any_eq_true _ _).1 hw
  exact ⟨w, b, hrun, hb, of_decide_eq_true hfiles, hall w (Run.mem_visits_of_run hrun) b hb⟩

/-- Whatever cap the server pushes, and whatever the child writes under it, the next request can be
sent. -/
def EveryOutboxFits [Layout] (h : Head) : Prop :=
  ∀ (cap : ℕ) (deps : Deps) (acts : List UiAct) (u : Ui) (b : Outbox), 0 < cap →
    deps.settings = some { maxLetterChars := cap } → deps.outbox = some {} →
    deps.drafts = some {} → (∀ act ∈ acts, ∀ deps', act.event ≠ .background deps') →
    Run.run Ui.step (opened deps .inbox {}) acts = some u → u.deps.outbox = some b →
    Sendable h b

/-- A text that is too long for any request. -/
lemma not_sendable_of_replicate {h : Head} {b : Outbox} {e : OutboxEntry} (hb : b.sendable = [e])
    (hbody : e.body = String.ofList (List.replicate 66000 'a')) : ¬ Sendable h b := by
  have hplain : NulFree e.body := by
    rw [hbody, NulFree, String.toList_ofList]
    intro hmem
    exact absurd (List.eq_of_mem_replicate hmem) (by decide)
  have hweight : weight 'a' = 1 := by decide
  have htext : textBytes e.body = 66000 := by
    rw [textBytes, cstr_eq_iff.2 hplain, hbody, String.toList_ofList, List.map_replicate,
      List.sum_replicate, hweight]
    rfl
  have hletter : 66000 ≤ letterBytes e.item.letter := by
    have heq : letterBytes e.item.letter = _ := rfl
    have hitem : e.item.letter.body = e.body := rfl
    rw [letterBytes, hitem, htext]
    omega
  have hlimit : maxRequestBytes = 65536 := rfl
  rw [sendable_iff_fits, hb, Fits, hlimit, not_le, outboundBytes, if_neg (by simp)]
  simp only [List.map_cons, List.map_nil, List.sum_cons, List.sum_nil]
  omega

/-- One letter is enough. -/
theorem long_letter_too_long :
    ¬ @EveryOutboxFits (@clusterLayout Sample.uniseg Sample.paging) {} := by
  intro hclaim
  have heval : ((Run.run (@Ui.step (@clusterLayout Sample.uniseg Sample.paging))
      (opened Sample.wideDeps .inbox {}) Sample.toWriting).any fun u =>
        decide (u.screen = .composeWrite ∧ u.field = .body ∧ u.body = "" ∧
          u.composeMax = 70000 ∧ u.deps.outbox = some {})) = true := by
    decide +kernel
  obtain ⟨u, hrun, hu⟩ := Run.exists_of_any heval
  obtain ⟨hscreen, hfield, hbody, hcap, houtbox⟩ := of_decide_eq_true hu
  have hcount : ∀ s : String,
      (@clusterLayout Sample.uniseg Sample.paging).countGraphemes s = s.toList.length := fun s =>
    List.length_map _
  obtain ⟨v, htyped, hv⟩ := @run_typing (@clusterLayout Sample.uniseg Sample.paging) 97
    (by decide) hcount u 66000 hscreen hfield (by rw [hbody, hcap]; decide)
  rw [hbody] at hv
  have hvscreen : v.screen = .composeWrite := (congrArg Desk.screen hv).trans hscreen
  have hvbody : v.body = String.ofList (List.replicate 66000 'a') := congrArg Desk.body hv
  have hvoutbox : v.deps.outbox = some {} := (congrArg Desk.outbox hv).trans houtbox
  have hwords : v.body ≠ "" := by
    rw [hvbody, List.replicate_succ]
    exact fun hempty => List.cons_ne_nil _ _ (String.ofList_inj.1 hempty)
  -- The letter is finished, and the outbox holds it alone.
  have hfinishes : Finishes v Sample.sends {} :=
    ⟨rfl, hvscreen, hwords, hvoutbox, by decide, rfl, rfl⟩
  obtain ⟨w, hsent⟩ : ∃ w, @Ui.step (@clusterLayout Sample.uniseg Sample.paging) v
      Sample.sends = some w := ⟨_, rfl⟩
  have hrest : Run.run (@Ui.step (@clusterLayout Sample.uniseg Sample.paging))
      (opened Sample.wideDeps .inbox {})
      (Sample.toWriting ++ (typing 97 66000 ++ [Sample.sends])) = some w :=
    Run.run_append_eq_some.2 ⟨u, hrun, Run.run_append_eq_some.2 ⟨v, htyped,
      Run.run_cons_eq_some.2 ⟨w, hsent, rfl⟩⟩⟩
  have hkeys : ∀ act ∈ Sample.toWriting ++ (typing 97 66000 ++ [Sample.sends]),
      act.key?.isSome = true := by
    intro act hact
    rcases List.mem_append.1 hact with hact | hact
    · have hway : ∀ act ∈ Sample.toWriting, act.key?.isSome = true := by decide
      exact hway act hact
    · rcases List.mem_append.1 hact with hact | hact
      · rw [List.eq_of_mem_replicate hact]
        rfl
      · rw [List.mem_singleton.1 hact]
        rfl
  rcases @outbox_of_step (@clusterLayout Sample.uniseg Sample.paging) v w Sample.sends hsent with
    ⟨b, hfinishes', hb⟩ | ⟨hnot, -⟩
  · obtain rfl := Option.some.inj (hfinishes.outbox.symm.trans hfinishes'.outbox)
    have hsendable := hclaim 70000 Sample.wideDeps _ w _ (by decide) rfl rfl rfl
      (fun act hact => ne_background_of_key (hkeys act hact)) hrest hb
    exact not_sendable_of_replicate rfl hvbody hsendable
  · exact hnot {} hfinishes

end Device
end Chaskiwasi
