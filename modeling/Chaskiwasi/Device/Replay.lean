import Chaskiwasi.Device.Apply

/-!
# A response applied across a power cut

Power can be lost, or a write can fail, anywhere in `applyResponse`, and the server then sends the
same response again.  The order of the writes is the only protection: nothing is undone.

`Cut` is what is on flash at any point of an application, and `Applied` what is there after one that
nothing disturbed; `replayOutline` is the way through the program that proves both.  `reapplied`
goes on from a cut: after a reload the same response ends where it would have ended at once.

This depends on the seen ring, which is bounded.  What an interrupted application wrote stands in
the ring, and a letter that the rest of the response pushes out of it is written twice.  So it is
required that the ids of the response fit the ring together (`FileSeenRing.Settled`).
-/

namespace Chaskiwasi.Device

open Crash

/-! ## The acks -/

/-- What a list of acks makes of one letter. -/
def outcome (acks : List DecodedAck) (e : OutboxEntry) : Option OutboxEntry :=
  acks.foldlM (fun e a => Outbox.settle a.localID a.status e) e

/-- What a list of acks makes of the files. -/
def settled (acks : List DecodedAck) (files : List OutboxEntry) : List OutboxEntry :=
  files.filterMap (outcome acks)

variable {acks as bs : List DecodedAck} {a : DecodedAck} {e e' : OutboxEntry}
  {status : Option AckStatus} {files : List OutboxEntry}

lemma outcome_cons :
    outcome (a :: acks) e = (Outbox.settle a.localID a.status e).bind (outcome acks) := rfl

lemma outcome_append : outcome (as ++ bs) e = (outcome as e).bind (outcome bs) := by
  rw [outcome, List.foldlM_append]
  rfl

lemma settled_nil (files : List OutboxEntry) : settled [] files = files := List.filterMap_some

lemma settled_concat (acks : List DecodedAck) (a : DecodedAck) (files : List OutboxEntry) :
    settled (acks ++ [a]) files =
      (settled acks files).filterMap (Outbox.settle a.localID a.status) := by
  rw [settled, settled, List.filterMap_filterMap]
  refine List.filterMap_congr fun e _ => ?_
  rw [outcome_append]
  refine congrArg _ (funext fun e' => ?_)
  exact Option.bind_fun_some _

lemma localID_of_outcome (h : outcome acks e = some e') : e'.localID = e.localID := by
  induction acks generalizing e with
  | nil => rw [Option.some.inj h]
  | cons a acks ih =>
      rw [outcome_cons] at h
      obtain ⟨e₁, hset, hrest⟩ := Option.bind_eq_some_iff.1 h
      rw [ih hrest, Outbox.localID_of_settle hset]

lemma outcome_of_forall_ne (h : ∀ a ∈ acks, a.localID ≠ e.localID) : outcome acks e = some e := by
  induction acks with
  | nil => rfl
  | cons a acks ih =>
      rw [outcome_cons, Outbox.settle_of_ne (Ne.symm (h a List.mem_cons_self)), Option.bind_some]
      exact ih fun b hb => h b (List.mem_cons_of_mem _ hb)

/-- An ack for the letter overrides what an earlier one left on it. -/
lemma outcome_reject (h : ∃ a ∈ acks, a.localID = e.localID) :
    outcome acks (Outbox.reject status e) = outcome acks e := by
  induction acks with
  | nil =>
      obtain ⟨a, ha, -⟩ := h
      cases ha
  | cons a acks ih =>
      rw [outcome_cons, outcome_cons]
      by_cases hid : a.localID = e.localID
      · by_cases hsent : a.status = some .sent
        · rw [hsent, Outbox.settle_sent hid.symm, Outbox.settle_sent (e := Outbox.reject status e)
            hid.symm]
        · rw [Outbox.settle_reject hid.symm hsent,
            Outbox.settle_reject (e := Outbox.reject status e) hid.symm hsent,
            Outbox.reject_reject]
      · obtain ⟨b, hb, hbid⟩ := h
        have htail : b ∈ acks := by
          refine (List.mem_cons.1 hb).resolve_left ?_
          rintro rfl
          exact hid hbid
        rw [Outbox.settle_of_ne (Ne.symm hid),
          Outbox.settle_of_ne (e := Outbox.reject status e) (Ne.symm hid), Option.bind_some,
          Option.bind_some]
        exact ih ⟨b, htail, hbid⟩

/-- A list of acks applied again, after a part of it, gives what it gives. -/
lemma outcome_outcome (as bs : List DecodedAck) (e : OutboxEntry) :
    (outcome as e).bind (outcome (as ++ bs)) = outcome (as ++ bs) e := by
  induction as generalizing e with
  | nil => rfl
  | cons a as ih =>
      rw [List.cons_append, outcome_cons, outcome_cons]
      by_cases hid : e.localID = a.localID
      · by_cases hsent : a.status = some .sent
        · rw [hsent, Outbox.settle_sent hid]
          rfl
        · rw [Outbox.settle_reject hid hsent, Option.bind_some, Option.bind_some, ← ih]
          refine Option.bind_congr fun e' he' => ?_
          have hid' : e'.localID = a.localID := (localID_of_outcome he').trans hid
          rw [outcome_cons, Outbox.settle_reject hid' hsent, Option.bind_some]
          -- Either the part names the letter again, or it left it as the first ack did.
          by_cases hagain : ∃ b ∈ as, b.localID = e.localID
          · obtain ⟨b, hb, hbid⟩ := hagain
            refine outcome_reject ⟨b, List.mem_append_left _ hb, ?_⟩
            rw [hbid, hid, hid']
          · have hsame : outcome as (Outbox.reject a.status e) = some (Outbox.reject a.status e) :=
              outcome_of_forall_ne fun b hb hbid => hagain ⟨b, hb, hbid⟩
            rw [hsame] at he'
            obtain rfl := Option.some.inj he'
            rw [Outbox.reject_reject]
      · rw [Outbox.settle_of_ne hid, Option.bind_some, Option.bind_some, ← ih]
        refine Option.bind_congr fun e' he' => ?_
        have hid' : e'.localID ≠ a.localID :=
          fun heq => hid ((localID_of_outcome he').symm.trans heq)
        rw [outcome_cons, Outbox.settle_of_ne hid', Option.bind_some]

theorem settled_settled (h : as <+: acks) (files : List OutboxEntry) :
    settled acks (settled as files) = settled acks files := by
  obtain ⟨bs, rfl⟩ := h
  rw [settled, settled, List.filterMap_filterMap]
  exact List.filterMap_congr fun e _ => outcome_outcome as bs e

/-! ## The letters -/

/-- The letters that are stored, where `known` are the ids seen before: each id once, up to the
first that cannot name a file. -/
def arrivals : List String → List Letter → List Letter
  | _, [] => []
  | known, l :: ls =>
      if l.id ∈ known then arrivals known ls
      else if nameIsSafe l.id = false then []
      else l :: arrivals (known ++ [l.id]) ls

/-- A letter is new whose id cannot name a file; the application stops at it. -/
def Refuses (known : List String) (ls : List Letter) : Prop :=
  ∃ l ∈ ls, l.id ∉ known ∧ nameIsSafe l.id = false

instance (known : List String) (ls : List Letter) : Decidable (Refuses known ls) :=
  inferInstanceAs (Decidable (∃ l ∈ ls, l.id ∉ known ∧ nameIsSafe l.id = false))

/-- The directory after letters were written to it. -/
def putAll (files : List LetterFile) (ls : List Letter) : List LetterFile :=
  ls.foldl FileLetterStore.putFile files

/-- What an application that nothing disturbs makes of the directory. -/
def delivered (keep : ℕ) (known : List String) (ls : List Letter) (files : List LetterFile) :
    List LetterFile :=
  if Refuses known ls ∨ arrivals known ls = [] then putAll files (arrivals known ls)
  else FileLetterStore.evicted keep (putAll files (arrivals known ls))

variable {known known' : List String} {l : Letter} {ls : List Letter} {n : ℕ}

lemma arrivals_of_mem (h : l.id ∈ known) : arrivals known (l :: ls) = arrivals known ls := if_pos h

lemma arrivals_of_refused (h : l.id ∉ known) (hsafe : nameIsSafe l.id = false) :
    arrivals known (l :: ls) = [] := by
  rw [arrivals, if_neg h, if_pos hsafe]

lemma arrivals_of_new (h : l.id ∉ known) (hsafe : nameIsSafe l.id = true) :
    arrivals known (l :: ls) = l :: arrivals (known ++ [l.id]) ls := by
  rw [arrivals, if_neg h, if_neg (by simp [hsafe])]

lemma arrivals_congr (h : ∀ l ∈ ls, l.id ∈ known ↔ l.id ∈ known') :
    arrivals known ls = arrivals known' ls := by
  induction ls generalizing known known' with
  | nil => rfl
  | cons l ls ih =>
      have hl := h l List.mem_cons_self
      have htail : ∀ l' ∈ ls, l'.id ∈ known ↔ l'.id ∈ known' :=
        fun l' hl' => h l' (List.mem_cons_of_mem _ hl')
      by_cases hmem : l.id ∈ known
      · rw [arrivals_of_mem hmem, arrivals_of_mem (hl.1 hmem)]
        exact ih htail
      · have hmem' : l.id ∉ known' := fun h' => hmem (hl.2 h')
        cases hsafe : nameIsSafe l.id with
        | false => rw [arrivals_of_refused hmem hsafe, arrivals_of_refused hmem' hsafe]
        | true =>
            rw [arrivals_of_new hmem hsafe, arrivals_of_new hmem' hsafe]
            refine congrArg _ (ih fun l' hl' => ?_)
            rw [List.mem_append, List.mem_append, htail l' hl']

/-- Where some of the letters were recorded already, the others remain. -/
lemma arrivals_eq_drop (h : ∀ l ∈ ls,
      l.id ∈ known' ↔ l.id ∈ known ∨ l.id ∈ ((arrivals known ls).take n).map Letter.id) :
    arrivals known' ls = (arrivals known ls).drop n := by
  induction ls generalizing known known' n with
  | nil => simp [arrivals]
  | cons l ls ih =>
      have hl := h l List.mem_cons_self
      have htail := fun l' (hl' : l' ∈ ls) => h l' (List.mem_cons_of_mem _ hl')
      by_cases hmem : l.id ∈ known
      · rw [arrivals_of_mem hmem] at htail ⊢
        rw [arrivals_of_mem (hl.2 (Or.inl hmem))]
        exact ih htail
      · cases hsafe : nameIsSafe l.id with
        | false =>
            rw [arrivals_of_refused hmem hsafe] at hl ⊢
            have hmem' : l.id ∉ known' := fun h' => hmem (by simpa using hl.1 h')
            rw [arrivals_of_refused hmem' hsafe, List.drop_nil]
        | true =>
            rw [arrivals_of_new hmem hsafe] at hl htail ⊢
            cases n with
            | zero =>
                have hmem' : l.id ∉ known' := fun h' => hmem (by simpa using hl.1 h')
                rw [arrivals_of_new hmem' hsafe, List.drop_zero]
                refine congrArg _ (arrivals_congr fun l' hl' => ?_)
                have hl'' : l'.id ∈ known' ↔ l'.id ∈ known := by simpa using htail l' hl'
                rw [List.mem_append, List.mem_append, hl'']
            | succ n =>
                have hmem' : l.id ∈ known' := hl.2 (Or.inr (by simp))
                rw [arrivals_of_mem hmem', List.drop_succ_cons]
                refine ih fun l' hl' => (htail l' hl').trans ?_
                simp only [List.take_succ_cons, List.map_cons, List.mem_cons, List.mem_append,
                  List.not_mem_nil, or_false, or_assoc]

lemma safe_of_mem_arrivals (h : l ∈ arrivals known ls) : l ∈ ls ∧ nameIsSafe l.id = true := by
  induction ls generalizing known with
  | nil => cases h
  | cons l' ls ih =>
      by_cases hmem : l'.id ∈ known
      · rw [arrivals_of_mem hmem] at h
        exact (ih h).imp_left (List.mem_cons_of_mem _)
      · cases hsafe : nameIsSafe l'.id with
        | false =>
            rw [arrivals_of_refused hmem hsafe] at h
            cases h
        | true =>
            rw [arrivals_of_new hmem hsafe] at h
            rcases List.mem_cons.1 h with rfl | h
            · exact ⟨List.mem_cons_self, hsafe⟩
            · exact (ih h).imp_left (List.mem_cons_of_mem _)

/-- Recording letters changes nothing about the one that is refused. -/
lemma refuses_iff {ids : List String} (hids : ∀ x ∈ ids, nameIsSafe x = true)
    (h : ∀ l ∈ ls, l.id ∈ known' ↔ l.id ∈ known ∨ l.id ∈ ids) :
    Refuses known' ls ↔ Refuses known ls := by
  refine exists_congr fun l => and_congr_right fun hl => and_congr_left fun hsafe => not_congr ?_
  rw [h l hl]
  refine or_iff_left fun hmem => ?_
  rw [hids _ hmem] at hsafe
  cases hsafe

lemma mem_putAll_of_delivered {keep : ℕ} {files : List LetterFile} {f : LetterFile}
    (h : f ∈ delivered keep known ls files) : f ∈ putAll files (arrivals known ls) := by
  unfold delivered at h
  split_ifs at h
  · exact h
  · exact List.mem_of_mem_filter h

lemma ascending_putAll {files : List LetterFile} (h : Keyed.Ascending LetterFile.name files)
    (ls : List Letter) : Keyed.Ascending LetterFile.name (putAll files ls) := by
  induction ls generalizing files with
  | nil => exact h
  | cons l ls ih => exact ih (h.put _)

lemma putAll_append (files : List LetterFile) (ls ls' : List Letter) :
    putAll files (ls ++ ls') = putAll (putAll files ls) ls' := List.foldl_append

/-- The letters from one on, written over a directory that has it already. -/
lemma putAll_again {files : List LetterFile} (h : Keyed.Ascending LetterFile.name files)
    (hsafe : nameIsSafe l.id = true) :
    putAll (FileLetterStore.putFile files l) (l :: ls) = putAll files (l :: ls) := by
  show putAll (FileLetterStore.putFile (FileLetterStore.putFile files l) l) ls = _
  rw [FileLetterStore.putFile_putFile h hsafe]
  rfl

/-! ## What an application has done -/

/-- The ids of the letters; none of them is blank where a letter can be stored. -/
def SyncResponse.ids (r : SyncResponse) : Finset String :=
  (r.letters.map Letter.id).toFinset.erase ""

namespace Engine

/-- The stores hold in memory what is on flash. -/
structure Mirrors (e : Engine) : Prop where
  outbox : e.outbox.Mirrors
  letters : e.letters.Mirrors
  state : e.state.held = e.state.file
  settings : e.settings.held = e.settings.file.sanitise

/-- A write failed. -/
def Faulted (past : List (Engine × WriteOutcome)) : Prop := ∃ x ∈ past, x.2.ok = false

variable {past : List (Engine × WriteOutcome)} {e : Engine} {o : WriteOutcome}

lemma Faulted.cons (h : Faulted past) (x : Engine × WriteOutcome) : Faulted (x :: past) := by
  obtain ⟨y, hy, hok⟩ := h
  exact ⟨y, List.mem_cons_of_mem _ hy, hok⟩

lemma faulted_cons (h : o.ok = false) : Faulted ((e, o) :: past) :=
  ⟨(e, o), List.mem_cons_self, h⟩

lemma not_faulted (h : ∀ x ∈ past, x.2 = .done) : ¬ Faulted past := by
  rintro ⟨x, hx, hok⟩
  rw [h x hx] at hok
  cases hok

section Application

variable (keep : ℕ) (d : Engine) (r : SyncResponse)

/-- The letters of the response that the device stores. -/
def news : List Letter := arrivals d.seen.ring r.letters

/-- The settings file after the config. -/
def configured : StoredSettings :=
  match r.config with
  | none => d.settings.file
  | some c => (d.settings.held.edit c).sanitise

/-- What is on flash of the letters and the ring at any point of the application. -/
def LettersCut (e : Engine) : Prop :=
  ∃ n, FileSeenRing.OnFile r.ids (d.seen.ring ++ ((d.news r).take n).map Letter.id) e.seen ∧
    (e.letters.files = putAll d.letters.files ((d.news r).take n) ∨
      e.letters.files = putAll d.letters.files ((d.news r).take (n + 1)) ∨
      (d.news r).length ≤ n ∧ ¬ Refuses d.seen.ring r.letters ∧
        Keyed.Ascending LetterFile.name e.letters.files ∧
        ∀ f ∈ delivered keep d.seen.ring r.letters d.letters.files, f ∈ e.letters.files)

/-- What is on flash at any point of the application to `d`. -/
structure Cut (e : Engine) : Prop where
  outbox : ∃ done, done <+: r.acks ∧ e.outbox.files = settled done d.outbox.files
  contacts : e.contacts.file = d.contacts.file ∨ r.ayllu = some e.contacts.file
  letters : LettersCut keep d r e
  settings : e.settings.file = d.settings.file ∨
    ¬ Refuses d.seen.ring r.letters ∧ e.settings.file = d.configured r
  cursor : e.state.file.cursor = d.state.file.cursor ∨
    ¬ Refuses d.seen.ring r.letters ∧ e.state.file.cursor = r.cursor

/-- What is on flash after an application that nothing disturbed. -/
structure Applied (e : Engine) : Prop where
  outbox : e.outbox.files = settled r.acks d.outbox.files
  contacts : e.contacts.file = r.ayllu.getD d.contacts.file
  letters : e.letters.files = delivered keep d.seen.ring r.letters d.letters.files
  settings : e.settings.file =
    if Refuses d.seen.ring r.letters then d.settings.file else d.configured r
  cursor : e.state.file.cursor =
    if Refuses d.seen.ring r.letters then d.state.file.cursor else r.cursor

def Ended (past : List (Engine × WriteOutcome)) (e : Engine) : Prop :=
  Cut keep d r e ∧ (Faulted past ∨ Applied keep d r e)

/-! ### The points of the program -/

structure Acking (as : List DecodedAck) (e : Engine) : Prop where
  mirrors : e.outbox.Mirrors
  outbox : ∃ done, r.acks = done ++ as ∧ e.outbox.files = settled done d.outbox.files
  contacts : e.contacts.file = d.contacts.file
  letters : e.letters = d.letters
  seen : e.seen = d.seen
  state : e.state = d.state
  settings : e.settings = d.settings

/-- The acks and the contacts are done. -/
structure Met (e : Engine) : Prop where
  outbox : e.outbox.files = settled r.acks d.outbox.files
  contacts : e.contacts.file = r.ayllu.getD d.contacts.file
  settings : e.settings = d.settings
  cursor : e.state.file.cursor = d.state.file.cursor

structure Snapped (e : Engine) : Prop where
  outbox : e.outbox.files = settled r.acks d.outbox.files
  contacts : e.contacts.file = r.ayllu.getD d.contacts.file
  letters : e.letters = d.letters
  seen : e.seen = d.seen
  state : e.state = d.state
  settings : e.settings = d.settings

structure Reading (ls : List Letter) (n : ℕ) (e : Engine) : Prop where
  met : Met d r e
  mirrors : e.letters.Mirrors
  count : n ≤ (d.news r).length
  files : e.letters.files = putAll d.letters.files ((d.news r).take n)
  settled : FileSeenRing.Settled r.ids e.seen
  todo : arrivals e.seen.ring ls = (d.news r).drop n
  known : ∀ l ∈ r.letters, l.id ∈ e.seen.ring ↔
    l.id ∈ d.seen.ring ∨ l.id ∈ ((d.news r).take n).map Letter.id
  refuses : Refuses e.seen.ring ls ↔ Refuses d.seen.ring r.letters
  sub : ∀ l ∈ ls, l ∈ r.letters

structure Writing (l : Letter) (ls : List Letter) (n : ℕ) (e : Engine) : Prop where
  met : Met d r e
  mirrors : e.letters.Mirrors
  files : e.letters.files = putAll d.letters.files ((d.news r).take (n + 1))
  settled : FileSeenRing.Settled r.ids e.seen
  todo : l :: arrivals (e.seen.ring ++ [l.id]) ls = (d.news r).drop n
  known : ∀ l ∈ r.letters, l.id ∈ e.seen.ring ↔
    l.id ∈ d.seen.ring ∨ l.id ∈ ((d.news r).take n).map Letter.id
  refuses : Refuses (e.seen.ring ++ [l.id]) ls ↔ Refuses d.seen.ring r.letters
  sub : ∀ l' ∈ l :: ls, l' ∈ r.letters
  safe : nameIsSafe l.id = true
  new : e.seen.contains l.id = false

/-- The letters are stored and recorded; `gone` says of the files what is certain. -/
structure Stored (e : Engine) : Prop where
  met : Met d r e
  seen : FileSeenRing.OnFile r.ids (d.seen.ring ++ (d.news r).map Letter.id) e.seen
  accepts : ¬ Refuses d.seen.ring r.letters
  ascending : Keyed.Ascending LetterFile.name e.letters.files

structure Evicting (ids : List String) (past : List (Engine × WriteOutcome)) (e : Engine) :
    Prop where
  stored : Stored d r e
  ne_nil : d.news r ≠ []
  gone : ∃ gone, FileLetterStore.doomed ⟨putAll d.letters.files (d.news r),
      FileLetterStore.scan (putAll d.letters.files (d.news r))⟩ keep = gone ++ ids ∧
    (∀ f ∈ putAll d.letters.files (d.news r), f.name ∉ gone → f ∈ e.letters.files) ∧
    (Faulted past ∨ e.letters.files =
      (putAll d.letters.files (d.news r)).filter fun f => f.name ∉ gone)

structure Configuring (past : List (Engine × WriteOutcome)) (e : Engine) : Prop where
  stored : Stored d r e
  kept : ∀ f ∈ delivered keep d.seen.ring r.letters d.letters.files, f ∈ e.letters.files
  exact : Faulted past ∨
    e.letters.files = delivered keep d.seen.ring r.letters d.letters.files

/-- All is done but the cursor. -/
structure Ending (past : List (Engine × WriteOutcome)) (e : Engine) : Prop where
  cut : Cut keep d r e
  accepts : ¬ Refuses d.seen.ring r.letters
  applied : Faulted past ∨ ∀ e' : Engine, e'.outbox = e.outbox → e'.contacts = e.contacts →
    e'.letters = e.letters → e'.settings = e.settings → e'.state.file.cursor = r.cursor →
    Applied keep d r e'

end Application

/-! ### The outline -/

section Outlining

variable {keep : ℕ} {d : Engine} {r : SyncResponse} {a : DecodedAck} {as : List DecodedAck}
  {l : Letter} {ls : List Letter} {n : ℕ} {id : String} {ids : List String}

/-- Before the letters nothing is on flash but acks and contacts. -/
lemma cut_of_acking (hs : FileSeenRing.Settled r.ids d.seen) (hletters : e.letters = d.letters)
    (hseen : e.seen = d.seen) (hsettings : e.settings = d.settings)
    (hcursor : e.state.file.cursor = d.state.file.cursor)
    (houtbox : ∃ done, done <+: r.acks ∧ e.outbox.files = settled done d.outbox.files)
    (hcontacts : e.contacts.file = d.contacts.file ∨ r.ayllu = some e.contacts.file) :
    Cut keep d r e where
  outbox := houtbox
  contacts := hcontacts
  letters := by
    refine ⟨0, ?_, Or.inl ?_⟩
    · rw [hseen, List.take_zero, List.map_nil, List.append_nil]
      exact hs.file
    · rw [hletters, List.take_zero]
      rfl
  settings := Or.inl (by rw [hsettings])
  cursor := Or.inl hcursor

lemma Acking.resolve (h : Acking d r (a :: as) e)
    (hok : (e.outbox.resolve a.localID a.status o).2 = true) :
    Acking d r as { e with outbox := (e.outbox.resolve a.localID a.status o).1 } := by
  obtain ⟨done, hacks, hfiles⟩ := h.outbox
  obtain ⟨hmirrors, hresolved⟩ := h.mirrors.resolve.1 hok
  refine ⟨hmirrors, ⟨done ++ [a], ?_, ?_⟩, h.contacts, h.letters, h.seen, h.state, h.settings⟩
  · rw [hacks, List.append_assoc, List.singleton_append]
  · rw [settled_concat, ← hfiles]
    exact hresolved

lemma Acking.cut (hs : FileSeenRing.Settled r.ids d.seen) (h : Acking d r as e) :
    Cut keep d r e := by
  obtain ⟨done, hacks, hfiles⟩ := h.outbox
  exact cut_of_acking hs h.letters h.seen h.settings (by rw [h.state])
    ⟨done, ⟨as, hacks.symm⟩, hfiles⟩ (Or.inl h.contacts)

/-- An ack whose write failed is on flash or not. -/
lemma Acking.failed (hs : FileSeenRing.Settled r.ids d.seen) (h : Acking d r (a :: as) e)
    (hok : (e.outbox.resolve a.localID a.status o).2 = false) :
    Ended keep d r ((e, o) :: past)
      { e with outbox := (e.outbox.resolve a.localID a.status o).1 } := by
  obtain ⟨done, hacks, hfiles⟩ := h.outbox
  obtain ⟨hfailed, hresolved⟩ := h.mirrors.resolve.2 hok
  refine ⟨cut_of_acking hs h.letters h.seen h.settings (by rw [h.state]) ?_ (Or.inl h.contacts),
    Or.inl (faulted_cons hfailed)⟩
  rcases hresolved with hresolved | hresolved
  · refine ⟨done ++ [a], ⟨as, ?_⟩, ?_⟩
    · rw [hacks, List.append_assoc, List.singleton_append]
    · rw [settled_concat, ← hfiles]
      exact hresolved
  · exact ⟨done, ⟨a :: as, hacks.symm⟩, hresolved.trans hfiles⟩

lemma Acking.outbox_nil (h : Acking d r [] e) :
    e.outbox.files = settled r.acks d.outbox.files := by
  obtain ⟨done, hacks, hfiles⟩ := h.outbox
  rw [hacks, List.append_nil]
  exact hfiles

/-- Before the first letter. -/
lemma reading_start (hd : d.Mirrors) (hs : FileSeenRing.Settled r.ids d.seen) (hmet : Met d r e)
    (hletters : e.letters = d.letters) (hseen : e.seen = d.seen) :
    Reading d r r.letters 0 e where
  met := hmet
  mirrors := hletters ▸ hd.letters
  count := Nat.zero_le _
  files := by
    rw [hletters, List.take_zero]
    rfl
  settled := hseen ▸ hs
  todo := by
    rw [hseen, List.drop_zero]
    rfl
  known := by
    intro l _
    rw [hseen, List.take_zero, List.map_nil]
    simp
  refuses := by rw [hseen]
  sub := fun _ h => h

/-! ### The letters -/

lemma news_take_succ {rest : List Letter} (h : l :: rest = (d.news r).drop n) :
    (d.news r).take (n + 1) = (d.news r).take n ++ [l] ∧ n + 1 ≤ (d.news r).length ∧
      rest = (d.news r).drop (n + 1) := by
  have hlt : n < (d.news r).length := by
    by_contra hge
    rw [List.drop_eq_nil_of_le (not_lt.1 hge)] at h
    cases h
  rw [List.drop_eq_getElem_cons hlt] at h
  obtain ⟨rfl, rfl⟩ := List.cons.inj h
  exact ⟨List.take_succ_eq_append_getElem hlt, hlt, rfl⟩

lemma refuses_of_mem (h : l.id ∈ known) : Refuses known (l :: ls) ↔ Refuses known ls := by
  constructor
  · rintro ⟨l', hl', hnew, hsafe⟩
    rcases List.mem_cons.1 hl' with rfl | hl'
    · exact absurd h hnew
    · exact ⟨l', hl', hnew, hsafe⟩
  · rintro ⟨l', hl', hnew, hsafe⟩
    exact ⟨l', List.mem_cons_of_mem _ hl', hnew, hsafe⟩

lemma refuses_of_safe (hsafe : nameIsSafe l.id = true) :
    Refuses known (l :: ls) ↔ Refuses (known ++ [l.id]) ls := by
  constructor
  · rintro ⟨l', hl', hnew, hunsafe⟩
    have hne : l'.id ≠ l.id := by
      intro heq
      rw [heq, hsafe] at hunsafe
      cases hunsafe
    refine ⟨l', (List.mem_cons.1 hl').resolve_left fun heq => hne (heq ▸ rfl), ?_, hunsafe⟩
    rw [List.mem_append, List.mem_singleton, not_or]
    exact ⟨hnew, hne⟩
  · rintro ⟨l', hl', hnew, hunsafe⟩
    exact ⟨l', List.mem_cons_of_mem _ hl', fun h => hnew (List.mem_append_left _ h), hunsafe⟩

/-- A letter that the ring has is passed over. -/
lemma Reading.seen (h : Reading d r (l :: ls) n e) (hseen : e.seen.contains l.id = true) :
    Reading d r ls n e where
  met := h.met
  mirrors := h.mirrors
  count := h.count
  files := h.files
  settled := h.settled
  todo := by
    have hmem : l.id ∈ e.seen.ring := by simpa [FileSeenRing.contains] using hseen
    rw [← arrivals_of_mem hmem]
    exact h.todo
  known := h.known
  refuses := by
    have hmem : l.id ∈ e.seen.ring := by simpa [FileSeenRing.contains] using hseen
    rw [← refuses_of_mem hmem]
    exact h.refuses
  sub := fun l' hl' => h.sub l' (List.mem_cons_of_mem _ hl')

/-- A letter that was written and not recorded. -/
lemma Reading.put (h : Reading d r (l :: ls) n e) (hnew : e.seen.contains l.id = false)
    (hok : (e.letters.put l o).2 = true) :
    Writing d r l ls n { e with letters := (e.letters.put l o).1 } := by
  have hsafe := FileLetterStore.safe_of_put hok
  have hring : l.id ∉ e.seen.ring := by simpa [FileSeenRing.contains] using hnew
  obtain ⟨hmirrors, hfiles⟩ := (h.mirrors.put hsafe).1 hok
  have htodo := h.todo
  rw [arrivals_of_new hring hsafe] at htodo
  obtain ⟨htake, -, -⟩ := news_take_succ htodo
  refine ⟨⟨h.met.outbox, h.met.contacts, h.met.settings, h.met.cursor⟩, hmirrors, ?_, h.settled,
    htodo, h.known, ?_, h.sub, hsafe, hnew⟩
  · rw [htake, putAll_append, ← h.files]
    exact hfiles
  · rw [← h.refuses]
    exact (refuses_of_safe hsafe).symm

/-- The ring holds on flash what it holds in memory, by the letters that were recorded. -/
lemma onFile_of_known (hset : FileSeenRing.Settled r.ids e.seen)
    (hknown : ∀ l ∈ r.letters, l.id ∈ e.seen.ring ↔
      l.id ∈ d.seen.ring ∨ l.id ∈ ((d.news r).take n).map Letter.id) :
    FileSeenRing.OnFile r.ids (d.seen.ring ++ ((d.news r).take n).map Letter.id) e.seen := by
  refine hset.file.congr fun x hx => ?_
  obtain ⟨-, hx⟩ := Finset.mem_erase.1 hx
  obtain ⟨l, hl, rfl⟩ := List.mem_map.1 (List.mem_toFinset.1 hx)
  rw [hknown l hl, List.mem_append]

/-- What is on flash while the letters are stored. -/
lemma cut_of_met (hmet : Met d r e) (hletters : LettersCut keep d r e) : Cut keep d r e where
  outbox := ⟨r.acks, List.prefix_rfl, hmet.outbox⟩
  contacts := by
    cases hayllu : r.ayllu with
    | none => exact Or.inl (by rw [hmet.contacts, hayllu, Option.getD_none])
    | some a => exact Or.inr (by rw [hmet.contacts, hayllu, Option.getD_some])
  letters := hletters
  settings := Or.inl (by rw [hmet.settings])
  cursor := Or.inl hmet.cursor

lemma Reading.cut (h : Reading d r ls n e) : Cut keep d r e :=
  cut_of_met h.met ⟨n, onFile_of_known h.settled h.known, Or.inl h.files⟩

/-- A letter that was not written: its id cannot name a file, or the write failed. -/
lemma Reading.failed (h : Reading d r (l :: ls) n e) (hnew : e.seen.contains l.id = false)
    (hok : (e.letters.put l o).2 = false) :
    Ended keep d r ((e, o) :: past) { e with letters := (e.letters.put l o).1 } := by
  have hring : l.id ∉ e.seen.ring := by simpa [FileSeenRing.contains] using hnew
  have hmet : Met d r { e with letters := (e.letters.put l o).1 } :=
    ⟨h.met.outbox, h.met.contacts, h.met.settings, h.met.cursor⟩
  have hfile := onFile_of_known h.settled h.known
  cases hsafe : nameIsSafe l.id with
  | false =>
      have hsame : (e.letters.put l o).1 = e.letters := by
        rw [FileLetterStore.put, if_pos hsafe]
      have hrefuses : Refuses d.seen.ring r.letters :=
        h.refuses.1 ⟨l, List.mem_cons_self, hring, hsafe⟩
      have hall : (d.news r).take n = d.news r := by
        have htodo := h.todo
        rw [arrivals_of_refused hring hsafe] at htodo
        exact List.take_of_length_le (List.drop_eq_nil_iff.1 htodo.symm)
      have hfiles : e.letters.files = putAll d.letters.files (d.news r) := by
        rw [h.files, hall]
      refine ⟨cut_of_met hmet ⟨n, hfile, Or.inl ?_⟩, Or.inr ?_⟩
      · rw [hsame]
        exact h.files
      · refine ⟨hmet.outbox, hmet.contacts, ?_, ?_, ?_⟩
        · rw [hsame, delivered, if_pos (Or.inl hrefuses)]
          exact hfiles
        · rw [if_pos hrefuses]
          exact congrArg Mirrored.file hmet.settings
        · rw [if_pos hrefuses]
          exact hmet.cursor
  | true =>
      obtain ⟨hfailed, hput⟩ := (h.mirrors.put hsafe).2 hok
      have htodo := h.todo
      rw [arrivals_of_new hring hsafe] at htodo
      obtain ⟨htake, -, -⟩ := news_take_succ htodo
      refine ⟨cut_of_met hmet ⟨n, hfile, ?_⟩, Or.inl (faulted_cons hfailed)⟩
      rcases hput with hput | hput
      · refine Or.inr (Or.inl ?_)
        rw [htake, putAll_append, ← h.files]
        exact hput
      · exact Or.inl (hput.trans h.files)

lemma Writing.cut (h : Writing d r l ls n e) : Cut keep d r e :=
  cut_of_met h.met ⟨n, onFile_of_known h.settled h.known, Or.inr (Or.inl h.files)⟩

lemma Writing.mem_ids (h : Writing d r l ls n e) : l.id ∈ r.ids := by
  refine Finset.mem_erase.2 ⟨FileSeenRing.ne_empty_of_safe h.safe, ?_⟩
  exact List.mem_toFinset.2 (List.mem_map_of_mem (h.sub l List.mem_cons_self))

/-- A letter that was recorded. -/
lemma Writing.add (h : Writing d r l ls n e) (hok : (e.seen.add l.id o).2 = true) :
    Reading d r ls (n + 1) { e with seen := (e.seen.add l.id o).1 } := by
  obtain ⟨hset, hmem⟩ := (h.settled.add h.mem_ids h.safe h.new).1 hok
  obtain ⟨htake, hcount, hrest⟩ := news_take_succ h.todo
  -- A blank id is in neither ring.
  have hring : ∀ l' ∈ r.letters, l'.id ∈ (e.seen.add l.id o).1.ring ↔
      l'.id ∈ e.seen.ring ++ [l.id] := by
    intro l' hl'
    rw [List.mem_append, List.mem_singleton]
    by_cases hblank : l'.id = ""
    · refine iff_of_false (fun hin => hset.blank (hblank ▸ hin)) ?_
      rintro (hin | heq)
      · exact h.settled.blank (hblank ▸ hin)
      · exact FileSeenRing.ne_empty_of_safe h.safe (heq ▸ hblank)
    · exact hmem _ (Finset.mem_erase.2 ⟨hblank, List.mem_toFinset.2 (List.mem_map_of_mem hl')⟩)
  have hsub : ∀ l' ∈ ls, l' ∈ r.letters := fun l' hl' => h.sub l' (List.mem_cons_of_mem _ hl')
  refine ⟨⟨h.met.outbox, h.met.contacts, h.met.settings, h.met.cursor⟩, h.mirrors, hcount,
    h.files, hset, ?_, fun l' hl' => ?_, ?_, hsub⟩
  · rw [← hrest]
    exact arrivals_congr fun l' hl' => hring l' (hsub l' hl')
  · rw [hring l' hl', htake, List.map_append, List.mem_append, List.mem_append, h.known l' hl',
      or_assoc]
    rfl
  · rw [← h.refuses]
    exact exists_congr fun l' => and_congr_right fun hl' =>
      and_congr_left fun _ => not_congr (hring l' (hsub l' hl'))

/-- An id whose write failed is on flash or not. -/
lemma Writing.failed (h : Writing d r l ls n e) (hok : (e.seen.add l.id o).2 = false) :
    Ended keep d r ((e, o) :: past) { e with seen := (e.seen.add l.id o).1 } := by
  obtain ⟨hfailed, hfile⟩ := (h.settled.add h.mem_ids h.safe h.new).2 hok
  obtain ⟨htake, -, -⟩ := news_take_succ h.todo
  have hmet : Met d r { e with seen := (e.seen.add l.id o).1 } :=
    ⟨h.met.outbox, h.met.contacts, h.met.settings, h.met.cursor⟩
  have hknown : ∀ x ∈ r.ids, x ∈ e.seen.ring ↔
      x ∈ d.seen.ring ++ ((d.news r).take n).map Letter.id := by
    intro x hx
    obtain ⟨-, hx⟩ := Finset.mem_erase.1 hx
    obtain ⟨l', hl', rfl⟩ := List.mem_map.1 (List.mem_toFinset.1 hx)
    rw [h.known l' hl', List.mem_append]
  refine ⟨cut_of_met hmet ?_, Or.inl (faulted_cons hfailed)⟩
  rcases hfile with hfile | hfile
  · refine ⟨n + 1, hfile.congr fun x hx => ?_, Or.inl h.files⟩
    rw [htake, List.map_append, ← List.append_assoc, List.mem_append, List.mem_append, hknown x hx]
    rfl
  · exact ⟨n, hfile.congr hknown, Or.inr (Or.inl h.files)⟩

/-! ### Eviction, config and cursor -/

lemma Stored.cut (h : Stored d r e)
    (hkept : ∀ f ∈ delivered keep d.seen.ring r.letters d.letters.files, f ∈ e.letters.files) :
    LettersCut keep d r e := by
  refine ⟨(d.news r).length, ?_, Or.inr (Or.inr ⟨le_refl _, h.accepts, h.ascending, hkept⟩)⟩
  rw [List.take_length]
  exact h.seen

lemma Reading.stored (h : Reading d r [] n e) : Stored d r e ∧ n = (d.news r).length := by
  have hall : (d.news r).length ≤ n := List.drop_eq_nil_iff.1 h.todo.symm
  have hn : n = (d.news r).length := le_antisymm h.count hall
  refine ⟨⟨h.met, ?_, ?_, h.mirrors.ascending⟩, hn⟩
  · have hfile := onFile_of_known h.settled h.known
    rw [hn, List.take_length] at hfile
    exact hfile
  · rw [← h.refuses]
    rintro ⟨l, hl, -⟩
    cases hl

lemma Reading.files_stored (h : Reading d r [] n e) :
    e.letters.files = putAll d.letters.files (d.news r) := by
  rw [h.files, h.stored.2, List.take_length]

/-- Without a new letter nothing is evicted. -/
lemma Reading.configuring (h : Reading d r [] 0 e) : Configuring keep d r past e := by
  obtain ⟨hstored, hn⟩ := h.stored
  have hnone : d.news r = [] := List.length_eq_zero_iff.1 hn.symm
  have hfiles : e.letters.files = delivered keep d.seen.ring r.letters d.letters.files := by
    rw [delivered, if_pos (Or.inr (show arrivals d.seen.ring r.letters = [] from hnone))]
    exact h.files_stored
  exact ⟨hstored, fun f hf => hfiles ▸ hf, Or.inr hfiles⟩

lemma Reading.evicting (h : Reading d r [] (n + 1) e) :
    Evicting keep d r (e.letters.doomed keep) past e := by
  obtain ⟨hstored, hn⟩ := h.stored
  have hfiles := h.files_stored
  refine ⟨hstored, ?_, [], ?_, fun f hf _ => hfiles ▸ hf, Or.inr ?_⟩
  · intro hnone
    rw [hnone] at hn
    cases hn
  · rw [List.nil_append, h.mirrors.doomed_eq, hfiles]
  · rw [hfiles]
    exact (List.filter_eq_self.2 fun _ _ => by simp).symm

lemma delivered_of_evicting (h : Evicting keep d r ids past e) :
    delivered keep d.seen.ring r.letters d.letters.files =
      FileLetterStore.evicted keep (putAll d.letters.files (d.news r)) := by
  rw [delivered, if_neg]
  · rfl
  · rintro (hrefuses | hnone)
    · exact h.stored.accepts hrefuses
    · exact h.ne_nil hnone

lemma Evicting.kept (h : Evicting keep d r ids past e) :
    ∀ f ∈ delivered keep d.seen.ring r.letters d.letters.files, f ∈ e.letters.files := by
  obtain ⟨gone, hdoomed, hkept, -⟩ := h.gone
  intro f hf
  rw [delivered_of_evicting h, FileLetterStore.evicted, List.mem_filter, decide_eq_true_eq,
    hdoomed, List.mem_append, not_or] at hf
  exact hkept f hf.1 hf.2.1

lemma Evicting.cut (h : Evicting keep d r ids past e) : Cut keep d r e :=
  cut_of_met h.stored.met (h.stored.cut h.kept)

/-- A file that is removed, or passed over. -/
lemma Evicting.remove (h : Evicting keep d r (id :: ids) past e) :
    Evicting keep d r ids ((e, o) :: past) { e with letters := (e.letters.remove id o).1 } := by
  obtain ⟨gone, hdoomed, hkept, hexact⟩ := h.gone
  have hremoved := FileLetterStore.files_remove e.letters id o
  have hascending : Keyed.Ascending LetterFile.name (e.letters.remove id o).1.files := by
    rcases hremoved with hfiles | ⟨-, hfiles⟩
    · rw [hfiles]
      exact h.stored.ascending.filter _
    · rw [hfiles]
      exact h.stored.ascending
  have hmet := h.stored.met
  refine ⟨⟨⟨hmet.outbox, hmet.contacts, hmet.settings, hmet.cursor⟩, h.stored.seen,
    h.stored.accepts, hascending⟩, h.ne_nil, gone ++ [id], ?_, fun f hf hnew => ?_, ?_⟩
  · rw [hdoomed, List.append_assoc, List.singleton_append]
  · rw [List.mem_append, List.mem_singleton, not_or] at hnew
    have hmem := hkept f hf hnew.1
    rcases hremoved with hfiles | ⟨-, hfiles⟩
    · rw [hfiles]
      exact List.mem_filter.2 ⟨hmem, by simpa using hnew.2⟩
    · rw [hfiles]
      exact hmem
  · rcases hremoved with hfiles | ⟨hfailed, -⟩
    · refine hexact.imp (fun hfault => hfault.cons _) fun hexact => ?_
      rw [hfiles, hexact, List.filter_filter]
      refine List.filter_congr fun f _ => ?_
      simp only [List.mem_append, List.mem_singleton, not_or, Bool.decide_and]
      rw [Bool.and_comm]
    · exact Or.inl (faulted_cons hfailed)

lemma Evicting.configuring (h : Evicting keep d r [] past e) : Configuring keep d r past e := by
  obtain ⟨gone, hdoomed, -, hexact⟩ := h.gone
  rw [List.append_nil] at hdoomed
  refine ⟨h.stored, h.kept, hexact.imp_right fun hexact => ?_⟩
  rw [hexact, delivered_of_evicting h, FileLetterStore.evicted, hdoomed]

lemma Configuring.cut (h : Configuring keep d r past e) : Cut keep d r e :=
  cut_of_met h.stored.met (h.stored.cut h.kept)

/-- The settings come to be the configured ones, or their write failed. -/
lemma Configuring.ending (h : Configuring keep d r past e) {past' : List (Engine × WriteOutcome)}
    {settings : FileSettingsStore} (hpast : Faulted past → Faulted past')
    (hsettings : settings.file = d.configured r ∨
      Faulted past' ∧ settings.file = d.settings.file) :
    Ending keep d r past' { e with settings := settings } := by
  have hmet := h.stored.met
  have hcut : Cut keep d r { e with settings := settings } := by
    refine ⟨h.cut.outbox, h.cut.contacts, h.cut.letters, ?_, h.cut.cursor⟩
    rcases hsettings with hfile | ⟨-, hfile⟩
    · exact Or.inr ⟨h.stored.accepts, hfile⟩
    · exact Or.inl hfile
  refine ⟨hcut, h.stored.accepts, ?_⟩
  rcases hsettings with hfile | ⟨hfault, -⟩
  · rcases h.exact with hfault | hexact
    · exact Or.inl (hpast hfault)
    · refine Or.inr fun e' houtbox hcontacts hletters hsettings' hcursor => ⟨?_, ?_, ?_, ?_, ?_⟩
      · rw [houtbox]
        exact hmet.outbox
      · rw [hcontacts]
        exact hmet.contacts
      · rw [hletters]
        exact hexact
      · rw [hsettings', if_neg h.stored.accepts]
        exact hfile
      · rw [hcursor, if_neg h.stored.accepts]
  · exact Or.inl hfault

/-- The cursor that was written is the last of it. -/
lemma Ending.final (h : Ending keep d r past e) (hok : (FileStateStore.setCursor e.state r.cursor
      o).2 = true) :
    Ended keep d r ((e, o) :: past)
      { e with state := (FileStateStore.setCursor e.state r.cursor o).1 } := by
  have hfile : (FileStateStore.setCursor e.state r.cursor o).1.file.cursor = r.cursor := by
    have hwritten : o.written = true := WriteOutcome.written_of_ok hok
    rw [FileStateStore.setCursor, Mirrored.commit]
    dsimp only
    rw [if_pos hwritten]
  refine ⟨⟨h.cut.outbox, h.cut.contacts, h.cut.letters, h.cut.settings,
    Or.inr ⟨h.accepts, hfile⟩⟩, ?_⟩
  exact h.applied.imp (fun hfault => hfault.cons _) fun happlied => happlied _ rfl rfl rfl rfl hfile

lemma Ending.failed (h : Ending keep d r past e) (hok : (FileStateStore.setCursor e.state r.cursor
      o).2 = false) :
    Ended keep d r ((e, o) :: past)
      { e with state := (FileStateStore.setCursor e.state r.cursor o).1 } := by
  refine ⟨⟨h.cut.outbox, h.cut.contacts, h.cut.letters, h.cut.settings, ?_⟩,
    Or.inl (faulted_cons hok)⟩
  rcases Mirrored.file_commit e.state { e.state.held with cursor := r.cursor } o with hfile | hfile
  · exact Or.inr ⟨h.accepts, congrArg SyncState.cursor hfile⟩
  · exact h.cut.cursor.imp (fun hold => (congrArg SyncState.cursor hfile).trans hold) fun hnew =>
      ⟨hnew.1, (congrArg SyncState.cursor hfile).trans hnew.2⟩

/-! ### The outline -/

lemma Acking.met (h : Acking d r [] e) (hayllu : r.ayllu = none) : Met d r e where
  outbox := h.outbox_nil
  contacts := by rw [hayllu, h.contacts, Option.getD_none]
  settings := h.settings
  cursor := by rw [h.state]

/-- The snapshot is on flash or not. -/
lemma Acking.snapshot_cut {contacts : Ayllu} (hs : FileSeenRing.Settled r.ids d.seen)
    (hayllu : r.ayllu = some contacts) (h : Acking d r [] e) (o : WriteOutcome) :
    Cut keep d r
      { e with contacts := (FileSnapshot.applySnapshot e.contacts contacts o).1 } := by
  refine cut_of_acking hs h.letters h.seen h.settings (by rw [h.state])
    ⟨r.acks, List.prefix_rfl, h.outbox_nil⟩ ?_
  rcases Mirrored.file_commit e.contacts contacts o with hfile | hfile
  · refine Or.inr ?_
    rw [hayllu]
    exact congrArg some hfile.symm
  · exact Or.inl (hfile.trans h.contacts)

lemma Acking.snapshot {contacts : Ayllu} (hayllu : r.ayllu = some contacts)
    (h : Acking d r [] e) (hok : o.ok = true) :
    Snapped d r { e with contacts := (FileSnapshot.applySnapshot e.contacts contacts o).1 } := by
  refine ⟨h.outbox_nil, ?_, h.letters, h.seen, h.state, h.settings⟩
  rw [hayllu, Option.getD_some]
  exact if_pos (WriteOutcome.written_of_ok hok)

lemma Snapped.cut (hs : FileSeenRing.Settled r.ids d.seen) {contacts : Ayllu}
    (hayllu : r.ayllu = some contacts) (h : Snapped d r e) {state : FileStateStore}
    (hcursor : state.file.cursor = d.state.file.cursor) :
    Cut keep d r { e with state := state } := by
  refine cut_of_acking hs h.letters h.seen h.settings hcursor
    ⟨r.acks, List.prefix_rfl, h.outbox⟩ (Or.inr ?_)
  show r.ayllu = some e.contacts.file
  rw [h.contacts, hayllu, Option.getD_some]

/-- The version of the contacts is written with the cursor that was held. -/
lemma cursor_setAylluVersion (hd : d.Mirrors) (v : ℕ) (o : WriteOutcome) :
    (FileStateStore.setAylluVersion d.state v o).1.file.cursor = d.state.file.cursor := by
  rcases Mirrored.file_commit d.state { d.state.held with aylluVersion := v } o with hfile | hfile
  · refine (congrArg SyncState.cursor hfile).trans ?_
    show d.state.held.cursor = d.state.file.cursor
    rw [hd.state]
  · exact congrArg SyncState.cursor hfile

/-- The outline of an application for what is on flash: the points above, one after another. -/
def replayOutline (keep : ℕ) (hd : d.Mirrors) (hs : FileSeenRing.Settled r.ids d.seen) :
    Outline keep r where
  acking as _ e := Acking d r as e
  snapped _ e := Snapped d r e
  reading ls n _ e := Reading d r ls n e
  writing l ls n _ e := Writing d r l ls n e
  evicting ids past e := Evicting keep d r ids past e
  configuring past e := Configuring keep d r past e
  ending past e := Ending keep d r past e
  final past e := Ended keep d r past e
  failed past e := Ended keep d r past e
  cut _ e := Cut keep d r e
  clock := fun _ _ _ h => ⟨h.mirrors, h.outbox, h.contacts, h.letters, h.seen, h.state, h.settings⟩
  resolve := fun _ _ => Triple.attempt_answers (fun _ _ h => h.cut hs)
    (fun _ _ _ h hok => h.resolve hok) fun _ _ _ h hok => h.failed hs hok
  without := fun hayllu _ _ h => reading_start hd hs (h.met hayllu) h.letters h.seen
  snapshot := fun _ hayllu => Triple.attempt_answers (fun _ _ h => h.cut hs)
    (fun _ _ _ h hok => h.snapshot hayllu hok)
    fun _ _ o h hok => ⟨h.snapshot_cut hs hayllu o, Or.inl (faulted_cons hok)⟩
  version := by
    intro a hayllu
    apply Triple.attempt_answers
    · rintro past e h
      exact h.cut hs hayllu (by rw [h.state])
    · rintro past e o h -
      refine reading_start hd hs ⟨h.outbox, h.contacts, h.settings, ?_⟩ h.letters h.seen
      rw [h.state]
      exact cursor_setAylluVersion hd a.version o
    · rintro past e o h hok
      refine ⟨h.cut hs hayllu ?_, Or.inl (faulted_cons hok)⟩
      rw [h.state]
      exact cursor_setAylluVersion hd a.version o
  seen := fun _ _ _ _ _ h hseen => h.seen hseen
  put := fun _ _ _ => Triple.attempt_answers (fun _ _ h => h.1.cut)
    (fun _ _ _ h hok => h.1.put h.2 hok) fun _ _ _ h hok => h.1.failed h.2 hok
  add := fun _ _ _ => Triple.attempt_answers (fun _ _ h => h.cut)
    (fun _ _ _ h hok => h.add hok) fun _ _ _ h hok => h.failed hok
  read := fun _ _ h => h.configuring
  evict := fun _ _ _ h => h.evicting
  remove := fun _ _ => Triple.attempt_answers (fun _ _ h => h.cut)
    (fun _ _ _ h _ => h.remove) fun _ _ _ h _ => h.remove
  evicted := fun _ _ h => h.configuring
  unchanged := by
    intro hnone past e h
    refine h.ending (fun hfault => hfault) (Or.inl ?_)
    rw [configured, hnone]
    exact congrArg Mirrored.file h.stored.met.settings
  config := by
    intro c hc
    have hconfigured : d.configured r = (d.settings.held.edit c).sanitise := by
      rw [configured, hc]
    apply Triple.attempt_answers
    · exact fun _ _ h => h.cut
    · rintro past e o h hok
      refine h.ending (fun hfault => hfault.cons _) (Or.inl ?_)
      rw [hconfigured, h.stored.met.settings]
      exact if_pos (WriteOutcome.written_of_ok hok)
    · rintro past e o h hok
      refine h.ending (fun hfault => hfault.cons _) ?_
      rw [hconfigured, h.stored.met.settings]
      exact (Mirrored.file_commit d.settings _ o).imp_right fun hfile => ⟨faulted_cons hok, hfile⟩
  cursor := Triple.attempt_answers (fun _ _ h => h.cut)
    (fun _ _ _ h hok => h.final hok) fun _ _ _ h hok => h.failed hok

lemma acking_start (hd : d.Mirrors) : Acking d r r.acks d :=
  ⟨hd.outbox, ⟨[], rfl, (settled_nil _).symm⟩, rfl, rfl, rfl, rfl, rfl⟩

/-- Wherever an application ends, what is on flash is what a cut leaves. -/
theorem cut_of_applyResponse (hd : d.Mirrors) (hs : FileSeenRing.Settled r.ids d.seen)
    (os : List WriteOutcome) : Cut keep d r ((applyResponse keep r).run [] d os).state := by
  have hmeets := (replayOutline keep hd hs).triple [] d os (acking_start hd)
  exact hmeets.ended (A := fun _ e => Cut keep d r e)
    (fun _ _ _ h => (answers_self (A := Ended keep d r) h).1) fun _ _ h => h

/-- An application in which nothing fails applies the response. -/
theorem applied_of_steady (hd : d.Mirrors) (hs : FileSeenRing.Settled r.ids d.seen) :
    Applied keep d r ((applyResponse keep r).steady .done d).2 := by
  obtain ⟨past, hpast, hends⟩ :=
    (replayOutline keep hd hs).triple.steady WriteOutcome.done (acking_start hd)
  exact (answers_self (A := Ended keep d r) hends).2.resolve_left (not_faulted hpast)

/-! ## Applied again -/

/-- On flash there is the same, but for letters, and as far as a response goes. -/
def SameButLetters (e u : Engine) : Prop :=
  e.outbox.files = u.outbox.files ∧ e.contacts.file = u.contacts.file ∧
    e.settings.file = u.settings.file ∧ e.state.file.cursor = u.state.file.cursor

/-- Applied to `e`, the response leads where it leads from `d`, and to every letter. -/
def Reapplies (keep : ℕ) (d : Engine) (r : SyncResponse) (e : Engine) : Prop :=
  SameButLetters ((applyResponse keep r).steady .done e).2
      ((applyResponse keep r).steady .done d).2 ∧
    ∀ f ∈ ((applyResponse keep r).steady .done d).2.letters.files,
      f ∈ ((applyResponse keep r).steady .done e).2.letters.files

/-- The letters that are left to store, where so many of them were recorded. -/
structure Resumes (d e : Engine) (r : SyncResponse) (n : ℕ) : Prop where
  news : e.news r = (d.news r).drop n
  refuses : Refuses e.seen.ring r.letters ↔ Refuses d.seen.ring r.letters

/-- A reload finds the ids that were recorded. -/
lemma resumes_opened (hs : FileSeenRing.Settled r.ids d.seen)
    (hfile : FileSeenRing.OnFile r.ids (d.seen.ring ++ ((d.news r).take n).map Letter.id) e.seen) :
    FileSeenRing.Settled r.ids (e.seen.opened o) ∧ Resumes d (e.opened o) r n := by
  have hblank : "" ∉ r.ids := fun h => (Finset.mem_erase.1 h).1 rfl
  obtain ⟨hset, hmem⟩ := hfile.opened (o := o) hblank
  have hsafe : ∀ x ∈ ((d.news r).take n).map Letter.id, nameIsSafe x = true := by
    intro x hx
    obtain ⟨l, hl, rfl⟩ := List.mem_map.1 hx
    exact (safe_of_mem_arrivals (List.mem_of_mem_take hl)).2
  have hring : ∀ l ∈ r.letters, l.id ∈ (e.seen.opened o).ring ↔
      l.id ∈ d.seen.ring ∨ l.id ∈ ((d.news r).take n).map Letter.id := by
    intro l hl
    by_cases hid : l.id = ""
    · refine iff_of_false (fun h => hset.blank (hid ▸ h)) ?_
      rintro (h | h)
      · exact hs.blank (hid ▸ h)
      · exact FileSeenRing.ne_empty_of_safe (hsafe _ h) hid
    · rw [hmem _ (Finset.mem_erase.2 ⟨hid, List.mem_toFinset.2 (List.mem_map_of_mem hl)⟩),
        List.mem_append]
  exact ⟨hset, arrivals_eq_drop hring, refuses_iff hsafe hring⟩

/-- The rest of the letters, written where some of them are, and perhaps one more. -/
lemma putAll_resumed (hd : d.Mirrors) (hnews : l :: ls = (d.news r).drop n)
    (hfiles : e.letters.files = putAll d.letters.files ((d.news r).take n) ∨
      e.letters.files = putAll d.letters.files ((d.news r).take (n + 1))) :
    putAll e.letters.files (l :: ls) = putAll d.letters.files (d.news r) := by
  have hall : putAll (putAll d.letters.files ((d.news r).take n)) (l :: ls) =
      putAll d.letters.files (d.news r) := by
    rw [← putAll_append, hnews, List.take_append_drop]
  rcases hfiles with hfiles | hfiles
  · rw [hfiles]
    exact hall
  · have hmem : l ∈ d.news r := List.mem_of_mem_drop (hnews ▸ List.mem_cons_self)
    have hascending := ascending_putAll hd.letters.ascending ((d.news r).take n)
    rw [hfiles, (news_take_succ hnews).1, putAll_append]
    exact (putAll_again hascending (safe_of_mem_arrivals hmem).2).trans hall

/-- **An application that goes on where another one was cut stores what that one would have
stored.** -/
theorem delivered_resumed (hd : d.Mirrors) (hletters : LettersCut keep d r e)
    (hs : FileSeenRing.Settled r.ids d.seen) :
    FileSeenRing.Settled r.ids (e.seen.opened o) ∧
      (Refuses (e.seen.opened o).ring r.letters ↔ Refuses d.seen.ring r.letters) ∧
      Keyed.Ascending LetterFile.name e.letters.files ∧
      ∀ f ∈ delivered keep d.seen.ring r.letters d.letters.files,
        f ∈ delivered keep (e.seen.opened o).ring r.letters e.letters.files := by
  obtain ⟨n, hfile, hfiles⟩ := hletters
  obtain ⟨hset, hnews, hrefuses⟩ := resumes_opened (o := o) hs hfile
  have hascending := hd.letters.ascending
  refine ⟨hset, hrefuses, ?_, fun f hf => ?_⟩
  · rcases hfiles with hfiles | hfiles | ⟨-, -, hfiles, -⟩
    · rw [hfiles]
      exact ascending_putAll hascending _
    · rw [hfiles]
      exact ascending_putAll hascending _
    · exact hfiles
  · cases hrest : (d.news r).drop n with
    | nil =>
        -- Everything is stored: nothing is written, and nothing is evicted.
        have hall := List.drop_eq_nil_iff.1 hrest
        have hnone : arrivals (e.seen.opened o).ring r.letters = [] := hnews.trans hrest
        rw [delivered, if_pos (Or.inr hnone), hnone]
        rcases hfiles with hfiles | hfiles | ⟨-, -, -, hfiles⟩
        · rw [List.take_of_length_le hall] at hfiles
          exact hfiles ▸ mem_putAll_of_delivered hf
        · rw [List.take_of_length_le (le_trans hall n.le_succ)] at hfiles
          exact hfiles ▸ mem_putAll_of_delivered hf
        · exact hfiles f hf
    | cons l ls =>
        have hfiles' : e.letters.files = putAll d.letters.files ((d.news r).take n) ∨
            e.letters.files = putAll d.letters.files ((d.news r).take (n + 1)) := by
          rcases hfiles with hfiles | hfiles | ⟨hall, -⟩
          · exact Or.inl hfiles
          · exact Or.inr hfiles
          · rw [List.drop_eq_nil_of_le hall] at hrest
            cases hrest
        have hsame : arrivals (e.seen.opened o).ring r.letters = l :: ls := hnews.trans hrest
        have hsome : arrivals d.seen.ring r.letters ≠ [] := by
          intro hnone
          rw [show d.news r = [] from hnone, List.drop_nil] at hrest
          cases hrest
        have hput : putAll e.letters.files (l :: ls) =
            putAll d.letters.files (arrivals d.seen.ring r.letters) :=
          putAll_resumed hd hrest.symm hfiles'
        have hiff : (Refuses (e.seen.opened o).ring r.letters ∨ l :: ls = []) ↔
            (Refuses d.seen.ring r.letters ∨ arrivals d.seen.ring r.letters = []) :=
          or_congr hrefuses (iff_of_false (List.cons_ne_nil _ _) hsome)
        rw [delivered, hsame, hput]
        rw [delivered] at hf
        by_cases hstop : Refuses d.seen.ring r.letters ∨ arrivals d.seen.ring r.letters = []
        · rw [if_pos hstop] at hf
          rw [if_pos (hiff.2 hstop)]
          exact hf
        · rw [if_neg hstop] at hf
          rw [if_neg fun h => hstop (hiff.1 h)]
          exact hf

/-- What a reload makes of a cut can be taken up again. -/
lemma mirrors_opened (hd : d.Mirrors) (hcut : Cut keep d r e)
    (hascending : Keyed.Ascending LetterFile.name e.letters.files) : (e.opened o).Mirrors where
  outbox := by
    obtain ⟨done, -, hfiles⟩ := hcut.outbox
    apply Outbox.mirrors_opened
    rw [hfiles]
    exact hd.outbox.ascending.filterMap fun _ _ => localID_of_outcome
  letters := FileLetterStore.mirrors_opened hascending
  state := rfl
  settings := rfl

/-- The config, taken up again. -/
lemma configured_opened (hd : d.Mirrors)
    (h : e.settings.file = d.settings.file ∨ e.settings.file = d.configured r) :
    (e.opened o).configured r = d.configured r := by
  have hheld : (e.opened o).settings.held = e.settings.file.sanitise := rfl
  have hfile : (e.opened o).settings.file = e.settings.file := rfl
  unfold configured at h ⊢
  cases hconfig : r.config with
  | none =>
      rw [hconfig] at h
      dsimp only at h ⊢
      exact hfile.trans (h.elim id id)
  | some c =>
      rw [hconfig] at h
      dsimp only at h ⊢
      rw [hheld]
      rcases h with h | h
      · rw [h, ← hd.settings]
      · rw [h, StoredSettings.sanitise_sanitise, StoredSettings.edit_sanitise_edit]

/-- **Applied again, a response ends where it would have ended.** -/
theorem reapplied (hd : d.Mirrors) (hs : FileSeenRing.Settled r.ids d.seen)
    (hcut : Cut keep d r e) (o : WriteOutcome) : Reapplies keep d r (e.opened o) := by
  obtain ⟨hset, hrefuses, hascending, hletters⟩ := delivered_resumed (o := o) hd hcut.letters hs
  have hagain : Applied keep (e.opened o) r _ :=
    applied_of_steady (mirrors_opened hd hcut hascending) hset
  have honce : Applied keep d r _ := applied_of_steady hd hs
  obtain ⟨done, hdone, houtbox⟩ := hcut.outbox
  have hrefuses' : Refuses (e.opened o).seen.ring r.letters ↔ Refuses d.seen.ring r.letters :=
    hrefuses
  refine ⟨⟨?_, ?_, ?_, ?_⟩, ?_⟩
  · rw [hagain.outbox, honce.outbox]
    show settled r.acks e.outbox.files = _
    rw [houtbox, settled_settled hdone]
  · rw [hagain.contacts, honce.contacts]
    show r.ayllu.getD e.contacts.file = _
    rcases hcut.contacts with hfile | hfile
    · rw [hfile]
    · rw [hfile, Option.getD_some, Option.getD_some]
  · rw [hagain.settings, honce.settings,
      configured_opened hd (hcut.settings.imp_right And.right)]
    by_cases hstop : Refuses d.seen.ring r.letters
    · rw [if_pos hstop, if_pos (hrefuses'.2 hstop)]
      exact hcut.settings.resolve_right fun h => h.1 hstop
    · rw [if_neg hstop, if_neg fun h => hstop (hrefuses'.1 h)]
  · rw [hagain.cursor, honce.cursor]
    by_cases hstop : Refuses d.seen.ring r.letters
    · rw [if_pos hstop, if_pos (hrefuses'.2 hstop)]
      exact hcut.cursor.resolve_right fun h => h.1 hstop
    · rw [if_neg hstop, if_neg fun h => hstop (hrefuses'.1 h)]
  · rw [hagain.letters, honce.letters]
    exact hletters

end Outlining

end Engine
end Chaskiwasi.Device
