import Chaskiwasi.Lib.Run
import Chaskiwasi.Mail.Imap
import Mathlib.Algebra.BigOperators.Group.Finset.Basic

/-!
# The spam folder

What the provider takes for spam never reaches INBOX, where filing would see it.  `CheckSpam` lists
the spam folder and moves each message to Held, one call of `Move` after the other, and gives up at
the first that fails; the next check lists the folder again.

Meanwhile mail arrives, other moves go on, a call loses its connection with the command executed or
not, and the process is stopped.  None of it loses a message or makes two of one: the folders
together have what was delivered (`total_move`).  A check that comes to its end leaves nothing in
the spam folder but what arrived since it was listed (`nothing_vanishes`).  To the rest of the
server it is messages that appear in Held (`held_turn`).
-/

namespace Chaskiwasi.Spam

open Imap

/-! ## The check -/

/-- One round of `List`. -/
def listOnce (folder : String) (a : Account) (p : Pass) : Account × Except Failure (List Message) :=
  if p.select ≠ .answered then (a, .error .select)
  else if a.messages folder = [] then (a, .ok [])
  else if p.command = .answered then (a, .ok (a.messages folder))
  else (a, .error .command)

/-- A `CheckSpam` that has listed the folder.  No step reads `since`. -/
structure Check where
  msgs : List Message
  /-- What the loop has still to move. -/
  rest : List Message
  /-- The UID that the next message in the folder was to get when it was listed. -/
  since : ℕ

structure World where
  account : Account
  checking : Option Check := none
  /-- What the last `CheckSpam` returned: a number, or an error. -/
  returned : Option (Except Unit ℕ) := none

inductive Act
  /-- A message is delivered to a folder. -/
  | deliver (folder : String) (internalDate : ℤ) (data : List UInt8)
  /-- Anyone else's MOVE. -/
  | elsewhere (folder : String) (uid : ℕ) (dest : String)
  /-- A `CheckSpam` begins, with its listing. -/
  | list (conn : Bool) (passes : List Pass)
  /-- The loop goes on.  Where the rounds give out, the call of `Move` goes on with the next act. -/
  | next (conn : Bool) (passes : List Pass)
  /-- The process is stopped. -/
  | stop

/-- What the listing leads to. -/
def World.listed (w : World) (since : ℕ) :
    Option (Except CallError (List Message)) → Option World
  | none => none
  | some (.error _) => some { w with returned := some (.error ()) }
  | some (.ok msgs) => some { w with checking := some ⟨msgs, msgs, since⟩ }

/-- What a call of `Move` leads to. -/
def World.moved (w : World) (c : Check) (rest : List Message) (account : Account) :
    Option (Except CallError Unit) → World
  | none => { w with account }
  | some (.error _) => { w with account, checking := none, returned := some (.error ()) }
  | some (.ok ()) => { w with account, checking := some { c with rest } }

/-- One turn of the loop of `CheckSpam`. -/
def World.turn (spam held : String) (w : World) (conn : Bool) (passes : List Pass) (c : Check) :
    World :=
  match c.rest with
  | [] => { w with checking := none, returned := some (.ok c.msgs.length) }
  | m :: rest =>
      w.moved c rest ((Call.move spam m.uid held).run conn w.account passes).1
        ((Call.move spam m.uid held).run conn w.account passes).2

def step (spam held : String) (w : World) : Act → Option World
  | .deliver folder internalDate data =>
      some { w with account := w.account.put folder internalDate data }
  | .elsewhere folder uid dest => some { w with account := w.account.move folder uid dest }
  | .list conn passes =>
      -- The mutex lets one check in.
      if w.checking.isSome then none
      else w.listed (w.account.uidNext spam) (withConn (listOnce spam) conn w.account passes).2
  | .next conn passes => w.checking.map (w.turn spam held conn passes)
  | .stop => some { w with checking := none }

/-! ## What the folders have together -/

variable {names : Finset String} {data : List UInt8} {a : Account}

/-- How many messages of some folders are a given text. -/
def total (names : Finset String) (data : List UInt8) (a : Account) : ℕ :=
  ∑ folder ∈ names, (a.messages folder).countP fun m => m.data = data

lemma sum_update {f : String → List Message} {folder : String} (h : folder ∈ names)
    (ms : List Message) (p : Message → Bool) :
    (∑ x ∈ names, (Function.update f folder ms x).countP p) + (f folder).countP p =
      (∑ x ∈ names, (f x).countP p) + ms.countP p := by
  have hrest : ∑ x ∈ names.erase folder, (Function.update f folder ms x).countP p =
      ∑ x ∈ names.erase folder, (f x).countP p :=
    Finset.sum_congr rfl fun x hx => by rw [Function.update_of_ne (Finset.ne_of_mem_erase hx)]
  rw [← Finset.add_sum_erase names _ h, ← Finset.add_sum_erase names (fun x => (f x).countP p) h,
    hrest, Function.update_self]
  omega

lemma total_put {folder : String} (h : folder ∈ names) (internalDate : ℤ) (text : List UInt8) :
    total names data (a.put folder internalDate text) =
      total names data a + if text = data then 1 else 0 := by
  have hsum := sum_update h (f := a.messages)
    (a.messages folder ++ [⟨a.uidNext folder, internalDate, text⟩]) fun m => m.data = data
  rw [List.countP_append, List.countP_singleton] at hsum
  simp only [decide_eq_true_eq] at hsum
  unfold total
  dsimp only [Account.put]
  omega

/-- Without its first message a folder has the others. -/
lemma filter_uid_first {m : Message} {xs : List Message}
    (h : Keyed.Ascending Message.uid (m :: xs)) :
    (m :: xs).filter (fun x => x.uid ≠ m.uid) = xs := by
  rw [List.filter_cons_of_neg (by simp)]
  exact List.filter_eq_self.2 fun x hx => by
    simpa using (ne_of_lt (List.rel_of_pairwise_cons h hx)).symm

/-- Where a UID names a message, the folder has that message and those under other UIDs. -/
lemma countP_filter_uid {folder : String} {m : Message} (hm : m ∈ a.messages folder)
    (p : Message → Bool) :
    (a.messages folder).countP p =
      ((a.messages folder).filter fun x => x.uid ≠ m.uid).countP p + if p m then 1 else 0 := by
  have hsorted := a.sorted folder
  generalize a.messages folder = xs at hm hsorted
  induction xs with
  | nil => exact absurd hm List.not_mem_nil
  | cons x xs ih =>
      obtain ⟨hx, hxs⟩ := List.pairwise_cons.1 hsorted
      rcases List.mem_cons.1 hm with rfl | hmem
      · rw [filter_uid_first hsorted, List.countP_cons]
      · have hne : x.uid ≠ m.uid := ne_of_lt (hx m hmem)
        rw [List.filter_cons_of_pos (by simpa using hne), List.countP_cons, List.countP_cons,
          ih hmem hxs]
        omega

/-- A MOVE changes nothing of what the folders have together. -/
lemma total_move {folder dest : String} (hfolder : folder ∈ names) (hdest : dest ∈ names)
    (uid : ℕ) : total names data (a.move folder uid dest) = total names data a := by
  unfold Account.move
  cases hfind : (a.messages folder).find? fun m => m.uid = uid with
  | none => rfl
  | some m =>
      have hmem := List.mem_of_find?_eq_some hfind
      obtain rfl : m.uid = uid := by simpa using List.find?_some hfind
      have hput : total names data ((a.drop folder m.uid).put dest m.internalDate m.data) =
          total names data (a.drop folder m.uid) + if m.data = data then 1 else 0 :=
        total_put hdest m.internalDate m.data
      have hdrop := sum_update hfolder (f := a.messages)
        ((a.messages folder).filter fun x => x.uid ≠ m.uid) fun x => x.data = data
      have hcount := countP_filter_uid hmem fun x => x.data = data
      simp only [decide_eq_true_eq] at hcount
      have hsame : total names data
          { (a.drop folder m.uid).put dest m.internalDate m.data with
            log := .moved folder m.uid dest :: a.log } =
          total names data ((a.drop folder m.uid).put dest m.internalDate m.data) := rfl
      dsimp only
      rw [hsame, hput]
      unfold total
      dsimp only [Account.drop]
      omega

/-! ## A call of `Move` -/

/-- However often it is tried, it leaves one MOVE or none, and one if it returns nil. -/
lemma run_move (spam held : String) (uid : ℕ) (conn : Bool) (a : Account) (passes : List Pass) :
    (((Call.move spam uid held).run conn a passes).1 = a ∧
        ((Call.move spam uid held).run conn a passes).2 ≠ some (.ok ())) ∨
      ((Call.move spam uid held).run conn a passes).1 = a.move spam uid held := by
  have hidempotent : ∀ b, (Call.move spam uid held).exec ((Call.move spam uid held).exec b) =
      (Call.move spam uid held).exec b := move_move spam uid held
  have hafter := Retry.run_fst_of_idempotent hidempotent a
    ((Call.move spam uid held).attempts conn passes)
  rw [run_eq]
  by_cases hnone : Retry.executions ((Call.move spam uid held).attempts conn passes) = 0
  · rw [if_pos hnone] at hafter
    refine Or.inl ⟨hafter, fun hok => ?_⟩
    have hpos := Retry.executions_pos (fun x hx hresult => executed_of_ok hx hresult) hok
    omega
  · rw [if_neg hnone] at hafter
    exact Or.inr hafter

lemma uidNext_put_le (folder spam : String) (internalDate : ℤ) (text : List UInt8) :
    a.uidNext spam ≤ (a.put folder internalDate text).uidNext spam := by
  by_cases h : spam = folder
  · subst h
    dsimp only [Account.put]
    rw [Function.update_self]
    exact Nat.le_succ _
  · dsimp only [Account.put]
    rw [Function.update_of_ne h]

/-- What a folder has below the UID that it was to give next, it had before. -/
lemma mem_of_mem_put {folder spam : String} {internalDate : ℤ} {text : List UInt8} {m : Message}
    (hm : m ∈ (a.put folder internalDate text).messages spam) (hlt : m.uid < a.uidNext spam) :
    m ∈ a.messages spam := by
  by_cases h : spam = folder
  · subst h
    dsimp only [Account.put] at hm
    rw [Function.update_self] at hm
    rcases List.mem_append.1 hm with hm | hm
    · exact hm
    · rw [List.mem_singleton.1 hm] at hlt
      exact absurd hlt (lt_irrefl _)
  · dsimp only [Account.put] at hm
    rwa [Function.update_of_ne h] at hm

lemma mem_of_mem_drop {folder spam : String} {uid : ℕ} {m : Message}
    (hm : m ∈ (a.drop folder uid).messages spam) : m ∈ a.messages spam := by
  by_cases h : spam = folder
  · subst h
    dsimp only [Account.drop] at hm
    rw [Function.update_self] at hm
    exact List.mem_of_mem_filter hm
  · dsimp only [Account.drop] at hm
    rwa [Function.update_of_ne h] at hm

lemma uidNext_move_le (folder dest spam : String) (uid : ℕ) :
    a.uidNext spam ≤ (a.move folder uid dest).uidNext spam := by
  unfold Account.move
  cases (a.messages folder).find? fun m => m.uid = uid with
  | none => exact le_rfl
  | some m => exact uidNext_put_le (a := a.drop folder uid) dest spam m.internalDate m.data

lemma mem_of_mem_move {folder dest spam : String} {uid : ℕ} {m : Message}
    (hm : m ∈ (a.move folder uid dest).messages spam) (hlt : m.uid < a.uidNext spam) :
    m ∈ a.messages spam := by
  unfold Account.move at hm
  cases hfind : (a.messages folder).find? fun m => m.uid = uid with
  | none =>
      rw [hfind] at hm
      exact hm
  | some x =>
      rw [hfind] at hm
      exact mem_of_mem_drop (mem_of_mem_put (a := a.drop folder uid) hm hlt)

lemma find?_uid {folder : String} {m : Message} (hm : m ∈ a.messages folder) :
    (a.messages folder).find? (fun x => x.uid = m.uid) = some m :=
  (Keyed.find?_eq_some_iff (a.sorted folder).nodup_map).2 ⟨hm, rfl⟩

/-- A message that is moved to another folder comes last there. -/
lemma messages_move {folder dest : String} (hne : folder ≠ dest) {m : Message}
    (hm : m ∈ a.messages folder) : (a.move folder m.uid dest).messages dest =
      a.messages dest ++ [⟨a.uidNext dest, m.internalDate, m.data⟩] := by
  unfold Account.move
  rw [find?_uid hm]
  dsimp only [Account.put, Account.drop]
  rw [Function.update_self, Function.update_of_ne hne.symm]

/-- A message that is moved is in the other folder then, with its date and its text. -/
lemma exists_mem_move {folder dest : String} {m : Message} (hm : m ∈ a.messages folder) :
    ∃ x ∈ (a.move folder m.uid dest).messages dest,
      x.internalDate = m.internalDate ∧ x.data = m.data := by
  refine ⟨⟨(a.drop folder m.uid).uidNext dest, m.internalDate, m.data⟩, ?_, rfl, rfl⟩
  unfold Account.move
  rw [find?_uid hm]
  dsimp only [Account.put]
  rw [Function.update_self]
  exact List.mem_append_right _ (List.mem_singleton_self _)

/-! ## Over a run -/

variable {spam held : String} {w w' : World} {c : Check}

/-- A turn of the loop: it has come to its end, or a call of `Move` is broken off, fails or returns
nil. -/
inductive Turned (spam held : String) (w : World) (c : Check) : World → Prop
  | ended (hrest : c.rest = []) :
      Turned spam held w c { w with checking := none, returned := some (.ok c.msgs.length) }
  | broken {account : Account}
      (haccount : account = w.account ∨ ∃ uid, account = w.account.move spam uid held) :
      Turned spam held w c { w with account }
  | failed {account : Account}
      (haccount : account = w.account ∨ ∃ uid, account = w.account.move spam uid held) :
      Turned spam held w c { w with account, checking := none, returned := some (.error ()) }
  | moved {m : Message} {rest : List Message} (hrest : c.rest = m :: rest) :
      Turned spam held w c
        { w with account := w.account.move spam m.uid held, checking := some { c with rest } }

lemma turn_cases (spam held : String) (w : World) (conn : Bool) (passes : List Pass) (c : Check) :
    Turned spam held w c (w.turn spam held conn passes c) := by
  unfold World.turn
  cases hrest : c.rest with
  | nil => exact .ended hrest
  | cons m rest =>
      have hrun := run_move spam held m.uid conn w.account passes
      have haccount := hrun.imp And.left fun h =>
        (⟨m.uid, h⟩ : ∃ uid, _ = w.account.move spam uid held)
      dsimp only
      cases hresult : ((Call.move spam m.uid held).run conn w.account passes).2 with
      | none => exact .broken haccount
      | some result =>
          cases result with
          | error e => exact .failed haccount
          | ok u =>
              rcases hrun with ⟨-, hnot⟩ | hmoved
              · exact absurd hresult hnot
              · rw [hmoved]
                exact .moved hrest

/-- A turn of the loop is one MOVE or none. -/
lemma account_turn (conn : Bool) (passes : List Pass) (c : Check) :
    (w.turn spam held conn passes c).account = w.account ∨
      ∃ uid, (w.turn spam held conn passes c).account = w.account.move spam uid held := by
  have hturn := turn_cases spam held w conn passes c
  generalize w.turn spam held conn passes c = w' at hturn
  cases hturn with
  | ended hrest => exact Or.inl rfl
  | broken haccount | failed haccount => exact haccount
  | moved hrest => exact Or.inr ⟨_, rfl⟩

/-- A turn of the loop leaves Held as it is, or one message of the spam folder appears there. -/
lemma held_turn (hne : spam ≠ held) (conn : Bool) (passes : List Pass) (c : Check) :
    (w.turn spam held conn passes c).account.messages held = w.account.messages held ∨
      ∃ m ∈ w.account.messages spam, (w.turn spam held conn passes c).account.messages held =
        w.account.messages held ++ [⟨w.account.uidNext held, m.internalDate, m.data⟩] := by
  rcases account_turn conn passes c with hsame | ⟨uid, hmoved⟩
  · exact Or.inl (by rw [hsame])
  · rw [hmoved]
    by_cases hthere : ∃ m ∈ w.account.messages spam, m.uid = uid
    · obtain ⟨m, hm, rfl⟩ := hthere
      exact Or.inr ⟨m, hm, messages_move hne hm⟩
    · rw [move_of_absent fun m hm huid => hthere ⟨m, hm, huid⟩]
      exact Or.inl rfl

/-- What the spam folder has from before the listing is still to be moved. -/
structure Check.Sound (spam : String) (a : Account) (c : Check) : Prop where
  since_le : c.since ≤ a.uidNext spam
  before : ∀ m ∈ a.messages spam, m.uid < c.since → ∃ x ∈ c.rest, x.uid = m.uid

lemma Check.Sound.put (h : c.Sound spam a) (folder : String) (internalDate : ℤ)
    (text : List UInt8) : c.Sound spam (a.put folder internalDate text) where
  since_le := le_trans h.since_le (uidNext_put_le folder spam internalDate text)
  before m hm hlt := h.before m (mem_of_mem_put hm (lt_of_lt_of_le hlt h.since_le)) hlt

lemma Check.Sound.move (h : c.Sound spam a) (folder : String) (uid : ℕ) (dest : String) :
    c.Sound spam (a.move folder uid dest) where
  since_le := le_trans h.since_le (uidNext_move_le folder dest spam uid)
  before m hm hlt := h.before m (mem_of_mem_move hm (lt_of_lt_of_le hlt h.since_le)) hlt

/-- The loop has moved the message that it was at. -/
lemma Check.Sound.next {m : Message} {rest : List Message} (h : c.Sound spam a)
    (hrest : c.rest = m :: rest) : Check.Sound spam (a.move spam m.uid held) { c with rest } where
  since_le := (h.move spam m.uid held).since_le
  before x hx hlt := by
    obtain ⟨y, hy, huid⟩ := (h.move spam m.uid held).before x hx hlt
    rw [hrest] at hy
    rcases List.mem_cons.1 hy with rfl | hy
    · exact absurd huid.symm (not_mem_move spam y.uid held a x hx)
    · exact ⟨y, hy, huid⟩

def World.Sound (spam : String) (w : World) : Prop := ∀ c ∈ w.checking, c.Sound spam w.account

lemma World.Sound.turn (hw : w.Sound spam) (hc : w.checking = some c) (conn : Bool)
    (passes : List Pass) : (w.turn spam held conn passes c).Sound spam := by
  have hsound := hw c hc
  have hturn := turn_cases spam held w conn passes c
  generalize w.turn spam held conn passes c = w' at hturn
  cases hturn with
  | ended hrest | failed haccount => exact fun c' hc' => absurd hc' (Option.not_mem_none c')
  | broken haccount =>
      intro c' hc'
      obtain rfl : c = c' := Option.some.inj (hc.symm.trans hc')
      rcases haccount with rfl | ⟨uid, rfl⟩
      · exact hsound
      · exact hsound.move spam uid held
  | moved hrest =>
      intro c' hc'
      obtain rfl := Option.some.inj hc'
      exact hsound.next hrest

/-- What is listed is what the folder has. -/
lemma list_ok {conn : Bool} {passes : List Pass} {msgs : List Message}
    (h : (withConn (listOnce spam) conn a passes).2 = some (.ok msgs)) :
    msgs = a.messages spam := by
  have hround : ∀ b p, b = a → (listOnce spam b p).1 = a := by
    intro b p hb
    unfold listOnce
    split_ifs <;> exact hb
  obtain ⟨b, p, rfl, hok⟩ := withConn_ok hround rfl h
  unfold listOnce at hok
  split_ifs at hok with _ hempty
  · exact (Except.ok.inj hok).symm.trans hempty.symm
  · exact (Except.ok.inj hok).symm

/-- A listing leaves the folders as they are, and where it succeeds a check has begun. -/
lemma listed_of_step {conn : Bool} {passes : List Pass}
    (hstep : step spam held w (.list conn passes) = some w') :
    w'.account = w.account ∧ (w'.checking = w.checking ∨
      w'.checking = some ⟨w.account.messages spam, w.account.messages spam,
        w.account.uidNext spam⟩) := by
  unfold step at hstep
  split_ifs at hstep with hbusy
  dsimp only at hstep
  cases hresult : (withConn (listOnce spam) conn w.account passes).2 with
  | none =>
      rw [hresult] at hstep
      cases hstep
  | some result =>
      rw [hresult] at hstep
      cases result with
      | error e =>
          obtain rfl := Option.some.inj hstep
          exact ⟨rfl, Or.inl rfl⟩
      | ok msgs =>
          obtain rfl := Option.some.inj hstep
          obtain rfl := list_ok hresult
          exact ⟨rfl, Or.inr rfl⟩

lemma World.Sound.step {act : Act} (hw : w.Sound spam) (hstep : step spam held w act = some w') :
    w'.Sound spam := by
  cases act with
  | deliver folder internalDate text =>
      obtain rfl := Option.some.inj hstep
      exact fun c hc => (hw c hc).put folder internalDate text
  | elsewhere folder uid dest =>
      obtain rfl := Option.some.inj hstep
      exact fun c hc => (hw c hc).move folder uid dest
  | list conn passes =>
      obtain ⟨haccount, hsame | hlisted⟩ := listed_of_step hstep
      · intro c hc
        rw [haccount]
        rw [hsame] at hc
        exact hw c hc
      · intro c hc
        rw [haccount]
        rw [hlisted] at hc
        obtain rfl := Option.some.inj hc
        exact ⟨le_rfl, fun m hm _ => ⟨m, hm, rfl⟩⟩
  | next conn passes =>
      obtain ⟨c, hc, rfl⟩ := Option.map_eq_some_iff.1 hstep
      exact hw.turn hc conn passes
  | stop =>
      obtain rfl := Option.some.inj hstep
      exact fun c hc => absurd hc (Option.not_mem_none c)

/-- The folders that a MOVE or a delivery is about. -/
def Act.Within (names : Finset String) : Act → Prop
  | .deliver folder .. => folder ∈ names
  | .elsewhere folder _ dest => folder ∈ names ∧ dest ∈ names
  | .list .. | .next .. | .stop => True

instance (names : Finset String) : DecidablePred (Act.Within names)
  | .deliver folder .. => inferInstanceAs (Decidable (folder ∈ names))
  | .elsewhere folder _ dest => inferInstanceAs (Decidable (folder ∈ names ∧ dest ∈ names))
  | .list .. | .next .. | .stop => inferInstanceAs (Decidable True)

/-- What is delivered. -/
def Act.delivers : Act → Option (List UInt8)
  | .deliver _ _ data => some data
  | .elsewhere .. | .list .. | .next .. | .stop => none

lemma total_turn (hspam : spam ∈ names) (hheld : held ∈ names) (conn : Bool) (passes : List Pass)
    (c : Check) : total names data (w.turn spam held conn passes c).account =
      total names data w.account := by
  rcases account_turn conn passes c with hsame | ⟨uid, hmoved⟩
  · rw [hsame]
  · rw [hmoved]
    exact total_move hspam hheld uid

/-- A step delivers a message, or the folders have what they had. -/
lemma total_step {act : Act} (hspam : spam ∈ names) (hheld : held ∈ names)
    (hwithin : act.Within names) (hstep : step spam held w act = some w') :
    total names data w'.account =
      total names data w.account + if act.delivers = some data then 1 else 0 := by
  cases act with
  | deliver folder internalDate text =>
      obtain rfl := Option.some.inj hstep
      rw [total_put hwithin]
      simp only [Act.delivers, Option.some.injEq]
  | elsewhere folder uid dest =>
      obtain rfl := Option.some.inj hstep
      exact total_move hwithin.1 hwithin.2 uid
  | list conn passes =>
      rw [(listed_of_step hstep).1]
      rfl
  | next conn passes =>
      obtain ⟨c, hc, rfl⟩ := Option.map_eq_some_iff.1 hstep
      exact total_turn hspam hheld conn passes c
  | stop =>
      obtain rfl := Option.some.inj hstep
      rfl

lemma total_run {acts : List Act} (hspam : spam ∈ names) (hheld : held ∈ names)
    (hwithin : ∀ act ∈ acts, act.Within names)
    (hrun : Run.run (step spam held) w acts = some w') :
    total names data w'.account =
      total names data w.account + (acts.filterMap Act.delivers).count data := by
  induction acts generalizing w with
  | nil =>
      obtain rfl := Option.some.inj hrun
      rfl
  | cons act acts ih =>
      obtain ⟨v, hstep, hrun⟩ := Run.run_cons_eq_some.1 hrun
      have hfirst : total names data v.account =
          total names data w.account + if act.delivers = some data then 1 else 0 :=
        total_step hspam hheld (hwithin act (List.mem_cons_self ..)) hstep
      rw [ih (fun act hact => hwithin act (List.mem_cons_of_mem _ hact)) hrun, hfirst,
        List.filterMap_cons]
      cases act.delivers with
      | none => simp
      | some text => simp [List.count_cons, Nat.add_assoc, Nat.add_comm]

/-- **Nothing vanishes in the spam folder.**  In every run of checks, deliveries and other moves,
with calls that fail or are tried again and stops at any time, the folders together have every
message as often as it was delivered.  When the loop has come to its end, what the spam folder has
came in after it was listed; and a call of `Move` that returns nil has put its message, if that was
still there, into Held. -/
theorem nothing_vanishes {acts : List Act} (hspam : spam ∈ names) (hheld : held ∈ names)
    (hwithin : ∀ act ∈ acts, act.Within names) (hidle : w.checking = none)
    (hrun : Run.run (step spam held) w acts = some w') :
    (∀ data, total names data w'.account =
        total names data w.account + (acts.filterMap Act.delivers).count data) ∧
      ∀ c ∈ w'.checking,
        (c.rest = [] → ∀ m ∈ w'.account.messages spam, c.since ≤ m.uid) ∧
        ∀ m rest, c.rest = m :: rest → m ∈ w'.account.messages spam → ∀ conn passes,
          ((Call.move spam m.uid held).run conn w'.account passes).2 = some (.ok ()) →
            ∃ x ∈ (w'.turn spam held conn passes c).account.messages held,
              x.internalDate = m.internalDate ∧ x.data = m.data := by
  refine ⟨fun data => total_run hspam hheld hwithin hrun, fun c hc => ?_⟩
  have hstart : w.Sound spam := by
    intro c hc
    rw [hidle] at hc
    exact absurd hc (Option.not_mem_none c)
  have hsound : w'.Sound spam :=
    Run.run_invariant (fun _ _ _ hw hstep => hw.step hstep) hstart hrun
  refine ⟨fun hdone m hm => ?_, fun m rest hrest hm conn passes hok => ?_⟩
  · by_contra hlt
    obtain ⟨x, hx, -⟩ := (hsound c hc).before m hm (not_le.1 hlt)
    rw [hdone] at hx
    exact List.not_mem_nil hx
  · unfold World.turn
    rw [hrest]
    dsimp only
    rw [hok]
    show ∃ x ∈ ((Call.move spam m.uid held).run conn w'.account passes).1.messages held, _
    rcases run_move spam held m.uid conn w'.account passes with ⟨-, hnot⟩ | hmoved
    · exact absurd hok hnot
    · rw [hmoved]
      exact exists_mem_move hm

namespace Sample

/-- Two messages are listed and a third arrives.  The first is moved at the second try, the answer
to the first try being lost; the second was taken away meanwhile. -/
def acts : List Act :=
  [.deliver "Spam" 5 [1], .deliver "Spam" 6 [2], .list true [{}], .deliver "Spam" 7 [3],
    .next true Imap.Sample.answerLost, .elsewhere "Spam" 2 "INBOX", .next true [{}]]

end Sample

theorem nothing_vanishes_in_three : ∃ w' : World,
    Run.run (step "Spam" "Held") ⟨Imap.Sample.noMail, none, none⟩ Sample.acts = some w' ∧
      (∀ data, total {"Spam", "Held", "INBOX"} data w'.account =
        total {"Spam", "Held", "INBOX"} data Imap.Sample.noMail + [[1], [2], [3]].count data) ∧
      ∃ c ∈ w'.checking, c.msgs.length = 2 ∧ ∀ m ∈ w'.account.messages "Spam", c.since ≤ m.uid := by
  obtain ⟨w', hrun, hdone⟩ : ∃ w' : World,
      Run.run (step "Spam" "Held") ⟨Imap.Sample.noMail, none, none⟩ Sample.acts = some w' ∧
        (w'.checking.any fun c => decide (c.rest = [] ∧ c.msgs.length = 2)) = true :=
    Run.exists_of_any (by decide +kernel)
  have hspam : "Spam" ∈ ({"Spam", "Held", "INBOX"} : Finset String) := by decide
  obtain ⟨htotal, hchecked⟩ :=
    nothing_vanishes hspam (show "Held" ∈ _ by decide) (by decide) rfl hrun
  cases hchecking : w'.checking with
  | none =>
      rw [hchecking] at hdone
      cases hdone
  | some c =>
      rw [hchecking] at hdone
      obtain ⟨hrest, hlength⟩ := of_decide_eq_true hdone
      exact ⟨w', hrun, htotal, c, hchecking, hlength, (hchecked c hchecking).1 hrest⟩

/-! ## A check that nothing disturbs -/

/-- A folder without its first message. -/
lemma messages_move_first (hne : spam ≠ held) {m : Message} {rest : List Message}
    (h : a.messages spam = m :: rest) : (a.move spam m.uid held).messages spam = rest := by
  have hsorted := a.sorted spam
  rw [h] at hsorted
  have hfirst : m ∈ a.messages spam := h ▸ List.mem_cons_self
  unfold Account.move
  rw [find?_uid hfirst]
  dsimp only [Account.put, Account.drop]
  rw [Function.update_of_ne hne, Function.update_self, h]
  exact filter_uid_first hsorted

/-- What a message is, but for its UID. -/
def content (m : Message) : ℤ × List UInt8 := (m.internalDate, m.data)

lemma turns_empty (hne : spam ≠ held) (hc : w.checking = some c)
    (hrest : w.account.messages spam = c.rest) : ∃ w',
    Run.run (step spam held) w (List.replicate (c.rest.length + 1) (.next true [{}])) = some w' ∧
      w'.checking = none ∧ w'.returned = some (.ok c.msgs.length) ∧
      w'.account.messages spam = [] ∧ (w'.account.messages held).map content =
        (w.account.messages held).map content ++ c.rest.map content := by
  obtain ⟨msgs, rest, since⟩ := c
  dsimp only at hrest ⊢
  induction rest generalizing w with
  | nil =>
      refine ⟨{ w with checking := none, returned := some (.ok msgs.length) },
        Run.run_cons_eq_some.2 ⟨_, ?_, rfl⟩, rfl, rfl, hrest, (List.append_nil _).symm⟩
      exact Option.map_eq_some_iff.2 ⟨_, hc, rfl⟩
  | cons m rest ih =>
      have hfirst : m ∈ w.account.messages spam := hrest ▸ List.mem_cons_self
      obtain ⟨w', hrun, hnone, hreturned, hempty, hmap⟩ :=
        ih (w := { w with
          account := w.account.move spam m.uid held, checking := some ⟨msgs, rest, since⟩ })
          rfl (messages_move_first hne hrest)
      refine ⟨w', Run.run_cons_eq_some.2 ⟨_, ?_, hrun⟩, hnone, hreturned, hempty, ?_⟩
      · exact Option.map_eq_some_iff.2 ⟨_, hc, rfl⟩
      · rw [hmap, messages_move hne hfirst, List.map_append, List.append_assoc]
        rfl

/-- A check whose calls succeed and that nothing disturbs moves all there is, in order, and returns
how many that were. -/
theorem check_empties (hne : spam ≠ held) (hidle : w.checking = none) : ∃ w',
    Run.run (step spam held) w (.list true [{}] ::
      List.replicate ((w.account.messages spam).length + 1) (.next true [{}])) = some w' ∧
      w'.checking = none ∧ w'.returned = some (.ok (w.account.messages spam).length) ∧
      w'.account.messages spam = [] ∧ (w'.account.messages held).map content =
        (w.account.messages held ++ w.account.messages spam).map content := by
  have hlist : (withConn (listOnce spam) true w.account [{}]).2 =
      some (.ok (w.account.messages spam)) := by
    have hround : listOnce spam w.account {} = (w.account, .ok (w.account.messages spam)) := by
      unfold listOnce
      split_ifs with hselect hempty hcommand
      · exact absurd rfl hselect
      · rw [hempty]
      · rfl
      · exact absurd rfl hcommand
    unfold withConn
    rw [hround]
    rfl
  obtain ⟨w', hrun, hnone, hreturned, hempty, hmap⟩ := turns_empty hne
    (w := { w with checking := some ⟨w.account.messages spam, w.account.messages spam,
      w.account.uidNext spam⟩ }) rfl rfl
  refine ⟨w', Run.run_cons_eq_some.2 ⟨_, ?_, hrun⟩, hnone, hreturned, hempty, ?_⟩
  · unfold step
    dsimp only
    rw [hidle, hlist]
    rfl
  · rw [hmap, List.map_append]

end Chaskiwasi.Spam
