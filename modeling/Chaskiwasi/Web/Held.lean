import Chaskiwasi.Server.Unheld
import Mathlib.Data.List.TakeWhile
import Mathlib.Data.Set.Finite.Basic

/-!
# What the guardian pages make of a held letter

The page of held letters says of each whether its sender is a stranger, a closed contact or a known
one, and a release takes the way that belongs to the answer.  The page asks the full table, and each
way of release asks again for itself.  Two of them ask what the page asked.  The third, for a known
sender, asks for an active contact with that address as its current one; so a letter of a known
sender from a past address has no way out.

With nothing failing, a release comes to its return; whatever the arrival path finds on the way, the
mark goes up with every message.
-/

namespace Chaskiwasi.Review

/-- What the sender of a held message resolves to. -/
inductive HeldKind
  /-- Nobody. -/
  | stranger
  /-- A tombstone. -/
  | deactivated
  /-- A contact that is active. -/
  | known
  /-- The From header does not parse. -/
  | unreadable
  deriving DecidableEq, Repr

/-- One row of the page. -/
structure HeldView where
  uid : UID
  fromAddress : String := ""
  subject : String := ""
  received : ℤ
  kind : HeldKind
  contactID : String := ""
  contactName : String := ""
  deriving DecidableEq, Repr

/-- What the header of a message says: its subject, its date, and the first name and address of its
From, where these parse. -/
structure Header where
  subject : String
  date : Option ℤ
  sender : Option (String × String)

/-- The standard mail parser, which filing reads the From address with. -/
structure Reader (P : Pipeline) where
  readMessage : List UInt8 → Option Header
  headerFrom_eq : ∀ data,
    P.headerFrom data = (readMessage data).bind fun header => header.sender.map Prod.snd

/-- `time.Time`'s zero, in seconds. -/
def zeroTime : ℤ := -62135596800

section Page

variable [Runes] {P : Pipeline} (R : Reader P) (t : Table)

/-- Resolves a held message against the full table. -/
def classify (raw : Raw) : HeldView :=
  let v : HeldView := { uid := raw.uid, received := raw.internalDate, kind := .unreadable }
  match R.readMessage raw.data with
  | none => v
  | some header =>
      let v : HeldView :=
        { v with
          received := if v.received = zeroTime then header.date.getD v.received else v.received
          subject := P.normalizeInbound header.subject }
      match header.sender with
      | none => v
      | some (name, addr) =>
          let v : HeldView := { v with fromAddress := addr }
          match t.resolve addr with
          | none =>
              { v with kind := .stranger, contactName := String.ofList (trimSpace name.toList) }
          | some c =>
              if ¬ c.active then
                { v with kind := .deactivated, contactID := c.id, contactName := c.name }
              else { v with kind := .known, contactID := c.id, contactName := c.name }

inductive ReleaseError
  /-- `no held message with uid %d` -/
  | notHeld (uid : UID)
  /-- `release uid %d: a name is required to add this sender as a contact` -/
  | nameRequired (uid : UID)
  /-- `release uid %d: the sender of this message cannot be read, so it cannot be released` -/
  | unreadableSender (uid : UID)
  deriving DecidableEq, Repr

/-- The one way of release that goes with the kind. -/
def releaseFor (v : HeldView) (actor name : String) : Except ReleaseError Release :=
  match v.kind with
  | .stranger =>
      if name = "" then .error (.nameRequired v.uid) else .ok (.stranger actor name)
  | .deactivated => .ok (.deactivated actor v.contactID)
  | .known => .ok .active
  | .unreadable => .error (.unreadableSender v.uid)

/-- Lists Held and classifies the message under a UID. -/
def findHeld (held : Folder) (uid : UID) : Except ReleaseError HeldView :=
  match held.find uid with
  | none => .error (.notHeld uid)
  | some raw => .ok (classify R t raw)

/-- The call of filing that a posted release comes to; `name` is the form's. -/
def handleHeldRelease (held : Folder) (uid : UID) (actor name : String) :
    Except ReleaseError Job := do
  let view ← findHeld R t held uid
  let rel ← releaseFor view actor (String.ofList (trimSpace name.toList))
  return .release rel uid

end Page

/-! ## A release with nothing failing -/

section Smooth

variable [Runes] (cfg : Config)

/-- The next step of the pass, with no failure on disk or on the way to the mailbox, and an id left
among those that are drawn. -/
def Smooth (v : World) (act : Act) : Prop :=
  ∃ fresh io, act = .pass .ok fresh io ∧ io.persisted = true ∧ io.logged = true ∧
    ∃ id, nextID v.table (io.drawn.take 32) = .ok id

/-- The call has returned nil; or its next move is to a folder that has no UID left, so that the
mailbox fails. -/
def Settled (job : Job) (v : World) : Prop :=
  v.pass = none ∧ v.log.head? = some (.returned job true) ∨
    (∃ caller raw, v.pass = some ⟨caller, .unhold raw⟩ ∧ ∀ fresh, ¬ v.inbox.last < fresh) ∨
    ∃ caller raw rest full, v.pass = some ⟨caller, .hold raw rest full⟩ ∧
      ∀ fresh, ¬ v.held.last < fresh

/-- With nothing failing, the call comes to return nil. -/
def Succeeds (w : World) (job : Job) : Prop :=
  ∃ v, step cfg w (.call job) = some v ∧ Run.Comes (step cfg) Smooth (Settled job) v

end Smooth

/-- A way of release accepts the sender of a letter. -/
def Accepts [Runes] (maxContacts : ℕ) (t : Table) (sender : String) : Release → Prop
  | .stranger .. => t.resolve sender = none ∧ String.ofList (trimSpace sender.toList) ≠ "" ∧
      t.contacts.length < maxContacts
  | .deactivated _ contactID => (t.resolve sender).map Contact.id = some contactID ∧
      contactID ≠ sysContactID
  | .active => (t.resolveActive sender).isSome

section Change

variable [Runes] {t : Table} {sender actor : String} {rel : Release} {m : Mutation} {io : MutateIO}
  {maxContacts : ℕ}

lemma readded_eq_none {norm : String}
    (h : ∀ c ∈ t.contacts, c.answers norm false = false) : t.readded norm = none := by
  cases hre : t.readded norm with
  | none => rfl
  | some r =>
      obtain ⟨hmem, hans⟩ := Table.readded_eq_some hre
      have hanswers : r.contact.answers norm false = true := by
        simpa [Contact.answers] using hans
      rw [h _ hmem] at hanswers
      cases hanswers

/-- A stranger is added. -/
lemma mutate_stranger {name : String} (h : Accepts maxContacts t sender (.stranger actor name))
    (hpersisted : io.persisted = true) (hlogged : io.logged = true)
    (hid : ∃ id, nextID t (io.drawn.take 32) = .ok id) :
    ∃ ev t', mutate maxContacts io actor { action := .add, name := name, address := sender } t =
      (.ok ev, t') := by
  obtain ⟨hres, hne, hroom⟩ := h
  have hnone : ¬ (t.resolve sender).isSome := by simp [hres]
  rw [Table.resolve_isSome_iff, not_or] at hnone
  obtain ⟨hsys, hnew⟩ := hnone
  have haims :
      Mutation.aimsAtSystem { action := .add, name := name, address := sender } = false := by
    simp [Mutation.aimsAtSystem, hsys, sysContactID]
  have hfree : t.readded (normalizeAddress (String.ofList (trimSpace sender.toList))) = none := by
    refine readded_eq_none fun c hc => ?_
    rw [normalizeAddress_trim]
    exact Bool.eq_false_of_not_eq_true fun hans => hnew ⟨c, hc, hans⟩
  obtain ⟨id, hid⟩ := hid
  have happly : ∃ r, applyMutation maxContacts io.drawn t
      { action := .add, name := name, address := sender } = .ok r := by
    simp only [applyMutation, applyAdd, hne, if_false, hfree, not_le.2 hroom, hid]
    exact ⟨_, rfl⟩
  obtain ⟨r, hr⟩ := happly
  obtain ⟨ev, hev⟩ := @mutate_of_apply _ maxContacts io actor _ t r haims hpersisted hlogged hr
  exact ⟨ev, _, hev⟩

/-- A closed contact is opened. -/
lemma mutate_deactivated {contactID : String}
    (h : Accepts maxContacts t sender (.deactivated actor contactID))
    (hpersisted : io.persisted = true) (hlogged : io.logged = true) :
    ∃ ev t', mutate maxContacts io actor { action := .reactivate, contactID := contactID } t =
      (.ok ev, t') := by
  obtain ⟨hres, hne⟩ := h
  obtain ⟨c, hc, hid⟩ := Option.map_eq_some_iff.1 hres
  have hsys : ¬ IsSystem sender := by
    intro hsys
    rw [Table.resolve, Table.resolveLocked_of_isSystem hsys] at hc
    obtain rfl := Option.some.inj hc
    exact hne hid.symm
  have hmem := (Table.mem_of_resolveLocked hsys hc).1
  have haims : Mutation.aimsAtSystem { action := .reactivate, contactID := contactID } = false := by
    simp [Mutation.aimsAtSystem, hne]
  have happly : ∃ r, applyMutation maxContacts io.drawn t
      { action := .reactivate, contactID := contactID } = .ok r := by
    cases hrow : t.row? contactID with
    | none => exact absurd hid (Table.ne_of_row?_eq_none hrow c hmem)
    | some old =>
        simp only [applyMutation, applyReactivate, hrow]
        exact ⟨_, rfl⟩
  obtain ⟨r, hr⟩ := happly
  obtain ⟨ev, hev⟩ := @mutate_of_apply _ maxContacts io actor _ t r haims hpersisted hlogged hr
  exact ⟨ev, _, hev⟩

lemma mutate_accepted (h : Accepts maxContacts t sender rel)
    (hm : rel.mutation sender = some (actor, m)) (hpersisted : io.persisted = true)
    (hlogged : io.logged = true) (hid : ∃ id, nextID t (io.drawn.take 32) = .ok id) :
    ∃ ev t', mutate maxContacts io actor m t = (.ok ev, t') := by
  cases rel with
  | stranger actor' name =>
      obtain ⟨rfl, rfl⟩ := Prod.mk.inj (Option.some.inj hm)
      exact mutate_stranger h hpersisted hlogged hid
  | deactivated actor' contactID =>
      obtain ⟨rfl, rfl⟩ := Prod.mk.inj (Option.some.inj hm)
      exact mutate_deactivated h hpersisted hlogged
  | active => cases hm

end Change

/-! ### From step to step -/

section Steps

variable {w v v' : World} {rel : Release} {uid : UID} {raw : Raw} {sender : String} {pc : Pass}

/-- Where a release that does not fail stands. -/
def Fine (w v : World) (rel : Release) (uid : UID) (raw : Raw) (sender : String) : Pass → Prop
  | .findHeld rel' uid' =>
      v.held.find uid = some raw ∧ v.table = w.table ∧ rel' = rel ∧ uid' = uid
  | .check rel' raw' => v.held.find uid = some raw ∧ v.table = w.table ∧ rel' = rel ∧ raw' = raw
  | .change rel' raw' sender' => v.held.find uid = some raw ∧ v.table = w.table ∧ rel' = rel ∧
      raw' = raw ∧ sender' = sender ∧ rel ≠ .active
  | .unhold raw' => v.held.find uid = some raw ∧ raw' = raw
  | .fetch => True
  | .file rest _ => v.Page rest
  | .hold x rest _ => v.Page (x :: rest)
  | _ => False

/-- How far the mark is below the highest UID. -/
def below (v : World) : ℕ := v.inbox.last.val - v.highWater.val

/-- A bound on the steps that are left. -/
def left (v : World) : Pass → ℕ
  | .findHeld .. => 2 ^ 36 + 4
  | .check .. => 2 ^ 36 + 3
  | .change .. => 2 ^ 36 + 2
  | .unhold _ => 2 ^ 36 + 1
  | .fetch => 8 * below v + 2
  | .file [] true => 8 * below v + 3
  | .file _ _ => 8 * below v + 1
  | .hold .. => 8 * below v
  | _ => 0

lemma below_lt (v : World) : below v < 2 ^ 32 :=
  lt_of_le_of_lt (Nat.sub_le _ _) v.inbox.last.isLt

/-- The mark comes closer with every message that is judged. -/
lemma below_lt_of_page {x : Raw} {rest : List Raw} (h : v.Page (x :: rest))
    (hmark : v'.highWater = max v.highWater x.uid) (hlast : v'.inbox.last = v.inbox.last) :
    below v' < below v := by
  obtain ⟨hmem, habove⟩ := h.mem x (List.mem_cons_self ..)
  have hle : x.uid.val ≤ v.inbox.last.val := v.inbox.le_last x hmem
  have hlt : v.highWater.val < x.uid.val := habove
  rw [below, below, hmark, hlast, max_eq_right (le_of_lt habove)]
  omega

lemma left_file_lt {rest : List Raw} {full : Bool} (h : below v' < below v) :
    left v' (.file rest full) < 8 * below v := by
  unfold left
  split <;> simp_all <;> omega

/-- The release goes on, with fewer steps left, or has returned nil. -/
def Nears (w v v' : World) (rel : Release) (uid : UID) (raw : Raw) (sender : String) (pc : Pass) :
    Prop :=
  (∃ pc', v'.pass = some ⟨rel.caller uid, pc'⟩ ∧ Fine w v' rel uid raw sender pc' ∧
    left v' pc' < left v pc) ∨
  v'.pass = none ∧ v'.log.head? = some (.returned (.release rel uid) true)

variable [Runes] {cfg : Config} {fresh : UID} {io : MutateIO}

lemma findHeld_nears {rel' : Release} {uid' : UID}
    (h : Fine w v rel uid raw sender (.findHeld rel' uid'))
    (hstep : passStep cfg v (rel.caller uid) (.findHeld rel' uid') .ok fresh io = some v') :
    Nears w v v' rel uid raw sender (.findHeld rel' uid') := by
  obtain ⟨hfind, htable, rfl, rfl⟩ := h
  simp only [passStep, if_true, hfind] at hstep
  obtain rfl := Option.some.inj hstep
  exact Or.inl ⟨_, rfl, ⟨hfind, htable, rfl, rfl⟩, Nat.lt_succ_self _⟩

lemma check_nears {rel' : Release} {raw' : Raw}
    (h : Fine w v rel uid raw sender (.check rel' raw'))
    (hreads : cfg.pipeline.headerFrom raw.data = some sender)
    (haccepts : Accepts cfg.maxContacts w.table sender rel)
    (hstep : passStep cfg v (rel.caller uid) (.check rel' raw') .ok fresh io = some v') :
    Nears w v v' rel uid raw sender (.check rel' raw') := by
  obtain ⟨hfind, htable, rfl, rfl⟩ := h
  have hless : 2 ^ 36 + 1 < 2 ^ 36 + 3 := by omega
  simp only [passStep, hreads] at hstep
  cases rel' with
  | stranger actor name =>
      obtain rfl := Option.some.inj hstep
      exact Or.inl ⟨_, rfl, ⟨hfind, htable, rfl, rfl, rfl, by simp⟩, Nat.lt_succ_self _⟩
  | deactivated actor contactID =>
      have hid := haccepts.1
      rw [← htable] at hid
      simp only [hid, if_true] at hstep
      obtain rfl := Option.some.inj hstep
      exact Or.inl ⟨_, rfl, ⟨hfind, htable, rfl, rfl, rfl, by simp⟩, Nat.lt_succ_self _⟩
  | active =>
      have hactive : (v.table.resolveActive sender).isSome = true := by
        rw [htable]
        exact haccepts
      simp only [hactive, if_true] at hstep
      obtain rfl := Option.some.inj hstep
      exact Or.inl ⟨_, rfl, ⟨hfind, rfl⟩, hless⟩

lemma change_nears {rel' : Release} {raw' : Raw} {sender' : String}
    (h : Fine w v rel uid raw sender (.change rel' raw' sender'))
    (haccepts : Accepts cfg.maxContacts w.table sender rel) (hpersisted : io.persisted = true)
    (hlogged : io.logged = true) (hid : ∃ id, nextID v.table (io.drawn.take 32) = .ok id)
    (hstep : passStep cfg v (rel.caller uid) (.change rel' raw' sender') .ok fresh io = some v') :
    Nears w v v' rel uid raw sender (.change rel' raw' sender') := by
  obtain ⟨hfind, htable, rfl, rfl, rfl, hne⟩ := h
  rw [← htable] at haccepts
  cases hm : rel'.mutation sender' with
  | none =>
      cases rel' with
      | active => exact absurd rfl hne
      | stranger | deactivated => cases hm
  | some change =>
      obtain ⟨actor, m⟩ := change
      obtain ⟨ev, t', hmutate⟩ := mutate_accepted haccepts hm hpersisted hlogged hid
      simp only [passStep, hm, hmutate] at hstep
      obtain rfl := Option.some.inj hstep
      exact Or.inl ⟨_, rfl, ⟨hfind, rfl⟩, Nat.lt_succ_self _⟩

lemma unhold_nears {raw' : Raw}
    (hstep : passStep cfg v (rel.caller uid) (.unhold raw') .ok fresh io = some v') :
    Nears w v v' rel uid raw sender (.unhold raw') := by
  simp only [passStep, if_true] at hstep
  obtain ⟨v₁, -, rfl⟩ := Option.map_eq_some_iff.1 hstep
  refine Or.inl ⟨_, rfl, trivial, ?_⟩
  have hbelow := below_lt (v₁.goto (rel.caller uid) .fetch)
  show 8 * below (v₁.goto (rel.caller uid) .fetch) + 2 < 2 ^ 36 + 1
  omega

lemma fetch_nears
    (hstep : passStep cfg v (rel.caller uid) .fetch .ok fresh io = some v') :
    Nears w v v' rel uid raw sender .fetch := by
  simp only [passStep, if_true] at hstep
  obtain rfl := Option.some.inj hstep
  refine Or.inl ⟨_, rfl, ⟨Folder.fetchAbove_sorted .., fun x hx => Folder.mem_of_mem_fetchAbove hx⟩,
    ?_⟩
  cases hraws : v.inbox.fetchAbove v.highWater arrivalBatchSize with
  | nil => exact Nat.lt_succ_self _
  | cons x rest => exact Nat.lt_succ_self _

lemma file_nears {rest : List Raw} {full : Bool} (h : Fine w v rel uid raw sender (.file rest full))
    (hstep : passStep cfg v (rel.caller uid) (.file rest full) .ok fresh io = some v') :
    Nears w v v' rel uid raw sender (.file rest full) := by
  cases rest with
  | nil =>
      cases full with
      | true =>
          obtain rfl := Option.some.inj hstep
          exact Or.inl ⟨_, rfl, trivial, Nat.lt_succ_self _⟩
      | false =>
          obtain rfl := Option.some.inj hstep
          exact Or.inr ⟨rfl, rfl⟩
  | cons x rest =>
      simp only [passStep] at hstep
      cases hsender : activeSender cfg.pipeline v.table x with
      | none =>
          simp only [hsender] at hstep
          obtain rfl := Option.some.inj hstep
          exact Or.inl ⟨_, rfl, ⟨h.sorted, h.mem⟩, Nat.lt_succ_self _⟩
      | some contact =>
          simp only [hsender] at hstep
          obtain rfl := Option.some.inj hstep
          refine Or.inl ⟨_, rfl, World.Page.tail h rfl fun y hy _ => hy, ?_⟩
          exact lt_of_lt_of_le (left_file_lt (below_lt_of_page h rfl rfl)) (Nat.le_succ _)

lemma hold_nears {x : Raw} {rest : List Raw} {full : Bool}
    (h : Fine w v rel uid raw sender (.hold x rest full))
    (hstep : passStep cfg v (rel.caller uid) (.hold x rest full) .ok fresh io = some v') :
    Nears w v v' rel uid raw sender (.hold x rest full) := by
  simp only [passStep, if_true] at hstep
  obtain ⟨v₁, hv, rfl⟩ := Option.map_eq_some_iff.1 hstep
  obtain ⟨held, rfl⟩ := World.moveOut_of_mem (h.mem x (List.mem_cons_self ..)).1 hv
  refine Or.inl ⟨_, rfl, World.Page.tail h rfl fun y hy hne => Folder.mem_remove.2 ⟨hy, hne⟩, ?_⟩
  exact left_file_lt (below_lt_of_page h rfl rfl)

lemma fine_nears (h : Fine w v rel uid raw sender pc)
    (hreads : cfg.pipeline.headerFrom raw.data = some sender)
    (haccepts : Accepts cfg.maxContacts w.table sender rel) (hpersisted : io.persisted = true)
    (hlogged : io.logged = true) (hid : ∃ id, nextID v.table (io.drawn.take 32) = .ok id)
    (hstep : passStep cfg v (rel.caller uid) pc .ok fresh io = some v') :
    Nears w v v' rel uid raw sender pc := by
  cases pc with
  | findHeld rel' uid' => exact findHeld_nears h hstep
  | check rel' raw' => exact check_nears h hreads haccepts hstep
  | change rel' raw' sender' => exact change_nears h haccepts hpersisted hlogged hid hstep
  | unhold raw' => exact unhold_nears hstep
  | fetch => exact fetch_nears hstep
  | file rest full => exact file_nears h hstep
  | hold x rest full => exact hold_nears h hstep
  | _ => exact h.elim

omit [Runes] in
/-- There is an id that no row has. -/
lemma exists_unused (t : Table) : ∃ drawn id, nextID t (List.take 32 [some drawn]) = .ok id := by
  have hinj : Function.Injective fun n : ℕ => String.ofList (List.replicate n 'c') := by
    intro a b hab
    have hlength := congrArg List.length (String.ofList_inj.1 hab)
    rwa [List.length_replicate, List.length_replicate] at hlength
  obtain ⟨id, -, hfresh⟩ := (Set.infinite_range_of_injective hinj).exists_notMem_finset
    (insert sysContactID (t.contacts.map Contact.id).toFinset)
  simp only [Finset.mem_insert, List.mem_toFinset, List.mem_map, not_or, not_exists, not_and]
    at hfresh
  obtain ⟨hsys, hunused⟩ := hfresh
  have hrow : t.row? id = none := by
    cases hrow : t.row? id with
    | none => rfl
    | some r =>
        obtain ⟨hmem, hid⟩ := Table.row?_eq_some hrow
        exact absurd hid (hunused _ hmem)
  refine ⟨id, ⟨id, hsys⟩, ?_⟩
  simp [nextID, hsys, hrow]

/-- The pass can go on, unless it is about to move to a folder that has no UID left. -/
lemma exists_step (hpass : v.pass = some ⟨rel.caller uid, pc⟩)
    (hfine : Fine w v rel uid raw sender pc) (hsettled : ¬ Settled (.release rel uid) v) :
    ∃ act v', Smooth v act ∧ step cfg v act = some v' := by
  obtain ⟨drawn, id, hid⟩ := exists_unused v.table
  simp only [Settled, not_or, not_exists, not_and, not_forall, not_not] at hsettled
  obtain ⟨-, hin, hout⟩ := hsettled
  have hsmooth : ∀ fresh, Smooth v (.pass .ok fresh { drawn := [some drawn] }) :=
    fun fresh => ⟨fresh, _, rfl, rfl, rfl, id, hid⟩
  have hstep : ∀ fresh, step cfg v (.pass .ok fresh { drawn := [some drawn] }) =
      passStep cfg v (rel.caller uid) pc .ok fresh { drawn := [some drawn] } := by
    intro fresh
    simp only [step, hpass]
  suffices h : ∃ fresh v',
      passStep cfg v (rel.caller uid) pc .ok fresh { drawn := [some drawn] } = some v' by
    obtain ⟨fresh, v', hv'⟩ := h
    exact ⟨_, v', hsmooth fresh, (hstep fresh).trans hv'⟩
  cases pc with
  | findHeld rel' uid' =>
      obtain ⟨hfind, -, -, rfl⟩ := hfine
      exact ⟨0, _, by simp only [passStep, if_true, hfind]; rfl⟩
  | check rel' raw' =>
      simp only [passStep]
      cases cfg.pipeline.headerFrom raw'.data with
      | none => exact ⟨0, _, rfl⟩
      | some sender =>
          cases rel' with
          | stranger => exact ⟨0, _, rfl⟩
          | deactivated actor contactID =>
              by_cases hid : (v.table.resolve sender).map Contact.id = some contactID
              · exact ⟨0, _, if_pos hid⟩
              · exact ⟨0, _, if_neg hid⟩
          | active =>
              by_cases hactive : (v.table.resolveActive sender).isSome = true
              · exact ⟨0, _, if_pos hactive⟩
              · exact ⟨0, _, if_neg hactive⟩
  | change rel' raw' sender' =>
      simp only [passStep]
      cases rel'.mutation sender' with
      | none => exact ⟨0, _, rfl⟩
      | some change =>
          obtain ⟨actor, m⟩ := change
          simp only
          cases (mutate cfg.maxContacts { drawn := [some drawn] } actor m v.table).1 with
          | ok ev => exact ⟨0, _, rfl⟩
          | error e => exact ⟨0, _, rfl⟩
  | unhold raw' =>
      obtain ⟨fresh, hfresh⟩ := hin _ _ hpass
      obtain ⟨hfind, rfl⟩ := hfine
      obtain ⟨-, huid⟩ := Folder.find_eq_some hfind
      refine ⟨fresh, ?_⟩
      simp only [passStep, World.moveIn, huid, hfind, reduceCtorEq, if_false, dif_pos hfresh]
      exact ⟨_, rfl⟩
  | fetch => exact ⟨0, _, rfl⟩
  | file rest full =>
      cases rest with
      | nil => cases full <;> exact ⟨0, _, rfl⟩
      | cons x rest =>
          simp only [passStep]
          cases activeSender cfg.pipeline v.table x with
          | none => exact ⟨0, _, rfl⟩
          | some contact => exact ⟨0, _, rfl⟩
  | hold x rest full =>
      obtain ⟨fresh, hfresh⟩ := hout _ _ _ _ hpass
      refine ⟨fresh, ?_⟩
      simp only [passStep, World.moveOut]
      cases v.inbox.find x.uid with
      | none => exact ⟨_, rfl⟩
      | some found =>
          simp only [reduceCtorEq, if_false, dif_pos hfresh]
          exact ⟨_, rfl⟩
  | _ => exact hfine.elim

/-- A way of release that accepts the sender comes to return nil. -/
theorem succeeds_of_accepts (hfree : w.pass = none) (hraw : w.held.find uid = some raw)
    (hreads : cfg.pipeline.headerFrom raw.data = some sender)
    (haccepts : Accepts cfg.maxContacts w.table sender rel) :
    Succeeds cfg w (.release rel uid) := by
  have hcall : step cfg w (.call (.release rel uid)) =
      some (w.goto (rel.caller uid) (.findHeld rel uid)) := by
    simp only [step, hfree]
    rfl
  refine ⟨_, hcall, ?_⟩
  refine Run.comes_of_measure
    (I := fun v => Settled (.release rel uid) v ∨
      ∃ pc, v.pass = some ⟨rel.caller uid, pc⟩ ∧ Fine w v rel uid raw sender pc)
    (fun v => (v.pass.map fun running => left v running.pc + 1).getD 0) ?_ ?_
    (Or.inr ⟨_, rfl, hraw, rfl, rfl, rfl⟩)
  · rintro v (hsettled | ⟨pc, hpass, hfine⟩) hnot
    · exact absurd hsettled hnot
    · exact exists_step hpass hfine hnot
  · rintro v act v' (hsettled | ⟨pc, hpass, hfine⟩) hnot ⟨fresh, io, rfl, hpersisted, hlogged, hid⟩
      hstep
    · exact absurd hsettled hnot
    · simp only [step, hpass] at hstep
      rcases fine_nears hfine hreads haccepts hpersisted hlogged hid hstep with
        ⟨pc', hpass', hfine', hless⟩ | ⟨hpass', hhead⟩
      · refine ⟨Or.inr ⟨pc', hpass', hfine'⟩, ?_⟩
        simp only [hpass, hpass', Option.map_some, Option.getD_some]
        omega
      · refine ⟨Or.inl (Or.inl ⟨hpass', hhead⟩), ?_⟩
        simp only [hpass, hpass', Option.map_some, Option.map_none, Option.getD_some,
          Option.getD_none]
        omega

/-- A known sender that is not active under this address is refused. -/
lemma not_succeeds_active (hraw : w.held.find uid = some raw)
    (hreads : cfg.pipeline.headerFrom raw.data = some sender)
    (hinactive : ¬ (w.table.resolveActive sender).isSome) :
    ¬ Succeeds cfg w (.release .active uid) := by
  rintro ⟨v, hcall, hcomes⟩
  cases worldStep_cases hcall with
  | called j hfree =>
      obtain ⟨drawn, id, hid⟩ := exists_unused w.table
      have hsmooth : ∀ {v : World}, v.table = w.table →
          Smooth v (.pass .ok 0 { drawn := [some drawn] }) := by
        intro v htable
        refine ⟨0, _, rfl, rfl, rfl, id, ?_⟩
        rw [htable]
        exact hid
      have hfound := hcomes.next_of_not (by simp [Settled, Job.entry]) _
        (w.goto (.job (.release .active uid)) (.check .active raw)) (hsmooth rfl) (by
          simp only [step, World.goto, Job.entry, passStep, if_true, hraw])
      have hrefused := hfound.next_of_not (by simp [Settled]) _
        (w.finish (.job (.release .active uid)) false) (hsmooth rfl) (by
          simp only [step, World.goto, passStep, hreads]
          exact if_neg hinactive)
      -- The call has returned an error, and nothing goes on.
      cases hrefused with
      | here hsettled => simp [Settled, World.finish] at hsettled
      | next hcan _ =>
          obtain ⟨act, v', ⟨fresh, io, rfl, -⟩, hstep⟩ := hcan
          simp [step] at hstep

end Steps

/-! ## The way out -/

lemma mem_trimLeft {c : Char} {s : List Char} (hc : isSpace c = false) (h : c ∈ s) :
    c ∈ trimLeft s := by
  have hsplit := List.takeWhile_append_dropWhile (p := isSpace) (l := s)
  rw [← hsplit] at h
  rcases List.mem_append.1 h with htake | hdrop
  · rw [List.mem_takeWhile_imp htake] at hc
    cases hc
  · exact hdrop

lemma trimSpace_ne_empty {s : String} {c : Char} (hc : isSpace c = false) (h : c ∈ s.toList) :
    String.ofList (trimSpace s.toList) ≠ "" := by
  have hleft := mem_trimLeft hc h
  have hmem : c ∈ trimSpace s.toList :=
    List.mem_reverse.2 (mem_trimLeft hc (List.mem_reverse.2 hleft))
  intro hempty
  rw [String.ofList_eq_empty_iff.1 hempty] at hmem
  cases hmem

section Release

variable [Runes] {cfg : Config} {w : World} {uid : UID} {raw : Raw} {sender actor name : String}
  (R : Reader cfg.pipeline)

/-- The call that the page chooses for a letter that has a sender. -/
lemma handleHeldRelease_eq {t : Table} {held : Folder} (hraw : held.find uid = some raw)
    (hreads : cfg.pipeline.headerFrom raw.data = some sender) :
    handleHeldRelease R t held uid actor name =
      match t.resolve sender with
      | none =>
          if String.ofList (trimSpace name.toList) = "" then .error (.nameRequired raw.uid)
          else .ok (.release (.stranger actor (String.ofList (trimSpace name.toList))) uid)
      | some c =>
          if c.active = true then .ok (.release .active uid)
          else .ok (.release (.deactivated actor c.id) uid) := by
  rw [R.headerFrom_eq] at hreads
  obtain ⟨header, hheader, hmap⟩ := Option.bind_eq_some_iff.1 hreads
  obtain ⟨⟨name', addr⟩, hsender, rfl⟩ := Option.map_eq_some_iff.1 hmap
  unfold handleHeldRelease findHeld
  simp only [hraw, classify, hheader, hsender]
  cases t.resolve addr with
  | none =>
      simp only [releaseFor, bind, Except.bind]
      split_ifs
      · rfl
      · rfl
  | some c =>
      by_cases hactive : c.active = true
      · simp only [hactive, not_true, if_false, if_true]
        rfl
      · simp only [hactive]
        rfl

/-- **A held letter has a way out exactly where a known sender is known by its current address.**
Where a letter in Held has a sender, there is room in the contact list, and a stranger is given a
name, the release that the page chooses comes to return nil if and only if a sender that resolves to
an active contact against the full table resolves to one by its current address too. -/
theorem way_out_iff (hfree : w.pass = none) (hraw : w.held.find uid = some raw)
    (hreads : cfg.pipeline.headerFrom raw.data = some sender) (hat : '@' ∈ sender.toList)
    (hroom : w.table.contacts.length < cfg.maxContacts)
    (hname : w.table.resolve sender = none → String.ofList (trimSpace name.toList) ≠ "") :
    (∃ job, handleHeldRelease R w.table w.held uid actor name = .ok job ∧ Succeeds cfg w job) ↔
      ∀ c, w.table.resolve sender = some c → c.active = true →
        (w.table.resolveActive sender).isSome := by
  have hnonempty := trimSpace_ne_empty (c := '@') (by decide) hat
  rw [handleHeldRelease_eq R hraw hreads]
  cases hres : w.table.resolve sender with
  | none =>
      rw [if_neg (hname hres)]
      exact iff_of_true
        ⟨_, rfl, succeeds_of_accepts hfree hraw hreads ⟨hres, hnonempty, hroom⟩⟩ nofun
  | some c =>
      by_cases hactive : c.active = true
      · simp only [if_pos hactive, Except.ok.injEq]
        constructor
        · rintro ⟨job, rfl, hsucceeds⟩ _ _ _
          by_contra hinactive
          exact not_succeeds_active hraw hreads hinactive hsucceeds
        · intro hcurrent
          exact ⟨_, rfl, succeeds_of_accepts hfree hraw hreads (hcurrent c rfl hactive)⟩
      · simp only [if_neg hactive, Except.ok.injEq]
        have hsys : ¬ IsSystem sender := by
          intro hsys
          rw [Table.resolve, Table.resolveLocked_of_isSystem hsys] at hres
          obtain rfl := Option.some.inj hres
          exact hactive rfl
        have hne := w.table.no_sys c (Table.mem_of_resolveLocked hsys hres).1
        refine iff_of_true
          ⟨_, rfl, succeeds_of_accepts hfree hraw hreads ⟨by rw [hres]; rfl, hne⟩⟩ ?_
        rintro d heq hopen
        obtain rfl := Option.some.inj heq
        exact absurd hopen hactive

/-- Every letter in Held that has a sender can be released. -/
def NoDeadEnds (cfg : Config) (R : Reader cfg.pipeline) : Prop :=
  ∀ (w₀ w : World) (acts : List Act) (uid : UID) (raw : Raw) (sender actor name : String),
    w₀.AtRest → Run.run (step cfg) w₀ acts = some w → w.pass = none →
    w.held.find uid = some raw → cfg.pipeline.headerFrom raw.data = some sender →
    '@' ∈ sender.toList → w.table.contacts.length < cfg.maxContacts →
    (w.table.resolve sender = none → String.ofList (trimSpace name.toList) ≠ "") →
    ∃ job, handleHeldRelease R w.table w.held uid actor name = .ok job ∧ Succeeds cfg w job

end Release

end Chaskiwasi.Review

namespace Chaskiwasi.Sample

/-- The sample parser, with no name and no date. -/
def reader : Review.Reader config.pipeline where
  readMessage := fun data => some ⟨"", none, some ("", readFrom data)⟩
  headerFrom_eq := fun _ => rfl

/-- Rosa has moved. -/
def onlyMovedRosaActive : Table where
  version := 1
  contacts := [{ movedRosa with active := true }]
  sorted := List.pairwise_singleton _ _
  no_sys := by decide

end Chaskiwasi.Sample

namespace Chaskiwasi.Review

/-- A letter from Rosa's present address has a way out. -/
theorem present_address_has_way_out :
    ∃ job, @handleHeldRelease Sample.runes _ Sample.reader Sample.onlyMovedRosaActive
      (Sample.holding Sample.onlyMovedRosaActive "rosa@x").held 1 "ana" "" = .ok job ∧
      @Succeeds Sample.runes Sample.config (Sample.holding Sample.onlyMovedRosaActive "rosa@x")
        job := by
  have hfrom : Sample.readFrom (Sample.delivered 1 "rosa@x").data = "rosa@x" := by decide +kernel
  have hresolve : @Table.resolve Sample.runes Sample.onlyMovedRosaActive "rosa@x" =
      some { Sample.movedRosa with active := true } := by decide +kernel
  have hcurrent : (@Table.resolveActive Sample.runes Sample.onlyMovedRosaActive
      "rosa@x").isSome = true := by decide +kernel
  refine (@way_out_iff Sample.runes Sample.config
    (Sample.holding Sample.onlyMovedRosaActive "rosa@x") 1 (Sample.delivered 1 "rosa@x") "rosa@x"
    "ana" "" Sample.reader rfl rfl (congrArg some hfrom) (by decide) (by decide) ?_).2
    fun _ _ _ => hcurrent
  intro hnone
  cases hresolve.symm.trans hnone

/-- A letter from the address that Rosa had before has none. -/
theorem past_address_dead_end : ¬ @NoDeadEnds Sample.runes Sample.config Sample.reader := by
  intro hclaim
  have hfrom : Sample.readFrom (Sample.delivered 1 "rosa@old").data = "rosa@old" := by
    decide +kernel
  have hreads : Sample.config.pipeline.headerFrom (Sample.delivered 1 "rosa@old").data =
      some "rosa@old" := congrArg some hfrom
  have hresolve : @Table.resolve Sample.runes Sample.onlyMovedRosaActive "rosa@old" =
      some { Sample.movedRosa with active := true } := by decide +kernel
  have hcurrent : ¬ (@Table.resolveActive Sample.runes Sample.onlyMovedRosaActive
      "rosa@old").isSome = true := by decide +kernel
  obtain ⟨job, hjob, hsucceeds⟩ := hclaim _ (Sample.holding Sample.onlyMovedRosaActive "rosa@old")
    _ 1 _ "rosa@old" "ana" "" (Sample.world_atRest _) (Sample.run_holding _ _) rfl rfl hreads
    (by decide) (by decide) fun hnone => by cases hresolve.symm.trans hnone
  have heq := @handleHeldRelease_eq Sample.runes Sample.config 1 _ _ "ana" "" Sample.reader
    Sample.onlyMovedRosaActive (Sample.holding Sample.onlyMovedRosaActive "rosa@old").held rfl
    hreads
  rw [hresolve] at heq
  obtain rfl : .release .active 1 = job := Except.ok.inj (heq.symm.trans hjob)
  exact @not_succeeds_active (Sample.holding Sample.onlyMovedRosaActive "rosa@old") 1 _ "rosa@old"
    Sample.runes Sample.config rfl hreads hcurrent hsucceeds

end Chaskiwasi.Review
