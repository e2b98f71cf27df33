import Chaskiwasi.Ayllu.Told
import Chaskiwasi.Server.Idle

/-!
# What becomes of a released letter

A release moves a letter from Held to INBOX and then, without letting go of the mutex, runs the
arrival path, which is to ring for it.  The arrival path knows nothing of the release.  It judges
what lies above the high-water mark, and it judges by the contacts' current addresses; the release
asked the full table.  So a letter from an address that its contact had in the past is released and
held again in one call, which returns nil.

The state of a release that is under way (`Stage`) is followed from its call to its return, with
mail arriving and syncs going on beside it.
-/

namespace Chaskiwasi

/-! ## Who is active after the change -/

section Changed

variable [Runes] {t t' : Table} {addr sender actor contactID name : String} {maxContacts : ℕ}
  {io : MutateIO} {m : Mutation} {ev : Event} {r : Row} {drawn : List (Option String)}

lemma Table.resolveActive_isSome_iff :
    (t.resolveActive addr).isSome ↔ IsSystem addr ∨ ∃ c ∈ t.contacts, c.active = true ∧
      normalizeAddress c.address = normalizeAddress addr := by
  rw [resolveActive, resolveLocked]
  by_cases hsys : IsSystem addr
  · simp [hsys]
  · simp [hsys, List.find?_isSome, Contact.answers]

/-- The row an add writes is active, under the address that was asked for. -/
lemma applyAdd_spec (h : applyAdd maxContacts drawn t m = .ok r) :
    r.contact.active = true ∧
      normalizeAddress r.contact.address = normalizeAddress m.newAddress := by
  obtain ⟨-, ⟨old, -, hcur, hr⟩ | ⟨old, -, -, hr⟩ | ⟨id, -, -, -, hr⟩⟩ := applyAdd_cases h
  · rw [hr]
    exact ⟨rfl, hcur⟩
  · rw [hr]
    exact ⟨rfl, rfl⟩
  · rw [hr]
    exact ⟨rfl, rfl⟩

/-- Under its current address, the sender is an active contact's once the release has changed the
list. -/
def Release.Reopens (rel : Release) (t : Table) (sender : String) : Prop :=
  match rel with
  | .stranger .. => True
  | .deactivated _ contactID =>
      ∃ c ∈ t.contacts, normalizeAddress c.address = normalizeAddress sender ∧
        (c.active = true ∨ c.id = contactID)
  | .active => True

instance (rel : Release) (t : Table) (sender : String) : Decidable (rel.Reopens t sender) :=
  match rel with
  | .stranger .. => isTrue trivial
  | .deactivated _ contactID =>
      inferInstanceAs (Decidable (∃ c ∈ t.contacts,
        normalizeAddress c.address = normalizeAddress sender ∧
          (c.active = true ∨ c.id = contactID)))
  | .active => isTrue trivial

lemma resolveActive_of_stranger
    (h : mutate maxContacts io actor { action := .add, name := name, address := sender } t =
      (.ok ev, t')) : (t'.resolveActive sender).isSome := by
  obtain ⟨r, hr, rfl, -⟩ := mutate_eq_ok h
  obtain ⟨hactive, haddr⟩ := applyAdd_spec hr
  refine Table.resolveActive_isSome_iff.2
    (Or.inr ⟨r.contact, Table.mem_commit.2 (Or.inl rfl), hactive, ?_⟩)
  rw [haddr, Mutation.newAddress, normalizeAddress_trim]

lemma resolveActive_of_deactivated
    (hres : (t.resolve sender).map Contact.id = some contactID)
    (h : mutate maxContacts io actor { action := .reactivate, contactID := contactID } t =
      (.ok ev, t')) :
    (t'.resolveActive sender).isSome ↔ (Release.deactivated actor contactID).Reopens t sender := by
  obtain ⟨r, hr, rfl, -, -, haims, -⟩ := mutate_eq_ok h
  have hsys : ¬ IsSystem sender := by
    intro hsys
    rw [Table.resolve, Table.resolveLocked_of_isSystem hsys] at hres
    obtain rfl := Option.some.inj hres
    simp [Mutation.aimsAtSystem, sysContact] at haims
  obtain ⟨old, hold, hid, hset⟩ := applyReactivate_spec hr
  have hrid : r.contact.id = old.id := by rw [hset]
  have hraddr : r.contact.address = old.address := by rw [hset]
  have hractive : r.contact.active = true := by rw [hset]
  rw [Table.resolveActive_isSome_iff, or_iff_right hsys]
  constructor
  · rintro ⟨c, hc, hactive, haddr⟩
    rcases Table.mem_commit.1 hc with rfl | ⟨hc, -⟩
    · exact ⟨old, hold, hraddr ▸ haddr, Or.inr hid⟩
    · exact ⟨c, hc, haddr, Or.inl hactive⟩
  · rintro ⟨c, hc, haddr, hopen⟩
    by_cases hcid : c.id = old.id
    · obtain rfl : c = old := t.sorted.eq_of_key_eq hc hold hcid
      exact ⟨r.contact, Table.mem_commit.2 (Or.inl rfl), hractive, hraddr ▸ haddr⟩
    · have hactive : c.active = true := hopen.resolve_right fun h => hcid (h.trans hid.symm)
      exact ⟨c, Table.mem_commit.2 (Or.inr ⟨hc, hrid ▸ hcid⟩), hactive, haddr⟩

end Changed

/-! ## What goes on beside a release -/

/-- What happens while a release runs, the contact list and INBOX's UIDVALIDITY left alone. -/
def Act.Beside : Act → Prop
  | .mutate .. | .renumber .. | .call _ => False
  | .arrive _ | .intoHeld _ | .pass .. | .request .. | .sync .. => True

instance : DecidablePred Act.Beside := fun act =>
  match act with
  | .mutate .. | .renumber .. | .call _ => isFalse id
  | .arrive _ | .intoHeld _ | .pass .. | .request .. | .sync .. => isTrue trivial

/-- A step of somebody else: mail may come, and no letter is judged. -/
structure World.Aside (v v' : World) : Prop where
  inbox : ∀ m ∈ v.inbox.msgs, m ∈ v'.inbox.msgs
  fresh : ∀ m ∈ v'.inbox.msgs, m ∈ v.inbox.msgs ∨ v.inbox.last < m.uid
  last : v.inbox.last ≤ v'.inbox.last
  held : ∀ uid raw, v.held.find uid = some raw → v'.held.find uid = some raw
  table : v'.table = v.table
  highWater : v'.highWater = v.highWater
  log : ∃ news, v'.log = news ++ v.log ∧ ∀ m contactID, .kept m contactID ∉ news

lemma Folder.find_push {f : Folder} {raw r : Raw} {uid : UID} (h : f.last < r.uid)
    (hfind : f.find uid = some raw) : (f.push r h).find uid = some raw := by
  unfold Folder.find at hfind ⊢
  unfold Folder.push
  rw [List.find?_append, hfind]
  rfl

lemma World.Aside.of_eq {v v' : World} (hinbox : v'.inbox = v.inbox) (hheld : v'.held = v.held)
    (htable : v'.table = v.table) (hmark : v'.highWater = v.highWater)
    (hlog : ∃ news, v'.log = news ++ v.log ∧ ∀ m contactID, .kept m contactID ∉ news) :
    v.Aside v' where
  inbox := by rw [hinbox]; exact fun _ hm => hm
  fresh := by rw [hinbox]; exact fun _ hm => Or.inl hm
  last := by rw [hinbox]
  held := by rw [hheld]; exact fun _ _ h => h
  table := htable
  highWater := hmark
  log := hlog

variable [Runes] {cfg : Config} {w v v' : World} {since : List Note} {rel : Release} {uid : UID}
  {raw m : Raw} {sender : String}

lemma step_aside {act : Act} (hbeside : act.Beside) (h : step cfg v act = some v') :
    v.Aside v' ∨ ∃ reply fresh io, act = .pass reply fresh io := by
  have quiet : ∃ news, v.log = news ++ v.log ∧ ∀ m contactID, .kept m contactID ∉ news :=
    ⟨[], rfl, nofun⟩
  cases worldStep_cases h with
  | passed reply fresh io => exact Or.inr ⟨reply, fresh, io, rfl⟩
  | mutated | renumbered | called => exact hbeside.elim
  | arrived raw hfresh =>
      left
      exact
        { inbox := fun m hm => (Folder.mem_push (h := hfresh)).2 (Or.inl hm)
          fresh := by
            intro m hm
            rcases (Folder.mem_push (h := hfresh)).1 hm with hm | rfl
            · exact Or.inl hm
            · exact Or.inr hfresh
          last := le_of_lt hfresh
          held := fun _ _ h => h
          table := rfl
          highWater := rfl
          log := ⟨[.arrived raw], rfl, by simp⟩ }
  | intoHeld raw hfresh =>
      left
      exact
        { inbox := fun _ hm => hm
          fresh := fun _ hm => Or.inl hm
          last := le_refl _
          held := fun _ _ hfind => Folder.find_push hfresh hfind
          table := rfl
          highWater := rfl
          log := quiet }
  | requested k cursor hnone => exact Or.inl (.of_eq rfl rfl rfl rfl quiet)
  | synced k reply skeleton pc w' hpc hsync =>
      left
      have hsame := hsync.sameMail
      refine .of_eq hsame.inbox hsame.held hsame.table hsame.highWater ?_
      cases hsync with
      | responded uidValidity asm sources more => exact ⟨[_], rfl, by simp⟩
      | _ => exact quiet

/-! ## How far the release has come -/

/-- The mark has passed the message, which came through, or did not, as it should. -/
def World.Past (v : World) (since : List Note) (m : Raw) (P : Prop) : Prop :=
  m.uid ≤ v.highWater ∧
    ((m ∈ v.inbox.msgs ∧ ∃ contactID, .kept m contactID ∈ since) ↔ P)

/-- The message has yet to be judged. -/
def World.Ahead (v : World) (m : Raw) : Prop := v.highWater < m.uid ∧ m ∈ v.inbox.msgs

/-- The rest of a page of the arrival path. -/
structure World.Page (v : World) (rest : List Raw) : Prop where
  sorted : Keyed.Ascending Raw.uid rest
  mem : ∀ x ∈ rest, x ∈ v.inbox.msgs ∧ v.highWater < x.uid

/-- Where the arrival path stands with the message. -/
def World.Judges (cfg : Config) (v : World) (since : List Note) (m : Raw) (P : Prop) : Pass → Prop
  | .fetch => v.Past since m P ∨ v.Ahead m
  | .file rest full => v.Page rest ∧
      (v.Past since m P ∨
        v.Ahead m ∧ (m ∈ rest ∨ full = true ∧ ∀ x ∈ rest, x.uid < m.uid))
  | .hold raw rest full => v.Page (raw :: rest) ∧ activeSender cfg.pipeline v.table raw = none ∧
      (v.Past since m P ∨
        v.Ahead m ∧ (m ∈ raw :: rest ∨ full = true ∧ ∀ x ∈ raw :: rest, x.uid < m.uid))
  | _ => False

/-- The message was released, and its sender resolves as the release made it. -/
structure World.Freed (cfg : Config) (w v : World) (rel : Release) (raw : Raw)
    (since : List Note) (m : Raw) (sender : String) : Prop where
  released : .released m ∈ since
  data : m.data = raw.data
  reads : cfg.pipeline.headerFrom raw.data = some sender
  active : (v.table.resolveActive sender).isSome ↔ rel.Reopens w.table sender
  mark : w.highWater ≤ v.highWater
  spent : m.uid ≤ v.inbox.last

/-- What the letter comes to: it stays, where its UID is above the mark and its sender is active. -/
def World.Stays (w : World) (rel : Release) (m : Raw) (sender : String) : Prop :=
  w.highWater < m.uid ∧ rel.Reopens w.table sender

/-- The letter is in Held, the mark is where it was, and no letter was judged. -/
structure World.Held (w v : World) (since : List Note) (uid : UID) (raw : Raw) : Prop where
  find : v.held.find uid = some raw
  highWater : v.highWater = w.highWater
  unjudged : ∀ m contactID, .kept m contactID ∉ since

/-- Where a release that was called in `w` stands. -/
def Stage (cfg : Config) (w v : World) (since : List Note) (rel : Release) (uid : UID)
    (raw : Raw) : Pass → Prop
  | .findHeld rel' uid' =>
      w.Held v since uid raw ∧ v.table = w.table ∧ rel' = rel ∧ uid' = uid
  | .check rel' raw' =>
      w.Held v since uid raw ∧ v.table = w.table ∧ rel' = rel ∧ raw' = raw
  | .change rel' raw' sender =>
      w.Held v since uid raw ∧ v.table = w.table ∧ rel' = rel ∧ raw' = raw ∧
        cfg.pipeline.headerFrom raw.data = some sender ∧ rel ≠ .active ∧
        ∀ actor contactID, rel = .deactivated actor contactID →
          (w.table.resolve sender).map Contact.id = some contactID
  | .unhold raw' =>
      w.Held v since uid raw ∧ raw' = raw ∧
        ∃ sender, cfg.pipeline.headerFrom raw.data = some sender ∧
          ((v.table.resolveActive sender).isSome ↔ rel.Reopens w.table sender)
  | pc => ∃ m sender, w.Freed cfg v rel raw since m sender ∧
      v.Judges cfg since m (w.Stays rel m sender) pc

variable {pc : Pass} {P : Prop} {news : List Note} {rest : List Raw}

/-! ### Somebody else's step -/

omit [Runes] in
/-- Once past, the letter is as it was while nothing judges it and nothing moves it. -/
lemma World.Past.carry (h : v.Past since m P) (hmark : v.highWater ≤ v'.highWater)
    (hinbox : m ∈ v'.inbox.msgs ↔ m ∈ v.inbox.msgs)
    (hnews : ∀ contactID, .kept m contactID ∉ news) : v'.Past (news ++ since) m P := by
  have hkept : (∃ contactID, .kept m contactID ∈ news ++ since) ↔
      ∃ contactID, .kept m contactID ∈ since := by
    refine exists_congr fun contactID => ?_
    rw [List.mem_append, or_iff_right (hnews contactID)]
  refine ⟨le_trans h.1 hmark, ?_⟩
  rw [hinbox, hkept]
  exact h.2

omit [Runes] in
lemma World.Past.aside (h : v.Past since m P) (haside : v.Aside v') (hspent : m.uid ≤ v.inbox.last)
    (hnews : ∀ contactID, .kept m contactID ∉ news) : v'.Past (news ++ since) m P := by
  have hmem : m ∈ v'.inbox.msgs ↔ m ∈ v.inbox.msgs :=
    ⟨fun hm => (haside.fresh m hm).resolve_right (not_lt.2 hspent), haside.inbox m⟩
  exact h.carry (le_of_eq haside.highWater.symm) hmem hnews

omit [Runes] in
lemma World.Ahead.aside (h : v.Ahead m) (haside : v.Aside v') : v'.Ahead m := by
  refine ⟨?_, haside.inbox m h.2⟩
  rw [haside.highWater]
  exact h.1

omit [Runes] in
lemma World.Page.aside (h : v.Page rest) (haside : v.Aside v') : v'.Page rest where
  sorted := h.sorted
  mem := by
    intro x hx
    rw [haside.highWater]
    exact ⟨haside.inbox x (h.mem x hx).1, (h.mem x hx).2⟩

omit [Runes] in
lemma World.Held.aside (h : w.Held v since uid raw) (haside : v.Aside v')
    (hnews : ∀ m contactID, .kept m contactID ∉ news) : w.Held v' (news ++ since) uid raw where
  find := haside.held uid raw h.find
  highWater := haside.highWater.trans h.highWater
  unjudged := by
    intro m contactID hmem
    rcases List.mem_append.1 hmem with hmem | hmem
    · exact hnews m contactID hmem
    · exact h.unjudged m contactID hmem

lemma World.Freed.carry (h : w.Freed cfg v rel raw since m sender) (htable : v'.table = v.table)
    (hmark : v.highWater ≤ v'.highWater) (hlast : v.inbox.last ≤ v'.inbox.last) :
    w.Freed cfg v' rel raw (news ++ since) m sender where
  released := List.mem_append_right _ h.released
  data := h.data
  reads := h.reads
  active := by
    rw [htable]
    exact h.active
  mark := le_trans h.mark hmark
  spent := le_trans h.spent hlast

lemma World.Judges.aside (h : v.Judges cfg since m P pc) (haside : v.Aside v')
    (hspent : m.uid ≤ v.inbox.last) (hnews : ∀ contactID, .kept m contactID ∉ news) :
    v'.Judges cfg (news ++ since) m P pc := by
  cases pc with
  | fetch =>
      exact h.imp (fun hpast => hpast.aside haside hspent hnews) fun hahead => hahead.aside haside
  | file rest full =>
      exact ⟨h.1.aside haside, h.2.imp (fun hpast => hpast.aside haside hspent hnews)
        fun hahead => ⟨hahead.1.aside haside, hahead.2⟩⟩
  | hold raw rest full =>
      refine ⟨h.1.aside haside, ?_, h.2.2.imp (fun hpast => hpast.aside haside hspent hnews)
        fun hahead => ⟨hahead.1.aside haside, hahead.2⟩⟩
      rw [haside.table]
      exact h.2.1
  | _ => exact h.elim

lemma Stage.aside (h : Stage cfg w v since rel uid raw pc) (haside : v.Aside v')
    (hnews : ∀ m contactID, .kept m contactID ∉ news) :
    Stage cfg w v' (news ++ since) rel uid raw pc := by
  have judged : (∃ m sender, w.Freed cfg v rel raw since m sender ∧
      v.Judges cfg since m (w.Stays rel m sender) pc) →
      ∃ m sender, w.Freed cfg v' rel raw (news ++ since) m sender ∧
        v'.Judges cfg (news ++ since) m (w.Stays rel m sender) pc := by
    rintro ⟨m, sender, hfreed, hjudges⟩
    exact ⟨m, sender, hfreed.carry haside.table (le_of_eq haside.highWater.symm) haside.last,
      hjudges.aside haside hfreed.spent (hnews m)⟩
  cases pc with
  | findHeld rel' uid' =>
      exact ⟨h.1.aside haside hnews, haside.table.trans h.2.1, h.2.2⟩
  | check rel' raw' =>
      exact ⟨h.1.aside haside hnews, haside.table.trans h.2.1, h.2.2⟩
  | change rel' raw' sender =>
      exact ⟨h.1.aside haside hnews, haside.table.trans h.2.1, h.2.2⟩
  | unhold raw' =>
      refine ⟨h.1.aside haside hnews, h.2.1, ?_⟩
      rw [haside.table]
      exact h.2.2
  | _ => exact judged h

/-! ### The release's own step -/

omit [Runes] in
/-- A letter that is in Held moves. -/
lemma World.moveIn_of_find {fresh : UID} (hfind : v.held.find uid = some raw)
    (h : v.moveIn uid .ok fresh = some v') :
    ∃ (hfresh : v.inbox.last < fresh), v' =
      { v with
        inbox := v.inbox.push { raw with uid := fresh } hfresh
        held := v.held.remove uid
        log := .released { raw with uid := fresh } :: v.log } := by
  unfold World.moveIn at h
  simp only [hfind, reduceCtorEq, if_false] at h
  split_ifs at h with hfresh
  exact ⟨hfresh, (Option.some.inj h).symm⟩

omit [Runes] in
/-- A letter that is in INBOX moves out. -/
lemma World.moveOut_of_mem {fresh : UID} {note : Raw → Note} (hmem : raw ∈ v.inbox.msgs)
    (h : v.moveOut raw.uid note .ok fresh = some v') :
    ∃ held, v' =
      { v with inbox := v.inbox.remove raw.uid, held := held, log := note raw :: v.log } := by
  rcases World.moveOut_cases h with ⟨-, hnone⟩ | ⟨held, -, hne⟩ | ⟨found, hfound, huid, held, rfl⟩
  · exact absurd rfl (hnone rfl raw hmem)
  · exact absurd rfl hne
  · obtain rfl := Folder.eq_of_uid_eq hfound hmem huid
    exact ⟨held, rfl⟩

/-- The caller of a release. -/
def Release.caller (rel : Release) (uid : UID) : Caller := .job (.release rel uid)

/-- What a step of the release comes to: it goes on, it fails, or it returns nil with the letter
judged. -/
inductive Goes (cfg : Config) (w v v' : World) (since : List Note) (rel : Release) (uid : UID)
    (raw : Raw) : Prop
  | on (pc : Pass) (news : List Note) (hpass : v'.pass = some ⟨rel.caller uid, pc⟩)
      (hlog : v'.log = news ++ v.log) (hstage : Stage cfg w v' (news ++ since) rel uid raw pc)
  | failed (hpass : v'.pass = none)
      (hlog : v'.log.head? = some (.returned (.release rel uid) false))
  | returned (m : Raw) (sender : String) (hpass : v'.pass = none)
      (hlog : v'.log = .returned (.release rel uid) true :: v.log) (hinbox : v'.inbox = v.inbox)
      (hfreed : w.Freed cfg v rel raw since m sender)
      (hpast : v.Past since m (w.Stays rel m sender))

lemma goes_failed {v₀ : World} :
    Goes cfg w v (v₀.finish (rel.caller uid) false) since rel uid raw :=
  .failed (World.finish_pass ..) rfl

lemma findHeld_goes {rel' : Release} {uid' : UID}
    (h : Stage cfg w v since rel uid raw (.findHeld rel' uid'))
    (hstep : PassStep cfg v (rel.caller uid) (.findHeld rel' uid') v') :
    Goes cfg w v v' since rel uid raw := by
  obtain ⟨hheld, htable, rfl, rfl⟩ := h
  cases hstep with
  | aborted => exact goes_failed
  | found rel uid found hfind =>
      obtain rfl := Option.some.inj (hheld.find.symm.trans hfind)
      exact .on _ [] rfl rfl ⟨⟨hheld.find, hheld.highWater, hheld.unjudged⟩, htable, rfl, rfl⟩

lemma check_goes {rel' : Release} {raw' : Raw} {reply : Reply} {fresh : UID} {io : MutateIO}
    (h : Stage cfg w v since rel uid raw (.check rel' raw'))
    (hstep : passStep cfg v (rel.caller uid) (.check rel' raw') reply fresh io = some v') :
    Goes cfg w v v' since rel uid raw := by
  obtain ⟨hheld, htable, rfl, rfl⟩ := h
  have held : ∀ {pc : Pass}, w.Held (v.goto (rel'.caller uid) pc) ([] ++ since) uid raw' :=
    ⟨hheld.find, hheld.highWater, hheld.unjudged⟩
  simp only [passStep] at hstep
  cases hfrom : cfg.pipeline.headerFrom raw'.data with
  | none =>
      simp only [hfrom] at hstep
      obtain rfl := Option.some.inj hstep
      exact goes_failed
  | some sender =>
      simp only [hfrom] at hstep
      cases rel' with
      | stranger actor name =>
          obtain rfl := Option.some.inj hstep
          exact .on _ [] rfl rfl ⟨held, htable, rfl, rfl, hfrom, by simp, by simp⟩
      | deactivated actor contactID =>
          simp only at hstep
          split_ifs at hstep with hid
          · obtain rfl := Option.some.inj hstep
            refine .on _ [] rfl rfl ⟨held, htable, rfl, rfl, hfrom, by simp, ?_⟩
            rintro actor' contactID' heq
            obtain ⟨-, rfl⟩ := Release.deactivated.inj heq
            rw [← htable]
            exact hid
          · obtain rfl := Option.some.inj hstep
            exact goes_failed
      | active =>
          simp only at hstep
          split_ifs at hstep with hactive
          · obtain rfl := Option.some.inj hstep
            exact .on _ [] rfl rfl ⟨held, rfl, sender, hfrom, iff_of_true hactive trivial⟩
          · obtain rfl := Option.some.inj hstep
            exact goes_failed

lemma change_goes {rel' : Release} {raw' : Raw}
    (h : Stage cfg w v since rel uid raw (.change rel' raw' sender))
    (hstep : PassStep cfg v (rel.caller uid) (.change rel' raw' sender) v') :
    Goes cfg w v v' since rel uid raw := by
  obtain ⟨hheld, htable, rfl, rfl, hfrom, hne, hres⟩ := h
  cases hstep with
  | aborted => exact goes_failed
  | changeFailed => exact goes_failed
  | unchanged _ _ _ hm =>
      cases rel' with
      | active => exact absurd rfl hne
      | stranger | deactivated => cases hm
  | changed _ _ _ actor m io event hm hok =>
      have hmutate : mutate cfg.maxContacts io actor m v.table =
          (.ok event, (mutate cfg.maxContacts io actor m v.table).2) := Prod.ext hok rfl
      refine .on _ [] rfl rfl
        ⟨⟨hheld.find, hheld.highWater, hheld.unjudged⟩, rfl, sender, hfrom, ?_⟩
      cases rel' with
      | active => exact absurd rfl hne
      | stranger actor' name =>
          obtain ⟨rfl, rfl⟩ := Prod.mk.inj (Option.some.inj hm)
          exact iff_of_true (resolveActive_of_stranger hmutate) trivial
      | deactivated actor' contactID =>
          obtain ⟨rfl, rfl⟩ := Prod.mk.inj (Option.some.inj hm)
          have hid := hres actor' contactID rfl
          rw [← htable] at hid ⊢
          exact resolveActive_of_deactivated hid hmutate

lemma unhold_goes {raw' : Raw} (h : Stage cfg w v since rel uid raw (.unhold raw'))
    (hstep : PassStep cfg v (rel.caller uid) (.unhold raw') v') :
    Goes cfg w v v' since rel uid raw := by
  obtain ⟨hheld, rfl, sender, hfrom, hactive⟩ := h
  cases hstep with
  | aborted => exact goes_failed
  | unholdFailed => exact goes_failed
  | unheld _ fresh v₁ hv =>
      rw [(Folder.find_eq_some hheld.find).2] at hv
      obtain ⟨hfresh, rfl⟩ := World.moveIn_of_find hheld.find hv
      have hunjudged : ∀ m contactID,
          .kept m contactID ∉ [.released { raw' with uid := fresh }] ++ since := by
        intro m contactID hmem
        rcases List.mem_append.1 hmem with hmem | hmem
        · cases List.mem_singleton.1 hmem
        · exact hheld.unjudged m contactID hmem
      refine .on _ [.released { raw' with uid := fresh }] rfl rfl
        ⟨{ raw' with uid := fresh }, sender, ?_, ?_⟩
      · exact
          { released := List.mem_append_left _ (List.mem_singleton_self _)
            data := rfl
            reads := hfrom
            active := hactive
            mark := le_of_eq hheld.highWater.symm
            spent := le_refl _ }
      · rcases le_or_gt fresh v.highWater with hmark | hmark
        · -- The mark is above the letter, which the arrival path will not see.
          refine Or.inl ⟨hmark, iff_of_false ?_ ?_⟩
          · rintro ⟨-, contactID, hkept⟩
            exact hunjudged _ contactID hkept
          · rintro ⟨habove, -⟩
            rw [← hheld.highWater] at habove
            exact absurd hmark (not_le.2 habove)
        · exact Or.inr ⟨hmark, (Folder.mem_push (h := hfresh)).2 (Or.inr rfl)⟩

/-! ### The arrival path of the release -/

omit [Runes] in
/-- The page goes on behind a message, once the mark is there. -/
lemma World.Page.tail {x : Raw} (h : v.Page (x :: rest))
    (hmark : v'.highWater = max v.highWater x.uid)
    (hinbox : ∀ y, y ∈ v.inbox.msgs → y.uid ≠ x.uid → y ∈ v'.inbox.msgs) : v'.Page rest := by
  obtain ⟨hbefore, hsorted⟩ := List.pairwise_cons.1 h.sorted
  refine ⟨hsorted, fun y hy => ?_⟩
  obtain ⟨hmem, habove⟩ := h.mem y (List.mem_cons_of_mem _ hy)
  refine ⟨hinbox y hmem (ne_of_gt (hbefore y hy)), ?_⟩
  rw [hmark]
  exact max_lt habove (hbefore y hy)

omit [Runes] in
/-- A letter that is yet to be judged, and that is not the next one, is behind it. -/
lemma World.Page.lt_of_ahead {x : Raw} {full : Bool} (h : v.Page (x :: rest)) (hne : m ≠ x)
    (hahead : m ∈ x :: rest ∨ full = true ∧ ∀ y ∈ x :: rest, y.uid < m.uid) :
    x.uid < m.uid ∧ (m ∈ rest ∨ full = true ∧ ∀ y ∈ rest, y.uid < m.uid) := by
  rcases hahead with hmem | ⟨hfull, hbeyond⟩
  · have htail := (List.mem_cons.1 hmem).resolve_left hne
    exact ⟨(List.pairwise_cons.1 h.sorted).1 m htail, Or.inl htail⟩
  · exact ⟨hbeyond x (List.mem_cons_self ..),
      Or.inr ⟨hfull, fun y hy => hbeyond y (List.mem_cons_of_mem _ hy)⟩⟩

omit [Runes] in
lemma World.Ahead.behind {x : Raw} (h : v.Ahead m) (hlt : x.uid < m.uid)
    (hmark : v'.highWater = max v.highWater x.uid) (hmem : m ∈ v'.inbox.msgs) : v'.Ahead m := by
  refine ⟨?_, hmem⟩
  rw [hmark]
  exact max_lt h.1 hlt

omit [Runes] in
/-- What the page holds is above the mark, and a letter that is past is not. -/
lemma World.Page.lt_of_past {x : Raw} (h : v.Page (x :: rest)) (hpast : v.Past since m P) :
    m.uid < x.uid :=
  lt_of_le_of_lt hpast.1 (h.mem x (List.mem_cons_self ..)).2

/-- The arrival path keeps the next message. -/
lemma World.Judges.kept {x : Raw} {full : Bool} {contact : Contact}
    (h : v.Judges cfg since m (w.Stays rel m sender) (.file (x :: rest) full))
    (hfreed : w.Freed cfg v rel raw since m sender)
    (hsender : activeSender cfg.pipeline v.table x = some contact)
    (hmark : v'.highWater = max v.highWater x.uid) (hinbox : v'.inbox = v.inbox) :
    v'.Judges cfg ([.kept x contact.id] ++ since) m (w.Stays rel m sender) (.file rest full) := by
  obtain ⟨hpage, hjudges⟩ := h
  have hle : v.highWater ≤ v'.highWater := by
    rw [hmark]
    exact le_max_left _ _
  have hsame : m ∈ v'.inbox.msgs ↔ m ∈ v.inbox.msgs := by rw [hinbox]
  refine ⟨hpage.tail hmark fun y hy _ => hinbox ▸ hy, ?_⟩
  rcases hjudges with hpast | ⟨hahead, hrest⟩
  · have hne : m ≠ x := by
      rintro rfl
      exact lt_irrefl _ (hpage.lt_of_past hpast)
    exact Or.inl (hpast.carry hle hsame (by simp [hne]))
  · by_cases hne : m = x
    · subst hne
      have hactive : (v.table.resolveActive sender).isSome := by
        rw [activeSender, hfreed.data, hfreed.reads, Option.bind_some] at hsender
        exact Option.isSome_iff_exists.2 ⟨contact, hsender⟩
      have hstays : w.Stays rel m sender :=
        ⟨lt_of_le_of_lt hfreed.mark hahead.1, hfreed.active.1 hactive⟩
      refine Or.inl ⟨?_, iff_of_true ⟨hsame.2 hahead.2, contact.id, List.mem_cons_self ..⟩ hstays⟩
      rw [hmark]
      exact le_max_right _ _
    · obtain ⟨hlt, hrest'⟩ := hpage.lt_of_ahead hne hrest
      exact Or.inr ⟨hahead.behind hlt hmark (hsame.2 hahead.2), hrest'⟩

/-- The arrival path moves the next message to Held. -/
lemma World.Judges.held {x : Raw} {full : Bool}
    (h : v.Judges cfg since m (w.Stays rel m sender) (.hold x rest full))
    (hfreed : w.Freed cfg v rel raw since m sender)
    (hmark : v'.highWater = max v.highWater x.uid) (hinbox : v'.inbox = v.inbox.remove x.uid) :
    v'.Judges cfg ([.held x] ++ since) m (w.Stays rel m sender) (.file rest full) := by
  obtain ⟨hpage, hsender, hjudges⟩ := h
  have hle : v.highWater ≤ v'.highWater := by
    rw [hmark]
    exact le_max_left _ _
  have hremoved : ∀ y, y ∈ v'.inbox.msgs ↔ y ∈ v.inbox.msgs ∧ y.uid ≠ x.uid := by
    intro y
    rw [hinbox, Folder.mem_remove]
  have hnews : ∀ contactID, Note.kept m contactID ∉ [Note.held x] := by simp
  refine ⟨hpage.tail hmark fun y hy hne => (hremoved y).2 ⟨hy, hne⟩, ?_⟩
  rcases hjudges with hpast | ⟨hahead, hrest⟩
  · have huid : m.uid ≠ x.uid := ne_of_lt (hpage.lt_of_past hpast)
    exact Or.inl (hpast.carry hle ((hremoved m).trans (and_iff_left huid)) hnews)
  · by_cases hne : m = x
    · subst hne
      have hinactive : ¬ (v.table.resolveActive sender).isSome := by
        rw [activeSender, hfreed.data, hfreed.reads, Option.bind_some] at hsender
        rw [Option.not_isSome_iff_eq_none]
        exact hsender
      refine Or.inl ⟨?_, iff_of_false ?_ ?_⟩
      · rw [hmark]
        exact le_max_right _ _
      · rintro ⟨hmem, -⟩
        exact ((hremoved m).1 hmem).2 rfl
      · exact fun hstays => hinactive (hfreed.active.2 hstays.2)
    · obtain ⟨hlt, hrest'⟩ := hpage.lt_of_ahead hne hrest
      have hmem : m ∈ v'.inbox.msgs := (hremoved m).2 ⟨hahead.2, ne_of_gt hlt⟩
      exact Or.inr ⟨hahead.behind hlt hmark hmem, hrest'⟩

lemma fetch_goes (h : Stage cfg w v since rel uid raw .fetch)
    (hstep : PassStep cfg v (rel.caller uid) .fetch v') : Goes cfg w v v' since rel uid raw := by
  obtain ⟨m, sender, hfreed, hjudges⟩ := h
  cases hstep with
  | aborted => exact goes_failed
  | fetched raws hraws =>
      subst hraws
      have hnews : ∀ contactID, Note.kept m contactID ∉ [Note.fetched] := by simp
      refine .on _ [.fetched] rfl rfl ⟨m, sender, hfreed.carry rfl (le_refl _) (le_refl _), ?_, ?_⟩
      · exact ⟨Folder.fetchAbove_sorted .., fun x hx => Folder.mem_of_mem_fetchAbove hx⟩
      · rcases hjudges with hpast | ⟨habove, hmem⟩
        · exact Or.inl (hpast.carry (le_refl _) Iff.rfl hnews)
        · refine Or.inr ⟨⟨habove, hmem⟩, ?_⟩
          rcases Folder.mem_fetchAbove_or_lt hmem habove with hpage | hbeyond
          · exact Or.inl hpage
          · rcases Folder.mem_fetchAbove_or_full hmem habove with hfull | hpage
            · exact Or.inr ⟨decide_eq_true hfull, hbeyond⟩
            · exact Or.inl hpage

lemma file_goes {full : Bool} (h : Stage cfg w v since rel uid raw (.file rest full))
    (hstep : PassStep cfg v (rel.caller uid) (.file rest full) v') :
    Goes cfg w v v' since rel uid raw := by
  obtain ⟨m, sender, hfreed, hpage, hjudges⟩ := h
  cases hstep with
  | aborted => exact goes_failed
  | refetch =>
      refine .on _ [] rfl rfl ⟨m, sender, hfreed.carry rfl (le_refl _) (le_refl _), ?_⟩
      exact hjudges.imp (fun hpast => hpast.carry (le_refl _) Iff.rfl nofun) And.left
  | filed =>
      refine .returned m sender rfl rfl rfl hfreed (hjudges.resolve_right ?_)
      rintro ⟨-, hmem | ⟨hfull, -⟩⟩
      · cases hmem
      · cases hfull
  | refused x rest full hsender =>
      refine .on _ [] rfl rfl ⟨m, sender, hfreed.carry rfl (le_refl _) (le_refl _), ?_, hsender, ?_⟩
      · exact ⟨hpage.sorted, hpage.mem⟩
      · exact hjudges.imp (fun hpast => hpast.carry (le_refl _) Iff.rfl nofun) id
  | kept x rest full contact hsender =>
      have hmark : v.highWater ≤ max v.highWater x.uid := le_max_left _ _
      exact .on _ [.kept x contact.id] rfl rfl ⟨m, sender, hfreed.carry rfl hmark (le_refl _),
        World.Judges.kept ⟨hpage, hjudges⟩ hfreed hsender rfl rfl⟩

lemma hold_goes {x : Raw} {full : Bool} (h : Stage cfg w v since rel uid raw (.hold x rest full))
    (hstep : PassStep cfg v (rel.caller uid) (.hold x rest full) v') :
    Goes cfg w v v' since rel uid raw := by
  obtain ⟨m, sender, hfreed, hjudges⟩ := h
  cases hstep with
  | aborted => exact goes_failed
  | holdFailed => exact goes_failed
  | held _ _ _ fresh v₁ hv =>
      obtain ⟨held, rfl⟩ := World.moveOut_of_mem (hjudges.1.mem x (List.mem_cons_self ..)).1 hv
      have hmark : v.highWater ≤ max v.highWater x.uid := le_max_left _ _
      exact .on _ [.held x] rfl rfl
        ⟨m, sender, hfreed.carry rfl hmark (le_refl _), hjudges.held hfreed rfl rfl⟩

/-- **The step lemma of a release.** -/
theorem stage_goes {reply : Reply} {fresh : UID} {io : MutateIO}
    (h : Stage cfg w v since rel uid raw pc)
    (hstep : passStep cfg v (rel.caller uid) pc reply fresh io = some v') :
    Goes cfg w v v' since rel uid raw := by
  have hcases := passStep_cases hstep
  cases pc with
  | findHeld rel' uid' => exact findHeld_goes h hcases
  | check rel' raw' => exact check_goes h hstep
  | change rel' raw' sender => exact change_goes h hcases
  | unhold raw' => exact unhold_goes h hcases
  | fetch => exact fetch_goes h hcases
  | file rest full => exact file_goes h hcases
  | hold x rest full => exact hold_goes h hcases
  | _ =>
      obtain ⟨m, sender, -, hjudges⟩ := h
      exact hjudges.elim

/-! ## From the call to the return -/

/-- The call that is made in `w` returns nil, and leaves `w'`. -/
def World.Returns (cfg : Config) (w : World) (job : Job) (acts : List Act) (w' : World) : Prop :=
  ∃ v pc reply fresh io, Run.run (step cfg) w (.call job :: acts) = some v ∧
    v.pass = some ⟨.job job, pc⟩ ∧ step cfg v (.pass reply fresh io) = some w' ∧
    w'.pass = none ∧ w'.log.head? = some (.returned job true)

/-- As long as the release holds the mutex, it stands where it can be told. -/
def World.Underway (cfg : Config) (w v : World) (rel : Release) (uid : UID) (raw : Raw) : Prop :=
  ∀ pc, v.pass = some ⟨rel.caller uid, pc⟩ →
    ∃ since, v.log = since ++ w.log ∧ Stage cfg w v since rel uid raw pc

/-- Nobody else's step gives the mutex to a job. -/
lemma pass_before {act : Act} {job : Job} (hbeside : act.Beside) (h : step cfg v act = some v')
    (hact : ∀ reply fresh io, act ≠ .pass reply fresh io)
    (hpass : v'.pass = some ⟨.job job, pc⟩) : v.pass = some ⟨.job job, pc⟩ := by
  cases worldStep_cases h with
  | passed reply fresh io => exact absurd rfl (hact reply fresh io)
  | mutated | renumbered | called => exact hbeside.elim
  | arrived | intoHeld | requested => exact hpass
  | synced k reply skeleton pc' w' hpc hsync =>
      cases hsync with
      | called cursor bound hfree => cases hpass
      | _ => exact hpass

lemma underway_step {act : Act} (h : w.Underway cfg v rel uid raw) (hbeside : act.Beside)
    (hstep : step cfg v act = some v') : w.Underway cfg v' rel uid raw := by
  intro pc' hpass'
  by_cases hact : ∃ reply fresh io, act = .pass reply fresh io
  · obtain ⟨reply, fresh, io, rfl⟩ := hact
    cases hpass : v.pass with
    | none => simp [step, hpass] at hstep
    | some running =>
        simp only [step, hpass] at hstep
        have hcaller := Idle.caller_eq (passStep_cases hstep) hpass'
        obtain ⟨caller, pc⟩ := running
        obtain rfl : rel.caller uid = caller := hcaller
        obtain ⟨since, hlog, hstage⟩ := h pc hpass
        cases stage_goes hstage hstep with
        | on pc'' news hpass'' hlog' hstage' =>
            obtain ⟨-, rfl⟩ := Running.mk.inj (Option.some.inj (hpass'.symm.trans hpass''))
            exact ⟨news ++ since, by rw [hlog', hlog, List.append_assoc], hstage'⟩
        | failed hnone => simp [hnone] at hpass'
        | returned m sender hnone => simp [hnone] at hpass'
  · simp only [not_exists] at hact
    rcases step_aside hbeside hstep with haside | ⟨reply, fresh, io, heq⟩
    · obtain ⟨since, hlog, hstage⟩ := h pc' (pass_before hbeside hstep hact hpass')
      obtain ⟨news, hlog', hnews⟩ := haside.log
      exact ⟨news ++ since, by rw [hlog', hlog, List.append_assoc], hstage.aside haside hnews⟩
    · exact absurd heq (hact reply fresh io)

lemma underway_run {acts : List Act} (hraw : w.held.find uid = some raw)
    (hbeside : ∀ act ∈ acts, act.Beside)
    (hrun : Run.run (step cfg) w (.call (.release rel uid) :: acts) = some v) :
    w.Underway cfg v rel uid raw := by
  obtain ⟨w₁, hcall, hrun⟩ := Run.run_cons_eq_some.1 hrun
  have hstart : w.Underway cfg w₁ rel uid raw := by
    intro pc hpass
    cases worldStep_cases hcall with
    | called j hfree =>
        obtain ⟨-, rfl⟩ := Running.mk.inj (Option.some.inj hpass)
        exact ⟨[], rfl, ⟨hraw, rfl, nofun⟩, rfl, rfl, rfl⟩
  have hmeets : Run.Meets (step cfg) (fun _ act => act.Beside) w₁ acts := Run.meets_of_mem hbeside
  exact Run.run_invariant_of_meets (fun s a s' hs ha hstep => underway_step hs ha hstep) hstart
    hmeets hrun

/-- A release that returns nil leaves the letter in INBOX, rung for. -/
def ReleasesStay (cfg : Config) : Prop :=
  ∀ (w₀ w w' : World) (acts₀ acts : List Act) (rel : Release) (uid : UID) (raw : Raw), w₀.AtRest →
    Run.run (step cfg) w₀ acts₀ = some w → w.held.find uid = some raw →
    (∀ act ∈ acts, act.Beside) → w.Returns cfg (.release rel uid) acts w' →
    ∃ m since, w'.log = since ++ w.log ∧ .released m ∈ since ∧ m ∈ w'.inbox.msgs ∧
      ∃ contactID, .kept m contactID ∈ since

end Chaskiwasi

namespace Chaskiwasi.Sample

/-- Rosa has moved, and is closed. -/
def movedRosa : Contact := { rosa false with pastAddresses := ["rosa@old"] }

def onlyMovedRosa : Table where
  version := 1
  contacts := [movedRosa]
  sorted := List.pairwise_singleton _ _
  no_sys := by decide

/-- A letter lies in Held. -/
def holding (t : Table) (addr : String) : World :=
  { world t with held := Folder.empty.push (delivered 1 addr) (show (0 : UID) < 1 by decide) }

lemma run_holding (t : Table) (addr : String) :
    Run.run (@step runes config) (world t) [.intoHeld (delivered 1 addr)] =
      some (holding t addr) := rfl

/-- The guardian reactivates Rosa, and releases the letter. -/
def reactivating : Release := .deactivated "ana" "c_01"

/-- The steps of the release, but for the last: with everything answered as it should be, the letter
gets this UID. -/
def releaseSteps (n : ℕ) : List Act := List.replicate 3 (passOk 0) ++ List.replicate n (passOk 2)

/-- The release returns nil, with this to see in the mailbox. -/
def returnsWith (t : Table) (addr : String) (n : ℕ) (seen : World → Bool) : Bool :=
  (Run.run (@step runes config) (holding t addr)
    (.call (.release reactivating 1) :: releaseSteps n)).any fun v =>
      decide (v.pass = some ⟨.job (.release reactivating 1), .file [] false⟩) &&
        (@step runes config v (passOk 0)).any fun v' => v'.pass.isNone &&
          decide (v'.log.head? = some (.returned (.release reactivating 1) true)) && seen v'

lemma returns_of_returnsWith {t : Table} {addr : String} {n : ℕ} {seen : World → Bool}
    (h : returnsWith t addr n seen = true) :
    ∃ v', @World.Returns runes config (holding t addr) (.release reactivating 1) (releaseSteps n)
      v' ∧ seen v' = true := by
  obtain ⟨v, hrun, hv⟩ := Run.exists_of_any h
  obtain ⟨hpass, hany⟩ := Bool.and_eq_true_iff.1 hv
  cases hstep : @step runes config v (passOk 0) with
  | none => simp [hstep] at hany
  | some v' =>
      simp only [hstep, Option.any_some, Bool.and_eq_true, decide_eq_true_eq,
        Option.isNone_iff_eq_none] at hany
      exact ⟨v', ⟨v, _, .ok, 0, {}, hrun, of_decide_eq_true hpass, hstep, hany.1.1, hany.1.2⟩,
        hany.2⟩

lemma beside_releaseSteps (n : ℕ) : ∀ act ∈ releaseSteps n, act.Beside := by
  intro act hact
  rcases List.mem_append.1 hact with hact | hact
  · rw [List.eq_of_mem_replicate hact]
    trivial
  · rw [List.eq_of_mem_replicate hact]
    trivial

end Chaskiwasi.Sample

namespace Chaskiwasi

end Chaskiwasi
