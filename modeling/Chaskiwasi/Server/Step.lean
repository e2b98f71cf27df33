import Chaskiwasi.Server.World

/-!
# What one step can do

Every invariant of the world is derived from a few facts about its steps, stated here once: what
each step can do (`worldStep_cases`, and `passStep_cases` and `syncStep_cases` under it), what a
move can do to the two folders (`moveOut_cases`, `moveIn_cases`), and what no step except a
renumbering can undo (`Advances`): UIDs once assigned stay spent, a message is never put back into
INBOX under a UID it had, the high-water mark never falls, and the contact table only grows.
-/

namespace Chaskiwasi

namespace World

variable {w w' : World}

@[simp] lemma finish_inbox (w : World) (c : Caller) (ok : Bool) :
    (w.finish c ok).inbox = w.inbox := by
  cases c <;> rfl

@[simp] lemma finish_uidValidity (w : World) (c : Caller) (ok : Bool) :
    (w.finish c ok).uidValidity = w.uidValidity := by
  cases c <;> rfl

@[simp] lemma finish_table (w : World) (c : Caller) (ok : Bool) :
    (w.finish c ok).table = w.table := by
  cases c <;> rfl

@[simp] lemma finish_highWater (w : World) (c : Caller) (ok : Bool) :
    (w.finish c ok).highWater = w.highWater := by
  cases c <;> rfl

@[simp] lemma finish_pass (w : World) (c : Caller) (ok : Bool) : (w.finish c ok).pass = none := by
  cases c <;> rfl

/-- What a move from INBOX to Held can do: nothing, a copy, or the move itself with its note. -/
lemma moveOut_cases {uid fresh : UID} {n : Raw → Note} {reply : Reply}
    (h : w.moveOut uid n reply fresh = some w') :
    (w' = w ∧ (reply = .ok → ∀ m ∈ w.inbox.msgs, m.uid ≠ uid)) ∨
      (∃ held, w' = { w with held := held } ∧ reply ≠ .ok) ∨
      ∃ raw ∈ w.inbox.msgs, raw.uid = uid ∧ ∃ held,
        w' = { w with inbox := w.inbox.remove uid, held := held, log := n raw :: w.log } := by
  unfold moveOut at h
  cases hfind : w.inbox.find uid with
  | none =>
      simp only [hfind, Option.some.injEq] at h
      refine Or.inl ⟨h.symm, fun _ m hm huid => ?_⟩
      have hnone := List.find?_eq_none.1 hfind m hm
      exact hnone (by simpa using huid)
  | some raw =>
      obtain ⟨hmem, huid⟩ := Folder.find_eq_some hfind
      simp only [hfind] at h
      split_ifs at h with hfailed hfresh hcopied
      · obtain rfl := Option.some.inj h
        exact Or.inl ⟨rfl, fun hok => by simp [hfailed] at hok⟩
      · obtain rfl := Option.some.inj h
        exact Or.inr (Or.inl ⟨_, rfl, by simp [hcopied]⟩)
      · obtain rfl := Option.some.inj h
        exact Or.inr (Or.inr ⟨raw, hmem, huid, _, rfl⟩)

/-- A move that succeeded leaves nothing under the UID in INBOX. -/
lemma ne_of_moveOut_ok {v : World} {uid fresh : UID} {n : Raw → Note}
    (hv : w.moveOut uid n .ok fresh = some v) {x : Raw} (hx : x ∈ v.inbox.msgs) :
    x ∈ w.inbox.msgs ∧ x.uid ≠ uid := by
  rcases moveOut_cases hv with ⟨rfl, hnone⟩ | ⟨held, rfl, hne⟩ | ⟨raw, -, -, held, rfl⟩
  · exact ⟨hx, hnone rfl x hx⟩
  · exact absurd rfl hne
  · exact Folder.mem_remove.1 hx

/-- What a move from Held to INBOX can do: nothing, or put a message of Held into INBOX under a
fresh UID. -/
lemma moveIn_cases {uid fresh : UID} {reply : Reply} (h : w.moveIn uid reply fresh = some w') :
    w' = w ∨ ∃ raw ∈ w.held.msgs, raw.uid = uid ∧ ∃ (hfresh : w.inbox.last < fresh) (held : Folder),
      (∀ m ∈ held.msgs, m ∈ w.held.msgs) ∧
      w' = { w with
             inbox := w.inbox.push { raw with uid := fresh } hfresh, held := held,
             log := .released { raw with uid := fresh } :: w.log } := by
  unfold moveIn at h
  cases hfind : w.held.find uid with
  | none =>
      simp only [hfind, Option.some.injEq] at h
      exact Or.inl h.symm
  | some raw =>
      obtain ⟨hmem, huid⟩ := Folder.find_eq_some hfind
      simp only [hfind] at h
      split_ifs at h with hfailed hfresh hcopied
      · exact Or.inl (Option.some.inj h).symm
      · obtain rfl := Option.some.inj h
        exact Or.inr ⟨raw, hmem, huid, hfresh, w.held, fun m hm => hm, rfl⟩
      · obtain rfl := Option.some.inj h
        exact Or.inr ⟨raw, hmem, huid, hfresh, _, fun m hm => (Folder.mem_remove.1 hm).1, rfl⟩

lemma mem_finish_log {v : World} {caller : Caller} {ok : Bool} {n : Note}
    (h : n ∈ (v.finish caller ok).log) :
    n ∈ v.log ∨ ∃ j, caller = .job j ∧ n = .returned j ok := by
  cases caller with
  | job j => exact (List.mem_cons.1 h).symm.imp_right fun heq => ⟨j, rfl, heq⟩
  | sync k => exact Or.inl h

lemma mem_moveOut_log {v : World} {uid fresh : UID} {n : Raw → Note} {reply : Reply} {x : Note}
    (hv : w.moveOut uid n reply fresh = some v) (h : x ∈ v.log) :
    x ∈ w.log ∨ ∃ m ∈ w.inbox.msgs, m.uid = uid ∧ x = n m := by
  rcases moveOut_cases hv with ⟨rfl, -⟩ | ⟨held, rfl, -⟩ | ⟨m, hm, huid, held, rfl⟩
  · exact Or.inl h
  · exact Or.inl h
  · exact (List.mem_cons.1 h).symm.imp_right fun heq => ⟨m, hm, huid, heq⟩

lemma mem_moveIn_log {v : World} {uid fresh : UID} {reply : Reply} {x : Note}
    (hv : w.moveIn uid reply fresh = some v) (h : x ∈ v.log) :
    x ∈ w.log ∨ ∃ m, w.inbox.last < m.uid ∧ x = .released m := by
  rcases moveIn_cases hv with rfl | ⟨m, -, -, hfresh, held, -, rfl⟩
  · exact Or.inl h
  · exact (List.mem_cons.1 h).symm.imp_right fun heq => ⟨_, hfresh, heq⟩

/-- What no step undoes, while INBOX keeps its UIDVALIDITY. -/
structure Advances [Runes] (w w' : World) : Prop where
  uidValidity : w'.uidValidity = w.uidValidity
  last : w.inbox.last ≤ w'.inbox.last
  /-- A message that is new in INBOX has a UID that was never assigned before. -/
  inbox : ∀ m ∈ w'.inbox.msgs, m ∈ w.inbox.msgs ∨ w.inbox.last < m.uid
  highWater : w.highWater ≤ w'.highWater
  table : w.table.Addressed → w.table.Grows w'.table ∧ w'.table.Addressed

variable [Runes]

/-- A step that leaves INBOX, the mark and the table alone. -/
lemma Advances.of_frame (huv : w'.uidValidity = w.uidValidity) (hinbox : w'.inbox = w.inbox)
    (hmark : w'.highWater = w.highWater) (htable : w'.table = w.table) : w.Advances w' where
  uidValidity := huv
  last := by rw [hinbox]
  inbox := fun m hm => Or.inl (hinbox ▸ hm)
  highWater := by rw [hmark]
  table := fun h => by rw [htable]; exact ⟨Table.Grows.rfl, h⟩

lemma Advances.of_inbox_eq {v : World} (h : w.Advances v) (huv : w'.uidValidity = v.uidValidity)
    (hinbox : w'.inbox = v.inbox) (hmark : v.highWater ≤ w'.highWater)
    (htable : w'.table = v.table) :
    w.Advances w' where
  uidValidity := huv.trans h.uidValidity
  last := by rw [hinbox]; exact h.last
  inbox := by rw [hinbox]; exact h.inbox
  highWater := le_trans h.highWater hmark
  table := by rw [htable]; exact h.table

lemma Advances.refl (w : World) : w.Advances w := .of_frame rfl rfl rfl rfl

lemma moveOut_advances {uid fresh : UID} {n : Raw → Note} {reply : Reply}
    (h : w.moveOut uid n reply fresh = some w') :
    w.Advances w' ∧ w'.highWater = w.highWater ∧ w'.table = w.table ∧ w'.syncs = w.syncs ∧
      w'.pass = w.pass := by
  rcases moveOut_cases h with ⟨rfl, -⟩ | ⟨held, rfl, -⟩ | ⟨raw, -, -, held, rfl⟩
  · exact ⟨.refl _, rfl, rfl, rfl, rfl⟩
  · exact ⟨.of_frame rfl rfl rfl rfl, rfl, rfl, rfl, rfl⟩
  · refine ⟨⟨rfl, le_refl _, fun m hm => ?_, le_refl _, fun h => ⟨Table.Grows.rfl, h⟩⟩,
      rfl, rfl, rfl, rfl⟩
    exact Or.inl (Folder.mem_remove.1 hm).1

lemma push_advances {raw : Raw} (h : w.inbox.last < raw.uid) {held : Folder} {log : List Note} :
    w.Advances { w with inbox := w.inbox.push raw h, held := held, log := log } where
  uidValidity := rfl
  last := le_of_lt h
  inbox := by
    intro m hm
    rcases (Folder.mem_push (h := h)).1 hm with hm | rfl
    · exact Or.inl hm
    · exact Or.inr h
  highWater := le_refl _
  table := fun h => ⟨Table.Grows.rfl, h⟩

lemma moveIn_advances {uid fresh : UID} {reply : Reply}
    (h : w.moveIn uid reply fresh = some w') : w.Advances w' := by
  rcases moveIn_cases h with rfl | ⟨raw, -, -, hfresh, held, -, rfl⟩
  · exact .refl _
  · exact push_advances hfresh

end World

variable [Runes] {cfg : Config} {w w' : World}

lemma mutate_advances (maxContacts : ℕ) (io : MutateIO) (actor : String) (m : Mutation) :
    w.Advances { w with table := (mutate maxContacts io actor m w.table).2 } where
  uidValidity := rfl
  last := le_refl _
  inbox := fun _ hm => Or.inl hm
  highWater := le_refl _
  table := fun h => mutate_grows h maxContacts io actor m

/-! ## The steps of a pass and of a sync, one by one -/

/-- What one step of a filing pass can do. -/
inductive PassStep (cfg : Config) (w : World) (caller : Caller) : Pass → World → Prop
  /-- An error that changed nothing. -/
  | aborted (pc : Pass) : PassStep cfg w caller pc (w.finish caller false)
  | listed (bound : Option UID) :
      PassStep cfg w caller (.list bound) (w.goto caller (.sweep bound w.inbox.msgs 0))
  | swept (bound : Option UID) (maxUID : UID) :
      PassStep cfg w caller (.sweep bound [] maxUID) ((w.raise maxUID).finish caller true)
  | suspected (bound : Option UID) (raw : Raw) (rest : List Raw) (maxUID : UID)
      (hq : quarantines cfg.pipeline w.table bound raw = true) :
      PassStep cfg w caller (.sweep bound (raw :: rest) maxUID)
        (w.goto caller (.quarantine bound raw rest (max maxUID raw.uid)))
  | left (bound : Option UID) (raw : Raw) (rest : List Raw) (maxUID : UID)
      (hq : quarantines cfg.pipeline w.table bound raw = false) :
      PassStep cfg w caller (.sweep bound (raw :: rest) maxUID)
        ((w.note (.left raw)).goto caller (.sweep bound rest (max maxUID raw.uid)))
  | quarantined (bound : Option UID) (raw : Raw) (rest : List Raw) (maxUID fresh : UID) (v : World)
      (hv : w.moveOut raw.uid .quarantined .ok fresh = some v) :
      PassStep cfg w caller (.quarantine bound raw rest maxUID)
        (v.goto caller (.sweep bound rest maxUID))
  | quarantineFailed (bound : Option UID) (raw : Raw) (rest : List Raw) (maxUID fresh : UID)
      (reply : Reply) (v : World) (hv : w.moveOut raw.uid .quarantined reply fresh = some v) :
      PassStep cfg w caller (.quarantine bound raw rest maxUID) (v.finish caller false)
  | fetched (raws : List Raw) (hraws : raws = w.inbox.fetchAbove w.highWater arrivalBatchSize) :
      PassStep cfg w caller .fetch
        ((w.note .fetched).goto caller (.file raws (raws.length = arrivalBatchSize)))
  | refetch : PassStep cfg w caller (.file [] true) (w.goto caller .fetch)
  | filed : PassStep cfg w caller (.file [] false) (w.finish caller true)
  | kept (raw : Raw) (rest : List Raw) (full : Bool) (contact : Contact)
      (hsender : activeSender cfg.pipeline w.table raw = some contact) :
      PassStep cfg w caller (.file (raw :: rest) full)
        (((w.note (.kept raw contact.id)).raise raw.uid).goto caller (.file rest full))
  | refused (raw : Raw) (rest : List Raw) (full : Bool)
      (hsender : activeSender cfg.pipeline w.table raw = none) :
      PassStep cfg w caller (.file (raw :: rest) full) (w.goto caller (.hold raw rest full))
  | held (raw : Raw) (rest : List Raw) (full : Bool) (fresh : UID) (v : World)
      (hv : w.moveOut raw.uid .held .ok fresh = some v) :
      PassStep cfg w caller (.hold raw rest full)
        ((v.raise raw.uid).goto caller (.file rest full))
  | holdFailed (raw : Raw) (rest : List Raw) (full : Bool) (fresh : UID) (reply : Reply) (v : World)
      (hv : w.moveOut raw.uid .held reply fresh = some v) :
      PassStep cfg w caller (.hold raw rest full) (v.finish caller false)
  | found (rel : Release) (uid : UID) (raw : Raw) (hfind : w.held.find uid = some raw) :
      PassStep cfg w caller (.findHeld rel uid) (w.goto caller (.check rel raw))
  | checked (rel : Release) (raw : Raw) (sender : String)
      (hfrom : cfg.pipeline.headerFrom raw.data = some sender)
      (hid : ∀ actor contactID, rel = .deactivated actor contactID →
        (w.table.resolve sender).map Contact.id = some contactID) :
      PassStep cfg w caller (.check rel raw) (w.goto caller (.change rel raw sender))
  | confirmed (raw : Raw) :
      PassStep cfg w caller (.check .active raw) (w.goto caller (.unhold raw))
  | changed (rel : Release) (raw : Raw) (sender actor : String) (m : Mutation) (io : MutateIO)
      (event : Event) (hm : rel.mutation sender = some (actor, m))
      (hok : (mutate cfg.maxContacts io actor m w.table).1 = .ok event) :
      PassStep cfg w caller (.change rel raw sender)
        ({ w with table := (mutate cfg.maxContacts io actor m w.table).2 }.goto caller
          (.unhold raw))
  | changeFailed (rel : Release) (raw : Raw) (sender actor : String) (m : Mutation)
      (io : MutateIO) :
      PassStep cfg w caller (.change rel raw sender)
        ({ w with table := (mutate cfg.maxContacts io actor m w.table).2 }.finish caller false)
  | unchanged (rel : Release) (raw : Raw) (sender : String) (hm : rel.mutation sender = none) :
      PassStep cfg w caller (.change rel raw sender) (w.goto caller (.unhold raw))
  | unheld (raw : Raw) (fresh : UID) (v : World) (hv : w.moveIn raw.uid .ok fresh = some v) :
      PassStep cfg w caller (.unhold raw) (v.goto caller .fetch)
  | unholdFailed (raw : Raw) (fresh : UID) (reply : Reply) (v : World)
      (hv : w.moveIn raw.uid reply fresh = some v) :
      PassStep cfg w caller (.unhold raw) (v.finish caller false)

theorem passStep_cases {caller : Caller} {pc : Pass} {reply : Reply} {fresh : UID} {io : MutateIO}
    (h : passStep cfg w caller pc reply fresh io = some w') : PassStep cfg w caller pc w' := by
  cases pc with
  | list bound =>
      simp only [passStep] at h
      split_ifs at h <;> obtain rfl := Option.some.inj h
      · exact .listed bound
      · exact .aborted _
  | sweep bound rest maxUID =>
      cases rest with
      | nil =>
          obtain rfl := Option.some.inj h
          exact .swept bound maxUID
      | cons raw rest =>
          simp only [passStep] at h
          split_ifs at h with hq <;> obtain rfl := Option.some.inj h
          · exact .suspected bound raw rest maxUID hq
          · exact .left bound raw rest maxUID (by simpa using hq)
  | quarantine bound raw rest maxUID =>
      obtain ⟨v, hv, rfl⟩ := Option.map_eq_some_iff.1 h
      split_ifs with hok
      · exact .quarantined bound raw rest maxUID fresh v (hok ▸ hv)
      · exact .quarantineFailed bound raw rest maxUID fresh reply v hv
  | fetch =>
      simp only [passStep] at h
      split_ifs at h <;> obtain rfl := Option.some.inj h
      · exact .fetched _ rfl
      · exact .aborted _
  | file rest full =>
      cases rest with
      | nil =>
          cases full <;> obtain rfl := Option.some.inj h
          · exact .filed
          · exact .refetch
      | cons raw rest =>
          simp only [passStep] at h
          cases hsender : activeSender cfg.pipeline w.table raw with
          | some contact =>
              simp only [hsender] at h
              obtain rfl := Option.some.inj h
              exact .kept raw rest full contact hsender
          | none =>
              simp only [hsender] at h
              obtain rfl := Option.some.inj h
              exact .refused raw rest full hsender
  | hold raw rest full =>
      obtain ⟨v, hv, rfl⟩ := Option.map_eq_some_iff.1 h
      split_ifs with hok
      · exact .held raw rest full fresh v (hok ▸ hv)
      · exact .holdFailed raw rest full fresh reply v hv
  | findHeld rel uid =>
      simp only [passStep] at h
      split_ifs at h
      · cases hfind : w.held.find uid with
        | none =>
            simp only [hfind] at h
            obtain rfl := Option.some.inj h
            exact .aborted _
        | some raw =>
            simp only [hfind] at h
            obtain rfl := Option.some.inj h
            exact .found rel uid raw hfind
      · obtain rfl := Option.some.inj h
        exact .aborted _
  | check rel raw =>
      simp only [passStep] at h
      cases hfrom : cfg.pipeline.headerFrom raw.data with
      | none =>
          simp only [hfrom] at h
          obtain rfl := Option.some.inj h
          exact .aborted _
      | some sender =>
          cases rel with
          | stranger actor name =>
              simp only [hfrom] at h
              obtain rfl := Option.some.inj h
              exact .checked _ raw sender hfrom (by simp)
          | deactivated actor contactID =>
              simp only [hfrom] at h
              split_ifs at h with hid <;> obtain rfl := Option.some.inj h
              · refine .checked _ raw sender hfrom fun actor' contactID' heq => ?_
                obtain ⟨rfl, rfl⟩ := Release.deactivated.inj heq
                exact hid
              · exact .aborted _
          | active =>
              simp only [hfrom] at h
              split_ifs at h <;> obtain rfl := Option.some.inj h
              · exact .confirmed raw
              · exact .aborted _
  | change rel raw sender =>
      simp only [passStep] at h
      cases hm : rel.mutation sender with
      | none =>
          simp only [hm] at h
          obtain rfl := Option.some.inj h
          exact .unchanged rel raw sender hm
      | some am =>
          obtain ⟨actor, m⟩ := am
          simp only [hm] at h
          cases hres : (mutate cfg.maxContacts io actor m w.table).1 with
          | ok event =>
              simp only [hres] at h
              obtain rfl := Option.some.inj h
              exact .changed rel raw sender actor m io event hm hres
          | error err =>
              simp only [hres] at h
              obtain rfl := Option.some.inj h
              exact .changeFailed rel raw sender actor m io
  | unhold raw =>
      obtain ⟨v, hv, rfl⟩ := Option.map_eq_some_iff.1 h
      split_ifs with hok
      · exact .unheld raw fresh v (hok ▸ hv)
      · exact .unholdFailed raw fresh reply v hv

/-- What one step of a sync can do. -/
inductive SyncStep (cfg : Config) (w : World) (k : ℕ) : Sync → World → Prop
  /-- An error: the request is answered with nothing. -/
  | failed (pc : Sync) : SyncStep cfg w k pc (w.setSync k none)
  | started (cursor : String) :
      SyncStep cfg w k (.start cursor)
        (w.setSync k (some (.waiting cursor (cursorBoundary cursor w.uidValidity))))
  | called (cursor : String) (bound : Option UID) (hfree : w.pass = none) :
      SyncStep cfg w k (.waiting cursor bound)
        ((w.goto (.sync k) (.list bound)).setSync k (some (.reconciling cursor)))
  | assembling (cursor : String) :
      SyncStep cfg w k (.assemble cursor)
        (w.setSync k (some (.fetching w.uidValidity (cursorBoundary cursor w.uidValidity))))
  | fetched (uidValidity : UID) (boundary : Option UID) (budget : ℤ) :
      SyncStep cfg w k (.fetching uidValidity boundary)
        (w.setSync k (some (.deriving_ uidValidity ⟨budget, [], boundary.getD 0⟩ []
          (fetchFrom w.inbox cfg.resyncWindow boundary).1
          (fetchFrom w.inbox cfg.resyncWindow boundary).2)))
  | through (uidValidity : UID) (asm : Assembly) (sources : List Raw) (capped : Bool) :
      SyncStep cfg w k (.deriving_ uidValidity asm sources [] capped)
        (w.setSync k (some (.committing uidValidity asm sources capped)))
  | skipped (uidValidity : UID) (asm : Assembly) (sources : List Raw) (raw : Raw) (rest : List Raw)
      (capped : Bool) :
      SyncStep cfg w k (.deriving_ uidValidity asm sources (raw :: rest) capped)
        (w.setSync k (some (.deriving_ uidValidity { asm with lastUID := raw.uid } sources rest
          capped)))
  | derived (uidValidity : UID) (asm : Assembly) (sources : List Raw) (raw : Raw) (rest : List Raw)
      (capped : Bool) (letter : Letter) (budget : ℤ)
      (hderive : cfg.pipeline.derive w.table raw = .ok letter) :
      SyncStep cfg w k (.deriving_ uidValidity asm sources (raw :: rest) capped)
        (w.setSync k (some (.deriving_ uidValidity ⟨budget, asm.letters ++ [letter], raw.uid⟩
          (sources ++ [raw]) rest capped)))
  | stopped (uidValidity : UID) (asm : Assembly) (sources : List Raw) (raw : Raw) (rest : List Raw)
      (capped : Bool) :
      SyncStep cfg w k (.deriving_ uidValidity asm sources (raw :: rest) capped)
        (w.setSync k (some (.committing uidValidity asm sources true)))
  | responded (uidValidity : UID) (asm : Assembly) (sources : List Raw) (more : Bool) :
      SyncStep cfg w k (.committing uidValidity asm sources more)
        ((w.note (.responded k ⟨uidValidity, asm.lastUID, asm.letters, more, sources⟩)).setSync k
          none)

theorem syncStep_cases {k : ℕ} {reply : Reply} {skeleton : ℕ}
    (h : syncStep cfg w k reply skeleton = some w') :
    ∃ pc, w.syncs k = some pc ∧ SyncStep cfg w k pc w' := by
  unfold syncStep at h
  cases hpc : w.syncs k with
  | none => simp [hpc] at h
  | some pc =>
      refine ⟨pc, rfl, ?_⟩
      cases pc with
      | start cursor =>
          simp only [hpc] at h
          split_ifs at h <;> obtain rfl := Option.some.inj h
          · exact .started cursor
          · exact .failed _
      | waiting cursor bound =>
          simp only [hpc] at h
          cases hpass : w.pass with
          | some running => simp [hpass] at h
          | none =>
              simp only [hpass] at h
              obtain rfl := Option.some.inj h
              exact .called cursor bound hpass
      | reconciling cursor => simp [hpc] at h
      | assemble cursor =>
          simp only [hpc] at h
          split_ifs at h <;> obtain rfl := Option.some.inj h
          · exact .assembling cursor
          · exact .failed _
      | fetching uidValidity boundary =>
          simp only [hpc] at h
          split_ifs at h <;> obtain rfl := Option.some.inj h
          · exact .fetched uidValidity boundary _
          · exact .failed _
      | deriving_ uidValidity asm sources rest capped =>
          cases rest with
          | nil =>
              simp only [hpc] at h
              obtain rfl := Option.some.inj h
              exact .through uidValidity asm sources capped
          | cons raw rest =>
              simp only [hpc] at h
              cases hderive : cfg.pipeline.derive w.table raw with
              | ok letter =>
                  simp only [hderive, assembleOne] at h
                  by_cases hfull : asm.letters ≠ [] ∧
                      asm.budget - letterSize cfg.encodedLength letter < 0
                  · simp only [if_pos hfull] at h
                    obtain rfl := Option.some.inj h
                    exact .stopped ..
                  · simp only [if_neg hfull] at h
                    obtain rfl := Option.some.inj h
                    exact .derived uidValidity asm sources raw rest capped letter _ hderive
              | error err =>
                  cases err with
                  | unresolvedSender uid letterID =>
                      simp only [hderive, assembleOne] at h
                      obtain rfl := Option.some.inj h
                      exact .skipped ..
                  | parse uid =>
                      simp only [hderive, assembleOne] at h
                      by_cases hnone : asm.letters = []
                      · simp only [if_pos hnone] at h
                        obtain rfl := Option.some.inj h
                        exact .failed _
                      · simp only [if_neg hnone] at h
                        obtain rfl := Option.some.inj h
                        exact .stopped ..
      | committing uidValidity asm sources more =>
          simp only [hpc] at h
          split_ifs at h <;> obtain rfl := Option.some.inj h
          · exact .responded ..
          · exact .failed _

/-! ## What no step undoes -/

theorem PassStep.advances {caller : Caller} {pc : Pass} (h : PassStep cfg w caller pc w') :
    w.Advances w' := by
  have unmoved : w.Advances w := .refl w
  cases h with
  | aborted => exact unmoved.of_inbox_eq (by simp) (by simp) (by simp) (by simp)
  | swept => exact unmoved.of_inbox_eq (by simp) (by simp) (by simp) (by simp)
  | filed => exact unmoved.of_inbox_eq (by simp) (by simp) (by simp) (by simp)
  | kept => exact unmoved.of_inbox_eq (by simp) (by simp) (by simp) (by simp)
  | listed | suspected | left | fetched | refetch | refused | found | checked | confirmed
  | unchanged => exact .of_frame rfl rfl rfl rfl
  | quarantined bound raw rest maxUID fresh v hv =>
      exact (World.moveOut_advances hv).1.of_inbox_eq rfl rfl (le_refl _) rfl
  | quarantineFailed bound raw rest maxUID fresh reply v hv =>
      exact (World.moveOut_advances hv).1.of_inbox_eq (by simp) (by simp) (by simp) (by simp)
  | held raw rest full fresh v hv =>
      exact (World.moveOut_advances hv).1.of_inbox_eq rfl rfl (by simp) rfl
  | holdFailed raw rest full fresh reply v hv =>
      exact (World.moveOut_advances hv).1.of_inbox_eq (by simp) (by simp) (by simp) (by simp)
  | changed rel raw sender actor m io event hm hok =>
      exact (mutate_advances cfg.maxContacts io actor m).of_inbox_eq rfl rfl (le_refl _) rfl
  | changeFailed rel raw sender actor m io =>
      exact (mutate_advances cfg.maxContacts io actor m).of_inbox_eq (by simp) (by simp) (by simp)
        (by simp)
  | unheld raw fresh v hv =>
      exact (World.moveIn_advances hv).of_inbox_eq rfl rfl (le_refl _) rfl
  | unholdFailed raw fresh reply v hv =>
      exact (World.moveIn_advances hv).of_inbox_eq (by simp) (by simp) (by simp) (by simp)

/-- What a step of a pass can write to the log. -/
inductive PassNote (cfg : Config) (w : World) (caller : Caller) : Pass → Note → Prop
  | returned (pc : Pass) (j : Job) (ok : Bool) (hj : caller = .job j) :
      PassNote cfg w caller pc (.returned j ok)
  | left (bound : Option UID) (raw : Raw) (rest : List Raw) (maxUID : UID)
      (hq : quarantines cfg.pipeline w.table bound raw = false) :
      PassNote cfg w caller (.sweep bound (raw :: rest) maxUID) (.left raw)
  | quarantined (bound : Option UID) (raw : Raw) (rest : List Raw) (maxUID : UID) (m : Raw)
      (hm : m ∈ w.inbox.msgs) (huid : m.uid = raw.uid) :
      PassNote cfg w caller (.quarantine bound raw rest maxUID) (.quarantined m)
  | fetched : PassNote cfg w caller .fetch .fetched
  | kept (raw : Raw) (rest : List Raw) (full : Bool) (contact : Contact)
      (hsender : activeSender cfg.pipeline w.table raw = some contact) :
      PassNote cfg w caller (.file (raw :: rest) full) (.kept raw contact.id)
  | held (raw : Raw) (rest : List Raw) (full : Bool) (m : Raw) (hm : m ∈ w.inbox.msgs)
      (huid : m.uid = raw.uid) : PassNote cfg w caller (.hold raw rest full) (.held m)
  | released (raw m : Raw) (hm : w.inbox.last < m.uid) :
      PassNote cfg w caller (.unhold raw) (.released m)

theorem PassStep.log_mem {caller : Caller} {pc : Pass} (h : PassStep cfg w caller pc w') {n : Note}
    (hn : n ∈ w'.log) : n ∈ w.log ∨ PassNote cfg w caller pc n := by
  have returned : ∀ {ok : Bool}, (∃ j, caller = .job j ∧ n = .returned j ok) →
      PassNote cfg w caller pc n := by
    rintro ok ⟨j, hj, rfl⟩
    exact .returned pc j ok hj
  cases h with
  | aborted => exact (World.mem_finish_log hn).imp_right returned
  | swept bound maxUID =>
      exact (World.mem_finish_log (v := w.raise maxUID) hn).imp_right returned
  | filed => exact (World.mem_finish_log hn).imp_right returned
  | listed | suspected | refetch | refused | found | checked | confirmed | unchanged | changed =>
      exact Or.inl hn
  | left bound raw rest maxUID hq =>
      rcases List.mem_cons.1 hn with rfl | hn
      · exact Or.inr (.left bound raw rest maxUID hq)
      · exact Or.inl hn
  | fetched =>
      rcases List.mem_cons.1 hn with rfl | hn
      · exact Or.inr .fetched
      · exact Or.inl hn
  | kept raw rest full contact hsender =>
      rcases List.mem_cons.1 hn with rfl | hn
      · exact Or.inr (.kept raw rest full contact hsender)
      · exact Or.inl hn
  | quarantined bound raw rest maxUID fresh v hv =>
      refine (World.mem_moveOut_log hv hn).imp_right ?_
      rintro ⟨m, hm, huid, rfl⟩
      exact .quarantined bound raw rest maxUID m hm huid
  | quarantineFailed bound raw rest maxUID fresh reply v hv =>
      rcases World.mem_finish_log hn with hn | hn
      · refine (World.mem_moveOut_log hv hn).imp_right ?_
        rintro ⟨m, hm, huid, rfl⟩
        exact .quarantined bound raw rest maxUID m hm huid
      · exact Or.inr (returned hn)
  | held raw rest full fresh v hv =>
      refine (World.mem_moveOut_log hv hn).imp_right ?_
      rintro ⟨m, hm, huid, rfl⟩
      exact .held raw rest full m hm huid
  | holdFailed raw rest full fresh reply v hv =>
      rcases World.mem_finish_log hn with hn | hn
      · refine (World.mem_moveOut_log hv hn).imp_right ?_
        rintro ⟨m, hm, huid, rfl⟩
        exact .held raw rest full m hm huid
      · exact Or.inr (returned hn)
  | changeFailed rel raw sender actor m io =>
      exact (World.mem_finish_log
        (v := { w with table := (mutate cfg.maxContacts io actor m w.table).2 }) hn).imp_right
          returned
  | unheld raw fresh v hv =>
      refine (World.mem_moveIn_log hv hn).imp_right ?_
      rintro ⟨m, hm, rfl⟩
      exact .released raw m hm
  | unholdFailed raw fresh reply v hv =>
      rcases World.mem_finish_log hn with hn | hn
      · refine (World.mem_moveIn_log hv hn).imp_right ?_
        rintro ⟨m, hm, rfl⟩
        exact .released raw m hm
      · exact Or.inr (returned hn)

/-- A pass answers no sync: every response in the log was there before. -/
theorem PassStep.responded_mem {caller : Caller} {pc : Pass} (h : PassStep cfg w caller pc w')
    {k : ℕ} {r : Response} (hr : .responded k r ∈ w'.log) : .responded k r ∈ w.log := by
  rcases h.log_mem hr with hr | hr
  · exact hr
  · cases hr

/-- A pass leaves every sync where it is, but for the one that called it, to which it hands its
outcome when it ends. -/
theorem PassStep.syncs_cases {caller : Caller} {pc : Pass} (h : PassStep cfg w caller pc w')
    (j : ℕ) :
    w'.syncs j = w.syncs j ∨ caller = .sync j ∧ w'.pass = none ∧
      (w'.syncs j = none ∨ w'.syncs j = World.reconciled (w.syncs j)) := by
  have finish : ∀ {v : World} {ok : Bool}, v.syncs = w.syncs →
      (v.finish caller ok).syncs j = w.syncs j ∨ caller = .sync j ∧
        (v.finish caller ok).pass = none ∧ ((v.finish caller ok).syncs j = none ∨
          (v.finish caller ok).syncs j = World.reconciled (w.syncs j)) := by
    intro v ok hv
    cases caller with
    | job i => exact Or.inl (congrFun hv j)
    | sync i =>
        by_cases hj : j = i
        · subst hj
          refine Or.inr ⟨rfl, rfl, ?_⟩
          cases ok
          · exact Or.inl (by simp [World.finish])
          · exact Or.inr (by simp [World.finish, hv])
        · exact Or.inl (by simp [World.finish, hj, hv])
  have moveIn : ∀ {v : World} {uid fresh : UID} {reply : Reply},
      w.moveIn uid reply fresh = some v → v.syncs = w.syncs := by
    intro v uid fresh reply hv
    rcases World.moveIn_cases hv with rfl | ⟨raw, -, -, hfresh, held, -, rfl⟩ <;> rfl
  cases h with
  | aborted => exact finish rfl
  | swept => exact finish rfl
  | filed => exact finish rfl
  | listed | suspected | left | fetched | refetch | kept | refused | found | checked | confirmed
  | unchanged | changed => exact Or.inl rfl
  | quarantined bound raw rest maxUID fresh v hv =>
      exact Or.inl (congrFun (World.moveOut_advances hv).2.2.2.1 j)
  | quarantineFailed bound raw rest maxUID fresh reply v hv =>
      exact finish (World.moveOut_advances hv).2.2.2.1
  | held raw rest full fresh v hv =>
      exact Or.inl (congrFun (World.moveOut_advances hv).2.2.2.1 j)
  | holdFailed raw rest full fresh reply v hv => exact finish (World.moveOut_advances hv).2.2.2.1
  | changeFailed => exact finish rfl
  | unheld raw fresh v hv => exact Or.inl (congrFun (moveIn hv) j)
  | unholdFailed raw fresh reply v hv => exact finish (moveIn hv)

/-- A sync changes nothing but its own place and the log. -/
structure World.SameMail (w w' : World) : Prop where
  inbox : w'.inbox = w.inbox
  held : w'.held = w.held
  uidValidity : w'.uidValidity = w.uidValidity
  table : w'.table = w.table
  highWater : w'.highWater = w.highWater

theorem SyncStep.sameMail {k : ℕ} {pc : Sync} (h : SyncStep cfg w k pc w') : w.SameMail w' := by
  cases h <;> exact ⟨rfl, rfl, rfl, rfl, rfl⟩

lemma SyncStep.syncs_eq {k : ℕ} {pc : Sync} (h : SyncStep cfg w k pc w') {j : ℕ} (hj : j ≠ k) :
    w'.syncs j = w.syncs j := by
  cases h <;> simp [hj]

/-- What one step of the world can do. -/
inductive WorldStep (cfg : Config) (w : World) : Act → World → Prop
  | arrived (raw : Raw) (hfresh : w.inbox.last < raw.uid) :
      WorldStep cfg w (.arrive raw)
        { w with inbox := w.inbox.push raw hfresh, log := .arrived raw :: w.log }
  | intoHeld (raw : Raw) (hfresh : w.held.last < raw.uid) :
      WorldStep cfg w (.intoHeld raw) { w with held := w.held.push raw hfresh }
  | mutated (io : MutateIO) (actor : String) (m : Mutation) :
      WorldStep cfg w (.mutate io actor m)
        { w with table := (mutate cfg.maxContacts io actor m w.table).2 }
  | renumbered (uidValidity : UID) (inbox : Folder) (hnew : uidValidity ≠ w.uidValidity)
      (hinbox : inbox.Renumbers w.inbox) :
      WorldStep cfg w (.renumber uidValidity inbox)
        { w with uidValidity := uidValidity, inbox := inbox }
  | called (j : Job) (hfree : w.pass = none) :
      WorldStep cfg w (.call j) (w.goto (.job j) j.entry)
  | passed (reply : Reply) (fresh : UID) (io : MutateIO) (caller : Caller) (pc : Pass) (w' : World)
      (hpass : w.pass = some ⟨caller, pc⟩)
      (hstep : passStep cfg w caller pc reply fresh io = some w') :
      WorldStep cfg w (.pass reply fresh io) w'
  | requested (k : ℕ) (cursor : String) (hnone : w.syncs k = none) :
      WorldStep cfg w (.request k cursor) (w.setSync k (some (.start cursor)))
  | synced (k : ℕ) (reply : Reply) (skeleton : ℕ) (pc : Sync) (w' : World)
      (hpc : w.syncs k = some pc) (hsync : SyncStep cfg w k pc w') :
      WorldStep cfg w (.sync k reply skeleton) w'

theorem worldStep_cases {act : Act} (h : step cfg w act = some w') : WorldStep cfg w act w' := by
  unfold step at h
  cases act with
  | arrive raw =>
      dsimp only at h
      split_ifs at h with hfresh
      obtain rfl := Option.some.inj h
      exact .arrived raw hfresh
  | intoHeld raw =>
      dsimp only at h
      split_ifs at h with hfresh
      obtain rfl := Option.some.inj h
      exact .intoHeld raw hfresh
  | mutate io actor m =>
      obtain rfl := Option.some.inj h
      exact .mutated io actor m
  | renumber uidValidity inbox =>
      dsimp only at h
      split_ifs at h with hnew
      obtain rfl := Option.some.inj h
      exact .renumbered uidValidity inbox hnew.1 hnew.2
  | call j =>
      dsimp only at h
      split at h
      · cases h
      next hfree =>
        obtain rfl := Option.some.inj h
        exact .called j hfree
  | pass reply fresh io =>
      dsimp only at h
      split at h
      · cases h
      next running hpass => exact .passed reply fresh io running.caller running.pc w' hpass h
  | request k cursor =>
      dsimp only at h
      split at h
      · cases h
      next hnone =>
        obtain rfl := Option.some.inj h
        exact .requested k cursor hnone
  | sync k reply skeleton =>
      obtain ⟨pc, hpc, hsync⟩ := syncStep_cases h
      exact .synced k reply skeleton pc w' hpc hsync

/-- Acts that leave INBOX's UIDVALIDITY alone. -/
def Act.Keeps : Act → Prop
  | .renumber .. => False
  | _ => True

instance : DecidablePred Act.Keeps := fun act =>
  match act with
  | .renumber .. => isFalse id
  | .arrive _ | .intoHeld _ | .mutate .. | .call _ | .pass .. | .request .. | .sync .. =>
      isTrue trivial

theorem step_advances {act : Act} (hact : act.Keeps) (h : step cfg w act = some w') :
    w.Advances w' := by
  cases worldStep_cases h with
  | arrived raw hfresh => exact World.push_advances hfresh
  | intoHeld raw hfresh => exact .of_frame rfl rfl rfl rfl
  | mutated io actor m => exact mutate_advances cfg.maxContacts io actor m
  | renumbered => exact hact.elim
  | called j hfree => exact .of_frame rfl rfl rfl rfl
  | passed reply fresh io caller pc w' hpass hstep => exact (passStep_cases hstep).advances
  | requested k cursor hnone => exact .of_frame rfl rfl rfl rfl
  | synced k reply skeleton pc w' hpc hsync =>
      have hsame := hsync.sameMail
      exact .of_frame hsame.uidValidity hsame.inbox hsame.highWater hsame.table

/-- What a step of the world can write to the log. -/
inductive StepNote (cfg : Config) (w : World) : Act → Note → Prop
  | arrived (raw : Raw) (hraw : w.inbox.last < raw.uid) :
      StepNote cfg w (.arrive raw) (.arrived raw)
  | pass (reply : Reply) (fresh : UID) (io : MutateIO) (caller : Caller) (pc : Pass) (n : Note)
      (hpass : w.pass = some ⟨caller, pc⟩) (hn : PassNote cfg w caller pc n) :
      StepNote cfg w (.pass reply fresh io) n
  | responded (k : ℕ) (reply : Reply) (skeleton : ℕ) (uidValidity : UID) (asm : Assembly)
      (sources : List Raw) (more : Bool)
      (hpc : w.syncs k = some (.committing uidValidity asm sources more)) :
      StepNote cfg w (.sync k reply skeleton)
        (.responded k ⟨uidValidity, asm.lastUID, asm.letters, more, sources⟩)

theorem step_log_mem {act : Act} (h : step cfg w act = some w') {n : Note} (hn : n ∈ w'.log) :
    n ∈ w.log ∨ StepNote cfg w act n := by
  cases worldStep_cases h with
  | arrived raw hfresh =>
      rcases List.mem_cons.1 hn with rfl | hn
      · exact Or.inr (.arrived raw hfresh)
      · exact Or.inl hn
  | intoHeld | mutated | renumbered | called | requested => exact Or.inl hn
  | passed reply fresh io caller pc w' hpass hstep =>
      exact ((passStep_cases hstep).log_mem hn).imp_right fun hn =>
        .pass reply fresh io caller pc n hpass hn
  | synced k reply skeleton pc w' hpc hsync =>
      cases hsync with
      | responded uidValidity asm sources more =>
          rcases List.mem_cons.1 hn with rfl | hn
          · exact Or.inr (.responded k reply skeleton uidValidity asm sources more hpc)
          · exact Or.inl hn
      | _ => exact Or.inl hn

end Chaskiwasi
