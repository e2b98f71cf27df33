import Chaskiwasi.Pututu.Doorbell
import Chaskiwasi.Pututu.Token
import Chaskiwasi.Sync.Codec

/-!
# The doorbell between its two ends

The server mints tokens and hands them to a carrier; the device reads what texts arrive, and takes
a token if its counter is above the one that it has stored.  A text may be late, arrive more than
once or never, and anyone may send one; but nobody else has the key, so a token that arrives was
handed to the carrier before.

Each end has a counter in a file of its own.  The device reports its own in every request, and a
sync that is committed moves the server's up to it.  As long as the server's counter is not behind
the device's, every token that is minted is one that the device takes.  What puts it behind is an
older `state.json` from a backup, restored while the server is stopped, and then the next sync puts
it right, as long as no token from before the restore arrives late (`rings_are_heard`).

The device writes its counter into a request as a floating-point number, so all this is said of
counters below the number up to which every digit of it is written.
-/

namespace Chaskiwasi.BothEnds

open Pututu (Bytes Counter Deps Watch token verify rateLimited)

structure World where
  server : Doorbell.World
  watch : Watch
  /-- The tokens that were handed to the carrier since `state.json` was last replaced. -/
  air : List ℕ := []
  /-- What the device reported in the requests that it made. -/
  requests : List ℕ := []
  /-- Since `state.json` was replaced, a sync was committed that reported what the device had then.
  No procedure reads it. -/
  level : Bool := true

inductive Act
  | server (act : Doorbell.Act)
  | device (ring : Pututu.Ring)
  /-- The device makes a request. -/
  | request

/-- The token that a call is about to hand to the carrier.  Whatever the carrier answers, it may
have taken it. -/
def handed (w : Doorbell.World) : Doorbell.Act → List ℕ
  | .proceed k _ =>
      match w.calls k with
      | some ⟨_, .sending token _⟩ => [token]
      | _ => []
  | _ => []

/-- What the server does only at the device's request, or while it is stopped. -/
def World.Possible (w : World) : Doorbell.Act → Prop
  | .commit h _ => ∃ n ∈ w.requests, Codec.seenCounter n = some h.pututuCounterSeen
  | .restore _ => w.server.store.current = none
  | _ => True

instance (w : World) : DecidablePred w.Possible := fun act =>
  match act with
  | .commit h _ =>
      inferInstanceAs (Decidable (∃ n ∈ w.requests, Codec.seenCounter n = some h.pututuCounterSeen))
  | .restore _ => inferInstanceAs (Decidable (w.server.store.current = none))
  | .start | .stop | .ring .. | .proceed .. | .record .. => isTrue trivial

/-- What is in the air after the server's act. -/
def World.airAfter (w : World) : Doorbell.Act → List ℕ
  | .restore _ => []
  | act => handed w.server act ++ w.air

/-- Whether the two ends are level after the server's act. -/
def World.levelAfter (w : World) : Doorbell.Act → Bool
  | .commit h io =>
      w.level ||
        (io.write.ok && decide (Codec.seenCounter w.watch.door.highWater = some h.pututuCounterSeen))
  | .restore _ => false
  | _ => w.level

section Steps

variable (hmac : Bytes → Bytes → Vector (Fin 256) 32) (d : Deps) (coalesceMin : ℤ)

def step (w : World) : Act → Option World
  | .server act =>
      if w.Possible act then
        (Doorbell.step coalesceMin w.server act).map fun server =>
          { w with
            server := server
            air := w.airAfter act
            level := w.levelAfter act }
      else none
  | .device ring => (Pututu.step hmac d w.watch ring).map fun watch => { w with watch := watch }
  | .request => some { w with requests := w.watch.door.highWater :: w.requests }

/-- The text of an act of the device. -/
def heard : Pututu.Ring → Option Bytes
  | .sms body _ _ | .unheard body _ _ => some body
  | .boot _ => none

/-- A token that arrives was handed to the carrier, and not before `state.json` was replaced unless
the device is past it. -/
def Carried (w : World) : Act → Prop
  | .device ring => ∀ body ∈ heard ring, ∀ c : Counter, body = token hmac c d.hmacKey →
      ↑c ∈ w.air ∨ c ≤ w.watch.door.highWater
  | .server _ | .request => True

end Steps

/-- Up to here the device's JSON writes a number digit by digit. -/
def jsonLimit : ℕ := 10 ^ 15

/-- The counters of both ends are below the limit. -/
def World.Small (w : World) : Prop :=
  w.watch.door.highWater < jsonLimit ∧ w.server.store.file.pututuCounter < jsonLimit ∧
    ∀ st ∈ w.server.store.current, st.pututuCounter < jsonLimit

instance (w : World) : Decidable w.Small := inferInstanceAs (Decidable (_ ∧ _ ∧ _))

/-- The two ends before the first doorbell: the device has accepted nothing. -/
structure World.Fresh (w : World) : Prop where
  server : ∃ s, w.server = Doorbell.initial s
  highWater : w.watch.door.highWater = 0
  accepted : w.watch.accepted = []
  air : w.air = []

/-! ## What the server holds -/

/-- A call has this token in hand. -/
def Holds (w : Doorbell.World) (n : ℕ) : Prop :=
  ∃ k c attempt, w.calls k = some c ∧ (c.stage = .sending n attempt ∨ c.stage = .waiting n attempt)

section Server

variable {coalesceMin : ℤ} {w w' : Doorbell.World} {act : Doorbell.Act} {n : ℕ}

lemma holds_setCall {k : ℕ} {c : Option Doorbell.Call} (h : Holds (w.setCall k c) n) :
    Holds w n ∨ ∃ call attempt, c = some call ∧
      (call.stage = .sending n attempt ∨ call.stage = .waiting n attempt) := by
  obtain ⟨j, call, attempt, hcall, hstage⟩ := h
  unfold Doorbell.World.setCall at hcall
  dsimp only at hcall
  split_ifs at hcall with hj
  · exact .inr ⟨call, attempt, hcall, hstage⟩
  · exact .inl ⟨j, call, attempt, hcall, hstage⟩

lemma holds_setCall_none {k : ℕ} (h : Holds (w.setCall k none) n) : Holds w n := by
  rcases holds_setCall h with h | ⟨call, attempt, hcall, -⟩
  · exact h
  · exact absurd hcall (Option.some_ne_none call).symm

/-- A call whose stage has no token in hand. -/
lemma holds_setCall_some {k : ℕ} {call : Doorbell.Call} (h : Holds (w.setCall k (some call)) n) :
    Holds w n ∨ ∃ attempt, call.stage = .sending n attempt ∨ call.stage = .waiting n attempt := by
  rcases holds_setCall h with h | ⟨call', attempt, hcall, hstage⟩
  · exact .inl h
  · obtain rfl := Option.some.inj hcall
    exact .inr ⟨attempt, hstage⟩

/-- One step, as far as the tokens in hand go and the one that it mints. -/
structure Turned (w w' : Doorbell.World) : Prop where
  holds : ∀ n, Holds w' n → Holds w n ∨ w'.log = .minted n :: w.log
  minted : ∀ n, w'.log = .minted n :: w.log →
    ∃ st ∈ w.store.current, n = (st.pututuCounter + 1) % 2 ^ 64

/-- A step that mints nothing. -/
lemma Turned.of_log (hlog : ∀ n, w'.log ≠ .minted n :: w.log)
    (hholds : ∀ n, Holds w' n → Holds w n) : Turned w w' where
  holds n h := .inl (hholds n h)
  minted n h := absurd h (hlog n)

lemma Turned.of_eq (hlog : w'.log = w.log) (hholds : ∀ n, Holds w' n → Holds w n) :
    Turned w w' :=
  .of_log (fun _ h => List.cons_ne_self _ _ (h.symm.trans hlog)) hholds

lemma turned_callStep {k : ℕ} {c : Doorbell.Call} {io : Doorbell.CallIO}
    (hc : w.calls k = some c) (h : Doorbell.callStep w k c io = some w') : Turned w w' := by
  have hgone : Turned w (w.setCall k none) := .of_eq rfl fun _ => holds_setCall_none
  unfold Doorbell.callStep at h
  cases hstage : c.stage with
  | checking =>
      simp only [hstage] at h
      obtain ⟨st, -, rfl⟩ := Option.map_eq_some_iff.1 h
      split_ifs
      · exact hgone
      · refine .of_eq rfl fun n hn => ?_
        rcases holds_setCall_some hn with hn | ⟨attempt, hn | hn⟩
        · exact hn
        · cases hn
        · cases hn
  | minting =>
      simp only [hstage] at h
      obtain ⟨st, hst, h⟩ := Option.bind_eq_some_iff.1 h
      obtain ⟨⟨store, ok⟩, hupd, rfl⟩ := Option.map_eq_some_iff.1 h
      dsimp only
      split_ifs
      · refine ⟨fun n hn => ?_, fun n hn => ⟨st, hst, ?_⟩⟩
        · rcases holds_setCall_some hn with hn | ⟨attempt, hn | hn⟩
          · exact .inl hn
          · obtain ⟨rfl, -⟩ := Doorbell.Stage.sending.inj hn
            exact .inr rfl
          · cases hn
        · exact (Doorbell.Event.minted.inj (List.cons.inj hn).1).symm
      · exact .of_eq rfl fun n hn => holds_setCall_none (w := { w with store := store }) hn
  | sending token attempt =>
      simp only [hstage] at h
      split_ifs at h
      · obtain rfl := Option.some.inj h
        exact hgone
      · obtain rfl := Option.some.inj h
        refine .of_eq rfl fun n hn => ?_
        rcases holds_setCall_some hn with hn | ⟨attempt', hn | hn⟩
        · exact hn
        · cases hn
        · obtain ⟨rfl, -⟩ := Doorbell.Stage.waiting.inj hn
          exact ⟨k, c, attempt, hc, .inl hstage⟩
  | waiting token attempt =>
      simp only [hstage] at h
      obtain ⟨st, -, rfl⟩ := Option.map_eq_some_iff.1 h
      split_ifs
      · exact hgone
      · refine .of_eq rfl fun n hn => ?_
        rcases holds_setCall_some hn with hn | ⟨attempt', hn | hn⟩
        · exact hn
        · obtain ⟨rfl, -⟩ := Doorbell.Stage.sending.inj hn
          exact ⟨k, c, attempt, hc, .inr hstage⟩
        · cases hn

lemma turned_step (h : Doorbell.step coalesceMin w act = some w') : Turned w w' := by
  cases act with
  | start =>
      unfold Doorbell.step at h
      cases hcur : w.store.current with
      | some st => simp only [hcur, reduceCtorEq] at h
      | none =>
          simp only [hcur] at h
          obtain rfl := Option.some.inj h
          exact .of_eq rfl fun n hn => hn
  | stop =>
      obtain rfl := Option.some.inj h
      refine .of_eq rfl fun n hn => ?_
      obtain ⟨k, c, attempt, hc, -⟩ := hn
      cases hc
  | restore s =>
      obtain rfl := Option.some.inj h
      refine .of_log (fun n hn => ?_) fun n hn => hn
      cases (List.cons.inj hn).1
  | ring k now =>
      unfold Doorbell.step at h
      dsimp only at h
      split at h
      · split_ifs at h
        · obtain rfl := Option.some.inj h
          exact .of_eq rfl fun n hn => hn
        · obtain rfl := Option.some.inj h
          refine .of_eq rfl fun n hn => ?_
          rcases holds_setCall_some (w := { w with nextAllowed := _ }) hn with hn | ⟨attempt, hn | hn⟩
          · exact hn
          · cases hn
          · cases hn
      · cases h
  | proceed k io =>
      obtain ⟨c, hc, h⟩ := Option.bind_eq_some_iff.1 h
      exact turned_callStep hc h
  | commit hd io =>
      obtain ⟨⟨store, ok⟩, hupd, rfl⟩ := Option.map_eq_some_iff.1 h
      refine .of_log (fun n hn => ?_) fun n hn => hn
      dsimp only at hn
      split_ifs at hn
      · cases (List.cons.inj hn).1
      · exact List.cons_ne_self _ _ hn.symm
  | record e o =>
      obtain ⟨⟨store, ok⟩, hupd, rfl⟩ := Option.map_eq_some_iff.1 h
      exact .of_eq rfl fun n hn => hn

/-- What is handed to the carrier was in hand. -/
lemma holds_of_handed (h : n ∈ handed w act) : Holds w n := by
  unfold handed at h
  split at h
  next k io =>
    split at h
    next triggerAt token attempt hc =>
      obtain rfl := List.mem_singleton.1 h
      exact ⟨k, _, attempt, hc, .inl rfl⟩
    · cases h
  · cases h

/-- A sync that is committed leaves the counter at what was reported, or above. -/
lemma le_of_commit {hd : Post.Handler} {io : Post.HandlerIO} (hok : io.write.ok = true)
    (h : Doorbell.step coalesceMin w (.commit hd io) = some w') :
    ∃ st, w'.store = ⟨st, some st⟩ ∧ hd.pututuCounterSeen ≤ st.pututuCounter := by
  obtain ⟨⟨store, ok⟩, hupd, rfl⟩ := Option.map_eq_some_iff.1 h
  obtain ⟨st, -, ⟨-, -, rfl⟩ | ⟨ho, -⟩ | ⟨ho, -⟩⟩ := Store.update_cases hupd
  · refine ⟨_, rfl, ?_⟩
    exact (State.le_reconcilePututuCounter
      { st with lastSyncAt := hd.now, uidValidity := io.uidValidity, lastUID := io.lastUID }
      hd.pututuCounterSeen).2
  · rw [ho] at hok
    cases hok
  · rw [ho] at hok
    cases hok

lemma log_callStep {k : ℕ} {c : Doorbell.Call} {io : Doorbell.CallIO}
    (h : Doorbell.callStep w k c io = some w') :
    w'.log = w.log ∨ ∃ n, w'.log = .minted n :: w.log := by
  unfold Doorbell.callStep at h
  cases hstage : c.stage with
  | checking =>
      simp only [hstage] at h
      obtain ⟨st, -, rfl⟩ := Option.map_eq_some_iff.1 h
      left
      split_ifs <;> rfl
  | minting =>
      simp only [hstage] at h
      obtain ⟨st, -, h⟩ := Option.bind_eq_some_iff.1 h
      obtain ⟨⟨store, ok⟩, -, rfl⟩ := Option.map_eq_some_iff.1 h
      dsimp only
      split_ifs
      · exact .inr ⟨_, rfl⟩
      · exact .inl rfl
  | sending token attempt =>
      simp only [hstage] at h
      split_ifs at h <;> obtain rfl := Option.some.inj h <;> exact .inl rfl
  | waiting token attempt =>
      simp only [hstage] at h
      obtain ⟨st, -, rfl⟩ := Option.map_eq_some_iff.1 h
      left
      split_ifs <;> rfl

/-- The log says that the file was replaced only where it was. -/
lemma restore_of_log (h : Doorbell.step coalesceMin w act = some w')
    (hlog : w'.log = .restored :: w.log) : ∃ s, act = .restore s := by
  have hsame : w'.log ≠ w.log := fun heq => List.cons_ne_self _ _ (hlog.symm.trans heq)
  cases act with
  | restore s => exact ⟨s, rfl⟩
  | start =>
      unfold Doorbell.step at h
      cases hcur : w.store.current with
      | some st => simp only [hcur, reduceCtorEq] at h
      | none =>
          simp only [hcur] at h
          obtain rfl := Option.some.inj h
          exact absurd rfl hsame
  | stop =>
      obtain rfl := Option.some.inj h
      exact absurd rfl hsame
  | ring k now =>
      unfold Doorbell.step at h
      dsimp only at h
      split at h
      · split_ifs at h <;> obtain rfl := Option.some.inj h <;> exact absurd rfl hsame
      · cases h
  | proceed k io =>
      obtain ⟨c, -, h⟩ := Option.bind_eq_some_iff.1 h
      rcases log_callStep h with heq | ⟨n, hminted⟩
      · exact absurd heq hsame
      · cases (List.cons.inj (hlog.symm.trans hminted)).1
  | commit hd io =>
      obtain ⟨⟨store, ok⟩, -, rfl⟩ := Option.map_eq_some_iff.1 h
      dsimp only at hlog hsame
      split_ifs at hlog hsame
      · cases (List.cons.inj hlog).1
      · exact absurd rfl hsame
  | record e o =>
      obtain ⟨⟨store, ok⟩, -, rfl⟩ := Option.map_eq_some_iff.1 h
      exact absurd rfl hsame

/-- Only a stop ends the process. -/
lemma stop_of_current (h : Doorbell.step coalesceMin w act = some w')
    (hnone : w'.store.current = none) : act = .stop ∨ w.store.current = none := by
  have hupdate : ∀ {f o store ok}, w.store.update f o = some (store, ok) →
      store.current = none → w.store.current = none := by
    intro f o store ok hupd hstore
    obtain ⟨st, hst, ⟨-, -, rfl⟩ | ⟨-, -, rfl⟩ | ⟨-, -, rfl⟩⟩ := Store.update_cases hupd
    · exact absurd hstore (Option.some_ne_none _)
    · exact hstore
    · exact hstore
  cases act with
  | stop => exact .inl rfl
  | start =>
      unfold Doorbell.step at h
      cases hcur : w.store.current with
      | some st => simp only [hcur, reduceCtorEq] at h
      | none => exact .inr rfl
  | restore s =>
      obtain rfl := Option.some.inj h
      exact .inr hnone
  | ring k now =>
      unfold Doorbell.step at h
      dsimp only at h
      split at h
      · split_ifs at h <;> obtain rfl := Option.some.inj h <;> exact .inr hnone
      · cases h
  | proceed k io =>
      obtain ⟨c, -, h⟩ := Option.bind_eq_some_iff.1 h
      unfold Doorbell.callStep at h
      cases hstage : c.stage with
      | checking =>
          simp only [hstage] at h
          obtain ⟨st, -, rfl⟩ := Option.map_eq_some_iff.1 h
          split_ifs at hnone <;> exact .inr hnone
      | minting =>
          simp only [hstage] at h
          obtain ⟨st, -, h⟩ := Option.bind_eq_some_iff.1 h
          obtain ⟨⟨store, ok⟩, hupd, rfl⟩ := Option.map_eq_some_iff.1 h
          dsimp only at hnone
          split_ifs at hnone <;> exact .inr (hupdate hupd hnone)
      | sending token attempt =>
          simp only [hstage] at h
          split_ifs at h <;> obtain rfl := Option.some.inj h <;> exact .inr hnone
      | waiting token attempt =>
          simp only [hstage] at h
          obtain ⟨st, -, rfl⟩ := Option.map_eq_some_iff.1 h
          split_ifs at hnone <;> exact .inr hnone
  | commit hd io =>
      obtain ⟨⟨store, ok⟩, hupd, rfl⟩ := Option.map_eq_some_iff.1 h
      exact .inr (hupdate hupd hnone)
  | record e o =>
      obtain ⟨⟨store, ok⟩, hupd, rfl⟩ := Option.map_eq_some_iff.1 h
      exact .inr (hupdate hupd hnone)

end Server

/-! ## The two ends -/

section Ends

variable {hmac : Bytes → Bytes → Vector (Fin 256) 32} {d : Deps} {coalesceMin : ℤ} {w w' : World}
  {act : Act} {n : ℕ}

/-- A token is about, or was since `state.json` was replaced. -/
def World.About (w : World) (n : ℕ) : Prop := n ∈ w.air ∨ Holds w.server n

/-- The server's counter has reached a number, in its file and in memory. -/
def Reached (w : Doorbell.World) (n : ℕ) : Prop :=
  n ≤ w.store.file.pututuCounter ∧ ∀ st ∈ w.store.current, n ≤ st.pututuCounter

/-- What holds however the two ends have come to where they are. -/
structure Sound (hmac : Bytes → Bytes → Vector (Fin 256) 32) (d : Deps) (w : World) : Prop where
  stopped : w.server.store.current = none → ∀ n, ¬ Holds w.server n
  about : ∀ n, w.About n → .minted n ∈ w.server.log ∧ Reached w.server n
  level : w.level = true → Reached w.server w.watch.door.highWater
  accepted : ∀ x ∈ w.watch.accepted, .minted x.2 ∈ w.server.log
  guarded : Pututu.Guarded hmac d 0 w.watch

/-- What the counter has reached it does not fall behind of, but for a restore. -/
lemma Reached.kept {w w' : Doorbell.World} (h : Reached w n) (hkept : Doorbell.Kept w w')
    (hlog : w'.log ≠ .restored :: w.log) : Reached w' n := by
  cases hkept with
  | same hfile hcur hlog' =>
      refine ⟨hfile ▸ h.1, fun st hst => ?_⟩
      rcases hcur st hst with hst | rfl
      · exact h.2 st hst
      · exact h.1
  | raised st st' hst hle hstore hlog' =>
      have hreached := le_trans (h.2 st hst) hle
      rcases hstore with hstore | hstore
      · rw [Reached, hstore]
        exact ⟨hreached, fun s hs => Option.some.inj hs ▸ hreached⟩
      · rw [Reached, hstore]
        exact ⟨hreached, h.2⟩
  | noted st st' e hst hle hfloor hminted hstore hlog' =>
      have hreached := le_trans (h.2 st hst) hle
      rw [Reached, hstore]
      exact ⟨hreached, fun s hs => Option.some.inj hs ▸ hreached⟩
  | restored s hstore hlog' => exact absurd hlog' hlog

/-- A token is minted with a counter that the server's has then. -/
lemma reached_of_minted {w w' : Doorbell.World} (hkept : Doorbell.Kept w w')
    (hlog : w'.log = .minted n :: w.log) : Reached w' n := by
  cases hkept with
  | same hfile hcur hlog' => exact absurd (hlog.symm.trans hlog') (List.cons_ne_self _ _)
  | raised st st' hst hle hstore hlog' =>
      exact absurd (hlog.symm.trans hlog') (List.cons_ne_self _ _)
  | noted st st' e hst hle hfloor hminted hstore hlog' =>
      obtain rfl := (List.cons.inj (hlog.symm.trans hlog')).1
      rw [Reached, hstore]
      exact ⟨hfloor, fun s hs => Option.some.inj hs ▸ hfloor⟩
  | restored s hstore hlog' => cases (List.cons.inj (hlog.symm.trans hlog')).1

/-- The log only grows. -/
lemma mem_log_of_kept {w w' : Doorbell.World} {e : Doorbell.Event} (hkept : Doorbell.Kept w w')
    (he : e ∈ w.log) : e ∈ w'.log := by
  cases hkept with
  | same hfile hcur hlog => exact hlog ▸ he
  | raised st st' hst hle hstore hlog => exact hlog ▸ he
  | noted st st' e' hst hle hfloor hminted hstore hlog => exact hlog ▸ List.mem_cons_of_mem _ he
  | restored s hstore hlog => exact hlog ▸ List.mem_cons_of_mem _ he

lemma highWater_verifyToken (s : Pututu.Doorstep) (o : WriteOutcome) (counter : ℕ) (mac : Bytes) :
    (Pututu.verifyToken hmac d s o counter mac).2.highWater = s.highWater ∨
      mac = Pututu.computeMAC hmac counter d.hmacKey ∧ s.highWater < counter ∧
        (Pututu.verifyToken hmac d s o counter mac).2.highWater = counter := by
  unfold Pututu.verifyToken
  by_cases hmac' : Pututu.equals mac (Pututu.computeMAC hmac counter d.hmacKey) = false
  · rw [if_pos hmac']
    exact .inl rfl
  rw [if_neg hmac']
  have hauthentic := Pututu.equals_iff.1 (Bool.not_eq_false _ ▸ hmac')
  split_ifs with hcounters hstale
  · exact .inl rfl
  · exact .inl rfl
  all_goals first
    | exact .inl rfl
    | exact .inr ⟨hauthentic, not_le.1 hstale, rfl⟩

/-- A message raises the device's counter only to that of the token it is. -/
lemma highWater_verify (s : Pututu.Doorstep) (ms : ℤ) (o : WriteOutcome) (body : Bytes) :
    (verify hmac d s ms o body).2.highWater = s.highWater ∨ ∃ c : Counter, s.highWater < c ∧
      body = token hmac c d.hmacKey ∧ (verify hmac d s ms o body).2.highWater = c := by
  unfold verify
  split_ifs
  · exact .inl rfl
  cases hsplit : Pututu.split body with
  | none => exact .inl rfl
  | some parts =>
      obtain ⟨counter, mac⟩ := parts
      obtain ⟨hmax, -, -, hbody⟩ := Pututu.split_eq_some.1 hsplit
      rcases @highWater_verifyToken hmac d
        (Pututu.recordWake d s (Pututu.now d ms)) o counter mac with hsame | ⟨hmac', hlt, hstored⟩
      · exact .inl hsame
      · have hword : counter < 2 ^ 64 := lt_of_le_of_lt hmax (by decide)
        refine .inr ⟨⟨counter, hword⟩, hlt, ?_, hstored⟩
        rw [Pututu.token_eq, hbody, hmac']

/-- Where a token arrives as the network brings them, the device's counter stays what it was or
becomes that of a token that is about. -/
lemma highWater_device {ring : Pututu.Ring} {watch : Watch} (hcarried : Carried hmac d w (.device ring))
    (h : Pututu.step hmac d w.watch ring = some watch) :
    watch.door.highWater = w.watch.door.highWater ∨ watch.door.highWater ∈ w.air := by
  have hverify : ∀ body ms o, body ∈ heard ring →
      (verify hmac d w.watch.door ms o body).2.highWater = w.watch.door.highWater ∨
        (verify hmac d w.watch.door ms o body).2.highWater ∈ w.air := by
    intro body ms o hbody
    rcases @highWater_verify hmac d w.watch.door ms o body with
      hsame | ⟨c, hlt, htoken, hstored⟩
    · exact .inl hsame
    · rcases hcarried body hbody c htoken with hair | hpast
      · exact .inr (hstored ▸ hair)
      · exact absurd hlt (not_lt.2 hpast)
  cases ring with
  | sms body ms o =>
      obtain rfl := Option.some.inj h
      exact hverify body ms o rfl
  | unheard body ms o =>
      obtain rfl := Option.some.inj h
      exact hverify body ms o rfl
  | boot kept =>
      obtain rfl := Option.some.inj h
      exact .inl rfl

/-- What the device has newly accepted it has accepted as its counter. -/
lemma mem_accepted_step {ring : Pututu.Ring} {watch : Watch} {x : Bytes × ℕ}
    (h : Pututu.step hmac d w.watch ring = some watch) (hx : x ∈ watch.accepted) :
    x ∈ w.watch.accepted ∨
      x.2 = watch.door.highWater ∧ w.watch.door.highWater < watch.door.highWater := by
  cases ring with
  | sms body ms o =>
      obtain rfl := Option.some.inj h
      dsimp only at hx ⊢
      rcases Pututu.verify_cases hmac d w.watch.door ms o body with
        ⟨hnot, -, -⟩ | ⟨hyes, -, -, -, c, hlt, -, hstored⟩
      · rw [if_neg hnot] at hx
        exact .inl hx
      · rw [if_pos hyes] at hx
        rcases List.mem_cons.1 hx with rfl | hx
        · exact .inr ⟨rfl, hstored ▸ hlt⟩
        · exact .inl hx
  | unheard body ms o =>
      obtain rfl := Option.some.inj h
      exact .inl hx
  | boot kept =>
      obtain rfl := Option.some.inj h
      exact .inl hx

omit hmac d in
lemma below_of_small (h : w.Small) : w.server.Below := by
  unfold World.Small jsonLimit at h
  refine ⟨?_, fun st hst => ?_⟩
  · have hfile := h.2.1
    omega
  · have hcurrent := h.2.2 st hst
    omega

/-- While the server is stopped no call is under way. -/
lemma stopped_step {a : Doorbell.Act} {server : Doorbell.World}
    (hstopped : w.server.store.current = none → ∀ n, ¬ Holds w.server n)
    (h : Doorbell.step coalesceMin w.server a = some server) :
    server.store.current = none → ∀ n, ¬ Holds server n := by
  intro hnone n hn
  rcases stop_of_current h hnone with rfl | hbefore
  · obtain rfl := Option.some.inj h
    obtain ⟨k, c, attempt, hc, -⟩ := hn
    cases hc
  · have hturned := turned_step h
    rcases hturned.holds n hn with hn | hminted
    · exact hstopped hbefore n hn
    · obtain ⟨st, hst, -⟩ := hturned.minted n hminted
      rw [hbefore] at hst
      exact Option.not_mem_none st hst

/-- The ends become level with a sync that reports what the device has. -/
lemma reached_of_level {a : Doorbell.Act} {server : Doorbell.World} (hsmall : w.Small)
    (hbefore : ¬ w.level = true) (hlevel : w.levelAfter a = true)
    (h : Doorbell.step coalesceMin w.server a = some server) :
    Reached server w.watch.door.highWater := by
  unfold World.levelAfter at hlevel
  split at hlevel
  next hd io =>
    rw [Bool.or_eq_true, Bool.and_eq_true] at hlevel
    obtain ⟨hok, hseen⟩ := hlevel.resolve_left hbefore
    obtain ⟨st, hstore, hle⟩ := le_of_commit hok h
    have hplain : Codec.PlainCounter w.watch.door.highWater := .inl hsmall.1
    have hlimit : w.watch.door.highWater < 2 ^ 53 := lt_trans hsmall.1 (by decide)
    have hreport := (Codec.seenCounter_eq_iff hlimit).2 hplain
    rw [of_decide_eq_true hseen] at hreport
    have heq : hd.pututuCounterSeen = w.watch.door.highWater := by
      exact_mod_cast Option.some.inj hreport
    rw [Reached, hstore, ← heq]
    exact ⟨hle, fun s hs => Option.some.inj hs ▸ hle⟩
  next => exact absurd hlevel Bool.false_ne_true
  next => exact absurd hlevel hbefore

lemma Sound.server {a : Doorbell.Act} {server : Doorbell.World} (hw : Sound hmac d w)
    (hsmall : w.Small) (hpossible : w.Possible a)
    (h : Doorbell.step coalesceMin w.server a = some server) :
    Sound hmac d
      { w with server := server, air := w.airAfter a, level := w.levelAfter a } := by
  have hkept := Doorbell.step_kept (below_of_small hsmall) h
  have hturned := turned_step h
  have haccepted : ∀ x ∈ w.watch.accepted, .minted x.2 ∈ server.log :=
    fun x hx => mem_log_of_kept hkept (hw.accepted x hx)
  by_cases hrestore : ∃ s, a = .restore s
  · obtain ⟨s, rfl⟩ := hrestore
    have hstopped : w.server.store.current = none := hpossible
    obtain rfl := Option.some.inj h
    refine ⟨fun _ => hw.stopped hstopped, fun n hn => ?_, fun hlevel => ?_, haccepted, hw.guarded⟩
    · rcases hn with hn | hn
      · exact absurd hn List.not_mem_nil
      · exact absurd hn (hw.stopped hstopped n)
    · exact absurd hlevel Bool.false_ne_true
  · have hlog : server.log ≠ .restored :: w.server.log := fun hlog =>
      hrestore (restore_of_log h hlog)
    have hair : w.airAfter a = handed w.server a ++ w.air := by
      unfold World.airAfter
      split
      next s => exact absurd ⟨s, rfl⟩ hrestore
      · rfl
    refine ⟨stopped_step hw.stopped h, fun n hn => ?_, fun hlevel => ?_, haccepted, hw.guarded⟩
    · have hbefore : w.About n ∨ server.log = .minted n :: w.server.log := by
        rcases hn with hn | hn
        · dsimp only at hn
          rw [hair] at hn
          rcases List.mem_append.1 hn with hn | hn
          · exact .inl (.inr (holds_of_handed hn))
          · exact .inl (.inl hn)
        · rcases hturned.holds n hn with hn | hn
          · exact .inl (.inr hn)
          · exact .inr hn
      rcases hbefore with hn | hn
      · obtain ⟨hminted, hreached⟩ := hw.about n hn
        exact ⟨mem_log_of_kept hkept hminted, hreached.kept hkept hlog⟩
      · refine ⟨?_, reached_of_minted hkept hn⟩
        show _ ∈ server.log
        rw [hn]
        exact List.mem_cons_self
    · show Reached server w.watch.door.highWater
      by_cases hbefore : w.level = true
      · exact (hw.level hbefore).kept hkept hlog
      · exact reached_of_level hsmall hbefore hlevel h

lemma Sound.step (hw : Sound hmac d w) (hsmall : w.Small) (hcarried : Carried hmac d w act)
    (hstep : step hmac d coalesceMin w act = some w') : Sound hmac d w' := by
  cases act with
  | server a =>
      unfold BothEnds.step at hstep
      dsimp only at hstep
      split_ifs at hstep with hpossible
      obtain ⟨server, h, rfl⟩ := Option.map_eq_some_iff.1 hstep
      exact hw.server hsmall hpossible h
  | device ring =>
      obtain ⟨watch, h, rfl⟩ := Option.map_eq_some_iff.1 hstep
      refine ⟨hw.stopped, hw.about, fun hlevel => ?_, fun x hx => ?_, hw.guarded.step h⟩
      · rcases highWater_device hcarried h with hsame | hair
        · show Reached w.server watch.door.highWater
          rw [hsame]
          exact hw.level hlevel
        · exact (hw.about _ (.inl hair)).2
      · rcases mem_accepted_step h hx with hx | ⟨hcounter, hlt⟩
        · exact hw.accepted x hx
        · rcases highWater_device hcarried h with hsame | hair
          · exact absurd hlt (hsame ▸ lt_irrefl _)
          · rw [hcounter]
            exact (hw.about _ (.inl hair)).1
  | request =>
      obtain rfl := Option.some.inj hstep
      exact ⟨hw.stopped, hw.about, hw.level, hw.accepted, hw.guarded⟩

lemma World.Fresh.sound (h : w.Fresh) : Sound hmac d w := by
  obtain ⟨s, hserver⟩ := h.server
  have hnone : ∀ n, ¬ Holds w.server n := by
    rintro n ⟨k, c, attempt, hc, -⟩
    rw [hserver] at hc
    cases hc
  refine ⟨fun _ => hnone, fun n hn => ?_, fun _ => ?_, fun x hx => ?_, ?_⟩
  · rcases hn with hn | hn
    · rw [h.air] at hn
      exact absurd hn List.not_mem_nil
    · exact absurd hn (hnone n)
  · rw [h.highWater]
    exact ⟨Nat.zero_le _, fun _ _ => Nat.zero_le _⟩
  · rw [h.accepted] at hx
    exact absurd hx List.not_mem_nil
  · refine ⟨Nat.zero_le _, fun x hx => ?_, ?_, fun x hx => ?_⟩
    · rw [h.accepted] at hx
      exact absurd hx List.not_mem_nil
    · rw [h.accepted]
      exact List.Pairwise.nil
    · rw [h.accepted] at hx
      exact absurd hx List.not_mem_nil

namespace Sample

/-- A token is heard, an older file restored, the device reports what it heard, and the server is
about to mint the next token. -/
def acts : List Act :=
  [.server .start, .server (.ring 0 5), .server (.proceed 0 {}), .server (.proceed 0 {}),
    .server (.proceed 0 {}),
    .device (.sms (token Pututu.Sample.flatHmac (1 : UInt64).toFin
      Pututu.Sample.doorDeps.hmacKey) 60000 .done),
    .request, .server .stop, .server (.restore {}), .server .start,
    .server (.commit ⟨[], 500, 7, 1, .committing []⟩ {}), .server (.ring 0 8),
    .server (.proceed 0 {})]

def start : World where
  server := Doorbell.initial {}
  watch := ⟨⟨0, 0, 0⟩, []⟩

/-- The texts that arrive are tokens in the air. -/
def carries (w : World) : Act → Bool
  | .device ring =>
      (heard ring).all fun body => w.air.any fun n =>
        decide (body = token Pututu.Sample.flatHmac (UInt64.ofNat n).toFin
          Pututu.Sample.doorDeps.hmacKey ∧ n < 2 ^ 64)
  | .server _ | .request => true

lemma carried_of_carries {w : World} {act : Act} (h : carries w act = true) :
    Carried Pututu.Sample.flatHmac Pututu.Sample.doorDeps w act := by
  cases act with
  | server a => trivial
  | request => trivial
  | device ring =>
      intro body hbody c htoken
      unfold carries at h
      dsimp only at h
      rw [Option.mem_def.1 hbody, Option.all_some, List.any_eq_true] at h
      obtain ⟨n, hn, hsent⟩ := h
      obtain ⟨hsent, hword⟩ := of_decide_eq_true hsent
      have hc := Pututu.counter_of_token (htoken.symm.trans hsent)
      left
      rw [hc]
      show n % 2 ^ 64 ∈ w.air
      rw [Nat.mod_eq_of_lt hword]
      exact hn

end Sample

end Ends


end Chaskiwasi.BothEnds
