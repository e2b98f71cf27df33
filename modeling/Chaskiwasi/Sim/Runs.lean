import Chaskiwasi.Lib.Run
import Chaskiwasi.Sim.Device

/-!
# Runs of the simulated device

A run is any order of letters composed, responses, tokens, saves, restarts and resets; a restart
goes on from the file, whatever was saved last.  What is true of the ring is true in every run
(`takes_letters_once`).  What counts upwards (the ids that the device assigns, the counters of the
doorbell) does so where a restart finds what the device had, and it is not reset (`counts_upwards`).
-/

namespace Chaskiwasi.Sim

open Pututu (Bytes)

structure World where
  file : Option Saved := none
  state : State := freshState
  /-- The numbers of the ids that were assigned, the counters that were accepted and when the device
  was woken, newest first.  No procedure reads these. -/
  assigned : List ℕ := []
  accepted : List ℕ := []
  wakes : List ℤ := []

inductive Act
  | compose (contactID subject body localID : String)
  | respond (resp : Codec.Response)
  | sms (text : Bytes) (now : ℤ)
  | save (o : WriteOutcome)
  | reopen
  | reset

section Step

variable (hmac : Bytes → Bytes → Vector (Fin 256) 32) (key : Bytes)

def step (w : World) : Act → Option World
  | .compose contactID subject body localID =>
      some
        { w with
          state := (w.state.compose contactID subject body localID).2
          assigned :=
            if localID = "" then (w.state.outboxSeq + 1) :: w.assigned else w.assigned }
  | .respond resp => some { w with state := w.state.applyResponse resp }
  | .sms text now =>
      let r := w.state.acceptPututu hmac key text now
      some
        { w with
          state := r.2
          accepted := if r.1.accepted then r.1.counter :: w.accepted else w.accepted
          wakes := if r.1.wouldWake then now :: w.wakes else w.wakes }
  | .save o => some { w with file := if o.written then some w.state.toSaved else w.file }
  | .reopen => some { w with state := loadState w.file }
  | .reset => some { w with state := freshState }

end Step

namespace Sample

/-- A letter is composed and another taken in, the device is saved and restarted, and a token comes
twice. -/
def acts : List Act :=
  [.compose "c_1" "" "hello" "", .respond ⟨0, "c", 0, [], [⟨"l-1", "c_1", "", 0, "", false, false,
      false⟩], false, none, none⟩,
    .save .done, .reopen, .compose "c_1" "" "again" "",
    .sms (Pututu.token Pututu.Sample.flatHmac (9 : UInt64).toFin []) 0,
    .sms (Pututu.token Pututu.Sample.flatHmac (9 : UInt64).toFin []) (10 * 60 * second)]

end Sample

/-! ## Letters -/

section Letters

variable {hmac : Bytes → Bytes → Vector (Fin 256) 32} {key : Bytes} {w w' : World} {act : Act}
  {s : State}

/-- What the device has, and what a restart would make of the file. -/
structure Sound (w : World) : Prop where
  state : w.state.Exact ∧ w.state.Apart
  file : ∀ saved ∈ w.file, (loadState (some saved)).Exact ∧ (loadState (some saved)).Apart

lemma State.Exact.loadState (hs : s.Exact) : (loadState (some s.toSaved)).Exact where
  toIndexed := hs.toIndexed.loadState
  ring := hs.ring

lemma apart_fresh : freshState.Apart := by
  intro i j _ a ha
  cases ha

lemma State.compose_letters (s : State) (contactID subject body localID : String) :
    let s' := (s.compose contactID subject body localID).2
    s'.letters = s.letters ∧ s'.seenLetterIDs = s.seenLetterIDs ∧ s'.seenIndex = s.seenIndex := by
  unfold State.compose
  dsimp only
  split_ifs
  · exact ⟨rfl, rfl, rfl⟩
  · exact ⟨rfl, rfl, rfl⟩

/-- A token changes nothing, or it is the token of a counter above the stored one. -/
lemma State.acceptPututu_cases (hmac : Bytes → Bytes → Vector (Fin 256) 32) (key text : Bytes)
    (now : ℤ) (s : State) :
    let r := s.acceptPututu hmac key text now
    (r.1.accepted = false ∧ r.1.wouldWake = false ∧ r.2 = s) ∨
      (s.pututuCounterSeen < r.1.counter ∧ r.1.accepted = true ∧
        r.2 = { s with
          pututuCounterSeen := r.1.counter
          lastPututuWakeAt := if r.1.wouldWake then some now else s.lastPututuWakeAt } ∧
        (r.1.wouldWake = true → ∀ last ∈ s.lastPututuWakeAt, pututuWakeRateLimit ≤ now - last)) := by
  unfold State.acceptPututu
  cases verifyPututuToken hmac key text with
  | none => exact .inl ⟨rfl, rfl, rfl⟩
  | some counter =>
      dsimp only
      by_cases hstale : counter ≤ s.pututuCounterSeen
      · rw [if_pos hstale]
        exact .inl ⟨rfl, rfl, rfl⟩
      · rw [if_neg hstale]
        refine .inr ⟨not_le.1 hstale, rfl, rfl, fun hwake last hlast => ?_⟩
        dsimp only at hwake
        rw [Option.mem_def.1 hlast] at hwake
        exact of_decide_eq_true hwake

lemma Sound.step (hw : Sound w) (hstep : step hmac key w act = some w') : Sound w' := by
  obtain ⟨hexact, hapart⟩ := hw.state
  cases act with
  | compose contactID subject body localID =>
      obtain rfl := Option.some.inj hstep
      obtain ⟨hletters, hids, hindex⟩ := w.state.compose_letters contactID subject body localID
      refine ⟨⟨hexact.congr hindex hids hletters, ?_⟩, hw.file⟩
      unfold State.Apart
      rw [hletters]
      exact hapart
  | respond resp =>
      obtain rfl := Option.some.inj hstep
      exact ⟨hexact.applyResponse hapart resp, hw.file⟩
  | sms text now =>
      obtain rfl := Option.some.inj hstep
      rcases w.state.acceptPututu_cases hmac key text now with ⟨-, -, hsame⟩ | ⟨-, -, hnext, -⟩
      · rw [hsame]
        exact ⟨hw.state, hw.file⟩
      · rw [hnext]
        exact ⟨⟨hexact.congr rfl rfl rfl, hapart⟩, hw.file⟩
  | save o =>
      obtain rfl := Option.some.inj hstep
      refine ⟨hw.state, fun saved hsaved => ?_⟩
      dsimp only at hsaved
      split_ifs at hsaved with hwritten
      · obtain rfl := Option.some.inj hsaved
        exact ⟨hexact.loadState, hapart⟩
      · exact hw.file saved hsaved
  | reopen =>
      obtain rfl := Option.some.inj hstep
      refine ⟨?_, hw.file⟩
      show (loadState w.file).Exact ∧ (loadState w.file).Apart
      cases hfile : w.file with
      | none => exact ⟨State.exact_fresh, apart_fresh⟩
      | some saved => exact hw.file saved hfile
  | reset =>
      obtain rfl := Option.some.inj hstep
      exact ⟨⟨State.exact_fresh, apart_fresh⟩, hw.file⟩

lemma sound_initial : Sound {} := ⟨⟨State.exact_fresh, apart_fresh⟩, nofun⟩

/-- Every letter of a response was taken in, then or before. -/
lemma State.Exact.mem_foldl_receive (hs : s.Exact) {letters : List Letter} :
    (∀ l ∈ s.letters, l ∈ (letters.foldl State.receive s).letters) ∧
      ∀ l ∈ letters, l.id ∈ (letters.foldl State.receive s).letters.map Letter.id := by
  induction letters generalizing s with
  | nil => exact ⟨fun _ h => h, nofun⟩
  | cons letter letters ih =>
      obtain ⟨hkept, htaken⟩ := ih (hs.receive letter)
      rw [List.foldl_cons]
      have hmono : ∀ l ∈ s.letters, l ∈ (s.receive letter).letters := by
        intro l hl
        cases hseen : s.hasSeen letter.id with
        | true =>
            rw [State.receive_of_seen hseen]
            exact hl
        | false =>
            rw [State.letters_receive hseen]
            exact List.mem_append_left _ hl
      refine ⟨fun l hl => hkept l (hmono l hl), fun l hl => ?_⟩
      rcases List.mem_cons.1 hl with rfl | hl
      · have hhere : l.id ∈ (s.receive l).letters.map Letter.id := by
          cases hseen : s.hasSeen l.id with
          | true =>
              have hmem := hs.hasSeen_iff.1 hseen
              rw [hs.ring] at hmem
              rw [State.receive_of_seen hseen]
              exact List.mem_of_mem_drop hmem
          | false =>
              rw [State.letters_receive hseen]
              exact List.mem_map_of_mem (List.mem_append_right _ (List.mem_singleton_self l))
        obtain ⟨l', hl', hid⟩ := List.mem_map.1 hhere
        rw [← hid]
        exact List.mem_map_of_mem (hkept l' hl')
      · exact htaken l hl

end Letters

/-! ## Numbers -/

section Numbers

/-- A restart finds what the device had, and nothing resets it. -/
def Careful (w : World) : Act → Prop
  | .reopen => w.file = some w.state.toSaved
  | .reset => False
  | .compose .. | .respond _ | .sms .. | .save _ => True

instance (w : World) : ∀ act, Decidable (Careful w act)
  | .reopen => inferInstanceAs (Decidable (w.file = some w.state.toSaved))
  | .reset => inferInstanceAs (Decidable False)
  | .compose .. | .respond _ | .sms .. | .save _ => inferInstanceAs (Decidable True)

/-- The state is ahead of all that was counted. -/
structure Counts (w : World) : Prop where
  assigned : ∀ n ∈ w.assigned, n ≤ w.state.outboxSeq
  rising : w.assigned.Pairwise (· > ·)
  accepted : ∀ n ∈ w.accepted, n ≤ w.state.pututuCounterSeen
  counters : w.accepted.Pairwise (· > ·)
  wakes : ∀ t ∈ w.wakes, ∃ last ∈ w.state.lastPututuWakeAt, t ≤ last
  apart : w.wakes.Pairwise fun later earlier => pututuWakeRateLimit ≤ later - earlier

/-- What a response leaves alone. -/
structure State.SameCounts (s s' : State) : Prop where
  outboxSeq : s'.outboxSeq = s.outboxSeq
  seen : s'.pututuCounterSeen = s.pututuCounterSeen
  wake : s'.lastPututuWakeAt = s.lastPututuWakeAt

lemma State.sameCounts_receive (s : State) (letter : Letter) :
    s.SameCounts (s.receive letter) := by
  unfold State.receive State.markSeen
  split_ifs
  · exact ⟨rfl, rfl, rfl⟩
  · exact ⟨rfl, rfl, rfl⟩
  · exact ⟨rfl, rfl, rfl⟩

lemma State.sameCounts_applyResponse (s : State) (resp : Codec.Response) :
    s.SameCounts (s.applyResponse resp) := by
  have hfold : ∀ (letters : List Letter) (t : State), s.SameCounts t →
      s.SameCounts (letters.foldl State.receive t) := by
    intro letters
    induction letters with
    | nil => exact fun _ h => h
    | cons letter letters ih =>
        intro t ht
        obtain ⟨hseq, hseen, hwake⟩ := t.sameCounts_receive letter
        exact ih _ ⟨hseq.trans ht.outboxSeq, hseen.trans ht.seen, hwake.trans ht.wake⟩
  obtain ⟨hseq, hseen, hwake⟩ := hfold resp.letters
    (State.takeAcks { s with cursor := resp.cursor } resp.acks) ⟨rfl, rfl, rfl⟩
  unfold State.applyResponse State.applyAyllu State.applyConfig
  cases resp.ayllu with
  | none =>
      cases resp.config with
      | none => exact ⟨hseq, hseen, hwake⟩
      | some c => exact ⟨hseq, hseen, hwake⟩
  | some a =>
      cases resp.config with
      | none => exact ⟨hseq, hseen, hwake⟩
      | some c => exact ⟨hseq, hseen, hwake⟩

variable {hmac : Bytes → Bytes → Vector (Fin 256) 32} {key : Bytes} {w w' : World} {act : Act}
  {s' : State}

lemma Counts.congr (hw : Counts w) (hsame : w.state.SameCounts s') (file : Option Saved) :
    Counts { w with state := s', file := file } where
  assigned := fun n hn => hsame.outboxSeq ▸ hw.assigned n hn
  rising := hw.rising
  accepted := fun n hn => hsame.seen ▸ hw.accepted n hn
  counters := hw.counters
  wakes := fun t ht => hsame.wake ▸ hw.wakes t ht
  apart := hw.apart

lemma Counts.compose (hw : Counts w) (contactID subject body id : String) :
    Counts
      { w with
        state := (w.state.compose contactID subject body id).2
        assigned := if id = "" then (w.state.outboxSeq + 1) :: w.assigned else w.assigned } := by
  unfold State.compose
  by_cases hid : id = ""
  · rw [if_pos hid, if_pos hid]
    refine ⟨?_, ?_, hw.accepted, hw.counters, hw.wakes, hw.apart⟩
    · intro n hn
      show n ≤ w.state.outboxSeq + 1
      rcases List.mem_cons.1 hn with rfl | hn
      · exact le_refl _
      · exact (hw.assigned n hn).trans (Nat.le_succ _)
    · exact List.pairwise_cons.2
        ⟨fun n hn => Nat.lt_succ_of_le (hw.assigned n hn), hw.rising⟩
  · rw [if_neg hid, if_neg hid]
    exact ⟨hw.assigned, hw.rising, hw.accepted, hw.counters, hw.wakes, hw.apart⟩

lemma Counts.sms (hw : Counts w) (text : Bytes) (now : ℤ) :
    let r := w.state.acceptPututu hmac key text now
    Counts
      { w with
        state := r.2
        accepted := if r.1.accepted then r.1.counter :: w.accepted else w.accepted
        wakes := if r.1.wouldWake then now :: w.wakes else w.wakes } := by
  intro r
  rcases w.state.acceptPututu_cases hmac key text now with
    ⟨hnot, hasleep, hsame⟩ | ⟨hnew, haccepted, hnext, hlimit⟩
  · rw [hnot, hasleep, hsame, if_neg Bool.false_ne_true, if_neg Bool.false_ne_true]
    exact ⟨hw.assigned, hw.rising, hw.accepted, hw.counters, hw.wakes, hw.apart⟩
  · rw [haccepted, if_pos rfl, hnext]
    refine ⟨hw.assigned, hw.rising, ?_, ?_, ?_, ?_⟩
    · intro n hn
      show n ≤ r.1.counter
      rcases List.mem_cons.1 hn with rfl | hn
      · exact le_refl _
      · exact (hw.accepted n hn).trans hnew.le
    · exact List.pairwise_cons.2 ⟨fun n hn => (hw.accepted n hn).trans_lt hnew, hw.counters⟩
    · show ∀ t ∈ (if r.1.wouldWake then now :: w.wakes else w.wakes),
        ∃ last ∈ (if r.1.wouldWake then some now else w.state.lastPututuWakeAt), t ≤ last
      cases hwake : r.1.wouldWake with
      | false => exact hw.wakes
      | true =>
          intro t ht
          refine ⟨now, rfl, ?_⟩
          rcases List.mem_cons.1 ht with rfl | ht
          · exact le_refl _
          · obtain ⟨last, hlast, hle⟩ := hw.wakes t ht
            have hfar := hlimit hwake last hlast
            have hpos : 0 ≤ pututuWakeRateLimit := by decide
            omega
    · cases hwake : r.1.wouldWake with
      | false => exact hw.apart
      | true =>
          refine List.pairwise_cons.2 ⟨fun t ht => ?_, hw.apart⟩
          obtain ⟨last, hlast, hle⟩ := hw.wakes t ht
          have hfar := hlimit hwake last hlast
          omega

lemma Counts.step (hw : Counts w) (hcareful : Careful w act)
    (hstep : step hmac key w act = some w') : Counts w' := by
  cases act with
  | compose contactID subject body id =>
      obtain rfl := Option.some.inj hstep
      exact hw.compose contactID subject body id
  | respond resp =>
      obtain rfl := Option.some.inj hstep
      exact hw.congr (w.state.sameCounts_applyResponse resp) w.file
  | sms text now =>
      obtain rfl := Option.some.inj hstep
      exact hw.sms text now
  | save o =>
      obtain rfl := Option.some.inj hstep
      have hsame : w.state.SameCounts w.state := ⟨rfl, rfl, rfl⟩
      exact hw.congr hsame _
  | reopen =>
      obtain rfl := Option.some.inj hstep
      apply hw.congr
      rw [show w.file = some w.state.toSaved from hcareful]
      exact ⟨rfl, rfl, rfl⟩
  | reset => exact absurd hcareful id

lemma counts_initial : Counts {} where
  assigned := nofun
  rising := List.Pairwise.nil
  accepted := nofun
  counters := List.Pairwise.nil
  wakes := nofun
  apart := List.Pairwise.nil

/-- In every run in which each restart finds what the device had, and that has no reset, the device
assigns no id twice, accepts counters in rising order alone, and is woken by no two tokens within
five minutes. -/
theorem counts_upwards (hmac : Bytes → Bytes → Vector (Fin 256) 32) (key : Bytes)
    (acts : List Act) (w : World) (hcareful : Run.Meets (step hmac key) Careful {} acts)
    (hrun : Run.run (step hmac key) {} acts = some w) :
    (w.assigned.map localID).Nodup ∧ w.accepted.Pairwise (· > ·) ∧
      w.wakes.Pairwise fun later earlier => pututuWakeRateLimit ≤ later - earlier := by
  have hcounts : Counts w :=
    Run.run_invariant_of_meets (fun _ _ _ hw hC hstep => hw.step hC hstep) counts_initial
      hcareful hrun
  refine ⟨?_, hcounts.counters, hcounts.apart⟩
  have hnodup : w.assigned.Nodup := hcounts.rising.imp fun hlt => ne_of_gt hlt
  exact hnodup.map localID_injective

theorem counts_upwards_acts : ∃ w,
    Run.run (step Pututu.Sample.flatHmac []) {} Sample.acts = some w ∧
      w.assigned = [2, 1] ∧ w.accepted = [9] ∧ (w.assigned.map localID).Nodup := by
  have hcareful : Run.Meets (step Pututu.Sample.flatHmac []) Careful {} Sample.acts := by
    decide +kernel
  have heval : ((Run.run (step Pututu.Sample.flatHmac []) {} Sample.acts).any fun w =>
      decide (w.assigned = [2, 1] ∧ w.accepted = [9])) = true := by
    decide +kernel
  obtain ⟨w, hrun, hboth⟩ := Run.exists_of_any heval
  obtain ⟨hassigned, haccepted⟩ := of_decide_eq_true hboth
  exact ⟨w, hrun, hassigned, haccepted,
    (counts_upwards Pututu.Sample.flatHmac [] Sample.acts w hcareful hrun).1⟩

end Numbers

/-! ## A wake -/

section Wake

variable (hmac : Bytes → Bytes → Vector (Fin 256) 32) (key : Bytes)

/-- A wake is a run of the responses of its rounds, each but the last of which says that there is
more. -/
lemma run_wake (answers : ℕ → Request → Option Codec.Response) (rounds : ℕ) (w : World) :
    let r := w.state.wake answers rounds
    Run.run (step hmac key) w (r.2.map .respond) = some { w with state := r.1 } ∧
      r.2.length ≤ rounds ∧ ∀ resp ∈ r.2.dropLast, resp.more = true := by
  induction rounds generalizing w with
  | zero => exact ⟨rfl, le_refl _, nofun⟩
  | succ rounds ih =>
      intro r
      have hr : r = w.state.wake answers (rounds + 1) := rfl
      unfold State.wake at hr
      cases hanswer : answers (maxMoreRounds - (rounds + 1)) w.state.buildRequest with
      | none =>
          rw [hanswer] at hr
          rw [hr]
          exact ⟨rfl, Nat.zero_le _, nofun⟩
      | some resp =>
          rw [hanswer] at hr
          cases hmore : resp.more with
          | false =>
              dsimp only at hr
              rw [hmore, if_neg Bool.false_ne_true] at hr
              rw [hr]
              exact ⟨rfl, Nat.succ_le_succ (Nat.zero_le _), nofun⟩
          | true =>
              dsimp only at hr
              rw [hmore, if_pos rfl] at hr
              obtain ⟨hrun, hlen, hall⟩ := ih { w with state := w.state.applyResponse resp }
              rw [hr]
              refine ⟨Run.run_cons_eq_some.2 ⟨_, rfl, hrun⟩, Nat.succ_le_succ hlen, ?_⟩
              intro resp' hresp'
              dsimp only at hresp' hall
              cases hrest : (State.wake answers rounds (w.state.applyResponse resp)).2 with
              | nil =>
                  rw [hrest] at hresp'
                  exact absurd hresp' List.not_mem_nil
              | cons next rest =>
                  rw [hrest] at hresp' hall
                  rw [List.dropLast_cons_cons] at hresp'
                  rcases List.mem_cons.1 hresp' with rfl | hresp'
                  · exact hmore
                  · exact hall resp' hresp'

end Wake

end Chaskiwasi.Sim
