import Chaskiwasi.Lib.Run
import Chaskiwasi.Sim.State
import Chaskiwasi.Sim.Token

/-!
# The simulated device over a run

A `Device` composes letters, sends what is in its outbox with every sync, takes in the responses,
and takes the doorbell's tokens.  Nothing is saved by itself: what was not saved is gone at a
restart, and a reset wipes everything.  Syncs may overlap, so a response may arrive at any time.

Whatever happens, the ring of seen ids is the end of the list of the letters that the device has
taken in (`State.Exact`).  So a letter is taken in a second time only after a thousand others.
-/

namespace Chaskiwasi.Sim

open Pututu (Bytes)

def maxMoreRounds : ℕ := 10

/-- `PututuWakeRateLimit`, in nanoseconds. -/
def pututuWakeRateLimit : ℤ := 5 * 60 * second

/-- `protocol.Request`. -/
structure Request where
  cursor : String
  aylluVersion : ℕ
  pututuCounterSeen : ℕ
  outbound : List Outbound
  deriving DecidableEq, Repr

namespace State

variable (s : State)

def buildRequest : Request where
  cursor := s.cursor
  aylluVersion := s.aylluVersion
  pututuCounterSeen := s.pututuCounterSeen
  outbound := s.outbox

/-- A letter of a response. -/
def receive (letter : Letter) : State :=
  if s.hasSeen letter.id then s
  else
    let s' := s.markSeen letter.id
    { s' with letters := s'.letters ++ [letter] }

def applyAyllu (ayllu : Option Ayllu) : State :=
  match ayllu with
  | none => s
  | some a => { s with aylluVersion := a.version, ayllu := a.contacts }

def applyConfig (config : Option DeviceConfig) : State :=
  match config with
  | none => s
  | some c => { s with maxLetterChars := c.maxLetterChars }

/-- Every ack is terminal, whatever its status. -/
def takeAcks (acks : List Ack) : State :=
  let acked := acks.map Ack.localID
  { s with outbox := s.outbox.filter fun o => !acked.contains o.localID }

/-- `applyResponseLocked` -/
def applyResponse (resp : Codec.Response) : State :=
  let s' := State.takeAcks { s with cursor := resp.cursor } resp.acks
  ((resp.letters.foldl receive s').applyAyllu resp.ayllu).applyConfig resp.config

/-- The id is assigned where none is given. -/
def compose (contactID subject body localID : String) : Outbound × State :=
  let p := if localID = "" then s.nextLocalID else (localID, s)
  let letter : Outbound := ⟨p.1, contactID, subject, body⟩
  (letter, { p.2 with outbox := p.2.outbox ++ [letter] })

end State

/-- A letter is listed where its id is not among those seen. -/
def listNew (p : List String × List Letter) (l : Letter) : List String × List Letter :=
  if p.1.contains l.id then p else (p.1 ++ [l.id], p.2 ++ [l])

/-- The letters of a response that were not in the ring before it. -/
def newLetters (before : Saved) (resp : Codec.Response) : List Letter :=
  (resp.letters.foldl listNew (before.seenLetterIDs, [])).2

/-- What `AcceptPututu` reports. -/
structure PututuResult where
  valid : Bool := false
  accepted : Bool := false
  wouldWake : Bool := false
  counter : ℕ := 0
  deriving DecidableEq, Repr

/-- A token is accepted where its counter is above the stored one; whether it wakes the device is
another matter. -/
def State.acceptPututu (hmac : Bytes → Bytes → Vector (Fin 256) 32) (key text : Bytes) (now : ℤ)
    (s : State) : PututuResult × State :=
  match verifyPututuToken hmac key text with
  | none => ({}, s)
  | some counter =>
      if counter ≤ s.pututuCounterSeen then ({ valid := true, counter := counter }, s)
      else
        let wouldWake := s.lastPututuWakeAt.all fun last => decide (pututuWakeRateLimit ≤ now - last)
        ({ valid := true, accepted := true, wouldWake := wouldWake, counter := counter },
          { s with
            pututuCounterSeen := counter
            lastPututuWakeAt := if wouldWake then some now else s.lastPututuWakeAt })

/-- The rounds of one wake, each with a response or none. -/
def State.wake (answers : ℕ → Request → Option Codec.Response) :
    ℕ → State → State × List Codec.Response
  | 0, s => (s, [])
  | rounds + 1, s =>
      match answers (maxMoreRounds - (rounds + 1)) s.buildRequest with
      | none => (s, [])
      | some resp =>
          if resp.more then
            let p := State.wake answers rounds (s.applyResponse resp)
            (p.1, resp :: p.2)
          else (s.applyResponse resp, [resp])

/-! ## The ring is the end of the letters -/

section Ring

variable {s : State} {letter : Letter} {resp : Codec.Response}

/-- The seen ids are those of the newest letters, in their order. -/
structure State.Exact (s : State) : Prop extends s.Indexed where
  ring : s.seenLetterIDs =
    (s.letters.map Letter.id).drop (s.letters.length - seenLetterIDCap)

namespace State

lemma letters_markSeen (s : State) (id : String) : (s.markSeen id).letters = s.letters := by
  unfold markSeen
  split_ifs
  · rfl
  · rfl

lemma exact_fresh : freshState.Exact where
  toIndexed := indexed_fresh
  ring := rfl

lemma Exact.congr {s' : State} (hs : s.Exact) (hindex : s'.seenIndex = s.seenIndex)
    (hids : s'.seenLetterIDs = s.seenLetterIDs) (hletters : s'.letters = s.letters) :
    s'.Exact where
  index := by
    rw [hindex, hids]
    exact hs.index
  nodup := by
    rw [hids]
    exact hs.nodup
  size := by
    rw [hids]
    exact hs.size
  ring := by
    rw [hids, hletters]
    exact hs.ring

lemma receive_of_seen (h : s.hasSeen letter.id = true) : s.receive letter = s := if_pos h

lemma letters_receive (h : s.hasSeen letter.id = false) :
    (s.receive letter).letters = s.letters ++ [letter] := by
  unfold receive
  rw [h, if_neg Bool.false_ne_true]
  dsimp only
  rw [letters_markSeen]

lemma Exact.receive (hs : s.Exact) (letter : Letter) : (s.receive letter).Exact := by
  cases hseen : s.hasSeen letter.id with
  | true =>
      rw [receive_of_seen hseen]
      exact hs
  | false =>
      have hindexed := hs.toIndexed.markSeen letter.id
      have hlist := seenLetterIDs_markSeen hseen
      have hletters := letters_receive hseen
      have heq : s.receive letter =
          { s.markSeen letter.id with letters := s.letters ++ [letter] } := by
        unfold State.receive
        rw [hseen, if_neg Bool.false_ne_true]
        dsimp only
        rw [letters_markSeen]
      rw [heq]
      refine ⟨⟨hindexed.index, hindexed.nodup, hindexed.size⟩, ?_⟩
      show (s.markSeen letter.id).seenLetterIDs = _
      have hlen : (s.letters.map Letter.id).length = s.letters.length := List.length_map ..
      rw [hlist, hs.ring, ← hlen, Ring.push_drop, List.map_append, List.map_singleton,
        List.length_append, List.length_append, hlen]
      rfl

/-- Letters with one id stand more than a thousand places apart. -/
def Apart (s : State) : Prop :=
  ∀ i j, i < j → ∀ a ∈ s.letters[i]?, ∀ b ∈ s.letters[j]?, a.id = b.id → i + seenLetterIDCap < j

lemma Exact.apart_receive (hs : s.Exact) (hapart : s.Apart) (letter : Letter) :
    (s.receive letter).Apart := by
  cases hseen : s.hasSeen letter.id with
  | true =>
      rw [receive_of_seen hseen]
      exact hapart
  | false =>
      have hnew := hs.toIndexed.not_mem hseen
      rw [hs.ring] at hnew
      unfold Apart
      rw [letters_receive hseen]
      intro i j hij a ha b hb hid
      have hj : j < (s.letters ++ [letter]).length := (List.getElem?_eq_some_iff.1 hb).1
      rw [List.length_append, List.length_singleton] at hj
      have hi : i < s.letters.length := by omega
      rw [List.getElem?_append_left hi] at ha
      by_cases hlast : j < s.letters.length
      · rw [List.getElem?_append_left hlast] at hb
        exact hapart i j hij a ha b hb hid
      · obtain rfl : j = s.letters.length := by omega
        rw [List.getElem?_concat_length] at hb
        obtain rfl := Option.some.inj hb
        -- What is in the last thousand is in the ring.
        by_contra hnear
        refine hnew ?_
        rw [← hid, ← List.map_drop]
        refine List.mem_map_of_mem (List.mem_iff_getElem?.2 ?_)
        have hplace : s.letters.length - seenLetterIDCap +
            (i - (s.letters.length - seenLetterIDCap)) = i := by omega
        refine ⟨i - (s.letters.length - seenLetterIDCap), ?_⟩
        rw [List.getElem?_drop, hplace]
        exact ha

lemma exact_foldl_receive (letters : List Letter) (hs : s.Exact) (hapart : s.Apart) :
    (letters.foldl State.receive s).Exact ∧ (letters.foldl State.receive s).Apart := by
  induction letters generalizing s with
  | nil => exact ⟨hs, hapart⟩
  | cons letter letters ih => exact ih (hs.receive letter) (hs.apart_receive hapart letter)

lemma letters_applyAyllu (s : State) (ayllu : Option Ayllu) :
    (s.applyAyllu ayllu).letters = s.letters := by
  unfold applyAyllu
  cases ayllu with
  | none => rfl
  | some a => rfl

lemma letters_applyConfig (s : State) (config : Option DeviceConfig) :
    (s.applyConfig config).letters = s.letters := by
  unfold applyConfig
  cases config with
  | none => rfl
  | some c => rfl

lemma Exact.applyResponse (hs : s.Exact) (hapart : s.Apart) (resp : Codec.Response) :
    (s.applyResponse resp).Exact ∧ (s.applyResponse resp).Apart := by
  have hacks : (State.takeAcks { s with cursor := resp.cursor } resp.acks).Exact :=
    hs.congr rfl rfl rfl
  obtain ⟨hexact, hfar⟩ := exact_foldl_receive resp.letters hacks hapart
  constructor
  · unfold State.applyResponse State.applyAyllu State.applyConfig
    cases resp.ayllu with
    | none =>
        cases resp.config with
        | none => exact hexact
        | some c => exact hexact.congr rfl rfl rfl
    | some a =>
        cases resp.config with
        | none => exact hexact.congr rfl rfl rfl
        | some c => exact hexact.congr rfl rfl rfl
  · unfold Apart State.applyResponse
    rw [letters_applyConfig, letters_applyAyllu]
    exact hfar

end State

/-! ## What is new in a response -/

section New

variable {ids : List String} {out letters : List Letter}

lemma listNew_of_mem (h : letter.id ∈ ids) : listNew (ids, out) letter = (ids, out) :=
  if_pos (List.contains_iff_mem.2 h)

lemma listNew_of_not_mem (h : letter.id ∉ ids) :
    listNew (ids, out) letter = (ids ++ [letter.id], out ++ [letter]) :=
  if_neg fun hmem => h (List.contains_iff_mem.1 hmem)

lemma State.seenLetterIDs_receive (h : s.hasSeen letter.id = false) :
    (s.receive letter).seenLetterIDs = Ring.push seenLetterIDCap letter.id s.seenLetterIDs := by
  rw [← State.seenLetterIDs_markSeen h]
  unfold State.receive
  rw [h, if_neg Bool.false_ne_true]

/-- What is listed is taken in, in the same order, as long as the list knows all that the device
does. -/
lemma State.Exact.listed (hs : s.Exact) (hids : ∀ id ∈ s.seenLetterIDs, id ∈ ids) :
    ∃ new listed, (letters.foldl State.receive s).letters = s.letters ++ new ∧
      (letters.foldl listNew (ids, out)).2 = out ++ listed ∧ listed.Sublist new := by
  induction letters generalizing s ids out with
  | nil => exact ⟨[], [], (List.append_nil _).symm, (List.append_nil _).symm, List.Sublist.slnil⟩
  | cons letter letters ih =>
      rw [List.foldl_cons, List.foldl_cons]
      have hnext := hs.receive letter
      cases hseen : s.hasSeen letter.id with
      | true =>
          have hmem := hids _ ((hs.hasSeen_iff).1 hseen)
          rw [State.receive_of_seen hseen, listNew_of_mem hmem]
          exact ih hs hids
      | false =>
          have hletters := State.letters_receive hseen
          have hring := State.seenLetterIDs_receive hseen
          by_cases hmem : letter.id ∈ ids
          · rw [listNew_of_mem hmem]
            obtain ⟨new, listed, hnew, hlisted, hsub⟩ := @ih _ ids out hnext (by
              intro id hid
              rw [hring] at hid
              rcases Ring.mem_of_mem_push hid with hid | rfl
              · exact hids id hid
              · exact hmem)
            refine ⟨letter :: new, listed, ?_, hlisted, hsub.cons _⟩
            rw [hnew, hletters, List.append_assoc]
            rfl
          · rw [listNew_of_not_mem hmem]
            obtain ⟨new, listed, hnew, hlisted, hsub⟩ :=
              @ih _ (ids ++ [letter.id]) (out ++ [letter]) hnext (by
              intro id hid
              rw [hring] at hid
              rw [List.mem_append, List.mem_singleton]
              exact (Ring.mem_of_mem_push hid).imp_left (hids id))
            refine ⟨letter :: new, letter :: listed, ?_, ?_, hsub.cons_cons _⟩
            · rw [hnew, hletters, List.append_assoc]
              rfl
            · rw [hlisted, List.append_assoc]
              rfl

/-- Where nothing is dropped from the ring, what is taken in is what is listed. -/
lemma State.Exact.listed_of_room (hs : s.Exact) (hids : s.seenLetterIDs = ids)
    (hroom : ids.length + letters.length ≤ seenLetterIDCap) :
    ∃ new, (letters.foldl State.receive s).letters = s.letters ++ new ∧
      (letters.foldl listNew (ids, out)).2 = out ++ new := by
  induction letters generalizing s ids out with
  | nil => exact ⟨[], (List.append_nil _).symm, (List.append_nil _).symm⟩
  | cons letter letters ih =>
      rw [List.foldl_cons, List.foldl_cons]
      rw [List.length_cons] at hroom
      have hnext := hs.receive letter
      cases hseen : s.hasSeen letter.id with
      | true =>
          have hmem := hids ▸ hs.hasSeen_iff.1 hseen
          rw [State.receive_of_seen hseen, listNew_of_mem hmem]
          exact ih hs hids (by omega)
      | false =>
          have hnot := hids ▸ hs.toIndexed.not_mem hseen
          have hring : (s.receive letter).seenLetterIDs = ids ++ [letter.id] := by
            rw [State.seenLetterIDs_receive hseen, Ring.push_eq_drop, hids, List.length_append,
              List.length_singleton, Nat.sub_eq_zero_of_le (by omega), List.drop_zero]
          rw [listNew_of_not_mem hnot]
          obtain ⟨new, hnew, hlisted⟩ := @ih _ _ (out ++ [letter]) hnext hring (by
            rw [List.length_append, List.length_singleton]
            omega)
          refine ⟨letter :: new, ?_, ?_⟩
          · rw [hnew, State.letters_receive hseen, List.append_assoc]
            rfl
          · rw [hlisted, List.append_assoc]
            rfl

lemma State.Exact.newLetters (hs : s.Exact) (resp : Codec.Response) :
    ∃ new, (s.applyResponse resp).letters = s.letters ++ new ∧
      (newLetters s.toSaved resp).Sublist new ∧
      (s.seenLetterIDs.length + resp.letters.length ≤ seenLetterIDCap →
        newLetters s.toSaved resp = new) := by
  have hacks : (State.takeAcks { s with cursor := resp.cursor } resp.acks).Exact :=
    hs.congr rfl rfl rfl
  obtain ⟨new, listed, hnew, hlisted, hsub⟩ :=
    @State.Exact.listed _ s.seenLetterIDs [] resp.letters hacks fun _ h => h
  have happly : (s.applyResponse resp).letters = s.letters ++ new := by
    unfold State.applyResponse
    rw [State.letters_applyConfig, State.letters_applyAyllu]
    exact hnew
  have hlist : Sim.newLetters s.toSaved resp = listed := hlisted
  refine ⟨new, happly, hlist ▸ hsub, fun hroom => ?_⟩
  obtain ⟨new', hnew', hlisted'⟩ :=
    @State.Exact.listed_of_room _ _ [] resp.letters hacks rfl hroom
  have hsame := List.append_cancel_left (hnew'.symm.trans hnew)
  exact hsame ▸ hlisted'

end New
end Ring
end Chaskiwasi.Sim
