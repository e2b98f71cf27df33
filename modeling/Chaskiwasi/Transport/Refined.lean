import Chaskiwasi.Transport.Cable
import Mathlib.Data.List.InsertIdx

/-!
# The cable and the link of frames

The link is about frames that arrive whole and in order or not at all; the cable is about bytes.
Where no frame is cut, every run of the cable is one of the link (`cable_refines_wire`): what the
control channel reads is lost to the link, and so is all that is under way when the device starts
again.
-/

namespace Chaskiwasi.Transport.Cable

/-- The link as the ends see it: the same numbers, requests and results, and the frames where they
lie. -/
structure Carries (c : Cable) (w : Wire) : Prop where
  authorization : w.authorization = c.authorization
  seq : w.seq = c.seq
  waiting : w.waiting.map (·.seq) = c.waiting.map (·.seq)
  exchanges : w.exchanges.map (·.request) = c.exchanges
  returned : w.returned.map (·.result) = c.returned.map Prod.snd
  lies : Lies c (w.toHost.map (·.frame)) (w.decoder.map (·.frame)) (w.toDevice.map (·.frame))

/-- The link has a run to what the cable carries. -/
def Followed (w : Wire) (c : Cable) : Prop :=
  ∃ as w', Run.run Wire.step w as = some w' ∧ Carries c w'

section Refinement

variable {c} {c' : Cable} {w : Wire} {a : Act}

lemma carries_start (authorization : Bytes) :
    Carries (start authorization) (Wire.start authorization) :=
  ⟨rfl, rfl, rfl, rfl, rfl, lies_start authorization⟩

/-- The link loses what the control channel reads. -/
lemma run_loseToDevice (w : Wire) (n : ℕ) :
    Run.run Wire.step w (List.replicate n (.loseToDevice 0)) =
      some { w with toDevice := w.toDevice.drop n } := by
  induction n generalizing w with
  | zero => rfl
  | succ n ih =>
      rw [List.replicate_succ, Run.run_cons_eq_some]
      refine ⟨_, rfl, ?_⟩
      rw [ih, List.eraseIdx_zero, List.drop_tail]

lemma run_loseToHost (w : Wire) (n : ℕ) :
    Run.run Wire.step w (List.replicate n (.loseToHost 0)) =
      some { w with toHost := w.toHost.drop n } := by
  induction n generalizing w with
  | zero => rfl
  | succ n ih =>
      rw [List.replicate_succ, Run.run_cons_eq_some]
      refine ⟨_, rfl, ?_⟩
      rw [ih, List.eraseIdx_zero, List.drop_tail]

lemma run_abandon (w : Wire) (n : ℕ) :
    Run.run Wire.step w (List.replicate n (.abandon 0)) =
      some { w with exchanges := w.exchanges.drop n } := by
  induction n generalizing w with
  | zero => rfl
  | succ n ih =>
      rw [List.replicate_succ, Run.run_cons_eq_some]
      refine ⟨_, rfl, ?_⟩
      rw [ih, List.eraseIdx_zero, List.drop_tail]

/-- When the device starts again, all that is under way is lost. -/
lemma run_reboot (w : Wire) (authorization : Bytes) :
    ∃ as, Run.run Wire.step w as = some { w with
      authorization := authorization
      seq := 0
      decoder := []
      waiting := none
      toHost := []
      exchanges := []
      toDevice := [] } := by
  refine ⟨List.replicate w.toHost.length (.loseToHost 0) ++
    (List.replicate w.exchanges.length (.abandon 0) ++
      (List.replicate w.toDevice.length (.loseToDevice 0) ++ [.rebuild authorization])), ?_⟩
  simp only [Run.run_append_eq_some]
  refine ⟨_, run_loseToHost w _, _, run_abandon _ _, _, run_loseToDevice _ _, ?_⟩
  rw [List.drop_length, List.drop_length, List.drop_length]
  rfl

namespace Carries

variable (hc : Carries c w)

include hc

lemma idle_iff : w.waiting = none ↔ c.waiting = none := by
  rw [← Option.map_eq_none_iff, hc.waiting, Option.map_eq_none_iff]

lemma of_waiting {req : RequestPayload} (h : c.waiting = some req) :
    ∃ waiting, w.waiting = some waiting ∧ waiting.seq = req.seq := by
  have hw := hc.waiting
  rw [h, Option.map_some, Option.map_eq_some_iff] at hw
  exact hw

lemma accept {req : RequestPayload} {waiting : Waiting} {x : Carried}
    (hseq : waiting.seq = req.seq) : Carries (c.accept req x.frame) (w.accept waiting x) := by
  unfold Cable.accept Wire.accept
  split_ifs with htype
  · exact hc
  · cases hresp : decodeResponse x.frame.payload with
    | none => exact hc
    | some resp =>
        dsimp only
        rw [hseq]
        split_ifs with hother
        · exact hc
        · refine ⟨hc.authorization, hc.seq, rfl, hc.exchanges, ?_, hc.lies.finish _ _⟩
          rw [Wire.finish, Cable.finish, List.map_cons, List.map_cons, hc.returned]

lemma receive (x : Carried) : Carries (c.receive x.frame) (w.receive x) := by
  unfold Cable.receive Wire.receive
  split_ifs with htype
  · exact hc
  · cases hreq : decodeRequestPayload x.frame.payload with
    | none => exact hc
    | some req =>
        refine ⟨hc.authorization, hc.seq, hc.waiting, ?_, hc.returned, ?_⟩
        · rw [List.map_append, hc.exchanges, List.map_singleton]
        · exact ⟨hc.lies.toHost, hc.lies.decoder, hc.lies.toDevice, hc.lies.one, hc.lies.call⟩

lemma respond {e : Exchange} (reply : Reply) :
    Carries (c.respond e.request reply) (w.respond e reply) := by
  rw [Wire.respond]
  rcases c.respond_cases e.request reply with ⟨hsame, hnone⟩ |
    ⟨payload, framed, -, hframed, hframe, hsent⟩
  · rw [hsame, hnone]
    exact hc
  · rw [hsent, hframe]
    refine ⟨hc.authorization, hc.seq, hc.waiting, hc.exchanges, hc.returned, ?_⟩
    dsimp only
    rw [List.map_append, List.map_singleton]
    exact hc.lies.send hframed

lemma sync {body : Bytes} {stalled : Option ℕ} (hu : Unbroken c (.sync body stalled)) :
    Carries (c.sync body stalled) (w.sync body stalled.isNone) := by
  have hrequest : (⟨w.seq + 1, w.authorization, body⟩ : RequestPayload) = c.request body := by
    rw [hc.seq, hc.authorization, request]
  have hseq : w.seq + 1 = (c.request body).seq := congrArg RequestPayload.seq hrequest
  have hfailed : Carries ((c.called (c.request body)).finish (c.request body) {})
      (Wire.finish { w with seq := w.seq + 1, calls := w.calls + 1 } ⟨w.calls, none, {}⟩) := by
    refine ⟨hc.authorization, hseq, rfl, hc.exchanges, ?_, ?_⟩
    · rw [Wire.finish, Cable.finish, List.map_cons, List.map_cons]
      exact congrArg _ hc.returned
    · exact ⟨hc.lies.toHost, hc.lies.decoder, hc.lies.toDevice, hc.lies.one,
        fun hne => absurd rfl hne⟩
  rw [Wire.sync, Wire.requestFrame, hrequest]
  rcases sync_cases hu with ⟨hsync, hnone⟩ | ⟨payload, framed, rfl, hpayload, hframed, hsync⟩
  · rw [hsync]
    cases hpayload : encodeRequest (c.request body) with
    | none => exact hfailed
    | some payload =>
        cases stalled with
        | none => exact absurd (hnone rfl) (hpayload ▸ Option.some_ne_none payload)
        | some n => exact hfailed
  · rw [hsync, hpayload]
    have hframes : List.map (fun x : Carried => x.frame)
        (w.toHost ++ [⟨some w.calls, ⟨kRequest, payload⟩⟩]) =
          w.toHost.map (·.frame) ++ [⟨kRequest, payload⟩] := List.map_append
    have hwrite := hc.lies.write hframed
    rw [← hframes] at hwrite
    refine ⟨hc.authorization, hseq, congrArg some hseq, hc.exchanges, hc.returned, ?_⟩
    exact ⟨hwrite.toHost, hwrite.decoder, hwrite.toDevice, hwrite.one, fun _ => hu.1⟩

lemma take {req : RequestPayload} {f : Frame} {dec : Decoder} (hwaiting : c.waiting = some req)
    (hnext : c.decoder.next = (some f, dec)) :
    Followed w (Cable.accept { c with decoder := dec } req f) := by
  obtain ⟨waiting, hw, hseq⟩ := hc.of_waiting hwaiting
  obtain ⟨d', hd, hlies⟩ := hc.lies.take hnext
  obtain ⟨x, rest, hdecoder, rfl, rfl⟩ := List.map_eq_cons_iff.1 hd
  have hcarries : Carries { c with decoder := dec } { w with decoder := rest } :=
    ⟨hc.authorization, hc.seq, hc.waiting, hc.exchanges, hc.returned, hlies⟩
  refine ⟨[.take], _, ?_, hcarries.accept hseq⟩
  rw [Run.run_cons_eq_some, Wire.step, hw, hdecoder]
  exact ⟨_, rfl, rfl⟩

lemma read (n : ℕ) {req : RequestPayload} {dec : Decoder} (hwaiting : c.waiting = some req)
    (hnext : c.decoder.next = (none, dec)) :
    Followed w
      { c with decoder := dec.append (c.toDevice.take n), toDevice := c.toDevice.drop n } := by
  obtain ⟨hd, d', v', hv, hlies⟩ := hc.lies.read n (by rw [hwaiting]; simp) hnext
  obtain ⟨xs, ys, htoDevice, rfl, rfl⟩ := List.map_eq_append_iff.1 hv
  refine ⟨[.read xs.length], { w with decoder := xs, toDevice := ys }, ?_, hc.authorization,
    hc.seq, hc.waiting, hc.exchanges, hc.returned, hlies⟩
  have hbusy : w.waiting ≠ none := fun hidle => by
    rw [hc.idle_iff.1 hidle] at hwaiting
    cases hwaiting
  rw [Run.run_cons_eq_some, Wire.step, if_pos ⟨hbusy, List.map_eq_nil_iff.1 hd⟩, htoDevice,
    List.take_left, List.drop_left]
  exact ⟨_, rfl, rfl⟩

lemma giveUp {req : RequestPayload} {dec : Decoder} (hwaiting : c.waiting = some req)
    (hnext : c.decoder.next = (none, dec)) :
    Followed w (Cable.finish { c with decoder := dec } req {}) := by
  obtain ⟨waiting, hw, -⟩ := hc.of_waiting hwaiting
  obtain ⟨hd, hlies⟩ := hc.lies.wait hnext
  refine ⟨[.giveUp], w.finish ⟨waiting.call, none, {}⟩, ?_, hc.authorization, hc.seq, rfl,
    hc.exchanges, ?_, hlies.finish _ _⟩
  · rw [Run.run_cons_eq_some, Wire.step, hw]
    exact ⟨_, if_pos (List.map_eq_nil_iff.1 hd), rfl⟩
  · rw [Wire.finish, Cable.finish, List.map_cons, List.map_cons, hc.returned]

/-- What the control channel reads is lost to the link. -/
lemma listen (n : ℕ) (hu : Unbroken c (.listen n)) {dec : Decoder} (hidle : c.waiting = none)
    (hnext : c.control.next = (none, dec)) :
    Followed w
      { c with control := dec.append (c.toDevice.take n), toDevice := c.toDevice.drop n } := by
  obtain ⟨m, v', hv, hlies⟩ := hc.lies.listen n hu hidle hnext
  obtain ⟨xs, ys, htoDevice, rfl, rfl⟩ := List.map_eq_append_iff.1 hv
  refine ⟨_, _, run_loseToDevice w xs.length, hc.authorization, hc.seq, hc.waiting,
    hc.exchanges, hc.returned, ?_⟩
  dsimp only
  rw [htoDevice, List.drop_left]
  exact hlies

lemma emit (payload : Bytes) (hidle : c.waiting = none) :
    Followed w { c with toHost := c.toHost ++ (encode ⟨kEvent, payload⟩).getD [] } := by
  cases hframed : encode ⟨kEvent, payload⟩ with
  | none =>
      refine ⟨[], w, rfl, hc.authorization, hc.seq, hc.waiting, hc.exchanges, hc.returned, ?_⟩
      rw [Option.getD_none, List.append_nil]
      exact hc.lies
  | some framed =>
      refine ⟨[.emit payload], { w with toHost := w.toHost ++ [⟨none, ⟨kEvent, payload⟩⟩] }, ?_,
        hc.authorization, hc.seq, hc.waiting, hc.exchanges, hc.returned, ?_⟩
      · rw [Run.run_cons_eq_some]
        exact ⟨_, if_pos (hc.idle_iff.2 hidle), rfl⟩
      · dsimp only
        rw [Option.getD_some, List.map_append, List.map_singleton]
        exact hc.lies.write hframed

lemma scan {f : Frame} {r : FrameReader} (hscan : c.reader.scan = (some f, r)) :
    Followed w (Cable.receive { c with reader := r } f) := by
  obtain ⟨h', hh, hlies⟩ := hc.lies.scan hscan
  obtain ⟨x, rest, htoHost, rfl, rfl⟩ := List.map_eq_cons_iff.1 hh
  have hcarries : Carries { c with reader := r } { w with toHost := rest } :=
    ⟨hc.authorization, hc.seq, hc.waiting, hc.exchanges, hc.returned, hlies⟩
  refine ⟨[.receive], _, ?_, hcarries.receive x⟩
  rw [Run.run_cons_eq_some, Wire.step, htoHost]
  exact ⟨_, rfl, rfl⟩

lemma answer (i : ℕ) (reply : Reply) {req : RequestPayload} (hreq : c.exchanges[i]? = some req) :
    Followed w (Cable.respond { c with
      exchanges := c.exchanges.eraseIdx i
      answered := (req, reply) :: c.answered } req reply) := by
  rw [← hc.exchanges, List.getElem?_map, Option.map_eq_some_iff] at hreq
  obtain ⟨e, he, rfl⟩ := hreq
  have hcarries : Carries { c with
      exchanges := c.exchanges.eraseIdx i
      answered := (e.request, reply) :: c.answered }
      { w with exchanges := w.exchanges.eraseIdx i } := by
    refine ⟨hc.authorization, hc.seq, hc.waiting, ?_, hc.returned, hc.lies.toHost,
      hc.lies.decoder, hc.lies.toDevice, hc.lies.one, hc.lies.call⟩
    rw [← List.eraseIdx_map, hc.exchanges]
  refine ⟨[.answer i reply], _, ?_, hcarries.respond reply⟩
  rw [Run.run_cons_eq_some, Wire.step, he]
  exact ⟨_, rfl, rfl⟩

lemma command (payload : Bytes) :
    Followed w
      { c with toDevice := c.toDevice ++ (encodeFrame ⟨kCommand, payload⟩).getD [] } := by
  cases hframed : encodeFrame ⟨kCommand, payload⟩ with
  | none =>
      refine ⟨[], w, rfl, hc.authorization, hc.seq, hc.waiting, hc.exchanges, hc.returned, ?_⟩
      rw [Option.getD_none, List.append_nil]
      exact hc.lies
  | some framed =>
      refine ⟨[.command payload],
        { w with toDevice := w.toDevice ++ [⟨none, ⟨kCommand, payload⟩⟩] }, rfl,
        hc.authorization, hc.seq, hc.waiting, hc.exchanges, hc.returned, ?_⟩
      dsimp only
      rw [Option.getD_some, List.map_append, List.map_singleton]
      exact hc.lies.send hframed

/-- What the cable does in a step that breaks no frame, the link does in some. -/
lemma step (hu : Unbroken c a) (hstep : c.step a = some c') : Followed w c' := by
  cases step_cases hstep with
  | print text =>
      exact ⟨[], w, rfl, hc.authorization, hc.seq, hc.waiting, hc.exchanges, hc.returned,
        hc.lies.print hu⟩
  | sync body stalled hidle =>
      refine ⟨[.sync body stalled.isNone], _, ?_, hc.sync hu⟩
      rw [Run.run_cons_eq_some]
      exact ⟨_, if_pos (hc.idle_iff.2 hidle), rfl⟩
  | take hwaiting hnext => exact hc.take hwaiting hnext
  | read n hwaiting hnext => exact hc.read n hwaiting hnext
  | giveUp hwaiting hnext => exact hc.giveUp hwaiting hnext
  | rebuild authorization hidle =>
      refine ⟨[.rebuild authorization], _, rfl, rfl, rfl, ?_, hc.exchanges, hc.returned,
        hc.lies.rebuild hu authorization⟩
      dsimp only
      rw [hidle, Option.map_none, Option.map_none]
  | reboot authorization =>
      obtain ⟨as, has⟩ := run_reboot w authorization
      have hstart := lies_start authorization
      exact ⟨as, _, has, rfl, rfl, rfl, rfl, hc.returned, hstart.toHost, hstart.decoder,
        hstart.toDevice, hstart.one, hstart.call⟩
  | listen n hidle hnext => exact hc.listen n hu hidle hnext
  | dispatch hidle hnext =>
      exact ⟨[], w, rfl, hc.authorization, hc.seq, hc.waiting, hc.exchanges, hc.returned,
        hc.lies.dispatch hnext⟩
  | emit payload hidle => exact hc.emit payload hidle
  | pull n hscan =>
      exact ⟨[], w, rfl, hc.authorization, hc.seq, hc.waiting, hc.exchanges, hc.returned,
        hc.lies.pull n hscan⟩
  | scan hscan => exact hc.scan hscan
  | answer i reply hreq => exact hc.answer i reply hreq
  | command payload => exact hc.command payload

end Carries

/-- **The cable does what the link of frames does.**  Every run that breaks no frame is matched by
one of the link, with the same requests at the bridge and the same results. -/
theorem cable_refines_wire {authorization : Bytes} {acts : List Act}
    (hunbroken : Run.Meets Cable.step Unbroken (start authorization) acts)
    (hrun : Run.run Cable.step (start authorization) acts = some c) :
    ∃ as w, Run.run Wire.step (Wire.start authorization) as = some w ∧ Carries c w :=
  Run.run_simulates (fun _ _ _ _ hc hu hstep => hc.step hu hstep) (carries_start authorization)
    hunbroken hrun

end Refinement

end Chaskiwasi.Transport.Cable

namespace Chaskiwasi.Transport.Cable

theorem cable_refines_wire_in_pieces :
    ∃ c, Run.run Cable.step (start []) Sample.inPieces = some c ∧
      c.returned.map (fun p => p.2.body) = [[7, 8]] ∧
      ∃ as w, Run.run Wire.step (Wire.start []) as = some w ∧ Carries c w := by
  have hany : (Run.run Cable.step (start []) Sample.inPieces).any
      (fun c => decide (c.returned.map (fun p => p.2.body) = [[7, 8]])) = true := by
    decide +kernel
  obtain ⟨c, hrun, hbodies⟩ := Run.exists_of_any hany
  exact ⟨c, hrun, of_decide_eq_true hbodies, cable_refines_wire (by decide +kernel) hrun⟩

end Chaskiwasi.Transport.Cable
