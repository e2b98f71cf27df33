import Chaskiwasi.Transport.Cable

/-!
# Whose answer a call gets

The bridge forwards a request as it is and sends the server's answer back under the request's
number.  Where no frame is cut (`Unbroken`) and no number comes round again while something is under
way (`Counted`), a call that was answered has the server's answer to its own request, byte for byte
(`answered_as_asked`).
-/

namespace Chaskiwasi.Transport.Cable

/-- A call that did not fail has what the server said to its own request. -/
def Truthful (answered : List (RequestPayload × Reply)) (p : RequestPayload × Result) : Prop :=
  p.2.outcome ≠ .transportFail → ∃ reply, (p.1, reply) ∈ answered ∧ p.2 = (forward p.1 reply).result

/-- Every request on the way is one of the transport's calls, every response on the way is what the
server said to one of these, and their numbers tell them apart. -/
structure Honest (c : Cable) (toHost decoder toDevice : List Frame) : Prop where
  lies : Lies c toHost decoder toDevice
  toHost : ∀ f ∈ toHost, f.type = kRequest → ∃ req ∈ c.current, encodeRequest req = some f.payload
  exchanges : ∀ req ∈ c.exchanges, req ∈ c.current
  toDevice : ∀ f ∈ decoder ++ toDevice, f.type = kResponse →
    ∃ p ∈ c.answered, p.1 ∈ c.current ∧ encodeResponsePayload (forward p.1 p.2) = some f.payload
  numbered : ∀ req ∈ c.current, req.seq.toNat ≤ c.seq.toNat
  apart : ∀ req ∈ c.current, ∀ req' ∈ c.current, req.seq = req'.seq → req = req'
  waiting : ∀ req, c.waiting = some req → req ∈ c.current
  current : ∀ req ∈ c.current, req ∈ c.asked
  answered : ∀ p ∈ c.answered, p.1 ∈ c.asked
  returned : ∀ p ∈ c.returned, Truthful c.answered p

section Answers

variable {c} {c' : Cable} {h d v : List Frame} {a : Act}

lemma honest_start (authorization : Bytes) : Honest (start authorization) [] [] [] where
  lies := lies_start authorization
  toHost _ hf := absurd hf List.not_mem_nil
  exchanges _ hreq := absurd hreq List.not_mem_nil
  toDevice _ hf := absurd hf List.not_mem_nil
  numbered _ hreq := absurd hreq List.not_mem_nil
  apart _ hreq := absurd hreq List.not_mem_nil
  waiting _ hreq := absurd hreq.symm (Option.some_ne_none _)
  current _ hreq := absurd hreq List.not_mem_nil
  answered _ hp := absurd hp List.not_mem_nil
  returned _ hp := absurd hp List.not_mem_nil

namespace Honest

variable (hh : Honest c h d v)

include hh

/-- A response that a call takes is the server's to its own request. -/
lemma accept {req : RequestPayload} {f : Frame} (hwaiting : req ∈ c.current)
    (hf : f.type = kResponse → ∃ p ∈ c.answered, p.1 ∈ c.current ∧
      encodeResponsePayload (forward p.1 p.2) = some f.payload) :
    Honest (c.accept req f) h d v := by
  have hlies := hh.lies.accept req f
  unfold Cable.accept at hlies ⊢
  split_ifs at hlies ⊢ with htype
  · exact hh
  · obtain ⟨p, hp, hcurrent, hpayload⟩ := hf (not_not.1 htype)
    rw [decodeResponse_encodeResponsePayload hpayload] at hlies ⊢
    dsimp only at hlies ⊢
    split_ifs at hlies ⊢ with hseq
    · exact hh
    · have hown : p.1 = req := by
        refine hh.apart _ hcurrent _ hwaiting ?_
        rw [← seq_forward p.1 p.2, not_not.1 hseq]
      refine ⟨hlies, hh.toHost, hh.exchanges, hh.toDevice, hh.numbered, hh.apart, ?_, hh.current,
        hh.answered, ?_⟩
      · exact fun _ hreq => absurd hreq.symm (Option.some_ne_none _)
      · intro r hr
        rcases List.mem_cons.1 hr with rfl | hr
        · intro _
          exact ⟨p.2, hown ▸ hp, congrArg (fun q => (forward q p.2).result) hown⟩
        · exact hh.returned r hr

/-- A request that the bridge reads is one of the transport's calls. -/
lemma receive {f : Frame} (hf : f.type = kRequest →
    ∃ req ∈ c.current, encodeRequest req = some f.payload) : Honest (c.receive f) h d v := by
  have hlies := hh.lies.receive f
  unfold Cable.receive at hlies ⊢
  split_ifs at hlies ⊢ with htype
  · exact hh
  · obtain ⟨req, hcurrent, hpayload⟩ := hf (not_not.1 htype)
    rw [decodeRequestPayload_encodeRequest hpayload] at hlies ⊢
    refine ⟨hlies, hh.toHost, fun q hq => ?_, hh.toDevice, hh.numbered, hh.apart, hh.waiting,
      hh.current, hh.answered, hh.returned⟩
    rcases List.mem_append.1 hq with hq | hq
    · exact hh.exchanges q hq
    · exact (List.mem_singleton.1 hq) ▸ hcurrent

/-- The next call has a number of its own. -/
lemma called (hcount : c.seq.toNat + 1 < 2 ^ 16) (body : Bytes) :
    (∀ req ∈ (c.called (c.request body)).current, req.seq.toNat ≤ (c.seq + 1).toNat) ∧
      ∀ req ∈ (c.called (c.request body)).current, ∀ req' ∈ (c.called (c.request body)).current,
        req.seq = req'.seq → req = req' := by
  have hnext : (c.seq + 1).toNat = c.seq.toNat + 1 := by
    rw [UInt16.toNat_add, UInt16.toNat_one, Nat.mod_eq_of_lt hcount]
  have hold : ∀ req ∈ c.current, req.seq ≠ c.seq + 1 := fun req hreq heq => by
    have hle := hh.numbered req hreq
    rw [heq] at hle
    omega
  refine ⟨fun req hreq => ?_, fun req hreq req' hreq' heq => ?_⟩
  · rcases List.mem_cons.1 hreq with rfl | hreq
    · exact le_rfl
    · have hle := hh.numbered req hreq
      omega
  · rcases List.mem_cons.1 hreq with rfl | hreq
    · rcases List.mem_cons.1 hreq' with rfl | hreq'
      · rfl
      · exact absurd heq.symm (hold req' hreq')
    · rcases List.mem_cons.1 hreq' with rfl | hreq'
      · exact absurd heq (hold req hreq)
      · exact hh.apart req hreq req' hreq' heq

lemma sync {body : Bytes} {stalled : Option ℕ} (hu : Unbroken c (.sync body stalled))
    (hcount : c.seq.toNat + 1 < 2 ^ 16) : ∃ h', Honest (c.sync body stalled) h' d v := by
  obtain ⟨hnumbered, hapart⟩ := hh.called hcount body
  have hasked : ∀ req ∈ (c.called (c.request body)).current,
      req ∈ (c.called (c.request body)).asked := fun req hreq => by
    rcases List.mem_cons.1 hreq with rfl | hreq
    · exact List.mem_cons_self ..
    · exact List.mem_cons_of_mem _ (hh.current req hreq)
  have hexchanges : ∀ req ∈ c.exchanges, req ∈ (c.called (c.request body)).current :=
    fun req hreq => List.mem_cons_of_mem _ (hh.exchanges req hreq)
  have hanswered : ∀ p ∈ c.answered, p.1 ∈ (c.called (c.request body)).asked :=
    fun p hp => List.mem_cons_of_mem _ (hh.answered p hp)
  have hhost : ∀ f ∈ h, f.type = kRequest →
      ∃ req ∈ (c.called (c.request body)).current, encodeRequest req = some f.payload :=
    fun f hf htype => (hh.toHost f hf htype).imp fun _ ⟨hreq, hpayload⟩ =>
      ⟨List.mem_cons_of_mem _ hreq, hpayload⟩
  have hdevice : ∀ f ∈ d ++ v, f.type = kResponse → ∃ p ∈ c.answered,
      p.1 ∈ (c.called (c.request body)).current ∧
        encodeResponsePayload (forward p.1 p.2) = some f.payload :=
    fun f hf htype => (hh.toDevice f hf htype).imp fun _ ⟨hp, hcurrent, hpayload⟩ =>
      ⟨hp, List.mem_cons_of_mem _ hcurrent, hpayload⟩
  rcases sync_cases hu with ⟨hsync, -⟩ | ⟨payload, framed, -, hpayload, hframed, hsync⟩
  · rw [hsync]
    refine ⟨h, ⟨hh.lies.toHost, hh.lies.decoder, hh.lies.toDevice, hh.lies.one,
      fun hne => absurd rfl hne⟩, hhost, hexchanges, hdevice, hnumbered, hapart, ?_, hasked,
      hanswered, fun r hr => ?_⟩
    · exact fun _ hreq => absurd hreq.symm (Option.some_ne_none _)
    · rcases List.mem_cons.1 hr with rfl | hr
      · exact fun hfailed => absurd rfl hfailed
      · exact hh.returned r hr
  · rw [hsync]
    have hwrite := hh.lies.write hframed
    refine ⟨h ++ [(⟨kRequest, payload⟩ : Frame)], ⟨hwrite.toHost, hwrite.decoder, hwrite.toDevice,
      hwrite.one, fun _ => hu.1⟩, ?_, hexchanges, hdevice, hnumbered, hapart, ?_, hasked,
      hanswered, hh.returned⟩
    · intro f hf htype
      rcases List.mem_append.1 hf with hf | hf
      · exact hhost f hf htype
      · obtain rfl := List.mem_singleton.1 hf
        exact ⟨_, List.mem_cons_self .., hpayload⟩
    · intro req hreq
      obtain rfl := Option.some.inj hreq
      exact List.mem_cons_self ..

lemma respond {req : RequestPayload} {reply : Reply} (hreq : req ∈ c.current)
    (hp : (req, reply) ∈ c.answered) : ∃ v', Honest (c.respond req reply) h d v' := by
  rcases c.respond_cases req reply with ⟨hsame, -⟩ | ⟨payload, framed, hpayload, hframed, -, hsent⟩
  · rw [hsame]
    exact ⟨v, hh⟩
  · rw [hsent]
    refine ⟨_, { hh with lies := hh.lies.send hframed, toDevice := fun f hf htype => ?_ }⟩
    rw [← List.append_assoc] at hf
    rcases List.mem_append.1 hf with hf | hf
    · exact hh.toDevice f hf htype
    · obtain rfl := List.mem_singleton.1 hf
      exact ⟨_, hp, hreq, hpayload⟩

lemma take {req : RequestPayload} {f : Frame} {dec : Decoder} (hwaiting : c.waiting = some req)
    (hnext : c.decoder.next = (some f, dec)) :
    ∃ d', Honest (Cable.accept { c with decoder := dec } req f) h d' v := by
  obtain ⟨d', rfl, hlies⟩ := hh.lies.take hnext
  have htaken : Honest { c with decoder := dec } h d' v :=
    { hh with
      lies := hlies
      toDevice := fun g hg => hh.toDevice g (List.mem_cons_of_mem _ hg) }
  exact ⟨d', htaken.accept (hh.waiting req hwaiting) (hh.toDevice f (List.mem_cons_self ..))⟩

lemma giveUp {req : RequestPayload} {dec : Decoder} (hnext : c.decoder.next = (none, dec)) :
    Honest (Cable.finish { c with decoder := dec } req {}) h d v := by
  refine { hh with
    lies := (hh.lies.wait hnext).2.finish _ _
    waiting := fun _ hreq => absurd hreq.symm (Option.some_ne_none _)
    returned := fun r hr => ?_ }
  rcases List.mem_cons.1 hr with rfl | hr
  · exact fun hfailed => absurd rfl hfailed
  · exact hh.returned r hr

/-- A new transport finds nothing under way. -/
lemma rebuild (authorization : Bytes) (hu : Unbroken c (.rebuild authorization))
    (hstill : c.Still) (hidle : c.waiting = none) :
    Honest { c with authorization := authorization, seq := 0, decoder := {}, current := [] }
      [] [] [] := by
  obtain ⟨hhost, hexchanges, hdevice⟩ := hstill
  rw [hh.lies.toHost.frames] at hhost
  rw [hh.lies.toDevice.frames] at hdevice
  subst hhost hdevice
  refine ⟨hh.lies.rebuild hu authorization, ?_, ?_, ?_, ?_, ?_, ?_, ?_, hh.answered, hh.returned⟩
  · exact fun _ hf => absurd hf List.not_mem_nil
  · exact fun req hreq => absurd (hexchanges ▸ hreq) List.not_mem_nil
  · exact fun _ hf => absurd hf List.not_mem_nil
  · exact fun _ hreq => absurd hreq List.not_mem_nil
  · exact fun _ hreq => absurd hreq List.not_mem_nil
  · exact fun req hreq => absurd (hidle.symm.trans hreq).symm (Option.some_ne_none _)
  · exact fun _ hreq => absurd hreq List.not_mem_nil

lemma listen (n : ℕ) (hu : Unbroken c (.listen n)) {dec : Decoder} (hidle : c.waiting = none)
    (hnext : c.control.next = (none, dec)) :
    ∃ v', Honest { c with
      control := dec.append (c.toDevice.take n), toDevice := c.toDevice.drop n } h d v' := by
  obtain ⟨m, v', rfl, hlies⟩ := hh.lies.listen n hu hidle hnext
  refine ⟨v', { hh with lies := hlies, toDevice := fun f hf => hh.toDevice f ?_ }⟩
  rcases List.mem_append.1 hf with hf | hf
  · exact List.mem_append_left _ hf
  · exact List.mem_append_right _ (List.mem_append_right _ hf)

/-- An event is no request. -/
lemma emit (payload : Bytes) : ∃ h', Honest
    { c with toHost := c.toHost ++ (encode ⟨kEvent, payload⟩).getD [] } h' d v := by
  cases hframed : encode ⟨kEvent, payload⟩ with
  | none =>
      rw [Option.getD_none, List.append_nil]
      exact ⟨h, hh⟩
  | some framed =>
      refine ⟨_, { hh with
        lies := hh.lies.write hframed
        toHost := fun f hf htype => ?_ }⟩
      rcases List.mem_append.1 hf with hf | hf
      · exact hh.toHost f hf htype
      · rw [List.mem_singleton.1 hf] at htype
        exact absurd htype (show kEvent ≠ kRequest by decide)

lemma scan {f : Frame} {r : FrameReader} (hscan : c.reader.scan = (some f, r)) :
    ∃ h', Honest (Cable.receive { c with reader := r } f) h' d v := by
  obtain ⟨h', rfl, hlies⟩ := hh.lies.scan hscan
  have hscanned : Honest { c with reader := r } h' d v :=
    { hh with
      lies := hlies
      toHost := fun g hg => hh.toHost g (List.mem_cons_of_mem _ hg) }
  exact ⟨h', hscanned.receive (hh.toHost f (List.mem_cons_self ..))⟩

/-- The server answers a request of one of the calls. -/
lemma answer (i : ℕ) (reply : Reply) {req : RequestPayload} (hreq : c.exchanges[i]? = some req) :
    ∃ v', Honest (Cable.respond { c with
      exchanges := c.exchanges.eraseIdx i
      answered := (req, reply) :: c.answered } req reply) h d v' := by
  have hcurrent := hh.exchanges req (List.mem_of_getElem? hreq)
  have hanswered : Honest { c with
      exchanges := c.exchanges.eraseIdx i
      answered := (req, reply) :: c.answered } h d v := by
    refine { hh with
      lies := ⟨hh.lies.toHost, hh.lies.decoder, hh.lies.toDevice, hh.lies.one, hh.lies.call⟩
      exchanges := fun q hq => hh.exchanges q (List.mem_of_mem_eraseIdx hq)
      toDevice := fun f hf htype => ?_
      answered := fun p hp => ?_
      returned := fun r hr hok => ?_ }
    · obtain ⟨p, hp, hrest⟩ := hh.toDevice f hf htype
      exact ⟨p, List.mem_cons_of_mem _ hp, hrest⟩
    · rcases List.mem_cons.1 hp with rfl | hp
      · exact hh.current req hcurrent
      · exact hh.answered p hp
    · obtain ⟨said, hsaid, hresult⟩ := hh.returned r hr hok
      exact ⟨said, List.mem_cons_of_mem _ hsaid, hresult⟩
  exact hanswered.respond hcurrent (List.mem_cons_self ..)

/-- A command is no response. -/
lemma command (payload : Bytes) : ∃ v', Honest
    { c with toDevice := c.toDevice ++ (encodeFrame ⟨kCommand, payload⟩).getD [] } h d v' := by
  cases hframed : encodeFrame ⟨kCommand, payload⟩ with
  | none =>
      rw [Option.getD_none, List.append_nil]
      exact ⟨v, hh⟩
  | some framed =>
      refine ⟨_, { hh with
        lies := hh.lies.send hframed
        toDevice := fun f hf htype => ?_ }⟩
      rw [← List.append_assoc] at hf
      rcases List.mem_append.1 hf with hf | hf
      · exact hh.toDevice f hf htype
      · rw [List.mem_singleton.1 hf] at htype
        exact absurd htype (show kCommand ≠ kResponse by decide)

/-- What one step keeps. -/
lemma step (hu : Unbroken c a) (hcount : Counted c a) (hstep : c.step a = some c') :
    ∃ h' d' v', Honest c' h' d' v' := by
  cases step_cases hstep with
  | print text => exact ⟨h, d, v, { hh with lies := hh.lies.print hu }⟩
  | sync body stalled hidle =>
      obtain ⟨h', hh'⟩ := hh.sync hu hcount
      exact ⟨h', d, v, hh'⟩
  | take hwaiting hnext =>
      obtain ⟨d', hh'⟩ := hh.take hwaiting hnext
      exact ⟨h, d', v, hh'⟩
  | read n hwaiting hnext =>
      obtain ⟨rfl, d', v', rfl, hlies⟩ := hh.lies.read n (by rw [hwaiting]; simp) hnext
      exact ⟨h, d', v', { hh with lies := hlies }⟩
  | giveUp hwaiting hnext => exact ⟨h, d, v, hh.giveUp hnext⟩
  | rebuild authorization hidle =>
      exact ⟨[], [], [], hh.rebuild authorization hu hcount hidle⟩
  | reboot authorization =>
      have hstart := honest_start authorization
      exact ⟨[], [], [], { hstart with
        lies := ⟨hstart.lies.toHost, hstart.lies.decoder, hstart.lies.toDevice, hstart.lies.one,
          hstart.lies.call⟩
        toDevice := fun _ hf => absurd hf List.not_mem_nil
        current := fun _ hreq => absurd hreq List.not_mem_nil
        answered := hh.answered
        returned := hh.returned }⟩
  | listen n hidle hnext =>
      obtain ⟨v', hh'⟩ := hh.listen n hu hidle hnext
      exact ⟨h, d, v', hh'⟩
  | dispatch hidle hnext => exact ⟨h, d, v, { hh with lies := hh.lies.dispatch hnext }⟩
  | emit payload hidle =>
      obtain ⟨h', hh'⟩ := hh.emit payload
      exact ⟨h', d, v, hh'⟩
  | pull n hscan => exact ⟨h, d, v, { hh with lies := hh.lies.pull n hscan }⟩
  | scan hscan =>
      obtain ⟨h', hh'⟩ := hh.scan hscan
      exact ⟨h', d, v, hh'⟩
  | answer i reply hreq =>
      obtain ⟨v', hh'⟩ := hh.answer i reply hreq
      exact ⟨h, d, v', hh'⟩
  | command payload =>
      obtain ⟨v', hh'⟩ := hh.command payload
      exact ⟨h, d, v', hh'⟩

end Honest

end Answers

end Chaskiwasi.Transport.Cable
