import Chaskiwasi.Transport.Exchange

/-!
# The cable

The serial line carries bytes.  The device's log and its frames share the way to the host, where the
bridge takes the frames out and puts them back together; on the way back the device has two readers,
the transport's while a call waits and the control channel's at all other times, each with a buffer
of its own.

A stream that a reader is half through brings some frames (`Brings`), and where no frame is cut and
the log spells no magic (`Unbroken`) a step does to these what it does to the frames themselves
(`Lies`).
-/

namespace Chaskiwasi.Transport

/-! ## A stream and what it brings -/

/-- The frames that a stream still brings; what its reader would keep spells no magic. -/
structure Brings (s : Bytes) (fs : List Frame) : Prop where
  frames : framesIn s = fs
  quiet : ¬ frameFormat.magic <:+: (frameFormat.drain s).2

section Streams

variable {s rest more b : Bytes} {f : Frame} {fs : List Frame}

lemma magic_not_infix_nil : ¬ frameFormat.magic <:+: [] := by decide

lemma brings_nil : Brings [] [] where
  frames := by rw [framesIn, frameFormat_drain_nil, List.map_nil]
  quiet := by
    rw [frameFormat_drain_nil]
    exact magic_not_infix_nil

lemma Brings.text (h : Brings s fs)
    (htext : ¬ frameFormat.magic <:+: (frameFormat.drain s).2 ++ more) : Brings (s ++ more) fs := by
  obtain ⟨hframes, hquiet⟩ := Framing.drain_append_noise htext
  refine ⟨?_, hquiet⟩
  rw [framesIn, hframes, ← h.frames, framesIn]

lemma drain_frame (h : Brings s fs) (hb : encode f = some b) :
    frameFormat.drain (s ++ b) = ((frameFormat.drain s).1 ++ [b], []) :=
  Framing.drain_append_frame unbordered h.quiet (isFrame_encode hb)

lemma Brings.frame (h : Brings s fs) (hb : encode f = some b) : Brings (s ++ b) (fs ++ [f]) := by
  refine ⟨?_, ?_⟩
  · rw [framesIn, drain_frame h hb, List.map_append, List.map_singleton, unframe_encode hb,
      ← h.frames, framesIn]
  · rw [drain_frame h hb]
    exact magic_not_infix_nil

/-- What is left of a stream brings what the stream brought. -/
lemma framesIn_append : framesIn (s ++ more) =
    framesIn s ++ framesIn ((frameFormat.drain s).2 ++ more) := by
  rw [framesIn, Framing.drain_append, List.map_append, framesIn, framesIn]

lemma drain_append_snd : (frameFormat.drain (s ++ more)).2 =
    (frameFormat.drain ((frameFormat.drain s).2 ++ more)).2 := by
  rw [Framing.drain_append]

lemma Brings.read_none (h : Brings (s ++ more) fs) (hread : read s = (none, rest)) :
    Brings (rest ++ more) fs := by
  obtain ⟨hframes, rfl⟩ := Prod.mk.inj (drain_of_read hread)
  refine ⟨?_, ?_⟩
  · rw [← h.frames, framesIn_append (s := s), hframes, List.nil_append]
  · rw [← drain_append_snd]
    exact h.quiet

lemma Brings.read_some (h : Brings (s ++ more) fs) (hread : read s = (some f, rest)) :
    ∃ fs', fs = f :: fs' ∧ Brings (rest ++ more) fs' := by
  obtain ⟨hframes, hrest⟩ := Prod.mk.inj (drain_of_read hread)
  refine ⟨framesIn (rest ++ more), ?_, rfl, ?_⟩
  · rw [← h.frames, framesIn_append, hframes, hrest, List.cons_append, ← framesIn_append]
  · rw [drain_append_snd, ← hrest, ← drain_append_snd]
    exact h.quiet

/-- A stream brings the frames of what has been read of it, and then the others. -/
lemma Brings.split (h : Brings (s ++ more) fs) :
    ∃ fs', fs = framesIn s ++ fs' ∧ Brings ((frameFormat.drain s).2 ++ more) fs' := by
  refine ⟨framesIn ((frameFormat.drain s).2 ++ more), ?_, rfl, ?_⟩
  · rw [← framesIn_append, h.frames]
  · rw [← drain_append_snd]
    exact h.quiet

lemma drain_of_read_none (hread : read s = (none, rest)) :
    framesIn s = [] ∧ framesIn rest = [] ∧ (frameFormat.drain s).2 = rest ∧
      (frameFormat.drain rest).2 = rest := by
  obtain ⟨hframes, rfl⟩ := Prod.mk.inj (drain_of_read hread)
  refine ⟨hframes, ?_, rfl, ?_⟩
  · rw [framesIn, Framing.drain_drain, List.map_nil]
  · rw [← List.append_nil (frameFormat.drain s).2, ← drain_append_snd, List.append_nil,
      List.append_nil]

end Streams

/-- What a reader of the device keeps, once it has taken every frame. -/
def left (d : Decoder) : Bytes := (frameFormat.drain d.buf).2

lemma left_of_next_some {d d' : Decoder} {f : Frame} (h : d.next = (some f, d')) :
    framesIn d.buf = f :: framesIn d'.buf ∧ left d = left d' := by
  have hread := d.next_eq
  rw [h] at hread
  exact Prod.mk.inj (drain_of_read hread.symm)

lemma left_of_next_none {d d' : Decoder} (h : d.next = (none, d')) :
    framesIn d.buf = [] ∧ framesIn d'.buf = [] ∧ d'.buf = left d ∧ left d' = left d := by
  have hread := d.next_eq
  rw [h] at hread
  obtain ⟨hframes, hframes', hleft, hleft'⟩ := drain_of_read_none hread.symm
  exact ⟨hframes, hframes', hleft.symm, hleft'.trans hleft.symm⟩

/-! ## The cable and its ends -/

structure Cable where
  /-- The transport's header, its `seq_` and its `decoder_`. -/
  authorization : Bytes
  seq : UInt16 := 0
  decoder : Decoder := {}
  /-- The request of the call under way. -/
  waiting : Option RequestPayload := none
  /-- The reader of the control channel. -/
  control : Decoder := {}
  /-- What the device has written and the bridge has not read. -/
  toHost : Bytes := []
  reader : FrameReader := {}
  /-- The requests that the bridge is forwarding. -/
  exchanges : List RequestPayload := []
  /-- What the bridge has written and the device has not read. -/
  toDevice : Bytes := []
  /-- The requests of all calls, and of those since the transport was built; what the server said to
  which request; and what the calls returned, each with its request.  No procedure reads these. -/
  asked : List RequestPayload := []
  current : List RequestPayload := []
  answered : List (RequestPayload × Reply) := []
  returned : List (RequestPayload × Result) := []

namespace Cable

inductive Act
  /-- The device's log. -/
  | print (text : Bytes)
  /-- `Sync` is called; the write goes through, or stalls after some bytes. -/
  | sync (body : Bytes) (stalled : Option ℕ)
  /-- The call's reader finds a frame. -/
  | take
  /-- It finds none, and the call reads up to `n` bytes, or gives up. -/
  | read (n : ℕ)
  | giveUp
  /-- `BuildEngine`, at a format or a new token. -/
  | rebuild (authorization : Bytes)
  /-- The device starts again; the host opens the port anew. -/
  | reboot (authorization : Bytes)
  /-- The control channel's reader finds no frame, and reads up to `n` bytes; or it finds one. -/
  | listen (n : ℕ)
  | dispatch
  /-- The control channel answers a command. -/
  | emit (payload : Bytes)
  /-- The bridge's reader finds no frame, and reads up to `n` bytes; or it finds one. -/
  | pull (n : ℕ)
  | scan
  /-- The server has answered one of the bridge's requests. -/
  | answer (i : ℕ) (reply : Reply)
  /-- `SendCommand`. -/
  | command (payload : Bytes)

variable (c : Cable)

/-- The request of the next call. -/
def request (body : Bytes) : RequestPayload := ⟨c.seq + 1, c.authorization, body⟩

def finish (req : RequestPayload) (result : Result) : Cable :=
  { c with waiting := none, returned := (req, result) :: c.returned }

/-- The call has its number. -/
def called (req : RequestPayload) : Cable :=
  { c with seq := req.seq, asked := req :: c.asked, current := req :: c.current }

/-- The start of `Sync`, up to its loop. -/
def sync (body : Bytes) (stalled : Option ℕ) : Cable :=
  let req := c.request body
  match (encodeRequest req).bind fun payload => encode ⟨kRequest, payload⟩ with
  | none => (c.called req).finish req {}
  | some framed =>
      match stalled with
      | none => { c.called req with toHost := c.toHost ++ framed, waiting := some req }
      | some n => { (c.called req).finish req {} with toHost := c.toHost ++ framed.take n }

/-- One turn of the inner loop of `Sync`. -/
def accept (req : RequestPayload) (f : Frame) : Cable :=
  if f.type ≠ kResponse then c
  else
    match decodeResponse f.payload with
    | none => c
    | some resp => if resp.seq ≠ req.seq then c else c.finish req resp.result

/-- One turn of the bridge's `Serve`. -/
def receive (f : Frame) : Cable :=
  if f.type ≠ kRequest then c
  else
    match decodeRequestPayload f.payload with
    | none => c
    | some req => { c with exchanges := c.exchanges ++ [req] }

/-- `writeResponse`. -/
def respond (req : RequestPayload) (reply : Reply) : Cable :=
  match (encodeResponsePayload (forward req reply)).bind fun payload =>
      encodeFrame ⟨kResponse, payload⟩ with
  | none => c
  | some framed => { c with toDevice := c.toDevice ++ framed }

def step (c : Cable) : Act → Option Cable
  | .print text => some { c with toHost := c.toHost ++ text }
  | .sync body stalled => if c.waiting = none then some (c.sync body stalled) else none
  | .take =>
      match c.waiting, c.decoder.next with
      | some req, (some f, d) => some (accept { c with decoder := d } req f)
      | _, _ => none
  | .read n =>
      match c.waiting, c.decoder.next with
      | some _, (none, d) =>
          some { c with decoder := d.append (c.toDevice.take n), toDevice := c.toDevice.drop n }
      | _, _ => none
  | .giveUp =>
      match c.waiting, c.decoder.next with
      | some req, (none, d) => some (finish { c with decoder := d } req {})
      | _, _ => none
  | .rebuild authorization =>
      if c.waiting = none then
        some { c with authorization := authorization, seq := 0, decoder := {}, current := [] }
      else none
  | .reboot authorization =>
      some { c with
        authorization := authorization
        seq := 0
        decoder := {}
        waiting := none
        control := {}
        toHost := []
        reader := {}
        exchanges := []
        toDevice := []
        current := [] }
  | .listen n =>
      match c.waiting, c.control.next with
      | none, (none, d) =>
          some { c with control := d.append (c.toDevice.take n), toDevice := c.toDevice.drop n }
      | _, _ => none
  | .dispatch =>
      match c.waiting, c.control.next with
      | none, (some _, d) => some { c with control := d }
      | _, _ => none
  | .emit payload =>
      if c.waiting = none then
        some { c with toHost := c.toHost ++ (encode ⟨kEvent, payload⟩).getD [] }
      else none
  | .pull n =>
      match c.reader.scan with
      | (none, r) =>
          some { c with
            reader := { r with buf := r.buf ++ c.toHost.take n }
            toHost := c.toHost.drop n }
      | (some _, _) => none
  | .scan =>
      match c.reader.scan with
      | (some f, r) => some (receive { c with reader := r } f)
      | (none, _) => none
  | .answer i reply =>
      (c.exchanges[i]?).map fun req =>
        respond { c with
          exchanges := c.exchanges.eraseIdx i
          answered := (req, reply) :: c.answered } req reply
  | .command payload =>
      some { c with toDevice := c.toDevice ++ (encodeFrame ⟨kCommand, payload⟩).getD [] }

/-- What a step finds and what it leaves. -/
inductive Stepped (c : Cable) : Act → Cable → Prop
  | print (text : Bytes) : Stepped c (.print text) { c with toHost := c.toHost ++ text }
  | sync (body : Bytes) (stalled : Option ℕ) (hidle : c.waiting = none) :
      Stepped c (.sync body stalled) (c.sync body stalled)
  | take {req : RequestPayload} {f : Frame} {d : Decoder} (hwaiting : c.waiting = some req)
      (hnext : c.decoder.next = (some f, d)) :
      Stepped c .take (accept { c with decoder := d } req f)
  | read (n : ℕ) {req : RequestPayload} {d : Decoder} (hwaiting : c.waiting = some req)
      (hnext : c.decoder.next = (none, d)) :
      Stepped c (.read n)
        { c with decoder := d.append (c.toDevice.take n), toDevice := c.toDevice.drop n }
  | giveUp {req : RequestPayload} {d : Decoder} (hwaiting : c.waiting = some req)
      (hnext : c.decoder.next = (none, d)) :
      Stepped c .giveUp (finish { c with decoder := d } req {})
  | rebuild (authorization : Bytes) (hidle : c.waiting = none) :
      Stepped c (.rebuild authorization)
        { c with authorization := authorization, seq := 0, decoder := {}, current := [] }
  | reboot (authorization : Bytes) :
      Stepped c (.reboot authorization) { c with
        authorization := authorization
        seq := 0
        decoder := {}
        waiting := none
        control := {}
        toHost := []
        reader := {}
        exchanges := []
        toDevice := []
        current := [] }
  | listen (n : ℕ) {d : Decoder} (hidle : c.waiting = none)
      (hnext : c.control.next = (none, d)) :
      Stepped c (.listen n)
        { c with control := d.append (c.toDevice.take n), toDevice := c.toDevice.drop n }
  | dispatch {f : Frame} {d : Decoder} (hidle : c.waiting = none)
      (hnext : c.control.next = (some f, d)) : Stepped c .dispatch { c with control := d }
  | emit (payload : Bytes) (hidle : c.waiting = none) :
      Stepped c (.emit payload)
        { c with toHost := c.toHost ++ (encode ⟨kEvent, payload⟩).getD [] }
  | pull (n : ℕ) {r : FrameReader} (hscan : c.reader.scan = (none, r)) :
      Stepped c (.pull n) { c with
        reader := { r with buf := r.buf ++ c.toHost.take n }
        toHost := c.toHost.drop n }
  | scan {f : Frame} {r : FrameReader} (hscan : c.reader.scan = (some f, r)) :
      Stepped c .scan (receive { c with reader := r } f)
  | answer (i : ℕ) (reply : Reply) {req : RequestPayload} (hreq : c.exchanges[i]? = some req) :
      Stepped c (.answer i reply) (respond { c with
        exchanges := c.exchanges.eraseIdx i
        answered := (req, reply) :: c.answered } req reply)
  | command (payload : Bytes) :
      Stepped c (.command payload)
        { c with toDevice := c.toDevice ++ (encodeFrame ⟨kCommand, payload⟩).getD [] }

theorem step_cases {c c' : Cable} {a : Act} (hstep : c.step a = some c') : Stepped c a c' := by
  cases a with
  | print text =>
      obtain rfl := Option.some.inj hstep
      exact .print text
  | sync body stalled =>
      rw [step] at hstep
      split_ifs at hstep with hidle
      obtain rfl := Option.some.inj hstep
      exact .sync body stalled hidle
  | take =>
      rw [step] at hstep
      split at hstep
      · next req f d hwaiting hnext =>
        obtain rfl := Option.some.inj hstep
        exact .take hwaiting hnext
      · cases hstep
  | read n =>
      rw [step] at hstep
      split at hstep
      · next req d hwaiting hnext =>
        obtain rfl := Option.some.inj hstep
        exact .read n hwaiting hnext
      · cases hstep
  | giveUp =>
      rw [step] at hstep
      split at hstep
      · next req d hwaiting hnext =>
        obtain rfl := Option.some.inj hstep
        exact .giveUp hwaiting hnext
      · cases hstep
  | rebuild authorization =>
      rw [step] at hstep
      split_ifs at hstep with hidle
      obtain rfl := Option.some.inj hstep
      exact .rebuild authorization hidle
  | reboot authorization =>
      obtain rfl := Option.some.inj hstep
      exact .reboot authorization
  | listen n =>
      rw [step] at hstep
      split at hstep
      · next d hidle hnext =>
        obtain rfl := Option.some.inj hstep
        exact .listen n hidle hnext
      · cases hstep
  | dispatch =>
      rw [step] at hstep
      split at hstep
      · next f d hidle hnext =>
        obtain rfl := Option.some.inj hstep
        exact .dispatch hidle hnext
      · cases hstep
  | emit payload =>
      rw [step] at hstep
      split_ifs at hstep with hidle
      obtain rfl := Option.some.inj hstep
      exact .emit payload hidle
  | pull n =>
      rw [step] at hstep
      split at hstep
      · next r hscan =>
        obtain rfl := Option.some.inj hstep
        exact .pull n hscan
      · cases hstep
  | scan =>
      rw [step] at hstep
      split at hstep
      · next f r hscan =>
        obtain rfl := Option.some.inj hstep
        exact .scan hscan
      · cases hstep
  | answer i reply =>
      obtain ⟨req, hreq, rfl⟩ := Option.map_eq_some_iff.1 hstep
      exact .answer i reply hreq
  | command payload =>
      obtain rfl := Option.some.inj hstep
      exact .command payload

/-! ## What may break a frame -/

/-- The way to the host: what the bridge has read, and what it has not. -/
def hostStream : Bytes := c.reader.buf ++ c.toHost

/-- The way to the device; at most one of its readers holds a part of a frame. -/
def deviceStream : Bytes := left c.control ++ (left c.decoder ++ c.toDevice)

/-- The log spells no magic, a write does not stop in a frame, and a reader that the other one takes
over from holds no part of a frame. -/
def Unbroken : Act → Prop
  | .print text => ¬ frameFormat.magic <:+: (frameFormat.drain c.hostStream).2 ++ text
  | .sync _ stalled => left c.control = [] ∧ stalled.getD 0 = 0
  | .rebuild _ | .listen _ => left c.decoder = []
  | _ => True

instance (a : Act) : Decidable (c.Unbroken a) :=
  match a with
  | .print _ | .sync _ _ | .rebuild _ | .listen _ => by
      unfold Unbroken
      infer_instance
  | .take | .read _ | .giveUp | .reboot _ | .dispatch | .emit _ | .pull _ | .scan | .answer _ _
  | .command _ => inferInstanceAs (Decidable True)

/-- Nothing is under way. -/
def Still : Prop := framesIn c.hostStream = [] ∧ c.exchanges = [] ∧ framesIn c.deviceStream = []

/-- The numbers of a transport do not come round, and a new one finds nothing under way. -/
def Counted : Act → Prop
  | .sync _ _ => c.seq.toNat + 1 < 2 ^ 16
  | .rebuild _ => c.Still
  | _ => True

instance : Decidable c.Still :=
  inferInstanceAs (Decidable (_ ∧ _ ∧ _))

instance (a : Act) : Decidable (c.Counted a) :=
  match a with
  | .sync _ _ => inferInstanceAs (Decidable (_ < _))
  | .rebuild _ => inferInstanceAs (Decidable c.Still)
  | .print _ | .take | .read _ | .giveUp | .reboot _ | .listen _ | .dispatch | .emit _ | .pull _
  | .scan | .answer _ _ | .command _ => inferInstanceAs (Decidable True)

def start (authorization : Bytes) : Cable := { authorization }

/-! ## Where the frames lie -/

/-- The frames on the way to the host, in the transport's reader, and on the way to the device. -/
structure Lies (c : Cable) (toHost decoder toDevice : List Frame) : Prop where
  toHost : Brings c.hostStream toHost
  decoder : framesIn c.decoder.buf = decoder
  toDevice : Brings c.deviceStream toDevice
  one : left c.control = [] ∨ left c.decoder = []
  call : c.waiting ≠ none → left c.control = []

section Frames

variable {c} {c' : Cable} {h d v : List Frame} {a : Act}

lemma left_empty : left {} = [] := by rw [left, frameFormat_drain_nil]

lemma lies_start (authorization : Bytes) : Lies (start authorization) [] [] [] := by
  have hleft := left_empty
  refine ⟨brings_nil, ?_, ?_, Or.inl hleft, fun _ => hleft⟩
  · rw [← brings_nil.frames]
    rfl
  · have hstream : (start authorization).deviceStream = left {} ++ (left {} ++ []) := rfl
    rw [hstream, hleft]
    exact brings_nil

namespace Lies

variable (hl : Lies c h d v)

include hl

lemma finish (req : RequestPayload) (result : Result) : Lies (c.finish req result) h d v :=
  ⟨hl.toHost, hl.decoder, hl.toDevice, hl.one, fun hne => absurd rfl hne⟩

lemma accept (req : RequestPayload) (f : Frame) : Lies (c.accept req f) h d v := by
  unfold Cable.accept
  split
  · exact hl
  · split
    · exact hl
    · split
      · exact hl
      · exact hl.finish ..

lemma receive (f : Frame) : Lies (c.receive f) h d v := by
  unfold Cable.receive
  split
  · exact hl
  · split
    · exact hl
    · exact ⟨hl.toHost, hl.decoder, hl.toDevice, hl.one, hl.call⟩

lemma print {text : Bytes} (hu : Unbroken c (.print text)) :
    Lies { c with toHost := c.toHost ++ text } h d v := by
  refine ⟨?_, hl.decoder, hl.toDevice, hl.one, hl.call⟩
  rw [hostStream, ← List.append_assoc]
  exact hl.toHost.text hu

/-- The device writes a whole frame. -/
lemma write {f : Frame} {framed : Bytes} (hb : encode f = some framed) :
    Lies { c with toHost := c.toHost ++ framed } (h ++ [f]) d v := by
  refine ⟨?_, hl.decoder, hl.toDevice, hl.one, hl.call⟩
  rw [hostStream, ← List.append_assoc]
  exact hl.toHost.frame hb

/-- The bridge writes a whole frame. -/
lemma send {f : Frame} {framed : Bytes} (hb : encodeFrame f = some framed) :
    Lies { c with toDevice := c.toDevice ++ framed } h d (v ++ [f]) := by
  refine ⟨hl.toHost, hl.decoder, ?_, hl.one, hl.call⟩
  rw [encodeFrame_eq] at hb
  rw [deviceStream, ← List.append_assoc (left c.decoder), ← List.append_assoc]
  exact hl.toDevice.frame hb

lemma take {f : Frame} {dec : Decoder} (hnext : c.decoder.next = (some f, dec)) :
    ∃ d', d = f :: d' ∧ Lies { c with decoder := dec } h d' v := by
  obtain ⟨hframes, hleft⟩ := left_of_next_some hnext
  refine ⟨framesIn dec.buf, hl.decoder.symm.trans hframes, hl.toHost, rfl, ?_, ?_, hl.call⟩
  · have hstream : { c with decoder := dec }.deviceStream = c.deviceStream := by
      rw [deviceStream, deviceStream, hleft]
    rw [hstream]
    exact hl.toDevice
  · exact hleft ▸ hl.one

/-- A reader that finds no frame has none. -/
lemma wait {dec : Decoder} (hnext : c.decoder.next = (none, dec)) :
    d = [] ∧ Lies { c with decoder := dec } h d v := by
  obtain ⟨hframes, hframes', -, hleft⟩ := left_of_next_none hnext
  have hd : d = [] := hl.decoder.symm.trans hframes
  refine ⟨hd, hl.toHost, hd ▸ hframes', ?_, ?_, hl.call⟩
  · have hstream : { c with decoder := dec }.deviceStream = c.deviceStream := by
      rw [deviceStream, deviceStream, hleft]
    rw [hstream]
    exact hl.toDevice
  · exact hleft.symm ▸ hl.one

/-- A call reads on: some of what is on its way is now in its reader. -/
lemma read {dec : Decoder} (n : ℕ) (hwaiting : c.waiting ≠ none)
    (hnext : c.decoder.next = (none, dec)) :
    d = [] ∧ ∃ d' v', v = d' ++ v' ∧ Lies { c with
      decoder := dec.append (c.toDevice.take n)
      toDevice := c.toDevice.drop n } h d' v' := by
  obtain ⟨hframes, -, hbuf, -⟩ := left_of_next_none hnext
  have hcontrol := hl.call hwaiting
  have hstream : c.deviceStream = (dec.append (c.toDevice.take n)).buf ++ c.toDevice.drop n := by
    rw [deviceStream, hcontrol, List.nil_append, ← hbuf, Decoder.append, List.append_assoc,
      List.take_append_drop]
  have hdevice := hl.toDevice
  rw [hstream] at hdevice
  obtain ⟨v', hv, hbrings⟩ := hdevice.split
  refine ⟨hl.decoder.symm.trans hframes, _, v', hv, hl.toHost, rfl, ?_, Or.inl hcontrol, hl.call⟩
  rw [deviceStream, hcontrol, List.nil_append]
  exact hbrings

/-- The control channel reads on, and what it reads is not for a call. -/
lemma listen {dec : Decoder} (n : ℕ) (hu : left c.decoder = []) (hwaiting : c.waiting = none)
    (hnext : c.control.next = (none, dec)) :
    ∃ m v', v = m ++ v' ∧ Lies { c with
      control := dec.append (c.toDevice.take n)
      toDevice := c.toDevice.drop n } h d v' := by
  obtain ⟨-, -, hbuf, -⟩ := left_of_next_none hnext
  have hstream : c.deviceStream = (dec.append (c.toDevice.take n)).buf ++ c.toDevice.drop n := by
    rw [deviceStream, hu, List.nil_append, ← hbuf, Decoder.append, List.append_assoc,
      List.take_append_drop]
  have hdevice := hl.toDevice
  rw [hstream] at hdevice
  obtain ⟨v', hv, hbrings⟩ := hdevice.split
  refine ⟨_, v', hv, hl.toHost, hl.decoder, ?_, Or.inr hu, fun hne => absurd hwaiting hne⟩
  rw [deviceStream, hu, List.nil_append]
  exact hbrings

lemma dispatch {f : Frame} {dec : Decoder} (hnext : c.control.next = (some f, dec)) :
    Lies { c with control := dec } h d v := by
  obtain ⟨-, hleft⟩ := left_of_next_some hnext
  refine ⟨hl.toHost, hl.decoder, ?_, ?_, fun hne => hleft ▸ hl.call hne⟩
  · have hstream : { c with control := dec }.deviceStream = c.deviceStream := by
      rw [deviceStream, deviceStream, hleft]
    rw [hstream]
    exact hl.toDevice
  · exact hleft ▸ hl.one

lemma pull {r : FrameReader} (n : ℕ) (hscan : c.reader.scan = (none, r)) :
    Lies { c with
      reader := { r with buf := r.buf ++ c.toHost.take n }
      toHost := c.toHost.drop n } h d v := by
  have hread := c.reader.scan_eq
  rw [hscan] at hread
  refine ⟨?_, hl.decoder, hl.toDevice, hl.one, hl.call⟩
  have hbrings := hl.toHost.read_none hread.symm
  rw [hostStream]
  dsimp only
  rw [List.append_assoc, List.take_append_drop]
  exact hbrings

lemma scan {f : Frame} {r : FrameReader} (hscan : c.reader.scan = (some f, r)) :
    ∃ h', h = f :: h' ∧ Lies { c with reader := r } h' d v := by
  have hread := c.reader.scan_eq
  rw [hscan] at hread
  obtain ⟨h', hh, hbrings⟩ := hl.toHost.read_some hread.symm
  exact ⟨h', hh, hbrings, hl.decoder, hl.toDevice, hl.one, hl.call⟩

/-- A new transport has a new reader. -/
lemma rebuild (hu : left c.decoder = []) (authorization : Bytes) :
    Lies { c with
      authorization := authorization
      seq := 0
      decoder := {}
      current := [] } h [] v := by
  have hleft := left_empty
  refine ⟨hl.toHost, brings_nil.frames, ?_, Or.inr hleft, hl.call⟩
  have hdevice := hl.toDevice
  rw [deviceStream, hu] at hdevice
  rw [deviceStream, hleft]
  exact hdevice

end Lies

end Frames

/-! ## What is written -/

section Written

variable {c} {body : Bytes} {stalled : Option ℕ} {req : RequestPayload} {reply : Reply}

/-- What makes up a request fits into a frame. -/
lemma exists_encode_of_encodeRequest {payload : Bytes} (h : encodeRequest req = some payload) :
    ∃ framed, encode ⟨kRequest, payload⟩ = some framed := by
  unfold encodeRequest at h
  split_ifs at h with hauth
  dsimp only at h
  split_ifs at h with hfits
  obtain rfl := Option.some.inj h
  exact ⟨_, encode_eq_some_iff.2 ⟨hfits, rfl⟩⟩

/-- A call whose writes are not cut has its request on the way and waits, or it has failed and
nothing has been written. -/
lemma sync_cases (hu : Unbroken c (.sync body stalled)) :
    (c.sync body stalled = (c.called (c.request body)).finish (c.request body) {} ∧
      (stalled = none → encodeRequest (c.request body) = none)) ∨
    ∃ payload framed, stalled = none ∧ encodeRequest (c.request body) = some payload ∧
      encode ⟨kRequest, payload⟩ = some framed ∧
      c.sync body stalled = { c.called (c.request body) with
        toHost := c.toHost ++ framed
        waiting := some (c.request body) } := by
  cases hpayload : encodeRequest (c.request body) with
  | none =>
      refine Or.inl ⟨?_, fun _ => rfl⟩
      rw [Cable.sync, hpayload, Option.bind_none]
  | some payload =>
      obtain ⟨framed, hframed⟩ := exists_encode_of_encodeRequest hpayload
      rw [Cable.sync, hpayload, Option.bind_some, hframed]
      cases stalled with
      | none => exact Or.inr ⟨payload, framed, rfl, rfl, hframed, rfl⟩
      | some n =>
          have hn : n = 0 := hu.2
          refine Or.inl ⟨?_, fun hnone => absurd hnone (Option.some_ne_none n)⟩
          dsimp only
          rw [hn, List.take_zero, List.append_nil]
          rfl

/-- The bridge writes one response, or it cannot. -/
lemma respond_cases (c : Cable) (req : RequestPayload) (reply : Reply) :
    (c.respond req reply = c ∧ responseFrame (forward req reply) = none) ∨
    ∃ payload framed, encodeResponsePayload (forward req reply) = some payload ∧
      encodeFrame ⟨kResponse, payload⟩ = some framed ∧
      responseFrame (forward req reply) = some ⟨kResponse, payload⟩ ∧
      c.respond req reply = { c with toDevice := c.toDevice ++ framed } := by
  rw [respond, responseFrame]
  cases hpayload : encodeResponsePayload (forward req reply) with
  | none => exact Or.inl ⟨rfl, rfl⟩
  | some payload =>
      rw [Option.bind_some, Option.bind_some]
      cases hframed : encodeFrame ⟨kResponse, payload⟩ with
      | none =>
          refine Or.inl ⟨rfl, ?_⟩
          unfold encodeFrame at hframed
          split_ifs at hframed with hlong
          rw [if_pos hlong]
      | some framed =>
          refine Or.inr ⟨payload, framed, rfl, hframed, ?_, rfl⟩
          rw [encodeFrame_eq] at hframed
          rw [if_neg (not_lt.2 (encode_eq_some_iff.1 hframed).1)]

end Written

end Cable

end Chaskiwasi.Transport

namespace Chaskiwasi.Sample

open Transport Transport.Cable

/-- A command, a line of the log that ends in the first bytes of the magic, and a call whose request
and whose response arrive in pieces. -/
def inPieces : List Cable.Act :=
  [.command [5], .listen 64, .dispatch, .print [0x49, 0x43, 0x48, 0x4B], .sync [1] none, .print [2],
    .pull 6, .pull 64, .scan, .answer 0 (.answered 200 [] [7, 8]), .read 3, .read 64, .take]

end Chaskiwasi.Sample
