import Chaskiwasi.Lib.Run
import Chaskiwasi.Transport.Frame

/-!
# Exchanges over the link

The device sends one request at a time and waits for its response; the bridge forwards every request
it gets and answers each when the server has answered it.  A call that has waited long enough gives
up, but its request may still be on the way, or at the bridge, and its response may come at any
later time.

Requests and responses are matched by a sequence number of 16 bits, which the device's transport
counts up.  The transport is built anew at every boot, and when the device is formatted or gets a
new token, and then counts from the start; the link and the bridge know nothing of it.

`Wire` is the whole link, with both its ends.  Frames come out of a stream whole and in order or
not at all (`frames_survive`), so a direction of the link is a list of frames, of which any may be
lost: one that a new transport finds cut, or that the control channel has read.
-/

namespace Chaskiwasi.Transport

def kRequest : UInt8 := 0x01

def kResponse : UInt8 := 0x02

def kCommand : UInt8 := 0x03

def kEvent : UInt8 := 0x04

/-! ## What the payloads mean -/

def putU16 (v : UInt16) : Bytes := [UInt8.ofNat (v.toNat / 2 ^ 8), UInt8.ofNat v.toNat]

def getU16 (b : Bytes) (i : ℕ) : UInt16 :=
  UInt16.ofNat ((b.getD i 0).toNat * 2 ^ 8 + (b.getD (i + 1) 0).toNat)

structure RequestPayload where
  seq : UInt16
  authorization : Bytes
  body : Bytes
  deriving DecidableEq

/-- `EncodeRequest`, of the device. -/
def encodeRequest (r : RequestPayload) : Option Bytes :=
  if 0xFFFF < r.authorization.length then none
  else
    let out := putU16 r.seq ++ (putU16 (UInt16.ofNat r.authorization.length) ++
      (r.authorization ++ r.body))
    if out.length ≤ kMaxPayloadBytes then some out else none

/-- `DecodeRequestPayload`, of the bridge. -/
def decodeRequestPayload (b : Bytes) : Option RequestPayload :=
  if b.length < 4 then none
  else
    let authLen := (getU16 b 2).toNat
    if b.length < 4 + authLen then none
    else some ⟨getU16 b 0, (b.drop 4).take authLen, b.drop (4 + authLen)⟩

/-- How an exchange ended; also `WireOutcome`, which mirrors it. -/
inductive Outcome
  | ok
  | transportFail
  | tlsTrustFail
  deriving DecidableEq

namespace Outcome

def toByte : Outcome → UInt8
  | ok => 0
  | transportFail => 1
  | tlsTrustFail => 2

/-- An outcome this build does not know is read as no response. -/
def ofByte (b : UInt8) : Outcome :=
  if b = 0 then ok else if b = 2 then tlsTrustFail else transportFail

lemma ofByte_toByte (o : Outcome) : ofByte o.toByte = o := by
  cases o <;> rfl

end Outcome

structure ResponsePayload where
  seq : UInt16
  outcome : Outcome
  httpStatus : UInt16 := 0
  retryAfter : Bytes := []
  body : Bytes := []
  deriving DecidableEq

/-- `EncodeResponsePayload`, of the bridge. -/
def encodeResponsePayload (r : ResponsePayload) : Option Bytes :=
  if 0xFFFF < r.retryAfter.length then none
  else
    some (putU16 r.seq ++ (r.outcome.toByte :: (putU16 r.httpStatus ++
      (putU16 (UInt16.ofNat r.retryAfter.length) ++ (r.retryAfter ++ r.body)))))

/-- `DecodeResponse`, of the device. -/
def decodeResponse (b : Bytes) : Option ResponsePayload :=
  if b.length < 7 then none
  else
    let raLen := (getU16 b 5).toNat
    if b.length < 7 + raLen then none
    else
      some ⟨getU16 b 0, Outcome.ofByte (b.getD 2 0), getU16 b 3, (b.drop 7).take raLen,
        b.drop (7 + raLen)⟩

def isBlank (c : UInt8) : Bool := c = 0x20 ∨ c = 0x09

def isDigit (c : UInt8) : Bool := 0x30 ≤ c ∧ c ≤ 0x39

/-- The delta-seconds form, or zero. -/
def parseRetryAfterSeconds (v : Bytes) : ℕ :=
  let text := v.dropWhile isBlank
  let digits := text.takeWhile isDigit
  if digits = [] ∨ (text.drop digits.length).dropWhile isBlank ≠ [] then 0
  else digits.foldl (fun n c => min (n * 10 + (c.toNat - 0x30)) 86400) 0

section Codecs

lemma getU16_drop (b : Bytes) (i n : ℕ) : getU16 (b.drop n) i = getU16 b (n + i) := by
  have hget : ∀ j, (b.drop n).getD j 0 = b.getD (n + j) 0 := by
    intro j
    rw [List.getD_eq_getElem?_getD, List.getElem?_drop, List.getD_eq_getElem?_getD]
  rw [getU16, getU16, hget, hget, Nat.add_assoc]

lemma getU16_putU16 (v : UInt16) (rest : Bytes) : getU16 (putU16 v ++ rest) 0 = v := by
  have hlt := v.toNat_lt
  show UInt16.ofNat ((UInt8.ofNat _).toNat * 2 ^ 8 + (UInt8.ofNat _).toNat) = v
  rw [UInt8.toNat_ofNat', UInt8.toNat_ofNat', ← UInt16.toNat_inj, UInt16.toNat_ofNat']
  omega

lemma toNat_ofNat_length {b : Bytes} (h : ¬ 0xFFFF < b.length) :
    (UInt16.ofNat b.length).toNat = b.length := by
  rw [UInt16.toNat_ofNat', Nat.mod_eq_of_lt (by omega)]

lemma decodeRequestPayload_encodeRequest {r : RequestPayload} {b : Bytes}
    (h : encodeRequest r = some b) : decodeRequestPayload b = some r := by
  unfold encodeRequest at h
  split_ifs at h with hauth
  dsimp only at h
  split_ifs at h with hfits
  obtain rfl := Option.some.inj h
  have hlength : (getU16 (putU16 r.seq ++ (putU16 (UInt16.ofNat r.authorization.length) ++
      (r.authorization ++ r.body))) 2).toNat = r.authorization.length := by
    rw [← Nat.add_zero 2, ← getU16_drop]
    show (getU16 (putU16 (UInt16.ofNat r.authorization.length) ++ _) 0).toNat = _
    rw [getU16_putU16, toNat_ofNat_length hauth]
  have hdrop : (putU16 r.seq ++ (putU16 (UInt16.ofNat r.authorization.length) ++
      (r.authorization ++ r.body))).drop 4 = r.authorization ++ r.body := rfl
  have hsize : (putU16 r.seq ++ (putU16 (UInt16.ofNat r.authorization.length) ++
      (r.authorization ++ r.body))).length =
        4 + (r.authorization.length + r.body.length) := by
    simp only [List.length_append, putU16, List.length_cons, List.length_nil]
    omega
  unfold decodeRequestPayload
  dsimp only
  rw [if_neg (by omega), hlength, if_neg (by omega), getU16_putU16, hdrop, List.take_left,
    ← List.drop_drop, hdrop, List.drop_left]

lemma decodeResponse_encodeResponsePayload {r : ResponsePayload} {b : Bytes}
    (h : encodeResponsePayload r = some b) : decodeResponse b = some r := by
  unfold encodeResponsePayload at h
  split_ifs at h with hretry
  obtain rfl := Option.some.inj h
  generalize htail : putU16 r.httpStatus ++ (putU16 (UInt16.ofNat r.retryAfter.length) ++
    (r.retryAfter ++ r.body)) = tail
  have hstatus : getU16 (putU16 r.seq ++ (r.outcome.toByte :: tail)) 3 = r.httpStatus := by
    rw [← Nat.add_zero 3, ← getU16_drop, ← htail]
    show getU16 (putU16 r.httpStatus ++ _) 0 = _
    rw [getU16_putU16]
  have hlength : (getU16 (putU16 r.seq ++ (r.outcome.toByte :: tail)) 5).toNat =
      r.retryAfter.length := by
    rw [← Nat.add_zero 5, ← getU16_drop, ← htail]
    show (getU16 (putU16 (UInt16.ofNat r.retryAfter.length) ++ _) 0).toNat = _
    rw [getU16_putU16, toNat_ofNat_length hretry]
  have hdrop : (putU16 r.seq ++ (r.outcome.toByte :: tail)).drop 7 = r.retryAfter ++ r.body := by
    rw [← htail]
    rfl
  have houtcome : (putU16 r.seq ++ (r.outcome.toByte :: tail)).getD 2 0 = r.outcome.toByte := rfl
  have hsize : (putU16 r.seq ++ (r.outcome.toByte :: tail)).length =
      7 + (r.retryAfter.length + r.body.length) := by
    rw [← htail]
    simp only [List.length_append, putU16, List.length_cons, List.length_nil]
    omega
  unfold decodeResponse
  dsimp only
  rw [if_neg (by omega), hlength, if_neg (by omega), getU16_putU16, houtcome,
    Outcome.ofByte_toByte, hstatus, hdrop, List.take_left, ← List.drop_drop, hdrop, List.drop_left]

end Codecs

/-! ## The bridge -/

/-- What became of a request that the bridge sent on to the server. -/
inductive Reply
  /-- No response, or no whole one. -/
  | failed
  /-- The server's certificate did not verify. -/
  | untrusted
  | answered (httpStatus : UInt16) (retryAfter body : Bytes)

/-- `forward`: a response that does not fit into a frame is reported as none. -/
def forward (req : RequestPayload) : Reply → ResponsePayload
  | .failed => { seq := req.seq, outcome := .transportFail }
  | .untrusted => { seq := req.seq, outcome := .tlsTrustFail }
  | .answered httpStatus retryAfter body =>
      if kMaxPayloadBytes < 7 + retryAfter.length + body.length then
        { seq := req.seq, outcome := .transportFail }
      else ⟨req.seq, .ok, httpStatus, retryAfter, body⟩

/-- `writeResponse`: the frame that is written, if the response can be one. -/
def responseFrame (r : ResponsePayload) : Option Frame :=
  (encodeResponsePayload r).bind fun payload =>
    if kMaxPayloadBytes < payload.length then none else some ⟨kResponse, payload⟩

lemma seq_forward (req : RequestPayload) (reply : Reply) : (forward req reply).seq = req.seq := by
  cases reply with
  | failed => rfl
  | untrusted => rfl
  | answered httpStatus retryAfter body =>
      dsimp only [forward]
      split_ifs <;> rfl

/-! ## The link and its ends -/

/-- What a call returns. -/
structure Result where
  outcome : Outcome := .transportFail
  httpStatus : ℕ := 0
  body : Bytes := []
  retryAfterS : ℕ := 0
  deriving DecidableEq

/-- What is made of a response. -/
def ResponsePayload.result (r : ResponsePayload) : Result :=
  match r.outcome with
  | .ok => ⟨.ok, r.httpStatus.toNat, r.body, parseRetryAfterSeconds r.retryAfter⟩
  | .tlsTrustFail => { outcome := .tlsTrustFail }
  | .transportFail => { outcome := .transportFail }

/-- A frame on its way, and the call whose request it is or whose response.  No procedure reads
the call. -/
structure Carried where
  call : Option ℕ
  frame : Frame
  deriving DecidableEq

/-- A request at the bridge, and the call that made it. -/
structure Exchange where
  call : Option ℕ
  request : RequestPayload
  deriving DecidableEq

/-- A call that waits for the response with its number. -/
structure Waiting where
  call : ℕ
  seq : UInt16
  deriving DecidableEq

/-- What a call has returned, and the call whose request the bridge made the response for. -/
structure Returned where
  call : ℕ
  producedFor : Option ℕ
  result : Result
  deriving DecidableEq

structure Wire where
  /-- The transport's header and its `seq_`. -/
  authorization : Bytes
  seq : UInt16 := 0
  /-- What the transport has read and not yet taken. -/
  decoder : List Carried := []
  waiting : Option Waiting := none
  toHost : List Carried := []
  exchanges : List Exchange := []
  toDevice : List Carried := []
  /-- How many calls there have been, and what they returned, newest first.  No procedure reads
  these. -/
  calls : ℕ := 0
  returned : List Returned := []
  deriving DecidableEq

inductive Act
  /-- `Sync` is called; `written` is what the link says of the write. -/
  | sync (body : Bytes) (written : Bool)
  /-- The call reads what has come, up to `n` whole frames of it. -/
  | read (n : ℕ)
  /-- The call takes the next frame that it has read. -/
  | take
  /-- The call gives up. -/
  | giveUp
  /-- `BuildEngine`: at a boot, a format or a new token. -/
  | rebuild (authorization : Bytes)
  /-- The device writes an event, between calls. -/
  | emit (payload : Bytes)
  /-- The bridge reads the next frame. -/
  | receive
  /-- One of the bridge's exchanges is over. -/
  | answer (i : ℕ) (reply : Reply)
  /-- One of the bridge's exchanges is never over. -/
  | abandon (i : ℕ)
  /-- The bridge writes a command. -/
  | command (payload : Bytes)
  | loseToHost (i : ℕ)
  | loseToDevice (i : ℕ)

namespace Wire

/-- The call under way returns. -/
def finish (w : Wire) (r : Returned) : Wire :=
  { w with waiting := none, returned := r :: w.returned }

/-- The frame of the next request. -/
def requestFrame (w : Wire) (body : Bytes) : Option Frame :=
  (encodeRequest ⟨w.seq + 1, w.authorization, body⟩).map (⟨kRequest, ·⟩)

/-- The start of `Sync`, up to its loop. -/
def sync (w : Wire) (body : Bytes) (written : Bool) : Wire :=
  let w' := { w with seq := w.seq + 1, calls := w.calls + 1 }
  match w.requestFrame body with
  | none => w'.finish ⟨w.calls, none, {}⟩
  | some f =>
      if written then
        { w' with
          toHost := w.toHost ++ [⟨some w.calls, f⟩]
          waiting := some ⟨w.calls, w.seq + 1⟩ }
      else w'.finish ⟨w.calls, none, {}⟩

/-- One turn of the inner loop of `Sync`. -/
def accept (w : Wire) (waiting : Waiting) (c : Carried) : Wire :=
  if c.frame.type ≠ kResponse then w
  else
    match decodeResponse c.frame.payload with
    | none => w
    | some resp =>
        if resp.seq ≠ waiting.seq then w
        else w.finish ⟨waiting.call, c.call, resp.result⟩

/-- One turn of the loop of `Serve`. -/
def receive (w : Wire) (c : Carried) : Wire :=
  if c.frame.type ≠ kRequest then w
  else
    match decodeRequestPayload c.frame.payload with
    | none => w
    | some req => { w with exchanges := w.exchanges ++ [⟨c.call, req⟩] }

/-- The end of `handleRequest`. -/
def respond (w : Wire) (e : Exchange) (reply : Reply) : Wire :=
  match responseFrame (forward e.request reply) with
  | none => w
  | some f => { w with toDevice := w.toDevice ++ [⟨e.call, f⟩] }

/-- One action, where it is possible. -/
def step (w : Wire) : Act → Option Wire
  | .sync body written =>
      if w.waiting = none then some (w.sync body written) else none
  | .read n =>
      if w.waiting ≠ none ∧ w.decoder = [] then
        some { w with decoder := w.toDevice.take n, toDevice := w.toDevice.drop n }
      else none
  | .take =>
      match w.waiting, w.decoder with
      | some waiting, c :: rest => some (accept { w with decoder := rest } waiting c)
      | _, _ => none
  | .giveUp =>
      match w.waiting with
      | some waiting => if w.decoder = [] then some (w.finish ⟨waiting.call, none, {}⟩) else none
      | none => none
  | .rebuild authorization =>
      some { w with authorization := authorization, seq := 0, decoder := [], waiting := none }
  | .emit payload =>
      if w.waiting = none then some { w with toHost := w.toHost ++ [⟨none, ⟨kEvent, payload⟩⟩] }
      else none
  | .receive =>
      match w.toHost with
      | [] => none
      | c :: rest => some (receive { w with toHost := rest } c)
  | .answer i reply =>
      (w.exchanges[i]?).map fun e =>
        respond { w with exchanges := w.exchanges.eraseIdx i } e reply
  | .abandon i => some { w with exchanges := w.exchanges.eraseIdx i }
  | .command payload => some { w with toDevice := w.toDevice ++ [⟨none, ⟨kCommand, payload⟩⟩] }
  | .loseToHost i => some { w with toHost := w.toHost.eraseIdx i }
  | .loseToDevice i => some { w with toDevice := w.toDevice.eraseIdx i }

/-! ## What is outstanding -/

end Wire

/-- The sequence number a frame carries. -/
def Carried.number (c : Carried) : Option UInt16 :=
  if c.frame.type = kRequest then (decodeRequestPayload c.frame.payload).map (·.seq)
  else if c.frame.type = kResponse then (decodeResponse c.frame.payload).map (·.seq)
  else none

namespace Wire

variable {w w' : Wire} {p : Option ℕ × UInt16}

def frames (w : Wire) : List Carried := w.toHost ++ (w.toDevice ++ w.decoder)

/-- Everything that may still become a response to some call: the call and its number. -/
def outstanding (w : Wire) : List (Option ℕ × UInt16) :=
  w.frames.filterMap (fun c => c.number.map (c.call, ·)) ++
    w.exchanges.map fun e => (e.call, e.request.seq)

lemma mem_frames {c : Carried} :
    c ∈ w.frames ↔ c ∈ w.toHost ∨ c ∈ w.toDevice ∨ c ∈ w.decoder := by
  rw [frames, List.mem_append, List.mem_append]

lemma mem_outstanding :
    p ∈ w.outstanding ↔
      (∃ c ∈ w.frames, c.call = p.1 ∧ c.number = some p.2) ∨
        ∃ e ∈ w.exchanges, e.call = p.1 ∧ e.request.seq = p.2 := by
  obtain ⟨call, n⟩ := p
  rw [outstanding, List.mem_append, List.mem_filterMap, List.mem_map]
  refine or_congr (exists_congr fun c => and_congr_right fun _ => ?_)
    (exists_congr fun e => and_congr_right fun _ => Prod.mk.injEq ..▸ Iff.rfl)
  rw [Option.map_eq_some_iff]
  constructor
  · rintro ⟨m, hm, heq⟩
    obtain ⟨hcall, rfl⟩ := Prod.mk.inj heq
    exact ⟨hcall, hm⟩
  · rintro ⟨hcall, hm⟩
    exact ⟨n, hm, congrArg (·, n) hcall⟩

lemma outstanding_subset
    (hframes : ∀ c ∈ w'.frames, ∀ n, c.number = some n → (c.call, n) ∈ w.outstanding)
    (hexchanges : ∀ e ∈ w'.exchanges, (e.call, e.request.seq) ∈ w.outstanding) :
    ∀ p ∈ w'.outstanding, p ∈ w.outstanding := by
  rintro ⟨call, n⟩ hp
  rcases mem_outstanding.1 hp with ⟨c, hc, rfl, hn⟩ | ⟨e, he, rfl, rfl⟩
  · exact hframes c hc n hn
  · exact hexchanges e he

lemma outstanding_of_frame {c : Carried} (hc : c ∈ w.frames) {n : UInt16}
    (hn : c.number = some n) : (c.call, n) ∈ w.outstanding :=
  mem_outstanding.2 (Or.inl ⟨c, hc, rfl, hn⟩)

lemma outstanding_of_exchange {e : Exchange} (he : e ∈ w.exchanges) :
    (e.call, e.request.seq) ∈ w.outstanding :=
  mem_outstanding.2 (Or.inr ⟨e, he, rfl, rfl⟩)

/-- What every action but a call's start comes to: nothing new is outstanding, and what is returned
was outstanding under the number of the call. -/
structure Follows (w w' : Wire) : Prop where
  outstanding : ∀ p ∈ w'.outstanding, p ∈ w.outstanding
  waiting : w'.waiting = w.waiting ∨ w'.waiting = none
  returned : ∀ r ∈ w'.returned, r ∈ w.returned ∨ r.result.outcome ≠ .ok ∨
    ∃ waiting, w.waiting = some waiting ∧ r.call = waiting.call ∧
      (r.producedFor, waiting.seq) ∈ w.outstanding

/-- Frames and exchanges go, or move. -/
lemma Follows.of_subset (hframes : ∀ c ∈ w'.frames, c ∈ w.frames ∨ c.number = none)
    (hexchanges : ∀ e ∈ w'.exchanges, e ∈ w.exchanges)
    (hwaiting : w'.waiting = w.waiting ∨ w'.waiting = none) (hreturned : w'.returned = w.returned) :
    Follows w w' where
  outstanding := by
    refine outstanding_subset (fun c hc n hn => ?_) fun e he =>
      outstanding_of_exchange (hexchanges e he)
    rcases hframes c hc with hc | hnone
    · exact outstanding_of_frame hc hn
    · rw [hnone] at hn
      cases hn
  waiting := hwaiting
  returned := fun r hr => Or.inl (hreturned ▸ hr)

lemma follows_accept {waiting : Waiting} {c : Carried} (hwaiting : w.waiting = some waiting)
    (hc : c ∈ w.frames) (hsub : Follows w w') : Follows w (accept w' waiting c) := by
  unfold accept
  split_ifs with htype
  · exact hsub
  · split
    next => exact hsub
    next resp hdecode =>
      split_ifs with hseq
      · exact hsub
      · refine ⟨hsub.outstanding, Or.inr rfl, fun r hr => ?_⟩
        rcases List.mem_cons.1 hr with rfl | hr
        · refine Or.inr (Or.inr ⟨waiting, hwaiting, rfl, outstanding_of_frame hc ?_⟩)
          rw [Carried.number, not_not.1 htype, if_neg (by decide), if_pos rfl, hdecode,
            Option.map_some, not_not.1 hseq]
        · exact hsub.returned r hr

lemma follows_receive {c : Carried} (hc : c ∈ w.frames) (hsub : Follows w w') :
    Follows w (receive w' c) := by
  unfold receive
  split_ifs with htype
  · exact hsub
  · split
    next => exact hsub
    next req hdecode =>
      refine ⟨outstanding_subset (fun c' hc' n hn => ?_) fun e he => ?_, hsub.waiting,
        hsub.returned⟩
      · exact hsub.outstanding _ (outstanding_of_frame (w := w') hc' hn)
      · rcases List.mem_append.1 he with he | he
        · exact hsub.outstanding _ (outstanding_of_exchange he)
        · rw [List.mem_singleton.1 he]
          refine outstanding_of_frame hc ?_
          rw [Carried.number, if_pos (not_not.1 htype), hdecode, Option.map_some]

/-- A response has the number of its request. -/
lemma number_responseFrame {call : Option ℕ} {req : RequestPayload} {reply : Reply} {f : Frame}
    (h : responseFrame (forward req reply) = some f) :
    (⟨call, f⟩ : Carried).number = some req.seq := by
  obtain ⟨payload, hencode, hframe⟩ := Option.bind_eq_some_iff.1 h
  split_ifs at hframe
  obtain rfl := Option.some.inj hframe
  rw [Carried.number, if_neg (show kResponse ≠ kRequest by decide), if_pos rfl,
    decodeResponse_encodeResponsePayload hencode, Option.map_some, seq_forward]

lemma follows_respond {e : Exchange} {reply : Reply} (he : e ∈ w.exchanges) (hsub : Follows w w') :
    Follows w (respond w' e reply) := by
  unfold respond
  split
  next => exact hsub
  next f hf =>
    refine ⟨outstanding_subset (fun c hc n hn => ?_) fun e' he' => ?_, hsub.waiting,
      hsub.returned⟩
    · have hold : c ∈ w'.frames → (c.call, n) ∈ w.outstanding := fun hc =>
        hsub.outstanding _ (outstanding_of_frame hc hn)
      rcases mem_frames.1 hc with hc | hc | hc
      · exact hold (mem_frames.2 (Or.inl hc))
      · rcases List.mem_append.1 hc with hc | hc
        · exact hold (mem_frames.2 (Or.inr (Or.inl hc)))
        · obtain rfl := List.mem_singleton.1 hc
          rw [number_responseFrame hf] at hn
          obtain rfl := Option.some.inj hn
          exact outstanding_of_exchange he
      · exact hold (mem_frames.2 (Or.inr (Or.inr hc)))
    · exact hsub.outstanding _ (outstanding_of_exchange he')

/-- Every action but the start of a call. -/
lemma follows_step {a : Act} (ha : ∀ body written, a ≠ .sync body written)
    (h : w.step a = some w') : Follows w w' := by
  cases a with
  | sync body written => exact absurd rfl (ha body written)
  | read n =>
      simp only [step] at h
      split_ifs at h with hread
      obtain rfl := Option.some.inj h
      refine Follows.of_subset (fun c hc => Or.inl ?_) (fun e he => he) (Or.inl rfl) rfl
      rcases mem_frames.1 hc with hc | hc | hc
      · exact mem_frames.2 (Or.inl hc)
      · exact mem_frames.2 (Or.inr (Or.inl (List.mem_of_mem_drop hc)))
      · exact mem_frames.2 (Or.inr (Or.inl (List.mem_of_mem_take hc)))
  | take =>
      simp only [step] at h
      split at h
      next waiting c rest hwaiting hdecoder =>
        obtain rfl := Option.some.inj h
        have hmem : c ∈ w.frames := by
          refine mem_frames.2 (Or.inr (Or.inr ?_))
          rw [hdecoder]
          exact List.mem_cons_self ..
        refine follows_accept hwaiting hmem (Follows.of_subset (fun c' hc' => Or.inl ?_)
          (fun e he => he) (Or.inl rfl) rfl)
        refine mem_frames.2 ((mem_frames.1 hc').imp_right (Or.imp_right fun hrest => ?_))
        rw [hdecoder]
        exact List.mem_cons_of_mem _ hrest
      next => cases h
  | giveUp =>
      simp only [step] at h
      split at h
      next waiting hwaiting =>
        split_ifs at h with hdecoder
        obtain rfl := Option.some.inj h
        refine ⟨fun p hp => hp, Or.inr rfl, fun r hr => ?_⟩
        rcases List.mem_cons.1 hr with rfl | hr
        · exact Or.inr (Or.inl fun heq => by cases heq)
        · exact Or.inl hr
      next => cases h
  | rebuild authorization =>
      obtain rfl := Option.some.inj h
      refine Follows.of_subset (fun c hc => Or.inl ?_) (fun e he => he) (Or.inr rfl) rfl
      rcases mem_frames.1 hc with hc | hc | hc
      · exact mem_frames.2 (Or.inl hc)
      · exact mem_frames.2 (Or.inr (Or.inl hc))
      · cases hc
  | emit payload =>
      simp only [step] at h
      split_ifs at h with hidle
      obtain rfl := Option.some.inj h
      refine Follows.of_subset (fun c hc => ?_) (fun e he => he) (Or.inl rfl) rfl
      rcases mem_frames.1 hc with hc | hc
      · rcases List.mem_append.1 hc with hc | hc
        · exact Or.inl (mem_frames.2 (Or.inl hc))
        · rw [List.mem_singleton.1 hc]
          exact Or.inr rfl
      · exact Or.inl (mem_frames.2 (Or.inr hc))
  | receive =>
      simp only [step] at h
      split at h
      next => cases h
      next c rest hhost =>
        obtain rfl := Option.some.inj h
        have hmem : c ∈ w.frames := by
          refine mem_frames.2 (Or.inl ?_)
          rw [hhost]
          exact List.mem_cons_self ..
        refine follows_receive hmem (Follows.of_subset (fun c' hc' => Or.inl ?_)
          (fun e he => he) (Or.inl rfl) rfl)
        refine mem_frames.2 ((mem_frames.1 hc').imp_left fun hrest => ?_)
        rw [hhost]
        exact List.mem_cons_of_mem _ hrest
  | answer i reply =>
      obtain ⟨e, he, rfl⟩ := Option.map_eq_some_iff.1 h
      refine follows_respond (List.mem_of_getElem? he) ?_
      exact Follows.of_subset (fun c hc => Or.inl hc) (fun e he => List.mem_of_mem_eraseIdx he)
        (Or.inl rfl) rfl
  | abandon i =>
      obtain rfl := Option.some.inj h
      exact Follows.of_subset (fun c hc => Or.inl hc) (fun e he => List.mem_of_mem_eraseIdx he)
        (Or.inl rfl) rfl
  | command payload =>
      obtain rfl := Option.some.inj h
      refine Follows.of_subset (fun c hc => ?_) (fun e he => he) (Or.inl rfl) rfl
      rcases mem_frames.1 hc with hc | hc | hc
      · exact Or.inl (mem_frames.2 (Or.inl hc))
      · rcases List.mem_append.1 hc with hc | hc
        · exact Or.inl (mem_frames.2 (Or.inr (Or.inl hc)))
        · rw [List.mem_singleton.1 hc]
          exact Or.inr rfl
      · exact Or.inl (mem_frames.2 (Or.inr (Or.inr hc)))
  | loseToHost i =>
      obtain rfl := Option.some.inj h
      refine Follows.of_subset (fun c hc => Or.inl ?_) (fun e he => he) (Or.inl rfl) rfl
      exact mem_frames.2 ((mem_frames.1 hc).imp_left List.mem_of_mem_eraseIdx)
  | loseToDevice i =>
      obtain rfl := Option.some.inj h
      refine Follows.of_subset (fun c hc => Or.inl ?_) (fun e he => he) (Or.inl rfl) rfl
      refine mem_frames.2 ((mem_frames.1 hc).imp_right (Or.imp_left fun hlost => ?_))
      exact List.mem_of_mem_eraseIdx hlost

/-- What the start of a call comes to. -/
lemma sync_cases (w : Wire) (body : Bytes) (written : Bool) :
    ((w.sync body written).waiting = none ∧
      (w.sync body written).returned = ⟨w.calls, none, {}⟩ :: w.returned) ∨
    ((w.sync body written).waiting = some ⟨w.calls, w.seq + 1⟩ ∧
      (w.sync body written).returned = w.returned ∧
      ∀ p ∈ (w.sync body written).outstanding,
        p ∈ w.outstanding ∨ p = (some w.calls, w.seq + 1)) := by
  unfold sync
  dsimp only
  cases hframe : w.requestFrame body with
  | none => exact Or.inl ⟨rfl, rfl⟩
  | some f =>
      dsimp only
      split_ifs with hwritten
      · refine Or.inr ⟨rfl, rfl, ?_⟩
        rintro ⟨call, n⟩ hp
        obtain ⟨payload, hencode, rfl⟩ := Option.map_eq_some_iff.1 hframe
        have hnew : (⟨some w.calls, ⟨kRequest, payload⟩⟩ : Carried).number = some (w.seq + 1) := by
          rw [Carried.number, if_pos rfl, decodeRequestPayload_encodeRequest hencode,
            Option.map_some]
        rcases mem_outstanding.1 hp with ⟨c, hc, rfl, hn⟩ | ⟨e, he, rfl, rfl⟩
        · rcases mem_frames.1 hc with hc | hc
          · rcases List.mem_append.1 hc with hc | hc
            · exact Or.inl (outstanding_of_frame (mem_frames.2 (Or.inl hc)) hn)
            · obtain rfl := List.mem_singleton.1 hc
              rw [hnew] at hn
              exact Or.inr (congrArg _ (Option.some.inj hn).symm)
          · exact Or.inl (outstanding_of_frame (w := w) (mem_frames.2 (Or.inr hc)) hn)
        · exact Or.inl (outstanding_of_exchange he)
      · exact Or.inl ⟨rfl, rfl⟩

/-! ## The law -/

/-- Nothing is outstanding under the number that the next call will use. -/
def Fresh (w : Wire) : Prop := ∀ p ∈ w.outstanding, p.2 ≠ w.seq + 1

instance (w : Wire) : Decidable w.Fresh :=
  inferInstanceAs (Decidable (∀ p ∈ w.outstanding, p.2 ≠ w.seq + 1))

/-- A call starts only when its number is fresh. -/
def FreshSync (w : Wire) : Act → Prop
  | .sync _ _ => w.Fresh
  | _ => True

instance (w : Wire) (a : Act) : Decidable (w.FreshSync a) :=
  match a with
  | .sync _ _ => inferInstanceAs (Decidable w.Fresh)
  | .read _ | .take | .giveUp | .rebuild _ | .emit _ | .receive | .answer _ _ | .abandon _
  | .command _ | .loseToHost _ | .loseToDevice _ => inferInstanceAs (Decidable True)

end Wire

/-- A body is returned only if it was made for the request of the call itself. -/
def Returned.Own (r : Returned) : Prop := r.result.outcome = .ok → r.producedFor = some r.call

instance (r : Returned) : Decidable r.Own :=
  inferInstanceAs (Decidable (r.result.outcome = .ok → r.producedFor = some r.call))

namespace Wire

variable {w w' : Wire}

/-- Whatever is outstanding under the number of the call under way is that call's. -/
structure Correlated (w : Wire) : Prop where
  own : ∀ waiting, w.waiting = some waiting →
    ∀ p ∈ w.outstanding, p.2 = waiting.seq → p.1 = some waiting.call
  returned : ∀ r ∈ w.returned, r.Own

lemma Correlated.of_follows (hw : Correlated w) (h : Follows w w') : Correlated w' where
  own := by
    intro waiting hwaiting p hp hseq
    rcases h.waiting with hsame | hnone
    · exact hw.own waiting (hsame ▸ hwaiting) p (h.outstanding p hp) hseq
    · rw [hnone] at hwaiting
      cases hwaiting
  returned := by
    intro r hr
    rcases h.returned r hr with hr | hfailed | ⟨waiting, hwaiting, hcall, hmem⟩
    · exact hw.returned r hr
    · exact fun hok => absurd hok hfailed
    · intro _
      rw [hcall]
      exact hw.own waiting hwaiting _ hmem rfl

lemma Correlated.sync (hw : Correlated w) (hfresh : w.Fresh) (body : Bytes) (written : Bool) :
    Correlated (w.sync body written) := by
  rcases sync_cases w body written with ⟨hwaiting, hreturned⟩ | ⟨hwaiting, hreturned, hnew⟩
  · refine ⟨fun waiting h => ?_, fun r hr => ?_⟩
    · rw [hwaiting] at h
      cases h
    · rw [hreturned] at hr
      rcases List.mem_cons.1 hr with rfl | hr
      · exact fun hok => by cases hok
      · exact hw.returned r hr
  · refine ⟨fun waiting h p hp hseq => ?_, fun r hr => hw.returned r (hreturned ▸ hr)⟩
    rw [hwaiting] at h
    obtain rfl := Option.some.inj h
    rcases hnew p hp with hold | rfl
    · exact absurd hseq (hfresh p hold)
    · rfl

lemma correlated_step {a : Act} (hw : Correlated w) (hfresh : FreshSync w a)
    (h : w.step a = some w') : Correlated w' := by
  by_cases hsync : ∃ body written, a = .sync body written
  · obtain ⟨body, written, rfl⟩ := hsync
    simp only [step] at h
    split_ifs at h with hidle
    obtain rfl := Option.some.inj h
    exact hw.sync hfresh body written
  · refine hw.of_follows (follows_step (fun body written heq => hsync ⟨body, written, heq⟩) h)

/-- A link that nothing has gone over yet. -/
def start (authorization : Bytes) : Wire := { authorization }

lemma correlated_start (authorization : Bytes) : Correlated (start authorization) :=
  ⟨fun _ h => by (cases h), fun _ h => by (cases h)⟩

/-- Whatever is lost, late or built anew: as long as every call uses a number under which nothing
is outstanding, it returns only what was made for its own request. -/
theorem response_own {authorization : Bytes} {as : List Act} {t : Wire}
    (hfresh : Run.Meets step FreshSync (start authorization) as)
    (hrun : Run.run step (start authorization) as = some t) : ∀ r ∈ t.returned, r.Own :=
  (Run.run_invariant_of_meets (fun _ _ _ hw hC h => correlated_step hw hC h)
    (correlated_start authorization) hfresh hrun).returned

end Wire

end Chaskiwasi.Transport

namespace Chaskiwasi.Sample

open Transport Transport.Wire

/-- A call, its response, and the next call, which gives up before its response has come. -/
def secondIsLate : List Transport.Act :=
  [.sync [1] true, .receive, .answer 0 (.answered 200 [] [1]), .read 1, .take,
    .sync [2] true, .receive, .giveUp, .answer 0 (.answered 200 [] [2]),
    .sync [3] true, .read 1, .take, .receive, .answer 0 (.answered 200 [] [3]), .read 1, .take]

/-- A call that gives up, a new token, and then the next call, which the late response finds. -/
def newToken : List Transport.Act :=
  [.sync [1] true, .receive, .giveUp, .rebuild [7], .answer 0 (.answered 200 [] [1]),
    .sync [2] true, .read 1, .take]

end Chaskiwasi.Sample

namespace Chaskiwasi.Transport.Wire

theorem late_response_passed_over :
    ∃ t, Run.run step (start []) Sample.secondIsLate = some t ∧
      t.returned.map (fun r => (r.call, r.result.body)) = [(2, [3]), (1, []), (0, [1])] ∧
      ∀ r ∈ t.returned, r.Own := by
  obtain ⟨t, hrun, hbodies⟩ : ∃ t, Run.run step (start []) Sample.secondIsLate = some t ∧
      t.returned.map (fun r => (r.call, r.result.body)) = [(2, [3]), (1, []), (0, [1])] :=
    ⟨_, rfl, rfl⟩
  exact ⟨t, hrun, hbodies, response_own (by decide +kernel) hrun⟩

/-- The transport that is built for the new token counts from the start. -/
theorem new_token_takes_late_response :
    ∃ (authorization : Bytes) (as : List Transport.Act) (t : Wire),
      Run.run step (start authorization) as = some t ∧ ∃ r ∈ t.returned,
        r.result.outcome = .ok ∧ r.producedFor ≠ some r.call :=
  ⟨[], Sample.newToken, _, rfl, ⟨1, some 0, ⟨.ok, 200, [1], 0⟩⟩, by decide +kernel, rfl, by decide⟩

end Chaskiwasi.Transport.Wire
