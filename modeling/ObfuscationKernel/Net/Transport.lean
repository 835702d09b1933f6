import ObfuscationKernel.Library.Reassembly
import ObfuscationKernel.Library.Serial
import ObfuscationKernel.Net.Congestion
import ObfuscationKernel.Net.Wire

/-! The TCP control block: sender, receiver, timers and every public operation. -/

namespace ObfuscationKernel.Net.Tcp

open ObfuscationKernel.Core Library Library.Serial Wire

abbrev U32 := BitVec 32

structure Capacities where
  send : ℕ
  receive : ℕ
  segment : ℕ
  send_pos : 0 < send
  send_le : send ≤ 65535
  receive_pos : 0 < receive
  receive_le : receive ≤ 65535
  segment_pos : 0 < segment
  segment_le : segment ≤ 1460

inductive State
  | closed | listen | synSent | synReceived | established | finWait1
  | finWait2 | closeWait | closing | lastAck | timeWait
  deriving DecidableEq, Repr

def State.finAcked : State → State
  | .finWait1 => .finWait2
  | .closing => .timeWait
  | .lastAck => .closed
  | s => s

def State.finReceived : State → State
  | .established => .closeWait
  | .finWait1 => .closing
  | .finWait2 => .timeWait
  | s => s

inductive Failure
  | none | reset | refused | timedOut | aborted
  deriving DecidableEq, Repr

inductive Ingress
  | ignored | accepted | challenged | reset
  deriving DecidableEq, Repr

inductive Kind
  | ack | syn | data | fin | retry | reset | fast | probe
  deriving DecidableEq, Repr

structure Timer where
  active : Bool := false
  deadline : ℕ := 0
  retries : ℕ := 0
  deriving DecidableEq, Repr

structure Plan where
  active : Bool := false
  token : ℕ := 0
  kind : Kind := .ack
  destination : Endpoint := {}
  fields : TcpFields := {}
  payload : ℕ := 0
  offset : ℕ := 0
  deriving DecidableEq, Repr

structure Range where
  start : U32
  stop : U32
  fin : Bool
  deriving DecidableEq, Repr

def Range.apart (x r : Range) : Bool := before x.stop r.start || before r.stop x.start

def Range.merge (x r : Range) : Range :=
  let last := if after r.stop x.stop then r.stop else x.stop
  ⟨if before r.start x.start then r.start else x.start, last, x.fin && x.stop == last || r.fin && r.stop == last⟩

structure PreparedPacket where
  length : ℕ
  token : ℕ
  packet : Datagram
  deriving DecidableEq, Repr

def mslMs : ℕ := 120000
def maxRtoMs : ℕ := 60000
def maxRetransmissions : ℕ := 8
def fastRetransmitThreshold : ℕ := 3
def maxOutOfOrder : ℕ := 4
def u64Max : ℕ := 2 ^ 64 - 1

def deadline (now delay : ℕ) : ℕ := if now > u64Max - delay then u64Max else now + delay

structure Sender (n : ℕ) where
  tx : Ring UInt8 n := Ring.fill n 0
  txHead : ℕ := 0
  txSize : ℕ := 0
  iss : U32 := 0
  sndUna : U32 := 0
  sndNxt : U32 := 0
  sndMax : U32 := 0
  rtx : Timer := {}
  writeShutdown : Bool := false
  finAcknowledged : Bool := false
  deriving DecidableEq, Repr

namespace Sender

variable {n : ℕ} (s : Sender n)

def startSequence (iss : U32) : Sender n :=
  { s with iss := iss, sndUna := iss, sndNxt := iss, sndMax := iss }

def outstanding : U32 := s.sndNxt - s.sndUna

def finSequence : U32 := s.sndUna + BitVec.ofNat 32 s.txSize

def finInFlight : Bool := s.writeShutdown && s.sndNxt == s.finSequence + 1

def finSent : Bool := s.writeShutdown && after s.sndMax s.finSequence

def sentData : ℕ := (s.outstanding - if s.finInFlight then 1 else 0).toNat

def write (input : List UInt8) : Sender n :=
  { s with tx := s.tx.store (s.txHead + s.txSize) input, txSize := s.txSize + input.length }

def release (ack : U32) (released : ℕ) (fin : Bool) (due : ℕ) : Sender n :=
  { s with
    txHead := (s.txHead + released) % n, txSize := s.txSize - released
    sndUna := ack, sndNxt := if before s.sndNxt ack then ack else s.sndNxt
    finAcknowledged := s.finAcknowledged || fin
    rtx := if ack == s.sndMax then {} else { s.rtx with retries := 0, deadline := due } }

def arm (due : ℕ) : Sender n := if s.rtx.active then s else { s with rtx := ⟨true, due, 0⟩ }

def launch (stop : U32) : Sender n := { s with sndNxt := stop, sndMax := stop }

def advance (stop : U32) : Sender n :=
  { s with sndNxt := stop, sndMax := if after stop s.sndMax then stop else s.sndMax }

end Sender

structure Receiver (n : ℕ) where
  rx : Ring UInt8 n := Ring.fill n 0
  rxHead : ℕ := 0
  rxSize : ℕ := 0
  rcvNxt : U32 := 0
  irs : U32 := 0
  eof : Bool := false
  ooo : List Range := []
  deriving DecidableEq, Repr

namespace Receiver

variable {n : ℕ}

def window (r : Receiver n) : ℕ := n - r.rxSize

def acceptable (r : Receiver n) (seq length : U32) : Bool :=
  let within (value : U32) : Bool := decide ((value - r.rcvNxt).toNat < r.window)
  if length = 0 then if r.window ≠ 0 then within seq else seq == r.rcvNxt
  else decide (r.window ≠ 0) && (within seq || within (seq + length - 1))

def mergeFrom : ℕ → List Range → Range → List Range × Range
  | 0, ooo, x => (ooo, x)
  | k + 1, ooo, x =>
    match ooo[ooo.length - (k + 1)]? with
    | none => (ooo, x)
    | some r =>
      if x.apart r then mergeFrom k ooo x
      else mergeFrom k (swapRemove ooo (ooo.length - (k + 1))) (x.merge r)

def remember (r : Receiver n) (start stop : U32) (fin : Bool) : Receiver n :=
  if start = stop && !fin then r
  else
    let (ooo, x) := mergeFrom r.ooo.length r.ooo ⟨start, stop, fin⟩
    { r with ooo := if ooo.length < maxOutOfOrder then ooo ++ [x] else ooo }

def joinAt (r : Receiver n) (i : ℕ) (range : Range) (final : Bool) : Receiver n × Bool :=
  let ooo := swapRemove r.ooo i
  if after range.stop r.rcvNxt then
    ({ r with rxSize := r.rxSize + (range.stop - r.rcvNxt).toNat, rcvNxt := range.stop, ooo := ooo }, range.fin)
  else ({ r with ooo := ooo }, range.fin && range.stop == r.rcvNxt || final)

def joinStep (r : Receiver n) (final : Bool) : Option (Receiver n × Bool) := do
  let i ← r.ooo.findIdx? fun range => !after range.start r.rcvNxt
  let range ← r.ooo[i]?
  some (r.joinAt i range final)

def join : ℕ → Receiver n × Bool → Receiver n × Bool
  | 0, p => p
  | k + 1, p =>
    match joinStep p.1 p.2 with
    | none => p
    | some p' => join k p'

def place (r : Receiver n) (sequence : U32) (data : List UInt8) (fin : Bool) : Receiver n :=
  let free := n - r.rxSize
  let off := (sequence - r.rcvNxt).toNat
  if off ≥ free then r
  else
    let count := min data.length (free - off)
    let closes := fin && count == data.length
    let r := { r with rx := r.rx.store (r.rxHead + r.rxSize + off) (data.take count) }
    if off ≠ 0 then r.remember sequence (sequence + BitVec.ofNat 32 count) closes
    else
      let r := { r with rxSize := r.rxSize + count, rcvNxt := r.rcvNxt + BitVec.ofNat 32 count }
      let (r, final) := join r.ooo.length (r, closes)
      if final && r.window ≠ 0 then { r with rcvNxt := r.rcvNxt + 1, eof := true, ooo := [] } else r

def consume (r : Receiver n) (sequence : U32) (data : List UInt8) (fin : Bool) : Receiver n :=
  if r.eof then r
  else if before sequence r.rcvNxt then
    let skip := (r.rcvNxt - sequence).toNat
    if skip > data.length then r else r.place r.rcvNxt (data.drop skip) fin
  else r.place sequence data fin

def outOfOrder (r : Receiver n) : ℕ := (r.ooo.map fun range => (range.stop - range.start).toNat).sum

def peek (r : Receiver n) (size : ℕ) : List UInt8 := r.rx.slice r.rxHead (min size r.rxSize)

def read (r : Receiver n) (size : ℕ) : Receiver n :=
  { r with rxHead := (r.rxHead + min size r.rxSize) % n, rxSize := r.rxSize - min size r.rxSize }

end Receiver

/-- The protocol state of a control block: everything but clocks, congestion and reply bookkeeping. -/
structure Block (cap : Capacities) where
  state : State := .closed
  failure : Failure := .none
  localEndpoint : Endpoint := {}
  peer : Endpoint := {}
  passive : Bool := false
  pendingSyn : Bool := false
  listenerArmed : Bool := false
  peerMss : ℕ := 536
  snd : Sender cap.send := {}
  rcv : Receiver cap.receive := {}
  plan : Plan := {}
  deriving DecidableEq, Repr

namespace Block

variable {cap : Capacities}

def resetFields (k : Block cap) : Block cap :=
  { localEndpoint := k.localEndpoint, snd := { tx := k.snd.tx }, rcv := { rx := k.rcv.rx } }

def terminate (k : Block cap) (reason : Failure) : Block cap :=
  { k with
    state := .closed, failure := reason, pendingSyn := false
    snd := { k.snd with txSize := 0, rtx := {}, writeShutdown := true }
    rcv := { k.rcv with rxSize := 0, ooo := [] } }

def returnToListen (k : Block cap) : Block cap :=
  { k.resetFields with
    snd := k.resetFields.snd.startSequence k.snd.iss, state := .listen, passive := true }

def enter (k : Block cap) (state : State) : Block cap :=
  { k with state := state, snd := if state == .timeWait then { k.snd with rtx := {} } else k.snd }

def ackClosesFin (k : Block cap) (ack : U32) : Bool := k.snd.finSent && ack == k.snd.finSequence + 1

def ackReleases (k : Block cap) (ack : U32) : ℕ :=
  let syn := k.state == .synSent || k.state == .synReceived
  let data := ack - k.snd.sndUna - (if syn then 1 else 0) - (if k.ackClosesFin ack then 1 else 0)
  min data.toNat k.snd.txSize

def ackIgnored (k : Block cap) (ack : U32) : Bool := !after ack k.snd.sndUna || after ack k.snd.sndMax

def acknowledge (k : Block cap) (ack : U32) (due : ℕ) : Block cap :=
  if k.ackIgnored ack then k
  else
    let next := { k with snd := k.snd.release ack (k.ackReleases ack) (k.ackClosesFin ack) due }
    if k.ackClosesFin ack then next.enter k.state.finAcked else next

def establish (k : Block cap) (ack : U32) (due : ℕ) : Block cap :=
  { k.acknowledge ack due with state := .established, pendingSyn := false }

def consume (k : Block cap) (seg : Wire.Tcp) : Block cap :=
  let fin := seg.fields.has tcpFin
  if seg.payload.isEmpty && !fin then k
  else
    let next := { k with rcv := k.rcv.consume seg.fields.sequence seg.payload fin }
    if next.rcv.eof && !k.rcv.eof then next.enter k.state.finReceived else next

def synchronize (k : Block cap) (seq : U32) : Block cap :=
  { k with rcv := { k.rcv with irs := seq, rcvNxt := seq + 1 } }

def expireTimeWait (k : Block cap) (expired : Bool) : Block cap :=
  if k.state == .timeWait && expired then { k with state := .closed } else k

def stop (sent : Plan) : U32 :=
  sent.fields.sequence + BitVec.ofNat 32 sent.payload + (if sent.fields.has (tcpSyn ||| tcpFin) then 1 else 0)

def completeSyn (k : Block cap) (sent : Plan) (due : ℕ) : Block cap :=
  { k with
    pendingSyn := false
    snd :=
      if k.snd.sndMax == k.snd.iss then (k.snd.launch (stop sent)).arm due
      else { k.snd with rtx := { k.snd.rtx with deadline := due } } }

def completeRetry (k : Block cap) (sent : Plan) (due : ℕ) : Block cap :=
  let snd := { k.snd with rtx := { k.snd.rtx with retries := k.snd.rtx.retries + 1, deadline := due } }
  if sent.fields.has tcpSyn then { k with snd := snd, pendingSyn := false }
  else { k with snd := { snd with sndNxt := stop sent } }

def freshlySent (k : Block cap) (sent : Plan) : Bool := !before sent.fields.sequence k.snd.sndMax

def completeNew (k : Block cap) (sent : Plan) (due : ℕ) : Block cap :=
  { k with
    snd := (k.snd.advance (stop sent)).arm due
    state :=
      if sent.kind == .fin && k.freshlySent sent then
        if k.state == .closeWait then .lastAck else .finWait1
      else k.state }

def complete (k : Block cap) (sent : Plan) (due : ℕ) : Block cap :=
  match sent.kind with
  | .ack | .reset | .fast => k
  | .syn => k.completeSyn sent due
  | .retry => k.completeRetry sent due
  | .data | .probe | .fin => k.completeNew sent due

end Block

structure Connection (cap : Capacities) (σ : Type) extends Block cap where
  resetPeer : Endpoint := {}
  resetSeq : U32 := 0
  recover : U32 := 0
  wl1 : U32 := 0
  wl2 : U32 := 0
  peerWindow : ℕ := 0
  rto : ℕ := 1000
  srtt8 : ℕ := 0
  variance4 : ℕ := 0
  lastNow : ℕ := 0
  nextToken : ℕ := 0
  timeWaitDeadline : ℕ := 0
  finWaitDeadline : ℕ := 0
  challengeDeadline : ℕ := 0
  persistDeadline : ℕ := 0
  rttSentAt : ℕ := 0
  rttSequence : U32 := 0
  pendingAck : Bool := false
  resetPending : Bool := false
  rttKnown : Bool := false
  synRetried : Bool := false
  challengeSeen : Bool := false
  rttTiming : Bool := false
  recovery : Bool := false
  retransmitHead : Bool := false
  dupacks : ℕ := 0
  cc : σ

structure Snapshot where
  state : State
  failure : Failure
  sendUnacknowledged : U32
  receiveNext : U32
  sendBuffered : ℕ
  receiveBuffered : ℕ
  peerWindow : ℕ
  receiveWindow : ℕ
  eof : Bool
  writeShutdown : Bool
  prepared : Bool
  deriving DecidableEq, Repr

namespace Connection

variable {cap : Capacities} {σ : Type} [CongestionControl σ]

abbrev Outcome (cap : Capacities) (σ α : Type) := Result α × Connection cap σ

def fresh : Connection cap σ := { cc := CongestionControl.fresh }

def snapshot (c : Connection cap σ) : Snapshot :=
  ⟨c.state, c.failure, c.snd.sndUna, c.rcv.rcvNxt, c.snd.txSize, c.rcv.rxSize, c.peerWindow,
    c.rcv.window, c.rcv.eof, c.snd.writeShutdown, c.plan.active⟩

def segment (c : Connection cap σ) : ℕ := min cap.segment c.peerMss

def sending (c : Connection cap σ) : Bool :=
  c.state == .established || c.state == .closeWait || c.state == .finWait1 ||
    c.state == .closing || c.state == .lastAck

def resetFields (c : Connection cap σ) : Connection cap σ :=
  { toBlock := c.toBlock.resetFields, resetPeer := c.resetPeer, resetSeq := c.resetSeq
    lastNow := c.lastNow, nextToken := c.nextToken
    cc := CongestionControl.start CongestionControl.fresh (min cap.segment 536) }

def terminate (c : Connection cap σ) (reason : Failure) : Connection cap σ :=
  { c with
    toBlock := c.toBlock.terminate reason
    pendingAck := false, resetPending := false, retransmitHead := false }

def returnToListen (c : Connection cap σ) : Connection cap σ :=
  { c.resetFields with toBlock := c.toBlock.returnToListen, recover := c.snd.iss }

def queueReset (c : Connection cap σ) (destination : Endpoint) (seq : U32) : Connection cap σ :=
  { c with resetPending := true, resetPeer := destination, resetSeq := seq }

def challenge (c : Connection cap σ) (now : ℕ) : Outcome cap σ Ingress :=
  (.ok .challenged, if !c.challengeSeen || decide (now ≥ c.challengeDeadline) then
      { c with pendingAck := true, challengeSeen := true, challengeDeadline := deadline now 1000 }
    else c)

def mssOption : ℕ → TcpOptions → Option ℕ
  | 0, _ => none
  | k + 1, cursor =>
    match cursor.next with
    | (.ok (some option), cursor') =>
      if option.kind = 2 && be16 option.data 0 ≠ 0 then some (be16 option.data 0) else mssOption k cursor'
    | _ => none

def negotiateMss (c : Connection cap σ) (seg : Wire.Tcp) : Connection cap σ :=
  let mss := (mssOption (seg.options.length + 1) { options := seg.options, flags := seg.fields.flags }).getD 536
  { c with peerMss := mss, cc := CongestionControl.start c.cc (min cap.segment mss) }

def sampleRtt (c : Connection cap σ) (sample : ℕ) : Connection cap σ :=
  let sample := min sample (maxRtoMs * 1024)
  let c : Connection cap σ :=
    if !c.rttKnown then { c with srtt8 := sample * 8, variance4 := sample * 2, rttKnown := true }
    else
      let old := c.srtt8 / 8
      let error := if old > sample then old - sample else sample - old
      { c with variance4 := (3 * c.variance4 + 4 * error) / 4, srtt8 := (7 * c.srtt8 + sample * 8) / 8 }
  let computed : ℕ := (c.srtt8 + 7) / 8 + (if c.variance4 ≠ 0 then c.variance4 else 1)
  { c with rto := min (if computed < 1000 then 1000 else computed) maxRtoMs }

def activeOpen (c : Connection cap σ) (here peer : Endpoint) (iss : U32) (now : ℕ) : Outcome cap σ Unit :=
  if c.plan.active || c.state != .closed || c.rcv.rxSize != 0 then
    (.error (.busy "TCP control block is in use"), c)
  else if !here.valid || !peer.valid || here.address.family != peer.address.family then
    (.error (.invalidArgument "invalid TCP endpoints"), c)
  else if now < c.lastNow then (.error (.invalidArgument "TCP clock moved backward"), c)
  else
    let r := c.resetFields
    (.ok (), { r with
      localEndpoint := here, peer := peer, snd := r.snd.startSequence iss, recover := iss
      state := .synSent, pendingSyn := true, lastNow := now })

def passiveOpen (c : Connection cap σ) (here : Endpoint) (iss : U32) (now : ℕ) : Outcome cap σ Unit :=
  if c.plan.active || c.state != .closed || c.rcv.rxSize != 0 then
    (.error (.busy "TCP control block is in use"), c)
  else if !here.valid then (.error (.invalidArgument "invalid TCP listener endpoint"), c)
  else if now < c.lastNow then (.error (.invalidArgument "TCP clock moved backward"), c)
  else
    let r := c.resetFields
    (.ok (), { r with
      localEndpoint := here, snd := r.snd.startSequence iss, recover := iss
      state := .listen, passive := true, listenerArmed := true, lastNow := now })

def rearmListener (c : Connection cap σ) (iss : U32) (now : ℕ) : Outcome cap σ Unit :=
  if c.plan.active || c.state != .listen || c.listenerArmed || c.resetPending then
    (.error (.busy "TCP listener is not awaiting a fresh ISS"), c)
  else if now < c.lastNow || iss == c.snd.iss then
    (.error (.invalidArgument "fresh listener ISS and monotonic time required"), c)
  else
    (.ok (), { c with
      snd := c.snd.startSequence iss, recover := iss, listenerArmed := true, lastNow := now })

def abort (c : Connection cap σ) : Outcome cap σ Unit :=
  if c.plan.active then (.error (.busy "complete prepared TCP packet before abort"), c)
  else (.ok (), c.terminate .aborted)

def write (c : Connection cap σ) (input : List UInt8) : Outcome cap σ ℕ :=
  if c.plan.active then (.error (.busy "complete prepared TCP packet before write"), c)
  else if c.snd.writeShutdown || (c.state != .established && c.state != .closeWait) then
    (.error (.fault "TCP stream is not writable"), c)
  else if input.isEmpty then (.ok 0, c)
  else
    let count := min input.length (cap.send - c.snd.txSize)
    if count = 0 then (.error (.wouldBlock "TCP send buffer is full"), c)
    else (.ok count, { c with snd := c.snd.write (input.take count) })

def peek (c : Connection cap σ) (size : ℕ) : Result (List UInt8) :=
  if c.plan.active then .error (.busy "complete prepared TCP packet before peek")
  else if c.failure != .none then .error (.fault "TCP stream failed")
  else if size = 0 then .ok []
  else if c.rcv.rxSize = 0 then
    if c.rcv.eof then .ok [] else .error (.wouldBlock "TCP receive buffer is empty")
  else .ok (c.rcv.peek size)

def read (c : Connection cap σ) (size : ℕ) : Outcome cap σ (List UInt8) :=
  if c.plan.active then (.error (.busy "complete prepared TCP packet before read"), c)
  else if c.failure != .none then (.error (.fault "TCP stream failed"), c)
  else if size = 0 then (.ok [], c)
  else if c.rcv.rxSize = 0 then
    if c.rcv.eof then (.ok [], c) else (.error (.wouldBlock "TCP receive buffer is empty"), c)
  else
    (.ok (c.rcv.peek size), { c with
      rcv := c.rcv.read size
      pendingAck := c.pendingAck || (c.state != .closed && c.state != .listen) })

def shutdownWrite (c : Connection cap σ) : Outcome cap σ Unit :=
  if c.plan.active then (.error (.busy "complete prepared TCP packet before shutdown"), c)
  else if c.state != .established && c.state != .closeWait then
    (.error (.fault "TCP stream is not connected"), c)
  else (.ok (), { c with snd := { c.snd with writeShutdown := true } })

def time (c : Connection cap σ) (stop : U32) (now : ℕ) : Connection cap σ :=
  if c.rttTiming then c else { c with rttTiming := true, rttSequence := stop, rttSentAt := now }

def noteAcked (c : Connection cap σ) (ack : U32) (released : ℕ) : Connection cap σ :=
  if c.recovery then
    if !before ack c.recover then
      { c with recovery := false, cc := CongestionControl.exitRecovery c.cc (c.snd.sndMax - ack).toNat c.segment }
    else { c with cc := CongestionControl.partialAck c.cc released c.segment, retransmitHead := true }
  else if released ≠ 0 then { c with cc := CongestionControl.acknowledged c.cc released c.segment }
  else c

def sampleAcked (c : Connection cap σ) (ack : U32) (now : ℕ) : Connection cap σ :=
  if c.rttTiming && !before ack c.rttSequence then
    { c.sampleRtt (now - c.rttSentAt) with rttTiming := false }
  else c

def noteFin (c : Connection cap σ) (ack : U32) (now : ℕ) : Connection cap σ :=
  if !c.ackClosesFin ack then c
  else
    match c.state with
    | .finWait1 => { c with finWaitDeadline := deadline now (2 * mslMs) }
    | .closing => { c with timeWaitDeadline := deadline now (2 * mslMs) }
    | .lastAck => { c with pendingAck := false }
    | _ => c

def acknowledge (c : Connection cap σ) (ack : U32) (now : ℕ) : Connection cap σ :=
  if c.ackIgnored ack then c
  else
    let r := { ((c.sampleAcked ack now).noteAcked ack (c.ackReleases ack)).noteFin ack now with dupacks := 0 }
    { r with toBlock := c.toBlock.acknowledge ack (deadline now r.rto) }

def duplicateAck (c : Connection cap σ) : Connection cap σ :=
  let dupacks := if c.dupacks ≠ 0xff then c.dupacks + 1 else c.dupacks
  if c.recovery then { c with dupacks := dupacks, cc := CongestionControl.duplicate c.cc c.segment }
  else if dupacks = fastRetransmitThreshold && after c.snd.sndUna c.recover then
    { c with
      dupacks := dupacks
      cc := CongestionControl.enterRecovery c.cc (c.snd.sndMax - c.snd.sndUna).toNat c.segment
      recover := c.snd.sndMax, recovery := true, retransmitHead := true }
  else { c with dupacks := dupacks }

def consume (c : Connection cap σ) (seg : Wire.Tcp) (now : ℕ) : Connection cap σ :=
  let k := c.toBlock.consume seg
  { c with
    toBlock := k
    pendingAck := c.pendingAck || !seg.payload.isEmpty || seg.fields.has tcpFin
    timeWaitDeadline :=
      if c.state == .finWait2 && k.state == .timeWait then deadline now (2 * mslMs) else c.timeWaitDeadline }

def establish (c : Connection cap σ) (ack : U32) (now : ℕ) : Connection cap σ :=
  let r := c.acknowledge ack now
  { r with
    toBlock := { r.toBlock with state := .established, pendingSyn := false }
    rto := if r.synRetried && r.rto < 3000 then 3000 else r.rto }

def receiveSyn (c : Connection cap σ) (seg : Wire.Tcp) (now : ℕ) : Outcome cap σ Ingress :=
  let f := seg.fields
  if c.state == .synReceived && !c.passive && f.sequence == c.rcv.irs && f.has tcpAck &&
      !f.has tcpFin && f.acknowledgment == c.snd.sndMax && c.snd.sndMax == c.snd.iss + 1 then
    (.ok .accepted, { (c.establish f.acknowledgment now) with
      peerWindow := f.window, wl1 := f.sequence, wl2 := f.acknowledgment, pendingAck := true })
  else c.challenge now

def ingressListen (c : Connection cap σ) (source : Endpoint) (seg : Wire.Tcp) : Outcome cap σ Ingress :=
  let f := seg.fields
  if f.has tcpRst then (.ok .ignored, c)
  else if f.has tcpAck then (.ok .accepted, c.queueReset source f.acknowledgment)
  else if !f.has tcpSyn || f.has tcpFin then (.ok .ignored, c)
  else if !c.listenerArmed then (.error (.notInitialized "passive incarnation requires a fresh ISS"), c)
  else
    let c := { c with
      toBlock := { c.toBlock.synchronize f.sequence with
        listenerArmed := false, peer := source, state := .synReceived, pendingSyn := true }
      peerWindow := f.window, wl1 := f.sequence, wl2 := 0 }
    (.ok .accepted, c.negotiateMss seg)

def ingressSynSent (c : Connection cap σ) (seg : Wire.Tcp) (now : ℕ) : Outcome cap σ Ingress :=
  let f := seg.fields
  let ack := f.has tcpAck
  if ack && (f.acknowledgment != c.snd.iss + 1 || c.snd.sndMax != c.snd.iss + 1) then
    (.ok .ignored, if !f.has tcpRst then c.queueReset c.peer f.acknowledgment else c)
  else if f.has tcpRst then
    if ack then (.ok .reset, c.terminate .refused) else (.ok .ignored, c)
  else if !f.has tcpSyn || f.has tcpFin then (.ok .ignored, c)
  else
    let c := { c with
      toBlock := c.toBlock.synchronize f.sequence
      peerWindow := f.window, wl1 := f.sequence
      wl2 := if ack then f.acknowledgment else 0 }.negotiateMss seg
    (.ok .accepted, if ack then { (c.establish f.acknowledgment now) with pendingAck := true }
      else { c with state := .synReceived, pendingSyn := true })

def updateWindow (c : Connection cap σ) (f : TcpFields) : Connection cap σ :=
  let c :=
    if between f.acknowledgment c.snd.sndUna c.snd.sndMax &&
        (after f.sequence c.wl1 || (f.sequence == c.wl1 && !before f.acknowledgment c.wl2)) then
      { c with peerWindow := f.window, wl1 := f.sequence, wl2 := f.acknowledgment }
    else c
  if c.peerWindow ≠ 0 then { c with persistDeadline := 0 } else c

def noteDuplicate (c : Connection cap σ) (previousUna : U32) (previousWindow : ℕ) (seg : Wire.Tcp) : Connection cap σ :=
  let f := seg.fields
  if f.acknowledgment == previousUna && c.snd.sndUna == previousUna && seg.payload.isEmpty &&
      !f.has (tcpSyn ||| tcpFin) && f.window == previousWindow &&
      after c.snd.sndMax c.snd.sndUna && c.snd.sentData != 0 then c.duplicateAck
  else c

def ingressData (c : Connection cap σ) (previousUna : U32) (previousWindow : ℕ) (seg : Wire.Tcp)
    (now : ℕ) : Outcome cap σ Ingress :=
  if c.state == .closed then (.ok .accepted, c)
  else
    let r := (c.updateWindow seg.fields).noteDuplicate previousUna previousWindow seg
    if c.state == .timeWait then (.ok .ignored, r) else (.ok .accepted, r.consume seg now)

def ingressAck (c : Connection cap σ) (seg : Wire.Tcp) (now : ℕ) : Outcome cap σ Ingress :=
  let f := seg.fields
  if !f.has tcpAck then (.ok .ignored, c)
  else if !between f.acknowledgment (c.snd.sndUna - 65535) c.snd.sndMax then c.challenge now
  else if c.state == .synReceived then
    if f.acknowledgment != c.snd.sndMax || c.snd.sndMax != c.snd.iss + 1 then
      (.ok .ignored, c.queueReset c.peer f.acknowledgment)
    else (c.establish f.acknowledgment now).ingressData c.snd.sndUna c.peerWindow seg now
  else if after f.acknowledgment c.snd.sndUna then
    (c.acknowledge f.acknowledgment now).ingressData c.snd.sndUna c.peerWindow seg now
  else c.ingressData c.snd.sndUna c.peerWindow seg now

def segmentLength (seg : Wire.Tcp) : U32 :=
  BitVec.ofNat 32 seg.payload.length + (if seg.fields.has tcpSyn then 1 else 0) + (if seg.fields.has tcpFin then 1 else 0)

def ingressSynchronized (c : Connection cap σ) (seg : Wire.Tcp) (now : ℕ) : Outcome cap σ Ingress :=
  let f := seg.fields
  if !c.rcv.acceptable f.sequence (segmentLength seg) then
    (.ok .ignored, if !f.has tcpRst then { c with pendingAck := true } else c)
  else if f.has tcpRst then
    if f.sequence != c.rcv.rcvNxt then c.challenge now
    else (.ok .reset, if c.state == .synReceived && c.passive then c.returnToListen else c.terminate .reset)
  else if f.has tcpSyn then c.receiveSyn seg now
  else c.ingressAck seg now

def ingressState (c : Connection cap σ) (source : Endpoint) (seg : Wire.Tcp) (now : ℕ) : Outcome cap σ Ingress :=
  let f := seg.fields
  if c.state == .closed then (.ok .ignored, c)
  else if c.state == .timeWait && f.has tcpRst then (.ok .ignored, c)
  else if f.has tcpUrg then
    (.error (.unsupported "TCP urgent data is not supported by this bounded core"), c)
  else if c.state == .listen then c.ingressListen source seg
  else if c.state == .synSent then c.ingressSynSent seg now
  else if c.state == .timeWait && f.has tcpFin && !f.has (tcpRst ||| tcpSyn) && f.has tcpAck &&
      f.sequence + BitVec.ofNat 32 seg.payload.length + 1 == c.rcv.rcvNxt then
    if !between f.acknowledgment (c.snd.sndUna - 65535) c.snd.sndMax then c.challenge now
    else (.ok .accepted, { c with pendingAck := true, timeWaitDeadline := deadline now (2 * mslMs) })
  else if c.state == .synReceived && c.passive && f.sequence == c.rcv.irs && f.has tcpSyn &&
      !f.has (tcpAck ||| tcpRst ||| tcpFin) then
    (.ok .accepted, if !c.snd.rtx.active || decide (now ≥ c.snd.rtx.deadline) then { c with pendingSyn := true } else c)
  else if c.state == .synReceived && !c.passive && f.has tcpSyn && f.sequence == c.rcv.irs &&
      f.has tcpAck && !f.has (tcpRst ||| tcpFin) then
    c.receiveSyn seg now
  else c.ingressSynchronized seg now

def ingress (c : Connection cap σ) (sender destination : IpAddress) (seg : Wire.Tcp) (now : ℕ) : Outcome cap σ Ingress :=
  let f := seg.fields
  if destination ≠ c.localEndpoint.address || f.destinationPort ≠ c.localEndpoint.port || f.sourcePort = 0 then
    (.ok .ignored, c)
  else
    let source : Endpoint := ⟨sender, f.sourcePort⟩
    if !source.valid || (c.state != .listen && source != c.peer) then (.ok .ignored, c)
    else { c with lastNow := now }.ingressState source seg now

def receive (c : Connection cap σ) (packet : Result Datagram) (now : ℕ) : Outcome cap σ Ingress :=
  if c.plan.active then (.error (.busy "complete prepared TCP packet before ingress"), c)
  else if now < c.lastNow then (.error (.invalidArgument "TCP clock moved backward"), c)
  else
    match packet with
    | .error status => (.error status, c)
    | .ok d => c.ingress d.source d.destination d.tcp now

def expireTimeWait (c : Connection cap σ) (now : ℕ) : Connection cap σ :=
  let expired := c.state == .timeWait && decide (now ≥ c.timeWaitDeadline)
  { c with
    toBlock := c.toBlock.expireTimeWait expired
    pendingAck := c.pendingAck && !expired, resetPending := c.resetPending && !expired }

def expireRetransmission (c : Connection cap σ) (now : ℕ) : Connection cap σ :=
  if c.snd.rtx.active && decide (now ≥ c.snd.rtx.deadline) &&
      decide (c.snd.rtx.retries ≥ maxRetransmissions) then
    if c.state == .synReceived && c.passive then c.returnToListen else c.terminate .timedOut
  else c

def expireFinWait (c : Connection cap σ) (now : ℕ) : Connection cap σ :=
  if c.state == .finWait2 && decide (now ≥ c.finWaitDeadline) then c.terminate .timedOut else c

def tick (c : Connection cap σ) (now : ℕ) : Outcome cap σ Unit :=
  if c.plan.active then (.error (.busy "complete prepared TCP packet before timer work"), c)
  else if now < c.lastNow then (.error (.invalidArgument "TCP clock moved backward"), c)
  else (.ok (), ((({ c with lastNow := now }).expireTimeWait now).expireRetransmission now).expireFinWait now)

def head (c : Connection cap σ) (next : Plan) : Option Plan :=
  let data := min (min c.snd.txSize (c.snd.sndMax - c.snd.sndUna).toNat) c.segment
  if data ≠ 0 then
    some { next with payload := data, offset := 0, fields := { next.fields with flags := tcpAck ||| tcpPsh } }
  else if c.snd.finSent then
    some { next with fields := { next.fields with flags := tcpFin ||| tcpAck } }
  else none

def usable (c : Connection cap σ) : ℕ :=
  let limit := if CongestionControl.window c.cc < c.peerWindow then CongestionControl.window c.cc else c.peerWindow
  if limit > c.snd.outstanding.toNat then limit - c.snd.outstanding.toNat else 0

def sendNext (c : Connection cap σ) (next : Plan) (now : ℕ) : Option Plan × Connection cap σ :=
  let sent := c.snd.sentData
  let unsent := c.snd.txSize - sent
  if unsent ≠ 0 && c.usable ≠ 0 then
    (some { next with
      kind := .data, offset := sent, payload := min (min unsent c.segment) c.usable
      fields := { next.fields with sequence := c.snd.sndNxt, flags := tcpAck ||| tcpPsh } }, c)
  else if unsent ≠ 0 && c.peerWindow = 0 && c.snd.outstanding.toNat = 0 then
    if c.persistDeadline = 0 then (none, { c with persistDeadline := deadline now c.rto })
    else if now < c.persistDeadline then (none, c)
    else
      (some { next with
        kind := .probe, offset := sent, payload := 1
        fields := { next.fields with sequence := c.snd.sndNxt, flags := tcpAck ||| tcpPsh } }, c)
  else if unsent = 0 && c.snd.writeShutdown && c.peerWindow ≠ 0 && c.snd.sndNxt == c.snd.finSequence &&
      !c.snd.finAcknowledged then
    (some { next with
      kind := .fin
      fields := { next.fields with sequence := c.snd.sndNxt, flags := tcpFin ||| tcpAck } }, c)
  else (none, c)

def synFlags (c : Connection cap σ) : UInt8 :=
  if c.state == .synReceived then tcpSyn ||| tcpAck else tcpSyn

def select (c : Connection cap σ) (now : ℕ) : Option Plan × Connection cap σ :=
  let next : Plan := { active := true, destination := c.peer }
  if c.resetPending then
    (some { next with
      kind := .reset, destination := c.resetPeer
      fields := { sequence := c.resetSeq, flags := tcpRst } }, c)
  else if c.pendingSyn then
    (some { next with
      kind := if c.snd.rtx.active && c.passive then .retry else .syn
      fields := { sequence := c.snd.iss, flags := c.synFlags } }, c)
  else if c.snd.rtx.active && decide (now ≥ c.snd.rtx.deadline) then
    let next := { next with kind := .retry, fields := { sequence := c.snd.sndUna } }
    if c.state == .synSent || c.state == .synReceived then
      (some { next with fields := { next.fields with flags := c.synFlags } }, c)
    else (c.head next, c)
  else if c.retransmitHead && c.sending then
    match c.head { next with kind := .fast, fields := { sequence := c.snd.sndUna } } with
    | some plan => (some plan, c)
    | none => (none, { c with retransmitHead := false })
  else
    match (if c.sending then c.sendNext next now else (none, c)) with
    | (some plan, c) => (some plan, c)
    | (none, c) =>
      if !c.pendingAck then (none, c)
      else (some { next with kind := .ack, fields := { sequence := c.snd.sndNxt, flags := tcpAck } }, c)

def mssBytes (cap : Capacities) : List UInt8 :=
  [2, 4, UInt8.ofNat (cap.segment / 256), UInt8.ofNat cap.segment]

def finishFields (c : Connection cap σ) (plan : Plan) : TcpFields :=
  { plan.fields with
    sourcePort := c.localEndpoint.port, destinationPort := plan.destination.port
    acknowledgment := if plan.fields.has tcpAck then c.rcv.rcvNxt else 0
    window := c.rcv.window }

def buildPacket (c : Connection cap σ) (plan : Plan) (outputSize : ℕ) : Result (ℕ × Datagram) :=
  let fields := c.finishFields plan
  buildTcp outputSize c.localEndpoint.address plan.destination.address fields
    (if fields.has tcpSyn then mssBytes cap else [])
    (c.snd.tx.slice (c.snd.txHead + plan.offset) plan.payload)

def prepare (c : Connection cap σ) (outputSize now : ℕ) : Outcome cap σ (Option PreparedPacket) :=
  if c.plan.active then (.error (.busy "TCP packet token is outstanding"), c)
  else
    match c.tick now with
    | (.error status, c) => (.error status, c)
    | (.ok (), c) =>
      if c.nextToken = u64Max then (.error (.overflow "TCP packet token exhausted"), c)
      else
        match c.select now with
        | (none, c) => (.ok none, c)
        | (some plan, c) =>
          match c.buildPacket plan outputSize with
          | .error status => (.error status, c)
          | .ok (length, packet) =>
            let token := c.nextToken + 1
            (.ok (some ⟨length, token, packet⟩), { c with
              nextToken := token
              plan := { plan with token := token, fields := c.finishFields plan } })

def completeSyn (c : Connection cap σ) (sent : Plan) (now : ℕ) : Connection cap σ :=
  let r := if c.snd.sndMax == c.snd.iss then c.time (Block.stop sent) now else { c with rttTiming := false }
  { r with toBlock := c.toBlock.complete sent (deadline now c.rto) }

def completeRetry (c : Connection cap σ) (sent : Plan) (now : ℕ) : Connection cap σ :=
  let r := { c with rttTiming := false, rto := min (c.rto * 2) maxRtoMs }
  let r :=
    if sent.fields.has tcpSyn then { r with synRetried := true }
    else
      { r with
        cc := if c.peerWindow ≠ 0 then CongestionControl.timeout c.cc c.snd.outstanding.toNat c.segment else c.cc
        recover := c.snd.sndMax, recovery := false, retransmitHead := false, dupacks := 0 }
  { r with toBlock := c.toBlock.complete sent (deadline now r.rto) }

def completeNew (c : Connection cap σ) (sent : Plan) (now : ℕ) : Connection cap σ :=
  let r := if c.freshlySent sent then c.time (Block.stop sent) now else c
  { r with toBlock := c.toBlock.complete sent (deadline now c.rto), persistDeadline := 0 }

def completeTransmit (c : Connection cap σ) (token : ℕ) (accepted : Bool) (now : ℕ) : Outcome cap σ Unit :=
  if !c.plan.active || c.plan.token != token then (.error (.invalidArgument "stale TCP packet token"), c)
  else if now < c.lastNow then (.error (.invalidArgument "TCP clock moved backward"), c)
  else
    let sent := c.plan
    let c := { c with plan := {}, lastNow := now }
    if !accepted then (.ok (), c)
    else if sent.kind == .reset then (.ok (), { c with resetPending := false })
    else
      let c := { c with pendingAck := c.pendingAck && !sent.fields.has tcpAck }
      (.ok (), match sent.kind with
        | .ack | .reset => c
        | .syn => c.completeSyn sent now
        | .retry => c.completeRetry sent now
        | .fast => { c with retransmitHead := false, rttTiming := false }
        | .data | .probe | .fin => c.completeNew sent now)

end Connection

end ObfuscationKernel.Net.Tcp
