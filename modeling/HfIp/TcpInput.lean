import HfIp.TcpData

/- The arrival of a segment (src/tcp_input.c). -/
namespace HfIp

structure OptsSeen where
  smss : UInt16
  sack : Bool := false
  tsopt : Bool := false
  deriving DecidableEq, Repr

/- The loop of `tcp_parse_opts` at offset `ptr` of `th->data`; `optlen` goes down in every turn,
   so its start value is fuel enough. Only NOP and MSS move `ptr`. -/
def parseOptsLoop (data : List UInt8) : Nat → Nat → UInt8 → OptsSeen → OptsSeen
  | 0, _, _, seen => seen
  | fuel + 1, ptr, optlen, seen =>
    if 0 < optlen ∧ optlen < 20 then
      let kind := data.getD ptr 0
      if kind = TCP_OPT_MSS then
        let mss := (data.getD (ptr + 2) 0).toUInt16 <<< 8 ||| (data.getD (ptr + 3) 0).toUInt16
        let seen := if 536 < mss ∧ mss ≤ 1460 then { seen with smss := mss } else seen
        parseOptsLoop data fuel (ptr + 4) (optlen - 4) seen
      else if kind = TCP_OPT_NOOP then parseOptsLoop data fuel (ptr + 1) (optlen - 1) seen
      else if kind = TCP_OPT_SACK_OK then
        parseOptsLoop data fuel ptr (optlen - 1) { seen with sack := true }
      else if kind = TCP_OPT_TS then
        parseOptsLoop data fuel ptr (optlen - 1) { seen with tsopt := true }
      else parseOptsLoop data fuel ptr (optlen - 1) seen
    else seen

def tcpHlen (th : TcpHdr) : Nat := th.hl.val * 4

def tcpParseOpts (tsk : TcpSock) (th : TcpHdr) : TcpSock :=
  let optlen := UInt8.ofNat (tcpHlen th) - 20
  let seen := parseOptsLoop th.data optlen.toNat 0 optlen { smss := tsk.smss }
  let tsk := { tsk with smss := seen.smss, tsopt := if seen.tsopt then tsk.tsopt else false }
  if seen.sack && tsk.sackok then { tsk with sacksAllowed := if tsk.tsopt then 3 else 4 }
  else { tsk with sackok := false }

/- Acks all segments of the retransmission queue that are older than `una`. -/
def cleanLoop (una : UInt32) (s : Conn) : List SkBuff → Conn × List SkBuff
  | [] => (s, [])
  | skb :: rest =>
    if skb.seq > 0 ∧ skb.endSeq ≤ una then
      let s := freeSkb s { skb with refcnt := skb.refcnt - 1 }
      cleanLoop una { s with tsk.inflight := s.tsk.inflight - 1 } rest
    else (s, skb :: rest)

def tcpCleanRtoQueue (s : Conn) (una : UInt32) : Conn :=
  let r := cleanLoop una s s.tsk.writeQueue
  let s : Conn := { r.1 with tsk.writeQueue := r.2 }
  if r.2 = [] ∨ s.tsk.inflight = 0 then tcpStopRtoTimer s else s

def tcpVerifySegment (tsk : TcpSock) (th : TcpHdr) (skb : SkBuff) : Bool :=
  if 0 < skb.dlen ∧ tsk.tcb.rcvWnd = 0 then false
  else if th.seq < tsk.tcb.rcvNxt ∨ th.seq > tsk.tcb.rcvNxt + tsk.tcb.rcvWnd then false
  else true

def tcpReset (s : Conn) : Conn :=
  let s := { s with tsk.pollEvents := POLLOUT ||| POLLWRNORM ||| POLLERR ||| POLLHUP }
  match s.tsk.state with
  | .synSent => tcpDone { s with tsk.err := -ECONNREFUSED }
  | .closeWait => tcpDone { s with tsk.err := -EPIPE }
  | .close => s
  | _ => tcpDone { s with tsk.err := -ECONNRESET }

/- src/sock.c -/
def sockConnected (s : Conn) : Conn :=
  wakeSleep { s with
    sock.state := .connected
    tsk.err := 0
    tsk.pollEvents := POLLOUT ||| POLLWRNORM ||| POLLWRBAND }

/- The end of `tcp_synsent`, after the SYN bit has been found set, in three parts. -/
def synsentAck (s : Conn) (th : TcpHdr) : Conn :=
  let s := { s with tsk.tcb.rcvNxt := th.seq + 1, tsk.tcb.irs := th.seq }
  if th.ack then tcpCleanRtoQueue { s with tsk.tcb.sndUna := th.ackSeq } th.ackSeq else s

def synsentEstablish (s : Conn) (th : TcpHdr) : Conn :=
  let s := setState s .established
  let s := { s with tsk.tcb.sndUna := s.tsk.tcb.sndNxt, tsk.backoff := 0, tsk.rto := 1000 }
  let s := tcpRearmUserTimeout (tcpSendAck s)
  sockConnected { s with tsk := tcpParseOpts s.tsk th }

def synsentSyn (s : Conn) (th : TcpHdr) : Conn :=
  let s := synsentAck s th
  if s.tsk.tcb.sndUna > s.tsk.tcb.iss then synsentEstablish s th
  else
    let s := setState s .synReceived
    tcpSendSynack { s with tsk.tcb.sndUna := s.tsk.tcb.iss }

/- `reset_and_discard` drops the segment like `discard`. -/
def tcpSynsent (s : Conn) (skb : SkBuff) (th : TcpHdr) : Conn :=
  let tcb := s.tsk.tcb
  if th.ack ∧ (th.ackSeq ≤ tcb.iss ∨ th.ackSeq > tcb.sndNxt) then freeSkb s skb
  else if th.ack ∧ (th.ackSeq < tcb.sndUna ∨ th.ackSeq > tcb.sndNxt) then freeSkb s skb
  else if th.rst then freeSkb (tcpReset s) skb
  else if !th.syn then freeSkb s skb
  else freeSkb (synsentSyn s th) skb

def tcpClosed (s : Conn) (skb : SkBuff) (th : TcpHdr) : Conn :=
  if th.rst then freeSkb s skb else freeSkb (tcpSendReset s) skb

def tcpListen (s : Conn) (skb : SkBuff) : Conn := freeSkb s skb

/- The ACK of a synchronized state; `false` when the segment is dropped. -/
def inputNewAck (s : Conn) (th : TcpHdr) : Conn × Bool :=
  let tcb := s.tsk.tcb
  let s := if tcb.sndUna < th.ackSeq ∧ th.ackSeq ≤ tcb.sndNxt then
      tcpCleanRtoQueue (tcpRtt { s with tsk.tcb.sndUna := th.ackSeq }) th.ackSeq
    else s
  if th.ackSeq < s.tsk.tcb.sndUna then (s, false)
  else if th.ackSeq > s.tsk.tcb.sndNxt then (s, false)
  else (s, true)

/- Fifth check the ACK field. -/
def inputAck (s : Conn) (th : TcpHdr) : Conn × Bool :=
  match s.tsk.state with
  | .synReceived =>
    if s.tsk.tcb.sndUna ≤ th.ackSeq ∧ th.ackSeq < s.tsk.tcb.sndNxt then
      inputNewAck (setState s .established) th
    else (s, false)
  | .established | .finWait1 | .finWait2 | .closeWait | .closing | .lastAck => inputNewAck s th
  | _ => (s, true)

/- "If the write queue is empty, it means our FIN was acked", LAST_ACK aside. -/
def inputFinAcked (s : Conn) (th : TcpHdr) : Conn :=
  if skbQueueEmpty s.tsk.writeQueue then
    match s.tsk.state with
    | .finWait1 => setState s .finWait2
    | .closing => setState s .timeWait
    | .timeWait =>
      if s.tsk.tcb.rcvNxt = th.seq then
        tcpSendAck { s with tsk.flags := s.tsk.flags ||| TCP_FIN }
      else s
    | _ => s
  else s

/- Seventh, process the segment text. -/
def inputText (s : Conn) (th : TcpHdr) (skb : SkBuff) : Conn × SkBuff :=
  match s.tsk.state with
  | .established | .finWait1 | .finWait2 =>
    if th.psh ∨ 0 < skb.dlen then tcpDataQueue s skb else (s, skb)
  | _ => (s, skb)

/- Eighth, the FIN bit of a segment that was in sequence when it arrived. The states CLOSED,
   LISTEN and SYN_SENT do not get this far. -/
def inputFin (s : Conn) : Conn :=
  let s := pollReadable { s with
    tsk.tcb.rcvNxt := s.tsk.tcb.rcvNxt + 1
    tsk.flags := s.tsk.flags ||| TCP_FIN }
  let s := recvNotify (tcpSendAck s)
  match s.tsk.state with
  | .synReceived | .established => setState s .closeWait
  | .finWait1 =>
    if skbQueueEmpty s.tsk.writeQueue then tcpEnterTimeWait s else setState s .closing
  | .finWait2 => tcpEnterTimeWait s
  | _ => s

def addDelack (s : Conn) : Conn :=
  { s with ts := (timerAdd s.ts 200 .tcpSendDelack).1
           tsk.delack := some (timerAdd s.ts 200 .tcpSendDelack).2 }

def countDelack (s : Conn) (large : Bool) : Conn :=
  if large then { s with tsk.delacks := s.tsk.delacks + 1 } else s

/- Sending what waits in the write queue, or acknowledging at once or later, for a segment that
   was in sequence. `++tsk->delacks` is evaluated only for a large segment without PSH. -/
def inputDelack (s : Conn) (th : TcpHdr) (skb : SkBuff) : Conn :=
  let s := tcpStopDelackTimer s
  let pending := min s.tsk.writeQueue.length 3
  if s.tsk.inflight = 0 ∧ 0 < pending then
    let s := tcpSendNext s pending
    tcpRearmRtoTimer { s with tsk.inflight := s.tsk.inflight + pending }
  else
    let large := !th.psh && 1000 < skb.dlen
    let s := countDelack s large
    if th.psh ∨ (large ∧ 1 < s.tsk.delacks) then tcpSendAck { s with tsk.delacks := 0 }
    else if 0 < skb.dlen then addDelack s
    else s

def inputTextFin (s : Conn) (th : TcpHdr) (expected : Bool) : Conn :=
  if th.fin && expected then inputFin s else s

def inputExpected (s : Conn) (th : TcpHdr) (skb : SkBuff) (expected : Bool) : Conn :=
  match s.tsk.state with
  | .established | .finWait1 | .finWait2 => if expected then inputDelack s th skb else s
  | _ => s

/- From the URG check on; `expected` is taken before the text is queued. -/
def inputTail (s : Conn) (th : TcpHdr) (skb : SkBuff) : Conn :=
  let expected : Bool := skb.seq = s.tsk.tcb.rcvNxt
  let tx := inputText s th skb
  freeSkb (inputExpected (inputTextFin tx.1 th expected) th skb expected) tx.2

/- The checks of a segment in the states other than CLOSED, LISTEN and SYN_SENT. -/
def inputOtherwise (s : Conn) (th : TcpHdr) (skb : SkBuff) : Conn :=
  if !tcpVerifySegment s.tsk th skb then
    freeSkb (if th.rst then s else tcpSendAck s) skb
  else if th.rst then recvNotify (tcpEnterTimeWait (freeSkb s skb))
  else if th.syn then freeSkb s skb
  else if !th.ack then freeSkb s skb
  else
    let a := inputAck s th
    if !a.2 then freeSkb a.1 skb
    else if a.1.tsk.state = .lastAck ∧ skbQueueEmpty a.1.tsk.writeQueue then
      tcpDone (freeSkb a.1 skb)
    else inputTail (inputFinAcked a.1 th) th skb

/- The ways a segment in such a state can go. -/
@[elab_as_elim] theorem inputOtherwise_cases {motive : Conn → Prop} (s : Conn) (th : TcpHdr)
    (skb : SkBuff)
    (unverified : tcpVerifySegment s.tsk th skb = false →
      motive (freeSkb (if th.rst then s else tcpSendAck s) skb))
    (reset : tcpVerifySegment s.tsk th skb = true → th.rst = true →
      motive (recvNotify (tcpEnterTimeWait (freeSkb s skb))))
    (ignored : tcpVerifySegment s.tsk th skb = true → th.rst = false →
      th.syn = true ∨ th.ack = false → motive (freeSkb s skb))
    (refused : tcpVerifySegment s.tsk th skb = true → th.rst = false → th.syn = false → th.ack = true →
      (inputAck s th).2 = false → motive (freeSkb (inputAck s th).1 skb))
    (closed : tcpVerifySegment s.tsk th skb = true → th.rst = false → th.syn = false → th.ack = true →
      (inputAck s th).2 = true → (inputAck s th).1.tsk.state = .lastAck →
      (inputAck s th).1.tsk.writeQueue = [] → motive (tcpDone (freeSkb (inputAck s th).1 skb)))
    (taken : tcpVerifySegment s.tsk th skb = true → th.rst = false → th.syn = false → th.ack = true →
      (inputAck s th).2 = true →
      ((inputAck s th).1.tsk.state = .lastAck → (inputAck s th).1.tsk.writeQueue ≠ []) →
      motive (inputTail (inputFinAcked (inputAck s th).1 th) th skb)) :
    motive (inputOtherwise s th skb) := by
  unfold inputOtherwise
  cases verified : tcpVerifySegment s.tsk th skb with
  | false => exact unverified verified
  | true =>
    cases rst : th.rst with
    | true => exact reset verified rst
    | false =>
      cases syn : th.syn with
      | true => exact ignored verified rst (.inl syn)
      | false =>
        cases ack : th.ack with
        | false => exact ignored verified rst (.inr ack)
        | true =>
          cases valid : (inputAck s th).2 with
          | false =>
            simp only [valid]
            exact refused verified rst syn ack valid
          | true =>
            by_cases last : (inputAck s th).1.tsk.state = .lastAck ∧
                skbQueueEmpty (inputAck s th).1.tsk.writeQueue = true
            · simp only [valid, last, and_self, Bool.not_true, Bool.false_eq_true, if_false, if_true]
              exact closed verified rst syn ack valid last.1 (by simpa [skbQueueEmpty] using last.2)
            · simp only [valid, last, Bool.not_true, Bool.false_eq_true, if_false]
              refine taken verified rst syn ack valid fun state none => last ⟨state, ?_⟩
              rw [none]; rfl

def tcpInputState (s : Conn) (th : TcpHdr) (skb : SkBuff) : Conn :=
  match s.tsk.state with
  | .close => tcpClosed s skb th
  | .listen => tcpListen s skb
  | .synSent => tcpSynsent s skb th
  | _ => inputOtherwise s th skb

end HfIp
