import HfIp.Tcp

/- The send path (src/tcp_output.c). -/
namespace HfIp

/- Network byte order. -/
def be16 (x : UInt16) : List UInt8 := [(x >>> 8).toUInt8, x.toUInt8]

def be32 (x : UInt32) : List UInt8 :=
  [(x >>> 24).toUInt8, (x >>> 16).toUInt8, (x >>> 8).toUInt8, x.toUInt8]

def TCP_OPT_NOOP : UInt8 := 1
def TCP_OPT_MSS : UInt8 := 2
def TCP_OPTLEN_MSS : UInt8 := 4
def TCP_OPT_SACK_OK : UInt8 := 4
def TCP_OPT_SACK : UInt8 := 5
def TCP_OPTLEN_SACK : UInt8 := 2
def TCP_OPT_TS : UInt8 := 8
def TCP_DOFFSET : Nat := 5

def tcpAllocSkb (s : Conn) (optlen : Nat) (payload : List UInt8) : Conn × SkBuff :=
  allocSkb s { data := List.replicate optlen 0 } payload

def tcpSynOptions (tsk : TcpSock) : Nat := if tsk.sackok then 8 else 4

def tcpWriteSynOptions (tsk : TcpSock) (th : TcpHdr) (optlen : Nat) : TcpHdr :=
  let mss := [TCP_OPT_MSS, TCP_OPTLEN_MSS] ++ be16 tsk.rmss
  let sack := if tsk.sackok then
      [TCP_OPT_NOOP, TCP_OPT_NOOP, TCP_OPT_SACK_OK, TCP_OPTLEN_SACK] else []
  { th with data := mss ++ sack, hl := Fin.ofNat 16 (TCP_DOFFSET + optlen / 4) }

/- The blocks go out last one first, over the start of the option area. -/
def tcpWriteOptions (tsk : TcpSock) (th : TcpHdr) : TcpSock × TcpHdr :=
  if !tsk.sackok || (tsk.sacks.getD 0 {}).left = 0 then (tsk, th)
  else
    let blocks := (List.range tsk.sacklen).reverse.flatMap fun i =>
      be32 (tsk.sacks.getD i {}).left ++ be32 (tsk.sacks.getD i {}).right
    let bytes := [TCP_OPT_NOOP, TCP_OPT_NOOP, TCP_OPT_SACK, UInt8.ofNat (2 + tsk.sacklen * 8)]
      ++ blocks
    ({ tsk with
        sacks := tsk.sacks.mapIdx fun i b => if i < tsk.sacklen then {} else b
        sacksOob := tsk.sacksOob || 4 < tsk.sacklen
        sacklen := 0 },
      { th with data := bytes ++ th.data.drop bytes.length })

/- The header fields other than the flags, `hl` and the options are filled in at every
   transmission, so the buffer keeps only these. -/
def tcpTransmitSkb (s : Conn) (skb : SkBuff) (seq : UInt32) : Conn × SkBuff :=
  let th := if skb.th.hl = 0 then { skb.th with hl := 5 } else skb.th
  let wr := if th.hl > 5 then tcpWriteOptions s.tsk th else (s.tsk, th)
  let hdr := { wr.2 with
    sport := s.tsk.sport
    dport := s.tsk.dport
    seq := seq
    ackSeq := s.tsk.tcb.rcvNxt
    win := s.tsk.tcb.rcvWnd.toUInt16 }
  ({ s with tsk := wr.1, out := s.out ++ [⟨hdr, skb.payload⟩] },
    { skb with th := { skb.th with hl := th.hl, data := wr.2.data } })

/- The lines that follow a first transmission in `tcp_queue_transmit_skb` and `tcp_send_next`. -/
def numberSkb (s : Conn) (skb : SkBuff) : Conn × SkBuff :=
  let nxt := s.tsk.tcb.sndNxt
  let skb := { skb with seq := nxt, endSeq := nxt + skb.dlen }
  ({ s with
      tsk.tcb.sndNxt := if skb.th.fin then nxt + skb.dlen + 1 else nxt + skb.dlen
      sent := s.sent ++ [skb] }, skb)

def tcpQueueTransmitSkb (s : Conn) (skb : SkBuff) : Conn :=
  let s := if skbQueueEmpty s.tsk.writeQueue then tcpRearmRtoTimer s else s
  if s.tsk.inflight = 0 then
    let tx := tcpTransmitSkb s skb s.tsk.tcb.sndNxt
    let nm := numberSkb { tx.1 with tsk.inflight := tx.1.tsk.inflight + 1 } tx.2
    { nm.1 with tsk.writeQueue := skbQueueTail nm.1.tsk.writeQueue nm.2 }
  else { s with tsk.writeQueue := skbQueueTail s.tsk.writeQueue skb }

/- Its only caller has already left SYN_SENT, so the guard always refuses. -/
def tcpSendSynack (s : Conn) : Conn :=
  if s.tsk.state ≠ .synSent then s
  else
    let al := tcpAllocSkb s 0 []
    let tx := tcpTransmitSkb al.1 { al.2 with th := { al.2.th with syn := true, ack := true } }
      s.tsk.tcb.sndNxt
    freeSkb tx.1 tx.2

def sendNextLoop (s : Conn) : Nat → List SkBuff → Conn × List SkBuff
  | 0, queue => (s, queue)
  | _, [] => (s, [])
  | amount + 1, next :: rest =>
    let tx := tcpTransmitSkb s next s.tsk.tcb.sndNxt
    let nm := numberSkb tx.1 tx.2
    let tail := sendNextLoop nm.1 amount rest
    (tail.1, nm.2 :: tail.2)

def tcpSendNext (s : Conn) (amount : Nat) : Conn :=
  let r := sendNextLoop s amount s.tsk.writeQueue
  { r.1 with tsk.writeQueue := r.2 }

def tcpOptionsLen (tsk : TcpSock) : Nat :=
  if tsk.sackok && 0 < tsk.sacklen then
    let blocks := (List.range tsk.sacklen).countP fun i => (tsk.sacks.getD i {}).left ≠ 0
    (8 * blocks + 2 + 3) / 4 * 4
  else 0

def tcpSendAck (s : Conn) : Conn :=
  if s.tsk.state = .close then s
  else
    let optlen := tcpOptionsLen s.tsk
    let al := tcpAllocSkb s optlen []
    let th := { al.2.th with ack := true, hl := Fin.ofNat 16 (TCP_DOFFSET + optlen / 4) }
    let tx := tcpTransmitSkb al.1 { al.2 with th := th } s.tsk.tcb.sndNxt
    freeSkb tx.1 tx.2

def tcpSendSyn (s : Conn) : Conn :=
  if s.tsk.state ≠ .synSent ∧ s.tsk.state ≠ .close ∧ s.tsk.state ≠ .listen then s
  else
    let optlen := tcpSynOptions s.tsk
    let al := tcpAllocSkb s optlen []
    let th := tcpWriteSynOptions s.tsk al.2.th optlen
    tcpQueueTransmitSkb (setState al.1 .synSent) { al.2 with th := { th with syn := true } }

def tcpSelectInitialWindow : UInt32 := 44477

/- `iss` is the value `generate_iss` returns. -/
def tcpConnect (s : Conn) (iss : UInt32) : Conn :=
  let s := tcpSendSyn { s with
    tsk.tcb.iss := iss
    tsk.tcb.sndUna := iss
    tsk.tcb.sndNxt := iss
    tsk.tcb.rcvNxt := 0
    tsk.tcb.rcvWnd := tcpSelectInitialWindow }
  { s with tsk.tcb.sndNxt := s.tsk.tcb.sndNxt + 1 }

def tcpQueueFin (s : Conn) : Conn :=
  let al := tcpAllocSkb { s with fins := s.fins + 1 } 0 []
  tcpQueueTransmitSkb al.1 { al.2 with th := { al.2.th with fin := true, ack := true } }

def tcpSendReset (s : Conn) : Conn :=
  let al := tcpAllocSkb s 0 []
  let s := { al.1 with tsk.tcb.sndUna := al.1.tsk.tcb.sndNxt }
  let tx := tcpTransmitSkb s { al.2 with th := { al.2.th with rst := true } } s.tsk.tcb.sndNxt
  freeSkb tx.1 tx.2

/- The loop of `tcp_send`; `fuel` is the length of `buf`, and each turn takes a byte or more as
   long as `mss` is not zero. -/
def tcpSendLoop (mss : Nat) : Nat → Conn → List UInt8 → Conn
  | 0, s, _ => s
  | fuel + 1, s, buf =>
    if buf.length = 0 then s
    else
      let al := tcpAllocSkb s 0 (buf.take mss)
      let rest := buf.drop mss
      let th := { al.2.th with ack := true, psh := rest.length = 0 }
      tcpSendLoop mss fuel (tcpQueueTransmitSkb al.1 { al.2 with th := th }) rest

def tcpSend (s : Conn) (buf : List UInt8) : Conn :=
  tcpRearmUserTimeout (tcpSendLoop s.tsk.smss.toNat buf.length
    { s with accepted := s.accepted ++ buf } buf)

def tcpNotifyUser (s : Conn) : Conn := if s.tsk.state = .closeWait then wakeSleep s else s

def setHead (s : Conn) (skb : SkBuff) : Conn :=
  { s with tsk.writeQueue := skb :: s.tsk.writeQueue.tail }

def retransmitHead (s : Conn) (skb : SkBuff) : Conn :=
  let tx := tcpTransmitSkb s skb s.tsk.tcb.sndUna
  setHead tx.1 tx.2

def retransmissionFailed (s : Conn) : Conn :=
  { s with
    tsk.err := -ETIMEDOUT
    tsk.pollEvents := s.tsk.pollEvents ||| (POLLOUT ||| POLLERR ||| POLLHUP) }

def retransmissionBackoff (s : Conn) : Conn :=
  addRetransmit { s with tsk.rto := s.tsk.rto * 2, tsk.backoff := s.tsk.backoff + 1 }
    (s.tsk.rto * 2) .tcpRetransmissionTimeout

/- The timer handlers below run between `socket_wr_acquire` and `socket_release`. -/
def tcpSendDelack (s : Conn) : Conn :=
  tcpSendAck (tcpReleaseDelackTimer { s with tsk.delacks := 0 })

def tcpConnectRto (s : Conn) : Conn :=
  let s := tcpReleaseRtoTimer s
  if s.tsk.state = .synSent then
    if s.tsk.backoff > TCP_CONN_RETRIES then tcpDone (retransmissionFailed s)
    else match skbPeek s.tsk.writeQueue with
      | none => s
      | some skb =>
        let s := retransmitHead s skb
        tcpRearmRtoTimer { s with tsk.backoff := s.tsk.backoff + 1 }
  else s

def tcpRetransmissionTimeout (s : Conn) : Conn :=
  let s := tcpReleaseRtoTimer s
  match skbPeek s.tsk.writeQueue with
  | none => tcpNotifyUser { s with tsk.backoff := 0 }
  | some skb =>
    let s := retransmitHead s skb
    if s.tsk.rto > 60000 then retransmissionFailed (tcpDone s)
    else if skb.th.fin then tcpHandleFinState (retransmissionBackoff s)
    else retransmissionBackoff s

/- src/tcp.c -/
def tcpAbort (s : Conn) : Conn := tcpDone (tcpSendReset s)

def tcpLinger (s : Conn) : Conn := tcpDone (stopLinger s)

def tcpUserTimeout (s : Conn) : Conn := tcpAbort (stopLinger s)

end HfIp
