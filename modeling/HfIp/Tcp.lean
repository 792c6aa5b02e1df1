import HfIp.Sock

/- The parts of src/tcp.c below the send and receive paths: timers, ending a connection, the
   round-trip estimator and the SACK blocks. -/
namespace HfIp

/- src/socket.c -/
def socketDelete (s : Conn) : Conn :=
  if s.sock.state = .disconnecting then s
  else { s with
    sock.state := .disconnecting
    ts := timerOneshot s.ts 10000 .socketGarbageCollect }

def tcpStopRtoTimer (s : Conn) : Conn :=
  { s with ts := timerCancel s.ts s.tsk.retransmit, tsk.retransmit := none, tsk.backoff := 0 }

def tcpReleaseRtoTimer (s : Conn) : Conn :=
  { s with ts := timerRelease s.ts s.tsk.retransmit, tsk.retransmit := none }

def tcpStopDelackTimer (s : Conn) : Conn :=
  { s with ts := timerCancel s.ts s.tsk.delack, tsk.delack := none }

def tcpReleaseDelackTimer (s : Conn) : Conn :=
  { s with ts := timerRelease s.ts s.tsk.delack, tsk.delack := none }

def stopKeepalive (s : Conn) : Conn :=
  { s with ts := timerCancel s.ts s.tsk.keepalive, tsk.keepalive := none }

def stopLinger (s : Conn) : Conn :=
  { s with ts := timerCancel s.ts s.tsk.linger, tsk.linger := none }

def tcpClearTimers (s : Conn) : Conn :=
  stopLinger (stopKeepalive (tcpStopDelackTimer (tcpStopRtoTimer s)))

def tcpClearQueues (s : Conn) : Conn :=
  { skbQueueFree s s.tsk.ofoQueue with tsk.ofoQueue := [] }

def tcpFree (s : Conn) : Conn := wakeSleep (tcpClearQueues (tcpClearTimers s))

def tcpDone (s : Conn) : Conn := socketDelete (tcpFree (setState { s with ended := true } .closing))

def tcpHandleFinState (s : Conn) : Conn :=
  match s.tsk.state with
  | .closeWait => setState s .lastAck
  | .established => setState s .finWait1
  | _ => s

def addLinger (s : Conn) (expire : UInt32) (handler : Handler) : Conn :=
  { s with ts := (timerAdd s.ts expire handler).1
           tsk.linger := some (timerAdd s.ts expire handler).2 }

def tcpEnterTimeWait (s : Conn) : Conn :=
  addLinger (tcpClearTimers (setState s .timeWait)) TCP_2MSL .tcpLinger

def tcpRearmUserTimeout (s : Conn) : Conn :=
  if s.tsk.state = .timeWait then s
  else addLinger (stopLinger s) TCP_USER_TIMEOUT .tcpUserTimeout

def addRetransmit (s : Conn) (expire : UInt32) (handler : Handler) : Conn :=
  { s with ts := (timerAdd s.ts expire handler).1
           tsk.retransmit := some (timerAdd s.ts expire handler).2 }

/- src/tcp_output.c -/
def tcpRearmRtoTimer (s : Conn) : Conn :=
  let s := tcpReleaseRtoTimer s
  if s.tsk.state = .synSent then
    addRetransmit s (TCP_SYN_BACKOFF <<< s.tsk.backoff.toUInt32) .tcpConnectRto
  else addRetransmit s s.tsk.rto .tcpRetransmissionTimeout

/- One update of the estimator by a sample `r`. The C expressions are exact in double precision
   and truncated to int; `int k = 4 * tsk->rttvar` keeps 32 bits. -/
def tcpRttUpdate (tsk : TcpSock) (r : Int) : TcpSock :=
  let srtt := if tsk.srtt = 0 then r else (7 * tsk.srtt + r).tdiv 8
  let rttvar := if tsk.srtt = 0 then r.tdiv 2
    else (3 * tsk.rttvar + (tsk.srtt - r).natAbs).tdiv 4
  let k := (Int32.ofInt (4 * rttvar)).toInt
  { tsk with srtt := srtt, rttvar := rttvar, rto := UInt32.ofInt (srtt + max k 200) }

def tcpRtt (s : Conn) : Conn :=
  if s.tsk.backoff > 0 then s
  else match s.tsk.retransmit.bind (findTimer s.ts) with
    | none => s
    | some t =>
      let r := (timerGetTick s.ts - (t.expires - s.tsk.rto)).toInt32.toInt
      if r < 0 then s else { s with tsk := tcpRttUpdate s.tsk r }

/- The loop of `tcp_calculate_sacks` with `sb` as an index into `sacks`. -/
def sackLoop (tsk : TcpSock) (sb : Nat) : List SkBuff → TcpSock
  | [] => tsk
  | next :: rest =>
    let block := tsk.sacks.getD sb {}
    let tsk := if block.left = 0 then
        { tsk with sacks := tsk.sacks.set sb { block with left := next.seq }
                   sacklen := tsk.sacklen + 1 }
      else tsk
    let block := tsk.sacks.getD sb {}
    if block.right = 0 ∨ block.right = next.seq then
      sackLoop { tsk with sacks := tsk.sacks.set sb { block with right := next.endSeq } } sb rest
    else if tsk.sacklen ≥ tsk.sacksAllowed then tsk
    else
      sackLoop { tsk with
        sacks := tsk.sacks.set tsk.sacklen ⟨next.seq, next.endSeq⟩
        sacksOob := tsk.sacksOob || 4 ≤ tsk.sacklen
        sacklen := tsk.sacklen + 1 } tsk.sacklen rest

def tcpCalculateSacks (tsk : TcpSock) : TcpSock :=
  sackLoop { tsk with sacks := tsk.sacks.set tsk.sacklen {}
                      sacksOob := tsk.sacksOob || 4 ≤ tsk.sacklen }
    tsk.sacklen tsk.ofoQueue

end HfIp
