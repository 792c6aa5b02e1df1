import HfIp.TcpOutput

/- Queueing received text and handing it to the reader (src/tcp_data.c, and `tcp_receive` of
   src/tcp_input.c). -/
namespace HfIp

/- `none` when the queue already has a buffer with this sequence number. A buffer that overlaps
   its successor is not joined: the search goes on behind it. -/
def insertOrdered (skb : SkBuff) : List SkBuff → Option (List SkBuff)
  | [] => some [skb]
  | next :: rest =>
    if skb.seq < next.seq then
      if skb.endSeq > next.seq then (insertOrdered skb rest).map (next :: ·)
      else some (skb :: next :: rest)
    else if skb.seq = next.seq then none
    else (insertOrdered skb rest).map (next :: ·)

def tcpDataInsertOrdered (queue : List SkBuff) (skb : SkBuff) : List SkBuff × SkBuff :=
  let skb' := { skb with refcnt := skb.refcnt + 1 }
  match insertOrdered skb' queue with
  | some queue' => (queue', skb')
  | none => (queue, skb)

/- Returns the new `rcv_nxt`, the buffers moved to the receive queue and what is left. -/
def consumeLoop (rcvNxt : UInt32) : List SkBuff → UInt32 × List SkBuff × List SkBuff
  | [] => (rcvNxt, [], [])
  | skb :: rest =>
    if rcvNxt = skb.seq then
      let r := consumeLoop (rcvNxt + skb.dlen) rest
      (r.1, skb :: r.2.1, r.2.2)
    else (rcvNxt, [], skb :: rest)

def tcpConsumeOfoQueue (s : Conn) : Conn :=
  let r := consumeLoop s.tsk.tcb.rcvNxt s.tsk.ofoQueue
  { s with
    tsk.tcb.rcvNxt := r.1
    tsk.receiveQueue := s.tsk.receiveQueue ++ r.2.1
    tsk.ofoQueue := r.2.2 }

/- The loop of `tcp_data_dequeue` with room for `room` more bytes: the state, the queue that is
   left and the bytes copied. -/
def dequeueLoop (s : Conn) (room : Nat) : List SkBuff → Conn × List SkBuff × List UInt8
  | [] => (s, [], [])
  | skb :: rest =>
    if room = 0 then (s, skb :: rest, [])
    else
      let bytes := skb.payload.take room
      let skb' := { skb with payload := skb.payload.drop room }
      if skb'.payload.length = 0 then
        let s := if skb.th.psh then { s with tsk.flags := s.tsk.flags ||| TCP_PSH } else s
        let r := dequeueLoop (freeSkb s { skb' with refcnt := skb'.refcnt - 1 })
          (room - bytes.length) rest
        (r.1, r.2.1, bytes ++ r.2.2)
      else (s, skb' :: rest, bytes)

def tcpDataDequeue (s : Conn) (userlen : Nat) : Conn × List UInt8 :=
  let r := dequeueLoop s userlen s.tsk.receiveQueue
  let s := { r.1 with tsk.receiveQueue := r.2.1, delivered := r.1.delivered ++ r.2.2 }
  if skbQueueEmpty s.tsk.receiveQueue && s.tsk.flags &&& TCP_FIN = 0 then
    ({ s with tsk.pollEvents := s.tsk.pollEvents &&& ~~~POLLIN }, r.2.2)
  else (s, r.2.2)

def pollReadable (s : Conn) : Conn :=
  { s with tsk.pollEvents :=
      s.tsk.pollEvents ||| (POLLIN ||| POLLPRI ||| POLLRDNORM ||| POLLRDBAND) }

/- Returns the buffer too, whose `refcnt` the caller's `free_skb` reads. -/
def tcpDataQueue (s : Conn) (skb : SkBuff) : Conn × SkBuff :=
  if s.tsk.tcb.rcvWnd = 0 then (freeSkb s skb, skb)
  else if skb.seq = s.tsk.tcb.rcvNxt then
    let skb := { skb with refcnt := skb.refcnt + 1 }
    let s := tcpConsumeOfoQueue { s with
      tsk.tcb.rcvNxt := s.tsk.tcb.rcvNxt + skb.dlen
      tsk.receiveQueue := skbQueueTail s.tsk.receiveQueue skb }
    (recvNotify (pollReadable s), skb)
  else
    let r := tcpDataInsertOrdered s.tsk.ofoQueue skb
    let s := { s with tsk.ofoQueue := r.1 }
    let s := if s.tsk.sackok then { s with tsk := tcpCalculateSacks s.tsk } else s
    (tcpSendAck s, r.2)

inductive Received where
  | done (rlen : Int)
  | asleep (rlen : Nat)
  deriving DecidableEq, Repr

def receiveReturn (s : Conn) (rlen : Int) : Conn × Received :=
  (if 0 ≤ rlen then tcpRearmUserTimeout s else s, .done rlen)

/- The loop of `tcp_receive` from its head until it leaves or goes to sleep in `wait_sleep`,
   with `rlen` bytes already copied. Every turn that does not leave the loop sleeps. -/
def receiveLoop (s : Conn) (len rlen : Nat) : Conn × Received :=
  if rlen < len then
    let r := tcpDataDequeue s (len - rlen)
    let s := r.1
    let rlen := rlen + r.2.length
    if s.tsk.flags &&& TCP_PSH ≠ 0 then
      receiveReturn { s with tsk.flags := s.tsk.flags &&& ~~~TCP_PSH } rlen
    else if s.tsk.flags &&& TCP_FIN ≠ 0 ∨ rlen = len then receiveReturn s rlen
    else if s.sock.flags &&& O_NONBLOCK ≠ 0 then
      receiveReturn s (if rlen = 0 then -EAGAIN else rlen)
    else ({ s with tsk.recvWait := waitSleep s.tsk.recvWait }, .asleep rlen)
  else receiveReturn s rlen

def tcpReceive (s : Conn) (len : Nat) : Conn × Received := receiveLoop s len 0

end HfIp
