import HfIp.TcpInput

/- The calls an application makes (src/socket.c, src/inet.c and the operations of src/tcp.c), and
   the events of one connection, each atomic under the socket lock. -/
namespace HfIp

/- The address argument of `connect`, its port and address in host order. -/
structure SockAddr where
  family : UInt16
  len : Nat
  port : UInt16
  addr : UInt32
  deriving DecidableEq, Repr

def AF_UNSPEC : UInt16 := 0

/- What a call gives back: nothing yet when its thread has gone to sleep. -/
inductive Reply where
  | none
  | asleep
  | ret (rc : Int)
  deriving DecidableEq, Repr

def parseIpv4 (a b c d : UInt8) : UInt32 :=
  a.toUInt32 <<< 24 ||| b.toUInt32 <<< 16 ||| c.toUInt32 <<< 8 ||| d.toUInt32

/- `port` is the value `generate_port` returns and `iss` that of `generate_iss`. -/
def tcpV4Connect (s : Conn) (addr : SockAddr) (port : UInt16) (iss : UInt32) : Conn :=
  tcpConnect { s with
    tsk.dport := addr.port
    tsk.sport := port
    tsk.daddr := addr.addr
    tsk.saddr := parseIpv4 10 0 0 4 } iss

def tcpWrite (s : Conn) (buf : List UInt8) : Conn × Int :=
  if s.tsk.err ≠ 0 then (s, s.tsk.err)
  else match s.tsk.state with
    | .established | .closeWait => (tcpSend s buf, buf.length)
    | _ => (s, -EBADF)

def tcpRead (s : Conn) (len : Nat) : Conn × Received :=
  match s.tsk.state with
  | .close => (s, .done (-EBADF))
  | .closeWait =>
    if skbQueueEmpty s.tsk.receiveQueue && s.tsk.flags &&& TCP_FIN ≠ 0 then
      ({ s with tsk.flags := s.tsk.flags &&& ~~~TCP_FIN }, .done 0)
    else tcpReceive s len
  | .closing | .lastAck | .timeWait => (s, .done s.tsk.err)
  | _ => tcpReceive s len

def tcpClose (s : Conn) : Conn × Int :=
  match s.tsk.state with
  | .close | .closing | .lastAck | .timeWait | .finWait1 | .finWait2 =>
    ({ s with tsk.err := -EBADF }, -1)
  | .listen | .synSent | .synReceived => (tcpDone s, 0)
  | .established => (tcpQueueFin (setState s .finWait1), 0)
  | .closeWait => (tcpQueueFin s, 0)

/- `sock_free` and the rest of `socket_free`; the out-of-order queue is not freed here. -/
def socketFree (s : Conn) : Conn :=
  let s := socketWrAcquire s
  let s := { s with sock.registered := false }
  let s := { skbQueueFree s s.tsk.receiveQueue with tsk.receiveQueue := [] }
  let s := { skbQueueFree s s.tsk.writeQueue with tsk.writeQueue := [] }
  socketRelease (wakeSleep { s with sock.skFreed := true })

def socketGarbageCollect (s : Conn) : Conn := if s.sock.registered then socketFree s else s

/- The wait loop of `inet_stream_connect`, at its head with the lock held. -/
def connectWait (s : Conn) : Conn × Option Int :=
  if s.sock.state = .connecting ∧ s.tsk.err = -EINPROGRESS then
    (socketRelease { s with sock.sleep := waitSleep s.sock.sleep, connecting := true }, none)
  else
    let s := socketWrAcquire s
    if s.tsk.err ≠ 0 then (s, some s.tsk.err)
    else ({ s with sock.state := .connected }, some 0)

def inetStreamConnect (s : Conn) (addr : SockAddr) (port : UInt16) (iss : UInt32) :
    Conn × Option Int :=
  if addr.len < 2 then (s, some (-EINVAL))
  else if addr.family = AF_UNSPEC then (s, some (-EAFNOSUPPORT))
  else match s.sock.state with
    | .connected => ({ s with tsk.err := -EISCONN }, some (-EISCONN))
    | .connecting => ({ s with tsk.err := -EALREADY }, some (-EALREADY))
    | .unconnected =>
      if s.tsk.state ≠ .close then ({ s with tsk.err := -EISCONN }, some (-EISCONN))
      else
        let s := tcpV4Connect { s with tsk.err := -EISCONN } addr port iss
        let s := { s with sock.state := .connecting, tsk.err := -EINPROGRESS }
        if s.sock.flags &&& O_NONBLOCK ≠ 0 then (s, some (-EINPROGRESS)) else connectWait s
    | _ => ({ s with tsk.err := -EINVAL }, some (-EINVAL))

/- The end of `_connect`, or nothing while `inet_stream_connect` sleeps. -/
def connectReturn : Conn × Option Int → Conn × Reply
  | (s, none) => (s, .asleep)
  | (s, some rc) =>
    if rc = -EINVAL ∨ rc = -EAFNOSUPPORT ∨ rc = -ECONNREFUSED ∨ rc = -ETIMEDOUT then
      (socketFree (socketRelease s), .ret rc)
    else (socketRelease s, .ret rc)

/- The end of `_read`: `tcp_receive` has released the lock itself when it sleeps. -/
def readReturn (len : Nat) : Conn × Received → Conn × Reply
  | (s, .done rc) => (socketRelease s, .ret rc)
  | (s, .asleep rlen) => (socketRelease { s with readers := s.readers ++ [⟨len, rlen⟩] }, .asleep)

/- `tcp_init_segment` on a segment whose header fields are in host order. -/
def tcpInitSegment (s : Conn) (th : TcpHdr) (payload : List UInt8) : Conn × SkBuff :=
  let al := allocSkb s th payload
  (al.1, { al.2 with seq := th.seq, endSeq := th.seq + al.2.dlen })

/- `tcp_in` for a segment that `inet_lookup` finds this connection for. -/
def tcpIn (s : Conn) (th : TcpHdr) (payload : List UInt8) : Conn :=
  let seg := tcpInitSegment s th payload
  socketRelease (tcpInputState (socketWrAcquire seg.1) th seg.2)

def runHandler (s : Conn) : Handler → Conn
  | .tcpConnectRto => socketRelease (tcpConnectRto (socketWrAcquire s))
  | .tcpRetransmissionTimeout => socketRelease (tcpRetransmissionTimeout (socketWrAcquire s))
  | .tcpSendDelack => socketRelease (tcpSendDelack (socketWrAcquire s))
  | .tcpLinger => socketRelease (tcpLinger (socketWrAcquire s))
  | .tcpUserTimeout => socketRelease (tcpUserTimeout (socketWrAcquire s))
  | .socketGarbageCollect => socketGarbageCollect s

inductive Event where
  | connect (addr : SockAddr) (port : UInt16) (iss : UInt32)
  | connectWakes
  | write (buf : List UInt8)
  | read (len : Nat)
  | readWakes (i : Nat)
  | close
  | abort
  | poll (events : UInt16)
  | fcntlGetfl
  | fcntlSetfl (flags : UInt32)
  | getsockoptError
  | segment (th : TcpHdr) (payload : List UInt8)
  | tick (busy : List Nat)
  | handler (i : Nat)
  deriving DecidableEq, Repr

/- The thread asleep in `tcp_receive` at position `i` goes on, with the lock taken again. -/
def readWakes (s : Conn) (i : Nat) : Option (Conn × Reply) :=
  s.readers[i]?.map fun r =>
    let s := socketWrAcquire { s with
      readers := s.readers.eraseIdx i, tsk.recvWait := waitReturn s.tsk.recvWait }
    readReturn r.len (receiveLoop s r.len r.rlen)

def connectWakes (s : Conn) : Option (Conn × Reply) :=
  if s.connecting then
    some (connectReturn (connectWait (socketWrAcquire
      { s with connecting := false, sock.sleep := waitReturn s.sock.sleep })))
  else none

/- A call on the descriptor: `get_socket`, the lock, the operation, the release. -/
def call (s : Conn) (f : Conn → Conn × Int) : Option (Conn × Reply) :=
  if s.sock.registered then
    let r := f (socketWrAcquire s)
    some (socketRelease r.1, .ret r.2)
  else none

/- One event, when it can happen. Nothing but ticks and the garbage collector's handler follows
   the freeing of the sock. -/
def exec (s : Conn) : Event → Option (Conn × Reply)
  | .tick busy => some ({ s with ts := timersStart s.ts busy }, .none)
  | .handler i => do
    let (ts, t) ← takeThread s.ts i
    if s.sock.skFreed && t.handler.onSock then none
    else some (runHandler { s with ts := ts } t.handler, .none)
  | .connect addr port iss =>
    if s.sock.registered then
      some (connectReturn (inetStreamConnect (socketWrAcquire s) addr port iss))
    else none
  | .connectWakes => if s.sock.skFreed then none else connectWakes s
  | .write buf => call s fun s => tcpWrite s buf
  | .read len =>
    if s.sock.registered then some (readReturn len (tcpRead (socketWrAcquire s) len)) else none
  | .readWakes i => if s.sock.skFreed then none else readWakes s i
  | .close => call s tcpClose
  | .abort => if s.sock.registered then some (tcpAbort s, .none) else none
  | .poll events => call s fun s =>
      (s, (s.tsk.pollEvents &&& (events ||| POLLHUP ||| POLLERR ||| POLLNVAL)).toNat)
  | .fcntlGetfl => call s fun s => (s, s.sock.flags.toNat)
  | .fcntlSetfl flags => call s fun s => ({ s with sock.flags := flags }, 0)
  | .getsockoptError => call s fun s => (s, s.tsk.err)
  | .segment th payload =>
    if s.sock.registered && th.dport = s.tsk.sport && th.sport = s.tsk.dport then
      some (tcpIn s th payload, .none)
    else none

/- A connection to port 80 of 10.0.0.5, opened without blocking with `iss` 1000 and established by
   a SYN-ACK under number 5000. -/
def peerHdr (seq ackSeq : UInt32) : TcpHdr :=
  { sport := 80, dport := 40001, seq := seq, ackSeq := ackSeq, hl := 5, ack := true }

def handshake : List Event :=
  [.fcntlSetfl (O_RDWR ||| O_NONBLOCK), .connect ⟨2, 16, 80, parseIpv4 10 0 0 5⟩ 40001 1000,
    .segment { peerHdr 5000 1001 with syn := true } []]

end HfIp
