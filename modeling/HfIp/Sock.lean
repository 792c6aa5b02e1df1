import HfIp.Timer
import HfIp.Skbuff

/- One connection: `struct socket`, `struct sock` and `struct tcp_sock` (include/socket.h,
   include/sock.h, include/tcp.h), the timers that have it as their argument, and what it has
   sent and handed out. Fields that no modelled function reads are left out. -/
namespace HfIp

inductive TcpState where
  | listen | synSent | synReceived | established | finWait1 | finWait2 | close | closeWait
  | closing | lastAck | timeWait
  deriving DecidableEq, Repr

inductive SocketState where
  | free | unconnected | connecting | connected | disconnecting
  deriving DecidableEq, Repr

/- The functions given to `timer_add` and `timer_oneshot`. All but the last run with the
   `sock` as argument; `socketGarbageCollect` runs with the `socket`. -/
inductive Handler where
  | tcpConnectRto | tcpRetransmissionTimeout | tcpSendDelack | tcpLinger | tcpUserTimeout
  | socketGarbageCollect
  deriving DecidableEq, Repr

def Handler.onSock (h : Handler) : Bool := h ≠ .socketGarbageCollect

def TCP_FIN : UInt8 := 0x01
def TCP_PSH : UInt8 := 0x08
def TCP_SYN_BACKOFF : UInt32 := 500
def TCP_CONN_RETRIES : UInt8 := 3
def TCP_2MSL : UInt32 := 60000
def TCP_USER_TIMEOUT : UInt32 := 180000

def POLLIN : UInt16 := 0x001
def POLLPRI : UInt16 := 0x002
def POLLOUT : UInt16 := 0x004
def POLLERR : UInt16 := 0x008
def POLLHUP : UInt16 := 0x010
def POLLNVAL : UInt16 := 0x020
def POLLRDNORM : UInt16 := 0x040
def POLLRDBAND : UInt16 := 0x080
def POLLWRNORM : UInt16 := 0x100
def POLLWRBAND : UInt16 := 0x200

def EBADF : Int := 9
def EAGAIN : Int := 11
def EINVAL : Int := 22
def EPIPE : Int := 32
def EAFNOSUPPORT : Int := 97
def ECONNRESET : Int := 104
def EISCONN : Int := 106
def ETIMEDOUT : Int := 110
def ECONNREFUSED : Int := 111
def EALREADY : Int := 114
def EINPROGRESS : Int := 115
def ENOPROTOOPT : Int := 92

def O_RDWR : UInt32 := 2
def O_NONBLOCK : UInt32 := 0x800

/- `wait_lock`: the `sleeping` byte, the threads blocked on the condition variable and those
   that a signal has released and that have not yet gone on. -/
structure WaitLock where
  sleeping : Bool := false
  waiting : Nat := 0
  released : Nat := 0
  deriving DecidableEq, Repr

def waitWakeup (w : WaitLock) : WaitLock :=
  { sleeping := false, waiting := w.waiting - 1, released := w.released + min w.waiting 1 }

def waitSleep (w : WaitLock) : WaitLock := { w with sleeping := true, waiting := w.waiting + 1 }

/- Return from `pthread_cond_wait`, after a signal when there was one. -/
def waitReturn (w : WaitLock) : WaitLock :=
  if w.released = 0 then { w with waiting := w.waiting - 1 }
  else { w with released := w.released - 1 }

structure Tcb where
  sndUna : UInt32 := 0
  sndNxt : UInt32 := 0
  iss : UInt32 := 0
  rcvNxt : UInt32 := 0
  rcvWnd : UInt32 := 0
  irs : UInt32 := 0
  deriving DecidableEq, Repr

structure SackBlock where
  left : UInt32 := 0
  right : UInt32 := 0
  deriving DecidableEq, Repr

/- `tcp_alloc_sock` and `sock_init_data` give the default values. `sacksOob` records an index
   past the four entries of `sacks`. -/
structure TcpSock where
  state : TcpState := .close
  err : Int := 0
  pollEvents : UInt16 := 0
  sport : UInt16 := 0
  dport : UInt16 := 0
  saddr : UInt32 := 0
  daddr : UInt32 := 0
  recvWait : WaitLock := {}
  receiveQueue : List SkBuff := []
  writeQueue : List SkBuff := []
  tcb : Tcb := {}
  flags : UInt8 := 0
  backoff : UInt8 := 0
  srtt : Int := 0
  rttvar : Int := 0
  rto : UInt32 := 0
  retransmit : Option Nat := none
  delack : Option Nat := none
  keepalive : Option Nat := none
  linger : Option Nat := none
  delacks : UInt8 := 0
  rmss : UInt16 := 1460
  smss : UInt16 := 536
  inflight : Nat := 0
  sackok : Bool := true
  sacksAllowed : Nat := 0
  sacklen : Nat := 0
  sacks : List SackBlock := [{}, {}, {}, {}]
  sacksOob : Bool := false
  tsopt : Bool := false
  ofoQueue : List SkBuff := []
  deriving DecidableEq, Repr

/- `registered` is membership in the list `sockets`; `skFreed` is set by `free(sock->sk)`, and
   `relocked` by a thread that takes the lock it already holds. -/
structure Socket where
  state : SocketState := .unconnected
  flags : UInt32 := O_RDWR
  refcnt : Int := 1
  locked : Bool := false
  relocked : Bool := false
  registered : Bool := true
  skFreed : Bool := false
  sleep : WaitLock := {}
  deriving DecidableEq, Repr

/- A thread asleep in `tcp_receive`: the requested length and what it has copied so far. -/
structure BlockedRead where
  len : Nat
  rlen : Nat
  deriving DecidableEq, Repr

/- The last fields are a history: `out` lists the segments given to `ip_output`, `sent` the buffers
   as they were first numbered, `accepted` the bytes `tcp_write` has taken, `fins` counts the FINs
   queued, `delivered` lists the bytes copied to readers, `freed` the buffers given to `free`;
   `ended` is set when `tcp_done` runs. -/
structure Conn where
  sock : Socket := {}
  tsk : TcpSock := {}
  ts : TimerService Handler := {}
  nextSkb : Nat := 0
  readers : List BlockedRead := []
  connecting : Bool := false
  out : List Segment := []
  sent : List SkBuff := []
  accepted : List UInt8 := []
  fins : Nat := 0
  delivered : List UInt8 := []
  freed : List Nat := []
  ended : Bool := false
  deriving DecidableEq, Repr

def setState (s : Conn) (state : TcpState) : Conn := { s with tsk.state := state }

def freeSkb (s : Conn) (skb : SkBuff) : Conn :=
  if skb.refcnt < 1 then { s with freed := s.freed ++ [skb.id] } else s

/- `skb_queue_free`, on a queue that the caller then empties. -/
def skbQueueFree (s : Conn) (queue : List SkBuff) : Conn :=
  queue.foldl (fun s skb => freeSkb s { skb with refcnt := skb.refcnt - 1 }) s

def allocSkb (s : Conn) (th : TcpHdr) (payload : List UInt8) : Conn × SkBuff :=
  ({ s with nextSkb := s.nextSkb + 1 }, { id := s.nextSkb, th := th, payload := payload })

def recvNotify (s : Conn) : Conn := { s with tsk.recvWait := waitWakeup s.tsk.recvWait }

def wakeSleep (s : Conn) : Conn := { s with sock.sleep := waitWakeup s.sock.sleep }

/- `pthread_rwlock_wrlock` by the thread that holds the lock returns an error that both acquire
   functions ignore. -/
def socketWrAcquire (s : Conn) : Conn :=
  { s with
    sock.refcnt := s.sock.refcnt + 1
    sock.locked := true
    sock.relocked := s.sock.relocked || s.sock.locked }

def socketRdAcquire (s : Conn) : Conn := socketWrAcquire s

def socketRelease (s : Conn) : Conn :=
  { s with sock.refcnt := s.sock.refcnt - 1, sock.locked := false }

end HfIp
