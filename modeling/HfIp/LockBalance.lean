import HfIp.SocketEvents
import HfIp.Lib.Run

/- The lock of the socket and its reference count (src/socket.c) over the calls of the interface. -/
namespace HfIp

open Transition

/- The count and the lock, which the functions below leave to their callers, and the freeing of the sock. -/
structure Grip where
  refcnt : Int
  locked : Bool
  relocked : Bool
  skFreed : Bool
  deriving DecidableEq, Repr

def grip (s : Conn) : Grip := ⟨s.sock.refcnt, s.sock.locked, s.sock.relocked, s.sock.skFreed⟩

theorem grip_of_sock {s t : Conn} (h : t.sock = s.sock) : grip t = grip s := by
  unfold grip
  rw [h]

variable (s : Conn)

/-! ### The functions that leave the socket alone -/

@[simp] theorem skbQueueFree_sock (queue : List SkBuff) : (skbQueueFree s queue).sock = s.sock := by
  obtain ⟨freed, eq⟩ := skbQueueFree_eq s queue
  rw [eq]

@[simp] theorem tcpRearmRtoTimer_sock : (tcpRearmRtoTimer s).sock = s.sock := by
  unfold tcpRearmRtoTimer
  dsimp only
  split <;> rfl

@[simp] theorem tcpRearmUserTimeout_sock : (tcpRearmUserTimeout s).sock = s.sock := by
  unfold tcpRearmUserTimeout
  split <;> rfl

@[simp] theorem tcpQueueTransmitSkb_sock (skb : SkBuff) :
    (tcpQueueTransmitSkb s skb).sock = s.sock := by
  unfold tcpQueueTransmitSkb
  dsimp only
  split <;> split <;> simp [numberSkb, tcpTransmitSkb]

@[simp] theorem sendNextLoop_sock (amount : Nat) (queue : List SkBuff) :
    (sendNextLoop s amount queue).1.sock = s.sock := by
  induction amount generalizing s queue with
  | zero => rfl
  | succ amount ih =>
    cases queue with
    | nil => rfl
    | cons next rest => exact ih _ rest

@[simp] theorem tcpSendNext_sock (amount : Nat) : (tcpSendNext s amount).sock = s.sock :=
  sendNextLoop_sock s amount _

@[simp] theorem tcpSendAck_sock : (tcpSendAck s).sock = s.sock := by
  unfold tcpSendAck
  split
  · rfl
  · exact freeSkb_sock _ _

@[simp] theorem tcpSendReset_sock : (tcpSendReset s).sock = s.sock := freeSkb_sock _ _

@[simp] theorem tcpQueueFin_sock : (tcpQueueFin s).sock = s.sock := tcpQueueTransmitSkb_sock _ _

@[simp] theorem tcpConnect_sock (iss : UInt32) : (tcpConnect s iss).sock = s.sock := by
  unfold tcpConnect tcpSendSyn
  dsimp only
  split
  · rfl
  · exact tcpQueueTransmitSkb_sock _ _

theorem tcpSendLoop_sock (mss fuel : Nat) (buf : List UInt8) :
    (tcpSendLoop mss fuel s buf).sock = s.sock := by
  induction fuel generalizing s buf with
  | zero => rfl
  | succ fuel ih =>
    unfold tcpSendLoop
    split
    · rfl
    · exact (ih _ _).trans (tcpQueueTransmitSkb_sock _ _)

@[simp] theorem tcpSend_sock (buf : List UInt8) : (tcpSend s buf).sock = s.sock :=
  (tcpRearmUserTimeout_sock _).trans (tcpSendLoop_sock _ _ _ _)

theorem dequeueLoop_sock (room : Nat) (queue : List SkBuff) :
    (dequeueLoop s room queue).1.sock = s.sock := by
  induction queue generalizing s room with
  | nil => rfl
  | cons skb rest ih =>
    unfold dequeueLoop
    split
    · rfl
    · dsimp only
      split
      · refine (ih _ _).trans ((freeSkb_sock _ _).trans ?_)
        split <;> rfl
      · rfl

@[simp] theorem tcpDataDequeue_sock (userlen : Nat) : (tcpDataDequeue s userlen).1.sock = s.sock := by
  unfold tcpDataDequeue
  dsimp only
  split <;> exact dequeueLoop_sock s userlen _

theorem receiveReturn_sock (rlen : Int) : (receiveReturn s rlen).1.sock = s.sock := by
  unfold receiveReturn
  dsimp only
  split
  · exact tcpRearmUserTimeout_sock s
  · rfl

@[simp] theorem receiveLoop_sock (len rlen : Nat) : (receiveLoop s len rlen).1.sock = s.sock := by
  unfold receiveLoop
  dsimp only
  split
  · split
    · exact (receiveReturn_sock _ _).trans (tcpDataDequeue_sock s _)
    · split
      · exact (receiveReturn_sock _ _).trans (tcpDataDequeue_sock s _)
      · split
        · exact (receiveReturn_sock _ _).trans (tcpDataDequeue_sock s _)
        · exact tcpDataDequeue_sock s _
  · exact receiveReturn_sock s _

@[simp] theorem tcpDataQueue_sock (skb : SkBuff) : (tcpDataQueue s skb).1.sock = s.sock := by
  unfold tcpDataQueue
  split
  · exact freeSkb_sock s skb
  · split
    · rfl
    · dsimp only
      refine (tcpSendAck_sock _).trans ?_
      split <;> rfl

theorem cleanLoop_sock (una : UInt32) (queue : List SkBuff) : (cleanLoop una s queue).1.sock = s.sock := by
  induction queue generalizing s with
  | nil => rfl
  | cons skb rest ih =>
    unfold cleanLoop
    split
    · exact (ih _).trans (freeSkb_sock _ _)
    · rfl

@[simp] theorem tcpCleanRtoQueue_sock (una : UInt32) : (tcpCleanRtoQueue s una).sock = s.sock := by
  unfold tcpCleanRtoQueue
  dsimp only
  split <;> exact cleanLoop_sock s una _

@[simp] theorem tcpRtt_sock : (tcpRtt s).sock = s.sock := by
  unfold tcpRtt
  split
  · rfl
  · split
    · rfl
    · dsimp only
      split <;> rfl

theorem inputNewAck_sock (th : TcpHdr) : (inputNewAck s th).1.sock = s.sock := by
  have checked (u : Conn) : (if th.ackSeq < u.tsk.tcb.sndUna then (u, false)
      else if th.ackSeq > u.tsk.tcb.sndNxt then (u, false) else (u, true)).1.sock = u.sock := by
    split
    · rfl
    · split <;> rfl
  refine (checked _).trans ?_
  split
  · rw [tcpCleanRtoQueue_sock, tcpRtt_sock]
  · rfl

@[simp] theorem inputAck_sock (th : TcpHdr) : (inputAck s th).1.sock = s.sock := by
  unfold inputAck
  split
  · split
    · exact inputNewAck_sock _ th
    · rfl
  iterate 6 exact inputNewAck_sock s th
  · rfl

@[simp] theorem inputFinAcked_sock (th : TcpHdr) : (inputFinAcked s th).sock = s.sock := by
  unfold inputFinAcked
  split
  · split
    · rfl
    · rfl
    · split
      · exact tcpSendAck_sock _
      · rfl
    · rfl
  · rfl

@[simp] theorem inputFin_sock : (inputFin s).sock = s.sock := by
  have acked : (recvNotify (tcpSendAck (pollReadable { s with
      tsk.tcb.rcvNxt := s.tsk.tcb.rcvNxt + 1, tsk.flags := s.tsk.flags ||| TCP_FIN }))).sock = s.sock :=
    tcpSendAck_sock _
  unfold inputFin
  dsimp only
  split
  · exact acked
  · exact acked
  · split <;> exact acked
  · exact acked
  · exact acked

@[simp] theorem inputDelack_sock (th : TcpHdr) (skb : SkBuff) : (inputDelack s th skb).sock = s.sock := by
  unfold inputDelack
  dsimp only
  split
  · exact (tcpRearmRtoTimer_sock _).trans (tcpSendNext_sock _ _)
  · have counted (u : Conn) (large : Bool) : (countDelack u large).sock = u.sock := by
      unfold countDelack
      split <;> rfl
    split
    · exact (tcpSendAck_sock _).trans (counted _ _)
    · split <;> exact counted _ _

@[simp] theorem inputTail_sock (th : TcpHdr) (skb : SkBuff) : (inputTail s th skb).sock = s.sock := by
  unfold inputTail
  refine (freeSkb_sock _ _).trans ?_
  have text : (inputText s th skb).1.sock = s.sock := by
    unfold inputText
    split
    iterate 3 split <;> simp
    · rfl
  have ended (u : Conn) (expected : Bool) : (inputTextFin u th expected).sock = u.sock := by
    unfold inputTextFin
    split <;> simp
  unfold inputExpected
  split
  iterate 3 split <;> simp [text, ended]
  · simp [text, ended]

/-! ### The functions that leave the lock to their callers -/

@[simp] theorem tcpDone_grip : grip (tcpDone s) = grip s := by
  have ended : (tcpFree (setState { s with ended := true } .closing)).sock =
      { s.sock with sleep := waitWakeup s.sock.sleep } := by
    unfold tcpFree wakeSleep tcpClearQueues
    dsimp only
    rw [skbQueueFree_sock]
    rfl
  unfold tcpDone socketDelete
  split
  · unfold grip
    rw [ended]
  · unfold grip
    dsimp only
    rw [ended]

@[simp] theorem tcpReset_grip : grip (tcpReset s) = grip s := by
  unfold tcpReset
  dsimp only
  split
  · exact tcpDone_grip _
  · exact tcpDone_grip _
  · rfl
  · exact tcpDone_grip _

@[simp] theorem synsentSyn_grip (th : TcpHdr) : grip (synsentSyn s th) = grip s := by
  have acked : (synsentAck s th).sock = s.sock := by
    unfold synsentAck
    dsimp only
    split
    · exact tcpCleanRtoQueue_sock _ _
    · rfl
  unfold synsentSyn
  dsimp only
  split
  · unfold synsentEstablish sockConnected wakeSleep
    dsimp only [grip]
    rw [tcpRearmUserTimeout_sock, tcpSendAck_sock]
    dsimp only [setState]
    rw [acked]
  · rw [tcpSendSynack, if_pos (by simp [setState])]
    exact grip_of_sock acked

@[simp] theorem tcpInputState_grip (th : TcpHdr) (skb : SkBuff) :
    grip (tcpInputState s th skb) = grip s := by
  have freed (u : Conn) : grip (freeSkb u skb) = grip u := grip_of_sock (freeSkb_sock u skb)
  unfold tcpInputState
  split
  · unfold tcpClosed
    split
    · exact freed s
    · exact (freed _).trans (grip_of_sock (tcpSendReset_sock s))
  · exact freed s
  · unfold tcpSynsent
    dsimp only
    split
    · exact freed s
    · split
      · exact freed s
      · split
        · exact (freed _).trans (tcpReset_grip s)
        · split
          · exact freed s
          · exact (freed _).trans (synsentSyn_grip s th)
  · have acked : grip (inputAck s th).1 = grip s := grip_of_sock (inputAck_sock s th)
    refine inputOtherwise_cases s th skb ?_ ?_ ?_ ?_ ?_ ?_
    · intro _
      refine (freed _).trans ?_
      split
      · rfl
      · exact grip_of_sock (tcpSendAck_sock s)
    · intro _ _
      exact freed s
    · intro _ _ _
      exact freed s
    · intro _ _ _ _ _
      exact (freed _).trans acked
    · intro _ _ _ _ _ _ _
      exact (tcpDone_grip _).trans ((freed _).trans acked)
    · intro _ _ _ _ _ _
      refine (grip_of_sock ?_).trans acked
      rw [inputTail_sock, inputFinAcked_sock]

theorem tcpWrite_grip (buf : List UInt8) : grip (tcpWrite s buf).1 = grip s := by
  unfold tcpWrite
  split
  · rfl
  · split
    · exact grip_of_sock (tcpSend_sock s buf)
    · exact grip_of_sock (tcpSend_sock s buf)
    · rfl

theorem tcpRead_grip (len : Nat) : grip (tcpRead s len).1 = grip s := by
  have received : grip (tcpReceive s len).1 = grip s := grip_of_sock (receiveLoop_sock s len 0)
  unfold tcpRead
  split
  · rfl
  · split
    · rfl
    · exact received
  iterate 3 rfl
  · exact received

theorem tcpClose_grip : grip (tcpClose s).1 = grip s := by
  unfold tcpClose
  split
  iterate 6 rfl
  iterate 3 exact tcpDone_grip s
  · exact grip_of_sock (tcpQueueFin_sock _)
  · exact grip_of_sock (tcpQueueFin_sock s)

theorem tcpAbort_grip : grip (tcpAbort s) = grip s :=
  (tcpDone_grip _).trans (grip_of_sock (tcpSendReset_sock s))

/- A handler that takes the lock, between the two. -/
theorem tcpConnectRto_grip : grip (tcpConnectRto s) = grip s := by
  unfold tcpConnectRto
  dsimp only
  split
  · split
    · exact tcpDone_grip _
    · split
      · rfl
      · exact grip_of_sock (tcpRearmRtoTimer_sock _)
  · rfl

theorem tcpRetransmissionTimeout_grip : grip (tcpRetransmissionTimeout s) = grip s := by
  unfold tcpRetransmissionTimeout
  dsimp only
  split
  · unfold tcpNotifyUser
    split <;> rfl
  · split
    · exact tcpDone_grip _
    · split
      · unfold tcpHandleFinState
        split <;> rfl
      · rfl

/-! ### Events -/

variable {s} {t : Conn} {r : Reply}

/- Between its acquire and its release a call leaves the lock alone. -/
theorem released_grip {u v : Conn} (free : u.sock.locked = false)
    (same : grip v = grip (socketWrAcquire u)) : grip (socketRelease v) = grip u := by
  obtain ⟨refcnt, -, relocked, skFreed⟩ := Grip.mk.inj same
  unfold grip socketRelease
  dsimp only
  rw [refcnt, relocked, skFreed, free]
  simp [socketWrAcquire, free]

/- The lock given back, by the caller or already in the wait. -/
def handBack : Conn × Option Int → Conn
  | (s, none) => s
  | (s, some _) => socketRelease s

theorem inetStreamConnect_grip (addr : SockAddr) (port : UInt16) (iss : UInt32) :
    grip (handBack (inetStreamConnect s addr port iss)) = grip (socketRelease s) := by
  have connected (u : Conn) : grip (tcpV4Connect u addr port iss) = grip u :=
    grip_of_sock (tcpConnect_sock _ iss)
  have dialled := connected { s with tsk.err := -EISCONN }
  unfold inetStreamConnect
  split
  · rfl
  · split
    · rfl
    · split
      · rfl
      · rfl
      · split
        · rfl
        · dsimp only
          generalize tcpV4Connect { s with tsk.err := -EISCONN } addr port iss = u at dialled
          obtain ⟨refcnt, -, relocked, skFreed⟩ := Grip.mk.inj dialled
          have left : grip (socketRelease u) = grip (socketRelease s) := by
            unfold grip socketRelease
            dsimp only
            rw [refcnt, relocked, skFreed]
          split
          · exact left
          · unfold connectWait
            rw [if_pos ⟨rfl, rfl⟩]
            exact left
      · rfl

theorem connectReturn_grip (q : Conn × Option Int) :
    (∃ u, (connectReturn q).1 = socketFree u) ∨ (connectReturn q).1 = handBack q := by
  obtain ⟨u, _ | rc⟩ := q
  · exact .inr rfl
  · unfold connectReturn
    dsimp only
    split
    · exact .inl ⟨_, rfl⟩
    · exact .inr rfl

theorem readReturn_grip {u : Conn} {q : Conn × Received} (len : Nat) (free : u.sock.locked = false)
    (same : grip q.1 = grip (socketWrAcquire u)) : grip (readReturn len q).1 = grip u := by
  obtain ⟨v, rc | rlen⟩ := q
  · exact released_grip free same
  · exact released_grip free same

theorem runHandler_grip (h : Handler) (free : s.sock.locked = false) :
    (∃ u, runHandler s h = socketFree u) ∨ grip (runHandler s h) = grip s := by
  cases h with
  | tcpConnectRto => exact .inr (released_grip free (tcpConnectRto_grip _))
  | tcpRetransmissionTimeout => exact .inr (released_grip free (tcpRetransmissionTimeout_grip _))
  | tcpSendDelack => exact .inr (released_grip free (grip_of_sock (tcpSendAck_sock _)))
  | tcpLinger => exact .inr (released_grip free (tcpDone_grip _))
  | tcpUserTimeout => exact .inr (released_grip free (tcpAbort_grip _))
  | socketGarbageCollect =>
    unfold runHandler socketGarbageCollect
    dsimp only
    split
    · exact .inl ⟨s, rfl⟩
    · exact .inr rfl

/-- A blocking connect comes back from its wait. -/
def ConnectReturns (s : Conn) (e : Event) : Prop :=
  e = .connectWakes ∧ ¬(s.sock.state = .connecting ∧ s.tsk.err = -EINPROGRESS)

instance (s : Conn) (e : Event) : Decidable (ConnectReturns s e) := inferInstanceAs (Decidable (_ ∧ _))

theorem call_grip {f : Conn → Conn × Int} (free : s.sock.locked = false)
    (same : ∀ u, grip (f u).1 = grip u) (taken : call s f = some (t, r)) : grip t = grip s := by
  unfold call at taken
  split at taken
  · obtain ⟨rfl, -⟩ := by simpa using taken
    exact released_grip free (same _)
  · contradiction

theorem connectWait_grip (u : Conn) : grip (handBack (connectWait u)) =
    if u.sock.state = .connecting ∧ u.tsk.err = -EINPROGRESS then grip (socketRelease u)
    else grip (socketRelease (socketWrAcquire u)) := by
  unfold connectWait
  split
  · rfl
  · dsimp only
    split <;> rfl

/- The thread that comes back has the lock, and takes it once more. -/
theorem connectWakes_grip (free : s.sock.locked = false) (taken : connectWakes s = some (t, r)) :
    (∃ u, t = socketFree u) ∨
      grip t = if s.sock.state = .connecting ∧ s.tsk.err = -EINPROGRESS then grip s
        else ⟨s.sock.refcnt + 1, false, true, s.sock.skFreed⟩ := by
  unfold connectWakes at taken
  split at taken
  · generalize woken : connectWait (socketWrAcquire
      { s with connecting := false, sock.sleep := waitReturn s.sock.sleep }) = q at taken
    obtain rfl : (connectReturn q).1 = t := by rw [Option.some.inj taken]
    refine (connectReturn_grip q).imp id fun back => ?_
    rw [back, ← woken]
    refine (connectWait_grip _).trans ?_
    by_cases waits : s.sock.state = .connecting ∧ s.tsk.err = -EINPROGRESS
    · exact (if_pos waits).trans ((released_grip free rfl).trans (if_pos waits).symm)
    · refine (if_neg waits).trans (Eq.trans ?_ (if_neg waits).symm)
      unfold grip socketRelease socketWrAcquire
      simp only [Bool.or_true, Int.add_sub_cancel]
  · contradiction

/-- Every event that does not free the sock leaves count and lock as they were, except the return of a
    blocking connect: the thread takes the lock it holds, and the count stays up. -/
theorem exec_grip {e : Event} (free : s.sock.locked = false) (taken : exec s e = some (t, r)) :
    (∃ u, t = socketFree u) ∨
      grip t = if ConnectReturns s e then ⟨s.sock.refcnt + 1, false, true, s.sock.skFreed⟩
        else grip s := by
  by_cases wakes : e = .connectWakes
  · subst wakes
    simp only [exec] at taken
    split at taken
    · contradiction
    · refine (connectWakes_grip free taken).imp id fun same => same.trans ?_
      by_cases waits : s.sock.state = .connecting ∧ s.tsk.err = -EINPROGRESS
      · rw [if_pos waits, if_neg fun returns => returns.2 waits]
      · rw [if_neg waits, if_pos ⟨rfl, waits⟩]
  · rw [if_neg fun returns => wakes returns.1]
    cases e with
    | connectWakes => exact absurd rfl wakes
    | connect addr port iss =>
      simp only [exec] at taken
      split at taken
      · generalize dialled : inetStreamConnect (socketWrAcquire s) addr port iss = q at taken
        obtain rfl : (connectReturn q).1 = t := by rw [Option.some.inj taken]
        refine (connectReturn_grip q).imp id fun back => ?_
        rw [back, ← dialled]
        exact (inetStreamConnect_grip addr port iss).trans (released_grip free rfl)
      · contradiction
    | write buf => exact .inr (call_grip free (fun u => tcpWrite_grip u buf) taken)
    | read len =>
      simp only [exec] at taken
      split at taken
      · have done := readReturn_grip len free (tcpRead_grip (socketWrAcquire s) len)
        rw [Option.some.inj taken] at done
        exact .inr done
      · contradiction
    | readWakes i =>
      simp only [exec] at taken
      split at taken
      · contradiction
      · obtain ⟨b, -, eq⟩ := Option.map_eq_some_iff.mp taken
        have done := readReturn_grip b.len (u := { s with
          readers := s.readers.eraseIdx i, tsk.recvWait := waitReturn s.tsk.recvWait }) free
          (grip_of_sock (receiveLoop_sock _ b.len b.rlen))
        rw [eq] at done
        exact .inr done
    | close => exact .inr (call_grip free tcpClose_grip taken)
    | abort =>
      simp only [exec] at taken
      split at taken
      · obtain ⟨rfl, -⟩ := Prod.mk.inj (Option.some.inj taken)
        exact .inr (tcpAbort_grip s)
      · contradiction
    | segment th payload =>
      simp only [exec] at taken
      split at taken
      · obtain ⟨rfl, -⟩ := Prod.mk.inj (Option.some.inj taken)
        exact .inr (released_grip free (tcpInputState_grip _ th _))
      · contradiction
    | tick busy =>
      obtain ⟨rfl, -⟩ := Prod.mk.inj (Option.some.inj taken)
      exact .inr rfl
    | handler i =>
      obtain ⟨h, -, -, rfl⟩ := exec_handler_taken taken
      exact runHandler_grip h.handler free
    | poll events =>
      simp only [exec] at taken
      exact .inr (call_grip free (fun _ => rfl) taken)
    | fcntlGetfl =>
      simp only [exec] at taken
      exact .inr (call_grip free (fun _ => rfl) taken)
    | fcntlSetfl flags =>
      simp only [exec] at taken
      exact .inr (call_grip free (fun _ => rfl) taken)
    | getsockoptError =>
      simp only [exec] at taken
      exact .inr (call_grip free (fun _ => rfl) taken)

/-! ### The interface of a socket -/

def F_GETFL : Int := 3
def F_SETFL : Int := 4
def SOL_SOCKET : Int := 1
def SO_ERROR : Int := 4

/- `_socket` as far as the socket it makes: `alloc_socket`, `inet_create`, and the lock around reading the
   descriptor. -/
def socketCreate : Conn := socketRelease (socketRdAcquire {})

def fcntl (s : Conn) (cmd : Int) (arg : UInt32) : Conn × Int :=
  if cmd = F_GETFL then (s, s.sock.flags.toNat)
  else if cmd = F_SETFL then ({ s with sock.flags := arg }, 0)
  else (s, -1)

/- With what it stores at `optval`. -/
def getsockopt (s : Conn) (level optname : Int) : Int × Option Int :=
  if level = SOL_SOCKET then
    if optname = SO_ERROR then (0, some s.tsk.err) else (-ENOPROTOOPT, none)
  else (-EINVAL, none)

/- AF_INET is 2; port and address in host order. -/
def inetGetpeername (s : Conn) : Int × SockAddr := (0, ⟨2, 16, s.tsk.dport, s.tsk.daddr⟩)

def inetGetsockname (s : Conn) : Int × SockAddr := (0, ⟨2, 16, s.tsk.sport, s.tsk.saddr⟩)

/- The events of a connection and the calls that are none of them. -/
inductive SocketCall where
  | event (e : Event)
  | fcntl (cmd : Int) (arg : UInt32)
  | getsockopt (level optname : Int)
  | getpeername
  | getsockname
  deriving DecidableEq, Repr

inductive SocketReply where
  | event (r : Reply)
  | ret (rc : Int)
  | option (rc : Int) (value : Option Int)
  | name (rc : Int) (addr : SockAddr)
  deriving DecidableEq, Repr

/- `get_socket`, the lock, the operation, the release. -/
def withSocket (s : Conn) (f : Conn → Conn × SocketReply) : Option (Conn × SocketReply) :=
  if s.sock.registered then
    let q := f (socketWrAcquire s)
    some (socketRelease q.1, q.2)
  else none

def socketExec (s : Conn) : SocketCall → Option (Conn × SocketReply)
  | .event e => (exec s e).map fun q => (q.1, .event q.2)
  | .fcntl cmd arg => withSocket s fun s => let q := fcntl s cmd arg; (q.1, .ret q.2)
  | .getsockopt level optname =>
    withSocket s fun s => let q := getsockopt s level optname; (s, .option q.1 q.2)
  | .getpeername => withSocket s fun s => let q := inetGetpeername s; (s, .name q.1 q.2)
  | .getsockname => withSocket s fun s => let q := inetGetsockname s; (s, .name q.1 q.2)

/- The calls with the arguments that the events stand for. -/
theorem fcntl_event (flags : UInt32) :
    (socketExec s (.fcntl F_GETFL flags)).map (·.1) = (exec s .fcntlGetfl).map (·.1) ∧
      (socketExec s (.fcntl F_SETFL flags)).map (·.1) = (exec s (.fcntlSetfl flags)).map (·.1) ∧
      (socketExec s (.getsockopt SOL_SOCKET SO_ERROR)).map (·.1) = (exec s .getsockoptError).map (·.1) := by
  simp only [socketExec, exec, withSocket, call]
  refine ⟨?_, ?_, ?_⟩ <;> split <;> rfl

/-- Nobody holds the socket but its list, the lock is free, and no thread has taken it twice. -/
def Balanced (s : Conn) : Prop :=
  s.sock.refcnt = 1 ∧ s.sock.locked = false ∧ s.sock.relocked = false

instance (s : Conn) : Decidable (Balanced s) := inferInstanceAs (Decidable (_ ∧ _))

/-- The call is the return of a blocking connect from its wait. -/
def ReturnsBlocking (s : Conn) : SocketCall → Prop
  | .event e => ConnectReturns s e
  | _ => False

instance (s : Conn) (c : SocketCall) : Decidable (ReturnsBlocking s c) := by
  cases c <;> unfold ReturnsBlocking <;> infer_instance

theorem withSocket_grip {f : Conn → Conn × SocketReply} {a : SocketReply} (free : s.sock.locked = false)
    (same : ∀ u, grip (f u).1 = grip u) (taken : withSocket s f = some (t, a)) : grip t = grip s := by
  unfold withSocket at taken
  split at taken
  · obtain ⟨rfl, -⟩ := by simpa using taken
    exact released_grip free (same _)
  · contradiction

theorem fcntl_grip (u : Conn) (cmd : Int) (arg : UInt32) : grip (fcntl u cmd arg).1 = grip u := by
  unfold fcntl
  split
  · rfl
  · split <;> rfl

theorem socketExec_grip {c : SocketCall} {a : SocketReply} (free : s.sock.locked = false)
    (taken : socketExec s c = some (t, a)) : (∃ u, t = socketFree u) ∨
      grip t = if ReturnsBlocking s c then ⟨s.sock.refcnt + 1, false, true, s.sock.skFreed⟩
        else grip s := by
  cases c with
  | event e =>
    obtain ⟨⟨u, r⟩, here, eq⟩ := Option.map_eq_some_iff.mp taken
    obtain ⟨rfl, -⟩ := Prod.mk.inj eq
    exact exec_grip free here
  | fcntl cmd arg =>
    simp only [socketExec] at taken
    exact .inr (withSocket_grip free (fun u => fcntl_grip u cmd arg) taken)
  | getsockopt level optname =>
    simp only [socketExec] at taken
    exact .inr (withSocket_grip free (fun _ => rfl) taken)
  | getpeername =>
    simp only [socketExec] at taken
    exact .inr (withSocket_grip free (fun _ => rfl) taken)
  | getsockname =>
    simp only [socketExec] at taken
    exact .inr (withSocket_grip free (fun _ => rfl) taken)

/- Between two calls nobody has the lock. -/
theorem socketExec_unlocked {c : SocketCall} {a : SocketReply} (free : s.sock.locked = false)
    (taken : socketExec s c = some (t, a)) : t.sock.locked = false := by
  rcases socketExec_grip free taken with ⟨u, rfl⟩ | same
  · rfl
  · split at same
    · exact congrArg Grip.locked same
    · exact (congrArg Grip.locked same).trans free

/-- In every run that does not free the sock, count and lock are in balance exactly until a blocking
    connect has come back from its wait. -/
theorem socket_balance {trace : List (SocketCall × SocketReply)}
    (run : Run socketExec (fun _ _ _ => True) socketCreate trace s) (live : s.sock.skFreed = false) :
    Balanced s ↔ ¬Occurs socketExec ReturnsBlocking socketCreate trace := by
  have state : (Occurs socketExec ReturnsBlocking socketCreate trace → s.sock.relocked = true) ∧
      (¬Occurs socketExec ReturnsBlocking socketCreate trace → Balanced s) := by
    induction run with
    | start => exact ⟨False.elim, fun _ => ⟨rfl, rfl, rfl⟩⟩
    | @next trace s t c a before ok taken ih =>
      have free : s.sock.locked = false := before.invariant_state (P := fun s => s.sock.locked = false) rfl
        fun _ _ _ _ _ free _ taken => socketExec_unlocked free taken
      rw [before.occurs_snoc taken]
      rcases socketExec_grip free taken with ⟨u, rfl⟩ | same
      · obtain ⟨freed, eq⟩ := socketFree_eq u
        rw [eq] at live
        cases live
      · by_cases returns : ReturnsBlocking s c
        · rw [if_pos returns] at same
          exact ⟨fun _ => congrArg Grip.relocked same, fun none => absurd (.inr returns) none⟩
        · rw [if_neg returns] at same
          obtain ⟨refcnt, locked, relocked, skFreed⟩ := Grip.mk.inj same
          obtain ⟨twice, once⟩ := ih (skFreed.symm.trans live)
          unfold Balanced
          rw [refcnt, locked, relocked]
          refine ⟨fun occurs => twice (occurs.resolve_right returns), fun none => ?_⟩
          exact once fun earlier => none (.inl earlier)
  obtain ⟨twice, once⟩ := state
  refine ⟨fun balanced occurs => ?_, once⟩
  have relocked := twice occurs
  rw [balanced.2.2] at relocked
  cases relocked

/- A connect without O_NONBLOCK, answered by a SYN-ACK. -/
def blockingConnect : List SocketCall :=
  [.event (.connect ⟨2, 16, 80, parseIpv4 10 0 0 5⟩ 40001 1000),
    .event (.segment { peerHdr 5000 1001 with syn := true } []), .event .connectWakes]

theorem socket_balance_before_return : ∃ trace s,
    Run socketExec (fun _ _ _ => True) socketCreate trace s ∧ s.tsk.state = .established ∧ Balanced s := by
  obtain ⟨trace, s, run, live, opened, none⟩ : ∃ trace s,
      Run socketExec (fun _ _ _ => True) socketCreate trace s ∧ s.sock.skFreed = false ∧
        s.tsk.state = .established ∧ ¬Occurs socketExec ReturnsBlocking socketCreate trace :=
    Run.exists_of_trace (blockingConnect.take 2)
      (P := fun trace (s : Conn) => s.sock.skFreed = false ∧ s.tsk.state = .established ∧
        ¬Occurs socketExec ReturnsBlocking socketCreate trace) (by decide +kernel)
  exact ⟨trace, s, run, opened, (socket_balance run live).mpr none⟩

theorem connect_keeps_socket : ∃ trace s, Run socketExec (fun _ _ _ => True) socketCreate trace s ∧
    s.sock.skFreed = false ∧ s.sock.refcnt = 2 ∧ s.sock.relocked = true ∧ ¬Balanced s :=
  Run.exists_of_follow blockingConnect
    (P := fun s => s.sock.skFreed = false ∧ s.sock.refcnt = 2 ∧ s.sock.relocked = true ∧ ¬Balanced s)
    (by decide +kernel)

end HfIp
