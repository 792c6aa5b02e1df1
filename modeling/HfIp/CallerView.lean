import HfIp.LockBalance
import HfIp.Receive
import HfIp.SegmentRule

/- What a program is told by a connection: what `sk->err` can hold, and which bytes its calls have taken and
   been given. -/
namespace HfIp

variable {s t : Conn} {got given : List UInt8}

/- Zero, or the negative of an error number. -/
def Coded (s : Conn) : Prop := -EINPROGRESS ≤ s.tsk.err ∧ s.tsk.err ≤ 0

/-- With the bytes that reads have got and writes have given. -/
structure Talks (got given : List UInt8) (s : Conn) : Prop where
  coded : Coded s
  delivered : s.delivered = got
  accepted : s.accepted = given

def streams (s : Conn) : List UInt8 × List UInt8 := (s.delivered, s.accepted)

theorem Coded.talks (coded : Coded s) : Talks s.delivered s.accepted s := ⟨coded, rfl, rfl⟩

namespace Talks

theorem set (talks : Talks got given s) (e : Int) (is : t.tsk.err = e) (same : streams t = streams s)
    (within : -EINPROGRESS ≤ e ∧ e ≤ 0) : Talks got given t where
  coded := by
    unfold Coded
    rw [is]
    exact within
  delivered := (congrArg Prod.fst same).trans talks.delivered
  accepted := (congrArg Prod.snd same).trans talks.accepted

theorem eq (talks : Talks got given s) (err : t.tsk.err = s.tsk.err) (same : streams t = streams s) :
    Talks got given t := talks.set s.tsk.err err same talks.coded

theorem of_same (talks : Talks got given s) (same : Same s t) : Talks got given t :=
  talks.eq same.err (congrArg₂ Prod.mk same.delivered same.accepted)

/-! ### Functions that leave all of it alone -/

theorem free (talks : Talks got given s) (k : SkBuff) : Talks got given (freeSkb s k) :=
  talks.of_same (freeSkb_minor s k).same

theorem sendAck (talks : Talks got given s) : Talks got given (tcpSendAck s) :=
  talks.of_same (tcpSendAck_minor s).same

theorem rearmUser (talks : Talks got given s) : Talks got given (tcpRearmUserTimeout s) := by
  unfold tcpRearmUserTimeout
  split
  · exact talks
  · exact talks.eq rfl rfl

theorem rearmRto (talks : Talks got given s) : Talks got given (tcpRearmRtoTimer s) := by
  obtain ⟨_, _, eq⟩ := tcpRearmRtoTimer_touches s
  rw [eq]
  exact talks.eq rfl rfl

theorem queueTransmit (talks : Talks got given s) (k : SkBuff) :
    Talks got given (tcpQueueTransmitSkb s k) := by
  obtain ⟨_, _, _, _, _, _, same⟩ := tcpQueueTransmitSkb_touches s k
  refine of_same ?_ same
  exact talks.eq rfl rfl

theorem sendNext (talks : Talks got given s) (amount : Nat) : Talks got given (tcpSendNext s amount) := by
  obtain ⟨_, _, _, same⟩ := tcpSendNext_touches s amount
  refine of_same ?_ same
  exact talks.eq rfl rfl

theorem retransmitHead (talks : Talks got given s) (k : SkBuff) :
    Talks got given (HfIp.retransmitHead s k) := by
  obtain ⟨_, same⟩ := retransmitHead_touches s k
  refine of_same ?_ same
  exact talks.eq rfl rfl

theorem sendLoop (mss fuel : Nat) (buf : List UInt8) (talks : Talks got given s) :
    Talks got given (tcpSendLoop mss fuel s buf) := by
  induction fuel generalizing s buf with
  | zero => exact talks
  | succ fuel ih =>
    have allocated : Talks got given (tcpAllocSkb s 0 (buf.take mss)).1 := talks.eq rfl rfl
    rw [tcpSendLoop]
    split
    · exact talks
    · exact ih _ (allocated.queueTransmit _)

theorem cleanRto (talks : Talks got given s) (una : UInt32) : Talks got given (tcpCleanRtoQueue s una) := by
  obtain ⟨_, _, _, _, _, eq⟩ := tcpCleanRtoQueue_touches s una
  rw [eq]
  exact talks.eq rfl rfl

theorem dequeue (talks : Talks got given s) (userlen : Nat) :
    Talks (got ++ (tcpDataDequeue s userlen).2) given (tcpDataDequeue s userlen).1 := by
  obtain ⟨freed, rest⟩ := (tcpDataDequeue_spec s userlen).rest
  rw [rest]
  exact ⟨talks.coded, congrArg (· ++ _) talks.delivered, talks.accepted⟩

theorem socketFree (talks : Talks got given s) : Talks got given (HfIp.socketFree s) := by
  obtain ⟨_, eq⟩ := socketFree_eq s
  rw [eq]
  exact talks.eq rfl rfl

theorem sendReset (talks : Talks got given s) : Talks got given (tcpSendReset s) := by
  have moved : Talks got given { (tcpAllocSkb s 0 []).1 with
    tsk.tcb.sndUna := (tcpAllocSkb s 0 []).1.tsk.tcb.sndNxt } := talks.eq rfl rfl
  exact (moved.of_same (tcpTransmitSkb_same _ _ _)).free _

theorem queueFin (talks : Talks got given s) : Talks got given (tcpQueueFin s) := by
  have counted : Talks got given (tcpAllocSkb { s with fins := s.fins + 1 } 0 []).1 := talks.eq rfl rfl
  exact counted.queueTransmit _

theorem done (talks : Talks got given s) : Talks got given (tcpDone s) := by
  obtain ⟨_, eq⟩ := skbQueueFree_eq (tcpClearTimers (setState { s with ended := true } .closing))
    s.tsk.ofoQueue
  unfold tcpDone socketDelete tcpFree tcpClearQueues
  rw [show (tcpClearTimers (setState { s with ended := true } .closing)).tsk.ofoQueue =
    s.tsk.ofoQueue from rfl, eq]
  split
  · exact talks.eq rfl rfl
  · exact talks.eq rfl rfl

theorem v4Connect (talks : Talks got given s) (addr : SockAddr) (port : UInt16) (iss : UInt32) :
    Talks got given (tcpV4Connect s addr port iss) := by
  unfold tcpV4Connect tcpConnect tcpSendSyn
  dsimp only
  split
  · exact talks.eq rfl rfl
  · refine eq (queueTransmit ?_ _) rfl rfl
    exact talks.eq rfl rfl

theorem abort (talks : Talks got given s) : Talks got given (tcpAbort s) := talks.sendReset.done

/-! ### Calls -/

/- A write takes all of its bytes or none. -/
theorem write (talks : Talks got given s) (buf : List UInt8) :
    (Talks got given (tcpWrite s buf).1 ∧ -EINPROGRESS ≤ (tcpWrite s buf).2 ∧ (tcpWrite s buf).2 < 0) ∨
      (Talks got (given ++ buf) (tcpWrite s buf).1 ∧ (tcpWrite s buf).2 = buf.length) := by
  have taken : Talks got (given ++ buf) { s with accepted := s.accepted ++ buf } :=
    ⟨talks.coded, talks.delivered, congrArg (· ++ buf) talks.accepted⟩
  have sent : Talks got (given ++ buf) (tcpSend s buf) := (taken.sendLoop _ _ _).rearmUser
  unfold tcpWrite
  split
  · rename_i err
    exact .inl ⟨talks, talks.coded.1, lt_of_le_of_ne talks.coded.2 err⟩
  · split
    · exact .inr ⟨sent, rfl⟩
    · exact .inr ⟨sent, rfl⟩
    · exact .inl ⟨talks, (by decide : -EINPROGRESS ≤ -EBADF ∧ -EBADF < 0)⟩

theorem close (talks : Talks got given s) : Talks got given (tcpClose s).1 := by
  unfold tcpClose
  split
  iterate 6 exact talks.set (-EBADF) rfl rfl (by decide)
  iterate 3 exact talks.done
  · exact queueFin (talks.eq rfl rfl)
  · exact talks.queueFin

theorem receiveReturn (talks : Talks got given s) (rlen : Int) :
    Talks got given (HfIp.receiveReturn s rlen).1 := by
  unfold HfIp.receiveReturn
  dsimp only
  split
  · exact talks.rearmUser
  · exact talks

theorem connectWait (talks : Talks got given s) : Talks got given (HfIp.connectWait s).1 := by
  unfold HfIp.connectWait
  split
  · exact talks.eq rfl rfl
  · dsimp only
    split
    · exact talks.eq rfl rfl
    · exact talks.eq rfl rfl

theorem streamConnect (talks : Talks got given s) (addr : SockAddr) (port : UInt16) (iss : UInt32) :
    Talks got given (inetStreamConnect s addr port iss).1 := by
  unfold inetStreamConnect
  split
  · exact talks
  · split
    · exact talks
    · split
      · exact talks.set (-EISCONN) rfl rfl (by decide)
      · exact talks.set (-EALREADY) rfl rfl (by decide)
      · split
        · exact talks.set (-EISCONN) rfl rfl (by decide)
        · have dialled : Talks got given (tcpV4Connect { s with tsk.err := -EISCONN } addr port iss) :=
            v4Connect (talks.set (t := { s with tsk.err := -EISCONN }) (-EISCONN) rfl rfl (by decide))
              addr port iss
          dsimp only
          split
          · exact dialled.set (-EINPROGRESS) rfl rfl (by decide)
          · exact connectWait (dialled.set (-EINPROGRESS) rfl rfl (by decide))
      · exact talks.set (-EINVAL) rfl rfl (by decide)

theorem connectReturn (q : Conn × Option Int) (talks : Talks got given q.1) :
    Talks got given (HfIp.connectReturn q).1 := by
  obtain ⟨u, _ | rc⟩ := q
  · exact talks
  · unfold HfIp.connectReturn
    dsimp only
    split
    · exact socketFree (talks.eq rfl rfl)
    · exact talks.eq rfl rfl

theorem readReturn (len : Nat) (q : Conn × Received) (talks : Talks got given q.1) :
    Talks got given (HfIp.readReturn len q).1 := by
  obtain ⟨u, rc | rlen⟩ := q <;> exact talks.eq rfl rfl

/-! ### Handlers -/

theorem connectRto (talks : Talks got given s) : Talks got given (tcpConnectRto s) := by
  have released : Talks got given (tcpReleaseRtoTimer s) := talks.eq rfl rfl
  unfold tcpConnectRto
  generalize tcpReleaseRtoTimer s = t at released
  dsimp only
  split
  · split
    · exact done (Talks.set (t := retransmissionFailed t) released (-ETIMEDOUT) rfl rfl (by decide))
    · split
      · exact released
      · exact rearmRto ((released.retransmitHead _).eq rfl rfl)
  · exact released

theorem retransmission (talks : Talks got given s) : Talks got given (tcpRetransmissionTimeout s) := by
  have released : Talks got given (tcpReleaseRtoTimer s) := talks.eq rfl rfl
  unfold tcpRetransmissionTimeout
  generalize tcpReleaseRtoTimer s = t at released
  dsimp only
  split
  · exact of_same (s := { t with tsk.backoff := 0 }) (released.eq rfl rfl) (tcpNotifyUser_minor _).same
  · rename_i k head
    have resent := released.retransmitHead k
    split
    · exact resent.done.set (-ETIMEDOUT) rfl rfl (by decide)
    · have backed : Talks got given (retransmissionBackoff (HfIp.retransmitHead t k)) := resent.eq rfl rfl
      split
      · unfold tcpHandleFinState
        split
        · exact backed.eq rfl rfl
        · exact backed.eq rfl rfl
        · exact backed
      · exact backed

theorem handler (talks : Talks got given s) (h : Handler) : Talks got given (runHandler s h) := by
  have locked : Talks got given (socketWrAcquire s) := talks.eq rfl rfl
  have release : ∀ {u : Conn}, Talks got given u → Talks got given (socketRelease u) :=
    fun kept => kept.eq rfl rfl
  cases h with
  | tcpConnectRto => exact release locked.connectRto
  | tcpRetransmissionTimeout => exact release locked.retransmission
  | tcpSendDelack =>
    have stopped : Talks got given (tcpReleaseDelackTimer { socketWrAcquire s with tsk.delacks := 0 }) :=
      talks.eq rfl rfl
    exact release stopped.sendAck
  | tcpLinger =>
    have stopped : Talks got given (stopLinger (socketWrAcquire s)) := talks.eq rfl rfl
    exact release stopped.done
  | tcpUserTimeout =>
    have stopped : Talks got given (stopLinger (socketWrAcquire s)) := talks.eq rfl rfl
    exact release stopped.abort
  | socketGarbageCollect =>
    unfold runHandler socketGarbageCollect
    dsimp only
    split
    · exact talks.socketFree
    · exact talks

/-! ### Segments -/

theorem reset (talks : Talks got given s) : Talks got given (tcpReset s) := by
  unfold tcpReset
  dsimp only
  split
  · refine done ?_
    exact talks.set (-ECONNREFUSED) rfl rfl (by decide)
  · refine done ?_
    exact talks.set (-EPIPE) rfl rfl (by decide)
  · exact talks.eq rfl rfl
  · refine done ?_
    exact talks.set (-ECONNRESET) rfl rfl (by decide)

theorem newAck (talks : Talks got given s) (th : TcpHdr) : Talks got given (inputNewAck s th).1 := by
  rw [inputNewAck_fst]
  split
  · refine cleanRto ?_ _
    unfold tcpRtt
    dsimp only
    split
    · exact talks.eq rfl rfl
    · split
      · exact talks.eq rfl rfl
      · split
        · exact talks.eq rfl rfl
        · exact talks.eq rfl rfl
  · exact talks

theorem ack (talks : Talks got given s) (th : TcpHdr) : Talks got given (inputAck s th).1 := by
  unfold inputAck
  split
  · split
    · exact newAck (talks.eq (t := setState s .established) rfl rfl) th
    · exact talks
  iterate 6 exact talks.newAck th
  exact talks

theorem finAcked (talks : Talks got given s) (th : TcpHdr) : Talks got given (inputFinAcked s th) := by
  unfold inputFinAcked
  split
  · split
    · exact talks.eq rfl rfl
    · exact talks.eq rfl rfl
    · split
      · exact sendAck (talks.eq rfl rfl)
      · exact talks
    · exact talks
  · exact talks

/- A connection that opens has no error. -/
theorem establish (talks : Talks got given s) (th : TcpHdr) : Talks got given (synsentEstablish s th) := by
  have acked : Talks got given (tcpRearmUserTimeout (tcpSendAck { setState s .established with
      tsk.tcb.sndUna := s.tsk.tcb.sndNxt, tsk.backoff := 0, tsk.rto := 1000 })) :=
    rearmUser (sendAck (talks.eq rfl rfl))
  exact acked.set 0 rfl rfl (by decide)

theorem syn (talks : Talks got given s) (th : TcpHdr) : Talks got given (synsentSyn s th) := by
  have acked : Talks got given (synsentAck s th) := by
    unfold synsentAck
    dsimp only
    split
    · refine cleanRto ?_ _
      exact talks.eq rfl rfl
    · exact talks.eq rfl rfl
  unfold synsentSyn
  dsimp only
  split
  · exact acked.establish th
  · rw [tcpSendSynack_minor _ (by simp [setState])]
    exact acked.eq rfl rfl

theorem dataQueue (talks : Talks got given s) (k : SkBuff) : Talks got given (tcpDataQueue s k).1 := by
  unfold tcpDataQueue
  split
  · exact talks.free k
  · split
    · exact talks.eq rfl rfl
    · dsimp only
      refine sendAck ?_
      split
      · refine of_same ?_ (tcpCalculateSacks_minor { s with
          tsk.ofoQueue := (tcpDataInsertOrdered s.tsk.ofoQueue k).1 }).same
        exact talks.eq rfl rfl
      · exact talks.eq rfl rfl

theorem text (talks : Talks got given s) (th : TcpHdr) (k : SkBuff) :
    Talks got given (inputText s th k).1 := by
  unfold inputText
  split
  iterate 3
    split
    · exact talks.dataQueue k
    · exact talks
  exact talks

theorem fin (talks : Talks got given s) : Talks got given (inputFin s) := by
  have marked : Talks got given (pollReadable { s with
      tsk.tcb.rcvNxt := s.tsk.tcb.rcvNxt + 1, tsk.flags := s.tsk.flags ||| TCP_FIN }) := talks.eq rfl rfl
  have acked : Talks got given (recvNotify (tcpSendAck (pollReadable { s with
      tsk.tcb.rcvNxt := s.tsk.tcb.rcvNxt + 1, tsk.flags := s.tsk.flags ||| TCP_FIN }))) :=
    marked.sendAck.eq rfl rfl
  unfold inputFin
  dsimp only
  generalize recvNotify (tcpSendAck (pollReadable { s with
    tsk.tcb.rcvNxt := s.tsk.tcb.rcvNxt + 1, tsk.flags := s.tsk.flags ||| TCP_FIN })) = t at acked
  split
  · exact acked.eq rfl rfl
  · exact acked.eq rfl rfl
  · split
    · exact acked.eq rfl rfl
    · exact acked.eq rfl rfl
  · exact acked.eq rfl rfl
  · exact acked

theorem delack (talks : Talks got given s) (th : TcpHdr) (k : SkBuff) :
    Talks got given (inputDelack s th k) := by
  have stopped : Talks got given (tcpStopDelackTimer s) := talks.eq rfl rfl
  unfold inputDelack
  generalize tcpStopDelackTimer s = t at stopped
  dsimp only
  split
  · exact rearmRto ((stopped.sendNext _).eq rfl rfl)
  · have counted : Talks got given (countDelack t (!th.psh && decide (1000 < k.dlen))) := by
      unfold countDelack
      split
      · exact stopped.eq rfl rfl
      · exact stopped
    split
    · exact sendAck (counted.eq rfl rfl)
    · split
      · exact counted.eq rfl rfl
      · exact counted

theorem tail (talks : Talks got given s) (th : TcpHdr) (k : SkBuff) : Talks got given (inputTail s th k) := by
  have taken := talks.text th k
  have finished :
      Talks got given (inputTextFin (inputText s th k).1 th (decide (k.seq = s.tsk.tcb.rcvNxt))) := by
    unfold inputTextFin
    split
    · exact taken.fin
    · exact taken
  unfold inputTail inputExpected
  dsimp only
  refine free ?_ _
  split
  iterate 3
    split
    · exact finished.delack th k
    · exact finished
  exact finished

theorem otherwise (talks : Talks got given s) (th : TcpHdr) (k : SkBuff) :
    Talks got given (inputOtherwise s th k) := by
  refine inputOtherwise_cases s th k ?_ ?_ ?_ ?_ ?_ ?_
  · intro _
    refine free ?_ k
    split
    · exact talks
    · exact talks.sendAck
  · exact fun _ _ => (talks.free k).eq rfl rfl
  · exact fun _ _ _ => talks.free k
  · exact fun _ _ _ _ _ => (talks.ack th).free k
  · exact fun _ _ _ _ _ _ _ => ((talks.ack th).free k).done
  · exact fun _ _ _ _ _ _ => ((talks.ack th).finAcked th).tail th k

theorem segment (talks : Talks got given s) (th : TcpHdr) (k : SkBuff) :
    Talks got given (tcpInputState s th k) := by
  unfold tcpInputState
  split
  · unfold tcpClosed
    split
    · exact talks.free k
    · exact talks.sendReset.free k
  · exact talks.free k
  · exact tcpSynsent_cases (talks.free k) (fun _ _ => talks.reset.free k) fun _ => (talks.syn th).free k
  · exact talks.otherwise th k

end Talks


/-! ### Events -/

/- The events that neither write nor read. -/
def Event.quiet : Event → Bool
  | .write _ | .read _ | .readWakes _ => false
  | _ => true

theorem call_taken {f : Conn → Conn × Int} {r : Reply} (taken : call s f = some (t, r)) :
    t = socketRelease (f (socketWrAcquire s)).1 ∧ r = .ret (f (socketWrAcquire s)).2 := by
  unfold call at taken
  split at taken
  · obtain ⟨rfl, rfl⟩ := by simpa using taken
    exact ⟨rfl, rfl⟩
  · contradiction

theorem call_talks {f : Conn → Conn × Int} {r : Reply} (kept : Talks got given (f (socketWrAcquire s)).1)
    (taken : call s f = some (t, r)) : Talks got given t := by
  obtain ⟨rfl, -⟩ := call_taken taken
  exact kept.eq rfl rfl

theorem exec_talks {e : Event} {r : Reply} (quiet : e.quiet = true) (talks : Talks got given s)
    (taken : exec s e = some (t, r)) : Talks got given t := by
  have locked : Talks got given (socketWrAcquire s) := talks.eq rfl rfl
  cases e with
  | write buf => cases quiet
  | read len => cases quiet
  | readWakes i => cases quiet
  | connect addr port iss =>
    simp only [exec] at taken
    split at taken
    · have done := Talks.connectReturn _ (locked.streamConnect addr port iss)
      rw [Option.some.inj taken] at done
      exact done
    · contradiction
  | connectWakes =>
    simp only [exec, connectWakes] at taken
    split at taken
    · contradiction
    · split at taken
      · have woken : Talks got given (socketWrAcquire { s with
            connecting := false, sock.sleep := waitReturn s.sock.sleep }) := talks.eq rfl rfl
        have done := Talks.connectReturn _ woken.connectWait
        rw [Option.some.inj taken] at done
        exact done
      · contradiction
  | close =>
    simp only [exec] at taken
    exact call_talks locked.close taken
  | abort =>
    simp only [exec] at taken
    split at taken
    · obtain ⟨rfl, -⟩ := by simpa using taken
      exact talks.abort
    · contradiction
  | poll events =>
    simp only [exec] at taken
    exact call_talks locked taken
  | fcntlGetfl =>
    simp only [exec] at taken
    exact call_talks locked taken
  | fcntlSetfl flags =>
    simp only [exec] at taken
    exact call_talks (locked.eq rfl rfl) taken
  | getsockoptError =>
    simp only [exec] at taken
    exact call_talks locked taken
  | segment th payload =>
    simp only [exec] at taken
    split at taken
    · obtain ⟨rfl, -⟩ := by simpa using taken
      have arrived : Talks got given (socketWrAcquire (tcpInitSegment s th payload).1) := talks.eq rfl rfl
      exact (arrived.segment th _).eq rfl rfl
    · contradiction
  | tick busy =>
    simp only [exec] at taken
    obtain ⟨rfl, -⟩ := by simpa using taken
    exact talks.eq rfl rfl
  | handler i =>
    obtain ⟨h, -, -, rfl⟩ := exec_handler_taken taken
    have launched : Talks got given (started s i) := talks.eq rfl rfl
    exact launched.handler h.handler

/-- A write returns an error and leaves the streams alone, or it has given all of its bytes. -/
theorem exec_write {buf : List UInt8} {r : Reply} (talks : Talks got given s)
    (taken : exec s (.write buf) = some (t, r)) : ∃ rc, r = .ret rc ∧
      ((Talks got given t ∧ -EINPROGRESS ≤ rc ∧ rc < 0) ∨
        (Talks got (given ++ buf) t ∧ rc = buf.length)) := by
  have locked : Talks got given (socketWrAcquire s) := talks.eq rfl rfl
  simp only [exec] at taken
  obtain ⟨rfl, rfl⟩ := call_taken taken
  refine ⟨_, rfl, ?_⟩
  rcases locked.write buf with ⟨same, failed⟩ | ⟨more, all⟩
  · exact .inl ⟨same.eq rfl rfl, failed⟩
  · exact .inr ⟨more.eq rfl rfl, all⟩

/-! ### Reads -/

/-- A read that had `had` of `len` bytes gets the bytes `new`, and returns an error when it has none at
    all, or the number of all that it has. -/
structure Told (got given : List UInt8) (len had : Nat) (t : Conn) (rc : Option Int) (new : List UInt8) :
    Prop where
  talks : Talks (got ++ new) given t
  room : had ≤ len → had + new.length ≤ len
  counted : ∀ n ∈ rc, (-EINPROGRESS ≤ n ∧ n < 0 ∧ had + new.length = 0) ∨ n = (had + new.length : Nat)

/- What is returned, when the thread does not go to sleep. -/
def Received.rc : Received → Option Int
  | .done n => some n
  | .asleep _ => none

def Reply.rc : Reply → Option Int
  | .ret n => some n
  | _ => Option.none

theorem Told.none {len had : Nat} {rc : Int} (talks : Talks got given t)
    (counted : (-EINPROGRESS ≤ rc ∧ rc < 0 ∧ had = 0) ∨ rc = (had : Nat)) :
    Told got given len had t (some rc) [] := by
  refine ⟨?_, id, ?_⟩
  · rw [List.append_nil]
    exact talks
  · intro n is
    obtain rfl := Option.some.inj is
    exact counted

theorem receiveLoop_told {len had : Nat} (talks : Talks got given s) :
    ∃ new, Told got given len had (receiveLoop s len had).1 (receiveLoop s len had).2.rc new := by
  by_cases more : had < len
  · have dequeued := talks.dequeue (len - had)
    have few := (tcpDataDequeue_spec s (len - had)).count
    refine ⟨(tcpDataDequeue s (len - had)).2, ?_⟩
    unfold receiveLoop
    rw [if_pos more]
    dsimp only
    generalize tcpDataDequeue s (len - had) = d at dequeued few
    have returns : ∀ {u : Conn} {rc : Int}, Talks (got ++ d.2) given u →
        (-EINPROGRESS ≤ rc ∧ rc < 0 ∧ had + d.2.length = 0) ∨ rc = (had + d.2.length : Nat) →
        Told got given len had (receiveReturn u rc).1 (receiveReturn u rc).2.rc d.2 := by
      intro u rc talks counted
      refine ⟨talks.receiveReturn rc, by omega, ?_⟩
      intro n is
      obtain rfl : rc = n := Option.some.inj is
      exact counted
    split
    · exact returns (dequeued.eq rfl rfl) (.inr rfl)
    · split
      · exact returns dequeued (.inr rfl)
      · split
        · refine returns dequeued ?_
          split
          · rename_i nothing
            exact .inl ⟨by decide, by decide, nothing⟩
          · exact .inr rfl
        · refine ⟨dequeued.eq rfl rfl, by omega, ?_⟩
          intro n is
          cases is
  · rw [receiveLoop_full s len had more]
    exact ⟨[], .none (talks.receiveReturn had) (.inr rfl)⟩

theorem tcpRead_told (talks : Talks got given s) (len : Nat) :
    ∃ new, Told got given len 0 (tcpRead s len).1 (tcpRead s len).2.rc new := by
  refine tcpRead_cases s len ?_ ?_ ?_ ?_
  · intro _
    exact ⟨[], .none talks (.inl (by decide))⟩
  · intro _
    refine ⟨[], .none talks ?_⟩
    rcases Int.lt_or_eq_of_le talks.coded.2 with negative | zero
    · exact .inl ⟨talks.coded.1, negative, rfl⟩
    · exact .inr zero
  · intro _
    exact ⟨[], .none (talks.eq rfl rfl) (.inr rfl)⟩
  · exact fun _ _ => receiveLoop_told talks

theorem Told.returns {len had : Nat} {q : Conn × Received} {new : List UInt8}
    (told : Told got given len had q.1 q.2.rc new) :
    Told got given len had (readReturn len q).1 (readReturn len q).2.rc new := by
  obtain ⟨u, rc | rlen⟩ := q
  · exact ⟨told.talks.eq rfl rfl, told.room, told.counted⟩
  · refine ⟨told.talks.eq rfl rfl, told.room, ?_⟩
    intro n is
    cases is

theorem exec_read {len : Nat} {r : Reply} (talks : Talks got given s) (taken : exec s (.read len) = some (t, r)) :
    ∃ new, Told got given len 0 t r.rc new := by
  have locked : Talks got given (socketWrAcquire s) := talks.eq rfl rfl
  obtain ⟨new, read⟩ := tcpRead_told locked len
  have told := read.returns
  simp only [exec] at taken
  split at taken
  · rw [Option.some.inj taken] at told
    exact ⟨new, told⟩
  · contradiction

theorem exec_readWakes {i : Nat} {b : BlockedRead} {r : Reply} (waits : s.readers[i]? = some b)
    (talks : Talks got given s) (taken : exec s (.readWakes i) = some (t, r)) :
    ∃ new, Told got given b.len b.rlen t r.rc new := by
  simp only [exec, readWakes, waits, Option.map_some] at taken
  split at taken
  · contradiction
  · have resumed : Talks got given (socketWrAcquire { s with
        readers := s.readers.eraseIdx i, tsk.recvWait := waitReturn s.tsk.recvWait }) := talks.eq rfl rfl
    obtain ⟨new, received⟩ : ∃ new, Told got given b.len b.rlen _ _ new := receiveLoop_told resumed
    have told := received.returns
    rw [Option.some.inj taken] at told
    exact ⟨new, told⟩

/-- No event makes `sk->err` anything else. -/
theorem exec_coded {e : Event} {r : Reply} (coded : Coded s) (taken : exec s e = some (t, r)) : Coded t := by
  by_cases quiet : e.quiet = true
  · exact (exec_talks quiet coded.talks taken).coded
  · cases e with
    | write buf =>
      obtain ⟨rc, -, kept | given⟩ := exec_write coded.talks taken
      · exact kept.1.coded
      · exact given.1.coded
    | read len =>
      obtain ⟨new, told⟩ := exec_read coded.talks taken
      exact told.talks.coded
    | readWakes i =>
      cases here : s.readers[i]? with
      | none => simp [exec, readWakes, here] at taken
      | some b =>
        obtain ⟨new, told⟩ := exec_readWakes here coded.talks taken
        exact told.talks.coded
    | _ => exact absurd rfl quiet

end HfIp
