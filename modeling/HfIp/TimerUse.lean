import HfIp.BackoffEvents

/- What the functions of a connection do to the timer service: they call `timer_add`, `timer_oneshot`,
   `timer_release` and `timer_cancel`, and nothing else. -/
namespace HfIp

section Service

variable {H : Type} {a b c : TimerService H}

/-- `b` comes from `a` by calls of the four functions. -/
inductive TimerUse (a : TimerService H) : TimerService H → Prop where
  | refl : TimerUse a a
  | add {b : TimerService H} (before : TimerUse a b) (expire : UInt32) (handler : H) :
      TimerUse a (timerAdd b expire handler).1
  | oneshot {b : TimerService H} (before : TimerUse a b) (expire : UInt32) (handler : H) :
      TimerUse a (timerOneshot b expire handler)
  | release {b : TimerService H} (before : TimerUse a b) (t : Option Nat) : TimerUse a (timerRelease b t)
  | cancel {b : TimerService H} (before : TimerUse a b) (t : Option Nat) : TimerUse a (timerCancel b t)

theorem TimerUse.trans (first : TimerUse a b) (second : TimerUse b c) : TimerUse a c := by
  induction second with
  | refl => exact first
  | add _ expire handler ih => exact ih.add expire handler
  | oneshot _ expire handler ih => exact ih.oneshot expire handler
  | release _ t ih => exact ih.release t
  | cancel _ t ih => exact ih.cancel t

/-- The timers have numbers given out, each its own. -/
structure TimersNumbered (ts : TimerService H) : Prop where
  below : ∀ x ∈ ts.timers, x.id < ts.next
  distinct : (ts.timers.map Timer.id).Nodup

/-- No call changes when a timer expires, and a new timer has a new number. -/
structure TimersKept (a b : TimerService H) : Prop where
  tick : b.tick = a.tick
  next : a.next ≤ b.next
  old : ∀ x ∈ b.timers, x.id < a.next → ∃ y ∈ a.timers, y.id = x.id ∧ y.expires = x.expires
  numbered : TimersNumbered a → TimersNumbered b

theorem TimersKept.refl (a : TimerService H) : TimersKept a a :=
  ⟨rfl, Nat.le_refl _, fun x member _ => ⟨x, member, rfl, rfl⟩, id⟩

theorem TimersKept.trans (first : TimersKept a b) (second : TimersKept b c) : TimersKept a c where
  tick := second.tick.trans first.tick
  next := Nat.le_trans first.next second.next
  old x member below := by
    obtain ⟨y, inside, id, expires⟩ := second.old x member (Nat.lt_of_lt_of_le below first.next)
    obtain ⟨z, there, id', expires'⟩ := first.old y inside (id ▸ below)
    exact ⟨z, there, id'.trans id, expires'.trans expires⟩
  numbered := second.numbered ∘ first.numbered

theorem TimersKept.append (x : Timer H) (new : x.id = a.next) :
    TimersKept a { a with timers := a.timers ++ [x], next := a.next + 1 } where
  tick := rfl
  next := Nat.le_succ _
  old y member below := by
    rcases List.mem_append.mp member with here | last
    · exact ⟨y, here, rfl, rfl⟩
    · obtain rfl := List.mem_singleton.mp last
      exact absurd new (Nat.ne_of_lt below)
  numbered before := by
    constructor
    · intro y member
      rcases List.mem_append.mp member with here | last
      · exact Nat.lt_succ_of_lt (before.below y here)
      · obtain rfl := List.mem_singleton.mp last
        rw [new]
        exact Nat.lt_succ_self _
    · rw [List.map_append, List.map_singleton, new]
      refine List.nodup_append.mpr ⟨before.distinct, List.nodup_singleton _, ?_⟩
      intro i old j last
      obtain ⟨y, here, rfl⟩ := List.mem_map.mp old
      rw [List.mem_singleton.mp last]
      exact Nat.ne_of_lt (before.below y here)

theorem TimersKept.update (t : Nat) {f : Timer H → Timer H} (id : ∀ x, (f x).id = x.id)
    (expires : ∀ x, (f x).expires = x.expires) : TimersKept a (updateTimer a t f) := by
  have ids : ∀ x : Timer H, (if x.id = t then f x else x).id = x.id := by
    intro x
    split
    · exact id x
    · rfl
  refine ⟨rfl, Nat.le_refl _, fun x member _ => ?_, fun before => ⟨fun x member => ?_, ?_⟩⟩
  · obtain ⟨y, here, rfl⟩ := List.mem_map.mp member
    refine ⟨y, here, (ids y).symm, ?_⟩
    split
    · exact (expires y).symm
    · rfl
  · obtain ⟨y, here, rfl⟩ := List.mem_map.mp member
    rw [ids]
    exact before.below y here
  · have same : (updateTimer a t f).timers.map Timer.id = a.timers.map Timer.id := by
      unfold updateTimer
      rw [List.map_map]
      exact List.map_congr_left fun x _ => ids x
    rw [same]
    exact before.distinct

theorem TimerUse.kept (use : TimerUse a b) : TimersKept a b := by
  induction use with
  | refl => exact .refl a
  | add _ expire handler ih => exact ih.trans (.append _ rfl)
  | oneshot _ expire handler ih => exact ih.trans (.append _ rfl)
  | release _ t ih =>
    cases t with
    | none => exact ih
    | some t => exact ih.trans (.update t (fun _ => rfl) fun _ => rfl)
  | cancel _ t ih =>
    cases t with
    | none => exact ih
    | some t => exact ih.trans (.update t (fun _ => rfl) fun _ => rfl)

end Service

variable {s t : Conn} {a : TimerService Handler}

namespace TimerUse

theorem of_eq (use : TimerUse a s.ts) (same : t.ts = s.ts) : TimerUse a t.ts := by
  rw [same]
  exact use

theorem minor (use : TimerUse a s.ts) (h : Minor s t) : TimerUse a t.ts := use.of_eq h.same.ts

theorem sendAck (use : TimerUse a s.ts) : TimerUse a (tcpSendAck s).ts := use.minor (tcpSendAck_minor s)

/-! ### Ends of the connection -/

theorem clearTimers (use : TimerUse a s.ts) : TimerUse a (tcpClearTimers s).ts :=
  .cancel (.cancel (.cancel (.cancel use _) _) _) _

theorem socketDelete (use : TimerUse a s.ts) : TimerUse a (HfIp.socketDelete s).ts := by
  unfold HfIp.socketDelete
  split
  · exact use
  · exact use.oneshot _ _

theorem done (use : TimerUse a s.ts) : TimerUse a (tcpDone s).ts := by
  have cleared : TimerUse a (tcpClearTimers (setState { s with ended := true } .closing)).ts :=
    clearTimers use
  have queues := cleared.minor (skbQueueFree_minor _ s.tsk.ofoQueue)
  exact socketDelete (s := tcpFree (setState { s with ended := true } .closing)) queues

theorem reset (use : TimerUse a s.ts) : TimerUse a (tcpReset s).ts := by
  unfold tcpReset
  dsimp only
  split
  · exact done use
  · exact done use
  · exact use
  · exact done use

theorem enterTimeWait (use : TimerUse a s.ts) : TimerUse a (tcpEnterTimeWait s).ts :=
  .add (clearTimers (s := setState s .timeWait) use) _ _

theorem rearmUser (use : TimerUse a s.ts) : TimerUse a (tcpRearmUserTimeout s).ts := by
  unfold tcpRearmUserTimeout
  split
  · exact use
  · exact .add (.cancel use _) _ _

theorem free (use : TimerUse a s.ts) : TimerUse a (socketFree s).ts := by
  obtain ⟨_, eq⟩ := socketFree_eq s
  rw [eq]
  exact use

/-! ### Sending -/

theorem rearmRto (use : TimerUse a s.ts) : TimerUse a (tcpRearmRtoTimer s).ts := by
  unfold tcpRearmRtoTimer
  dsimp only
  split
  · exact .add (.release use _) _ _
  · exact .add (.release use _) _ _

theorem queueTransmit (use : TimerUse a s.ts) (skb : SkBuff) :
    TimerUse a (tcpQueueTransmitSkb s skb).ts := by
  have armed : TimerUse a (if skbQueueEmpty s.tsk.writeQueue then tcpRearmRtoTimer s else s).ts := by
    split
    · exact use.rearmRto
    · exact use
  unfold tcpQueueTransmitSkb
  dsimp only
  generalize (if skbQueueEmpty s.tsk.writeQueue then tcpRearmRtoTimer s else s) = t at armed
  split
  · exact armed.of_eq (tcpTransmitSkb_same t skb t.tsk.tcb.sndNxt).ts
  · exact armed

theorem sendNext (use : TimerUse a s.ts) (amount : Nat) : TimerUse a (tcpSendNext s amount).ts := by
  obtain ⟨_, _, _, same⟩ := tcpSendNext_touches s amount
  exact use.of_eq same.ts

theorem sendLoop (mss fuel : Nat) (buf : List UInt8) (use : TimerUse a s.ts) :
    TimerUse a (tcpSendLoop mss fuel s buf).ts := by
  induction fuel generalizing s buf with
  | zero => exact use
  | succ fuel ih =>
    rw [tcpSendLoop]
    split
    · exact use
    · exact ih _ (queueTransmit (s := (tcpAllocSkb s 0 (buf.take mss)).1) use _)

theorem write (use : TimerUse a s.ts) (buf : List UInt8) : TimerUse a (tcpWrite s buf).1.ts := by
  have sent : TimerUse a (tcpSend s buf).ts :=
    (sendLoop (s := { s with accepted := s.accepted ++ buf }) _ _ _ use).rearmUser
  unfold tcpWrite
  split
  · exact use
  · split
    · exact sent
    · exact sent
    · exact use

theorem queueFin (use : TimerUse a s.ts) : TimerUse a (tcpQueueFin s).ts :=
  queueTransmit (s := (tcpAllocSkb { s with fins := s.fins + 1 } 0 []).1) use _

theorem close (use : TimerUse a s.ts) : TimerUse a (tcpClose s).1.ts := by
  unfold tcpClose
  split
  iterate 6 exact use
  iterate 3 exact use.done
  · exact queueFin (s := setState s .finWait1) use
  · exact use.queueFin

theorem abort (use : TimerUse a s.ts) : TimerUse a (tcpAbort s).ts :=
  (use.of_eq (tcpSendReset_minor s).same.ts).done

theorem connect (use : TimerUse a s.ts) (addr : SockAddr) (port : UInt16) (iss : UInt32) :
    TimerUse a (tcpV4Connect s addr port iss).ts := by
  unfold tcpV4Connect tcpConnect tcpSendSyn
  dsimp only
  split
  · exact use
  · refine queueTransmit ?_ _
    exact use

/-! ### Timers -/

theorem retransmitHead (use : TimerUse a s.ts) (skb : SkBuff) :
    TimerUse a (HfIp.retransmitHead s skb).ts := by
  obtain ⟨_, same⟩ := retransmitHead_touches s skb
  exact use.of_eq same.ts

theorem connectRto (use : TimerUse a s.ts) : TimerUse a (tcpConnectRto s).ts := by
  have released : TimerUse a (tcpReleaseRtoTimer s).ts := .release use _
  unfold tcpConnectRto
  generalize tcpReleaseRtoTimer s = t at released
  dsimp only
  split
  · split
    · exact done (s := retransmissionFailed t) released
    · split
      · exact released
      · rename_i k _
        exact rearmRto (s := { HfIp.retransmitHead t k with
          tsk.backoff := (HfIp.retransmitHead t k).tsk.backoff + 1 }) (released.retransmitHead k)
  · exact released

theorem retransmission (use : TimerUse a s.ts) : TimerUse a (tcpRetransmissionTimeout s).ts := by
  have released : TimerUse a (tcpReleaseRtoTimer s).ts := .release use _
  unfold tcpRetransmissionTimeout
  generalize tcpReleaseRtoTimer s = t at released
  dsimp only
  split
  · exact minor (s := { t with tsk.backoff := 0 }) released (tcpNotifyUser_minor _)
  · rename_i k _
    have resent := released.retransmitHead k
    split
    · exact resent.done
    · have backed := resent.add ((HfIp.retransmitHead t k).tsk.rto * 2) .tcpRetransmissionTimeout
      split
      · unfold tcpHandleFinState
        split
        · exact backed
        · exact backed
        · exact backed
      · exact backed

theorem handler (use : TimerUse a s.ts) (h : Handler) : TimerUse a (runHandler s h).ts := by
  cases h with
  | tcpConnectRto => exact connectRto (s := socketWrAcquire s) use
  | tcpRetransmissionTimeout => exact retransmission (s := socketWrAcquire s) use
  | tcpSendDelack =>
    exact sendAck (s := tcpReleaseDelackTimer { socketWrAcquire s with tsk.delacks := 0 })
      (.release use _)
  | tcpLinger => exact done (s := stopLinger (socketWrAcquire s)) (.cancel use _)
  | tcpUserTimeout => exact abort (s := stopLinger (socketWrAcquire s)) (.cancel use _)
  | socketGarbageCollect =>
    unfold runHandler socketGarbageCollect
    dsimp only
    split
    · exact use.free
    · exact use

/-! ### Reads -/

theorem receiveReturn (use : TimerUse a s.ts) (rlen : Int) :
    TimerUse a (HfIp.receiveReturn s rlen).1.ts := by
  unfold HfIp.receiveReturn
  dsimp only
  split
  · exact use.rearmUser
  · exact use

theorem dequeue (use : TimerUse a s.ts) (userlen : Nat) : TimerUse a (tcpDataDequeue s userlen).1.ts := by
  obtain ⟨freed, flags, eq⟩ := dequeueLoop_touches s userlen s.tsk.receiveQueue
  unfold tcpDataDequeue
  dsimp only
  rw [eq]
  split
  · exact use
  · exact use

theorem receiveLoop (use : TimerUse a s.ts) (len rlen : Nat) :
    TimerUse a (HfIp.receiveLoop s len rlen).1.ts := by
  have dequeued := use.dequeue (len - rlen)
  unfold HfIp.receiveLoop
  dsimp only
  split
  · split
    · exact receiveReturn (s := { (tcpDataDequeue s (len - rlen)).1 with
        tsk.flags := (tcpDataDequeue s (len - rlen)).1.tsk.flags &&& ~~~TCP_PSH }) dequeued _
    · split
      · exact dequeued.receiveReturn _
      · split
        · exact dequeued.receiveReturn _
        · exact dequeued
  · exact use.receiveReturn _

theorem read (use : TimerUse a s.ts) (len : Nat) : TimerUse a (tcpRead s len).1.ts := by
  unfold tcpRead
  split
  · exact use
  · split
    · exact use
    · exact use.receiveLoop len 0
  iterate 3 exact use
  exact use.receiveLoop len 0

/-! ### The receive path -/

theorem cleanRto (use : TimerUse a s.ts) (una : UInt32) : TimerUse a (tcpCleanRtoQueue s una).ts := by
  obtain ⟨freed, cleaned⟩ := cleanLoop_conn una s s.tsk.writeQueue
  unfold tcpCleanRtoQueue
  dsimp only
  rw [cleaned]
  split
  · exact .cancel use _
  · exact use

theorem newAck (use : TimerUse a s.ts) (th : TcpHdr) : TimerUse a (inputNewAck s th).1.ts := by
  rw [inputNewAck_fst]
  split
  · obtain ⟨-, -, _, _, _, eq⟩ := tcpRtt_touches { s with tsk.tcb.sndUna := th.ackSeq }
    rw [eq]
    refine cleanRto ?_ _
    exact use
  · exact use

theorem ack (use : TimerUse a s.ts) (th : TcpHdr) : TimerUse a (inputAck s th).1.ts := by
  unfold inputAck
  split
  · split
    · exact newAck (s := setState s .established) use th
    · exact use
  iterate 6 exact use.newAck th
  exact use

theorem finAcked (use : TimerUse a s.ts) (th : TcpHdr) : TimerUse a (inputFinAcked s th).ts := by
  unfold inputFinAcked
  split
  · split
    · exact use
    · exact use
    · split
      · exact sendAck (s := { s with tsk.flags := s.tsk.flags ||| TCP_FIN }) use
      · exact use
    · exact use
  · exact use

theorem dataQueue (use : TimerUse a s.ts) (skb : SkBuff) : TimerUse a (tcpDataQueue s skb).1.ts := by
  unfold tcpDataQueue
  split
  · exact use.minor (freeSkb_minor s skb)
  · split
    · exact use
    · dsimp only
      refine sendAck ?_
      split
      · exact use
      · exact use

theorem text (use : TimerUse a s.ts) (th : TcpHdr) (skb : SkBuff) :
    TimerUse a (inputText s th skb).1.ts := by
  unfold inputText
  split
  iterate 3 (split; exact use.dataQueue skb; exact use)
  exact use

theorem fin (use : TimerUse a s.ts) : TimerUse a (inputFin s).ts := by
  have acked : TimerUse a (recvNotify (tcpSendAck (pollReadable { s with
      tsk.tcb.rcvNxt := s.tsk.tcb.rcvNxt + 1, tsk.flags := s.tsk.flags ||| TCP_FIN }))).ts :=
    sendAck (s := pollReadable { s with tsk.tcb.rcvNxt := s.tsk.tcb.rcvNxt + 1
                                        tsk.flags := s.tsk.flags ||| TCP_FIN }) use
  unfold inputFin
  dsimp only
  generalize recvNotify (tcpSendAck (pollReadable { s with
    tsk.tcb.rcvNxt := s.tsk.tcb.rcvNxt + 1, tsk.flags := s.tsk.flags ||| TCP_FIN })) = t at acked
  split
  · exact acked
  · exact acked
  · split
    · exact acked.enterTimeWait
    · exact acked
  · exact acked.enterTimeWait
  · exact acked

theorem delack (use : TimerUse a s.ts) (th : TcpHdr) (skb : SkBuff) :
    TimerUse a (inputDelack s th skb).ts := by
  have stopped : TimerUse a (tcpStopDelackTimer s).ts := .cancel use _
  unfold inputDelack
  generalize tcpStopDelackTimer s = t at stopped
  dsimp only
  split
  · refine rearmRto ?_
    exact stopped.sendNext _
  · have counted : TimerUse a (countDelack t (!th.psh && decide (1000 < skb.dlen))).ts := by
      unfold countDelack
      split
      · exact stopped
      · exact stopped
    split
    · refine sendAck ?_
      exact counted
    · split
      · exact counted.add _ _
      · exact counted

theorem tail (use : TimerUse a s.ts) (th : TcpHdr) (skb : SkBuff) : TimerUse a (inputTail s th skb).ts := by
  have finished : TimerUse a (inputTextFin (inputText s th skb).1 th
      (decide (skb.seq = s.tsk.tcb.rcvNxt))).ts := by
    unfold inputTextFin
    split
    · exact (use.text th skb).fin
    · exact use.text th skb
  unfold inputTail inputExpected
  dsimp only
  rw [freeSkb_ts]
  split
  iterate 3
    split
    · exact finished.delack th skb
    · exact finished
  exact finished

theorem otherwise (use : TimerUse a s.ts) (th : TcpHdr) (skb : SkBuff) :
    TimerUse a (inputOtherwise s th skb).ts := by
  refine inputOtherwise_cases (motive := fun u => TimerUse a u.ts) s th skb ?_ ?_ ?_ ?_ ?_ ?_
  · intro _
    rw [freeSkb_ts]
    split
    · exact use
    · exact use.sendAck
  · intro _ _
    exact enterTimeWait (use.minor (freeSkb_minor s skb))
  · intro _ _ _
    exact use.minor (freeSkb_minor s skb)
  · intro _ _ _ _ _
    exact (use.ack th).minor (freeSkb_minor _ skb)
  · intro _ _ _ _ _ _ _
    exact ((use.ack th).minor (freeSkb_minor _ skb)).done
  · intro _ _ _ _ _ _
    exact ((use.ack th).finAcked th).tail th skb

theorem syn (use : TimerUse a s.ts) (th : TcpHdr) : TimerUse a (synsentSyn s th).ts := by
  have acked : TimerUse a (synsentAck s th).ts := by
    unfold synsentAck
    dsimp only
    split
    · refine cleanRto ?_ _
      exact use
    · exact use
  unfold synsentSyn
  generalize synsentAck s th = t at acked
  dsimp only
  split
  · unfold synsentEstablish
    dsimp only
    have sent : TimerUse a (tcpRearmUserTimeout (tcpSendAck { setState t .established with
        tsk.tcb.sndUna := (setState t .established).tsk.tcb.sndNxt
        tsk.backoff := 0, tsk.rto := 1000 })).ts := by
      refine rearmUser (sendAck ?_)
      exact acked
    exact sent
  · rw [tcpSendSynack_minor _ (by simp [setState])]
    exact acked

theorem synsent (use : TimerUse a s.ts) (skb : SkBuff) (th : TcpHdr) :
    TimerUse a (tcpSynsent s skb th).ts := by
  have freed : ∀ {u : Conn}, TimerUse a u.ts → TimerUse a (freeSkb u skb).ts :=
    fun used => used.minor (freeSkb_minor _ skb)
  unfold tcpSynsent
  dsimp only
  split
  · exact freed use
  · split
    · exact freed use
    · split
      · exact freed use.reset
      · split
        · exact freed use
        · exact freed (use.syn th)

theorem segment (use : TimerUse a s.ts) (th : TcpHdr) (skb : SkBuff) :
    TimerUse a (tcpInputState s th skb).ts := by
  unfold tcpInputState
  split
  · unfold tcpClosed
    split
    · exact use.minor (freeSkb_minor s skb)
    · refine minor ?_ (freeSkb_minor _ skb)
      exact use.of_eq (tcpSendReset_minor s).same.ts
  · exact use.minor (freeSkb_minor s skb)
  · exact use.synsent skb th
  · exact use.otherwise th skb

end TimerUse

/-- An event other than a tick does no more to the timers; a handler's thread is taken off first. -/
theorem exec_uses {e : Event} {r : Reply} (still : ∀ busy, e ≠ .tick busy)
    (taken : exec s e = some (t, r)) :
    TimerUse s.ts t.ts ∨ ∃ i, TimerUse (started s i).ts t.ts := by
  by_cases handles : ∃ i, e = .handler i
  · obtain ⟨i, rfl⟩ := handles
    obtain ⟨h, -, -, rfl⟩ := exec_handler_taken taken
    exact .inr ⟨i, TimerUse.refl.handler h.handler⟩
  · refine .inl (exec_pass (P := fun u => TimerUse s.ts u.ts) ?_ .refl taken ?_ ?_ ?_ ?_ ?_ ?_ ?_ ?_ ?_ ?_)
    · intro u v quiet kept
      have same : inner v = inner u := quiet
      have timers : (inner v).ts = (inner u).ts := by rw [same]
      exact kept.of_eq timers
    · exact fun _ u kept => kept.free
    · exact fun busy ticks => absurd ticks (still busy)
    · exact fun i h runs _ _ => absurd ⟨i, runs⟩ handles
    · exact fun buf _ _ kept => kept.write buf
    · exact fun len _ _ kept => kept.read len
    · exact fun i b _ _ _ kept => kept.receiveLoop _ _
    · exact fun _ _ kept => kept.close
    · exact fun _ _ => TimerUse.refl.abort
    · exact fun addr port iss _ _ _ kept => kept.connect addr port iss
    · exact fun th payload _ _ kept => kept.segment th _

/- Either way the timers there are expire when they did. -/
theorem exec_timersKept {e : Event} {r : Reply} (still : ∀ busy, e ≠ .tick busy)
    (taken : exec s e = some (t, r)) : TimersKept s.ts t.ts := by
  rcases exec_uses still taken with use | ⟨i, use⟩
  · exact use.kept
  · have kept := use.kept
    exact ⟨kept.tick, kept.next, kept.old, fun before => kept.numbered ⟨before.below, before.distinct⟩⟩

end HfIp
