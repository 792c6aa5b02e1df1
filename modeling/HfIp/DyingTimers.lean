import HfIp.AckCoverage
import HfIp.Sleepers
import HfIp.TimerFields

/- What becomes of the timers of a connection after `tcp_done`, up to the freeing of its sock, which
   waits neither for a timer nor for a handler that has been started. -/
namespace HfIp

open Transition

variable {s t u : Conn} {armed : List Slot} {th : TcpHdr} {skb : SkBuff}

/-- No timer of the sock can still fire. -/
def Unarmed (s : Conn) : Prop := ∀ a ∈ alarms s.ts, a.handler.onSock = false

/-- No handler of the sock has been started that has not yet run. -/
def Unstarted (s : Conn) : Prop := ∀ h ∈ s.ts.threads, h.handler.onSock = false

instance (s : Conn) : Decidable (Unarmed s) := inferInstanceAs (Decidable (∀ a ∈ alarms s.ts, _))

instance (s : Conn) : Decidable (Unstarted s) := inferInstanceAs (Decidable (∀ h ∈ s.ts.threads, _))

/-- No field holds a timer. -/
def Cleared (s : Conn) : Prop := ∀ c, s.tsk.slot c = none

instance (s : Conn) : Decidable (Cleared s) :=
  decidable_of_iff (∀ c ∈ allSlots, s.tsk.slot c = none)
    ⟨fun h c => h c (by cases c <;> decide), fun h c _ => h c⟩

/-- The errors on which `_connect` frees the socket. -/
def Fatal (rc : Int) : Prop :=
  rc = -EINVAL ∨ rc = -EAFNOSUPPORT ∨ rc = -ECONNREFUSED ∨ rc = -ETIMEDOUT

instance (rc : Int) : Decidable (Fatal rc) := inferInstanceAs (Decidable (_ ∨ _))

/-- The event frees the sock: a `_connect` that fails, by its address or by the error it finds when it
    wakes, or the garbage collector. -/
def Releases (s : Conn) : Event → Prop
  | .connect addr _ _ => addr.len < 2 ∨ addr.family = AF_UNSPEC ∨ s.sock.state = .free ∨
      s.sock.state = .disconnecting
  | .connectWakes => ¬(s.sock.state = .connecting ∧ s.tsk.err = -EINPROGRESS) ∧ Fatal s.tsk.err
  | .handler i => ∃ h ∈ s.ts.threads[i]?, h.handler = .socketGarbageCollect
  | _ => False

instance (s : Conn) (e : Event) : Decidable (Releases s e) := by
  induction e using Event.casesOn <;> unfold Releases <;> infer_instance

/- The handlers that an event finds waiting for the lock and started no later than itself. -/
def startedBefore (s : Conn) : Event → List (Thread Handler)
  | .handler i => s.ts.threads.take i
  | _ => s.ts.threads

/-- The event is a segment after which what waits in the queue is sent with the retransmission timer
    set anew. -/
def SetsAnew (s : Conn) : Event → Prop
  | .segment th payload => s.tsk.state.synchronizes = true ∧
      Passes (arriving s th payload) th (tcpInitSegment s th payload).2 ∧
      (inputAck (arriving s th payload) th).1.tsk.state.phase = .text ∧
      th.fin = false ∧ th.seq = s.tsk.tcb.rcvNxt ∧ ¬AckNew s th ∧
      s.tsk.inflight = 0 ∧ s.tsk.writeQueue ≠ []
  | _ => False

instance (s : Conn) (e : Event) : Decidable (SetsAnew s e) := by
  induction e using Event.casesOn <;> unfold SetsAnew <;> infer_instance

/-- The event takes a timer that is still running out of its field: a handler that finds the field set
    again since it was started, or a timer set anew over one that runs. -/
def Forgets (s : Conn) (e : Event) : Prop :=
  (SetsAnew s e ∧ Ticking s .retransmit) ∨ match e with
    | .handler i => ∃ h ∈ s.ts.threads[i]?,
        (h.handler.slot = some .retransmit ∧ Ticking s .retransmit) ∨
          (h.handler.slot = some .delack ∧ Ticking s .delack)
    | _ => False

instance (s : Conn) (e : Event) : Decidable (Forgets s e) := by
  unfold Forgets
  induction e using Event.casesOn <;> infer_instance

/-- The thread goes back to the application with a length, after it has been woken. -/
def Hands (s : Conn) (b : BlockedRead) : Prop :=
  s.tsk.flags &&& TCP_PSH ≠ 0 ∨ FinFlag s ∨ s.tsk.receiveQueue.any (·.th.psh) = true ∨
    b.len ≤ b.rlen + (payloads s.tsk.receiveQueue).length ∨
    (s.sock.flags &&& O_NONBLOCK ≠ 0 ∧ 0 < b.rlen + (payloads s.tsk.receiveQueue).length)

instance (s : Conn) (b : BlockedRead) : Decidable (Hands s b) :=
  inferInstanceAs (Decidable (_ ∨ _))

/-- The event sets a timer on a connection that `tcp_done` has run on: an in-window reset, a reader
    that comes back from its sleep, or the retransmission of what is left in the queue. -/
def ArmsLate (s : Conn) : Event → Prop
  | .segment th payload => th.rst = true ∧
      tcpVerifySegment s.tsk th (tcpInitSegment s th payload).2 = true
  | .readWakes i => s.tsk.state ≠ .timeWait ∧ ∃ b ∈ s.readers[i]?, Hands s b
  | .handler i => ∃ h ∈ s.ts.threads[i]?, h.handler = .tcpRetransmissionTimeout ∧
      s.tsk.writeQueue ≠ [] ∧ s.tsk.rto ≤ 60000
  | _ => False

instance (s : Conn) (e : Event) : Decidable (ArmsLate s e) := by
  induction e using Event.casesOn <;> unfold ArmsLate <;> infer_instance

/-- Nothing is left behind for the dead connection: no timer is forgotten, none is set after
    `tcp_done`, a `_connect` that fails on a live connection finds no timers, and whatever frees the
    sock overtakes no handler. -/
structure Settles (s : Conn) (e : Event) : Prop where
  keeps : ¬Forgets s e
  late : Ended s → ¬ArmsLate s e
  cleared : Releases s e → ¬Ended s → Cleared s
  last : Releases s e → ∀ h ∈ startedBefore s e, h.handler.onSock = false

instance (s : Conn) (e : Event) : Decidable (Settles s e) :=
  decidable_of_iff (¬Forgets s e ∧ (Ended s → ¬ArmsLate s e) ∧
    (Releases s e → ¬Ended s → Cleared s) ∧
    (Releases s e → ∀ h ∈ startedBefore s e, h.handler.onSock = false))
    ⟨fun ⟨a, b, c, d⟩ => ⟨a, b, c, d⟩, fun ⟨a, b, c, d⟩ => ⟨a, b, c, d⟩⟩

/-! ### Live connections -/

/- Every running timer of the sock is in a field, and the garbage collector has been set going by
   `tcp_done` only; its threads come after those of the sock. -/
structure Fielded (s : Conn) : Prop where
  owned : Owned s
  orphans : NoOrphans s
  collector : ∀ a ∈ alarms s.ts, a.handler.onSock = false → Ended s
  collectors : ∀ h ∈ s.ts.threads, h.handler.onSock = false → Ended s
  order : s.ts.threads.Pairwise fun a b => a.handler.onSock = false → b.handler.onSock = false

/-- And the sock is there, its retransmission timer runs only while something is queued, and no timer
    of it runs once `tcp_done` has been there. -/
structure Tended (s : Conn) : Prop extends Fielded s where
  live : s.sock.skFreed = false
  idle : s.tsk.writeQueue = [] → ¬Ticking s .retransmit
  gone : Ended s → ∀ c, ¬Ticking s c

theorem Fielded.tidy (h : Fielded s) (tidy : Tidy armed s t) : Fielded t := by
  refine ⟨tidy.frame.owned h.owned, tidy.orphans h.orphans, fun a member gc => ?_, ?_, ?_⟩
  · rcases tidy.collector a member gc with before | ended
    · exact tidy.ended (h.collector a before gc)
    · exact ended
  · rw [tidy.frame.threads]
    exact fun a member gc => tidy.ended (h.collectors a member gc)
  · rw [tidy.frame.threads]
    exact h.order

namespace Tended

/- Timers may be set on a connection that has not ended. -/
theorem arm (h : Tended s) (tidy : Tidy armed s t) (going : ¬Ended t)
    (idle : t.tsk.writeQueue = [] → ¬Ticking t .retransmit) : Tended t :=
  { h.toFielded.tidy tidy with
    live := tidy.freed.trans h.live, idle := idle, gone := fun ended => absurd ended going }

theorem stay (h : Tended s) (tidy : Tidy [] s t) (ended : t.ended = s.ended)
    (queue : t.tsk.writeQueue = s.tsk.writeQueue) : Tended t :=
  { h.toFielded.tidy tidy with
    live := tidy.freed.trans h.live
    idle := fun empty => tidy.idle h.owned (h.idle (queue ▸ empty))
    gone := fun finished c => tidy.idle h.owned (h.gone (ended.symm.trans finished) c) }

/- A timer other than the retransmission timer. -/
theorem armOther (h : Tended s) (tidy : Tidy armed s t) (other : .retransmit ∉ armed)
    (going : ¬Ended t) (queue : t.tsk.writeQueue = s.tsk.writeQueue) : Tended t :=
  h.arm tidy going fun empty ticks => h.idle (queue ▸ empty) (tidy.quiet h.owned _ other ticks)

theorem minor (h : Tended s) (minor : Minor s t) : Tended t :=
  h.stay (.of_minor minor) minor.same.ended minor.same.writeQueue

theorem eq (h : Tended s) (ts : t.ts = s.ts) (slots : t.tsk.slot = s.tsk.slot)
    (ended : t.ended = s.ended) (freed : t.sock.skFreed = s.sock.skFreed)
    (queue : t.tsk.writeQueue = s.tsk.writeQueue) : Tended t :=
  h.stay (.of_eq ts slots ended freed) ended queue

/- `tcp_done` leaves no timer in a field. -/
theorem done (h : Tended s) (tidy : Tidy armed s t) : Tended (tcpDone t) := by
  have ends := tidy.trans (tcpDone_tidy t)
  have none : ∀ c, ¬Ticking (tcpDone t) c := fun c => not_ticking_of_none (tcpDone_slots t c)
  exact { h.toFielded.tidy ends with
    live := ends.freed.trans h.live, idle := fun _ => none _, gone := fun _ => none }

theorem unarmed (h : Tended s) (none : ∀ c, ¬Ticking s c) : Unarmed s := by
  intro a member
  by_contra onSock
  obtain ⟨c, held⟩ := h.orphans a member (by simpa using onSock)
  exact none c ⟨a, member, held⟩

end Tended

/-! ### Handlers -/

theorem tcpSendDelack_tended (h : Tended s) (still : ¬Ticking s .delack) :
    Tended (tcpSendDelack s) := by
  have reset : Tidy [] s { s with tsk.delacks := 0 } := .of_eq rfl rfl rfl rfl
  have released := reset.trans (tcpReleaseDelackTimer_tidy (s := { s with tsk.delacks := 0 }) still)
  exact (h.stay released rfl rfl).minor (tcpSendAck_minor _)

theorem tcpReleaseRtoTimer_tended (h : Tended s) (still : ¬Ticking s .retransmit) :
    Tended (tcpReleaseRtoTimer s) :=
  h.stay (tcpReleaseRtoTimer_tidy still) rfl rfl

theorem retransmitHead_nonempty (s : Conn) (k : SkBuff) :
    (retransmitHead s k).tsk.writeQueue ≠ [] := by
  simp [retransmitHead, setHead]

theorem tcpConnectRto_tended (h : Tended s) (still : ¬Ticking s .retransmit)
    (going : s.tsk.state = .synSent → ¬Ended s) : Tended (tcpConnectRto s) := by
  have released := tcpReleaseRtoTimer_tended h still
  have none : ¬Ticking (tcpReleaseRtoTimer s) .retransmit := not_ticking_of_none rfl
  have going' : (tcpReleaseRtoTimer s).tsk.state = .synSent → ¬Ended (tcpReleaseRtoTimer s) := going
  unfold tcpConnectRto
  generalize tcpReleaseRtoTimer s = u at released none going'
  dsimp only
  split
  · rename_i waiting
    split
    · have failed : Tidy [] u (retransmissionFailed u) := .of_eq rfl rfl rfl rfl
      exact released.done failed
    · split
      · exact released
      · rename_i k _
        have again : Tidy [] u { retransmitHead u k with
            tsk.backoff := (retransmitHead u k).tsk.backoff + 1 } :=
          (retransmitHead_tidy u k).still (.of_eq rfl rfl rfl rfl)
        have set := (tcpRearmRtoTimer_tidy (again.idle released.owned none)).after again
        have ended := (tcpRearmRtoTimer_stays { retransmitHead u k with
          tsk.backoff := (retransmitHead u k).tsk.backoff + 1 }).ended.trans (retransmitHead_stays u k).ended
        refine released.arm set (fun dead => going' waiting (ended.symm.trans dead)) fun empty => ?_
        rw [(tcpRearmRtoTimer_send _).writeQueue] at empty
        exact absurd empty (retransmitHead_nonempty u k)
  · exact released

theorem tcpRetransmissionTimeout_tended (h : Tended s) (still : ¬Ticking s .retransmit)
    (late : Ended s → s.tsk.writeQueue ≠ [] → 60000 < s.tsk.rto) :
    Tended (tcpRetransmissionTimeout s) := by
  have released := tcpReleaseRtoTimer_tended h still
  have none : ¬Ticking (tcpReleaseRtoTimer s) .retransmit := not_ticking_of_none rfl
  have late' : Ended (tcpReleaseRtoTimer s) → (tcpReleaseRtoTimer s).tsk.writeQueue ≠ [] →
      60000 < (tcpReleaseRtoTimer s).tsk.rto := late
  unfold tcpRetransmissionTimeout
  generalize tcpReleaseRtoTimer s = u at released none late'
  dsimp only
  split
  · have forgot : Tended { u with tsk.backoff := 0 } := released.eq rfl rfl rfl rfl rfl
    exact forgot.minor (tcpNotifyUser_minor _)
  · rename_i k head
    have again := retransmitHead_tidy u k
    obtain ⟨_, same⟩ := retransmitHead_touches u k
    have rto : (retransmitHead u k).tsk.rto = u.tsk.rto := same.rto
    split
    · exact (released.done again).eq rfl rfl rfl rfl rfl
    · rename_i young
      have going : ¬Ended u := by
        intro dead
        have some_left : u.tsk.writeQueue ≠ [] := by
          intro empty
          rw [empty] at head
          cases head
        rw [rto] at young
        exact young (late' dead some_left)
      have moved : Tidy [] (retransmitHead u k) { retransmitHead u k with
          tsk.rto := (retransmitHead u k).tsk.rto * 2
          tsk.backoff := (retransmitHead u k).tsk.backoff + 1 } := .of_eq rfl rfl rfl rfl
      have doubled := again.trans moved
      have set := (addRetransmit_tidy (doubled.idle released.owned none)
        ((retransmitHead u k).tsk.rto * 2) .tcpRetransmissionTimeout rfl).after doubled
      have kept : Tended (retransmissionBackoff (retransmitHead u k)) := by
        refine released.arm set (fun dead => going ?_) fun empty => ?_
        · exact (retransmitHead_stays u k).ended.symm.trans dead
        · exact absurd empty (retransmitHead_nonempty u k)
      split
      · have ended : (tcpHandleFinState (retransmissionBackoff (retransmitHead u k))).ended =
            (retransmissionBackoff (retransmitHead u k)).ended := by
          unfold tcpHandleFinState
          split <;> rfl
        have queue : (tcpHandleFinState (retransmissionBackoff (retransmitHead u k))).tsk.writeQueue =
            (retransmissionBackoff (retransmitHead u k)).tsk.writeQueue := by
          unfold tcpHandleFinState
          split <;> rfl
        exact kept.stay (tcpHandleFinState_tidy _) ended queue
      · exact kept

/- What a handler does, when its field has not been set again in the meantime. -/
theorem runHandler_tended {a : Handler} (h : Tended s) (sock : a.onSock = true)
    (gone : Ended s → s.tsk.state.gone) (rto : a.slot = some .retransmit → ¬Ticking s .retransmit)
    (delack : a.slot = some .delack → ¬Ticking s .delack)
    (late : Ended s → a = .tcpRetransmissionTimeout → s.tsk.writeQueue ≠ [] → 60000 < s.tsk.rto) :
    Tended (runHandler s a) := by
  have locked := h.minor (socketWrAcquire_minor s)
  unfold runHandler
  cases a with
  | tcpConnectRto =>
    refine (tcpConnectRto_tended locked (rto rfl) fun waiting dead => ?_).minor (socketRelease_minor _)
    have waiting' : s.tsk.state = .synSent := waiting
    rcases gone dead with closing | timeWait
    · simp [waiting'] at closing
    · simp [waiting'] at timeWait
  | tcpRetransmissionTimeout =>
    exact (tcpRetransmissionTimeout_tended locked (rto rfl) fun dead => late dead rfl).minor
      (socketRelease_minor _)
  | tcpSendDelack => exact (tcpSendDelack_tended locked (delack rfl)).minor (socketRelease_minor _)
  | tcpLinger => exact (locked.done (stopLinger_tidy _)).minor (socketRelease_minor _)
  | tcpUserTimeout =>
    exact (locked.done ((stopLinger_tidy _).trans (tcpSendReset_tidy _))).minor (socketRelease_minor _)
  | socketGarbageCollect => cases sock

/-! ### Calls -/

theorem tcpQueueTransmitSkb_tended (k : SkBuff) (h : Tended s) (going : ¬Ended s) :
    Tended (tcpQueueTransmitSkb s k) := by
  refine h.arm (tcpQueueTransmitSkb_tidy k h.idle) ?_ fun empty => ?_
  · intro dead
    exact going ((tcpQueueTransmitSkb_stays s k).ended.symm.trans dead)
  · have length := congrArg List.length empty
    rw [tcpQueueTransmitSkb_length] at length
    cases length

theorem tcpSendLoop_tended (mss fuel : Nat) (buf : List UInt8) (h : Tended s) (going : ¬Ended s) :
    Tended (tcpSendLoop mss fuel s buf) ∧ ¬Ended (tcpSendLoop mss fuel s buf) := by
  induction fuel generalizing s buf with
  | zero => exact ⟨h, going⟩
  | succ fuel ih =>
    rw [tcpSendLoop]
    split
    · exact ⟨h, going⟩
    · have allocated : Tended (tcpAllocSkb s 0 (buf.take mss)).1 := h.minor (tcpAllocSkb_minor s _ _)
      refine ih _ (tcpQueueTransmitSkb_tended _ allocated going) fun dead => going ?_
      exact (tcpQueueTransmitSkb_stays (tcpAllocSkb s 0 (buf.take mss)).1 _).ended.symm.trans dead

theorem tcpRearmUserTimeout_tended (h : Tended s) (going : ¬Ended s) :
    Tended (tcpRearmUserTimeout s) := by
  refine h.armOther (tcpRearmUserTimeout_tidy s) (by simp) (fun dead => going ?_)
    (tcpRearmUserTimeout_send s).writeQueue
  exact (tcpRearmUserTimeout_stays s).ended.symm.trans dead

theorem tcpWrite_tended (buf : List UInt8) (h : Tended s) (gone : Ended s → s.tsk.state.gone) :
    Tended (tcpWrite s buf).1 := by
  have sends : ¬Ended s → Tended (tcpSend s buf) := by
    intro going
    have taken : Tended { s with accepted := s.accepted ++ buf } := h.eq rfl rfl rfl rfl rfl
    obtain ⟨looped, still⟩ := tcpSendLoop_tended s.tsk.smss.toNat buf.length buf taken going
    exact tcpRearmUserTimeout_tended looped still
  unfold tcpWrite
  split
  · exact h
  · split
    · rename_i at_state
      refine sends fun dead => ?_
      rcases gone dead with closing | timeWait
      · simp [at_state] at closing
      · simp [at_state] at timeWait
    · rename_i at_state
      refine sends fun dead => ?_
      rcases gone dead with closing | timeWait
      · simp [at_state] at closing
      · simp [at_state] at timeWait
    · exact h

theorem tcpQueueFin_tended (h : Tended s) (going : ¬Ended s) : Tended (tcpQueueFin s) := by
  have counted : Tended { s with fins := s.fins + 1 } := h.eq rfl rfl rfl rfl rfl
  have allocated := counted.minor (tcpAllocSkb_minor { s with fins := s.fins + 1 } 0 [])
  exact tcpQueueTransmitSkb_tended _ allocated going

theorem tcpClose_tended (h : Tended s) (gone : Ended s → s.tsk.state.gone) :
    Tended (tcpClose s).1 := by
  unfold tcpClose
  split
  iterate 6 exact h.eq rfl rfl rfl rfl rfl
  iterate 3 exact h.done (.refl s)
  · rename_i at_state
    have moved : Tended (setState s .finWait1) := h.eq rfl rfl rfl rfl rfl
    refine tcpQueueFin_tended moved fun dead => ?_
    rcases gone dead with closing | timeWait
    · simp [at_state] at closing
    · simp [at_state] at timeWait
  · rename_i at_state
    refine tcpQueueFin_tended h fun dead => ?_
    rcases gone dead with closing | timeWait
    · simp [at_state] at closing
    · simp [at_state] at timeWait

theorem tcpV4Connect_tended (addr : SockAddr) (port : UInt16) (iss : UInt32) (h : Tended s)
    (closed : s.tsk.state = .close) (going : ¬Ended s) : Tended (tcpV4Connect s addr port iss) := by
  unfold tcpV4Connect tcpConnect tcpSendSyn
  simp only [closed]
  rw [if_neg (by simp)]
  have numbered : ∀ u : Conn, Tended u →
      Tended { u with tsk.tcb.sndNxt := u.tsk.tcb.sndNxt + 1 } :=
    fun u kept => kept.eq rfl rfl rfl rfl rfl
  refine numbered _ (tcpQueueTransmitSkb_tended _ ?_ going)
  exact h.eq rfl rfl rfl rfl rfl

theorem receiveReturn_tended {rlen : Int} (h : Tended s)
    (late : Ended s → s.tsk.state ≠ .timeWait → rlen < 0) : Tended (receiveReturn s rlen).1 := by
  unfold receiveReturn
  dsimp only
  split
  · rename_i returns
    by_cases dead : Ended s
    · by_cases timed : s.tsk.state = .timeWait
      · unfold tcpRearmUserTimeout
        rw [if_pos timed]
        exact h
      · have := late dead timed
        omega
    · exact tcpRearmUserTimeout_tended h dead
  · exact h

theorem tcpDataDequeue_tended (len : Nat) (h : Tended s) : Tended (tcpDataDequeue s len).1 :=
  h.stay (tcpDataDequeue_tidy s len) (tcpDataDequeue_stays s len).ended
    (tcpDataDequeue_send s len).writeQueue

/- A reader sets the user timeout when it comes back with a length. -/
theorem receiveLoop_tended (len rlen : Nat) (h : Tended s)
    (late : Ended s → s.tsk.state ≠ .timeWait → ¬Hands s ⟨len, rlen⟩) :
    Tended (receiveLoop s len rlen).1 := by
  have dequeued := tcpDataDequeue_tended (len - rlen) h
  have spec := tcpDataDequeue_spec s (len - rlen)
  have stays := tcpDataDequeue_stays s (len - rlen)
  obtain ⟨freed, rest⟩ := spec.rest
  have block : (tcpDataDequeue s (len - rlen)).1.sock.flags = s.sock.flags := by rw [rest]
  unfold receiveLoop
  dsimp only
  by_cases room : rlen < len
  · rw [if_pos room]
    generalize tcpDataDequeue s (len - rlen) = d at dequeued spec stays block
    -- what an ended connection does not come back with
    have quiet : Ended d.1 → d.1.tsk.state ≠ .timeWait → ¬Hands s ⟨len, rlen⟩ := by
      intro dead waits
      rw [stays.state] at waits
      exact late (stays.ended.symm.trans dead) waits
    split
    · rename_i pushed
      refine receiveReturn_tended (dequeued.eq rfl rfl rfl rfl rfl) fun dead waits => ?_
      refine absurd ?_ (quiet dead waits)
      by_cases short : (payloads s.tsk.receiveQueue).length < len - rlen
      · obtain ⟨-, flags⟩ := spec.all short
        by_cases any : s.tsk.receiveQueue.any (·.th.psh) = true
        · exact .inr (.inr (.inl any))
        · rw [if_neg any] at flags
          rw [flags] at pushed
          exact .inl pushed
      · exact .inr (.inr (.inr (.inl (by dsimp only; omega))))
    · split
      · rename_i last
        refine receiveReturn_tended dequeued fun dead waits => ?_
        refine absurd ?_ (quiet dead waits)
        rcases last with fin | full
        · rw [spec.fin] at fin
          exact .inr (.inl fin)
        · have count := spec.count
          exact .inr (.inr (.inr (.inl (by dsimp only; omega))))
      · rename_i more
        split
        · rename_i nonblocking
          refine receiveReturn_tended dequeued fun dead waits => ?_
          split
          · decide
          · rename_i copied
            have count := spec.count
            rw [block] at nonblocking
            exact absurd (.inr (.inr (.inr (.inr ⟨nonblocking, by dsimp only; omega⟩))))
              (quiet dead waits)
        · exact dequeued.eq rfl rfl rfl rfl rfl
  · rw [if_neg room]
    refine receiveReturn_tended h fun dead waits => ?_
    exact absurd (.inr (.inr (.inr (.inl (by dsimp only; omega))))) (late dead waits)

/-! ### Arriving segments -/

/- Cleaning stops the timer when it empties the queue. -/
theorem tcpCleanRtoQueue_tended (una : UInt32) (h : Tended s) : Tended (tcpCleanRtoQueue s una) := by
  have tidy := tcpCleanRtoQueue_tidy s una
  have ended := (tcpCleanRtoQueue_stays s una).ended
  refine { h.toFielded.tidy tidy with
    live := tidy.freed.trans h.live, idle := fun empty => ?_
    gone := fun dead c => tidy.idle h.owned (h.gone (ended.symm.trans dead) c) }
  rw [tcpCleanRtoQueue_queue] at empty
  refine not_ticking_of_none ?_
  unfold tcpCleanRtoQueue
  dsimp only
  rw [cleanLoop_queue, if_pos (.inl empty)]
  rfl

/- And when nothing is left in flight. -/
theorem tcpCleanRtoQueue_still (s : Conn) (una : UInt32)
    (idle : (tcpCleanRtoQueue s una).tsk.inflight = 0) :
    ¬Ticking (tcpCleanRtoQueue s una) .retransmit := by
  rw [tcpCleanRtoQueue_inflight] at idle
  obtain ⟨freed, cleaned⟩ := cleanLoop_conn una s s.tsk.writeQueue
  refine not_ticking_of_none ?_
  unfold tcpCleanRtoQueue
  dsimp only
  rw [cleaned, if_pos (.inr idle)]
  rfl

theorem inputNewAck_tended (th : TcpHdr) (h : Tended s) : Tended (inputNewAck s th).1 := by
  rw [inputNewAck_fst]
  split
  · have moved : Tended { s with tsk.tcb.sndUna := th.ackSeq } := h.eq rfl rfl rfl rfl rfl
    refine tcpCleanRtoQueue_tended _ (moved.stay (tcpRtt_tidy _) (tcpRtt_stays _).ended ?_)
    exact (tcpRtt_send _).writeQueue
  · exact h

theorem inputAck_tended (th : TcpHdr) (h : Tended s) : Tended (inputAck s th).1 := by
  unfold inputAck
  split
  · split
    · have opened : Tended (setState s .established) := h.eq rfl rfl rfl rfl rfl
      exact inputNewAck_tended th opened
    · exact h
  iterate 6 exact inputNewAck_tended th h
  exact h

/- After an ACK that leaves the flight empty the timer runs only when it did so before, with an empty
   flight, and the ACK was an old one. -/
theorem inputAck_still (th : TcpHdr) (valid : (inputAck s th).2 = true)
    (idle : (inputAck s th).1.tsk.inflight = 0) (some_left : (inputAck s th).1.tsk.writeQueue ≠ [])
    (ticks : Ticking (inputAck s th).1 .retransmit) :
    (s.tsk.state.phase = .text ∨ s.tsk.state = .synReceived →
      ¬AckNew s th ∧ s.tsk.inflight = 0 ∧ s.tsk.writeQueue ≠ []) := by
  have newAck : ∀ u : Conn, (inputNewAck u th).1.tsk.inflight = 0 →
      (inputNewAck u th).1.tsk.writeQueue ≠ [] → Ticking (inputNewAck u th).1 .retransmit →
      ¬AckNew u th ∧ u.tsk.inflight = 0 ∧ u.tsk.writeQueue ≠ [] := by
    intro u idle some_left ticks
    rw [inputNewAck_fst] at idle some_left ticks
    by_cases new : AckNew u th
    · rw [if_pos new] at idle ticks
      exact absurd ticks (tcpCleanRtoQueue_still _ _ idle)
    · rw [if_neg new] at idle some_left
      exact ⟨new, idle, some_left⟩
  rintro (text | waiting)
  · have takes : s.tsk.state.takesAck = true := by
      cases at_state : s.tsk.state <;> simp_all [TcpState.phase, TcpState.takesAck]
    rw [inputAck_takes takes] at idle some_left ticks
    exact newAck s idle some_left ticks
  · unfold inputAck at valid idle some_left ticks
    simp only [waiting] at valid idle some_left ticks
    split at valid
    · rename_i window
      rw [if_pos window] at idle some_left ticks
      exact newAck (setState s .established) idle some_left ticks
    · contradiction

theorem inputFinAcked_ended (s : Conn) (th : TcpHdr) : (inputFinAcked s th).ended = s.ended := by
  unfold inputFinAcked
  split
  · split
    · rfl
    · rfl
    · split
      · exact (tcpSendAck_minor _).same.ended
      · rfl
    · rfl
  · rfl

theorem inputFinAcked_tended (th : TcpHdr) (h : Tended s) : Tended (inputFinAcked s th) :=
  h.stay (inputFinAcked_tidy s th) (inputFinAcked_ended s th) (inputFinAcked_send s th).writeQueue

theorem inputText_tended (th : TcpHdr) (skb : SkBuff) (h : Tended s) :
    Tended (inputText s th skb).1 :=
  h.stay (inputText_tidy s th skb) (inputText_stays s th skb).ended
    (inputText_send s th skb).writeQueue

/- The FIN of an ended connection changes nothing but the numbers. -/
theorem inputFin_tended (h : Tended s) (gone : Ended s → s.tsk.state.gone) : Tended (inputFin s) := by
  by_cases dead : Ended s
  · have kept : Tidy [] s (inputFin s) := by
      have taken := finTaken_tidy s
      have state : (recvNotify (tcpSendAck (pollReadable { s with
          tsk.tcb.rcvNxt := s.tsk.tcb.rcvNxt + 1
          tsk.flags := s.tsk.flags ||| TCP_FIN }))).tsk.state = s.tsk.state :=
        (tcpSendAck_minor (pollReadable { s with
          tsk.tcb.rcvNxt := s.tsk.tcb.rcvNxt + 1, tsk.flags := s.tsk.flags ||| TCP_FIN })).same.state
      unfold inputFin
      dsimp only
      generalize recvNotify (tcpSendAck (pollReadable { s with
        tsk.tcb.rcvNxt := s.tsk.tcb.rcvNxt + 1
        tsk.flags := s.tsk.flags ||| TCP_FIN })) = u at taken state
      have last : u.tsk.state.gone := by
        rw [state]
        exact gone dead
      rcases last with closing | timeWait
      · rw [closing]
        exact taken
      · rw [timeWait]
        exact taken
    exact h.stay kept (inputFin_moves s).2 (inputFin_send s).writeQueue
  · refine h.armOther (inputFin_tidy s) (by simp) (fun ended => dead ?_) (inputFin_send s).writeQueue
    exact (inputFin_moves s).2.symm.trans ended

theorem inputDelack_length (s : Conn) (th : TcpHdr) (skb : SkBuff) :
    (inputDelack s th skb).tsk.writeQueue.length = s.tsk.writeQueue.length := by
  unfold inputDelack
  have queue : (tcpStopDelackTimer s).tsk.writeQueue = s.tsk.writeQueue := rfl
  generalize tcpStopDelackTimer s = u at queue
  dsimp only
  split
  · rw [(tcpRearmRtoTimer_send _).writeQueue, ← queue]
    exact sendNextLoop_length (s := u) (min u.tsk.writeQueue.length 3) u.tsk.writeQueue
  · have counted := (countDelack_send (s := u) (!th.psh && decide (1000 < skb.dlen))).writeQueue
    rw [← queue, ← counted]
    split
    · exact congrArg List.length (tcpSendAck_minor _).same.writeQueue
    · split <;> rfl

theorem inputDelack_tended (th : TcpHdr) (skb : SkBuff) (h : Tended s) (going : ¬Ended s)
    (still : s.tsk.inflight = 0 → s.tsk.writeQueue ≠ [] → ¬Ticking s .retransmit) :
    Tended (inputDelack s th skb) := by
  obtain ⟨armed, tidy, only⟩ := inputDelack_tidy th skb h.owned still
  refine h.arm tidy (fun dead => going ?_) fun empty ticks => ?_
  · exact (inputDelack_stays s th skb).ended.symm.trans dead
  · have none : s.tsk.writeQueue = [] := by
      have length := inputDelack_length s th skb
      rw [empty] at length
      exact List.length_eq_zero_iff.mp length.symm
    exact h.idle none (tidy.quiet h.owned _ (fun member => only member none) ticks)

/- What comes after the ACK field; the hypothesis is about the state in which text is taken. -/
theorem inputTail_tended (h : Tended s) (gone : Ended s → s.tsk.state.gone)
    (still : s.tsk.state.phase = .text → th.fin = false → skb.seq = s.tsk.tcb.rcvNxt →
      s.tsk.inflight = 0 → s.tsk.writeQueue ≠ [] → ¬Ticking s .retransmit) :
    Tended (inputTail s th skb) := by
  have text := inputText_tended th skb h
  have tidy := inputText_tidy s th skb
  have send := inputText_send s th skb
  have stays := inputText_stays s th skb
  have gone' : Ended (inputText s th skb).1 → (inputText s th skb).1.tsk.state.gone := by
    intro dead
    rw [stays.state]
    exact gone (stays.ended.symm.trans dead)
  unfold inputTail
  dsimp only
  refine Tended.minor ?_ (freeSkb_minor _ _)
  generalize (inputText s th skb).1 = u at text tidy send stays gone'
  unfold inputTextFin
  by_cases ends : (th.fin && decide (skb.seq = s.tsk.tcb.rcvNxt)) = true
  · rw [if_pos ends]
    have taken := inputFin_tended text gone'
    have moved := (inputFin_moves u).1
    unfold inputExpected
    generalize inputFin u = v at taken moved
    have out : v.tsk.state.phase ≠ .text := by
      rw [moved]
      exact TcpState.afterFin_phase _ _
    split
    iterate 3 (rename_i at_state; rw [at_state] at out; exact absurd rfl out)
    exact taken
  · rw [if_neg ends]
    have delayed : u.tsk.state.phase = .text → skb.seq = s.tsk.tcb.rcvNxt →
        Tended (inputDelack u th skb) := by
      intro here next
      have plain : th.fin = false := by simpa [next] using ends
      have here' : s.tsk.state.phase = .text := by
        rw [← stays.state]
        exact here
      refine inputDelack_tended th skb text (fun dead => ?_) fun idle some_left => ?_
      · rcases gone' dead with closing | timeWait
        · simp [closing, TcpState.phase] at here
        · simp [timeWait, TcpState.phase] at here
      · rw [send.inflight] at idle
        rw [send.writeQueue] at some_left
        exact tidy.idle h.owned (still here' plain next idle some_left)
    unfold inputExpected
    split
    iterate 3
      rename_i at_state
      split
      · rename_i next
        exact delayed (by rw [at_state]; rfl) (by simpa using next)
      · exact text
    exact text

/- A segment in one of the states in which its number is checked. -/
theorem inputOtherwise_tended (h : Tended s) (gone : Ended s → s.tsk.state.gone)
    (here : skb.seq = th.seq)
    (late : Ended s → ¬(th.rst = true ∧ tcpVerifySegment s.tsk th skb = true))
    (still : Passes s th skb → (inputAck s th).1.tsk.state.phase = .text → th.fin = false →
      th.seq = s.tsk.tcb.rcvNxt → ¬AckNew s th → s.tsk.inflight = 0 → s.tsk.writeQueue ≠ [] →
      ¬Ticking s .retransmit) : Tended (inputOtherwise s th skb) := by
  have taken := inputAck_tended th h
  have moves := inputAck_moves s th
  refine inputOtherwise_cases s th skb ?_ ?_ ?_ ?_ ?_ ?_
  · intro _
    split
    · exact h.minor (freeSkb_minor _ _)
    · exact (h.minor (tcpSendAck_minor _)).minor (freeSkb_minor _ _)
  · intro verified rst
    have dropped := h.minor (freeSkb_minor s skb)
    have going : ¬Ended (freeSkb s skb) := by
      intro dead
      exact late ((freeSkb_minor s skb).same.ended.symm.trans dead) ⟨rst, verified⟩
    refine Tended.minor ?_ (recvNotify_minor _)
    exact dropped.armOther (tcpEnterTimeWait_tidy _) (by simp) going rfl
  · intro _ _ _
    exact h.minor (freeSkb_minor _ _)
  · intro _ _ _ _ _
    exact taken.minor (freeSkb_minor _ _)
  · intro _ _ _ _ _ _ _
    exact taken.done (.of_minor (freeSkb_minor _ _))
  · intro verified rst syn ack valid queued
    have passes : Passes s th skb := ⟨verified, rst, syn, ack, valid, queued⟩
    have acked := inputFinAcked_tended th taken
    have tidy := inputFinAcked_tidy (inputAck s th).1 th
    have send := inputFinAcked_send (inputAck s th).1 th
    have phase : (inputFinAcked (inputAck s th).1 th).tsk.state.phase =
        (inputAck s th).1.tsk.state.phase := inputFinAcked_phase
    have next : (inputFinAcked (inputAck s th).1 th).tsk.tcb.rcvNxt = s.tsk.tcb.rcvNxt :=
      inputFinAcked_rcvNxt.trans (inputAck_rcvNxt s th)
    refine inputTail_tended acked (fun dead => ?_) fun text plain expected idle some_left ticks => ?_
    · have before : Ended s := (inputFinAcked_ended _ th).symm.trans dead |> moves.2.symm.trans
      have last : (inputAck s th).1.tsk.state.gone := by
        rcases moves.1 with same | ⟨waiting, -⟩
        · rw [same]
          exact gone before
        · rcases gone before with closing | timeWait
          · simp [waiting] at closing
          · simp [waiting] at timeWait
      unfold inputFinAcked
      split
      · split
        · rename_i at_state
          rcases last with closing | timeWait
          · simp [at_state] at closing
          · simp [at_state] at timeWait
        · exact .inr rfl
        · rename_i at_state
          split
          · exact .inr ((tcpSendAck_minor _).same.state.trans at_state)
          · exact last
        · exact last
      · exact last
    · rw [phase] at text
      rw [send.inflight] at idle
      rw [send.writeQueue] at some_left
      rw [here, next] at expected
      have earlier := tidy.quiet taken.owned _ (by simp) ticks
      have came : s.tsk.state.phase = .text ∨ s.tsk.state = .synReceived := by
        rcases moves.1 with same | ⟨waiting, -⟩
        · rw [same] at text
          exact .inl text
        · exact .inr waiting
      obtain ⟨old, idle', some_left'⟩ := inputAck_still th valid idle some_left earlier came
      exact still passes text plain expected old idle' some_left'
        ((inputAck_tidy s th).quiet h.owned _ (by simp) earlier)

theorem synsentAck_tended (th : TcpHdr) (h : Tended s) : Tended (synsentAck s th) := by
  unfold synsentAck
  dsimp only
  split
  · exact tcpCleanRtoQueue_tended _ (h.eq rfl rfl rfl rfl rfl)
  · exact h.eq rfl rfl rfl rfl rfl

theorem synsentEstablish_tended (th : TcpHdr) (h : Tended s) (going : ¬Ended s) :
    Tended (synsentEstablish s th) := by
  have opened : Tended { setState s .established with
      tsk.tcb.sndUna := s.tsk.tcb.sndNxt, tsk.state := .established
      tsk.backoff := 0, tsk.rto := 1000 } := h.eq rfl rfl rfl rfl rfl
  have acked := opened.minor (tcpSendAck_minor _)
  have still := (tcpSendAck_minor { setState s .established with
    tsk.tcb.sndUna := s.tsk.tcb.sndNxt, tsk.state := .established
    tsk.backoff := 0, tsk.rto := 1000 }).same.ended
  have set := tcpRearmUserTimeout_tended acked fun dead => going (still.symm.trans dead)
  have parsed : ∀ u : Conn, Tended u → Tended (sockConnected { u with tsk := tcpParseOpts u.tsk th }) := by
    intro u kept
    have sized : Tended { u with tsk.smss := (tcpParseOpts u.tsk th).smss } :=
      kept.eq rfl rfl rfl rfl rfl
    have done := sized.minor (tcpParseOpts_minor u th)
    generalize tcpParseOpts u.tsk th = tsk at done
    exact done.eq rfl rfl rfl rfl rfl
  exact parsed _ set

theorem synsentSyn_tended (th : TcpHdr) (h : Tended s) (going : ¬Ended s) :
    Tended (synsentSyn s th) := by
  have taken := synsentAck_tended th h
  have ended : (synsentAck s th).ended = s.ended := by
    unfold synsentAck
    dsimp only
    split
    · exact (tcpCleanRtoQueue_stays _ _).ended
    · rfl
  unfold synsentSyn
  dsimp only
  split
  · exact synsentEstablish_tended th taken fun dead => going (ended.symm.trans dead)
  · rw [tcpSendSynack_minor _ (by simp [setState])]
    exact taken.eq rfl rfl rfl rfl rfl

theorem tcpReset_tended (h : Tended s) : Tended (tcpReset s) := by
  unfold tcpReset
  dsimp only
  split
  · exact h.done (.of_eq rfl rfl rfl rfl)
  · exact h.done (.of_eq rfl rfl rfl rfl)
  · exact h.eq rfl rfl rfl rfl rfl
  · exact h.done (.of_eq rfl rfl rfl rfl)

theorem tcpSynsent_tended (th : TcpHdr) (skb : SkBuff) (h : Tended s) (going : ¬Ended s) :
    Tended (tcpSynsent s skb th) := by
  unfold tcpSynsent
  dsimp only
  split
  · exact h.minor (freeSkb_minor _ _)
  · split
    · exact h.minor (freeSkb_minor _ _)
    · split
      · exact (tcpReset_tended h).minor (freeSkb_minor _ _)
      · split
        · exact h.minor (freeSkb_minor _ _)
        · exact (synsentSyn_tended th h going).minor (freeSkb_minor _ _)

theorem tcpClosed_tended (th : TcpHdr) (skb : SkBuff) (h : Tended s) :
    Tended (tcpClosed s skb th) := by
  have reset : Tended (tcpSendReset s) :=
    h.stay (tcpSendReset_tidy s) (tcpSendReset_stays s).ended tcpSendReset_queue.queue
  unfold tcpClosed
  split
  · exact h.minor (freeSkb_minor _ _)
  · exact reset.minor (freeSkb_minor _ _)

theorem tcpInputState_tended (h : Tended s) (gone : Ended s → s.tsk.state.gone)
    (here : skb.seq = th.seq)
    (late : Ended s → ¬(th.rst = true ∧ tcpVerifySegment s.tsk th skb = true))
    (still : s.tsk.state.synchronizes = true → Passes s th skb →
      (inputAck s th).1.tsk.state.phase = .text → th.fin = false → th.seq = s.tsk.tcb.rcvNxt →
      ¬AckNew s th → s.tsk.inflight = 0 → s.tsk.writeQueue ≠ [] → ¬Ticking s .retransmit) :
    Tended (tcpInputState s th skb) := by
  by_cases checked : s.tsk.state.synchronizes = true
  · rw [tcpInputState_otherwise checked]
    exact inputOtherwise_tended h gone here late (still checked)
  · have going : ¬Ended s := by
      intro dead
      rcases gone dead with closing | timeWait
      · simp [closing, TcpState.synchronizes] at checked
      · simp [timeWait, TcpState.synchronizes] at checked
    unfold tcpInputState
    split
    · exact tcpClosed_tended th skb h
    · exact h.minor (freeSkb_minor _ _)
    · exact tcpSynsent_tended th skb h going
    · cases at_state : s.tsk.state <;> simp_all [TcpState.synchronizes]

/-! ### The freeing of the sock -/

/-- The sock is gone, and nothing that could still run has it as its argument. -/
structure Buried (s : Conn) : Prop where
  freed : s.sock.skFreed = true
  closed : s.sock.registered = false
  unarmed : Unarmed s
  unstarted : Unstarted s

theorem Tended.idle_frame (h : Tended s) (idle : Idle s t) : Tended t := by
  have ts : t.ts = s.ts := congrArg (·.ts) idle
  have slots : t.tsk.slot = s.tsk.slot := by
    funext c
    cases c
    · exact congrArg (·.tsk.retransmit) idle
    · exact congrArg (·.tsk.delack) idle
    · exact congrArg (·.tsk.keepalive) idle
    · exact congrArg (·.tsk.linger) idle
  exact h.eq ts slots (congrArg (·.ended) idle) (congrArg (·.sock.skFreed) idle)
    (congrArg (·.tsk.writeQueue) idle)

theorem socketFree_buried (unarmed : Unarmed s) (unstarted : Unstarted s) : Buried (socketFree s) := by
  obtain ⟨freed, eq⟩ := socketFree_eq s
  rw [eq]
  exact ⟨rfl, rfl, unarmed, unstarted⟩

/- How `_connect` ends. -/
theorem connectReturn_cases (q : Conn × Option Int) :
    (∃ rc, q.2 = some rc ∧ Fatal rc ∧ (connectReturn q).1 = socketFree (socketRelease q.1)) ∨
      Idle q.1 (connectReturn q).1 := by
  obtain ⟨u, _ | rc⟩ := q
  · exact .inr rfl
  · unfold connectReturn
    dsimp only
    by_cases fatal : Fatal rc
    · have fatal' := fatal
      unfold Fatal at fatal'
      rw [if_pos fatal']
      exact .inl ⟨rc, rfl, fatal, rfl⟩
    · have fatal' := fatal
      unfold Fatal at fatal'
      rw [if_neg fatal']
      exact .inr rfl

theorem connectWait_fatal {rc : Int} (ended : (connectWait s).2 = some rc) (fatal : Fatal rc) :
    ¬(s.sock.state = .connecting ∧ s.tsk.err = -EINPROGRESS) ∧ Fatal s.tsk.err := by
  unfold connectWait at ended
  split at ended
  · cases ended
  · rename_i goes
    dsimp only at ended
    split at ended
    · obtain rfl := Option.some.inj ended
      exact ⟨goes, fatal⟩
    · obtain rfl := Option.some.inj ended
      exact absurd fatal (by decide)

/- The ways a call of `connect` can go: it dials, or leaves the connection alone and fails by its
   address or by the state of the socket. -/
theorem inetStreamConnect_cases (s : Conn) (addr : SockAddr) (port : UInt16) (iss : UInt32) :
    (Idle s (inetStreamConnect s addr port iss).1 ∧
      ∀ rc, (inetStreamConnect s addr port iss).2 = some rc → Fatal rc →
        Releases s (.connect addr port iss)) ∨
    (s.tsk.state = .close ∧ Idle (tcpV4Connect { s with tsk.err := -EISCONN } addr port iss)
      (inetStreamConnect s addr port iss).1 ∧
      ∀ rc, (inetStreamConnect s addr port iss).2 = some rc → ¬Fatal rc) := by
  have harmless : ∀ u : Conn, ∀ e : Int, ¬Fatal e → Idle s u →
      (Idle s u ∧ ∀ rc, some e = some rc → Fatal rc → Releases s (.connect addr port iss)) := by
    intro u e not_fatal idle
    refine ⟨idle, fun rc same fatal => ?_⟩
    obtain rfl := Option.some.inj same
    exact absurd fatal not_fatal
  unfold inetStreamConnect
  split
  · rename_i short
    exact .inl ⟨rfl, fun _ _ _ => .inl short⟩
  · split
    · rename_i unspec
      exact .inl ⟨rfl, fun _ _ _ => .inr (.inl unspec)⟩
    · split
      · exact .inl (harmless _ _ (by decide) rfl)
      · exact .inl (harmless _ _ (by decide) rfl)
      · split
        · exact .inl (harmless _ _ (by decide) rfl)
        · rename_i closed
          refine .inr ⟨not_not.mp closed, ?_⟩
          dsimp only
          generalize tcpV4Connect { s with tsk.err := -EISCONN } addr port iss = u
          split
          · refine ⟨rfl, fun rc same => ?_⟩
            obtain rfl := Option.some.inj same
            decide
          · have idle : Idle u { u with sock.state := .connecting, tsk.err := -EINPROGRESS } := rfl
            refine ⟨idle.trans (connectWait_parked _).1.1, fun rc ended fatal => ?_⟩
            exact (connectWait_fatal ended fatal).1 ⟨rfl, rfl⟩
      · rename_i other
        refine .inl ⟨rfl, fun _ _ _ => ?_⟩
        cases at_state : s.sock.state with
        | free => exact .inr (.inr (.inl at_state))
        | disconnecting => exact .inr (.inr (.inr at_state))
        | connected => exact absurd at_state (by assumption)
        | connecting => exact absurd at_state (by assumption)
        | unconnected => exact absurd at_state (by assumption)

/-! ### Events and runs -/

theorem Tended.of_timers (h : Tended s) (live : ∀ a ∈ alarms t.ts, a ∈ alarms s.ts)
    (next : t.ts.next = s.ts.next) (rest : t.tsk = s.tsk ∧ t.ended = s.ended ∧ t.sock = s.sock)
    (collectors : ∀ h ∈ t.ts.threads, h.handler.onSock = false → Ended s)
    (order : t.ts.threads.Pairwise fun a b => a.handler.onSock = false → b.handler.onSock = false) :
    Tended t := by
  obtain ⟨tsk, ended, sock⟩ := rest
  have quiet : ∀ c, Ticking t c → Ticking s c := by
    rintro c ⟨a, member, held⟩
    exact ⟨a, live a member, by rw [← tsk]; exact held⟩
  have ended' : Ended t ↔ Ended s := by
    unfold Ended
    rw [ended]
  refine { owned := ⟨?_, ?_, ?_⟩, orphans := ?_, collector := ?_, collectors := ?_, order := order
           live := ?_, idle := ?_, gone := ?_ }
  · intro a member
    rw [next]
    exact h.owned.fresh a (live a member)
  · rw [next, tsk]
    exact h.owned.below
  · intro c a member
    rw [tsk]
    exact h.owned.held c a (live a member)
  · intro a member
    rw [tsk]
    exact h.orphans a (live a member)
  · intro a member gc
    exact ended'.mpr (h.collector a (live a member) gc)
  · intro a member gc
    exact ended'.mpr (collectors a member gc)
  · rw [sock]
    exact h.live
  · intro empty ticks
    rw [tsk] at empty
    exact h.idle empty (quiet _ ticks)
  · intro dead c ticks
    exact h.gone (ended'.mp dead) c (quiet c ticks)

/- A turn of the clock starts handlers of the sock only while the connection lives. -/
theorem tick_tended (busy : List Nat) (h : Tended s) :
    Tended { s with ts := timersStart s.ts busy } := by
  have new : ∀ x ∈ ((alarms { s.ts with tick := s.ts.tick + 10 }).filter
      (Alarm.due (s.ts.tick + 10) busy)).map (Alarm.thread (s.ts.tick + 10)),
      ∃ a ∈ alarms s.ts, x.handler = a.handler := by
    intro x member
    obtain ⟨a, fired, rfl⟩ := List.mem_map.mp member
    exact ⟨a, (List.mem_filter.mp fired).1, rfl⟩
  have threads : (timersStart s.ts busy).threads = s.ts.threads ++
      ((alarms { s.ts with tick := s.ts.tick + 10 }).filter
        (Alarm.due (s.ts.tick + 10) busy)).map (Alarm.thread (s.ts.tick + 10)) := threads_tick _ busy
  have done : Ended s → ∀ a ∈ alarms s.ts, a.handler.onSock = false :=
    fun dead => h.unarmed (h.gone dead)
  refine h.of_timers (fun a member => tick_alarms _ member) rfl ⟨rfl, rfl, rfl⟩ ?_ ?_
  · show ∀ x ∈ (timersStart s.ts busy).threads, _
    rw [threads]
    intro x member gc
    rcases List.mem_append.mp member with old | fired
    · exact h.collectors x old gc
    · obtain ⟨a, running, same⟩ := new x fired
      exact h.collector a running (same ▸ gc)
  · show (timersStart s.ts busy).threads.Pairwise _
    rw [threads]
    refine List.pairwise_append.mpr ⟨h.order, ?_, ?_⟩
    · refine List.pairwise_of_forall_mem_list fun x first y second gc => ?_
      obtain ⟨a, running, same⟩ := new x first
      obtain ⟨b, running', same'⟩ := new y second
      rw [same']
      exact done (h.collector a running (same ▸ gc)) b running'
    · intro x old y fired gc
      obtain ⟨b, running, same⟩ := new y fired
      rw [same]
      exact done (h.collectors x old gc) b running

theorem started_tended (h : Tended s) (i : Nat) : Tended (started s i) := by
  have fewer : (s.ts.threads.eraseIdx i).Sublist s.ts.threads := List.eraseIdx_sublist _ _
  exact h.of_timers (fun _ => id) rfl ⟨rfl, rfl, rfl⟩
    (fun x member => h.collectors x (fewer.subset member)) (h.order.sublist fewer)

/- The garbage collector finds no handler in its way when none was started before it. -/
theorem collector_alone {i : Nat} {x : Thread Handler} (h : Tended s)
    (found : s.ts.threads[i]? = some x) (gc : x.handler.onSock = false)
    (first : ∀ y ∈ s.ts.threads.take i, y.handler.onSock = false) :
    ∀ y ∈ s.ts.threads.eraseIdx i, y.handler.onSock = false := by
  obtain ⟨inside, rfl⟩ := List.getElem?_eq_some_iff.mp found
  rw [List.eraseIdx_eq_take_drop_succ]
  intro y member
  rcases List.mem_append.mp member with before | after
  · exact first y before
  · obtain ⟨k, bound, rfl⟩ := List.mem_iff_getElem.mp after
    rw [List.getElem_drop]
    rw [List.length_drop] at bound
    exact List.pairwise_iff_getElem.mp h.order i (i + 1 + k) inside (by omega) (by omega) gc

theorem releases_unarmed {e : Event} (h : Tended s) (settles : Settles s e)
    (releases : Releases s e) : Unarmed s := by
  by_cases dead : Ended s
  · exact h.unarmed (h.gone dead)
  · exact h.unarmed fun c => not_ticking_of_none (settles.cleared releases dead c)

/- The end of a call of `_connect` that has left the connection alone. -/
theorem connectReturn_tended {e : Event} {q : Conn × Option Int} (h : Tended s)
    (settles : Settles s e) (all : startedBefore s e = s.ts.threads) (same : Idle s q.1)
    (fatal : ∀ rc, q.2 = some rc → Fatal rc → Releases s e) :
    Tended (connectReturn q).1 ∨ Buried (connectReturn q).1 := by
  rcases connectReturn_cases q with ⟨rc, ended, fails, free⟩ | kept
  · have releases := fatal rc ended fails
    have ts : q.1.ts = s.ts := congrArg (·.ts) same
    have last := settles.last releases
    rw [all] at last
    rw [free]
    refine .inr (socketFree_buried ?_ ?_)
    · show ∀ a ∈ alarms q.1.ts, _
      rw [ts]
      exact releases_unarmed h settles releases
    · show ∀ x ∈ q.1.ts.threads, _
      rw [ts]
      exact last
  · exact .inl (h.idle_frame (same.trans kept))

theorem connect_tended {addr : SockAddr} {port : UInt16} {iss : UInt32} {r : Reply} (h : Tended s)
    (gone : Ended s → s.tsk.state.gone) (settles : Settles s (.connect addr port iss))
    (taken : exec s (.connect addr port iss) = some (t, r)) : Tended t ∨ Buried t := by
  have locked : Tended (socketWrAcquire s) := h.minor (socketWrAcquire_minor s)
  simp only [exec] at taken
  split at taken
  · have final : (connectReturn (inetStreamConnect (socketWrAcquire s) addr port iss)).1 = t :=
      congrArg Prod.fst (Option.some.inj taken)
    rw [← final]
    rcases inetStreamConnect_cases (socketWrAcquire s) addr port iss with ⟨same, fatal⟩ |
      ⟨closed, dialled, harmless⟩
    · have idle : Idle s (socketWrAcquire s) := rfl
      exact connectReturn_tended h settles rfl (idle.trans same) fatal
    · have going : ¬Ended s := by
        intro dead
        have closed' : s.tsk.state = .close := closed
        rcases gone dead with closing | timeWait
        · simp [closed'] at closing
        · simp [closed'] at timeWait
      have marked : Tended { socketWrAcquire s with tsk.err := -EISCONN } :=
        locked.eq rfl rfl rfl rfl rfl
      have sent := tcpV4Connect_tended addr port iss marked closed going
      rcases connectReturn_cases (inetStreamConnect (socketWrAcquire s) addr port iss) with
        ⟨rc, ended, fails, -⟩ | kept
      · exact absurd fails (harmless rc ended)
      · exact .inl (sent.idle_frame (dialled.trans kept))
  · contradiction

theorem connectWakes_tended {r : Reply} (h : Tended s) (settles : Settles s .connectWakes)
    (taken : exec s .connectWakes = some (t, r)) : Tended t ∨ Buried t := by
  simp only [exec] at taken
  rw [if_neg (by simp [h.live])] at taken
  unfold connectWakes at taken
  split at taken
  · have final : (connectReturn (connectWait (socketWrAcquire { s with
        connecting := false, sock.sleep := waitReturn s.sock.sleep }))).1 = t :=
      congrArg Prod.fst (Option.some.inj taken)
    rw [← final]
    have idle : Idle s (connectWait (socketWrAcquire { s with
        connecting := false, sock.sleep := waitReturn s.sock.sleep })).1 := (connectWait_parked _).1.1
    refine connectReturn_tended h settles rfl idle fun rc ended fails => ?_
    have fatal := connectWait_fatal ended fails
    exact fatal
  · contradiction

/- What happens while the sock is there. -/
theorem exec_tended {e : Event} {r : Reply} (h : Tended s) (gone : Ended s → s.tsk.state.gone)
    (settles : Settles s e) (taken : exec s e = some (t, r)) : Tended t ∨ Buried t := by
  have locked : Tended (socketWrAcquire s) := h.minor (socketWrAcquire_minor s)
  by_cases dials : ∃ addr port iss, e = .connect addr port iss
  · obtain ⟨addr, port, iss, rfl⟩ := dials
    exact connect_tended h gone settles taken
  by_cases wakes : e = .connectWakes
  · subst wakes
    exact connectWakes_tended h settles taken
  refine exec_pass (P := fun u => Tended u ∨ Buried u) ?_ (.inl h) taken ?_ ?_ ?_ ?_ ?_ ?_ ?_ ?_ ?_ ?_
  · rintro u v idle (tended | ⟨freed, closed, unarmed, unstarted⟩)
    · exact .inl (tended.idle_frame idle)
    · have ts : v.ts = u.ts := congrArg (·.ts) idle
      refine .inr ⟨?_, ?_, ?_, ?_⟩
      · exact (congrArg (·.sock.skFreed) idle).trans freed
      · exact (congrArg (·.sock.registered) idle).trans closed
      · rw [Unarmed, ts]
        exact unarmed
      · rw [Unstarted, ts]
        exact unstarted
  · rintro (dial | wake)
    · exact absurd dial dials
    · exact absurd wake wakes
  · intro busy _
    exact .inl (tick_tended busy h)
  · rintro i x rfl found _
    have ready := started_tended h i
    by_cases gc : x.handler.onSock = false
    · have collects : x.handler = .socketGarbageCollect := by
        cases at_handler : x.handler <;> simp_all [Handler.onSock]
      rw [collects]
      show Tended (socketGarbageCollect (started s i)) ∨ Buried (socketGarbageCollect (started s i))
      unfold socketGarbageCollect
      split
      · have releases : Releases s (.handler i) := ⟨x, found, collects⟩
        have unarmed := releases_unarmed h settles releases
        exact .inr (socketFree_buried (s := started s i) unarmed
          (collector_alone h found gc (settles.last releases)))
      · exact .inl ready
    · have sock : x.handler.onSock = true := by simpa using gc
      refine .inl (runHandler_tended ready sock gone ?_ ?_ ?_)
      · exact fun slot ticks => settles.keeps (.inr ⟨x, found, .inl ⟨slot, ticks⟩⟩)
      · exact fun slot ticks => settles.keeps (.inr ⟨x, found, .inr ⟨slot, ticks⟩⟩)
      · intro dead retransmits some_left
        by_contra young
        exact settles.late dead ⟨x, found, retransmits, some_left, UInt32.not_lt.mp young⟩
  · intro buf _ _ _
    exact .inl (tcpWrite_tended buf locked gone)
  · intro len _ _ _
    refine .inl (tcpRead_cases (motive := fun q => Tended q.1) (socketWrAcquire s) len (fun _ => locked)
      (fun _ => locked) (fun _ => locked.eq rfl rfl rfl rfl rfl) fun receives _ => ?_)
    refine receiveLoop_tended len 0 locked fun dead waits => ?_
    have receives' : s.tsk.state.receives = true := receives
    rcases gone dead with closing | timeWait
    · simp [closing, TcpState.receives] at receives'
    · exact absurd timeWait waits
  · rintro i b rfl found _ _
    have woken : Tended (resumed s i) := h.idle_frame rfl
    refine .inl (receiveLoop_tended b.len b.rlen woken fun dead waits hands => ?_)
    exact settles.late dead ⟨waits, b, found, hands⟩
  · intro _ _ _
    exact .inl (tcpClose_tended locked gone)
  · intro _ _
    exact .inl (h.done (tcpSendReset_tidy s))
  · intro addr port iss call _ _ _
    exact absurd ⟨addr, port, iss, call⟩ dials
  · rintro th payload rfl _ _
    have arrived : Tended (socketWrAcquire (tcpInitSegment s th payload).1) := h.idle_frame rfl
    refine .inl (tcpInputState_tended arrived gone rfl (fun dead => settles.late dead) ?_)
    intro checked passes text plain next old idle some_left ticks
    exact settles.keeps (.inl ⟨⟨checked, passes, text, plain, next, old, idle, some_left⟩, ticks⟩)

/- After that only the clock goes on. -/
theorem exec_buried {e : Event} {r : Reply} (h : Buried s) (taken : exec s e = some (t, r)) :
    Buried t := by
  obtain ⟨freed, closed, unarmed, unstarted⟩ := h
  cases e with
  | tick busy =>
    obtain ⟨rfl, -⟩ := by simpa [exec] using taken
    refine ⟨freed, closed, fun a member => unarmed a (tick_alarms _ member), fun x member => ?_⟩
    have started : x ∈ (timersStart s.ts busy).threads := member
    unfold timersStart at started
    rw [threads_tick] at started
    rcases List.mem_append.mp started with old | fired
    · exact unstarted x old
    · obtain ⟨a, due, rfl⟩ := List.mem_map.mp fired
      exact unarmed a (List.mem_filter.mp due).1
  | handler i =>
    obtain ⟨x, found, gone, rfl⟩ := exec_handler_taken taken
    rw [gone freed]
    unfold runHandler socketGarbageCollect
    dsimp only
    rw [if_neg (show ¬(started s i).sock.registered = true by simp [started, closed])]
    exact ⟨freed, closed, unarmed, fun y member => unstarted y (List.mem_of_mem_eraseIdx member)⟩
  | connectWakes => simp [exec, freed] at taken
  | readWakes i => simp [exec, freed] at taken
  | connect addr port iss => simp [exec, closed] at taken
  | read len => simp [exec, closed] at taken
  | abort => simp [exec, closed] at taken
  | segment th payload => simp [exec, closed] at taken
  | write buf => simp [exec, call, closed] at taken
  | close => simp [exec, call, closed] at taken
  | poll events => simp [exec, call, closed] at taken
  | fcntlGetfl => simp [exec, call, closed] at taken
  | fcntlSetfl flags => simp [exec, call, closed] at taken
  | getsockoptError => simp [exec, call, closed] at taken

theorem Tended.start : Tended {} where
  owned := ⟨by simp [alarms, alarmsOf], fun c i => by cases c <;> simp [TcpSock.slot],
    by simp [alarms, alarmsOf]⟩
  orphans := by simp [NoOrphans, alarms, alarmsOf]
  collector := by simp [alarms, alarmsOf]
  collectors := by simp
  order := List.Pairwise.nil
  live := rfl
  idle _ := not_ticking_of_none rfl
  gone dead := by cases dead

/-- As long as every event settles what it has to, nothing outlives the sock: when it has been freed no
    timer of it runs and no handler of it waits, and from `tcp_done` on no timer of it runs. -/
theorem no_timer_outlives_sock {trace : List (Event × Reply)}
    (run : Run exec (fun _ s e => Settles s e) {} trace s) :
    (s.sock.skFreed = true → Unarmed s ∧ Unstarted s) ∧ (Ended s → Unarmed s) := by
  have kept : (Ended s → s.tsk.state.gone) ∧ (Tended s ∨ Buried s) := by
    refine run.invariant_state (P := fun u => (Ended u → u.tsk.state.gone) ∧ (Tended u ∨ Buried u)) ?_ ?_
    · exact ⟨(fun dead => by cases dead), .inl .start⟩
    · rintro _ u e v r ⟨gone, tended | buried⟩ settles taken
      · exact ⟨exec_gone u gone taken, exec_tended tended gone settles taken⟩
      · exact ⟨exec_gone u gone taken, .inr (exec_buried buried taken)⟩
  rcases kept.2 with tended | buried
  · refine ⟨fun freed => ?_, fun dead => tended.unarmed (tended.gone dead)⟩
    rw [tended.live] at freed
    cases freed
  · exact ⟨fun _ => ⟨buried.unarmed, buried.unstarted⟩, fun _ => buried.unarmed⟩

/- A connect that is refused while its caller sleeps; the caller frees the socket when it wakes. -/
def refused : List Event :=
  [.connect ⟨2, 16, 80, parseIpv4 10 0 0 5⟩ 40001 1000, .tick [],
    .segment { peerHdr 0 1001 with rst := true } [], .connectWakes]

theorem no_timer_outlives_sock_refused : ∃ trace s,
    Run exec (fun _ s e => Settles s e) {} trace s ∧ s.sock.skFreed = true ∧ Ended s ∧
      ((s.sock.skFreed = true → Unarmed s ∧ Unstarted s) ∧ (Ended s → Unarmed s)) := by
  obtain ⟨p, reached, freed, dead⟩ : ∃ p ∈ follow exec (fun _ s e => Settles s e) [] {} refused,
      p.2.sock.skFreed = true ∧ Ended p.2 := by
    decide
  have run := Run.of_follow _ .start reached
  exact ⟨p.1, p.2, run, freed, dead, no_timer_outlives_sock run⟩

/-- A `connect` of an established socket with an address of no family frees its sock under the user
    timeout, and a reset after `tcp_done` sets the 2MSL timer. -/
theorem timers_outlive_sock :
    (∃ p ∈ follow exec (fun _ _ _ => True) [] {}
      (handshake ++ [.connect ⟨AF_UNSPEC, 16, 80, parseIpv4 10 0 0 5⟩ 40002 1000]),
      p.2.sock.skFreed = true ∧ ¬Unarmed p.2) ∧
    ∃ p ∈ follow exec (fun _ _ _ => True) [] {}
      (handshake ++ [.abort, .segment { peerHdr 5001 1001 with rst := true } []]),
      Ended p.2 ∧ ¬Unarmed p.2 := by
  decide

end HfIp
