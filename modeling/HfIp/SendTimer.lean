import HfIp.StateFrame
import HfIp.SendSteps
import HfIp.TimerFrame
import HfIp.SocketEvents

/- The retransmission timer as the guard of the write queue: which functions keep a timer or a handler
   behind a queue that is not empty. -/
namespace HfIp

/- The states in which buffers of the write queue are still to reach the peer. -/
def TcpState.active : TcpState → Bool
  | .synSent | .synReceived | .established | .finWait1 | .closeWait | .closing | .lastAck => true
  | _ => false

def Active (s : Conn) : Prop := s.ended = false ∧ s.tsk.state.active = true

instance (s : Conn) : Decidable (Active s) := inferInstanceAs (Decidable (_ ∧ _))

/-- Something will send the queue again: a timer is running or its handler has been started. -/
def Guarded (s : Conn) : Prop :=
  Active s → s.tsk.writeQueue ≠ [] → Ticking s .retransmit ∨ Started s .retransmit

instance (s : Conn) : Decidable (Guarded s) := inferInstanceAs (Decidable (_ → _))

/- What holds of the queue and the timers whether or not the queue is guarded. -/
structure QueueBase (s : Conn) : Prop where
  owned : Owned s
  closed : s.tsk.state = .close → s.tsk.writeQueue = []
  opening : s.tsk.state = .synSent → s.tsk.writeQueue.length ≤ s.tsk.inflight

structure GuardInv (s : Conn) : Prop extends QueueBase s where
  guarded : Guarded s

/- The queue is the same and the state has not moved into one that asks for more. -/
structure QueueFrame (s t : Conn) : Prop where
  queue : t.tsk.writeQueue = s.tsk.writeQueue
  inflight : t.tsk.inflight = s.tsk.inflight
  active : Active t → Active s
  close : t.tsk.state = .close → s.tsk.state = .close
  synSent : t.tsk.state = .synSent → s.tsk.state = .synSent

namespace QueueFrame

variable {s t u : Conn}

theorem trans (first : QueueFrame s t) (second : QueueFrame t u) : QueueFrame s u :=
  ⟨second.queue.trans first.queue, second.inflight.trans first.inflight,
    first.active ∘ second.active, first.close ∘ second.close, first.synSent ∘ second.synSent⟩

theorem after (second : QueueFrame t u) (first : QueueFrame s t) : QueueFrame s u :=
  first.trans second

theorem of_stays (stays : Stays s t) (queue : t.tsk.writeQueue = s.tsk.writeQueue)
    (inflight : t.tsk.inflight = s.tsk.inflight) : QueueFrame s t := by
  refine ⟨queue, inflight, ?_, ?_, ?_⟩
  · rw [Active, stays.state, stays.ended]; exact id
  · rw [stays.state]; exact id
  · rw [stays.state]; exact id

theorem of_eq (queue : t.tsk.writeQueue = s.tsk.writeQueue)
    (inflight : t.tsk.inflight = s.tsk.inflight) (state : t.tsk.state = s.tsk.state)
    (ended : t.ended = s.ended) : QueueFrame s t := of_stays ⟨state, ended⟩ queue inflight

theorem refl (s : Conn) : QueueFrame s s := of_eq rfl rfl rfl rfl

theorem of_same (h : Same s t) : QueueFrame s t :=
  of_eq h.writeQueue h.inflight h.state h.ended

theorem of_minor (h : Minor s t) : QueueFrame s t := of_same h.same

theorem of_send (send : SendFrame s t) (stays : Stays s t) : QueueFrame s t :=
  of_stays stays send.writeQueue send.inflight

end QueueFrame

variable {s t : Conn}

namespace QueueBase

theorem frame (base : QueueBase s) (h : QueueFrame s t) (owned : Owned s → Owned t) :
    QueueBase t := by
  refine ⟨owned base.owned, fun close => ?_, fun waiting => ?_⟩
  · rw [h.queue]; exact base.closed (h.close close)
  · rw [h.queue, h.inflight]; exact base.opening (h.synSent waiting)

/- The connection is over, or no longer waits for anything. -/
theorem gone (base : QueueBase s) (h : QueueFrame s t) (owned : Owned s → Owned t)
    (still : ¬Active t) : GuardInv t :=
  { base.frame h owned with guarded := fun active => absurd active still }

/- A timer has just been set. -/
theorem guard (base : QueueBase s) (ticks : Ticking s .retransmit) : GuardInv s :=
  { base with guarded := fun _ _ => .inl ticks }

end QueueBase

namespace GuardInv

variable {touched : List Slot}

theorem frame (inv : GuardInv s) (h : QueueFrame s t) (timers : TimerFrame touched s t)
    (outside : .retransmit ∉ touched) : GuardInv t := by
  refine { inv.toQueueBase.frame h timers.owned with guarded := fun active some_left => ?_ }
  rw [h.queue] at some_left
  exact timers.armed inv.owned outside (inv.guarded (h.active active) some_left)

theorem same (inv : GuardInv s) (h : Same s t) : GuardInv t :=
  inv.frame (.of_same h) (.of_same h) (by simp)

theorem minor (inv : GuardInv s) (h : Minor s t) : GuardInv t := inv.same h.same

theorem eq (inv : GuardInv s) (ts : t.ts = s.ts) (slots : t.tsk.slot = s.tsk.slot)
    (queue : t.tsk.writeQueue = s.tsk.writeQueue) (inflight : t.tsk.inflight = s.tsk.inflight)
    (state : t.tsk.state = s.tsk.state) (ended : t.ended = s.ended) : GuardInv t :=
  inv.frame (.of_eq queue inflight state ended) (.of_eq ts slots) (by simp)

end GuardInv

/-! ### Ending a connection -/

theorem tcpDone_state : (tcpDone s).tsk.state = .closing := by
  have freed := (skbQueueFree_minor (tcpClearTimers (setState { s with ended := true } .closing))
    s.tsk.ofoQueue).same.state
  unfold tcpDone socketDelete
  split <;> exact freed

theorem tcpDone_queue : QueueFrame s (tcpDone s) := by
  have send := tcpDone_send s
  have state := tcpDone_state (s := s)
  refine ⟨send.writeQueue, send.inflight, fun active => ?_, ?_, ?_⟩
  · have ended : (tcpDone s).ended = true := tcpDone_ended s
    rw [Active, ended] at active
    simp at active
  · simp [state]
  · simp [state]

theorem tcpDone_gone : ¬Active (tcpDone s) := by
  have ended : (tcpDone s).ended = true := tcpDone_ended s
  rw [Active, ended]
  simp

theorem tcpDone_guards (base : QueueBase s) : GuardInv (tcpDone s) :=
  base.gone tcpDone_queue (tcpDone_timers s).owned tcpDone_gone

theorem tcpEnterTimeWait_gone : ¬Active (tcpEnterTimeWait s) := by
  rintro ⟨-, active⟩
  rw [show (tcpEnterTimeWait s).tsk.state = .timeWait from rfl] at active
  contradiction

theorem tcpEnterTimeWait_queue : QueueFrame s (tcpEnterTimeWait s) := by
  refine ⟨rfl, rfl, fun active => absurd active tcpEnterTimeWait_gone, fun close => ?_,
    fun waiting => ?_⟩
  · cases close
  · cases waiting

theorem tcpEnterTimeWait_guards (base : QueueBase s) : GuardInv (tcpEnterTimeWait s) :=
  base.gone tcpEnterTimeWait_queue (tcpEnterTimeWait_timers s).owned tcpEnterTimeWait_gone

theorem tcpRearmUserTimeout_guards (inv : GuardInv s) : GuardInv (tcpRearmUserTimeout s) :=
  inv.frame (.of_send (tcpRearmUserTimeout_send s) (tcpRearmUserTimeout_stays s))
    (tcpRearmUserTimeout_timers s) (by simp)

/-! ### Setting the timer -/

theorem addRetransmit_ticks (s : Conn) (expire : UInt32) (h : Handler) :
    Ticking (addRetransmit s expire h) .retransmit := by
  refine ⟨⟨s.ts.next, s.ts.tick + expire, h⟩, ?_, rfl⟩
  show _ ∈ alarms (timerAdd s.ts expire h).1
  rw [alarms_add]
  simp

theorem tcpRearmRtoTimer_ticks (s : Conn) : Ticking (tcpRearmRtoTimer s) .retransmit := by
  unfold tcpRearmRtoTimer
  dsimp only
  split <;> exact addRetransmit_ticks _ _ _

theorem tcpRearmRtoTimer_queue : QueueFrame s (tcpRearmRtoTimer s) :=
  .of_send (tcpRearmRtoTimer_send s) (tcpRearmRtoTimer_stays s)

theorem tcpRearmRtoTimer_guards (base : QueueBase s) : GuardInv (tcpRearmRtoTimer s) :=
  (base.frame tcpRearmRtoTimer_queue (tcpRearmRtoTimer_timers s).owned).guard
    (tcpRearmRtoTimer_ticks s)

/-! ### Queueing, sending and cleaning -/

theorem tcpQueueTransmitSkb_length (k : SkBuff) :
    (tcpQueueTransmitSkb s k).tsk.writeQueue.length = s.tsk.writeQueue.length + 1 := by
  by_cases idle : s.tsk.inflight = 0
  · obtain ⟨k', seg, -, queue, -⟩ := tcpQueueTransmitSkb_now k idle
    simp [queue]
  · obtain ⟨u, frame, eq⟩ := tcpQueueTransmitSkb_later k idle
    simp [eq, frame.writeQueue]

/- A buffer joins a queue that is guarded, or sets a timer of its own. -/
theorem tcpQueueTransmitSkb_guarded (k : SkBuff) (own : Owned s) (guarded : Guarded s) :
    Guarded (tcpQueueTransmitSkb s k) := by
  have stays := tcpQueueTransmitSkb_stays s k
  intro active _
  rw [Active, stays.state, stays.ended] at active
  have sends := tcpQueueTransmitSkb_sends s k
  by_cases none : s.tsk.writeQueue = []
  · rw [if_pos (by rw [none]; rfl)] at sends
    have owned := (tcpRearmRtoTimer_timers s).owned own
    exact .inl (sends.ticking owned (by simp) (tcpRearmRtoTimer_ticks s))
  · rw [if_neg (by simpa [skbQueueEmpty] using none)] at sends
    exact sends.armed own (by simp) (guarded active none)

theorem tcpQueueTransmitSkb_guards (k : SkBuff) (inv : GuardInv s) (opened : s.tsk.state ≠ .close)
    (connected : s.tsk.state ≠ .synSent) : GuardInv (tcpQueueTransmitSkb s k) := by
  have stays := tcpQueueTransmitSkb_stays s k
  exact { owned := (tcpQueueTransmitSkb_timers s k).owned inv.owned
          closed := fun close => absurd (stays.state.symm.trans close) opened
          opening := fun waiting => absurd (stays.state.symm.trans waiting) connected
          guarded := tcpQueueTransmitSkb_guarded k inv.owned inv.guarded }

theorem sendNextLoop_length (amount : Nat) (queue : List SkBuff) :
    (sendNextLoop s amount queue).2.length = queue.length := by
  induction amount generalizing s queue with
  | zero => rfl
  | succ amount ih =>
    cases queue with
    | nil => rfl
    | cons next rest => simp [sendNextLoop, ih]

theorem retransmitHead_length {k : SkBuff} (head : s.tsk.writeQueue.head? = some k) :
    (retransmitHead s k).tsk.writeQueue.length = s.tsk.writeQueue.length := by
  have same := tcpTransmitSkb_same s k s.tsk.tcb.sndUna
  obtain ⟨rest, queue⟩ := List.head?_eq_some_iff.mp head
  simp [retransmitHead, setHead, same.writeQueue, queue]

theorem retransmitHead_base {k : SkBuff} (base : QueueBase s)
    (head : s.tsk.writeQueue.head? = some k) : QueueBase (retransmitHead s k) := by
  obtain ⟨queue, same⟩ := retransmitHead_touches s k
  have length := retransmitHead_length head
  have state : (retransmitHead s k).tsk.state = s.tsk.state := same.state
  refine ⟨(retransmitHead_timers s k).owned base.owned, fun close => ?_, fun waiting => ?_⟩
  · rw [base.closed (state ▸ close)] at head
    contradiction
  · rw [length, show (retransmitHead s k).tsk.inflight = s.tsk.inflight from same.inflight]
    exact base.opening (state ▸ waiting)

/- Sending what waits, with the timer set anew. -/
theorem tcpSendNext_guards (amount : Nat) (base : QueueBase s) (opened : s.tsk.state ≠ .close) :
    GuardInv (tcpRearmRtoTimer { tcpSendNext s amount with
      tsk.inflight := (tcpSendNext s amount).tsk.inflight + amount }) := by
  obtain ⟨_, _, _, same⟩ := tcpSendNext_touches s amount
  have state : (tcpSendNext s amount).tsk.state = s.tsk.state := same.state
  have length : (tcpSendNext s amount).tsk.writeQueue.length = s.tsk.writeQueue.length :=
    sendNextLoop_length amount s.tsk.writeQueue
  have timers := (tcpSendNext_timers s amount).still (.of_eq (t := { tcpSendNext s amount with
    tsk.inflight := (tcpSendNext s amount).tsk.inflight + amount }) rfl rfl)
  refine tcpRearmRtoTimer_guards ⟨timers.owned base.owned, fun close => ?_, fun waiting => ?_⟩
  · exact absurd (state.symm.trans close) opened
  · have bound := base.opening (state.symm.trans waiting)
    have inflight : (tcpSendNext s amount).tsk.inflight = s.tsk.inflight := same.inflight
    show (tcpSendNext s amount).tsk.writeQueue.length ≤ (tcpSendNext s amount).tsk.inflight + amount
    omega

/- Cleaning keeps the guard unless it stops the timer with unsent buffers left over. -/
theorem tcpCleanRtoQueue_guards (una : UInt32) (inv : GuardInv s) :
    QueueBase (tcpCleanRtoQueue s una) ∧ (Guarded (tcpCleanRtoQueue s una) ∨
      (s.tsk.writeQueue.dropWhile (acked una) ≠ [] ∧
        s.tsk.inflight ≤ (s.tsk.writeQueue.takeWhile (acked una)).length ∧
        (tcpCleanRtoQueue s una).tsk.inflight = 0)) := by
  have stays := tcpCleanRtoQueue_stays s una
  have timers := tcpCleanRtoQueue_timers s una
  obtain ⟨freed, cleaned⟩ := cleanLoop_conn una s s.tsk.writeQueue
  have split : s.tsk.writeQueue.takeWhile (acked una) ++ s.tsk.writeQueue.dropWhile (acked una)
      = s.tsk.writeQueue := List.takeWhile_append_dropWhile
  have total := congrArg List.length split
  rw [List.length_append] at total
  set gone := s.tsk.writeQueue.takeWhile (acked una)
  set left := s.tsk.writeQueue.dropWhile (acked una) with hleft
  have queue : (tcpCleanRtoQueue s una).tsk.writeQueue = left := tcpCleanRtoQueue_queue s una
  have inflight : (tcpCleanRtoQueue s una).tsk.inflight = s.tsk.inflight - gone.length :=
    tcpCleanRtoQueue_inflight s una
  have base : QueueBase (tcpCleanRtoQueue s una) := by
    refine ⟨timers.owned inv.owned, fun close => ?_, fun waiting => ?_⟩
    · have none := inv.closed (stays.state.symm.trans close)
      rw [queue, hleft, none]
      rfl
    · have bound := inv.opening (stays.state.symm.trans waiting)
      rw [queue, inflight]
      omega
  refine ⟨base, ?_⟩
  by_cases stopped : left = [] ∨ s.tsk.inflight - gone.length = 0
  · by_cases none : left = []
    · exact .inl fun _ some_left => absurd (queue.trans none) some_left
    · have drained := stopped.resolve_left none
      exact .inr ⟨none, by omega, inflight.trans drained⟩
  · refine .inl fun active some_left => ?_
    have armed := inv.guarded (by rw [Active, ← stays.state, ← stays.ended]; exact active)
      (fun none => some_left (by rw [queue, hleft, none]; rfl))
    have eq : tcpCleanRtoQueue s una = { s with
        tsk.inflight := s.tsk.inflight - gone.length, freed := freed, tsk.writeQueue := left } := by
      unfold tcpCleanRtoQueue
      dsimp only
      rw [cleaned, cleanLoop_queue, if_neg stopped]
    rw [eq]
    exact armed

end HfIp
