import HfIp.DyingTimers

/- TIME_WAIT and its timer: the steps after which the 2MSL timer runs and nothing else does, and those
   that leave another timer of the sock behind. -/
namespace HfIp

open Transition

variable {s t u : Conn}

/-- In TIME_WAIT, `tcp_done` still to come. -/
def Lingering (s : Conn) : Prop := s.tsk.state = .timeWait ∧ ¬Ended s

instance (s : Conn) : Decidable (Lingering s) := inferInstanceAs (Decidable (_ ∧ _))

/-- The linger field holds a timer of `tcp_linger`, armed or started and not yet run. -/
def LingerTimed (s : Conn) : Prop :=
  (∃ a ∈ alarms s.ts, s.tsk.linger = some a.id ∧ a.handler = .tcpLinger) ∨
    ∃ h ∈ s.ts.threads, s.tsk.linger = some h.timer ∧ h.handler = .tcpLinger

instance (s : Conn) : Decidable (LingerTimed s) := inferInstanceAs (Decidable (_ ∨ _))

/-- And no other timer of the sock is armed, nor is a user timeout waiting to run. -/
structure Timed (s : Conn) : Prop where
  linger : LingerTimed s
  armed : ∀ a ∈ alarms s.ts, a.handler.onSock = true → a.handler = .tcpLinger
  user : ∀ h ∈ s.ts.threads, h.handler ≠ .tcpUserTimeout

instance (s : Conn) : Decidable (Timed s) :=
  decidable_of_iff (LingerTimed s ∧
    (∀ a ∈ alarms s.ts, a.handler.onSock = true → a.handler = .tcpLinger) ∧
    ∀ h ∈ s.ts.threads, h.handler ≠ .tcpUserTimeout)
    ⟨fun ⟨a, b, c⟩ => ⟨a, b, c⟩, fun ⟨a, b, c⟩ => ⟨a, b, c⟩⟩

/-- The event is the handler of the 2MSL timer, or the application gives the connection up. -/
def EndsByLinger (s : Conn) : Event → Prop
  | .abort => True
  | .handler i => ∃ h ∈ s.ts.threads[i]?, h.handler = .tcpLinger
  | _ => False

/-- TIME_WAIT comes to be without its timer, or is ended by something else. -/
def Mistimes (s : Conn) (e : Event) : Prop :=
  ∃ t r, exec s e = some (t, r) ∧
    ¬((Lingering t → Timed t) ∧ (Lingering s → Ended t → EndsByLinger s e))

/- Every buffer of the write queue is taken off it for the segment. -/
def AcksAll (s : Conn) (th : TcpHdr) : Prop :=
  ∀ k ∈ s.tsk.writeQueue, AckNew s th ∧ acked th.ackSeq k = true

instance (s : Conn) (th : TcpHdr) : Decidable (AcksAll s th) :=
  inferInstanceAs (Decidable (∀ k ∈ s.tsk.writeQueue, _))

/-- The event is the ACK of the FIN in CLOSING. -/
def ClosingAcked (s : Conn) : Event → Prop
  | .segment th payload => s.tsk.state = .closing ∧
      Passes (arriving s th payload) th (tcpInitSegment s th payload).2 ∧ AcksAll s th
  | _ => False

instance (s : Conn) (e : Event) : Decidable (ClosingAcked s e) := by
  induction e using Event.casesOn <;> unfold ClosingAcked <;> infer_instance

/-- The event is a RST in the window, or the other end's FIN after the ACK of our own. -/
def EntersTimeWait (s : Conn) : Event → Prop
  | .segment th payload => s.tsk.state.synchronizes = true ∧
      ((tcpVerifySegment s.tsk th (tcpInitSegment s th payload).2 = true ∧ th.rst = true) ∨
        (Passes (arriving s th payload) th (tcpInitSegment s th payload).2 ∧ th.fin = true ∧
          th.seq = s.tsk.tcb.rcvNxt ∧
          (s.tsk.state = .finWait2 ∨ s.tsk.state = .finWait1 ∧ AcksAll s th)))
  | _ => False

instance (s : Conn) (e : Event) : Decidable (EntersTimeWait s e) := by
  induction e using Event.casesOn <;> unfold EntersTimeWait <;> infer_instance

/-- `tcp_clear_timers` finds every armed timer of the sock, and no user timeout waits to run. -/
def Clearable (s : Conn) : Prop :=
  (∀ a ∈ alarms s.ts, a.handler.onSock = true → a.handler = .tcpLinger ∨
    ∃ c ∈ allSlots, s.tsk.slot c = some a.id) ∧
  ∀ h ∈ s.ts.threads, h.handler ≠ .tcpUserTimeout

instance (s : Conn) : Decidable (Clearable s) := inferInstanceAs (Decidable (_ ∧ _))

/-- The event is a retransmission handler that was started before TIME_WAIT and finds buffers left. -/
def ResendsLate (s : Conn) : Event → Prop
  | .handler i => s.tsk.state = .timeWait ∧ s.tsk.writeQueue ≠ [] ∧
      ∃ h ∈ s.ts.threads[i]?, h.handler = .tcpRetransmissionTimeout
  | _ => False

instance (s : Conn) (e : Event) : Decidable (ResendsLate s e) := by
  induction e using Event.casesOn <;> unfold ResendsLate <;> infer_instance

/-- TIME_WAIT is left to the user timeout, or entered past timers that stay armed, or a late handler
    sends once more. -/
def Untimes (s : Conn) (e : Event) : Prop :=
  ¬Ended s ∧ (ClosingAcked s e ∨ (EntersTimeWait s e ∧ ¬Clearable s) ∨ ResendsLate s e)

instance (s : Conn) (e : Event) : Decidable (Untimes s e) := inferInstanceAs (Decidable (_ ∧ _))

/-! ### Timers that are only cancelled -/

/- The only timers that have gone are those that have left their fields. -/
structure Cancels (s t : Conn) : Prop where
  alarms : ∀ a, a ∈ alarms t.ts ↔
    a ∈ alarms s.ts ∧ ¬∃ c, s.tsk.slot c = some a.id ∧ t.tsk.slot c = none
  slots : ∀ c, t.tsk.slot c = s.tsk.slot c ∨ t.tsk.slot c = none
  threads : t.ts.threads = s.ts.threads

namespace Cancels

theorem of_eq (ts : t.ts = s.ts) (slots : t.tsk.slot = s.tsk.slot) : Cancels s t := by
  refine ⟨fun a => ?_, fun c => .inl (by rw [slots]), by rw [ts]⟩
  rw [ts, slots]
  constructor
  · intro member
    refine ⟨member, ?_⟩
    rintro ⟨c, held, gone⟩
    rw [held] at gone
    cases gone
  · exact And.left

theorem of_minor (h : Minor s t) : Cancels s t := by
  refine of_eq h.same.ts (funext fun c => ?_)
  cases c
  · exact h.same.retransmit
  · exact h.same.delack
  · exact h.same.keepalive
  · exact h.same.linger

theorem refl (s : Conn) : Cancels s s := of_eq rfl rfl

theorem trans (first : Cancels s t) (second : Cancels t u) : Cancels s u := by
  refine ⟨fun a => ?_, fun c => ?_, second.threads.trans first.threads⟩
  · rw [second.alarms, first.alarms, and_assoc, and_congr_right_iff]
    intro _
    constructor
    · rintro ⟨early, late⟩ ⟨c, held, gone⟩
      rcases first.slots c with same | none
      · exact late ⟨c, same.trans held, gone⟩
      · exact early ⟨c, held, none⟩
    · intro kept
      constructor
      · rintro ⟨c, held, none⟩
        refine kept ⟨c, held, ?_⟩
        rcases second.slots c with same | gone
        · exact same.trans none
        · exact gone
      · rintro ⟨c, held, gone⟩
        rcases first.slots c with same | none
        · exact kept ⟨c, same.symm.trans held, gone⟩
        · rw [none] at held
          cases held
  · rcases second.slots c with same | gone
    · rw [same]
      exact first.slots c
    · exact .inr gone

theorem after (second : Cancels t u) (first : Cancels s t) : Cancels s u := first.trans second

theorem cancel (c : Slot) (ts : t.ts = timerCancel s.ts (s.tsk.slot c))
    (slots : ∀ d, t.tsk.slot d = if d = c then none else s.tsk.slot d) : Cancels s t := by
  refine ⟨fun a => ?_, fun d => ?_, ?_⟩
  · rw [ts, alarms_cancel, List.mem_filter, and_congr_right_iff]
    intro _
    constructor
    · rintro apart ⟨d, held, gone⟩
      rw [slots] at gone
      split at gone
      · rename_i here
        rw [here] at held
        simp [held] at apart
      · rw [held] at gone
        cases gone
    · intro kept
      have apart : some a.id ≠ s.tsk.slot c := fun held => kept ⟨c, held.symm, by rw [slots, if_pos rfl]⟩
      simpa using apart
  · rw [slots]
    split
    · exact .inr rfl
    · exact .inl rfl
  · rw [ts]
    cases s.tsk.slot c <;> rfl

end Cancels

theorem tcpStopRtoTimer_cancels (s : Conn) : Cancels s (tcpStopRtoTimer s) :=
  .cancel .retransmit rfl fun d => by cases d <;> rfl

theorem tcpClearTimers_cancels (s : Conn) : Cancels s (tcpClearTimers s) := by
  have delack : Cancels (tcpStopRtoTimer s) (tcpStopDelackTimer (tcpStopRtoTimer s)) :=
    .cancel .delack rfl fun d => by cases d <;> rfl
  have keepalive : Cancels (tcpStopDelackTimer (tcpStopRtoTimer s))
      (stopKeepalive (tcpStopDelackTimer (tcpStopRtoTimer s))) :=
    .cancel .keepalive rfl fun d => by cases d <;> rfl
  have linger : Cancels (stopKeepalive (tcpStopDelackTimer (tcpStopRtoTimer s))) (tcpClearTimers s) :=
    .cancel .linger rfl fun d => by cases d <;> rfl
  exact (((tcpStopRtoTimer_cancels s).trans delack).trans keepalive).trans linger

theorem tcpRtt_cancels (s : Conn) : Cancels s (tcpRtt s) := by
  unfold tcpRtt
  split
  · exact .refl s
  · split
    · exact .refl s
    · dsimp only
      split <;> exact .of_eq rfl rfl

theorem tcpCleanRtoQueue_cancels (s : Conn) (una : UInt32) : Cancels s (tcpCleanRtoQueue s una) := by
  obtain ⟨freed, cleaned⟩ := cleanLoop_conn una s s.tsk.writeQueue
  unfold tcpCleanRtoQueue
  dsimp only
  rw [cleaned]
  split
  · exact (tcpStopRtoTimer_cancels _).after (.of_eq rfl rfl)
  · exact .of_eq rfl rfl

theorem inputNewAck_cancels (s : Conn) (th : TcpHdr) : Cancels s (inputNewAck s th).1 := by
  rw [inputNewAck_fst]
  split
  · have moved : Cancels s { s with tsk.tcb.sndUna := th.ackSeq } := .of_eq rfl rfl
    exact (moved.trans (tcpRtt_cancels _)).trans (tcpCleanRtoQueue_cancels _ _)
  · exact .refl s

theorem inputAck_cancels (s : Conn) (th : TcpHdr) : Cancels s (inputAck s th).1 := by
  unfold inputAck
  split
  · split
    · have opened : Cancels s (setState s .established) := .of_eq rfl rfl
      exact opened.trans (inputNewAck_cancels _ th)
    · exact .refl s
  iterate 6 exact inputNewAck_cancels s th
  exact .refl s

theorem inputFinAcked_cancels (s : Conn) (th : TcpHdr) : Cancels s (inputFinAcked s th) := by
  unfold inputFinAcked
  split
  · split
    · exact .of_eq rfl rfl
    · exact .of_eq rfl rfl
    · split
      · exact (Cancels.of_minor (tcpSendAck_minor _)).after (.of_eq rfl rfl)
      · exact .refl s
    · exact .refl s
  · exact .refl s

theorem tcpDataQueue_cancels (s : Conn) (skb : SkBuff) : Cancels s (tcpDataQueue s skb).1 := by
  unfold tcpDataQueue
  split
  · exact .of_minor (freeSkb_minor s skb)
  · split
    · exact .of_eq rfl rfl
    · dsimp only
      refine Cancels.trans ?_ (.of_minor (tcpSendAck_minor _))
      split
      · exact (Cancels.of_minor (tcpCalculateSacks_minor { s with
          tsk.ofoQueue := (tcpDataInsertOrdered s.tsk.ofoQueue skb).1 })).after (.of_eq rfl rfl)
      · exact .of_eq rfl rfl

theorem inputText_cancels (s : Conn) (th : TcpHdr) (skb : SkBuff) :
    Cancels s (inputText s th skb).1 := by
  unfold inputText
  split
  iterate 3 (split; exact tcpDataQueue_cancels s skb; exact .refl s)
  exact .refl s

/- Where `tcp_enter_time_wait` has run, the timers are right if it could find them all. -/
theorem tcpEnterTimeWait_timed (cancels : Cancels s u) :
    Timed (tcpEnterTimeWait u) ↔ Clearable s := by
  have marked : Cancels u (setState u .timeWait) := .of_eq rfl rfl
  have cleared := (cancels.trans marked).trans (tcpClearTimers_cancels _)
  have none := tcpClearTimers_slots (setState u .timeWait)
  unfold tcpEnterTimeWait
  generalize tcpClearTimers (setState u .timeWait) = v at cleared none
  have grown : ∀ a, a ∈ alarms (addLinger v TCP_2MSL .tcpLinger).ts ↔
      a ∈ alarms v.ts ∨ a = ⟨v.ts.next, v.ts.tick + TCP_2MSL, .tcpLinger⟩ := by
    intro a
    show a ∈ alarms (timerAdd v.ts TCP_2MSL .tcpLinger).1 ↔ _
    rw [alarms_add, List.mem_append, List.mem_singleton]
  have threads : (addLinger v TCP_2MSL .tcpLinger).ts.threads = s.ts.threads := cleared.threads
  constructor
  · intro timed
    refine ⟨fun a member onSock => ?_, threads ▸ timed.user⟩
    by_cases held : ∃ c, s.tsk.slot c = some a.id
    · obtain ⟨c, held⟩ := held
      exact .inr ⟨c, by cases c <;> decide, held⟩
    · refine .inl (timed.armed a ((grown a).mpr (.inl ?_)) onSock)
      exact (cleared.alarms a).mpr ⟨member, fun ⟨c, here, _⟩ => held ⟨c, here⟩⟩
  · rintro ⟨found, user⟩
    refine ⟨.inl ⟨_, (grown _).mpr (.inr rfl), rfl, rfl⟩, fun a member onSock => ?_, threads ▸ user⟩
    rcases (grown a).mp member with old | rfl
    · obtain ⟨before, kept⟩ := (cleared.alarms a).mp old
      rcases found a before onSock with linger | ⟨c, -, held⟩
      · exact linger
      · exact absurd ⟨c, held, none c⟩ kept
    · rfl

theorem Timed.minor (timed : Timed s) (h : Minor s t) : Timed t := by
  obtain ⟨linger, armed, user⟩ := timed
  unfold LingerTimed at linger
  rw [← h.same.ts] at linger armed user
  rw [← h.same.linger] at linger
  exact ⟨linger, armed, user⟩

theorem timed_minor_iff (h : Minor s t) : Timed t ↔ Timed s := by
  refine ⟨fun timed => ?_, fun timed => timed.minor h⟩
  obtain ⟨linger, armed, user⟩ := timed
  unfold LingerTimed at linger
  rw [h.same.ts] at linger armed user
  rw [h.same.linger] at linger
  exact ⟨linger, armed, user⟩

/-! ### Arriving segments -/

variable {th : TcpHdr} {skb : SkBuff}

/- The ACK takes everything off the write queue. -/
theorem inputAck_empties (takes : s.tsk.state.takesAck = true) :
    (inputAck s th).1.tsk.writeQueue = [] ↔ AcksAll s th := by
  rw [inputAck_takes takes, inputNewAck_fst]
  unfold AcksAll
  by_cases new : AckNew s th
  · rw [if_pos new, tcpCleanRtoQueue_queue, (tcpRtt_send _).writeQueue, List.dropWhile_eq_nil_iff]
    simp [new]
  · rw [if_neg new]
    simp [new, List.eq_nil_iff_forall_not_mem]

/- The FIN that ends the wait in FIN_WAIT_2, or in FIN_WAIT_1 with the ACK of our own. -/
structure LastFin (s : Conn) (th : TcpHdr) (skb : SkBuff) : Prop where
  passes : Passes s th skb
  fin : th.fin = true
  next : th.seq = s.tsk.tcb.rcvNxt
  acked : s.tsk.state = .finWait2 ∨ s.tsk.state = .finWait1 ∧ AcksAll s th

theorem LastFin.takes (last : LastFin s th skb) : s.tsk.state.takesAck = true := by
  rcases last.acked with waits | ⟨waits, -⟩
  · rw [waits]; rfl
  · rw [waits]; rfl

theorem LastFin.opened (last : LastFin s th skb) :
    (inputFinAcked (inputAck s th).1 th).tsk.state = .finWait2 := by
  have state : (inputAck s th).1.tsk.state = s.tsk.state := by
    rw [inputAck_takes last.takes]
    exact (inputNewAck_stays s th).state
  rcases last.acked with waits | ⟨waits, all⟩
  · unfold inputFinAcked
    rw [state, waits]
    split <;> exact state.trans waits
  · have empty := (inputAck_empties last.takes).mpr all
    unfold inputFinAcked
    rw [state, waits, empty]
    rfl

theorem LastFin.timed (last : LastFin s th skb) (here : skb.seq = th.seq) :
    (inputTail (inputFinAcked (inputAck s th).1 th) th skb).tsk.state = .timeWait ∧
      (inputTail (inputFinAcked (inputAck s th).1 th) th skb).ended = s.ended ∧
      (Timed (inputTail (inputFinAcked (inputAck s th).1 th) th skb) ↔ Clearable s) := by
  have taken := inputAck_cancels s th
  have opened := last.opened
  have next : (inputFinAcked (inputAck s th).1 th).tsk.tcb.rcvNxt = s.tsk.tcb.rcvNxt :=
    inputFinAcked_rcvNxt.trans (inputAck_rcvNxt s th)
  have before : (inputFinAcked (inputAck s th).1 th).ended = s.ended :=
    (inputFinAcked_ended _ th).trans (inputAck_moves s th).2
  have cancels := taken.trans (inputFinAcked_cancels _ th)
  generalize inputFinAcked (inputAck s th).1 th = u at opened next before cancels
  have expected : (th.fin && decide (skb.seq = u.tsk.tcb.rcvNxt)) = true := by
    simp [last.fin, here, next, last.next]
  obtain ⟨moved, ended⟩ := inputTail_moves u th skb
  rw [if_pos expected, opened] at moved
  refine ⟨moved, ended.trans before, ?_⟩
  have text := inputText_cancels u th skb
  have stays := inputText_stays u th skb
  unfold inputTail
  dsimp only
  rw [timed_minor_iff (freeSkb_minor _ _)]
  generalize (inputText u th skb).1 = v at text stays
  have finished : ∃ w, Cancels s w ∧ inputTextFin v th (decide (skb.seq = u.tsk.tcb.rcvNxt)) =
      tcpEnterTimeWait w := by
    have acked := ((pollReadable_minor { v with
      tsk.tcb.rcvNxt := v.tsk.tcb.rcvNxt + 1, tsk.flags := v.tsk.flags ||| TCP_FIN }).trans
      (tcpSendAck_minor _)).trans (recvNotify_minor _)
    have numbered : Cancels v { v with
      tsk.tcb.rcvNxt := v.tsk.tcb.rcvNxt + 1, tsk.flags := v.tsk.flags ||| TCP_FIN } := .of_eq rfl rfl
    refine ⟨_, ((cancels.trans text).trans numbered).trans (.of_minor acked), ?_⟩
    have state := acked.same.state.trans (stays.state.trans opened)
    unfold inputTextFin inputFin
    rw [if_pos expected]
    dsimp only
    rw [state]
  obtain ⟨w, early, eq⟩ := finished
  rw [eq]
  have still : inputExpected (tcpEnterTimeWait w) th skb (decide (skb.seq = u.tsk.tcb.rcvNxt)) =
      tcpEnterTimeWait w := rfl
  rw [still]
  exact tcpEnterTimeWait_timed early

theorem tcpInputState_checked (checked : s.tsk.state.synchronizes = true) :
    tcpInputState s th skb = inputOtherwise s th skb := by
  unfold tcpInputState
  cases at_state : s.tsk.state <;> simp_all [TcpState.synchronizes]

theorem inputOtherwise_passes (passes : Passes s th skb) :
    inputOtherwise s th skb = inputTail (inputFinAcked (inputAck s th).1 th) th skb := by
  refine inputOtherwise_cases (motive := fun u => u = _) s th skb ?_ ?_ ?_ ?_ ?_ fun _ _ _ _ _ _ => rfl
  · intro refused
    rw [passes.verified] at refused
    cases refused
  · intro _ rst
    rw [passes.rst] at rst
    cases rst
  · intro _ _ flags
    rw [passes.syn, passes.ack] at flags
    simp at flags
  · intro _ _ _ _ refused
    rw [passes.valid] at refused
    cases refused
  · intro _ _ _ _ _ last none
    exact absurd none (passes.queued last)

/- A RST in the window. -/
theorem inputOtherwise_reset (verified : tcpVerifySegment s.tsk th skb = true) (rst : th.rst = true) :
    inputOtherwise s th skb = recvNotify (tcpEnterTimeWait (freeSkb s skb)) := by
  unfold inputOtherwise
  simp [verified, rst]

/- The ACK of the FIN in CLOSING. -/
theorem inputFinAcked_closing (waits : s.tsk.state = .closing) (all : AcksAll s th) :
    (inputFinAcked (inputAck s th).1 th).tsk.state = .timeWait := by
  have takes : s.tsk.state.takesAck = true := by rw [waits]; rfl
  have empty := (inputAck_empties takes).mpr all
  have state : (inputAck s th).1.tsk.state = s.tsk.state := by
    rw [inputAck_takes takes]
    exact (inputNewAck_stays s th).state
  unfold inputFinAcked
  rw [state, waits, empty]
  rfl

/- The state the ACK of everything leads to; `empty` is emptiness of the write queue. -/
def TcpState.afterAck (empty : Bool) : TcpState → TcpState
  | .finWait1 => if empty then .finWait2 else .finWait1
  | .closing => if empty then .timeWait else .closing
  | a => a

theorem inputFinAcked_moves : (inputFinAcked s th).tsk.state =
    s.tsk.state.afterAck (skbQueueEmpty s.tsk.writeQueue) := by
  unfold inputFinAcked
  split
  · rename_i none
    rw [none]
    split
    · rename_i at_state
      rw [at_state]
      rfl
    · rename_i at_state
      rw [at_state]
      rfl
    · rename_i at_state
      rw [at_state]
      split
      · exact (tcpSendAck_minor _).same.state.trans at_state
      · exact at_state
    · cases other : s.tsk.state <;> simp_all [TcpState.afterAck]
  · rename_i some_left
    rw [Bool.eq_false_iff.mpr some_left]
    cases other : s.tsk.state <;> simp [TcpState.afterAck]

theorem TcpState.timeWait_afterAck : ∀ (empty : Bool) (a : TcpState), a ≠ .timeWait →
    a.afterAck empty = .timeWait → a = .closing ∧ empty = true := by
  decide

theorem TcpState.timeWait_afterFin : ∀ (empty : Bool) (a : TcpState), a ≠ .timeWait →
    (a.afterAck empty).afterFin empty = .timeWait →
    (a = .closing ∧ empty = true) ∨ a = .finWait2 ∨ (a = .finWait1 ∧ empty = true) := by
  decide

/-- A segment that leads to TIME_WAIT and does not end the connection is one of those. -/
theorem tcpInputState_enters (before : s.tsk.state ≠ .timeWait) (here : skb.seq = th.seq) :
    (tcpInputState s th skb).tsk.state = .timeWait → Ended (tcpInputState s th skb) ∨
      (s.tsk.state = .closing ∧ Passes s th skb ∧ AcksAll s th) ∨
      (s.tsk.state.synchronizes = true ∧ ((tcpVerifySegment s.tsk th skb = true ∧ th.rst = true) ∨
        LastFin s th skb)) := by
  have still : ∀ u : Conn, u.tsk.state = s.tsk.state → u.tsk.state = .timeWait → False :=
    fun u same now => before (same.symm.trans now)
  have free : ∀ u : Conn, (freeSkb u skb).tsk.state = u.tsk.state :=
    fun u => (freeSkb_minor u skb).same.state
  by_cases checked : s.tsk.state.synchronizes = true
  · rw [tcpInputState_checked checked]
    refine inputOtherwise_cases (motive := fun u => u.tsk.state = .timeWait → Ended u ∨ _) s th skb
      ?_ ?_ ?_ ?_ ?_ ?_
    · intro _ now
      refine absurd now (still _ ((free _).trans ?_))
      split
      · rfl
      · exact (tcpSendAck_minor s).same.state
    · intro verified rst _
      exact .inr (.inr ⟨checked, .inl ⟨verified, rst⟩⟩)
    · intro _ _ _ now
      exact absurd now (still _ (free s))
    · intro _ _ _ _ _ now
      rw [free] at now
      rcases (inputAck_moves s th).1 with same | ⟨-, opened⟩
      · exact absurd now (still _ same)
      · rw [opened] at now
        cases now
    · intro _ _ _ _ _ _ _ _
      exact .inl (tcpDone_ended _)
    · intro verified rst syn ack valid queued now
      have passes : Passes s th skb := ⟨verified, rst, syn, ack, valid, queued⟩
      have next : (inputFinAcked (inputAck s th).1 th).tsk.tcb.rcvNxt = s.tsk.tcb.rcvNxt :=
        inputFinAcked_rcvNxt.trans (inputAck_rcvNxt s th)
      have queue := (inputFinAcked_send (inputAck s th).1 th).writeQueue
      rw [(inputTail_moves _ th skb).1, inputFinAcked_moves, next, queue, here] at now
      have came : ∀ a, (inputAck s th).1.tsk.state = a → a ≠ .established → s.tsk.state = a := by
        intro a state opened
        rcases (inputAck_moves s th).1 with same | ⟨-, moved⟩
        · exact same.symm.trans state
        · exact absurd (state.symm.trans moved) opened
      have other : (inputAck s th).1.tsk.state ≠ .timeWait := by
        intro waits
        exact before (came .timeWait waits (by decide))
      have empties : s.tsk.state.takesAck = true →
          skbQueueEmpty (inputAck s th).1.tsk.writeQueue = true → AcksAll s th := by
        intro takes none
        exact (inputAck_empties takes).mp (by simpa [skbQueueEmpty] using none)
      have closes : (inputAck s th).1.tsk.state = .closing →
          skbQueueEmpty (inputAck s th).1.tsk.writeQueue = true →
          s.tsk.state = .closing ∧ Passes s th skb ∧ AcksAll s th := by
        intro closing none
        have waits := came .closing closing (by decide)
        exact ⟨waits, passes, empties (by rw [waits]; rfl) none⟩
      by_cases last : (th.fin && decide (th.seq = s.tsk.tcb.rcvNxt)) = true
      · rw [if_pos last] at now
        simp only [Bool.and_eq_true, decide_eq_true_eq] at last
        rcases TcpState.timeWait_afterFin _ _ other now with ⟨closing, none⟩ | waits | ⟨waits, none⟩
        · exact .inr (.inl (closes closing none))
        · exact .inr (.inr ⟨checked, .inr ⟨passes, last.1, last.2,
            .inl (came .finWait2 waits (by decide))⟩⟩)
        · have first := came .finWait1 waits (by decide)
          exact .inr (.inr ⟨checked, .inr ⟨passes, last.1, last.2,
            .inr ⟨first, empties (by rw [first]; rfl) none⟩⟩⟩)
      · rw [if_neg last] at now
        obtain ⟨closing, none⟩ := TcpState.timeWait_afterAck _ _ other now
        exact .inr (.inl (closes closing none))
  · unfold tcpInputState
    split
    · rename_i at_state
      unfold tcpClosed
      split
      · exact fun now => absurd now (still _ (free s))
      · exact fun now => absurd now (still _ ((free _).trans (tcpSendReset_stays s).state))
    · exact fun now => absurd now (still _ (free s))
    · rename_i at_state
      refine tcpSynsent_cases (P := fun u => u.tsk.state = .timeWait → Ended u ∨ _) ?_ ?_ ?_
      · exact fun now => absurd now (still _ (free s))
      · intro _ _ now
        rw [free] at now
        have done : (tcpReset s).tsk.state = .closing := by
          unfold tcpReset
          simp only [at_state]
          exact tcpDone_state
        rw [done] at now
        cases now
      · intro _ now
        rw [free] at now
        rcases (synsentSyn_state s th).1 with opened | half
        · rw [opened] at now
          cases now
        · rw [half] at now
          cases now
    · rename_i at_state
      exact absurd (by cases other : s.tsk.state <;> simp_all [TcpState.synchronizes]) checked

/-! ### In TIME_WAIT -/

/- The armed timers, the handlers that wait to run and the linger field are as before. -/
structure Rests (s t : Conn) : Prop where
  alarms : alarms t.ts = alarms s.ts
  threads : t.ts.threads = s.ts.threads
  linger : t.tsk.linger = s.tsk.linger
  stays : Stays s t

namespace Rests

theorem of_minor (h : Minor s t) : Rests s t :=
  ⟨by rw [h.same.ts], by rw [h.same.ts], h.same.linger, .of_minor h⟩

theorem refl (s : Conn) : Rests s s := ⟨rfl, rfl, rfl, .refl s⟩

theorem trans (first : Rests s t) (second : Rests t u) : Rests s u :=
  ⟨second.alarms.trans first.alarms, second.threads.trans first.threads,
    second.linger.trans first.linger, first.stays.trans second.stays⟩

theorem of_idle (h : Idle s t) : Rests s t := by
  have ts : t.ts = s.ts := congrArg (·.ts) h
  exact ⟨by rw [ts], by rw [ts], congrArg (·.tsk.linger) h, h.stays⟩

theorem lingering (h : Rests s t) (lingers : Lingering s) : Lingering t := by
  obtain ⟨waits, going⟩ := lingers
  refine ⟨h.stays.state.trans waits, ?_⟩
  unfold Ended
  rw [h.stays.ended]
  exact going

theorem timed (h : Rests s t) (timed : Timed s) : Timed t := by
  obtain ⟨linger, armed, user⟩ := timed
  unfold LingerTimed at linger
  rw [← h.alarms, ← h.threads, ← h.linger] at linger
  rw [← h.alarms] at armed
  rw [← h.threads] at user
  exact ⟨linger, armed, user⟩

end Rests

theorem inputTail_rests (th : TcpHdr) (skb : SkBuff) (waits : s.tsk.state = .timeWait) : Rests s (inputTail s th skb) := by
  have text : inputText s th skb = (s, skb) := by
    unfold inputText
    rw [waits]
  have fin : ∀ expected, Rests s (inputTextFin s th expected) := by
    intro expected
    unfold inputTextFin inputFin
    split
    · have acked := ((pollReadable_minor { s with
        tsk.tcb.rcvNxt := s.tsk.tcb.rcvNxt + 1, tsk.flags := s.tsk.flags ||| TCP_FIN }).trans
        (tcpSendAck_minor _)).trans (recvNotify_minor _)
      have state := acked.same.state.trans waits
      have numbered : Rests s { s with
        tsk.tcb.rcvNxt := s.tsk.tcb.rcvNxt + 1, tsk.flags := s.tsk.flags ||| TCP_FIN } :=
        ⟨rfl, rfl, rfl, rfl, rfl⟩
      dsimp only
      rw [state]
      exact numbered.trans (.of_minor acked)
    · exact .refl s
  unfold inputTail
  rw [text]
  refine Rests.trans ?_ (.of_minor (freeSkb_minor _ _))
  refine (fin (decide (skb.seq = s.tsk.tcb.rcvNxt))).trans ?_
  have state := (fin (decide (skb.seq = s.tsk.tcb.rcvNxt))).stays.state.trans waits
  unfold inputExpected
  rw [state]
  exact .refl _

theorem inputOtherwise_rests (waits : s.tsk.state = .timeWait)
    (plain : ¬(tcpVerifySegment s.tsk th skb = true ∧ th.rst = true)) :
    Rests s (inputOtherwise s th skb) := by
  have passive : inputAck s th = (s, true) := by
    unfold inputAck
    rw [waits]
  refine inputOtherwise_cases s th skb ?_ ?_ ?_ ?_ ?_ ?_
  · intro _
    refine Rests.trans ?_ (.of_minor (freeSkb_minor _ _))
    split
    · exact .refl s
    · exact .of_minor (tcpSendAck_minor s)
  · intro verified rst
    exact absurd ⟨verified, rst⟩ plain
  · intro _ _ _
    exact .of_minor (freeSkb_minor s skb)
  · intro _ _ _ _ refused
    rw [passive] at refused
    cases refused
  · intro _ _ _ _ _ last
    rw [passive, waits] at last
    cases last
  · intro _ _ _ _ _ _
    rw [passive]
    have acked : Rests s (inputFinAcked s th) := by
      have flagged : Rests s { s with tsk.flags := s.tsk.flags ||| TCP_FIN } := ⟨rfl, rfl, rfl, rfl, rfl⟩
      unfold inputFinAcked
      split
      · split
        · rename_i at_state
          rw [waits] at at_state
          cases at_state
        · rename_i at_state
          rw [waits] at at_state
          cases at_state
        · split
          · exact flagged.trans (.of_minor (tcpSendAck_minor _))
          · exact .refl s
        · exact .refl s
      · exact .refl s
    exact acked.trans (inputTail_rests th skb (acked.stays.state.trans waits))

theorem receiveLoop_rests (waits : s.tsk.state = .timeWait) (len rlen : Nat) :
    Rests s (receiveLoop s len rlen).1 := by
  have returns : ∀ (u : Conn) (rc : Int), u.tsk.state = .timeWait → Rests u (receiveReturn u rc).1 := by
    intro u rc waits
    unfold receiveReturn tcpRearmUserTimeout
    rw [if_pos waits]
    dsimp only
    split <;> exact .refl u
  have dequeued : Rests s (tcpDataDequeue s (len - rlen)).1 := by
    obtain ⟨freed, flags, eq⟩ := dequeueLoop_touches s (len - rlen) s.tsk.receiveQueue
    unfold tcpDataDequeue
    dsimp only
    rw [eq]
    split <;> exact ⟨rfl, rfl, rfl, rfl, rfl⟩
  have still := dequeued.stays.state.trans waits
  unfold receiveLoop
  dsimp only
  split
  · split
    · have pushed : Rests (tcpDataDequeue s (len - rlen)).1 { (tcpDataDequeue s (len - rlen)).1 with
          tsk.flags := (tcpDataDequeue s (len - rlen)).1.tsk.flags &&& ~~~TCP_PSH } :=
        ⟨rfl, rfl, rfl, rfl, rfl⟩
      exact (dequeued.trans pushed).trans (returns _ _ still)
    · split
      · exact dequeued.trans (returns _ _ still)
      · split
        · exact dequeued.trans (returns _ _ still)
        · exact dequeued.trans ⟨rfl, rfl, rfl, rfl, rfl⟩
  · exact returns s _ waits

/- Of the handlers that wait, one that is not `tcp_linger` leaves. -/
theorem Timed.started {i : Nat} {h : Thread Handler} (timed : Timed s)
    (found : s.ts.threads[i]? = some h) (other : h.handler ≠ .tcpLinger) : Timed (started s i) := by
  refine ⟨?_, timed.armed, fun k member => timed.user k (List.mem_of_mem_eraseIdx member)⟩
  rcases timed.linger with armed | ⟨k, member, held, linger⟩
  · exact .inl armed
  · refine .inr ⟨k, ?_, held, linger⟩
    obtain ⟨j, at_j⟩ := List.mem_iff_getElem?.mp member
    refine List.mem_eraseIdx_iff_getElem?.mpr ⟨j, ?_, at_j⟩
    rintro rfl
    rw [found] at at_j
    obtain rfl := Option.some.inj at_j
    exact other linger

/- A turn of the clock starts the 2MSL timer's handler at most. -/
theorem Timed.tick (timed : Timed s) (busy : List Nat) :
    Timed { s with ts := timersStart s.ts busy } := by
  refine ⟨?_, fun a member => timed.armed a (tick_alarms s.ts member), fun h member => ?_⟩
  · rcases timed.linger with ⟨a, member, held, linger⟩ | ⟨h, member, held, linger⟩
    · rcases tick_keeps s.ts member busy with armed | ⟨h, member, timer, handler⟩
      · exact .inl ⟨a, armed, held, linger⟩
      · exact .inr ⟨h, member, held.trans (congrArg some timer.symm), handler.trans linger⟩
    · exact .inr ⟨h, tick_threads s.ts member busy, held, linger⟩
  · change h ∈ (timersTick { s.ts with tick := s.ts.tick + 10 } busy).threads at member
    rw [threads_tick] at member
    rcases List.mem_append.mp member with old | fired
    · exact timed.user h old
    · obtain ⟨a, due, rfl⟩ := List.mem_map.mp fired
      intro user
      have handler : a.handler = .tcpUserTimeout := user
      have linger := timed.armed a (List.mem_filter.mp due).1 (by rw [handler]; rfl)
      rw [handler] at linger
      cases linger

/- A retransmission handler that finds the queue empty, and the other handlers of the sock that do not
   end the connection. -/
theorem tcpRetransmissionTimeout_rests (empty : s.tsk.writeQueue = []) :
    Rests s (tcpRetransmissionTimeout s) := by
  have released : Rests s { tcpReleaseRtoTimer s with tsk.backoff := 0 } := by
    refine ⟨alarms_release _ _, ?_, rfl, rfl, rfl⟩
    show (timerRelease s.ts s.tsk.retransmit).threads = s.ts.threads
    cases s.tsk.retransmit <;> rfl
  unfold tcpRetransmissionTimeout
  have none : skbPeek (tcpReleaseRtoTimer s).tsk.writeQueue = none := by
    show s.tsk.writeQueue.head? = none
    rw [empty]
    rfl
  dsimp only
  rw [none]
  exact released.trans (.of_minor (tcpNotifyUser_minor _))

theorem tcpConnectRto_rests (waits : s.tsk.state = .timeWait) : Rests s (tcpConnectRto s) := by
  unfold tcpConnectRto
  have state : (tcpReleaseRtoTimer s).tsk.state = .timeWait := waits
  dsimp only
  rw [if_neg (by rw [state]; decide)]
  refine ⟨alarms_release _ _, ?_, rfl, rfl, rfl⟩
  show (timerRelease s.ts s.tsk.retransmit).threads = s.ts.threads
  cases s.tsk.retransmit <;> rfl

theorem tcpSendDelack_rests (s : Conn) : Rests s (tcpSendDelack s) := by
  refine Rests.trans ?_ (.of_minor (tcpSendAck_minor _))
  refine ⟨alarms_release _ _, ?_, rfl, rfl, rfl⟩
  show (timerRelease s.ts s.tsk.delack).threads = s.ts.threads
  cases s.tsk.delack <;> rfl

theorem socketFree_rests (s : Conn) : Rests s (socketFree s) := by
  obtain ⟨freed, eq⟩ := socketFree_eq s
  rw [eq]
  exact ⟨rfl, rfl, rfl, rfl, rfl⟩

/- What the event leaves of a connection that was in TIME_WAIT with its timer. -/
def Outlasts (s : Conn) (e : Event) (t : Conn) : Prop :=
  (Lingering t ∧ Timed t) ∨ (Ended t ∧ EndsByLinger s e)

theorem Outlasts.rests {e : Event} (h : Rests t u) (outlasts : Outlasts s e t) :
    Outlasts s e u := by
  rcases outlasts with ⟨lingers, timed⟩ | ⟨dead, linger⟩
  · exact .inl ⟨h.lingering lingers, h.timed timed⟩
  · exact .inr ⟨h.stays.ended.trans dead, linger⟩

theorem Timed.clearable (timed : Timed s) : Clearable s :=
  ⟨fun a member onSock => .inl (timed.armed a member onSock), timed.user⟩

theorem runHandler_outlasts {i : Nat} {h : Thread Handler} (lingers : Lingering s) (timed : Timed s)
    (found : s.ts.threads[i]? = some h) (right : ¬Untimes s (.handler i)) :
    Outlasts s (.handler i) (runHandler (started s i) h.handler) := by
  have waits : (socketWrAcquire (started s i)).tsk.state = .timeWait := lingers.1
  have rest : h.handler ≠ .tcpLinger → Outlasts s (.handler i) (socketWrAcquire (started s i)) :=
    fun other => .inl ⟨lingers, (timed.started found other).minor (socketWrAcquire_minor _)⟩
  have release : ∀ u, Rests u (socketRelease u) := fun u => .of_minor (socketRelease_minor u)
  unfold runHandler
  cases timer : h.handler with
  | tcpConnectRto =>
    refine Outlasts.rests ?_ (rest (by rw [timer]; decide))
    exact (tcpConnectRto_rests waits).trans (release _)
  | tcpRetransmissionTimeout =>
    refine Outlasts.rests ?_ (rest (by rw [timer]; decide))
    refine (tcpRetransmissionTimeout_rests ?_).trans (release _)
    show s.tsk.writeQueue = []
    by_contra left
    exact right ⟨lingers.2, .inr (.inr ⟨lingers.1, left, h, found, timer⟩)⟩
  | tcpSendDelack =>
    refine Outlasts.rests ?_ (rest (by rw [timer]; decide))
    exact (tcpSendDelack_rests _).trans (release _)
  | tcpLinger => exact .inr ⟨tcpDone_ended _, h, found, timer⟩
  | tcpUserTimeout => exact absurd timer (timed.user h (List.mem_of_getElem? found))
  | socketGarbageCollect =>
    have bare : Outlasts s (.handler i) (started s i) :=
      .inl ⟨lingers, timed.started found (by rw [timer]; decide)⟩
    unfold socketGarbageCollect
    dsimp only
    split
    · exact bare.rests (socketFree_rests _)
    · exact bare

/- The segments of the first kind, as events. -/
theorem exec_enters_timed {e : Event} {r : Reply} (enters : EntersTimeWait s e)
    (taken : exec s e = some (t, r)) :
    t.tsk.state = .timeWait ∧ t.ended = s.ended ∧ (Timed t ↔ Clearable s) := by
  cases e with
  | segment th payload =>
    obtain ⟨checked, kind⟩ := enters
    have arrived : Cancels s (arriving s th payload) := .of_eq rfl rfl
    have clearable : Clearable (arriving s th payload) ↔ Clearable s := Iff.rfl
    have arrived' : (arriving s th payload).tsk.state.synchronizes = true := checked
    simp only [exec] at taken
    split at taken
    · obtain ⟨rfl, -⟩ := by simpa using taken
      have release := socketRelease_minor (tcpInputState (arriving s th payload) th
        (tcpInitSegment s th payload).2)
      have done : (tcpInputState (arriving s th payload) th (tcpInitSegment s th payload).2).tsk.state =
            .timeWait ∧ (tcpInputState (arriving s th payload) th
              (tcpInitSegment s th payload).2).ended = s.ended ∧
          (Timed (tcpInputState (arriving s th payload) th (tcpInitSegment s th payload).2) ↔
            Clearable s) := by
        rw [tcpInputState_checked arrived']
        rcases kind with ⟨verified, rst⟩ | ⟨passes, fin, next, acked⟩
        · rw [inputOtherwise_reset (s := arriving s th payload) verified rst]
          have dropped := freeSkb_minor (arriving s th payload) (tcpInitSegment s th payload).2
          refine ⟨rfl, dropped.same.ended, ?_⟩
          rw [timed_minor_iff (recvNotify_minor _), ← clearable]
          exact tcpEnterTimeWait_timed (.of_minor dropped)
        · have last : LastFin (arriving s th payload) th (tcpInitSegment s th payload).2 :=
            ⟨passes, fin, next, acked⟩
          rw [inputOtherwise_passes passes]
          obtain ⟨state, ended, timed⟩ := last.timed rfl
          exact ⟨state, ended, timed.trans clearable⟩
      refine ⟨release.same.state.trans done.1, release.same.ended.trans done.2.1, ?_⟩
      exact (timed_minor_iff release).trans done.2.2
    · contradiction
  | _ => exact absurd enters id

/-- A connection in TIME_WAIT with its timer stays so, or is ended by `tcp_linger` or the application. -/
theorem exec_outlasts {e : Event} {r : Reply} (lingers : Lingering s) (timed : Timed s)
    (right : ¬Untimes s e) (taken : exec s e = some (t, r)) : Outlasts s e t := by
  by_cases enters : EntersTimeWait s e
  · obtain ⟨state, ended, iff⟩ := exec_enters_timed enters taken
    refine .inl ⟨⟨state, ?_⟩, iff.mpr timed.clearable⟩
    unfold Ended
    rw [ended]
    exact lingers.2
  have rest : Outlasts s e s := .inl ⟨lingers, timed⟩
  have locked : Rests s (socketWrAcquire s) := .of_minor (socketWrAcquire_minor s)
  have waits : (socketWrAcquire s).tsk.state = .timeWait := lingers.1
  refine exec_pass (P := Outlasts s e) (fun u v idle kept => kept.rests (.of_idle idle)) rest taken
    ?free ?tick ?handler ?write ?read ?wake ?close ?abort ?connect ?segment
  case free => exact fun _ u kept => kept.rests (socketFree_rests u)
  case tick => exact fun busy _ => .inl ⟨lingers, timed.tick busy⟩
  case handler =>
    rintro i h rfl found -
    exact runHandler_outlasts lingers timed found right
  case write =>
    intro buf _ _ _
    refine rest.rests (locked.trans ?_)
    unfold tcpWrite
    split
    · exact .refl _
    · rw [waits]
      exact .refl _
  case read =>
    intro len _ _ _
    refine rest.rests (locked.trans ?_)
    unfold tcpRead
    rw [waits]
    exact .refl _
  case wake =>
    intro i b _ _ _ woken
    exact woken.rests (receiveLoop_rests (s := resumed s i) lingers.1 _ _)
  case close =>
    intro _ _ _
    refine rest.rests (locked.trans ?_)
    unfold tcpClose
    rw [waits]
    exact ⟨rfl, rfl, rfl, rfl, rfl⟩
  case abort =>
    rintro rfl _
    exact .inr ⟨tcpDone_ended _, trivial⟩
  case connect =>
    intro _ _ _ _ _ closed _
    rw [lingers.1] at closed
    cases closed
  case segment =>
    rintro th payload rfl _ arrived
    have checked : s.tsk.state.synchronizes = true := by
      rw [lingers.1]
      rfl
    have plain : ¬(tcpVerifySegment s.tsk th (tcpInitSegment s th payload).2 = true ∧ th.rst = true) :=
      fun reset => enters ⟨checked, .inl reset⟩
    show Outlasts s _ (tcpInputState (arriving s th payload) th (tcpInitSegment s th payload).2)
    rw [tcpInputState_checked (s := arriving s th payload) checked]
    exact arrived.rests (inputOtherwise_rests (s := arriving s th payload) lingers.1 plain)

/-! ### Into TIME_WAIT -/

/- In TIME_WAIT only when the connection has ended. -/
def Elsewhere (s : Conn) : Prop := s.tsk.state = .timeWait → Ended s

theorem Elsewhere.stays (h : Stays s t) (elsewhere : Elsewhere s) : Elsewhere t :=
  fun waits => h.ended.trans (elsewhere (h.state.symm.trans waits))

theorem tcpConnectRto_elsewhere (elsewhere : Elsewhere s) : Elsewhere (tcpConnectRto s) := by
  have released : Elsewhere (tcpReleaseRtoTimer s) := elsewhere
  unfold tcpConnectRto
  generalize tcpReleaseRtoTimer s = u at released
  dsimp only
  split
  · split
    · exact fun _ => tcpDone_ended _
    · split
      · exact released
      · rename_i k _
        refine Elsewhere.stays (tcpRearmRtoTimer_stays _) ?_
        exact released.stays ((retransmitHead_stays u k).trans ⟨rfl, rfl⟩)
  · exact released

theorem tcpRetransmissionTimeout_elsewhere (elsewhere : Elsewhere s) :
    Elsewhere (tcpRetransmissionTimeout s) := by
  have released : Elsewhere (tcpReleaseRtoTimer s) := elsewhere
  unfold tcpRetransmissionTimeout
  generalize tcpReleaseRtoTimer s = u at released
  dsimp only
  split
  · exact Elsewhere.stays (.of_minor (tcpNotifyUser_minor _)) released
  · rename_i k _
    have again : Elsewhere (retransmissionBackoff (retransmitHead u k)) :=
      released.stays ((retransmitHead_stays u k).trans ⟨rfl, rfl⟩)
    split
    · exact fun _ => tcpDone_ended (retransmitHead u k)
    · split
      · generalize retransmissionBackoff (retransmitHead u k) = v at again
        unfold tcpHandleFinState
        split
        · exact fun waits => by cases waits
        · exact fun waits => by cases waits
        · exact again
      · exact again

theorem tcpClose_elsewhere (elsewhere : Elsewhere s) : Elsewhere (tcpClose s).1 := by
  unfold tcpClose
  split
  iterate 6 exact elsewhere
  iterate 3 exact fun _ => tcpDone_ended s
  · refine Elsewhere.stays (tcpQueueFin_stays _) fun waits => ?_
    cases waits
  · exact elsewhere.stays (tcpQueueFin_stays s)

theorem runHandler_elsewhere (elsewhere : Elsewhere s) (h : Handler) : Elsewhere (runHandler s h) := by
  have locked : Elsewhere (socketWrAcquire s) := elsewhere
  unfold runHandler
  cases h with
  | tcpConnectRto => exact tcpConnectRto_elsewhere locked
  | tcpRetransmissionTimeout => exact tcpRetransmissionTimeout_elsewhere locked
  | tcpSendDelack =>
    show Elsewhere (tcpSendDelack (socketWrAcquire s))
    exact locked.stays (tcpSendDelack_rests _).stays
  | tcpLinger => exact fun _ => tcpDone_ended _
  | tcpUserTimeout => exact fun _ => tcpDone_ended _
  | socketGarbageCollect =>
    unfold socketGarbageCollect
    dsimp only
    split
    · exact elsewhere.stays (socketFree_rests s).stays
    · exact elsewhere

/-- A step that leads to TIME_WAIT and does not end the connection is one of those segments. -/
theorem exec_enters {e : Event} {r : Reply} (before : s.tsk.state ≠ .timeWait)
    (taken : exec s e = some (t, r)) (now : t.tsk.state = .timeWait) :
    Ended t ∨ ClosingAcked s e ∨ EntersTimeWait s e := by
  have stays : ∀ {u v : Conn}, Stays u v →
      (u.tsk.state = .timeWait → Ended u ∨ ClosingAcked s e ∨ EntersTimeWait s e) →
      v.tsk.state = .timeWait → Ended v ∨ ClosingAcked s e ∨ EntersTimeWait s e := by
    intro u v same kept waits
    rcases kept (same.state.symm.trans waits) with dead | causes
    · exact .inl (same.ended.trans dead)
    · exact .inr causes
  refine exec_pass (P := fun u => u.tsk.state = .timeWait →
    Ended u ∨ ClosingAcked s e ∨ EntersTimeWait s e) ?idle ?start taken ?free ?tick ?handler ?write
    ?read ?wake ?close ?abort ?connect ?segment now
  case idle => exact fun u v idle => stays idle.stays
  case start => exact fun now => absurd now before
  case free => exact fun _ u => stays (socketFree_rests u).stays
  case tick => exact fun _ _ now => absurd now before
  case handler =>
    intro i h _ _ _ now
    exact .inl (runHandler_elsewhere (s := started s i) (fun waits => absurd waits before) h.handler now)
  case write => exact fun buf _ _ => stays (tcpWrite_stays _ buf)
  case read => exact fun len _ _ => stays (tcpRead_stays _ len)
  case wake => exact fun i b _ _ _ => stays (receiveLoop_stays _ _ _)
  case close =>
    intro _ _ _ now
    exact .inl (tcpClose_elsewhere (s := socketWrAcquire s) (fun waits => absurd waits before) now)
  case abort => exact fun _ _ _ => .inl (tcpDone_ended _)
  case connect =>
    intro addr port iss _ _ closed _ now
    have state := (tcpV4Connect_state { socketWrAcquire s with tsk.err := -EISCONN } addr port iss closed).1
    rw [state] at now
    cases now
  case segment =>
    rintro th payload rfl _ arrived now
    rcases tcpInputState_enters (s := arriving s th payload) before rfl now with
      dead | ⟨closing, passes, all⟩ | ⟨checked, reset | last⟩
    · exact .inl dead
    · exact .inr (.inl ⟨closing, passes, all⟩)
    · exact .inr (.inr ⟨checked, .inl reset⟩)
    · exact .inr (.inr ⟨checked, .inr ⟨last.passes, last.fin, last.next, last.acked⟩⟩)

/-! ### After `tcp_done` -/

theorem tcpInputState_ended (s : Conn) (th : TcpHdr) (skb : SkBuff) (dead : Ended s) :
    Ended (tcpInputState s th skb) := by
  have free : ∀ u : Conn, Ended u → Ended (freeSkb u skb) :=
    fun u dead => (freeSkb_minor u skb).same.ended.trans dead
  unfold tcpInputState
  split
  · unfold tcpClosed
    split
    · exact free s dead
    · exact free _ ((tcpSendReset_stays s).ended.trans dead)
  · exact free s dead
  · refine tcpSynsent_cases (free s dead) (fun _ _ => free _ ?_) fun _ => free _ ?_
    · unfold tcpReset
      dsimp only
      split
      · exact tcpDone_ended _
      · exact tcpDone_ended _
      · exact dead
      · exact tcpDone_ended _
    · exact (synsentSyn_state s th).2.trans dead
  · have acked : Ended (inputAck s th).1 := (inputAck_moves s th).2.trans dead
    refine inputOtherwise_cases s th skb ?_ ?_ ?_ ?_ ?_ ?_
    · intro _
      refine free _ ?_
      split
      · exact dead
      · exact (tcpSendAck_minor s).same.ended.trans dead
    · exact fun _ _ => free s dead
    · exact fun _ _ _ => free s dead
    · exact fun _ _ _ _ _ => free _ acked
    · exact fun _ _ _ _ _ _ _ => tcpDone_ended _
    · intro _ _ _ _ _ _
      exact (inputTail_moves _ th skb).2.trans ((inputFinAcked_ended _ th).trans acked)

theorem exec_ended {e : Event} {r : Reply} (dead : Ended s) (taken : exec s e = some (t, r)) :
    Ended t := by
  refine exec_pass (P := Ended) (fun u v idle dead => idle.stays.ended.trans dead) dead taken
    ?free ?tick ?handler ?write ?read ?wake ?close ?abort ?connect ?segment
  case free => exact fun _ u dead => (socketFree_rests u).stays.ended.trans dead
  case tick => exact fun _ _ => dead
  case handler =>
    intro i h _ _ _
    have locked : Ended (socketWrAcquire (started s i)) := dead
    unfold runHandler
    cases h.handler with
    | tcpConnectRto => exact (tcpConnectRto_recv _).ended locked
    | tcpRetransmissionTimeout => exact (tcpRetransmissionTimeout_recv _).ended locked
    | tcpSendDelack => exact (tcpSendDelack_recv _).ended locked
    | tcpLinger => exact tcpDone_ended _
    | tcpUserTimeout => exact tcpDone_ended _
    | socketGarbageCollect =>
      unfold socketGarbageCollect
      dsimp only
      split
      · exact (socketFree_rests _).stays.ended.trans dead
      · exact dead
  case write => exact fun buf _ _ dead => (tcpWrite_recv _ buf).ended dead
  case read => exact fun len _ _ dead => (tcpRead_stays _ len).ended.trans dead
  case wake => exact fun i b _ _ _ dead => (receiveLoop_stays _ _ _).ended.trans dead
  case close => exact fun _ _ dead => (tcpClose_recv _).ended dead
  case abort => exact fun _ _ => tcpDone_ended _
  case connect =>
    intro addr port iss _ _ closed dead
    exact (tcpV4Connect_state { socketWrAcquire s with tsk.err := -EISCONN } addr port iss closed).2.trans
      dead
  case segment => exact fun th payload _ _ dead => tcpInputState_ended _ th _ dead

/-- A connection does not come out of TIME_WAIT but by `tcp_done`. -/
theorem exec_timeWait {e : Event} {r : Reply} (waits : s.tsk.state = .timeWait)
    (taken : exec s e = some (t, r)) : t.tsk.state = .timeWait ∨ Ended t := by
  by_cases enters : EntersTimeWait s e
  · exact .inl (exec_enters_timed enters taken).1
  have stays : ∀ {u v : Conn}, Stays u v → (u.tsk.state = .timeWait ∨ Ended u) →
      v.tsk.state = .timeWait ∨ Ended v :=
    fun h kept => kept.imp h.state.trans h.ended.trans
  refine exec_pass (P := fun u => u.tsk.state = .timeWait ∨ Ended u) (fun u v idle => stays idle.stays)
    (.inl waits) taken ?free ?tick ?handler ?write ?read ?wake ?close ?abort ?connect ?segment
  case free => exact fun _ u => stays (socketFree_rests u).stays
  case tick => exact fun _ _ => .inl waits
  case handler =>
    intro i h _ _ _
    have locked : (socketWrAcquire (started s i)).tsk.state = .timeWait := waits
    unfold runHandler
    cases h.handler with
    | tcpConnectRto => exact .inl ((tcpConnectRto_rests locked).stays.state.trans locked)
    | tcpRetransmissionTimeout =>
      show (tcpRetransmissionTimeout _).tsk.state = _ ∨ Ended (tcpRetransmissionTimeout _)
      unfold tcpRetransmissionTimeout
      dsimp only
      split
      · exact .inl ((tcpNotifyUser_minor _).same.state.trans locked)
      · rename_i k _
        have again := retransmitHead_stays (tcpReleaseRtoTimer (socketWrAcquire (started s i))) k
        split
        · exact .inr (tcpDone_ended _)
        · have still : (retransmissionBackoff (retransmitHead (tcpReleaseRtoTimer
              (socketWrAcquire (started s i))) k)).tsk.state = .timeWait := again.state.trans locked
          refine .inl ?_
          unfold tcpHandleFinState
          split
          · rw [still]
            exact still
          · exact still
    | tcpSendDelack => exact .inl ((tcpSendDelack_rests (socketWrAcquire (started s i))).stays.state.trans locked)
    | tcpLinger => exact .inr (tcpDone_ended _)
    | tcpUserTimeout => exact .inr (tcpDone_ended _)
    | socketGarbageCollect =>
      unfold socketGarbageCollect
      dsimp only
      split
      · exact .inl ((socketFree_rests (started s i)).stays.state.trans waits)
      · exact .inl waits
  case write => exact fun buf _ _ => stays (tcpWrite_stays _ buf)
  case read => exact fun len _ _ => stays (tcpRead_stays _ len)
  case wake => exact fun i b _ _ _ => stays (receiveLoop_stays _ _ _)
  case close =>
    intro _ _ _
    have locked : (socketWrAcquire s).tsk.state = .timeWait := waits
    unfold tcpClose
    rw [locked]
    exact .inl waits
  case abort => exact fun _ _ => .inr (tcpDone_ended _)
  case connect =>
    intro _ _ _ _ _ closed _
    rw [waits] at closed
    cases closed
  case segment =>
    rintro th payload rfl _ _
    have checked : s.tsk.state.synchronizes = true := by
      rw [waits]
      rfl
    have plain : ¬(tcpVerifySegment s.tsk th (tcpInitSegment s th payload).2 = true ∧ th.rst = true) :=
      fun reset => enters ⟨checked, .inl reset⟩
    show (tcpInputState (arriving s th payload) th _).tsk.state = _ ∨ _
    rw [tcpInputState_checked (s := arriving s th payload) checked]
    exact .inl ((inputOtherwise_rests (s := arriving s th payload) waits plain).stays.state.trans waits)

/-! ### Before TIME_WAIT -/

/- No timer of `tcp_linger` is armed or started. -/
def Unlingered (s : Conn) : Prop :=
  (∀ a ∈ alarms s.ts, a.handler ≠ .tcpLinger) ∧ ∀ h ∈ s.ts.threads, h.handler ≠ .tcpLinger

namespace Unlingered

theorem ts (same : t.ts = s.ts) (quiet : Unlingered s) : Unlingered t := by
  unfold Unlingered
  rw [same]
  exact quiet

theorem minor (h : Minor s t) (quiet : Unlingered s) : Unlingered t := quiet.ts h.same.ts

theorem release {i : Option Nat} (same : t.ts = timerRelease s.ts i) (quiet : Unlingered s) :
    Unlingered t := by
  unfold Unlingered
  rw [same, alarms_release]
  cases i <;> exact quiet

theorem cancel {i : Option Nat} (same : t.ts = timerCancel s.ts i) (quiet : Unlingered s) :
    Unlingered t := by
  unfold Unlingered
  rw [same, alarms_cancel]
  refine ⟨fun a member => quiet.1 a (List.mem_filter.mp member).1, ?_⟩
  cases i <;> exact quiet.2

theorem add {expire : UInt32} {handler : Handler} (other : handler ≠ .tcpLinger)
    (same : t.ts = (timerAdd s.ts expire handler).1) (quiet : Unlingered s) : Unlingered t := by
  unfold Unlingered
  rw [same, alarms_add]
  refine ⟨fun a member => ?_, quiet.2⟩
  rcases List.mem_append.mp member with old | new
  · exact quiet.1 a old
  · obtain rfl := List.mem_singleton.mp new
    exact other

end Unlingered

theorem tcpRearmUserTimeout_unlingered (quiet : Unlingered s) : Unlingered (tcpRearmUserTimeout s) := by
  unfold tcpRearmUserTimeout
  split
  · exact quiet
  · have stopped : Unlingered (stopLinger s) := quiet.cancel rfl
    exact stopped.add (by decide) rfl

theorem tcpRearmRtoTimer_unlingered (quiet : Unlingered s) : Unlingered (tcpRearmRtoTimer s) := by
  have released : Unlingered (tcpReleaseRtoTimer s) := quiet.release rfl
  unfold tcpRearmRtoTimer
  dsimp only
  split
  · exact released.add (by decide) rfl
  · exact released.add (by decide) rfl

theorem tcpQueueTransmitSkb_unlingered (skb : SkBuff) (quiet : Unlingered s) :
    Unlingered (tcpQueueTransmitSkb s skb) := by
  have armed : Unlingered (if skbQueueEmpty s.tsk.writeQueue then tcpRearmRtoTimer s else s) := by
    split
    · exact tcpRearmRtoTimer_unlingered quiet
    · exact quiet
  unfold tcpQueueTransmitSkb
  dsimp only
  generalize (if skbQueueEmpty s.tsk.writeQueue then tcpRearmRtoTimer s else s) = u at armed
  split
  · exact armed.ts (tcpTransmitSkb_same u skb u.tsk.tcb.sndNxt).ts
  · exact armed

theorem tcpSendLoop_unlingered (mss fuel : Nat) (buf : List UInt8) (quiet : Unlingered s) :
    Unlingered (tcpSendLoop mss fuel s buf) := by
  induction fuel generalizing s buf with
  | zero => exact quiet
  | succ fuel ih =>
    rw [tcpSendLoop]
    split
    · exact quiet
    · exact ih _ (tcpQueueTransmitSkb_unlingered _ (quiet.minor (tcpAllocSkb_minor s 0 _)))

theorem tcpWrite_unlingered (buf : List UInt8) (quiet : Unlingered s) :
    Unlingered (tcpWrite s buf).1 := by
  have sent : Unlingered (tcpSend s buf) := by
    have taken : Unlingered { s with accepted := s.accepted ++ buf } := quiet
    exact tcpRearmUserTimeout_unlingered (tcpSendLoop_unlingered _ _ _ taken)
  unfold tcpWrite
  split
  · exact quiet
  · split
    · exact sent
    · exact sent
    · exact quiet

theorem tcpQueueFin_unlingered (quiet : Unlingered s) : Unlingered (tcpQueueFin s) := by
  have counted : Unlingered (tcpAllocSkb { s with fins := s.fins + 1 } 0 []).1 := quiet
  exact tcpQueueTransmitSkb_unlingered _ counted

theorem retransmitHead_unlingered (skb : SkBuff) (quiet : Unlingered s) :
    Unlingered (retransmitHead s skb) :=
  quiet.ts (tcpTransmitSkb_same s skb s.tsk.tcb.sndUna).ts

theorem tcpConnectRto_unlingered (quiet : Unlingered s) :
    Ended (tcpConnectRto s) ∨ Unlingered (tcpConnectRto s) := by
  have released : Unlingered (tcpReleaseRtoTimer s) := quiet.release rfl
  unfold tcpConnectRto
  generalize tcpReleaseRtoTimer s = u at released
  dsimp only
  split
  · split
    · exact .inl (tcpDone_ended _)
    · split
      · exact .inr released
      · rename_i k _
        have again : Unlingered { retransmitHead u k with
          tsk.backoff := (retransmitHead u k).tsk.backoff + 1 } := retransmitHead_unlingered k released
        exact .inr (tcpRearmRtoTimer_unlingered again)
  · exact .inr released

theorem tcpRetransmissionTimeout_unlingered (quiet : Unlingered s) :
    Ended (tcpRetransmissionTimeout s) ∨ Unlingered (tcpRetransmissionTimeout s) := by
  have released : Unlingered (tcpReleaseRtoTimer s) := quiet.release rfl
  unfold tcpRetransmissionTimeout
  generalize tcpReleaseRtoTimer s = u at released
  dsimp only
  split
  · have reset : Unlingered { u with tsk.backoff := 0 } := released
    exact .inr (reset.minor (tcpNotifyUser_minor _))
  · rename_i k _
    have again := retransmitHead_unlingered k released
    split
    · exact .inl (tcpDone_ended (retransmitHead u k))
    · have backed : Unlingered (retransmissionBackoff (retransmitHead u k)) :=
        again.add (by decide) rfl
      split
      · refine .inr (backed.ts ?_)
        unfold tcpHandleFinState
        split <;> rfl
      · exact .inr backed

theorem receiveLoop_unlingered (len rlen : Nat) (quiet : Unlingered s) :
    Unlingered (receiveLoop s len rlen).1 := by
  have returns : ∀ (u : Conn) (rc : Int), Unlingered u → Unlingered (receiveReturn u rc).1 := by
    intro u rc quiet
    unfold receiveReturn
    dsimp only
    split
    · exact tcpRearmUserTimeout_unlingered quiet
    · exact quiet
  have dequeued : Unlingered (tcpDataDequeue s (len - rlen)).1 := by
    obtain ⟨freed, flags, eq⟩ := dequeueLoop_touches s (len - rlen) s.tsk.receiveQueue
    unfold tcpDataDequeue
    dsimp only
    rw [eq]
    split <;> exact quiet
  unfold receiveLoop
  dsimp only
  split
  · split
    · exact returns _ _ dequeued
    · split
      · exact returns _ _ dequeued
      · split
        · exact returns _ _ dequeued
        · exact dequeued
  · exact returns s _ quiet

theorem tcpRead_unlingered (len : Nat) (quiet : Unlingered s) : Unlingered (tcpRead s len).1 := by
  unfold tcpRead
  split
  · exact quiet
  · split
    · exact quiet
    · exact receiveLoop_unlingered len 0 quiet
  iterate 3 exact quiet
  exact receiveLoop_unlingered len 0 quiet

theorem Unlingered.cancels (h : Cancels s t) (quiet : Unlingered s) : Unlingered t :=
  ⟨fun a member => quiet.1 a ((h.alarms a).mp member).1, h.threads ▸ quiet.2⟩

theorem inputDelack_unlingered (th : TcpHdr) (skb : SkBuff) (quiet : Unlingered s) :
    Unlingered (inputDelack s th skb) := by
  have stopped : Unlingered (tcpStopDelackTimer s) := quiet.cancel rfl
  unfold inputDelack
  generalize tcpStopDelackTimer s = u at stopped
  dsimp only
  split
  · obtain ⟨_, _, _, same⟩ := tcpSendNext_touches u (min u.tsk.writeQueue.length 3)
    have sent : Unlingered (tcpSendNext u (min u.tsk.writeQueue.length 3)) := stopped.ts same.ts
    have counted : Unlingered { tcpSendNext u (min u.tsk.writeQueue.length 3) with
      tsk.inflight := (tcpSendNext u (min u.tsk.writeQueue.length 3)).tsk.inflight +
        min u.tsk.writeQueue.length 3 } := sent
    exact tcpRearmRtoTimer_unlingered counted
  · have counted : Unlingered (countDelack u (!th.psh && decide (1000 < skb.dlen))) := by
      unfold countDelack
      split <;> exact stopped
    generalize countDelack u (!th.psh && decide (1000 < skb.dlen)) = v at counted
    split
    · have reset : Unlingered { v with tsk.delacks := 0 } := counted
      exact reset.minor (tcpSendAck_minor _)
    · split
      · exact counted.add (by decide) rfl
      · exact counted

theorem inputFin_unlingered (quiet : Unlingered s) :
    (inputFin s).tsk.state = .timeWait ∨ Unlingered (inputFin s) := by
  have acked := ((pollReadable_minor { s with
    tsk.tcb.rcvNxt := s.tsk.tcb.rcvNxt + 1, tsk.flags := s.tsk.flags ||| TCP_FIN }).trans
    (tcpSendAck_minor _)).trans (recvNotify_minor _)
  have numbered : Unlingered { s with
    tsk.tcb.rcvNxt := s.tsk.tcb.rcvNxt + 1, tsk.flags := s.tsk.flags ||| TCP_FIN } := quiet
  have taken := numbered.minor acked
  unfold inputFin
  dsimp only
  generalize recvNotify (tcpSendAck (pollReadable { s with
    tsk.tcb.rcvNxt := s.tsk.tcb.rcvNxt + 1, tsk.flags := s.tsk.flags ||| TCP_FIN })) = u at taken
  split
  · exact .inr taken
  · exact .inr taken
  · split
    · exact .inl rfl
    · exact .inr taken
  · exact .inl rfl
  · exact .inr taken

theorem inputTail_unlingered (th : TcpHdr) (skb : SkBuff) (quiet : Unlingered s) :
    (inputTail s th skb).tsk.state = .timeWait ∨ Unlingered (inputTail s th skb) := by
  have text := quiet.cancels (inputText_cancels s th skb)
  have fin : ∀ expected, (inputTextFin (inputText s th skb).1 th expected).tsk.state = .timeWait ∨
      Unlingered (inputTextFin (inputText s th skb).1 th expected) := by
    intro expected
    unfold inputTextFin
    split
    · exact inputFin_unlingered text
    · exact .inr text
  have delays : ∀ (u : Conn) (expected : Bool), Unlingered u →
      Unlingered (inputExpected u th skb expected) := by
    intro u expected quiet
    unfold inputExpected
    split
    iterate 3 (split; exact inputDelack_unlingered th skb quiet; exact quiet)
    exact quiet
  unfold inputTail
  dsimp only
  have dropped : ∀ u : Conn, Minor u (freeSkb u (inputText s th skb).2) := fun u => freeSkb_minor u _
  rcases fin (decide (skb.seq = s.tsk.tcb.rcvNxt)) with waits | quiet
  · refine .inl ((dropped _).same.state.trans ?_)
    exact (inputExpected_stays _ th skb _).state.trans waits
  · exact .inr ((delays _ _ quiet).minor (dropped _))

theorem synsentSyn_unlingered (th : TcpHdr) (quiet : Unlingered s) : Unlingered (synsentSyn s th) := by
  have acked : Unlingered (synsentAck s th) := by
    unfold synsentAck
    dsimp only
    split
    · have moved : Unlingered { s with
        tsk.tcb.rcvNxt := th.seq + 1, tsk.tcb.irs := th.seq, tsk.tcb.sndUna := th.ackSeq } := quiet
      exact moved.cancels (tcpCleanRtoQueue_cancels _ _)
    · exact quiet
  unfold synsentSyn
  generalize synsentAck s th = u at acked
  dsimp only
  split
  · unfold synsentEstablish
    dsimp only
    have opened : Unlingered { setState u .established with
      tsk.tcb.sndUna := (setState u .established).tsk.tcb.sndNxt, tsk.backoff := 0, tsk.rto := 1000 } := acked
    exact tcpRearmUserTimeout_unlingered (opened.minor (tcpSendAck_minor _))
  · rw [tcpSendSynack_minor _ (by simp [setState])]
    exact acked

theorem tcpReset_unlingered (quiet : Unlingered s) : Ended (tcpReset s) ∨ Unlingered (tcpReset s) := by
  unfold tcpReset
  dsimp only
  split
  · exact .inl (tcpDone_ended _)
  · exact .inl (tcpDone_ended _)
  · exact .inr quiet
  · exact .inl (tcpDone_ended _)

theorem tcpInputState_unlingered (th : TcpHdr) (skb : SkBuff) (quiet : Unlingered s) :
    (tcpInputState s th skb).tsk.state = .timeWait ∨ Ended (tcpInputState s th skb) ∨
      Unlingered (tcpInputState s th skb) := by
  have free : ∀ u : Conn, Unlingered u → Unlingered (freeSkb u skb) :=
    fun u quiet => quiet.minor (freeSkb_minor u skb)
  unfold tcpInputState
  split
  · unfold tcpClosed
    split
    · exact .inr (.inr (free s quiet))
    · refine .inr (.inr (free _ ?_))
      have alloc : Unlingered { (tcpAllocSkb s 0 []).1 with
        tsk.tcb.sndUna := (tcpAllocSkb s 0 []).1.tsk.tcb.sndNxt } := quiet
      exact (alloc.minor (tcpTransmitSkb_minor _ _ _ rfl rfl rfl)).minor (freeSkb_minor _ _)
  · exact .inr (.inr (free s quiet))
  · refine tcpSynsent_cases (P := fun u => u.tsk.state = .timeWait ∨ Ended u ∨ Unlingered u)
      (.inr (.inr (free s quiet))) (fun _ _ => ?_) fun _ => .inr (.inr (free _ (synsentSyn_unlingered th quiet)))
    rcases tcpReset_unlingered quiet with dead | still
    · exact .inr (.inl ((freeSkb_minor _ skb).same.ended.trans dead))
    · exact .inr (.inr (free _ still))
  · have acked := quiet.cancels (inputAck_cancels s th)
    refine inputOtherwise_cases (motive := fun u => u.tsk.state = .timeWait ∨ Ended u ∨ Unlingered u)
      s th skb ?_ ?_ ?_ ?_ ?_ ?_
    · intro _
      refine .inr (.inr (free _ ?_))
      split
      · exact quiet
      · exact quiet.minor (tcpSendAck_minor s)
    · exact fun _ _ => .inl rfl
    · exact fun _ _ _ => .inr (.inr (free s quiet))
    · exact fun _ _ _ _ _ => .inr (.inr (free _ acked))
    · exact fun _ _ _ _ _ _ _ => .inr (.inl (tcpDone_ended _))
    · intro _ _ _ _ _ _
      have taken := acked.cancels (inputFinAcked_cancels _ th)
      exact (inputTail_unlingered th skb taken).imp id .inr

theorem exec_unlingered {e : Event} {r : Reply} (quiet : Unlingered s)
    (taken : exec s e = some (t, r)) : t.tsk.state = .timeWait ∨ Ended t ∨ Unlingered t := by
  have locked : Unlingered (socketWrAcquire s) := quiet
  refine exec_pass (P := fun u => u.tsk.state = .timeWait ∨ Ended u ∨ Unlingered u) ?idle
    (.inr (.inr quiet)) taken ?free ?tick ?handler ?write ?read ?wake ?close ?abort ?connect ?segment
  case idle =>
    intro u v idle
    refine Or.imp idle.stays.state.trans (Or.imp idle.stays.ended.trans fun quiet => ?_)
    exact quiet.ts (congrArg (·.ts) idle)
  case free =>
    intro _ u
    obtain ⟨freed, eq⟩ := socketFree_eq u
    rw [eq]
    exact id
  case tick =>
    intro busy _
    refine .inr (.inr ⟨fun a member => quiet.1 a (tick_alarms s.ts member), fun h member => ?_⟩)
    change h ∈ (timersTick { s.ts with tick := s.ts.tick + 10 } busy).threads at member
    rw [threads_tick] at member
    rcases List.mem_append.mp member with old | fired
    · exact quiet.2 h old
    · obtain ⟨a, due, rfl⟩ := List.mem_map.mp fired
      exact quiet.1 a (List.mem_filter.mp due).1
  case handler =>
    intro i h _ found _
    have bare : Unlingered (started s i) :=
      ⟨quiet.1, fun k member => quiet.2 k (List.mem_of_mem_eraseIdx member)⟩
    have held : Unlingered (socketWrAcquire (started s i)) := bare
    unfold runHandler
    cases h.handler with
    | tcpConnectRto => exact .inr (tcpConnectRto_unlingered held)
    | tcpRetransmissionTimeout => exact .inr (tcpRetransmissionTimeout_unlingered held)
    | tcpSendDelack =>
      have released : Unlingered (tcpReleaseDelackTimer { socketWrAcquire (started s i) with
        tsk.delacks := 0 }) := held.release rfl
      have sent : Unlingered (tcpSendDelack (socketWrAcquire (started s i))) :=
        released.minor (tcpSendAck_minor _)
      exact .inr (.inr sent)
    | tcpLinger => exact .inr (.inl (tcpDone_ended _))
    | tcpUserTimeout => exact .inr (.inl (tcpDone_ended _))
    | socketGarbageCollect =>
      unfold socketGarbageCollect
      dsimp only
      split
      · obtain ⟨freed, eq⟩ := socketFree_eq (started s i)
        rw [eq]
        exact .inr (.inr bare)
      · exact .inr (.inr bare)
  case write => exact fun buf _ _ _ => .inr (.inr (tcpWrite_unlingered buf locked))
  case read => exact fun len _ _ _ => .inr (.inr (tcpRead_unlingered len locked))
  case wake =>
    intro i b _ _ _ _
    exact .inr (.inr (receiveLoop_unlingered (s := resumed s i) _ _ quiet))
  case close =>
    intro _ _ _
    unfold tcpClose
    split
    iterate 6 exact .inr (.inr locked)
    iterate 3 exact .inr (.inl (tcpDone_ended _))
    · have moved : Unlingered (setState (socketWrAcquire s) .finWait1) := locked
      exact .inr (.inr (tcpQueueFin_unlingered moved))
    · exact .inr (.inr (tcpQueueFin_unlingered locked))
  case abort => exact fun _ _ => .inr (.inl (tcpDone_ended _))
  case connect =>
    intro addr port iss _ _ closed _
    refine .inr (.inr ?_)
    unfold tcpV4Connect tcpConnect tcpSendSyn
    simp only [show (socketWrAcquire s).tsk.state = .close from closed]
    rw [if_neg (by simp)]
    have numbered : ∀ u : Conn, Unlingered u →
        Unlingered { u with tsk.tcb.sndNxt := u.tsk.tcb.sndNxt + 1 } := fun _ quiet => quiet
    refine numbered _ (tcpQueueTransmitSkb_unlingered _ ?_)
    exact locked
  case segment =>
    intro th payload _ _ _
    exact tcpInputState_unlingered (s := arriving s th payload) th _ quiet

/-! ### Runs -/

/- The timers of a connection are those of the stage it is in. -/
structure Staged (s : Conn) : Prop where
  before : s.tsk.state = .timeWait ∨ Ended s ∨ Unlingered s
  during : Lingering s → Timed s

/- From CLOSING no timer of `tcp_linger` is set. -/
theorem inputOtherwise_closing {th : TcpHdr} {skb : SkBuff} (waits : s.tsk.state = .closing)
    (passes : Passes s th skb) (all : AcksAll s th) (quiet : Unlingered s) :
    (inputOtherwise s th skb).tsk.state = .timeWait ∧ (inputOtherwise s th skb).ended = s.ended ∧
      Unlingered (inputOtherwise s th skb) := by
  have entered := inputFinAcked_closing waits all
  have before := (inputFinAcked_ended _ th).trans (inputAck_moves s th).2
  have still := (quiet.cancels (inputAck_cancels s th)).cancels (inputFinAcked_cancels _ th)
  rw [inputOtherwise_passes passes]
  generalize inputFinAcked (inputAck s th).1 th = u at entered before still
  have rests := inputTail_rests th skb entered
  refine ⟨rests.stays.state.trans entered, rests.stays.ended.trans before, ?_⟩
  unfold Unlingered
  rw [rests.alarms, rests.threads]
  exact still

theorem Unlingered.untimed (quiet : Unlingered s) : ¬Timed s := by
  intro timed
  rcases timed.linger with ⟨a, member, -, linger⟩ | ⟨h, member, -, linger⟩
  · exact quiet.1 a member linger
  · exact quiet.2 h member linger

/- What a late retransmission leaves: a connection that has ended, or one whose timer is armed again. -/
theorem tcpRetransmissionTimeout_resends (some_left : s.tsk.writeQueue ≠ [])
    (waits : s.tsk.state = .timeWait) : Ended (tcpRetransmissionTimeout s) ∨
      ((tcpRetransmissionTimeout s).tsk.state = .timeWait ∧
        (tcpRetransmissionTimeout s).ended = s.ended ∧ ¬Timed (tcpRetransmissionTimeout s)) := by
  unfold tcpRetransmissionTimeout
  have queue : (tcpReleaseRtoTimer s).tsk.writeQueue ≠ [] := some_left
  have state : (tcpReleaseRtoTimer s).tsk.state = .timeWait := waits
  have ended : (tcpReleaseRtoTimer s).ended = s.ended := rfl
  generalize tcpReleaseRtoTimer s = u at queue state ended
  dsimp only
  split
  · rename_i empty
    exact absurd (List.head?_eq_none_iff.mp empty) queue
  · rename_i k _
    have again := retransmitHead_stays u k
    split
    · exact .inl (tcpDone_ended (retransmitHead u k))
    · refine .inr ?_
      have armed : ∃ a ∈ alarms (retransmissionBackoff (retransmitHead u k)).ts,
          a.handler = .tcpRetransmissionTimeout := by
        refine ⟨⟨(retransmitHead u k).ts.next, (retransmitHead u k).ts.tick +
          (retransmitHead u k).tsk.rto * 2, .tcpRetransmissionTimeout⟩, ?_, rfl⟩
        show _ ∈ alarms (timerAdd (retransmitHead u k).ts _ _).1
        rw [alarms_add]
        exact List.mem_append_right _ (List.mem_singleton_self _)
      have backed : (retransmissionBackoff (retransmitHead u k)).tsk.state = .timeWait :=
        again.state.trans state
      have going : (retransmissionBackoff (retransmitHead u k)).ended = s.ended :=
        again.ended.trans ended
      generalize retransmissionBackoff (retransmitHead u k) = v at armed backed going
      have untimed : ¬Timed v := by
        intro timed
        obtain ⟨a, member, handler⟩ := armed
        have linger := timed.armed a member (by rw [handler]; rfl)
        rw [handler] at linger
        cases linger
      have same : tcpHandleFinState v = v := by
        unfold tcpHandleFinState
        rw [backed]
      split
      · rw [same]
        exact ⟨backed, going, untimed⟩
      · exact ⟨backed, going, untimed⟩

/-- One step goes wrong exactly when it is one of the three kinds. -/
theorem mistimes_iff {e : Event} {r : Reply} (staged : Staged s) (taken : exec s e = some (t, r)) :
    Mistimes s e ↔ Untimes s e := by
  have wrong : ¬((Lingering t → Timed t) ∧ (Lingering s → Ended t → EndsByLinger s e)) →
      Mistimes s e := fun bad => ⟨t, r, taken, bad⟩
  constructor
  · rintro ⟨t', r', taken', bad⟩
    obtain ⟨rfl, -⟩ := by simpa [taken'] using taken
    by_contra right
    by_cases dead : Ended s
    · have ended := exec_ended dead taken'
      exact bad ⟨fun lingers => absurd ended lingers.2, fun lingers => absurd dead lingers.2⟩
    by_cases waits : s.tsk.state = .timeWait
    · have timed := staged.during ⟨waits, dead⟩
      rcases exec_outlasts ⟨waits, dead⟩ timed right taken' with ⟨lingers, timed⟩ | ⟨ended, linger⟩
      · exact bad ⟨fun _ => timed, fun _ ended => absurd ended lingers.2⟩
      · exact bad ⟨fun lingers => absurd ended lingers.2, fun _ _ => linger⟩
    · refine bad ⟨fun lingers => ?_, fun lingers => absurd lingers.1 waits⟩
      rcases exec_enters waits taken' lingers.1 with ended | closing | enters
      · exact absurd ended lingers.2
      · exact absurd ⟨dead, .inl closing⟩ right
      · refine (exec_enters_timed enters taken').2.2.mpr ?_
        by_contra stray
        exact right ⟨dead, .inr (.inl ⟨enters, stray⟩)⟩
  · rintro ⟨going, closing | ⟨enters, stray⟩ | late⟩
    · cases e with
      | segment th payload =>
        obtain ⟨waits, passes, all⟩ := closing
        obtain ⟨-, -, -, rfl⟩ := exec_segment_taken taken
        have quiet : Unlingered s := by
          rcases staged.before with timeWait | dead | quiet
          · rw [waits] at timeWait
            cases timeWait
          · exact absurd dead going
          · exact quiet
        obtain ⟨state, ended, still⟩ := inputOtherwise_closing (s := arriving s th payload) waits passes
          all quiet
        have checked : (arriving s th payload).tsk.state.synchronizes = true := by
          rw [show (arriving s th payload).tsk.state = .closing from waits]
          rfl
        rw [← tcpInputState_checked checked] at state ended still
        refine wrong fun right => ?_
        have still' : Unlingered (tcpIn s th payload) := still
        exact still'.untimed (right.1 ⟨state, fun dead => going (ended.symm.trans dead)⟩)
      | _ => exact absurd closing id
    · obtain ⟨state, ended, timed⟩ := exec_enters_timed enters taken
      exact wrong fun right => stray (timed.mp (right.1 ⟨state, fun dead => going (ended.symm.trans dead)⟩))
    · cases e with
      | handler i =>
        obtain ⟨waits, some_left, h, found, timer⟩ := late
        have found : s.ts.threads[i]? = some h := found
        refine wrong fun right => ?_
        obtain ⟨h', found', -, done⟩ := exec_handler_taken taken
        obtain rfl : h = h' := Option.some.inj (found.symm.trans found')
        rw [done, timer] at right
        rcases tcpRetransmissionTimeout_resends (s := socketWrAcquire (started s i)) some_left waits with
          dead | ⟨state, ended, untimed⟩
        · obtain ⟨k, same, linger⟩ := right.2 ⟨waits, going⟩ dead
          obtain rfl : h = k := by simpa [found] using same
          rw [timer] at linger
          cases linger
        · refine untimed ?_
          have release := socketRelease_minor (tcpRetransmissionTimeout (socketWrAcquire (started s i)))
          exact (timed_minor_iff release).mp (right.1 ⟨state, fun dead => going (ended.symm.trans dead)⟩)
      | _ => exact absurd late id

theorem exec_staged {e : Event} {r : Reply} (staged : Staged s) (right : ¬Mistimes s e)
    (taken : exec s e = some (t, r)) : Staged t := by
  refine ⟨?_, fun lingers => ?_⟩
  · rcases staged.before with waits | dead | quiet
    · exact (exec_timeWait waits taken).imp id .inl
    · exact .inr (.inl (exec_ended dead taken))
    · exact exec_unlingered quiet taken
  · by_contra untimed
    exact right ⟨t, r, taken, fun fine => untimed (fine.1 lingers)⟩

/-- In every run TIME_WAIT is timed throughout, and ended by `tcp_linger` unless the application gives up,
    exactly when no step is one of the three kinds. -/
theorem time_wait_timed_iff {trace : List (Event × Reply)}
    (run : Run exec (fun _ _ _ => True) {} trace s) :
    Occurs exec Mistimes {} trace ↔ Occurs exec Untimes {} trace := by
  refine run.occurs_iff Staged ⟨.inr (.inr ⟨by simp [alarms, alarmsOf], by simp⟩), ?_⟩ ?_ ?_
  · rintro ⟨waits, -⟩
    cases waits
  · exact fun _ _ _ _ _ staged _ taken => mistimes_iff staged taken
  · exact fun _ _ _ _ _ staged _ right taken => exec_staged staged right taken

/- The connection is closed here first, and then by the other end. -/
theorem time_wait_timed_after_close : ∃ trace s, Run exec (fun _ _ _ => True) {} trace s ∧ Lingering s ∧
    ¬Occurs exec Mistimes {} trace := by
  obtain ⟨trace, s, run, lingers, right⟩ : ∃ trace s, Run exec (fun _ _ _ => True) {} trace s ∧
      Lingering s ∧ ¬Occurs exec Untimes {} trace :=
    Run.exists_of_trace (handshake ++ [.close, .segment (peerHdr 5001 1002) [],
      .segment { peerHdr 5001 1002 with fin := true } []]) (by decide +kernel)
  exact ⟨trace, s, run, lingers, fun wrong => right ((time_wait_timed_iff run).mp wrong)⟩

/-- Both ends close at once: the ACK of our FIN leads from CLOSING to TIME_WAIT, and the timer in the
    linger field is still that of `tcp_user_timeout`. -/
theorem time_wait_untimed : ∃ trace s, Run exec (fun _ _ _ => True) {} trace s ∧ Lingering s ∧
    ∃ a ∈ alarms s.ts, s.tsk.linger = some a.id ∧ a.handler = .tcpUserTimeout :=
  Run.exists_of_follow (handshake ++ [.close, .segment { peerHdr 5001 1001 with fin := true } [],
    .segment (peerHdr 5002 1002) []]) (by decide +kernel)

end HfIp
