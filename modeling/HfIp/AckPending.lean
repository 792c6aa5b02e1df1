import HfIp.AckFrame
import Mathlib.Data.List.TakeWhile

/- Every accepted byte gets acknowledged: the steps of a connection after which the last ACK sent is up
   to date or a delayed one is still to come, and a run that leaves received text unacknowledged. -/
namespace HfIp

variable {s t : Conn}

/- The buffer counts for the flight. -/
def SkBuff.launched (k : SkBuff) : Bool := 0 < k.seq || k.th.syn

/- What sending the queue relies on: its buffers bear the ACK flag, the SYN aside, and no more of them
   have been sent than are in flight. -/
structure AckBase (s : Conn) : Prop where
  owned : Owned s
  closed : s.tsk.state = .close → s.tsk.writeQueue = []
  acks : ∀ k ∈ s.tsk.writeQueue, k.th.syn = false → k.th.ack = true
  flying : s.tsk.writeQueue.countP SkBuff.launched ≤ s.tsk.inflight

/-- While text can arrive, what has been received is acknowledged, or a delayed ACK will do it. -/
def AckCovered (s : Conn) : Prop :=
  s.tsk.state.phase = .text → Acked s ∨ Ticking s .delack ∨ Started s .delack

instance (s : Conn) : Decidable (AckCovered s) := inferInstanceAs (Decidable (_ → _))

structure AckInv (s : Conn) : Prop extends AckBase s where
  covered : AckCovered s

namespace AckBase

theorem frame (base : AckBase s) (h : QueueFrame s t) (owned : Owned s → Owned t) : AckBase t := by
  refine ⟨owned base.owned, fun close => ?_, ?_, ?_⟩
  · rw [h.queue]; exact base.closed (h.close close)
  · rw [h.queue]; exact base.acks
  · rw [h.queue, h.inflight]; exact base.flying

theorem minor (base : AckBase s) (h : Minor s t) : AckBase t :=
  base.frame (.of_minor h) (TimerFrame.of_minor h).owned

theorem eq (base : AckBase s) (ts : t.ts = s.ts) (slots : t.tsk.slot = s.tsk.slot)
    (queue : t.tsk.writeQueue = s.tsk.writeQueue) (inflight : t.tsk.inflight = s.tsk.inflight)
    (state : t.tsk.state = s.tsk.state) (ended : t.ended = s.ended) : AckBase t :=
  base.frame (.of_eq queue inflight state ended) (TimerFrame.of_eq ts slots).owned

theorem acked (base : AckBase s) (acked : Acked s) : AckInv s :=
  { base with covered := fun _ => .inl acked }

theorem outside (base : AckBase s) (out : s.tsk.state.phase ≠ .text) : AckInv s :=
  { base with covered := fun text => absurd text out }

end AckBase

namespace AckInv

variable {touched : List Slot}

theorem frame (inv : AckInv s) (base : AckBase t) (acks : AckFrame s t)
    (timers : TimerFrame touched s t) (untouched : .delack ∉ touched)
    (phase : t.tsk.state.phase = .text → s.tsk.state.phase = .text) : AckInv t := by
  refine { base with covered := fun text => ?_ }
  rcases inv.covered (phase text) with acked | armed
  · exact .inl (acks.acked acked)
  · exact .inr (timers.armed inv.owned untouched armed)

theorem stay (inv : AckInv s) (h : QueueFrame s t) (acks : AckFrame s t)
    (timers : TimerFrame touched s t) (untouched : .delack ∉ touched) (stays : Stays s t) :
    AckInv t :=
  inv.frame (inv.toAckBase.frame h timers.owned) acks timers untouched
    (by rw [stays.state]; exact id)

theorem minor (inv : AckInv s) (h : Minor s t) : AckInv t :=
  inv.stay (.of_minor h) (.of_minor h) (.of_minor h) (by simp) (.of_minor h)

theorem eq (inv : AckInv s) (ts : t.ts = s.ts) (slots : t.tsk.slot = s.tsk.slot)
    (queue : t.tsk.writeQueue = s.tsk.writeQueue) (inflight : t.tsk.inflight = s.tsk.inflight)
    (state : t.tsk.state = s.tsk.state) (ended : t.ended = s.ended)
    (rcvNxt : t.tsk.tcb.rcvNxt = s.tsk.tcb.rcvNxt) (out : t.out = s.out) : AckInv t :=
  inv.stay (.of_eq queue inflight state ended) (.of_eq rcvNxt out) (.of_eq ts slots) (by simp)
    ⟨state, ended⟩

end AckInv

/-! ### The write queue -/

theorem SentRun.mem_after {nxt stop : UInt32} {before after : List SkBuff}
    (run : SentRun nxt before after stop) : after.length = before.length ∧
      ∀ k' ∈ after, ∃ k ∈ before, k'.th.syn = k.th.syn ∧ k'.th.ack = k.th.ack := by
  refine ⟨run.length, fun k' member => ?_⟩
  obtain ⟨k, before, _, sent⟩ := run.each k' member
  exact ⟨k, before, sent.syn, sent.ack⟩

/- A new buffer at the end of the queue; the SYN is alone in it. -/
theorem tcpQueueTransmitSkb_ackBase (k : SkBuff) (base : AckBase s) (opened : s.tsk.state ≠ .close)
    (unsent : k.seq = 0) (ack : k.th.syn = false → k.th.ack = true)
    (alone : k.th.syn = true → s.tsk.writeQueue = []) : AckBase (tcpQueueTransmitSkb s k) := by
  have owned := (tcpQueueTransmitSkb_timers s k).owned base.owned
  have state := (tcpQueueTransmitSkb_stays s k).state
  have flying := base.flying
  refine ⟨owned, fun close => absurd (state.symm.trans close) opened, ?_, ?_⟩
  · intro j member
    by_cases idle : s.tsk.inflight = 0
    · obtain ⟨k', seg, sent, queue, -⟩ := tcpQueueTransmitSkb_now k idle
      rw [queue] at member
      rcases List.mem_append.mp member with old | new
      · exact base.acks j old
      · obtain rfl := List.mem_singleton.mp new
        rw [sent.syn, sent.ack]
        exact ack
    · obtain ⟨u, frame, eq⟩ := tcpQueueTransmitSkb_later k idle
      rw [eq] at member
      rcases List.mem_append.mp member with old | new
      · rw [frame.writeQueue] at old
        exact base.acks j old
      · obtain rfl := List.mem_singleton.mp new
        exact ack
  · by_cases idle : s.tsk.inflight = 0
    · obtain ⟨k', seg, sent, queue, inflight, -⟩ := tcpQueueTransmitSkb_now k idle
      rw [queue, inflight, List.countP_append, List.countP_singleton]
      split <;> omega
    · obtain ⟨u, frame, eq⟩ := tcpQueueTransmitSkb_later k idle
      rw [eq]
      show (u.tsk.writeQueue ++ [k]).countP SkBuff.launched ≤ u.tsk.inflight
      rw [frame.writeQueue, frame.inflight, List.countP_append, List.countP_singleton]
      cases syn : k.th.syn with
      | false =>
        have waits : k.launched = false := by simp [SkBuff.launched, unsent, syn]
        rw [waits]
        simpa using flying
      | true =>
        rw [alone syn]
        simp only [List.countP_nil]
        split <;> omega

theorem tcpSendNext_ackBase (amount : Nat) (base : AckBase s) (opened : s.tsk.state ≠ .close)
    (idle : s.tsk.inflight = 0) : AckBase { tcpSendNext s amount with
      tsk.inflight := (tcpSendNext s amount).tsk.inflight + amount } := by
  obtain ⟨_, _, _, same⟩ := tcpSendNext_touches s amount
  obtain ⟨after, run, left, -⟩ := sendNextLoop_sent (s := s) amount s.tsk.writeQueue
  obtain ⟨length, found⟩ := run.mem_after
  have timers := (tcpSendNext_timers s amount).still (.of_eq (t := { tcpSendNext s amount with
    tsk.inflight := (tcpSendNext s amount).tsk.inflight + amount }) rfl rfl)
  have state : (tcpSendNext s amount).tsk.state = s.tsk.state := same.state
  have inflight : (tcpSendNext s amount).tsk.inflight = s.tsk.inflight := same.inflight
  have queue : (tcpSendNext s amount).tsk.writeQueue = after ++ s.tsk.writeQueue.drop amount := left
  refine ⟨timers.owned base.owned, fun close => absurd (state.symm.trans close) opened, ?_, ?_⟩
  · show ∀ k ∈ (tcpSendNext s amount).tsk.writeQueue, _
    rw [queue]
    intro j member
    rcases List.mem_append.mp member with sent | waits
    · obtain ⟨k, old, syn, ack⟩ := found j sent
      rw [syn, ack]
      exact base.acks k (List.mem_of_mem_take old)
    · exact base.acks j (List.mem_of_mem_drop waits)
  · show (tcpSendNext s amount).tsk.writeQueue.countP _ ≤ (tcpSendNext s amount).tsk.inflight + amount
    rw [queue, inflight, List.countP_append]
    have flying := base.flying
    have waits : (s.tsk.writeQueue.drop amount).countP SkBuff.launched
        ≤ s.tsk.writeQueue.countP SkBuff.launched := (List.drop_sublist _ _).countP_le
    have sent : after.countP SkBuff.launched ≤ after.length := List.countP_le_length
    rw [List.length_take] at length
    omega

theorem tcpCleanRtoQueue_ackBase (una : UInt32) (base : AckBase s) :
    AckBase (tcpCleanRtoQueue s una) := by
  have state := (tcpCleanRtoQueue_stays s una).state
  have split : s.tsk.writeQueue.takeWhile (acked una) ++ s.tsk.writeQueue.dropWhile (acked una)
      = s.tsk.writeQueue := List.takeWhile_append_dropWhile
  have gone : (s.tsk.writeQueue.takeWhile (acked una)).countP SkBuff.launched
      = (s.tsk.writeQueue.takeWhile (acked una)).length := by
    rw [List.countP_eq_length]
    intro k member
    have old := List.mem_takeWhile_imp member
    simp only [acked, Bool.and_eq_true, decide_eq_true_eq] at old
    simp only [SkBuff.launched, Bool.or_eq_true, decide_eq_true_eq]
    exact .inl old.1
  refine ⟨(tcpCleanRtoQueue_timers s una).owned base.owned, fun close => ?_, ?_, ?_⟩
  · rw [tcpCleanRtoQueue_queue, base.closed (state.symm.trans close)]
    rfl
  · rw [tcpCleanRtoQueue_queue]
    exact fun k member => base.acks k ((List.dropWhile_sublist _).subset member)
  · have flying := base.flying
    rw [← split, List.countP_append, gone] at flying
    rw [tcpCleanRtoQueue_queue, tcpCleanRtoQueue_inflight]
    omega

theorem retransmitHead_ackBase {k : SkBuff} (base : AckBase s)
    (head : s.tsk.writeQueue.head? = some k) : AckBase (retransmitHead s k) := by
  have same := tcpTransmitSkb_same s k s.tsk.tcb.sndUna
  obtain ⟨rest, queue⟩ := List.head?_eq_some_iff.mp head
  have queue' : (retransmitHead s k).tsk.writeQueue
      = (tcpTransmitSkb s k s.tsk.tcb.sndUna).2 :: rest := by
    simp only [retransmitHead, setHead, same.writeQueue, queue, List.tail_cons]
  have state : (retransmitHead s k).tsk.state = s.tsk.state := same.state
  refine ⟨(retransmitHead_timers s k).owned base.owned, fun close => ?_, ?_, ?_⟩
  · rw [base.closed (state.symm.trans close)] at queue
    contradiction
  · have acks := base.acks
    rw [queue] at acks
    rw [queue']
    intro j member
    rcases List.mem_cons.mp member with rfl | later
    · exact acks k (by simp)
    · exact acks j (by simp [later])
  · have flying := base.flying
    rw [queue, List.countP_cons] at flying
    rw [queue', show (retransmitHead s k).tsk.inflight = s.tsk.inflight from same.inflight,
      List.countP_cons]
    exact flying

end HfIp
