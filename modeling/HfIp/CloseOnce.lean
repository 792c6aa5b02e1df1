import Mathlib.Data.List.TakeWhile
import HfIp.SegmentRule
import HfIp.StateMachine
import HfIp.StreamIntegrity

/- The FIN as the end of the send stream: as long as no call is made in CLOSE_WAIT after the close,
   there is one FIN, and nothing is queued behind it or numbered after it. -/
namespace HfIp

open Transition

def NoFin (queue : List SkBuff) : Prop := ∀ k ∈ queue, k.th.fin = false

/- Only the last buffer can be a FIN. -/
def FinLast (queue : List SkBuff) : Prop := NoFin queue.dropLast

/- No buffer of the write queue will be numbered any more. -/
def Spent (s : Conn) : Prop :=
  s.tsk.writeQueue = [] ∨ s.tsk.inflight = s.tsk.writeQueue.length ∨
    (s.tsk.inflight ≠ 0 ∧ ∃ k ∈ s.tsk.writeQueue.head?, k.seq = 0)

/-- How far the send stream is: still open, closed with the FIN waiting at its end, or closed with
    the FIN sent or thrown away and nothing left to be numbered. -/
inductive SendEnd (s : Conn) : Prop where
  | opened (none : s.fins = 0) (queue : NoFin s.tsk.writeQueue) (history : NoFin s.sent)
  | waiting (front : List SkBuff) (last : SkBuff) (one : s.fins = 1)
      (queue : s.tsk.writeQueue = front ++ [last]) (plain : NoFin front) (unsent : last.seq = 0)
      (history : NoFin s.sent)
  | done (one : s.fins = 1) (spent : Spent s) (queue : FinLast s.tsk.writeQueue)
      (history : FinLast s.sent)

/- The count of buffers in flight is never too small. -/
structure CloseInv (s : Conn) : Prop where
  counted : s.tsk.writeQueue.countP (fun k => k.seq ≠ 0) ≤ s.tsk.inflight
  ends : SendEnd s

variable {s t : Conn} {k : SkBuff} {xs ys : List SkBuff}

theorem NoFin.append (left : NoFin xs) (right : NoFin ys) : NoFin (xs ++ ys) := by
  intro k member
  rcases List.mem_append.mp member with h | h
  · exact left k h
  · exact right k h

theorem NoFin.sub (h : NoFin ys) (sub : ∀ k ∈ xs, k ∈ ys) : NoFin xs :=
  fun k member => h k (sub k member)

theorem NoFin.last (h : NoFin xs) : FinLast xs := h.sub fun _ => List.mem_of_mem_dropLast

theorem NoFin.append_last (left : NoFin xs) (right : FinLast ys) : FinLast (xs ++ ys) := by
  unfold FinLast
  by_cases none : ys = []
  · rw [none, List.append_nil]
    exact left.last
  · rw [List.dropLast_append_of_ne_nil none]
    exact left.append right

theorem FinLast.right (h : FinLast (xs ++ ys)) : FinLast ys := by
  unfold FinLast at h ⊢
  by_cases none : ys = []
  · rw [none]
    exact fun _ member => by cases member
  · rw [List.dropLast_append_of_ne_nil none] at h
    exact h.sub fun k member => List.mem_append_right xs member

theorem NoFin.of_map (same : ys.map SkBuff.isFin = xs.map SkBuff.isFin) (h : NoFin xs) :
    NoFin ys := by
  intro k member
  have flag : k.isFin ∈ xs.map SkBuff.isFin := by
    rw [← same]
    exact List.mem_map_of_mem member
  obtain ⟨j, there, eq⟩ := List.mem_map.mp flag
  exact eq.symm.trans (h j there)

theorem FinLast.of_map (same : ys.map SkBuff.isFin = xs.map SkBuff.isFin) (h : FinLast xs) :
    FinLast ys := by
  refine NoFin.of_map ?_ h
  rw [List.map_dropLast, List.map_dropLast, same]

/- A run of first transmissions does not change the FIN bits. -/
theorem SentRun.isFin {nxt stop : UInt32} {before after : List SkBuff}
    (run : SentRun nxt before after stop) :
    after.map SkBuff.isFin = before.map SkBuff.isFin := by
  induction before generalizing nxt after with
  | nil =>
    cases after with
    | nil => rfl
    | cons => exact absurd run id
  | cons k rest ih =>
    cases after with
    | nil => exact absurd run id
    | cons k' after =>
      obtain ⟨sent, run⟩ := run
      rw [List.map_cons, List.map_cons, ih run]
      exact congrArg (· :: _) sent.fin

/-! ### What keeps the end of the stream -/

namespace CloseInv

theorem view (inv : CloseInv s) (queue : t.tsk.writeQueue = s.tsk.writeQueue)
    (inflight : t.tsk.inflight = s.tsk.inflight) (fins : t.fins = s.fins) (sent : t.sent = s.sent) :
    CloseInv t := by
  refine ⟨by rw [queue, inflight]; exact inv.counted, ?_⟩
  cases inv.ends with
  | opened none plain history =>
    exact .opened (fins.trans none) (by rw [queue]; exact plain) (by rw [sent]; exact history)
  | waiting front last one shape plain unsent history =>
    exact .waiting front last (fins.trans one) (queue.trans shape) plain unsent
      (by rw [sent]; exact history)
  | done one spent last history =>
    exact .done (fins.trans one) (by rw [Spent, queue, inflight]; exact spent)
      (by rw [queue]; exact last) (by rw [sent]; exact history)

theorem frame (inv : CloseInv s) (h : SendFrame s t) : CloseInv t :=
  inv.view h.writeQueue h.inflight h.fins h.sent

theorem clean (inv : CloseInv s) (una : UInt32) : CloseInv (tcpCleanRtoQueue s una) := by
  have queue := tcpCleanRtoQueue_queue s una
  have inflight := tcpCleanRtoQueue_inflight s una
  obtain ⟨_, _, _, _, _, eq⟩ := tcpCleanRtoQueue_touches s una
  have fins : (tcpCleanRtoQueue s una).fins = s.fins := by rw [eq]
  have sent : (tcpCleanRtoQueue s una).sent = s.sent := by rw [eq]
  have split : s.tsk.writeQueue.takeWhile (acked una) ++ s.tsk.writeQueue.dropWhile (acked una)
      = s.tsk.writeQueue := List.takeWhile_append_dropWhile
  have numbered : ∀ k ∈ s.tsk.writeQueue.takeWhile (acked una), k.seq ≠ 0 := by
    intro k member zero
    have old := List.mem_takeWhile_imp member
    simp [acked, zero] at old
  have counted := inv.counted
  rw [← split, List.countP_append, List.countP_eq_length.mpr (by simpa using numbered)] at counted
  refine ⟨by rw [queue, inflight]; omega, ?_⟩
  cases inv.ends with
  | opened none plain history =>
    refine .opened (fins.trans none) ?_ (by rw [sent]; exact history)
    rw [queue]
    exact plain.sub (List.dropWhile_sublist _).subset
  | waiting front last one shape plain unsent history =>
    -- the waiting FIN has no number yet, so the cleaning does not reach it
    have kept : acked una last = false := by simp [acked, unsent]
    refine .waiting (front.dropWhile (acked una)) last (fins.trans one) ?_
      (plain.sub (List.dropWhile_sublist _).subset) unsent (by rw [sent]; exact history)
    rw [queue, shape, List.dropWhile_append, List.dropWhile_cons_of_neg (by simp [kept])]
    split
    · rename_i none
      rw [List.isEmpty_iff.mp none]
      rfl
    · rfl
  | done one spent last history =>
    refine .done (fins.trans one) ?_ ?_ (by rw [sent]; exact history)
    · rw [Spent, queue, inflight]
      rcases spent with none | all | ⟨busy, k, head, unsent⟩
      · rw [none]
        exact .inl rfl
      · have length := congrArg List.length split
        rw [List.length_append] at length
        exact .inr (.inl (by omega))
      · obtain ⟨rest, shape⟩ := List.head?_eq_some_iff.mp head
        have kept : acked una k = false := by simp [acked, unsent]
        rw [shape, List.dropWhile_cons_of_neg (by simp [kept]),
          List.takeWhile_cons_of_neg (by simp [kept])]
        exact .inr (.inr ⟨busy, k, rfl, unsent⟩)
    · rw [queue]
      rw [← split] at last
      exact last.right

theorem ack (inv : CloseInv s) (th : TcpHdr) : CloseInv (takeAck s th) := by
  have moved : CloseInv { s with tsk.tcb.sndUna := th.ackSeq } := inv.view rfl rfl rfl rfl
  exact (moved.frame (tcpRtt_send _)).clean th.ackSeq

theorem next (inv : CloseInv s) {n : Nat} (idle : s.tsk.inflight = 0)
    (amount : n = min s.tsk.writeQueue.length 3) : CloseInv (sendFront s n) := by
  obtain ⟨after, run, left, sent⟩ := sendNextLoop_sent (s := s) n s.tsk.writeQueue
  obtain ⟨_, _, _, same⟩ := tcpSendNext_touches s n
  have flags := run.isFin
  have length : after.length = n := by
    have := congrArg List.length flags
    simp only [List.length_map, List.length_take] at this
    omega
  have queue : (sendFront s n).tsk.writeQueue = after ++ s.tsk.writeQueue.drop n := left
  have history : (sendFront s n).sent = s.sent ++ after := sent
  have fins : (sendFront s n).fins = s.fins := same.fins
  have inflight : (sendFront s n).tsk.inflight = n := by
    have before : (tcpSendNext s n).tsk.inflight = s.tsk.inflight := same.inflight
    show (tcpSendNext s n).tsk.inflight + n = n
    omega
  constructor
  · have counted := inv.counted
    rw [idle, ← List.take_append_drop n s.tsk.writeQueue, List.countP_append] at counted
    have most : after.countP (fun k => k.seq ≠ 0) ≤ after.length := List.countP_le_length
    rw [queue, inflight, List.countP_append]
    omega
  · cases inv.ends with
    | opened none plain earlier =>
      have front : NoFin after := NoFin.of_map flags (plain.sub fun _ => List.mem_of_mem_take)
      refine .opened (fins.trans none) ?_ ?_
      · rw [queue]
        exact front.append (plain.sub fun _ => List.mem_of_mem_drop)
      · rw [history]
        exact earlier.append front
    | waiting front last one shape plain unsent earlier =>
      rw [shape, List.length_append, List.length_singleton] at amount
      rw [shape] at flags queue
      by_cases reached : n ≤ front.length
      · rw [List.take_append_of_le_length reached] at flags
        rw [List.drop_append_of_le_length reached, ← List.append_assoc] at queue
        have sentPart : NoFin after := NoFin.of_map flags (plain.sub fun _ => List.mem_of_mem_take)
        refine .waiting _ last (fins.trans one) queue ?_ unsent ?_
        · exact sentPart.append (plain.sub fun _ => List.mem_of_mem_drop)
        · rw [history]
          exact earlier.append sentPart
      · -- the FIN goes out with all that waited ahead of it
        have all : (front ++ [last]).length ≤ n := by
          rw [List.length_append, List.length_singleton]
          omega
        rw [List.take_of_length_le all] at flags
        rw [List.drop_of_length_le all, List.append_nil] at queue
        have ends : FinLast after := by
          refine FinLast.of_map flags ?_
          exact plain.append_last fun _ member => by cases member
        refine .done (fins.trans one) (.inr (.inl ?_)) ?_ ?_
        · rw [queue, inflight, length]
        · rw [queue]
          exact ends
        · rw [history]
          exact earlier.append_last ends
    | done one spent last earlier =>
      have none : s.tsk.writeQueue = [] := by
        rcases spent with none | all | ⟨busy, -⟩
        · exact none
        · exact List.length_eq_zero_iff.mp (all.symm.trans idle)
        · exact absurd idle busy
      have nothing : after = [] := by
        rw [none] at amount
        exact List.length_eq_zero_iff.mp (length.trans (by simpa using amount))
      rw [none, nothing] at queue
      rw [nothing, List.append_nil] at history
      refine .done (fins.trans one) (.inl (by simpa using queue)) ?_ (by rw [history]; exact earlier)
      rw [queue]
      exact fun _ member => by simp at member

theorem again (inv : CloseInv s) (head : s.tsk.writeQueue.head? = some k) :
    CloseInv (retransmitHead s k) := by
  have same := tcpTransmitSkb_same s k s.tsk.tcb.sndUna
  obtain ⟨rest, shape⟩ := List.head?_eq_some_iff.mp head
  set k' := (tcpTransmitSkb s k s.tsk.tcb.sndUna).2 with hk'
  have queue : (retransmitHead s k).tsk.writeQueue = k' :: rest := by
    simp only [retransmitHead, setHead, same.writeQueue, shape, List.tail_cons, hk']
  have inflight : (retransmitHead s k).tsk.inflight = s.tsk.inflight := same.inflight
  have fins : (retransmitHead s k).fins = s.fins := same.fins
  have sent : (retransmitHead s k).sent = s.sent := same.sent
  have flags : (k' :: rest).map SkBuff.isFin = s.tsk.writeQueue.map SkBuff.isFin := by
    rw [shape]
    rfl
  constructor
  · have counted := inv.counted
    rw [shape, List.countP_cons] at counted
    rw [queue, inflight, List.countP_cons]
    exact counted
  · cases inv.ends with
    | opened none plain history =>
      refine .opened (fins.trans none) ?_ (by rw [sent]; exact history)
      rw [queue]
      exact plain.of_map flags
    | waiting front last one shape' plain unsent history =>
      rw [shape] at shape'
      rw [← sent] at history
      cases front with
      | nil =>
        obtain ⟨rfl, rfl⟩ := by simpa using shape'
        exact .waiting [] k' (fins.trans one) queue plain unsent history
      | cons first others =>
        obtain ⟨rfl, rfl⟩ := List.cons.inj shape'
        have flags : (k' :: others).map SkBuff.isFin = (k :: others).map SkBuff.isFin := rfl
        exact .waiting (k' :: others) last (fins.trans one) queue (plain.of_map flags) unsent history
    | done one spent last history =>
      refine .done (fins.trans one) ?_ ?_ (by rw [sent]; exact history)
      · rw [Spent, queue, inflight]
        rw [Spent, shape] at spent
        rcases spent with none | all | ⟨busy, j, first, unsent⟩
        · cases none
        · exact .inr (.inl all)
        · obtain rfl : k = j := by simpa using first
          exact .inr (.inr ⟨busy, k', rfl, unsent⟩)
      · rw [queue]
        exact last.of_map flags

/- A buffer that is not a FIN, in a stream that is open. -/
theorem queue (inv : CloseInv s) (open_ : s.fins = 0) (unsent : k.seq = 0) (text : k.th.fin = false) :
    CloseInv (tcpQueueTransmitSkb s k) := by
  obtain ⟨-, fins, -⟩ := tcpQueueTransmitSkb_view (s := s) k
  obtain ⟨plain, history⟩ : NoFin s.tsk.writeQueue ∧ NoFin s.sent := by
    cases inv.ends with
    | opened _ plain history => exact ⟨plain, history⟩
    | waiting _ _ one => omega
    | done one => omega
  have counted := inv.counted
  by_cases idle : s.tsk.inflight = 0
  · obtain ⟨k', seg, sentAs, shape, inflight, sent, -⟩ := tcpQueueTransmitSkb_now k idle
    have single : NoFin [k'] := by
      intro j member
      obtain rfl := List.mem_singleton.mp member
      exact sentAs.fin.trans text
    refine ⟨?_, .opened (fins.trans open_) ?_ ?_⟩
    · have one : [k'].countP (fun k => k.seq ≠ 0) ≤ [k'].length := List.countP_le_length
      rw [shape, inflight, List.countP_append]
      simp only [List.length_singleton] at one
      omega
    · rw [shape]
      exact plain.append single
    · rw [sent]
      exact history.append single
  · obtain ⟨u, frame, eq⟩ := tcpQueueTransmitSkb_later k idle
    rw [eq] at fins ⊢
    refine ⟨?_, .opened (fins.trans open_) ?_ ?_⟩
    · show (u.tsk.writeQueue ++ [k]).countP _ ≤ u.tsk.inflight
      rw [frame.writeQueue, frame.inflight, List.countP_append]
      simpa [unsent] using counted
    · show NoFin (u.tsk.writeQueue ++ [k])
      rw [frame.writeQueue]
      refine plain.append fun j member => ?_
      obtain rfl := List.mem_singleton.mp member
      exact text
    · show NoFin u.sent
      rw [frame.sent]
      exact history

/- The FIN. -/
theorem fin (inv : CloseInv s) (open_ : s.fins = 0) : CloseInv (tcpQueueFin s) := by
  obtain ⟨plain, history⟩ : NoFin s.tsk.writeQueue ∧ NoFin s.sent := by
    cases inv.ends with
    | opened _ plain history => exact ⟨plain, history⟩
    | waiting _ _ one => omega
    | done one => omega
  have counted := inv.counted
  obtain ⟨-, fins, -⟩ := tcpQueueFin_view s
  have one : (tcpQueueFin s).fins = 1 := by omega
  unfold tcpQueueFin at one ⊢
  dsimp only at one ⊢
  generalize hu : (tcpAllocSkb { s with fins := s.fins + 1 } 0 []).1 = u at one ⊢
  generalize hk : ({ (tcpAllocSkb { s with fins := s.fins + 1 } 0 []).2 with
    th := { (tcpAllocSkb { s with fins := s.fins + 1 } 0 []).2.th with fin := true, ack := true } }
      : SkBuff) = k at one ⊢
  have unsent : k.seq = 0 := by rw [← hk]; rfl
  have sameQueue : u.tsk.writeQueue = s.tsk.writeQueue := by rw [← hu]; rfl
  have sameFlight : u.tsk.inflight = s.tsk.inflight := by rw [← hu]; rfl
  have sameSent : u.sent = s.sent := by rw [← hu]; rfl
  rw [← sameQueue, ← sameFlight] at counted
  rw [← sameQueue] at plain
  rw [← sameSent] at history
  have alone : ∀ j : SkBuff, FinLast [j] := fun j _ member => by cases member
  by_cases idle : u.tsk.inflight = 0
  · obtain ⟨k', seg, -, shape, inflight, sent, -⟩ := tcpQueueTransmitSkb_now k idle
    refine ⟨?_, .done one ?_ ?_ ?_⟩
    · have most : [k'].countP (fun k => k.seq ≠ 0) ≤ [k'].length := List.countP_le_length
      rw [shape, inflight, List.countP_append]
      simp only [List.length_singleton] at most
      omega
    · -- ahead of the FIN only buffers that will never be numbered can be left
      rw [Spent, shape, inflight]
      cases ahead : u.tsk.writeQueue with
      | nil => exact .inr (.inl rfl)
      | cons first rest =>
        rw [ahead, idle, Nat.le_zero, List.countP_eq_zero] at counted
        have zero : first.seq = 0 := by simpa using counted first (by simp)
        exact .inr (.inr ⟨by omega, first, rfl, zero⟩)
    · rw [shape]
      exact plain.append_last (alone k')
    · rw [sent]
      exact history.append_last (alone k')
  · obtain ⟨v, frame, eq⟩ := tcpQueueTransmitSkb_later k idle
    rw [eq] at one ⊢
    refine ⟨?_, .waiting u.tsk.writeQueue k one ?_ plain unsent ?_⟩
    · show (v.tsk.writeQueue ++ [k]).countP _ ≤ v.tsk.inflight
      rw [frame.writeQueue, frame.inflight, List.countP_append]
      simpa [unsent] using counted
    · show v.tsk.writeQueue ++ [k] = _
      rw [frame.writeQueue]
    · show NoFin v.sent
      rw [frame.sent]
      exact history

theorem free (inv : CloseInv s) : CloseInv (socketFree s) := by
  obtain ⟨freed, eq⟩ := socketFree_eq s
  rw [eq]
  refine ⟨by simp [socketRelease, wakeSleep, socketWrAcquire], ?_⟩
  have nothing : ∀ {p : List SkBuff → Prop}, p [] → p (socketRelease (wakeSleep { socketWrAcquire s with
      sock.registered := false, sock.skFreed := true
      tsk.receiveQueue := [], tsk.writeQueue := [], freed := freed })).tsk.writeQueue := fun h => h
  cases inv.ends with
  | opened none _ history => exact .opened none (nothing fun _ member => by cases member) history
  | waiting _ _ one _ _ _ history =>
    exact .done one (.inl rfl) (nothing fun _ member => by cases member) history.last
  | done one _ _ history =>
    exact .done one (.inl rfl) (nothing fun _ member => by cases member) history

end CloseInv

/-! ### Calls -/

theorem tcpSendLoop_close (mss fuel : Nat) (buf : List UInt8) (inv : CloseInv s) (open_ : s.fins = 0) :
    CloseInv (tcpSendLoop mss fuel s buf) := by
  induction fuel generalizing s buf with
  | zero => exact inv
  | succ fuel ih =>
    rw [tcpSendLoop]
    split
    · exact inv
    · dsimp only
      have allocated : CloseInv (tcpAllocSkb s 0 (buf.take mss)).1 :=
        inv.frame (.of_minor (tcpAllocSkb_minor s 0 _))
      refine ih (buf.drop mss) (allocated.queue open_ rfl rfl) ?_
      obtain ⟨-, fins, -⟩ := tcpQueueTransmitSkb_view (s := (tcpAllocSkb s 0 (buf.take mss)).1)
        { (tcpAllocSkb s 0 (buf.take mss)).2 with
          th := { (tcpAllocSkb s 0 (buf.take mss)).2.th with
            ack := true, psh := (buf.drop mss).length = 0 } }
      exact fins.trans open_

theorem tcpWrite_close (buf : List UInt8) (inv : CloseInv s) (ok : Writable s → s.fins = 0) :
    CloseInv (tcpWrite s buf).1 := by
  have writes : Writable s → CloseInv (tcpSend s buf) := by
    intro writable
    unfold tcpSend
    refine CloseInv.frame ?_ (tcpRearmUserTimeout_send _)
    exact tcpSendLoop_close _ _ _ (inv.view rfl rfl rfl rfl) (ok writable)
  unfold tcpWrite
  split
  · exact inv
  · rename_i noErr
    split
    · rename_i at_state
      exact writes ⟨by simpa using noErr, .inl at_state⟩
    · rename_i at_state
      exact writes ⟨by simpa using noErr, .inr at_state⟩
    · exact inv

theorem tcpClose_close (inv : CloseInv s) (ok : Closable s → s.fins = 0) :
    CloseInv (tcpClose s).1 := by
  unfold tcpClose
  split
  iterate 6 exact inv.frame (.of_out rfl rfl rfl rfl)
  iterate 3 exact inv.frame (tcpDone_send s)
  · rename_i at_state
    have moved : CloseInv (setState s .finWait1) := inv.view rfl rfl rfl rfl
    exact moved.fin (ok (.inl at_state))
  · rename_i at_state
    exact inv.fin (ok (.inr at_state))

theorem tcpV4Connect_close (addr : SockAddr) (port : UInt16) (iss : UInt32) (inv : CloseInv s)
    (closed : s.tsk.state = .close) (open_ : s.fins = 0) :
    CloseInv (tcpV4Connect s addr port iss) := by
  unfold tcpV4Connect tcpConnect tcpSendSyn
  simp only [closed]
  rw [if_neg (by simp)]
  refine CloseInv.view (CloseInv.queue ?_ ?_ ?_ ?_) rfl rfl rfl rfl
  · exact inv.view rfl rfl rfl rfl
  · exact open_
  · rfl
  · rfl

theorem CloseInv.options (inv : CloseInv s) (th : TcpHdr) :
    CloseInv { s with tsk := tcpParseOpts s.tsk th } := by
  refine CloseInv.frame ?_ (.of_minor (tcpParseOpts_minor s th))
  exact inv.view rfl rfl rfl rfl

theorem synsentSyn_close (th : TcpHdr) (inv : CloseInv s) : CloseInv (synsentSyn s th) := by
  have acked : CloseInv (synsentAck s th) := by
    unfold synsentAck
    have learned : CloseInv { s with tsk.tcb.rcvNxt := th.seq + 1, tsk.tcb.irs := th.seq } :=
      inv.view rfl rfl rfl rfl
    dsimp only
    split
    · refine CloseInv.clean ?_ _
      exact learned.view rfl rfl rfl rfl
    · exact learned
  unfold synsentSyn
  generalize synsentAck s th = u at acked
  dsimp only
  split
  · unfold synsentEstablish
    refine CloseInv.frame ?_ (sockConnected_send _)
    refine CloseInv.options ?_ th
    refine CloseInv.frame ?_ (tcpRearmUserTimeout_send _)
    refine CloseInv.frame ?_ (.of_minor (tcpSendAck_minor _))
    exact acked.view rfl rfl rfl rfl
  · rw [tcpSendSynack_minor _ (by simp [setState])]
    exact acked.view rfl rfl rfl rfl

theorem tcpSendReset_close (inv : CloseInv s) : CloseInv (tcpSendReset s) := by
  unfold tcpSendReset
  dsimp only
  refine CloseInv.frame ?_ (.of_minor (freeSkb_minor _ _))
  refine CloseInv.frame ?_ (.of_minor (tcpTransmitSkb_minor _ _ _ rfl rfl rfl))
  exact inv.view rfl rfl rfl rfl

/-! ### Events -/

/-- Once the FIN has been queued no call is made that `tcp_write` or `tcp_close` would still accept:
    none in CLOSE_WAIT, a write when an error is pending aside. -/
def NothingAfterClose (s : Conn) : Event → Prop
  | .write _ => Writable s → s.fins = 0
  | .close => Closable s → s.fins = 0
  | _ => True

instance (s : Conn) (e : Event) : Decidable (NothingAfterClose s e) := by
  induction e using Event.casesOn <;> unfold NothingAfterClose <;> infer_instance

theorem exec_close {e : Event} {r : Reply} (inv : CloseInv s)
    (fresh : s.tsk.state = .close → s.fins = 0) (ok : NothingAfterClose s e)
    (taken : exec s e = some (t, r)) : CloseInv t := by
  refine exec_rule (fun _ _ h inv => CloseInv.frame inv h) (fun _ => CloseInv.free) inv taken
    ?write ?close ?connect ?segment ?handler ?reset
  case write =>
    rintro buf rfl _ locked
    exact tcpWrite_close buf locked ok
  case close =>
    rintro rfl _ locked
    exact tcpClose_close locked ok
  case connect =>
    rintro addr port iss rfl _ closed locked
    exact tcpV4Connect_close addr port iss locked closed (fresh closed)
  case segment =>
    rintro th payload rfl _ locked
    refine tcpInputState_rule (fun _ _ h inv => CloseInv.frame inv h) locked ?_ ?_ ?_ ?_
    · exact fun _ => tcpSendReset_close locked
    · exact fun _ => synsentSyn_close th locked
    · exact fun _ _ _ held => held.ack th
    · exact fun _ _ idle amount held => held.next idle amount
  case handler =>
    rintro i h rfl _ _
    constructor
    · intro _ ts locked
      refine tcpConnectRto_rule (fun _ _ h inv => CloseInv.frame inv h) locked ?_
      exact fun _ _ _ _ head held => held.again head
    · intro _ ts locked
      refine tcpRetransmissionTimeout_rule (fun _ _ h inv => CloseInv.frame inv h) locked ?_ ?_
      · exact fun _ _ _ head held => held.again head
      · intro u held
        unfold tcpHandleFinState
        split
        · exact held.view rfl rfl rfl rfl
        · exact held.view rfl rfl rfl rfl
        · exact held
  case reset =>
    exact fun _ u _ held => tcpSendReset_close held

/-! ### Counting the FINs -/

/- A `tcp_close` that queues a FIN and returns 0. -/
def ClosesLocal (s : Conn) (e : Event) : Prop := e = .close ∧ Closable s

instance (s : Conn) (e : Event) : Decidable (ClosesLocal s e) := inferInstanceAs (Decidable (_ ∧ _))

/- The states in which a FIN may have been queued. -/
def TcpState.committed (a : TcpState) : Bool := !a.early && a ≠ .established

theorem TcpState.committed_leads : ∀ {f : Bool} {a b : TcpState}, a.committed = true →
    a.leadsTo f b = true → b.committed = true := by
  decide

theorem tcpSendLoop_fins (mss fuel : Nat) (buf : List UInt8) :
    (tcpSendLoop mss fuel s buf).fins = s.fins := by
  induction fuel generalizing s buf with
  | zero => rfl
  | succ fuel ih =>
    rw [tcpSendLoop]
    split
    · rfl
    · dsimp only
      rw [ih, (tcpQueueTransmitSkb_view _).2.1]
      rfl

theorem tcpWrite_fins (buf : List UInt8) : (tcpWrite s buf).1.fins = s.fins := by
  have sends : (tcpSend s buf).fins = s.fins :=
    (tcpRearmUserTimeout_send _).fins.trans (tcpSendLoop_fins _ _ _)
  unfold tcpWrite
  split
  · rfl
  · split
    · exact sends
    · exact sends
    · rfl

theorem tcpV4Connect_fins (addr : SockAddr) (port : UInt16) (iss : UInt32)
    (closed : s.tsk.state = .close) : (tcpV4Connect s addr port iss).fins = s.fins := by
  unfold tcpV4Connect tcpConnect tcpSendSyn
  simp only [closed]
  rw [if_neg (by simp)]
  have queued := fun (u : Conn) (k : SkBuff) => (tcpQueueTransmitSkb_view (s := u) k).2.1
  exact queued _ _

theorem exec_fins {e : Event} {r : Reply} (taken : exec s e = some (t, r)) :
    if ClosesLocal s e then t.fins = s.fins + 1 ∧ r = .ret 0 ∧ t.tsk.state.committed = true
    else t.fins = s.fins := by
  split
  · rename_i closes
    obtain ⟨rfl, closable⟩ := closes
    simp only [exec, call] at taken
    split at taken
    · rcases closable with at_state | at_state
      · have queues : tcpClose (socketWrAcquire s) =
            (tcpQueueFin (setState (socketWrAcquire s) .finWait1), 0) := by
          unfold tcpClose
          rw [show (socketWrAcquire s).tsk.state = .established from at_state]
        rw [queues] at taken
        obtain ⟨rfl, rfl⟩ := by simpa using taken
        refine ⟨(tcpQueueFin_view _).2.1, rfl, ?_⟩
        rw [show (socketRelease (tcpQueueFin (setState (socketWrAcquire s) .finWait1))).tsk.state
          = .finWait1 from (tcpQueueFin_stays _).state]
        rfl
      · have queues : tcpClose (socketWrAcquire s) = (tcpQueueFin (socketWrAcquire s), 0) := by
          unfold tcpClose
          rw [show (socketWrAcquire s).tsk.state = .closeWait from at_state]
        rw [queues] at taken
        obtain ⟨rfl, rfl⟩ := by simpa using taken
        refine ⟨(tcpQueueFin_view _).2.1, rfl, ?_⟩
        rw [show (socketRelease (tcpQueueFin (socketWrAcquire s))).tsk.state = .closeWait from
          (tcpQueueFin_stays _).state.trans at_state]
        rfl
    · contradiction
  · rename_i other
    have again : ∀ u k, u.fins = s.fins → (retransmitHead u k).fins = s.fins := by
      intro u k held
      obtain ⟨_, same⟩ := retransmitHead_touches u k
      exact same.fins.trans held
    refine exec_rule (P := fun u => u.fins = s.fins) (fun _ _ h held => h.fins.trans held) ?free rfl
      taken ?write ?close ?connect ?segment ?handler ?reset
    case free =>
      intro u held
      obtain ⟨_, eq⟩ := socketFree_eq u
      rw [eq]
      exact held
    case write =>
      rintro buf rfl _ _
      exact tcpWrite_fins buf
    case close =>
      rintro rfl _ _
      have notClosable : ¬Closable s := fun closable => other ⟨rfl, closable⟩
      unfold tcpClose
      split
      iterate 6 rfl
      iterate 3 exact (tcpDone_send _).fins
      · rename_i at_state
        exact absurd (.inl at_state) notClosable
      · rename_i at_state
        exact absurd (.inr at_state) notClosable
    case connect =>
      rintro addr port iss rfl _ closed _
      exact tcpV4Connect_fins addr port iss closed
    case segment =>
      rintro th payload rfl _ held
      exact (tcpInputState_keeps th _).fins.trans held
    case handler =>
      rintro i h rfl _ _
      constructor
      · intro _ ts held
        refine tcpConnectRto_rule (fun _ _ h held => h.fins.trans held) held ?_
        exact fun u k _ _ _ => again u k
      · intro _ ts held
        refine tcpRetransmissionTimeout_rule (fun _ _ h held => h.fins.trans held) held ?_ ?_
        · exact fun u k _ _ => again u k
        · exact fun _ held => tcpHandleFinState_keeps.fins.trans held
    case reset =>
      intro _ u _ held
      exact tcpSendReset_keeps.fins.trans held

/-! ### Runs -/

/-- A write or a close fails with an error and leaves the send side as it is. -/
def Refused (s t : Conn) : Event → Reply → Prop
  | .write _, r => (∃ rc, r = .ret rc ∧ rc ≠ 0 ∧ (rc = s.tsk.err ∨ rc = -EBADF)) ∧
      t.tsk.writeQueue = s.tsk.writeQueue ∧ t.sent = s.sent ∧ t.accepted = s.accepted
  | .close, r => r = .ret (-1) ∧ t.tsk.writeQueue = s.tsk.writeQueue ∧ t.sent = s.sent ∧
      t.fins = s.fins
  | _, _ => True

theorem exec_refused {e : Event} {r : Reply} (closed : 0 < s.fins)
    (committed : s.tsk.state.committed = true) (ok : NothingAfterClose s e)
    (taken : exec s e = some (t, r)) : Refused s t e r := by
  cases e with
  | write buf =>
    have notWritable : ¬Writable s := fun writable => by
      have := ok writable
      omega
    simp only [exec, call] at taken
    split at taken
    · have refuses : ∃ rc, tcpWrite (socketWrAcquire s) buf = (socketWrAcquire s, rc) ∧ rc ≠ 0 ∧
          (rc = s.tsk.err ∨ rc = -EBADF) := by
        unfold tcpWrite
        split
        · rename_i pending
          exact ⟨s.tsk.err, rfl, pending, .inl rfl⟩
        · rename_i noErr
          split
          · rename_i at_state
            exact absurd ⟨not_not.mp noErr, .inl at_state⟩ notWritable
          · rename_i at_state
            exact absurd ⟨not_not.mp noErr, .inr at_state⟩ notWritable
          · exact ⟨-EBADF, rfl, by decide, .inr rfl⟩
      obtain ⟨rc, eq, error⟩ := refuses
      rw [eq] at taken
      obtain ⟨rfl, rfl⟩ := by simpa using taken
      exact ⟨⟨rc, rfl, error⟩, rfl, rfl, rfl⟩
    · contradiction
  | close =>
    have notClosable : ¬Closable s := fun closable => by
      have := ok closable
      omega
    simp only [exec, call] at taken
    split at taken
    · have refuses : tcpClose (socketWrAcquire s) =
          ({ socketWrAcquire s with tsk.err := -EBADF }, -1) := by
        unfold tcpClose
        split
        iterate 6 rfl
        iterate 3
          rename_i at_state
          rw [show s.tsk.state = _ from at_state] at committed
          cases committed
        · rename_i at_state
          exact absurd (.inl at_state) notClosable
        · rename_i at_state
          exact absurd (.inr at_state) notClosable
      rw [refuses] at taken
      obtain ⟨rfl, rfl⟩ := by simpa using taken
      exact ⟨rfl, rfl, rfl, rfl⟩
    · contradiction
  | _ => trivial

/-- The FIN ends the send stream in every run that makes no call in CLOSE_WAIT after the close: one
    FIN at most, nothing queued behind it or numbered after it, and every later write and close
    refused. -/
theorem fin_ends_stream {trace : List (Event × Reply)}
    (run : Run exec (fun _ s e => NothingAfterClose s e) {} trace s) :
    s.fins ≤ 1 ∧ FinLast s.tsk.writeQueue ∧ FinLast s.sent ∧
      (Occurs exec ClosesLocal {} trace → ∀ e t r, NothingAfterClose s e →
        exec s e = some (t, r) → Refused s t e r) := by
  have invariant : CloseInv s ∧ (0 < s.fins → s.tsk.state.committed = true) ∧
      (Occurs exec ClosesLocal {} trace → 0 < s.fins) := by
    induction run with
    | start =>
      have nothing : NoFin [] := fun _ member => by cases member
      exact ⟨⟨by decide, .opened rfl nothing nothing⟩, (fun some => by cases some),
        fun once => absurd once id⟩
    | @next trace s t e r before ok taken held =>
      obtain ⟨inv, committed, once⟩ := held
      have fins := exec_fins taken
      rw [before.occurs_snoc taken]
      refine ⟨exec_close inv (fun closed => ?_) ok taken, ?_, ?_⟩
      · by_contra some
        have := committed (Nat.pos_of_ne_zero some)
        rw [closed] at this
        cases this
      · split at fins
        · exact fun _ => fins.2.2
        · rw [fins]
          intro some
          obtain ⟨timeout, leads⟩ := exec_leads s true taken
          by_cases timedOut : FinTimedOut s e
          · rw [(timeout timedOut).1]
            rfl
          · exact TcpState.committed_leads (committed some) (leads timedOut).state
      · split at fins
        · omega
        · rename_i other
          rw [fins]
          exact fun h => h.elim once fun closes => absurd closes other
  obtain ⟨inv, committed, once⟩ := invariant
  refine ⟨?_, ?_, ?_, fun closed e t r ok taken => ?_⟩
  · cases inv.ends with
    | opened none => omega
    | waiting _ _ one => omega
    | done one => omega
  · cases inv.ends with
    | opened _ plain => exact plain.last
    | waiting front last _ shape plain =>
      rw [shape]
      exact plain.append_last fun _ member => by cases member
    | done _ _ last => exact last
  · cases inv.ends with
    | opened _ _ history => exact history.last
    | waiting _ _ _ _ _ _ history => exact history.last
    | done _ _ _ history => exact history
  · exact exec_refused (once closed) (committed (once closed)) ok taken

theorem fin_ends_stream_active : ∃ trace s,
    Run exec (fun _ s e => NothingAfterClose s e) {} trace s ∧ Occurs exec ClosesLocal {} trace ∧
    (s.fins ≤ 1 ∧ FinLast s.tsk.writeQueue ∧ FinLast s.sent ∧
      (Occurs exec ClosesLocal {} trace → ∀ e t r, NothingAfterClose s e →
        exec s e = some (t, r) → Refused s t e r)) := by
  obtain ⟨p, reached, closed⟩ : ∃ p ∈ follow exec (fun _ s e => NothingAfterClose s e) [] {}
      (handshake ++ [.write [7], .close, .write [8], .close]), Occurs exec ClosesLocal {} p.1 := by
    decide
  have run := Run.of_follow _ .start reached
  exact ⟨p.1, p.2, run, closed, fin_ends_stream run⟩

/-- After a close in CLOSE_WAIT a write is still taken, and so is another close. -/
theorem write_after_close_taken :
    (∃ trace s t, Run exec (fun _ _ _ => True) {} trace s ∧ Occurs exec ClosesLocal {} trace ∧
      exec s (.write [8]) = some (t, .ret 1) ∧ t.tsk.writeQueue.length = s.tsk.writeQueue.length + 1) ∧
    ∃ trace s, Run exec (fun _ _ _ => True) {} trace s ∧ s.fins = 2 := by
  constructor
  · obtain ⟨p, reached, closed, q, taken, queued, reply⟩ : ∃ p ∈ follow exec (fun _ _ _ => True) [] {}
        (handshake ++ [.segment { peerHdr 5001 1001 with fin := true } [], .close]),
        Occurs exec ClosesLocal {} p.1 ∧ ∃ q ∈ exec p.2 (.write [8]),
          q.1.tsk.writeQueue.length = p.2.tsk.writeQueue.length + 1 ∧ q.2 = .ret 1 := by
      decide
    have taken : exec p.2 (.write [8]) = some (q.1, .ret 1) := by rw [← reply]; exact taken
    exact ⟨p.1, p.2, q.1, Run.of_follow _ .start reached, closed, taken, queued⟩
  · exact Run.exists_of_follow (handshake ++
      [.segment { peerHdr 5001 1001 with fin := true } [], .close, .close]) (by decide)

end HfIp
