import HfIp.RetransmitTimer
import HfIp.SackGeneration

/- What becomes of the buffers of a connection: each buffer that has been allocated is in one of its
   three queues or has been freed, and in one place only. -/
namespace HfIp

open Transition

variable {s t u : Conn} {th : TcpHdr} {skb : SkBuff} {given more : List Nat}

def ids (queue : List SkBuff) : List Nat := queue.map SkBuff.id

/-- Where buffers are: linked in a queue, or given to `free`. -/
def places (s : Conn) : List Nat :=
  ids s.tsk.receiveQueue ++ ids s.tsk.ofoQueue ++ ids s.tsk.writeQueue ++ s.freed

/- How many of the buffers numbered below `next` are the `i`-th. -/
def allocated (next i : Nat) : Nat := if i < next then 1 else 0

/- Received buffers are counted once while they are queued, those that wait to be sent are not counted;
   the queue for what came too early is empty once `tcp_done` has run. -/
structure Referenced (s : Conn) : Prop where
  received : ∀ k ∈ s.tsk.receiveQueue ++ s.tsk.ofoQueue, k.refcnt = 1
  sending : ∀ k ∈ s.tsk.writeQueue, k.refcnt = 0
  cleared : Ended s → s.tsk.ofoQueue = []

/- The buffers in hand, given to the function, have come to a place, and those it allocated as well. -/
structure Ledger (given : List Nat) (s t : Conn) : Prop where
  counted : Referenced s → Referenced t
  grown : Referenced s → s.nextSkb ≤ t.nextSkb
  places : Referenced s → ∀ i, (places t).count i + allocated s.nextSkb i =
    (places s).count i + allocated t.nextSkb i + given.count i

namespace Ledger

theorem trans (first : Ledger given s t) (second : Ledger more t u) : Ledger (given ++ more) s u where
  counted := second.counted ∘ first.counted
  grown before := Nat.le_trans (first.grown before) (second.grown (first.counted before))
  places before i := by
    have here := first.places before i
    have there := second.places (first.counted before) i
    rw [List.count_append]
    omega

theorem still (first : Ledger given s t) (second : Ledger [] t u) : Ledger given s u := by
  simpa using first.trans second

theorem after (second : Ledger given t u) (first : Ledger [] s t) : Ledger given s u := first.trans second

/- Nothing but the number and the count of a queued buffer matters. -/
theorem of_eq (received : t.tsk.receiveQueue = s.tsk.receiveQueue) (early : t.tsk.ofoQueue = s.tsk.ofoQueue)
    (sending : t.tsk.writeQueue.map (fun k => (k.id, k.refcnt)) =
      s.tsk.writeQueue.map fun k => (k.id, k.refcnt))
    (freed : t.freed = s.freed) (next : t.nextSkb = s.nextSkb) (ended : t.ended = s.ended) :
    Ledger [] s t where
  counted before := by
    refine ⟨?_, fun k member => ?_, ?_⟩
    · rw [received, early]
      exact before.received
    · obtain ⟨j, inside, same⟩ := List.mem_map.mp
        (sending ▸ List.mem_map_of_mem (f := fun k : SkBuff => (k.id, k.refcnt)) member)
      have count : j.refcnt = k.refcnt := congrArg Prod.snd same
      rw [← count]
      exact before.sending j inside
    · unfold Ended
      rw [early, ended]
      exact before.cleared
  grown _ := Nat.le_of_eq next.symm
  places _ i := by
    have same : ids t.tsk.writeQueue = ids s.tsk.writeQueue := by
      have numbers := congrArg (List.map Prod.fst) sending
      rwa [List.map_map, List.map_map] at numbers
    unfold HfIp.places
    rw [received, early, same, freed, next]
    rfl

theorem of_rfl (received : t.tsk.receiveQueue = s.tsk.receiveQueue) (early : t.tsk.ofoQueue = s.tsk.ofoQueue)
    (sending : t.tsk.writeQueue = s.tsk.writeQueue) (freed : t.freed = s.freed)
    (next : t.nextSkb = s.nextSkb) (ended : t.ended = s.ended) : Ledger [] s t :=
  of_eq received early (congrArg _ sending) freed next ended

theorem refl (s : Conn) : Ledger [] s s := of_rfl rfl rfl rfl rfl rfl rfl

/- A buffer that is not counted is freed. -/
theorem free (k : SkBuff) (low : k.refcnt < 1) : Ledger [k.id] s (freeSkb s k) := by
  unfold freeSkb
  rw [if_pos low]
  refine ⟨fun before => ⟨before.received, before.sending, before.cleared⟩, fun _ => Nat.le_refl _,
    fun _ i => ?_⟩
  simp only [HfIp.places, List.count_append]
  omega

/- And one that is counted is not. -/
theorem kept (k : SkBuff) (high : ¬k.refcnt < 1) : Ledger [] s (freeSkb s k) := by
  unfold freeSkb
  rw [if_neg high]
  exact .refl s

/- What is done with a new buffer. -/
theorem alloc (hdr : TcpHdr) (payload : List UInt8)
    (spent : Ledger [s.nextSkb] (allocSkb s hdr payload).1 t) : Ledger [] s t where
  counted before := spent.counted ⟨before.received, before.sending, before.cleared⟩
  grown before := Nat.le_of_succ_le (spent.grown ⟨before.received, before.sending, before.cleared⟩)
  places before i := by
    have spent := spent.places ⟨before.received, before.sending, before.cleared⟩ i
    simp only [HfIp.places, allocated, allocSkb, List.count_append, List.count_singleton] at spent ⊢
    grind

theorem of_same (h : Same s t) (freed : t.freed = s.freed) (next : t.nextSkb = s.nextSkb) :
    Ledger [] s t := of_rfl h.receiveQueue h.ofoQueue h.writeQueue freed next h.ended

/- A buffer is put behind the write queue. -/
theorem queue {k : SkBuff} (zero : k.refcnt = 0) (received : t.tsk.receiveQueue = s.tsk.receiveQueue)
    (early : t.tsk.ofoQueue = s.tsk.ofoQueue) (sending : t.tsk.writeQueue = s.tsk.writeQueue ++ [k])
    (freed : t.freed = s.freed) (next : t.nextSkb = s.nextSkb) (ended : t.ended = s.ended) :
    Ledger [k.id] s t where
  counted before := by
    refine ⟨?_, fun j member => ?_, ?_⟩
    · rw [received, early]
      exact before.received
    · rw [sending] at member
      rcases List.mem_append.mp member with old | new
      · exact before.sending j old
      · rw [List.mem_singleton.mp new]
        exact zero
    · unfold Ended
      rw [early, ended]
      exact before.cleared
  grown _ := Nat.le_of_eq next.symm
  places _ i := by
    simp only [HfIp.places, ids, received, early, sending, freed, next, List.map_append,
      List.map_singleton, List.count_append]
    omega

end Ledger

variable (s : Conn)

/-! ### Ends of the connection -/

theorem tcpRearmUserTimeout_ledger : Ledger [] s (tcpRearmUserTimeout s) := by
  unfold tcpRearmUserTimeout
  split
  · exact .refl s
  · exact .of_rfl rfl rfl rfl rfl rfl rfl

theorem tcpRearmRtoTimer_ledger : Ledger [] s (tcpRearmRtoTimer s) := by
  obtain ⟨_, _, eq⟩ := tcpRearmRtoTimer_touches s
  rw [eq]
  exact .of_rfl rfl rfl rfl rfl rfl rfl

theorem tcpEnterTimeWait_ledger : Ledger [] s (tcpEnterTimeWait s) := .of_rfl rfl rfl rfl rfl rfl rfl

theorem freeSkb_low {k : SkBuff} (low : k.refcnt < 1) :
    freeSkb s k = { s with freed := s.freed ++ [k.id] } := by
  unfold freeSkb
  rw [if_pos low]

/- `skb_queue_free` frees the buffers of a queue in their order. -/
theorem skbQueueFree_freed {queue : List SkBuff} (low : ∀ k ∈ queue, k.refcnt - 1 < 1) :
    skbQueueFree s queue = { s with freed := s.freed ++ ids queue } := by
  induction queue generalizing s with
  | nil => simp [skbQueueFree, ids]
  | cons k rest ih =>
    have first := freeSkb_low s (k := { k with refcnt := k.refcnt - 1 }) (low k (by simp))
    show skbQueueFree (freeSkb s { k with refcnt := k.refcnt - 1 }) rest = _
    rw [first, ih _ fun j member => low j (by simp [member])]
    simp [ids]

/- `tcp_done` frees what came too early. -/
theorem tcpDone_ledger : Ledger [] s (tcpDone s) := by
  have deleted : ∀ u : Conn, Ledger [] u (socketDelete u) := by
    intro u
    unfold socketDelete
    split
    · exact .refl u
    · exact .of_rfl rfl rfl rfl rfl rfl rfl
  refine Ledger.still (t := tcpFree (setState { s with ended := true } .closing)) ?_ (deleted _)
  have cleared : Referenced s → tcpFree (setState { s with ended := true } .closing) =
      wakeSleep { tcpClearTimers (setState { s with ended := true } .closing) with
        freed := s.freed ++ ids s.tsk.ofoQueue, tsk.ofoQueue := [] } := by
    intro before
    unfold tcpFree tcpClearQueues
    rw [skbQueueFree_freed]
    · rfl
    · intro k member
      rw [before.received k (List.mem_append_right _ member)]
      decide
  constructor
  · intro before
    rw [cleared before]
    refine ⟨fun k member => before.received k ?_, before.sending, fun _ => rfl⟩
    have left : k ∈ s.tsk.receiveQueue ++ [] := member
    rw [List.append_nil] at left
    exact List.mem_append_left _ left
  · intro before
    rw [cleared before]
    exact Nat.le_refl _
  · intro before i
    rw [cleared before]
    show (ids s.tsk.receiveQueue ++ [] ++ ids s.tsk.writeQueue ++ (s.freed ++ ids s.tsk.ofoQueue)).count i +
      allocated s.nextSkb i = (places s).count i + allocated s.nextSkb i + List.count i []
    simp only [places, List.count_append, List.count_nil]
    omega

/-! ### Sending -/

theorem tcpTransmitSkb_ledger (k : SkBuff) (seq : UInt32) : Ledger [] s (tcpTransmitSkb s k seq).1 :=
  .of_same (tcpTransmitSkb_same s k seq) rfl rfl

/- A buffer for one segment goes after it has been sent. -/
theorem transmitFree_ledger {i : Nat} (k : SkBuff) (seq : UInt32) (same : k.id = i) (zero : k.refcnt = 0) :
    Ledger [i] s (freeSkb (tcpTransmitSkb s k seq).1 (tcpTransmitSkb s k seq).2) := by
  subst same
  have low : (tcpTransmitSkb s k seq).2.refcnt < 1 := by
    show k.refcnt < 1
    rw [zero]
    decide
  exact (Ledger.free _ low).after (tcpTransmitSkb_ledger s k seq)

theorem tcpSendAck_ledger : Ledger [] s (tcpSendAck s) := by
  unfold tcpSendAck
  split
  · exact .refl s
  · exact .alloc { data := List.replicate (tcpOptionsLen s.tsk) 0 } [] (transmitFree_ledger _ _ _ rfl rfl)

theorem tcpSendReset_ledger : Ledger [] s (tcpSendReset s) := by
  refine .alloc { data := [] } [] ?_
  have moved : Ledger [] (tcpAllocSkb s 0 []).1 { (tcpAllocSkb s 0 []).1 with
      tsk.tcb.sndUna := (tcpAllocSkb s 0 []).1.tsk.tcb.sndNxt } := .of_rfl rfl rfl rfl rfl rfl rfl
  refine Ledger.after ?_ moved
  exact transmitFree_ledger _ _ _ rfl rfl

theorem tcpQueueTransmitSkb_ledger {i : Nat} (k : SkBuff) (same : k.id = i) (zero : k.refcnt = 0) :
    Ledger [i] s (tcpQueueTransmitSkb s k) := by
  subst same
  have armed : Ledger [] s (if skbQueueEmpty s.tsk.writeQueue then tcpRearmRtoTimer s else s) := by
    split
    · exact tcpRearmRtoTimer_ledger s
    · exact .refl s
  unfold tcpQueueTransmitSkb
  dsimp only
  generalize (if skbQueueEmpty s.tsk.writeQueue then tcpRearmRtoTimer s else s) = t at armed
  refine Ledger.after ?_ armed
  split
  · have sent := tcpTransmitSkb_ledger t k t.tsk.tcb.sndNxt
    refine Ledger.after ?_ sent
    exact .queue (k := (numberSkb { (tcpTransmitSkb t k t.tsk.tcb.sndNxt).1 with
      tsk.inflight := (tcpTransmitSkb t k t.tsk.tcb.sndNxt).1.tsk.inflight + 1 }
      (tcpTransmitSkb t k t.tsk.tcb.sndNxt).2).2) zero rfl rfl rfl rfl rfl rfl
  · exact .queue zero rfl rfl rfl rfl rfl rfl

theorem tcpSendLoop_ledger (mss fuel : Nat) (buf : List UInt8) :
    Ledger [] s (tcpSendLoop mss fuel s buf) := by
  induction fuel generalizing s buf with
  | zero => exact .refl s
  | succ fuel ih =>
    rw [tcpSendLoop]
    split
    · exact .refl s
    · refine Ledger.still ?_ (ih _ _)
      exact .alloc { data := [] } (buf.take mss) (tcpQueueTransmitSkb_ledger _ _ rfl rfl)

theorem tcpWrite_ledger (buf : List UInt8) : Ledger [] s (tcpWrite s buf).1 := by
  have sent : Ledger [] s (tcpSend s buf) := by
    have taken : Ledger [] s { s with accepted := s.accepted ++ buf } := .of_rfl rfl rfl rfl rfl rfl rfl
    exact (taken.trans (tcpSendLoop_ledger _ s.tsk.smss.toNat buf.length buf)).trans
      (tcpRearmUserTimeout_ledger _)
  unfold tcpWrite
  split
  · exact .refl s
  · split
    · exact sent
    · exact sent
    · exact .refl s

theorem tcpQueueFin_ledger : Ledger [] s (tcpQueueFin s) := by
  have counted : Ledger [] s { s with fins := s.fins + 1 } := .of_rfl rfl rfl rfl rfl rfl rfl
  refine Ledger.after ?_ counted
  exact .alloc { data := [] } [] (tcpQueueTransmitSkb_ledger _ _ rfl rfl)

theorem tcpClose_ledger : Ledger [] s (tcpClose s).1 := by
  unfold tcpClose
  split
  iterate 6 exact .of_rfl rfl rfl rfl rfl rfl rfl
  iterate 3 exact tcpDone_ledger s
  · exact (tcpQueueFin_ledger _).after (.of_rfl rfl rfl rfl rfl rfl rfl)
  · exact tcpQueueFin_ledger s

theorem tcpV4Connect_ledger (addr : SockAddr) (port : UInt16) (iss : UInt32) :
    Ledger [] s (tcpV4Connect s addr port iss) := by
  have dialled : ∀ u : Conn, Ledger [] u (tcpSendSyn u) := by
    intro u
    unfold tcpSendSyn
    split
    · exact .refl u
    · refine .alloc { data := List.replicate (tcpSynOptions u.tsk) 0 } [] ?_
      have called : Ledger [] (tcpAllocSkb u (tcpSynOptions u.tsk) []).1
          (setState (tcpAllocSkb u (tcpSynOptions u.tsk) []).1 .synSent) := .of_rfl rfl rfl rfl rfl rfl rfl
      exact Ledger.after (tcpQueueTransmitSkb_ledger _ _ rfl rfl) called
  have connected : ∀ u : Conn, Ledger [] u (tcpConnect u iss) := by
    intro u
    have numbered : Ledger [] u { u with
        tsk.tcb.iss := iss, tsk.tcb.sndUna := iss, tsk.tcb.sndNxt := iss, tsk.tcb.rcvNxt := 0
        tsk.tcb.rcvWnd := tcpSelectInitialWindow } := .of_rfl rfl rfl rfl rfl rfl rfl
    exact (numbered.trans (dialled _)).still (.of_rfl rfl rfl rfl rfl rfl rfl)
  exact Ledger.after (connected _) (.of_rfl rfl rfl rfl rfl rfl rfl)

/-! ### Timers -/

theorem retransmitHead_ledger {k : SkBuff} (head : s.tsk.writeQueue.head? = some k) :
    Ledger [] s (retransmitHead s k) := by
  have same := tcpTransmitSkb_same s k s.tsk.tcb.sndUna
  refine .of_eq same.receiveQueue same.ofoQueue ?_ rfl rfl rfl
  obtain ⟨rest, queue⟩ : ∃ rest, s.tsk.writeQueue = k :: rest := by
    cases listed : s.tsk.writeQueue with
    | nil => simp [listed] at head
    | cons j rest =>
      obtain rfl : j = k := by simpa [listed] using head
      exact ⟨rest, rfl⟩
  show ((tcpTransmitSkb s k s.tsk.tcb.sndUna).2 ::
    (tcpTransmitSkb s k s.tsk.tcb.sndUna).1.tsk.writeQueue.tail).map _ = _
  rw [same.writeQueue, queue]
  rfl

theorem tcpConnectRto_ledger : Ledger [] s (tcpConnectRto s) := by
  have released : Ledger [] s (tcpReleaseRtoTimer s) := .of_rfl rfl rfl rfl rfl rfl rfl
  unfold tcpConnectRto
  generalize tcpReleaseRtoTimer s = u at released
  dsimp only
  refine Ledger.after ?_ released
  split
  · split
    · exact (tcpDone_ledger _).after (.of_rfl rfl rfl rfl rfl rfl rfl)
    · split
      · exact .refl u
      · rename_i k head
        have again := (retransmitHead_ledger u head).trans (u := { retransmitHead u k with
          tsk.backoff := (retransmitHead u k).tsk.backoff + 1 }) (.of_rfl rfl rfl rfl rfl rfl rfl)
        exact (tcpRearmRtoTimer_ledger _).after again
  · exact .refl u

theorem tcpRetransmissionTimeout_ledger : Ledger [] s (tcpRetransmissionTimeout s) := by
  have released : Ledger [] s (tcpReleaseRtoTimer s) := .of_rfl rfl rfl rfl rfl rfl rfl
  unfold tcpRetransmissionTimeout
  generalize tcpReleaseRtoTimer s = u at released
  dsimp only
  refine Ledger.after ?_ released
  split
  · unfold tcpNotifyUser
    split <;> exact .of_rfl rfl rfl rfl rfl rfl rfl
  · rename_i k head
    refine Ledger.after ?_ (retransmitHead_ledger u head)
    split
    · exact (tcpDone_ledger _).trans (.of_rfl rfl rfl rfl rfl rfl rfl)
    · split
      · unfold tcpHandleFinState
        split <;> exact .of_rfl rfl rfl rfl rfl rfl rfl
      · exact .of_rfl rfl rfl rfl rfl rfl rfl

/-! ### Reads -/

/- The buffers that are eaten up are freed, the others stay as they were counted. -/
theorem dequeueLoop_freed (room : Nat) {queue : List SkBuff} (one : ∀ k ∈ queue, k.refcnt = 1) :
    ∃ eaten, (dequeueLoop s room queue).1.freed = s.freed ++ eaten ∧
      ids queue = eaten ++ ids (dequeueLoop s room queue).2.1 ∧
      ∀ k ∈ (dequeueLoop s room queue).2.1, k.refcnt = 1 := by
  induction queue generalizing s room with
  | nil => exact ⟨[], by simp [dequeueLoop], rfl, by simp [dequeueLoop]⟩
  | cons k rest ih =>
    have counted : k.refcnt = 1 := one k (by simp)
    rw [dequeueLoop]
    split
    · exact ⟨[], by simp, rfl, one⟩
    · dsimp only
      split
      · have flagged : (if k.th.psh then { s with tsk.flags := s.tsk.flags ||| TCP_PSH } else s).freed =
            s.freed := by split <;> rfl
        have gone := freeSkb_low (if k.th.psh then { s with tsk.flags := s.tsk.flags ||| TCP_PSH } else s)
          (k := { k with payload := k.payload.drop room, refcnt := k.refcnt - 1 })
          (by show k.refcnt - 1 < 1; rw [counted]; decide)
        rw [gone]
        obtain ⟨eaten, freed, split, left⟩ := ih { (if k.th.psh then
          { s with tsk.flags := s.tsk.flags ||| TCP_PSH } else s) with
          freed := (if k.th.psh then { s with tsk.flags := s.tsk.flags ||| TCP_PSH } else s).freed ++ [k.id] }
          (room - (k.payload.take room).length) fun j member => one j (by simp [member])
        refine ⟨k.id :: eaten, ?_, ?_, left⟩
        · rw [freed]
          dsimp only
          rw [flagged, List.append_assoc, List.singleton_append]
        · exact congrArg (k.id :: ·) split
      · refine ⟨[], by simp, rfl, fun j member => ?_⟩
        rcases List.mem_cons.mp member with rfl | later
        · exact counted
        · exact one j (by simp [later])

theorem tcpDataDequeue_ledger (userlen : Nat) : Ledger [] s (tcpDataDequeue s userlen).1 := by
  obtain ⟨freed, flags, eq⟩ := dequeueLoop_touches s userlen s.tsk.receiveQueue
  have eaten : Referenced s → ∃ eaten, freed = s.freed ++ eaten ∧
      ids s.tsk.receiveQueue = eaten ++ ids (dequeueLoop s userlen s.tsk.receiveQueue).2.1 ∧
      ∀ k ∈ (dequeueLoop s userlen s.tsk.receiveQueue).2.1, k.refcnt = 1 := by
    intro before
    have loop := dequeueLoop_freed s userlen fun k member => before.received k (List.mem_append_left _ member)
    rw [eq] at loop
    exact loop
  unfold tcpDataDequeue
  dsimp only
  rw [eq]
  generalize (dequeueLoop s userlen s.tsk.receiveQueue).2.1 = left at eaten
  have done : ∀ u : Conn, u.tsk.receiveQueue = left → u.tsk.ofoQueue = s.tsk.ofoQueue →
      u.tsk.writeQueue = s.tsk.writeQueue → u.freed = freed → u.nextSkb = s.nextSkb →
      u.ended = s.ended → Ledger [] s u := by
    intro u received early sending gone next ended
    constructor
    · intro before
      obtain ⟨_, -, -, one⟩ := eaten before
      refine ⟨fun k member => ?_, sending ▸ before.sending, ?_⟩
      · rw [received, early] at member
        rcases List.mem_append.mp member with inside | later
        · exact one k inside
        · exact before.received k (List.mem_append_right _ later)
      · unfold Ended
        rw [early, ended]
        exact before.cleared
    · exact fun _ => Nat.le_of_eq next.symm
    · intro before i
      obtain ⟨_, rfl, split, -⟩ := eaten before
      unfold places
      rw [received, early, sending, gone, next, split]
      simp only [List.count_append, List.count_nil]
      omega
  split
  · exact done _ rfl rfl rfl rfl rfl rfl
  · exact done _ rfl rfl rfl rfl rfl rfl

theorem receiveReturn_ledger (rlen : Int) : Ledger [] s (receiveReturn s rlen).1 := by
  unfold receiveReturn
  dsimp only
  split
  · exact tcpRearmUserTimeout_ledger s
  · exact .refl s

theorem receiveLoop_ledger (len rlen : Nat) : Ledger [] s (receiveLoop s len rlen).1 := by
  have dequeued := tcpDataDequeue_ledger s (len - rlen)
  unfold receiveLoop
  dsimp only
  split
  · split
    · exact (receiveReturn_ledger _ _).after (dequeued.trans (.of_rfl rfl rfl rfl rfl rfl rfl))
    · split
      · exact (receiveReturn_ledger _ _).after dequeued
      · split
        · exact (receiveReturn_ledger _ _).after dequeued
        · exact dequeued.trans (.of_rfl rfl rfl rfl rfl rfl rfl)
  · exact receiveReturn_ledger s _

theorem tcpRead_ledger (len : Nat) : Ledger [] s (tcpRead s len).1 := by
  unfold tcpRead
  split
  · exact .refl s
  · split
    · exact .of_rfl rfl rfl rfl rfl rfl rfl
    · exact receiveLoop_ledger s len 0
  iterate 3 exact .refl s
  exact receiveLoop_ledger s len 0

/-! ### Arriving segments -/

/- The buffers that are acknowledged are freed. -/
theorem cleanLoop_freed (una : UInt32) {queue : List SkBuff} (zero : ∀ k ∈ queue, k.refcnt = 0) :
    (cleanLoop una s queue).1.freed = s.freed ++ ids (queue.takeWhile (acked una)) := by
  induction queue generalizing s with
  | nil => simp [cleanLoop, ids]
  | cons k rest ih =>
    rw [cleanLoop]
    by_cases old : k.seq > 0 ∧ k.endSeq ≤ una
    · have gone := freeSkb_low s (k := { k with refcnt := k.refcnt - 1 })
        (by show k.refcnt - 1 < 1; rw [zero k (by simp)]; decide)
      rw [if_pos old, List.takeWhile_cons_of_pos (by simpa [acked] using old)]
      dsimp only
      rw [gone, ih _ fun j member => zero j (by simp [member])]
      simp [ids]
    · rw [if_neg old, List.takeWhile_cons_of_neg (by simpa [acked] using old)]
      simp [ids]

theorem tcpCleanRtoQueue_ledger (una : UInt32) : Ledger [] s (tcpCleanRtoQueue s una) := by
  have gone : (tcpCleanRtoQueue s una).freed = (cleanLoop una s s.tsk.writeQueue).1.freed := by
    unfold tcpCleanRtoQueue
    dsimp only
    split <;> rfl
  obtain ⟨_, freed, _, _, _, eq⟩ := tcpCleanRtoQueue_touches s una
  rw [eq] at gone ⊢
  constructor
  · intro before
    refine ⟨before.received, fun k member => before.sending k ?_, before.cleared⟩
    exact (List.dropWhile_sublist _).subset member
  · exact fun _ => Nat.le_refl _
  · intro before i
    have split : ids s.tsk.writeQueue = ids (s.tsk.writeQueue.takeWhile (acked una)) ++
        ids (s.tsk.writeQueue.dropWhile (acked una)) := by
      unfold ids
      rw [← List.map_append, List.takeWhile_append_dropWhile]
    have cleaned : freed = s.freed ++ ids (s.tsk.writeQueue.takeWhile (acked una)) :=
      gone.trans (cleanLoop_freed s una before.sending)
    unfold places
    dsimp only
    rw [split, cleaned]
    simp only [List.count_append, List.count_nil]
    omega

theorem inputNewAck_ledger (th : TcpHdr) : Ledger [] s (inputNewAck s th).1 := by
  rw [inputNewAck_fst]
  split
  · refine (tcpCleanRtoQueue_ledger _ _).after ?_
    unfold tcpRtt
    split
    · exact .of_rfl rfl rfl rfl rfl rfl rfl
    · split
      · exact .of_rfl rfl rfl rfl rfl rfl rfl
      · dsimp only
        split <;> exact .of_rfl rfl rfl rfl rfl rfl rfl
  · exact .refl s

theorem inputAck_ledger (th : TcpHdr) : Ledger [] s (inputAck s th).1 := by
  unfold inputAck
  split
  · split
    · exact (inputNewAck_ledger _ th).after (.of_rfl rfl rfl rfl rfl rfl rfl)
    · exact .refl s
  iterate 6 exact inputNewAck_ledger s th
  exact .refl s

theorem inputFinAcked_ledger (th : TcpHdr) : Ledger [] s (inputFinAcked s th) := by
  unfold inputFinAcked
  split
  · split
    · exact .of_rfl rfl rfl rfl rfl rfl rfl
    · exact .of_rfl rfl rfl rfl rfl rfl rfl
    · split
      · exact (tcpSendAck_ledger _).after (.of_rfl rfl rfl rfl rfl rfl rfl)
      · exact .refl s
    · exact .refl s
  · exact .refl s

theorem insertOrdered_perm {queue queue' : List SkBuff} (inserted : insertOrdered skb queue = some queue') :
    queue'.Perm (skb :: queue) := by
  induction queue generalizing queue' with
  | nil =>
    obtain rfl := by simpa [insertOrdered] using inserted
    exact .refl _
  | cons next rest ih =>
    have behind : (insertOrdered skb rest).map (next :: ·) = some queue' →
        queue'.Perm (skb :: next :: rest) := by
      intro found
      obtain ⟨rest', later, rfl⟩ := Option.map_eq_some_iff.mp found
      exact ((ih later).cons next).trans (.swap _ _ _)
    rw [insertOrdered] at inserted
    split at inserted
    · split at inserted
      · exact behind inserted
      · obtain rfl := Option.some.inj inserted
        exact .refl _
    · split at inserted
      · cases inserted
      · exact behind inserted

/- The text has been queued and counted, or the buffer is still in hand. -/
def Taken (s : Conn) (skb : SkBuff) (r : Conn × SkBuff) : Prop :=
  (Ledger [skb.id] s r.1 ∧ r.2.refcnt = 1) ∨ (Ledger [] s r.1 ∧ r.2 = skb)

theorem Taken.freed {s : Conn} {r : Conn × SkBuff} (taken : Taken s skb r) (zero : skb.refcnt = 0)
    (rest : Ledger [] r.1 u) : Ledger [skb.id] s (freeSkb u r.2) := by
  rcases taken with ⟨queued, one⟩ | ⟨still, same⟩
  · exact (queued.still rest).still (.kept _ (by rw [one]; decide))
  · rw [same]
    exact (Ledger.free skb (by rw [zero]; decide)).after (still.trans rest)

theorem tcpDataQueue_taken (zero : skb.refcnt = 0) (wide : s.tsk.tcb.rcvWnd ≠ 0) (going : ¬Ended s) :
    Taken s skb (tcpDataQueue s skb) := by
  unfold tcpDataQueue
  rw [if_neg wide]
  split
  · refine .inl ⟨?_, by show skb.refcnt + 1 = 1; rw [zero]; rfl⟩
    dsimp only
    generalize s.tsk.tcb.rcvNxt + SkBuff.dlen { skb with refcnt := skb.refcnt + 1 } = next
    have split := consumeLoop_split next s.tsk.ofoQueue
    constructor
    · intro before
      refine ⟨fun k member => ?_, before.sending, fun ended => absurd ended going⟩
      simp only [recvNotify, pollReadable, tcpConsumeOfoQueue, skbQueueTail] at member
      rw [List.append_assoc, List.append_assoc, split, List.mem_append, List.mem_append] at member
      rcases member with old | new | early
      · exact before.received k (List.mem_append_left _ old)
      · rw [List.mem_singleton.mp new]
        show skb.refcnt + 1 = 1
        rw [zero]
        rfl
      · exact before.received k (List.mem_append_right _ early)
    · exact fun _ => Nat.le_refl _
    · intro _ i
      have numbers : ids s.tsk.ofoQueue = ids (consumeLoop next s.tsk.ofoQueue).2.1 ++
          ids (consumeLoop next s.tsk.ofoQueue).2.2 := by
        unfold ids
        rw [← List.map_append, split]
      simp only [places, numbers, recvNotify, pollReadable, tcpConsumeOfoQueue, skbQueueTail]
      simp only [ids, List.map_append, List.map_cons, List.map_nil, List.count_append]
      omega
  · have answered : ∀ queue : List SkBuff, Ledger [] { s with tsk.ofoQueue := queue }
        (tcpSendAck (if s.tsk.sackok then
          { s with tsk := tcpCalculateSacks { s.tsk with ofoQueue := queue } }
        else { s with tsk.ofoQueue := queue })) := by
      intro queue
      refine (tcpSendAck_ledger _).after ?_
      split
      · exact .of_same (tcpCalculateSacks_minor { s with tsk.ofoQueue := queue }).same rfl rfl
      · exact .refl _
    unfold tcpDataInsertOrdered
    dsimp only
    cases inserted : insertOrdered { skb with refcnt := skb.refcnt + 1 } s.tsk.ofoQueue with
    | none => exact .inr ⟨answered s.tsk.ofoQueue, rfl⟩
    | some queue =>
      refine .inl ⟨(?_ : Ledger [skb.id] s { s with tsk.ofoQueue := queue }).still (answered queue),
        by show skb.refcnt + 1 = 1; rw [zero]; rfl⟩
      have perm := insertOrdered_perm inserted
      constructor
      · intro before
        refine ⟨fun k member => ?_, before.sending, fun ended => absurd ended going⟩
        rcases List.mem_append.mp member with old | new
        · exact before.received k (List.mem_append_left _ old)
        · rcases List.mem_cons.mp (perm.subset new) with rfl | early
          · show skb.refcnt + 1 = 1
            rw [zero]
            rfl
          · exact before.received k (List.mem_append_right _ early)
      · exact fun _ => Nat.le_refl _
      · intro _ i
        have numbers : (ids queue).count i = [skb.id].count i + (ids s.tsk.ofoQueue).count i := by
          rw [ids, (perm.map SkBuff.id).count_eq, List.map_cons, ← List.singleton_append, List.count_append]
          rfl
        simp only [places, List.count_append]
        rw [numbers]
        omega

theorem inputText_taken (th : TcpHdr) (zero : skb.refcnt = 0)
    (open_ : s.tsk.state.phase = .text → s.tsk.tcb.rcvWnd ≠ 0 ∧ ¬Ended s) :
    Taken s skb (inputText s th skb) := by
  unfold inputText
  split
  iterate 3
    rename_i at_state
    have opened := open_ (by rw [at_state]; rfl)
    split
    · exact tcpDataQueue_taken s zero opened.1 opened.2
    · exact .inr ⟨.refl s, rfl⟩
  exact .inr ⟨.refl s, rfl⟩

theorem inputFin_ledger : Ledger [] s (inputFin s) := by
  have taken : Ledger [] s (recvNotify (tcpSendAck (pollReadable { s with
      tsk.tcb.rcvNxt := s.tsk.tcb.rcvNxt + 1, tsk.flags := s.tsk.flags ||| TCP_FIN }))) := by
    have read : Ledger [] s (pollReadable { s with
        tsk.tcb.rcvNxt := s.tsk.tcb.rcvNxt + 1, tsk.flags := s.tsk.flags ||| TCP_FIN }) :=
      .of_rfl rfl rfl rfl rfl rfl rfl
    exact (read.trans (tcpSendAck_ledger _)).trans (.of_rfl rfl rfl rfl rfl rfl rfl)
  unfold inputFin
  dsimp only
  generalize recvNotify (tcpSendAck (pollReadable { s with
    tsk.tcb.rcvNxt := s.tsk.tcb.rcvNxt + 1, tsk.flags := s.tsk.flags ||| TCP_FIN })) = v at taken
  refine Ledger.after ?_ taken
  split
  · exact .of_rfl rfl rfl rfl rfl rfl rfl
  · exact .of_rfl rfl rfl rfl rfl rfl rfl
  · split
    · exact tcpEnterTimeWait_ledger v
    · exact .of_rfl rfl rfl rfl rfl rfl rfl
  · exact tcpEnterTimeWait_ledger v
  · exact .refl v

/- A first transmission leaves the number of a buffer and its count alone. -/
theorem sendNextLoop_tags (amount : Nat) (queue : List SkBuff) :
    (sendNextLoop s amount queue).2.map (fun k => (k.id, k.refcnt)) =
      queue.map (fun k => (k.id, k.refcnt)) ∧
    (sendNextLoop s amount queue).1.freed = s.freed ∧
      (sendNextLoop s amount queue).1.nextSkb = s.nextSkb := by
  induction amount generalizing s queue with
  | zero => exact ⟨rfl, rfl, rfl⟩
  | succ amount ih =>
    cases queue with
    | nil => exact ⟨rfl, rfl, rfl⟩
    | cons k rest =>
      obtain ⟨tags, freed, next⟩ := ih (numberSkb (tcpTransmitSkb s k s.tsk.tcb.sndNxt).1
        (tcpTransmitSkb s k s.tsk.tcb.sndNxt).2).1 rest
      exact ⟨congrArg ((k.id, k.refcnt) :: ·) tags, freed, next⟩

theorem tcpSendNext_ledger (amount : Nat) : Ledger [] s (tcpSendNext s amount) := by
  obtain ⟨tags, freed, next⟩ := sendNextLoop_tags s amount s.tsk.writeQueue
  obtain ⟨_, _, _, same⟩ := tcpSendNext_touches s amount
  exact .of_eq same.receiveQueue same.ofoQueue tags freed next same.ended

theorem inputDelack_ledger (th : TcpHdr) (skb : SkBuff) : Ledger [] s (inputDelack s th skb) := by
  have stopped : Ledger [] s (tcpStopDelackTimer s) := .of_rfl rfl rfl rfl rfl rfl rfl
  unfold inputDelack
  generalize tcpStopDelackTimer s = v at stopped
  dsimp only
  refine Ledger.after ?_ stopped
  split
  · refine (tcpRearmRtoTimer_ledger _).after ?_
    exact (tcpSendNext_ledger v _).trans (.of_rfl rfl rfl rfl rfl rfl rfl)
  · have counted : Ledger [] v (countDelack v (!th.psh && decide (1000 < skb.dlen))) := by
      unfold countDelack
      split
      · exact .of_rfl rfl rfl rfl rfl rfl rfl
      · exact .refl v
    refine Ledger.after ?_ counted
    generalize countDelack v (!th.psh && decide (1000 < skb.dlen)) = w
    split
    · exact (tcpSendAck_ledger _).after (.of_rfl rfl rfl rfl rfl rfl rfl)
    · split
      · exact .of_rfl rfl rfl rfl rfl rfl rfl
      · exact .refl w

theorem inputTail_ledger (th : TcpHdr) (zero : skb.refcnt = 0)
    (open_ : s.tsk.state.phase = .text → s.tsk.tcb.rcvWnd ≠ 0 ∧ ¬Ended s) :
    Ledger [skb.id] s (inputTail s th skb) := by
  unfold inputTail
  dsimp only
  refine (inputText_taken s th zero open_).freed zero ?_
  have finished : Ledger [] (inputText s th skb).1 (inputTextFin (inputText s th skb).1 th
      (decide (skb.seq = s.tsk.tcb.rcvNxt))) := by
    unfold inputTextFin
    split
    · exact inputFin_ledger _
    · exact .refl _
  refine Ledger.after ?_ finished
  unfold inputExpected
  split
  iterate 3
    split
    · exact inputDelack_ledger _ th skb
    · exact .refl _
  exact .refl _

theorem inputOtherwise_ledger (th : TcpHdr) (zero : skb.refcnt = 0)
    (open_ : (inputFinAcked (inputAck s th).1 th).tsk.state.phase = .text →
      (inputFinAcked (inputAck s th).1 th).tsk.tcb.rcvWnd ≠ 0 ∧
        ¬Ended (inputFinAcked (inputAck s th).1 th)) :
    Ledger [skb.id] s (inputOtherwise s th skb) := by
  have freed : ∀ u, Ledger [skb.id] u (freeSkb u skb) := fun _ => .free skb (by rw [zero]; decide)
  have acked := inputAck_ledger s th
  refine inputOtherwise_cases s th skb ?_ ?_ ?_ ?_ ?_ ?_
  · intro _
    refine (freed _).after ?_
    split
    · exact .refl s
    · exact tcpSendAck_ledger s
  · intro _ _
    refine ((freed s).still (tcpEnterTimeWait_ledger _)).still ?_
    exact .of_rfl rfl rfl rfl rfl rfl rfl
  · exact fun _ _ _ => freed s
  · exact fun _ _ _ _ _ => (freed _).after acked
  · exact fun _ _ _ _ _ _ _ => ((freed _).after acked).still (tcpDone_ledger _)
  · exact fun _ _ _ _ _ _ => (inputTail_ledger _ th zero open_).after (acked.trans (inputFinAcked_ledger _ th))

theorem synsentAck_ledger (th : TcpHdr) : Ledger [] s (synsentAck s th) := by
  unfold synsentAck
  dsimp only
  split
  · exact (tcpCleanRtoQueue_ledger _ _).after (.of_rfl rfl rfl rfl rfl rfl rfl)
  · exact .of_rfl rfl rfl rfl rfl rfl rfl

theorem synsentEstablish_ledger (th : TcpHdr) : Ledger [] s (synsentEstablish s th) := by
  have opened : Ledger [] s { setState s .established with
      tsk.tcb.sndUna := s.tsk.tcb.sndNxt, tsk.state := .established
      tsk.backoff := 0, tsk.rto := 1000 } := .of_rfl rfl rfl rfl rfl rfl rfl
  have parsed : ∀ u : Conn, Ledger [] u (sockConnected { u with tsk := tcpParseOpts u.tsk th }) := by
    intro u
    have sized : Ledger [] u { u with tsk.smss := (tcpParseOpts u.tsk th).smss } :=
      .of_rfl rfl rfl rfl rfl rfl rfl
    have read : Ledger [] u { u with tsk := tcpParseOpts u.tsk th } :=
      sized.trans (.of_same (tcpParseOpts_minor u th).same rfl rfl)
    exact read.still (.of_rfl rfl rfl rfl rfl rfl rfl)
  unfold synsentEstablish
  exact ((opened.trans (tcpSendAck_ledger _)).trans (tcpRearmUserTimeout_ledger _)).still (parsed _)

theorem synsentSyn_ledger (th : TcpHdr) : Ledger [] s (synsentSyn s th) := by
  unfold synsentSyn
  dsimp only
  refine Ledger.after ?_ (synsentAck_ledger s th)
  split
  · exact synsentEstablish_ledger _ th
  · rw [tcpSendSynack_minor _ (by simp [setState])]
    exact .of_rfl rfl rfl rfl rfl rfl rfl

theorem tcpReset_ledger : Ledger [] s (tcpReset s) := by
  unfold tcpReset
  dsimp only
  split
  · exact (tcpDone_ledger _).after (.of_rfl rfl rfl rfl rfl rfl rfl)
  · exact (tcpDone_ledger _).after (.of_rfl rfl rfl rfl rfl rfl rfl)
  · exact .of_rfl rfl rfl rfl rfl rfl rfl
  · exact (tcpDone_ledger _).after (.of_rfl rfl rfl rfl rfl rfl rfl)

/-- Every way out of `tcp_input_state` frees the buffer or leaves it in a queue. -/
theorem tcpInputState_ledger (th : TcpHdr) (zero : skb.refcnt = 0)
    (open_ : (inputFinAcked (inputAck s th).1 th).tsk.state.phase = .text →
      (inputFinAcked (inputAck s th).1 th).tsk.tcb.rcvWnd ≠ 0 ∧
        ¬Ended (inputFinAcked (inputAck s th).1 th)) :
    Ledger [skb.id] s (tcpInputState s th skb) := by
  have freed : ∀ u, Ledger [skb.id] u (freeSkb u skb) := fun _ => .free skb (by rw [zero]; decide)
  unfold tcpInputState
  split
  · unfold tcpClosed
    split
    · exact freed s
    · exact (freed _).after (tcpSendReset_ledger s)
  · exact freed s
  · exact tcpSynsent_cases (P := Ledger [skb.id] s) (freed s)
      (fun _ _ => (freed _).after (tcpReset_ledger s)) fun _ => (freed _).after (synsentSyn_ledger s th)
  · exact inputOtherwise_ledger s th zero open_


/-! ### Handlers and the freeing of the sock -/

theorem tcpAbort_ledger : Ledger [] s (tcpAbort s) := (tcpSendReset_ledger s).trans (tcpDone_ledger _)

/- `sock_free` frees what is left of two of the queues. -/
theorem socketFree_frees (before : Referenced s) : (socketFree s).freed =
    s.freed ++ ids s.tsk.receiveQueue ++ ids s.tsk.writeQueue := by
  have received : ∀ k ∈ s.tsk.receiveQueue, k.refcnt - 1 < 1 := by
    intro k member
    rw [before.received k (List.mem_append_left _ member)]
    decide
  have sending : ∀ k ∈ s.tsk.writeQueue, k.refcnt - 1 < 1 := by
    intro k member
    rw [before.sending k member]
    decide
  have frees : ∀ (u : Conn) {queue : List SkBuff}, (∀ k ∈ queue, k.refcnt - 1 < 1) →
      (skbQueueFree u queue).freed = u.freed ++ ids queue :=
    fun u _ low => congrArg Conn.freed (skbQueueFree_freed u low)
  have first := frees { socketWrAcquire s with sock.registered := false } received
  have queue : (skbQueueFree { socketWrAcquire s with sock.registered := false }
      s.tsk.receiveQueue).tsk.writeQueue = s.tsk.writeQueue := by
    obtain ⟨_, eq⟩ := skbQueueFree_eq { socketWrAcquire s with sock.registered := false } s.tsk.receiveQueue
    rw [eq]
    rfl
  unfold socketFree
  refine Eq.trans (frees _ fun k member => sending k ?_) (congrArg₂ (· ++ ids ·) first queue)
  exact queue ▸ member

theorem socketFree_ledger : Ledger [] s (socketFree s) := by
  have frees := socketFree_frees s
  obtain ⟨freed, eq⟩ := socketFree_eq s
  rw [eq] at frees ⊢
  constructor
  · intro before
    refine ⟨fun k member => before.received k (List.mem_append_right _ member), ?_, before.cleared⟩
    exact fun k member => absurd member List.not_mem_nil
  · exact fun _ => Nat.le_refl _
  · intro before i
    obtain rfl : freed = s.freed ++ ids s.tsk.receiveQueue ++ ids s.tsk.writeQueue := frees before
    show (ids [] ++ ids s.tsk.ofoQueue ++ ids [] ++
      (s.freed ++ ids s.tsk.receiveQueue ++ ids s.tsk.writeQueue)).count i + allocated s.nextSkb i =
        (places s).count i + allocated s.nextSkb i + List.count i []
    simp only [places, ids, List.map_nil, List.count_append, List.count_nil]
    omega

theorem runHandler_ledger (h : Handler) : Ledger [] s (runHandler s h) := by
  have locked : Ledger [] s (socketWrAcquire s) := .of_rfl rfl rfl rfl rfl rfl rfl
  have released : ∀ u : Conn, Ledger [] u (socketRelease u) := fun _ => .of_rfl rfl rfl rfl rfl rfl rfl
  cases h with
  | tcpConnectRto => exact (locked.trans (tcpConnectRto_ledger _)).trans (released _)
  | tcpRetransmissionTimeout => exact (locked.trans (tcpRetransmissionTimeout_ledger _)).trans (released _)
  | tcpSendDelack =>
    have taken : Ledger [] s (tcpReleaseDelackTimer { socketWrAcquire s with tsk.delacks := 0 }) :=
      .of_rfl rfl rfl rfl rfl rfl rfl
    exact (taken.trans (tcpSendAck_ledger _)).trans (released _)
  | tcpLinger =>
    have taken : Ledger [] s (stopLinger (socketWrAcquire s)) := .of_rfl rfl rfl rfl rfl rfl rfl
    exact (taken.trans (tcpDone_ledger _)).trans (released _)
  | tcpUserTimeout =>
    have taken : Ledger [] s (stopLinger (socketWrAcquire s)) := .of_rfl rfl rfl rfl rfl rfl rfl
    exact (taken.trans (tcpAbort_ledger _)).trans (released _)
  | socketGarbageCollect =>
    unfold runHandler socketGarbageCollect
    dsimp only
    split
    · exact socketFree_ledger s
    · exact .refl s

end HfIp
