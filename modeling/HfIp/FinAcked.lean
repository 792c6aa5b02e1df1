import HfIp.StateFrame
import HfIp.StreamIntegrity

/- When an ACK counts as the ACK of the FIN: in runs where no ACK that reaches a FIN in the write queue
   stops short of it, a FIN leaves the queue, and a closing state ends, only when the FIN's own number
   is acknowledged. -/
namespace HfIp

variable {s t : Conn}

/- Every FIN in the queue of `s` is still in that of `t`. -/
def FinsStay (s t : Conn) : Prop :=
  ∀ k ∈ s.tsk.writeQueue, k.th.fin = true →
    ∃ k' ∈ t.tsk.writeQueue, k'.id = k.id ∧ k'.th.fin = true

theorem FinsStay.refl (s : Conn) : FinsStay s s := fun k member fin => ⟨k, member, rfl, fin⟩

theorem FinsStay.trans {u : Conn} (first : FinsStay s t) (second : FinsStay t u) : FinsStay s u := by
  intro k member fin
  obtain ⟨k', queued, id, fin'⟩ := first k member fin
  obtain ⟨k'', queued', id', fin''⟩ := second k' queued fin'
  exact ⟨k'', queued', id'.trans id, fin''⟩

theorem FinsStay.of_eq (queue : t.tsk.writeQueue = s.tsk.writeQueue) : FinsStay s t :=
  fun k member fin => ⟨k, queue ▸ member, rfl, fin⟩

/- A step that keeps the accounts of the FINs and takes none off the queue. -/
structure FinKeeps (s t : Conn) : Prop where
  inv : FinInv 0 0 s → FinInv 0 0 t
  stay : FinsStay s t
  registered : t.sock.registered = s.sock.registered
  skFreed : t.sock.skFreed = s.sock.skFreed

namespace FinKeeps

theorem trans {u : Conn} (first : FinKeeps s t) (second : FinKeeps t u) : FinKeeps s u :=
  ⟨second.inv ∘ first.inv, first.stay.trans second.stay,
    second.registered.trans first.registered, second.skFreed.trans first.skFreed⟩

theorem of_frame (h : SendFrame s t) : FinKeeps s t :=
  ⟨fun inv => inv.frame h, .of_eq h.writeQueue, h.registered, h.skFreed⟩

theorem of_minor (h : Minor s t) : FinKeeps s t := .of_frame (.of_minor h)

theorem of_out (view : sendView t = sendView s) (out : t.out = s.out)
    (state : t.tsk.state = s.tsk.state) (ended : t.ended = s.ended) : FinKeeps s t :=
  .of_frame (.of_out view out state ended)

theorem refl (s : Conn) : FinKeeps s s := .of_frame (.refl s)

end FinKeeps

theorem tcpSendReset_finKeeps : FinKeeps s (tcpSendReset s) := by
  have keeps := tcpSendReset_keeps (s := s)
  refine ⟨tcpSendReset_fin, ?_, keeps.registered, keeps.skFreed⟩
  unfold tcpSendReset
  dsimp only
  have sent := tcpTransmitSkb_minor { (tcpAllocSkb s 0 []).1 with
    tsk.tcb.sndUna := (tcpAllocSkb s 0 []).1.tsk.tcb.sndNxt } { (tcpAllocSkb s 0 []).2 with
      th := { (tcpAllocSkb s 0 []).2.th with rst := true } } s.tsk.tcb.sndNxt rfl rfl rfl
  exact .of_eq (sent.trans (freeSkb_minor _ _)).same.writeQueue

/-! ### Retransmission -/

theorem retransmitHead_stay {k : SkBuff} (head : s.tsk.writeQueue.head? = some k) :
    FinsStay s (retransmitHead s k) := by
  have same := tcpTransmitSkb_same s k s.tsk.tcb.sndUna
  obtain ⟨rest, queue⟩ := List.head?_eq_some_iff.mp head
  have queue' : (retransmitHead s k).tsk.writeQueue
      = (tcpTransmitSkb s k s.tsk.tcb.sndUna).2 :: rest := by
    simp only [retransmitHead, setHead, same.writeQueue, queue, List.tail_cons]
  intro j member fin
  rw [queue'] 
  rw [queue] at member
  rcases List.mem_cons.mp member with rfl | later
  · exact ⟨_, List.mem_cons_self, rfl, fin⟩
  · exact ⟨j, List.mem_cons_of_mem _ later, rfl, fin⟩

theorem retransmitHead_finKeeps {k : SkBuff} (head : s.tsk.writeQueue.head? = some k) :
    FinKeeps s (retransmitHead s k) := by
  have same := tcpTransmitSkb_same s k s.tsk.tcb.sndUna
  exact ⟨fun inv => retransmitHead_fin inv head, retransmitHead_stay head, same.registered,
    same.skFreed⟩

theorem retransmissionFailed_finKeeps : FinKeeps s (retransmissionFailed s) := .of_out rfl rfl rfl rfl

theorem retransmissionBackoff_finKeeps : FinKeeps s (retransmissionBackoff s) :=
  .of_out rfl rfl rfl rfl

theorem tcpHandleFinState_fin (inv : FinInv 0 0 s) (queued : 0 < s.fins) :
    FinInv 0 0 (tcpHandleFinState s) := by
  unfold tcpHandleFinState
  split
  · rename_i at_state
    have positive := inv.positive (.inl (by rw [at_state]; rfl))
    exact { inv with
      positive := fun _ => positive
      early := fun early => absurd early (by simp [setState, TcpState.early])
      awaiting := fun _ => queued
      closed := fun close => absurd close (by simp [setState]) }
  · rename_i at_state
    have positive := inv.positive (.inl (by rw [at_state]; rfl))
    exact { inv with
      positive := fun _ => positive
      early := fun early => absurd early (by simp [setState, TcpState.early])
      awaiting := fun _ => queued
      closed := fun close => absurd close (by simp [setState]) }
  · exact inv

theorem tcpHandleFinState_eq (s : Conn) : ∃ state, tcpHandleFinState s = setState s state := by
  unfold tcpHandleFinState
  split
  · exact ⟨_, rfl⟩
  · exact ⟨_, rfl⟩
  · exact ⟨s.tsk.state, rfl⟩

/- The FIN at the head of the queue has gone out again. -/
theorem tcpHandleFinState_finKeeps (queued : FinInv 0 0 s → 0 < s.fins) :
    FinKeeps s (tcpHandleFinState s) := by
  obtain ⟨state, eq⟩ := tcpHandleFinState_eq s
  refine ⟨fun inv => tcpHandleFinState_fin inv (queued inv), ?_, ?_, ?_⟩
  · rw [eq]; exact .of_eq rfl
  · rw [eq]; rfl
  · rw [eq]; rfl

theorem FinInv.some_queued {slack owed : Nat} {k : SkBuff} (inv : FinInv slack owed s)
    (member : k ∈ s.tsk.writeQueue) (fin : k.th.fin = true) : 0 < s.fins := by
  by_contra none
  exact inv.none_queued (by omega) k member fin

theorem tcpConnectRto_finKeeps : FinKeeps s (tcpConnectRto s) := by
  unfold tcpConnectRto
  refine (FinKeeps.of_frame (tcpReleaseRtoTimer_send s)).trans ?_
  generalize tcpReleaseRtoTimer s = t
  dsimp only
  split
  · split
    · exact retransmissionFailed_finKeeps.trans (.of_frame (tcpDone_send _))
    · split
      · exact .refl t
      · rename_i k head
        refine FinKeeps.trans ?_ (.of_frame (tcpRearmRtoTimer_send _))
        exact (retransmitHead_finKeeps head).trans (.of_out rfl rfl rfl rfl)
  · exact .refl t

theorem tcpRetransmissionTimeout_finKeeps : FinKeeps s (tcpRetransmissionTimeout s) := by
  unfold tcpRetransmissionTimeout
  refine (FinKeeps.of_frame (tcpReleaseRtoTimer_send s)).trans ?_
  generalize tcpReleaseRtoTimer s = t
  dsimp only
  split
  · refine FinKeeps.trans ?_ (.of_minor (tcpNotifyUser_minor _))
    exact .of_out rfl rfl rfl rfl
  · rename_i k head
    have again := retransmitHead_finKeeps head
    split
    · exact (again.trans (.of_frame (tcpDone_send _))).trans retransmissionFailed_finKeeps
    · split
      · rename_i fin
        have backed := again.trans retransmissionBackoff_finKeeps
        refine backed.trans (tcpHandleFinState_finKeeps fun inv => ?_)
        obtain ⟨k', queued, -, fin'⟩ := backed.stay k (List.mem_of_mem_head? head) fin
        exact inv.some_queued queued fin'
      · exact again.trans retransmissionBackoff_finKeeps

/-! ### Queueing text and FIN -/

theorem tcpQueueTransmitSkb_stay (k : SkBuff) : FinsStay s (tcpQueueTransmitSkb s k) := by
  intro j member fin
  by_cases idle : s.tsk.inflight = 0
  · obtain ⟨k', seg, -, queue, -⟩ := tcpQueueTransmitSkb_now k idle
    rw [queue]
    exact ⟨j, List.mem_append_left _ member, rfl, fin⟩
  · obtain ⟨u, frame, eq⟩ := tcpQueueTransmitSkb_later k idle
    rw [eq]
    refine ⟨j, List.mem_append_left _ ?_, rfl, fin⟩
    rw [frame.writeQueue]
    exact member

theorem FinInv.less {slack more owed : Nat} (inv : FinInv (more + slack) owed s) :
    FinInv slack owed s :=
  { inv with room := by have := inv.room; omega }

theorem tcpSendLoop_fin (mss fuel : Nat) (buf : List UInt8) (inv : FinInv buf.length 0 s)
    (writable : s.tsk.state.sending = true) (opened : s.tsk.state ≠ .close) :
    FinInv 0 0 (tcpSendLoop mss fuel s buf) ∧ FinsStay s (tcpSendLoop mss fuel s buf) := by
  induction fuel generalizing s buf with
  | zero => exact ⟨inv.less, .refl s⟩
  | succ fuel ih =>
    rw [tcpSendLoop]
    split
    · exact ⟨inv.less, .refl s⟩
    · dsimp only
      set al := tcpAllocSkb s 0 (buf.take mss) with hal
      set k : SkBuff := { al.2 with
        th := { al.2.th with ack := true, psh := (buf.drop mss).length = 0 } } with hk
      have span : k.span + (buf.drop mss).length = buf.length := by
        show (buf.take mss).length + 0 + 0 + (buf.drop mss).length = buf.length
        rw [List.length_take, List.length_drop]
        omega
      have allocated : FinInv buf.length 0 al.1 := inv.frame (.of_minor (tcpAllocSkb_minor s 0 _))
      rw [← span] at allocated
      have queued : FinInv (buf.drop mss).length 0 (tcpQueueTransmitSkb al.1 k) :=
        tcpQueueTransmitSkb_fin allocated opened rfl (fun fin => by cases fin)
          (inv.positive (.inl writable))
      have state := (tcpQueueTransmitSkb_else al.1 k).state
      obtain ⟨done, stay⟩ := ih (buf.drop mss) queued (state ▸ writable) (state ▸ opened)
      have pushed : FinsStay s (tcpQueueTransmitSkb al.1 k) :=
        (FinsStay.of_eq (t := al.1) rfl).trans (tcpQueueTransmitSkb_stay k)
      exact ⟨done, pushed.trans stay⟩

theorem tcpWrite_fin (buf : List UInt8) (inv : FinInv 0 0 s) (room : NoWrap s (.write buf)) :
    FinInv 0 0 (tcpWrite s buf).1 ∧ FinsStay s (tcpWrite s buf).1 := by
  have writes : Writable s → FinInv 0 0 (tcpSend s buf) ∧ FinsStay s (tcpSend s buf) := by
    intro writable
    have sending : s.tsk.state.sending = true ∧ s.tsk.state ≠ .close := by
      rcases writable.2 with at_state | at_state <;> rw [at_state] <;> exact ⟨rfl, by decide⟩
    have fits := room writable
    have longer : seqEnd { s with accepted := s.accepted ++ buf } = seqEnd s + buf.length := by
      simp only [seqEnd, List.length_append]
      omega
    have grown : FinInv buf.length 0 { s with accepted := s.accepted ++ buf } := { inv with
      room := by
        have := inv.room
        rw [longer]
        show s.tsk.tcb.sndNxt.toNat + unsentSpan s.tsk.writeQueue + buf.length ≤ _
        omega
      small := by rw [longer]; exact fits
      closed := fun close => absurd close sending.2 }
    obtain ⟨done, stay⟩ :=
      tcpSendLoop_fin s.tsk.smss.toNat buf.length buf grown sending.1 sending.2
    unfold tcpSend
    exact ⟨done.frame (tcpRearmUserTimeout_send _),
      stay.trans (.of_eq (tcpRearmUserTimeout_send _).writeQueue)⟩
  unfold tcpWrite
  split
  · exact ⟨inv, .refl s⟩
  · rename_i noErr
    split
    · rename_i at_state
      exact writes ⟨by simpa using noErr, .inl at_state⟩
    · rename_i at_state
      exact writes ⟨by simpa using noErr, .inr at_state⟩
    · exact ⟨inv, .refl s⟩

theorem tcpQueueFin_stay : FinsStay s (tcpQueueFin s) := by
  have queued : FinsStay (tcpAllocSkb { s with fins := s.fins + 1 } 0 []).1 (tcpQueueFin s) :=
    tcpQueueTransmitSkb_stay _
  exact queued

/- The FIN of `tcp_close`, with the state it has moved to. -/
theorem tcpQueueFin_fin (state : TcpState) (inv : FinInv 0 0 s) (late : state.early = false)
    (positive : 0 < s.tsk.tcb.sndNxt.toNat) (fits : seqEnd s + 1 < 2 ^ 32) :
    FinInv 0 0 (tcpQueueFin (setState s state)) := by
  have opened : state ≠ .close := by
    rintro rfl
    contradiction
  have counted : FinInv 1 1 { setState s state with fins := s.fins + 1 } := { inv with
    room := by
      have := inv.room
      show s.tsk.tcb.sndNxt.toNat + unsentSpan s.tsk.writeQueue + 1
        ≤ s.tsk.tcb.iss.toNat + 1 + s.accepted.length + (s.fins + 1)
      simp only [seqEnd] at this
      omega
    small := fits
    positive := fun _ => positive
    fins := by
      have := inv.fins
      show s.fins + 1
        = s.sent.countP SkBuff.isFin + s.tsk.writeQueue.countP SkBuff.owed + 1
      omega
    early := fun early => by
      rw [show (setState s state).tsk.state = state from rfl, late] at early
      contradiction
    awaiting := fun _ => Nat.succ_pos _
    closed := fun close => absurd close opened }
  unfold tcpQueueFin
  exact tcpQueueTransmitSkb_fin (counted.frame (.of_minor (tcpAllocSkb_minor _ 0 []))) opened rfl
    (fun _ => rfl) positive

theorem tcpClose_fin (inv : FinInv 0 0 s) (room : NoWrap s .close) :
    FinInv 0 0 (tcpClose s).1 ∧ FinsStay s (tcpClose s).1 := by
  unfold tcpClose
  split
  iterate 6 exact ⟨inv.frame (.of_out rfl rfl rfl rfl), .of_eq rfl⟩
  iterate 3 exact ⟨inv.frame (tcpDone_send s), .of_eq (tcpDone_send s).writeQueue⟩
  · rename_i at_state
    have positive := inv.positive (.inl (by rw [at_state]; rfl))
    exact ⟨tcpQueueFin_fin .finWait1 inv rfl positive (room (.inl at_state)),
      tcpQueueFin_stay (s := setState s .finWait1)⟩
  · rename_i at_state
    have positive := inv.positive (.inl (by rw [at_state]; rfl))
    have queued := tcpQueueFin_fin .closeWait inv rfl positive (room (.inr at_state))
    rw [show setState s .closeWait = s by rw [← at_state]; rfl] at queued
    exact ⟨queued, tcpQueueFin_stay⟩

/-! ### Connecting -/

theorem tcpV4Connect_fin (addr : SockAddr) (port : UInt16) (iss : UInt32) (inv : FinInv 0 0 s)
    (closed : s.tsk.state = .close) (room : iss.toNat + 1 < 2 ^ 32) :
    FinInv 0 0 (tcpV4Connect s addr port iss) := by
  obtain ⟨none, quiet⟩ := inv.closed closed
  have unfinished := inv.early (by rw [closed]; rfl)
  unfold tcpV4Connect
  set r : Conn := { s with
    tsk.dport := addr.port, tsk.sport := port, tsk.daddr := addr.addr
    tsk.saddr := parseIpv4 10 0 0 4 }
  have idle : r.tsk.inflight = 0 := inv.counted.trans (by rw [none]; rfl)
  obtain ⟨k, seg, sent⟩ := tcpConnect_sent (s := r) iss closed none idle
  have plus : (iss + 1).toNat = iss.toNat + 1 := by
    rw [UInt32.toNat_add, UInt32.toNat_one]
    omega
  have ends : seqEnd (tcpConnect r iss) = iss.toNat + 1 := by
    rw [seqEnd, sent.iss, sent.accepted, sent.fins]
    show _ + 1 + s.accepted.length + s.fins = _
    rw [quiet, unfinished]
    rfl
  have numbered : k.numbered = true := by simp [SkBuff.numbered, sent.syn]
  have no_fin : ∀ j, j ∈ r.sent ++ [k] → j.th.fin = true → False := by
    intro j member fin
    rcases List.mem_append.mp member with old | new
    · exact inv.none_sent unfinished j old fin
    · obtain rfl := List.mem_singleton.mp new
      rw [sent.fin] at fin
      contradiction
  constructor
  · rw [sent.queue, sent.inflight, List.countP_singleton, numbered]
    rfl
  · rw [sent.queue, sent.sndNxt, ends, plus, unsentSpan_sent (by simpa using numbered)]
  · rw [ends]; exact room
  · intro _
    rw [sent.sndNxt, plus]
    exact Nat.succ_pos _
  · intro j member fin
    rw [sent.queue] at member
    obtain rfl := List.mem_singleton.mp member
    exact sent.payload
  · intro j member fin
    rw [sent.queue] at member
    obtain rfl := List.mem_singleton.mp member
    rw [sent.fin] at fin
    contradiction
  · intro j member fin
    rw [sent.sent] at member
    exact absurd fin fun h => no_fin j member h
  · have fins := inv.fins
    rw [sent.fins, sent.sent, sent.queue]
    simp only [List.countP_append, List.countP_singleton, SkBuff.isFin, SkBuff.owed, sent.fin,
      Bool.false_and, Bool.false_eq_true, if_false]
    rw [none] at fins
    exact fins
  · intro _
    rw [sent.fins]
    exact unfinished
  · intro awaiting
    rw [Awaiting, sent.state] at awaiting
    simp at awaiting
  · intro close
    rw [sent.state] at close
    contradiction
  · intro j found fin
    rw [sent.sent] at found
    exact absurd fin fun h => no_fin j (List.mem_of_getLast? found) h

/-! ### Arriving segments -/

/- No FIN that the cleaning of the write queue reaches has the number of the ACK itself. -/
def StopsClear (s : Conn) (ack : UInt32) : Prop :=
  ∀ k ∈ s.tsk.writeQueue.takeWhile (acked ack), k.th.fin = true → k.seq ≠ ack

instance (s : Conn) (ack : UInt32) : Decidable (StopsClear s ack) :=
  inferInstanceAs (Decidable (∀ k ∈ _, _))

/- The FINs that have left the queue are those covered by `ack`. -/
def FinsLeave (ack : UInt32) (s t : Conn) : Prop :=
  ∀ k ∈ s.tsk.writeQueue, k.th.fin = true →
    (∃ k' ∈ t.tsk.writeQueue, k'.id = k.id ∧ k'.th.fin = true) ∨
      (k.numbered = true ∧ k.seq.toNat + 1 ≤ ack.toNat)

theorem FinsStay.leave (h : FinsStay s t) (ack : UInt32) : FinsLeave ack s t :=
  fun k member fin => .inl (h k member fin)

theorem FinsLeave.trans {ack : UInt32} {u : Conn} (first : FinsLeave ack s t)
    (second : FinsStay t u) : FinsLeave ack s u := by
  intro k member fin
  rcases first k member fin with ⟨k', queued, id, fin'⟩ | gone
  · obtain ⟨k'', queued', id', fin''⟩ := second k' queued fin'
    exact .inl ⟨k'', queued', id'.trans id, fin''⟩
  · exact .inr gone

theorem inputNewAck_fin (th : TcpHdr) (inv : FinInv 0 0 s)
    (clear : AckNew s th → StopsClear s th.ackSeq) :
    FinInv 0 0 (inputNewAck s th).1 ∧ FinsLeave th.ackSeq s (inputNewAck s th).1 := by
  have cleaned : AckNew s th →
      FinInv 0 0 (tcpCleanRtoQueue (tcpRtt { s with tsk.tcb.sndUna := th.ackSeq }) th.ackSeq) ∧
      FinsLeave th.ackSeq s
        (tcpCleanRtoQueue (tcpRtt { s with tsk.tcb.sndUna := th.ackSeq }) th.ackSeq) := by
    intro new
    have moved : FinInv 0 0 { s with tsk.tcb.sndUna := th.ackSeq } :=
      inv.una th.ackSeq fun k _ _ below => Nat.lt_trans below (UInt32.lt_iff_toNat_lt.mp new.1)
    have frame := tcpRtt_send { s with tsk.tcb.sndUna := th.ackSeq }
    set u := tcpRtt { s with tsk.tcb.sndUna := th.ackSeq }
    have queue : u.tsk.writeQueue = s.tsk.writeQueue := frame.writeQueue
    have una : u.tsk.tcb.sndUna = th.ackSeq := frame.sndUna
    have whole : ∀ k ∈ s.tsk.writeQueue.takeWhile (acked th.ackSeq), k.th.fin = true →
        k.numbered = true ∧ k.seq.toNat < th.ackSeq.toNat := by
      intro k member fin
      have old := List.mem_takeWhile_imp member
      simp only [acked, Bool.and_eq_true, decide_eq_true_eq] at old
      have numbered : k.numbered = true := by
        simp only [SkBuff.numbered, Bool.or_eq_true, decide_eq_true_eq]
        refine .inl fun zero => ?_
        rw [zero] at old
        exact absurd old.1 (by decide)
      have queued := (List.takeWhile_sublist _).subset member
      obtain ⟨ends, -, -⟩ := inv.flight k queued fin numbered
      have ne := clear new k member fin
      rw [ends, UInt32.le_iff_toNat_le] at old
      refine ⟨numbered, ?_⟩
      have : k.seq.toNat ≠ th.ackSeq.toNat := fun same => ne (UInt32.toNat_inj.mp same)
      omega
    constructor
    · refine (moved.frame frame).clean th.ackSeq ?_
      rw [queue, una]
      exact fun k member fin => (whole k member fin).2
    · obtain ⟨_, _, _, _, _, eq⟩ := tcpCleanRtoQueue_touches u th.ackSeq
      intro k member fin
      rw [eq, queue]
      rw [← List.takeWhile_append_dropWhile (p := acked th.ackSeq) (l := s.tsk.writeQueue)] at member
      rcases List.mem_append.mp member with gone | left
      · exact .inr (whole k gone fin)
      · exact .inl ⟨k, left, rfl, fin⟩
  rw [inputNewAck_fst]
  split
  · rename_i new
    exact cleaned new
  · exact ⟨inv, (FinsStay.refl s).leave _⟩

/- A segment goes on only when its ACK field lies between the two numbers. -/
theorem inputNewAck_valid {th : TcpHdr} (valid : (inputNewAck s th).2 = true) :
    (inputNewAck s th).1.tsk.tcb.sndUna.toNat ≤ th.ackSeq.toNat ∧
      th.ackSeq.toNat ≤ (inputNewAck s th).1.tsk.tcb.sndNxt.toNat := by
  unfold inputNewAck at valid ⊢
  dsimp only at valid ⊢
  generalize (if s.tsk.tcb.sndUna < th.ackSeq ∧ th.ackSeq ≤ s.tsk.tcb.sndNxt then
      tcpCleanRtoQueue (tcpRtt { s with tsk.tcb.sndUna := th.ackSeq }) th.ackSeq else s) = u at *
  split at valid
  · contradiction
  · rename_i old
    split at valid
    · contradiction
    · rename_i early
      rw [if_neg old, if_neg early]
      exact ⟨UInt32.not_lt.mp old, UInt32.not_lt.mp early⟩

theorem inputAck_fin (th : TcpHdr) (inv : FinInv 0 0 s)
    (clear : s.tsk.state.takesAck = true → AckNew s th → StopsClear s th.ackSeq) :
    FinInv 0 0 (inputAck s th).1 ∧ FinsLeave th.ackSeq s (inputAck s th).1 := by
  by_cases takes : s.tsk.state.takesAck = true
  · rw [inputAck_takes takes]
    exact inputNewAck_fin th inv (clear takes)
  · unfold inputAck
    split
    · rename_i at_state
      have unfinished := inv.early (by rw [at_state]; rfl)
      split
      · refine inputNewAck_fin th (inv.frame (setState_send s .established (by rw [at_state]; rfl)
          (by simp [Awaiting, setState]))) fun _ k member fin => ?_
        exact absurd fin fun h =>
          inv.none_queued unfinished k ((List.takeWhile_sublist _).subset member) h
      · exact ⟨inv, (FinsStay.refl s).leave _⟩
    iterate 6 (rename_i at_state; rw [at_state] at takes; exact absurd rfl takes)
    exact ⟨inv, (FinsStay.refl s).leave _⟩

theorem SentRun.stay {nxt stop : UInt32} {before after : List SkBuff}
    (run : SentRun nxt before after stop) :
    ∀ k ∈ before, ∃ k' ∈ after, k'.id = k.id ∧ k'.th.fin = k.th.fin := by
  induction before generalizing nxt after with
  | nil => simp
  | cons k rest ih =>
    cases after with
    | nil => exact absurd run id
    | cons k' after =>
      obtain ⟨sent, run⟩ := run
      intro j member
      rcases List.mem_cons.mp member with rfl | later
      · exact ⟨k', by simp, sent.id, sent.fin⟩
      · obtain ⟨j', found, same⟩ := ih run j later
        exact ⟨j', by simp [found], same⟩

theorem tcpSendNext_finKeeps (amount : Nat) (idle : s.tsk.inflight = 0)
    (enough : amount ≤ s.tsk.writeQueue.length) :
    FinKeeps s { tcpSendNext s amount with
      tsk.inflight := (tcpSendNext s amount).tsk.inflight + amount } := by
  obtain ⟨_, _, _, same⟩ := tcpSendNext_touches s amount
  refine ⟨fun inv => tcpSendNext_fin amount inv idle enough, ?_, same.registered, same.skFreed⟩
  obtain ⟨after, run, left, -⟩ := sendNextLoop_sent (s := s) amount s.tsk.writeQueue
  intro k member fin
  show ∃ k' ∈ (sendNextLoop s amount s.tsk.writeQueue).2, _
  rw [left]
  rw [← List.take_append_drop amount s.tsk.writeQueue] at member
  rcases List.mem_append.mp member with sent | waits
  · obtain ⟨k', found, id, fin'⟩ := run.stay k sent
    exact ⟨k', List.mem_append_left _ found, id, fin'.trans fin⟩
  · exact ⟨k, List.mem_append_right _ waits, rfl, fin⟩

theorem inputDelack_finKeeps (th : TcpHdr) (skb : SkBuff) : FinKeeps s (inputDelack s th skb) := by
  unfold inputDelack
  refine (FinKeeps.of_frame (tcpStopDelackTimer_send s)).trans ?_
  generalize tcpStopDelackTimer s = t
  dsimp only
  split
  · rename_i idle
    exact (tcpSendNext_finKeeps _ idle.1 (Nat.min_le_left _ _)).trans
      (.of_frame (tcpRearmRtoTimer_send _))
  · refine (FinKeeps.of_frame (countDelack_send (!th.psh && decide (1000 < skb.dlen)))).trans ?_
    split
    · refine FinKeeps.trans ?_ (.of_minor (tcpSendAck_minor _))
      exact .of_out rfl rfl rfl rfl
    · split
      · exact .of_frame (addDelack_send _)
      · exact .refl _

theorem inputTail_finKeeps (th : TcpHdr) (skb : SkBuff) : FinKeeps s (inputTail s th skb) := by
  unfold inputTail
  refine FinKeeps.trans ?_ (.of_minor (freeSkb_minor _ _))
  have before := (FinKeeps.of_frame (inputText_send s th skb)).trans
    (.of_frame (inputTextFin_send th (decide (skb.seq = s.tsk.tcb.rcvNxt))))
  refine before.trans ?_
  unfold inputExpected
  split
  iterate 3 (split; exact inputDelack_finKeeps th skb; exact .refl _)
  exact .refl _

/- The segment's ACK field is taken. -/
def AckTaken (s : Conn) (th : TcpHdr) (skb : SkBuff) : Prop :=
  tcpVerifySegment s.tsk th skb = true ∧ th.rst = false ∧ th.syn = false ∧ th.ack = true ∧
    s.tsk.state.takesAck = true ∧ AckNew s th

instance (s : Conn) (th : TcpHdr) (skb : SkBuff) : Decidable (AckTaken s th skb) :=
  inferInstanceAs (Decidable (_ ∧ _))

theorem inputOtherwise_fin (th : TcpHdr) (skb : SkBuff) (inv : FinInv 0 0 s)
    (clear : AckTaken s th skb → StopsClear s th.ackSeq) :
    FinInv 0 0 (inputOtherwise s th skb) ∧ FinsLeave th.ackSeq s (inputOtherwise s th skb) := by
  have whole : ∀ {t}, FinKeeps s t → FinInv 0 0 t ∧ FinsLeave th.ackSeq s t :=
    fun keeps => ⟨keeps.inv inv, keeps.stay.leave _⟩
  have freed : ∀ t : Conn, FinKeeps t (freeSkb t skb) := fun t => .of_minor (freeSkb_minor t skb)
  have ackd : tcpVerifySegment s.tsk th skb = true → th.rst = false → th.syn = false →
      th.ack = true → ∀ {t}, FinKeeps (inputAck s th).1 t →
        FinInv 0 0 t ∧ FinsLeave th.ackSeq s t := by
    intro verified rst syn ack t keeps
    obtain ⟨done, leave⟩ := inputAck_fin th inv fun takes new =>
      clear ⟨verified, rst, syn, ack, takes, new⟩
    exact ⟨keeps.inv done, leave.trans keeps.stay⟩
  refine inputOtherwise_cases s th skb ?unverified ?reset ?ignored ?refused ?closed ?taken
  case unverified =>
    intro _
    refine whole (FinKeeps.trans ?_ (freed _))
    split
    · exact .refl s
    · exact .of_minor (tcpSendAck_minor s)
  case reset =>
    intro _ _
    exact whole (((freed s).trans (.of_frame (tcpEnterTimeWait_send _))).trans
      (.of_minor (recvNotify_minor _)))
  case ignored =>
    intro _ _ _
    exact whole (freed s)
  case refused =>
    intro verified rst syn ack _
    exact ackd verified rst syn ack (freed _)
  case closed =>
    intro verified rst syn ack _ _ _
    exact ackd verified rst syn ack ((freed _).trans (.of_frame (tcpDone_send _)))
  case taken =>
    intro verified rst syn ack _ _
    exact ackd verified rst syn ack
      ((FinKeeps.of_frame (inputFinAcked_send _ th)).trans (inputTail_finKeeps th skb))

theorem FinInv.una_early (una : UInt32) (inv : FinInv 0 0 s) (none : s.fins = 0) :
    FinInv 0 0 { s with tsk.tcb.sndUna := una } :=
  inv.una una fun k member fin _ => absurd fin fun h => inv.none_sent none k member h

theorem FinInv.smss (inv : FinInv 0 0 s) (smss : UInt16) : FinInv 0 0 { s with tsk.smss := smss } :=
  { inv with }

theorem synsentAck_fin (th : TcpHdr) (inv : FinInv 0 0 s) (none : s.fins = 0) :
    FinInv 0 0 (synsentAck s th) := by
  have learned : FinInv 0 0 { s with tsk.tcb.rcvNxt := th.seq + 1, tsk.tcb.irs := th.seq } :=
    inv.frame (.of_out rfl rfl rfl rfl)
  unfold synsentAck
  dsimp only
  split
  · have moved := learned.una_early th.ackSeq none
    refine moved.clean th.ackSeq fun k member fin => ?_
    exact absurd fin fun h =>
      inv.none_queued none k ((List.takeWhile_sublist _).subset member) h
  · exact learned

theorem synsentAck_fins (th : TcpHdr) : (synsentAck s th).fins = s.fins :=
  (synsentAck_keeps th).fins

theorem synsentEstablish_fin (th : TcpHdr) (inv : FinInv 0 0 s) (waiting : s.tsk.state = .synSent) :
    FinInv 0 0 (synsentEstablish s th) := by
  have none := inv.early (by rw [waiting]; rfl)
  unfold synsentEstablish
  refine FinInv.frame ?_ (sockConnected_send _)
  refine FinInv.frame (FinInv.smss ?_ _) (.of_minor (tcpParseOpts_minor _ th))
  refine FinInv.frame ?_ (tcpRearmUserTimeout_send _)
  refine FinInv.frame ?_ (.of_minor (tcpSendAck_minor _))
  have opened := inv.frame (setState_send s .established (by rw [waiting]; rfl)
    (by simp [Awaiting, setState]))
  exact (opened.una_early s.tsk.tcb.sndNxt none).frame (.of_out rfl rfl rfl rfl)

theorem synsentSyn_fin (th : TcpHdr) (inv : FinInv 0 0 s) (waiting : s.tsk.state = .synSent) :
    FinInv 0 0 (synsentSyn s th) := by
  have none := inv.early (by rw [waiting]; rfl)
  have ackd := synsentAck_fin th inv none
  have state := (synsentAck_state (s := s) th).trans waiting
  unfold synsentSyn
  generalize synsentAck s th = t at ackd state
  dsimp only
  split
  · exact synsentEstablish_fin th ackd state
  · rw [tcpSendSynack_minor _ (by simp [setState])]
    have moved := ackd.frame (setState_send t .synReceived (by rw [state]; rfl)
      (by simp [Awaiting, setState]))
    exact moved.una_early _ (ackd.early (by rw [state]; rfl))

theorem tcpSynsent_fin (skb : SkBuff) (th : TcpHdr) (inv : FinInv 0 0 s)
    (waiting : s.tsk.state = .synSent) : FinInv 0 0 (tcpSynsent s skb th) := by
  have freed : ∀ t : Conn, SendFrame t (freeSkb t skb) := fun t => .of_minor (freeSkb_minor t skb)
  unfold tcpSynsent
  dsimp only
  split
  · exact inv.frame (freed s)
  · split
    · exact inv.frame (freed s)
    · split
      · exact inv.frame ((tcpReset_send s).trans (freed _))
      · split
        · exact inv.frame (freed s)
        · exact (synsentSyn_fin th inv waiting).frame (freed _)

theorem tcpInputState_fin (th : TcpHdr) (skb : SkBuff) (inv : FinInv 0 0 s)
    (clear : AckTaken s th skb → StopsClear s th.ackSeq) :
    FinInv 0 0 (tcpInputState s th skb) ∧ FinsLeave th.ackSeq s (tcpInputState s th skb) := by
  have freed : ∀ t : Conn, SendFrame t (freeSkb t skb) := fun t => .of_minor (freeSkb_minor t skb)
  have unqueued : s.tsk.state.early = true → FinsLeave th.ackSeq s (tcpInputState s th skb) :=
    fun early k member fin =>
      absurd fin fun h => inv.none_queued (inv.early early) k member h
  unfold tcpInputState at unqueued ⊢
  split at unqueued
  · rename_i at_state
    refine ⟨?_, unqueued (by rw [at_state]; rfl)⟩
    unfold tcpClosed
    split
    · exact inv.frame (freed s)
    · exact (tcpSendReset_fin inv).frame (freed _)
  · rename_i at_state
    exact ⟨inv.frame (freed s), unqueued (by rw [at_state]; rfl)⟩
  · rename_i at_state
    exact ⟨tcpSynsent_fin skb th inv at_state, unqueued (by rw [at_state]; rfl)⟩
  · exact inputOtherwise_fin th skb inv clear

/-! ### What acknowledges the FIN -/

/-- The step takes the FIN for acknowledged. -/
def CountsAcked (s t : Conn) : Prop :=
  (s.tsk.state = .finWait1 ∧ (t.tsk.state = .finWait2 ∨ t.tsk.state = .timeWait)) ∨
    (s.tsk.state = .closing ∧ t.tsk.state = .timeWait) ∨
    (s.tsk.state = .lastAck ∧ s.ended = false ∧ t.ended = true)

instance (s t : Conn) : Decidable (CountsAcked s t) := inferInstanceAs (Decidable (_ ∨ _))

/-- The number `ack` covers every FIN sent, and is the one after the FIN when that was sent last; and a
    FIN has been sent unless the connection was brought down before. -/
structure FinCovered (s : Conn) (ack : UInt32) : Prop where
  sent : s.ended = false → ∃ k ∈ s.sent, k.th.fin = true
  covers : ∀ k ∈ s.sent, k.th.fin = true → k.seq.toNat + 1 ≤ ack.toNat
  exact : ∀ k, s.sent.getLast? = some k → k.th.fin = true → ack.toNat = k.seq.toNat + 1

theorem Stays.not_counts (h : Stays s t) : ¬CountsAcked s t := by
  rintro (⟨first, second⟩ | ⟨first, second⟩ | ⟨-, first, second⟩)
  · rw [h.state, first] at second
    simp at second
  · rw [h.state, first] at second
    simp at second
  · rw [h.ended, first] at second
    contradiction

/- The states that the ACK of the FIN ends. -/
def TcpState.closes (a : TcpState) : Prop := a = .finWait1 ∨ a = .closing ∨ a = .lastAck

theorem TcpState.closes.takes {a : TcpState} (h : a.closes) : a.takesAck = true := by
  rcases h with rfl | rfl | rfl <;> rfl

/- The FIN is taken for acknowledged only on a valid ACK and an empty write queue. -/
theorem inputOtherwise_counts (th : TcpHdr) (skb : SkBuff) (noReset : th.rst = false)
    (closes : s.tsk.state.closes) (counts : CountsAcked s (inputOtherwise s th skb)) :
    (AckNew s th → AckTaken s th skb) ∧ (inputAck s th).2 = true ∧
      (inputAck s th).1.tsk.writeQueue = [] := by
  have ackd : Stays s (inputAck s th).1 := by
    rw [inputAck_takes closes.takes]
    exact inputNewAck_stays s th
  have freed : ∀ t : Conn, Stays t (freeSkb t skb) := fun t => .of_minor (freeSkb_minor t skb)
  revert counts
  refine inputOtherwise_cases s th skb ?unverified ?reset ?ignored ?refused ?closed ?taken
  case unverified =>
    intro _ counts
    refine absurd counts (Stays.not_counts (Stays.trans ?_ (freed _)))
    split
    · exact .refl s
    · exact .of_minor (tcpSendAck_minor s)
  case reset =>
    intro _ reset
    rw [noReset] at reset
    contradiction
  case ignored => exact fun _ _ _ counts => absurd counts (freed s).not_counts
  case refused => exact fun _ _ _ _ _ counts => absurd counts (ackd.trans (freed _)).not_counts
  case closed =>
    intro verified rst syn ack valid _ none _
    exact ⟨fun new => ⟨verified, rst, syn, ack, closes.takes, new⟩, valid, none⟩
  case taken =>
    intro verified rst syn ack valid _ counts
    refine ⟨fun new => ⟨verified, rst, syn, ack, closes.takes, new⟩, valid, ?_⟩
    by_contra left
    have unmoved : inputFinAcked (inputAck s th).1 th = (inputAck s th).1 := by
      unfold inputFinAcked
      rw [if_neg (by simpa [skbQueueEmpty] using left)]
    rw [unmoved] at counts
    obtain ⟨state, ended⟩ := inputTail_moves (inputAck s th).1 th skb
    have queue : skbQueueEmpty (inputAck s th).1.tsk.writeQueue = false := by
      simpa [skbQueueEmpty] using left
    rw [queue, ackd.state] at state
    rw [ackd.ended] at ended
    rcases counts with ⟨first, second⟩ | ⟨first, second⟩ | ⟨-, first, second⟩
    · rw [first] at state
      rw [state] at second
      split at second <;> simp [TcpState.afterFin] at second
    · rw [first] at state
      rw [state] at second
      split at second <;> simp [TcpState.afterFin] at second
    · rw [ended, first] at second
      contradiction

theorem inputNewAck_sent (th : TcpHdr) : (inputNewAck s th).1.sent = s.sent := by
  rw [inputNewAck_fst]
  split
  · obtain ⟨_, _, _, _, _, eq⟩ := tcpCleanRtoQueue_touches
      (tcpRtt { s with tsk.tcb.sndUna := th.ackSeq }) th.ackSeq
    rw [eq]
    exact (tcpRtt_send _).sent
  · rfl

/- With the write queue empty the ACK covers the FIN. -/
theorem FinInv.covered {u : Conn} {ack : UInt32} (inv : FinInv 0 0 u) (closes : u.tsk.state.closes)
    (none : u.tsk.writeQueue = []) (lower : u.tsk.tcb.sndUna.toNat ≤ ack.toNat)
    (upper : ack.toNat ≤ u.tsk.tcb.sndNxt.toNat) : FinCovered u ack := by
  have covers : ∀ k ∈ u.sent, k.th.fin = true → k.seq.toNat + 1 ≤ ack.toNat := by
    intro k member fin
    obtain ⟨-, below | ⟨k', queued, -⟩⟩ := inv.sentFin k member fin
    · omega
    · rw [none] at queued
      contradiction
  refine ⟨fun opened => ?_, covers, fun k found fin => ?_⟩
  · have queued := inv.awaiting ⟨opened, closes⟩
    have fins := inv.fins
    rw [none] at fins
    have some_sent : 0 < u.sent.countP SkBuff.isFin := by
      simp only [List.countP_nil] at fins
      omega
    exact List.countP_pos_iff.mp some_sent
  · have last := inv.last k found fin
    have := covers k (List.mem_of_getLast? found) fin
    omega

theorem tcpInputState_counts (th : TcpHdr) (skb : SkBuff) (inv : FinInv 0 0 s)
    (noReset : th.rst = false) (clear : AckTaken s th skb → StopsClear s th.ackSeq)
    (counts : CountsAcked s (tcpInputState s th skb)) : FinCovered s th.ackSeq := by
  have closes : s.tsk.state.closes := by
    rcases counts with ⟨at_state, -⟩ | ⟨at_state, -⟩ | ⟨at_state, -⟩
    · exact .inl at_state
    · exact .inr (.inl at_state)
    · exact .inr (.inr at_state)
  have other : tcpInputState s th skb = inputOtherwise s th skb := by
    unfold tcpInputState
    rcases closes with at_state | at_state | at_state <;> rw [at_state]
  rw [other] at counts
  obtain ⟨taken, valid, none⟩ := inputOtherwise_counts th skb noReset closes counts
  rw [inputAck_takes closes.takes] at valid none
  obtain ⟨done, -⟩ := inputNewAck_fin th inv fun new => clear (taken new)
  have same := inputNewAck_stays s th
  obtain ⟨lower, upper⟩ := inputNewAck_valid valid
  have covered := done.covered (by rw [same.state]; exact closes) none lower upper
  refine ⟨fun opened => ?_, ?_, ?_⟩
  · rw [← inputNewAck_sent th]
    exact covered.sent (same.ended.trans opened)
  · rw [← inputNewAck_sent th]
    exact covered.covers
  · rw [← inputNewAck_sent th]
    exact covered.exact

/-! ### Events -/

/-- No ACK that the connection takes as new, and that the cleaning of the write queue follows up to a
    FIN, has the FIN's own number: the number of an ACK for all that goes before the FIN. -/
def FinClear (s : Conn) : Event → Prop
  | .segment th payload =>
    AckTaken s th (tcpInitSegment s th payload).2 → StopsClear s th.ackSeq
  | _ => True

instance (s : Conn) (e : Event) : Decidable (FinClear s e) := by
  induction e using Event.casesOn <;> unfold FinClear <;> infer_instance

/- The ACK in the segment `e` covers the FIN `k`. -/
def Covers (e : Event) (k : SkBuff) : Prop :=
  ∃ th payload, e = .segment th payload ∧ k.numbered = true ∧ k.seq.toNat + 1 ≤ th.ackSeq.toNat

/-- A FIN leaves the write queue only to an ACK that covers it, and a segment other than a reset
    ends a closing state only when its ACK covers the FIN. -/
structure FinSafe (s : Conn) (e : Event) (t : Conn) : Prop where
  stays : t.sock.skFreed = false → ∀ k ∈ s.tsk.writeQueue, k.th.fin = true →
    (∃ k' ∈ t.tsk.writeQueue, k'.id = k.id ∧ k'.th.fin = true) ∨ Covers e k
  acknowledged : ∀ th payload, e = .segment th payload → th.rst = false → CountsAcked s t →
    FinCovered s th.ackSeq

/- The accounts of the FINs, as long as the sock is there. -/
structure FinLive (s : Conn) : Prop where
  gone : s.sock.skFreed = true → s.sock.registered = false
  live : s.sock.skFreed = false → FinInv 0 0 s

theorem FinLive.there (inv : FinLive s) (registered : s.sock.registered = true) : FinInv 0 0 s := by
  refine inv.live ?_
  cases freed : s.sock.skFreed with
  | false => rfl
  | true => simp [inv.gone freed] at registered

/- What one event keeps, with the FINs that were queued before it. -/
structure FinStep (s : Conn) (e : Event) (u : Conn) : Prop where
  live : FinLive u
  stays : u.sock.skFreed = false → ∀ k ∈ s.tsk.writeQueue, k.th.fin = true →
    (∃ k' ∈ u.tsk.writeQueue, k'.id = k.id ∧ k'.th.fin = true) ∨ Covers e k

theorem FinStep.step {e : Event} {u v : Conn} (step : FinStep s e u)
    (registered : v.sock.registered = u.sock.registered) (skFreed : v.sock.skFreed = u.sock.skFreed)
    (keeps : u.sock.skFreed = false → FinInv 0 0 u → FinInv 0 0 v ∧ FinsStay u v) :
    FinStep s e v := by
  refine ⟨⟨?_, fun live => ?_⟩, fun live k member fin => ?_⟩
  · rw [registered, skFreed]
    exact step.live.gone
  · rw [skFreed] at live
    exact (keeps live (step.live.live live)).1
  · rw [skFreed] at live
    rcases step.stays live k member fin with ⟨k', queued, id, fin'⟩ | covers
    · obtain ⟨k'', queued', id', fin''⟩ := (keeps live (step.live.live live)).2 k' queued fin'
      exact .inl ⟨k'', queued', id'.trans id, fin''⟩
    · exact .inr covers

theorem FinStep.keeps {e : Event} {u v : Conn} (step : FinStep s e u) (h : FinKeeps u v) :
    FinStep s e v := step.step h.registered h.skFreed fun _ inv => ⟨h.inv inv, h.stay⟩

theorem FinStep.free {e : Event} {u : Conn} (_ : FinStep s e u) : FinStep s e (socketFree u) := by
  obtain ⟨freed, eq⟩ := socketFree_eq u
  rw [eq]
  refine ⟨⟨fun _ => rfl, fun live => ?_⟩, fun live => ?_⟩ <;>
    simp [socketRelease, wakeSleep] at live

theorem tcpSendLoop_held (mss fuel : Nat) (buf : List UInt8) :
    (tcpSendLoop mss fuel s buf).sock.registered = s.sock.registered ∧
      (tcpSendLoop mss fuel s buf).sock.skFreed = s.sock.skFreed := by
  induction fuel generalizing s buf with
  | zero => exact ⟨rfl, rfl⟩
  | succ fuel ih =>
    rw [tcpSendLoop]
    split
    · exact ⟨rfl, rfl⟩
    · dsimp only
      set k : SkBuff := { (tcpAllocSkb s 0 (buf.take mss)).2 with
        th := { (tcpAllocSkb s 0 (buf.take mss)).2.th with
          ack := true, psh := (buf.drop mss).length = 0 } }
      obtain ⟨-, -, -, -, -, registered, skFreed, -⟩ :=
        tcpQueueTransmitSkb_view (s := (tcpAllocSkb s 0 (buf.take mss)).1) k
      obtain ⟨later, later'⟩ := ih (s := tcpQueueTransmitSkb (tcpAllocSkb s 0 (buf.take mss)).1 k)
        (buf.drop mss)
      exact ⟨later.trans registered, later'.trans skFreed⟩

theorem tcpWrite_held (buf : List UInt8) : (tcpWrite s buf).1.sock.registered = s.sock.registered ∧
    (tcpWrite s buf).1.sock.skFreed = s.sock.skFreed := by
  have sends : (tcpSend s buf).sock.registered = s.sock.registered ∧
      (tcpSend s buf).sock.skFreed = s.sock.skFreed := by
    obtain ⟨registered, skFreed⟩ := tcpSendLoop_held (s := { s with accepted := s.accepted ++ buf })
      s.tsk.smss.toNat buf.length buf
    unfold tcpSend
    have frame := tcpRearmUserTimeout_send (tcpSendLoop s.tsk.smss.toNat buf.length
      { s with accepted := s.accepted ++ buf } buf)
    exact ⟨frame.registered.trans registered, frame.skFreed.trans skFreed⟩
  unfold tcpWrite
  split
  · exact ⟨rfl, rfl⟩
  · split
    · exact sends
    · exact sends
    · exact ⟨rfl, rfl⟩

theorem tcpClose_held : (tcpClose s).1.sock.registered = s.sock.registered ∧
    (tcpClose s).1.sock.skFreed = s.sock.skFreed := by
  unfold tcpClose
  split
  iterate 6 exact ⟨rfl, rfl⟩
  iterate 3 exact ⟨(tcpDone_send s).registered, (tcpDone_send s).skFreed⟩
  · obtain ⟨-, -, -, -, registered, skFreed⟩ := tcpQueueFin_view (setState s .finWait1)
    exact ⟨registered, skFreed⟩
  · obtain ⟨-, -, -, -, registered, skFreed⟩ := tcpQueueFin_view s
    exact ⟨registered, skFreed⟩

theorem exec_fin {e : Event} {r : Reply} (inv : FinLive s) (room : NoWrap s e) (clear : FinClear s e)
    (taken : exec s e = some (t, r)) : FinStep s e t := by
  have start : FinStep s e s := ⟨inv, fun _ k member fin => .inl ⟨k, member, rfl, fin⟩⟩
  refine exec_rule (fun _ _ h step => FinStep.keeps step (.of_frame h)) (fun _ => FinStep.free) start taken
    ?write ?close ?connect ?segment ?handler ?reset
  case write =>
    rintro buf rfl registered locked
    obtain ⟨same, same'⟩ := tcpWrite_held (s := socketWrAcquire s) buf
    exact locked.step same same' fun _ inv => tcpWrite_fin buf inv room
  case close =>
    rintro rfl registered locked
    obtain ⟨same, same'⟩ := tcpClose_held (s := socketWrAcquire s)
    exact locked.step same same' fun _ inv => tcpClose_fin inv room
  case connect =>
    rintro addr port iss rfl registered closed locked
    have inv := inv.there registered
    have marked := (inv.frame (.of_minor (socketWrAcquire_minor s))).frame
      (.of_out (t := { socketWrAcquire s with tsk.err := -EISCONN }) rfl rfl rfl rfl)
    obtain ⟨k, seg, sent⟩ := tcpConnect_sent (s := { socketWrAcquire s with
      tsk.err := -EISCONN, tsk.dport := addr.port, tsk.sport := port, tsk.daddr := addr.addr
      tsk.saddr := parseIpv4 10 0 0 4 }) iss closed (inv.closed closed).1
      (inv.counted.trans (by rw [(inv.closed closed).1]; rfl))
    refine locked.step sent.registered sent.skFreed fun _ _ =>
      ⟨tcpV4Connect_fin addr port iss marked closed room, fun k member _ => ?_⟩
    have none : s.tsk.writeQueue = [] := (inv.closed closed).1
    rw [show ({ socketWrAcquire s with tsk.err := -EISCONN } : Conn).tsk.writeQueue
      = s.tsk.writeQueue from rfl, none] at member
    contradiction
  case segment =>
    rintro th payload rfl registered locked
    have keeps := tcpInputState_keeps (s := socketWrAcquire (tcpInitSegment s th payload).1) th
      (tcpInitSegment s th payload).2
    obtain ⟨done, leave⟩ := tcpInputState_fin th (tcpInitSegment s th payload).2
      (locked.live.there registered) clear
    refine ⟨⟨?_, fun _ => done⟩, fun _ k member fin => ?_⟩
    · rw [keeps.registered, keeps.skFreed]
      exact locked.live.gone
    · rcases leave k member fin with stays | covers
      · exact .inl stays
      · exact .inr ⟨th, payload, rfl, covers⟩
  case handler =>
    rintro i h rfl found live
    exact ⟨fun _ _ locked => locked.keeps tcpConnectRto_finKeeps,
      fun _ _ locked => locked.keeps tcpRetransmissionTimeout_finKeeps⟩
  case reset => exact fun _ u _ held => held.keeps tcpSendReset_finKeeps

theorem FinLive.start : FinLive {} := by
  refine ⟨by simp, fun _ => ?_⟩
  constructor
  · rfl
  · decide
  · decide
  · simp [TcpState.sending]
  · simp
  · simp
  · simp
  · rfl
  · exact fun _ => rfl
  · simp [Awaiting]
  · exact fun _ => ⟨rfl, rfl⟩
  · simp

theorem fin_acknowledged_by_own_number {trace : List (Event × Reply)} {e : Event} {r : Reply}
    (run : Transition.Run exec (fun _ s e => NoWrap s e ∧ FinClear s e) {} trace s)
    (room : NoWrap s e) (clear : FinClear s e) (taken : exec s e = some (t, r)) : FinSafe s e t := by
  have inv : FinLive s :=
    run.invariant_state .start fun _ _ _ _ _ inv ok taken => (exec_fin inv ok.1 ok.2 taken).live
  refine ⟨(exec_fin inv room clear taken).stays, ?_⟩
  rintro th payload rfl noReset counts
  simp only [exec] at taken
  split at taken
  · rename_i here
    simp only [Bool.and_eq_true] at here
    obtain ⟨rfl, -⟩ := by simpa using taken
    have locked : FinInv 0 0 (socketWrAcquire (tcpInitSegment s th payload).1) :=
      (inv.there here.1.1).frame (.of_out rfl rfl rfl rfl)
    have covered := tcpInputState_counts th (tcpInitSegment s th payload).2 locked noReset clear counts
    exact ⟨covered.sent, covered.covers, covered.exact⟩
  · contradiction

/- The step takes the FIN for acknowledged, and the ACK does or does not cover it. -/
def acksFin (s : Conn) (e : Event) (covered : Bool) : Bool :=
  match e with
  | .segment th _ => (exec s e).any fun p => decide (CountsAcked s p.1) &&
      s.sent.any fun k => k.th.fin && decide (k.seq.toNat + 1 ≤ th.ackSeq.toNat) = covered
  | _ => false

theorem fin_acknowledged_by_own_number_write : ∃ trace s t r,
    Transition.Run exec (fun _ s e => NoWrap s e ∧ FinClear s e) {} trace s ∧
      exec s (.segment (peerHdr 5001 1003) []) = some (t, r) ∧ CountsAcked s t ∧
      FinSafe s (.segment (peerHdr 5001 1003) []) t := by
  obtain ⟨trace, s, run, room, clear, moves⟩ : ∃ trace s,
      Transition.Run exec (fun _ s e => NoWrap s e ∧ FinClear s e) {} trace s ∧
        NoWrap s (.segment (peerHdr 5001 1003) []) ∧ FinClear s (.segment (peerHdr 5001 1003) []) ∧
        acksFin s (.segment (peerHdr 5001 1003) []) true :=
    Transition.Run.exists_of_follow
      (handshake ++ [.write [1], .close, .segment (peerHdr 5001 1002) []]) (by decide)
  simp only [acksFin, Option.any_eq_true, Bool.and_eq_true, decide_eq_true_eq] at moves
  obtain ⟨⟨t, r⟩, taken, counts, -⟩ := moves
  exact ⟨trace, s, t, r, run, taken, counts, fin_acknowledged_by_own_number run room clear taken⟩

/-- Two one-byte writes and a close, with the second byte and the FIN in one flight: the ACK of the
    second byte, which stops short of the FIN, takes it off the queue and moves the state on. -/
theorem fin_acknowledged_by_text : ∃ trace s t r,
    Transition.Run exec (fun _ s e => NoWrap s e) {} trace s ∧
      NoWrap s (.segment (peerHdr 5001 1003) []) ∧
      exec s (.segment (peerHdr 5001 1003) []) = some (t, r) ∧
      ¬FinSafe s (.segment (peerHdr 5001 1003) []) t := by
  obtain ⟨trace, s, run, room, moves⟩ : ∃ trace s,
      Transition.Run exec (fun _ s e => NoWrap s e) {} trace s ∧
        NoWrap s (.segment (peerHdr 5001 1003) []) ∧
        acksFin s (.segment (peerHdr 5001 1003) []) false :=
    Transition.Run.exists_of_follow
      (handshake ++ [.write [1], .write [2], .close, .segment (peerHdr 5001 1002) []]) (by decide)
  simp only [acksFin, Option.any_eq_true, Bool.and_eq_true, decide_eq_true_eq, List.any_eq_true] at moves
  obtain ⟨⟨t, r⟩, taken, counts, k, sent, fin, short⟩ := moves
  refine ⟨trace, s, t, r, run, room, taken, fun safe => ?_⟩
  have covered := (safe.acknowledged _ _ rfl rfl counts).covers k sent fin
  simp [covered] at short

end HfIp
