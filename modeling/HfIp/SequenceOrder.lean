import HfIp.Numbering
import HfIp.Reader

/- The sequence numbers of both sides under any peer: `iss`, `snd_una` and `snd_nxt` stay in order and
   move forward only, `rcv_nxt` moves forward only once the peer's SYN has set it, and no segment
   acknowledges what has not been sent. -/
namespace HfIp

variable {s t : Conn} {n : Nat}

/-! ### What the receive side takes in -/

/- The text that waits out of order, and `n` numbers more after each piece of it, stay below 2^32. -/
def OfoFits (n : Nat) (s : Conn) : Prop :=
  ∀ k ∈ s.tsk.ofoQueue, k.seq.toNat + k.payload.length + n < 2 ^ 32

instance (n : Nat) (s : Conn) : Decidable (OfoFits n s) :=
  inferInstanceAs (Decidable (∀ k ∈ s.tsk.ofoQueue, _))

theorem OfoFits.sub (fits : OfoFits n s) (sub : ∀ k ∈ t.tsk.ofoQueue, k ∈ s.tsk.ofoQueue) :
    OfoFits n t := fun k member => fits k (sub k member)

theorem dlen_next {rcvNxt : UInt32} {k : SkBuff} (fits : rcvNxt.toNat + k.payload.length < 2 ^ 32) :
    (rcvNxt + k.dlen).toNat = rcvNxt.toNat + k.payload.length := by
  rw [UInt32.toNat_add, dlen_toNat k (by omega)]
  omega

theorem consumeLoop_grows {rcvNxt : UInt32} {queue : List SkBuff}
    (fits : ∀ k ∈ queue, k.seq.toNat + k.payload.length + n < 2 ^ 32)
    (room : rcvNxt.toNat + n < 2 ^ 32) :
    rcvNxt.toNat ≤ (consumeLoop rcvNxt queue).1.toNat ∧
      (consumeLoop rcvNxt queue).1.toNat + n < 2 ^ 32 := by
  induction queue generalizing rcvNxt with
  | nil => exact ⟨Nat.le_refl _, room⟩
  | cons k rest ih =>
    rw [consumeLoop]
    split
    · rename_i here
      have first := fits k (by simp)
      rw [← here] at first
      have next := @dlen_next rcvNxt k (by omega)
      have later : (rcvNxt + k.dlen).toNat + n < 2 ^ 32 := by omega
      obtain ⟨grows, within⟩ := ih (fun j member => fits j (by simp [member])) later
      exact ⟨Nat.le_trans (by omega) grows, within⟩
    · exact ⟨Nat.le_refl _, room⟩

/- Text in sequence moves `rcv_nxt` on, other text does not move it. -/
theorem tcpDataQueue_rcvNxt (skb : SkBuff) (ofo : OfoFits n s)
    (fits : skb.seq.toNat + skb.payload.length + n < 2 ^ 32) :
    s.tsk.tcb.rcvNxt.toNat ≤ (tcpDataQueue s skb).1.tsk.tcb.rcvNxt.toNat ∧
      (skb.seq = s.tsk.tcb.rcvNxt → (tcpDataQueue s skb).1.tsk.tcb.rcvNxt.toNat + n < 2 ^ 32) := by
  unfold tcpDataQueue
  split
  · rw [(freeSkb_reads s skb).rcvNxt]
    exact ⟨Nat.le_refl _, fun here => by rw [← here]; omega⟩
  · split
    · rename_i here
      rw [here] at fits
      have next := @dlen_next s.tsk.tcb.rcvNxt skb (by omega)
      obtain ⟨grows, within⟩ := consumeLoop_grows ofo
        (show (s.tsk.tcb.rcvNxt + skb.dlen).toNat + n < 2 ^ 32 by omega)
      exact ⟨Nat.le_trans (by omega) grows, fun _ => within⟩
    · rename_i early
      refine ⟨Nat.le_of_eq ?_, fun here => absurd here early⟩
      dsimp only
      rw [(tcpSendAck_minor _).same.rcvNxt]
      split
      · exact (congrArg UInt32.toNat (tcpCalculateSacks_minor { s with
          tsk.ofoQueue := (tcpDataInsertOrdered s.tsk.ofoQueue skb).1 }).same.rcvNxt).symm
      · rfl

/- What waits out of order waited before or is the buffer itself. -/
def OfoFrom (skb : SkBuff) (s t : Conn) : Prop :=
  ∀ k ∈ t.tsk.ofoQueue, k ∈ s.tsk.ofoQueue ∨ (k.seq = skb.seq ∧ k.payload = skb.payload)

theorem OfoFrom.of_reads {skb : SkBuff} {u : Conn} (h : OfoFrom skb s t) (reads : Reads t u) :
    OfoFrom skb s u := fun k member => h k (reads.ofo k member)

theorem tcpDataQueue_ofo (skb : SkBuff) : OfoFrom skb s (tcpDataQueue s skb).1 := by
  intro k member
  unfold tcpDataQueue at member
  split at member
  · exact .inl ((freeSkb_reads s skb).ofo k member)
  · split at member
    · have split := consumeLoop_split (s.tsk.tcb.rcvNxt + skb.dlen) s.tsk.ofoQueue
      left
      rw [← split]
      exact List.mem_append_right _ member
    · dsimp only at member
      rw [(tcpSendAck_minor _).same.ofoQueue] at member
      refine (tcpDataInsertOrdered_mem ?_).symm
      split at member
      · have same := (tcpCalculateSacks_minor { s with
          tsk.ofoQueue := (tcpDataInsertOrdered s.tsk.ofoQueue skb).1 }).same.ofoQueue
        exact (congrArg (k ∈ ·) same).mp member
      · exact member

theorem inputFin_reads (s : Conn) :
    (inputFin s).tsk.tcb.rcvNxt = s.tsk.tcb.rcvNxt + 1 ∧
      ∀ k ∈ (inputFin s).tsk.ofoQueue, k ∈ s.tsk.ofoQueue := by
  unfold inputFin
  dsimp only
  have acked := ((pollReadable_minor { s with
    tsk.tcb.rcvNxt := s.tsk.tcb.rcvNxt + 1, tsk.flags := s.tsk.flags ||| TCP_FIN }).trans
    (tcpSendAck_minor _)).trans (recvNotify_minor _) |>.same
  generalize recvNotify (tcpSendAck (pollReadable { s with
    tsk.tcb.rcvNxt := s.tsk.tcb.rcvNxt + 1, tsk.flags := s.tsk.flags ||| TCP_FIN })) = u at acked
  have ofo : ∀ k ∈ u.tsk.ofoQueue, k ∈ s.tsk.ofoQueue := fun k member => acked.ofoQueue ▸ member
  have gone := tcpEnterTimeWait_reads u
  split
  · exact ⟨acked.rcvNxt, ofo⟩
  · exact ⟨acked.rcvNxt, ofo⟩
  · split
    · exact ⟨gone.rcvNxt.trans acked.rcvNxt, fun k member => ofo k (gone.ofo k member)⟩
    · exact ⟨acked.rcvNxt, ofo⟩
  · exact ⟨gone.rcvNxt.trans acked.rcvNxt, fun k member => ofo k (gone.ofo k member)⟩
  · exact ⟨acked.rcvNxt, ofo⟩

theorem inputText_rcvNxt (th : TcpHdr) (skb : SkBuff) (ofo : OfoFits n s)
    (fits : skb.seq.toNat + skb.payload.length + n < 2 ^ 32) :
    s.tsk.tcb.rcvNxt.toNat ≤ (inputText s th skb).1.tsk.tcb.rcvNxt.toNat ∧
      (skb.seq = s.tsk.tcb.rcvNxt → (inputText s th skb).1.tsk.tcb.rcvNxt.toNat + n < 2 ^ 32) := by
  refine inputText_reads_rule (P := fun v => s.tsk.tcb.rcvNxt.toNat ≤ v.tsk.tcb.rcvNxt.toNat ∧
    (skb.seq = s.tsk.tcb.rcvNxt → v.tsk.tcb.rcvNxt.toNat + n < 2 ^ 32)) ?_ ?_
  · exact ⟨Nat.le_refl _, fun here => by rw [← here]; omega⟩
  · intro _ _
    exact tcpDataQueue_rcvNxt skb ofo fits

/- The FIN in sequence takes one number more than the text. -/
theorem inputTail_rcvNxt (th : TcpHdr) (skb : SkBuff) (ofo : OfoFits th.fin.toNat s)
    (fits : skb.seq.toNat + skb.payload.length + th.fin.toNat < 2 ^ 32) :
    s.tsk.tcb.rcvNxt.toNat ≤ (inputTail s th skb).tsk.tcb.rcvNxt.toNat := by
  obtain ⟨grows, within⟩ := inputText_rcvNxt th skb ofo fits
  unfold inputTail
  dsimp only
  rw [(freeSkb_reads _ _).rcvNxt, (inputExpected_reads _ th skb _).rcvNxt]
  unfold inputTextFin
  split
  · rename_i taken
    simp only [Bool.and_eq_true, decide_eq_true_eq] at taken
    have room := within taken.2
    rw [taken.1, Bool.toNat_true] at room
    rw [(inputFin_reads _).1, UInt32.toNat_add, UInt32.toNat_one]
    omega
  · exact grows

theorem inputOtherwise_rcvNxt (th : TcpHdr) (skb : SkBuff) (ofo : OfoFits th.fin.toNat s)
    (fits : skb.seq.toNat + skb.payload.length + th.fin.toNat < 2 ^ 32) :
    s.tsk.tcb.rcvNxt.toNat ≤ (inputOtherwise s th skb).tsk.tcb.rcvNxt.toNat := by
  have acked : (inputAck s th).1.tsk.tcb.rcvNxt = s.tsk.tcb.rcvNxt := inputAck_rcvNxt s th
  have still : ∀ u v, Reads u v → u.tsk.tcb.rcvNxt = s.tsk.tcb.rcvNxt →
      s.tsk.tcb.rcvNxt.toNat ≤ v.tsk.tcb.rcvNxt.toNat := by
    intro u v reads same
    rw [reads.rcvNxt, same]
  refine inputOtherwise_cases s th skb ?_ ?_ ?_ ?_ ?_ ?_
  · intro _
    refine still _ _ (freeSkb_reads _ skb) ?_
    split
    · rfl
    · exact (tcpSendAck_reads s).rcvNxt
  · intro _ _
    exact still _ (tcpEnterTimeWait (freeSkb s skb))
      ((freeSkb_reads s skb).trans (tcpEnterTimeWait_reads _)) rfl
  · intro _ _ _
    exact still _ _ (freeSkb_reads s skb) rfl
  · intro _ _ _ _ _
    exact still _ _ (freeSkb_reads _ skb) acked
  · intro _ _ _ _ _ _ _
    exact still _ _ ((freeSkb_reads _ skb).trans (tcpDone_reads _)) acked
  · intro _ _ _ _ _ _
    have same : (inputFinAcked (inputAck s th).1 th).tsk.tcb.rcvNxt = s.tsk.tcb.rcvNxt :=
      inputFinAcked_rcvNxt.trans acked
    have sub : ∀ k ∈ (inputFinAcked (inputAck s th).1 th).tsk.ofoQueue, k ∈ s.tsk.ofoQueue := by
      refine inputFinAcked_reads_rule (P := fun v => ∀ k ∈ v.tsk.ofoQueue, k ∈ s.tsk.ofoQueue)
        (fun u v reads held k member => held k (reads.ofo k member)) ?_ ?_
      · refine inputAck_reads_rule (P := fun v => ∀ k ∈ v.tsk.ofoQueue, k ∈ s.tsk.ofoQueue)
          (fun u v reads held k member => held k (reads.ofo k member)) (fun k member => member) ?_
        exact fun _ k member => member
      · intro _ _ k member
        revert k
        exact inputAck_reads_rule (P := fun v => ∀ k ∈ v.tsk.ofoQueue, k ∈ s.tsk.ofoQueue)
          (fun u v reads held k member => held k (reads.ofo k member)) (fun k member => member)
          fun _ k member => member
    rw [← same]
    exact inputTail_rcvNxt th skb (ofo.sub sub) fits

theorem synsentSyn_ofo (s : Conn) (th : TcpHdr) :
    ∀ k ∈ (synsentSyn s th).tsk.ofoQueue, k ∈ s.tsk.ofoQueue := by
  have acked := synsentAck_reads s th
  unfold synsentSyn
  generalize synsentAck s th = u at acked
  dsimp only
  split
  · exact fun k member => acked.ofo k ((synsentEstablish_reads u th).ofo k member)
  · rw [tcpSendSynack_minor _ (by simp [setState])]
    exact fun k member => acked.ofo k member

theorem tcpInputState_ofo (th : TcpHdr) (skb : SkBuff) : OfoFrom skb s (tcpInputState s th skb) := by
  have same : ∀ u v : Conn, v.tsk.ofoQueue = u.tsk.ofoQueue → OfoFrom skb s u → OfoFrom skb s v :=
    fun u v eq held k member => held k (eq ▸ member)
  refine tcpInputState_reads_rule (P := OfoFrom skb s) (fun u v reads held => held.of_reads reads)
    (fun k member => .inl member) ?_ ?_ ?_ ?_ ?_ ?_ ?_
  · intro _ _ k member
    refine .inl ?_
    unfold tcpReset at member
    dsimp only at member
    split at member
    · have held := (tcpDone_reads _).ofo k member
      exact held
    · have held := (tcpDone_reads _).ofo k member
      exact held
    · exact member
    · have held := (tcpDone_reads _).ofo k member
      exact held
  · exact fun _ k member => .inl (synsentSyn_ofo s th k member)
  · exact fun _ k member => .inl member
  · exact fun _ _ _ u _ _ held => same u _ rfl held
  · exact fun u _ held => same u _ rfl held
  · intro u _ _ _ held k member
    rcases tcpDataQueue_ofo skb k member with old | new
    · exact held k old
    · exact .inr new
  · exact fun u _ _ _ _ _ held k member => held k ((inputFin_reads u).2 k member)

/-! ### Events -/

/-- The segment's own numbers stay below 2^32, and so does the number after its FIN when text that
    waits out of order comes in front of it. -/
def RcvFits (s : Conn) : Event → Prop
  | .segment th payload =>
    th.seq.toNat + payload.length + th.syn.toNat + th.fin.toNat < 2 ^ 32 ∧ OfoFits th.fin.toNat s
  | _ => True

instance (s : Conn) (e : Event) : Decidable (RcvFits s e) := by
  induction e using Event.casesOn <;> unfold RcvFits <;> infer_instance

/-- What the event sends for the first time takes numbers below 2^32. -/
def SendFits (s : Conn) (e : Event) : Prop := ∀ p ∈ exec s e, seqSent p.1 < 2 ^ 32

instance (s : Conn) (e : Event) : Decidable (SendFits s e) :=
  inferInstanceAs (Decidable (∀ p ∈ exec s e, _))

/- The peer's SYN sets `rcv_nxt`. -/
def TakesSyn (s : Conn) : Event → Prop
  | .segment th payload => SynTaken (arriving s th payload) th ∧ th.rst = false
  | _ => False

theorem TcpState.leads_synchronizes : ∀ {f : Bool} {a b : TcpState}, a.synchronizes = true →
    a.leadsTo f b = true → b.synchronizes = true := by
  decide

theorem StepsAside.synchronizes {a b : TcpState} (moves : StepsAside a b)
    (before : a.synchronizes = true) : b.synchronizes = true := by
  rcases moves with rfl | gone | ⟨-, closes⟩
  · exact before
  · cases b <;> simp_all [TcpState.aside, TcpState.synchronizes]
  · cases b <;> simp_all [TcpState.active2, TcpState.synchronizes]

theorem SynTaken.input {th : TcpHdr} {skb : SkBuff} (taken : SynTaken s th) (rst : th.rst = false) :
    tcpInputState s th skb = freeSkb (synsentSyn s th) skb := by
  have window := taken.window
  unfold tcpInputState
  rw [taken.waiting]
  dsimp only
  unfold tcpSynsent
  dsimp only
  have fresh : ¬(th.ack = true ∧ (th.ackSeq ≤ s.tsk.tcb.iss ∨ th.ackSeq > s.tsk.tcb.sndNxt)) := by
    rintro ⟨ack, old | beyond⟩
    · exact UInt32.not_le.mpr (window ack).1 old
    · exact UInt32.not_lt.mpr (window ack).2.2 beyond
  have inside : ¬(th.ack = true ∧
      (th.ackSeq < s.tsk.tcb.sndUna ∨ th.ackSeq > s.tsk.tcb.sndNxt)) := by
    rintro ⟨ack, old | beyond⟩
    · exact UInt32.not_lt.mpr (window ack).2.1 old
    · exact UInt32.not_lt.mpr (window ack).2.2 beyond
  rw [if_neg fresh, if_neg inside, rst, taken.syn]
  rfl

theorem takesSyn_synchronizes {e : Event} {r : Reply} (syn : TakesSyn s e)
    (taken : exec s e = some (t, r)) : t.tsk.state.synchronizes = true := by
  cases e with
  | segment th payload =>
    obtain ⟨synTaken, rst⟩ := syn
    simp only [exec] at taken
    split at taken
    · obtain ⟨rfl, -⟩ := by simpa using taken
      have path : (tcpIn s th payload).tsk.state =
          (tcpInputState (arriving s th payload) th (tcpInitSegment s th payload).2).tsk.state := rfl
      rw [path, synTaken.input rst, (freeSkb_minor _ _).same.state]
      rcases (synsentSyn_state (arriving s th payload) th).1 with opened | received
      · rw [opened]
        rfl
      · rw [received]
        rfl
    · contradiction
  | _ => cases syn

theorem receiveLoop_rcv (s : Conn) (len rlen : Nat) :
    (receiveLoop s len rlen).1.tsk.tcb.rcvNxt = s.tsk.tcb.rcvNxt ∧
      (∀ k ∈ (receiveLoop s len rlen).1.tsk.ofoQueue, k ∈ s.tsk.ofoQueue) ∧
      StepsAside s.tsk.state (receiveLoop s len rlen).1.tsk.state := by
  by_cases room : rlen < len
  · obtain ⟨d, bytes, dequeued, -, reads⟩ := receiveLoop_spec s len rlen room
    obtain ⟨freed, rest⟩ := dequeued.rest
    have tcb : d.tsk.tcb = s.tsk.tcb := by rw [rest]
    have ofo : d.tsk.ofoQueue = s.tsk.ofoQueue := by rw [rest]
    have state : d.tsk.state = s.tsk.state := by rw [rest]
    refine ⟨reads.rcvNxt.trans (congrArg Tcb.rcvNxt tcb), fun k member => ?_, ?_⟩
    · rw [← ofo]
      exact reads.ofo k member
    · rw [← state]
      exact reads.moves
  · rw [receiveLoop_full s len rlen room]
    have reads := receiveReturn_reads s rlen
    exact ⟨reads.rcvNxt, reads.ofo, reads.moves⟩

/- `rcv_nxt` from `s` on, and the text that waits. -/
structure RcvOrder (s t : Conn) : Prop where
  ofo : OfoFits 0 t
  forward : s.tsk.state.synchronizes = true → t.tsk.state.synchronizes = true ∧
    s.tsk.tcb.rcvNxt.toNat ≤ t.tsk.tcb.rcvNxt.toNat

theorem RcvOrder.keep {u : Conn} (order : RcvOrder s t) (rcvNxt : u.tsk.tcb.rcvNxt = t.tsk.tcb.rcvNxt)
    (ofo : ∀ k ∈ u.tsk.ofoQueue, k ∈ t.tsk.ofoQueue) (moves : StepsAside t.tsk.state u.tsk.state) :
    RcvOrder s u := by
  refine ⟨order.ofo.sub ofo, fun before => ?_⟩
  obtain ⟨synchronized, grows⟩ := order.forward before
  rw [rcvNxt]
  exact ⟨moves.synchronizes synchronized, grows⟩

theorem exec_rcvOrder {e : Event} {r : Reply} (ofo : OfoFits 0 s) (fits : RcvFits s e)
    (taken : exec s e = some (t, r)) : RcvOrder s t := by
  refine exec_reads_rule (P := RcvOrder s) ?_ ?_ ⟨ofo, fun before => ⟨before, Nat.le_refl _⟩⟩ taken
    ?_ ?_ ?_ ?_ ?_
  · intro u v idle order
    have rcvNxt : v.tsk.tcb.rcvNxt = u.tsk.tcb.rcvNxt := congrArg (·.tsk.tcb.rcvNxt) idle
    have ofo : v.tsk.ofoQueue = u.tsk.ofoQueue := congrArg (·.tsk.ofoQueue) idle
    exact order.keep rcvNxt (fun k member => ofo ▸ member) (.inl idle.stays.state)
  · intro u v reads order
    exact order.keep reads.rcvNxt reads.ofo reads.moves
  · intro u order
    obtain ⟨freed, eq⟩ := socketFree_eq u
    rw [eq]
    exact order.keep rfl (fun k member => member) (.inl rfl)
  · intro len _ _
    exact ⟨ofo, fun before => ⟨before, Nat.le_refl _⟩⟩
  · intro u len rlen _ order
    obtain ⟨rcvNxt, ofo, moves⟩ := receiveLoop_rcv u len rlen
    exact order.keep rcvNxt ofo moves
  · intro u addr port iss _ closed order
    refine ⟨order.ofo.sub (tcpV4Connect_reads u addr port iss closed).ofo, fun before => ?_⟩
    have synchronized := (order.forward before).1
    rw [closed] at synchronized
    contradiction
  · rintro th payload rfl locked
    have own : th.seq.toNat + payload.length + th.fin.toNat < 2 ^ 32 := by
      have := fits.1
      omega
    constructor
    · intro k member
      rcases tcpInputState_ofo th (tcpInitSegment s th payload).2 k member with old | ⟨seq, text⟩
      · exact ofo k old
      · rw [seq, text]
        exact Nat.lt_of_le_of_lt (Nat.le_add_right _ _) own
    · intro before
      have checked : (arriving s th payload).tsk.state.synchronizes = true := before
      constructor
      · exact TcpState.leads_synchronizes checked
          (tcpInputState_leads (arriving s th payload) true th (tcpInitSegment s th payload).2).state
      · rw [show socketWrAcquire (tcpInitSegment s th payload).1 = arriving s th payload from rfl,
          tcpInputState_otherwise checked]
        exact inputOtherwise_rcvNxt (s := arriving s th payload) th (tcpInitSegment s th payload).2
          fits.2 own

/-! ### Runs -/

/-- The send numbers are in order, and each of them below `snd_nxt` is one that a segment already
    handed to IP bears. -/
structure SequenceOrder (s : Conn) : Prop where
  low : s.tsk.tcb.iss ≤ s.tsk.tcb.sndUna
  high : s.tsk.tcb.sndUna ≤ s.tsk.tcb.sndNxt
  borne : ∀ n, s.tsk.tcb.iss.toNat ≤ n → n < s.tsk.tcb.sndNxt.toNat →
    ∃ seg ∈ s.out, seg.range.Has n

/-- A step moves no number back, `rcv_nxt` from the peer's SYN on, and a segment moves `snd_una` no
    further than what was sent before it came. -/
structure SequenceStep (synchronized : Prop) (s : Conn) (e : Event) (t : Conn) : Prop where
  sndUna : s.tsk.tcb.sndUna ≤ t.tsk.tcb.sndUna
  sndNxt : s.tsk.tcb.sndNxt ≤ t.tsk.tcb.sndNxt
  rcvNxt : synchronized → s.tsk.tcb.rcvNxt ≤ t.tsk.tcb.rcvNxt
  sent : ∀ th payload, e = .segment th payload → t.tsk.tcb.sndUna ≤ s.tsk.tcb.sndNxt

theorem exec_sent {e : Event} {r : Reply} {th : TcpHdr} {payload : List UInt8}
    (inv : SendNumbers s) (room : seqSent t < 2 ^ 32) (arrives : e = .segment th payload)
    (taken : exec s e = some (t, r)) : t.tsk.tcb.sndUna ≤ s.tsk.tcb.sndNxt := by
  subst arrives
  simp only [exec] at taken
  split at taken
  · rename_i here
    simp only [Bool.and_eq_true] at here
    obtain ⟨rfl, -⟩ := by simpa using taken
    have frame : SendFrame s (arriving s th payload) := .of_out rfl rfl rfl rfl
    exact (tcpInputState_reached th (tcpInitSegment s th payload).2 (inv.frame frame)
      (inv.live here.1.1)).2 room
  · contradiction

theorem send_numbers {allowed : List (Event × Reply) → Conn → Event → Prop}
    {trace : List (Event × Reply)} (fits : ∀ trace s e, allowed trace s e → SendFits s e)
    (run : Transition.Run exec allowed {} trace s) : SendNumbers s := by
  refine run.invariant_state .start ?_
  intro trace s e t r inv ok taken
  exact ((exec_reached inv taken).order (fits trace s e ok (t, r) taken)).1

/- What holds along a run of fitting steps. -/
structure RunNumbers (s : Conn) : Prop where
  numbers : SendNumbers s
  borne : ∀ k ∈ s.sent, ∃ seg ∈ s.out, seg.range = k.range
  ofo : OfoFits 0 s

theorem RunNumbers.next {e : Event} {r : Reply} (inv : RunNumbers s)
    (fits : SendFits s e ∧ RcvFits s e) (taken : exec s e = some (t, r)) : RunNumbers t := by
  have reached := exec_reached inv.numbers taken
  refine ⟨(reached.order (fits.1 (t, r) taken)).1, fun k member => ?_,
    (exec_rcvOrder inv.ofo fits.2 taken).ofo⟩
  rcases reached.logs.carried k member with old | new
  · obtain ⟨seg, out, bears⟩ := inv.borne k old
    exact ⟨seg, reached.logs.out.subset out, bears⟩
  · exact new

theorem run_numbers {trace : List (Event × Reply)}
    (run : Transition.Run exec (fun _ s e => SendFits s e ∧ RcvFits s e) {} trace s) :
    RunNumbers s := by
  refine run.invariant_state ⟨.start, by simp, by simp [OfoFits]⟩ ?_
  exact fun _ _ _ _ _ inv fits taken => inv.next fits taken

theorem sequence_variables_ordered {trace : List (Event × Reply)}
    (run : Transition.Run exec (fun _ s e => SendFits s e ∧ RcvFits s e) {} trace s) :
    SequenceOrder s ∧ ∀ e t r, SendFits s e → RcvFits s e → exec s e = some (t, r) →
      SequenceStep (Transition.Occurs exec TakesSyn {} trace) s e t := by
  have inv := run_numbers run
  refine ⟨⟨inv.numbers.low, inv.numbers.high, fun n low high => ?_⟩, fun e t r room fits taken => ?_⟩
  · rw [inv.numbers.next] at high
    obtain ⟨range, member, has⟩ := inv.numbers.tiles.covers low high
    obtain ⟨k, sent, rfl⟩ := List.mem_map.mp member
    obtain ⟨seg, out, bears⟩ := inv.borne k sent
    exact ⟨seg, out, bears ▸ has⟩
  · have below := room (t, r) taken
    obtain ⟨-, una, nxt⟩ := (exec_reached inv.numbers taken).order below
    refine ⟨una, nxt, fun syn => ?_, fun th payload arrives => ?_⟩
    · have synchronized := occurs_stays (Q := fun a => a.synchronizes = true)
        TcpState.leads_synchronizes takesSyn_synchronizes run syn
      exact UInt32.le_iff_toNat_le.mpr
        ((exec_rcvOrder inv.ofo fits taken).forward synchronized).2
    · exact exec_sent inv.numbers below arrives taken

/- An ACK for what has not been sent, text with a FIN in sequence, and then an abort. -/
theorem sequence_variables_ordered_hostile : ∃ trace s,
    Transition.Run exec (fun _ s e => SendFits s e ∧ RcvFits s e) {} trace s ∧
      s.tsk.tcb.sndUna = 1002 ∧ s.tsk.tcb.rcvNxt = 5003 ∧
      (SequenceOrder s ∧ ∀ e t r, SendFits s e → RcvFits s e → exec s e = some (t, r) →
        SequenceStep (Transition.Occurs exec TakesSyn {} trace) s e t) := by
  obtain ⟨trace, s, run, una, nxt⟩ : ∃ trace s,
      Transition.Run exec (fun _ s e => SendFits s e ∧ RcvFits s e) {} trace s ∧
        s.tsk.tcb.sndUna = 1002 ∧ s.tsk.tcb.rcvNxt = 5003 :=
    Transition.Run.exists_of_follow
      (handshake ++ [.write [1], .segment (peerHdr 5001 4000) [7],
        .segment { peerHdr 5001 1001 with fin := true } [8], .abort]) (by decide +kernel)
  exact ⟨trace, s, run, una, nxt, sequence_variables_ordered run⟩

end HfIp
