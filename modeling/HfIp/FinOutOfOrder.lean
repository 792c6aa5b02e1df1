import HfIp.Reassembly
import HfIp.SegmentArrives

/- When the peer's FIN is noticed, for every way its stream can be cut into segments and every order in
   which these can come. -/
namespace HfIp

open Transition

/-- Piece `i` of the stream arrives in a segment with header `th`. -/
def arrive (pieces : List (List UInt8)) (s : Conn) (arrival : Nat × TcpHdr) : Option (Conn × Unit) :=
  pieces[arrival.1]?.map fun payload => (tcpIn s arrival.2 payload, ())

/- The segment bears the number of its piece and the newest ACK number, and the FIN if it is the last. -/
structure FromPeer (base : UInt32) (pieces : List (List UInt8)) (s : Conn) (arrival : Nat × TcpHdr) : Prop where
  place : InPlace base pieces arrival
  rst : arrival.2.rst = false
  syn : arrival.2.syn = false
  ack : arrival.2.ack = true
  newest : arrival.2.ackSeq = s.tsk.tcb.sndUna
  sent : s.tsk.tcb.sndUna ≤ s.tsk.tcb.sndNxt
  fin : arrival.2.fin = true ↔ arrival.1 + 1 = pieces.length

instance (base : UInt32) (pieces : List (List UInt8)) (s : Conn) (arrival : Nat × TcpHdr) :
    Decidable (FromPeer base pieces s arrival) :=
  decidable_of_iff (InPlace base pieces arrival ∧ arrival.2.rst = false ∧ arrival.2.syn = false ∧
      arrival.2.ack = true ∧ arrival.2.ackSeq = s.tsk.tcb.sndUna ∧ s.tsk.tcb.sndUna ≤ s.tsk.tcb.sndNxt ∧
      (arrival.2.fin = true ↔ arrival.1 + 1 = pieces.length))
    ⟨fun ⟨place, rst, syn, ack, newest, sent, fin⟩ => ⟨place, rst, syn, ack, newest, sent, fin⟩,
      fun h => ⟨h.place, h.rst, h.syn, h.ack, h.newest, h.sent, h.fin⟩⟩

/- The segment with the FIN arrives when everything before it has been received. -/
def FinInSequence (s : Conn) (arrival : Nat × TcpHdr) : Prop :=
  arrival.2.fin = true ∧ arrival.2.seq = s.tsk.tcb.rcvNxt

instance (s : Conn) (arrival : Nat × TcpHdr) : Decidable (FinInSequence s arrival) :=
  inferInstanceAs (Decidable (_ ∧ _))

/- All of the text and the FIN have been counted. -/
def AllReceived (stop : Nat) (s : Conn) : Prop :=
  s.tsk.state = .closeWait ∧ s.tsk.tcb.rcvNxt.toNat = stop + 1

instance (stop : Nat) (s : Conn) : Decidable (AllReceived stop s) := inferInstanceAs (Decidable (_ ∧ _))

/- The FIN has not been counted: nothing received reaches beyond the end of the text. -/
structure StillOpen (stop : Nat) (s : Conn) : Prop where
  state : s.tsk.state = .established
  next : s.tsk.tcb.rcvNxt.toNat ≤ stop
  early : ∀ k ∈ s.tsk.ofoQueue, k.seq.toNat + k.payload.length ≤ stop

variable {base : UInt32} {pieces : List (List UInt8)} {s t : Conn} {th : TcpHdr} {skb : SkBuff} {stop : Nat}

theorem consumeLoop_upTo {rcvNxt : UInt32} {queue : List SkBuff} (room : stop < 2 ^ 32)
    (early : ∀ k ∈ queue, k.seq.toNat + k.payload.length ≤ stop) (next : rcvNxt.toNat ≤ stop) :
    rcvNxt.toNat ≤ (consumeLoop rcvNxt queue).1.toNat ∧ (consumeLoop rcvNxt queue).1.toNat ≤ stop ∧
      ∀ k ∈ (consumeLoop rcvNxt queue).2.2, k.seq.toNat + k.payload.length ≤ stop := by
  obtain ⟨grows, within⟩ := @consumeLoop_grows (2 ^ 32 - 1 - stop) rcvNxt queue
    (fun k member => by have := early k member; omega) (by omega)
  refine ⟨grows, by omega, fun k member => early k ?_⟩
  rw [← consumeLoop_split rcvNxt queue]
  exact List.mem_append_right _ member

/- Text up to the end of the stream does not lead beyond it. -/
theorem takeText_upTo {r : Receipt} (room : stop < 2 ^ 32) (next : r.rcvNxt.toNat ≤ stop)
    (early : ∀ k ∈ r.ofoQueue, k.seq.toNat + k.payload.length ≤ stop)
    (fits : skb.seq.toNat + skb.payload.length ≤ stop) :
    (takeText r skb).rcvNxt.toNat ≤ stop ∧
      ∀ k ∈ (takeText r skb).ofoQueue, k.seq.toNat + k.payload.length ≤ stop := by
  unfold takeText
  split
  · exact ⟨next, early⟩
  · split
    · rename_i hit
      rw [hit] at fits
      have after := @dlen_next r.rcvNxt skb (by omega)
      have consumed := @consumeLoop_upTo stop (r.rcvNxt + skb.dlen) r.ofoQueue room early (by omega)
      exact consumed.2
    · refine ⟨next, fun k member => ?_⟩
      rcases tcpDataInsertOrdered_mem member with ⟨seq, payload⟩ | old
      · rw [seq, payload]
        exact fits
      · exact early k old

/- In sequence the last text leads to the end of the stream. -/
theorem takeText_end {r : Receipt} (wide : r.rcvWnd ≠ 0) (room : stop < 2 ^ 32)
    (early : ∀ k ∈ r.ofoQueue, k.seq.toNat + k.payload.length ≤ stop) (hit : skb.seq = r.rcvNxt)
    (ends : skb.seq.toNat + skb.payload.length = stop) : (takeText r skb).rcvNxt.toNat = stop := by
  have after : (r.rcvNxt + skb.dlen).toNat = stop := by
    rw [dlen_next (by rw [← hit]; omega), ← hit]
    exact ends
  obtain ⟨grows, within, -⟩ := @consumeLoop_upTo stop (r.rcvNxt + skb.dlen) r.ofoQueue room early
    (Nat.le_of_eq after)
  unfold takeText
  rw [if_neg wide, if_pos hit]
  dsimp only
  omega

theorem tcpInputState_afterFin (opened : s.tsk.state = .established) (through : LetThrough s th)
    (verified : tcpVerifySegment s.tsk th skb = true) : (tcpInputState s th skb).tsk.state =
      if th.fin = true ∧ skb.seq = s.tsk.tcb.rcvNxt then .closeWait else .established := by
  have same := inputNewAck_receipt s th
  have state : (inputNewAck s th).1.tsk.state = .established := (inputNewAck_stays s th).state.trans opened
  have kept : inputFinAcked (inputNewAck s th).1 th = (inputNewAck s th).1 := by
    unfold inputFinAcked
    rw [state]
    split
    · rfl
    · rfl
  obtain ⟨moves, -⟩ := inputTail_moves (inputNewAck s th).1 th skb
  rw [tcpInputState_through through verified, kept, moves, state,
    show (inputNewAck s th).1.tsk.tcb.rcvNxt = s.tsk.tcb.rcvNxt from congrArg Receipt.rcvNxt same]
  simp only [TcpState.afterFin, Bool.and_eq_true, decide_eq_true_eq]

/- A segment that is not acceptable leaves the receive side and the state alone. -/
theorem tcpInputState_unverified (sync : s.tsk.state.synchronized = true)
    (rejected : tcpVerifySegment s.tsk th skb = false) : receipt (tcpInputState s th skb) = receipt s ∧
      (tcpInputState s th skb).tsk.state = s.tsk.state := by
  rw [tcpInputState_synchronized sync]
  unfold inputOtherwise
  simp only [rejected, Bool.not_false, if_true]
  have same : Same s (freeSkb (if th.rst then s else tcpSendAck s) skb) := by
    refine Same.trans ?_ (freeSkb_minor _ skb).same
    split
    · exact .refl s
    · exact (tcpSendAck_minor s).same
  exact ⟨same.receipt, same.state⟩

theorem takeText_rcvWnd (r : Receipt) : (takeText r skb).rcvWnd = r.rcvWnd := by
  unfold takeText
  split
  · rfl
  · split
    · rfl
    · rfl

theorem takeSegment_rcvWnd (r : Receipt) : (takeSegment r th skb).rcvWnd = r.rcvWnd := by
  have text := @takeText_rcvWnd skb r
  unfold takeSegment takeFin
  dsimp only
  split
  · split
    · exact text
    · rfl
  · split
    · exact text
    · rfl

/- With its FIN in sequence the last segment takes `rcv_nxt` past the end of the stream. -/
theorem takeSegment_end {r : Receipt} (wide : r.rcvWnd ≠ 0) (room : stop + 1 < 2 ^ 32)
    (early : ∀ k ∈ r.ofoQueue, k.seq.toNat + k.payload.length ≤ stop)
    (ends : skb.seq.toNat + skb.payload.length = stop) (fin : th.fin = true ∧ skb.seq = r.rcvNxt) :
    (takeSegment r th skb).rcvNxt.toNat = stop + 1 := by
  have text : (if th.psh ∨ 0 < skb.dlen then takeText r skb else r).rcvNxt.toNat = stop := by
    split
    · exact takeText_end wide (by omega) early fin.2 ends
    · rename_i nothing
      have small := dlen_toNat skb (by omega)
      have bare : ¬0 < skb.dlen.toNat := fun some => nothing (.inr (UInt32.lt_iff_toNat_lt.mpr some))
      rw [← fin.2]
      omega
  unfold takeSegment takeFin
  dsimp only
  rw [if_pos fin, UInt32.toNat_add, text, UInt32.toNat_one, Nat.mod_eq_of_lt room]

theorem takeSegment_other {r : Receipt} (other : ¬(th.fin = true ∧ skb.seq = r.rcvNxt)) :
    takeSegment r th skb = if th.psh ∨ 0 < skb.dlen then takeText r skb else r := by
  unfold takeSegment
  dsimp only
  rw [if_neg other]

/- The segment before the FIN is noticed. -/
theorem tcpInputState_stillOpen (still : StillOpen stop s) (through : LetThrough s th)
    (wide : s.tsk.tcb.rcvWnd ≠ 0) (room : stop + 1 + s.tsk.tcb.rcvWnd.toNat < 2 ^ 32)
    (fits : skb.seq.toNat + skb.payload.length ≤ stop) (arrived : skb.seq = th.seq)
    (last : th.fin = true → skb.seq.toNat + skb.payload.length = stop) :
    (if th.fin = true ∧ skb.seq = s.tsk.tcb.rcvNxt then AllReceived stop (tcpInputState s th skb)
      else StillOpen stop (tcpInputState s th skb)) ∧
      (tcpInputState s th skb).tsk.tcb.rcvWnd = s.tsk.tcb.rcvWnd := by
  have next := still.next
  cases verified : tcpVerifySegment s.tsk th skb with
  | false =>
    obtain ⟨same, state⟩ := @tcpInputState_unverified s th skb (by rw [still.state]; rfl) verified
    have out : ¬(th.fin = true ∧ skb.seq = s.tsk.tcb.rcvNxt) := by
      rintro ⟨-, hit⟩
      have taken := (@tcpVerifySegment_iff th skb s.tsk (by omega)).mpr
        ⟨.inr (fun zero => wide (UInt32.toNat_inj.mp zero)), by rw [← arrived, hit],
          by rw [← arrived, hit]; exact Nat.le_add_right _ _⟩
      rw [taken] at verified
      cases verified
    rw [if_neg out]
    refine ⟨⟨state.trans still.state, ?_, ?_⟩, congrArg Receipt.rcvWnd same⟩
    · rw [show (tcpInputState s th skb).tsk.tcb.rcvNxt = s.tsk.tcb.rcvNxt from congrArg Receipt.rcvNxt same]
      exact next
    · rw [show (tcpInputState s th skb).tsk.ofoQueue = s.tsk.ofoQueue from congrArg Receipt.ofoQueue same]
      exact still.early
  | true =>
    have taken := tcpInputState_receipt through verified
    have state := tcpInputState_afterFin still.state through verified
    obtain ⟨below, early⟩ := @takeText_upTo skb stop (receipt s) (by omega) next still.early fits
    refine ⟨?_, (congrArg Receipt.rcvWnd taken).trans (takeSegment_rcvWnd (receipt s))⟩
    split
    · rename_i fin
      rw [if_pos fin] at state
      refine ⟨state, ?_⟩
      have ends := @takeSegment_end th skb stop (receipt s) wide (by omega) still.early (last fin.1) fin
      rw [← taken] at ends
      exact ends
    · rename_i other
      rw [if_neg other] at state
      rw [takeSegment_other other] at taken
      have kept : (receipt (tcpInputState s th skb)).rcvNxt.toNat ≤ stop ∧
          ∀ k ∈ (receipt (tcpInputState s th skb)).ofoQueue, k.seq.toNat + k.payload.length ≤ stop := by
        rw [taken]
        split
        · exact ⟨below, early⟩
        · exact ⟨next, still.early⟩
      exact ⟨state, kept.1, kept.2⟩

/- Once the FIN has been counted nothing of the stream is acceptable any more. -/
theorem tcpInputState_allReceived (all : AllReceived stop s) (fits : th.seq.toNat ≤ stop) :
    AllReceived stop (tcpInputState s th skb) := by
  obtain ⟨state, next⟩ := all
  have rejected : tcpVerifySegment s.tsk th skb = false := by
    by_contra verified
    have lower := (tcpVerifySegment_lower (Bool.not_eq_false _ ▸ verified)).1
    omega
  obtain ⟨same, kept⟩ := @tcpInputState_unverified s th skb (by rw [state]; rfl) rejected
  have rcvNxt : (tcpInputState s th skb).tsk.tcb.rcvNxt = s.tsk.tcb.rcvNxt := congrArg Receipt.rcvNxt same
  exact ⟨kept.trans state, by rw [rcvNxt]; exact next⟩

/- One arrival. -/
theorem arrive_step {arrival : Nat × TcpHdr} {r : Unit}
    (room : base.toNat + pieces.flatten.length + 1 + s.tsk.tcb.rcvWnd.toNat < 2 ^ 32)
    (wide : s.tsk.tcb.rcvWnd ≠ 0) (still : StillOpen (base.toNat + pieces.flatten.length) s)
    (peer : FromPeer base pieces s arrival) (taken : arrive pieces s arrival = some (t, r)) :
    ((FinInSequence s arrival ∧ AllReceived (base.toNat + pieces.flatten.length) t) ∨
      (¬FinInSequence s arrival ∧ StillOpen (base.toNat + pieces.flatten.length) t)) ∧
      t.tsk.tcb.rcvWnd = s.tsk.tcb.rcvWnd := by
  obtain ⟨i, th⟩ := arrival
  obtain ⟨payload, found, eq⟩ := Option.map_eq_some_iff.mp taken
  obtain ⟨rfl, -⟩ := Prod.mk.inj eq
  have place : th.seq.toNat = pieceSeq base pieces i := peer.place
  have next : pieceSeq base pieces (i + 1) = pieceSeq base pieces i + payload.length :=
    pieceSeq_succ base found
  have bound := pieceSeq_le base pieces (i + 1)
  have through : LetThrough s th := ⟨by rw [still.state]; rfl, peer.rst, peer.syn, peer.ack,
    by rw [peer.newest]; exact UInt32.le_refl _, by rw [peer.newest]; exact peer.sent⟩
  have last : th.fin = true →
      th.seq.toNat + payload.length = base.toNat + pieces.flatten.length := by
    intro fin
    rw [place, ← next, peer.fin.mp fin, pieceSeq, List.take_length]
  set u := socketWrAcquire (tcpInitSegment s th payload).1 with locked
  have same : receipt u = receipt s := rfl
  obtain ⟨step, wnd⟩ := @tcpInputState_stillOpen u th (tcpInitSegment s th payload).2
    (base.toNat + pieces.flatten.length) ⟨still.state, still.next, still.early⟩
    ⟨through.text, through.rst, through.syn, through.ack, through.low, through.high⟩ wide room
    (by rw [show (tcpInitSegment s th payload).2.seq = th.seq from rfl,
          show (tcpInitSegment s th payload).2.payload = payload from rfl]; omega) rfl last
  refine ⟨?_, wnd⟩
  by_cases fin : FinInSequence s (i, th)
  · rw [if_pos (show th.fin = true ∧ (tcpInitSegment s th payload).2.seq = u.tsk.tcb.rcvNxt from fin)]
      at step
    exact .inl ⟨fin, step⟩
  · rw [if_neg (show ¬(th.fin = true ∧ (tcpInitSegment s th payload).2.seq = u.tsk.tcb.rcvNxt) from fin)]
      at step
    exact .inr ⟨fin, step.state, step.next, step.early⟩

theorem arrive_done {arrival : Nat × TcpHdr} {r : Unit}
    (all : AllReceived (base.toNat + pieces.flatten.length) s) (peer : FromPeer base pieces s arrival)
    (taken : arrive pieces s arrival = some (t, r)) :
    AllReceived (base.toNat + pieces.flatten.length) t := by
  obtain ⟨i, th⟩ := arrival
  obtain ⟨payload, found, eq⟩ := Option.map_eq_some_iff.mp taken
  obtain ⟨rfl, -⟩ := Prod.mk.inj eq
  have place : th.seq.toNat = pieceSeq base pieces i := peer.place
  have bound := pieceSeq_le base pieces i
  exact @tcpInputState_allReceived (socketWrAcquire (tcpInitSegment s th payload).1) th
    (tcpInitSegment s th payload).2 _ all (by omega)

/-- Whatever the cutting and the order, the text and the FIN are all counted and the state is CLOSE_WAIT
    exactly when one of the segments with the FIN has arrived in sequence. -/
theorem fin_out_of_order_iff {first : Conn} {trace : List ((Nat × TcpHdr) × Unit)} (opened : Opened first)
    (wide : first.tsk.tcb.rcvWnd ≠ 0) (start : first.tsk.tcb.irs + 1 = base)
    (room : base.toNat + pieces.flatten.length + 1 + first.tsk.tcb.rcvWnd.toNat < 2 ^ 32)
    (run : Run (arrive pieces) (fun _ s a => FromPeer base pieces s a) first trace s) :
    AllReceived (base.toNat + pieces.flatten.length) s ↔
      Occurs (arrive pieces) FinInSequence first trace := by
  have both : (AllReceived (base.toNat + pieces.flatten.length) s ∧
        Occurs (arrive pieces) FinInSequence first trace) ∨
      (¬Occurs (arrive pieces) FinInSequence first trace ∧
        StillOpen (base.toNat + pieces.flatten.length) s ∧ s.tsk.tcb.rcvWnd = first.tsk.tcb.rcvWnd) := by
    induction run with
    | start =>
      refine .inr ⟨id, ⟨opened.state, ?_, ?_⟩, rfl⟩
      · rw [opened.rcvNxt, start]
        exact Nat.le_add_right _ _
      · rw [opened.ofoQueue]
        intro k member
        cases member
    | @next trace u v a r before peer taken ih =>
      rw [before.occurs_snoc taken]
      rcases ih with ⟨all, earlier⟩ | ⟨never, still, wnd⟩
      · exact .inl ⟨arrive_done all peer taken, .inl earlier⟩
      · obtain ⟨⟨fin, all⟩ | ⟨other, still'⟩, wnd'⟩ := arrive_step (by rw [wnd]; exact room)
          (by rw [wnd]; exact wide) still peer taken
        · exact .inl ⟨all, .inr fin⟩
        · exact .inr ⟨not_or.mpr ⟨never, other⟩, still', wnd'.trans wnd⟩
  rcases both with ⟨all, occurs⟩ | ⟨never, still, -⟩
  · exact iff_of_true all occurs
  · refine iff_of_false ?_ never
    rintro ⟨state, -⟩
    exact TcpState.noConfusion (still.state.symm.trans state)

/- In order of their numbers. -/
theorem fin_out_of_order_iff_ordered : ∃ trace s,
    Run (arrive [[1, 2], [3]]) (fun _ s a => FromPeer 5001 [[1, 2], [3]] s a) (openedAt 5000) trace s ∧
    AllReceived 5004 s ∧
    (AllReceived 5004 s ↔ Occurs (arrive [[1, 2], [3]]) FinInSequence (openedAt 5000) trace) := by
  obtain ⟨trace, s, run, all⟩ : ∃ trace s,
      Run (arrive [[1, 2], [3]]) (fun _ s a => FromPeer 5001 [[1, 2], [3]] s a) (openedAt 5000) trace s ∧
      AllReceived 5004 s :=
    Run.exists_of_follow [(0, peerHdr 5001 0), (1, { peerHdr 5003 0 with fin := true })]
      (by decide +kernel)
  exact ⟨trace, s, run, all, @fin_out_of_order_iff 5001 [[1, 2], [3]] s (openedAt 5000) trace
    ⟨rfl, rfl, rfl, rfl, rfl⟩ (by decide +kernel) rfl (by decide +kernel) run⟩

/- The last segment first, the other one next, and the first one once more. -/
theorem fin_out_of_order_forgotten : ∃ trace s,
    Run (arrive [[1, 2], [3]]) (fun _ s a => FromPeer 5001 [[1, 2], [3]] s a) (openedAt 5000) trace s ∧
    trace.map (fun a => a.1.1) = [1, 0, 1] ∧ ¬AllReceived 5004 s ∧ s.tsk.state = .established ∧
    s.tsk.tcb.rcvNxt = 5004 :=
  Run.exists_of_trace [(1, { peerHdr 5003 0 with fin := true }), (0, peerHdr 5001 0),
      (1, { peerHdr 5003 0 with fin := true })]
    (P := fun trace s => trace.map (fun a => a.1.1) = [1, 0, 1] ∧ ¬AllReceived 5004 s ∧
      s.tsk.state = .established ∧ s.tsk.tcb.rcvNxt = 5004) (by decide +kernel)

/-! ### In terms of the order of arrival -/

section Order

open Reassembly

variable {text before : List (List UInt8)} {n : Nat} {later : List Nat}

/- The pieces that have arrived, in the order of their arrival. -/
def indices (trace : List ((Nat × TcpHdr) × Unit)) : List Nat := trace.map fun a => a.1.1

/- Every piece before the last has come, and the last has not if it bears text. -/
def Prepared (text pieces : List (List UInt8)) (come : List Nat) : Prop :=
  (∀ i, i + 1 < pieces.length → i ∈ come) ∧ (pieces.length ≤ text.length → pieces.length - 1 ∉ come)

/-- Some copy of the last piece comes when every piece before it has, the first copy if it bears text. -/
def LastInTurn (text pieces : List (List UInt8)) (come : List Nat) : Prop :=
  ∃ front back, come = front ++ (pieces.length - 1) :: back ∧ Prepared text pieces front

/- The pieces with text are not empty; the FIN comes with the last of them or alone. -/
def Cut (text pieces : List (List UInt8)) : Prop :=
  (∀ p ∈ text, p ≠ []) ∧ (pieces = text ∧ text ≠ [] ∨ pieces = text ++ [[]])

/- The segment is within the window on its upper side, and without PSH if it bears no text. -/
structure InWindow (s : Conn) (text : List (List UInt8)) (arrival : Nat × TcpHdr) : Prop where
  upper : arrival.2.seq.toNat ≤ s.tsk.tcb.rcvNxt.toNat + s.tsk.tcb.rcvWnd.toNat
  bare : text.length ≤ arrival.1 → arrival.2.psh = false

theorem lastInTurn_snoc {come : List Nat} (i : Nat) : LastInTurn text pieces (come ++ [i]) ↔
    LastInTurn text pieces come ∨ (i = pieces.length - 1 ∧ Prepared text pieces come) := by
  constructor
  · rintro ⟨front, back, eq, prepared⟩
    rcases List.eq_nil_or_concat back with rfl | ⟨back, j, rfl⟩
    · obtain ⟨rfl, last⟩ := List.append_inj' eq rfl
      exact .inr ⟨by simpa using last, prepared⟩
    · rw [List.concat_eq_append, ← List.cons_append, ← List.append_assoc] at eq
      obtain ⟨rfl, -⟩ := List.append_inj' eq rfl
      exact .inl ⟨front, back, rfl, prepared⟩
  · rintro (⟨front, back, rfl, prepared⟩ | ⟨rfl, prepared⟩)
    · exact ⟨front, back ++ [i], by simp, prepared⟩
    · exact ⟨come, [], rfl, prepared⟩

theorem Reassembled.of_receipt (h : Reassembled base text before n later s)
    (same : receipt t = receipt s) : Reassembled base text before n later t := by
  have rcvNxt : t.tsk.tcb.rcvNxt = s.tsk.tcb.rcvNxt := congrArg Receipt.rcvNxt same
  have receiveQueue : t.tsk.receiveQueue = s.tsk.receiveQueue := congrArg Receipt.receiveQueue same
  have ofoQueue : t.tsk.ofoQueue = s.tsk.ofoQueue := congrArg Receipt.ofoQueue same
  refine ⟨h.bound, ?_, ?_, ?_⟩
  · rw [rcvNxt]; exact h.next
  · rw [receiveQueue]; exact h.received
  · rw [ofoQueue]; exact h.early

/- Which pieces with text have come. -/
def Seen (text : List (List UInt8)) (come : List Nat) (i : Nat) : Prop := i < text.length ∧ i ∈ come

theorem Cut.take (cut : Cut text pieces) {i : Nat} (le : i ≤ text.length) :
    pieceSeq base pieces i = pieceSeq base text i := by
  rcases cut.2 with ⟨rfl, -⟩ | rfl
  · rfl
  · unfold pieceSeq
    rw [List.take_append_of_le_length le]

theorem Cut.length (cut : Cut text pieces) :
    pieces.length - 1 ≤ text.length ∧ text.length ≤ pieces.length ∧ 0 < pieces.length := by
  rcases cut.2 with ⟨rfl, some⟩ | rfl
  · have := List.length_pos_iff.mpr some
    omega
  · rw [List.length_append, List.length_singleton]
    omega

/- The least missing piece is the last one. -/
theorem Cut.prepared_iff (cut : Cut text pieces) {come : List Nat} (order : Holds (Seen text come) n later)
    (bound : n ≤ text.length) : n = pieces.length - 1 ↔ Prepared text pieces come := by
  obtain ⟨low, high, some⟩ := cut.length
  constructor
  · rintro rfl
    refine ⟨fun i lt => (order.below i (by omega)).2, fun short came => ?_⟩
    exact order.missing ⟨by omega, came⟩
  · rintro ⟨before, last⟩
    by_contra other
    rcases Nat.lt_or_gt_of_ne other with lt | gt
    · exact order.missing ⟨by omega, before n (by omega)⟩
    · have below := order.below (pieces.length - 1) gt
      exact last (by omega) below.2

theorem Cut.inSequence_iff (cut : Cut text pieces) {i : Nat} (peer : FromPeer base pieces s (i, th))
    (queues : Reassembled base text before n later s) :
    FinInSequence s (i, th) ↔ i = pieces.length - 1 ∧ n = pieces.length - 1 := by
  obtain ⟨low, high, some⟩ := cut.length
  have place : th.seq.toNat = pieceSeq base pieces i := peer.place
  have next := queues.next
  have fin : th.fin = true ↔ i + 1 = pieces.length := peer.fin
  unfold FinInSequence
  rw [← UInt32.toNat_inj, place, next, fin]
  constructor
  · rintro ⟨last, same⟩
    obtain rfl : i = pieces.length - 1 := by omega
    refine ⟨rfl, ?_⟩
    rw [cut.take low] at same
    by_contra other
    rcases Nat.lt_or_gt_of_ne other with lt | gt
    · have := pieceSeq_lt cut.1 base (show n < text.length by omega) lt
      omega
    · have bound := queues.bound
      have := pieceSeq_lt cut.1 base (show pieces.length - 1 < text.length by omega) gt
      omega
  · rintro ⟨rfl, rfl⟩
    exact ⟨by omega, cut.take low⟩

theorem seen_snoc {come : List Nat} {i : Nat} (j : Nat) (inside : i < text.length) :
    Seen text (come ++ [i]) j ↔ j = i ∨ Seen text come j := by
  unfold Seen
  rw [List.mem_append, List.mem_singleton]
  constructor
  · rintro ⟨bound, came | rfl⟩
    · exact .inr ⟨bound, came⟩
    · exact .inl rfl
  · rintro (rfl | ⟨bound, came⟩)
    · exact ⟨inside, .inr rfl⟩
    · exact ⟨bound, .inl came⟩

/- A piece that has been seen, or is none, changes nothing. -/
theorem seen_again {come : List Nat} {i : Nat} (j : Nat) (again : i < text.length → Seen text come i) :
    Seen text (come ++ [i]) j ↔ Seen text come j := by
  unfold Seen
  rw [List.mem_append, List.mem_singleton]
  constructor
  · rintro ⟨bound, came | rfl⟩
    · exact ⟨bound, came⟩
    · exact again bound
  · rintro ⟨bound, came⟩
    exact ⟨bound, .inl came⟩

/- One arrival before the FIN is noticed. -/
theorem arrive_reassembled {come : List Nat} {i : Nat} {r : Unit} (cut : Cut text pieces)
    (room : base.toNat + text.flatten.length + s.tsk.tcb.rcvWnd.toNat < 2 ^ 32)
    (wide : s.tsk.tcb.rcvWnd ≠ 0) (opened : s.tsk.state = .established)
    (order : Holds (Seen text come) n later) (queues : Reassembled base text before n later s)
    (peer : FromPeer base pieces s (i, th)) (inside : InWindow s text (i, th))
    (other : ¬FinInSequence s (i, th)) (taken : arrive pieces s (i, th) = some (t, r)) :
    ∃ n later, Holds (Seen text (come ++ [i])) n later ∧ Reassembled base text before n later t := by
  obtain ⟨payload, found, eq⟩ := Option.map_eq_some_iff.mp taken
  obtain ⟨rfl, -⟩ := Prod.mk.inj eq
  have place : th.seq.toNat = pieceSeq base pieces i := peer.place
  have next := queues.next
  have bound := pieceSeq_le base text n
  have through : LetThrough s th := ⟨by rw [opened]; rfl, peer.rst, peer.syn, peer.ack,
    by rw [peer.newest]; exact UInt32.le_refl _, by rw [peer.newest]; exact peer.sent⟩
  set u := socketWrAcquire (tcpInitSegment s th payload).1 with locked
  set skb := (tcpInitSegment s th payload).2 with segment
  have start : Reassembled base text before n later u := queues.of_receipt rfl
  have through : LetThrough u th :=
    ⟨through.text, through.rst, through.syn, through.ack, through.low, through.high⟩
  have ignored : receipt (tcpInputState u th skb) = receipt s → (i < text.length → Seen text come i) →
      ∃ n later, Holds (Seen text (come ++ [i])) n later ∧
        Reassembled base text before n later (tcpIn s th payload) := by
    intro same again
    exact ⟨n, later, order.congr fun j => seen_again j again, queues.of_receipt same⟩
  cases verified : tcpVerifySegment u.tsk th skb with
  | false =>
    have same := (@tcpInputState_unverified u th skb (by rw [show u.tsk.state = .established from opened]; rfl)
      verified).1
    refine ignored same fun textual => order.below i ?_
    by_contra later
    have upper : th.seq.toNat ≤ s.tsk.tcb.rcvNxt.toNat + s.tsk.tcb.rcvWnd.toNat := inside.upper
    have lower := pieceSeq_mono base text (Nat.not_lt.mp later)
    rw [cut.take (Nat.le_of_lt textual)] at place
    have good := (@tcpVerifySegment_iff th skb s.tsk (by omega)).mpr
      ⟨.inr fun zero => wide (UInt32.toNat_inj.mp zero), by omega, upper⟩
    exact Bool.noConfusion (verified.symm.trans good)
  | true =>
    have result := tcpInputState_receipt through verified
    rw [takeSegment_other (show ¬(th.fin = true ∧ skb.seq = (receipt u).rcvNxt) from other)] at result
    by_cases textual : i < text.length
    · have found' : text[i]? = some payload := by
        rcases cut.2 with ⟨rfl, -⟩ | rfl
        · exact found
        · rw [← List.getElem?_append_left textual]
          exact found
      have piece : IsPiece base text skb i := ⟨place.trans (cut.take (Nat.le_of_lt textual)), rfl, found'⟩
      have full : 0 < skb.dlen := by
        rw [UInt32.lt_iff_toNat_lt, (piece.end_eq (by omega)).2]
        exact List.length_pos_iff.mpr (cut.1 _ (List.mem_of_getElem? found'))
      rw [if_pos (.inr full), ← (tcpDataQueue_receipt u skb).1] at result
      have reached : n ≤ i := by
        by_contra lt
        have := pieceSeq_lt cut.1 base textual (Nat.not_le.mp lt)
        have lower := (tcpVerifySegment_lower verified).1
        rw [start.next, place, cut.take (Nat.le_of_lt textual)] at lower
        omega
      have come' := fun j => @seen_snoc text come i j textual
      rcases Nat.eq_or_lt_of_le reached with rfl | beyond
      · exact ⟨_, _, order.arrives.congr come',
          (tcpDataQueue_missing cut.1 (by omega) start piece wide).of_receipt result⟩
      · exact ⟨_, _, (order.early beyond).congr come',
          (tcpDataQueue_early cut.1 (by omega) start order.ordered piece beyond wide).of_receipt result⟩
    · have empty : payload = [] := by
        have short := (List.getElem?_eq_some_iff.mp found).1
        rcases cut.2 with ⟨rfl, -⟩ | rfl
        · exact absurd short textual
        · rw [List.length_append, List.length_singleton] at short
          obtain rfl : i = text.length := by omega
          simpa using found.symm
      have bare : ¬(th.psh = true ∨ 0 < skb.dlen) := by
        rw [inside.bare (Nat.not_lt.mp textual), segment, empty]
        show ¬(false = true ∨ 0 < UInt32.ofNat 0)
        decide
      rw [if_neg bare] at result
      exact ignored result fun inside => absurd inside textual

/-- When the pieces have text (but for a FIN that comes alone), the FIN is noticed exactly when some copy
    of the last segment comes after all the others, and if it bears text no copy of it came before that. -/
theorem fin_in_turn_iff {first : Conn} {trace : List ((Nat × TcpHdr) × Unit)} (cut : Cut text pieces)
    (opened : Opened first) (wide : first.tsk.tcb.rcvWnd ≠ 0) (start : first.tsk.tcb.irs + 1 = base)
    (room : base.toNat + pieces.flatten.length + 1 + first.tsk.tcb.rcvWnd.toNat < 2 ^ 32)
    (run : Run (arrive pieces) (fun _ s a => FromPeer base pieces s a ∧ InWindow s text a)
      first trace s) :
    Occurs (arrive pieces) FinInSequence first trace ↔ LastInTurn text pieces (indices trace) := by
  have flat : text.flatten.length = pieces.flatten.length := by
    rcases cut.2 with ⟨rfl, -⟩ | rfl
    · rfl
    · simp
  have both : (Occurs (arrive pieces) FinInSequence first trace ∧
        LastInTurn text pieces (indices trace)) ∨
      (¬Occurs (arrive pieces) FinInSequence first trace ∧
        ¬LastInTurn text pieces (indices trace) ∧
        StillOpen (base.toNat + pieces.flatten.length) s ∧ s.tsk.tcb.rcvWnd = first.tsk.tcb.rcvWnd ∧
        ∃ n later, Holds (Seen text (indices trace)) n later ∧
          Reassembled base text (first.tsk.receiveQueue.map SkBuff.payload) n later s) := by
    induction run with
    | start =>
      refine .inr ⟨id, ?_, ⟨opened.state, ?_, ?_⟩, rfl, 0, [], ?_, Nat.zero_le _, ?_, by simp, ?_⟩
      · rintro ⟨front, back, eq, -⟩
        simp [indices] at eq
      · rw [opened.rcvNxt, start]
        exact Nat.le_add_right _ _
      · rw [opened.ofoQueue]
        intro k member
        cases member
      · exact Holds.nothing.congr fun i => by simp [Seen, indices]
      · rw [opened.rcvNxt, start]
        simp [pieceSeq]
      · rw [opened.ofoQueue]
        exact .nil
    | @next trace u v a r before ok taken ih =>
      obtain ⟨i, th⟩ := a
      obtain ⟨peer, inside⟩ := ok
      have grown : indices (trace ++ [((i, th), r)]) = indices trace ++ [i] := by simp [indices]
      rw [before.occurs_snoc taken, grown, lastInTurn_snoc]
      rcases ih with ⟨earlier, turn⟩ | ⟨never, not_yet, still, wnd, n, later, order, queues⟩
      · exact .inl ⟨.inl earlier, .inl turn⟩
      · have here := cut.inSequence_iff peer queues
        rw [cut.prepared_iff order queues.bound] at here
        obtain ⟨⟨fin, all⟩ | ⟨other, still'⟩, wnd'⟩ := arrive_step (by rw [wnd]; exact room)
          (by rw [wnd]; exact wide) still peer taken
        · exact .inl ⟨.inr fin, .inr (here.mp fin)⟩
        · have placed := arrive_reassembled cut (by rw [wnd, flat]; omega) (by rw [wnd]; exact wide)
            still.state order queues peer inside other taken
          exact .inr ⟨not_or.mpr ⟨never, other⟩, not_or.mpr ⟨not_yet, fun h => other (here.mpr h)⟩,
            still', wnd'.trans wnd, placed⟩
  rcases both with ⟨occurs, turn⟩ | ⟨never, not_yet, -⟩
  · exact iff_of_true occurs turn
  · exact iff_of_false never not_yet

end Order

end HfIp
