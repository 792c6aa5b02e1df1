import HfIp.ReceiverIntegrity
import HfIp.Lib.Reassembly

/- Reassembly of a stream cut into pieces, whatever the order of arrival: the queue of text that
   came out of order holds the pieces that are numbered beyond the first missing one. -/
namespace HfIp

open Transition Reassembly

/- The number of the first byte of piece `i`. -/
def pieceSeq (base : UInt32) (pieces : List (List UInt8)) (i : Nat) : Nat :=
  base.toNat + ((pieces.take i).flatten).length

/-- Piece `i` arrives in a segment with header `th` and is queued when it passes
    `tcp_verify_segment`. The reply says whether it did. -/
def feed (pieces : List (List UInt8)) (s : Conn) (arrival : Nat × TcpHdr) : Option (Conn × Bool) :=
  pieces[arrival.1]?.map fun payload =>
    let seg := tcpInitSegment s arrival.2 payload
    if tcpVerifySegment seg.1.tsk arrival.2 seg.2 then ((tcpDataQueue seg.1 seg.2).1, true)
    else (freeSkb seg.1 seg.2, false)

/- A segment bears the number of its piece. -/
def InPlace (base : UInt32) (pieces : List (List UInt8)) (arrival : Nat × TcpHdr) : Prop :=
  arrival.2.seq.toNat = pieceSeq base pieces arrival.1

instance (base : UInt32) (pieces : List (List UInt8)) (arrival : Nat × TcpHdr) :
    Decidable (InPlace base pieces arrival) := inferInstanceAs (Decidable (_ = _))

def Accepted (trace : List ((Nat × TcpHdr) × Bool)) (i : Nat) : Prop :=
  ∃ th, ((i, th), true) ∈ trace

/- A buffer that holds piece `i`. -/
structure IsPiece (base : UInt32) (pieces : List (List UInt8)) (k : SkBuff) (i : Nat) : Prop where
  seq : k.seq.toNat = pieceSeq base pieces i
  endSeq : k.endSeq = k.seq + k.dlen
  text : pieces[i]? = some k.payload

variable {base : UInt32} {pieces : List (List UInt8)} {i j : Nat} {k : SkBuff}

theorem pieceSeq_succ (base : UInt32) {p : List UInt8} (here : pieces[i]? = some p) :
    pieceSeq base pieces (i + 1) = pieceSeq base pieces i + p.length := by
  unfold pieceSeq
  rw [List.take_add_one, here]
  simp only [Option.toList_some, List.flatten_append, List.flatten_singleton, List.length_append]
  omega

theorem pieceSeq_mono (base : UInt32) (pieces : List (List UInt8)) (le : i ≤ j) : pieceSeq base pieces i ≤ pieceSeq base pieces j := by
  unfold pieceSeq
  have front : pieces.take i = (pieces.take j).take i := by
    rw [List.take_take, Nat.min_eq_left le]
  have parts : ((pieces.take j).take i).flatten.length +
      ((pieces.take j).drop i).flatten.length = (pieces.take j).flatten.length := by
    rw [← List.length_append, ← List.flatten_append, List.take_append_drop]
  rw [front]
  omega

theorem pieceSeq_le (base : UInt32) (pieces : List (List UInt8)) (i : Nat) :
    pieceSeq base pieces i ≤ base.toNat + pieces.flatten.length := by
  have last := pieceSeq_mono base pieces (Nat.le_max_left i pieces.length)
  unfold pieceSeq at last ⊢
  rwa [List.take_of_length_le (Nat.le_max_right i pieces.length)] at last

theorem pieceSeq_lt (nonempty : ∀ p ∈ pieces, p ≠ []) (base : UInt32) (bound : i < pieces.length)
    (lt : i < j) : pieceSeq base pieces i < pieceSeq base pieces j := by
  have next := pieceSeq_succ base (List.getElem?_eq_getElem bound)
  have some := List.length_pos_iff.mpr (nonempty _ (List.getElem_mem bound))
  have := pieceSeq_mono base pieces (Nat.succ_le_of_lt lt)
  simp only [Nat.succ_eq_add_one] at this
  omega

section Pieces

variable (nonempty : ∀ p ∈ pieces, p ≠ []) (room : base.toNat + pieces.flatten.length < 2 ^ 32)

namespace IsPiece

theorem bound (h : IsPiece base pieces k i) : i < pieces.length :=
  (List.getElem?_eq_some_iff.mp h.text).1

include room in
theorem end_eq (h : IsPiece base pieces k i) :
    (k.seq + k.dlen).toNat = pieceSeq base pieces (i + 1) ∧ k.dlen.toNat = k.payload.length := by
  have next := pieceSeq_succ base h.text
  have last := pieceSeq_le base pieces (i + 1)
  have small : k.dlen.toNat = k.payload.length := by
    rw [SkBuff.dlen, UInt32.toNat_ofNat', Nat.mod_eq_of_lt (by omega)]
  refine ⟨?_, small⟩
  rw [UInt32.toNat_add, small, h.seq, Nat.mod_eq_of_lt (by omega), next]

include nonempty in
theorem lt_iff {m : SkBuff} (hk : IsPiece base pieces k i) (hm : IsPiece base pieces m j) :
    k.seq < m.seq ↔ i < j := by
  rw [UInt32.lt_iff_toNat_lt, hk.seq, hm.seq]
  constructor
  · intro lt
    by_contra ge
    have := pieceSeq_mono base pieces (Nat.not_lt.mp ge)
    omega
  · exact pieceSeq_lt nonempty base hk.bound

include nonempty in
theorem eq_iff {n : Nat} {x : UInt32} (at_n : x.toNat = pieceSeq base pieces n)
    (bound : n ≤ pieces.length) (hk : IsPiece base pieces k i) : x = k.seq ↔ i = n := by
  rw [← UInt32.toNat_inj, hk.seq, at_n]
  constructor
  · intro same
    rcases Nat.lt_trichotomy i n with lt | eq | gt
    · have := pieceSeq_lt nonempty base hk.bound lt
      omega
    · exact eq
    · have inside := hk.bound
      have := pieceSeq_lt nonempty base (show n < pieces.length by omega) gt
      omega
  · rintro rfl
    rfl

include room in
theorem disjoint {m : SkBuff} (hk : IsPiece base pieces k i) (hm : IsPiece base pieces m j)
    (lt : i < j) : ¬k.endSeq > m.seq := by
  rw [gt_iff_lt, UInt32.lt_iff_toNat_lt, hk.endSeq, (hk.end_eq room).1, hm.seq]
  have := pieceSeq_mono base pieces (Nat.succ_le_of_lt lt)
  simp only [Nat.succ_eq_add_one] at this
  omega

end IsPiece

/- Insertion by sequence number is insertion by the number of the piece. -/
include nonempty room in
theorem insertOrdered_piece {queue : List SkBuff} {later : List Nat}
    (same : List.Forall₂ (IsPiece base pieces) queue later) (ordered : later.Pairwise (· < ·))
    (new : IsPiece base pieces k i) :
    if i ∈ later then insertOrdered k queue = none
    else ∃ queue', insertOrdered k queue = some queue' ∧
      List.Forall₂ (IsPiece base pieces) queue' (later.orderedInsert (· ≤ ·) i) := by
  induction same with
  | nil => exact ⟨_, rfl, .cons new .nil⟩
  | @cons m j rest later here others ih =>
    obtain ⟨first, tail⟩ := List.pairwise_cons.mp ordered
    have below := new.lt_iff nonempty here
    have equal := here.eq_iff nonempty new.seq (Nat.le_of_lt new.bound)
    rw [insertOrdered, List.orderedInsert_cons]
    rcases Nat.lt_trichotomy i j with lt | rfl | gt
    · have absent : i ∉ j :: later := by
        intro member
        rcases List.mem_cons.mp member with rfl | member
        · omega
        · have := first i member
          omega
      rw [if_neg absent, if_pos (below.mpr lt), if_neg (new.disjoint room here lt),
        if_pos (Nat.le_of_lt lt)]
      exact ⟨_, rfl, .cons new (.cons here others)⟩
    · rw [if_pos (by simp), if_neg (by simp [below]), if_pos (equal.mpr rfl)]
    · have shifted : i ∈ j :: later ↔ i ∈ later := by
        rw [List.mem_cons]
        exact ⟨fun h => h.resolve_left (by omega), .inr⟩
      have split := ih tail
      rw [if_neg (show ¬k.seq < m.seq by rw [below]; omega),
        if_neg (show ¬k.seq = m.seq by rw [equal]; omega), if_neg (show ¬i ≤ j by omega)]
      by_cases member : i ∈ later
      · rw [if_pos member] at split
        rw [if_pos (shifted.mpr member), split]
        rfl
      · rw [if_neg member] at split
        obtain ⟨queue', inserted, same⟩ := split
        rw [if_neg (fun h => member (shifted.mp h)), inserted]
        exact ⟨_, rfl, .cons here same⟩

/- The consume loop takes the pieces that continue from `rcv_nxt`. -/
include nonempty room in
theorem consumeLoop_piece {rcvNxt : UInt32} {queue : List SkBuff} {later : List Nat} {n : Nat}
    (bound : n ≤ pieces.length) (same : List.Forall₂ (IsPiece base pieces) queue later)
    (next : rcvNxt.toNat = pieceSeq base pieces n) :
    (drain n later).1 ≤ pieces.length ∧
      (consumeLoop rcvNxt queue).1.toNat = pieceSeq base pieces (drain n later).1 ∧
      pieces.take n ++ (consumeLoop rcvNxt queue).2.1.map SkBuff.payload =
        pieces.take (drain n later).1 ∧
      List.Forall₂ (IsPiece base pieces) (consumeLoop rcvNxt queue).2.2 (drain n later).2 := by
  induction same generalizing n rcvNxt with
  | nil => exact ⟨bound, next, by simp [consumeLoop, drain], .nil⟩
  | @cons m j rest later here others ih =>
    have hit := here.eq_iff nonempty next bound
    rw [consumeLoop, drain]
    by_cases same : j = n
    · subst same
      have stop : (rcvNxt + m.dlen).toNat = pieceSeq base pieces (j + 1) := by
        rw [hit.mpr rfl]
        exact (here.end_eq room).1
      obtain ⟨bound', next', text, rest'⟩ := ih here.bound stop
      rw [if_pos (hit.mpr rfl), if_pos rfl]
      refine ⟨bound', next', ?_, rest'⟩
      rw [← text, List.take_add_one, here.text]
      simp
    · rw [if_neg (fun h => same (hit.mp h)), if_neg same]
      exact ⟨bound, next, by simp, .cons here others⟩

/- What the queues hold when the pieces up to `n` have come and those of `later` have come early.
   `before` is the text that was in the receive queue at the start. -/
structure Reassembled (base : UInt32) (pieces before : List (List UInt8)) (n : Nat)
    (later : List Nat) (s : Conn) : Prop where
  bound : n ≤ pieces.length
  next : s.tsk.tcb.rcvNxt.toNat = pieceSeq base pieces n
  received : s.tsk.receiveQueue.map SkBuff.payload = before ++ pieces.take n
  early : List.Forall₂ (IsPiece base pieces) s.tsk.ofoQueue later

variable {before : List (List UInt8)} {n : Nat} {later : List Nat} {s t : Conn}

theorem Reassembled.same (h : Reassembled base pieces before n later s) (eq : Same s t) :
    Reassembled base pieces before n later t := by
  refine ⟨h.bound, ?_, ?_, ?_⟩
  · rw [eq.tcb]; exact h.next
  · rw [eq.receiveQueue]; exact h.received
  · rw [eq.ofoQueue]; exact h.early

/- The piece that was missing: it and everything that continues it go to the receive queue. -/
include nonempty room in
theorem tcpDataQueue_missing (h : Reassembled base pieces before n later s)
    (new : IsPiece base pieces k n) (opened : s.tsk.tcb.rcvWnd ≠ 0) :
    Reassembled base pieces before (drain (n + 1) later).1 (drain (n + 1) later).2
      (tcpDataQueue s k).1 := by
  have here : k.seq = s.tsk.tcb.rcvNxt := by
    rw [← UInt32.toNat_inj, new.seq, h.next]
  have stop : (s.tsk.tcb.rcvNxt + k.dlen).toNat = pieceSeq base pieces (n + 1) := by
    rw [← here]
    exact (new.end_eq room).1
  obtain ⟨bound, next, text, early⟩ := consumeLoop_piece nonempty room new.bound h.early stop
  unfold tcpDataQueue
  rw [if_neg opened, if_pos here]
  refine ⟨bound, next, ?_, early⟩
  simp only [recvNotify, pollReadable, tcpConsumeOfoQueue, skbQueueTail, List.map_append,
    List.map_cons, List.map_nil, SkBuff.dlen]
  simp only [SkBuff.dlen] at text
  rw [h.received, ← text, List.take_add_one, new.text]
  simp

/- A piece beyond the missing one: it is kept once, in its place. -/
include nonempty room in
theorem tcpDataQueue_early (h : Reassembled base pieces before n later s)
    (ordered : later.Pairwise (· < ·)) (new : IsPiece base pieces k i) (lower : n < i)
    (opened : s.tsk.tcb.rcvWnd ≠ 0) :
    Reassembled base pieces before n (insertNew i later) (tcpDataQueue s k).1 := by
  have other : ¬k.seq = s.tsk.tcb.rcvNxt := by
    rw [← UInt32.toNat_inj, new.seq, h.next]
    have := pieceSeq_lt nonempty base (show n < pieces.length from Nat.lt_trans lower new.bound) lower
    omega
  have inserted : List.Forall₂ (IsPiece base pieces)
      (tcpDataInsertOrdered s.tsk.ofoQueue k).1 (insertNew i later) := by
    have split := insertOrdered_piece nonempty room h.early ordered
      (k := { k with refcnt := k.refcnt + 1 }) ⟨new.seq, new.endSeq, new.text⟩
    unfold tcpDataInsertOrdered insertNew
    dsimp only
    by_cases member : i ∈ later
    · rw [if_pos member] at split ⊢
      rw [split]
      exact h.early
    · rw [if_neg member] at split ⊢
      obtain ⟨queue, eq, same⟩ := split
      rw [eq]
      exact same
  unfold tcpDataQueue
  rw [if_neg opened, if_neg other]
  dsimp only
  generalize (tcpDataInsertOrdered s.tsk.ofoQueue k).1 = queue at inserted
  have placed : Reassembled base pieces before n (insertNew i later)
      { s with tsk.ofoQueue := queue } := ⟨h.bound, h.next, h.received, inserted⟩
  refine Reassembled.same ?_ (tcpSendAck_minor _).same
  split
  · exact placed.same (tcpCalculateSacks_minor _).same
  · exact placed

theorem accepted_snoc {trace : List ((Nat × TcpHdr) × Bool)} {th : TcpHdr} (j : Nat) :
    Accepted (trace ++ [((i, th), true)]) j ↔ j = i ∨ Accepted trace j := by
  unfold Accepted
  constructor
  · rintro ⟨h, member⟩
    rcases List.mem_append.mp member with earlier | last
    · exact .inr ⟨h, earlier⟩
    · obtain ⟨rfl, -⟩ := by simpa using last
      exact .inl rfl
  · rintro (rfl | ⟨h, member⟩)
    · exact ⟨th, by simp⟩
    · exact ⟨h, List.mem_append_left _ member⟩

theorem refused_snoc {trace : List ((Nat × TcpHdr) × Bool)} {arrival : Nat × TcpHdr} (j : Nat) :
    Accepted (trace ++ [(arrival, false)]) j ↔ Accepted trace j := by
  unfold Accepted
  simp only [List.mem_append, List.mem_singleton, Prod.mk.injEq, Bool.true_eq_false, and_false,
    or_false]

theorem tcpVerifySegment_window {tsk : TcpSock} {th : TcpHdr} {skb : SkBuff}
    (verified : tcpVerifySegment tsk th skb = true) :
    (0 < skb.dlen → tsk.tcb.rcvWnd ≠ 0) ∧ tsk.tcb.rcvNxt ≤ th.seq := by
  unfold tcpVerifySegment at verified
  split at verified
  · contradiction
  · rename_i window
    split at verified
    · contradiction
    · rename_i inside
      refine ⟨fun some shut => window ⟨some, shut⟩, ?_⟩
      exact UInt32.not_lt.mp fun early => inside (.inl early)

/- One arrival. -/
include nonempty room in
theorem feed_reassembled {trace : List ((Nat × TcpHdr) × Bool)} {arrival : Nat × TcpHdr}
    {r : Bool} (h : Reassembled base pieces before n later s) (order : Holds (Accepted trace) n later)
    (place : InPlace base pieces arrival) (taken : feed pieces s arrival = some (t, r)) :
    ∃ n later, Holds (Accepted (trace ++ [(arrival, r)])) n later ∧
      Reassembled base pieces before n later t := by
  obtain ⟨i, th⟩ := arrival
  obtain ⟨payload, found, eq⟩ := Option.map_eq_some_iff.mp taken
  have new : IsPiece base pieces (tcpInitSegment s th payload).2 i := ⟨place, rfl, found⟩
  have start : Reassembled base pieces before n later (tcpInitSegment s th payload).1 :=
    ⟨h.bound, h.next, h.received, h.early⟩
  dsimp only at eq
  split at eq
  · rename_i verified
    obtain ⟨rfl, rfl⟩ := Prod.mk.inj eq
    obtain ⟨window, lower⟩ := tcpVerifySegment_window verified
    have opened : (tcpInitSegment s th payload).1.tsk.tcb.rcvWnd ≠ 0 := by
      refine window ?_
      rw [UInt32.lt_iff_toNat_lt, (new.end_eq room).2]
      exact List.length_pos_iff.mpr (nonempty _ (List.mem_of_getElem? found))
    have reached : n ≤ i := by
      by_contra lt
      have := pieceSeq_lt nonempty base new.bound (Nat.not_le.mp lt)
      have bears : th.seq.toNat = pieceSeq base pieces i := place
      rw [UInt32.le_iff_toNat_le, start.next, bears] at lower
      omega
    rcases Nat.eq_or_lt_of_le reached with rfl | beyond
    · refine ⟨_, _, order.arrives.congr fun j => accepted_snoc j, ?_⟩
      exact tcpDataQueue_missing nonempty room start new opened
    · refine ⟨_, _, (order.early beyond).congr fun j => accepted_snoc j, ?_⟩
      exact tcpDataQueue_early nonempty room start order.ordered new beyond opened
  · obtain ⟨rfl, rfl⟩ := Prod.mk.inj eq
    exact ⟨_, _, order.congr fun j => refused_snoc j, start.same (freeSkb_minor _ _).same⟩

end Pieces

theorem early_piece {queue : List SkBuff} {later : List Nat}
    (same : List.Forall₂ (IsPiece base pieces) queue later) (member : k ∈ queue) :
    ∃ j ∈ later, IsPiece base pieces k j := by
  induction same with
  | nil => cases member
  | @cons m j rest later here others ih =>
    rcases List.mem_cons.mp member with rfl | member
    · exact ⟨j, by simp, here⟩
    · obtain ⟨i, there, piece⟩ := ih member
      exact ⟨i, List.mem_cons_of_mem j there, piece⟩

/- The order of the buffers is that of the numbers of their pieces. -/
theorem pieces_ordered {queue : List SkBuff} {later : List Nat} (nonempty : ∀ p ∈ pieces, p ≠ [])
    (same : List.Forall₂ (IsPiece base pieces) queue later) (ordered : later.Pairwise (· < ·)) :
    queue.Pairwise (fun k m => k.seq < m.seq) := by
  induction same with
  | nil => exact .nil
  | cons here others ih =>
    obtain ⟨first, tail⟩ := List.pairwise_cons.mp ordered
    refine List.pairwise_cons.mpr ⟨fun m member => ?_, ih tail⟩
    obtain ⟨j, there, piece⟩ := early_piece others member
    exact (here.lt_iff nonempty piece).mpr (first j there)

/-- Whatever the order of arrival and the duplicates, `rcv_nxt` is the end of the pieces that have
    come without a gap, the receive queue has taken exactly these, and the out-of-order queue
    holds every other accepted piece once, in order and beyond `rcv_nxt`. -/
theorem reassembly_complete {trace : List ((Nat × TcpHdr) × Bool)} (nonempty : ∀ p ∈ pieces, p ≠ [])
    (room : base.toNat + pieces.flatten.length < 2 ^ 32) (first : s.tsk.tcb.rcvNxt = base)
    (none : s.tsk.ofoQueue = [])
    (run : Run (feed pieces) (fun _ _ a => InPlace base pieces a) s trace t) :
    ∃ n later, Holds (Accepted trace) n later ∧ n ≤ pieces.length ∧
      t.tsk.tcb.rcvNxt.toNat = pieceSeq base pieces n ∧
      t.tsk.receiveQueue.map SkBuff.payload =
        s.tsk.receiveQueue.map SkBuff.payload ++ pieces.take n ∧
      List.Forall₂ (IsPiece base pieces) t.tsk.ofoQueue later ∧
      t.tsk.ofoQueue.Pairwise (fun k m => k.seq < m.seq) ∧
      ∀ k ∈ t.tsk.ofoQueue, t.tsk.tcb.rcvNxt < k.seq := by
  have invariant : ∃ n later, Holds (Accepted trace) n later ∧
      Reassembled base pieces (s.tsk.receiveQueue.map SkBuff.payload) n later t := by
    induction run with
    | start =>
      refine ⟨0, [], Holds.nothing.congr fun i => by simp [Accepted], Nat.zero_le _, ?_, by simp, ?_⟩
      · rw [first]; simp [pieceSeq]
      · rw [none]; exact .nil
    | next _ place taken held =>
      obtain ⟨n, later, order, queues⟩ := held
      exact feed_reassembled nonempty room queues order place taken
  obtain ⟨n, later, order, queues⟩ := invariant
  refine ⟨n, later, order, queues.bound, queues.next, queues.received, queues.early,
    pieces_ordered nonempty queues.early order.ordered, fun k member => ?_⟩
  obtain ⟨j, there, piece⟩ := early_piece queues.early member
  have lower := ((order.beyond j).mp there).2
  rw [UInt32.lt_iff_toNat_lt, queues.next, piece.seq]
  exact pieceSeq_lt nonempty base (Nat.lt_trans lower piece.bound) lower

theorem reassembly_complete_reordered : ∃ trace t,
    Run (feed [[1, 2], [3], [4, 5]]) (fun _ _ a => InPlace 5001 [[1, 2], [3], [4, 5]] a)
      (openedAt 5000) trace t ∧ t.tsk.ofoQueue.map SkBuff.payload = [[3], [4, 5]] ∧
    ∃ n later, Holds (Accepted trace) n later ∧ n ≤ 3 ∧
      t.tsk.tcb.rcvNxt.toNat = pieceSeq 5001 [[1, 2], [3], [4, 5]] n ∧
      t.tsk.receiveQueue.map SkBuff.payload = [] ++ [[1, 2], [3], [4, 5]].take n ∧
      List.Forall₂ (IsPiece 5001 [[1, 2], [3], [4, 5]]) t.tsk.ofoQueue later ∧
      t.tsk.ofoQueue.Pairwise (fun k m => k.seq < m.seq) ∧
      ∀ k ∈ t.tsk.ofoQueue, t.tsk.tcb.rcvNxt < k.seq := by
  obtain ⟨trace, t, run, early⟩ : ∃ trace t,
      Run (feed [[1, 2], [3], [4, 5]]) (fun _ _ a => InPlace 5001 [[1, 2], [3], [4, 5]] a)
        (openedAt 5000) trace t ∧ t.tsk.ofoQueue.map SkBuff.payload = [[3], [4, 5]] :=
    Run.exists_of_follow [(2, peerHdr 5004 0), (1, peerHdr 5003 0), (2, peerHdr 5004 0)] (by decide)
  have nonempty : ∀ p ∈ [[1, 2], [3], [4, 5]], p ≠ ([] : List UInt8) := by decide
  have room : (5001 : UInt32).toNat + [[1, 2], [3], [4, (5 : UInt8)]].flatten.length < 2 ^ 32 := by
    decide
  exact ⟨trace, t, run, early, reassembly_complete nonempty room rfl rfl run⟩

end HfIp
