import HfIp.FinOutOfOrder

/- When the queue of text that came out of order stays in order, whatever the segments overlap. -/
namespace HfIp

open Transition

/-- Text arrives in the window: `tcp_init_segment`, `tcp_verify_segment` and `tcp_data_queue`. -/
def queueSegment (s : Conn) (e : TcpHdr × List UInt8) : Option (Conn × Unit) :=
  let seg := tcpInitSegment s e.1 e.2
  if tcpVerifySegment seg.1.tsk e.1 seg.2 then some ((tcpDataQueue seg.1 seg.2).1, ()) else none

/- No number lies in the ranges of both. -/
def Apart (k m : SkBuff) : Prop :=
  ∀ x : Nat, ¬(k.seq.toNat ≤ x ∧ x < k.endSeq.toNat ∧ m.seq.toNat ≤ x ∧ x < m.endSeq.toNat)

/-- The buffers are in order, their ranges apart, and all of them ahead of `rcv_nxt`. -/
structure OfoOrdered (rcvNxt : UInt32) (queue : List SkBuff) : Prop where
  increasing : queue.Pairwise fun k m => k.seq < m.seq
  apart : queue.Pairwise Apart
  ahead : ∀ k ∈ queue, rcvNxt < k.seq

/- The end of the range is that of the text. -/
def EndsWithText (k : SkBuff) : Prop := k.endSeq.toNat = k.seq.toNat + k.payload.length

/- `skb` ends where `k` begins or before, or begins where `k` ends or behind, unless it is empty. -/
def Beside (skb k : SkBuff) : Prop :=
  if skb.seq < k.seq then skb.endSeq ≤ k.seq else k.endSeq ≤ skb.seq ∨ skb.payload = []

instance (skb k : SkBuff) : Decidable (Beside skb k) := inferInstanceAs (Decidable (ite _ _ _))

/- From `next` on, the buffers continue each other as long as none begins beyond. -/
def Continues (next : Nat) : List SkBuff → Prop
  | [] => True
  | k :: rest => next < k.seq.toNat ∨
      k.seq.toNat = next ∧ Continues (k.seq.toNat + k.payload.length) rest

/- The text overlaps what waits: it has a new number out of sequence and is not beside every buffer, or
   in sequence it reaches past the beginning of one. -/
def Overlaps (s : Conn) (e : TcpHdr × List UInt8) : Prop :=
  let skb := (tcpInitSegment s e.1 e.2).2
  if e.1.seq = s.tsk.tcb.rcvNxt then ¬Continues (e.1.seq.toNat + e.2.length) s.tsk.ofoQueue
  else (∀ k ∈ s.tsk.ofoQueue, k.seq ≠ skb.seq) ∧ ∃ k ∈ s.tsk.ofoQueue, ¬Beside skb k

/- The queue is not in order after the call. -/
def Disorders (s : Conn) (e : TcpHdr × List UInt8) : Prop :=
  ∃ t r, queueSegment s e = some (t, r) ∧ ¬OfoOrdered t.tsk.tcb.rcvNxt t.tsk.ofoQueue

variable {queue front back : List SkBuff} {skb : SkBuff}

/- Where the search of `tcp_data_insert_ordered` ends. -/
theorem insertOrdered_place (increasing : queue.Pairwise fun k m => k.seq < m.seq)
    (absent : ∀ k ∈ queue, k.seq ≠ skb.seq) : ∃ front back, queue = front ++ back ∧
      insertOrdered skb queue = some (front ++ skb :: back) ∧
      (∀ k ∈ front, k.seq < skb.seq ∨ skb.seq < k.seq ∧ skb.endSeq > k.seq) ∧
      ∀ k ∈ back, skb.seq < k.seq ∧ skb.endSeq ≤ k.seq := by
  induction queue with
  | nil => exact ⟨[], [], rfl, rfl, by simp, by simp⟩
  | cons next rest ih =>
    obtain ⟨first, tail⟩ := List.pairwise_cons.mp increasing
    have other := absent next (by simp)
    have behind : next.seq < skb.seq ∨ skb.seq < next.seq ∧ skb.endSeq > next.seq →
        insertOrdered skb (next :: rest) = (insertOrdered skb rest).map (next :: ·) →
        ∃ front back, next :: rest = front ++ back ∧
          insertOrdered skb (next :: rest) = some (front ++ skb :: back) ∧
          (∀ k ∈ front, k.seq < skb.seq ∨ skb.seq < k.seq ∧ skb.endSeq > k.seq) ∧
          ∀ k ∈ back, skb.seq < k.seq ∧ skb.endSeq ≤ k.seq := by
      intro here onward
      obtain ⟨front, back, split, inserted, before, after⟩ :=
        ih tail (fun k member => absent k (by simp [member]))
      refine ⟨next :: front, back, by rw [split]; rfl, by rw [onward, inserted]; rfl, ?_, after⟩
      intro k member
      rcases List.mem_cons.mp member with rfl | member
      · exact here
      · exact before k member
    by_cases lt : skb.seq < next.seq
    · by_cases reaches : skb.endSeq > next.seq
      · exact behind (.inr ⟨lt, reaches⟩) (by rw [insertOrdered, if_pos lt, if_pos reaches])
      · have ends := UInt32.not_lt.mp reaches
        refine ⟨[], next :: rest, rfl, by rw [insertOrdered, if_pos lt, if_neg reaches]; rfl, by simp, ?_⟩
        intro k member
        rcases List.mem_cons.mp member with rfl | member
        · exact ⟨lt, ends⟩
        · have further := first k member
          exact ⟨UInt32.lt_trans lt further, UInt32.le_of_lt (UInt32.lt_of_le_of_lt ends further)⟩
    · have gt : next.seq < skb.seq :=
        UInt32.lt_of_le_of_ne (UInt32.not_lt.mp lt) other
      exact behind (.inl gt) (by rw [insertOrdered, if_neg lt, if_neg (Ne.symm other)])

/- A number that the queue has already is found. -/
theorem insertOrdered_found (increasing : queue.Pairwise fun k m => k.seq < m.seq) {k : SkBuff}
    (member : k ∈ queue) (same : k.seq = skb.seq) : insertOrdered skb queue = none := by
  induction queue with
  | nil => cases member
  | cons next rest ih =>
    obtain ⟨first, tail⟩ := List.pairwise_cons.mp increasing
    rw [insertOrdered]
    rcases List.mem_cons.mp member with rfl | member
    · rw [if_neg (by rw [same]; exact UInt32.lt_irrefl _), if_pos same.symm]
    · have before := first k member
      rw [same] at before
      rw [if_neg (UInt32.not_lt.mpr (UInt32.le_of_lt before)), if_neg (UInt32.ne_of_lt before).symm,
        ih tail member]
      rfl

theorem pairwise_insert {R : SkBuff → SkBuff → Prop} (all : (front ++ back).Pairwise R) :
    (front ++ skb :: back).Pairwise R ↔ (∀ k ∈ front, R k skb) ∧ ∀ k ∈ back, R skb k := by
  obtain ⟨before, after, across⟩ := List.pairwise_append.mp all
  rw [List.pairwise_append, List.pairwise_cons]
  constructor
  · rintro ⟨-, ⟨later, -⟩, earlier⟩
    exact ⟨fun k member => earlier k member skb (by simp), later⟩
  · rintro ⟨earlier, later⟩
    refine ⟨before, ⟨later, after⟩, fun k member m found => ?_⟩
    rcases List.mem_cons.mp found with rfl | found
    · exact earlier k member
    · exact across k member m found

theorem Apart.of_before {k m : SkBuff} (before : k.endSeq ≤ m.seq) : Apart k m := by
  rintro x ⟨-, inside, beyond, -⟩
  rw [UInt32.le_iff_toNat_le] at before
  omega

/- In its place the buffer keeps the order exactly if it is beside all the others. -/
theorem insert_ordered_iff (increasing : (front ++ back).Pairwise fun k m => k.seq < m.seq)
    (apart : (front ++ back).Pairwise Apart) (ends : EndsWithText skb)
    (before : ∀ k ∈ front, k.seq < skb.seq ∨ skb.seq < k.seq ∧ skb.endSeq > k.seq)
    (after : ∀ k ∈ back, skb.seq < k.seq ∧ skb.endSeq ≤ k.seq) :
    ((front ++ skb :: back).Pairwise (fun k m => k.seq < m.seq) ∧ (front ++ skb :: back).Pairwise Apart) ↔
      ∀ k ∈ front ++ back, Beside skb k := by
  rw [pairwise_insert increasing, pairwise_insert apart]
  constructor
  · rintro ⟨⟨lower, -⟩, separate, -⟩ k member
    unfold Beside
    rcases List.mem_append.mp member with member | member
    · have lt := lower k member
      rw [if_neg (UInt32.not_lt.mpr (UInt32.le_of_lt lt))]
      by_contra neither
      rw [not_or, UInt32.not_le] at neither
      have some := List.length_pos_iff.mpr neither.2
      have inside := UInt32.lt_iff_toNat_lt.mp neither.1
      have start := UInt32.lt_iff_toNat_lt.mp lt
      have stop : skb.endSeq.toNat = skb.seq.toNat + skb.payload.length := ends
      exact separate k member skb.seq.toNat ⟨by omega, inside, Nat.le_refl _, by omega⟩
    · rw [if_pos (after k member).1]
      exact (after k member).2
  · intro beside
    have lower : ∀ k ∈ front, k.seq < skb.seq := by
      intro k member
      rcases before k member with lt | ⟨lt, reaches⟩
      · exact lt
      · have fits := beside k (List.mem_append_left _ member)
        unfold Beside at fits
        rw [if_pos lt] at fits
        exact absurd reaches (UInt32.not_lt.mpr fits)
    refine ⟨⟨lower, fun k member => (after k member).1⟩, fun k member => ?_, fun k member => ?_⟩
    · have fits := beside k (List.mem_append_left _ member)
      unfold Beside at fits
      rw [if_neg (UInt32.not_lt.mpr (UInt32.le_of_lt (lower k member)))] at fits
      rcases fits with le | empty
      · exact .of_before le
      · rintro x ⟨-, -, start, stop⟩
        unfold EndsWithText at ends
        rw [ends, empty, List.length_nil] at stop
        omega
    · exact .of_before (after k member).2

/- What is left by `tcp_consume_ofo_queue` is ahead of `rcv_nxt`. -/
theorem consumeLoop_ahead {rcvNxt : UInt32} (increasing : queue.Pairwise fun k m => k.seq < m.seq)
    (ends : ∀ k ∈ queue, EndsWithText k) :
    (∀ k ∈ (consumeLoop rcvNxt queue).2.2, (consumeLoop rcvNxt queue).1 < k.seq) ↔
      Continues rcvNxt.toNat queue := by
  induction queue generalizing rcvNxt with
  | nil => exact iff_of_true (by simp [consumeLoop]) trivial
  | cons k rest ih =>
    obtain ⟨first, tail⟩ := List.pairwise_cons.mp increasing
    rw [consumeLoop, Continues]
    by_cases here : rcvNxt = k.seq
    · subst here
      have stop : k.endSeq.toNat = k.seq.toNat + k.payload.length := ends k (by simp)
      have next : (k.seq + k.dlen).toNat = k.seq.toNat + k.payload.length :=
        dlen_next (by rw [← stop]; exact k.endSeq.toNat_lt)
      have later := @ih (k.seq + k.dlen) tail fun m member => ends m (by simp [member])
      rw [if_pos rfl, ← next, or_iff_right (Nat.lt_irrefl _), and_iff_right rfl]
      exact later
    · rw [if_neg here, or_iff_left (fun both => here (UInt32.toNat_inj.mp both.1.symm)),
        ← UInt32.lt_iff_toNat_lt]
      constructor
      · intro ahead
        exact ahead k (by simp)
      · intro lt m member
        rcases List.mem_cons.mp member with rfl | member
        · exact lt
        · exact UInt32.lt_trans lt (first m member)

theorem continues_of_ahead {next : Nat} (ahead : ∀ k ∈ queue, next < k.seq.toNat) :
    Continues next queue := by
  cases queue with
  | nil => trivial
  | cons k rest => exact .inl (ahead k (by simp))

/- One call, on what it reads and writes. -/
theorem takeText_ordered {r : Receipt} (ordered : OfoOrdered r.rcvNxt r.ofoQueue)
    (ends : ∀ k ∈ r.ofoQueue, EndsWithText k) (new : EndsWithText skb) (wide : r.rcvWnd ≠ 0)
    (lower : r.rcvNxt ≤ skb.seq) :
    (OfoOrdered (takeText r skb).rcvNxt (takeText r skb).ofoQueue ↔
      if skb.seq = r.rcvNxt then Continues (skb.seq.toNat + skb.payload.length) r.ofoQueue
      else (∃ k ∈ r.ofoQueue, k.seq = skb.seq) ∨ ∀ k ∈ r.ofoQueue, Beside skb k) ∧
      ∀ k ∈ (takeText r skb).ofoQueue, EndsWithText k := by
  unfold takeText
  rw [if_neg wide]
  by_cases hit : skb.seq = r.rcvNxt
  · rw [if_pos hit, if_pos hit]
    have stop : skb.endSeq.toNat = skb.seq.toNat + skb.payload.length := new
    have next : (r.rcvNxt + skb.dlen).toNat = skb.seq.toNat + skb.payload.length := by
      rw [← hit]
      exact dlen_next (by rw [← stop]; exact skb.endSeq.toNat_lt)
    have ahead := @consumeLoop_ahead r.ofoQueue (r.rcvNxt + skb.dlen) ordered.increasing ends
    have parts := consumeLoop_split (r.rcvNxt + skb.dlen) r.ofoQueue
    have increasing := ordered.increasing
    have apart := ordered.apart
    rw [next] at ahead
    rw [← parts] at increasing apart
    refine ⟨⟨fun h => ahead.mp h.ahead, fun h => ?_⟩, fun k member => ends k ?_⟩
    · exact ⟨(List.pairwise_append.mp increasing).2.1, (List.pairwise_append.mp apart).2.1, ahead.mpr h⟩
    · rw [← parts]
      exact List.mem_append_right _ member
  · rw [if_neg hit, if_neg hit]
    have beyond : r.rcvNxt < skb.seq := UInt32.lt_of_le_of_ne lower (Ne.symm hit)
    by_cases found : ∃ k ∈ r.ofoQueue, k.seq = skb.seq
    · obtain ⟨k, member, same⟩ := found
      have kept : (tcpDataInsertOrdered r.ofoQueue skb).1 = r.ofoQueue :=
        (tcpDataInsertOrdered_eq r.ofoQueue).mpr (insertOrdered_found ordered.increasing member same)
      dsimp only
      rw [kept]
      exact ⟨iff_of_true ordered (.inl ⟨k, member, same⟩), ends⟩
    · have absent : ∀ k ∈ r.ofoQueue, k.seq ≠ skb.seq := fun k member same => found ⟨k, member, same⟩
      obtain ⟨front, back, split, inserted, before, after⟩ :=
        @insertOrdered_place r.ofoQueue { skb with refcnt := skb.refcnt + 1 } ordered.increasing absent
      have placed : (tcpDataInsertOrdered r.ofoQueue skb).1 =
          front ++ { skb with refcnt := skb.refcnt + 1 } :: back := by
        unfold tcpDataInsertOrdered
        dsimp only
        rw [inserted]
      have increasing := ordered.increasing
      have apart := ordered.apart
      rw [split] at increasing apart
      have exact_order := @insert_ordered_iff front back { skb with refcnt := skb.refcnt + 1 } increasing
        apart new before after
      dsimp only
      rw [placed, or_iff_right found]
      refine ⟨?_, fun k member => ?_⟩
      · rw [split]
        constructor
        · intro h
          exact exact_order.mp ⟨h.increasing, h.apart⟩
        · intro beside
          obtain ⟨increasing', apart'⟩ := exact_order.mpr beside
          refine ⟨increasing', apart', fun k member => ?_⟩
          rcases List.mem_append.mp member with member | member
          · exact ordered.ahead k (by rw [split]; exact List.mem_append_left _ member)
          · rcases List.mem_cons.mp member with rfl | member
            · exact beyond
            · exact ordered.ahead k (by rw [split]; exact List.mem_append_right _ member)
      · rcases List.mem_append.mp member with member | member
        · exact ends k (by rw [split]; exact List.mem_append_left _ member)
        · rcases List.mem_cons.mp member with rfl | member
          · exact new
          · exact ends k (by rw [split]; exact List.mem_append_right _ member)

/- The invariant of a run without overlaps, and that the ranges end with their text. -/
structure OfoSound (s : Conn) : Prop where
  ordered : OfoOrdered s.tsk.tcb.rcvNxt s.tsk.ofoQueue
  ends : ∀ k ∈ s.tsk.ofoQueue, EndsWithText k

variable {s t : Conn} {e : TcpHdr × List UInt8}

theorem queueSegment_ordered {r : Unit} (sound : OfoSound s)
    (room : e.1.seq.toNat + e.2.length < 2 ^ 32) (taken : queueSegment s e = some (t, r)) :
    (OfoOrdered t.tsk.tcb.rcvNxt t.tsk.ofoQueue ↔ ¬Overlaps s e) ∧
      ∀ k ∈ t.tsk.ofoQueue, EndsWithText k := by
  unfold queueSegment at taken
  dsimp only at taken
  split at taken
  · rename_i verified
    obtain ⟨rfl, -⟩ := Prod.mk.inj (Option.some.inj taken)
    set skb := (tcpInitSegment s e.1 e.2).2 with segment
    have new : EndsWithText skb := @dlen_next e.1.seq skb room
    obtain ⟨lower, wide⟩ := tcpVerifySegment_lower verified
    have result : receipt (tcpDataQueue (tcpInitSegment s e.1 e.2).1 skb).1 = takeText (receipt s) skb :=
      (tcpDataQueue_receipt (tcpInitSegment s e.1 e.2).1 skb).1
    rw [show (tcpDataQueue (tcpInitSegment s e.1 e.2).1 skb).1.tsk.tcb.rcvNxt = _ from
        congrArg Receipt.rcvNxt result,
      show (tcpDataQueue (tcpInitSegment s e.1 e.2).1 skb).1.tsk.ofoQueue = _ from
        congrArg Receipt.ofoQueue result]
    by_cases shut : s.tsk.tcb.rcvWnd = 0
    · have kept : takeText (receipt s) skb = receipt s := by
        unfold takeText
        rw [if_pos (show (receipt s).rcvWnd = 0 from shut)]
      have empty : e.2.length = 0 := by
        have small := @dlen_toNat skb (show e.2.length < 2 ^ 32 by omega)
        rw [← show skb.payload.length = e.2.length from rfl, ← small]
        by_contra some
        exact wide (fun zero => some (congrArg UInt32.toNat zero)) shut
      rw [kept]
      refine ⟨iff_of_true sound.ordered ?_, sound.ends⟩
      unfold Overlaps
      dsimp only
      split
      · rename_i hit
        refine not_not.mpr (continues_of_ahead fun k member => ?_)
        rw [empty, hit, Nat.add_zero]
        exact UInt32.lt_iff_toNat_lt.mp (sound.ordered.ahead k member)
      · rename_i miss
        have window := (@tcpVerifySegment_iff e.1 skb s.tsk (by rw [shut]; exact s.tsk.tcb.rcvNxt.toNat_lt)).mp
          verified
        rw [shut, UInt32.toNat_zero, Nat.add_zero] at window
        exact absurd (UInt32.toNat_inj.mp (Nat.le_antisymm window.2.2 window.2.1)) miss
    · obtain ⟨exact_order, ends⟩ := @takeText_ordered skb (receipt s) sound.ordered sound.ends new shut
        (UInt32.le_iff_toNat_le.mpr lower)
      refine ⟨exact_order.trans ?_, ends⟩
      unfold Overlaps
      dsimp only
      by_cases hit : e.1.seq = s.tsk.tcb.rcvNxt
      · rw [if_pos (show skb.seq = (receipt s).rcvNxt from hit), if_pos hit, not_not]
        exact Iff.rfl
      · rw [if_neg (show ¬skb.seq = (receipt s).rcvNxt from hit), if_neg hit]
        constructor
        · rintro (⟨k, member, same⟩ | beside) ⟨absent, m, found, other⟩
          · exact absent k member same
          · exact other (beside m found)
        · intro fair
          by_contra neither
          rw [not_or] at neither
          refine fair ⟨fun k member same => neither.1 ⟨k, member, same⟩, ?_⟩
          by_contra none
          exact neither.2 fun k member => by_contra fun other => none ⟨k, member, other⟩
  · cases taken

/-- In every run of segments in the window the queue is in order after every call exactly when no segment
    overlaps what waits, or reaches past the beginning of it. -/
theorem ofo_queue_exact {first : Conn} {trace : List ((TcpHdr × List UInt8) × Unit)}
    (fresh : first.tsk.ofoQueue = [])
    (run : Run queueSegment (fun _ _ e => e.1.seq.toNat + e.2.length < 2 ^ 32) first trace s) :
    Occurs queueSegment Disorders first trace ↔ Occurs queueSegment Overlaps first trace := by
  refine run.occurs_iff OfoSound ⟨⟨?_, ?_, ?_⟩, ?_⟩ ?_ ?_
  iterate 4
    rw [fresh]
    simp
  · intro _ u e t r sound room taken
    have exact_step := (queueSegment_ordered sound room taken).1
    constructor
    · rintro ⟨t', r', taken', disordered⟩
      obtain ⟨rfl, -⟩ := Prod.mk.inj (Option.some.inj (taken.symm.trans taken'))
      by_contra fair
      exact disordered (exact_step.mpr fair)
    · intro overlaps
      exact ⟨t, r, taken, fun ordered => exact_step.mp ordered overlaps⟩
  · intro _ u e t r sound room ordered taken
    refine ⟨?_, (queueSegment_ordered sound room taken).2⟩
    by_contra disordered
    exact ordered ⟨t, r, taken, disordered⟩

/- Text that is resent in other pieces once it has come. -/
theorem ofo_queue_exact_resent : ∃ trace s,
    Run queueSegment (fun _ _ e => e.1.seq.toNat + e.2.length < 2 ^ 32) (openedAt 5000) trace s ∧
    s.tsk.ofoQueue.map SkBuff.seq = [5003, 5006] ∧
    (Occurs queueSegment Disorders (openedAt 5000) trace ↔
      Occurs queueSegment Overlaps (openedAt 5000) trace) := by
  obtain ⟨trace, s, run, queued⟩ : ∃ trace s,
      Run queueSegment (fun _ _ e => e.1.seq.toNat + e.2.length < 2 ^ 32) (openedAt 5000) trace s ∧
      s.tsk.ofoQueue.map SkBuff.seq = [5003, 5006] :=
    Run.exists_of_follow [(peerHdr 5006 0, [6, 7]), (peerHdr 5003 0, [3, 4]), (peerHdr 5003 0, [3, 4, 5])]
      (by decide +kernel)
  exact ⟨trace, s, run, queued, @ofo_queue_exact s (openedAt 5000) trace rfl run⟩

/- One segment reaches past the beginning of what waits behind it, and another past rcv_nxt. -/
theorem ofo_queue_overlapped :
    (∃ trace s, Run queueSegment (fun _ _ e => e.1.seq.toNat + e.2.length < 2 ^ 32) (openedAt 5000)
      trace s ∧ s.tsk.ofoQueue.map SkBuff.seq = [5005, 5003] ∧
      ¬OfoOrdered s.tsk.tcb.rcvNxt s.tsk.ofoQueue) ∧
    ∃ trace s, Run queueSegment (fun _ _ e => e.1.seq.toNat + e.2.length < 2 ^ 32) (openedAt 5000)
      trace s ∧ s.tsk.ofoQueue.map SkBuff.seq = [5003] ∧ s.tsk.tcb.rcvNxt = 5005 ∧
      ¬OfoOrdered s.tsk.tcb.rcvNxt s.tsk.ofoQueue := by
  constructor
  · obtain ⟨trace, s, run, queued⟩ : ∃ trace s,
        Run queueSegment (fun _ _ e => e.1.seq.toNat + e.2.length < 2 ^ 32) (openedAt 5000) trace s ∧
        s.tsk.ofoQueue.map SkBuff.seq = [5005, 5003] :=
      Run.exists_of_follow [(peerHdr 5005 0, [5]), (peerHdr 5003 0, [3, 4, 5, 6])] (by decide +kernel)
    refine ⟨trace, s, run, queued, fun ordered => ?_⟩
    have increasing : (s.tsk.ofoQueue.map SkBuff.seq).Pairwise (· < ·) :=
      List.pairwise_map.mpr ordered.increasing
    rw [queued] at increasing
    exact absurd increasing (by decide)
  · obtain ⟨trace, s, run, queued, next⟩ : ∃ trace s,
        Run queueSegment (fun _ _ e => e.1.seq.toNat + e.2.length < 2 ^ 32) (openedAt 5000) trace s ∧
        s.tsk.ofoQueue.map SkBuff.seq = [5003] ∧ s.tsk.tcb.rcvNxt = 5005 :=
      Run.exists_of_follow [(peerHdr 5003 0, [3]), (peerHdr 5001 0, [1, 2, 3, 4])] (by decide +kernel)
    refine ⟨trace, s, run, queued, next, fun ordered => ?_⟩
    have ahead : ∀ x ∈ s.tsk.ofoQueue.map SkBuff.seq, s.tsk.tcb.rcvNxt < x := by
      intro x member
      obtain ⟨k, found, rfl⟩ := List.mem_map.mp member
      exact ordered.ahead k found
    rw [queued, next] at ahead
    exact absurd (ahead 5003 (by simp)) (by decide)

end HfIp
