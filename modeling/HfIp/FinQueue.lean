import Mathlib.Data.List.TakeWhile
import HfIp.SendEvents

/- FINs in the write queue: every FIN that has been numbered stays in the queue until its own number
   is acknowledged, and every FIN that has not waits there. -/
namespace HfIp

/- The number that follows all that has been accepted for sending: the SYN, the text, the FINs. -/
def seqEnd (s : Conn) : Nat := s.tsk.tcb.iss.toNat + 1 + s.accepted.length + s.fins

/- The buffer has been sent. A SYN can bear number 0. -/
def SkBuff.numbered (k : SkBuff) : Bool := k.seq ≠ 0 || k.th.syn

def unsentSpan (queue : List SkBuff) : Nat := spans (queue.filter fun k => !k.numbered)

def SkBuff.isFin (k : SkBuff) : Bool := k.th.fin

/- A FIN still to be sent. -/
def SkBuff.owed (k : SkBuff) : Bool := k.th.fin && !k.numbered

theorem spans_append (xs ys : List SkBuff) : spans (xs ++ ys) = spans xs + spans ys := by
  simp [spans]

theorem unsentSpan_append (xs ys : List SkBuff) :
    unsentSpan (xs ++ ys) = unsentSpan xs + unsentSpan ys := by
  simp [unsentSpan, spans_append]

theorem unsentSpan_unsent {queue : List SkBuff} (unsent : ∀ k ∈ queue, k.numbered = false) :
    unsentSpan queue = spans queue := by
  rw [unsentSpan, List.filter_eq_self.mpr (by simpa using unsent)]

theorem unsentSpan_sent {queue : List SkBuff} (sent : ∀ k ∈ queue, k.numbered = true) :
    unsentSpan queue = 0 := by
  rw [unsentSpan, List.filter_eq_nil_iff.mpr (by simpa using sent)]
  rfl

/- What a run of first transmissions makes of unsent buffers. -/
structure Numbers (nxt stop : UInt32) (before after : List SkBuff) : Prop where
  next : stop.toNat = nxt.toNat + spans before
  length : after.length = before.length
  numbered : ∀ k ∈ after, k.numbered = true
  fin : ∀ k ∈ after, k.th.fin = true →
    k.payload = [] ∧ k.endSeq = k.seq ∧ k.seq ≠ 0 ∧ k.seq.toNat < stop.toNat
  count : after.countP SkBuff.isFin = before.countP SkBuff.owed
  last : ∀ k, after.getLast? = some k → k.th.fin = true → stop.toNat = k.seq.toNat + 1

theorem SentRun.numbers {nxt stop : UInt32} {before after : List SkBuff}
    (run : SentRun nxt before after stop) (unsent : ∀ k ∈ before, k.numbered = false)
    (plain : ∀ k ∈ before, k.th.fin = true → k.payload = []) (positive : before ≠ [] → 0 < nxt.toNat)
    (room : nxt.toNat + spans before < 2 ^ 32) : Numbers nxt stop before after := by
  induction before generalizing nxt after with
  | nil =>
    cases after with
    | nil =>
      obtain rfl : nxt = stop := run
      exact ⟨by simp [spans], rfl, by simp, by simp, rfl, by simp⟩
    | cons => exact absurd run id
  | cons k rest ih =>
    cases after with
    | nil => exact absurd run id
    | cons k' after =>
      obtain ⟨sent, run⟩ := run
      have fresh : k.numbered = false := unsent k (by simp)
      have noSyn : k.th.syn = false := by
        simp only [SkBuff.numbered, Bool.or_eq_false_iff] at fresh
        exact fresh.2
      have width : spans (k :: rest) = k.span + spans rest := by simp [spans]
      have ends := sent.ends (by simp only [SkBuff.span] at width; omega)
      have next : (k'.endSeq + if k.th.fin then 1 else 0).toNat = nxt.toNat + k.span := by
        simp only [SkBuff.span, noSyn, Bool.toNat_false] at width ⊢
        rw [UInt32.toNat_add, ends]
        cases fin : k.th.fin <;> simp only [fin, Bool.toNat_false, Bool.toNat_true, if_true,
          Bool.false_eq_true, if_false, UInt32.toNat_zero, UInt32.toNat_one] at width ⊢ <;> omega
      have positive := positive (by simp)
      have seq : k'.seq ≠ 0 := by
        intro zero
        rw [sent.seq] at zero
        rw [zero] at positive
        exact absurd positive (by decide)
      have tail := ih run (fun j member => unsent j (by simp [member]))
        (fun j member => plain j (by simp [member])) (fun _ => by omega) (by omega)
      have total := tail.next
      refine ⟨by omega, by simp [tail.length], ?_, ?_, ?_, ?_⟩
      · intro j member
        rcases List.mem_cons.mp member with rfl | later
        · simp [SkBuff.numbered, seq]
        · exact tail.numbered j later
      · intro j member fin
        rcases List.mem_cons.mp member with rfl | later
        · have is_fin : k.th.fin = true := sent.fin ▸ fin
          have empty := plain k (by simp) is_fin
          have one : 1 ≤ k.span := by
            simp only [SkBuff.span, is_fin, Bool.toNat_true]
            omega
          refine ⟨sent.payload.trans empty, ?_, seq, by rw [sent.seq]; omega⟩
          rw [sent.endSeq, sent.seq, SkBuff.dlen, empty]
          simp
        · exact tail.fin j later fin
      · simp only [List.countP_cons, tail.count, SkBuff.isFin, SkBuff.owed, sent.fin, fresh,
          Bool.not_false, Bool.and_true]
      · intro j found fin
        cases after with
        | nil =>
          obtain rfl : k' = j := by simpa using found
          have none : rest = [] := by simpa using tail.length.symm
          have is_fin : k.th.fin = true := sent.fin ▸ fin
          have empty := plain k (by simp) is_fin
          have one : k.span = 1 := by simp [SkBuff.span, is_fin, noSyn, empty]
          rw [sent.seq, total, next, none, one]
          simp [spans]
        | cons j' others => exact tail.last j (by simpa using found) fin

/- `slack` numbers are still to be given to text, and `owed` FINs still to be queued. -/
structure FinInv (slack owed : Nat) (s : Conn) : Prop where
  counted : s.tsk.inflight = s.tsk.writeQueue.countP SkBuff.numbered
  room : s.tsk.tcb.sndNxt.toNat + unsentSpan s.tsk.writeQueue + slack ≤ seqEnd s
  small : seqEnd s < 2 ^ 32
  positive : s.tsk.state.sending = true ∨ s.tsk.writeQueue ≠ [] → 0 < s.tsk.tcb.sndNxt.toNat
  plain : ∀ k ∈ s.tsk.writeQueue, k.th.fin = true → k.payload = []
  flight : ∀ k ∈ s.tsk.writeQueue, k.th.fin = true → k.numbered = true →
    k.endSeq = k.seq ∧ k.seq ≠ 0 ∧ ∃ k₀ ∈ s.sent, k₀.th.fin = true ∧ k₀.seq = k.seq
  sentFin : ∀ k ∈ s.sent, k.th.fin = true → k.seq.toNat < s.tsk.tcb.sndNxt.toNat ∧
    (k.seq.toNat < s.tsk.tcb.sndUna.toNat ∨
      ∃ k' ∈ s.tsk.writeQueue, k'.th.fin = true ∧ k'.numbered = true ∧ k'.seq = k.seq)
  fins : s.fins = s.sent.countP SkBuff.isFin + s.tsk.writeQueue.countP SkBuff.owed + owed
  early : s.tsk.state.early = true → s.fins = 0
  awaiting : Awaiting s → 0 < s.fins
  closed : s.tsk.state = .close → s.tsk.writeQueue = [] ∧ s.accepted = []
  last : ∀ k, s.sent.getLast? = some k → k.th.fin = true →
    s.tsk.tcb.sndNxt.toNat = k.seq.toNat + 1

/- What is equal when only the write queue and its numbering change. -/
structure SameElse (s t : Conn) : Prop where
  accepted : t.accepted = s.accepted
  fins : t.fins = s.fins
  iss : t.tsk.tcb.iss = s.tsk.tcb.iss
  sndUna : t.tsk.tcb.sndUna = s.tsk.tcb.sndUna
  state : t.tsk.state = s.tsk.state
  ended : t.ended = s.ended

theorem SameElse.seqEnd {s t : Conn} (h : SameElse s t) : seqEnd t = seqEnd s := by
  rw [HfIp.seqEnd, HfIp.seqEnd, h.iss, h.accepted, h.fins]

theorem SameElse.awaiting {s t : Conn} (h : SameElse s t) : Awaiting t ↔ Awaiting s := by
  rw [Awaiting, Awaiting, h.ended, h.state]

namespace FinInv

variable {slack owed : Nat} {s t : Conn}

theorem frame (inv : FinInv slack owed s) (h : SendFrame s t) : FinInv slack owed t := by
  have ends : seqEnd t = seqEnd s := by rw [seqEnd, seqEnd, h.iss, h.accepted, h.fins]
  constructor
  · rw [h.inflight, h.writeQueue]; exact inv.counted
  · rw [h.sndNxt, h.writeQueue, ends]; exact inv.room
  · rw [ends]; exact inv.small
  · rw [h.writeQueue, h.sndNxt]
    exact fun live => inv.positive (live.imp h.onward.sending id)
  · rw [h.writeQueue]; exact inv.plain
  · rw [h.writeQueue, h.sent]; exact inv.flight
  · rw [h.writeQueue, h.sent, h.sndNxt, h.sndUna]; exact inv.sentFin
  · rw [h.fins, h.sent, h.writeQueue]; exact inv.fins
  · rw [h.fins]; exact inv.early ∘ h.onward.early
  · rw [h.fins]; exact inv.awaiting ∘ h.onward.awaiting
  · rw [h.writeQueue, h.accepted]; exact inv.closed ∘ h.onward.close
  · rw [h.sent, h.sndNxt]; exact inv.last

/- A buffer that waits behind the others. -/
theorem push {k : SkBuff} (inv : FinInv (k.span + slack) (k.th.fin.toNat + owed) s)
    (opened : s.tsk.state ≠ .close) (unsent : k.numbered = false)
    (plain : k.th.fin = true → k.payload = []) (positive : 0 < s.tsk.tcb.sndNxt.toNat) :
    FinInv slack owed { s with tsk.writeQueue := s.tsk.writeQueue ++ [k] } := by
  have width : unsentSpan [k] = k.span := by
    rw [unsentSpan_unsent (by simpa using unsent)]
    simp [spans]
  constructor
  · simp only [List.countP_append, List.countP_singleton, unsent, Bool.false_eq_true, if_false]
    exact inv.counted
  · have room := inv.room
    show s.tsk.tcb.sndNxt.toNat + unsentSpan (s.tsk.writeQueue ++ [k]) + slack ≤ seqEnd s
    rw [unsentSpan_append, width]
    omega
  · exact inv.small
  · exact fun _ => positive
  · intro j member fin
    rcases List.mem_append.mp member with old | new
    · exact inv.plain j old fin
    · obtain rfl := List.mem_singleton.mp new
      exact plain fin
  · intro j member fin numbered
    rcases List.mem_append.mp member with old | new
    · exact inv.flight j old fin numbered
    · obtain rfl := List.mem_singleton.mp new
      rw [unsent] at numbered
      contradiction
  · intro j member fin
    obtain ⟨below, covered | ⟨k', queued, rest⟩⟩ := inv.sentFin j member fin
    · exact ⟨below, .inl covered⟩
    · exact ⟨below, .inr ⟨k', List.mem_append_left _ queued, rest⟩⟩
  · have fins := inv.fins
    simp only [List.countP_append, List.countP_singleton, SkBuff.owed, unsent, Bool.not_false,
      Bool.and_true] at fins ⊢
    cases fin : k.th.fin <;> simp only [fin, Bool.toNat_false, Bool.toNat_true, if_true,
      Bool.false_eq_true, if_false] at fins ⊢ <;> omega
  · exact inv.early
  · exact inv.awaiting
  · exact fun close => absurd close opened
  · exact inv.last

/- First transmission of buffers out of a queue of which none has been sent. -/
theorem send (xs before ys : List SkBuff) {after : List SkBuff} {stop : UInt32} (inv : FinInv slack owed s)
    (queue : s.tsk.writeQueue = xs ++ before ++ ys) (idle : s.tsk.inflight = 0)
    (run : SentRun s.tsk.tcb.sndNxt before after stop) (else_ : SameElse s t)
    (queue' : t.tsk.writeQueue = xs ++ after ++ ys) (inflight : t.tsk.inflight = before.length)
    (sent : t.sent = s.sent ++ after) (nxt : t.tsk.tcb.sndNxt = stop) : FinInv slack owed t := by
  have unsent : ∀ k ∈ s.tsk.writeQueue, k.numbered = false := by
    have none := inv.counted.symm.trans idle
    rw [List.countP_eq_zero] at none
    simpa using none
  have some_queue : before ≠ [] → s.tsk.writeQueue ≠ [] := by
    rintro some_before none
    rw [none] at queue
    simp_all
  rw [queue] at unsent
  have room := inv.room
  have small := inv.small
  rw [queue, unsentSpan_append, unsentSpan_append,
    unsentSpan_unsent (show ∀ k ∈ before, _ from fun k member => unsent k (by simp [member]))]
    at room
  have numbers := run.numbers (fun k member => unsent k (by simp [member]))
    (fun k member => inv.plain k (by simp [queue, member]))
    (fun some_before => inv.positive (.inr (some_queue some_before))) (by omega)
  have next := numbers.next
  have outside : ∀ k ∈ xs ++ ys, k.numbered = false := by
    intro k member
    rcases List.mem_append.mp member with left | right
    · exact unsent k (by simp [left])
    · exact unsent k (by simp [right])
  have length : t.tsk.writeQueue.length = s.tsk.writeQueue.length := by
    rw [queue, queue']
    simp [numbers.length]
  have mem_cases : ∀ {k}, k ∈ xs ++ after ++ ys → k ∈ xs ++ ys ∨ k ∈ after := by
    intro k member
    simp only [List.mem_append] at member ⊢
    rcases member with (left | new) | right
    · exact .inl (.inl left)
    · exact .inr new
    · exact .inl (.inr right)
  have around : ∀ {k}, k ∈ xs ++ ys → k ∈ xs ++ before ++ ys := by
    intro k member
    simp only [List.mem_append] at member ⊢
    exact member.elim (fun left => .inl (.inl left)) .inr
  have nothing : ∀ zs : List SkBuff, (∀ k ∈ zs, k.numbered = false) →
      zs.countP SkBuff.numbered = 0 := by
    intro zs clear
    rw [List.countP_eq_zero]
    simpa using clear
  constructor
  · rw [queue', inflight, List.countP_append, List.countP_append,
      nothing xs fun k member => outside k (by simp [member]),
      nothing ys fun k member => outside k (by simp [member]),
      List.countP_eq_length.mpr numbers.numbered, numbers.length]
    omega
  · rw [queue', nxt, else_.seqEnd, unsentSpan_append, unsentSpan_append,
      unsentSpan_sent numbers.numbered, next]
    omega
  · rw [else_.seqEnd]; exact small
  · intro live
    have before_live : s.tsk.state.sending = true ∨ s.tsk.writeQueue ≠ [] := by
      refine live.imp (fun h => else_.state ▸ h) fun some_left none => some_left ?_
      rw [← List.length_eq_zero_iff, length, none]
      rfl
    have := inv.positive before_live
    rw [nxt]
    omega
  · intro k member fin
    rw [queue'] at member
    rcases mem_cases member with old | new
    · exact inv.plain k (by rw [queue]; exact around old) fin
    · exact (numbers.fin k new fin).1
  · intro k member fin numbered
    rw [queue'] at member
    rcases mem_cases member with old | new
    · rw [outside k old] at numbered
      contradiction
    · obtain ⟨-, ends, seq, -⟩ := numbers.fin k new fin
      exact ⟨ends, seq, k, by rw [sent]; simp [new], fin, rfl⟩
  · intro k member fin
    rw [sent] at member
    rw [nxt, else_.sndUna]
    rcases List.mem_append.mp member with old | new
    · obtain ⟨below, covered | ⟨k', queued, -, numbered, -⟩⟩ := inv.sentFin k old fin
      · exact ⟨by omega, .inl covered⟩
      · rw [queue] at queued
        rw [unsent k' queued] at numbered
        contradiction
    · obtain ⟨-, -, -, below⟩ := numbers.fin k new fin
      refine ⟨below, .inr ⟨k, ?_, fin, numbers.numbered k new, rfl⟩⟩
      rw [queue']
      simp [new]
  · have fins := inv.fins
    have paid : after.countP SkBuff.owed = 0 := by
      rw [List.countP_eq_zero]
      intro k member
      simp [SkBuff.owed, numbers.numbered k member]
    rw [queue, List.countP_append, List.countP_append] at fins
    rw [else_.fins, sent, queue', List.countP_append, List.countP_append, List.countP_append,
      numbers.count, paid]
    omega
  · rw [else_.state, else_.fins]; exact inv.early
  · rw [else_.awaiting, else_.fins]; exact inv.awaiting
  · rw [else_.state, else_.accepted]
    intro close
    obtain ⟨none, quiet⟩ := inv.closed close
    refine ⟨?_, quiet⟩
    rw [← List.length_eq_zero_iff, length, none]
    rfl
  · intro k found fin
    rw [sent] at found
    rw [nxt]
    by_cases none : after = []
    · subst none
      have unmoved : before = [] := List.length_eq_zero_iff.mp numbers.length.symm
      have := inv.last k (by simpa using found) fin
      simp [unmoved, spans] at next
      omega
    · refine numbers.last k ?_ fin
      rwa [List.getLast?_append_of_ne_nil _ none] at found

/- Another number as the oldest unacknowledged one: it may not uncover a FIN. -/
theorem una (inv : FinInv slack owed s) (una : UInt32)
    (covers : ∀ k ∈ s.sent, k.th.fin = true → k.seq.toNat < s.tsk.tcb.sndUna.toNat →
      k.seq.toNat < una.toNat) : FinInv slack owed { s with tsk.tcb.sndUna := una } :=
  { inv with
    sentFin := fun k member fin =>
      ⟨(inv.sentFin k member fin).1, (inv.sentFin k member fin).2.imp (covers k member fin) id⟩ }

theorem none_sent (inv : FinInv slack owed s) (none : s.fins = 0) :
    ∀ k ∈ s.sent, k.th.fin = true → False := by
  intro k member fin
  have fins := inv.fins
  have zero : s.sent.countP SkBuff.isFin = 0 := by omega
  rw [List.countP_eq_zero] at zero
  exact zero k member fin

theorem none_queued (inv : FinInv slack owed s) (none : s.fins = 0) :
    ∀ k ∈ s.tsk.writeQueue, k.th.fin = true → False := by
  intro k member fin
  cases numbered : k.numbered with
  | true =>
    obtain ⟨-, -, k₀, sent, is_fin, -⟩ := inv.flight k member fin numbered
    exact inv.none_sent none k₀ sent is_fin
  | false =>
    have fins := inv.fins
    have zero : s.tsk.writeQueue.countP SkBuff.owed = 0 := by omega
    rw [List.countP_eq_zero] at zero
    exact zero k member (by simp [SkBuff.owed, fin, numbered])

/- Cleaning the queue, when each FIN it takes off has its own number acknowledged. -/
theorem clean (inv : FinInv slack owed s) (una : UInt32)
    (whole : ∀ k ∈ s.tsk.writeQueue.takeWhile (acked una), k.th.fin = true →
      k.seq.toNat < s.tsk.tcb.sndUna.toNat) : FinInv slack owed (tcpCleanRtoQueue s una) := by
  obtain ⟨freed, cleaned⟩ := cleanLoop_conn una s s.tsk.writeQueue
  have split : s.tsk.writeQueue.takeWhile (acked una) ++ s.tsk.writeQueue.dropWhile (acked una)
      = s.tsk.writeQueue := List.takeWhile_append_dropWhile
  set gone := s.tsk.writeQueue.takeWhile (acked una) with hgone
  set left := s.tsk.writeQueue.dropWhile (acked una) with hleft
  have numbered : ∀ k ∈ gone, k.numbered = true := by
    intro k member
    have old := List.mem_takeWhile_imp member
    simp only [acked, Bool.and_eq_true, decide_eq_true_eq] at old
    simp only [SkBuff.numbered, Bool.or_eq_true, decide_eq_true_eq]
    refine .inl fun zero => ?_
    rw [zero] at old
    exact absurd old.1 (by decide)
  have popped : FinInv slack owed { s with
      tsk.inflight := s.tsk.inflight - gone.length, freed := freed, tsk.writeQueue := left } := by
    have sub : ∀ k ∈ left, k ∈ s.tsk.writeQueue := by
      intro k member
      rw [← split]
      exact List.mem_append_right _ member
    constructor
    · have counted := inv.counted
      rw [← split, List.countP_append, List.countP_eq_length.mpr numbered] at counted
      show s.tsk.inflight - gone.length = left.countP SkBuff.numbered
      omega
    · have room := inv.room
      rw [← split, unsentSpan_append, unsentSpan_sent numbered] at room
      show s.tsk.tcb.sndNxt.toNat + unsentSpan left + slack ≤ seqEnd s
      omega
    · exact inv.small
    · intro live
      refine inv.positive (live.imp id fun some_left none => some_left ?_)
      have := congrArg List.length split
      rw [none, List.length_append] at this
      exact List.length_eq_zero_iff.mp (by simp at this; simp [this])
    · exact fun k member => inv.plain k (sub k member)
    · exact fun k member => inv.flight k (sub k member)
    · intro k member fin
      obtain ⟨below, covered | ⟨k', queued, fin', numbered', seq⟩⟩ := inv.sentFin k member fin
      · exact ⟨below, .inl covered⟩
      · rw [← split] at queued
        rcases List.mem_append.mp queued with taken | stays
        · exact ⟨below, .inl (seq ▸ whole k' taken fin')⟩
        · exact ⟨below, .inr ⟨k', stays, fin', numbered', seq⟩⟩
    · have fins := inv.fins
      have none : gone.countP SkBuff.owed = 0 := by
        rw [List.countP_eq_zero]
        intro k member
        simp [SkBuff.owed, numbered k member]
      rw [← split, List.countP_append, none] at fins
      show s.fins = s.sent.countP SkBuff.isFin + left.countP SkBuff.owed + owed
      omega
    · exact inv.early
    · exact inv.awaiting
    · intro close
      obtain ⟨none, quiet⟩ := inv.closed close
      refine ⟨?_, quiet⟩
      show left = []
      rw [hleft, none]
      rfl
    · exact inv.last
  unfold tcpCleanRtoQueue
  dsimp only
  rw [cleaned, cleanLoop_queue]
  split
  · exact popped.frame (tcpStopRtoTimer_send _)
  · exact popped

end FinInv

/-! ### The functions that send -/

variable {slack owed : Nat} {s : Conn}

theorem tcpQueueTransmitSkb_else (s : Conn) (k : SkBuff) : SameElse s (tcpQueueTransmitSkb s k) := by
  obtain ⟨_, _, _, _, _, _, same⟩ := tcpQueueTransmitSkb_touches s k
  exact ⟨same.accepted, same.fins, same.iss, same.sndUna,
    same.state, same.ended⟩

theorem tcpQueueTransmitSkb_fin {k : SkBuff}
    (inv : FinInv (k.span + slack) (k.th.fin.toNat + owed) s) (opened : s.tsk.state ≠ .close)
    (unsent : k.numbered = false) (plain : k.th.fin = true → k.payload = [])
    (positive : 0 < s.tsk.tcb.sndNxt.toNat) : FinInv slack owed (tcpQueueTransmitSkb s k) := by
  by_cases idle : s.tsk.inflight = 0
  · obtain ⟨k', seg, sent, queue, inflight, history, -, nxt, -⟩ := tcpQueueTransmitSkb_now k idle
    have waiting := inv.push opened unsent plain positive
    have same := tcpQueueTransmitSkb_else s k
    have run : SentRun s.tsk.tcb.sndNxt [k] [k'] (k'.endSeq + if k.th.fin then 1 else 0) := ⟨sent, rfl⟩
    refine waiting.send s.tsk.writeQueue [k] [] (by simp) idle run
      ⟨same.accepted, same.fins, same.iss, same.sndUna, same.state, same.ended⟩ (by simpa using queue)
      inflight history nxt
  · obtain ⟨u, frame, eq⟩ := tcpQueueTransmitSkb_later k idle
    rw [eq]
    have invU := inv.frame frame
    refine invU.push (fun close => opened (frame.onward.close close)) unsent plain ?_
    rw [frame.sndNxt]
    exact positive

theorem tcpSendNext_fin (amount : Nat) (inv : FinInv slack owed s) (idle : s.tsk.inflight = 0)
    (enough : amount ≤ s.tsk.writeQueue.length) :
    FinInv slack owed { tcpSendNext s amount with
      tsk.inflight := (tcpSendNext s amount).tsk.inflight + amount } := by
  obtain ⟨after, run, left, sent⟩ := sendNextLoop_sent (s := s) amount s.tsk.writeQueue
  obtain ⟨_, _, _, same⟩ := tcpSendNext_touches s amount
  refine inv.send [] (s.tsk.writeQueue.take amount) (s.tsk.writeQueue.drop amount) (by simp) idle run
    ⟨same.accepted, same.fins, same.iss, same.sndUna, same.state,
      same.ended⟩ left ?_ sent rfl
  have inflight : (tcpSendNext s amount).tsk.inflight = s.tsk.inflight := same.inflight
  show (tcpSendNext s amount).tsk.inflight + amount = _
  rw [inflight, idle, List.length_take]
  omega

theorem retransmitHead_fin {k : SkBuff} (inv : FinInv slack owed s)
    (head : s.tsk.writeQueue.head? = some k) : FinInv slack owed (retransmitHead s k) := by
  have same := tcpTransmitSkb_same s k s.tsk.tcb.sndUna
  obtain ⟨rest, queue⟩ := List.head?_eq_some_iff.mp head
  set k' := (tcpTransmitSkb s k s.tsk.tcb.sndUna).2 with hk'
  have numbered : k'.numbered = k.numbered := rfl
  have queue' : (retransmitHead s k).tsk.writeQueue = k' :: rest := by
    simp only [retransmitHead, setHead, same.writeQueue, queue, List.tail_cons, hk']
  have else_ : SameElse s (retransmitHead s k) :=
    ⟨same.accepted, same.fins, same.iss, same.sndUna, same.state, same.ended⟩
  have nxt : (retransmitHead s k).tsk.tcb.sndNxt = s.tsk.tcb.sndNxt := same.sndNxt
  have sent : (retransmitHead s k).sent = s.sent := same.sent
  have replaced : ∀ {p : SkBuff → Prop}, (p k → p k') → (∀ j ∈ s.tsk.writeQueue, p j) →
      ∀ j ∈ k' :: rest, p j := by
    intro p carry all j member
    rw [queue] at all
    rcases List.mem_cons.mp member with rfl | later
    · exact carry (all k (by simp))
    · exact all j (by simp [later])
  constructor
  · rw [queue', show (retransmitHead s k).tsk.inflight = s.tsk.inflight from same.inflight,
      inv.counted, queue, List.countP_cons, List.countP_cons, numbered]
  · have span : unsentSpan (k' :: rest) = unsentSpan (k :: rest) := by
      simp only [unsentSpan, List.filter_cons, numbered]
      split <;> rfl
    rw [queue', nxt, else_.seqEnd, span, ← queue]
    exact inv.room
  · rw [else_.seqEnd]; exact inv.small
  · intro _
    rw [nxt]
    exact inv.positive (.inr (by simp [queue]))
  · rw [queue']
    exact replaced id inv.plain
  · rw [queue', sent]
    exact replaced id inv.flight
  · intro j member fin
    rw [sent] at member
    rw [nxt, else_.sndUna, queue']
    obtain ⟨below, covered | ⟨j', queued, rest'⟩⟩ := inv.sentFin j member fin
    · exact ⟨below, .inl covered⟩
    · rw [queue] at queued
      refine ⟨below, .inr ?_⟩
      rcases List.mem_cons.mp queued with rfl | later
      · exact ⟨k', by simp, rest'⟩
      · exact ⟨j', by simp [later], rest'⟩
  · rw [else_.fins, sent, queue', inv.fins, queue, List.countP_cons, List.countP_cons]
    rfl
  · rw [else_.state, else_.fins]; exact inv.early
  · rw [else_.awaiting, else_.fins]; exact inv.awaiting
  · rw [else_.state]
    intro close
    have none := (inv.closed close).1
    rw [queue] at none
    contradiction
  · rw [sent, nxt]; exact inv.last

theorem tcpSendReset_fin (inv : FinInv slack owed s) : FinInv slack owed (tcpSendReset s) := by
  unfold tcpSendReset
  dsimp only
  refine FinInv.frame ?_ (.of_minor (freeSkb_minor _ _))
  refine FinInv.frame ?_ (.of_minor (tcpTransmitSkb_minor _ _ _ rfl rfl rfl))
  have allocated := inv.frame (.of_minor (tcpAllocSkb_minor s 0 []))
  exact allocated.una _ fun k member fin _ => (allocated.sentFin k member fin).1

end HfIp
