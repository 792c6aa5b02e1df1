import HfIp.SequenceOrder

/- The accounts of the send side: `inflight` counts the buffers of the write queue that have a number,
   and first transmissions take up the numbers from `iss` to `snd_nxt` one after the other, unless the
   retransmission timer sends a buffer that has not been sent. -/
namespace HfIp

open Tiling

variable {s t : Conn}

/-! ### First transmissions -/

/- The timer handlers that send the head of the write queue. -/
def Resends (s : Conn) : Handler → Prop
  | .tcpConnectRto => s.tsk.state = .synSent ∧ s.tsk.backoff ≤ TCP_CONN_RETRIES
  | .tcpRetransmissionTimeout => True
  | _ => False

instance (s : Conn) (h : Handler) : Decidable (Resends s h) := by
  cases h <;> unfold Resends <;> infer_instance

/-- The buffer without a number that a timer sends, under `snd_una` and without giving it one. -/
def strayHead (s : Conn) : Event → Option SkBuff
  | .handler i => s.ts.threads[i]?.bind fun h =>
    if Resends s h.handler then s.tsk.writeQueue.head?.filter fun k => k.seq = 0 else none
  | _ => none

/- The ranges of the first transmissions in their order, and the buffers among those that have been
   sent by a timer before they had a number. -/
structure Firsts where
  ranges : List Range := []
  strays : List Nat := []

def noteFirsts (acc : Firsts) (s : Conn) (e : Event) (t : Conn) : Firsts :=
  let stray := (strayHead s e).toList
  let numbered := t.sent.drop s.sent.length
  { ranges := acc.ranges ++
      (stray.filter fun k => k.id ∉ acc.strays).map (fun k => ⟨s.tsk.tcb.sndUna.toNat, k.span⟩) ++
      (numbered.filter fun k => k.id ∉ acc.strays).map SkBuff.range
    strays := acc.strays ++ stray.map SkBuff.id }

/-- The ranges of all first transmissions of a run from a fresh socket, in the order they were made. -/
def firstRanges (trace : List (Event × Reply)) : List Range :=
  (Transition.account exec noteFirsts {} {} trace).ranges

structure Bookkeeping (firsts : List Range) (s : Conn) : Prop where
  counted : s.tsk.inflight = s.tsk.writeQueue.countP fun k => k.seq ≠ 0
  few : s.tsk.inflight ≤ 3
  tiles : Tiles s.tsk.tcb.iss.toNat firsts s.tsk.tcb.sndNxt.toNat

instance (firsts : List Range) (s : Conn) : Decidable (Bookkeeping firsts s) :=
  decidable_of_iff (s.tsk.inflight = s.tsk.writeQueue.countP (fun k => k.seq ≠ 0) ∧
    s.tsk.inflight ≤ 3 ∧ Tiles s.tsk.tcb.iss.toNat firsts s.tsk.tcb.sndNxt.toNat)
    ⟨fun ⟨counted, few, tiles⟩ => ⟨counted, few, tiles⟩,
      fun ⟨counted, few, tiles⟩ => ⟨counted, few, tiles⟩⟩

/- A connection is opened with a number other than 0. -/
def IssNonzero : Event → Prop
  | .connect _ _ iss => iss ≠ 0
  | _ => True

instance (e : Event) : Decidable (IssNonzero e) := by
  induction e using Event.casesOn <;> unfold IssNonzero <;> infer_instance

/-! ### A connection with the number 0 has not been opened -/

def Unopened (s : Conn) : Prop :=
  s.tsk.tcb.iss = 0 → s.tsk.state.sending = false ∧ s.tsk.writeQueue = []

theorem Unopened.keep (unopened : Unopened s) (iss : t.tsk.tcb.iss = s.tsk.tcb.iss)
    (sending : t.tsk.state.sending = true → s.tsk.state.sending = true)
    (queue : s.tsk.writeQueue = [] → t.tsk.writeQueue = []) : Unopened t := by
  intro zero
  obtain ⟨still, none⟩ := unopened (iss ▸ zero)
  refine ⟨?_, queue none⟩
  cases gone : t.tsk.state.sending with
  | false => rfl
  | true =>
    rw [sending gone] at still
    contradiction

theorem Unopened.frame (unopened : Unopened s) (h : SendFrame s t) : Unopened t :=
  unopened.keep h.iss h.onward.sending fun none => h.writeQueue.trans none

theorem Unopened.keeps (unopened : Unopened s) (h : SendKeeps s t) : Unopened t :=
  unopened.keep h.iss h.sending h.empty

theorem tcpWrite_unopened (buf : List UInt8) (unopened : Unopened s) :
    Unopened (tcpWrite s buf).1 := by
  intro zero
  rw [(tcpWrite_advances buf).iss] at zero
  obtain ⟨still, none⟩ := unopened zero
  have refused : (tcpWrite s buf).1 = s := by
    unfold tcpWrite
    split
    · rfl
    · split
      · rename_i at_state
        rw [at_state] at still
        contradiction
      · rename_i at_state
        rw [at_state] at still
        contradiction
      · rfl
  rw [refused]
  exact ⟨still, none⟩

theorem tcpClose_unopened (unopened : Unopened s) : Unopened (tcpClose s).1 := by
  intro zero
  rw [tcpClose_advances.iss] at zero
  obtain ⟨still, none⟩ := unopened zero
  have done : SendFrame s (tcpClose s).1 := by
    unfold tcpClose
    split
    iterate 6 exact .of_out rfl rfl rfl rfl
    iterate 3 exact tcpDone_send s
    · rename_i at_state
      rw [at_state] at still
      contradiction
    · rename_i at_state
      rw [at_state] at still
      contradiction
  exact unopened.frame done (done.iss ▸ zero)

theorem retransmitHead_unopened {k : SkBuff} (head : s.tsk.writeQueue.head? = some k)
    (unopened : Unopened s) : Unopened (retransmitHead s k) := by
  refine unopened.keep (retransmitHead_advances head).iss ?_ fun none => ?_
  · rw [(retransmitHead_stays s k).state]
    exact id
  · rw [none] at head
    contradiction

theorem tcpV4Connect_iss (s : Conn) (addr : SockAddr) (port : UInt16) (iss : UInt32)
    (closed : s.tsk.state = .close) : (tcpV4Connect s addr port iss).tsk.tcb.iss = iss := by
  unfold tcpV4Connect tcpConnect tcpSendSyn
  simp only [closed]
  rw [if_neg (by simp)]
  exact (tcpQueueTransmitSkb_else _ _).iss

theorem exec_unopened {e : Event} {r : Reply} (unopened : Unopened s) (nonzero : IssNonzero e)
    (taken : exec s e = some (t, r)) : Unopened t := by
  refine exec_rule (P := Unopened) (fun _ _ h kept => kept.frame h) ?free unopened taken ?write ?close
    ?connect ?segment ?handler ?reset
  case free =>
    intro u kept
    obtain ⟨freed, eq⟩ := socketFree_eq u
    rw [eq]
    exact kept.keep rfl id fun _ => rfl
  case write => exact fun buf _ _ locked => tcpWrite_unopened buf locked
  case close => exact fun _ _ locked => tcpClose_unopened locked
  case connect =>
    rintro addr port iss rfl _ closed _ zero
    have opened := tcpV4Connect_iss { socketWrAcquire s with tsk.err := -EISCONN } addr port iss
      closed
    exact absurd (opened.symm.trans zero) nonzero
  case segment => exact fun th payload _ _ locked => locked.keeps (tcpInputState_keeps th _)
  case handler =>
    intro i h _ _ _
    constructor
    · intro _ ts locked
      exact tcpConnectRto_rule (P := Unopened) (fun _ _ h kept => kept.frame h) locked
        fun u k _ _ head kept => retransmitHead_unopened head kept
    · intro _ ts locked
      exact tcpRetransmissionTimeout_rule (P := Unopened) (fun _ _ h kept => kept.frame h) locked
        (fun u k _ head kept => retransmitHead_unopened head kept)
        fun u kept => kept.keeps tcpHandleFinState_keeps
  case reset => exact fun _ u _ kept => kept.keeps tcpSendReset_keeps

/-! ### Runs -/

/- With a number other than 0 for the SYN, the buffers with a number are those with another than 0. -/
theorem countP_numbered (numbers : QueueNumbers s) (unopened : Unopened s) :
    s.tsk.writeQueue.countP SkBuff.numbered = s.tsk.writeQueue.countP fun k => k.seq ≠ 0 := by
  apply List.countP_congr
  intro k member
  simp only [SkBuff.numbered, Bool.or_eq_true, decide_eq_true_eq]
  constructor
  · rintro (numbered | syn)
    · exact numbered
    · rw [numbers.syn k member syn]
      intro zero
      rw [(unopened zero).2] at member
      contradiction
  · exact .inl

theorem noteFirsts_plain {e : Event} (plain : strayHead s e = none) (grows : s.sent <+: t.sent) :
    noteFirsts { ranges := s.sent.map SkBuff.range } s e t =
      { ranges := t.sent.map SkBuff.range } := by
  obtain ⟨more, eq⟩ := grows
  rw [← eq]
  simp [noteFirsts, plain, ← eq]

/-- The step takes numbers below 2^32, and not 0 for a SYN, and no timer in it sends a buffer that has
    no number. -/
def KeepsBooks (s : Conn) (e : Event) : Prop := SendFits s e ∧ IssNonzero e ∧ strayHead s e = none

instance (s : Conn) (e : Event) : Decidable (KeepsBooks s e) :=
  inferInstanceAs (Decidable (_ ∧ _ ∧ _))

/- In a run in which no timer sends a buffer without a number, first transmissions are numberings. -/
theorem run_firsts {trace : List (Event × Reply)}
    (run : Transition.Run exec (fun _ => KeepsBooks) {} trace s) :
    Transition.account exec noteFirsts {} {} trace = { ranges := s.sent.map SkBuff.range } := by
  induction run with
  | start => rfl
  | @next trace s t e r before ok taken ih =>
    have numbers := send_numbers (fun _ _ _ ok => ok.1) before
    rw [before.account_snoc taken, ih]
    exact noteFirsts_plain ok.2.2 (exec_reached numbers taken).logs.sent

theorem send_bookkeeping {trace : List (Event × Reply)}
    (run : Transition.Run exec (fun _ => KeepsBooks) {} trace s) (live : s.sock.skFreed = false) :
    Bookkeeping (firstRanges trace) s := by
  have numbers := send_numbers (fun _ _ _ ok => ok.1) run
  have unopened : Unopened s := by
    refine run.invariant_state (P := Unopened) (fun _ => ⟨rfl, rfl⟩) ?_
    exact fun _ _ _ _ _ kept ok taken => exec_unopened kept ok.2.1 taken
  have queue := numbers.queue live
  refine ⟨?_, queue.few, ?_⟩
  · rw [← countP_numbered queue unopened]
    exact queue.counted
  · rw [firstRanges, run_firsts run, numbers.next]
    exact numbers.tiles

/- Four writes and a close: three buffers go out behind the first when it is acknowledged. -/
theorem send_bookkeeping_flight : ∃ trace s,
    Transition.Run exec (fun _ => KeepsBooks) {} trace s ∧ s.tsk.inflight = 3 ∧
      Bookkeeping (firstRanges trace) s := by
  obtain ⟨trace, s, run, flight, live⟩ : ∃ trace s,
      Transition.Run exec (fun _ => KeepsBooks) {} trace s ∧ s.tsk.inflight = 3 ∧
        s.sock.skFreed = false :=
    Transition.Run.exists_of_follow (handshake ++ [.write [1], .write [2], .write [3], .write [4],
      .close, .segment (peerHdr 5001 1002) []]) (by decide +kernel)
  exact ⟨trace, s, run, flight, send_bookkeeping run live⟩

/-- The ACK of the first of two writes comes out of sequence while the timer's thread waits for the
    lock: the thread finds the second write at the head of the queue, not sent yet, and sends it under
    `snd_una`, which is `snd_nxt`. -/
theorem timer_sends_unsent : ∃ trace s,
    Transition.Run exec (fun _ s e => SendFits s e ∧ IssNonzero e) {} trace s ∧
      s.sock.skFreed = false ∧ s.ended = false ∧ ¬Bookkeeping (firstRanges trace) s := by
  exact Transition.Run.exists_of_trace (handshake ++ [.write [1], .write [2]] ++
    List.replicate 101 (.tick []) ++ [.segment (peerHdr 5002 1002) [], .handler 0])
    (by decide +kernel)

end HfIp
