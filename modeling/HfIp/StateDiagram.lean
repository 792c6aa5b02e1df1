import HfIp.TimeWait
import HfIp.CloseOnce
import HfIp.RttFrame
import HfIp.Sockets

/- The state diagram: the moves that each event makes a connection go through, one after the other. -/
namespace HfIp

open Transition

/-! ### The diagram -/

/- `finExpires` is what `tcp_handle_fin_state` does, and `ends` what `tcp_done` does. -/
inductive StateMove where
  | connects | synAck | syn | synAcked | closes | finAcked | fin | finExpires | reset | ends
  deriving DecidableEq, Repr

/-- The diagram as the code has it: `tcp_done` leads to CLOSING, also when a connection is closed before it is
    open, a reset leads to TIME_WAIT, and CLOSE_WAIT is left when the FIN has to be sent again, not when it is
    queued. The other moves are those of the standard. -/
def TcpState.along : TcpState → StateMove → Option TcpState
  | .close, .connects => some .synSent
  | .synSent, .synAck => some .established
  | .synSent, .syn => some .synReceived
  | .synReceived, .synAcked => some .established
  | .established, .closes => some .finWait1
  | .established, .fin => some .closeWait
  | .finWait1, .finAcked => some .finWait2
  | .finWait1, .fin => some .closing
  | .finWait2, .fin => some .timeWait
  | .closing, .finAcked => some .timeWait
  | .closeWait, .finExpires => some .lastAck
  | .close, .reset | .listen, .reset | .synSent, .reset => none
  | _, .reset => some .timeWait
  | _, .ends => some .closing
  | _, _ => none

def TcpState.walk (a : TcpState) (moves : List StateMove) : Option TcpState := moves.foldlM TcpState.along a

/- How far to the end of the diagram a state is; what is past the end stays there. -/
def TcpState.rank : TcpState → Nat
  | .close | .listen => 0
  | .synSent => 1
  | .synReceived => 2
  | .established => 3
  | .finWait1 | .closeWait => 4
  | .finWait2 | .lastAck => 5
  | .closing | .timeWait => 6

variable {a b : TcpState} {ms ns : List StateMove}

theorem TcpState.walk_append : a.walk (ms ++ ns) = (a.walk ms).bind (·.walk ns) :=
  List.foldlM_append

theorem TcpState.walk_one (m : StateMove) : a.walk [m] = a.along m := by
  cases next : a.along m <;> simp [walk, next]

theorem TcpState.along_rank (m : StateMove) (next : a.along m = some b) :
    a.rank < b.rank ∨ (a.rank = 6 ∧ b.rank = 6) := by
  revert next
  cases a <;> cases m <;> rintro ⟨⟩ <;> decide

theorem TcpState.walk_rank (walks : a.walk ms = some b) :
    (ms = [] ∧ b = a) ∨ a.rank < b.rank ∨ (a.rank = 6 ∧ b.rank = 6) := by
  induction ms generalizing a with
  | nil => exact .inl ⟨rfl, (Option.some.inj walks).symm⟩
  | cons m rest ih =>
    obtain ⟨c, next, walks⟩ := Option.bind_eq_some_iff.mp walks
    have first := along_rank m next
    rcases ih walks with ⟨-, rfl⟩ | later
    · exact .inr first
    · omega

/- A state that has been left is not entered again. -/
theorem TcpState.walk_back (walks : a.walk ms = some a) (going : ¬a.gone) : ms = [] := by
  rcases walk_rank walks with ⟨none, -⟩ | less | ⟨last, -⟩
  · exact none
  · exact absurd less (Nat.lt_irrefl _)
  · refine absurd ?_ going
    unfold gone
    revert last
    cases a <;> decide

theorem TcpState.along_ends : a.along .ends = some .closing := by cases a <;> rfl

/-! ### The moves of an event -/

def finMoves (s : Conn) (th : TcpHdr) : List StateMove :=
  if th.fin = true ∧ th.seq = s.tsk.tcb.rcvNxt then [.fin] else []

/- The ACK and the FIN of a segment that the checks before them let through. -/
def ackMoves (s : Conn) (th : TcpHdr) : List StateMove :=
  match s.tsk.state with
  | .synReceived =>
    if s.tsk.tcb.sndUna ≤ th.ackSeq ∧ th.ackSeq < s.tsk.tcb.sndNxt then .synAcked :: finMoves s th else []
  | .established | .finWait2 =>
    if s.tsk.tcb.sndUna ≤ th.ackSeq ∧ th.ackSeq ≤ s.tsk.tcb.sndNxt then finMoves s th else []
  | .finWait1 =>
    if s.tsk.tcb.sndUna ≤ th.ackSeq ∧ th.ackSeq ≤ s.tsk.tcb.sndNxt then
      (if AcksAll s th then [.finAcked] else []) ++ finMoves s th
    else []
  | .closing =>
    if s.tsk.tcb.sndUna ≤ th.ackSeq ∧ th.ackSeq ≤ s.tsk.tcb.sndNxt ∧ AcksAll s th then [.finAcked]
    else []
  | .lastAck =>
    if s.tsk.tcb.sndUna ≤ th.ackSeq ∧ th.ackSeq ≤ s.tsk.tcb.sndNxt ∧ AcksAll s th then [.ends] else []
  | _ => []

def segmentMoves (s : Conn) (th : TcpHdr) (skb : SkBuff) : List StateMove :=
  match s.tsk.state with
  | .close | .listen => []
  | .synSent =>
    if th.ack = true ∧ ¬(s.tsk.tcb.iss < th.ackSeq ∧ th.ackSeq ≤ s.tsk.tcb.sndNxt) then []
    else if th.rst then [.ends]
    else if !th.syn then []
    else if th.ack then [.synAck] else [.syn]
  | _ =>
    if !tcpVerifySegment s.tsk th skb then []
    else if th.rst then [.reset]
    else if th.syn || !th.ack then []
    else ackMoves s th

def handlerMoves (s : Conn) : Handler → List StateMove
  | .tcpConnectRto => if s.tsk.state = .synSent ∧ s.tsk.backoff > TCP_CONN_RETRIES then [.ends] else []
  | .tcpRetransmissionTimeout =>
    match s.tsk.writeQueue.head? with
    | none => []
    | some k =>
      if s.tsk.rto > 60000 then [.ends]
      else if k.th.fin = true ∧ s.tsk.state = .closeWait then [.finExpires] else []
  | .tcpLinger | .tcpUserTimeout => [.ends]
  | .tcpSendDelack | .socketGarbageCollect => []

/-- What the event makes of the state, from what it finds. -/
def eventMoves (s : Conn) : Event → List StateMove
  | .connect addr _ _ => if Dials s addr then [.connects] else []
  | .close =>
    match s.tsk.state with
    | .established => [.closes]
    | .listen | .synSent | .synReceived => [.ends]
    | _ => []
  | .abort => [.ends]
  | .segment th payload => segmentMoves s th (tcpInitSegment s th payload).2
  | .handler i => (s.ts.threads[i]?.map fun h => handlerMoves s h.handler).getD []
  | _ => []

/- The moves along a trace from `s`. -/
def movesAlong (s : Conn) (trace : List (Event × Reply)) : List StateMove :=
  account exec (fun ms u e _ => ms ++ eventMoves u e) [] s trace

/-- The state has gone along these moves, and `tcp_done` has run when it is among them. -/
structure Goes (ms : List StateMove) (s t : Conn) : Prop where
  state : s.tsk.state.walk ms = some t.tsk.state
  ended : Ended t ↔ Ended s ∨ .ends ∈ ms

variable {s t u : Conn} {th : TcpHdr} {skb : SkBuff}

namespace Goes

theorem stay (h : Stays s t) : Goes [] s t where
  state := congrArg some h.state.symm
  ended := by simp [Ended, h.ended]

theorem trans (first : Goes ms s t) (second : Goes ns t u) : Goes (ms ++ ns) s u where
  state := by
    rw [TcpState.walk_append, first.state]
    exact second.state
  ended := by rw [second.ended, first.ended, List.mem_append, or_assoc]

theorem before (second : Goes ms t u) (first : Stays s t) : Goes ms s u := (stay first).trans second

theorem after (first : Goes ms s t) (second : Stays t u) : Goes ms s u := by
  have both := first.trans (stay second)
  rw [List.append_nil] at both
  exact both

theorem done (s t : Conn) : Goes [.ends] s (tcpDone t) where
  state := by rw [TcpState.walk_one, TcpState.along_ends, tcpDone_state]
  ended := by simp [tcpDone_ended]

theorem one {m : StateMove} (along : s.tsk.state.along m = some t.tsk.state) (quiet : m ≠ .ends)
    (ended : t.ended = s.ended) : Goes [m] s t where
  state := by rw [TcpState.walk_one, along]
  ended := by simp [Ended, ended, quiet.symm]

end Goes

/-! ### Arriving segments -/

/- The eighth check: the FIN of a segment that was in sequence. -/
theorem Goes.fin (goes : Goes ms s u) (rcvNxt : u.tsk.tcb.rcvNxt = s.tsk.tcb.rcvNxt)
    (here : skb.seq = th.seq) (takes : u.tsk.state.along .fin =
      some (u.tsk.state.afterFin (skbQueueEmpty u.tsk.writeQueue))) :
    Goes (ms ++ finMoves s th) s (inputTail u th skb) := by
  obtain ⟨state, ended⟩ := inputTail_moves u th skb
  rw [here, rcvNxt] at state
  refine goes.trans ?_
  unfold finMoves
  split
  · rename_i next
    refine .one ?_ (by decide) ended
    rw [state, if_pos (by simpa using next)]
    exact takes
  · rename_i other
    refine .stay ⟨?_, ended⟩
    rw [state, if_neg (by simpa using other)]

theorem Goes.late (goes : Goes ms s u)
    (late : u.tsk.state.afterFin (skbQueueEmpty u.tsk.writeQueue) = u.tsk.state) :
    Goes ms s (inputTail u th skb) := by
  obtain ⟨state, ended⟩ := inputTail_moves u th skb
  refine goes.after ⟨?_, ended⟩
  rw [state, late, ite_self]

/- A connection in one of these states, with an ACK number that it takes. -/
theorem inputOtherwise_acked (here : skb.seq = th.seq) (takes : s.tsk.state.takesAck = true)
    (verified : tcpVerifySegment s.tsk th skb = true) (rst : th.rst = false) (syn : th.syn = false)
    (ack : th.ack = true)
    (window : s.tsk.tcb.sndUna ≤ th.ackSeq ∧ th.ackSeq ≤ s.tsk.tcb.sndNxt) :
    Goes (ackMoves s th) s (inputOtherwise s th skb) := by
  have valid : (inputAck s th).2 = true := by
    rw [inputAck_takes takes]
    exact (inputNewAck_snd s th).mpr window
  have same : Stays s (inputAck s th).1 := by
    rw [inputAck_takes takes]
    exact inputNewAck_stays s th
  have empties : skbQueueEmpty (inputAck s th).1.tsk.writeQueue = true ↔ AcksAll s th := by
    rw [← inputAck_empties takes]
    simp [skbQueueEmpty]
  have state : (inputFinAcked (inputAck s th).1 th).tsk.state =
      s.tsk.state.afterAck (skbQueueEmpty (inputAck s th).1.tsk.writeQueue) := by
    rw [inputFinAcked_moves, same.state]
  have ended : (inputFinAcked (inputAck s th).1 th).ended = s.ended :=
    (inputFinAcked_ended _ th).trans same.ended
  have rcvNxt : (inputFinAcked (inputAck s th).1 th).tsk.tcb.rcvNxt = s.tsk.tcb.rcvNxt :=
    inputFinAcked_rcvNxt.trans (inputAck_rcvNxt s th)
  have queue : (inputFinAcked (inputAck s th).1 th).tsk.writeQueue = (inputAck s th).1.tsk.writeQueue :=
    (inputFinAcked_send (inputAck s th).1 th).writeQueue
  have passes : (s.tsk.state = .lastAck → ¬AcksAll s th) →
      inputOtherwise s th skb = inputTail (inputFinAcked (inputAck s th).1 th) th skb := by
    intro left
    refine inputOtherwise_passes ⟨verified, rst, syn, ack, valid, fun last none => ?_⟩
    exact left (same.state.symm.trans last) ((inputAck_empties takes).mp none)
  have finAcked : s.tsk.state.along .finAcked = some (s.tsk.state.afterAck true) →
      s.tsk.state.afterAck false = s.tsk.state →
      Goes (if AcksAll s th then [.finAcked] else []) s (inputFinAcked (inputAck s th).1 th) := by
    intro along rests
    split
    · rename_i all
      rw [empties.mpr all] at state
      exact .one (state ▸ along) (by decide) ended
    · rename_i some_left
      rw [Bool.eq_false_iff.mpr fun none => some_left (empties.mp none)] at state
      exact .stay ⟨state.trans rests, ended⟩
  unfold ackMoves
  cases at_state : s.tsk.state with
  | established | finWait2 =>
    rw [passes (by rw [at_state]; rintro ⟨⟩)]
    rw [at_state] at state
    simp only [window, and_self, if_true]
    refine (Goes.stay ⟨state.trans at_state.symm, ended⟩).fin rcvNxt here ?_
    rw [state]
    rfl
  | finWait1 =>
    rw [passes (by rw [at_state]; rintro ⟨⟩)]
    simp only [window, and_self, if_true]
    rw [at_state] at finAcked state
    refine (finAcked rfl rfl).fin rcvNxt here ?_
    rw [state, queue]
    cases skbQueueEmpty (inputAck s th).1.tsk.writeQueue <;> rfl
  | closing =>
    rw [passes (by rw [at_state]; rintro ⟨⟩)]
    simp only [window, true_and]
    rw [at_state] at finAcked state
    refine (finAcked rfl rfl).late ?_
    rw [state, queue]
    cases skbQueueEmpty (inputAck s th).1.tsk.writeQueue <;> rfl
  | closeWait =>
    rw [passes (by rw [at_state]; rintro ⟨⟩)]
    rw [at_state] at state
    refine (Goes.stay ⟨state.trans at_state.symm, ended⟩).late ?_
    rw [state]
    rfl
  | lastAck =>
    simp only [window, true_and]
    split
    · rename_i all
      unfold inputOtherwise
      simp only [verified, rst, syn, ack, valid, Bool.not_true, Bool.false_eq_true, if_false]
      rw [if_pos ⟨same.state.trans at_state, empties.mpr all⟩]
      exact .done _ _
    · rename_i some_left
      rw [passes fun _ => some_left]
      rw [at_state] at state
      refine (Goes.stay ⟨state.trans at_state.symm, ended⟩).late ?_
      rw [state]
      rfl
  | _ =>
    rw [at_state] at takes
    cases takes

theorem ackMoves_outside (takes : s.tsk.state.takesAck = true)
    (outside : ¬(s.tsk.tcb.sndUna ≤ th.ackSeq ∧ th.ackSeq ≤ s.tsk.tcb.sndNxt)) : ackMoves s th = [] := by
  have all : ¬(s.tsk.tcb.sndUna ≤ th.ackSeq ∧ th.ackSeq ≤ s.tsk.tcb.sndNxt ∧ AcksAll s th) :=
    fun ⟨low, high, _⟩ => outside ⟨low, high⟩
  unfold ackMoves
  cases at_state : s.tsk.state with
  | established | finWait1 | finWait2 => exact if_neg outside
  | closing | lastAck => exact if_neg all
  | synReceived =>
    rw [at_state] at takes
    cases takes
  | close | listen | synSent | closeWait | timeWait => rfl

/- The fifth check and what follows. -/
theorem inputOtherwise_ack (here : skb.seq = th.seq) (checked : s.tsk.state.synchronizes = true)
    (verified : tcpVerifySegment s.tsk th skb = true) (rst : th.rst = false) (syn : th.syn = false)
    (ack : th.ack = true) : Goes (ackMoves s th) s (inputOtherwise s th skb) := by
  have dropped : (inputAck s th).2 = false →
      inputOtherwise s th skb = freeSkb (inputAck s th).1 skb := by
    intro refused
    unfold inputOtherwise
    simp [verified, rst, syn, ack, refused]
  by_cases takes : s.tsk.state.takesAck = true
  · by_cases window : s.tsk.tcb.sndUna ≤ th.ackSeq ∧ th.ackSeq ≤ s.tsk.tcb.sndNxt
    · exact inputOtherwise_acked here takes verified rst syn ack window
    · have refused : (inputAck s th).2 = false := by
        rw [inputAck_takes takes, ← Bool.not_eq_true, inputNewAck_snd]
        exact window
      rw [dropped refused, ackMoves_outside takes window, inputAck_takes takes]
      exact .stay ((inputNewAck_stays s th).trans (.of_minor (freeSkb_minor _ skb)))
  · cases at_state : s.tsk.state with
    | synReceived =>
      by_cases opens : s.tsk.tcb.sndUna ≤ th.ackSeq ∧ th.ackSeq < s.tsk.tcb.sndNxt
      · have same : inputAck s th = inputAck (setState s .established) th := by
          unfold inputAck
          simp only [at_state, opens, and_self, if_true, setState]
        have next : inputOtherwise s th skb = inputOtherwise (setState s .established) th skb := by
          have verified' : tcpVerifySegment (setState s .established).tsk th skb = true := verified
          unfold inputOtherwise
          rw [same]
          simp [verified, verified', rst, syn, ack]
        have moved : Goes [.synAcked] s (setState s .established) := by
          refine .one ?_ (by decide) rfl
          rw [at_state]
          rfl
        have rest := inputOtherwise_acked (s := setState s .established) here rfl verified rst syn ack
          ⟨opens.1, UInt32.le_of_lt opens.2⟩
        have moves : ackMoves s th = [.synAcked] ++ ackMoves (setState s .established) th := by
          unfold ackMoves
          rw [at_state]
          simp only [setState, opens, UInt32.le_of_lt opens.2, and_self, if_true]
          rfl
        rw [next, moves]
        exact moved.trans rest
      · have refused : inputAck s th = (s, false) := by
          unfold inputAck
          simp only [at_state]
          exact if_neg opens
        rw [dropped (congrArg Prod.snd refused), refused]
        unfold ackMoves
        rw [at_state]
        simp only [opens, if_false]
        exact .stay (.of_minor (freeSkb_minor s skb))
    | timeWait =>
      have valid : inputAck s th = (s, true) := by
        unfold inputAck
        simp only [at_state]
      have passes : Passes s th skb := by
        refine ⟨verified, rst, syn, ack, congrArg Prod.snd valid, fun last => ?_⟩
        rw [valid] at last
        cases at_state.symm.trans last
      have state : (inputFinAcked (inputAck s th).1 th).tsk.state = .timeWait := by
        rw [inputFinAcked_moves, valid, at_state]
        rfl
      rw [inputOtherwise_passes passes]
      unfold ackMoves
      simp only [at_state]
      refine (Goes.stay ⟨state.trans at_state.symm, ?_⟩).late (by rw [state]; rfl)
      rw [inputFinAcked_ended, valid]
    | close | listen | synSent =>
      rw [at_state] at checked
      cases checked
    | _ => exact absurd (by rw [at_state]; rfl) takes

theorem inputOtherwise_goes (here : skb.seq = th.seq) (checked : s.tsk.state.synchronizes = true) :
    Goes (segmentMoves s th skb) s (inputOtherwise s th skb) := by
  have free : ∀ u : Conn, Stays u (freeSkb u skb) := fun u => .of_minor (freeSkb_minor u skb)
  have moves : segmentMoves s th skb = if !tcpVerifySegment s.tsk th skb then []
      else if th.rst then [.reset] else if th.syn || !th.ack then [] else ackMoves s th := by
    unfold segmentMoves
    cases at_state : s.tsk.state <;> simp_all [TcpState.synchronizes]
  rw [moves]
  cases verified : tcpVerifySegment s.tsk th skb with
  | false =>
    have refused : inputOtherwise s th skb = freeSkb (if th.rst then s else tcpSendAck s) skb := by
      unfold inputOtherwise
      rw [verified]
      rfl
    rw [refused]
    refine .stay (Stays.trans ?_ (free _))
    split
    · exact .refl s
    · exact .of_minor (tcpSendAck_minor s)
  | true =>
    cases rst : th.rst with
    | true =>
      have reset : inputOtherwise s th skb = recvNotify (tcpEnterTimeWait (freeSkb s skb)) := by
        unfold inputOtherwise
        simp [verified, rst]
      have waits : Goes [.reset] (freeSkb s skb) (tcpEnterTimeWait (freeSkb s skb)) := by
        refine .one ?_ (by decide) rfl
        rw [(free s).state]
        revert checked
        cases s.tsk.state <;> rintro ⟨⟩ <;> rfl
      rw [reset]
      exact (waits.before (free s)).after (.of_minor (recvNotify_minor _))
    | false =>
      cases ignored : th.syn || !th.ack with
      | true =>
        have dropped : inputOtherwise s th skb = freeSkb s skb := by
          unfold inputOtherwise
          cases syn : th.syn <;> simp_all
        rw [dropped]
        exact .stay (free s)
      | false =>
        obtain ⟨syn, ack⟩ : th.syn = false ∧ th.ack = true := by simpa using ignored
        exact inputOtherwise_ack here checked verified rst syn ack

theorem synsentAck_una (s : Conn) (th : TcpHdr) :
    (synsentAck s th).tsk.tcb.sndUna = (if th.ack then th.ackSeq else s.tsk.tcb.sndUna) ∧
      (synsentAck s th).tsk.tcb.iss = s.tsk.tcb.iss := by
  unfold synsentAck
  dsimp only
  split
  · obtain ⟨_, _, _, _, _, eq⟩ := tcpCleanRtoQueue_touches
      { s with tsk.tcb.rcvNxt := th.seq + 1, tsk.tcb.irs := th.seq, tsk.tcb.sndUna := th.ackSeq } th.ackSeq
    rw [eq]
    exact ⟨rfl, rfl⟩
  · exact ⟨rfl, rfl⟩

theorem synsentSyn_goes (waiting : s.tsk.state = .synSent) (opening : s.tsk.tcb.sndUna = s.tsk.tcb.iss)
    (acked : th.ack = true → s.tsk.tcb.iss < th.ackSeq) :
    Goes (if th.ack then [.synAck] else [.syn]) s (synsentSyn s th) := by
  have stays := synsentAck_stays s th
  obtain ⟨una, iss⟩ := synsentAck_una s th
  unfold synsentSyn
  generalize synsentAck s th = u at stays una iss
  dsimp only
  rw [una, iss]
  cases ack : th.ack with
  | true =>
    simp only [if_true]
    rw [if_pos (acked ack)]
    obtain ⟨state, ended⟩ := synsentEstablish_state u th
    refine .one ?_ (by decide) (ended.trans stays.ended)
    rw [waiting, state]
    rfl
  | false =>
    simp only [Bool.false_eq_true, if_false]
    rw [opening, if_neg (UInt32.lt_irrefl _), tcpSendSynack_minor _ (by simp [setState])]
    refine .one ?_ (by decide) stays.ended
    rw [waiting]
    rfl

theorem tcpSynsent_goes (waiting : s.tsk.state = .synSent) (opening : s.tsk.tcb.sndUna = s.tsk.tcb.iss) :
    Goes (segmentMoves s th skb) s (tcpSynsent s skb th) := by
  have free : ∀ u : Conn, Stays u (freeSkb u skb) := fun u => .of_minor (freeSkb_minor u skb)
  have window : (th.ack = true ∧ (th.ackSeq ≤ s.tsk.tcb.iss ∨ th.ackSeq > s.tsk.tcb.sndNxt)) ↔
      (th.ack = true ∧ ¬(s.tsk.tcb.iss < th.ackSeq ∧ th.ackSeq ≤ s.tsk.tcb.sndNxt)) := by
    rw [not_and_or, UInt32.not_lt, UInt32.not_le]
  unfold segmentMoves tcpSynsent
  simp only [waiting]
  rw [opening]
  by_cases outside : th.ack = true ∧ ¬(s.tsk.tcb.iss < th.ackSeq ∧ th.ackSeq ≤ s.tsk.tcb.sndNxt)
  · rw [if_pos outside, if_pos (window.mpr outside)]
    exact .stay (free s)
  · have inside : ¬(th.ack = true ∧ (th.ackSeq < s.tsk.tcb.iss ∨ th.ackSeq > s.tsk.tcb.sndNxt)) := by
      rintro ⟨ack, low | high⟩
      · exact outside (window.mp ⟨ack, .inl (UInt32.le_of_lt low)⟩)
      · exact outside (window.mp ⟨ack, .inr high⟩)
    rw [if_neg outside, if_neg (window.not.mpr outside), if_neg inside]
    split
    · unfold tcpReset
      simp only [waiting]
      exact (Goes.done _ _).after (free _)
    · split
      · exact .stay (free s)
      · refine Goes.after (synsentSyn_goes waiting opening fun ack => ?_) (free _)
        by_contra low
        exact outside ⟨ack, fun both => low both.1⟩

theorem tcpInputState_goes (here : skb.seq = th.seq)
    (opening : s.tsk.state = .synSent → s.tsk.tcb.sndUna = s.tsk.tcb.iss) :
    Goes (segmentMoves s th skb) s (tcpInputState s th skb) := by
  by_cases checked : s.tsk.state.synchronizes = true
  · rw [tcpInputState_checked checked]
    exact inputOtherwise_goes here checked
  · unfold tcpInputState
    cases at_state : s.tsk.state with
    | close =>
      unfold segmentMoves tcpClosed
      simp only [at_state]
      split
      · exact .stay (.of_minor (freeSkb_minor s skb))
      · exact .stay ((tcpSendReset_stays s).trans (.of_minor (freeSkb_minor _ skb)))
    | listen =>
      unfold segmentMoves
      simp only [at_state]
      exact .stay (.of_minor (freeSkb_minor s skb))
    | synSent => exact tcpSynsent_goes at_state (opening at_state)
    | _ => exact absurd (by rw [at_state]; rfl) checked

/-! ### Timers -/

theorem tcpConnectRto_goes : Goes (handlerMoves s .tcpConnectRto) s (tcpConnectRto s) := by
  unfold handlerMoves tcpConnectRto
  dsimp only
  have released : Stays s (tcpReleaseRtoTimer s) := ⟨rfl, rfl⟩
  rw [show (tcpReleaseRtoTimer s).tsk.state = s.tsk.state from rfl,
    show (tcpReleaseRtoTimer s).tsk.backoff = s.tsk.backoff from rfl]
  by_cases waiting : s.tsk.state = .synSent
  · by_cases last : s.tsk.backoff > TCP_CONN_RETRIES
    · rw [if_pos ⟨waiting, last⟩, if_pos waiting, if_pos last]
      exact .done _ _
    · rw [if_neg fun both => last both.2, if_pos waiting, if_neg last]
      split
      · exact .stay released
      · refine .stay (released.trans (Stays.trans ?_ (tcpRearmRtoTimer_stays _)))
        exact (retransmitHead_stays _ _).trans ⟨rfl, rfl⟩
  · rw [if_neg fun both => waiting both.1, if_neg waiting]
    exact .stay released

theorem tcpRetransmissionTimeout_goes (plain : s.tsk.state = .established → NoFin s.tsk.writeQueue) :
    Goes (handlerMoves s .tcpRetransmissionTimeout) s (tcpRetransmissionTimeout s) := by
  unfold handlerMoves tcpRetransmissionTimeout
  dsimp only
  have released : Stays s (tcpReleaseRtoTimer s) := ⟨rfl, rfl⟩
  rw [show (tcpReleaseRtoTimer s).tsk.writeQueue = s.tsk.writeQueue from rfl]
  cases head : s.tsk.writeQueue.head? with
  | none =>
    simp only [skbPeek, head]
    exact .stay (released.trans ((Stays.of_minor (tcpNotifyUser_minor _)).after ⟨rfl, rfl⟩))
  | some k =>
    simp only [skbPeek, head]
    have again := released.trans (retransmitHead_stays (tcpReleaseRtoTimer s) k)
    have same : (retransmitHead (tcpReleaseRtoTimer s) k).tsk.rto = s.tsk.rto := by
      obtain ⟨_, same⟩ := retransmitHead_touches (tcpReleaseRtoTimer s) k
      exact same.rto
    rw [same]
    by_cases late : s.tsk.rto > 60000
    · rw [if_pos late, if_pos late]
      exact (Goes.done _ _).after ⟨rfl, rfl⟩
    · rw [if_neg late, if_neg late]
      have backed : Stays s (retransmissionBackoff (retransmitHead (tcpReleaseRtoTimer s) k)) :=
        again.trans ⟨rfl, rfl⟩
      generalize retransmissionBackoff (retransmitHead (tcpReleaseRtoTimer s) k) = u at backed
      cases fin : k.th.fin with
      | false =>
        simp only [Bool.false_eq_true, false_and, if_false]
        exact .stay backed
      | true =>
        simp only [true_and, if_true]
        by_cases waits : s.tsk.state = .closeWait
        · have last : tcpHandleFinState u = setState u .lastAck := by
            unfold tcpHandleFinState
            rw [backed.state.trans waits]
          rw [if_pos waits, last]
          refine .one ?_ (by decide) backed.ended
          rw [waits]
          rfl
        · have left : tcpHandleFinState u = u := by
            unfold tcpHandleFinState
            split
            · rename_i there
              exact absurd (backed.state.symm.trans there) waits
            · rename_i opened
              have none := plain (backed.state.symm.trans opened) k (List.mem_of_mem_head? head)
              rw [fin] at none
              cases none
            · rfl
          rw [if_neg waits, left]
          exact .stay backed

theorem runHandler_goes (plain : s.tsk.state = .established → NoFin s.tsk.writeQueue) (h : Handler) :
    Goes (handlerMoves s h) s (runHandler s h) := by
  have locked : Stays s (socketWrAcquire s) := ⟨rfl, rfl⟩
  have unlocked : ∀ u : Conn, Stays u (socketRelease u) := fun u => .of_minor (socketRelease_minor u)
  cases h with
  | tcpConnectRto =>
    exact ((tcpConnectRto_goes (s := socketWrAcquire s)).before locked).after (unlocked _)
  | tcpRetransmissionTimeout =>
    exact ((tcpRetransmissionTimeout_goes (s := socketWrAcquire s) plain).before locked).after (unlocked _)
  | tcpSendDelack =>
    refine .stay (locked.trans (Stays.trans ?_ (unlocked _)))
    unfold tcpSendDelack
    exact (Stays.of_minor (tcpSendAck_minor _)).after ⟨rfl, rfl⟩
  | tcpLinger | tcpUserTimeout => exact (Goes.done _ _).after (unlocked _)
  | socketGarbageCollect =>
    refine .stay ?_
    unfold runHandler socketGarbageCollect
    dsimp only
    split
    · obtain ⟨_, freed⟩ := socketFree_eq s
      rw [freed]
      exact ⟨rfl, rfl⟩
    · exact .refl s

/-! ### Calls -/

theorem tcpClose_goes : Goes (eventMoves s .close) s (tcpClose s).1 := by
  generalize named : eventMoves s .close = ms
  unfold eventMoves at named
  unfold tcpClose
  split
  iterate 6
    rename_i at_state
    rw [at_state] at named
    exact named ▸ .stay ⟨rfl, rfl⟩
  iterate 3
    rename_i at_state
    rw [at_state] at named
    exact named ▸ .done _ _
  · rename_i at_state
    rw [at_state] at named
    have moved : Goes [.closes] s (setState s .finWait1) := by
      refine .one ?_ (by decide) rfl
      rw [at_state]
      rfl
    exact named ▸ moved.after (tcpQueueFin_stays _)
  · rename_i at_state
    rw [at_state] at named
    exact named ▸ .stay (tcpQueueFin_stays s)

theorem connectReturn_stays (q : Conn × Option Int) : Stays q.1 (connectReturn q).1 := by
  obtain ⟨u, rc⟩ := q
  cases rc with
  | none => exact .refl u
  | some rc =>
    unfold connectReturn
    dsimp only
    split
    · obtain ⟨_, freed⟩ := socketFree_eq (socketRelease u)
      rw [freed]
      exact ⟨rfl, rfl⟩
    · exact ⟨rfl, rfl⟩

theorem inetStreamConnect_goes (addr : SockAddr) (port : UInt16) (iss : UInt32)
    (registered : s.sock.registered = true) :
    Goes (eventMoves s (.connect addr port iss)) s
      (inetStreamConnect (socketWrAcquire s) addr port iss).1 := by
  generalize named : eventMoves s (.connect addr port iss) = ms
  have refused : ∀ u, ¬Dials s addr → Stays s u → Goes ms s u := by
    intro u other stays
    obtain rfl : [] = ms := (if_neg other).symm.trans named
    exact .stay stays
  unfold inetStreamConnect
  split
  · rename_i short
    exact refused _ (fun ⟨_, long, _⟩ => absurd short (Nat.not_lt.mpr long)) ⟨rfl, rfl⟩
  · rename_i long
    split
    · rename_i unspec
      exact refused _ (fun ⟨_, _, family, _⟩ => family unspec) ⟨rfl, rfl⟩
    · rename_i family
      split
      iterate 2
        rename_i at_state
        exact refused _ (fun ⟨_, _, _, free, _⟩ => by cases at_state.symm.trans free) ⟨rfl, rfl⟩
      · rename_i at_state
        split
        · rename_i opened
          exact refused _ (fun ⟨_, _, _, _, closed⟩ => opened closed) ⟨rfl, rfl⟩
        · rename_i closed
          replace closed : s.tsk.state = .close := Decidable.not_not.mp closed
          obtain rfl : [.connects] = ms :=
            (if_pos ⟨registered, Nat.not_lt.mp long, family, at_state, closed⟩).symm.trans named
          obtain ⟨state, ended⟩ :=
            tcpV4Connect_state { socketWrAcquire s with tsk.err := -EISCONN } addr port iss closed
          have dialled : Goes [.connects] s
              (tcpV4Connect { socketWrAcquire s with tsk.err := -EISCONN } addr port iss) := by
            refine .one ?_ (by decide) ended
            rw [closed, state]
            rfl
          dsimp only
          split
          · exact dialled.after ⟨rfl, rfl⟩
          · exact dialled.after ((connectWait_parked _).1.1.stays.after ⟨rfl, rfl⟩)
      · rename_i other
        exact refused _ (fun ⟨_, _, _, free, _⟩ => other free) ⟨rfl, rfl⟩

/-! ### What is known of the states that are reached -/

/- In SYN_SENT nothing has been acknowledged. -/
def AtIss (s : Conn) : Prop := s.tsk.state = .synSent → s.tsk.tcb.sndUna = s.tsk.tcb.iss

theorem AtIss.keep (start : AtIss s) (state : t.tsk.state = .synSent → s.tsk.state = .synSent)
    (view : sendView t = sendView s) : AtIss t := by
  intro waiting
  have una : t.tsk.tcb.sndUna = s.tsk.tcb.sndUna := congrArg SendView.sndUna view
  have iss : t.tsk.tcb.iss = s.tsk.tcb.iss := congrArg SendView.iss view
  rw [una, iss]
  exact start (state waiting)

theorem AtIss.frame (start : AtIss s) (frame : RttFrame s t) : AtIss t :=
  start.keep frame.text.synSent frame.send.view

theorem AtIss.left (state : t.tsk.state ≠ .synSent) : AtIss t := fun waiting => absurd waiting state

theorem TcpState.leadsTo_synSent : ∀ {f : Bool} {a : TcpState}, a.leadsTo f .synSent = true →
    a = .close ∨ a = .synSent := by
  decide

theorem tcpInputState_atIss (start : AtIss s) : AtIss (tcpInputState s th skb) := by
  have free : ∀ {u : Conn}, AtIss u → AtIss (freeSkb u skb) := fun held => held.frame (freeSkb_rtt _ skb)
  intro waiting
  have before := (tcpInputState_leads s false th skb).state
  rw [waiting] at before
  rcases TcpState.leadsTo_synSent before with at_state | at_state
  · have closed : (tcpInputState s th skb).tsk.state = s.tsk.state := by
      unfold tcpInputState tcpClosed
      rw [at_state]
      dsimp only
      split
      · exact (freeSkb_minor s skb).same.state.trans at_state
      · exact (freeSkb_minor _ skb).same.state.trans ((tcpSendReset_stays s).state.trans at_state)
    rw [waiting, at_state] at closed
    cases closed
  · have form : tcpInputState s th skb = tcpSynsent s skb th := by
      unfold tcpInputState
      rw [at_state]
    have held : AtIss (tcpSynsent s skb th) := by
      refine tcpSynsent_cases (free start) (fun _ _ => free (.left ?_)) fun _ => free (.left ?_)
      · unfold tcpReset
        simp only [at_state]
        rw [tcpDone_state]
        decide
      · rcases (synsentSyn_state s th).1 with opened | opened <;> rw [opened] <;> decide
    rw [form] at waiting ⊢
    exact held waiting

theorem retransmitHead_atIss (k : SkBuff) (start : AtIss s) : AtIss (retransmitHead s k) := by
  intro waiting
  obtain ⟨_, same⟩ := retransmitHead_touches s k
  rw [same.tcb]
  exact start (same.state.symm.trans waiting)

theorem tcpDone_atIss : AtIss (tcpDone s) := by
  refine .left ?_
  rw [tcpDone_state]
  decide

theorem tcpConnectRto_atIss (start : AtIss s) : AtIss (tcpConnectRto s) := by
  unfold tcpConnectRto
  dsimp only
  split
  · split
    · exact tcpDone_atIss
    · split
      · exact start
      · rename_i k _
        have again : AtIss (retransmitHead (tcpReleaseRtoTimer s) k) :=
          retransmitHead_atIss k (start : AtIss (tcpReleaseRtoTimer s))
        have counted : AtIss { retransmitHead (tcpReleaseRtoTimer s) k with
          tsk.backoff := (retransmitHead (tcpReleaseRtoTimer s) k).tsk.backoff + 1 } := again
        exact counted.keep (fun waiting => (tcpRearmRtoTimer_stays _).state.symm.trans waiting)
          (tcpRearmRtoTimer_send _).view
  · exact start

theorem tcpRetransmissionTimeout_atIss (start : AtIss s) : AtIss (tcpRetransmissionTimeout s) := by
  unfold tcpRetransmissionTimeout
  dsimp only
  split
  · have idle : AtIss { tcpReleaseRtoTimer s with tsk.backoff := 0 } := start
    have notified := SendFrame.of_minor (tcpNotifyUser_minor { tcpReleaseRtoTimer s with tsk.backoff := 0 })
    exact idle.keep (fun waiting => (tcpNotifyUser_minor _).same.state.symm.trans waiting) notified.view
  · rename_i k _
    have again : AtIss (retransmitHead (tcpReleaseRtoTimer s) k) :=
      retransmitHead_atIss k (start : AtIss (tcpReleaseRtoTimer s))
    split
    · exact tcpDone_atIss (s := retransmitHead (tcpReleaseRtoTimer s) k)
    · split
      · unfold tcpHandleFinState
        split
        · exact .left fun waiting => by cases waiting
        · exact .left fun waiting => by cases waiting
        · exact again
      · exact again

theorem runHandler_atIss (h : Handler) (start : AtIss s) : AtIss (runHandler s h) := by
  cases h with
  | tcpConnectRto => exact tcpConnectRto_atIss (s := socketWrAcquire s) start
  | tcpRetransmissionTimeout => exact tcpRetransmissionTimeout_atIss (s := socketWrAcquire s) start
  | tcpSendDelack =>
    exact AtIss.frame (s := socketWrAcquire s) start
      ((tcpSendDelack_rtt _).trans (.of_still (socketRelease_still _)))
  | tcpLinger | tcpUserTimeout => exact tcpDone_atIss (s := _)
  | socketGarbageCollect =>
    unfold runHandler socketGarbageCollect
    dsimp only
    split
    · obtain ⟨_, freed⟩ := socketFree_eq s
      rw [freed]
      exact start
    · exact start

theorem tcpClose_atIss (start : AtIss s) : AtIss (tcpClose s).1 := by
  unfold tcpClose
  split
  iterate 6 exact start
  iterate 3 exact tcpDone_atIss
  · refine .left fun waiting => ?_
    cases (tcpQueueFin_stays _).state.symm.trans waiting
  · rename_i at_state
    refine .left ?_
    rw [(tcpQueueFin_stays s).state, at_state]
    decide

/- The SYN is queued under the number that is `snd_una`. -/
theorem tcpV4Connect_atIss (addr : SockAddr) (port : UInt16) (iss : UInt32)
    (closed : s.tsk.state = .close) : AtIss (tcpV4Connect s addr port iss) := by
  intro _
  unfold tcpV4Connect tcpConnect tcpSendSyn
  simp only [closed]
  rw [if_neg (by simp)]
  obtain ⟨_, _, _, _, _, _, same⟩ := tcpQueueTransmitSkb_touches (setState _ _) _
  exact same.sndUna.trans same.iss.symm

theorem exec_atIss {e : Event} {r : Reply} (start : AtIss s) (taken : exec s e = some (t, r)) :
    AtIss t := by
  refine exec_still (P := AtIss) ?_ start taken ?_ ?_ ?_ ?_ ?_ ?_ ?_ ?_ ?_ ?_
  · exact fun u v still held => held.frame (.of_still still)
  · intro _ u held
    obtain ⟨_, freed⟩ := socketFree_eq u
    rw [freed]
    exact held
  · exact fun _ _ => start
  · exact fun i h _ _ _ => runHandler_atIss h.handler (start : AtIss (started s i))
  · intro buf _ _ held waiting
    have before := (tcpWrite_stays (socketWrAcquire s) buf).state.symm.trans waiting
    revert waiting
    unfold tcpWrite
    rw [before]
    split <;> exact held
  · exact fun len _ _ held => held.frame (tcpRead_rtt _ len)
  · exact fun i b _ _ _ held => held.frame (receiveLoop_rtt _ _ _)
  · intro _ _ held
    refine tcpClose_atIss held
  · exact fun _ _ => tcpDone_atIss
  · exact fun addr port iss _ _ closed _ => tcpV4Connect_atIss addr port iss closed
  · exact fun th payload _ _ held => tcpInputState_atIss held

/- And a FIN is queued only when the connection is closed. -/
structure DiagramInv (s : Conn) : Prop where
  opening : AtIss s
  plain : s.fins = 0 → CloseInv s
  closed : 0 < s.fins → s.tsk.state.committed = true

theorem DiagramInv.opened (inv : DiagramInv s) (opened : s.tsk.state = .established) :
    NoFin s.tsk.writeQueue := by
  have none : s.fins = 0 := by
    refine Nat.eq_zero_of_not_pos fun some => ?_
    have closed := inv.closed some
    rw [opened] at closed
    cases closed
  cases (inv.plain none).ends with
  | opened _ queue _ => exact queue
  | waiting _ _ one => rw [none] at one; cases one
  | done one => rw [none] at one; cases one

/-! ### Events -/

theorem exec_goes {e : Event} {r : Reply} (inv : DiagramInv s) (taken : exec s e = some (t, r)) :
    Goes (eventMoves s e) s t := by
  have locked : Stays s (socketWrAcquire s) := ⟨rfl, rfl⟩
  have unlocked : ∀ u : Conn, Stays u (socketRelease u) := fun u => .of_minor (socketRelease_minor u)
  cases e with
  | connect addr port iss =>
    simp only [exec] at taken
    split at taken
    · rename_i registered
      have goes := (inetStreamConnect_goes addr port iss registered).after (connectReturn_stays _)
      rw [Option.some.inj taken] at goes
      exact goes
    · contradiction
  | close =>
    simp only [exec, call] at taken
    split at taken
    · obtain ⟨rfl, -⟩ := by simpa using taken
      exact ((tcpClose_goes (s := socketWrAcquire s)).before locked).after (unlocked _)
    · contradiction
  | abort =>
    simp only [exec] at taken
    split at taken
    · obtain ⟨rfl, -⟩ := by simpa using taken
      exact .done _ _
    · contradiction
  | segment th payload =>
    obtain ⟨-, -, -, rfl⟩ := exec_segment_taken taken
    have arrived : Stays s (arriving s th payload) := ⟨rfl, rfl⟩
    have here : (tcpInitSegment s th payload).2.seq = th.seq := rfl
    have goes := tcpInputState_goes (s := arriving s th payload) here inv.opening
    exact (goes.before arrived).after (unlocked _)
  | handler i =>
    obtain ⟨h, found, -, rfl⟩ := exec_handler_taken taken
    have moves : eventMoves s (.handler i) = handlerMoves s h.handler := by
      simp [eventMoves, found]
    rw [moves]
    have ready : Stays s (started s i) := ⟨rfl, rfl⟩
    exact (runHandler_goes (s := started s i) inv.opened h.handler).before ready
  | _ =>
    refine .stay (exec_still (P := Stays s) (fun u v still stays => stays.trans still.1.1.stays) (.refl s)
      taken ?_ ?_ ?_ ?_ ?_ ?_ ?_ ?_ ?_ ?_)
    · intro _ u stays
      obtain ⟨_, freed⟩ := socketFree_eq u
      rw [freed]
      exact stays.trans ⟨rfl, rfl⟩
    · exact fun _ _ => ⟨rfl, rfl⟩
    · rintro i h ⟨⟩
    · exact fun buf _ _ stays => stays.trans (tcpWrite_stays _ buf)
    · exact fun len _ _ stays => stays.trans (tcpRead_stays _ len)
    · exact fun i b _ _ _ stays => stays.trans (receiveLoop_stays _ _ _)
    · rintro ⟨⟩
    · rintro ⟨⟩
    · rintro addr port iss ⟨⟩
    · rintro th payload ⟨⟩

theorem exec_diagramInv {e : Event} {r : Reply} (inv : DiagramInv s) (taken : exec s e = some (t, r)) :
    DiagramInv t := by
  have fins := exec_fins taken
  refine ⟨exec_atIss inv.opening taken, fun none => ?_, fun some => ?_⟩
  · have before : s.fins = 0 := by split at fins <;> omega
    refine exec_close (inv.plain before) (fun _ => before) ?_ taken
    cases e with
    | write | close => exact fun _ => before
    | _ => trivial
  · split at fins
    · exact fins.2.2
    · rw [fins] at some
      exact TcpState.committed_leads (inv.closed some) (exec_moves s taken)

/-! ### Runs -/

theorem run_diagramInv {trace : List (Event × Reply)} (run : Run exec (fun _ _ _ => True) {} trace s) :
    DiagramInv s := by
  have nothing : NoFin [] := fun _ member => by cases member
  have start : DiagramInv {} := by
    refine ⟨fun waiting => ?_, fun _ => ⟨by decide, .opened rfl nothing nothing⟩, fun some => ?_⟩
    · cases waiting
    · cases some
  refine run.invariant_state start ?_
  exact fun _ _ _ _ _ inv _ taken => exec_diagramInv inv taken

/-- From any state that is reached, each event makes exactly its moves of the diagram. `tcp_done` has run when
    one of them is `ends`, and a state that has been left, CLOSING and TIME_WAIT aside, is not entered again. -/
theorem follows_diagram {before trace : List (Event × Reply)}
    (run : Run exec (fun _ _ _ => True) {} before s) (later : Run exec (fun _ _ _ => True) s trace t) :
    s.tsk.state.walk (movesAlong s trace) = some t.tsk.state ∧
      (Ended t ↔ Ended s ∨ .ends ∈ movesAlong s trace) ∧
      (t.tsk.state = s.tsk.state → ¬s.tsk.state.gone → movesAlong s trace = []) := by
  have goes : DiagramInv t ∧ Goes (movesAlong s trace) s t := by
    induction later with
    | start => exact ⟨run_diagramInv run, .stay (.refl s)⟩
    | @next trace u t e r earlier _ taken ih =>
      obtain ⟨inv, goes⟩ := ih
      have counted : movesAlong s (trace ++ [(e, r)]) = movesAlong s trace ++ eventMoves u e :=
        earlier.account_snoc taken
      rw [counted]
      exact ⟨exec_diagramInv inv taken, goes.trans (exec_goes inv taken)⟩
  obtain ⟨-, state, ended⟩ := goes
  refine ⟨state, ended, fun same going => ?_⟩
  rw [same] at state
  exact TcpState.walk_back state going

/- An active close, the other end's FIN in answer, and an abort in TIME_WAIT. -/
theorem follows_diagram_active : ∃ trace t,
    Run exec (fun _ _ _ => True) {} trace t ∧
      movesAlong {} trace = [.connects, .synAck, .closes, .finAcked, .fin, .ends] ∧
      (TcpState.close.walk (movesAlong {} trace) = some t.tsk.state ∧
        (Ended t ↔ Ended {} ∨ .ends ∈ movesAlong {} trace) ∧
        (t.tsk.state = .close → ¬TcpState.close.gone → movesAlong {} trace = [])) := by
  obtain ⟨⟨trace, t⟩, followed, moves⟩ : ∃ q ∈ follow exec (fun _ _ _ => True) [] {}
      (handshake ++ [.close, .segment (peerHdr 5001 1002) [],
        .segment { peerHdr 5001 1002 with fin := true } [], .abort]),
      movesAlong {} q.1 = [.connects, .synAck, .closes, .finAcked, .fin, .ends] := by
    decide
  have run := Run.of_follow _ .start followed
  exact ⟨trace, t, run, moves, follows_diagram .start run⟩

end HfIp
