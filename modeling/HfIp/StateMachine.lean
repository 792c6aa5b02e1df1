import Mathlib.Data.Fintype.Basic
import HfIp.SendTimer

/- The states a connection can come to from each state, whatever the event. -/
namespace HfIp

instance : Fintype TcpState where
  elems := {.listen, .synSent, .synReceived, .established, .finWait1, .finWait2, .close,
    .closeWait, .closing, .lastAck, .timeWait}
  complete a := by cases a <;> decide

/- `finTimeout` says whether the timer of a FIN at the head of the write queue may expire: it is
   what leads from CLOSE_WAIT to LAST_ACK. -/
def TcpState.leadsTo (finTimeout : Bool) (a b : TcpState) : Bool :=
  a = b || b = .closing || b = .timeWait ||
  match a with
  | .close => b ≠ .listen
  | .synSent => b ∉ [.close, .listen]
  | .synReceived => b ∉ [.close, .listen, .synSent]
  | .established => b ∈ [.finWait1, .finWait2, .closeWait, .lastAck]
  | .finWait1 => b = .finWait2
  | .closeWait => finTimeout && b = .lastAck
  | _ => false

variable {s t : Conn} {f : Bool}

@[simp] theorem TcpState.leadsTo_self (f : Bool) (a : TcpState) : a.leadsTo f a = true := by
  simp [leadsTo]

theorem TcpState.leadsTo_trans : ∀ {f : Bool} {a b c : TcpState}, a.leadsTo f b = true →
    b.leadsTo f c = true → a.leadsTo f c = true := by
  decide

theorem TcpState.leadsTo_timeout : ∀ {f : Bool} {a b : TcpState}, a.leadsTo f b = true →
    a.leadsTo true b = true := by
  decide

def TcpState.gone (a : TcpState) : Prop := a = .closing ∨ a = .timeWait

theorem TcpState.leadsTo_gone (f : Bool) (a b : TcpState) (gone : b.gone) :
    a.leadsTo f b = true := by
  rcases gone with rfl | rfl <;> simp [leadsTo]

theorem TcpState.gone_leads {f : Bool} {a b : TcpState} (gone : a.gone)
    (leads : a.leadsTo f b = true) : b.gone := by
  rcases gone with rfl | rfl
  · simp only [leadsTo, Bool.or_false, Bool.or_eq_true, decide_eq_true_eq] at leads
    rcases leads with (rfl | h) | h
    · exact .inl rfl
    · exact .inl h
    · exact .inr h
  · simp only [leadsTo, Bool.or_false, Bool.or_eq_true, decide_eq_true_eq] at leads
    rcases leads with (rfl | h) | h
    · exact .inr rfl
    · exact .inl h
    · exact .inr h

/- The state has moved along these lines, to CLOSING or TIME_WAIT when `tcp_done` has run. -/
structure Leads (f : Bool) (s t : Conn) : Prop where
  state : s.tsk.state.leadsTo f t.tsk.state = true
  ended : Ended t → Ended s ∨ t.tsk.state.gone

namespace Leads

theorem of_arc (leads : s.tsk.state.leadsTo f t.tsk.state = true) (ended : t.ended = s.ended) :
    Leads f s t := ⟨leads, fun h => .inl (ended.symm.trans h)⟩

theorem of_stays (h : Stays s t) : Leads f s t :=
  of_arc (h.state ▸ TcpState.leadsTo_self f _) h.ended

theorem refl (s : Conn) : Leads f s s := .of_stays (.refl s)

theorem of_minor (h : Minor s t) : Leads f s t := .of_stays (.of_minor h)

theorem trans {u : Conn} (first : Leads f s t) (second : Leads f t u) : Leads f s u := by
  refine ⟨TcpState.leadsTo_trans first.state second.state, fun ended => ?_⟩
  rcases second.ended ended with earlier | gone
  · exact (first.ended earlier).imp id fun gone => TcpState.gone_leads gone second.state
  · exact .inr gone

theorem gone (h : t.tsk.state.gone) : Leads f s t := ⟨TcpState.leadsTo_gone f _ _ h, fun _ => .inr h⟩

end Leads

theorem Idle.stays (h : Idle s t) : Stays s t := ⟨congrArg (·.tsk.state) h, congrArg (·.ended) h⟩

variable (s f)

/-! ### Arriving segments -/

theorem inputAck_leads (th : TcpHdr) : Leads f s (inputAck s th).1 := by
  obtain ⟨same | ⟨before, after⟩, ended⟩ := inputAck_moves s th
  · exact .of_stays ⟨same, ended⟩
  · refine .of_arc ?_ ended
    rw [before, after]
    cases f <;> rfl

theorem inputFinAcked_leads (th : TcpHdr) : Leads f s (inputFinAcked s th) := by
  unfold inputFinAcked
  split
  · split
    · rename_i at_state
      refine .of_arc ?_ rfl
      rw [at_state]
      cases f <;> rfl
    · exact .gone (.inr rfl)
    · split
      · refine Leads.trans ?_ (.of_minor (tcpSendAck_minor _))
        exact .of_stays ⟨rfl, rfl⟩
      · exact .refl s
    · exact .refl s
  · exact .refl s

theorem TcpState.leadsTo_afterFin : ∀ (f empty : Bool) (a : TcpState),
    a.leadsTo f (a.afterFin empty) = true := by
  decide

theorem inputTail_leads (th : TcpHdr) (skb : SkBuff) : Leads f s (inputTail s th skb) := by
  refine .of_arc ?_ (inputTail_moves s th skb).2
  rw [(inputTail_moves s th skb).1]
  split
  · exact TcpState.leadsTo_afterFin f _ _
  · exact TcpState.leadsTo_self f _

theorem inputOtherwise_leads (th : TcpHdr) (skb : SkBuff) : Leads f s (inputOtherwise s th skb) := by
  refine inputOtherwise_cases s th skb ?_ ?_ ?_ ?_ ?_ ?_
  · intro _
    refine Leads.trans ?_ (.of_minor (freeSkb_minor _ skb))
    split
    · exact .refl s
    · exact .of_minor (tcpSendAck_minor s)
  · intro _ _
    exact .gone (.inr rfl)
  · intro _ _ _
    exact .of_minor (freeSkb_minor s skb)
  · intro _ _ _ _ _
    exact (inputAck_leads s f th).trans (.of_minor (freeSkb_minor _ skb))
  · intro _ _ _ _ _ _ _
    exact .gone (.inl tcpDone_state)
  · intro _ _ _ _ _ _
    exact ((inputAck_leads s f th).trans (inputFinAcked_leads _ f th)).trans
      (inputTail_leads _ f th skb)

theorem tcpReset_leads : Leads f s (tcpReset s) := by
  unfold tcpReset
  dsimp only
  split
  · exact .gone (.inl tcpDone_state)
  · exact .gone (.inl tcpDone_state)
  · exact .of_stays ⟨rfl, rfl⟩
  · exact .gone (.inl tcpDone_state)

theorem synsentEstablish_state (th : TcpHdr) : (synsentEstablish s th).tsk.state = .established ∧
    (synsentEstablish s th).ended = s.ended := by
  unfold synsentEstablish
  dsimp only
  generalize hu : ({ setState s .established with
    tsk.tcb.sndUna := (setState s .established).tsk.tcb.sndNxt, tsk.backoff := 0
    tsk.rto := 1000 } : Conn) = u
  have opened : u.tsk.state = .established ∧ u.ended = s.ended := by rw [← hu]; exact ⟨rfl, rfl⟩
  have acked := (Stays.of_minor (tcpSendAck_minor u)).trans (tcpRearmUserTimeout_stays _)
  generalize tcpRearmUserTimeout (tcpSendAck u) = v at acked
  have parsed := (tcpParseOpts_minor v th).same
  exact ⟨parsed.state.trans (acked.state.trans opened.1),
    parsed.ended.trans (acked.ended.trans opened.2)⟩

theorem synsentAck_stays (th : TcpHdr) : Stays s (synsentAck s th) := by
  unfold synsentAck
  dsimp only
  split
  · exact (tcpCleanRtoQueue_stays _ _).after ⟨rfl, rfl⟩
  · exact ⟨rfl, rfl⟩

theorem synsentSyn_state (th : TcpHdr) : ((synsentSyn s th).tsk.state = .established ∨
    (synsentSyn s th).tsk.state = .synReceived) ∧ (synsentSyn s th).ended = s.ended := by
  have ended := (synsentAck_stays s th).ended
  unfold synsentSyn
  generalize synsentAck s th = t at ended
  dsimp only
  split
  · have opened := synsentEstablish_state t th
    exact ⟨.inl opened.1, opened.2.trans ended⟩
  · rw [tcpSendSynack_minor _ (by simp [setState])]
    exact ⟨.inr rfl, ended⟩

theorem tcpSynsent_leads (skb : SkBuff) (th : TcpHdr) (waiting : s.tsk.state = .synSent) :
    Leads f s (tcpSynsent s skb th) := by
  have freed : ∀ t : Conn, Leads f t (freeSkb t skb) := fun t => .of_minor (freeSkb_minor t skb)
  unfold tcpSynsent
  dsimp only
  split
  · exact freed s
  · split
    · exact freed s
    · split
      · exact (tcpReset_leads s f).trans (freed _)
      · split
        · exact freed s
        · refine Leads.trans ?_ (freed _)
          obtain ⟨state, ended⟩ := synsentSyn_state s th
          refine .of_arc ?_ ended
          rw [waiting]
          rcases state with state | state <;> rw [state] <;> cases f <;> rfl

theorem tcpInputState_leads (th : TcpHdr) (skb : SkBuff) : Leads f s (tcpInputState s th skb) := by
  unfold tcpInputState
  split
  · unfold tcpClosed
    split
    · exact .of_minor (freeSkb_minor s skb)
    · exact (Leads.of_stays (tcpSendReset_stays s)).trans (.of_minor (freeSkb_minor _ skb))
  · exact .of_minor (freeSkb_minor s skb)
  · rename_i waiting
    exact tcpSynsent_leads s f skb th waiting
  · exact inputOtherwise_leads s f th skb

/-! ### Calls and handlers -/

theorem tcpClose_leads : Leads f s (tcpClose s).1 := by
  unfold tcpClose
  split
  iterate 6 exact .of_stays ⟨rfl, rfl⟩
  iterate 3 exact .gone (.inl tcpDone_state)
  · rename_i at_state
    have moved : Leads f s (setState s .finWait1) := by
      refine .of_arc ?_ rfl
      rw [at_state]
      cases f <;> rfl
    exact moved.trans (.of_stays (tcpQueueFin_stays _))
  · exact .of_stays (tcpQueueFin_stays s)

theorem tcpV4Connect_state (addr : SockAddr) (port : UInt16) (iss : UInt32)
    (closed : s.tsk.state = .close) : (tcpV4Connect s addr port iss).tsk.state = .synSent ∧
      (tcpV4Connect s addr port iss).ended = s.ended := by
  unfold tcpV4Connect tcpConnect tcpSendSyn
  simp only [closed]
  rw [if_neg (by simp)]
  have queued := tcpQueueTransmitSkb_stays
  exact ⟨(queued _ _).state, (queued _ _).ended⟩

theorem tcpConnectRto_leads : Leads f s (tcpConnectRto s) := by
  unfold tcpConnectRto
  have released : Leads f s (tcpReleaseRtoTimer s) := .of_stays ⟨rfl, rfl⟩
  refine released.trans ?_
  generalize tcpReleaseRtoTimer s = t
  dsimp only
  split
  · split
    · exact .gone (.inl tcpDone_state)
    · split
      · exact .refl t
      · refine Leads.trans ?_ (.of_stays (tcpRearmRtoTimer_stays _))
        exact (Leads.of_stays (retransmitHead_stays t _)).trans (.of_stays ⟨rfl, rfl⟩)
  · exact .refl t

/- A FIN at the head of the write queue is to be sent again, and not for the last time. -/
def FinTimesOut (s : Conn) : Prop :=
  s.tsk.state = .closeWait ∧ s.tsk.rto ≤ 60000 ∧ ∃ k ∈ s.tsk.writeQueue.head?, k.th.fin = true

instance (s : Conn) : Decidable (FinTimesOut s) := inferInstanceAs (Decidable (_ ∧ _ ∧ _))

/- What the timer of the write queue makes of the state. -/
theorem tcpRetransmissionTimeout_leads :
    (FinTimesOut s → (tcpRetransmissionTimeout s).tsk.state = .lastAck ∧
      (tcpRetransmissionTimeout s).ended = s.ended) ∧
    (¬FinTimesOut s → Leads f s (tcpRetransmissionTimeout s)) := by
  unfold tcpRetransmissionTimeout
  have released : Stays s (tcpReleaseRtoTimer s) := ⟨rfl, rfl⟩
  have rto : (tcpReleaseRtoTimer s).tsk.rto = s.tsk.rto := rfl
  have queue : (tcpReleaseRtoTimer s).tsk.writeQueue = s.tsk.writeQueue := rfl
  unfold FinTimesOut
  rw [← rto, ← queue, ← released.state, ← released.ended]
  replace released : Leads f s (tcpReleaseRtoTimer s) := .of_stays released
  generalize tcpReleaseRtoTimer s = t at released
  dsimp only
  cases head : t.tsk.writeQueue.head? with
  | none =>
    simp only [skbPeek, head]
    constructor
    · rintro ⟨_, _, k, member, _⟩
      cases member
    · intro _
      refine released.trans (Leads.trans ?_ (.of_minor (tcpNotifyUser_minor _)))
      exact .of_stays ⟨rfl, rfl⟩
  | some k =>
    simp only [skbPeek, head, Option.mem_some_iff, exists_eq_left']
    have again := retransmitHead_stays t k
    have same : (retransmitHead t k).tsk.rto = t.tsk.rto := by
      obtain ⟨_, same⟩ := retransmitHead_touches t k
      exact same.rto
    rw [same]
    by_cases late : t.tsk.rto > 60000
    · rw [if_pos late]
      refine ⟨fun ⟨_, early, _⟩ => absurd late (UInt32.not_lt.mpr early), fun _ => ?_⟩
      exact .gone (.inl tcpDone_state)
    · rw [if_neg late]
      have backed : Stays t (retransmissionBackoff (retransmitHead t k)) := again.trans ⟨rfl, rfl⟩
      generalize retransmissionBackoff (retransmitHead t k) = u at backed
      cases fin : k.th.fin with
      | false =>
        simp only [Bool.false_eq_true, and_false, false_imp_iff, true_and, if_false]
        exact fun _ => released.trans (.of_stays backed)
      | true =>
        simp only [if_true, and_true]
        unfold tcpHandleFinState
        split
        · rename_i waiting
          have waiting := backed.state.symm.trans waiting
          exact ⟨fun _ => ⟨rfl, backed.ended⟩,
            fun other => absurd ⟨waiting, UInt32.not_lt.mp late⟩ other⟩
        · rename_i opened
          have opened := backed.state.symm.trans opened
          refine ⟨fun ⟨waiting, _⟩ => ?_, fun _ => released.trans (.of_arc ?_ backed.ended)⟩
          · rw [opened] at waiting
            contradiction
          · rw [opened]
            cases f <;> rfl
        · rename_i other _
          refine ⟨fun ⟨waiting, _⟩ => absurd (backed.state.trans waiting) other, fun _ => ?_⟩
          exact released.trans (.of_stays backed)

/- The event is such a timeout. -/
def FinTimedOut (s : Conn) : Event → Prop
  | .handler i => FinTimesOut s ∧ ∃ t ∈ s.ts.threads[i]?, t.handler = .tcpRetransmissionTimeout
  | _ => False

instance (s : Conn) (e : Event) : Decidable (FinTimedOut s e) := by
  induction e using Event.casesOn <;> unfold FinTimedOut <;> infer_instance

omit f in
theorem FinTimedOut.waiting {s : Conn} {e : Event} (timedOut : FinTimedOut s e) :
    s.tsk.state = .closeWait := by
  cases e with
  | handler i => exact timedOut.1.1
  | _ => exact absurd timedOut id

theorem runHandler_leads (h : Handler) (other : h ≠ .tcpRetransmissionTimeout) :
    Leads f s (runHandler s h) := by
  have locked : Leads f s (socketWrAcquire s) := .of_minor (socketWrAcquire_minor s)
  cases h with
  | tcpConnectRto =>
    refine Leads.trans ?_ (.of_minor (socketRelease_minor _))
    exact locked.trans (tcpConnectRto_leads _ f)
  | tcpRetransmissionTimeout => exact absurd rfl other
  | tcpSendDelack =>
    refine Leads.trans ?_ (.of_minor (socketRelease_minor _))
    unfold tcpSendDelack
    refine Leads.trans ?_ (.of_minor (tcpSendAck_minor _))
    exact .of_stays ⟨rfl, rfl⟩
  | tcpLinger => exact .gone (.inl tcpDone_state)
  | tcpUserTimeout => exact .gone (.inl tcpDone_state)
  | socketGarbageCollect =>
    unfold runHandler socketGarbageCollect
    dsimp only
    split
    · obtain ⟨_, freed⟩ := socketFree_eq s
      rw [freed]
      exact .of_stays ⟨rfl, rfl⟩
    · exact .refl s

/-- Every event moves the state along the lines of `leadsTo`, and from CLOSE_WAIT to LAST_ACK only
    when the timer of a FIN at the head of the write queue expires. -/
theorem exec_leads {e : Event} {r : Reply} (taken : exec s e = some (t, r)) :
    (FinTimedOut s e → t.tsk.state = .lastAck ∧ t.ended = s.ended) ∧
      (¬FinTimedOut s e → Leads f s t) := by
  by_cases timeout : ∃ i h, e = .handler i ∧ s.ts.threads[i]? = some h ∧
      h.handler = .tcpRetransmissionTimeout
  · obtain ⟨i, h, rfl, found, timer⟩ := timeout
    simp only [exec, takeThread, found, Option.map_some, Option.bind_eq_bind, Option.bind_some]
      at taken
    split at taken
    · contradiction
    · obtain ⟨rfl, -⟩ := by simpa using taken
      rw [timer]
      obtain ⟨last, leads⟩ := tcpRetransmissionTimeout_leads (socketWrAcquire (started s i)) f
      have locked : Leads f s (socketWrAcquire (started s i)) := .of_stays ⟨rfl, rfl⟩
      have same : FinTimedOut s (.handler i) ↔ FinTimesOut s := by
        simp [FinTimedOut, found, timer]
      rw [same]
      exact ⟨last, fun none => (locked.trans (leads none)).trans (.of_stays ⟨rfl, rfl⟩)⟩
  · have none : ¬FinTimedOut s e := by
      intro timedOut
      cases e with
      | handler i =>
        obtain ⟨-, h, found, timer⟩ := timedOut
        exact timeout ⟨i, h, rfl, found, timer⟩
      | _ => exact timedOut
    refine ⟨fun timedOut => absurd timedOut none, fun _ => ?_⟩
    refine exec_pass (P := Leads f s) ?_ (.refl s) taken ?_ ?_ ?_ ?_ ?_ ?_ ?_ ?_ ?_ ?_
    · intro u v idle leads
      exact leads.trans (.of_stays idle.stays)
    · intro _ u leads
      obtain ⟨_, freed⟩ := socketFree_eq u
      rw [freed]
      exact leads.trans (.of_stays ⟨rfl, rfl⟩)
    · intro _ _
      exact .of_stays ⟨rfl, rfl⟩
    · rintro i h rfl found _
      have started : Leads f s (started s i) := .of_stays ⟨rfl, rfl⟩
      refine started.trans (runHandler_leads _ f h.handler fun timer => ?_)
      exact timeout ⟨i, h, rfl, found, timer⟩
    · intro buf _ _ locked
      exact locked.trans (.of_stays (tcpWrite_stays _ buf))
    · intro len _ _ locked
      exact locked.trans (.of_stays (tcpRead_stays _ len))
    · intro i b _ _ _ woken
      exact woken.trans (.of_stays (receiveLoop_stays _ _ _))
    · intro _ _ locked
      exact locked.trans (tcpClose_leads _ f)
    · intro _ _
      exact .gone (.inl tcpDone_state)
    · intro addr port iss _ _ closed _
      obtain ⟨state, ended⟩ := tcpV4Connect_state { socketWrAcquire s with tsk.err := -EISCONN }
        addr port iss closed
      refine .of_arc ?_ ended
      rw [state, closed]
      cases f <;> rfl
    · intro th payload _ _ arrived
      exact arrived.trans (tcpInputState_leads _ f th _)

omit f in
theorem exec_moves {e : Event} {r : Reply} (taken : exec s e = some (t, r)) :
    s.tsk.state.leadsTo true t.tsk.state = true := by
  obtain ⟨timeout, leads⟩ := exec_leads s true taken
  by_cases timedOut : FinTimedOut s e
  · rw [(timeout timedOut).1, timedOut.waiting]
    rfl
  · exact (leads timedOut).state

omit f in
theorem exec_gone {e : Event} {r : Reply} (gone : Ended s → s.tsk.state.gone)
    (taken : exec s e = some (t, r)) : Ended t → t.tsk.state.gone := by
  intro ended
  obtain ⟨timeout, leads⟩ := exec_leads s true taken
  by_cases timedOut : FinTimedOut s e
  · have before := gone ((timeout timedOut).2.symm.trans ended)
    rw [timedOut.waiting] at before
    rcases before with h | h <;> cases h
  · rcases (leads timedOut).ended ended with earlier | done
    · exact TcpState.gone_leads (gone earlier) (leads timedOut).state
    · exact done

/-- A connection on which `tcp_done` has run is in CLOSING or, after a reset, in TIME_WAIT. -/
theorem ended_gone {allowed : List (Event × Reply) → Conn → Event → Prop}
    {trace : List (Event × Reply)} {s : Conn} (run : Transition.Run exec allowed {} trace s) :
    Ended s → s.tsk.state.gone := by
  refine run.invariant_state (P := fun s => Ended s → s.tsk.state.gone) ?_ ?_
  · intro ended
    cases ended
  · intro _ s _ _ _ gone _ taken
    exact exec_gone s gone taken

end HfIp
