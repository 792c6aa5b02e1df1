import HfIp.BufferLedger
import HfIp.LockBalance

/- Over a run: every buffer that has been allocated is in one queue or has been freed, once, and none is
   left when `sock_free` has run after `tcp_done`. -/
namespace HfIp

open Transition

variable {s t u : Conn}

/- The books are balanced. -/
structure Reckoned (s : Conn) : Prop where
  referenced : Referenced s
  places : ∀ i, (places s).count i = allocated s.nextSkb i

namespace Reckoned

theorem ledger (books : Reckoned s) (h : Ledger [] s t) : Reckoned t where
  referenced := h.counted books.referenced
  places i := by
    have moved := h.places books.referenced i
    have before := books.places i
    rw [List.count_nil] at moved
    omega

theorem parked (books : Reckoned s) (parked : Parked s t) : Reckoned t := by
  have idle := parked.1.1
  have received : t.tsk.receiveQueue = s.tsk.receiveQueue := congrArg (·.tsk.receiveQueue) idle
  have early : t.tsk.ofoQueue = s.tsk.ofoQueue := congrArg (·.tsk.ofoQueue) idle
  have sending : t.tsk.writeQueue = s.tsk.writeQueue := congrArg (·.tsk.writeQueue) idle
  exact books.ledger (.of_rfl received early sending (congrArg (·.freed) idle) parked.2
    (congrArg (·.ended) idle))

/- No two places hold one buffer. -/
theorem nodup (books : Reckoned s) : (HfIp.places s).Nodup := by
  refine List.nodup_iff_count_le_one.mpr fun i => ?_
  rw [books.places i]
  unfold allocated
  split <;> omega

theorem perm (books : Reckoned s) : (HfIp.places s).Perm (List.range s.nextSkb) := by
  refine List.perm_iff_count.mpr fun i => ?_
  rw [books.places i, List.count_range]
  rfl

end Reckoned

/- Once the sock has been freed nothing is left in the two queues that `sock_free` empties. -/
def Emptied (s : Conn) : Prop :=
  s.sock.skFreed = true → s.sock.registered = false ∧ s.tsk.receiveQueue = [] ∧ s.tsk.writeQueue = []

theorem Emptied.live (live : s.sock.skFreed = false) : Emptied s := fun freed =>
  absurd (live.symm.trans freed) (by decide)

theorem Emptied.of_grip {g : Grip} (live : s.sock.skFreed = false) (same : grip t = g)
    (freed : g.skFreed = s.sock.skFreed) : Emptied t :=
  .live ((congrArg Grip.skFreed same).trans (freed.trans live))

theorem Emptied.registered (clear : Emptied s) (live : s.sock.registered = true) :
    s.sock.skFreed = false := by
  by_contra freed
  rw [(clear (by simpa using freed)).1] at live
  cases live

theorem Emptied.idle (clear : Emptied s) (idle : Idle s t) : Emptied t := by
  have freed : t.sock.skFreed = s.sock.skFreed := congrArg (·.sock.skFreed) idle
  have registered : t.sock.registered = s.sock.registered := congrArg (·.sock.registered) idle
  have received : t.tsk.receiveQueue = s.tsk.receiveQueue := congrArg (·.tsk.receiveQueue) idle
  have sending : t.tsk.writeQueue = s.tsk.writeQueue := congrArg (·.tsk.writeQueue) idle
  unfold Emptied
  rw [freed, registered, received, sending]
  exact clear

theorem socketFree_emptied (s : Conn) : Emptied (socketFree s) := by
  obtain ⟨_, eq⟩ := socketFree_eq s
  rw [eq]
  exact fun _ => ⟨rfl, rfl, rfl⟩

theorem runHandler_emptied (h : Handler) (clear : Emptied s)
    (collects : s.sock.skFreed = true → h = .socketGarbageCollect) : Emptied (runHandler s h) := by
  by_cases gc : h = .socketGarbageCollect
  · subst gc
    unfold runHandler socketGarbageCollect
    dsimp only
    split
    · exact socketFree_emptied s
    · exact clear
  · have live : s.sock.skFreed = false := by
      by_contra freed
      exact gc (collects (by simpa using freed))
    refine .live ?_
    cases h with
    | tcpConnectRto => exact (congrArg Grip.skFreed (tcpConnectRto_grip _)).trans live
    | tcpRetransmissionTimeout =>
      exact (congrArg Grip.skFreed (tcpRetransmissionTimeout_grip _)).trans live
    | tcpSendDelack => exact (tcpSendDelack_send _).skFreed.trans live
    | tcpLinger => exact (tcpLinger_send _).skFreed.trans live
    | tcpUserTimeout => exact (congrArg Grip.skFreed (tcpAbort_grip _)).trans live
    | socketGarbageCollect => exact absurd rfl gc

theorem exec_emptied {e : Event} {r : Reply} (clear : Emptied s) (taken : exec s e = some (t, r)) :
    Emptied t := by
  refine exec_parked (P := Emptied) (fun u v parked kept => kept.idle parked.1.1) clear taken
    ?_ ?_ ?_ ?_ ?_ ?_ ?_ ?_ ?_ ?_
  · exact fun _ u _ => socketFree_emptied u
  · exact fun _ _ => clear
  · exact fun _ h _ _ collects => runHandler_emptied h.handler clear collects
  · exact fun buf _ live _ => .of_grip (clear.registered live) (tcpWrite_grip _ buf) rfl
  · exact fun len _ live _ => .of_grip (clear.registered live) (tcpRead_grip _ len) rfl
  · exact fun i b _ _ live _ => .of_grip live (grip_of_sock (receiveLoop_sock _ b.len b.rlen)) rfl
  · exact fun _ live _ => .of_grip (clear.registered live) (tcpClose_grip _) rfl
  · exact fun _ live => .of_grip (clear.registered live) (tcpAbort_grip _) rfl
  · exact fun addr port iss _ live _ _ =>
      .of_grip (clear.registered live) (grip_of_sock (tcpConnect_sock _ iss)) rfl
  · exact fun th payload _ live => .of_grip (clear.registered live) (tcpInputState_grip _ th _) rfl

/-! ### An arriving segment -/

/- Where text is taken in the window is open and `tcp_done` has not run. -/
theorem arriving_open (th : TcpHdr) (payload : List UInt8) (open_ : Windowed s)
    (gone : Ended s → s.tsk.state.gone)
    (text : (inputFinAcked (inputAck (arriving s th payload) th).1 th).tsk.state.phase = .text) :
    (inputFinAcked (inputAck (arriving s th payload) th).1 th).tsk.tcb.rcvWnd ≠ 0 ∧
      ¬Ended (inputFinAcked (inputAck (arriving s th payload) th).1 th) := by
  have locked : Windowed (arriving s th payload) := open_
  constructor
  · refine Windowed.wide ?_ (fun closed => ?_) ?_
    · refine inputFinAcked_reads_rule (fun u v reads held => held.reads reads) ?_ fun _ _ => ?_
      · exact locked.inputAck th
      · exact locked.inputAck th
    · rw [closed] at text
      cases text
    · generalize (inputFinAcked (inputAck (arriving s th payload) th).1 th).tsk.state = state at text ⊢
      cases state <;> simp_all [TcpState.phase, TcpState.aside]
  · intro ended
    rw [inputFinAcked_phase] at text
    obtain ⟨moves, same⟩ := inputAck_moves (arriving s th payload) th
    have dead : Ended s := same.symm.trans ((inputFinAcked_ended _ th).symm.trans ended)
    have state : s.tsk.state.gone := gone dead
    rcases moves with stays | ⟨waiting, -⟩
    · have here : (inputAck (arriving s th payload) th).1.tsk.state = s.tsk.state := stays
      rw [here] at text
      rcases state with at_state | at_state <;> rw [at_state] at text <;> cases text
    · have at_state : s.tsk.state = .synReceived := waiting
      rcases state with closing | timeWait
      · rw [closing] at at_state
        cases at_state
      · rw [timeWait] at at_state
        cases at_state

theorem arriving_ledger (th : TcpHdr) (payload : List UInt8) (open_ : Windowed s)
    (gone : Ended s → s.tsk.state.gone) :
    Ledger [s.nextSkb] (arriving s th payload)
      (tcpInputState (arriving s th payload) th (tcpInitSegment s th payload).2) := by
  have zero : (tcpInitSegment s th payload).2.refcnt = 0 := rfl
  exact tcpInputState_ledger (arriving s th payload) th zero (arriving_open th payload open_ gone)

theorem synsentEstablish_sending (s : Conn) (th : TcpHdr) :
    (synsentEstablish s th).tsk.writeQueue = s.tsk.writeQueue := by
  have parsed : ∀ u : Conn, (sockConnected { u with tsk := tcpParseOpts u.tsk th }).tsk.writeQueue =
      u.tsk.writeQueue := fun u => (tcpParseOpts_minor u th).same.writeQueue
  unfold synsentEstablish
  dsimp only
  rw [parsed, (tcpRearmUserTimeout_send _).writeQueue, (tcpSendAck_minor _).same.writeQueue]
  rfl

/- The buffers that wait to be sent waited before: a segment is never put there. -/
theorem tcpInputState_sending (s : Conn) (th : TcpHdr) (skb : SkBuff) :
    ids (tcpInputState s th skb).tsk.writeQueue ⊆ ids s.tsk.writeQueue := by
  have cleaned : ∀ (u : Conn) (una : UInt32), ids u.tsk.writeQueue ⊆ ids s.tsk.writeQueue →
      ids (tcpCleanRtoQueue u una).tsk.writeQueue ⊆ ids s.tsk.writeQueue := by
    intro u una kept
    obtain ⟨_, _, _, _, _, eq⟩ := tcpCleanRtoQueue_touches u una
    rw [eq]
    exact List.Subset.trans ((List.dropWhile_sublist _).map SkBuff.id).subset kept
  refine tcpInputState_rule (P := fun u => ids u.tsk.writeQueue ⊆ ids s.tsk.writeQueue)
    (fun u v frame kept => ?_) (List.Subset.refl _) ?_ ?_ ?_ ?_
  · rw [frame.writeQueue]
    exact kept
  · intro _
    rw [tcpSendReset_queue.queue]
    exact List.Subset.refl _
  · intro _
    have acked : ids (synsentAck s th).tsk.writeQueue ⊆ ids s.tsk.writeQueue := by
      unfold synsentAck
      dsimp only
      split
      · exact cleaned _ _ (List.Subset.refl _)
      · exact List.Subset.refl _
    unfold synsentSyn
    generalize synsentAck s th = v at acked
    dsimp only
    split
    · rw [synsentEstablish_sending]
      exact acked
    · rw [tcpSendSynack_minor _ (by simp [setState])]
      exact acked
  · intro u _ _ kept
    refine cleaned _ _ ?_
    have sampled : (tcpRtt { u with tsk.tcb.sndUna := th.ackSeq }).tsk.writeQueue = u.tsk.writeQueue := by
      unfold tcpRtt
      split
      · rfl
      · split
        · rfl
        · dsimp only
          split <;> rfl
    rw [sampled]
    exact kept
  · intro u n _ _ kept
    have tags := (sendNextLoop_tags u n u.tsk.writeQueue).1
    have same : ids (sendFront u n).tsk.writeQueue = ids u.tsk.writeQueue := by
      have numbers := congrArg (List.map Prod.fst) tags
      rwa [List.map_map, List.map_map] at numbers
    rw [same]
    exact kept

/-! ### Runs -/

theorem exec_reckoned {e : Event} {r : Reply} (books : Reckoned s) (open_ : Windowed s)
    (gone : Ended s → s.tsk.state.gone) (taken : exec s e = some (t, r)) : Reckoned t := by
  refine exec_parked (P := Reckoned) (fun u v parked books => books.parked parked) books taken
    ?_ ?_ ?_ ?_ ?_ ?_ ?_ ?_ ?_ ?_
  · exact fun _ u books => books.ledger (socketFree_ledger u)
  · exact fun _ _ => books.ledger (.of_rfl rfl rfl rfl rfl rfl rfl)
  · intro i h _ _ _
    have started : Ledger [] s (started s i) := .of_rfl rfl rfl rfl rfl rfl rfl
    exact books.ledger (started.trans (runHandler_ledger _ h.handler))
  · exact fun buf _ _ books => books.ledger (tcpWrite_ledger _ buf)
  · exact fun len _ _ books => books.ledger (tcpRead_ledger _ len)
  · exact fun i b _ _ _ books => books.ledger (receiveLoop_ledger _ b.len b.rlen)
  · exact fun _ _ books => books.ledger (tcpClose_ledger _)
  · exact fun _ _ => books.ledger (tcpAbort_ledger s)
  · exact fun addr port iss _ _ _ books => books.ledger (tcpV4Connect_ledger _ addr port iss)
  · intro th payload _ _
    refine books.ledger (.alloc th payload ?_)
    have locked : Ledger [] (allocSkb s th payload).1 (arriving s th payload) :=
      .of_rfl rfl rfl rfl rfl rfl rfl
    exact (arriving_ledger th payload open_ gone).after locked

/- What every run keeps. -/
structure FateRun (s : Conn) : Prop where
  books : Reckoned s
  emptied : Emptied s
  windowed : Windowed s

theorem run_reckoned {trace : List (Event × Reply)} (run : Run exec (fun _ _ _ => True) {} trace s) :
    FateRun s := by
  induction run with
  | start => exact ⟨⟨⟨by simp, by simp, fun _ => rfl⟩, fun i => rfl⟩, .live rfl, .inr (.inl rfl)⟩
  | next before _ taken inv =>
    exact ⟨exec_reckoned inv.books inv.windowed (ended_gone before) taken, exec_emptied inv.emptied taken,
      exec_windowed inv.windowed taken⟩

/-- The buffer has been freed, once, and is in no queue. -/
def Disposed (s : Conn) (i : Nat) : Prop :=
  s.freed.count i = 1 ∧ i ∉ ids s.tsk.receiveQueue ++ ids s.tsk.ofoQueue ++ ids s.tsk.writeQueue

/-- The buffer is in one of the queues of received text, once, and counted once. -/
structure Stored (s : Conn) (i : Nat) : Prop where
  once : (ids s.tsk.receiveQueue ++ ids s.tsk.ofoQueue).count i = 1
  counted : ∀ k ∈ s.tsk.receiveQueue ++ s.tsk.ofoQueue, k.id = i → k.refcnt = 1
  unsent : i ∉ ids s.tsk.writeQueue
  unfreed : i ∉ s.freed

/- A buffer in hand that is not put where buffers wait to be sent. -/
theorem Ledger.fate {i : Nat} (ledger : Ledger [i] s t) (before : Referenced s) (last : s.nextSkb = i + 1)
    (fresh : (HfIp.places s).count i = 0) (unsent : i ∉ ids t.tsk.writeQueue) :
    Disposed t i ∨ Stored t i := by
  have grown := ledger.grown before
  have moved := ledger.places before i
  have absent := List.count_eq_zero.mpr unsent
  rw [fresh, allocated, if_pos (by omega), allocated, if_pos (by omega), List.count_singleton_self] at moved
  simp only [HfIp.places, List.count_append, absent] at moved
  by_cases freed : i ∈ t.freed
  · have some := List.count_pos_iff.mpr freed
    refine .inl ⟨by omega, fun member => ?_⟩
    have linked := List.count_pos_iff.mpr member
    simp only [List.count_append, absent] at linked
    omega
  · have none := List.count_eq_zero.mpr freed
    refine .inr ⟨?_, fun k member _ => (ledger.counted before).received k member, unsent, freed⟩
    rw [List.count_append]
    omega

theorem arriving_fate (books : Reckoned s) (open_ : Windowed s) (gone : Ended s → s.tsk.state.gone)
    (th : TcpHdr) (payload : List UInt8) :
    Disposed (tcpInputState (arriving s th payload) th (tcpInitSegment s th payload).2) s.nextSkb ∨
      Stored (tcpInputState (arriving s th payload) th (tcpInitSegment s th payload).2) s.nextSkb := by
  have fresh : (places s).count s.nextSkb = 0 := by
    rw [books.places, allocated, if_neg (Nat.lt_irrefl _)]
  have before : Referenced (arriving s th payload) :=
    ⟨books.referenced.received, books.referenced.sending, books.referenced.cleared⟩
  have last : (arriving s th payload).nextSkb = s.nextSkb + 1 := rfl
  have unsent : s.nextSkb ∉ ids (tcpInputState (arriving s th payload) th
      (tcpInitSegment s th payload).2).tsk.writeQueue := by
    intro member
    have waited := tcpInputState_sending (arriving s th payload) th (tcpInitSegment s th payload).2
    have old : s.nextSkb ∈ ids s.tsk.writeQueue := waited member
    have absent := List.count_eq_zero.mp fresh
    simp [places, old] at absent
  exact (arriving_ledger th payload open_ gone).fate before last fresh unsent

/-- In every run each buffer that has been allocated is in one place, once: linked in one queue, or freed
    and in none. An arriving segment is freed or kept where text is, and none is left when `sock_free` has
    run after `tcp_done`. -/
theorem buffer_fate {trace : List (Event × Reply)} (run : Run exec (fun _ _ _ => True) {} trace s) :
    (places s).Perm (List.range s.nextSkb) ∧
      (∀ th payload, Disposed (tcpInputState (arriving s th payload) th
          (tcpInitSegment s th payload).2) s.nextSkb ∨
        Stored (tcpInputState (arriving s th payload) th (tcpInitSegment s th payload).2) s.nextSkb) ∧
      (s.sock.skFreed = true → Ended s → s.freed.Perm (List.range s.nextSkb)) := by
  obtain ⟨books, emptied, open_⟩ := run_reckoned run
  refine ⟨books.perm, fun th payload => arriving_fate books open_ (ended_gone run) th payload, ?_⟩
  intro freed ended
  obtain ⟨-, received, sending⟩ := emptied freed
  have all : places s = s.freed := by
    simp [places, ids, received, sending, books.referenced.cleared ended]
  exact all ▸ books.perm

/- The peer refuses the connection, and the call that waits for it frees the socket. -/
def refusedCall : List Event :=
  [.connect ⟨2, 16, 80, parseIpv4 10 0 0 5⟩ 40001 1000,
    .segment { peerHdr 0 1001 with rst := true } [], .connectWakes]

theorem buffer_fate_refused : ∃ trace s, Run exec (fun _ _ _ => True) {} trace s ∧
    s.nextSkb = 2 ∧ s.freed.Perm [0, 1] := by
  obtain ⟨trace, s, run, freed, ended, two⟩ : ∃ trace s, Run exec (fun _ _ _ => True) {} trace s ∧
      s.sock.skFreed = true ∧ s.ended = true ∧ s.nextSkb = 2 :=
    Run.exists_of_follow refusedCall (by decide +kernel)
  have all := (buffer_fate run).2.2 freed ended
  rw [two] at all
  exact ⟨trace, s, run, two, all⟩

end HfIp
