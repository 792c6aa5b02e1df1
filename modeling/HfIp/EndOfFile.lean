import HfIp.PollRead

/- When `tcp_read` returns 0: the end of the peer's stream, as the code tells it. -/
namespace HfIp

open Transition

variable {fin eof : Prop} {s t : Conn}

/-- A read that does not block returns 0 exactly when the peer's FIN has been processed and every
    byte received before it has been handed over. -/
def EofLaw (fin : Prop) (s : Conn) : Prop :=
  ∀ len, 0 < len → (readNow s len = .done 0 ↔ fin ∧ payloads s.tsk.receiveQueue = [])

/-- The states in which the encoding of the end is sound. Before the FIN the queue is not made of
    empty buffers alone; in CLOSE_WAIT an empty queue has the FIN flag beside it; afterwards `err`
    itself tells the end. -/
def EofClear (fin : Prop) (s : Conn) : Prop :=
  match s.tsk.state with
  | .closing | .lastAck | .timeWait => s.tsk.err = 0 ↔ fin ∧ payloads s.tsk.receiveQueue = []
  | .closeWait => s.tsk.receiveQueue = [] → FinFlag s
  | _ => s.tsk.receiveQueue ≠ [] → payloads s.tsk.receiveQueue ≠ []

instance [Decidable fin] (s : Conn) : Decidable (EofClear fin s) := by
  unfold EofClear
  split <;> infer_instance

theorem ReaderInv.returns_zero (inv : ReaderInv fin eof s) {len : Nat} (positive : 0 < len)
    (receives : s.tsk.state.receives = true) : readNow s len = .done 0 ↔
      payloads s.tsk.receiveQueue = [] ∧ (s.tsk.receiveQueue ≠ [] ∨ FinFlag s) := by
  rw [← inv.not_again positive receives, inv.read_now positive receives]
  split
  · simp [EAGAIN]
  · constructor
    · intro zero
      injection zero with zero
      refine ⟨List.eq_nil_of_length_eq_zero (by omega), fun again => ?_⟩
      injection again with again
      unfold EAGAIN at again
      omega
    · rintro ⟨none, -⟩
      rw [none]
      simp

theorem readNow_gone (gone : s.tsk.state.aside = true) (len : Nat) :
    readNow s len = .done s.tsk.err := by
  unfold readNow tcpRead
  cases at_state : s.tsk.state <;> simp_all [TcpState.aside]

theorem readNow_closed (closed : s.tsk.state = .close) (len : Nat) :
    readNow s len = .done (-EBADF) := by
  unfold readNow tcpRead
  simp only [closed]

/-- In every state of every run, a read tells the end as it should exactly where the encoding is
    sound. -/
theorem read_tells_end {trace : List (Event × Reply)} (run : Run exec (fun _ _ _ => True) {} trace s)
    (registered : s.sock.registered = true) :
    EofLaw (Occurs exec TakesFin {} trace) s ↔ EofClear (Occurs exec TakesFin {} trace) s := by
  have inv := reader_inv run registered
  have before : s.tsk.state.phase ≠ .finished → ¬Occurs exec TakesFin {} trace :=
    fun phase fin => phase (fin_finished run fin)
  generalize Occurs exec TakesFin {} trace = fin at inv before
  generalize Occurs exec TakesEof {} trace = eof at inv
  -- before the FIN only a queue of empty buffers can be taken for the end
  have open_ : s.tsk.state.phase ≠ .finished → s.tsk.state.receives = true →
      (EofLaw fin s ↔ (s.tsk.receiveQueue ≠ [] → payloads s.tsk.receiveQueue ≠ [])) := by
    intro phase receives
    have clear := inv.clear phase
    constructor
    · intro law some none
      have told := (inv.returns_zero Nat.one_pos receives).mpr ⟨none, .inl some⟩
      exact before phase ((law 1 Nat.one_pos).mp told).1
    · intro sound len positive
      rw [inv.returns_zero positive receives]
      constructor
      · rintro ⟨none, some | flag⟩
        · exact absurd none (sound some)
        · exact absurd flag clear
      · exact fun h => absurd h.1 (before phase)
  have gone : s.tsk.state.aside = true →
      (EofLaw fin s ↔ (s.tsk.err = 0 ↔ fin ∧ payloads s.tsk.receiveQueue = [])) := by
    intro aside
    unfold EofLaw
    simp only [readNow_gone aside, Received.done.injEq]
    exact ⟨fun law => law 1 (by omega), fun sound _ _ => sound⟩
  unfold EofClear
  cases at_state : s.tsk.state with
  | close =>
    have phase : s.tsk.state.phase ≠ .finished := by simp [at_state, TcpState.phase]
    have none := (inv.outside (by rw [at_state]; rfl)).1
    refine ⟨fun _ some => absurd none some, fun _ len _ => ?_⟩
    rw [readNow_closed at_state]
    exact ⟨fun h => by simp [EBADF] at h, fun h => absurd h.1 (before phase)⟩
  | closeWait =>
    have receives : s.tsk.state.receives = true := by rw [at_state]; rfl
    have known := inv.known at_state
    constructor
    · intro law none
      have told := (law 1 Nat.one_pos).mpr ⟨known, by rw [none]; rfl⟩
      exact ((inv.returns_zero Nat.one_pos receives).mp told).2.resolve_left fun h => h none
    · intro sound len positive
      rw [inv.returns_zero positive receives]
      refine ⟨fun h => ⟨known, h.1⟩, fun h => ⟨h.2, ?_⟩⟩
      by_cases none : s.tsk.receiveQueue = []
      · exact .inr (sound none)
      · exact .inl none
  | closing => exact gone (by rw [at_state]; rfl)
  | lastAck => exact gone (by rw [at_state]; rfl)
  | timeWait => exact gone (by rw [at_state]; rfl)
  | listen => exact open_ (by simp [at_state, TcpState.phase]) (by rw [at_state]; rfl)
  | synSent => exact open_ (by simp [at_state, TcpState.phase]) (by rw [at_state]; rfl)
  | synReceived => exact open_ (by simp [at_state, TcpState.phase]) (by rw [at_state]; rfl)
  | established => exact open_ (by simp [at_state, TcpState.phase]) (by rw [at_state]; rfl)
  | finWait1 => exact open_ (by simp [at_state, TcpState.phase]) (by rw [at_state]; rfl)
  | finWait2 => exact open_ (by simp [at_state, TcpState.phase]) (by rw [at_state]; rfl)

theorem read_tells_end_text : ∃ trace s, Run exec (fun _ _ _ => True) {} trace s ∧
    Occurs exec TakesFin {} trace ∧ payloads s.tsk.receiveQueue = [2] ∧
    EofLaw (Occurs exec TakesFin {} trace) s := by
  obtain ⟨p, reached, registered, fin, left, clear⟩ : ∃ p ∈ follow exec (fun _ _ _ => True) [] {}
      (handshake ++ [.segment { peerHdr 5001 1001 with fin := true } [1, 2], .read 1]),
      p.2.sock.registered = true ∧ Occurs exec TakesFin {} p.1 ∧
        payloads p.2.tsk.receiveQueue = [2] ∧ EofClear (Occurs exec TakesFin {} p.1) p.2 := by
    decide
  have run := Run.of_follow _ .start reached
  exact ⟨p.1, p.2, run, fin, left, (read_tells_end run registered).mpr clear⟩

/-- A read returns 0 after an empty segment with PSH and after a reset, without a FIN; and after a
    FIN the first read returns 0 and the second finds nothing. -/
theorem read_end_mistold :
    (∃ p ∈ follow exec (fun _ _ _ => True) [] {}
      (handshake ++ [.segment { peerHdr 5001 1001 with psh := true } []]),
      ¬Occurs exec TakesFin {} p.1 ∧ readNow p.2 10 = .done 0) ∧
    (∃ p ∈ follow exec (fun _ _ _ => True) [] {}
      (handshake ++ [.segment { peerHdr 5001 1001 with rst := true } []]),
      ¬Occurs exec TakesFin {} p.1 ∧ readNow p.2 10 = .done 0) ∧
    ∃ p ∈ follow exec (fun _ _ _ => True) [] {}
      (handshake ++ [.segment { peerHdr 5001 1001 with fin := true } []]),
      Occurs exec TakesFin {} p.1 ∧ p.2.tsk.receiveQueue = [] ∧
      ∃ q ∈ exec p.2 (.read 10), q.2 = .ret 0 ∧ readNow q.1 10 = .done (-EAGAIN) := by
  decide

/-! ### The end lasts -/

/- Everything the peer has sent has been handed over. -/
def AtEnd (s : Conn) : Prop := s.tsk.state.phase = .finished ∧ payloads s.tsk.receiveQueue = []

theorem AtEnd.frame (ending : AtEnd s) (reads : Reads s t) : AtEnd t := by
  refine ⟨?_, by rw [reads.receiveQueue]; exact ending.2⟩
  rcases reads.moves.phase with same | gone
  · exact same.trans ending.1
  · exact (TcpState.aside_finished gone).1

theorem AtEnd.receives (ending : AtEnd s) (len rlen : Nat) : AtEnd (receiveLoop s len rlen).1 := by
  by_cases room : rlen < len
  · obtain ⟨d, bytes, dequeued, -, reads⟩ := receiveLoop_spec s len rlen room
    obtain ⟨freed, rest⟩ := dequeued.rest
    refine AtEnd.frame ⟨?_, ?_⟩ reads
    · dsimp only
      rw [rest]
      exact ending.1
    · have order := dequeued.order
      rw [ending.2] at order
      exact (List.append_eq_nil_iff.mp order).2
  · rw [receiveLoop_full s len rlen room]
    exact ending.frame (receiveReturn_reads s _)

theorem AtEnd.segment {th : TcpHdr} {skb : SkBuff} (ending : AtEnd s) :
    AtEnd (tcpInputState s th skb) := by
  have no : ∀ {a : TcpState}, s.tsk.state = a → a.phase ≠ .outside := by
    intro a here outside
    have finished := ending.1
    rw [here, outside] at finished
    cases finished
  refine tcpInputState_reads_rule (P := AtEnd) (fun u v reads h => h.frame reads) ending ?_ ?_ ?_ ?_ ?_
    ?_ ?_
  · intro waiting _
    exact absurd rfl (no waiting)
  · intro syn
    exact absurd rfl (no syn.waiting)
  · intro waiting
    exact absurd rfl (no waiting)
  · intro _ _ _ u _ _ h
    exact h
  · intro u _ h
    exact h
  · intro u in_text _ _ h
    have finished := h.1
    rw [in_text] at finished
    cases finished
  · intro u _ _ _ _ _ h
    refine ⟨?_, by rw [inputFin_queue]; exact h.2⟩
    rw [(inputFin_moves u).1]
    exact TcpState.afterFin_finished _ (by rw [h.1]; simp)

theorem exec_end {e : Event} {r : Reply} (ending : AtEnd s) (taken : exec s e = some (t, r)) :
    AtEnd t := by
  refine exec_reads_rule (P := AtEnd) ?_ (fun u v reads h => h.frame reads) ending taken ?_ ?_ ?_ ?_ ?_
  · intro u v idle h
    have state : v.tsk.state = u.tsk.state := congrArg (·.tsk.state) idle
    have queue : v.tsk.receiveQueue = u.tsk.receiveQueue := congrArg (·.tsk.receiveQueue) idle
    exact ⟨by rw [state]; exact h.1, by rw [queue]; exact h.2⟩
  · intro u h
    obtain ⟨freed, eq⟩ := socketFree_eq u
    rw [eq]
    exact ⟨h.1, rfl⟩
  · intro _ _ _
    exact ending
  · intro u len rlen _ h
    exact h.receives len rlen
  · intro u addr port iss _ closed h
    have finished := h.1
    rw [closed] at finished
    cases finished
  · intro th payload _ h
    exact h.segment

/-- Once the end has been reached it stays, so where the encoding stays sound every later read
    returns 0 as well. -/
theorem end_lasts {before trace : List (Event × Reply)} (run₀ : Run exec (fun _ _ _ => True) {} before s)
    (fin : Occurs exec TakesFin {} before) (none : payloads s.tsk.receiveQueue = [])
    (run : Run exec (fun _ _ _ => True) s trace t) : payloads t.tsk.receiveQueue = [] := by
  have ending : AtEnd s := ⟨fin_finished run₀ fin, none⟩
  exact (run.invariant_state (P := AtEnd) ending fun _ _ _ _ _ h _ taken => exec_end h taken).2

end HfIp
