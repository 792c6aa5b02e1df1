import HfIp.Reader

/- poll and read: the POLLIN bit against what a read that does not block would return. -/
namespace HfIp

open Transition

variable {fin eof : Prop} {s t : Conn}

theorem nonblock_set (flags : UInt32) : (flags ||| O_NONBLOCK) &&& O_NONBLOCK ≠ 0 := by
  intro none
  have bit := congrArg (fun x : UInt32 => x.toBitVec.getLsbD 11) none
  simp [O_NONBLOCK] at bit

/-- What `tcp_read` with O_NONBLOCK would return in the state. -/
def readNow (s : Conn) (len : Nat) : Received :=
  (tcpRead { s with sock.flags := s.sock.flags ||| O_NONBLOCK } len).2

theorem TcpState.receives_here {a : TcpState} (receives : a.receives = true) : ¬a.aside = true := by
  cases a <;> simp_all [TcpState.receives, aside]

/- An empty queue without the FIN flag is the only reason for EAGAIN. -/
theorem ReaderInv.receive_now (inv : ReaderInv fin eof s) {len : Nat} (positive : 0 < len)
    (nonblock : s.sock.flags &&& O_NONBLOCK ≠ 0) :
    (receiveLoop s len 0).2 = if s.tsk.receiveQueue = [] ∧ ¬FinFlag s then .done (-EAGAIN)
      else .done (min len (payloads s.tsk.receiveQueue).length : Nat) := by
  obtain ⟨d, bytes, dequeued, result, -⟩ := receiveLoop_spec s len 0 positive
  have count : bytes.length = min len (payloads s.tsk.receiveQueue).length := dequeued.count
  have all := dequeued.all
  rw [result, Nat.zero_add, count]
  unfold receiveResult
  by_cases idle : s.tsk.receiveQueue = [] ∧ ¬FinFlag s
  · rw [if_pos idle]
    obtain ⟨none, clear⟩ := idle
    have flags : d.tsk.flags = s.tsk.flags := by
      rw [none] at all
      exact (all positive).2
    have nothing : (payloads s.tsk.receiveQueue).length = 0 := by
      rw [none]
      rfl
    have stays : ¬(d.tsk.flags &&& TCP_PSH ≠ 0 ∨ d.tsk.flags &&& TCP_FIN ≠ 0 ∨
        min len (payloads s.tsk.receiveQueue).length = len) := by
      rw [flags, nothing]
      rintro (h | h | h)
      · exact h inv.psh
      · exact clear h
      · omega
    rw [if_neg stays, if_pos nonblock, nothing, Nat.min_zero, if_pos rfl]
  · rw [if_neg idle]
    split
    · rfl
    · rename_i more
      rw [if_neg]
      intro zero
      have empty : payloads s.tsk.receiveQueue = [] := List.eq_nil_of_length_eq_zero (by omega)
      have flags := (all (by rw [empty]; exact positive)).2
      refine idle ⟨?_, ?_⟩
      · by_contra some
        obtain ⟨k, rest, eq⟩ := List.exists_cons_of_ne_nil some
        have member : k ∈ s.tsk.receiveQueue := by
          rw [eq]
          exact List.mem_cons_self
        have none : k.payload = [] := List.flatMap_eq_nil_iff.mp empty k member
        have pushed : k.th.psh = true := (inv.worth k (.inl member)).resolve_left fun h => h none
        have any : s.tsk.receiveQueue.any (·.th.psh) = true := List.any_eq_true.mpr ⟨k, member, pushed⟩
        rw [if_pos any] at flags
        exact more (.inl (by rw [flags]; exact psh_set _))
      · intro flag
        exact more (.inr (.inl (by rw [dequeued.fin]; exact flag)))

/-- The states of the claim's reader, in which text is still to be read. -/
theorem ReaderInv.read_now (inv : ReaderInv fin eof s) {len : Nat} (positive : 0 < len)
    (receives : s.tsk.state.receives = true) : readNow s len =
      if s.tsk.receiveQueue = [] ∧ ¬FinFlag s then .done (-EAGAIN)
      else .done (min len (payloads s.tsk.receiveQueue).length : Nat) := by
  unfold readNow
  generalize asked : ({ s with sock.flags := s.sock.flags ||| O_NONBLOCK } : Conn) = u
  have queue : u.tsk.receiveQueue = s.tsk.receiveQueue := by rw [← asked]
  have flags : u.tsk.flags = s.tsk.flags := by rw [← asked]
  have state : u.tsk.state = s.tsk.state := by rw [← asked]
  have nonblock : u.sock.flags &&& O_NONBLOCK ≠ 0 := by
    rw [← asked]
    exact nonblock_set _
  have inv' : ReaderInv fin eof u := by
    rw [← asked]
    exact inv.congr rfl rfl rfl rfl rfl
  refine tcpRead_cases (motive := fun q => q.2 = _) u len ?_ ?_ ?_ ?_
  · intro closed
    rw [← state, closed] at receives
    cases receives
  · intro gone
    rw [← state] at receives
    exact absurd gone (TcpState.receives_here receives)
  · intro ending
    obtain ⟨-, none, flag⟩ := ending
    rw [queue] at none
    rw [flags] at flag
    rw [if_neg (fun h => h.2 flag), none]
    simp [payloads]
  · intro _ _
    have flag : FinFlag u ↔ FinFlag s := by
      unfold FinFlag
      rw [flags]
    have now := inv'.receive_now positive nonblock
    rw [queue] at now
    simpa only [flag] using now

/-- The POLLIN bit is set exactly when a read of `len` bytes that does not block would return
    something other than EAGAIN, in the two states in which the peer's text is read. -/
def PollAgrees (s : Conn) : Prop :=
  s.sock.registered = true → s.tsk.state = .established ∨ s.tsk.state = .closeWait →
    ∀ len, 0 < len → (Readable s ↔ readNow s len ≠ .done (-EAGAIN))

theorem ReaderInv.not_again (inv : ReaderInv fin eof s) {len : Nat} (positive : 0 < len)
    (receives : s.tsk.state.receives = true) :
    readNow s len ≠ .done (-EAGAIN) ↔ s.tsk.receiveQueue ≠ [] ∨ FinFlag s := by
  rw [inv.read_now positive receives]
  split
  · rename_i idle
    simp [idle.1, idle.2]
  · rename_i busy
    refine ⟨fun _ => ?_, fun _ h => ?_⟩
    · by_contra neither
      rw [not_or, not_not] at neither
      exact busy neither
    · injection h with h
      unfold EAGAIN at h
      omega

theorem ReaderInv.poll_agrees (inv : ReaderInv fin eof s) (fresh : ¬eof) : PollAgrees s := by
  intro _ state len positive
  rcases state with open_ | waiting
  · rw [inv.not_again positive (by rw [open_]; rfl), inv.text (by rw [open_]; rfl)]
    have clear := inv.clear (by rw [open_]; simp [TcpState.phase])
    exact ⟨.inl, fun h => h.resolve_right clear⟩
  · rw [inv.not_again positive (by rw [waiting]; rfl), inv.ending waiting fresh]

/- Once a read has been told the end, the bit stays set and the next read has nothing to return. -/
theorem told_disagrees {e : Event} {r : Reply} (kept : ReaderKept fin eof s) (told : TakesEof s e)
    (taken : exec s e = some (t, r)) : ¬PollAgrees t := by
  have after := exec_reader kept taken
  cases e with
  | read len =>
    obtain ⟨waiting, none, flag⟩ := told
    simp only [exec] at taken
    split at taken
    · rename_i registered
      have inv := kept registered
      have ends : tcpRead (socketWrAcquire s) len =
          ({ socketWrAcquire s with tsk.flags := s.tsk.flags &&& ~~~TCP_FIN }, .done 0) := by
        have waits : (socketWrAcquire s).tsk.state = .closeWait := waiting
        have empty : skbQueueEmpty (socketWrAcquire s).tsk.receiveQueue = true := by
          rw [show (socketWrAcquire s).tsk.receiveQueue = [] from none]
          rfl
        have set : (socketWrAcquire s).tsk.flags &&& TCP_FIN ≠ 0 := flag
        unfold tcpRead
        simp only [waits, empty, set, decide_true, Bool.and_self, if_true, ne_eq, not_false_eq_true]
        rfl
      rw [ends] at taken
      obtain ⟨rfl, -⟩ := by simpa [readReturn] using taken
      intro agrees
      have again := (agrees registered (.inr waiting) 1 (by omega)).mp (inv.flagged waiting flag)
      have receives : s.tsk.state.receives = true := by
        rw [waiting]
        rfl
      rcases ((after registered).not_again (by omega) receives).mp again with some | set
      · exact some none
      · exact set (fin_clear _)
    · contradiction
  | _ => cases told

/-- In a run in which the socket is not closed locally, poll and read agree in every state as long as,
    and only as long as, no read has been told the end. -/
theorem poll_agrees_read {trace : List (Event × Reply)}
    (run : Run exec (fun _ _ e => e ≠ .close ∧ e ≠ .abort) {} trace s) :
    (∀ before s', before <+: trace →
      Run exec (fun _ _ e => e ≠ .close ∧ e ≠ .abort) {} before s' → PollAgrees s') ↔
      ¬Occurs exec TakesEof {} trace := by
  constructor
  · intro agrees told
    obtain ⟨before, u, e, r, v, front, reached, ok, eof, taken⟩ := run.occurs_split told
    exact told_disagrees (reader_inv reached) eof taken (agrees _ v front (.next reached ok taken))
  · intro fresh before s' front reached registered
    obtain ⟨later, eq⟩ := front
    have earlier : ¬Occurs exec TakesEof {} before := by
      rw [← eq, reached.occurs_append] at fresh
      exact fun h => fresh (.inl h)
    exact ((reader_inv reached) registered).poll_agrees earlier registered

theorem poll_agrees_read_partial : ∃ trace s,
    Run exec (fun _ _ e => e ≠ .close ∧ e ≠ .abort) {} trace s ∧ s.tsk.state = .closeWait ∧
    s.delivered = [1] ∧ PollAgrees s := by
  obtain ⟨p, reached, waiting, read, fresh⟩ :
      ∃ p ∈ follow exec (fun _ _ e => e ≠ .close ∧ e ≠ .abort) [] {}
        (handshake ++ [.segment { peerHdr 5001 1001 with fin := true } [1, 2], .read 1]),
        p.2.tsk.state = .closeWait ∧ p.2.delivered = [1] ∧ ¬Occurs exec TakesEof {} p.1 := by
    decide
  have run := Run.of_follow _ .start reached
  exact ⟨p.1, p.2, run, waiting, read,
    (poll_agrees_read run).mpr fresh p.1 p.2 (List.prefix_refl _) run⟩

/-- The FIN has come and has been read: the bit is set, and a second read would block. -/
theorem pollin_after_eof : ∃ trace s,
    Run exec (fun _ _ e => e ≠ .close ∧ e ≠ .abort) {} trace s ∧ s.sock.registered = true ∧
    s.tsk.state = .closeWait ∧ Readable s ∧ readNow s 10 = .done (-EAGAIN) :=
  Run.exists_of_follow (handshake ++ [.segment { peerHdr 5001 1001 with fin := true } [], .read 10])
    (by decide)

end HfIp
