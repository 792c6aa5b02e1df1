import HfIp.SendSteps

/- What an event does to the send side: a rule for properties that the functions of the send frame
   keep. Only the functions outside the frame are left to show. -/
namespace HfIp

variable {s t : Conn} {r : Reply} {P : Conn → Prop}

theorem call_rule {f : Conn → Conn × Int} (frame : ∀ u v, SendFrame u v → P u → P v) (start : P s)
    (keep : s.sock.registered = true → P (socketWrAcquire s) → P (f (socketWrAcquire s)).1)
    (taken : call s f = some (t, r)) : P t := by
  unfold call at taken
  split at taken
  · rename_i registered
    have done := keep registered (frame _ _ (.of_minor (socketWrAcquire_minor s)) start)
    obtain ⟨rfl, -⟩ := by simpa using taken
    exact frame _ _ (.of_minor (socketRelease_minor _)) done
  · contradiction

theorem connectReturn_rule (frame : ∀ u v, SendFrame u v → P u → P v)
    (free : ∀ u, P u → P (socketFree u)) (q : Conn × Option Int) (done : P q.1) :
    P (connectReturn q).1 := by
  obtain ⟨u, _ | rc⟩ := q
  · exact done
  · have released : P (socketRelease u) := frame _ _ (.of_minor (socketRelease_minor u)) done
    unfold connectReturn
    dsimp only
    split
    · exact free _ released
    · exact released

theorem inetStreamConnect_rule (frame : ∀ u v, SendFrame u v → P u → P v) (addr : SockAddr)
    (port : UInt16) (iss : UInt32) (start : P s)
    (connect : s.tsk.state = .close → P { s with tsk.err := -EISCONN } →
      P (tcpV4Connect { s with tsk.err := -EISCONN } addr port iss)) :
    P (inetStreamConnect s addr port iss).1 := by
  have marked : ∀ e, P { s with tsk.err := e } :=
    fun e => frame s _ (.of_out rfl rfl rfl rfl) start
  unfold inetStreamConnect
  split
  · exact start
  · split
    · exact start
    · split
      · exact marked _
      · exact marked _
      · split
        · exact marked _
        · rename_i closed
          have done := connect (not_not.mp closed) (marked _)
          dsimp only
          generalize tcpV4Connect { s with tsk.err := -EISCONN } addr port iss = u at done
          have begun : P { u with sock.state := .connecting, tsk.err := -EINPROGRESS } :=
            frame u _ (.of_out rfl rfl rfl rfl) done
          split
          · exact begun
          · exact frame _ _ (connectWait_send _) begun
      · exact marked _

/- The handlers, each between taking and releasing the lock. -/
theorem runHandler_rule (frame : ∀ u v, SendFrame u v → P u → P v)
    (free : ∀ u, P u → P (socketFree u)) (h : Handler) (start : P s)
    (connectRto : h = .tcpConnectRto → P (socketWrAcquire s) →
      P (tcpConnectRto (socketWrAcquire s)))
    (retransmission : h = .tcpRetransmissionTimeout → P (socketWrAcquire s) →
      P (tcpRetransmissionTimeout (socketWrAcquire s)))
    (reset : ∀ u, SendFrame s u → P u → P (tcpSendReset u)) : P (runHandler s h) := by
  have locked : P (socketWrAcquire s) := frame _ _ (.of_minor (socketWrAcquire_minor s)) start
  have release : ∀ u, P u → P (socketRelease u) :=
    fun u => frame _ _ (.of_minor (socketRelease_minor u))
  cases h with
  | tcpConnectRto => exact release _ (connectRto rfl locked)
  | tcpRetransmissionTimeout => exact release _ (retransmission rfl locked)
  | tcpSendDelack => exact release _ (frame _ _ (tcpSendDelack_send _) locked)
  | tcpLinger => exact release _ (frame _ _ (tcpLinger_send _) locked)
  | tcpUserTimeout =>
    have stopped := (SendFrame.of_minor (socketWrAcquire_minor s)).trans (stopLinger_send _)
    exact release _ (frame _ _ (tcpDone_send _) (reset _ stopped (frame _ _ stopped start)))
  | socketGarbageCollect =>
    unfold runHandler socketGarbageCollect
    dsimp only
    split
    · exact free _ start
    · exact start

/-- What holds before an event holds after it when the functions that change the send side keep
    it, each in the state in which the event runs it. -/
theorem exec_rule {e : Event} (frame : ∀ u v, SendFrame u v → P u → P v)
    (free : ∀ u, P u → P (socketFree u)) (start : P s) (taken : exec s e = some (t, r))
    (write : ∀ buf, e = .write buf → s.sock.registered = true → P (socketWrAcquire s) →
      P (tcpWrite (socketWrAcquire s) buf).1)
    (close : e = .close → s.sock.registered = true → P (socketWrAcquire s) →
      P (tcpClose (socketWrAcquire s)).1)
    (connect : ∀ addr port iss, e = .connect addr port iss → s.sock.registered = true →
      s.tsk.state = .close → P { socketWrAcquire s with tsk.err := -EISCONN } →
      P (tcpV4Connect { socketWrAcquire s with tsk.err := -EISCONN } addr port iss))
    (segment : ∀ th payload, e = .segment th payload → s.sock.registered = true →
      P (socketWrAcquire (tcpInitSegment s th payload).1) →
      P (tcpInputState (socketWrAcquire (tcpInitSegment s th payload).1) th
        (tcpInitSegment s th payload).2))
    (handler : ∀ i h, e = .handler i → s.ts.threads[i]? = some h → s.sock.skFreed = false →
      (h.handler = .tcpConnectRto → ∀ ts, P (socketWrAcquire { s with ts := ts }) →
        P (tcpConnectRto (socketWrAcquire { s with ts := ts }))) ∧
      (h.handler = .tcpRetransmissionTimeout → ∀ ts, P (socketWrAcquire { s with ts := ts }) →
        P (tcpRetransmissionTimeout (socketWrAcquire { s with ts := ts }))))
    (reset : s.sock.registered = true ∨ s.sock.skFreed = false → ∀ u, SendFrame s u → P u →
      P (tcpSendReset u)) : P t := by
  have locked : P (socketWrAcquire s) := frame _ _ (.of_minor (socketWrAcquire_minor s)) start
  cases e with
  | connect addr port iss =>
    simp only [exec] at taken
    split at taken
    · rename_i registered
      have done := connectReturn_rule frame free _ (inetStreamConnect_rule frame addr port iss locked
        (connect addr port iss rfl registered))
      rw [Option.some.inj taken] at done
      exact done
    · contradiction
  | connectWakes =>
    simp only [exec, connectWakes] at taken
    split at taken
    · contradiction
    · split at taken
      · have woken : P (connectWait (socketWrAcquire { s with
            connecting := false, sock.sleep := waitReturn s.sock.sleep })).1 := by
          refine frame _ _ (connectWait_send _) ?_
          exact frame s _ (.of_out rfl rfl rfl rfl) start
        have done := connectReturn_rule frame free _ woken
        rw [Option.some.inj taken] at done
        exact done
      · contradiction
  | write buf =>
    simp only [exec] at taken
    exact call_rule frame start (write buf rfl) taken
  | read len =>
    simp only [exec] at taken
    split at taken
    · have done := frame _ _ (readReturn_send _ len _ (tcpRead_send _ len)) locked
      rw [Option.some.inj taken] at done
      exact done
    · contradiction
  | readWakes i =>
    simp only [exec, readWakes] at taken
    split at taken
    · contradiction
    · obtain ⟨b, -, woken⟩ := Option.map_eq_some_iff.mp taken
      have resumed : P (socketWrAcquire { s with
          readers := s.readers.eraseIdx i, tsk.recvWait := waitReturn s.tsk.recvWait }) :=
        frame s _ (.of_out rfl rfl rfl rfl) start
      have done := frame _ _
        (readReturn_send _ b.len _ (receiveLoop_send _ b.len b.rlen)) resumed
      rw [woken] at done
      exact done
  | close =>
    simp only [exec] at taken
    exact call_rule frame start (close rfl) taken
  | abort =>
    simp only [exec] at taken
    split at taken
    · rename_i registered
      obtain ⟨rfl, -⟩ := by simpa using taken
      exact frame _ _ (tcpDone_send _) (reset (.inl registered) _ (.refl s) start)
    · contradiction
  | poll events =>
    simp only [exec] at taken
    exact call_rule frame start (fun _ h => h) taken
  | fcntlGetfl =>
    simp only [exec] at taken
    exact call_rule frame start (fun _ h => h) taken
  | fcntlSetfl flags =>
    simp only [exec] at taken
    refine call_rule frame start (fun _ h => ?_) taken
    exact frame (socketWrAcquire s) _ (.of_out rfl rfl rfl rfl) h
  | getsockoptError =>
    simp only [exec] at taken
    exact call_rule frame start (fun _ h => h) taken
  | segment th payload =>
    simp only [exec] at taken
    split at taken
    · rename_i here
      obtain ⟨rfl, -⟩ := by simpa using taken
      simp only [Bool.and_eq_true] at here
      refine frame _ _ (.of_minor (socketRelease_minor _)) (segment th payload rfl here.1.1 ?_)
      exact frame s _ (.of_out rfl rfl rfl rfl) start
    · contradiction
  | tick busy =>
    obtain ⟨rfl, -⟩ := by simpa [exec] using taken
    exact frame s _ (.of_out rfl rfl rfl rfl) start
  | handler i =>
    simp only [exec, takeThread, Option.bind_eq_bind, Option.bind_eq_some_iff,
      Option.map_eq_some_iff] at taken
    obtain ⟨p, ⟨h, found, rfl⟩, taken⟩ := taken
    dsimp only at taken
    have thinner : P { s with ts := { s.ts with threads := s.ts.threads.eraseIdx i } } :=
      frame s _ (.of_out rfl rfl rfl rfl) start
    split at taken
    · contradiction
    · rename_i runs
      obtain ⟨rfl, -⟩ := by simpa using taken
      cases live : s.sock.skFreed with
      | false =>
        obtain ⟨connectRto, retransmission⟩ := handler i h rfl found live
        exact runHandler_rule frame free h.handler thinner (fun timer => connectRto timer _)
          (fun timer => retransmission timer _) fun u h =>
            reset (.inr live) u (h.after (.of_out rfl rfl rfl rfl))
      | true =>
        have collects : h.handler = .socketGarbageCollect := by
          simpa [live, Handler.onSock] using runs
        rw [collects]
        unfold runHandler socketGarbageCollect
        dsimp only
        split
        · exact free _ thinner
        · exact thinner

end HfIp
