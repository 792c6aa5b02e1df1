import HfIp.Effects

/- What an event does, call by call: a rule for properties that do not depend on the locks, the
   sleepers, the error and the socket's own state. -/
namespace HfIp

/- What is left of the connection without them. -/
def inner (s : Conn) : Conn :=
  { s with
    nextSkb := 0, readers := [], connecting := false
    sock := { s.sock with
      state := .free, flags := 0, refcnt := 0, locked := false, relocked := false, sleep := {} }
    tsk := { s.tsk with err := 0, recvWait := {} } }

def Idle (s t : Conn) : Prop := inner t = inner s

theorem Idle.refl (s : Conn) : Idle s s := rfl

theorem Idle.trans {s t u : Conn} (first : Idle s t) (second : Idle t u) : Idle s u :=
  Eq.trans second first

/- And no more threads are asleep for text than before. -/
def Calm (s t : Conn) : Prop := Idle s t ∧ t.tsk.recvWait.waiting ≤ s.tsk.recvWait.waiting

theorem Calm.of_wait {s t : Conn} (idle : Idle s t) (wait : t.tsk.recvWait = s.tsk.recvWait) :
    Calm s t := ⟨idle, Nat.le_of_eq (by rw [wait])⟩

/- And no buffer is allocated. -/
def Parked (s t : Conn) : Prop := Calm s t ∧ t.nextSkb = s.nextSkb

theorem Parked.of_wait {s t : Conn} (idle : Idle s t) (wait : t.tsk.recvWait = s.tsk.recvWait)
    (skbs : t.nextSkb = s.nextSkb) : Parked s t := ⟨.of_wait idle wait, skbs⟩

/- The numbers of buffers given out stay given out. -/
def Still (s t : Conn) : Prop := Calm s t ∧ s.nextSkb ≤ t.nextSkb

theorem Parked.still {s t : Conn} (parked : Parked s t) : Still s t :=
  ⟨parked.1, Nat.le_of_eq parked.2.symm⟩

theorem Still.of_wait {s t : Conn} (idle : Idle s t) (wait : t.tsk.recvWait = s.tsk.recvWait)
    (skbs : t.nextSkb = s.nextSkb) : Still s t := (Parked.of_wait idle wait skbs).still

theorem socketRelease_parked (s : Conn) : Parked s (socketRelease s) := .of_wait rfl rfl rfl

theorem socketRelease_still (s : Conn) : Still s (socketRelease s) := (socketRelease_parked s).still

variable {s t : Conn} {r : Reply} {P : Conn → Prop}

theorem call_pass {f : Conn → Conn × Int} (parked : ∀ u v, Parked u v → P u → P v) (start : P s)
    (keep : s.sock.registered = true → P (socketWrAcquire s) → P (f (socketWrAcquire s)).1)
    (taken : call s f = some (t, r)) : P t := by
  unfold call at taken
  split at taken
  · rename_i registered
    have done := keep registered (parked s _ (.of_wait rfl rfl rfl) start)
    obtain ⟨rfl, -⟩ := by simpa using taken
    exact parked _ _ (socketRelease_parked _) done
  · contradiction

theorem connectReturn_pass (parked : ∀ u v, Parked u v → P u → P v)
    (free : ∀ u, P u → P (socketFree u)) (q : Conn × Option Int) (done : P q.1) :
    P (connectReturn q).1 := by
  obtain ⟨u, _ | rc⟩ := q
  · exact done
  · have released : P (socketRelease u) := parked u _ (.of_wait rfl rfl rfl) done
    unfold connectReturn
    dsimp only
    split
    · exact free _ released
    · exact released

theorem connectWait_parked (s : Conn) : Parked s (connectWait s).1 := by
  unfold connectWait
  split
  · exact .of_wait rfl rfl rfl
  · dsimp only
    split <;> exact .of_wait rfl rfl rfl

theorem inetStreamConnect_pass (parked : ∀ u v, Parked u v → P u → P v) (addr : SockAddr)
    (port : UInt16) (iss : UInt32) (start : P s)
    (connect : s.tsk.state = .close → P { s with tsk.err := -EISCONN } →
      P (tcpV4Connect { s with tsk.err := -EISCONN } addr port iss)) :
    P (inetStreamConnect s addr port iss).1 := by
  have marked : ∀ e, P { s with tsk.err := e } := fun e => parked s _ (.of_wait rfl rfl rfl) start
  unfold inetStreamConnect
  split
  · exact start
  · split
    · exact start
    · split
      · exact marked _
      · exact marked _
      · split
        · exact marked _
        · rename_i closed
          have done := connect (not_not.mp closed) (marked _)
          dsimp only
          generalize tcpV4Connect { s with tsk.err := -EISCONN } addr port iss = u at done
          have begun : P { u with sock.state := .connecting, tsk.err := -EINPROGRESS } :=
            parked u _ (.of_wait rfl rfl rfl) done
          split
          · exact begun
          · exact parked _ _ (connectWait_parked _) begun
      · exact marked _

theorem readReturn_parked (len : Nat) (q : Conn × Received) : Parked q.1 (readReturn len q).1 := by
  obtain ⟨u, rc | rlen⟩ := q <;> exact .of_wait rfl rfl rfl

/- The state of a handler's thread when it runs: it has left the list of threads. -/
def started (s : Conn) (i : Nat) : Conn :=
  { s with ts := { s.ts with threads := s.ts.threads.eraseIdx i } }

theorem exec_handler_taken {i : Nat} (taken : exec s (.handler i) = some (t, r)) :
    ∃ h, s.ts.threads[i]? = some h ∧ (s.sock.skFreed = true → h.handler = .socketGarbageCollect) ∧
      t = runHandler (started s i) h.handler := by
  simp only [exec, takeThread, Option.bind_eq_bind, Option.bind_eq_some_iff,
    Option.map_eq_some_iff] at taken
  obtain ⟨p, ⟨h, found, rfl⟩, taken⟩ := taken
  dsimp only at taken
  split at taken
  · contradiction
  · rename_i runs
    obtain ⟨rfl, -⟩ := by simpa using taken
    exact ⟨h, found, fun freed => by simpa [freed, Handler.onSock] using runs, rfl⟩

/- The thread asleep at position `i`, with the lock again. -/
def resumed (s : Conn) (i : Nat) : Conn :=
  socketWrAcquire { s with
    readers := s.readers.eraseIdx i, tsk.recvWait := waitReturn s.tsk.recvWait }

theorem waitReturn_waiting (w : WaitLock) : (waitReturn w).waiting ≤ w.waiting := by
  unfold waitReturn
  split
  · exact Nat.sub_le _ _
  · exact Nat.le_refl _

theorem resumed_parked (s : Conn) (i : Nat) : Parked s (resumed s i) :=
  ⟨⟨rfl, waitReturn_waiting s.tsk.recvWait⟩, rfl⟩

/-- What holds before an event holds after it, when each call keeps it in the state in which the
    event makes the call, and a quieter state does. -/
theorem exec_parked {e : Event} (parked : ∀ u v, Parked u v → P u → P v) (start : P s)
    (taken : exec s e = some (t, r))
    (free : ((∃ addr port iss, e = .connect addr port iss) ∨ e = .connectWakes) →
      ∀ u, P u → P (socketFree u))
    (tick : ∀ busy, e = .tick busy → P { s with ts := timersStart s.ts busy })
    (handler : ∀ i h, e = .handler i → s.ts.threads[i]? = some h →
      (s.sock.skFreed = true → h.handler = .socketGarbageCollect) →
      P (runHandler (started s i) h.handler))
    (write : ∀ buf, e = .write buf → s.sock.registered = true → P (socketWrAcquire s) →
      P (tcpWrite (socketWrAcquire s) buf).1)
    (read : ∀ len, e = .read len → s.sock.registered = true → P (socketWrAcquire s) →
      P (tcpRead (socketWrAcquire s) len).1)
    (wake : ∀ i b, e = .readWakes i → s.readers[i]? = some b → s.sock.skFreed = false →
      P (resumed s i) → P (receiveLoop (resumed s i) b.len b.rlen).1)
    (close : e = .close → s.sock.registered = true → P (socketWrAcquire s) →
      P (tcpClose (socketWrAcquire s)).1)
    (abort : e = .abort → s.sock.registered = true → P (tcpAbort s))
    (connect : ∀ addr port iss, e = .connect addr port iss → s.sock.registered = true →
      s.tsk.state = .close → P { socketWrAcquire s with tsk.err := -EISCONN } →
      P (tcpV4Connect { socketWrAcquire s with tsk.err := -EISCONN } addr port iss))
    (segment : ∀ th payload, e = .segment th payload → s.sock.registered = true →
      P (tcpInputState (socketWrAcquire (tcpInitSegment s th payload).1) th
        (tcpInitSegment s th payload).2)) : P t := by
  have locked : P (socketWrAcquire s) := parked s _ (.of_wait rfl rfl rfl) start
  cases e with
  | connect addr port iss =>
    simp only [exec] at taken
    split at taken
    · rename_i registered
      have done := connectReturn_pass parked (free (.inl ⟨addr, port, iss, rfl⟩)) _
        (inetStreamConnect_pass parked addr port iss locked (connect addr port iss rfl registered))
      rw [Option.some.inj taken] at done
      exact done
    · contradiction
  | connectWakes =>
    simp only [exec, connectWakes] at taken
    split at taken
    · contradiction
    · split at taken
      · have woken : P (connectWait (socketWrAcquire { s with
            connecting := false, sock.sleep := waitReturn s.sock.sleep })).1 :=
          parked _ _ (connectWait_parked _) (parked s _ (.of_wait rfl rfl rfl) start)
        have done := connectReturn_pass parked (free (.inr rfl)) _ woken
        rw [Option.some.inj taken] at done
        exact done
      · contradiction
  | write buf =>
    simp only [exec] at taken
    exact call_pass parked start (write buf rfl) taken
  | read len =>
    simp only [exec] at taken
    split at taken
    · rename_i registered
      have done := parked _ _ (readReturn_parked len _) (read len rfl registered locked)
      rw [Option.some.inj taken] at done
      exact done
    · contradiction
  | readWakes i =>
    simp only [exec, readWakes] at taken
    split at taken
    · contradiction
    · rename_i there
      obtain ⟨b, found, woken⟩ := Option.map_eq_some_iff.mp taken
      have done := parked _ _ (readReturn_parked b.len _) (wake i b rfl found (by simpa using there)
        (parked s _ (resumed_parked s i) start))
      rw [← (Prod.mk.inj woken).1]
      exact done
  | close =>
    simp only [exec] at taken
    exact call_pass parked start (close rfl) taken
  | abort =>
    simp only [exec] at taken
    split at taken
    · rename_i registered
      obtain ⟨rfl, -⟩ := by simpa using taken
      exact abort rfl registered
    · contradiction
  | poll events =>
    simp only [exec] at taken
    exact call_pass parked start (fun _ h => h) taken
  | fcntlGetfl =>
    simp only [exec] at taken
    exact call_pass parked start (fun _ h => h) taken
  | fcntlSetfl flags =>
    simp only [exec] at taken
    refine call_pass parked start (fun _ h => ?_) taken
    exact parked (socketWrAcquire s) _ (.of_wait rfl rfl rfl) h
  | getsockoptError =>
    simp only [exec] at taken
    exact call_pass parked start (fun _ h => h) taken
  | segment th payload =>
    simp only [exec] at taken
    split at taken
    · rename_i here
      obtain ⟨rfl, -⟩ := by simpa using taken
      simp only [Bool.and_eq_true] at here
      exact parked _ _ (socketRelease_parked _) (segment th payload rfl here.1.1)
    · contradiction
  | tick busy =>
    obtain ⟨rfl, -⟩ := by simpa [exec] using taken
    exact tick busy rfl
  | handler i =>
    obtain ⟨h, found, gone, rfl⟩ := exec_handler_taken taken
    exact handler i h rfl found gone

/-- The same for a property that buffers may be allocated under. -/
theorem exec_still {e : Event} (still : ∀ u v, Still u v → P u → P v) (start : P s)
    (taken : exec s e = some (t, r))
    (free : ((∃ addr port iss, e = .connect addr port iss) ∨ e = .connectWakes) →
      ∀ u, P u → P (socketFree u))
    (tick : ∀ busy, e = .tick busy → P { s with ts := timersStart s.ts busy })
    (handler : ∀ i h, e = .handler i → s.ts.threads[i]? = some h →
      (s.sock.skFreed = true → h.handler = .socketGarbageCollect) →
      P (runHandler (started s i) h.handler))
    (write : ∀ buf, e = .write buf → s.sock.registered = true → P (socketWrAcquire s) →
      P (tcpWrite (socketWrAcquire s) buf).1)
    (read : ∀ len, e = .read len → s.sock.registered = true → P (socketWrAcquire s) →
      P (tcpRead (socketWrAcquire s) len).1)
    (wake : ∀ i b, e = .readWakes i → s.readers[i]? = some b → s.sock.skFreed = false →
      P (resumed s i) → P (receiveLoop (resumed s i) b.len b.rlen).1)
    (close : e = .close → s.sock.registered = true → P (socketWrAcquire s) →
      P (tcpClose (socketWrAcquire s)).1)
    (abort : e = .abort → s.sock.registered = true → P (tcpAbort s))
    (connect : ∀ addr port iss, e = .connect addr port iss → s.sock.registered = true →
      s.tsk.state = .close → P { socketWrAcquire s with tsk.err := -EISCONN } →
      P (tcpV4Connect { socketWrAcquire s with tsk.err := -EISCONN } addr port iss))
    (segment : ∀ th payload, e = .segment th payload → s.sock.registered = true →
      P (socketWrAcquire (tcpInitSegment s th payload).1) →
      P (tcpInputState (socketWrAcquire (tcpInitSegment s th payload).1) th
        (tcpInitSegment s th payload).2)) : P t :=
  exec_parked (fun u v parked => still u v parked.still) start taken free tick handler write read wake
    close abort connect fun th payload here live =>
      segment th payload here live (still s _ ⟨.of_wait rfl rfl, Nat.le_succ _⟩ start)

/-- The same for a property that the number of the next buffer does not matter to. -/
theorem exec_calm {e : Event} (calm : ∀ u v, Calm u v → P u → P v) (start : P s)
    (taken : exec s e = some (t, r))
    (free : ((∃ addr port iss, e = .connect addr port iss) ∨ e = .connectWakes) →
      ∀ u, P u → P (socketFree u))
    (tick : ∀ busy, e = .tick busy → P { s with ts := timersStart s.ts busy })
    (handler : ∀ i h, e = .handler i → s.ts.threads[i]? = some h →
      (s.sock.skFreed = true → h.handler = .socketGarbageCollect) →
      P (runHandler (started s i) h.handler))
    (write : ∀ buf, e = .write buf → s.sock.registered = true → P (socketWrAcquire s) →
      P (tcpWrite (socketWrAcquire s) buf).1)
    (read : ∀ len, e = .read len → s.sock.registered = true → P (socketWrAcquire s) →
      P (tcpRead (socketWrAcquire s) len).1)
    (wake : ∀ i b, e = .readWakes i → s.readers[i]? = some b → s.sock.skFreed = false →
      P (resumed s i) → P (receiveLoop (resumed s i) b.len b.rlen).1)
    (close : e = .close → s.sock.registered = true → P (socketWrAcquire s) →
      P (tcpClose (socketWrAcquire s)).1)
    (abort : e = .abort → s.sock.registered = true → P (tcpAbort s))
    (connect : ∀ addr port iss, e = .connect addr port iss → s.sock.registered = true →
      s.tsk.state = .close → P { socketWrAcquire s with tsk.err := -EISCONN } →
      P (tcpV4Connect { socketWrAcquire s with tsk.err := -EISCONN } addr port iss))
    (segment : ∀ th payload, e = .segment th payload → s.sock.registered = true →
      P (socketWrAcquire (tcpInitSegment s th payload).1) →
      P (tcpInputState (socketWrAcquire (tcpInitSegment s th payload).1) th
        (tcpInitSegment s th payload).2)) : P t :=
  exec_still (fun u v still => calm u v still.1) start taken free tick handler write read wake close
    abort connect segment

/-- The same for a property that the sleepers do not matter to. -/
theorem exec_pass {e : Event} (idle : ∀ u v, Idle u v → P u → P v) (start : P s)
    (taken : exec s e = some (t, r))
    (free : ((∃ addr port iss, e = .connect addr port iss) ∨ e = .connectWakes) →
      ∀ u, P u → P (socketFree u))
    (tick : ∀ busy, e = .tick busy → P { s with ts := timersStart s.ts busy })
    (handler : ∀ i h, e = .handler i → s.ts.threads[i]? = some h →
      (s.sock.skFreed = true → h.handler = .socketGarbageCollect) →
      P (runHandler (started s i) h.handler))
    (write : ∀ buf, e = .write buf → s.sock.registered = true → P (socketWrAcquire s) →
      P (tcpWrite (socketWrAcquire s) buf).1)
    (read : ∀ len, e = .read len → s.sock.registered = true → P (socketWrAcquire s) →
      P (tcpRead (socketWrAcquire s) len).1)
    (wake : ∀ i b, e = .readWakes i → s.readers[i]? = some b → s.sock.skFreed = false →
      P (resumed s i) → P (receiveLoop (resumed s i) b.len b.rlen).1)
    (close : e = .close → s.sock.registered = true → P (socketWrAcquire s) →
      P (tcpClose (socketWrAcquire s)).1)
    (abort : e = .abort → s.sock.registered = true → P (tcpAbort s))
    (connect : ∀ addr port iss, e = .connect addr port iss → s.sock.registered = true →
      s.tsk.state = .close → P { socketWrAcquire s with tsk.err := -EISCONN } →
      P (tcpV4Connect { socketWrAcquire s with tsk.err := -EISCONN } addr port iss))
    (segment : ∀ th payload, e = .segment th payload → s.sock.registered = true →
      P (socketWrAcquire (tcpInitSegment s th payload).1) →
      P (tcpInputState (socketWrAcquire (tcpInitSegment s th payload).1) th
        (tcpInitSegment s th payload).2)) : P t :=
  exec_calm (fun u v calm => idle u v calm.1) start taken free tick handler write read wake close
    abort connect segment

end HfIp
