import HfIp.IpcWrite

/- The poll of the daemon (`_poll` of src/socket.c, `ipc_poll` of src/ipc.c) and its messages. -/
namespace HfIp

open Buffer

def IPC_POLL : UInt16 := 6

/- `sizeof(struct ipc_poll)`, `sizeof(struct ipc_err)` and `sizeof(struct ipc_pollfd)`. -/
def ipcPollSize : Nat := 12
def ipcErrSize : Nat := 8
def ipcPollfdSize : Nat := 8

/- `struct pollfd`. -/
structure PollFd where
  fd : Int32
  events : UInt16
  revents : UInt16
  deriving DecidableEq, Repr

/- A `poll_events`: a short that is not negative. -/
structure PollEvents where
  bits : UInt16
  small : bits < 0x8000

/- What `get_socket` finds in a pass of `_poll` over the entries: the `poll_events` of the socket, for
   the place of an entry and its descriptor. Other threads may change them from one entry to the next. -/
abbrev Look := Nat → Int32 → Option PollEvents

/-! ### The daemon -/

def pollRevents (bits events : UInt16) : UInt16 := bits &&& (events ||| POLLHUP ||| POLLERR ||| POLLNVAL)

/- One pass, from the entry at place `i` on, and whether all sockets were found. -/
def pollPass (look : Look) : Nat → List PollFd → List PollFd × Bool
  | _, [] => ([], true)
  | i, p :: rest => match look i p.fd with
    | none => (p :: rest, false)
    | some v =>
      let r := pollPass look (i + 1) rest
      ({ p with revents := pollRevents v.bits p.events } :: r.1, r.2)

/- `poll->revents > 0`, a comparison of shorts. -/
def polled (p : PollFd) : Bool := 0 < p.revents.toInt16

def pollWaited (timeout : Int32) : Int32 :=
  if timeout > 0 then if timeout > 10 then timeout - 10 else 0 else timeout

/- `_poll`, for the looks of its passes; `none` when they are over before it returns. Not in the code:
   the look of its last pass. -/
def daemonPoll : List PollFd → Int32 → List Look → Option (Look × List PollFd × Int)
  | _, _, [] => none
  | fds, timeout, look :: looks =>
    let r := pollPass look 0 fds
    if r.2 = false then some (look, r.1, -EBADF)
    else if r.1.countP polled > 0 ∨ timeout = 0 then some (look, r.1, r.1.countP polled)
    else daemonPoll r.1 (pollWaited timeout) looks

/-! ### Messages -/

def pollfdBytes (p : PollFd) : List UInt8 := le32 p.fd.toUInt32 ++ le16 p.events ++ le16 p.revents

def pollfdAt (m : List UInt8) (i : Nat) : PollFd :=
  { fd := (hostDwordAt m i).toInt32, events := hostWordAt m (i + 4), revents := hostWordAt m (i + 6) }

/- `n` entries of an array. -/
def pollfdsAt (m : List UInt8) : Nat → Nat → List PollFd
  | _, 0 => []
  | i, n + 1 => pollfdAt m i :: pollfdsAt m (i + ipcPollfdSize) n

def pollMessage (pid : UInt32) (timeout : Int32) (fds : List PollFd) : List UInt8 :=
  le16 IPC_POLL ++ le32 pid ++ leBytes 8 fds.length ++ le32 timeout.toUInt32 ++ fds.flatMap pollfdBytes

def pollResponse (pid : UInt32) (rc err : Int) (fds : List PollFd) : List UInt8 :=
  le16 IPC_POLL ++ le32 pid ++ le32 (Int32.ofInt rc).toUInt32 ++ le32 (Int32.ofInt err).toUInt32 ++
    fds.flatMap pollfdBytes

/- `ipc_poll` for the message in `buf`. -/
def ipcPoll (buf : List UInt8) (looks : List Look) : Option (Look × List UInt8) :=
  let pid := hostDwordAt buf 2
  let nfds := leNat (field buf ipcMsgSize 8)
  let timeout := (hostDwordAt buf (ipcMsgSize + 8)).toInt32
  let fds := pollfdsAt buf (ipcMsgSize + ipcPollSize) nfds
  (daemonPoll fds timeout looks).map fun (look, fds, rc) =>
    (look, if rc < 0 then pollResponse pid (-1) (-rc) fds else pollResponse pid rc 0 fds)

variable {look : Look} {fds : List PollFd}

theorem pollfdBytes_length (p : PollFd) : (pollfdBytes p).length = 8 := rfl

theorem pollfds_length (fds : List PollFd) : (fds.flatMap pollfdBytes).length = 8 * fds.length := by
  induction fds with
  | nil => rfl
  | cons p rest ih =>
    rw [List.flatMap_cons, List.length_append, ih, pollfdBytes_length, List.length_cons]
    omega

theorem pollMessage_length (pid : UInt32) (timeout : Int32) (fds : List PollFd) :
    (pollMessage pid timeout fds).length = 18 + 8 * fds.length := by
  simp only [pollMessage, List.length_append, leBytes_length, pollfds_length, le16, le32,
    List.length_cons, List.length_nil]

theorem pollResponse_length (pid : UInt32) (rc err : Int) (fds : List PollFd) :
    (pollResponse pid rc err fds).length = 14 + 8 * fds.length := by
  simp only [pollResponse, List.length_append, pollfds_length, le16, le32, List.length_cons,
    List.length_nil]

theorem pollfdAt_of_field {m : List UInt8} {i : Nat} {p : PollFd}
    (here : field m i 8 = pollfdBytes p) : pollfdAt m i = p := by
  have part (j k : Nat) (inside : j + k ≤ 8) : field m (i + j) k = field (pollfdBytes p) j k := by
    rw [← here, field_field m inside]
  have fd : field m i 4 = le32 p.fd.toUInt32 := part 0 4 (by omega)
  have events : field m (i + 4) 2 = le16 p.events := part 4 2 (by omega)
  have revents : field m (i + 6) 2 = le16 p.revents := part 6 2 (by omega)
  rw [pollfdAt, hostDwordAt_of_field fd, hostWordAt_of_field events, hostWordAt_of_field revents]
  rfl

/- An array that is sent is the array that is read. -/
theorem pollfdsAt_of_field {m : List UInt8} {i : Nat} {fds : List PollFd}
    (here : field m i (8 * fds.length) = fds.flatMap pollfdBytes) :
    pollfdsAt m i fds.length = fds := by
  induction fds generalizing i with
  | nil => rfl
  | cons p rest ih =>
    rw [List.length_cons, Nat.mul_add, Nat.mul_one, Nat.add_comm, List.flatMap_cons] at here
    obtain ⟨first, others⟩ := field_split here (pollfdBytes_length p)
    have later : pollfdsAt m (i + ipcPollfdSize) rest.length = rest := ih others
    rw [List.length_cons, pollfdsAt, pollfdAt_of_field first, later]

/- What starts with a message has its fields. -/
theorem ipcPoll_message {buf : List UInt8} {pid : UInt32} {timeout : Int32}
    (here : field buf 0 (18 + 8 * fds.length) = pollMessage pid timeout fds)
    (few : fds.length < 2 ^ 64) (looks : List Look) : ipcPoll buf looks =
      (daemonPoll fds timeout looks).map fun (look, fds, rc) =>
        (look, if rc < 0 then pollResponse pid (-1) (-rc) fds else pollResponse pid rc 0 fds) := by
  unfold pollMessage at here
  rw [List.append_assoc, List.append_assoc, List.append_assoc,
    show 18 + 8 * fds.length = 2 + (16 + 8 * fds.length) by omega] at here
  obtain ⟨-, here⟩ := field_split here rfl
  rw [show 16 + 8 * fds.length = 4 + (12 + 8 * fds.length) by omega] at here
  obtain ⟨atPid, here⟩ := field_split here rfl
  rw [show 12 + 8 * fds.length = 8 + (4 + 8 * fds.length) by omega] at here
  obtain ⟨atNfds, here⟩ := field_split here (leBytes_length 8 _)
  obtain ⟨atTimeout, atFds⟩ := field_split here rfl
  have nfds : leNat (field buf ipcMsgSize 8) = fds.length := by
    show leNat (field buf (0 + 2 + 4) 8) = _
    rw [atNfds, leNat_leBytes, Nat.mod_eq_of_lt (by omega)]
  have timeouts : (hostDwordAt buf (ipcMsgSize + 8)).toInt32 = timeout := by
    show (hostDwordAt buf (0 + 2 + 4 + 8)).toInt32 = _
    rw [hostDwordAt_of_field atTimeout]
    rfl
  have pids : hostDwordAt buf 2 = pid := hostDwordAt_of_field atPid
  have entries : pollfdsAt buf (ipcMsgSize + ipcPollSize) fds.length = fds := pollfdsAt_of_field atFds
  simp only [ipcPoll, nfds, timeouts, pids, entries]

theorem pollResponse_fields {m : List UInt8} {pid : UInt32} {rc err : Int}
    (here : field m 0 (14 + 8 * fds.length) = pollResponse pid rc err fds) :
    hostWordAt m 0 = IPC_POLL ∧ hostDwordAt m 2 = pid ∧
      (hostDwordAt m ipcMsgSize).toInt32 = Int32.ofInt rc ∧
      pollfdsAt m (ipcMsgSize + ipcErrSize) fds.length = fds := by
  unfold pollResponse at here
  rw [List.append_assoc, List.append_assoc, List.append_assoc,
    show 14 + 8 * fds.length = 2 + (12 + 8 * fds.length) by omega] at here
  obtain ⟨atType, here⟩ := field_split here rfl
  rw [show 12 + 8 * fds.length = 4 + (8 + 8 * fds.length) by omega] at here
  obtain ⟨atPid, here⟩ := field_split here rfl
  rw [show 8 + 8 * fds.length = 4 + (4 + 8 * fds.length) by omega] at here
  obtain ⟨atRc, here⟩ := field_split here rfl
  obtain ⟨-, atFds⟩ := field_split here rfl
  refine ⟨hostWordAt_of_field atType, hostDwordAt_of_field atPid, ?_, pollfdsAt_of_field atFds⟩
  show (hostDwordAt m (0 + 2 + 4)).toInt32 = _
  rw [hostDwordAt_of_field atRc]
  rfl

/-! ### The daemon's answer -/

/-- The entries with what was looked up for each. -/
structure Answers (look : Look) (i : Nat) (fds result : List PollFd) : Prop where
  length : result.length = fds.length
  each : ∀ j p, fds[j]? = some p → ∃ v, look (i + j) p.fd = some v ∧
    result[j]? = some { p with revents := pollRevents v.bits p.events }

theorem pollPass_answers {i : Nat} (found : (pollPass look i fds).2 = true) :
    Answers look i fds (pollPass look i fds).1 := by
  induction fds generalizing i with
  | nil => exact ⟨rfl, fun j p here => by simp at here⟩
  | cons q rest ih =>
    rw [pollPass] at found ⊢
    cases seen : look i q.fd with
    | none => simp [seen] at found
    | some v =>
      simp only [seen] at found ⊢
      have later := ih found
      refine ⟨by rw [List.length_cons, later.length, List.length_cons], fun j p here => ?_⟩
      cases j with
      | zero =>
        obtain rfl : q = p := by simpa using here
        exact ⟨v, seen, rfl⟩
      | succ j =>
        obtain ⟨w, looked, answer⟩ := later.each j p (by simpa using here)
        rw [show i + 1 + j = i + (j + 1) by omega] at looked
        exact ⟨w, looked, by simpa using answer⟩

theorem Answers.trans {i : Nat} {before : Look} {middle result : List PollFd}
    (first : Answers before i fds middle) (second : Answers look i middle result) :
    Answers look i fds result where
  length := second.length.trans first.length
  each j p here := by
    obtain ⟨v, -, there⟩ := first.each j p here
    obtain ⟨w, looked, answer⟩ := second.each j _ there
    exact ⟨w, looked, answer⟩

theorem polled_iff {p : PollFd} {v : PollEvents} (answer : p.revents = pollRevents v.bits p.events) :
    polled p = true ↔ p.revents ≠ 0 := by
  have part : p.revents.toNat ≤ v.bits.toNat := by
    rw [answer, pollRevents, UInt16.toNat_and]
    exact Nat.and_le_left
  have small : v.bits.toNat < 2 ^ 15 := UInt16.lt_iff_toNat_lt.mp v.small
  have value : p.revents.toInt16.toInt = p.revents.toNat :=
    BitVec.toInt_eq_toNat_of_lt (by show 2 * p.revents.toNat < 2 ^ 16; omega)
  rw [polled, decide_eq_true_iff, Int16.lt_iff_toInt_lt, value, ← UInt16.toNat_inj.ne]
  show (0 : Int) < _ ↔ _ ≠ 0
  omega

theorem Answers.count {i : Nat} {result : List PollFd} (answers : Answers look i fds result) :
    result.countP polled = result.countP (·.revents ≠ 0) := by
  refine List.countP_congr fun q member => ?_
  obtain ⟨j, here⟩ := List.mem_iff_getElem?.mp member
  obtain ⟨inside, -⟩ := List.getElem?_eq_some_iff.mp here
  rw [answers.length] at inside
  obtain ⟨v, -, answer⟩ := answers.each j fds[j] (List.getElem?_eq_getElem inside)
  obtain rfl : _ = q := Option.some.inj (answer.symm.trans here)
  rw [polled_iff (v := v) rfl]
  simp

/-- When `_poll` does not fail, its last pass has answered every entry, and it returns the number of
    entries with something to report. -/
theorem daemonPoll_answers {timeout : Int32} {looks : List Look} {result : List PollFd} {rc : Int}
    (returned : daemonPoll fds timeout looks = some (look, result, rc)) (well : 0 ≤ rc) :
    Answers look 0 fds result ∧ rc = result.countP (·.revents ≠ 0) := by
  induction looks generalizing fds timeout with
  | nil => cases returned
  | cons first rest ih =>
    rw [daemonPoll] at returned
    split at returned
    · obtain ⟨-, -, rfl⟩ := by simpa using returned
      exact absurd well (by decide)
    · rename_i found
      have pass := pollPass_answers (Bool.not_eq_false _ ▸ found)
      split at returned
      · obtain ⟨rfl, rfl, rfl⟩ := by simpa using returned
        exact ⟨pass, by rw [pass.count]⟩
      · obtain ⟨answers, count⟩ := ih returned
        exact ⟨pass.trans answers, count⟩

theorem pollPass_length (look : Look) (i : Nat) (fds : List PollFd) :
    (pollPass look i fds).1.length = fds.length := by
  induction fds generalizing i with
  | nil => rfl
  | cons p rest ih =>
    rw [pollPass]
    cases look i p.fd with
    | none => rfl
    | some v => simp only [List.length_cons, ih]

theorem daemonPoll_length {timeout : Int32} {looks : List Look} {result : List PollFd} {rc : Int}
    (returned : daemonPoll fds timeout looks = some (look, result, rc)) : result.length = fds.length := by
  induction looks generalizing fds timeout with
  | nil => cases returned
  | cons first rest ih =>
    have pass := pollPass_length first 0 fds
    rw [daemonPoll] at returned
    split at returned
    · obtain ⟨-, rfl, -⟩ := by simpa using returned
      exact pass
    · split at returned
      · obtain ⟨-, rfl, -⟩ := by simpa using returned
        exact pass
      · exact (ih returned).trans pass

/-- What the client reads: the response is to its own message, and holds the answers when the daemon's
    `_poll` has not failed. -/
theorem ipcPoll_reply {buf : Vector UInt8 IPC_BUFLEN} {pid : UInt32} {timeout : Int32}
    {looks : List Look} {response rbuf : List UInt8} (fits : 18 + 8 * fds.length ≤ IPC_BUFLEN)
    (replied : ipcPoll (put buf.toList 0 (pollMessage pid timeout fds)) looks = some (look, response))
    (read : rbuf = put (List.replicate (14 + 8 * fds.length) 0) 0 response) :
    hostWordAt rbuf 0 = IPC_POLL ∧ hostDwordAt rbuf 2 = pid ∧
      (0 ≤ (hostDwordAt rbuf ipcMsgSize).toInt32.toInt →
        Answers look 0 fds (pollfdsAt rbuf (ipcMsgSize + ipcErrSize) fds.length) ∧
          (hostDwordAt rbuf ipcMsgSize).toInt32.toInt =
            (pollfdsAt rbuf (ipcMsgSize + ipcErrSize) fds.length).countP (·.revents ≠ 0)) := by
  have length := pollMessage_length pid timeout fds
  have few : fds.length ≤ 1021 := by
    have size : IPC_BUFLEN = 8192 := rfl
    omega
  have message : field (put buf.toList 0 (pollMessage pid timeout fds)) 0 (18 + 8 * fds.length) =
      pollMessage pid timeout fds := by
    rw [← length]
    refine field_put_self _ _ ?_
    rw [length, Vector.length_toList]
    omega
  rw [ipcPoll_message message (by omega)] at replied
  cases polling : daemonPoll fds timeout looks with
  | none => simp [polling] at replied
  | some r =>
    obtain ⟨seen, answers, rc⟩ := r
    rw [polling, Option.map_some] at replied
    obtain ⟨rfl, rfl⟩ := Prod.mk.inj (Option.some.inj replied)
    have long := daemonPoll_length polling
    have holds {rc err : Int} (made : rbuf = put (List.replicate (14 + 8 * fds.length) 0) 0
        (pollResponse pid rc err answers)) :
        field rbuf 0 (14 + 8 * answers.length) = pollResponse pid rc err answers := by
      rw [made, ← pollResponse_length pid rc err answers]
      refine field_put_self _ _ ?_
      rw [pollResponse_length, List.length_replicate, long]
      omega
    rw [← long]
    split at read
    · obtain ⟨type, process, result, -⟩ := pollResponse_fields (holds read)
      refine ⟨type, process, fun well => ?_⟩
      rw [result] at well
      exact absurd well (by decide)
    · rename_i well
      obtain ⟨type, process, result, entries⟩ := pollResponse_fields (holds read)
      obtain ⟨answered, count⟩ := daemonPoll_answers polling (Int.not_lt.mp well)
      refine ⟨type, process, fun _ => ?_⟩
      have most := List.countP_le_length (p := fun p : PollFd => decide (p.revents ≠ 0)) (l := answers)
      rw [entries, result, Int32.toInt_ofInt_of_le (by omega) (by omega)]
      exact ⟨answered, count⟩

end HfIp
