import HfIp.SkBytes
import HfIp.Lib.Calls

/- Writes over the UNIX stream between the interposer (`write` of tools/libhfip.c) and the daemon
   (`socket_ipc_open` and `ipc_write` of src/ipc.c), on one socket. -/
namespace HfIp

open Buffer

def IPC_WRITE : UInt16 := 3
def IPC_BUFLEN : Nat := 8192

/- `sizeof(struct ipc_msg)` and `sizeof(struct ipc_write)`. -/
def ipcMsgSize : Nat := 6
def ipcWriteSize : Nat := 12

/- The arguments of a write: of the client's call, and of the daemon's `_write`. -/
structure WriteCall where
  pid : UInt32
  sockfd : UInt32
  bytes : List UInt8
  deriving DecidableEq, Repr

/- A number of `k` bytes as the host stores it. -/
def leBytes : Nat → Nat → List UInt8
  | 0, _ => []
  | k + 1, n => UInt8.ofNat n :: leBytes k (n / 256)

/- A conversion to `int`. -/
def toInt32 (n : Int) : Int := n.bmod (2 ^ 32)

/-! ### The client -/

/- The message that `write` builds. -/
def writeMessage (c : WriteCall) : List UInt8 :=
  le16 IPC_WRITE ++ le32 c.pid ++ le32 c.sockfd ++ leBytes 8 c.bytes.length ++ c.bytes

def msglen (c : WriteCall) : Int := toInt32 (ipcMsgSize + ipcWriteSize + c.bytes.length)

/- What reaches the stream. Where `msglen` has lost bits it is negative, and the kernel refuses it, or
   the copy of `buf` runs out of the message on the stack. -/
def transmitted (c : WriteCall) : List UInt8 :=
  if msglen c = ipcMsgSize + ipcWriteSize + c.bytes.length then writeMessage c else []

/-! ### The daemon -/

/- Every state is at the head of the loop of `socket_ipc_open`: `stream` holds what it has not read,
   `buf` is its buffer, `written` its calls of `_write`, `responses` what the client has not read, `up`
   says that the loop is not left. `called` are the client's calls and `waiting` its wait for a
   response. -/
structure IpcState where
  called : List WriteCall := []
  waiting : Bool := false
  stream : List UInt8 := []
  responses : Nat := 0
  buf : List UInt8
  written : List WriteCall := []
  up : Bool := true
  deriving DecidableEq, Repr

/- `msg->data` as a `struct ipc_write`. -/
def payloadFd (buf : List UInt8) : UInt32 := hostDwordAt buf ipcMsgSize

def payloadLen (buf : List UInt8) : Nat := leNat (field buf (ipcMsgSize + 4) 8)

def payloadBuf : Nat := ipcMsgSize + ipcWriteSize

/- What the first read of a message can hold of the payload. -/
def ipcHead : Nat := IPC_BUFLEN - ipcWriteSize - ipcMsgSize

/- `ipc_write`, whose read of the tail returns `res` bytes. -/
def ipcWrite (s : IpcState) (res : Nat) : IpcState :=
  let len := payloadLen s.buf
  let call (bytes : List UInt8) : WriteCall :=
    { pid := hostDwordAt s.buf 2, sockfd := payloadFd s.buf, bytes := bytes }
  if len > ipcHead then
    let tail := toInt32 (len - ipcHead)
    -- a negative count is refused
    if tail < 0 then { s with up := false }
    else
      let bytes := field s.buf payloadBuf ipcHead ++ s.stream.take res ++
        List.replicate (len - ipcHead - res) 0
      { s with
        stream := s.stream.drop res
        written := s.written ++ [call bytes]
        responses := s.responses + 1 }
  else
    { s with
      written := s.written ++ [call (field s.buf payloadBuf len)]
      responses := s.responses + 1 }

/- The types of message that are answered; 9, IPC_SETSOCKOPT, is none of them. -/
def answered (type : UInt16) : Bool := 1 ≤ type ∧ type ≤ 11 ∧ type ≠ 9

/- `demux_ipc_socket_call`. No other handler reads from the stream or calls `_write`. -/
def demuxIpcSocketCall (s : IpcState) (res : Nat) : IpcState :=
  if hostWordAt s.buf 0 = IPC_WRITE then ipcWrite s res
  else if answered (hostWordAt s.buf 0) then { s with responses := s.responses + 1 }
  else s

/- The first read of a turn returns `rc` bytes. -/
def ipcFill (s : IpcState) (rc : Nat) : IpcState :=
  { s with buf := put s.buf 0 (s.stream.take rc), stream := s.stream.drop rc }

/- The bytes that the read of the tail asks for, if it is reached. -/
def tailAsked (s : IpcState) : Option Nat :=
  if hostWordAt s.buf 0 = IPC_WRITE ∧ payloadLen s.buf > ipcHead then
    some (toInt32 (payloadLen s.buf - ipcHead)).toNat
  else none

/- A read returns some of the bytes that are there, none only when none is asked for. -/
def ReadOk (asked available res : Nat) : Prop :=
  res ≤ asked ∧ res ≤ available ∧ (0 < asked → 0 < res)

instance (asked available res : Nat) : Decidable (ReadOk asked available res) :=
  inferInstanceAs (Decidable (_ ∧ _))

/- A turn of the loop that can happen. -/
def TurnOk (s : IpcState) (rc res : Nat) : Prop :=
  s.up = true ∧ ReadOk IPC_BUFLEN s.stream.length rc ∧
    ∀ asked ∈ tailAsked (ipcFill s rc), ReadOk asked (ipcFill s rc).stream.length res

instance (s : IpcState) (rc res : Nat) : Decidable (TurnOk s rc res) :=
  inferInstanceAs (Decidable (_ ∧ _ ∧ _))

/-! ### Both -/

inductive IpcEvent where
  | write (c : WriteCall)
  | respond
  | turn (rc res : Nat)
  deriving DecidableEq, Repr

/- An event that cannot happen changes nothing. -/
def ipcStep (s : IpcState) : IpcEvent → IpcState
  | .write c =>
    if s.waiting then s
    else { s with
      called := s.called ++ [c], stream := s.stream ++ transmitted c, waiting := true }
  | .respond =>
    if s.waiting ∧ 0 < s.responses then { s with responses := s.responses - 1, waiting := false }
    else s
  | .turn rc res => if TurnOk s rc res then demuxIpcSocketCall (ipcFill s rc) res else s

/-- The daemon has made the client's calls, one by one and as they were made, up to those whose
    messages are in the stream, which starts with the first byte of the first of them. -/
def Framed (s : IpcState) : Prop :=
  s.up = true ∧ ∃ rest, s.called = s.written ++ rest ∧ s.stream = rest.flatMap writeMessage

/-- The length of a message fits an int, and no read returns less than it asks for and there is. -/
def Whole (s : IpcState) : IpcEvent → Prop
  | .write c => s.waiting = false → ipcMsgSize + ipcWriteSize + c.bytes.length < 2 ^ 31
  | .respond => True
  | .turn rc res => TurnOk s rc res → rc = min IPC_BUFLEN s.stream.length ∧
      ∀ asked ∈ tailAsked (ipcFill s rc), res = min asked (ipcFill s rc).stream.length

/-! ### The message in the buffer -/

@[simp] theorem leBytes_length (k n : Nat) : (leBytes k n).length = k := by
  induction k generalizing n with
  | zero => rfl
  | succ k ih => rw [leBytes, List.length_cons, ih]

theorem leNat_leBytes (k n : Nat) : leNat (leBytes k n) = n % 256 ^ k := by
  induction k generalizing n with
  | zero => rw [leBytes, leNat, Nat.pow_zero, Nat.mod_one]
  | succ k ih =>
    have power : 256 ^ (k + 1) = 256 * 256 ^ k := Nat.pow_succ'
    rw [leBytes, leNat, ih, UInt8.toNat_ofNat', power, Nat.mod_mul]

theorem writeMessage_length (c : WriteCall) : (writeMessage c).length = 18 + c.bytes.length := by
  simp only [writeMessage, List.length_append, leBytes_length, le16, le32, List.length_cons,
    List.length_nil]

theorem toInt32_small {n : Int} (positive : 0 ≤ n) (small : n < 2 ^ 31) : toInt32 n = n :=
  Int.bmod_eq_of_le (by omega) (by omega)

theorem toInt32_large {n : Int} (large : 2 ^ 31 ≤ n) : toInt32 n ≠ n := by
  have bound := Int.bmod_lt (x := n) (m := 2 ^ 32) (by decide)
  intro same
  rw [toInt32] at same
  omega

theorem transmitted_small {c : WriteCall} (fits : ipcMsgSize + ipcWriteSize + c.bytes.length < 2 ^ 31) :
    transmitted c = writeMessage c := if_pos (toInt32_small (by omega) (by omega))

theorem transmitted_large {c : WriteCall} (long : ¬ipcMsgSize + ipcWriteSize + c.bytes.length < 2 ^ 31) :
    transmitted c = [] := if_neg (toInt32_large (by omega))

/- The fields of a message. -/
theorem writeMessage_fields (c : WriteCall) : field (writeMessage c) 0 2 = le16 IPC_WRITE ∧
    field (writeMessage c) 2 4 = le32 c.pid ∧ field (writeMessage c) 6 4 = le32 c.sockfd ∧
    field (writeMessage c) 10 8 = leBytes 8 c.bytes.length ∧
    ∀ n, field (writeMessage c) 18 n = c.bytes.take n := by
  have long := leBytes_length 8 c.bytes.length
  unfold writeMessage
  simp only [List.append_assoc]
  refine ⟨field_left rfl, ?_, ?_, ?_, fun n => ?_⟩
  · rw [field_right (show 2 ≤ 2 from Nat.le_refl _)]
    exact field_left rfl
  · rw [field_right (show 2 ≤ 6 by omega), field_right (show 4 ≤ 4 from Nat.le_refl _)]
    exact field_left rfl
  · rw [field_right (show 2 ≤ 10 by omega), field_right (show 4 ≤ 8 by omega),
      field_right (show 4 ≤ 4 from Nat.le_refl _)]
    exact field_left long
  · rw [field_right (show 2 ≤ 18 by omega), field_right (show 4 ≤ 16 by omega),
      field_right (show 4 ≤ 12 by omega)]
    show field (leBytes 8 c.bytes.length ++ c.bytes) 8 n = c.bytes.take n
    rw [field_right (Nat.le_of_eq long), long]
    rfl

theorem writeMessage_drop (c : WriteCall) (n : Nat) :
    (writeMessage c).drop (18 + n) = c.bytes.drop n := by
  obtain ⟨-, -, -, -, bytes⟩ := writeMessage_fields c
  have all := bytes c.bytes.length
  rw [field, List.take_of_length_le (by rw [List.length_drop, writeMessage_length]; omega),
    List.take_length] at all
  rw [← List.drop_drop, all]

/-! ### A turn of the daemon -/

/-- Client and daemon in step: no call, a call whose message is in the stream, or an answered one. -/
structure Lockstep (s : IpcState) : Prop where
  up : s.up = true
  room : s.buf.length = IPC_BUFLEN
  phase : (s.waiting = false ∧ s.responses = 0 ∧ s.called = s.written ∧ s.stream = []) ∨
    (∃ c, ipcMsgSize + ipcWriteSize + c.bytes.length < 2 ^ 31 ∧ s.waiting = true ∧ s.responses = 0 ∧
      s.called = s.written ++ [c] ∧ s.stream = writeMessage c) ∨
    (s.waiting = true ∧ s.responses = 1 ∧ s.called = s.written ∧ s.stream = [])

variable {s : IpcState} {c : WriteCall}

theorem Lockstep.framed (step : Lockstep s) : Framed s := by
  refine ⟨step.up, ?_⟩
  rcases step.phase with ⟨-, -, called, stream⟩ | ⟨c, -, -, -, called, stream⟩ |
    ⟨-, -, called, stream⟩
  · exact ⟨[], by simpa using called, stream⟩
  · exact ⟨[c], called, by simpa using stream⟩
  · exact ⟨[], by simpa using called, stream⟩

theorem toInt32_le {n : Int} (positive : 0 ≤ n) : toInt32 n ≤ n := by
  have power : ((2 ^ 32 : Nat) : Int) = 4294967296 := by decide
  rw [toInt32, Int.bmod_def, power]
  split
  · omega
  · omega

/- What can become of a message: no call of `_write`, the end of the loop, or a call whose length is
   the one in the buffer. -/
theorem demux_cases (s : IpcState) {res : Nat} (room : s.buf.length = IPC_BUFLEN)
    (ok : ∀ asked ∈ tailAsked s, ReadOk asked s.stream.length res) :
    ((demuxIpcSocketCall s res).written = s.written ∧
      (demuxIpcSocketCall s res).stream = s.stream) ∨
    (demuxIpcSocketCall s res).up = false ∨
    ∃ x : WriteCall, hostWordAt s.buf 0 = IPC_WRITE ∧ x.bytes.length = payloadLen s.buf ∧
      (demuxIpcSocketCall s res).written = s.written ++ [x] ∧
      (demuxIpcSocketCall s res).stream =
        if payloadLen s.buf > ipcHead then s.stream.drop res else s.stream := by
  have whole : s.buf.length = 8192 := room
  unfold demuxIpcSocketCall
  by_cases write : hostWordAt s.buf 0 = IPC_WRITE
  · rw [if_pos write]
    unfold ipcWrite
    dsimp only
    by_cases long : payloadLen s.buf > ipcHead
    · have asks : tailAsked s = some (toInt32 (payloadLen s.buf - ipcHead)).toNat :=
        if_pos ⟨write, long⟩
      obtain ⟨most, there, -⟩ := ok _ asks
      have less := toInt32_le (n := payloadLen s.buf - ipcHead) (by omega)
      rw [if_pos long]
      by_cases negative : toInt32 (payloadLen s.buf - ipcHead) < 0
      · rw [if_pos negative]
        exact .inr (.inl rfl)
      · rw [if_neg negative]
        refine .inr (.inr ⟨_, write, ?_, rfl, (if_pos long).symm⟩)
        have front := length_field (m := s.buf) (i := payloadBuf) (n := ipcHead)
          (by rw [whole]; decide)
        simp only [List.length_append, List.length_take, List.length_replicate, front]
        omega
    · rw [if_neg long]
      refine .inr (.inr ⟨_, write, ?_, rfl, (if_neg long).symm⟩)
      have short : payloadLen s.buf ≤ 8174 := Nat.le_of_not_lt long
      exact length_field (show 18 + payloadLen s.buf ≤ s.buf.length by omega)
  · rw [if_neg write]
    split
    · exact .inl ⟨rfl, rfl⟩
    · exact .inl ⟨rfl, rfl⟩

theorem demux_called (s : IpcState) (res : Nat) : (demuxIpcSocketCall s res).called = s.called := by
  unfold demuxIpcSocketCall ipcWrite
  dsimp only
  split
  · split
    · split
      · rfl
      · rfl
    · rfl
  · split
    · rfl
    · rfl

/- The header is in the buffer after a read of at least its length. -/
theorem ipcFill_fields (room : s.buf.length = IPC_BUFLEN) (stream : s.stream = writeMessage c)
    {rc : Nat} (some_read : rc ≤ (writeMessage c).length) (most : rc ≤ IPC_BUFLEN) {i n : Nat}
    (inside : i + n ≤ rc) : field (ipcFill s rc).buf i n = field (writeMessage c) i n := by
  have cut : (s.stream.take rc).length = rc := by
    rw [stream, List.length_take]
    omega
  have front := field_put_self s.buf (s.stream.take rc) (i := 0) (by rw [cut, room]; omega)
  rw [cut] at front
  have whole := field_field (ipcFill s rc).buf (i := 0) inside
  rw [Nat.zero_add] at whole
  have same := field_field (writeMessage c) (i := 0) inside
  rw [Nat.zero_add] at same
  rw [← whole, ← same]
  exact congrArg (fun m => field m i n) (front.trans (by rw [stream]; rfl))

/- What the daemon finds in the buffer. -/
theorem ipcFill_reads (rc : Nat) (room : s.buf.length = IPC_BUFLEN)
    (stream : s.stream = writeMessage c) (some_read : rc ≤ (writeMessage c).length) (most : rc ≤ IPC_BUFLEN)
    (header : 18 ≤ rc) (fits : c.bytes.length < 2 ^ 31) :
    hostWordAt (ipcFill s rc).buf 0 = IPC_WRITE ∧ hostDwordAt (ipcFill s rc).buf 2 = c.pid ∧
      payloadFd (ipcFill s rc).buf = c.sockfd ∧
      payloadLen (ipcFill s rc).buf = c.bytes.length ∧
      ∀ n, 18 + n ≤ rc → field (ipcFill s rc).buf payloadBuf n = c.bytes.take n := by
  obtain ⟨type, pid, sockfd, len, bytes⟩ := writeMessage_fields c
  have read : ∀ i n, i + n ≤ rc → field (ipcFill s rc).buf i n = field (writeMessage c) i n :=
    fun i n inside => ipcFill_fields room stream some_read most inside
  refine ⟨hostWordAt_of_field ((read 0 2 (by omega)).trans type),
    hostDwordAt_of_field ((read 2 4 (by omega)).trans pid),
    hostDwordAt_of_field ((read 6 4 (by omega)).trans sockfd), ?_,
    fun n inside => (read 18 n inside).trans (bytes n)⟩
  have eight : field (ipcFill s rc).buf 10 8 = leBytes 8 c.bytes.length :=
    (read 10 8 (by omega)).trans len
  show leNat (field (ipcFill s rc).buf 10 8) = c.bytes.length
  rw [eight, leNat_leBytes]
  exact Nat.mod_eq_of_lt (by omega)

/- Where the tail is read, and how much of it is asked for. -/
theorem tailAsked_long {len : Nat} (type : hostWordAt s.buf 0 = IPC_WRITE)
    (here : payloadLen s.buf = len) (long : len > ipcHead) (small : len < 2 ^ 31) :
    toInt32 (payloadLen s.buf - ipcHead) = len - ipcHead ∧ tailAsked s = some (len - ipcHead) := by
  have small' : toInt32 (payloadLen s.buf - ipcHead) = len - ipcHead := by
    rw [here]
    exact toInt32_small (by omega) (by omega)
  refine ⟨small', ?_⟩
  rw [tailAsked, if_pos ⟨type, here ▸ long⟩, small']
  exact congrArg some (by omega)

/- Whole reads: the daemon makes the call of the client. -/
theorem turn_whole (step : Lockstep s) (small : c.bytes.length < 2 ^ 31)
    (waiting : s.waiting = true) (unanswered : s.responses = 0)
    (called : s.called = s.written ++ [c]) (stream : s.stream = writeMessage c) {rc res : Nat}
    (first : rc = min IPC_BUFLEN s.stream.length)
    (whole : ∀ asked ∈ tailAsked (ipcFill s rc), res = min asked (ipcFill s rc).stream.length) :
    Lockstep (demuxIpcSocketCall (ipcFill s rc) res) := by
  have total := writeMessage_length c
  have reads : rc = min 8192 (18 + c.bytes.length) := by rw [first, stream, total]; rfl
  obtain ⟨type, pid, sockfd, len, bytes⟩ := ipcFill_reads rc step.room stream (by omega)
    (show rc ≤ 8192 by omega) (by omega) small
  have room : (ipcFill s rc).buf.length = IPC_BUFLEN := by
    rw [ipcFill, length_put]
    exact step.room
  have left : (ipcFill s rc).stream = (writeMessage c).drop rc := by rw [ipcFill, stream]
  have answered : (ipcFill s rc).responses + 1 = 1 := by rw [ipcFill, unanswered]
  rw [demuxIpcSocketCall, if_pos type, ipcWrite]
  dsimp only
  rw [pid, sockfd]
  by_cases long : c.bytes.length > ipcHead
  · obtain ⟨tail, asks⟩ := tailAsked_long type len long small
    have long' : 8174 < c.bytes.length := long
    have full : rc = 18 + 8174 := by omega
    have rest : (ipcFill s rc).stream = c.bytes.drop 8174 := by
      rw [left, full, writeMessage_drop]
    have res_eq : res = c.bytes.length - 8174 := by
      rw [whole _ asks, rest, List.length_drop]
      exact Nat.min_self _
    have front : field (ipcFill s rc).buf payloadBuf ipcHead = c.bytes.take 8174 :=
      bytes 8174 (by omega)
    have behind : (c.bytes.drop 8174).take res = c.bytes.drop 8174 :=
      List.take_of_length_le (by rw [List.length_drop]; omega)
    have none_left : c.bytes.length - ipcHead - res = 0 := by
      rw [res_eq]
      exact Nat.sub_self _
    rw [if_pos (len ▸ long), if_neg (by rw [tail]; omega), len, front, rest, behind, none_left,
      List.replicate_zero, List.append_nil, List.take_append_drop]
    refine ⟨step.up, room, .inr (.inr ⟨waiting, answered, called, ?_⟩)⟩
    exact List.drop_of_length_le (by rw [List.length_drop]; omega)
  · have short : c.bytes.length ≤ 8174 := Nat.le_of_not_lt long
    have all : field (ipcFill s rc).buf payloadBuf c.bytes.length = c.bytes := by
      rw [bytes _ (by omega), List.take_length]
    rw [len, if_neg long, all]
    refine ⟨step.up, room, .inr (.inr ⟨waiting, answered, called, ?_⟩)⟩
    exact left.trans (List.drop_of_length_le (by omega))

/- And no call comes out of a read that is short. -/
theorem turn_framed (step : Lockstep s) (small : c.bytes.length < 2 ^ 31)
    (called : s.called = s.written ++ [c]) (stream : s.stream = writeMessage c) {rc res : Nat}
    (ok : TurnOk s rc res) (framed : Framed (demuxIpcSocketCall (ipcFill s rc) res)) :
    rc = min IPC_BUFLEN s.stream.length ∧
      ∀ asked ∈ tailAsked (ipcFill s rc), res = min asked (ipcFill s rc).stream.length := by
  obtain ⟨-, ⟨most, there, some_read⟩, tail_ok⟩ := ok
  have total := writeMessage_length c
  rw [stream] at there
  have head : ipcHead = 8174 := rfl
  have size : IPC_BUFLEN = 8192 := rfl
  have positive : 0 < rc := some_read (by decide)
  have left : (ipcFill s rc).stream = (writeMessage c).drop rc := by rw [ipcFill, stream]
  have room : (ipcFill s rc).buf.length = IPC_BUFLEN := by
    rw [ipcFill, length_put]
    exact step.room
  have filled : (ipcFill s rc).called = s.written ++ [c] := called
  obtain ⟨up, rest, calls, begins⟩ := framed
  rw [demux_called, filled] at calls
  rcases demux_cases (ipcFill s rc) room tail_ok with ⟨written, same⟩ | down |
    ⟨x, type, len, written, left_over⟩
  · -- the message has not been taken for a write, and its first bytes are gone
    have one : [c] = rest := by
      rw [written] at calls
      exact List.append_cancel_left calls
    rw [← one, same, left] at begins
    have lengths := congrArg List.length begins
    simp only [List.length_drop, List.flatMap_cons, List.flatMap_nil, List.append_nil] at lengths
    omega
  · rw [down] at up
    cases up
  · -- the call is the client's, so its length is right and nothing may be left
    have one : [c] = [x] ++ rest := by
      rw [written, List.append_assoc] at calls
      exact List.append_cancel_left calls
    obtain ⟨rfl, rfl⟩ : c = x ∧ [] = rest := by simpa using one
    rw [List.flatMap_nil, left_over, left] at begins
    rw [stream, left]
    by_cases long : payloadLen (ipcFill s rc).buf > ipcHead
    · obtain ⟨-, asks⟩ := tailAsked_long type len.symm (len ▸ long) small
      obtain ⟨at_most, -, -⟩ := tail_ok _ asks
      rw [← len] at long
      rw [if_pos (len ▸ long), List.drop_drop, List.drop_eq_nil_iff, total] at begins
      have full : rc = 8192 := by omega
      refine ⟨?_, fun asked here => ?_⟩
      · rw [total]
        omega
      · obtain rfl : c.bytes.length - ipcHead = asked := by simpa [asks] using here
        rw [List.length_drop, total]
        omega
    · rw [if_neg long, List.drop_eq_nil_iff, total] at begins
      have none_asked : tailAsked (ipcFill s rc) = none := if_neg fun both => long both.2
      refine ⟨?_, fun asked here => by simp [none_asked] at here⟩
      rw [total]
      omega

/-! ### Whole sessions -/

/- With nothing in the stream the first read blocks. -/
theorem TurnOk.nonempty {rc res : Nat} (ok : TurnOk s rc res) : s.stream ≠ [] := by
  obtain ⟨-, ⟨-, there, some_read⟩, -⟩ := ok
  have positive : 0 < rc := some_read (by decide)
  intro nothing
  rw [nothing, List.length_nil] at there
  omega

theorem small_of_fits (fits : ipcMsgSize + ipcWriteSize + c.bytes.length < 2 ^ 31) :
    c.bytes.length < 2 ^ 31 := by omega

/- The message in the stream when a turn can happen. -/
theorem Lockstep.turn (step : Lockstep s) {rc res : Nat} (ok : TurnOk s rc res) :
    ∃ c, ipcMsgSize + ipcWriteSize + c.bytes.length < 2 ^ 31 ∧ s.waiting = true ∧ s.responses = 0 ∧
      s.called = s.written ++ [c] ∧ s.stream = writeMessage c := by
  rcases step.phase with ⟨-, -, -, nothing⟩ | asked | ⟨-, -, -, nothing⟩
  · exact absurd nothing ok.nonempty
  · exact asked
  · exact absurd nothing ok.nonempty

/- And the state when the client can call. -/
theorem Lockstep.idle (step : Lockstep s) (idle : s.waiting = false) :
    s.responses = 0 ∧ s.called = s.written ∧ s.stream = [] := by
  rcases step.phase with ⟨-, rest⟩ | ⟨c, -, waiting, -⟩ | ⟨waiting, -⟩
  · exact rest
  · rw [idle] at waiting
    cases waiting
  · rw [idle] at waiting
    cases waiting

theorem Lockstep.keeps (step : Lockstep s) (e : IpcEvent) (whole : Whole s e) :
    Lockstep (ipcStep s e) := by
  cases e with
  | write c =>
    rw [ipcStep]
    cases idle : s.waiting with
    | true =>
      rw [if_pos rfl]
      exact step
    | false =>
      obtain ⟨unanswered, called, stream⟩ := step.idle idle
      have fits := whole idle
      rw [if_neg (by simp), called, stream, List.nil_append, transmitted_small fits]
      exact ⟨step.up, step.room, .inr (.inl ⟨c, fits, rfl, unanswered, rfl, rfl⟩)⟩
  | respond =>
    rw [ipcStep]
    by_cases answered : s.waiting = true ∧ 0 < s.responses
    · rw [if_pos answered]
      rcases step.phase with ⟨idle, -⟩ | ⟨c, -, -, unanswered, -⟩ | ⟨-, one, called, stream⟩
      · rw [idle] at answered
        cases answered.1
      · omega
      · exact ⟨step.up, step.room, .inl ⟨rfl, by dsimp only; omega, called, stream⟩⟩
    · rw [if_neg answered]
      exact step
  | turn rc res =>
    rw [ipcStep]
    by_cases ok : TurnOk s rc res
    · obtain ⟨first, tail⟩ := whole ok
      obtain ⟨c, fits, waiting, unanswered, called, stream⟩ := step.turn ok
      rw [if_pos ok]
      exact turn_whole step (small_of_fits fits) waiting unanswered called stream first tail
    · rw [if_neg ok]
      exact step

theorem Lockstep.spoils (step : Lockstep s) (e : IpcEvent) (framed : Framed (ipcStep s e)) :
    Whole s e := by
  cases e with
  | write c =>
    intro idle
    obtain ⟨-, called, stream⟩ := step.idle idle
    obtain ⟨-, rest, calls, begins⟩ := framed
    rw [ipcStep, idle, if_neg (by simp)] at calls begins
    dsimp only at calls begins
    by_contra long
    -- nothing has been sent of a message that is too long
    rw [stream, transmitted_large long, List.nil_append] at begins
    rw [called] at calls
    obtain rfl : [c] = rest := List.append_cancel_left calls
    have lengths := congrArg List.length begins
    rw [List.flatMap_cons, List.length_append, writeMessage_length, List.length_nil] at lengths
    omega
  | respond => trivial
  | turn rc res =>
    intro ok
    obtain ⟨c, fits, -, -, called, stream⟩ := step.turn ok
    rw [ipcStep, if_pos ok] at framed
    exact turn_framed step (small_of_fits fits) called stream ok framed

/- A socket that has just been opened; the buffer is not initialised. -/
def IpcState.start (buf : Vector UInt8 IPC_BUFLEN) : IpcState := { buf := buf.toList }

/-- Every write reaches `_write` as it was made, and the daemon is at the first byte of a message
    after each, exactly when no message is too long for an int and no read is short. -/
theorem write_framing_iff (buf : Vector UInt8 IPC_BUFLEN) (events : List IpcEvent) :
    (∀ n, Framed (Calls.after ipcStep (.start buf) (events.take n))) ↔
      ∀ n e, events[n]? = some e → Whole (Calls.after ipcStep (.start buf) (events.take n)) e :=
  Calls.right_throughout_iff Lockstep (fun _ step => step.framed) (fun _ e step => step.keeps e)
    (fun _ e step => step.spoils e)
    ⟨rfl, buf.size_toArray, .inl ⟨rfl, rfl, rfl, rfl⟩⟩ events

/- A message of one byte whose header comes alone: a zero of the buffer is written in its place, and
   the byte is left for the next read. -/
theorem write_torn : ¬Framed (Calls.after ipcStep (.start (Vector.replicate _ 0))
    [.write ⟨7, 4097, [42]⟩, .turn 18 0]) := by
  rintro ⟨-, rest, calls, -⟩
  have called : (Calls.after ipcStep (.start (Vector.replicate _ 0))
      [.write ⟨7, 4097, [42]⟩, .turn 18 0]).called = [⟨7, 4097, [42]⟩] := by decide +kernel
  have written : (Calls.after ipcStep (.start (Vector.replicate _ 0))
      [.write ⟨7, 4097, [42]⟩, .turn 18 0]).written = [⟨7, 4097, [0]⟩] := by decide +kernel
  rw [called, written] at calls
  simp at calls

end HfIp
