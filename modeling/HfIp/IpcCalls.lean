import HfIp.IpcPoll
import HfIp.Libhfip
import HfIp.LockBalance
import HfIp.Lib.Remote

/- The calls that the interposer sends to the daemon (tools/libhfip.c), the handlers that make them
   (src/ipc.c), and the messages both ways. A message is put into the stream as a whole, and a read returns
   all that is there, up to what it asks for. The messages of `poll` are left to its own module. -/
namespace HfIp

open Buffer

def IPC_SOCKET : UInt16 := 1
def IPC_CONNECT : UInt16 := 2
def IPC_READ : UInt16 := 4
def IPC_CLOSE : UInt16 := 5
def IPC_FCNTL : UInt16 := 7
def IPC_GETSOCKOPT : UInt16 := 8
def IPC_GETPEERNAME : UInt16 := 10
def IPC_GETSOCKNAME : UInt16 := 11
def RCBUF_LEN : Nat := 512

/- `addr` are the bytes of a `struct sockaddr`, and `optval` as many bytes as `optlen` says. -/
inductive SysCall where
  | socket (domain type protocol : UInt32)
  | connect (sockfd : UInt32) (addr : List UInt8) (addrlen : UInt32)
  | write (sockfd : UInt32) (buf : List UInt8)
  | read (sockfd : UInt32) (len : Nat)
  | close (sockfd : UInt32)
  | fcntl (sockfd cmd arg : UInt32)
  | getsockopt (fd level optname : UInt32) (optval : List UInt8)
  | getpeername (socket : UInt32)
  | getsockname (socket : UInt32)
  deriving DecidableEq, Repr

structure IpcCall where
  pid : UInt32
  call : SysCall
  deriving DecidableEq, Repr

/- What a function of the daemon returns, with what it has stored: the bytes in the buffer of `_read`, the
   int at `optval`, the name at `address`. -/
structure Answer where
  rc : Int32
  bytes : List UInt8 := []
  err : Option Int32 := none
  name : Option SockAddr := none
  deriving DecidableEq, Repr

/- What an interposed call returns, with what it has stored: `errno`, as many bytes of the buffer as it
   returns, the int at `optval` and `*optlen`, the name at `address`. -/
structure Result where
  ret : Int
  errno : Option Int32 := none
  buf : List UInt8 := []
  optval : Option (Int32 × UInt32) := none
  name : Option SockAddr := none
  deriving DecidableEq, Repr

def SysCall.type : SysCall → UInt16
  | .socket _ _ _ => IPC_SOCKET
  | .connect _ _ _ => IPC_CONNECT
  | .write _ _ => IPC_WRITE
  | .read _ _ => IPC_READ
  | .close _ => IPC_CLOSE
  | .fcntl _ _ _ => IPC_FCNTL
  | .getsockopt _ _ _ _ => IPC_GETSOCKOPT
  | .getpeername _ => IPC_GETPEERNAME
  | .getsockname _ => IPC_GETSOCKNAME

/- The descriptor that a call is on. -/
def SysCall.fd : SysCall → Option UInt32
  | .socket _ _ _ => none
  | .connect fd _ _ | .write fd _ | .read fd _ | .close fd | .fcntl fd _ _ | .getsockopt fd _ _ _
  | .getpeername fd | .getsockname fd => some fd

/- Memory that has not been initialised. -/
abbrev Junk := Nat → UInt8

def junkBytes (junk : Junk) (n : Nat) : List UInt8 := (List.range n).map junk

/-! ### Requests -/

/- `msg->data`. That of `fcntl` has the size of a `struct flock` and an int, and that of the names is a
   `struct ipc_sockname`, of which they set the descriptor. -/
def callData (junk : Junk) : SysCall → List UInt8
  | .socket domain type protocol => le32 domain ++ (le32 type ++ le32 protocol)
  | .connect sockfd addr addrlen => le32 sockfd ++ (addr ++ le32 addrlen)
  | .write sockfd buf => le32 sockfd ++ (leBytes 8 buf.length ++ buf)
  | .read sockfd len => le32 sockfd ++ leBytes 8 len
  | .close sockfd => le32 sockfd
  | .fcntl sockfd cmd arg => le32 sockfd ++ (le32 cmd ++
      if (cmd.toNat : Int) = F_SETFL then le32 arg ++ junkBytes junk 32 else junkBytes junk 36)
  | .getsockopt fd level optname optval =>
    le32 fd ++ (le32 level ++ (le32 optname ++ (le32 (UInt32.ofNat optval.length) ++ optval)))
  | .getpeername socket | .getsockname socket => le32 socket ++ junkBytes junk 132

def ipcRequest (c : IpcCall) (junk : Junk) : List UInt8 :=
  le16 c.call.type ++ (le32 c.pid ++ callData junk c.call)

/- The calls of `ipc_socket` and of the other handlers, with the arguments they find in `msg->data`. The
   third of `fcntl` is read for F_SETFL only. -/
def socketCall (buf : List UInt8) : SysCall :=
  .socket (hostDwordAt buf ipcMsgSize) (hostDwordAt buf (ipcMsgSize + 4)) (hostDwordAt buf (ipcMsgSize + 8))

def connectCall (buf : List UInt8) : SysCall :=
  .connect (hostDwordAt buf ipcMsgSize) (field buf (ipcMsgSize + 4) 16) (hostDwordAt buf (ipcMsgSize + 20))

def readCall (buf : List UInt8) : SysCall :=
  .read (hostDwordAt buf ipcMsgSize) (leNat (field buf (ipcMsgSize + 4) 8))

def fcntlCall (buf : List UInt8) : SysCall :=
  let cmd := hostDwordAt buf (ipcMsgSize + 4)
  .fcntl (hostDwordAt buf ipcMsgSize) cmd
    (if (cmd.toNat : Int) = F_SETFL then hostDwordAt buf (ipcMsgSize + 8) else 0)

def getsockoptCall (buf : List UInt8) : SysCall :=
  .getsockopt (hostDwordAt buf ipcMsgSize) (hostDwordAt buf (ipcMsgSize + 4)) (hostDwordAt buf (ipcMsgSize + 8))
    (field buf (ipcMsgSize + 16) (hostDwordAt buf (ipcMsgSize + 12)).toNat)

/- `ipc_write`, whose read of the tail returns all that is there. -/
def writeCall (buf stream : List UInt8) : Option (SysCall × List UInt8) :=
  let s : IpcState := { buf := buf, stream := stream }
  let t := ipcWrite s (min ((tailAsked s).getD 0) stream.length)
  t.written.head?.map fun w => (.write w.sockfd w.bytes, t.stream)

/- `demux_ipc_socket_call`: the call, and what its handler leaves of the stream. -/
def demuxCall (buf stream : List UInt8) : Option (SysCall × List UInt8) :=
  let type := hostWordAt buf 0
  if type = IPC_SOCKET then some (socketCall buf, stream)
  else if type = IPC_CONNECT then some (connectCall buf, stream)
  else if type = IPC_WRITE then writeCall buf stream
  else if type = IPC_READ then some (readCall buf, stream)
  else if type = IPC_CLOSE then some (.close (hostDwordAt buf ipcMsgSize), stream)
  else if type = IPC_FCNTL then some (fcntlCall buf, stream)
  else if type = IPC_GETSOCKOPT then some (getsockoptCall buf, stream)
  else if type = IPC_GETPEERNAME then some (.getpeername (hostDwordAt buf ipcMsgSize), stream)
  else if type = IPC_GETSOCKNAME then some (.getsockname (hostDwordAt buf ipcMsgSize), stream)
  else none

/- A turn of `socket_ipc_open`. -/
def ipcReceive (buf stream : List UInt8) : Option (IpcCall × List UInt8 × List UInt8) :=
  if stream = [] then none
  else
    let buf := put buf 0 (stream.take IPC_BUFLEN)
    (demuxCall buf (stream.drop IPC_BUFLEN)).map fun q =>
      ({ pid := hostDwordAt buf 2, call := q.1 }, buf, q.2)

/-! ### Responses -/

/- `struct ipc_err`. -/
def ipcErr (rc : Int32) : List UInt8 :=
  if rc < 0 then le32 (-1 : Int32).toUInt32 ++ le32 (-rc).toUInt32 else le32 rc.toUInt32 ++ le32 0

/- The part of a `struct sockaddr_in` that is set. -/
def nameBytes (a : SockAddr) : List UInt8 := le16 a.family ++ (be16 a.port ++ be32 a.addr)

/- What follows `struct ipc_err`: a `struct ipc_read` with the negative `rlen` as a `size_t`, a
   `struct ipc_sockopt` in which `_getsockopt` has written, a `struct ipc_sockname`. -/
def responseData (junk : Junk) (a : Answer) : SysCall → List UInt8
  | .read sockfd len => le32 sockfd ++ (leBytes 8 (a.rc.toInt % 2 ^ 64).toNat ++
      (a.bytes ++ List.replicate (len - a.bytes.length) 0).take a.rc.toInt.toNat)
  | .getsockopt fd level optname optval => le32 fd ++ (le32 level ++ (le32 optname ++ match a.err with
      | some v => le32 4 ++ le32 v.toUInt32
      | none => le32 (UInt32.ofNat optval.length) ++ optval))
  | .getpeername socket | .getsockname socket => le32 socket ++ match a.name with
      | some n => le32 (UInt32.ofNat n.len) ++ (nameBytes n ++ junkBytes junk 120)
      | none => junkBytes junk 132
  | _ => []

def ipcResponse (c : IpcCall) (a : Answer) (junk : Junk) : List UInt8 :=
  le16 c.call.type ++ (le32 c.pid ++ (ipcErr a.rc ++ responseData junk a c.call))

/- What the client asks for when it reads a response. -/
def responseRoom : SysCall → Nat
  | .read _ len => ipcMsgSize + ipcErrSize + ipcWriteSize + len
  | .getsockopt _ _ _ optval => ipcMsgSize + ipcErrSize + 16 + optval.length
  | .getpeername _ | .getsockname _ => ipcMsgSize + ipcErrSize + 136
  | _ => RCBUF_LEN

/- The memory it reads into. `buf` of `transmit_hfip`, an array of pointers, is not cleared. -/
def responseBuf (junk : Junk) : SysCall → List UInt8
  | .read fd len => List.replicate (responseRoom (.read fd len)) 0
  | .getsockopt fd level optname optval => List.replicate (responseRoom (.getsockopt fd level optname optval)) 0
  | .getpeername fd => List.replicate (responseRoom (.getpeername fd)) 0
  | .getsockname fd => List.replicate (responseRoom (.getsockname fd)) 0
  | _ => junkBytes junk (8 * RCBUF_LEN)

/- What the calls make of a response of their own. -/
def callResult (rbuf : List UInt8) (c : SysCall) : Result :=
  let rc := (hostDwordAt rbuf ipcMsgSize).toInt32
  let err := (hostDwordAt rbuf (ipcMsgSize + 4)).toInt32
  let data := ipcMsgSize + ipcErrSize
  match c with
  | .read _ len =>
    if rc < 0 then { ret := rc.toInt, errno := some err }
    else
      let n := leNat (field rbuf (data + 4) 8)
      if len < n then { ret := -1 } else { ret := n, buf := field rbuf (data + ipcWriteSize) n }
  | .getsockopt _ _ _ _ =>
    if rc ≠ 0 then { ret := rc.toInt, errno := some err }
    else
      let val := (hostDwordAt rbuf (data + 16)).toInt32
      { ret := 0, optval := some (val * -1, hostDwordAt rbuf (data + 12)) }
  | .getpeername _ | .getsockname _ =>
    if rc ≠ 0 then { ret := rc.toInt, errno := some err }
    else
      { ret := 0
        name := some
          { family := hostWordAt rbuf (data + 8), len := (hostDwordAt rbuf (data + 4)).toNat
            port := wordAt rbuf (data + 10), addr := dwordAt rbuf (data + 12) } }
  | _ => { ret := rc.toInt, errno := if rc = -1 then some err else none }

/- The response is read and its type and pid are checked. -/
def ipcResult (c : IpcCall) (junk : Junk) (stream : List UInt8) : Result × List UInt8 :=
  let rbuf := put (responseBuf junk c.call) 0 (stream.take (responseRoom c.call))
  (if hostWordAt rbuf 0 ≠ c.call.type ∨ hostDwordAt rbuf 2 ≠ c.pid then { ret := -1 }
    else callResult rbuf c.call, stream.drop (responseRoom c.call))

/-- What the call would have told the program directly: a negative value is an `errno`, and so is the one
    that SO_ERROR stores. -/
def outcome (_ : IpcCall) (a : Answer) : Result :=
  if a.rc < 0 then { ret := -1, errno := some (-a.rc) }
  else { ret := a.rc.toInt, buf := a.bytes, optval := a.err.map fun v => (-v, 4), name := a.name }

/-- A call that the interposer sends, in a message that fits an int; the ones that the daemon reads in one
    piece fit its buffer too. -/
def SoundCall (c : IpcCall) : Prop :=
  match c.call with
  | .socket domain type protocol => isSocketSupported domain type protocol = true
  | .connect _ addr _ => addr.length = 16
  | .write _ buf => ipcMsgSize + ipcWriteSize + buf.length < 2 ^ 31
  | .read _ len => ipcMsgSize + ipcErrSize + ipcWriteSize + len < 2 ^ 31
  | .fcntl _ cmd arg => (cmd.toNat : Int) = F_GETFL ∧ arg = 0 ∨ (cmd.toNat : Int) = F_SETFL
  | .getsockopt _ _ _ optval => 4 ≤ optval.length ∧ ipcMsgSize + 16 + optval.length ≤ IPC_BUFLEN
  | _ => True

/-- An answer to the call, with nothing stored for another. -/
def FitsCall (c : IpcCall) (a : Answer) : Prop :=
  match c.call with
  | .read _ len =>
    (¬a.rc < 0 → a.rc.toInt = a.bytes.length) ∧ a.bytes.length ≤ len ∧ a.err = none ∧ a.name = none
  | .getsockopt _ _ _ _ =>
    (a.err = none → a.rc < 0) ∧ (a.err ≠ none → a.rc = 0) ∧ a.bytes = [] ∧ a.name = none
  | .getpeername _ | .getsockname _ =>
    (a.name = none → a.rc < 0) ∧ (a.name ≠ none → a.rc = 0) ∧ (∀ n ∈ a.name, n.len = 16) ∧ a.bytes = [] ∧
      a.err = none
  | _ => a.bytes = [] ∧ a.err = none ∧ a.name = none

variable {c : IpcCall} {a : Answer} {m rest : List UInt8} {i n : Nat}

/-! ### Reading a message -/

@[simp] theorem junkBytes_length (junk : Junk) (n : Nat) : (junkBytes junk n).length = n := by
  rw [junkBytes, List.length_map, List.length_range]

/- A field at the front of what is there, and what is behind it. -/
theorem dword_first {x : UInt32} (here : field m i (n + 4) = le32 x ++ rest) :
    hostDwordAt m i = x ∧ field m (i + 4) n = rest := by
  rw [Nat.add_comm] at here
  exact (field_split here rfl).imp hostDwordAt_of_field id

/- The header of a message, and where its data lies. -/
theorem message_fields {type : UInt16} {pid : UInt32} {data : List UInt8}
    (here : field m 0 (ipcMsgSize + data.length) = le16 type ++ (le32 pid ++ data)) :
    hostWordAt m 0 = type ∧ hostDwordAt m 2 = pid ∧ field m ipcMsgSize data.length = data := by
  rw [show ipcMsgSize + data.length = 2 + (data.length + 4) by rw [ipcMsgSize]; omega] at here
  obtain ⟨type', here⟩ := field_split here rfl
  obtain ⟨pid', here⟩ := dword_first here
  exact ⟨hostWordAt_of_field type', pid', here⟩

theorem message_length (type : UInt16) (pid : UInt32) (data : List UInt8) :
    (le16 type ++ (le32 pid ++ data)).length = ipcMsgSize + data.length := by
  simp only [List.length_append, le16, le32, List.length_cons, List.length_nil, ipcMsgSize]
  omega

/- What has been read lies at the start of the memory. -/
theorem field_read (memory : List UInt8) (fits : m.length ≤ memory.length) (asked : m.length ≤ n) :
    field (put memory 0 (m.take n)) 0 m.length = m := by
  rw [List.take_of_length_le asked]
  exact field_put_self memory m (by omega)

/-! ### Requests -/

theorem leNat_eight {k : Nat} (small : k < 2 ^ 32) : leNat (leBytes 8 k) = k := by
  rw [leNat_leBytes]
  exact Nat.mod_eq_of_lt (by omega)

/- What the handler finds in the data is what has been put there. -/
theorem demuxCall_request {call : SysCall} {buf stream : List UInt8} (junk : Junk)
    {pid : UInt32} (sound : SoundCall ⟨pid, call⟩) (type : hostWordAt buf 0 = call.type)
    (whole : ∀ fd bytes, call ≠ .write fd bytes)
    (data : field buf ipcMsgSize (callData junk call).length = callData junk call) :
    demuxCall buf stream = some (call, stream) := by
  cases call with
  | socket domain type' protocol =>
    obtain ⟨domain', data⟩ := dword_first (n := 8) data
    obtain ⟨type'', data⟩ := dword_first (n := 4) data
    have protocol' := hostDwordAt_of_field data
    simp +decide only [demuxCall, type, SysCall.type, if_true, socketCall, domain', type'', protocol']
  | connect sockfd addr addrlen =>
    have size : addr.length = 16 := sound
    have long : (callData junk (.connect sockfd addr addrlen)).length = 24 := by
      simp [callData, size, le32]
    rw [long] at data
    obtain ⟨sockfd', data⟩ := dword_first (n := 20) data
    obtain ⟨addr', data⟩ := field_split (n := 16) (k := 4) data size
    have addrlen' := hostDwordAt_of_field data
    simp +decide only [demuxCall, type, SysCall.type, if_true, if_false, connectCall, sockfd', addr', addrlen']
  | write fd bytes => exact absurd rfl (whole fd bytes)
  | read sockfd len =>
    have small : ipcMsgSize + ipcErrSize + ipcWriteSize + len < 2 ^ 31 := sound
    obtain ⟨sockfd', data⟩ := dword_first (n := 8) data
    have len' : leNat (field buf (ipcMsgSize + 4) 8) = len := by
      rw [data]
      exact leNat_eight (by omega)
    simp +decide only [demuxCall, type, SysCall.type, if_true, if_false, readCall, sockfd', len']
  | close sockfd =>
    have sockfd' := hostDwordAt_of_field data
    simp +decide only [demuxCall, type, SysCall.type, if_true, if_false, sockfd']
  | fcntl sockfd cmd arg =>
    have long : (callData junk (.fcntl sockfd cmd arg)).length = 44 := by
      simp only [callData, List.length_append]
      split <;> simp [le32]
    rw [long] at data
    obtain ⟨sockfd', data⟩ := dword_first (n := 40) data
    obtain ⟨cmd', data⟩ := dword_first (n := 36) data
    have arg' : (if (cmd.toNat : Int) = F_SETFL then hostDwordAt buf (ipcMsgSize + 8) else 0) = arg := by
      split at data
      · rename_i sets
        obtain ⟨arg', -⟩ := dword_first (n := 32) data
        rw [if_pos sets]
        exact arg'
      · rename_i gets
        rw [if_neg gets]
        exact (sound.resolve_right gets).2.symm
    simp +decide only [demuxCall, type, SysCall.type, if_true, if_false, fcntlCall, sockfd', cmd', arg']
  | getsockopt fd level optname optval =>
    obtain ⟨-, small⟩ : 4 ≤ optval.length ∧ ipcMsgSize + 16 + optval.length ≤ IPC_BUFLEN := sound
    have few : optval.length < 2 ^ 32 := by
      have size : IPC_BUFLEN = 8192 := rfl
      omega
    have long : (callData junk (.getsockopt fd level optname optval)).length =
        optval.length + 4 + 4 + 4 + 4 := by
      simp only [callData, List.length_append, le32, List.length_cons, List.length_nil]
      omega
    rw [long] at data
    obtain ⟨fd', data⟩ := dword_first data
    obtain ⟨level', data⟩ := dword_first data
    obtain ⟨optname', data⟩ := dword_first data
    obtain ⟨optlen', optval'⟩ := dword_first data
    have len : (UInt32.ofNat optval.length).toNat = optval.length := UInt32.toNat_ofNat_of_lt' few
    simp +decide only [demuxCall, type, SysCall.type, if_true, if_false, getsockoptCall, fd', level', optname',
      optlen', len, optval']
  | getpeername socket =>
    obtain ⟨socket', -⟩ := dword_first (n := 132) (by simpa [callData, le32] using data)
    simp +decide only [demuxCall, type, SysCall.type, if_true, if_false, socket']
  | getsockname socket =>
    obtain ⟨socket', -⟩ := dword_first (n := 132) (by simpa [callData, le32] using data)
    simp +decide only [demuxCall, type, SysCall.type, if_true, if_false, socket']

/-! ### Writes -/

/- `ipc_write` looks at nothing but the buffer and the stream. -/
theorem ipcWrite_alike {s t : IpcState} (buf : t.buf = s.buf) (stream : t.stream = s.stream) {res : Nat}
    (up : (ipcWrite s res).up = true) : (ipcWrite t res).stream = (ipcWrite s res).stream ∧
      ∃ w, (ipcWrite s res).written = s.written ++ [w] ∧ (ipcWrite t res).written = t.written ++ [w] := by
  unfold ipcWrite at up ⊢
  dsimp only at up ⊢
  rw [buf, stream]
  split
  · rename_i long
    rw [if_pos long] at up
    split
    · rename_i negative
      rw [if_pos negative] at up
      cases up
    · exact ⟨rfl, _, rfl, rfl⟩
  · exact ⟨rfl, _, rfl, rfl⟩

/- A write is received as it was made: both reads are whole. -/
theorem ipcReceive_write {buf : List UInt8} {w : WriteCall} (room : buf.length = IPC_BUFLEN)
    (fits : ipcMsgSize + ipcWriteSize + w.bytes.length < 2 ^ 31) :
    ∃ buf', buf'.length = IPC_BUFLEN ∧
      ipcReceive buf (writeMessage w) = some (⟨w.pid, .write w.sockfd w.bytes⟩, buf', []) := by
  have long := writeMessage_length w
  have small := small_of_fits fits
  let s : IpcState := { called := [w], waiting := true, stream := writeMessage w, buf := buf }
  have step : Lockstep s := ⟨rfl, room, .inr (.inl ⟨w, fits, rfl, rfl, rfl, rfl⟩)⟩
  generalize first : min IPC_BUFLEN s.stream.length = rc
  have most : rc ≤ IPC_BUFLEN := by omega
  have inside : rc ≤ (writeMessage w).length := by
    have : s.stream.length = (writeMessage w).length := rfl
    omega
  have header : 18 ≤ rc := by
    have : s.stream.length = (writeMessage w).length := rfl
    have size : IPC_BUFLEN = 8192 := rfl
    omega
  obtain ⟨type, pid, -⟩ := ipcFill_reads rc room (s := s) rfl inside most header small
  generalize asks : min ((tailAsked (ipcFill s rc)).getD 0) (ipcFill s rc).stream.length = res
  have done : Lockstep (demuxIpcSocketCall (ipcFill s rc) res) := by
    refine turn_whole step small rfl rfl rfl rfl first.symm ?_
    intro asked here
    rw [← asks, Option.mem_def.mp here]
    rfl
  have called := demux_called (ipcFill s rc) res
  rw [demuxIpcSocketCall, if_pos type] at done called
  obtain ⟨-, rest, calls, left⟩ := done.framed
  obtain ⟨stream, w', written, once⟩ := ipcWrite_alike (s := ipcFill s rc)
    (t := { buf := (ipcFill s rc).buf, stream := (ipcFill s rc).stream }) rfl rfl done.up
  have one : [w] = [w'] ++ rest := by
    rw [written, called] at calls
    exact calls
  obtain ⟨rfl, rfl⟩ : w' = w ∧ rest = [] := by simpa using one.symm
  have least : min IPC_BUFLEN (writeMessage w').length = min rc (writeMessage w').length := by
    have : s.stream.length = (writeMessage w').length := rfl
    omega
  refine ⟨(ipcFill s rc).buf, by rw [ipcFill, length_put]; exact room, ?_⟩
  unfold ipcReceive
  rw [if_neg (List.ne_nil_of_length_pos (by omega)), List.take_eq_take_iff.mpr least,
    List.drop_eq_drop_iff.mpr least]
  show (demuxCall (ipcFill s rc).buf (ipcFill s rc).stream).map _ = _
  have call : demuxCall (ipcFill s rc).buf (ipcFill s rc).stream = some (.write w'.sockfd w'.bytes, []) := by
    simp +decide only [demuxCall, type, if_true, if_false, writeCall]
    have res' : min ((tailAsked { buf := (ipcFill s rc).buf, stream := (ipcFill s rc).stream }).getD 0)
        (ipcFill s rc).stream.length = res := asks
    rw [res', once, stream, left]
    rfl
  rw [call]
  exact congrArg (fun pid => some ((⟨pid, _⟩ : IpcCall), _, _)) pid

/-- The daemon reads every call as it was made, and nothing is left. -/
theorem ipcReceive_request {buf : List UInt8} (junk : Junk) (room : buf.length = IPC_BUFLEN)
    (sound : SoundCall c) :
    ∃ buf', buf'.length = IPC_BUFLEN ∧ ipcReceive buf (ipcRequest c junk) = some (c, buf', []) := by
  obtain ⟨pid, call⟩ := c
  by_cases write : ∃ fd bytes, call = .write fd bytes
  · obtain ⟨fd, bytes, rfl⟩ := write
    have same : ipcRequest ⟨pid, .write fd bytes⟩ junk = writeMessage ⟨pid, fd, bytes⟩ := by
      simp [ipcRequest, callData, writeMessage, SysCall.type]
    rw [same]
    exact ipcReceive_write (w := ⟨pid, fd, bytes⟩) room sound
  · have size : IPC_BUFLEN = 8192 := rfl
    have long : (ipcRequest ⟨pid, call⟩ junk).length = ipcMsgSize + (callData junk call).length :=
      message_length _ _ _
    have fits : (ipcRequest ⟨pid, call⟩ junk).length ≤ IPC_BUFLEN := by
      rw [long]
      cases call with
      | connect sockfd addr addrlen =>
        have sixteen : addr.length = 16 := sound
        simp [callData, sixteen, le32, size, ipcMsgSize]
      | write fd bytes => exact absurd ⟨fd, bytes, rfl⟩ write
      | fcntl sockfd cmd arg =>
        simp only [callData, List.length_append]
        split <;> simp [le32, size, ipcMsgSize]
      | getsockopt fd level optname optval =>
        have small : ipcMsgSize + 16 + optval.length ≤ IPC_BUFLEN := sound.2
        simp only [callData, List.length_append, le32, List.length_cons, List.length_nil]
        omega
      | _ => simp [callData, le32, size, ipcMsgSize]
    have read := field_read (n := IPC_BUFLEN) buf (fits.trans (Nat.le_of_eq room.symm)) fits
    generalize into : put buf 0 ((ipcRequest ⟨pid, call⟩ junk).take IPC_BUFLEN) = buf' at read
    rw [long] at read
    obtain ⟨type, pid', data⟩ := message_fields read
    refine ⟨buf', by rw [← into, length_put]; exact room, ?_⟩
    unfold ipcReceive
    rw [if_neg (List.ne_nil_of_length_pos (by rw [long, ipcMsgSize]; omega)), into,
      List.drop_of_length_le fits]
    dsimp only
    rw [demuxCall_request junk sound type (fun fd bytes is => write ⟨fd, bytes, is⟩) data, pid']
    rfl

/-! ### Responses -/

theorem ipcErr_eq (rc : Int32) : ipcErr rc =
    le32 (if rc < 0 then -1 else rc).toUInt32 ++ le32 (if rc < 0 then -rc else 0).toUInt32 := by
  unfold ipcErr
  split <;> rfl

theorem response_fields {rbuf : List UInt8} {junk : Junk}
    (here : field rbuf 0 (ipcResponse c a junk).length = ipcResponse c a junk) :
    hostWordAt rbuf 0 = c.call.type ∧ hostDwordAt rbuf 2 = c.pid ∧
      (hostDwordAt rbuf ipcMsgSize).toInt32 = (if a.rc < 0 then -1 else a.rc) ∧
      (hostDwordAt rbuf (ipcMsgSize + 4)).toInt32 = (if a.rc < 0 then -a.rc else 0) ∧
      field rbuf (ipcMsgSize + ipcErrSize) (responseData junk a c.call).length =
        responseData junk a c.call := by
  have whole : (ipcResponse c a junk).length =
      ipcMsgSize + (ipcErr a.rc ++ responseData junk a c.call).length := message_length _ _ _
  rw [whole] at here
  obtain ⟨type, pid, here⟩ := message_fields here
  have long : (ipcErr a.rc ++ responseData junk a c.call).length =
      (responseData junk a c.call).length + 4 + 4 := by
    rw [ipcErr_eq]
    simp only [List.length_append, le32, List.length_cons, List.length_nil]
    omega
  rw [long, ipcErr_eq, List.append_assoc] at here
  obtain ⟨rc, here⟩ := dword_first here
  obtain ⟨err, here⟩ := dword_first here
  rw [rc, err]
  exact ⟨type, pid, rfl, rfl, here⟩

/- A response is read as a whole. -/
theorem responseData_fits (junk : Junk) (sound : SoundCall c) (fits : FitsCall c a) :
    ipcMsgSize + ipcErrSize + (responseData junk a c.call).length ≤ responseRoom c.call := by
  obtain ⟨pid, call⟩ := c
  cases call with
  | read sockfd len =>
    obtain ⟨-, few, -⟩ := fits
    simp only [responseData, responseRoom, List.length_append, leBytes_length, List.length_take,
      List.length_replicate, le32, List.length_cons, List.length_nil, ipcWriteSize]
    omega
  | getsockopt fd level optname optval =>
    have four : 4 ≤ optval.length := sound.1
    simp only [responseData, responseRoom]
    split
    · simp only [List.length_append, le32, List.length_cons, List.length_nil]
      omega
    · simp only [List.length_append, le32, List.length_cons, List.length_nil]
      omega
  | getpeername socket | getsockname socket =>
    simp only [responseData, responseRoom]
    split
    · simp [le32, nameBytes, le16, be16, be32]
    · simp [le32]
  | _ => simp [responseData, responseRoom, ipcMsgSize, ipcErrSize, RCBUF_LEN]

theorem responseBuf_room (junk : Junk) (call : SysCall) :
    responseRoom call ≤ (responseBuf junk call).length := by
  cases call with
  | read sockfd len => exact Nat.le_of_eq List.length_replicate.symm
  | getsockopt fd level optname optval => exact Nat.le_of_eq List.length_replicate.symm
  | getpeername socket | getsockname socket => exact Nat.le_of_eq List.length_replicate.symm
  | _ =>
    show RCBUF_LEN ≤ (junkBytes junk (8 * RCBUF_LEN)).length
    rw [junkBytes_length]
    exact Nat.le_mul_of_pos_left _ (by decide)

/- What the calls read in the data of a response. -/
theorem name_fields {rbuf : List UInt8} {socket : UInt32} {n : SockAddr} {i : Nat} {tail : List UInt8}
    (len : n.len = 16)
    (here : field rbuf i 136 = le32 socket ++ (le32 (UInt32.ofNat n.len) ++ (nameBytes n ++ tail))) :
    (⟨hostWordAt rbuf (i + 8), (hostDwordAt rbuf (i + 4)).toNat, wordAt rbuf (i + 10), dwordAt rbuf (i + 12)⟩ :
      SockAddr) = n := by
  obtain ⟨-, here⟩ := dword_first (n := 132) here
  obtain ⟨address_len, here⟩ := dword_first (n := 128) here
  obtain ⟨here, -⟩ := field_split (n := 8) (k := 120) here rfl
  obtain ⟨family, here⟩ := field_split (n := 2) (k := 6) here rfl
  obtain ⟨port, addr⟩ := field_split (n := 2) (k := 4) here rfl
  have family' := hostWordAt_of_field family
  have port' := wordAt_of_field port
  have addr' := dwordAt_of_field addr
  simp only [Nat.add_assoc, Nat.reduceAdd] at address_len family' port' addr'
  rw [address_len, family', port', addr', len]
  exact congrArg (fun l => (⟨n.family, l, n.port, n.addr⟩ : SockAddr)) len.symm

theorem callResult_response {rbuf : List UInt8} {junk : Junk} (sound : SoundCall c) (fits : FitsCall c a)
    (rc : (hostDwordAt rbuf ipcMsgSize).toInt32 = if a.rc < 0 then -1 else a.rc)
    (err : (hostDwordAt rbuf (ipcMsgSize + 4)).toInt32 = if a.rc < 0 then -a.rc else 0)
    (data : field rbuf (ipcMsgSize + ipcErrSize) (responseData junk a c.call).length =
      responseData junk a c.call) : callResult rbuf c.call = outcome c a := by
  obtain ⟨pid, call⟩ := c
  unfold callResult outcome
  dsimp only
  rw [rc, err]
  by_cases failed : a.rc < 0
  · rw [if_pos failed, if_pos failed, if_pos failed]
    cases call <;> rfl
  · rw [if_neg failed, if_neg failed, if_neg failed]
    have other : a.rc ≠ -1 := fun is => failed (is ▸ by decide)
    cases call with
    | read sockfd len =>
      obtain ⟨counted, few, optval, name⟩ := fits
      have small : ipcMsgSize + ipcErrSize + ipcWriteSize + len < 2 ^ 31 := sound
      have count := counted failed
      have rlen : (a.rc.toInt % 2 ^ 64).toNat = a.bytes.length := by omega
      have text : (a.bytes ++ List.replicate (len - a.bytes.length) 0).take a.rc.toInt.toNat = a.bytes := by
        rw [count, Int.toNat_natCast]
        exact List.take_left
      have shape : responseData junk a (.read sockfd len) =
          le32 sockfd ++ (leBytes 8 a.bytes.length ++ a.bytes) := by
        rw [responseData, rlen, text]
      have long : (responseData junk a (.read sockfd len)).length = 8 + a.bytes.length + 4 := by
        simp only [shape, List.length_append, leBytes_length, le32, List.length_cons, List.length_nil]
        omega
      rw [long, shape] at data
      obtain ⟨-, data⟩ := dword_first data
      obtain ⟨rlen', text'⟩ := field_split data (leBytes_length 8 _)
      have n : leNat (field rbuf (ipcMsgSize + ipcErrSize + 4) 8) = a.bytes.length := by
        rw [rlen']
        exact leNat_eight (by omega)
      simp only [if_neg failed, n, if_neg (Nat.not_lt.mpr few), optval, name, count]
      exact congrArg (fun b => ({ ret := a.bytes.length, buf := b } : Result)) text'
    | getsockopt fd level optname optval =>
      obtain ⟨missing, stored, bytes, name⟩ := fits
      cases value : a.err with
      | none => exact absurd (missing value) failed
      | some v =>
        have zero := stored (by rw [value]; simp)
        simp only [responseData, value] at data
        obtain ⟨-, data⟩ := dword_first (n := 16) data
        obtain ⟨-, data⟩ := dword_first (n := 12) data
        obtain ⟨-, data⟩ := dword_first (n := 8) data
        obtain ⟨optlen, data⟩ := dword_first (n := 4) data
        have val := hostDwordAt_of_field data
        simp only [Nat.add_assoc, Nat.reduceAdd] at optlen val ⊢
        simp [zero, optlen, val, bytes, name, Int32.mul_neg]
    | getpeername socket | getsockname socket =>
      obtain ⟨missing, stored, sixteen, bytes, err⟩ := fits
      cases named : a.name with
      | none => exact absurd (missing named) failed
      | some n =>
        have zero := stored (by rw [named]; simp)
        simp only [responseData, named] at data
        have read := name_fields (sixteen n named) data
        simp only [Nat.add_assoc] at read ⊢
        simp [zero, read, bytes, err]
    | _ =>
      obtain ⟨bytes, optval, name⟩ := fits
      simp [other, bytes, optval, name]

/-- The client hears every answer as its outcome, and nothing is left. -/
theorem ipcResult_response (junk junk' : Junk) (sound : SoundCall c) (fits : FitsCall c a) :
    ipcResult c junk' (ipcResponse c a junk) = (outcome c a, []) := by
  have long : (ipcResponse c a junk).length =
      ipcMsgSize + ipcErrSize + (responseData junk a c.call).length := by
    simp only [ipcResponse, ipcErr_eq, List.length_append, le16, le32, List.length_cons, List.length_nil,
      ipcMsgSize, ipcErrSize]
    omega
  have asked : (ipcResponse c a junk).length ≤ responseRoom c.call :=
    long ▸ responseData_fits junk sound fits
  have read := field_read (responseBuf junk' c.call) (asked.trans (responseBuf_room _ _)) asked
  obtain ⟨type, pid, rc, err, data⟩ := response_fields read
  unfold ipcResult
  dsimp only
  rw [List.drop_of_length_le asked, if_neg (by simp [type, pid]), callResult_response sound fits rc err data]

end HfIp
