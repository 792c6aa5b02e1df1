import HfIp.EndOfFile
import HfIp.Lib.FirstMatch

/- All sockets of the stack: the list `sockets` of src/socket.c in its order, `generate_port` of
   src/tcp.c, and the lookup of the socket that a segment is for. -/
namespace HfIp

open Transition

/-! ### One connection keeps its four-tuple -/

section Tuple

variable {s t : Conn}

/- The four-tuple is still the same, and a socket that has left the list stays out of it. -/
structure Kept (s t : Conn) : Prop where
  tuple : fourTuple t.tsk = fourTuple s.tsk
  registered : t.sock.registered = true → s.sock.registered = true

theorem Kept.refl (s : Conn) : Kept s s := ⟨rfl, id⟩

theorem Kept.reads {u : Conn} (kept : Kept s t) (reads : Reads t u) : Kept s u :=
  ⟨reads.tuple.trans kept.tuple, fun h => kept.registered (reads.registered ▸ h)⟩

theorem Kept.to {u : Conn} (kept : Kept s t) (tuple : fourTuple u.tsk = fourTuple t.tsk)
    (registered : u.sock.registered = t.sock.registered) : Kept s u :=
  ⟨tuple.trans kept.tuple, fun h => kept.registered (registered ▸ h)⟩

theorem Kept.queues (kept : Kept s t) (skb : SkBuff) : Kept s (tcpDataQueue t skb).1 := by
  unfold tcpDataQueue
  split
  · exact kept.reads (freeSkb_reads t skb)
  · split
    · exact kept.to rfl rfl
    · have stored : Kept s { t with
          tsk.ofoQueue := (tcpDataInsertOrdered t.tsk.ofoQueue skb).1 } := kept.to rfl rfl
      refine Kept.reads ?_ (tcpSendAck_reads _)
      dsimp only
      split
      · exact stored.reads (tcpCalculateSacks_reads _)
      · exact stored

theorem Kept.finishes (kept : Kept s t) : Kept s (inputFin t) := by
  have marked : Kept s (pollReadable { t with
      tsk.tcb.rcvNxt := t.tsk.tcb.rcvNxt + 1, tsk.flags := t.tsk.flags ||| TCP_FIN }) :=
    kept.to rfl rfl
  have acked := marked.reads (tcpSendAck_reads _)
  unfold inputFin
  dsimp only
  split
  · exact acked.to rfl rfl
  · exact acked.to rfl rfl
  · split
    · exact acked.to rfl rfl
    · exact acked.to rfl rfl
  · exact acked.to rfl rfl
  · exact acked.to rfl rfl

theorem Kept.syn {th : TcpHdr} (kept : Kept s t) : Kept s (synsentSyn t th) := by
  have acked : Kept s (synsentAck t th) :=
    Kept.reads (kept.to (u := { t with tsk.tcb.rcvNxt := th.seq + 1 }) rfl rfl)
      (synsentAck_reads t th)
  unfold synsentSyn
  generalize synsentAck t th = u at acked
  dsimp only
  split
  · refine Kept.reads ?_ (synsentEstablish_reads u th)
    exact acked.to rfl rfl
  · rw [tcpSendSynack_minor _ (by simp [setState])]
    exact acked.to rfl rfl

theorem Kept.refused (kept : Kept s t) : Kept s (tcpReset t) := by
  unfold tcpReset
  dsimp only
  split
  · refine Kept.reads ?_ (tcpDone_reads _)
    exact kept.to rfl rfl
  · refine Kept.reads ?_ (tcpDone_reads _)
    exact kept.to rfl rfl
  · exact kept.to rfl rfl
  · refine Kept.reads ?_ (tcpDone_reads _)
    exact kept.to rfl rfl

theorem Kept.receives (kept : Kept s t) (len rlen : Nat) : Kept s (receiveLoop t len rlen).1 := by
  by_cases room : rlen < len
  · obtain ⟨d, bytes, dequeued, -, reads⟩ := receiveLoop_spec t len rlen room
    obtain ⟨freed, rest⟩ := dequeued.rest
    refine Kept.reads (kept.to ?_ ?_) reads
    · dsimp only
      rw [rest]
      rfl
    · dsimp only
      rw [rest]
  · rw [receiveLoop_full t len rlen room]
    exact kept.reads (receiveReturn_reads t _)

/-- Only a connect sets the four-tuple. -/
theorem exec_kept {e : Event} {r : Reply} (other : ∀ addr port iss, e ≠ .connect addr port iss)
    (taken : exec s e = some (t, r)) : Kept s t := by
  refine exec_reads_rule (P := Kept s) ?_ (fun u v reads kept => kept.reads reads) (.refl s) taken
    ?_ ?_ ?_ ?_ ?_
  · intro u v idle kept
    have same : inner v = inner u := idle
    have tuple := congrArg (fun c : Conn => fourTuple c.tsk) same
    have registered : v.sock.registered = u.sock.registered := congrArg (·.sock.registered) idle
    exact kept.to tuple registered
  · intro u kept
    obtain ⟨freed, eq⟩ := socketFree_eq u
    rw [eq]
    exact ⟨kept.tuple, fun h => by cases h⟩
  · intro len _ _
    exact (Kept.refl s).to rfl rfl
  · intro u len rlen _ kept
    exact kept.receives len rlen
  · intro u addr port iss call _ _
    exact absurd call (other addr port iss)
  · intro th payload _ kept
    refine tcpInputState_reads_rule (P := Kept s) (fun u v reads kept => kept.reads reads) kept
      ?_ ?_ ?_ ?_ ?_ ?_ ?_
    · exact fun _ _ => kept.refused
    · exact fun _ => kept.syn
    · exact fun _ => kept.to rfl rfl
    · exact fun _ _ _ u _ _ h => h.to rfl rfl
    · exact fun u _ h => h.to rfl rfl
    · exact fun u _ _ _ h => h.queues _
    · exact fun u _ _ _ _ _ h => h.finishes

end Tuple

/-! ### The list of sockets -/

/- A socket of the list. `opened` is a history: `tcp_v4_connect` has run on it. -/
structure Entry where
  conn : Conn := {}
  opened : Bool := false
  deriving DecidableEq, Repr

/- `port` is the static counter of `generate_port`. -/
structure Sockets where
  entries : List Entry := []
  port : Nat := 40000
  tick : UInt32 := 0
  deriving DecidableEq, Repr

/- The sum is made in 32 bits and returned in 16. -/
def generatePort (n : Sockets) : UInt16 := UInt16.ofNat (n.port + 1 + (n.tick % 10000).toNat)

/- `socket_lookup`: the position of the first socket in the list that has the two ports. -/
def socketLookup (n : Sockets) (remoteport localport : UInt16) : Option Nat :=
  n.entries.findIdx? fun c => c.conn.sock.registered ∧ c.conn.tsk.sport = localport ∧
    c.conn.tsk.dport = remoteport

def inetLookup (n : Sockets) (sport dport : UInt16) : Option Nat := socketLookup n sport dport

/- `inet_stream_connect` gets as far as `tcp_v4_connect`. -/
def Dials (s : Conn) (addr : SockAddr) : Prop :=
  s.sock.registered = true ∧ 2 ≤ addr.len ∧ addr.family ≠ AF_UNSPEC ∧
    s.sock.state = .unconnected ∧ s.tsk.state = .close

instance (s : Conn) (addr : SockAddr) : Decidable (Dials s addr) :=
  inferInstanceAs (Decidable (_ ∧ _ ∧ _ ∧ _ ∧ _))

inductive SocketsEvent where
  | socket
  | connect (i : Nat) (addr : SockAddr) (iss : UInt32)
  | call (i : Nat) (e : Event)
  | segment (th : TcpHdr) (payload : List UInt8)
  | tick (busy : List (List Nat))
  deriving DecidableEq, Repr

/- The events of one connection that concern no other. -/
def Event.own : Event → Bool
  | .connect _ _ _ | .segment _ _ | .tick _ => false
  | _ => true

def setConn (n : Sockets) (i : Nat) (c : Entry) (conn : Conn) : Sockets :=
  { n with entries := n.entries.set i { c with conn := conn } }

def dial (n : Sockets) (i : Nat) (conn : Conn) : Sockets :=
  { n with port := n.port + 1, entries := n.entries.set i ⟨conn, true⟩ }

/- `tcp_in` drops a segment that no socket is found for. -/
def sysExec (n : Sockets) : SocketsEvent → Option (Sockets × Reply)
  | .socket =>
    some ({ n with entries := n.entries ++ [{ conn := { ts := { tick := n.tick } } }] }, .none)
  | .connect i addr iss => do
    let c ← n.entries[i]?
    let (conn, r) ← exec c.conn (.connect addr (generatePort n) iss)
    if Dials c.conn addr then some (dial n i conn, r) else some (setConn n i c conn, r)
  | .call i e => do
    let c ← n.entries[i]?
    let (conn, r) ← exec c.conn e
    if e.own then some (setConn n i c conn, r) else none
  | .segment th payload =>
    match inetLookup n th.sport th.dport with
    | none => some (n, .none)
    | some i => do
      let c ← n.entries[i]?
      let (conn, r) ← exec c.conn (.segment th payload)
      some (setConn n i c conn, r)
  | .tick busy => some ({ n with
      tick := n.tick + 10
      entries := n.entries.mapIdx fun i c =>
        { c with conn.ts := timersStart c.conn.ts (busy.getD i []) } }, .none)

/-- A connection opened by `tcp_v4_connect` and still registered. -/
def Entry.Live (c : Entry) : Prop := c.opened = true ∧ c.conn.sock.registered = true

instance (c : Entry) : Decidable c.Live := inferInstanceAs (Decidable (_ ∧ _))

def Entry.tuple (c : Entry) : FourTuple := fourTuple c.conn.tsk

/- A four-tuple seen from the other end. -/
def FourTuple.flip (k : FourTuple) : FourTuple :=
  { saddr := k.daddr, sport := k.dport, daddr := k.saddr, dport := k.sport }

def TuplesDistinct (n : Sockets) : Prop :=
  ∀ (i j : Nat) (a b : Entry), n.entries[i]? = some a → n.entries[j]? = some b → a.Live → b.Live →
    a.tuple = b.tuple → i = j

def PortsNonzero (n : Sockets) : Prop := ∀ c ∈ n.entries, c.Live → c.conn.tsk.sport ≠ 0

/-- The lookup for a segment with these addresses and ports finds the connection they belong to. -/
def LooksUp (n : Sockets) (seg : FourTuple) : Prop :=
  ∀ i, inetLookup n seg.sport seg.dport = some i ↔
    ∃ c, n.entries[i]? = some c ∧ c.Live ∧ c.tuple = seg.flip

/-- The event opens a connection from port 0, or from a port already in use to the same end. -/
def ReusesPort (n : Sockets) : SocketsEvent → Prop
  | .connect i addr _ => ∃ c ∈ n.entries[i]?, Dials c.conn addr ∧ (generatePort n = 0 ∨
      ∃ j < n.entries.length, j ≠ i ∧ ∃ b ∈ n.entries[j]?, b.Live ∧
        b.tuple = ⟨parseIpv4 10 0 0 4, generatePort n, addr.addr, addr.port⟩)
  | _ => False

instance (n : Sockets) (e : SocketsEvent) : Decidable (ReusesPort n e) := by
  cases e <;> unfold ReusesPort <;> infer_instance

/-- The first socket of the list with the segment's two ports, if any, is open between its two
    addresses. -/
def FirstAgrees (n : Sockets) (seg : FourTuple) : Prop :=
  FirstMatch.Agrees (fun c : Entry => c.conn.sock.registered = true ∧ c.conn.tsk.sport = seg.dport ∧
    c.conn.tsk.dport = seg.sport) (fun c => c.Live ∧ c.tuple = seg.flip) n.entries

instance (n : Sockets) (seg : FourTuple) : Decidable (FirstAgrees n seg) :=
  FirstMatch.Agrees.decidable _ _ _

/-! ### What an event does to the list -/

variable {n m : Sockets}

/- A live connection was live before, at the same place with the same four-tuple. -/
def Shrinks (n m : Sockets) : Prop :=
  ∀ (i : Nat) (b : Entry), m.entries[i]? = some b → b.Live →
    ∃ a, n.entries[i]? = some a ∧ a.Live ∧ b.tuple = a.tuple

theorem Shrinks.distinct (shrinks : Shrinks n m) (distinct : TuplesDistinct n) : TuplesDistinct m := by
  intro i j a b here there la lb same
  obtain ⟨a', here', la', ta⟩ := shrinks i a here la
  obtain ⟨b', there', lb', tb⟩ := shrinks j b there lb
  exact distinct i j a' b' here' there' la' lb' (ta.symm.trans (same.trans tb))

theorem Shrinks.nonzero (shrinks : Shrinks n m) (nonzero : PortsNonzero n) : PortsNonzero m := by
  intro b member live
  obtain ⟨i, here⟩ := List.mem_iff_getElem?.mp member
  obtain ⟨a, there, live', tuple⟩ := shrinks i b here live
  have port : b.conn.tsk.sport = a.conn.tsk.sport := congrArg FourTuple.sport tuple
  rw [port]
  exact nonzero a (List.mem_of_getElem? there) live'

theorem Entry.kept {c : Entry} {conn : Conn} (kept : Kept c.conn conn)
    (live : Entry.Live { c with conn := conn }) :
    c.Live ∧ Entry.tuple { c with conn := conn } = c.tuple :=
  ⟨⟨live.1, kept.registered live.2⟩, kept.tuple⟩

theorem setConn_shrinks {i : Nat} {c : Entry} {conn : Conn} (here : n.entries[i]? = some c)
    (kept : Kept c.conn conn) : Shrinks n (setConn n i c conn) := by
  intro j b there live
  unfold setConn at there
  dsimp only at there
  by_cases same : i = j
  · subst same
    rw [List.getElem?_set_self (List.getElem?_eq_some_iff.mp here).1] at there
    obtain rfl := Option.some.inj there
    exact ⟨c, here, Entry.kept kept live⟩
  · rw [List.getElem?_set_ne same] at there
    exact ⟨b, there, live, rfl⟩

theorem socket_shrinks : Shrinks n { n with
    entries := n.entries ++ [{ conn := { ts := { tick := n.tick } } }] } := by
  intro i b there live
  rcases Nat.lt_or_ge i n.entries.length with old | new
  · rw [List.getElem?_append_left old] at there
    exact ⟨b, there, live, rfl⟩
  · rw [List.getElem?_append_right new] at there
    have fresh := List.mem_singleton.mp (List.mem_of_getElem? there)
    rw [fresh] at live
    cases live.1

theorem tick_shrinks (busy : List (List Nat)) : Shrinks n { n with
    tick := n.tick + 10
    entries := n.entries.mapIdx fun i c =>
      { c with conn.ts := timersStart c.conn.ts (busy.getD i []) } } := by
  intro i b there live
  dsimp only at there
  rw [List.getElem?_mapIdx, Option.map_eq_some_iff] at there
  obtain ⟨a, here, rfl⟩ := there
  exact ⟨a, here, live, rfl⟩

theorem connectReturn_kept {s : Conn} {q : Conn × Option Int} (kept : Kept s q.1) :
    Kept s (connectReturn q).1 := by
  obtain ⟨u, _ | rc⟩ := q
  · exact kept
  · have released : Kept s (socketRelease u) := kept.to rfl rfl
    unfold connectReturn
    dsimp only
    split
    · obtain ⟨freed, eq⟩ := socketFree_eq (socketRelease u)
      rw [eq]
      exact ⟨released.tuple, fun h => by cases h⟩
    · exact released

theorem inetStreamConnect_idle {s : Conn} {addr : SockAddr} (port : UInt16) (iss : UInt32)
    (registered : s.sock.registered = true) (idle : ¬Dials s addr) :
    Kept s (inetStreamConnect s addr port iss).1 := by
  have marked : ∀ e, Kept s { s with tsk.err := e } := fun e => (Kept.refl s).to rfl rfl
  unfold inetStreamConnect
  split
  · exact .refl s
  · rename_i long
    split
    · exact .refl s
    · rename_i known
      split
      · exact marked _
      · exact marked _
      · rename_i fresh
        split
        · exact marked _
        · rename_i closed
          exact absurd ⟨registered, by omega, known, fresh, not_not.mp closed⟩ idle
      · exact marked _

/-- A connect that dials makes its socket live, under the new four-tuple; one that does not changes
    no four-tuple. -/
theorem exec_connect {s t : Conn} {addr : SockAddr} {port : UInt16} {iss : UInt32} {r : Reply}
    (taken : exec s (.connect addr port iss) = some (t, r)) :
    if Dials s addr then t.sock.registered = true ∧
      fourTuple t.tsk = ⟨parseIpv4 10 0 0 4, port, addr.addr, addr.port⟩
    else Kept s t := by
  simp only [exec] at taken
  split at taken
  · rename_i registered
    have taken := Option.some.inj taken
    have locked : Kept s (socketWrAcquire s) := (Kept.refl s).to rfl rfl
    split
    · rename_i dials
      obtain ⟨-, long, known, fresh, closed⟩ := dials
      have fresh' : (socketWrAcquire s).sock.state = .unconnected := fresh
      have closed' : (socketWrAcquire s).tsk.state = .close := closed
      have sent := tcpV4Connect_reads { socketWrAcquire s with tsk.err := -EISCONN } addr port iss
        closed
      have here : (socketWrAcquire s).sock.registered = true := registered
      generalize socketWrAcquire s = u at taken fresh' closed' sent here
      have tuple := sent.tuple
      have still := sent.registered
      have path : inetStreamConnect u addr port iss =
          let v := { tcpV4Connect { u with tsk.err := -EISCONN } addr port iss with
            sock.state := .connecting, tsk.err := -EINPROGRESS }
          if v.sock.flags &&& O_NONBLOCK ≠ 0 then (v, some (-EINPROGRESS)) else connectWait v := by
        unfold inetStreamConnect
        rw [if_neg (by omega), if_neg known]
        split
        · rename_i other
          rw [fresh'] at other
          cases other
        · rename_i other
          rw [fresh'] at other
          cases other
        · rw [if_neg (not_not.mpr closed')]
        · rename_i other
          exact absurd fresh' other
      rw [path] at taken
      generalize tcpV4Connect { u with tsk.err := -EISCONN } addr port iss = v at taken tuple still
      dsimp only at taken
      split at taken
      · unfold connectReturn at taken
        dsimp only at taken
        rw [if_neg (by decide)] at taken
        rw [← (Prod.mk.inj taken).1]
        exact ⟨still.trans here, tuple⟩
      · unfold connectWait at taken
        rw [if_pos ⟨rfl, rfl⟩] at taken
        rw [← (Prod.mk.inj taken).1]
        exact ⟨still.trans here, tuple⟩
    · rename_i idle
      have done := connectReturn_kept (inetStreamConnect_idle (s := socketWrAcquire s) port iss
        registered idle)
      rw [taken] at done
      exact ⟨done.tuple, fun h => done.registered h⟩
  · contradiction

theorem sysExec_dials {i : Nat} {addr : SockAddr} {iss : UInt32} {c : Entry} {r : Reply}
    (here : n.entries[i]? = some c) (dials : Dials c.conn addr)
    (taken : sysExec n (.connect i addr iss) = some (m, r)) :
    ∃ conn, m = dial n i conn ∧ conn.sock.registered = true ∧
      fourTuple conn.tsk = ⟨parseIpv4 10 0 0 4, generatePort n, addr.addr, addr.port⟩ := by
  simp only [sysExec, here, Option.bind_eq_bind, Option.bind_some, Option.bind_eq_some_iff] at taken
  obtain ⟨⟨conn, r'⟩, dialled, taken⟩ := taken
  have effect := exec_connect dialled
  rw [if_pos dials] at effect taken
  obtain ⟨rfl, -⟩ := by simpa using taken
  exact ⟨conn, rfl, effect⟩

/-- An event leaves the live connections as they are, or takes some away, or dials. -/
theorem sysExec_cases {e : SocketsEvent} {r : Reply} (taken : sysExec n e = some (m, r)) :
    Shrinks n m ∨ ∃ i addr iss c, e = .connect i addr iss ∧ n.entries[i]? = some c ∧
      Dials c.conn addr := by
  cases e with
  | socket =>
    obtain ⟨rfl, -⟩ := by simpa [sysExec] using taken
    exact .inl socket_shrinks
  | tick busy =>
    obtain ⟨rfl, -⟩ := by simpa [sysExec] using taken
    exact .inl (tick_shrinks busy)
  | connect i addr iss =>
    simp only [sysExec, Option.bind_eq_bind, Option.bind_eq_some_iff] at taken
    obtain ⟨c, here, ⟨conn, r'⟩, dialled, taken⟩ := taken
    by_cases dials : Dials c.conn addr
    · exact .inr ⟨i, addr, iss, c, rfl, here, dials⟩
    · have effect := exec_connect dialled
      dsimp only at taken
      rw [if_neg dials] at effect taken
      obtain ⟨rfl, -⟩ := by simpa using taken
      exact .inl (setConn_shrinks here effect)
  | call i e =>
    simp only [sysExec, Option.bind_eq_bind, Option.bind_eq_some_iff] at taken
    obtain ⟨c, here, ⟨conn, r'⟩, called, taken⟩ := taken
    dsimp only at taken
    split at taken
    · rename_i own
      obtain ⟨rfl, -⟩ := by simpa using taken
      refine .inl (setConn_shrinks here (exec_kept ?_ called))
      rintro addr port iss rfl
      cases own
    · cases taken
  | segment th payload =>
    simp only [sysExec] at taken
    split at taken
    · obtain ⟨rfl, -⟩ := by simpa using taken
      exact .inl fun i b there live => ⟨b, there, live, rfl⟩
    · rename_i i found
      simp only [Option.bind_eq_bind, Option.bind_eq_some_iff] at taken
      obtain ⟨c, here, ⟨conn, r'⟩, called, taken⟩ := taken
      obtain ⟨rfl, -⟩ := by simpa using taken
      refine .inl (setConn_shrinks here (exec_kept ?_ called))
      intro _ _ _ h
      cases h

theorem dial_self {i : Nat} {c : Entry} (here : n.entries[i]? = some c) (conn : Conn) :
    (dial n i conn).entries[i]? = some ⟨conn, true⟩ :=
  List.getElem?_set_self (List.getElem?_eq_some_iff.mp here).1

theorem dial_other {i j : Nat} (other : j ≠ i) (conn : Conn) :
    (dial n i conn).entries[j]? = n.entries[j]? := List.getElem?_set_ne (Ne.symm other)

/-! ### Runs -/

theorem sysExec_sound {e : SocketsEvent} {r : Reply} (distinct : TuplesDistinct n)
    (nonzero : PortsNonzero n) (fresh : ¬ReusesPort n e) (taken : sysExec n e = some (m, r)) :
    TuplesDistinct m ∧ PortsNonzero m := by
  rcases sysExec_cases taken with shrinks | ⟨i, addr, iss, c, rfl, here, dials⟩
  · exact ⟨shrinks.distinct distinct, shrinks.nonzero nonzero⟩
  · obtain ⟨conn, rfl, registered, tuple⟩ := sysExec_dials here dials taken
    have unused : ∀ (j : Nat) (b : Entry), j ≠ i → n.entries[j]? = some b → b.Live →
        b.tuple ≠ fourTuple conn.tsk := by
      intro j b other there live same
      rw [tuple] at same
      have bound := (List.getElem?_eq_some_iff.mp there).1
      exact fresh ⟨c, here, dials, .inr ⟨j, bound, other, b, there, live, same⟩⟩
    have self := dial_self here conn
    constructor
    · intro j k a b ja kb la lb same
      by_cases first : j = i <;> by_cases second : k = i
      · exact first.trans second.symm
      · subst first
        rw [self] at ja
        obtain rfl := Option.some.inj ja
        rw [dial_other second] at kb
        exact absurd same.symm (unused k b second kb lb)
      · subst second
        rw [self] at kb
        obtain rfl := Option.some.inj kb
        rw [dial_other first] at ja
        exact absurd same (unused j a first ja la)
      · rw [dial_other first] at ja
        rw [dial_other second] at kb
        exact distinct j k a b ja kb la lb same
    · intro b member live
      obtain ⟨j, there⟩ := List.mem_iff_getElem?.mp member
      by_cases same : j = i
      · subst same
        rw [self] at there
        obtain rfl := Option.some.inj there
        have port : conn.tsk.sport = generatePort n := congrArg FourTuple.sport tuple
        intro zero
        rw [port] at zero
        exact fresh ⟨c, here, dials, .inl zero⟩
      · rw [dial_other same] at there
        exact nonzero b (List.mem_of_getElem? there) live

theorem reuses_breaks {e : SocketsEvent} {r : Reply} (reuses : ReusesPort n e)
    (taken : sysExec n e = some (m, r)) : ¬(TuplesDistinct m ∧ PortsNonzero m) := by
  rintro ⟨distinct, nonzero⟩
  cases e with
  | connect i addr iss =>
    obtain ⟨c, here, dials, clash⟩ := reuses
    obtain ⟨conn, rfl, registered, tuple⟩ := sysExec_dials here dials taken
    have self := dial_self here conn
    rcases clash with zero | ⟨j, -, other, b, there, live, same⟩
    · refine nonzero ⟨conn, true⟩ (List.mem_of_getElem? self) ⟨rfl, registered⟩ ?_
      exact (congrArg FourTuple.sport tuple).trans zero
    · have there' : (dial n i conn).entries[j]? = some b := (dial_other other conn).trans there
      exact other (distinct j i b ⟨conn, true⟩ there' self live ⟨rfl, registered⟩
        (same.trans tuple.symm))
  | _ => cases reuses

/-- The segments that a lookup gets right are those whose ports come first, in the list of sockets,
    with their own addresses. -/
theorem looksUp_iff (distinct : TuplesDistinct n) (seg : FourTuple) :
    LooksUp n seg ↔ FirstAgrees n seg := by
  refine FirstMatch.findIdx_iff_agrees ?_ ?_
  · rintro c - ⟨live, same⟩
    exact ⟨live.2, congrArg FourTuple.sport same, congrArg FourTuple.dport same⟩
  · rintro i j a b here there ⟨la, ta⟩ ⟨lb, tb⟩
    exact distinct i j a b here there la lb (ta.trans tb.symm)

/-- All four-tuples so far have been distinct, with ports other than 0, and the segment finds its
    connection, exactly if no connect has reused a port and the first socket with the segment's ports
    is open between its addresses. -/
theorem demultiplexes {trace : List (SocketsEvent × Reply)}
    (run : Run sysExec (fun _ _ _ => True) {} trace n) (seg : FourTuple) :
    ((∀ before n', before <+: trace → Run sysExec (fun _ _ _ => True) {} before n' →
      TuplesDistinct n' ∧ PortsNonzero n') ∧ LooksUp n seg) ↔
    ¬Occurs sysExec ReusesPort {} trace ∧ FirstAgrees n seg := by
  have sound : ∀ before n', Run sysExec (fun _ _ _ => True) {} before n' →
      ¬Occurs sysExec ReusesPort {} before → TuplesDistinct n' ∧ PortsNonzero n' := by
    intro before n' reached
    induction reached with
    | start =>
      intro _
      constructor
      · intro i j a b here
        simp at here
      · intro c member
        cases member
    | next before ok taken ih =>
      intro fresh
      rw [before.occurs_snoc taken, not_or] at fresh
      obtain ⟨distinct, nonzero⟩ := ih fresh.1
      exact sysExec_sound distinct nonzero fresh.2 taken
  constructor
  · rintro ⟨good, finds⟩
    have distinct := (good trace n (List.prefix_refl _) run).1
    refine ⟨fun reused => ?_, (looksUp_iff distinct seg).mp finds⟩
    obtain ⟨before, u, e, r, v, front, reached, ok, reuses, taken⟩ := run.occurs_split reused
    exact reuses_breaks reuses taken (good _ v front (.next reached ok taken))
  · rintro ⟨fresh, first⟩
    refine ⟨fun before n' front reached => sound before n' reached ?_,
      (looksUp_iff (sound trace n run fresh).1 seg).mpr first⟩
    obtain ⟨later, eq⟩ := front
    rw [← eq, reached.occurs_append] at fresh
    exact fun h => fresh (.inl h)

/- Port 80 of 10.0.0.5. -/
def peerAddr : SockAddr := ⟨2, 16, 80, parseIpv4 10 0 0 5⟩

theorem demultiplexes_two : ∃ trace n, Run sysExec (fun _ _ _ => True) {} trace n ∧
    (∀ before n', before <+: trace → Run sysExec (fun _ _ _ => True) {} before n' →
      TuplesDistinct n' ∧ PortsNonzero n') ∧
    LooksUp n ⟨parseIpv4 10 0 0 5, 80, parseIpv4 10 0 0 4, 40012⟩ := by
  obtain ⟨p, reached, fresh, first⟩ : ∃ p ∈ follow sysExec (fun _ _ _ => True) [] {}
      [.socket, .socket, .connect 0 peerAddr 1000, .tick [], .connect 1 peerAddr 2000],
      ¬Occurs sysExec ReusesPort {} p.1 ∧
        FirstAgrees p.2 ⟨parseIpv4 10 0 0 5, 80, parseIpv4 10 0 0 4, 40012⟩ := by
    decide +kernel
  have run := Run.of_follow _ .start reached
  exact ⟨p.1, p.2, run, (demultiplexes run _).mpr ⟨fresh, first⟩⟩

set_option maxRecDepth 100000 in
/-- A connect, and ten more to the same peer 9990 ms later, open two connections with one four-tuple;
    and a segment from another host with the ports of a connection finds it. -/
theorem ports_clash :
    (∃ p ∈ follow sysExec (fun _ _ _ => True) [] {}
        ([.socket, .tick [], .connect 0 peerAddr 1000] ++ List.replicate 999 (.tick []) ++
          List.replicate 10 .socket ++ (List.range 10).map fun i => .connect (i + 1) peerAddr 2000),
      ∃ a ∈ p.2.entries[0]?, ∃ b ∈ p.2.entries[10]?, a.Live ∧ b.Live ∧ a.tuple = b.tuple) ∧
    ∃ p ∈ follow sysExec (fun _ _ _ => True) [] {} [.socket, .connect 0 peerAddr 1000],
      inetLookup p.2 80 40001 = some 0 ∧
        ∀ c ∈ p.2.entries, c.tuple ≠
          FourTuple.flip ⟨parseIpv4 10 0 0 6, 80, parseIpv4 10 0 0 4, 40001⟩ := by
  decide +kernel

end HfIp
