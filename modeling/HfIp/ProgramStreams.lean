import HfIp.Interposition

/- What programs read and write through the interposer, and the connections behind their descriptors. -/
namespace HfIp

open Transition Remote

/-! ### What a program keeps -/

/- The descriptor that a program has from the first of its calls, with its pid. -/
def handle : List (IpcCall × Result) → Option (UInt32 × UInt32)
  | [] => none
  | (c, r) :: _ => if r.ret < 0 then none else some (c.pid, (Int32.ofInt r.ret).toUInt32)

def readBytes (log : List (IpcCall × Result)) : List UInt8 := log.flatMap (·.2.buf)

def writtenBytes (log : List (IpcCall × Result)) : List UInt8 := log.flatMap fun p => p.1.call.written p.2

/- A program first makes a socket, and then calls on its descriptor only. -/
def OwnCall (log : List (IpcCall × Result)) (c : IpcCall) : Prop :=
  match log with
  | [] => c.call.fd = none
  | p :: rest => c.call.fd ≠ none ∧ handle (p :: rest) = c.call.fd.map fun fd => (c.pid, fd)

instance (c : IpcCall) : (log : List (IpcCall × Result)) → Decidable (OwnCall log c)
  | [] => inferInstanceAs (Decidable (_ = _))
  | _ :: _ => inferInstanceAs (Decidable (_ ∧ _))

/- The answers to the calls that have come to an end, and how the last one waits. -/
structure Account where
  log : List (IpcCall × Result)
  wait : Option IpcWait

def Account.after (a : Account) (c : IpcCall) : IpcEnd → Account
  | .inl w => { a with wait := some w }
  | .inr x => { log := a.log ++ [(c, outcome c x)], wait := none }

def Account.held (a : Account) : List UInt8 := (a.wait.map (·.held)).getD []

/-- The descriptor is that of the socket `k`, which has delivered what the program has read, with what a read
    that waits has got so far, and has accepted what the program has written. -/
structure Backs (d : Daemon) (a : Account) (p : UInt32 × UInt32) (k : Nat) : Prop where
  owner : d.owners[k]? = some p
  talks : Talks (readBytes a.log ++ a.held) (writtenBytes a.log) (d.conn k)
  waits : ∀ w ∈ a.wait, w.socket = k

structure Books (d : Daemon) (acc : Nat → Account) : Prop where
  below : ∀ (k : Nat) p, d.owners[k]? = some p → p.2 < d.fd
  distinct : ∀ (k l : Nat) p q, d.owners[k]? = some p → d.owners[l]? = some q → p.2 = q.2 → k = l
  unused : ∀ k, d.owners.length ≤ k → Talks [] [] (d.conn k)
  own : ∀ i p, handle (acc i).log = some p → ∃ k, Backs d (acc i) p k
  apart : ∀ i j p, handle (acc i).log = some p → handle (acc j).log = some p → i = j
  fresh : ∀ i, (acc i).log = [] → (acc i).wait = none

variable {d d' : Daemon} {acc : Nat → Account} {a : Account} {c : IpcCall} {i k : Nat} {x : IpcEnd}
  {p : UInt32 × UInt32}

theorem OwnCall.handle {log : List (IpcCall × Result)} (own : OwnCall log c) {fd : UInt32}
    (named : c.call.fd = some fd) : HfIp.handle log = some (c.pid, fd) := by
  cases log with
  | nil => exact absurd (named.symm.trans own) (Option.some_ne_none fd)
  | cons p rest =>
    rw [own.2, named]
    rfl

theorem OwnCall.first {log : List (IpcCall × Result)} (own : OwnCall log c) (none : c.call.fd = none) :
    log = [] := by
  cases log with
  | nil => rfl
  | cons p rest => exact absurd none own.1

theorem readBytes_append (log more : List (IpcCall × Result)) :
    readBytes (log ++ more) = readBytes log ++ readBytes more := List.flatMap_append

theorem writtenBytes_append (log more : List (IpcCall × Result)) :
    writtenBytes (log ++ more) = writtenBytes log ++ writtenBytes more := List.flatMap_append

theorem handle_append {log : List (IpcCall × Result)} (some : log ≠ []) (more : List (IpcCall × Result)) :
    handle (log ++ more) = handle log := by
  cases log with
  | nil => exact absurd rfl some
  | cons first rest => rfl

theorem handle_nonempty {log : List (IpcCall × Result)} (has : handle log = some p) : log ≠ [] := by
  rintro rfl
  cases has

theorem fd_toInt {fd : UInt32} (room : fd.toNat < 2 ^ 31) : fd.toInt32.toInt = fd.toNat := by
  show BitVec.toInt fd.toBitVec = _
  rw [BitVec.toInt_eq_toNat_of_lt]
  · rfl
  · show 2 * fd.toNat < _
    omega

/- The descriptor that `_socket` returns is the one that the program gets. -/
theorem handle_opened {fd : UInt32} (room : fd.toNat < 2 ^ 31) :
    handle [(c, outcome c { rc := fd.toInt32 })] = some (c.pid, fd) := by
  have well : ¬fd.toInt32 < 0 := by
    rw [Int32.lt_iff_toInt_lt, fd_toInt room]
    exact Int.not_lt.mpr (Int.natCast_nonneg _)
  have ret : (outcome c { rc := fd.toInt32 }).ret = fd.toInt32.toInt := by
    unfold outcome
    rw [if_neg well]
  have positive : ¬fd.toInt32.toInt < 0 := by
    rw [fd_toInt room]
    exact Int.not_lt.mpr (Int.natCast_nonneg _)
  simp only [handle, ret]
  rw [if_neg positive, Int32.ofInt_toInt, UInt32.toUInt32_toInt32]

/- What a step adds to what has been read and written. -/
theorem after_bytes (a : Account) (c : IpcCall) (x : IpcEnd) :
    readBytes (a.after c x).log ++ (a.after c x).held = readBytes a.log ++ gotBytes c x ∧
      writtenBytes (a.after c x).log = writtenBytes a.log ++ givenBytes c x := by
  cases x with
  | inl w => exact ⟨rfl, (List.append_nil _).symm⟩
  | inr answer =>
    refine ⟨?_, ?_⟩
    · show readBytes (a.log ++ _) ++ [] = _
      rw [List.append_nil, readBytes_append]
      simp [readBytes, gotBytes]
    · show writtenBytes (a.log ++ _) = _
      rw [writtenBytes_append]
      simp [writtenBytes, givenBytes]

theorem after_handle (some : a.log ≠ []) (c : IpcCall) (x : IpcEnd) :
    handle (a.after c x).log = handle a.log := by
  cases x with
  | inl w => rfl
  | inr answer => exact handle_append some _

theorem after_nonempty (some : a.log ≠ []) (c : IpcCall) (x : IpcEnd) : (a.after c x).log ≠ [] := by
  cases x with
  | inl w => exact some
  | inr answer => simp [Account.after]

namespace Books

/-- Steps that are no part of a call leave the streams of all sockets alone. -/
theorem rest (books : Books d acc) (owners : d'.owners = d.owners) (fd : d'.fd = d.fd)
    (talks : ∀ {k got given}, Talks got given (d.conn k) → Talks got given (d'.conn k)) : Books d' acc where
  below k p here := by
    rw [owners] at here
    rw [fd]
    exact books.below k p here
  distinct k l p q here there := by
    rw [owners] at here there
    exact books.distinct k l p q here there
  unused k beyond := by
    rw [owners] at beyond
    exact talks (books.unused k beyond)
  own i p has := by
    obtain ⟨k, backs⟩ := books.own i p has
    exact ⟨k, by rw [owners]; exact backs.owner, talks backs.talks, backs.waits⟩
  apart := books.apart
  fresh := books.fresh

/- One program's account changes, and keeps its descriptor. -/
theorem update (books : Books d acc) (owners : d'.owners = d.owners) (fd : d'.fd = d.fd)
    (unused : ∀ k, d.owners.length ≤ k → Talks [] [] (d'.conn k)) (same : handle a.log = handle (acc i).log)
    (own : ∀ p, handle a.log = some p → ∃ k, Backs d' a p k)
    (others : ∀ j p k, j ≠ i → handle (acc j).log = some p → Backs d (acc j) p k → d'.conn k = d.conn k)
    (fresh : a.log = [] → a.wait = none) : Books d' (Function.update acc i a) where
  below k p here := by
    rw [owners] at here
    rw [fd]
    exact books.below k p here
  distinct k l p q here there := by
    rw [owners] at here there
    exact books.distinct k l p q here there
  unused k beyond := unused k (owners ▸ beyond)
  own j p has := by
    by_cases this : j = i
    · subst this
      rw [Function.update_self] at has ⊢
      exact own p has
    · rw [Function.update_of_ne this] at has ⊢
      obtain ⟨k, backs⟩ := books.own j p has
      refine ⟨k, by rw [owners]; exact backs.owner, ?_, backs.waits⟩
      rw [others j p k this has backs]
      exact backs.talks
  apart j l p has also := by
    have kept : ∀ j, handle (Function.update acc i a j).log = handle (acc j).log := by
      intro j
      by_cases this : j = i
      · subst this
        rw [Function.update_self, same]
      · rw [Function.update_of_ne this]
    rw [kept] at has also
    exact books.apart j l p has also
  fresh j := by
    by_cases this : j = i
    · subst this
      rw [Function.update_self]
      exact fresh
    · rw [Function.update_of_ne this]
      exact books.fresh j

/-- A step of a call on the program's own socket. -/
theorem served {q : Daemon × IpcEnd} (books : Books d acc) (has : handle (acc i).log = some p)
    (backs : Backs d (acc i) p k) (serves : Serves c k (acc i).held d q) :
    Books q.1 (Function.update acc i ((acc i).after c q.2)) := by
  have opened := handle_nonempty has
  have inside : k < d.owners.length := (List.getElem?_eq_some_iff.mp backs.owner).1
  refine books.update serves.owners serves.fd ?_ (after_handle opened c q.2) ?_ ?_ ?_
  · intro l beyond
    rw [serves.others l (by omega)]
    exact books.unused l beyond
  · intro p' has'
    rw [after_handle opened, has] at has'
    obtain rfl := Option.some.inj has'
    refine ⟨k, by rw [serves.owners]; exact backs.owner, ?_, ?_⟩
    · obtain ⟨read, written⟩ := after_bytes (acc i) c q.2
      rw [read, written]
      exact serves.here backs.talks
    · intro w waiting
      cases step : q.2 with
      | inl w' =>
        rw [step] at waiting
        obtain rfl : w' = w := Option.some.inj waiting
        exact serves.stays _ step
      | inr answer =>
        rw [step] at waiting
        cases waiting
  · intro j p' l other has' backs'
    refine serves.others l ?_
    rintro rfl
    obtain rfl : p = p' := Option.some.inj (backs.owner.symm.trans backs'.owner)
    exact other (books.apart j i p has' has)
  · exact fun none => absurd none (after_nonempty opened c q.2)

/- An error at once. -/
theorem refused {rc : Int32} (books : Books d acc) (own : OwnCall (acc i).log c) (free : (acc i).wait = none)
    (negative : rc < 0) : Books d (Function.update acc i ((acc i).after c (.inr { rc := rc }))) := by
  have failed : (outcome c { rc := rc }).ret < 0 := (outcome_negative _).mpr negative
  have held : (acc i).held = [] := by rw [Account.held, free]; rfl
  cases named : c.call.fd with
  | none =>
    have first := own.first named
    have none : handle ((acc i).after c (.inr { rc := rc })).log = none := by
      simp only [Account.after, first, List.nil_append, handle]
      rw [if_pos failed]
    refine books.update rfl rfl books.unused (by rw [none, first]; rfl) ?_ (fun _ _ _ _ _ _ => rfl) (fun _ => rfl)
    intro p has
    rw [none] at has
    cases has
  | some fd =>
    have has := own.handle named
    obtain ⟨k, backs⟩ := books.own i _ has
    have serves : Serves c k (acc i).held d (d, .inr { rc := rc }) := by
      rw [held]
      exact Daemon.refused_serves negative
    exact books.served has backs serves

/- A socket of its own. -/
theorem opened {u : Daemon} (books : Books d acc) (first : (acc i).log = [])
    (call : ∃ domain type protocol, c.call = .socket domain type protocol)
    (same : ∀ j, u.conn j = d.conn j) (owners : u.owners = d.owners ++ [(c.pid, d.fd)]) (fd : u.fd = d.fd + 1)
    (room : d.fd.toNat + 1 < 2 ^ 31) :
    Books u (Function.update acc i ((acc i).after c (.inr { rc := d.fd.toInt32 }))) := by
  have next : d.fd < d.fd + 1 := by
    rw [UInt32.lt_iff_toNat_lt, UInt32.toNat_add, UInt32.toNat_one]
    omega
  have lookup : ∀ {k : Nat} {p}, u.owners[k]? = some p →
      d.owners[k]? = some p ∨ (k = d.owners.length ∧ p = (c.pid, d.fd)) := by
    intro k p here
    rw [owners, List.getElem?_append] at here
    split at here
    · exact .inl here
    · rename_i beyond
      rw [List.getElem?_singleton] at here
      split at here
      · rename_i last
        exact .inr ⟨by omega, (Option.some.inj here).symm⟩
      · cases here
  have older : ∀ {k : Nat} {p}, d.owners[k]? = some p → u.owners[k]? = some p := by
    intro k p here
    rw [owners, List.getElem?_append_left (List.getElem?_eq_some_iff.mp here).1]
    exact here
  have has : handle ((acc i).after c (.inr { rc := d.fd.toInt32 })).log = some (c.pid, d.fd) := by
    simp only [Account.after, first, List.nil_append]
    exact handle_opened (by omega)
  have changed : ∀ j, j ≠ i →
      Function.update acc i ((acc i).after c (.inr { rc := d.fd.toInt32 })) j = acc j :=
    fun j other => Function.update_of_ne other _ _
  refine ⟨?_, ?_, ?_, ?_, ?_, ?_⟩
  · intro k p here
    rw [fd]
    rcases lookup here with old | ⟨-, rfl⟩
    · exact UInt32.lt_trans (books.below k p old) next
    · exact next
  · intro k l p q here there same
    rcases lookup here with old | ⟨rfl, rfl⟩
    · rcases lookup there with old' | ⟨-, rfl⟩
      · exact books.distinct k l p q old old' same
      · exact absurd same (UInt32.ne_of_lt (books.below k p old))
    · rcases lookup there with old' | ⟨rfl, -⟩
      · exact absurd same.symm (UInt32.ne_of_lt (books.below l q old'))
      · rfl
  · intro k beyond
    rw [owners, List.length_append] at beyond
    rw [same]
    exact books.unused k (by omega)
  · intro j p' has'
    by_cases this : j = i
    · subst this
      rw [Function.update_self] at has' ⊢
      rw [has] at has'
      obtain rfl := Option.some.inj has'
      refine ⟨d.owners.length, ?_, ?_, fun w waiting => by cases waiting⟩
      · rw [owners, List.getElem?_concat_length]
      · obtain ⟨read, written⟩ := after_bytes (acc j) c (.inr { rc := d.fd.toInt32 })
        obtain ⟨domain, type, protocol, call⟩ := call
        have none : gotBytes c (.inr { rc := d.fd.toInt32 }) = [] := by simp [gotBytes, outcome_buf]
        have unwritten : givenBytes c (.inr { rc := d.fd.toInt32 }) = [] := by
          rw [givenBytes, call]
          rfl
        rw [read, written, none, unwritten, first, same]
        exact books.unused _ (Nat.le_refl _)
    · rw [changed j this] at has' ⊢
      obtain ⟨k, backs⟩ := books.own j p' has'
      refine ⟨k, older backs.owner, ?_, backs.waits⟩
      rw [same]
      exact backs.talks
  · have fresh : ∀ j, j ≠ i → handle (acc j).log ≠ some (c.pid, d.fd) := by
      intro j _ has'
      obtain ⟨k, backs⟩ := books.own j _ has'
      exact absurd (books.below k _ backs.owner) (UInt32.lt_irrefl _)
    intro j l p' here there
    by_cases this : j = i
    · by_cases that : l = i
      · rw [this, that]
      · rw [this, Function.update_self, has] at here
        rw [changed l that, ← here] at there
        exact absurd there (fresh l that)
    · rw [changed j this] at here
      by_cases that : l = i
      · rw [that, Function.update_self, has] at there
        rw [← there] at here
        exact absurd here (fresh j this)
      · rw [changed l that] at there
        exact books.apart j l p' here there
  · intro j none
    by_cases this : j = i
    · subst this
      rw [Function.update_self]
      rfl
    · rw [changed j this] at none ⊢
      exact books.fresh j none

end Books

/-! ### Steps -/

theorem Daemon.exec_talks {e : StackEvent} {r : Reply} {got given : List UInt8}
    (quiet : ∀ ev own, d.stack.call e = some ev → Sockets.sees k d.stack.sockets ev = some own →
      own.quiet = true)
    (talks : Talks got given (d.conn k)) (taken : d.exec e = some (d', r)) : Talks got given (d'.conn k) := by
  obtain ⟨q, here, eq⟩ := Option.map_eq_some_iff.mp taken
  obtain ⟨rfl, rfl⟩ := Prod.mk.inj eq
  have follows := stackExec_sockets here
  unfold Mirrors at follows
  split at follows
  · show Talks got given (q.1.sockets.conn k)
    rw [follows]
    exact talks
  · rename_i ev sees
    have mirrors := sysExec_follows (i := k) follows
    unfold Mirrors at mirrors
    dsimp only [id] at mirrors
    split at mirrors
    · show Talks got given (q.1.sockets.conn k)
      rw [mirrors]
      exact talks
    · rename_i own takes
      exact HfIp.exec_talks (quiet ev own sees takes) talks mirrors

/- A frame is at most a segment for the sockets. -/
theorem frame_call {st : Stack} {bytes : List UInt8} {ev : SocketsEvent}
    (sees : st.call (.frame bytes) = some ev) : ∃ th payload, ev = .segment th payload := by
  unfold Stack.call Stack.sees at sees
  dsimp only at sees
  split at sees
  · split at sees
    · cases sees
    · cases sees
  · obtain ⟨e, here, there⟩ := Option.bind_eq_some_iff.mp sees
    obtain ⟨seg, -, rfl⟩ := Option.map_eq_some_iff.mp here
    exact ⟨seg.th, seg.payload, (Option.some.inj there).symm⟩
  · cases sees

theorem Daemon.own_talks {e : StackEvent} {r : Reply} {got given : List UInt8}
    (talks : Talks got given (d.conn k)) (taken : d.own e = some (d', r)) : Talks got given (d'.conn k) := by
  unfold Daemon.own at taken
  split at taken
  · refine exec_talks ?_ talks taken
    intro ev own sees takes
    obtain ⟨th, payload, rfl⟩ := frame_call sees
    simp only [Sockets.sees] at takes
    split at takes
    · obtain rfl := Option.some.inj takes
      rfl
    · cases takes
  · refine exec_talks ?_ talks taken
    rintro ev own sees takes
    obtain rfl := Option.some.inj sees
    obtain rfl := Option.some.inj takes
    rfl
  · refine exec_talks ?_ talks taken
    rintro ev own sees takes
    obtain rfl := Option.some.inj sees
    simp only [Sockets.sees] at takes
    split at takes
    · obtain rfl := Option.some.inj takes
      rfl
    · cases takes
  · refine exec_talks ?_ talks taken
    rintro ev own sees takes
    obtain rfl := Option.some.inj sees
    simp only [Sockets.sees] at takes
    split at takes
    · obtain rfl := Option.some.inj takes
      rfl
    · cases takes
  · cases taken

theorem Daemon.own_keeps {e : StackEvent} {r : Reply} (taken : d.own e = some (d', r)) :
    d'.owners = d.owners ∧ d'.fd = d.fd := by
  unfold Daemon.own at taken
  split at taken
  iterate 4 exact exec_keeps taken
  cases taken

theorem getSocket_owner {pid fd : UInt32} (found : d.getSocket pid fd = some k) :
    d.owners[k]? = some (pid, fd) := by
  have holds := List.find?_some found
  simp only [Bool.decide_and, Bool.and_eq_true, decide_eq_true_eq] at holds
  exact holds.1

/-- The begin of a call of the program's own. -/
theorem Books.begun {q : Daemon × IpcEnd} (books : Books d acc) (own : OwnCall (acc i).log c)
    (free : (acc i).wait = none) (room : d.fd.toNat + 1 < 2 ^ 31) (began : Began c d q) :
    Books q.1 (Function.update acc i ((acc i).after c q.2)) := by
  have held : (acc i).held = [] := by
    rw [Account.held, free]
    rfl
  cases began with
  | opened u call same owners fd =>
    have first : c.call.fd = none := by
      obtain ⟨domain, type, protocol, is⟩ := call
      rw [is]
      rfl
    exact books.opened (own.first first) call same owners fd room
  | refused rc negative => exact books.refused own free negative
  | served named found serves =>
    have has := own.handle named
    obtain ⟨k, backs⟩ := books.own i _ has
    obtain rfl := books.distinct _ _ _ _ backs.owner (getSocket_owner found) rfl
    rw [← held] at serves
    exact books.served has backs serves

/- A call that waited goes on. -/
theorem Books.resumed {q : Daemon × IpcEnd} {w : IpcWait} (books : Books d acc) (own : OwnCall (acc i).log c)
    (waiting : (acc i).wait = some w) (serves : Serves c w.socket w.held d q) :
    Books q.1 (Function.update acc i ((acc i).after c q.2)) := by
  have held : (acc i).held = w.held := by
    rw [Account.held, waiting]
    rfl
  cases named : c.call.fd with
  | none =>
    have idle := books.fresh i (own.first named)
    rw [waiting] at idle
    cases idle
  | some fd =>
    have has := own.handle named
    obtain ⟨k, backs⟩ := books.own i _ has
    obtain rfl := backs.waits w waiting
    rw [← held] at serves
    exact books.served has backs serves

/-! ### Runs -/

def account (u : Session UInt8 IpcCall IpcWait Answer Result) : Account :=
  { log := u.done.map (told outcome), wait := u.running.map (·.2) }

/- The calls of programs as `ProgramAsks` has them, each on the descriptor of its own, and the counter of
   `alloc_socket` has room in an int. -/
def DescriptorAsks (trace : List (DaemonEvent × Option Reply)) (y : DaemonSystem) (e : DaemonEvent) : Prop :=
  ProgramAsks trace y e ∧ match e with
    | .ask i c _ => OwnCall (y.sessions i).told c
    | .handle _ _ _ => y.state.fd.toNat + 1 < 2 ^ 31
    | _ => True

structure ProgramInv (y : DaemonSystem) : Prop where
  system : SystemInv ipcContract y
  books : Books y.state fun i => account (y.sessions i)
  asks : ∀ i c, (y.sessions i).asked = some c → OwnCall (y.sessions i).told c

variable {y z : DaemonSystem} {u : Session UInt8 IpcCall IpcWait Answer Result}

theorem account_put (y : DaemonSystem) (d : Daemon) (i : Nat) :
    (fun j => account ((y.put d i u).sessions j)) =
      Function.update (fun j => account (y.sessions j)) i (account u) := by
  funext j
  by_cases this : j = i
  · subst this
    simp [System.put]
  · simp [System.put, this]

theorem account_settle (c : IpcCall) (junk : Junk) (x : IpcEnd) :
    account (u.settle ipcWire c junk x) = (account u).after c x := by
  cases x with
  | inl w => rfl
  | inr a => simp [account, Session.settle, Account.after, told]

theorem put_asks {d : Daemon} (asks : ∀ i c, (y.sessions i).asked = some c → OwnCall (y.sessions i).told c)
    (this : ∀ c, u.asked = some c → OwnCall u.told c) (j : Nat) (c : IpcCall)
    (asked : ((y.put d i u).sessions j).asked = some c) : OwnCall ((y.put d i u).sessions j).told c := by
  by_cases here : j = i
  · subst here
    simp only [System.put, Function.update_self] at asked ⊢
    exact this c asked
  · simp only [System.put, Function.update_of_ne here] at asked ⊢
    exact asks j c asked

theorem settle_asks (c : IpcCall) (junk : Junk) (x : IpcEnd) : (u.settle ipcWire c junk x).asked = u.asked ∧
    (u.settle ipcWire c junk x).told = u.told := by
  cases x <;> exact ⟨rfl, rfl⟩

/- One session moves on to `u`, whose log is as the daemon's step has it. -/
theorem ProgramInv.settle {q : Daemon × IpcEnd} {junk : Junk} (inv : ProgramInv y)
    (system : SystemInv ipcContract (y.put q.1 i (u.settle ipcWire c junk q.2)))
    (asked : u.asked = (y.sessions i).asked)
    (heard : u.told = (y.sessions i).told)
    (books : Books q.1 (Function.update (fun j => account (y.sessions j)) i ((account u).after c q.2))) :
    ProgramInv (y.put q.1 i (u.settle ipcWire c junk q.2)) where
  system := system
  books := by
    rw [account_put, account_settle]
    exact books
  asks := by
    refine put_asks inv.asks ?_
    intro c' asks
    obtain ⟨asked', told'⟩ := settle_asks (u := u) c junk q.2
    rw [asked', asked] at asks
    rw [told', heard]
    exact inv.asks i c' asks

/- A session that goes on without the daemon. -/
theorem ProgramInv.books_put (inv : ProgramInv y) (same : account u = account (y.sessions i)) :
    Books y.state fun j => account ((y.put y.state i u).sessions j) := by
  rw [account_put, same, Function.update_eq_self i fun j => account (y.sessions j)]
  exact inv.books

theorem daemonStep_keeps {trace : List (DaemonEvent × Option Reply)} {e : DaemonEvent} {r : Option Reply}
    (inv : ProgramInv y) (ok : DescriptorAsks trace y e) (taken : daemonStep y e = some (z, r)) :
    ProgramInv z := by
  have system : SystemInv ipcContract z := by
    refine remoteStep_keeps inv.system ?_ taken
    rintro i c junk rfl
    exact ok.1.1
  cases e with
  | own e =>
    obtain ⟨q, here, eq⟩ := Option.map_eq_some_iff.mp taken
    obtain ⟨rfl, -⟩ := Prod.mk.inj eq
    obtain ⟨owners, fd⟩ := Daemon.own_keeps here
    exact ⟨system, inv.books.rest owners fd fun talks => Daemon.own_talks talks here, inv.asks⟩
  | ask i c junk =>
    simp only [daemonStep, remoteStep] at taken
    split at taken
    · cases taken
    · obtain ⟨rfl, -⟩ := by simpa using taken
      refine ⟨system, inv.books_put rfl, put_asks inv.asks ?_⟩
      intro c' asked
      obtain rfl := Option.some.inj asked
      exact ok.2
  | handle i choice junk =>
    simp only [daemonStep, remoteStep] at taken
    split at taken
    · rename_i c buf rest free here
      obtain ⟨q, served, eq⟩ := Option.map_eq_some_iff.mp taken
      obtain ⟨rfl, -⟩ := Prod.mk.inj eq
      obtain ⟨-, -, sound, asked, -, heard⟩ := (inv.system.phase i).received (inv.system.ready i) free here
      have own : OwnCall (account (y.sessions i)).log c := by
        show OwnCall ((y.sessions i).done.map _) c
        rw [← heard]
        exact inv.asks i c asked
      have waits : (account (y.sessions i)).wait = none := by
        show (y.sessions i).running.map _ = none
        rw [free]
        rfl
      have began := Daemon.begin_began inv.system.state sound served
      exact inv.settle system rfl rfl (inv.books.begun own waits ok.2 began)
    · cases taken
  | resume i choice junk =>
    simp only [daemonStep, remoteStep] at taken
    split at taken
    · cases taken
    · rename_i p running
      obtain ⟨q, served, eq⟩ := Option.map_eq_some_iff.mp taken
      obtain ⟨rfl, -⟩ := Prod.mk.inj eq
      cases inv.system.phase i with
      | serving c w sound waits asked up running' down heard =>
        obtain rfl : p = (c, w) := Option.some.inj (running.symm.trans running')
        have serves := Daemon.goOn_serves inv.system.state sound waits served
        have waiting : (account (y.sessions i)).wait = some w := by
          show (y.sessions i).running.map _ = _
          rw [running']
          rfl
        have own : OwnCall (account (y.sessions i)).log c := by
          show OwnCall ((y.sessions i).done.map _) c
          rw [← heard]
          exact inv.asks i c asked
        exact inv.settle system rfl rfl (inv.books.resumed own waiting serves)
      | idle _ _ free | asking _ _ _ _ _ free | answering _ _ _ _ _ _ _ free =>
        rw [free] at running
        cases running
  | hear i junk =>
    simp only [daemonStep, remoteStep] at taken
    split at taken
    · obtain ⟨rfl, -⟩ := by simpa using taken
      exact ⟨system, inv.books_put rfl, put_asks inv.asks fun c asked => by cases asked⟩
    · cases taken

theorem run_programInv {tapaddr : UInt32} {buf : Nat → Vector UInt8 IPC_BUFLEN}
    {trace : List (DaemonEvent × Option Reply)}
    (run : Run daemonStep DescriptorAsks (daemonStart tapaddr buf) trace y) : ProgramInv y := by
  have first : ∀ i, Coded (({ stack := { tapaddr := tapaddr } } : Daemon).conn i) := by
    intro i
    exact (by decide : -EINPROGRESS ≤ (0 : Int) ∧ (0 : Int) ≤ 0)
  have base : ProgramInv (daemonStart tapaddr buf) := by
    refine ⟨⟨first, fun i => Vector.length_toList, fun i => .idle rfl rfl rfl rfl rfl⟩, ?_, ?_⟩
    · refine ⟨?_, ?_, ?_, ?_, ?_, fun _ _ => rfl⟩
      · intro k p here
        cases here
      · intro k l p q here
        cases here
      · intro k _
        exact ⟨first k, rfl, rfl⟩
      · intro i p has
        cases has
      · intro i j p has
        cases has
    · intro i c asked
      cases asked
  refine run.invariant_state base ?_
  intro _ _ _ _ _ inv ok taken
  exact daemonStep_keeps inv ok taken

/- What has been heard is what has been answered, but for the last answer. -/
theorem ProgramInv.heard (inv : ProgramInv y) (i : Nat) : ∃ more,
    (account (y.sessions i)).log = (y.sessions i).told ++ more ∧
      ((y.sessions i).asked = none → more = [] ∧ (account (y.sessions i)).wait = none) := by
  have waiting : ∀ {c}, (y.sessions i).asked = some c → ¬(y.sessions i).asked = none := by
    intro c asked none
    rw [asked] at none
    cases none
  cases inv.system.phase i with
  | idle asked up running down heard =>
    refine ⟨[], by rw [List.append_nil, heard]; rfl, fun _ => ⟨rfl, ?_⟩⟩
    show (y.sessions i).running.map _ = none
    rw [running]
    rfl
  | asking c junk sound asked up running down heard =>
    exact ⟨[], by rw [List.append_nil, heard]; rfl, fun none => absurd none (waiting asked)⟩
  | serving c w sound waits asked up running down heard =>
    exact ⟨[], by rw [List.append_nil, heard]; rfl, fun none => absurd none (waiting asked)⟩
  | answering c a junk sound fits asked up running down heard =>
    exact ⟨[(c, outcome c a)], heard.symm, fun none => absurd none (waiting asked)⟩

instance (trace : List (DaemonEvent × Option Reply)) (y : DaemonSystem) :
    (e : DaemonEvent) → Decidable (DescriptorAsks trace y e)
  | .ask _ _ _ | .handle _ _ _ => inferInstanceAs (Decidable (_ ∧ _))
  | .own _ | .resume _ _ _ | .hear _ _ => inferInstanceAs (Decidable (_ ∧ True))

/- With a write at the end. -/
def HasWritten (y : DaemonSystem) : Prop :=
  handle (y.sessions 0).told = some (7, 4097) ∧ readBytes (y.sessions 0).told = [104, 105, 33] ∧
    writtenBytes (y.sessions 0).told = [111, 107] ∧ (y.sessions 0).asked = none

instance : DecidablePred HasWritten := fun _ => inferInstanceAs (Decidable (_ ∧ _ ∧ _ ∧ _))

end HfIp
