import HfIp.Libhfip
import HfIp.IpcPoll
import HfIp.Lib.Scatter

/- `poll` of the interposer (tools/libhfip.c): the kernel's descriptors and those of hf-ip in one
   array. -/
namespace HfIp

open Buffer Scatter

/- What the kernel reports for a descriptor and the events asked for. -/
abbrev KernelReport := Int32 → UInt16 → UInt16

/- A turn of the loop: the kernel's reports, the looks of the daemon's `_poll`, and what the daemon's
   buffer holds before the message. -/
structure PollTurn where
  report : KernelReport
  looks : List Look
  buf : Vector UInt8 IPC_BUFLEN

/- `failed` is a response that is refused. In an `overrun` the message is longer than the daemon's
   buffer, and `ipc_poll` reads behind its end. -/
inductive PollOutcome where
  | returned (fds : List PollFd) (result : Int)
  | failed
  | overrun
  deriving DecidableEq, Repr

/- How the loop ends, with the kernel's reports and the daemon's last look. -/
structure PollEnd where
  report : KernelReport
  look : Look
  outcome : PollOutcome

def ours (socks : List HfipSock) (p : PollFd) : Bool := (hfipGetSock socks p.fd.toInt).isSome

def theirs (socks : List HfipSock) (p : PollFd) : Bool := !ours socks p

/-! ### The kernel's own call -/

def kernelPoll (report : KernelReport) (fds : List PollFd) : List PollFd × Nat :=
  let fds := fds.map fun p => { p with revents := report p.fd p.events }
  (fds, fds.countP (·.revents ≠ 0))

/- `_poll(*kernel_fds, kernel_nfds, timeout)`: the call is given the entries from the first of the
   kernel's on. -/
def pollKernelFds (report : KernelReport) (kernelFds : List Nat) (fds : List PollFd) :
    List PollFd × Nat :=
  match kernelFds with
  | [] => (fds, 0)
  | first :: _ =>
    let r := kernelPoll report (field fds first kernelFds.length)
    (put fds first r.1, r.2)

/-! ### The loop -/

/- `events` and `revents` are copied back. -/
def pollWrite (p returned : PollFd) : PollFd :=
  { p with events := returned.events, revents := returned.revents }

/- Both arrays of pointers are arrays of positions. `none` when the turns are over, or the daemon's
   looks, before it returns. -/
def pollLoop (pid : UInt32) (timeout : Int32) (blocking : Bool) (kernelFds hfipFds : List Nat) :
    List PollFd → List PollTurn → Option PollEnd
  | _, [] => none
  | fds, turn :: turns =>
    let (fds, events) := pollKernelFds turn.report kernelFds fds
    if hfipFds.length < 1 then
      some { report := turn.report, look := fun _ _ => none, outcome := .returned fds events }
    else
      let msg := pollMessage pid timeout (gather fds hfipFds)
      if IPC_BUFLEN < msg.length then
        some { report := turn.report, look := fun _ _ => none, outcome := .overrun }
      else match ipcPoll (put turn.buf.toList 0 msg) turn.looks with
        | none => none
        | some (look, response) =>
          let rlen := ipcMsgSize + ipcErrSize + ipcPollfdSize * hfipFds.length
          let rbuf := put (List.replicate rlen 0) 0 response
          let rc := (hostDwordAt rbuf ipcMsgSize).toInt32.toInt
          if hostWordAt rbuf 0 ≠ IPC_POLL ∨ hostDwordAt rbuf 2 ≠ pid ∨ rc < 0 then
            some { report := turn.report, look := look, outcome := .failed }
          else
            let returned := pollfdsAt rbuf (ipcMsgSize + ipcErrSize) hfipFds.length
            let fds := scatter pollWrite fds hfipFds returned
            let result := events + rc
            if 0 < result ∨ blocking = false then
              some { report := turn.report, look := look, outcome := .returned fds result }
            else pollLoop pid timeout blocking kernelFds hfipFds fds turns

/- `poll`. All descriptors of hf-ip lead to the same daemon, whichever is used for the message. -/
def interposedPoll (socks : List HfipSock) (pid : UInt32) (fds : List PollFd) (timeout : Int32)
    (turns : List PollTurn) : Option PollEnd :=
  let hfipFds := positions (ours socks) 0 fds
  let kernelFds := positions (theirs socks) 0 fds
  let blocking := decide (0 < kernelFds.length ∧ 0 < hfipFds.length ∧ timeout = -1)
  pollLoop pid (if blocking then 100 else timeout) blocking kernelFds hfipFds fds turns

/-! ### Poll by descriptor -/

/-- Each entry has what was reported for its own descriptor and events, nothing else has changed, and
    the entries with something reported are counted. -/
structure Merged (socks : List HfipSock) (fds : List PollFd) (report : KernelReport) (look : Look)
    (result : List PollFd) (rc : Int) : Prop where
  length : result.length = fds.length
  kernel : ∀ (i : Nat) p, fds[i]? = some p → ours socks p = false →
    result[i]? = some { p with revents := report p.fd p.events }
  hfip : ∀ (i : Nat) p, fds[i]? = some p → ours socks p = true →
    ∃ v, look ((fds.take i).countP (ours socks)) p.fd = some v ∧
      result[i]? = some { p with revents := pollRevents v.bits p.events }
  count : rc = result.countP (·.revents ≠ 0)

/-- The outcome is that of a poll of each entry by itself. -/
def PollEnd.Merges (socks : List HfipSock) (fds : List PollFd) (e : PollEnd) : Prop :=
  match e.outcome with
  | .returned result rc => Merged socks fds e.report e.look result rc
  | .failed => False
  | .overrun => False

/- The entries that the kernel is given: as many as are its own, from the first of its own on. -/
def askedStart (socks : List HfipSock) (fds : List PollFd) : Nat := (positions (theirs socks) 0 fds).headD 0

def askedStop (socks : List HfipSock) (fds : List PollFd) : Nat :=
  askedStart socks fds + fds.countP (theirs socks)

def asked (socks : List HfipSock) (fds : List PollFd) : List PollFd :=
  field fds (askedStart socks fds) (fds.countP (theirs socks))

/- The entries behind them. -/
def unasked (socks : List HfipSock) (fds : List PollFd) : List PollFd := fds.drop (askedStop socks fds)

/-- Each entry of the kernel's that the kernel is not given has in `revents` what the kernel would
    report, and they make up in the count for the entries of hf-ip that the kernel is given. -/
structure Coincides (socks : List HfipSock) (fds : List PollFd) (report : KernelReport) : Prop where
  stale : ∀ p ∈ unasked socks fds, ours socks p = false → p.revents = report p.fd p.events
  balance : (asked socks fds).countP (fun p => ours socks p ∧ report p.fd p.events ≠ 0) =
    (unasked socks fds).countP fun p => theirs socks p ∧ report p.fd p.events ≠ 0

/-! ### One turn -/

section Turn

variable {socks : List HfipSock} {fds fds' result : List PollFd} {report report' : KernelReport}
  {look look' : Look} {rc rc' : Int}

/-- What a turn leaves: entries of the kernel's behind those that it is given keep their `revents`, and
    so the sum is off by the difference of two numbers. -/
structure Settled (socks : List HfipSock) (fds : List PollFd) (report : KernelReport) (look : Look)
    (result : List PollFd) (rc : Int) : Prop where
  length : result.length = fds.length
  given : ∀ (i : Nat) p, fds[i]? = some p → ours socks p = false → i < askedStop socks fds →
    result[i]? = some { p with revents := report p.fd p.events }
  behind : ∀ (i : Nat) p, fds[i]? = some p → ours socks p = false → askedStop socks fds ≤ i →
    result[i]? = some p
  hfip : ∀ (i : Nat) p, fds[i]? = some p → ours socks p = true →
    ∃ v, look ((fds.take i).countP (ours socks)) p.fd = some v ∧
      result[i]? = some { p with revents := pollRevents v.bits p.events }
  count : rc + (unasked socks fds).countP (fun p => theirs socks p ∧ p.revents ≠ 0) =
    result.countP (·.revents ≠ 0) +
      (asked socks fds).countP fun p => ours socks p ∧ report p.fd p.events ≠ 0

theorem Settled.merged_iff (settled : Settled socks fds report look result rc) :
    Merged socks fds report look result rc ↔ Coincides socks fds report := by
  have swap (stale : ∀ p ∈ unasked socks fds, ours socks p = false → p.revents = report p.fd p.events) :
      (unasked socks fds).countP (fun p => theirs socks p ∧ p.revents ≠ 0) =
        (unasked socks fds).countP fun p => theirs socks p ∧ report p.fd p.events ≠ 0 := by
    refine List.countP_congr fun p member => ?_
    simp only [decide_eq_true_eq]
    refine and_congr_right fun kernel => ?_
    rw [stale p member (by simpa [theirs] using kernel)]
  have count := settled.count
  constructor
  · intro merged
    have stale : ∀ p ∈ unasked socks fds, ours socks p = false → p.revents = report p.fd p.events := by
      intro p member kernel
      obtain ⟨j, here⟩ := List.mem_iff_getElem?.mp member
      rw [unasked, List.getElem?_drop] at here
      have kept := settled.behind _ p here kernel (Nat.le_add_right _ _)
      have reported := merged.kernel _ p here kernel
      exact congrArg PollFd.revents (Option.some.inj (kept.symm.trans reported))
    refine ⟨stale, ?_⟩
    have sum := merged.count
    rw [swap stale] at count
    omega
  · intro coincides
    refine ⟨settled.length, fun i p here kernel => ?_, settled.hfip, ?_⟩
    · rcases Nat.lt_or_ge i (askedStop socks fds) with given | beyond
      · exact settled.given i p here kernel given
      · have member : p ∈ unasked socks fds := by
          refine List.mem_iff_getElem?.mpr ⟨i - askedStop socks fds, ?_⟩
          rw [unasked, List.getElem?_drop, Nat.add_sub_cancel' beyond]
          exact here
        rw [← coincides.stale p member kernel]
        exact settled.behind i p here kernel beyond
    · rw [swap coincides.stale, ← coincides.balance] at count
      omega

/- The entries with nothing but `revents` changed. -/
theorem Settled.entry (settled : Settled socks fds report look result rc) (i : Nat) :
    ∃ f : PollFd → UInt16, result[i]? = fds[i]?.map fun p => { p with revents := f p } := by
  cases here : fds[i]? with
  | none =>
    have short := List.getElem?_eq_none_iff.mp here
    refine ⟨PollFd.revents, List.getElem?_eq_none_iff.mpr ?_⟩
    rw [settled.length]
    exact short
  | some p =>
    cases kind : ours socks p with
    | true =>
      obtain ⟨v, -, there⟩ := settled.hfip i p here kind
      exact ⟨fun _ => pollRevents v.bits p.events, there⟩
    | false =>
      rcases Nat.lt_or_ge i (askedStop socks fds) with given | beyond
      · exact ⟨fun _ => report p.fd p.events, settled.given i p here kind given⟩
      · exact ⟨PollFd.revents, settled.behind i p here kind beyond⟩

theorem Settled.map_eq {γ : Type} (settled : Settled socks fds report look result rc) (f : PollFd → γ)
    (same : ∀ p r, f { p with revents := r } = f p) : result.map f = fds.map f := by
  refine List.ext_getElem? fun i => ?_
  obtain ⟨g, there⟩ := settled.entry i
  rw [List.getElem?_map, List.getElem?_map, there, Option.map_map]
  exact congrFun (congrArg Option.map (funext fun p => same p _)) _

/- The kernel is given the same entries in the next turn. -/
theorem Settled.places (settled : Settled socks fds report look result rc) :
    askedStart socks result = askedStart socks fds ∧
      result.countP (theirs socks) = fds.countP (theirs socks) ∧
      askedStop socks result = askedStop socks fds := by
  have kinds := settled.map_eq (theirs socks) fun _ _ => rfl
  have start : askedStart socks result = askedStart socks fds := congrArg (·.headD 0) (positions_congr kinds)
  have number := countP_of_map kinds
  exact ⟨start, number, by rw [askedStop, askedStop, start, number]⟩

/-- Turn after turn only the last counts. -/
theorem Settled.trans (first : Settled socks fds report look fds' rc)
    (second : Settled socks fds' report' look' result rc') :
    Settled socks fds report' look' result rc' := by
  obtain ⟨start, number, stop⟩ := first.places
  have kinds := first.map_eq (ours socks) fun _ _ => rfl
  refine ⟨second.length.trans first.length, fun i p here kernel given => ?_,
    fun i p here kernel beyond => ?_, fun i p here kind => ?_, ?_⟩
  · rw [← stop] at given
    have answer := second.given i _ (first.given i p here kernel (stop ▸ given)) kernel given
    exact answer
  · exact second.behind i p (first.behind i p here kernel beyond) kernel (stop ▸ beyond)
  · obtain ⟨v, -, there⟩ := first.hfip i p here kind
    obtain ⟨w, looked, answer⟩ := second.hfip i _ there kind
    have place : (fds'.take i).countP (ours socks) = (fds.take i).countP (ours socks) := by
      refine countP_of_map ?_
      rw [List.map_take, List.map_take, kinds]
    rw [place] at looked
    exact ⟨w, looked, answer⟩
  · have count := second.count
    have front : (asked socks fds').countP (fun p => ours socks p ∧ report' p.fd p.events ≠ 0) =
        (asked socks fds).countP fun p => ours socks p ∧ report' p.fd p.events ≠ 0 := by
      refine countP_of_map ?_
      have events := first.map_eq (fun p => decide (ours socks p ∧ report' p.fd p.events ≠ 0))
        fun _ _ => rfl
      rw [asked, asked, start, number, field, field, List.map_take, List.map_take, List.map_drop,
        List.map_drop, events]
    have back : (unasked socks fds').countP (fun p => theirs socks p ∧ p.revents ≠ 0) =
        (unasked socks fds).countP fun p => theirs socks p ∧ p.revents ≠ 0 := by
      refine countP_of_map (List.ext_getElem? fun j => ?_)
      rw [List.getElem?_map, List.getElem?_map, unasked, unasked, stop, List.getElem?_drop,
        List.getElem?_drop]
      cases here : fds[askedStop socks fds + j]? with
      | none =>
        have short := List.getElem?_eq_none_iff.mp here
        rw [List.getElem?_eq_none_iff.mpr (first.length ▸ short)]
      | some p =>
        cases kind : ours socks p with
        | false => rw [first.behind _ p here kind (Nat.le_add_right _ _)]
        | true =>
          obtain ⟨v, -, there⟩ := first.hfip _ p here kind
          have lacks (r : UInt16) : theirs socks { p with revents := r } = false := by
            rw [theirs]
            exact congrArg (!·) kind
          rw [there]
          simp [lacks]
    rw [front, back] at count
    exact count

/- In front of the entries that the kernel is given there is none of its own. -/
theorem asked_split (socks : List HfipSock) (fds : List PollFd) :
    ∃ front, fds = front ++ asked socks fds ++ unasked socks fds ∧
      front.length = askedStart socks fds ∧ (asked socks fds).length = fds.countP (theirs socks) ∧
      ∀ p ∈ front, theirs socks p = false := by
  obtain ⟨front, rest, split, long, none, room⟩ := positions_room (theirs socks) fds
  have here : front.length = askedStart socks fds := long
  have drop : fds.drop (askedStart socks fds) = rest := by
    rw [← here, split, List.drop_left]
  have given : asked socks fds = rest.take (fds.countP (theirs socks)) := by rw [asked, field, drop]
  have behind : unasked socks fds = rest.drop (fds.countP (theirs socks)) := by
    rw [unasked, askedStop, ← List.drop_drop, drop]
  refine ⟨front, ?_, here, ?_, none⟩
  · rw [given, behind, List.append_assoc, List.take_append_drop]
    exact split
  · rw [given, List.length_take, Nat.min_eq_left room]

def kernelAnswer (report : KernelReport) (p : PollFd) : PollFd := { p with revents := report p.fd p.events }

theorem pollKernelFds_eq (socks : List HfipSock) (report : KernelReport) (fds : List PollFd) :
    pollKernelFds report (positions (theirs socks) 0 fds) fds =
      (put fds (askedStart socks fds) ((asked socks fds).map (kernelAnswer report)),
        (asked socks fds).countP fun p => report p.fd p.events ≠ 0) := by
  have number := length_positions (theirs socks) 0 fds
  unfold askedStart asked
  rw [← number]
  unfold askedStart
  cases positions (theirs socks) 0 fds with
  | nil => rfl
  | cons first more =>
    have counted (xs : List PollFd) : (xs.map (kernelAnswer report)).countP (·.revents ≠ 0) =
        xs.countP fun p => report p.fd p.events ≠ 0 := by
      rw [List.countP_map]
      rfl
    exact congrArg (Prod.mk _) (counted _)

/- The entries after the kernel's call. -/
theorem kernel_entry (socks : List HfipSock) (report : KernelReport) {i : Nat} {p : PollFd}
    (here : fds[i]? = some p) :
    (put fds (askedStart socks fds) ((asked socks fds).map (kernelAnswer report)))[i]? =
      some (if askedStart socks fds ≤ i ∧ i < askedStop socks fds then kernelAnswer report p else p) := by
  obtain ⟨-, -, -, number, -⟩ := asked_split socks fds
  have long : ((asked socks fds).map (kernelAnswer report)).length = fds.countP (theirs socks) := by
    rw [List.length_map, number]
  have stop : askedStop socks fds = askedStart socks fds + fds.countP (theirs socks) := rfl
  split
  · rename_i inside
    obtain ⟨k, rfl⟩ := Nat.exists_eq_add_of_le inside.1
    have within : k < fds.countP (theirs socks) := by omega
    have short := (List.getElem?_eq_some_iff.mp here).1
    rw [getElem?_put_here _ _ (long ▸ within) short, List.getElem?_map, asked, field,
      List.getElem?_take_of_lt within, List.getElem?_drop, here]
    rfl
  · rename_i outside
    rw [getElem?_put_other _ _ (by omega), here]

theorem kernel_kinds (socks : List HfipSock) (report : KernelReport) (fds : List PollFd) :
    (put fds (askedStart socks fds) ((asked socks fds).map (kernelAnswer report))).map (ours socks) =
      fds.map (ours socks) := by
  refine List.ext_getElem? fun i => ?_
  rw [List.getElem?_map, List.getElem?_map]
  cases here : fds[i]? with
  | none =>
    have short := List.getElem?_eq_none_iff.mp here
    rw [List.getElem?_eq_none_iff.mpr ((length_put _ _ _).symm ▸ short)]
  | some p =>
    rw [kernel_entry socks report here]
    split
    · rfl
    · rfl

theorem asked_first {i : Nat} {p : PollFd} (here : fds[i]? = some p) (kernel : ours socks p = false) :
    askedStart socks fds ≤ i := by
  obtain ⟨front, split, start, -, none⟩ := asked_split socks fds
  by_contra before
  rw [split, List.append_assoc, List.getElem?_append_left (by omega)] at here
  have lacks := none p (List.mem_of_getElem? here)
  rw [theirs, kernel] at lacks
  cases lacks

/- The sum of a turn. -/
theorem turn_count {answers : List PollFd} (given : fds' = put fds (askedStart socks fds)
      ((asked socks fds).map (kernelAnswer report)))
    (long : answers.length = fds'.countP (ours socks)) :
    (asked socks fds).countP (fun p => report p.fd p.events ≠ 0) + answers.countP (·.revents ≠ 0) +
        (unasked socks fds).countP (fun p => theirs socks p ∧ p.revents ≠ 0) =
      (weave (ours socks) pollWrite fds' answers).countP (·.revents ≠ 0) +
        (asked socks fds).countP fun p => ours socks p ∧ report p.fd p.events ≠ 0 := by
  obtain ⟨front, split, start, -, none⟩ := asked_split socks fds
  have same : ((asked socks fds).map (kernelAnswer report)).length = (asked socks fds).length :=
    List.length_map _
  have written := put_middle front (unasked socks fds) same
  rw [← split, start, ← given] at written
  have copied : ∀ p b : PollFd, decide ((pollWrite p b).revents ≠ 0) = decide (b.revents ≠ 0) :=
    fun _ _ => rfl
  have woven : (weave (ours socks) pollWrite fds' answers).countP (fun p => p.revents ≠ 0) =
      (fds'.filter fun p => !ours socks p).countP (fun p => p.revents ≠ 0) +
        answers.countP fun p => p.revents ≠ 0 := countP_weave copied fds' answers long
  have front_none : (front.filter fun p => !ours socks p).countP (fun p => p.revents ≠ 0) = 0 := by
    have empty : (front.filter fun p => !ours socks p) = [] := by
      refine List.filter_eq_nil_iff.mpr fun p member => ?_
      have lacks := none p member
      simpa [theirs] using lacks
    rw [empty]
    rfl
  have both : (asked socks fds).countP (fun p => report p.fd p.events ≠ 0) =
      (asked socks fds).countP (fun p => ours socks p ∧ report p.fd p.events ≠ 0) +
        (asked socks fds).countP fun p => theirs socks p ∧ report p.fd p.events ≠ 0 := by
    rw [List.countP_eq_countP_filter_add _ _ (ours socks), List.countP_filter, List.countP_filter]
    refine congrArg₂ _ (List.countP_congr fun p _ => ?_) (List.countP_congr fun p _ => ?_)
    · simp [and_comm]
    · simp [theirs, and_comm]
  have mine : (((asked socks fds).map (kernelAnswer report)).filter fun p => !ours socks p).countP
      (fun p => p.revents ≠ 0) =
        (asked socks fds).countP fun p => theirs socks p ∧ report p.fd p.events ≠ 0 := by
    rw [List.countP_filter, List.countP_map]
    refine List.countP_congr fun p _ => ?_
    have kind : ours socks (kernelAnswer report p) = ours socks p := rfl
    have revents : (kernelAnswer report p).revents = report p.fd p.events := rfl
    simp [theirs, kind, revents, and_comm]
  have rest : ((unasked socks fds).filter fun p => !ours socks p).countP (fun p => p.revents ≠ 0) =
      (unasked socks fds).countP fun p => theirs socks p ∧ p.revents ≠ 0 := by
    rw [List.countP_filter]
    refine List.countP_congr fun p _ => ?_
    simp [theirs, and_comm]
  rw [woven, both, written, List.filter_append, List.filter_append, List.countP_append,
    List.countP_append, front_none, mine, rest]
  omega

/-- One turn. -/
theorem turn_settled (look : Look) (answers : List PollFd) (given : fds' = put fds (askedStart socks fds)
      ((asked socks fds).map (kernelAnswer report)))
    (answered : Answers look 0 (fds'.filter (ours socks)) answers) :
    Settled socks fds report look (weave (ours socks) pollWrite fds' answers)
      ((asked socks fds).countP (fun p => report p.fd p.events ≠ 0) +
        answers.countP (·.revents ≠ 0)) := by
  have entry {i : Nat} {p : PollFd} (here : fds[i]? = some p) := kernel_entry socks report here
  rw [← given] at entry
  have length : fds'.length = fds.length := by rw [given, length_put]
  have untouched {i : Nat} {q : PollFd} (there : fds'[i]? = some q) (kernel : ours socks q = false) :
      (weave (ours socks) pollWrite fds' answers)[i]? = some q := by
    rw [getElem?_weave, there, Option.map_some, if_neg (by simp [kernel])]
  have kinds : fds'.map (ours socks) = fds.map (ours socks) := by rw [given, kernel_kinds]
  refine ⟨(length_weave _ _).trans length, fun i p here kernel within => ?_,
    fun i p here kernel beyond => ?_, fun i p here kind => ?_, ?_⟩
  · have there := entry here
    rw [if_pos ⟨asked_first here kernel, within⟩] at there
    exact untouched there kernel
  · have there := entry here
    rw [if_neg (by omega)] at there
    exact untouched there kernel
  · have same : (fds'.take i).countP (ours socks) = (fds.take i).countP (ours socks) := by
      refine countP_of_map ?_
      rw [List.map_take, List.map_take, kinds]
    obtain ⟨r, there⟩ : ∃ r, fds'[i]? = some { p with revents := r } := by
      have there := entry here
      split at there
      · exact ⟨_, there⟩
      · exact ⟨p.revents, there⟩
    have sent := getElem?_filter (p := ours socks) there kind
    obtain ⟨v, looked, answer⟩ := answered.each _ _ sent
    rw [same, Nat.zero_add] at looked
    refine ⟨v, looked, ?_⟩
    have kept : ours socks { p with revents := r } = true := kind
    rw [getElem?_weave, there, Option.map_some, if_pos kept, answer]
    rfl
  · have long : answers.length = fds'.countP (ours socks) := by
      rw [answered.length, List.countP_eq_length_filter]
    exact_mod_cast turn_count given long

end Turn

/-! ### The whole call -/

section Loop

variable {socks : List HfipSock} {fds : List PollFd} {pid : UInt32} {timeout : Int32} {blocking : Bool}

/- What the loop ends with. -/
inductive Ends (socks : List HfipSock) (fds : List PollFd) : PollEnd → Prop where
  | settled {report : KernelReport} {look : Look} {result : List PollFd} {rc : Int}
      (few : fds.countP (ours socks) ≤ 1021) (settled : Settled socks fds report look result rc) :
      Ends socks fds ⟨report, look, .returned result rc⟩
  | failed {report : KernelReport} {look : Look} : Ends socks fds ⟨report, look, .failed⟩
  | overrun {report : KernelReport} {look : Look} (many : 1021 < fds.countP (ours socks)) :
      Ends socks fds ⟨report, look, .overrun⟩

theorem Ends.after {result : List PollFd} {report : KernelReport} {look : Look} {rc : Int} {e : PollEnd}
    (settled : Settled socks fds report look result rc) (ends : Ends socks result e) : Ends socks fds e := by
  have number : result.countP (ours socks) = fds.countP (ours socks) :=
    countP_of_map (settled.map_eq (ours socks) fun _ _ => rfl)
  cases ends with
  | settled few last => exact .settled (number ▸ few) (settled.trans last)
  | failed => exact .failed
  | overrun many => exact .overrun (number ▸ many)

theorem pollLoop_ends {turns : List PollTurn} {e : PollEnd}
    (ended : pollLoop pid timeout blocking (positions (theirs socks) 0 fds)
      (positions (ours socks) 0 fds) fds turns = some e) : Ends socks fds e := by
  induction turns generalizing fds with
  | nil => cases ended
  | cons turn rest ih =>
    rw [pollLoop, pollKernelFds_eq] at ended
    dsimp only at ended
    generalize given : put fds (askedStart socks fds)
      ((asked socks fds).map (kernelAnswer turn.report)) = fds' at ended
    have kinds : fds'.map (ours socks) = fds.map (ours socks) := by rw [← given, kernel_kinds]
    have number : (fds'.filter (ours socks)).length = fds.countP (ours socks) := by
      rw [← List.countP_eq_length_filter, countP_of_map kinds]
    have size : IPC_BUFLEN = 8192 := rfl
    have whole := pollMessage_length pid timeout (fds'.filter (ours socks))
    have places : (positions (ours socks) 0 fds).length = (fds'.filter (ours socks)).length := by
      rw [length_positions, number]
    have sent : gather fds' (positions (ours socks) 0 fds) = fds'.filter (ours socks) := by
      rw [← positions_congr kinds, gather_positions]
    rw [sent] at ended
    split at ended
    · rename_i none
      obtain rfl := Option.some.inj ended
      have nothing : (fds'.filter (ours socks)).length = 0 := by omega
      have empty := List.eq_nil_of_length_eq_zero nothing
      have turned := turn_settled (fun _ _ => .none) [] given.symm
        (by rw [empty]; exact ⟨rfl, fun j p here => by simp at here⟩)
      rw [weave_nil, List.countP_nil, Int.natCast_zero, Int.add_zero] at turned
      exact .settled (by omega) turned
    · split at ended
      · obtain rfl := Option.some.inj ended
        exact .overrun (by omega)
      · rename_i short
        split at ended
        · cases ended
        · rename_i look response replied
          rw [places] at ended
          generalize read : put (List.replicate (ipcMsgSize + ipcErrSize +
            ipcPollfdSize * (fds'.filter (ours socks)).length) 0) 0 response = rbuf at ended
          obtain ⟨type, process, answers⟩ := ipcPoll_reply (by omega) replied read.symm
          split at ended
          · obtain rfl := Option.some.inj ended
            exact .failed
          · rename_i good
            obtain ⟨answered, count⟩ := answers (Int.not_lt.mp fun less => good (.inr (.inr less)))
            generalize pollfdsAt rbuf (ipcMsgSize + ipcErrSize) (fds'.filter (ours socks)).length =
              returned at *
            have turned := turn_settled look returned given.symm answered
            have woven : scatter pollWrite fds' (positions (ours socks) 0 fds) returned =
                weave (ours socks) pollWrite fds' returned := by
              rw [← positions_congr kinds, scatter_positions]
            rw [woven, count] at ended
            split at ended
            · obtain rfl := Option.some.inj ended
              exact .settled (by omega) turned
            · refine Ends.after turned (ih ?_)
              rw [positions_congr (turned.map_eq (theirs socks) fun _ _ => rfl),
                positions_congr (turned.map_eq (ours socks) fun _ _ => rfl)]
              exact ended

/-- A poll that returns merges the reports exactly when the descriptors of hf-ip fit into one message
    and the kernel's reports coincide. -/
theorem poll_merged_exact {turns : List PollTurn} {e : PollEnd}
    (ended : interposedPoll socks pid fds timeout turns = some e) (succeeded : e.outcome ≠ .failed) :
    e.Merges socks fds ↔ fds.countP (ours socks) ≤ 1021 ∧ Coincides socks fds e.report := by
  cases pollLoop_ends ended with
  | settled few settled => exact settled.merged_iff.trans (and_iff_right few).symm
  | failed => exact absurd rfl succeeded
  | overrun many => exact iff_of_false id fun both => absurd both.1 (Nat.not_le.mpr many)

/-- Whatever the kernel reports, they coincide exactly when no descriptor of the kernel's comes behind
    those that it is given, that is, when none of hf-ip stands between two of the kernel's. -/
theorem coincides_always_iff (socks : List HfipSock) (fds : List PollFd) :
    (∀ report, Coincides socks fds report) ↔ ∀ p ∈ unasked socks fds, ours socks p = true := by
  constructor
  · intro always p member
    by_contra kernel
    -- a report that `revents` does not hold yet
    have stale := (always fun _ _ => p.revents + 1).stale p member (Bool.not_eq_true _ ▸ kernel)
    exact absurd stale.symm (by simp)
  · intro none report
    obtain ⟨front, split, -, number, clear⟩ := asked_split socks fds
    have lacks {p : PollFd} (mine : ours socks p = true) : ¬theirs socks p = true := by simp [theirs, mine]
    have none_front : front.countP (theirs socks) = 0 :=
      List.countP_eq_zero.mpr fun p member => by simp [clear p member]
    have none_behind : (unasked socks fds).countP (theirs socks) = 0 :=
      List.countP_eq_zero.mpr fun p member => lacks (none p member)
    have total : fds.countP (theirs socks) = (asked socks fds).countP (theirs socks) := by
      conv_lhs => rw [split]
      rw [List.countP_append, List.countP_append, none_front, none_behind, Nat.zero_add, Nat.add_zero]
    have all : ∀ p ∈ asked socks fds, theirs socks p = true :=
      List.countP_eq_length.mp (total.symm.trans number.symm)
    refine ⟨fun p member kernel => ?_, ?_⟩
    · have mine := none p member
      rw [kernel] at mine
      cases mine
    · have given : (asked socks fds).countP (fun p => ours socks p ∧ report p.fd p.events ≠ 0) = 0 := by
        refine List.countP_eq_zero.mpr fun p member both => ?_
        exact lacks (of_decide_eq_true both).1 (all p member)
      have rest : (unasked socks fds).countP (fun p => theirs socks p ∧ report p.fd p.events ≠ 0) = 0 := by
        refine List.countP_eq_zero.mpr fun p member both => ?_
        exact lacks (none p member) (of_decide_eq_true both).1
      rw [given, rest]

end Loop

/-! ### Descriptors 5 and 6 of the kernel's and 4097 of hf-ip -/

def mixSocks : List HfipSock := [{ addr := 0, hffd := 3, fd := 4097 }]

def mixFd (fd : Int32) : PollFd := { fd := fd, events := POLLIN, revents := 0 }

/- There is text to read on 6 and on 4097, which is none of the kernel's descriptors. -/
def mixTurn : PollTurn where
  report fd _ := if fd = 6 then POLLIN else if fd = 5 then 0 else POLLNVAL
  looks := [fun _ _ => some ⟨POLLIN, by decide⟩]
  buf := .replicate _ 0

theorem poll_merged_exact_one : ∃ e, interposedPoll mixSocks 7 [mixFd 5, mixFd 6, mixFd 4097] 0 [mixTurn] =
    some e ∧ e.Merges mixSocks [mixFd 5, mixFd 6, mixFd 4097] := by
  have run : (interposedPoll mixSocks 7 [mixFd 5, mixFd 6, mixFd 4097] 0 [mixTurn]).map (·.outcome) =
      some (.returned [mixFd 5, { mixFd 6 with revents := POLLIN }, { mixFd 4097 with revents := POLLIN }] 2) := by
    decide +kernel
  obtain ⟨e, ended, outcome⟩ := Option.map_eq_some_iff.mp run
  have fine : ∀ p ∈ unasked mixSocks [mixFd 5, mixFd 6, mixFd 4097], ours mixSocks p = true := by decide
  exact ⟨e, ended, (poll_merged_exact ended (by rw [outcome]; decide)).mpr
    ⟨by decide, (coincides_always_iff _ _).mpr fine e.report⟩⟩

/- With 4097 between them, the kernel is asked about 5 and 4097. -/
theorem poll_merged_wrong : ¬∀ (socks : List HfipSock) (pid : UInt32) (fds : List PollFd)
    (timeout : Int32) (turns : List PollTurn) (e : PollEnd),
    interposedPoll socks pid fds timeout turns = some e → e.outcome ≠ .failed → e.Merges socks fds := by
  intro claim
  have run : (interposedPoll mixSocks 7 [mixFd 5, mixFd 4097, mixFd 6] 0 [mixTurn]).map
      (fun e => (e.outcome, e.report 6 POLLIN)) =
        some (.returned [mixFd 5, { mixFd 4097 with revents := POLLIN }, mixFd 6] 2, POLLIN) := by
    decide +kernel
  obtain ⟨e, ended, both⟩ := Option.map_eq_some_iff.mp run
  obtain ⟨outcome, report⟩ := Prod.mk.inj both
  have merges := claim _ _ _ _ _ e ended (by rw [outcome]; decide)
  rw [PollEnd.Merges, outcome] at merges
  have last := merges.kernel 2 (mixFd 6) rfl (by decide)
  rw [show e.report (mixFd 6).fd (mixFd 6).events = POLLIN from report] at last
  revert last
  decide

end HfIp
