import HfIp.SkBytes
import Mathlib.Data.List.GetD

/- `tcp_parse_opts` against the grammar of the TCP options: what it takes from an option area, and which
   bytes it looks at. -/
namespace HfIp

open Buffer

/-! ### The options -/

/-- An option other than the end of the list. Of the kinds that stand for nothing here the length byte
    tells how many bytes follow. -/
inductive TcpOption where
  | noop
  | mss (value : UInt16)
  | windowScale (shift : UInt8)
  | sackPermitted
  | timestamps (values : Vector UInt8 8)
  | unknown (kind : UInt8) (rest : List UInt8) (other : kind ∉ [0, 1, 2, 3, 4, 8]) (short : rest.length ≤ 38)
  deriving DecidableEq

namespace TcpOption

def bytes : TcpOption → List UInt8
  | noop => [TCP_OPT_NOOP]
  | mss value => [TCP_OPT_MSS, TCP_OPTLEN_MSS] ++ be16 value
  | windowScale shift => [3, 3, shift]
  | sackPermitted => [TCP_OPT_SACK_OK, TCP_OPTLEN_SACK]
  | timestamps values => [TCP_OPT_TS, 10] ++ values.toList
  | unknown kind rest _ _ => [kind, UInt8.ofNat (2 + rest.length)] ++ rest

/- What an option tells the one who has received it. -/
def announce (seen : OptsSeen) : TcpOption → OptsSeen
  | mss value => if 536 < value ∧ value ≤ 1460 then { seen with smss := value } else seen
  | sackPermitted => { seen with sack := true }
  | timestamps _ => { seen with tsopt := true }
  | _ => seen

/- The kinds behind which the loop goes on. -/
def passed : TcpOption → Bool
  | noop | mss _ => true
  | _ => false

end TcpOption

/-- What a sequence of options tells, each in its turn. -/
def announced (seen : OptsSeen) (opts : List TcpOption) : OptsSeen := opts.foldl TcpOption.announce seen

/-- The option area of a header, which may end early, with padding behind. -/
structure OptionArea where
  opts : List TcpOption
  padding : Option (List UInt8)

def OptionArea.bytes (area : OptionArea) : List UInt8 :=
  area.opts.flatMap TcpOption.bytes ++ (area.padding.map ((0 : UInt8) :: ·)).getD []

/-- The option area of a header, whose length the data offset tells: the first bytes of its data. -/
structure AreaOf (th : TcpHdr) (bytes : List UInt8) : Prop where
  words : 5 ≤ th.hl.val
  length : bytes.length = tcpHlen th - 20
  starts : field th.data 0 bytes.length = bytes

instance (th : TcpHdr) (bytes : List UInt8) : Decidable (AreaOf th bytes) :=
  decidable_of_iff (5 ≤ th.hl.val ∧ bytes.length = tcpHlen th - 20 ∧
    field th.data 0 bytes.length = bytes)
    ⟨fun ⟨words, length, starts⟩ => ⟨words, length, starts⟩,
      fun ⟨words, length, starts⟩ => ⟨words, length, starts⟩⟩

/-! ### The loop -/

/- The length of the option area, as the loop has it. -/
def optsLength (th : TcpHdr) : UInt8 := UInt8.ofNat (tcpHlen th) - 20

/- What the loop has seen at its end. -/
def optsSeen (tsk : TcpSock) (th : TcpHdr) : OptsSeen :=
  parseOptsLoop th.data (optsLength th).toNat 0 (optsLength th) { smss := tsk.smss }

/- One turn: the position and the length that is left. -/
def optsTurn (data : List UInt8) (ptr : Nat) (optlen : UInt8) : Option (Nat × UInt8) :=
  if 0 < optlen ∧ optlen < 20 then
    if data.getD ptr 0 = TCP_OPT_MSS then some (ptr + 4, optlen - 4)
    else if data.getD ptr 0 = TCP_OPT_NOOP then some (ptr + 1, optlen - 1)
    else some (ptr, optlen - 1)
  else none

/- What it has seen after that turn. -/
def optsSee (data : List UInt8) (ptr : Nat) (seen : OptsSeen) : OptsSeen :=
  let kind := data.getD ptr 0
  if kind = TCP_OPT_MSS then
    let mss := (data.getD (ptr + 2) 0).toUInt16 <<< 8 ||| (data.getD (ptr + 3) 0).toUInt16
    if 536 < mss ∧ mss ≤ 1460 then { seen with smss := mss } else seen
  else if kind = TCP_OPT_SACK_OK then { seen with sack := true }
  else if kind = TCP_OPT_TS then { seen with tsopt := true }
  else seen

/- The offsets it reads in that turn: the kind, and the value of an MSS option. -/
def optsReads (data : List UInt8) (ptr : Nat) : List Nat :=
  if data.getD ptr 0 = TCP_OPT_MSS then [ptr, ptr + 2, ptr + 3] else [ptr]

/-- The loop runs to its end, and reads these offsets. -/
inductive OptsRun (data : List UInt8) : Nat → UInt8 → List Nat → Prop where
  | stop {ptr : Nat} {optlen : UInt8} (ended : optsTurn data ptr optlen = none) : OptsRun data ptr optlen []
  | turn {ptr ptr' : Nat} {optlen optlen' : UInt8} {reads : List Nat}
      (next : optsTurn data ptr optlen = some (ptr', optlen')) (later : OptsRun data ptr' optlen' reads) :
      OptsRun data ptr optlen (optsReads data ptr ++ reads)

variable {data bytes : List UInt8} {ptr fuel : Nat} {optlen : UInt8} {seen : OptsSeen} {tsk : TcpSock}
  {th : TcpHdr}

theorem parseOptsLoop_turn (data : List UInt8) (fuel ptr : Nat) (optlen : UInt8) (seen : OptsSeen) :
    parseOptsLoop data (fuel + 1) ptr optlen seen = match optsTurn data ptr optlen with
      | none => seen
      | some (ptr', optlen') => parseOptsLoop data fuel ptr' optlen' (optsSee data ptr seen) := by
  rw [parseOptsLoop]
  unfold optsTurn optsSee
  by_cases go : 0 < optlen ∧ optlen < 20
  · rw [if_pos go, if_pos go]
    dsimp only
    split
    · rfl
    · split
      · rename_i noop
        rw [noop]
        rfl
      · split
        · rfl
        · split
          · rfl
          · rfl
  · rw [if_neg go, if_neg go]

theorem optsTurn_over (long : optlen.toNat = 0 ∨ 20 ≤ optlen.toNat) : optsTurn data ptr optlen = none := by
  refine if_neg fun ⟨left, short⟩ => ?_
  have low : 0 < optlen.toNat := UInt8.lt_iff_toNat_lt.mp left
  have high : optlen.toNat < 20 := UInt8.lt_iff_toNat_lt.mp short
  omega

theorem parseOptsLoop_over (long : optlen.toNat = 0 ∨ 20 ≤ optlen.toNat) :
    parseOptsLoop data fuel ptr optlen seen = seen := by
  cases fuel with
  | zero => rfl
  | succ fuel => rw [parseOptsLoop_turn, optsTurn_over long]

theorem optsTurn_go (left : 0 < optlen.toNat) (short : optlen.toNat < 20) : optsTurn data ptr optlen =
    if data.getD ptr 0 = TCP_OPT_MSS then some (ptr + 4, optlen - 4)
    else if data.getD ptr 0 = TCP_OPT_NOOP then some (ptr + 1, optlen - 1)
    else some (ptr, optlen - 1) :=
  if_pos ⟨UInt8.lt_iff_toNat_lt.mpr left, UInt8.lt_iff_toNat_lt.mpr short⟩

theorem toNat_less {k : UInt8} (enough : k.toNat ≤ optlen.toNat) :
    (optlen - k).toNat = optlen.toNat - k.toNat := UInt8.toNat_sub_of_le _ _ (UInt8.le_iff_toNat_le.mpr enough)

/- At an option of another kind the loop stands still until nothing is left of the length. -/
theorem parseOptsLoop_stuck (mss : data.getD ptr 0 ≠ TCP_OPT_MSS) (noop : data.getD ptr 0 ≠ TCP_OPT_NOOP)
    (short : optlen.toNat < 20) (enough : optlen.toNat ≤ fuel) (left : 0 < optlen.toNat) :
    parseOptsLoop data fuel ptr optlen seen = optsSee data ptr seen := by
  have again : ∀ seen, optsSee data ptr (optsSee data ptr seen) = optsSee data ptr seen := by
    intro seen
    unfold optsSee
    dsimp only
    rw [if_neg mss, if_neg mss]
    split
    · rfl
    · split <;> rfl
  induction fuel generalizing optlen seen with
  | zero => omega
  | succ fuel ih =>
    have less : (optlen - 1).toNat = optlen.toNat - 1 := toNat_less left
    rw [parseOptsLoop_turn, optsTurn_go left short, if_neg mss, if_neg noop]
    dsimp only
    by_cases last : optlen.toNat = 1
    · exact parseOptsLoop_over (.inl (by omega))
    · rw [ih (by omega) (by omega) (by omega), again]

/-! ### What it takes from well-formed options -/

/- Where a field begins, its bytes can be read. -/
theorem getD_of_field {n k : Nat} (here : field data ptr n = bytes) (inside : k < n) :
    data.getD (ptr + k) 0 = bytes.getD k 0 := byteAt_of_field here inside

theorem field_behind {a b : List UInt8} {n : Nat} (here : field data ptr n = a ++ b)
    (length : n = a.length + b.length) : field data (ptr + a.length) b.length = b := by
  have parts := field_append data ptr a.length b.length
  rw [← length, here] at parts
  have whole : (field data ptr n).length = n := by rw [here, List.length_append, length]
  have fits : ptr + a.length ≤ data.length ∨ a.length = 0 := by
    rw [field, List.length_take, List.length_drop] at whole
    omega
  have first : (field data ptr a.length).length = a.length := by
    rw [field, List.length_take, List.length_drop]
    omega
  exact (List.append_inj parts first.symm).2.symm

theorem TcpOption.bytes_some (o : TcpOption) : 0 < o.bytes.length := by
  cases o <;> exact Nat.succ_pos _

theorem optsSee_first {o : TcpOption} {rest : List UInt8}
    (here : field data ptr (o.bytes ++ rest).length = o.bytes ++ rest) :
    optsSee data ptr seen = o.announce seen := by
  have read : ∀ k, k < (o.bytes ++ rest).length → data.getD (ptr + k) 0 = (o.bytes ++ rest).getD k 0 :=
    fun k inside => getD_of_field here inside
  have kind : data.getD ptr 0 = (o.bytes ++ rest).getD 0 0 := by
    have some := o.bytes_some
    exact read 0 (by rw [List.length_append]; omega)
  unfold optsSee
  rw [kind]
  cases o with
  | mss value =>
    have size : 4 ≤ ((TcpOption.mss value).bytes ++ rest).length := Nat.le_add_left _ _
    rw [read 2 (by omega), read 3 (by omega)]
    have high : ((TcpOption.mss value).bytes ++ rest).getD 2 0 = (value >>> 8).toUInt8 := rfl
    have low : ((TcpOption.mss value).bytes ++ rest).getD 3 0 = value.toUInt8 := rfl
    rw [high, low, word_joined]
    exact if_pos rfl
  | unknown k rest' other short =>
    simp only [List.mem_cons, List.not_mem_nil, or_false, not_or] at other
    have mss : k ≠ TCP_OPT_MSS := other.2.2.1
    have sack : k ≠ TCP_OPT_SACK_OK := other.2.2.2.2.1
    have ts : k ≠ TCP_OPT_TS := other.2.2.2.2.2
    exact (if_neg mss).trans ((if_neg sack).trans (if_neg ts))
  | _ => rfl

theorem kind_first {o : TcpOption} {rest : List UInt8}
    (here : field data ptr (o.bytes ++ rest).length = o.bytes ++ rest) :
    data.getD ptr 0 = o.bytes.getD 0 0 := by
  have some := o.bytes_some
  have first : data.getD (ptr + 0) 0 = (o.bytes ++ rest).getD 0 0 :=
    getD_of_field here (by rw [List.length_append]; omega)
  rw [Nat.add_zero, List.getD_append _ _ _ _ some] at first
  exact first

/- An option that stops the loop. -/
theorem TcpOption.kind_other {o : TcpOption} (stops : o.passed = false) :
    o.bytes.getD 0 0 ≠ TCP_OPT_MSS ∧ o.bytes.getD 0 0 ≠ TCP_OPT_NOOP := by
  cases o with
  | noop => cases stops
  | mss value => cases stops
  | unknown k rest other short =>
    simp only [List.mem_cons, List.not_mem_nil, or_false, not_or] at other
    exact ⟨other.2.2.1, other.2.1⟩
  | windowScale shift => exact (by decide : (3 : UInt8) ≠ TCP_OPT_MSS ∧ (3 : UInt8) ≠ TCP_OPT_NOOP)
  | sackPermitted => exact (by decide : TCP_OPT_SACK_OK ≠ TCP_OPT_MSS ∧ TCP_OPT_SACK_OK ≠ TCP_OPT_NOOP)
  | timestamps values => exact (by decide : TCP_OPT_TS ≠ TCP_OPT_MSS ∧ TCP_OPT_TS ≠ TCP_OPT_NOOP)

/- The options that the loop gets to, and those behind. -/
def ahead (opts : List TcpOption) : List TcpOption :=
  opts.takeWhile TcpOption.passed ++ (opts.dropWhile TcpOption.passed).take 1

def behind (opts : List TcpOption) : List TcpOption := (opts.dropWhile TcpOption.passed).drop 1

theorem ahead_passed {o : TcpOption} (passes : o.passed = true) (rest : List TcpOption) :
    ahead (o :: rest) = o :: ahead rest := by
  rw [ahead, List.takeWhile_cons_of_pos passes, List.dropWhile_cons_of_pos passes]
  rfl

theorem ahead_stopped {o : TcpOption} (stops : o.passed = false) (rest : List TcpOption) :
    ahead (o :: rest) = [o] := by
  rw [ahead, List.takeWhile_cons_of_neg (by simp [stops]), List.dropWhile_cons_of_neg (by simp [stops])]
  rfl

theorem ahead_behind (opts : List TcpOption) : ahead opts ++ behind opts = opts := by
  rw [ahead, behind, List.append_assoc, List.take_append_drop, List.takeWhile_append_dropWhile]

/-- The loop takes what the options ahead announce. -/
theorem parseOptsLoop_options (opts : List TcpOption) {pad : List UInt8}
    (here : field data ptr (opts.flatMap TcpOption.bytes ++ pad).length =
      opts.flatMap TcpOption.bytes ++ pad)
    (length : optlen.toNat = (opts.flatMap TcpOption.bytes ++ pad).length)
    (padded : pad = [] ∨ pad.getD 0 1 = 0) (short : optlen.toNat < 20) (enough : optlen.toNat ≤ fuel) :
    parseOptsLoop data fuel ptr optlen seen = announced seen (ahead opts) := by
  induction opts generalizing ptr optlen seen fuel with
  | nil =>
    rw [List.flatMap_nil, List.nil_append] at here length
    cases pad with
    | nil => exact parseOptsLoop_over (.inl length)
    | cons b rest =>
      obtain rfl : b = 0 := padded.resolve_left (List.cons_ne_nil _ _)
      have kind : data.getD (ptr + 0) 0 = 0 := getD_of_field here (Nat.succ_pos _)
      rw [Nat.add_zero] at kind
      have some : 0 < optlen.toNat := length ▸ Nat.succ_pos _
      rw [parseOptsLoop_stuck (by rw [kind]; decide) (by rw [kind]; decide) short enough some]
      unfold optsSee
      rw [kind]
      rfl
  | cons o rest ih =>
    rw [List.flatMap_cons, List.append_assoc] at here length
    have kind := kind_first here
    have sees : optsSee data ptr seen = o.announce seen := optsSee_first here
    have some := o.bytes_some
    rw [List.length_append] at length
    cases passes : o.passed with
    | false =>
      obtain ⟨mss, noop⟩ := TcpOption.kind_other passes
      rw [← kind] at mss noop
      rw [parseOptsLoop_stuck mss noop short enough (by omega), sees, ahead_stopped passes]
      rfl
    | true =>
      have later : field data (ptr + o.bytes.length) (rest.flatMap TcpOption.bytes ++ pad).length =
          rest.flatMap TcpOption.bytes ++ pad := field_behind here (by rw [List.length_append])
      obtain ⟨fuel, rfl⟩ : ∃ n, fuel = n + 1 := ⟨fuel - 1, by omega⟩
      have moves : optsTurn data ptr optlen =
          .some (ptr + o.bytes.length, optlen - UInt8.ofNat o.bytes.length) := by
        rw [optsTurn_go (by omega) short, kind]
        cases o with
        | noop => rfl
        | mss value => rfl
        | windowScale shift => cases passes
        | sackPermitted => cases passes
        | timestamps values => cases passes
        | unknown k rest other short => cases passes
      have less : (optlen - UInt8.ofNat o.bytes.length).toNat = optlen.toNat - o.bytes.length := by
        have small : (UInt8.ofNat o.bytes.length).toNat = o.bytes.length := by
          rw [UInt8.toNat_ofNat']
          exact Nat.mod_eq_of_lt (by omega)
        rw [toNat_less (by rw [small]; omega), small]
      rw [parseOptsLoop_turn, moves]
      dsimp only
      rw [sees, ih later (by omega) (by omega) (by omega), ahead_passed passes]
      rfl

theorem optsLength_eq (area : AreaOf th bytes) : (optsLength th).toNat = bytes.length := by
  have words := area.words
  have most := th.hl.isLt
  have whole : (UInt8.ofNat (tcpHlen th)).toNat = th.hl.val * 4 := by
    rw [UInt8.toNat_ofNat', tcpHlen]
    omega
  have fixed : (20 : UInt8).toNat = 20 := rfl
  unfold optsLength
  rw [toNat_less (by omega), area.length, whole, fixed, tcpHlen]

/-- The options that the parser reads in an area of this length, and the rest. -/
def readOptions (opts : List TcpOption) (length : Nat) : List TcpOption :=
  if length < 20 then ahead opts else []

def unreadOptions (opts : List TcpOption) (length : Nat) : List TcpOption :=
  if length < 20 then behind opts else opts

theorem read_unread (opts : List TcpOption) (length : Nat) :
    readOptions opts length ++ unreadOptions opts length = opts := by
  unfold readOptions unreadOptions
  split
  · exact ahead_behind opts
  · rfl

theorem optsSeen_eq (tsk : TcpSock) {area : OptionArea} (holds : AreaOf th area.bytes) :
    optsSeen tsk th =
      announced { smss := tsk.smss } (readOptions area.opts area.bytes.length) := by
  have length := optsLength_eq holds
  unfold optsSeen readOptions
  split
  · rename_i short
    refine parseOptsLoop_options area.opts holds.starts length ?_ (length ▸ short) (Nat.le_refl _)
    cases area.padding with
    | none => exact .inl rfl
    | some pad => exact .inr rfl
  · rename_i long
    exact parseOptsLoop_over (.inr (by omega))

/-! ### What it should take -/

def TcpOption.isTimestamps : TcpOption → Bool
  | timestamps _ => true
  | _ => false

theorem announced_sack (opts : List TcpOption) :
    (announced seen opts).sack = true ↔ seen.sack = true ∨ .sackPermitted ∈ opts := by
  induction opts generalizing seen with
  | nil => simp [announced]
  | cons o rest ih =>
    rw [show announced seen (o :: rest) = announced (o.announce seen) rest from rfl, ih, List.mem_cons]
    cases o with
    | mss value =>
      have same : ((TcpOption.mss value).announce seen).sack = seen.sack := by
        unfold TcpOption.announce
        dsimp only
        split <;> rfl
      simp [same]
    | sackPermitted =>
      unfold TcpOption.announce
      simp only [true_or, or_true]
    | _ =>
      unfold TcpOption.announce
      simp only [reduceCtorEq, false_or]

theorem announced_tsopt (opts : List TcpOption) :
    (announced seen opts).tsopt = true ↔ seen.tsopt = true ∨ ∃ o ∈ opts, o.isTimestamps = true := by
  induction opts generalizing seen with
  | nil => simp [announced]
  | cons o rest ih =>
    rw [show announced seen (o :: rest) = announced (o.announce seen) rest from rfl, ih]
    cases o with
    | mss value =>
      have same : ((TcpOption.mss value).announce seen).tsopt = seen.tsopt := by
        unfold TcpOption.announce
        dsimp only
        split <;> rfl
      simp [same, TcpOption.isTimestamps]
    | _ =>
      unfold TcpOption.announce
      simp only [TcpOption.isTimestamps, List.mem_cons, exists_eq_or_imp, true_or, or_true,
        Bool.false_eq_true, false_or]

/-- The peer's options have been understood: `seen` at the end of the loop, and the socket afterwards. -/
structure Understood (tsk : TcpSock) (opts : List TcpOption) (seen : OptsSeen) (tsk' : TcpSock) : Prop where
  smss : tsk'.smss = (announced { smss := tsk.smss } opts).smss
  sack : seen.sack = true ↔ .sackPermitted ∈ opts
  timestamps : seen.tsopt = true ↔ ∃ o ∈ opts, o.isTimestamps = true
  permitted : tsk'.sackok = true ∧ 0 < tsk'.sacksAllowed ↔ tsk.sackok = true ∧ .sackPermitted ∈ opts

/-- What stays unread tells nothing that the options before it have not told. -/
structure NothingMissed (tsk : TcpSock) (read unread : List TcpOption) : Prop where
  smss : (announced (announced { smss := tsk.smss } read) unread).smss =
    (announced { smss := tsk.smss } read).smss
  sack : TcpOption.sackPermitted ∈ unread → TcpOption.sackPermitted ∈ read
  timestamps : (∃ o ∈ unread, o.isTimestamps = true) → ∃ o ∈ read, o.isTimestamps = true

theorem tcpParseOpts_eq (tsk : TcpSock) (th : TcpHdr) : (tcpParseOpts tsk th).smss = (optsSeen tsk th).smss ∧
    ((tcpParseOpts tsk th).sackok = true ↔ tsk.sackok = true ∧ (optsSeen tsk th).sack = true) ∧
    ((tcpParseOpts tsk th).sackok = true → 0 < (tcpParseOpts tsk th).sacksAllowed) := by
  unfold tcpParseOpts
  dsimp only
  rw [show parseOptsLoop th.data (UInt8.ofNat (tcpHlen th) - 20).toNat 0 (UInt8.ofNat (tcpHlen th) - 20)
    { smss := tsk.smss } = optsSeen tsk th from rfl]
  split
  · rename_i both
    rw [Bool.and_eq_true] at both
    have positive : ∀ b : Bool, 0 < if b = true then 3 else 4 := by decide
    exact ⟨rfl, by simp [both.1, both.2], fun _ => positive _⟩
  · rename_i missing
    rw [Bool.and_eq_true] at missing
    refine ⟨rfl, iff_of_false (by simp) (fun both => missing both.symm), fun permitted => by cases permitted⟩

theorem tcpParseOpts_understood (tsk : TcpSock) {area : OptionArea} (holds : AreaOf th area.bytes) :
    Understood tsk area.opts (optsSeen tsk th) (tcpParseOpts tsk th) ↔
      NothingMissed tsk (readOptions area.opts area.bytes.length)
        (unreadOptions area.opts area.bytes.length) := by
  obtain ⟨smss, sackok, allowed⟩ := tcpParseOpts_eq tsk th
  have seen := optsSeen_eq tsk holds
  have parts := read_unread area.opts area.bytes.length
  generalize readOptions area.opts area.bytes.length = read at *
  generalize unreadOptions area.opts area.bytes.length = unread at *
  have whole : announced { smss := tsk.smss } area.opts =
      announced (announced { smss := tsk.smss } read) unread := by
    rw [← parts, announced, List.foldl_append]
    rfl
  have sack : (optsSeen tsk th).sack = true ↔ .sackPermitted ∈ read := by
    rw [seen, announced_sack]
    simp
  have tsopt : (optsSeen tsk th).tsopt = true ↔ ∃ o ∈ read, o.isTimestamps = true := by
    rw [seen, announced_tsopt]
    simp
  constructor
  · intro right
    refine ⟨?_, fun member => ?_, fun ⟨o, member, is⟩ => ?_⟩
    · rw [← whole, ← right.smss, smss, seen]
    · exact sack.mp (right.sack.mpr (parts ▸ List.mem_append_right _ member))
    · exact tsopt.mp (right.timestamps.mpr ⟨o, parts ▸ List.mem_append_right _ member, is⟩)
  · intro nothing
    have sack' : (optsSeen tsk th).sack = true ↔ .sackPermitted ∈ area.opts := by
      rw [sack, ← parts, List.mem_append]
      exact ⟨.inl, fun member => member.elim id nothing.sack⟩
    refine ⟨?_, sack', ?_, ?_⟩
    · rw [smss, seen, whole, nothing.smss]
    · rw [tsopt, ← parts]
      constructor
      · exact fun ⟨o, member, is⟩ => ⟨o, List.mem_append_left _ member, is⟩
      · rintro ⟨o, member, is⟩
        rcases List.mem_append.mp member with old | new
        · exact ⟨o, old, is⟩
        · exact nothing.timestamps ⟨o, new, is⟩
    · rw [← sack', ← sackok]
      exact ⟨And.left, fun permitted => ⟨permitted, allowed permitted⟩⟩

/-! ### What it reads -/

/-- Behind NOPs and whole MSS options an MSS option begins that the area cuts off. -/
def mssCut : List UInt8 → Bool
  | [] => false
  | [a] => a = TCP_OPT_MSS
  | [a, b] => a = TCP_OPT_MSS || a = TCP_OPT_NOOP && mssCut [b]
  | [a, b, c] => a = TCP_OPT_MSS || a = TCP_OPT_NOOP && mssCut [b, c]
  | a :: b :: c :: d :: rest =>
    if a = TCP_OPT_MSS then mssCut rest else a = TCP_OPT_NOOP && mssCut (b :: c :: d :: rest)

theorem mssCut_mss {rest : List UInt8} : mssCut (TCP_OPT_MSS :: rest) = true ↔
    rest.length < 3 ∨ mssCut (rest.drop 3) = true := by
  match rest with
  | [] => simp [mssCut]
  | [b] => simp [mssCut]
  | [b, c] => simp [mssCut]
  | b :: c :: d :: rest => simp [mssCut]

theorem mssCut_noop {rest : List UInt8} : mssCut (TCP_OPT_NOOP :: rest) = mssCut rest := by
  have kinds : (TCP_OPT_NOOP == TCP_OPT_MSS) = false := by decide
  match rest with
  | [] => rfl
  | [b] => rfl
  | [b, c] => rfl
  | b :: c :: d :: rest => rfl

theorem mssCut_other {a : UInt8} {rest : List UInt8} (mss : a ≠ TCP_OPT_MSS) (noop : a ≠ TCP_OPT_NOOP) :
    mssCut (a :: rest) = false := by
  match rest with
  | [] => simp [mssCut, mss]
  | [b] => simp [mssCut, mss, noop]
  | [b, c] => simp [mssCut, mss, noop]
  | b :: c :: d :: rest => simp [mssCut, mss, noop]

/- Standing still, the loop reads one byte. -/
theorem optsRun_stuck (mss : data.getD ptr 0 ≠ TCP_OPT_MSS) (noop : data.getD ptr 0 ≠ TCP_OPT_NOOP)
    (short : optlen.toNat < 20) : ∃ reads, OptsRun data ptr optlen reads ∧ ∀ i ∈ reads, i = ptr := by
  generalize count : optlen.toNat = n at short
  induction n generalizing optlen with
  | zero => exact ⟨[], .stop (optsTurn_over (.inl count)), by simp⟩
  | succ n ih =>
    have one : (1 : UInt8).toNat = 1 := rfl
    have less : (optlen - 1).toNat = n := by
      rw [toNat_less (by omega), count, one]
      omega
    obtain ⟨reads, run, here⟩ := ih less (by omega)
    refine ⟨optsReads data ptr ++ reads, .turn ?_ run, fun i member => ?_⟩
    · rw [optsTurn_go (by omega) (by omega), if_neg mss, if_neg noop]
    · rcases List.mem_append.mp member with now | later
      · rw [optsReads, if_neg mss] at now
        exact List.mem_singleton.mp now
      · exact here i later

/-- From a position with `bytes` left, the loop comes to its end, and stays inside exactly when no MSS
    option is cut off. -/
theorem optsRun_inside (here : field data ptr bytes.length = bytes) (length : optlen.toNat = bytes.length)
    (short : optlen.toNat < 20) : ∃ reads, OptsRun data ptr optlen reads ∧
      ((∀ i ∈ reads, i < ptr + bytes.length) ↔ mssCut bytes = false) := by
  induction count : bytes.length using Nat.strong_induction_on generalizing bytes ptr optlen with
  | _ n ih =>
    subst count
    cases bytes with
    | nil => exact ⟨[], .stop (optsTurn_over (.inl length)), by simp [mssCut]⟩
    | cons a rest =>
      have kind : data.getD (ptr + 0) 0 = a := getD_of_field here (Nat.succ_pos _)
      rw [Nat.add_zero] at kind
      rw [List.length_cons] at length ih ⊢
      have go := @optsTurn_go data ptr optlen (by omega) short
      have four : (4 : UInt8).toNat = 4 := rfl
      have one : (1 : UInt8).toNat = 1 := rfl
      rw [kind] at go
      by_cases mss : a = TCP_OPT_MSS
      · subst mss
        have reads : optsReads data ptr = [ptr, ptr + 2, ptr + 3] := if_pos kind
        rw [if_pos rfl] at go
        by_cases cut : rest.length < 3
        · have wraps : 20 ≤ (optlen - 4).toNat := by
            rw [UInt8.toNat_sub, four]
            omega
          refine ⟨_, .turn go (.stop (optsTurn_over (.inr wraps))), iff_of_false ?_ ?_⟩
          · intro inside
            have last := inside (ptr + 3) (by rw [reads]; simp)
            omega
          · rw [mssCut_mss.mpr (.inl cut)]
            simp
        · have left : (optlen - 4).toNat = (rest.drop 3).length := by
            rw [toNat_less (by omega), four, length, List.length_drop]
            omega
          have parts : TCP_OPT_MSS :: rest = (TCP_OPT_MSS :: rest.take 3) ++ rest.drop 3 := by
            rw [List.cons_append, List.take_append_drop]
          have size : (TCP_OPT_MSS :: rest.take 3).length = 4 := by
            rw [List.length_cons, List.length_take]
            omega
          have later := field_behind (here.trans parts) (by
            rw [size, List.length_cons, List.length_drop]
            omega)
          rw [size] at later
          have fewer : (rest.drop 3).length = rest.length - 3 := List.length_drop
          obtain ⟨reads', run, inside⟩ := ih (rest.drop 3).length (by omega) later left (by omega) rfl
          refine ⟨_, .turn go run, ?_⟩
          have cuts : mssCut (TCP_OPT_MSS :: rest) = mssCut (rest.drop 3) := by
            rw [Bool.eq_iff_iff, mssCut_mss]
            exact ⟨fun either => either.resolve_left cut, .inr⟩
          rw [cuts, ← inside, reads, show ptr + 4 + (rest.drop 3).length = ptr + (rest.length + 1) by omega]
          constructor
          · exact fun all i member => all i (List.mem_append_right _ member)
          · intro all i member
            rcases List.mem_append.mp member with now | later
            · simp only [List.mem_cons, List.not_mem_nil, or_false] at now
              omega
            · exact all i later
      · have reads : optsReads data ptr = [ptr] := if_neg (kind ▸ mss)
        rw [if_neg mss] at go
        by_cases noop : a = TCP_OPT_NOOP
        · subst noop
          rw [if_pos rfl] at go
          have left : (optlen - 1).toNat = rest.length := by
            rw [toNat_less (by omega), one]
            omega
          have later : field data (ptr + 1) rest.length = rest :=
            field_behind (a := [TCP_OPT_NOOP]) here (Nat.add_comm _ _)
          obtain ⟨reads', run, inside⟩ := ih rest.length (by omega) later left (by omega) rfl
          refine ⟨_, .turn go run, ?_⟩
          rw [mssCut_noop, ← inside, reads, Nat.add_assoc, Nat.add_comm 1]
          constructor
          · exact fun all i member => all i (List.mem_append_right _ member)
          · intro all i member
            rcases List.mem_append.mp member with now | later
            · obtain rfl := List.mem_singleton.mp now
              omega
            · exact all i later
        · obtain ⟨reads', run, still⟩ := optsRun_stuck (kind ▸ mss) (kind ▸ noop) short
          refine ⟨reads', run, iff_of_true (fun i member => ?_) (mssCut_other mss noop)⟩
          rw [still i member]
          omega

/-- `tcp_parse_opts` understands a well-formed area exactly when the options that it does not get to tell
    nothing that the others have not told: these are all of them in an area of 20 bytes or more, and
    otherwise those behind the first that is neither a NOP nor an MSS. On any area its loop comes to an
    end, and it reads nothing but the area exactly when the area has 20 bytes or more or cuts off no MSS
    option behind NOPs and MSS options. -/
theorem tcp_parse_opts_exact (tsk : TcpSock) (th : TcpHdr) :
    (∀ area : OptionArea, AreaOf th area.bytes →
      (Understood tsk area.opts (optsSeen tsk th) (tcpParseOpts tsk th) ↔
        NothingMissed tsk (readOptions area.opts area.bytes.length)
          (unreadOptions area.opts area.bytes.length))) ∧
    ∀ bytes, AreaOf th bytes → ∃ reads, OptsRun th.data 0 (optsLength th) reads ∧
      ((∀ i ∈ reads, i < bytes.length) ↔ ¬(bytes.length < 20 ∧ mssCut bytes = true)) := by
  refine ⟨fun area holds => tcpParseOpts_understood tsk holds, fun bytes holds => ?_⟩
  have length := optsLength_eq holds
  by_cases short : bytes.length < 20
  · obtain ⟨reads, run, inside⟩ := optsRun_inside holds.starts length (by omega)
    rw [Nat.zero_add] at inside
    refine ⟨reads, run, inside.trans ?_⟩
    simp [short]
  · exact ⟨[], .stop (optsTurn_over (.inr (by omega))), by simp [short]⟩

/- The options that the stack itself sends with a SYN. -/
theorem tcp_parse_opts_exact_syn : ∃ (area : OptionArea) (th : TcpHdr), AreaOf th area.bytes ∧
    area.opts = [.mss 1460, .noop, .noop, .sackPermitted] ∧
    Understood {} area.opts (optsSeen {} th) (tcpParseOpts {} th) ∧
    ∃ reads, OptsRun th.data 0 (optsLength th) reads ∧ ∀ i ∈ reads, i < area.bytes.length := by
  have holds : AreaOf { hl := 7, data := [2, 4, 5, 180, 1, 1, 4, 2] }
      (OptionArea.mk [.mss 1460, .noop, .noop, .sackPermitted] none).bytes := by decide
  obtain ⟨understands, runs⟩ := tcp_parse_opts_exact {} { hl := 7, data := [2, 4, 5, 180, 1, 1, 4, 2] }
  obtain ⟨reads, run, inside⟩ := runs _ holds
  exact ⟨_, _, holds, rfl, (understands _ holds).mpr ⟨by decide, by decide, by decide⟩, reads, run,
    inside.mpr (by decide)⟩

/- The options of a SYN with timestamps and a window scale, 20 bytes in all; and an MSS option that the
   area cuts off after its first byte. -/
theorem tcp_parse_opts_misses : (∃ (area : OptionArea) (th : TcpHdr), AreaOf th area.bytes ∧
      area.opts = [.mss 1460, .sackPermitted, .timestamps #v[0, 0, 0, 1, 0, 0, 0, 0], .noop,
        .windowScale 7] ∧ ¬Understood {} area.opts (optsSeen {} th) (tcpParseOpts {} th)) ∧
    ∃ th bytes reads, AreaOf th bytes ∧ OptsRun th.data 0 (optsLength th) reads ∧
      ∃ i ∈ reads, bytes.length ≤ i := by
  constructor
  · refine ⟨⟨_, none⟩, { hl := 10, data :=
      [2, 4, 5, 180, 4, 2, 8, 10, 0, 0, 0, 1, 0, 0, 0, 0, 1, 3, 3, 7] }, by decide, rfl, fun right => ?_⟩
    have seen := right.sack.mpr (by decide)
    revert seen
    decide
  · have first : optsTurn [1, 1, 1, 2] 0 4 = some (1, 3) := by decide
    have second : optsTurn [1, 1, 1, 2] 1 3 = some (2, 2) := by decide
    have third : optsTurn [1, 1, 1, 2] 2 2 = some (3, 1) := by decide
    have cut : optsTurn [1, 1, 1, 2] 3 1 = some (7, 253) := by decide
    have ended : optsTurn [1, 1, 1, 2] 7 253 = none := by decide
    exact ⟨{ hl := 6, data := [1, 1, 1, 2] }, [1, 1, 1, 2], _, by decide,
      .turn first (.turn second (.turn third (.turn cut (.stop ended)))), 5, by decide, by decide⟩

end HfIp
