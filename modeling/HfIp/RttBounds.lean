import HfIp.Tcp
import Mathlib.Algebra.Order.Group.Unbundled.Int

/- The bounds of the round-trip estimator: both averages stay below the largest sample, and so does the
   timeout, five times over. -/
namespace HfIp

/-- A socket whose estimate has been fed these samples and nothing else, whatever else has changed. -/
inductive Fed (M : Int) : List Int → TcpSock → Prop where
  | start {tsk : TcpSock} (srtt : tsk.srtt = 0) (rttvar : tsk.rttvar = 0) : Fed M [] tsk
  | sample {tsk : TcpSock} {rs : List Int} {r : Int} (before : Fed M rs tsk) (least : 0 ≤ r) (most : r ≤ M) :
    Fed M (rs ++ [r]) (tcpRttUpdate tsk r)
  | other {tsk tsk' : TcpSock} {rs : List Int} (before : Fed M rs tsk)
    (srtt : tsk'.srtt = tsk.srtt) (rttvar : tsk'.rttvar = tsk.rttvar) : Fed M rs tsk'

variable {tsk : TcpSock} {rs : List Int} {r M : Int}

/- A call of `tcp_rtt` feeds one sample, or none. -/
theorem tcpRtt_fed {s : Conn} (fed : Fed M rs s.tsk) :
    Fed M rs (tcpRtt s).tsk ∨ ∃ r, 0 ≤ r ∧ (tcpRtt s).tsk = tcpRttUpdate s.tsk r := by
  unfold tcpRtt
  split
  · exact .inl fed
  · split
    · exact .inl fed
    · dsimp only
      split
      · exact .inl fed
      · rename_i accepted
        exact .inr ⟨_, Int.not_lt.mp accepted, rfl⟩

/- The integers that an update computes. -/
def rttIntegers (tsk : TcpSock) (r : Int) : List Int :=
  let new := tcpRttUpdate tsk r
  let k := 4 * new.rttvar
  (if tsk.srtt = 0 then [] else [tsk.srtt - r, (tsk.srtt - r).natAbs]) ++
    [new.rttvar, new.srtt, k, new.srtt + max k 200]

/- The doubles that it computes, in eighths. -/
def rttEighths (tsk : TcpSock) (r : Int) : List Int :=
  if tsk.srtt = 0 then []
  else [6 * tsk.rttvar, 2 * (tsk.srtt - r).natAbs, 6 * tsk.rttvar + 2 * (tsk.srtt - r).natAbs,
    7 * tsk.srtt, r, 7 * tsk.srtt + r]

/-- Both averages lie between zero and the largest sample. -/
structure Within (M : Int) (tsk : TcpSock) : Prop where
  srtt : 0 ≤ tsk.srtt ∧ tsk.srtt ≤ M
  rttvar : 0 ≤ tsk.rttvar ∧ tsk.rttvar ≤ M

/- A weighted average of two numbers, rounded down, is between the same bounds. -/
theorem average_within {w x y : Int} (weight : 0 ≤ w) (left : 0 ≤ x ∧ x ≤ M) (right : 0 ≤ y ∧ y ≤ M) :
    0 ≤ (w * x + y).tdiv (w + 1) ∧ (w * x + y).tdiv (w + 1) ≤ M := by
  have low : 0 ≤ w * x + y := Int.add_nonneg (Int.mul_nonneg weight left.1) right.1
  rw [Int.tdiv_eq_ediv_of_nonneg low]
  refine ⟨Int.ediv_nonneg low (by omega), Int.ediv_le_of_le_mul (by omega) ?_⟩
  have most := Int.mul_le_mul_of_nonneg_left left.2 weight
  rw [Int.mul_add, Int.mul_one, Int.mul_comm M]
  omega

theorem distance_within {x y : Int} (left : 0 ≤ x ∧ x ≤ M) (right : 0 ≤ y ∧ y ≤ M) :
    0 ≤ ((x - y).natAbs : Int) ∧ ((x - y).natAbs : Int) ≤ M := by
  omega

theorem tcpRttUpdate_within (inside : Within M tsk) (least : 0 ≤ r) (most : r ≤ M) :
    Within M (tcpRttUpdate tsk r) := by
  obtain ⟨srtt, rttvar⟩ := inside
  have sample : 0 ≤ r ∧ r ≤ M := ⟨least, most⟩
  have mean := average_within (w := 7) (by decide) srtt sample
  have spread := average_within (w := 3) (by decide) rttvar (distance_within srtt sample)
  have half : 0 ≤ r.tdiv 2 ∧ r.tdiv 2 ≤ M := by
    rw [Int.tdiv_eq_ediv_of_nonneg least]
    omega
  constructor
  · unfold tcpRttUpdate
    dsimp only
    split
    · exact sample
    · exact mean
  · unfold tcpRttUpdate
    dsimp only
    split
    · exact half
    · exact spread

theorem Fed.within (fed : Fed M rs tsk) (top : 0 ≤ M) : Within M tsk := by
  induction fed with
  | start srtt rttvar =>
    constructor
    · omega
    · omega
  | sample before least most ih => exact tcpRttUpdate_within ih least most
  | other before srtt rttvar ih =>
    constructor
    · rw [srtt]
      exact ih.srtt
    · rw [rttvar]
      exact ih.rttvar

/- The timeout, of which nothing is cut off. -/
theorem tcpRttUpdate_rto (inside : Within M (tcpRttUpdate tsk r)) (small : M ≤ 2 ^ 28) :
    ((tcpRttUpdate tsk r).rto.toNat : Int) =
      (tcpRttUpdate tsk r).srtt + max 200 (4 * (tcpRttUpdate tsk r).rttvar) := by
  obtain ⟨srtt, rttvar⟩ := inside
  have k : (Int32.ofInt (4 * (tcpRttUpdate tsk r).rttvar)).toInt = 4 * (tcpRttUpdate tsk r).rttvar :=
    Int32.toInt_ofInt_of_le (by omega) (by omega)
  have rto : (tcpRttUpdate tsk r).rto = UInt32.ofInt ((tcpRttUpdate tsk r).srtt +
      max (Int32.ofInt (4 * (tcpRttUpdate tsk r).rttvar)).toInt 200) := rfl
  rw [rto, k]
  unfold UInt32.ofInt
  rw [UInt32.toNat_ofNat']
  omega

theorem Fed.fresh (fed : Fed M [] tsk) : tsk.srtt = 0 := by
  generalize none : ([] : List Int) = rs at fed
  induction fed with
  | start srtt rttvar => exact srtt
  | sample before least most ih => simp at none
  | other before srtt rttvar ih => rw [srtt, ih none]

/- After a sample the estimate is the sample, as long as every other one has been the same. -/
theorem Fed.constant (fed : Fed M rs tsk) (positive : 0 < r) (same : ∀ x ∈ rs, x = r) (some : rs ≠ []) :
    tsk.srtt = r := by
  induction fed with
  | start => exact absurd rfl some
  | @sample tsk rs x before least most ih =>
    obtain rfl := same x (by simp)
    unfold tcpRttUpdate
    dsimp only
    split
    · rfl
    · rename_i measured
      by_cases none : rs = []
      · rw [none] at before
        exact absurd before.fresh measured
      · rw [ih (fun y member => same y (by simp [member])) none]
        rw [Int.tdiv_eq_ediv_of_nonneg (by omega)]
        omega
  | other before srtt rttvar ih =>
    rw [srtt]
    exact ih same some

/- The numbers on the way are in the range of their types. -/
theorem rtt_fits (before : Within M tsk) (after : Within M (tcpRttUpdate tsk r)) (small : M ≤ 2 ^ 28)
    (least : 0 ≤ r) (most : r ≤ M) :
    (∀ x ∈ rttIntegers tsk r, -2 ^ 31 ≤ x ∧ x < 2 ^ 31) ∧ ∀ x ∈ rttEighths tsk r, 0 ≤ x ∧ x < 2 ^ 53 := by
  obtain ⟨srtt, rttvar⟩ := before
  obtain ⟨srtt', rttvar'⟩ := after
  have apart := distance_within srtt ⟨least, most⟩
  constructor
  · intro x member
    unfold rttIntegers at member
    dsimp only at member
    split at member <;> simp only [List.nil_append, List.cons_append, List.mem_cons, List.not_mem_nil,
      or_false] at member <;> omega
  · intro x member
    unfold rttEighths at member
    split at member
    · cases member
    · simp only [List.mem_cons, List.not_mem_nil, or_false] at member
      omega

/-- After each sample both averages are between zero and the largest sample, the timeout is what the
    standard says and at most five times the largest sample and 200, and no number on the way leaves its
    type. While every sample is the same, so is the estimate, and the variation does not grow. -/
theorem rto_bounds (fed : Fed M rs tsk) (small : M ≤ 2 ^ 28) (least : 0 ≤ r) (most : r ≤ M) :
    let new := tcpRttUpdate tsk r
    Within M new ∧ (new.rto.toNat : Int) = new.srtt + max 200 (4 * new.rttvar) ∧
      200 ≤ new.rto.toNat ∧ (new.rto.toNat : Int) ≤ 5 * M + 200 ∧
      (∀ x ∈ rttIntegers tsk r, -2 ^ 31 ≤ x ∧ x < 2 ^ 31) ∧
      (∀ x ∈ rttEighths tsk r, 0 ≤ x ∧ x < 2 ^ 53) ∧
      (0 < r → (∀ x ∈ rs, x = r) → new.srtt = r ∧ (rs ≠ [] → new.rttvar ≤ tsk.rttvar)) := by
  intro new
  have before := fed.within (Int.le_trans least most)
  have inside : Within M new := tcpRttUpdate_within before least most
  have rto : (new.rto.toNat : Int) = new.srtt + max 200 (4 * new.rttvar) := tcpRttUpdate_rto inside small
  obtain ⟨integers, eighths⟩ := rtt_fits before inside small least most
  refine ⟨inside, rto, ?_, ?_, integers, eighths, ?_⟩
  · have srtt := inside.srtt
    omega
  · have srtt := inside.srtt
    have rttvar := inside.rttvar
    omega
  · intro positive same
    have again : Fed M (rs ++ [r]) new := fed.sample least most
    refine ⟨again.constant positive ?_ (by simp), fun some => ?_⟩
    · intro x member
      rcases List.mem_append.mp member with old | new
      · exact same x old
      · exact List.mem_singleton.mp new
    · have estimate := fed.constant positive same some
      have bound := before.rttvar
      show (tcpRttUpdate tsk r).rttvar ≤ tsk.rttvar
      unfold tcpRttUpdate
      dsimp only
      rw [estimate, if_neg (by omega), Int.sub_self, Int.natAbs_zero, Int.tdiv_eq_ediv_of_nonneg (by omega)]
      omega

/- Samples of 100 and 100 again. -/
theorem rto_bounds_twice : (tcpRttUpdate (tcpRttUpdate {} 100) 100).rto.toNat = 300 ∧
    Within 100 (tcpRttUpdate (tcpRttUpdate {} 100) 100) := by
  have first : Fed 100 [100] (tcpRttUpdate {} 100) :=
    (Fed.start rfl rfl).sample (by decide) (Int.le_refl 100)
  exact ⟨by decide, (rto_bounds first (by decide) (by decide) (Int.le_refl 100)).1⟩

end HfIp
