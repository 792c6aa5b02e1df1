import HfIp.SkBytes

/- The laws of `checksum` (src/utils.c) for `start_sum` 0: the reference sum, a range that bears its own
   checksum, and a word of it that is changed. -/
namespace HfIp

open Buffer OnesComplement

theorem shift_word (x : UInt32) : x >>> 16 = 0 ↔ x.toNat < 65536 := by
  have high : (x >>> 16).toNat = x.toNat / 65536 := by
    rw [UInt32.toNat_shiftRight]
    exact Nat.shiftRight_eq_div_pow _ 16
  rw [← UInt32.toNat_inj, high, UInt32.toNat_zero]
  omega

/-- Two turns are enough for the loop to end, whatever the sum. -/
theorem foldLoop_ends (sum : UInt32) :
    foldLoop 2 sum >>> 16 = 0 ∧ ∀ fuel, 2 ≤ fuel → foldLoop fuel sum = foldLoop 2 sum := by
  have done := (foldLoop_spec sum).1
  refine ⟨(shift_word _).mpr done, fun fuel enough => ?_⟩
  obtain ⟨more, rfl⟩ := Nat.exists_eq_add_of_le enough
  have stays (fuel : Nat) (x : UInt32) (small : x >>> 16 = 0) : foldLoop fuel x = x := by
    cases fuel with
    | zero => rfl
    | succ fuel => rw [foldLoop, if_neg (fun more => more small)]
  have later (n : Nat) : ∀ x, foldLoop n x >>> 16 = 0 → foldLoop (n + more) x = foldLoop n x := by
    induction n with
    | zero =>
      intro x small
      exact stays _ x small
    | succ n ih =>
      intro x small
      rw [Nat.succ_add]
      unfold foldLoop at small ⊢
      split
      · rename_i large
        rw [if_pos large] at small
        exact ih _ small
      · rfl
  exact later 2 sum ((shift_word _).mpr done)

section

variable {data : List UInt8}

theorem words_fit (short : data.length ≤ 65535) : (littleWords data).sum < 2 ^ 32 := by
  have := littleWords_sum_le data
  omega

/-- The complement of the one's-complement sum of the words as the host reads them. -/
theorem checksum_total (short : data.length ≤ 65535) :
    (checksum data 0).toNat + total 65535 (littleWords data) = 65535 := by
  have fits := words_fit short
  have plain : ((0 : UInt32) + sumEvery16bits data).toNat = (littleWords data).sum := by
    rw [UInt32.zero_add, sumEvery16bits_toNat, Nat.mod_eq_of_lt fits]
  obtain ⟨small, mod, positive⟩ := foldLoop_spec ((0 : UInt32) + sumEvery16bits data)
  rw [plain] at mod positive
  have sum : total 65535 (littleWords data) = (foldLoop 2 ((0 : UInt32) + sumEvery16bits data)).toNat := by
    refine total_unique (littleWords_le data) (by omega) mod ⟨fun none => ?_, fun none => ?_⟩
    · omega
    · have zero : (0 : UInt32) + sumEvery16bits data = 0 := UInt32.toNat_inj.mp (plain.trans none)
      rw [zero]
      rfl
  rw [sum]
  unfold checksum
  rw [UInt16.toNat_not, UInt32.toNat_toUInt16, Nat.mod_eq_of_lt small]
  simp only [UInt16.size]
  omega

/-- As it is stored, it is the complement of the sum of the words in the byte order of the network. -/
theorem checksum_stored (short : data.length ≤ 65535) :
    le16 (checksum data 0) = be16 (UInt16.ofNat (65535 - total 65535 (bigWords data))) := by
  have complement := checksum_total short
  have residue : total 65535 (littleWords data) % 65535 = (littleWords data).sum % 65535 := by
    have := (foldl_endAround (littleWords_le data) (Nat.zero_le 65535)).2.1
    rwa [Nat.zero_add] at this
  have none := total_eq_zero (littleWords_le data)
  have swapped : total 65535 (bigWords data) =
      256 * (total 65535 (littleWords data) % 256) + total 65535 (littleWords data) / 256 := by
    refine total_unique (bigWords_le data) (by omega) ?_ ?_
    · rw [bigWords_sum_mod]
      omega
    · rw [bigWords_sum_zero, ← none]
      omega
  clear residue none
  generalize total 65535 (littleWords data) = t at *
  generalize total 65535 (bigWords data) = b at *
  generalize checksum data 0 = c at *
  obtain ⟨high, low, rfl, small⟩ : ∃ high low, t = 256 * high + low ∧ low < 256 :=
    ⟨t / 256, t % 256, (Nat.div_add_mod t 256).symm, Nat.mod_lt _ (by decide)⟩
  rw [show (256 * high + low) % 256 = low by omega, show (256 * high + low) / 256 = high by omega]
    at swapped
  have value : (UInt16.ofNat (65535 - b)).toNat = 256 * (255 - low) + (255 - high) := by
    rw [UInt16.toNat_ofNat', Nat.mod_eq_of_lt (by omega)]
    omega
  have stored : c.toNat = 256 * (255 - high) + (255 - low) := by omega
  have upper : (c >>> 8).toNat = 255 - high := by
    rw [UInt16.toNat_shiftRight, stored]
    exact (Nat.shiftRight_eq_div_pow _ 8).trans (by omega)
  have value_upper : (UInt16.ofNat (65535 - b) >>> 8).toNat = 255 - low := by
    rw [UInt16.toNat_shiftRight, value]
    exact (Nat.shiftRight_eq_div_pow _ 8).trans (by omega)
  rw [le16, be16]
  congr 1
  · apply UInt8.toNat_inj.mp
    rw [UInt16.toNat_toUInt8, UInt16.toNat_toUInt8, value_upper, stored]
    omega
  · congr 1
    apply UInt8.toNat_inj.mp
    rw [UInt16.toNat_toUInt8, UInt16.toNat_toUInt8, value, upper]
    omega

theorem checksum_eq_zero (short : data.length ≤ 65535) :
    checksum data 0 = 0 ↔ 0 < (littleWords data).sum ∧ (littleWords data).sum % 65535 = 0 := by
  have complement := checksum_total short
  rw [← UInt16.toNat_inj, UInt16.toNat_zero]
  by_cases positive : 0 < (littleWords data).sum
  · rw [← total_eq_largest (littleWords_le data) positive]
    omega
  · have none : total 65535 (littleWords data) = 0 :=
      (total_eq_zero (littleWords_le data)).mpr (by omega)
    omega

/- The words of a buffer with `x` written over one of them. -/
theorem putWord_words {i : Nat} (even : i % 2 = 0) (fits : i + 2 ≤ data.length) (x : UInt16) :
    (littleWords (putWord data i x)).sum + (hostWordAt data i).toNat =
      (littleWords data).sum + x.toNat := by
  have front : (data.take i).length = i := by
    rw [List.length_take]
    omega
  have split : data.take i ++ le16 (hostWordAt data i) ++ data.drop (i + 2) = data := by
    rw [← field_hostWord fits, field, List.append_assoc, ← List.drop_drop, List.take_append_drop,
      List.take_append_drop]
  have written : putWord data i x = data.take i ++ le16 x ++ data.drop (i + 2) := by
    have := put_middle (data.take i) (b := le16 (hostWordAt data i)) (c := le16 x) (data.drop (i + 2)) rfl
    rwa [split, front] at this
  have sum (y : UInt16) : (littleWords (data.take i ++ le16 y ++ data.drop (i + 2))).sum =
      (littleWords (data.take i)).sum + (y.toNat + (littleWords (data.drop (i + 2))).sum) := by
    rw [List.append_assoc, littleWords_append _ _ (by rw [front, even]), List.sum_append, le16_words]
  have before := sum (hostWordAt data i)
  rw [split] at before
  rw [written, sum x, before]
  omega

/-- A range whose checksum field is zero verifies once its checksum is stored there. -/
theorem checksum_verifies (short : data.length ≤ 65535) {i : Nat} (even : i % 2 = 0)
    (fits : i + 2 ≤ data.length) (zeroed : field data i 2 = [0, 0]) :
    checksum (putWord data i (checksum data 0)) 0 = 0 := by
  have complement := checksum_total short
  have words := putWord_words even fits (checksum data 0)
  have none : hostWordAt data i = 0 := hostWordAt_of_field (x := 0) zeroed
  have residue : total 65535 (littleWords data) % 65535 = (littleWords data).sum % 65535 := by
    have := (foldl_endAround (littleWords_le data) (Nat.zero_le 65535)).2.1
    rwa [Nat.zero_add] at this
  have zero := total_eq_zero (littleWords_le data)
  rw [none, UInt16.toNat_zero, Nat.add_zero] at words
  rw [checksum_eq_zero (by simpa using short), words]
  omega

/-- A word that is replaced by one with another residue does not pass. -/
theorem checksum_detects (short : data.length ≤ 65535) (verified : checksum data 0 = 0) {i : Nat}
    {x : UInt16} (even : i % 2 = 0) (fits : i + 2 ≤ data.length)
    (other : x.toNat % 65535 ≠ (hostWordAt data i).toNat % 65535) :
    checksum (putWord data i x) 0 ≠ 0 := by
  have words := putWord_words even fits x
  rw [checksum_eq_zero short] at verified
  rw [Ne, checksum_eq_zero (by simpa using short)]
  omega

end

/-- The loop ends, the value is the complement of the reference sum (over the words as the host reads
    them, and, stored, over those in the byte order of the network), a range with its checksum in place
    verifies, and a changed word is noticed. -/
theorem internet_checksum :
    (∀ sum : UInt32, foldLoop 2 sum >>> 16 = 0 ∧
      ∀ fuel, 2 ≤ fuel → foldLoop fuel sum = foldLoop 2 sum) ∧
    ∀ data : List UInt8, data.length ≤ 65535 →
      (checksum data 0).toNat + total 65535 (littleWords data) = 65535 ∧
      le16 (checksum data 0) = be16 (UInt16.ofNat (65535 - total 65535 (bigWords data))) ∧
      (∀ i, i % 2 = 0 → i + 2 ≤ data.length → field data i 2 = [0, 0] →
        checksum (putWord data i (checksum data 0)) 0 = 0) ∧
      (checksum data 0 = 0 → ∀ (i : Nat) (x : UInt16), i % 2 = 0 → i + 2 ≤ data.length →
        x.toNat % 65535 ≠ (hostWordAt data i).toNat % 65535 → checksum (putWord data i x) 0 ≠ 0) :=
  ⟨foldLoop_ends, fun _ short => ⟨checksum_total short, checksum_stored short,
    fun _ even fits zeroed => checksum_verifies short even fits zeroed,
    fun verified _ _ even fits other => checksum_detects short verified even fits other⟩⟩

/- An echo request with one byte of data. -/
theorem internet_checksum_echo :
    checksum (putWord [8, 0, 0, 0, 0, 1, 0, 2, 65] 2 (checksum [8, 0, 0, 0, 0, 1, 0, 2, 65] 0)) 0 = 0 ∧
      checksum (putWord [8, 0, 0xb6, 0xfc, 0, 1, 0, 2, 65] 6 3) 0 ≠ 0 :=
  ⟨(internet_checksum.2 [8, 0, 0, 0, 0, 1, 0, 2, 65] (by decide)).2.2.1 2 rfl (by decide) rfl,
    (internet_checksum.2 [8, 0, 0xb6, 0xfc, 0, 1, 0, 2, 65] (by decide)).2.2.2 (by decide +kernel) 6 3 rfl
      (by decide) (by decide)⟩

end HfIp
