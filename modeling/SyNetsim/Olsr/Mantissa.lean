import SyNetsim.Olsr.Proto
import Mathlib.Tactic.IntervalCases
import Mathlib.Tactic.Ring

/-!
# Mantissa and exponent

`olsr_mantissa.c`: a time is sent in one byte, `(16 + a) * 2 ^ b / 256` seconds for the mantissa `a`
in the four highest bits and the exponent `b` in the four lowest.

The model of `reltime_to_me` that the handlers use computes with natural numbers. The source
computes with 32 bits, and here it is shown that it gives the same byte (`reltimeToMe32_eq`). What
is read from the byte is never more than the time, and less by a sixteenth at most, unless the time
is so short or so long that there is no byte for it (`meToReltime_reltimeToMe`).
-/

/-! ### The computation with 32 bits -/

/-- The loop of `reltime_to_me`, for at most `fuel` tests: the first `b` for which
`unscaled_interval < (1U << b)`. -/
def reltimeToMeLoop (unscaledInterval : BitVec 32) : ℕ → BitVec 8 → Option (BitVec 8)
  | 0, _ => none
  | fuel + 1, b =>
      if unscaledInterval ≥ 1#32 <<< b.toNat then reltimeToMeLoop unscaledInterval fuel (b + 1)
      else some b

/-- `reltime_to_me`, as the source computes it. It gives `none` if there are 32 binary digits: then
the source shifts by the width of the number. -/
def reltimeToMe32 (interval : BitVec 32) : Option (BitVec 8) := do
  let unscaledInterval := interval / 125 * 2
  let b ← reltimeToMeLoop unscaledInterval 32 0
  if b = 0 then some 0x10#8
  else
    let b := b - 1
    if b > 15 then some 0xFF#8
    else
      let a : BitVec 8 :=
        if b ≥ 5 then
          ((interval - 125#32 <<< (b.toNat - 1)) / (125#32 <<< (b.toNat - 5))).setWidth 8
        else
          ((interval - 125#32 <<< (b.toNat - 1)) * (1#32 <<< (5 - b.toNat)) / 125).setWidth 8
      let b := b + a >>> 4
      let a := a &&& 0x0F
      some ((a <<< 4) ||| (b &&& 0x0F))

/-- The loop counts the binary digits. -/
theorem reltimeToMeLoop_eq {u : BitVec 32} (hu : u.toNat.size < 32) (fuel : ℕ) :
  ∀ b, b ≤ u.toNat.size → b + fuel = 32 →
    reltimeToMeLoop u fuel (BitVec.ofNat 8 b) = some (BitVec.ofNat 8 u.toNat.size)
  := by
  induction fuel with
  | zero =>
      intro b hb hfuel
      omega
  | succ fuel ih =>
      intro b hb hfuel
      have hb8 : (BitVec.ofNat 8 b).toNat = b := by
        rw [BitVec.toNat_ofNat]
        omega
      have hpow : (1#32 <<< b).toNat = 2 ^ b := by
        have hlt : 2 ^ b < 2 ^ 32 := Nat.pow_lt_pow_right Nat.one_lt_two (by omega)
        rw [BitVec.toNat_shiftLeft, Nat.shiftLeft_eq]
        simpa using Nat.mod_eq_of_lt hlt
      have htest : u ≥ 1#32 <<< b ↔ b < u.toNat.size := by
        rw [ge_iff_le, BitVec.le_def, hpow, Nat.lt_size]
      rw [reltimeToMeLoop, hb8]
      by_cases hlt : b < u.toNat.size
      · rw [if_pos (htest.mpr hlt)]
        have hnext := ih (b + 1) hlt (by omega)
        rwa [BitVec.ofNat_add] at hnext
      · rw [if_neg (htest.not.mpr hlt)]
        obtain rfl : b = u.toNat.size := by omega
        rfl

/-! ### The mantissa and the exponent of a time -/

/-- The byte with the mantissa `a` and the exponent `b`. -/
def mantissaByte (a b : ℕ) : BitVec 8 := BitVec.ofNat 8 (16 * a + b)

theorem mantissaByte_eq :
  ∀ a < 16, ∀ b < 16,
    ((BitVec.ofNat 8 a &&& 0x0F) <<< 4) |||
        ((BitVec.ofNat 8 b + BitVec.ofNat 8 a >>> 4) &&& 0x0F) = mantissaByte a b
  := by
  decide

/-- What is read from a byte, rounded down to milliseconds. -/
theorem meToReltime_mantissaByte :
  ∀ a < 16, ∀ b < 16, meToReltime (mantissaByte a b) = (16 + a) * 2 ^ b * 1000 / 256
  := by
  decide

/-- A byte is one of these. -/
theorem exists_mantissaByte (me : BitVec 8) :
  ∃ a < 16, ∃ b < 16, me = mantissaByte a b
  := by
  refine ⟨me.toNat / 16, by omega, me.toNat % 16, by omega, ?_⟩
  apply BitVec.eq_of_toNat_eq
  rw [mantissaByte, BitVec.toNat_ofNat]
  omega

/-- A time that has a byte lies between two powers of two. -/
theorem exists_exponent {n : ℕ} (hle : 125 ≤ n) (hlt : n < 4096000) :
  ∃ b, 1 ≤ b ∧ b ≤ 15 ∧ (n / 125 * 2).size = b + 1 ∧ 125 * 2 ^ b ≤ 2 * n ∧ n < 125 * 2 ^ b
  := by
  have hone : 1 < (n / 125 * 2).size := Nat.lt_size.mpr (by omega)
  have hmax : (n / 125 * 2).size ≤ 16 := Nat.size_le.mpr (by omega)
  obtain ⟨b, hb⟩ : ∃ b, (n / 125 * 2).size = b + 1 := ⟨(n / 125 * 2).size - 1, by omega⟩
  have hlow : 2 ^ b ≤ n / 125 * 2 := Nat.lt_size.mp (by omega)
  have hhigh : n / 125 * 2 < 2 ^ (b + 1) := Nat.size_le.mp (by omega)
  rw [Nat.pow_succ] at hhigh
  refine ⟨b, by omega, by omega, hb, by omega, by omega⟩

/-- The mantissa of a time with the exponent `b`. -/
def mantissaOf (n b : ℕ) : ℕ := (2 * n - 125 * 2 ^ b) * 16 / (125 * 2 ^ b)

theorem mantissaOf_lt {n b : ℕ} (hlt : n < 125 * 2 ^ b) :
  mantissaOf n b < 16
  := by
  have hpos : 0 < 125 * 2 ^ b := by positivity
  rw [mantissaOf, Nat.div_lt_iff_lt_mul hpos]
  omega

/-- The two cases of the source compute the same mantissa. -/
theorem mantissaOf_eq {n b : ℕ} (hb : 1 ≤ b) (hb15 : b ≤ 15) :
  (if b ≥ 5 then (n - 125 <<< (b - 1)) / (125 <<< (b - 5))
    else (n - 125 <<< (b - 1)) * (1 <<< (5 - b)) / 125) = mantissaOf n b
  := by
  rw [mantissaOf]
  interval_cases b <;> simp <;> omega

/-- What `reltime_to_me` gives for a time that has a byte. -/
theorem reltimeToMe_spec {n : ℕ} (hle : 125 ≤ n) (hlt : n < 4096000) :
  ∃ b, 1 ≤ b ∧ b ≤ 15 ∧ 125 * 2 ^ b ≤ 2 * n ∧ n < 125 * 2 ^ b ∧
    reltimeToMe n = mantissaByte (mantissaOf n b) b
  := by
  obtain ⟨b, hb, hb15, hsize, hlow, hhigh⟩ := exists_exponent hle hlt
  refine ⟨b, hb, hb15, hlow, hhigh, ?_⟩
  rw [← mantissaByte_eq _ (mantissaOf_lt hhigh) b (by omega), ← mantissaOf_eq hb hb15]
  simp only [reltimeToMe, hsize]
  rw [if_neg (by omega), if_neg (by omega)]
  rfl

/-- The mantissa as the source computes it, with 32 bits. -/
theorem mantissaOf_eq_32 {n b : ℕ} (hb : 1 ≤ b) (hb15 : b ≤ 15) (hlow : 125 * 2 ^ b ≤ 2 * n)
    (hhigh : n < 125 * 2 ^ b) :
  (if BitVec.ofNat 8 b ≥ 5 then
      ((BitVec.ofNat 32 n - 125#32 <<< (b - 1)) / (125#32 <<< (b - 5))).setWidth 8
    else ((BitVec.ofNat 32 n - 125#32 <<< (b - 1)) * (1#32 <<< (5 - b)) / 125).setWidth 8) =
      BitVec.ofNat 8 (mantissaOf n b)
  := by
  have hsub : BitVec.ofNat 32 n - 125#32 <<< (b - 1) = BitVec.ofNat 32 (n - 125 <<< (b - 1)) := by
    apply BitVec.eq_of_toNat_eq
    interval_cases b <;> simp [BitVec.toNat_sub] <;> omega
  rw [hsub, mantissaOf]
  interval_cases b <;> apply BitVec.eq_of_toNat_eq <;>
    simp (disch := omega) [Nat.mod_eq_of_lt] <;> omega

/-- The computation with 32 bits does not overflow. -/
theorem reltimeToMe32_eq (interval : BitVec 32) :
  reltimeToMe32 interval = some (reltimeToMe interval.toNat)
  := by
  have hn := interval.isLt
  obtain ⟨n, hinterval⟩ : ∃ n, interval.toNat = n := ⟨_, rfl⟩
  obtain rfl : interval = BitVec.ofNat 32 n := by
    rw [← hinterval, BitVec.ofNat_toNat, BitVec.setWidth_eq]
  rw [hinterval] at hn ⊢
  have hu : (BitVec.ofNat 32 n / 125 * 2).toNat = n / 125 * 2 := by
    simp
    omega
  have hsize : (n / 125 * 2).size < 32 := by
    have hle : (n / 125 * 2).size ≤ 27 := Nat.size_le.mpr (by omega)
    omega
  have hloop : reltimeToMeLoop (BitVec.ofNat 32 n / 125 * 2) 32 0 =
      some (BitVec.ofNat 8 (n / 125 * 2).size) := by
    rw [← hu] at hsize ⊢
    exact reltimeToMeLoop_eq hsize 32 0 (by omega) rfl
  simp only [reltimeToMe32, hloop, Option.bind_eq_bind, Option.bind_some]
  by_cases hshort : n < 125
  · have hzero : (n / 125 * 2).size = 0 := by
      rw [Nat.size_eq_zero]
      omega
    simp [reltimeToMe, hzero]
  by_cases hlong : n < 4096000
  · obtain ⟨b, hb, hb15, hb1, hlow, hhigh⟩ := exists_exponent (by omega) hlong
    have hb8 : (BitVec.ofNat 8 b).toNat = b := by
      rw [BitVec.toNat_ofNat]
      omega
    have hzero : BitVec.ofNat 8 (b + 1) ≠ 0 := by
      interval_cases b <;> decide
    have hpred : BitVec.ofNat 8 (b + 1) - 1 = BitVec.ofNat 8 b := by
      interval_cases b <;> decide
    have hle : ¬ BitVec.ofNat 8 b > 15 := by
      interval_cases b <;> decide
    have hmantissa := mantissaOf_eq_32 hb hb15 hlow hhigh
    have hnat := mantissaOf_eq (n := n) hb hb15
    simp only [reltimeToMe, hb1]
    rw [if_neg hzero, hpred, if_neg hle, hb8, hmantissa, if_neg (by omega), if_neg (by omega),
      Nat.add_sub_cancel, hnat]
  · have hlarge : 16 < (n / 125 * 2).size := Nat.lt_size.mpr (by omega)
    generalize hs : (n / 125 * 2).size = s at *
    have hzero : BitVec.ofNat 8 s ≠ 0 := by
      interval_cases s <;> decide
    have hmore : BitVec.ofNat 8 s - 1 > 15 := by
      interval_cases s <;> decide
    simp only [reltimeToMe, hs]
    rw [if_neg hzero, if_pos hmore, if_neg (by omega), if_pos (by omega)]

/-! ### Reading what was written -/

/-- What is read for a time that has a byte, with the exponent `b`. -/
theorem meToReltime_mantissaOf {n b : ℕ} (hb : b ≤ 15) (hhigh : n < 125 * 2 ^ b) :
  meToReltime (mantissaByte (mantissaOf n b) b) = (16 + mantissaOf n b) * (125 * 2 ^ b) / 32
  := by
  rw [meToReltime_mantissaByte _ (mantissaOf_lt hhigh) b (by omega)]
  have hscale : (16 + mantissaOf n b) * 2 ^ b * 1000 =
      (16 + mantissaOf n b) * (125 * 2 ^ b) * 8 := by
    ring
  rw [hscale]
  omega

/-- The mantissa is rounded down. -/
theorem mantissaOf_mul {n b : ℕ} (hlow : 125 * 2 ^ b ≤ 2 * n) :
  (16 + mantissaOf n b) * (125 * 2 ^ b) ≤ 32 * n ∧
    32 * n < (16 + mantissaOf n b) * (125 * 2 ^ b) + 125 * 2 ^ b
  := by
  have hpos : 0 < 125 * 2 ^ b := by positivity
  have hdiv := Nat.div_add_mod ((2 * n - 125 * 2 ^ b) * 16) (125 * 2 ^ b)
  have hmod := Nat.mod_lt ((2 * n - 125 * 2 ^ b) * 16) hpos
  rw [Nat.add_mul, mantissaOf, Nat.mul_comm (_ / _)]
  omega

/-- What is read is at most the time, and less by a sixteenth of it at most, rounded up. -/
theorem meToReltime_reltimeToMe {n : ℕ} (hle : 125 ≤ n) (hlt : n < 4096000) :
  meToReltime (reltimeToMe n) ≤ n ∧ 16 * (n - meToReltime (reltimeToMe n)) < n + 16
  := by
  obtain ⟨b, hb, hb15, hlow, hhigh, hbyte⟩ := reltimeToMe_spec hle hlt
  rw [hbyte, meToReltime_mantissaOf hb15 hhigh]
  have hmul := mantissaOf_mul hlow
  omega

theorem meToReltime_reltimeToMe_short {n : ℕ} (hlt : n < 125) :
  meToReltime (reltimeToMe n) = 66
  := by
  have hzero : (n / 125 * 2).size = 0 := by
    rw [Nat.size_eq_zero]
    omega
  simp only [reltimeToMe]
  rw [if_pos hzero]
  rfl

theorem meToReltime_reltimeToMe_long {n : ℕ} (hle : 4096000 ≤ n) :
  meToReltime (reltimeToMe n) = 3968000
  := by
  have hlarge : 16 < (n / 125 * 2).size := Nat.lt_size.mpr (by omega)
  simp only [reltimeToMe]
  rw [if_neg (by omega), if_pos (by omega)]
  rfl

/-- No more is read than from the greatest byte. -/
theorem meToReltime_reltimeToMe_le (n : ℕ) :
  meToReltime (reltimeToMe n) ≤ 3968000
  := by
  by_cases hshort : n < 125
  · rw [meToReltime_reltimeToMe_short hshort]
    omega
  by_cases hlong : n < 4096000
  · obtain ⟨b, hb, hb15, hlow, hhigh, hbyte⟩ := reltimeToMe_spec (by omega) hlong
    have ha : 16 + mantissaOf n b ≤ 31 := by
      have hlt := mantissaOf_lt hhigh
      omega
    have hpow : 125 * 2 ^ b ≤ 125 * 2 ^ 15 :=
      Nat.mul_le_mul_left 125 (Nat.pow_le_pow_right Nat.two_pos hb15)
    have hmul := Nat.mul_le_mul ha hpow
    rw [hbyte, meToReltime_mantissaOf hb15 hhigh]
    omega
  · exact (meToReltime_reltimeToMe_long (by omega)).le

/-- A longer time is not read as a shorter one. -/
theorem meToReltime_reltimeToMe_mono {m n : ℕ} (hmn : m ≤ n) :
  meToReltime (reltimeToMe m) ≤ meToReltime (reltimeToMe n)
  := by
  by_cases hlong : n < 4096000
  · by_cases hshort : m < 125
    · rw [meToReltime_reltimeToMe_short hshort]
      by_cases hn : n < 125
      · rw [meToReltime_reltimeToMe_short hn]
      · have hread := meToReltime_reltimeToMe (n := n) (by omega) hlong
        omega
    · have hread := meToReltime_reltimeToMe (n := m) (by omega) (by omega)
      obtain ⟨b, -, hb15, hlow, hhigh, hbyte⟩ := reltimeToMe_spec (n := m) (by omega) (by omega)
      obtain ⟨c, -, hc15, hlow', hhigh', hbyte'⟩ := reltimeToMe_spec (n := n) (by omega) hlong
      rcases Nat.lt_trichotomy b c with hbc | rfl | hcb
      · -- The greater exponent alone gives more than the shorter time.
        have hpow : 2 ^ (b + 1) ≤ 2 ^ c := Nat.pow_le_pow_right Nat.two_pos hbc
        have hmul : 16 * (125 * 2 ^ c) ≤ (16 + mantissaOf n c) * (125 * 2 ^ c) :=
          Nat.mul_le_mul_right _ (by omega)
        rw [hbyte', meToReltime_mantissaOf hc15 hhigh']
        rw [Nat.pow_succ] at hpow
        omega
      · rw [hbyte, hbyte', meToReltime_mantissaOf hb15 hhigh, meToReltime_mantissaOf hb15 hhigh']
        apply Nat.div_le_div_right
        apply Nat.mul_le_mul_right
        apply Nat.add_le_add_left
        apply Nat.div_le_div_right
        omega
      · have hpow : 2 ^ (c + 1) ≤ 2 ^ b := Nat.pow_le_pow_right Nat.two_pos hcb
        rw [Nat.pow_succ] at hpow
        omega
  · rw [meToReltime_reltimeToMe_long (n := n) (by omega)]
    apply meToReltime_reltimeToMe_le

/-- Whatever time `reltime_to_me` is given, it computes a byte, and what `me_to_reltime` reads from
it is not more than the time, and less by a sixteenth of it at most. Times of less than 125 ms are
read as 66 ms, and times from 4096 s on as 3968 s. A longer time is never read as a shorter one. -/
theorem reltimeToMe32_accurate (interval : BitVec 32) :
  ∃ me, reltimeToMe32 interval = some me ∧
    (interval.toNat < 125 → meToReltime me = 66) ∧
    (125 ≤ interval.toNat → interval.toNat < 4096000 →
      meToReltime me ≤ interval.toNat ∧
        16 * (interval.toNat - meToReltime me) < interval.toNat + 16) ∧
    (4096000 ≤ interval.toNat → meToReltime me = 3968000) ∧
    ∀ longer ≥ interval, ∃ me', reltimeToMe32 longer = some me' ∧ meToReltime me ≤ meToReltime me'
  := by
  refine ⟨_, reltimeToMe32_eq interval, meToReltime_reltimeToMe_short, meToReltime_reltimeToMe,
    meToReltime_reltimeToMe_long, ?_⟩
  intro longer hlonger
  exact ⟨_, reltimeToMe32_eq longer, meToReltime_reltimeToMe_mono (BitVec.le_def.mp hlonger)⟩

theorem exponent_mantissaByte :
  ∀ a < 16, ∀ b < 16, (mantissaByte a b &&& 0x0F).toNat = b
  := by
  decide

/-- There is only one exponent for a time. -/
theorem exponent_unique {n b c : ℕ} (hlow : 125 * 2 ^ b ≤ 2 * n) (hhigh : n < 125 * 2 ^ c) :
  b ≤ c
  := by
  have hlt : 2 ^ b < 2 ^ (c + 1) := by
    rw [Nat.pow_succ]
    omega
  exact Nat.lt_succ_iff.mp ((Nat.pow_lt_pow_iff_right Nat.one_lt_two).mp hlt)

/-- A byte with an exponent of at least 5 is written again for the time that is read from it. -/
theorem reltimeToMe32_meToReltime (me : BitVec 8)
    (h : 5 ≤ (me &&& 0x0F).toNat) :
  reltimeToMe32 (BitVec.ofNat 32 (meToReltime me)) = some me
  := by
  obtain ⟨a, ha, b, hb, rfl⟩ := exists_mantissaByte me
  rw [exponent_mantissaByte a ha b hb] at h
  -- The time is a multiple of the unit `125 * 2 ^ (b - 5)`.
  obtain ⟨e, rfl⟩ := Nat.exists_eq_add_of_le h
  have hunit : 125 * 2 ^ (5 + e) = 32 * (125 * 2 ^ e) := by
    rw [Nat.pow_add]
    ring
  have hread : meToReltime (mantissaByte a (5 + e)) = (16 + a) * (125 * 2 ^ e) := by
    rw [meToReltime_mantissaByte a ha _ hb, Nat.pow_add]
    have hscale : (16 + a) * (2 ^ 5 * 2 ^ e) * 1000 = 256 * ((16 + a) * (125 * 2 ^ e)) := by
      ring
    rw [hscale, Nat.mul_div_cancel_left _ (by omega)]
  rw [hread]
  have hpow : 2 ^ e ≤ 2 ^ 10 := Nat.pow_le_pow_right Nat.two_pos (by omega)
  have hone : 1 ≤ 2 ^ e := Nat.one_le_two_pow
  have hleast : 16 * (125 * 2 ^ e) ≤ (16 + a) * (125 * 2 ^ e) := Nat.mul_le_mul_right _ (by omega)
  have hmost : (16 + a) * (125 * 2 ^ e) ≤ 31 * (125 * 2 ^ e) := Nat.mul_le_mul_right _ (by omega)
  obtain ⟨c, -, hc15, hlow, hhigh, hbyte⟩ :=
    reltimeToMe_spec (n := (16 + a) * (125 * 2 ^ e)) (by omega) (by omega)
  obtain rfl : c = 5 + e := by
    apply Nat.le_antisymm
    · apply exponent_unique hlow
      omega
    · apply exponent_unique _ hhigh
      omega
  have hmantissa : mantissaOf ((16 + a) * (125 * 2 ^ e)) (5 + e) = a := by
    have hsub : (2 * ((16 + a) * (125 * 2 ^ e)) - 32 * (125 * 2 ^ e)) * 16 =
        a * (32 * (125 * 2 ^ e)) := by
      rw [← Nat.mul_assoc, ← Nat.sub_mul]
      have htwice : 2 * (16 + a) - 32 = 2 * a := by omega
      rw [htwice]
      ring
    rw [mantissaOf, hunit, hsub, Nat.mul_div_cancel _ (by omega)]
  rw [reltimeToMe32_eq, BitVec.toNat_ofNat, Nat.mod_eq_of_lt (by omega), hbyte, hmantissa]

theorem reltimeToMe32_meToReltime_hello :
  reltimeToMe32 (BitVec.ofNat 32 (meToReltime 0xE5)) = some 0xE5
  := by
  apply reltimeToMe32_meToReltime
  decide
