/-
  ShaderFlow.Proofs.Rounding — decimals that round to a float.

  Around every float lies an interval of reals that round to it: half a step to either side, and
  only a quarter of a step below where the steps get finer.  Rounding sends the whole interval to
  the float, its ends too if the significand is even.  The decimal that is written for a float is
  found inside the interval, so it rounds back.

  Main definitions:
    * `Format.Dyadic.Admits` — the reals that round to a number.

  Main statements:
    * `Format.floorLog2_spec`          — the binary exponent of a quotient;
    * `Format.nearest_eq`              — rounding inside the interval of a number;
    * `Binary32.admits_shortest`       — the decimal of a float is in its interval;
    * `Binary32.ofDecimal_of_shortest` — that decimal rounds to the float.
-/

import Mathlib.Algebra.Order.Field.Power
import Mathlib.Data.Rat.Cast.Order
import Mathlib.Tactic.FieldSimp
import Mathlib.Tactic.Linarith
import Mathlib.Tactic.NormNum
import Mathlib.Tactic.Positivity
import Mathlib.Tactic.Ring
import ShaderFlow.Number.Binary32
import ShaderFlow.Number.Shortest

namespace ShaderFlow

/-! ## §1. Powers -/

/-- A power with any exponent as a quotient of powers with natural ones. -/
theorem zpow_eq_quotient (b : ℕ) (i : ℤ) :
    (b : ℚ) ^ i = (Nat.pow b i.toNat : ℕ) / (Nat.pow b (-i).toNat : ℕ) := by
  simp only [Nat.pow_eq, Nat.cast_pow]
  cases i with
  | ofNat n => simp
  | negSucc n =>
    have hneg : (-Int.negSucc n).toNat = n + 1 := rfl
    rw [zpow_negSucc, hneg]
    simp

/-- The value of a decimal. -/
def Decimal.value (d : Decimal) : ℚ := d.digits * 10 ^ d.exponent

/-- The value of a dyadic number. -/
def Format.Dyadic.value (x : Format.Dyadic) : ℚ := x.significand * 2 ^ x.scale

namespace Decimal

/-- Exact comparison compares the values. -/
theorem compareScaled_iff (a : ℕ) (i : ℤ) (n : ℕ) (j : ℤ) :
    (compareScaled a i n j = .lt ↔ (a : ℚ) * 10 ^ i < n * 2 ^ j) ∧
      (compareScaled a i n j = .eq ↔ (a : ℚ) * 10 ^ i = n * 2 ^ j) ∧
      (compareScaled a i n j = .gt ↔ (n : ℚ) * 2 ^ j < a * 10 ^ i) := by
  have hten := zpow_eq_quotient 10 i
  have htwo := zpow_eq_quotient 2 j
  have hpos : ∀ (b k : ℕ), 0 < b → (0 : ℚ) < (Nat.pow b k : ℕ) := fun b k hb =>
    Nat.cast_pos.mpr (Nat.pow_pos hb)
  -- both sides are the values, scaled by the denominators of the powers
  have hscale : (0 : ℚ) < (Nat.pow 10 (-i).toNat : ℕ) * (Nat.pow 2 (-j).toNat : ℕ) :=
    mul_pos (hpos _ _ (by decide)) (hpos _ _ (by decide))
  have hleft : ((a * Nat.pow 10 i.toNat * Nat.pow 2 (-j).toNat : ℕ) : ℚ) =
      a * 10 ^ i * ((Nat.pow 10 (-i).toNat : ℕ) * (Nat.pow 2 (-j).toNat : ℕ)) := by
    have hne := (hpos 10 (-i).toNat (by decide)).ne'
    rw [show (10 : ℚ) ^ i = _ from hten]
    push_cast
    field_simp
  have hright : ((n * Nat.pow 2 j.toNat * Nat.pow 10 (-i).toNat : ℕ) : ℚ) =
      n * 2 ^ j * ((Nat.pow 10 (-i).toNat : ℕ) * (Nat.pow 2 (-j).toNat : ℕ)) := by
    have hne := (hpos 2 (-j).toNat (by decide)).ne'
    rw [show (2 : ℚ) ^ j = _ from htwo]
    push_cast
    field_simp
  rw [compareScaled]
  refine ⟨?_, ?_, ?_⟩
  · rw [Nat.compare_eq_lt, ← Nat.cast_lt (α := ℚ), hleft, hright, mul_lt_mul_iff_left₀ hscale]
  · rw [Nat.compare_eq_eq, ← Nat.cast_inj (R := ℚ), hleft, hright,
      mul_left_inj' hscale.ne']
  · rw [Nat.compare_eq_gt, ← Nat.cast_lt (α := ℚ), hleft, hright, mul_lt_mul_iff_left₀ hscale]

end Decimal

/-! ## §2. The reals that round to a number -/

namespace Format.Dyadic

/-- Where the reals begin that round to a number, in steps of its scale: half a step below, or a
    quarter where the neighbour below is half as far away. -/
def lowEnd (x : Dyadic) (narrow : Bool) : ℚ := x.significand - if narrow then 1 / 4 else 1 / 2

/-- Where they end: half a step above. -/
def highEnd (x : Dyadic) : ℚ := x.significand + 1 / 2

/-- **Whether a real rounds to a number**: it lies between the two ends, or at one of them if the
    significand is even. -/
structure Admits (x : Dyadic) (narrow : Bool) (v : ℚ) : Prop where
  low : x.lowEnd narrow < v / 2 ^ x.scale ∨
    x.significand % 2 = 0 ∧ v / 2 ^ x.scale = x.lowEnd narrow
  high : v / 2 ^ x.scale < x.highEnd ∨ x.significand % 2 = 0 ∧ v / 2 ^ x.scale = x.highEnd

variable {x : Dyadic} {narrow : Bool} {v : ℚ}

theorem two_zpow_pos (i : ℤ) : (0 : ℚ) < 2 ^ i := zpow_pos (by norm_num) i

theorem Admits.half_le (h : x.Admits narrow v) : (x.significand : ℚ) - 1 / 2 ≤ v / 2 ^ x.scale := by
  have hends : (x.significand : ℚ) - 1 / 2 ≤ x.lowEnd narrow := by
    rw [lowEnd]
    split <;> linarith
  rcases h.low with hlow | ⟨-, hlow⟩ <;> linarith

theorem Admits.le_half (h : x.Admits narrow v) : v / 2 ^ x.scale ≤ (x.significand : ℚ) + 1 / 2 := by
  rcases h.high with hhigh | ⟨-, hhigh⟩ <;> rw [highEnd] at hhigh <;> linarith

/-- A number that is not zero rounds to itself. -/
theorem admits_value : x.Admits narrow x.value := by
  have hself : x.value / 2 ^ x.scale = x.significand := by
    rw [value, mul_div_assoc, div_self (two_zpow_pos _).ne', mul_one]
  refine ⟨.inl ?_, .inl ?_⟩ <;> rw [hself]
  · rw [lowEnd]
    split <;> linarith
  · rw [highEnd]
    linarith

/-- Steps of a quarter of the scale. -/
theorem quarters (n : ℕ) (scale : ℤ) :
    (n : ℚ) * 2 ^ (scale - 2) = n / 4 * 2 ^ scale := by
  rw [zpow_sub₀ (by norm_num)]
  norm_num
  ring

end Format.Dyadic

/-- A decimal that is found to read back is one of the reals that round to the number. -/
theorem Decimal.admits_of_readsBack {d : Decimal} {x : Format.Dyadic} {narrow : Bool}
    (hx : 0 < x.significand) (h : d.readsBack x narrow = true) : x.Admits narrow d.value := by
  have hpos := Format.Dyadic.two_zpow_pos x.scale
  -- the ends of the interval in quarters, which is how the code compares them
  have hlow : ((if narrow then 4 * x.significand - 1 else 4 * x.significand - 2 : ℕ) : ℚ) *
      2 ^ (x.scale - 2) = x.lowEnd narrow * 2 ^ x.scale := by
    rw [Format.Dyadic.quarters, Format.Dyadic.lowEnd]
    split
    · rw [Nat.cast_sub (by omega)]
      push_cast
      ring
    · rw [Nat.cast_sub (by omega)]
      push_cast
      ring
  have hhigh : ((4 * x.significand + 2 : ℕ) : ℚ) * 2 ^ (x.scale - 2) =
      x.highEnd * 2 ^ x.scale := by
    rw [Format.Dyadic.quarters, Format.Dyadic.highEnd]
    push_cast
    ring
  obtain ⟨-, heqLow, hgtLow⟩ := compareScaled_iff d.digits d.exponent
    (if narrow then 4 * x.significand - 1 else 4 * x.significand - 2) (x.scale - 2)
  obtain ⟨hltHigh, heqHigh, -⟩ := compareScaled_iff d.digits d.exponent
    (4 * x.significand + 2) (x.scale - 2)
  rw [hlow] at heqLow hgtLow
  rw [hhigh] at hltHigh heqHigh
  simp only [readsBack, Bool.and_eq_true, Bool.or_eq_true, beq_iff_eq] at h
  refine ⟨?_, ?_⟩
  · rcases h.1 with hgt | ⟨heven, heq⟩
    · exact .inl ((lt_div_iff₀ hpos).mpr (hgtLow.mp hgt))
    · exact .inr ⟨heven, (div_eq_iff hpos.ne').mpr (heqLow.mp heq)⟩
  · rcases h.2 with hlt | ⟨heven, heq⟩
    · exact .inl ((div_lt_iff₀ hpos).mpr (hltHigh.mp hlt))
    · exact .inr ⟨heven, (div_eq_iff hpos.ne').mpr (heqHigh.mp heq)⟩

/-! ## §3. Rounding -/

namespace Format

/-- The quotient of two numbers, scaled to a grid of powers of two. -/
theorem cast_scaled (num den : ℕ) (scale : ℤ) :
    ((num * Nat.pow 2 (-scale).toNat : ℕ) : ℚ) / ((den * Nat.pow 2 scale.toNat : ℕ) : ℚ) =
      (num : ℚ) / den / 2 ^ scale := by
  have htwo : (2 : ℚ) ^ scale = _ := zpow_eq_quotient 2 scale
  rw [htwo]
  push_cast
  field_simp

/-- **Rounding to an integer.**  What is at most half a step from an integer is rounded to it,
    from the middle if it is even. -/
theorem halfEven_eq {num den k : ℕ} (hden : 0 < den)
    (hlow : (k : ℚ) - 1 / 2 < num / den ∨ k % 2 = 0 ∧ (k : ℚ) - 1 / 2 = num / den)
    (hhigh : (num : ℚ) / den < k + 1 / 2 ∨ k % 2 = 0 ∧ (num : ℚ) / den = k + 1 / 2) :
    halfEven num den = k := by
  have hden' : (0 : ℚ) < den := Nat.cast_pos.mpr hden
  have hlow' : 2 * k * den < 2 * num + den ∨ k % 2 = 0 ∧ 2 * k * den = 2 * num + den := by
    refine hlow.imp (fun h => ?_) (And.imp_right fun h => ?_)
    · rw [lt_div_iff₀ hden'] at h
      exact_mod_cast (by linarith : (2 * k * den : ℚ) < 2 * num + den)
    · rw [eq_div_iff hden'.ne'] at h
      exact_mod_cast (by linarith : (2 * k * den : ℚ) = 2 * num + den)
  have hhigh' : 2 * num < 2 * k * den + den ∨ k % 2 = 0 ∧ 2 * num = 2 * k * den + den := by
    refine hhigh.imp (fun h => ?_) (And.imp_right fun h => ?_)
    · rw [div_lt_iff₀ hden'] at h
      exact_mod_cast (by linarith : (2 * num : ℚ) < 2 * k * den + den)
    · rw [div_eq_iff hden'.ne'] at h
      exact_mod_cast (by linarith : (2 * num : ℚ) = 2 * k * den + den)
  have hnum := Nat.div_add_mod num den
  have hrest := Nat.mod_lt num hden
  -- the integer is the quotient or the one above it
  have hle : num / den ≤ k := by
    by_contra hlt
    have hmul : den * (k + 1) ≤ den * (num / den) := Nat.mul_le_mul_left den (by omega)
    have hexpand : den * (k + 1) = k * den + den := by ring
    have hdouble : 2 * k * den = 2 * (k * den) := by ring
    omega
  have hge : k ≤ num / den + 1 := by
    by_contra hlt
    have hmul : den * (num / den + 2) ≤ den * k := Nat.mul_le_mul_left den (by omega)
    have hexpand : den * (num / den + 2) = den * (num / den) + 2 * den := by ring
    have hdouble : 2 * k * den = 2 * (den * k) := by ring
    omega
  rw [halfEven]
  rcases (by omega : k = num / den ∨ k = num / den + 1) with hk | hk
  · have hdouble : 2 * k * den = 2 * (den * (num / den)) := by rw [hk]; ring
    split_ifs <;> omega
  · have hdouble : 2 * k * den = 2 * (den * (num / den)) + 2 * den := by rw [hk]; ring
    split_ifs <;> omega

/-- Between which powers of two a number lies. -/
theorem log2_bounds {n : ℕ} (hn : 0 < n) :
    (2 : ℚ) ^ (n.log2 : ℤ) ≤ n ∧ (n : ℚ) < 2 ^ ((n.log2 : ℤ) + 1) := by
  constructor
  · rw [zpow_natCast]
    exact_mod_cast Nat.log2_self_le hn.ne'
  · rw [← Nat.cast_succ, zpow_natCast]
    exact_mod_cast Nat.lt_log2_self

/-- **The binary exponent of a quotient.** -/
theorem floorLog2_spec {num den : ℕ} (hnum : 0 < num) (hden : 0 < den) :
    (2 : ℚ) ^ floorLog2 num den ≤ num / den ∧ (num : ℚ) / den < 2 ^ (floorLog2 num den + 1) := by
  obtain ⟨hnumLow, hnumHigh⟩ := log2_bounds hnum
  obtain ⟨hdenLow, hdenHigh⟩ := log2_bounds hden
  have hden' : (0 : ℚ) < den := Nat.cast_pos.mpr hden
  set guess : ℤ := num.log2 - den.log2 with hguess
  have hhigh : (num : ℚ) / den < 2 ^ (guess + 1) := by
    rw [div_lt_iff₀ hden']
    calc (num : ℚ) < 2 ^ ((num.log2 : ℤ) + 1) := hnumHigh
      _ = 2 ^ (guess + 1) * 2 ^ (den.log2 : ℤ) := by
        rw [← zpow_add₀ (by norm_num)]
        congr 1
        omega
      _ ≤ 2 ^ (guess + 1) * den := mul_le_mul_of_nonneg_left hdenLow (Dyadic.two_zpow_pos _).le
  have hlow : (2 : ℚ) ^ (guess - 1) ≤ num / den := by
    rw [le_div_iff₀ hden']
    calc (2 : ℚ) ^ (guess - 1) * den ≤ 2 ^ (guess - 1) * 2 ^ ((den.log2 : ℤ) + 1) :=
          mul_le_mul_of_nonneg_left hdenHigh.le (Dyadic.two_zpow_pos _).le
      _ = 2 ^ (num.log2 : ℤ) := by
        rw [← zpow_add₀ (by norm_num)]
        congr 1
        omega
      _ ≤ num := hnumLow
  -- the guess is right or one too high, and the code tells which by integers alone
  have hbelow : num * Nat.pow 2 (-guess).toNat < den * Nat.pow 2 guess.toNat ↔
      (num : ℚ) / den < 2 ^ guess := by
    have hpos : (0 : ℚ) < (den * Nat.pow 2 guess.toNat : ℕ) :=
      Nat.cast_pos.mpr (Nat.mul_pos hden (Nat.pow_pos (by decide)))
    rw [← Nat.cast_lt (α := ℚ), ← div_lt_one hpos, cast_scaled,
      div_lt_one (Dyadic.two_zpow_pos guess)]
  rw [floorLog2, ← hguess]
  simp only [hbelow]
  split
  next h => exact ⟨hlow, by rwa [sub_add_cancel]⟩
  next h => exact ⟨not_lt.mp h, hhigh⟩

/-- How a number stands to its rung: the blocks below hold the numbers of finer steps, and all
    but those of the finest steps have a leading one. -/
structure OnRung (f : Format) (rung : ℕ) (x : Dyadic) : Prop where
  rung_eq : rung = (x.scale - f.leastScale).toNat * f.blockSize + x.significand
  least_le : f.leastScale ≤ x.scale
  lt_double : x.significand < 2 * f.blockSize
  scale_eq : x.significand < f.blockSize → x.scale = f.leastScale
  narrow : x.significand = f.blockSize → f.leastScale < x.scale → f.narrowBelow rung = true

theorem blockSize_pos (f : Format) : 0 < f.blockSize := Nat.pow_pos (by decide)

theorem onRung_rungValue (f : Format) (rung : ℕ) : f.OnRung rung (f.rungValue rung) := by
  have hpos := f.blockSize_pos
  have hsplit := Nat.div_add_mod' rung f.blockSize
  have hrest := Nat.mod_lt rung hpos
  -- the rungs of the first block have no hidden bit
  by_cases hblock : rung / f.blockSize = 0
  · have hvalue : f.rungValue rung = ⟨rung % f.blockSize, f.leastScale⟩ := by
      rw [rungValue, if_pos hblock]
    rw [hvalue]
    rw [hblock] at hsplit
    exact { rung_eq := by simpa using hsplit.symm
            least_le := le_refl _
            lt_double := by show rung % f.blockSize < _; omega
            scale_eq := fun _ => rfl
            narrow := fun _ h => absurd h (lt_irrefl _) }
  · obtain ⟨block, hsucc⟩ := Nat.exists_eq_succ_of_ne_zero hblock
    have hvalue : f.rungValue rung =
        ⟨f.blockSize + rung % f.blockSize, f.leastScale + block⟩ := by
      rw [rungValue, if_neg hblock, hsucc]
      rfl
    rw [hvalue]
    refine { rung_eq := ?_, least_le := ?_, lt_double := ?_, scale_eq := ?_, narrow := ?_ }
    · show rung = (f.leastScale + block - f.leastScale).toNat * f.blockSize +
        (f.blockSize + rung % f.blockSize)
      rw [add_sub_cancel_left, Int.toNat_natCast, ← Nat.add_assoc, ← Nat.succ_mul, ← hsucc]
      exact hsplit.symm
    · show f.leastScale ≤ f.leastScale + block
      omega
    · show f.blockSize + rung % f.blockSize < 2 * f.blockSize
      omega
    · intro h
      have h : f.blockSize + rung % f.blockSize < f.blockSize := h
      omega
    · intro hfirst hscale
      have hfirst : f.blockSize + rung % f.blockSize = f.blockSize := hfirst
      have hscale : f.leastScale < f.leastScale + block := hscale
      rw [narrowBelow, hsucc, Bool.and_eq_true, beq_iff_eq, decide_eq_true_eq]
      omega

/-- The exponent of a power of two that bounds a quotient bounds its binary exponent. -/
theorem floorLog2_lt {num den : ℕ} (hnum : 0 < num) (hden : 0 < den) {k : ℤ}
    (h : (num : ℚ) / den < 2 ^ k) : floorLog2 num den < k := by
  have hlow := (floorLog2_spec hnum hden).1
  exact (zpow_lt_zpow_iff_right₀ (by norm_num)).mp (lt_of_le_of_lt hlow h)

theorem le_floorLog2 {num den : ℕ} (hnum : 0 < num) (hden : 0 < den) {k : ℤ}
    (h : (2 : ℚ) ^ k ≤ num / den) : k ≤ floorLog2 num den := by
  have hhigh := (floorLog2_spec hnum hden).2
  have hlt := (zpow_lt_zpow_iff_right₀ (by norm_num)).mp (lt_of_le_of_lt h hhigh)
  omega

/-- Rounding on a grid that is known: the rung is that of the scale and the rounded quotient. -/
theorem nearest_of_scale (f : Format) (significand : ℕ) (scale : ℤ) {num den rung : ℕ}
    (hnum : 0 < num)
    (hscale : max f.leastScale (floorLog2 num den - (f.precision - 1 : ℕ)) = scale)
    (hsignificand : halfEven (num * Nat.pow 2 (-scale).toNat) (den * Nat.pow 2 scale.toNat) =
      significand)
    (hrung : (scale - f.leastScale).toNat * f.blockSize + significand = rung)
    (hfinite : rung < f.infinity) : f.nearest num den = rung := by
  rw [nearest, if_neg hnum.ne']
  simp only [hscale, hsignificand, hrung]
  exact Nat.min_eq_right hfinite.le

/-- The first block ends at a power of two. -/
theorem blockSize_mul_zpow (f : Format) (scale i : ℤ) :
    (f.blockSize : ℚ) * 2 ^ i * 2 ^ scale = 2 ^ ((f.precision - 1 : ℕ) + scale + i) := by
  have hblock : (f.blockSize : ℚ) = 2 ^ ((f.precision - 1 : ℕ) : ℤ) := by
    rw [zpow_natCast, blockSize, Nat.pow_eq]
    push_cast
    rfl
  rw [hblock, zpow_add₀ (by norm_num), zpow_add₀ (by norm_num)]
  ring

section Grids

variable {f : Format} {num den rung : ℕ} {x : Dyadic}

/-- The exponent of a quotient, read off the quotient in steps of a scale. -/
theorem floorLog2_lt_of_steps (hnum : 0 < num) (hden : 0 < den) (scale i : ℤ)
    (h : (num : ℚ) / den / 2 ^ scale < f.blockSize * 2 ^ i) :
    floorLog2 num den < (f.precision - 1 : ℕ) + scale + i := by
  refine floorLog2_lt hnum hden ?_
  rw [← blockSize_mul_zpow]
  exact (div_lt_iff₀ (Dyadic.two_zpow_pos scale)).mp h

@[inherit_doc floorLog2_lt_of_steps]
theorem le_floorLog2_of_steps (hnum : 0 < num) (hden : 0 < den) (scale i : ℤ)
    (h : f.blockSize * 2 ^ i ≤ (num : ℚ) / den / 2 ^ scale) :
    (f.precision - 1 : ℕ) + scale + i ≤ floorLog2 num den := by
  refine le_floorLog2 hnum hden ?_
  rw [← blockSize_mul_zpow]
  exact (le_div_iff₀ (Dyadic.two_zpow_pos scale)).mp h

/-- Where the grid is that of the number, its significand is what the quotient is rounded to. -/
theorem nearest_of_same_grid (hnum : 0 < num) (hden : 0 < den) (hfinite : rung < f.infinity)
    (hr : f.OnRung rung x) (h : x.Admits (f.narrowBelow rung) ((num : ℚ) / den))
    (hscale : max f.leastScale (floorLog2 num den - (f.precision - 1 : ℕ)) = x.scale) :
    f.nearest num den = rung := by
  have hden' : 0 < den * Nat.pow 2 x.scale.toNat := Nat.mul_pos hden (Nat.pow_pos (by decide))
  refine nearest_of_scale f _ _ hnum hscale (halfEven_eq hden' ?_ ?_) hr.rung_eq.symm hfinite
  · rw [cast_scaled]
    have hlow := h.low
    rw [Dyadic.lowEnd] at hlow
    rcases hlow with hlow | ⟨heven, hlow⟩ <;> split at hlow
    · exact .inl (by linarith)
    · exact .inl hlow
    · exact .inl (by linarith)
    · exact .inr ⟨heven, hlow.symm⟩
  · rw [cast_scaled]
    exact h.high

/-- Just below a power of two the grid is finer, and rounding goes up to the power. -/
theorem nearest_of_finer_grid (hnum : 0 < num) (hden : 0 < den) (hfinite : rung < f.infinity)
    (hr : f.OnRung rung x) (h : x.Admits (f.narrowBelow rung) ((num : ℚ) / den))
    (hscale : x.scale ≠ f.leastScale) (hsmall : (num : ℚ) / den / 2 ^ x.scale < f.blockSize) :
    f.nearest num den = rung := by
  have hleast := hr.least_le
  have hfirst : x.significand = f.blockSize := by
    refine le_antisymm ?_ (not_lt.mp fun hlt => hscale (hr.scale_eq hlt))
    have hhalf := h.half_le
    have hlt : (x.significand : ℚ) < (f.blockSize + 1 : ℕ) := by
      push_cast
      linarith
    exact Nat.lt_succ_iff.mp (Nat.cast_lt.mp hlt)
  have hquarter : (f.blockSize : ℚ) - 1 / 4 ≤ (num : ℚ) / den / 2 ^ x.scale := by
    have hlow := h.low
    rw [Dyadic.lowEnd, hr.narrow hfirst (by omega), if_pos rfl, hfirst] at hlow
    rcases hlow with hlow | ⟨-, hlow⟩ <;> linarith
  have hone : (1 : ℚ) ≤ f.blockSize := by exact_mod_cast f.blockSize_pos
  have hbelow := floorLog2_lt_of_steps (f := f) hnum hden _ 0 (by simpa using hsmall)
  have habove := le_floorLog2_of_steps (f := f) hnum hden x.scale (-1) (by norm_num; linarith)
  -- on the finer grid the power of two is the last number of its block
  have htwice : (num : ℚ) / den / 2 ^ (x.scale - 1) = 2 * ((num : ℚ) / den / 2 ^ x.scale) := by
    rw [zpow_sub_one₀ (by norm_num)]
    field_simp
  have hden' : 0 < den * Nat.pow 2 (x.scale - 1).toNat :=
    Nat.mul_pos hden (Nat.pow_pos (by decide))
  refine nearest_of_scale f (2 * f.blockSize) (x.scale - 1) hnum (by omega)
    (halfEven_eq hden' ?_ ?_) ?_ hfinite
  · rw [cast_scaled, htwice]
    push_cast
    rcases lt_or_eq_of_le hquarter with hlt | heq
    · exact .inl (by linarith)
    · exact .inr ⟨by omega, by linarith⟩
  · rw [cast_scaled, htwice]
    push_cast
    exact .inl (by linarith)
  · have hstep : (x.scale - f.leastScale).toNat = (x.scale - 1 - f.leastScale).toNat + 1 := by
      omega
    rw [hr.rung_eq, hfirst, hstep]
    ring

end Grids

/-- **Rounding inside an interval.**  Every quotient among the reals that round to the number on a
    finite rung is rounded to this rung. -/
theorem nearest_eq (f : Format) {num den rung : ℕ} (hnum : 0 < num) (hden : 0 < den)
    (hfinite : rung < f.infinity)
    (h : (f.rungValue rung).Admits (f.narrowBelow rung) ((num : ℚ) / den)) :
    f.nearest num den = rung := by
  have hr := f.onRung_rungValue rung
  have hleast := hr.least_le
  have hhalf := h.le_half
  -- the quotient can leave the block of the number at the lower end only, where the grid changes
  by_cases hsmall : (num : ℚ) / den / 2 ^ (f.rungValue rung).scale < f.blockSize
  · by_cases hfinest : (f.rungValue rung).scale = f.leastScale
    · have hbelow := floorLog2_lt_of_steps (f := f) hnum hden _ 0 (by simpa using hsmall)
      exact nearest_of_same_grid hnum hden hfinite hr h (by omega)
    · exact nearest_of_finer_grid hnum hden hfinite hr h hfinest hsmall
  · have hlt : ((f.rungValue rung).significand : ℚ) + 1 ≤ 2 * f.blockSize := by
      exact_mod_cast hr.lt_double
    have habove := le_floorLog2_of_steps (f := f) hnum hden _ 0 (by simpa using hsmall)
    have hbelow := floorLog2_lt_of_steps (f := f) hnum hden (f.rungValue rung).scale 1
      (by norm_num; linarith)
    exact nearest_of_same_grid hnum hden hfinite hr h (by omega)

end Format

/-! ## §4. The decimal of a float -/

namespace Decimal

/-- Zeros at the end of the digits do not count. -/
theorem value_strip (d : Decimal) : d.strip.value = d.value := by
  have hgo : ∀ (rounds : ℕ) (d : Decimal), (strip.go rounds d).value = d.value := by
    intro rounds
    induction rounds with
    | zero => exact fun d => rfl
    | succ rounds ih =>
      intro d
      rw [strip.go]
      split
      next hzero =>
        rw [ih]
        have hdigits : d.digits = 10 * (d.digits / 10) := by
          have hmod : d.digits % 10 = 0 := by
            simp only [Bool.and_eq_true, decide_eq_true_eq] at hzero
            exact hzero.1
          omega
        show ((d.digits / 10 : ℕ) : ℚ) * 10 ^ (d.exponent + 1) = d.digits * 10 ^ d.exponent
        rw [zpow_add_one₀ (by norm_num)]
        nth_rewrite 2 [hdigits]
        push_cast
        ring
      next => rfl
  exact hgo _ d

/-- A decimal as it is spelt in positional form, with a zero behind the point where there is no
    other digit. -/
def spelt (d : Decimal) : Decimal :=
  if 0 ≤ d.exponent then ⟨d.digits * 10 ^ (d.exponent.toNat + 1), -1⟩ else d

/-- Nor does a zero behind the point. -/
theorem value_spelt (d : Decimal) : d.spelt.value = d.value := by
  rw [spelt]
  split
  next hwhole =>
    obtain ⟨count, hcount⟩ := Int.eq_ofNat_of_zero_le hwhole
    rw [value, value, hcount, Int.toNat_natCast, pow_succ, zpow_natCast]
    push_cast
    field_simp
  next => rfl

end Decimal

namespace Format.Dyadic

/-- What is found on a grid reads back. -/
theorem readsBack_of_onGrid {x : Dyadic} {narrow : Bool} {tie : Tie} {e : ℤ} {d : Decimal}
    (h : x.onGrid narrow tie e = some d) : d.readsBack x narrow = true := by
  unfold onGrid at h
  simp only at h
  split at h
  next => cases h
  next hlower _ => cases h; exact hlower
  next _ hupper => cases h; exact hupper
  next hlower hupper =>
    split at h
    next => cases h; exact hlower
    next => cases h; exact hupper
    next =>
      cases tie with
      | up => cases h; exact hupper
      | toEven =>
        simp only [Option.some.injEq] at h
        subst h
        split
        · exact hlower
        · exact hupper

/-- The exact decimal of a number has its value. -/
theorem value_exact (x : Dyadic) : x.exact.value = x.value := by
  obtain ⟨significand, scale⟩ := x
  rw [exact, Decimal.value, value]
  cases scale with
  | ofNat n =>
    simp
  | negSucc n =>
    have hmin : min (Int.negSucc n) 0 = Int.negSucc n := min_eq_left (Int.negSucc_lt_zero n).le
    have hten : (10 : ℚ) ^ (n + 1) = 2 ^ (n + 1) * 5 ^ (n + 1) := by
      rw [← mul_pow]
      norm_num
    have hneg : (-Int.negSucc n).toNat = n + 1 := rfl
    simp only [hmin, hneg, zpow_negSucc, hten, Int.toNat_negSucc, Nat.pow_eq]
    push_cast
    field_simp

end Format.Dyadic

theorem Format.OnRung.significand_pos {f : Format} {rung : ℕ} {x : Format.Dyadic}
    (h : f.OnRung rung x) (hrung : rung ≠ 0) : 0 < x.significand := by
  by_contra hzero
  have hsignificand : x.significand = 0 := by omega
  have hscale := h.scale_eq (by rw [hsignificand]; exact f.blockSize_pos)
  apply hrung
  rw [h.rung_eq, hscale, hsignificand]
  simp

namespace Binary32

variable {x : Binary32}

/-- **The decimal of a float is one of the reals that round to it.** -/
theorem admits_shortest (hzero : x.isZero = false) (tie : Tie) :
    x.magnitude.Admits (Format.binary32.narrowBelow x.rung.val) (x.shortest tie).value := by
  have hrung : x.rung.val ≠ 0 := by simpa [isZero] using hzero
  have hpos : 0 < x.magnitude.significand :=
    (Format.binary32.onRung_rungValue x.rung.val).significand_pos hrung
  rw [shortest, if_neg (by rw [hzero]; decide)]
  simp only [Decimal.value_strip]
  -- either a grid has a decimal that reads back, or the exact value is written
  cases hfound : List.findSome? (x.magnitude.onGrid (Format.binary32.narrowBelow x.rung.val) tie)
      ((List.range maxDigits).map fun n => x.magnitude.decimalTop - (n + 1 : ℕ)) with
  | none =>
    rw [Option.getD_none, Format.Dyadic.value_exact]
    exact Format.Dyadic.admits_value
  | some d =>
    obtain ⟨e, -, hd⟩ := List.exists_of_findSome?_eq_some hfound
    exact Decimal.admits_of_readsBack hpos (Format.Dyadic.readsBack_of_onGrid hd)

/-- The reals that round to a finite float other than zero keep some distance from zero and from
    infinity. -/
theorem range_of_admits (hfinite : x.isFinite = true) (hzero : x.isZero = false) {v : ℚ}
    (h : x.magnitude.Admits (Format.binary32.narrowBelow x.rung.val) v) :
    (2 : ℚ) ^ (-200 : ℤ) ≤ v ∧ v < 2 ^ (200 : ℤ) := by
  have hr := Format.binary32.onRung_rungValue x.rung.val
  have hrung : x.rung.val ≠ 0 := by simpa [isZero] using hzero
  have hpos : 0 < x.magnitude.significand := hr.significand_pos hrung
  have hlarge : x.rung.val < 255 * 8388608 := of_decide_eq_true hfinite
  have hlow := h.half_le
  have hhigh := h.le_half
  have hblocks : x.rung.val = (x.magnitude.scale - -149).toNat * 8388608 +
    x.magnitude.significand := hr.rung_eq
  have hleast : (-149 : ℤ) ≤ x.magnitude.scale := hr.least_le
  have hdouble : x.magnitude.significand < 2 * 8388608 := hr.lt_double
  -- a finite value has a scale from -149 to 105 and at most 24 bits above it
  have hscale : x.magnitude.scale ≤ 105 := by omega
  have hone : (1 : ℚ) ≤ x.magnitude.significand := by exact_mod_cast hpos
  have hmost : (x.magnitude.significand : ℚ) < 2 * 8388608 := by exact_mod_cast hdouble
  have hv : v = v / 2 ^ x.magnitude.scale * 2 ^ x.magnitude.scale :=
    (div_mul_cancel₀ _ (Format.Dyadic.two_zpow_pos _).ne').symm
  constructor
  · calc (2 : ℚ) ^ (-200 : ℤ) ≤ 2 ^ (-1 + x.magnitude.scale) :=
          zpow_le_zpow_right₀ (by norm_num) (by omega)
      _ = 2⁻¹ * 2 ^ x.magnitude.scale := by rw [zpow_add₀ (by norm_num), zpow_neg_one]
      _ ≤ v / 2 ^ x.magnitude.scale * 2 ^ x.magnitude.scale :=
          mul_le_mul_of_nonneg_right (by linarith) (Format.Dyadic.two_zpow_pos _).le
      _ = v := hv.symm
  · calc v = v / 2 ^ x.magnitude.scale * 2 ^ x.magnitude.scale := hv
      _ < 2 ^ (25 : ℤ) * 2 ^ x.magnitude.scale :=
          mul_lt_mul_of_pos_right (by norm_num; linarith) (Format.Dyadic.two_zpow_pos _)
      _ = 2 ^ (25 + x.magnitude.scale) := (zpow_add₀ (by norm_num) _ _).symm
      _ ≤ 2 ^ (200 : ℤ) := zpow_le_zpow_right₀ (by norm_num) (by omega)

/-- The powers of ten next to a number are those of its first digit. -/
theorem tenth_bounds {digits : ℕ} (hdigits : 0 < digits) :
    (10 : ℚ) ^ ((Format.digitCount digits : ℤ) - 1) ≤ digits ∧
      (digits : ℚ) < 10 ^ (Format.digitCount digits : ℤ) := by
  have hcount : 0 < Format.digitCount digits := Nat.length_toDigits_pos
  constructor
  · obtain ⟨count, hsucc⟩ := Nat.exists_eq_succ_of_ne_zero hcount.ne'
    have hle : 10 ^ count ≤ digits := by
      by_contra hlt
      rcases Nat.eq_zero_or_pos count with rfl | hpos
      · omega
      · have hshort := (Nat.length_toDigits_le_iff (by decide) hpos).mpr (not_le.mp hlt)
        have hlong : (Nat.toDigits 10 digits).length = count + 1 := hsucc
        omega
    rw [hsucc, Nat.cast_succ, add_sub_cancel_right, zpow_natCast]
    exact_mod_cast hle
  · have hlt := (Nat.length_toDigits_le_iff (b := 10) (n := digits) (by decide) hcount).mp
      (le_refl _)
    rw [zpow_natCast]
    exact_mod_cast hlt

/-- The first digit of a decimal that is neither tiny nor huge stands within the reach of all
    formats. -/
theorem reach_of_range {digits : ℕ} (exponent : ℤ) (hdigits : 0 < digits)
    (hlow : (2 : ℚ) ^ (-200 : ℤ) ≤ digits * 10 ^ exponent)
    (hhigh : (digits : ℚ) * 10 ^ exponent < 2 ^ (200 : ℤ)) :
    -200 < exponent + Format.digitCount digits ∧ exponent + Format.digitCount digits < 201 := by
  -- the number of digits bounds the digits by powers of ten
  obtain ⟨htenthLow, htenthHigh⟩ := tenth_bounds hdigits
  have hten : ∀ i : ℤ, (0 : ℚ) < 10 ^ i := zpow_pos (by norm_num)
  constructor
  · have hlt : (10 : ℚ) ^ (-200 : ℤ) < 10 ^ ((Format.digitCount digits : ℤ) + exponent) := by
      calc (10 : ℚ) ^ (-200 : ℤ) ≤ 2 ^ (-200 : ℤ) := by
            rw [zpow_neg, zpow_neg]
            exact inv_anti₀ (Format.Dyadic.two_zpow_pos 200)
              (zpow_le_zpow_left₀ (by norm_num) (by norm_num) (by norm_num))
        _ ≤ digits * 10 ^ exponent := hlow
        _ < 10 ^ (Format.digitCount digits : ℤ) * 10 ^ exponent :=
            mul_lt_mul_of_pos_right htenthHigh (hten _)
        _ = 10 ^ ((Format.digitCount digits : ℤ) + exponent) := (zpow_add₀ (by norm_num) _ _).symm
    have hexponents := (zpow_lt_zpow_iff_right₀ (by norm_num)).mp hlt
    omega
  · have hlt : (10 : ℚ) ^ ((Format.digitCount digits : ℤ) - 1 + exponent) < 10 ^ (200 : ℤ) := by
      calc (10 : ℚ) ^ ((Format.digitCount digits : ℤ) - 1 + exponent)
          = 10 ^ ((Format.digitCount digits : ℤ) - 1) * 10 ^ exponent := zpow_add₀ (by norm_num) _ _
        _ ≤ digits * 10 ^ exponent := mul_le_mul_of_nonneg_right htenthLow (hten _).le
        _ < 2 ^ (200 : ℤ) := hhigh
        _ ≤ 10 ^ (200 : ℤ) := zpow_le_zpow_left₀ (by norm_num) (by norm_num) (by norm_num)
    have hexponents := (zpow_lt_zpow_iff_right₀ (by norm_num)).mp hlt
    omega

/-- Decimals with the value of the decimal of a float other than zero round to the float. -/
theorem ofDecimal_of_not_isZero (hfinite : x.isFinite = true) (hzero : x.isZero = false) {tie : Tie}
    {digits : ℕ} {exponent : ℤ}
    (h : (⟨digits, exponent⟩ : Decimal).value = (x.shortest tie).value) :
    ofDecimal x.negative digits exponent = x := by
  have hadmits := admits_shortest hzero tie
  rw [← h] at hadmits
  obtain ⟨hlow, hhigh⟩ := range_of_admits hfinite hzero hadmits
  rw [Decimal.value] at hlow hhigh
  have hdigits : digits ≠ 0 := by
    rintro rfl
    have hpos := Format.Dyadic.two_zpow_pos (-200)
    simp only [Nat.cast_zero, zero_mul] at hlow
    linarith
  obtain ⟨hbottom, htop⟩ :=
    reach_of_range exponent (Nat.pos_of_ne_zero hdigits) hlow hhigh
  have hpower : (10 : ℚ) ^ exponent = _ := zpow_eq_quotient 10 exponent
  have hvalue : ((digits * Nat.pow 10 exponent.toNat : ℕ) : ℚ) /
      (Nat.pow 10 (-exponent).toNat : ℕ) = (⟨digits, exponent⟩ : Decimal).value := by
    rw [Decimal.value, hpower]
    push_cast
    ring
  -- the quotient that is rounded is the value of the decimal, which the float admits
  have hnearest : Format.binary32.nearest (digits * Nat.pow 10 exponent.toNat)
      (Nat.pow 10 (-exponent).toNat) = x.rung.val := by
    refine Format.binary32.nearest_eq ?_ (Nat.pow_pos (by decide)) ?_ ?_
    · exact Nat.mul_pos (Nat.pos_of_ne_zero hdigits) (Nat.pow_pos (by decide))
    · exact of_decide_eq_true hfinite
    · rw [hvalue]
      exact hadmits
  have hrung : Format.binary32.ofDecimal digits exponent = x.rung.val := by
    have hreach : Format.decimalReach = 400 := rfl
    rw [Format.ofDecimal]
    simp only [if_neg hdigits]
    rw [if_neg (by omega), if_neg (by omega), hnearest]
  rw [ofDecimal, hrung, ofRung]
  have hlast : min x.rung.val (Nat.pow 2 31 - 1) = x.rung.val :=
    Nat.min_eq_left (Nat.le_sub_one_of_lt x.rung.isLt)
  simp only [hlast]

/-- **Decimals with the value of the decimal of a float round to the float.** -/
theorem ofDecimal_of_shortest (hfinite : x.isFinite = true) {tie : Tie} {digits : ℕ} {exponent : ℤ}
    (h : (⟨digits, exponent⟩ : Decimal).value = (x.shortest tie).value) :
    ofDecimal x.negative digits exponent = x := by
  by_cases hzero : x.isZero = true
  · rw [shortest, if_pos hzero, Decimal.value, Decimal.value, Nat.cast_zero, zero_mul, mul_eq_zero,
      Nat.cast_eq_zero] at h
    have hdigits : digits = 0 := h.resolve_right (zpow_pos (by norm_num) _).ne'
    have hrung : x.rung.val = 0 := by simpa [isZero] using hzero
    have hfirst : x.rung = ⟨0, by decide⟩ := Fin.ext hrung
    obtain ⟨negative, rung⟩ := x
    cases hfirst
    subst hdigits
    rfl
  · exact ofDecimal_of_not_isZero hfinite (by simpa using hzero) h

/-- Only zero is written without digits. -/
theorem digits_shortest_ne_zero (hfinite : x.isFinite = true) (hzero : x.isZero = false)
    (tie : Tie) : (x.shortest tie).digits ≠ 0 := by
  intro hdigits
  have hvalue : (⟨0, 0⟩ : Decimal).value = (x.shortest tie).value := by
    rw [Decimal.value, Decimal.value, hdigits]
    simp
  -- no digits round to zero
  rw [← ofDecimal_of_shortest hfinite hvalue] at hzero
  cases hzero

end Binary32

end ShaderFlow
