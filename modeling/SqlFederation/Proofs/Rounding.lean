import Mathlib
import SqlFederation.Json.Basic

/-!
# Rounding keeps the order

The 63 bits of a number below its sign count the numbers from zero on, so finite numbers are in the
order of their signed places (`Binary64.compare?_eq_place`): the value of a place grows with it
(`Binary64.strictMono_units`). Rounding a quotient to the nearest number is monotone
(`Binary64.nearest_mono`): the exponent of the last place grows with the quotient, for one exponent
the mantissa does, and a mantissa that is rounded up to the next power of two is the least one of
the next exponent. So integers keep their order when they are rounded
(`Binary64.place_ofInt_mono`), without staying distinct.
-/

namespace SqlFederation

namespace Binary64

/-! ## The nearest integer -/

/-- The nearest integer to a quotient grows with the quotient. -/
theorem roundHalfEven_mono {num den num' den' : Nat} (hden : 0 < den) (hden' : 0 < den')
    (h : num * den' ≤ num' * den) : roundHalfEven num den ≤ roundHalfEven num' den' := by
  have hdiv := Nat.div_add_mod num den
  have hdiv' := Nat.div_add_mod num' den'
  have hmod := Nat.mod_lt num hden
  have hmod' := Nat.mod_lt num' hden'
  have hquotient : num / den ≤ num' / den' := by
    rw [Nat.le_div_iff_mul_le hden']
    have hfloor := Nat.div_mul_le_self num den
    nlinarith
  obtain hlt | heq := Nat.lt_or_eq_of_le hquotient
  · unfold roundHalfEven
    grind
  · -- The quotients have the same whole part, and the fractions are compared.
    have hfraction : num % den * den' ≤ num' % den' * den := by
      rw [← heq] at hdiv'
      nlinarith
    unfold roundHalfEven
    rw [← heq]
    have hstrict : den < 2 * (num % den) → den' < 2 * (num' % den') := by
      intro hup
      nlinarith
    have htie : den ≤ 2 * (num % den) → den' ≤ 2 * (num' % den') := by
      intro hup
      nlinarith
    grind

theorem roundHalfEven_one (num : Nat) : roundHalfEven num 1 = num := by
  simp [roundHalfEven, Nat.mod_one]

theorem roundHalfEven_le {num den n : Nat} (hden : 0 < den) (h : num ≤ n * den) :
    roundHalfEven num den ≤ n := by
  have hmono := roundHalfEven_mono hden Nat.one_pos ((Nat.mul_one num).trans_le h)
  rwa [roundHalfEven_one] at hmono

theorem le_roundHalfEven {num den n : Nat} (hden : 0 < den) (h : n * den ≤ num) :
    n ≤ roundHalfEven num den := by
  have hmono := roundHalfEven_mono Nat.one_pos hden (h.trans_eq (Nat.mul_one num).symm)
  rwa [roundHalfEven_one] at hmono

/-! ## The exponent of the last place -/

/-- The exponent of the last place of the number nearest to a quotient. -/
def lastPlace (num den : Nat) : Int :=
  let lead : Int := num.log2 - den.log2
  max (-1074) (if ratioBelow 2 num den lead then lead - 53 else lead - 52)

theorem power_pos (e : Int) : 0 < power 2 e :=
  Nat.pow_pos (by decide)

theorem power_mul_power (d e : Int) :
    power 2 d * power 2 e = Nat.pow 2 (d.toNat + e.toNat) :=
  (Nat.pow_add 2 _ _).symm

/-- A power of two of any sign is a quotient of whole powers. -/
theorem power_div_power (e : Int) : (power 2 e : ℚ) / power 2 (-e) = (2 : ℚ) ^ e := by
  unfold power
  obtain ⟨n, rfl | rfl⟩ := e.eq_nat_or_neg
  · simp
  · simp

variable {num den num' den' : Nat}

theorem ratioBelow_iff (hden : 0 < den) (e : Int) :
    ratioBelow 2 num den e = true ↔ (num : ℚ) / den < (2 : ℚ) ^ e := by
  have hpos : (0 : ℚ) < power 2 (-e) := by exact_mod_cast power_pos _
  have hden' : (0 : ℚ) < den := by exact_mod_cast hden
  rw [ratioBelow, decide_eq_true_iff, ← power_div_power, div_lt_div_iff₀ hden' hpos]
  rw [mul_comm (power 2 e : ℚ) (den : ℚ)]
  exact_mod_cast Iff.rfl

/-- A quotient lies between the powers of two by its leading bits. -/
theorem log2_bounds (hnum : 0 < num) (hden : 0 < den) :
    (2 : ℚ) ^ ((num.log2 : Int) - den.log2 - 1) < (num : ℚ) / den ∧
      (num : ℚ) / den < (2 : ℚ) ^ ((num.log2 : Int) - den.log2 + 1) := by
  have hbounds : ∀ n : Nat, 0 < n →
      (2 : ℚ) ^ (n.log2 : Int) ≤ n ∧ (n : ℚ) < (2 : ℚ) ^ ((n.log2 : Int) + 1) := by
    intro n hn
    have hlow := Nat.log2_self_le hn.ne'
    have hhigh := Nat.lt_log2_self (n := n)
    exact_mod_cast And.intro hlow hhigh
  obtain ⟨hnlow, hnhigh⟩ := hbounds num hnum
  obtain ⟨hdlow, hdhigh⟩ := hbounds den hden
  have hnum' : (0 : ℚ) < num := by exact_mod_cast hnum
  have hden' : (0 : ℚ) < den := by exact_mod_cast hden
  have hpow : ∀ e : Int, (0 : ℚ) < (2 : ℚ) ^ e := fun e => zpow_pos (by norm_num) e
  constructor
  · calc (2 : ℚ) ^ ((num.log2 : Int) - den.log2 - 1)
        = (2 : ℚ) ^ (num.log2 : Int) / (2 : ℚ) ^ ((den.log2 : Int) + 1) := by
          rw [← zpow_sub₀ (by norm_num), sub_sub]
      _ ≤ num / (2 : ℚ) ^ ((den.log2 : Int) + 1) := by
          have := hpow ((den.log2 : Int) + 1)
          gcongr
      _ < num / den := by gcongr
  · calc (num : ℚ) / den < (2 : ℚ) ^ ((num.log2 : Int) + 1) / den := by gcongr
      _ ≤ (2 : ℚ) ^ ((num.log2 : Int) + 1) / (2 : ℚ) ^ (den.log2 : Int) := by
          have := hpow (den.log2 : Int)
          have := hpow ((num.log2 : Int) + 1)
          gcongr
      _ = (2 : ℚ) ^ ((num.log2 : Int) - den.log2 + 1) := by
          rw [← zpow_sub₀ (by norm_num)]
          congr 1
          ring

/-- A quotient has at most 53 bits above its last place, and not fewer unless that is the lowest. -/
theorem lastPlace_spec (hnum : 0 < num) (hden : 0 < den) :
    (num : ℚ) / den < (2 : ℚ) ^ (lastPlace num den + 53) ∧
      (lastPlace num den = -1074 ∨ (2 : ℚ) ^ (lastPlace num den + 52) ≤ (num : ℚ) / den) := by
  obtain ⟨hlow, hhigh⟩ := log2_bounds hnum hden
  have hmono : ∀ {d e : Int}, d ≤ e → (2 : ℚ) ^ d ≤ (2 : ℚ) ^ e := fun hde =>
    zpow_le_zpow_right₀ (by norm_num) hde
  have hbelow : ratioBelow 2 num den ((num.log2 : Int) - den.log2) = true ↔
      (num : ℚ) / den < (2 : ℚ) ^ ((num.log2 : Int) - den.log2) := ratioBelow_iff hden _
  unfold lastPlace
  simp only
  generalize (num.log2 : Int) - den.log2 = lead at *
  split
  · rename_i h
    have hlt := hbelow.mp h
    constructor
    · exact hlt.trans_le (hmono (by omega))
    · rcases max_choice (-1074 : Int) (lead - 53) with hmax | hmax
      · exact Or.inl hmax
      · rw [hmax]
        exact Or.inr ((hmono (by omega)).trans hlow.le)
  · rename_i h
    have hle := not_lt.mp fun hlt => h (hbelow.mpr hlt)
    constructor
    · exact hhigh.trans_le (hmono (by omega))
    · rcases max_choice (-1074 : Int) (lead - 52) with hmax | hmax
      · exact Or.inl hmax
      · rw [hmax]
        exact Or.inr ((hmono (by omega)).trans hle)

theorem lowest_le_lastPlace (num den : Nat) : -1074 ≤ lastPlace num den :=
  le_max_left _ _

/-- What is above a quotient other than zero is not zero. -/
theorem num_pos_of_le (hnum : 0 < num) (hden' : 0 < den') (h : num * den' ≤ num' * den) :
    0 < num' := by
  refine Nat.pos_of_ne_zero fun hzero => ?_
  rw [hzero, Nat.zero_mul] at h
  exact absurd (Nat.mul_pos hnum hden') (Nat.not_lt.mpr h)

/-- The exponent of the last place grows with the quotient. -/
theorem lastPlace_mono (hnum : 0 < num) (hden : 0 < den) (hden' : 0 < den')
    (h : num * den' ≤ num' * den) : lastPlace num den ≤ lastPlace num' den' := by
  have hnum' := num_pos_of_le hnum hden' h
  have hle : (num : ℚ) / den ≤ (num' : ℚ) / den' := by
    rw [div_le_div_iff₀ (by exact_mod_cast hden) (by exact_mod_cast hden')]
    exact_mod_cast h
  obtain ⟨-, hlow⟩ := lastPlace_spec hnum hden
  obtain ⟨hhigh', -⟩ := lastPlace_spec hnum' hden'
  by_contra hlt
  have hlowest := lowest_le_lastPlace num' den'
  obtain hlow | hlow := hlow
  · omega
  · have hlt' := (hlow.trans hle).trans_lt hhigh'
    have hexponents := (zpow_lt_zpow_iff_right₀ (by norm_num : (1 : ℚ) < 2)).mp hlt'
    omega

/-! ## The nearest number -/

/-- The mantissa of the number nearest to a quotient; it may be rounded up to `2 ^ 53`. -/
def nearestMantissa (num den : Nat) : Nat :=
  roundHalfEven (num * power 2 (-lastPlace num den)) (den * power 2 (lastPlace num den))

/-- The place of the number nearest to a quotient, counted from zero on. -/
def nearest (num den : Nat) : Nat :=
  if num = 0 then 0 else (lastPlace num den + 1074).toNat * hiddenBit + nearestMantissa num den

/-- Rounding a quotient takes the nearest number, or the infinity behind all of them. -/
theorem ofRatio_eq (negative : Bool) (num den : Nat) :
    ofRatio negative num den =
      ofMagnitude negative (min (nearest num den) (2047 * hiddenBit)) := by
  unfold ofRatio nearest
  split
  · rfl
  · show (if 2047 * hiddenBit ≤ (lastPlace num den + 1074).toNat * hiddenBit +
        nearestMantissa num den then infinity negative
      else ofMagnitude negative ((lastPlace num den + 1074).toNat * hiddenBit +
        nearestMantissa num den)) = _
    split
    · rename_i h
      rw [min_eq_right h]
      rfl
    · rename_i h
      rw [min_eq_left (Nat.le_of_not_le h)]

/-- The mantissa is rounded from the quotient over its last place. -/
theorem scaled_div (num den : Nat) (e : Int) :
    ((num * power 2 (-e) : Nat) : ℚ) / (den * power 2 e : Nat) = (num : ℚ) / den / (2 : ℚ) ^ e := by
  rw [← power_div_power, div_div_div_eq]
  push_cast
  rfl

theorem nearestMantissa_le (hnum : 0 < num) (hden : 0 < den) :
    nearestMantissa num den ≤ 2 * hiddenBit := by
  obtain ⟨hhigh, -⟩ := lastPlace_spec hnum hden
  have hscaled := scaled_div num den (lastPlace num den)
  have hpos : 0 < den * power 2 (lastPlace num den) := Nat.mul_pos hden (power_pos _)
  rw [zpow_add₀ (by norm_num), ← div_lt_iff₀' (zpow_pos (by norm_num) _), ← hscaled,
    div_lt_iff₀ (by exact_mod_cast hpos)] at hhigh
  refine roundHalfEven_le hpos (le_of_lt ?_)
  have hbits : (2 : ℚ) ^ (53 : Int) = (2 * hiddenBit : Nat) := by norm_num [hiddenBit]
  rw [hbits] at hhigh
  exact_mod_cast hhigh

theorem le_nearestMantissa (hnum : 0 < num) (hden : 0 < den)
    (h : -1074 < lastPlace num den) : hiddenBit ≤ nearestMantissa num den := by
  obtain ⟨-, hlow⟩ := lastPlace_spec hnum hden
  have hlow := hlow.resolve_left h.ne'
  have hscaled := scaled_div num den (lastPlace num den)
  have hpos : 0 < den * power 2 (lastPlace num den) := Nat.mul_pos hden (power_pos _)
  rw [zpow_add₀ (by norm_num), ← le_div_iff₀' (zpow_pos (by norm_num) _), ← hscaled,
    le_div_iff₀ (by exact_mod_cast hpos)] at hlow
  refine le_roundHalfEven hpos ?_
  have hbits : (2 : ℚ) ^ (52 : Int) = (hiddenBit : Nat) := by norm_num [hiddenBit]
  rw [hbits] at hlow
  exact_mod_cast hlow

/-- Rounding keeps the order of quotients. -/
theorem nearest_mono (hden : 0 < den) (hden' : 0 < den') (h : num * den' ≤ num' * den) :
    nearest num den ≤ nearest num' den' := by
  obtain rfl | hnum := Nat.eq_zero_or_pos num
  · exact Nat.zero_le _
  have hnum' := num_pos_of_le hnum hden' h
  have hexponents := lastPlace_mono hnum hden hden' h
  have hlowest := lowest_le_lastPlace num den
  rw [nearest, nearest, if_neg hnum.ne', if_neg hnum'.ne']
  obtain hlt | heq := Int.lt_or_eq_of_le hexponents
  · -- A mantissa that is rounded up is not above the least one of a greater exponent.
    have hlower := nearestMantissa_le hnum hden
    have hupper := le_nearestMantissa hnum' hden' (hlowest.trans_lt hlt)
    have hnext : (lastPlace num den + 1074).toNat + 1 ≤ (lastPlace num' den' + 1074).toNat := by
      omega
    have hscaled := Nat.mul_le_mul_right hiddenBit hnext
    rw [Nat.succ_mul] at hscaled
    omega
  · rw [heq]
    refine Nat.add_le_add_left ?_ _
    unfold nearestMantissa
    rw [heq]
    refine roundHalfEven_mono (Nat.mul_pos hden (power_pos _)) (Nat.mul_pos hden' (power_pos _)) ?_
    calc num * power 2 (-lastPlace num' den') * (den' * power 2 (lastPlace num' den'))
        = num * den' * (power 2 (-lastPlace num' den') * power 2 (lastPlace num' den')) := by ring
      _ ≤ num' * den * (power 2 (-lastPlace num' den') * power 2 (lastPlace num' den')) :=
          Nat.mul_le_mul_right _ h
      _ = num' * power 2 (-lastPlace num' den') * (den * power 2 (lastPlace num' den')) := by ring

/-! ## The places of numbers -/

/-- The place of a number among those of its sign, counted from zero on. -/
def magnitude (x : Binary64) : Nat := x.bits.toNat % signBit

/-- The place of a number among all numbers. The zeros are in one place. -/
def place (x : Binary64) : Int := signed x.negative x.magnitude

theorem magnitude_ofMagnitude (negative : Bool) {m : Nat} (h : m < signBit) :
    (ofMagnitude negative m).magnitude = m := by
  unfold magnitude ofMagnitude
  unfold signBit at h ⊢
  rw [UInt64.toNat_ofNat']
  cases negative with
  | true => simp only [if_true]; omega
  | false => simp only [Bool.false_eq_true, if_false]; omega

theorem negative_ofMagnitude (negative : Bool) {m : Nat} (h : m < signBit) :
    (ofMagnitude negative m).negative = negative := by
  unfold Binary64.negative ofMagnitude
  unfold signBit at h ⊢
  rw [UInt64.toNat_ofNat']
  cases negative with
  | true => simp only [if_true]; rw [decide_eq_true_iff]; omega
  | false => simp only [Bool.false_eq_true, if_false]; rw [decide_eq_false_iff_not]; omega

/-- The value of the number in a place, in steps of the least number above zero. -/
def units (m : Nat) : Nat :=
  if m < hiddenBit then m else (hiddenBit + m % hiddenBit) * 2 ^ (m / hiddenBit - 1)

/-- Values grow with their places. -/
theorem strictMono_units : StrictMono units := by
  refine strictMono_nat_of_lt_succ fun m => ?_
  unfold units hiddenBit
  have hpos : 0 < 2 ^ (m / 4503599627370496 - 1) := Nat.pow_pos (by decide)
  by_cases hsmall : m < 4503599627370496
  · rw [if_pos hsmall]
    split
    · omega
    · -- The first number with a hidden bit.
      have hdiv : (m + 1) / 4503599627370496 = 1 := by omega
      rw [hdiv]
      omega
  · rw [if_neg hsmall, if_neg (by omega)]
    by_cases hlast : m % 4503599627370496 + 1 = 4503599627370496
    · -- The next number has an exponent that is greater by one.
      have hdiv : (m + 1) / 4503599627370496 - 1 = (m / 4503599627370496 - 1) + 1 := by omega
      have hmod : (m + 1) % 4503599627370496 = 0 := by omega
      rw [hdiv, hmod, Nat.pow_succ]
      nlinarith
    · have hdiv : (m + 1) / 4503599627370496 = m / 4503599627370496 := by omega
      have hmod : (m + 1) % 4503599627370496 = m % 4503599627370496 + 1 := by omega
      rw [hdiv, hmod]
      exact Nat.mul_lt_mul_of_pos_right (by omega) hpos

theorem magnitude_lt (x : Binary64) : x.magnitude < 2048 * hiddenBit :=
  Nat.mod_lt _ (by decide)

/-- The bits below the sign are read apart from it. -/
theorem read_eq (x : Binary64) :
    x.read =
      if x.magnitude / hiddenBit = 2047 then
        if x.magnitude % hiddenBit = 0 then .infinite x.negative else .notANumber
      else if x.magnitude / hiddenBit = 0 then
        .finite x.negative (x.magnitude % hiddenBit) (-1074)
      else
        .finite x.negative (hiddenBit + x.magnitude % hiddenBit)
          ((x.magnitude / hiddenBit : Nat) - 1075) := by
  have hfield : x.magnitude / hiddenBit = x.bits.toNat / hiddenBit % 2048 := by
    unfold magnitude signBit hiddenBit
    omega
  have hfraction : x.magnitude % hiddenBit = x.bits.toNat % hiddenBit := by
    unfold magnitude signBit hiddenBit
    omega
  rw [hfield, hfraction]
  rfl

/-- Finite numbers are those in front of the infinity of their sign. -/
theorem isFinite_iff (x : Binary64) : x.isFinite = true ↔ x.magnitude < 2047 * hiddenBit := by
  have hlt := x.magnitude_lt
  have hfield : x.magnitude / hiddenBit = 2047 ↔ ¬x.magnitude < 2047 * hiddenBit := by
    unfold hiddenBit at *
    omega
  rw [isFinite, read_eq]
  by_cases h : x.magnitude / hiddenBit = 2047
  · have hnot : ¬x.magnitude < 2047 * hiddenBit := hfield.mp h
    rw [if_pos h]
    by_cases hzero : x.magnitude % hiddenBit = 0
    · rw [if_pos hzero]
      exact iff_of_false Bool.false_ne_true hnot
    · rw [if_neg hzero]
      exact iff_of_false Bool.false_ne_true hnot
  · have hin : x.magnitude < 2047 * hiddenBit := not_imp_comm.mp hfield.mpr h
    rw [if_neg h]
    by_cases hzero : x.magnitude / hiddenBit = 0
    · rw [if_pos hzero]
      exact iff_of_true rfl hin
    · rw [if_neg hzero]
      exact iff_of_true rfl hin

/-- A finite number reads as its sign and its value. -/
theorem exists_read {x : Binary64} (h : x.isFinite = true) :
    ∃ m e, x.read = .finite x.negative m e ∧ -1074 ≤ e ∧
      m * power 2 (e + 1074) = units x.magnitude := by
  rw [isFinite_iff] at h
  have hfield : ¬x.magnitude / hiddenBit = 2047 := by
    unfold hiddenBit at *
    omega
  rw [read_eq, if_neg hfield]
  unfold units
  by_cases hzero : x.magnitude / hiddenBit = 0
  · have hsmall : x.magnitude < hiddenBit := by
      unfold hiddenBit at *
      omega
    rw [if_pos hzero, if_pos hsmall, Nat.mod_eq_of_lt hsmall]
    exact ⟨_, _, rfl, le_refl _, by simp [power]⟩
  · have hlarge : ¬x.magnitude < hiddenBit := by
      unfold hiddenBit at *
      omega
    rw [if_neg hzero, if_neg hlarge]
    have hfirst := Nat.one_le_iff_ne_zero.mpr hzero
    generalize hexponent : x.magnitude / hiddenBit = field at hfirst ⊢
    refine ⟨_, _, rfl, by omega, ?_⟩
    have hpower : ((field : Int) - 1075 + 1074).toNat = field - 1 := by omega
    rw [power, hpower]
    rfl

theorem compare_strictMono {f : Int → Int} (hf : StrictMono f) (a b : Int) :
    compare (f a) (f b) = compare a b := by
  rw [← cmp_eq_compare, ← cmp_eq_compare, hf.cmp_map_eq]

/-- Values over the lower of two last places are values in steps of the least number. -/
theorem power_sub_mul {d e : Int} (hd : -1074 ≤ d) (he : -1074 ≤ e) :
    (power 2 (d - e) : Int) * power 2 (min d e + 1074) = power 2 (d + 1074) := by
  have hexponent : (d - e).toNat + (min d e + 1074).toNat = (d + 1074).toNat := by omega
  have hpowers := power_mul_power (d - e) (min d e + 1074)
  rw [hexponent] at hpowers
  exact_mod_cast hpowers

/-- Scaled numbers are compared as their values in steps of the least one. -/
theorem compareScaled_eq (a b : Int) {ea eb : Int} (ha : -1074 ≤ ea) (hb : -1074 ≤ eb) :
    compareScaled a ea b eb =
      compare (a * power 2 (ea + 1074)) (b * power 2 (eb + 1074)) := by
  have hpos : (0 : Int) < power 2 (min ea eb + 1074) := by exact_mod_cast power_pos _
  have hleft := power_sub_mul ha hb
  have hright := power_sub_mul hb ha
  rw [min_comm] at hright
  have hscale : StrictMono fun k : Int => k * power 2 (min ea eb + 1074) :=
    fun _ _ hlt => Int.mul_lt_mul_of_pos_right hlt hpos
  rw [compareScaled, ← compare_strictMono hscale]
  simp only [mul_assoc, hleft, hright]

theorem signed_mul (negative : Bool) (m n : Nat) :
    signed negative m * n = signed negative (m * n) := by
  cases negative with
  | true => simp [signed]
  | false => simp [signed]

/-- The value of the number in a place among all numbers. -/
def signedUnits (place : Int) : Int :=
  if place < 0 then -(units place.natAbs : Int) else units place.natAbs

theorem signed_units (negative : Bool) (m : Nat) :
    signed negative (units m) = signedUnits (signed negative m) := by
  unfold signed signedUnits
  cases negative with
  | false => simp
  | true =>
    obtain rfl | hm := Nat.eq_zero_or_pos m
    · rfl
    · have hneg : -(m : Int) < 0 := by omega
      rw [if_pos rfl, if_pos rfl, if_pos hneg, Int.natAbs_neg, Int.natAbs_natCast]

theorem strictMono_signedUnits : StrictMono signedUnits := by
  intro a b hab
  have hunits : ∀ {m n : Nat}, m < n → (units m : Int) < units n := fun h => by
    exact_mod_cast strictMono_units h
  have hzero : ∀ {m : Nat}, 0 < m → (0 : Int) < units m := fun h => hunits h
  unfold signedUnits
  split
  · rename_i ha
    split
    · exact neg_lt_neg (hunits (by omega))
    · have hpos := hzero (m := a.natAbs) (by omega)
      omega
  · rw [if_neg (by omega)]
    exact hunits (by omega)

/-- Finite numbers are in the order of their places. -/
theorem compare?_eq_place {x y : Binary64} (hx : x.isFinite = true) (hy : y.isFinite = true) :
    compare? x y = some (compare x.place y.place) := by
  obtain ⟨m, e, hread, he, hunits⟩ := exists_read hx
  obtain ⟨m', e', hread', he', hunits'⟩ := exists_read hy
  rw [compare?, hread, hread']
  simp only
  rw [compareScaled_eq _ _ he he', signed_mul, signed_mul, hunits, hunits', signed_units,
    signed_units, compare_strictMono strictMono_signedUnits]
  rfl

/-! ## Rounded integers -/

/-- The bound of all places in a number that is rounded from a quotient. -/
theorem magnitude_ofRatio (negative : Bool) (num den : Nat) :
    (ofRatio negative num den).magnitude = min (nearest num den) (2047 * hiddenBit) := by
  rw [ofRatio_eq]
  refine magnitude_ofMagnitude negative ((min_le_right _ _).trans_lt ?_)
  decide

theorem negative_ofRatio (negative : Bool) (num den : Nat) :
    (ofRatio negative num den).negative = negative := by
  rw [ofRatio_eq]
  refine negative_ofMagnitude negative ((min_le_right _ _).trans_lt ?_)
  decide

theorem magnitude_ofInt_mono {i j : Int} (h : i.natAbs ≤ j.natAbs) :
    (ofInt i).magnitude ≤ (ofInt j).magnitude := by
  rw [ofInt, ofInt, magnitude_ofRatio, magnitude_ofRatio]
  exact min_le_min_right _ (nearest_mono Nat.one_pos Nat.one_pos (by omega))

/-- Rounding keeps the order of integers. -/
theorem place_ofInt_mono {i j : Int} (h : i ≤ j) : (ofInt i).place ≤ (ofInt j).place := by
  have hsign : ∀ k : Int, (ofInt k).negative = decide (k < 0) := fun k => negative_ofRatio _ _ _
  unfold place signed
  rw [hsign, hsign]
  by_cases hi : i < 0
  · by_cases hj : j < 0
    · have hmono := magnitude_ofInt_mono (show j.natAbs ≤ i.natAbs by omega)
      simp only [hi, hj, decide_true, if_true]
      omega
    · simp only [hi, hj, decide_true, decide_false, if_true, Bool.false_eq_true, if_false]
      omega
  · have hj : ¬j < 0 := by omega
    have hmono := magnitude_ofInt_mono (show i.natAbs ≤ j.natAbs by omega)
    simp only [hi, hj, decide_false, Bool.false_eq_true, if_false]
    omega

/-- Integers of 64 bits with or without a sign are rounded to finite numbers. -/
theorem isFinite_ofInt {k : Int} (h : k.natAbs ≤ 18446744073709551616) :
    (ofInt k).isFinite = true := by
  rw [isFinite_iff]
  refine (magnitude_ofInt_mono (j := 18446744073709551616) h).trans_lt ?_
  decide +kernel

/-! ## Sums -/

theorem natAbs_signed (negative : Bool) (m : Nat) : (signed negative m).natAbs = m := by
  cases negative with
  | true => simp [signed]
  | false => simp [signed]

/-- A power is a quotient of powers in steps of the least number. -/
theorem power_mul_lowest {e : Int} (he : -1074 ≤ e) :
    power 2 e * power 2 1074 = power 2 (e + 1074) * power 2 (-e) := by
  have hexponent : e.toNat + (1074 : Int).toNat = (e + 1074).toNat + (-e).toNat := by omega
  rw [power_mul_power, power_mul_power, hexponent]

/-- A sum is rounded to no more than a bound of its exact value is. -/
theorem magnitude_add_le {x y : Binary64} (hx : x.isFinite = true) (hy : y.isFinite = true)
    {bound : Nat} (h : units x.magnitude + units y.magnitude ≤ bound * power 2 1074) :
    (x.add y).magnitude ≤ nearest bound 1 := by
  obtain ⟨m, e, hread, he, hunits⟩ := exists_read hx
  obtain ⟨m', e', hread', he', hunits'⟩ := exists_read hy
  rw [add, hread, hread']
  simp only
  generalize hsum : signed x.negative m * power 2 (e - min e e') +
    signed y.negative m' * power 2 (e' - min e e') = sum
  have hlowest : -1074 ≤ min e e' := le_min he he'
  -- The exact sum in steps of the least number.
  have hexact : sum * power 2 (min e e' + 1074) =
      signed x.negative (units x.magnitude) + signed y.negative (units y.magnitude) := by
    have hleft := power_sub_mul he hlowest
    have hright := power_sub_mul he' hlowest
    rw [min_eq_right (min_le_left e e')] at hleft
    rw [min_eq_right (min_le_right e e')] at hright
    rw [← hsum, add_mul, mul_assoc, mul_assoc, hleft, hright, signed_mul, signed_mul, hunits,
      hunits']
  have hle : sum.natAbs * power 2 (min e e' + 1074) ≤ bound * power 2 1074 := by
    have habs := congrArg Int.natAbs hexact
    rw [Int.natAbs_mul, Int.natAbs_natCast] at habs
    rw [habs]
    refine (Int.natAbs_add_le _ _).trans ?_
    rwa [natAbs_signed, natAbs_signed]
  split
  · rw [zero, magnitude_ofMagnitude _ (by decide)]
    exact Nat.zero_le _
  · rw [ofScaled, magnitude_ofRatio]
    refine (min_le_left _ _).trans (nearest_mono (power_pos _) Nat.one_pos ?_)
    rw [Nat.mul_one]
    refine Nat.le_of_mul_le_mul_right ?_ (power_pos 1074)
    calc sum.natAbs * power 2 (min e e') * power 2 1074
        = sum.natAbs * power 2 (min e e' + 1074) * power 2 (-min e e') := by
          rw [mul_assoc, power_mul_lowest hlowest, mul_assoc]
      _ ≤ bound * power 2 1074 * power 2 (-min e e') := Nat.mul_le_mul_right _ hle
      _ = bound * power 2 (-min e e') * power 2 1074 := by ring

/-- An integer of 64 bits with a sign is rounded to `2 ^ 63` at most. -/
theorem magnitude_ofInt_le {k : Int} (h : k.natAbs ≤ 9223372036854775808) :
    (ofInt k).magnitude ≤ 1086 * hiddenBit :=
  (magnitude_ofInt_mono (j := 9223372036854775808) h).trans (by decide +kernel)

/-- The place of the number `2 ^ 118`. -/
def absorbing : Nat := 1141 * hiddenBit

/-- Next to a number up to `2 ^ 118` an integer of 64 bits is too small to bring the sum above. -/
theorem magnitude_add_ofInt_le {x : Binary64} (hx : x.magnitude ≤ absorbing) {k : Int}
    (hk : k.natAbs ≤ 9223372036854775808) : (x.add (ofInt k)).magnitude ≤ absorbing := by
  have hfinite : x.isFinite = true := (isFinite_iff x).mpr (hx.trans_lt (by decide))
  have hbound : nearest (power 2 118 + power 2 63) 1 ≤ absorbing := by decide +kernel
  refine (magnitude_add_le hfinite (isFinite_ofInt (by omega)) ?_).trans hbound
  calc units x.magnitude + units (ofInt k).magnitude
      ≤ units absorbing + units (1086 * hiddenBit) :=
        Nat.add_le_add (strictMono_units.monotone hx)
          (strictMono_units.monotone (magnitude_ofInt_le hk))
    _ = (power 2 118 + power 2 63) * power 2 1074 := by decide +kernel

end Binary64

end SqlFederation
