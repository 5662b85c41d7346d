import Mathlib
import DistanceField.Number.Double

/-! Doubles through their exact values: the view of a double determines it, and the arithmetic
that keeps a value exact is read off the view. -/
namespace DistanceField.Double

open Float.Model Float.Model.UnpackedFloat

def signOf (negative : Bool) : Sign := if negative then .negative else .positive

theorem packComponents_toNat (s : Sign) (e : BitVec 11) (m : BitVec 52) :
    (packComponents .binary64 s e m).toNat =
      s.toBitVec.toNat * 2 ^ 63 + e.toNat * 2 ^ 52 + m.toNat := by
  unfold packComponents
  rw [BitVec.toNat_append, BitVec.toNat_append, ← Nat.shiftLeft_add_eq_or_of_lt m.isLt,
    ← Nat.shiftLeft_add_eq_or_of_lt e.isLt, Nat.shiftLeft_eq, Nat.shiftLeft_eq]
  ring

theorem unpackMantissa_toNat (b : BitVec 64) :
    (@unpackMantissa .binary64 b).toNat = b.toNat % 2 ^ 52 := by
  simp [unpackMantissa, BitVec.extractLsb, BitVec.extractLsb']

theorem unpackExponent_toNat (b : BitVec 64) :
    (@unpackExponent .binary64 b).toNat = b.toNat / 2 ^ 52 % 2048 := by
  simp [unpackExponent, BitVec.extractLsb, BitVec.extractLsb', Nat.shiftRight_eq_div_pow]

theorem unpackSign_toNat (b : BitVec 64) :
    (@unpackSign .binary64 b).toNat = b.toNat / 2 ^ 63 := by
  have := b.isLt
  simp [unpackSign, BitVec.extractLsb, BitVec.extractLsb', Nat.shiftRight_eq_div_pow]
  omega

def fields (bits : Nat) : View :=
  let negative := bits / 2 ^ 63 == 1
  let field : Nat := bits / 2 ^ 52 % 2048
  let low : Nat := bits % 2 ^ 52
  if field == 2047 then (if low == 0 then .infinite negative else .nan)
  else if field == 0 then .finite negative low (-1074)
  else .finite negative (low + 2 ^ 52) ((field : Int) - 1075)

theorem sign_ofBitVec (b : BitVec 64) :
    Sign.ofBitVec (@unpackSign .binary64 b) = signOf (b.toNat / 2 ^ 63 == 1) := by
  have h := unpackSign_toNat b
  have lt := b.isLt
  have both : b.toNat / 2 ^ 63 = 0 ∨ b.toNat / 2 ^ 63 = 1 := by omega
  rcases both with zero | one
  · have sign : @unpackSign .binary64 b = 0#1 := BitVec.eq_of_toNat_eq (by rw [h, zero]; rfl)
    rw [sign, zero]
    rfl
  · have sign : @unpackSign .binary64 b = 1#1 := BitVec.eq_of_toNat_eq (by rw [h, one]; rfl)
    rw [sign, one]
    rfl

/-- A signed number `m * 2 ^ e`, as the arithmetic of doubles takes it apart. -/
def unpacked (negative : Bool) (m : Nat) (e : Int) : UnpackedFloat :=
  if h : m = 0 then .zero (signOf negative)
  else .finite (signOf negative) m e (Nat.pos_of_ne_zero h)

def View.unpacked : View → UnpackedFloat
  | .nan => .notANumber
  | .infinite negative => .infinity (signOf negative)
  | .finite negative m e => Double.unpacked negative m e

theorem unpack_eq_fields (b : BitVec 64) :
    UnpackedFloat.unpack .binary64 b = (fields b.toNat).unpacked := by
  have hm := unpackMantissa_toNat b
  have he := unpackExponent_toNat b
  have full : (@unpackExponent .binary64 b = -1#11) ↔ b.toNat / 2 ^ 52 % 2048 = 2047 := by
    rw [← BitVec.toNat_inj, he]; rfl
  have least : (@unpackExponent .binary64 b = 0#11) ↔ b.toNat / 2 ^ 52 % 2048 = 0 := by
    rw [← BitVec.toNat_inj, he]; rfl
  have none : (@unpackMantissa .binary64 b = 0#52) ↔ b.toNat % 2 ^ 52 = 0 := by
    rw [← BitVec.toNat_inj, hm]; rfl
  have top : (1#1 ++ @unpackMantissa .binary64 b).toNat = b.toNat % 2 ^ 52 + 2 ^ 52 := by
    rw [BitVec.toNat_append, ← Nat.shiftLeft_add_eq_or_of_lt (BitVec.isLt _), Nat.shiftLeft_eq, hm]
    simp [Nat.add_comm]
  have bias : (Format.binary64.exponentBias : Int) + (52 : Nat) = 1075 := rfl
  unfold UnpackedFloat.unpack fields
  simp only [sign_ofBitVec, he, hm, top, full, least, none, beq_iff_eq, bias]
  split
  · split <;> rfl
  · split
    · split
      · rename_i zero
        simp only [View.unpacked, Double.unpacked, dif_pos zero]
      · rename_i zero
        simp only [View.unpacked, Double.unpacked, dif_neg zero]
        congr 1
        omega
    · have positive : ¬ (b.toNat % 2 ^ 52 + 2 ^ 52 = 0) := by omega
      simp only [View.unpacked, Double.unpacked, dif_neg positive]

/-- The pairs that stand for a double: 53 binary digits, or fewer at the least exponent. -/
structure Fits (m : Nat) (e : Int) : Prop where
  small : m < 2 ^ 53
  least : -1074 ≤ e
  most : e ≤ 971
  full : 2 ^ 52 ≤ m ∨ e = -1074

def signBit (negative : Bool) : Nat := if negative then 2 ^ 63 else 0

def encode (negative : Bool) (m : Nat) (e : Int) : Nat :=
  signBit negative + (if m < 2 ^ 52 then m else (e + 1075).toNat * 2 ^ 52 + (m - 2 ^ 52))

theorem encode_sub {m : Nat} (sub : m < 2 ^ 52) (negative : Bool) (e : Int) :
    encode negative m e = signBit negative + m := by
  rw [encode, if_pos sub]

theorem encode_full {m : Nat} (full : 2 ^ 52 ≤ m) (negative : Bool) (e : Int) :
    encode negative m e = signBit negative + ((e + 1075).toNat * 2 ^ 52 + (m - 2 ^ 52)) := by
  rw [encode, if_neg (Nat.not_lt.mpr full)]

theorem encode_lt {m : Nat} {e : Int} (fits : Fits m e) (negative : Bool) :
    encode negative m e < 2 ^ 64 := by
  obtain ⟨small, least, most, full⟩ := fits
  have sign : signBit negative ≤ 2 ^ 63 := by cases negative <;> decide
  unfold encode
  split <;> omega

theorem signBit_cases (negative : Bool) :
    negative = false ∧ signBit negative = 0 ∨ negative = true ∧ signBit negative = 2 ^ 63 := by
  cases negative
  · exact .inl ⟨rfl, rfl⟩
  · exact .inr ⟨rfl, rfl⟩

theorem sign_toNat (negative : Bool) :
    (signOf negative).toBitVec.toNat * 2 ^ 63 = signBit negative := by
  cases negative <;> rfl

theorem signBit_top {b : Nat} (lt : b < 2 ^ 64) :
    signBit (b / 2 ^ 63 == 1) = b / 2 ^ 63 * 2 ^ 63 := by
  have both : b / 2 ^ 63 = 0 ∨ b / 2 ^ 63 = 1 := by omega
  rcases both with zero | one
  · rw [zero]; rfl
  · rw [one]; rfl

theorem fields_fits {b : Nat} (lt : b < 2 ^ 64) {negative : Bool} {m : Nat} {e : Int}
    (h : fields b = .finite negative m e) : Fits m e ∧ encode negative m e = b := by
  have sign := signBit_top lt
  unfold fields at h
  simp only [beq_iff_eq] at h
  split at h
  · split at h <;> cases h
  · split at h
    · cases h
      refine ⟨⟨by omega, by omega, by omega, .inr rfl⟩, ?_⟩
      rw [encode_sub (by omega), sign]
      omega
    · cases h
      refine ⟨⟨by omega, by omega, by omega, .inl (by omega)⟩, ?_⟩
      rw [encode_full (by omega), sign]
      omega

theorem fields_of_parts {b : Nat} {negative : Bool} {field low : Nat}
    (top : b / 2 ^ 63 * 2 ^ 63 = signBit negative) (mid : b / 2 ^ 52 % 2048 = field)
    (bottom : b % 2 ^ 52 = low) :
    fields b = if field = 2047 then (if low = 0 then .infinite negative else .nan)
      else if field = 0 then .finite negative low (-1074)
      else .finite negative (low + 2 ^ 52) ((field : Int) - 1075) := by
  have sign : (b / 2 ^ 63 == 1) = negative := by
    obtain ⟨rfl, hs⟩ | ⟨rfl, hs⟩ := signBit_cases negative
    · rw [beq_eq_false_iff_ne]
      omega
    · rw [beq_iff_eq]
      omega
  simp only [fields, sign, mid, bottom, beq_iff_eq]

theorem fields_encode {m : Nat} {e : Int} (fits : Fits m e) (negative : Bool) :
    fields (encode negative m e) = .finite negative m e := by
  obtain ⟨small, least, most, full⟩ := fits
  have sign : signBit negative = 0 ∨ signBit negative = 2 ^ 63 :=
    (signBit_cases negative).imp And.right And.right
  by_cases sub : m < 2 ^ 52
  · have he : e = -1074 := by omega
    have parts := @fields_of_parts (signBit negative + m) negative 0 m (by omega) (by omega)
      (by omega)
    rw [encode_sub sub, parts, he]
    rfl
  · have parts := @fields_of_parts (signBit negative + ((e + 1075).toNat * 2 ^ 52 + (m - 2 ^ 52)))
      negative (e + 1075).toNat (m - 2 ^ 52) (by omega) (by omega) (by omega)
    have back : m - 2 ^ 52 + 2 ^ 52 = m := by omega
    have exponent : ((e + 1075).toNat : Int) - 1075 = e := by omega
    rw [encode_full (by omega), parts, if_neg (by omega), if_neg (by omega), back, exponent]

theorem pack_unpacked {m : Nat} {e : Int} (fits : Fits m e) (negative : Bool) :
    (UnpackedFloat.pack .binary64 (unpacked negative m e)).toNat = encode negative m e := by
  obtain ⟨small, least, most, full⟩ := fits
  have bias : (e + Format.binary64.exponentBias + (52 : Nat)).toNat = (e + 1075).toNat := by
    have : (Format.binary64.exponentBias : Int) = 1023 := rfl
    omega
  unfold unpacked
  split
  · rename_i zero
    rw [UnpackedFloat.pack, packedZero, packComponents_toNat, sign_toNat, zero,
      encode_sub (by omega)]
    rfl
  · rename_i positive
    simp only [UnpackedFloat.pack, bias]
    rw [if_neg (by show ¬ 2048 ≤ _; omega)]
    have bits : Format.binary64.mantissaBits = 53 := rfl
    rw [bits]
    have digits : m.log2 + 1 = 53 ↔ 2 ^ 52 ≤ m := by
      rw [← Nat.le_log2 positive]
      have := (Nat.log2_lt positive).mpr small
      omega
    split
    · rename_i normal
      have big := digits.mp normal
      rw [packComponents_toNat, sign_toNat, encode_full big]
      simp only [BitVec.toNat_ofNat]
      rw [Nat.mod_eq_of_lt (by omega : (e + 1075).toNat < 2 ^ 11)]
      omega
    · rename_i normal
      have sub : m < 2 ^ 52 := by
        by_contra big
        exact normal (digits.mpr (by omega))
      rw [packComponents_toNat, sign_toNat, encode_sub sub]
      simp only [BitVec.toNat_ofNat]
      rw [Nat.mod_eq_of_lt sub]
      omega

theorem pack_infinity (negative : Bool) :
    (packedInfinity .binary64 (signOf negative)).toNat = signBit negative + 2047 * 2 ^ 52 := by
  rw [packedInfinity, packComponents_toNat, sign_toNat]
  rfl

theorem fields_infinity (negative : Bool) :
    fields (signBit negative + 2047 * 2 ^ 52) = .infinite negative := by
  cases negative <;> rfl

theorem pack_fields {b : BitVec 64} (valid : Format.binary64.Valid b) :
    UnpackedFloat.pack .binary64 (fields b.toNat).unpacked = b := by
  have lt := b.isLt
  have sign := signBit_top lt
  cases h : fields b.toNat with
  | nan =>
    unfold fields at h
    simp only [beq_iff_eq] at h
    split at h
    · rename_i full
      split at h
      · cases h
      · rename_i payload
        refine (valid.eq_packedNaN (BitVec.eq_of_toNat_eq ?_) ?_).symm
        · rw [unpackExponent_toNat, full]
          rfl
        · intro zero
          have := congrArg BitVec.toNat zero
          rw [unpackMantissa_toNat] at this
          exact payload this
    · split at h <;> cases h
  | infinite negative =>
    apply BitVec.eq_of_toNat_eq
    rw [View.unpacked, UnpackedFloat.pack, pack_infinity]
    unfold fields at h
    simp only [beq_iff_eq] at h
    split at h
    · split at h
      · cases h
        omega
      · cases h
    · split at h <;> cases h
  | finite negative m e =>
    have f := fields_fits lt h
    apply BitVec.eq_of_toNat_eq
    rw [View.unpacked, pack_unpacked f.1, f.2]

theorem unpack_eq_view (v : Float) : v.toModel.unpack = (view v).unpacked :=
  unpack_eq_fields v.toModel.toBits.toBitVec

def assemble (u : UnpackedFloat) : Float := .ofModel (.pack u)

theorem assemble_view (v : Float) : assemble (view v).unpacked = v := by
  have h : UInt64.ofBitVec (UnpackedFloat.pack .binary64 (view v).unpacked) = v.toModel.toBits :=
    congrArg UInt64.ofBitVec (pack_fields v.toModel.valid)
  show Float.ofModel ⟨_, _⟩ = v
  cases v with | ofModel x =>
  cases x with | mk bits valid =>
  congr

theorem view_assemble (u : UnpackedFloat) :
    view (assemble u) = fields (UnpackedFloat.pack .binary64 u).toNat := rfl

theorem view_assemble_finite {m : Nat} {e : Int} (fits : Fits m e) (negative : Bool) :
    view (assemble (unpacked negative m e)) = .finite negative m e := by
  rw [view_assemble, pack_unpacked fits, fields_encode fits]

theorem view_assemble_infinity (negative : Bool) :
    view (assemble (.infinity (signOf negative))) = .infinite negative := by
  rw [view_assemble, UnpackedFloat.pack, pack_infinity, fields_infinity]

theorem view_assemble_nan : view (assemble .notANumber) = .nan := rfl

theorem view_injective {v w : Float} (same : view v = view w) : v = w := by
  rw [← assemble_view v, ← assemble_view w, same]

theorem fits_of_view {v : Float} {negative : Bool} {m : Nat} {e : Int}
    (h : view v = .finite negative m e) : Fits m e :=
  (fields_fits v.toBits.toBitVec.isLt h).1

theorem view_ofBits (b : UInt64) : view (Float.ofBits b) = fields b.toNat := by
  have h : Float.ofBits b = assemble (fields b.toNat).unpacked :=
    congrArg assemble (unpack_eq_fields b.toBitVec)
  rw [h]
  cases hf : fields b.toNat with
  | nan => exact view_assemble_nan
  | infinite negative => exact view_assemble_infinity negative
  | finite negative m e =>
    exact view_assemble_finite (fields_fits b.toBitVec.isLt hf).1 negative

def View.negate : View → View
  | .nan => .nan
  | .infinite negative => .infinite !negative
  | .finite negative m e => .finite (!negative) m e

theorem signOf_not (negative : Bool) : -signOf negative = signOf (!negative) := by
  cases negative <;> rfl

theorem view_neg (v : Float) : view (-v) = (view v).negate := by
  have h : -v = assemble (view v).unpacked.neg := by
    rw [← unpack_eq_view]
    rfl
  rw [h]
  cases hv : view v with
  | nan => exact view_assemble_nan
  | infinite negative =>
    show view (assemble (.infinity (-signOf negative))) = _
    rw [signOf_not, view_assemble_infinity]
    rfl
  | finite negative m e =>
    have flip : (unpacked negative m e).neg = unpacked (!negative) m e := by
      unfold unpacked
      split
      · rw [UnpackedFloat.neg, signOf_not]
      · rw [UnpackedFloat.neg]
        congr 1
        exact signOf_not negative
    rw [View.unpacked, flip, view_assemble_finite (fits_of_view hv)]
    rfl

theorem neg_neg_eq (v : Float) : - -v = v := by
  refine view_injective ?_
  rw [view_neg, view_neg]
  cases view v with
  | nan => rfl
  | infinite negative | finite negative m e => cases negative <;> rfl

theorem shift_exact (m n : Nat) :
    n.repeat ExtendedMantissa.shiftRightOne ⟨m * 2 ^ n, false, false⟩ = ⟨m, false, false⟩ := by
  induction n generalizing m with
  | zero => simp [Nat.repeat]
  | succ n ih =>
    have h : m * 2 ^ (n + 1) = 2 * m * 2 ^ n := by ring
    rw [Nat.repeat, h, ih]
    simp [ExtendedMantissa.shiftRightOne]

theorem target_of_fits {m : Nat} {e : Int} (fits : Fits m e) (positive : m ≠ 0) :
    Format.binary64.targetExponent (totalExponent m e) = e := by
  obtain ⟨small, least, most, full⟩ := fits
  have upper := (Nat.log2_lt positive).mpr small
  show max ((m.log2 : Int) + 1 + e - 53) (-1074) = e
  rcases full with full | rfl
  · have lower := (Nat.le_log2 positive).mpr full
    omega
  · omega

theorem log2_scaled {m : Nat} (positive : m ≠ 0) (n : Nat) :
    (m * 2 ^ n).log2 = m.log2 + n := by
  induction n with
  | zero => simp
  | succ n ih =>
    have h : m * 2 ^ (n + 1) = 2 * (m * 2 ^ n) := by ring
    rw [h, Nat.log2_two_mul (by positivity), ih]
    rfl

theorem shiftTo_exact (m n : Nat) (e : Int) :
    shiftToExponent (m * 2 ^ n) (e - n) .exact e = (⟨m, false, false⟩, e) := by
  have amount : (e - (e - (n : Int))).toNat = n := by omega
  unfold shiftToExponent
  rw [amount]
  exact Prod.ext (shift_exact m n) (by simp)

/-- A number that fits keeps its value when it is rounded from finer digits. -/
theorem round_exact {m : Nat} {e : Int} (fits : Fits m e) (positive : m ≠ 0) (s : Sign) (n : Nat) :
    roundWithAccuracy .binary64 s (m * 2 ^ n) (e - n) .exact =
      .finite s m e (Nat.pos_of_ne_zero positive) := by
  have target := target_of_fits fits positive
  have finer : totalExponent (m * 2 ^ n) (e - n) = totalExponent m e := by
    unfold totalExponent
    rw [log2_scaled positive]
    omega
  have first : shiftToTargetExponent .binary64 (m * 2 ^ n) (e - n) .exact =
      (⟨m, false, false⟩, e) := by
    unfold shiftToTargetExponent
    rw [finer, target, shiftTo_exact]
  have second : shiftToTargetExponent .binary64 m e .exact = (⟨m, false, false⟩, e) := by
    unfold shiftToTargetExponent
    rw [target]
    simpa using shiftTo_exact m 0 e
  have rounded : (ExtendedMantissa.mk m false false).roundedMantissa = m := rfl
  simp only [roundWithAccuracy, first, rounded, second, dif_neg positive]

theorem view_one : view 1 = .finite false (2 ^ 52) (-52) := rfl

theorem view_minus_one : view (-1) = .finite true (2 ^ 52) (-52) := rfl

theorem mul_eq (v w : Float) :
    v * w = assemble (UnpackedFloat.mul .binary64 (view v).unpacked (view w).unpacked) := by
  rw [← unpack_eq_view, ← unpack_eq_view]
  rfl

theorem unpacked_positive {m : Nat} (positive : m ≠ 0) (negative : Bool) (e : Int) :
    unpacked negative m e = .finite (signOf negative) m e (Nat.pos_of_ne_zero positive) := by
  rw [unpacked, dif_neg positive]

/-- A factor of one with a sign changes nothing but the sign. -/
theorem view_unit_mul {u : Float} {flip : Bool} (unit : view u = .finite flip (2 ^ 52) (-52))
    (v : Float) : view (u * v) = if flip then (view v).negate else view v := by
  have sign : ∀ negative : Bool, signOf flip * signOf negative = signOf (flip != negative) := by
    intro negative
    cases flip <;> cases negative <;> rfl
  rw [mul_eq, unit, View.unpacked, unpacked_positive (by decide)]
  cases hv : view v with
  | nan => cases flip <;> exact view_assemble_nan
  | infinite negative =>
    simp only [View.unpacked, UnpackedFloat.mul, sign, view_assemble_infinity]
    cases flip <;> cases negative <;> rfl
  | finite negative m e =>
    have fits := fits_of_view hv
    have product : UnpackedFloat.mul .binary64 (.finite (signOf flip) (2 ^ 52) (-52) (by decide))
        (unpacked negative m e) = unpacked (flip != negative) m e := by
      by_cases zero : m = 0
      · simp only [unpacked, dif_pos zero, UnpackedFloat.mul, sign]
      · rw [unpacked_positive zero, unpacked_positive zero, UnpackedFloat.mul, sign]
        have h := round_exact fits zero (signOf (flip != negative)) 52
        rw [Nat.mul_comm, show (-52 : Int) + e = e - (52 : Nat) by omega]
        exact h
    rw [View.unpacked, product, view_assemble_finite fits]
    cases flip <;> cases negative <;> rfl

theorem scale_one (v : Float) : 1 * v = v :=
  view_injective (view_unit_mul view_one v)

theorem scale_minus_one (v : Float) : -1 * v = -v :=
  view_injective ((view_unit_mul view_minus_one v).trans (view_neg v).symm)

end DistanceField.Double
