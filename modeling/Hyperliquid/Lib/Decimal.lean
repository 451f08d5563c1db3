/-
# Decimal numbers as text

The shortest decimal of a natural number, and the decimal of a number scaled by a power of ten
with its trailing zeros removed, as firmware shows amounts.  Both can be read back
(`readDecimal_decimal`, `readFixed_fixedTrimmed`), so two numbers that are printed alike are
equal.
-/
import Hyperliquid.Lib.Bounded
import Mathlib.Data.List.DropRight
import Mathlib.Data.Nat.Digits.Lemmas

namespace Lib

/-! ## 1. Digits -/

/-- The character of a digit. -/
def digitChar (d : Nat) : UInt8 := UInt8.ofNat (48 + d)

/-- The digit of a character. -/
def digitVal (c : UInt8) : Nat := c.toNat - 48

theorem digitVal_digitChar {d : Nat} (h : d < 10) : digitVal (digitChar d) = d := by
  have hlt : 48 + d < 256 := by omega
  simp only [digitVal, digitChar, UInt8.toNat_ofNat_of_lt' hlt]
  omega

theorem digitChar_ne_dot {d : Nat} (h : d < 10) : digitChar d ≠ 46 := by
  intro he
  have hlt : 48 + d < 256 := by omega
  have := congrArg UInt8.toNat he
  simp only [digitChar, UInt8.toNat_ofNat_of_lt' hlt, UInt8.reduceToNat] at this
  omega

/-- The number that a string of digits denotes. -/
def readDecimal (s : Bytes) : Nat := s.foldl (fun n c => 10 * n + digitVal c) 0

theorem readDecimal_concat (s : Bytes) (c : UInt8) :
    readDecimal (s ++ [c]) = 10 * readDecimal s + digitVal c := by
  simp [readDecimal]

/-! ## 2. The shortest decimal -/

/-- `%u`: the shortest decimal. -/
def decimal (n : Nat) : Bytes :=
  if n = 0 then [digitChar 0] else (Nat.digits 10 n).reverse.map digitChar

theorem readDecimal_reverse_digits {ds : List Nat} (h : ∀ d ∈ ds, d < 10) :
    readDecimal (ds.reverse.map digitChar) = Nat.ofDigits 10 ds := by
  induction ds with
  | nil => rfl
  | cons d ds ih =>
    rw [List.reverse_cons, List.map_append, List.map_singleton, readDecimal_concat,
      ih fun x hx => h x (by simp [hx]), digitVal_digitChar (h d (by simp)), Nat.ofDigits_cons]
    omega

/-- The decimal denotes the number. -/
theorem readDecimal_decimal (n : Nat) : readDecimal (decimal n) = n := by
  unfold decimal
  split
  · rename_i h
    rw [h]
    rfl
  · rw [readDecimal_reverse_digits fun d hd => Nat.digits_lt_base (by omega) hd,
      Nat.ofDigits_digits]

/-- Numbers with the same decimal are equal. -/
theorem decimal_inj {m n : Nat} (h : decimal m = decimal n) : m = n := by
  rw [← readDecimal_decimal m, h, readDecimal_decimal]

theorem decimal_ne_dot {n : Nat} {c : UInt8} (hc : c ∈ decimal n) : c ≠ 46 := by
  unfold decimal at hc
  split at hc
  · rw [List.mem_singleton] at hc
    rw [hc]
    exact digitChar_ne_dot (by omega)
  · simp only [List.mem_map, List.mem_reverse] at hc
    obtain ⟨d, hd, rfl⟩ := hc
    exact digitChar_ne_dot (Nat.digits_lt_base (by omega) hd)

/-- A number below `10 ^ k` has at most `k` digits. -/
theorem length_decimal_le {n k : Nat} (hk : 0 < k) (h : n < 10 ^ k) : (decimal n).length ≤ k := by
  unfold decimal
  split
  · exact hk
  · simp only [List.length_map, List.length_reverse]
    exact (Nat.digits_length_le_iff (by omega) n).mpr h

theorem lt_pow_length_decimal (n : Nat) : n < 10 ^ (decimal n).length := by
  unfold decimal
  split
  · rename_i h
    rw [h]
    exact Nat.pow_pos (by omega)
  · rw [List.length_map, List.length_reverse]
    exact Nat.lt_base_pow_length_digits (by omega)

/-- A larger number has at least as many digits. -/
theorem length_decimal_mono {m n : Nat} (h : m ≤ n) : (decimal m).length ≤ (decimal n).length := by
  have hlt := lt_pow_length_decimal n
  refine length_decimal_le ?_ (Nat.lt_of_le_of_lt h hlt)
  unfold decimal
  split
  · exact Nat.zero_lt_one
  · rename_i hn
    rw [List.length_map, List.length_reverse]
    exact List.length_pos_of_ne_nil (Nat.digits_ne_nil_iff_ne_zero.mpr hn)

/-! ## 3. Scaled numbers -/

/-- The last `d` digits of a number, with leading zeros. -/
def padded : Nat → Nat → Bytes
  | 0, _ => []
  | d + 1, n => padded d (n / 10) ++ [digitChar (n % 10)]

theorem length_padded (d n : Nat) : (padded d n).length = d := by
  induction d generalizing n with
  | zero => rfl
  | succ d ih => simp [padded, ih]

theorem readDecimal_padded (d n : Nat) : readDecimal (padded d n) = n % 10 ^ d := by
  induction d generalizing n with
  | zero => simp [padded, readDecimal, Nat.mod_one]
  | succ d ih =>
    rw [padded, readDecimal_concat, ih, digitVal_digitChar (Nat.mod_lt n (by omega)),
      Nat.pow_succ, Nat.mul_comm (10 ^ d) 10, Nat.mod_mul]
    omega

/-- Removes the trailing zeros. -/
def trimZeros (s : Bytes) : Bytes := s.rdropWhile (· == 48)

/-- Puts the trailing zeros back, up to a length. -/
def padZeros (k : Nat) (s : Bytes) : Bytes := s ++ List.replicate (k - s.length) 48

/-- Zeros that were removed can be put back. -/
theorem padZeros_trimZeros (s : Bytes) : padZeros s.length (trimZeros s) = s := by
  induction s using List.reverseRecOn with
  | nil => rfl
  | append_singleton s c ih =>
    by_cases hc : c = 48
    · subst hc
      have htrim : trimZeros (s ++ [48]) = trimZeros s :=
        List.rdropWhile_concat_pos _ _ _ (by simp)
      have hle : (trimZeros s).length ≤ s.length := (List.rdropWhile_prefix _ _).length_le
      have hsub : (s ++ [(48 : UInt8)]).length - (trimZeros s).length =
          s.length - (trimZeros s).length + 1 := by
        simp only [List.length_append, List.length_singleton]
        omega
      rw [htrim, padZeros, hsub, List.replicate_succ', ← List.append_assoc]
      exact congrArg (· ++ [(48 : UInt8)]) ih
    · have htrim : trimZeros (s ++ [c]) = s ++ [c] :=
        List.rdropWhile_concat_neg _ _ _ (by simpa using hc)
      rw [htrim, padZeros, Nat.sub_self, List.replicate_zero, List.append_nil]

/-- `v / 10 ^ d` as a decimal without trailing zeros, nor a trailing point. -/
def fixedTrimmed (d v : Nat) : Bytes :=
  decimal (v / 10 ^ d) ++
    match trimZeros (padded d v) with
    | [] => []
    | f => 46 :: f

/-- Reads a decimal with at most `d` digits after the point, as a multiple of `10 ^ -d`. -/
def readFixed (d : Nat) (s : Bytes) : Nat :=
  readDecimal (s.takeWhile (· != 46)) * 10 ^ d +
    readDecimal (padZeros d ((s.dropWhile (· != 46)).drop 1))

/-- A text without a point, followed by nothing or by a point. -/
theorem takeWhile_point {s t : Bytes} (hs : ∀ c ∈ s, c ≠ 46)
    (ht : t.head? = none ∨ t.head? = some 46) :
    (s ++ t).takeWhile (· != 46) = s ∧ (s ++ t).dropWhile (· != 46) = t := by
  have hp : ∀ c ∈ s, (c != 46) = true := fun c hc => by simpa using hs c hc
  rw [List.takeWhile_append_of_pos hp, List.dropWhile_append_of_pos hp]
  cases t with
  | nil => simp
  | cons c t =>
    have hc : c = 46 := by simpa using ht
    simp [hc]

/-- The text denotes the number. -/
theorem readFixed_fixedTrimmed (d v : Nat) : readFixed d (fixedTrimmed d v) = v := by
  have hpad : readDecimal (padZeros d (trimZeros (padded d v))) = v % 10 ^ d := by
    have h := padZeros_trimZeros (padded d v)
    rw [length_padded] at h
    rw [h, readDecimal_padded]
  have hfrac : readFixed d (fixedTrimmed d v) = v / 10 ^ d * 10 ^ d + v % 10 ^ d := by
    unfold readFixed fixedTrimmed
    split
    · rename_i hnil
      obtain ⟨htake, hdrop⟩ :=
        takeWhile_point (t := []) (fun c => decimal_ne_dot (n := v / 10 ^ d)) (.inl rfl)
      rw [htake, hdrop, readDecimal_decimal, List.drop_nil, ← hnil, hpad]
    · rename_i f hf
      obtain ⟨htake, hdrop⟩ :=
        takeWhile_point (t := 46 :: trimZeros (padded d v))
          (fun c => decimal_ne_dot (n := v / 10 ^ d)) (.inr rfl)
      rw [htake, hdrop, readDecimal_decimal, List.drop_one, List.tail_cons, hpad]
  rw [hfrac, Nat.div_add_mod']

/-- Numbers that are printed alike are equal. -/
theorem fixedTrimmed_inj {d v w : Nat} (h : fixedTrimmed d v = fixedTrimmed d w) : v = w := by
  rw [← readFixed_fixedTrimmed d v, h, readFixed_fixedTrimmed]

theorem length_fixedTrimmed_le (d v : Nat) :
    (fixedTrimmed d v).length ≤ (decimal (v / 10 ^ d)).length + 1 + d := by
  have htrim : (trimZeros (padded d v)).length ≤ d := by
    have hle : (trimZeros (padded d v)).length ≤ (padded d v).length :=
      (List.rdropWhile_prefix _ _).length_le
    rwa [length_padded] at hle
  unfold fixedTrimmed
  split
  · simp only [List.length_append, List.length_nil]
    omega
  · simp only [List.length_append, List.length_cons]
    omega

example : fixedTrimmed 6 12500000 = text "12.5" := by decide

end Lib
