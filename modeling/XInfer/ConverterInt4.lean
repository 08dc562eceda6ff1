import XInfer.BlockSums
import XInfer.FloatFormat
import XInfer.Int4Kernels
import XInfer.Primitives

/-!
`quantize_int4_symmetric` of `tools/convert/qwen3_8_27b/convert.py` over the rationals, and what the kernels of
`ops/linear.cpp` take out of its bytes. The two sides find a weight by their own counting: the converter cuts
the tensor into groups as one row of numbers, the kernels go by row, group and byte.
-/

namespace XInfer.ConverterInt4

open Primitives FloatFormat Int4Kernels Int4Words Launches

section Convert

variable (tensor : Nat → Nat → Rat) (rows cols groupSize : Nat)

/-- Element `i` of group `r` of `tensor.view(-1, group_size)`. -/
def grouped (r i : Nat) : Rat :=
  let flat := r * groupSize + i
  tensor (flat / cols) (flat % cols)

/-- `torch.amax(torch.abs(x))` -/
def maxAbs (x : Nat → Rat) : Rat := (List.range groupSize).foldl (fun found i => max found |x i|) 0

/-- `torch.clamp(max_abs / 7.0, min=1e-8)` -/
def groupScale (x : Nat → Rat) : Rat := max (maxAbs groupSize x / 7) (1 / 10 ^ 8)

/-- `torch.clamp(torch.round(x / scale), -8, 7)` -/
def quantise (scale x : Rat) : Int := max (-8) (min (roundHalfEven (x / scale)) 7)

/-- `low | high` of the conversions to `int8` and `uint8`. -/
def packPair (even odd : Int) : UInt8 := (UInt8.ofInt even &&& (0x0F : UInt8)) ||| ((UInt8.ofInt odd &&& (0x0F : UInt8)) <<< 4)

def packedByte (r b : Nat) : UInt8 :=
  let x := grouped tensor cols groupSize r
  let q := fun i => quantise (groupScale groupSize x) (x i)
  packPair (q (2 * b)) (q (2 * b + 1))

/-- The packed bytes and the scales; `float16` is the conversion of the scales. -/
def quantizeInt4Symmetric (float16 : Rat → Rat) : Bytes × List Rat :=
  let groups := rows * cols / groupSize
  ((List.range groups).flatMap fun r => (List.range (groupSize / 2)).map (packedByte tensor cols groupSize r),
    (List.range groups).map fun r => float16 (groupScale groupSize (grouped tensor cols groupSize r)))

end Convert

section Unpack

variable (wInt4 : Nat → UInt8) (K groupSize n k : Nat)

/-- What `linear_int4_naive` reads for column `k` of row `n`. -/
def naiveNibble : Int :=
  let baseByte := k / groupSize * groupSize / 2
  let byteVal := wInt4 (n * (K / 2) + (baseByte + k % groupSize / 2))
  if k % groupSize % 2 = 0 then lowNibble byteVal else highNibble byteVal

/-- What the other kernels read for it. -/
def laneNibble : Int :=
  let baseByte := k / groupSize * groupSize / 2
  let lane := k % groupSize / 8
  wordNibble (wordAt wInt4 (n * (K / 2) + baseByte + 4 * lane)) (k % groupSize % 8)

end Unpack

section Rounding

theorem roundHalfEven_near (q : Rat) : |q - roundHalfEven q| ≤ 1 / 2 := by
  have low := Int.floor_le q
  have high := Int.lt_floor_add_one q
  unfold roundHalfEven
  dsimp only
  rw [abs_le]
  split_ifs <;> push_cast <;> constructor <;> linarith

variable {groupSize : Nat} {x : Nat → Rat}

theorem maxAbs_fold (is : List Nat) (found : Rat) :
    found ≤ is.foldl (fun found i => max found |x i|) found ∧
      ∀ i ∈ is, |x i| ≤ is.foldl (fun found i => max found |x i|) found := by
  induction is generalizing found with
  | nil => simp
  | cons i rest ih =>
      obtain ⟨above, each⟩ := ih (max found |x i|)
      constructor
      · exact (le_max_left _ _).trans above
      · intro j member
        rcases List.mem_cons.1 member with rfl | later
        · exact (le_max_right _ _).trans above
        · exact each j later

theorem le_groupScale {i : Nat} (inside : i < groupSize) : |x i| ≤ 7 * groupScale groupSize x := by
  have found := (maxAbs_fold (x := x) (List.range groupSize) 0).2 i (List.mem_range.2 inside)
  have scaled := le_max_left (maxAbs groupSize x / 7) (1 / 10 ^ 8)
  unfold groupScale
  unfold maxAbs at *
  linarith

theorem groupScale_congr {y : Nat → Rat} (same : ∀ i < groupSize, x i = y i) :
    groupScale groupSize x = groupScale groupSize y := by
  unfold groupScale maxAbs
  rw [List.foldl_ext _ _ _ fun found i member => by rw [same i (List.mem_range.1 member)]]

theorem groupScale_pos (groupSize : Nat) (x : Nat → Rat) : 0 < groupScale groupSize x :=
  lt_of_lt_of_le (by norm_num) (le_max_right _ _)

/-- The clamp never acts. -/
theorem quantise_eq {scale y : Rat} (positive : 0 < scale) (small : |y| ≤ 7 * scale) :
    quantise scale y = roundHalfEven (y / scale) ∧ -7 ≤ roundHalfEven (y / scale) ∧ roundHalfEven (y / scale) ≤ 7 := by
  have bounds : |y / scale| ≤ 7 := by
    rw [abs_div, abs_of_pos positive]
    exact (div_le_iff₀ positive).2 small
  obtain ⟨above, below⟩ := abs_le.1 bounds
  have low := roundHalfEven_mono above
  have high := roundHalfEven_mono below
  rw [show (-7 : Rat) = ((-7 : Int) : Rat) by norm_num, roundHalfEven_int] at low
  rw [show (7 : Rat) = ((7 : Int) : Rat) by norm_num, roundHalfEven_int] at high
  unfold quantise
  omega

theorem quantise_near {scale y : Rat} (positive : 0 < scale) (small : |y| ≤ 7 * scale) :
    |y - quantise scale y * scale| ≤ scale / 2 := by
  obtain ⟨exact, -⟩ := quantise_eq positive small
  have near := roundHalfEven_near (y / scale)
  have split : y - roundHalfEven (y / scale) * scale = (y / scale - roundHalfEven (y / scale)) * scale := by
    rw [sub_mul, div_mul_cancel₀ _ (ne_of_gt positive)]
  rw [exact, split, abs_mul, abs_of_pos positive]
  calc |y / scale - roundHalfEven (y / scale)| * scale
      ≤ 1 / 2 * scale := mul_le_mul_of_nonneg_right near positive.le
    _ = scale / 2 := by ring

theorem quantise_group {i : Nat} (inside : i < groupSize) :
    (-7 ≤ quantise (groupScale groupSize x) (x i) ∧ quantise (groupScale groupSize x) (x i) ≤ 7) ∧
      |x i - quantise (groupScale groupSize x) (x i) * groupScale groupSize x| ≤ groupScale groupSize x / 2 := by
  have small := le_groupScale (x := x) inside
  have positive := groupScale_pos groupSize x
  have range := quantise_eq positive small
  exact ⟨range.1 ▸ range.2, quantise_near positive small⟩

end Rounding

section Bytes

theorem packPair_shifted : ∀ even < 16, ∀ odd < 16,
    lowNibble (packPair ((even : Nat) - 8) ((odd : Nat) - 8)) = (even : Int) - 8 ∧
      highNibble (packPair ((even : Nat) - 8) ((odd : Nat) - 8)) = (odd : Int) - 8 := by
  decide +kernel

theorem packPair_nibbles {even odd : Int} (evenRange : -7 ≤ even ∧ even ≤ 7) (oddRange : -7 ≤ odd ∧ odd ≤ 7) :
    lowNibble (packPair even odd) = even ∧ highNibble (packPair even odd) = odd := by
  have pair := packPair_shifted (even + 8).toNat (by omega) (odd + 8).toNat (by omega)
  have evenShift : (((even + 8).toNat : Nat) : Int) - 8 = even := by omega
  have oddShift : (((odd + 8).toNat : Nat) : Int) - 8 = odd := by omega
  rwa [evenShift, oddShift] at pair

variable {tensor : Nat → Nat → Rat} {rows cols groupSize : Nat} {float16 : Rat → Rat}

/-- The bytes lie group behind group. -/
theorem packed_byte {r b : Nat} (group : r < rows * cols / groupSize) (inside : b < groupSize / 2) :
    (quantizeInt4Symmetric tensor rows cols groupSize float16).1.getD (r * (groupSize / 2) + b) 0 =
      packedByte tensor cols groupSize r b := by
  have row : ∀ groups, ((List.range groups).flatMap fun r =>
      (List.range (groupSize / 2)).map (packedByte tensor cols groupSize r)) =
        (List.range (groups * (groupSize / 2))).map fun i =>
          packedByte tensor cols groupSize (i / (groupSize / 2)) (i % (groupSize / 2)) := by
    intro groups
    have addresses := outputs_map groups (groupSize / 2) (packedByte tensor cols groupSize)
    have bytes := congrArg (List.map Prod.snd) addresses
    simpa [outputs, storesOf, List.map_flatMap, Function.comp_def] using bytes
  have last : r * (groupSize / 2) + b < rows * cols / groupSize * (groupSize / 2) := flat_lt group inside
  unfold quantizeInt4Symmetric
  dsimp only
  rw [row, List.getD_eq_getElem _ _ (by simpa using last), List.getElem_map, List.getElem_range, flat_div inside,
    flat_mod inside]

theorem scale_stored {r : Nat} (group : r < rows * cols / groupSize) :
    (quantizeInt4Symmetric tensor rows cols groupSize float16).2.getD r 0 =
      float16 (groupScale groupSize (grouped tensor cols groupSize r)) := by
  unfold quantizeInt4Symmetric
  dsimp only
  rw [List.getD_eq_getElem _ _ (by simpa using group), List.getElem_map, List.getElem_range]

end Bytes

section Places

variable {tensor : Nat → Nat → Rat} {rows cols groupSize n k : Nat}

/-- A whole number of groups makes a row. -/
theorem group_inside (divides : groupSize ∣ cols) (row : n < rows) (column : k < cols) :
    n * (cols / groupSize) + k / groupSize < rows * cols / groupSize := by
  have group : k / groupSize < cols / groupSize := Nat.div_lt_div_of_lt_of_dvd divides column
  rw [Nat.mul_div_assoc _ divides]
  exact flat_lt row group

/-- The elements of the group are the columns of the row from a multiple of the group size on. -/
theorem grouped_row (divides : groupSize ∣ cols) (column : k < cols) {i : Nat} (inside : i < groupSize) :
    grouped tensor cols groupSize (n * (cols / groupSize) + k / groupSize) i =
      tensor n (k / groupSize * groupSize + i) := by
  have width : cols / groupSize * groupSize = cols := Nat.div_mul_cancel divides
  have place : (n * (cols / groupSize) + k / groupSize) * groupSize + i =
      n * cols + (k / groupSize * groupSize + i) := by
    rw [Nat.add_mul, Nat.mul_assoc, width, Nat.add_assoc]
  have within : k / groupSize * groupSize + i < cols := by
    have group : k / groupSize < cols / groupSize := Nat.div_lt_div_of_lt_of_dvd divides column
    have place := flat_lt group inside
    rwa [width] at place
  unfold grouped
  dsimp only
  rw [place, flat_div within, flat_mod within]

/-- Where the kernels look for the byte of a weight. -/
theorem byte_place (even : 2 ∣ groupSize) (divides : groupSize ∣ cols) :
    n * (cols / 2) + (k / groupSize * groupSize / 2 + k % groupSize / 2) =
      (n * (cols / groupSize) + k / groupSize) * (groupSize / 2) + k % groupSize / 2 := by
  obtain ⟨half, rfl⟩ := even
  obtain ⟨groups, rfl⟩ := divides
  rcases Nat.eq_zero_or_pos half with rfl | positive
  · simp
  · have row : 2 * half * groups / 2 = groups * half := by
      rw [Nat.mul_assoc, Nat.mul_div_cancel_left _ (by decide), Nat.mul_comm]
    have count : 2 * half * groups / (2 * half) = groups := Nat.mul_div_cancel_left _ (by omega)
    have base : k / (2 * half) * (2 * half) / 2 = k / (2 * half) * half := by
      rw [Nat.mul_left_comm, Nat.mul_div_cancel_left _ (by decide)]
    have width : 2 * half / 2 = half := Nat.mul_div_cancel_left _ (by decide)
    rw [row, count, base, width]
    ring_nf

end Places

section Kernels

variable (X : Nat → Rat) (w : Weights Rat) (K m n : Nat)

/-- The naive kernel multiplies the columns of a byte by its nibbles. -/
theorem byteDot_nibbles {groupSize g b : Nat} (even : 2 ∣ groupSize) (inside : b < groupSize / 2) :
    byteDot X w K groupSize m n g b =
      let scale := w.scales (n * (K / groupSize) + g)
      let k := g * groupSize + 2 * b
      X (m * K + k) * (naiveNibble w.wInt4 K groupSize n k * scale) +
        X (m * K + (k + 1)) * (naiveNibble w.wInt4 K groupSize n (k + 1) * scale) := by
  have first : 2 * b < groupSize := by omega
  have second : 2 * b + 1 < groupSize := by omega
  unfold byteDot naiveNibble
  dsimp only
  rw [Nat.add_assoc (g * groupSize), flat_div first, flat_mod first, flat_div second, flat_mod second,
    if_pos (by omega), if_neg (by omega), show 2 * b / 2 = b by omega, show (2 * b + 1) / 2 = b by omega]

theorem wordDot_sum (x : Nat → Rat) (p : BitVec 32) : wordDot x p = ∑ i ∈ Finset.range 8, x i * wordNibble p i := by
  simp only [wordDot, Finset.sum_range_succ, Finset.range_zero, Finset.sum_empty, zero_add]

/-- The other kernels multiply the columns of a word by its nibbles. -/
theorem laneTerm_nibbles {lane g : Nat} (inside : lane < 16) :
    laneTerm X w K 128 m n lane g =
      let k := g * 128 + lane * 8
      (∑ i ∈ Finset.range 8, X (m * K + (k + i)) * laneNibble w.wInt4 K 128 n (k + i)) *
        w.scales (n * (K / 128) + g) := by
  unfold laneTerm
  dsimp only
  rw [wordDot_sum]
  refine congrArg (· * w.scales (n * (K / 128) + g)) (Finset.sum_congr rfl ?_)
  intro i member
  have early := Finset.mem_range.1 member
  have place : lane * 8 + i < 128 := by omega
  unfold laneNibble
  dsimp only
  rw [Nat.add_assoc (g * 128), flat_div place, flat_mod place, flat_div early, flat_mod early]

end Kernels

section Agreement

variable {tensor : Nat → Nat → Rat} {rows cols groupSize n k : Nat} {float16 : Rat → Rat}

theorem laneNibble_eq (wInt4 : Nat → UInt8) : laneNibble wInt4 cols 128 n k = naiveNibble wInt4 cols 128 n k := by
  obtain ⟨low, high⟩ := wordNibble_byte wInt4
    (n * (cols / 2) + k / 128 * 128 / 2 + 4 * (k % 128 / 8)) (show k % 128 % 8 / 2 < 4 by omega)
  have place : n * (cols / 2) + k / 128 * 128 / 2 + 4 * (k % 128 / 8) + k % 128 % 8 / 2 =
      n * (cols / 2) + (k / 128 * 128 / 2 + k % 128 / 2) := by omega
  rw [place] at low high
  unfold laneNibble naiveNibble
  dsimp only
  by_cases even : k % 128 % 2 = 0
  · rw [if_pos even, ← low]
    congr 1
    omega
  · rw [if_neg even, ← high]
    congr 1
    omega

/-- The weight of a row and column: what the kernels decode, the scale they read, and how far it is off. -/
theorem packing_agrees (tensor : Nat → Nat → Rat) (float16 : Rat → Rat) (even : 2 ∣ groupSize)
    (divides : groupSize ∣ cols) (row : n < rows) (column : k < cols) :
    let converted := quantizeInt4Symmetric tensor rows cols groupSize float16
    let wInt4 := fun i => converted.1.getD i 0
    let scale := groupScale groupSize fun i => tensor n (k / groupSize * groupSize + i)
    let q := quantise scale (tensor n k)
    naiveNibble wInt4 cols groupSize n k = q ∧ (groupSize = 128 → laneNibble wInt4 cols 128 n k = q) ∧
      converted.2.getD (n * (cols / groupSize) + k / groupSize) 0 = float16 scale ∧
      |tensor n k - q * scale| ≤ scale / 2 := by
  have positive : 0 < groupSize := Nat.pos_of_ne_zero (by rintro rfl; simp at divides; omega)
  have element := Nat.mod_lt k positive
  have group := group_inside divides row column
  have same : ∀ i < groupSize, grouped tensor cols groupSize (n * (cols / groupSize) + k / groupSize) i =
      tensor n (k / groupSize * groupSize + i) := fun i inside => grouped_row divides column inside
  have scales := groupScale_congr same
  have weight : tensor n k = grouped tensor cols groupSize (n * (cols / groupSize) + k / groupSize) (k % groupSize) := by
    rw [same _ element, Nat.div_add_mod']
  have naive : naiveNibble (fun i => (quantizeInt4Symmetric tensor rows cols groupSize float16).1.getD i 0) cols
      groupSize n k =
        quantise (groupScale groupSize fun i => tensor n (k / groupSize * groupSize + i)) (tensor n k) := by
    unfold naiveNibble
    dsimp only
    rw [byte_place even divides, packed_byte group (by omega), ← scales, weight]
    -- the byte holds the pair of columns that the weight is one of
    obtain ⟨low, high⟩ := packPair_nibbles
      (quantise_group (x := grouped tensor cols groupSize (n * (cols / groupSize) + k / groupSize))
        (show 2 * (k % groupSize / 2) < groupSize by omega)).1
      (quantise_group (x := grouped tensor cols groupSize (n * (cols / groupSize) + k / groupSize))
        (show 2 * (k % groupSize / 2) + 1 < groupSize by omega)).1
    by_cases first : k % groupSize % 2 = 0
    · rw [if_pos first]
      exact low.trans (by rw [show 2 * (k % groupSize / 2) = k % groupSize by omega])
    · rw [if_neg first]
      exact high.trans (by rw [show 2 * (k % groupSize / 2) + 1 = k % groupSize by omega])
  dsimp only
  refine ⟨naive, ?_, ?_, ?_⟩
  · rintro rfl
    rw [laneNibble_eq, naive]
  · rw [scale_stored group, scales]
  · rw [← scales, weight]
    exact (quantise_group element).2

/-- The weights 0 and 1 as a group: the second one is stored as 7. -/
theorem packing_agrees_pair :
    naiveNibble (fun i => (quantizeInt4Symmetric (fun _ k => k) 1 2 2 id).1.getD i 0) 2 2 0 1 = 7 :=
  (packing_agrees (fun _ k => k) id (dvd_refl 2) (dvd_refl 2) (show 0 < 1 by decide) (show 1 < 2 by decide)).1.trans
    (by decide +kernel)

end Agreement

end XInfer.ConverterInt4
