import XInfer.Bilinear
import XInfer.BufferReads
import XInfer.FloatFormat
import XInfer.Primitives
import Mathlib.Data.Rat.Floor

/-!
`preprocess_image_to_usm` of `core/device.cpp`: the work items that resample an image into patches, with their
reads of the source buffer. The arithmetic of the device is a parameter; exact arithmetic and rounding to
`float` are two instances.
-/

namespace XInfer.ImageResampling

open Primitives FloatFormat BufferReads BufferReads.Reading Bilinear

section Kernel

/-- How the device computes: every operation is exact and then rounded, and the rounding keeps the order. -/
structure FloatUnit where
  /-- The result of an operation on `float`. -/
  round : Rat → Rat
  /-- The conversion to `sycl::half`. -/
  half : Rat → Rat
  /-- The conversion of a whole `float` to `int64_t`. -/
  convert : Int → Int
  round_mono : Monotone round
  round_zero : round 0 = 0
  convert_mono : Monotone convert

def FloatUnit.exact : FloatUnit := ⟨id, id, id, monotone_id, rfl, monotone_id⟩

/-- `float` with rounding to nearest. Conversions to integers saturate; no coordinate comes near the end of
the range of `float`. -/
def FloatUnit.single : FloatUnit where
  round := nearest binary32
  half := nearest binary16
  convert i := max (-2 ^ 63) (min i (2 ^ 63 - 1))
  round_mono := nearest_mono binary32
  round_zero := nearest_int binary32 0 (by norm_num)
  convert_mono _ _ le := max_le_max_left _ (min_le_min_right _ le)

/-- Arguments that the function accepts. -/
structure Call where
  srcW : Int
  srcH : Int
  channels : Int
  dstW : Int
  dstH : Int
  srcW_pos : 0 < srcW
  srcH_pos : 0 < srcH
  channels_pos : 0 < channels
  dstW_pos : 0 < dstW
  dstH_pos : 0 < dstH

/-- The refusal of the function; `none` goes on. -/
def refuseSource (hasPixels : Bool) (srcW srcH channels : Int) : Option Bytes :=
  if hasPixels = false ∨ srcW ≤ 0 ∨ srcH ≤ 0 ∨ channels ≤ 0 then
    some (ascii "Invalid image input buffer or dimensions in preprocess_image_to_usm")
  else none

def totalElements : Nat := 256 * 588

variable (unit : FloatUnit) (call : Call)

/-- `u` or `v` of the destination pixel `pos` of a side. -/
def FloatUnit.coordinate (src dst : Int) (pos : Nat) : Rat :=
  unit.round (unit.round (unit.round (unit.round pos + 1 / 2) *
    unit.round (unit.round src / unit.round dst)) - 1 / 2)

/-- `x0` or `y0`. -/
def FloatUnit.firstIndex (size : Int) (u : Rat) : Int := clampIndex size (unit.convert ⌊u⌋)

/-- `x1` or `y1`. -/
def FloatUnit.secondIndex (size : Int) (u : Rat) : Int := clampIndex size (unit.firstIndex size u + 1)

/-- `fx` or `fy`. -/
def FloatUnit.fraction (size : Int) (u : Rat) : Rat :=
  if unit.firstIndex size u = unit.secondIndex size u then 0 else unit.round (u - ⌊u⌋)

/-- A weighted sum as the device computes it. -/
def FloatUnit.blend (a b t : Rat) : Rat :=
  unit.round (unit.round (a * unit.round (1 - t)) + unit.round (b * t))

def Call.place (row column : Int) (c : Nat) : Int := (row * call.srcW + column) * call.channels + c

/-- The pixel of the destination that an element belongs to, and its channel. -/
structure Target where
  x : Nat
  y : Nat
  c : Nat
  deriving DecidableEq

def target (idx : Nat) : Target :=
  let patchIdx := idx / 588
  let elemInPatch := idx % 588
  let patchY := patchIdx / 16
  let patchX := patchIdx % 16
  let rem := elemInPatch % (14 * 14)
  ⟨patchX * 14 + rem % 14, patchY * 14 + rem / 14, elemInPatch / (14 * 14)⟩

def resample (pixel : Target) : Reading Int UInt8 Rat := do
  let u := unit.coordinate call.srcW call.dstW pixel.x
  let v := unit.coordinate call.srcH call.dstH pixel.y
  let x0 := unit.firstIndex call.srcW u
  let x1 := unit.secondIndex call.srcW u
  let y0 := unit.firstIndex call.srcH v
  let y1 := unit.secondIndex call.srcH v
  let fx := unit.fraction call.srcW u
  let fy := unit.fraction call.srcH v
  let p00 ← fetch (call.place y0 x0 pixel.c)
  let p10 ← fetch (call.place y0 x1 pixel.c)
  let p01 ← fetch (call.place y1 x0 pixel.c)
  let p11 ← fetch (call.place y1 x1 pixel.c)
  let sample := unit.blend (unit.blend p00.toNat p10.toNat fx) (unit.blend p01.toNat p11.toNat fx) fy
  pure (unit.half (unit.round (unit.round (sample / 127.5) - 1)))

/-- One work item: where it writes, and what. -/
def workItem (idx : Nat) : Reading Int UInt8 (Option (Nat × Rat)) :=
  if totalElements ≤ idx then pure none
  else do
    let normVal ← resample unit call (target idx)
    pure (some (idx, normVal))

end Kernel

section Bounds

variable (unit : FloatUnit) (call : Call)

theorem refuseSource_none (srcW srcH channels : Int) :
    refuseSource true srcW srcH channels = none ↔ 0 < srcW ∧ 0 < srcH ∧ 0 < channels := by
  unfold refuseSource
  by_cases refused : true = false ∨ srcW ≤ 0 ∨ srcH ≤ 0 ∨ channels ≤ 0
  · rw [if_pos refused]
    simp only [reduceCtorEq, false_or, false_iff, not_and_or, not_lt] at refused ⊢
    exact refused
  · rw [if_neg refused]
    simp only [reduceCtorEq, false_or, true_iff, not_or, not_le] at refused ⊢
    exact refused

/-- What the kernel owes its two buffers, of `srcW * srcH * channels` bytes and of `totalElements` halves. -/
structure InBounds : Prop where
  reads : ∀ memory idx, Within memory (fun place => 0 ≤ place ∧ place < call.srcW * call.srcH * call.channels)
    (workItem unit call idx)
  writes : ∀ memory idx written, (workItem unit call idx).run memory = some written → written.1 < totalElements

/-- The column furthest to the right that is read. -/
def Call.lastColumn : Int := unit.secondIndex call.srcW (unit.coordinate call.srcW call.dstW 223)

def Call.lastRow : Int := unit.secondIndex call.srcH (unit.coordinate call.srcH call.dstH 223)

theorem coordinate_mono {src dst : Int} (src_pos : 0 < src) (dst_pos : 0 < dst) :
    Monotone (unit.coordinate src dst) := by
  intro left right le
  have from_zero {x : Rat} (nonneg : 0 ≤ x) : 0 ≤ unit.round x := unit.round_zero ▸ unit.round_mono nonneg
  have ratio : 0 ≤ unit.round (unit.round src / unit.round dst) :=
    from_zero (div_nonneg (from_zero (by exact_mod_cast src_pos.le)) (from_zero (by exact_mod_cast dst_pos.le)))
  have pos : unit.round left ≤ unit.round right := unit.round_mono (by exact_mod_cast le)
  have centre : unit.round (unit.round left + 1 / 2) ≤ unit.round (unit.round right + 1 / 2) :=
    unit.round_mono (by linarith)
  have scaled := unit.round_mono (mul_le_mul_of_nonneg_right centre ratio)
  exact unit.round_mono (by linarith)

theorem firstIndex_le_second (size : Int) (u : Rat) : unit.firstIndex size u ≤ unit.secondIndex size u := by
  have inside := clampIndex_lt size (unit.convert ⌊u⌋)
  unfold FloatUnit.secondIndex
  rw [clampIndex]
  refine le_min (le_trans ?_ (le_max_left _ _)) ?_
  · omega
  · exact Int.le_sub_one_of_lt inside

theorem secondIndex_mono (size : Int) : Monotone (unit.secondIndex size) := by
  intro left right le
  have first : unit.firstIndex size left ≤ unit.firstIndex size right :=
    clampIndex_mono size (unit.convert_mono (Int.floor_mono le))
  exact clampIndex_mono size (by omega)

theorem target_bounds {idx : Nat} (small : idx < totalElements) :
    (target idx).x ≤ 223 ∧ (target idx).y ≤ 223 ∧ (target idx).c ≤ 2 := by
  unfold totalElements at small
  unfold target
  dsimp only
  omega

theorem within_workItem {memory : Int → UInt8} {allowed : Int → Prop} {idx : Nat} (small : idx < totalElements) :
    let pixel := target idx
    let u := unit.coordinate call.srcW call.dstW pixel.x
    let v := unit.coordinate call.srcH call.dstH pixel.y
    Within memory allowed (workItem unit call idx) ↔
      allowed (call.place (unit.firstIndex call.srcH v) (unit.firstIndex call.srcW u) pixel.c) ∧
      allowed (call.place (unit.firstIndex call.srcH v) (unit.secondIndex call.srcW u) pixel.c) ∧
      allowed (call.place (unit.secondIndex call.srcH v) (unit.firstIndex call.srcW u) pixel.c) ∧
      allowed (call.place (unit.secondIndex call.srcH v) (unit.secondIndex call.srcW u) pixel.c) := by
  have item : ¬ totalElements ≤ idx := Nat.not_le_of_lt small
  dsimp only
  rw [workItem, if_neg item, resample]
  simp only [within_bind, within_fetch]
  constructor
  · rintro ⟨⟨first, second, third, fourth, _⟩, _⟩
    exact ⟨first, second, third, fourth⟩
  · rintro ⟨first, second, third, fourth⟩
    exact ⟨⟨first, second, third, fourth, within_pure _⟩, within_pure _⟩

/-- Places grow with the row, the column and the channel. -/
theorem place_le {row row' column column' : Int} {c c' : Nat} (rows : row ≤ row') (columns : column ≤ column')
    (channels : c ≤ c') : call.place row column c ≤ call.place row' column' c' := by
  have width := call.srcW_pos
  have channel := call.channels_pos
  have pixel : row * call.srcW + column ≤ row' * call.srcW + column' :=
    add_le_add (mul_le_mul_of_nonneg_right rows width.le) columns
  have scaled := mul_le_mul_of_nonneg_right pixel channel.le
  unfold Call.place
  omega

theorem place_nonneg {row column : Int} {c : Nat} (rows : 0 ≤ row) (columns : 0 ≤ column) :
    0 ≤ call.place row column c := by
  have least : call.place 0 0 0 = 0 := by simp [Call.place]
  exact least ▸ place_le call rows columns (Nat.zero_le c)

/-- The last byte of a channel of the last pixel. -/
theorem place_last (c : Nat) : call.place (call.srcH - 1) (call.srcW - 1) c =
    call.srcW * call.srcH * call.channels - call.channels + c := by
  unfold Call.place
  ring

theorem index_inside {size : Int} (positive : 0 < size) (u : Rat) :
    0 ≤ unit.firstIndex size u ∧ unit.secondIndex size u ≤ size - 1 :=
  ⟨clampIndex_nonneg positive _, Int.le_sub_one_of_lt (clampIndex_lt size _)⟩

/-- The kernel always reads three channels. It stays in the image when the image has them, and otherwise only
where the furthest pixel that is read is not the last one. -/
theorem readsInside_iff : InBounds unit call ↔
    3 ≤ call.channels ∨ call.place (call.lastRow unit) (call.lastColumn unit) 2 <
      call.srcW * call.srcH * call.channels := by
  constructor
  · rintro ⟨reads, _⟩
    -- the last work item reads the furthest place
    have last := (within_workItem unit call (by decide)).mp (reads (fun _ => 0) 150527)
    have furthest : target 150527 = ⟨223, 223, 2⟩ := by decide
    rw [furthest] at last
    exact Or.inr last.2.2.2.2
  · intro condition
    constructor
    · intro memory idx
      rcases le_or_gt totalElements idx with beyond | small
      · rw [workItem, if_pos beyond]
        exact within_pure none
      obtain ⟨x, y, c⟩ := target_bounds small
      have columns := secondIndex_mono unit call.srcW (coordinate_mono unit call.srcW_pos call.dstW_pos x)
      have rows := secondIndex_mono unit call.srcH (coordinate_mono unit call.srcH_pos call.dstH_pos y)
      have inside {row column : Int} (low : 0 ≤ row ∧ 0 ≤ column)
          (high : row ≤ call.lastRow unit ∧ column ≤ call.lastColumn unit) :
          0 ≤ call.place row column (target idx).c ∧
            call.place row column (target idx).c < call.srcW * call.srcH * call.channels := by
        refine ⟨place_nonneg call low.1 low.2, ?_⟩
        rcases condition with three | furthest
        · -- three channels end with the last pixel
          have bottom := (index_inside unit call.srcH_pos (unit.coordinate call.srcH call.dstH 223)).2
          have right := (index_inside unit call.srcW_pos (unit.coordinate call.srcW call.dstW 223)).2
          have bound := place_le call (high.1.trans bottom) (high.2.trans right) c
          rw [place_last] at bound
          omega
        · exact (place_le call high.1 high.2 c).trans_lt furthest
      have column := (index_inside unit call.srcW_pos (unit.coordinate call.srcW call.dstW (target idx).x)).1
      have row := (index_inside unit call.srcH_pos (unit.coordinate call.srcH call.dstH (target idx).y)).1
      have column' := firstIndex_le_second unit call.srcW (unit.coordinate call.srcW call.dstW (target idx).x)
      have row' := firstIndex_le_second unit call.srcH (unit.coordinate call.srcH call.dstH (target idx).y)
      exact (within_workItem unit call small).mpr ⟨inside ⟨row, column⟩ ⟨row'.trans rows, column'.trans columns⟩,
        inside ⟨row, column.trans column'⟩ ⟨row'.trans rows, columns⟩,
        inside ⟨row.trans row', column⟩ ⟨rows, column'.trans columns⟩,
        inside ⟨row.trans row', column.trans column'⟩ ⟨rows, columns⟩⟩
    · intro memory idx written run
      rcases le_or_gt totalElements idx with beyond | small
      · rw [workItem, if_pos beyond] at run
        cases run
      · rw [workItem, if_neg (Nat.not_le_of_lt small), run_bind, run_pure] at run
        cases run
        exact small

/-- A grey image of one pixel. -/
def greyPixel : Call := ⟨1, 1, 1, 224, 224, by decide, by decide, by decide, by decide, by decide⟩

theorem greyPixel_overrun : ¬ InBounds FloatUnit.single greyPixel := by
  rintro ⟨reads, _⟩
  have last := (within_workItem FloatUnit.single greyPixel (by decide)).mp (reads (fun _ => 0) 150527)
  have furthest : target 150527 = ⟨223, 223, 2⟩ := by decide
  rw [furthest] at last
  have row := (index_inside FloatUnit.single Int.one_pos (FloatUnit.single.coordinate 1 224 223)).1
  have blue := (place_le greyPixel row row (le_refl 2)).trans_lt last.1.2
  exact absurd blue (by decide)

end Bounds

section Interpolation

variable {size : Int} {u : Rat}

theorem exact_firstIndex (size : Int) (u : Rat) : FloatUnit.exact.firstIndex size u = clampIndex size ⌊u⌋ := rfl

theorem exact_secondIndex (size : Int) (u : Rat) :
    FloatUnit.exact.secondIndex size u = clampIndex size (clampIndex size ⌊u⌋ + 1) := rfl

theorem exact_fraction (size : Int) (u : Rat) : FloatUnit.exact.fraction size u =
    if clampIndex size ⌊u⌋ = clampIndex size (clampIndex size ⌊u⌋ + 1) then 0 else Int.fract u := rfl

/-- Where the clamped neighbours of `u` and the weight between them really lie. Left of the first centre the
second neighbour is one of its own, but the weight is still counted from the neighbour outside. -/
def inward (size : Int) (u : Rat) : Rat := if u < 0 ∧ 1 < size then u + 1 else u

/-- Less than one step before the first sample. -/
theorem floor_before (near : -1 ≤ u) (below : u < 0) : ⌊u⌋ = -1 ∧ ⌊u + 1⌋ = 0 := by
  have floor : ⌊u⌋ = -1 := by
    rw [Int.floor_eq_iff]
    push_cast
    exact ⟨near, by linarith⟩
  rw [Int.floor_add_one, floor]
  exact ⟨rfl, rfl⟩

theorem mix_neighbours (samples : Int → Rat) (positive : 0 < size) (near : -1 ≤ u) :
    mix (samples (FloatUnit.exact.firstIndex size u)) (samples (FloatUnit.exact.secondIndex size u))
        (FloatUnit.exact.fraction size u) =
      linear (fun i => samples (clampIndex size i)) (inward size u) := by
  rw [exact_fraction, exact_firstIndex, exact_secondIndex]
  by_cases outside : u < 0 ∧ 1 < size
  · obtain ⟨below, several⟩ := outside
    obtain ⟨floor, next⟩ := floor_before near below
    have first : clampIndex size (-1) = 0 := clampIndex_below positive (by omega)
    have second : clampIndex size (0 + 1) = 1 := clampIndex_inside (by omega) (by omega)
    have inner : inward size u = u + 1 := if_pos ⟨below, several⟩
    rw [inner, linear, next, Int.fract_add_one, floor, first, second, if_neg Int.zero_ne_one,
      clampIndex_inside le_rfl positive]
  · have same : inward size u = u := if_neg outside
    rw [same]
    rcases lt_or_ge u 0 with below | nonneg
    · -- a single sample has no second neighbour
      have single : size = 1 := by
        have few : ¬ 1 < size := fun several => outside ⟨below, several⟩
        omega
      have floor : ⌊u⌋ < 0 := Int.floor_lt.mpr (by rwa [Int.cast_zero])
      have first : clampIndex size ⌊u⌋ = 0 := clampIndex_below positive floor.le
      have second : clampIndex size (0 + 1) = 0 := by
        rw [clampIndex_above (by omega)]
        omega
      rw [linear, clampIndex_below positive floor, first, second, mix_self, mix_self]
    · have low : 0 ≤ ⌊u⌋ := Int.floor_nonneg.mpr nonneg
      rcases le_or_gt (size - 1) ⌊u⌋ with above | inside
      · have first : clampIndex size ⌊u⌋ = size - 1 := clampIndex_above above
        have second : clampIndex size (size - 1 + 1) = size - 1 := clampIndex_above (by omega)
        rw [linear, clampIndex_above (above.trans (Int.le_add_one le_rfl)), first, second, mix_self, mix_self]
      · have first : clampIndex size ⌊u⌋ = ⌊u⌋ := clampIndex_inside low (by omega)
        have second : clampIndex size (⌊u⌋ + 1) = ⌊u⌋ + 1 := clampIndex_inside (by omega) (by omega)
        rw [linear, first, second, if_neg (by omega)]

end Interpolation

section Patches

structure Picture where
  width : Int
  height : Int
  width_pos : 0 < width
  height_pos : 0 < height

/-- The call for a picture with three channels. -/
def Picture.call (picture : Picture) : Call where
  srcW := picture.width
  srcH := picture.height
  channels := 3
  dstW := 224
  dstH := 224
  srcW_pos := picture.width_pos
  srcH_pos := picture.height_pos
  channels_pos := by decide
  dstW_pos := by decide
  dstH_pos := by decide

variable (picture : Picture) (pixels : Int → UInt8)

def Picture.sample (c : Nat) (y x : Int) : Rat := (pixels ((y * picture.width + x) * 3 + c)).toNat

/-- The picture with its border continued outwards. -/
def Picture.extended (c : Nat) (y x : Int) : Rat :=
  picture.sample pixels c (clampIndex picture.height y) (clampIndex picture.width x)

/-- The coordinate of the centre of a destination pixel. -/
def halfPixel (size : Int) (pos : Nat) : Rat := (pos + 1 / 2) * (size / 224) - 1 / 2

/-- From bytes to `[-1, 1]`. -/
def normalised (sample : Rat) : Rat := sample / 127.5 - 1

/-- What the element of a destination pixel should be. -/
def expected (pixel : Target) : Rat :=
  normalised (bilinear (picture.sample pixels pixel.c) (clampCoordinate picture.width (halfPixel picture.width pixel.x))
    (clampCoordinate picture.height (halfPixel picture.height pixel.y)))

/-- The place of an element in 256 patches of `[3][14][14]`. -/
def elementIndex (patch c row column : Nat) : Nat := ((patch * 3 + c) * 14 + row) * 14 + column

/-- Sixteen patches make a row of patches. -/
def patchPixel (patch c row column : Nat) : Target := ⟨patch % 16 * 14 + column, patch / 16 * 14 + row, c⟩

/-- Every element of the output is the one expected, in its place. -/
def Resampled : Prop :=
  ∀ patch < 256, ∀ c < 3, ∀ row < 14, ∀ column < 14,
    (workItem .exact picture.call (elementIndex patch c row column)).run pixels =
      some (elementIndex patch c row column, expected picture pixels (patchPixel patch c row column))

/-- The coordinate lies before the first sample, and there is a second one. -/
def Before (size : Int) (pos : Nat) : Prop := halfPixel size pos < 0 ∧ 1 < size

/-- Before the first row or column a step inwards makes no difference. -/
def Steady : Prop :=
  ∀ c < 3, ∀ y < 224, ∀ x < 224, Before picture.width x ∨ Before picture.height y →
    bilinear (picture.extended pixels c) (inward picture.width (halfPixel picture.width x))
        (inward picture.height (halfPixel picture.height y)) =
      bilinear (picture.extended pixels c) (halfPixel picture.width x) (halfPixel picture.height y)

theorem target_element {patch c row column : Nat} (channel : c < 3) (rows : row < 14) (columns : column < 14) :
    target (elementIndex patch c row column) = patchPixel patch c row column := by
  unfold target elementIndex patchPixel
  simp only [Target.mk.injEq]
  omega

theorem elementIndex_lt {patch c row column : Nat} (small : patch < 256) (channel : c < 3) (rows : row < 14)
    (columns : column < 14) : elementIndex patch c row column < totalElements := by
  unfold elementIndex totalElements
  omega

theorem halfPixel_near {size : Int} (positive : 0 < size) (pos : Nat) : -1 / 2 < halfPixel size pos := by
  have side : (0 : Rat) < size := by exact_mod_cast positive
  have scaled : (0 : Rat) < (pos + 1 / 2) * (size / 224) := by positivity
  unfold halfPixel
  linarith

/-- What the kernel computes: an interpolation of the extended picture, at coordinates that may have been
moved inwards. -/
theorem run_resample (pixel : Target) : (resample .exact picture.call pixel).run pixels =
    normalised (bilinear (picture.extended pixels pixel.c) (inward picture.width (halfPixel picture.width pixel.x))
      (inward picture.height (halfPixel picture.height pixel.y))) := by
  have near {size : Int} (positive : 0 < size) (pos : Nat) : -1 ≤ halfPixel size pos := by
    have half := halfPixel_near positive pos
    linarith
  have across (y : Int) := mix_neighbours (picture.sample pixels pixel.c y) picture.width_pos
    (near picture.width_pos pixel.x)
  have down := mix_neighbours (fun y => linear (fun x => picture.sample pixels pixel.c y (clampIndex picture.width x))
    (inward picture.width (halfPixel picture.width pixel.x))) picture.height_pos (near picture.height_pos pixel.y)
  -- rows first, then between them, as the kernel does
  rw [← across, ← across] at down
  simp only [resample, run_bind, run_fetch, run_pure]
  exact congrArg normalised down

theorem normalised_injective : Function.Injective normalised := by
  intro left right same
  have nonzero : (127.5 : Rat) ≠ 0 := by norm_num
  exact (div_left_inj' nonzero).mp (sub_left_injective same)

theorem run_workItem {patch c row column : Nat} (small : patch < 256) (channel : c < 3) (rows : row < 14)
    (columns : column < 14) :
    (workItem .exact picture.call (elementIndex patch c row column)).run pixels =
      some (elementIndex patch c row column,
        (resample .exact picture.call (patchPixel patch c row column)).run pixels) := by
  have index := elementIndex_lt small channel rows columns
  rw [workItem, if_neg (Nat.not_le_of_lt index), run_bind, run_pure, target_element channel rows columns]

theorem expected_eq (pixel : Target) : expected picture pixels pixel =
    normalised (bilinear (picture.extended pixels pixel.c) (halfPixel picture.width pixel.x)
      (halfPixel picture.height pixel.y)) := by
  rw [expected, bilinear_clamped _ picture.width_pos picture.height_pos]
  rfl

theorem expected_range (pixel : Target) : -1 ≤ expected picture pixels pixel ∧ expected picture pixels pixel ≤ 1 := by
  have byte (y x : Int) : (0 : Rat) ≤ picture.sample pixels pixel.c y x ∧ picture.sample pixels pixel.c y x ≤ 255 := by
    have small := (pixels ((y * picture.width + x) * 3 + pixel.c)).toNat_lt
    constructor
    · exact Nat.cast_nonneg _
    · have le : (pixels ((y * picture.width + x) * 3 + pixel.c)).toNat ≤ 255 := by omega
      exact_mod_cast Nat.cast_le.mpr le
  have range := bilinear_mem byte (clampCoordinate picture.width (halfPixel picture.width pixel.x))
    (clampCoordinate picture.height (halfPixel picture.height pixel.y))
  unfold expected normalised
  constructor
  · linarith [div_nonneg range.1 (show (0 : Rat) ≤ 127.5 by norm_num)]
  · have scaled := div_le_div_of_nonneg_right range.2 (show (0 : Rat) ≤ 127.5 by norm_num)
    norm_num at scaled ⊢
    linarith

/-- The output is right exactly where moving inwards makes no difference. -/
theorem resampled_steady : Resampled picture pixels ↔ Steady picture pixels := by
  constructor
  · intro resampled c channel y rows x columns _
    -- the element of this pixel
    have patch : y / 14 * 16 + x / 14 < 256 := by omega
    have element := resampled (y / 14 * 16 + x / 14) patch c channel (y % 14) (by omega) (x % 14) (by omega)
    have here : patchPixel (y / 14 * 16 + x / 14) c (y % 14) (x % 14) = ⟨x, y, c⟩ := by
      unfold patchPixel
      congr 1
      · omega
      · omega
    rw [run_workItem picture pixels patch channel (by omega) (by omega), run_resample, expected_eq, here] at element
    simp only [Option.some.injEq, Prod.mk.injEq, true_and] at element
    exact normalised_injective element
  · intro steady patch small c channel row rows column columns
    rw [run_workItem picture pixels small channel rows columns, run_resample, expected_eq]
    have place : (patchPixel patch c row column).x < 224 ∧ (patchPixel patch c row column).y < 224 := by
      simp only [patchPixel]
      omega
    by_cases before : Before picture.width (patchPixel patch c row column).x ∨
        Before picture.height (patchPixel patch c row column).y
    · have same := steady c channel _ place.2 _ place.1 before
      exact congrArg (fun value => some (elementIndex patch c row column, normalised value)) same
    · rw [not_or] at before
      have columnwise : inward picture.width (halfPixel picture.width (patchPixel patch c row column).x) = _ :=
        if_neg before.1
      have rowwise : inward picture.height (halfPixel picture.height (patchPixel patch c row column).y) = _ :=
        if_neg before.2
      rw [columnwise, rowwise]

theorem before_iff (size : Int) (pos : Nat) : Before size pos ↔ (2 * pos + 1) * size < 224 ∧ 1 < size := by
  have centre : halfPixel size pos = (((2 * pos + 1) * size - 224 : Int) : Rat) / 448 := by
    unfold halfPixel
    push_cast
    ring
  have sign : halfPixel size pos < 0 ↔ (2 * (pos : Int) + 1) * size - 224 < 0 := by
    rw [centre, div_lt_iff₀ (by norm_num), zero_mul]
    exact_mod_cast Iff.rfl
  rw [Before, sign]
  omega

theorem not_before {size : Int} (positive : 0 < size) (wide : size = 1 ∨ 224 ≤ size) (pos : Nat) :
    ¬ Before size pos := by
  rw [before_iff]
  rintro ⟨small, several⟩
  have grows : 1 * size ≤ (2 * pos + 1) * size := mul_le_mul_of_nonneg_right (by omega) positive.le
  omega

/-- A dark first sample beside bright ones. -/
def edge (size i : Int) : Rat := if clampIndex size i = 0 then 0 else 255

theorem edge_unsteady {size : Int} {pos : Nat} (before : Before size pos) :
    linear (edge size) (inward size (halfPixel size pos)) ≠ linear (edge size) (halfPixel size pos) := by
  obtain ⟨below, several⟩ := before
  have near := halfPixel_near (show 0 < size by omega) pos
  obtain ⟨floor, next⟩ := floor_before (show -1 ≤ halfPixel size pos by linarith) below
  have first : edge size (-1) = 0 := if_pos (clampIndex_below (by omega) (by omega))
  have second : edge size 0 = 0 := if_pos (clampIndex_below (by omega) le_rfl)
  have third : edge size 1 = 255 := by
    have here : clampIndex size 1 = 1 := clampIndex_inside (by omega) several
    rw [edge, here]
    rfl
  have moved : inward size (halfPixel size pos) = halfPixel size pos + 1 := if_pos ⟨below, several⟩
  have fraction : Int.fract (halfPixel size pos + 1) = halfPixel size pos + 1 := by
    rw [Int.fract, next, Int.cast_zero, sub_zero]
  -- the true value is dark, the moved one has a share of the bright sample
  rw [moved, linear, linear, next, floor, fraction, Int.zero_add, neg_add_cancel, first, second, third, mix_self, mix]
  intro dark
  linarith

/-- The picture whose first column is dark. -/
def darkColumn (place : Int) : UInt8 := if place / 3 % picture.width = 0 then 0 else 255

def darkRow (place : Int) : UInt8 := if place / 3 / picture.width = 0 then 0 else 255

theorem extended_darkColumn {c : Nat} (channel : c < 3) (y x : Int) :
    picture.extended (darkColumn picture) c y x = edge picture.width x := by
  have low := clampIndex_nonneg picture.width_pos x
  have high := clampIndex_lt picture.width x
  have pixel (Y X : Int) : ((Y * picture.width + X) * 3 + c) / 3 = Y * picture.width + X := by omega
  unfold Picture.extended Picture.sample darkColumn
  rw [pixel, Int.mul_add_emod_self_right, Int.emod_eq_of_lt low high, edge]
  split_ifs
  · rfl
  · rfl

theorem extended_darkRow {c : Nat} (channel : c < 3) (y x : Int) :
    picture.extended (darkRow picture) c y x = edge picture.height y := by
  have low := clampIndex_nonneg picture.width_pos x
  have high := clampIndex_lt picture.width x
  have pixel (Y X : Int) : ((Y * picture.width + X) * 3 + c) / 3 = Y * picture.width + X := by omega
  unfold Picture.extended Picture.sample darkRow
  rw [pixel, Int.mul_comm, Int.add_comm, Int.add_mul_ediv_left _ _ picture.width_pos.ne',
    Int.ediv_eq_zero_of_lt low high, Int.zero_add, edge]
  split_ifs
  · rfl
  · rfl

theorem darkColumn_unsteady (before : Before picture.width 0) : ¬ Steady picture (darkColumn picture) := by
  intro steady
  have same := steady 0 (by decide) 0 (by decide) 0 (by decide) (Or.inl before)
  have columns : picture.extended (darkColumn picture) 0 = fun _ x => edge picture.width x := by
    funext y x
    exact extended_darkColumn picture (by decide) y x
  rw [columns, bilinear, bilinear, linear_const, linear_const] at same
  exact edge_unsteady before same

theorem darkRow_unsteady (before : Before picture.height 0) : ¬ Steady picture (darkRow picture) := by
  intro steady
  have same := steady 0 (by decide) 0 (by decide) 0 (by decide) (Or.inr before)
  have rows : picture.extended (darkRow picture) 0 = fun y _ => edge picture.height y := by
    funext y x
    exact extended_darkRow picture (by decide) y x
  rw [rows, bilinear, bilinear] at same
  simp only [linear_const] at same
  exact edge_unsteady before same

/-- A side is enlarged when its first centre lies before the first sample. -/
theorem enlarged_iff {size : Int} (positive : 0 < size) : Before size 0 ↔ ¬ (size = 1 ∨ 224 ≤ size) := by
  rw [before_iff]
  omega

/-- Enlarging moves what lies before the first row or column one step inwards. A given picture is resampled
rightly when that makes no difference to it, and every picture of a size is when no side is enlarged. -/
theorem resampled_iff (picture : Picture) :
    (∀ pixels, Resampled picture pixels ↔ Steady picture pixels) ∧
      ((∀ pixels, Resampled picture pixels) ↔
        (picture.width = 1 ∨ 224 ≤ picture.width) ∧ (picture.height = 1 ∨ 224 ≤ picture.height)) := by
  refine ⟨resampled_steady picture, ?_⟩
  simp only [resampled_steady]
  constructor
  · intro steady
    constructor
    · by_contra enlarged
      exact darkColumn_unsteady picture ((enlarged_iff picture.width_pos).mpr enlarged) (steady _)
    · by_contra enlarged
      exact darkRow_unsteady picture ((enlarged_iff picture.height_pos).mpr enlarged) (steady _)
  · rintro ⟨wide, high⟩ pixels c _ y _ x _ (before | before)
    · exact absurd before (not_before picture.width_pos wide x)
    · exact absurd before (not_before picture.height_pos high y)

/-- A dark and a bright pixel. -/
def twoPixels : Picture := ⟨2, 1, by decide, by decide⟩

theorem twoPixels_moved : ¬ Resampled twoPixels (darkColumn twoPixels) := by
  rw [resampled_steady]
  exact darkColumn_unsteady twoPixels ((enlarged_iff twoPixels.width_pos).mpr (by decide))

end Patches

end XInfer.ImageResampling
