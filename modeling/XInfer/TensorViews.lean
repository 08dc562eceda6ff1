import XInfer.ByteString
import XInfer.StateException
import XInfer.Strides
import XInfer.TokenizerJson
import Mathlib.Data.Int.ModEq
import Mathlib.Data.List.GetD

/-!
`TensorShape` and `TensorView` of `core/tensor.h`, with `slice` and `reshape` of `core/tensor.cpp`. An `int64_t` is an
integer that each operation wraps, and a pointer an address below 2 ^ 64. As long as no sum of a slice and no product
of a shape wraps, the elements of a view are those that its slices and reshapes lead to.
-/

namespace XInfer.TensorViews

open Primitives ByteString StateException Strides
open TokenizerJson (int64)

inductive DataType where
  | float32
  | float16
  | bfloat16
  | int32
  | int8
  | uint8
  | int4
  deriving DecidableEq

def dtypeSizeBytes : DataType → Nat
  | .float32 => 4
  | .float16 => 2
  | .bfloat16 => 2
  | .int32 => 4
  | .int8 => 1
  | .uint8 => 1
  | .int4 => 0

/-- A `size_t` of an integer. -/
def sizeT (value : Int) : Int := value % 2 ^ 64

/-- An `int` of an integer. -/
def int32 (value : Int) : Int := (value + 2 ^ 31) % 2 ^ 32 - 2 ^ 31

structure TensorShape where
  dims : List Int
  deriving DecidableEq

namespace TensorShape

def ndim (shape : TensorShape) : Nat := shape.dims.length

def dim (shape : TensorShape) (i : Nat) : Except Exn Int :=
  if shape.dims.length ≤ i then .error (.standard (ascii "Tensor dimension index out of range"))
  else .ok (shape.dims.getD i 0)

def numel (shape : TensorShape) : Int :=
  if shape.dims = [] then 0 else shape.dims.foldl (fun count d => int64 (count * d)) 1

/-- A turn of the loop over the strides. -/
def strideStep (dims strides : List Int) (i : Nat) : List Int :=
  strides.set i (int64 (strides.getD (i + 1) 0 * dims.getD (i + 1) 0))

/-- The loop counts an `int` down from two less than the number of dimensions. -/
def computeContiguousStrides (shape : TensorShape) : List Int :=
  if shape.dims = [] then []
  else
    let loopStart := int32 (shape.dims.length - 2)
    (List.range (loopStart + 1).toNat).reverse.foldl (strideStep shape.dims) (List.replicate shape.dims.length 1)

end TensorShape

structure TensorView where
  data : Int
  shape : TensorShape
  strides : List Int
  dtype : DataType

namespace TensorView

/-- The constructor without strides. -/
def ofShape (data : Int) (shape : TensorShape) (dtype : DataType) : TensorView :=
  ⟨data, shape, shape.computeContiguousStrides, dtype⟩

def IsContiguous (view : TensorView) : Prop :=
  view.shape.ndim ≤ 1 ∨ view.strides = view.shape.computeContiguousStrides

instance (view : TensorView) : Decidable view.IsContiguous :=
  inferInstanceAs (Decidable (view.shape.ndim ≤ 1 ∨ view.strides = view.shape.computeContiguousStrides))

/-- `byte_offset` -/
def byteOffset (dtype : DataType) (elementOffset : Int) : Except Exn Int :=
  if dtype = .int4 then
    if elementOffset.tmod 2 ≠ 0 then
      .error (.standard (ascii "INT4 slice offset must be byte-aligned (even element index)"))
    else .ok (sizeT (elementOffset.tdiv 2))
  else .ok (sizeT (sizeT elementOffset * dtypeSizeBytes dtype))

def slice (dimIdx : Nat) (start length : Int) : EStateM Exn TensorView TensorView := do
  let this ← read id
  if this.shape.ndim ≤ dimIdx then throw (.standard (ascii "Slice dimension index out of range"))
  else
    let dimLen ← raise (this.shape.dim dimIdx)
    -- the sum may wrap to one below the length
    if start < 0 ∨ length < 0 ∨ dimLen < int64 (start + length) then
      throw (.standard (ascii "Slice range [start, start + length) out of bounds"))
    else
      let newDims := this.shape.dims.set dimIdx length
      let elementOffset := int64 (start * this.strides.getD dimIdx 0)
      let byteOffset ← raise (byteOffset this.dtype elementOffset)
      pure ⟨sizeT (this.data + byteOffset), ⟨newDims⟩, this.strides, this.dtype⟩

def reshape (newShape : TensorShape) : EStateM Exn TensorView TensorView := do
  let this ← read id
  if ¬ this.IsContiguous then throw (.standard (ascii "Cannot reshape non-contiguous TensorView"))
  -- both products may wrap
  else if newShape.numel ≠ this.shape.numel then
    throw (.standard (ascii "Reshape element count mismatch: " ++ signedDecimal this.shape.numel ++ ascii " vs " ++
      signedDecimal newShape.numel))
  else pure (ofShape this.data newShape this.dtype)

/-- Where the element at an index lies. -/
def address (view : TensorView) (index : List Int) : Int :=
  sizeT (view.data + dot index view.strides * dtypeSizeBytes view.dtype)

end TensorView

/-- A call on a view, which gives another one. -/
inductive Call where
  | slice (dimIdx : Nat) (start length : Int)
  | reshape (newShape : TensorShape)

def Call.on : Call → EStateM Exn TensorView TensorView
  | .slice dimIdx start length => TensorView.slice dimIdx start length
  | .reshape newShape => TensorView.reshape newShape

/-- Each call on the view of the one before. -/
def chain : List Call → TensorView → Except Exn TensorView
  | [], view => .ok view
  | call :: rest, view => match call.on view with
    | .ok next _ => chain rest next
    | .error thrown _ => .error thrown

section Meaning

/-- The dimensions behind a call. -/
def Call.dims (dims : List Int) : Call → List Int
  | .slice dimIdx _ length => dims.set dimIdx length
  | .reshape newShape => newShape.dims

/-- The index that an index behind a call had before it. -/
def Call.pull (dims : List Int) (index : List Int) : Call → List Int
  | .slice dimIdx start _ => index.modify dimIdx (· + start)
  | .reshape newShape => unravel dims (flat newShape.dims index)

/-- The same behind all calls. -/
def pull : List Call → List Int → List Int → List Int
  | [], _, index => index
  | call :: rest, dims, index => call.pull dims (pull rest (call.dims dims) index)

/-- A product that is an `int64_t`, of fewer dimensions than an `int` counts. -/
structure Fits (dims : List Int) : Prop where
  low : -2 ^ 63 ≤ dims.prod
  high : dims.prod < 2 ^ 63
  rank : dims.length < 2 ^ 31 + 2

/-- A slice whose end is an `int64_t`, or a shape that fits. -/
def Call.Fits : Call → Prop
  | .slice _ start length => start + length < 2 ^ 63
  | .reshape newShape => TensorViews.Fits newShape.dims

end Meaning

section Wrapping

theorem int64_modEq (value : Int) : int64 value ≡ value [ZMOD 2 ^ 64] := by
  unfold int64 Int.ModEq
  omega

theorem int64_of_fits {value : Int} (low : -2 ^ 63 ≤ value) (high : value < 2 ^ 63) : int64 value = value := by
  unfold int64
  omega

theorem int64_congr {value other : Int} (same : value ≡ other [ZMOD 2 ^ 64]) : int64 value = int64 other := by
  unfold int64 Int.ModEq at *
  omega

theorem int64_apart (value other : Int) (small : |value| < 2 ^ 63) (small' : |other| < 2 ^ 63)
    (same : int64 value = int64 other) : value = other := by
  rw [abs_lt] at small small'
  rwa [int64_of_fits small.1.le small.2, int64_of_fits small'.1.le small'.2] at same

theorem int64_mul (value factor : Int) : int64 (int64 value * factor) = int64 (value * factor) :=
  int64_congr ((int64_modEq value).mul_right factor)

theorem sizeT_modEq (value : Int) : sizeT value ≡ value [ZMOD 2 ^ 64] := Int.mod_modEq value _

theorem dot_int64 (index rest : List Int) : dot index (rest.map int64) ≡ dot index rest [ZMOD 2 ^ 64] := by
  induction index generalizing rest with
  | nil => rfl
  | cons i index ih =>
      cases rest with
      | nil => rfl
      | cons stride rest =>
          rw [List.map_cons, dot, dot]
          exact ((int64_modEq stride).mul_left i).add (ih rest)

end Wrapping

namespace TensorShape

theorem dim_inside {shape : TensorShape} {i : Nat} (inside : i < shape.dims.length) : shape.dim i = .ok shape.dims[i] := by
  rw [dim, if_neg (Nat.not_le.2 inside), List.getD_eq_getElem _ _ inside]

theorem numel_foldl (dims : List Int) (count : Int) :
    dims.foldl (fun count d => int64 (count * d)) (int64 count) = int64 (count * dims.prod) := by
  induction dims generalizing count with
  | nil => rw [List.foldl_nil, List.prod_nil, mul_one]
  | cons d rest ih => rw [List.foldl_cons, int64_mul, ih, List.prod_cons, mul_assoc]

/-- How many elements there are, over the integers. -/
def count (dims : List Int) : Int := if dims = [] then 0 else dims.prod

theorem numel_eq (shape : TensorShape) : shape.numel = int64 (count shape.dims) := by
  unfold numel count
  split
  · rfl
  · exact (numel_foldl shape.dims 1).trans (by rw [one_mul])

theorem strideStep_cons (d stride : Int) (rest strides : List Int) (items : List Nat) :
    (items.map (· + 1)).foldl (strideStep (d :: rest)) (stride :: strides) =
      stride :: items.foldl (strideStep rest) strides := by
  induction items generalizing strides with
  | nil => rfl
  | cons i items ih =>
      rw [List.map_cons, List.foldl_cons, List.foldl_cons, ← ih]
      rfl

/-- The loop over all dimensions but the last one. -/
theorem strideLoop_eq (d : Int) (rest : List Int) :
    (List.range rest.length).reverse.foldl (strideStep (d :: rest)) (List.replicate (rest.length + 1) 1) =
      (Strides.strides (d :: rest)).map int64 := by
  induction rest generalizing d with
  | nil => rfl
  | cons e more ih =>
      rw [List.length_cons, List.range_succ_eq_map, List.reverse_cons, List.foldl_append, ← List.map_reverse,
        List.replicate_succ]
      -- the turns on the dimensions behind the first one are those of the loop over them
      have behind := strideStep_cons d 1 (e :: more) (List.replicate (more.length + 1) 1) (List.range more.length).reverse
      rw [ih e] at behind
      rw [behind]
      have last : int64 (int64 more.prod * e) = int64 (e :: more).prod := by rw [int64_mul, List.prod_cons, mul_comm]
      exact congrArg (· :: (Strides.strides (e :: more)).map int64) last

theorem computeContiguousStrides_eq {shape : TensorShape} (rank : shape.dims.length < 2 ^ 31 + 2) :
    shape.computeContiguousStrides = (Strides.strides shape.dims).map int64 := by
  obtain ⟨dims⟩ := shape
  unfold computeContiguousStrides
  cases dims with
  | nil => rfl
  | cons d rest =>
      have turns : (int32 (((d :: rest).length : Int) - 2) + 1).toNat = rest.length := by
        rw [List.length_cons] at rank ⊢
        unfold int32
        omega
      rw [if_neg (List.cons_ne_nil _ _)]
      dsimp only
      rw [turns]
      exact strideLoop_eq d rest

end TensorShape

open TensorShape (count)

theorem Fits.count {dims : List Int} (fits : Fits dims) : -2 ^ 63 ≤ count dims ∧ count dims < 2 ^ 63 := by
  unfold TensorShape.count
  split
  · decide
  · exact ⟨fits.low, fits.high⟩

theorem count_pos {dims : List Int} (filled : 0 < count dims) : dims ≠ [] ∧ count dims = dims.prod := by
  unfold TensorShape.count at filled ⊢
  split at filled
  · exact absurd filled (lt_irrefl 0)
  next ranked => exact ⟨ranked, if_neg ranked⟩

theorem count_index {dims index : List Int} (ranked : dims ≠ []) (inside : InRange dims index) : 0 < count dims := by
  rw [TensorShape.count, if_neg ranked]
  exact prod_pos inside

/-- A shorter dimension takes the number of elements towards zero. -/
theorem count_set {dims : List Int} {k : Nat} (inside : k < dims.length) {length : Int} (nonneg : 0 ≤ length)
    (shorter : length ≤ dims[k]) :
    (count dims ≤ 0 → count dims ≤ count (dims.set k length) ∧ count (dims.set k length) ≤ 0) ∧
      (0 < count dims → 0 ≤ count (dims.set k length)) := by
  have ranked : dims ≠ [] := List.ne_nil_of_length_pos (Nat.zero_lt_of_lt inside)
  have still : dims.set k length ≠ [] := mt (List.set_eq_nil_iff k length).1 ranked
  obtain ⟨others, whole, replaced⟩ := prod_others inside
  unfold TensorShape.count
  rw [if_neg ranked, if_neg still, whole, replaced]
  generalize dims[k] = d at shorter ⊢
  constructor
  · intro empty
    rcases le_or_gt others 0 with down | up
    · exact ⟨mul_le_mul_of_nonpos_right shorter down, mul_nonpos_of_nonneg_of_nonpos nonneg down⟩
    · -- the dimension has no elements
      have none' : d ≤ 0 := nonpos_of_mul_nonpos_left empty up
      obtain rfl : d = 0 := le_antisymm none' (nonneg.trans shorter)
      obtain rfl : length = 0 := le_antisymm shorter nonneg
      exact ⟨le_refl _, empty⟩
  · intro filled
    exact mul_nonneg nonneg (pos_of_mul_pos_right filled (nonneg.trans shorter)).le

namespace TensorView

/-- A slice that returns. -/
theorem slice_ok {dimIdx : Nat} {start length : Int} {view result after : TensorView}
    (ran : slice dimIdx start length view = .ok result after) :
    ∃ inside : dimIdx < view.shape.dims.length, 0 ≤ start ∧ 0 ≤ length ∧
      int64 (start + length) ≤ view.shape.dims[dimIdx] ∧
      ∃ offset, byteOffset view.dtype (int64 (start * view.strides.getD dimIdx 0)) = .ok offset ∧
        result = ⟨sizeT (view.data + offset), ⟨view.shape.dims.set dimIdx length⟩, view.strides, view.dtype⟩ := by
  unfold slice at ran
  obtain ⟨this, middle, looked, ran⟩ := bind_ok ran
  cases looked
  dsimp only [id] at ran
  split at ran
  · cases ran
  next inside =>
    have within : dimIdx < view.shape.dims.length := Nat.not_le.1 inside
    obtain ⟨dimLen, middle, found, ran⟩ := bind_ok ran
    rw [TensorShape.dim_inside within] at found
    cases found
    split at ran
    · cases ran
    next range =>
      obtain ⟨offset, middle, offsets, ran⟩ := bind_ok ran
      cases shifted : byteOffset view.dtype (int64 (start * view.strides.getD dimIdx 0)) with
      | error thrown =>
          rw [shifted] at offsets
          cases offsets
      | ok bytes =>
          rw [shifted] at offsets
          cases offsets
          cases ran
          exact ⟨within, by omega, by omega, by omega, offset, rfl, rfl⟩

/-- A reshape that returns. -/
theorem reshape_ok {newShape : TensorShape} {view result after : TensorView}
    (ran : reshape newShape view = .ok result after) :
    view.IsContiguous ∧ newShape.numel = view.shape.numel ∧ result = ofShape view.data newShape view.dtype := by
  unfold reshape at ran
  obtain ⟨this, middle, looked, ran⟩ := bind_ok ran
  cases looked
  dsimp only [id] at ran
  split at ran
  · cases ran
  next contiguous =>
    split at ran
    · cases ran
    next equal =>
      cases ran
      exact ⟨not_not.1 contiguous, not_not.1 equal, rfl⟩

end TensorView

/-- A call leaves its view as it was, whether it returns or throws. -/
theorem on_stays (call : Call) : Frame id call.on := by
  cases call with
  | slice dimIdx start length =>
      refine frame_bind (frame_read id) fun this => frame_ite (fun _ => rfl) ?_
      refine frame_bind (frame_raise _) fun dimLen => frame_ite (fun _ => rfl) ?_
      exact frame_bind (frame_raise _) fun offset => frame_pure _
  | reshape newShape =>
      exact frame_bind (frame_read id) fun this => frame_ite (fun _ => rfl) (frame_ite (fun _ => rfl) (frame_pure _))

section Tracking

/-- The view is a part of an array of the original elements from `first` on, and an index behind the calls has the
element that `element` leads to. -/
structure Placed (base size total : Int) (view : TensorView) (element : List Int → Int) (wholes starts : List Int)
    (first : Int) : Prop where
  sliced : Sliced view.shape.dims wholes starts
  filled : 0 < wholes.prod
  low : 0 ≤ first
  high : first + wholes.prod ≤ total
  rank : wholes.length < 2 ^ 31 + 2
  strides : view.strides = (strides wholes).map int64
  data : view.data ≡ base + (first + dot starts (Strides.strides wholes)) * size [ZMOD 2 ^ 64]
  element : ∀ index, index.length = view.shape.dims.length →
    element index = first + dot (moved starts index) (Strides.strides wholes)

/-- A view has no index, or it is placed. -/
def Tracked (base size total : Int) (view : TensorView) (element : List Int → Int) : Prop :=
  (-2 ^ 63 ≤ count view.shape.dims ∧ count view.shape.dims ≤ 0) ∨
    0 < count view.shape.dims ∧ ∃ wholes starts first, Placed base size total view element wholes starts first

variable {base size total : Int} {view : TensorView} {element : List Int → Int}

/-- The element of an index in range. -/
theorem Placed.address {wholes starts : List Int} {first : Int}
    (placed : Placed base size total view element wholes starts first) (dtype : dtypeSizeBytes view.dtype = size)
    {index : List Int} (inside : InRange view.shape.dims index) :
    0 ≤ element index ∧ element index < total ∧ view.address index = sizeT (base + element index * size) := by
  have lengths := placed.sliced.lengths
  have same : index.length = view.shape.dims.length := (List.Forall₂.length_eq inside).symm
  have bounds := flat_bounds (placed.sliced.inside inside)
  unfold flat at bounds
  have value := placed.element index same
  have low := placed.low
  have high := placed.high
  refine ⟨by omega, by omega, ?_⟩
  -- the wrapped strides move the address as the strides do
  have moves : dot index view.strides ≡ dot index (Strides.strides wholes) [ZMOD 2 ^ 64] := by
    rw [placed.strides]
    exact dot_int64 index _
  unfold TensorView.address
  rw [value, dot_moved (lengths.2.trans same.symm), dtype]
  have total' := placed.data.add (moves.mul_right size)
  rw [show base + (first + dot starts (Strides.strides wholes)) * size + dot index (Strides.strides wholes) * size =
    base + (first + (dot starts (Strides.strides wholes) + dot index (Strides.strides wholes))) * size by ring] at total'
  exact total'

theorem Placed.slice {wholes starts : List Int} {first : Int}
    (placed : Placed base size total view element wholes starts first) {dimIdx : Nat} {start length offset : Int}
    (inside : dimIdx < view.shape.dims.length) (low : 0 ≤ start) (nonneg : 0 ≤ length)
    (fits : start + length ≤ view.shape.dims[dimIdx])
    (bytes : offset ≡ start * view.strides.getD dimIdx 0 * size [ZMOD 2 ^ 64]) :
    Placed base size total ⟨sizeT (view.data + offset), ⟨view.shape.dims.set dimIdx length⟩, view.strides, view.dtype⟩
      (fun index => element (index.modify dimIdx (· + start))) wholes (starts.modify dimIdx (· + start)) first where
  sliced := placed.sliced.slice low nonneg inside fits
  filled := placed.filled
  low := placed.low
  high := placed.high
  rank := placed.rank
  strides := placed.strides
  data := by
    have within : dimIdx < starts.length := by
      rw [placed.sliced.lengths.2]
      exact inside
    -- the stride of the view is the one of the whole
    have stride : view.strides.getD dimIdx 0 ≡ (Strides.strides wholes).getD dimIdx 0 [ZMOD 2 ^ 64] := by
      have mapped : ((Strides.strides wholes).map int64).getD dimIdx 0 = int64 ((Strides.strides wholes).getD dimIdx 0) :=
        List.getD_map _ 0 int64
      rw [placed.strides, mapped]
      exact int64_modEq _
    have place : base + (first + (dot starts (Strides.strides wholes) + start * (Strides.strides wholes).getD dimIdx 0)) * size =
        base + (first + dot starts (Strides.strides wholes)) * size + start * (Strides.strides wholes).getD dimIdx 0 * size := by
      ring
    rw [dot_modify within, place]
    exact (sizeT_modEq _).trans (placed.data.add (bytes.trans ((stride.mul_left start).mul_right size)))
  element index same := by
    rw [List.length_set] at same
    rw [placed.element _ (by rw [List.length_modify]; exact same), moved_modify]

theorem Tracked.slice (tracked : Tracked base size total view element) (dense : view.dtype ≠ .int4)
    (dtype : dtypeSizeBytes view.dtype = size) {dimIdx : Nat} {start length : Int} (fits : start + length < 2 ^ 63)
    {result after : TensorView} (ran : TensorView.slice dimIdx start length view = .ok result after) :
    Tracked base size total result fun index => element (index.modify dimIdx (· + start)) := by
  obtain ⟨inside, low, nonneg, range, offset, bytes, rfl⟩ := TensorView.slice_ok ran
  rw [int64_of_fits (by omega) fits] at range
  obtain ⟨shorter, longer⟩ := count_set inside nonneg (by omega)
  rcases tracked with ⟨bounded, empty⟩ | ⟨filled, wholes, starts, first, placed⟩
  · obtain ⟨towards, still⟩ := shorter empty
    exact .inl ⟨bounded.trans towards, still⟩
  · -- a slice of no length leaves no index
    by_cases none' : count (view.shape.dims.set dimIdx length) ≤ 0
    · exact .inl ⟨(by decide : (-2 ^ 63 : Int) ≤ 0).trans (longer filled), none'⟩
    · refine .inr ⟨not_le.1 none', wholes, _, first, placed.slice inside low nonneg range ?_⟩
      rw [TensorView.byteOffset, if_neg dense] at bytes
      cases bytes
      rw [dtype]
      exact (sizeT_modEq _).trans (((sizeT_modEq _).trans (int64_modEq _)).mul_right size)

theorem Placed.reshape {wholes starts : List Int} {first : Int}
    (placed : Placed base size total view element wholes starts first) (bounded : total < 2 ^ 63)
    (contiguous : view.IsContiguous) (filled : 0 < count view.shape.dims) {newShape : TensorShape}
    (rank : newShape.dims.length < 2 ^ 31 + 2) (same : count newShape.dims = count view.shape.dims) :
    Placed base size total (.ofShape view.data newShape view.dtype)
      (fun index => element (unravel view.shape.dims (flat newShape.dims index))) newShape.dims
      (List.replicate newShape.dims.length 0) (first + dot starts (Strides.strides wholes)) := by
  obtain ⟨ranked, product⟩ := count_pos filled
  obtain ⟨-, product'⟩ := count_pos (same ▸ filled)
  rw [product] at filled
  have equal : newShape.dims.prod = view.shape.dims.prod := by rw [← product, ← product', same]
  have lengths := placed.sliced.lengths
  have strides : view.shape.dims.length ≤ 1 ∨
      (Strides.strides view.shape.dims).map int64 = (Strides.strides wholes).map int64 := by
    have rank' : view.shape.dims.length < 2 ^ 31 + 2 := by
      rw [lengths.1]
      exact placed.rank
    rw [← TensorShape.computeContiguousStrides_eq rank', ← placed.strides]
    exact contiguous.imp id Eq.symm
  have high := placed.high
  have low := placed.low
  -- the elements of a contiguous view follow one another, from its start on
  obtain ⟨own, before, behind⟩ := placed.sliced.contiguous int64_apart ranked strides filled placed.filled (by omega)
  constructor
  · exact .refl _
  · exact equal ▸ filled
  · exact add_nonneg low before
  · rw [equal]
    omega
  · exact rank
  · exact TensorShape.computeContiguousStrides_eq rank
  · rw [dot_zeros, add_zero]
    exact placed.data
  · intro index length
    have unraveled := flat_unravel ranked (flat newShape.dims index)
    unfold flat at unraveled
    rw [placed.element _ (unravel_length _ _), dot_moved (by rw [lengths.2, unravel_length]), own, flat, unraveled,
      dot_moved (by rw [List.length_replicate, length]; rfl), dot_zeros]
    ring

theorem Tracked.fits (tracked : Tracked base size total view element) (bounded : total < 2 ^ 63) :
    int64 (count view.shape.dims) = count view.shape.dims := by
  rcases tracked with ⟨low, empty⟩ | ⟨filled, wholes, starts, first, placed⟩
  · exact int64_of_fits low (by omega)
  · have smaller := placed.sliced.prod_le
    obtain ⟨-, product⟩ := count_pos filled
    rw [product] at filled ⊢
    rw [abs_of_pos filled, abs_of_pos placed.filled] at smaller
    have low := placed.low
    have high := placed.high
    exact int64_of_fits (by omega) (by omega)

theorem Tracked.reshape (tracked : Tracked base size total view element) (bounded : total < 2 ^ 63)
    {newShape : TensorShape} (fits : Fits newShape.dims) {result after : TensorView}
    (ran : TensorView.reshape newShape view = .ok result after) :
    Tracked base size total result fun index => element (unravel view.shape.dims (flat newShape.dims index)) := by
  obtain ⟨contiguous, equal, rfl⟩ := TensorView.reshape_ok ran
  rw [TensorShape.numel_eq, TensorShape.numel_eq, int64_of_fits fits.count.1 fits.count.2, tracked.fits bounded] at equal
  rcases tracked with empty | ⟨filled, wholes, starts, first, placed⟩
  · rw [← equal] at empty
    exact .inl empty
  · exact .inr ⟨equal ▸ filled, _, _, _, placed.reshape bounded contiguous filled fits.rank equal⟩

theorem Tracked.start {view : TensorView} (contiguous : view.strides = view.shape.computeContiguousStrides)
    (fits : Fits view.shape.dims) :
    Tracked view.data (dtypeSizeBytes view.dtype) view.shape.dims.prod view (flat view.shape.dims) := by
  by_cases empty : count view.shape.dims ≤ 0
  · exact .inl ⟨fits.count.1, empty⟩
  · obtain ⟨-, product⟩ := count_pos (not_le.1 empty)
    refine .inr ⟨not_le.1 empty, view.shape.dims, List.replicate view.shape.dims.length 0, 0, ?_⟩
    constructor
    · exact .refl _
    · exact product ▸ not_le.1 empty
    · exact le_refl _
    · exact (zero_add _).le
    · exact fits.rank
    · rw [contiguous, TensorShape.computeContiguousStrides_eq fits.rank]
    · rw [dot_zeros, add_zero, zero_mul, add_zero]
    · intro index length
      rw [dot_moved (by rw [List.length_replicate, length]), dot_zeros, zero_add, zero_add, flat]

/-- A call that returns. -/
theorem Tracked.call (tracked : Tracked base size total view element) (bounded : total < 2 ^ 63)
    (dense : view.dtype ≠ .int4) (dtype : dtypeSizeBytes view.dtype = size) {call : Call} (fits : call.Fits)
    {result after : TensorView} (ran : call.on view = .ok result after) :
    Tracked base size total result (fun index => element (call.pull view.shape.dims index)) ∧
      result.dtype = view.dtype ∧ result.shape.dims = call.dims view.shape.dims := by
  cases call with
  | slice dimIdx start length =>
      refine ⟨tracked.slice dense dtype fits ran, ?_⟩
      obtain ⟨-, -, -, -, offset, -, rfl⟩ := TensorView.slice_ok ran
      exact ⟨rfl, rfl⟩
  | reshape newShape =>
      refine ⟨tracked.reshape bounded fits ran, ?_⟩
      obtain ⟨-, -, rfl⟩ := TensorView.reshape_ok ran
      exact ⟨rfl, rfl⟩

/-- By induction on the calls. -/
theorem chain_tracked (bounded : total < 2 ^ 63) (calls : List Call) (fits : ∀ call ∈ calls, call.Fits)
    {view result : TensorView} {element : List Int → Int} (tracked : Tracked base size total view element)
    (dense : view.dtype ≠ .int4) (dtype : dtypeSizeBytes view.dtype = size) (ran : chain calls view = .ok result) :
    Tracked base size total result (fun index => element (pull calls view.shape.dims index)) ∧
      result.dtype = view.dtype := by
  induction calls generalizing view element with
  | nil =>
      cases ran
      exact ⟨tracked, rfl⟩
  | cons call rest ih =>
      rw [chain] at ran
      cases first : call.on view with
      | error thrown after =>
          rw [first] at ran
          cases ran
      | ok next after =>
          rw [first] at ran
          obtain ⟨step, kept, dims⟩ := tracked.call bounded dense dtype (fits call List.mem_cons_self) first
          have later := ih (fun call member => fits call (List.mem_cons_of_mem _ member)) step (kept ▸ dense) (kept ▸ dtype) ran
          rw [dims, kept] at later
          exact later

end Tracking

/-- Behind calls that do not overflow, an index in range has the element that they lead to, and a call that throws
leaves its view. -/
theorem views_compose (view : TensorView) (contiguous : view.strides = view.shape.computeContiguousStrides)
    (dense : view.dtype ≠ .int4) (fits : Fits view.shape.dims) :
    (∀ calls : List Call, (∀ call ∈ calls, call.Fits) → ∀ result, chain calls view = .ok result →
      ∀ index, result.shape.dims ≠ [] → InRange result.shape.dims index →
        let element := flat view.shape.dims (pull calls view.shape.dims index)
        let size : Int := dtypeSizeBytes view.dtype
        result.address index = sizeT (view.data + element * size) ∧ 0 ≤ element * size ∧
          element * size + size ≤ view.shape.dims.prod * size) ∧
    ∀ (call : Call) (source : TensorView), finalState (call.on source) = source := by
  constructor
  · intro calls steps result ran index ranked inside element size
    obtain ⟨tracked, kept⟩ := chain_tracked fits.high calls steps (.start contiguous fits) dense rfl ran
    rcases tracked with ⟨-, empty⟩ | ⟨-, wholes, starts, first, placed⟩
    · exact absurd (count_index ranked inside) (not_lt.2 empty)
    · obtain ⟨low, high, place⟩ := placed.address (by rw [kept]) inside
      have wide : (0 : Int) ≤ size := Int.natCast_nonneg _
      have rows : (element + 1) * size ≤ view.shape.dims.prod * size := mul_le_mul_of_nonneg_right high wide
      rw [add_mul, one_mul] at rows
      exact ⟨place, mul_nonneg low wide, rows⟩
  · exact on_stays

/-- The last two elements of the second of two rows, as a column. -/
theorem views_compose_column : ∃ result,
    chain [.slice 0 1 1, .reshape ⟨[3, 1]⟩, .slice 0 1 2] (.ofShape 4096 ⟨[2, 3]⟩ .float32) = .ok result ∧
      result.address [1, 0] = 4096 + 5 * 4 := by
  refine ⟨⟨4096 + 4 * 4, ⟨[2, 1]⟩, [1, 1], .float32⟩, by rfl, ?_⟩
  refine ((views_compose (.ofShape 4096 ⟨[2, 3]⟩ .float32) rfl (by decide) ⟨by decide, by decide, by decide⟩).1
    [.slice 0 1 1, .reshape ⟨[3, 1]⟩, .slice 0 1 2] ?_ _ (by rfl) [1, 0] (by decide) ?_).1
  · intro call member
    simp only [List.mem_cons, List.not_mem_nil, or_false] at member
    rcases member with rfl | rfl | rfl
    · exact (by decide : (1 + 1 : Int) < 2 ^ 63)
    · exact ⟨by decide, by decide, by decide⟩
    · exact (by decide : (1 + 2 : Int) < 2 ^ 63)
  · exact .cons (by decide) (.cons (by decide) .nil)

/-- Four elements in the bytes from 4096 to 4112. A slice whose end wraps, and a reshape whose number of elements does,
return views with indices behind them. -/
theorem views_escape :
    let view : TensorView := .ofShape 4096 ⟨[4]⟩ .float32
    (∃ result, chain [.slice 0 5 (2 ^ 63 - 1)] view = .ok result ∧ InRange result.shape.dims [0] ∧
      flat view.shape.dims (pull [.slice 0 5 (2 ^ 63 - 1)] view.shape.dims [0]) = 5 ∧ result.address [0] = 4096 + 5 * 4) ∧
    ∃ result, chain [.reshape ⟨[2 ^ 62 + 1, 4]⟩] view = .ok result ∧ InRange result.shape.dims [1, 0] ∧
      result.address [1, 0] = 4096 + 4 * 4 := by
  constructor
  · refine ⟨⟨4096 + 5 * 4, ⟨[2 ^ 63 - 1]⟩, [1], .float32⟩, by rfl, ?_, by decide, by decide⟩
    exact .cons (by decide) .nil
  · refine ⟨⟨4096, ⟨[2 ^ 62 + 1, 4]⟩, [4, 1], .float32⟩, by rfl, ?_, by decide⟩
    exact .cons (by decide) (.cons (by decide) .nil)

end XInfer.TensorViews
