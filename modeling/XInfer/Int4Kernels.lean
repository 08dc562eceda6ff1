import XInfer.Int4Words
import XInfer.Launches
import Mathlib.Algebra.Field.Basic
import Mathlib.Algebra.BigOperators.Group.List.Basic

/-!
The INT4 kernels of `ops/linear.cpp`, in exact arithmetic: conversions lose nothing, and the reduction over a
sub-group is the sum of its lanes. A function is the list of the stores of the launch that it submits. Sizes
are natural numbers, since the functions return at once on others.
-/

namespace XInfer.Int4Kernels

open Int4Words Launches

variable {R : Type} [Field R]

def SG_SIZE : Nat := 16
def WG_SIZE : Nat := 64
def ROWS_PER_SG : Nat := 2

/-- Packed weights `[N, K/2]`, scales `[N, K/group_size]`, and a bias that may be missing. -/
structure Weights (R : Type) where
  wInt4 : Nat → UInt8
  scales : Nat → R
  bias : Option (Nat → R)

def Weights.addBias (w : Weights R) (n : Nat) (total : R) : R := match w.bias with
  | none => total
  | some bias => total + bias n

variable (X : Nat → R) (w : Weights R) (K groupSize : Nat)

section Naive

/-- The two elements of a byte. -/
def byteDot (m n g b : Nat) : R :=
  let rowX := fun k => X (m * K + k)
  let rowW := fun b => w.wInt4 (n * (K / 2) + b)
  let scale := w.scales (n * (K / groupSize) + g)
  let baseK := g * groupSize
  let byteVal := rowW (baseK / 2 + b)
  rowX (baseK + 2 * b) * (lowNibble byteVal * scale) + rowX (baseK + 2 * b + 1) * (highNibble byteVal * scale)

def naiveRow (m n : Nat) : R :=
  (List.range (K / groupSize)).foldl (fun acc g =>
    (List.range (groupSize / 2)).foldl (fun acc b => acc + byteDot X w K groupSize m n g b) acc) 0

def linearInt4Naive (M N : Nat) : List (Nat × R) :=
  if M = 0 ∨ N = 0 ∨ K = 0 then []
  else storesOf (M * N) fun item =>
    let m := item / N
    let n := item % N
    [(m * N + n, w.addBias n (naiveRow X w K groupSize m n))]

end Naive

section Lanes

/-- Eight elements against the nibbles of a word. -/
def wordDot (x : Nat → R) (p : BitVec 32) : R :=
  x 0 * wordNibble p 0 + x 1 * wordNibble p 1 + x 2 * wordNibble p 2 + x 3 * wordNibble p 3 +
    x 4 * wordNibble p 4 + x 5 * wordNibble p 5 + x 6 * wordNibble p 6 + x 7 * wordNibble p 7

def laneTerm (m n lane g : Nat) : R :=
  let baseK := g * groupSize
  let baseByte := baseK / 2
  let kOffset := baseK + lane * 8
  let p := wordAt w.wInt4 (n * (K / 2) + baseByte + 4 * lane)
  wordDot (fun i => X (m * K + (kOffset + i))) p * w.scales (n * (K / groupSize) + g)

/-- The accumulator of a lane behind the groups from the first on. -/
def laneAcc (m n first count lane : Nat) : R :=
  (List.range' first count).foldl (fun acc g => acc + laneTerm X w K groupSize m n lane g) 0

/-- `sycl::reduce_over_group` -/
def reduceOverGroup (lane : Nat → R) : R := ((List.range SG_SIZE).map lane).sum

/-- Row `n0` and, where there is one, the next. -/
def rowPair (N m n0 : Nat) (total : Nat → R) : List (Nat × R) :=
  (m * N + n0, w.addBias n0 (total n0)) ::
    if n0 + 1 < N then [(m * N + (n0 + 1), w.addBias (n0 + 1) (total (n0 + 1)))] else []

/-- The sub-groups of a launch that is padded to whole work-groups. -/
def paddedSubgroups (totalSubgroups : Nat) : Nat :=
  (totalSubgroups * SG_SIZE + WG_SIZE - 1) / WG_SIZE * WG_SIZE / SG_SIZE

def groupTotal (m n : Nat) : R := reduceOverGroup (laneAcc X w K groupSize m n 0 (K / groupSize))

end Lanes

section Linear

/-- The sums of the `S` sub-groups of a work-group, over their parts of the groups. -/
def splitTotal (S m n : Nat) : R :=
  let numGroups := K / groupSize
  let groupsPerSplit := (numGroups + S - 1) / S
  (List.range S).foldl (fun sum s =>
    let gStart := s * groupsPerSplit
    let gEnd := if numGroups < gStart + groupsPerSplit then numGroups else gStart + groupsPerSplit
    sum + if gStart < numGroups then reduceOverGroup (laneAcc X w K groupSize m n gStart (gEnd - gStart)) else 0) 0

/-- One work-group for two rows. -/
def splitkInt4 (S M N sgsPerM : Nat) : List (Nat × R) :=
  storesOf (M * sgsPerM) fun wgId =>
    let m := wgId / sgsPerM
    let sgIdx := wgId % sgsPerM
    rowPair w N m (sgIdx * ROWS_PER_SG) (splitTotal X w K groupSize S m)

def standardInt4 (M N sgsPerM : Nat) : List (Nat × R) :=
  let totalSubgroups := M * sgsPerM
  storesOf (paddedSubgroups totalSubgroups) fun globalSgId =>
    if totalSubgroups ≤ globalSgId then []
    else
      let m := globalSgId / sgsPerM
      let sgIdx := globalSgId % sgsPerM
      rowPair w N m (sgIdx * ROWS_PER_SG) (groupTotal X w K groupSize m)

def HW_THREADS : Nat := 1280
def OCCUPANCY_FLOOR : Nat := HW_THREADS / 10

def linearInt4 (M N : Nat) : List (Nat × R) :=
  if M = 0 ∨ N = 0 ∨ K = 0 then []
  else
    let numGroups := K / groupSize
    let sgsPerM := (N + ROWS_PER_SG - 1) / ROWS_PER_SG
    let baseSgs := M * sgsPerM
    let standard := standardInt4 X w K groupSize M N sgsPerM
    if baseSgs < OCCUPANCY_FLOOR ∧ 2 ≤ numGroups then
      let targetS := (OCCUPANCY_FLOOR + baseSgs - 1) / baseSgs
      if 4 < targetS ∧ 8 ≤ numGroups then splitkInt4 X w K groupSize 8 M N sgsPerM
      else if 4 ≤ numGroups then splitkInt4 X w K groupSize 4 M N sgsPerM
      else if 2 ≤ numGroups then splitkInt4 X w K groupSize 2 M N sgsPerM
      else standard
    else standard

end Linear

section Fused

structure FusedProjectionDesc (R : Type) extends Weights R where
  N : Nat

def FusedProjectionDesc.sgs (desc : FusedProjectionDesc R) : Nat := (desc.N + ROWS_PER_SG - 1) / ROWS_PER_SG

variable (descs : List (FusedProjectionDesc R))

def sgOffset (p : Nat) : Nat := ((descs.take p).map FusedProjectionDesc.sgs).sum

/-- The projection of a sub-group. -/
def projectionOf (sgInM : Nat) : Nat :=
  let p := if 1 < descs.length ∧ sgOffset descs 1 ≤ sgInM then 1 else 0
  let p := if 2 < descs.length ∧ sgOffset descs 2 ≤ sgInM then 2 else p
  if 3 < descs.length ∧ sgOffset descs 3 ≤ sgInM then 3 else p

/-- The stores, with the number of the projection to whose output they go. -/
def linearInt4Fused (M : Nat) : List ((Nat × Nat) × R) :=
  if M = 0 ∨ K = 0 ∨ descs.length = 0 ∨ 4 < descs.length then []
  else
    let totalSgsPerM := sgOffset descs descs.length
    let totalSubgroups := M * totalSgsPerM
    storesOf (paddedSubgroups totalSubgroups) fun globalSgId =>
      if totalSubgroups ≤ globalSgId then []
      else
        let m := globalSgId / totalSgsPerM
        let sgInM := globalSgId % totalSgsPerM
        let p := projectionOf descs sgInM
        let localSg := sgInM - sgOffset descs p
        match descs[p]? with
        | none => []
        | some desc =>
            (rowPair desc.toWeights desc.N m (localSg * ROWS_PER_SG) (groupTotal X desc.toWeights K groupSize m)).map
              fun store => ((p, store.1), store.2)

end Fused

section Gate

variable (exp : R → R)

/-- The gate times its logistic function, times the other. -/
def swiglu (gate up : R) : R := gate / (1 + exp (-gate)) * up

def mlpGateUpSwigluInt4 (gate up : Weights R) (M N : Nat) : List (Nat × R) :=
  if M = 0 ∨ N = 0 ∨ K = 0 then []
  else
    let totalSubgroups := M * N
    storesOf (paddedSubgroups totalSubgroups) fun globalSgId =>
      if totalSubgroups ≤ globalSgId then []
      else
        let m := globalSgId / N
        let n := globalSgId % N
        [(m * N + n, swiglu exp (groupTotal X gate K groupSize m n) (groupTotal X up K groupSize m n))]

end Gate

end XInfer.Int4Kernels
