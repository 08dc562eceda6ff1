import XInfer.BlockSums
import XInfer.Int4Kernels
import Mathlib.Algebra.BigOperators.Ring.Finset
import Mathlib.Algebra.Order.BigOperators.Group.List
import Mathlib.Tactic.Ring

/-!
The optimised INT4 kernels against the naive one: the sums over lanes, groups and sub-groups are the same sum,
and each launch stores the elements of the output one after the other.
-/

namespace XInfer.Int4Agreement

open Finset BlockSums Int4Kernels Int4Words Launches

variable {R : Type}

section Sums

variable [Field R] (X : Nat → R) (w : Weights R) (K m n : Nat)

theorem wordDot_bytes (x : Nat → R) (bytes : Nat → UInt8) (address : Nat) :
    wordDot x (wordAt bytes address) = ∑ j ∈ range 4,
      (x (2 * j) * lowNibble (bytes (address + j)) + x (2 * j + 1) * highNibble (bytes (address + j))) := by
  have nibbles := fun i (inside : i < 4) => wordNibble_byte bytes address inside
  obtain ⟨low0, high0⟩ := nibbles 0 (by decide)
  obtain ⟨low1, high1⟩ := nibbles 1 (by decide)
  obtain ⟨low2, high2⟩ := nibbles 2 (by decide)
  obtain ⟨low3, high3⟩ := nibbles 3 (by decide)
  simp only [sum_range_succ, range_zero, sum_empty, zero_add, ← low0, ← high0, ← low1, ← high1, ← low2, ← high2, ← low3,
    ← high3]
  simp only [wordDot, Nat.mul_zero, Nat.reduceMul, Nat.reduceAdd, Nat.zero_add]
  ring

/-- A lane has four bytes of a group, and the lanes have them all. -/
theorem lanes_group (g : Nat) :
    ∑ lane ∈ range 16, laneTerm X w K 128 m n lane g = ∑ b ∈ range 64, byteDot X w K 128 m n g b := by
  rw [show (64 : Nat) = 16 * 4 from rfl, sum_blocks]
  apply sum_congr rfl
  intro lane _
  have base : g * 128 / 2 = g * 64 := by omega
  simp only [laneTerm, wordDot_bytes, sum_mul, byteDot, base]
  apply sum_congr rfl
  intro j _
  rw [show n * (K / 2) + g * 64 + 4 * lane + j = n * (K / 2) + (g * 64 + (lane * 4 + j)) by ring,
    show m * K + (g * 128 + lane * 8 + 2 * j) = m * K + (g * 128 + 2 * (lane * 4 + j)) by ring,
    show m * K + (g * 128 + lane * 8 + (2 * j + 1)) = m * K + (g * 128 + 2 * (lane * 4 + j) + 1) by ring]
  ring

/-- The sub-group's sum over some groups. -/
theorem reduce_groups (first count : Nat) :
    reduceOverGroup (laneAcc X w K 128 m n first count) =
      ∑ i ∈ range count, ∑ b ∈ range 64, byteDot X w K 128 m n (first + i) b := by
  unfold reduceOverGroup laneAcc
  rw [sum_map_range]
  simp only [foldl_range', zero_add]
  rw [sum_comm]
  exact sum_congr rfl fun i _ => lanes_group X w K m n (first + i)

theorem naiveRow_sum : naiveRow X w K 128 m n = ∑ g ∈ range (K / 128), ∑ b ∈ range 64, byteDot X w K 128 m n g b := by
  unfold naiveRow
  simp only [foldl_range, zero_add, Nat.reduceDiv]

theorem groupTotal_eq : groupTotal X w K 128 m n = naiveRow X w K 128 m n := by
  rw [groupTotal, reduce_groups, naiveRow_sum]
  simp only [zero_add]

/-- The parts of the sub-groups are the groups, however they are cut. -/
theorem splitTotal_eq {S : Nat} (some' : 0 < S) : splitTotal X w K 128 S m n = naiveRow X w K 128 m n := by
  have covers : K / 128 ≤ S * ((K / 128 + S - 1) / S) := by
    have rounded := Nat.div_add_mod (K / 128 + S - 1) S
    have rest := Nat.mod_lt (K / 128 + S - 1) some'
    omega
  have ends : ∀ s, (if K / 128 < s * ((K / 128 + S - 1) / S) + (K / 128 + S - 1) / S then K / 128
      else s * ((K / 128 + S - 1) / S) + (K / 128 + S - 1) / S) =
        min (K / 128) (s * ((K / 128 + S - 1) / S) + (K / 128 + S - 1) / S) := by
    intro s
    split <;> omega
  unfold splitTotal
  simp only [foldl_range, zero_add, reduce_groups, ends]
  rw [sum_parts (fun g => ∑ b ∈ range 64, byteDot X w K 128 m n g b), Nat.min_eq_left covers, naiveRow_sum]

end Sums

section Stores

variable [Field R] (w : Weights R) (M N m : Nat)

theorem rowPair_whole (total : Nat → R) {pairs : Nat} (fits : pairs * 2 ≤ N) :
    storesOf pairs (fun s => rowPair w N m (s * 2) total) =
      (List.range (pairs * 2)).map fun n => (m * N + n, w.addBias n (total n)) := by
  induction pairs with
  | zero => rfl
  | succ pairs ih =>
      have second : pairs * 2 + 1 < N := by omega
      rw [storesOf_add, ih (by omega), Nat.add_mul, List.range_add, List.map_append]
      simp [storesOf, rowPair, second, List.range_succ]

/-- The pairs of rows are the rows; a last one without a second row stands alone. -/
theorem rowPairs (total : Nat → R) :
    storesOf ((N + ROWS_PER_SG - 1) / ROWS_PER_SG) (fun s => rowPair w N m (s * ROWS_PER_SG) total) =
      (List.range N).map fun n => (m * N + n, w.addBias n (total n)) := by
  unfold ROWS_PER_SG
  rcases Nat.mod_two_eq_zero_or_one N with even | odd
  · rw [show (N + 2 - 1) / 2 = N / 2 by omega, rowPair_whole w N m total (by omega), show N / 2 * 2 = N by omega]
  · have last : ¬ N / 2 * 2 + 1 < N := by omega
    rw [show (N + 2 - 1) / 2 = N / 2 + 1 by omega, storesOf_add, rowPair_whole w N m total (by omega)]
    have split : List.range N = List.range (N / 2 * 2) ++ [N / 2 * 2] := by
      rw [← List.range_succ]
      congr 1
      omega
    rw [split, List.map_append]
    simp [storesOf, rowPair, last]

theorem le_padded (totalSubgroups : Nat) : totalSubgroups ≤ paddedSubgroups totalSubgroups := by
  unfold paddedSubgroups SG_SIZE WG_SIZE
  omega

/-- Sub-groups for two rows each. -/
theorem pairs_outputs (total : Nat → Nat → R) :
    let sgsPerM := (N + ROWS_PER_SG - 1) / ROWS_PER_SG
    storesOf (M * sgsPerM) (fun id => rowPair w N (id / sgsPerM) (id % sgsPerM * ROWS_PER_SG) (total (id / sgsPerM))) =
      outputs M N fun m n => w.addBias n (total m n) := by
  dsimp only
  rw [storesOf_mul]
  apply List.flatMap_congr
  intro m _
  rw [← rowPairs]
  apply List.flatMap_congr
  intro s member
  rw [flat_div (List.mem_range.1 member), flat_mod (List.mem_range.1 member)]

end Stores

section Linear

variable [Field R] (X : Nat → R) (w : Weights R) (K M N : Nat)

/-- What the naive kernel stores. -/
def projected (m n : Nat) : R := w.addBias n (naiveRow X w K 128 m n)

theorem naive_outputs (some' : K ≠ 0) : linearInt4Naive X w K 128 M N = outputs M N (projected X w K) := by
  unfold linearInt4Naive
  by_cases empty : M = 0 ∨ N = 0
  · rw [if_pos (by omega), outputs_empty empty]
  · rw [if_neg (by omega)]
    exact outputs_items M N (projected X w K)

theorem splitk_outputs {S : Nat} (some' : 0 < S) :
    splitkInt4 X w K 128 S M N ((N + ROWS_PER_SG - 1) / ROWS_PER_SG) = outputs M N (projected X w K) := by
  have totals : splitTotal X w K 128 S = naiveRow X w K 128 := by
    funext m n
    exact splitTotal_eq X w K m n some'
  unfold splitkInt4
  rw [totals]
  exact pairs_outputs w M N (naiveRow X w K 128)

theorem standard_outputs :
    standardInt4 X w K 128 M N ((N + ROWS_PER_SG - 1) / ROWS_PER_SG) = outputs M N (projected X w K) := by
  have totals : groupTotal X w K 128 = naiveRow X w K 128 := by
    funext m n
    exact groupTotal_eq X w K m n
  unfold standardInt4
  dsimp only
  rw [storesOf_guarded (le_padded _), totals]
  exact pairs_outputs w M N (naiveRow X w K 128)

/-- Whichever kernel is chosen. -/
theorem linear_outputs (some' : K ≠ 0) : linearInt4 X w K 128 M N = outputs M N (projected X w K) := by
  unfold linearInt4
  by_cases empty : M = 0 ∨ N = 0
  · rw [if_pos (by omega), outputs_empty empty]
  · rw [if_neg (by omega)]
    dsimp only
    split
    · split
      · exact splitk_outputs X w K M N (by decide)
      · split
        · exact splitk_outputs X w K M N (by decide)
        · split
          · exact splitk_outputs X w K M N (by decide)
          · exact standard_outputs X w K M N
    · exact standard_outputs X w K M N

theorem mlp_outputs (exp : R → R) (gate up : Weights R) (some' : K ≠ 0) :
    mlpGateUpSwigluInt4 X K 128 exp gate up M N =
      outputs M N fun m n => swiglu exp (naiveRow X gate K 128 m n) (naiveRow X up K 128 m n) := by
  unfold mlpGateUpSwigluInt4
  by_cases empty : M = 0 ∨ N = 0
  · rw [if_pos (by omega), outputs_empty empty]
  · rw [if_neg (by omega)]
    dsimp only
    rw [storesOf_guarded (le_padded _)]
    simp only [groupTotal_eq]
    exact outputs_items M N fun m n => swiglu exp (naiveRow X gate K 128 m n) (naiveRow X up K 128 m n)

end Linear

section Fused

variable (descs : List (FusedProjectionDesc R))

theorem sgOffset_succ {p : Nat} (inside : p < descs.length) :
    sgOffset descs (p + 1) = sgOffset descs p + descs[p].sgs := by
  unfold sgOffset
  rw [List.take_succ_eq_append_getElem inside, List.map_append, List.sum_append]
  simp only [List.map_cons, List.map_nil, List.sum_cons, List.sum_nil, Nat.add_zero]

theorem sgOffset_end {p : Nat} (inside : p < descs.length) :
    sgOffset descs p + descs[p].sgs ≤ sgOffset descs descs.length := by
  rw [← sgOffset_succ descs inside]
  exact ((List.take_sublist_take_left inside).map _).sum_le_sum fun _ _ => Nat.zero_le _

/-- The tests find the projection that a sub-group belongs to. -/
theorem projectionOf_offset (few : descs.length ≤ 4) {p s : Nat} (inside : p < descs.length) (own : s < descs[p].sgs) :
    projectionOf descs (sgOffset descs p + s) = p := by
  have start : sgOffset descs 0 = 0 := rfl
  have ends := sgOffset_succ descs inside
  have ordered : ∀ q (within : q < descs.length), sgOffset descs q ≤ sgOffset descs (q + 1) :=
    fun q within => (sgOffset_succ descs within).symm ▸ Nat.le_add_right _ _
  have first : 0 < descs.length → sgOffset descs 0 ≤ sgOffset descs 1 := ordered 0
  have second : 1 < descs.length → sgOffset descs 1 ≤ sgOffset descs 2 := ordered 1
  have third : 2 < descs.length → sgOffset descs 2 ≤ sgOffset descs 3 := ordered 2
  unfold projectionOf
  dsimp only
  have cases : p = 0 ∨ p = 1 ∨ p = 2 ∨ p = 3 := by omega
  rcases cases with rfl | rfl | rfl | rfl <;> simp only [Nat.zero_add, Nat.reduceAdd] at ends
  · rw [if_neg (by omega), if_neg (by omega), if_neg (by omega)]
  · rw [if_neg (by omega), if_neg (by omega), if_pos (by omega)]
  · rw [if_neg (by omega), if_pos (by omega)]
  · rw [if_pos (by omega)]

/-- The stores to the output of one projection. -/
def toProjection (p : Nat) (stores : List ((Nat × Nat) × R)) : List (Nat × R) :=
  stores.filterMap fun store => if store.1.1 = p then some (store.1.2, store.2) else none

theorem toProjection_own (p : Nat) (stores : List (Nat × R)) :
    toProjection p (stores.map fun store => ((p, store.1), store.2)) = stores := by
  simp [toProjection, List.filterMap_map]

theorem toProjection_other {p q : Nat} (different : q ≠ p) (stores : List (Nat × R)) :
    toProjection p (stores.map fun store => ((q, store.1), store.2)) = [] := by
  simp [toProjection, List.filterMap_map, different]

/-- Of the projections of a row only one stores to its own output. -/
theorem toProjection_row {p count : Nat} (inside : p < count) (stores : Nat → List (Nat × R)) :
    toProjection p (storesOf count fun q => (stores q).map fun store => ((q, store.1), store.2)) = stores p := by
  induction count with
  | zero => cases inside
  | succ count ih =>
      rw [storesOf_add, toProjection, List.filterMap_append]
      by_cases last : p = count
      · have before : toProjection p (storesOf count fun q => (stores q).map fun store => ((q, store.1), store.2)) = [] := by
          unfold toProjection
          rw [List.filterMap_eq_nil_iff]
          intro store member
          obtain ⟨q, early, found⟩ := mem_storesOf.1 member
          obtain ⟨inner, -, rfl⟩ := List.mem_map.1 found
          exact if_neg (show ¬ q = p by omega)
        rw [toProjection] at before
        rw [before, List.nil_append]
        subst last
        simp only [storesOf, List.range_one, List.flatMap_cons, List.flatMap_nil, List.append_nil, Nat.add_zero]
        exact toProjection_own p (stores p)
      · have behind := toProjection_other (Ne.symm last) (stores count)
        rw [toProjection] at ih behind
        simp only [storesOf, List.range_one, List.flatMap_cons, List.flatMap_nil, List.append_nil, Nat.add_zero] at *
        rw [behind, List.append_nil]
        exact ih (by omega)

variable [Field R] (X : Nat → R) (K M : Nat)

/-- The launch, row by row and projection by projection. -/
theorem fused_rows (some' : K ≠ 0) (filled : descs ≠ []) (few : descs.length ≤ 4) :
    linearInt4Fused X K 128 descs M = storesOf M fun m => storesOf descs.length fun p =>
      match descs[p]? with
      | none => []
      | some desc => ((List.range desc.N).map fun n => (m * desc.N + n, projected X desc.toWeights K m n)).map
          fun store => ((p, store.1), store.2) := by
  have length : descs.length ≠ 0 := fun zero => filled (List.length_eq_zero_iff.1 zero)
  unfold linearInt4Fused
  by_cases empty : M = 0
  · rw [if_pos (.inl empty), empty]
    rfl
  · rw [if_neg (by omega)]
    dsimp only
    rw [storesOf_guarded (le_padded _), storesOf_mul]
    apply List.flatMap_congr
    intro m _
    -- the sub-groups of a row are cut at the offsets that the kernel is given
    have parts := fun body : Nat → List ((Nat × Nat) × R) =>
      storesOf_parts (descs.map FusedProjectionDesc.sgs) body (le_of_eq (List.length_map _).symm)
    have offsets : ∀ p, ((descs.map FusedProjectionDesc.sgs).take p).sum = sgOffset descs p := by
      intro p
      rw [← List.map_take]
      rfl
    simp only [offsets] at parts
    rw [parts]
    apply List.flatMap_congr
    intro p member
    -- the pairs of rows of one projection, each with its offset taken off again
    have inside := List.mem_range.1 member
    have width : (descs.map FusedProjectionDesc.sgs).getD p 0 = descs[p].sgs := by simp [inside]
    have rows := rowPairs descs[p].toWeights descs[p].N m (naiveRow X descs[p].toWeights K 128 m)
    rw [width, List.getElem?_eq_getElem inside]
    change _ = List.map _ (List.map (fun n => (_, descs[p].toWeights.addBias n _)) _)
    rw [← rows]
    unfold storesOf
    rw [List.map_flatMap]
    apply List.flatMap_congr
    intro s within
    have own := List.mem_range.1 within
    have total := Nat.lt_of_lt_of_le (Nat.add_lt_add_left own _) (sgOffset_end descs inside)
    rw [flat_div total, flat_mod total, projectionOf_offset descs few inside own, List.getElem?_eq_getElem inside]
    dsimp only
    rw [Nat.add_sub_cancel_left, show groupTotal X descs[p].toWeights K 128 m = naiveRow X descs[p].toWeights K 128 m
      from funext fun n => groupTotal_eq X descs[p].toWeights K m n]

theorem fused_outputs (some' : K ≠ 0) (few : descs.length ≤ 4) {p : Nat} (inside : p < descs.length) :
    toProjection p (linearInt4Fused X K 128 descs M) =
      outputs M descs[p].N (projected X descs[p].toWeights K) := by
  rw [fused_rows descs X K M some' (by rintro rfl; cases inside) few]
  unfold outputs
  rw [toProjection, storesOf, List.filterMap_flatMap]
  apply List.flatMap_congr
  intro m _
  have row := toProjection_row inside fun q => match descs[q]? with
    | none => []
    | some desc => (List.range desc.N).map fun n => (m * desc.N + n, projected X desc.toWeights K m n)
  rw [List.getElem?_eq_getElem inside] at row
  dsimp only at row
  rw [← row, toProjection]
  congr 2
  funext q
  cases descs[q]? <;> rfl

end Fused

section Agreement

variable [Field R]

def unbiased (w : Weights R) : Weights R := { w with bias := none }

/-- The gate and the other projection, element by element. -/
theorem mlp_agrees (exp : R → R) (X : Nat → R) (gate up : Weights R) {K : Nat} (M N : Nat) (some' : K ≠ 0) :
    mlpGateUpSwigluInt4 X K 128 exp gate up M N =
      List.zipWith (fun g u => (g.1, swiglu exp g.2 u.2)) (linearInt4Naive X (unbiased gate) K 128 M N)
        (linearInt4Naive X (unbiased up) K 128 M N) := by
  rw [mlp_outputs X K M N exp gate up some', naive_outputs X _ K M N some', naive_outputs X _ K M N some',
    outputs_map, outputs_map, outputs_map, List.zipWith_map, List.zipWith_self]
  rfl

/-- The sub-groups may store in any order. -/
theorem linear_any_order (X : Nat → R) (w : Weights R) {K : Nat} (M N : Nat) (some' : K ≠ 0) {stores : List (Nat × R)}
    (order : stores.Perm (linearInt4 X w K 128 M N)) (memory : Nat → R) :
    storeAll stores memory = storeAll (linearInt4Naive X w K 128 M N) memory := by
  rw [linear_outputs X w K M N some'] at order
  have addresses : (stores.map Prod.fst).Perm (List.range (M * N)) :=
    outputs_addresses M N _ ▸ order.map Prod.fst
  have apart : (stores.map Prod.fst).Nodup := addresses.nodup_iff.2 List.nodup_range
  rw [naive_outputs X w K M N some']
  exact storeAll_perm order (agree_of_nodup apart) memory

/-- What `linear_int4`, `linear_int4_fused` and `mlp_gate_up_swiglu_int4` store, against `linear_int4_naive`. -/
theorem optimised_agree (exp : R → R) (X : Nat → R) (M : Nat) {K : Nat} (some' : 0 < K) :
    (∀ (w : Weights R) (N : Nat), linearInt4 X w K 128 M N = linearInt4Naive X w K 128 M N ∧
      (linearInt4 X w K 128 M N).map Prod.fst = List.range (M * N)) ∧
    (∀ descs : List (FusedProjectionDesc R), descs.length ≤ 4 →
      (∀ store ∈ linearInt4Fused X K 128 descs M, store.1.1 < descs.length) ∧
      ∀ p (inside : p < descs.length),
        let own := toProjection p (linearInt4Fused X K 128 descs M)
        own = linearInt4Naive X descs[p].toWeights K 128 M descs[p].N ∧
          own.map Prod.fst = List.range (M * descs[p].N)) ∧
    ∀ (gate up : Weights R) (N : Nat),
      mlpGateUpSwigluInt4 X K 128 exp gate up M N =
        List.zipWith (fun g u => (g.1, swiglu exp g.2 u.2)) (linearInt4Naive X (unbiased gate) K 128 M N)
          (linearInt4Naive X (unbiased up) K 128 M N) ∧
      (mlpGateUpSwigluInt4 X K 128 exp gate up M N).map Prod.fst = List.range (M * N) := by
  have filled : K ≠ 0 := Nat.ne_of_gt some'
  refine ⟨?_, ?_, ?_⟩
  · intro w N
    rw [linear_outputs X w K M N filled, naive_outputs X w K M N filled]
    exact ⟨rfl, outputs_addresses M N _⟩
  · intro descs few
    constructor
    · intro store member
      by_cases empty : descs = []
      · simp [linearInt4Fused, empty] at member
      · rw [fused_rows descs X K M filled empty few] at member
        obtain ⟨m, -, member⟩ := mem_storesOf.1 member
        obtain ⟨p, inside, member⟩ := mem_storesOf.1 member
        rw [List.getElem?_eq_getElem inside] at member
        obtain ⟨inner, -, rfl⟩ := List.mem_map.1 member
        exact inside
    · intro p inside
      dsimp only
      rw [fused_outputs descs X K M filled few inside, naive_outputs X _ K M _ filled]
      exact ⟨rfl, outputs_addresses M _ _⟩
  · intro gate up N
    constructor
    · exact mlp_agrees exp X gate up M N filled
    · rw [mlp_outputs X K M N exp gate up filled]
      exact outputs_addresses M N _

/-- Three rows of one group, all of whose nibbles are -1, against ones. -/
theorem optimised_agree_ones :
    let w : Weights Rat := ⟨fun _ => 255, fun _ => 1, none⟩
    linearInt4 (fun _ => 1) w 128 128 1 3 = linearInt4Naive (fun _ => 1) w 128 128 1 3 :=
  ((optimised_agree (fun x => x) (fun _ => 1) 1 (by decide)).1 _ 3).1

end Agreement

end XInfer.Int4Agreement
