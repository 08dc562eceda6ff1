import XInfer.CachedAttention
import XInfer.Rotations
import Mathlib.Analysis.SpecialFunctions.Pow.Real

/-!
`rope_impl` of `ops/rope.cpp`. The query and key buffers are two sides of one memory, and a null pointer is a side
that is not there. An item reads the two elements that it stores to, and no other item does. Over exact reals the
inner products of rotated queries and keys have the differences of their positions.
-/

namespace XInfer.Rope

open AttentionKernels Launches Rotations
open DeviceFloat (ofInt)
open DeviceExp (exp)
open DeviceMath (log cos sin)

inductive Side where
  | q
  | k
  deriving DecidableEq

section Kernel

variable {F : Type} [DeviceMath F] (cast : F → F)

abbrev Memory (F : Type) : Type := Side × Nat → F

/-- `angle`, from the position of the token and the frequency of the pair. -/
def angle (theta : F) (rotaryDim : Nat) (pos : Int) (pairIdx : Nat) : F :=
  let logTheta := log theta
  let invRot := 1 / ofInt rotaryDim
  let freq := exp (-ofInt (2 * pairIdx : Nat) * invRot * logTheta)
  ofInt pos * freq

variable (memory : Memory F) (positions : Nat → Int) (theta : F)

/-- The stores of the item of a pair of a head; the heads of the queries come first. -/
def ropeItem (qHeads numQHeads numKVHeads headDim rotaryDim headLinear pairIdx : Nat) : List ((Side × Nat) × F) :=
  let halfRot := rotaryDim / 2
  let isQ := headLinear < qHeads
  -- a head of the keys is counted from the end of the queries on
  let targetPtr := if isQ then Side.q else Side.k
  let effHeads := if isQ then numQHeads else numKVHeads
  let effHeadIdx := if isQ then headLinear else headLinear - qHeads
  let tokenIdx := effHeadIdx / effHeads
  let cosVal := cos (angle theta rotaryDim (positions tokenIdx) pairIdx)
  let sinVal := sin (angle theta rotaryDim (positions tokenIdx) pairIdx)
  let baseOffset := effHeadIdx * headDim
  let idx0 := baseOffset + pairIdx
  let idx1 := baseOffset + pairIdx + halfRot
  let v0 := memory (targetPtr, idx0)
  let v1 := memory (targetPtr, idx1)
  [((targetPtr, idx0), cast (v0 * cosVal - v1 * sinVal)), ((targetPtr, idx1), cast (v1 * cosVal + v0 * sinVal))]

/-- The heads of one side over all tokens. -/
def headsOf (ptr : Bool) (numTokens numHeads : Nat) : Nat := if ptr ∧ 0 < numHeads then numTokens * numHeads else 0

def ropeImpl (qPtr kPtr : Bool) (numTokens numQHeads numKVHeads headDim rotaryDim : Nat) : Memory F :=
  if numTokens = 0 ∨ headDim = 0 then memory
  else
    -- a width that does not fit is the one of the head
    let rotaryDim := if rotaryDim = 0 ∨ headDim < rotaryDim then headDim else rotaryDim
    let halfRot := rotaryDim / 2
    let qHeads := headsOf qPtr numTokens numQHeads
    let kvHeads := headsOf kPtr numTokens numKVHeads
    let totalHeads := qHeads + kvHeads
    if totalHeads = 0 then memory
    else
      launch (totalHeads * halfRot) (fun item => ropeItem cast memory positions theta qHeads numQHeads numKVHeads headDim
        rotaryDim (item / halfRot) (item % halfRot)) memory

end Kernel

section Exact

/-- What a call has besides the widths and the base of the frequencies. -/
structure Call where
  memory : Memory ℝ
  positions : Nat → Int
  qPtr : Bool
  kPtr : Bool
  numTokens : Nat
  numQHeads : Nat
  numKVHeads : Nat

namespace Call

variable (call : Call)

def numHeads : Side → Nat
  | .q => call.numQHeads
  | .k => call.numKVHeads

def heads : Side → Nat
  | .q => headsOf call.qPtr call.numTokens call.numQHeads
  | .k => headsOf call.kPtr call.numTokens call.numKVHeads

variable (theta : ℝ) (headDim rotaryDim : Nat)

noncomputable def run : Memory ℝ :=
  ropeImpl id call.memory call.positions theta call.qPtr call.kPtr call.numTokens call.numQHeads call.numKVHeads headDim
    rotaryDim

/-- What an element of a head becomes. -/
noncomputable def cellValue (cell : Side × Nat) : ℝ :=
  let headIdx := cell.2 / headDim
  let pos := call.positions (headIdx / call.numHeads cell.1)
  rotate (rotaryDim / 2) (fun pairIdx => Real.cos (angle theta rotaryDim pos pairIdx))
    (fun pairIdx => Real.sin (angle theta rotaryDim pos pairIdx)) (fun d => call.memory (cell.1, headIdx * headDim + d))
    (cell.2 % headDim)

/-- The item of a pair of a head, on its side. -/
noncomputable def item (headLinear pairIdx : Nat) : List ((Side × Nat) × ℝ) :=
  ropeItem id call.memory call.positions theta (call.heads .q) call.numQHeads call.numKVHeads headDim rotaryDim headLinear
    pairIdx

variable {theta headDim rotaryDim} {pairIdx : Nat}

theorem item_stores (fits : rotaryDim / 2 + rotaryDim / 2 ≤ headDim) (pair : pairIdx < rotaryDim / 2) {side : Side}
    {headLinear headIdx : Nat}
    (placed : (headLinear < call.heads .q ∧ side = .q ∧ headIdx = headLinear) ∨
      (call.heads .q ≤ headLinear ∧ side = .k ∧ headIdx = headLinear - call.heads .q)) :
    call.item theta headDim rotaryDim headLinear pairIdx =
      [((side, headIdx * headDim + pairIdx), call.cellValue theta headDim rotaryDim (side, headIdx * headDim + pairIdx)),
       ((side, headIdx * headDim + (pairIdx + rotaryDim / 2)),
        call.cellValue theta headDim rotaryDim (side, headIdx * headDim + (pairIdx + rotaryDim / 2)))] := by
  have front : pairIdx < headDim := by omega
  have back : pairIdx + rotaryDim / 2 < headDim := by omega
  unfold cellValue
  dsimp only
  rw [flat_div front, flat_mod front, flat_div back, flat_mod back, rotate_front _ _ _ pair, rotate_back _ _ _ pair]
  rcases placed with ⟨early, rfl, rfl⟩ | ⟨late, rfl, rfl⟩
  · unfold item ropeItem
    simp only [if_pos early, Nat.add_assoc]
    rfl
  · unfold item ropeItem
    simp only [if_neg (Nat.not_lt.2 late), Nat.add_assoc]
    rfl

/-- All items of the two sides. -/
noncomputable def items (theta : ℝ) (headDim rotaryDim i : Nat) : List ((Side × Nat) × ℝ) :=
  call.item theta headDim rotaryDim (i / (rotaryDim / 2)) (i % (rotaryDim / 2))

/-- They are launched as soon as there is a head. -/
theorem run_items (low : 0 < rotaryDim) (high : rotaryDim ≤ headDim) : call.run theta headDim rotaryDim =
    launch ((call.heads .q + call.heads .k) * (rotaryDim / 2)) (call.items theta headDim rotaryDim) call.memory := by
  have width : (if rotaryDim = 0 ∨ headDim < rotaryDim then headDim else rotaryDim) = rotaryDim := if_neg (by omega)
  unfold run ropeImpl
  by_cases empty : call.numTokens = 0 ∨ headDim = 0
  · have none' : call.numTokens = 0 := empty.resolve_right (by omega)
    have heads : ∀ side, call.heads side = 0 := by
      intro side
      cases side <;> simp [Call.heads, headsOf, none']
    rw [if_pos empty, heads, heads, Nat.add_zero, Nat.zero_mul]
    rfl
  · rw [if_neg empty]
    dsimp only
    rw [width]
    -- without heads the launch has no items
    by_cases silent : call.heads .q + call.heads .k = 0
    · rw [silent, Nat.zero_mul]
      exact if_pos silent
    · exact if_neg silent

/-- An item is a pair of a head of one of the sides. -/
theorem item_placed {i : Nat} (inside : i < (call.heads .q + call.heads .k) * (rotaryDim / 2)) :
    i % (rotaryDim / 2) < rotaryDim / 2 ∧ ∃ side, ∃ headIdx < call.heads side,
      (i / (rotaryDim / 2) < call.heads .q ∧ side = .q ∧ headIdx = i / (rotaryDim / 2)) ∨
        (call.heads .q ≤ i / (rotaryDim / 2) ∧ side = .k ∧ headIdx = i / (rotaryDim / 2) - call.heads .q) := by
  have pairs : 0 < rotaryDim / 2 := Nat.pos_of_mul_pos_left (Nat.zero_lt_of_lt inside)
  have linear : i / (rotaryDim / 2) < call.heads .q + call.heads .k :=
    Nat.div_lt_of_lt_mul (Nat.mul_comm _ (rotaryDim / 2) ▸ inside)
  constructor
  · exact Nat.mod_lt i pairs
  · generalize i / (rotaryDim / 2) = headLinear at linear ⊢
    by_cases early : headLinear < call.heads .q
    · exact ⟨.q, headLinear, early, .inl ⟨early, rfl, rfl⟩⟩
    · exact ⟨.k, headLinear - call.heads .q, by omega, .inr ⟨Nat.not_lt.1 early, rfl, rfl⟩⟩

/-- What is stored is the value of its cell, and the cell is one of the rotary elements of a head. -/
theorem items_valued (fits : rotaryDim / 2 + rotaryDim / 2 ≤ headDim) {i : Nat}
    (inside : i < (call.heads .q + call.heads .k) * (rotaryDim / 2)) {store : (Side × Nat) × ℝ}
    (member : store ∈ call.items theta headDim rotaryDim i) :
    store.2 = call.cellValue theta headDim rotaryDim store.1 ∧ ∃ side, ∃ headIdx < call.heads side,
      ∃ d < rotaryDim / 2 + rotaryDim / 2, store.1 = (side, headIdx * headDim + d) := by
  obtain ⟨pair, side, headIdx, head, placed⟩ := call.item_placed inside
  rw [items, call.item_stores fits pair placed] at member
  rcases List.mem_cons.1 member with rfl | second
  · exact ⟨rfl, side, headIdx, head, _, by omega, rfl⟩
  · obtain rfl := List.mem_singleton.1 second
    exact ⟨rfl, side, headIdx, head, _, by omega, rfl⟩

/-- Every rotary element is stored to. -/
theorem items_cover (fits : rotaryDim / 2 + rotaryDim / 2 ≤ headDim) {side : Side} {headIdx d : Nat}
    (head : headIdx < call.heads side) (inside : d < rotaryDim / 2 + rotaryDim / 2) :
    ∃ i < (call.heads .q + call.heads .k) * (rotaryDim / 2), ∃ store ∈ call.items theta headDim rotaryDim i,
      store.1 = (side, headIdx * headDim + d) := by
  have linear : ∃ headLinear < call.heads .q + call.heads .k,
      (headLinear < call.heads .q ∧ side = .q ∧ headIdx = headLinear) ∨
        (call.heads .q ≤ headLinear ∧ side = .k ∧ headIdx = headLinear - call.heads .q) := by
    cases side with
    | q => exact ⟨headIdx, by omega, .inl ⟨head, rfl, rfl⟩⟩
    | k => exact ⟨call.heads .q + headIdx, by omega, .inr ⟨Nat.le_add_right _ _, rfl, by omega⟩⟩
  obtain ⟨headLinear, early, placed⟩ := linear
  by_cases front : d < rotaryDim / 2
  · refine ⟨headLinear * (rotaryDim / 2) + d, flat_lt early front, ?_⟩
    rw [items, flat_div front, flat_mod front, call.item_stores fits front placed]
    exact ⟨_, List.mem_cons_self, rfl⟩
  · -- the back element of its pair
    obtain ⟨pairIdx, rfl⟩ := Nat.exists_eq_add_of_le' (Nat.not_lt.1 front)
    have pair : pairIdx < rotaryDim / 2 := by omega
    refine ⟨headLinear * (rotaryDim / 2) + pairIdx, flat_lt early pair, ?_⟩
    rw [items, flat_div pair, flat_mod pair, call.item_stores fits pair placed]
    exact ⟨_, List.mem_cons_of_mem _ List.mem_cons_self, rfl⟩

/-- An element of a head behind the call. -/
theorem run_head (low : 0 < rotaryDim) (high : rotaryDim ≤ headDim) {side : Side} {headIdx d : Nat}
    (head : headIdx < call.heads side) (inside : d < headDim) :
    call.run theta headDim rotaryDim (side, headIdx * headDim + d) =
      call.cellValue theta headDim rotaryDim (side, headIdx * headDim + d) := by
  have fits : rotaryDim / 2 + rotaryDim / 2 ≤ headDim := by omega
  rw [call.run_items low high]
  by_cases rotary : d < rotaryDim / 2 + rotaryDim / 2
  · obtain ⟨i, early, covered⟩ := call.items_cover fits head rotary
    exact launch_valued (call.cellValue theta headDim rotaryDim)
      (fun other before store member => (call.items_valued fits before member).1) early covered call.memory
  · -- behind the planes nothing is stored
    rw [launch_other]
    · unfold cellValue
      dsimp only
      rw [flat_div inside, flat_mod inside, rotate_behind _ _ _ (Nat.not_lt.1 rotary)]
    · intro other before store member same
      obtain ⟨-, side', headIdx', -, e, early, place⟩ := call.items_valued fits before member
      rw [place] at same
      have element := (flat_injective (by omega) inside (Prod.mk.inj same).2).2
      omega

/-- An element outside the heads. -/
theorem run_outside (low : 0 < rotaryDim) (high : rotaryDim ≤ headDim) {side : Side} {i : Nat}
    (outside : call.heads side * headDim ≤ i) : call.run theta headDim rotaryDim (side, i) = call.memory (side, i) := by
  have fits : rotaryDim / 2 + rotaryDim / 2 ≤ headDim := by omega
  rw [call.run_items low high]
  apply launch_other
  intro other before store member same
  obtain ⟨-, side', headIdx, head, d, early, place⟩ := call.items_valued fits before member
  rw [place] at same
  obtain ⟨rfl, rfl⟩ := Prod.mk.inj same
  have inside := flat_lt head (Nat.lt_of_lt_of_le early fits)
  omega

/-- The vector of a head of a token. -/
def vector (memory : Memory ℝ) (headDim : Nat) (side : Side) (t h d : Nat) : ℝ :=
  memory (side, (t * call.numHeads side + h) * headDim + d)

/-- A token and a head of it, on a side that is there. -/
structure Has (side : Side) (t h : Nat) : Prop where
  there : match side with
    | .q => call.qPtr = true
    | .k => call.kPtr = true
  token : t < call.numTokens
  head : h < call.numHeads side

theorem Has.inside {call : Call} {side : Side} {t h : Nat} (has : call.Has side t h) :
    t * call.numHeads side + h < call.heads side := by
  have some' : 0 < call.numHeads side := Nat.zero_lt_of_lt has.head
  have flat := flat_lt has.token has.head
  cases side with
  | q => rwa [heads, headsOf, if_pos ⟨has.there, some'⟩]
  | k => rwa [heads, headsOf, if_pos ⟨has.there, some'⟩]

end Call

/-- `theta ^ (-2 p / rotaryDim)` -/
noncomputable def frequency (theta : ℝ) (rotaryDim p : Nat) : ℝ := theta ^ (-((2 * p : Nat) : ℝ) * (rotaryDim : ℝ)⁻¹)

theorem angle_eq {theta : ℝ} (positive : 0 < theta) (rotaryDim : Nat) (pos : Int) (pairIdx : Nat) :
    angle theta rotaryDim pos pairIdx = pos * frequency theta rotaryDim pairIdx := by
  have exponent : -(((2 * pairIdx : Nat) : Int) : ℝ) * (1 / ((rotaryDim : Int) : ℝ)) * Real.log theta =
      Real.log theta * (-((2 * pairIdx : Nat) : ℝ) * (rotaryDim : ℝ)⁻¹) := by
    push_cast
    ring
  rw [frequency, Real.rpow_def_of_pos positive]
  exact congrArg (fun x => (pos : ℝ) * Real.exp x) exponent

/-- The rotation by a position: each pair turns by the position times its frequency. -/
noncomputable def rotated (theta : ℝ) (rotaryDim : Nat) (pos : Int) (v : Nat → ℝ) : Nat → ℝ :=
  rotate (rotaryDim / 2) (fun p => Real.cos (pos * frequency theta rotaryDim p))
    (fun p => Real.sin (pos * frequency theta rotaryDim p)) v

section Positions

variable {theta : ℝ} {headDim rotaryDim : Nat}

theorem rotated_dot (fits : rotaryDim / 2 + rotaryDim / 2 ≤ headDim) (m n : Int) (v w : Nat → ℝ) :
    dot headDim (rotated theta rotaryDim m v) (rotated theta rotaryDim n w) =
      dot headDim (rotated theta rotaryDim (m - n) v) w := by
  unfold rotated
  rw [dot_rotate fits]
  simp only [Int.cast_sub, sub_mul, Real.cos_sub, Real.sin_sub]

theorem rotated_same (fits : rotaryDim / 2 + rotaryDim / 2 ≤ headDim) (m : Int) (v : Nat → ℝ) :
    dot headDim (rotated theta rotaryDim m v) (rotated theta rotaryDim m v) = dot headDim v v := by
  apply dot_rotate_same fits
  intro p
  rw [← sq, ← sq]
  exact Real.cos_sq_add_sin_sq _

theorem dot_congr {v v' w w' : Nat → ℝ} (first : ∀ d < headDim, v d = v' d) (second : ∀ d < headDim, w d = w' d) :
    dot headDim v w = dot headDim v' w' := by
  apply Finset.sum_congr rfl
  intro d member
  rw [first d (Finset.mem_range.1 member), second d (Finset.mem_range.1 member)]

/-- Behind a call each vector is the one before it, rotated by the position of its token. -/
theorem run_rotated (positive : 0 < theta) (low : 0 < rotaryDim) (high : rotaryDim ≤ headDim) (call : Call) {side : Side}
    {t h : Nat} (has : call.Has side t h) {d : Nat} (inside : d < headDim) :
    call.vector (call.run theta headDim rotaryDim) headDim side t h d =
      rotated theta rotaryDim (call.positions t) (call.vector call.memory headDim side t h) d := by
  unfold Call.vector
  rw [call.run_head low high has.inside inside, Call.cellValue]
  dsimp only
  rw [flat_div inside, flat_mod inside, flat_div has.head]
  simp only [angle_eq positive]
  rfl

noncomputable def norm (headDim : Nat) (v : Nat → ℝ) : ℝ := Real.sqrt (dot headDim v v)

/-- The product of a query and a key, of one call or of two, has the difference of their positions. -/
theorem rope_relative (positive : 0 < theta) (low : 0 < rotaryDim) (high : rotaryDim ≤ headDim) :
    (∀ queries keys : Call, ∀ t h, queries.Has .q t h → ∀ t' h', keys.Has .k t' h' →
      dot headDim (queries.vector (queries.run theta headDim rotaryDim) headDim .q t h)
          (keys.vector (keys.run theta headDim rotaryDim) headDim .k t' h') =
        dot headDim (rotated theta rotaryDim (queries.positions t - keys.positions t')
          (queries.vector queries.memory headDim .q t h)) (keys.vector keys.memory headDim .k t' h')) ∧
    ∀ call : Call,
      (∀ side t h, call.Has side t h →
        let before := call.vector call.memory headDim side t h
        let after := call.vector (call.run theta headDim rotaryDim) headDim side t h
        (∀ d < headDim, after d = rotated theta rotaryDim (call.positions t) before d) ∧
        norm headDim after = norm headDim before ∧ ∀ d, rotaryDim ≤ d → d < headDim → after d = before d) ∧
      ∀ side i, call.heads side * headDim ≤ i → call.run theta headDim rotaryDim (side, i) = call.memory (side, i) := by
  have fits : rotaryDim / 2 + rotaryDim / 2 ≤ headDim := by omega
  constructor
  · intro queries keys t h query t' h' key
    rw [dot_congr (fun d => run_rotated positive low high queries query) fun d => run_rotated positive low high keys key]
    exact rotated_dot fits _ _ _ _
  · intro call
    constructor
    · intro side t h has before after
      have turned : ∀ d < headDim, after d = rotated theta rotaryDim (call.positions t) before d :=
        fun d inside => run_rotated positive low high call has inside
      refine ⟨turned, ?_, ?_⟩
      · unfold norm
        rw [dot_congr turned turned, rotated_same fits]
      · intro d behind inside
        rw [turned d inside, rotated, rotate_behind _ _ _ (by omega)]
    · intro side i outside
      exact call.run_outside low high outside

/-- The second query head of a token and the only key head of the token before it, with two of four elements turned. -/
theorem rope_relative_neighbours :
    let call : Call := ⟨fun cell => cell.2, fun t => t + 5, true, true, 2, 2, 1⟩
    dot 4 (call.vector (call.run 10000 4 2) 4 .q 1 1) (call.vector (call.run 10000 4 2) 4 .k 0 0) =
      dot 4 (rotated 10000 2 1 (call.vector call.memory 4 .q 1 1)) (call.vector call.memory 4 .k 0 0) :=
  (rope_relative (by norm_num) (by decide) (by decide)).1 _ _ 1 1 ⟨rfl, by decide, by decide⟩ 0 0 ⟨rfl, by decide, by decide⟩

end Positions

end Exact

end XInfer.Rope
