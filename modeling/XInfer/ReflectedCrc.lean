import Mathlib.Tactic.Common
import Mathlib.Logic.Function.Iterate

/-!
Reflected cyclic redundancy codes of any width. The register moves down one bit at a time
and takes the polynomial whenever a one falls out. Where the polynomial's top bit is set the
move is a permutation, so two registers that differ once differ for good, and a register
as wide as a burst of errors keeps every such burst apart.
-/

namespace XInfer.ReflectedCrc

variable {w : Nat}

/-- One bit leaves the register. -/
def shift (poly c : BitVec w) : BitVec w := if c.getLsbD 0 then (c >>> 1) ^^^ poly else c >>> 1

def shifts (poly : BitVec w) (count : Nat) (c : BitVec w) : BitVec w := (shift poly)^[count] c

/-- One byte goes through the register, its low bit first. -/
def absorb (poly c : BitVec w) (byte : UInt8) : BitVec w :=
  shifts poly 8 (c ^^^ byte.toBitVec.setWidth w)

def absorbAll (poly c : BitVec w) (bytes : List UInt8) : BitVec w := bytes.foldl (absorb poly) c

/-- The bytes as one word, the first one lowest. -/
def word : List UInt8 → BitVec w
  | [] => 0
  | byte :: rest => byte.toBitVec.setWidth w ^^^ (word rest <<< 8)

variable (poly : BitVec w)

theorem shift_xor (a b : BitVec w) : shift poly (a ^^^ b) = shift poly a ^^^ shift poly b := by
  unfold shift
  rw [BitVec.getLsbD_xor, BitVec.ushiftRight_xor_distrib]
  -- The polynomial goes in once for each low bit that is set; twice in, it cancels.
  cases a.getLsbD 0 <;> cases b.getLsbD 0
  · rfl
  · exact BitVec.xor_assoc _ _ _
  · simp only [Bool.true_xor, Bool.not_false, if_true, Bool.false_eq_true, if_false]
    rw [BitVec.xor_assoc, BitVec.xor_assoc, BitVec.xor_comm poly]
  · have cancel : a >>> 1 ^^^ poly ^^^ (b >>> 1 ^^^ poly) = a >>> 1 ^^^ b >>> 1 := by
      rw [BitVec.xor_comm (b >>> 1) poly, BitVec.xor_assoc, ← BitVec.xor_assoc poly poly,
        BitVec.xor_self, BitVec.zero_xor]
    simpa using cancel.symm

theorem shifts_xor (count : Nat) (a b : BitVec w) :
    shifts poly count (a ^^^ b) = shifts poly count a ^^^ shifts poly count b := by
  unfold shifts
  induction count generalizing a b with
  | zero => rfl
  | succ count ih => rw [Function.iterate_succ_apply, Function.iterate_succ_apply,
      Function.iterate_succ_apply, shift_xor, ih]

theorem shifts_add (first second : Nat) (c : BitVec w) :
    shifts poly (first + second) c = shifts poly first (shifts poly second c) :=
  Function.iterate_add_apply _ first second c

variable {poly}

/-- The top bit tells whether the polynomial went in. -/
theorem shift_injective (top : poly.msb = true) : Function.Injective (shift poly) := by
  intro a b same
  have msb : ∀ c : BitVec w, (c >>> 1).msb = false := by
    intro c
    simp [BitVec.msb_ushiftRight]
  -- A clear top bit after the move shows which bit has fallen out.
  have lowest : a.getLsbD 0 = b.getLsbD 0 := by
    have tops := congrArg BitVec.msb same
    unfold shift at tops
    cases low : a.getLsbD 0 <;> cases other : b.getLsbD 0 <;> simp_all
  have rest : a >>> 1 = b >>> 1 := by
    unfold shift at same
    rw [lowest] at same
    cases low : b.getLsbD 0 <;> rw [low] at same
    · simpa using same
    · exact (BitVec.xor_left_inj poly).mp same
  apply BitVec.eq_of_getLsbD_eq
  intro i _
  cases i with
  | zero => exact lowest
  | succ i =>
      have bit := congrArg (fun c => c.getLsbD i) rest
      simpa [BitVec.getLsbD_ushiftRight, Nat.add_comm] using bit

theorem shifts_injective (top : poly.msb = true) (count : Nat) :
    Function.Injective (shifts poly count) := (shift_injective top).iterate count

/-- Where no one falls out the register only moves. -/
theorem shifts_of_clear {c : BitVec w} {count : Nat} (clear : ∀ i, i < count → c.getLsbD i = false) :
    shifts poly count c = c >>> count := by
  induction count generalizing c with
  | zero => simp [shifts]
  | succ count ih =>
      have move : shift poly c = c >>> 1 := by simp [shift, clear 0 (Nat.succ_pos _)]
      have later : ∀ i, i < count → (c >>> 1).getLsbD i = false := by
        intro i small
        rw [BitVec.getLsbD_ushiftRight]
        exact clear (1 + i) (by omega)
      rw [shifts_add, show shifts poly 1 c = shift poly c from rfl, move, ih later,
        ← BitVec.shiftRight_add, Nat.add_comm]

/-- A byte that meets the register after `8` more bits could have met it before them. -/
theorem shifts_shiftLeft {c : BitVec w} (room : (c <<< 8) >>> 8 = c) : shifts poly 8 (c <<< 8) = c := by
  have clear : ∀ i, i < 8 → (c <<< 8).getLsbD i = false := by
    intro i small
    simp [BitVec.getLsbD_shiftLeft, small]
  rw [shifts_of_clear clear, room]

theorem word_lt (bytes : List UInt8) {i : Nat} (high : 8 * bytes.length ≤ i) :
    (word bytes : BitVec w).getLsbD i = false := by
  induction bytes generalizing i with
  | nil => simp [word]
  | cons byte rest ih =>
      rw [List.length_cons] at high
      have later := ih (by omega : 8 * rest.length ≤ i - 8)
      have outside : byte.toBitVec.getLsbD i = false := BitVec.getLsbD_of_ge _ _ (by omega)
      simp [word, BitVec.getLsbD_xor, BitVec.getLsbD_shiftLeft, later, outside]

theorem word_room {bytes : List UInt8} (fits : 8 * (bytes.length + 1) ≤ w) :
    ((word bytes : BitVec w) <<< 8) >>> 8 = word bytes := by
  apply BitVec.eq_of_getLsbD_eq
  intro i _
  rw [BitVec.getLsbD_ushiftRight, BitVec.getLsbD_shiftLeft]
  by_cases inside : 8 + i < w
  · simp [inside]
  · simp [inside, word_lt bytes (by omega : 8 * bytes.length ≤ i)]

theorem word_injective {left right : List UInt8} (length : left.length = right.length)
    (fits : 8 * left.length ≤ w) (same : (word left : BitVec w) = word right) : left = right := by
  induction left generalizing right with
  | nil => exact (List.length_eq_zero_iff.mp length.symm).symm
  | cons a left ih =>
      rcases right with _ | ⟨b, right⟩
      · cases length
      · simp only [List.length_cons, Nat.add_right_cancel_iff] at length fits
        simp only [word] at same
        have byte : a = b := by
          apply UInt8.toBitVec_inj.mp
          apply BitVec.eq_of_getLsbD_eq
          intro i small
          have bit := congrArg (fun c => c.getLsbD i) same
          have inside : i < w := by omega
          simpa [BitVec.getLsbD_shiftLeft, small, inside] using bit
        subst byte
        -- With the first byte taken off both words, moving down eight bits loses nothing.
        have moved := congrArg (fun c : BitVec w => c >>> 8) ((BitVec.xor_right_inj _).mp same)
        rw [word_room (by omega), word_room (by omega)] at moved
        rw [ih length (by omega) moved]

/-- As many bytes as the register holds go through it as one word. -/
theorem absorbAll_word (c : BitVec w) {bytes : List UInt8} (fits : 8 * bytes.length ≤ w) :
    absorbAll poly c bytes = shifts poly (8 * bytes.length) (c ^^^ word bytes) := by
  induction bytes generalizing c with
  | nil => simp [absorbAll, word, shifts]
  | cons byte rest ih =>
      rw [List.length_cons] at fits
      -- The rest of the word waits above the first byte until that byte is out.
      have moved : shifts poly 8 (word rest <<< 8) = word rest := shifts_shiftLeft (word_room fits)
      have first : absorb poly c byte ^^^ word rest = shifts poly 8 (c ^^^ word (byte :: rest)) := by
        rw [word, ← BitVec.xor_assoc, shifts_xor, moved]
        rfl
      calc absorbAll poly c (byte :: rest)
          = shifts poly (8 * rest.length) (absorb poly c byte ^^^ word rest) := ih _ (by omega)
        _ = shifts poly (8 * rest.length + 8) (c ^^^ word (byte :: rest)) := by rw [first, shifts_add]
        _ = _ := by rw [List.length_cons, Nat.mul_succ]

theorem absorb_injective (top : poly.msb = true) (byte : UInt8) :
    Function.Injective fun c => absorb poly c byte := by
  intro a b same
  exact (BitVec.xor_left_inj _).mp (shifts_injective top 8 same)

theorem absorbAll_injective (top : poly.msb = true) (bytes : List UInt8) :
    Function.Injective fun c => absorbAll poly c bytes := by
  induction bytes with
  | nil => exact fun _ _ same => same
  | cons byte rest ih => exact fun _ _ same => absorb_injective top byte (ih same)

theorem absorbAll_append (c : BitVec w) (front back : List UInt8) :
    absorbAll poly c (front ++ back) = absorbAll poly (absorbAll poly c front) back :=
  List.foldl_append

/-- The registers part at a burst that fits in them, and never meet again. -/
theorem burst_detected (top : poly.msb = true) (c : BitVec w) (front back : List UInt8)
    {left right : List UInt8} (length : left.length = right.length) (fits : 8 * left.length ≤ w)
    (apart : left ≠ right) :
    absorbAll poly c (front ++ left ++ back) ≠ absorbAll poly c (front ++ right ++ back) := by
  intro same
  simp only [absorbAll_append] at same
  -- What follows the burst cannot bring different registers together.
  have middle := absorbAll_injective top back same
  have room : 8 * right.length ≤ w := by omega
  rw [absorbAll_word (absorbAll poly c front) fits, absorbAll_word (absorbAll poly c front) room,
    length] at middle
  have words := (BitVec.xor_right_inj _).mp (shifts_injective top _ middle)
  exact apart (word_injective length fits words)

/-- A byte at a time from a table of the shifts of every byte. -/
theorem absorb_table (c : BitVec w) (byte : UInt8) (wide : 8 ≤ w) :
    absorb poly c byte =
      (c >>> 8) ^^^ shifts poly 8 (((c ^^^ byte.toBitVec.setWidth w).setWidth 8).setWidth w) := by
  let x := c ^^^ byte.toBitVec.setWidth w
  -- The low byte is looked up, everything above it only moves.
  let low : BitVec w := (x.setWidth 8).setWidth w
  have clear : ∀ i, i < 8 → (x ^^^ low).getLsbD i = false := by
    intro i small
    have inside : i < w := by omega
    simp [low, small, inside]
  have moved : (x ^^^ low) >>> 8 = c >>> 8 := by
    apply BitVec.eq_of_getLsbD_eq
    intro i _
    simp [x, low, BitVec.getLsbD_ushiftRight, BitVec.getLsbD_setWidth]
  have parts : x = (x ^^^ low) ^^^ low := by rw [BitVec.xor_assoc, BitVec.xor_self, BitVec.xor_zero]
  calc absorb poly c byte
      = shifts poly 8 ((x ^^^ low) ^^^ low) := congrArg (shifts poly 8) parts
    _ = shifts poly 8 (x ^^^ low) ^^^ shifts poly 8 low := shifts_xor poly 8 _ _
    _ = (c >>> 8) ^^^ shifts poly 8 low := by rw [shifts_of_clear clear, moved]

section Serial

/-- A bit of the message meets the one that falls out. -/
def feed (poly c : BitVec w) (bit : Bool) : BitVec w :=
  if c.getLsbD 0 ^^ bit then (c >>> 1) ^^^ poly else c >>> 1

/-- The bits of a byte in the order of a reflected code. -/
def bits (byte : UInt8) : List Bool := (List.range 8).map byte.toBitVec.getLsbD

/-- The code by its definition, a bit of the message at a time. -/
def serial (poly c : BitVec w) (bytes : List UInt8) : BitVec w := (bytes.flatMap bits).foldl (feed poly) c

/-- The bits as one word, the first one lowest. -/
def bitWord : List Bool → BitVec w
  | [] => 0
  | bit :: rest => (BitVec.ofBool bit).setWidth w ^^^ (bitWord rest <<< 1)

theorem bitWord_getLsbD (message : List Bool) {i : Nat} (inside : i < w) :
    (bitWord message : BitVec w).getLsbD i = message.getD i false := by
  induction message generalizing i with
  | nil => simp [bitWord]
  | cons bit rest ih =>
      rw [bitWord, BitVec.getLsbD_xor, BitVec.getLsbD_setWidth, BitVec.getLsbD_shiftLeft]
      cases i with
      | zero => simp [inside]
      | succ i =>
          rw [Nat.add_sub_cancel, ih (Nat.lt_of_succ_lt inside)]
          simp [inside]

theorem feed_eq (c : BitVec w) (bit : Bool) (wide : 0 < w) :
    feed poly c bit = shift poly (c ^^^ (BitVec.ofBool bit).setWidth w) := by
  have low : ((BitVec.ofBool bit).setWidth w).getLsbD 0 = bit := by simp [wide]
  have moved : (BitVec.ofBool bit).setWidth w >>> 1 = 0#w := by
    apply BitVec.eq_of_getLsbD_eq
    intro i _
    simp [BitVec.getLsbD_ushiftRight]
  rw [feed, shift, BitVec.getLsbD_xor, low, BitVec.ushiftRight_xor_distrib, moved, BitVec.xor_zero]

/-- A bit that waits above others comes down with the move. -/
theorem shift_bitWord {message : List Bool} (fits : message.length < w) :
    shift poly (bitWord message <<< 1) = bitWord message := by
  have low : (bitWord message <<< 1 : BitVec w).getLsbD 0 = false := by simp
  rw [shift, low, if_neg Bool.false_ne_true]
  apply BitVec.eq_of_getLsbD_eq
  intro i inside
  rw [BitVec.getLsbD_ushiftRight, BitVec.getLsbD_shiftLeft, Nat.add_sub_cancel_left]
  by_cases top : 1 + i < w
  · simp [top]
  · -- the message ends below the top bit
    have beyond : message.length ≤ i := by omega
    simp [top, bitWord_getLsbD message inside, List.getElem?_eq_none beyond]

theorem foldl_feed {message : List Bool} (fits : message.length ≤ w) (c : BitVec w) :
    message.foldl (feed poly) c = shifts poly message.length (c ^^^ bitWord message) := by
  induction message generalizing c with
  | nil => simp [bitWord, shifts]
  | cons bit rest ih =>
      rw [List.length_cons] at fits
      have first : feed poly c bit ^^^ bitWord rest = shift poly (c ^^^ bitWord (bit :: rest)) := by
        rw [bitWord, ← BitVec.xor_assoc, shift_xor, shift_bitWord fits, feed_eq c bit (Nat.zero_lt_of_lt fits)]
      calc (bit :: rest).foldl (feed poly) c
          = shifts poly rest.length (feed poly c bit ^^^ bitWord rest) := ih (Nat.le_of_succ_le fits) _
        _ = shifts poly (rest.length + 1) (c ^^^ bitWord (bit :: rest)) := by rw [first, shifts_add]; rfl

theorem bitWord_bits (byte : UInt8) : (bitWord (bits byte) : BitVec w) = byte.toBitVec.setWidth w := by
  apply BitVec.eq_of_getLsbD_eq
  intro i inside
  rw [bitWord_getLsbD _ inside, BitVec.getLsbD_setWidth, bits, List.getD_eq_getElem?_getD, List.getElem?_map]
  by_cases low : i < 8
  · simp [low, inside]
  · rw [List.getElem?_eq_none (by simpa using low), BitVec.getLsbD_of_ge _ _ (Nat.le_of_not_lt low)]
    simp

/-- Eight bits of the message make one byte of it. -/
theorem serial_eq (wide : 8 ≤ w) (c : BitVec w) (bytes : List UInt8) :
    serial poly c bytes = absorbAll poly c bytes := by
  induction bytes generalizing c with
  | nil => rfl
  | cons byte rest ih =>
      have first : (bits byte).foldl (feed poly) c = absorb poly c byte := by
        rw [foldl_feed (by simpa [bits] using wide), bitWord_bits]
        simp [bits, absorb]
      rw [serial, List.flatMap_cons, List.foldl_append, first]
      exact ih _

end Serial

end XInfer.ReflectedCrc
