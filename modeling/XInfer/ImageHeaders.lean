import XInfer.BufferReads
import XInfer.ImageChecks
import Mathlib.Logic.Relation

/-!
`parse_image_dimensions` of `core/device.cpp` with its reads. The memory behind the buffer holds arbitrary
bytes. The marker loop is a walk over positions; the walk is also stated on its own, as a relation between
positions of the buffer, and what the loop reads and answers is told by where the walk leads.
-/

namespace XInfer.ImageHeaders

open Primitives BufferReads BufferReads.Reading
open ImageChecks (byteAt bigEndian16 isFrame absolute32)

section Parser

structure ImageDimensions where
  width : Int := 0
  height : Int := 0
  channels : Int := 3
  deriving DecidableEq

/-- A marker with no length behind it. -/
def isStandalone (marker : Nat) : Bool :=
  marker == 0xD8 || marker == 0x01 || (decide (0xD0 ≤ marker) && decide (marker ≤ 0xD7))

def isLast (marker : Nat) : Bool := marker == 0xD9 || marker == 0xDA

/-- A chain of comparisons joined by `&&`. -/
def matchBytes : List (Nat × Nat) → Reading Nat UInt8 Bool
  | [] => pure true
  | (pos, expected) :: rest => do
      if (← fetch pos).toNat = expected then matchBytes rest else pure false

/-- `count` bytes from `pos` on, the first one the highest. -/
def readBigEndian (pos : Nat) : Nat → Nat → Reading Nat UInt8 Nat
  | 0, value => pure value
  | count + 1, value => do
      let byte ← fetch pos
      readBigEndian (pos + 1) count (value * 256 + byte.toNat)

def readLittleEndian (pos : Nat) : Nat → Reading Nat UInt8 Nat
  | 0 => pure 0
  | count + 1 => do
      let byte ← fetch pos
      let upper ← readLittleEndian (pos + 1) count
      pure (byte.toNat + upper * 256)

/-- How one turn of the marker loop ends. -/
inductive Turn where
  | next (pos : Nat)
  | found (dims : ImageDimensions)
  | leave
  deriving DecidableEq

/-- The loop condition and the body. -/
def markerTurn (size pos : Nat) : Reading Nat UInt8 Turn :=
  if size < pos + 4 then pure .leave
  else do
    let first ← fetch pos
    if first.toNat ≠ 0xFF then pure (.next (pos + 1))
    else
      let byte ← fetch (pos + 1)
      let marker := byte.toNat
      if isLast marker then pure .leave
      else if isStandalone marker then pure (.next (pos + 2))
      else
        let segLen ← readBigEndian (pos + 2) 2 0
        if isFrame marker = true ∧ pos + 9 ≤ size then
          let h ← readBigEndian (pos + 5) 2 0
          let w ← readBigEndian (pos + 7) 2 0
          let comps ← fetch (pos + 9)
          pure (.found ⟨w, h, if 0 < comps.toNat then comps.toNat else 3⟩)
        else pure (.next (pos + 2 + segLen))

/-- `none`: the loop has not ended within its bound. -/
def markerLoop (size : Nat) : Nat → Nat → Reading Nat UInt8 (Option Turn)
  | 0, _ => pure none
  | fuel + 1, pos => do
      match ← markerTurn size pos with
      | .next pos => markerLoop size fuel pos
      | ended => pure (some ended)

structure Parsed where
  ok : Bool
  dims : ImageDimensions
  errorMsg : Bytes := []
  deriving DecidableEq

def pngSignature : List (Nat × Nat) :=
  [(0, 0x89), (1, 0x50), (2, 0x4E), (3, 0x47), (4, 0x0D), (5, 0x0A), (6, 0x1A), (7, 0x0A)]

/-- `IHDR` at byte 12. -/
def headerChunk : List (Nat × Nat) := [(12, 0x49), (13, 0x48), (14, 0x44), (15, 0x52)]

/-- A test that is made only for a buffer of some size. -/
def whenSized (enough : Prop) [Decidable enough] (test : Reading Nat UInt8 Bool) : Reading Nat UInt8 Bool :=
  if enough then test else pure false

/-- What the three formats leave: dimensions that the caller passed in count as found. -/
def fallThrough (dims : ImageDimensions) : Parsed :=
  if 0 < dims.width ∧ 0 < dims.height then ⟨true, dims, []⟩
  else ⟨false, dims, ascii ("Unrecognized image format or missing valid image header " ++
    "(supported: PNG, BMP, JPEG)")⟩

def parseJpeg (fuel size : Nat) (outDims : ImageDimensions) : Reading Nat UInt8 (Option Parsed) := do
  if ← whenSized (4 ≤ size) (matchBytes [(0, 0xFF), (1, 0xD8)]) then
    match ← markerLoop size fuel 2 with
    | none => pure none
    | some (.found dims) => pure (some ⟨true, dims, []⟩)
    | some _ => pure (some (fallThrough outDims))
  else pure (some (fallThrough outDims))

def parseBmp (fuel size : Nat) (outDims : ImageDimensions) : Reading Nat UInt8 (Option Parsed) := do
  if ← whenSized (26 ≤ size) (matchBytes [(0, 0x42), (1, 0x4D)]) then
    let w ← readLittleEndian 18 4
    let h ← readLittleEndian 22 4
    pure (some ⟨true, ⟨absolute32 w, absolute32 h, 3⟩, []⟩)
  else parseJpeg fuel size outDims

/-- `parse_image_dimensions` of a buffer that is not null. -/
def parseImageDimensions (fuel size : Nat) (outDims : ImageDimensions) : Reading Nat UInt8 (Option Parsed) :=
  if size = 0 then pure (some ⟨false, outDims, ascii "Image data buffer is empty"⟩)
  else do
    if ← whenSized (24 ≤ size) (matchBytes pngSignature) then
      if ← matchBytes headerChunk then
        let w ← readBigEndian 16 4 0
        let h ← readBigEndian 20 4 0
        pure (some ⟨true, ⟨w, h, 3⟩, []⟩)
      else parseBmp fuel size outDims
    else parseBmp fuel size outDims

end Parser

section Memory

/-- The buffer, and what lies behind it. -/
def memory (data : Bytes) (beyond : Nat → UInt8) (pos : Nat) : UInt8 := data.getD pos (beyond pos)

variable {data : Bytes} {beyond : Nat → UInt8} {pos : Nat}

theorem memory_inside (inside : pos < data.length) : (memory data beyond pos).toNat = byteAt data pos := by
  rw [memory, byteAt, List.getD_eq_getElem?_getD, List.getD_eq_getElem?_getD, List.getElem?_eq_getElem inside]
  rfl

theorem run_bigEndian16 (inside : pos + 1 < data.length) :
    (readBigEndian pos 2 0).run (memory data beyond) = bigEndian16 data pos := by
  simp only [readBigEndian, run_bind, run_fetch, run_pure, memory_inside (Nat.lt_of_succ_lt inside),
    memory_inside inside, bigEndian16]
  omega

theorem places_readBigEndian (memory : Nat → UInt8) (count value : Nat) :
    (readBigEndian pos count value).places memory = List.range' pos count := by
  induction count generalizing pos value with
  | zero => rfl
  | succ count ih =>
      rw [readBigEndian, places_bind, ih]
      rfl

theorem places_readLittleEndian (memory : Nat → UInt8) (count : Nat) :
    (readLittleEndian pos count).places memory = List.range' pos count := by
  induction count generalizing pos with
  | zero => rfl
  | succ count ih =>
      simp only [readLittleEndian, places_bind, places_fetch, places_pure, ih, List.append_nil]
      rfl

/-- Consecutive places are allowed one by one. -/
theorem forall_places {allowed : Nat → Prop} {pos count : Nat} :
    (∀ place ∈ List.range' pos count, allowed place) ↔ ∀ i < count, allowed (pos + i) := by
  simp only [List.mem_range'_1]
  constructor
  · exact fun every i small => every (pos + i) ⟨by omega, by omega⟩
  · intro every place bounds
    have split : pos + (place - pos) = place := by omega
    exact split ▸ every (place - pos) (by omega)

theorem within_readBigEndian {allowed : Nat → Prop} (memory : Nat → UInt8) (count value : Nat) :
    Within memory allowed (readBigEndian pos count value) ↔ ∀ i < count, allowed (pos + i) := by
  rw [Within, places_readBigEndian, forall_places]

theorem within_readLittleEndian {allowed : Nat → Prop} (memory : Nat → UInt8) (count : Nat) :
    Within memory allowed (readLittleEndian pos count) ↔ ∀ i < count, allowed (pos + i) := by
  rw [Within, places_readLittleEndian, forall_places]

/-- Comparisons stop at the first difference, so they read no further than the last pattern byte. -/
theorem within_matchBytes {size : Nat} (memory : Nat → UInt8) {pattern : List (Nat × Nat)}
    (inside : ∀ entry ∈ pattern, entry.1 < size) : Within memory (· < size) (matchBytes pattern) := by
  induction pattern with
  | nil => exact within_pure true
  | cons entry rest ih =>
      refine Within.bind (within_fetch.mpr (inside entry List.mem_cons_self)) ?_
      split_ifs
      · exact ih fun other held => inside other (List.mem_cons_of_mem entry held)
      · exact within_pure false

end Memory

section Walk

/-- One step of the walk: over a byte that opens no marker, over a marker that stands alone, or over a
segment whose marker is no readable frame. -/
inductive Move (data : Bytes) (pos : Nat) : Nat → Prop where
  | stray : pos + 4 ≤ data.length → byteAt data pos ≠ 0xFF → Move data pos (pos + 1)
  | standalone : pos + 4 ≤ data.length → byteAt data pos = 0xFF → isLast (byteAt data (pos + 1)) = false →
      isStandalone (byteAt data (pos + 1)) = true → Move data pos (pos + 2)
  | segment : pos + 4 ≤ data.length → byteAt data pos = 0xFF → isLast (byteAt data (pos + 1)) = false →
      isStandalone (byteAt data (pos + 1)) = false →
      ¬ (isFrame (byteAt data (pos + 1)) = true ∧ pos + 9 ≤ data.length) →
      Move data pos (pos + 2 + bigEndian16 data (pos + 2))

/-- A frame header that the scan takes: it looks for nine bytes and reads a tenth. -/
structure FrameAt (data : Bytes) (pos : Nat) : Prop where
  marked : byteAt data pos = 0xFF
  frame : isFrame (byteAt data (pos + 1)) = true
  inside : pos + 9 ≤ data.length

def Walks (data : Bytes) : Nat → Nat → Prop := Relation.ReflTransGen (Move data)

variable {data : Bytes} {pos : Nat}

theorem frame_carries {marker : Nat} (frame : isFrame marker = true) :
    isLast marker = false ∧ isStandalone marker = false := by
  simp only [isFrame, Bool.and_eq_true, decide_eq_true_eq] at frame
  simp only [isLast, isStandalone, Bool.or_eq_false_iff, Bool.and_eq_false_iff, beq_eq_false_iff_ne,
    decide_eq_false_iff_not]
  omega

theorem Move.forward {pos' : Nat} (move : Move data pos pos') : pos < pos' := by
  cases move with
  | stray => omega
  | standalone => omega
  | segment => omega

theorem Move.unique {left right : Nat} (first : Move data pos left) (second : Move data pos right) :
    left = right := by
  cases first with
  | stray room apart =>
      cases second with
      | stray => rfl
      | standalone _ marked => exact absurd marked apart
      | segment _ marked => exact absurd marked apart
  | standalone room marked goes alone =>
      cases second with
      | stray _ apart => exact absurd marked apart
      | standalone => rfl
      | segment _ _ _ carries => rw [alone] at carries; cases carries
  | segment room marked goes carries =>
      cases second with
      | stray _ apart => exact absurd marked apart
      | standalone _ _ _ alone => rw [carries] at alone; cases alone
      | segment => rfl

theorem FrameAt.stays {pos' : Nat} (here : FrameAt data pos) : ¬ Move data pos pos' := by
  obtain ⟨last, alone⟩ := frame_carries here.frame
  intro move
  cases move with
  | stray _ apart => exact apart here.marked
  | standalone _ _ _ standing => rw [alone] at standing; cases standing
  | segment _ _ _ _ unread => exact unread ⟨here.frame, here.inside⟩

/-- A walk has one end. -/
theorem Walks.unique {left right : Nat} (first : Walks data pos left) (second : Walks data pos right)
    (ends : ∀ next, ¬ Move data left next) (ends' : ∀ next, ¬ Move data right next) : left = right := by
  have stuck {a b : Nat} (still : ∀ next, ¬ Move data a next) (walk : Walks data a b) : a = b := by
    cases Relation.ReflTransGen.cases_head walk with
    | inl same => exact same
    | inr step => exact absurd step.choose_spec.1 (still _)
  have unique : Relator.RightUnique (Move data) := fun _ _ _ => Move.unique
  rcases Relation.ReflTransGen.total_of_right_unique unique first second with on | on
  · exact stuck ends on
  · exact (stuck ends' on).symm

end Walk

section Loop

variable {data : Bytes} {beyond : Nat → UInt8} {pos : Nat}

/-- The dimensions that a frame header gives. -/
def frameDims (data : Bytes) (beyond : Nat → UInt8) (pos : Nat) : ImageDimensions where
  width := bigEndian16 data (pos + 7)
  height := bigEndian16 data (pos + 5)
  channels := if 0 < (memory data beyond (pos + 9)).toNat then (memory data beyond (pos + 9)).toNat else 3

/-- What one turn does: it moves on, leaves the loop, or takes a frame header. -/
theorem markerTurn_cases (data : Bytes) (beyond : Nat → UInt8) (pos : Nat) :
    let turn := markerTurn data.length pos
    let inside := Within (memory data beyond) (· < data.length) turn
    (∃ next, turn.run (memory data beyond) = .next next ∧ Move data pos next ∧ inside) ∨
    (turn.run (memory data beyond) = .leave ∧ (∀ next, ¬ Move data pos next) ∧ ¬ FrameAt data pos ∧ inside) ∨
    (turn.run (memory data beyond) = .found (frameDims data beyond pos) ∧ FrameAt data pos ∧
      (inside ↔ pos + 9 < data.length)) := by
  dsimp only
  unfold markerTurn
  -- the tests in the order of the source; what they have read so far is inside
  by_cases short : data.length < pos + 4
  · rw [if_pos short]
    refine Or.inr (Or.inl ⟨rfl, fun next move => ?_, fun here => ?_, within_pure _⟩)
    · cases move with
      | stray room => omega
      | standalone room => omega
      | segment room => omega
    · have nine := here.inside
      omega
  have room : pos + 4 ≤ data.length := Nat.le_of_not_lt short
  have first : (memory data beyond pos).toNat = byteAt data pos := memory_inside (by omega)
  have second : (memory data beyond (pos + 1)).toNat = byteAt data (pos + 1) := memory_inside (by omega)
  simp only [if_neg short, run_bind, run_fetch, within_bind, within_fetch, first]
  by_cases stray : byteAt data pos ≠ 0xFF
  · simp only [if_pos stray]
    exact Or.inl ⟨pos + 1, rfl, .stray room stray, by omega, within_pure _⟩
  have marked : byteAt data pos = 0xFF := not_not.mp stray
  simp only [if_neg stray, run_bind, run_fetch, within_bind, within_fetch, second]
  cases last : isLast (byteAt data (pos + 1)) with
  | true =>
      simp only [if_true]
      refine Or.inr (Or.inl ⟨rfl, fun next move => ?_, fun here => ?_, by omega, by omega, within_pure _⟩)
      · cases move with
        | stray _ apart => exact apart marked
        | standalone _ _ goes => rw [last] at goes; cases goes
        | segment _ _ goes => rw [last] at goes; cases goes
      · rw [(frame_carries here.frame).1] at last
        cases last
  | false =>
      simp only [Bool.false_eq_true, if_false]
      cases alone : isStandalone (byteAt data (pos + 1)) with
      | true =>
          simp only [if_true]
          exact Or.inl ⟨pos + 2, rfl, .standalone room marked last alone, by omega, by omega, within_pure _⟩
      | false =>
          have length : (readBigEndian (pos + 2) 2 0).run (memory data beyond) = bigEndian16 data (pos + 2) :=
            run_bigEndian16 (by omega)
          simp only [Bool.false_eq_true, if_false, run_bind, within_bind, within_readBigEndian, length]
          by_cases frame : isFrame (byteAt data (pos + 1)) = true ∧ pos + 9 ≤ data.length
          · have height : (readBigEndian (pos + 5) 2 0).run (memory data beyond) = bigEndian16 data (pos + 5) :=
              run_bigEndian16 (by omega)
            have width : (readBigEndian (pos + 7) 2 0).run (memory data beyond) = bigEndian16 data (pos + 7) :=
              run_bigEndian16 (by omega)
            simp only [if_pos frame, run_bind, within_bind, within_readBigEndian, within_fetch, height, width,
              run_pure, run_fetch]
            refine Or.inr (Or.inr ⟨rfl, ⟨marked, frame.1, frame.2⟩, ?_⟩)
            constructor
            · exact fun every => every.2.2.2.2.2.1
            · intro tenth
              exact ⟨by omega, by omega, fun i _ => by omega, fun i _ => by omega, fun i _ => by omega,
                tenth, within_pure _⟩
          · simp only [if_neg frame]
            exact Or.inl ⟨_, rfl, .segment room marked last alone frame, by omega, by omega,
              fun i _ => by omega, within_pure _⟩

theorem Move.room {next : Nat} (move : Move data pos next) : pos + 4 ≤ data.length := by
  cases move with
  | stray room => exact room
  | standalone room => exact room
  | segment room => exact room

/-- The loop follows the walk to its end, and what it has read is inside unless that end is a header of
nine bytes. Each step moves on, so the length of the buffer bounds the turns. -/
theorem markerLoop_ends (data : Bytes) (beyond : Nat → UInt8) {fuel pos : Nat} (some' : 0 < fuel)
    (enough : data.length < pos + fuel) :
    ∃ last, Walks data pos last ∧ (∀ next, ¬ Move data last next) ∧
      (¬ FrameAt data last ∧ (markerLoop data.length fuel pos).run (memory data beyond) = some .leave ∧
          Within (memory data beyond) (· < data.length) (markerLoop data.length fuel pos) ∨
        FrameAt data last ∧
          (markerLoop data.length fuel pos).run (memory data beyond) = some (.found (frameDims data beyond last)) ∧
          (Within (memory data beyond) (· < data.length) (markerLoop data.length fuel pos) ↔
            last + 9 < data.length)) := by
  induction fuel generalizing pos with
  | zero => exact absurd some' (Nat.lt_irrefl 0)
  | succ fuel ih =>
      unfold markerLoop
      simp only [run_bind, within_bind]
      rcases markerTurn_cases data beyond pos with ⟨next, goes, move, inside⟩ | ⟨leaves, ends, absent, inside⟩ |
        ⟨found, here, tenth⟩
      · -- a step forward, with less fuel for less text
        have room := move.room
        have forward := move.forward
        obtain ⟨last, walk, ends, outcome⟩ := @ih next (by omega) (by omega)
        simp only [goes]
        refine ⟨last, Relation.ReflTransGen.head move walk, ends, ?_⟩
        rcases outcome with ⟨absent, run, later⟩ | ⟨here, run, later⟩
        · exact Or.inl ⟨absent, run, inside, later⟩
        · exact Or.inr ⟨here, run, (and_iff_right inside).trans later⟩
      · simp only [leaves]
        exact ⟨pos, .refl, ends, Or.inl ⟨absent, rfl, inside, within_pure _⟩⟩
      · simp only [found]
        exact ⟨pos, .refl, fun next => here.stays, Or.inr ⟨here, rfl, (and_iff_left (within_pure _)).trans tenth⟩⟩

end Loop

section Formats

variable {data : Bytes} {beyond : Nat → UInt8} {outDims : ImageDimensions}

def IsJpeg (data : Bytes) : Prop := 4 ≤ data.length ∧ byteAt data 0 = 0xFF ∧ byteAt data 1 = 0xD8

/-- The walk over a JPEG comes to a frame header of which the buffer holds nine bytes and no more. -/
def CutOff (data : Bytes) : Prop :=
  IsJpeg data ∧ ∃ pos, Walks data 2 pos ∧ FrameAt data pos ∧ pos + 9 = data.length

theorem run_whenSized {memory : Nat → UInt8} {enough : Prop} [Decidable enough] (test : Reading Nat UInt8 Bool) :
    (whenSized enough test).run memory = true ↔ enough ∧ test.run memory = true := by
  unfold whenSized
  split_ifs with size
  · exact (and_iff_right size).symm
  · simp [size]

/-- A test is made only for a buffer that holds all of its bytes. -/
theorem within_test {memory : Nat → UInt8} {size enough : Nat} {pattern : List (Nat × Nat)}
    (bound : ∀ entry ∈ pattern, entry.1 < enough) :
    Within memory (· < size) (whenSized (enough ≤ size) (matchBytes pattern)) := by
  unfold whenSized
  split_ifs with large
  · exact within_matchBytes memory fun entry member => (bound entry member).trans_le large
  · exact within_pure false

theorem run_matchBytes {memory : Nat → UInt8} {pattern : List (Nat × Nat)} :
    (matchBytes pattern).run memory = true ↔ ∀ entry ∈ pattern, (memory entry.1).toNat = entry.2 := by
  induction pattern with
  | nil => simp [matchBytes]
  | cons entry rest ih =>
      have step : (matchBytes (entry :: rest)).run memory =
          if (memory entry.1).toNat = entry.2 then (matchBytes rest).run memory else false := by
        rw [matchBytes, run_bind, run_ite]
        rfl
      rw [step, List.forall_mem_cons, ← ih]
      split_ifs with same
      · exact (and_iff_right same).symm
      · simp [same]

theorem isJpeg_iff : (whenSized (4 ≤ data.length) (matchBytes [(0, 0xFF), (1, 0xD8)])).run (memory data beyond) =
    true ↔ IsJpeg data := by
  rw [run_whenSized, run_matchBytes, IsJpeg, List.forall_mem_cons, List.forall_mem_singleton]
  apply and_congr_right
  intro size
  have first : (memory data beyond 0).toNat = byteAt data 0 := memory_inside (by omega)
  have second : (memory data beyond 1).toNat = byteAt data 1 := memory_inside (by omega)
  rw [first, second]

/-- A test for another first byte fails on a JPEG. -/
theorem other_format {first : Nat} (apart : first ≠ 0xFF) (enough : Prop) [Decidable enough]
    (rest : List (Nat × Nat)) (jpeg : IsJpeg data) :
    (whenSized enough (matchBytes ((0, first) :: rest))).run (memory data beyond) = false := by
  rw [Bool.eq_false_iff, ne_eq, run_whenSized, run_matchBytes]
  rintro ⟨_, bytes⟩
  have here : (memory data beyond 0).toNat = byteAt data 0 := memory_inside (Nat.zero_lt_of_lt jpeg.1)
  exact apart ((bytes (0, first) List.mem_cons_self).symm.trans (here.trans jpeg.2.1))

theorem parse_jpeg (jpeg : IsJpeg data) (fuel : Nat) :
    (parseImageDimensions fuel data.length outDims).run (memory data beyond) =
        (parseJpeg fuel data.length outDims).run (memory data beyond) ∧
      (Within (memory data beyond) (· < data.length) (parseImageDimensions fuel data.length outDims) ↔
        Within (memory data beyond) (· < data.length) (parseJpeg fuel data.length outDims)) := by
  have nonempty : data.length ≠ 0 := by
    have size := jpeg.1
    omega
  -- the other two signatures are tested first, and fail on the first byte
  have png : (whenSized (24 ≤ data.length) (matchBytes pngSignature)).run (memory data beyond) = false :=
    other_format (by decide) _ _ jpeg
  have bmp : (whenSized (26 ≤ data.length) (matchBytes [(0, 0x42), (1, 0x4D)])).run (memory data beyond) = false :=
    other_format (by decide) _ _ jpeg
  have pngInside : Within (memory data beyond) (· < data.length)
      (whenSized (24 ≤ data.length) (matchBytes pngSignature)) := within_test (by decide)
  have bmpInside : Within (memory data beyond) (· < data.length)
      (whenSized (26 ≤ data.length) (matchBytes [(0, 0x42), (1, 0x4D)])) := within_test (by decide)
  unfold parseImageDimensions parseBmp
  simp only [if_neg nonempty, run_bind, png, bmp, Bool.false_eq_true, if_false, within_bind]
  exact ⟨trivial, by simp only [pngInside, bmpInside, true_and]⟩

theorem parseJpeg_ends (jpeg : IsJpeg data) (beyond : Nat → UInt8) (outDims : ImageDimensions) :
    ∃ last, Walks data 2 last ∧ (∀ next, ¬ Move data last next) ∧
      (¬ FrameAt data last ∧ (parseJpeg data.length data.length outDims).run (memory data beyond) =
            some (fallThrough outDims) ∧
          Within (memory data beyond) (· < data.length) (parseJpeg data.length data.length outDims) ∨
        FrameAt data last ∧ (parseJpeg data.length data.length outDims).run (memory data beyond) =
            some ⟨true, frameDims data beyond last, []⟩ ∧
          (Within (memory data beyond) (· < data.length) (parseJpeg data.length data.length outDims) ↔
            last + 9 < data.length)) := by
  have size := jpeg.1
  have begins : (whenSized (4 ≤ data.length) (matchBytes [(0, 0xFF), (1, 0xD8)])).run (memory data beyond) = true :=
    isJpeg_iff.mpr jpeg
  have inside : Within (memory data beyond) (· < data.length)
      (whenSized (4 ≤ data.length) (matchBytes [(0, 0xFF), (1, 0xD8)])) := within_test (by decide)
  obtain ⟨last, walk, ends, outcome⟩ := @markerLoop_ends data beyond data.length 2 (by omega) (by omega)
  refine ⟨last, walk, ends, ?_⟩
  unfold parseJpeg
  simp only [run_bind, within_bind, begins, if_true, inside, true_and]
  rcases outcome with ⟨absent, run, within⟩ | ⟨here, run, tenth⟩
  · simp only [run]
    exact Or.inl ⟨absent, rfl, within, within_pure _⟩
  · simp only [run]
    exact Or.inr ⟨here, rfl, (and_iff_left (within_pure _)).trans tenth⟩

/-- What one branch owes: reads inside the buffer, and an end. -/
def Ends (memory : Nat → UInt8) (size : Nat) (parse : Reading Nat UInt8 (Option Parsed)) : Prop :=
  Within memory (· < size) parse ∧ parse.run memory ≠ none

/-- A test of some size may only be passed by a buffer of that size, and the branch behind it counts on that. -/
theorem ends_test {memory : Nat → UInt8} {size enough : Nat} {pattern : List (Nat × Nat)}
    {hit miss : Reading Nat UInt8 (Option Parsed)} (bound : ∀ entry ∈ pattern, entry.1 < enough)
    (onHit : enough ≤ size → Ends memory size hit) (onMiss : Ends memory size miss) :
    Ends memory size (do if ← whenSized (enough ≤ size) (matchBytes pattern) then hit else miss) := by
  have test : Within memory (· < size) (whenSized (enough ≤ size) (matchBytes pattern)) := within_test bound
  unfold Ends
  rw [within_bind, run_bind, and_iff_right test]
  cases passed : (whenSized (enough ≤ size) (matchBytes pattern)).run memory with
  | true => exact onHit ((run_whenSized _).mp passed).1
  | false => exact onMiss

theorem ends_bmp {memory : Nat → UInt8} {size fuel : Nat} (jpeg : Ends memory size (parseJpeg fuel size outDims)) :
    Ends memory size (parseBmp fuel size outDims) := by
  apply ends_test (by decide) _ jpeg
  intro large
  constructor
  · simp only [within_bind, within_readLittleEndian]
    exact ⟨fun i _ => by omega, fun i _ => by omega, within_pure _⟩
  · simp only [run_bind, run_pure, ne_eq, reduceCtorEq, not_false_eq_true]

theorem ends_png {memory : Nat → UInt8} {size fuel : Nat} (jpeg : Ends memory size (parseJpeg fuel size outDims)) :
    Ends memory size (parseImageDimensions fuel size outDims) := by
  unfold parseImageDimensions
  split_ifs with empty
  · exact ⟨within_pure _, by simp only [run_pure, ne_eq, reduceCtorEq, not_false_eq_true]⟩
  apply ends_test (by decide) _ (ends_bmp jpeg)
  intro large
  have header : Within memory (· < size) (matchBytes headerChunk) := by
    apply within_matchBytes
    intro entry member
    have bound : ∀ entry ∈ headerChunk, entry.1 < 24 := by decide
    exact (bound entry member).trans_le large
  unfold Ends
  rw [within_bind, run_bind, and_iff_right header]
  cases (matchBytes headerChunk).run memory with
  | true =>
      simp only [if_true, within_bind, within_readBigEndian, run_bind, run_pure]
      refine ⟨⟨fun i _ => ?_, fun i _ => ?_, within_pure _⟩, by simp only [ne_eq, reduceCtorEq, not_false_eq_true]⟩
      · omega
      · omega
  | false => exact ends_bmp jpeg

/-- Without the signature of a JPEG the marker loop is not entered. -/
theorem ends_other (other : ¬ IsJpeg data) (fuel : Nat) :
    Ends (memory data beyond) data.length (parseJpeg fuel data.length outDims) := by
  have test : Within (memory data beyond) (· < data.length)
      (whenSized (4 ≤ data.length) (matchBytes [(0, 0xFF), (1, 0xD8)])) := within_test (by decide)
  have fails : (whenSized (4 ≤ data.length) (matchBytes [(0, 0xFF), (1, 0xD8)])).run (memory data beyond) = false := by
    rw [Bool.eq_false_iff, ne_eq, isJpeg_iff]
    exact other
  unfold Ends parseJpeg
  rw [within_bind, run_bind, and_iff_right test, fails]
  exact ⟨within_pure _, by simp⟩

end Formats

section Agreement

variable {data : Bytes} {beyond : Nat → UInt8}

/-- The comparisons with a pattern that begins at `start`. -/
def entriesFrom (start : Nat) : Bytes → List (Nat × Nat)
  | [] => []
  | c :: rest => (start, c.toNat) :: entriesFrom (start + 1) rest

theorem run_entriesFrom (pattern : Bytes) {start : Nat} (inside : start + pattern.length ≤ data.length) :
    (matchBytes (entriesFrom start pattern)).run (memory data beyond) = pattern.isPrefixOf (data.drop start) := by
  induction pattern generalizing start with
  | nil => rw [entriesFrom, matchBytes, run_pure, List.isPrefixOf_nil_left]
  | cons c rest ih =>
      rw [List.length_cons] at inside
      have here : start < data.length := by omega
      have first : memory data beyond start = data[start] := by
        rw [memory, List.getD_eq_getElem?_getD, List.getElem?_eq_getElem here, Option.getD_some]
      rw [entriesFrom, matchBytes, run_bind, run_fetch, run_ite, first, ih (by omega),
        List.drop_eq_getElem_cons here, List.isPrefixOf_cons_cons, run_pure]
      by_cases same : data[start] = c
      · simp [same]
      · have apart : data[start].toNat ≠ c.toNat := fun equal => same (UInt8.toNat_inj.mp equal)
        rw [if_neg apart, beq_false_of_ne (Ne.symm same), Bool.false_and]

/-- A test of a front whose bytes are all there. -/
theorem run_signature {enough : Nat} (pattern : Bytes) (fits : pattern.length ≤ enough) :
    (whenSized (enough ≤ data.length) (matchBytes (entriesFrom 0 pattern))).run (memory data beyond) =
      decide (enough ≤ data.length ∧ pattern.isPrefixOf data = true) := by
  unfold whenSized
  split_ifs with large
  · rw [run_entriesFrom pattern (by omega), List.drop_zero, Bool.eq_iff_iff, decide_eq_true_eq]
    exact (and_iff_right large).symm
  · rw [run_pure, decide_eq_false fun both => large both.1]

theorem run_bigEndian32 {pos : Nat} (inside : pos + 3 < data.length) :
    (readBigEndian pos 4 0).run (memory data beyond) = ImageChecks.bigEndian32 data pos := by
  have each (i : Nat) (small : i < 4) : (memory data beyond (pos + i)).toNat = byteAt data (pos + i) :=
    memory_inside (by omega)
  have first := each 0 (by decide)
  simp only [Nat.add_zero] at first
  simp only [readBigEndian, run_bind, run_fetch, run_pure, Nat.add_assoc, Nat.reduceAdd, first,
    each 1 (by decide), each 2 (by decide), each 3 (by decide), ImageChecks.bigEndian32]
  omega

theorem run_littleEndian32 {pos : Nat} (inside : pos + 3 < data.length) :
    (readLittleEndian pos 4).run (memory data beyond) = ImageChecks.littleEndian32 data pos := by
  have each (i : Nat) (small : i < 4) : (memory data beyond (pos + i)).toNat = byteAt data (pos + i) :=
    memory_inside (by omega)
  have first := each 0 (by decide)
  simp only [Nat.add_zero] at first
  simp only [readLittleEndian, run_bind, run_fetch, run_pure, Nat.add_assoc, Nat.reduceAdd, first,
    each 1 (by decide), each 2 (by decide), each 3 (by decide), ImageChecks.littleEndian32]
  omega

theorem isLast_iff {marker : Nat} : isLast marker = true ↔ marker = 0xD9 ∨ marker = 0xDA := by
  simp [isLast]

theorem isStandalone_iff {marker : Nat} :
    isStandalone marker = true ↔ marker = 0xD8 ∨ marker = 0x01 ∨ 0xD0 ≤ marker ∧ marker ≤ 0xD7 := by
  simp [isStandalone, or_assoc]

/-- The scan without reads follows the walk, too. -/
theorem jpegLoop_move {pos next : Nat} (move : Move data pos next) (fuel : Nat) :
    ImageChecks.jpegLoop data (fuel + 1) pos = ImageChecks.jpegLoop data fuel next := by
  have room : ¬ data.length < pos + 4 := Nat.not_lt.mpr move.room
  rw [ImageChecks.jpegLoop, if_neg room]
  cases move with
  | stray _ apart => rw [if_pos apart]
  | standalone _ marked goes alone =>
      have last := isLast_iff.not.mp (Bool.eq_false_iff.mp goes)
      rw [if_neg (not_not.mpr marked)]
      dsimp only
      rw [if_neg last, if_pos (isStandalone_iff.mp alone)]
  | segment _ marked goes carries unread =>
      have last := isLast_iff.not.mp (Bool.eq_false_iff.mp goes)
      have long := isStandalone_iff.not.mp (Bool.eq_false_iff.mp carries)
      rw [if_neg (not_not.mpr marked)]
      dsimp only
      rw [if_neg last, if_neg long, if_neg unread]

theorem jpegLoop_frame {pos : Nat} (here : FrameAt data pos) (fuel : Nat) :
    ImageChecks.jpegLoop data (fuel + 1) pos =
      some ⟨bigEndian16 data (pos + 7), bigEndian16 data (pos + 5)⟩ := by
  obtain ⟨goes, carries⟩ := frame_carries here.frame
  have inside := here.inside
  have last := isLast_iff.not.mp (Bool.eq_false_iff.mp goes)
  have long := isStandalone_iff.not.mp (Bool.eq_false_iff.mp carries)
  rw [ImageChecks.jpegLoop, if_neg (by omega), if_neg (not_not.mpr here.marked)]
  dsimp only
  rw [if_neg last, if_neg long, if_pos ⟨here.frame, here.inside⟩]

theorem jpegLoop_leaves {pos : Nat} (ends : ∀ next, ¬ Move data pos next) (absent : ¬ FrameAt data pos) (fuel : Nat) :
    ImageChecks.jpegLoop data (fuel + 1) pos = none := by
  unfold ImageChecks.jpegLoop
  dsimp only
  split_ifs with short stray last alone frame
  · rfl
  · exact absurd (.stray (Nat.not_lt.mp short) stray) (ends _)
  · rfl
  · exact absurd (.standalone (Nat.not_lt.mp short) (not_not.mp stray) (Bool.eq_false_iff.mpr (isLast_iff.not.mpr last))
      (isStandalone_iff.mpr alone)) (ends _)
  · exact absurd ⟨not_not.mp stray, frame.1, frame.2⟩ absent
  · exact absurd (.segment (Nat.not_lt.mp short) (not_not.mp stray) (Bool.eq_false_iff.mpr (isLast_iff.not.mpr last))
      (Bool.eq_false_iff.mpr (isStandalone_iff.not.mpr alone)) frame) (ends _)

/-- The size that a turn has found. -/
def Turn.size : Turn → Option ImageChecks.ImageDimensions
  | found dims => some ⟨dims.width, dims.height⟩
  | _ => none

theorem markerLoop_size (data : Bytes) (beyond : Nat → UInt8) (fuel pos : Nat) :
    ((markerLoop data.length fuel pos).run (memory data beyond)).bind Turn.size =
      ImageChecks.jpegLoop data fuel pos := by
  induction fuel generalizing pos with
  | zero => rfl
  | succ fuel ih =>
      rw [markerLoop, run_bind]
      rcases markerTurn_cases data beyond pos with ⟨next, goes, move, _⟩ | ⟨leaves, ends, absent, _⟩ |
        ⟨found, here, _⟩
      · rw [goes, jpegLoop_move move]
        exact ih next
      · rw [leaves, jpegLoop_leaves ends absent]
        rfl
      · rw [found, jpegLoop_frame here]
        rfl

/-- What the caller takes from the parser. -/
def Parsed.answer (parsed : Parsed) : Except Bytes ImageChecks.ImageDimensions :=
  if parsed.ok then .ok ⟨parsed.dims.width, parsed.dims.height⟩ else .error parsed.errorMsg

theorem parseJpeg_answer (data : Bytes) (beyond : Nat → UInt8) :
    ((parseJpeg data.length data.length {}).run (memory data beyond)).map Parsed.answer =
      some (match if 4 ≤ data.length ∧ [0xFF, 0xD8].isPrefixOf data = true
          then ImageChecks.jpegLoop data data.length 2 else none with
        | some dims => .ok dims
        | none => .error (fallThrough {}).errorMsg) := by
  have test : (whenSized (4 ≤ data.length) (matchBytes [(0, 0xFF), (1, 0xD8)])).run (memory data beyond) =
      decide (4 ≤ data.length ∧ [0xFF, 0xD8].isPrefixOf data = true) := run_signature [0xFF, 0xD8] (by decide)
  by_cases jpeg : 4 ≤ data.length ∧ [0xFF, 0xD8].isPrefixOf data = true
  · have size := jpeg.1
    obtain ⟨last, _, _, outcome⟩ := @markerLoop_ends data beyond data.length 2 (by omega) (by omega)
    have scanned := markerLoop_size data beyond data.length 2
    rw [if_pos jpeg, ← scanned, parseJpeg, run_bind, test, decide_eq_true jpeg, if_pos rfl, run_bind]
    rcases outcome with ⟨_, run, _⟩ | ⟨_, run, _⟩
    · rw [run]
      rfl
    · rw [run]
      rfl
  · rw [if_neg jpeg, parseJpeg, run_bind, test, decide_eq_false jpeg]
    rfl

theorem parseBmp_answer (data : Bytes) (beyond : Nat → UInt8) :
    ((parseBmp data.length data.length {}).run (memory data beyond)).map Parsed.answer =
      if 26 ≤ data.length ∧ (ascii "BM").isPrefixOf data = true then
        some (.ok ⟨absolute32 (ImageChecks.littleEndian32 data 18), absolute32 (ImageChecks.littleEndian32 data 22)⟩)
      else ((parseJpeg data.length data.length {}).run (memory data beyond)).map Parsed.answer := by
  have test : (whenSized (26 ≤ data.length) (matchBytes [(0, 0x42), (1, 0x4D)])).run (memory data beyond) =
      decide (26 ≤ data.length ∧ (ascii "BM").isPrefixOf data = true) := run_signature (ascii "BM") (by decide)
  rw [parseBmp, run_bind, test]
  by_cases bmp : 26 ≤ data.length ∧ (ascii "BM").isPrefixOf data = true
  · have size := bmp.1
    rw [if_pos bmp, decide_eq_true bmp, if_pos rfl, run_bind, run_bind, run_littleEndian32 (by omega),
      run_littleEndian32 (by omega)]
    rfl
  · rw [if_neg bmp, decide_eq_false bmp, if_neg Bool.false_ne_true]

/-- The check on the images of a request is the parser, without the number of channels. -/
theorem parse_answer (data : Bytes) (beyond : Nat → UInt8) :
    ((parseImageDimensions data.length data.length {}).run (memory data beyond)).map Parsed.answer =
      some (ImageChecks.parseImageDimensions data) := by
  have other := parseBmp_answer data beyond
  rw [parseJpeg_answer, ← apply_ite some] at other
  have test : (whenSized (24 ≤ data.length) (matchBytes pngSignature)).run (memory data beyond) =
      decide (24 ≤ data.length ∧ [0x89, 0x50, 0x4E, 0x47, 0x0D, 0x0A, 0x1A, 0x0A].isPrefixOf data = true) :=
    run_signature [0x89, 0x50, 0x4E, 0x47, 0x0D, 0x0A, 0x1A, 0x0A] (by decide)
  have png : ImageChecks.isPng data =
      (decide (24 ≤ data.length ∧ [0x89, 0x50, 0x4E, 0x47, 0x0D, 0x0A, 0x1A, 0x0A].isPrefixOf data = true) &&
        (ascii "IHDR").isPrefixOf (data.drop 12)) := by
    rw [ImageChecks.isPng, Bool.decide_and, Bool.decide_eq_true]
  unfold ImageChecks.parseImageDimensions parseImageDimensions
  by_cases empty : data = []
  · rw [empty]
    rfl
  have some' : data.length ≠ 0 := fun none' => empty (List.eq_nil_of_length_eq_zero none')
  rw [if_neg empty, if_neg some', run_bind, test, png]
  -- a PNG without its header chunk is tried as the other formats
  by_cases signature : 24 ≤ data.length ∧ [0x89, 0x50, 0x4E, 0x47, 0x0D, 0x0A, 0x1A, 0x0A].isPrefixOf data = true
  · have size := signature.1
    have inside : 12 + (ascii "IHDR").length ≤ data.length := Nat.le_trans (by decide) size
    have chunk : (matchBytes headerChunk).run (memory data beyond) = (ascii "IHDR").isPrefixOf (data.drop 12) :=
      run_entriesFrom (ascii "IHDR") inside
    rw [decide_eq_true signature, if_pos rfl, run_bind, chunk, Bool.true_and]
    cases (ascii "IHDR").isPrefixOf (data.drop 12) with
    | true =>
        rw [if_pos rfl, if_pos rfl, run_bind, run_bind, run_bigEndian32 (by omega), run_bigEndian32 (by omega)]
        rfl
    | false => exact other
  · rw [decide_eq_false signature, Bool.false_and]
    exact other

end Agreement

section Safety

/-- What `parse_image_dimensions` owes every caller. -/
structure Safe (data : Bytes) (outDims : ImageDimensions) : Prop where
  inBounds : ∀ beyond, Within (memory data beyond) (· < data.length)
    (parseImageDimensions data.length data.length outDims)
  terminates : ∀ beyond, (parseImageDimensions data.length data.length outDims).run (memory data beyond) ≠ none

/-- The parser reads only its buffer, unless a JPEG is cut off behind the width of its first frame header. -/
theorem safe_iff (data : Bytes) (outDims : ImageDimensions) : Safe data outDims ↔ ¬ CutOff data := by
  by_cases jpeg : IsJpeg data
  · constructor
    · rintro ⟨inBounds, _⟩ ⟨_, pos, walk, here, nine⟩
      have within := ((parse_jpeg jpeg data.length).2).mp (inBounds fun _ => 0)
      obtain ⟨last, walk', ends, ⟨absent, _⟩ | ⟨_, _, tenth⟩⟩ := parseJpeg_ends jpeg (fun _ => 0) outDims
      · exact absent (walk.unique walk' (fun _ => here.stays) ends ▸ here)
      · -- the number of components is the first byte behind the buffer
        have same := walk.unique walk' (fun _ => here.stays) ends
        have more := tenth.mp within
        omega
    · intro whole
      constructor
      · intro beyond
        rw [(parse_jpeg jpeg data.length).2]
        obtain ⟨last, walk, _, ⟨_, _, within⟩ | ⟨here, _, tenth⟩⟩ := parseJpeg_ends jpeg beyond outDims
        · exact within
        · have nine := here.inside
          have more : last + 9 ≠ data.length := fun cut => whole ⟨jpeg, last, walk, here, cut⟩
          exact tenth.mpr (by omega)
      · intro beyond
        rw [(parse_jpeg jpeg data.length).1]
        obtain ⟨last, _, _, ⟨_, run, _⟩ | ⟨_, run, _⟩⟩ := parseJpeg_ends jpeg beyond outDims
        · simp [run]
        · simp [run]
  · constructor
    · exact fun _ cut => jpeg cut.1
    · exact fun _ => ⟨fun beyond => (ends_png (ends_other jpeg data.length)).1,
        fun beyond => (ends_png (ends_other jpeg data.length)).2⟩

/-- Eleven bytes: the header of a frame of one row and one column, without its number of components. -/
def cutFrame : Bytes := [0xFF, 0xD8, 0xFF, 0xC0, 0x00, 0x11, 0x08, 0x00, 0x01, 0x00, 0x01]

theorem cutFrame_unsafe : ¬ Safe cutFrame {} := by
  intro safe
  have read : 11 ∈ (parseImageDimensions cutFrame.length cutFrame.length {}).places
      (memory cutFrame fun _ => 0) := by decide
  have inside := safe.inBounds (fun _ => 0) 11 read
  exact absurd inside (by decide)

end Safety

end XInfer.ImageHeaders
