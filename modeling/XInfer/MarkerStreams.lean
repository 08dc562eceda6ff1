import XInfer.ImageHeaders
import Mathlib.Data.List.TakeWhile

/-!
JPEG streams as the format lays them out, and what `parse_image_dimensions` makes of them. A header may
have fill bytes before its marker. The scan has no case for them: it takes the second `0xFF` for a marker
and the two bytes behind it for a length, and goes on wherever that length leads.
-/

namespace XInfer.MarkerStreams

open Primitives BufferReads BufferReads.Reading ImageHeaders
open ImageChecks (byteAt bigEndian16 isFrame)

section Format

/-- A segment with the fill bytes before it. -/
structure Segment where
  fill : Nat
  marker : UInt8
  payload : Bytes
  isMarker : marker ≠ 0x00 ∧ marker ≠ 0xFF
  carries : isStandalone marker.toNat = false
  beforeScan : isLast marker.toNat = false
  short : payload.length + 2 < 2 ^ 16

/-- The length counts its own two bytes. -/
def Segment.lengthBytes (segment : Segment) : Bytes :=
  [UInt8.ofNat ((segment.payload.length + 2) / 256), UInt8.ofNat ((segment.payload.length + 2) % 256)]

def Segment.bytes (segment : Segment) : Bytes :=
  List.replicate segment.fill 0xFF ++ ([0xFF, segment.marker] ++ segment.lengthBytes ++ segment.payload)

/-- A stream up to its first frame header, and the rest of it. The payload of a frame header begins with
the precision, the height, the width and the number of components. -/
structure MarkerStream where
  tables : List Segment
  frame : Segment
  rest : Bytes
  unframed : ∀ segment ∈ tables, isFrame segment.marker.toNat = false
  framed : isFrame frame.marker.toNat = true
  complete : 6 ≤ frame.payload.length

def MarkerStream.bytes (stream : MarkerStream) : Bytes :=
  [0xFF, 0xD8] ++ stream.tables.flatMap Segment.bytes ++ (stream.frame.bytes ++ stream.rest)

def MarkerStream.height (stream : MarkerStream) : Nat := bigEndian16 stream.frame.payload 1

def MarkerStream.width (stream : MarkerStream) : Nat := bigEndian16 stream.frame.payload 3

def MarkerStream.headers (stream : MarkerStream) : List Segment := stream.tables ++ [stream.frame]

/-- The headers before the first one with fill bytes. -/
def MarkerStream.aligned (stream : MarkerStream) : List Segment :=
  stream.headers.takeWhile fun segment : Segment => segment.fill == 0

def MarkerStream.Unfilled (stream : MarkerStream) : Prop := ∀ segment ∈ stream.headers, segment.fill = 0

end Format

section Bytewise

variable {front back : Bytes}

theorem byteAt_append (front back : Bytes) (i : Nat) : byteAt (front ++ back) (front.length + i) = byteAt back i := by
  simp [byteAt, List.getD_eq_getElem?_getD, List.getElem?_append_right]

theorem bigEndian16_append (front back : Bytes) (i : Nat) :
    bigEndian16 (front ++ back) (front.length + i) = bigEndian16 back i := by
  rw [bigEndian16, bigEndian16, byteAt_append, Nat.add_assoc, byteAt_append]

theorem byteAt_cons (byte : UInt8) (back : Bytes) (i : Nat) : byteAt (byte :: back) (i + 1) = byteAt back i := by
  simp [byteAt]

theorem bigEndian16_cons (byte : UInt8) (back : Bytes) (i : Nat) :
    bigEndian16 (byte :: back) (i + 1) = bigEndian16 back i := by
  rw [bigEndian16, bigEndian16, byteAt_cons, byteAt_cons]

theorem bigEndian16_left {i : Nat} (inside : i + 1 < front.length) :
    bigEndian16 (front ++ back) i = bigEndian16 front i := by
  have first : i < front.length := Nat.lt_of_succ_lt inside
  simp only [bigEndian16, byteAt, List.getD_eq_getElem?_getD, List.getElem?_append_left first,
    List.getElem?_append_left inside]

/-- What stands at the start of a segment without fill bytes. -/
theorem Segment.header (segment : Segment) (unfilled : segment.fill = 0) (front back : Bytes) :
    let data := front ++ (segment.bytes ++ back)
    byteAt data front.length = 0xFF ∧ byteAt data (front.length + 1) = segment.marker.toNat ∧
      bigEndian16 data (front.length + 2) = segment.payload.length + 2 ∧
      front.length + 4 + segment.payload.length ≤ data.length := by
  have short := segment.short
  dsimp only
  have at0 := byteAt_append front (segment.bytes ++ back) 0
  have at1 := byteAt_append front (segment.bytes ++ back) 1
  have at2 := bigEndian16_append front (segment.bytes ++ back) 2
  rw [Nat.add_zero] at at0
  rw [at0, at1, at2]
  simp only [Segment.bytes, unfilled, Segment.lengthBytes, List.replicate_zero, List.nil_append, List.cons_append,
    List.length_append, List.length_cons]
  refine ⟨rfl, rfl, ?_, by omega⟩
  simp only [bigEndian16, byteAt, List.getD_cons_succ, List.getD_cons_zero, UInt8.toNat_ofNat']
  omega

theorem Segment.payload_read (segment : Segment) (unfilled : segment.fill = 0) (front back : Bytes) {i : Nat}
    (inside : i + 1 < segment.payload.length) :
    bigEndian16 (front ++ (segment.bytes ++ back)) (front.length + (i + 4)) = bigEndian16 segment.payload i := by
  rw [bigEndian16_append]
  simp only [Segment.bytes, unfilled, Segment.lengthBytes, List.replicate_zero, List.nil_append, List.cons_append]
  rw [bigEndian16_cons, bigEndian16_cons, bigEndian16_cons, bigEndian16_cons, bigEndian16_left inside]

end Bytewise

section Walk

/-- A segment without fill bytes is passed as a whole. -/
theorem move_segment {segment : Segment} (unfilled : segment.fill = 0)
    (unframed : isFrame segment.marker.toNat = false) (front back : Bytes) :
    Move (front ++ (segment.bytes ++ back)) front.length (front ++ segment.bytes).length := by
  obtain ⟨marked, marker, length, room⟩ := segment.header unfilled front back
  -- the length that the step reads is the segment's own
  have move : Move (front ++ (segment.bytes ++ back)) front.length
      (front.length + 2 + bigEndian16 (front ++ (segment.bytes ++ back)) (front.length + 2)) := by
    apply Move.segment (by omega) marked
    · rw [marker, segment.beforeScan]
    · rw [marker, segment.carries]
    · rw [marker, unframed]
      exact fun frame => absurd frame.1 (by decide)
  have size : (front ++ segment.bytes).length = front.length + 2 + (segment.payload.length + 2) := by
    simp only [Segment.bytes, unfilled, Segment.lengthBytes, List.length_append, List.length_replicate,
      List.length_cons, List.length_nil]
    omega
  rw [size, ← length]
  exact move

theorem walks_segments {segments : List Segment} (unfilled : ∀ segment ∈ segments, segment.fill = 0)
    (unframed : ∀ segment ∈ segments, isFrame segment.marker.toNat = false) (front back : Bytes) :
    Walks (front ++ (segments.flatMap Segment.bytes ++ back)) front.length
      (front ++ segments.flatMap Segment.bytes).length := by
  induction segments generalizing front with
  | nil =>
      rw [List.flatMap_nil, List.append_nil]
      exact Relation.ReflTransGen.refl
  | cons segment later ih =>
      have first := move_segment (unfilled segment List.mem_cons_self) (unframed segment List.mem_cons_self) front
        (later.flatMap Segment.bytes ++ back)
      have rest := ih (fun other held => unfilled other (List.mem_cons_of_mem segment held))
        (fun other held => unframed other (List.mem_cons_of_mem segment held)) (front ++ segment.bytes)
      rw [List.append_assoc front segment.bytes] at rest
      rw [List.flatMap_cons, List.append_assoc segment.bytes, 
        ← List.append_assoc front segment.bytes (later.flatMap Segment.bytes)]
      exact Relation.ReflTransGen.head first rest

end Walk

section Frames

variable {data : Bytes}

/-- The walk from `pos` on comes to a frame header with these dimensions. -/
def Leads (data : Bytes) (pos width height : Nat) : Prop :=
  ∃ last, Walks data pos last ∧ FrameAt data last ∧ bigEndian16 data (last + 7) = width ∧
    bigEndian16 data (last + 5) = height

/-- The parser succeeds with these dimensions, whatever lies behind the buffer and in the caller's record. -/
def Finds (data : Bytes) (width height : Nat) : Prop :=
  ∀ beyond outDims, ∃ channels, (parseImageDimensions data.length data.length outDims).run (memory data beyond) =
    some ⟨true, ⟨width, height, channels⟩, []⟩

theorem finds_iff (jpeg : IsJpeg data) (width height : Nat) : Finds data width height ↔ Leads data 2 width height := by
  constructor
  · intro finds
    obtain ⟨channels, run⟩ := finds (fun _ => 0) {}
    rw [(parse_jpeg jpeg data.length).1] at run
    obtain ⟨last, walk, _, ⟨_, run', _⟩ | ⟨here, run', _⟩⟩ := parseJpeg_ends jpeg (fun _ => 0) {}
    · -- the caller's record is empty, so that a scan without a header fails
      rw [run'] at run
      cases run
    · rw [run', frameDims] at run
      simp only [Option.some.injEq, Parsed.mk.injEq, ImageDimensions.mk.injEq, Nat.cast_inj, true_and, and_true] at run
      exact ⟨last, walk, here, run.1, run.2.1⟩
  · rintro ⟨pos, walk, here, width', height'⟩ beyond outDims
    rw [(parse_jpeg jpeg data.length).1]
    obtain ⟨last, walk', ends, outcome⟩ := parseJpeg_ends jpeg beyond outDims
    have same : pos = last := walk.unique walk' (fun _ => here.stays) ends
    rcases outcome with ⟨absent, _⟩ | ⟨_, run, _⟩
    · exact absurd (same ▸ here) absent
    · rw [run, ← same, frameDims, width', height']
      exact ⟨_, rfl⟩

/-- A walk may be cut anywhere. -/
theorem leads_walk {pos on : Nat} (walk : Walks data pos on) (width height : Nat) :
    Leads data pos width height ↔ Leads data on width height := by
  constructor
  · rintro ⟨last, reaches, here, dims⟩
    have unique : Relator.RightUnique (Move data) := fun _ _ _ => Move.unique
    rcases Relation.ReflTransGen.total_of_right_unique unique walk reaches with later | earlier
    · exact ⟨last, later, here, dims⟩
    · -- no walk goes on from a frame header
      cases Relation.ReflTransGen.cases_head earlier with
      | inl same => exact ⟨last, same ▸ .refl, here, dims⟩
      | inr step => exact absurd step.choose_spec.1 here.stays
  · rintro ⟨last, reaches, here, dims⟩
    exact ⟨last, walk.trans reaches, here, dims⟩

variable (stream : MarkerStream)

theorem isJpeg_stream : IsJpeg stream.bytes := by
  refine ⟨?_, rfl, rfl⟩
  simp only [MarkerStream.bytes, Segment.bytes, List.length_append, List.length_cons]
  omega

theorem leads_frame (unfilled : stream.frame.fill = 0) :
    Leads stream.bytes ([0xFF, 0xD8] ++ stream.tables.flatMap Segment.bytes).length stream.width stream.height := by
  obtain ⟨marked, marker, _, room⟩ :=
    stream.frame.header unfilled ([0xFF, 0xD8] ++ stream.tables.flatMap Segment.bytes) stream.rest
  have complete := stream.complete
  have width := stream.frame.payload_read unfilled ([0xFF, 0xD8] ++ stream.tables.flatMap Segment.bytes) stream.rest
    (show 3 + 1 < stream.frame.payload.length by omega)
  have height := stream.frame.payload_read unfilled ([0xFF, 0xD8] ++ stream.tables.flatMap Segment.bytes) stream.rest
    (show 1 + 1 < stream.frame.payload.length by omega)
  refine ⟨_, Relation.ReflTransGen.refl, ⟨marked, ?_, ?_⟩, width, height⟩
  · exact (congrArg isFrame marker).trans stream.framed
  · exact Nat.le_trans (by omega) room

end Frames

section FillBytes

variable (stream : MarkerStream)

/-- Where the first header with fill bytes begins. -/
def MarkerStream.firstFill : Nat :=
  ([0xFF, 0xD8] ++ stream.aligned.flatMap Segment.bytes).length

/-- Where the scan goes on behind it, with the two bytes after the second `0xFF` taken for a length. -/
def MarkerStream.landing : Nat := stream.firstFill + 2 + bigEndian16 stream.bytes (stream.firstFill + 2)

/-- A fill byte is taken for a marker with a length. -/
theorem move_fill {segment : Segment} (filled : segment.fill ≠ 0) (front back : Bytes) :
    let data := front ++ (segment.bytes ++ back)
    Move data front.length (front.length + 2 + bigEndian16 data (front.length + 2)) := by
  have at0 := byteAt_append front (segment.bytes ++ back) 0
  have at1 := byteAt_append front (segment.bytes ++ back) 1
  have first : byteAt (segment.bytes ++ back) 0 = 0xFF := by
    obtain ⟨more, fill⟩ := Nat.exists_eq_succ_of_ne_zero filled
    rw [Segment.bytes, fill]
    rfl
  -- a second fill byte, or the `0xFF` of the marker itself
  have second : byteAt (segment.bytes ++ back) 1 = 0xFF := by
    match fill : segment.fill, filled with
    | 1, _ => rw [Segment.bytes, fill]; rfl
    | _ + 2, _ => rw [Segment.bytes, fill]; rfl
  have room : front.length + 4 ≤ (front ++ (segment.bytes ++ back)).length := by
    simp only [Segment.bytes, Segment.lengthBytes, List.length_append, List.length_cons]
    omega
  rw [first] at at0
  rw [second] at at1
  apply Move.segment room at0
  · rw [at1]
    rfl
  · rw [at1]
    rfl
  · rw [at1]
    exact fun frame => absurd frame.1 (by decide)

theorem MarkerStream.bytes_headers :
    stream.bytes = [0xFF, 0xD8] ++ (stream.headers.flatMap Segment.bytes ++ stream.rest) := by
  simp [MarkerStream.bytes, MarkerStream.headers]

theorem unfilled_aligned : ∀ segment ∈ stream.aligned, segment.fill = 0 :=
  fun _ member => eq_of_beq (List.mem_takeWhile_imp (p := fun segment : Segment => segment.fill == 0) member)

theorem exists_filled (filled : ¬ stream.Unfilled) :
    ∃ segment later, stream.headers = stream.aligned ++ segment :: later ∧ segment.fill ≠ 0 := by
  have split := List.takeWhile_append_dropWhile (p := fun segment : Segment => segment.fill == 0)
    (l := stream.headers)
  have head := List.head?_dropWhile_not (fun segment : Segment => segment.fill == 0) stream.headers
  cases rest : stream.headers.dropWhile fun segment : Segment => segment.fill == 0 with
  | nil =>
      rw [List.dropWhile_eq_nil_iff] at rest
      exact absurd (fun segment member => eq_of_beq (rest segment member)) filled
  | cons segment later =>
      rw [rest] at split head
      exact ⟨segment, later, split.symm, by simpa using head⟩

theorem bytes_split {segment : Segment} {later : List Segment}
    (split : stream.headers = stream.aligned ++ segment :: later) :
    stream.bytes = ([0xFF, 0xD8] ++ stream.aligned.flatMap Segment.bytes) ++
      (segment.bytes ++ (later.flatMap Segment.bytes ++ stream.rest)) := by
  rw [stream.bytes_headers, split, List.flatMap_append, List.flatMap_cons]
  simp only [List.append_assoc]

/-- The first header with fill bytes is at the latest the frame header, so that what is aligned before it
holds no frame. -/
theorem unframed_aligned (filled : ¬ stream.Unfilled) :
    ∀ segment ∈ stream.aligned, isFrame segment.marker.toNat = false := by
  obtain ⟨segment, later, split, _⟩ := exists_filled stream filled
  have before : stream.aligned.length ≤ stream.tables.length := by
    have size := congrArg List.length split
    simp only [MarkerStream.headers, List.length_append, List.length_cons, List.length_nil] at size
    omega
  have tables : stream.aligned <+: stream.tables :=
    List.prefix_of_prefix_length_le ⟨_, split.symm⟩ ⟨[stream.frame], rfl⟩ before
  exact fun segment member => stream.unframed segment (tables.subset member)

/-- The scan stays aligned up to the first fill byte, and loses the alignment there. -/
theorem walks_landing (filled : ¬ stream.Unfilled) : Walks stream.bytes 2 stream.landing := by
  obtain ⟨segment, later, split, dirty⟩ := exists_filled stream filled
  have walk := walks_segments (unfilled_aligned stream) (unframed_aligned stream filled) [0xFF, 0xD8]
    (segment.bytes ++ (later.flatMap Segment.bytes ++ stream.rest))
  have move := move_fill dirty ([0xFF, 0xD8] ++ stream.aligned.flatMap Segment.bytes)
    (later.flatMap Segment.bytes ++ stream.rest)
  rw [← bytes_split stream split] at move
  rw [← List.append_assoc, ← bytes_split stream split] at walk
  exact walk.tail move

theorem walks_frame (unfilled : stream.Unfilled) :
    Walks stream.bytes 2 ([0xFF, 0xD8] ++ stream.tables.flatMap Segment.bytes).length := by
  have walk := walks_segments (fun segment member => unfilled segment (List.mem_append_left _ member)) stream.unframed
    [0xFF, 0xD8] (stream.frame.bytes ++ stream.rest)
  rw [← List.append_assoc] at walk
  exact walk

/-- The dimensions of a stream are found without fill bytes, and with them only by accident: when the place
to which the misread length leads is again on the way to a frame header, of the same dimensions. -/
theorem finds_stream_iff : Finds stream.bytes stream.width stream.height ↔
    stream.Unfilled ∨ Leads stream.bytes stream.landing stream.width stream.height := by
  rw [finds_iff (isJpeg_stream stream)]
  by_cases unfilled : stream.Unfilled
  · -- the scan is aligned when it comes to the frame header
    have frame := leads_frame stream (unfilled stream.frame (List.mem_append_right _ List.mem_cons_self))
    simp only [unfilled, true_or, iff_true]
    exact (leads_walk (walks_frame stream unfilled) _ _).mpr frame
  · simp only [unfilled, false_or]
    exact leads_walk (walks_landing stream unfilled) _ _

/-- One fill byte before a frame of two rows and one column. -/
def filledStream : MarkerStream where
  tables := []
  frame := ⟨1, 0xC0, [8, 0, 2, 0, 1, 1, 1, 0x11, 0], by decide, by decide, by decide, by decide⟩
  rest := []
  unframed := by simp
  framed := by decide
  complete := by decide

theorem filledStream_lost : ¬ Finds filledStream.bytes filledStream.width filledStream.height := by
  intro finds
  obtain ⟨channels, run⟩ := finds (fun _ => 0) {}
  have fails : ((parseImageDimensions filledStream.bytes.length filledStream.bytes.length {}).run
      (memory filledStream.bytes fun _ => 0)).map (·.ok) = some false := by decide
  rw [run] at fails
  cases fails

theorem walks_forward {data : Bytes} {pos last : Nat} (walk : Walks data pos last) : pos ≤ last := by
  induction walk with
  | refl => exact Nat.le_refl pos
  | tail _ move ih => exact ih.trans move.forward.le

/-- The misread length is that of a marker byte and one more, or of two fill bytes. -/
theorem landing_far (filled : ¬ stream.Unfilled)
    (assigned : ∀ segment ∈ stream.headers, 0xC0 ≤ segment.marker.toNat) : 0xC000 < stream.landing := by
  obtain ⟨segment, later, split, dirty⟩ := exists_filled stream filled
  have high := assigned segment (split ▸ List.mem_append_right _ List.mem_cons_self)
  -- the high byte of the misread length: the marker behind one fill byte, else another `0xFF`
  have third : 0xC0 ≤ byteAt (segment.bytes ++ (later.flatMap Segment.bytes ++ stream.rest)) 2 := by
    match fill : segment.fill, dirty with
    | 1, _ => rw [Segment.bytes, fill]; exact high
    | 2, _ => rw [Segment.bytes, fill]; exact (by decide : 0xC0 ≤ 0xFF)
    | _ + 3, _ => rw [Segment.bytes, fill]; exact (by decide : 0xC0 ≤ 0xFF)
  have length : bigEndian16 stream.bytes (stream.firstFill + 2) =
      bigEndian16 (segment.bytes ++ (later.flatMap Segment.bytes ++ stream.rest)) 2 := by
    rw [bytes_split stream split, MarkerStream.firstFill, bigEndian16_append]
  rw [MarkerStream.landing, length, bigEndian16]
  omega

/-- With the markers that the format assigns, a fill byte leads past the end of every smaller buffer. -/
theorem filled_lost (filled : ¬ stream.Unfilled)
    (assigned : ∀ segment ∈ stream.headers, 0xC0 ≤ segment.marker.toNat)
    (small : stream.bytes.length ≤ 0xC000) : ¬ Finds stream.bytes stream.width stream.height := by
  rw [finds_stream_iff, not_or]
  constructor
  · exact filled
  · rintro ⟨last, walk, here, _⟩
    have far := landing_far stream filled assigned
    have forward := walks_forward walk
    have inside := here.inside
    omega

end FillBytes

end XInfer.MarkerStreams
