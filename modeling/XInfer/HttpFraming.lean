import XInfer.StreamingHandler

/-!
`HttpServer::handle_client` up to the request parser. A connection holds the bytes still
to come and how many of them each `recv` is offered; once the sizes are used up every
`recv` gets what it asks for. The two read loops run on a bound that their bytes cannot
exceed. The texts of the early answers are those of their `ApiError`s.
-/

namespace XInfer.HttpFraming

open Primitives ByteString StreamingHandler

structure Connection where
  pending : Bytes
  sizes : List Nat

/-- A `recv` of at most `asked` bytes; nothing pending reads as a value of zero or less. -/
def recv (asked : Nat) (conn : Connection) : Option (Bytes × Connection) :=
  if conn.pending = [] then none
  else
    let size := max 1 (min (conn.sizes.headD asked) asked)
    some (conn.pending.take size, { pending := conn.pending.drop size, sizes := conn.sizes.tail })

def bufferSize : Nat := 4096
def headerLimit : Nat := 65536
def blankLine : Bytes := ascii "\r\n\r\n"

inductive HeaderRead where
  | closed
  | tooLarge
  | found (pos : Nat) (rawRequest : Bytes) (conn : Connection)

/-- The header loop. The size limit is checked after every `recv`, also after the one
that brings the blank line. -/
def readHeaders : Nat → Connection → Bytes → HeaderRead
  | 0, _, _ => .closed
  | fuel + 1, conn, raw =>
      match recv bufferSize conn with
      | none => .closed
      | some (chunk, rest) =>
          let raw := raw ++ chunk
          if headerLimit < raw.length then .tooLarge
          else match find blankLine raw with
            | some pos => .found pos raw rest
            | none => readHeaders fuel rest raw

def readBody (contentLength : Nat) : Nat → Connection → Bytes → Bytes
  | 0, _, body => body
  | fuel + 1, conn, body =>
      if body.length < contentLength then
        match recv (min (contentLength - body.length) bufferSize) conn with
        | none => body
        | some (chunk, rest) => readBody contentLength fuel rest (body ++ chunk)
      else body

/-- `isspace` of the C locale. -/
def isSpace (byte : UInt8) : Bool := byte == 32 || (9 ≤ byte && byte ≤ 13)

/-- `>>` of a word. A stream that has met its end gives no more words and no more lines. -/
def extract : Option Bytes → Bytes × Option Bytes
  | none => ([], none)
  | some text =>
      let rest := text.dropWhile isSpace
      let after := rest.dropWhile fun byte => !isSpace byte
      (rest.takeWhile fun byte => !isSpace byte, if after = [] then none else some after)

/-- The lines that `std::getline` reads until it fails. -/
def getlines : Bytes → Bytes → List Bytes
  | [], [] => []
  | line, [] => [line]
  | line, byte :: rest => if byte = 10 then line :: getlines [] rest else getlines (line ++ [byte]) rest

def toLower (text : Bytes) : Bytes :=
  text.map fun byte => if 65 ≤ byte && byte ≤ 90 then byte + 32 else byte

/-- `std::stoull` in base ten. The value of a text with a minus sign wraps around. -/
def stoull (text : Bytes) : Option Nat :=
  let text := text.dropWhile isSpace
  let negative := text.head? == some 45
  let text := if text.head? = some 45 ∨ text.head? = some 43 then text.drop 1 else text
  let digits := text.takeWhile fun byte => 48 ≤ byte && byte ≤ 57
  let value := digits.foldl (fun value byte => value * 10 + (byte.toNat - 48)) 0
  if digits = [] ∨ 2 ^ 64 ≤ value then none
  else some (if negative then (2 ^ 64 - value) % 2 ^ 64 else value)

def isPad (byte : UInt8) : Bool := byte == 32 || byte == 9

structure RequestHead where
  method : Bytes
  path : Bytes
  contentLength : Nat := 0
  isChunked : Bool := false
  contentType : Bytes := []

def parseField (head : RequestHead) (line : Bytes) : RequestHead :=
  let line := if line.getLast? = some 13 then line.dropLast else line
  match find [58] line with
  | none => head
  | some colon =>
      let key := toLower (line.take colon)
      let val := (((line.drop (colon + 1)).dropWhile isPad).reverse.dropWhile isPad).reverse
      if key = ascii "content-type" then { head with contentType := val }
      else if key = ascii "content-length" then { head with contentLength := (stoull val).getD 0 }
      else if key = ascii "transfer-encoding" then
        if Contains (ascii "chunked") (toLower val) then { head with isChunked := true } else head
      else head

/-- The request line and the header fields. What is left of the first line is skipped. -/
def parseHead (headers : Bytes) : RequestHead :=
  let (method, stream) := extract (some headers)
  let (path, stream) := extract stream
  let (_, stream) := extract stream
  ((getlines [] (stream.getD [])).drop 1).foldl parseField { method := method, path := path }

inductive Outcome where
  | closed
  | headerTooLarge
  | preflight
  | health
  | models
  | refused (err : ApiError)
  | handed (method path contentType body : Bytes)
  deriving DecidableEq

def notFound (path : Bytes) : ApiError where
  statusCode := 404
  type := ascii "invalid_request_error"
  code := ascii "not_found"
  message := ascii "The requested endpoint '" ++ path ++
    ascii "' does not exist. Use POST /v1/chat/completions."

def chunked : ApiError where
  statusCode := 400
  type := ascii "invalid_request_error"
  param := ascii "Transfer-Encoding"
  code := ascii "unsupported_parameter"
  message := ascii "Chunked transfer encoding is not supported. Please provide a Content-Length header."

def bodyTooLarge : ApiError where
  statusCode := 413
  type := ascii "invalid_request_error"
  code := ascii "request_entity_too_large"
  message := ascii "Request body exceeds max configured size."

def incomplete : ApiError where
  statusCode := 408
  type := ascii "invalid_request_error"
  code := ascii "request_timeout"
  message := ascii "Client timed out or disconnected before complete request body was received."

/-- The answers that need no body. -/
def early (maxRequestSize : Nat) (head : RequestHead) : Option Outcome :=
  if head.method = ascii "OPTIONS" then some .preflight
  else if head.method = ascii "GET" ∧ (head.path = ascii "/health" ∨ head.path = ascii "/v1/health") then
    some .health
  else if head.method = ascii "GET" ∧ (head.path = ascii "/v1/models" ∨ head.path = ascii "/models") then
    some .models
  else if head.method ≠ ascii "POST" ∨
      (head.path ≠ ascii "/v1/chat/completions" ∧ head.path ≠ ascii "/chat/completions") then
    some (.refused (notFound head.path))
  else if head.isChunked then some (.refused chunked)
  else if maxRequestSize < head.contentLength then some (.refused bodyTooLarge)
  else none

def handleClient (maxRequestSize : Nat) (conn : Connection) : Outcome :=
  match readHeaders (conn.pending.length + 1) conn [] with
  | .closed => .closed
  | .tooLarge => .headerTooLarge
  | .found pos raw conn =>
      let head := parseHead (raw.take pos)
      match early maxRequestSize head with
      | some outcome => outcome
      | none =>
          let body := readBody head.contentLength (conn.pending.length + 1) conn (raw.drop (pos + 4))
          if body.length < head.contentLength then .refused incomplete
          else .handed head.method head.path head.contentType body

section Reading

variable {stream : Bytes}

/-- What one `recv` does at a place of the stream. -/
theorem recv_at (asked : Nat) {place : Nat} (asks : 0 < asked) (more : place < stream.length) (sizes : List Nat) :
    ∃ size, 0 < size ∧ size ≤ asked ∧ place + size ≤ stream.length ∧
      recv asked ⟨stream.drop place, sizes⟩ =
        some ((stream.drop place).take size, ⟨stream.drop (place + size), sizes.tail⟩) := by
  have pending : stream.drop place ≠ [] := by
    rw [Ne, List.drop_eq_nil_iff]
    omega
  have size : ((stream.drop place).length = stream.length - place) := List.length_drop
  refine ⟨min (max 1 (min (sizes.headD asked) asked)) (stream.length - place), by omega, by omega,
    by omega, ?_⟩
  rw [recv, if_neg pending]
  simp only [Option.some.injEq, Prod.mk.injEq, Connection.mk.injEq, List.drop_drop, and_true]
  constructor
  · rw [← size, List.take_eq_take_iff]
    omega
  · rcases Nat.le_total (max 1 (min (sizes.headD asked) asked)) (stream.length - place) with fits | short
    · rw [Nat.min_eq_left fits]
    · rw [Nat.min_eq_right short, List.drop_eq_nil_of_le (by omega), List.drop_eq_nil_of_le (by omega)]

/-- A size that fits is what `recv` returns. -/
theorem recv_exact (stream : Bytes) (asked place size : Nat) (positive : 0 < size) (fits : size ≤ asked)
    (more : place + size ≤ stream.length) (sizes : List Nat) :
    recv asked ⟨stream.drop place, size :: sizes⟩ =
      some ((stream.drop place).take size, ⟨stream.drop (place + size), sizes⟩) := by
  have pending : stream.drop place ≠ [] := by
    rw [Ne, List.drop_eq_nil_iff]
    omega
  have exactly : max 1 (min size asked) = size := by omega
  simp [recv, pending, exactly]

theorem recv_nothing {asked place : Nat} (ended : stream.length ≤ place) (sizes : List Nat) :
    recv asked ⟨stream.drop place, sizes⟩ = none := by
  rw [recv, if_pos (List.drop_eq_nil_of_le ended)]

/-- The loop where it stops because the blank line is in. -/
def stopped (pos place : Nat) (stream : Bytes) (sizes : List Nat) : HeaderRead :=
  if headerLimit < place then .tooLarge
  else .found pos (stream.take place) ⟨stream.drop place, sizes⟩

/-- One turn of the header loop, in terms of the place it has read to. -/
theorem readHeaders_step (fuel : Nat) {place size : Nat} {sizes rest : List Nat}
    (inside : place + size ≤ stream.length)
    (received : recv bufferSize ⟨stream.drop place, sizes⟩ =
      some ((stream.drop place).take size, ⟨stream.drop (place + size), rest⟩)) :
    readHeaders (fuel + 1) ⟨stream.drop place, sizes⟩ (stream.take place) =
      if headerLimit < place + size then .tooLarge
      else match find blankLine (stream.take (place + size)) with
        | some pos => .found pos (stream.take (place + size)) ⟨stream.drop (place + size), rest⟩
        | none => readHeaders fuel ⟨stream.drop (place + size), rest⟩ (stream.take (place + size)) := by
  simp only [readHeaders, received, ← List.take_add, List.length_take, Nat.min_eq_left inside]

theorem readHeaders_closed (fuel : Nat) (sizes : List Nat) (raw : Bytes) {place : Nat}
    (ended : stream.length ≤ place) : readHeaders fuel ⟨stream.drop place, sizes⟩ raw = .closed := by
  cases fuel with
  | zero => rfl
  | succ fuel => simp only [readHeaders, recv_nothing ended]

/-- Without a blank line within the limit only the length of the stream counts. -/
theorem readHeaders_endless (stream : Bytes) (absent : ∀ pos, find blankLine stream = some pos → headerLimit < pos + 4)
    (fuel place : Nat) (sizes : List Nat) (enough : stream.length ≤ place + fuel)
    (short : place ≤ headerLimit) (inside : place ≤ stream.length) :
    readHeaders fuel ⟨stream.drop place, sizes⟩ (stream.take place) =
      if headerLimit < stream.length then .tooLarge else .closed := by
  induction fuel generalizing place sizes with
  | zero =>
      rw [readHeaders_closed 0 sizes _ (by omega : stream.length ≤ place), if_neg (by omega)]
  | succ fuel ih =>
      by_cases more : place < stream.length
      · obtain ⟨size, positive, _, within, received⟩ :=
          recv_at bufferSize (by decide) more sizes
        rw [readHeaders_step fuel within received]
        by_cases large : headerLimit < place + size
        · rw [if_pos large, if_pos (by omega)]
        · -- a blank line in what is read would lie within the limit
          have unseen : find blankLine (stream.take (place + size)) = none := by
            rcases seen : find blankLine (stream.take (place + size)) with _ | pos
            · rfl
            · have far := absent pos (find_of_take seen)
              have near := find_le blankLine seen
              have four : blankLine.length = 4 := rfl
              simp only [List.length_take] at near
              omega
          rw [if_neg large, unseen]
          exact ih (place + size) sizes.tail (by omega) (by omega) within
      · rw [readHeaders_closed _ _ _ (by omega), if_neg (by omega)]

theorem find_before {pos place : Nat} (found : find blankLine stream = some pos) (early : place < pos + 4) :
    find blankLine (stream.take place) = none := by
  rcases seen : find blankLine (stream.take place) with _ | other
  · rfl
  · have same := (find_of_take seen).symm.trans found
    cases same
    have near := find_le blankLine seen
    have four : blankLine.length = 4 := rfl
    simp only [List.length_take] at near
    omega

/-- However the bytes arrive, the loop stops less than one buffer after the blank line. -/
theorem readHeaders_stops {pos : Nat} (found : find blankLine stream = some pos)
    (near : pos + 4 ≤ headerLimit) (fuel place : Nat) (sizes : List Nat)
    (enough : stream.length < place + fuel) (early : place < pos + 4) :
    ∃ stop rest, pos + 4 ≤ stop ∧ stop ≤ stream.length ∧ stop < pos + 4 + bufferSize ∧
      readHeaders fuel ⟨stream.drop place, sizes⟩ (stream.take place) = stopped pos stop stream rest := by
  have end_le : pos + 4 ≤ stream.length := find_le blankLine found
  induction fuel generalizing place sizes with
  | zero => omega
  | succ fuel ih =>
      obtain ⟨size, positive, most, within, received⟩ :=
        recv_at bufferSize (by decide) (by omega : place < stream.length) sizes
      rw [readHeaders_step fuel within received]
      by_cases done : pos + 4 ≤ place + size
      · refine ⟨place + size, sizes.tail, done, within, by omega, ?_⟩
        rw [stopped, find_take found done]
      · rw [if_neg (by omega), find_before found (by omega)]
        exact ih (place + size) sizes.tail (by omega) (by omega)

/-- Each of these places is reached: byte by byte up to the last one of the blank line,
and from there at once. -/
theorem readHeaders_attains {pos : Nat} (found : find blankLine stream = some pos)
    (near : pos + 4 ≤ headerLimit) {stop : Nat} (after : pos + 4 ≤ stop) (inside : stop ≤ stream.length)
    (within : stop < pos + 4 + bufferSize) (left fuel place : Nat) (here : place + left = pos + 3)
    (enough : stream.length < place + fuel) :
    readHeaders fuel ⟨stream.drop place, List.replicate left 1 ++ [stop - (pos + 3)]⟩ (stream.take place) =
      stopped pos stop stream [] := by
  induction left generalizing fuel place with
  | zero =>
      obtain ⟨fuel, rfl⟩ : ∃ more, fuel = more + 1 := ⟨fuel - 1, by omega⟩
      have whole : place + (stop - (pos + 3)) = stop := by omega
      have received := recv_exact stream bufferSize place (stop - (pos + 3))
        (by omega) (by omega) (by omega) []
      rw [List.replicate_zero, List.nil_append, readHeaders_step fuel (by omega) received, whole, stopped,
        find_take found after]
  | succ left ih =>
      obtain ⟨fuel, rfl⟩ : ∃ more, fuel = more + 1 := ⟨fuel - 1, by omega⟩
      have received := recv_exact stream bufferSize place 1 (by decide) (by decide) (by omega)
        (List.replicate left 1 ++ [stop - (pos + 3)])
      rw [List.replicate_succ, List.cons_append, readHeaders_step fuel (by omega) received,
        if_neg (by omega), find_before found (by omega)]
      exact ih fuel (place + 1) (by omega) (by omega)

/-- The body loop reads what is missing, in whatever pieces. -/
theorem readBody_eq (stream : Bytes) (contentLength fuel place : Nat) (sizes : List Nat) (body : Bytes)
    (enough : stream.length < place + fuel) :
    readBody contentLength fuel ⟨stream.drop place, sizes⟩ body =
      body ++ (stream.drop place).take (contentLength - body.length) := by
  induction fuel generalizing place sizes body with
  | zero =>
      rw [List.drop_eq_nil_of_le (by omega)]
      simp [readBody]
  | succ fuel ih =>
      unfold readBody
      by_cases missing : body.length < contentLength
      · rw [if_pos missing]
        by_cases more : place < stream.length
        · obtain ⟨size, positive, most, within, received⟩ := recv_at
            (min (contentLength - body.length) bufferSize)
            (Nat.lt_min.mpr ⟨by omega, by decide⟩) more sizes
          have length : (body ++ (stream.drop place).take size).length = body.length + size := by
            simp only [List.length_append, List.length_take, List.length_drop]
            omega
          have split : contentLength - body.length = size + (contentLength - (body.length + size)) := by omega
          rw [received]
          dsimp only
          rw [ih (place + size) sizes.tail _ (by omega), length, List.append_assoc, split, List.take_add,
            List.drop_drop]
        · rw [recv_nothing (by omega), List.drop_eq_nil_of_le (by omega), List.take_nil, List.append_nil]
      · rw [if_neg missing, Nat.sub_eq_zero_of_le (by omega), List.take_zero, List.append_nil]

end Reading

section Outcomes

variable (maxRequestSize : Nat)

/-- The outcome for a request whose header loop has read to `place`. -/
def finish (stream : Bytes) (pos place : Nat) : Outcome :=
  let head := parseHead (stream.take pos)
  match early maxRequestSize head with
  | some outcome => outcome
  | none =>
      let body := (stream.drop (pos + 4)).take (max (place - (pos + 4)) head.contentLength)
      if body.length < head.contentLength then .refused incomplete
      else .handed head.method head.path head.contentType body

theorem early_not_large {head : RequestHead} {outcome : Outcome}
    (answered : early maxRequestSize head = some outcome) : outcome ≠ .headerTooLarge := by
  unfold early at answered
  repeat' split at answered
  all_goals cases answered <;> nofun

theorem finish_not_large (stream : Bytes) (pos place : Nat) :
    finish maxRequestSize stream pos place ≠ .headerTooLarge := by
  unfold finish
  dsimp only
  cases answered : early maxRequestSize (parseHead (stream.take pos)) with
  | some outcome => exact early_not_large maxRequestSize answered
  | none => dsimp only; split <;> nofun

/-- What `handle_client` answers once its header loop is through. -/
theorem handleClient_stopped {stream : Bytes} {pos stop : Nat} {sizes rest : List Nat}
    (after : pos + 4 ≤ stop) (inside : stop ≤ stream.length)
    (read : readHeaders (stream.length + 1) ⟨stream, sizes⟩ [] = stopped pos stop stream rest) :
    handleClient maxRequestSize ⟨stream, sizes⟩ =
      if headerLimit < stop then .headerTooLarge else finish maxRequestSize stream pos stop := by
  unfold handleClient
  dsimp only
  rw [read, stopped]
  by_cases large : headerLimit < stop
  · rw [if_pos large, if_pos large]
  · rw [if_neg large, if_neg large]
    have head : (stream.take stop).take pos = stream.take pos := by
      rw [List.take_take, Nat.min_eq_left (by omega)]
    have back : stream.drop stop = (stream.drop (pos + 4)).drop (stop - (pos + 4)) := by
      rw [List.drop_drop]
      congr 1
      omega
    have size : ((stream.drop (pos + 4)).take (stop - (pos + 4))).length = stop - (pos + 4) := by
      rw [List.length_take, List.length_drop]
      omega
    have body := readBody_eq stream (parseHead (stream.take pos)).contentLength
      ((stream.drop stop).length + 1) stop rest ((stream.drop (pos + 4)).take (stop - (pos + 4)))
      (by rw [List.length_drop]; omega)
    have whole : ∀ needed, (stream.drop (pos + 4)).take (stop - (pos + 4)) ++
        (stream.drop stop).take (needed - (stop - (pos + 4))) =
          (stream.drop (pos + 4)).take (max (stop - (pos + 4)) needed) := by
      intro needed
      rw [back, ← List.take_add]
      congr 1
      omega
    rw [size, whole] at body
    simp only [head, List.drop_take, body, finish]

/-- Of two deliveries of one stream neither can be told from the answer. -/
def DeliveryFree (stream : Bytes) : Prop :=
  ∀ sizes others, handleClient maxRequestSize ⟨stream, sizes⟩ = handleClient maxRequestSize ⟨stream, others⟩

/-- The blank line comes early enough for the header limit to be about the header, or the
whole stream is within it; and a body that is read holds all that can arrive with the
header. -/
def Framed (stream : Bytes) : Prop :=
  ∀ pos, find blankLine stream = some pos → pos + 4 ≤ headerLimit →
    (headerLimit < stream.length → pos + 4 + bufferSize ≤ headerLimit + 1) ∧
    (early maxRequestSize (parseHead (stream.take pos)) = none →
      min (stream.length - (pos + 4)) (bufferSize - 1) ≤ (parseHead (stream.take pos)).contentLength)

theorem finish_handed {stream : Bytes} {pos place : Nat}
    (body : early maxRequestSize (parseHead (stream.take pos)) = none)
    (complete : (parseHead (stream.take pos)).contentLength ≤ stream.length - (pos + 4)) :
    finish maxRequestSize stream pos place =
      .handed (parseHead (stream.take pos)).method (parseHead (stream.take pos)).path
        (parseHead (stream.take pos)).contentType ((stream.drop (pos + 4)).take
          (max (place - (pos + 4)) (parseHead (stream.take pos)).contentLength)) := by
  unfold finish
  dsimp only
  rw [body]
  dsimp only
  rw [if_neg]
  simp only [List.length_take, List.length_drop]
  omega

/-- Every place within one buffer of the blank line is where some delivery stops. -/
theorem handleClient_attains {stream : Bytes} {pos : Nat} (stop : Nat) (found : find blankLine stream = some pos)
    (near : pos + 4 ≤ headerLimit) (after : pos + 4 ≤ stop) (inside : stop ≤ stream.length)
    (within : stop < pos + 4 + bufferSize) :
    handleClient maxRequestSize ⟨stream, List.replicate (pos + 3) 1 ++ [stop - (pos + 3)]⟩ =
      if headerLimit < stop then .headerTooLarge else finish maxRequestSize stream pos stop :=
  handleClient_stopped maxRequestSize after inside
    (readHeaders_attains found near after inside within (pos + 3) (stream.length + 1) 0 (by omega) (by omega))

theorem framed_of_deliveryFree {stream : Bytes} (free : DeliveryFree maxRequestSize stream) :
    Framed maxRequestSize stream := by
  intro pos found near
  have end_le : pos + 4 ≤ stream.length := find_le blankLine found
  have buffered : 0 < bufferSize := by decide
  have exactly := handleClient_attains maxRequestSize (pos + 4) found near (Nat.le_refl _) end_le (by omega)
  rw [if_neg (by omega)] at exactly
  constructor
  · intro long
    by_contra late
    -- the last `recv` of one delivery crosses the limit, that of the other stops short of it
    have crossing := handleClient_attains maxRequestSize (headerLimit + 1) found near
      (by omega) (by omega) (by omega)
    rw [if_pos (by omega), free _ (List.replicate (pos + 3) 1 ++ [pos + 4 - (pos + 3)]), exactly] at crossing
    exact finish_not_large maxRequestSize stream pos (pos + 4) crossing
  · intro body
    by_contra short
    have more := handleClient_attains maxRequestSize
      (pos + 4 + min (stream.length - (pos + 4)) (bufferSize - 1)) found near (by omega) (by omega) (by omega)
    rw [free _ (List.replicate (pos + 3) 1 ++ [pos + 4 - (pos + 3)]), exactly] at more
    split at more
    · exact finish_not_large maxRequestSize stream pos (pos + 4) more
    · -- both bodies are complete, and of different lengths
      rw [finish_handed maxRequestSize body (by omega), finish_handed maxRequestSize body (by omega)] at more
      have bodies := congrArg List.length (Outcome.handed.inj more).2.2.2
      simp only [List.length_take, List.length_drop] at bodies
      omega

/-- The answer is the same for every delivery exactly on framed streams. -/
theorem framing_iff (stream : Bytes) :
    DeliveryFree maxRequestSize stream ↔ Framed maxRequestSize stream := by
  refine ⟨framed_of_deliveryFree maxRequestSize, ?_⟩
  intro framed sizes others
  by_cases late : ∀ pos, find blankLine stream = some pos → headerLimit < pos + 4
  · have endless := readHeaders_endless stream late (stream.length + 1) 0
    have same : ∀ sizes, readHeaders (stream.length + 1) ⟨stream, sizes⟩ [] =
        if headerLimit < stream.length then .tooLarge else .closed := fun sizes =>
      endless sizes (by omega) (by decide) (by omega)
    unfold handleClient
    rw [same, same]
  · simp only [not_forall, Nat.not_lt] at late
    obtain ⟨pos, found, near⟩ := late
    obtain ⟨limited, whole⟩ := framed pos found near
    have settled : ∀ sizes, handleClient maxRequestSize ⟨stream, sizes⟩ =
        finish maxRequestSize stream pos (pos + 4) := by
      intro sizes
      obtain ⟨stop, rest, after, inside, within, read⟩ :=
        readHeaders_stops found near (stream.length + 1) 0 sizes (by omega) (by omega)
      rw [handleClient_stopped maxRequestSize after inside read, if_neg (by omega)]
      unfold finish
      dsimp only
      cases answered : early maxRequestSize (parseHead (stream.take pos)) with
      | some outcome => rfl
      | none =>
          have enough := whole answered
          dsimp only
          rw [Nat.max_eq_right (by omega), Nat.max_eq_right (by omega)]
    rw [settled, settled]

/-- A request with a line feed behind the body it announces. -/
def trailing : Bytes :=
  ascii "POST /v1/chat/completions HTTP/1.1\r\nContent-Length: 2\r\n\r\n\x7b\x7d\n"

/-- At once the line feed belongs to the body; in pieces it is never read. -/
theorem trailing_delivery : ¬ ∀ maxRequestSize stream, DeliveryFree maxRequestSize stream := by
  intro claim
  have same := claim 4194304 trailing [] [57]
  exact absurd same (by decide +kernel)

end Outcomes

end XInfer.HttpFraming
