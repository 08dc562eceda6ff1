import XInfer.ByteString

/-!
Where `generate` puts the piece of a token: `process_token` keeps a think flag that
starts false, and the clean-up after the loop takes raw tags out of the text. The
callback of a request sees the pieces that are not think markers.
-/

namespace XInfer.TokenRouting

open Primitives ByteString

/-- What `process_token` consults: the marker ids and `decode_token`. -/
structure Markers where
  thinkStartTok : Int
  thinkEndTok : Int
  decodeToken : Int → Bytes

structure Routing where
  tokenIds : List Int := []
  text : Bytes := []
  reasoningContent : Bytes := []
  inThinking : Bool := false
  deriving DecidableEq

namespace Markers

variable (M : Markers)

def isStart (tok : Int) : Bool := decide (tok = M.thinkStartTok) || M.decodeToken tok == ascii "<think>"
def isEnd (tok : Int) : Bool := decide (tok = M.thinkEndTok) || M.decodeToken tok == ascii "</think>"
def isMarker (tok : Int) : Bool := M.isStart tok || M.isEnd tok

/-- `process_token` without the callback. -/
def route (state : Routing) (tok : Int) : Routing :=
  let seen := { state with tokenIds := state.tokenIds ++ [tok] }
  if M.isStart tok then { seen with inThinking := true }
  else if M.isEnd tok then { seen with inThinking := false }
  else if state.inThinking then
    { seen with reasoningContent := state.reasoningContent ++ M.decodeToken tok }
  else { seen with text := state.text ++ M.decodeToken tok }

def routeAll (tokens : List Int) : Routing := tokens.foldl M.route {}

theorem route_tokenIds (state : Routing) (tok : Int) :
    (M.route state tok).tokenIds = state.tokenIds ++ [tok] := by
  unfold route
  split
  · rfl
  · split
    · rfl
    · split <;> rfl

theorem foldl_route_tokenIds (tokens : List Int) (state : Routing) :
    (tokens.foldl M.route state).tokenIds = state.tokenIds ++ tokens := by
  induction tokens generalizing state with
  | nil => simp
  | cons tok rest ih => rw [List.foldl_cons, ih, route_tokenIds, List.append_assoc, List.singleton_append]

@[simp] theorem routeAll_tokenIds (tokens : List Int) : (M.routeAll tokens).tokenIds = tokens := by
  rw [routeAll, foldl_route_tokenIds, List.nil_append]

theorem routeAll_snoc (tokens : List Int) (tok : Int) :
    M.routeAll (tokens ++ [tok]) = M.route (M.routeAll tokens) tok := by
  rw [routeAll, List.foldl_append]
  rfl

/-- Pieces outside the think blocks, from a given state of the flag on. -/
def outside : Bool → List Int → Bytes
  | _, [] => []
  | thinking, tok :: rest =>
      if M.isStart tok then outside true rest
      else if M.isEnd tok then outside false rest
      else (if thinking then [] else M.decodeToken tok) ++ outside thinking rest

/-- Pieces inside the think blocks. -/
def inside : Bool → List Int → Bytes
  | _, [] => []
  | thinking, tok :: rest =>
      if M.isStart tok then inside true rest
      else if M.isEnd tok then inside false rest
      else (if thinking then M.decodeToken tok else []) ++ inside thinking rest

/-- Everything decoded, markers apart. -/
def contents : List Int → Bytes
  | [] => []
  | tok :: rest => (if M.isMarker tok then [] else M.decodeToken tok) ++ contents rest

theorem foldl_route (tokens : List Int) (state : Routing) :
    (tokens.foldl M.route state).text = state.text ++ M.outside state.inThinking tokens ∧
      (tokens.foldl M.route state).reasoningContent =
        state.reasoningContent ++ M.inside state.inThinking tokens := by
  induction tokens generalizing state with
  | nil => simp [outside, inside]
  | cons tok rest ih =>
      rw [List.foldl_cons]
      obtain ⟨text, reasoning⟩ := ih (M.route state tok)
      rw [text, reasoning]
      by_cases start : M.isStart tok = true
      · simp [route, outside, inside, start]
      · by_cases finish : M.isEnd tok = true
        · simp [route, outside, inside, start, finish]
        · cases thinking : state.inThinking <;>
            simp [route, outside, inside, start, finish, thinking]

theorem routeAll_text (tokens : List Int) : (M.routeAll tokens).text = M.outside false tokens := by
  simpa [routeAll] using (M.foldl_route tokens {}).1

theorem routeAll_reasoning (tokens : List Int) :
    (M.routeAll tokens).reasoningContent = M.inside false tokens := by
  simpa [routeAll] using (M.foldl_route tokens {}).2

/-- What the callback is told of a sequence of tokens. -/
def passed (tokens : List Int) : List (Bytes × Int) :=
  (tokens.filter fun tok => !M.isMarker tok).map fun tok => (M.decodeToken tok, tok)

theorem passed_snoc (tokens : List Int) (tok : Int) :
    M.passed (tokens ++ [tok]) =
      M.passed tokens ++ if M.isMarker tok then [] else [(M.decodeToken tok, tok)] := by
  cases marker : M.isMarker tok <;> simp [passed, marker]

theorem contents_append (front back : List Int) :
    M.contents (front ++ back) = M.contents front ++ M.contents back := by
  induction front with
  | nil => rfl
  | cons tok rest ih => simp [contents, ih]

/-- Every piece is either outside or inside. -/
theorem contents_length (thinking : Bool) (tokens : List Int) :
    (M.contents tokens).length =
      (M.outside thinking tokens).length + (M.inside thinking tokens).length := by
  induction tokens generalizing thinking with
  | nil => rfl
  | cons tok rest ih =>
      by_cases start : M.isStart tok = true
      · simp [outside, inside, contents, isMarker, start, ih true]
      · by_cases finish : M.isEnd tok = true
        · simp [outside, inside, contents, isMarker, start, finish, ih false]
        · cases thinking
          · simp [outside, inside, contents, isMarker, start, finish, ih false, Nat.add_assoc]
          · simp [outside, inside, contents, isMarker, start, finish, ih true, Nat.add_left_comm]

theorem outside_of_inside_nil (thinking : Bool) (tokens : List Int)
    (absent : M.inside thinking tokens = []) : M.outside thinking tokens = M.contents tokens := by
  induction tokens generalizing thinking with
  | nil => rfl
  | cons tok rest ih =>
      by_cases start : M.isStart tok = true
      · simp only [inside, start, if_true] at absent
        simp [outside, contents, isMarker, start, ih true absent]
      · by_cases finish : M.isEnd tok = true
        · simp only [inside, start, finish, if_true, if_false, Bool.false_eq_true] at absent
          simp [outside, contents, isMarker, start, finish, ih false absent]
        · simp only [inside, start, finish, if_false, Bool.false_eq_true,
            List.append_eq_nil_iff] at absent
          have later := ih thinking absent.2
          cases thinking
          · simp [outside, contents, isMarker, start, finish, later]
          · have empty : M.decodeToken tok = [] := by simpa using absent.1
            simp [outside, contents, isMarker, start, finish, empty, later]

/-- Pieces that an open think block leaves outside: none before its end. -/
theorem outside_true_of_open (tokens : List Int)
    (still : ∀ tok ∈ tokens, M.isStart tok = true ∨ M.isEnd tok = false) :
    M.outside true tokens = [] ∧ M.inside true tokens = M.contents tokens := by
  induction tokens with
  | nil => exact ⟨rfl, rfl⟩
  | cons tok rest ih =>
      have later := ih fun other member => still other (List.mem_cons_of_mem tok member)
      by_cases start : M.isStart tok = true
      · simp [outside, inside, contents, isMarker, start, later]
      · have finish : M.isEnd tok = false := by
          rcases still tok List.mem_cons_self with start' | finish
          · exact absurd start' start
          · exact finish
        simp [outside, inside, contents, isMarker, start, finish, later]

end Markers

def thinkTag : Bytes := ascii "<think>"
def thinkEndTag : Bytes := ascii "</think>"

/-- Take the first think block, or an unclosed one, out of the text; its inside
becomes the reasoning content when there is none yet. -/
def liftBlock (text reasoning : Bytes) : Bytes × Bytes :=
  match find thinkTag text with
  | none => (text, reasoning)
  | some start =>
      match find thinkEndTag text with
      | some finish =>
          if start ≤ finish then
            (erase text start (finish + 8 - start),
              if reasoning = [] then substr text (start + 7) (finish - (start + 7)) else reasoning)
          else (text.take start, if reasoning = [] then text.drop (start + 7) else reasoning)
      | none => (text.take start, if reasoning = [] then text.drop (start + 7) else reasoning)

def eraseStray : Nat → Bytes → Bytes
  | 0, text => text
  | fuel + 1, text => match find thinkEndTag text with
      | none => text
      | some pos => eraseStray fuel (erase text pos 8)

def isBreak (byte : UInt8) : Bool := byte == 13 || byte == 10

/-- The post-processing of text and reasoning content, in that order. -/
def cleanUp (text reasoning : Bytes) : Bytes × Bytes :=
  let lifted := liftBlock text reasoning
  let erased := eraseStray lifted.1.length lifted.1
  (if lifted.2 = [] then erased else erased.dropWhile isBreak, lifted.2)

end XInfer.TokenRouting
