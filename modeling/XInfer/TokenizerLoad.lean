import XInfer.HashTable
import XInfer.TokenizerJson

/-!
`QwenTokenizer::load_from_json_buffer` and the part of `Engine::load` that settles on
a tokenizer. A null buffer is an empty one. `is_loaded` reads two tables that a call
fills before its last checks, and an empty buffer returns before the tables are cleared.
-/

namespace XInfer.TokenizerLoad

open Primitives ByteString ChatTemplate HashTable Tokenizer TokenizerJson

structure LoadedTokenizer extends QwenTokenizer where
  imStartTokenId : Int
  bpeCache : BpeCache

def IsLoaded (tok : LoadedTokenizer) : Prop := tok.vocab ≠ [] ∧ tok.bpeRanks ≠ []

instance (tok : LoadedTokenizer) : Decidable (IsLoaded tok) := inferInstanceAs (Decidable (_ ∧ _))

/-- A token of `added_tokens` goes into both tables and the special-token list. -/
def addToken (tok : LoadedTokenizer) (token : Bytes × Int) : LoadedTokenizer :=
  let named := fun (name : String) (id : Int) => if token.1 = ascii name then token.2 else id
  { tok with
    vocab := assign token.1 token.2 tok.vocab
    idToToken := assign token.2 token.1 tok.idToToken
    specialTokens := tok.specialTokens ++ [token]
    eosTokenId := named "<|endoftext|>" tok.eosTokenId
    imStartTokenId := named "<|im_start|>" tok.imStartTokenId
    imEndTokenId := named "<|im_end|>" tok.imEndTokenId
    thinkStartTokenId := named "<think>" tok.thinkStartTokenId
    thinkEndTokenId := named "</think>" tok.thinkEndTokenId }

def addEntry (tok : LoadedTokenizer) (entry : Bytes × Int) : LoadedTokenizer :=
  { tok with
    vocab := assign entry.1 entry.2 tok.vocab
    idToToken := assign entry.2 entry.1 tok.idToToken }

/-- The merges with their ranks. -/
def ranked (rules : List Bytes) : List (Bytes × Int) :=
  rules.zipIdx.map fun rule => (rule.1, (rule.2 : Int))

/-- A special token that `added_tokens` did not give is looked up in the vocabulary. -/
def resolve (tok : LoadedTokenizer) (name : String) (id : Int) : Int :=
  if id < 0 then (tok.vocab.lookup (ascii name)).getD id else id

def cleared (tok : LoadedTokenizer) : LoadedTokenizer :=
  { tok with
    vocab := []
    idToToken := []
    bpeRanks := []
    bpeCache := []
    specialTokens := []
    eosTokenId := -1
    imStartTokenId := -1
    imEndTokenId := -1
    thinkStartTokenId := -1
    thinkEndTokenId := -1 }

/-- The longest special token first. The order of equally long ones is left open by
`std::sort`; two different ones never start at one place. -/
def longestFirst (tokens : List (Bytes × Int)) : List (Bytes × Int) :=
  tokens.mergeSort fun left right => decide (right.1.length ≤ left.1.length)

def resolved (tok : LoadedTokenizer) : LoadedTokenizer :=
  { tok with
    eosTokenId := resolve tok "<|endoftext|>" tok.eosTokenId
    imStartTokenId := resolve tok "<|im_start|>" tok.imStartTokenId
    imEndTokenId := resolve tok "<|im_end|>" tok.imEndTokenId
    thinkStartTokenId := resolve tok "<think>" tok.thinkStartTokenId
    thinkEndTokenId := resolve tok "</think>" tok.thinkEndTokenId
    specialTokens := longestFirst tok.specialTokens }

/-- The tables of the three sections, in the order of the code. -/
def tables (buffer : Bytes) (tok : LoadedTokenizer) : LoadedTokenizer :=
  let added := (addedTokens buffer).foldl addToken (cleared tok)
  let entered := (vocabulary buffer).foldl addEntry added
  { entered with bpeRanks := assignAll (ranked (merges buffer)) entered.bpeRanks }

/-- The final checks, the first one that fails. -/
def loadError (tok : LoadedTokenizer) : Option Bytes :=
  if tok.vocab = [] then
    some (ascii "Failed to parse vocabulary from tokenizer.json (vocab table is empty)")
  else if tok.bpeRanks = [] then
    some (ascii "Failed to parse BPE merge rules from tokenizer.json (merges table is empty)")
  else if tok.eosTokenId < 0 then
    some (ascii "Missing required special token <|endoftext|> in loaded tokenizer")
  else if tok.imStartTokenId < 0 then
    some (ascii "Missing required special token <|im_start|> in loaded tokenizer")
  else if tok.imEndTokenId < 0 then
    some (ascii "Missing required special token <|im_end|> in loaded tokenizer")
  else none

def loadFromJsonBuffer (buffer : Bytes) (tok : LoadedTokenizer) :
    Except Bytes Unit × LoadedTokenizer :=
  if buffer = [] then (.error (ascii "Empty tokenizer JSON buffer provided"), tok)
  else
    let filled := resolved (tables buffer tok)
    match loadError filled with
    | some err => (.error err, filled)
    | none => (.ok (), filled)

/-- The engine's choice between the artifact's section and the file at the tokenizer
path, with the checks it makes at the end of its load. A failed section is only logged. -/
def engineTokenizer (tokenizerData : Option Bytes) (path : Bytes)
    (loadFromFile : LoadedTokenizer → Except Bytes Unit × LoadedTokenizer) (artifactPath : Bytes)
    (tok : LoadedTokenizer) : Except Bytes Unit × LoadedTokenizer :=
  let embedded := match tokenizerData with
    | none => tok
    | some buffer => (loadFromJsonBuffer buffer tok).2
  let chosen :=
    if IsLoaded embedded then (Except.ok (), embedded)
    else if path = [] then
      (.error (ascii "No tokenizer embedded in artifact '" ++ artifactPath ++
        ascii "' and no external tokenizer path provided. Specify --tokenizer-path <path>."), embedded)
    else match loadFromFile embedded with
      | (.error err, after) =>
          (.error (ascii "Failed to load tokenizer from specified path '" ++ path ++ ascii "': " ++ err),
            after)
      | (.ok _, after) => (.ok (), after)
  match chosen with
  | (.error err, after) => (.error err, after)
  | (.ok _, after) =>
      if after.eosTokenId < 0 then
        (.error (ascii "Loaded tokenizer missing valid EOS token ID (<|endoftext|>)"), after)
      else if after.imEndTokenId < 0 then
        (.error (ascii "Loaded tokenizer missing valid IM_END token ID (<|im_end|>)"), after)
      else (.ok (), after)

theorem addTokens_named (field : LoadedTokenizer → Int) (name : Bytes)
    (step : ∀ tok token, field (addToken tok token) = if token.1 = name then token.2 else field tok)
    (tokens : List (Bytes × Int)) (tok : LoadedTokenizer) :
    field (tokens.foldl addToken tok) = (latest name tokens).getD (field tok) := by
  rw [← foldl_named]
  exact (List.foldl_hom field fun tok token => (step tok token).symm).symm

theorem addTokens_vocab (tokens : List (Bytes × Int)) (tok : LoadedTokenizer) :
    (tokens.foldl addToken tok).vocab = assignAll tokens tok.vocab :=
  (List.foldl_hom (fun tok : LoadedTokenizer => tok.vocab) fun _ _ => rfl).symm

theorem addEntries_vocab (entries : List (Bytes × Int)) (tok : LoadedTokenizer) :
    (entries.foldl addEntry tok).vocab = assignAll entries tok.vocab :=
  (List.foldl_hom (fun tok : LoadedTokenizer => tok.vocab) fun _ _ => rfl).symm

theorem tables_vocab (buffer : Bytes) (tok : LoadedTokenizer) :
    (tables buffer tok).vocab = assignAll (addedTokens buffer ++ vocabulary buffer) [] := by
  rw [assignAll_append]
  simp only [tables, addEntries_vocab, addTokens_vocab, cleared]

theorem addTokens_idToToken (tokens : List (Bytes × Int)) (tok : LoadedTokenizer) :
    (tokens.foldl addToken tok).idToToken = assignAll (tokens.map Prod.swap) tok.idToToken := by
  rw [assignAll, List.foldl_map]
  exact (List.foldl_hom (fun tok : LoadedTokenizer => tok.idToToken) fun _ _ => rfl).symm

theorem addEntries_idToToken (entries : List (Bytes × Int)) (tok : LoadedTokenizer) :
    (entries.foldl addEntry tok).idToToken = assignAll (entries.map Prod.swap) tok.idToToken := by
  rw [assignAll, List.foldl_map]
  exact (List.foldl_hom (fun tok : LoadedTokenizer => tok.idToToken) fun _ _ => rfl).symm

theorem tables_idToToken (buffer : Bytes) (tok : LoadedTokenizer) :
    (tables buffer tok).idToToken =
      assignAll ((addedTokens buffer ++ vocabulary buffer).map Prod.swap) [] := by
  rw [List.map_append, assignAll_append]
  simp only [tables, addEntries_idToToken, addTokens_idToToken, cleared]

theorem tables_specialTokens (buffer : Bytes) (tok : LoadedTokenizer) :
    (tables buffer tok).specialTokens = addedTokens buffer := by
  have entered := foldl_frame (fun tok : LoadedTokenizer => tok.specialTokens) addEntry (fun _ _ => rfl)
    (vocabulary buffer) ((addedTokens buffer).foldl addToken (cleared tok))
  have pushed (tokens : List (Bytes × Int)) (tok : LoadedTokenizer) :
      (tokens.foldl addToken tok).specialTokens = tok.specialTokens ++ tokens := by
    induction tokens generalizing tok with
    | nil => simp
    | cons token rest ih => simp [ih, addToken]
  have added := pushed (addedTokens buffer) (cleared tok)
  simp only [tables]
  rw [entered, added]
  rfl

theorem tables_bpeRanks (buffer : Bytes) (tok : LoadedTokenizer) :
    (tables buffer tok).bpeRanks = assignAll (ranked (merges buffer)) [] := by
  have added : ((addedTokens buffer).foldl addToken (cleared tok)).bpeRanks = [] :=
    foldl_frame (fun tok : LoadedTokenizer => tok.bpeRanks) addToken (fun _ _ => rfl) _ _
  have entered := foldl_frame (fun tok : LoadedTokenizer => tok.bpeRanks) addEntry (fun _ _ => rfl)
    (vocabulary buffer) ((addedTokens buffer).foldl addToken (cleared tok))
  simp only [tables]
  rw [entered, added]

/-- A special token's id as the two first sections leave it. -/
theorem tables_named (field : LoadedTokenizer → Int) (name : Bytes)
    (start : ∀ tok, field (cleared tok) = -1)
    (token : ∀ tok token, field (addToken tok token) = if token.1 = name then token.2 else field tok)
    (entry : ∀ tok entry, field (addEntry tok entry) = field tok)
    (rule : ∀ (tok : LoadedTokenizer) ranks, field { tok with bpeRanks := ranks } = field tok)
    (buffer : Bytes) (tok : LoadedTokenizer) :
    field (tables buffer tok) = (latest name (addedTokens buffer)).getD (-1) := by
  have entered := foldl_frame field addEntry entry (vocabulary buffer)
    ((addedTokens buffer).foldl addToken (cleared tok))
  rw [tables, rule, entered, addTokens_named field name token, start]

/-- What the buffer lists gives the name a usable id. -/
def Given (buffer : Bytes) (name : String) : Prop :=
  ∃ id, 0 ≤ id ∧ (latest (ascii name) (addedTokens buffer) = some id ∨
    latest (ascii name) (addedTokens buffer ++ vocabulary buffer) = some id)

theorem resolve_nonneg (buffer : Bytes) (tok : LoadedTokenizer) (name : String) :
    0 ≤ resolve (tables buffer tok) name
      ((latest (ascii name) (addedTokens buffer)).getD (-1)) ↔ Given buffer name := by
  have table : (tables buffer tok).vocab.lookup (ascii name) =
      latest (ascii name) (addedTokens buffer ++ vocabulary buffer) := by
    rw [tables_vocab, lookup_assignAll]
    exact Option.or_none
  rw [resolve, table, Given]
  rcases latest (ascii name) (addedTokens buffer) with _ | id
  · rcases latest (ascii name) (addedTokens buffer ++ vocabulary buffer) with _ | other <;> simp
  · simp only [Option.getD_some]
    constructor
    · intro usable
      by_cases below : id < 0
      · rcases later : latest (ascii name) (addedTokens buffer ++ vocabulary buffer) with _ | other
        · simp only [below, later, if_true, Option.getD_none] at usable
          exact absurd usable (Int.not_le.mpr below)
        · simp only [below, later, if_true, Option.getD_some] at usable
          exact ⟨other, usable, Or.inr rfl⟩
      · exact ⟨id, Int.not_lt.mp below, Or.inl rfl⟩
    · rintro ⟨usable, nonneg, found⟩
      by_cases below : id < 0
      · rcases found with same | later
        · cases same
          exact absurd nonneg (Int.not_le.mpr below)
        · simpa [below, later] using nonneg
      · simpa [below] using Int.not_lt.mp below

def requiredTokens : List String := ["<|endoftext|>", "<|im_start|>", "<|im_end|>"]

theorem loadError_none (tok : LoadedTokenizer) : loadError tok = none ↔
    IsLoaded tok ∧ 0 ≤ tok.eosTokenId ∧ 0 ≤ tok.imStartTokenId ∧ 0 ≤ tok.imEndTokenId := by
  unfold loadError IsLoaded
  by_cases vocab : tok.vocab = []
  · simp [vocab]
  by_cases ranks : tok.bpeRanks = []
  · simp [vocab, ranks]
  simp only [vocab, ranks, if_false, ne_eq, not_false_eq_true, true_and, ← Int.not_lt]
  by_cases eos : tok.eosTokenId < 0
  · simp [eos]
  by_cases imStart : tok.imStartTokenId < 0
  · simp [eos, imStart]
  by_cases imEnd : tok.imEndTokenId < 0
  · simp [eos, imStart, imEnd]
  · simp [eos, imStart, imEnd]

/-- The required ids of a filled tokenizer, read off the buffer. -/
theorem resolved_required (buffer : Bytes) (tok : LoadedTokenizer) :
    (0 ≤ (resolved (tables buffer tok)).eosTokenId ∧ 0 ≤ (resolved (tables buffer tok)).imStartTokenId ∧
      0 ≤ (resolved (tables buffer tok)).imEndTokenId) ↔ ∀ name ∈ requiredTokens, Given buffer name := by
  have eos := tables_named (fun tok => tok.eosTokenId) (ascii "<|endoftext|>") (fun _ => rfl)
    (fun _ _ => rfl) (fun _ _ => rfl) (fun _ _ => rfl) buffer tok
  have imStart := tables_named (fun tok => tok.imStartTokenId) (ascii "<|im_start|>") (fun _ => rfl)
    (fun _ _ => rfl) (fun _ _ => rfl) (fun _ _ => rfl) buffer tok
  have imEnd := tables_named (fun tok => tok.imEndTokenId) (ascii "<|im_end|>") (fun _ => rfl)
    (fun _ _ => rfl) (fun _ _ => rfl) (fun _ _ => rfl) buffer tok
  simp only [resolved, eos, imStart, imEnd, resolve_nonneg, requiredTokens, List.mem_cons,
    List.not_mem_nil, or_false, forall_eq_or_imp, forall_eq]

theorem isLoaded_filled (buffer : Bytes) (tok : LoadedTokenizer) :
    IsLoaded (resolved (tables buffer tok)) ↔
      addedTokens buffer ++ vocabulary buffer ≠ [] ∧ merges buffer ≠ [] := by
  have vocab : (resolved (tables buffer tok)).vocab = (tables buffer tok).vocab := rfl
  have ranks : (resolved (tables buffer tok)).bpeRanks = (tables buffer tok).bpeRanks := rfl
  rw [IsLoaded, vocab, ranks, tables_vocab, tables_bpeRanks, Ne, Ne, assignAll_eq_nil, assignAll_eq_nil]
  simp [ranked]

theorem load_filled {buffer : Bytes} (nonempty : buffer ≠ []) (tok : LoadedTokenizer) :
    (loadFromJsonBuffer buffer tok).2 = resolved (tables buffer tok) ∧
      ((loadFromJsonBuffer buffer tok).1 = .ok () ↔
        IsLoaded (resolved (tables buffer tok)) ∧ ∀ name ∈ requiredTokens, Given buffer name) := by
  have outcome := loadError_none (resolved (tables buffer tok))
  rw [resolved_required] at outcome
  rw [← outcome, loadFromJsonBuffer, if_neg nonempty]
  dsimp only
  generalize loadError (resolved (tables buffer tok)) = verdict
  rcases verdict with _ | err <;> simp

/-- A call that fails leaves a tokenizer that says so. -/
def FailureVisible (buffer : Bytes) (tok : LoadedTokenizer) : Prop :=
  (loadFromJsonBuffer buffer tok).1 ≠ .ok () → ¬ IsLoaded (loadFromJsonBuffer buffer tok).2

/-- A failure is visible unless the buffer is empty over a loaded tokenizer, or lists
tokens and merges and leaves a required token without an id. -/
theorem failureVisible_iff (buffer : Bytes) (tok : LoadedTokenizer) :
    FailureVisible buffer tok ↔
      (buffer = [] → ¬ IsLoaded tok) ∧
        (buffer ≠ [] → addedTokens buffer ++ vocabulary buffer = [] ∨ merges buffer = [] ∨
          ∀ name ∈ requiredTokens, Given buffer name) := by
  unfold FailureVisible
  by_cases empty : buffer = []
  · simp [empty, loadFromJsonBuffer]
  · obtain ⟨filled, loads⟩ := load_filled empty tok
    rw [filled, Ne, loads, isLoaded_filled]
    simp only [empty, false_implies, true_and, ne_eq, not_false_eq_true, forall_true_left]
    tauto

/-- A tokenizer before its first load. -/
def unloaded (split : List Nat → List (Nat × Nat)) : LoadedTokenizer where
  vocab := []
  idToToken := []
  bpeRanks := []
  specialTokens := []
  eosTokenId := -1
  imEndTokenId := -1
  thinkStartTokenId := -1
  thinkEndTokenId := -1
  chatTemplate := initDefaults
  split := split
  imStartTokenId := -1
  bpeCache := []

/-- A tokenizer file whose tokens leave `<|im_start|>` out. -/
def noImStart : Bytes := ascii ("\x7b\"added_tokens\":[\x7b\"id\":1,\"content\":\"<|endoftext|>\"\x7d," ++
  "\x7b\"id\":2,\"content\":\"<|im_end|>\"\x7d],\"model\":\x7b\"vocab\":\x7b\"a\":0\x7d," ++
  "\"merges\":[\"a a\"]\x7d\x7d")

/-- The failed call leaves a loaded tokenizer, the engine goes on with it without a
look at the tokenizer path, and a later call with an empty buffer fails over it. -/
theorem noImStart_goesOn :
    let tok := unloaded fun _ => []
    let after := (loadFromJsonBuffer noImStart tok).2
    (loadFromJsonBuffer noImStart tok).1 =
        .error (ascii "Missing required special token <|im_start|> in loaded tokenizer") ∧
      IsLoaded after ∧
      (engineTokenizer (some noImStart) (ascii "tokenizer.json") (fun tok => (.ok (), tok))
        (ascii "model.xinfer") tok).1 = .ok () ∧
      (loadFromJsonBuffer [] after).1 = .error (ascii "Empty tokenizer JSON buffer provided") ∧
      IsLoaded (loadFromJsonBuffer [] after).2 := by
  simp only [noImStart, ascii_append]
  refine ⟨?_, ?_, ?_, rfl, ?_⟩
  all_goals
    repeat rw [ascii_ofList]
    decide +kernel

end XInfer.TokenizerLoad
