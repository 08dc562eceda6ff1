import XInfer.ModelConfig

/-!
The contract checks of `prefill_prompt` between the placeholder tokens of a
prompt and the images that come with it. A prompt is scanned for tokens of the
configured visual range; no check looks at the image-pad id.
-/

namespace XInfer.VisionGate

open Primitives

structure VisionInput where
  hasEmbeddings : Bool
  numPatches : Nat
  numImages : Nat
  deriving DecidableEq

def isVisual (cfg : ModelConfig) (token : Int) : Bool :=
  decide (cfg.visualTokenStart ≤ token) && decide (token ≤ cfg.visualTokenEnd)

def visualTokenCount (cfg : ModelConfig) (promptTokens : List Int) : Nat :=
  promptTokens.countP (isVisual cfg)

def patchesPerImg (cfg : ModelConfig) : Nat :=
  if 0 < cfg.patchesPerImage then cfg.patchesPerImage.toNat else 256

def notAMultiple (count patches : Nat) : Bytes :=
  ascii "vision_format_error: Visual placeholder tokens (" ++ decimal count ++
    ascii ") is not a multiple of expected patches per image (" ++ decimal patches ++ ascii ")"

def noTags (images : Nat) : Bytes :=
  ascii "vision_format_error: User provided " ++ decimal images ++
    ascii " image(s) but prompt contains 0 <image> tags"

def noImage (expected count : Nat) : Bytes :=
  ascii "vision_format_error: Prompt contains " ++ decimal expected ++ ascii " <image> tag(s) (" ++
    decimal count ++ ascii " patches) but no image was provided"

def wrongImages (images expected : Nat) : Bytes :=
  ascii "vision_format_error: Number of provided images (" ++ decimal images ++
    ascii ") does not match <image> tags in prompt (" ++ decimal expected ++ ascii ")"

def wrongPatches (patches count : Nat) : Bytes :=
  ascii "vision_format_error: ViT output tensor dimensions (" ++ decimal patches ++
    ascii " patches) does not match expected prompt visual patches (" ++ decimal count ++ ascii ")"

def noEmbeddings : Bytes := ascii "vision_format_error: ViT output USM buffer pointer is null"

/-- The checks in their order; the count is what the prompt is taken to hold. -/
def checkVision (cfg : ModelConfig) (vision : Option VisionInput) (promptTokens : List Int) :
    Except Exn Nat :=
  let count := visualTokenCount cfg promptTokens
  let patches := patchesPerImg cfg
  let expected := count / patches
  let provided := (vision.map (·.numImages)).getD 0
  if 0 < count ∧ count % patches ≠ 0 then .error (.visionFormatError (notAMultiple count patches))
  else if 0 < provided ∧ expected = 0 then .error (.visionFormatError (noTags provided))
  else if provided = 0 ∧ 0 < expected then .error (.visionFormatError (noImage expected count))
  else match vision with
    | none => .ok count
    | some input =>
        if provided = 0 then .ok count
        else if provided ≠ expected then .error (.visionFormatError (wrongImages provided expected))
        else if input.numPatches ≠ count then
          .error (.visionFormatError (wrongPatches input.numPatches count))
        else if input.hasEmbeddings = false then .error (.visionFormatError noEmbeddings)
        else .ok count

theorem patchesPerImg_pos (cfg : ModelConfig) : 0 < patchesPerImg cfg := by
  unfold patchesPerImg
  split <;> omega

/-- Without images the checks pass exactly when no visual token is counted. -/
theorem checkVision_none (cfg : ModelConfig) (promptTokens : List Int) :
    (visualTokenCount cfg promptTokens = 0 ∧ checkVision cfg none promptTokens = .ok 0) ∨
      (0 < visualTokenCount cfg promptTokens ∧
        ∃ what, checkVision cfg none promptTokens = .error (.visionFormatError what)) := by
  have positive := patchesPerImg_pos cfg
  rcases Nat.eq_zero_or_pos (visualTokenCount cfg promptTokens) with absent | present
  · left
    simp [checkVision, absent]
  · right
    refine ⟨present, ?_⟩
    by_cases whole : visualTokenCount cfg promptTokens % patchesPerImg cfg = 0
    · -- a whole number of images, none of them given
      have images : 0 < visualTokenCount cfg promptTokens / patchesPerImg cfg :=
        Nat.div_pos (Nat.le_of_dvd present (Nat.dvd_of_mod_eq_zero whole)) positive
      refine ⟨noImage (visualTokenCount cfg promptTokens / patchesPerImg cfg)
        (visualTokenCount cfg promptTokens), ?_⟩
      simp [checkVision, whole, images]
    · refine ⟨notAMultiple (visualTokenCount cfg promptTokens) (patchesPerImg cfg), ?_⟩
      simp [checkVision, present, whole]

theorem isVisual_iff (cfg : ModelConfig) (token : Int) :
    isVisual cfg token = true ↔ cfg.visualTokenStart ≤ token ∧ token ≤ cfg.visualTokenEnd := by
  simp [isVisual]

/-- A prompt token that the configured range takes for an image placeholder. -/
def Misread (cfg : ModelConfig) (token : Int) : Prop :=
  isVisual cfg token = true ∧ token ≠ cfg.imagePadTokenId

theorem count_le_visual {cfg : ModelConfig} (pad : isVisual cfg cfg.imagePadTokenId = true)
    (promptTokens : List Int) :
    promptTokens.count cfg.imagePadTokenId ≤ visualTokenCount cfg promptTokens := by
  apply List.countP_mono_left
  intro token _ same
  rw [eq_of_beq same]
  exact pad

/-- The counts agree exactly when no other token falls into the visual range. -/
theorem visual_eq_count_iff {cfg : ModelConfig} (pad : isVisual cfg cfg.imagePadTokenId = true)
    (promptTokens : List Int) :
    visualTokenCount cfg promptTokens = promptTokens.count cfg.imagePadTokenId ↔
      ∀ token ∈ promptTokens, ¬ Misread cfg token := by
  induction promptTokens with
  | nil => simp [visualTokenCount]
  | cons token rest ih =>
      have below := count_le_visual pad rest
      by_cases own : token = cfg.imagePadTokenId
      · subst own
        have fine : ¬ Misread cfg cfg.imagePadTokenId := fun misread => misread.2 rfl
        simpa [visualTokenCount, pad, fine] using ih
      · by_cases visual : isVisual cfg token = true
        · -- one more visual token than pads, and the rest cannot make up for it
          have misread : Misread cfg token := ⟨visual, own⟩
          have apart : (token == cfg.imagePadTokenId) = false := by simpa using own
          constructor
          · intro same
            simp only [visualTokenCount, List.countP_cons, visual, if_true, List.count_cons,
              apart, Bool.false_eq_true, if_false] at same below
            omega
          · intro clean
            exact absurd misread (clean token List.mem_cons_self)
        · have fine : ¬ Misread cfg token := fun misread => visual misread.1
          have apart : (token == cfg.imagePadTokenId) = false := by simpa using own
          have skipped : (token :: rest).count cfg.imagePadTokenId = rest.count cfg.imagePadTokenId := by
            rw [List.count_cons, apart]
            rfl
          simpa [visualTokenCount, visual, skipped, fine] using ih

theorem defaults_pad : isVisual ModelConfig.defaults ModelConfig.defaults.imagePadTokenId = true := by
  decide

/-- A prompt is counted and let through as its image pads demand, with no image
given, exactly when it holds no other token of the declared visual range. -/
theorem text_prompt_iff (promptTokens : List Int) :
    (visualTokenCount ModelConfig.defaults promptTokens =
        promptTokens.count ModelConfig.defaults.imagePadTokenId ∧
      (ModelConfig.defaults.imagePadTokenId ∉ promptTokens →
        checkVision ModelConfig.defaults none promptTokens = .ok 0)) ↔
      ∀ token ∈ promptTokens, 248000 ≤ token → token ≤ 248319 → token = 248064 := by
  have range : (∀ token ∈ promptTokens, ¬ Misread ModelConfig.defaults token) ↔
      ∀ token ∈ promptTokens, 248000 ≤ token → token ≤ 248319 → token = 248064 := by
    simp only [Misread, isVisual_iff, not_and, not_not, and_imp, ne_eq]
    rfl
  rw [← range, ← visual_eq_count_iff defaults_pad]
  constructor
  · exact fun both => both.1
  · intro same
    refine ⟨same, fun absent => ?_⟩
    rcases checkVision_none ModelConfig.defaults promptTokens with ⟨_, passes⟩ | ⟨counted, _⟩
    · exact passes
    · rw [same, List.count_eq_zero_of_not_mem absent] at counted
      exact absurd counted (Nat.lt_irrefl 0)

/-- "Hello world!" as one rendered user turn with a generation prompt: the three
ChatML markers are counted as image placeholders. -/
def chatPrompt : List Int :=
  [248045, 846, 198, 9419, 1814, 0, 248046, 198, 248045, 74455, 198]

theorem chatPrompt_refused :
    ModelConfig.defaults.imagePadTokenId ∉ chatPrompt ∧
      (∀ token ∈ chatPrompt, ModelConfig.defaults.InVocab token) ∧
      visualTokenCount ModelConfig.defaults chatPrompt = 3 ∧
      checkVision ModelConfig.defaults none chatPrompt =
        .error (.visionFormatError (notAMultiple 3 256)) := by
  refine ⟨by decide, by decide, by decide, rfl⟩

end XInfer.VisionGate
