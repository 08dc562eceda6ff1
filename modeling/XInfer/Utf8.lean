import Mathlib.Data.List.Basic

/-!
Byte strings that are UTF-8 texts, and where such a text may be cut. A byte that opens a character stands
nowhere else in one, so a cut in front of it lies between two characters.
-/

namespace XInfer.Utf8

/-- The bytes of some characters, one after the other. -/
def Valid (bytes : List UInt8) : Prop := ∃ chars : List Char, bytes = chars.flatMap String.utf8EncodeChar

variable {front back bytes : List UInt8}

theorem valid_nil : Valid [] := ⟨[], rfl⟩

theorem valid_char (c : Char) : Valid (String.utf8EncodeChar c) := ⟨[c], (List.flatMap_singleton _ _).symm⟩

theorem Valid.append (first : Valid front) (second : Valid back) : Valid (front ++ back) := by
  obtain ⟨left, rfl⟩ := first
  obtain ⟨right, rfl⟩ := second
  exact ⟨left ++ right, List.flatMap_append.symm⟩

theorem valid_flatMap {α : Type} {f : α → List UInt8} {xs : List α} (each : ∀ x ∈ xs, Valid (f x)) :
    Valid (xs.flatMap f) := by
  induction xs with
  | nil => exact valid_nil
  | cons x rest ih =>
      rw [List.flatMap_cons]
      exact (each x List.mem_cons_self).append (ih fun y held => each y (List.mem_cons_of_mem x held))

/-- A character is one opening byte and further ones. -/
theorem char_bytes (c : Char) : ∃ lead tail, String.utf8EncodeChar c = lead :: tail ∧ lead.IsUTF8FirstByte ∧
    ∀ b ∈ tail, ¬ b.IsUTF8FirstByte := by
  obtain ⟨lead, tail, shape⟩ := List.exists_cons_of_ne_nil (@String.utf8EncodeChar_ne_nil c)
  have opens {i : Nat} (inside : i < (String.utf8EncodeChar c).length) :
      (String.utf8EncodeChar c)[i].IsUTF8FirstByte ↔ i = 0 := UInt8.isUTF8FirstByte_getElem_utf8EncodeChar
  simp only [shape] at opens
  refine ⟨lead, tail, shape, (opens (Nat.succ_pos _)).mpr rfl, fun b held => ?_⟩
  obtain ⟨i, small, rfl⟩ := List.getElem_of_mem held
  have later := (opens (Nat.succ_lt_succ small)).not
  rw [List.getElem_cons_succ] at later
  exact later.mpr (Nat.succ_ne_zero i)

/-- The bytes below 128 stand for themselves. -/
theorem valid_low {b : UInt8} (low : b < 128) : Valid [b] := by
  have small : (Char.ofUInt8 b).utf8Size = 1 := by
    rw [Char.utf8Size_eq_one_iff]
    have value : b.toNat < 128 := low
    rw [UInt32.le_iff_toNat_le]
    exact Nat.le_of_lt_succ value
  have bytes := String.utf8EncodeChar_eq_singleton small
  have same : (Char.ofUInt8 b).val.toUInt8 = b := UInt8.toUInt8_toUInt32 b
  exact same ▸ bytes ▸ valid_char (Char.ofUInt8 b)

theorem low_opens {b : UInt8} (low : b < 128) : b.IsUTF8FirstByte := by
  have every : ∀ n : Fin 256, UInt8.ofNat n < 128 → (UInt8.ofNat n).IsUTF8FirstByte := by decide +kernel
  have here := every ⟨b.toNat, b.toNat_lt⟩
  rw [UInt8.ofNat_toNat] at here
  exact here low

/-- A text begins with an opening byte. -/
theorem Valid.head {b : UInt8} (valid : Valid (b :: back)) : b.IsUTF8FirstByte := by
  obtain ⟨chars, shape⟩ := valid
  cases chars with
  | nil => cases shape
  | cons c rest =>
      obtain ⟨lead, tail, char, opens, _⟩ := char_bytes c
      rw [List.flatMap_cons, char, List.cons_append, List.cons.injEq] at shape
      exact shape.1 ▸ opens

/-- Nothing that begins a text hides its first character. -/
theorem char_unique {c d : Char} {left right : List UInt8}
    (same : String.utf8EncodeChar c ++ left = String.utf8EncodeChar d ++ right) : c = d ∧ left = right := by
  have arrays := congrArg List.toByteArray same
  rw [List.toByteArray_append, List.toByteArray_append] at arrays
  have first := congrArg (fun bytes => bytes.utf8DecodeChar? 0) arrays
  simp only [ByteArray.utf8DecodeChar?_utf8EncodeChar_append, Option.some.injEq] at first
  subst first
  exact ⟨rfl, List.append_cancel_left same⟩

/-- What follows a text in a text is a text. -/
theorem Valid.cancel (first : Valid front) (whole : Valid (front ++ back)) : Valid back := by
  obtain ⟨chars, rfl⟩ := first
  induction chars with
  | nil => exact whole
  | cons c rest ih =>
      obtain ⟨others, same⟩ := whole
      rw [List.flatMap_cons, List.append_assoc] at same
      cases others with
      | nil =>
          rw [List.flatMap_nil, List.append_eq_nil_iff] at same
          exact absurd same.1 String.utf8EncodeChar_ne_nil
      | cons d others =>
          rw [List.flatMap_cons] at same
          exact ih ⟨others, (char_unique same).2⟩

/-- A cut in front of an opening byte, or at the end. -/
theorem Valid.split (whole : Valid (front ++ back)) (opens : ∀ b, back.head? = some b → b.IsUTF8FirstByte) :
    Valid front ∧ Valid back := by
  obtain ⟨chars, shape⟩ := whole
  induction chars generalizing front with
  | nil =>
      rw [List.flatMap_nil, List.append_eq_nil_iff] at shape
      rw [shape.1, shape.2]
      exact ⟨valid_nil, valid_nil⟩
  | cons c rest ih =>
      rw [List.flatMap_cons, List.append_eq_append_iff] at shape
      rcases shape with ⟨inner, char, behind⟩ | ⟨inner, split, behind⟩
      · -- a cut inside the first character would leave a byte that opens none
        obtain ⟨lead, tail, bytes, _, closed⟩ := char_bytes c
        cases inner with
        | nil =>
            rw [List.append_nil] at char
            exact ⟨char ▸ valid_char c, behind ▸ ⟨rest, rfl⟩⟩
        | cons b inner =>
            cases front with
            | nil =>
                rw [List.nil_append] at char
                exact ⟨valid_nil, behind ▸ char ▸ (valid_char c).append ⟨rest, rfl⟩⟩
            | cons _ front =>
                rw [bytes, List.cons_append, List.cons.injEq] at char
                have inside : b ∈ tail := char.2 ▸ List.mem_append_right front List.mem_cons_self
                have boundary : back.head? = some b := by
                  rw [behind]
                  rfl
                exact absurd (opens b boundary) (closed b inside)
      · obtain ⟨first, second⟩ := ih behind.symm
        exact ⟨split ▸ (valid_char c).append first, second⟩

end XInfer.Utf8
