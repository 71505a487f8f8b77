/-!
# Byte lengths and byte slices

Positions in a text are counted in bytes of its UTF-8 form, while the rules of the library
walk over characters. This module is the bridge: `byteLength` measures a list of characters,
and `slice?` cuts a text at two byte positions. The law of the cut is `slice?_eq_some_iff`:
a slice is what stands between a part of the given length and the rest, so a position inside
a character, beyond the end, or in the wrong order gives none.
-/

namespace ScriptLink

/-- How many bytes the characters take in UTF-8. -/
def byteLength (s : List Char) : Nat := s.foldr (fun c total => c.utf8Size + total) 0

@[simp] theorem byteLength_nil : byteLength [] = 0 := rfl

@[simp] theorem byteLength_cons (c : Char) (s : List Char) :
    byteLength (c :: s) = c.utf8Size + byteLength s := rfl

@[simp] theorem byteLength_append (s t : List Char) :
    byteLength (s ++ t) = byteLength s + byteLength t := by
  induction s with
  | nil => simp
  | cons c s ih =>
    rw [List.cons_append, byteLength_cons, byteLength_cons, ih]
    omega

/-- The measure agrees with the size of the encoded string. -/
theorem utf8ByteSize_ofList (s : List Char) : (String.ofList s).utf8ByteSize = byteLength s := by
  induction s with
  | nil => rfl
  | cons c s ih =>
    have h : String.ofList (c :: s) = String.singleton c ++ String.ofList s := by
      rw [String.singleton_eq_ofList, ← String.ofList_append]; rfl
    rw [h, String.utf8ByteSize_append, ih, byteLength_cons, String.utf8ByteSize_singleton]

theorem byteLength_toList (s : String) : byteLength s.toList = s.utf8ByteSize := by
  rw [← utf8ByteSize_ofList, String.ofList_toList]

/-- A list of characters is empty exactly if it takes no bytes. -/
theorem byteLength_eq_zero_iff {s : List Char} : byteLength s = 0 ↔ s = [] := by
  cases s with
  | nil => simp
  | cons c s => have := c.utf8Size_pos; simp; omega

/-- The part of `text` from byte `start` up to byte `stop`; none if one of them is not the
boundary of a character or they are in the wrong order. -/
def slice? (text : String) (start stop : Nat) : Option String :=
  if h : (String.Pos.Raw.mk start).isValid text = true ∧
      (String.Pos.Raw.mk stop).isValid text = true ∧ start ≤ stop then
    some (String.extract
      (text.pos ⟨start⟩ (String.Pos.Raw.isValid_eq_true_iff.1 h.1))
      (text.pos ⟨stop⟩ (String.Pos.Raw.isValid_eq_true_iff.1 h.2.1)))
  else none

/-- A slice stands between what comes before its start and what comes after its end. -/
theorem slice?_eq_some_iff {text part : String} {start stop : Nat} :
    slice? text start stop = some part ↔
      ∃ before after, text = before ++ part ++ after ∧ start = before.utf8ByteSize ∧
        stop = before.utf8ByteSize + part.utf8ByteSize := by
  unfold slice?
  constructor
  · intro hslice
    split at hslice
    · next h =>
      have hle : text.pos ⟨start⟩ (String.Pos.Raw.isValid_eq_true_iff.1 h.1) ≤
          text.pos ⟨stop⟩ (String.Pos.Raw.isValid_eq_true_iff.1 h.2.1) := h.2.2
      rw [String.extract_eq_copy_slice _ _ hle, Option.some.injEq] at hslice
      obtain ⟨t₁, t₂, h₁, h₂⟩ := String.copy_slice_eq_iff_splits.1 ⟨hle, hslice⟩
      refine ⟨t₁, t₂, h₂.eq_append, ?_, ?_⟩
      · have := congrArg String.Pos.Raw.byteIdx h₁.offset_eq_rawEndPos
        simpa using this
      · have := congrArg String.Pos.Raw.byteIdx h₂.offset_eq_rawEndPos
        simpa [String.utf8ByteSize_append] using this
    · exact absurd hslice (by simp)
  · rintro ⟨before, after, rfl, rfl, rfl⟩
    have h₁ : (String.Pos.Raw.mk before.utf8ByteSize).IsValid (before ++ part ++ after) :=
      String.Pos.Raw.isValid_iff_exists_append.2
        ⟨before, part ++ after, by rw [String.append_assoc], rfl⟩
    have h₂ : (String.Pos.Raw.mk (before.utf8ByteSize + part.utf8ByteSize)).IsValid
        (before ++ part ++ after) :=
      String.Pos.Raw.isValid_iff_exists_append.2
        ⟨before ++ part, after, rfl, by
          apply String.Pos.Raw.ext; simp [String.utf8ByteSize_append]⟩
    rw [dif_pos ⟨String.Pos.Raw.isValid_eq_true_iff.2 h₁,
      String.Pos.Raw.isValid_eq_true_iff.2 h₂, by omega⟩]
    have hle : (before ++ part ++ after).pos ⟨before.utf8ByteSize⟩ h₁ ≤
        (before ++ part ++ after).pos ⟨before.utf8ByteSize + part.utf8ByteSize⟩ h₂ :=
      Nat.le_add_right before.utf8ByteSize part.utf8ByteSize
    rw [String.extract_eq_copy_slice _ _ hle, Option.some.injEq]
    have hsplit : ∃ h, (String.slice (before ++ part ++ after)
        ((before ++ part ++ after).pos ⟨before.utf8ByteSize⟩ h₁)
        ((before ++ part ++ after).pos ⟨before.utf8ByteSize + part.utf8ByteSize⟩ h₂)
        h).copy = part :=
      String.copy_slice_eq_iff_splits.2
        ⟨before, after, ⟨by rw [String.append_assoc], rfl⟩, ⟨rfl, by
          apply String.Pos.Raw.ext; simp [String.utf8ByteSize_append]⟩⟩
    exact hsplit.2

end ScriptLink
