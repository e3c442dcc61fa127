/-!
# Byte offsets into a text

Positions in a line count the bytes of its UTF-8 form.  A text is taken here as its list of
characters: `byteLength` measures it (`byteLength_toList`) and `cutAt?` divides it at an offset,
which succeeds exactly when the offset falls between two characters (`cutAt?_eq_some_iff`).
-/

namespace StackLang.Text

/-- The number of bytes in the UTF-8 form of a text. -/
def byteLength : List Char → Nat
  | [] => 0
  | c :: cs => c.utf8Size + byteLength cs

/-- No characters have no bytes. -/
@[simp] theorem byteLength_nil : byteLength [] = 0 := rfl

/-- The bytes of the first character and those of the rest. -/
@[simp] theorem byteLength_cons (c : Char) (cs : List Char) :
    byteLength (c :: cs) = c.utf8Size + byteLength cs := rfl

/-- The bytes of joined characters add up. -/
@[simp] theorem byteLength_append (as bs : List Char) :
    byteLength (as ++ bs) = byteLength as + byteLength bs := by
  induction as with
  | nil => simp
  | cons c as ih => simp [ih, Nat.add_assoc]

/-- Only the empty text has no bytes. -/
@[simp] theorem byteLength_eq_zero {cs : List Char} : byteLength cs = 0 ↔ cs = [] := by
  cases cs with
  | nil => simp
  | cons c cs =>
    have := c.utf8Size_pos
    simp only [byteLength_cons, reduceCtorEq, iff_false]
    omega

/-- The byte length of the characters of a string is the size of the string. -/
theorem byteLength_toList (text : String) : byteLength text.toList = text.utf8ByteSize := by
  suffices h : ∀ cs : List Char, byteLength cs = (String.ofList cs).utf8ByteSize by
    simpa using h text.toList
  intro cs
  induction cs with
  | nil => simp
  | cons c cs ih =>
    have hsplit : String.ofList (c :: cs) = String.singleton c ++ String.ofList cs := by
      rw [← String.toList_inj]
      simp
    rw [byteLength_cons, ih, hsplit, String.utf8ByteSize_append, String.utf8ByteSize_singleton]

/-- The two parts of a text before and after a byte offset, or `none` when the offset lies
beyond the end or inside a character. -/
def cutAt? (offset : Nat) : List Char → Option (List Char × List Char)
  | [] => if offset = 0 then some ([], []) else none
  | c :: cs =>
    if offset = 0 then some ([], c :: cs)
    else if offset < c.utf8Size then none
    else (cutAt? (offset - c.utf8Size) cs).map fun parts => (c :: parts.1, parts.2)

/-- Offset `0` is before the first character. -/
@[simp] theorem cutAt?_zero (cs : List Char) : cutAt? 0 cs = some ([], cs) := by
  cases cs <;> simp [cutAt?]

/-- A cut succeeds exactly with the two parts whose first one has `offset` bytes. -/
theorem cutAt?_eq_some_iff {offset : Nat} {cs before after : List Char} :
    cutAt? offset cs = some (before, after) ↔
      cs = before ++ after ∧ byteLength before = offset := by
  induction cs generalizing offset before with
  | nil =>
    by_cases h : offset = 0
    · subst h
      simp only [cutAt?_zero, Option.some.injEq, Prod.mk.injEq, byteLength_eq_zero]
      grind
    · simp only [cutAt?, h, if_false, reduceCtorEq, false_iff]
      rintro ⟨hnil, rfl⟩
      simp_all
  | cons c cs ih =>
    by_cases h : offset = 0
    · subst h
      simp only [cutAt?_zero, Option.some.injEq, Prod.mk.injEq, byteLength_eq_zero]
      grind
    · by_cases hc : offset < c.utf8Size
      · simp only [cutAt?, h, hc, if_false, if_true, reduceCtorEq, false_iff]
        rintro ⟨hcut, hlen⟩
        cases before with
        | nil => exact h hlen.symm
        | cons d ds =>
          obtain ⟨rfl, rfl⟩ := List.cons.inj hcut
          simp only [byteLength_cons] at hlen
          omega
      · simp only [cutAt?, h, hc, if_false, Option.map_eq_some_iff, Prod.mk.injEq]
        constructor
        · rintro ⟨⟨front, rest⟩, hcut, rfl, rfl⟩
          obtain ⟨rfl, hlen⟩ := ih.1 hcut
          exact ⟨rfl, by simp only [byteLength_cons]; omega⟩
        · rintro ⟨hcut, hlen⟩
          cases before with
          | nil => exact absurd hlen.symm h
          | cons d ds =>
            obtain ⟨rfl, rfl⟩ := List.cons.inj hcut
            simp only [byteLength_cons] at hlen
            exact ⟨(ds, after), ih.2 ⟨rfl, by omega⟩, rfl, rfl⟩

/-- Cutting after the first of two joined texts gives both back. -/
@[simp] theorem cutAt?_byteLength_append (as bs : List Char) :
    cutAt? (byteLength as) (as ++ bs) = some (as, bs) :=
  cutAt?_eq_some_iff.2 ⟨rfl, rfl⟩

end StackLang.Text
