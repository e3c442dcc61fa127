import Mathlib.Tactic.Lemma
import Mathlib.Tactic.TypeStar
import StackLang.Source.Basic

/-!
# Lines of bytes

A file is read line by line, and every line is decoded on its own.  Two facts make this agree with
reading the file as a whole.

* A byte below `0x80` is never a part of a longer character, so it divides a text into two texts
  (`Source.isText_append_cons_iff`).  Line feeds and carriage returns are such bytes.  Hence a
  content is text exactly when each of its lines is (`Source.isText_iff_forall_mem_rawLines`), and a
  line is text exactly when it is text without its ending (`Source.isText_chomp_iff`).
* Lines behind a complete line are found as if nothing stood in front of them
  (`Source.rawLines_append`).

What a line is can be said without the function that finds them: `Source.IsLine front line rest`.
-/

namespace StackLang

/-- A list in which not everything has a property has a first item without it. -/
lemma exists_first_not {α : Type*} {p : α → Prop} {items : List α} (h : ¬ ∀ item ∈ items, p item) :
    ∃ before item after, items = before ++ item :: after ∧ (∀ other ∈ before, p other) ∧
      ¬ p item := by
  classical
  have hfound : (items.find? fun item => decide (¬ p item)).isSome := by
    simpa using h
  obtain ⟨item, hitem⟩ := Option.isSome_iff_exists.1 hfound
  obtain ⟨hnot, before, after, hitems, hbefore⟩ := List.find?_eq_some_iff_append.1 hitem
  exact ⟨before, item, after, hitems, by simpa using hbefore, by simpa using hnot⟩

namespace Source

/-! ## Bytes that are text -/

/-- The bytes are the UTF-8 form of a text. -/
def IsText (bytes : List UInt8) : Prop := bytes.toByteArray.IsValidUTF8

/-- Bytes are text when they encode characters. -/
lemma isText_iff {bytes : List UInt8} :
    IsText bytes ↔ ∃ text : List Char, bytes = text.flatMap String.utf8EncodeChar := by
  constructor
  · rintro ⟨text, htext⟩
    exact ⟨text, by simpa [List.utf8Encode] using htext⟩
  · rintro ⟨text, rfl⟩
    exact ⟨text, rfl⟩

/-- No bytes are text. -/
lemma isText_nil : IsText [] := ByteArray.isValidUTF8_empty

/-- The bytes of a character are text. -/
lemma isText_utf8EncodeChar (c : Char) : IsText (String.utf8EncodeChar c) :=
  Char.isValidUTF8_toByteArray_utf8EncodeChar

/-- Texts behind each other are text. -/
lemma IsText.append {front rest : List UInt8} (hfront : IsText front) (hrest : IsText rest) :
    IsText (front ++ rest) := by
  unfold IsText
  rw [List.toByteArray_append]
  exact ByteArray.IsValidUTF8.append hfront hrest

/-- Any number of texts behind each other are text. -/
lemma isText_flatten {pieces : List (List UInt8)} (h : ∀ piece ∈ pieces, IsText piece) :
    IsText pieces.flatten := by
  induction pieces with
  | nil => exact isText_nil
  | cons piece pieces ih =>
    rw [List.flatten_cons]
    exact (h piece List.mem_cons_self).append
      (ih fun other hother => h other (List.mem_cons_of_mem piece hother))

/-- A character of several bytes has none below `0x80`. -/
lemma le_toNat_of_mem_utf8EncodeChar {b : UInt8} {c : Char} (hc : ¬ c.val.toNat ≤ 127)
    (h : b ∈ String.utf8EncodeChar c) : 0x80 ≤ b.toNat := by
  unfold String.utf8EncodeChar at h
  simp only [if_neg hc] at h
  split at h
  · simp only [List.mem_cons, List.not_mem_nil, or_false] at h
    rcases h with rfl | rfl <;> simp only [UInt8.toNat_ofNat'] <;> omega
  · split at h
    · simp only [List.mem_cons, List.not_mem_nil, or_false] at h
      rcases h with rfl | rfl | rfl <;> simp only [UInt8.toNat_ofNat'] <;> omega
    · simp only [List.mem_cons, List.not_mem_nil, or_false] at h
      rcases h with rfl | rfl | rfl | rfl <;> simp only [UInt8.toNat_ofNat'] <;> omega

/-- An ASCII character is one byte, its code. -/
lemma utf8EncodeChar_of_le {c : Char} (hc : c.val.toNat ≤ 127) :
    String.utf8EncodeChar c = [UInt8.ofNat c.val.toNat] := by
  simp only [String.utf8EncodeChar, if_pos hc]

/-- A byte below `0x80` is all of the character in which it occurs. -/
lemma utf8EncodeChar_eq_singleton_of_mem {b : UInt8} {c : Char} (hb : b < 0x80)
    (h : b ∈ String.utf8EncodeChar c) : String.utf8EncodeChar c = [b] := by
  by_cases hc : c.val.toNat ≤ 127
  · rw [utf8EncodeChar_of_le hc, List.mem_singleton] at h
    rw [utf8EncodeChar_of_le hc, h]
  · have hlow : b.toNat < 0x80 := hb
    have hhigh := le_toNat_of_mem_utf8EncodeChar hc h
    omega

/-- A byte below `0x80` is a text by itself. -/
lemma isText_singleton {b : UInt8} (hb : b < 0x80) : IsText [b] := by
  have hlow : b.toNat < 0x80 := hb
  have hvalid : b.toNat.isValidChar := Or.inl (by omega)
  have hval : (Char.ofNatAux b.toNat hvalid).val.toNat = b.toNat := rfl
  have hbyte : String.utf8EncodeChar (Char.ofNatAux b.toNat hvalid) = [b] := by
    rw [utf8EncodeChar_of_le (by omega), hval, UInt8.ofNat_toNat]
  rw [← hbyte]
  exact isText_utf8EncodeChar _

/-- A text with a byte below `0x80` in it is a text in front of that byte and behind it. -/
lemma isText_of_isText_append_cons {b : UInt8} (hb : b < 0x80) {front rest : List UInt8}
    (h : IsText (front ++ b :: rest)) : IsText front ∧ IsText rest := by
  obtain ⟨text, htext⟩ := isText_iff.1 h
  clear h
  induction text generalizing front with
  | nil => simp at htext
  | cons c text ih =>
    rw [List.flatMap_cons] at htext
    -- the byte stands either in the first character or behind it
    rcases List.append_eq_append_iff.1 htext with ⟨behind, hchar, hrest⟩ | ⟨tail, rfl, htail⟩
    · cases behind with
      | nil =>
        obtain ⟨-, htext⟩ : IsText [] ∧ IsText rest := ih hrest
        rw [List.append_nil] at hchar
        exact ⟨hchar ▸ isText_utf8EncodeChar c, htext⟩
      | cons d behind =>
        obtain ⟨rfl, rfl⟩ := List.cons.inj hrest
        have hwhole := utf8EncodeChar_eq_singleton_of_mem hb (c := c) (by simp [hchar])
        rw [hwhole] at hchar
        obtain ⟨rfl, rfl⟩ : front = [] ∧ behind = [] := by
          cases front with
          | nil => simpa using hchar
          | cons _ _ => simp at hchar
        exact ⟨isText_nil, isText_iff.2 ⟨text, rfl⟩⟩
    · obtain ⟨htext, hrest⟩ := ih htail.symm
      exact ⟨(isText_utf8EncodeChar c).append htext, hrest⟩

/-- A byte below `0x80` divides a text into two texts. -/
lemma isText_append_cons_iff {b : UInt8} (hb : b < 0x80) {front rest : List UInt8} :
    IsText (front ++ b :: rest) ↔ IsText front ∧ IsText rest := by
  refine ⟨isText_of_isText_append_cons hb, ?_⟩
  rintro ⟨hfront, hrest⟩
  exact hfront.append ((isText_singleton hb).append hrest)

/-! ## Lines -/

/-- A line feed is an ASCII byte. -/
lemma lineFeed_lt : lineFeed < 0x80 := by decide

/-- A carriage return is an ASCII byte. -/
lemma carriageReturn_lt : carriageReturn < 0x80 := by decide

/-- The bytes are empty or end with a line feed, so that a new line begins behind them. -/
def EndsLine (bytes : List UInt8) : Prop := bytes = [] ∨ bytes.getLast? = some lineFeed

/-- `line` is one of the lines of the content `front ++ line ++ rest`.  It begins with the content
or behind a line feed, and it reaches up to and with the next line feed, or to the end. -/
structure IsLine (front line rest : List UInt8) : Prop where
  begins : EndsLine front
  ne_nil : line ≠ []
  ends : (lineFeed ∉ line ∧ rest = []) ∨ ∃ body, lineFeed ∉ body ∧ line = body ++ [lineFeed]

/-- Bytes with a line feed behind them end a line. -/
lemma endsLine_concat (body : List UInt8) : EndsLine (body ++ [lineFeed]) := Or.inr (by simp)

/-- Whole lines behind whole lines are whole lines. -/
lemma EndsLine.append {front rest : List UInt8} (hfront : EndsLine front) (hrest : EndsLine rest) :
    EndsLine (front ++ rest) := by
  rcases hrest with rfl | hrest
  · rwa [List.append_nil]
  · exact Or.inr (by simp [List.getLast?_append, hrest])

/-- A byte that is no line feed belongs to the first line of what follows it. -/
lemma rawLines_cons_of_ne {b : UInt8} {bs line : List UInt8} {lines : List (List UInt8)}
    (hb : b ≠ lineFeed) (h : rawLines bs = line :: lines) :
    rawLines (b :: bs) = (b :: line) :: lines := by
  simp only [rawLines, if_neg hb, h]

/-- Bytes without a line feed are a single line. -/
lemma rawLines_of_not_mem {line : List UInt8} (h : lineFeed ∉ line) (hne : line ≠ []) :
    rawLines line = [line] := by
  induction line with
  | nil => exact absurd rfl hne
  | cons b line ih =>
    obtain ⟨hb, hline⟩ := List.ne_and_not_mem_of_not_mem_cons h
    cases line with
    | nil => simp [rawLines, Ne.symm hb]
    | cons c line => exact rawLines_cons_of_ne (Ne.symm hb) (ih hline (List.cons_ne_nil c line))

/-- The first line reaches up to and with the first line feed. -/
lemma rawLines_append_lineFeed {body : List UInt8} (h : lineFeed ∉ body) (rest : List UInt8) :
    rawLines (body ++ lineFeed :: rest) = (body ++ [lineFeed]) :: rawLines rest := by
  induction body with
  | nil => exact rawLines_cons_lineFeed rest
  | cons b body ih =>
    obtain ⟨hb, hbody⟩ := List.ne_and_not_mem_of_not_mem_cons h
    exact rawLines_cons_of_ne (Ne.symm hb) (ih hbody)

/-- A content is a line without a line feed, or a line with one and a shorter content behind it. -/
@[elab_as_elim]
lemma line_induction {motive : List UInt8 → Prop}
    (last : ∀ body, lineFeed ∉ body → motive body)
    (line : ∀ body rest, lineFeed ∉ body → motive rest → motive (body ++ lineFeed :: rest))
    (content : List UInt8) : motive content := by
  induction hlength : content.length using Nat.strongRecOn generalizing content with
  | ind n ih =>
    by_cases hmem : lineFeed ∈ content
    · obtain ⟨body, rest, rfl, hbody⟩ := List.eq_append_cons_of_mem hmem
      exact line body rest hbody (ih rest.length (by simp at hlength; omega) rest rfl)
    · exact last content hmem

/-- Behind complete lines the lines are found as if nothing stood in front of them. -/
lemma rawLines_append {front : List UInt8} (h : EndsLine front) (rest : List UInt8) :
    rawLines (front ++ rest) = rawLines front ++ rawLines rest := by
  induction front using line_induction with
  | last body hbody =>
    rcases h with rfl | hlast
    · rfl
    · exact absurd (List.mem_of_getLast? hlast) hbody
  | line body more hbody ih =>
    have hmore : EndsLine more := by
      cases more with
      | nil => exact Or.inl rfl
      | cons b more => exact Or.inr (by simpa [EndsLine, List.getLast?_append] using h)
    rw [List.append_assoc, List.cons_append, rawLines_append_lineFeed hbody,
      rawLines_append_lineFeed hbody, ih hmore, List.cons_append]

/-- The lines of a content are found where they are. -/
lemma IsLine.rawLines_eq {front line rest : List UInt8} (h : IsLine front line rest) :
    rawLines (front ++ (line ++ rest)) = rawLines front ++ line :: rawLines rest := by
  rw [rawLines_append h.begins]
  congr 1
  rcases h.ends with ⟨hline, rfl⟩ | ⟨body, hbody, rfl⟩
  · rw [List.append_nil, rawLines_of_not_mem hline h.ne_nil, rawLines_nil]
  · rw [List.append_assoc]
    exact rawLines_append_lineFeed hbody rest

/-- The first line that is found is the whole content or ends with the first line feed. -/
lemma rawLines_eq_cons_cases {content first : List UInt8} {lines : List (List UInt8)}
    (h : rawLines content = first :: lines) :
    (lineFeed ∉ first ∧ first ≠ [] ∧ lines = []) ∨
      ∃ body rest, lineFeed ∉ body ∧ first = body ++ [lineFeed] ∧ rawLines rest = lines := by
  by_cases hmem : lineFeed ∈ content
  · obtain ⟨body, rest, rfl, hbody⟩ := List.eq_append_cons_of_mem hmem
    rw [rawLines_append_lineFeed hbody] at h
    obtain ⟨rfl, hrest⟩ := List.cons.inj h
    exact Or.inr ⟨body, rest, hbody, rfl, hrest⟩
  · have hne : content ≠ [] := by
      rintro rfl
      cases h
    rw [rawLines_of_not_mem hmem hne] at h
    obtain ⟨rfl, rfl⟩ := List.cons.inj h
    exact Or.inl ⟨hmem, hne, rfl⟩

/-- What is found as a line is a line. -/
lemma isLine_of_rawLines_eq {content line : List UInt8} {before after : List (List UInt8)}
    (h : rawLines content = before ++ line :: after) :
    IsLine before.flatten line after.flatten := by
  induction before generalizing content with
  | nil =>
    rcases rawLines_eq_cons_cases h with ⟨hline, hne, rfl⟩ | ⟨body, rest, hbody, rfl, -⟩
    · exact ⟨Or.inl rfl, hne, Or.inl ⟨hline, rfl⟩⟩
    · exact ⟨Or.inl rfl, by simp, Or.inr ⟨body, hbody, rfl⟩⟩
  | cons first before ih =>
    rcases rawLines_eq_cons_cases h with ⟨-, -, hnil⟩ | ⟨body, rest, -, rfl, hrest⟩
    · simp at hnil
    · obtain ⟨hbegins, hne, hends⟩ := ih hrest
      exact ⟨(endsLine_concat body).append hbegins, hne, hends⟩

/-! ## Text line by line -/

/-- What stands behind complete lines of a text is text. -/
lemma EndsLine.isText_of_append {front rest : List UInt8} (hfront : EndsLine front)
    (h : IsText (front ++ rest)) : IsText rest := by
  rcases hfront with rfl | hlast
  · exact h
  · obtain ⟨body, rfl⟩ := List.getLast?_eq_some_iff.1 hlast
    rw [List.append_assoc] at h
    exact ((isText_append_cons_iff lineFeed_lt).1 h).2

/-- A line of a text is text. -/
lemma IsLine.isText {front line rest : List UInt8} (h : IsLine front line rest)
    (htext : IsText (front ++ (line ++ rest))) : IsText line := by
  have hbehind := h.begins.isText_of_append htext
  rcases h.ends with ⟨-, rfl⟩ | ⟨body, -, rfl⟩
  · rwa [List.append_nil] at hbehind
  · rw [List.append_assoc] at hbehind
    have hbody := ((isText_append_cons_iff lineFeed_lt).1 hbehind).1
    exact hbody.append (isText_singleton lineFeed_lt)

/-- A content is text exactly when each of its lines is. -/
lemma isText_iff_forall_mem_rawLines {content : List UInt8} :
    IsText content ↔ ∀ raw ∈ rawLines content, IsText raw := by
  constructor
  · intro h raw hraw
    obtain ⟨before, after, hlines⟩ := List.append_of_mem hraw
    apply (isLine_of_rawLines_eq hlines).isText
    have hcontent := flatten_rawLines content
    rw [hlines, List.flatten_append, List.flatten_cons] at hcontent
    rwa [hcontent]
  · intro h
    rw [← flatten_rawLines content]
    exact isText_flatten h

/-- A line without its ending is the line up to a line feed, with or without a carriage return in
front of it. -/
lemma exists_eq_chomp_append (raw : List UInt8) :
    ∃ ending, raw = chomp raw ++ ending ∧
      (ending = [] ∨ ending = [lineFeed] ∨ ending = [carriageReturn, lineFeed]) := by
  induction raw with
  | nil => exact ⟨[], rfl, Or.inl rfl⟩
  | cons b raw ih =>
    unfold chomp
    split
    · next hending => exact ⟨b :: raw, rfl, Or.inr hending⟩
    · obtain ⟨ending, hraw, hending⟩ := ih
      exact ⟨ending, congrArg (b :: ·) hraw, hending⟩

/-- A line is text exactly when it is text without its ending. -/
lemma isText_chomp_iff {raw : List UInt8} : IsText (chomp raw) ↔ IsText raw := by
  obtain ⟨ending, hraw, rfl | rfl | rfl⟩ := exists_eq_chomp_append raw
  · rw [List.append_nil] at hraw
    rw [← hraw]
  · have hsplit : IsText (chomp raw ++ [lineFeed]) ↔ IsText (chomp raw) ∧ IsText [] :=
      isText_append_cons_iff lineFeed_lt
    rw [← hraw] at hsplit
    rw [hsplit, and_iff_left isText_nil]
  · have hsplit : IsText (chomp raw ++ [carriageReturn, lineFeed]) ↔
        IsText (chomp raw) ∧ IsText [lineFeed] := isText_append_cons_iff carriageReturn_lt
    rw [← hraw] at hsplit
    rw [hsplit, and_iff_left (isText_singleton lineFeed_lt)]

/-- The lines that have a text are those that are text. -/
lemma lineText?_eq_none_iff {raw : List UInt8} : lineText? raw = none ↔ ¬ IsText raw := by
  rw [← isText_chomp_iff]
  simp [lineText?, String.fromUTF8?, IsText]

/-- A line that ends with its only line feed loses it with its ending. -/
lemma lineFeed_not_mem_chomp_concat {body : List UInt8} (h : lineFeed ∉ body) :
    lineFeed ∉ chomp (body ++ [lineFeed]) := by
  induction body with
  | nil => decide
  | cons b body ih =>
    obtain ⟨hb, hbody⟩ := List.ne_and_not_mem_of_not_mem_cons h
    rw [List.cons_append]
    unfold chomp
    split
    · exact List.not_mem_nil
    · exact List.not_mem_cons_of_ne_of_not_mem hb (ih hbody)

/-- Without its ending a line of a content has no line feed. -/
lemma lineFeed_not_mem_chomp {content raw : List UInt8} (h : raw ∈ rawLines content) :
    lineFeed ∉ chomp raw := by
  obtain ⟨before, after, hlines⟩ := List.append_of_mem h
  rcases (isLine_of_rawLines_eq hlines).ends with ⟨hraw, -⟩ | ⟨body, hbody, rfl⟩
  · obtain ⟨ending, hsplit, -⟩ := exists_eq_chomp_append raw
    rw [hsplit] at hraw
    exact fun hmem => hraw (List.mem_append_left ending hmem)
  · exact lineFeed_not_mem_chomp_concat hbody

/-- The text of a line is written with the bytes in front of its ending. -/
lemma flatMap_utf8EncodeChar_of_lineText? {raw : List UInt8} {line : String}
    (h : lineText? raw = some line) : line.toList.flatMap String.utf8EncodeChar = chomp raw := by
  unfold lineText? String.fromUTF8? at h
  split at h
  · next hvalid =>
    obtain rfl := Option.some.inj h
    have hbytes : (String.fromUTF8 (chomp raw).toByteArray hvalid).toList.utf8Encode =
        (chomp raw).toByteArray := String.utf8Encode_toList
    simpa [List.utf8Encode] using hbytes
  · cases h

/-- The text of a line of a content has no line feed in it. -/
lemma newline_not_mem_of_lineText? {content raw : List UInt8} {line : String}
    (hraw : raw ∈ rawLines content) (h : lineText? raw = some line) : '\n' ∉ line.toList := by
  intro hmem
  apply lineFeed_not_mem_chomp hraw
  rw [← flatMap_utf8EncodeChar_of_lineText? h]
  have hbyte : lineFeed ∈ String.utf8EncodeChar '\n' := by decide
  exact List.mem_flatMap.2 ⟨'\n', hmem, hbyte⟩

/-! ## The first line that is not text -/

/-- `kept` is the content up to the start of its first line that is not text. -/
structure BreaksAt (content kept : List UInt8) : Prop where
  exists_line : ∃ line rest, content = kept ++ (line ++ rest) ∧ IsLine kept line rest ∧ ¬ IsText line
  isText_earlier : ∀ front line rest, content = front ++ (line ++ rest) → IsLine front line rest →
    front.length < kept.length → IsText line

/-- A line that begins earlier than another one is found among the lines in front of that one. -/
lemma IsLine.mem_rawLines {front line rest front' line' rest' : List UInt8}
    (h : IsLine front line rest) (h' : IsLine front' line' rest')
    (heq : front ++ (line ++ rest) = front' ++ (line' ++ rest'))
    (hlt : front.length < front'.length) : line ∈ rawLines front' := by
  have hlines : rawLines front ++ line :: rawLines rest =
      rawLines front' ++ line' :: rawLines rest' := by
    rw [← h.rawLines_eq, heq, h'.rawLines_eq]
  rcases List.append_eq_append_iff.1 hlines with ⟨between, hfront, hline⟩ | ⟨between, hfront, -⟩
  · cases between with
    | nil =>
      -- then both lines begin at the same place
      have hsame := congrArg List.flatten hfront
      rw [List.append_nil, flatten_rawLines, flatten_rawLines] at hsame
      rw [hsame] at hlt
      exact absurd hlt (Nat.lt_irrefl _)
    | cons first between =>
      obtain ⟨rfl, -⟩ := List.cons.inj hline
      rw [hfront]
      simp
  · have hlong := congrArg List.flatten hfront
    rw [List.flatten_append, flatten_rawLines, flatten_rawLines] at hlong
    rw [hlong, List.length_append] at hlt
    omega

/-- A content breaks at the first line that is not text. -/
lemma breaksAt_of_isLine {kept line rest : List UInt8} (hline : IsLine kept line rest)
    (hkept : IsText kept) (hbroken : ¬ IsText line) : BreaksAt (kept ++ (line ++ rest)) kept := by
  refine ⟨⟨line, rest, rfl, hline, hbroken⟩, ?_⟩
  intro front earlier rest' heq hearlier hlt
  exact isText_iff_forall_mem_rawLines.1 hkept _ (hearlier.mem_rawLines hline heq.symm hlt)

/-- A content that is not text has a first line that is not text, and is text up to there. -/
lemma exists_first_broken_line {content : List UInt8} (h : ¬ IsText content) :
    ∃ kept line rest, content = kept ++ (line ++ rest) ∧ IsLine kept line rest ∧ IsText kept ∧
      ¬ IsText line := by
  rw [isText_iff_forall_mem_rawLines] at h
  obtain ⟨good, line, after, hlines, hgood, hbroken⟩ := exists_first_not h
  refine ⟨good.flatten, line, after.flatten, ?_, isLine_of_rawLines_eq hlines,
    isText_flatten hgood, hbroken⟩
  rw [← flatten_rawLines content, hlines, List.flatten_append, List.flatten_cons]

end Source

end StackLang
