import GoBuild.Proofs.Text.Decoding
import GoBuild.Proofs.Text.Lines
import GoBuild.Source.Header
import Mathlib.Data.List.Induction

/-!
# The bytes of a source file

Taking the byte order mark off, cutting into lines and trimming a line can be done on the bytes of a
source file before they are decoded or on its text, with the same result (`text_eq_decodeLossy`,
`lines_decodeLossy`, `trimLine_decodeLossy`).
-/

namespace GoBuild.Source

/-- The byte that ends a line. -/
def newline : UInt8 := 0x0a

/-- The byte of a space, tab, newline, form feed or carriage return. -/
def isBlankByte (b : UInt8) : Bool :=
  b = 0x20 || b = 0x09 || b = newline || b = 0x0c || b = 0x0d

/-- The bytes of a byte order mark. -/
def markBytes : List UInt8 := [0xef, 0xbb, 0xbf]

/-- The bytes without a byte order mark at their beginning. -/
def unmarked (content : List UInt8) : List UInt8 :=
  (Text.after? markBytes content).getD content

/-- The lines of the bytes, without their newlines; a newline at the very end opens no further
line. -/
def byteLines : List UInt8 → List (List UInt8)
  | [] => []
  | b :: bytes =>
    if b = newline then [] :: byteLines bytes
    else match byteLines bytes with
      | [] => [[b]]
      | line :: lines => (b :: line) :: lines

/-- The text of a line, trimmed. -/
def lineText (line : List UInt8) : List Char :=
  Text.decodeLossy (Text.trim isBlankByte line)

/-! ### Byte order marks -/

/-- Bytes that do not begin with the first byte of a byte order mark have none. -/
theorem unmarked_of_forall_ne {bytes : List UInt8} (h : ∀ rest, bytes ≠ 0xef :: rest) :
    unmarked bytes = bytes := by
  rw [unmarked]
  cases hmark : Text.after? markBytes bytes with
  | none => rfl
  | some rest => exact absurd (Text.after?_eq_some_iff.1 hmark) (h _)

theorem unmarked_markBytes_append (bytes : List UInt8) : unmarked (markBytes ++ bytes) = bytes := by
  rw [unmarked, Text.after?_eq_some_iff.2 rfl]
  rfl

/-- Bytes are a byte order mark or nothing, and what is left without it. -/
theorem exists_eq_append_unmarked (content : List UInt8) :
    ∃ mark, (mark = [] ∨ mark = markBytes) ∧ content = mark ++ unmarked content := by
  rw [unmarked]
  cases hmark : Text.after? markBytes content with
  | none => exact ⟨[], .inl rfl, rfl⟩
  | some rest => exact ⟨markBytes, .inr rfl, Text.after?_eq_some_iff.1 hmark⟩

theorem decodeLossy_markBytes_append (bytes : List UInt8) :
    Text.decodeLossy (markBytes ++ bytes) = byteOrderMark :: Text.decodeLossy bytes :=
  Text.decodeLossy_encode_append [byteOrderMark] bytes

/-- Only its bytes are read as a byte order mark. -/
theorem text_eq_decodeLossy (content : List UInt8) :
    text content = Text.decodeLossy (unmarked content) := by
  unfold text unmarked
  cases hmark : Text.after? markBytes content with
  | some rest =>
    rw [Text.after?_eq_some_iff.1 hmark, decodeLossy_markBytes_append]
    rfl
  | none =>
    rw [Option.getD_none]
    cases hread : Text.decodeLossy content with
    | nil => rfl
    | cons c cs =>
      rw [dropMark, if_neg]
      rintro rfl
      obtain ⟨front, rest, rfl, -, hc⟩ := Text.decodeLossy_eq_cons hread
      have hfront : front = markBytes := hc.resolve_left (by decide)
      rw [hfront, Text.after?_eq_some_iff.2 rfl] at hmark
      cases hmark

/-! ### Lines -/

theorem byteLines_append_newline {line : List UInt8} (h : newline ∉ line) (rest : List UInt8) :
    byteLines (line ++ newline :: rest) = line :: byteLines rest := by
  induction line with
  | nil => simp [byteLines]
  | cons b line ih =>
    rw [List.mem_cons, not_or] at h
    rw [List.cons_append, byteLines, if_neg (Ne.symm h.1), ih h.2]

theorem byteLines_of_not_mem {line : List UInt8} (h : newline ∉ line) (hne : line ≠ []) :
    byteLines line = [line] := by
  induction line with
  | nil => exact absurd rfl hne
  | cons b line ih =>
    rw [List.mem_cons, not_or] at h
    rw [byteLines, if_neg (Ne.symm h.1)]
    by_cases hline : line = []
    · rw [hline]
      rfl
    · rw [ih h.2 hline]

theorem newline_mem_decodeLossy_iff {bytes : List UInt8} :
    '\n' ∈ Text.decodeLossy bytes ↔ newline ∈ bytes :=
  Text.mem_decodeLossy_iff (b := newline) (by decide)

/-- The lines of a text are the lines of its bytes, each decoded on its own. -/
theorem lines_decodeLossy (bytes : List UInt8) :
    Text.lines (Text.decodeLossy bytes) = (byteLines bytes).map Text.decodeLossy := by
  induction hlength : bytes.length using Nat.strong_induction_on generalizing bytes with
  | _ n ih =>
    by_cases hmem : newline ∈ bytes
    · obtain ⟨line, rest, rfl, hline⟩ := List.eq_append_cons_of_mem hmem
      have hdecode : Text.decodeLossy (line ++ newline :: rest) =
          Text.decodeLossy line ++ '\n' :: Text.decodeLossy rest :=
        Text.decodeLossy_append_cons (by decide) line rest
      have hrest := ih rest.length (by simp [← hlength]; omega) rest rfl
      rw [hdecode, Text.lines_append_newline (newline_mem_decodeLossy_iff.not.2 hline), hrest,
        byteLines_append_newline hline, List.map_cons]
    · by_cases hnil : bytes = []
      · rw [hnil]
        rfl
      · rw [byteLines_of_not_mem hmem hnil, Text.lines_of_not_mem
          (newline_mem_decodeLossy_iff.not.2 hmem) (Text.decodeLossy_eq_nil_iff.not.2 hnil)]
        rfl

/-! ### Blanks -/

theorem isBlankByte_iff {b : UInt8} :
    isBlankByte b = true ↔ b = 0x20 ∨ b = 0x09 ∨ b = newline ∨ b = 0x0c ∨ b = 0x0d := by
  simp [isBlankByte, or_assoc]

theorem lt_of_isBlankByte {b : UInt8} (h : isBlankByte b = true) : b < 0x80 := by
  rcases isBlankByte_iff.1 h with rfl | rfl | rfl | rfl | rfl <;> decide

/-- The ASCII blanks are the characters of the blank bytes. -/
theorem isAsciiBlank_iff {c : Char} :
    Text.isAsciiBlank c = true ↔ ∃ b, isBlankByte b = true ∧ c = Char.ofNat b.toNat := by
  constructor
  · intro h
    simp only [Text.isAsciiBlank, Bool.or_eq_true, decide_eq_true_eq] at h
    rcases h with (((rfl | rfl) | rfl) | rfl) | rfl
    · exact ⟨0x20, rfl, rfl⟩
    · exact ⟨0x09, rfl, rfl⟩
    · exact ⟨newline, rfl, rfl⟩
    · exact ⟨0x0c, rfl, rfl⟩
    · exact ⟨0x0d, rfl, rfl⟩
  · rintro ⟨b, hb, rfl⟩
    rcases isBlankByte_iff.1 hb with rfl | rfl | rfl | rfl | rfl <;> rfl

theorem ne_of_isAsciiBlank {c : Char} (h : Text.isAsciiBlank c = true) : c ≠ '/' ∧ c ≠ '*' :=
  ⟨by rintro rfl; exact absurd h (by decide), by rintro rfl; exact absurd h (by decide)⟩

theorem ne_newline_of_isAsciiBlank {c : Char} (h : Text.isAsciiBlank c = false) : c ≠ '\n' := by
  rintro rfl
  cases h

theorem decodeLossy_cons_of_isBlankByte {b : UInt8} (h : isBlankByte b = true)
    (bytes : List UInt8) :
    ∃ c, Text.isAsciiBlank c = true ∧ Text.decodeLossy (b :: bytes) = c :: Text.decodeLossy bytes :=
  ⟨_, isAsciiBlank_iff.2 ⟨b, h, rfl⟩, Text.decodeLossy_ascii_cons (lt_of_isBlankByte h) bytes⟩

/-- A text begins with an ASCII blank only if its bytes do. -/
theorem isAsciiBlank_eq_false {b : UInt8} (h : isBlankByte b = false) {bytes : List UInt8}
    {c : Char} {cs : List Char} (hread : Text.decodeLossy (b :: bytes) = c :: cs) :
    Text.isAsciiBlank c = false := by
  refine Bool.eq_false_iff.2 fun hc => ?_
  obtain ⟨a, ha, rfl⟩ := isAsciiBlank_iff.1 hc
  obtain ⟨rest, hrest, -⟩ := (Text.decodeLossy_eq_ascii_cons_iff (lt_of_isBlankByte ha)).1 hread
  rw [(List.cons.inj hrest).1, ha] at h
  cases h

theorem trimStart_decodeLossy (bytes : List UInt8) :
    Text.trimStart Text.isAsciiBlank (Text.decodeLossy bytes) =
      Text.decodeLossy (Text.trimStart isBlankByte bytes) := by
  induction bytes with
  | nil => rfl
  | cons b bytes ih =>
    cases hb : isBlankByte b with
    | true =>
      obtain ⟨c, hc, hread⟩ := decodeLossy_cons_of_isBlankByte hb bytes
      rw [hread, Text.trimStart_cons_of_pos hc, Text.trimStart_cons_of_pos hb, ih]
    | false =>
      rw [Text.trimStart_cons_of_neg hb]
      obtain ⟨c, -, rest, -, hread, -⟩ := Text.decodeLossy_cons b bytes
      rw [hread, Text.trimStart_cons_of_neg (isAsciiBlank_eq_false hb hread)]

theorem trimEnd_decodeLossy (bytes : List UInt8) :
    Text.trimEnd Text.isAsciiBlank (Text.decodeLossy bytes) =
      Text.decodeLossy (Text.trimEnd isBlankByte bytes) := by
  induction bytes using List.reverseRecOn with
  | nil => rfl
  | append_singleton bytes b ih =>
    cases hb : isBlankByte b with
    | true =>
      have hread := Text.decodeLossy_append_cons (lt_of_isBlankByte hb) bytes []
      rw [hread, Text.decodeLossy_nil, Text.trimEnd_concat_of_pos (isAsciiBlank_iff.2 ⟨b, hb, rfl⟩),
        Text.trimEnd_concat_of_pos hb, ih]
    | false =>
      rw [Text.trimEnd_concat_of_neg hb]
      have hne : Text.decodeLossy (bytes ++ [b]) ≠ [] :=
        Text.decodeLossy_eq_nil_iff.not.2 (by simp)
      obtain ⟨cs, c, hread⟩ := (List.eq_nil_or_concat _).resolve_left hne
      rw [hread, List.concat_eq_append, Text.trimEnd_concat_of_neg]
      refine Bool.eq_false_iff.2 fun hc => ?_
      obtain ⟨a, ha, rfl⟩ := isAsciiBlank_iff.1 hc
      rw [List.concat_eq_append, Text.decodeLossy_eq_append_cons_iff (lt_of_isBlankByte ha)] at hread
      obtain ⟨us, vs, heq, -, hvs⟩ := hread
      rw [Text.decodeLossy_eq_nil_iff.1 hvs] at heq
      have hab : b = a := by simpa using (List.append_inj_right' heq rfl)
      rw [hab, ha] at hb
      cases hb

/-- A line is trimmed before or after it is decoded. -/
theorem trimLine_decodeLossy (line : List UInt8) :
    trimLine (Text.decodeLossy line) = lineText line := by
  rw [trimLine, Text.trim, trimStart_decodeLossy, trimEnd_decodeLossy]
  rfl

end GoBuild.Source
