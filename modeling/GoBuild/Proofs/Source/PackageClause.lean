import GoBuild.Proofs.Source.Region

/-!
# The form of a package clause

A file declares a package if it consists of a byte order mark or nothing, any blanks and comments, the
keyword, one blank or comment at least, and code that begins with a name (`PackageClause`,
`PackageClause.Declares`). The package name is read from exactly the files of this form
(`packageName_iff`).
-/

namespace GoBuild.Source

/-- The name is the longest beginning of the text that is made of characters of names; it is not empty
and does not begin with a digit. -/
structure IsLeadingName (text : List Char) (name : String) : Prop where
  longest : ∃ rest, text = name.toList ++ rest ∧ (∀ c ∈ name.toList, isNameChar c = true) ∧
    ∀ c ∈ rest.head?, isNameChar c = false
  first : ∃ c ∈ name.toList.head?, c.isDigit = false

/-- The bytes of the keyword. -/
def packageBytes : List UInt8 := [0x70, 0x61, 0x63, 0x6b, 0x61, 0x67, 0x65]

/-- The parts of a file with a package clause. -/
structure PackageClause where
  mark : List UInt8
  isMark : mark = [] ∨ mark = markBytes
  /-- What stands before the keyword. -/
  lead : List Piece
  /-- What stands between the keyword and the name. -/
  gap : List Piece
  gap_ne_nil : gap ≠ []
  /-- The code from the name on. -/
  rest : List UInt8
  isCode : startsCode rest = true

namespace PackageClause

/-- The parts after the byte order mark. -/
def body (k : PackageClause) : List UInt8 :=
  k.lead.flatMap Piece.bytes ++ (packageBytes ++ (k.gap.flatMap Piece.bytes ++ k.rest))

def bytes (k : PackageClause) : List UInt8 := k.mark ++ k.body

/-- The code after the keyword begins with the name. -/
def Declares (k : PackageClause) (name : String) : Prop :=
  IsLeadingName (Text.decodeLossy k.rest) name

end PackageClause

/-! ### Names -/

theorem nameAtStart?_eq_some_iff {text : List Char} {name : String} :
    nameAtStart? text = some name ↔ IsLeadingName text name := by
  constructor
  · intro h
    unfold nameAtStart? at h
    split at h
    · cases h
    · rename_i c cs hrun
      split at h
      · cases h
      · rename_i hdigit
        obtain rfl := Option.some.inj h
        refine ⟨?_, c, by simp, Bool.eq_false_iff.2 hdigit⟩
        rw [String.toList_ofList]
        exact Text.takeWhile_eq_iff.1 hrun
  · rintro ⟨hlongest, c, hc, hdigit⟩
    have hrun : text.takeWhile isNameChar = name.toList := Text.takeWhile_eq_iff.2 hlongest
    obtain ⟨cs, hname⟩ := List.head?_eq_some_iff.1 hc
    have hread : nameAtStart? text = some (String.ofList (c :: cs)) := by
      rw [nameAtStart?, hrun, hname]
      simp [hdigit]
    rw [hread, ← hname, String.ofList_toList]

theorem IsLeadingName.ne_nil {text : List Char} {name : String} (h : IsLeadingName text name) :
    text ≠ [] := by
  rintro rfl
  obtain ⟨rest, htext, -⟩ := h.longest
  obtain ⟨c, hc, -⟩ := h.first
  rw [(List.append_eq_nil_iff.1 htext.symm).1] at hc
  cases hc

/-! ### Blanks and comments -/

/-- A text is what is left of its bytes without blanks and comments if these bytes are pieces and then
the code that the text is read from. -/
theorem skipBlanksAndComments_eq_iff {bytes : List UInt8} {text : List Char} (hne : text ≠ []) :
    skipBlanksAndComments (Text.decodeLossy bytes) = text ↔
      ∃ (pieces : List Piece) (rest : List UInt8), startsCode rest = true ∧
        bytes = pieces.flatMap Piece.bytes ++ rest ∧ Text.decodeLossy rest = text := by
  constructor
  · intro h
    obtain ⟨⟨pieces, e⟩, rfl⟩ := Region.exists_bytes_eq bytes
    rw [Region.skipBlanksAndComments_bytes] at h
    cases e with
    | code rest hcode => exact ⟨pieces, rest, hcode, rfl, h⟩
    | nothing | line | block => exact absurd h.symm hne
  · rintro ⟨pieces, rest, hcode, rfl, rfl⟩
    exact Region.skipBlanksAndComments_bytes ⟨pieces, .code rest hcode⟩

/-- What follows the keyword is shorter without blanks and comments exactly if there is one. -/
theorem length_pieces_append_eq_iff {pieces : List Piece} {rest : List UInt8} :
    (Text.decodeLossy rest).length =
      (Text.decodeLossy (pieces.flatMap Piece.bytes ++ rest)).length ↔ pieces = [] := by
  rw [decodeLossy_pieces_append, List.length_append]
  cases pieces with
  | nil => simp
  | cons p pieces =>
    have hp := List.length_pos_iff.2 p.text_ne_nil
    simp only [List.flatMap_cons, List.length_append, reduceCtorEq, iff_false]
    omega

/-! ### The clause -/

theorem packageKeyword_append_ne_nil (cs : List Char) : packageKeyword ++ cs ≠ [] :=
  List.append_ne_nil_of_left_ne_nil (by decide) cs

/-- The keyword is read from its bytes. -/
theorem decodeLossy_eq_packageKeyword_append_iff {bytes : List UInt8} {cs : List Char} :
    Text.decodeLossy bytes = packageKeyword ++ cs ↔
      ∃ rest, bytes = packageBytes ++ rest ∧ Text.decodeLossy rest = cs := by
  have hkeyword : packageKeyword = packageBytes.map (Char.ofNat ·.toNat) := by decide
  have hascii : ∀ b ∈ packageBytes, b < 0x80 := by simp [packageBytes]
  rw [hkeyword]
  exact Text.decodeLossy_eq_ascii_append_iff hascii

theorem startsCode_packageBytes_append (bytes : List UInt8) :
    startsCode (packageBytes ++ bytes) = true := rfl

/-- The name is read from pieces, the keyword, further pieces and code that begins with it. -/
theorem packageNameOfText?_eq_some_iff {bytes : List UInt8} {name : String} :
    packageNameOfText? (Text.decodeLossy bytes) = some name ↔
      ∃ (lead gap : List Piece) (rest : List UInt8), gap ≠ [] ∧ startsCode rest = true ∧
        bytes = lead.flatMap Piece.bytes ++ (packageBytes ++ (gap.flatMap Piece.bytes ++ rest)) ∧
        IsLeadingName (Text.decodeLossy rest) name := by
  simp only [packageNameOfText?, Option.bind_eq_bind, Option.bind_eq_some_iff,
    Text.after?_eq_some_iff]
  constructor
  · rintro ⟨after, hlead, h⟩
    obtain ⟨lead, code, -, rfl, hcode⟩ :=
      (skipBlanksAndComments_eq_iff (packageKeyword_append_ne_nil after)).1 hlead
    obtain ⟨tail, rfl, rfl⟩ := decodeLossy_eq_packageKeyword_append_iff.1 hcode
    split at h
    · cases h
    · rename_i hlength
      have hname := nameAtStart?_eq_some_iff.1 h
      obtain ⟨gap, rest, hrest, rfl, hread⟩ := (skipBlanksAndComments_eq_iff hname.ne_nil).1 rfl
      rw [← hread] at hlength hname
      exact ⟨lead, gap, rest, length_pieces_append_eq_iff.not.1 hlength, hrest, rfl, hname⟩
  · rintro ⟨lead, gap, rest, hgap, hrest, rfl, hname⟩
    have hlead := decodeLossy_eq_packageKeyword_append_iff.2
      ⟨gap.flatMap Piece.bytes ++ rest, rfl, rfl⟩
    have hskip := (skipBlanksAndComments_eq_iff hname.ne_nil).2 ⟨gap, rest, hrest, rfl, rfl⟩
    refine ⟨_, (skipBlanksAndComments_eq_iff (packageKeyword_append_ne_nil _)).2
      ⟨lead, _, startsCode_packageBytes_append _, rfl, hlead⟩, ?_⟩
    rw [hskip, if_neg (length_pieces_append_eq_iff.not.2 hgap)]
    exact nameAtStart?_eq_some_iff.2 hname

theorem PackageClause.unmarked_bytes (k : PackageClause) : unmarked k.bytes = k.body := by
  rcases k.isMark with hmark | hmark
  · rw [bytes, hmark, List.nil_append]
    refine unmarked_of_forall_ne fun rest => ?_
    unfold body
    cases k.lead with
    | nil => simp [packageBytes]
    | cons p lead =>
      rw [List.flatMap_cons, List.append_assoc]
      exact p.bytes_append_ne _ rest
  · rw [bytes, hmark, unmarked_markBytes_append]

/-- **A package name is read from the files with a package clause, and from no others.** -/
theorem packageName_iff (content : List UInt8) :
    (∀ name, packageName content = .ok name ↔
      ∃ k : PackageClause, k.bytes = content ∧ k.Declares name) ∧
    (packageName content = .error .missingPackage ↔
      ¬ ∃ (k : PackageClause) (name : String), k.bytes = content ∧ k.Declares name) := by
  have hread (name : String) : packageNameOfText? (text content) = some name ↔
      ∃ k : PackageClause, k.bytes = content ∧ k.Declares name := by
    rw [text_eq_decodeLossy, packageNameOfText?_eq_some_iff]
    constructor
    · rintro ⟨lead, gap, rest, hgap, hrest, hbody, hname⟩
      obtain ⟨mark, hmark, hcontent⟩ := exists_eq_append_unmarked content
      rw [hbody] at hcontent
      exact ⟨⟨mark, hmark, lead, gap, hgap, rest, hrest⟩, hcontent.symm, hname⟩
    · rintro ⟨k, rfl, hname⟩
      exact ⟨k.lead, k.gap, k.rest, k.gap_ne_nil, k.isCode, k.unmarked_bytes, hname⟩
  have hsome : (∃ (k : PackageClause) (name : String), k.bytes = content ∧ k.Declares name) ↔
      (packageNameOfText? (text content)).isSome = true := by
    rw [exists_comm, Option.isSome_iff_exists]
    exact exists_congr fun name => (hread name).symm
  simp only [hsome, ← hread, packageName]
  cases packageNameOfText? (text content) <;> simp

/-- A comment is enough to separate the keyword from the name. -/
example : packageName "// a\npackage/* b */p1;".toUTF8.toList = .ok "p1" := by decide +kernel

end GoBuild.Source
