import GoBuild.CommandLine.Sources
import GoBuild.Proofs.Text.Decoding

/-!
# Names of source files

The names of files are bytes, and so is what makes one that of a source file: `.go` at its end and no
point or underscore in front (`FileTree.IsSource`). A scan reads names as text. For directories it reads
them with replacements, which makes no difference (`FileTree.isSkippedDirectory_iff`). A file whose name
is not UTF-8 counts as no source file, whatever its ending (`FileTree.isSourceName_iff`).
-/

namespace GoBuild.FileTree

open Text

/-- The name begins with a point or an underscore. -/
def IsHidden (name : List UInt8) : Prop := ∃ rest, name = 0x2e :: rest ∨ name = 0x5f :: rest

/-- The name ends in `.go` and is not hidden. -/
def IsSource (name : List UInt8) : Prop := [0x2e, 0x67, 0x6f] <:+ name ∧ ¬ IsHidden name

/-- The name is that of a source file, and it is text. -/
def IsListed (name : List UInt8) : Prop := IsUtf8 name ∧ IsSource name

/-- The name is that of a directory below which nothing is built. -/
def IsSkipped (name : List UInt8) : Prop :=
  IsHidden name ∨ name = encode "testdata".toList ∨ name = encode "vendor".toList

variable {name : List UInt8} {text : String}

/-- Whether a name is hidden can be seen from its text, also if parts of it are replaced. -/
theorem isHidden_decodeLossy_iff : isHidden (decodeLossy name) = true ↔ IsHidden name := by
  have hpoint : ∀ cs, decodeLossy name = '.' :: cs ↔
      ∃ rest, name = 0x2e :: rest ∧ decodeLossy rest = cs :=
    fun cs => decodeLossy_eq_ascii_cons_iff (b := 0x2e) (by decide)
  have hunderscore : ∀ cs, decodeLossy name = '_' :: cs ↔
      ∃ rest, name = 0x5f :: rest ∧ decodeLossy rest = cs :=
    fun cs => decodeLossy_eq_ascii_cons_iff (b := 0x5f) (by decide)
  calc isHidden (decodeLossy name) = true
      ↔ ∃ cs, decodeLossy name = '.' :: cs ∨ decodeLossy name = '_' :: cs := by
        cases decodeLossy name <;> simp [isHidden, exists_or]
    _ ↔ IsHidden name := by
        simp only [hpoint, hunderscore, IsHidden, exists_or]
        simp

/-- A decoded text is an ASCII text exactly if its bytes are those of that text. -/
theorem decodeLossy_eq_iff_of_ascii {mark : List UInt8} (hmark : mark.all (· < 0x80) = true) :
    decodeLossy name = mark.map (Char.ofNat ·.toNat) ↔ name = mark := by
  have hascii : ∀ b ∈ mark, b < 0x80 := fun b hb => of_decide_eq_true (List.all_eq_true.1 hmark b hb)
  have hread : decodeLossy name = mark.map (Char.ofNat ·.toNat) ++ [] ↔
      ∃ rest, name = mark ++ rest ∧ decodeLossy rest = [] := decodeLossy_eq_ascii_append_iff hascii
  simpa [decodeLossy_eq_nil_iff] using hread

theorem isSkippedDirectory_iff : isSkippedDirectory name = true ↔ IsSkipped name := by
  have htestdata : decodeLossy name = "testdata".toList ↔ name = encode "testdata".toList :=
    decodeLossy_eq_iff_of_ascii (by decide : (encode "testdata".toList).all (· < 0x80) = true)
  have hvendor : decodeLossy name = "vendor".toList ↔ name = encode "vendor".toList :=
    decodeLossy_eq_iff_of_ascii (by decide : (encode "vendor".toList).all (· < 0x80) = true)
  simp only [isSkippedDirectory, IsSkipped, Bool.or_eq_true, decide_eq_true_eq,
    isHidden_decodeLossy_iff, htestdata, hvendor, or_assoc]

/-- A text ends in `.go` exactly if its bytes do. -/
theorem sourceEnding_suffix_iff (h : encode text.toList = name) :
    sourceEnding <:+ text.toList ↔ [0x2e, 0x67, 0x6f] <:+ name := by
  have hread : decodeLossy name = text.toList := h ▸ decodeLossy_encode text.toList
  constructor
  · rintro ⟨front, hfront⟩
    refine ⟨encode front, ?_⟩
    rw [← h, ← hfront, encode, encode, List.flatMap_append]
    rfl
  · rintro ⟨front, rfl⟩
    refine ⟨decodeLossy front, ?_⟩
    have hending : decodeLossy [0x67, 0x6f] = ['g', 'o'] := by decide
    rw [← hread, decodeLossy_append_cons (b := 0x2e) (by decide), hending]
    rfl

/-- A scan takes a name for that of a source file exactly if it is one and is UTF-8. -/
theorem isSourceName_iff : isSourceName name = true ↔ IsListed name := by
  unfold isSourceName IsListed
  cases h : decode? name with
  | none => simp [decode?_eq_none_iff.1 h]
  | some text =>
    have hbytes := decode?_eq_some_iff.1 h
    have hread : decodeLossy name = text.toList := hbytes ▸ decodeLossy_encode text.toList
    have hutf8 : IsUtf8 name := ⟨_, hbytes⟩
    rw [Bool.and_eq_true, List.isSuffixOf_iff_suffix, sourceEnding_suffix_iff hbytes,
      ← hread, Bool.not_eq_true', ← Bool.not_eq_true, isHidden_decodeLossy_iff]
    exact (and_iff_right hutf8).symm

/-- The byte `ff` is in no text. -/
example : isSourceName [0x61, 0x2e, 0x67, 0x6f] = true ∧
    isSourceName [0xff, 0x2e, 0x67, 0x6f] = false := by
  decide +kernel

end GoBuild.FileTree
