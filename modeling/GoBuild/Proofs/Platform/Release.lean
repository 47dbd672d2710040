import GoBuild.Platform.Release
import Mathlib.Data.List.Induction

/-!
# Numbers of releases

Reading the number of a release tag undoes writing it. Digits that have a value are the decimal form of
that value after some zeros (`writes_decimalValue`), so a tag names the release `n` exactly if it
is the mark of releases, zeros or nothing, and the decimal form of `n` (`releaseMinor?_eq_some_iff`). The
release tags through `n` are the tags of that form without zeros, from 1 to `n`
(`mem_releaseTagsThrough_iff`).
-/

namespace GoBuild

/-- The digits are the decimal form of the number, perhaps with zeros in front. -/
def Writes (digits : List Char) (n : Nat) : Prop :=
  ∃ zeros, digits = List.replicate zeros '0' ++ Nat.toDigits 10 n

/-- The text is the mark of releases and digits that write `n`, which fits into 32 bits. -/
def NamesRelease (text : String) (n : Nat) : Prop :=
  ∃ digits, text = "go1." ++ String.ofList digits ∧ Writes digits n ∧ n < minorBound

/-! ### Digits -/

theorem exists_digitChar_of_isDigit {c : Char} (h : c.isDigit = true) :
    ∃ d < 10, c = Nat.digitChar d := by
  have hrange : 48 ≤ c.toNat ∧ c.toNat ≤ 57 := by
    simpa [Char.isDigit, UInt32.le_iff_toNat_le] using h
  refine ⟨c.toNat - 48, by omega, Char.toNat_inj.1 ?_⟩
  rw [Nat.toNat_digitChar_of_lt_ten (by omega)]
  omega

theorem isDecimalDigit_of_isDigit {c : Char} (h : c.isDigit = true) :
    Text.isDecimalDigit c = true := by
  obtain ⟨d, hd, rfl⟩ := exists_digitChar_of_isDigit h
  have hcode := Nat.toNat_digitChar_of_lt_ten hd
  rw [Text.isDecimalDigit, Text.CodeRanges.has, Text.decimalDigitRanges,
    Text.CodeRanges.hasCode_cons_of_le (by omega)]
  exact decide_eq_true (by omega)

theorem decimalValue_concat {digits : List Char} {d : Nat} (hd : d < 10) :
    decimalValue (digits ++ [Nat.digitChar d]) = 10 * decimalValue digits + d := by
  rw [decimalValue, List.foldl_append]
  exact congrArg (10 * decimalValue digits + ·) (Nat.toNat_digitChar_sub_48_of_lt_ten hd)

theorem decimalValue_toDigits (n : Nat) : decimalValue (Nat.toDigits 10 n) = n :=
  Nat.ofDigitChars_toDigits (by decide) (by decide)

theorem decimalValue_zeros (zeros : Nat) : decimalValue (List.replicate zeros '0') = 0 := by
  induction zeros with
  | zero => rfl
  | succ zeros ih =>
    rw [List.replicate_succ']
    exact (decimalValue_concat (d := 0) (by decide)).trans (by rw [ih])

/-- Digits are the decimal form of their value after some zeros. -/
theorem writes_decimalValue {digits : List Char} (hne : digits ≠ [])
    (hdigits : ∀ c ∈ digits, c.isDigit = true) : Writes digits (decimalValue digits) := by
  induction digits using List.reverseRecOn with
  | nil => exact absurd rfl hne
  | append_singleton front c ih =>
    obtain ⟨d, hd, rfl⟩ := exists_digitChar_of_isDigit (hdigits c (by simp))
    rw [decimalValue_concat hd]
    by_cases hfront : front = []
    · exact ⟨0, by simp [hfront, decimalValue, Nat.toDigits_of_lt_base hd]⟩
    obtain ⟨zeros, hwrite⟩ := ih hfront fun c hc => hdigits c (List.mem_append_left _ hc)
    rcases Nat.eq_zero_or_pos (decimalValue front) with hzero | hpos
    · -- The digits so far are zeros, one more than stand in front of their value.
      rw [hzero, Nat.toDigits_zero, ← List.replicate_succ'] at hwrite
      refine ⟨zeros + 1, ?_⟩
      rw [hzero, Nat.mul_zero, Nat.zero_add, Nat.toDigits_of_lt_base hd, hwrite]
    · refine ⟨zeros, ?_⟩
      rw [← Nat.toDigits_append_toDigits (by decide) hpos hd, Nat.toDigits_of_lt_base hd,
        ← List.append_assoc, ← hwrite]

namespace Writes

variable {digits : List Char} {n : Nat}

theorem ne_nil (h : Writes digits n) : digits ≠ [] := by
  obtain ⟨zeros, rfl⟩ := h
  exact List.append_ne_nil_of_right_ne_nil _ Nat.toDigits_ne_nil

theorem isDigit (h : Writes digits n) : ∀ c ∈ digits, c.isDigit = true := by
  obtain ⟨zeros, rfl⟩ := h
  intro c hc
  rcases List.mem_append.1 hc with hzero | hdecimal
  · rw [List.eq_of_mem_replicate hzero]
    decide
  · exact Nat.isDigit_of_mem_toDigits (by decide) (by decide) hdecimal

theorem decimalValue_eq (h : Writes digits n) : decimalValue digits = n := by
  obtain ⟨zeros, rfl⟩ := h
  have hzeros := decimalValue_zeros zeros
  rw [decimalValue] at hzeros
  rw [decimalValue, List.foldl_append, hzeros]
  exact decimalValue_toDigits n

end Writes

/-! ### Release tags and versions -/

section

variable {digits : List Char} {text version : String} {k n : Nat}

theorem minorOfDigits?_eq_some_iff :
    minorOfDigits? digits = some n ↔ Writes digits n ∧ n < minorBound := by
  have hread : minorOfDigits? digits = some n ↔
      (digits ≠ [] ∧ ∀ c ∈ digits, c.isDigit = true) ∧
        decimalValue digits < minorBound ∧ decimalValue digits = n := by
    simp [minorOfDigits?, and_assoc]
  rw [hread]
  constructor
  · rintro ⟨⟨hne, hdigits⟩, hbound, rfl⟩
    exact ⟨writes_decimalValue hne hdigits, hbound⟩
  · rintro ⟨hwrite, hbound⟩
    rw [hwrite.decimalValue_eq]
    exact ⟨⟨hwrite.ne_nil, hwrite.isDigit⟩, hbound, rfl⟩

theorem after?_releaseMark_eq_some_iff :
    Text.after? releaseMark text.toList = some digits ↔ text = "go1." ++ String.ofList digits := by
  rw [Text.after?_eq_some_iff, ← String.toList_inj]
  simp [releaseMark]

/-- A release tag names the number that its digits write. -/
theorem releaseMinor?_eq_some_iff : releaseMinor? text = some n ↔ NamesRelease text n := by
  unfold releaseMinor?
  constructor
  · intro h
    split at h
    · obtain ⟨digits, hmark, hminor⟩ := Option.bind_eq_some_iff.1 h
      exact ⟨digits, after?_releaseMark_eq_some_iff.1 hmark, minorOfDigits?_eq_some_iff.1 hminor⟩
    · cases h
  · rintro ⟨digits, htext, hwrite, hbound⟩
    have hmark := after?_releaseMark_eq_some_iff.2 htext
    have htag : isReleaseTag text = true := by
      have hall : digits.all Text.isDecimalDigit = true :=
        List.all_eq_true.2 fun c hc => isDecimalDigit_of_isDigit (hwrite.isDigit c hc)
      simp [isReleaseTag, hmark, hwrite.ne_nil, hall]
    rw [if_pos htag, hmark]
    exact minorOfDigits?_eq_some_iff.2 ⟨hwrite, hbound⟩

theorem releaseTag_eq (k : Nat) : releaseTag k = "go1." ++ toString k := by
  rw [releaseTag, String.ofList_append, Nat.toString_eq_repr, Nat.repr_eq_ofList_toDigits]
  rfl

theorem releaseTag_injective (h : releaseTag k = releaseTag n) : k = n := by
  have hdigits : Nat.toDigits 10 k = Nat.toDigits 10 n :=
    List.append_cancel_left (String.ofList_injective h)
  rw [← decimalValue_toDigits k, hdigits, decimalValue_toDigits]

/-- The release tag of a number names it. -/
theorem releaseMinor?_releaseTag (h : k < minorBound) : releaseMinor? (releaseTag k) = some k :=
  releaseMinor?_eq_some_iff.2 ⟨Nat.toDigits 10 k, by rw [releaseTag, String.ofList_append]; rfl,
    ⟨0, rfl⟩, h⟩

theorem nodup_releaseTagsThrough (n : Nat) : (releaseTagsThrough n).Nodup :=
  List.pairwise_map.2 <| List.nodup_range.imp fun hne heq =>
    hne (Nat.succ.inj (releaseTag_injective heq))

theorem mem_releaseTagsThrough_iff :
    text ∈ releaseTagsThrough n ↔ ∃ k, 1 ≤ k ∧ k ≤ n ∧ text = releaseTag k := by
  simp only [releaseTagsThrough, List.mem_map, List.mem_range]
  constructor
  · rintro ⟨k, hk, rfl⟩
    exact ⟨k + 1, by omega, hk, rfl⟩
  · rintro ⟨k, hone, hk, rfl⟩
    exact ⟨k - 1, by omega, by rw [Nat.sub_add_cancel hone]⟩

theorem releaseTag_mem_releaseTagsThrough_iff :
    releaseTag k ∈ releaseTagsThrough n ↔ 1 ≤ k ∧ k ≤ n := by
  rw [mem_releaseTagsThrough_iff]
  constructor
  · rintro ⟨j, hone, hj, heq⟩
    rw [releaseTag_injective heq]
    exact ⟨hone, hj⟩
  · rintro ⟨hone, hk⟩
    exact ⟨k, hone, hk, rfl⟩

theorem NamesRelease.exists_toList (h : NamesRelease text n) :
    ∃ rest, text.toList = 'g' :: 'o' :: '1' :: rest := by
  obtain ⟨digits, rfl, -⟩ := h
  exact ⟨'.' :: digits, by simp⟩

/-- A version names the release that it names as a tag, by itself or with `go` in front. -/
theorem minorOfVersion?_eq_some_iff :
    minorOfVersion? version = some n ↔ NamesRelease version n ∨ NamesRelease ("go" ++ version) n := by
  unfold minorOfVersion?
  split
  · rename_i rest hversion
    have hnot : ¬ NamesRelease ("go" ++ version) n := by
      intro h
      obtain ⟨more, hmore⟩ := h.exists_toList
      simp [hversion] at hmore
    rw [releaseMinor?_eq_some_iff, or_iff_left hnot]
  · rename_i hversion
    have hnot : ¬ NamesRelease version n := by
      intro h
      obtain ⟨more, hmore⟩ := h.exists_toList
      exact hversion _ hmore
    have hgo : String.ofList ('g' :: 'o' :: version.toList) = "go" ++ version := by
      simp [← String.toList_inj]
    rw [hgo, releaseMinor?_eq_some_iff, or_iff_right hnot]

end

end GoBuild
