import GoBuild.Text.Utf8
import Mathlib.Tactic.IntervalCases

/-!
# Reading UTF-8

Bytes that are the UTF-8 form of a text are read as that text, whatever bytes follow them
(`decodeLossy_encode_append`). Without replacements only such bytes are read
(`decode?_eq_some_iff`).
-/

namespace GoBuild.Text

namespace Reader

variable {read : List Char} {n k : Nat}

/-! ### First bytes -/

theorem step_one (h : n < 128) :
    step ⟨read, none⟩ (UInt8.ofNat n) = ⟨Char.ofNat n :: read, none⟩ := by
  have hnat : (UInt8.ofNat n).toNat = n := by
    rw [UInt8.toNat_ofNat']
    omega
  have hlt : UInt8.ofNat n < 0x80 := by
    rw [UInt8.lt_iff_toNat_lt, hnat]
    exact h
  simp only [step, begin, Lead.ofByte, if_pos hlt, hnat]

theorem step_two (hlo : 2 ≤ k) (hhi : k < 32) :
    step ⟨read, none⟩ (UInt8.ofNat (k + 192)) = ⟨read, some ⟨k, 1, 0x80, 0xbf⟩⟩ := by
  interval_cases k <;> rfl

theorem step_three (h : k < 16) : step ⟨read, none⟩ (UInt8.ofNat (k + 224)) =
    ⟨read, some ⟨k, 2, if k = 0 then 0xa0 else 0x80, if k = 13 then 0x9f else 0xbf⟩⟩ := by
  interval_cases k <;> rfl

theorem step_four (h : k < 5) : step ⟨read, none⟩ (UInt8.ofNat (k + 240)) =
    ⟨read, some ⟨k, 3, if k = 0 then 0x90 else 0x80, if k = 4 then 0x8f else 0xbf⟩⟩ := by
  interval_cases k <;> rfl

/-! ### Further bytes -/

section

variable {bits : Nat} {lo hi : UInt8} (hk : k < 64) (hlo : lo.toNat ≤ k + 128)
  (hhi : k + 128 ≤ hi.toNat)
include hk hlo hhi

theorem step_of_mem_range (missing : Nat) :
    step ⟨read, some ⟨bits, missing, lo, hi⟩⟩ (UInt8.ofNat (k + 128)) =
      if missing = 1 then ⟨Char.ofNat (bits * 64 + k) :: read, none⟩
      else ⟨read, some ⟨bits * 64 + k, missing - 1, 0x80, 0xbf⟩⟩ := by
  have hnat : (UInt8.ofNat (k + 128)).toNat = k + 128 := by
    rw [UInt8.toNat_ofNat']
    omega
  have hrange : lo ≤ UInt8.ofNat (k + 128) ∧ UInt8.ofNat (k + 128) ≤ hi := by
    rw [UInt8.le_iff_toNat_le, UInt8.le_iff_toNat_le, hnat]
    exact ⟨hlo, hhi⟩
  simp only [step, if_pos hrange, hnat, Nat.add_sub_cancel]

theorem step_inner (missing : Nat) :
    step ⟨read, some ⟨bits, missing + 2, lo, hi⟩⟩ (UInt8.ofNat (k + 128)) =
      ⟨read, some ⟨bits * 64 + k, missing + 1, 0x80, 0xbf⟩⟩ :=
  step_of_mem_range hk hlo hhi (missing + 2)

end

section

variable {bits : Nat} (hk : k < 64)
include hk

theorem mem_tail_range : (0x80 : UInt8).toNat ≤ k + 128 ∧ k + 128 ≤ (0xbf : UInt8).toNat := by
  show 128 ≤ k + 128 ∧ k + 128 ≤ 191
  omega

theorem step_middle (missing : Nat) :
    step ⟨read, some ⟨bits, missing + 2, 0x80, 0xbf⟩⟩ (UInt8.ofNat (k + 128)) =
      ⟨read, some ⟨bits * 64 + k, missing + 1, 0x80, 0xbf⟩⟩ :=
  step_inner hk (mem_tail_range hk).1 (mem_tail_range hk).2 missing

theorem step_last : step ⟨read, some ⟨bits, 1, 0x80, 0xbf⟩⟩ (UInt8.ofNat (k + 128)) =
    ⟨Char.ofNat (bits * 64 + k) :: read, none⟩ :=
  step_of_mem_range hk (mem_tail_range hk).1 (mem_tail_range hk).2 1

end

/-! ### Whole characters -/

theorem foldl_step_two (hlo : 0x80 ≤ n) (hhi : n < 0x800) :
    [UInt8.ofNat (n / 64 % 32 + 192), UInt8.ofNat (n % 64 + 128)].foldl step ⟨read, none⟩ =
      ⟨Char.ofNat n :: read, none⟩ := by
  have hlead : n / 64 % 32 = n / 64 := by omega
  have hbits : n / 64 * 64 + n % 64 = n := by omega
  simp only [List.foldl_cons, List.foldl_nil]
  rw [hlead, step_two (by omega) (by omega), step_last (by omega), hbits]

theorem foldl_step_three (hlo : 0x800 ≤ n) (hhi : n < 0x10000)
    (hsurrogate : n < 0xd800 ∨ 0xdfff < n) :
    [UInt8.ofNat (n / 4096 % 16 + 224), UInt8.ofNat (n / 64 % 64 + 128),
      UInt8.ofNat (n % 64 + 128)].foldl step ⟨read, none⟩ = ⟨Char.ofNat n :: read, none⟩ := by
  have hlead : n / 4096 % 16 = n / 4096 := by omega
  have hbits : (n / 4096 * 64 + n / 64 % 64) * 64 + n % 64 = n := by omega
  -- No shorter form begins with 0xe0, and no surrogate with 0xed.
  have hmin : (if n / 4096 = 0 then 0xa0 else 0x80 : UInt8).toNat ≤ n / 64 % 64 + 128 := by
    split
    · show 160 ≤ _
      omega
    · show 128 ≤ _
      omega
  have hmax : n / 64 % 64 + 128 ≤ (if n / 4096 = 13 then 0x9f else 0xbf : UInt8).toNat := by
    split
    · show _ ≤ 159
      omega
    · show _ ≤ 191
      omega
  simp only [List.foldl_cons, List.foldl_nil]
  rw [hlead, step_three (by omega), step_inner (by omega) hmin hmax,
    step_last (by omega), hbits]

theorem foldl_step_four (hlo : 0x10000 ≤ n) (hhi : n < 0x110000) :
    [UInt8.ofNat (n / 262144 % 8 + 240), UInt8.ofNat (n / 4096 % 64 + 128),
      UInt8.ofNat (n / 64 % 64 + 128), UInt8.ofNat (n % 64 + 128)].foldl step ⟨read, none⟩ =
      ⟨Char.ofNat n :: read, none⟩ := by
  have hlead : n / 262144 % 8 = n / 262144 := by omega
  have hbits : ((n / 262144 * 64 + n / 4096 % 64) * 64 + n / 64 % 64) * 64 + n % 64 = n := by omega
  -- No shorter form begins with 0xf0, and nothing past the last code point with 0xf4.
  have hmin : (if n / 262144 = 0 then 0x90 else 0x80 : UInt8).toNat ≤ n / 4096 % 64 + 128 := by
    split
    · show 144 ≤ _
      omega
    · show 128 ≤ _
      omega
  have hmax : n / 4096 % 64 + 128 ≤ (if n / 262144 = 4 then 0x8f else 0xbf : UInt8).toNat := by
    split
    · show _ ≤ 143
      omega
    · show _ ≤ 191
      omega
  simp only [List.foldl_cons, List.foldl_nil]
  rw [hlead, step_four (by omega), step_inner (by omega) hmin hmax,
    step_middle (by omega), step_last (by omega), hbits]

/-- The bytes of one character are read as that character. -/
theorem foldl_step_utf8EncodeChar (read : List Char) (c : Char) :
    (String.utf8EncodeChar c).foldl step ⟨read, none⟩ = ⟨c :: read, none⟩ := by
  have hvalid : c.toNat < 0xd800 ∨ 0xdfff < c.toNat ∧ c.toNat < 0x110000 := c.valid
  obtain ⟨n, hn⟩ : ∃ n, c.toNat = n := ⟨_, rfl⟩
  have hc : c = Char.ofNat n := hn ▸ (Char.ofNat_toNat c).symm
  have hval : c.val.toNat = n := hn
  rw [hn] at hvalid
  rw [String.utf8EncodeChar, hval, hc]
  split
  · exact step_one (by omega)
  split
  · exact foldl_step_two (by omega) (by omega)
  split
  · exact foldl_step_three (by omega) (by omega) (by omega)
  · exact foldl_step_four (by omega) (by omega)

/-- The bytes of a text are read as that text. -/
theorem foldl_step_encode (read text : List Char) :
    (encode text).foldl step ⟨read, none⟩ = ⟨text.reverse ++ read, none⟩ := by
  induction text generalizing read with
  | nil => rfl
  | cons c cs ih =>
    rw [encode, List.flatMap_cons, List.foldl_append, foldl_step_utf8EncodeChar, ← encode, ih,
      List.reverse_cons, List.append_assoc, List.singleton_append]

/-! ### Characters read before -/

/-- The state with further characters read before all others. -/
def after (r : Reader) (before : List Char) : Reader := ⟨r.read ++ before, r.pending⟩

theorem begin_append (read before : List Char) (b : UInt8) :
    begin (read ++ before) b = (begin read b).after before := by
  unfold begin
  split <;> rfl

theorem step_after (r : Reader) (before : List Char) (b : UInt8) :
    (r.after before).step b = (r.step b).after before := by
  obtain ⟨read, pending⟩ := r
  cases pending with
  | none => exact begin_append read before b
  | some p =>
    by_cases hrange : p.lo ≤ b ∧ b ≤ p.hi
    · simp only [step, after, if_pos hrange]
      split <;> rfl
    · simp only [step, after, if_neg hrange]
      exact begin_append (replacement :: read) before b

theorem foldl_step_after (r : Reader) (before : List Char) (bytes : List UInt8) :
    bytes.foldl step (r.after before) = (bytes.foldl step r).after before := by
  induction bytes generalizing r with
  | nil => rfl
  | cons b bytes ih => rw [List.foldl_cons, List.foldl_cons, step_after, ih]

theorem finish_after (r : Reader) (before : List Char) :
    (r.after before).finish = before.reverse ++ r.finish := by
  obtain ⟨read, pending⟩ := r
  cases pending <;> simp [finish, after]

end Reader

@[simp] theorem decodeLossy_nil : decodeLossy [] = [] := rfl

/-- Bytes that begin with the UTF-8 form of a text are read as that text and what follows it. -/
theorem decodeLossy_encode_append (text : List Char) (bytes : List UInt8) :
    decodeLossy (encode text ++ bytes) = text ++ decodeLossy bytes := by
  have hread : (encode text).foldl Reader.step {} = Reader.after {} text.reverse := by
    rw [Reader.foldl_step_encode, List.append_nil]
    rfl
  rw [decodeLossy, List.foldl_append, hread, Reader.foldl_step_after, Reader.finish_after,
    List.reverse_reverse, decodeLossy]

theorem decodeLossy_encode (text : List Char) : decodeLossy (encode text) = text := by
  simpa using decodeLossy_encode_append text []

/-! ### Reading without replacements -/

/-- The bytes are the UTF-8 form of a text. -/
def IsUtf8 (bytes : List UInt8) : Prop := ∃ text, encode text = bytes

theorem encode_toList (text : String) : encode text.toList = text.toByteArray.data.toList := by
  rw [← String.utf8Encode_toList]
  simp [encode, List.utf8Encode]

theorem decode?_eq_some_iff {bytes : List UInt8} {text : String} :
    decode? bytes = some text ↔ encode text.toList = bytes := by
  have hbytes : (⟨bytes.toArray⟩ : ByteArray) = text.toByteArray ↔
      text.toByteArray.data.toList = bytes := by
    rw [ByteArray.ext_iff, ← Array.toList_inj, eq_comm]
  rw [encode_toList, ← hbytes, decode?, String.fromUTF8?]
  split
  · rw [Option.some_inj, ← String.toByteArray_inj]
    rfl
  · rename_i hinvalid
    simp only [reduceCtorEq, false_iff]
    exact fun heq => hinvalid (heq ▸ text.isValidUTF8)

theorem decode?_eq_none_iff {bytes : List UInt8} : decode? bytes = none ↔ ¬ IsUtf8 bytes := by
  rw [Option.eq_none_iff_forall_ne_some, IsUtf8]
  simp only [ne_eq, decode?_eq_some_iff, not_exists]
  exact ⟨fun h text heq => h (String.ofList text) (by rwa [String.toList_ofList]), fun h text => h _⟩

end GoBuild.Text
