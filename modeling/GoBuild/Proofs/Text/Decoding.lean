import GoBuild.Proofs.Text.Utf8

/-!
# The bytes that are read as a character

Each character of a decoded text other than the replacement character comes from its own UTF-8 form
(`decodeLossy_eq_cons`). Bytes can therefore be cut wherever an ASCII character stands in their text
(`decodeLossy_eq_append_cons_iff`).
-/

namespace GoBuild.Text

/-! ### Characters in progress -/

namespace Partial

/-- The character in progress after one more of its bytes. -/
def next (p : Partial) (b : UInt8) : Partial :=
  ⟨p.bits * 64 + (b.toNat - 0x80), p.missing - 1, 0x80, 0xbf⟩

/-- The bytes complete the character in progress as `c`. -/
inductive Completes : Partial → List UInt8 → Char → Prop
  | last {p : Partial} {b : UInt8} (hrange : p.lo ≤ b ∧ b ≤ p.hi) (hmissing : p.missing = 1) :
    Completes p [b] (Char.ofNat (p.next b).bits)
  | inner {p : Partial} {b : UInt8} {front : List UInt8} {c : Char}
    (hrange : p.lo ≤ b ∧ b ≤ p.hi) (hmissing : p.missing ≠ 1)
    (hnext : Completes (p.next b) front c) : Completes p (b :: front) c

end Partial

theorem Reader.finish_foldl_step (read : List Char) (bytes : List UInt8) :
    (bytes.foldl step ⟨read, none⟩).finish = read.reverse ++ decodeLossy bytes := by
  have hafter : (⟨read, none⟩ : Reader) = Reader.after {} read := rfl
  rw [hafter, foldl_step_after, finish_after]
  rfl

/-- A character in progress is completed or replaced, and what follows is read afresh. -/
theorem Reader.finish_foldl_step_pending (read : List Char) (p : Partial) (bytes : List UInt8) :
    ∃ c front rest, bytes = front ++ rest ∧
      (bytes.foldl step ⟨read, some p⟩).finish = read.reverse ++ c :: decodeLossy rest ∧
      (c = replacement ∨ p.Completes front c) := by
  induction bytes generalizing p with
  | nil => exact ⟨replacement, [], [], rfl, by simp [finish, decodeLossy], .inl rfl⟩
  | cons b bytes ih =>
    by_cases hrange : p.lo ≤ b ∧ b ≤ p.hi
    · by_cases hmissing : p.missing = 1
      · have hstep : step ⟨read, some p⟩ b = ⟨Char.ofNat (p.next b).bits :: read, none⟩ := by
          simp only [step, if_pos hrange, if_pos hmissing]
          rfl
        refine ⟨_, [b], bytes, rfl, ?_, .inr (.last hrange hmissing)⟩
        rw [List.foldl_cons, hstep, finish_foldl_step]
        simp
      · have hstep : step ⟨read, some p⟩ b = ⟨read, some (p.next b)⟩ := by
          simp only [step, if_pos hrange, if_neg hmissing]
          rfl
        obtain ⟨c, front, rest, rfl, hread, hc⟩ := ih (p.next b)
        exact ⟨c, b :: front, rest, rfl, by rw [List.foldl_cons, hstep, hread],
          hc.imp_right (.inner hrange hmissing)⟩
    · have hstep : step ⟨read, some p⟩ b = step ⟨replacement :: read, none⟩ b := by
        simp only [step, if_neg hrange]
      refine ⟨replacement, [], b :: bytes, rfl, ?_, .inl rfl⟩
      rw [List.foldl_cons, hstep, ← List.foldl_cons, finish_foldl_step]
      simp

/-! ### The form of a character -/

theorem utf8EncodeChar_ofNat {n : Nat} (hn : n.isValidChar) :
    String.utf8EncodeChar (Char.ofNat n) =
      if n ≤ 0x7f then [UInt8.ofNat n]
      else if n ≤ 0x7ff then [UInt8.ofNat (n / 64 % 32 + 192), UInt8.ofNat (n % 64 + 128)]
      else if n ≤ 0xffff then
        [UInt8.ofNat (n / 4096 % 16 + 224), UInt8.ofNat (n / 64 % 64 + 128),
          UInt8.ofNat (n % 64 + 128)]
      else
        [UInt8.ofNat (n / 262144 % 8 + 240), UInt8.ofNat (n / 4096 % 64 + 128),
          UInt8.ofNat (n / 64 % 64 + 128), UInt8.ofNat (n % 64 + 128)] := by
  have hval : (Char.ofNat n).val.toNat = n := by
    rw [Char.ofNat, dif_pos hn]
    rfl
  rw [String.utf8EncodeChar, hval]

section

variable {k j₁ j₂ j₃ : Nat} (h₁ : j₁ < 64)
include h₁

theorem utf8EncodeChar_two (hlo : 2 ≤ k) (hhi : k < 32) :
    String.utf8EncodeChar (Char.ofNat (k * 64 + j₁)) =
      [UInt8.ofNat (k + 192), UInt8.ofNat (j₁ + 128)] := by
  have hk : (k * 64 + j₁) / 64 % 32 = k := by omega
  have hj : (k * 64 + j₁) % 64 = j₁ := by omega
  rw [utf8EncodeChar_ofNat (.inl (by omega)), if_neg (by omega), if_pos (by omega), hk, hj]

theorem utf8EncodeChar_three (h₂ : j₂ < 64) (hhi : k < 16) (hmin : k = 0 → 32 ≤ j₁)
    (hmax : k = 13 → j₁ < 32) :
    String.utf8EncodeChar (Char.ofNat ((k * 64 + j₁) * 64 + j₂)) =
      [UInt8.ofNat (k + 224), UInt8.ofNat (j₁ + 128), UInt8.ofNat (j₂ + 128)] := by
  obtain ⟨n, hn⟩ : ∃ n, n = (k * 64 + j₁) * 64 + j₂ := ⟨_, rfl⟩
  have hvalid : n.isValidChar := by
    show n < 0xd800 ∨ 0xdfff < n ∧ n < 0x110000
    omega
  have hk : n / 4096 % 16 = k := by omega
  have hj₁ : n / 64 % 64 = j₁ := by omega
  have hj₂ : n % 64 = j₂ := by omega
  rw [← hn, utf8EncodeChar_ofNat hvalid, if_neg (by omega), if_neg (by omega), if_pos (by omega),
    hk, hj₁, hj₂]

theorem utf8EncodeChar_four (h₂ : j₂ < 64) (h₃ : j₃ < 64) (hhi : k < 5) (hmin : k = 0 → 16 ≤ j₁)
    (hmax : k = 4 → j₁ < 16) :
    String.utf8EncodeChar (Char.ofNat (((k * 64 + j₁) * 64 + j₂) * 64 + j₃)) =
      [UInt8.ofNat (k + 240), UInt8.ofNat (j₁ + 128), UInt8.ofNat (j₂ + 128),
        UInt8.ofNat (j₃ + 128)] := by
  obtain ⟨n, hn⟩ : ∃ n, n = ((k * 64 + j₁) * 64 + j₂) * 64 + j₃ := ⟨_, rfl⟩
  have hvalid : n.isValidChar := by
    show n < 0xd800 ∨ 0xdfff < n ∧ n < 0x110000
    omega
  have hk : n / 262144 % 8 = k := by omega
  have hj₁ : n / 4096 % 64 = j₁ := by omega
  have hj₂ : n / 64 % 64 = j₂ := by omega
  have hj₃ : n % 64 = j₃ := by omega
  rw [← hn, utf8EncodeChar_ofNat hvalid, if_neg (by omega), if_neg (by omega), if_neg (by omega),
    hk, hj₁, hj₂, hj₃]

end

theorem utf8EncodeChar_single {b : UInt8} (hb : b < 0x80) :
    String.utf8EncodeChar (Char.ofNat b.toNat) = [b] := by
  have hn : b.toNat < 128 := UInt8.lt_iff_toNat_lt.1 hb
  rw [utf8EncodeChar_ofNat (.inl (by omega)), if_pos (by omega), UInt8.ofNat_toNat]

/-- Which bytes begin a longer character, and what is known of the further bytes. -/
theorem Lead.opens_cases {b : UInt8} {p : Partial} (h : Lead.ofByte b = .opens p) :
    (∃ k, 2 ≤ k ∧ k < 32 ∧ b = UInt8.ofNat (k + 192) ∧ p = ⟨k, 1, 0x80, 0xbf⟩) ∨
    (∃ k lo hi, k < 16 ∧ b = UInt8.ofNat (k + 224) ∧ p = ⟨k, 2, lo, hi⟩ ∧
      (0x80 ≤ lo ∧ hi ≤ 0xbf) ∧ (k = 0 → lo = 0xa0) ∧ (k = 13 → hi = 0x9f)) ∨
    (∃ k lo hi, k < 5 ∧ b = UInt8.ofNat (k + 240) ∧ p = ⟨k, 3, lo, hi⟩ ∧
      (0x80 ≤ lo ∧ hi ≤ 0xbf) ∧ (k = 0 → lo = 0x90) ∧ (k = 4 → hi = 0x8f)) := by
  have hb : ∀ n, n ≤ b.toNat → b = UInt8.ofNat (b.toNat - n + n) := fun n hn => by
    rw [Nat.sub_add_cancel hn, UInt8.ofNat_toNat]
  simp only [Lead.ofByte, UInt8.lt_iff_toNat_lt, ← UInt8.toNat_inj, UInt8.reduceToNat] at h
  split_ifs at h <;> simp only [Lead.opens.injEq] at h <;> subst h
  · exact .inl ⟨_, by omega, by omega, hb 192 (by omega), rfl⟩
  · exact .inr (.inl ⟨0, _, _, by omega, UInt8.toNat_inj.1 ‹_›, rfl, by decide, by simp, by simp⟩)
  · exact .inr (.inl ⟨13, _, _, by omega, UInt8.toNat_inj.1 ‹_›, rfl, by decide, by simp, by simp⟩)
  · exact .inr (.inl ⟨b.toNat - 224, _, _, by omega, hb 224 (by omega), rfl, by decide,
      by omega, by omega⟩)
  · exact .inr (.inr ⟨0, _, _, by omega, UInt8.toNat_inj.1 ‹_›, rfl, by decide, by simp, by simp⟩)
  · exact .inr (.inr ⟨b.toNat - 240, _, _, by omega, hb 240 (by omega), rfl, by decide,
      by omega, by omega⟩)
  · exact .inr (.inr ⟨4, _, _, by omega, UInt8.toNat_inj.1 ‹_›, rfl, by decide, by simp, by simp⟩)

namespace Partial

/-- A further byte adds six bits. -/
theorem exists_next_eq {bits missing : Nat} {lo hi b : UInt8} (hrange : lo ≤ b ∧ b ≤ hi)
    (hbound : 0x80 ≤ lo ∧ hi ≤ 0xbf) :
    ∃ j < 64, b = UInt8.ofNat (j + 128) ∧ lo.toNat ≤ j + 128 ∧ j + 128 ≤ hi.toNat ∧
      next ⟨bits, missing, lo, hi⟩ b = ⟨bits * 64 + j, missing - 1, 0x80, 0xbf⟩ := by
  simp only [UInt8.le_iff_toNat_le, UInt8.reduceToNat] at hrange hbound
  refine ⟨b.toNat - 128, by omega, ?_, by omega, by omega, rfl⟩
  rw [Nat.sub_add_cancel (by omega), UInt8.ofNat_toNat]

namespace Completes

variable {bits missing : Nat} {lo hi : UInt8} {front : List UInt8} {c : Char}

theorem exists_last (h : Completes ⟨bits, 1, lo, hi⟩ front c) (hbound : 0x80 ≤ lo ∧ hi ≤ 0xbf) :
    ∃ j < 64, front = [UInt8.ofNat (j + 128)] ∧ c = Char.ofNat (bits * 64 + j) := by
  generalize hp : (⟨bits, 1, lo, hi⟩ : Partial) = p at h
  cases h with
  | last hrange =>
    subst hp
    obtain ⟨j, hj, rfl, -, -, hnext⟩ := exists_next_eq hrange hbound
    exact ⟨j, hj, rfl, by rw [hnext]⟩
  | inner _ hmissing =>
    subst hp
    exact absurd rfl hmissing

theorem exists_inner (h : Completes ⟨bits, missing + 2, lo, hi⟩ front c)
    (hbound : 0x80 ≤ lo ∧ hi ≤ 0xbf) :
    ∃ j < 64, ∃ rest, front = UInt8.ofNat (j + 128) :: rest ∧
      (lo.toNat ≤ j + 128 ∧ j + 128 ≤ hi.toNat) ∧
      Completes ⟨bits * 64 + j, missing + 1, 0x80, 0xbf⟩ rest c := by
  generalize hp : (⟨bits, missing + 2, lo, hi⟩ : Partial) = p at h
  cases h with
  | last _ hmissing =>
    subst hp
    cases hmissing
  | inner hrange _ hcompletes =>
    subst hp
    obtain ⟨j, hj, rfl, hmin, hmax, hnext⟩ := exists_next_eq hrange hbound
    rw [hnext] at hcompletes
    exact ⟨j, hj, _, rfl, ⟨hmin, hmax⟩, hcompletes⟩

/-- The first byte of a character and those that complete it are its UTF-8 form. -/
theorem eq_utf8EncodeChar {b : UInt8} {p : Partial} (hb : Lead.ofByte b = .opens p)
    (h : p.Completes front c) : b :: front = String.utf8EncodeChar c := by
  have htail : (0x80 : UInt8) ≤ 0x80 ∧ (0xbf : UInt8) ≤ 0xbf := by decide
  rcases Lead.opens_cases hb with ⟨k, hlo, hhi, rfl, rfl⟩ |
    ⟨k, lo, hi, hk, rfl, rfl, hbound, hmin, hmax⟩ | ⟨k, lo, hi, hk, rfl, rfl, hbound, hmin, hmax⟩
  · obtain ⟨j, hj, rfl, hc⟩ := h.exists_last htail
    rw [hc, utf8EncodeChar_two hj hlo hhi]
  · obtain ⟨j₁, hj₁, front, rfl, ⟨hlo, hhi⟩, h⟩ := h.exists_inner hbound
    obtain ⟨j₂, hj₂, rfl, hc⟩ := h.exists_last htail
    rw [hc, utf8EncodeChar_three hj₁ hj₂ hk]
    · intro hzero
      rw [hmin hzero, show (0xa0 : UInt8).toNat = 160 from rfl] at hlo
      omega
    · intro hlast
      rw [hmax hlast, show (0x9f : UInt8).toNat = 159 from rfl] at hhi
      omega
  · obtain ⟨j₁, hj₁, front, rfl, ⟨hlo, hhi⟩, h⟩ := h.exists_inner hbound
    obtain ⟨j₂, hj₂, front, rfl, -, h⟩ := h.exists_inner htail
    obtain ⟨j₃, hj₃, rfl, hc⟩ := h.exists_last htail
    rw [hc, utf8EncodeChar_four hj₁ hj₂ hj₃ hk]
    · intro hzero
      rw [hmin hzero, show (0x90 : UInt8).toNat = 144 from rfl] at hlo
      omega
    · intro hlast
      rw [hmax hlast, show (0x8f : UInt8).toNat = 143 from rfl] at hhi
      omega

end Completes

end Partial

/-! ### Decoded texts -/

/-- Bytes begin with those of some character, and what follows is read on its own. A character other
than the replacement comes from its UTF-8 form. -/
theorem decodeLossy_cons (b : UInt8) (bytes : List UInt8) :
    ∃ c front rest, bytes = front ++ rest ∧ decodeLossy (b :: bytes) = c :: decodeLossy rest ∧
      (c = replacement ∨ b :: front = String.utf8EncodeChar c) := by
  have hstep : decodeLossy (b :: bytes) = (bytes.foldl Reader.step (Reader.begin [] b)).finish := rfl
  rw [hstep, Reader.begin]
  cases hb : Lead.ofByte b with
  | single c =>
    refine ⟨c, [], bytes, rfl, Reader.finish_foldl_step [c] bytes, .inr ?_⟩
    unfold Lead.ofByte at hb
    split at hb
    · rename_i hlt
      obtain rfl := Lead.single.inj hb
      exact (utf8EncodeChar_single hlt).symm
    · split_ifs at hb
  | invalid => exact ⟨_, [], bytes, rfl, Reader.finish_foldl_step [replacement] bytes, .inl rfl⟩
  | opens p =>
    obtain ⟨c, front, rest, hbytes, hread, hc⟩ := Reader.finish_foldl_step_pending [] p bytes
    exact ⟨c, front, rest, hbytes, hread, hc.imp_right (Partial.Completes.eq_utf8EncodeChar hb)⟩

/-- The first character of a decoded text and the bytes that the others are read from. -/
theorem decodeLossy_eq_cons {bytes : List UInt8} {c : Char} {cs : List Char}
    (h : decodeLossy bytes = c :: cs) : ∃ front rest, bytes = front ++ rest ∧
      decodeLossy rest = cs ∧ (c = replacement ∨ front = String.utf8EncodeChar c) := by
  cases bytes with
  | nil => cases h
  | cons b bytes =>
    obtain ⟨c', front, rest, rfl, hread, hc⟩ := decodeLossy_cons b bytes
    rw [hread] at h
    obtain ⟨rfl, rfl⟩ := List.cons.inj h
    exact ⟨b :: front, rest, rfl, rfl, hc⟩

theorem decodeLossy_eq_nil_iff {bytes : List UInt8} : decodeLossy bytes = [] ↔ bytes = [] := by
  cases bytes with
  | nil => simp
  | cons b bytes =>
    obtain ⟨c, front, rest, -, hread, -⟩ := decodeLossy_cons b bytes
    simp [hread]

/-! ### Cutting at ASCII characters -/

namespace Reader

/-- No ASCII character goes on with the character in progress. -/
def NotAscii (r : Reader) : Prop := ∀ p, r.pending = some p → 0x80 ≤ p.lo

theorem notAscii_begin (read : List Char) (b : UInt8) : (begin read b).NotAscii := by
  intro p hp
  unfold begin at hp
  cases hb : Lead.ofByte b with
  | single c => simp [hb] at hp
  | invalid => simp [hb] at hp
  | opens q =>
    simp only [hb, Option.some.injEq] at hp
    subst hp
    rcases Lead.opens_cases hb with ⟨k, -, -, -, rfl⟩ | ⟨k, lo, hi, -, -, rfl, hbound, -⟩ |
      ⟨k, lo, hi, -, -, rfl, hbound, -⟩
    · exact UInt8.le_refl _
    · exact hbound.1
    · exact hbound.1

theorem NotAscii.step {r : Reader} (hr : r.NotAscii) (b : UInt8) : (r.step b).NotAscii := by
  obtain ⟨read, pending⟩ := r
  cases pending with
  | none => exact notAscii_begin read b
  | some p =>
    by_cases hrange : p.lo ≤ b ∧ b ≤ p.hi
    · intro q hq
      simp only [Reader.step, if_pos hrange] at hq
      split at hq
      · cases hq
      · rw [← Option.some.inj hq]
        exact UInt8.le_refl _
    · simp only [Reader.step, if_neg hrange]
      exact notAscii_begin _ b

theorem NotAscii.foldl_step {r : Reader} (hr : r.NotAscii) (bytes : List UInt8) :
    (bytes.foldl Reader.step r).NotAscii := by
  induction bytes generalizing r with
  | nil => exact hr
  | cons b bytes ih => exact ih (hr.step b)

theorem step_of_ascii {r : Reader} (hr : r.NotAscii) {b : UInt8} (hb : b < 0x80) :
    r.step b = ⟨Char.ofNat b.toNat :: r.finish.reverse, none⟩ := by
  have hsingle : ∀ read, begin read b = ⟨Char.ofNat b.toNat :: read, none⟩ := fun read => by
    simp only [begin, Lead.ofByte, if_pos hb]
  obtain ⟨read, pending⟩ := r
  cases pending with
  | none => simp [step, hsingle, finish]
  | some p =>
    have hlow : 0x80 ≤ p.lo := hr p rfl
    have hrange : ¬ (p.lo ≤ b ∧ b ≤ p.hi) := fun h =>
      UInt8.lt_irrefl b (UInt8.lt_of_lt_of_le hb (UInt8.le_trans hlow h.1))
    simp [step, hrange, hsingle, finish]

end Reader

section Ascii

variable {b : UInt8} (hb : b < 0x80)
include hb

theorem decodeLossy_append_cons (xs ys : List UInt8) :
    decodeLossy (xs ++ b :: ys) = decodeLossy xs ++ Char.ofNat b.toNat :: decodeLossy ys := by
  have hr : (xs.foldl Reader.step {}).NotAscii :=
    Reader.NotAscii.foldl_step (fun p hp => by cases hp) xs
  rw [decodeLossy, List.foldl_append, List.foldl_cons, Reader.step_of_ascii hr hb,
    Reader.finish_foldl_step]
  simp [decodeLossy]

theorem decodeLossy_ascii_cons (ys : List UInt8) :
    decodeLossy (b :: ys) = Char.ofNat b.toNat :: decodeLossy ys :=
  decodeLossy_append_cons hb [] ys

theorem ofNat_toNat_ne_replacement : Char.ofNat b.toNat ≠ replacement := by
  intro heq
  have hform := utf8EncodeChar_single hb
  rw [heq] at hform
  have hlength : 3 = 1 := congrArg List.length hform
  omega

/-- Where an ASCII character stands in a decoded text, its byte stands between the bytes of what is
before it and of what is after it. -/
theorem decodeLossy_eq_append_cons_iff {bytes : List UInt8} {xs ys : List Char} :
    decodeLossy bytes = xs ++ Char.ofNat b.toNat :: ys ↔
      ∃ us vs, bytes = us ++ b :: vs ∧ decodeLossy us = xs ∧ decodeLossy vs = ys := by
  constructor
  · intro h
    induction xs generalizing bytes with
    | nil =>
      obtain ⟨front, rest, rfl, hrest, hc⟩ := decodeLossy_eq_cons h
      rw [utf8EncodeChar_single hb] at hc
      obtain rfl := hc.resolve_left (ofNat_toNat_ne_replacement hb)
      exact ⟨[], rest, rfl, rfl, hrest⟩
    | cons x xs ih =>
      obtain ⟨front, rest, rfl, hrest, -⟩ := decodeLossy_eq_cons h
      obtain ⟨us, vs, rfl, -, hvs⟩ := ih hrest
      rw [← List.append_assoc, decodeLossy_append_cons hb, hvs] at h
      exact ⟨front ++ us, vs, by rw [List.append_assoc], List.append_cancel_right h, hvs⟩
  · rintro ⟨us, vs, rfl, rfl, rfl⟩
    exact decodeLossy_append_cons hb us vs

theorem decodeLossy_eq_ascii_cons_iff {bytes : List UInt8} {cs : List Char} :
    decodeLossy bytes = Char.ofNat b.toNat :: cs ↔
      ∃ rest, bytes = b :: rest ∧ decodeLossy rest = cs := by
  constructor
  · intro h
    have hread : decodeLossy bytes = [] ++ Char.ofNat b.toNat :: cs := h
    obtain ⟨us, rest, rfl, hus, hrest⟩ := (decodeLossy_eq_append_cons_iff hb).1 hread
    rw [decodeLossy_eq_nil_iff.1 hus]
    exact ⟨rest, rfl, hrest⟩
  · rintro ⟨rest, rfl, rfl⟩
    exact decodeLossy_ascii_cons hb rest

theorem mem_decodeLossy_iff {bytes : List UInt8} :
    Char.ofNat b.toNat ∈ decodeLossy bytes ↔ b ∈ bytes := by
  rw [List.mem_iff_append, List.mem_iff_append]
  simp only [decodeLossy_eq_append_cons_iff hb]
  exact ⟨fun ⟨_, _, us, vs, h, _⟩ => ⟨us, vs, h⟩, fun ⟨us, vs, h⟩ => ⟨_, _, us, vs, h, rfl, rfl⟩⟩

end Ascii

/-- A decoded text begins with ASCII characters exactly if its bytes begin with theirs. -/
theorem decodeLossy_eq_ascii_append_iff {mark bytes : List UInt8} {cs : List Char}
    (hmark : ∀ b ∈ mark, b < 0x80) :
    decodeLossy bytes = mark.map (Char.ofNat ·.toNat) ++ cs ↔
      ∃ rest, bytes = mark ++ rest ∧ decodeLossy rest = cs := by
  induction mark generalizing bytes with
  | nil => simp
  | cons b mark ih =>
    obtain ⟨hb, hmark⟩ := List.forall_mem_cons.1 hmark
    rw [List.map_cons, List.cons_append, decodeLossy_eq_ascii_cons_iff hb]
    constructor
    · rintro ⟨bytes, rfl, hread⟩
      obtain ⟨rest, rfl, hrest⟩ := (ih hmark).1 hread
      exact ⟨rest, rfl, hrest⟩
    · rintro ⟨rest, rfl, hrest⟩
      exact ⟨mark ++ rest, rfl, (ih hmark).2 ⟨rest, rfl, hrest⟩⟩

end GoBuild.Text
