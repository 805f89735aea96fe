import DogBot.Library.Decoder
import Mathlib.Data.Nat.Notation

/-! # UTF-8

Lossy decoding of UTF-8: each maximal part of a well-formed character that is
not one, and each other byte, becomes one replacement character.
-/

namespace DogBot

namespace Utf8

/-- The first bytes of a character. There are bytes missing, the next one of which lies between
two continuation bytes. -/
structure Incomplete where
  missing : ℕ
  low : ℕ
  high : ℕ
  value : ℕ
  low_ge : 0x80 ≤ low
  high_lt : high < 0xC0

/-- A character of which some continuation bytes are missing. -/
def Incomplete.of (missing value : ℕ) : Incomplete where
  missing := missing
  low := 0x80
  high := 0xBF
  value := value
  low_ge := by decide
  high_lt := by decide

/-- Overlong forms and surrogates are excluded by the range of the second byte. -/
def first (byte : UInt8) : Option (Char ⊕ Incomplete) :=
  let b := byte.toNat
  if b < 0x80 then some (.inl (Char.ofNat b))
  else if b < 0xC2 then none
  else if b < 0xE0 then some (.inr (.of 1 (b - 0xC0)))
  else if b = 0xE0 then some (.inr { Incomplete.of 2 0 with low := 0xA0, low_ge := by decide })
  else if b = 0xED then some (.inr { Incomplete.of 2 0xD with high := 0x9F, high_lt := by decide })
  else if b < 0xF0 then some (.inr (.of 2 (b - 0xE0)))
  else if b = 0xF0 then some (.inr { Incomplete.of 3 0 with low := 0x90, low_ge := by decide })
  else if b < 0xF4 then some (.inr (.of 3 (b - 0xF0)))
  else if b = 0xF4 then some (.inr { Incomplete.of 3 4 with high := 0x8F, high_lt := by decide })
  else none

def next (q : Incomplete) (byte : UInt8) : Option (Char ⊕ Incomplete) :=
  let b := byte.toNat
  if q.low ≤ b ∧ b ≤ q.high then
    let value := q.value * 0x40 + (b - 0x80)
    if q.missing ≤ 1 then some (.inl (Char.ofNat value))
    else some (.inr (.of (q.missing - 1) value))
  else none

theorem first_of_next {q : Incomplete} {byte : UInt8} (h : (next q byte).isSome) :
    first byte = none := by
  have hlow := q.low_ge
  have hhigh := q.high_lt
  by_cases hrange : q.low ≤ byte.toNat ∧ byte.toNat ≤ q.high
  · unfold first
    simp only
    rw [if_neg (by omega), if_pos (by omega)]
  · rw [next, if_neg hrange] at h
    cases h

def decoder : Decoder UInt8 Char Incomplete where
  first := first
  next := next
  replacement := '\uFFFD'
  first_of_next := first_of_next

def bytes (s : String) : List UInt8 := s.toList.flatMap String.utf8EncodeChar

/-- `String::from_utf8_lossy`. -/
def fromUtf8Lossy (bytes : List UInt8) : String := String.ofList (decoder.decode bytes)

theorem toNat_ofNat {n : ℕ} (h : n < 0x100) : (UInt8.ofNat n).toNat = n := by
  rw [UInt8.toNat_ofNat']
  exact Nat.mod_eq_of_lt h

theorem next_ofNat {q : Incomplete} {n : ℕ} (hlow : q.low ≤ n % 0x40 + 0x80)
    (hhigh : n % 0x40 + 0x80 ≤ q.high) :
    next q (UInt8.ofNat (n % 0x40 + 0x80)) =
      if q.missing ≤ 1 then some (.inl (Char.ofNat (q.value * 0x40 + n % 0x40)))
      else some (.inr (.of (q.missing - 1) (q.value * 0x40 + n % 0x40))) := by
  unfold next
  simp only
  rw [toNat_ofNat (by omega), if_pos ⟨hlow, hhigh⟩, Nat.add_sub_cancel]

theorem next_of {missing value n : ℕ} :
    next (.of missing value) (UInt8.ofNat (n % 0x40 + 0x80)) =
      if missing ≤ 1 then some (.inl (Char.ofNat (value * 0x40 + n % 0x40)))
      else some (.inr (.of (missing - 1) (value * 0x40 + n % 0x40))) := by
  apply next_ofNat
  · exact Nat.le_add_left _ _
  · change _ ≤ 0xBF
    omega

theorem first_three {n : ℕ} (hlarge : 0x7FF < n) (hsmall : n ≤ 0xFFFF)
    (hvalid : n < 0xD800 ∨ 0xDFFF < n) :
    ∃ q, first (UInt8.ofNat (n / 0x1000 % 0x10 + 0xE0)) = some (.inr q) ∧ q.missing = 2 ∧
      q.value = n / 0x1000 ∧ q.low ≤ n / 0x40 % 0x40 + 0x80 ∧ n / 0x40 % 0x40 + 0x80 ≤ q.high := by
  unfold first
  simp only
  rw [toNat_ofNat (by omega), if_neg (by omega), if_neg (by omega), if_neg (by omega)]
  split_ifs with h1 h2 h3
  · exact ⟨_, rfl, rfl, by change 0 = _; omega, by change 0xA0 ≤ _; omega,
      by change _ ≤ 0xBF; omega⟩
  · exact ⟨_, rfl, rfl, by change 0xD = _; omega, by change 0x80 ≤ _; omega,
      by change _ ≤ 0x9F; omega⟩
  · exact ⟨_, rfl, rfl, by change _ - 0xE0 = _; omega, by change 0x80 ≤ _; omega,
      by change _ ≤ 0xBF; omega⟩
  all_goals omega

theorem first_four {n : ℕ} (hlarge : 0xFFFF < n) (hsmall : n < 0x110000) :
    ∃ q, first (UInt8.ofNat (n / 0x40000 % 0x8 + 0xF0)) = some (.inr q) ∧ q.missing = 3 ∧
      q.value = n / 0x40000 ∧ q.low ≤ n / 0x1000 % 0x40 + 0x80 ∧
      n / 0x1000 % 0x40 + 0x80 ≤ q.high := by
  unfold first
  simp only
  rw [toNat_ofNat (by omega), if_neg (by omega), if_neg (by omega), if_neg (by omega),
    if_neg (by omega), if_neg (by omega), if_neg (by omega)]
  split_ifs with h1 h2 h3
  · exact ⟨_, rfl, rfl, by change 0 = _; omega, by change 0x90 ≤ _; omega,
      by change _ ≤ 0xBF; omega⟩
  · exact ⟨_, rfl, rfl, by change _ - 0xF0 = _; omega, by change 0x80 ≤ _; omega,
      by change _ ≤ 0xBF; omega⟩
  · exact ⟨_, rfl, rfl, by change 4 = _; omega, by change 0x80 ≤ _; omega,
      by change _ ≤ 0x8F; omega⟩
  all_goals omega

theorem div_mul_add_mod (n k : ℕ) : n / (k * 0x40) * 0x40 + n / k % 0x40 = n / k := by
  rw [← Nat.div_div_eq_div_mul]
  exact Nat.div_add_mod' (n / k) 0x40

/-- The bytes of a character are read as the character. -/
theorem run_utf8EncodeChar (c : Char) :
    decoder.run none (String.utf8EncodeChar c) = ([c], none) := by
  have hvalid : c.toNat < 0xD800 ∨ 0xDFFF < c.toNat ∧ c.toNat < 0x110000 := c.valid
  have hval : c.val.toNat = c.toNat := rfl
  have hchar : ∀ n, n = c.toNat → Char.ofNat n = c := by
    rintro n rfl
    exact Char.ofNat_toNat c
  unfold String.utf8EncodeChar
  simp only [hval]
  split_ifs with h1 h2 h3
  · have hfirst : first (UInt8.ofNat c.toNat) = some (.inl c) := by
      unfold first
      simp only
      rw [toNat_ofNat (by omega), if_pos (by omega), hchar _ rfl]
    exact Decoder.run_of_first_last hfirst
  · have hfirst : first (UInt8.ofNat (c.toNat / 64 % 32 + 192)) =
        some (.inr (.of 1 (c.toNat / 64))) := by
      unfold first
      simp only
      rw [toNat_ofNat (by omega), if_neg (by omega), if_neg (by omega), if_pos (by omega),
        show c.toNat / 64 % 32 + 192 - 0xC0 = c.toNat / 64 by omega]
    rw [Decoder.run_of_first hfirst]
    apply Decoder.run_of_last
    exact next_of.trans (by rw [if_pos (by omega), hchar _ (by omega)])
  · obtain ⟨q, hfirst, hmissing, hvalue, hlow, hhigh⟩ :=
      first_three (n := c.toNat) (by omega) h3 (by omega)
    have hsecond : next q (UInt8.ofNat (c.toNat / 64 % 64 + 128)) =
        some (.inr (.of 1 (c.toNat / 64))) := by
      rw [next_ofNat hlow hhigh, if_neg (by omega), hmissing, hvalue,
        div_mul_add_mod c.toNat 64]
    rw [Decoder.run_of_first hfirst, Decoder.run_of_next hsecond]
    apply Decoder.run_of_last
    exact next_of.trans (by rw [if_pos (by omega), hchar _ (by omega)])
  · obtain ⟨q, hfirst, hmissing, hvalue, hlow, hhigh⟩ :=
      first_four (n := c.toNat) (by omega) (by omega)
    have hsecond : next q (UInt8.ofNat (c.toNat / 4096 % 64 + 128)) =
        some (.inr (.of 2 (c.toNat / 4096))) := by
      rw [next_ofNat hlow hhigh, if_neg (by omega), hmissing, hvalue,
        div_mul_add_mod c.toNat 4096]
    have hthird : next (.of 2 (c.toNat / 4096)) (UInt8.ofNat (c.toNat / 64 % 64 + 128)) =
        some (.inr (.of 1 (c.toNat / 64))) := by
      rw [next_of, if_neg (by omega), div_mul_add_mod c.toNat 64]
    rw [Decoder.run_of_first hfirst, Decoder.run_of_next hsecond, Decoder.run_of_next hthird]
    apply Decoder.run_of_last
    exact next_of.trans (by rw [if_pos (by omega), hchar _ (by omega)])

theorem fromUtf8Lossy_bytes (s : String) : fromUtf8Lossy (bytes s) = s := by
  rw [fromUtf8Lossy, bytes, Decoder.decode_flatMap run_utf8EncodeChar, String.ofList_toList]

end Utf8

end DogBot
