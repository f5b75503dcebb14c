import EthereumLogs.LogNormalizer
import EthereumLogs.Python.Digits

namespace EthereumLogs.LogNormalizer
open Python Effect

-- the texts that match ^0x[0-9a-fA-F]{64}$
structure HexWord where
  digits : Text
  hex : ∀ c ∈ digits, isHexDigit c = true
  length : digits.length = 64

def HexWord.text (w : HexWord) : Text := '0' :: 'x' :: w.digits

def HexWord.value (w : HexWord) : ℕ := hexValue w.digits

def uint256Hex (n : ℕ) : Text := '0' :: 'x' :: (Nat.toDigits 16 n).leftpad 64 '0'

def statusOf (v : ℕ) : Text :=
  if v ≤ decimal38Max then uint256StatusDecimal38Available else uint256StatusOutsideDecimal38Range

def wordResult (v : ℕ) : Uint256DecodeResult := ⟨some (decimalText v), statusOf v⟩

def notWord : Uint256DecodeResult := ⟨none, uint256StatusNotUint256Word⟩

variable {v : ℕ} {s digits : Text} {w : HexWord}

theorem statuses_ne : uint256StatusOutsideDecimal38Range ≠ uint256StatusDecimal38Available := by decide

theorem word_statuses_ne : uint256StatusDecimal38Available ≠ uint256StatusNotUint256Word ∧
    uint256StatusOutsideDecimal38Range ≠ uint256StatusNotUint256Word := by decide

theorem statusOf_available : statusOf v = uint256StatusDecimal38Available ↔ v ≤ decimal38Max := by
  rw [statusOf]
  by_cases h : v ≤ decimal38Max
  · rw [if_pos h]
    exact ⟨fun _ => h, fun _ => rfl⟩
  · rw [if_neg h]
    exact ⟨fun he => absurd he statuses_ne, fun hle => absurd hle h⟩

theorem statusOf_outside :
    statusOf v = uint256StatusOutsideDecimal38Range ↔ ¬ v ≤ decimal38Max := by
  rw [statusOf]
  by_cases h : v ≤ decimal38Max
  · rw [if_pos h]
    exact ⟨fun he => absurd he.symm statuses_ne, fun hnot => absurd h hnot⟩
  · rw [if_neg h]
    exact ⟨fun _ => h, fun _ => rfl⟩

theorem le_decimal38Max_iff : v ≤ decimal38Max ↔ (decimalText v).length ≤ 38 := by
  rw [length_decimalText_le_iff (by decide), decimal38Max]
  omega

theorem HexWord.ne_nil (w : HexWord) : w.digits ≠ [] := by
  intro h
  have := w.length
  simp [h] at this

theorem HexWord.value_lt (w : HexWord) : w.value < 2 ^ 256 := by
  have h := hexValue_lt w.digits
  rw [w.length] at h
  exact h.trans_eq (by decide)

theorem uint256Hex_value (w : HexWord) : uint256Hex w.value = lower w.text := by
  have h := leftpad_hexValue w.hex w.ne_nil
  rw [w.length] at h
  rw [uint256Hex, HexWord.value, h]
  rfl

def HexWord.lowered (w : HexWord) : HexWord where
  digits := lower w.digits
  hex := all_hexDigits_lower.mpr w.hex
  length := by rw [lower, List.length_map, w.length]

theorem HexWord.lowered_value (w : HexWord) : w.lowered.value = w.value := hexValue_lower _

theorem requiredHex_digits (h : ∀ c ∈ digits, isHexDigit c = true) :
    requiredHex (some ('0' :: 'x' :: digits)) = .ok (lower ('0' :: 'x' :: digits)) := by
  have hint : ∃ n, int16 (if digits = [] then ['0'] else digits) = .ok n := by
    split_ifs with hnil
    · exact ⟨0, rfl⟩
    · exact ⟨_, int16_hexDigits h hnil⟩
  obtain ⟨n, hn⟩ := hint
  change (int16 (if digits = [] then ['0'] else digits)).map _ = _
  rw [hn]
  rfl

theorem requiredHex_hexWord (w : HexWord) : requiredHex (some w.text) = .ok w.lowered.text :=
  requiredHex_digits w.hex

theorem isUint256Word_hexWord (w : HexWord) : isUint256Word w.text = true := by
  rw [isUint256Word, requiredHex_hexWord]
  have := w.lowered.length
  simp [HexWord.text, uint256WordHexLength, this]

theorem decode_hexWord (w : HexWord) :
    decodeUint256DataRaw (some w.text) = .ok (wordResult w.value) := by
  have hint : int16 w.lowered.text = .ok (w.value : Int) := by
    rw [← w.lowered_value]
    exact int16_prefixed w.lowered.hex w.lowered.ne_nil
  rw [decodeUint256DataRaw, requiredHex_hexWord]
  change (if isUint256Word w.lowered.text = true then _ else _) = _
  rw [if_pos (isUint256Word_hexWord w.lowered), hint]
  change Except.ok _ = _
  simp [wordResult, statusOf]

theorem requiredHex_prefixed {v : Option Text} {hex : Text} (h : requiredHex v = .ok hex) :
    startsWith0x hex = true := by
  unfold requiredHex at h
  split at h
  · split at h
    · rename_i hstarts
      cases hint : int16 _ with
      | error e =>
        rw [hint] at h
        cases h
      | ok n =>
        rw [hint] at h
        cases h
        obtain ⟨rest, rfl⟩ := List.isPrefixOf_iff_prefix.mp hstarts
        rfl
    · cases h
  · cases h

theorem int16_prefixed_nonneg {n : Int} (hs : startsWith0x s = true) (h : int16 s = .ok n) :
    0 ≤ n := by
  obtain ⟨rest, rfl⟩ := List.isPrefixOf_iff_prefix.mp hs
  have hmap : (['0', 'x'] ++ rest).map transformDecimalAndSpace =
      [] ++ '0' :: 'x' :: rest.map transformDecimalAndSpace := rfl
  unfold int16 intBase16 at h
  rw [signedInt_plain hmap (by simp [Spaces]) rfl] at h
  cases hu : unsignedBase16 ('0' :: 'x' :: rest.map transformDecimalAndSpace) with
  | none =>
    rw [hu] at h
    cases h
  | some m =>
    rw [hu] at h
    cases h
    exact Int.natCast_nonneg m

theorem decode_ok {data : Option Text} {decoded : Uint256DecodeResult}
    (h : decodeUint256DataRaw data = .ok decoded) :
    decoded = notWord ∨ ∃ v, decoded = wordResult v := by
  obtain ⟨hex, hhex, h⟩ := except_bind_ok h
  split_ifs at h with hword
  · obtain ⟨n, hn, h⟩ := except_bind_ok h
    have hnonneg := int16_prefixed_nonneg (requiredHex_prefixed hhex) hn
    lift n to ℕ using hnonneg
    cases h
    right
    exact ⟨n, by simp [wordResult, statusOf]⟩
  · cases h
    exact .inl rfl

end EthereumLogs.LogNormalizer
