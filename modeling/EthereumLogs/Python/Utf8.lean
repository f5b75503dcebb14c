import EthereumLogs.Python.Text
import Mathlib.Algebra.Group.Nat.Defs

namespace EthereumLogs.Python

def replacementCharacter : Char := Char.ofNat 0xfffd

-- the bytes a started sequence still needs and the range of its next one
structure Utf8Pending where
  code : ℕ
  needed : ℕ
  low : ℕ
  high : ℕ
deriving DecidableEq, Repr

inductive Utf8Start where
  | char (c : Char)
  | pending (p : Utf8Pending)
  | invalid

def utf8Start (b : ℕ) : Utf8Start :=
  if b ≤ 0x7f then .char (Char.ofNat b)
  else if 0xc2 ≤ b ∧ b ≤ 0xdf then .pending ⟨b - 0xc0, 1, 0x80, 0xbf⟩
  else if b = 0xe0 then .pending ⟨0, 2, 0xa0, 0xbf⟩
  else if b = 0xed then .pending ⟨0xd, 2, 0x80, 0x9f⟩
  else if 0xe1 ≤ b ∧ b ≤ 0xef then .pending ⟨b - 0xe0, 2, 0x80, 0xbf⟩
  else if b = 0xf0 then .pending ⟨0, 3, 0x90, 0xbf⟩
  else if 0xf1 ≤ b ∧ b ≤ 0xf3 then .pending ⟨b - 0xf0, 3, 0x80, 0xbf⟩
  else if b = 0xf4 then .pending ⟨4, 3, 0x80, 0x8f⟩
  else .invalid

-- bytes.decode("utf-8", errors="replace"): one replacement for each maximal ill-formed part
def decodeFrom : Option Utf8Pending → List UInt8 → Text
  | none, [] => []
  | some _, [] => [replacementCharacter]
  | none, b :: bs =>
    match utf8Start b.toNat with
    | .char c => c :: decodeFrom none bs
    | .pending p => decodeFrom (some p) bs
    | .invalid => replacementCharacter :: decodeFrom none bs
  | some p, b :: bs =>
    if p.low ≤ b.toNat ∧ b.toNat ≤ p.high then
      if p.needed = 1 then Char.ofNat (p.code * 64 + (b.toNat - 0x80)) :: decodeFrom none bs
      else decodeFrom (some ⟨p.code * 64 + (b.toNat - 0x80), p.needed - 1, 0x80, 0xbf⟩) bs
    else
      replacementCharacter ::
        match utf8Start b.toNat with
        | .char c => c :: decodeFrom none bs
        | .pending q => decodeFrom (some q) bs
        | .invalid => replacementCharacter :: decodeFrom none bs

def decodeUtf8 (bytes : List UInt8) : Text := decodeFrom none bytes

example : decodeUtf8 [0x61, 0xe2, 0x82, 0xac, 0xff, 0xe2, 0x82, 0x62] =
    "a€\ufffd\ufffdb".toList := by decide

end EthereumLogs.Python
