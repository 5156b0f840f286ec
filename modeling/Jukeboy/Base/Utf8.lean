import Mathlib.Data.List.Basic

/-! # UTF-8 with replacement

Text as its characters: its UTF-8 encoding, and a decoder that never fails. What is no
character is replaced by U+FFFD, one for each maximal part of a sequence that could still
have become one. -/
namespace Jukeboy.Base.Utf8

/-- Text, as its characters. -/
abbrev Text := List Char

def encode (s : Text) : List UInt8 := s.flatMap String.utf8EncodeChar

/-- The character at the head of some bytes, if there is one. -/
def decodeChar (bytes : List UInt8) : Option Char := bytes.toByteArray.utf8DecodeChar? 0

def isContinuation (b : UInt8) : Bool := 0x80 ≤ b && b ≤ 0xBF

/-- Whether these two bytes start a character of three or four bytes. -/
def isPrefix (b0 b1 : UInt8) : Bool :=
  isContinuation b1 &&
    ((b0 == 0xE0 && 0xA0 ≤ b1) || (0xE1 ≤ b0 && b0 ≤ 0xEF && !(b0 == 0xED && 0xA0 ≤ b1)) ||
      (b0 == 0xF0 && 0x90 ≤ b1) || (0xF1 ≤ b0 && b0 ≤ 0xF3) || (b0 == 0xF4 && b1 ≤ 0x8F))

/-- How many bytes one U+FFFD stands for, at the head of bytes that start with no character. -/
def replacedLen : List UInt8 → Nat
  | b0 :: b1 :: rest =>
    if isPrefix b0 b1 then
      if 0xF0 ≤ b0 && (rest.head?.map isContinuation).getD false then 3 else 2
    else 1
  | _ => 1

def replacement : Char := '\uFFFD'

/-- The loop of the decoder; every turn consumes a byte. -/
def decodeFrom : Nat → List UInt8 → Text
  | 0, _ => []
  | _, [] => []
  | fuel + 1, bytes =>
    match decodeChar bytes with
    | some c => c :: decodeFrom fuel (bytes.drop c.utf8Size)
    | none => replacement :: decodeFrom fuel (bytes.drop (replacedLen bytes))

def decode (bytes : List UInt8) : Text := decodeFrom bytes.length bytes

@[simp] theorem encode_nil : encode [] = [] := rfl

@[simp] theorem encode_cons (c : Char) (s : Text) :
    encode (c :: s) = String.utf8EncodeChar c ++ encode s := rfl

theorem decodeChar_append (c : Char) (rest : List UInt8) :
    decodeChar (String.utf8EncodeChar c ++ rest) = some c := by
  rw [decodeChar, List.toByteArray_append]
  exact ByteArray.utf8DecodeChar?_utf8EncodeChar_append

theorem decodeFrom_encode {fuel : Nat} (s : Text) (h : (encode s).length ≤ fuel) :
    decodeFrom fuel (encode s) = s := by
  induction s generalizing fuel with
  | nil => cases fuel <;> rfl
  | cons c s ih =>
    have hlen : (String.utf8EncodeChar c).length = c.utf8Size := String.length_utf8EncodeChar c
    have hpos : 0 < c.utf8Size := c.utf8Size_pos
    rw [encode_cons, List.length_append, hlen] at h
    rw [encode_cons]
    obtain ⟨b, bytes, hbytes⟩ :
        ∃ b bytes, String.utf8EncodeChar c ++ encode s = b :: bytes :=
      List.exists_cons_of_ne_nil (by
        intro hnil
        have hzero := congrArg List.length hnil
        rw [List.length_append, hlen, List.length_nil] at hzero
        omega)
    cases fuel with
    | zero => omega
    | succ fuel =>
      have hdrop : (b :: bytes).drop c.utf8Size = encode s := by
        rw [← hbytes, List.drop_left' hlen]
      have hchar : decodeChar (b :: bytes) = some c := by rw [← hbytes, decodeChar_append]
      rw [hbytes, decodeFrom, hchar]
      · dsimp only
        rw [hdrop, ih (by omega)]
      · exact List.cons_ne_nil b bytes

/-- Decoding takes an encoding back. -/
theorem decode_encode (s : Text) : decode (encode s) = s :=
  decodeFrom_encode s (Nat.le_refl _)

example : decode [0x61, 0xE4, 0xBD, 0x62] = ['a', replacement, 'b'] := by decide +kernel

end Jukeboy.Base.Utf8
