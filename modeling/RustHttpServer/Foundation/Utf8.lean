import Mathlib.Data.List.Basic

/-!
# Byte strings and UTF-8 text

Text is a list of characters, and stands in memory and on the wire as the list of
bytes that UTF-8 encodes it to. Decoding inverts encoding (`decode_eq_ok_iff`),
and because no character's encoding begins another's, whatever follows a valid
text is decoded on its own (`decode_encode_append`).
-/

namespace Foundation

/-- A byte string. -/
abbrev Bytes := List UInt8

/-- A string of Unicode characters. -/
abbrev Text := List Char

namespace Utf8

/-- The bytes of a text. -/
def encode (text : Text) : Bytes := text.flatMap String.utf8EncodeChar

/-- The number of bytes of a text. -/
def byteLength (text : Text) : Nat := (encode text).length

@[simp] theorem encode_nil : encode [] = [] := rfl

@[simp] theorem encode_cons (char : Char) (text : Text) :
    encode (char :: text) = String.utf8EncodeChar char ++ encode text := rfl

@[simp] theorem encode_append (first second : Text) :
    encode (first ++ second) = encode first ++ encode second := List.flatMap_append

/-- Texts that follow each other are encoded one after the other. -/
theorem encode_flatten (texts : List Text) :
    encode texts.flatten = (texts.map encode).flatten := by
  induction texts with
  | nil => rfl
  | cons text texts ih =>
      rw [List.flatten_cons, encode_append, ih, List.map_cons, List.flatten_cons]

@[simp] theorem byteLength_nil : byteLength [] = 0 := rfl

@[simp] theorem byteLength_cons (char : Char) (text : Text) :
    byteLength (char :: text) = char.utf8Size + byteLength text := by
  rw [byteLength, encode_cons, List.length_append, String.length_utf8EncodeChar, byteLength]

@[simp] theorem byteLength_append (first second : Text) :
    byteLength (first ++ second) = byteLength first + byteLength second := by
  simp only [byteLength, encode_append, List.length_append]

@[simp] theorem length_encode (text : Text) : (encode text).length = byteLength text := rfl

/-- Every character takes at least one byte. -/
theorem length_le_byteLength (text : Text) : text.length ≤ byteLength text := by
  induction text with
  | nil => exact Nat.le_refl 0
  | cons char text ih =>
      have := char.utf8Size_pos
      rw [byteLength_cons, List.length_cons]
      omega

@[simp] theorem byteLength_eq_zero {text : Text} : byteLength text = 0 ↔ text = [] := by
  constructor
  · intro empty
    have := length_le_byteLength text
    exact List.length_eq_zero_iff.mp (by omega)
  · rintro rfl
    rfl

/-- Where and how a byte string fails to be UTF-8: the length of its longest valid
prefix, and the length of the invalid sequence after it, absent when the bytes
end inside a sequence. -/
structure Utf8Error where
  validUpTo : Nat
  errorLen : Option Nat
  deriving DecidableEq, Repr

/-- The ranges that the bytes after `lead` must lie in. -/
def continuations (lead : UInt8) : List (UInt8 × UInt8) :=
  if 0xC2 ≤ lead ∧ lead ≤ 0xDF then [(0x80, 0xBF)]
  else if lead = 0xE0 then [(0xA0, 0xBF), (0x80, 0xBF)]
  else if lead = 0xED then [(0x80, 0x9F), (0x80, 0xBF)]
  else if 0xE1 ≤ lead ∧ lead ≤ 0xEF then [(0x80, 0xBF), (0x80, 0xBF)]
  else if lead = 0xF0 then [(0x90, 0xBF), (0x80, 0xBF), (0x80, 0xBF)]
  else if 0xF1 ≤ lead ∧ lead ≤ 0xF3 then [(0x80, 0xBF), (0x80, 0xBF), (0x80, 0xBF)]
  else if lead = 0xF4 then [(0x80, 0x8F), (0x80, 0xBF), (0x80, 0xBF)]
  else []

/-- The length of an invalid sequence of which `seen` bytes have been read. -/
def invalidLength (seen : Nat) : List (UInt8 × UInt8) → Bytes → Option Nat
  | [], _ => some seen
  | _ :: _, [] => none
  | (low, high) :: ranges, byte :: bytes =>
      if low ≤ byte ∧ byte ≤ high then invalidLength (seen + 1) ranges bytes else some seen

/-- The error for bytes that start no character, `offset` bytes into the input. -/
def errorAt (offset : Nat) : Bytes → Utf8Error
  | [] => ⟨offset, none⟩
  | lead :: bytes => ⟨offset, invalidLength 1 (continuations lead) bytes⟩

/-- The character that some bytes start with. -/
def decodeChar? (bytes : Bytes) : Option Char := bytes.toByteArray.utf8DecodeChar? 0

/-- Decodes the bytes of an input from `offset` on. -/
def decodeFrom (offset : Nat) (bytes : Bytes) : Except Utf8Error Text :=
  if bytes = [] then .ok []
  else
    match decodeChar? bytes with
    | none => .error (errorAt offset bytes)
    | some char => do
        let text ← decodeFrom (offset + char.utf8Size) (bytes.drop char.utf8Size)
        return char :: text
termination_by bytes.length
decreasing_by
  rename_i nonempty
  have := List.length_pos_iff.mpr nonempty
  have := char.utf8Size_pos
  simp only [List.length_drop]
  omega

/-- Decodes a byte string. -/
def decode (bytes : Bytes) : Except Utf8Error Text := decodeFrom 0 bytes

private theorem decodeChar?_encode (char : Char) (bytes : Bytes) :
    decodeChar? (String.utf8EncodeChar char ++ bytes) = some char := by
  unfold decodeChar?
  rw [List.toByteArray_append]
  exact ByteArray.utf8DecodeChar?_utf8EncodeChar_append

/-- A decoded character is encoded by the bytes it was read from. -/
theorem exists_of_decodeChar?_eq_some {bytes : Bytes} {char : Char}
    (decoded : decodeChar? bytes = some char) :
    ∃ rest, bytes = String.utf8EncodeChar char ++ rest := by
  obtain ⟨rest, split⟩ := ByteArray.exists_of_utf8DecodeChar?_eq_some decoded
  refine ⟨rest.data.toList, ?_⟩
  have lists := congrArg (fun array : ByteArray => array.data.toList) split
  simpa using lists

/-- An encoded text in front is decoded. -/
private theorem decodeFrom_encode_append (offset : Nat) (text : Text) (bytes : Bytes) :
    decodeFrom offset (encode text ++ bytes) =
      (decodeFrom (offset + byteLength text) bytes).map (text ++ ·) := by
  induction text generalizing offset with
  | nil =>
      rw [encode_nil, List.nil_append, byteLength_nil, Nat.add_zero]
      cases decodeFrom offset bytes <;> rfl
  | cons char text ih =>
      have nonempty : encode (char :: text) ++ bytes ≠ [] := by
        intro empty
        have lengths := congrArg List.length empty
        have := char.utf8Size_pos
        simp only [encode_cons, List.append_assoc, List.length_append,
          String.length_utf8EncodeChar, List.length_nil] at lengths
        omega
      have dropped :
          (encode (char :: text) ++ bytes).drop char.utf8Size = encode text ++ bytes := by
        rw [encode_cons, List.append_assoc, ← String.length_utf8EncodeChar, List.drop_left]
      have decoded : decodeChar? (encode (char :: text) ++ bytes) = some char := by
        rw [encode_cons, List.append_assoc]
        exact decodeChar?_encode _ _
      rw [decodeFrom, if_neg nonempty, decoded]
      dsimp only
      rw [dropped, ih, byteLength_cons, Nat.add_assoc]
      cases decodeFrom (offset + (char.utf8Size + byteLength text)) bytes <;> rfl

/-- What is decoded has been encoded to these bytes. -/
private theorem encode_of_decodeFrom {offset : Nat} {bytes : Bytes} {text : Text}
    (decoded : decodeFrom offset bytes = .ok text) : encode text = bytes := by
  induction text generalizing offset bytes with
  | nil =>
      unfold decodeFrom at decoded
      split at decoded
      · next empty => exact empty.symm
      · split at decoded
        · cases decoded
        · next char _ =>
            cases rest : decodeFrom (offset + char.utf8Size) (bytes.drop char.utf8Size) <;>
              rw [rest] at decoded <;> cases decoded
  | cons first text ih =>
      unfold decodeFrom at decoded
      split at decoded
      · cases decoded
      · split at decoded
        · cases decoded
        · next char read =>
            cases rest : decodeFrom (offset + char.utf8Size) (bytes.drop char.utf8Size) with
            | error error => rw [rest] at decoded; cases decoded
            | ok tail =>
                rw [rest] at decoded
                cases decoded
                obtain ⟨remaining, split⟩ := exists_of_decodeChar?_eq_some read
                have dropped : bytes.drop first.utf8Size = remaining := by
                  rw [split, ← String.length_utf8EncodeChar, List.drop_left]
                rw [encode_cons, ih rest, dropped, split]

/-- What has been encoded can be decoded. -/
@[simp] theorem decode_encode (text : Text) : decode (encode text) = .ok text := by
  have appended := decodeFrom_encode_append 0 text []
  rw [List.append_nil] at appended
  rw [decode, appended, decodeFrom, if_pos rfl]
  exact congrArg Except.ok (List.append_nil text)

/-- Decoding inverts encoding. -/
theorem decode_eq_ok_iff {bytes : Bytes} {text : Text} :
    decode bytes = .ok text ↔ bytes = encode text := by
  constructor
  · exact fun decoded => (encode_of_decodeFrom decoded).symm
  · rintro rfl
    exact decode_encode text

/-- Different texts have different encodings. -/
theorem encode_injective : Function.Injective encode := by
  intro first second same
  have decoded := decode_encode first
  rw [same, decode_encode] at decoded
  exact (Except.ok.inj decoded).symm

/-- After a valid text, the rest of a byte string is valid on its own or not at
all. -/
theorem decode_encode_append (text : Text) (bytes : Bytes) :
    (∃ rest, decode bytes = .ok rest ∧ decode (encode text ++ bytes) = .ok (text ++ rest)) ∨
      (∃ alone together, decode bytes = .error alone ∧
        decode (encode text ++ bytes) = .error together) := by
  cases alone : decode bytes with
  | ok rest =>
      refine Or.inl ⟨rest, rfl, ?_⟩
      rw [decode_eq_ok_iff.mp alone, ← encode_append, decode_encode]
  | error error =>
      refine Or.inr ⟨error, ?_⟩
      cases together : decode (encode text ++ bytes) with
      | error error => exact ⟨error, rfl, rfl⟩
      | ok whole =>
          -- The suffix of a valid string after a valid prefix would be valid.
          exfalso
          have shifted := decodeFrom_encode_append 0 text bytes
          change decode (encode text ++ bytes) = _ at shifted
          rw [together] at shifted
          cases rest : decodeFrom (0 + byteLength text) bytes with
          | error error => rw [rest] at shifted; cases shifted
          | ok tail =>
              have valid := decode_encode tail
              rw [encode_of_decodeFrom rest, alone] at valid
              cases valid

/-- A text that begins with another in bytes begins with it in characters. -/
theorem exists_of_encode_prefix {whole first : Text} {rest : Bytes}
    (same : encode whole = encode first ++ rest) :
    ∃ second, rest = encode second ∧ whole = first ++ second := by
  have decoded := decode_encode whole
  rw [same] at decoded
  rcases decode_encode_append first rest with ⟨second, valid, -⟩ | ⟨_, _, _, invalid⟩
  · have written := decode_eq_ok_iff.mp valid
    refine ⟨second, written, encode_injective ?_⟩
    rw [same, written, encode_append]
  · rw [decoded] at invalid
    cases invalid

/-- Every byte of a character is the character itself, if that is ASCII, or at least 128. -/
theorem eq_or_ge_of_mem_utf8EncodeChar {char : Char} {byte : UInt8}
    (inside : byte ∈ String.utf8EncodeChar char) :
    (char.toNat = byte.toNat ∧ byte.toNat < 128) ∨ 128 ≤ byte.toNat := by
  simp only [String.utf8EncodeChar] at inside
  split at inside
  · next ascii =>
      obtain rfl := List.mem_singleton.mp inside
      have small : char.toNat % 2 ^ 8 = char.toNat :=
        Nat.mod_eq_of_lt (Nat.lt_of_le_of_lt ascii (by decide))
      refine .inl ?_
      rw [UInt8.toNat_ofNat']
      change char.toNat = char.toNat % 2 ^ 8 ∧ char.toNat % 2 ^ 8 < 128
      rw [small]
      exact ⟨rfl, Nat.lt_succ_of_le ascii⟩
  · refine .inr ?_
    split at inside
    · simp only [List.mem_cons, List.not_mem_nil, or_false] at inside
      rcases inside with rfl | rfl <;> rw [UInt8.toNat_ofNat'] <;> omega
    · split at inside
      · simp only [List.mem_cons, List.not_mem_nil, or_false] at inside
        rcases inside with rfl | rfl | rfl <;> rw [UInt8.toNat_ofNat'] <;> omega
      · simp only [List.mem_cons, List.not_mem_nil, or_false] at inside
        rcases inside with rfl | rfl | rfl | rfl <;> rw [UInt8.toNat_ofNat'] <;> omega

/-- An ASCII character stands in the bytes of a text only where it stands in the text. -/
theorem mem_of_mem_encode {char : Char} {text : Text} {byte : UInt8}
    (same : char.toNat = byte.toNat) (ascii : byte.toNat < 128) (inside : byte ∈ encode text) :
    char ∈ text := by
  rw [encode, List.mem_flatMap] at inside
  obtain ⟨other, member, inside⟩ := inside
  rcases eq_or_ge_of_mem_utf8EncodeChar inside with ⟨equal, _⟩ | large
  · have : char = other := Char.toNat_inj.mp (same.trans equal.symm)
    rwa [this]
  · omega

end Utf8

end Foundation
