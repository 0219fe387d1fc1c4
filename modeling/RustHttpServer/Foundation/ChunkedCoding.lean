import RustHttpServer.Foundation.Scan

/-!
# The chunked transfer coding

A body in chunks, each with its size in hexadecimal, and a last chunk of size zero.
`readChunks` is the standard reader; `chunksExact` cuts a body into chunks of one
size and a shorter remainder. What is written chunk by chunk is read back as the
body that was cut (`readChunks_flatMap`).
-/

namespace Foundation

open Utf8

/-- The line break of the coding. -/
def lineBreak : Bytes := [13, 10]

/-- The value of a hexadecimal digit, in either case. -/
def hexDigit? (byte : UInt8) : Option Nat :=
  if 48 ≤ byte ∧ byte ≤ 57 then some (byte.toNat - 48)
  else if 97 ≤ byte ∧ byte ≤ 102 then some (byte.toNat - 87)
  else if 65 ≤ byte ∧ byte ≤ 70 then some (byte.toNat - 55)
  else none

/-- Reads hexadecimal digits after those whose value is `value`. -/
def readHexDigits (value : Nat) : Bytes → Option Nat
  | [] => some value
  | byte :: bytes => (hexDigit? byte).bind fun digit => readHexDigits (value * 16 + digit) bytes

/-- Reads the size of a chunk. -/
def readHex : Bytes → Option Nat
  | [] => none
  | bytes => readHexDigits 0 bytes

private theorem readHexDigits_append (value : Nat) (first second : Bytes) :
    readHexDigits value (first ++ second) =
      (readHexDigits value first).bind fun value => readHexDigits value second := by
  induction first generalizing value with
  | nil => rfl
  | cons byte bytes ih =>
      rw [List.cons_append, readHexDigits, readHexDigits]
      cases hexDigit? byte with
      | none => rfl
      | some digit => exact ih _

/-- The byte of a hexadecimal digit. -/
def hexByte (digit : Nat) : UInt8 := (Nat.digitChar digit).toNat.toUInt8

private theorem hexByte_spec : ∀ digit < 16,
    String.utf8EncodeChar (Nat.digitChar digit) = [hexByte digit] ∧
      hexDigit? (hexByte digit) = some digit ∧ hexByte digit ≠ 13 := by
  decide

private theorem hexadecimal_eq (number : Nat) : Text.hexadecimal number =
    if number < 16 then [Nat.digitChar number]
    else Text.hexadecimal (number / 16) ++ [Nat.digitChar (number % 16)] :=
  Nat.toDigits_eq_if (by decide)

/-- A number written in hexadecimal is read back, and its digits contain no line break. -/
theorem readHexDigits_hexadecimal (number : Nat) :
    readHexDigits 0 (encode (Text.hexadecimal number)) = some number ∧
      13 ∉ encode (Text.hexadecimal number) ∧ encode (Text.hexadecimal number) ≠ [] := by
  induction number using Nat.strong_induction_on with
  | h number ih =>
    rw [hexadecimal_eq]
    by_cases small : number < 16
    · obtain ⟨encoded, value, distinct⟩ := hexByte_spec number small
      rw [if_pos small, encode_cons, encoded, encode_nil]
      refine ⟨?_, ?_, List.cons_ne_nil _ _⟩
      · rw [List.append_nil, readHexDigits, value]
        simp only [Option.bind_some, readHexDigits, Nat.zero_mul, Nat.zero_add]
      · rw [List.append_nil, List.mem_singleton]
        exact distinct.symm
    · obtain ⟨encoded, value, distinct⟩ :=
        hexByte_spec (number % 16) (Nat.mod_lt _ (by decide))
      obtain ⟨read, absent, _⟩ := ih (number / 16) (by omega)
      rw [if_neg small, encode_append, encode_cons, encoded, encode_nil, List.append_nil]
      refine ⟨?_, ?_, List.append_ne_nil_of_right_ne_nil _ (List.cons_ne_nil _ _)⟩
      · rw [readHexDigits_append, read, Option.bind_some, readHexDigits, value]
        simp only [Option.bind_some, readHexDigits, Option.some.injEq]
        omega
      · rw [List.mem_append, List.mem_singleton, not_or]
        exact ⟨absent, distinct.symm⟩

private theorem readHex_hexadecimal (number : Nat) :
    readHex (encode (Text.hexadecimal number)) = some number := by
  obtain ⟨read, _, nonempty⟩ := readHexDigits_hexadecimal number
  rw [readHex]
  · exact read
  · exact nonempty

/-- Reads a chunked body: what it carries, and the bytes behind it. -/
def readChunks (bytes : Bytes) : Option (Bytes × Bytes) :=
  match _line : splitOnce bytes lineBreak with
  | none => none
  | some (size, rest) =>
      match readHex size with
      | none => none
      | some 0 => (rest.dropPrefix? lineBreak).map fun behind => ([], behind)
      | some (size + 1) =>
          if rest.length < size + 1 then none
          else
            match _behind : (rest.drop (size + 1)).dropPrefix? lineBreak with
            | none => none
            | some chunks => (readChunks chunks).map fun (body, behind) =>
                (rest.take (size + 1) ++ body, behind)
termination_by bytes.length
decreasing_by
  have cut := splitOnce_length _line
  have behind := congrArg List.length (dropPrefix?_eq_some_iff_append.mp _behind)
  simp only [List.length_drop, List.length_append, lineBreak, List.length_cons,
    List.length_nil] at cut behind
  omega

/-- One chunk, as it is written. -/
def chunkBytes (chunk : Bytes) : Bytes :=
  encode (Text.hexadecimal chunk.length) ++ lineBreak ++ chunk ++ lineBreak

private theorem splitOnce_chunkBytes (chunk behind : Bytes) :
    splitOnce (chunkBytes chunk ++ behind) lineBreak =
      some (encode (Text.hexadecimal chunk.length), chunk ++ (lineBreak ++ behind)) := by
  refine (splitOnce_pair_iff (by decide)).mpr ⟨?_, fun inside => ?_⟩
  · simp only [chunkBytes, lineBreak, List.append_assoc, List.cons_append, List.nil_append]
  · exact (readHexDigits_hexadecimal chunk.length).2.1 (inside.subset List.mem_cons_self)

private theorem readChunks_last (behind : Bytes) :
    readChunks (chunkBytes [] ++ behind) = some ([], behind) := by
  unfold readChunks
  split
  · next absent => rw [splitOnce_chunkBytes] at absent; cases absent
  · next size rest found =>
      rw [splitOnce_chunkBytes] at found
      cases found
      rw [readHex_hexadecimal]
      change ((lineBreak ++ behind).dropPrefix? lineBreak).map _ = _
      rw [dropPrefix?_eq_some_iff_append.mpr rfl]
      rfl

/-- A chunk is read, and then what stands behind it. -/
private theorem readChunks_chunk {chunk : Bytes} (nonempty : chunk ≠ []) (behind : Bytes) :
    readChunks (chunkBytes chunk ++ behind) =
      (readChunks behind).map fun (body, behind) => (chunk ++ body, behind) := by
  obtain ⟨size, length⟩ := Nat.exists_eq_succ_of_ne_zero
    (Nat.ne_of_gt (List.length_pos_iff.mpr nonempty))
  rw [readChunks]
  split
  · next absent => rw [splitOnce_chunkBytes] at absent; cases absent
  · next found =>
      rw [splitOnce_chunkBytes] at found
      cases found
      have taken : (chunk ++ (lineBreak ++ behind)).take (size + 1) = chunk := by
        rw [← Nat.succ_eq_add_one, ← length, List.take_left]
      have dropped : (chunk ++ (lineBreak ++ behind)).drop (size + 1) = lineBreak ++ behind := by
        rw [← Nat.succ_eq_add_one, ← length, List.drop_left]
      have enough : ¬ (chunk ++ (lineBreak ++ behind)).length < size + 1 := by
        rw [List.length_append]
        omega
      rw [readHex_hexadecimal, length]
      dsimp only
      rw [if_neg enough]
      split
      · next absent =>
          rw [dropped, dropPrefix?_eq_some_iff_append.mpr rfl] at absent
          cases absent
      · next rest stripped =>
          rw [dropped, dropPrefix?_eq_some_iff_append.mpr rfl] at stripped
          cases stripped
          rw [taken]

/-- Chunks that are not empty, and the last chunk, are read back. -/
theorem readChunks_flatMap (chunks : List Bytes) (nonempty : ∀ chunk ∈ chunks, chunk ≠ [])
    (behind : Bytes) :
    readChunks (chunks.flatMap chunkBytes ++ (chunkBytes [] ++ behind)) =
      some (chunks.flatten, behind) := by
  induction chunks with
  | nil => exact readChunks_last behind
  | cons chunk chunks ih =>
      rw [List.flatMap_cons, List.append_assoc,
        readChunks_chunk (nonempty chunk List.mem_cons_self),
        ih fun other inside => nonempty other (List.mem_cons_of_mem chunk inside)]
      rfl

/-- The coding of a body takes up more than the body, by the last chunk at least. -/
theorem length_of_readChunks {bytes body behind : Bytes}
    (read : readChunks bytes = some (body, behind)) : body.length + 5 ≤ bytes.length := by
  induction whole : bytes.length using Nat.strong_induction_on generalizing bytes body with
  | h length ih =>
    rw [readChunks] at read
    split at read
    · cases read
    · next digits rest found =>
        have cut := splitOnce_length found
        simp only [lineBreak, List.length_cons, List.length_nil] at cut
        split at read
        · cases read
        · next zero =>
            have written : digits ≠ [] := by
              rintro rfl
              cases zero
            have digit := List.length_pos_iff.mpr written
            obtain ⟨rest', stripped, same⟩ := Option.map_eq_some_iff.mp read
            cases same
            have ended := congrArg List.length (dropPrefix?_eq_some_iff_append.mp stripped)
            simp only [lineBreak, List.length_append, List.length_cons, List.length_nil] at ended ⊢
            omega
        · next size _ =>
            split at read
            · cases read
            · next enough =>
                split at read
                · cases read
                · next chunks stripped =>
                    obtain ⟨⟨more, behind'⟩, read, same⟩ := Option.map_eq_some_iff.mp read
                    cases same
                    have ended := congrArg List.length (dropPrefix?_eq_some_iff_append.mp stripped)
                    simp only [lineBreak, List.length_drop, List.length_append, List.length_cons,
                      List.length_nil] at ended
                    have later := ih _ (by omega) read rfl
                    rw [List.length_append, List.length_take]
                    omega
/-- The chunks of one size that bytes are cut into, and the remainder. -/
def chunksExact (size : Nat) (positive : 0 < size) (bytes : Bytes) : List Bytes × Bytes :=
  if bytes.length < size then ([], bytes)
  else
    let (chunks, remainder) := chunksExact size positive (bytes.drop size)
    (bytes.take size :: chunks, remainder)
termination_by bytes.length
decreasing_by
  simp only [List.length_drop]
  omega

/-- Cutting loses nothing, and every chunk has the size. -/
theorem chunksExact_spec (size : Nat) (positive : 0 < size) (bytes : Bytes) :
    (chunksExact size positive bytes).1.flatten ++ (chunksExact size positive bytes).2 = bytes ∧
      ∀ chunk ∈ (chunksExact size positive bytes).1, chunk.length = size := by
  induction bytes using chunksExact.induct size positive with
  | case1 bytes short =>
      rw [chunksExact, if_pos short]
      exact ⟨rfl, List.forall_mem_nil _⟩
  | case2 bytes long chunks remainder cut ih =>
      rw [chunksExact, if_neg long]
      rw [cut] at ih ⊢
      refine ⟨?_, ?_⟩
      · simp only [List.flatten_cons, List.append_assoc, ih.1, List.take_append_drop]
      · refine List.forall_mem_cons.mpr ⟨?_, ih.2⟩
        rw [List.length_take]
        omega

end Foundation
