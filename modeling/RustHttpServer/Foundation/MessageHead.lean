import Mathlib.Algebra.Group.Nat.Defs
import RustHttpServer.Foundation.ChunkedCoding

/-!
# Message heads

The head of a message is lines up to the first empty one; a header line is a name, a
colon and a space, and a value. `readHead` and `fieldValues` are how a reader takes a
message apart, and lines without line breaks are read back as they were written
(`readHead_lines`).

What follows the head is framed by it: by a length, or by the chunked coding
(`Framed`), and taken from the message by it (`payload`).
-/

namespace Foundation

open Utf8

/-- The lines before the first empty line, and what follows that line. -/
def readHead (bytes : Bytes) : Option (List Bytes × Bytes) :=
  match _line : splitOnce bytes lineBreak with
  | none => none
  | some ([], rest) => some ([], rest)
  | some (byte :: line, rest) =>
      (readHead rest).map fun (lines, rest) => ((byte :: line) :: lines, rest)
termination_by bytes.length
decreasing_by
  have cut := splitOnce_length _line
  simp only [lineBreak, List.length_cons, List.length_nil] at cut
  omega

private theorem splitOnce_lineBreak {line rest : Bytes} (unbroken : 10 ∉ line) :
    splitOnce (line ++ lineBreak ++ rest) lineBreak = some (line, rest) := by
  refine (splitOnce_pair_iff (by decide)).mpr ⟨?_, fun inside => ?_⟩
  · simp only [lineBreak, List.append_assoc, List.cons_append, List.nil_append]
  · exact unbroken (inside.subset (List.mem_cons_of_mem _ List.mem_cons_self))

private theorem readHead_blank (rest : Bytes) : readHead (lineBreak ++ rest) = some ([], rest) := by
  have found : splitOnce (lineBreak ++ rest) lineBreak = some ([], rest) :=
    splitOnce_lineBreak List.not_mem_nil
  unfold readHead
  split
  · next absent => rw [found] at absent; cases absent
  · next found' => rw [found] at found'; cases found'; rfl
  · next found' => rw [found] at found'; cases found'

private theorem readHead_line {line : Bytes} (nonempty : line ≠ []) (unbroken : 10 ∉ line)
    (rest : Bytes) : readHead (line ++ lineBreak ++ rest) =
      (readHead rest).map fun (lines, rest) => (line :: lines, rest) := by
  have found : splitOnce (line ++ lineBreak ++ rest) lineBreak = some (line, rest) :=
    splitOnce_lineBreak unbroken
  rw [readHead]
  split
  · next absent => rw [found] at absent; cases absent
  · next found' => rw [found] at found'; cases found'; exact absurd rfl nonempty
  · next found' => rw [found] at found'; cases found'; rfl

/-- Lines that are not empty and contain no line break are read back. -/
theorem readHead_lines (lines : List Bytes) (nonempty : ∀ line ∈ lines, line ≠ [])
    (unbroken : ∀ line ∈ lines, 10 ∉ line) (rest : Bytes) :
    readHead (lines.flatMap (· ++ lineBreak) ++ (lineBreak ++ rest)) = some (lines, rest) := by
  induction lines with
  | nil => exact readHead_blank rest
  | cons line lines ih =>
      rw [List.flatMap_cons, List.append_assoc,
        readHead_line (nonempty line List.mem_cons_self) (unbroken line List.mem_cons_self),
        ih (fun other inside => nonempty other (List.mem_cons_of_mem line inside))
          fun other inside => unbroken other (List.mem_cons_of_mem line inside)]
      rfl

/-- What stands between the name and the value of a header line. -/
def colon : Bytes := [58, 32]

/-- The value of a header line, if it has a name. -/
def fieldValue? (name : Bytes) (line : Bytes) : Option Bytes :=
  (splitOnce line colon).bind fun (found, value) => if found = name then some value else none

/-- The values of the header lines with a name. -/
def fieldValues (name : Bytes) (lines : List Bytes) : List Bytes :=
  lines.filterMap (fieldValue? name)

/-- A line has the value of its own field and of no other. -/
theorem fieldValue?_line {name value : Bytes} (proper : 58 ∉ name) (sought : Bytes) :
    fieldValue? sought (name ++ colon ++ value) = if name = sought then some value else none := by
  have found : splitOnce (name ++ colon ++ value) colon = some (name, value) := by
    refine (splitOnce_pair_iff (by decide)).mpr ⟨?_, fun inside => ?_⟩
    · simp only [colon, List.append_assoc, List.cons_append, List.nil_append]
    · exact proper (inside.subset List.mem_cons_self)
  rw [fieldValue?, found, Option.bind_some]

/-- The message ends where its head says: either the head gives a length, and that many
bytes follow, or it announces the chunked coding, and one chunked body follows. -/
def Framed (message : Bytes) : Prop :=
  ∃ startLine lines rest, readHead message = some (startLine :: lines, rest) ∧
    ((fieldValues (encode "Content-Length".toList) lines = [encode (Text.decimal rest.length)] ∧
        fieldValues (encode "Transfer-Encoding".toList) lines = []) ∨
      (fieldValues (encode "Content-Length".toList) lines = [] ∧
        fieldValues (encode "Transfer-Encoding".toList) lines = [encode "chunked".toList] ∧
        ∃ body, readChunks rest = some (body, [])))

/-- Reads a length, of at most 64 bits. -/
def readLength (bytes : Bytes) : Option Nat :=
  (decode bytes).toOption.bind fun text => (text.parseUnsigned (2 ^ 64)).toOption

/-- What a reader takes from a message that follows its head: what the chunked coding
carries, if the head announces that, or else as many bytes as it says. -/
def payload (message : Bytes) : Option Bytes :=
  match readHead message with
  | some (_ :: lines, rest) =>
      if fieldValues (encode "Transfer-Encoding".toList) lines = [encode "chunked".toList] then
        (readChunks rest).map Prod.fst
      else
        match fieldValues (encode "Content-Length".toList) lines with
        | [value] => (readLength value).bind fun length =>
            if length ≤ rest.length then some (rest.take length) else none
        | _ => none
  | _ => none

/-- A length that fits is read from its digits. -/
theorem readLength_decimal {length : Nat} (bounded : length < 2 ^ 64) :
    readLength (encode (Text.decimal length)) = some length := by
  rw [readLength, decode_encode]
  dsimp only [Except.toOption]
  rw [Option.bind_some, Text.parseUnsigned_decimal, if_pos bounded]

end Foundation
