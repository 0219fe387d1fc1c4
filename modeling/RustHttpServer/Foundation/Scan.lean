import Mathlib.Data.List.DropRight
import RustHttpServer.Foundation.Outcome
import RustHttpServer.Foundation.Search
import RustHttpServer.Foundation.Utf8

/-!
# Scanning text

Cutting and trimming text, and reading numbers from it. Positions in a text are byte
offsets, as in its encoding; cutting a text at an offset that is not the boundary of
a character, or lies past its end, aborts (`sliceTo`, `sliceFrom`).
-/

namespace Foundation

namespace Text

open Utf8

/-- The byte offset of the first occurrence of a pattern. -/
def find (text pattern : Text) : Option Nat :=
  (splitOnce text pattern).map fun (before, _) => byteLength before

/-- A text cut at a byte offset, if that is the boundary of a character. -/
def splitAt? : Text → Nat → Option (Text × Text)
  | text, 0 => some ([], text)
  | [], _ + 1 => none
  | char :: text, offset + 1 =>
      if char.utf8Size ≤ offset + 1 then
        (splitAt? text (offset + 1 - char.utf8Size)).map fun (before, after) =>
          (char :: before, after)
      else none

/-- A text can be cut at an offset exactly when some prefix takes that many
bytes. -/
theorem splitAt?_eq_some_iff {text before after : Text} {offset : Nat} :
    splitAt? text offset = some (before, after) ↔
      text = before ++ after ∧ byteLength before = offset := by
  induction text generalizing offset before after with
  | nil =>
      cases offset with
      | zero =>
          simp only [splitAt?, Option.some.injEq, Prod.mk.injEq, byteLength_eq_zero]
          constructor
          · rintro ⟨rfl, rfl⟩
            exact ⟨rfl, rfl⟩
          · rintro ⟨whole, rfl⟩
            exact ⟨rfl, whole⟩
      | succ offset =>
          simp only [splitAt?, reduceCtorEq, false_iff, not_and]
          intro whole
          rw [(List.append_eq_nil_iff.mp whole.symm).1]
          simp
  | cons char text ih =>
      cases offset with
      | zero =>
          simp only [splitAt?, Option.some.injEq, Prod.mk.injEq, byteLength_eq_zero]
          constructor
          · rintro ⟨rfl, rfl⟩
            exact ⟨rfl, rfl⟩
          · rintro ⟨whole, rfl⟩
            exact ⟨rfl, whole⟩
      | succ offset =>
          unfold splitAt?
          have size := char.utf8Size_pos
          by_cases fits : char.utf8Size ≤ offset + 1
          · simp only [if_pos fits, Option.map_eq_some_iff, Prod.exists, Prod.mk.injEq, ih]
            constructor
            · rintro ⟨inner, _, ⟨rfl, length⟩, rfl, rfl⟩
              exact ⟨rfl, by rw [byteLength_cons]; omega⟩
            · rintro ⟨whole, length⟩
              cases before with
              | nil => cases length
              | cons head inner =>
                  rw [List.cons_append, List.cons.injEq] at whole
                  obtain ⟨rfl, rfl⟩ := whole
                  rw [byteLength_cons] at length
                  exact ⟨inner, after, ⟨rfl, by omega⟩, rfl, rfl⟩
          · simp only [if_neg fits, reduceCtorEq, false_iff, not_and]
            intro whole length
            cases before with
            | nil => cases length
            | cons head inner =>
                rw [List.cons_append, List.cons.injEq] at whole
                obtain ⟨rfl, rfl⟩ := whole
                rw [byteLength_cons] at length
                omega

/-- A text can be cut behind any text that it begins with. -/
@[simp] theorem splitAt?_byteLength (before after : Text) :
    splitAt? (before ++ after) (byteLength before) = some (before, after) :=
  splitAt?_eq_some_iff.mpr ⟨rfl, rfl⟩

variable {ε : Type}

/-- The text before a byte offset. -/
def sliceTo (text : Text) (offset : Nat) : Outcome ε Text :=
  Outcome.unwrap ((splitAt? text offset).map Prod.fst)

/-- The text from a byte offset on. -/
def sliceFrom (text : Text) (offset : Nat) : Outcome ε Text :=
  Outcome.unwrap ((splitAt? text offset).map Prod.snd)

/-- The slice up to where a leading text ends is that text. -/
@[simp] theorem sliceTo_byteLength (before after : Text) :
    (sliceTo (before ++ after) (byteLength before) : Outcome ε Text) = .ok before := by
  simp only [sliceTo, splitAt?_byteLength, Option.map_some, Outcome.unwrap_some]

/-- The slice from where a leading text ends is what follows it. -/
@[simp] theorem sliceFrom_byteLength (before after : Text) :
    (sliceFrom (before ++ after) (byteLength before) : Outcome ε Text) = .ok after := by
  simp only [sliceFrom, splitAt?_byteLength, Option.map_some, Outcome.unwrap_some]

/-- The Unicode property `White_Space`. -/
def isWhitespace (char : Char) : Bool :=
  let code := char.toNat
  (0x09 ≤ code && code ≤ 0x0D) || code == 0x20 || code == 0x85 || code == 0xA0 || code == 0x1680 ||
    (0x2000 ≤ code && code ≤ 0x200A) || code == 0x2028 || code == 0x2029 || code == 0x202F ||
    code == 0x205F || code == 0x3000

/-- A text without its leading and trailing whitespace. -/
def trim (text : Text) : Text := (text.dropWhile isWhitespace).rdropWhile isWhitespace

/-- Trimming adds nothing. -/
theorem mem_of_mem_trim {char : Char} {text : Text} (inside : char ∈ trim text) : char ∈ text :=
  (List.dropWhile_sublist _).subset ((List.rdropWhile_prefix _ _).subset inside)

/-- Why a text is not a number. -/
inductive ParseIntError
  | empty
  | invalidDigit
  | posOverflow
  deriving DecidableEq, Repr

/-- The value of a decimal digit. -/
def digit? (char : Char) : Option Nat :=
  if '0' ≤ char ∧ char ≤ '9' then some (char.toNat - '0'.toNat) else none

/-- Reads decimal digits after those whose value is `value`. -/
def parseDigits (bound : Nat) (value : Nat) : Text → Except ParseIntError Nat
  | [] => .ok value
  | char :: text =>
      match digit? char with
      | none => .error .invalidDigit
      | some digit =>
          if value * 10 + digit < bound then parseDigits bound (value * 10 + digit) text
          else .error .posOverflow

/-- Reads an unsigned number below `bound`: digits, with an optional plus sign. -/
def parseUnsigned (bound : Nat) : Text → Except ParseIntError Nat
  | [] => .error .empty
  | ['+'] => .error .invalidDigit
  | ['-'] => .error .invalidDigit
  | '+' :: digits => parseDigits bound 0 digits
  | digits => parseDigits bound 0 digits

/-- A number in decimal. -/
def decimal (number : Nat) : Text := Nat.toDigits 10 number

/-- A number in hexadecimal, in lower case. -/
def hexadecimal (number : Nat) : Text := Nat.toDigits 16 number

/-- Digits behind others are parsed from the value of these. -/
private theorem parseDigits_append (bound value : Nat) (first second : Text) :
    parseDigits bound value (first ++ second) =
      parseDigits bound value first >>= fun value => parseDigits bound value second := by
  induction first generalizing value with
  | nil => rfl
  | cons char text ih =>
      rw [List.cons_append, parseDigits, parseDigits]
      cases digit? char with
      | none => rfl
      | some digit =>
          dsimp only
          split
          · exact ih _
          · rfl

/-- The digits of a number are those of its tenth, and the last one. -/
theorem decimal_eq (number : Nat) : decimal number =
    if number < 10 then [Nat.digitChar number]
    else decimal (number / 10) ++ [Nat.digitChar (number % 10)] :=
  Nat.toDigits_eq_if (by decide)

/-- Every digit is read back. -/
theorem digit?_digitChar : ∀ digit < 10, digit? (Nat.digitChar digit) = some digit := by decide

/-- A character is read as the digit that it is written for. -/
theorem digit?_eq_some_iff {char : Char} {digit : Nat} :
    digit? char = some digit ↔ digit < 10 ∧ Nat.digitChar digit = char := by
  constructor
  · intro read
    unfold digit? at read
    split at read
    · next range =>
        have lower : 48 ≤ char.toNat := range.1
        have upper : char.toNat ≤ 57 := range.2
        obtain rfl : char.toNat - 48 = digit := Option.some.inj read
        refine ⟨by omega, Char.toNat_inj.mp ?_⟩
        rw [Nat.toNat_digitChar_of_lt_ten (by omega)]
        omega
    · cases read
  · rintro ⟨small, rfl⟩
    exact digit?_digitChar digit small

/-- The digits of a number are parsed to the number, if that fits. -/
private theorem parseDigits_decimal (bound number : Nat) : parseDigits bound 0 (decimal number) =
    if number < bound then .ok number else .error .posOverflow := by
  induction number using Nat.strong_induction_on with
  | h number ih =>
    rw [decimal_eq]
    by_cases small : number < 10
    · rw [if_pos small, parseDigits, digit?_digitChar number small]
      simp only [parseDigits, Nat.zero_mul, Nat.zero_add]
    · have last := digit?_digitChar (number % 10) (Nat.mod_lt _ (by decide))
      have whole : number / 10 * 10 + number % 10 = number := by omega
      rw [if_neg small, parseDigits_append, ih (number / 10) (by omega)]
      by_cases below : number / 10 < bound
      · rw [if_pos below]
        change parseDigits bound (number / 10) [Nat.digitChar (number % 10)] = _
        rw [parseDigits, last]
        simp only [parseDigits, whole]
      · have above : ¬ number < bound := by omega
        rw [if_neg below, if_neg above]
        rfl

private theorem isDigit_of_mem_decimal {char : Char} {number : Nat}
    (inside : char ∈ decimal number) :
    char.isDigit := Nat.isDigit_of_mem_toDigits (by decide) (by decide) inside

/-- Numbers have no line breaks in them. -/
theorem newline_not_mem_decimal (number : Nat) : '\n' ∉ decimal number := by
  intro inside
  have digit := isDigit_of_mem_decimal inside
  revert digit
  decide

/-- Different numbers are written differently. -/
theorem decimal_injective : Function.Injective decimal := by
  intro first second same
  have read := parseDigits_decimal (first + second + 1) first
  rw [same, parseDigits_decimal, if_pos (by omega), if_pos (by omega)] at read
  exact (Except.ok.inj read).symm

/-- A text that neither begins nor ends with whitespace is left as it is. -/
theorem trim_of_ends {text : Text} (first : ∀ char ∈ text.head?, isWhitespace char = false)
    (last : ∀ char ∈ text.getLast?, isWhitespace char = false) : trim text = text := by
  have leading : text.dropWhile isWhitespace = text := by
    cases text with
    | nil => rfl
    | cons char text =>
        apply List.dropWhile_cons_of_neg
        rw [first char rfl]
        exact Bool.false_ne_true
  rw [trim, leading, List.rdropWhile_eq_self_iff]
  intro nonempty
  rw [last _ (List.getLast?_eq_some_getLast nonempty)]
  exact Bool.false_ne_true

/-- A text of visible characters is trimmed. -/
theorem trim_eq_self {text : Text} (visible : ∀ char ∈ text, isWhitespace char = false) :
    trim text = text := by
  apply trim_of_ends
  · exact fun char first => visible char (List.mem_of_mem_head? first)
  · exact fun char last => visible char (List.mem_of_mem_getLast? last)

/-- Whitespace in front of a text is trimmed. -/
theorem trim_append {blanks : Text} (blank : ∀ char ∈ blanks, isWhitespace char = true)
    (text : Text) : trim (blanks ++ text) = trim text := by
  rw [trim, List.dropWhile_append_of_pos blank, trim]

/-- What has been trimmed ends with something visible. -/
theorem isWhitespace_of_getLast?_trim {text : Text} {char : Char}
    (last : char ∈ (trim text).getLast?) : isWhitespace char = false := by
  obtain ⟨nonempty, rfl⟩ := List.mem_getLast?_eq_getLast last
  have visible := List.rdropWhile_last_not isWhitespace _ nonempty
  exact Bool.eq_false_iff.mpr visible

/-- What has been trimmed begins and ends with something visible. -/
theorem trim_trim (text : Text) : trim (trim text) = trim text := by
  apply trim_of_ends
  · intro char first
    obtain ⟨dropped, whole⟩ : trim text <+: text.dropWhile isWhitespace :=
      List.rdropWhile_prefix _ _
    have leading := List.head?_dropWhile_not isWhitespace text
    rw [← whole, List.head?_append, Option.mem_def.mp first] at leading
    simpa only [Option.some_or, Bool.not_eq_true] using leading
  · exact fun char last => isWhitespace_of_getLast?_trim last

private theorem isWhitespace_of_isDigit {char : Char} (digit : char.isDigit) :
    isWhitespace char = false := by
  simp only [Char.isDigit, Bool.and_eq_true, decide_eq_true_eq] at digit
  have lower : 48 ≤ char.toNat := digit.1
  have upper : char.toNat ≤ 57 := digit.2
  simp only [isWhitespace, Bool.or_eq_false_iff, Bool.and_eq_false_iff, decide_eq_false_iff_not,
    beq_eq_false_iff_ne]
  omega

/-- There is nothing to trim on a number. -/
theorem trim_decimal (number : Nat) : trim (decimal number) = decimal number :=
  trim_eq_self fun _ inside => isWhitespace_of_isDigit (isDigit_of_mem_decimal inside)

/-- A number written in decimal is read back if it is below the bound. -/
theorem parseUnsigned_decimal (bound number : Nat) : (decimal number).parseUnsigned bound =
    if number < bound then .ok number else .error .posOverflow := by
  have read := parseDigits_decimal bound number
  have digits : ∀ char ∈ decimal number, char.isDigit := fun _ => isDigit_of_mem_decimal
  cases written : decimal number with
  | nil => exact absurd written Nat.toDigits_ne_nil
  | cons char text =>
      rw [written] at read digits
      have first := digits char List.mem_cons_self
      rw [← read]
      unfold parseUnsigned
      split
      · next empty => cases empty
      · next plus => cases plus; cases first
      · next minus => cases minus; cases first
      · next plus => cases plus; cases first
      · rfl

end Text

end Foundation
