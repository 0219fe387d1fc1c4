import RustHttpServer.Error

/-!
# Discarding text

The helpers of `parse.rs`, on which the parsers of dates and of the configuration
are built.
-/

namespace RustHttpServer

open Foundation

/-- `discard_string` -/
def discardString (toFind s : Text) : Outcome Unit Text :=
  if toFind.isPrefixOf s then s.sliceFrom (Utf8.byteLength toFind) else .err ()

/-- `discard_char` -/
def discardChar (toFind : Char) (s : Text) : Outcome Unit Text :=
  if [toFind].isPrefixOf s then s.sliceFrom 1 else .err ()

/-- A leading text is discarded. -/
theorem discardString_append (toFind rest : Text) :
    discardString toFind (toFind ++ rest) = .ok rest := by
  rw [discardString, if_pos (List.isPrefixOf_iff_prefix.mpr (List.prefix_append toFind rest)),
    Text.sliceFrom_byteLength]

/-- A text that does not lead cannot be discarded. -/
theorem discardString_of_absent {toFind s : Text} (absent : ¬ toFind <+: s) :
    discardString toFind s = .err () :=
  if_neg (absent ∘ List.isPrefixOf_iff_prefix.mp)

/-- Discarding a text never aborts. -/
theorem discardString_returns (toFind s : Text) : (discardString toFind s).Returns := by
  by_cases leading : toFind <+: s
  · obtain ⟨rest, rfl⟩ := leading
    rw [discardString_append]
    exact .ok rest
  · rw [discardString_of_absent leading]
    exact .err ()

/-- What is discarded stands in front of the rest. -/
theorem discardString_eq_ok_iff {toFind s rest : Text} :
    discardString toFind s = .ok rest ↔ s = toFind ++ rest := by
  constructor
  · intro discarded
    by_cases leading : toFind <+: s
    · obtain ⟨after, rfl⟩ := leading
      rw [discardString_append, Outcome.ok.injEq] at discarded
      rw [discarded]
    · rw [discardString_of_absent leading] at discarded
      cases discarded
  · rintro rfl
    exact discardString_append toFind rest

/-- A character of one byte is discarded like a text. -/
theorem discardChar_eq {toFind : Char} (size : Utf8.byteLength [toFind] = 1) (s : Text) :
    discardChar toFind s = discardString [toFind] s := by
  rw [discardChar, discardString, size]

/-- To discard a text is to strip it. -/
theorem discardString_eq (toFind s : Text) :
    discardString toFind s = Outcome.okOr () (s.dropPrefix? toFind) := by
  cases stripped : s.dropPrefix? toFind with
  | some rest => exact discardString_eq_ok_iff.mpr (dropPrefix?_eq_some_iff_append.mp stripped)
  | none =>
      refine discardString_of_absent ?_
      rintro ⟨rest, rfl⟩
      rw [dropPrefix?_eq_some_iff_append.mpr rfl] at stripped
      cases stripped

/-- Discarding one text behind another. -/
theorem discardString_discardString (first second s : Text) :
    (discardString first s >>= discardString second) = discardString (first ++ second) s := by
  rw [discardString_eq, discardString_eq, dropPrefix?_append]
  cases s.dropPrefix? first with
  | none => rfl
  | some rest => exact discardString_eq second rest

end RustHttpServer
