import RustHttpServer.Http.Grammar

/-!
# Lengths that end inside a character

The length of a body is what the client says, and it counts bytes, while the body is
cut from a text. The parser aborts if the length ends inside a character of what
follows the head (`Miscut`), and nowhere else: no other slice of it is out of range or off
the boundary of a character, and it never subtracts too much
(`Stage.advance_start_eq_abort_iff`).
-/

namespace RustHttpServer

open Foundation Utf8

/-- Behind a head stand at least as many bytes as it declares, and the last of them is not
the last one of a character. -/
def Miscut (text : Text) : Prop :=
  ∃ (line : RequestLineText) (headers : List HeaderText) (declared rest : Text) (length : Nat),
    text = line.text ++ (crlf ++ (headerBlock headers ++ (crlf ++ rest))) ∧
    ¬ crlf <:+: line.text ∧ headers ≠ [] ∧
    lastValue headers .contentLength = some declared ∧
    declared.parseUnsigned usizeBound = .ok length ∧ length ≤ byteLength rest ∧
    ∀ before after, rest = before ++ after → byteLength before ≠ length

private theorem declaredLength_returns (headerLines : RequestHeaderLines) :
    (declaredLength headerLines).Returns := by
  unfold declaredLength
  split
  · exact .ofExcept _ _
  · exact .ok _

namespace Stage

/-- The parser aborts where the length that is left ends inside a character. -/
theorem advance_inBody_eq_abort_iff {requestLine : RequestLine} {headerLines : RequestHeaderLines}
    {body : Text} {bytesLeft : Nat} {text : Text} :
    advance (.inBody requestLine headerLines body bytesLeft) text = .abort ↔
      bytesLeft ≤ byteLength text ∧
        ∀ before after, text = before ++ after → byteLength before ≠ bytesLeft := by
  rw [advance_inBody]
  split
  · next within =>
      rw [and_iff_right within]
      cases cut : text.splitAt? bytesLeft with
      | none =>
          refine iff_of_true rfl fun before after whole length => ?_
          rw [Text.splitAt?_eq_some_iff.mpr ⟨whole, length⟩] at cut
          cases cut
      | some halves =>
          obtain ⟨whole, length⟩ := Text.splitAt?_eq_some_iff.mp cut
          exact iff_of_false nofun fun uncut => uncut _ _ whole length
  · next short => exact iff_of_false nofun fun cut => short cut.1

/-- Without a `Content-Length`, the length is zero, which is no length that ends inside a
character. -/
theorem lookup_contentLength_of_cut {headerLines : RequestHeaderLines} {rest : Text} {length : Nat}
    (declared : declaredLength headerLines = .ok length)
    (uncut : ∀ before after, rest = before ++ after → byteLength before ≠ length) :
    ∃ value, headerLines.lookup .contentLength = some value ∧
      value.parseUnsigned usizeBound = .ok length := by
  rw [declaredLength_eq_ok_iff] at declared
  cases found : headerLines.lookup .contentLength with
  | none =>
      rw [found] at declared
      exact absurd declared.symm (uncut [] rest rfl)
  | some value =>
      rw [found] at declared
      exact ⟨value, rfl, declared⟩

/-- **The one slice that aborts.** Handed a whole text, the parser aborts exactly when the
text is miscut. -/
theorem advance_start_eq_abort_iff {text : Text} : advance .start text = .abort ↔ Miscut text := by
  constructor
  · intro aborted
    rcases advance_start_cases text with ⟨line, headers, rest, noBreak, nonempty, rfl⟩ | unfinished
    · rw [advance_start_head line noBreak nonempty] at aborted
      obtain ⟨length, declared, inside⟩ :=
        (declaredLength_returns _).bind_eq_abort_iff.mp aborted
      obtain ⟨within, uncut⟩ := advance_inBody_eq_abort_iff.mp inside
      obtain ⟨value, last, number⟩ := lookup_contentLength_of_cut declared uncut
      rw [lookup_insertAll_empty] at last
      exact ⟨line, headers, value, rest, length, rfl, noBreak, nonempty, last, number, within,
        uncut⟩
    · exact absurd aborted unfinished.ne_abort
  · rintro ⟨line, headers, value, rest, length, rfl, noBreak, nonempty, last, number, within, uncut⟩
    have declared : declaredLength (insertAll ∅ headers) = .ok length := by
      rw [declaredLength_eq_ok_iff, lookup_insertAll_empty, last]
      exact number
    rw [advance_start_head line noBreak nonempty, declared, Outcome.ok_bind]
    exact advance_inBody_eq_abort_iff.mpr ⟨within, uncut⟩

end Stage

/-! ### Streams of chunks -/

/-- Some chunks make up a text that is miscut. What comes behind them does not matter. -/
def MiscutChunks (chunks : List Bytes) : Prop :=
  ∃ (texts : List Text) (rest : List Bytes),
    chunks = texts.map encode ++ rest ∧ Miscut texts.flatten

end RustHttpServer
