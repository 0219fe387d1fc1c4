import RustHttpServer.Http.Message

/-!
# Parsing requests

`try_parse_request` takes a request apart as its bytes arrive. What it has not yet
used of them is kept in the state, and every call decodes that buffer together
with the new bytes; so a call depends only on the two of them put together, and
its stages can be described on text (`advance`).
-/

namespace RustHttpServer

open Foundation Utf8

/-- `parse_header_line` -/
def parseHeaderLine (line : Text) : Outcome Error (RequestHeaderField × Text) := do
  let fields ← Outcome.okOr ⟨"Could not parse header line"⟩ (splitOnce line [':'])
  let fieldName := RequestHeaderField.fromStr fields.1
  let fieldValue := Text.trim fields.2
  return (fieldName, fieldValue)

/-- `parse_request_line` -/
def parseRequestLine (line : Text) : Outcome Error RequestLine := do
  let words := split line [' '] (by decide)
  let method ← Outcome.okOr ⟨"Could not get method from request line"⟩
    (words[0]?.bind fun w =>
      if w = "GET".toList then some Method.get
      else if w = "POST".toList then some Method.post
      else none)
  let (requestPath, queryString) ←
    Outcome.okOr ⟨"Could not get request target from request line"⟩
      (words[1]?.map fun s => (splitOnce s ['?']).getD (s, []))
  let httpVersion ← Outcome.okOr ⟨"Could not get HTTP version from request line"⟩ words[2]?
  return { method, requestPath, queryString, httpVersion }

/-- `usize::from_str` -/
def usizeFromStr (s : Text) : Outcome Error Nat :=
  Outcome.ofExcept Error.ofParseInt (s.parseUnsigned usizeBound)

/-- The bytes that a state holds back. -/
def IncrementalRequest.buffered : IncrementalRequest → Bytes
  | .none buf => buf
  | .requestLine _ buf => buf
  | .headerLines _ _ buf => buf
  | .body _ _ _ _ buf => buf
  | .fullRequest _ => []

/-- What follows a line break is shorter than the bytes it was cut from. -/
theorem length_rest_lt {combined : Bytes} {s rest : Text} {nextBreak : Nat}
    (decoded : decode combined = .ok s)
    (sliced : (s.sliceFrom (nextBreak + 2) : Outcome Error Text) = .ok rest) :
    (encode rest).length < combined.length := by
  cases cut : s.splitAt? (nextBreak + 2) with
  | none => simp [Text.sliceFrom, cut] at sliced
  | some halves =>
      simp only [Text.sliceFrom, cut, Option.map_some, Outcome.unwrap_some,
        Outcome.ok.injEq] at sliced
      obtain ⟨whole, offset⟩ := Text.splitAt?_eq_some_iff.mp cut
      rw [decode_eq_ok_iff.mp decoded, whole, sliced, length_encode, length_encode,
        byteLength_append]
      omega

/-- `try_parse_request` -/
def tryParseRequest (latest : Bytes) (incrementalRequest : IncrementalRequest) :
    Outcome Error IncrementalRequest :=
  match incrementalRequest with
  | .none buf =>
      let combined := buf ++ latest
      match _decoded : decode combined with
      | .error error => .err (Error.ofUtf8 error)
      | .ok s =>
          match s.find crlf with
          | none => .ok (.none combined)
          | some nextBreak => do
              let requestLine ← (s.sliceTo nextBreak) >>= parseRequestLine
              match _sliced : (s.sliceFrom (nextBreak + 2) : Outcome Error Text) with
              | .ok rest => tryParseRequest [] (.requestLine requestLine (encode rest))
              | .err error => .err error
              | .abort => .abort
  | .requestLine requestLine buf =>
      let combined := buf ++ latest
      match _decoded : decode combined with
      | .error error => .err (Error.ofUtf8 error)
      | .ok s =>
          match s.find crlf with
          | none => .ok (.requestLine requestLine combined)
          | some nextBreak => do
              let headerLine ← (s.sliceTo nextBreak) >>= parseHeaderLine
              let headerLines : RequestHeaderLines := Finmap.insert headerLine.1 headerLine.2 ∅
              match _sliced : (s.sliceFrom (nextBreak + 2) : Outcome Error Text) with
              | .ok rest => tryParseRequest [] (.headerLines requestLine headerLines (encode rest))
              | .err error => .err error
              | .abort => .abort
  | .headerLines requestLine headerLines buf =>
      let combined := buf ++ latest
      match _decoded : decode combined with
      | .error error => .err (Error.ofUtf8 error)
      | .ok s =>
          match s.find crlf with
          | none => .ok (.headerLines requestLine headerLines combined)
          | some nextBreak => do
              let line ← s.sliceTo nextBreak
              if line = [] then
                let bytesLeft ← (match headerLines.lookup .contentLength with
                  | some contentLen => usizeFromStr contentLen
                  | none => .ok 0)
                match _sliced : (s.sliceFrom (nextBreak + 2) : Outcome Error Text) with
                | .ok rest =>
                    tryParseRequest [] (.body requestLine headerLines [] bytesLeft (encode rest))
                | .err error => .err error
                | .abort => .abort
              else
                let headerLine ← parseHeaderLine line
                match _sliced : (s.sliceFrom (nextBreak + 2) : Outcome Error Text) with
                | .ok rest =>
                    tryParseRequest []
                      (.headerLines requestLine (headerLines.insert headerLine.1 headerLine.2)
                        (encode rest))
                | .err error => .err error
                | .abort => .abort
  | .body requestLine headerLines body bytesLeft buf => do
      let combined := buf ++ latest
      let s ← Outcome.ofExcept Error.ofUtf8 (decode combined)
      let bytesToAdd := min bytesLeft (byteLength s)
      let added ← s.sliceTo bytesToAdd
      let bytesLeft ← Outcome.checkedSub bytesLeft bytesToAdd
      if bytesLeft = 0 then
        return .fullRequest ⟨⟨requestLine, headerLines⟩, body ++ added⟩
      else
        let rest ← s.sliceFrom bytesToAdd
        return .body requestLine headerLines (body ++ added) bytesLeft (encode rest)
  | .fullRequest _ => .err ⟨"Tried to parse but incremental request was already full"⟩
termination_by latest.length + incrementalRequest.buffered.length
decreasing_by
  all_goals
    have shorter := length_rest_lt _decoded _sliced
    simp only [IncrementalRequest.buffered, List.length_append, List.length_nil, combined]
      at shorter ⊢
    omega

/-- The number of bytes in the body of a request, which its header declares. -/
def declaredLength (headerLines : RequestHeaderLines) : Outcome Error Nat :=
  match headerLines.lookup .contentLength with
  | some contentLen => usizeFromStr contentLen
  | none => .ok 0

/-- `str::from_utf8(&combined)?` -/
def combinedText (buf latest : Bytes) : Outcome Error Text :=
  Outcome.ofExcept Error.ofUtf8 (decode (buf ++ latest))

section Equations

variable (latest buf : Bytes) (requestLine : RequestLine) (headerLines : RequestHeaderLines)

/-- The call in the state `None`, by the latest bytes behind what is held. -/
private theorem tryParseRequest_none :
    tryParseRequest latest (.none buf) = (do
      let s ← combinedText buf latest
      match s.find crlf with
      | none => .ok (.none (buf ++ latest))
      | some nextBreak => do
          let requestLine ← (s.sliceTo nextBreak) >>= parseRequestLine
          let rest ← s.sliceFrom (nextBreak + 2)
          tryParseRequest [] (.requestLine requestLine (encode rest))) := by
  rw [tryParseRequest, combinedText]
  split
  · next error decoded => rw [decoded]; rfl
  · next s decoded =>
      rw [decoded, Outcome.ofExcept_ok, Outcome.ok_bind]
      cases s.find crlf with
      | none => rfl
      | some nextBreak =>
          apply bind_congr
          intro requestLine
          split <;> next sliced => rw [sliced]; rfl

/-- The call in the state `RequestLine`. -/
private theorem tryParseRequest_requestLine :
    tryParseRequest latest (.requestLine requestLine buf) = (do
      let s ← combinedText buf latest
      match s.find crlf with
      | none => .ok (.requestLine requestLine (buf ++ latest))
      | some nextBreak => do
          let headerLine ← (s.sliceTo nextBreak) >>= parseHeaderLine
          let rest ← s.sliceFrom (nextBreak + 2)
          tryParseRequest []
            (.headerLines requestLine (Finmap.insert headerLine.1 headerLine.2 ∅)
              (encode rest))) := by
  rw [tryParseRequest, combinedText]
  split
  · next error decoded => rw [decoded]; rfl
  · next s decoded =>
      rw [decoded, Outcome.ofExcept_ok, Outcome.ok_bind]
      cases s.find crlf with
      | none => rfl
      | some nextBreak =>
          apply bind_congr
          intro headerLine
          split <;> next sliced => rw [sliced]; rfl

/-- The call in the state `HeaderLines`. -/
private theorem tryParseRequest_headerLines :
    tryParseRequest latest (.headerLines requestLine headerLines buf) = (do
      let s ← combinedText buf latest
      match s.find crlf with
      | none => .ok (.headerLines requestLine headerLines (buf ++ latest))
      | some nextBreak => do
          let line ← s.sliceTo nextBreak
          if line = [] then
            let bytesLeft ← declaredLength headerLines
            let rest ← s.sliceFrom (nextBreak + 2)
            tryParseRequest [] (.body requestLine headerLines [] bytesLeft (encode rest))
          else
            let headerLine ← parseHeaderLine line
            let rest ← s.sliceFrom (nextBreak + 2)
            tryParseRequest []
              (.headerLines requestLine (headerLines.insert headerLine.1 headerLine.2)
                (encode rest))) := by
  rw [tryParseRequest, combinedText]
  split
  · next error decoded => rw [decoded]; rfl
  · next s decoded =>
      rw [decoded, Outcome.ofExcept_ok, Outcome.ok_bind]
      cases s.find crlf with
      | none => rfl
      | some nextBreak =>
          apply bind_congr
          intro line
          by_cases blank : line = []
          · rw [if_pos blank, if_pos blank]
            apply bind_congr
            intro bytesLeft
            split <;> next sliced => rw [sliced]; rfl
          · rw [if_neg blank, if_neg blank]
            apply bind_congr
            intro headerLine
            split <;> next sliced => rw [sliced]; rfl

private theorem tryParseRequest_body (body : Text) (bytesLeft : Nat) :
    tryParseRequest latest (.body requestLine headerLines body bytesLeft buf) = (do
      let s ← combinedText buf latest
      let bytesToAdd := min bytesLeft (byteLength s)
      let added ← s.sliceTo bytesToAdd
      let bytesLeft ← Outcome.checkedSub bytesLeft bytesToAdd
      if bytesLeft = 0 then
        return .fullRequest ⟨⟨requestLine, headerLines⟩, body ++ added⟩
      else
        let rest ← s.sliceFrom bytesToAdd
        return .body requestLine headerLines (body ++ added) bytesLeft (encode rest)) := by
  rw [tryParseRequest, combinedText]

end Equations

/-- What has been parsed of an incomplete request. -/
inductive Stage
  | start
  | afterLine (requestLine : RequestLine)
  | inHeader (requestLine : RequestLine) (headerLines : RequestHeaderLines)
  | inBody (requestLine : RequestLine) (headerLines : RequestHeaderLines) (body : Text)
      (bytesLeft : Nat)

namespace Stage

/-- The state at a stage that holds back some bytes. -/
def holding : Stage → Bytes → IncrementalRequest
  | .start, buf => .none buf
  | .afterLine requestLine, buf => .requestLine requestLine buf
  | .inHeader requestLine headerLines, buf => .headerLines requestLine headerLines buf
  | .inBody requestLine headerLines body bytesLeft, buf =>
      .body requestLine headerLines body bytesLeft buf

/-- Before its end no stage holds a complete request. -/
@[simp] theorem isFull_holding (stage : Stage) (buf : Bytes) :
    (stage.holding buf).isFull = false := by
  cases stage <;> rfl

/-- What the parser makes of a text at a stage, when it holds nothing back. -/
def advance (stage : Stage) (text : Text) : Outcome Error IncrementalRequest :=
  tryParseRequest (encode text) (stage.holding [])

/-- A call depends only on the bytes held back and the new ones together. -/
theorem tryParseRequest_holding (stage : Stage) (buf latest : Bytes) :
    tryParseRequest latest (stage.holding buf) =
      tryParseRequest (buf ++ latest) (stage.holding []) := by
  cases stage with
  | start =>
      rw [holding, holding, tryParseRequest_none, tryParseRequest_none, combinedText, combinedText,
        List.nil_append]
  | afterLine requestLine =>
      rw [holding, holding, tryParseRequest_requestLine, tryParseRequest_requestLine, combinedText,
        combinedText, List.nil_append]
  | inHeader requestLine headerLines =>
      rw [holding, holding, tryParseRequest_headerLines, tryParseRequest_headerLines, combinedText,
        combinedText, List.nil_append]
  | inBody requestLine headerLines body bytesLeft =>
      rw [holding, holding, tryParseRequest_body, tryParseRequest_body, combinedText, combinedText,
        List.nil_append]

/-- Text held back is parsed in front of the new text. -/
theorem tryParseRequest_encode (stage : Stage) (held text : Text) :
    tryParseRequest (encode text) (stage.holding (encode held)) = stage.advance (held ++ text) := by
  rw [tryParseRequest_holding, ← encode_append, advance]

/-- Going on without new bytes parses the text held back. -/
theorem tryParseRequest_nil (stage : Stage) (held : Text) :
    tryParseRequest [] (stage.holding (encode held)) = stage.advance held := by
  rw [tryParseRequest_holding, List.append_nil, advance]

/-- Bytes that are not valid after the text held back are reported at every
stage. -/
theorem tryParseRequest_of_invalid (stage : Stage) (held : Text) {latest : Bytes}
    {invalid : Utf8Error} (undecodable : decode latest = .error invalid) :
    ∃ error, tryParseRequest latest (stage.holding (encode held)) = .err error := by
  rcases decode_encode_append held latest with ⟨rest, valid, _⟩ | ⟨_, error, _, together⟩
  · rw [undecodable] at valid
    cases valid
  · have reported : combinedText (encode held) latest = .err (Error.ofUtf8 error) := by
      rw [combinedText, together, Outcome.ofExcept_error]
    refine ⟨Error.ofUtf8 error, ?_⟩
    cases stage with
    | start => rw [holding, tryParseRequest_none, reported, Outcome.err_bind]
    | afterLine requestLine =>
        rw [holding, tryParseRequest_requestLine, reported, Outcome.err_bind]
    | inHeader requestLine headerLines =>
        rw [holding, tryParseRequest_headerLines, reported, Outcome.err_bind]
    | inBody requestLine headerLines body bytesLeft =>
        rw [holding, tryParseRequest_body, reported, Outcome.err_bind]

/-- Without anything held the latest bytes are the text. -/
@[simp] theorem combinedText_encode (text : Text) : combinedText [] (encode text) = .ok text := by
  rw [combinedText, List.nil_append, decode_encode, Outcome.ofExcept_ok]

/-- A cut at a line break stays inside the text. -/
theorem slices_of_splitOnce {text line rest : Text}
    (found : splitOnce text crlf = some (line, rest)) :
    text.find crlf = some (byteLength line) ∧
      (text.sliceTo (byteLength line) : Outcome Error Text) = .ok line ∧
      (text.sliceFrom (byteLength line + 2) : Outcome Error Text) = .ok rest := by
  have occurs := (firstOccurrence_of_splitOnce found).occurs
  have offset : byteLength line + 2 = byteLength (line ++ crlf) := by
    rw [byteLength_append]
    rfl
  refine ⟨by rw [Text.find, found, Option.map_some], ?_, ?_⟩
  · rw [occurs, Text.sliceTo_byteLength]
  · rw [occurs, offset, ← List.append_assoc, Text.sliceFrom_byteLength]

private theorem find_of_splitOnce_eq_none {text : Text} (absent : splitOnce text crlf = none) :
    text.find crlf = none := by
  rw [Text.find, absent, Option.map_none]

/-- At the start the request line is parsed once it is there. -/
theorem advance_start (text : Text) :
    advance .start text =
      match splitOnce text crlf with
      | none => .ok (.none (encode text))
      | some (line, rest) =>
          parseRequestLine line >>= fun requestLine => advance (.afterLine requestLine) rest := by
  rw [advance, holding, tryParseRequest_none, combinedText_encode, Outcome.ok_bind]
  cases found : splitOnce text crlf with
  | none => rw [find_of_splitOnce_eq_none found]; rfl
  | some halves =>
      obtain ⟨line, rest⟩ := halves
      obtain ⟨position, before, after⟩ := slices_of_splitOnce found
      simp only [position, before, after, Outcome.ok_bind]
      exact bind_congr fun requestLine => tryParseRequest_nil (.afterLine requestLine) rest

/-- Behind the request line the first header is parsed once its line is there. -/
theorem advance_afterLine (requestLine : RequestLine) (text : Text) :
    advance (.afterLine requestLine) text =
      match splitOnce text crlf with
      | none => .ok (.requestLine requestLine (encode text))
      | some (line, rest) =>
          parseHeaderLine line >>= fun headerLine =>
            advance (.inHeader requestLine (Finmap.insert headerLine.1 headerLine.2 ∅)) rest := by
  rw [advance, holding, tryParseRequest_requestLine, combinedText_encode, Outcome.ok_bind]
  cases found : splitOnce text crlf with
  | none => rw [find_of_splitOnce_eq_none found]; rfl
  | some halves =>
      obtain ⟨line, rest⟩ := halves
      obtain ⟨position, before, after⟩ := slices_of_splitOnce found
      simp only [position, before, after, Outcome.ok_bind]
      exact bind_congr fun headerLine => tryParseRequest_nil (.inHeader requestLine _) rest

/-- An empty line ends the headers, any other line is one more of them. -/
theorem advance_inHeader (requestLine : RequestLine) (headerLines : RequestHeaderLines)
    (text : Text) :
    advance (.inHeader requestLine headerLines) text =
      match splitOnce text crlf with
      | none => .ok (.headerLines requestLine headerLines (encode text))
      | some (line, rest) =>
          if line = [] then
            declaredLength headerLines >>= fun bytesLeft =>
              advance (.inBody requestLine headerLines [] bytesLeft) rest
          else
            parseHeaderLine line >>= fun headerLine =>
              advance (.inHeader requestLine (headerLines.insert headerLine.1 headerLine.2))
                rest := by
  rw [advance, holding, tryParseRequest_headerLines, combinedText_encode, Outcome.ok_bind]
  cases found : splitOnce text crlf with
  | none => rw [find_of_splitOnce_eq_none found]; rfl
  | some halves =>
      obtain ⟨line, rest⟩ := halves
      obtain ⟨position, before, after⟩ := slices_of_splitOnce found
      simp only [position, before, after, Outcome.ok_bind]
      split
      · exact bind_congr fun bytesLeft =>
          tryParseRequest_nil (.inBody requestLine headerLines [] bytesLeft) rest
      · exact bind_congr fun headerLine => tryParseRequest_nil (.inHeader requestLine _) rest

/-- The body takes as many bytes as are left of it. -/
theorem advance_inBody (requestLine : RequestLine) (headerLines : RequestHeaderLines) (body : Text)
    (bytesLeft : Nat) (text : Text) :
    advance (.inBody requestLine headerLines body bytesLeft) text =
      if bytesLeft ≤ byteLength text then
        match text.splitAt? bytesLeft with
        | none => .abort
        | some (added, _) => .ok (.fullRequest ⟨⟨requestLine, headerLines⟩, body ++ added⟩)
      else
        .ok (.body requestLine headerLines (body ++ text) (bytesLeft - byteLength text) []) := by
  rw [advance, holding, tryParseRequest_body, combinedText_encode, Outcome.ok_bind]
  by_cases enough : bytesLeft ≤ byteLength text
  · rw [if_pos enough, Nat.min_eq_left enough]
    cases cut : text.splitAt? bytesLeft with
    | none => simp [Text.sliceTo, cut]
    | some halves => simp [Text.sliceTo, cut, Outcome.checkedSub]
  · have below : byteLength text ≤ bytesLeft := by omega
    have remains : bytesLeft - byteLength text ≠ 0 := by omega
    have whole := Text.sliceTo_byteLength (ε := Error) text []
    have nothing := Text.sliceFrom_byteLength (ε := Error) text []
    rw [List.append_nil] at whole nothing
    rw [if_neg enough, Nat.min_eq_right below]
    simp only [whole, nothing, Outcome.ok_bind, Outcome.checkedSub_of_le below, if_neg remains,
      encode_nil, Outcome.pure_eq]

end Stage

end RustHttpServer
