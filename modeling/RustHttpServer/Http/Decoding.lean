import RustHttpServer.Http.Framing

/-!
# Reading responses back

What the bytes of `write_response` are read back as. A body written in chunks is read
back whole (`writeChunked_decoded`). The lines of a head are read back as the header
lines they were written from, when no value is broken or begins or ends with whitespace
(`readHeaderLines_lines`), and what stands behind the head is the body
(`writeResponse_eq`).
-/

namespace RustHttpServer

open Foundation Utf8

/-- **Chunked bodies are read back.** Behind the blank line stand chunks that are not
empty and the empty chunk, and a reader takes from them the body and nothing else. -/
theorem writeChunked_decoded (order : HeaderOrder) (response : Response) (chunkLen : Nat)
    (positive : 0 < chunkLen) : ∃ (coded : Bytes) (chunks : List Bytes),
      writeChunked order response chunkLen positive =
        .ok (encode (response.header.chunked.toText order) ++ (lineBreak ++ coded)) ∧
      readChunks coded = some (encode response.body, []) ∧
      coded = chunks.flatMap chunkBytes ++ chunkBytes [] ∧ ∀ chunk ∈ chunks, chunk ≠ [] := by
  have nonempty := bodyChunks_ne_nil chunkLen positive (encode response.body)
  refine ⟨_, _, writeChunked_eq order response chunkLen positive, ?_, rfl, nonempty⟩
  have read := readChunks_flatMap _ nonempty []
  rwa [List.append_nil, flatten_bodyChunks] at read

/-- A body is read back that looks like the end of a chunked body itself. -/
theorem writeChunked_decoded_empty_chunk :
    ∃ (order : HeaderOrder) (coded : Bytes) (chunks : List Bytes),
      writeChunked order {
          header := {
            statusLine := { statusCode := .ok, httpVersion := httpVersion11 }
            headerLines := ∅ }
          body := "0\r\n\r\n".toList } responseChunkLen (by decide) =
        .ok (encode (ResponseHeader.chunked {
            statusLine := { statusCode := .ok, httpVersion := httpVersion11 }
            headerLines := ∅ } |>.toText order) ++ (lineBreak ++ coded)) ∧
      readChunks coded = some (encode "0\r\n\r\n".toList, []) ∧
      coded = chunks.flatMap chunkBytes ++ chunkBytes [] ∧ ∀ chunk ∈ chunks, chunk ≠ [] := by
  have order : HeaderOrder :=
    .ofKeys [.contentLength, .contentType, .date, .lastModified, .server, .transferEncoding]
      (by decide) fun field => by cases field <;> decide
  exact ⟨order, writeChunked_decoded order _ responseChunkLen (by decide)⟩

/-! ### The lines of a head -/

/-- Reads a header line: its field and its value. -/
def readHeaderLine (line : Bytes) : Option (ResponseHeaderField × Text) := do
  let (name, value) ← splitOnce line colon
  let field ← (decode name).toOption.bind ResponseHeaderField.fromStr
  let value ← (decode value).toOption
  return (field, value)

/-- Reads header lines. -/
def readHeaderLines (lines : List Bytes) : Option ResponseHeaderLines :=
  (lines.mapM readHeaderLine).map HashMap.ofEntries

/-- The name of a header is read back. -/
theorem ResponseHeaderField.fromStr_toText (field : ResponseHeaderField) :
    fromStr field.toText = some field := by
  cases field <;> rfl

private theorem readHeaderLine_headerLineBytes (entry : ResponseHeaderField × Text) :
    readHeaderLine (headerLineBytes entry) = some (entry.1, Text.trim entry.2) := by
  have cut : splitOnce (headerLineBytes entry) colon =
      some (encode entry.1.toText, encode (Text.trim entry.2)) := by
    refine (splitOnce_pair_iff (by decide)).mpr ⟨?_, fun inside => ?_⟩
    · simp only [headerLineBytes, colon, List.append_assoc, List.cons_append, List.nil_append]
    · exact (headerField_proper entry.1).1 (inside.subset List.mem_cons_self)
  rw [readHeaderLine, cut]
  simp only [decode_encode, Option.bind_eq_bind, Option.bind_some, Except.toOption,
    ResponseHeaderField.fromStr_toText, Option.pure_def]

/-- No value of the header lines begins or ends with whitespace. -/
def TrimmedValues (headerLines : ResponseHeaderLines) : Prop :=
  ∀ field value, headerLines.lookup field = some value → Text.trim value = value

/-- No header needs trimming. -/
theorem TrimmedValues.empty : TrimmedValues ∅ := by
  intro field value found
  rw [Finmap.lookup_empty] at found
  cases found

/-- A trimmed header leaves all headers trimmed. -/
theorem TrimmedValues.insert {headerLines : ResponseHeaderLines}
    (trimmed : TrimmedValues headerLines) (field : ResponseHeaderField) {value : Text}
    (visible : Text.trim value = value) : TrimmedValues (headerLines.insert field value) := by
  intro other found lookup
  rcases HashMap.of_lookup_insert lookup with ⟨_, same⟩ | ⟨_, before⟩
  · rw [same, visible]
  · exact trimmed other found before

/-- **The lines of a head are read back** as the map they were written from. -/
theorem readHeaderLines_lines (order : HeaderOrder) {header : ResponseHeader}
    (trimmed : TrimmedValues header.headerLines) :
    readHeaderLines (header.lines order) = some header.headerLines := by
  have lines : ∀ entries : List (ResponseHeaderField × Text),
      (∀ entry ∈ entries, Text.trim entry.2 = entry.2) →
        (entries.map headerLineBytes).mapM readHeaderLine = some entries := by
    intro entries visible
    induction entries with
    | nil => rfl
    | cons entry entries ih =>
        obtain ⟨first, others⟩ := List.forall_mem_cons.mp visible
        rw [List.map_cons, List.mapM_cons, readHeaderLine_headerLineBytes, ih others, first]
        rfl
  have visible : ∀ entry ∈ order.entries header.headerLines, Text.trim entry.2 = entry.2 :=
    fun entry inside => trimmed entry.1 entry.2 ((order.mem_iff _ _ _).mp inside)
  rw [readHeaderLines, ResponseHeader.lines, lines _ visible, Option.map_some,
    order.ofEntries_entries]

/-! ### What is written -/

/-- The header that `write_response` writes. -/
def Response.written (response : Response) : ResponseHeader :=
  if isChunked response.header.headerLines then response.header.chunked else response.header

/-- What `write_response` writes behind the head. -/
def Response.coded (response : Response) : Bytes :=
  if isChunked response.header.headerLines then
    (bodyChunks responseChunkLen responseChunkLen_pos (encode response.body)).flatMap chunkBytes ++
      chunkBytes []
  else if response.body = [] then []
  else encode response.body ++ lineBreak

/-- A response is written as its head, a blank line and its body. -/
theorem writeResponse_eq (order : HeaderOrder) (response : Response) :
    writeResponse order response =
      .ok (encode (response.written.toText order) ++ (lineBreak ++ response.coded)) := by
  unfold writeResponse Response.written Response.coded
  by_cases chunked : isChunked response.header.headerLines = true
  · simp only [if_pos chunked, writeChunked_eq]
  · simp only [if_neg chunked, Response.toText, encode_append, encode_crlf, List.append_assoc]
    split
    · rfl
    · rw [encode_append, encode_crlf]

/-- What is written of a response has its headers on one line each. -/
theorem ResponseHeader.OneLine.written {response : Response} (oneLine : response.header.OneLine) :
    response.written.OneLine := by
  unfold Response.written
  split
  · exact oneLine.chunked
  · exact oneLine

/-- What is written of a response has trimmed headers. -/
theorem trimmedValues_written {response : Response}
    (trimmed : TrimmedValues response.header.headerLines) :
    TrimmedValues response.written.headerLines := by
  unfold Response.written
  split
  · refine TrimmedValues.insert (fun field value found => ?_) .transferEncoding (by decide)
    exact trimmed field value (HashMap.of_lookup_erase found).2
  · exact trimmed

end RustHttpServer
