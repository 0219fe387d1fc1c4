import RustHttpServer.Foundation.MessageHead
import RustHttpServer.Http.Response

/-!
# The framing of responses

What a reader makes of the bytes that `write_response` produces. A head without
line breaks in its values is read back line by line (`readHead_header`). A response
whose `Content-Length` is a number is framed if it is written in chunks, or else if
that number counts what follows the head and nothing announces the chunked coding
(`framed_writeResponse_iff`).
-/

namespace RustHttpServer

open Foundation Utf8

@[simp] theorem encode_crlf : encode crlf = lineBreak := rfl

/-- No line of the head is broken by what it says. -/
structure ResponseHeader.OneLine (header : ResponseHeader) : Prop where
  version : '\n' ∉ header.statusLine.httpVersion
  values : ∀ field value, header.headerLines.lookup field = some value → '\n' ∉ value

/-- The bytes of a status line, without the line break. -/
def StatusLine.bytes (statusLine : StatusLine) : Bytes :=
  encode (statusLine.httpVersion ++ [' '] ++ statusLine.statusCode.toText)

/-- The bytes of a header line, without the line break. -/
def headerLineBytes (entry : ResponseHeaderField × Text) : Bytes :=
  encode entry.1.toText ++ colon ++ encode (Text.trim entry.2)

private theorem newline_not_mem_encode {text : Text} (unbroken : '\n' ∉ text) : 10 ∉ encode text :=
  fun inside => unbroken (mem_of_mem_encode rfl (by decide) inside)

private theorem StatusLine.newline_not_mem_bytes {statusLine : StatusLine}
    (unbroken : '\n' ∉ statusLine.httpVersion) : 10 ∉ statusLine.bytes := by
  apply newline_not_mem_encode
  have code : '\n' ∉ statusLine.statusCode.toText := by cases statusLine.statusCode <;> decide
  simp only [List.mem_append, not_or]
  exact ⟨⟨unbroken, by decide⟩, code⟩

private theorem StatusLine.bytes_ne_nil (statusLine : StatusLine) : statusLine.bytes ≠ [] := by
  rw [bytes, encode_append, encode_append]
  exact List.append_ne_nil_of_left_ne_nil
    (List.append_ne_nil_of_right_ne_nil _ (List.cons_ne_nil _ _)) _

/-- The names of headers have neither colons nor line breaks in them. -/
theorem headerField_proper (field : ResponseHeaderField) :
    58 ∉ encode field.toText ∧ 10 ∉ encode field.toText := by
  cases field <;> decide

private theorem headerLineBytes_ne_nil (entry : ResponseHeaderField × Text) :
    headerLineBytes entry ≠ [] :=
  List.append_ne_nil_of_left_ne_nil
    (List.append_ne_nil_of_right_ne_nil _ (List.cons_ne_nil _ _)) _

private theorem newline_not_mem_headerLineBytes {entry : ResponseHeaderField × Text}
    (unbroken : '\n' ∉ entry.2) : 10 ∉ headerLineBytes entry := by
  have value := newline_not_mem_encode fun inside => unbroken (Text.mem_of_mem_trim inside)
  simp only [headerLineBytes, List.mem_append, not_or]
  exact ⟨⟨(headerField_proper entry.1).2, by decide⟩, value⟩

/-- The lines of a head, in the order in which they are written. -/
def ResponseHeader.lines (order : HeaderOrder) (header : ResponseHeader) : List Bytes :=
  (order.entries header.headerLines).map headerLineBytes

private theorem encode_flatMap {α : Type} (render : α → Text) (items : List α) :
    encode (items.flatMap render) = items.flatMap fun item => encode (render item) := by
  induction items with
  | nil => rfl
  | cons item items ih => rw [List.flatMap_cons, encode_append, ih, List.flatMap_cons]

/-- The head is its lines, each with a line break behind it. -/
theorem ResponseHeader.encode_toText (order : HeaderOrder) (header : ResponseHeader) :
    encode (header.toText order) =
      (header.statusLine.bytes :: header.lines order).flatMap (· ++ lineBreak) := by
  rw [toText, encode_append, List.flatMap_cons, lines, List.flatMap_map, encode_flatMap]
  have status : encode header.statusLine.toText = header.statusLine.bytes ++ lineBreak := by
    rw [StatusLine.toText, encode_append, encode_crlf, StatusLine.bytes]
  have line : ∀ entry : ResponseHeaderField × Text,
      encode (headerLineText entry.1 entry.2) = headerLineBytes entry ++ lineBreak := by
    intro entry
    simp only [headerLineText, encode_append, encode_crlf, headerLineBytes]
    rfl
  rw [status]
  exact congrArg _ (List.flatMap_congr fun entry _ => line entry)

/-- The head of a response is read back line by line. -/
theorem readHead_header (order : HeaderOrder) {header : ResponseHeader} (oneLine : header.OneLine)
    (rest : Bytes) : readHead (encode (header.toText order) ++ (lineBreak ++ rest)) =
      some (header.statusLine.bytes :: header.lines order, rest) := by
  rw [header.encode_toText]
  refine readHead_lines _ ?_ ?_ rest
  · refine List.forall_mem_cons.mpr ⟨header.statusLine.bytes_ne_nil, ?_⟩
    exact List.forall_mem_map.mpr fun entry _ => headerLineBytes_ne_nil entry
  · refine List.forall_mem_cons.mpr ⟨StatusLine.newline_not_mem_bytes oneLine.version, ?_⟩
    refine List.forall_mem_map.mpr fun entry inside => ?_
    exact newline_not_mem_headerLineBytes
      (oneLine.values entry.1 entry.2 ((order.mem_iff _ _ _).mp inside))

private theorem ResponseHeaderField.toText_injective :
    Function.Injective fun field : ResponseHeaderField => encode field.toText := by
  intro first second same
  cases first <;> cases second <;> first | rfl | (revert same; decide)

/-- What is read under a name is what the map has under it. -/
theorem fieldValues_header (order : HeaderOrder) (header : ResponseHeader)
    (field : ResponseHeaderField) : fieldValues (encode field.toText) (header.lines order) =
      (header.headerLines.lookup field).toList.map fun value => encode (Text.trim value) := by
  rw [← order.filterMap_entries, List.map_filterMap, fieldValues, ResponseHeader.lines,
    List.filterMap_map]
  apply List.filterMap_congr
  intro entry _
  rw [Function.comp_apply, headerLineBytes, fieldValue?_line (headerField_proper entry.1).1]
  by_cases same : entry.1 = field
  · rw [if_pos same, if_pos (congrArg (fun field => encode field.toText) same), Option.map_some]
  · rw [if_neg same, if_neg fun equal => same (ResponseHeaderField.toText_injective equal),
      Option.map_none]

/-! ### Chunked responses -/

/-- The header of a response that is written in chunks. -/
def ResponseHeader.chunked (header : ResponseHeader) : ResponseHeader :=
  { header with headerLines :=
      (header.headerLines.erase .contentLength).insert .transferEncoding "chunked".toList }

/-- The chunks in which a body is written. -/
def bodyChunks (chunkLen : Nat) (positive : 0 < chunkLen) (body : Bytes) : List Bytes :=
  (chunksExact chunkLen positive body).1 ++
    if (chunksExact chunkLen positive body).2.length > 0 then
      [(chunksExact chunkLen positive body).2] else []

/-- The chunks of a body make up the body. -/
theorem flatten_bodyChunks (chunkLen : Nat) (positive : 0 < chunkLen) (body : Bytes) :
    (bodyChunks chunkLen positive body).flatten = body := by
  have whole := (chunksExact_spec chunkLen positive body).1
  rw [bodyChunks, List.flatten_append]
  split
  · rwa [List.flatten_singleton]
  · next short =>
      have empty : (chunksExact chunkLen positive body).2 = [] :=
        List.eq_nil_of_length_eq_zero (by omega)
      rw [empty] at whole
      exact whole

/-- No chunk of a body is empty. -/
theorem bodyChunks_ne_nil (chunkLen : Nat) (positive : 0 < chunkLen) (body : Bytes) :
    ∀ chunk ∈ bodyChunks chunkLen positive body, chunk ≠ [] := by
  intro chunk inside
  rcases List.mem_append.mp inside with exact_ | remaining
  · have length := (chunksExact_spec chunkLen positive body).2 chunk exact_
    exact List.length_pos_iff.mp (by omega)
  · split at remaining
    · next long => exact List.mem_singleton.mp remaining ▸ List.length_pos_iff.mp long
    · cases remaining

private theorem writeChunk_eq (chunk bytes : Bytes) :
    writeChunk chunk chunk.length bytes = bytes ++ chunkBytes chunk := by
  simp only [writeChunk, chunkBytes, encode_crlf, List.append_assoc]

private theorem foldl_writeChunk {chunkLen : Nat} (chunks : List Bytes)
    (exact_ : ∀ chunk ∈ chunks, chunk.length = chunkLen) (bytes : Bytes) :
    chunks.foldl (fun bytes chunk => writeChunk chunk chunkLen bytes) bytes =
      bytes ++ chunks.flatMap chunkBytes := by
  induction chunks generalizing bytes with
  | nil => exact (List.append_nil bytes).symm
  | cons chunk chunks ih =>
      rw [List.foldl_cons, ih fun other inside => exact_ other (List.mem_cons_of_mem chunk inside),
        ← exact_ chunk List.mem_cons_self, writeChunk_eq, List.append_assoc, List.flatMap_cons]

/-- What is written in chunks. -/
theorem writeChunked_eq (order : HeaderOrder) (response : Response) (chunkLen : Nat)
    (positive : 0 < chunkLen) : writeChunked order response chunkLen positive =
      .ok (encode (response.header.chunked.toText order) ++ (lineBreak ++
        ((bodyChunks chunkLen positive (encode response.body)).flatMap chunkBytes ++
          chunkBytes []))) := by
  have exact_ := (chunksExact_spec chunkLen positive (encode response.body)).2
  have last : ∀ bytes, writeChunk [] 0 bytes = bytes ++ chunkBytes [] := writeChunk_eq []
  simp only [writeChunked, bodyChunks, foldl_writeChunk _ exact_, last, Outcome.ok.injEq]
  split
  · rw [writeChunk_eq]
    simp only [encode_crlf, List.flatMap_append, List.flatMap_singleton, List.append_assoc]
    rfl
  · simp only [encode_crlf, List.append_nil, List.append_assoc]
    rfl

/-- In the chunked form headers still take one line each. -/
theorem ResponseHeader.OneLine.chunked {header : ResponseHeader} (oneLine : header.OneLine) :
    header.chunked.OneLine where
  version := oneLine.version
  values field value found := by
    unfold ResponseHeader.chunked at found
    by_cases encoding : field = .transferEncoding
    · rw [encoding, Finmap.lookup_insert] at found
      cases found
      decide
    · rw [Finmap.lookup_insert_of_ne _ encoding] at found
      by_cases length : field = .contentLength
      · rw [length, Finmap.lookup_erase] at found
        cases found
      · rw [Finmap.lookup_erase_ne length] at found
        exact oneLine.values field value found

/-- Written in chunks, every response is framed. -/
theorem framed_writeChunked (order : HeaderOrder) {response : Response}
    (oneLine : response.header.OneLine) {chunkLen : Nat} {positive : 0 < chunkLen}
    {bytes : Bytes} (written : writeChunked order response chunkLen positive = .ok bytes) :
    Framed bytes := by
  rw [writeChunked_eq] at written
  cases written
  refine ⟨_, _, _, readHead_header order oneLine.chunked _, .inr ⟨?_, ?_, ?_⟩⟩
  · refine (fieldValues_header order _ .contentLength).trans ?_
    rw [ResponseHeader.chunked, Finmap.lookup_insert_of_ne _ (by decide), Finmap.lookup_erase]
    rfl
  · refine (fieldValues_header order _ .transferEncoding).trans ?_
    rw [ResponseHeader.chunked, Finmap.lookup_insert]
    decide +kernel
  · have read := readChunks_flatMap _
      (bodyChunks_ne_nil chunkLen positive (encode response.body)) []
    rw [List.append_nil] at read
    exact ⟨_, read⟩

/-! ### Responses with a length -/

/-- How many bytes `Response::to_string` writes behind the head. -/
def plainLength (body : Text) : Nat := if body = [] then 0 else byteLength body + 2

private theorem encode_response (order : HeaderOrder) (response : Response) :
    ∃ rest : Bytes, encode (response.toText order) =
        encode (response.header.toText order) ++ (lineBreak ++ rest) ∧
      rest.length = plainLength response.body := by
  refine ⟨encode (if response.body = [] then [] else response.body ++ crlf), ?_, ?_⟩
  · rw [Response.toText, encode_append, encode_append, encode_crlf, List.append_assoc]
  · unfold plainLength
    split
    · rfl
    · rw [length_encode, byteLength_append]
      rfl

/-- Whether a length selects the chunked coding. -/
theorem isChunked_of_length {headerLines : ResponseHeaderLines} {length : Nat}
    (found : headerLines.lookup .contentLength = some (Text.decimal length)) :
    isChunked headerLines = decide (1024 < length) := by
  rw [isChunked, found]
  dsimp only
  rw [u32FromStr, Text.parseUnsigned_decimal]
  by_cases small : length < u32Bound
  · rw [if_pos small]
    rfl
  · rw [if_neg small]
    have large : 1024 < length := by
      unfold u32Bound at small
      omega
    simp only [large, decide_true]

/-- A response with a `Content-Length` is framed if that selects the chunked coding, or
else if it is the number of bytes behind the head and nothing announces the chunked
coding. -/
theorem framed_writeResponse_iff (order : HeaderOrder) {response : Response}
    (oneLine : response.header.OneLine) {length : Nat}
    (found : response.header.headerLines.lookup .contentLength = some (Text.decimal length))
    {bytes : Bytes} (written : writeResponse order response = .ok bytes) :
    Framed bytes ↔ 1024 < length ∨
      response.header.headerLines.lookup .transferEncoding = none ∧
        length = plainLength response.body := by
  rw [writeResponse, isChunked_of_length found] at written
  by_cases large : 1024 < length
  · rw [decide_eq_true large, if_pos rfl] at written
    exact iff_of_true (framed_writeChunked order oneLine written) (.inl large)
  · rw [decide_eq_false large, if_neg Bool.false_ne_true] at written
    cases written
    obtain ⟨rest, encoded, behind⟩ := encode_response order response
    have head := readHead_header order oneLine rest
    rw [← encoded] at head
    have lengths := fieldValues_header order response.header .contentLength
    have encodings := fieldValues_header order response.header .transferEncoding
    rw [found] at lengths
    simp only [Option.toList_some, List.map_cons, List.map_nil, Text.trim_decimal] at lengths
    constructor
    · rintro ⟨startLine, lines, rest', read, framed⟩
      rw [head] at read
      cases read
      rcases framed with ⟨length', none_⟩ | ⟨none_, -⟩
      · refine .inr ⟨?_, ?_⟩
        · have absent := encodings.symm.trans none_
          cases value : response.header.headerLines.lookup .transferEncoding with
          | none => rfl
          | some value' =>
              rw [value] at absent
              cases absent
        · have same := lengths.symm.trans length'
          rw [List.cons.injEq] at same
          rw [← behind]
          exact Text.decimal_injective (encode_injective same.1)
      · have absent := lengths.symm.trans none_
        cases absent
    · rintro (large' | ⟨unannounced, same⟩)
      · exact absurd large' large
      · refine ⟨_, _, _, head, .inl ⟨?_, ?_⟩⟩
        · apply lengths.trans
          rw [same, behind]
        · apply encodings.trans
          rw [unannounced]
          rfl

end RustHttpServer
