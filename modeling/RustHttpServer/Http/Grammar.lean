import RustHttpServer.Http.Request

/-!
# The grammar of requests

A request that the parser accepts is a request line and at least one header line,
each ended by a line break, a line break, and a body of the declared length
(`RequestText`); whatever follows is not part of it. The parser accepts exactly
these, and makes of them exactly the request they describe
(`tryParseRequest_fullRequest_iff`).
-/

namespace RustHttpServer

open Foundation Utf8

/-- A header line: a name, a colon, and a value. -/
structure HeaderText where
  name : Text
  value : Text
  name_noColon : ':' ∉ name
  noBreak : ¬ crlf <:+: name ++ ':' :: value

namespace HeaderText

/-- The line as it is written. -/
def text (header : HeaderText) : Text := header.name ++ ':' :: header.value

/-- The field that the name of a header line names. -/
def field (header : HeaderText) : RequestHeaderField := RequestHeaderField.fromStr header.name

end HeaderText

/-- The value of the last header line for a field. -/
def lastValue (headers : List HeaderText) (field : RequestHeaderField) : Option Text :=
  (headers.reverse.find? fun header => header.field = field).map fun header => header.value.trim

/-- The parts of a request line. -/
structure RequestLineText where
  method : Method
  target : Text
  version : Text
  /-- What follows the version after a further space. -/
  trailing : Option Text
  target_noSpace : ' ' ∉ target
  version_noSpace : ' ' ∉ version

namespace RequestLineText

/-- What stands on the line behind the version. -/
def trailingText (line : RequestLineText) : Text :=
  match line.trailing with
  | none => []
  | some trailing => ' ' :: trailing

/-- The line as it is written. -/
def text (line : RequestLineText) : Text :=
  line.method.toText ++ ' ' :: (line.target ++ ' ' :: (line.version ++ line.trailingText))

/-- The request line that a line describes: its target is cut at the first question
mark. -/
def requestLine (line : RequestLineText) : RequestLine where
  method := line.method
  requestPath := line.target.takeWhile (· ≠ '?')
  queryString := (line.target.dropWhile (· ≠ '?')).tail
  httpVersion := line.version

end RequestLineText

/-- A request as it is written. -/
structure RequestText where
  line : RequestLineText
  headers : List HeaderText
  body : Text
  line_noBreak : ¬ crlf <:+: line.text
  headers_nonempty : headers ≠ []
  /-- The body takes as many bytes as the last `Content-Length` says. -/
  body_length :
    match lastValue headers .contentLength with
    | none => byteLength body = 0
    | some declared => declared.parseUnsigned usizeBound = .ok (byteLength body)

/-- Header lines, each with its line break. -/
def headerBlock (headers : List HeaderText) : Text :=
  headers.flatMap fun header => header.text ++ crlf

namespace RequestText

/-- The request as it is sent. -/
def text (request : RequestText) : Text :=
  request.line.text ++ (crlf ++ (headerBlock request.headers ++ (crlf ++ request.body)))

/-- What is written is what a parsed request holds. -/
structure Describes (written : RequestText) (request : RequestNoRemote) : Prop where
  requestLine : request.header.requestLine = written.line.requestLine
  headerLines : ∀ field, request.header.headerLines.lookup field = lastValue written.headers field
  body : request.body = written.body

end RequestText

/-! ## Lines -/

/-- A line break is found behind any line that does not contain one. -/
theorem splitOnce_crlf_iff {text line rest : Text} :
    splitOnce text crlf = some (line, rest) ↔ text = line ++ (crlf ++ rest) ∧ ¬ crlf <:+: line :=
  splitOnce_pair_iff (by decide)

/-- A header is parsed around its first colon. -/
private theorem parseHeaderLine_eq_ok_iff {line : Text} {headerLine : RequestHeaderField × Text} :
    parseHeaderLine line = .ok headerLine ↔
      ∃ name value, line = name ++ ':' :: value ∧ ':' ∉ name ∧
        headerLine = (RequestHeaderField.fromStr name, Text.trim value) := by
  unfold parseHeaderLine
  cases found : splitOnce line [':'] with
  | none =>
      simp only [Outcome.okOr_none, Outcome.err_bind, reduceCtorEq, false_iff, not_exists, not_and]
      rintro name value rfl
      exact absurd (by simp) (splitOnce_char_eq_none_iff.mp found)
  | some fields =>
      obtain ⟨name, value⟩ := fields
      obtain ⟨whole, first⟩ := splitOnce_char_iff.mp found
      simp only [Outcome.okOr_some, Outcome.ok_bind, Outcome.pure_eq, Outcome.ok.injEq]
      constructor
      · rintro rfl
        exact ⟨name, value, whole, first, rfl⟩
      · rintro ⟨name', value', whole', first', rfl⟩
        have found' := splitOnce_char_iff.mpr ⟨whole', first'⟩
        rw [found] at found'
        cases found'
        rfl

private theorem parseHeaderLine_returns (line : Text) : (parseHeaderLine line).Returns :=
  (Outcome.Returns.okOr _ _).bind fun _ => .ok _

private theorem parseRequestLine_returns (line : Text) : (parseRequestLine line).Returns := by
  refine (Outcome.Returns.okOr _ _).bind fun method => ?_
  refine (Outcome.Returns.okOr _ _).bind fun target => ?_
  exact (Outcome.Returns.okOr _ _).bind fun version => .ok _

/-- A target is cut at its first question mark. -/
theorem target_cut (target : Text) :
    (splitOnce target ['?']).getD (target, []) =
      (target.takeWhile (· ≠ '?'), (target.dropWhile (· ≠ '?')).tail) := by
  cases found : splitOnce target ['?'] with
  | none =>
      have absent := splitOnce_char_eq_none_iff.mp found
      have all : ∀ char ∈ target, (decide (char ≠ '?')) = true := by
        intro char member
        exact decide_eq_true fun same => absent (same ▸ member)
      rw [Option.getD_none, List.takeWhile_eq_self_iff.mpr all, List.dropWhile_eq_nil_iff.mpr all,
        List.tail_nil]
  | some halves =>
      obtain ⟨path, query⟩ := halves
      obtain ⟨rfl, absent⟩ := splitOnce_char_iff.mp found
      have all : ∀ char ∈ path, (decide (char ≠ '?')) = true := by
        intro char member
        exact decide_eq_true fun same => absent (same ▸ member)
      rw [Option.getD_some, List.takeWhile_append_of_pos all, List.dropWhile_append_of_pos all]
      simp

/-- A request line that is written is read back. -/
theorem parseRequestLine_text (line : RequestLineText) :
    parseRequestLine line.text = .ok line.requestLine := by
  have word : ∀ (before after : Text), ' ' ∉ before →
      split (before ++ ' ' :: after) [' '] (by decide) = before :: split after [' '] (by decide) :=
    fun before after absent =>
      split_of_eq_some _ (splitOnce_char_iff.mpr ⟨rfl, absent⟩)
  have methodWord : ' ' ∉ line.method.toText := by cases line.method <;> decide
  have version : ∃ rest, split (line.version ++ line.trailingText) [' '] (by decide) =
      line.version :: rest := by
    unfold RequestLineText.trailingText
    cases line.trailing with
    | none =>
        dsimp only
        rw [List.append_nil]
        exact ⟨[], split_of_eq_none _
          (splitOnce_char_eq_none_iff.mpr line.version_noSpace)⟩
    | some trailing => exact ⟨_, word _ _ line.version_noSpace⟩
  obtain ⟨rest, version⟩ := version
  have words : split line.text [' '] (by decide) =
      line.method.toText :: line.target :: line.version :: rest := by
    rw [RequestLineText.text, word _ _ methodWord, word _ _ line.target_noSpace, version]
  have method : (if line.method.toText = "GET".toList then some Method.get
      else if line.method.toText = "POST".toList then some Method.post else none) =
        some line.method := by
    cases line.method <;> decide
  simp only [parseRequestLine, words, List.getElem?_cons_zero, List.getElem?_cons_succ,
    Option.bind_some, method, Option.map_some, target_cut, Outcome.okOr_some, Outcome.ok_bind]
  rfl

/-- Every request line that is parsed has been written. -/
private theorem exists_of_parseRequestLine {line : Text} {requestLine : RequestLine}
    (parsed : parseRequestLine line = .ok requestLine) :
    ∃ written : RequestLineText, line = written.text ∧ requestLine = written.requestLine := by
  simp only [parseRequestLine, Outcome.bind_eq_ok_iff, Outcome.okOr_eq_ok_iff,
    Option.map_eq_some_iff, Option.bind_eq_some_iff, target_cut, Outcome.pure_eq,
    Outcome.ok.injEq] at parsed
  obtain ⟨method, ⟨word, wordFound, named⟩, _, ⟨target, targetFound, rfl⟩, version, versionFound,
    rfl⟩ := parsed
  have methodWord : word = method.toText := by
    split at named
    · next same => cases named; exact same
    · split at named
      · next same => cases named; exact same
      · cases named
  cases first : splitOnce line [' '] with
  | none =>
      rw [split_of_eq_none _ first] at targetFound
      simp at targetFound
  | some halves =>
      obtain ⟨before, rest⟩ := halves
      obtain ⟨whole, -⟩ := splitOnce_char_iff.mp first
      rw [split_of_eq_some _ first] at wordFound targetFound versionFound
      simp only [List.getElem?_cons_zero, Option.some.injEq] at wordFound
      simp only [List.getElem?_cons_succ] at targetFound versionFound
      cases second : splitOnce rest [' '] with
      | none =>
          rw [split_of_eq_none _ second] at versionFound
          simp at versionFound
      | some halves =>
          obtain ⟨before', rest'⟩ := halves
          obtain ⟨whole', targetNoSpace⟩ := splitOnce_char_iff.mp second
          rw [split_of_eq_some _ second] at targetFound versionFound
          simp only [List.getElem?_cons_zero, Option.some.injEq] at targetFound
          simp only [List.getElem?_cons_succ] at versionFound
          cases third : splitOnce rest' [' '] with
          | none =>
              rw [split_of_eq_none _ third] at versionFound
              simp only [List.getElem?_cons_zero, Option.some.injEq] at versionFound
              subst before before' rest'
              refine ⟨⟨method, target, version, none, targetNoSpace,
                splitOnce_char_eq_none_iff.mp third⟩, ?_, rfl⟩
              rw [whole, whole', methodWord, RequestLineText.text, RequestLineText.trailingText,
                List.append_nil]
          | some halves =>
              obtain ⟨before'', trailing⟩ := halves
              obtain ⟨whole'', versionNoSpace⟩ := splitOnce_char_iff.mp third
              rw [split_of_eq_some _ third] at versionFound
              simp only [List.getElem?_cons_zero, Option.some.injEq] at versionFound
              subst before before' before''
              refine ⟨⟨method, target, version, some trailing, targetNoSpace, versionNoSpace⟩,
                ?_, rfl⟩
              rw [whole, whole', whole'', methodWord, RequestLineText.text,
                RequestLineText.trailingText]

/-! ## Header lines and the body -/

/-- The header map after some more header lines. -/
def insertAll (headerLines : RequestHeaderLines) (headers : List HeaderText) :
    RequestHeaderLines :=
  headers.foldl (fun headerLines header =>
    headerLines.insert header.field header.value.trim) headerLines

/-- The last line for a field decides its value. -/
theorem lookup_insertAll (headerLines : RequestHeaderLines) (headers : List HeaderText)
    (field : RequestHeaderField) :
    (insertAll headerLines headers).lookup field =
      (lastValue headers field).or (headerLines.lookup field) := by
  have entries : insertAll headerLines headers = headerLines.insertAll
      (headers.map fun header => (header.field, header.value.trim)) := by
    rw [insertAll, HashMap.insertAll, List.foldl_map]
  rw [entries, HashMap.lookup_insertAll, ← List.map_reverse, List.find?_map, Option.map_map]
  rfl

/-- The length that is declared is that of the last Content-Length, if it is a number. -/
theorem declaredLength_eq_ok_iff {headerLines : RequestHeaderLines} {length : Nat} :
    declaredLength headerLines = .ok length ↔
      match headerLines.lookup .contentLength with
      | none => length = 0
      | some declared => declared.parseUnsigned usizeBound = .ok length := by
  unfold declaredLength
  cases headerLines.lookup .contentLength with
  | none => simp only [Outcome.ok.injEq, eq_comm]
  | some declared =>
      dsimp only
      unfold usizeFromStr
      cases declared.parseUnsigned usizeBound <;> simp

private theorem parseHeaderLine_text (header : HeaderText) :
    parseHeaderLine header.text = .ok (header.field, header.value.trim) :=
  parseHeaderLine_eq_ok_iff.mpr ⟨header.name, header.value, rfl, header.name_noColon, rfl⟩

/-- A header line that parses is one of the grammar. -/
theorem exists_of_parseHeaderLine {line : Text} {headerLine : RequestHeaderField × Text}
    (noBreak : ¬ crlf <:+: line) (parsed : parseHeaderLine line = .ok headerLine) :
    ∃ header : HeaderText, line = header.text ∧ headerLine = (header.field, header.value.trim) := by
  obtain ⟨name, value, rfl, noColon, rfl⟩ := parseHeaderLine_eq_ok_iff.mp parsed
  exact ⟨⟨name, value, noColon, noBreak⟩, rfl, rfl⟩

private theorem HeaderText.text_ne_nil (header : HeaderText) : header.text ≠ [] := by
  simp [HeaderText.text]

@[simp] theorem headerBlock_nil : headerBlock [] = [] := rfl

/-- The lines of the headers follow each other. -/
@[simp] theorem headerBlock_cons (header : HeaderText) (headers : List HeaderText) :
    headerBlock (header :: headers) = header.text ++ (crlf ++ headerBlock headers) := by
  rw [headerBlock, List.flatMap_cons, List.append_assoc, ← headerBlock]

namespace Stage

/-- The body is complete if the text begins with as many bytes as are left. -/
theorem advance_inBody_eq_full_iff {requestLine : RequestLine} {headerLines : RequestHeaderLines}
    {bytesLeft : Nat} {text : Text} {request : RequestNoRemote} :
    advance (.inBody requestLine headerLines [] bytesLeft) text = .ok (.fullRequest request) ↔
      ∃ body rest, text = body ++ rest ∧ byteLength body = bytesLeft ∧
        request = ⟨⟨requestLine, headerLines⟩, body⟩ := by
  rw [advance_inBody]
  constructor
  · intro full
    split at full
    · split at full
      · cases full
      · next body rest cut =>
          obtain ⟨whole, length⟩ := Text.splitAt?_eq_some_iff.mp cut
          cases full
          exact ⟨body, rest, whole, length, rfl⟩
    · cases full
  · rintro ⟨body, rest, rfl, rfl, rfl⟩
    rw [if_pos (by rw [byteLength_append]; omega), Text.splitAt?_byteLength]
    rfl

/-- The parser is not done with a text: it waits for more of it, or has found an error. -/
def Unfinished (outcome : Outcome Error IncrementalRequest) : Prop :=
  (∃ (stage : Stage) (held : Bytes), outcome = .ok (stage.holding held)) ∨
    ∃ error, outcome = .err error

/-- What is not done is no complete request. -/
theorem Unfinished.ne_full {outcome : Outcome Error IncrementalRequest}
    (unfinished : Unfinished outcome) (request : RequestNoRemote) :
    outcome ≠ .ok (.fullRequest request) := by
  rintro rfl
  rcases unfinished with ⟨stage, held, same⟩ | ⟨error, ⟨⟩⟩
  have incomplete := stage.isFull_holding held
  rw [← Outcome.ok.inj same] at incomplete
  cases incomplete

/-- What is not done has not aborted. -/
theorem Unfinished.ne_abort {outcome : Outcome Error IncrementalRequest}
    (unfinished : Unfinished outcome) : outcome ≠ .abort := by
  rintro rfl
  rcases unfinished with ⟨stage, held, ⟨⟩⟩ | ⟨error, ⟨⟩⟩

/-- Behind header lines and a blank line, the parser goes on with the body. -/
theorem advance_inHeader_block (requestLine : RequestLine) (headerLines : RequestHeaderLines)
    (headers : List HeaderText) (rest : Text) :
    advance (.inHeader requestLine headerLines) (headerBlock headers ++ (crlf ++ rest)) =
      declaredLength (insertAll headerLines headers) >>= fun bytesLeft =>
        advance (.inBody requestLine (insertAll headerLines headers) [] bytesLeft) rest := by
  induction headers generalizing headerLines with
  | nil =>
      have blank : splitOnce (headerBlock [] ++ (crlf ++ rest)) crlf = some ([], rest) :=
        splitOnce_crlf_iff.mpr ⟨rfl, by decide⟩
      rw [advance_inHeader, blank]
      rfl
  | cons header headers ih =>
      have next : splitOnce (headerBlock (header :: headers) ++ (crlf ++ rest)) crlf =
          some (header.text, headerBlock headers ++ (crlf ++ rest)) := by
        refine splitOnce_crlf_iff.mpr ⟨?_, header.noBreak⟩
        rw [headerBlock_cons, List.append_assoc, List.append_assoc]
      rw [advance_inHeader, next]
      dsimp only
      rw [if_neg header.text_ne_nil, parseHeaderLine_text, Outcome.ok_bind]
      exact ih _

/-- From within the header, the parser goes on with the body only behind header lines and a
blank line. -/
theorem advance_inHeader_cases (requestLine : RequestLine) (headerLines : RequestHeaderLines)
    (text : Text) : (∃ headers rest, text = headerBlock headers ++ (crlf ++ rest)) ∨
      Unfinished (advance (.inHeader requestLine headerLines) text) := by
  induction length : text.length using Nat.strong_induction_on generalizing headerLines text with
  | h size ih =>
    rw [advance_inHeader]
    cases found : splitOnce text crlf with
    | none => exact .inr (.inl ⟨.inHeader requestLine headerLines, encode text, rfl⟩)
    | some halves =>
        obtain ⟨line, rest⟩ := halves
        obtain ⟨whole, noBreak⟩ := splitOnce_crlf_iff.mp found
        have shorter := splitOnce_length found
        dsimp only
        split
        · next blank =>
            rw [blank] at whole
            exact .inl ⟨[], rest, whole⟩
        · cases parsed : parseHeaderLine line with
          | err error => exact .inr (.inr ⟨error, rfl⟩)
          | abort => exact absurd parsed (parseHeaderLine_returns line)
          | ok headerLine =>
              obtain ⟨header, rfl, rfl⟩ := exists_of_parseHeaderLine noBreak parsed
              have behind :=
                ih rest.length (by simp only [crlf, List.length_cons] at shorter; omega)
                (headerLines.insert header.field header.value.trim) rest rfl
              refine behind.imp_left ?_
              rintro ⟨headers, body, rfl⟩
              refine ⟨header :: headers, body, ?_⟩
              rw [whole, headerBlock_cons, List.append_assoc, List.append_assoc]

/-- Behind a head, the parser goes on with the body. -/
theorem advance_start_head (line : RequestLineText) (noBreak : ¬ crlf <:+: line.text)
    {headers : List HeaderText} (nonempty : headers ≠ []) (rest : Text) :
    advance .start (line.text ++ (crlf ++ (headerBlock headers ++ (crlf ++ rest)))) =
      declaredLength (insertAll ∅ headers) >>= fun bytesLeft =>
        advance (.inBody line.requestLine (insertAll ∅ headers) [] bytesLeft) rest := by
  cases headers with
  | nil => exact absurd rfl nonempty
  | cons header headers =>
      have atLine : splitOnce (line.text ++ (crlf ++ (headerBlock (header :: headers) ++
          (crlf ++ rest)))) crlf =
            some (line.text, headerBlock (header :: headers) ++ (crlf ++ rest)) :=
        splitOnce_crlf_iff.mpr ⟨rfl, noBreak⟩
      have atHeader : splitOnce (headerBlock (header :: headers) ++ (crlf ++ rest)) crlf =
          some (header.text, headerBlock headers ++ (crlf ++ rest)) := by
        refine splitOnce_crlf_iff.mpr ⟨?_, header.noBreak⟩
        rw [headerBlock_cons, List.append_assoc, List.append_assoc]
      rw [advance_start, atLine]
      dsimp only
      rw [parseRequestLine_text, Outcome.ok_bind, advance_afterLine, atHeader]
      dsimp only
      rw [parseHeaderLine_text, Outcome.ok_bind]
      exact advance_inHeader_block line.requestLine _ headers rest

/-- The parser goes on with the body only behind a head: a request line and at least one
header line, each ended by a line break, and a line break. -/
theorem advance_start_cases (w : Text) :
    (∃ (line : RequestLineText) (headers : List HeaderText) (rest : Text),
      ¬ crlf <:+: line.text ∧ headers ≠ [] ∧
        w = line.text ++ (crlf ++ (headerBlock headers ++ (crlf ++ rest)))) ∨
      Unfinished (advance .start w) := by
  rw [advance_start]
  cases found : splitOnce w crlf with
  | none => exact .inr (.inl ⟨.start, encode w, rfl⟩)
  | some halves =>
      obtain ⟨line, rest⟩ := halves
      obtain ⟨whole, noBreak⟩ := splitOnce_crlf_iff.mp found
      dsimp only
      cases parsed : parseRequestLine line with
      | err error => exact .inr (.inr ⟨error, rfl⟩)
      | abort => exact absurd parsed (parseRequestLine_returns line)
      | ok requestLine =>
          obtain ⟨lineText, rfl, rfl⟩ := exists_of_parseRequestLine parsed
          rw [Outcome.ok_bind, advance_afterLine]
          cases found' : splitOnce rest crlf with
          | none => exact .inr (.inl ⟨.afterLine lineText.requestLine, encode rest, rfl⟩)
          | some halves =>
              obtain ⟨first, behind⟩ := halves
              obtain ⟨whole', noBreak'⟩ := splitOnce_crlf_iff.mp found'
              dsimp only
              cases parsed' : parseHeaderLine first with
              | err error => exact .inr (.inr ⟨error, rfl⟩)
              | abort => exact absurd parsed' (parseHeaderLine_returns first)
              | ok headerLine =>
                  obtain ⟨header, rfl, rfl⟩ := exists_of_parseHeaderLine noBreak' parsed'
                  refine (advance_inHeader_cases _ _ behind).imp_left ?_
                  rintro ⟨headers, body, rfl⟩
                  refine ⟨lineText, header :: headers, body, noBreak, List.cons_ne_nil _ _, ?_⟩
                  rw [whole, whole', headerBlock_cons, List.append_assoc, List.append_assoc]

end Stage

/-- A map that holds the last value of every field is the one that the parser
builds. -/
theorem eq_insertAll {headerLines : RequestHeaderLines} {headers : List HeaderText}
    (values : ∀ field, headerLines.lookup field = lastValue headers field) :
    headerLines = insertAll ∅ headers := by
  apply Finmap.ext_lookup
  intro field
  rw [values, lookup_insertAll, Finmap.lookup_empty, Option.or_none]

/-- Of each header the last value counts. -/
theorem lookup_insertAll_empty (headers : List HeaderText) (field : RequestHeaderField) :
    (insertAll ∅ headers).lookup field = lastValue headers field := by
  rw [lookup_insertAll, Finmap.lookup_empty, Option.or_none]

/-- **The parser accepts exactly its grammar.** Handed a whole text, it returns a
request exactly when the text is a written request and anything behind it, and
the request it returns is the one written. -/
theorem tryParseRequest_fullRequest_iff (w : Text) (request : RequestNoRemote) :
    tryParseRequest (encode w) (.none []) = .ok (.fullRequest request) ↔
      ∃ (written : RequestText) (rest : Text), w = written.text ++ rest ∧
        written.Describes request := by
  change Stage.advance .start w = _ ↔ _
  constructor
  · intro full
    rcases Stage.advance_start_cases w with ⟨line, headers, rest, noBreak, nonempty, rfl⟩ |
      unfinished
    · rw [Stage.advance_start_head line noBreak nonempty] at full
      obtain ⟨length, declared, full⟩ := Outcome.bind_eq_ok_iff.mp full
      obtain ⟨body, after, rfl, rfl, rfl⟩ := Stage.advance_inBody_eq_full_iff.mp full
      rw [declaredLength_eq_ok_iff, lookup_insertAll_empty] at declared
      refine ⟨⟨line, headers, body, noBreak, nonempty, declared⟩, after, ?_, rfl,
        lookup_insertAll_empty headers, rfl⟩
      simp only [RequestText.text, List.append_assoc]
    · exact absurd full (unfinished.ne_full request)
  · rintro ⟨written, rest, rfl, describes⟩
    obtain ⟨line, headers, body, noBreak, nonempty, length⟩ := written
    obtain ⟨⟨requestLine, headerLines⟩, requestBody⟩ := request
    obtain ⟨sameLine, values, sameBody⟩ := describes
    dsimp only at sameLine values sameBody
    subst requestLine requestBody
    obtain rfl := eq_insertAll values
    have declared : declaredLength (insertAll ∅ headers) = .ok (byteLength body) := by
      rw [declaredLength_eq_ok_iff, lookup_insertAll_empty]
      exact length
    simp only [RequestText.text, List.append_assoc]
    rw [Stage.advance_start_head line noBreak nonempty, declared, Outcome.ok_bind]
    exact Stage.advance_inBody_eq_full_iff.mpr ⟨body, rest, rfl, rfl, rfl⟩

/-! ## No request is the beginning of another -/

/-- A line is written in one way. -/
theorem HeaderText.text_injective : Function.Injective HeaderText.text := by
  rintro ⟨name, value, noColon, noBreak⟩ ⟨name', value', noColon', noBreak'⟩ same
  have cut : splitOnce (name ++ ':' :: value) [':'] = some (name', value') :=
    splitOnce_char_iff.mpr ⟨same, noColon'⟩
  rw [splitOnce_char_iff.mpr ⟨rfl, noColon⟩] at cut
  cases cut
  rfl

/-- Header lines end at the first empty line. -/
theorem headerBlock_unique {headers others : List HeaderText} {rest after : Text}
    (same : headerBlock headers ++ (crlf ++ rest) = headerBlock others ++ (crlf ++ after)) :
    headers = others ∧ rest = after := by
  have blank : ∀ rest : Text, splitOnce (headerBlock [] ++ (crlf ++ rest)) crlf = some ([], rest) :=
    fun rest => splitOnce_crlf_iff.mpr ⟨rfl, by decide⟩
  have line : ∀ (header : HeaderText) (headers : List HeaderText) (rest : Text),
      splitOnce (headerBlock (header :: headers) ++ (crlf ++ rest)) crlf =
        some (header.text, headerBlock headers ++ (crlf ++ rest)) := by
    intro header headers rest
    refine splitOnce_crlf_iff.mpr ⟨?_, header.noBreak⟩
    rw [headerBlock_cons, List.append_assoc, List.append_assoc]
  induction headers generalizing others with
  | nil =>
      cases others with
      | nil =>
          have cut := blank rest
          rw [same, blank] at cut
          cases cut
          exact ⟨rfl, rfl⟩
      | cons header others =>
          have cut := blank rest
          rw [same, line] at cut
          exact absurd (Prod.mk.inj (Option.some.inj cut)).1 header.text_ne_nil
  | cons header headers ih =>
      cases others with
      | nil =>
          have cut := blank after
          rw [← same, line] at cut
          exact absurd (Prod.mk.inj (Option.some.inj cut)).1 header.text_ne_nil
      | cons other others =>
          have cut := line other others after
          rw [← same, line] at cut
          obtain ⟨first, behind⟩ := Prod.mk.inj (Option.some.inj cut)
          obtain ⟨rfl, rfl⟩ := ih behind
          exact ⟨congrArg (· :: headers) (HeaderText.text_injective first), rfl⟩

/-- **No request is the beginning of another.** Nothing can follow a request that makes it
another request. -/
theorem RequestText.eq_nil_of_append {written other : RequestText} {more : Text}
    (same : other.text = written.text ++ more) : more = [] := by
  have cut : ∀ (request : RequestText) (rest : Text), splitOnce (request.text ++ rest) crlf =
      some (request.line.text,
        headerBlock request.headers ++ (crlf ++ (request.body ++ rest))) := by
    intro request rest
    refine splitOnce_crlf_iff.mpr ⟨?_, request.line_noBreak⟩
    simp only [RequestText.text, List.append_assoc]
  have whole := cut other []
  rw [List.append_nil, List.append_nil, same, cut] at whole
  obtain ⟨headers, body⟩ := headerBlock_unique (Prod.mk.inj (Option.some.inj whole)).2
  have length : byteLength written.body = byteLength other.body := by
    have declared := written.body_length
    have declared' := other.body_length
    rw [headers] at declared
    cases found : lastValue other.headers .contentLength with
    | none =>
        rw [found] at declared declared'
        exact declared.trans declared'.symm
    | some value =>
        rw [found] at declared declared'
        exact Except.ok.inj (declared.symm.trans declared')
  rw [← body, byteLength_append] at length
  exact byteLength_eq_zero.mp (by omega)

end RustHttpServer
