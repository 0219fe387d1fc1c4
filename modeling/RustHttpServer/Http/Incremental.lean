import RustHttpServer.Http.Request

/-!
# Incremental parsing

The drivers feed a request to the parser as its bytes arrive, and stop at the first
error, abort or full request. How the bytes were cut makes no difference: as long
as no character is cut, every way of cutting a stream ends like handing it over
whole (`feedAll_encode`).
-/

namespace RustHttpServer

open Foundation Utf8

/-- Hands new bytes to the parser, unless the request is complete. -/
def feed (chunk : Bytes) (state : IncrementalRequest) : Outcome Error IncrementalRequest :=
  if state.isFull then .ok state else tryParseRequest chunk state

/-- Hands the chunks of a stream to the parser one after another. -/
def feedAll : List Bytes → IncrementalRequest → Outcome Error IncrementalRequest
  | [], state => .ok state
  | chunk :: chunks, state => feed chunk state >>= feedAll chunks

/-- Chunks are fed one after the other. -/
theorem feedAll_append (first second : List Bytes) (state : IncrementalRequest) :
    feedAll (first ++ second) state = feedAll first state >>= feedAll second := by
  induction first generalizing state with
  | nil => rfl
  | cons chunk first ih =>
      rw [List.cons_append, feedAll, feedAll, bind_assoc]
      exact bind_congr ih

/-- A complete request takes no more chunks. -/
@[simp] theorem feed_fullRequest (chunk : Bytes) (request : RequestNoRemote) :
    feed chunk (.fullRequest request) = .ok (.fullRequest request) := rfl

namespace Stage

/-- A chunk is parsed behind what is held. -/
@[simp] theorem feed_holding (stage : Stage) (held text : Text) :
    feed (encode text) (stage.holding (encode held)) = stage.advance (held ++ text) := by
  rw [feed, isFull_holding, if_neg Bool.false_ne_true, tryParseRequest_encode]

private theorem byteLength_le_of_prefix {text more before after : Text}
    (split : text ++ more = before ++ after) (short : byteLength before ≤ byteLength text) :
    ∃ rest, text = before ++ rest := by
  rcases List.append_eq_append_iff.mp split with ⟨rest, extended, _⟩ | ⟨rest, whole, _⟩
  · rw [extended, byteLength_append] at short
    have nothing : rest = [] := byteLength_eq_zero.mp (by omega)
    exact ⟨[], by rw [extended, nothing, List.append_nil, List.append_nil]⟩
  · exact ⟨rest, whole⟩

/-- A body cut anywhere between characters is put together again. -/
theorem advance_inBody_append (requestLine : RequestLine) (headerLines : RequestHeaderLines)
    (body : Text) (bytesLeft : Nat) (first second : Text) :
    advance (.inBody requestLine headerLines body bytesLeft) (first ++ second) =
      advance (.inBody requestLine headerLines body bytesLeft) first >>= feed (encode second) := by
  rw [advance_inBody, advance_inBody]
  by_cases within : bytesLeft ≤ byteLength first
  · have enough : bytesLeft ≤ byteLength (first ++ second) := by
      rw [byteLength_append]
      omega
    rw [if_pos within, if_pos enough]
    cases cut : first.splitAt? bytesLeft with
    | some halves =>
        obtain ⟨added, rest⟩ := halves
        obtain ⟨rfl, rfl⟩ := Text.splitAt?_eq_some_iff.mp cut
        rw [List.append_assoc, Text.splitAt?_byteLength]
        rfl
    | none =>
        -- No boundary of a character in the whole text, as there is none in `first`.
        have uncut : Text.splitAt? (first ++ second) bytesLeft = none := by
          cases whole : Text.splitAt? (first ++ second) bytesLeft with
          | none => rfl
          | some halves =>
              obtain ⟨split, offset⟩ := Text.splitAt?_eq_some_iff.mp whole
              obtain ⟨rest, inside⟩ := byteLength_le_of_prefix split (by omega)
              rw [Text.splitAt?_eq_some_iff.mpr ⟨inside, offset⟩] at cut
              cases cut
        rw [uncut]
        rfl
  · rw [if_neg within, Outcome.ok_bind]
    have continued := feed_holding
      (.inBody requestLine headerLines (body ++ first) (bytesLeft - byteLength first)) [] second
    rw [encode_nil, holding, List.nil_append] at continued
    rw [continued, advance_inBody, byteLength_append]
    by_cases enough : bytesLeft ≤ byteLength first + byteLength second
    · have enough' : bytesLeft - byteLength first ≤ byteLength second := by omega
      rw [if_pos enough, if_pos enough']
      cases cut : second.splitAt? (bytesLeft - byteLength first) with
      | some halves =>
          obtain ⟨added, rest⟩ := halves
          obtain ⟨rfl, offset⟩ := Text.splitAt?_eq_some_iff.mp cut
          have whole : Text.splitAt? (first ++ (added ++ rest)) bytesLeft =
              some (first ++ added, rest) :=
            Text.splitAt?_eq_some_iff.mpr
              ⟨(List.append_assoc ..).symm, by rw [byteLength_append]; omega⟩
          rw [whole]
          simp only [List.append_assoc]
      | none =>
          have uncut : Text.splitAt? (first ++ second) bytesLeft = none := by
            cases whole : Text.splitAt? (first ++ second) bytesLeft with
            | none => rfl
            | some halves =>
                obtain ⟨before, after⟩ := halves
                obtain ⟨split, offset⟩ := Text.splitAt?_eq_some_iff.mp whole
                obtain ⟨added, inside⟩ := byteLength_le_of_prefix split.symm (by omega)
                rw [inside, List.append_assoc] at split
                have tail := List.append_cancel_left split
                have offset' : byteLength added = bytesLeft - byteLength first := by
                  rw [← offset, inside, byteLength_append]
                  omega
                rw [Text.splitAt?_eq_some_iff.mpr ⟨tail, offset'⟩] at cut
                cases cut
          rw [uncut]
    · have short : ¬ bytesLeft - byteLength first ≤ byteLength second := by omega
      have left : bytesLeft - (byteLength first + byteLength second) =
          bytesLeft - byteLength first - byteLength second := by omega
      rw [if_neg enough, if_neg short, left, List.append_assoc]

/-- What follows a line is shorter than the text. -/
theorem length_lt_of_splitOnce_crlf {text line rest : Text}
    (found : splitOnce text crlf = some (line, rest)) : rest.length < text.length := by
  have total := splitOnce_length found
  simp only [crlf, List.length_cons, List.length_nil] at total
  omega

/-- **A cut makes no difference.** Parsing a text is parsing its first part and
feeding the second part to what that comes to. The induction is on the length of
the first part, of which every line break uses up some. -/
theorem advance_append (stage : Stage) (first second : Text) :
    stage.advance (first ++ second) = stage.advance first >>= feed (encode second) := by
  induction length : first.length using Nat.strong_induction_on generalizing stage first with
  | h size ih =>
    have shorter : ∀ {line rest : Text}, splitOnce first crlf = some (line, rest) →
        rest.length < size := fun found => length ▸ length_lt_of_splitOnce_crlf found
    cases stage with
    | start =>
        rw [advance_start, advance_start]
        cases found : splitOnce first crlf with
        | none =>
            have resumed := feed_holding .start first second
            rw [holding, advance_start] at resumed
            exact resumed.symm
        | some halves =>
            obtain ⟨line, rest⟩ := halves
            simp only [splitOnce_append second found, bind_assoc]
            exact bind_congr fun requestLine => ih _ (shorter found) _ rest rfl
    | afterLine requestLine =>
        rw [advance_afterLine, advance_afterLine]
        cases found : splitOnce first crlf with
        | none =>
            have resumed := feed_holding (.afterLine requestLine) first second
            rw [holding, advance_afterLine] at resumed
            exact resumed.symm
        | some halves =>
            obtain ⟨line, rest⟩ := halves
            simp only [splitOnce_append second found, bind_assoc]
            exact bind_congr fun headerLine => ih _ (shorter found) _ rest rfl
    | inHeader requestLine headerLines =>
        rw [advance_inHeader, advance_inHeader]
        cases found : splitOnce first crlf with
        | none =>
            have resumed := feed_holding (.inHeader requestLine headerLines) first second
            rw [holding, advance_inHeader] at resumed
            exact resumed.symm
        | some halves =>
            obtain ⟨line, rest⟩ := halves
            simp only [splitOnce_append second found]
            by_cases blank : line = []
            · simp only [if_pos blank, bind_assoc]
              exact bind_congr fun bytesLeft => ih _ (shorter found) _ rest rfl
            · simp only [if_neg blank, bind_assoc]
              exact bind_congr fun headerLine => ih _ (shorter found) _ rest rfl
    | inBody requestLine headerLines body bytesLeft =>
        exact advance_inBody_append requestLine headerLines body bytesLeft first second

/-- Feeding chunks to what a text comes to is parsing the text with the chunks
behind it. -/
theorem advance_feedAll (stage : Stage) (text : Text) (chunks : List Text) :
    stage.advance text >>= feedAll (chunks.map encode) =
      stage.advance (text ++ chunks.flatten) := by
  induction chunks generalizing text with
  | nil =>
      rw [List.flatten_nil, List.append_nil]
      exact bind_pure _
  | cons chunk chunks ih =>
      rw [List.flatten_cons, ← List.append_assoc, ← ih, advance_append, bind_assoc]
      rfl

end Stage

/-- The bytes that are held back are those of a text. -/
def IncrementalRequest.HoldsText (incrementalRequest : IncrementalRequest) : Prop :=
  ∃ text, incrementalRequest.buffered = encode text

namespace Stage

/-- A request that is not complete is at a stage. -/
theorem exists_holding {incrementalRequest : IncrementalRequest}
    (incomplete : incrementalRequest.isFull = false) :
    ∃ stage : Stage, incrementalRequest = stage.holding incrementalRequest.buffered := by
  cases incrementalRequest with
  | none buf => exact ⟨.start, rfl⟩
  | requestLine requestLine buf => exact ⟨.afterLine requestLine, rfl⟩
  | headerLines requestLine headerLines buf => exact ⟨.inHeader requestLine headerLines, rfl⟩
  | body requestLine headerLines body bytesLeft buf =>
      exact ⟨.inBody requestLine headerLines body bytesLeft, rfl⟩
  | fullRequest request => cases incomplete

/-- What the parser holds back is text. -/
private theorem holdsText_of_advance {stage : Stage} {text : Text} {parsed : IncrementalRequest}
    (advanced : stage.advance text = .ok parsed) : parsed.HoldsText := by
  induction length : text.length using Nat.strong_induction_on generalizing stage text with
  | h size ih =>
    have shorter : ∀ {line rest : Text}, splitOnce text crlf = some (line, rest) →
        rest.length < size := fun found => length ▸ length_lt_of_splitOnce_crlf found
    cases stage with
    | start =>
        rw [advance_start] at advanced
        cases found : splitOnce text crlf with
        | none =>
            rw [found] at advanced
            cases advanced
            exact ⟨text, rfl⟩
        | some halves =>
            rw [found] at advanced
            obtain ⟨requestLine, _, advanced⟩ := Outcome.bind_eq_ok_iff.mp advanced
            exact ih _ (shorter found) advanced rfl
    | afterLine requestLine =>
        rw [advance_afterLine] at advanced
        cases found : splitOnce text crlf with
        | none =>
            rw [found] at advanced
            cases advanced
            exact ⟨text, rfl⟩
        | some halves =>
            rw [found] at advanced
            obtain ⟨headerLine, _, advanced⟩ := Outcome.bind_eq_ok_iff.mp advanced
            exact ih _ (shorter found) advanced rfl
    | inHeader requestLine headerLines =>
        rw [advance_inHeader] at advanced
        cases found : splitOnce text crlf with
        | none =>
            rw [found] at advanced
            cases advanced
            exact ⟨text, rfl⟩
        | some halves =>
            rw [found] at advanced
            dsimp only at advanced
            split at advanced
            · obtain ⟨bytesLeft, _, advanced⟩ := Outcome.bind_eq_ok_iff.mp advanced
              exact ih _ (shorter found) advanced rfl
            · obtain ⟨headerLine, _, advanced⟩ := Outcome.bind_eq_ok_iff.mp advanced
              exact ih _ (shorter found) advanced rfl
    | inBody requestLine headerLines body bytesLeft =>
        rw [advance_inBody] at advanced
        split at advanced
        · cases cut : text.splitAt? bytesLeft with
          | none =>
              rw [cut] at advanced
              cases advanced
          | some halves =>
              rw [cut] at advanced
              cases advanced
              exact ⟨[], rfl⟩
        · cases advanced
          exact ⟨[], rfl⟩

end Stage

/-- After a call, what is held back is text. -/
theorem holdsText_of_tryParseRequest {latest : Bytes}
    {incrementalRequest parsed : IncrementalRequest}
    (before : incrementalRequest.HoldsText)
    (parses : tryParseRequest latest incrementalRequest = .ok parsed) : parsed.HoldsText := by
  cases full : incrementalRequest.isFull with
  | true =>
      cases incrementalRequest with
      | fullRequest request =>
          unfold tryParseRequest at parses
          cases parses
      | _ => cases full
  | false =>
      obtain ⟨stage, staged⟩ := Stage.exists_holding full
      obtain ⟨held, text⟩ := before
      rw [text] at staged
      cases decoded : decode latest with
      | ok more =>
          rw [staged, decode_eq_ok_iff.mp decoded, Stage.tryParseRequest_encode] at parses
          exact Stage.holdsText_of_advance parses
      | error invalid =>
          obtain ⟨error, fails⟩ := stage.tryParseRequest_of_invalid held decoded
          rw [staged, fails] at parses
          cases parses

/-- Bytes that are not text are an error wherever they come. -/
theorem tryParseRequest_of_not_text {latest : Bytes} {incrementalRequest : IncrementalRequest}
    {invalid : Utf8Error} (before : incrementalRequest.HoldsText)
    (incomplete : incrementalRequest.isFull = false)
    (undecodable : decode latest = .error invalid) :
    ∃ error, tryParseRequest latest incrementalRequest = .err error := by
  obtain ⟨stage, staged⟩ := Stage.exists_holding incomplete
  obtain ⟨held, text⟩ := before
  rw [staged, text]
  exact stage.tryParseRequest_of_invalid held undecodable

/-- However a stream is cut between characters, feeding its chunks ends like
handing it over whole. -/
theorem feedAll_encode (chunks : List Text) :
    feedAll (chunks.map encode) (.none []) =
      tryParseRequest (encode chunks.flatten) (.none []) := by
  have fed := Stage.advance_feedAll .start [] chunks
  rw [Stage.advance_start] at fed
  exact fed

/-- **Split independence.** Two ways of cutting one stream between characters end in
the same outcome, which is that of handing it over whole. -/
theorem feedAll_split_independent (first second : List Text)
    (same : first.flatten = second.flatten) :
    feedAll (first.map encode) (.none []) = feedAll (second.map encode) (.none []) ∧
      feedAll (first.map encode) (.none []) =
        tryParseRequest (encode first.flatten) (.none []) := by
  rw [feedAll_encode, feedAll_encode, same]
  exact ⟨rfl, rfl⟩

/-- A request cut between the two characters of a line break, and inside a header
name and the body. -/
theorem feedAll_split_independent_crlf :
    feedAll (["GET / HTTP/1.1\r".toList, "\nContent-Len".toList, "gth: 2\r\n\r\nh".toList,
        "ié".toList].map encode) (.none []) =
      feedAll (["GET / HTTP/1.1\r\nContent-Length: 2\r\n\r\nhié".toList].map encode) (.none []) ∧
    feedAll (["GET / HTTP/1.1\r".toList, "\nContent-Len".toList, "gth: 2\r\n\r\nh".toList,
        "ié".toList].map encode) (.none []) =
      tryParseRequest (encode (["GET / HTTP/1.1\r".toList, "\nContent-Len".toList,
        "gth: 2\r\n\r\nh".toList, "ié".toList].flatten)) (.none []) :=
  feedAll_split_independent _ _ (by decide)

end RustHttpServer
