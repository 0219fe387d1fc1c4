import RustHttpServer.Host.Answer
import RustHttpServer.Host.Site
import RustHttpServer.Http.Decoding

/-!
# What a client receives

A client takes the body of a response from its bytes as their head says. Written in chunks,
a body arrives as it is; written with its length, it arrives with the line break that
the length counts, or not at all if it is empty. So the two forms deliver the same body only
where the first of them is selected (`handle_payload_iff`).
-/

namespace RustHttpServer

open Foundation Utf8

/-! ### The two forms of a body -/

/-- What is written in chunks is received. -/
theorem payload_writeChunked (order : HeaderOrder) {response : Response}
    (oneLine : response.header.OneLine) {chunkLen : Nat} {positive : 0 < chunkLen}
    {bytes : Bytes} (written : writeChunked order response chunkLen positive = .ok bytes) :
    payload bytes = some (encode response.body) := by
  rw [writeChunked_eq] at written
  cases written
  have head := readHead_header order oneLine.chunked
    ((bodyChunks chunkLen positive (encode response.body)).flatMap chunkBytes ++ chunkBytes [])
  have encodings := fieldValues_header order response.header.chunked .transferEncoding
  rw [ResponseHeader.chunked, Finmap.lookup_insert] at encodings
  have announced : fieldValues (encode "Transfer-Encoding".toList)
      (response.header.chunked.lines order) = [encode "chunked".toList] := encodings
  have read := readChunks_flatMap _
    (bodyChunks_ne_nil chunkLen positive (encode response.body)) []
  rw [List.append_nil, flatten_bodyChunks] at read
  rw [payload, head]
  dsimp only
  rw [if_pos announced, read]
  rfl

/-- The bytes behind the head of a response that is not written in chunks. -/
def plainBytes (body : Text) : Bytes := if body = [] then [] else encode body ++ lineBreak

private theorem encode_prefix_plainBytes (body : Text) : encode body <+: plainBytes body := by
  unfold plainBytes
  split
  · next empty =>
      rw [empty]
      exact List.prefix_refl _
  · exact List.prefix_append _ _

private theorem length_plainBytes_le (body : Text) :
    (plainBytes body).length ≤ byteLength body + 2 := by
  unfold plainBytes
  split
  · exact Nat.zero_le _
  · rw [List.length_append]
    exact Nat.le_refl _

/-- The bytes of a response are its head, a blank line and its body with a line break. -/
theorem encode_toText (order : HeaderOrder) (response : Response) :
    encode (response.toText order) =
      encode (response.header.toText order) ++ (lineBreak ++ plainBytes response.body) := by
  simp only [Response.toText, plainBytes, encode_append, encode_crlf, List.append_assoc]
  split
  · rfl
  · rw [encode_append, encode_crlf]

/-- What follows the head is too short to be the body in the chunked coding. -/
theorem readChunks_plainBytes (body : Text) :
    (readChunks (plainBytes body)).map Prod.fst ≠ some (encode body) := by
  intro read
  obtain ⟨⟨carried, behind⟩, read, rfl⟩ := Option.map_eq_some_iff.mp read
  have longer := length_of_readChunks read
  have short := length_plainBytes_le body
  rw [length_encode] at longer
  omega

/-- So many bytes of what follows the head are the body if they are as many as it has. -/
theorem take_plainBytes_iff (body : Text) (length : Nat) :
    (length ≤ (plainBytes body).length ∧ (plainBytes body).take length = encode body) ↔
      length = byteLength body := by
  have leading := encode_prefix_plainBytes body
  constructor
  · rintro ⟨enough, taken⟩
    have lengths := congrArg List.length taken
    rwa [List.length_take, Nat.min_eq_left enough, length_encode] at lengths
  · rintro rfl
    refine ⟨leading.length_le, ?_⟩
    rw [← length_encode]
    exact (List.prefix_iff_eq_take.mp leading).symm

/-- The chunked coding is announced by its name, with or without whitespace around it. -/
theorem announced_iff (order : HeaderOrder) (header : ResponseHeader) :
    fieldValues (encode "Transfer-Encoding".toList) (header.lines order) =
        [encode "chunked".toList] ↔
      (header.headerLines.lookup .transferEncoding).map Text.trim = some "chunked".toList := by
  have read : fieldValues (encode "Transfer-Encoding".toList) (header.lines order) = _ :=
    fieldValues_header order header .transferEncoding
  rw [read]
  cases header.headerLines.lookup .transferEncoding with
  | none => exact iff_of_false (List.cons_ne_nil _ _).symm nofun
  | some value =>
      rw [Option.toList_some, List.map_singleton, List.singleton_inj, Option.map_some,
        Option.some.injEq]
      exact encode_injective.eq_iff

/-- What a client receives of a response with a `Content-Length`. If that selects the chunked
coding, it is the body. Otherwise it is as much of what follows the head as the length says, or
what that carries in the chunked coding, if the header announces it. -/
theorem payload_writeResponse (order : HeaderOrder) {response : Response}
    (oneLine : response.header.OneLine) {length : Nat}
    (found : response.header.headerLines.lookup .contentLength = some (Text.decimal length))
    {bytes : Bytes} (written : writeResponse order response = .ok bytes) :
    payload bytes =
      if 1024 < length then some (encode response.body)
      else if (response.header.headerLines.lookup .transferEncoding).map Text.trim =
          some "chunked".toList then
        (readChunks (plainBytes response.body)).map Prod.fst
      else if length ≤ (plainBytes response.body).length then
        some ((plainBytes response.body).take length)
      else none := by
  rw [writeResponse, isChunked_of_length found] at written
  by_cases large : 1024 < length
  · rw [decide_eq_true large, if_pos rfl] at written
    rw [if_pos large, payload_writeChunked order oneLine written]
  · rw [decide_eq_false large, if_neg Bool.false_ne_true, encode_toText] at written
    cases written
    rw [if_neg large, payload, readHead_header order oneLine]
    simp only [← announced_iff order]
    split
    · rfl
    · have lengths : fieldValues (encode "Content-Length".toList)
          (response.header.lines order) = [encode (Text.decimal length)] := by
        apply (fieldValues_header order response.header .contentLength).trans
        rw [found, Option.toList_some, List.map_singleton, Text.trim_decimal]
      have bounded : length < 2 ^ 64 := by omega
      rw [lengths]
      dsimp only
      rw [readLength_decimal bounded, Option.bind_some]

/-- A response with a `Content-Length` delivers its body if that selects the chunked
coding, or else if it is the length of the body and nothing announces the chunked coding. -/
theorem payload_writeResponse_iff (order : HeaderOrder) {response : Response}
    (oneLine : response.header.OneLine) {length : Nat}
    (found : response.header.headerLines.lookup .contentLength = some (Text.decimal length))
    {bytes : Bytes} (written : writeResponse order response = .ok bytes) :
    payload bytes = some (encode response.body) ↔ 1024 < length ∨
      (response.header.headerLines.lookup .transferEncoding).map Text.trim ≠
          some "chunked".toList ∧
        length = byteLength response.body := by
  rw [payload_writeResponse order oneLine found written]
  by_cases large : 1024 < length
  · rw [if_pos large]
    exact iff_of_true rfl (.inl large)
  · rw [if_neg large, or_iff_right large]
    split
    · next announced =>
        exact iff_of_false (readChunks_plainBytes response.body) fun plain => plain.1 announced
    · next unannounced =>
        rw [and_iff_right unannounced, ← take_plainBytes_iff]
        split
        · next enough => rw [Option.some.injEq, and_iff_right enough]
        · next short => exact iff_of_false (Option.some_ne_none _).symm fun plain => short plain.1

/-! ### The responses of the handler -/

/-- A response delivers the body of its source if there is none, or it is long enough for
the chunked coding. -/
theorem Source.Answers.payload_iff {source : Source} {response : Response}
    (answers : source.Answers response) (order : HeaderOrder) {bytes : Bytes}
    (written : writeResponse order response = .ok bytes) :
    payload bytes = some (encode source.body) ↔
      source = .nothing ∨ 1022 < byteLength source.body := by
  rw [← answers.body, payload_writeResponse_iff order answers.oneLine answers.length written,
    answers.encoding, answers.body]
  cases source with
  | nothing => exact iff_of_true (.inr ⟨nofun, rfl⟩) (.inl rfl)
  | file content =>
      simp only [Source.length, Source.body, reduceCtorEq, false_or]
      omega
  | script headers body =>
      simp only [Source.length, Source.body, reduceCtorEq, false_or]
      omega

variable {chrono : Chrono}

/-- **The body of a response.** What a client receives of a response of `Host::handle` is
the content it was made from exactly when that is longer than 1022 bytes, or the response
has no content. -/
theorem handle_payload_iff (printsUtc : chrono.PrintsUtc) (host : Host) (world : World chrono)
    (request : Request) (overloaded : Bool) {response : Response} {after : Host}
    {accesses : List Access}
    (handled : host.handle world request overloaded = (.ok response, after, accesses))
    (order : HeaderOrder) : ∃ bytes, writeResponse order response = .ok bytes ∧
      (payload bytes = some (encode (host.source world request).body) ↔
        host.source world request = .nothing ∨
          1022 < byteLength (host.source world request).body) := by
  obtain ⟨bytes, written⟩ := exists_writeResponse order response
  refine ⟨bytes, written, ?_⟩
  exact (handle_answers printsUtc host world request overloaded handled).payload_iff order written

/-- The rule holds of a page of the site. -/
theorem handle_payload_iff_page : ∃ response after accesses,
    Site.host.handle Site.world (Site.get "/page.txt") false = (.ok response, after, accesses) ∧
      ∃ bytes, writeResponse Site.headerOrder response = .ok bytes ∧
        (payload bytes = some (encode (Site.host.source Site.world (Site.get "/page.txt")).body) ↔
          Site.host.source Site.world (Site.get "/page.txt") = .nothing ∨
            1022 < byteLength (Site.host.source Site.world (Site.get "/page.txt")).body) := by
  have returned : (Site.host.handle Site.world (Site.get "/page.txt") false).1.isOk := by
    decide +kernel
  obtain ⟨response, handled⟩ := Outcome.exists_of_isOk returned
  refine ⟨response, _, _, Prod.ext handled rfl, ?_⟩
  exact handle_payload_iff gregorian_printsUtc _ _ _ _ (Prod.ext handled rfl) Site.headerOrder

/-- A page of two bytes is received with a line break behind it. -/
theorem handle_payload_not_page : ∃ response after accesses bytes,
    Site.host.handle Site.world (Site.get "/page.txt") false = (.ok response, after, accesses) ∧
      writeResponse Site.headerOrder response = .ok bytes ∧
      Site.host.source Site.world (Site.get "/page.txt") = .file "hi".toList ∧
      payload bytes ≠ some (encode "hi".toList) := by
  have returned : (Site.host.handle Site.world (Site.get "/page.txt") false).1.isOk := by
    decide +kernel
  have source : Site.host.source Site.world (Site.get "/page.txt") = .file "hi".toList := by
    decide +kernel
  obtain ⟨response, handled⟩ := Outcome.exists_of_isOk returned
  obtain ⟨bytes, written⟩ := exists_writeResponse Site.headerOrder response
  refine ⟨response, _, _, bytes, Prod.ext handled rfl, written, source, ?_⟩
  have answers := handle_answers gregorian_printsUtc _ _ _ _ (Prod.ext handled rfl)
  rw [source] at answers
  have received := answers.payload_iff Site.headerOrder written
  rw [Source.body] at received
  rw [Ne, received]
  decide

end RustHttpServer
