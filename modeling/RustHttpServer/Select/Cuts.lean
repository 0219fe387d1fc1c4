import RustHttpServer.Gregorian
import RustHttpServer.Http.Grammar
import RustHttpServer.Http.Incremental
import RustHttpServer.Select.Reception

/-!
# Requests cut between reads

Every call of the parser decodes what it has, so a read that ends inside a character is an
error, wherever in the request it ends. A request is received by the loops that read it if
and only if no read ends inside a character (`received_iff_uncut`).
-/

namespace RustHttpServer

open Foundation Utf8

variable {chrono : Chrono}

/-- No chunk ends inside a character. -/
def Uncut (chunks : List Bytes) : Prop := ∃ texts : List Text, chunks = texts.map encode

/-- The first chunk that ends inside a character. -/
theorem exists_cut {chunks : List Bytes} (cut : ¬Uncut chunks) :
    ∃ (texts : List Text) (bad : Bytes) (rest : List Bytes) (invalid : Utf8Error),
      chunks = texts.map encode ++ bad :: rest ∧ decode bad = .error invalid := by
  induction chunks with
  | nil => exact absurd ⟨[], rfl⟩ cut
  | cons first chunks ih =>
      cases decoded : decode first with
      | error invalid => exact ⟨[], first, chunks, invalid, rfl, decoded⟩
      | ok text =>
          obtain rfl := decode_eq_ok_iff.mp decoded
          have later : ¬Uncut chunks := by
            rintro ⟨texts, rfl⟩
            exact cut ⟨text :: texts, rfl⟩
          obtain ⟨texts, bad, rest, invalid, rfl, undecodable⟩ := ih later
          exact ⟨text :: texts, bad, rest, invalid, rfl, undecodable⟩

namespace RequestText

variable {request : RequestText}

/-- A request as it is written describes one. -/
theorem exists_describes (request : RequestText) : ∃ parsed, request.Describes parsed :=
  ⟨⟨⟨request.line.requestLine, insertAll ∅ request.headers⟩, request.body⟩, rfl,
    lookup_insertAll_empty request.headers, rfl⟩

/-- The parser takes a request as it is written. -/
theorem parses_text {parsed : RequestNoRemote} (describes : request.Describes parsed) :
    Stage.advance .start request.text = .ok (.fullRequest parsed) := by
  obtain ⟨⟨requestLine, headerLines⟩, body⟩ := parsed
  obtain ⟨sameLine, values, sameBody⟩ := describes
  dsimp only at sameLine values sameBody
  subst requestLine body
  obtain rfl := eq_insertAll values
  have declared : declaredLength (insertAll ∅ request.headers) =
      .ok (byteLength request.body) := by
    rw [declaredLength_eq_ok_iff, lookup_insertAll_empty]
    exact request.body_length
  rw [RequestText.text, Stage.advance_start_head request.line request.line_noBreak
    request.headers_nonempty, declared, Outcome.ok_bind]
  exact Stage.advance_inBody_eq_full_iff.mpr
    ⟨request.body, [], (List.append_nil _).symm, rfl, rfl⟩

/-- What the parser takes as a request begins with one. -/
theorem exists_of_parsed {text : Text} {parsed : RequestNoRemote}
    (full : Stage.advance .start text = .ok (.fullRequest parsed)) :
    ∃ (written : RequestText) (rest : Text), text = written.text ++ rest := by
  rcases Stage.advance_start_cases text with ⟨line, headers, rest, noBreak, nonempty, rfl⟩ |
    unfinished
  · rw [Stage.advance_start_head line noBreak nonempty] at full
    obtain ⟨length, declared, full⟩ := Outcome.bind_eq_ok_iff.mp full
    obtain ⟨body, after, rfl, rfl, -⟩ := Stage.advance_inBody_eq_full_iff.mp full
    rw [declaredLength_eq_ok_iff, lookup_insertAll_empty] at declared
    refine ⟨⟨line, headers, body, noBreak, nonempty, declared⟩, after, ?_⟩
    simp only [RequestText.text, List.append_assoc]
  · exact absurd full (unfinished.ne_full parsed)

/-- The parser takes the beginning of a request, and is not content with it. -/
theorem parses_prefix {first second : Text} (split : request.text = first ++ second) :
    ∃ state, tryParseRequest (encode first) (.none []) = .ok state ∧
      (second ≠ [] → state.isFull = false) := by
  obtain ⟨parsed, describes⟩ := request.exists_describes
  have whole := parses_text describes
  rw [split, Stage.advance_append] at whole
  obtain ⟨state, begun, -⟩ := Outcome.bind_eq_ok_iff.mp whole
  refine ⟨state, begun, fun more => Bool.eq_false_iff.mpr fun full => more ?_⟩
  obtain ⟨other, rfl⟩ := exists_fullRequest full
  obtain ⟨written, rest, rfl⟩ := exists_of_parsed begun
  rw [List.append_assoc] at split
  exact (List.append_eq_nil_iff.mp (eq_nil_of_append split)).2

/-- The parser goes on with the next part of a text. -/
theorem parses_next {first next : Text} {state : IncrementalRequest}
    (begun : tryParseRequest (encode first) (.none []) = .ok state)
    (incomplete : state.isFull = false) :
    tryParseRequest (encode next) state = tryParseRequest (encode (first ++ next)) (.none []) := by
  have appended := Stage.advance_append .start first next
  rw [show Stage.advance .start first = .ok state from begun, Outcome.ok_bind, feed,
    if_neg (Bool.eq_false_iff.mp incomplete)] at appended
  exact appended.symm

/-- The loop goes on with what follows the chunks at which it has been suspended. -/
theorem readLoop_resumed {start between : IncrementalRequest} {first : List Bytes}
    {calls : List Call} (nonempty : ∀ bytes ∈ first, bytes ≠ [])
    (suspended : readLoop start (inOneGo first) = (.suspended between, [], calls))
    (second : List Bytes) : readLoop start (inOneGo (first ++ second)) =
      ((readLoop between (inOneGo second)).1, (readLoop between (inOneGo second)).2.1,
        calls ++ (readLoop between (inOneGo second)).2.2) := by
  rw [readLoop_append _ _ nonempty, suspended]

/-- The loop is suspended after the beginning of a request. -/
theorem readLoop_suspended {texts : List Text} {second : Text} {state : IncrementalRequest}
    (nonempty : ∀ bytes ∈ texts.map encode, bytes ≠ [])
    (split : request.text = texts.flatten ++ second) (more : second ≠ [])
    (parsed : tryParseRequest (encode texts.flatten) (.none []) = .ok state) :
    ∃ calls, readLoop (.none []) (inOneGo (texts.map encode)) = (.suspended state, [], calls) := by
  induction texts using List.reverseRecOn generalizing second state with
  | nil =>
      have start := Stage.advance_start []
      cases (show Stage.advance .start [] = .ok state from parsed).symm.trans start
      exact ⟨[], rfl⟩
  | append_singleton texts text ih =>
      rw [List.flatten_append, List.flatten_singleton] at split parsed
      rw [List.map_append] at nonempty ⊢
      obtain ⟨before, last⟩ := List.forall_mem_append.mp nonempty
      obtain ⟨state', parsed', incomplete⟩ := parses_prefix split
      cases parsed.symm.trans parsed'
      rw [List.append_assoc] at split
      have more' : text ++ second ≠ [] := fun none => more (List.append_eq_nil_iff.mp none).2
      obtain ⟨between, begun, waiting⟩ := parses_prefix split
      obtain ⟨calls, suspended⟩ := ih before split more' begun
      refine ⟨calls ++ [.read (encode text), .parse (encode text) (.ok state)], ?_⟩
      have next : readLoop between (inOneGo ([text].map encode)) = _ :=
        readLoop_chunk (last _ (List.mem_singleton_self _)) _
      rw [readLoop_resumed before suspended, next, parses_next begun (waiting more'), parsed]
      dsimp only
      rw [if_neg (Bool.eq_false_iff.mp (incomplete more))]
      rfl

/-- The loop is done after a request. -/
theorem readLoop_done {texts : List Text} {last : Text}
    (nonempty : ∀ bytes ∈ (texts ++ [last]).map encode, bytes ≠ [])
    (whole : request.text = texts.flatten ++ last) :
    ∃ parsed calls, readLoop (.none []) (inOneGo ((texts ++ [last]).map encode)) =
        (.done (.fullRequest parsed), [], calls) ∧
      request.Describes parsed := by
  obtain ⟨parsed, describes⟩ := request.exists_describes
  have full : tryParseRequest (encode request.text) (.none []) = .ok (.fullRequest parsed) :=
    parses_text describes
  rw [List.map_append] at nonempty ⊢
  obtain ⟨before, own⟩ := List.forall_mem_append.mp nonempty
  have some := own _ (List.mem_singleton_self _)
  have more : last ≠ [] := by
    rintro rfl
    exact some rfl
  obtain ⟨between, begun, waiting⟩ := parses_prefix whole
  obtain ⟨calls, suspended⟩ := readLoop_suspended before whole more begun
  refine ⟨parsed, calls ++ [.read (encode last), .parse (encode last) (.ok (.fullRequest parsed))],
    ?_, describes⟩
  have next : readLoop between (inOneGo ([last].map encode)) = _ := readLoop_chunk some _
  rw [readLoop_resumed before suspended, next, parses_next begun (waiting more), ← whole, full]
  rfl

/-- The loop ends where a chunk ends inside a character. -/
theorem readLoop_rejected {texts : List Text} {bad : Bytes} {rest : List Bytes}
    {invalid : Utf8Error} (nonempty : ∀ bytes ∈ texts.map encode ++ bad :: rest, bytes ≠ [])
    (whole : (texts.map encode ++ bad :: rest).flatten = encode request.text)
    (undecodable : decode bad = .error invalid) :
    (readLoop (.none []) (inOneGo (texts.map encode ++ bad :: rest))).1 = .rejected := by
  obtain ⟨before, after⟩ := List.forall_mem_append.mp nonempty
  have some := after bad List.mem_cons_self
  rw [List.flatten_append, List.flatten_cons, ← encode_flatten] at whole
  obtain ⟨second, behind, split⟩ := exists_of_encode_prefix whole.symm
  have more : second ≠ [] := by
    rintro rfl
    exact some (List.append_eq_nil_iff.mp behind).1
  obtain ⟨between, begun, waiting⟩ := parses_prefix split
  obtain ⟨calls, suspended⟩ := readLoop_suspended before split more begun
  obtain ⟨error, failed⟩ := tryParseRequest_of_not_text
    (holdsText_of_tryParseRequest ⟨[], rfl⟩ begun) (waiting more) undecodable
  have next : readLoop between (inOneGo (bad :: rest)) = _ := readLoop_chunk some _
  rw [readLoop_resumed before suspended, next, failed]

end RequestText

/-- The loops that read a request receive it in one go if no chunk ends inside a character,
and reject it otherwise. -/
theorem readLoop_cases {request : RequestText} {chunks : List Bytes}
    (nonempty : ∀ bytes ∈ chunks, bytes ≠ []) (whole : chunks.flatten = encode request.text) :
    (Uncut chunks ∧ ∃ parsed calls, readLoop (.none []) (inOneGo chunks) =
        (.done (.fullRequest parsed), [], calls) ∧ request.Describes parsed) ∨
      ¬Uncut chunks ∧ (readLoop (.none []) (inOneGo chunks)).1 = .rejected := by
  by_cases uncut : Uncut chunks
  · refine .inl ⟨uncut, ?_⟩
    obtain ⟨texts, rfl⟩ := uncut
    rw [← encode_flatten] at whole
    have same := encode_injective whole
    rcases List.eq_nil_or_concat texts with rfl | ⟨texts, last, rfl⟩
    · have blank := congrArg List.length same
      simp [RequestText.text, crlf] at blank
    · rw [List.concat_eq_append] at nonempty same ⊢
      rw [List.flatten_append, List.flatten_singleton] at same
      exact RequestText.readLoop_done nonempty same.symm
  · obtain ⟨texts, bad, rest, invalid, rfl, undecodable⟩ := exists_cut uncut
    exact .inr ⟨uncut, RequestText.readLoop_rejected nonempty whole undecodable⟩

/-- **Cuts inside characters.** A written request that comes in chunks of any lengths is
received, exactly as it has been written, by the loop of `seq::process`, and by a connection of
the event loop whenever its reads block and however its events come in between, if and only
if no chunk ends inside a character. -/
theorem received_iff_uncut (request : RequestText) {chunks : List Bytes}
    (nonempty : ∀ bytes ∈ chunks, bytes ≠ []) (whole : chunks.flatten = encode request.text) :
    ((∃ parsed calls, Seq.readLoop (.none []) (inOneGo chunks) =
        (.done (.fullRequest parsed), calls) ∧ request.Describes parsed) ↔ Uncut chunks) ∧
      ∀ (token : Token) (stream : TcpStream) (requestHandler : Host) (acceptTime : Instant)
        (events : List (Event × World chrono)), Interleaves stream.reads chunks →
        suspensions stream.reads < readables events →
        let connection : Connection :=
          { stream, connectionState := .read (.none []), requestHandler, acceptTime }
        (∃ latest parsed,
          .parse latest (.ok (.fullRequest parsed)) ∈ (connection.deliver token events).2 ∧
            request.Describes parsed) ↔ Uncut chunks := by
  have agrees : Agrees (Seq.readLoop (.none []) (inOneGo chunks))
      (readLoop (.none []) (inOneGo chunks)) := readLoop_agrees chunks nonempty ⟨[], rfl⟩ rfl
  have received : ∀ (token : Token) (stream : TcpStream) (requestHandler : Host)
      (acceptTime : Instant) (events : List (Event × World chrono)),
      Interleaves stream.reads chunks → suspensions stream.reads < readables events →
      let connection : Connection :=
        { stream, connectionState := .read (.none []), requestHandler, acceptTime }
      ∃ unread, Received stream.peerAddr unread (readables events ≤ suspensions stream.reads)
        (connection.deliver token events) (readLoop (.none []) (inOneGo chunks)) := by
    intro token stream requestHandler acceptTime events interleaves enough connection
    obtain ⟨unread, split, received⟩ := @Connection.deliver_received chrono token connection _
      events chunks rfl ⟨[], rfl⟩ rfl interleaves
    have received := received_inOneGo (fun bytes member =>
      nonempty bytes (split ▸ List.mem_append_left _ member)) received enough.not_ge
    rw [← split] at received
    exact ⟨unread, received⟩
  rcases readLoop_cases nonempty whole with ⟨uncut, parsed, calls, done, describes⟩ |
    ⟨cut, rejected⟩
  · rw [done] at agrees received
    refine ⟨iff_of_true ⟨parsed, calls, agrees.1, describes⟩ uncut, ?_⟩
    intro token stream requestHandler acceptTime events interleaves enough connection
    obtain ⟨unread, more, same, -⟩ :=
      received token stream requestHandler acceptTime events interleaves enough
    obtain ⟨-, -, request', full, latest, member⟩ := agrees
    refine iff_of_true ⟨latest, parsed, ?_, describes⟩ uncut
    rw [same]
    exact List.mem_append_left _ member
  · cases looped : readLoop (.none []) (inOneGo chunks) with
    | mk ending left =>
        obtain ⟨reads, calls⟩ := left
        rw [looped] at agrees received rejected
        dsimp only at rejected
        subst rejected
        obtain ⟨quiet, ⟨error, failed⟩, -⟩ := agrees
        refine ⟨iff_of_false ?_ cut, ?_⟩
        · rintro ⟨parsed, calls, done, -⟩
          rw [done] at failed
          cases failed
        · intro token stream requestHandler acceptTime events interleaves enough connection
          obtain ⟨unread, same, -⟩ :=
            received token stream requestHandler acceptTime events interleaves enough
          refine iff_of_false ?_ cut
          rintro ⟨latest, parsed, member, -⟩
          rw [same] at member
          cases quiet.incomplete latest _ member

/-- A GET whose target has a character of two bytes. -/
def RequestText.accented : RequestText where
  line := {
    method := .get
    target := "/é".toList
    version := "HTTP/1.1".toList
    trailing := none
    target_noSpace := by decide
    version_noSpace := by decide }
  headers := [⟨"Host".toList, " site".toList, by decide, by decide⟩]
  body := []
  line_noBreak := by decide
  headers_nonempty := by decide
  body_length := by rfl

/-- The request comes in two chunks, the second of which begins with the character. -/
theorem received_iff_uncut_accented :
    let chunks := ["GET /".toList, "é HTTP/1.1\r\nHost: site\r\n\r\n".toList].map encode
    ∃ parsed calls, Seq.readLoop (.none []) (inOneGo chunks) =
      (.done (.fullRequest parsed), calls) ∧ RequestText.accented.Describes parsed := by
  intro chunks
  have nonempty : ∀ bytes ∈ chunks, bytes ≠ [] := by decide
  have whole : chunks.flatten = encode RequestText.accented.text := by decide
  exact (@received_iff_uncut gregorian _ chunks nonempty whole).1.mpr ⟨_, rfl⟩

/-- The request comes in two chunks, the first of which ends inside the character: both loops
reject it. -/
theorem received_cut :
    let first := encode "GET /".toList ++ [0xC3]
    let second := [0xA9] ++ encode " HTTP/1.1\r\nHost: site\r\n\r\n".toList
    [first, second].flatten = encode RequestText.accented.text ∧
      (∀ bytes ∈ [first, second], bytes ≠ [] ∧ bytes.length ≤ 32) ∧
      (∃ error, (Seq.readLoop (.none []) (inOneGo [first, second])).1 = .failed error) ∧
      (readLoop (.none []) (inOneGo [first, second])).1 = .rejected := by
  intro first second
  have nonempty : ∀ bytes ∈ [first, second], bytes ≠ [] := by decide
  have whole : [first, second].flatten = encode RequestText.accented.text := by decide
  have undecodable : decode first = .error ⟨5, none⟩ := by decide +kernel
  have rejected : (readLoop (.none []) (inOneGo [first, second])).1 = .rejected :=
    @RequestText.readLoop_rejected _ [] first [second] _ nonempty whole undecodable
  refine ⟨whole, by decide, ⟨Error.ofUtf8 ⟨5, none⟩, ?_⟩, rejected⟩
  change (Seq.readLoop (.none []) (.ok first :: inOneGo [second])).1 = _
  rw [seqReadLoop_chunk (nonempty first List.mem_cons_self), undecodable]

end RustHttpServer
