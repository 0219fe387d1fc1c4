import RustHttpServer.Http.Miscut
import RustHttpServer.Select.Cuts
import RustHttpServer.Select.Moves

/-!
# Where the parser aborts

What a client sends makes the parser abort, in both drivers, exactly if it is miscut: the
length that it declares ends inside a character of the chunks that have been read
(`parser_aborts_iff`). With a driver goes the thread that runs it, which for the event loop
serves every other connection as well.
-/

namespace RustHttpServer

open Foundation Utf8

/-! ### Feeding chunks -/

/-- A complete request stays as it is. -/
theorem feedAll_of_full {state : IncrementalRequest} (full : state.isFull = true)
    (chunks : List Bytes) : feedAll chunks state = .ok state := by
  induction chunks with
  | nil => rfl
  | cons chunk chunks ih =>
      rw [feedAll, feed, if_pos full, Outcome.ok_bind, ih]

/-- Chunks make the parser abort exactly if they are miscut. -/
theorem feedAll_eq_abort_iff (chunks : List Bytes) :
    feedAll chunks (.none []) = .abort ↔ MiscutChunks chunks := by
  constructor
  · intro aborted
    by_cases uncut : Uncut chunks
    · obtain ⟨texts, rfl⟩ := uncut
      rw [feedAll_encode] at aborted
      exact ⟨texts, [], (List.append_nil _).symm, Stage.advance_start_eq_abort_iff.mp aborted⟩
    · obtain ⟨texts, bad, rest, invalid, rfl, undecodable⟩ := exists_cut uncut
      refine ⟨texts, bad :: rest, rfl, Stage.advance_start_eq_abort_iff.mp ?_⟩
      rw [feedAll_append, feedAll_encode] at aborted
      rcases Outcome.bind_eq_abort_iff.mp aborted with before | ⟨state, fed, later⟩
      · exact before
      · -- What is not text is an error, not an abort, unless the request is complete.
        exfalso
        cases full : state.isFull with
        | true =>
            rw [feedAll_of_full full] at later
            cases later
        | false =>
            obtain ⟨error, failed⟩ := tryParseRequest_of_not_text
              (holdsText_of_tryParseRequest ⟨[], rfl⟩ fed) full undecodable
            rw [feedAll, feed, if_neg (Bool.eq_false_iff.mp full), failed] at later
            cases later
  · rintro ⟨texts, rest, rfl, miscut⟩
    have aborted : tryParseRequest (encode texts.flatten) (.none []) = .abort :=
      Stage.advance_start_eq_abort_iff.mpr miscut
    rw [feedAll_append, feedAll_encode, aborted, Outcome.abort_bind]

/-! ### The loops -/

/-- A call of the parser has aborted. -/
def Aborts (calls : List Call) : Prop := ∃ latest, .parse latest .abort ∈ calls

/-- A call of the parser has aborted if it has before or behind. -/
theorem aborts_append {first second : List Call} :
    Aborts (first ++ second) ↔ Aborts first ∨ Aborts second := by
  simp only [Aborts, List.mem_append, exists_or]

/-- Where nothing is done nothing aborts. -/
theorem not_aborts_nil : ¬Aborts [] := by
  rintro ⟨latest, ⟨⟩⟩

/-- Of a read and the call of the parser behind it, the call may abort. -/
theorem aborts_parsed {bytes : Bytes} {result : Outcome Error IncrementalRequest} :
    Aborts [.read bytes, .parse bytes result] ↔ result = .abort := by
  simp [Aborts, eq_comm]

private theorem OnlyWrites.not_aborts {calls : List Call} (only : OnlyWrites calls) :
    ¬Aborts calls := by
  rintro ⟨latest, inside⟩
  obtain ⟨bytes, ⟨⟩⟩ := only _ inside

/-- Behind the call of the handler nothing is parsed. -/
theorem OnlyWrites.not_aborts_handle {calls : List Call} (only : OnlyWrites calls)
    (request : Request) : ¬Aborts (.handle request :: calls) := by
  rintro ⟨latest, inside⟩
  have later := List.mem_of_ne_of_mem Call.noConfusion inside
  exact only.not_aborts ⟨latest, later⟩

/-- A call of the parser aborts exactly if the chunks that are read make it abort. -/
def Feeds (state : IncrementalRequest) (calls : List Call) : Prop :=
  Aborts calls ↔ feedAll (chunksRead calls) state = .abort

namespace Feeds

variable {state between : IncrementalRequest} {calls more : List Call} {bytes : Bytes}

/-- Without chunks nothing is fed. -/
theorem nil : Feeds state [] := iff_of_false not_aborts_nil nofun

/-- What is read once the chunks before have made something of the request. -/
theorem append (first : Feeds state calls) (fed : feedAll (chunksRead calls) state = .ok between)
    (second : Feeds between more) : Feeds state (calls ++ more) := by
  have quiet : ¬Aborts calls := by
    intro aborted
    have failed := first.mp aborted
    rw [fed] at failed
    cases failed
  rw [Feeds, aborts_append, or_iff_right quiet, chunksRead_append, feedAll_append, fed,
    Outcome.ok_bind]
  exact second

/-- What is done without reading or parsing makes no difference. -/
theorem append_silent (feeds : Feeds state calls) (unread : chunksRead more = [])
    (quiet : ¬Aborts more) : Feeds state (calls ++ more) := by
  rw [Feeds, aborts_append, or_iff_left quiet, chunksRead_append, unread, List.append_nil]
  exact feeds

/-- One chunk. -/
theorem feedAll_singleton (incomplete : state.isFull = false) :
    feedAll [bytes] state = tryParseRequest bytes state := by
  rw [feedAll, feed, if_neg (Bool.eq_false_iff.mp incomplete)]
  exact bind_pure _

/-- A chunk that is read and parsed. -/
theorem parse (incomplete : state.isFull = false) :
    Feeds state [.read bytes, .parse bytes (tryParseRequest bytes state)] := by
  refine aborts_parsed.trans ?_
  rw [← feedAll_singleton incomplete]
  rfl

end Feeds

/-- What the chunks that a loop has read make of the request that it started with. -/
def ReadLoop.Makes (state : IncrementalRequest) (calls : List Call) : ReadLoop → Prop
  | .suspended parsed => feedAll (chunksRead calls) state = .ok parsed ∧ parsed.isFull = false
  | .done parsed => feedAll (chunksRead calls) state = .ok parsed
  | _ => True

/-- What chunks make of a request goes on from what those before have made of it. -/
theorem ReadLoop.Makes.append {state between : IncrementalRequest} {calls more : List Call}
    {ending : ReadLoop} (fed : feedAll (chunksRead calls) state = .ok between)
    (makes : ending.Makes between more) : ending.Makes state (calls ++ more) := by
  have whole : feedAll (chunksRead (calls ++ more)) state = feedAll (chunksRead more) between := by
    rw [chunksRead_append, feedAll_append, fed, Outcome.ok_bind]
  cases ending with
  | suspended parsed => exact ⟨whole.trans makes.1, makes.2⟩
  | done parsed => exact whole.trans makes
  | rejected => exact trivial
  | failed error => exact trivial
  | aborted => exact trivial

/-- The loop of the event loop feeds the parser the chunks that it reads. -/
private theorem readLoop_feeds {state : IncrementalRequest} (incomplete : state.isFull = false)
    (reads : List (Except IoError Bytes)) :
    Feeds state (readLoop state reads).2.2 ∧
      (readLoop state reads).1.Makes state (readLoop state reads).2.2 := by
  fun_induction readLoop state reads with
  | case1 state => exact ⟨.nil, rfl, incomplete⟩
  | case2 state error reads blocked => exact ⟨.nil, rfl, incomplete⟩
  | case3 state error reads failed => exact ⟨.nil, trivial⟩
  | case4 state bytes reads some calls parsed result full =>
      exact ⟨.parse incomplete, (Feeds.feedAll_singleton incomplete).trans result⟩
  | case5 state bytes reads some calls parsed result waiting ending left more looped ih =>
      have fed : feedAll (chunksRead calls) state = .ok parsed :=
        (Feeds.feedAll_singleton incomplete).trans result
      rw [looped] at ih
      obtain ⟨feeds, makes⟩ := ih (Bool.eq_false_iff.mpr waiting)
      exact ⟨.append (.parse incomplete) fed feeds, makes.append fed⟩
  | case6 state bytes reads some calls error result => exact ⟨.parse incomplete, trivial⟩
  | case7 state bytes reads some calls result => exact ⟨.parse incomplete, trivial⟩
  | case8 state bytes reads none => exact ⟨.nil, rfl⟩

/-- The loop of `process` feeds the parser the chunks that it reads. -/
private theorem seqReadLoop_feeds {state : IncrementalRequest} (text : state.HoldsText)
    (incomplete : state.isFull = false) (reads : List (Except IoError Bytes)) :
    Feeds state (Seq.readLoop state reads).2 := by
  fun_induction Seq.readLoop state reads with
  | case1 state => exact .nil
  | case2 state error reads => exact .nil
  | case3 state bytes reads some invalid undecodable =>
      -- The parser is not called, and would report what it is not given.
      obtain ⟨error, failed⟩ := tryParseRequest_of_not_text text incomplete undecodable
      have fed : feedAll [bytes] state = .err error :=
        (Feeds.feedAll_singleton incomplete).trans failed
      refine iff_of_false ?_ ?_
      · rintro ⟨latest, inside⟩
        cases List.mem_singleton.mp inside
      · change feedAll [bytes] state ≠ .abort
        rw [fed]
        exact nofun
  | case4 state bytes reads some decoded _ calls parsed result full => exact .parse incomplete
  | case5 state bytes reads some decoded _ calls parsed result waiting ending more looped ih =>
      have fed : feedAll (chunksRead calls) state = .ok parsed :=
        (Feeds.feedAll_singleton incomplete).trans result
      rw [looped] at ih
      exact .append (.parse incomplete) fed
        (ih (holdsText_of_tryParseRequest text result) (Bool.eq_false_iff.mpr waiting))
  | case6 state bytes reads some decoded _ calls error result => exact .parse incomplete
  | case7 state bytes reads some decoded _ calls result => exact .parse incomplete
  | case8 state bytes reads none => exact .nil

/-! ### The drivers -/

variable {chrono : Chrono}

namespace Connection

/-- Nothing is parsed once a request has been received. -/
theorem follow_respond_not_aborts (connection : Connection) (world : World chrono) (token : Token)
    (request : RequestNoRemote) (events : List (Event × World chrono)) :
    ¬Aborts (follow token (fun connection => connection.deliver token events)
      (connection.respond world token (.fullRequest request))).2 := by
  rcases follow_respond_calls connection world token request events with
    ⟨_, _, dropped⟩ | ⟨_, _, _, calls, only⟩
  · rw [dropped]
    exact not_aborts_nil
  · rw [calls]
    exact only.not_aborts_handle _

/-- Over all events, the parser is fed the chunks that are read on the connection. -/
private theorem deliver_feeds {token : Token} {connection : Connection} {state : IncrementalRequest}
    (reading : connection.connectionState = .read state) (incomplete : state.isFull = false)
    (events : List (Event × World chrono)) : Feeds state (connection.deliver token events).2 := by
  induction events generalizing connection state with
  | nil => exact .nil
  | cons first events ih =>
      obtain ⟨event, world⟩ := first
      cases readable : event.isReadable with
      | false =>
          rw [deliver_cons_unreadable reading readable]
          exact ih reading incomplete
      | true =>
          obtain ⟨feeds, makes⟩ := readLoop_feeds incomplete connection.stream.reads
          rw [deliver_cons_readable reading readable]
          cases read : readLoop state connection.stream.reads with
          | mk ending left =>
              obtain ⟨reads, calls⟩ := left
              rw [read] at feeds makes
              cases ending with
              | suspended parsed => exact feeds.append makes.1 (ih rfl makes.2)
              | rejected => exact feeds
              | failed error => exact feeds
              | aborted => exact feeds
              | done parsed =>
                  cases full : parsed.isFull with
                  | true =>
                      obtain ⟨request, rfl⟩ := exists_fullRequest full
                      apply feeds.append_silent
                      · exact (follow_respond _ world token request events).1
                      · exact follow_respond_not_aborts _ world token request events
                  | false =>
                      -- The end of the stream, which is not told from a pause.
                      apply feeds.append makes
                      rw [respond_incomplete full]
                      exact ih rfl full

end Connection

namespace Seq

/-- Responding neither reads nor parses. -/
private theorem respond_not_aborts (requestHandler : Host) (world : World chrono)
    (stream : TcpStream) (overloaded : Bool) (state : IncrementalRequest) :
    chunksRead (respond requestHandler world stream overloaded state).2 = [] ∧
      ¬Aborts (respond requestHandler world stream overloaded state).2 := by
  unfold respond
  split
  · dsimp only
    split
    · next bytes _ =>
        have only := (writeAll_accounts bytes stream.writes).2.2
        exact ⟨only.chunksRead, only.not_aborts_handle _⟩
    · exact ⟨rfl, OnlyWrites.nil.not_aborts_handle _⟩
    · exact ⟨rfl, OnlyWrites.nil.not_aborts_handle _⟩
  · exact ⟨rfl, not_aborts_nil⟩
  · exact ⟨rfl, not_aborts_nil⟩

/-- `process` reads and parses nothing behind its loop. -/
theorem process_calls (requestHandler : Host) (world : World chrono) (stream : TcpStream)
    (overloaded : Bool) : ∃ more, chunksRead more = [] ∧ ¬Aborts more ∧
      (process requestHandler world stream overloaded).2 =
        (readLoop (.none []) stream.reads).2 ++ more := by
  unfold process
  cases readLoop (.none []) stream.reads with
  | mk ending calls =>
      cases ending with
      | waiting => exact ⟨[], rfl, not_aborts_nil, (List.append_nil calls).symm⟩
      | failed error => exact ⟨[], rfl, not_aborts_nil, (List.append_nil calls).symm⟩
      | aborted => exact ⟨[], rfl, not_aborts_nil, (List.append_nil calls).symm⟩
      | done state =>
          obtain ⟨unread, quiet⟩ :=
            respond_not_aborts requestHandler world stream overloaded state
          exact ⟨_, unread, quiet, rfl⟩

/-- A call of the parser in `process` aborts exactly if the chunks that are read make it abort. -/
theorem process_feeds (requestHandler : Host) (world : World chrono) (stream : TcpStream)
    (overloaded : Bool) :
    Feeds (.none []) (process requestHandler world stream overloaded).2 := by
  obtain ⟨more, unread, quiet, same⟩ := process_calls requestHandler world stream overloaded
  rw [same]
  exact (seqReadLoop_feeds ⟨[], rfl⟩ rfl stream.reads).append_silent unread quiet

end Seq

/-! ### What a client sends -/

/-- The chunks that a loop leaves unread make no difference to what they are fed to. -/
theorem feedAll_chunksRead {state : IncrementalRequest} (incomplete : state.isFull = false)
    {chunks : List Bytes} (nonempty : ∀ bytes ∈ chunks, bytes ≠ []) :
    feedAll (chunksRead (readLoop state (inOneGo chunks)).2.2) state = feedAll chunks state := by
  induction chunks generalizing state with
  | nil => rfl
  | cons bytes chunks ih =>
      obtain ⟨nonempty, rest⟩ := List.forall_mem_cons.mp nonempty
      have first : feed bytes state = tryParseRequest bytes state :=
        if_neg (Bool.eq_false_iff.mp incomplete)
      change feedAll (chunksRead (readLoop state (.ok bytes :: inOneGo chunks)).2.2) state = _
      rw [readLoop_chunk nonempty, feedAll, first]
      cases parsed : tryParseRequest bytes state with
      | ok next =>
          dsimp only
          cases full : next.isFull with
          | true =>
              rw [if_pos rfl, Outcome.ok_bind, feedAll_of_full full]
              exact (Feeds.feedAll_singleton incomplete).trans parsed
          | false =>
              rw [if_neg Bool.false_ne_true]
              change (feed bytes state >>=
                feedAll (chunksRead (readLoop next (inOneGo chunks)).2.2)) = _
              rw [first, parsed, Outcome.ok_bind, Outcome.ok_bind]
              exact ih full rest
      | err error => exact (Feeds.feedAll_singleton incomplete).trans parsed
      | abort => exact (Feeds.feedAll_singleton incomplete).trans parsed

/-- Loops that agree read the same chunks. -/
theorem Agrees.chunksRead {processed : Seq.ReadLoop × List Call}
    {loop : ReadLoop × List (Except IoError Bytes) × List Call} (agrees : Agrees processed loop) :
    chunksRead processed.2 = chunksRead loop.2.2 := by
  obtain ⟨ending, reads, calls⟩ := loop
  cases ending with
  | suspended parsed => rw [agrees.1]
  | rejected => exact agrees.2.2.1
  | done parsed => rw [agrees.1]
  | failed error => exact agrees.elim
  | aborted => rw [agrees.1]

/-- On a connection the chunks are read that the loop reads. -/
theorem Received.chunksRead {addr : Except IoError SocketAddr} {unread : List Bytes}
    {suspended : Prop} {delivered : ConnectionStatus × List Call}
    {loop : ReadLoop × List (Except IoError Bytes) × List Call}
    (received : Received addr unread suspended delivered loop) :
    chunksRead delivered.2 = chunksRead loop.2.2 := by
  obtain ⟨ending, reads, calls⟩ := loop
  cases ending with
  | suspended parsed => rw [received.1]
  | rejected => rw [received.1]
  | done parsed =>
      obtain ⟨more, same, silent, -⟩ := received
      rw [same, chunksRead_append, silent, List.append_nil]
  | failed error => exact received.elim
  | aborted => rw [received]

private theorem Seq.process_aborts_iff (requestHandler : Host) (world : World chrono)
    (stream : TcpStream)
    (overloaded : Bool) {chunks : List Bytes} (nonempty : ∀ bytes ∈ chunks, bytes ≠ [])
    (whole : stream.reads = inOneGo chunks) :
    Aborts (process requestHandler world stream overloaded).2 ↔ MiscutChunks chunks := by
  refine (process_feeds requestHandler world stream overloaded).trans ?_
  obtain ⟨more, unread, -, same⟩ := process_calls requestHandler world stream overloaded
  have agrees : Agrees (readLoop (.none []) (inOneGo chunks))
      (RustHttpServer.readLoop (.none []) (inOneGo chunks)) :=
    readLoop_agrees chunks nonempty ⟨[], rfl⟩ rfl
  rw [same, chunksRead_append, unread, List.append_nil, whole, agrees.chunksRead,
    feedAll_chunksRead rfl nonempty, feedAll_eq_abort_iff]

/-- Once all could be read, a call of the parser has aborted exactly if the chunks are miscut. -/
private theorem Connection.deliver_aborts_iff {connection : Connection} {token : Token}
    (reading : connection.connectionState = .read (.none [])) {chunks : List Bytes}
    (interleaves : Interleaves connection.stream.reads chunks)
    {events : List (Event × World chrono)}
    (enough : suspensions connection.stream.reads < readables events) :
    Aborts (connection.deliver token events).2 ↔ MiscutChunks chunks := by
  refine (deliver_feeds reading rfl events).trans ?_
  obtain ⟨unread, split, received⟩ := @deliver_received chrono token connection _
    events chunks reading ⟨[], rfl⟩ rfl interleaves
  have received := received_inOneGo (fun bytes member =>
    interleaves.nonempty bytes (split ▸ List.mem_append_left _ member)) received enough.not_ge
  rw [← split] at received
  rw [received.chunksRead, feedAll_chunksRead rfl interleaves.nonempty, feedAll_eq_abort_iff]

/-- **Aborts.** Whatever is read from a stream, a call of the parser aborts, in `seq::process`
and on a connection of the event loop, exactly if the chunks that have been read are miscut;
and once all that the client has sent could be read, exactly if that is miscut. -/
theorem parser_aborts_iff (stream : TcpStream) (requestHandler : Host) :
    (∀ (world : World chrono) (overloaded : Bool),
      let calls := (Seq.process requestHandler world stream overloaded).2
      (Aborts calls ↔ MiscutChunks (chunksRead calls)) ∧
        ∀ chunks, (∀ bytes ∈ chunks, bytes ≠ []) → stream.reads = inOneGo chunks →
          (Aborts calls ↔ MiscutChunks chunks)) ∧
    ∀ (token : Token) (acceptTime : Instant) (events : List (Event × World chrono)),
      let connection : Connection :=
        { stream, connectionState := .read (.none []), requestHandler, acceptTime }
      let calls := (connection.deliver token events).2
      (Aborts calls ↔ MiscutChunks (chunksRead calls)) ∧
        ∀ chunks, Interleaves stream.reads chunks → suspensions stream.reads < readables events →
          (Aborts calls ↔ MiscutChunks chunks) := by
  refine ⟨fun world overloaded => ⟨?_, ?_⟩, fun token acceptTime events => ⟨?_, ?_⟩⟩
  · exact (Seq.process_feeds _ _ _ _).trans (feedAll_eq_abort_iff _)
  · intro chunks nonempty whole
    exact Seq.process_aborts_iff requestHandler world stream overloaded nonempty whole
  · exact (Connection.deliver_feeds rfl rfl events).trans (feedAll_eq_abort_iff _)
  · intro chunks interleaves enough
    exact Connection.deliver_aborts_iff rfl interleaves enough

/-- The head of a request that declares one byte, and a character of two. -/
def accentedChunks : List Text :=
  ["POST / HTTP/1.1\r\n".toList, "Content-Length: 1\r\n\r\né".toList]

private theorem miscut_accentedChunks : MiscutChunks (accentedChunks.map encode) := by
  refine ⟨accentedChunks, [], (List.append_nil _).symm, ?_⟩
  refine ⟨⟨.post, "/".toList, "HTTP/1.1".toList, none, by decide, by decide⟩,
    [⟨"Content-Length".toList, " 1".toList, by decide, by decide⟩], "1".toList, "é".toList, 1,
    by decide, by decide, by decide, by decide, by rfl, by decide, ?_⟩
  intro before after whole length
  have cut : Text.splitAt? "é".toList 1 = none := by decide
  rw [Text.splitAt?_eq_some_iff.mpr ⟨whole, length⟩] at cut
  cases cut

/-- Both drivers abort on it. -/
theorem parser_aborts_accented :
    let chunks := accentedChunks.map encode
    let stream : TcpStream :=
      { reads := inOneGo chunks, writes := [], peerAddr := .ok "127.0.0.1:4000".toList }
    let connection : Connection := {
      stream, connectionState := .read (.none []), requestHandler := Site.host, acceptTime := 0 }
    (∀ bytes ∈ chunks, bytes ≠ [] ∧ bytes.length ≤ 32) ∧
      Aborts (Seq.process Site.host Site.world stream false).2 ∧
      Aborts (connection.deliver 2 [(⟨2, true, false⟩, Site.world)]).2 := by
  intro chunks stream connection
  have nonempty : ∀ bytes ∈ chunks, bytes ≠ [] := by decide
  have interleaves : Interleaves stream.reads chunks :=
    .chunk (by decide) (.chunk (by decide) .nil)
  refine ⟨by decide, ?_, ?_⟩
  · exact (Seq.process_aborts_iff _ _ _ _ nonempty rfl).mpr miscut_accentedChunks
  · exact (Connection.deliver_aborts_iff rfl interleaves (by decide)).mpr miscut_accentedChunks

end RustHttpServer
