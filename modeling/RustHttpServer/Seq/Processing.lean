import RustHttpServer.Host.Panics
import RustHttpServer.Select.Aborts

/-!
# What a processed connection comes to

`seq::process` hands one request at most to the handler, and writes nothing but the
response to it (`attends_process`). It panics where the parser or the handler does, and nowhere
else (`process_eq_abort_iff`).
-/

namespace RustHttpServer

open Foundation

variable {chrono : Chrono}

/-- A connection that is to be processed: its stream with the `overloaded` flag, and the world in
which its request is handled. -/
structure Arrival (chrono : Chrono) where
  world : World chrono
  stream : TcpStream
  overloaded : Bool

namespace Host

/-- How `process` ends on a connection, if it does. -/
def outcome (requestHandler : Host) (arrival : Arrival chrono) : Option (Outcome Error Unit) :=
  (Seq.process requestHandler arrival.world arrival.stream arrival.overloaded).1

/-- What `process` does on a connection. -/
def calls (requestHandler : Host) (arrival : Arrival chrono) : List Call :=
  (Seq.process requestHandler arrival.world arrival.stream arrival.overloaded).2

/-- The handler behind `process`, which has handled the requests that were handed to it. -/
def serve (requestHandler : Host) (arrival : Arrival chrono) : Host :=
  (requestsHandled (requestHandler.calls arrival)).foldl
    (fun requestHandler request =>
      (requestHandler.handle arrival.world request arrival.overloaded).2.1) requestHandler

/-- The visit that a connection pays to the handler, if it does. -/
def exchange? (requestHandler : Host) (arrival : Arrival chrono) : Option (Exchange chrono) := do
  let request ← (requestsHandled (requestHandler.calls arrival)).head?
  let response ←
    (requestHandler.handle arrival.world request arrival.overloaded).1.toOption
  return ⟨⟨arrival.world, request, arrival.overloaded⟩, response⟩

end Host

/-! ### The ways to end -/

/-- Nothing is handed on and nothing is written. -/
structure Silent (calls : List Call) : Prop where
  requestsHandled : requestsHandled calls = []
  bytesWritten : bytesWritten calls = []

/-- To do nothing is silent. -/
theorem Silent.nil : Silent [] := ⟨rfl, rfl⟩

/-- What is silent before and behind is silent. -/
theorem Silent.append {calls more : List Call} (first : Silent calls) (second : Silent more) :
    Silent (calls ++ more) where
  requestsHandled := by
    rw [requestsHandled_append, first.requestsHandled, second.requestsHandled, List.nil_append]
  bytesWritten := by
    rw [bytesWritten_append, first.bytesWritten, second.bytesWritten, List.nil_append]

namespace Seq

/-- The loop of `process` only reads and parses, and aborts where the parser does. -/
theorem readLoop_silent (state : IncrementalRequest) (reads : List (Except IoError Bytes)) :
    Silent (readLoop state reads).2 ∧
      ((readLoop state reads).1 = .aborted ↔ Aborts (readLoop state reads).2) := by
  have parsed : ∀ {bytes : Bytes} {result : Outcome Error IncrementalRequest},
      Silent [.read bytes, .parse bytes result] := ⟨rfl, rfl⟩
  fun_induction readLoop state reads with
  | case1 state => exact ⟨.nil, iff_of_false (by simp) not_aborts_nil⟩
  | case2 state error reads => exact ⟨.nil, iff_of_false (by simp) not_aborts_nil⟩
  | case3 state bytes reads some error undecodable =>
      refine ⟨⟨rfl, rfl⟩, iff_of_false (by simp) ?_⟩
      rintro ⟨latest, inside⟩
      cases List.mem_singleton.mp inside
  | case4 state bytes reads some decoded _ calls next result full =>
      refine ⟨parsed, iff_of_false (by simp) fun aborts => ?_⟩
      cases result.symm.trans (aborts_parsed.mp aborts)
  | case5 state bytes reads some decoded _ calls next result waiting ending more looped ih =>
      rw [looped] at ih
      obtain ⟨silent, aborted⟩ := ih
      refine ⟨parsed.append silent, aborted.trans ?_⟩
      have quiet : ¬Aborts calls := fun aborts => by
        cases result.symm.trans (aborts_parsed.mp aborts)
      rw [aborts_append, or_iff_right quiet]
  | case6 state bytes reads some decoded _ calls error result =>
      refine ⟨parsed, iff_of_false (by simp) fun aborts => ?_⟩
      cases result.symm.trans (aborts_parsed.mp aborts)
  | case7 state bytes reads some decoded _ calls result =>
      exact ⟨parsed, iff_of_true rfl (aborts_parsed.mpr result)⟩
  | case8 state bytes reads none => exact ⟨.nil, iff_of_false (by simp) not_aborts_nil⟩

end Seq

/-- The handler returns no error. -/
theorem Host.handle_unfailing (host : Host) (world : World chrono) (request : Request)
    (overloaded : Bool) : (host.handle world request overloaded).1.Unfailing := by
  intro error failed
  rw [handle, handleWith, Stateful.bind_apply, Stateful.recover] at failed
  have stamps := to1123_unfailing chrono (ε := Error) world.now
  cases called : host.handleResult world request overloaded ⟨host.files, []⟩ with
  | mk outcome session =>
      rw [called] at failed
      cases outcome with
      | ok response =>
          dsimp only at failed
          rw [Stateful.lift_bind_apply] at failed
          split at failed
          · cases failed
          · next stamped => exact stamps _ stamped
          · cases failed
      | err reason =>
          dsimp only at failed
          rw [Stateful.lift_bind_apply] at failed
          split at failed
          · cases failed
          · next stamped => exact stamps _ stamped
          · cases failed
      | abort => cases failed

/-- The ways in which `process` ends, with what it has done. -/
inductive Processes (requestHandler : Host) (arrival : Arrival chrono) :
    Option (Outcome Error Unit) → List Call → Prop
  /-- A read never returns. -/
  | waits {calls : List Call} : Silent calls → ¬Aborts calls →
      Processes requestHandler arrival none calls
  /-- There is no request, or nobody to answer it. -/
  | fails {calls : List Call} (error : Error) : Silent calls → ¬Aborts calls →
      Processes requestHandler arrival (some (.err error)) calls
  /-- The parser aborts. -/
  | aborts {calls : List Call} : Silent calls → Aborts calls →
      Processes requestHandler arrival (some .abort) calls
  /-- The handler aborts. -/
  | panics {calls : List Call} {request : Request} : Silent calls → ¬Aborts calls →
      (requestHandler.handle arrival.world request arrival.overloaded).1 = .abort →
        Processes requestHandler arrival (some .abort) (calls ++ [.handle request])
  | answers {calls : List Call} {request : Request} {response : Response} {bytes : Bytes} :
      Silent calls → ¬Aborts calls →
      (requestHandler.handle arrival.world request arrival.overloaded).1 = .ok response →
      writeResponse arrival.world.headerOrder response = .ok bytes →
        Processes requestHandler arrival (Seq.writeAll bytes arrival.stream.writes).1
          (calls ++ .handle request :: (Seq.writeAll bytes arrival.stream.writes).2)

variable (requestHandler : Host) (arrival : Arrival chrono)

/-- What follows the loop that reads the request. -/
theorem processes_respond {calls : List Call} (silent : Silent calls) (quiet : ¬Aborts calls)
    (state : IncrementalRequest) :
    Processes requestHandler arrival
      (Seq.respond requestHandler arrival.world arrival.stream arrival.overloaded state).1
      (calls ++ (Seq.respond requestHandler arrival.world arrival.stream arrival.overloaded
        state).2) := by
  unfold Seq.respond
  split
  · next request addr _ =>
      dsimp only
      cases handled : (requestHandler.handle arrival.world (Request.fromNoRemote request addr)
          arrival.overloaded).1 with
      | err error => exact absurd handled (Host.handle_unfailing _ _ _ _ error)
      | abort => exact .panics silent quiet handled
      | ok response =>
          obtain ⟨bytes, written⟩ := exists_writeResponse arrival.world.headerOrder response
          rw [Outcome.ok_bind, written]
          exact .answers silent quiet handled written
  · rw [List.append_nil]
    exact .fails _ silent quiet
  · rw [List.append_nil]
    exact .fails _ silent quiet

/-- **Every call of `process` ends in one of its ways.** -/
theorem processes_process : Processes requestHandler arrival (requestHandler.outcome arrival)
    (requestHandler.calls arrival) := by
  unfold Host.outcome Host.calls Seq.process
  obtain ⟨silent, aborted⟩ := Seq.readLoop_silent (.none []) arrival.stream.reads
  cases read : Seq.readLoop (.none []) arrival.stream.reads with
  | mk ending calls =>
      rw [read] at silent aborted
      cases ending with
      | waiting => exact .waits silent fun aborts => by cases aborted.mpr aborts
      | failed error => exact .fails error silent fun aborts => by cases aborted.mpr aborts
      | aborted => exact .aborts silent (aborted.mp rfl)
      | done state =>
          have quiet : ¬Aborts calls := fun aborts => by cases aborted.mpr aborts
          exact processes_respond requestHandler arrival silent quiet state

/-! ### What a connection gets -/

/-- What a connection gets of a handler: it pays one visit and is written the response to it, or
it pays none and is written nothing. -/
def Host.Attends (requestHandler : Host) (arrival : Arrival chrono) : Prop :=
  match requestHandler.exchange? arrival with
  | some exchange =>
      requestsHandled (requestHandler.calls arrival) = [exchange.request] ∧
        exchange.world = arrival.world ∧ exchange.overloaded = arrival.overloaded ∧
        requestHandler.Responds exchange (requestHandler.serve arrival) ∧
        ∃ bytes, writeResponse arrival.world.headerOrder exchange.response = .ok bytes ∧
          bytesWritten (requestHandler.calls arrival) <+: bytes ∧
          (requestHandler.outcome arrival = some (.ok ()) →
            bytesWritten (requestHandler.calls arrival) = bytes)
  | none =>
      bytesWritten (requestHandler.calls arrival) = [] ∧
        requestHandler.outcome arrival ≠ some (.ok ()) ∧
        (requestHandler.outcome arrival ≠ some .abort →
          requestHandler.serve arrival = requestHandler)

variable {requestHandler arrival}

private theorem Silent.exchange?_eq_none (silent : Silent (requestHandler.calls arrival)) :
    requestHandler.exchange? arrival = none := by
  rw [Host.exchange?, silent.requestsHandled]
  rfl

private theorem Silent.serve_eq (silent : Silent (requestHandler.calls arrival)) :
    requestHandler.serve arrival = requestHandler := by
  rw [Host.serve, silent.requestsHandled]
  rfl

/-- Where all is silent but the handler and what is written, one request is handed on. -/
theorem Silent.requestsHandled_handle {calls more : List Call} (silent : Silent calls)
    (only : OnlyWrites more) (request : Request) :
    RustHttpServer.requestsHandled (calls ++ .handle request :: more) = [request] := by
  rw [requestsHandled_append, silent.requestsHandled]
  exact congrArg (request :: ·) only.requestsHandled

/-- Where all is silent up to the handler, what is written is written behind it. -/
theorem Silent.bytesWritten_handle {calls : List Call} (silent : Silent calls) (request : Request)
    (more : List Call) : RustHttpServer.bytesWritten (calls ++ .handle request :: more) =
      RustHttpServer.bytesWritten more := by
  rw [bytesWritten_append, silent.bytesWritten]
  rfl

variable (requestHandler arrival)

/-- **One request, one response.** A connection that is processed pays one visit to the handler at
most. What is written on it is the front of the response, all of it if `process` returns without
an error; without a visit nothing is written, and the handler stays as it is. -/
theorem attends_process : requestHandler.Attends arrival := by
  have processes := processes_process requestHandler arrival
  generalize made : requestHandler.outcome arrival = outcome at processes
  generalize done : requestHandler.calls arrival = calls at processes
  have unvisited : Silent calls → outcome ≠ some (.ok ()) → requestHandler.Attends arrival := by
    intro silent failed
    rw [← done] at silent
    rw [← made] at failed
    unfold Host.Attends
    rw [silent.exchange?_eq_none]
    exact ⟨silent.bytesWritten, failed, fun _ => silent.serve_eq⟩
  cases processes with
  | waits silent quiet => exact unvisited silent nofun
  | fails error silent quiet => exact unvisited silent nofun
  | aborts silent aborts => exact unvisited silent nofun
  | @panics before request silent quiet panicked =>
      have unanswered : requestHandler.exchange? arrival = none := by
        rw [Host.exchange?, done, silent.requestsHandled_handle .nil]
        dsimp only [List.head?_cons, Option.bind_eq_bind, Option.bind_some]
        rw [panicked]
        rfl
      unfold Host.Attends
      rw [unanswered, made, done, silent.bytesWritten_handle]
      exact ⟨rfl, nofun, fun returned => absurd rfl returned⟩
  | @answers before request response bytes silent quiet handled written =>
      obtain ⟨front, whole, only⟩ := Seq.writeAll_accounts bytes arrival.stream.writes
      have answered : requestHandler.exchange? arrival =
          some ⟨⟨arrival.world, request, arrival.overloaded⟩, response⟩ := by
        rw [Host.exchange?, done, silent.requestsHandled_handle only]
        dsimp only [List.head?_cons, Option.bind_eq_bind, Option.bind_some]
        rw [handled]
        rfl
      have served : requestHandler.serve arrival =
          (requestHandler.handle arrival.world request arrival.overloaded).2.1 := by
        rw [Host.serve, done, silent.requestsHandled_handle only]
        rfl
      unfold Host.Attends
      rw [answered, done, made, served, silent.bytesWritten_handle]
      refine ⟨silent.requestsHandled_handle only request, rfl, rfl, ?_, bytes, written, front,
        whole⟩
      exact ⟨_, Prod.ext handled rfl⟩

/-- `write_all` does not abort. -/
theorem Seq.writeAll_ne_abort (bytes : Bytes) (writes : List (Except IoError ℕ+)) :
    (writeAll bytes writes).1 ≠ some .abort := by
  fun_induction writeAll bytes writes with
  | case1 writes => simp
  | case2 byte bytes => simp
  | case3 byte bytes room writes outcome calls written ih =>
      rw [written] at ih
      exact ih
  | case4 byte bytes error writes interrupted ih => exact ih
  | case5 byte bytes error writes failed => simp

/-- **Where `process` panics.** It panics exactly if the chunks that it has read are miscut, or if
the handler panics over the request that it is handed. -/
theorem process_eq_abort_iff (printsUtc : chrono.PrintsUtc) (strict : chrono.Strict) :
    requestHandler.outcome arrival = some .abort ↔
      MiscutChunks (chunksRead (requestHandler.calls arrival)) ∨
        ∃ request ∈ requestsHandled (requestHandler.calls arrival),
          requestHandler.Panics arrival.world request := by
  have parser : Aborts (requestHandler.calls arrival) ↔
      MiscutChunks (chunksRead (requestHandler.calls arrival)) :=
    (Seq.process_feeds _ _ _ _).trans (feedAll_eq_abort_iff _)
  rw [← parser]
  have processes := processes_process requestHandler arrival
  generalize requestHandler.outcome arrival = outcome at processes
  generalize requestHandler.calls arrival = calls at processes
  have calm : ∀ {calls : List Call}, Silent calls → ∀ request ∈ requestsHandled calls,
      ¬requestHandler.Panics arrival.world request := by
    intro calls silent request inside
    rw [silent.requestsHandled] at inside
    cases inside
  have neither : ∀ {calls : List Call}, Silent calls → ¬Aborts calls → ¬(Aborts calls ∨
      ∃ request ∈ requestsHandled calls, requestHandler.Panics arrival.world request) := by
    rintro calls silent quiet (aborts | ⟨request, inside, panics⟩)
    · exact quiet aborts
    · exact calm silent request inside panics
  cases processes with
  | waits silent quiet => exact iff_of_false nofun (neither silent quiet)
  | fails error silent quiet => exact iff_of_false nofun (neither silent quiet)
  | aborts silent aborts => exact iff_of_true rfl (.inl aborts)
  | @panics before request silent quiet panicked =>
      refine iff_of_true rfl (.inr ⟨request, ?_, ?_⟩)
      · rw [silent.requestsHandled_handle .nil]
        exact List.mem_singleton_self request
      · exact (requestHandler.handle_eq_abort_iff printsUtc strict _).mp panicked
  | @answers before request response bytes silent quiet handled written =>
      obtain ⟨-, -, only⟩ := Seq.writeAll_accounts bytes arrival.stream.writes
      refine iff_of_false (Seq.writeAll_ne_abort bytes _) ?_
      rintro (aborts | ⟨other, inside, panics⟩)
      · rcases aborts_append.mp aborts with before | behind
        · exact quiet before
        · exact only.not_aborts_handle request behind
      · rw [silent.requestsHandled_handle only] at inside
        obtain rfl := List.mem_singleton.mp inside
        have aborted := (requestHandler.handle_eq_abort_iff printsUtc strict
          arrival.overloaded).mpr panics
        cases handled.symm.trans aborted

end RustHttpServer
