import RustHttpServer.Select.Batch
import RustHttpServer.Select.Accept
import RustHttpServer.Select.Once
import RustHttpServer.Select.Watchdog

/-!
# A connection on its own

The loop takes a connection out of its map and puts it back, and between the events of one
connection it serves any number of others. What it does on a connection all the same is what is
done when the events of that connection are delivered to it one after the other, and nothing else
(`served_alone`). So what is proved of `Connection.deliver` is true of each connection of the loop.
-/

namespace RustHttpServer

open Foundation Utf8

variable {chrono : Chrono}

/-- The events of a batch that name a token. -/
def eventsAt (token : Token) (events : List (Event × World chrono)) :
    List (Event × World chrono) :=
  events.filter fun (event, _) => event.token = token

/-- The events of a run that name a token. -/
def eventsOf (token : Token) (steps : List (EventLoop × Turn chrono)) :
    List (Event × World chrono) :=
  steps.flatMap fun (_, turn) => eventsAt token turn.batch

section Events

variable {token : Token} {event : Event} {world : World chrono}
  {events : List (Event × World chrono)}

private theorem eventsAt_cons_self (here : event.token = token) :
    eventsAt token ((event, world) :: events) = (event, world) :: eventsAt token events :=
  List.filter_cons_of_pos (decide_eq_true here)

private theorem eventsAt_cons_other (elsewhere : event.token ≠ token) :
    eventsAt token ((event, world) :: events) = eventsAt token events :=
  List.filter_cons_of_neg fun here => elsewhere (of_decide_eq_true here)

private theorem eventsAt_eq_nil (elsewhere : ∀ item ∈ events, item.1.token ≠ token) :
    eventsAt token events = [] :=
  List.filter_eq_nil_iff.mpr fun item member here => elsewhere item member (of_decide_eq_true here)

/-- The events of one more turn follow those before. -/
theorem eventsOf_step (steps : List (EventLoop × Turn chrono)) (loop : EventLoop)
    (turn : Turn chrono) :
    eventsOf token (steps ++ [(loop, turn)]) =
      eventsOf token steps ++ eventsAt token turn.batch := by
  rw [eventsOf, List.flatMap_append, List.flatMap_singleton]
  rfl

end Events

/-! ### Delivery in parts -/

namespace Connection

variable {connection connection' : Connection} {token : Token}

/-- The handler does not panic while events are delivered to a connection. -/
def Survives (token : Token) : Connection → List (Event × World chrono) → Prop
  | _, [] => True
  | connection, (event, world) :: events =>
      match (handleStreamEvent event world token connection).1 with
      | .ok (.tcpStream connection, responses) =>
          requestsClose token responses = false → Survives token connection events
      | .ok _ => True
      | .err _ => True
      | .abort => False

/-- Events can be delivered in parts, while the connection is open. -/
theorem deliver_append {first : List (Event × World chrono)} {calls : List Call}
    (opened : connection.deliver token first = (.opened connection', calls))
    (second : List (Event × World chrono)) :
    connection.deliver token (first ++ second) =
      ((connection'.deliver token second).1, calls ++ (connection'.deliver token second).2) := by
  induction first generalizing connection calls with
  | nil =>
      cases opened
      rfl
  | cons delivered first ih =>
      obtain ⟨event, world⟩ := delivered
      rw [List.cons_append, deliver]
      rw [deliver] at opened
      cases handled : handleStreamEvent event world token connection with
      | mk outcome before =>
          rw [handled] at opened
          cases outcome with
          | err error => cases opened
          | abort => cases opened
          | ok returned =>
              obtain ⟨source, responses⟩ := returned
              cases source with
              | tcpListener listener tokenCounter serverConfig => cases opened
              | stdin input listenerToken => cases opened
              | tcpStream between =>
                  rw [follow] at opened ⊢
                  by_cases closes : requestsClose token responses = true
                  · rw [if_pos closes] at opened
                    cases opened
                  · rw [if_neg closes] at opened ⊢
                    obtain ⟨status, more⟩ := Prod.mk.inj opened
                    rw [ih (Prod.ext status rfl), ← more, List.append_assoc]

/-- What survives some events, and then others, survives all of them. -/
theorem Survives.append {first second : List (Event × World chrono)} {calls : List Call}
    (opened : connection.deliver token first = (.opened connection', calls))
    (before : connection.Survives token first) (later : connection'.Survives token second) :
    connection.Survives token (first ++ second) := by
  induction first generalizing connection calls with
  | nil =>
      cases opened
      exact later
  | cons delivered first ih =>
      obtain ⟨event, world⟩ := delivered
      rw [List.cons_append, Survives]
      rw [Survives] at before
      rw [deliver] at opened
      cases handled : handleStreamEvent event world token connection with
      | mk outcome calls =>
          rw [handled] at opened before
          cases outcome with
          | err error => trivial
          | abort => exact before
          | ok returned =>
              obtain ⟨source, responses⟩ := returned
              cases source with
              | tcpListener listener tokenCounter serverConfig => trivial
              | stdin input listenerToken => trivial
              | tcpStream between =>
                  intro open'
                  rw [follow, if_neg (Bool.eq_false_iff.mp open')] at opened
                  obtain ⟨status, -⟩ := Prod.mk.inj opened
                  exact ih (Prod.ext status rfl) (before open')

/-- What the handler of a connection submits. -/
theorem handleStreamEvent_responses {event : Event} {world : World chrono}
    {responses : List HandleEventResponse}
    (returned : (handleStreamEvent event world token connection).1 =
      .ok (.tcpStream connection', responses)) :
    responses = [] ∨ responses = [.emptyCommand (.modifyInterests token .writable)] ∨
      responses = [.emptyCommand (.closeSource token)] ∧
        (connection'.Reading ∨ connection'.connectionState = .close) := by
  unfold handleStreamEvent at returned
  split at returned
  · split at returned
    · unfold readRequest at returned
      dsimp only at returned
      split at returned
      · cases returned
        exact .inl rfl
      · cases returned
        exact .inr (.inr ⟨rfl, .inl ⟨_, rfl⟩⟩)
      · unfold respond at returned
        dsimp only at returned
        split at returned
        · split at returned
          · cases returned
            exact .inr (.inl rfl)
          · cases returned
          · cases returned
        · cases returned
        · cases returned
          exact .inl rfl
      · cases returned
      · cases returned
    · cases returned
      exact .inl rfl
  · split at returned
    · unfold Connection.writeResponse at returned
      dsimp only at returned
      split at returned
      · cases returned
        exact .inl rfl
      · cases returned
        exact .inr (.inr ⟨rfl, .inr rfl⟩)
      · cases returned
      · cases returned
    · cases returned
      exact .inl rfl
  · cases returned
    exact .inl rfl

/-- A close is requested where one is submitted. -/
theorem requestsClose_iff {event : Event} {world : World chrono}
    {responses : List HandleEventResponse}
    (returned : (handleStreamEvent event world token connection).1 =
      .ok (.tcpStream connection', responses)) :
    requestsClose token responses = true ↔
      .respond (.closeSource token) ∈ responses.map HandleEventResponse.toCommand := by
  rcases handleStreamEvent_responses returned with rfl | rfl | ⟨rfl, -⟩
  · simp [requestsClose]
  · simp [requestsClose, HandleEventResponse.toCommand]
  · simp [requestsClose, HandleEventResponse.toCommand]

end Connection

namespace EventLoop

variable {loop mid after : EventLoop} {token : Token}

/-- How a connection stands while the loop handles events, by what has become of it. -/
inductive Handles (token : Token) (loop : EventLoop) : ConnectionStatus → Prop
  | opened {connection : Connection} :
      loop.eventSources.lookup token = some (.tcpStream connection) →
      .respond (.closeSource token) ∉ loop.commandQueue → Handles token loop (.opened connection)
  | closing {connection : Connection} :
      .respond (.closeSource token) ∈ loop.commandQueue → Handles token loop (.closing connection)
  | dropped : loop.eventSources.lookup token = none → Handles token loop .dropped

/-- How a connection stands between turns, by what has become of it. One that has not requested its
close is closed all the same by the check that finds it too old. -/
inductive Stands (token : Token) (loop : EventLoop) : ConnectionStatus → Prop
  | opened {connection : Connection} :
      loop.eventSources.lookup token = some (.tcpStream connection) →
      Stands token loop (.opened connection)
  | expired {connection : Connection} {now : Instant} :
      loop.eventSources.lookup token = none →
      .execute (.checkStreamTimeout token) now (some (.tcpStream connection)) ∈ loop.log →
      connection.Awaiting → connection.Expired now → Stands token loop (.opened connection)
  | closed {connection : Connection} :
      loop.eventSources.lookup token = none → Stands token loop (.closing connection)
  | dropped : loop.eventSources.lookup token = none → Stands token loop .dropped

/-- What the loop has done on a connection since it had done something before is what is done when
some events are delivered to it. -/
structure Delivers (token : Token) (connection : Connection) (events : List (Event × World chrono))
    (before : List Call) (loop : EventLoop) : Prop where
  stands : Stands token loop (connection.deliver token events).1
  survives : connection.Survives token events
  calls : callsOf token loop.log = before ++ (connection.deliver token events).2

/-! ### Handling events -/

/-- What is done for an event is done on its source. -/
theorem exists_calls_of_handleEvent {event : Event} {world : World chrono}
    (handled : handleEvent event world loop = (.ok (), after)) :
    ∃ calls : List Call, after.log = loop.log ++ calls.map (.call event.token) := by
  obtain ⟨source, -, ⟨newSource, responses, calls, -, rfl⟩ | ⟨error, calls, -, rfl⟩⟩ :=
    handleEvent_cases handled
  · exact ⟨calls, rfl⟩
  · exact ⟨calls, dropSource_log ..⟩

/-- An event of another source leaves a connection as it stands. -/
theorem Handles.other {status : ConnectionStatus} (handles : Handles token loop status)
    (fresh : loop.FreshTokens) (roles : loop.Roles) (above : 1 < token) {event : Event}
    {world : World chrono} (elsewhere : event.token ≠ token)
    (handled : handleEvent event world loop = (.ok (), after)) :
    Handles token after status ∧ callsOf token after.log = callsOf token loop.log := by
  obtain ⟨same, source, commands, -, queue, submits⟩ := handleEvent_apart fresh roles handled
  have lookup : after.eventSources.lookup token = loop.eventSources.lookup token :=
    congrArg Entry.source (same token (Ne.symm elsewhere))
  refine ⟨?_, ?_⟩
  · cases handles with
    | opened found unclosed =>
        refine .opened (lookup.trans found) fun member => ?_
        rw [queue] at member
        rcases List.mem_append.mp member with pending | submitted
        · exact unclosed pending
        · obtain ⟨submits, own, -, shuts⟩ := submits _ submitted
          cases submits with
          | adjust adjusts => exact elsewhere (own ⟨_, rfl⟩).symm
          | shutdown =>
              have one := congrArg Command.token (shuts ⟨_, _, rfl⟩)
              exact Nat.ne_of_gt above one
    | closing pending =>
        refine .closing ?_
        rw [queue]
        exact List.mem_append_left _ pending
    | dropped gone => exact .dropped (lookup.trans gone)
  · obtain ⟨calls, log⟩ := exists_calls_of_handleEvent handled
    exact (callsOf_record log).2 token (Ne.symm elsewhere)

/-- Events of other sources leave a connection as it stands. -/
theorem Handles.others {status : ConnectionStatus} (handles : Handles token loop status)
    (fresh : loop.FreshTokens) (roles : loop.Roles) (above : 1 < token)
    {events : List (Event × World chrono)} (elsewhere : ∀ item ∈ events, item.1.token ≠ token)
    (handled : handleEvents events loop = (.ok (), after)) :
    Handles token after status ∧ callsOf token after.log = callsOf token loop.log := by
  induction events generalizing loop with
  | nil =>
      cases handled
      exact ⟨handles, rfl⟩
  | cons first events ih =>
      obtain ⟨event, world⟩ := first
      obtain ⟨⟨⟩, between, began, handled⟩ := Stateful.bind_apply_eq_ok_iff.mp handled
      obtain ⟨here, elsewhere⟩ := List.forall_mem_cons.mp elsewhere
      have step : Step chrono loop between := .handle began
      obtain ⟨handles, same⟩ := handles.other fresh roles above here began
      obtain ⟨handles, same'⟩ :=
        ih handles (fresh.step step) (roles.step fresh step) elsewhere handled
      exact ⟨handles, same'.trans same⟩

/-- An event of a connection is delivered to it. -/
theorem handles_own {connection : Connection} {event : Event} {world : World chrono}
    (found : loop.eventSources.lookup event.token = some (.tcpStream connection))
    (unclosed : .respond (.closeSource event.token) ∉ loop.commandQueue)
    (handled : handleEvent event world loop = (.ok (), after)) :
    let delivered := connection.deliver event.token [(event, world)]
    Handles event.token after delivered.1 ∧ connection.Survives event.token [(event, world)] ∧
      callsOf event.token after.log = callsOf event.token loop.log ++ delivered.2 := by
  obtain ⟨source, found', ⟨newSource, responses, calls, returned, rfl⟩ |
    ⟨error, calls, failed, rfl⟩⟩ := handleEvent_cases handled
  · cases found.symm.trans found'
    change handleStreamEvent event world event.token connection = _ at returned
    obtain ⟨connection', rfl, -, -⟩ := connection.returns_handleStreamEvent event world event.token
      newSource responses (congrArg Prod.fst returned)
    have closing := Connection.requestsClose_iff (congrArg Prod.fst returned)
    rw [Connection.deliver, Connection.Survives, returned, follow]
    by_cases closes : requestsClose event.token responses = true
    · rw [if_pos closes]
      exact ⟨.closing (List.mem_append_right _ (closing.mp closes)), fun _ => trivial,
        (callsOf_record rfl).1⟩
    · rw [if_neg closes]
      refine ⟨.opened (Finmap.lookup_insert _) fun member => ?_, fun _ => trivial, ?_⟩
      · rcases List.mem_append.mp member with pending | submitted
        · exact unclosed pending
        · exact closes (closing.mpr submitted)
      · exact (callsOf_record rfl).1.trans (congrArg _ (List.append_nil calls).symm)
  · cases found.symm.trans found'
    change handleStreamEvent event world event.token connection = _ at failed
    rw [Connection.deliver, Connection.Survives, failed]
    refine ⟨.dropped ?_, trivial, (callsOf_record (dropSource_log ..)).1⟩
    rw [dropSource_eventSources]
    exact Finmap.lookup_erase _ _

/-- A batch delivers to a connection what there is for it. -/
theorem handles_of_handleEvents {connection : Connection} (fresh : loop.FreshTokens)
    (roles : loop.Roles) (found : loop.eventSources.lookup token = some (.tcpStream connection))
    (unclosed : .respond (.closeSource token) ∉ loop.commandQueue)
    {events : List (Event × World chrono)} (distinct : Distinct events)
    (handled : handleEvents events loop = (.ok (), after)) :
    let delivered := connection.deliver token (eventsAt token events)
    Handles token after delivered.1 ∧ connection.Survives token (eventsAt token events) ∧
      callsOf token after.log = callsOf token loop.log ++ delivered.2 := by
  have above : 1 < token := roles token _ (.inl found)
  induction events generalizing loop with
  | nil =>
      cases handled
      exact ⟨.opened found unclosed, trivial, (List.append_nil _).symm⟩
  | cons first events ih =>
      obtain ⟨event, world⟩ := first
      obtain ⟨⟨⟩, between, began, handled⟩ := Stateful.bind_apply_eq_ok_iff.mp handled
      obtain ⟨once, distinct⟩ := List.nodup_cons.mp distinct
      have step : Step chrono loop between := .handle began
      by_cases here : event.token = token
      · subst here
        have elsewhere : ∀ item ∈ events, item.1.token ≠ event.token := fun item member same =>
          once (List.mem_map.mpr ⟨item, member, same⟩)
        obtain ⟨handles, survives, calls⟩ := handles_own found unclosed began
        obtain ⟨handles, same⟩ :=
          handles.others (fresh.step step) (roles.step fresh step) above elsewhere handled
        rw [eventsAt_cons_self rfl, eventsAt_eq_nil elsewhere]
        exact ⟨handles, survives, same.trans calls⟩
      · obtain ⟨handles, same⟩ :=
          Handles.other (.opened found unclosed) fresh roles above here began
        cases handles with
        | opened found unclosed =>
            rw [eventsAt_cons_other here, ← same]
            exact ih (fresh.step step) (roles.step fresh step) found unclosed distinct handled

/-- No event comes for a source that is gone. -/
theorem eventsAt_of_gone (fresh : loop.FreshTokens) (roles : loop.Roles) (above : 1 < token)
    (gone : loop.eventSources.lookup token = none) {events : List (Event × World chrono)}
    (handled : handleEvents events loop = (.ok (), after)) :
    ∀ item ∈ events, item.1.token ≠ token := by
  induction events generalizing loop with
  | nil => exact List.forall_mem_nil _
  | cons first events ih =>
      obtain ⟨event, world⟩ := first
      obtain ⟨⟨⟩, between, began, handled⟩ := Stateful.bind_apply_eq_ok_iff.mp handled
      have step : Step chrono loop between := .handle began
      have here : event.token ≠ token := by
        rintro rfl
        obtain ⟨source, found, -⟩ := handleEvent_cases began
        cases gone.symm.trans found
      obtain ⟨handles, -⟩ := Handles.other (.dropped gone) fresh roles above here began
      cases handles with
      | dropped gone =>
          exact List.forall_mem_cons.mpr
            ⟨here, ih (fresh.step step) (roles.step fresh step) gone handled⟩

/-! ### Executing commands -/

/-- How a connection stands while commands are executed. -/
inductive Executing (token : Token) (loop : EventLoop) (connection : Connection) : Prop
  | opened :
      loop.eventSources.lookup token = some (.tcpStream connection) →
      .respond (.closeSource token) ∉ loop.commandQueue → Executing token loop connection
  | expired {now : Instant} :
      loop.eventSources.lookup token = none →
      .execute (.checkStreamTimeout token) now (some (.tcpStream connection)) ∈ loop.log →
      connection.Awaiting → connection.Expired now → Executing token loop connection

/-- A command leaves a connection standing, or closes it for its age. -/
theorem Executing.execution {connection : Connection} (executing : Executing token loop connection)
    (fresh : loop.FreshTokens) (given : token ∈ arrived loop.log)
    (execution : Execution loop after) : Executing token after connection := by
  cases executing with
  | expired gone checked awaiting expired =>
      obtain ⟨command, rest, more, now, closed, -, -, log⟩ := execution.executes
      refine .expired ?_ (log ▸ List.mem_append_left _ checked) awaiting expired
      cases found : after.eventSources.lookup token with
      | none => rfl
      | some source =>
          exact absurd (execution.present fresh (.inl found)) (fresh.not_present given gone source)
  | opened found unclosed =>
      have behind : ∀ {command : Command} {rest : List Command},
          loop.commandQueue = command :: rest → .respond (.closeSource token) ∉ rest :=
        fun queued member => unclosed (queued ▸ List.mem_cons_of_mem _ member)
      cases execution with
      | @register other source interests rest now queued =>
          have different : token ≠ other := by
            rintro rfl
            exact fresh.not_arrived (mem_arrivals.mpr ⟨source, interests,
              queued ▸ List.mem_cons_self⟩) given
          exact .opened ((Finmap.lookup_insert_of_ne _ different).trans found) (behind queued)
      | modify now queued _ => exact .opened found (behind queued)
      | @close other source command rest now queued found' closes =>
          by_cases same : token = other
          · subst same
            cases found.symm.trans found'
            cases closes with
            | closeSource => exact absurd (queued ▸ List.mem_cons_self) unclosed
            | checkStreamTimeout streaming awaiting expired =>
                cases streaming
                exact .expired (Finmap.lookup_erase _ _)
                  (List.mem_append_right _ (List.mem_singleton_self _)) awaiting expired
          · exact .opened ((Finmap.lookup_erase_ne same).trans found) (behind queued)
      | skip now queued _ => exact .opened found (behind queued)
      | recheck queued _ _ _ =>
          refine .opened found fun member => ?_
          rcases List.mem_append.mp member with pending | last
          · exact behind queued pending
          · cases List.mem_singleton.mp last
      | resubmit now queued => exact absurd (queued ▸ List.mem_cons_self) (fresh.plain _)

/-- How a connection stands when all commands are executed. -/
theorem Handles.stands {status : ConnectionStatus} (handles : Handles token loop status)
    (fresh : loop.FreshTokens) (given : token ∈ arrived loop.log) {io : Nat → CommandIo}
    {result : List Command}
    (ran : executeCommands io loop.commandQueue [] loop = (.ok result, after)) :
    Stands token { after with commandQueue := after.commandQueue ++ result } status := by
  cases handles with
  | closing pending =>
      have gone := closed_of_executeCommands fresh rfl pending given ran
      exact .closed gone
  | dropped gone =>
      have absent := absent_of_executeCommands fresh rfl (fresh.not_present given gone) ran
      exact .dropped absent
  | @opened connection found unclosed =>
      obtain ⟨-, executions⟩ := moves_executeCommands rfl ran
      rw [List.append_nil] at executions
      have kept := invariant_of_steps
        (fun loop => loop.FreshTokens ∧ token ∈ arrived loop.log ∧ Executing token loop connection)
        executions ?_ ⟨fresh, given, .opened found unclosed⟩
      · obtain ⟨-, -, executing⟩ := kept
        cases executing with
        | opened found _ => exact .opened found
        | expired gone checked awaiting expired => exact .expired gone checked awaiting expired
      · rintro between next ⟨fresh, given, executing⟩ execution
        obtain ⟨command, rest, more, now, closed, -, -, log⟩ := execution.executes
        refine ⟨fresh.execution execution, ?_, executing.execution fresh given execution⟩
        rw [log, arrived_append]
        exact List.mem_append_left _ given

/-- Nothing is done on a connection while commands are executed. -/
theorem callsOf_of_executeCommands {io : Nat → CommandIo} {result : List Command}
    (ran : executeCommands io loop.commandQueue [] loop = (.ok result, after)) :
    callsOf token after.log = callsOf token loop.log := by
  obtain ⟨-, executions⟩ := moves_executeCommands rfl ran
  rw [List.append_nil] at executions
  refine invariant_of_steps (fun between => callsOf token between.log = callsOf token loop.log)
    executions (fun between next same execution => ?_) rfl
  obtain ⟨command, rest, more, now, closed, -, -, log⟩ := execution.executes
  rw [log, callsOf_append, same]
  exact List.append_nil _

/-! ### Turns -/

/-- What is handled has been registered. -/
theorem arrived_of_handleEvents {events : List (Event × World chrono)}
    (handled : handleEvents events loop = (.ok (), after)) (given : token ∈ arrived loop.log) :
    token ∈ arrived after.log := by
  obtain ⟨acts, log⟩ := Moves.log_prefix (.of_handlings (moves_handleEvents handled))
  rw [← log, arrived_append]
  exact List.mem_append_left _ given

/-- What has been registered has been registered after a turn. -/
theorem arrived_of_next {turn : Turn chrono} (taken : loop.next turn = (.ok (), after))
    (given : token ∈ arrived loop.log) : token ∈ arrived after.log := by
  obtain ⟨acts, log⟩ := Moves.log_prefix (next_moves taken)
  rw [← log, arrived_append]
  exact List.mem_append_left _ given

/-- A turn delivers to a connection what there is for it. -/
theorem delivers_of_next {connection : Connection} (fresh : loop.FreshTokens) (roles : loop.Roles)
    (settled : loop.Settled) (found : loop.eventSources.lookup token = some (.tcpStream connection))
    {turn : Turn chrono} (distinct : Distinct turn.batch)
    (taken : loop.next turn = (.ok (), after)) :
    Delivers token connection (eventsAt token turn.batch) (callsOf token loop.log) after := by
  obtain ⟨events, handled, newCommands, executed, polled, began, ran, rfl⟩ := next_cases taken
  rw [show turn.batch = events by rw [Turn.batch, polled]] at distinct ⊢
  obtain ⟨handles, survives, calls⟩ :=
    handles_of_handleEvents fresh roles found (settled.not_closing token) distinct began
  have given := arrived_of_handleEvents began (fresh.live token _ found)
  exact ⟨handles.stands (fresh.during (.handled polled began)) given ran, survives,
    (callsOf_of_executeCommands ran).trans calls⟩

/-- A turn leaves a connection that is gone as it is. -/
theorem gone_of_next (fresh : loop.FreshTokens) (roles : loop.Roles) (above : 1 < token)
    (given : token ∈ arrived loop.log) (gone : loop.eventSources.lookup token = none)
    {turn : Turn chrono} (taken : loop.next turn = (.ok (), after)) :
    eventsAt token turn.batch = [] ∧ after.eventSources.lookup token = none ∧
      callsOf token after.log = callsOf token loop.log := by
  obtain ⟨events, handled, newCommands, executed, polled, began, ran, rfl⟩ := next_cases taken
  rw [show turn.batch = events by rw [Turn.batch, polled]]
  have elsewhere := eventsAt_of_gone fresh roles above gone began
  obtain ⟨handles, calls⟩ := Handles.others (.dropped gone) fresh roles above elsewhere began
  have stands := handles.stands (fresh.during (.handled polled began))
    (arrived_of_handleEvents began given) ran
  refine ⟨eventsAt_eq_nil elsewhere, ?_, (callsOf_of_executeCommands ran).trans calls⟩
  cases stands with
  | dropped gone => exact gone

/-- A turn delivers more events. -/
theorem Delivers.next {connection : Connection} {events : List (Event × World chrono)}
    {before : List Call} (delivers : Delivers token connection events before loop)
    (fresh : loop.FreshTokens) (roles : loop.Roles) (settled : loop.Settled) (above : 1 < token)
    (given : token ∈ arrived loop.log) {turn : Turn chrono} (distinct : Distinct turn.batch)
    (taken : loop.next turn = (.ok (), after)) :
    Delivers token connection (events ++ eventsAt token turn.batch) before after := by
  obtain ⟨stands, survives, calls⟩ := delivers
  have finished : loop.eventSources.lookup token = none →
      (after.eventSources.lookup token = none → loop.log <+: after.log →
        Stands token after (connection.deliver token events).1) →
      Delivers token connection (events ++ eventsAt token turn.batch) before after := by
    intro gone remains
    obtain ⟨none, gone', same⟩ := gone_of_next fresh roles above given gone taken
    rw [none, List.append_nil]
    exact ⟨remains gone' (Moves.log_prefix (next_moves taken)), survives, same.trans calls⟩
  cases delivered : connection.deliver token events with
  | mk status more =>
      rw [delivered] at stands calls finished
      cases stands with
      | @opened connection' found =>
          have later := delivers_of_next fresh roles settled found distinct taken
          refine ⟨?_, survives.append delivered later.survives, ?_⟩
          · rw [connection.deliver_append delivered]
            exact later.stands
          · rw [connection.deliver_append delivered, later.calls, calls, List.append_assoc]
      | expired gone checked awaiting expired =>
          exact finished gone fun gone' front =>
            .expired gone' (front.subset checked) awaiting expired
      | closed gone => exact finished gone fun gone' _ => .closed gone'
      | dropped gone => exact finished gone fun gone' _ => .dropped gone'

/-- In every run from a state on, the events that name a connection are delivered to it. -/
theorem delivers_of_run (reachable : (eventLoopSystem chrono).Reachable loop)
    {connection : Connection}
    (found : loop.eventSources.lookup token = some (.tcpStream connection))
    {steps : List (EventLoop × Turn chrono)}
    (run : ((distinctSystem chrono).onward loop).Run steps after) :
    Delivers token connection (eventsOf token steps) (callsOf token loop.log) after := by
  have above : 1 < token := roles_of_reachable reachable token _ (.inl found)
  have given := (freshTokens_of_reachable reachable).live token _ found
  refine (run.invariant (fun steps after =>
    (eventLoopSystem chrono).Reachable after ∧ token ∈ arrived after.log ∧
      Delivers token connection (eventsOf token steps) (callsOf token loop.log) after) ?_ ?_).2.2
  · rintro after rfl
    exact ⟨reachable, given, .opened found, trivial, (List.append_nil _).symm⟩
  · rintro steps mid turn after - ⟨reachable, given, delivers⟩ ⟨distinct, taken⟩
    refine ⟨reachable.step taken, arrived_of_next taken given, ?_⟩
    rw [eventsOf_step]
    exact delivers.next (freshTokens_of_reachable reachable) (roles_of_reachable reachable)
      (settled_of_reachable reachable) above given distinct taken

end EventLoop

open EventLoop

/-- **Each connection is served as if it were alone.** From any state that the loop can reach, and
as long as its turns return, what it does on a connection, whatever other sources there are and
whatever they do, is what is done when the events that name the connection are delivered to it, and
none of these panics; and the connection is there while that leaves it open, unless the check
has closed it for its age. -/
theorem served_alone {loop after : EventLoop}
    (reachable : (eventLoopSystem chrono).Reachable loop) {token : Token} {connection : Connection}
    (found : loop.eventSources.lookup token = some (.tcpStream connection))
    {steps : List (EventLoop × Turn chrono)}
    (run : ((distinctSystem chrono).onward loop).Run steps after) :
    let delivered := connection.deliver token (eventsOf token steps)
    Stands token after delivered.1 ∧ connection.Survives token (eventsOf token steps) ∧
      callsOf token after.log = callsOf token loop.log ++ delivered.2 := by
  obtain ⟨stands, survives, calls⟩ := delivers_of_run reachable found run
  exact ⟨stands, survives, calls⟩

/-- Two connections are readable in one batch. -/
theorem served_alone_two :
    let stream : TcpStream :=
      ⟨[.ok (encode "GET / HTTP/1.1\r\n".toList)], [], .ok "127.0.0.1:4000".toList⟩
    let connection : Connection := .opened Site.serverConfig (stream, 7)
    let turn (events : List Event) : Turn gregorian :=
      ⟨.ok (events.map fun event => (event, Site.world)), fun _ => ⟨8, .ok ()⟩⟩
    let start := selectMultiplex Site.serverConfig ⟨[.ok (stream, 7), .ok (stream, 7)]⟩ ⟨[]⟩
    let registered := (start.next (turn [])).2
    let accepted := (registered.next (turn [⟨1, true, false⟩])).2
    let after := (accepted.next (turn [⟨3, true, false⟩, ⟨2, true, false⟩])).2
    let delivered := connection.deliver 2 [(⟨2, true, false⟩, Site.world)]
    callsOf 2 after.log = delivered.2 ∧ chunksRead delivered.2 ≠ [] := by
  intro stream connection turn start registered accepted after delivered
  have reachable : (eventLoopSystem gregorian).Reachable accepted := by
    refine .step (@TransitionSystem.Reachable.step _ _ _ start registered (turn [])
      (.start ⟨_, _, _, rfl⟩) (Prod.ext ?_ rfl)) (Prod.ext ?_ rfl)
    · decide +kernel
    · decide +kernel
  have found : accepted.eventSources.lookup 2 = some (.tcpStream connection) := rfl
  have run : ((distinctSystem gregorian).onward accepted).Run
      [(accepted, turn [⟨3, true, false⟩, ⟨2, true, false⟩])] after := by
    refine @TransitionSystem.Run.step _ _ _ [] _ _ _ (.start rfl) ⟨?_, Prod.ext ?_ rfl⟩
    · exact List.nodup_cons.mpr ⟨by decide, List.nodup_singleton _⟩
    · decide +kernel
  obtain ⟨-, -, calls⟩ := served_alone reachable found run
  refine ⟨calls, ?_⟩
  decide +kernel

end RustHttpServer
