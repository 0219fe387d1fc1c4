import RustHttpServer.Select.Batch

/-!
# A failing accept

When `accept` fails, `handle_listener_event` returns the error, and the loop drops the
listener with the streams that it has accepted before. So the listener stays, and all that it
has accepted is registered and watched, if and only if there is no error but that the accept
would block, and nobody shuts the server down meanwhile (`accepts_kept_iff`).
-/

namespace RustHttpServer

open Foundation Utf8

variable {chrono : Chrono}

/-- The command that has been executed. -/
def Act.executed? : Act → Option Command
  | .call _ _ => none
  | .execute command _ _ => some command

/-- The commands that have been executed. -/
def executed (log : List Act) : List Command := log.filterMap Act.executed?

/-- The standard input tells the server to shut down. -/
def Stdin.ShutsDown (stdin : Stdin) (event : Event) : Prop :=
  event.isReadable ∧ ∃ input, stdin.readLine.1 = .ok input ∧
    Text.trim input = "shutdown".toList

/-- The handler of the standard input submits the close of the listener when it is told to
shut down, and nothing otherwise. -/
theorem handleStdinEvent_cases (event : Event) (stdin : Stdin) (listenerToken : Token) :
    (stdin.ShutsDown event ∧ ∃ stdin', handleStdinEvent event stdin listenerToken =
      .ok (.stdin stdin' listenerToken, [.emptyCommand (.closeSource listenerToken)])) ∨
    ¬stdin.ShutsDown event ∧ ((∃ stdin', handleStdinEvent event stdin listenerToken =
      .ok (.stdin stdin' listenerToken, [])) ∨
        ∃ error, handleStdinEvent event stdin listenerToken = .err error) := by
  unfold handleStdinEvent Stdin.ShutsDown
  split
  · next readable =>
      rcases stdin.readLine with ⟨error | input, left⟩
      · refine .inr ⟨?_, .inr ⟨_, rfl⟩⟩
        rintro ⟨-, input, ⟨⟩, -⟩
      · dsimp only
        split
        · next shutdown => exact .inl ⟨⟨readable, input, rfl, shutdown⟩, _, rfl⟩
        · next other =>
            refine .inr ⟨?_, .inl ⟨_, rfl⟩⟩
            rintro ⟨-, input, ⟨⟩, shutdown⟩
            exact other shutdown
  · next unreadable => exact .inr ⟨fun shuts => unreadable shuts.1, .inl ⟨_, rfl⟩⟩

/-- The server is told to shut down by one of the events. -/
def EventLoop.ShutsDown (loop : EventLoop) (events : List (Event × World chrono)) : Prop :=
  ∃ item ∈ events, ∃ stdin listenerToken,
    loop.eventSources.lookup item.1.token = some (.stdin stdin listenerToken) ∧
      stdin.ShutsDown item.1

/-- Every connection that a listener accepts is registered, and watched from then on. -/
def Admits (serverConfig : ServerConfig) (tokenCounter : Nat)
    (accepted : List (TcpStream × Instant)) (commands : List Command) : Prop :=
  ∀ index connection, accepted[index]? = some connection →
    [.respond (.newSource (tokenCounter + 1 + index)
        (.tcpStream (.opened serverConfig connection)) .readable),
      .checkStreamTimeout (tokenCounter + 1 + index)] <:+: commands

/-- The listener submits all that is needed. -/
theorem admits_admissions (serverConfig : ServerConfig) (tokenCounter : Nat)
    (accepted : List (TcpStream × Instant)) :
    Admits serverConfig tokenCounter accepted
      ((admissions serverConfig tokenCounter accepted).map HandleEventResponse.toCommand) := by
  induction accepted generalizing tokenCounter with
  | nil =>
      intro index connection found
      cases found
  | cons first accepted ih =>
      intro index connection found
      rw [admissions, List.map_cons, List.map_cons]
      cases index with
      | zero =>
          cases found
          exact ⟨[], _, rfl⟩
      | succ index =>
          rw [List.getElem?_cons_succ] at found
          have later := ih (tokenCounter + 1) index connection found
          rw [Nat.add_right_comm] at later
          exact (later.trans (List.suffix_cons _ _).isInfix).trans (List.suffix_cons _ _).isInfix

namespace EventLoop

variable {loop mid after : EventLoop}

/-- All commands in the queue are executed in their order. -/
theorem executed_executeCommands {io : Nat → CommandIo}
    {commands newCommands result : List Command}
    (ran : executeCommands io commands newCommands loop = (.ok result, after)) :
    ∃ acts, after.log = loop.log ++ acts ∧ executed acts = commands := by
  induction commands generalizing io newCommands loop with
  | nil =>
      cases ran
      exact ⟨[], (List.append_nil _).symm, rfl⟩
  | cons command commands ih =>
      rw [executeCommands, Stateful.modify_bind_apply] at ran
      obtain ⟨newCommand, between, began, ran⟩ := Stateful.bind_apply_eq_ok_iff.mp ran
      obtain ⟨closed, first⟩ := (executes_of_executeCommand began).log
      obtain ⟨acts, log, rest⟩ := ih ran
      refine ⟨.execute command (io 0).now closed :: acts, ?_, congrArg _ rest⟩
      rw [log, first, List.append_assoc]
      rfl

/-- A listener stays while the commands that name its token are checks of connections. -/
theorem listener_of_executeCommands {io : Nat → CommandIo}
    {commands newCommands result : List Command} {token tokenCounter : Nat}
    {listener : TcpListener} {serverConfig : ServerConfig}
    (found : loop.eventSources.lookup token =
      some (.tcpListener listener tokenCounter serverConfig))
    (checks : ∀ command ∈ commands, command.token = token →
      command = .checkStreamTimeout token)
    (ran : executeCommands io commands newCommands loop = (.ok result, after)) :
    after.eventSources.lookup token =
      some (.tcpListener listener tokenCounter serverConfig) := by
  induction commands generalizing io newCommands loop with
  | nil =>
      cases ran
      exact found
  | cons command commands ih =>
      rw [executeCommands, Stateful.modify_bind_apply] at ran
      obtain ⟨newCommand, between, began, ran⟩ := Stateful.bind_apply_eq_ok_iff.mp ran
      obtain ⟨first, checks⟩ := List.forall_mem_cons.mp checks
      refine ih ?_ checks ran
      obtain ⟨own, others⟩ := executeCommand_entry began
      by_cases named : command.token = token
      · obtain rfl := first named
        rw [Command.effect_checkStreamTimeout] at own
        · exact (congrArg Entry.source (congrArg Prod.fst own)).trans found
        · intro connection streaming
          cases found.symm.trans streaming
      · exact (congrArg Entry.source (others token (Ne.symm named))).trans found

/-- A token that has been given out, and whose source is gone, has no source to come. -/
theorem FreshTokens.not_present (fresh : loop.FreshTokens) {token : Token}
    (given : token ∈ arrived loop.log) (gone : loop.eventSources.lookup token = none)
    (source : EventSource) : ¬loop.Present token source := by
  rintro (live | ⟨interests, pending⟩)
  · cases gone.symm.trans live
  · exact fresh.not_arrived (mem_arrivals.mpr ⟨source, interests, pending⟩) given

/-- A source that is not there, and that nothing is to register, is not there later. -/
theorem absent_of_executeCommands {io : Nat → CommandIo} {commands result : List Command}
    (fresh : loop.FreshTokens) (queued : loop.commandQueue = commands) {token : Token}
    (absent : ∀ source, ¬loop.Present token source)
    (ran : executeCommands io commands [] loop = (.ok result, after)) :
    after.eventSources.lookup token = none := by
  obtain ⟨-, executions⟩ := moves_executeCommands queued ran
  rw [List.append_nil, ← queued] at executions
  have kept := invariant_of_steps
    (fun loop => loop.FreshTokens ∧ ∀ source, ¬loop.Present token source) executions
    (fun _ _ kept execution => ⟨kept.1.execution execution,
      fun source present => kept.2 source (execution.present kept.1 present)⟩) ⟨fresh, absent⟩
  cases found : after.eventSources.lookup token with
  | none => rfl
  | some source => exact absurd (.inl found) (kept.2 source)

/-- A source whose close is pending is gone when all commands have been executed. -/
theorem closed_of_executeCommands {io : Nat → CommandIo} {commands result : List Command}
    (fresh : loop.FreshTokens) (queued : loop.commandQueue = commands) {token : Token}
    (pending : .respond (.closeSource token) ∈ commands) (given : token ∈ arrived loop.log)
    (ran : executeCommands io commands [] loop = (.ok result, after)) :
    after.eventSources.lookup token = none := by
  obtain ⟨-, executions⟩ := moves_executeCommands queued ran
  rw [List.append_nil, ← queued] at executions
  rw [← queued] at pending
  have kept := invariant_of_steps
    (fun loop => loop.FreshTokens ∧ token ∈ arrived loop.log ∧
      (.respond (.closeSource token) ∈ loop.commandQueue ∨
        loop.eventSources.lookup token = none)) executions ?_ ⟨fresh, given, .inl pending⟩
  · refine kept.2.2.resolve_left fun member => ?_
    obtain ⟨_, same⟩ := checks_of_executeCommands (queued ▸ fresh.plain) (List.forall_mem_nil _)
      ran _ member
    cases same
  · rintro between next ⟨fresh, given, closing⟩ execution
    obtain ⟨command, rest, more, now, closed, -, -, log⟩ := execution.executes
    refine ⟨fresh.execution execution, ?_, ?_⟩
    · rw [log, arrived_append]
      exact List.mem_append_left _ given
    · rcases closing with pending | absent
      · exact execution.closing fresh pending
      · refine .inr ?_
        cases found : next.eventSources.lookup token with
        | none => rfl
        | some source =>
            exact absurd (execution.present fresh (.inl found))
              (fresh.not_present given absent source)

/-- What a handler submits is executed in the same turn, in one piece. -/
theorem submitted_infix_executed {events : List (Event × World chrono)}
    (distinct : Distinct events) {item : Event × World chrono} (member : item ∈ events)
    (handled : handleEvents events loop = (.ok (), mid)) {io : Nat → CommandIo}
    {newCommands result : List Command}
    (ran : executeCommands io mid.commandQueue newCommands mid = (.ok result, after)) :
    ∃ acts, after.log = loop.log ++ acts ∧ loop.submitted item <:+: executed acts := by
  obtain ⟨-, -, queue, log⟩ := entry_of_handleEvents distinct handled
  obtain ⟨acts, ranLog, all⟩ := executed_executeCommands ran
  refine ⟨events.flatMap (fun item => (loop.reaction item).elim [] Reaction.acts) ++ acts, ?_, ?_⟩
  · rw [ranLog, log, List.append_assoc]
  · have pending : loop.submitted item <:+: mid.commandQueue := by
      rw [queue]
      exact (infix_flatMap loop.submitted member).trans (List.suffix_append _ _).isInfix
    rw [executed, List.filterMap_append]
    refine .trans ?_ (List.suffix_append _ _).isInfix
    rw [show acts.filterMap Act.executed? = mid.commandQueue from all]
    exact pending

/-- What the listener makes of an event. -/
theorem reaction_listener {item : Event × World chrono} {reaction : Reaction}
    {listener : TcpListener} {tokenCounter : Nat} {serverConfig : ServerConfig}
    (found : loop.eventSources.lookup item.1.token =
      some (.tcpListener listener tokenCounter serverConfig))
    (reacts : loop.reaction item = some reaction) :
    (acceptError listener.accepts = none ∧
      (∃ listener', reaction.entry.source = some (.tcpListener listener'
        (tokenCounter + (accepted listener.accepts).length) serverConfig)) ∧
      reaction.commands = (admissions serverConfig tokenCounter
        (accepted listener.accepts)).map HandleEventResponse.toCommand) ∨
    (acceptError listener.accepts ≠ none ∧ reaction.entry.source = none ∧
      reaction.commands = []) := by
  unfold EventLoop.reaction Entry.react entry at reacts
  rw [found] at reacts
  dsimp only [EventSource.handleEvent] at reacts
  rcases handleListenerEvent_cases listener tokenCounter serverConfig with
    aborted | ⟨error, failed, returned⟩ | ⟨blocked, listener', returned⟩
  · rw [aborted] at reacts
    cases reacts
  · rw [returned] at reacts
    cases reacts
    refine .inr ⟨?_, rfl, rfl⟩
    rw [failed]
    exact Option.some_ne_none error
  · rw [returned] at reacts
    cases reacts
    exact .inl ⟨blocked, ⟨listener', rfl⟩, rfl⟩

/-- The standard input submits the close of the listener when it is told to, and nothing else. -/
theorem mem_submitted_stdin {item : Event × World chrono} {stdin : Stdin} {listenerToken : Token}
    (found : loop.eventSources.lookup item.1.token = some (.stdin stdin listenerToken))
    {command : Command} : command ∈ loop.submitted item ↔
      command = .respond (.closeSource listenerToken) ∧ stdin.ShutsDown item.1 := by
  unfold submitted EventLoop.reaction Entry.react entry
  rw [found]
  dsimp only [EventSource.handleEvent]
  rcases handleStdinEvent_cases item.1 stdin listenerToken with
    ⟨shuts, stdin', returned⟩ | ⟨other, ⟨stdin', returned⟩ | ⟨error, returned⟩⟩
  · rw [returned]
    exact List.mem_singleton.trans (and_iff_left shuts).symm
  · rw [returned]
    exact ⟨fun member => (List.not_mem_nil member).elim, fun both => absurd both.2 other⟩
  · rw [returned]
    exact ⟨fun member => (List.not_mem_nil member).elim, fun both => absurd both.2 other⟩

/-- The commands that name the listener while no handler tells it to close: checks, which
have no effect on it. -/
theorem checks_listener (fresh : loop.FreshTokens) (roles : loop.Roles) (settled : loop.Settled)
    {events : List (Event × World chrono)} {token tokenCounter : Nat} {listener : TcpListener}
    {serverConfig : ServerConfig} (found : loop.eventSources.lookup token =
      some (.tcpListener listener tokenCounter serverConfig))
    (open' : ¬loop.ShutsDown events) :
    ∀ command ∈ loop.commandQueue ++ events.flatMap loop.submitted,
      command.token = token → command = .checkStreamTimeout token := by
  have one := (roles token _ (.inl found)).1
  refine List.forall_mem_append.mpr
    ⟨fun command pending named => ?_, fun command member named => ?_⟩
  · rcases settled command pending with ⟨checked, rfl⟩ | ⟨arriving, source, interests, rfl⟩
    · exact congrArg _ named
    · obtain rfl : arriving = token := named
      have dead := fresh.not_live (mem_arrivals.mpr ⟨source, interests, pending⟩)
      cases dead.symm.trans found
  · obtain ⟨item, reported, member⟩ := List.mem_flatMap.mp member
    obtain ⟨source, there, submits⟩ := submits_of_mem_submitted member
    have role := roles _ source (.inl there)
    have issued := fresh.present_issued (.inl found)
    have given : ∀ {listener tokenCounter serverConfig},
        source = .tcpListener listener tokenCounter serverConfig → token ≤ tokenCounter := by
      rintro listener tokenCounter serverConfig rfl
      exact (fresh.counted _ _ _ (.inl there) rfl).2 token issued
    cases submits with
    | adjust adjusts =>
        have own : item.1.token = token := by cases adjusts <;> exact named
        exact absurd (own.trans one) (Nat.ne_of_gt role)
    | accept above => exact absurd (given rfl) (Nat.not_le_of_lt (named ▸ above))
    | watch above => exact absurd (given rfl) (Nat.not_le_of_lt (named ▸ above))
    | shutdown =>
        exact absurd ⟨item, reported, _, _, there, ((mem_submitted_stdin there).mp member).2⟩ open'

/-- After a turn that returns, the listener is there and all that it has accepted is registered
if and only if it has stopped because the accept would block, and is not to shut down. -/
theorem kept_iff (reachable : (eventLoopSystem chrono).Reachable loop) {turn : Turn chrono}
    (distinct : Distinct turn.batch) {item : Event × World chrono} (member : item ∈ turn.batch)
    {listener : TcpListener} {tokenCounter : Nat} {serverConfig : ServerConfig}
    (found : loop.eventSources.lookup item.1.token =
      some (.tcpListener listener tokenCounter serverConfig))
    (taken : loop.next turn = (.ok (), after)) :
    ((∃ listener', after.eventSources.lookup item.1.token =
        some (.tcpListener listener' (tokenCounter + (accepted listener.accepts).length)
          serverConfig)) ∧
      ∃ acts, after.log = loop.log ++ acts ∧
        Admits serverConfig tokenCounter (accepted listener.accepts) (executed acts)) ↔
    acceptError listener.accepts = none ∧ ¬loop.ShutsDown turn.batch := by
  have fresh := freshTokens_of_reachable reachable
  have roles := roles_of_reachable reachable
  have settled := settled_of_reachable reachable
  obtain ⟨events, handled, newCommands, executed, polled, began, ran, rfl⟩ := next_cases taken
  rw [show turn.batch = events by rw [Turn.batch, polled]] at distinct member ⊢
  have freshHandled := fresh.during (.handled polled began)
  obtain ⟨reported, -, queue, log⟩ := entry_of_handleEvents distinct began
  obtain ⟨reaction, reacts, entry⟩ := reported item member
  have given : item.1.token ∈ arrived handled.log := by
    rw [log, arrived_append]
    exact List.mem_append_left _ (fresh.live _ _ found)
  rcases reaction_listener found reacts with
    ⟨blocked, ⟨listener', listening⟩, commands⟩ | ⟨failed, gone, -⟩
  · rw [and_iff_right blocked]
    have there : handled.eventSources.lookup item.1.token = _ :=
      (congrArg Entry.source entry).trans listening
    constructor
    · rintro ⟨⟨listener'', remains⟩, -⟩ ⟨item', member', stdin, listenerToken, found', shuts⟩
      have same : listenerToken = item.1.token :=
        (roles _ _ (.inl found')).2.trans (roles _ _ (.inl found)).1.symm
      subst same
      have pending : .respond (.closeSource item.1.token) ∈ handled.commandQueue := by
        rw [queue]
        exact List.mem_append_right _ (List.mem_flatMap.mpr
          ⟨item', member', (mem_submitted_stdin found').mpr ⟨rfl, shuts⟩⟩)
      cases (closed_of_executeCommands freshHandled rfl pending given ran).symm.trans remains
    · intro open'
      have checks := checks_listener fresh roles settled found open'
      rw [← queue] at checks
      have remains := listener_of_executeCommands there checks ran
      refine ⟨⟨listener', remains⟩, ?_⟩
      obtain ⟨acts, log, submitted⟩ := submitted_infix_executed distinct member began ran
      refine ⟨acts, log, fun index connection accepted => ?_⟩
      rw [EventLoop.submitted, reacts] at submitted
      refine .trans ?_ submitted
      rw [show (some reaction).elim [] Reaction.commands = _ from commands]
      exact admits_admissions serverConfig tokenCounter _ index connection accepted
  · have absent := freshHandled.not_present given ((congrArg Entry.source entry).trans gone)
    refine ⟨?_, fun kept => absurd kept.1 failed⟩
    rintro ⟨⟨listener', there⟩, -⟩
    cases (absent_of_executeCommands freshHandled rfl absent ran).symm.trans there

end EventLoop

open EventLoop

/-- **A failing accept.** A turn in which the listener has an event returns with the listener
there with its counter, and all that it has accepted registered and then checked, if and
only if every event has a source, no handler panics, the calls on the registry succeed, and
the listener has stopped because the accept would block and is not to shut down. -/
theorem accepts_kept_iff {loop : EventLoop} (reachable : (eventLoopSystem chrono).Reachable loop)
    {turn : Turn chrono} (distinct : Distinct turn.batch) {item : Event × World chrono}
    (member : item ∈ turn.batch) {listener : TcpListener} {tokenCounter : Nat}
    {serverConfig : ServerConfig} (found : loop.eventSources.lookup item.1.token =
      some (.tcpListener listener tokenCounter serverConfig)) :
    (∃ after, loop.next turn = (.ok (), after) ∧
      (∃ listener', after.eventSources.lookup item.1.token =
        some (.tcpListener listener' (tokenCounter + (accepted listener.accepts).length)
          serverConfig)) ∧
      ∃ acts, after.log = loop.log ++ acts ∧
        Admits serverConfig tokenCounter (accepted listener.accepts) (executed acts)) ↔
    ((∀ item ∈ turn.batch, loop.HandlerReturns item) ∧ loop.RegistrySucceeds turn) ∧
      acceptError listener.accepts = none ∧ ¬loop.ShutsDown turn.batch := by
  obtain ⟨events, polled⟩ : ∃ events, turn.events = .ok events := by
    unfold Turn.batch at member
    split at member
    · next events polled => exact ⟨events, polled⟩
    · cases member
  have batch : turn.batch = events := by rw [Turn.batch, polled]
  have returns : (∃ after, loop.next turn = (.ok (), after)) ↔
      (∀ item ∈ turn.batch, loop.HandlerReturns item) ∧ loop.RegistrySucceeds turn := by
    rw [batch] at distinct ⊢
    exact exists_next_iff polled distinct
  rw [← returns]
  constructor
  · rintro ⟨after, taken, kept⟩
    exact ⟨⟨after, taken⟩, (kept_iff reachable distinct member found taken).mp kept⟩
  · rintro ⟨⟨after, taken⟩, blocked⟩
    exact ⟨after, taken, (kept_iff reachable distinct member found taken).mpr blocked⟩

/-- The listener accepts one connection. -/
theorem accepts_kept_iff_accepted :
    let stream : TcpStream := ⟨[], [], .ok "127.0.0.1:4000".toList⟩
    let start := selectMultiplex Site.serverConfig ⟨[.ok (stream, 7)]⟩ ⟨[]⟩
    let registered := (start.next (.at 6 ([] : List (Event × World gregorian)))).2
    ∃ after, registered.next (.at 8 [(⟨1, true, false⟩, Site.world)]) = (.ok (), after) ∧
      (∃ listener', after.eventSources.lookup 1 =
        some (.tcpListener listener' 2 Site.serverConfig)) ∧
      ∃ acts, after.log = registered.log ++ acts ∧
        Admits Site.serverConfig 1 [(stream, 7)] (executed acts) := by
  intro stream start registered
  have reachable : (eventLoopSystem gregorian).Reachable registered := by
    refine .step (.start ⟨_, _, _, rfl⟩) (Prod.ext ?_ rfl)
    decide +kernel
  have found : registered.eventSources.lookup 1 =
      some (.tcpListener ⟨[.ok (stream, 7)]⟩ 1 Site.serverConfig) := rfl
  have distinct : Distinct (Turn.at 8 [((⟨1, true, false⟩ : Event), Site.world)]).batch :=
    List.nodup_singleton _
  have handled : ∀ item ∈ [((⟨1, true, false⟩ : Event), Site.world)],
      registered.HandlerReturns item := by
    refine (exists_handleEvents_iff distinct).mp ⟨_, Prod.ext ?_ rfl⟩
    decide +kernel
  refine (accepts_kept_iff reachable distinct (List.mem_singleton_self _) found).mpr
    ⟨⟨handled, registrySucceeds_at _ _ _⟩, rfl, ?_⟩
  rintro ⟨item, member, stdin, listenerToken, found', -⟩
  cases List.mem_singleton.mp member
  cases found.symm.trans found'

/-- The listener accepts one connection, and fails to accept another. The listener is gone,
and the connection that it has accepted is not registered. -/
theorem accepts_lost :
    let stream : TcpStream := ⟨[], [], .ok "127.0.0.1:4000".toList⟩
    let aborted : IoError := ⟨.other, "Software caused connection abort"⟩
    let start := selectMultiplex Site.serverConfig ⟨[.ok (stream, 7), .error aborted]⟩ ⟨[]⟩
    let turn (events : List (Event × World gregorian)) := Turn.at 8 events
    let registered := (start.next (turn [])).2
    let after := (registered.next (turn [(⟨1, true, false⟩, Site.world)])).2
    (eventLoopSystem gregorian).Reachable registered ∧
      registered.next (turn [(⟨1, true, false⟩, Site.world)]) = (.ok (), after) ∧
      1 ∈ registered.eventSources ∧ 1 ∉ after.eventSources ∧ 2 ∉ after.eventSources ∧
      after.log.length = registered.log.length ∧ after.commandQueue.length = 0 := by
  intro stream aborted start turn registered after
  refine ⟨?_, Prod.ext ?_ rfl, ?_⟩
  · refine .step (.start ⟨_, _, _, rfl⟩) (Prod.ext ?_ rfl)
    decide +kernel
  · decide +kernel
  · decide +kernel

end RustHttpServer
