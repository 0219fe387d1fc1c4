import RustHttpServer.Select.Alone

/-!
# Shutting down

The loop listens until it is told to shut down, or until an accept fails (`listening_iff`). From
then on no connection comes in any more, and those that are there are served as before
(`shutdown_graceful`).
-/

namespace RustHttpServer

open Foundation Utf8

variable {chrono : Chrono}

namespace EventLoop

variable {loop mid after : EventLoop}

/-- The listener is registered. -/
def Listens (loop : EventLoop) : Prop := ∃ listener tokenCounter serverConfig,
  loop.eventSources.lookup 1 = some (.tcpListener listener tokenCounter serverConfig)

/-- No event of a batch makes the loop give up its listener. -/
structure KeepsListening (loop : EventLoop) (events : List (Event × World chrono)) : Prop where
  undisturbed : ¬loop.ShutsDown events
  accepting : ∀ item ∈ events, ∀ listener tokenCounter serverConfig,
    loop.eventSources.lookup item.1.token =
      some (.tcpListener listener tokenCounter serverConfig) → acceptError listener.accepts = none

/-! ### The listener -/

/-- The listener is under its token only. -/
theorem Roles.listener (roles : loop.Roles) {token tokenCounter : Nat} {listener : TcpListener}
    {serverConfig : ServerConfig} (found : loop.eventSources.lookup token =
      some (.tcpListener listener tokenCounter serverConfig)) : token = 1 :=
  (roles token _ (.inl found)).1

/-- What is under the token of the listener is the listener. -/
theorem Roles.listens (roles : loop.Roles) {source : EventSource}
    (found : loop.eventSources.lookup 1 = some source) : loop.Listens := by
  have role := roles 1 source (.inl found)
  cases source with
  | tcpListener listener tokenCounter serverConfig => exact ⟨_, _, _, found⟩
  | tcpStream connection => exact absurd role (Nat.lt_irrefl 1)
  | stdin input listenerToken => exact absurd role.1 Nat.one_ne_zero

/-- What has been registered and is gone is not registered again. -/
theorem gone_of_steps {token : Token} (steps : Relation.ReflTransGen (Step chrono) loop after)
    (fresh : loop.FreshTokens) (given : token ∈ arrived loop.log)
    (gone : loop.eventSources.lookup token = none) : after.eventSources.lookup token = none := by
  cases found : after.eventSources.lookup token with
  | none => rfl
  | some source =>
      obtain ⟨original, present, -⟩ :=
        present_of_steps steps fresh (List.mem_append_left _ given) (.inl found)
      exact absurd present (fresh.not_present given gone original)

/-- The commands that name the listener close it if and only if the loop is told to shut down. -/
theorem listens_of_executeCommands (fresh : loop.FreshTokens) (roles : loop.Roles)
    (settled : loop.Settled) (listens : loop.Listens) {events : List (Event × World chrono)}
    (freshMid : mid.FreshTokens) (given : 1 ∈ arrived mid.log) (listening : mid.Listens)
    (queue : mid.commandQueue = loop.commandQueue ++ events.flatMap loop.submitted)
    {io : Nat → CommandIo} {result : List Command}
    (ran : executeCommands io mid.commandQueue [] mid = (.ok result, after)) :
    after.Listens ↔ ¬loop.ShutsDown events := by
  obtain ⟨listener, tokenCounter, serverConfig, found⟩ := listens
  constructor
  · rintro ⟨listener', tokenCounter', serverConfig', remains⟩
      ⟨item, member, stdin, listenerToken, found', shuts⟩
    obtain rfl : listenerToken = 1 := (roles _ _ (.inl found')).2
    have pending : .respond (.closeSource 1) ∈ mid.commandQueue := by
      rw [queue]
      exact List.mem_append_right _ (List.mem_flatMap.mpr
        ⟨item, member, (mem_submitted_stdin found').mpr ⟨rfl, shuts⟩⟩)
    have gone := closed_of_executeCommands freshMid rfl pending given ran
    cases gone.symm.trans remains
  · intro undisturbed
    obtain ⟨listener', tokenCounter', serverConfig', there⟩ := listening
    have checks := checks_listener fresh roles settled found undisturbed
    rw [← queue] at checks
    exact ⟨_, _, _, listener_of_executeCommands there checks ran⟩

/-- A turn keeps the listener if and only if no event makes the loop give it up. -/
theorem listens_of_next (fresh : loop.FreshTokens) (roles : loop.Roles) (settled : loop.Settled)
    (listens : loop.Listens) {turn : Turn chrono} (distinct : Distinct turn.batch)
    (taken : loop.next turn = (.ok (), after)) :
    after.Listens ↔ loop.KeepsListening turn.batch := by
  obtain ⟨events, handled, newCommands, executed, polled, began, ran, rfl⟩ := next_cases taken
  rw [show turn.batch = events by rw [Turn.batch, polled]] at distinct ⊢
  have freshHandled := fresh.during (.handled polled began)
  obtain ⟨listener, tokenCounter, serverConfig, found⟩ := id listens
  have given := arrived_of_handleEvents began (fresh.live 1 _ found)
  obtain ⟨reported, unreported, queue, -⟩ := entry_of_handleEvents distinct began
  have commands : handled.Listens → (executed.Listens ↔ ¬loop.ShutsDown events) := fun listening =>
    listens_of_executeCommands fresh roles settled listens freshHandled given listening queue ran
  by_cases accepts : ∃ item ∈ events, item.1.token = 1
  · obtain ⟨item, member, own⟩ := accepts
    obtain ⟨reaction, reacts, entry⟩ := reported item member
    have source := congrArg Entry.source entry
    rw [← own] at found
    rcases reaction_listener found reacts with
      ⟨blocked, ⟨listener', listening⟩, -⟩ | ⟨failed, gone, -⟩
    · have there : handled.Listens := by
        rw [Listens, ← own]
        exact ⟨_, _, _, source.trans listening⟩
      refine (commands there).trans ⟨fun undisturbed => ⟨undisturbed, ?_⟩,
        KeepsListening.undisturbed⟩
      intro other member' listener'' tokenCounter' serverConfig' found'
      have same := (roles.listener found').trans own.symm
      rw [same, found] at found'
      cases found'
      exact blocked
    · have absent : executed.eventSources.lookup 1 = none := by
        refine absent_of_executeCommands freshHandled rfl (freshHandled.not_present given ?_) ran
        rw [← own]
        exact source.trans gone
      refine iff_of_false ?_ fun keeps => failed (keeps.accepting item member _ _ _ found)
      rintro ⟨_, _, _, there⟩
      cases absent.symm.trans there
  · have there : handled.Listens := by
      refine ⟨listener, tokenCounter, serverConfig, ?_⟩
      rw [← found]
      exact congrArg Entry.source
        (unreported 1 fun item member own => accepts ⟨item, member, own⟩)
    refine (commands there).trans ⟨fun undisturbed => ⟨undisturbed, ?_⟩,
      KeepsListening.undisturbed⟩
    intro item member _ _ _ found'
    exact absurd ⟨item, member, roles.listener found'⟩ accepts

/-- The first turn finds no event, as nothing is registered. -/
theorem batch_of_start {serverConfig : ServerConfig} {listener : TcpListener} {stdin : Stdin}
    {events : List (Event × World chrono)} (handled : handleEvents events
      (selectMultiplex serverConfig listener stdin) = (.ok (), after)) : events = [] := by
  cases events with
  | nil => rfl
  | cons first events =>
      obtain ⟨⟨⟩, between, began, -⟩ := Stateful.bind_apply_eq_ok_iff.mp handled
      obtain ⟨source, found, -⟩ := handleEvent_cases began
      cases found

/-- The first turn registers the listener. -/
theorem listens_of_start {serverConfig : ServerConfig} {listener : TcpListener} {stdin : Stdin}
    {turn : Turn chrono}
    (taken : (selectMultiplex serverConfig listener stdin).next turn = (.ok (), after)) :
    after.Listens ∧ turn.batch = [] := by
  obtain ⟨events, handled, newCommands, executed, polled, began, ran, rfl⟩ := next_cases taken
  obtain rfl := batch_of_start began
  refine ⟨⟨listener, 1, serverConfig, ?_⟩, by rw [Turn.batch, polled]⟩
  cases began
  rw [selectMultiplex, executeCommands, Stateful.modify_bind_apply] at ran
  obtain ⟨newCommand, between, registered, ran⟩ := Stateful.bind_apply_eq_ok_iff.mp ran
  rw [executeCommands, Stateful.modify_bind_apply] at ran
  obtain ⟨newCommand', between', registered', ran⟩ := Stateful.bind_apply_eq_ok_iff.mp ran
  cases ran
  have own := (executeCommand_entry registered).1
  have kept := (executeCommand_entry registered').2 1 Nat.one_ne_zero
  exact (congrArg Entry.source kept).trans (congrArg (fun entry => entry.1.source) own)

/-- The listener has been registered, but for the start. -/
theorem registered_of_reachable (reachable : (eventLoopSystem chrono).Reachable loop) :
    (eventLoopSystem chrono).initial loop ∨ 1 ∈ arrived loop.log := by
  refine (reachable.invariant (fun loop => loop.FreshTokens ∧
    ((eventLoopSystem chrono).initial loop ∨ 1 ∈ arrived loop.log)) ?_ ?_).2
  · exact fun loop initial => ⟨freshTokens_of_reachable (.start initial), .inl initial⟩
  · rintro loop turn after ⟨fresh, before⟩ taken
    have freshAfter := fresh.during (.of_next taken)
    refine ⟨freshAfter, .inr ?_⟩
    rcases before with ⟨serverConfig, listener, stdin, rfl⟩ | given
    · obtain ⟨⟨_, _, _, found⟩, -⟩ := listens_of_start taken
      exact freshAfter.live 1 _ found
    · exact arrived_of_next taken given

/-! ### Without a listener -/

/-- Nothing is registered any more, and nothing will be. -/
structure Shut (tokens : List Token) (before loop : EventLoop) : Prop where
  gone : loop.eventSources.lookup 1 = none
  arrivals : arrivals loop.commandQueue = []
  arrived : arrived loop.log = tokens
  fewer : ∀ token ∈ loop.eventSources, token ∈ before.eventSources

/-- Handling an event registers nothing any more. -/
theorem Shut.handle {tokens : List Token} {before : EventLoop} (shut : Shut tokens before loop)
    (fresh : loop.FreshTokens) (roles : loop.Roles) {event : Event} {world : World chrono}
    (handled : handleEvent event world loop = (.ok (), after)) : Shut tokens before after := by
  obtain ⟨others, source, commands, found, queue, submits⟩ :=
    handleEvent_apart fresh roles handled
  obtain ⟨calls, log⟩ := exists_calls_of_handleEvent handled
  have different : event.token ≠ 1 := by
    intro own
    rw [own] at found
    cases shut.gone.symm.trans found
  have same : ∀ token, token ≠ event.token →
      after.eventSources.lookup token = loop.eventSources.lookup token := fun token other =>
    congrArg Entry.source (others token other)
  constructor
  · rw [same 1 (Ne.symm different), shut.gone]
  · rw [queue, arrivals_append, shut.arrivals, List.nil_append]
    refine arrivals_eq_nil fun command member => ?_
    cases (submits command member).1 with
    | adjust adjusts => exact adjusts.arrival?_eq
    | accept above => exact absurd (roles.listener found) different
    | watch above => rfl
    | shutdown => rfl
  · rw [log, arrived_append, arrived_calls, List.append_nil, shut.arrived]
  · intro token member
    by_cases own : token = event.token
    · subst own
      exact shut.fewer _ (Finmap.mem_of_lookup_eq_some found)
    · rw [← Finmap.lookup_isSome, same token own, Finmap.lookup_isSome] at member
      exact shut.fewer token member

/-- Executing a command registers nothing any more. -/
theorem Shut.execute {tokens : List Token} {before : EventLoop} (shut : Shut tokens before loop)
    (fresh : loop.FreshTokens) (execution : Execution loop after) : Shut tokens before after := by
  have kept : ∀ token source, after.eventSources.lookup token = some source →
      loop.eventSources.lookup token = some source := by
    intro token source found
    rcases execution.present fresh (.inl found) with there | ⟨interests, pending⟩
    · exact there
    · have arriving := mem_arrivals.mpr ⟨source, interests, pending⟩
      rw [shut.arrivals] at arriving
      cases arriving
  have silent : ∀ {command : Command} {rest : List Command}, loop.commandQueue = command :: rest →
      command.arrival? = none ∧ RustHttpServer.arrivals rest = [] := by
    intro command rest queued
    have none := shut.arrivals
    rw [queued] at none
    cases arrival : command.arrival? with
    | none =>
        rw [arrivals_cons arrival] at none
        exact ⟨rfl, none⟩
    | some token =>
        rw [RustHttpServer.arrivals, List.filterMap_cons_some arrival] at none
        cases none
  constructor
  · cases found : after.eventSources.lookup 1 with
    | none => rfl
    | some source => cases shut.gone.symm.trans (kept 1 source found)
  · cases execution with
    | register now queued => exact (silent queued).2
    | modify now queued _ => exact (silent queued).2
    | close queued _ _ => exact (silent queued).2
    | skip now queued _ => exact (silent queued).2
    | recheck queued _ _ _ =>
        rw [arrivals_append, (silent queued).2]
        rfl
    | resubmit now queued => exact absurd (queued ▸ List.mem_cons_self) (fresh.plain _)
  · obtain ⟨command, rest, more, now, closed, queued, -, log⟩ := execution.executes
    rw [log, arrived_execute (silent queued).1, shut.arrived]
  · intro token member
    obtain ⟨source, found⟩ := Finmap.mem_iff.mp member
    exact shut.fewer token (Finmap.mem_of_lookup_eq_some (kept token source found))

/-- A loop without a listener stays so. -/
theorem Shut.steps {tokens : List Token} {before : EventLoop} (shut : Shut tokens before loop)
    (fresh : loop.FreshTokens) (roles : loop.Roles)
    (steps : Relation.ReflTransGen (Step chrono) loop after) : Shut tokens before after := by
  refine (invariant_of_steps (fun loop => loop.FreshTokens ∧ loop.Roles ∧ Shut tokens before loop)
    steps ?_ ⟨fresh, roles, shut⟩).2.2
  rintro loop after ⟨fresh, roles, shut⟩ step
  refine ⟨fresh.step step, roles.step fresh step, ?_⟩
  cases step with
  | handle handled => exact shut.handle fresh roles handled
  | execute execution => exact shut.execute fresh execution

/-- The turn in which the loop is told to shut down. -/
theorem shut_of_next (fresh : loop.FreshTokens) (roles : loop.Roles) {turn : Turn chrono}
    (distinct : Distinct turn.batch) (shuts : loop.ShutsDown turn.batch)
    (registered : 1 ∈ arrived loop.log) (taken : loop.next turn = (.ok (), after)) :
    Shut (arrived after.log) after after := by
  obtain ⟨events, handled, newCommands, executed, polled, began, ran, rfl⟩ := next_cases taken
  rw [show turn.batch = events by rw [Turn.batch, polled]] at distinct shuts
  have freshHandled := fresh.during (.handled polled began)
  obtain ⟨-, -, queue, -⟩ := entry_of_handleEvents distinct began
  obtain ⟨item, member, stdin, listenerToken, found, told⟩ := shuts
  obtain rfl : listenerToken = 1 := (roles _ _ (.inl found)).2
  have pending : .respond (.closeSource 1) ∈ handled.commandQueue := by
    rw [queue]
    exact List.mem_append_right _ (List.mem_flatMap.mpr
      ⟨item, member, (mem_submitted_stdin found).mpr ⟨rfl, told⟩⟩)
  have gone := closed_of_executeCommands freshHandled rfl pending
    (arrived_of_handleEvents began registered) ran
  refine ⟨gone, ?_, rfl, fun _ member => member⟩
  rw [executeCommands_commandQueue rfl ran, List.nil_append]
  refine arrivals_eq_nil fun command member => ?_
  obtain ⟨token, rfl⟩ :=
    checks_of_executeCommands freshHandled.plain (List.forall_mem_nil _) ran command member
  rfl

end EventLoop

open EventLoop

/-- **The loop listens until it is told not to.** Once a turn has been taken, the listener is
there if and only if no turn has found the input that shuts the server down, or a connection that
could not be accepted. -/
theorem listening_iff {steps : List (EventLoop × Turn chrono)} {loop : EventLoop}
    (run : (distinctSystem chrono).Run steps loop) (begun : steps ≠ []) :
    loop.Listens ↔ ∀ step ∈ steps, step.1.KeepsListening step.2.batch := by
  have traced := run.invariant (fun steps loop => (eventLoopSystem chrono).Reachable loop ∧
    (steps = [] ∧ (eventLoopSystem chrono).initial loop ∨ 1 ∈ arrived loop.log ∧
      (loop.Listens ↔ ∀ step ∈ steps, step.1.KeepsListening step.2.batch))) ?_ ?_
  · exact (traced.2.resolve_left fun start => begun start.1).2
  · exact fun loop initial => ⟨.start initial, .inl ⟨rfl, initial⟩⟩
  · rintro steps loop turn after - ⟨reachable, before⟩ ⟨distinct, taken⟩
    have fresh := freshTokens_of_reachable reachable
    refine ⟨reachable.step taken, .inr ?_⟩
    rcases before with ⟨rfl, serverConfig, listener, stdin, rfl⟩ | ⟨given, listening⟩
    · obtain ⟨listens, none⟩ := listens_of_start taken
      obtain ⟨listener', tokenCounter, serverConfig', found⟩ := id listens
      refine ⟨(fresh.during (.of_next taken)).live 1 _ found, iff_of_true listens ?_⟩
      intro step member
      obtain rfl := List.mem_singleton.mp member
      rw [none]
      exact ⟨fun ⟨_, member, _⟩ => List.not_mem_nil member, List.forall_mem_nil _⟩
    · refine ⟨arrived_of_next taken given, ?_⟩
      rw [List.forall_mem_append, List.forall_mem_singleton, ← listening]
      by_cases listens : loop.Listens
      · rw [and_iff_right listens]
        exact listens_of_next fresh (roles_of_reachable reachable)
          (settled_of_reachable reachable) listens distinct taken
      · refine iff_of_false ?_ fun both => listens both.1
        rintro ⟨listener, tokenCounter, serverConfig, found⟩
        cases there : loop.eventSources.lookup 1 with
        | none =>
            have gone := gone_of_steps (During.of_next taken).steps fresh given there
            cases gone.symm.trans found
        | some source => exact listens ((roles_of_reachable reachable).listens there)

private theorem Site.shutsDown (event : Event) (readable : event.isReadable = true) :
    Stdin.ShutsDown ⟨[.ok (encode "shutdown\n".toList)]⟩ event := by
  refine ⟨readable, "shutdown\n".toList, ?_, by decide⟩
  rw [Stdin.readLine]
  change (decode (encode _)).mapError _ = _
  rw [decode_encode]
  rfl

/-- The loop is told to shut down. -/
theorem listening_iff_shutdown :
    let turn (events : List Event) : Turn gregorian :=
      ⟨.ok (events.map fun event => (event, Site.world)), fun _ => ⟨8, .ok ()⟩⟩
    let start := selectMultiplex Site.serverConfig ⟨[]⟩ ⟨[.ok (encode "shutdown\n".toList)]⟩
    let registered := (start.next (turn [])).2
    let after := (registered.next (turn [⟨0, true, false⟩])).2
    ¬after.Listens := by
  intro turn start registered after listens
  have run : (distinctSystem gregorian).Run
      [(start, turn []), (registered, turn [⟨0, true, false⟩])] after := by
    refine @TransitionSystem.Run.step _ _ _ [_] _ _ _
      (@TransitionSystem.Run.step _ _ _ [] _ _ _ (.start ⟨_, _, _, rfl⟩) ⟨?_, Prod.ext ?_ rfl⟩)
      ⟨?_, Prod.ext ?_ rfl⟩
    · exact List.nodup_nil
    · decide +kernel
    · exact List.nodup_singleton _
    · decide +kernel
  have keeps := (listening_iff run (List.cons_ne_nil _ _)).mp listens _
    (List.mem_cons_of_mem _ (List.mem_singleton_self _))
  apply keeps.undisturbed
  exact ⟨_, List.mem_singleton_self _, _, 1, rfl, Site.shutsDown _ rfl⟩

/-- **Shutting down is graceful.** After a turn in which the loop has been told to shut down, in
any run from there, no source is registered any more, what is there has been there then, with the
listener gone; and each connection that is there goes on as its events would have it. -/
theorem shutdown_graceful {loop mid after : EventLoop}
    (reachable : (eventLoopSystem chrono).Reachable loop) {turn : Turn chrono}
    (distinct : Distinct turn.batch) (shuts : loop.ShutsDown turn.batch)
    (taken : loop.next turn = (.ok (), mid)) {steps : List (EventLoop × Turn chrono)}
    (run : ((distinctSystem chrono).onward mid).Run steps after) :
    1 ∉ after.eventSources ∧ arrived after.log = arrived mid.log ∧
      (∀ token ∈ after.eventSources, token ∈ mid.eventSources) ∧
      ∀ token connection, mid.eventSources.lookup token = some (.tcpStream connection) →
        Delivers token connection (eventsOf token steps) (callsOf token mid.log) after := by
  have fresh := freshTokens_of_reachable reachable
  have registered : 1 ∈ arrived loop.log := by
    refine (registered_of_reachable reachable).resolve_left ?_
    rintro ⟨serverConfig, listener, stdin, rfl⟩
    obtain ⟨item, member, stdin, listenerToken, found, -⟩ := shuts
    cases found
  have before := shut_of_next fresh (roles_of_reachable reachable) distinct shuts registered taken
  have shut := run.invariant (fun _ after => (eventLoopSystem chrono).Reachable after ∧
    Shut (arrived mid.log) mid after) ?_ ?_
  · obtain ⟨-, gone, -, arrived, fewer⟩ := shut
    refine ⟨?_, arrived, fewer, fun token connection found =>
      delivers_of_run (reachable.step taken) found run⟩
    rw [← Finmap.lookup_isSome, gone]
    exact Bool.false_ne_true
  · rintro first rfl
    exact ⟨reachable.step taken, before⟩
  · rintro steps first turn next - ⟨reachable, shut⟩ ⟨-, taken⟩
    exact ⟨reachable.step taken, shut.steps (freshTokens_of_reachable reachable)
      (roles_of_reachable reachable) (During.of_next taken).steps⟩

/-- The loop is told to shut down while a page is requested. -/
theorem shutdown_graceful_visitor :
    let turn (events : List Event) : Turn gregorian :=
      ⟨.ok (events.map fun event => (event, Site.world)), fun _ => ⟨8, .ok ()⟩⟩
    let stream : TcpStream :=
      ⟨[.ok (encode "GET / HTTP/1.1\r\n".toList)], [], .ok "127.0.0.1:4000".toList⟩
    let connection : Connection := .opened Site.serverConfig (stream, 7)
    let start := selectMultiplex Site.serverConfig ⟨[.ok (stream, 7)]⟩
      ⟨[.ok (encode "shutdown\n".toList)]⟩
    let registered := (start.next (turn [])).2
    let accepted := (registered.next (turn [⟨1, true, false⟩])).2
    let shut := (accepted.next (turn [⟨0, true, false⟩])).2
    let after := (shut.next (turn [⟨2, true, false⟩])).2
    1 ∉ after.eventSources ∧
      Delivers 2 connection [(⟨2, true, false⟩, Site.world)] (callsOf 2 shut.log) after := by
  intro turn stream connection start registered accepted shut after
  have reachable : (eventLoopSystem gregorian).Reachable accepted := by
    refine .step (@TransitionSystem.Reachable.step _ _ _ start registered (turn [])
      (.start ⟨_, _, _, rfl⟩) (Prod.ext ?_ rfl)) (Prod.ext ?_ rfl)
    · decide +kernel
    · decide +kernel
  have distinct : Distinct (turn [⟨0, true, false⟩]).batch := List.nodup_singleton _
  have shuts : accepted.ShutsDown (turn [⟨0, true, false⟩]).batch :=
    ⟨_, List.mem_singleton_self _, _, 1, rfl, Site.shutsDown _ rfl⟩
  have taken : accepted.next (turn [⟨0, true, false⟩]) = (.ok (), shut) := by
    refine Prod.ext ?_ rfl
    decide +kernel
  have run : ((distinctSystem gregorian).onward shut).Run
      [(shut, turn [⟨2, true, false⟩])] after := by
    refine @TransitionSystem.Run.step _ _ _ [] _ _ _ (.start rfl) ⟨?_, Prod.ext ?_ rfl⟩
    · exact List.nodup_singleton _
    · decide +kernel
  have found : shut.eventSources.lookup 2 = some (.tcpStream connection) := by
    with_unfolding_all rfl
  obtain ⟨gone, -, -, served⟩ := shutdown_graceful reachable distinct shuts taken run
  exact ⟨gone, served 2 connection found⟩

end RustHttpServer
