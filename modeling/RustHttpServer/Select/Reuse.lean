import RustHttpServer.Foundation.Lists
import RustHttpServer.Host.Site
import RustHttpServer.Select.Tokens

/-!
# Tokens are not used again

The states that the loop passes through during a turn (`EventLoop.During`) and the steps
between them (`EventLoop.Step`). While the listener is registered, its counter bounds all
tokens in use; a source is registered under a token that has never been used; and what a
command finds under the token it names is the source that the token was given out for
(`tokens_not_reused`).
-/

namespace RustHttpServer

open Foundation

variable {chrono : Chrono}

/-- What handling an event makes of a source. -/
def EventSource.Becomes (chrono : Chrono) (source after : EventSource) : Prop :=
  ∃ (event : Event) (world : World chrono) (token : Token) (responses : List HandleEventResponse)
    (calls : List Call), source.handleEvent event world token = (.ok (after, responses), calls)

/-- What handling events one after the other makes of a source. -/
def EventSource.Continues (chrono : Chrono) : EventSource → EventSource → Prop :=
  Relation.ReflTransGen (EventSource.Becomes chrono)

namespace EventLoop

/-- A step within the turns of the loop. -/
inductive Step (chrono : Chrono) (loop after : EventLoop) : Prop
  | handle {event : Event} {world : World chrono} :
      handleEvent event world loop = (.ok (), after) → Step chrono loop after
  | execute : Execution loop after → Step chrono loop after

/-- The states of the loop during a turn, with everything pending in the queue: the commands
that are still to be executed, and those that are to be submitted in the end. -/
inductive During (turn : Turn chrono) (loop : EventLoop) : EventLoop → Prop
  | handling {done rest : List (Event × World chrono)} {mid : EventLoop} :
      turn.events = .ok (done ++ rest) → handleEvents done loop = (.ok (), mid) →
      During turn loop mid
  | executing {events : List (Event × World chrono)} {done rest newCommands : List Command}
      {handled mid : EventLoop} :
      turn.events = .ok events → handleEvents events loop = (.ok (), handled) →
      handled.commandQueue = done ++ rest →
      executeCommands turn.commands done [] handled = (.ok newCommands, mid) →
      During turn loop { mid with commandQueue := rest ++ newCommands }

variable {loop mid after : EventLoop}

/-- Every step within a turn is a move. -/
theorem Step.moves (step : Step chrono loop after) : Moves loop after := by
  cases step with
  | handle handled => exact .of_handlings (moves_handleEvent handled)
  | execute execution => exact .single (.execution execution)

/-- Every step within a turn leaves the tokens fresh. -/
theorem FreshTokens.step (fresh : loop.FreshTokens) (step : Step chrono loop after) :
    after.FreshTokens :=
  invariant_of_steps FreshTokens step.moves (fun _ _ fresh => fresh.move) fresh

private theorem steps_handleEvents {events : List (Event × World chrono)}
    (handled : handleEvents events loop = (.ok (), after)) :
    Relation.ReflTransGen (Step chrono) loop after :=
  steps_of_handleEvents (fun began => .single (.handle began)) handled

/-- The loop comes to every state of a turn step by step. -/
theorem During.steps {turn : Turn chrono} (during : During turn loop mid) :
    Relation.ReflTransGen (Step chrono) loop mid := by
  cases during with
  | handling _ handled => exact steps_handleEvents handled
  | @executing events done rest newCommands handled mid _ began queued executed =>
      have executions := moves_executeCommands_before rest executed
      rw [List.append_nil, ← queued] at executions
      exact (steps_handleEvents began).trans
        (Relation.ReflTransGen.mono (fun _ _ => Step.execute) _ _ executions)

/-- The loop has handled all events. -/
theorem During.handled {turn : Turn chrono} {events : List (Event × World chrono)}
    (polled : turn.events = .ok events) (handled : handleEvents events loop = (.ok (), mid)) :
    During turn loop mid :=
  .handling (polled.trans (congrArg _ (List.append_nil events).symm)) handled

/-- The loop has executed all commands. -/
theorem During.of_next {turn : Turn chrono} (taken : loop.next turn = (.ok (), after)) :
    During turn loop after := by
  obtain ⟨events, handled, newCommands, executed, polled, began, ran, rfl⟩ := next_cases taken
  rw [executeCommands_commandQueue rfl ran]
  exact .executing polled began (List.append_nil _).symm ran

/-- At every moment of a turn the tokens are fresh. -/
theorem FreshTokens.during (fresh : loop.FreshTokens) {turn : Turn chrono}
    (during : During turn loop mid) : mid.FreshTokens :=
  invariant_of_steps FreshTokens during.steps (fun _ _ fresh => fresh.step) fresh

/-! ### The source behind a token -/

/-- One source at most goes with a token. -/
theorem FreshTokens.present_unique (fresh : loop.FreshTokens) {token : Token}
    {source other : EventSource} (present : loop.Present token source)
    (present' : loop.Present token other) : source = other := by
  have dead := fun {source : EventSource} {interests : Interest}
      (member : .respond (.newSource token source interests) ∈ loop.commandQueue) =>
    fresh.not_live (mem_arrivals.mpr ⟨source, interests, member⟩)
  rcases present with found | ⟨interests, member⟩
  · rcases present' with found' | ⟨interests, member⟩
    · exact Option.some.inj (found.symm.trans found')
    · rw [dead member] at found
      cases found
  · rcases present' with found | ⟨interests', member'⟩
    · rw [dead member] at found
      cases found
    · have distinct := (List.nodup_append.mp fresh.distinct).2.1
      have same : Command.respond (.newSource token source interests) =
          .respond (.newSource token other interests') :=
        eq_of_nodup_filterMap distinct member member' rfl rfl
      cases same
      rfl

/-- A source that goes with a token after a command has been executed went with it
before. -/
theorem Execution.present (execution : Execution loop after) (fresh : loop.FreshTokens)
    {token : Token} {source : EventSource} (present : after.Present token source) :
    loop.Present token source := by
  have pending : ∀ {command : Command} {rest : List Command}, loop.commandQueue = command :: rest →
      ∀ {interests}, .respond (.newSource token source interests) ∈ rest →
        loop.Present token source := fun queued _ member =>
    .inr ⟨_, queued ▸ List.mem_cons_of_mem _ member⟩
  cases execution with
  | register now queued => exact present.of_register queued rfl rfl
  | modify now queued _ => exact present.elim .inl fun ⟨_, member⟩ => pending queued member
  | close queued _ _ =>
      refine present.elim (fun found => .inl ?_) fun ⟨_, member⟩ => pending queued member
      exact (HashMap.of_lookup_erase found).2
  | skip now queued _ => exact present.elim .inl fun ⟨_, member⟩ => pending queued member
  | recheck queued _ _ _ =>
      refine present.elim .inl fun ⟨_, member⟩ => ?_
      rcases List.mem_append.mp member with member | last
      · exact pending queued member
      · cases List.mem_singleton.mp last
  | @resubmit command rest now queued =>
      exact absurd (queued ▸ List.mem_cons_self) (fresh.plain command)

/-- The first command in the queue is executed, and logged. -/
theorem Execution.executes (execution : Execution loop after) :
    ∃ command rest more now closed, loop.commandQueue = command :: rest ∧
      after.commandQueue = rest ++ more ∧
      after.log = loop.log ++ [.execute command now closed] := by
  cases execution with
  | register now queued => exact ⟨_, _, [], _, _, queued, (List.append_nil _).symm, rfl⟩
  | modify now queued _ => exact ⟨_, _, [], _, _, queued, (List.append_nil _).symm, rfl⟩
  | close queued _ _ => exact ⟨_, _, [], _, _, queued, (List.append_nil _).symm, rfl⟩
  | skip now queued _ => exact ⟨_, _, [], _, _, queued, (List.append_nil _).symm, rfl⟩
  | recheck queued _ _ _ => exact ⟨_, _, _, _, _, queued, rfl, rfl⟩
  | resubmit now queued => exact ⟨_, _, _, _, _, queued, rfl, rfl⟩

/-- A close that is pending stays pending until its source is gone. -/
theorem Execution.closing (execution : Execution loop after) (fresh : loop.FreshTokens)
    {token : Token} (pending : .respond (.closeSource token) ∈ loop.commandQueue) :
    .respond (.closeSource token) ∈ after.commandQueue ∨
      after.eventSources.lookup token = none := by
  have behind : ∀ {command : Command} {rest : List Command}, loop.commandQueue = command :: rest →
      command ≠ .respond (.closeSource token) → .respond (.closeSource token) ∈ rest := by
    intro command rest queued other
    rw [queued] at pending
    exact (List.mem_cons.mp pending).resolve_left (Ne.symm other)
  cases execution with
  | register now queued =>
      refine .inl (behind queued ?_)
      rintro ⟨⟩
  | modify now queued _ =>
      refine .inl (behind queued ?_)
      rintro ⟨⟩
  | @close closed source command rest now queued found closes =>
      by_cases same : closed = token
      · subst same
        exact .inr (Finmap.lookup_erase _ _)
      · refine .inl (behind queued ?_)
        rintro rfl
        cases closes
        exact same rfl
  | @skip command rest now queued skips =>
      by_cases same : command = .respond (.closeSource token)
      · subst same
        cases skips with
        | closeSource absent => exact .inr absent
      · exact .inl (behind queued same)
  | recheck queued _ _ _ =>
      refine .inl (List.mem_append_left _ (behind queued ?_))
      rintro ⟨⟩
  | resubmit now queued => exact absurd (queued ▸ List.mem_cons_self) (fresh.plain _)

/-- A source that goes with a token in use after an event has been handled is what handling
the event has made of the source that went with it before. -/
theorem present_of_handleEvent {event : Event} {world : World chrono}
    (handled : handleEvent event world loop = (.ok (), after)) (fresh : after.FreshTokens)
    {token : Token} (given : token ∈ loop.issued) {source : EventSource}
    (present : after.Present token source) :
    ∃ original, loop.Present token original ∧ original.Continues chrono source := by
  obtain ⟨before, found, ⟨newSource, responses, calls, returned, rfl⟩ |
    ⟨error, calls, -, rfl⟩⟩ := handleEvent_cases handled
  · rcases present with lookup | ⟨interests, member⟩
    · rcases HashMap.of_lookup_insert lookup with ⟨rfl, rfl⟩ | ⟨-, lookup⟩
      · exact ⟨before, .inl found, .single ⟨event, world, _, responses, calls, returned⟩⟩
      · exact ⟨source, .inl lookup, .refl⟩
    · rcases List.mem_append.mp member with pending | submitted
      · exact ⟨source, .inr ⟨interests, pending⟩, .refl⟩
      · have distinct := fresh.distinct
        rw [issued, arrived_append, arrived_calls, List.append_nil, arrivals_append,
          ← List.append_assoc] at distinct
        have disjoint := (List.nodup_append.mp distinct).2.2
        exact absurd rfl (disjoint token given token (mem_arrivals.mpr ⟨_, _, submitted⟩))
  · refine ⟨source, ?_, .refl⟩
    rcases present with lookup | ⟨interests, member⟩
    · rw [dropSource_eventSources] at lookup
      exact .inl (HashMap.of_lookup_erase lookup).2
    · rw [dropSource_commandQueue] at member
      exact .inr ⟨interests, member⟩

/-- Tokens that have been given out stay given out. -/
theorem Step.issued_subset (step : Step chrono loop after) : loop.issued ⊆ after.issued := by
  intro token given
  cases step with
  | handle handled =>
      obtain ⟨before, -, ⟨newSource, responses, calls, -, rfl⟩ | ⟨error, calls, -, rfl⟩⟩ :=
        handleEvent_cases handled
      · rw [issued, arrived_append, arrived_calls, List.append_nil, arrivals_append,
          ← List.append_assoc]
        exact List.mem_append_left _ given
      · rwa [issued, dropSource_log, dropSource_commandQueue, arrived_append, arrived_calls,
          List.append_nil]
  | execute execution =>
      obtain ⟨command, rest, more, now, closed, queued, queue, log⟩ := execution.executes
      rw [issued, log, queue, arrived_append, arrivals_append]
      rcases List.mem_append.mp given with there | arriving
      · exact List.mem_append_left _ (List.mem_append_left _ there)
      · rw [queued, arrivals, List.mem_filterMap] at arriving
        obtain ⟨arriving, member, arrival⟩ := arriving
        rcases List.mem_cons.mp member with rfl | member
        · exact List.mem_append_left _ (List.mem_append_right _
            (List.mem_filterMap.mpr ⟨_, List.mem_singleton_self _, arrival⟩))
        · exact List.mem_append_right _ (List.mem_append_left _
            (List.mem_filterMap.mpr ⟨_, member, arrival⟩))

/-- What goes with a token in use is the source that went with it at any time before, but for
the events that it has handled since. -/
theorem present_of_steps (steps : Relation.ReflTransGen (Step chrono) loop after)
    (fresh : loop.FreshTokens) {token : Token} (given : token ∈ loop.issued)
    {source : EventSource} (present : after.Present token source) :
    ∃ original, loop.Present token original ∧ original.Continues chrono source := by
  have kept := invariant_of_steps (fun after => after.FreshTokens ∧ token ∈ after.issued ∧
    ∀ source, after.Present token source →
      ∃ original, loop.Present token original ∧ original.Continues chrono source) steps ?_
    ⟨fresh, given, fun source present => ⟨source, present, .refl⟩⟩
  · exact kept.2.2 source present
  · rintro mid next ⟨fresh, given, traced⟩ step
    have freshNext := fresh.step step
    refine ⟨freshNext, step.issued_subset given, fun source present => ?_⟩
    cases step with
    | handle handled =>
        obtain ⟨between, there, continues⟩ :=
          present_of_handleEvent handled freshNext given present
        obtain ⟨original, present, before⟩ := traced between there
        exact ⟨original, present, before.trans continues⟩
    | execute execution => exact traced source (execution.present fresh present)

end EventLoop

open EventLoop

/-- **Tokens are not used again.** At any time during a turn: while the listener is registered
no token in use is above its counter; when the next command is to register a source, its
token is not that of a source, has not been before, and no other command is to register
one under it; and what is found under the token of a pending command, then or later, is the one
source that goes with the token now, but for the events that it has handled since. -/
theorem tokens_not_reused {loop mid : EventLoop}
    (reachable : (eventLoopSystem chrono).Reachable loop)
    {turn : Turn chrono} (during : During turn loop mid) :
    (∀ token listener tokenCounter serverConfig,
      mid.eventSources.lookup token = some (.tcpListener listener tokenCounter serverConfig) →
      (∀ key ∈ mid.eventSources, key ≤ tokenCounter) ∧
        ∀ command ∈ mid.commandQueue, command.token ≤ tokenCounter) ∧
    (∀ token source interests rest,
      mid.commandQueue = .respond (.newSource token source interests) :: rest →
      token ∉ mid.eventSources ∧ token ∉ arrived mid.log ∧ token ∉ arrivals rest) ∧
    ∀ command ∈ mid.commandQueue, ∀ later source,
      Relation.ReflTransGen (Step chrono) mid later →
      later.eventSources.lookup command.token = some source →
      ∃ original, mid.Present command.token original ∧ original.Continues chrono source ∧
        ∀ other, mid.Present command.token other → other = original := by
  have fresh := (freshTokens_of_reachable reachable).during during
  refine ⟨fun token listener tokenCounter serverConfig found => ?_, ?_, ?_⟩
  · have counted := (fresh.counted token _ tokenCounter (.inl found) rfl).2
    constructor
    · intro key member
      obtain ⟨source, there⟩ := Finmap.mem_iff.mp member
      exact counted key (List.mem_append_left _ (fresh.live key source there))
    · exact fun command member => counted _ (fresh.named command member)
  · intro token source interests rest queued
    have distinct := fresh.distinct
    rw [issued, queued] at distinct
    obtain ⟨_, arriving, disjoint⟩ := List.nodup_append.mp distinct
    refine ⟨fun member => ?_, fun there => ?_, (List.nodup_cons.mp arriving).1⟩
    · have dead := fresh.not_live
        (mem_arrivals.mpr ⟨source, interests, queued ▸ List.mem_cons_self⟩)
      rw [← Finmap.lookup_isSome, dead] at member
      cases member
    · exact disjoint token there token List.mem_cons_self rfl
  · intro command member later source steps found
    obtain ⟨original, present, continues⟩ :=
      present_of_steps steps fresh (fresh.named command member) (.inl found)
    exact ⟨original, present, continues, fun other => (fresh.present_unique · present)⟩

/-- A connection that is about to be registered gets a token that has not been used. -/
theorem tokens_not_reused_accepted :
    let stream : TcpStream := ⟨[], [], .ok "127.0.0.1:4000".toList⟩
    let connection : Connection := ⟨stream, .read (.none []), Site.host, 7⟩
    let turn (events : List Event) : Turn gregorian :=
      ⟨.ok (events.map fun event => (event, Site.world)), fun _ => ⟨8, .ok ()⟩⟩
    let start := selectMultiplex Site.serverConfig ⟨[.ok (stream, 7)]⟩ ⟨[]⟩
    let registered := (start.next (turn [])).2
    let mid := (handleEvents [(⟨1, true, false⟩, Site.world)] registered).2
    mid.commandQueue = [.respond (.newSource 2 (.tcpStream connection) .readable),
        .checkStreamTimeout 2] ∧
      2 ∉ mid.eventSources ∧ 2 ∉ arrived mid.log ∧ 2 ∉ arrivals [.checkStreamTimeout 2] := by
  intro stream connection turn start registered mid
  have reachable : (eventLoopSystem gregorian).Reachable registered := by
    refine .step (.start ⟨_, _, _, rfl⟩) (Prod.ext ?_ rfl)
    decide +kernel
  have during : During (turn [⟨1, true, false⟩]) registered mid := by
    refine @During.handling gregorian _ _ [(⟨1, true, false⟩, Site.world)] [] _ rfl
      (Prod.ext ?_ rfl)
    decide +kernel
  have queued : mid.commandQueue = [.respond (.newSource 2 (.tcpStream connection) .readable),
      .checkStreamTimeout 2] := rfl
  exact ⟨queued, (tokens_not_reused reachable during).2.1 2 _ _ _ queued⟩

end RustHttpServer
