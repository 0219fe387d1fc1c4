import RustHttpServer.Select.Tokens

/-!
# The entry of a token

What the loop has under a token is a source and its registration with the poll
(`Entry`). Handling an event and executing a command each depend on and change the entry
of one token: that of the event (`Entry.react`), and that which the command names
(`Command.effect`). So a turn is a turn for each token on its own
(`entry_of_handleEvents`, `entry_of_executeCommands`).
-/

namespace RustHttpServer

open Foundation

variable {chrono : Chrono}

/-- What the loop has under a token. -/
structure Entry where
  source : Option EventSource
  interests : Option Interest

/-- What the handler of a source makes of an event. -/
structure Reaction where
  entry : Entry
  commands : List Command
  acts : List Act

/-- What is left of an entry when its source is dropped. -/
def Entry.drop (entry : Entry) : EventSource → Entry
  | .stdin _ _ => ⟨none, entry.interests⟩
  | _ => ⟨none, none⟩

/-- What the handler of an entry makes of an event, if there is one and it does not
abort. -/
def Entry.react (entry : Entry) (event : Event) (world : World chrono) : Option Reaction :=
  match entry.source with
  | none => none
  | some source =>
      match source.handleEvent event world event.token with
      | (.ok (newSource, responses), calls) => some {
          entry := { entry with source := some newSource }
          commands := responses.map HandleEventResponse.toCommand
          acts := calls.map (.call event.token) }
      | (.err _, calls) => some {
          entry := entry.drop source
          commands := []
          acts := calls.map (.call event.token) }
      | (.abort, _) => none

/-- The sources of a loop that has nothing but an entry under a token. -/
def Entry.sources (entry : Entry) (token : Token) : HashMap Token EventSource :=
  match entry.source with
  | some source => Finmap.singleton token source
  | none => ∅

/-- What a command makes of the entry of the token it names, and the command that it
submits. -/
def Command.effect (command : Command) (now : Instant) (entry : Entry) : Entry × Option Command :=
  match command.call (entry.sources command.token) now with
  | .ok (some (.newSource _ source interests)) => (⟨some source, some interests⟩, none)
  | .ok (some (.modifyInterests _ interests)) =>
      (if entry.source.isSome then { entry with interests := some interests } else entry, none)
  | .ok (some (.closeSource _)) => (if entry.source.isSome then ⟨none, none⟩ else entry, none)
  | .ok (some (.submitCommand new)) => (entry, some new)
  | .ok none => (entry, none)
  | .error _ => (entry, none)

/-- Under its token is the source of the entry. -/
@[simp] theorem Entry.lookup_sources (entry : Entry) (token : Token) :
    (entry.sources token).lookup token = entry.source := by
  unfold sources
  split
  · next found => rw [Finmap.lookup_singleton_eq, found]
  · next absent => rw [Finmap.lookup_empty, absent]

namespace Command

/-- A command looks at one token only. -/
theorem call_eq_of_lookup_eq (command : Command) {eventSources others : HashMap Token EventSource}
    (same : eventSources.lookup command.token = others.lookup command.token) (now : Instant) :
    command.call eventSources now = command.call others now := by
  cases command with
  | respond response => rfl
  | checkStreamTimeout token =>
      change eventSources.lookup token = others.lookup token at same
      rw [call, call, RustHttpServer.checkStreamTimeout, RustHttpServer.checkStreamTimeout, same]

/-- A command is made to act on the token that it names. -/
theorem token_of_call {command : Command} {eventSources : HashMap Token EventSource}
    {now : Instant} {response : CommandResponse}
    (returned : command.call eventSources now = .ok (some response)) :
    response.token = command.token := by
  cases command with
  | respond made =>
      cases returned
      rfl
  | checkStreamTimeout token =>
      unfold call at returned
      rcases EventLoop.checkStreamTimeout_cases token eventSources now with
        ⟨_, _, _, ⟨_, same⟩ | ⟨_, same⟩⟩ | ⟨_, same⟩
      · cases returned.symm.trans same
        rfl
      · cases returned.symm.trans same
        rfl
      · cases returned.symm.trans same

/-- What a command submits is what its call returns to be submitted. -/
theorem call_of_effect {command new : Command} {now : Instant} {entry : Entry}
    (submits : (command.effect now entry).2 = some new) :
    command.call (entry.sources command.token) now = .ok (some (.submitCommand new)) := by
  unfold effect at submits
  split at submits
  · cases submits
  · cases submits
  · cases submits
  · next returned =>
      cases submits
      exact returned
  · cases submits
  · cases submits

/-- What a command submits names the same token. -/
theorem token_of_effect {command new : Command} {now : Instant} {entry : Entry}
    (submits : (command.effect now entry).2 = some new) : new.token = command.token :=
  token_of_call (call_of_effect submits)

/-- Checking what is not a connection has no effect. -/
theorem effect_checkStreamTimeout {token : Token} {entry : Entry} (now : Instant)
    (other : ∀ connection, entry.source ≠ some (.tcpStream connection)) :
    (checkStreamTimeout token).effect now entry = (entry, none) := by
  have idle : (checkStreamTimeout token).call
      (entry.sources (checkStreamTimeout token).token) now = .ok none := by
    change RustHttpServer.checkStreamTimeout token (entry.sources token) now = .ok none
    rw [RustHttpServer.checkStreamTimeout, Entry.lookup_sources]
    split
    · next found => exact absurd found (other _)
    · rfl
  rw [effect, idle]

/-- What a command submits is the next check of a connection, or what it was made to submit. -/
theorem check_of_effect {command new : Command} {now : Instant} {entry : Entry}
    (submits : (command.effect now entry).2 = some new) :
    new = .checkStreamTimeout command.token ∨ command = .respond (.submitCommand new) := by
  have returned := call_of_effect submits
  cases command with
  | respond response =>
      cases returned
      exact .inr rfl
  | checkStreamTimeout token =>
      unfold call at returned
      rcases EventLoop.checkStreamTimeout_cases token (entry.sources token) now with
        ⟨_, _, _, ⟨_, same⟩ | ⟨_, same⟩⟩ | ⟨_, same⟩
      · cases returned.symm.trans same
      · cases returned.symm.trans same
        exact .inl rfl
      · cases returned.symm.trans same

end Command

namespace EventLoop

variable {loop after : EventLoop}

/-- What the loop has under a token. -/
def entry (loop : EventLoop) (token : Token) : Entry :=
  ⟨loop.eventSources.lookup token, loop.registered.lookup token⟩

/-- What the handler of an event makes of it. -/
def reaction (loop : EventLoop) (item : Event × World chrono) : Option Reaction :=
  (loop.entry item.1.token).react item.1 item.2

/-- The commands that the handler of an event submits. -/
def submitted (loop : EventLoop) (item : Event × World chrono) : List Command :=
  (loop.reaction item).elim [] Reaction.commands

/-- Loops with the same entries have the same sources and registrations. -/
theorem maps_eq_of_entry_eq (same : ∀ token, loop.entry token = after.entry token) :
    loop.eventSources = after.eventSources ∧ loop.registered = after.registered := by
  constructor
  · exact Finmap.ext_lookup fun token => congrArg Entry.source (same token)
  · exact Finmap.ext_lookup fun token => congrArg Entry.interests (same token)

/-! ### Events -/

/-- A handler that returns reacts on its own entry, and not on others. -/
theorem handleEvent_reaction {event : Event} {world : World chrono}
    (handled : handleEvent event world loop = (.ok (), after)) :
    ∃ reaction, loop.reaction (event, world) = some reaction ∧
      after.entry event.token = reaction.entry ∧
      (∀ other, other ≠ event.token → after.entry other = loop.entry other) ∧
      after.commandQueue = loop.commandQueue ++ reaction.commands ∧
      after.log = loop.log ++ reaction.acts := by
  obtain ⟨source, found, ⟨newSource, responses, calls, returned, rfl⟩ |
    ⟨error, calls, failed, rfl⟩⟩ := handleEvent_cases handled
  · refine ⟨⟨⟨some newSource, loop.registered.lookup event.token⟩, _, _⟩, ?_, ?_, ?_, rfl, rfl⟩
    · simp only [reaction, Entry.react, entry, found, returned]
    · simp only [entry, Finmap.lookup_insert]
    · intro other different
      simp only [entry, Finmap.lookup_insert_of_ne _ different]
  · refine ⟨⟨(loop.entry event.token).drop source, [], calls.map (.call event.token)⟩, ?_, ?_, ?_,
      ?_, ?_⟩
    · simp only [reaction, Entry.react, entry, found, failed]
    · cases source <;>
        simp only [entry, Entry.drop, dropSource, Finmap.lookup_erase]
    · intro other different
      cases source <;>
        simp only [entry, dropSource, Finmap.lookup_erase_ne different]
    · rw [dropSource_commandQueue, List.append_nil]
    · rw [dropSource_log]

/-- An event has a source, whose handler does not panic. -/
def HandlerReturns (loop : EventLoop) (item : Event × World chrono) : Prop :=
  ∃ source, loop.eventSources.lookup item.1.token = some source ∧
    (source.handleEvent item.1 item.2 item.1.token).1 ≠ .abort

/-- Whether an event is handled only depends on the source that it is for. -/
theorem HandlerReturns.of_entry_eq {item : Event × World chrono}
    (handled : loop.HandlerReturns item)
    (same : after.entry item.1.token = loop.entry item.1.token) : after.HandlerReturns item := by
  obtain ⟨source, found, returns⟩ := handled
  exact ⟨source, (congrArg Entry.source same).trans found, returns⟩

/-- An event with a source is handled unless the handler panics. -/
theorem exists_handleEvent_iff {event : Event} {world : World chrono} :
    (∃ after, handleEvent event world loop = (.ok (), after)) ↔
      loop.HandlerReturns (event, world) := by
  unfold handleEvent
  dsimp only
  constructor
  · rintro ⟨after, handled⟩
    split at handled
    · cases handled
    · next source found =>
        refine ⟨source, found, fun aborts => ?_⟩
        cases returned : source.handleEvent event world event.token with
        | mk outcome calls =>
            obtain rfl : outcome = .abort := (congrArg Prod.fst returned).symm.trans aborts
            rw [returned] at handled
            cases handled
  · rintro ⟨source, found, returns⟩
    dsimp only at found returns
    rw [found]
    dsimp only
    cases returned : source.handleEvent event world event.token with
    | mk outcome calls =>
        rw [returned] at returns
        cases outcome with
        | ok result => exact ⟨_, rfl⟩
        | err error => exact ⟨_, rfl⟩
        | abort => exact absurd rfl returns

/-- The events of a batch have distinct tokens. -/
def Distinct (events : List (Event × World chrono)) : Prop :=
  (events.map fun (event, _) => event.token).Nodup

/-- **Events act on entries.** After a batch of events with distinct tokens, every token in it
has the entry that its handler made of the entry that was there before, other tokens have their
entries, and the commands of all handlers are pending. -/
theorem entry_of_handleEvents {events : List (Event × World chrono)} (distinct : Distinct events)
    (handled : handleEvents events loop = (.ok (), after)) :
    (∀ item ∈ events, ∃ reaction, loop.reaction item = some reaction ∧
      after.entry item.1.token = reaction.entry) ∧
    (∀ token, (∀ item ∈ events, item.1.token ≠ token) → after.entry token = loop.entry token) ∧
    after.commandQueue = loop.commandQueue ++ events.flatMap loop.submitted ∧
    after.log = loop.log ++
      events.flatMap (fun item => (loop.reaction item).elim [] Reaction.acts) := by
  induction events generalizing loop with
  | nil =>
      cases handled
      exact ⟨List.forall_mem_nil _, fun _ _ => rfl, (List.append_nil _).symm,
        (List.append_nil _).symm⟩
  | cons first events ih =>
      obtain ⟨event, world⟩ := first
      obtain ⟨⟨⟩, between, began, handled⟩ := Stateful.bind_apply_eq_ok_iff.mp handled
      obtain ⟨unreported, distinct⟩ := List.nodup_cons.mp distinct
      obtain ⟨reaction, reacts, entry, others, queue, log⟩ := handleEvent_reaction began
      have different : ∀ item ∈ events, item.1.token ≠ event.token := fun item member same =>
        unreported (List.mem_map.mpr ⟨item, member, same⟩)
      have same : ∀ item ∈ events, between.reaction item = loop.reaction item := by
        intro item member
        rw [EventLoop.reaction, EventLoop.reaction, others _ (different item member)]
      have submits : loop.submitted (event, world) = reaction.commands := by
        rw [submitted, reacts]
        rfl
      obtain ⟨reported, unreported, queue', log'⟩ := ih distinct handled
      refine ⟨List.forall_mem_cons.mpr ⟨⟨reaction, reacts, ?_⟩, fun item member => ?_⟩,
        fun token elsewhere => ?_, ?_, ?_⟩
      · rw [unreported _ different, entry]
      · rw [← same item member]
        exact reported item member
      · obtain ⟨first, rest⟩ := List.forall_mem_cons.mp elsewhere
        rw [unreported token rest, others token (Ne.symm first)]
      · rw [queue', queue, List.flatMap_cons, submits, List.append_assoc]
        exact congrArg _ (congrArg _ (List.flatMap_congr fun item member => by
          rw [submitted, submitted, same item member]))
      · rw [log', log, List.flatMap_cons, reacts, List.append_assoc]
        exact congrArg _ (congrArg _ (List.flatMap_congr fun item member => by
          rw [same item member]))

/-- A batch of events is handled unless one has no source, or its handler panics. -/
theorem exists_handleEvents_iff {events : List (Event × World chrono)}
    (distinct : Distinct events) :
    (∃ after, handleEvents events loop = (.ok (), after)) ↔
      ∀ item ∈ events, loop.HandlerReturns item := by
  induction events generalizing loop with
  | nil => exact iff_of_true ⟨loop, rfl⟩ (List.forall_mem_nil _)
  | cons first events ih =>
      obtain ⟨event, world⟩ := first
      obtain ⟨unreported, distinct⟩ := List.nodup_cons.mp distinct
      -- The first handler leaves the sources of the other events as they are.
      have rest : ∀ {between}, handleEvent event world loop = (.ok (), between) →
          ((∀ item ∈ events, between.HandlerReturns item) ↔
            ∀ item ∈ events, loop.HandlerReturns item) := by
        intro between began
        obtain ⟨-, -, -, others, -, -⟩ := handleEvent_reaction began
        have kept : ∀ item ∈ events, between.entry item.1.token = loop.entry item.1.token :=
          fun item member => others _ fun same =>
            unreported (List.mem_map.mpr ⟨item, member, same⟩)
        exact forall₂_congr fun item member =>
          ⟨fun handled => handled.of_entry_eq (kept item member).symm,
            fun handled => handled.of_entry_eq (kept item member)⟩
      rw [List.forall_mem_cons]
      constructor
      · rintro ⟨after, handled⟩
        obtain ⟨⟨⟩, between, began, handled⟩ := Stateful.bind_apply_eq_ok_iff.mp handled
        refine ⟨exists_handleEvent_iff.mp ⟨between, began⟩, ?_⟩
        exact (rest began).mp ((ih distinct).mp ⟨after, handled⟩)
      · rintro ⟨handled, others⟩
        obtain ⟨between, began⟩ := exists_handleEvent_iff.mpr handled
        obtain ⟨after, handled⟩ := (ih distinct).mpr ((rest began).mpr others)
        exact ⟨after, Stateful.bind_apply_eq_ok_iff.mpr ⟨(), between, began, handled⟩⟩

/-! ### Commands -/

/-- A command that returns has its effect on the entry of its token, and none on others. -/
theorem executeCommand_entry {io : CommandIo} {command : Command} {newCommand : Option Command}
    (executed : executeCommand io command loop = (.ok newCommand, after)) :
    (after.entry command.token, newCommand) =
        command.effect io.now (loop.entry command.token) ∧
      ∀ other, other ≠ command.token → after.entry other = loop.entry other := by
  have called : command.call loop.eventSources io.now =
      command.call ((loop.entry command.token).sources command.token) io.now :=
    command.call_eq_of_lookup_eq
      (Entry.lookup_sources (loop.entry command.token) command.token).symm io.now
  unfold executeCommand at executed
  unfold Command.effect
  rw [← called]
  cases returned : command.call loop.eventSources io.now with
  | error error =>
      rw [returned] at executed
      cases executed
      exact ⟨rfl, fun _ _ => rfl⟩
  | ok response =>
      cases response with
      | none =>
          rw [returned] at executed
          cases executed
          exact ⟨rfl, fun _ _ => rfl⟩
      | some response =>
          rw [returned] at executed
          have named := Command.token_of_call returned
          cases response with
          | newSource token source interests =>
              obtain rfl : token = command.token := named
              dsimp only at executed
              split at executed
              · cases executed
                refine ⟨?_, fun other different => ?_⟩
                · simp only [entry, Finmap.lookup_insert]
                · simp only [entry, Finmap.lookup_insert_of_ne _ different]
              · cases executed
          | modifyInterests token interests =>
              obtain rfl : token = command.token := named
              dsimp only at executed
              cases found : loop.eventSources.lookup command.token with
              | none =>
                  rw [found] at executed
                  cases executed
                  refine ⟨?_, fun _ _ => rfl⟩
                  simp only [entry, record, found, Option.isSome_none, Bool.false_eq_true,
                    ↓reduceIte]
              | some source =>
                  rw [found] at executed
                  dsimp only at executed
                  split at executed
                  · cases executed
                    refine ⟨?_, fun other different => ?_⟩
                    · simp only [entry, record, found, Finmap.lookup_insert, Option.isSome_some,
                        ↓reduceIte]
                    · simp only [entry, record, Finmap.lookup_insert_of_ne _ different]
                  · cases executed
          | closeSource token =>
              obtain rfl : token = command.token := named
              dsimp only at executed
              cases found : loop.eventSources.lookup command.token with
              | none =>
                  rw [found] at executed
                  cases executed
                  refine ⟨?_, fun _ _ => rfl⟩
                  simp only [entry, record, found, Option.isSome_none, Bool.false_eq_true,
                    ↓reduceIte]
              | some source =>
                  rw [found] at executed
                  dsimp only at executed
                  split at executed
                  · cases executed
                    refine ⟨?_, fun other different => ?_⟩
                    · simp only [entry, record, found, Finmap.lookup_erase, Option.isSome_some,
                        ↓reduceIte]
                    · simp only [entry, record, Finmap.lookup_erase_ne different]
                  · cases executed
          | submitCommand submitted =>
              cases executed
              exact ⟨rfl, fun _ _ => rfl⟩

/-- Executing a command makes a call on the registry. -/
def CallsRegistry (loop : EventLoop) (command : Command) (now : Instant) : Prop :=
  match command.call loop.eventSources now with
  | .ok (some (.newSource _ _ _)) => True
  | .ok (some (.modifyInterests token _)) => token ∈ loop.eventSources
  | .ok (some (.closeSource token)) => token ∈ loop.eventSources
  | _ => False

/-- While calls on the registry succeed, executing a command does. -/
theorem exists_executeCommand (now : Instant) (command : Command) (loop : EventLoop) :
    ∃ newCommand after, executeCommand ⟨now, .ok ()⟩ command loop = (.ok newCommand, after) := by
  unfold executeCommand
  split
  · exact ⟨_, _, rfl⟩
  · split <;> exact ⟨_, _, rfl⟩
  · split <;> exact ⟨_, _, rfl⟩
  · exact ⟨_, _, rfl⟩
  · exact ⟨_, _, rfl⟩
  · exact ⟨_, _, rfl⟩

/-- A command is executed unless the call fails that it makes on the registry. -/
theorem exists_executeCommand_iff (io : CommandIo) (command : Command) (loop : EventLoop) :
    (∃ newCommand after, executeCommand io command loop = (.ok newCommand, after)) ↔
      (loop.CallsRegistry command io.now → io.registry = .ok ()) := by
  obtain ⟨now, error | ⟨⟨⟩⟩⟩ := io
  · have failing : ∀ {after : EventLoop}, ¬∃ newCommand made,
        (((.err (.ofIo error), after) : Outcome Error (Option Command) × EventLoop)) =
          (.ok newCommand, made) := by
      rintro after ⟨newCommand, made, failed⟩
      cases failed
    unfold executeCommand CallsRegistry
    dsimp only
    rcases command.call loop.eventSources now with
      failure | - | ⟨token, source, interests⟩ | ⟨token, interests⟩ | token | submitted
    · exact iff_of_true ⟨_, _, rfl⟩ False.elim
    · exact iff_of_true ⟨_, _, rfl⟩ False.elim
    · exact iff_of_false failing fun succeeds => by cases succeeds trivial
    · dsimp only
      split
      · next found =>
          refine iff_of_false failing fun succeeds => ?_
          cases succeeds (Finmap.mem_of_lookup_eq_some found)
      · next absent =>
          exact iff_of_true ⟨_, _, rfl⟩ fun live => absurd live (Finmap.lookup_eq_none.mp absent)
    · dsimp only
      split
      · next found =>
          refine iff_of_false failing fun succeeds => ?_
          cases succeeds (Finmap.mem_of_lookup_eq_some found)
      · next absent =>
          exact iff_of_true ⟨_, _, rfl⟩ fun live => absurd live (Finmap.lookup_eq_none.mp absent)
    · exact iff_of_true ⟨_, _, rfl⟩ False.elim
  · exact iff_of_true (exists_executeCommand now command loop) fun _ => rfl

/-- The calls succeed that the commands make on the registry. -/
def CallsSucceed (io : Nat → CommandIo) : List Command → EventLoop → Prop
  | [], _ => True
  | command :: commands, loop =>
      let taken := { loop with commandQueue := commands }
      (taken.CallsRegistry command (io 0).now → (io 0).registry = .ok ()) ∧
        CallsSucceed (fun index => io (index + 1)) commands (executeCommand (io 0) command taken).2

/-- Where all calls on the registry would succeed, those that are made do. -/
theorem callsSucceed_of_ok {io : Nat → CommandIo} (succeeds : ∀ index, (io index).registry = .ok ())
    (commands : List Command) (loop : EventLoop) : CallsSucceed io commands loop := by
  induction commands generalizing io loop with
  | nil => exact trivial
  | cons command commands ih =>
      exact ⟨fun _ => succeeds 0, ih (fun index => succeeds (index + 1)) _⟩

/-- Commands are executed unless a call on the registry fails. -/
theorem exists_executeCommands_iff (io : Nat → CommandIo) (commands newCommands : List Command)
    (loop : EventLoop) :
    (∃ result after, executeCommands io commands newCommands loop = (.ok result, after)) ↔
      CallsSucceed io commands loop := by
  induction commands generalizing io newCommands loop with
  | nil => exact iff_of_true ⟨newCommands, loop, rfl⟩ trivial
  | cons command commands ih =>
      rw [executeCommands, Stateful.modify_bind_apply, CallsSucceed, ← exists_executeCommand_iff]
      constructor
      · rintro ⟨result, after, ran⟩
        obtain ⟨newCommand, between, executed, finished⟩ := Stateful.bind_apply_eq_ok_iff.mp ran
        refine ⟨⟨newCommand, between, executed⟩, ?_⟩
        rw [executed]
        exact (ih _ _ _).mp ⟨result, after, finished⟩
      · rintro ⟨⟨newCommand, between, executed⟩, succeed⟩
        rw [executed] at succeed
        obtain ⟨result, after, finished⟩ := (ih _ (newCommands ++ newCommand.toList) _).mpr succeed
        exact ⟨result, after,
          Stateful.bind_apply_eq_ok_iff.mpr ⟨newCommand, between, executed, finished⟩⟩

/-- The commands that name a token. -/
def naming (token : Token) (commands : List Command) : List Command :=
  commands.filter fun command => command.token = token

/-- The commands that name a token among more commands are those among both. -/
theorem naming_append (token : Token) (commands more : List Command) :
    naming token (commands ++ more) = naming token commands ++ naming token more :=
  List.filter_append ..

/-- What commands that are executed at one time make of the entry of the token they name,
and what they submit. -/
def effects (now : Instant) : List Command → Entry → List Command → Entry × List Command
  | [], entry, newCommands => (entry, newCommands)
  | command :: commands, entry, newCommands =>
      let (entry, newCommand) := command.effect now entry
      effects now commands entry (newCommands ++ newCommand.toList)

/-- **Commands act on entries.** What the commands in the queue make of an entry, and what they
submit for it, is what those that name its token make of it. -/
theorem entry_of_executeCommands {now : Instant} {commands newCommands result : List Command}
    (executed : executeCommands (fun _ => ⟨now, .ok ()⟩) commands newCommands loop =
      (.ok result, after)) (token : Token) :
    (after.entry token, naming token result) =
      effects now (naming token commands) (loop.entry token) (naming token newCommands) := by
  induction commands generalizing newCommands loop with
  | nil =>
      cases executed
      rfl
  | cons command commands ih =>
      rw [executeCommands, Stateful.modify_bind_apply] at executed
      obtain ⟨newCommand, between, began, executed⟩ := Stateful.bind_apply_eq_ok_iff.mp executed
      obtain ⟨own, others⟩ := executeCommand_entry began
      have submits : ∀ new ∈ newCommand.toList, new.token = command.token := by
        intro new member
        apply Command.token_of_effect
        rw [← own]
        exact Option.mem_toList.mp member
      rw [ih executed, naming_append, naming, naming, naming, naming, List.filter_cons]
      by_cases same : command.token = token
      · subst same
        have kept : newCommand.toList.filter (fun new => new.token = command.token) =
            newCommand.toList :=
          List.filter_eq_self.mpr fun new member => decide_eq_true (submits new member)
        have effect : command.effect now (loop.entry command.token) =
            (between.entry command.token, newCommand) := own.symm
        rw [decide_eq_true rfl, if_pos rfl, kept, effects, effect]
      · have dropped : newCommand.toList.filter (fun new => new.token = token) = [] :=
          List.filter_eq_nil_iff.mpr fun new member named =>
            same ((submits new member).symm.trans (of_decide_eq_true named))
        rw [decide_eq_false same, if_neg Bool.false_ne_true, dropped, List.append_nil,
          others token (Ne.symm same)]
        rfl

end EventLoop

end RustHttpServer
