import RustHttpServer.Host.Site
import RustHttpServer.Select.Tokens

/-!
# Registered tokens

The poll reports events under the tokens that are registered, and the event loop ends when
one of them has no source. A source that is dropped because its handler fails is no longer
registered, unless it is the standard input: that handler fails when a line cannot be
read, and this is the only way to a token without a source (`registered_iff`).
-/

namespace RustHttpServer

open Foundation Utf8

variable {chrono : Chrono}

/-- The next line, if there is one, can be read and is text. -/
def Stdin.Readable (stdin : Stdin) : Prop :=
  ∀ line ∈ stdin.lines.head?, ∃ text : Text, line = .ok (encode text)

/-- The source is registered even after it has been dropped. -/
def EventSource.OutlivesDrop (source : EventSource) : Prop :=
  ∃ stdin listenerToken, source = .stdin stdin listenerToken

/-- Whenever the standard input is reported to be readable, its next line is. -/
def EventLoop.ReadsLines (loop : EventLoop) (events : List (Event × World chrono)) : Prop :=
  ∀ event world, (event, world) ∈ events → event.isReadable →
    ∀ stdin listenerToken,
      loop.eventSources.lookup event.token = some (.stdin stdin listenerToken) →
      stdin.Readable

/-- Every token that is registered has a source. -/
def EventLoop.Covered (loop : EventLoop) : Prop :=
  ∀ token ∈ loop.registered, token ∈ loop.eventSources

/-- A token is registered that has no source and will not get one. -/
structure EventLoop.Lost (loop : EventLoop) (token : Token) : Prop where
  registered : token ∈ loop.registered
  absent : token ∉ loop.eventSources
  arrived : token ∈ arrived loop.log

/-- Every token that is registered has a source, so that no batch of events is without a
handler. -/
structure EventLoop.Served (chrono : Chrono) (loop : EventLoop) : Prop where
  covered : loop.Covered
  unfailing : ∀ events : List (Event × World chrono), loop.Reports events →
    (handleEvents events loop).1.Unfailing

/-! ## The standard input -/

/-- A line is read if it is there and is text. -/
private theorem Stdin.readLine_eq_ok_iff (stdin : Stdin) :
    (∃ text, stdin.readLine.1 = .ok text) ↔ stdin.Readable := by
  unfold Stdin.readLine Stdin.Readable
  cases stdin.lines with
  | nil => exact iff_of_true ⟨[], rfl⟩ nofun
  | cons line lines =>
      cases line with
      | error error =>
          apply iff_of_false nofun
          intro readable
          obtain ⟨text, same⟩ := readable _ rfl
          cases same
      | ok bytes =>
          change (∃ text, (decode bytes).mapError _ = .ok text) ↔ _
          cases decoded : decode bytes with
          | ok text =>
              refine iff_of_true ⟨text, rfl⟩ ?_
              rintro _ ⟨⟩
              exact ⟨text, congrArg Except.ok (decode_eq_ok_iff.mp decoded)⟩
          | error error =>
              apply iff_of_false nofun
              intro readable
              obtain ⟨text, same⟩ := readable _ rfl
              rw [decode_eq_ok_iff.mpr (Except.ok.inj same)] at decoded
              cases decoded

/-- The handler of the standard input fails exactly when the next line cannot be read. -/
theorem handleStdinEvent_eq_err_iff (event : Event) (stdin : Stdin) (listenerToken : Token) :
    (∃ error, handleStdinEvent event stdin listenerToken = .err error) ↔
      event.isReadable ∧ ¬stdin.Readable := by
  rw [← stdin.readLine_eq_ok_iff, handleStdinEvent]
  split
  · next readable =>
      split
      · next input left read =>
          refine iff_of_false ?_ fun failed => failed.2 ⟨input, congrArg Prod.fst read⟩
          rintro ⟨error, failed⟩
          split at failed <;> cases failed
      · next error left read =>
          refine iff_of_true ⟨_, rfl⟩ ⟨readable, ?_⟩
          rintro ⟨text, same⟩
          rw [read] at same
          cases same
  · next unreadable =>
      refine iff_of_false ?_ fun failed => unreadable failed.1
      rintro ⟨error, ⟨⟩⟩

namespace EventLoop

variable {loop after : EventLoop} {events : List (Event × World chrono)}

/-! ## The handling of events -/

/-- What is registered once a source has been dropped. -/
theorem mem_dropSource_registered {token other : Token} {source : EventSource} :
    other ∈ (dropSource token source loop).registered ↔
      other ∈ loop.registered ∧ (other = token → source.OutlivesDrop) := by
  cases source with
  | stdin stdin listenerToken =>
      exact ⟨fun member => ⟨member, fun _ => ⟨stdin, listenerToken, rfl⟩⟩, And.left⟩
  | tcpListener | tcpStream =>
      refine Finmap.mem_erase.trans ⟨fun member => ⟨member.2, fun same => absurd same member.1⟩, ?_⟩
      rintro ⟨member, outlives⟩
      refine ⟨fun same => ?_, member⟩
      obtain ⟨stdin, listenerToken, ⟨⟩⟩ := outlives same

/-- Handling an event does not touch other sources. -/
theorem handleEvent_frame {event : Event} {world : World chrono}
    (handled : handleEvent event world loop = (.ok (), after)) {other : Token}
    (different : other ≠ event.token) :
    after.eventSources.lookup other = loop.eventSources.lookup other ∧
      (other ∈ loop.registered → other ∈ after.registered) := by
  obtain ⟨source, found, ⟨newSource, responses, calls, returned, rfl⟩ |
    ⟨error, calls, -, rfl⟩⟩ := handleEvent_cases handled
  · exact ⟨Finmap.lookup_insert_of_ne _ different, id⟩
  · refine ⟨?_, fun member => ?_⟩
    · rw [dropSource_eventSources]
      exact Finmap.lookup_erase_ne different
    · exact mem_dropSource_registered.mpr ⟨member, fun same => absurd same different⟩

/-- After an event every token that is registered has a source, unless a line could not be
read. -/
theorem Covered.handleEvent (covered : loop.Covered) {event : Event} {world : World chrono}
    (reads : event.isReadable → ∀ stdin listenerToken,
      loop.eventSources.lookup event.token = some (.stdin stdin listenerToken) → stdin.Readable)
    (handled : EventLoop.handleEvent event world loop = (.ok (), after)) : after.Covered := by
  obtain ⟨source, found, ⟨newSource, responses, calls, returned, rfl⟩ |
    ⟨error, calls, failed, rfl⟩⟩ := handleEvent_cases handled
  · intro token member
    exact Finmap.mem_insert.mpr (.inr (covered token member))
  · intro token member
    obtain ⟨member, outlives⟩ := mem_dropSource_registered.mp member
    rw [dropSource_eventSources]
    refine Finmap.mem_erase.mpr ⟨fun same => ?_, covered token member⟩
    obtain ⟨stdin, listenerToken, rfl⟩ := outlives same
    obtain ⟨readable, unreadable⟩ := (handleStdinEvent_eq_err_iff event stdin listenerToken).mp
      ⟨error, congrArg Prod.fst failed⟩
    exact unreadable (reads readable stdin listenerToken found)

/-- A line that cannot be read leaves the token of the standard input without a source. -/
theorem lost_of_unreadable (fresh : loop.FreshTokens) {event : Event} {world : World chrono}
    {stdin : Stdin} {listenerToken : Token} (registered : event.token ∈ loop.registered)
    (found : loop.eventSources.lookup event.token = some (.stdin stdin listenerToken))
    (readable : event.isReadable) (unreadable : ¬stdin.Readable)
    (handled : handleEvent event world loop = (.ok (), after)) : after.Lost event.token := by
  obtain ⟨error, failed⟩ := (handleStdinEvent_eq_err_iff event stdin listenerToken).mpr
    ⟨readable, unreadable⟩
  obtain ⟨source, same, ⟨newSource, responses, calls, returned, rfl⟩ |
    ⟨error, calls, -, rfl⟩⟩ := handleEvent_cases handled
  · rw [found] at same
    cases same
    cases failed.symm.trans (congrArg Prod.fst returned)
  · rw [found] at same
    cases same
    refine ⟨registered, Finmap.notMem_erase_self, ?_⟩
    rw [dropSource_log, arrived_append]
    exact List.mem_append_left _ (fresh.live event.token _ found)

/-- The other events of a batch have other tokens. -/
theorem Reports.different {event other : Event} {world world' : World chrono}
    (reports : loop.Reports ((event, world) :: events)) (member : (other, world') ∈ events) :
    other.token ≠ event.token := by
  intro same
  refine (List.nodup_cons.mp reports.distinct).1 (List.mem_map.mpr ⟨_, member, same⟩)

/-- After its first event, the rest of a batch can still be reported. -/
theorem Reports.tail {event : Event} {world : World chrono}
    (reports : loop.Reports ((event, world) :: events))
    (handled : handleEvent event world loop = (.ok (), after)) : after.Reports events where
  registered other world' member := by
    have kept := (handleEvent_frame handled (reports.different member)).2
    exact kept (reports.registered other world' (List.mem_cons_of_mem _ member))
  distinct := (List.nodup_cons.mp reports.distinct).2

/-- The standard input is the same for the rest of a batch. -/
theorem readsLines_tail {event : Event} {world : World chrono}
    (reports : loop.Reports ((event, world) :: events))
    (handled : handleEvent event world loop = (.ok (), after)) :
    loop.ReadsLines ((event, world) :: events) ↔
      loop.ReadsLines [(event, world)] ∧ after.ReadsLines events := by
  have same := fun {other : Event} {world' : World chrono} (member : (other, world') ∈ events) =>
    (handleEvent_frame handled (reports.different member)).1
  constructor
  · refine fun reads => ⟨fun other world' member => ?_, fun other world' member => ?_⟩
    · exact reads other world' (List.mem_singleton.mp member ▸ List.mem_cons_self)
    · rw [same member]
      exact reads other world' (List.mem_cons_of_mem _ member)
  · rintro ⟨first, rest⟩ other world' member
    rcases List.mem_cons.mp member with here | member
    · exact first other world' (List.mem_singleton.mpr here)
    · rw [← same member]
      exact rest other world' member

/-- A batch in which the standard input reads lines leaves every registered token with a source.
-/
theorem Covered.handleEvents (covered : loop.Covered) (reports : loop.Reports events)
    (reads : loop.ReadsLines events)
    (handled : EventLoop.handleEvents events loop = (.ok (), after)) : after.Covered := by
  induction events generalizing loop with
  | nil =>
      cases handled
      exact covered
  | cons first events ih =>
      obtain ⟨event, world⟩ := first
      obtain ⟨⟨⟩, between, began, handled⟩ := Stateful.bind_apply_eq_ok_iff.mp handled
      obtain ⟨first, rest⟩ := (readsLines_tail reports began).mp reads
      exact ih (covered.handleEvent (first event world List.mem_cons_self) began)
        (reports.tail began) rest handled

/-- A source is found for every event of a batch whose tokens have sources. -/
theorem unfailing_handleEvents (live : ∀ event world, (event, world) ∈ events →
      event.token ∈ loop.eventSources)
    (distinct : (events.map fun (event, _) => event.token).Nodup) :
    (EventLoop.handleEvents events loop).1.Unfailing := by
  induction events generalizing loop with
  | nil => exact .ok ()
  | cons first events ih =>
      obtain ⟨event, world⟩ := first
      obtain ⟨source, found⟩ := Finmap.mem_iff.mp (live event world List.mem_cons_self)
      obtain ⟨unreported, distinct⟩ := List.nodup_cons.mp distinct
      rw [EventLoop.handleEvents, Stateful.bind_apply]
      cases began : handleEvent event world loop with
      | mk outcome between =>
          cases outcome with
          | ok done =>
              refine ih (fun other world' member => ?_) distinct
              have different : other.token ≠ event.token := fun same =>
                unreported (List.mem_map.mpr ⟨_, member, same⟩)
              rw [← Finmap.lookup_isSome, (handleEvent_frame began different).1,
                Finmap.lookup_isSome]
              exact live other world' (List.mem_cons_of_mem _ member)
          | abort => exact .abort
          | err error =>
              rw [handleEvent, found] at began
              dsimp only at began
              split at began
              · cases began
              · cases began
              · cases began

private theorem Served.of_covered (covered : loop.Covered) : loop.Served chrono where
  covered := covered
  unfailing _ reports := unfailing_handleEvents
    (fun event world member => covered _ (reports.registered event world member)) reports.distinct

/-! ## Lost tokens -/

/-- A token stays lost while events are handled. -/
theorem Lost.handling {token : Token} (lost : loop.Lost token) (handling : Handling loop after) :
    after.Lost token := by
  have different : ∀ {other source}, loop.eventSources.lookup other = some source →
      token ≠ other := by
    rintro other source found rfl
    exact lost.absent (Finmap.mem_of_lookup_eq_some found)
  have absent : ∀ {other source source'}, loop.eventSources.lookup other = some source →
      token ∉ loop.eventSources.insert other source' := fun found member =>
    (Finmap.mem_insert.mp member).elim (different found) lost.absent
  cases handling with
  | advance calls found =>
      refine ⟨lost.registered, absent found, ?_⟩
      rw [arrived_append]
      exact List.mem_append_left _ lost.arrived
  | accept listener' found => exact ⟨lost.registered, absent found, lost.arrived⟩
  | listen listener' found => exact ⟨lost.registered, absent found, lost.arrived⟩
  | readLine stdin' found => exact ⟨lost.registered, absent found, lost.arrived⟩
  | fail calls found =>
      refine ⟨?_, ?_, ?_⟩
      · exact mem_dropSource_registered.mpr
          ⟨lost.registered, fun same => absurd same (different found)⟩
      · rw [dropSource_eventSources]
        exact fun member => lost.absent (Finmap.mem_erase.mp member).2
      · rw [dropSource_log, arrived_append]
        exact List.mem_append_left _ lost.arrived

/-- A token stays lost while commands are executed. -/
theorem Lost.execution {token : Token} (lost : loop.Lost token) (fresh : loop.FreshTokens)
    (execution : Execution loop after) : after.Lost token := by
  have arrived : ∀ act, token ∈ RustHttpServer.arrived (loop.log ++ [act]) := fun act => by
    rw [arrived_append]
    exact List.mem_append_left _ lost.arrived
  cases execution with
  | @register other source interests rest now queued =>
      refine ⟨Finmap.mem_insert.mpr (.inr lost.registered), fun member => ?_, arrived _⟩
      rcases Finmap.mem_insert.mp member with rfl | member
      · refine fresh.not_arrived (mem_arrivals.mpr ⟨source, interests, ?_⟩) lost.arrived
        exact queued ▸ List.mem_cons_self
      · exact lost.absent member
  | modify now queued found =>
      exact ⟨Finmap.mem_insert.mpr (.inr lost.registered), lost.absent, arrived _⟩
  | close queued found closes =>
      refine ⟨Finmap.mem_erase.mpr ⟨?_, lost.registered⟩, ?_, arrived _⟩
      · rintro rfl
        exact lost.absent (Finmap.mem_of_lookup_eq_some found)
      · exact fun member => lost.absent (Finmap.mem_erase.mp member).2
  | skip now queued skips => exact ⟨lost.registered, lost.absent, arrived _⟩
  | recheck queued found awaiting young => exact ⟨lost.registered, lost.absent, arrived _⟩
  | resubmit now queued => exact ⟨lost.registered, lost.absent, arrived _⟩

/-- A token that is lost stays lost while events are handled. -/
theorem Lost.handlings {token : Token} (lost : loop.Lost token)
    (handlings : Relation.ReflTransGen Handling loop after) : after.Lost token :=
  invariant_of_steps (Lost · token) handlings (fun _ _ lost => lost.handling) lost

/-- A token that is lost stays lost while commands are executed. -/
theorem Lost.executions {token : Token} (lost : loop.Lost token) (fresh : loop.FreshTokens)
    (executions : Relation.ReflTransGen Execution loop after) : after.Lost token := by
  refine (invariant_of_steps (fun loop => loop.FreshTokens ∧ loop.Lost token) executions ?_
    ⟨fresh, lost⟩).2
  rintro before next ⟨fresh, lost⟩ execution
  exact ⟨fresh.execution execution, lost.execution fresh execution⟩

/-- A batch in which a line cannot be read loses the token of the standard input. -/
theorem exists_lost_of_handleEvents (fresh : loop.FreshTokens) (reports : loop.Reports events)
    (unread : ¬loop.ReadsLines events)
    (handled : EventLoop.handleEvents events loop = (.ok (), after)) :
    ∃ token, after.Lost token := by
  induction events generalizing loop with
  | nil => exact absurd nofun unread
  | cons first events ih =>
      obtain ⟨event, world⟩ := first
      obtain ⟨⟨⟩, between, began, handled⟩ := Stateful.bind_apply_eq_ok_iff.mp handled
      by_cases reads : loop.ReadsLines [(event, world)]
      · refine ih ?_ (reports.tail began) (fun rest => unread ?_) handled
        · exact invariant_of_steps FreshTokens (moves_handleEvent began)
            (fun _ _ fresh => fresh.handling) fresh
        · exact (readsLines_tail reports began).mpr ⟨reads, rest⟩
      · obtain ⟨readable, stdin, listenerToken, found, unreadable⟩ :
            event.isReadable ∧ ∃ stdin listenerToken, loop.eventSources.lookup event.token =
              some (.stdin stdin listenerToken) ∧ ¬stdin.Readable := by
          by_contra none
          apply reads
          intro other world' member readable stdin listenerToken found
          cases List.mem_singleton.mp member
          by_contra unreadable
          exact none ⟨readable, stdin, listenerToken, found, unreadable⟩
        have registered := reports.registered event world List.mem_cons_self
        have lost := lost_of_unreadable fresh registered found readable unreadable began
        exact ⟨event.token, lost.handlings (moves_handleEvents handled)⟩

/-- Commands register sources and tokens together, and remove them together. -/
theorem Covered.execution (covered : loop.Covered) (execution : Execution loop after) :
    after.Covered := by
  cases execution with
  | register now queued =>
      intro token member
      exact Finmap.mem_insert.mpr ((Finmap.mem_insert.mp member).imp_right (covered token))
  | modify now queued found =>
      intro token member
      rcases Finmap.mem_insert.mp member with rfl | member
      · exact Finmap.mem_of_lookup_eq_some found
      · exact covered token member
  | close queued found closes =>
      intro token member
      obtain ⟨different, member⟩ := Finmap.mem_erase.mp member
      exact Finmap.mem_erase.mpr ⟨different, covered token member⟩
  | skip now queued skips => exact covered
  | recheck queued found awaiting young => exact covered
  | resubmit now queued => exact covered

/-- After a turn every token that is registered has a source exactly when all lines could be
read. -/
theorem Covered.next_iff (covered : loop.Covered) (fresh : loop.FreshTokens) {turn : Turn chrono}
    (reports : loop.Reports turn.batch) (taken : loop.next turn = (.ok (), after)) :
    after.Covered ↔ loop.ReadsLines turn.batch := by
  obtain ⟨events, handled, newCommands, executed, polled, began, ran, rfl⟩ := next_cases taken
  have batch : turn.batch = events := by rw [Turn.batch, polled]
  rw [batch] at reports ⊢
  obtain ⟨emptied, executions⟩ := moves_executeCommands rfl ran
  rw [List.append_nil] at executions
  rw [emptied, List.nil_append]
  constructor
  · intro after
    by_contra unread
    obtain ⟨token, lost⟩ := exists_lost_of_handleEvents fresh reports unread began
    have fresh := invariant_of_steps FreshTokens (moves_handleEvents began)
      (fun _ _ fresh => fresh.handling) fresh
    have lost := lost.executions fresh executions
    exact lost.absent (after token lost.registered)
  · intro reads
    have covered := covered.handleEvents reports reads began
    exact invariant_of_steps Covered executions (fun _ _ covered => covered.execution) covered

end EventLoop

open EventLoop

/-- **Registered tokens.** In every state of a run every token that is registered has a
source, and every batch of events a handler, exactly when in every turn of the run the
lines of the standard input can be read. -/
theorem registered_iff {steps : List (EventLoop × Turn chrono)} {loop : EventLoop}
    (run : (polledSystem chrono).Run steps loop) :
    ((∀ step ∈ steps, step.1.Served chrono) ∧ loop.Served chrono) ↔
      ∀ step ∈ steps, step.1.ReadsLines step.2.batch := by
  refine run.invariant (fun steps loop =>
    ((∀ step ∈ steps, step.1.Served chrono) ∧ loop.Served chrono) ↔
      ∀ step ∈ steps, step.1.ReadsLines step.2.batch) ?_ ?_
  · rintro loop ⟨serverConfig, listener, stdin, rfl⟩
    refine iff_of_true ⟨List.forall_mem_nil _, .of_covered ?_⟩ (List.forall_mem_nil _)
    exact fun token member => absurd member Finmap.notMem_empty
  · intro steps loop turn next run ih step
    obtain ⟨reports, taken⟩ := step
    have fresh := freshTokens_of_reachable run.reachable.of_restrict
    simp only [List.forall_mem_append, List.forall_mem_singleton]
    constructor
    · rintro ⟨⟨visited, last⟩, after⟩
      exact ⟨ih.mp ⟨visited, last⟩, (last.covered.next_iff fresh reports taken).mp after.covered⟩
    · rintro ⟨reads, last⟩
      have before := ih.mpr reads
      exact ⟨before, .of_covered ((before.2.covered.next_iff fresh reports taken).mpr last)⟩

/-- A turn with events on the sample site, in which no call on the registry fails. -/
def Site.turn (events : List Event) : Turn gregorian where
  events := .ok (events.map fun event => (event, world))
  commands _ := ⟨0, .ok ()⟩

/-- A run of the sample site goes on with a turn that reports no event, or one. -/
theorem EventLoop.run_turn {steps : List (EventLoop × Turn gregorian)} {loop : EventLoop}
    (run : (polledSystem gregorian).Run steps loop) (event? : Option Event)
    (registered : ∀ event ∈ event?, event.token ∈ loop.registered)
    (taken : (loop.next (Site.turn event?.toList)).1 = .ok ()) :
    (polledSystem gregorian).Run (steps ++ [(loop, Site.turn event?.toList)])
      (loop.next (Site.turn event?.toList)).2 := by
  refine run.step ⟨⟨?_, ?_⟩, Prod.ext taken rfl⟩
  · intro event world member
    obtain ⟨reported, inside, same⟩ := List.mem_map.mp member
    cases same
    exact registered event (Option.mem_toList.mp inside)
  · cases event? with
    | none => exact List.nodup_nil
    | some event => exact List.nodup_singleton _

/-- The rule holds of a run in which a line is read. -/
theorem registered_iff_line : ∃ (steps : List (EventLoop × Turn gregorian)) (loop : EventLoop),
    steps.map Prod.snd = [Site.turn [], Site.turn [⟨0, true, false⟩]] ∧
    (((∀ step ∈ steps, step.1.Served gregorian) ∧ loop.Served gregorian) ↔
      ∀ step ∈ steps, step.1.ReadsLines step.2.batch) := by
  have run := run_turn (run_turn (.start ⟨Site.serverConfig, ⟨[]⟩, ⟨[.ok [10]]⟩, rfl⟩) none nofun
    (by decide +kernel)) (some ⟨0, true, false⟩) ?_ (by decide +kernel)
  · exact ⟨_, _, rfl, registered_iff run⟩
  · intro event same
    cases same
    decide +kernel

/-- After a line that is not text, the next event of the standard input ends the loop. -/
theorem registered_lost : ∃ (loop : EventLoop) (turn : Turn gregorian),
    (polledSystem gregorian).Reachable loop ∧ loop.Reports turn.batch ∧ ¬loop.Covered ∧
      (loop.next turn).1 = .err (missingHandler 0) := by
  have run := run_turn (run_turn (.start ⟨Site.serverConfig, ⟨[]⟩, ⟨[.ok [255]]⟩, rfl⟩) none nofun
    (by decide +kernel)) (some ⟨0, true, false⟩) ?_ (by decide +kernel)
  · refine ⟨_, Site.turn [⟨0, true, false⟩], run.reachable, ⟨?_, List.nodup_singleton _⟩, ?_, ?_⟩
    · intro event world member
      cases List.mem_singleton.mp member
      decide +kernel
    · intro covered
      have member := covered 0 (by decide +kernel)
      revert member
      decide +kernel
    · decide +kernel
  · intro event same
    cases same
    decide +kernel

end RustHttpServer
