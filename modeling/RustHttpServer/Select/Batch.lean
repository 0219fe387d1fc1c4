import RustHttpServer.Select.Aborts
import RustHttpServer.Select.Once

/-!
# The order of a batch

The handlers of the events of a batch have entries of their own, and name tokens of their
own in the commands that they submit. So the order in which the poll reports the events does
not matter to the turn, unless a handler panics, which ends the thread of the loop with the
events behind it unhandled (`batch_order_iff`).
-/

namespace RustHttpServer

open Foundation Utf8

variable {chrono : Chrono}

/-- A turn with a batch, at a time, in which the calls on the registry succeed. -/
def Turn.at (now : Instant) (events : List (Event × World chrono)) : Turn chrono :=
  ⟨.ok events, fun _ => ⟨now, .ok ()⟩⟩

namespace EventLoop

variable {loop after : EventLoop} {events permuted : List (Event × World chrono)} {now : Instant}

/-- In another order the tokens are as distinct. -/
theorem Distinct.perm (distinct : Distinct events) (perm : events.Perm permuted) :
    Distinct permuted := (perm.map _).nodup distinct

/-- What is submitted for an event is what the handler of its source submits. -/
theorem submits_of_mem_submitted {item : Event × World chrono} {command : Command}
    (member : command ∈ loop.submitted item) :
    ∃ source, loop.eventSources.lookup item.1.token = some source ∧
      source.Submits item.1.token command := by
  unfold submitted reaction Entry.react entry at member
  dsimp only at member
  cases found : loop.eventSources.lookup item.1.token with
  | none =>
      rw [found] at member
      cases member
  | some source =>
      rw [found] at member
      dsimp only at member
      refine ⟨source, rfl, ?_⟩
      cases returned : source.handleEvent item.1 item.2 item.1.token with
      | mk outcome calls =>
          rw [returned] at member
          cases outcome with
          | ok result =>
              obtain ⟨newSource, responses⟩ := result
              change command ∈ responses.map HandleEventResponse.toCommand at member
              obtain ⟨response, inside, rfl⟩ := List.mem_map.mp member
              exact (EventSource.handleEvent_submits returned).2 response inside
          | err error => cases member
          | abort => cases member

/-- One event of a batch at most submits commands that name a token. -/
theorem submitted_alone (fresh : loop.FreshTokens) (roles : loop.Roles)
    (distinct : Distinct events) (token : Token) :
    events.Pairwise fun first second =>
      naming token (loop.submitted first) = [] ∨ naming token (loop.submitted second) = [] := by
  refine (List.pairwise_map.mp distinct).imp fun {first second} different => ?_
  by_contra! both
  obtain ⟨command, member⟩ := List.exists_mem_of_ne_nil _ both.1
  obtain ⟨command', member'⟩ := List.exists_mem_of_ne_nil _ both.2
  obtain ⟨member, named⟩ := List.mem_filter.mp member
  obtain ⟨member', named'⟩ := List.mem_filter.mp member'
  obtain ⟨source, found, submits⟩ := submits_of_mem_submitted member
  obtain ⟨source', found', submits'⟩ := submits_of_mem_submitted member'
  exact submits_apart fresh roles different found found' submits submits'
    ((of_decide_eq_true named).trans (of_decide_eq_true named').symm)

private theorem naming_flatMap (token : Token) (submitted : Event × World chrono → List Command) :
    naming token (events.flatMap submitted) =
      events.flatMap fun item => naming token (submitted item) := List.filter_flatMap

/-- The calls that a turn makes on the registry succeed. -/
def RegistrySucceeds (loop : EventLoop) (turn : Turn chrono) : Prop :=
  let handled := (handleEvents turn.batch loop).2
  CallsSucceed turn.commands handled.commandQueue handled

/-- In a turn at a time all calls on the registry succeed. -/
theorem registrySucceeds_at (loop : EventLoop) (now : Instant)
    (events : List (Event × World chrono)) : loop.RegistrySucceeds (.at now events) :=
  callsSucceed_of_ok (fun _ => rfl) _ _

/-- A turn with a batch of events from different sources returns, unless an event has no source,
a handler panics, or a call on the registry fails. -/
theorem exists_next_iff {turn : Turn chrono} (polled : turn.events = .ok events)
    (distinct : Distinct events) :
    (∃ after, loop.next turn = (.ok (), after)) ↔
      (∀ item ∈ events, loop.HandlerReturns item) ∧ loop.RegistrySucceeds turn := by
  rw [← exists_handleEvents_iff distinct, RegistrySucceeds,
    show turn.batch = events by rw [Turn.batch, polled],
    ← exists_executeCommands_iff turn.commands (handleEvents events loop).2.commandQueue []]
  constructor
  · rintro ⟨after, taken⟩
    obtain ⟨batch, handled, newCommands, executed, same, began, ran, -⟩ := next_cases taken
    cases polled.symm.trans same
    rw [began]
    exact ⟨⟨handled, rfl⟩, newCommands, executed, ran⟩
  · rintro ⟨⟨handled, began⟩, newCommands, executed, ran⟩
    rw [began] at ran
    unfold next
    rw [polled, Stateful.lift_bind_apply, Outcome.ofExcept_ok]
    dsimp only
    rw [Stateful.bind_apply, began]
    dsimp only
    rw [Stateful.get_bind_apply, Stateful.bind_apply, ran]
    exact ⟨_, rfl⟩

/-- What a turn makes of the entry of a token: what the commands that name it make of what
the handlers leave there. -/
theorem next_entry (distinct : Distinct events)
    (taken : loop.next (.at now events) = (.ok (), after)) (token : Token) :
    ∃ handled : EventLoop,
      (∀ item ∈ events, ∃ reaction, loop.reaction item = some reaction ∧
        handled.entry item.1.token = reaction.entry) ∧
      ((∀ item ∈ events, item.1.token ≠ token) → handled.entry token = loop.entry token) ∧
      (after.entry token, naming token after.commandQueue) =
        effects now (naming token loop.commandQueue ++
          events.flatMap fun item => naming token (loop.submitted item))
          (handled.entry token) [] := by
  obtain ⟨batch, handled, newCommands, executed, polled, began, ran, rfl⟩ := next_cases taken
  cases polled
  obtain ⟨reported, unreported, queue, -⟩ := entry_of_handleEvents distinct began
  refine ⟨handled, reported, unreported token, ?_⟩
  have effected := entry_of_executeCommands ran token
  rw [queue, naming_append] at effected
  rw [executeCommands_commandQueue rfl ran, List.nil_append, ← naming_flatMap]
  exact effected

/-- Two turns make the same of the entry of a token if the handlers do, and submit the same
commands that name it. -/
theorem entry_eq_of_next {batch batch' : List (Event × World chrono)} {after' : EventLoop}
    (distinct : Distinct batch) (distinct' : Distinct batch')
    (taken : loop.next (.at now batch) = (.ok (), after))
    (taken' : loop.next (.at now batch') = (.ok (), after')) {token : Token}
    (reported : ∀ item : Event × World chrono, item.1.token = token →
      (item ∈ batch ↔ item ∈ batch'))
    (submitted : (batch.flatMap fun item => naming token (loop.submitted item)) =
      batch'.flatMap fun item => naming token (loop.submitted item)) :
    after.entry token = after'.entry token ∧
      naming token after.commandQueue = naming token after'.commandQueue := by
  obtain ⟨handled, reacts, unreported, effected⟩ := next_entry distinct taken token
  obtain ⟨handled', reacts', unreported', effected'⟩ := next_entry distinct' taken' token
  have same : handled.entry token = handled'.entry token := by
    by_cases there : ∃ item ∈ batch, item.1.token = token
    · obtain ⟨item, member, rfl⟩ := there
      obtain ⟨reaction, made, entry⟩ := reacts item member
      obtain ⟨reaction', made', entry'⟩ := reacts' item ((reported item rfl).mp member)
      rw [entry, entry', Option.some.inj (made.symm.trans made')]
    · rw [unreported fun item member named => there ⟨item, member, named⟩,
        unreported' fun item member named => there ⟨item, (reported item named).mpr member, named⟩]
  rw [same, submitted, ← effected'] at effected
  exact Prod.mk.inj effected

/-- What handling an event changes: the entry of its token, and the commands that are
pending. -/
theorem handleEvent_apart (fresh : loop.FreshTokens) (roles : loop.Roles) {event : Event}
    {world : World chrono} (handled : handleEvent event world loop = (.ok (), after)) :
    (∀ other, other ≠ event.token → after.entry other = loop.entry other) ∧
      ∃ source commands, loop.eventSources.lookup event.token = some source ∧
        after.commandQueue = loop.commandQueue ++ commands ∧
        ∀ command ∈ commands, source.Submits event.token command ∧
          ((∃ connection, source = .tcpStream connection) → command.token = event.token) ∧
          ((∃ listener tokenCounter serverConfig,
            source = .tcpListener listener tokenCounter serverConfig) →
              command.token ∉ loop.issued) ∧
          ((∃ stdin listenerToken, source = .stdin stdin listenerToken) →
            command = .respond (.closeSource 1)) := by
  obtain ⟨reaction, reacts, -, others, queue, -⟩ := handleEvent_reaction handled
  refine ⟨others, ?_⟩
  obtain ⟨source, found, -⟩ := handleEvent_cases handled
  refine ⟨source, reaction.commands, found, queue, fun command member => ?_⟩
  have member : command ∈ loop.submitted (event, world) := by
    rw [submitted, reacts]
    exact member
  obtain ⟨source', found', submits⟩ := submits_of_mem_submitted member
  cases found.symm.trans found'
  have named := submits_token fresh roles found submits
  have role := roles _ source (.inl found)
  refine ⟨submits, ?_, ?_, ?_⟩
  · rintro ⟨connection, rfl⟩
    cases submits with
    | adjust adjusts => cases adjusts <;> rfl
  · rintro ⟨listener, tokenCounter, serverConfig, rfl⟩
    rcases named with ⟨above, -⟩ | ⟨-, unissued⟩ | ⟨zero, -⟩
    · exact absurd role.1 (Nat.ne_of_gt above)
    · exact unissued
    · exact absurd (zero.symm.trans role.1) Nat.zero_ne_one
  · rintro ⟨stdin, listenerToken, rfl⟩
    cases submits
    rw [role.2]

/-- The handler of a connection names no token but its own. -/
theorem naming_submitted_stream {item : Event × World chrono} {connection : Connection}
    (found : loop.eventSources.lookup item.1.token = some (.tcpStream connection)) (other : Token)
    (different : other ≠ item.1.token) : naming other (loop.submitted item) = [] := by
  refine List.filter_eq_nil_iff.mpr fun command member named => ?_
  obtain ⟨source, found', submits⟩ := submits_of_mem_submitted member
  cases found.symm.trans found'
  cases submits with
  | adjust adjusts =>
      have named := of_decide_eq_true named
      cases adjusts <;> exact different named.symm

end EventLoop

open EventLoop

/-- The order of a batch does not matter to a turn. In any order the turn returns, with the
same sources, registrations and pending commands. While an event is handled, only the
entry of its token changes, and the commands that are submitted name the token itself, tokens
that have never been given out if it is that of the listener, or the listener if it is that
of the standard input. And a turn with an event of a connection does to all others what
the turn without it does. -/
structure EventLoop.Orderless (loop : EventLoop) (events : List (Event × World chrono))
    (now : Instant) : Prop where
  permuted : ∀ permuted, events.Perm permuted → ∃ after after',
    loop.next (.at now events) = (.ok (), after) ∧
      loop.next (.at now permuted) = (.ok (), after') ∧
      after.eventSources = after'.eventSources ∧ after.registered = after'.registered ∧
      after.commandQueue.Perm after'.commandQueue
  apart : ∀ mid after event (world : World chrono), During (.at now events) loop mid →
    handleEvent event world mid = (.ok (), after) →
    (∀ other, other ≠ event.token → after.entry other = mid.entry other) ∧
      ∃ source commands, mid.eventSources.lookup event.token = some source ∧
        after.commandQueue = mid.commandQueue ++ commands ∧
        ∀ command ∈ commands, source.Submits event.token command ∧
          ((∃ connection, source = .tcpStream connection) → command.token = event.token) ∧
          ((∃ listener tokenCounter serverConfig,
            source = .tcpListener listener tokenCounter serverConfig) →
              command.token ∉ mid.issued) ∧
          ((∃ stdin listenerToken, source = .stdin stdin listenerToken) →
            command = .respond (.closeSource 1))
  without : ∀ done item rest, events = done ++ item :: rest →
    (∃ connection, loop.eventSources.lookup item.1.token = some (.tcpStream connection)) →
    ∃ after without, loop.next (.at now events) = (.ok (), after) ∧
      loop.next (.at now (done ++ rest)) = (.ok (), without) ∧
      ∀ other, other ≠ item.1.token → after.entry other = without.entry other

/-- **The order of a batch** of events that all have a source does not matter if and only if no
handler panics over one of them. -/
theorem batch_order_iff {loop : EventLoop} (reachable : (eventLoopSystem chrono).Reachable loop)
    {events : List (Event × World chrono)} (distinct : Distinct events)
    (live : ∀ item ∈ events, item.1.token ∈ loop.eventSources) (now : Instant) :
    loop.Orderless events now ↔ ∀ item ∈ events, loop.HandlerReturns item := by
  have fresh := freshTokens_of_reachable reachable
  have roles := roles_of_reachable reachable
  have returns : ∀ batch : List (Event × World chrono), Distinct batch →
      ((∃ after, loop.next (.at now batch) = (.ok (), after)) ↔
        ∀ item ∈ batch, loop.HandlerReturns item) := fun batch distinct =>
    (exists_next_iff rfl distinct).trans
      (and_iff_left (loop.registrySucceeds_at now batch))
  constructor
  · rintro ⟨permuted, -, -⟩
    obtain ⟨after, -, taken, -⟩ := permuted events (.refl events)
    exact (returns events distinct).mp ⟨after, taken⟩
  · intro handled
    obtain ⟨after, taken⟩ := (returns events distinct).mpr handled
    refine ⟨fun permuted perm => ?_, fun mid after event world during handled => ?_,
      fun done item rest split streaming => ?_⟩
    · obtain ⟨after', taken'⟩ := (returns permuted (distinct.perm perm)).mpr fun item member =>
        handled item (perm.mem_iff.mpr member)
      have same := fun token => entry_eq_of_next distinct (distinct.perm perm) taken taken'
        (fun item _ => perm.mem_iff)
        (flatMap_eq_of_perm perm (submitted_alone fresh roles distinct token))
      obtain ⟨sources, registered⟩ := maps_eq_of_entry_eq fun token => (same token).1
      exact ⟨after, after', taken, taken', sources, registered,
        perm_of_filter_eq Command.token fun token => (same token).2⟩
    · exact handleEvent_apart (fresh.during during) (roles.steps fresh during.steps) handled
    · subst split
      obtain ⟨connection, found⟩ := streaming
      have silent := naming_submitted_stream found
      have fewer : (done ++ rest).Sublist (done ++ item :: rest) :=
        (List.Sublist.refl done).append (List.sublist_cons_self item rest)
      have distinct' : Distinct (done ++ rest) := (fewer.map _).nodup distinct
      obtain ⟨without, taken'⟩ := (returns _ distinct').mpr fun item member =>
        handled item (fewer.mem member)
      refine ⟨after, without, taken, taken', fun other different => ?_⟩
      refine (entry_eq_of_next distinct distinct' taken taken' (fun reported named => ?_) ?_).1
      · have another : reported ≠ item := fun same => different (same ▸ named).symm
        simp only [List.mem_append, List.mem_cons, another, false_or]
      · rw [List.flatMap_append, List.flatMap_append, List.flatMap_cons, silent other different,
          List.nil_append]

/-- A connection arrives while the listener is told to shut down. -/
theorem batch_order_iff_shutdown :
    let stream : TcpStream := ⟨[], [], .ok "127.0.0.1:4000".toList⟩
    let start := selectMultiplex Site.serverConfig ⟨[.ok (stream, 7)]⟩
      ⟨[.ok (encode "shutdown".toList)]⟩
    let registered := (start.next (.at 6 ([] : List (Event × World gregorian)))).2
    let listening := (⟨1, true, false⟩, Site.world)
    let shutdown := (⟨0, true, false⟩, Site.world)
    registered.Orderless [listening, shutdown] 8 := by
  intro stream start registered listening shutdown
  have reachable : (eventLoopSystem gregorian).Reachable registered := by
    refine .step (.start ⟨_, _, _, rfl⟩) (Prod.ext ?_ rfl)
    decide +kernel
  have live : ∀ item ∈ [listening, shutdown], item.1.token ∈ registered.eventSources := by
    refine List.forall_mem_cons.mpr ⟨?_, List.forall_mem_singleton.mpr ?_⟩ <;> decide +kernel
  have distinct : Distinct [listening, shutdown] := by
    change [1, 0].Nodup
    decide
  refine (batch_order_iff reachable distinct live 8).mpr
    ((exists_handleEvents_iff distinct).mp ⟨_, Prod.ext ?_ rfl⟩)
  decide +kernel

/-- A malformed request, over which the parser panics, and a request on another connection,
which is handled if it comes first, and is not if it comes second. -/
theorem batch_order_lost :
    let malformed : TcpStream :=
      ⟨inOneGo (accentedChunks.map encode), [], .ok "127.0.0.1:4000".toList⟩
    let visiting : TcpStream := ⟨[.ok (encode "GET /page.txt HTTP/1.1\r\nA: b\r\n\r\n".toList)],
      [.ok 1000], .ok "127.0.0.1:4001".toList⟩
    let start := selectMultiplex Site.serverConfig ⟨[.ok (malformed, 7), .ok (visiting, 7)]⟩ ⟨[]⟩
    let registered := (start.next (.at 6 ([] : List (Event × World gregorian)))).2
    let loop := (registered.next (.at 8 [(⟨1, true, false⟩, Site.world)])).2
    let bad := (⟨2, true, false⟩, Site.world)
    let good := (⟨3, true, false⟩, Site.world)
    let requests (events : List (Event × World gregorian)) :=
      requestsHandled (callsOf 3 (loop.next (.at 9 events)).2.log)
    (eventLoopSystem gregorian).Reachable loop ∧
      (∀ item ∈ [bad, good], item.1.token ∈ loop.eventSources) ∧
      (requests [good, bad]).length = 1 ∧ (requests [bad, good]).length = 0 ∧
      ¬loop.Orderless [bad, good] 9 := by
  intro malformed visiting start registered loop bad good requests
  refine ⟨?_, ?_, ?_, ?_, fun orderless => ?_⟩
  · refine .step (.step (.start ⟨_, _, _, rfl⟩) (Prod.ext ?_ rfl)) (Prod.ext ?_ rfl) <;>
      decide +kernel
  · refine List.forall_mem_cons.mpr ⟨?_, List.forall_mem_singleton.mpr ?_⟩ <;> decide +kernel
  · decide +kernel
  · decide +kernel
  · obtain ⟨after, -, taken, -⟩ := orderless.permuted _ (.refl _)
    have aborted : (loop.next (.at 9 [bad, good])).1 = .abort := by decide +kernel
    cases aborted.symm.trans (congrArg Prod.fst taken)

end RustHttpServer
