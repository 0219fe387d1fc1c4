import RustHttpServer.Host.Work
import RustHttpServer.Select.Entries
import RustHttpServer.Select.Reuse

/-!
# What the handlers submit

The listener accepts connections until it has an error (`acceptLoop_eq`), and submits the
registration of each and its first check. A handler names its own token in commands, tokens
that it gives out, or that of the listener (`EventSource.Submits`), and which of these it is
can be told from the token (`EventSource.HasRole`). So the handlers of different sources name
different tokens (`submits_apart`).
-/

namespace RustHttpServer

open Foundation

variable {chrono : Chrono}

/-! ### The listener -/

/-- The connections that the listener accepts before an error. -/
def accepted : List (Except IoError (TcpStream × Instant)) → List (TcpStream × Instant)
  | [] => []
  | .ok connection :: accepts => connection :: accepted accepts
  | .error _ :: _ => []

/-- The error at which the listener stops accepting, if it is not that it would block. -/
def acceptError : List (Except IoError (TcpStream × Instant)) → Option IoError
  | [] => none
  | .ok _ :: accepts => acceptError accepts
  | .error error :: _ => if error.kind = .wouldBlock then none else some error

/-- A connection that has been accepted, with nothing read. -/
def Connection.opened (serverConfig : ServerConfig) (accepted : TcpStream × Instant) :
    Connection where
  stream := accepted.1
  connectionState := .read (.none [])
  requestHandler := Host.fresh serverConfig
  acceptTime := accepted.2

/-- What the listener submits for the connections that it accepts. -/
def admissions (serverConfig : ServerConfig) :
    Nat → List (TcpStream × Instant) → List HandleEventResponse
  | _, [] => []
  | tokenCounter, first :: accepted =>
      .emptyCommand (.newSource (tokenCounter + 1) (.tcpStream (.opened serverConfig first))
        .readable) ::
      .command (.checkStreamTimeout (tokenCounter + 1)) ::
      admissions serverConfig (tokenCounter + 1) accepted

/-- The listener accepts everything before its first error, which it returns unless the accept
would block. It aborts when it has no token left for a connection, or no host. -/
theorem acceptLoop_eq (serverConfig : ServerConfig) (tokenCounter : Nat)
    (responses : List HandleEventResponse)
    (accepts : List (Except IoError (TcpStream × Instant))) :
    (acceptLoop serverConfig tokenCounter responses accepts).1 = .abort ∨
      (acceptLoop serverConfig tokenCounter responses accepts).1 =
        match acceptError accepts with
        | none => .ok (tokenCounter + (accepted accepts).length,
            responses ++ admissions serverConfig tokenCounter (accepted accepts))
        | some error => .err (.ofIo error) := by
  induction accepts generalizing tokenCounter responses with
  | nil =>
      refine .inr ?_
      rw [acceptLoop, acceptError, accepted, admissions, List.append_nil]
      rfl
  | cons answer accepts ih =>
      cases answer with
      | error error =>
          refine .inr ?_
          rw [acceptLoop, acceptError]
          split
          · rw [accepted, admissions, List.append_nil]
            rfl
          · rfl
      | ok connection =>
          obtain ⟨stream, now⟩ := connection
          rw [acceptLoop, acceptError, accepted]
          split
          · rcases Host.new_cases Error serverConfig with created | created
            · rw [created]
              rcases ih (tokenCounter + 1) _ with aborted | ended
              · exact .inl aborted
              · refine .inr (ended.trans ?_)
                cases acceptError accepts with
                | some error => rfl
                | none =>
                    rw [List.length_cons, List.append_assoc, Nat.add_right_comm]
                    rfl
            · rw [created]
              exact .inl rfl
          · exact .inl rfl

/-- The listener aborts, fails with the first error, or has accepted all that there is. -/
theorem handleListenerEvent_cases (listener : TcpListener) (tokenCounter : Nat)
    (serverConfig : ServerConfig) :
    handleListenerEvent listener tokenCounter serverConfig = .abort ∨
      (∃ error, acceptError listener.accepts = some error ∧
        handleListenerEvent listener tokenCounter serverConfig = .err (.ofIo error)) ∨
      (acceptError listener.accepts = none ∧ ∃ listener',
        handleListenerEvent listener tokenCounter serverConfig = .ok
          (.tcpListener listener' (tokenCounter + (accepted listener.accepts).length) serverConfig,
            admissions serverConfig tokenCounter (accepted listener.accepts))) := by
  have ended := acceptLoop_eq serverConfig tokenCounter [] listener.accepts
  rw [handleListenerEvent]
  cases looped : acceptLoop serverConfig tokenCounter [] listener.accepts with
  | mk outcome left =>
      rw [looped] at ended
      dsimp only at ended
      rcases ended with rfl | rfl
      · exact .inl rfl
      · cases failed : acceptError listener.accepts with
        | some error => exact .inr (.inl ⟨error, rfl, rfl⟩)
        | none => exact .inr (.inr ⟨rfl, _, rfl⟩)

/-- What the listener submits registers a connection or checks one, under a token that it
has given out. -/
theorem admissions_submit (serverConfig : ServerConfig) {tokenCounter : Nat}
    {accepted : List (TcpStream × Instant)} {response : HandleEventResponse}
    (member : response ∈ admissions serverConfig tokenCounter accepted) :
    ∃ token, tokenCounter < token ∧
      ((∃ connection, response.toCommand =
        .respond (.newSource token (.tcpStream connection) .readable)) ∨
        response.toCommand = .checkStreamTimeout token) := by
  induction accepted generalizing tokenCounter with
  | nil => cases member
  | cons connection accepted ih =>
      rcases List.mem_cons.mp member with rfl | member
      · exact ⟨_, Nat.lt_succ_self _, .inl ⟨_, rfl⟩⟩
      · rcases List.mem_cons.mp member with rfl | member
        · exact ⟨_, Nat.lt_succ_self _, .inr rfl⟩
        · obtain ⟨token, above, submits⟩ := ih member
          exact ⟨token, Nat.lt_of_succ_lt above, submits⟩

/-! ### The handlers -/

namespace EventSource

/-- What the handler of a source submits for an event of its token. -/
inductive Submits (token : Token) : EventSource → Command → Prop
  | adjust {connection : Connection} {command : Command} :
      command.Adjusts token → Submits token (.tcpStream connection) command
  | accept {listener : TcpListener} {tokenCounter : Nat} {serverConfig : ServerConfig}
      {given : Token} {connection : Connection} :
      tokenCounter < given → Submits token (.tcpListener listener tokenCounter serverConfig)
        (.respond (.newSource given (.tcpStream connection) .readable))
  | watch {listener : TcpListener} {tokenCounter : Nat} {serverConfig : ServerConfig}
      {given : Token} :
      tokenCounter < given → Submits token (.tcpListener listener tokenCounter serverConfig)
        (.checkStreamTimeout given)
  | shutdown {stdin : Stdin} {listenerToken : Token} :
      Submits token (.stdin stdin listenerToken) (.respond (.closeSource listenerToken))

/-- What handling an event leaves as it is: the kind of a source, and what it knows of other
tokens, but for the tokens that a listener has given out meanwhile. -/
inductive Remains : EventSource → EventSource → Prop
  | tcpStream {connection connection' : Connection} : connection.Advances connection' →
      Remains (.tcpStream connection) (.tcpStream connection')
  | tcpListener {listener listener' : TcpListener} {tokenCounter tokenCounter' : Nat}
      {serverConfig : ServerConfig} : tokenCounter ≤ tokenCounter' →
      Remains (.tcpListener listener tokenCounter serverConfig)
        (.tcpListener listener' tokenCounter' serverConfig)
  | stdin {stdin stdin' : Stdin} {listenerToken : Token} :
      Remains (.stdin stdin listenerToken) (.stdin stdin' listenerToken)

/-- What the handler of a source can do. -/
theorem handleEvent_submits {source newSource : EventSource} {event : Event}
    {world : World chrono} {token : Token} {responses : List HandleEventResponse}
    {calls : List Call}
    (returned : source.handleEvent event world token = (.ok (newSource, responses), calls)) :
    source.Remains newSource ∧
      ∀ response ∈ responses, source.Submits token response.toCommand := by
  cases source with
  | tcpStream connection =>
      obtain ⟨connection', rfl, advances, adjusts⟩ :=
        connection.returns_handleStreamEvent event world token newSource responses
          (congrArg Prod.fst returned)
      exact ⟨.tcpStream advances, fun response member => .adjust (adjusts response member)⟩
  | tcpListener listener tokenCounter serverConfig =>
      obtain ⟨listened, rfl⟩ := Prod.mk.inj returned
      rcases handleListenerEvent_cases listener tokenCounter serverConfig with
        aborted | ⟨error, -, failed⟩ | ⟨-, listener', accepting⟩
      · cases aborted.symm.trans listened
      · cases failed.symm.trans listened
      · cases accepting.symm.trans listened
        refine ⟨.tcpListener (Nat.le_add_right _ _), fun response member => ?_⟩
        obtain ⟨given, above, ⟨connection, same⟩ | same⟩ := admissions_submit serverConfig member
        · rw [same]
          exact .accept above
        · rw [same]
          exact .watch above
  | stdin input listenerToken =>
      obtain ⟨read, rfl⟩ := Prod.mk.inj returned
      obtain ⟨⟨input', rfl⟩, closes⟩ := handleStdinEvent_ok read
      refine ⟨.stdin, fun response member => ?_⟩
      rw [closes response member]
      exact .shutdown

/-- The token of a source tells what the source is: the standard input has 0, the listener 1,
and connections have the rest. -/
def HasRole (token : Token) : EventSource → Prop
  | .stdin _ listenerToken => token = 0 ∧ listenerToken = 1
  | .tcpListener _ tokenCounter _ => token = 1 ∧ 1 ≤ tokenCounter
  | .tcpStream _ => 1 < token

private theorem Remains.hasRole {source after : EventSource} (remains : source.Remains after)
    {token : Token} (role : source.HasRole token) : after.HasRole token := by
  cases remains with
  | tcpStream _ => exact role
  | tcpListener above => exact ⟨role.1, role.2.trans above⟩
  | stdin => exact role

end EventSource

namespace EventLoop

variable {loop mid after : EventLoop}

/-- Sources have the role that goes with their token. -/
def Roles (loop : EventLoop) : Prop :=
  ∀ token source, loop.Present token source → source.HasRole token

/-- Every step leaves the sources their roles. -/
theorem Roles.step (roles : loop.Roles) (fresh : loop.FreshTokens)
    (step : Step chrono loop after) : after.Roles := by
  intro token source present
  cases step with
  | execute execution => exact roles token source (execution.present fresh present)
  | @handle event world handled =>
      obtain ⟨before, found, ⟨newSource, responses, calls, returned, rfl⟩ |
        ⟨error, calls, -, rfl⟩⟩ := handleEvent_cases handled
      · obtain ⟨remains, submits⟩ := EventSource.handleEvent_submits returned
        have role := roles _ before (.inl found)
        rcases present with lookup | ⟨interests, member⟩
        · rcases HashMap.of_lookup_insert lookup with ⟨rfl, rfl⟩ | ⟨-, lookup⟩
          · exact remains.hasRole role
          · exact roles token source (.inl lookup)
        · rcases List.mem_append.mp member with pending | submitted
          · exact roles token source (.inr ⟨interests, pending⟩)
          · obtain ⟨response, member, same⟩ := List.mem_map.mp submitted
            have submitted := submits response member
            rw [same] at submitted
            cases submitted with
            | adjust adjusts => cases adjusts
            | accept above => exact Nat.lt_of_le_of_lt role.2 above
      · rcases present with lookup | ⟨interests, member⟩
        · rw [dropSource_eventSources] at lookup
          exact roles token source (.inl (HashMap.of_lookup_erase lookup).2)
        · rw [dropSource_commandQueue] at member
          exact roles token source (.inr ⟨interests, member⟩)

/-- Steps leave the sources their roles. -/
theorem Roles.steps (roles : loop.Roles) (fresh : loop.FreshTokens)
    (steps : Relation.ReflTransGen (Step chrono) loop after) : after.Roles :=
  (invariant_of_steps (fun loop => loop.FreshTokens ∧ loop.Roles) steps
    (fun _ _ kept step => ⟨kept.1.step step, kept.2.step kept.1 step⟩) ⟨fresh, roles⟩).2

/-- Sources have their roles in every run. -/
theorem roles_of_reachable (reachable : (eventLoopSystem chrono).Reachable loop) : loop.Roles := by
  refine (reachable.invariant (fun loop => loop.FreshTokens ∧ loop.Roles) ?_ ?_).2
  · rintro loop ⟨serverConfig, listener, stdin, rfl⟩
    refine ⟨freshTokens_selectMultiplex serverConfig listener stdin, ?_⟩
    rintro token source (found | ⟨interests, member⟩)
    · cases found
    · rcases List.mem_pair.mp member with same | same
      · cases same
        exact ⟨rfl, Nat.le_refl 1⟩
      · cases same
        exact ⟨rfl, rfl⟩
  · intro loop turn after kept step
    have steps := (During.of_next step).steps
    exact ⟨kept.1.during (.of_next step), kept.2.steps kept.1 steps⟩

/-- A handler names its own token, one that has not been given out, or that of the
listener. -/
theorem submits_token (fresh : loop.FreshTokens) (roles : loop.Roles) {token : Token}
    {source : EventSource} (found : loop.eventSources.lookup token = some source)
    {command : Command} (submits : source.Submits token command) :
    (1 < token ∧ command.token = token ∧ command.token ∈ loop.issued) ∨
      (token = 1 ∧ command.token ∉ loop.issued) ∨
      (token = 0 ∧ command.token = 1 ∧ command.token ∈ loop.issued) := by
  have role := roles token source (.inl found)
  have given : ∀ {listener tokenCounter serverConfig new},
      source = .tcpListener listener tokenCounter serverConfig → tokenCounter < new →
        new ∉ loop.issued := by
    rintro listener tokenCounter serverConfig new rfl above issued
    exact Nat.not_le_of_lt above ((fresh.counted token _ _ (.inl found) rfl).2 new issued)
  cases submits with
  | @adjust connection command adjusts =>
      have same : command.token = token := by cases adjusts <;> rfl
      refine .inl ⟨role, same, ?_⟩
      rw [same]
      exact fresh.present_issued (.inl found)
  | accept above => exact .inr (.inl ⟨role.1, given rfl above⟩)
  | watch above => exact .inr (.inl ⟨role.1, given rfl above⟩)
  | shutdown => exact .inr (.inr ⟨role.1, role.2, fresh.closable _ _ _ (.inl found) rfl⟩)

/-- The handlers of different sources name different tokens. -/
theorem submits_apart (fresh : loop.FreshTokens) (roles : loop.Roles) {token other : Token}
    (different : token ≠ other) {source source' : EventSource}
    (found : loop.eventSources.lookup token = some source)
    (found' : loop.eventSources.lookup other = some source') {command command' : Command}
    (submits : source.Submits token command) (submits' : source'.Submits other command') :
    command.token ≠ command'.token := by
  intro same
  rcases submits_token fresh roles found submits with
    ⟨above, own, issued⟩ | ⟨one, unissued⟩ | ⟨zero, listening, issued⟩
  · rcases submits_token fresh roles found' submits' with
      ⟨-, own', -⟩ | ⟨-, unissued'⟩ | ⟨-, listening', -⟩
    · exact different (own.symm.trans (same.trans own'))
    · exact unissued' (same ▸ issued)
    · exact absurd (own.symm.trans (same.trans listening')) (Nat.ne_of_gt above)
  · rcases submits_token fresh roles found' submits' with
      ⟨-, -, issued'⟩ | ⟨one', -⟩ | ⟨-, -, issued'⟩
    · exact unissued (same ▸ issued')
    · exact different (one.trans one'.symm)
    · exact unissued (same ▸ issued')
  · rcases submits_token fresh roles found' submits' with
      ⟨above', own', -⟩ | ⟨-, unissued'⟩ | ⟨zero', -, -⟩
    · exact absurd (own'.symm.trans (same.symm.trans listening)) (Nat.ne_of_gt above')
    · exact unissued' (same ▸ issued)
    · exact different (zero.trans zero'.symm)

/-! ### Between turns -/

/-- Only registrations and checks are pending. -/
def Settled (loop : EventLoop) : Prop :=
  ∀ command ∈ loop.commandQueue, (∃ token, command = .checkStreamTimeout token) ∨
    ∃ token source interests, command = .respond (.newSource token source interests)

/-- Between turns no close is pending. -/
theorem Settled.not_closing (settled : loop.Settled) (token : Token) :
    .respond (.closeSource token) ∉ loop.commandQueue := by
  intro member
  rcases settled _ member with ⟨_, same⟩ | ⟨_, _, _, same⟩ <;> cases same

/-- What remains to be submitted when commands have been executed are checks. -/
theorem checks_of_executeCommands {io : Nat → CommandIo}
    {commands newCommands result : List Command}
    (plain : ∀ command, .respond (.submitCommand command) ∉ commands)
    (checks : ∀ command ∈ newCommands, ∃ token, command = .checkStreamTimeout token)
    (executed : executeCommands io commands newCommands loop = (.ok result, after)) :
    ∀ command ∈ result, ∃ token, command = .checkStreamTimeout token := by
  induction commands generalizing io newCommands loop with
  | nil =>
      cases executed
      exact checks
  | cons command commands ih =>
      rw [executeCommands, Stateful.modify_bind_apply] at executed
      obtain ⟨newCommand, between, began, executed⟩ := Stateful.bind_apply_eq_ok_iff.mp executed
      refine ih (fun other member => plain other (List.mem_cons_of_mem _ member)) ?_ executed
      refine List.forall_mem_append.mpr ⟨checks, fun new member => ?_⟩
      have submits := congrArg Prod.snd (executeCommand_entry began).1
      rw [show newCommand = some new from Option.mem_toList.mp member] at submits
      rcases Command.check_of_effect submits.symm with check | rfl
      · exact ⟨_, check⟩
      · exact absurd List.mem_cons_self (plain new)

/-- Commands are settled after every turn. -/
theorem settled_of_next (fresh : loop.FreshTokens) {turn : Turn chrono}
    (taken : loop.next turn = (.ok (), after)) : after.Settled := by
  obtain ⟨events, handled, newCommands, executed, polled, began, ran, rfl⟩ := next_cases taken
  have freshHandled := fresh.during (.handled polled began)
  have checks := checks_of_executeCommands freshHandled.plain (List.forall_mem_nil _) ran
  intro command member
  rw [executeCommands_commandQueue rfl ran] at member
  exact .inl (checks command member)

/-- Between turns only registrations and checks are pending. -/
theorem settled_of_reachable (reachable : (eventLoopSystem chrono).Reachable loop) :
    loop.Settled := by
  refine (reachable.invariant (fun loop => loop.FreshTokens ∧ loop.Settled) ?_ ?_).2
  · rintro loop ⟨serverConfig, listener, stdin, rfl⟩
    refine ⟨freshTokens_selectMultiplex serverConfig listener stdin, fun command member => .inr ?_⟩
    rcases List.mem_pair.mp member with rfl | rfl <;> exact ⟨_, _, _, rfl⟩
  · intro loop turn after kept step
    exact ⟨kept.1.during (.of_next step), settled_of_next kept.1 step⟩

end EventLoop

end RustHttpServer
