import RustHttpServer.Select.Moves

/-!
# Tokens

A token is given out when a command is submitted that is to register a source under it.
No token is given out twice (`EventLoop.FreshTokens`), so a command that names a token can
only act on the source it was submitted for.
-/

namespace RustHttpServer

open Foundation

variable {chrono : Chrono}

/-- The token under which a command is to register a source. -/
def Command.arrival? : Command → Option Token
  | .respond (.newSource token _ _) => some token
  | _ => none

/-- The token of the connection that a command is to check. -/
def Command.checked? : Command → Option Token
  | .checkStreamTimeout token => some token
  | _ => none

mutual

/-- The token that a command names. -/
def Command.token : Command → Token
  | .respond response => response.token
  | .checkStreamTimeout token => token

/-- The token that a response names. -/
def CommandResponse.token : CommandResponse → Token
  | .newSource token _ _ => token
  | .modifyInterests token _ => token
  | .closeSource token => token
  | .submitCommand command => command.token

end

/-- The tokens under which commands are to register sources. -/
def arrivals (commands : List Command) : List Token := commands.filterMap Command.arrival?

/-- The tokens of the connections that commands are to check. -/
def checks (commands : List Command) : List Token := commands.filterMap Command.checked?

/-- The token under which a source has been registered. -/
def Act.arrived? : Act → Option Token
  | .execute command _ _ => command.arrival?
  | .call _ _ => none

/-- The tokens under which sources have been registered. -/
def arrived (log : List Act) : List Token := log.filterMap Act.arrived?

section Lists

variable (commands more : List Command) (log acts : List Act)

/-- The tokens to be registered by more commands are those of both. -/
theorem arrivals_append : arrivals (commands ++ more) = arrivals commands ++ arrivals more :=
  List.filterMap_append

/-- The connections to be checked by more commands are those of both. -/
theorem checks_append : checks (commands ++ more) = checks commands ++ checks more :=
  List.filterMap_append

/-- The tokens that have been registered in all are those first, and then. -/
theorem arrived_append : arrived (log ++ acts) = arrived log ++ arrived acts :=
  List.filterMap_append

/-- Calls on a connection register nothing. -/
theorem arrived_calls (token : Token) (calls : List Call) :
    arrived (calls.map (.call token)) = [] := by
  apply List.filterMap_eq_nil_iff.mpr
  intro act member
  obtain ⟨call, -, rfl⟩ := List.mem_map.mp member
  rfl

variable {commands}

/-- Commands without a registration register no token. -/
theorem arrivals_eq_nil (none : ∀ command ∈ commands, command.arrival? = none) :
    arrivals commands = [] := List.filterMap_eq_nil_iff.mpr none

/-- Commands without a check check no connection. -/
theorem checks_eq_nil (none : ∀ command ∈ commands, command.checked? = none) :
    checks commands = [] := List.filterMap_eq_nil_iff.mpr none

end Lists

private theorem Command.arrival?_eq_some_iff {command : Command} {token : Token} :
    command.arrival? = some token ↔
      ∃ source interests, command = .respond (.newSource token source interests) := by
  constructor
  · intro arrival
    unfold Command.arrival? at arrival
    split at arrival
    · cases arrival
      exact ⟨_, _, rfl⟩
    · cases arrival
  · rintro ⟨source, interests, rfl⟩
    rfl

private theorem Command.checked?_eq_some_iff {command : Command} {token : Token} :
    command.checked? = some token ↔ command = .checkStreamTimeout token := by
  constructor
  · intro checked
    unfold Command.checked? at checked
    split at checked
    · cases checked
      rfl
    · cases checked
  · rintro rfl
    rfl

/-- A token is to be registered if a command does. -/
theorem mem_arrivals {commands : List Command} {token : Token} :
    token ∈ arrivals commands ↔
      ∃ source interests, .respond (.newSource token source interests) ∈ commands := by
  rw [arrivals, List.mem_filterMap]
  constructor
  · rintro ⟨command, member, arrival⟩
    obtain ⟨source, interests, rfl⟩ := Command.arrival?_eq_some_iff.mp arrival
    exact ⟨source, interests, member⟩
  · rintro ⟨source, interests, member⟩
    exact ⟨_, member, rfl⟩

/-- A token has been registered if a command did. -/
theorem mem_arrived {log : List Act} {token : Token} :
    token ∈ arrived log ↔ ∃ source interests now closed,
      .execute (.respond (.newSource token source interests)) now closed ∈ log := by
  rw [arrived, List.mem_filterMap]
  constructor
  · rintro ⟨act, member, arrival⟩
    cases act with
    | call other call => cases arrival
    | execute command now closed =>
        obtain ⟨source, interests, rfl⟩ := Command.arrival?_eq_some_iff.mp arrival
        exact ⟨source, interests, now, closed, member⟩
  · rintro ⟨source, interests, now, closed, member⟩
    exact ⟨_, member, rfl⟩

/-- A connection is to be checked if a command does. -/
theorem mem_checks {commands : List Command} {token : Token} :
    token ∈ checks commands ↔ .checkStreamTimeout token ∈ commands := by
  rw [checks, List.mem_filterMap]
  constructor
  · rintro ⟨command, member, checked⟩
    exact Command.checked?_eq_some_iff.mp checked ▸ member
  · exact fun member => ⟨_, member, rfl⟩

/-- Executing a command that is not to register a source registers none. -/
theorem arrived_execute {command : Command} (noArrival : command.arrival? = none) (log : List Act)
    (now : Instant) (closed : Option EventSource) :
    arrived (log ++ [.execute command now closed]) = arrived log := by
  have nothing : arrived [.execute command now closed] = [] :=
    List.filterMap_cons_none (noArrival : (Act.execute command now closed).arrived? = none)
  rw [arrived_append, nothing, List.append_nil]

/-- A command without a registration makes no difference to the tokens to be registered. -/
theorem arrivals_cons {command : Command} (noArrival : command.arrival? = none)
    (rest : List Command) : arrivals (command :: rest) = arrivals rest :=
  List.filterMap_cons_none noArrival

namespace Command

variable {token : Token} {source : EventSource} {now : Instant} {command : Command}
  {eventSources : HashMap Token EventSource}

/-- What adjusts a connection registers nothing. -/
theorem Adjusts.arrival?_eq (adjusts : command.Adjusts token) : command.arrival? = none := by
  cases adjusts <;> rfl

/-- What adjusts a connection checks nothing. -/
theorem Adjusts.checked?_eq (adjusts : command.Adjusts token) : command.checked? = none := by
  cases adjusts <;> rfl

/-- What closes a source registers nothing. -/
theorem Closes.arrival?_eq (closes : command.Closes token source now) :
    command.arrival? = none := by
  cases closes <;> rfl

/-- What has no effect registers nothing. -/
theorem Skips.arrival?_eq (skips : command.Skips eventSources) : command.arrival? = none := by
  cases skips <;> rfl

end Command

/-- The counter of a listener. -/
def EventSource.tokenCounter? : EventSource → Option Nat
  | .tcpListener _ tokenCounter _ => some tokenCounter
  | _ => none

/-- The token of the listener that the standard input can close. -/
def EventSource.listenerToken? : EventSource → Option Token
  | .stdin _ listenerToken => some listenerToken
  | _ => none

namespace EventLoop

/-- The tokens that have been given out. -/
def issued (loop : EventLoop) : List Token := arrived loop.log ++ arrivals loop.commandQueue

/-- A source is registered, or is to be registered by a pending command. -/
def Present (loop : EventLoop) (token : Token) (source : EventSource) : Prop :=
  loop.eventSources.lookup token = some source ∨
    ∃ interests, .respond (.newSource token source interests) ∈ loop.commandQueue

/-- Tokens are given out once and named afterwards. The listener counts them. -/
structure FreshTokens (loop : EventLoop) : Prop where
  distinct : loop.issued.Nodup
  live : ∀ token source, loop.eventSources.lookup token = some source → token ∈ arrived loop.log
  named : ∀ command ∈ loop.commandQueue, command.token ∈ loop.issued
  counted : ∀ token source tokenCounter, loop.Present token source →
    source.tokenCounter? = some tokenCounter →
      token = 1 ∧ ∀ given ∈ loop.issued, given ≤ tokenCounter
  closable : ∀ token source listenerToken, loop.Present token source →
    source.listenerToken? = some listenerToken → listenerToken ∈ loop.issued
  plain : ∀ command, .respond (.submitCommand command) ∉ loop.commandQueue

variable {loop after : EventLoop}

/-- Sources are under tokens that have been given out. -/
theorem FreshTokens.present_issued (fresh : loop.FreshTokens) {token : Token} {source : EventSource}
    (present : loop.Present token source) : token ∈ loop.issued := by
  rcases present with found | ⟨interests, member⟩
  · exact List.mem_append_left _ (fresh.live token source found)
  · exact List.mem_append_right _ (mem_arrivals.mpr ⟨source, interests, member⟩)

/-- A token for which a source is to be registered has not been registered before. -/
theorem FreshTokens.not_arrived (fresh : loop.FreshTokens) {token : Token}
    (arriving : token ∈ arrivals loop.commandQueue) : token ∉ arrived loop.log := by
  intro given
  have disjoint := (List.nodup_append.mp fresh.distinct).2.2
  exact disjoint token given token arriving rfl

/-- A source that is to be registered is not registered yet. -/
theorem FreshTokens.not_live (fresh : loop.FreshTokens) {token : Token}
    (arriving : token ∈ arrivals loop.commandQueue) : loop.eventSources.lookup token = none := by
  cases found : loop.eventSources.lookup token with
  | none => rfl
  | some source => exact absurd (fresh.live token source found) (fresh.not_arrived arriving)

/-- No token is given out by a move that leaves the sources as they are, but for the state
they are in, and submits commands for tokens that have been given out. -/
theorem FreshTokens.of_same_issued (fresh : loop.FreshTokens) (issued : after.issued = loop.issued)
    (arrived : arrived loop.log ⊆ arrived after.log)
    (sources : ∀ token source, after.eventSources.lookup token = some source →
      ∃ before, loop.eventSources.lookup token = some before ∧
        source.tokenCounter? = before.tokenCounter? ∧ source.listenerToken? = before.listenerToken?)
    (commands : ∀ command ∈ after.commandQueue, command ∈ loop.commandQueue ∨
      command.token ∈ loop.issued ∧ command.arrival? = none ∧
        ∀ submitted, command ≠ .respond (.submitCommand submitted)) : after.FreshTokens := by
  have present : ∀ token source, after.Present token source → ∃ before,
      loop.Present token before ∧ source.tokenCounter? = before.tokenCounter? ∧
        source.listenerToken? = before.listenerToken? := by
    rintro token source (found | ⟨interests, member⟩)
    · obtain ⟨before, found, same⟩ := sources token source found
      exact ⟨before, .inl found, same⟩
    · rcases commands _ member with pending | ⟨_, noArrival, _⟩
      · exact ⟨source, .inr ⟨interests, pending⟩, rfl, rfl⟩
      · cases noArrival
  constructor
  · rw [issued]
    exact fresh.distinct
  · intro token source found
    obtain ⟨before, found, -⟩ := sources token source found
    exact arrived (fresh.live token before found)
  · intro command member
    rw [issued]
    exact (commands command member).elim (fresh.named command) And.left
  · intro token source tokenCounter there counter
    obtain ⟨before, there, same, -⟩ := present token source there
    rw [issued]
    exact fresh.counted token before tokenCounter there (same ▸ counter)
  · intro token source listenerToken there closes
    obtain ⟨before, there, -, same⟩ := present token source there
    rw [issued]
    exact fresh.closable token before listenerToken there (same ▸ closes)
  · intro command member
    rcases commands _ member with pending | ⟨_, _, plain⟩
    · exact fresh.plain command pending
    · exact plain command rfl

/-- A source that is dropped had been taken out of the sources. -/
theorem dropSource_eventSources (token : Token) (source : EventSource) :
    (dropSource token source loop).eventSources = loop.eventSources := by
  cases source <;> rfl

/-- A source that is dropped leaves the commands as they are. -/
theorem dropSource_commandQueue (token : Token) (source : EventSource) :
    (dropSource token source loop).commandQueue = loop.commandQueue := by
  cases source <;> rfl

/-- A source that is dropped leaves the log as it is. -/
theorem dropSource_log (token : Token) (source : EventSource) :
    (dropSource token source loop).log = loop.log := by
  cases source <;> rfl

/-- After an accept the listener has counted, the connection is to be registered, and all
others were present before. -/
theorem Present.of_accept (fresh : loop.FreshTokens) {token tokenCounter : Nat}
    {listener listener' : TcpListener} {serverConfig : ServerConfig} {connection : Connection}
    (found : loop.eventSources.lookup token =
      some (.tcpListener listener tokenCounter serverConfig))
    (sources : after.eventSources = loop.eventSources.insert token
      (.tcpListener listener' (tokenCounter + 1) serverConfig))
    (queue : after.commandQueue = loop.commandQueue ++
      [.respond (.newSource (tokenCounter + 1) (.tcpStream connection) .readable),
        .checkStreamTimeout (tokenCounter + 1)])
    {other : Token} {source : EventSource} (present : after.Present other source) :
    (other = token ∧ source = .tcpListener listener' (tokenCounter + 1) serverConfig) ∨
      (other = tokenCounter + 1 ∧ source = .tcpStream connection) ∨
      other ≠ token ∧ loop.Present other source := by
  rcases present with there | ⟨interests, member⟩
  · rw [sources] at there
    rcases HashMap.of_lookup_insert there with listening | ⟨different, there⟩
    · exact .inl listening
    · exact .inr (.inr ⟨different, .inl there⟩)
  · rw [queue] at member
    rcases List.mem_append.mp member with pending | submitted
    · refine .inr (.inr ⟨?_, .inr ⟨interests, pending⟩⟩)
      rintro rfl
      have dead := fresh.not_live (mem_arrivals.mpr ⟨source, interests, pending⟩)
      rw [found] at dead
      cases dead
    · rcases List.mem_pair.mp submitted with new | new
      · cases new
        exact .inr (.inl ⟨rfl, rfl⟩)
      · cases new

/-- The listener gives out the next token. -/
theorem FreshTokens.of_accept (fresh : loop.FreshTokens) {token tokenCounter : Nat}
    {listener listener' : TcpListener} {serverConfig : ServerConfig} {connection : Connection}
    (found : loop.eventSources.lookup token =
      some (.tcpListener listener tokenCounter serverConfig))
    (sources : after.eventSources = loop.eventSources.insert token
      (.tcpListener listener' (tokenCounter + 1) serverConfig))
    (queue : after.commandQueue = loop.commandQueue ++
      [.respond (.newSource (tokenCounter + 1) (.tcpStream connection) .readable),
        .checkStreamTimeout (tokenCounter + 1)])
    (log : after.log = loop.log) : after.FreshTokens := by
  obtain ⟨one, counted⟩ := fresh.counted token _ tokenCounter (.inl found) rfl
  have issued : after.issued = loop.issued ++ [tokenCounter + 1] := by
    rw [EventLoop.issued, EventLoop.issued, log, queue, arrivals_append, List.append_assoc]
    rfl
  constructor
  · rw [issued]
    refine List.nodup_append.mpr ⟨fresh.distinct, List.nodup_singleton _, ?_⟩
    rintro given member _ last rfl
    have below := counted given member
    rw [List.mem_singleton.mp last] at below
    exact Nat.not_succ_le_self _ below
  · intro other source there
    rw [log]
    rw [sources] at there
    rcases HashMap.of_lookup_insert there with ⟨rfl, -⟩ | ⟨-, there⟩
    · exact fresh.live _ _ found
    · exact fresh.live other source there
  · intro command member
    rw [issued, List.mem_append]
    rw [queue] at member
    rcases List.mem_append.mp member with member | member
    · exact .inl (fresh.named command member)
    · refine .inr ?_
      rcases List.mem_pair.mp member with rfl | rfl <;> exact List.mem_singleton_self _
  · intro other source otherCounter there counter
    rw [issued]
    rcases there.of_accept fresh found sources queue with ⟨rfl, rfl⟩ | ⟨rfl, rfl⟩ |
      ⟨different, there⟩
    · cases counter
      refine ⟨one, fun given member => ?_⟩
      rcases List.mem_append.mp member with member | member
      · exact (counted given member).trans (Nat.le_succ _)
      · exact (List.mem_singleton.mp member).le
    · cases counter
    · have same := (fresh.counted other source otherCounter there counter).1
      exact absurd (same.trans one.symm) different
  · intro other source listenerToken there closes
    rw [issued]
    apply List.mem_append_left
    rcases there.of_accept fresh found sources queue with ⟨rfl, rfl⟩ | ⟨rfl, rfl⟩ | ⟨-, there⟩
    · cases closes
    · cases closes
    · exact fresh.closable other source listenerToken there closes
  · intro command member
    rw [queue] at member
    rcases List.mem_append.mp member with member | member
    · exact fresh.plain command member
    · rcases List.mem_pair.mp member with same | same <;> cases same

/-- A source that is registered was present before. -/
theorem Present.of_register {token : Token} {source : EventSource} {interests : Interest}
    {rest : List Command}
    (queued : loop.commandQueue = .respond (.newSource token source interests) :: rest)
    (sources : after.eventSources = loop.eventSources.insert token source)
    (queue : after.commandQueue = rest) {other : Token} {there : EventSource}
    (present : after.Present other there) : loop.Present other there := by
  rcases present with found | ⟨otherInterests, member⟩
  · rw [sources] at found
    rcases HashMap.of_lookup_insert found with ⟨rfl, rfl⟩ | ⟨-, found⟩
    · exact .inr ⟨interests, queued ▸ List.mem_cons_self⟩
    · exact .inl found
  · exact .inr ⟨otherInterests, queued ▸ List.mem_cons_of_mem _ (queue ▸ member)⟩

/-- Registering a source gives out no token. -/
theorem FreshTokens.of_register (fresh : loop.FreshTokens) {token : Token} {source : EventSource}
    {interests : Interest} {rest : List Command} {now : Instant}
    (queued : loop.commandQueue = .respond (.newSource token source interests) :: rest)
    (sources : after.eventSources = loop.eventSources.insert token source)
    (queue : after.commandQueue = rest)
    (log : after.log =
      loop.log ++ [.execute (.respond (.newSource token source interests)) now none]) :
    after.FreshTokens := by
  have issued : after.issued = loop.issued := by
    rw [EventLoop.issued, EventLoop.issued, log, queue, queued, arrived_append, List.append_assoc]
    rfl
  have pending : ∀ command ∈ after.commandQueue, command ∈ loop.commandQueue :=
    fun command member => queued ▸ List.mem_cons_of_mem _ (queue ▸ member)
  constructor
  · rw [issued]
    exact fresh.distinct
  · intro other there found
    rw [log, arrived_append, List.mem_append]
    rw [sources] at found
    rcases HashMap.of_lookup_insert found with ⟨rfl, rfl⟩ | ⟨-, found⟩
    · exact .inr List.mem_cons_self
    · exact .inl (fresh.live other there found)
  · intro command member
    rw [issued]
    exact fresh.named command (pending command member)
  · intro other there tokenCounter present counter
    rw [issued]
    exact fresh.counted other there tokenCounter (.of_register queued sources queue present) counter
  · intro other there listenerToken present closes
    rw [issued]
    exact fresh.closable other there listenerToken
      (.of_register queued sources queue present) closes
  · exact fun command member => fresh.plain command (pending _ member)

/-- Tokens stay fresh while events are handled. -/
theorem FreshTokens.handling (fresh : loop.FreshTokens) (handling : Handling loop after) :
    after.FreshTokens := by
  cases handling with
  | @advance token connection connection' commands calls found advances adjusts =>
      have given := List.mem_append_left (arrivals loop.commandQueue) (fresh.live token _ found)
      have noArrivals := arrivals_eq_nil fun command member => (adjusts command member).arrival?_eq
      refine fresh.of_same_issued ?_ ?_ ?_ fun command member => ?_
      · rw [issued, issued, arrived_append, arrived_calls, List.append_nil, arrivals_append,
          noArrivals, List.append_nil]
      · rw [arrived_append]
        exact List.subset_append_left _ _
      · intro other source there
        rcases HashMap.of_lookup_insert there with ⟨rfl, rfl⟩ | ⟨_, there⟩
        · exact ⟨_, found, rfl, rfl⟩
        · exact ⟨source, there, rfl, rfl⟩
      · refine (List.mem_append.mp member).imp_right fun member => ?_
        cases adjusts command member <;> exact ⟨given, rfl, nofun⟩
  | @accept token tokenCounter listener serverConfig listener' connection found accepting =>
      exact fresh.of_accept found rfl rfl rfl
  | @listen token tokenCounter listener serverConfig listener' found =>
      refine fresh.of_same_issued rfl (List.Subset.refl _) ?_ fun command member => .inl member
      intro other source there
      rcases HashMap.of_lookup_insert there with ⟨rfl, rfl⟩ | ⟨_, there⟩
      · exact ⟨_, found, rfl, rfl⟩
      · exact ⟨source, there, rfl, rfl⟩
  | @readLine token listenerToken stdin stdin' commands found closing =>
      have given := fresh.closable token _ listenerToken (.inl found) rfl
      have noArrivals : arrivals commands = [] := arrivals_eq_nil fun command member => by
        rw [closing command member]
        rfl
      refine fresh.of_same_issued ?_ (List.Subset.refl _) ?_ fun command member => ?_
      · rw [issued, issued, arrivals_append, noArrivals, List.append_nil]
      · intro other source there
        rcases HashMap.of_lookup_insert there with ⟨rfl, rfl⟩ | ⟨_, there⟩
        · exact ⟨_, found, rfl, rfl⟩
        · exact ⟨source, there, rfl, rfl⟩
      · refine (List.mem_append.mp member).imp_right fun member => ?_
        rw [closing command member]
        exact ⟨given, rfl, nofun⟩
  | @fail token source calls found =>
      refine fresh.of_same_issued ?_ ?_ ?_ fun command member => .inl ?_
      · rw [issued, dropSource_log, dropSource_commandQueue, arrived_append, arrived_calls,
          List.append_nil, issued]
      · rw [dropSource_log, arrived_append]
        exact List.subset_append_left _ _
      · intro other before there
        rw [dropSource_eventSources] at there
        exact ⟨before, (HashMap.of_lookup_erase there).2, rfl, rfl⟩
      · rwa [dropSource_commandQueue] at member

/-- Tokens stay fresh while commands are executed. -/
theorem FreshTokens.execution (fresh : loop.FreshTokens) (execution : Execution loop after) :
    after.FreshTokens := by
  cases execution with
  | @register token source interests rest now queued =>
      exact fresh.of_register queued rfl rfl rfl
  | @modify token source interests rest now queued found =>
      refine fresh.of_same_issued ?_ ?_ ?_ fun command member => .inl ?_
      · rw [issued, issued, arrived_execute rfl, queued, arrivals_cons rfl]
      · rw [arrived_execute rfl]
        exact List.Subset.refl _
      · exact fun other before there => ⟨before, there, rfl, rfl⟩
      · exact queued ▸ List.mem_cons_of_mem _ member
  | @close token source command rest now queued found closes =>
      refine fresh.of_same_issued ?_ ?_ ?_ fun command member => .inl ?_
      · rw [issued, issued, arrived_execute closes.arrival?_eq, queued,
          arrivals_cons closes.arrival?_eq]
      · rw [arrived_execute closes.arrival?_eq]
        exact List.Subset.refl _
      · exact fun other before there => ⟨before, (HashMap.of_lookup_erase there).2, rfl, rfl⟩
      · exact queued ▸ List.mem_cons_of_mem _ member
  | @skip command rest now queued skips =>
      refine fresh.of_same_issued ?_ ?_ ?_ fun command member => .inl ?_
      · rw [issued, issued, arrived_execute skips.arrival?_eq, queued,
          arrivals_cons skips.arrival?_eq]
      · rw [arrived_execute skips.arrival?_eq]
        exact List.Subset.refl _
      · exact fun other before there => ⟨before, there, rfl, rfl⟩
      · exact queued ▸ List.mem_cons_of_mem _ member
  | @recheck token connection rest now queued found awaiting young =>
      refine fresh.of_same_issued ?_ ?_ ?_ fun command member => .inl ?_
      · rw [issued, issued, arrived_execute rfl, queued, arrivals_append, arrivals_cons rfl]
        exact congrArg (arrived loop.log ++ ·) (List.append_nil _)
      · rw [arrived_execute rfl]
        exact List.Subset.refl _
      · exact fun other before there => ⟨before, there, rfl, rfl⟩
      · rw [queued]
        rcases List.mem_append.mp member with member | member
        · exact List.mem_cons_of_mem _ member
        · exact List.mem_singleton.mp member ▸ List.mem_cons_self
  | @resubmit command rest now queued =>
      exact absurd (queued ▸ List.mem_cons_self) (fresh.plain command)

/-- Every move leaves the tokens fresh. -/
theorem FreshTokens.move (fresh : loop.FreshTokens) (move : Move loop after) :
    after.FreshTokens := by
  cases move with
  | handling handling => exact fresh.handling handling
  | execution execution => exact fresh.execution execution

/-- The tokens of `select_multiplex` are fresh. -/
theorem freshTokens_selectMultiplex (serverConfig : ServerConfig) (listener : TcpListener)
    (stdin : Stdin) : (selectMultiplex serverConfig listener stdin).FreshTokens where
  distinct := by
    change [1, 0].Nodup
    decide
  live token source found := by cases found
  named command member := by
    change command.token ∈ [1, 0]
    rcases List.mem_pair.mp member with rfl | rfl
    · exact List.mem_cons_self
    · exact List.mem_cons_of_mem _ List.mem_cons_self
  counted token source tokenCounter present counter := by
    change token = 1 ∧ ∀ given ∈ [1, 0], given ≤ tokenCounter
    rcases present with found | ⟨interests, member⟩
    · cases found
    · rcases List.mem_pair.mp member with same | same
      · cases same
        cases counter
        decide
      · cases same
        cases counter
  closable token source listenerToken present closes := by
    change listenerToken ∈ [1, 0]
    rcases present with found | ⟨interests, member⟩
    · cases found
    · rcases List.mem_pair.mp member with same | same
      · cases same
        cases closes
      · cases same
        cases closes
        exact List.mem_cons_self
  plain command member := by
    rcases List.mem_pair.mp member with same | same <;> cases same

/-- Tokens are fresh in every run. -/
theorem freshTokens_of_reachable (reachable : (eventLoopSystem chrono).Reachable loop) :
    loop.FreshTokens := by
  refine reachable.invariant FreshTokens ?_ ?_
  · rintro loop ⟨serverConfig, listener, stdin, rfl⟩
    exact freshTokens_selectMultiplex serverConfig listener stdin
  · intro loop turn after fresh step
    exact invariant_of_steps FreshTokens (next_moves step) (fun _ _ fresh => fresh.move) fresh

end EventLoop

end RustHttpServer
