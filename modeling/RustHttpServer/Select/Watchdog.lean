import RustHttpServer.Host.Site
import RustHttpServer.Select.Tokens

/-!
# The watchdog of a connection

Every connection that is still reading its request is checked by exactly one pending
command, which submits itself again until the connection is done reading or has reached
the age of `STREAM_TIMEOUT` (`watchdog`). That rests on the order of commands: a
connection is registered before it is checked for the first time.
-/

namespace RustHttpServer

open Foundation

variable {chrono : Chrono}

/-- A command does not register the source that an earlier one checks. -/
def Command.Precedes (first second : Command) : Prop :=
  ∀ token, first.checked? = some token → second.arrival? ≠ some token

/-- The token of the connection that has been checked. -/
def Act.checked? : Act → Option Token
  | .execute command _ _ => command.checked?
  | .call _ _ => none

namespace EventLoop

/-- The pending commands that check a connection. -/
def pendingChecks (loop : EventLoop) (token : Token) : Nat := (checks loop.commandQueue).count token

/-- A connection that is present and still reading is checked by one pending command, and
no pending command registers a source behind one that checks it. -/
structure Watched (loop : EventLoop) : Prop where
  reading : ∀ token connection, loop.Present token (.tcpStream connection) → connection.Reading →
    connection.Awaiting ∧ loop.pendingChecks token = 1
  once : ∀ token, loop.pendingChecks token ≤ 1
  ordered : loop.commandQueue.Pairwise Command.Precedes

variable {loop after : EventLoop}

/-- What is checked by the first command is not to be registered any more. -/
theorem Watched.not_arriving (watched : loop.Watched) {token : Token} {rest : List Command}
    (queued : loop.commandQueue = .checkStreamTimeout token :: rest) :
    token ∉ arrivals rest := by
  intro arriving
  obtain ⟨source, interests, member⟩ := mem_arrivals.mp arriving
  have ordered := watched.ordered
  rw [queued] at ordered
  exact (List.pairwise_cons.mp ordered).1 _ member token rfl rfl

/-- The first command, when it checks a connection, checks one that has been registered. -/
theorem Watched.arrived (watched : loop.Watched) (fresh : loop.FreshTokens) {token : Token}
    {rest : List Command} (queued : loop.commandQueue = .checkStreamTimeout token :: rest) :
    token ∈ arrived loop.log := by
  have given := fresh.named _ (queued ▸ List.mem_cons_self)
  rcases List.mem_append.mp given with there | arriving
  · exact there
  · rw [queued, arrivals_cons rfl] at arriving
    exact absurd arriving (watched.not_arriving queued)

/-- The watch is kept when no commands are submitted but ones that neither check nor
register, and no connection begins to read. -/
theorem Watched.of_unchecked (watched : loop.Watched) (commands : List Command)
    (unchecked : ∀ command ∈ commands, command.checked? = none)
    (noArrival : ∀ command ∈ commands, command.arrival? = none)
    (sources : ∀ token connection, after.eventSources.lookup token = some (.tcpStream connection) →
      connection.Reading → ∃ before, loop.eventSources.lookup token = some (.tcpStream before) ∧
        before.Reading ∧ (before.Awaiting → connection.Awaiting))
    (queue : after.commandQueue = loop.commandQueue ++ commands) : after.Watched := by
  have same : ∀ token, after.pendingChecks token = loop.pendingChecks token := fun token => by
    rw [pendingChecks, queue, checks_append, checks_eq_nil unchecked, List.append_nil,
      pendingChecks]
  constructor
  · intro token connection present reading
    rw [same]
    rcases present with found | ⟨interests, member⟩
    · obtain ⟨before, found, reading, awaiting⟩ := sources token connection found reading
      exact (watched.reading token before (.inl found) reading).imp_left awaiting
    · rw [queue] at member
      rcases List.mem_append.mp member with pending | submitted
      · exact watched.reading token connection (.inr ⟨interests, pending⟩) reading
      · cases noArrival _ submitted
  · intro token
    rw [same]
    exact watched.once token
  · rw [queue]
    refine List.pairwise_append.mpr ⟨watched.ordered, ?_, ?_⟩
    · apply List.pairwise_of_forall_mem_list
      intro first _ second later token _ arrival
      rw [noArrival second later] at arrival
      cases arrival
    · intro first _ second later token _ arrival
      rw [noArrival second later] at arrival
      cases arrival

/-- The watch is kept when a command is executed that does not check a connection. -/
theorem Watched.of_executed (watched : loop.Watched) {command : Command} {rest : List Command}
    (queued : loop.commandQueue = command :: rest) (unchecked : command.checked? = none)
    (present : ∀ token connection, after.Present token (.tcpStream connection) →
      loop.Present token (.tcpStream connection))
    (queue : after.commandQueue = rest) : after.Watched := by
  have same : ∀ token, after.pendingChecks token = loop.pendingChecks token := fun token => by
    rw [pendingChecks, pendingChecks, queue, queued, checks, checks,
      List.filterMap_cons_none unchecked]
  constructor
  · intro token connection there reading
    rw [same]
    exact watched.reading token connection (present token connection there) reading
  · intro token
    rw [same]
    exact watched.once token
  · have ordered := watched.ordered
    rw [queued] at ordered
    rw [queue]
    exact (List.pairwise_cons.mp ordered).2

/-- The watch is kept when the listener accepts a connection. -/
theorem Watched.of_accept (watched : loop.Watched) (fresh : loop.FreshTokens)
    {token tokenCounter : Nat} {listener listener' : TcpListener} {serverConfig : ServerConfig}
    {connection : Connection}
    (found : loop.eventSources.lookup token =
      some (.tcpListener listener tokenCounter serverConfig))
    (accepting : connection.connectionState = .read (.none []))
    (sources : after.eventSources = loop.eventSources.insert token
      (.tcpListener listener' (tokenCounter + 1) serverConfig))
    (queue : after.commandQueue = loop.commandQueue ++
      [.respond (.newSource (tokenCounter + 1) (.tcpStream connection) .readable),
        .checkStreamTimeout (tokenCounter + 1)]) : after.Watched := by
  have counted := (fresh.counted token _ tokenCounter (.inl found) rfl).2
  have unissued : tokenCounter + 1 ∉ loop.issued := fun given =>
    Nat.not_succ_le_self _ (counted _ given)
  have unnamed : ∀ command ∈ loop.commandQueue, command.token ≠ tokenCounter + 1 :=
    fun command member same => unissued (same ▸ fresh.named command member)
  have unchecked : tokenCounter + 1 ∉ checks loop.commandQueue := fun member =>
    unnamed _ (mem_checks.mp member) rfl
  have count : ∀ other, after.pendingChecks other =
      loop.pendingChecks other + [tokenCounter + 1].count other := fun other => by
    rw [pendingChecks, queue, checks_append, List.count_append, pendingChecks]
    rfl
  have same : ∀ {other}, other ≠ tokenCounter + 1 →
      after.pendingChecks other = loop.pendingChecks other := fun different => by
    rw [count, List.count_singleton, if_neg (by simpa using different.symm), Nat.add_zero]
  have one : after.pendingChecks (tokenCounter + 1) = 1 := by
    rw [count, pendingChecks, List.count_eq_zero_of_not_mem unchecked, List.count_singleton_self]
  constructor
  · intro other there present reading
    rcases present.of_accept fresh found sources queue with ⟨-, listening⟩ | ⟨rfl, new⟩ |
      ⟨-, present⟩
    · cases listening
    · cases new
      exact ⟨⟨_, accepting, rfl⟩, one⟩
    · rw [same fun equal => unissued (equal ▸ fresh.present_issued present)]
      exact watched.reading other there present reading
  · intro other
    by_cases new : other = tokenCounter + 1
    · rw [new, one]
    · rw [same new]
      exact watched.once other
  · rw [queue]
    refine List.pairwise_append.mpr ⟨watched.ordered, ?_, ?_⟩
    · apply List.pairwise_pair.mpr
      intro token checked
      cases checked
    · intro first pending second submitted token checked arrival
      rcases List.mem_pair.mp submitted with rfl | rfl
      · cases arrival
        exact unchecked (List.mem_filterMap.mpr ⟨first, pending, checked⟩)
      · cases arrival

private theorem count_checks_cons (token other : Token) (rest : List Command) :
    (checks (.checkStreamTimeout token :: rest)).count other =
      (checks rest).count other + [token].count other := by
  have split : checks (.checkStreamTimeout token :: rest) = [token] ++ checks rest := rfl
  rw [split, List.count_append, Nat.add_comm]

/-- The watch of a connection may end when it no longer reads. -/
theorem Watched.of_checked (watched : loop.Watched) {token : Token} {rest : List Command}
    (queued : loop.commandQueue = .checkStreamTimeout token :: rest)
    (sources : ∀ other connection, after.eventSources.lookup other = some (.tcpStream connection) →
      loop.eventSources.lookup other = some (.tcpStream connection))
    (done : ∀ connection, after.eventSources.lookup token = some (.tcpStream connection) →
      ¬connection.Reading)
    (queue : after.commandQueue = rest) : after.Watched := by
  have count : ∀ other, loop.pendingChecks other =
      after.pendingChecks other + [token].count other := fun other => by
    rw [pendingChecks, pendingChecks, queued, queue, count_checks_cons]
  constructor
  · intro other connection present reading
    by_cases same : other = token
    · subst same
      rcases present with found | ⟨interests, member⟩
      · exact absurd reading (done connection found)
      · rw [queue] at member
        exact absurd (mem_arrivals.mpr ⟨_, interests, member⟩) (watched.not_arriving queued)
    · have before : loop.Present other (.tcpStream connection) := by
        rcases present with found | ⟨interests, member⟩
        · exact .inl (sources other connection found)
        · exact .inr ⟨interests, queued ▸ List.mem_cons_of_mem _ (queue ▸ member)⟩
      have watch := watched.reading other connection before reading
      rw [count, List.count_singleton, if_neg (by simpa using Ne.symm same), Nat.add_zero] at watch
      exact watch
  · intro other
    exact le_of_add_le_left (count other ▸ watched.once other)
  · have ordered := watched.ordered
    rw [queued] at ordered
    rw [queue]
    exact (List.pairwise_cons.mp ordered).2

/-- A check that submits itself again keeps the watch. -/
theorem Watched.of_recheck (watched : loop.Watched) {token : Token} {rest : List Command}
    (queued : loop.commandQueue = .checkStreamTimeout token :: rest)
    (sources : after.eventSources = loop.eventSources)
    (queue : after.commandQueue = rest ++ [.checkStreamTimeout token]) : after.Watched := by
  have same : ∀ other, after.pendingChecks other = loop.pendingChecks other := fun other => by
    rw [pendingChecks, pendingChecks, queued, queue, checks_append, List.count_append,
      count_checks_cons token other rest]
    rfl
  constructor
  · intro other connection present reading
    rw [same]
    refine watched.reading other connection ?_ reading
    rcases present with found | ⟨interests, member⟩
    · exact .inl (sources ▸ found)
    · rw [queue] at member
      rcases List.mem_append.mp member with pending | submitted
      · exact .inr ⟨interests, queued ▸ List.mem_cons_of_mem _ pending⟩
      · cases List.mem_singleton.mp submitted
  · intro other
    rw [same]
    exact watched.once other
  · have ordered := watched.ordered
    rw [queued] at ordered
    rw [queue]
    refine List.pairwise_append.mpr
      ⟨(List.pairwise_cons.mp ordered).2, List.pairwise_singleton _ _, ?_⟩
    intro first _ second submitted other _ arrival
    rw [List.mem_singleton.mp submitted] at arrival
    cases arrival

/-- A connection that is found once an event has been handled was there before. -/
theorem Handling.connection (handling : Handling loop after) {token : Token}
    {connection : Connection}
    (found : after.eventSources.lookup token = some (.tcpStream connection)) :
    ∃ before, loop.eventSources.lookup token = some (.tcpStream before) ∧
      before.Advances connection := by
  have kept : ∀ {other : Token} {source : EventSource},
      (loop.eventSources.insert other source).lookup token = some (.tcpStream connection) →
      (∀ connection, source ≠ .tcpStream connection) →
      ∃ before, loop.eventSources.lookup token = some (.tcpStream before) ∧
        before.Advances connection := by
    intro other source found different
    rcases HashMap.of_lookup_insert found with ⟨-, same⟩ | ⟨-, found⟩
    · exact absurd same.symm (different connection)
    · exact ⟨connection, found, .refl connection⟩
  cases handling with
  | advance calls before advances adjusts =>
      rcases HashMap.of_lookup_insert found with ⟨rfl, same⟩ | ⟨-, found⟩
      · cases same
        exact ⟨_, before, advances⟩
      · exact ⟨connection, found, .refl connection⟩
  | accept listener' before accepting => exact kept found fun _ => EventSource.noConfusion
  | listen listener' before => exact kept found fun _ => EventSource.noConfusion
  | readLine stdin' before closing => exact kept found fun _ => EventSource.noConfusion
  | fail calls before =>
      rw [dropSource_eventSources] at found
      exact ⟨connection, (HashMap.of_lookup_erase found).2, .refl connection⟩

/-- The watch is kept while events are handled. -/
theorem Watched.handling (watched : loop.Watched) (fresh : loop.FreshTokens)
    (handling : Handling loop after) : after.Watched := by
  have sources : ∀ token connection,
      after.eventSources.lookup token = some (.tcpStream connection) → connection.Reading →
      ∃ before, loop.eventSources.lookup token = some (.tcpStream before) ∧ before.Reading ∧
        (before.Awaiting → connection.Awaiting) := by
    intro token connection found reading
    obtain ⟨before, found, advances⟩ := handling.connection found
    exact ⟨before, found, advances.reading reading, fun awaiting =>
      advances.awaiting awaiting reading⟩
  cases handling with
  | @advance token connection connection' commands calls found advances adjusts =>
      exact watched.of_unchecked commands
        (fun command member => (adjusts command member).checked?_eq)
        (fun command member => (adjusts command member).arrival?_eq) sources rfl
  | @accept token tokenCounter listener serverConfig listener' connection found accepting =>
      exact watched.of_accept fresh found accepting rfl rfl
  | @listen token tokenCounter listener serverConfig listener' found =>
      exact watched.of_unchecked [] (List.forall_mem_nil _) (List.forall_mem_nil _) sources
        (List.append_nil _).symm
  | @readLine token listenerToken stdin stdin' commands found closing =>
      refine watched.of_unchecked commands ?_ ?_ sources rfl
      · intro command member
        rw [closing command member]
        rfl
      · intro command member
        rw [closing command member]
        rfl
  | @fail token source calls found =>
      refine watched.of_unchecked [] (List.forall_mem_nil _) (List.forall_mem_nil _) sources ?_
      rw [dropSource_commandQueue, List.append_nil]

/-- The watch is kept while commands are executed. -/
theorem Watched.execution (watched : loop.Watched) (fresh : loop.FreshTokens)
    (execution : Execution loop after) : after.Watched := by
  cases execution with
  | @register token source interests rest now queued =>
      exact watched.of_executed queued rfl (fun _ _ => .of_register queued rfl rfl) rfl
  | @modify token source interests rest now queued found =>
      refine watched.of_executed queued rfl ?_ rfl
      exact fun other there present => present.imp_right fun ⟨interests, member⟩ =>
        ⟨interests, queued ▸ List.mem_cons_of_mem _ member⟩
  | @close token source command rest now queued found closes =>
      cases closes with
      | closeSource =>
          refine watched.of_executed queued rfl (fun other there present => ?_) rfl
          refine present.imp (fun found => (HashMap.of_lookup_erase found).2) ?_
          exact fun ⟨interests, member⟩ => ⟨interests, queued ▸ List.mem_cons_of_mem _ member⟩
      | checkStreamTimeout same awaiting expired =>
          refine watched.of_checked queued (fun _ _ found => (HashMap.of_lookup_erase found).2)
            (fun connection found => ?_) rfl
          exact absurd rfl (HashMap.of_lookup_erase found).1
  | @skip command rest now queued skips =>
      have present : ∀ other there, EventLoop.Present { loop with
          commandQueue := rest
          log := loop.log ++ [.execute command now none] } other there → loop.Present other there :=
        fun other there present => present.imp_right fun ⟨interests, member⟩ =>
          ⟨interests, queued ▸ List.mem_cons_of_mem _ member⟩
      cases skips with
      | modifyInterests absent =>
          exact watched.of_executed queued rfl (fun _ _ => present _ _) rfl
      | closeSource absent => exact watched.of_executed queued rfl (fun _ _ => present _ _) rfl
      | @checkStreamTimeout token idle =>
          refine watched.of_checked queued (fun _ _ found => found)
            (fun connection found reading => ?_) rfl
          exact idle connection found (watched.reading token connection (.inl found) reading).1
  | @recheck token connection rest now queued found awaiting young =>
      exact watched.of_recheck queued rfl rfl
  | @resubmit command rest now queued =>
      exact absurd (queued ▸ List.mem_cons_self) (fresh.plain command)

/-! ## What the log shows -/

/-- A connection has been registered before it was checked. -/
def RegisteredFirst (log : List Act) : Prop :=
  ∀ before act later, log = before ++ act :: later → ∀ token, act.checked? = some token →
    token ∈ arrived before

/-- Checks of what has been registered keep the order of the log. -/
theorem RegisteredFirst.append {log acts : List Act} (first : RegisteredFirst log)
    (registered : ∀ act ∈ acts, ∀ token, act.checked? = some token → token ∈ arrived log) :
    RegisteredFirst (log ++ acts) := by
  intro before act later split token checked
  rcases List.append_eq_append_iff.mp split with ⟨more, rfl, rest⟩ | ⟨more, rfl, rest⟩
  · rw [arrived_append]
    refine List.mem_append_left _ (registered act ?_ token checked)
    exact rest ▸ List.mem_append_right _ List.mem_cons_self
  · cases more with
    | nil =>
        rw [List.append_nil] at registered
        refine registered act ?_ token checked
        rw [List.nil_append] at rest
        exact rest ▸ List.mem_cons_self
    | cons other more =>
        cases rest
        exact first before act more rfl token checked

/-- What the log shows of the checks: a connection that still reads had not reached the age
of `STREAM_TIMEOUT`, and one that has been closed by a check had. -/
structure Attested (loop : EventLoop) : Prop where
  registeredFirst : RegisteredFirst loop.log
  young : ∀ token now closed connection,
    .execute (.checkStreamTimeout token) now closed ∈ loop.log →
    loop.eventSources.lookup token = some (.tcpStream connection) → connection.Reading →
    ¬connection.Expired now
  closed : ∀ token now source, .execute (.checkStreamTimeout token) now (some source) ∈ loop.log →
    ∃ connection, source = .tcpStream connection ∧ connection.Reading ∧ connection.Expired now

/-- A connection that has been checked has been registered. -/
theorem RegisteredFirst.arrived {log : List Act} (first : RegisteredFirst log) {token : Token}
    {now : Instant} {closed : Option EventSource}
    (member : .execute (.checkStreamTimeout token) now closed ∈ log) :
    token ∈ RustHttpServer.arrived log := by
  obtain ⟨before, later, split⟩ := List.append_of_mem member
  rw [split, arrived_append]
  exact List.mem_append_left _ (first before _ later split token rfl)

/-- What is added to the log shows the same, if it does so of itself and of the connections
that still read. -/
theorem Attested.of_log (attested : loop.Attested) (acts : List Act)
    (registered : ∀ act ∈ acts, ∀ token, act.checked? = some token → token ∈ arrived loop.log)
    (sources : ∀ token connection, after.eventSources.lookup token = some (.tcpStream connection) →
      connection.Reading →
      (∃ before, loop.eventSources.lookup token = some (.tcpStream before) ∧ before.Reading ∧
        connection.acceptTime = before.acceptTime) ∨ token ∉ arrived loop.log)
    (young : ∀ token now closed connection, .execute (.checkStreamTimeout token) now closed ∈ acts →
      after.eventSources.lookup token = some (.tcpStream connection) → connection.Reading →
      ¬connection.Expired now)
    (closed : ∀ token now source, .execute (.checkStreamTimeout token) now (some source) ∈ acts →
      ∃ connection, source = .tcpStream connection ∧ connection.Reading ∧ connection.Expired now)
    (log : after.log = loop.log ++ acts) : after.Attested := by
  constructor
  · rw [log]
    exact attested.registeredFirst.append registered
  · intro token now closed connection member found reading
    rw [log] at member
    rcases List.mem_append.mp member with earlier | new
    · rcases sources token connection found reading with ⟨before, found, reading, same⟩ | absent
      · have younger := attested.young token now closed before earlier found reading
        rw [Connection.Expired] at younger ⊢
        rw [same]
        exact younger
      · exact absurd (attested.registeredFirst.arrived earlier) absent
    · exact young token now closed connection new found reading
  · intro token now source member
    rw [log] at member
    rcases List.mem_append.mp member with earlier | new
    · exact attested.closed token now source earlier
    · exact closed token now source new

/-- Acts among which no connection is checked add nothing to what the log shows. -/
theorem Attested.of_unchecked (attested : loop.Attested) (acts : List Act)
    (unchecked : ∀ act ∈ acts, act.checked? = none)
    (sources : ∀ token connection, after.eventSources.lookup token = some (.tcpStream connection) →
      connection.Reading →
      (∃ before, loop.eventSources.lookup token = some (.tcpStream before) ∧ before.Reading ∧
        connection.acceptTime = before.acceptTime) ∨ token ∉ arrived loop.log)
    (log : after.log = loop.log ++ acts) : after.Attested := by
  refine attested.of_log acts ?_ sources ?_ ?_ log
  · intro act member token checked
    rw [unchecked act member] at checked
    cases checked
  · intro token now closed connection member
    cases unchecked _ member
  · intro token now source member
    cases unchecked _ member

private theorem checked?_calls {token : Token} {calls : List Call} :
    ∀ act ∈ calls.map (Act.call token), act.checked? = none := by
  intro act member
  obtain ⟨call, -, rfl⟩ := List.mem_map.mp member
  rfl

/-- No connection is checked while events are handled. -/
theorem Handling.log (handling : Handling loop after) :
    ∃ acts, after.log = loop.log ++ acts ∧ ∀ act ∈ acts, act.checked? = none := by
  cases handling with
  | advance calls found advances adjusts => exact ⟨_, rfl, checked?_calls⟩
  | accept listener' found accepting => exact ⟨[], (List.append_nil _).symm, List.forall_mem_nil _⟩
  | listen listener' found => exact ⟨[], (List.append_nil _).symm, List.forall_mem_nil _⟩
  | readLine stdin' found closing => exact ⟨[], (List.append_nil _).symm, List.forall_mem_nil _⟩
  | fail calls found => exact ⟨_, dropSource_log _ _, checked?_calls⟩

/-- The log goes on showing the same while events are handled. -/
theorem Attested.handling (attested : loop.Attested) (handling : Handling loop after) :
    after.Attested := by
  obtain ⟨acts, log, unchecked⟩ := handling.log
  refine attested.of_unchecked acts unchecked ?_ log
  intro token connection found reading
  obtain ⟨before, found, advances⟩ := handling.connection found
  exact .inl ⟨before, found, advances.reading reading, advances.acceptTime⟩

/-- The log goes on showing the same while commands are executed. -/
theorem Attested.execution (attested : loop.Attested) (watched : loop.Watched)
    (fresh : loop.FreshTokens) (execution : Execution loop after) : after.Attested := by
  cases execution with
  | @register token source interests rest now queued =>
      refine attested.of_unchecked [_] (List.forall_mem_singleton.mpr rfl) ?_ rfl
      intro other there stands reading
      rcases HashMap.of_lookup_insert stands with ⟨rfl, -⟩ | ⟨-, stands⟩
      · refine .inr (fresh.not_arrived (mem_arrivals.mpr ⟨source, interests, ?_⟩))
        exact queued ▸ List.mem_cons_self
      · exact .inl ⟨there, stands, reading, rfl⟩
  | @modify token source interests rest now queued found =>
      refine attested.of_unchecked [_] (List.forall_mem_singleton.mpr rfl) ?_ rfl
      exact fun other there stands reading => .inl ⟨there, stands, reading, rfl⟩
  | @close token source command rest now queued found closes =>
      have sources : ∀ other there,
          (loop.eventSources.erase token).lookup other = some (.tcpStream there) → there.Reading →
          (∃ before, loop.eventSources.lookup other = some (.tcpStream before) ∧ before.Reading ∧
            there.acceptTime = before.acceptTime) ∨ other ∉ arrived loop.log :=
        fun other there stands reading =>
          .inl ⟨there, (HashMap.of_lookup_erase stands).2, reading, rfl⟩
      cases closes with
      | closeSource =>
          exact attested.of_unchecked [_] (List.forall_mem_singleton.mpr rfl) sources rfl
      | @checkStreamTimeout connection same awaiting expired =>
          refine attested.of_log [_] ?_ sources ?_ ?_ rfl
          · refine List.forall_mem_singleton.mpr fun other checked => ?_
            cases checked
            exact watched.arrived fresh queued
          · intro other now closed there member stands
            cases List.mem_singleton.mp member
            exact absurd rfl (HashMap.of_lookup_erase stands).1
          · intro other now closed member
            cases List.mem_singleton.mp member
            obtain ⟨incrementalRequest, reading, -⟩ := awaiting
            exact ⟨connection, same, ⟨incrementalRequest, reading⟩, expired⟩
  | @skip command rest now queued skips =>
      have sources : ∀ other there,
          loop.eventSources.lookup other = some (.tcpStream there) → there.Reading →
          (∃ before, loop.eventSources.lookup other = some (.tcpStream before) ∧ before.Reading ∧
            there.acceptTime = before.acceptTime) ∨ other ∉ arrived loop.log :=
        fun other there stands reading => .inl ⟨there, stands, reading, rfl⟩
      cases skips with
      | modifyInterests absent =>
          exact attested.of_unchecked [_] (List.forall_mem_singleton.mpr rfl) sources rfl
      | closeSource absent =>
          exact attested.of_unchecked [_] (List.forall_mem_singleton.mpr rfl) sources rfl
      | @checkStreamTimeout token idle =>
          refine attested.of_log [_] ?_ sources ?_ ?_ rfl
          · refine List.forall_mem_singleton.mpr fun other checked => ?_
            cases checked
            exact watched.arrived fresh queued
          · intro other now closed there member stands reading
            cases List.mem_singleton.mp member
            exact absurd (watched.reading _ there (.inl stands) reading).1 (idle there stands)
          · intro other now closed member
            cases List.mem_singleton.mp member
  | @recheck token connection rest now queued found awaiting young =>
      refine attested.of_log [_] ?_ ?_ ?_ ?_ rfl
      · refine List.forall_mem_singleton.mpr fun other checked => ?_
        cases checked
        exact watched.arrived fresh queued
      · exact fun other there stands reading => .inl ⟨there, stands, reading, rfl⟩
      · intro other now closed there member stands reading
        cases List.mem_singleton.mp member
        rw [found] at stands
        cases stands
        exact young
      · intro other now closed member
        cases List.mem_singleton.mp member
  | @resubmit command rest now queued =>
      exact absurd (queued ▸ List.mem_cons_self) (fresh.plain command)

/-! ## Runs -/

/-- All of the invariants. -/
structure Guarded (loop : EventLoop) : Prop where
  fresh : loop.FreshTokens
  watched : loop.Watched
  attested : loop.Attested

/-- Every move keeps all of the invariants. -/
theorem Guarded.move (guarded : loop.Guarded) (move : Move loop after) : after.Guarded := by
  obtain ⟨fresh, watched, attested⟩ := guarded
  cases move with
  | handling handling =>
      exact ⟨fresh.handling handling, watched.handling fresh handling, attested.handling handling⟩
  | execution execution =>
      exact ⟨fresh.execution execution, watched.execution fresh execution,
        attested.execution watched fresh execution⟩

/-- The invariants hold of the loop at first. -/
private theorem guarded_selectMultiplex (serverConfig : ServerConfig) (listener : TcpListener)
    (stdin : Stdin) : (selectMultiplex serverConfig listener stdin).Guarded where
  fresh := freshTokens_selectMultiplex serverConfig listener stdin
  watched := {
    reading := by
      rintro token connection (found | ⟨interests, member⟩)
      · cases found
      · rcases List.mem_pair.mp member with same | same <;> cases same
    once := fun token => by
      have unchecked : checks (selectMultiplex serverConfig listener stdin).commandQueue = [] := rfl
      rw [pendingChecks, unchecked]
      exact Nat.zero_le 1
    ordered := List.pairwise_pair.mpr fun token checked => nomatch checked }
  attested := {
    registeredFirst := by
      intro before act later split
      exact absurd split.symm (List.append_ne_nil_of_right_ne_nil _ (List.cons_ne_nil _ _))
    young := fun _ _ _ _ member => absurd member List.not_mem_nil
    closed := fun _ _ _ member => absurd member List.not_mem_nil }

/-- The invariants hold of every reachable loop. -/
theorem guarded_of_reachable (reachable : (eventLoopSystem chrono).Reachable loop) :
    loop.Guarded := by
  refine reachable.invariant Guarded ?_ ?_
  · rintro loop ⟨serverConfig, listener, stdin, rfl⟩
    exact guarded_selectMultiplex serverConfig listener stdin
  · intro loop turn after guarded step
    exact invariant_of_steps Guarded (next_moves step) (fun _ _ guarded => guarded.move) guarded

/-- The commands that the execution of others submits have been executed. -/
theorem executeCommands_log {io : Nat → CommandIo} {commands newCommands result : List Command}
    (plain : ∀ command, .respond (.submitCommand command) ∉ commands)
    (executed : executeCommands io commands newCommands loop = (.ok result, after)) :
    ∃ acts, after.log = loop.log ++ acts ∧ ∀ command ∈ result,
      command ∈ newCommands ∨ ∃ now closed, .execute command now closed ∈ acts := by
  induction commands generalizing io newCommands loop with
  | nil =>
      cases executed
      exact ⟨[], (List.append_nil _).symm, fun command member => .inl member⟩
  | cons command commands ih =>
      rw [executeCommands, Stateful.modify_bind_apply] at executed
      obtain ⟨newCommand, between, began, executed⟩ := Stateful.bind_apply_eq_ok_iff.mp executed
      have executes := executes_of_executeCommand began
      obtain ⟨closed, first⟩ := executes.log
      obtain ⟨acts, log, submitted⟩ :=
        ih (fun command member => plain command (List.mem_cons_of_mem _ member)) executed
      refine ⟨.execute command (io 0).now closed :: acts, ?_, fun new member => ?_⟩
      · rw [log, first, List.append_assoc, List.singleton_append]
      · rcases submitted new member with earlier | ⟨now, closed, executed⟩
        · rcases List.mem_append.mp earlier with earlier | again
          · exact .inl earlier
          · rcases executes.submitted new (Option.mem_toList.mp again) with rfl | made
            · exact .inr ⟨_, closed, List.mem_cons_self⟩
            · exact absurd (made ▸ List.mem_cons_self) (plain new)
        · exact .inr ⟨now, closed, List.mem_cons_of_mem _ executed⟩

/-- A move adds to the log. -/
theorem Move.log_prefix (move : Move loop after) : loop.log <+: after.log := by
  cases move with
  | handling handling =>
      obtain ⟨acts, log, -⟩ := handling.log
      exact ⟨acts, log.symm⟩
  | execution execution => cases execution <;> exact List.prefix_append _ _

/-- Moves add to the log. -/
theorem Moves.log_prefix (moves : Moves loop after) : loop.log <+: after.log :=
  invariant_of_steps (loop.log <+: ·.log) moves
    (fun _ _ before move => before.trans move.log_prefix) List.prefix_rfl

/-- A connection that still reads after a turn has been checked in it. -/
theorem checked_of_next {turn : Turn chrono} (guarded : loop.Guarded)
    (taken : loop.next turn = (.ok (), after)) :
    ∃ acts, after.log = loop.log ++ acts ∧ ∀ token connection,
      after.eventSources.lookup token = some (.tcpStream connection) → connection.Reading →
      ∃ now closed, .execute (.checkStreamTimeout token) now closed ∈ acts := by
  have keep := fun {loop after : EventLoop} (moves : Moves loop after) =>
    invariant_of_steps Guarded moves fun _ _ guarded => guarded.move
  have watched := (keep (next_moves taken) guarded).watched
  obtain ⟨events, handled, newCommands, executed, -, began, ran, rfl⟩ := next_cases taken
  have handlings := Moves.of_handlings (moves_handleEvents began)
  have plain := (keep handlings guarded).fresh.plain
  obtain ⟨earlier, events⟩ := handlings.log_prefix
  obtain ⟨acts, log, submitted⟩ := executeCommands_log plain ran
  have emptied := (moves_executeCommands rfl ran).1
  refine ⟨earlier ++ acts, ?_, fun token connection found reading => ?_⟩
  · dsimp only
    rw [log, ← events, List.append_assoc]
  · have one := (watched.reading token connection (.inl found) reading).2
    rw [pendingChecks, emptied, List.nil_append] at one
    have pending := mem_checks.mp (List.count_pos_iff.mp (one ▸ Nat.one_pos))
    rcases submitted _ pending with none | ⟨now, closed, executed⟩
    · cases none
    · exact ⟨now, closed, List.mem_append_right _ executed⟩

end EventLoop

/-- **The watchdog.** At the start of every turn, a connection that still reads is checked
by one pending command, and no connection by more. A connection is checked only after it
has been registered, and no other is ever registered under its token. After a turn, a
connection that still reads has been checked in the turn, and never at the age of
`STREAM_TIMEOUT`; a connection that has been closed by a check had reached it. -/
theorem watchdog {loop : EventLoop} (reachable : (eventLoopSystem chrono).Reachable loop) :
    (∀ token connection, loop.eventSources.lookup token = some (.tcpStream connection) →
      connection.Reading → loop.pendingChecks token = 1) ∧
    (∀ token, loop.pendingChecks token ≤ 1) ∧
    (∀ before later token now closed,
      loop.log = before ++ .execute (.checkStreamTimeout token) now closed :: later →
      ∃ source interests now closed,
        .execute (.respond (.newSource token source interests)) now closed ∈ before) ∧
    loop.issued.Nodup ∧
    (∀ (turn : Turn chrono) after, loop.next turn = (.ok (), after) →
      ∃ acts, after.log = loop.log ++ acts ∧ ∀ token connection,
        after.eventSources.lookup token = some (.tcpStream connection) → connection.Reading →
        (∃ now closed, .execute (.checkStreamTimeout token) now closed ∈ acts) ∧
          ∀ now closed, .execute (.checkStreamTimeout token) now closed ∈ after.log →
            ¬connection.Expired now) ∧
    (∀ token now source, .execute (.checkStreamTimeout token) now (some source) ∈ loop.log →
      ∃ connection, source = .tcpStream connection ∧ connection.Reading ∧
        connection.Expired now) := by
  have guarded := EventLoop.guarded_of_reachable reachable
  refine ⟨fun token connection found reading => ?_, guarded.watched.once, ?_,
    guarded.fresh.distinct, ?_, guarded.attested.closed⟩
  · exact (guarded.watched.reading token connection (.inl found) reading).2
  · intro before later token now closed split
    exact mem_arrived.mp (guarded.attested.registeredFirst before _ later split token rfl)
  · intro turn after taken
    have attested := (EventLoop.guarded_of_reachable (reachable.step taken)).attested
    obtain ⟨acts, log, checked⟩ := EventLoop.checked_of_next guarded taken
    refine ⟨acts, log, fun token connection found reading => ?_⟩
    refine ⟨checked token connection found reading, fun now closed member => ?_⟩
    exact attested.young token now closed connection member found reading

/-- A connection that has just been accepted is checked by one pending command. -/
theorem watchdog_accepted :
    let stream : TcpStream := ⟨[], [], .ok "127.0.0.1:4000".toList⟩
    let connection : Connection := ⟨stream, .read (.none []), Site.host, 7⟩
    let listener : TcpListener := ⟨[.ok (stream, 7)]⟩
    let turn (events : List Event) : Turn gregorian :=
      ⟨.ok (events.map fun event => (event, Site.world)), fun _ => ⟨8, .ok ()⟩⟩
    let start := selectMultiplex Site.serverConfig listener ⟨[]⟩
    let registered := (start.next (turn [])).2
    let accepted := (registered.next (turn [⟨1, true, false⟩])).2
    accepted.eventSources.lookup 2 = some (.tcpStream connection) ∧
      accepted.pendingChecks 2 = 1 := by
  intro stream connection listener turn start registered accepted
  have reachable : (eventLoopSystem gregorian).Reachable accepted := by
    refine .step (.step (.start ⟨_, _, _, rfl⟩) (Prod.ext ?_ rfl)) (Prod.ext ?_ rfl)
    · decide +kernel
    · decide +kernel
  have found : accepted.eventSources.lookup 2 = some (.tcpStream connection) := rfl
  exact ⟨found, (watchdog reachable).1 2 connection found ⟨_, rfl⟩⟩

end RustHttpServer
