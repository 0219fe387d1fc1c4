import RustHttpServer.Foundation.Transition
import RustHttpServer.Host
import RustHttpServer.Http.Request

/-!
# The worker pool

The dispatcher of `main.rs` and the workers of `pool.rs` run in threads of their
own and share nothing but channels: one on which every worker announces that it is
ready, and one for each worker on which it is sent streams. A step of the system
is a step of one thread, up to its next channel operation; a run is any
interleaving of them (`poolSystem`).

Before a worker announces itself for the first time, it makes its handler by `Host::new`, and is
dead if this panics. It has shared nothing by then, so a worker is alive or dead from the start.
Streams are numbered in the order in which they are accepted.
-/

namespace RustHttpServer

open Foundation

namespace Pool

/-- A stream and the `overloaded` flag sent with it. -/
structure Task where
  stream : Nat
  overloaded : Bool
  deriving DecidableEq, Repr

/-- Where a worker stands in `do_work`. -/
inductive Phase
  /-- Before `send_ready.send(thread_num)`. -/
  | announcing
  /-- In `recv_stream.recv()`. -/
  | waiting
  /-- In `seq::process`. -/
  | processing (task : Task)
  /-- The thread has panicked. -/
  | dead
  deriving DecidableEq, Repr

/-- A worker, and the channel on which it receives streams. -/
structure Worker where
  phase : Phase
  queue : List Task
  deriving DecidableEq, Repr

/-- Where the dispatcher stands in `thread_pool`. An accepted stream is one that
`listener.incoming()` yielded, or the error it yielded instead. -/
inductive Dispatcher
  /-- In `listener.incoming()`. -/
  | accepting
  /-- In `recv_ready.recv()`. -/
  | receiving (stream : Except IoError Nat)
  /-- Among the iterations over `recv_ready.try_iter()`. -/
  | draining (stream : Except IoError Nat) (threadNum : Nat) (ready : List Nat)
  /-- Among the iterations over `ready.drain(..)`. -/
  | resending (stream : Except IoError Nat) (threadNum : Nat) (overloaded : Bool)
      (ready : List Nat)

/-- The thread numbers that the dispatcher has taken from the ready channel and not
put back. -/
def Dispatcher.held : Dispatcher → List Nat
  | .accepting => []
  | .receiving _ => []
  | .draining _ threadNum ready => threadNum :: ready
  | .resending _ threadNum _ ready => threadNum :: ready

/-- The stream that the dispatcher is to hand over. -/
def Dispatcher.stream : Dispatcher → Option Nat
  | .accepting => none
  | .receiving stream => stream.toOption
  | .draining stream _ _ => stream.toOption
  | .resending stream _ _ _ => stream.toOption

/-- How a call of `seq::process` ends. -/
inductive Result
  | ok
  | err
  | abort
  deriving DecidableEq, Repr

end Pool

/-- The threads of the pool and their channels. -/
structure Pool where
  /-- The length of `threads`. -/
  size : Nat
  worker : Nat → Pool.Worker
  dispatcher : Pool.Dispatcher
  /-- The ready channel. -/
  ready : List Nat
  /-- How many streams have been accepted. -/
  accepted : Nat
  /-- What has been sent to workers so far, with the number of the worker. -/
  handed : List (Nat × Pool.Task)

namespace Pool

/-- The pool with one worker changed. -/
def setWorker (pool : Pool) (threadNum : Nat) (worker : Worker) : Pool :=
  { pool with worker := Function.update pool.worker threadNum worker }

/-- `threads.get(thread_num)` -/
def thread? (pool : Pool) (threadNum : Nat) : Option Worker :=
  if threadNum < pool.size then some (pool.worker threadNum) else none

/-- There are threads with numbers up to the size. -/
theorem thread?_of_lt {pool : Pool} {threadNum : Nat} (inside : threadNum < pool.size) :
    pool.thread? threadNum = some (pool.worker threadNum) := if_pos inside

/-- There are no threads with other numbers. -/
theorem thread?_of_le {pool : Pool} {threadNum : Nat} (outside : pool.size ≤ threadNum) :
    pool.thread? threadNum = none := if_neg (Nat.not_lt_of_le outside)

/-- The pool that `spawn_threads` sets up with `num_threads` threads, of which some are `alive`:
their `Host::new` does not panic. -/
def spawned (numThreads : Nat) (alive : Nat → Bool) : Pool where
  size := numThreads
  worker threadNum := ⟨if alive threadNum then .announcing else .dead, []⟩
  dispatcher := .accepting
  ready := []
  accepted := 0
  handed := []

/-- `spawn_threads`, with the first line of every `worker` -/
def spawnThreads (serverConfig : ServerConfig) : Outcome Error Pool := do
  let numThreads ← (match serverConfig.directives.lookup .threadPoolSize with
    | some size => usizeFromStr size
    | none => .ok 1)
  return spawned numThreads fun _ => (Host.new serverConfig : Outcome Error Host).isOk

/-- The end of `pass_to_worker`: `threads.get(thread_num)`, then `stream?`, then the
send, which fails when the worker has dropped its end of the channel. -/
def handOver (pool : Pool) (stream : Except IoError Nat) (threadNum : Nat) (overloaded : Bool) :
    Pool :=
  match pool.thread? threadNum, stream with
  | none, _ => { pool with dispatcher := .accepting }
  | some _, .error _ => { pool with dispatcher := .accepting }
  | some worker, .ok stream =>
      if worker.phase = .dead then { pool with dispatcher := .accepting }
      else
        { pool.setWorker threadNum
            { worker with queue := worker.queue ++ [⟨stream, overloaded⟩] } with
          dispatcher := .accepting
          handed := pool.handed ++ [(threadNum, ⟨stream, overloaded⟩)] }

/-- What a thread does next. -/
inductive Action
  /-- `listener.incoming()` yields a stream or an error. -/
  | accept (outcome : Except IoError Unit)
  /-- The dispatcher takes a step in `pass_to_worker`. -/
  | dispatch
  /-- A worker announces itself. -/
  | announce (threadNum : Nat)
  /-- A worker receives a stream. -/
  | receive (threadNum : Nat)
  /-- A worker's call of `seq::process` ends. -/
  | finish (threadNum : Nat) (result : Result)

/-- A step of the dispatcher in `pass_to_worker`, when it is not blocked. -/
def dispatch? (pool : Pool) : Option Pool :=
  match pool.dispatcher with
  | .accepting => none
  | .receiving stream =>
      match pool.ready with
      | [] => none
      | threadNum :: ready =>
          some { pool with ready := ready, dispatcher := .draining stream threadNum [] }
  | .draining stream threadNum drained =>
      match pool.ready with
      | [] =>
          let overloaded := drained.length == 0
          some { pool with dispatcher := .resending stream threadNum overloaded drained }
      | thread :: ready =>
          some { pool with
            ready := ready
            dispatcher := .draining stream threadNum (drained ++ [thread]) }
  | .resending stream threadNum overloaded drained =>
      match drained with
      | [] => some (pool.handOver stream threadNum overloaded)
      | thread :: drained =>
          some { pool with
            ready := pool.ready ++ [thread]
            dispatcher := .resending stream threadNum overloaded drained }

/-- A step of the worker with a number, from its phase. -/
def work? (pool : Pool) (threadNum : Nat) (step : Worker → Option Worker) : Option Pool :=
  (pool.thread? threadNum).bind fun worker => (step worker).map (pool.setWorker threadNum)

/-- One step of one thread. -/
def step? (pool : Pool) : Action → Option Pool
  | .accept outcome =>
      match pool.dispatcher with
      | .accepting =>
          match outcome with
          | .ok () =>
              some { pool with
                dispatcher := .receiving (.ok pool.accepted)
                accepted := pool.accepted + 1 }
          | .error error => some { pool with dispatcher := .receiving (.error error) }
      | _ => none
  | .dispatch => pool.dispatch?
  | .announce threadNum =>
      (pool.work? threadNum fun worker =>
        match worker.phase with
        | .announcing => some { worker with phase := .waiting }
        | _ => none).map fun pool => { pool with ready := pool.ready ++ [threadNum] }
  | .receive threadNum =>
      pool.work? threadNum fun worker =>
        match worker.phase, worker.queue with
        | .waiting, task :: queue => some ⟨.processing task, queue⟩
        | _, _ => none
  | .finish threadNum result =>
      pool.work? threadNum fun worker =>
        match worker.phase, result with
        | .processing _, .ok => some { worker with phase := .announcing }
        | .processing _, .err => some { worker with phase := .announcing }
        | .processing _, .abort => some ⟨.dead, []⟩
        | _, _ => none

end Pool

/-- The runs of the pool with a number of workers, some of which are alive. -/
def poolSystem (numThreads : Nat) (alive : Nat → Bool) : TransitionSystem Pool Pool.Action :=
  .ofStep (Pool.spawned numThreads alive) Pool.step?

end RustHttpServer
