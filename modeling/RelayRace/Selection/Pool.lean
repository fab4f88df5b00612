import RelayRace.Probe.Worker

/-!
# The worker pool

A pool has a fixed number of tasks. Each takes the next job off one queue, works
on it until it has an outcome, sends the outcome, and looks for the next job;
when the queue is empty it ends. Outcomes wait in a channel until they are
received, in the order in which they were sent.

The pool moves by events, and which event comes next is left open: every
interleaving of the tasks is some list of events. A job is in exactly one place
at any time: in the queue, with a running worker, in the channel, or received.
-/

namespace RelayRace

/-- A worker pool. -/
structure Pool where
  /-- The jobs that nobody has taken. -/
  queue : List Job := []
  /-- How many tasks are about to look for a job. -/
  free : Nat := 0
  /-- The workers at work, in the order in which they began. -/
  running : List Attempt := []
  /-- The outcomes that were sent and not yet received. -/
  channel : List Outcome := []
  /-- Whether a shared failure was told. -/
  told : Bool := false
  deriving DecidableEq, Repr

/-- What can happen in a pool by itself. -/
inductive PoolEvent where
  /-- A free task looks for a job. -/
  | take
  /-- A worker looks at its signal. -/
  | poll (index : Nat)
  /-- A worker gets the answer that it waits for. -/
  | answer (index : Nat) (given : Answer)
  /-- A worker crashes. -/
  | crash (index : Nat)

namespace Pool

/-- How many tasks a pool has: as many as it is wide, but no more than there are
jobs, and at least one if there are any. -/
def taskCount (size : Nat) (jobs : List Job) : Nat := min (max size 1) jobs.length

/-- A pool that is given its jobs. No task has run yet. -/
def start (size : Nat) (jobs : List Job) : Pool :=
  { queue := jobs, free := taskCount size jobs }

/-- The worker of a dispatch index. -/
def worker? (pool : Pool) (index : Nat) : Option Attempt :=
  pool.running.find? fun a => a.index == index

/-- The running workers but the one of an index. -/
def without (pool : Pool) (index : Nat) : List Attempt :=
  pool.running.eraseP fun a => a.index == index

/-- The running workers with one of them gone on. -/
def replace (pool : Pool) (a : Attempt) : List Attempt :=
  pool.running.map fun b => if b.index = a.index then a else b

/-- A task takes the first job, or ends when there is none. -/
def take (ctx : RoundContext) (m : Moment) (pool : Pool) : Option (Pool × List Act) :=
  if pool.free = 0 then none
  else
    match pool.queue with
    | [] => some ({ pool with free := pool.free - 1 }, [])
    | job :: rest =>
        let turn := Worker.start ctx m pool.told job
        match turn.standing with
        | .running a =>
            some ({ pool with
              queue := rest
              free := pool.free - 1
              running := pool.running ++ [a]
              told := turn.told }, turn.acts)
        | .ended outcome =>
            some ({ pool with
              queue := rest
              channel := pool.channel ++ [outcome]
              told := turn.told }, turn.acts)

/-- A running worker's turn: it goes on, or its outcome is sent and its task is
free again. -/
def apply (pool : Pool) (index : Nat) (turn : Turn) : Pool × List Act :=
  match turn.standing with
  | .running a => ({ pool with running := pool.replace a, told := turn.told }, turn.acts)
  | .ended outcome =>
      ({ pool with
        running := pool.without index
        free := pool.free + 1
        channel := pool.channel ++ [outcome]
        told := turn.told }, turn.acts)

/-- One event; none when it cannot happen now. -/
def step (ctx : RoundContext) (m : Moment) (pool : Pool) (event : PoolEvent) :
    Option (Pool × List Act) :=
  match event with
  | .take => pool.take ctx m
  | .poll index =>
      match pool.worker? index with
      | some a =>
          if a.due ≤ m.now then some (pool.apply index (Worker.poll ctx m pool.told a)) else none
      | none => none
  | .answer index given =>
      match pool.worker? index with
      | some a => some (pool.apply index (Worker.answer ctx m pool.told a given))
      | none => none
  | .crash index =>
      match pool.worker? index with
      | some a => some (pool.apply index (Worker.crash m pool.told a))
      | none => none

/-! ## The receiving side -/

/-- Takes the next outcome off the channel. -/
def receive (pool : Pool) : Option (Outcome × Pool) :=
  match pool.channel with
  | [] => none
  | outcome :: rest => some (outcome, { pool with channel := rest })

/-- Whether no outcome is there and none can come any more. -/
def isExhausted (pool : Pool) : Bool :=
  pool.free == 0 && pool.running.isEmpty && pool.channel.isEmpty

/-- Drops the jobs that nobody has taken, and tells their number. -/
def discard (pool : Pool) : Nat × Pool := (pool.queue.length, { pool with queue := [] })

/-- Ends all tasks by force. What was sent stays in the channel. -/
def kill (pool : Pool) : Pool × List Act :=
  ({ pool with queue := [], free := 0, running := [] }, pool.running.flatMap Worker.kill)

/-- Receives all that was sent. -/
def drain (pool : Pool) : List Outcome × Pool := (pool.channel, { pool with channel := [] })

end Pool

end RelayRace
