import GateBench.Worker.Handle

/-!
Pools: how many workers are held at a time is bounded by a number of slots.  A slot is taken when a
worker is acquired, and comes back when its handle is released or dropped.
-/

namespace GateBench.Worker

/-- A pool of slots; `available` of them are free.  Requests on its workers have a timeout. -/
structure Pool where
  capacity : Nat
  timeout : Nat := defaultTimeout
  available : Nat := capacity
deriving DecidableEq, Repr

namespace Pool

variable {ν ω : Type}

/-- Take back the slot that a handle has held. -/
def takeBack (pool : Pool) (held : Bool) : Pool :=
  { pool with available := pool.available + if held then 1 else 0 }

/-- Acquire a worker: take a slot and start a worker in it.  A slot whose worker does not start is
free again. -/
def acquire (transport : Transport ν ω) (pool : Pool) (surroundings : ω) :
    Except WorkerError (Handle ν) × Pool × ω :=
  if pool.available = 0 then (.error (.unavailable pool.capacity), pool, surroundings)
  else
    match transport.spawn surroundings with
    | (.error error, surroundings) => (.error error, pool, surroundings)
    | (.ok worker, surroundings) =>
      (.ok { worker, timeout := pool.timeout, holdsSlot := true },
        { pool with available := pool.available - 1 }, surroundings)

/-- Release a handle of the pool. -/
def release (transport : Transport ν ω) (pool : Pool) (handle : Handle ν) (surroundings : ω) :
    Handle ν × Pool × ω :=
  let (released, surroundings) := handle.release transport surroundings
  (released, pool.takeBack handle.holdsSlot, surroundings)

/-- Drop a handle of the pool. -/
def drop (transport : Transport ν ω) (pool : Pool) (handle : Handle ν) (surroundings : ω) :
    Pool × ω :=
  (pool.takeBack handle.holdsSlot, handle.drop transport surroundings)

end Pool

end GateBench.Worker
