import Helm.Framework.System
import Helm.Framework.Holders
import Helm.Framework.OrdMap
import Helm.Framework.OrdSet
import Helm.Framework.Word
import Helm.Amio.Errors
import Helm.Amio.Types
import Helm.Amio.StagingOwners

/-! # Prefetch_Queue

  The look-ahead queue of the read path (`prefetch/prefetch_queue.cpp`), one
  for each variable of a dataset. A reader asks for a timestep and a
  selection; the queue has fetched it ahead, is fetching it, or starts to.

  - The queue keeps three tables over timesteps: `pending` fetches,
    `completed` buffers, `failed` fetches. All are guarded by one mutex.
  - A fetch runs on a worker, or on the reader's own thread when there is no
    worker pool: take a staging buffer, let the driver fill it, report to
    the tables.
  - A completed buffer remembers the selection it was filled with. A reader
    that wants another one returns the buffer and fetches again.

  The model is a transition system whose steps are the sections of the code
  between two operations on a mutex. Threads are numbered; each of them may
  be inside a method of the queue, inside a fetch, or both (the synchronous
  fallback). The worker pool is present as the list of the submitted fetches
  that have not begun: it starts each of them at most once, at any time and
  in any order. The staging pool is shared with other users.
-/

namespace Amio

open scoped List
open Holders (held)

/-! ## Section 1: Selections and sizes -/

/-- `amio_bbox_t`, the selection of a caller. -/
structure AmioBbox where
  rank : Int
  offsets : Fin kMaxRank → Int
  extents : Fin kMaxRank → Int
  strides : Fin kMaxRank → Int
  deriving DecidableEq

/-- `BoundingBox`, the selection that a driver receives. -/
structure BoundingBox where
  rank : Int
  offsets : Fin kMaxRank → Int
  extents : Fin kMaxRank → Int
  strides : Fin kMaxRank → Int
  deriving DecidableEq

/-- The copy that `sync_fetch` makes for the driver: entries beyond the rank
    stay zero. -/
def AmioBbox.to_bounding_box (b : AmioBbox) : BoundingBox where
  rank := b.rank
  offsets := fun d => if (d.val : Int) < b.rank then b.offsets d else 0
  extents := fun d => if (d.val : Int) < b.rank then b.extents d else 0
  strides := fun d => if (d.val : Int) < b.rank then b.strides d else 0

/-- `bbox_same` -/
def bbox_same : Option AmioBbox → Option AmioBbox → Bool
  | none, none => true
  | some x, some y =>
    x.rank = y.rank ∧ ∀ d : Fin kMaxRank, (d.val : Int) < x.rank →
      x.offsets d = y.offsets d ∧ x.extents d = y.extents d ∧ x.strides d = y.strides d
  | _, _ => false

/-- What the queue uses of `VariableInfo`. -/
structure VariableInfo where
  dtype : Dtype
  rank : Int
  extents : Fin kMaxRank → Int

/-- The product of the leading `rank` extents in `std::size_t`, if all of them
    are positive. -/
def extents_product (rank : Int) (extents : Fin kMaxRank → Int) : Option Nat :=
  let dims := (List.finRange kMaxRank).filter fun d => (d.val : Int) < rank
  if ∀ d ∈ dims, 0 < extents d then
    some (dims.foldl (fun product d => Word.mul 64 product (extents d).toNat) 1)
  else none

/-- The payload of a full record; 0 when it cannot be derived. -/
def record_bytes (info : VariableInfo) : Nat :=
  if 0 < element_size info.dtype ∧ 0 < info.rank then
    match extents_product info.rank info.extents with
    | some product => Word.mul 64 (element_size info.dtype) product
    | none => 0
  else 0

/-- The payload of a fetch: of the selection where there is a usable one. -/
def payload_bytes (info : VariableInfo) : Option AmioBbox → Nat
  | none => record_bytes info
  | some bbox =>
    if 0 < bbox.rank then
      match extents_product bbox.rank bbox.extents with
      | some product =>
        if 0 < element_size info.dtype then Word.mul 64 (element_size info.dtype) product
        else record_bytes info
      | none => record_bytes info
    else record_bytes info

/-! ## Section 2: State -/

/-- A scheduled fetch. The selection is captured when it is scheduled. -/
structure FetchTask where
  timestep : Int
  sel : Option AmioBbox
  deriving DecidableEq

/-- Where a call of `sync_fetch` stands. -/
inductive Fetch
  /-- Before the check for cancellation. -/
  | entering (task : FetchTask)
  | acquiring (task : FetchTask)
  /-- The driver reads into the buffer. -/
  | reading (task : FetchTask) (buf : Nat)
  /-- The driver has returned, with a payload that fits. -/
  | filled (task : FetchTask) (buf : Nat)
  /-- The driver has thrown, or has reported more than the capacity. -/
  | discarding (task : FetchTask) (buf : Nat)
  | failing (task : FetchTask) (error : AmioStatus)
  deriving DecidableEq

namespace Fetch

def task : Fetch → FetchTask
  | .entering t => t
  | .acquiring t => t
  | .reading t _ => t
  | .filled t _ => t
  | .discarding t _ => t
  | .failing t _ => t

def timestep (f : Fetch) : Int := f.task.timestep

/-- The staging buffer in the hands of the fetch. -/
def buffer : Fetch → Option Nat
  | .entering _ => none
  | .acquiring _ => none
  | .reading _ b => some b
  | .filled _ b => some b
  | .discarding _ b => some b
  | .failing _ _ => none

end Fetch

/-- What a method does after its `schedule_fetch` calls. -/
inductive Continuation
  /-- Return. -/
  | done
  /-- `get_buffer` after the first-touch kick-off. -/
  | check (timestep : Int) (bbox : Option AmioBbox)
  /-- `get_buffer` at the top of its waiting loop. -/
  | loop (timestep : Int) (bbox : Option AmioBbox)
  /-- `get_buffer` after it has replaced a stale buffer in the loop. -/
  | rest (timestep : Int) (bbox : Option AmioBbox)
  deriving DecidableEq

/-- Where a method call stands. -/
inductive Caller
  /-- In no call. The last one returned a buffer, an error or nothing. -/
  | idle (last : Option (Except AmioStatus Nat))
  /-- About to call `schedule_fetch` for each of `todo`, without the lock. -/
  | scheduling (todo : List Int) (cont : Continuation)
  /-- `get_buffer` waits. -/
  | waiting (timestep : Int) (bbox : Option AmioBbox)

/-- A thread. -/
structure Thread where
  fetch : Option Fetch
  caller : Caller

/-- A buffer that `get_buffer` has returned with `AMIO_OK`: the request, and the
    fetch that had filled the buffer. -/
structure Delivery where
  timestep : Int
  bbox : Option AmioBbox
  contents : Option (Int × Option BoundingBox)
  deriving DecidableEq

/-- The queue, the staging pool and the threads. -/
structure PrefetchQueue (n : Nat) where
  depth : Nat
  total_timesteps : Int
  info : VariableInfo
  /-- Is there a worker pool? -/
  has_workers : Bool
  completed : OrdMap Int Nat
  fetched_bbox : OrdMap Int AmioBbox
  pending : OrdSet Int
  failed : OrdMap Int AmioStatus
  latched_bbox : Option AmioBbox
  kicked_off : Bool
  cancelled : Bool
  pool : StagingPool
  /-- Fetches that the worker pool has not begun. -/
  tasks : List FetchTask
  threads : Fin n → Thread
  /-- Buffers in the hands of the readers. -/
  handed : List Nat
  /-- Buffers in the hands of other users of the staging pool. -/
  others : List Nat
  /-- The last fetch that filled a buffer: timestep and selection as the driver
      received them. -/
  contents : Nat → Option (Int × Option BoundingBox)
  deliveries : List Delivery
  /-- Has `release` been called for a buffer without references? -/
  released_twice : Bool

/-- The methods of the queue. -/
inductive Method
  | schedule_initial
  | get_buffer (timestep : Int) (bbox : Option AmioBbox)
  | schedule_next (current_timestep : Int)
  | cancel_pending

/-- The steps of the threads. -/
inductive QueueLabel (n : Nat)
  /-- Thread `i` calls a method and runs it up to its first `schedule_fetch`. -/
  | call (i : Fin n) (method : Method)
  /-- Thread `i` runs the next `schedule_fetch`. A worker pool that is being
      shut down drops the fetch. -/
  | schedule (i : Fin n) (dropped : Bool)
  /-- Thread `i` takes the lock again after its `schedule_fetch` calls. -/
  | resume (i : Fin n)
  /-- The wait of thread `i` ends. -/
  | wake (i : Fin n) (timed_out : Bool)
  /-- Thread `i`, a worker, begins a submitted fetch. -/
  | run (i : Fin n) (k : Nat)
  /-- `sync_fetch` looks at the cancellation flag. -/
  | enter (i : Fin n)
  | acquire (i : Fin n)
  /-- `acquire` gives up waiting. -/
  | acquire_timeout (i : Fin n)
  /-- The allocation in `acquire` throws. -/
  | acquire_throw (i : Fin n)
  /-- The driver returns and reports `used_bytes`, or throws. -/
  | read (i : Fin n) (used_bytes : Option Nat)
  /-- The fetch returns its buffer to the pool. -/
  | discard (i : Fin n)
  /-- `mark_complete` or `mark_failed` -/
  | finish (i : Fin n)
  /-- A reader releases a buffer it was given. -/
  | release (b : Nat)
  /-- Another user of the staging pool. -/
  | other_acquire (required_bytes : Nat)
  | other_release (b : Nat)

/-! ## Section 3: Steps -/

namespace PrefetchQueue

variable {n : Nat}

/-- A new queue. The depth is clamped. -/
def make (depth : Nat) (total_timesteps : Int) (info : VariableInfo) (has_workers : Bool)
    (pool : StagingPool) : PrefetchQueue n where
  depth := min (max depth 1) 1024
  total_timesteps := total_timesteps
  info := info
  has_workers := has_workers
  completed := .empty
  fetched_bbox := .empty
  pending := .empty
  failed := .empty
  latched_bbox := none
  kicked_off := false
  cancelled := false
  pool := pool
  tasks := []
  threads := fun _ => ⟨none, .idle none⟩
  handed := []
  others := []
  contents := fun _ => none
  deliveries := []
  released_twice := false

/-- The method call of thread `i` moves. -/
def set_caller (s : PrefetchQueue n) (i : Fin n) (caller : Caller) : PrefetchQueue n :=
  { s with threads := Function.update s.threads i { s.threads i with caller } }

/-- The fetch of thread `i` moves. -/
def set_fetch (s : PrefetchQueue n) (i : Fin n) (fetch : Option Fetch) : PrefetchQueue n :=
  { s with threads := Function.update s.threads i { s.threads i with fetch } }

/-- `pool_->release`, with its assertion -/
def release (s : PrefetchQueue n) (b : Nat) : PrefetchQueue n :=
  { s with
    pool := s.pool.release b
    released_twice := s.released_twice || (s.pool.buf b).ref_count == 0 }

/-! ### Methods -/

/-- Return `AMIO_OK` with buffer `b`. -/
def deliver (s : PrefetchQueue n) (i : Fin n) (timestep : Int) (bbox : Option AmioBbox) (b : Nat) :
    PrefetchQueue n :=
  { s.set_caller i (.idle (some (.ok b))) with
    completed := s.completed.erase timestep
    handed := b :: s.handed
    deliveries := s.deliveries ++ [⟨timestep, bbox, s.contents b⟩] }

/-- Return a recorded failure, which is thereby consumed. -/
def deliver_failure (s : PrefetchQueue n) (i : Fin n) (timestep : Int) (error : AmioStatus) :
    PrefetchQueue n :=
  { s.set_caller i (.idle (some (.error error))) with failed := s.failed.erase timestep }

/-- Give back a buffer that was fetched with another selection. -/
def drop_stale (s : PrefetchQueue n) (timestep : Int) (b : Nat) : PrefetchQueue n :=
  { s.release b with
    completed := s.completed.erase timestep
    fetched_bbox := s.fetched_bbox.erase timestep }

/-- `get_buffer`: the end of the loop body, up to the wait -/
def get_rest (s : PrefetchQueue n) (i : Fin n) (timestep : Int) (bbox : Option AmioBbox) :
    PrefetchQueue n :=
  match s.failed.lookup timestep with
  | some error => s.deliver_failure i timestep error
  | none =>
    if s.cancelled then s.set_caller i (.idle (some (.error .ERR_BACKEND_FAILURE)))
    else s.set_caller i (.waiting timestep bbox)

/-- `get_buffer`: the loop body -/
def get_loop (s : PrefetchQueue n) (i : Fin n) (timestep : Int) (bbox : Option AmioBbox) :
    PrefetchQueue n :=
  match s.completed.lookup timestep with
  | some b =>
    if bbox_same (s.fetched_bbox.lookup timestep) bbox then
      { s.deliver i timestep bbox b with fetched_bbox := s.fetched_bbox.erase timestep }
    else (s.drop_stale timestep b).set_caller i (.scheduling [timestep] (.rest timestep bbox))
  | none => s.get_rest i timestep bbox

/-- `get_buffer`: schedule the fetch unless it is pending, then wait -/
def get_wait (s : PrefetchQueue n) (i : Fin n) (timestep : Int) (bbox : Option AmioBbox) :
    PrefetchQueue n :=
  if timestep ∉ s.pending then s.set_caller i (.scheduling [timestep] (.loop timestep bbox))
  else s.get_loop i timestep bbox

/-- `get_buffer`: the checks before the wait -/
def get_check (s : PrefetchQueue n) (i : Fin n) (timestep : Int) (bbox : Option AmioBbox) :
    PrefetchQueue n :=
  match s.failed.lookup timestep with
  | some error => s.deliver_failure i timestep error
  | none =>
    match s.completed.lookup timestep with
    | some b =>
      if bbox_same (s.fetched_bbox.lookup timestep) bbox then
        { s.deliver i timestep bbox b with fetched_bbox := s.fetched_bbox.erase timestep }
      else (s.drop_stale timestep b).get_wait i timestep bbox
    | none => s.get_wait i timestep bbox

/-- `get_buffer`: the last look at the tables after a timeout. The selection of
    the buffer is not compared, and its record stays. -/
def get_timeout (s : PrefetchQueue n) (i : Fin n) (timestep : Int) (bbox : Option AmioBbox) :
    PrefetchQueue n :=
  match s.completed.lookup timestep with
  | some b => s.deliver i timestep bbox b
  | none =>
    match s.failed.lookup timestep with
    | some error => s.deliver_failure i timestep error
    | none => s.set_caller i (.idle (some (.error .ERR_TIMEOUT)))

/-- The timesteps `first, first + 1, …`, `count` of them. -/
def window (first count : Int) : List Int := (List.range count.toNat).map fun k => first + k

/-- `get_buffer` up to its first unlock -/
def get_buffer (s : PrefetchQueue n) (i : Fin n) (timestep : Int) (bbox : Option AmioBbox) :
    PrefetchQueue n :=
  let s := { s with latched_bbox := bbox }
  if s.kicked_off then s.get_check i timestep bbox
  else
    { s with kicked_off := true }.set_caller i
      (.scheduling (window timestep (min s.depth (s.total_timesteps - timestep)))
        (.check timestep bbox))

/-- `schedule_initial` up to its first `schedule_fetch` -/
def schedule_initial (s : PrefetchQueue n) (i : Fin n) : PrefetchQueue n :=
  { s with kicked_off := true }.set_caller i
    (.scheduling (window 0 (min s.depth s.total_timesteps)) .done)

/-- `schedule_next` up to its `schedule_fetch` -/
def schedule_next (s : PrefetchQueue n) (i : Fin n) (current_timestep : Int) : PrefetchQueue n :=
  if current_timestep + s.depth ≥ s.total_timesteps then s.set_caller i (.idle none)
  else s.set_caller i (.scheduling [current_timestep + s.depth] .done)

/-- `cancel_pending` -/
def cancel_pending (s : PrefetchQueue n) (i : Fin n) : PrefetchQueue n :=
  { s.completed.values.foldl release (s.set_caller i (.idle none)) with
    cancelled := true
    pending := .empty
    completed := .empty
    fetched_bbox := .empty
    failed := .empty }

/-- Is the timestep in one of the tables? -/
def tracked (s : PrefetchQueue n) (timestep : Int) : Bool :=
  timestep ∈ s.pending ∨ (s.completed.lookup timestep).isSome ∨ (s.failed.lookup timestep).isSome

/-- `schedule_fetch`, by thread `i` -/
def schedule_fetch (s : PrefetchQueue n) (i : Fin n) (timestep : Int) (dropped : Bool) :
    PrefetchQueue n :=
  if s.cancelled ∨ s.tracked timestep then s
  else
    let task : FetchTask := ⟨timestep, s.latched_bbox⟩
    let s := { s with pending := s.pending.insert timestep }
    if s.has_workers then
      if dropped then s else { s with tasks := s.tasks ++ [task] }
    else s.set_fetch i (some (.entering task))

/-! ### Fetches -/

/-- The size that `sync_fetch` asks for. -/
def acquire_bytes (s : PrefetchQueue n) (sel : Option AmioBbox) : Nat :=
  if 0 < payload_bytes s.info sel then payload_bytes s.info sel else s.pool.buffer_capacity

/-- `mark_complete`, at the end of the fetch of thread `i` -/
def mark_complete (s : PrefetchQueue n) (i : Fin n) (task : FetchTask) (b : Nat) :
    PrefetchQueue n :=
  { s.set_fetch i none with
    pending := s.pending.erase task.timestep
    completed := s.completed.insert task.timestep b
    fetched_bbox :=
      match task.sel with
      | some bbox => s.fetched_bbox.insert task.timestep bbox
      | none => s.fetched_bbox.erase task.timestep }

/-- `mark_failed`, at the end of the fetch of thread `i` -/
def mark_failed (s : PrefetchQueue n) (i : Fin n) (task : FetchTask) (error : AmioStatus) :
    PrefetchQueue n :=
  { s.set_fetch i none with
    pending := s.pending.erase task.timestep
    failed := s.failed.insert task.timestep error }

/-- The driver has filled buffer `b`; the payload is checked against the
    capacity. -/
def read_returned (s : PrefetchQueue n) (i : Fin n) (task : FetchTask) (b used_bytes : Nat) :
    PrefetchQueue n :=
  let s :=
    { s with
      pool := s.pool.set_used_bytes b used_bytes
      contents := Function.update s.contents b
        (some (task.timestep, task.sel.map AmioBbox.to_bounding_box)) }
  if used_bytes > s.pool.cap b then s.set_fetch i (some (.discarding task b))
  else s.set_fetch i (some (.filled task b))

/-- A step of the fetch of thread `i`. -/
def fetch_step (s : PrefetchQueue n) (i : Fin n) (f : Fetch) :
    QueueLabel n → Option (PrefetchQueue n)
  | .enter _ =>
    match f with
    | .entering task =>
      if s.cancelled then
        some { s.set_fetch i none with pending := s.pending.erase task.timestep }
      else some (s.set_fetch i (some (.acquiring task)))
    | _ => none
  | .acquire _ =>
    match f with
    | .acquiring task =>
      match s.pool.acquire (s.acquire_bytes task.sel) with
      | (pool, some b) => some { s.set_fetch i (some (.reading task b)) with pool }
      | (_, none) => none
    | _ => none
  | .acquire_timeout _ =>
    match f with
    | .acquiring task =>
      match s.pool.acquire (s.acquire_bytes task.sel) with
      | (pool, none) => some { s.set_fetch i (some (.failing task .ERR_STAGING_BACKPRESSURE)) with pool }
      | (_, some _) => none
    | _ => none
  | .acquire_throw _ =>
    match f with
    | .acquiring task =>
      -- the exception also ends the method call of the thread
      some { (s.set_fetch i none).set_caller i (.idle none) with
        pool := s.pool.acquire_failed (s.acquire_bytes task.sel) }
    | _ => none
  | .read _ used_bytes =>
    match f, used_bytes with
    | .reading task b, some used_bytes => some (s.read_returned i task b used_bytes)
    | .reading task b, none => some (s.set_fetch i (some (.discarding task b)))
    | _, _ => none
  | .discard _ =>
    match f with
    | .discarding task b =>
      some ((s.release b).set_fetch i (some (.failing task .ERR_BACKEND_FAILURE)))
    | _ => none
  | .finish _ =>
    match f with
    | .filled task b => some (s.mark_complete i task b)
    | .failing task error => some (s.mark_failed i task error)
    | _ => none
  | _ => none

/-- A step of the method call of thread `i`. -/
def caller_step (s : PrefetchQueue n) (i : Fin n) (caller : Caller) :
    QueueLabel n → Option (PrefetchQueue n)
  | .call _ method =>
    match caller with
    | .idle _ =>
      match method with
      | .schedule_initial => some (s.schedule_initial i)
      | .get_buffer timestep bbox => some (s.get_buffer i timestep bbox)
      | .schedule_next current_timestep => some (s.schedule_next i current_timestep)
      | .cancel_pending => some (s.cancel_pending i)
    | _ => none
  | .schedule _ dropped =>
    match caller with
    | .scheduling (t :: todo) cont =>
      some ((s.set_caller i (.scheduling todo cont)).schedule_fetch i t dropped)
    | _ => none
  | .resume _ =>
    match caller with
    | .scheduling [] .done => some (s.set_caller i (.idle none))
    | .scheduling [] (.check timestep bbox) => some (s.get_check i timestep bbox)
    | .scheduling [] (.loop timestep bbox) => some (s.get_loop i timestep bbox)
    | .scheduling [] (.rest timestep bbox) => some (s.get_rest i timestep bbox)
    | _ => none
  | .wake _ timed_out =>
    match caller with
    | .waiting timestep bbox =>
      if timed_out then some (s.get_timeout i timestep bbox)
      else some (s.get_loop i timestep bbox)
    | _ => none
  | .run _ k =>
    match caller, s.tasks[k]? with
    | .idle _, some task =>
      some { s.set_fetch i (some (.entering task)) with tasks := s.tasks.eraseIdx k }
    | _, _ => none
  | _ => none

/-- The thread whose step `l` is. -/
def thread_of : QueueLabel n → Option (Fin n)
  | .call i _ => some i
  | .schedule i _ => some i
  | .resume i => some i
  | .wake i _ => some i
  | .run i _ => some i
  | .enter i => some i
  | .acquire i => some i
  | .acquire_timeout i => some i
  | .acquire_throw i => some i
  | .read i _ => some i
  | .discard i => some i
  | .finish i => some i
  | .release _ => none
  | .other_acquire _ => none
  | .other_release _ => none

/-- One step. A thread that is inside a fetch goes on with the fetch. -/
def next (s : PrefetchQueue n) (l : QueueLabel n) : Option (PrefetchQueue n) :=
  match thread_of l with
  | some i =>
    match (s.threads i).fetch with
    | some f => s.fetch_step i f l
    | none => s.caller_step i (s.threads i).caller l
  | none =>
    match l with
    | .release b =>
      if b ∈ s.handed then some { s.release b with handed := s.handed.erase b } else none
    | .other_acquire required_bytes =>
      match s.pool.acquire required_bytes with
      | (pool, some b) =>
        some { s with pool, others := b :: s.others, contents := Function.update s.contents b none }
      | (_, none) => none
    | .other_release b =>
      if b ∈ s.others then some { s.release b with others := s.others.erase b } else none
    | _ => none

/-- The queue with `n` threads, in any configuration. -/
def system (n : Nat) : LTS.System (PrefetchQueue n) (QueueLabel n) :=
  .ofNext (fun s => ∃ depth total_timesteps info has_workers cfg pool,
    PoolInit cfg pool ∧ s = make depth total_timesteps info has_workers pool) next

end PrefetchQueue

end Amio
