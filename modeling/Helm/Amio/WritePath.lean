import Helm.Amio.HandleTable
import Helm.Amio.StagingOwners
import Helm.Amio.Types
import Helm.Amio.WorkerShutdown

/-! # The write path

  `amio_write` as far as the worker that carries it out
  (`c_boundary/amio_core.cpp`). A call checks its arguments, takes a staging
  buffer, copies the payload into it, makes a record for the request handle
  and submits a closure to the worker pool. The closure calls the driver,
  gives the buffer back and counts the write as no longer pending.

  The model puts the components together: the staging pool, the handle table
  and the worker pool, each with its own steps, and the threads that use
  them. The parts of a call, and of the closure, that touch something shared
  are steps of their own, so that calls and closures interleave as the
  threads of the program do. In particular the call adds to `pending_writes`
  after it has submitted the closure, when the closure may already have run.

  `submit_write` reports a rejected closure by the number 0, which is also
  the number of the first write of a variable, and the call does not look at
  the number.
-/

namespace Amio

open scoped List
open Holders (held)

/-! ## Section 1: Requests -/

/-- The arguments of `write`. Pointers are optional values; a string is the
    list of its characters, and `host_data` the memory it points to. -/
structure WriteArgs where
  /-- The dataset record, by its `dataset_id`. -/
  dataset_id : Nat
  var_name : Option (List (BitVec 8))
  host_data : Option (List (BitVec 8))
  dtype : Dtype
  shape : Option AmioShape

/-- The dimensions that the rank of a shape covers. -/
def AmioShape.dims (shape : AmioShape) : List (Fin kMaxRank) :=
  (List.finRange kMaxRank).filter fun d => (d.val : Int) < shape.rank

/-- `validate_shape` -/
def validate_shape (shape : AmioShape) : Bool :=
  1 ≤ shape.rank ∧ shape.rank ≤ kMaxRank ∧ ∀ d ∈ shape.dims, 0 < shape.extents d

/-- `compute_element_count`, in `std::size_t` -/
def compute_element_count (shape : AmioShape) : Nat :=
  shape.dims.foldl (fun count d => Word.mul 64 count (shape.extents d).toNat) 1

/-- A request that has passed the checks. -/
structure WriteRequest where
  dataset_id : Nat
  var_name : List (BitVec 8)
  host_data : List (BitVec 8)
  dtype : Dtype
  shape : AmioShape
  payload_bytes : Nat

/-- Steps 1 and 2 of `write` -/
def validate_write (args : WriteArgs) : Except AmioStatus WriteRequest :=
  match args.host_data, args.var_name, args.shape with
  | some host_data, some var_name, some shape =>
    if element_size args.dtype = 0 then .error .ERR_INVALID_INPUT
    else if validate_shape shape = false then .error .ERR_INVALID_INPUT
    else
      let payload_bytes := Word.mul 64 (compute_element_count shape) (element_size args.dtype)
      if payload_bytes = 0 then .error .ERR_INVALID_INPUT
      else
        .ok { dataset_id := args.dataset_id, var_name, host_data, dtype := args.dtype, shape,
              payload_bytes }
  | _, _, _ => .error .ERR_INVALID_INPUT

/-- The hash of a variable name. A character is converted from `char`, which
    is signed. -/
def var_hash (var_name : List (BitVec 8)) : BitVec 64 :=
  var_name.foldl (fun hash p => hash * 31 + p.signExtend 64) 0

/-- `VarMeta` -/
structure VarMeta where
  dataset_id : Nat
  variable_id : BitVec 64
  name : List (BitVec 8)
  dtype : Dtype
  shape : AmioShape
  timestep : Int
  deriving DecidableEq

/-- What the closure of a write captures: the buffer, the dataset record, the
    request record and the metadata. -/
structure WriteClosure where
  buf : Nat
  dataset_id : Nat
  io_rec : Nat
  info : VarMeta
  deriving DecidableEq

/-- The pair that the worker pool orders the write by. -/
def WriteClosure.dv_key (cl : WriteClosure) : DatasetVariableKey :=
  ⟨cl.dataset_id, cl.info.variable_id.toNat⟩

/-! ## Section 2: State -/

/-- What the write path uses of `IoRecord`. A failure code of `AMIO_OK` is
    `none`. -/
structure IoRecord where
  dataset_id : Nat
  dv_seq : Nat := 0
  token : Token
  staging_buf : Nat
  completed : Bool := false
  failed : Bool := false
  failure_code : Option AmioStatus := none

/-- What the write path uses of `DatasetRecord`. -/
structure DatasetRecord where
  pending_writes : BitVec 64 := 0
  has_failure : Bool := false
  first_failure_code : Option AmioStatus := none

/-- Where a call of `write` stands. -/
inductive CallPhase
  /-- In no call. The last one returned a request handle or an error. -/
  | idle (last : Option (Except AmioStatus Token))
  | acquiring (req : WriteRequest)
  /-- Has a staging buffer. -/
  | staged (req : WriteRequest) (buf : Nat)
  /-- Has filled the buffer and made the request record. -/
  | recorded (token : Token) (cl : WriteClosure)
  /-- Inside `submit_write`. -/
  | submitting (token : Token) (cl : WriteClosure)
  /-- `submit_write` has returned `seq`. -/
  | submitted (token : Token) (cl : WriteClosure) (seq : Nat)

/-- How far a closure has come. -/
inductive Stage
  | called
  /-- The driver has returned or thrown. -/
  | written
  /-- The buffer has been given back. -/
  | released
  /-- The write is no longer pending. -/
  | counted
  deriving DecidableEq

/-- An invocation of the driver: the write, and what the driver was given. -/
structure DriverWrite where
  io_rec : Nat
  info : VarMeta
  payload : List (BitVec 8)

/-- The components and the threads: `m` clients and `n` workers. -/
structure WritePath (m n : Nat) where
  staging : StagingPool
  /-- The bytes in each staging buffer. -/
  contents : Nat → List (BitVec 8)
  handles : HandleTable Nat
  /-- The request records, in the order of their creation. -/
  io_records : List IoRecord
  /-- The dataset records, by `dataset_id`. -/
  datasets : Nat → DatasetRecord
  pool : WorkerPool WriteClosure n
  clients : Fin m → CallPhase
  /-- How far the closure that a worker runs has come. -/
  stages : Fin n → Stage
  driver_writes : List DriverWrite
  /-- The writes whose buffer has been given back, once for each time. -/
  released : List Nat
  /-- The writes for which `AMIO_OK` has been returned. -/
  returned : List Nat
  /-- The closures that `submit_write` has not queued. -/
  rejected : List WriteClosure

/-- The steps of the threads. -/
inductive WriteLabel (m n : Nat)
  /-- Client `c` calls `write`, which checks the arguments. -/
  | call (c : Fin m) (args : WriteArgs)
  | acquire (c : Fin m)
  /-- `acquire` gives up waiting. -/
  | acquire_timeout (c : Fin m)
  /-- The allocation in `acquire` throws. -/
  | acquire_throw (c : Fin m)
  /-- Copy the payload, make the request record and its handle. -/
  | stage (c : Fin m)
  /-- Call `submit_write`, which reads the shutdown flag. -/
  | submit (c : Fin m)
  /-- `submit_write` takes the lock. -/
  | enter (c : Fin m)
  /-- `submit_write` stops waiting. -/
  | resume (c : Fin m)
  /-- Count the write as pending and return. -/
  | count (c : Fin m)
  /-- Without a worker pool: give the buffer back and return. -/
  | complete (c : Fin m)
  /-- Worker `w` looks for work. -/
  | wake (w : Fin n) (pick : Nat)
  /-- The driver that the closure of worker `w` has called returns or throws. -/
  | driver (w : Fin n) (throws : Bool)
  | release (w : Fin n)
  | decrement (w : Fin n)
  /-- The closure returns. -/
  | finish (w : Fin n)
  | shutdown
  | join

/-! ## Section 3: Steps -/

namespace WritePath

variable {m n : Nat}

/-- The runtime after `init_from_config`. -/
def make (staging : StagingPool) (backpressure : BackpressureConfig) : WritePath m n where
  staging := staging
  contents := fun _ => []
  handles := ⟨[], []⟩
  io_records := []
  datasets := fun _ => {}
  pool := .make backpressure
  clients := fun _ => .idle none
  stages := fun _ => .called
  driver_writes := []
  released := []
  returned := []
  rejected := []

/-- Client `c` moves. -/
def set_client (s : WritePath m n) (c : Fin m) (phase : CallPhase) : WritePath m n :=
  { s with clients := Function.update s.clients c phase }

/-- The closure of worker `w` moves. -/
def set_stage (s : WritePath m n) (w : Fin n) (stage : Stage) : WritePath m n :=
  { s with stages := Function.update s.stages w stage }

/-- A change to the request record of a write. -/
def set_io (s : WritePath m n) (io : Nat) (f : IoRecord → IoRecord) : WritePath m n :=
  { s with io_records := s.io_records.modify io f }

/-- A change to a dataset record. -/
def set_dataset (s : WritePath m n) (d : Nat) (f : DatasetRecord → DatasetRecord) : WritePath m n :=
  { s with datasets := Function.update s.datasets d (f (s.datasets d)) }

/-! ### Clients -/

/-- Steps 5 and 6 of `write`, and the closure of step 7 -/
def stage (s : WritePath m n) (c : Fin m) (req : WriteRequest) (buf : Nat) : WritePath m n :=
  let io_rec := s.io_records.length
  let inserted := s.handles.insert .Io (some io_rec)
  let info : VarMeta :=
    { dataset_id := req.dataset_id, variable_id := var_hash req.var_name, name := req.var_name,
      dtype := req.dtype, shape := req.shape, timestep := -1 }
  { s.set_client c (.recorded inserted.2 ⟨buf, req.dataset_id, io_rec, info⟩) with
    staging := s.staging.set_used_bytes buf req.payload_bytes
    contents := Function.update s.contents buf (req.host_data.take req.payload_bytes)
    handles := inserted.1
    io_records := s.io_records ++
      [{ dataset_id := req.dataset_id, token := inserted.2, staging_buf := buf }] }

/-- The number that this overload of `submit_write` returns. -/
def returned_seq : Except AmioStatus Nat → Nat
  | .ok seq => seq
  | .error _ => 0

/-- A step of client `c` inside `submit_write`. A closure that has not been
    queued when the call returns is destroyed. -/
def submit_step (s : WritePath m n) (c : Fin m) (token : Token) (cl : WriteClosure)
    (l : WorkerLabel WriteClosure n) : Option (WritePath m n) :=
  (s.pool.next l).map fun pool =>
    match pool.clients c with
    | .ready (some result) =>
      { s.set_client c (.submitted token cl (returned_seq result)) with
        pool
        rejected :=
          if s.pool.submitted.length < pool.submitted.length then s.rejected
          else s.rejected ++ [cl] }
    | _ => { s.set_client c (.submitting token cl) with pool }

/-- The end of `write`, after `submit_write` has returned `seq` -/
def count (s : WritePath m n) (c : Fin m) (token : Token) (cl : WriteClosure) (seq : Nat) :
    WritePath m n :=
  { ((s.set_client c (.idle (some (.ok token)))).set_io cl.io_rec fun io =>
      { io with dv_seq := seq }).set_dataset cl.dataset_id fun d =>
        { d with pending_writes := d.pending_writes + 1 } with
    returned := s.returned ++ [cl.io_rec] }

/-- The end of `write` when there is no worker pool: the driver is not called -/
def complete (s : WritePath m n) (c : Fin m) (token : Token) (cl : WriteClosure) : WritePath m n :=
  { (s.set_client c (.idle (some (.ok token)))).set_io cl.io_rec fun io =>
      { io with completed := true } with
    staging := s.staging.release cl.buf
    released := s.released ++ [cl.io_rec]
    returned := s.returned ++ [cl.io_rec] }

/-! ### Workers -/

/-- The closure after the driver has returned or thrown -/
def driver_returned (s : WritePath m n) (w : Fin n) (cl : WriteClosure) (throws : Bool) :
    WritePath m n :=
  let s : WritePath m n := { s.set_stage w .written with
    driver_writes := s.driver_writes ++ [⟨cl.io_rec, cl.info, s.contents cl.buf⟩] }
  if throws then
    (s.set_io cl.io_rec fun io =>
      { io with failed := true, failure_code := some .ERR_BACKEND_FAILURE }).set_dataset
        cl.dataset_id fun d =>
          { d with
            has_failure := true
            first_failure_code := d.first_failure_code.or (some .ERR_BACKEND_FAILURE) }
  else s.set_io cl.io_rec fun io => { io with completed := true }

/-- A step of the closure that worker `w` runs. -/
def closure_step (s : WritePath m n) (w : Fin n) (cl : WriteClosure) :
    WriteLabel m n → Option (WritePath m n)
  | .driver _ throws =>
    if s.stages w = .called then some (s.driver_returned w cl throws) else none
  | .release _ =>
    if s.stages w = .written then
      some { s.set_stage w .released with
        staging := s.staging.release cl.buf
        released := s.released ++ [cl.io_rec] }
    else none
  | .decrement _ =>
    if s.stages w = .released then
      some ((s.set_stage w .counted).set_dataset cl.dataset_id fun d =>
        { d with pending_writes := d.pending_writes - 1 })
    else none
  | .finish _ =>
    if s.stages w = .counted then (s.pool.next (.finish w none)).map fun pool => { s with pool }
    else none
  | _ => none

/-- Worker `w` looks for work. The closure of a write it takes is called. -/
def wake (s : WritePath m n) (w : Fin n) (pick : Nat) : Option (WritePath m n) :=
  (s.pool.next (.wake w pick)).map fun pool =>
    match pool.workers w with
    | .writing _ => { s.set_stage w .called with pool }
    | _ => { s with pool }

/-! ### The transition function -/

/-- A step of the call of client `c`. -/
def client_step (s : WritePath m n) (c : Fin m) : WriteLabel m n → Option (WritePath m n)
  | .call _ args =>
    match s.clients c with
    | .idle _ =>
      match validate_write args with
      | .ok req => some (s.set_client c (.acquiring req))
      | .error e => some (s.set_client c (.idle (some (.error e))))
    | _ => none
  | .acquire _ =>
    match s.clients c with
    | .acquiring req =>
      match s.staging.acquire req.payload_bytes with
      | (staging, some buf) => some { s.set_client c (.staged req buf) with staging }
      | (_, none) => none
    | _ => none
  | .acquire_timeout _ =>
    match s.clients c with
    | .acquiring req =>
      match s.staging.acquire req.payload_bytes with
      | (_, some _) => none
      | (staging, none) =>
        some { s.set_client c (.idle (some (.error .ERR_STAGING_BACKPRESSURE))) with staging }
    | _ => none
  | .acquire_throw _ =>
    match s.clients c with
    | .acquiring req =>
      some { s.set_client c (.idle (some (.error .ERR_BACKEND_FAILURE))) with
        staging := s.staging.acquire_failed req.payload_bytes }
    | _ => none
  | .stage _ =>
    match s.clients c with
    | .staged req buf => some (s.stage c req buf)
    | _ => none
  | .submit _ =>
    match s.clients c with
    | .recorded token cl =>
      if 0 < n then
        s.submit_step c token cl (.check c (.submit_write cl.dv_key token.toNat cl))
      else none
    | _ => none
  | .enter _ =>
    match s.clients c with
    | .submitting token cl => s.submit_step c token cl (.enter c)
    | _ => none
  | .resume _ =>
    match s.clients c with
    | .submitting token cl => s.submit_step c token cl (.resume c)
    | _ => none
  | .count _ =>
    match s.clients c with
    | .submitted token cl seq => some (s.count c token cl seq)
    | _ => none
  | .complete _ =>
    match s.clients c with
    | .recorded token cl => if 0 < n then none else some (s.complete c token cl)
    | _ => none
  | _ => none

/-- The client whose step `l` is. -/
def client_of : WriteLabel m n → Option (Fin m)
  | .call c _ => some c
  | .acquire c => some c
  | .acquire_timeout c => some c
  | .acquire_throw c => some c
  | .stage c => some c
  | .submit c => some c
  | .enter c => some c
  | .resume c => some c
  | .count c => some c
  | .complete c => some c
  | _ => none

/-- The worker whose closure takes the step `l`. -/
def worker_of : WriteLabel m n → Option (Fin n)
  | .driver w _ => some w
  | .release w => some w
  | .decrement w => some w
  | .finish w => some w
  | _ => none

/-- One step of a thread; `none` when the thread is not there. -/
def next (s : WritePath m n) (l : WriteLabel m n) : Option (WritePath m n) :=
  match client_of l with
  | some c => s.client_step c l
  | none =>
    match worker_of l with
    | some w =>
      match s.pool.workers w with
      | .writing task => s.closure_step w task.callback l
      | _ => none
    | none =>
      match l with
      | .wake w pick => s.wake w pick
      | .shutdown => (s.pool.next .shutdown).map fun pool => { s with pool }
      | .join => (s.pool.next .join).map fun pool => { s with pool }
      | _ => none

/-- The write path with `m` clients and `n` workers, in any configuration. -/
def system (m n : Nat) : LTS.System (WritePath m n) (WriteLabel m n) :=
  .ofNext (fun s => ∃ cfg staging backpressure,
    PoolInit cfg staging ∧ s = make staging backpressure) next

end WritePath

end Amio
