import Helm.Framework.Signed
import Helm.Amio.HandleTable
import Helm.Amio.PrefetchQueue
import Helm.Amio.WritePath

/-! # The core behind the handles

  The entry points of the C API (`c_boundary/amio_api.cpp`) over the records
  that the handles stand for (`c_boundary/amio_core.cpp`): cores, datasets,
  write requests and views, with the back pointers between them.

  - A call looks its handle up in the process-wide table and runs on the
    payload. The payload is the place of a record in the order of creation;
    records are never moved.
  - `finalize` and `release_view` delete records. A call that reads a deleted
    record, or a staging buffer of a deleted core, has no result: it is
    undefined behaviour.
  - Calls are steps, and so are the writes and fetches that the workers
    carry out. A call that waits stands where it stops waiting; the steps of
    the workers that it waits for stand before it.
  - What the drivers, the staging pool and the configuration answer is an
    argument of the call.

  The part of the state that the handles depend on is `Handles`. Everything
  that reads and writes change besides is in `World`.
-/

namespace Amio.Boundary

open LTS Signed

/-! ## Section 1: Records -/

/-- What a handle points to: a record, by its place in the order of creation. -/
inductive Payload
  | core (c : Nat)
  | dataset (d : Nat)
  | io (i : Nat)
  | view (v : Nat)
  deriving DecidableEq

/-- `AMIO_Core` -/
structure CoreRecord where
  core_token : Token
  /-- The registry, in the order of opening. -/
  datasets : List Nat := []
  /-- Is there a worker pool? -/
  has_workers : Bool
  destroyed : Bool := false
  deriving DecidableEq

/-- `DatasetRecord` -/
structure DatasetRecord where
  core : Nat
  token : Token
  /-- Each view is a record in memory, so that 64 bits are enough. -/
  outstanding_views : Nat := 0
  destroyed : Bool := false
  /-- How often `close` of the driver has been called. -/
  closes : Nat := 0
  deriving DecidableEq

/-- `IoRecord`. It is never deleted. -/
structure IoRecord where
  dataset : Nat
  core : Nat
  token : Token
  deriving DecidableEq

/-- `ViewRecord` -/
structure ViewRecord where
  dataset : Nat
  core : Nat
  token : Token
  destroyed : Bool := false
  deriving DecidableEq

/-- The handle table and the records behind it. -/
structure Handles where
  table : TableState Payload
  cores : List CoreRecord
  datasets : List DatasetRecord
  ios : List IoRecord
  views : List ViewRecord

namespace Handles

/-- Before the first call. -/
def empty : Handles := ⟨.empty, [], [], [], []⟩

/-! ### Access through a pointer -/

/-- The core, unless it has been deleted. -/
def core? (h : Handles) (c : Nat) : Option CoreRecord := (h.cores[c]?).filter (!·.destroyed)

def dataset? (h : Handles) (d : Nat) : Option DatasetRecord :=
  (h.datasets[d]?).filter (!·.destroyed)

def view? (h : Handles) (v : Nat) : Option ViewRecord := (h.views[v]?).filter (!·.destroyed)

/-! ### Creation -/

/-- The last step of `init_from_config` -/
def new_core (h : Handles) (has_workers : Bool) : Handles × Token :=
  let minted := h.table.insert .Core (.core h.cores.length)
  ({ h with table := minted.1
            cores := h.cores ++ [{ core_token := minted.2, has_workers }] }, minted.2)

/-- The record of `open_dataset_from_config`, in the table and in the registry
    of its core -/
def new_dataset (h : Handles) (c : Nat) : Handles × Token :=
  let d := h.datasets.length
  let minted := h.table.insert .Dataset (.dataset d)
  ({ h with table := minted.1
            datasets := h.datasets ++ [{ core := c, token := minted.2 }]
            cores := h.cores.modify c fun r => { r with datasets := r.datasets ++ [d] } },
    minted.2)

/-- Step 6 of `write` -/
def new_io (h : Handles) (d c : Nat) : Handles × Token :=
  let minted := h.table.insert .Io (.io h.ios.length)
  ({ h with table := minted.1
            ios := h.ios ++ [{ dataset := d, core := c, token := minted.2 }] }, minted.2)

/-- Step 4 of `read` -/
def new_view (h : Handles) (d c : Nat) : Handles × Token :=
  let minted := h.table.insert .View (.view h.views.length)
  ({ h with table := minted.1
            views := h.views ++ [{ dataset := d, core := c, token := minted.2 }]
            datasets := h.datasets.modify d fun r =>
              { r with outstanding_views := r.outstanding_views + 1 } }, minted.2)

/-! ### Deletion -/

/-- Steps 4 and 5 of `close_dataset`. The record stays in the registry. -/
def close_dataset (h : Handles) (d : Nat) (record : DatasetRecord) : Handles :=
  { h with table := h.table.release record.token .Dataset
           datasets := h.datasets.set d { record with closes := record.closes + 1 } }

/-- `release_view`, after the buffer has been given back -/
def release_view (h : Handles) (v : Nat) (view : ViewRecord) (core : CoreRecord) : Handles :=
  { h with table := h.table.release view.token .View
           views := h.views.set v { view with destroyed := true }
           datasets :=
             if view.dataset ∈ core.datasets then
               h.datasets.modify view.dataset fun r =>
                 { r with outstanding_views := r.outstanding_views - 1 }
             else h.datasets }

/-- Step 2 of `finalize` for one record of the registry. The driver is not
    closed when its `flush` throws. -/
def finalize_dataset (flush_throws : Nat → Bool) (h : Handles) (d : Nat) : Handles :=
  match h.datasets[d]? with
  | none => h
  | some record =>
    { h with
      table := if record.token ≠ 0 then h.table.release record.token .Dataset else h.table
      datasets := h.datasets.set d
        { record with
          closes := if flush_throws d then record.closes else record.closes + 1
          destroyed := true } }

/-- Steps 2 to 4 of `finalize` -/
def finalize (h : Handles) (c : Nat) (core : CoreRecord) (flush_throws : Nat → Bool) : Handles :=
  let closed := core.datasets.foldl (finalize_dataset flush_throws) h
  { closed with
    table := closed.table.release core.core_token .Core
    cores := closed.cores.set c { core with datasets := [], destroyed := true } }

end Handles

/-! ## Section 2: Reads and writes -/

def AMIO_MODE_WRITE : Int := 0

def AMIO_MODE_READ : Int := 1

/-- `VariableInfo` of a variable that the driver has found -/
structure VariableInfo where
  dtype : Dtype
  shape : AmioShape
  total_timesteps : Int
  deriving DecidableEq

/-- Where the prefetch queue of a variable stands. -/
structure QueueTables where
  cancelled : Bool := false
  pending : List Int := []
  /-- Timesteps and the buffers that hold them. -/
  completed : List (Int × Nat) := []
  deriving DecidableEq

/-- `cancel_pending` -/
def QueueTables.cancel_pending (_ : QueueTables) : QueueTables := { cancelled := true }

/-- `VariableReadState` -/
structure VariableReadState where
  name : String
  info : VariableInfo
  queue : QueueTables
  deriving DecidableEq

/-- The part of a `DatasetRecord` that reads and writes change. A failure code
    of `AMIO_OK` is `none`. -/
structure DatasetWork where
  mode : Int := AMIO_MODE_WRITE
  pending_writes : Nat := 0
  first_failure : Option AmioStatus := none
  variable_states : List VariableReadState := []
  deriving DecidableEq

/-- The part of an `IoRecord` that the worker changes. -/
structure IoWork where
  completed : Bool := false
  failure : Option AmioStatus := none
  deriving DecidableEq

/-- What a view shows. -/
structure ViewContents where
  staging_buf : Nat
  shape : AmioShape
  dtype : Dtype
  deriving DecidableEq

/-- A closure in the queue of a worker pool. -/
structure QueuedWrite where
  core : Nat
  dataset : Nat
  io : Nat
  deriving DecidableEq

/-- The state of the library. -/
structure World extends Handles where
  dataset_work : Nat → DatasetWork
  io_work : Nat → IoWork
  view_contents : Nat → Option ViewContents
  /-- The writes that the worker pools have not run. -/
  writes : List QueuedWrite

namespace World

def empty : World := ⟨.empty, fun _ => {}, fun _ => {}, fun _ => none, []⟩

def set_dataset_work (w : World) (d : Nat) (work : DatasetWork) : World :=
  { w with dataset_work := Function.update w.dataset_work d work }

@[simp] theorem toHandles_set_dataset_work (w : World) (d : Nat) (work : DatasetWork) :
    (w.set_dataset_work d work).toHandles = w.toHandles := rfl

end World

/-- What a call leaves in its output parameters. -/
inductive Output
  | done
  | handle (token : Token)
  | metadata (shape : AmioShape) (total_timesteps : Int)
  | data (buf : Nat)
  | shape (shape : AmioShape)
  | dtype (dtype : Dtype)
  | text (len : Nat) (characters : Option (List Char))
  | value (x : Rat)
  deriving DecidableEq

/-- The outcome of a call; `none` is undefined behaviour. -/
abbrev Effect := Option (Except AmioStatus Output × World)

/-- One dimension of `validate_bbox`. The index computations are in
    `std::int64_t`. -/
def validate_dimension (b : AmioBbox) (shape : AmioShape) (d : Fin kMaxRank) :
    Outcome AmioStatus Unit := do
  if b.strides d < 1 then .thrown .ERR_INVALID_INPUT
  else if b.offsets d < 0 then .thrown .ERR_INVALID_INPUT
  else
    let steps ← signed 64 (b.extents d - 1)
    let span ← signed 64 (steps * b.strides d)
    let last ← signed 64 (b.offsets d + span)
    if b.extents d < 1 ∨ last ≥ shape.extents d then .thrown .ERR_INVALID_INPUT
    else .returned ()

/-- `validate_bbox` -/
def validate_bbox (bbox : Option AmioBbox) (shape : AmioShape) : Outcome AmioStatus Unit :=
  match bbox with
  | none => .returned ()
  | some b =>
    if b.rank ≠ shape.rank then .thrown .ERR_INVALID_INPUT
    else
      ((List.finRange kMaxRank).filter fun d => (d.val : Int) < b.rank).foldlM
        (fun _ d => validate_dimension b shape d) ()

/-- The shape that a view of the selection reports. -/
def view_shape (bbox : Option AmioBbox) (info : VariableInfo) : AmioShape :=
  match bbox with
  | none => info.shape
  | some b =>
    { rank := b.rank
      extents := fun d => if (d.val : Int) < b.rank then b.extents d else 0
      strides := fun d => if (d.val : Int) < b.rank then b.strides d else 0 }

/-- `resolve_variable`. The driver describes the variable on first use; it may
    not find it, or throw. -/
def resolve_variable (work : DatasetWork) (var_name : String) (described : Option VariableInfo) :
    Option (VariableReadState × DatasetWork) :=
  match work.variable_states.find? (·.name = var_name) with
  | some state => some (state, work)
  | none => described.map fun info =>
      (⟨var_name, info, {}⟩, { work with variable_states := work.variable_states ++ [⟨var_name, info, {}⟩] })

/-- The queue of a variable moves on. -/
def DatasetWork.set_queue (work : DatasetWork) (var_name : String) (queue : QueueTables) :
    DatasetWork :=
  { work with
    variable_states := work.variable_states.map fun state =>
      if state.name = var_name then { state with queue } else state }

/-! ## Section 3: Entry points -/

namespace World

/-- `init`. `built` is the outcome of reading the manifest and of building the
    pools; is there a worker pool? -/
def init (w : World) (built : Except AmioStatus Bool) : Effect :=
  match built with
  | .error e => some (.error e, w)
  | .ok has_workers =>
    let minted := w.new_core has_workers
    some (.ok (.handle minted.2), { w with toHandles := minted.1 })

/-- `open_dataset`. `opened` is the outcome of reading the configuration, of
    building the driver and of opening it. -/
def open_dataset (w : World) (c : Nat) (mode : Int) (opened : Except AmioStatus Unit) : Effect :=
  match w.core? c with
  | none => none
  | some _ =>
    match opened with
    | .error e => some (.error e, w)
    | .ok () =>
      let minted := w.new_dataset c
      some (.ok (.handle minted.2),
        { w.set_dataset_work w.datasets.length { mode } with toHandles := minted.1 })

/-- `write`. `acquired` is the staging buffer, unless `acquire` has timed out;
    `queued` tells whether `submit_write` has queued the closure. -/
def write (w : World) (d : Nat) (args : WriteArgs) (acquired : Option Nat) (queued : Bool) :
    Effect :=
  match w.dataset? d with
  | none => none
  | some record =>
    match validate_write { args with dataset_id := d } with
    | .error e => some (.error e, w)
    | .ok _ =>
      match w.core? record.core, acquired with
      | none, _ => none
      | some _, none => some (.error .ERR_STAGING_BACKPRESSURE, w)
      | some core, some _ =>
        let io := w.ios.length
        let minted := w.new_io d record.core
        let work := w.dataset_work d
        some (.ok (.handle minted.2),
          if core.has_workers then
            { w.set_dataset_work d { work with pending_writes := work.pending_writes + 1 } with
              toHandles := minted.1
              io_work := Function.update w.io_work io {}
              writes := if queued then w.writes ++ [⟨record.core, d, io⟩] else w.writes }
          else
            { w with
              toHandles := minted.1
              io_work := Function.update w.io_work io { completed := true } })

/-- `describe` -/
def describe (w : World) (d : Nat) (var_name : String) (described : Option VariableInfo) :
    Effect :=
  match w.dataset? d with
  | none => none
  | some _ =>
    let work := w.dataset_work d
    if var_name = "" ∨ work.mode ≠ AMIO_MODE_READ then some (.error .ERR_INVALID_INPUT, w)
    else
      match resolve_variable work var_name described with
      | none => some (.error .ERR_BACKEND_FAILURE, w)
      | some (state, work') =>
        some (.ok (.metadata state.info.shape state.info.total_timesteps),
          w.set_dataset_work d work')

/-- `read`. `fetched` is the outcome of `get_buffer`, and `queue` the state of
    the queue at the end of the call. -/
def read (w : World) (d : Nat) (var_name : String) (timestep : Int)
    (bbox : Option AmioBbox) (described : Option VariableInfo)
    (fetched : Except AmioStatus Nat) (queue : QueueTables) : Effect :=
  match w.dataset? d with
  | none => none
  | some record =>
    let work := w.dataset_work d
    if var_name = "" ∨ work.mode ≠ AMIO_MODE_READ ∨ timestep < 0 then
      some (.error .ERR_INVALID_INPUT, w)
    else
      match resolve_variable work var_name described with
      | none => some (.error .ERR_BACKEND_FAILURE, w)
      | some (state, work') =>
        if timestep ≥ state.info.total_timesteps then
          some (.error .ERR_INVALID_INPUT, w.set_dataset_work d work')
        else
          match validate_bbox bbox state.info.shape with
          | .undefined => none
          | .thrown e => some (.error e, w.set_dataset_work d work')
          | .returned () =>
            -- the queue works on the pools of the core
            match w.core? record.core, fetched with
            | none, _ => none
            | some _, .error e =>
              some (.error e, w.set_dataset_work d (work'.set_queue var_name queue))
            | some _, .ok buf =>
              let minted := w.new_view d record.core
              some (.ok (.handle minted.2),
                { w.set_dataset_work d (work'.set_queue var_name queue) with
                  toHandles := minted.1
                  view_contents := Function.update w.view_contents w.views.length
                    (some ⟨buf, view_shape bbox state.info, state.info.dtype⟩) })

/-- `get_var_attribute_text`. `value` is the answer of the driver and `buf_cap`
    the size of the output buffer, if there is one. -/
def get_var_attribute_text (w : World) (d : Nat) (attr_name : String) (buf_cap : Option Nat)
    (value : Option (List Char)) : Effect :=
  match w.dataset? d with
  | none => none
  | some _ =>
    if attr_name = "" ∨ buf_cap = some 0 ∨ (w.dataset_work d).mode ≠ AMIO_MODE_READ then
      some (.error .ERR_INVALID_INPUT, w)
    else
      match value with
      | none => some (.error .ERR_BACKEND_FAILURE, w)
      | some text =>
        some (.ok (.text text.length (buf_cap.map fun cap => text.take (cap - 1))), w)

/-- `get_var_attribute_double` -/
def get_var_attribute_double (w : World) (d : Nat) (attr_name : String) (value : Option Rat) :
    Effect :=
  match w.dataset? d with
  | none => none
  | some _ =>
    if attr_name = "" ∨ (w.dataset_work d).mode ≠ AMIO_MODE_READ then
      some (.error .ERR_INVALID_INPUT, w)
    else
      match value with
      | none => some (.error .ERR_BACKEND_FAILURE, w)
      | some x => some (.ok (.value x), w)

/-- `flush` when it stops waiting -/
def flush (w : World) (d : Nat) : Effect :=
  match w.dataset? d with
  | none => none
  | some _ =>
    let work := w.dataset_work d
    if work.pending_writes ≠ 0 then some (.error .ERR_TIMEOUT, w)
    else
      match work.first_failure with
      | some e => some (.error e, w)
      | none => some (.ok .done, w)

/-- `close_dataset` when it stops waiting for the pending writes. It goes on
    after the timeout as well. -/
def close_dataset (w : World) (d : Nat) (flush_throws close_throws : Bool) : Effect :=
  match w.dataset? d with
  | none => none
  | some record =>
    if 0 < record.outstanding_views then some (.error .ERR_VIEWS_OUTSTANDING, w)
    else
      let work := w.dataset_work d
      let result :=
        match work.first_failure with
        | some e => .error e
        | none => if flush_throws ∨ close_throws then .error .ERR_BACKEND_FAILURE else .ok .done
      let variable_states := work.variable_states.map fun state =>
        { state with queue := state.queue.cancel_pending }
      some (result, { w.set_dataset_work d { work with variable_states } with
        toHandles := w.toHandles.close_dataset d record })

/-- `wait` when it stops waiting. It reads the request record only. -/
def wait (w : World) (i : Nat) : Effect :=
  match w.ios[i]? with
  | none => none
  | some _ =>
    if (w.io_work i).completed then
      match (w.io_work i).failure with
      | some e => some (.error e, w)
      | none => some (.ok .done, w)
    else some (.error .ERR_TIMEOUT, w)

/-- `release_view`. The buffer and the registry are those of the core. -/
def release_view (w : World) (v : Nat) : Effect :=
  match w.view? v with
  | none => none
  | some view =>
    match w.core? view.core with
    | none => none
    | some core =>
      some (.ok .done, { w with toHandles := w.toHandles.release_view v view core })

/-- `view_data`. The buffer lies in the staging pool of the core. -/
def view_data (w : World) (v : Nat) : Effect :=
  match w.view? v with
  | none => none
  | some view =>
    match w.core? view.core, w.view_contents v with
    | some _, some contents => some (.ok (.data contents.staging_buf), w)
    | _, _ => none

/-- `view_shape` and `view_dtype`, by the field that they report -/
def view_field (w : World) (v : Nat) (field : ViewContents → Output) : Effect :=
  match w.view? v, w.view_contents v with
  | some _, some contents => some (.ok (field contents), w)
  | _, _ => none

/-! ### Workers and teardown -/

/-- The closure of a write runs. A failed write is not marked completed. The
    pools are joined before the records are deleted. -/
def execute (w : World) (x : QueuedWrite) (throws : Bool) : World :=
  let work := w.dataset_work x.dataset
  let first_failure :=
    if throws then work.first_failure.or (some .ERR_BACKEND_FAILURE) else work.first_failure
  { w.set_dataset_work x.dataset
      { work with first_failure, pending_writes := work.pending_writes - 1 } with
    io_work := Function.update w.io_work x.io
      (if throws then
        { (w.io_work x.io) with failure := some .ERR_BACKEND_FAILURE }
      else { (w.io_work x.io) with completed := true })
    writes := w.writes.erase x }

@[simp] theorem toHandles_execute (w : World) (x : QueuedWrite) (throws : Bool) :
    (w.execute x throws).toHandles = w.toHandles := rfl

/-- Step 1 of `finalize`: of each queued write of the core, whether it still
    runs and whether it throws. -/
def drain (w : World) (c : Nat) (drained : QueuedWrite → Option Bool) : World :=
  let own := w.writes.filter (·.core = c)
  let ran := own.foldl (fun w x => (drained x).elim w (w.execute x)) w
  { ran with writes := w.writes.filter (·.core ≠ c) }

/-- `finalize` -/
def finalize (w : World) (c : Nat) (drained : QueuedWrite → Option Bool)
    (flush_throws : Nat → Bool) : Effect :=
  match w.core? c with
  | none => none
  | some core =>
    some (.ok .done,
      { w.drain c drained with toHandles := w.toHandles.finalize c core flush_throws })

end World

/-! ## Section 4: Calls -/

/-- The calls on a core handle. -/
inductive CoreCall
  | open_dataset (mode : Int) (opened : Except AmioStatus Unit)
  | finalize (drained : QueuedWrite → Option Bool) (flush_throws : Nat → Bool)

/-- The calls on a dataset handle. -/
inductive DatasetCall
  | write (args : WriteArgs) (acquired : Option Nat) (queued : Bool)
  | describe (var_name : String) (described : Option VariableInfo)
  | read (var_name : String) (timestep : Int) (bbox : Option AmioBbox)
      (described : Option VariableInfo) (fetched : Except AmioStatus Nat) (queue : QueueTables)
  | get_var_attribute_text (attr_name : String) (buf_cap : Option Nat)
      (value : Option (List Char))
  | get_var_attribute_double (attr_name : String) (value : Option Rat)
  | flush
  | close (flush_throws close_throws : Bool)

/-- The calls on a view handle. -/
inductive ViewCall
  | release
  | data
  | shape
  | dtype

/-- A call of the C API. The flag tells whether its pointer arguments, other
    than the handle, are all there; a call whose arguments are out of range in
    another way that it checks itself counts as one that lacks them. -/
inductive Call
  | init (pointers : Bool) (built : Except AmioStatus Bool)
  | core (token : Token) (pointers : Bool) (op : CoreCall)
  | dataset (token : Token) (pointers : Bool) (op : DatasetCall)
  | wait (token : Token)
  | view (token : Token) (pointers : Bool) (op : ViewCall)

namespace World

def run_core (w : World) : CoreCall → Nat → Effect
  | .open_dataset mode opened, c => w.open_dataset c mode opened
  | .finalize drained flush_throws, c => w.finalize c drained flush_throws

def run_dataset (w : World) : DatasetCall → Nat → Effect
  | .write args acquired queued, d => w.write d args acquired queued
  | .describe var_name described, d => w.describe d var_name described
  | .read var_name timestep bbox described fetched queue, d =>
    w.read d var_name timestep bbox described fetched queue
  | .get_var_attribute_text attr_name buf_cap value, d =>
    w.get_var_attribute_text d attr_name buf_cap value
  | .get_var_attribute_double attr_name value, d => w.get_var_attribute_double d attr_name value
  | .flush, d => w.flush d
  | .close flush_throws close_throws, d => w.close_dataset d flush_throws close_throws

def run_view (w : World) : ViewCall → Nat → Effect
  | .release, v => w.release_view v
  | .data, v => w.view_data v
  | .shape, v => w.view_field v fun contents => .shape contents.shape
  | .dtype, v => w.view_field v fun contents => .dtype contents.dtype

/-- `kind_dispatch`. The payload of a handle is a pointer to a record of its
    kind. -/
def kind_dispatch (w : World) (token : Token) (expected : HandleKind) (op : Payload → Effect) :
    Effect :=
  match w.table.table.lookup token expected with
  | .error e => some (.error e, w)
  | .ok none => none
  | .ok (some payload) => op payload

/-- A call. -/
def call (w : World) : Call → Effect
  | .init pointers built =>
    if pointers then w.init built else some (.error .ERR_INVALID_INPUT, w)
  | .core token pointers op =>
    if pointers then
      w.kind_dispatch token .Core fun
        | .core c => w.run_core op c
        | _ => none
    else some (.error .ERR_INVALID_INPUT, w)
  | .dataset token pointers op =>
    if pointers then
      w.kind_dispatch token .Dataset fun
        | .dataset d => w.run_dataset op d
        | _ => none
    else some (.error .ERR_INVALID_INPUT, w)
  | .wait token =>
    w.kind_dispatch token .Io fun
      | .io i => w.wait i
      | _ => none
  | .view token pointers op =>
    if pointers then
      w.kind_dispatch token .View fun
        | .view v => w.run_view op v
        | _ => none
    else some (.error .ERR_INVALID_INPUT, w)

end World

/-- The handle that a call is made with. -/
def Call.token : Call → Option Token
  | .init _ _ => none
  | .core token _ _ => some token
  | .dataset token _ _ => some token
  | .wait token => some token
  | .view token _ _ => some token

/-- A step: a call of the host, or a worker. -/
inductive Event
  | call (q : Call)
  /-- A worker runs a queued write. -/
  | execute (x : QueuedWrite) (throws : Bool)
  /-- The workers move the queue of a variable. -/
  | prefetch (d : Nat) (var_name : String) (queue : QueueTables)

/-- One step. A call without a result ends the run. -/
def World.next (w : World) : Event → Option World
  | .call q => (w.call q).map Prod.snd
  | .execute x throws => if x ∈ w.writes then some (w.execute x throws) else none
  | .prefetch d var_name queue =>
    match w.dataset? d with
    | none => none
    | some _ => some (w.set_dataset_work d ((w.dataset_work d).set_queue var_name queue))

/-- Every run of calls and workers. -/
def boundary : System World Event := .ofNext (· = .empty) World.next

/-! ## Section 5: What a step does to the handles -/

section Changes

variable {w w' : World}

theorem core?_iff {h : Handles} {c : Nat} {r : CoreRecord} :
    h.core? c = some r ↔ h.cores[c]? = some r ∧ r.destroyed = false := by
  simp [Handles.core?, Option.filter_eq_some_iff]

theorem dataset?_iff {h : Handles} {d : Nat} {r : DatasetRecord} :
    h.dataset? d = some r ↔ h.datasets[d]? = some r ∧ r.destroyed = false := by
  simp [Handles.dataset?, Option.filter_eq_some_iff]

theorem view?_iff {h : Handles} {v : Nat} {r : ViewRecord} :
    h.view? v = some r ↔ h.views[v]? = some r ∧ r.destroyed = false := by
  simp [Handles.view?, Option.filter_eq_some_iff]

/-- Does the call make a record when it succeeds? -/
def Call.mints : Call → Bool
  | .init _ _ => true
  | .core _ _ (.open_dataset _ _) => true
  | .dataset _ _ (.write _ _ _) => true
  | .dataset _ _ (.read _ _ _ _ _ _) => true
  | _ => false

/-- What a call may do to the handles, with the facts that it has checked. -/
inductive Change (w : World) : Call → Handles → Prop
  | same {q : Call} : Change w q w.toHandles
  | new_core {q : Call} (hq : q.mints = true) {has_workers : Bool} :
      Change w q (w.new_core has_workers).1
  | new_dataset {q : Call} (hq : q.mints = true) {c : Nat} {core : CoreRecord}
      (hcore : w.core? c = some core) : Change w q (w.new_dataset c).1
  | new_io {q : Call} (hq : q.mints = true) {d : Nat} {record : DatasetRecord}
      {core : CoreRecord} (hrecord : w.dataset? d = some record)
      (hcore : w.core? record.core = some core) : Change w q (w.new_io d record.core).1
  | new_view {q : Call} (hq : q.mints = true) {d : Nat} {record : DatasetRecord}
      {core : CoreRecord} (hrecord : w.dataset? d = some record)
      (hcore : w.core? record.core = some core) : Change w q (w.new_view d record.core).1
  | close {t : Token} {flush_throws close_throws : Bool} {d : Nat} {record : DatasetRecord}
      (hlive : (t, .Dataset, some (.dataset d)) ∈ w.table.handles)
      (hrecord : w.dataset? d = some record) (hviews : record.outstanding_views = 0) :
      Change w (.dataset t true (.close flush_throws close_throws))
        (w.toHandles.close_dataset d record)
  | release_view {t : Token} {v : Nat} {view : ViewRecord} {core : CoreRecord}
      (hlive : (t, .View, some (.view v)) ∈ w.table.handles) (hview : w.view? v = some view)
      (hcore : w.core? view.core = some core) :
      Change w (.view t true .release) (w.toHandles.release_view v view core)
  | finalize {t : Token} {drained : QueuedWrite → Option Bool} {flush_throws : Nat → Bool}
      {c : Nat} {core : CoreRecord} (hlive : (t, .Core, some (.core c)) ∈ w.table.handles)
      (hcore : w.core? c = some core) :
      Change w (.core t true (.finalize drained flush_throws))
        (w.toHandles.finalize c core flush_throws)

theorem kind_dispatch_cases (htable : TableInv w.table) {token : Token} {expected : HandleKind}
    {op : Payload → Effect} {res : Except AmioStatus Output}
    (h : w.kind_dispatch token expected op = some (res, w')) :
    w' = w ∨ ∃ payload, (token, expected, some payload) ∈ w.table.handles ∧
      op payload = some (res, w') := by
  unfold World.kind_dispatch at h
  cases hl : w.table.table.lookup token expected with
  | error e =>
    rw [hl] at h
    cases h
    exact .inl rfl
  | ok p =>
    rw [hl] at h
    cases p with
    | none => cases h
    | some payload => exact .inr ⟨payload, (htable.lookup_iff _ _ _).mp hl, h⟩

theorem open_dataset_cases {c : Nat} {mode : Int} {opened : Except AmioStatus Unit}
    {res : Except AmioStatus Output} (h : w.open_dataset c mode opened = some (res, w')) :
    w'.toHandles = w.toHandles ∨
      ∃ core, w.core? c = some core ∧ w'.toHandles = (w.new_dataset c).1 := by
  unfold World.open_dataset at h
  split at h
  · cases h
  next core hcore =>
  split at h
  · cases h
    exact .inl rfl
  · cases h
    exact .inr ⟨core, hcore, rfl⟩

theorem write_cases {d : Nat} {args : WriteArgs} {acquired : Option Nat} {queued : Bool}
    {res : Except AmioStatus Output} (h : w.write d args acquired queued = some (res, w')) :
    w'.toHandles = w.toHandles ∨ ∃ record core, w.dataset? d = some record ∧
      w.core? record.core = some core ∧ w'.toHandles = (w.new_io d record.core).1 := by
  unfold World.write at h
  split at h
  · cases h
  next record hrecord =>
  split at h
  · cases h
    exact .inl rfl
  split at h
  · cases h
  · cases h
    exact .inl rfl
  next core _ hcore =>
  simp only [Option.some.injEq, Prod.mk.injEq] at h
  refine .inr ⟨record, core, hrecord, hcore, ?_⟩
  rw [← h.2]
  -- with and without a worker pool
  split
  · rfl
  · rfl

theorem read_cases {d : Nat} {var_name : String} {timestep : Int} {bbox : Option AmioBbox}
    {described : Option VariableInfo} {fetched : Except AmioStatus Nat} {queue : QueueTables}
    {res : Except AmioStatus Output}
    (h : w.read d var_name timestep bbox described fetched queue = some (res, w')) :
    w'.toHandles = w.toHandles ∨ ∃ record core, w.dataset? d = some record ∧
      w.core? record.core = some core ∧ w'.toHandles = (w.new_view d record.core).1 := by
  unfold World.read at h
  split at h
  · cases h
  next record hrecord =>
  dsimp only at h
  split at h
  · cases h
    exact .inl rfl
  split at h
  · cases h
    exact .inl rfl
  split at h
  · cases h
    exact .inl rfl
  split at h
  · cases h
  · cases h
    exact .inl rfl
  split at h
  · cases h
  · cases h
    exact .inl rfl
  next core _ hcore =>
  cases h
  exact .inr ⟨record, core, hrecord, hcore, rfl⟩

theorem close_dataset_cases {d : Nat} {flush_throws close_throws : Bool}
    {res : Except AmioStatus Output}
    (h : w.close_dataset d flush_throws close_throws = some (res, w')) :
    w' = w ∨ ∃ record, w.dataset? d = some record ∧ record.outstanding_views = 0 ∧
      w'.toHandles = w.toHandles.close_dataset d record := by
  unfold World.close_dataset at h
  split at h
  · cases h
  next record hrecord =>
  split at h
  · cases h
    exact .inl rfl
  next hviews =>
  cases h
  exact .inr ⟨record, hrecord, by omega, rfl⟩

theorem release_view_cases {v : Nat} {res : Except AmioStatus Output}
    (h : w.release_view v = some (res, w')) :
    ∃ view core, w.view? v = some view ∧ w.core? view.core = some core ∧
      w'.toHandles = w.toHandles.release_view v view core := by
  unfold World.release_view at h
  split at h
  · cases h
  next view hview =>
  split at h
  · cases h
  next core hcore =>
  cases h
  exact ⟨view, core, hview, hcore, rfl⟩

theorem finalize_cases {c : Nat} {drained : QueuedWrite → Option Bool}
    {flush_throws : Nat → Bool} {res : Except AmioStatus Output}
    (h : w.finalize c drained flush_throws = some (res, w')) :
    ∃ core, w.core? c = some core ∧
      w'.toHandles = w.toHandles.finalize c core flush_throws := by
  unfold World.finalize at h
  split at h
  · cases h
  next core hcore =>
  cases h
  exact ⟨core, hcore, rfl⟩

theorem run_dataset_reports {op : DatasetCall} {d : Nat} {res : Except AmioStatus Output}
    (hwrite : ∀ args acquired queued, op ≠ .write args acquired queued)
    (hread : ∀ var_name timestep bbox described fetched queue,
      op ≠ .read var_name timestep bbox described fetched queue)
    (hclose : ∀ flush_throws close_throws, op ≠ .close flush_throws close_throws)
    (h : w.run_dataset op d = some (res, w')) : w'.toHandles = w.toHandles := by
  cases op with
  | write args acquired queued => exact absurd rfl (hwrite args acquired queued)
  | read var_name timestep bbox described fetched queue =>
    exact absurd rfl (hread var_name timestep bbox described fetched queue)
  | close flush_throws close_throws => exact absurd rfl (hclose flush_throws close_throws)
  | describe var_name described =>
    simp only [World.run_dataset, World.describe] at h
    repeat' split at h
    all_goals cases h
    all_goals rfl
  | get_var_attribute_text attr_name buf_cap value =>
    simp only [World.run_dataset, World.get_var_attribute_text] at h
    repeat' split at h
    all_goals cases h
    all_goals rfl
  | get_var_attribute_double attr_name value =>
    simp only [World.run_dataset, World.get_var_attribute_double] at h
    repeat' split at h
    all_goals cases h
    all_goals rfl
  | flush =>
    simp only [World.run_dataset, World.flush] at h
    repeat' split at h
    all_goals cases h
    all_goals rfl

theorem wait_cases {i : Nat} {res : Except AmioStatus Output} (h : w.wait i = some (res, w')) :
    w' = w := by
  unfold World.wait at h
  repeat' split at h
  all_goals cases h
  all_goals rfl

theorem view_data_cases {v : Nat} {res : Except AmioStatus Output}
    (h : w.view_data v = some (res, w')) : w' = w := by
  unfold World.view_data at h
  repeat' split at h
  all_goals cases h
  rfl

theorem view_field_cases {v : Nat} {field : ViewContents → Output}
    {res : Except AmioStatus Output} (h : w.view_field v field = some (res, w')) : w' = w := by
  unfold World.view_field at h
  split at h
  · cases h
    rfl
  · cases h

/-- **Every call is one of the changes.** -/
theorem call_change (htable : TableInv w.table) {q : Call} {res : Except AmioStatus Output}
    (h : w.call q = some (res, w')) : Change w q w'.toHandles := by
  have hsame : ∀ q, w'.toHandles = w.toHandles → Change w q w'.toHandles := by
    intro q heq
    rw [heq]
    exact .same
  cases q with
  | init pointers built =>
    cases pointers with
    | false => cases h; exact .same
    | true =>
      cases built with
      | error e => cases h; exact .same
      | ok has_workers => cases h; exact .new_core rfl
  | core token pointers op =>
    cases pointers with
    | false => cases h; exact .same
    | true =>
      obtain rfl | ⟨payload, hlive, hrun⟩ := kind_dispatch_cases htable h
      · exact .same
      cases payload with
      | core c =>
        cases op with
        | open_dataset mode opened =>
          obtain heq | ⟨core, hcore, heq⟩ := open_dataset_cases hrun
          · exact hsame _ heq
          · rw [heq]
            exact .new_dataset rfl hcore
        | finalize drained flush_throws =>
          obtain ⟨core, hcore, heq⟩ := finalize_cases hrun
          rw [heq]
          exact .finalize hlive hcore
      | dataset d => cases hrun
      | io i => cases hrun
      | view v => cases hrun
  | dataset token pointers op =>
    cases pointers with
    | false => cases h; exact .same
    | true =>
      obtain rfl | ⟨payload, hlive, hrun⟩ := kind_dispatch_cases htable h
      · exact .same
      cases payload with
      | dataset d =>
        cases op with
        | write args acquired queued =>
          obtain heq | ⟨record, core, hrecord, hcore, heq⟩ := write_cases hrun
          · exact hsame _ heq
          · rw [heq]
            exact .new_io rfl hrecord hcore
        | read var_name timestep bbox described fetched queue =>
          obtain heq | ⟨record, core, hrecord, hcore, heq⟩ := read_cases hrun
          · exact hsame _ heq
          · rw [heq]
            exact .new_view rfl hrecord hcore
        | close flush_throws close_throws =>
          obtain rfl | ⟨record, hrecord, hviews, heq⟩ := close_dataset_cases hrun
          · exact .same
          · rw [heq]
            exact .close hlive hrecord hviews
        | describe var_name described =>
          exact hsame _ (run_dataset_reports (by simp) (by simp) (by simp) hrun)
        | get_var_attribute_text attr_name buf_cap value =>
          exact hsame _ (run_dataset_reports (by simp) (by simp) (by simp) hrun)
        | get_var_attribute_double attr_name value =>
          exact hsame _ (run_dataset_reports (by simp) (by simp) (by simp) hrun)
        | flush => exact hsame _ (run_dataset_reports (by simp) (by simp) (by simp) hrun)
      | core c => cases hrun
      | io i => cases hrun
      | view v => cases hrun
  | wait token =>
    obtain rfl | ⟨payload, -, hrun⟩ := kind_dispatch_cases htable h
    · exact .same
    cases payload with
    | io i =>
      obtain rfl := wait_cases hrun
      exact .same
    | core c => cases hrun
    | dataset d => cases hrun
    | view v => cases hrun
  | view token pointers op =>
    cases pointers with
    | false => cases h; exact .same
    | true =>
      obtain rfl | ⟨payload, hlive, hrun⟩ := kind_dispatch_cases htable h
      · exact .same
      cases payload with
      | view v =>
        cases op with
        | release =>
          obtain ⟨view, core, hview, hcore, heq⟩ := release_view_cases hrun
          rw [heq]
          exact .release_view hlive hview hcore
        | data =>
          obtain rfl := view_data_cases hrun
          exact .same
        | shape =>
          obtain rfl := view_field_cases hrun
          exact .same
        | dtype =>
          obtain rfl := view_field_cases hrun
          exact .same
      | core c => cases hrun
      | dataset d => cases hrun
      | io i => cases hrun

end Changes

end Amio.Boundary
