import Helm.Framework.System
import Helm.Framework.Holders
import Helm.Amio.Errors

/-! # Worker_Pool

  The background threads of `workers/worker_pool.cpp`. Clients submit write
  and prefetch tasks; workers take them from two queues and run their
  callbacks.

  - A write task gets a sequence number for its (dataset, variable) pair
    when it is queued. A worker takes the front of the write queue and runs
    it only when its number is the next one of its pair; otherwise it puts
    the task back at the end of the queue.
  - Prefetch tasks are taken by smallest distance, when the write queue has
    nothing to offer.
  - `shutdown` sets a flag, and returns when every worker has left its loop.

  The model is a transition system over the sections of the code that hold
  the queue mutex `mu_`. Everything the threads do between two such sections
  is one label: the check of the shutdown flag before the lock is taken, the
  critical section itself, the end of a callback. `notify` only makes a
  sleeping thread look again; since every wait of the code has a timeout, a
  sleeping thread may look again at any time, and that is how waking up is
  modelled.
-/

namespace Amio

open scoped List
open Holders (held)

/-! ## Section 1: Data -/

/-- A (dataset, variable) pair. -/
structure DatasetVariableKey where
  dataset_id : Nat
  variable_id : Nat
  deriving DecidableEq

/-- A queued write. The callback is left abstract. -/
structure WriteTask (Cb : Type) where
  dv_key : DatasetVariableKey
  dv_seq : Nat
  /-- The handle failures are recorded against; 0 for none. -/
  handle_id : Nat
  callback : Cb
  deriving DecidableEq

/-- A queued prefetch. A smaller distance has priority. -/
structure PrefetchTask (Cb : Type) where
  timestep : Int
  distance : Int
  dataset_id : Nat
  handle_id : Nat
  callback : Cb
  deriving DecidableEq

/-- Admission control of the write queue. -/
structure BackpressureConfig where
  enabled : Bool := false
  low_watermark : Nat := 0
  high_watermark : Nat := 0
  queue_capacity : Nat := 1024
  deriving DecidableEq

/-! ### Exception cordon -/

/-- `conf::Error_Code` -/
inductive ConfErrorCode
  | Success
  | Invalid_Arg
  | File_Not_Found
  | Parse_Error
  | Key_Not_Found
  | Type_Mismatch
  | Bad_Handle
  | Buffer_Too_Small
  | Unknown
  deriving DecidableEq

/-- What a callback can throw, as far as the catch clauses tell it apart. -/
inductive Exc
  | conf_error (code : ConfErrorCode) (what : String)
  | invalid_argument (what : String)
  | std_exception (what : String)
  | other
  deriving DecidableEq

/-- A recorded failure. -/
structure TaskOutcome where
  error_code : AmioStatus
  message : String
  deriving DecidableEq

/-- `translate_exception_to_error` -/
def translate_exception_to_error : Exc → TaskOutcome
  | .conf_error code what =>
    match code with
    | .File_Not_Found => ⟨.ERR_MANIFEST_NOT_FOUND, what⟩
    | .Parse_Error | .Key_Not_Found => ⟨.ERR_MANIFEST_INVALID, what⟩
    | .Type_Mismatch | .Invalid_Arg => ⟨.ERR_INVALID_INPUT, what⟩
    | _ => ⟨.ERR_BACKEND_FAILURE, what⟩
  | .invalid_argument what => ⟨.ERR_INVALID_INPUT, what⟩
  | .std_exception what => ⟨.ERR_BACKEND_FAILURE, what⟩
  | .other => ⟨.ERR_BACKEND_FAILURE, "Unknown exception (non-std)"⟩

/-- What the end of a callback leaves in the outcome registry. Only failures
    are recorded, and only for tasks that carry a handle. -/
def execute_with_exception_cordon (exc : Option Exc) (handle_id : Nat)
    (outcomes : Nat → List TaskOutcome) : Nat → List TaskOutcome :=
  match exc with
  | none => outcomes
  | some e =>
    if handle_id ≠ 0 then
      Function.update outcomes handle_id (outcomes handle_id ++ [translate_exception_to_error e])
    else outcomes

/-! ### Threads -/

/-- A call of a client thread. -/
inductive Call (Cb : Type)
  | submit_write (dv_key : DatasetVariableKey) (handle_id : Nat) (callback : Cb)
  | submit_prefetch (task : PrefetchTask Cb)
  deriving DecidableEq

/-- Where a client thread stands. -/
inductive ClientPhase (Cb : Type)
  /-- In no call. The result of the last one is the sequence number that the
      call reports with `AMIO_OK`, or an error. -/
  | ready (last : Option (Except AmioStatus Nat))
  /-- Has found the shutdown flag unset, and has not yet taken the lock. -/
  | checked (call : Call Cb)
  /-- Waits for the write queue to become shorter. -/
  | waiting (dv_key : DatasetVariableKey) (handle_id : Nat) (callback : Cb)

/-- Where a worker thread stands. -/
inductive WorkerPhase (Cb : Type)
  /-- At the top of its loop. -/
  | idle
  | writing (task : WriteTask Cb)
  | prefetching (task : PrefetchTask Cb)
  /-- Has left its loop. -/
  | exited
  deriving DecidableEq

namespace WorkerPhase

variable {Cb : Type}

/-- The write whose callback the worker runs. -/
@[simp] def write : WorkerPhase Cb → Option (WriteTask Cb)
  | .idle => none
  | .writing task => some task
  | .prefetching _ => none
  | .exited => none

/-- Does the worker run a callback? -/
@[simp] def busy : WorkerPhase Cb → Option Unit
  | .idle => none
  | .writing _ => some ()
  | .prefetching _ => some ()
  | .exited => none

end WorkerPhase

/-- The state of the pool and of the threads that use it. -/
structure WorkerPool (Cb : Type) (n : Nat) where
  backpressure : BackpressureConfig
  shutdown : Bool
  write_queue : List (WriteTask Cb)
  prefetch_queue : List (PrefetchTask Cb)
  next_seq : DatasetVariableKey → Nat
  exec_seq : DatasetVariableKey → Nat
  in_flight : Nat
  outcomes : Nat → List TaskOutcome
  workers : Fin n → WorkerPhase Cb
  clients : Nat → ClientPhase Cb
  /-- The writes accepted so far, in the order of acceptance. -/
  submitted : List (WriteTask Cb)
  /-- The writes whose callback has been entered, in that order. -/
  started : List (WriteTask Cb)
  /-- The writes whose callback has returned or thrown, in that order. -/
  executed : List (WriteTask Cb)
  /-- Has `shutdown` returned? -/
  joined : Bool

/-- The steps of the threads. -/
inductive WorkerLabel (Cb : Type) (n : Nat)
  /-- Client `c` makes a call and reads the shutdown flag. -/
  | check (c : Nat) (call : Call Cb)
  /-- Client `c` takes the lock. -/
  | enter (c : Nat)
  /-- Client `c` stops waiting, because the queue has become shorter, because
      of shutdown or because its time is up. -/
  | resume (c : Nat)
  /-- Worker `w` takes the lock and looks for work. A prefetch task it takes is
      the one at position `pick`. -/
  | wake (w : Fin n) (pick : Nat)
  /-- The callback that worker `w` runs returns, or throws `exc`. -/
  | finish (w : Fin n) (exc : Option Exc)
  /-- `shutdown` sets the flag. -/
  | shutdown
  /-- `shutdown` has joined all workers and returns. -/
  | join

/-! ## Section 2: Steps -/

namespace WorkerPool

variable {Cb : Type} {n : Nat}

/-- A new pool. -/
def make (backpressure : BackpressureConfig) : WorkerPool Cb n where
  backpressure := backpressure
  shutdown := false
  write_queue := []
  prefetch_queue := []
  next_seq := fun _ => 0
  exec_seq := fun _ => 0
  in_flight := 0
  outcomes := fun _ => []
  workers := fun _ => .idle
  clients := fun _ => .ready none
  submitted := []
  started := []
  executed := []
  joined := false

/-- Client `c` moves. -/
def set_client (s : WorkerPool Cb n) (c : Nat) (phase : ClientPhase Cb) : WorkerPool Cb n :=
  { s with clients := Function.update s.clients c phase }

/-- Worker `w` moves. -/
def set_worker (s : WorkerPool Cb n) (w : Fin n) (phase : WorkerPhase Cb) : WorkerPool Cb n :=
  { s with workers := Function.update s.workers w phase }

/-! ### Clients -/

/-- The end of `submit_write`: number the task, queue it and return the number. -/
def enqueue_write (s : WorkerPool Cb n) (c : Nat) (dv_key : DatasetVariableKey) (handle_id : Nat)
    (callback : Cb) : WorkerPool Cb n :=
  let seq := s.next_seq dv_key
  let task : WriteTask Cb := { dv_key, dv_seq := seq, handle_id, callback }
  { s.set_client c (.ready (some (.ok seq))) with
    next_seq := Function.update s.next_seq dv_key (seq + 1)
    write_queue := s.write_queue ++ [task]
    submitted := s.submitted ++ [task] }

/-- `submit_write` with backpressure, after the wait: the shutdown flag is
    read again, this time under the lock. -/
def admit_write (s : WorkerPool Cb n) (c : Nat) (dv_key : DatasetVariableKey) (handle_id : Nat)
    (callback : Cb) : WorkerPool Cb n :=
  if s.shutdown then s.set_client c (.ready (some (.ok 0)))
  else s.enqueue_write c dv_key handle_id callback

/-- `submit_write` under the lock. Without backpressure the flag is not read
    again. -/
def submit_write (s : WorkerPool Cb n) (c : Nat) (dv_key : DatasetVariableKey) (handle_id : Nat)
    (callback : Cb) : WorkerPool Cb n :=
  if s.backpressure.enabled then
    if s.backpressure.high_watermark ≤ s.write_queue.length ∧
        ¬ (s.write_queue.length < s.backpressure.low_watermark ∨ s.shutdown = true) then
      s.set_client c (.waiting dv_key handle_id callback)
    else s.admit_write c dv_key handle_id callback
  else if s.backpressure.queue_capacity ≤ s.write_queue.length then
    s.set_client c (.ready (some (.error .ERR_QUEUE_FULL)))
  else s.enqueue_write c dv_key handle_id callback

/-- `submit_prefetch` under the lock -/
def submit_prefetch (s : WorkerPool Cb n) (c : Nat) (task : PrefetchTask Cb) : WorkerPool Cb n :=
  { s.set_client c (.ready none) with prefetch_queue := s.prefetch_queue ++ [task] }

/-! ### Workers -/

/-- Take the prefetch task at position `pick`, one of smallest distance. -/
def pop_prefetch (s : WorkerPool Cb n) (w : Fin n) (pick : Nat) : Option (WorkerPool Cb n) :=
  match s.prefetch_queue[pick]? with
  | some task =>
    if ∀ other ∈ s.prefetch_queue, task.distance ≤ other.distance then
      some
        { s.set_worker w (.prefetching task) with
          prefetch_queue := s.prefetch_queue.eraseIdx pick
          in_flight := s.in_flight + 1 }
    else none
  | none => none

/-- `try_execute_one` up to the callback -/
def try_execute_one (s : WorkerPool Cb n) (w : Fin n) (pick : Nat) : Option (WorkerPool Cb n) :=
  match s.write_queue with
  | task :: rest =>
    if task.dv_seq ≠ s.exec_seq task.dv_key then
      -- not ready yet: re-enqueue and try a prefetch task instead
      let s := { s with write_queue := rest ++ [task] }
      if s.prefetch_queue.isEmpty then some s else s.pop_prefetch w pick
    else
      some
        { s.set_worker w (.writing task) with
          write_queue := rest
          in_flight := s.in_flight + 1
          started := s.started ++ [task] }
  | [] => if s.prefetch_queue.isEmpty then some s else s.pop_prefetch w pick

/-- One turn of `worker_loop` up to the callback -/
def worker_loop (s : WorkerPool Cb n) (w : Fin n) (pick : Nat) : Option (WorkerPool Cb n) :=
  if s.shutdown ∧ s.write_queue.isEmpty ∧ s.prefetch_queue.isEmpty then
    some (s.set_worker w .exited)
  else s.try_execute_one w pick

/-- `try_execute_one` from the end of a write callback on. The sequence counter
    advances whether or not the callback has thrown. -/
def finish_write (s : WorkerPool Cb n) (w : Fin n) (task : WriteTask Cb) (exc : Option Exc) :
    WorkerPool Cb n :=
  { s.set_worker w .idle with
    outcomes := execute_with_exception_cordon exc task.handle_id s.outcomes
    exec_seq := Function.update s.exec_seq task.dv_key (s.exec_seq task.dv_key + 1)
    in_flight := s.in_flight - 1
    executed := s.executed ++ [task] }

/-- `try_execute_one` from the end of a prefetch callback on -/
def finish_prefetch (s : WorkerPool Cb n) (w : Fin n) (task : PrefetchTask Cb) (exc : Option Exc) :
    WorkerPool Cb n :=
  { s.set_worker w .idle with
    outcomes := execute_with_exception_cordon exc task.handle_id s.outcomes
    in_flight := s.in_flight - 1 }

/-! ### The transition function -/

/-- One step of a thread; `none` when the thread is not there. -/
def next (s : WorkerPool Cb n) : WorkerLabel Cb n → Option (WorkerPool Cb n)
  | .check c call =>
    match s.clients c with
    | .ready _ =>
      if s.shutdown then some (s.set_client c (.ready (some (.ok 0))))
      else some (s.set_client c (.checked call))
    | _ => none
  | .enter c =>
    match s.clients c with
    | .checked (.submit_write dv_key handle_id callback) =>
      some (s.submit_write c dv_key handle_id callback)
    | .checked (.submit_prefetch task) => some (s.submit_prefetch c task)
    | _ => none
  | .resume c =>
    match s.clients c with
    | .waiting dv_key handle_id callback => some (s.admit_write c dv_key handle_id callback)
    | _ => none
  | .wake w pick =>
    match s.workers w with
    | .idle => s.worker_loop w pick
    | _ => none
  | .finish w exc =>
    match s.workers w with
    | .writing task => some (s.finish_write w task exc)
    | .prefetching task => some (s.finish_prefetch w task exc)
    | _ => none
  | .shutdown => if s.shutdown then none else some { s with shutdown := true }
  | .join =>
    if s.shutdown ∧ ∀ w, (s.workers w matches .exited) then some { s with joined := true } else none

/-- The condition that `drain` waits for -/
def drained (s : WorkerPool Cb n) : Bool :=
  s.write_queue.isEmpty && s.prefetch_queue.isEmpty && s.in_flight == 0

/-- The pool with `n` workers, under any configuration. -/
def system (Cb : Type) (n : Nat) : LTS.System (WorkerPool Cb n) (WorkerLabel Cb n) :=
  .ofNext (fun s => ∃ backpressure, s = make backpressure) next

/-! ## Section 3: What a step can do -/

/-- The client whose step `l` is. -/
def client_of : WorkerLabel Cb n → Option Nat
  | .check c _ => some c
  | .enter c => some c
  | .resume c => some c
  | _ => none

/-- **Everything a step can do.** The invariants are proved from this list. -/
inductive Effect (s : WorkerPool Cb n) : WorkerLabel Cb n → WorkerPool Cb n → Prop
  /-- A client moves, and nothing is queued. -/
  | client {l : WorkerLabel Cb n} (c : Nat) (phase : ClientPhase Cb) (hl : client_of l = some c) :
      Effect s l (s.set_client c phase)
  /-- A write is accepted. -/
  | accept {l : WorkerLabel Cb n} (c : Nat) (dv_key : DatasetVariableKey) (handle_id : Nat)
      (callback : Cb) (hl : client_of l = some c)
      (hcall : s.clients c = .checked (.submit_write dv_key handle_id callback) ∨
        s.clients c = .waiting dv_key handle_id callback) :
      Effect s l (s.enqueue_write c dv_key handle_id callback)
  | schedule {l : WorkerLabel Cb n} (c : Nat) (task : PrefetchTask Cb) (hl : client_of l = some c) :
      Effect s l (s.submit_prefetch c task)
  /-- A worker leaves its loop. -/
  | exit (w : Fin n) (pick : Nat) (hidle : s.workers w = .idle) (hshutdown : s.shutdown = true)
      (hwrite : s.write_queue = []) : Effect s (.wake w pick) (s.set_worker w .exited)
  /-- A worker finds nothing to do: the front of the write queue, if any, is
      not ready and goes to the end. -/
  | pass (w : Fin n) (pick : Nat) (hidle : s.workers w = .idle)
      (hfront : ∀ task ∈ s.write_queue.head?, task.dv_seq ≠ s.exec_seq task.dv_key) :
      Effect s (.wake w pick) { s with write_queue := s.write_queue.rotate 1 }
  /-- A worker starts a prefetch. -/
  | fetch (w : Fin n) (pick : Nat) (task : PrefetchTask Cb) (hidle : s.workers w = .idle)
      (hfront : ∀ task ∈ s.write_queue.head?, task.dv_seq ≠ s.exec_seq task.dv_key) :
      Effect s (.wake w pick)
        { s.set_worker w (.prefetching task) with
          write_queue := s.write_queue.rotate 1
          prefetch_queue := s.prefetch_queue.eraseIdx pick
          in_flight := s.in_flight + 1 }
  /-- A worker starts a write. -/
  | start (w : Fin n) (pick : Nat) (task : WriteTask Cb) (rest : List (WriteTask Cb))
      (hidle : s.workers w = .idle) (hqueue : s.write_queue = task :: rest)
      (hseq : task.dv_seq = s.exec_seq task.dv_key) :
      Effect s (.wake w pick)
        { s.set_worker w (.writing task) with
          write_queue := rest
          in_flight := s.in_flight + 1
          started := s.started ++ [task] }
  | finish_write (w : Fin n) (exc : Option Exc) (task : WriteTask Cb)
      (hw : s.workers w = .writing task) : Effect s (.finish w exc) (s.finish_write w task exc)
  | finish_prefetch (w : Fin n) (exc : Option Exc) (task : PrefetchTask Cb)
      (hw : s.workers w = .prefetching task) :
      Effect s (.finish w exc) (s.finish_prefetch w task exc)
  | shutdown (hshutdown : s.shutdown = false) : Effect s .shutdown { s with shutdown := true }
  | join (hshutdown : s.shutdown = true) (hexited : ∀ w, s.workers w = .exited) :
      Effect s .join { s with joined := true }

theorem admit_write_effect {s : WorkerPool Cb n} {l : WorkerLabel Cb n} {c : Nat}
    {dv_key : DatasetVariableKey} {handle_id : Nat} {callback : Cb} (hl : client_of l = some c)
    (hcall : s.clients c = .checked (.submit_write dv_key handle_id callback) ∨
      s.clients c = .waiting dv_key handle_id callback) :
    Effect s l (s.admit_write c dv_key handle_id callback) := by
  unfold admit_write
  split
  · exact .client c _ hl
  · exact .accept c _ _ _ hl hcall

theorem submit_write_effect {s : WorkerPool Cb n} {l : WorkerLabel Cb n} {c : Nat}
    {dv_key : DatasetVariableKey} {handle_id : Nat} {callback : Cb} (hl : client_of l = some c)
    (hcall : s.clients c = .checked (.submit_write dv_key handle_id callback)) :
    Effect s l (s.submit_write c dv_key handle_id callback) := by
  unfold submit_write
  split
  · split
    · exact .client c _ hl
    · exact admit_write_effect hl (.inl hcall)
  · split
    · exact .client c _ hl
    · exact .accept c _ _ _ hl (.inl hcall)

theorem pop_prefetch_effect {s s' : WorkerPool Cb n} {w : Fin n} {pick : Nat}
    {q : List (WriteTask Cb)} (hidle : s.workers w = .idle)
    (hfront : ∀ task ∈ s.write_queue.head?, task.dv_seq ≠ s.exec_seq task.dv_key)
    (hq : q = s.write_queue.rotate 1)
    (h : { s with write_queue := q }.pop_prefetch w pick = some s') :
    Effect s (.wake w pick) s' := by
  subst hq
  unfold pop_prefetch at h
  split at h
  · split at h
    · cases h
      exact .fetch w pick _ hidle hfront
    · cases h
  · cases h

theorem try_execute_one_effect {s s' : WorkerPool Cb n} {w : Fin n} {pick : Nat}
    (hidle : s.workers w = .idle) (h : s.try_execute_one w pick = some s') :
    Effect s (.wake w pick) s' := by
  unfold try_execute_one at h
  cases hq : s.write_queue with
  | nil =>
    have hfront : ∀ task ∈ s.write_queue.head?, task.dv_seq ≠ s.exec_seq task.dv_key := by
      simp [hq]
    have hrot : s.write_queue = s.write_queue.rotate 1 := by simp [hq]
    simp only [hq] at h
    split at h
    · cases h
      have hpass := Effect.pass w pick hidle hfront
      rwa [← hrot] at hpass
    · exact pop_prefetch_effect hidle hfront hrot h
  | cons task rest =>
    simp only [hq] at h
    have hrot : rest ++ [task] = s.write_queue.rotate 1 := by simp [hq]
    split at h
    · next hne =>
      have hfront : ∀ task ∈ s.write_queue.head?, task.dv_seq ≠ s.exec_seq task.dv_key := by
        simpa [hq] using hne
      split at h
      · cases h
        rw [hrot]
        exact .pass w pick hidle hfront
      · exact pop_prefetch_effect hidle hfront hrot h
    · next heq =>
      cases h
      exact .start w pick task rest hidle hq (not_not.mp heq)

theorem worker_loop_effect {s s' : WorkerPool Cb n} {w : Fin n} {pick : Nat}
    (hidle : s.workers w = .idle) (h : s.worker_loop w pick = some s') :
    Effect s (.wake w pick) s' := by
  unfold worker_loop at h
  split at h
  · next hcond =>
    cases h
    exact .exit w pick hidle hcond.1 (List.isEmpty_iff.mp hcond.2.1)
  · exact try_execute_one_effect hidle h

theorem next_effect {s s' : WorkerPool Cb n} {l : WorkerLabel Cb n} (h : s.next l = some s') :
    Effect s l s' := by
  cases l with
  | check c call =>
    simp only [next] at h
    split at h
    · split at h
      · cases h
        exact .client c _ rfl
      · cases h
        exact .client c _ rfl
    · cases h
  | enter c =>
    simp only [next] at h
    split at h
    · next hcall =>
      cases h
      exact submit_write_effect rfl hcall
    · cases h
      exact .schedule c _ rfl
    · cases h
  | resume c =>
    simp only [next] at h
    split at h
    · next hcall =>
      cases h
      exact admit_write_effect rfl (.inr hcall)
    · cases h
  | wake w pick =>
    simp only [next] at h
    split at h
    · next hidle => exact worker_loop_effect hidle h
    · cases h
  | finish w exc =>
    simp only [next] at h
    split at h
    · next hw =>
      cases h
      exact .finish_write w exc _ hw
    · next hw =>
      cases h
      exact .finish_prefetch w exc _ hw
    · cases h
  | shutdown =>
    simp only [next] at h
    split at h
    · cases h
    · next hs =>
      cases h
      exact .shutdown (by simpa using hs)
  | join =>
    simp only [next] at h
    split at h
    · next hcond =>
      cases h
      refine .join hcond.1 fun w => ?_
      have := hcond.2 w
      split at this
      · assumption
      · cases this
    · cases h

/-! ## Section 4: Invariants -/

/-- The write that each worker runs. -/
def running (s : WorkerPool Cb n) : Fin n → Option (WriteTask Cb) := fun w => (s.workers w).write

/-- The workers that run a callback. -/
def busy (s : WorkerPool Cb n) : Fin n → Option Unit := fun w => (s.workers w).busy

@[simp] theorem running_set_worker (s : WorkerPool Cb n) (w : Fin n) (phase : WorkerPhase Cb) :
    (s.set_worker w phase).running = Function.update s.running w phase.write :=
  Function.comp_update ..

@[simp] theorem busy_set_worker (s : WorkerPool Cb n) (w : Fin n) (phase : WorkerPhase Cb) :
    (s.set_worker w phase).busy = Function.update s.busy w phase.busy :=
  Function.comp_update ..

theorem running_eq_some {s : WorkerPool Cb n} {w : Fin n} {task : WriteTask Cb} :
    s.running w = some task ↔ s.workers w = .writing task := by
  unfold running
  cases s.workers w <;> simp [WorkerPhase.write]

/-- The writes of a list, numbered per (dataset, variable) pair. -/
def Numbered (l : List (WriteTask Cb)) (m : DatasetVariableKey → Nat) : Prop :=
  Holders.Numbered (·.dv_key) (·.dv_seq) l m

/-- How many writes of the pair are running. -/
def running_of (s : WorkerPool Cb n) (k : DatasetVariableKey) : Nat :=
  (held s.running).countP (·.dv_key = k)

/-- **The invariant of the pool.** -/
structure Inv (s : WorkerPool Cb n) : Prop where
  /-- An accepted write is in the queue, running or executed. -/
  partition : s.submitted ~ s.write_queue ++ (held s.running ++ s.executed)
  submitted_seq : Numbered s.submitted s.next_seq
  executed_seq : Numbered s.executed s.exec_seq
  started_seq : Numbered s.started fun k => s.exec_seq k + s.running_of k
  started_sub : s.started ⊆ s.submitted
  /-- Only the next write of a pair runs. -/
  running_seq : ∀ task ∈ held s.running, task.dv_seq = s.exec_seq task.dv_key
  in_flight_eq : s.in_flight = (held s.busy).length
  exited : ∀ w, s.workers w = .exited → s.shutdown = true
  joined : s.joined = true → ∀ w, s.workers w = .exited

/-! ### Consequences -/

namespace Inv

variable {s : WorkerPool Cb n} (h : s.Inv)

include h

theorem nodup :
    ((s.write_queue ++ (held s.running ++ s.executed)).map fun t => (t.dv_key, t.dv_seq)).Nodup :=
  (h.partition.map _).nodup_iff.mp h.submitted_seq.nodup

theorem mem_submitted {task : WriteTask Cb} :
    task ∈ s.submitted ↔ task ∈ s.write_queue ∨ task ∈ held s.running ∨ task ∈ s.executed := by
  rw [h.partition.mem_iff, List.mem_append, List.mem_append]

theorem not_running_of_queued {task : WriteTask Cb} (hq : task ∈ s.write_queue) :
    task ∉ held s.running := by
  have hnd := h.nodup
  rw [List.map_append, List.nodup_append] at hnd
  intro hr
  exact hnd.2.2 _ (List.mem_map_of_mem hq) _ (List.mem_map_of_mem (List.mem_append_left _ hr)) rfl

theorem running_of_eq_zero {task : WriteTask Cb} (hq : task ∈ s.write_queue)
    (hseq : task.dv_seq = s.exec_seq task.dv_key) : s.running_of task.dv_key = 0 := by
  refine List.countP_eq_zero.mpr fun other hother => ?_
  simp only [decide_eq_true_eq]
  intro hkey
  have heq : other = task := h.submitted_seq.eq_of_number
    (h.mem_submitted.mpr (.inr (.inl hother))) (h.mem_submitted.mpr (.inl hq)) hkey
    (by rw [h.running_seq other hother, hkey, hseq])
  exact h.not_running_of_queued hq (heq ▸ hother)

theorem exclusive {v w : Fin n} {a b : WriteTask Cb} (hv : s.running v = some a)
    (hw : s.running w = some b) (hkey : a.dv_key = b.dv_key) : v = w := by
  have hnd := h.nodup
  rw [List.map_append, List.nodup_append, List.map_append, List.nodup_append] at hnd
  refine Holders.eq_of_held_nodup hnd.2.1.1 hv hw (Prod.ext hkey ?_)
  have ha := h.running_seq a (Holders.mem_held.mpr ⟨v, hv⟩)
  have hb := h.running_seq b (Holders.mem_held.mpr ⟨w, hw⟩)
  simp only [ha, hb, hkey]

theorem executed_of_drained (hd : s.drained = true) : s.executed ~ s.submitted := by
  simp only [drained, Bool.and_eq_true, List.isEmpty_iff, beq_iff_eq] at hd
  obtain ⟨⟨hq, -⟩, hflight⟩ := hd
  have hnone : held s.running = [] := by
    rw [List.eq_nil_iff_forall_not_mem]
    intro task htask
    obtain ⟨w, hw⟩ := Holders.mem_held.mp htask
    have hbusy : () ∈ held s.busy :=
      Holders.mem_held.mpr ⟨w, by rw [busy, running_eq_some.mp hw, WorkerPhase.busy]⟩
    rw [List.length_eq_zero_iff.mp (h.in_flight_eq.symm.trans hflight)] at hbusy
    exact List.not_mem_nil hbusy
  have hperm := h.partition
  rw [hq, hnone] at hperm
  exact hperm.symm

end Inv

/-! ### Preservation -/

theorem inv_make (backpressure : BackpressureConfig) : (make backpressure : WorkerPool Cb n).Inv where
  partition := by simp [make, running, held]
  submitted_seq := Holders.Numbered.nil
  executed_seq := Holders.Numbered.nil
  started_seq := by
    have hzero : ∀ k, (make backpressure : WorkerPool Cb n).running_of k = 0 := fun k => by
      simp [running_of, make, running, held]
    simp only [hzero]
    exact Holders.Numbered.nil
  started_sub := List.nil_subset _
  running_seq := by simp [make, running, held]
  in_flight_eq := by
    have hnone : (make backpressure : WorkerPool Cb n).busy = fun _ => none := rfl
    rw [hnone]
    simp [make, held]
  exited := by simp [make]
  joined := by simp [make]

namespace Inv

variable {s : WorkerPool Cb n}

theorem enqueue_write (h : s.Inv) (c : Nat) (dv_key : DatasetVariableKey) (handle_id : Nat)
    (callback : Cb) : (s.enqueue_write c dv_key handle_id callback).Inv where
  partition := by
    refine (h.partition.append_right _).trans ?_
    change _ ~ s.write_queue ++ [_] ++ (held s.running ++ s.executed)
    rw [List.append_assoc s.write_queue, List.append_assoc s.write_queue]
    exact List.perm_append_comm.append_left _
  submitted_seq := h.submitted_seq.append rfl
  executed_seq := h.executed_seq
  started_seq := h.started_seq
  started_sub := List.subset_append_of_subset_left _ h.started_sub
  running_seq := h.running_seq
  in_flight_eq := h.in_flight_eq
  exited := h.exited
  joined := h.joined

theorem rotate (h : s.Inv) : Inv { s with write_queue := s.write_queue.rotate 1 } :=
  { h with partition := h.partition.trans ((s.write_queue.rotate_perm 1).symm.append_right _) }

theorem set_worker (h : s.Inv) (w : Fin n) (phase : WorkerPhase Cb) (in_flight : Nat)
    (hold : s.running w = none) (hnew : phase.write = none)
    (hflight : in_flight = (held (Function.update s.busy w phase.busy)).length)
    (hexit : phase = .exited → s.shutdown = true)
    (hlive : s.workers w ≠ .exited) :
    Inv { s.set_worker w phase with in_flight } := by
  have hrun : Function.update s.running w phase.write = s.running := by
    rw [hnew, ← hold, Function.update_eq_self]
  have hrunning : ({ s.set_worker w phase with in_flight } : WorkerPool Cb n).running = s.running :=
    (running_set_worker s w phase).trans hrun
  constructor
  case partition => rw [hrunning]; exact h.partition
  case started_seq => unfold running_of; rw [hrunning]; exact h.started_seq
  case running_seq => rw [hrunning]; exact h.running_seq
  case in_flight_eq => exact hflight.trans (by rw [← busy_set_worker]; rfl)
  case submitted_seq => exact h.submitted_seq
  case executed_seq => exact h.executed_seq
  case started_sub => exact h.started_sub
  case exited =>
    intro v hv
    by_cases hvw : v = w
    · subst hvw
      exact hexit (by simpa [WorkerPool.set_worker] using hv)
    · exact h.exited v (by simpa [WorkerPool.set_worker, Function.update_of_ne hvw] using hv)
  case joined => exact fun hj => absurd (h.joined hj w) hlive

theorem start (h : s.Inv) {w : Fin n} {task : WriteTask Cb} {rest : List (WriteTask Cb)}
    (hidle : s.workers w = .idle) (hqueue : s.write_queue = task :: rest)
    (hseq : task.dv_seq = s.exec_seq task.dv_key) :
    Inv
      { s.set_worker w (.writing task) with
        write_queue := rest
        in_flight := s.in_flight + 1
        started := s.started ++ [task] } := by
  have hmem : task ∈ s.write_queue := by simp [hqueue]
  have hnone : s.running w = none := by rw [running, hidle, WorkerPhase.write]
  have htake : held (Function.update s.running w (some task)) ~ task :: held s.running :=
    Holders.held_take hnone task
  have hrun : (s.set_worker w (.writing task)).running = Function.update s.running w (some task) :=
    running_set_worker ..
  constructor
  case partition =>
    refine h.partition.trans ?_
    change _ ~ rest ++ (held (s.set_worker w (.writing task)).running ++ s.executed)
    rw [hqueue, hrun]
    refine List.Perm.trans ?_ ((htake.symm.append_right _).append_left _)
    exact List.perm_middle.symm
  case started_seq =>
    -- the pair had nothing running, and now it has one
    have hzero := h.running_of_eq_zero hmem hseq
    have hcount : ∀ k, (s.set_worker w (.writing task)).running_of k =
        s.running_of k + if task.dv_key = k then 1 else 0 := fun k => by
      rw [running_of, hrun, htake.countP_eq, List.countP_cons]
      simp [running_of]
    refine (h.started_seq.append (a := task) (by simp [hzero, hseq])).congr fun k => ?_
    change _ = s.exec_seq k + (s.set_worker w (.writing task)).running_of k
    rw [hcount]
    by_cases hk : task.dv_key = k
    · subst hk
      simp [hzero]
    · simp [hk, Function.update_of_ne (Ne.symm hk)]
  case started_sub =>
    refine List.append_subset.mpr ⟨h.started_sub, List.cons_subset.mpr ⟨?_, List.nil_subset _⟩⟩
    exact h.mem_submitted.mpr (.inl hmem)
  case running_seq =>
    intro other hother
    have hother : other ∈ held (s.set_worker w (.writing task)).running := hother
    rw [hrun, htake.mem_iff, List.mem_cons] at hother
    rcases hother with rfl | hother
    · exact hseq
    · exact h.running_seq other hother
  case in_flight_eq =>
    change s.in_flight + 1 = (held (s.set_worker w (.writing task)).busy).length
    have hbusy : s.busy w = none := by rw [busy, hidle, WorkerPhase.busy]
    rw [busy_set_worker, WorkerPhase.busy, (Holders.held_take hbusy ()).length_eq,
      List.length_cons, h.in_flight_eq]
  case submitted_seq => exact h.submitted_seq
  case executed_seq => exact h.executed_seq
  case exited =>
    intro v hv
    by_cases hvw : v = w
    · subst hvw
      simp [WorkerPool.set_worker] at hv
    · exact h.exited v (by simpa [WorkerPool.set_worker, Function.update_of_ne hvw] using hv)
  case joined =>
    intro hj
    have := h.joined hj w
    rw [hidle] at this
    cases this

theorem finish_write (h : s.Inv) {w : Fin n} {task : WriteTask Cb}
    (hw : s.workers w = .writing task) (exc : Option Exc) : (s.finish_write w task exc).Inv := by
  have hsome : s.running w = some task := running_eq_some.mpr hw
  have hdrop : held s.running ~ task :: held (Function.update s.running w none) :=
    Holders.held_drop hsome
  have hrun : (s.set_worker w .idle).running = Function.update s.running w none :=
    running_set_worker ..
  have hseq : task.dv_seq = s.exec_seq task.dv_key :=
    h.running_seq task (Holders.mem_held.mpr ⟨w, hsome⟩)
  have hcount : ∀ k, s.running_of k =
      (s.set_worker w .idle).running_of k + if task.dv_key = k then 1 else 0 := fun k => by
    rw [running_of, hdrop.countP_eq, List.countP_cons, ← hrun]
    simp [running_of]
  constructor
  case partition =>
    refine h.partition.trans (List.Perm.append_left _ ?_)
    change _ ~ held (s.set_worker w .idle).running ++ (s.executed ++ [task])
    rw [hrun]
    refine (hdrop.append_right _).trans ?_
    rw [← List.append_assoc]
    exact (List.perm_append_singleton ..).symm
  case executed_seq => exact h.executed_seq.append hseq
  case started_seq =>
    refine h.started_seq.congr fun k => ?_
    change _ = Function.update s.exec_seq task.dv_key _ k + (s.set_worker w .idle).running_of k
    rw [hcount k]
    by_cases hk : task.dv_key = k
    · subst hk
      rw [Function.update_self, if_pos rfl]
      omega
    · rw [Function.update_of_ne (Ne.symm hk), if_neg hk, Nat.add_zero]
  case running_seq =>
    intro other hother
    have hother : other ∈ held (s.set_worker w .idle).running := hother
    change other.dv_seq = Function.update s.exec_seq task.dv_key _ other.dv_key
    obtain ⟨v, hv⟩ := Holders.mem_held.mp hother
    rw [hrun] at hv
    have hvw : v ≠ w := by
      rintro rfl
      simp at hv
    rw [Function.update_of_ne hvw] at hv
    -- the pair of another running write is another pair
    have hkey : other.dv_key ≠ task.dv_key := fun hkey => hvw (h.exclusive hv hsome hkey)
    rw [Function.update_of_ne hkey]
    exact h.running_seq other (Holders.mem_held.mpr ⟨v, hv⟩)
  case in_flight_eq =>
    change s.in_flight - 1 = (held (s.set_worker w .idle).busy).length
    have hbusy : s.busy w = some () := by rw [busy, hw, WorkerPhase.busy]
    rw [busy_set_worker, WorkerPhase.busy, h.in_flight_eq, (Holders.held_drop hbusy).length_eq,
      List.length_cons, Nat.add_sub_cancel]
  case submitted_seq => exact h.submitted_seq
  case started_sub => exact h.started_sub
  case exited =>
    intro v hv
    by_cases hvw : v = w
    · subst hvw
      simp [WorkerPool.finish_write, WorkerPool.set_worker] at hv
    · refine h.exited v ?_
      simpa [WorkerPool.finish_write, WorkerPool.set_worker, Function.update_of_ne hvw] using hv
  case joined =>
    intro hj
    have := h.joined hj w
    rw [hw] at this
    cases this

/-- **Step lemma.** -/
theorem step {s' : WorkerPool Cb n} {l : WorkerLabel Cb n} (h : s.Inv) (hstep : Effect s l s') :
    s'.Inv := by
  cases hstep with
  | client c phase => exact { h with }
  | accept c dv_key handle_id callback => exact h.enqueue_write c dv_key handle_id callback
  | schedule c task => exact { h with }
  | exit w pick hidle hshutdown =>
    have hbusy : s.busy w = none := by rw [busy, hidle, WorkerPhase.busy]
    refine h.set_worker w .exited s.in_flight (by rw [running, hidle, WorkerPhase.write]) rfl ?_
      (fun _ => hshutdown) (by simp [hidle])
    rw [WorkerPhase.busy, ← hbusy, Function.update_eq_self, h.in_flight_eq]
  | pass w pick hidle => exact h.rotate
  | fetch w pick task hidle =>
    have hbusy : s.busy w = none := by rw [busy, hidle, WorkerPhase.busy]
    have hset := h.rotate.set_worker w (.prefetching task) (s.in_flight + 1)
      (by simp [running, hidle]) rfl
      (by
        change _ = (held (Function.update s.busy w (some ()))).length
        rw [(Holders.held_take hbusy ()).length_eq, List.length_cons, h.in_flight_eq])
      (by simp) (by simp [hidle])
    exact { hset with }
  | start w pick task rest hidle hqueue hseq => exact h.start hidle hqueue hseq
  | finish_write w exc task hw => exact h.finish_write hw exc
  | finish_prefetch w exc task hw =>
    have hbusy : s.busy w = some () := by rw [busy, hw, WorkerPhase.busy]
    have hset := h.set_worker w .idle (s.in_flight - 1)
      (by simp [running, hw]) rfl
      (by
        rw [WorkerPhase.busy, h.in_flight_eq, (Holders.held_drop hbusy).length_eq,
          List.length_cons, Nat.add_sub_cancel])
      (by simp) (by simp [hw])
    exact { hset with }
  | shutdown => exact { h with exited := fun _ _ => rfl }
  | join hshutdown hexited => exact { h with joined := fun _ => hexited }

end Inv

/-- **Run lemma.** -/
theorem inv_of_reachable {s : WorkerPool Cb n} (hr : (system Cb n).Reachable s) : s.Inv := by
  refine hr.invariant (P := Inv) (fun t ht => ?_) fun t l t' _ h hstep => h.step (next_effect hstep)
  obtain ⟨backpressure, rfl⟩ := ht
  exact inv_make backpressure

end WorkerPool

end Amio
