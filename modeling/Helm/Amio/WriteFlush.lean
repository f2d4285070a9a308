import Helm.Amio.WriteCompletion

/-! # Flushing a dataset

  `amio_flush` (`c_boundary/amio_core.cpp`) waits until `pending_writes` of a
  dataset is 0. A call of `write` raises the counter after it has submitted
  its closure, and the closure lowers it when it is done, so that the closure
  may come first. The counter then wraps around, or, when another write of
  the dataset is pending, it is 0 with that write still to be carried out,
  and a flush reports `AMIO_OK` too early (`flush_unsafe`).

  In runs in which no closure comes before its own call the counter is the
  number of the writes that have been counted and not carried out, and a
  flush that reports `AMIO_OK` has waited for all the writes that it found
  (`flush_safe`).
-/

namespace Amio

open scoped List
open Holders (held)
open WritePath (byteArgs singleStaging singlePool)

/-! ## Section 1: Model -/

/-- A call of `flush`. -/
structure FlushCall where
  /-- The dataset record, by its `dataset_id`. -/
  dataset_id : Nat
  /-- The writes to the dataset for which `AMIO_OK` had been returned when the
      call began. -/
  before : List Nat

/-- Where a thread that flushes stands. -/
inductive FlushPhase
  | idle
  /-- Before the first look at the counter. -/
  | entered (call : FlushCall)
  /-- Before a look at the counter in the loop. -/
  | waiting (call : FlushCall)
  /-- In the body of the loop. -/
  | pending (call : FlushCall)
  /-- Has seen the counter at 0. -/
  | drained (call : FlushCall)
  | returned (call : FlushCall) (result : Except AmioStatus Unit)

/-- The write path and `k` threads that flush. -/
structure FlushPath (m n k : Nat) where
  path : WritePath m n
  flushers : Fin k → FlushPhase
  /-- The writes that their calls have counted. -/
  raised : List WriteClosure
  /-- The writes that their closures have counted down. -/
  lowered : List WriteClosure

/-- The steps of the threads. -/
inductive FlushLabel (m n k : Nat)
  | path (l : WriteLabel m n)
  /-- Thread `f` calls `flush`. -/
  | flush (f : Fin k) (dataset_id : Nat)
  /-- Read `pending_writes`. -/
  | look (f : Fin k)
  /-- The deadline has not been reached: sleep, and go on. -/
  | sleep (f : Fin k)
  /-- The deadline has been reached. -/
  | timeout (f : Fin k)
  /-- Look for a failure and return. -/
  | report (f : Fin k)

namespace WritePath

variable {m n : Nat}

/-- The write that the step adds to `pending_writes`. -/
def counted_by (s : WritePath m n) : WriteLabel m n → Option WriteClosure
  | .count c =>
    match s.clients c with
    | .submitted _ cl _ => some cl
    | _ => none
  | _ => none

/-- The write that the step takes from `pending_writes`. -/
def lowered_by (s : WritePath m n) : WriteLabel m n → Option WriteClosure
  | .decrement w =>
    match s.pool.workers w with
    | .writing task => some task.callback
    | _ => none
  | _ => none

end WritePath

namespace FlushPath

variable {m n k : Nat}

def make (staging : StagingPool) (backpressure : BackpressureConfig) : FlushPath m n k where
  path := .make staging backpressure
  flushers := fun _ => .idle
  raised := []
  lowered := []

/-- Thread `f` moves. -/
def set_flusher (s : FlushPath m n k) (f : Fin k) (phase : FlushPhase) : FlushPath m n k :=
  { s with flushers := Function.update s.flushers f phase }

def pending_writes (s : FlushPath m n k) (d : Nat) : BitVec 64 := (s.path.datasets d).pending_writes

/-- The writes to a dataset for which `AMIO_OK` has been returned. -/
def acknowledged (s : FlushPath m n k) (d : Nat) : List Nat :=
  (s.raised.filter (·.dataset_id = d)).map (·.io_rec)

/-- The end of `flush`: the status of the first failure, if there is one -/
def flush_status (d : DatasetRecord) : Except AmioStatus Unit :=
  if d.has_failure then
    match d.first_failure_code with
    | some e => .error e
    | none => .ok ()
  else .ok ()

/-- One step of a thread; `none` when the thread is not there. -/
def next (s : FlushPath m n k) : FlushLabel m n k → Option (FlushPath m n k)
  | .path l =>
    (s.path.next l).map fun path =>
      { s with
        path
        raised := s.raised ++ (s.path.counted_by l).toList
        lowered := s.lowered ++ (s.path.lowered_by l).toList }
  | .flush f d =>
    match s.flushers f with
    | .idle => some (s.set_flusher f (.entered ⟨d, s.acknowledged d⟩))
    | .returned _ _ => some (s.set_flusher f (.entered ⟨d, s.acknowledged d⟩))
    | _ => none
  | .look f =>
    match s.flushers f with
    | .entered call =>
      some (s.set_flusher f
        (if s.pending_writes call.dataset_id = 0 then .drained call else .waiting call))
    | .waiting call =>
      some (s.set_flusher f
        (if s.pending_writes call.dataset_id = 0 then .drained call else .pending call))
    | _ => none
  | .sleep f =>
    match s.flushers f with
    | .pending call => some (s.set_flusher f (.waiting call))
    | _ => none
  | .timeout f =>
    match s.flushers f with
    | .pending call => some (s.set_flusher f (.returned call (.error .ERR_TIMEOUT)))
    | _ => none
  | .report f =>
    match s.flushers f with
    | .drained call =>
      some (s.set_flusher f (.returned call (flush_status (s.path.datasets call.dataset_id))))
    | _ => none

/-- The write path with `m` clients that write, `k` threads that flush and `n`
    workers, in any configuration. -/
def system (m n k : Nat) : LTS.System (FlushPath m n k) (FlushLabel m n k) :=
  .ofNext (fun s => ∃ cfg staging backpressure,
    PoolInit cfg staging ∧ s = make staging backpressure) next

/-! ### What is asked of a run -/

/-- A closure lowers the counter after its call has raised it, and no call
    raises a counter that is at its maximum. -/
def in_order (s : FlushPath m n k) : FlushLabel m n k → Bool
  | .path (.decrement w) => (s.path.lowered_by (.decrement w)).all fun cl => cl ∈ s.raised
  | .path (.count c) =>
    (s.path.counted_by (.count c)).all fun cl => s.pending_writes cl.dataset_id ≠ BitVec.allOnes 64
  | _ => true

def InOrder (s : FlushPath m n k) (l : FlushLabel m n k) : Prop := s.in_order l = true

instance (s : FlushPath m n k) (l : FlushLabel m n k) : Decidable (s.InOrder l) :=
  inferInstanceAs (Decidable (_ = true))

/-- **The guarantees.** -/
structure FlushSafe (s : FlushPath m n k) : Prop where
  /-- The counter is the number of the writes that have been counted and not
      been counted down: it is not negative and has not wrapped around. -/
  exact : ∀ d, (s.pending_writes d).toNat + s.lowered.countP (·.dataset_id = d) =
    s.raised.countP (·.dataset_id = d)
  /-- The writes that have been counted are those that have returned `AMIO_OK`. -/
  returned : s.raised.map (·.io_rec) = s.path.returned
  /-- A flush that has returned `AMIO_OK` has waited for the driver. -/
  flushed : ∀ f call, s.flushers f = .returned call (.ok ()) →
    ∀ io ∈ call.before, io ∈ s.path.driver_writes.map (·.io_rec)

end FlushPath

/-! ## Section 2: What has been counted down -/

/-- A closure that has lowered the counter. -/
def hand_done (h : Hand) : Option WriteClosure := if h.2.settled then some h.1 else none

namespace WritePath

variable {m n : Nat} {s s' : WritePath m n} {l : WriteLabel m n}

/-- The closure of worker `w`, if it has lowered the counter. -/
def done (s : WritePath m n) (w : Fin n) : Option WriteClosure := (s.hand w).bind hand_done

/-- The closures that have lowered the counter. -/
def settled (s : WritePath m n) : List WriteClosure :=
  s.pool.executed.map (·.callback) ++ held s.done

theorem done_of_writing {w : Fin n} {task : WriteTask WriteClosure}
    (hw : s.pool.workers w = .writing task) : s.done w = hand_done (task.callback, s.stages w) := by
  rw [done, hand_eq_some hw, Option.bind_some]

theorem workers_of_submit_step {c : Fin m} {token : Token} {cl : WriteClosure}
    {pl : WorkerLabel WriteClosure n} {j : Nat} (hl : WorkerPool.client_of pl = some j)
    (h : s.submit_step c token cl pl = some s') :
    s'.pool.workers = s.pool.workers ∧ s'.pool.executed = s.pool.executed ∧
      s'.stages = s.stages := by
  have hpool := WorkerPool.next_effect (pool_of_submit_step h)
  have hstages : s'.stages = s.stages := by
    obtain ⟨pool, -, heq⟩ := Option.map_eq_some_iff.mp h
    rw [← heq]
    split
    · rfl
    · rfl
  generalize s'.pool = pool at hpool
  cases hpool with
  | client | accept | schedule => exact ⟨rfl, rfl, hstages⟩
  | exit | pass | fetch | start | finish_write | finish_prefetch | shutdown | join => cases hl

theorem workers_of_client {c : Fin m} (hl : client_of l = some c) (h : s.next l = some s') :
    s'.pool.workers = s.pool.workers ∧ s'.pool.executed = s.pool.executed ∧
      s'.stages = s.stages := by
  cases l with
  | call c args | acquire c | acquire_timeout c =>
    simp only [next, client_of, client_step] at h
    split at h
    · split at h
      · cases h <;> exact ⟨rfl, rfl, rfl⟩
      · cases h <;> exact ⟨rfl, rfl, rfl⟩
    · cases h
  | acquire_throw c | stage c | count c =>
    simp only [next, client_of, client_step] at h
    split at h
    · cases h
      exact ⟨rfl, rfl, rfl⟩
    · cases h
  | submit c =>
    simp only [next, client_of, client_step] at h
    split at h
    · split at h
      · exact workers_of_submit_step rfl h
      · cases h
    · cases h
  | complete c =>
    simp only [next, client_of, client_step] at h
    split at h
    · split at h
      · cases h
      · cases h
        exact ⟨rfl, rfl, rfl⟩
    · cases h
  | enter c | resume c =>
    simp only [next, client_of, client_step] at h
    split at h
    · exact workers_of_submit_step rfl h
    · cases h
  | wake | driver | release | decrement | finish | shutdown | join => cases hl

theorem settled_congr (hworkers : s'.pool.workers = s.pool.workers)
    (hexecuted : s'.pool.executed = s.pool.executed) (hstages : s'.stages = s.stages) :
    s'.settled = s.settled := by
  have hdone : s'.done = s.done := by
    funext w
    rw [done, done, hand_congr hworkers hstages]
  rw [settled, settled, hexecuted, hdone]

theorem settled_of_stage {w : Fin n} {task : WriteTask WriteClosure} {stage : Stage}
    (hw : s.pool.workers w = .writing task) (hpool : s'.pool = s.pool)
    (hstages : s'.stages = Function.update s.stages w stage)
    (hold : (s.stages w).settled = false) (hnew : stage.settled = false) :
    s'.settled = s.settled := by
  have hdone : s'.done = s.done := by
    funext v
    by_cases hv : v = w
    · subst hv
      have hw' : s'.pool.workers v = .writing task := by rw [hpool, hw]
      rw [done_of_writing hw, done_of_writing hw', hstages, Function.update_self]
      simp [hand_done, hold, hnew]
    · rw [done, done, hand, hand, hpool, hstages, Function.update_of_ne hv]
  rw [settled, settled, hpool, hdone]

/-- A worker that looks for work has not lowered a counter, and neither has the
    closure that it finds. -/
theorem settled_of_wake {w : Fin n} {pick : Nat} (h : s.wake w pick = some s') :
    s'.settled = s.settled := by
  obtain ⟨pool, hpool, heq⟩ := Option.map_eq_some_iff.mp h
  have hidle : s.done w = none := by
    rw [done, hand, (WorkerPool.next_effect hpool).idle_of_wake]
    rfl
  have hothers : ∀ v, v ≠ w → pool.workers v = s.pool.workers v := by
    intro v hv
    apply (WorkerPool.next_effect hpool).worker_unchanged
    · intro pick' hl
      cases hl
      exact hv rfl
    · intro exc hl
      cases hl
  have hexecuted : pool.executed = s.pool.executed := by
    have heff := WorkerPool.next_effect hpool
    cases heff with
    | client c _ hl | accept c _ _ _ hl | schedule c _ hl => cases hl
    | exit | pass | fetch | start => rfl
  have hdone : s'.done = s.done := by
    funext v
    by_cases hv : v = w
    · subst hv
      rw [hidle, ← heq]
      split
      · next task hw =>
        -- a closure that has just been called
        rw [done, hand]
        simp [hw, set_stage, WorkerPhase.write, hand_done, Stage.settled]
      · next hw =>
        rw [done, hand]
        cases hphase : pool.workers v with
        | writing task => exact absurd hphase (hw task)
        | _ => simp [WorkerPhase.write]
    · have hstage : s'.pool.workers v = pool.workers v ∧ s'.stages v = s.stages v := by
        rw [← heq]
        split
        · exact ⟨rfl, Function.update_of_ne hv ..⟩
        · exact ⟨rfl, rfl⟩
      rw [done, done, hand, hand, hstage.1, hstage.2, hothers v hv]
  have hpool' : s'.pool = pool := by
    rw [← heq]
    split
    · rfl
    · rfl
  rw [settled, settled, hdone, hpool', hexecuted]

theorem settled_of_decrement {w : Fin n} {task : WriteTask WriteClosure}
    (hw : s.pool.workers w = .writing task) (hstage : s.stages w = .released)
    (hpool : s'.pool = s.pool) (hstages : s'.stages = Function.update s.stages w .counted) :
    s'.settled ~ task.callback :: s.settled := by
  have hold : s.done w = none := by
    rw [done_of_writing hw, hstage]
    rfl
  have hdone : s'.done = Function.update s.done w (some task.callback) := by
    funext v
    by_cases hv : v = w
    · subst hv
      have hw' : s'.pool.workers v = .writing task := by rw [hpool, hw]
      rw [done_of_writing hw', hstages, Function.update_self, Function.update_self]
      rfl
    · rw [Function.update_of_ne hv, done, done, hand, hand, hpool, hstages,
        Function.update_of_ne hv]
  have hheld := Holders.held_take hold task.callback
  rw [← hdone] at hheld
  rw [settled, settled, hpool]
  exact (hheld.append_left _).trans List.perm_middle

theorem settled_of_finish {w : Fin n} {task : WriteTask WriteClosure}
    (hw : s.pool.workers w = .writing task) (hstage : s.stages w = .counted)
    (hpool : s'.pool = s.pool.finish_write w task none) (hstages : s'.stages = s.stages) :
    s'.settled ~ s.settled := by
  have hold : s.done w = some task.callback := by
    rw [done_of_writing hw, hstage]
    rfl
  have hdone : s'.done = Function.update s.done w none := by
    funext v
    by_cases hv : v = w
    · subst hv
      rw [Function.update_self, done, hand, hpool]
      simp [WorkerPool.finish_write, WorkerPool.set_worker, WorkerPhase.write]
    · rw [Function.update_of_ne hv, done, done, hand, hand, hpool, hstages]
      simp [WorkerPool.finish_write, WorkerPool.set_worker, Function.update_of_ne hv]
  have hexecuted : s'.pool.executed = s.pool.executed ++ [task] := by
    rw [hpool]
    rfl
  have hheld := Holders.held_drop hold
  rw [← hdone] at hheld
  rw [settled, settled, hexecuted, List.map_append, List.append_assoc]
  exact (hheld.symm.append_left _)

/-- **Step lemma.** What a step adds to the closures that have lowered the
    counter. -/
theorem settled_step (h : s.next l = some s') :
    s'.settled ~ (s.lowered_by l).toList ++ s.settled := by
  cases hc : client_of l with
  | some c =>
    obtain ⟨hworkers, hexecuted, hstages⟩ := workers_of_client hc h
    have hnone : s.lowered_by l = none := by
      cases l with
      | decrement => cases hc
      | _ => rfl
    rw [hnone, settled_congr hworkers hexecuted hstages]
    exact .refl _
  | none =>
    cases l with
    | call | acquire | acquire_timeout | acquire_throw | stage | submit | enter | resume | count
    | complete => cases hc
    | wake w pick =>
      rw [settled_of_wake h]
      exact .refl _
    | driver w throws =>
      simp only [next, client_of, worker_of, closure_step] at h
      split at h
      · next task hw =>
        split at h
        · next hstage =>
          cases h
          apply List.Perm.of_eq
          apply settled_of_stage hw
          · cases throws <;> rfl
          · cases throws <;> rfl
          · rw [hstage]
            rfl
          · rfl
        · cases h
      · cases h
    | release w =>
      simp only [next, client_of, worker_of, closure_step] at h
      split at h
      · next task hw =>
        split at h
        · next hstage =>
          cases h
          apply List.Perm.of_eq
          apply settled_of_stage hw
          · rfl
          · rfl
          · rw [hstage]
            rfl
          · rfl
        · cases h
      · cases h
    | decrement w =>
      simp only [next, client_of, worker_of, closure_step] at h
      split at h
      · next task hw =>
        split at h
        · next hstage =>
          cases h
          have hlowered : s.lowered_by (.decrement w) = some task.callback := by
            simp only [lowered_by, hw]
          rw [hlowered]
          exact settled_of_decrement hw hstage rfl rfl
        · cases h
      · cases h
    | finish w =>
      simp only [next, client_of, worker_of, closure_step] at h
      split at h
      · next task hw =>
        split at h
        · next hstage =>
          obtain ⟨pool, hpool, rfl⟩ := Option.map_eq_some_iff.mp h
          have hfin : pool = s.pool.finish_write w task none := by
            simpa [WorkerPool.next, hw, eq_comm] using hpool
          exact settled_of_finish hw hstage hfin rfl
        · cases h
      · cases h
    | shutdown | join =>
      obtain ⟨pool, hpool, rfl⟩ := Option.map_eq_some_iff.mp h
      have heff := WorkerPool.next_effect hpool
      apply List.Perm.of_eq
      cases heff with
      | client c _ hl | accept c _ _ _ hl | schedule c _ hl => cases hl
      | _ => rfl

theorem Inv.driver_of_settled (h : s.Inv) {cl : WriteClosure} (hcl : cl ∈ s.settled) :
    cl.io_rec ∈ s.driver_writes.map (·.io_rec) := by
  have hpos : 0 < s.ledger.driver_writes.count cl.io_rec := by
    rw [h.balanced.driver]
    rcases List.mem_append.mp hcl with hexec | hdone
    · have : 0 < s.ledger.executed.countP (·.io_rec = cl.io_rec) :=
        List.countP_pos_iff.mpr ⟨cl, hexec, by simp⟩
      omega
    · obtain ⟨w, hw⟩ := Holders.mem_held.mp hdone
      obtain ⟨hd, hhand, hstage⟩ := Option.bind_eq_some_iff.mp hw
      rw [hand_done, Option.ite_none_right_eq_some, Option.some.injEq] at hstage
      obtain ⟨hsettled, rfl⟩ := hstage
      have hwrote : hd.2.wrote = true := by
        cases hstage : hd.2 with
        | counted => rfl
        | called | written | released => simp [hstage, Stage.settled] at hsettled
      have : 0 < s.ledger.hands.countP (fun h => h.1.io_rec = hd.1.io_rec ∧ h.2.wrote = true) :=
        List.countP_pos_iff.mpr ⟨hd, Holders.mem_held.mpr ⟨w, hhand⟩, by simp [hwrote]⟩
      omega
  exact List.count_pos_iff.mp hpos

theorem Inv.settled_nodup (h : s.Inv) : s.settled.Nodup := by
  have hnodup : (s.settled.map (·.io_rec)).Nodup := by
    rw [List.nodup_iff_count_le_one]
    intro io
    have hdone : (held s.done).countP (·.io_rec = io) ≤
        s.ledger.hands.countP (·.1.io_rec = io) := by
      have hfilter : held s.done = (held s.hand).filterMap hand_done := by
        rw [held, held, List.filterMap_filterMap]
        rfl
      rw [hfilter, List.countP_filterMap]
      apply List.countP_mono_left
      intro hd _ hany
      simp only [hand_done] at hany
      split at hany
      · simpa using hany
      · simp at hany
    have honce := h.balanced.once io
    simp only [Ledger.places, Ledger.handed] at honce
    have hexecuted : s.ledger.executed.countP (·.io_rec = io) =
        (s.pool.executed.map (·.callback)).countP (·.io_rec = io) := rfl
    rw [List.count, List.countP_map, settled, List.countP_append]
    simp only [Function.comp_def, beq_eq_decide] at *
    omega
  exact hnodup.of_map _

/-- What the counters and the list of the writes that have returned depend
    on. -/
def SameBooks (s s' : WritePath m n) : Prop :=
  s'.returned = s.returned ∧ ∀ d, (s'.datasets d).pending_writes = (s.datasets d).pending_writes

theorem books_of_submit_step {c : Fin m} {token : Token} {cl : WriteClosure}
    {pl : WorkerLabel WriteClosure n} (h : s.submit_step c token cl pl = some s') :
    SameBooks s s' := by
  obtain ⟨pool, -, heq⟩ := Option.map_eq_some_iff.mp h
  rw [← heq]
  split
  · exact ⟨rfl, fun _ => rfl⟩
  · exact ⟨rfl, fun _ => rfl⟩

theorem books_of_driver_returned (w : Fin n) (cl : WriteClosure) (throws : Bool) :
    SameBooks s (s.driver_returned w cl throws) := by
  cases throws with
  | false => exact ⟨rfl, fun _ => rfl⟩
  | true =>
    constructor
    · rfl
    · intro d
      by_cases hd : d = cl.dataset_id
      · subst hd
        simp [driver_returned, set_io, set_dataset, set_stage]
      · simp [driver_returned, set_io, set_dataset, set_stage, Function.update_of_ne hd]

/-- **Step lemma.** The counters go up and down with the writes that a step
    counts, and nothing else changes them. -/
theorem books_step (hn : 0 < n) (h : s.next l = some s') :
    SameBooks s s' ∧ s.counted_by l = none ∧ s.lowered_by l = none ∨
    (∃ cl, s.counted_by l = some cl ∧ s.lowered_by l = none ∧
      s'.returned = s.returned ++ [cl.io_rec] ∧
      ∀ d, (s'.datasets d).pending_writes =
        if d = cl.dataset_id then (s.datasets d).pending_writes + 1
        else (s.datasets d).pending_writes) ∨
    ∃ cl, s.lowered_by l = some cl ∧ s.counted_by l = none ∧ s'.returned = s.returned ∧
      ∀ d, (s'.datasets d).pending_writes =
        if d = cl.dataset_id then (s.datasets d).pending_writes - 1
        else (s.datasets d).pending_writes := by
  cases l with
  | call c args | acquire c | acquire_timeout c =>
    refine .inl ⟨?_, rfl, rfl⟩
    simp only [next, client_of, client_step] at h
    split at h
    · split at h
      · cases h <;> exact ⟨rfl, fun _ => rfl⟩
      · cases h <;> exact ⟨rfl, fun _ => rfl⟩
    · cases h
  | acquire_throw c | stage c =>
    refine .inl ⟨?_, rfl, rfl⟩
    simp only [next, client_of, client_step] at h
    split at h
    · cases h
      exact ⟨rfl, fun _ => rfl⟩
    · cases h
  | submit c =>
    refine .inl ⟨?_, rfl, rfl⟩
    simp only [next, client_of, client_step] at h
    split at h
    · rw [if_pos hn] at h
      exact books_of_submit_step h
    · cases h
  | enter c | resume c =>
    refine .inl ⟨?_, rfl, rfl⟩
    simp only [next, client_of, client_step] at h
    split at h
    · exact books_of_submit_step h
    · cases h
  | count c =>
    simp only [next, client_of, client_step] at h
    split at h
    · next token cl seq hc =>
      cases h
      refine .inr (.inl ⟨cl, by simp only [counted_by, hc], rfl, rfl, fun d => ?_⟩)
      by_cases hd : d = cl.dataset_id
      · subst hd
        simp [count, set_dataset, set_io, set_client]
      · simp [count, set_dataset, set_io, set_client, hd]
    · cases h
  | complete c =>
    -- there is a worker pool
    simp only [next, client_of, client_step] at h
    split at h
    · rw [if_pos hn] at h
      cases h
    · cases h
  | wake w pick =>
    refine .inl ⟨?_, rfl, rfl⟩
    obtain ⟨pool, -, heq⟩ := Option.map_eq_some_iff.mp h
    rw [← heq]
    split
    · exact ⟨rfl, fun _ => rfl⟩
    · exact ⟨rfl, fun _ => rfl⟩
  | driver w throws =>
    refine .inl ⟨?_, rfl, rfl⟩
    simp only [next, client_of, worker_of, closure_step] at h
    split at h
    · split at h
      · cases h
        exact books_of_driver_returned ..
      · cases h
    · cases h
  | release w =>
    refine .inl ⟨?_, rfl, rfl⟩
    simp only [next, client_of, worker_of, closure_step] at h
    split at h
    · split at h
      · cases h
        exact ⟨rfl, fun _ => rfl⟩
      · cases h
    · cases h
  | decrement w =>
    simp only [next, client_of, worker_of, closure_step] at h
    split at h
    · next task hw =>
      split at h
      · cases h
        refine .inr (.inr ⟨task.callback, by simp only [lowered_by, hw], rfl, rfl, fun d => ?_⟩)
        by_cases hd : d = task.callback.dataset_id
        · subst hd
          simp [set_dataset, set_stage]
        · simp [set_dataset, set_stage, hd]
      · cases h
    · cases h
  | finish w =>
    refine .inl ⟨?_, rfl, rfl⟩
    simp only [next, client_of, worker_of, closure_step] at h
    split at h
    · split at h
      · obtain ⟨pool, -, rfl⟩ := Option.map_eq_some_iff.mp h
        exact ⟨rfl, fun _ => rfl⟩
      · cases h
    · cases h
  | shutdown | join =>
    refine .inl ⟨?_, rfl, rfl⟩
    obtain ⟨pool, -, rfl⟩ := Option.map_eq_some_iff.mp h
    exact ⟨rfl, fun _ => rfl⟩

end WritePath

/-! ## Section 3: Runs in order -/

namespace FlushPath

variable {m n k : Nat} {s s' : FlushPath m n k} {l : FlushLabel m n k}

/-- A flush remembers writes that have been counted; when it has seen the
    counter at 0 they have been counted down. -/
def Remembers (s : FlushPath m n k) : FlushPhase → Prop
  | .idle => True
  | .entered call => call.before ⊆ s.acknowledged call.dataset_id
  | .waiting call => call.before ⊆ s.acknowledged call.dataset_id
  | .pending call => call.before ⊆ s.acknowledged call.dataset_id
  | .drained call => call.before ⊆ s.lowered.map (·.io_rec)
  | .returned call (.ok ()) => call.before ⊆ s.lowered.map (·.io_rec)
  | .returned _ (.error _) => True

theorem Remembers.mono {phase : FlushPhase} (h : s.Remembers phase)
    (hraised : s.raised ⊆ s'.raised) (hlowered : s.lowered ⊆ s'.lowered) :
    s'.Remembers phase := by
  have hack : ∀ d, s.acknowledged d ⊆ s'.acknowledged d := fun d =>
    List.map_subset _ (List.filter_subset _ hraised)
  have hmap := List.map_subset (·.io_rec) hlowered
  cases phase with
  | idle => trivial
  | entered call | waiting call | pending call => exact List.Subset.trans h (hack _)
  | drained call => exact List.Subset.trans h hmap
  | returned call result =>
    cases result with
    | ok => exact List.Subset.trans h hmap
    | error => trivial

/-- **The invariant.** -/
structure Inv (s : FlushPath m n k) : Prop where
  path : s.path.Inv
  returned : s.raised.map (·.io_rec) = s.path.returned
  /-- Closures lower the counter after their calls. -/
  lowered_subset : s.lowered ⊆ s.raised
  settled : s.path.settled ~ s.lowered
  exact : ∀ d, (s.pending_writes d).toNat + s.lowered.countP (·.dataset_id = d) =
    s.raised.countP (·.dataset_id = d)
  before : ∀ f, s.Remembers (s.flushers f)

namespace Inv

theorem nodup (h : s.Inv) : s.lowered.Nodup := h.settled.nodup_iff.mp h.path.settled_nodup

theorem lowered_of_zero (h : s.Inv) {d : Nat} (hd : s.pending_writes d = 0) :
    s.acknowledged d ⊆ s.lowered.map (·.io_rec) := by
  have hsub : (s.lowered.filter (·.dataset_id = d)).Subperm (s.raised.filter (·.dataset_id = d)) :=
    (List.subperm_of_subset h.nodup h.lowered_subset).filter _
  have hlength : (s.raised.filter (·.dataset_id = d)).length ≤
      (s.lowered.filter (·.dataset_id = d)).length := by
    have hexact := h.exact d
    rw [hd] at hexact
    rw [← List.countP_eq_length_filter, ← List.countP_eq_length_filter, ← hexact]
    simp
  have hperm := hsub.perm_of_length_le hlength
  intro io hio
  obtain ⟨cl, hcl, rfl⟩ := List.mem_map.mp hio
  have hlowered := List.mem_of_mem_filter (hperm.mem_iff.mpr hcl)
  exact List.mem_map_of_mem hlowered

theorem safe (h : s.Inv) : s.FlushSafe where
  exact := h.exact
  returned := h.returned
  flushed := by
    intro f call hf io hio
    have hbefore := h.before f
    rw [hf] at hbefore
    obtain ⟨cl, hcl, rfl⟩ := List.mem_map.mp (hbefore hio)
    exact h.path.driver_of_settled (h.settled.mem_iff.mpr hcl)

theorem set_flusher (h : s.Inv) (f : Fin k) {phase : FlushPhase} (hphase : s.Remembers phase) :
    (s.set_flusher f phase).Inv :=
  { h with
    before := by
      intro g
      show s.Remembers (Function.update s.flushers f phase g)
      by_cases hg : g = f
      · subst hg
        rw [Function.update_self]
        exact hphase
      · rw [Function.update_of_ne hg]
        exact h.before g }

theorem mem_raised {pl : WriteLabel m n} {cl : WriteClosure} (hok : s.InOrder (.path pl))
    (hcl : s.path.lowered_by pl = some cl) : cl ∈ s.raised := by
  cases pl with
  | decrement w => simpa [InOrder, in_order, hcl] using hok
  | _ => cases hcl

theorem below_max {pl : WriteLabel m n} {cl : WriteClosure} (hok : s.InOrder (.path pl))
    (hcl : s.path.counted_by pl = some cl) :
    (s.pending_writes cl.dataset_id).toNat + 1 < 2 ^ 64 := by
  have hne : s.pending_writes cl.dataset_id ≠ BitVec.allOnes 64 := by
    cases pl with
    | count c => simpa [InOrder, in_order, hcl] using hok
    | _ => cases hcl
  have hlt := (s.pending_writes cl.dataset_id).isLt
  rw [ne_eq, ← BitVec.toNat_inj, BitVec.toNat_allOnes] at hne
  omega

/-- A step of the write path. -/
theorem path_step (hn : 0 < n) (h : s.Inv) {pl : WriteLabel m n} {path : WritePath m n}
    (hok : s.InOrder (.path pl)) (hstep : s.path.next pl = some path) :
    ({ s with
        path
        raised := s.raised ++ (s.path.counted_by pl).toList
        lowered := s.lowered ++ (s.path.lowered_by pl).toList } : FlushPath m n k).Inv := by
  have hpath : path.Inv := h.path.step hn hstep
  have hsettled : path.settled ~ s.lowered ++ (s.path.lowered_by pl).toList :=
    (WritePath.settled_step hstep).trans
      ((h.settled.append_left _).trans List.perm_append_comm)
  have hbefore : ∀ f, ({ s with
      path
      raised := s.raised ++ (s.path.counted_by pl).toList
      lowered := s.lowered ++ (s.path.lowered_by pl).toList } : FlushPath m n k).Remembers
      (s.flushers f) := fun f =>
    (h.before f).mono (List.subset_append_left _ _) (List.subset_append_left _ _)
  rcases WritePath.books_step hn hstep with ⟨⟨hreturned, hpending⟩, hcounted, hlowered⟩ |
    ⟨cl, hcounted, hlowered, hreturned, hpending⟩ | ⟨cl, hlowered, hcounted, hreturned, hpending⟩
  · -- the counters do not change
    rw [hcounted, hlowered] at hbefore ⊢
    rw [hlowered] at hsettled
    simp only [Option.toList_none, List.append_nil] at hbefore hsettled ⊢
    constructor
    · exact hpath
    · rw [hreturned]
      exact h.returned
    · exact h.lowered_subset
    · exact hsettled
    · intro d
      rw [← h.exact d, pending_writes, pending_writes, hpending]
    · exact hbefore
  · -- a call counts its write
    have hmax := below_max hok hcounted
    rw [hcounted, hlowered] at hbefore ⊢
    rw [hlowered] at hsettled
    simp only [Option.toList_none, Option.toList_some, List.append_nil] at hbefore hsettled ⊢
    constructor
    · exact hpath
    · rw [hreturned, ← h.returned, List.map_append]
      rfl
    · exact List.Subset.trans h.lowered_subset (List.subset_append_left _ _)
    · exact hsettled
    · intro d
      have hexact := h.exact d
      rw [pending_writes] at hexact hmax
      rw [pending_writes, hpending, List.countP_append, List.countP_singleton]
      by_cases hd : d = cl.dataset_id
      · subst hd
        simp only [if_true, decide_true, BitVec.toNat_add]
        simp
        omega
      · simp [hd, Ne.symm hd]
        omega
    · exact hbefore
  · -- a closure that is counted lowers the counter
    have hmem := mem_raised hok hlowered
    rw [hcounted, hlowered] at hbefore ⊢
    rw [hlowered] at hsettled
    simp only [Option.toList_none, Option.toList_some, List.append_nil] at hbefore hsettled ⊢
    have hsubset : s.lowered ++ [cl] ⊆ s.raised := by
      intro cl' hcl'
      rcases List.mem_append.mp hcl' with hcl' | hcl'
      · exact h.lowered_subset hcl'
      · rw [List.mem_singleton.mp hcl']
        exact hmem
    have hnodup : (s.lowered ++ [cl]).Nodup := hsettled.nodup_iff.mp hpath.settled_nodup
    constructor
    · exact hpath
    · rw [hreturned]
      exact h.returned
    · exact hsubset
    · exact hsettled
    · intro d
      have hexact := h.exact d
      have hle := (List.subperm_of_subset hnodup hsubset).countP_le (·.dataset_id = d)
      rw [pending_writes] at hexact
      rw [pending_writes, hpending, List.countP_append, List.countP_singleton]
      rw [List.countP_append, List.countP_singleton] at hle
      by_cases hd : d = cl.dataset_id
      · subst hd
        simp only [if_true, decide_true] at hle ⊢
        have hlt := (s.path.datasets cl.dataset_id).pending_writes.isLt
        simp only [BitVec.toNat_sub]
        simp
        omega
      · simp [hd, Ne.symm hd]
        omega
    · exact hbefore

/-- **Step lemma.** -/
theorem step (hn : 0 < n) (h : s.Inv) (hok : s.InOrder l) (hstep : s.next l = some s') :
    s'.Inv := by
  cases l with
  | path pl =>
    obtain ⟨path, hpath, rfl⟩ := Option.map_eq_some_iff.mp hstep
    exact h.path_step hn hok hpath
  | flush f d =>
    simp only [next] at hstep
    split at hstep
    · cases hstep
      exact h.set_flusher f (List.Subset.refl _)
    · cases hstep
      exact h.set_flusher f (List.Subset.refl _)
    · cases hstep
  | look f =>
    simp only [next] at hstep
    have hbefore := h.before f
    split at hstep
    · next call hf =>
      cases hstep
      rw [hf] at hbefore
      apply h.set_flusher f
      split
      · next hzero => exact List.Subset.trans hbefore (h.lowered_of_zero hzero)
      · exact hbefore
    · next call hf =>
      cases hstep
      rw [hf] at hbefore
      apply h.set_flusher f
      split
      · next hzero => exact List.Subset.trans hbefore (h.lowered_of_zero hzero)
      · exact hbefore
    · cases hstep
  | sleep f =>
    simp only [next] at hstep
    have hbefore := h.before f
    split at hstep
    · next call hf =>
      cases hstep
      rw [hf] at hbefore
      exact h.set_flusher f hbefore
    · cases hstep
  | timeout f =>
    simp only [next] at hstep
    split at hstep
    · cases hstep
      exact h.set_flusher f trivial
    · cases hstep
  | report f =>
    simp only [next] at hstep
    have hbefore := h.before f
    split at hstep
    · next call hf =>
      cases hstep
      rw [hf] at hbefore
      apply h.set_flusher f
      cases flush_status (s.path.datasets call.dataset_id) with
      | ok => exact hbefore
      | error => trivial
    · cases hstep

end Inv

/-- **Run lemma.** -/
theorem inv_of_reachable (hn : 0 < n) (hr : ((system m n k).restrict InOrder).Reachable s) :
    s.Inv := by
  refine hr.invariant (P := Inv) (fun t ht => ?_) fun t l t' _ h hstep => by
    obtain ⟨hok, hnext⟩ := hstep
    exact h.step hn hok hnext
  obtain ⟨cfg, staging, backpressure, hinit, rfl⟩ := ht
  constructor
  · exact WritePath.inv_make hinit backpressure
  · rfl
  · exact List.Subset.refl _
  · show ([] ++ held (WritePath.done (.make staging backpressure))) ~ []
    have hnone : WritePath.done (.make staging backpressure : WritePath m n) = fun _ => none := rfl
    rw [hnone]
    simp [held]
  · intro d
    rfl
  · intro f
    trivial

/-- **A flush waits for the writes that it finds**, in every run in which no
    closure lowers the counter before its own call has raised it. -/
theorem flush_safe (hn : 0 < n) :
    ∀ s : FlushPath m n k, ((system m n k).restrict InOrder).Reachable s → s.FlushSafe :=
  fun _ hr => (inv_of_reachable hn hr).safe

/-! ### Runs

  A write that is flushed in order; and the same write when its closure
  comes first, alone and with another write of the dataset under way. -/

theorem flush_safe_single : 0 < 1 ∧ ∃ s : FlushPath 1 1 1,
    ((system 1 1 1).restrict InOrder).Reachable s ∧
    (∃ call, s.flushers 0 = .returned call (.ok ()) ∧ 0 ∈ call.before) ∧ s.FlushSafe := by
  have hrun : ∃ s, LTS.System.exec (LTS.System.guarded next InOrder)
      (make singlePool {} : FlushPath 1 1 1)
      [.path (.call 0 byteArgs), .path (.acquire 0), .path (.stage 0), .path (.submit 0),
        .path (.enter 0), .path (.count 0), .flush 0 1, .look 0, .look 0, .path (.wake 0 0),
        .path (.driver 0 false), .path (.release 0), .path (.decrement 0), .sleep 0, .look 0,
        .report 0] = some s ∧
      s.flushers 0 = .returned ⟨1, [0]⟩ (.ok ()) := ⟨_, rfl, rfl⟩
  obtain ⟨s, hexec, hflushed⟩ := hrun
  have hinit : (system 1 1 1).init (make singlePool {}) :=
    ⟨singleStaging, singlePool, {}, ⟨rfl, .refl _, rfl, rfl, rfl⟩, rfl⟩
  have hr : ((system 1 1 1).restrict InOrder).Reachable s :=
    LTS.System.restrict_reachable_of_exec hinit hexec
  exact ⟨Nat.one_pos, s, hr, ⟨_, hflushed, List.mem_singleton.mpr rfl⟩,
    flush_safe Nat.one_pos s hr⟩

theorem pair_pos : 1 ≤ 2 := by decide

/-- A staging pool with two buffers. -/
def pairStaging : StagingConfig :=
  { singleStaging with
    buffer_count := 2, max_buffer_count := 2
    count_pos := pair_pos, count_le := by decide, max_le := by decide }

def pairPool : StagingPool where
  buffers := [{}, {}]
  free_list := [0, 1]
  max_buffer_count := 2
  buffer_capacity := 64
  grow_mode := .Grow
  allocations := 0

/-- One byte of variable `w`, in the dataset of `byteArgs`. -/
def otherArgs : WriteArgs := { byteArgs with var_name := some [119#8] }

theorem flush_unsafe :
    (∃ s : FlushPath 1 1 1, (system 1 1 1).Reachable s ∧
      s.pending_writes 1 = BitVec.allOnes 64) ∧
    ∃ (s : FlushPath 2 2 1) (call : FlushCall), (system 2 2 1).Reachable s ∧
      s.flushers 0 = .returned call (.ok ()) ∧ 0 ∈ call.before ∧
      0 ∉ s.path.driver_writes.map (·.io_rec) := by
  constructor
  · have hrun : ∃ s, LTS.System.exec next (make singlePool {} : FlushPath 1 1 1)
        [.path (.call 0 byteArgs), .path (.acquire 0), .path (.stage 0), .path (.submit 0),
          .path (.enter 0), .path (.wake 0 0), .path (.driver 0 false), .path (.release 0),
          .path (.decrement 0)] = some s ∧
        s.pending_writes 1 = BitVec.allOnes 64 := ⟨_, rfl, rfl⟩
    obtain ⟨s, hexec, hpending⟩ := hrun
    refine ⟨s, LTS.System.reachable_of_exec ?_ hexec, hpending⟩
    exact ⟨singleStaging, singlePool, {}, ⟨rfl, .refl _, rfl, rfl, rfl⟩, rfl⟩
  · -- the closure of the second write takes the count of the first
    have hrun : ∃ s, LTS.System.exec next (make pairPool {} : FlushPath 2 2 1)
        [.path (.call 0 byteArgs), .path (.acquire 0), .path (.stage 0), .path (.submit 0),
          .path (.enter 0), .path (.count 0), .path (.wake 0 0),
          .path (.call 1 otherArgs), .path (.acquire 1), .path (.stage 1), .path (.submit 1),
          .path (.enter 1), .path (.wake 1 0), .path (.driver 1 false), .path (.release 1),
          .path (.decrement 1), .flush 0 1, .look 0, .report 0] = some s ∧
        s.flushers 0 = .returned ⟨1, [0]⟩ (.ok ()) ∧
        s.path.driver_writes.map (·.io_rec) = [1] := ⟨_, rfl, rfl, rfl⟩
    obtain ⟨s, hexec, hflushed, hwrites⟩ := hrun
    refine ⟨s, _, LTS.System.reachable_of_exec ?_ hexec, hflushed, List.mem_singleton.mpr rfl, ?_⟩
    · exact ⟨pairStaging, pairPool, {}, ⟨rfl, .refl _, rfl, rfl, rfl⟩, rfl⟩
    · rw [hwrites]
      decide

end FlushPath

end Amio
