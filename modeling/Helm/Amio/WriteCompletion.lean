import Helm.Amio.WorkerProgress
import Helm.Amio.WriteLedger

/-! # The write path: completion of writes

  `submit_write` refuses a closure when the pool is shut down and, without
  backpressure, when the queue is full. `write` does not notice and reports
  `AMIO_OK`; such a write is never carried out, keeps its staging buffer and
  stays pending for good (`write_dropped`).

  In runs in which no closure is refused, the books of the write path balance
  without rejected writes: every write is carried out exactly once, and when
  the last one is done everything is as it was before the first.
-/

namespace Amio

namespace WritePath

open LTS.System (Execution)
open Holders (held)

variable {m n : Nat} {s s' : WritePath m n} {l : WriteLabel m n}

/-! ## Section 1: Runs in which nothing is refused -/

/-- The step does not refuse a closure: `submit_write` finds the pool in
    service and, without backpressure, the queue shorter than its capacity. -/
def admitted (s : WritePath m n) : WriteLabel m n → Bool
  | .submit _ => !s.pool.shutdown
  | .enter _ =>
    !s.pool.shutdown && (s.pool.backpressure.enabled ||
      s.pool.write_queue.length < s.pool.backpressure.queue_capacity)
  | .resume _ => !s.pool.shutdown
  | _ => true

def Admitted (s : WritePath m n) (l : WriteLabel m n) : Prop := s.admitted l = true

instance (s : WritePath m n) (l : WriteLabel m n) : Decidable (s.Admitted l) :=
  inferInstanceAs (Decidable (_ = true))

theorem rejected_of_submit_step {c : Fin m} {token : Token} {cl : WriteClosure} {why : Prop}
    {pl : WorkerLabel WriteClosure n}
    (hsub : ∀ pool', s.pool.next pl = some pool' → Submitted s.pool c token cl why pool')
    (hstep : s.submit_step c token cl pl = some s') :
    s'.rejected = s.rejected ∨ why ∧ s'.rejected = s.rejected ++ [cl] := by
  rcases submit_step_cases hsub hstep with ⟨phase, -, rfl⟩ | ⟨result, hwhy, rfl⟩ | rfl
  · exact .inl rfl
  · exact .inr ⟨hwhy, rfl⟩
  · exact .inl rfl

/-- **What is rejected**, in one step: at most one closure more, and none when
    the step is admitted. -/
theorem Inv.rejected_step (h : s.Inv) (hstep : s.next l = some s') :
    s'.rejected = s.rejected ∨ ¬ s.Admitted l ∧ ∃ cl, s'.rejected = s.rejected ++ [cl] := by
  cases l with
  | submit c =>
    simp only [next, client_of, client_step] at hstep
    split at hstep
    · split at hstep
      · refine (rejected_of_submit_step (fun _ => submitted_of_check) hstep).imp id fun hrej => ?_
        exact ⟨by simp [Admitted, admitted, hrej.1], _, hrej.2⟩
      · cases hstep
    · cases hstep
  | enter c =>
    simp only [next, client_of, client_step] at hstep
    split at hstep
    · next hc =>
      refine (rejected_of_submit_step
        (fun _ => submitted_of_enter (h.submitting _ _ _ hc)) hstep).imp id fun hrej => ?_
      refine ⟨?_, _, hrej.2⟩
      rcases hrej.1 with hshutdown | ⟨henabled, hfull⟩
      · simp [Admitted, admitted, hshutdown]
      · simp [Admitted, admitted, henabled, hfull]
    · cases hstep
  | resume c =>
    simp only [next, client_of, client_step] at hstep
    split at hstep
    · next hc =>
      refine (rejected_of_submit_step
        (fun _ => submitted_of_resume (h.submitting _ _ _ hc)) hstep).imp id fun hrej => ?_
      exact ⟨by simp [Admitted, admitted, hrej.1], _, hrej.2⟩
    · cases hstep
  | call c | acquire c | acquire_timeout c =>
    refine .inl ?_
    simp only [next, client_of, client_step] at hstep
    split at hstep
    · split at hstep
      · cases hstep <;> rfl
      · cases hstep <;> rfl
    · cases hstep
  | acquire_throw c | stage c | count c =>
    refine .inl ?_
    simp only [next, client_of, client_step] at hstep
    split at hstep
    · cases hstep
      rfl
    · cases hstep
  | complete c =>
    refine .inl ?_
    simp only [next, client_of, client_step] at hstep
    split at hstep
    · split at hstep
      · cases hstep
      · cases hstep
        rfl
    · cases hstep
  | wake w pick =>
    obtain ⟨pool, -, rfl⟩ := Option.map_eq_some_iff.mp hstep
    refine .inl ?_
    split
    · rfl
    · rfl
  | driver w throws =>
    refine .inl ?_
    simp only [next, client_of, worker_of, closure_step] at hstep
    split at hstep
    · split at hstep
      · cases hstep
        cases throws <;> rfl
      · cases hstep
    · cases hstep
  | release w | decrement w =>
    refine .inl ?_
    simp only [next, client_of, worker_of, closure_step] at hstep
    split at hstep
    · split at hstep
      · cases hstep
        rfl
      · cases hstep
    · cases hstep
  | finish w =>
    refine .inl ?_
    simp only [next, client_of, worker_of, closure_step] at hstep
    split at hstep
    · split at hstep
      · obtain ⟨pool, -, rfl⟩ := Option.map_eq_some_iff.mp hstep
        rfl
      · cases hstep
    · cases hstep
  | shutdown | join =>
    obtain ⟨pool, -, rfl⟩ := Option.map_eq_some_iff.mp hstep
    exact .inl rfl

/-- **Run lemma.** -/
theorem rejected_of_admitted (hn : 0 < n)
    (hr : ((system m n).restrict Admitted).Reachable s) : s.rejected = [] := by
  refine hr.invariant (P := fun s => s.rejected = []) (fun t ht => ?_) fun t l t' ht h hstep => ?_
  · obtain ⟨cfg, staging, backpressure, -, rfl⟩ := ht
    rfl
  · obtain ⟨hok, hnext⟩ := hstep
    rcases (inv_of_reachable hn ht.of_restrict).rejected_step hnext with hsame | ⟨hno, -⟩
    · rw [hsame, h]
    · exact absurd hok hno

theorem pool_attended (hn : 0 < n) (hr : ((system m n).restrict Admitted).Reachable s) :
    ((WorkerPool.system WriteClosure n).restrict WorkerPool.Attended).Reachable s.pool := by
  induction hr with
  | init h =>
    obtain ⟨cfg, staging, backpressure, -, rfl⟩ := h
    exact .init ⟨backpressure, rfl⟩
  | @step t t' l hr hstep ih =>
    obtain ⟨hok, hnext⟩ := hstep
    rcases pool_of_next hnext with ⟨pl, hpl, hpool⟩ | ⟨-, hsame⟩
    · refine .step ih ⟨fun hacc => ⟨⟨0, hn⟩, fun hexited => ?_⟩, hpool⟩
      -- nobody has left before shutdown
      have hshutdown := (inv_of_reachable hn hr.of_restrict).pool.exited _ hexited
      cases l with
      | enter c | resume c => simp [Admitted, admitted, hshutdown] at hok
      | submit c =>
        simp only [pool_label] at hpl
        split at hpl
        · cases hpl
          simp [WorkerPool.accepts] at hacc
        · cases hpl
      | wake | finish | shutdown | join =>
        cases hpl
        simp [WorkerPool.accepts] at hacc
      | _ => cases hpl
    · rw [hsame]
      exact ih

/-! ## Section 2: Progress -/

/-- **Fairness.** An idle worker looks for work again, and a closure that has
    been called returns. -/
structure Fair (e : ((system m n).restrict Admitted).Execution) : Prop where
  wakes : ∀ i w, (e.state i).pool.workers w = .idle →
    ∃ j, i ≤ j ∧ ∃ pick, e.label j = .wake w pick
  finishes : ∀ i w, ((e.state i).pool.workers w).busy = some () →
    ∃ j, i ≤ j ∧ e.label j = .finish w

section Progress

variable {e : ((system m n).restrict Admitted).Execution}

/-- The step of the worker pool at time `i`. -/
def pool_label_at (e : ((system m n).restrict Admitted).Execution) (i : ℕ) :
    Option (WorkerLabel WriteClosure n) :=
  (e.state i).pool_label (e.label i)

theorem pool_step_at (e : ((system m n).restrict Admitted).Execution) (i : ℕ) :
    (∃ pl, pool_label_at e i = some pl ∧
      (e.state i).pool.next pl = some (e.state (i + 1)).pool) ∨
      pool_label_at e i = none ∧ (e.state (i + 1)).pool = (e.state i).pool :=
  pool_of_next (e.step i).2

theorem pool_goes_on (hfair : Fair e) {i : ℕ} {w : Fin n}
    (hw : (e.state i).pool.workers w ≠ .exited) : ∃ j, i ≤ j ∧ (pool_label_at e j).isSome := by
  cases hphase : (e.state i).pool.workers w with
  | exited => exact absurd hphase hw
  | idle =>
    obtain ⟨j, hij, pick, hl⟩ := hfair.wakes i w hphase
    exact ⟨j, hij, by rw [pool_label_at, hl]; rfl⟩
  | writing _ | prefetching _ =>
    obtain ⟨j, hij, hl⟩ := hfair.finishes i w (by rw [hphase, WorkerPhase.busy])
    exact ⟨j, hij, by rw [pool_label_at, hl]; rfl⟩

theorem executed_of_exited (hn : 0 < n) (hr : ((system m n).restrict Admitted).Reachable s)
    (hexited : ∀ w, s.pool.workers w = .exited) {task : WriteTask WriteClosure}
    (htask : task ∈ s.pool.submitted) : task ∈ s.pool.executed := by
  have hinv := (inv_of_reachable hn hr.of_restrict).pool
  have hqueue := WorkerPool.drained_of_reachable (pool_attended hn hr) hexited
  rcases hinv.mem_submitted.mp htask with hq | hrun | hexec
  · simp [hqueue] at hq
  · obtain ⟨w, hw⟩ := Holders.mem_held.mp hrun
    have := WorkerPool.running_eq_some.mp hw
    simp [hexited w] at this
  · exact hexec

/-- **Progress.** A write that the pool has accepted is executed. Its pool is
    watched on its own: there either all workers leave, or there is always a
    next step. -/
theorem submitted_leads_to (hn : 0 < n) (hfair : Fair e) (task : WriteTask WriteClosure) :
    e.LeadsTo (fun s => task ∈ s.pool.submitted) fun s => task ∈ s.pool.executed := by
  intro i htask
  by_cases hinf : ∀ i, ∃ j, i ≤ j ∧ (pool_label_at e j).isSome
  · obtain ⟨e', φ, hproj⟩ : ∃ (e' : (WorkerPool.system WriteClosure n).Execution) (φ : ℕ → ℕ),
        e.Projects (fun s => s.pool) (pool_label_at e) e' φ := e.exists_component _ _
      (fun s ⟨_, _, backpressure, _, hs⟩ => ⟨backpressure, by rw [hs]; rfl⟩)
      (fun k pl hpl => by
        rcases pool_step_at e k with ⟨pl', hpl', hnext⟩ | ⟨hnone, -⟩
        · rw [hpl, Option.some.injEq] at hpl'
          exact hpl' ▸ hnext
        · rw [hpl] at hnone
          cases hnone)
      (fun k hnone => by
        rcases pool_step_at e k with ⟨pl', hpl', -⟩ | ⟨-, hsame⟩
        · rw [hnone] at hpl'
          cases hpl'
        · exact hsame)
      hinf
    -- fairness carries over to the pool
    have hlabel : ∀ {k j pl}, φ k ≤ j → pool_label_at e j = some pl → ∃ k', k ≤ k' ∧
        e'.label k' = pl := by
      intro k j pl hkj hpl
      obtain ⟨k', hk'⟩ := hproj.cover j pl hpl
      refine ⟨k', hproj.mono.le_iff_le.mp (hk' ▸ hkj), ?_⟩
      have := hproj.label k'
      rw [hk', hpl, Option.some.injEq] at this
      exact this.symm
    have hfair' : WorkerPool.Fair e' := by
      constructor
      · intro k w hidle
        rw [hproj.state] at hidle
        obtain ⟨j, hkj, pick, hl⟩ := hfair.wakes _ w hidle
        obtain ⟨k', hk', hl'⟩ := hlabel hkj (by rw [pool_label_at, hl]; rfl)
        exact ⟨k', hk', pick, hl'⟩
      · intro k w hbusy
        rw [hproj.state] at hbusy
        obtain ⟨j, hkj, hl⟩ := hfair.finishes _ w hbusy
        obtain ⟨k', hk', hl'⟩ := hlabel hkj (by rw [pool_label_at, hl]; rfl)
        exact ⟨k', hk', none, hl'⟩
    obtain ⟨k, hik, hk⟩ := hproj.seen i
    have hr := e.reachable i
    rcases (inv_of_reachable hn hr.of_restrict).pool.mem_submitted.mp htask with hq | hrun | hexec
    · -- a queued write has a worker
      obtain ⟨w, hw⟩ : ∃ w, (e.state i).pool.workers w ≠ .exited := by
        by_contra hall
        push Not at hall
        have := WorkerPool.drained_of_reachable (pool_attended hn hr) hall
        simp [this] at hq
      rw [← hk] at hq hw
      obtain ⟨k', hk', hexec⟩ := WorkerPool.queued_leads_to_executed hfair' k ⟨hq, hw⟩
      rw [hproj.state] at hexec
      exact ⟨φ k', hik.trans (hproj.mono.monotone hk'), hexec⟩
    · rw [← hk] at hrun
      obtain ⟨k', hk', hexec⟩ := WorkerPool.running_leads_to hfair' k hrun
      rw [hproj.state] at hexec
      exact ⟨φ k', hik.trans (hproj.mono.monotone hk'), hexec⟩
    · exact ⟨i, le_rfl, hexec⟩
  · push Not at hinf
    obtain ⟨i₀, hstop⟩ := hinf
    have hsub : task ∈ (e.state (max i i₀)).pool.submitted := by
      refine e.stable (P := fun s => task ∈ s.pool.submitted) (fun k hk => ?_) (le_max_left ..) htask
      rcases pool_step_at e k with ⟨pl, -, hnext⟩ | ⟨-, hsame⟩
      · have heff := WorkerPool.next_effect hnext
        exact heff.submitted_subset hk
      · rw [hsame]
        exact hk
    refine ⟨max i i₀, le_max_left .., executed_of_exited hn (e.reachable _) (fun w => ?_) hsub⟩
    by_contra hw
    obtain ⟨j, hj, hsome⟩ := pool_goes_on hfair hw
    exact hstop j ((le_max_right ..).trans hj) hsome

end Progress

/-! ## Section 3: Every write is carried out once -/

/-- No call is between taking its buffer and returning, and every write that
    the worker pool has accepted has been executed. -/
def AtRest (s : WritePath m n) : Prop :=
  (∀ c, s.ticket c = none) ∧ ∀ task ∈ s.pool.submitted, task ∈ s.pool.executed

theorem exists_submitted (hn : 0 < n) (hr : ((system m n).restrict Admitted).Reachable s)
    {io : Nat} (hio : io ∈ s.returned) : ∃ task ∈ s.pool.submitted, task.callback.io_rec = io := by
  have h := inv_of_reachable hn hr.of_restrict
  have hrej := rejected_of_admitted hn hr
  rcases Ledger.Balanced.exists_place (h.balanced.returned io hio) with
    ⟨cl, hcl, hrec⟩ | ⟨hd, hhd, hrec⟩ | ⟨cl, hcl, hrec⟩ | ⟨cl, hcl, -⟩
  · obtain ⟨task, htask, rfl⟩ := List.mem_map.mp hcl
    exact ⟨task, h.pool.mem_submitted.mpr (.inl htask), hrec⟩
  · obtain ⟨w, hw⟩ := Holders.mem_held.mp hhd
    obtain ⟨task, htask, rfl⟩ := Option.map_eq_some_iff.mp hw
    exact ⟨task, h.pool.mem_submitted.mpr (.inr (.inl (Holders.mem_held.mpr ⟨w, htask⟩))), hrec⟩
  · obtain ⟨task, htask, rfl⟩ := List.mem_map.mp hcl
    exact ⟨task, h.pool.mem_submitted.mpr (.inr (.inr htask)), hrec⟩
  · have hcl : cl ∈ s.rejected := hcl
    simp [hrej] at hcl

theorem Inv.executed_once (h : s.Inv) {task : WriteTask WriteClosure}
    (htask : task ∈ s.pool.executed) :
    (s.driver_writes.map (·.io_rec)).count task.callback.io_rec = 1 ∧
      s.released.count task.callback.io_rec = 1 :=
  h.balanced.executed_once (List.mem_map.mpr ⟨task, htask, rfl⟩)

theorem Inv.at_rest (h : s.Inv) (hrest : s.AtRest) :
    s.ledger.tickets = [] ∧ s.ledger.queued = [] ∧ s.ledger.hands = [] := by
  obtain ⟨hticket, hexec⟩ := hrest
  have hnd := h.pool.nodup
  rw [List.map_append, List.nodup_append, List.map_append, List.nodup_append] at hnd
  refine ⟨?_, ?_, ?_⟩
  · refine List.eq_nil_iff_forall_not_mem.mpr fun t ht => ?_
    obtain ⟨c, hc⟩ := Holders.mem_held.mp ht
    simp [hticket c] at hc
  · refine List.eq_nil_iff_forall_not_mem.mpr fun cl hcl => ?_
    obtain ⟨task, htask, rfl⟩ := List.mem_map.mp hcl
    have hdone := hexec task (h.pool.mem_submitted.mpr (.inl htask))
    exact hnd.2.2 _ (List.mem_map_of_mem htask) _
      (List.mem_append_right _ (List.mem_map_of_mem hdone)) rfl
  · refine List.eq_nil_iff_forall_not_mem.mpr fun hd hhd => ?_
    obtain ⟨w, hw⟩ := Holders.mem_held.mp hhd
    obtain ⟨task, htask, rfl⟩ := Option.map_eq_some_iff.mp hw
    have hrun : task ∈ held s.pool.running := Holders.mem_held.mpr ⟨w, htask⟩
    have hdone := hexec task (h.pool.mem_submitted.mpr (.inr (.inl hrun)))
    exact hnd.2.1.2.2 _ (List.mem_map_of_mem hrun) _ (List.mem_map_of_mem hdone) rfl

/-- **Every write is carried out exactly once**, in runs in which no closure is
    refused:

    - the driver is called at most once for a write, and its buffer is given
      back at most once;
    - once the writes have been executed, both have happened for every write
      that was reported with `AMIO_OK`, no write is pending, and all staging
      buffers are free;
    - in a fair run both do happen. -/
theorem writes_completed_once (m : Nat) {n : Nat} (hn : 0 < n) :
    (∀ s, ((system m n).restrict Admitted).Reachable s →
      (∀ io, (s.driver_writes.map (·.io_rec)).count io ≤ 1 ∧ s.released.count io ≤ 1) ∧
      (s.AtRest →
        (∀ io ∈ s.returned,
          (s.driver_writes.map (·.io_rec)).count io = 1 ∧ s.released.count io = 1) ∧
        (∀ d, (s.datasets d).pending_writes = 0) ∧
        s.staging.free_buffer_count = s.staging.total_buffer_count)) ∧
    ∀ e : ((system m n).restrict Admitted).Execution, Fair e → ∀ i, ∀ io ∈ (e.state i).returned,
      ∃ j, i ≤ j ∧ ((e.state j).driver_writes.map (·.io_rec)).count io = 1 ∧
        (e.state j).released.count io = 1 := by
  constructor
  · intro s hr
    have h := inv_of_reachable hn hr.of_restrict
    refine ⟨h.balanced.at_most_once, fun hrest => ?_⟩
    obtain ⟨htickets, hqueued, hhands⟩ := h.at_rest hrest
    obtain ⟨hpending, hfree⟩ :=
      h.balanced.at_rest htickets hqueued hhands (rejected_of_admitted hn hr)
    refine ⟨fun io hio => ?_, hpending, hfree⟩
    obtain ⟨task, htask, rfl⟩ := exists_submitted hn hr hio
    exact h.executed_once (hrest.2 task htask)
  · intro e hfair i io hio
    obtain ⟨task, htask, rfl⟩ := exists_submitted hn (e.reachable i) hio
    obtain ⟨j, hij, hexec⟩ := submitted_leads_to hn hfair task i htask
    exact ⟨j, hij, (inv_of_reachable hn (e.reachable j).of_restrict).executed_once hexec⟩

/-! ### A fair run

  One client, one worker and one write, for which the driver throws. After
  that the worker keeps looking for work. -/

/-- One byte of variable `v`. -/
def byteArgs : WriteArgs where
  dataset_id := 1
  var_name := some [118#8]
  host_data := some [7#8]
  dtype := .U8
  shape := some ⟨1, fun _ => 1, fun _ => 0⟩

/-- A staging pool with one buffer. -/
def singleStaging : StagingConfig :=
  { buffer_count := 1, buffer_capacity := 64, max_buffer_count := 1, mode := .Grow
    count_pos := by decide, capacity_pos := by decide, capacity_le := by decide
    count_le := by decide, max_le := by decide }

def singlePool : StagingPool where
  buffers := [{}]
  free_list := [0]
  max_buffer_count := 1
  buffer_capacity := 64
  grow_mode := .Grow
  allocations := 0

section
local instance sole_client : NeZero 1 := ⟨Nat.one_ne_zero⟩

/-- The labels of the run. -/
def soleLabel : ℕ → WriteLabel 1 1
  | 0 => .call 0 byteArgs
  | 1 => .acquire 0
  | 2 => .stage 0
  | 3 => .submit 0
  | 4 => .enter 0
  | 5 => .count 0
  | 7 => .driver 0 true
  | 8 => .release 0
  | 9 => .decrement 0
  | 10 => .finish 0
  | _ => .wake 0 0

end

/-- The states of the run. -/
def soleState : ℕ → WritePath 1 1
  | 0 => make singlePool {}
  | i + 1 => ((soleState i).next (soleLabel i)).getD (soleState i)

theorem soleState_last : (soleState 11).next (.wake 0 0) = some (soleState 11) := rfl

theorem soleState_add (i : ℕ) : soleState (i + 11) = soleState 11 := by
  induction i with
  | zero => rfl
  | succ i ih =>
    rw [Nat.add_right_comm, soleState, ih, soleLabel, soleState_last]
    · rfl
    all_goals omega

theorem soleState_step (i : ℕ) :
    (soleState i).Admitted (soleLabel i) ∧
      (soleState i).next (soleLabel i) = some (soleState (i + 1)) := by
  match i with
  | 0 | 1 | 2 | 3 | 4 | 5 | 6 | 7 | 8 | 9 | 10 => exact ⟨rfl, rfl⟩
  | i + 11 =>
    rw [show i + 11 + 1 = i + 1 + 11 by omega, soleState_add i, soleState_add (i + 1)]
    exact ⟨rfl, soleState_last⟩

/-- The run. -/
def soleRun : ((system 1 1).restrict Admitted).Execution where
  state := soleState
  label := soleLabel
  init := ⟨singleStaging, singlePool, {}, ⟨rfl, .refl _, rfl, rfl, rfl⟩, rfl⟩
  step := soleState_step

theorem soleRun_fair : Fair soleRun where
  wakes := fun i w _ => ⟨i + 11, by omega, 0, by rw [Subsingleton.elim w 0]; rfl⟩
  finishes := fun i w hb => by
    obtain rfl : w = 0 := Subsingleton.elim w 0
    match i with
    | 0 | 1 | 2 | 3 | 4 | 5 | 6 => cases hb
    | 7 | 8 | 9 | 10 => exact ⟨10, by omega, rfl⟩
    | i + 11 =>
      change ((soleState (i + 11)).pool.workers 0).busy = some () at hb
      rw [soleState_add] at hb
      cases hb

theorem writes_completed_once_sole :
    0 < 1 ∧ Fair soleRun ∧ 0 ∈ (soleRun.state 6).returned ∧ (soleRun.state 11).AtRest ∧
      ((soleRun.state 11).datasets 1).pending_writes = 0 ∧
      (soleRun.state 11).staging.free_buffer_count =
        (soleRun.state 11).staging.total_buffer_count ∧
      ∃ j, 6 ≤ j ∧ ((soleRun.state j).driver_writes.map (·.io_rec)).count 0 = 1 ∧
        (soleRun.state j).released.count 0 = 1 := by
  have hret : 0 ∈ (soleRun.state 6).returned := List.mem_singleton.mpr rfl
  have hrest : (soleRun.state 11).AtRest := by
    refine ⟨fun c => by rw [Subsingleton.elim c 0]; rfl, fun task htask => ?_⟩
    exact htask
  obtain ⟨hsafe, hlive⟩ := writes_completed_once 1 Nat.one_pos
  obtain ⟨-, hpending, hfree⟩ := (hsafe _ (soleRun.reachable 11)).2 hrest
  exact ⟨Nat.one_pos, soleRun_fair, hret, hrest, hpending 1, hfree,
    hlive soleRun soleRun_fair 6 0 hret⟩

/-! ## Section 4: A write that is dropped

  One client, one worker that never gets to run, and the configuration that
  `init_from_config` gives the pool: no backpressure and a queue of 1024
  places. After 1024 writes the queue is full. -/

/-- The request that the checks make of `byteArgs`. -/
def byteRequest : WriteRequest where
  dataset_id := 1
  var_name := [118#8]
  host_data := [7#8]
  dtype := .U8
  shape := ⟨1, fun _ => 1, fun _ => 0⟩
  payload_bytes := 1

theorem validate_byteArgs : validate_write byteArgs = .ok byteRequest := rfl

/-- The client is idle, and the worker has done nothing. -/
structure Steady (s : WritePath 1 1) : Prop where
  reachable : (system 1 1).Reachable s
  client : ∃ last, s.clients 0 = .idle last
  pool_client : ∃ last, s.pool.clients 0 = .ready last
  shutdown : s.pool.shutdown = false
  worker : s.pool.workers 0 = .idle
  enabled : s.pool.backpressure.enabled = false

theorem Steady.exists_acquire {s : WritePath 1 1} (h : s.Steady) (hrej : s.rejected = [])
    (hroom : s.pool.write_queue.length < s.staging.total_buffer_count) (required : Nat) :
    ∃ staging' buf, s.staging.acquire required = (staging', some buf) := by
  have hinv := inv_of_reachable Nat.one_pos h.reachable
  refine hinv.balanced.owned.exists_acquire ?_ required
  obtain ⟨last, hc⟩ := h.client
  have htickets : held s.ticket = [] := by
    refine List.eq_nil_iff_forall_not_mem.mpr fun t ht => ?_
    obtain ⟨c, hc'⟩ := Holders.mem_held.mp ht
    rw [Subsingleton.elim c 0, ticket, hc] at hc'
    cases hc'
  have hhands : held s.hand = [] := by
    refine List.eq_nil_iff_forall_not_mem.mpr fun hd hhd => ?_
    obtain ⟨w, hw⟩ := Holders.mem_held.mp hhd
    rw [Subsingleton.elim w 0, hand, h.worker] at hw
    cases hw
  have howners : s.ledger.owners.length = s.pool.write_queue.length := by
    simp [Ledger.owners, ledger, htickets, hhands, hrej]
  exact howners ▸ hroom

theorem Steady.enter {s : WritePath 1 1} (h : s.Steady) {staging' : StagingPool} {buf : Nat}
    (hacq : s.staging.acquire 1 = (staging', some buf)) :
    ∃ t token cl, (system 1 1).Reachable t ∧ t.clients 0 = .submitting token cl ∧
      t.pool = s.pool.set_client 0 (.checked (.submit_write cl.dv_key token.toNat cl)) ∧
      t.rejected = s.rejected ∧
      t.staging.total_buffer_count = staging'.total_buffer_count := by
  obtain ⟨last, hc⟩ := h.client
  obtain ⟨plast, hpc⟩ := h.pool_client
  have hcall : s.next (.call 0 byteArgs) = some (s.set_client 0 (.acquiring byteRequest)) := by
    simp [next, client_of, client_step, hc, validate_byteArgs]
  have hacquire : (s.set_client 0 (.acquiring byteRequest)).next (.acquire 0) =
      some { s.set_client 0 (.staged byteRequest buf) with staging := staging' } := by
    have hacq' : s.staging.acquire byteRequest.payload_bytes = (staging', some buf) := hacq
    simp [next, client_of, client_step, set_client, hacq']
  have hstage : ({ s.set_client 0 (.staged byteRequest buf) with
      staging := staging' } : WritePath 1 1).next (.stage 0) =
      some (({ s.set_client 0 (.staged byteRequest buf) with
        staging := staging' } : WritePath 1 1).stage 0 byteRequest buf) := by
    simp [next, client_of, client_step, set_client]
  have hr := ((h.reachable.step hcall).step hacquire).step hstage
  obtain ⟨t, token, cl, rfl, htc, hpool, hrej, htotal⟩ : ∃ t token cl,
      ({ s.set_client 0 (.staged byteRequest buf) with
        staging := staging' } : WritePath 1 1).stage 0 byteRequest buf = t ∧
      t.clients 0 = .recorded token cl ∧ t.pool = s.pool ∧ t.rejected = s.rejected ∧
      t.staging.total_buffer_count = staging'.total_buffer_count :=
    ⟨_, _, _, rfl, rfl, rfl, rfl, by
      simp [WritePath.stage, StagingPool.total_buffer_count, StagingPool.set_used_bytes,
        StagingPool.set_buf]⟩
  generalize ({ s.set_client 0 (.staged byteRequest buf) with
    staging := staging' } : WritePath 1 1).stage 0 byteRequest buf = t at *
  have hcheck : s.pool.next (.check 0 (.submit_write cl.dv_key token.toNat cl)) =
      some (s.pool.set_client 0 (.checked (.submit_write cl.dv_key token.toNat cl))) := by
    simp [WorkerPool.next, hpc, h.shutdown]
  have hsubmit : t.next (.submit 0) = some { t.set_client 0 (.submitting token cl) with
      pool := s.pool.set_client 0 (.checked (.submit_write cl.dv_key token.toNat cl)) } := by
    simp [next, client_of, client_step, htc, submit_step, hpool, hcheck, WorkerPool.set_client]
  refine ⟨_, token, cl, hr.step hsubmit, ?_, rfl, hrej, htotal⟩
  simp [set_client]

/-- The queue has `k` writes and room for more, and the staging pool has more
    buffers than that. -/
structure Filled (backpressure : BackpressureConfig) (total k : Nat) (s : WritePath 1 1) : Prop
    extends s.Steady where
  config : s.pool.backpressure = backpressure
  queue : s.pool.write_queue.length = k
  rejected : s.rejected = []
  total : total ≤ s.staging.total_buffer_count

variable {backpressure : BackpressureConfig} {total k : Nat}

/-- One more write. -/
theorem Filled.succ {s : WritePath 1 1} (h : Filled backpressure total k s) (hk : k < total)
    (hroom : k < backpressure.queue_capacity) : ∃ t, Filled backpressure total (k + 1) t := by
  have hbuf : s.pool.write_queue.length < s.staging.total_buffer_count := by
    rw [h.queue]
    exact hk.trans_le h.total
  obtain ⟨staging', buf, hacq⟩ := h.toSteady.exists_acquire h.rejected hbuf 1
  have hgrown := StagingPool.total_le_acquire
    (inv_of_reachable Nat.one_pos h.reachable).balanced.owned.inv hacq
  obtain ⟨t, token, cl, hr, htc, hpool, hrej, htotal⟩ := h.toSteady.enter hacq
  have hphase : t.pool.clients 0 = .checked (.submit_write cl.dv_key token.toNat cl) := by
    simp [hpool, WorkerPool.set_client]
  have henabled : t.pool.backpressure.enabled = false := by rw [hpool]; exact h.enabled
  have hlt : ¬ t.pool.backpressure.queue_capacity ≤ t.pool.write_queue.length := by
    have hcap : t.pool.backpressure = backpressure := by rw [hpool]; exact h.config
    have hlen : t.pool.write_queue.length = k := by rw [hpool]; exact h.queue
    rw [hcap, hlen]
    omega
  have hnext : t.pool.next (.enter 0) =
      some (t.pool.enqueue_write 0 cl.dv_key token.toNat cl) := by
    simp [WorkerPool.next, hphase, WorkerPool.submit_write, henabled, hlt]
  have henter : t.next (.enter 0) = some
      { t.set_client 0 (.submitted token cl (t.pool.next_seq cl.dv_key)) with
        pool := t.pool.enqueue_write 0 cl.dv_key token.toNat cl } := by
    simp [next, client_of, client_step, htc, submit_step, hnext, WorkerPool.enqueue_write,
      WorkerPool.set_client, returned_seq, set_client]
  have hcount : ({ t.set_client 0 (.submitted token cl (t.pool.next_seq cl.dv_key)) with
      pool := t.pool.enqueue_write 0 cl.dv_key token.toNat cl } : WritePath 1 1).next (.count 0) =
      some (({ t.set_client 0 (.submitted token cl (t.pool.next_seq cl.dv_key)) with
        pool := t.pool.enqueue_write 0 cl.dv_key token.toNat cl } : WritePath 1 1).count 0 token cl
          (t.pool.next_seq cl.dv_key)) := by
    simp [next, client_of, client_step, set_client]
  refine ⟨_, ⟨(hr.step henter).step hcount, ⟨some (.ok token), ?_⟩,
    ⟨some (.ok (t.pool.next_seq cl.dv_key)), ?_⟩, ?_, ?_, ?_⟩, ?_, ?_, ?_, ?_⟩
  · simp [count, set_client, set_io, set_dataset]
  · simp [count, set_client, set_io, set_dataset, WorkerPool.enqueue_write, WorkerPool.set_client]
  · show t.pool.shutdown = false
    rw [hpool]
    exact h.shutdown
  · show t.pool.workers 0 = .idle
    rw [hpool]
    exact h.worker
  · exact henabled
  · show t.pool.backpressure = backpressure
    rw [hpool]
    exact h.config
  · show (t.pool.write_queue ++ [_]).length = k + 1
    rw [List.length_append, hpool]
    exact congrArg (· + 1) h.queue
  · exact hrej.trans h.rejected
  · show total ≤ t.staging.total_buffer_count
    rw [htotal]
    exact h.total.trans hgrown

theorem exists_filled {s : WritePath 1 1} (h : Filled backpressure total 0 s) (hk : k ≤ total)
    (hcap : k ≤ backpressure.queue_capacity) : ∃ t, Filled backpressure total k t := by
  induction k with
  | zero => exact ⟨s, h⟩
  | succ k ih =>
    obtain ⟨t, ht⟩ := ih (by omega) (by omega)
    exact ht.succ (by omega) (by omega)

theorem Filled.overflow {s : WritePath 1 1}
    (h : Filled backpressure total backpressure.queue_capacity s)
    (hk : backpressure.queue_capacity < total) :
    ∃ t token cl, (system 1 1).Reachable t ∧ t.clients 0 = .idle (some (.ok token)) ∧
      cl.io_rec ∈ t.returned ∧ cl ∈ t.rejected := by
  have hbuf : s.pool.write_queue.length < s.staging.total_buffer_count := by
    rw [h.queue]
    exact hk.trans_le h.total
  obtain ⟨staging', buf, hacq⟩ := h.toSteady.exists_acquire h.rejected hbuf 1
  obtain ⟨t, token, cl, hr, htc, hpool, hrej, htotal⟩ := h.toSteady.enter hacq
  have hphase : t.pool.clients 0 = .checked (.submit_write cl.dv_key token.toNat cl) := by
    simp [hpool, WorkerPool.set_client]
  have henabled : t.pool.backpressure.enabled = false := by rw [hpool]; exact h.enabled
  have hfull : t.pool.backpressure.queue_capacity ≤ t.pool.write_queue.length := by
    have hcap : t.pool.backpressure = backpressure := by rw [hpool]; exact h.config
    have hlen : t.pool.write_queue.length = backpressure.queue_capacity := by
      rw [hpool]
      exact h.queue
    rw [hcap, hlen]
  have hnext : t.pool.next (.enter 0) =
      some (t.pool.set_client 0 (.ready (some (.error .ERR_QUEUE_FULL)))) := by
    simp [WorkerPool.next, hphase, WorkerPool.submit_write, henabled, hfull]
  have henter : t.next (.enter 0) = some
      { t.set_client 0 (.submitted token cl 0) with
        pool := t.pool.set_client 0 (.ready (some (.error .ERR_QUEUE_FULL)))
        rejected := t.rejected ++ [cl] } := by
    simp [next, client_of, client_step, htc, submit_step, hnext, WorkerPool.set_client,
      returned_seq, set_client]
  have hcount : ({ t.set_client 0 (.submitted token cl 0) with
      pool := t.pool.set_client 0 (.ready (some (.error .ERR_QUEUE_FULL)))
      rejected := t.rejected ++ [cl] } : WritePath 1 1).next (.count 0) =
      some (({ t.set_client 0 (.submitted token cl 0) with
        pool := t.pool.set_client 0 (.ready (some (.error .ERR_QUEUE_FULL)))
        rejected := t.rejected ++ [cl] } : WritePath 1 1).count 0 token cl 0) := by
    simp [next, client_of, client_step, set_client]
  refine ⟨_, token, cl, (hr.step henter).step hcount, ?_, ?_, ?_⟩
  · simp [count, set_client, set_io, set_dataset]
  · exact List.mem_append_right _ List.mem_cons_self
  · exact List.mem_append_right _ List.mem_cons_self

theorem rejected_for_good (hn : 0 < n) (hr : (system m n).Reachable s) {cl : WriteClosure}
    (hcl : cl ∈ s.rejected) {ls : List (WriteLabel m n)} (hs : (system m n).Steps s ls s') :
    (s'.driver_writes.map (·.io_rec)).count cl.io_rec = 0 ∧ s'.released.count cl.io_rec = 0 ∧
      0 < (s'.staging.buf cl.buf).ref_count := by
  have hcl' : cl ∈ s'.rejected := by
    refine hs.stable (P := fun s => cl ∈ s.rejected) (fun t l t' ht hmem hstep => ?_) hr hcl
    rcases (inv_of_reachable hn ht).rejected_step hstep with hsame | ⟨-, cl', hmore⟩
    · rw [hsame]
      exact hmem
    · rw [hmore]
      exact List.mem_append_left _ hmem
  exact (inv_of_reachable hn (hs.reachable hr)).balanced.rejected_never hcl'

/-- A staging pool with more buffers than the queue has places. -/
def roomyStaging : StagingConfig :=
  { buffer_count := 1025, buffer_capacity := 64, max_buffer_count := 4096, mode := .Grow
    count_pos := by decide, capacity_pos := by decide, capacity_le := by decide
    count_le := by decide, max_le := by decide }

/-- The pool that is made of it. -/
def roomyPool : StagingPool where
  buffers := List.replicate roomyStaging.buffer_count {}
  free_list := List.range roomyStaging.buffer_count
  max_buffer_count := roomyStaging.max_buffer_count
  buffer_capacity := roomyStaging.buffer_capacity
  grow_mode := roomyStaging.mode
  allocations := 0

theorem write_dropped : ∃ (s : WritePath 1 1) (token : Token) (cl : WriteClosure),
    (system 1 1).Reachable s ∧ s.clients 0 = .idle (some (.ok token)) ∧
      cl.io_rec ∈ s.returned ∧
      ∀ ls s', (system 1 1).Steps s ls s' →
        (s'.driver_writes.map (·.io_rec)).count cl.io_rec = 0 ∧
        s'.released.count cl.io_rec = 0 ∧ 0 < (s'.staging.buf cl.buf).ref_count := by
  have hinit : PoolInit roomyStaging roomyPool := by
    refine ⟨rfl, ?_, rfl, rfl, rfl⟩
    rw [roomyPool]
  have hstart : Filled {} 1025 0 (make roomyPool {} : WritePath 1 1) :=
    { reachable := .init ⟨_, _, _, hinit, rfl⟩
      client := ⟨_, rfl⟩, pool_client := ⟨_, rfl⟩, shutdown := rfl, worker := rfl, enabled := rfl
      config := rfl, queue := rfl, rejected := rfl
      total := by
        rw [make, StagingPool.total_buffer_count, roomyPool, List.length_replicate]
        exact le_rfl }
  obtain ⟨t, ht⟩ := exists_filled (k := 1024) hstart (by norm_num) le_rfl
  obtain ⟨s, token, cl, hr, hclient, hret, hcl⟩ := ht.overflow (by norm_num)
  exact ⟨s, token, cl, hr, hclient, hret, fun ls s' hs =>
    rejected_for_good Nat.one_pos hr hcl hs⟩

end WritePath

end Amio
