import Helm.Amio.WorkerPool

/-! # Worker_Pool: shutdown

  A worker leaves its loop when it finds the shutdown flag set and both
  queues empty, and `shutdown` returns when all workers have left. A write
  is lost when it is queued after that. `submit_write` reads the flag before
  it takes the lock; with backpressure it reads the flag once more under the
  lock, without backpressure it does not.

  So the question is who is there when a write is queued. If a worker is
  still in its loop, it will not leave before the write has been taken.
-/

namespace Amio

namespace WorkerPool

open scoped List
open Holders (held)

variable {Cb : Type} {n : Nat} {s s' : WorkerPool Cb n} {l : WorkerLabel Cb n}

/-- Does the step put a write into the queue? -/
def accepts (s : WorkerPool Cb n) : WorkerLabel Cb n → Bool
  | .enter c =>
    match s.clients c with
    | .checked (.submit_write _ _ _) =>
      if s.backpressure.enabled then
        !s.shutdown && (s.write_queue.length < s.backpressure.high_watermark ||
          s.write_queue.length < s.backpressure.low_watermark)
      else s.write_queue.length < s.backpressure.queue_capacity
    | _ => false
  | .resume c =>
    match s.clients c with
    | .waiting _ _ _ => !s.shutdown
    | _ => false
  | _ => false

theorem submit_write_submitted {c : Nat} {dv_key : DatasetVariableKey} {handle_id : Nat}
    {callback : Cb} (hcall : s.clients c = .checked (.submit_write dv_key handle_id callback))
    (h : s.accepts (.enter c) = false) :
    (s.submit_write c dv_key handle_id callback).submitted = s.submitted := by
  simp only [accepts, hcall] at h
  unfold submit_write
  by_cases hbp : s.backpressure.enabled = true
  · rw [if_pos hbp]
    split
    · rfl
    · next hwait =>
      unfold admit_write
      split
      · rfl
      · next hs =>
        simp only [hbp, if_true, Bool.and_eq_false_iff, Bool.not_eq_false', Bool.or_eq_false_iff,
          decide_eq_false_iff_not] at h
        rcases h with hshutdown | ⟨hhigh, hlow⟩
        · exact absurd hshutdown hs
        · exact absurd ⟨not_lt.mp hhigh, fun hor => hor.elim hlow hs⟩ hwait
  · rw [if_neg hbp]
    simp only [hbp, Bool.false_eq_true, if_false, decide_eq_false_iff_not, not_lt] at h
    rw [if_pos h]
    rfl

theorem submitted_of_not_accepts (h : s.next l = some s') (hacc : s.accepts l = false) :
    s'.submitted = s.submitted := by
  cases l with
  | enter c =>
    simp only [next] at h
    split at h
    · next hcall =>
      cases h
      exact submit_write_submitted hcall hacc
    · cases h
      rfl
    · cases h
  | resume c =>
    simp only [next] at h
    split at h
    · next hcall =>
      simp only [accepts, hcall, Bool.not_eq_false'] at hacc
      cases h
      rw [admit_write, if_pos hacc]
      rfl
    · cases h
  | check c call =>
    simp only [next] at h
    split at h
    · split at h
      · cases h
        rfl
      · cases h
        rfl
    · cases h
  | wake | finish | shutdown | join =>
    have heff := next_effect h
    cases heff with
    | accept c _ _ _ hl => simp [client_of] at hl
    | _ => rfl

/-- When every worker has left its loop, no write is queued. -/
def Drained (s : WorkerPool Cb n) : Prop := (∀ w, s.workers w = .exited) → s.write_queue = []

/-- A step that finds a worker at work when it accepts a write. -/
def Attended (s : WorkerPool Cb n) (l : WorkerLabel Cb n) : Prop :=
  s.accepts l = true → ∃ w, s.workers w ≠ .exited

instance [DecidableEq Cb] (s : WorkerPool Cb n) (l : WorkerLabel Cb n) : Decidable (s.Attended l) :=
  inferInstanceAs (Decidable (_ → _))

/-- **Step lemma.** -/
theorem Drained.step (h : s.Drained) (hok : s.Attended l) (hstep : s.next l = some s') :
    s'.Drained := by
  have heff := next_effect hstep
  -- a worker that has just moved elsewhere is still in its loop
  have hmoved : ∀ (w : Fin n) (phase : WorkerPhase Cb), phase ≠ .exited →
      ∀ {t : WorkerPool Cb n}, t.workers = Function.update s.workers w phase → t.Drained := by
    intro w phase hphase t ht hall
    have := hall w
    rw [ht, Function.update_self] at this
    exact absurd this hphase
  cases heff with
  | client | schedule | shutdown | join => exact h
  | accept c dv_key handle_id callback =>
    intro hall
    have hacc : s.accepts l = true := by
      by_contra hno
      have := submitted_of_not_accepts hstep (by simpa using hno)
      simp [enqueue_write] at this
    obtain ⟨w, hw⟩ := hok hacc
    exact absurd (hall w) hw
  | exit w pick hidle hshutdown hempty => exact fun _ => hempty
  | pass w pick hidle =>
    intro hall
    have := hall w
    simp [hidle] at this
  | fetch w pick task => exact hmoved w (.prefetching task) (by simp) rfl
  | start w pick task => exact hmoved w (.writing task) (by simp) rfl
  | finish_write w exc task => exact hmoved w .idle (by simp) rfl
  | finish_prefetch w exc task => exact hmoved w .idle (by simp) rfl

/-- **Run lemma.** -/
theorem drained_of_reachable (hr : ((system Cb n).restrict Attended).Reachable s) : s.Drained := by
  refine hr.invariant (P := Drained) (fun t ht => ?_) fun t l t' _ h hstep => ?_
  · obtain ⟨backpressure, rfl⟩ := ht
    exact fun _ => rfl
  · obtain ⟨hok, hnext⟩ := hstep
    exact h.step hok hnext

/-- **No write is lost across shutdown**, in a run in which a worker is still in
    its loop whenever a write is accepted. -/
theorem executed_at_join (hr : ((system Cb n).restrict Attended).Reachable s)
    (hjoined : s.joined = true) : ∀ task ∈ s.submitted, task ∈ s.executed := by
  have h := inv_of_reachable hr.of_restrict
  have hexited := h.joined hjoined
  have hqueue := drained_of_reachable hr hexited
  intro task htask
  rcases h.mem_submitted.mp htask with hq | hrun | hexec
  · simp [hqueue] at hq
  · obtain ⟨w, hw⟩ := Holders.mem_held.mp hrun
    have := running_eq_some.mp hw
    simp [hexited w] at this
  · exact hexec

/-! ### Two runs

  One worker, no backpressure, two writes. In the first run shutdown comes
  after both writes. In the second it comes while the client of the second
  write is between its look at the flag and the lock. -/

/-- Submit the write `callback`. -/
def submitLabels (callback : Nat) : List (WorkerLabel Nat 1) :=
  [.check 0 (.submit_write ⟨1, 2⟩ 0 callback), .enter 0]

section
local instance last_worker : NeZero 1 := ⟨Nat.one_ne_zero⟩

/-- Both writes are executed before the worker leaves. -/
def orderlyLabels : List (WorkerLabel Nat 1) :=
  submitLabels 10 ++ submitLabels 20 ++ [.shutdown] ++
    [.wake 0 0, .finish 0 none, .wake 0 0, .finish 0 none, .wake 0 0, .join]

/-- The worker leaves before the second write is queued. -/
def lateLabels : List (WorkerLabel Nat 1) :=
  submitLabels 10 ++ [.wake 0 0, .finish 0 none, .check 0 (.submit_write ⟨1, 2⟩ 0 20)] ++
    [.shutdown, .wake 0 0, .enter 0, .join]

/-- One write, until the pool is drained. -/
def drainLabels : List (WorkerLabel Nat 1) := submitLabels 10 ++ [.wake 0 0, .finish 0 none]

end

theorem executed_at_join_orderly :
    ∃ s : WorkerPool Nat 1, ((system Nat 1).restrict Attended).Reachable s ∧ s.joined = true ∧
      s.submitted.length = 2 ∧ ∀ task ∈ s.submitted, task ∈ s.executed := by
  have hrun : ∃ s, LTS.System.exec (LTS.System.guarded next Attended) (make {}) orderlyLabels =
      some s ∧ s.joined = true ∧ s.submitted.length = 2 := ⟨_, rfl, rfl, rfl⟩
  obtain ⟨s, hexec, hjoined, hlen⟩ := hrun
  have hr : ((system Nat 1).restrict Attended).Reachable s :=
    LTS.System.restrict_reachable_of_exec ⟨{}, rfl⟩ hexec
  exact ⟨s, hr, hjoined, hlen, executed_at_join hr hjoined⟩

theorem write_lost_at_join :
    ∃ s : WorkerPool Nat 1, (system Nat 1).Reachable s ∧ s.joined = true ∧
      s.clients 0 = .ready (some (.ok 1)) ∧
      ∃ task ∈ s.submitted, task.dv_seq = 1 ∧ task ∉ s.executed := by
  have hrun : ∃ s, LTS.System.exec next (make {}) lateLabels = some s ∧ s.joined = true ∧
      s.clients 0 = .ready (some (.ok 1)) ∧
      s.submitted = [⟨⟨1, 2⟩, 0, 0, 10⟩, ⟨⟨1, 2⟩, 1, 0, 20⟩] ∧ s.executed = [⟨⟨1, 2⟩, 0, 0, 10⟩] :=
    ⟨_, rfl, rfl, rfl, rfl, rfl⟩
  obtain ⟨s, hexec, hjoined, hclient, hsub, hdone⟩ := hrun
  refine ⟨s, LTS.System.reachable_of_exec ⟨{}, rfl⟩ hexec, hjoined, hclient,
    ⟨⟨1, 2⟩, 1, 0, 20⟩, by simp [hsub], rfl, ?_⟩
  rw [hdone]
  decide

/-! ### Drain -/

/-- **A drained pool has run everything.** Whenever the condition holds that
    `drain` waits for, the writes that have been submitted so far have all been
    run, each of them once, and those of one pair in the order of submission. -/
theorem executed_at_drain (hr : (system Cb n).Reachable s) (hdrained : s.drained = true) :
    s.executed ~ s.submitted ∧ ∀ key : DatasetVariableKey,
      s.executed.filter (·.dv_key = key) = s.submitted.filter (·.dv_key = key) := by
  have hi := inv_of_reachable hr
  have hperm := hi.executed_of_drained hdrained
  refine ⟨hperm, ?_⟩
  intro key
  -- a prefix of the same length
  have hordered := hi.submitted_seq.ordered_of_subset hi.executed_seq hperm.subset key
  exact hordered.eq_of_length (hperm.filter _).length_eq

theorem executed_at_drain_one : ∃ s : WorkerPool Nat 1, (system Nat 1).Reachable s ∧
    s.submitted.length = 1 ∧ s.executed ~ s.submitted := by
  have hrun : ∃ s, LTS.System.exec next (make {}) drainLabels = some s ∧ s.drained = true ∧
      s.submitted.length = 1 := ⟨_, rfl, rfl, rfl⟩
  obtain ⟨s, hexec, hdrained, hlen⟩ := hrun
  have hr : (system Nat 1).Reachable s := LTS.System.reachable_of_exec ⟨{}, rfl⟩ hexec
  exact ⟨s, hr, hlen, (executed_at_drain hr hdrained).1⟩

end WorkerPool

end Amio
