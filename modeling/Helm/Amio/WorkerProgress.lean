import Helm.Framework.Liveness
import Helm.Amio.WorkerPool

/-! # Worker_Pool: order and progress of writes

  Safety comes from the invariant of the pool: the writes of a pair start in
  the order in which they were accepted, one at a time, each at most once.

  Progress is about fair infinite runs, in which an idle worker looks for
  work again and again (every wait of `worker_loop` has a timeout) and a
  callback that has started ends, normally or by an exception.

  - A write that is ready moves towards the front with every worker that
    looks for work, and is started when it gets there (`ready_leads_to`).
  - A write that is not ready waits for the write of its pair that is; the
    distance between the two sequence numbers is the measure
    (`queued_leads_to`).
-/

namespace Amio

namespace WorkerPool

open LTS.System (Execution)
open Holders (held)

variable {Cb : Type} {n : Nat} {s s' : WorkerPool Cb n} {l : WorkerLabel Cb n}
  {task : WriteTask Cb} {w : Fin n}

/-! ## Section 1: What a step does to one write -/

/-- The write is queued and the next one of its pair. -/
def Ready (task : WriteTask Cb) (s : WorkerPool Cb n) : Prop :=
  task ∈ s.write_queue ∧ task.dv_seq = s.exec_seq task.dv_key

open scoped Classical in
/-- How many tasks are in front of the write in the queue. -/
noncomputable def position (task : WriteTask Cb) (s : WorkerPool Cb n) : ℕ :=
  s.write_queue.idxOf task

theorem Effect.worker_unchanged (h : Effect s l s') (hwake : ∀ pick, l ≠ .wake w pick)
    (hfinish : ∀ exc, l ≠ .finish w exc) : s'.workers w = s.workers w := by
  cases h with
  | client | accept | schedule | pass | shutdown | join => rfl
  | exit v pick | fetch v pick | start v pick =>
    have hne : w ≠ v := fun heq => hwake pick (heq ▸ rfl)
    exact Function.update_of_ne hne _ _
  | finish_write v exc | finish_prefetch v exc =>
    have hne : w ≠ v := fun heq => hfinish exc (heq ▸ rfl)
    exact Function.update_of_ne hne _ _

theorem Effect.idle_of_wake {pick : Nat} (h : Effect s (.wake w pick) s') :
    s.workers w = .idle := by
  cases h with
  | client c phase hl | accept c _ _ _ hl | schedule c _ hl => simp [client_of] at hl
  | exit _ _ hidle | pass _ _ hidle | fetch _ _ _ hidle | start _ _ _ _ hidle => exact hidle

theorem Effect.busy_of_finish {exc : Option Exc} (h : Effect s (.finish w exc) s') :
    (s.workers w).busy = some () := by
  cases h with
  | client c phase hl | accept c _ _ _ hl | schedule c _ hl => simp [client_of] at hl
  | finish_write _ _ _ hw | finish_prefetch _ _ _ hw => rw [hw, WorkerPhase.busy]

theorem Effect.idle_after_finish {exc : Option Exc} (h : Effect s (.finish w exc) s') :
    s'.workers w = .idle := by
  cases h with
  | client c phase hl | accept c _ _ _ hl | schedule c _ hl => simp [client_of] at hl
  | finish_write _ _ _ hw | finish_prefetch _ _ _ hw => exact Function.update_self ..

theorem Effect.live (h : Effect s l s') (hq : task ∈ s.write_queue)
    (hw : s.workers w ≠ .exited) : s'.workers w ≠ .exited := by
  cases h with
  | client | accept | schedule | pass | shutdown | join => exact hw
  | exit v pick hidle hshutdown hempty => simp [hempty] at hq
  | fetch v | start v | finish_write v | finish_prefetch v =>
    by_cases hwv : w = v
    · subst hwv
      simp [set_worker, WorkerPool.finish_write, WorkerPool.finish_prefetch]
    · simpa [set_worker, WorkerPool.finish_write, WorkerPool.finish_prefetch,
        Function.update_of_ne hwv] using hw

theorem Effect.running (h : Effect s l s') (hw : s.workers w = .writing task) :
    s'.workers w = .writing task ∧ (∀ exc, l ≠ .finish w exc) ∨ task ∈ s'.executed := by
  by_cases hfinish : ∃ exc, l = .finish w exc
  · obtain ⟨exc, rfl⟩ := hfinish
    cases h with
    | client c phase hl | accept c _ _ _ hl | schedule c _ hl => simp [client_of] at hl
    | finish_write _ _ task' hw' =>
      obtain rfl : task = task' := by simpa [hw] using hw'
      exact .inr (by simp [WorkerPool.finish_write])
    | finish_prefetch _ _ task' hw' => simp [hw] at hw'
  · push Not at hfinish
    refine .inl ⟨?_, hfinish⟩
    rw [← hw]
    refine h.worker_unchanged (fun pick hl => ?_) hfinish
    subst hl
    simpa [hw] using h.idle_of_wake

theorem idxOf_lt_of_front {α : Type*} [DecidableEq α] {a front : α} {rest : List α} (extra : List α)
    (hne : a ≠ front) (ha : a ∈ front :: rest) :
    a ∈ rest ++ extra ∧ (rest ++ extra).idxOf a < (front :: rest).idxOf a := by
  have hrest : a ∈ rest := (List.mem_cons.mp ha).resolve_left hne
  refine ⟨List.mem_append_left _ hrest, ?_⟩
  rw [List.idxOf_append_of_mem hrest, List.idxOf_cons_ne _ (Ne.symm hne)]
  exact Nat.lt_succ_self _

/-- **A worker that looks for work** starts the ready write or brings it closer
    to the front. -/
theorem Effect.wake_ready {pick : Nat} (h : Effect s (.wake w pick) s') (hr : Ready task s) :
    task ∈ held s'.running ∨ Ready task s' ∧ position task s' < position task s := by
  classical
  obtain ⟨hq, hseq⟩ := hr
  -- a front that is not ready is another task and goes to the end
  have hrotate : (∀ t ∈ s.write_queue.head?, t.dv_seq ≠ s.exec_seq t.dv_key) →
      task ∈ s.write_queue.rotate 1 ∧
        (s.write_queue.rotate 1).idxOf task < s.write_queue.idxOf task := by
    intro hfront
    cases hqueue : s.write_queue with
    | nil => simp [hqueue] at hq
    | cons front rest =>
      rw [hqueue] at hq hfront
      have hne : task ≠ front := fun heq => hfront front rfl (heq ▸ hseq)
      simpa using idxOf_lt_of_front [front] hne hq
  cases h with
  | client c phase hl | accept c _ _ _ hl | schedule c _ hl => simp [client_of] at hl
  | exit _ _ hidle hshutdown hempty => simp [hempty] at hq
  | pass _ _ hidle hfront =>
    obtain ⟨hmem, hlt⟩ := hrotate hfront
    exact .inr ⟨⟨hmem, hseq⟩, by simpa [position] using hlt⟩
  | fetch _ _ t hidle hfront =>
    obtain ⟨hmem, hlt⟩ := hrotate hfront
    exact .inr ⟨⟨hmem, hseq⟩, by simpa [position] using hlt⟩
  | start _ _ t rest hidle hqueue =>
    by_cases htask : task = t
    · subst htask
      refine .inl (Holders.mem_held.mpr ⟨w, running_eq_some.mpr ?_⟩)
      simp [set_worker]
    · rw [hqueue] at hq
      obtain ⟨hmem, hlt⟩ := idxOf_lt_of_front [] htask hq
      rw [List.append_nil] at hmem hlt
      exact .inr ⟨⟨hmem, hseq⟩, by simpa [position, hqueue] using hlt⟩

/-- **Any other step** leaves the ready write where it is. -/
theorem Effect.other_ready (h : Effect s l s') (hinv : s.Inv) (hl : ∀ w pick, l ≠ .wake w pick)
    (hr : Ready task s) : Ready task s' ∧ position task s' = position task s := by
  classical
  obtain ⟨hq, hseq⟩ := hr
  cases h with
  | exit v pick | pass v pick | fetch v pick | start v pick => exact absurd rfl (hl v pick)
  | client | schedule | shutdown | join | finish_prefetch => exact ⟨⟨hq, hseq⟩, rfl⟩
  | accept c dv_key handle_id callback =>
    exact ⟨⟨List.mem_append_left _ hq, hseq⟩, List.idxOf_append_of_mem hq⟩
  | finish_write v exc other hv =>
    refine ⟨⟨hq, ?_⟩, rfl⟩
    -- the write that ends is of another pair
    have hzero := List.countP_eq_zero.mp (hinv.running_of_eq_zero hq hseq) other
      (Holders.mem_held.mpr ⟨v, running_eq_some.mpr hv⟩)
    have hne : task.dv_key ≠ other.dv_key := fun heq => hzero (by simp [heq])
    change _ = Function.update s.exec_seq other.dv_key _ task.dv_key
    rw [Function.update_of_ne hne, hseq]

/-- The write is on its way: queued with worker `w` at work, running, or
    executed. -/
def Tracked (task : WriteTask Cb) (w : Fin n) (s : WorkerPool Cb n) : Prop :=
  (task ∈ s.write_queue ∧ s.workers w ≠ .exited) ∨ task ∈ held s.running ∨ task ∈ s.executed

theorem Effect.executed_subset (h : Effect s l s') : s.executed ⊆ s'.executed := by
  cases h with
  | finish_write v exc other hv => exact List.subset_append_left _ _
  | _ => exact List.Subset.refl _

theorem Effect.submitted_subset (h : Effect s l s') : s.submitted ⊆ s'.submitted := by
  cases h with
  | accept => exact List.subset_append_left _ _
  | _ => exact List.Subset.refl _

theorem Effect.queued (h : Effect s l s') (hq : task ∈ s.write_queue) :
    task ∈ s'.write_queue ∨ task ∈ held s'.running := by
  cases h with
  | client | schedule | shutdown | join | finish_prefetch | finish_write | exit => exact .inl hq
  | accept => exact .inl (List.mem_append_left _ hq)
  | pass | fetch => exact .inl (List.mem_rotate.mpr hq)
  | start v pick t rest hidle hqueue =>
    rw [hqueue, List.mem_cons] at hq
    rcases hq with rfl | hrest
    · refine .inr (Holders.mem_held.mpr ⟨v, running_eq_some.mpr ?_⟩)
      simp [set_worker]
    · exact .inl hrest

theorem Effect.tracked (h : Effect s l s') (ht : Tracked task w s) : Tracked task w s' := by
  rcases ht with ⟨hq, hw⟩ | hrun | hexec
  · rcases h.queued hq with hq' | hrun'
    · exact .inl ⟨hq', h.live hq hw⟩
    · exact .inr (.inl hrun')
  · obtain ⟨v, hv⟩ := Holders.mem_held.mp hrun
    rcases h.running (running_eq_some.mp hv) with ⟨hv', -⟩ | hexec
    · exact .inr (.inl (Holders.mem_held.mpr ⟨v, running_eq_some.mpr hv'⟩))
    · exact .inr (.inr hexec)
  · exact .inr (.inr (h.executed_subset hexec))

/-! ## Section 2: Progress -/

/-- **Fairness.** An idle worker looks for work again, and a callback that has
    started ends. -/
structure Fair (e : (system Cb n).Execution) : Prop where
  wakes : ∀ i w, (e.state i).workers w = .idle → ∃ j, i ≤ j ∧ ∃ pick, e.label j = .wake w pick
  finishes : ∀ i w, ((e.state i).workers w).busy = some () →
    ∃ j, i ≤ j ∧ ∃ exc, e.label j = .finish w exc

section Progress

variable {e : (system Cb n).Execution}

theorem effect_at (e : (system Cb n).Execution) (i : ℕ) :
    Effect (e.state i) (e.label i) (e.state (i + 1)) :=
  next_effect (e.step i)

theorem inv_at (e : (system Cb n).Execution) (i : ℕ) : (e.state i).Inv :=
  inv_of_reachable (e.reachable i)

theorem running_leads_to (hfair : Fair e) :
    e.LeadsTo (fun s => task ∈ held s.running) fun s => task ∈ s.executed := by
  intro i hrun
  obtain ⟨w, hw⟩ := Holders.mem_held.mp hrun
  have key : e.LeadsTo (fun s => s.workers w = .writing task) fun s => task ∈ s.executed := by
    refine Execution.leads_to_of_helpful (fun l => ∃ exc, l = .finish w exc) ?_ ?_ ?_
    · intro i hw
      exact ((effect_at e i).running hw).imp (fun h => h.1) id
    · rintro i hw ⟨exc, hl⟩
      exact ((effect_at e i).running hw).resolve_left fun h => h.2 exc hl
    · exact fun i hw => hfair.finishes i w (by rw [hw, WorkerPhase.busy])
  exact key i (running_eq_some.mp hw)

theorem ready_step (i : ℕ) (hr : Ready task (e.state i)) (hw : (e.state i).workers w ≠ .exited) :
    task ∈ held (e.state (i + 1)).running ∨
      (Ready task (e.state (i + 1)) ∧ (e.state (i + 1)).workers w ≠ .exited) ∧
        (position task (e.state (i + 1)) < position task (e.state i) ∨
          position task (e.state (i + 1)) = position task (e.state i) ∧
            ∀ v pick, e.label i ≠ .wake v pick) := by
  have heff := effect_at e i
  have hlive := heff.live hr.1 hw
  by_cases hwake : ∃ v pick, e.label i = .wake v pick
  · obtain ⟨v, pick, hl⟩ := hwake
    rw [hl] at heff
    exact (heff.wake_ready hr).imp id fun h => ⟨⟨h.1, hlive⟩, .inl h.2⟩
  · push Not at hwake
    obtain ⟨hr', hpos⟩ := heff.other_ready (inv_at e i) hwake hr
    exact .inr ⟨⟨hr', hlive⟩, .inr ⟨hpos, hwake⟩⟩

/-- A ready write is started, as long as there is a worker. -/
theorem ready_leads_to (hfair : Fair e) :
    e.LeadsTo (fun s => Ready task s ∧ s.workers w ≠ .exited) fun s => task ∈ held s.running := by
  refine Execution.leads_to_of_measure (position task) fun m => ?_
  -- an idle worker takes the front of the queue
  have hidle : e.LeadsTo (fun s => (Ready task s ∧ s.workers w = .idle) ∧ position task s = m)
      fun s => task ∈ held s.running ∨
        (Ready task s ∧ s.workers w ≠ .exited) ∧ position task s < m := by
    refine Execution.leads_to_of_helpful (fun l => ∃ v pick, l = .wake v pick) ?_ ?_ ?_
    · rintro i ⟨⟨hr, hw⟩, hm⟩
      rcases ready_step i hr (w := w) (by simp [hw]) with hrun | ⟨hr', hlt | ⟨heq, hl⟩⟩
      · exact .inr (.inl hrun)
      · exact .inr (.inr ⟨hr', hm ▸ hlt⟩)
      · refine .inl ⟨⟨hr'.1, ?_⟩, heq.trans hm⟩
        rw [← hw]
        refine (effect_at e i).worker_unchanged (hl w) fun exc hfinish => ?_
        have hb : ((e.state i).workers w).busy = some () :=
          (hfinish ▸ effect_at e i).busy_of_finish
        simp [hw] at hb
    · rintro i ⟨⟨hr, hw⟩, hm⟩ ⟨v, pick, hl⟩
      rcases ready_step i hr (w := w) (by simp [hw]) with hrun | ⟨hr', hlt | ⟨-, hno⟩⟩
      · exact .inl hrun
      · exact .inr ⟨hr', hm ▸ hlt⟩
      · exact absurd hl (hno v pick)
    · rintro i ⟨⟨-, hw⟩, -⟩
      obtain ⟨j, hij, pick, hl⟩ := hfair.wakes i w hw
      exact ⟨j, hij, w, pick, hl⟩
  -- a busy worker becomes idle first
  have hbusy : e.LeadsTo
      (fun s => (Ready task s ∧ (s.workers w).busy = some ()) ∧ position task s = m)
      fun s => (task ∈ held s.running ∨
        (Ready task s ∧ s.workers w ≠ .exited) ∧ position task s < m) ∨
        (Ready task s ∧ s.workers w = .idle) ∧ position task s = m := by
    have hlive : ∀ i, ((e.state i).workers w).busy = some () →
        (e.state i).workers w ≠ .exited := fun i hb hx => by simp [hx] at hb
    refine Execution.leads_to_of_helpful (fun l => ∃ exc, l = .finish w exc) ?_ ?_ ?_
    · rintro i ⟨⟨hr, hb⟩, hm⟩
      rcases ready_step i hr (hlive i hb) with hrun | ⟨hr', hlt | ⟨heq, hl⟩⟩
      · exact .inr (.inl (.inl hrun))
      · exact .inr (.inl (.inr ⟨hr', hm ▸ hlt⟩))
      · by_cases hfinish : ∃ exc, e.label i = .finish w exc
        · obtain ⟨exc, hl⟩ := hfinish
          exact .inr (.inr ⟨⟨hr'.1, (hl ▸ effect_at e i).idle_after_finish⟩, heq.trans hm⟩)
        · push Not at hfinish
          refine .inl ⟨⟨hr'.1, ?_⟩, heq.trans hm⟩
          rw [(effect_at e i).worker_unchanged (hl w) hfinish, hb]
    · rintro i ⟨⟨hr, hb⟩, hm⟩ ⟨exc, hl⟩
      rcases ready_step i hr (hlive i hb) with hrun | ⟨hr', hlt | ⟨heq, -⟩⟩
      · exact .inl (.inl hrun)
      · exact .inl (.inr ⟨hr', hm ▸ hlt⟩)
      · exact .inr ⟨⟨hr'.1, (hl ▸ effect_at e i).idle_after_finish⟩, heq.trans hm⟩
    · exact fun i h => hfair.finishes i w h.1.2
  rintro i ⟨⟨hr, hw⟩, hm⟩
  cases hphase : (e.state i).workers w with
  | exited => exact absurd hphase hw
  | idle => exact hidle i ⟨⟨hr, hphase⟩, hm⟩
  | writing _ | prefetching _ =>
    obtain ⟨j, hij, hdone | hready⟩ := hbusy i ⟨⟨hr, by rw [hphase, WorkerPhase.busy]⟩, hm⟩
    · exact ⟨j, hij, hdone⟩
    · obtain ⟨k, hjk, hdone⟩ := hidle j hready
      exact ⟨k, hij.trans hjk, hdone⟩

theorem Inv.exec_seq_le (h : s.Inv) (hq : task ∈ s.write_queue) :
    s.exec_seq task.dv_key ≤ task.dv_seq := by
  by_contra hlt
  push Not at hlt
  obtain ⟨other, hother, hkey, hseq⟩ := h.executed_seq.exists_of_lt hlt
  have heq : other = task := h.submitted_seq.eq_of_number
    (h.mem_submitted.mpr (.inr (.inr hother))) (h.mem_submitted.mpr (.inl hq)) hkey hseq
  have hnd := h.nodup
  rw [List.map_append, List.nodup_append] at hnd
  exact hnd.2.2 _ (List.mem_map_of_mem hq) _
    (List.mem_map_of_mem (List.mem_append_right _ (heq ▸ hother))) rfl

theorem Inv.exists_next (h : s.Inv) (hq : task ∈ s.write_queue) :
    ∃ first, first.dv_key = task.dv_key ∧ first.dv_seq = s.exec_seq task.dv_key ∧
      (Ready first s ∨ first ∈ held s.running) := by
  have hlt : s.exec_seq task.dv_key < s.next_seq task.dv_key :=
    (h.exec_seq_le hq).trans_lt (h.submitted_seq.lt (h.mem_submitted.mpr (.inl hq)))
  obtain ⟨first, hfirst, hkey, hseq⟩ := h.submitted_seq.exists_of_lt hlt
  refine ⟨first, hkey, hseq, ?_⟩
  rcases h.mem_submitted.mp hfirst with hq' | hrun | hexec
  · exact .inl ⟨hq', hseq.trans (by rw [hkey])⟩
  · exact .inr hrun
  · have := h.executed_seq.lt hexec
    simp only [hseq, hkey, lt_self_iff_false] at this

theorem queued_leads_to (hfair : Fair e) :
    e.LeadsTo (fun s => task ∈ s.write_queue ∧ s.workers w ≠ .exited)
      fun s => task ∈ held s.running ∨ task ∈ s.executed := by
  refine Execution.leads_to_of_measure (fun s => task.dv_seq - s.exec_seq task.dv_key) fun m => ?_
  rintro i ⟨⟨hq, hw⟩, hm⟩
  obtain ⟨first, hkey, hseq, hfirst⟩ := (inv_at e i).exists_next hq
  have hexec : ∃ j, i ≤ j ∧ first ∈ (e.state j).executed := by
    rcases hfirst with hready | hrun
    · exact ((ready_leads_to hfair).trans (running_leads_to hfair)) i ⟨hready, hw⟩
    · exact running_leads_to hfair i hrun
  obtain ⟨j, hij, hexec⟩ := hexec
  have htracked : Tracked task w (e.state j) :=
    e.stable (P := Tracked task w) (fun k => (effect_at e k).tracked) hij (.inl ⟨hq, hw⟩)
  rcases htracked with ⟨hq', hw'⟩ | hdone
  · -- the pair has moved on
    have hlt : (e.state i).exec_seq task.dv_key < (e.state j).exec_seq task.dv_key := by
      have := (inv_at e j).executed_seq.lt hexec
      simpa only [hkey, hseq] using this
    have hle := (inv_at e j).exec_seq_le hq'
    exact ⟨j, hij, .inr ⟨⟨hq', hw'⟩, by omega⟩⟩
  · exact ⟨j, hij, .inl hdone⟩

/-- **Progress.** A queued write is executed, as long as there is a worker. -/
theorem queued_leads_to_executed (hfair : Fair e) :
    e.LeadsTo (fun s => task ∈ s.write_queue ∧ s.workers w ≠ .exited)
      fun s => task ∈ s.executed := by
  intro i hi
  obtain ⟨j, hij, hrun | hexec⟩ := queued_leads_to hfair i hi
  · obtain ⟨k, hjk, hexec⟩ := running_leads_to hfair j hrun
    exact ⟨k, hij.trans hjk, hexec⟩
  · exact ⟨j, hij, hexec⟩

end Progress

/-! ## Section 3: Order, exclusion, exactly once -/

namespace Inv

variable (h : s.Inv)

include h

theorem started_order (k : DatasetVariableKey) :
    s.started.filter (·.dv_key = k) <+: s.submitted.filter (·.dv_key = k) :=
  h.submitted_seq.ordered_of_subset h.started_seq h.started_sub k

theorem executed_order (k : DatasetVariableKey) :
    s.executed.filter (·.dv_key = k) <+: s.started.filter (·.dv_key = k) := by
  have hsub : s.executed ⊆ s.submitted := fun task ht => h.mem_submitted.mpr (.inr (.inr ht))
  have hexec : (s.executed.filter (·.dv_key = k)).length = s.exec_seq k := by
    simpa using congrArg List.length (h.executed_seq k)
  have hstart : (s.started.filter (·.dv_key = k)).length = s.exec_seq k + s.running_of k := by
    simpa using congrArg List.length (h.started_seq k)
  refine List.prefix_of_prefix_length_le (h.submitted_seq.ordered_of_subset h.executed_seq hsub k)
    (h.started_order k) ?_
  omega

theorem started_nodup : s.started.Nodup := h.started_seq.nodup.of_map _

end Inv

theorem finish_throw (s : WorkerPool Cb n) (w : Fin n) (exc : Exc) :
    ∃ outcomes, s.next (.finish w (some exc)) =
      (s.next (.finish w none)).map fun t => { t with outcomes } := by
  simp only [next]
  split
  · exact ⟨_, rfl⟩
  · exact ⟨_, rfl⟩
  · exact ⟨s.outcomes, rfl⟩

/-- **Ordered writes, exactly once.** Whatever the clients submit, however the
    threads interleave and whichever callbacks throw:

    - the writes of a pair start, and end, in the order of acceptance;
    - no two of them run at once;
    - no write runs twice, and an exception changes nothing but the outcome
      registry, so that it neither blocks nor reorders what follows;
    - in a fair run, a write that is queued before shutdown is executed. -/
theorem writes_ordered_exactly_once (Cb : Type) {n : Nat} (hn : 0 < n) :
    (∀ s, (system Cb n).Reachable s →
      (∀ k, s.started.filter (·.dv_key = k) <+: s.submitted.filter (·.dv_key = k)) ∧
      (∀ k, s.executed.filter (·.dv_key = k) <+: s.started.filter (·.dv_key = k)) ∧
      (∀ v w a b, s.workers v = .writing a → s.workers w = .writing b →
        a.dv_key = b.dv_key → v = w) ∧
      s.started.Nodup ∧
      ∀ w exc, ∃ outcomes, s.next (.finish w (some exc)) =
        (s.next (.finish w none)).map fun t => { t with outcomes }) ∧
    ∀ e : (system Cb n).Execution, Fair e → ∀ i task, (e.state i).shutdown = false →
      task ∈ (e.state i).write_queue → ∃ j, i ≤ j ∧ task ∈ (e.state j).executed := by
  constructor
  · intro s hr
    have h := inv_of_reachable hr
    exact ⟨h.started_order, h.executed_order,
      fun v w a b hv hw => h.exclusive (running_eq_some.mpr hv) (running_eq_some.mpr hw),
      h.started_nodup, finish_throw s⟩
  · intro e hfair i task hshutdown hq
    -- before shutdown no worker has left
    have hw : (e.state i).workers ⟨0, hn⟩ ≠ .exited := fun hx => by
      simp [(inv_at e i).exited _ hx] at hshutdown
    exact queued_leads_to_executed hfair i ⟨hq, hw⟩

/-! ### A fair run

  One worker; one write, whose callback throws. After that the worker keeps
  looking for work. -/

/-- The write of the run. -/
def soleWrite : WriteTask Unit := { dv_key := ⟨1, 2⟩, dv_seq := 0, handle_id := 7, callback := () }

section
local instance sole_worker : NeZero 1 := ⟨Nat.one_ne_zero⟩

/-- The labels of the run. -/
def soleLabel : ℕ → WorkerLabel Unit 1
  | 0 => .check 0 (.submit_write ⟨1, 2⟩ 7 ())
  | 1 => .enter 0
  | 3 => .finish 0 (some .other)
  | _ => .wake 0 0

/-- The states of the run. -/
def soleState : ℕ → WorkerPool Unit 1
  | 0 => make {}
  | 1 => (make {}).set_client 0 (.checked (.submit_write ⟨1, 2⟩ 7 ()))
  | 2 => (soleState 1).enqueue_write 0 ⟨1, 2⟩ 7 ()
  | 3 =>
    { (soleState 2).set_worker 0 (.writing soleWrite) with
      write_queue := []
      in_flight := 1
      started := [soleWrite] }
  | 4 => (soleState 3).finish_write 0 soleWrite (some .other)
  | i + 5 => soleState (i + 4)

end

theorem soleState_add (i : ℕ) : soleState (i + 4) = soleState 4 := by
  induction i with
  | zero => rfl
  | succ i ih => rw [← ih, soleState]

theorem soleState_step (i : ℕ) : (soleState i).next (soleLabel i) = some (soleState (i + 1)) := by
  match i with
  | 0 | 1 | 2 | 3 => rfl
  | i + 4 =>
    rw [show i + 4 + 1 = i + 1 + 4 by omega, soleState_add i, soleState_add (i + 1)]
    rfl

/-- The run. -/
def soleRun : (system Unit 1).Execution where
  state := soleState
  label := soleLabel
  init := ⟨{}, rfl⟩
  step := soleState_step

theorem soleRun_fair : Fair soleRun where
  wakes := fun i w _ => ⟨i + 4, by omega, 0, by rw [Subsingleton.elim w 0]; rfl⟩
  finishes := fun i w hb => by
    obtain rfl : w = 0 := Subsingleton.elim w 0
    match i with
    | 0 | 1 | 2 => cases hb
    | 3 => exact ⟨3, le_rfl, some .other, rfl⟩
    | i + 4 =>
      change ((soleState (i + 4)).workers 0).busy = some () at hb
      rw [soleState_add] at hb
      cases hb

theorem writes_ordered_exactly_once_sole :
    0 < 1 ∧ Fair soleRun ∧ (soleRun.state 2).shutdown = false ∧
      soleWrite ∈ (soleRun.state 2).write_queue ∧
      ∃ j, 2 ≤ j ∧ soleWrite ∈ (soleRun.state j).executed :=
  ⟨Nat.one_pos, soleRun_fair, rfl, List.mem_singleton.mpr rfl,
    (writes_ordered_exactly_once Unit Nat.one_pos).2 soleRun soleRun_fair 2 soleWrite rfl
      (List.mem_singleton.mpr rfl)⟩

end WorkerPool

end Amio
