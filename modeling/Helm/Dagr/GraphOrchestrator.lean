import Helm.Dagr.Orchestrator

/-! # GraphOrchestrator: the calls of its owner

  The owner of an orchestrator does not fire single steps of the loop. It
  calls `run`, `advance_step`, `shutdown`, `yield_ranks` and
  `reclaim_ranks`, and the first three drive the loop by whole cycles. This
  module has these calls as functions; every one of them is a run of the
  transition system of the orchestrator, so what holds of all
  interleavings holds of them.

  The first result is about `run`. The completion callback it installs
  reports nothing, ever, so a node that is dispatched stays running and the
  loop of `run` ends only if there is no node to wait for.
-/

namespace Dagr

open LTS

variable {n : Nat}

/-! ## Section 1: Model -/

/-- What the two callbacks do during one call of `cycle`. -/
structure Callbacks (n : Nat) where
  dispatch_cb : Fin n → OrdSet Int → DispatchResult
  /-- The return value of the completion callback. -/
  completions : List (Nat × Bool)

namespace OrchState

/-- `event_loop.cycle()`. -/
def cycle (cb : Callbacks n) (o : OrchState n) : OrchState n × Except String Bool :=
  let res := o.loop.cycle cb.dispatch_cb cb.completions
  ({ o with run :=
      { o.run with
        loop := res.1
        dispatched := o.run.dispatched ++ o.loop.cycle_trace cb.dispatch_cb } }, res.2)

/-- The pair of calls that `run`, `advance_step` and `shutdown` repeat: a cycle
    and then `process_deferred_reclamation`, which an exception skips. -/
def turn (cb : Callbacks n) (o : OrchState n) : OrchState n × Except String Bool :=
  match o.cycle cb with
  | (o, .error msg) => (o, .error msg)
  | (o, .ok all_done) => (o.process_deferred_reclamation, .ok all_done)

/-- `has_failed_node`, with the first failed node. -/
def failed_node (o : OrchState n) : Option (TaskNode n) :=
  ((List.finRange n).map o.loop.nodes).find? fun node => node.status = .failed

/-- `failed_node_message`. -/
def failed_node_message (node : TaskNode n) : String :=
  "TaskNode '" ++ node.name ++ "' (id=" ++ toString (node.id : Nat) ++ ") failed during execution"

end OrchState

namespace GraphOrchestrator

/-- `advance_step`. -/
def advance_step (cb : Callbacks n) (o : OrchState n) : OrchState n × Except String Bool :=
  if o.shut_down then (o, .ok true) else o.turn cb

/-- The callbacks that `run` installs: the dispatch callback logs and reports
    success, the completion callback returns an empty vector. -/
def run_callbacks : Callbacks n where
  dispatch_cb := fun _ _ => .succeeded
  completions := []

/-- The loop of `run`, with the message of the exception that left it, if any.
    It is `none` while the loop still goes on after `fuel` iterations. -/
def run_loop (fuel : Nat) (o : OrchState n) : Option (OrchState n × Option String) :=
  if o.loop.all_complete then some (o, none)
  else
    match fuel with
    | 0 => none
    | fuel + 1 =>
      match o.turn run_callbacks with
      | (o, .error msg) => some (o, some msg)
      | (o, .ok _) => run_loop fuel o

/-- `run`: the state it leaves and whether it returns or throws. -/
def run (fuel : Nat) (o : OrchState n) : Option (OrchState n × Except String Unit) :=
  if o.shut_down then some (o, .ok ())
  else
    match run_loop fuel o with
    | none => none
    | some (o, some msg) => some (o, .error msg)
    | some (o, none) =>
      match o.failed_node with
      | some node => some (o, .error (OrchState.failed_node_message node))
      | none => some (o, .ok ())

/-- The drain loop of `shutdown`. `drained` lists what the callbacks do in the
    cycles for which the timeout leaves time. -/
def drain : List (Callbacks n) → OrchState n → OrchState n × Option String
  | [], o => if 0 < o.loop.in_flight then (o.force_cancel, none) else (o, none)
  | cb :: cbs, o =>
    if 0 < o.loop.in_flight then
      match o.turn cb with
      | (o, .error msg) => (o, some msg)
      | (o, .ok _) => drain cbs o
    else (o, none)

/-- `shutdown`. A second call does nothing. -/
def shutdown (cbs : List (Callbacks n)) (o : OrchState n) : OrchState n × Option String :=
  if o.shut_down then (o, none)
  else
    match drain cbs o with
    | (o, some msg) => (o, some msg)
    | (o, none) => ({ o with shut_down := true }, none)

end GraphOrchestrator

/-! ## Section 2: The calls are runs -/

section Runs

variable (init : OrchState n → Prop)

theorem loop_steps {init' : LoopState n → Prop} {s s' : LoopState n} {ls : List LoopLabel}
    (hs : (System.ofNext init' LoopState.next).Steps s ls s') (o : OrchState n) :
    (System.ofNext init OrchState.next).Steps { o with run := s } (ls.map .loop)
      { o with run := s' } := by
  induction hs with
  | nil s => exact .nil _
  | cons h _ ih =>
    refine .cons ?_ ih
    have hnext := (System.ofNext_step _ _ _ _ _).mp h
    show OrchState.next _ _ = _
    simp only [OrchState.next, hnext, Option.map_some]

theorem cycle_run (cb : Callbacks n) {o : OrchState n} (hidle : o.run.phase = .idle) :
    ∃ ls, (System.ofNext init OrchState.next).Steps o ls (o.cycle cb).1 := by
  obtain ⟨ls, hrun⟩ := LoopState.cycle_log (fun _ => True) cb.dispatch_cb cb.completions o.loop
    o.run.dispatched
  have hsteps := loop_steps init hrun o
  have hstart : ({ o with run := ⟨o.loop, .idle, o.run.dispatched⟩ } : OrchState n) = o := by
    rw [← hidle]; rfl
  rw [hstart, ← hidle] at hsteps
  exact ⟨_, hsteps⟩

@[simp] theorem cycle_phase (cb : Callbacks n) (o : OrchState n) :
    (o.cycle cb).1.run.phase = o.run.phase := rfl

@[simp] theorem cycle_shut_down (cb : Callbacks n) (o : OrchState n) :
    (o.cycle cb).1.shut_down = o.shut_down := rfl

theorem process_deferred_reclamation_eq (o : OrchState n) :
    ∃ pool d, o.process_deferred_reclamation = { o.with_pool pool with deferred_reclaim := d } := by
  unfold OrchState.process_deferred_reclamation
  split
  · exact ⟨o.loop.rank_pool, o.deferred_reclaim, rfl⟩
  · exact ⟨_, _, rfl⟩

theorem turn_fst (cb : Callbacks n) (o : OrchState n) :
    (o.turn cb).1 = (o.cycle cb).1 ∨
      (o.turn cb).1 = (o.cycle cb).1.process_deferred_reclamation := by
  unfold OrchState.turn
  rcases o.cycle cb with ⟨o', msg | all_done⟩
  · exact .inl rfl
  · exact .inr rfl

theorem turn_run (cb : Callbacks n) {o : OrchState n} (hidle : o.run.phase = .idle) :
    ∃ ls, (System.ofNext init OrchState.next).Steps o ls (o.turn cb).1 := by
  obtain ⟨ls, hrun⟩ := cycle_run init cb hidle
  rcases turn_fst cb o with heq | heq
  · exact ⟨ls, heq ▸ hrun⟩
  · have hprocess : (System.ofNext init OrchState.next).step (o.cycle cb).1
        .process_deferred_reclamation (o.cycle cb).1.process_deferred_reclamation := rfl
    rw [heq]
    exact ⟨_, hrun.append (.cons hprocess (.nil _))⟩

@[simp] theorem turn_phase (cb : Callbacks n) (o : OrchState n) :
    (o.turn cb).1.run.phase = o.run.phase := by
  rcases turn_fst cb o with heq | heq
  · rw [heq, cycle_phase]
  · obtain ⟨pool, d, hprocess⟩ := process_deferred_reclamation_eq (o.cycle cb).1
    rw [heq, hprocess]
    rfl

@[simp] theorem turn_shut_down (cb : Callbacks n) (o : OrchState n) :
    (o.turn cb).1.shut_down = o.shut_down := by
  rcases turn_fst cb o with heq | heq
  · rw [heq, cycle_shut_down]
  · obtain ⟨pool, d, hprocess⟩ := process_deferred_reclamation_eq (o.cycle cb).1
    rw [heq, hprocess]
    rfl

end Runs

/-! ## Section 3: The loop of run -/

namespace EventLoop

/-- A node that has not reached a terminal status. -/
def Open (s : EventLoop n) (v : Fin n) : Prop := is_terminal (s.status v) = false

theorem all_complete_iff (s : EventLoop n) : s.all_complete ↔ ∀ v, ¬ s.Open v := by
  simp [all_complete, Open]

theorem poll_ready_nodes_open {s : EventLoop n} {v : Fin n} (h : s.Open v) :
    s.poll_ready_nodes.Open v := by
  have hstatus := polled_status (s.nodes v)
  rw [Open, status, poll_ready_nodes_nodes]
  rcases hstatus with heq | ⟨-, -, hready⟩
  · rw [heq]; exact h
  · rw [hready]; rfl

theorem dispatch_loop_open {cb : Fin n → OrdSet Int → DispatchResult}
    (hcb : ∀ i ranks, cb i ranks = .succeeded) (fuel : Nat) {s : EventLoop n} {v : Fin n}
    (h : s.Open v) : (s.dispatch_loop cb fuel).1.Open v := by
  induction fuel generalizing s with
  | zero => exact h
  | succ fuel ih =>
    have hspec := dispatch_front_spec s
    rw [dispatch_loop]
    cases hfront : s.dispatch_front with
    | stop s' =>
      rw [hfront] at hspec
      rcases hspec with rfl | ⟨i, pool, ranks, -, -, rfl⟩
      · exact h
      · exact h
    | skipped s' =>
      rw [hfront] at hspec
      obtain ⟨rest, rfl⟩ := hspec
      exact ih h
    | called i s' =>
      rw [hfront] at hspec
      obtain ⟨-, rest, pool, ranks, -, -, rfl⟩ := hspec
      simp only [hcb]
      apply ih
      -- the node dispatched is running, the others are as before
      show is_terminal ((s.set_status i .running).status v) = false
      rw [set_status_status]
      split
      · rfl
      · exact h
    | threw msg => exact h

end EventLoop

namespace GraphOrchestrator

theorem turn_open {o : OrchState n} {v : Fin n} (h : o.loop.Open v) :
    (o.turn run_callbacks).1.loop.Open v := by
  have hcycle : (o.cycle run_callbacks).1.loop.Open v := by
    have hcb : ∀ i ranks, (run_callbacks (n := n)).dispatch_cb i ranks = .succeeded :=
      fun _ _ => rfl
    have hdispatch := EventLoop.dispatch_loop_open hcb (o.loop.poll_ready_nodes.ready_queue.length + 1)
      (EventLoop.poll_ready_nodes_open h)
    show (o.loop.cycle run_callbacks.dispatch_cb []).1.Open v
    unfold EventLoop.cycle EventLoop.dispatch_ready_nodes
    revert hdispatch
    rcases o.loop.poll_ready_nodes.dispatch_loop run_callbacks.dispatch_cb
      (o.loop.poll_ready_nodes.ready_queue.length + 1) with ⟨s, _ | msg⟩
    · exact id
    · exact id
  rcases turn_fst run_callbacks o with heq | heq
  · rw [heq]; exact hcycle
  · obtain ⟨pool, d, hprocess⟩ := process_deferred_reclamation_eq (o.cycle run_callbacks).1
    rw [heq, hprocess]
    exact hcycle

/-- **While a node is open, the loop goes on**, or an exception ends it with
    the node still open. -/
theorem run_loop_open (fuel : Nat) {o : OrchState n} {v : Fin n} (h : o.loop.Open v) :
    run_loop fuel o = none ∨ ∃ o' msg, run_loop fuel o = some (o', some msg) ∧ o'.loop.Open v := by
  have hnot : ¬ o.loop.all_complete := fun hall => o.loop.all_complete_iff.mp hall v h
  induction fuel generalizing o with
  | zero =>
    rw [run_loop, if_neg hnot]
    exact .inl rfl
  | succ fuel ih =>
    have hturn := turn_open h
    rw [run_loop, if_neg hnot]
    revert hturn
    rcases o.turn run_callbacks with ⟨o', msg | all_done⟩
    · intro hopen
      exact .inr ⟨o', msg, rfl, hopen⟩
    · intro hopen
      exact ih hopen fun hall => o'.loop.all_complete_iff.mp hall v hopen

/-- `run` comes to an end, with every node in a terminal status. -/
def RunFinishes (o : OrchState n) : Prop :=
  ∃ fuel o' res, run fuel o = some (o', res) ∧ ∀ v, is_terminal (o'.loop.status v)

theorem run_finishes_of_state (o : OrchState n) : RunFinishes o ↔ o.loop.all_complete := by
  constructor
  · rintro ⟨fuel, o', res, hrun, hdone⟩
    rw [EventLoop.all_complete_iff]
    intro v hopen
    unfold run at hrun
    split at hrun
    · -- a shut down orchestrator is left as it is
      cases hrun
      rw [EventLoop.Open, hdone v] at hopen
      cases hopen
    · rcases run_loop_open fuel hopen with hnone | ⟨o'', msg, hsome, hopen'⟩
      · rw [hnone] at hrun
        cases hrun
      · rw [hsome] at hrun
        cases hrun
        rw [EventLoop.Open, hdone v] at hopen'
        cases hopen'
  · intro hall
    have hdone : ∀ v, is_terminal (o.loop.status v) := by
      intro v
      have hv := o.loop.all_complete_iff.mp hall v
      rwa [EventLoop.Open, Bool.not_eq_false] at hv
    have hloop : run_loop 0 o = some (o, none) := by rw [run_loop, if_pos hall]
    unfold RunFinishes run
    by_cases hdown : o.shut_down = true
    · exact ⟨0, o, .ok (), by rw [if_pos hdown], hdone⟩
    · cases hfail : o.failed_node with
      | none => exact ⟨0, o, .ok (), by rw [if_neg hdown, hloop]; simp only [hfail], hdone⟩
      | some node =>
        exact ⟨0, o, .error (OrchState.failed_node_message node),
          by rw [if_neg hdown, hloop]; simp only [hfail], hdone⟩

variable {cfg : PipelineConfig}

theorem fresh_status {ranks : OrdSet Int} {o : OrchState cfg.num_tasks} (h : OrchInit cfg ranks o)
    (v : Fin cfg.num_tasks) : o.loop.status v = .pending := by
  obtain ⟨-, -, hloop⟩ := h.1.loop_eq
  rw [OrchState.loop, EventLoop.status, hloop]
  rfl

theorem fresh_all_complete_iff {ranks : OrdSet Int} {o : OrchState cfg.num_tasks}
    (h : OrchInit cfg ranks o) : o.loop.all_complete ↔ cfg.num_tasks = 0 := by
  rw [EventLoop.all_complete_iff]
  constructor
  · intro hnone
    by_contra hne
    apply hnone ⟨0, Nat.pos_of_ne_zero hne⟩
    rw [EventLoop.Open, fresh_status h]
    rfl
  · intro hzero v
    exact absurd v.isLt (by omega)

/-- **`run` finishes exactly on the empty pipeline.** On every orchestrator as
    its constructor leaves it, whatever the task graph and the ranks, `run`
    ends with every node in a terminal status if and only if there is no
    task. -/
theorem run_finishes_iff {ranks : OrdSet Int} {o : OrchState cfg.num_tasks}
    (h : OrchInit cfg ranks o) : RunFinishes o ↔ cfg.num_tasks = 0 :=
  (run_finishes_of_state o).trans (fresh_all_complete_iff h)

/-- The orchestrator of a pipeline on the ranks `{0, 1}`, as constructed. -/
def fresh (cfg : PipelineConfig) : OrchState cfg.num_tasks :=
  ⟨⟨⟨cfg.max_concurrency, cfg.populate_nodes, .make ranks₂, [], 0, fun _ => .empty⟩, .idle, []⟩,
    .empty, false⟩

theorem run_finishes_no_task : RunFinishes (fresh ⟨[], [], 4⟩) := by
  have hinit : OrchInit ⟨[], [], 4⟩ ranks₂ (fresh ⟨[], [], 4⟩) := ⟨⟨rfl, rfl, rfl⟩, rfl, rfl⟩
  exact (run_finishes_iff hinit).mpr rfl

theorem run_single_task : ¬ ∀ (cfg : PipelineConfig) (ranks : OrdSet Int)
    (o : OrchState cfg.num_tasks), cfg.Valid → 0 < ranks.size → OrchInit cfg ranks o →
    RunFinishes o := by
  intro h
  have hvalid : PipelineConfig.Valid ⟨["simulate"], [], 4⟩ :=
    PipelineConfig.valid_of_increasing (by decide)
  have hfin := h ⟨["simulate"], [], 4⟩ ranks₂ (fresh ⟨["simulate"], [], 4⟩) hvalid (by decide)
    ⟨⟨rfl, rfl, rfl⟩, rfl, rfl⟩
  rw [run_finishes_of_state] at hfin
  exact absurd hfin (by decide)

end GraphOrchestrator

end Dagr
