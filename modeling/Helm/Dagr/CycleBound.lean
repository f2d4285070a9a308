import Helm.Framework.Paths
import Helm.Dagr.DependencyOrder
import Helm.Dagr.Orchestrator

/-! # How many cycles a graph needs

  A graph whose ready nodes always find room is scheduled level by level.
  This module counts the calls of `cycle` until the last node has
  completed, for a dispatch callback that always succeeds and a completion
  callback that reports every running node.

  A cycle polls, dispatches and then asks for completions, in this order,
  so what the callback reports in one cycle makes its dependents ready in
  the next one. How many cycles a level takes depends on when the callback
  reports a node:

  * a node that is reported in the cycle that dispatched it completes
    there, and every level takes one cycle;
  * a node that is reported in the cycle after it was dispatched completes
    after the dispatch phase of that cycle, and every level takes two.
-/

namespace Dagr

open LTS PipelineConfig

variable {n : Nat}

/-! ## Section 1: Cycles without a bottleneck -/

/-- The dispatch callback that always succeeds. -/
def succeeding : Fin n → OrdSet Int → DispatchResult := fun _ _ => .succeeded

namespace EventLoop

/-- The ready nodes. -/
def ready_nodes (s : EventLoop n) : List (Fin n) :=
  (List.finRange n).filter fun v => s.status v = .ready

/-- The next cycle can run all its ready nodes at once: neither the
    concurrency nor the ranks hold one back. -/
def HasRoom (s : EventLoop n) : Prop :=
  s.in_flight + s.poll_ready_nodes.ready_nodes.length ≤ s.max_concurrency ∧
    (s.poll_ready_nodes.ready_nodes.map fun v => (s.nodes v).required_ranks).sum ≤
      s.rank_pool.available_ranks

instance (s : EventLoop n) : Decidable s.HasRoom := inferInstanceAs (Decidable (_ ∧ _))

/-- Exactly the running nodes are reported, as successful. -/
def ReportsRunning (s : EventLoop n) (completions : List (Nat × Bool)) : Prop :=
  ∀ c, c ∈ completions ↔ ∃ v : Fin n, s.status v = .running ∧ c = ((v : Nat), true)

/-- The state in which the next cycle calls the completion callback. -/
def at_completion (s : EventLoop n) : EventLoop n :=
  (s.poll_ready_nodes.dispatch_ready_nodes succeeding).1

end EventLoop

/-- Calls of `cycle` that have room for all ready nodes. The label is what the
    completion callback returned; it reports the nodes that run in the state
    `seen s`, when the call began in `s`. -/
def cycleSystem (cfg : PipelineConfig) (ranks : OrdSet Int)
    (seen : EventLoop cfg.num_tasks → EventLoop cfg.num_tasks) :
    System (EventLoop cfg.num_tasks) (List (Nat × Bool)) where
  init := fun s =>
    EventLoop.make cfg.max_concurrency cfg.populate_nodes (RankPool.make ranks) = .ok s
  step := fun s completions s' =>
    s.HasRoom ∧ (seen s).ReportsRunning completions ∧ s' = (s.cycle succeeding completions).1

/-- Every node is reported in the cycle after the one that dispatched it. -/
def nextCycle (cfg : PipelineConfig) (ranks : OrdSet Int) :
    System (EventLoop cfg.num_tasks) (List (Nat × Bool)) :=
  cycleSystem cfg ranks id

/-- Every node is reported in the cycle that dispatched it. -/
def sameCycle (cfg : PipelineConfig) (ranks : OrdSet Int) :
    System (EventLoop cfg.num_tasks) (List (Nat × Bool)) :=
  cycleSystem cfg ranks EventLoop.at_completion

/-! ## Section 2: The phases of a cycle -/

namespace EventLoop

/-- The poll would make this node ready. -/
def Startable (s : EventLoop n) (v : Fin n) : Prop :=
  s.status v = .pending ∧ (s.nodes v).pending_deps = 0

instance (s : EventLoop n) (v : Fin n) : Decidable (s.Startable v) :=
  inferInstanceAs (Decidable (_ ∧ _))

/-- The poll appends the nodes that it makes ready, in the order of their
    ids. -/
theorem poll_ready_nodes_queue {s : EventLoop n} (hid : ∀ v, (s.nodes v).id = v) :
    s.poll_ready_nodes.ready_queue =
      s.ready_queue ++ (List.finRange n).filter (fun v => s.Startable v) := by
  have key : ∀ (l : List (Fin n)) (s : EventLoop n), l.Nodup → (∀ v, (s.nodes v).id = v) →
      (l.foldl poll_node s).ready_queue = s.ready_queue ++ l.filter (fun v => s.Startable v) := by
    intro l
    induction l with
    | nil =>
      intro s _ _
      simp
    | cons i l ih =>
      intro s hnodup hid
      obtain ⟨hi, hl⟩ := List.nodup_cons.mp hnodup
      by_cases hstart : s.Startable i
      · have hpoll : s.poll_node i =
            { s.set_status i .ready with ready_queue := s.ready_queue ++ [(s.nodes i).id] } :=
          if_pos hstart
        -- node `i` does not come up again, and the others are as they were
        have hrest : l.filter (fun v => (s.poll_node i).Startable v) =
            l.filter (fun v => s.Startable v) := by
          apply List.filter_congr
          intro v hv
          have hne : v ≠ i := fun h => hi (h ▸ hv)
          have hnode : (s.poll_node i).nodes v = s.nodes v := by
            rw [hpoll]
            exact s.set_status_nodes_of_ne _ hne
          exact decide_eq_decide.mpr (by simp only [Startable, status, hnode])
        have hid' : ∀ v, ((s.poll_node i).nodes v).id = v := by
          intro v
          rw [hpoll]
          show ((s.set_status i .ready).nodes v).id = v
          have hshape := congrArg Prod.fst (set_status_shape s i .ready v)
          exact hshape.trans (hid v)
        rw [List.foldl_cons, ih _ hl hid', hrest, List.filter_cons_of_pos (by simpa using hstart),
          hpoll]
        show (s.ready_queue ++ [(s.nodes i).id]) ++ _ = _
        rw [hid, List.append_assoc, List.singleton_append]
      · have hpoll : s.poll_node i = s := if_neg hstart
        rw [List.foldl_cons, hpoll, ih s hl hid, List.filter_cons_of_neg (by simpa using hstart)]
  exact key (List.finRange n) s (List.nodup_finRange n) hid

theorem dispatch_front_called {s : EventLoop n} {i : Fin n} {rest : List (Fin n)}
    (hqueue : s.ready_queue = i :: rest) (hslot : s.in_flight < s.max_concurrency)
    (hready : s.status i = .ready) (hpool : s.rank_pool.Inv)
    (hneed : 0 < (s.nodes i).required_ranks)
    (hranks : (s.nodes i).required_ranks ≤ s.rank_pool.available) :
    ∃ pool ranks, pool.Inv ∧ pool.available = s.rank_pool.available - (s.nodes i).required_ranks ∧
      s.dispatch_front = .called i
        { s.set_status i .running with
          rank_pool := pool
          ready_queue := rest
          in_flight := Word.add 32 s.in_flight 1
          allocated_ranks := Function.update s.allocated_ranks i ranks } := by
  obtain ⟨pool, ranks, halloc, hsize, hinv, -⟩ := RankPool.try_allocate_of_le hpool hneed hranks
  have havail := RankPool.try_allocate_available hpool halloc (by omega)
  refine ⟨pool, ranks, hinv, by omega, ?_⟩
  unfold dispatch_front
  simp only [hqueue, not_le.mpr hslot, if_false, hready, ne_eq, not_true_eq_false, halloc]
  rw [if_neg (by omega)]

/-- **The dispatch phase** with room for everything in the queue: all nodes of
    the queue run. The induction is on the queue. -/
theorem dispatch_loop_all {fuel : Nat} {s : EventLoop n} (hmax : s.max_concurrency ≤ 1024)
    (hpool : s.rank_pool.Inv) (hneed : ∀ v, 0 < (s.nodes v).required_ranks)
    (hnodup : s.ready_queue.Nodup) (hready : ∀ v ∈ s.ready_queue, s.status v = .ready)
    (hslots : s.in_flight + s.ready_queue.length ≤ s.max_concurrency)
    (hranks : (s.ready_queue.map fun v => (s.nodes v).required_ranks).sum ≤ s.rank_pool.available)
    (hfuel : s.ready_queue.length < fuel) :
    ∃ t, s.dispatch_loop succeeding fuel = (t, none) ∧ t.ready_queue = [] ∧ t.rank_pool.Inv ∧
      t.max_concurrency = s.max_concurrency ∧
      ∀ v, t.nodes v =
        if v ∈ s.ready_queue then { s.nodes v with status := .running } else s.nodes v := by
  induction fuel generalizing s with
  | zero => omega
  | succ fuel ih =>
    rcases hqueue : s.ready_queue with _ | ⟨i, rest⟩
    · refine ⟨s, ?_, hqueue, hpool, rfl, fun v => by simp⟩
      simp only [dispatch_loop, dispatch_front, hqueue]
    · rw [hqueue] at hnodup hready hslots hranks hfuel
      obtain ⟨hi, hrest⟩ := List.nodup_cons.mp hnodup
      simp only [List.length_cons, List.map_cons, List.sum_cons] at hslots hranks hfuel
      obtain ⟨pool, ranks, hinv, havail, hfront⟩ := dispatch_front_called hqueue
        (by omega) (hready i List.mem_cons_self) hpool (hneed i) (by omega)
      set s₁ : EventLoop n :=
        { s.set_status i .running with
          rank_pool := pool
          ready_queue := rest
          in_flight := Word.add 32 s.in_flight 1
          allocated_ranks := Function.update s.allocated_ranks i ranks } with hs₁
      have hflight : s₁.in_flight = s.in_flight + 1 := Word.add_of_lt (by omega)
      -- the other nodes are as they were, and `i` keeps its demand
      have hother : ∀ v, v ≠ i → s₁.nodes v = s.nodes v := fun v hv =>
        s.set_status_nodes_of_ne .running hv
      have hself : s₁.nodes i = { s.nodes i with status := .running } := by
        simp [hs₁, set_status]
      have hdemand : ∀ v, (s₁.nodes v).required_ranks = (s.nodes v).required_ranks := by
        intro v
        by_cases hv : v = i
        · rw [hv, hself]
        · rw [hother v hv]
      obtain ⟨t, hloop, hempty, htpool, htmax, hnodes⟩ := ih (s := s₁) hmax hinv
        (fun v => hdemand v ▸ hneed v) hrest
        (fun v hv => by
          have hne : v ≠ i := fun h => hi (h ▸ hv)
          rw [status, hother v hne]
          exact hready v (List.mem_cons_of_mem _ hv))
        (by show s₁.in_flight + rest.length ≤ s.max_concurrency; omega)
        (by
          show (rest.map fun v => (s₁.nodes v).required_ranks).sum ≤ pool.available
          simp only [hdemand]
          omega)
        (by show rest.length < fuel; omega)
      refine ⟨t, ?_, hempty, htpool, htmax, ?_⟩
      · rw [dispatch_loop, hfront]
        exact hloop
      · intro v
        rw [hnodes v]
        show (if v ∈ rest then _ else _) = _
        by_cases hv : v = i
        · subst hv
          rw [if_neg hi, if_pos List.mem_cons_self, hself]
        · rw [hother v hv]
          simp [hv]

end EventLoop

/-! ## Section 3: One cycle -/

variable {cfg : PipelineConfig}

/-- The counters agree with the graph, and the pool with itself. -/
structure Counted (cfg : PipelineConfig) (s : EventLoop cfg.num_tasks) : Prop where
  concurrency : s.max_concurrency ≤ 1024
  pool : s.rank_pool.Inv
  shape : ∀ v, (s.nodes v).shape = (cfg.populate_nodes v).shape
  deps : ∀ v, (s.nodes v).pending_deps = cfg.open_edges s.status v % 2 ^ 32

/-- Between two cycles that had room, no node waits in the queue. -/
structure Settled (cfg : PipelineConfig) (s : EventLoop cfg.num_tasks) : Prop
    extends Counted cfg s where
  queue : s.ready_queue = []
  life : ∀ v, s.status v = .pending ∨ s.status v = .running ∨ s.status v = .completed

theorem Counted.id {s : EventLoop cfg.num_tasks} (h : Counted cfg s) (v : Fin cfg.num_tasks) :
    (s.nodes v).id = v :=
  congrArg (·.1) (h.shape v)

theorem Counted.required_ranks {s : EventLoop cfg.num_tasks} (h : Counted cfg s)
    (v : Fin cfg.num_tasks) : (s.nodes v).required_ranks = 1 :=
  congrArg (·.2.2.1) (h.shape v)

theorem Counted.dependents {s : EventLoop cfg.num_tasks} (h : Counted cfg s)
    (v : Fin cfg.num_tasks) : (s.nodes v).dependents = downstream cfg.edges v :=
  congrArg (·.2.2.2) (h.shape v)

theorem settled_init_status {ranks : OrdSet Int} {s : EventLoop cfg.num_tasks}
    (hinit : EventLoop.make cfg.max_concurrency cfg.populate_nodes (RankPool.make ranks) = .ok s)
    (v : Fin cfg.num_tasks) : s.status v = .pending := by
  have hstart : LoopInit cfg ranks ⟨s, .idle, []⟩ := ⟨hinit, rfl, rfl⟩
  obtain ⟨-, -, hs⟩ := hstart.loop_eq
  simp only at hs
  rw [hs]
  rfl

theorem settled_init (hv : cfg.Valid) {ranks : OrdSet Int} {s : EventLoop cfg.num_tasks}
    (hinit : EventLoop.make cfg.max_concurrency cfg.populate_nodes (RankPool.make ranks) = .ok s) :
    Settled cfg s := by
  have hstart : LoopInit cfg ranks ⟨s, .idle, []⟩ := ⟨hinit, rfl, rfl⟩
  have horder := order_inv_init hv hstart
  obtain ⟨-, hmax, hs⟩ := hstart.loop_eq
  simp only at hs
  have hpool : s.rank_pool.Inv := by
    rw [hs]
    exact RankPool.inv_make ranks
  refine ⟨⟨by rw [hs]; exact hmax, hpool, horder.shape, horder.deps⟩, by rw [hs], ?_⟩
  exact fun v => .inl (settled_init_status hinit v)

/-! ### The completion phase -/

theorem Counted.complete_node (hv : cfg.Valid) {s : EventLoop cfg.num_tasks} (h : Counted cfg s)
    {i : Fin cfg.num_tasks} (hrun : s.status i = .running) : Counted cfg (s.complete_node i) where
  concurrency := by
    show (EventLoop.release_allocated (s.set_status i .completed) i).max_concurrency ≤ 1024
    rw [EventLoop.release_allocated_max_concurrency]
    exact h.concurrency
  pool := release_allocated_pool_inv (s := s.set_status i .completed) h.pool i
  shape := by
    intro v
    rw [← h.shape v, EventLoop.complete_node_nodes]
    rfl
  deps := deps_complete hv (by simp [hrun]) (h.dependents i) h.deps

/-- **The completion phase**: the running nodes that are reported have
    completed, and nothing else changes its status. -/
theorem Counted.process_completions (hv : cfg.Valid) {completions : List (Nat × Bool)}
    (hsuccess : ∀ c ∈ completions, c.2 = true) {s : EventLoop cfg.num_tasks} (h : Counted cfg s) :
    Counted cfg (s.process_completions completions) ∧
      (s.process_completions completions).ready_queue = s.ready_queue ∧
      ∀ v, (s.process_completions completions).status v =
        if s.status v = .running ∧ ((v : Nat), true) ∈ completions then .completed
        else s.status v := by
  induction completions generalizing s with
  | nil =>
    refine ⟨h, rfl, ?_⟩
    intro v
    simp [EventLoop.process_completions]
  | cons c cs ih =>
    have hrest : ∀ c ∈ cs, c.2 = true := fun c hc => hsuccess c (List.mem_cons_of_mem _ hc)
    obtain ⟨id, success⟩ := c
    obtain rfl : success = true := hsuccess _ List.mem_cons_self
    show Counted cfg ((s.process_completion (id, true)).process_completions cs) ∧ _
    by_cases hrun : ∃ hlt : id < cfg.num_tasks, s.status ⟨id, hlt⟩ = .running
    · obtain ⟨hlt, hrun⟩ := hrun
      set i : Fin cfg.num_tasks := ⟨id, hlt⟩
      have hstep : s.process_completion (id, true) = s.complete_node i := by
        simp only [EventLoop.process_completion, dif_pos hlt]
        rw [if_neg (by simpa using hrun), if_pos trivial]
      obtain ⟨hcounted, hqueue, hstatus⟩ := ih hrest (h.complete_node hv hrun)
      show _ ∧ ((s.process_completion (id, true)).process_completions cs).ready_queue = _ ∧
        ∀ v, ((s.process_completion (id, true)).process_completions cs).status v = _
      rw [hstep]
      refine ⟨hcounted, hqueue.trans (by simp [EventLoop.complete_node]), ?_⟩
      intro v
      rw [hstatus v, complete_node_status]
      by_cases hvi : v = i
      · have hid : (i : Nat) = id := rfl
        simp [hvi, hrun, hid]
      · have hne : (v : Nat) ≠ id := fun heq => hvi (Fin.ext heq)
        simp [hvi, hne]
    · -- an unknown id, or a node that does not run
      have hstep : s.process_completion (id, true) = s := by
        simp only [EventLoop.process_completion]
        split
        · next hlt => exact if_pos fun hr => hrun ⟨hlt, hr⟩
        · rfl
      obtain ⟨hcounted, hqueue, hstatus⟩ := ih hrest h
      show _ ∧ ((s.process_completion (id, true)).process_completions cs).ready_queue = _ ∧
        ∀ v, ((s.process_completion (id, true)).process_completions cs).status v = _
      rw [hstep]
      refine ⟨hcounted, hqueue, ?_⟩
      intro v
      rw [hstatus v]
      by_cases hr : s.status v = .running
      · have hne : (v : Nat) ≠ id := by
          rintro rfl
          exact hrun ⟨v.isLt, hr⟩
        simp [hr, hne]
      · simp [hr]

/-! ### The poll and the dispatch phase -/

theorem Settled.poll {s : EventLoop cfg.num_tasks} (h : Settled cfg s) :
    s.poll_ready_nodes.ready_queue = s.poll_ready_nodes.ready_nodes ∧
      ∀ v, v ∈ s.poll_ready_nodes.ready_nodes ↔ s.Startable v := by
  have hstatus : ∀ v, s.poll_ready_nodes.status v = .ready ↔ s.Startable v := by
    intro v
    rw [EventLoop.status, poll_ready_nodes_nodes]
    by_cases hstart : s.Startable v
    · have hpolled : EventLoop.polled (s.nodes v) = { s.nodes v with status := .ready } :=
        if_pos hstart
      rw [hpolled]
      exact iff_of_true rfl hstart
    · have hlife := h.life v
      rw [EventLoop.polled_of_not hstart]
      refine iff_of_false ?_ hstart
      intro hready
      rw [EventLoop.status, hready] at hlife
      simp at hlife
  constructor
  · rw [EventLoop.poll_ready_nodes_queue h.id, h.queue, List.nil_append, EventLoop.ready_nodes]
    apply List.filter_congr
    intro v _
    exact decide_eq_decide.mpr (hstatus v).symm
  · intro v
    rw [EventLoop.ready_nodes, List.mem_filter]
    simp [hstatus v]

/-- **The dispatch phase** runs every node whose counter reads zero. -/
theorem Settled.dispatch {s : EventLoop cfg.num_tasks} (h : Settled cfg s) (hroom : s.HasRoom) :
    ∃ d, s.poll_ready_nodes.dispatch_ready_nodes succeeding = (d, none) ∧ Counted cfg d ∧
      d.ready_queue = [] ∧
      ∀ v, d.status v = if s.Startable v then .running else s.status v := by
  obtain ⟨hqueue, hmem⟩ := h.poll
  obtain ⟨q, hpoll⟩ := s.poll_ready_nodes_eq
  have hdemand : ∀ v, (s.poll_ready_nodes.nodes v).required_ranks = 1 := by
    intro v
    rw [poll_ready_nodes_nodes]
    have hshape := congrArg (·.2.2.1) (polled_shape (s.nodes v))
    exact hshape.trans (h.required_ranks v)
  have hroom' : s.in_flight + s.poll_ready_nodes.ready_queue.length ≤ s.max_concurrency ∧
      (s.poll_ready_nodes.ready_queue.map fun v =>
        (s.poll_ready_nodes.nodes v).required_ranks).sum ≤ s.rank_pool.available := by
    have hroom := hroom
    simp only [EventLoop.HasRoom, h.required_ranks] at hroom
    rw [hqueue]
    simp only [hdemand]
    exact hroom
  have hnodup : s.poll_ready_nodes.ready_queue.Nodup := by
    rw [hqueue]
    exact (List.nodup_finRange _).filter _
  have hready : ∀ v ∈ s.poll_ready_nodes.ready_queue, s.poll_ready_nodes.status v = .ready := by
    intro v hv
    rw [hqueue, EventLoop.ready_nodes, List.mem_filter] at hv
    simpa using hv.2
  have hsame : s.poll_ready_nodes.max_concurrency = s.max_concurrency ∧
      s.poll_ready_nodes.in_flight = s.in_flight ∧
      s.poll_ready_nodes.rank_pool = s.rank_pool := by
    rw [hpoll]
    exact ⟨rfl, rfl, rfl⟩
  obtain ⟨hmax, hflight, hranks⟩ := hsame
  obtain ⟨d, hloop, hempty, hpool, hdmax, hnodes⟩ := EventLoop.dispatch_loop_all
    (s := s.poll_ready_nodes) (hmax ▸ h.concurrency) (hranks ▸ h.pool)
    (fun v => by rw [hdemand v]; exact Nat.zero_lt_one) hnodup hready
    (by rw [hmax, hflight]; exact hroom'.1) (by rw [hranks]; exact hroom'.2) (Nat.lt_succ_self _)
  have hstatus : ∀ v, d.status v = if s.Startable v then .running else s.status v := by
    intro v
    rw [EventLoop.status, hnodes v, hqueue]
    by_cases hstart : s.Startable v
    · rw [if_pos ((hmem v).mpr hstart), if_pos hstart]
    · rw [if_neg fun hv => hstart ((hmem v).mp hv), if_neg hstart, poll_ready_nodes_nodes,
        EventLoop.polled_of_not hstart]
      rfl
  have hkept : ∀ v, (d.nodes v).shape = (s.nodes v).shape ∧
      (d.nodes v).pending_deps = (s.nodes v).pending_deps := by
    intro v
    rw [hnodes v, poll_ready_nodes_nodes]
    split
    · exact ⟨polled_shape (s.nodes v), polled_pending_deps (s.nodes v)⟩
    · exact ⟨polled_shape (s.nodes v), polled_pending_deps (s.nodes v)⟩
  refine ⟨d, hloop, ⟨?_, hpool, ?_, ?_⟩, hempty, hstatus⟩
  · rw [hdmax, hmax]
    exact h.concurrency
  · intro v
    rw [(hkept v).1]
    exact h.shape v
  · apply deps_of_same h.deps fun v => (hkept v).2
    intro u
    rw [hstatus u]
    split
    · next hstart => simp [hstart.1]
    · exact Iff.rfl

/-- **One cycle.** It throws nothing, starts every node whose counter reads
    zero and completes the running nodes that are reported. -/
theorem Settled.cycle (hv : cfg.Valid) {s : EventLoop cfg.num_tasks} (h : Settled cfg s)
    (hroom : s.HasRoom) {completions : List (Nat × Bool)}
    (hsuccess : ∀ c ∈ completions, c.2 = true) :
    Settled cfg (s.cycle succeeding completions).1 ∧
      (∀ v, s.at_completion.status v = if s.Startable v then .running else s.status v) ∧
      ∀ v, (s.cycle succeeding completions).1.status v =
        if s.at_completion.status v = .running ∧ ((v : Nat), true) ∈ completions then .completed
        else s.at_completion.status v := by
  obtain ⟨d, hloop, hcounted, hempty, hstatus⟩ := h.dispatch hroom
  obtain ⟨hcounted', hqueue, hcompleted⟩ := hcounted.process_completions hv hsuccess
  have hat : s.at_completion = d := by
    rw [EventLoop.at_completion, hloop]
  have hcycle : (s.cycle succeeding completions).1 = d.process_completions completions := by
    simp only [EventLoop.cycle, hloop]
  rw [hat, hcycle]
  refine ⟨⟨hcounted', hqueue.trans hempty, ?_⟩, hstatus, hcompleted⟩
  intro v
  rw [hcompleted v]
  split
  · exact .inr (.inr rfl)
  · rw [hstatus v]
    split
    · exact .inr (.inl rfl)
    · exact h.life v

/-! ## Section 4: Level by level -/

open Paths

theorem Settled.startable {s : EventLoop cfg.num_tasks} (h : Settled cfg s)
    {v : Fin cfg.num_tasks} (hpending : s.status v = .pending)
    (hpred : ∀ u, cfg.Edge u v → s.status u = .completed) : s.Startable v := by
  refine ⟨hpending, ?_⟩
  rw [h.deps v, open_edges_eq_zero hpred, Nat.zero_mod]

theorem Settled.pred_completed {s : EventLoop cfg.num_tasks} (h : Settled cfg s)
    (hin : ∀ v, cfg.incoming v < 2 ^ 32) {u v : Fin cfg.num_tasks} (hstart : s.Startable v)
    (hedge : cfg.Edge u v) : s.status u = .completed := by
  have hdeps := h.deps v
  have hle := cfg.open_edges_le s.status v
  rw [hstart.2, Nat.mod_eq_of_lt (hle.trans_lt (hin v))] at hdeps
  exact completed_of_open_edges_eq_zero hdeps.symm hedge

theorem EventLoop.ReportsRunning.success {s : EventLoop n} {completions : List (Nat × Bool)}
    (h : s.ReportsRunning completions) : ∀ c ∈ completions, c.2 = true := by
  intro c hc
  obtain ⟨v, -, rfl⟩ := (h c).mp hc
  rfl

theorem EventLoop.ReportsRunning.mem_iff {s : EventLoop n} {completions : List (Nat × Bool)}
    (h : s.ReportsRunning completions) (v : Fin n) :
    ((v : Nat), true) ∈ completions ↔ s.status v = .running := by
  rw [h]
  constructor
  · rintro ⟨u, hu, heq⟩
    obtain rfl : v = u := Fin.ext (Prod.mk.inj heq).1
    exact hu
  · exact fun hv => ⟨v, hv, rfl⟩

/-! ### Reports in the next cycle -/

/-- After `k` cycles: two cycles a level have completed, and the level after
    an odd number of cycles runs. -/
structure NextInv (cfg : PipelineConfig) (k : Nat) (s : EventLoop cfg.num_tasks) : Prop where
  settled : Settled cfg s
  completed : ∀ d v, Within cfg.Edge d v → 2 * d ≤ k → s.status v = .completed
  started : ∀ d v, Within cfg.Edge d v → 2 * d ≤ k + 1 → s.status v ≠ .pending

theorem NextInv.init {s : EventLoop cfg.num_tasks} (h : Settled cfg s) : NextInv cfg 0 s where
  settled := h
  completed := by
    intro d v hd hle
    have := hd.pos
    omega
  started := by
    intro d v hd hle
    have := hd.pos
    omega

theorem NextInv.step (hv : cfg.Valid) {ranks : OrdSet Int} {k : Nat}
    {s s' : EventLoop cfg.num_tasks} {completions : List (Nat × Bool)} (h : NextInv cfg k s)
    (hstep : (nextCycle cfg ranks).step s completions s') : NextInv cfg (k + 1) s' := by
  obtain ⟨hroom, hreports, rfl⟩ := hstep
  obtain ⟨hsettled, hstarts, hcompletes⟩ := h.settled.cycle hv hroom hreports.success
  have hmem := hreports.mem_iff
  refine ⟨hsettled, ?_, ?_⟩
  · intro d v hd hle
    have hnot := h.started d v hd hle
    -- the node runs or has completed; it does not start again
    have hat : s.at_completion.status v = s.status v := by
      rw [hstarts v, if_neg fun hstart => hnot hstart.1]
    rw [hcompletes v, hat]
    rcases h.settled.life v with hlife | hlife | hlife
    · exact absurd hlife hnot
    · rw [if_pos ⟨hlife, (hmem v).mpr hlife⟩]
    · rw [if_neg (by simp [hlife]), hlife]
  · intro d v hd hle
    have hat : s.at_completion.status v ≠ .pending := by
      rw [hstarts v]
      split
      · simp
      · next hno =>
        intro hpending
        obtain ⟨d, rfl⟩ := Nat.exists_eq_add_of_lt hd.pos
        apply hno
        apply h.settled.startable hpending
        intro u hedge
        rw [Nat.zero_add] at hd hle
        exact h.completed d u (hd.pred hedge) (by omega)
    rw [hcompletes v]
    split
    · simp
    · exact hat

/-- After `k` cycles no node is further than two cycles a level. -/
structure NextBound (cfg : PipelineConfig) (k : Nat) (s : EventLoop cfg.num_tasks) : Prop where
  settled : Settled cfg s
  completed : ∀ m v, PathTo cfg.Edge m v → s.status v = .completed → 2 * m ≤ k
  running : ∀ m v, PathTo cfg.Edge m v → s.status v = .running → 2 * m ≤ k + 1

theorem NextBound.step (hv : cfg.Valid) (hin : ∀ v, cfg.incoming v < 2 ^ 32)
    {ranks : OrdSet Int} {k : Nat} {s s' : EventLoop cfg.num_tasks}
    {completions : List (Nat × Bool)} (h : NextBound cfg k s)
    (hstep : (nextCycle cfg ranks).step s completions s') : NextBound cfg (k + 1) s' := by
  obtain ⟨hroom, hreports, rfl⟩ := hstep
  obtain ⟨hsettled, hstarts, hcompletes⟩ := h.settled.cycle hv hroom hreports.success
  refine ⟨hsettled, ?_, ?_⟩
  · intro m v hpath hcompleted
    rw [hcompletes v] at hcompleted
    split at hcompleted
    · next hreported =>
      -- only a node that ran when the cycle began is reported
      have hrun := (hreports.mem_iff v).mp hreported.2
      exact h.running m v hpath hrun
    · rw [hstarts v] at hcompleted
      split at hcompleted
      · cases hcompleted
      · have := h.completed m v hpath hcompleted
        omega
  · intro m v hpath hrunning
    rw [hcompletes v] at hrunning
    split at hrunning
    · cases hrunning
    · rw [hstarts v] at hrunning
      split at hrunning
      · next hstart =>
        rcases hpath with _ | @⟨m, u, _, hpath, hedge⟩
        · omega
        · have := h.completed m u hpath (h.settled.pred_completed hin hstart hedge)
          omega
      · have := h.running m v hpath hrunning
        omega

/-! ### Reports in the same cycle -/

/-- After `k` cycles one level a cycle has completed. -/
structure SameInv (cfg : PipelineConfig) (k : Nat) (s : EventLoop cfg.num_tasks) : Prop where
  settled : Settled cfg s
  completed : ∀ d v, Within cfg.Edge d v → d ≤ k → s.status v = .completed

theorem SameInv.step (hv : cfg.Valid) {ranks : OrdSet Int} {k : Nat}
    {s s' : EventLoop cfg.num_tasks} {completions : List (Nat × Bool)} (h : SameInv cfg k s)
    (hstep : (sameCycle cfg ranks).step s completions s') : SameInv cfg (k + 1) s' := by
  obtain ⟨hroom, hreports, rfl⟩ := hstep
  obtain ⟨hsettled, hstarts, hcompletes⟩ := h.settled.cycle hv hroom hreports.success
  refine ⟨hsettled, ?_⟩
  intro d v hd hle
  have hat : s.at_completion.status v = .running ∨ s.at_completion.status v = .completed := by
    rw [hstarts v]
    split
    · exact .inl rfl
    · next hno =>
      rcases h.settled.life v with hlife | hlife
      · -- a pending node of this level has no open producer left
        obtain ⟨d, rfl⟩ := Nat.exists_eq_add_of_lt hd.pos
        rw [Nat.zero_add] at hd hle
        refine absurd (h.settled.startable hlife ?_) hno
        intro u hedge
        exact h.completed d u (hd.pred hedge) (Nat.le_of_succ_le_succ hle)
      · exact hlife
  rw [hcompletes v]
  rcases hat with hat | hat
  · rw [if_pos ⟨hat, (hreports.mem_iff v).mpr hat⟩]
  · rw [if_neg (by simp [hat]), hat]

/-! ## Section 5: The number of cycles -/

/-- **A valid graph completes.** Let `m` be the number of nodes on a longest
    path of a valid graph. When the completion callback reports in every
    cycle the nodes that the cycle before left running, every node has
    completed after `2 * m` cycles, and not earlier as long as the counters
    do not wrap. When it also reports what the same cycle dispatched, `m`
    cycles are enough. -/
theorem cycles_complete (hv : cfg.Valid) {m : Nat} (hm : Longest cfg.Edge m) {ranks : OrdSet Int}
    {s t : EventLoop cfg.num_tasks} {reports : List (List (Nat × Bool))}
    (hinit : EventLoop.make cfg.max_concurrency cfg.populate_nodes (RankPool.make ranks) = .ok s) :
    ((nextCycle cfg ranks).Steps s reports t →
      (2 * m ≤ reports.length → ∀ v, t.status v = .completed) ∧
      ((∀ v, cfg.incoming v < 2 ^ 32) → (∀ v, t.status v = .completed) →
        2 * m ≤ reports.length)) ∧
    ((sameCycle cfg ranks).Steps s reports t →
      m ≤ reports.length → ∀ v, t.status v = .completed) := by
  have hsettled := settled_init hv hinit
  refine ⟨fun hsteps => ⟨?_, ?_⟩, ?_⟩
  · intro hle v
    have hinv := hsteps.counted (fun _ _ _ _ h hstep => NextInv.step hv h hstep)
      (NextInv.init hsettled)
    exact hinv.completed m v (hm.within v) (by rwa [Nat.zero_add])
  · intro hin hdone
    have hstart : NextBound cfg 0 s := by
      refine ⟨hsettled, ?_, ?_⟩
      · intro k v _ hcompleted
        rw [settled_init_status hinit] at hcompleted
        cases hcompleted
      · intro k v _ hrunning
        rw [settled_init_status hinit] at hrunning
        cases hrunning
    have hinv := hsteps.counted (fun _ _ _ _ h hstep => NextBound.step hv hin h hstep) hstart
    rcases hm.attained with rfl | ⟨v, hpath⟩
    · exact Nat.zero_le _
    · have hle := hinv.completed m v hpath (hdone v)
      rwa [Nat.zero_add] at hle
  · intro hsteps hle v
    have hstart : SameInv cfg 0 s := by
      refine ⟨hsettled, ?_⟩
      intro d v hd hle
      have := hd.pos
      omega
    have hinv := hsteps.counted (fun _ _ _ _ h hstep => SameInv.step hv h hstep) hstart
    exact hinv.completed m v (hm.within v) (by rwa [Nat.zero_add])

/-- The report of all running nodes. -/
def EventLoop.running_report (s : EventLoop n) : List (Nat × Bool) :=
  ((List.finRange n).filter fun v => s.status v = .running).map fun v : Fin n => ((v : Nat), true)

theorem nextCycle_step {ranks : OrdSet Int} {s : EventLoop cfg.num_tasks} (hroom : s.HasRoom) :
    (nextCycle cfg ranks).step s s.running_report
      (s.cycle succeeding s.running_report).1 := by
  refine ⟨hroom, ?_, rfl⟩
  intro c
  simp only [EventLoop.running_report, List.mem_map, List.mem_filter, List.mem_finRange, true_and,
    decide_eq_true_eq, id]
  constructor
  · rintro ⟨v, hv, rfl⟩
    exact ⟨v, hv, rfl⟩
  · rintro ⟨v, hv, rfl⟩
    exact ⟨v, hv, rfl⟩

/-- One cycle after another, each told what the one before left running. -/
def EventLoop.cycles : Nat → EventLoop n → EventLoop n
  | 0, s => s
  | k + 1, s => cycles k (s.cycle succeeding s.running_report).1

theorem cycles_steps (ranks : OrdSet Int) {k : Nat} {s : EventLoop cfg.num_tasks}
    (hroom : ∀ j < k, (s.cycles j).HasRoom) :
    ∃ reports, reports.length = k ∧ (nextCycle cfg ranks).Steps s reports (s.cycles k) := by
  induction k generalizing s with
  | zero => exact ⟨[], rfl, .nil s⟩
  | succ k ih =>
    have hfirst : s.HasRoom := hroom 0 (Nat.succ_pos k)
    obtain ⟨reports, hlength, hsteps⟩ := @ih (s.cycle succeeding s.running_report).1
      fun j hj => hroom (j + 1) (Nat.succ_lt_succ hj)
    exact ⟨s.running_report :: reports, congrArg Nat.succ hlength,
      .cons (nextCycle_step hfirst) hsteps⟩

/-- The event loop of the two stages before its first cycle. -/
def twoStageLoop : EventLoop twoStage.num_tasks :=
  ⟨4, twoStage.populate_nodes, .make ranks₂, [], 0, fun _ => .empty⟩

theorem twoStage_longest : Longest twoStage.Edge 2 where
  attained := by
    have hedge : twoStage.Edge ⟨0, by decide⟩ ⟨1, by decide⟩ := List.mem_cons_self
    exact .inr ⟨_, .snoc (.single _) hedge⟩
  bound := by
    intro k v hpath
    have hvalid : twoStage.Valid := valid_of_increasing (by decide)
    exact (hpath.le_card hvalid.acyclic).trans_eq (Fintype.card_fin _)

theorem two_stages_complete : ∃ reports t, reports.length = 4 ∧
    (nextCycle twoStage ranks₂).Steps twoStageLoop reports t ∧ ∀ v, t.status v = .completed := by
  have hroom : ∀ j < 4, (twoStageLoop.cycles j).HasRoom := by decide +kernel
  obtain ⟨reports, hlength, hsteps⟩ := cycles_steps ranks₂ hroom
  have hinit : EventLoop.make 4 twoStage.populate_nodes (RankPool.make ranks₂) =
      .ok twoStageLoop := rfl
  have hvalid : twoStage.Valid := valid_of_increasing (by decide)
  have hcomplete := (cycles_complete hvalid twoStage_longest hinit).1 hsteps
  exact ⟨reports, _, hlength, hsteps, hcomplete.1 hlength.ge⟩

theorem three_cycles_too_few : Longest twoStage.Edge 2 ∧ ∃ reports t, reports.length = 2 + 1 ∧
    (nextCycle twoStage ranks₂).Steps twoStageLoop reports t ∧
    t.status ⟨1, by decide⟩ = .running := by
  have hroom : ∀ j < 3, (twoStageLoop.cycles j).HasRoom := by decide +kernel
  obtain ⟨reports, hlength, hsteps⟩ := cycles_steps ranks₂ hroom
  have hrunning : (twoStageLoop.cycles 3).status ⟨1, by decide⟩ = .running := by decide +kernel
  exact ⟨twoStage_longest, reports, _, hlength, hsteps, hrunning⟩

end Dagr
