import Helm.Framework.System
import Helm.Dagr.Pipeline
import Helm.Dagr.RankPool

/-! # Event_Loop

  The poll-dispatch-complete loop that schedules the task nodes. One call
  of `cycle` polls for nodes without open dependencies, dispatches ready
  nodes while ranks and concurrency allow, and processes the completions
  reported by a callback.

  The loop is modelled twice. The functions of Section 1 follow the
  methods of the class. The transition system of Section 4 runs the same
  functions one iteration at a time, with the outcomes of the callbacks
  carried by the labels, so that a run may see any dispatch result and any
  completion report. `cycle_steps` connects the two.

  Not modelled: log output and the deadlock timer, which only logs.
-/

namespace Dagr

open LTS

variable {n : Nat}

/-! ## Section 1: Model -/

/-- `Event_Loop`, for a graph of `n` nodes. The node vector and the rank pool
    are references in the class and fields here. -/
structure EventLoop (n : Nat) where
  /-- `config_.max_concurrency`. -/
  max_concurrency : Nat
  nodes : Fin n → TaskNode n
  rank_pool : RankPool
  /-- Nodes ready to dispatch, oldest first. -/
  ready_queue : List (Fin n)
  /-- Dispatched tasks that have not finished, a 32-bit counter. -/
  in_flight : Nat
  /-- The ranks held by each node in flight. -/
  allocated_ranks : Fin n → OrdSet Int

/-- How a call of the dispatch callback ends. -/
inductive DispatchResult
  | succeeded | refused | threw
  deriving DecidableEq

namespace EventLoop

/-- The constructor. `max_concurrency` must lie in `[1, 1024]`. -/
def make (max_concurrency : Nat) (nodes : Fin n → TaskNode n) (rank_pool : RankPool) :
    Except String (EventLoop n) :=
  if max_concurrency < 1 ∨ max_concurrency > 1024 then
    .error s!"Event_Loop: max_concurrency must be in range [1, 1024], got {max_concurrency}"
  else
    .ok { max_concurrency, nodes, rank_pool, ready_queue := [], in_flight := 0
          allocated_ranks := fun _ => .empty }

/-- The status of a node. -/
def status (s : EventLoop n) (v : Fin n) : TaskStatus := (s.nodes v).status

/-- `nodes_[i].status = st`. -/
def set_status (s : EventLoop n) (i : Fin n) (st : TaskStatus) : EventLoop n :=
  { s with nodes := Function.update s.nodes i { s.nodes i with status := st } }

/-- `all_complete`. -/
def all_complete (s : EventLoop n) : Bool :=
  (List.finRange n).all fun v => is_terminal (s.status v)

/-- Return the ranks of a node to the pool, if it holds any. -/
def release_allocated (s : EventLoop n) (i : Fin n) : EventLoop n :=
  if (s.allocated_ranks i).size = 0 then s
  else
    { s with
      rank_pool := s.rank_pool.release (s.allocated_ranks i)
      allocated_ranks := Function.update s.allocated_ranks i .empty }

/-- One iteration of `force_cancel_in_flight`. -/
def force_cancel_node (s : EventLoop n) (i : Fin n) : EventLoop n :=
  if s.status i = .running then (s.release_allocated i).set_status i .cancelled else s

/-- `force_cancel_in_flight`. -/
def force_cancel_in_flight (s : EventLoop n) : EventLoop n :=
  { (List.finRange n).foldl force_cancel_node s with in_flight := 0 }

/-- One iteration of `poll_ready_nodes`. -/
def poll_node (s : EventLoop n) (i : Fin n) : EventLoop n :=
  if s.status i = .pending ∧ (s.nodes i).pending_deps = 0 then
    { s.set_status i .ready with ready_queue := s.ready_queue ++ [(s.nodes i).id] }
  else s

/-- `poll_ready_nodes`. -/
def poll_ready_nodes (s : EventLoop n) : EventLoop n :=
  (List.finRange n).foldl poll_node s

/-- A node the cascade may still cancel: neither terminal nor running. -/
def cancellable (t : TaskNode n) : Bool := !is_terminal t.status && t.status != .running

/-- The breadth-first loop of `propagate_failure`. Every iteration takes one
    index off the queue; `fuel` bounds their number. -/
def cascade : Nat → List Nat → (Fin n → TaskNode n) → Fin n → TaskNode n
  | 0, _, nodes => nodes
  | _ + 1, [], nodes => nodes
  | fuel + 1, current_id :: bfs_queue, nodes =>
    if h : current_id < n then
      let dep_node := nodes ⟨current_id, h⟩
      if cancellable dep_node then
        cascade fuel (bfs_queue ++ dep_node.dependents)
          (Function.update nodes ⟨current_id, h⟩ { dep_node with status := .cancelled })
      else cascade fuel bfs_queue nodes
    else cascade fuel bfs_queue nodes

/-- Enough fuel for the cascade: a node enters the queue as an initial entry
    or when one of its producers is cancelled, which happens once. -/
def cascade_fuel (queue : List Nat) (nodes : Fin n → TaskNode n) : Nat :=
  queue.length + ∑ v, (nodes v).dependents.length

/-- `propagate_failure`. -/
def propagate_failure (s : EventLoop n) (failed_node_id : Fin n) : EventLoop n :=
  let s := (s.set_status failed_node_id .failed).release_allocated failed_node_id
  let queue := (s.nodes failed_node_id).dependents
  { s with
    in_flight := if 0 < s.in_flight then Word.sub 32 s.in_flight 1 else s.in_flight
    nodes := cascade (cascade_fuel queue s.nodes) queue s.nodes }

/-- The effect of one downstream index on the counters. -/
def decrement_dep (nodes : Fin n → TaskNode n) (dep_id : Nat) : Fin n → TaskNode n :=
  if h : dep_id < n then
    Function.update nodes ⟨dep_id, h⟩
      { nodes ⟨dep_id, h⟩ with pending_deps := Word.sub 32 (nodes ⟨dep_id, h⟩).pending_deps 1 }
  else nodes

/-- The success branch of `process_completions`. -/
def complete_node (s : EventLoop n) (i : Fin n) : EventLoop n :=
  let s := (s.set_status i .completed).release_allocated i
  { s with
    in_flight := Word.sub 32 s.in_flight 1
    nodes := (s.nodes i).dependents.foldl decrement_dep s.nodes }

/-- One iteration of `process_completions`. Unknown ids and nodes that are
    not running are skipped. -/
def process_completion (s : EventLoop n) (report : Nat × Bool) : EventLoop n :=
  if h : report.1 < n then
    if s.status ⟨report.1, h⟩ ≠ .running then s
    else if report.2 then s.complete_node ⟨report.1, h⟩
    else s.propagate_failure ⟨report.1, h⟩
  else s

/-- `process_completions`, on what the completion callback returned. Without
    a callback nothing is reported. -/
def process_completions (s : EventLoop n) (completions : List (Nat × Bool)) : EventLoop n :=
  completions.foldl process_completion s

/-- Where one iteration of `dispatch_ready_nodes` leads. -/
inductive DispatchStep (n : Nat)
  /-- The loop ends. -/
  | stop (s : EventLoop n)
  /-- A node that is no longer ready was dropped from the queue. -/
  | skipped (s : EventLoop n)
  /-- Node `i` is running and the dispatch callback is about to be called. -/
  | called (i : Fin n) (s : EventLoop n)
  /-- `try_allocate` threw; the exception leaves `cycle`. -/
  | threw (msg : String)

/-- One iteration of `dispatch_ready_nodes`, up to the callback. -/
def dispatch_front (s : EventLoop n) : DispatchStep n :=
  match s.ready_queue with
  | [] => .stop s
  | i :: rest =>
    if s.in_flight ≥ s.max_concurrency then .stop s
    else if s.status i ≠ .ready then .skipped { s with ready_queue := rest }
    else match s.rank_pool.try_allocate (s.nodes i).required_ranks with
      | .error msg => .threw msg
      | .ok (pool, ranks) =>
        if ranks.size = 0 then .stop { s with rank_pool := pool }
        else .called i
          { s.set_status i .running with
            rank_pool := pool
            ready_queue := rest
            in_flight := Word.add 32 s.in_flight 1
            allocated_ranks := Function.update s.allocated_ranks i ranks }

/-- What follows the dispatch callback. -/
def dispatch_returned (s : EventLoop n) (i : Fin n) : DispatchResult → EventLoop n
  | .succeeded => s
  | .refused => s.propagate_failure i
  | .threw => s.propagate_failure i

/-- The loop of `dispatch_ready_nodes`, with the message of the exception that
    left it, if any. An iteration that does not stop shortens the queue. -/
def dispatch_loop (dispatch_cb : Fin n → OrdSet Int → DispatchResult) :
    Nat → EventLoop n → EventLoop n × Option String
  | 0, s => (s, none)
  | fuel + 1, s =>
    match s.dispatch_front with
    | .stop s => (s, none)
    | .skipped s => dispatch_loop dispatch_cb fuel s
    | .called i s =>
      dispatch_loop dispatch_cb fuel (s.dispatch_returned i (dispatch_cb i (s.allocated_ranks i)))
    | .threw msg => (s, some msg)

/-- `dispatch_ready_nodes`. A missing callback counts as one that succeeds. -/
def dispatch_ready_nodes (dispatch_cb : Fin n → OrdSet Int → DispatchResult) (s : EventLoop n) :
    EventLoop n × Option String :=
  dispatch_loop dispatch_cb (s.ready_queue.length + 1) s

/-- `cycle`: the state it leaves and what it returns or throws. -/
def cycle (dispatch_cb : Fin n → OrdSet Int → DispatchResult) (completions : List (Nat × Bool))
    (s : EventLoop n) : EventLoop n × Except String Bool :=
  match s.poll_ready_nodes.dispatch_ready_nodes dispatch_cb with
  | (s, some msg) => (s, .error msg)
  | (s, none) =>
    let s := s.process_completions completions
    (s, .ok s.all_complete)

end EventLoop

/-! ## Section 2: Updates field by field -/

namespace EventLoop

@[simp] theorem set_status_status (s : EventLoop n) (i : Fin n) (st : TaskStatus) (v : Fin n) :
    (s.set_status i st).status v = if v = i then st else s.status v := by
  by_cases h : v = i <;> simp [set_status, status, h]

theorem set_status_nodes_of_ne (s : EventLoop n) {i v : Fin n} (st : TaskStatus) (h : v ≠ i) :
    (s.set_status i st).nodes v = s.nodes v := by
  simp [set_status, h]

@[simp] theorem set_status_rank_pool (s : EventLoop n) (i : Fin n) (st : TaskStatus) :
    (s.set_status i st).rank_pool = s.rank_pool := rfl

@[simp] theorem set_status_in_flight (s : EventLoop n) (i : Fin n) (st : TaskStatus) :
    (s.set_status i st).in_flight = s.in_flight := rfl

@[simp] theorem set_status_allocated_ranks (s : EventLoop n) (i : Fin n) (st : TaskStatus) :
    (s.set_status i st).allocated_ranks = s.allocated_ranks := rfl

@[simp] theorem set_status_ready_queue (s : EventLoop n) (i : Fin n) (st : TaskStatus) :
    (s.set_status i st).ready_queue = s.ready_queue := rfl

@[simp] theorem set_status_max_concurrency (s : EventLoop n) (i : Fin n) (st : TaskStatus) :
    (s.set_status i st).max_concurrency = s.max_concurrency := rfl

@[simp] theorem release_allocated_nodes (s : EventLoop n) (i : Fin n) :
    (s.release_allocated i).nodes = s.nodes := by
  unfold release_allocated; split <;> rfl

@[simp] theorem release_allocated_status (s : EventLoop n) (i v : Fin n) :
    (s.release_allocated i).status v = s.status v := by
  simp [status]

@[simp] theorem release_allocated_in_flight (s : EventLoop n) (i : Fin n) :
    (s.release_allocated i).in_flight = s.in_flight := by
  unfold release_allocated; split <;> rfl

@[simp] theorem release_allocated_ready_queue (s : EventLoop n) (i : Fin n) :
    (s.release_allocated i).ready_queue = s.ready_queue := by
  unfold release_allocated; split <;> rfl

@[simp] theorem release_allocated_max_concurrency (s : EventLoop n) (i : Fin n) :
    (s.release_allocated i).max_concurrency = s.max_concurrency := by
  unfold release_allocated; split <;> rfl

/-- After the release the node holds no rank, and the others keep theirs. -/
@[simp] theorem release_allocated_allocated_ranks (s : EventLoop n) (i : Fin n) :
    (s.release_allocated i).allocated_ranks = Function.update s.allocated_ranks i .empty := by
  unfold release_allocated
  split
  · next h => rw [← OrdSet.eq_empty_of_size_eq_zero h, Function.update_eq_self]
  · rfl

end EventLoop

/-! ## Section 3: One specification per method -/

/-- What scheduling never changes about a node. -/
def TaskNode.shape (t : TaskNode n) : Fin n × String × Nat × List Nat :=
  (t.id, t.name, t.required_ranks, t.dependents)

namespace EventLoop

/-- The result of polling one node. -/
def polled (t : TaskNode n) : TaskNode n :=
  if t.status = .pending ∧ t.pending_deps = 0 then { t with status := .ready } else t

theorem polled_of_not {t : TaskNode n} (h : ¬ (t.status = .pending ∧ t.pending_deps = 0)) :
    polled t = t := if_neg h

/-- **`poll_ready_nodes`** polls every node and touches nothing else but the
    ready queue. -/
theorem poll_ready_nodes_eq (s : EventLoop n) :
    ∃ q, s.poll_ready_nodes = { s with nodes := fun v => polled (s.nodes v), ready_queue := q } := by
  have key : ∀ (l : List (Fin n)) (s : EventLoop n), ∃ q, l.foldl poll_node s =
      { s with nodes := fun v => if v ∈ l then polled (s.nodes v) else s.nodes v
               ready_queue := q } := by
    intro l
    induction l with
    | nil => exact fun s => ⟨_, by simp; rfl⟩
    | cons i l ih =>
      intro s
      obtain ⟨q, hq⟩ := ih (s.poll_node i)
      refine ⟨q, ?_⟩
      rw [List.foldl_cons, hq]
      unfold poll_node
      split
      · next h =>
        -- node `i` is ready now, so a second poll would not change it
        simp only [set_status, EventLoop.mk.injEq, true_and, and_true]
        funext v
        by_cases hv : v = i
        · subst hv
          have hp : polled (s.nodes v) = { s.nodes v with status := .ready } := if_pos h
          simp only [Function.update_self, List.mem_cons, true_or, if_true, hp]
          exact ite_eq_right_iff.mpr fun _ => polled_of_not (by simp)
        · simp [hv]
      · next h =>
        simp only [EventLoop.mk.injEq, true_and, and_true]
        funext v
        by_cases hv : v = i
        · subst hv
          simp [polled_of_not h]
        · simp [hv]
  obtain ⟨q, hq⟩ := key (List.finRange n) s
  exact ⟨q, by simpa [poll_ready_nodes] using hq⟩

/-! ### The cascade -/

/-- `v` is listed among the dependents of `u`. -/
def Dependent (nodes : Fin n → TaskNode n) (u v : Fin n) : Prop :=
  (v : Nat) ∈ (nodes u).dependents

/-- What the cascade from `roots` makes of the nodes: it only cancels nodes
    that may be cancelled, only ones below the roots, and it leaves no
    cancellable node among the roots or directly below a node it cancelled. -/
structure Cascaded (roots : List Nat) (nodes nodes' : Fin n → TaskNode n) : Prop where
  change : ∀ v, nodes' v = nodes v ∨
    cancellable (nodes v) ∧ nodes' v = { nodes v with status := .cancelled }
  origin : ∀ v, nodes' v ≠ nodes v →
    ∃ r : Fin n, (r : Nat) ∈ roots ∧ Relation.ReflTransGen (Dependent nodes) r v
  roots_closed : ∀ v : Fin n, (v : Nat) ∈ roots → ¬ cancellable (nodes' v)
  closed : ∀ u v, nodes' u ≠ nodes u → Dependent nodes u v → ¬ cancellable (nodes' v)

theorem not_cancellable_cancelled (t : TaskNode n) :
    ¬ cancellable { t with status := .cancelled } := by
  simp [cancellable, is_terminal]

theorem Cascaded.status {roots : List Nat} {nodes nodes' : Fin n → TaskNode n}
    (h : Cascaded roots nodes nodes') (v : Fin n) :
    (nodes' v).status = (nodes v).status ∨
      cancellable (nodes v) ∧ (nodes' v).status = .cancelled := by
  rcases h.change v with heq | ⟨hc, heq⟩
  · exact .inl (by rw [heq])
  · exact .inr ⟨hc, by rw [heq]⟩

theorem Cascaded.shape {roots : List Nat} {nodes nodes' : Fin n → TaskNode n}
    (h : Cascaded roots nodes nodes') (v : Fin n) : (nodes' v).shape = (nodes v).shape := by
  rcases h.change v with heq | ⟨_, heq⟩
  · rw [heq]
  · rw [heq]; rfl

theorem Cascaded.pending_deps {roots : List Nat} {nodes nodes' : Fin n → TaskNode n}
    (h : Cascaded roots nodes nodes') (v : Fin n) :
    (nodes' v).pending_deps = (nodes v).pending_deps := by
  rcases h.change v with heq | ⟨_, heq⟩ <;> rw [heq]

/-- The iterations the cascade may still need. -/
def cascade_measure (queue : List Nat) (nodes : Fin n → TaskNode n) : Nat :=
  queue.length + ∑ v, if cancellable (nodes v) then (nodes v).dependents.length else 0

theorem cascade_measure_le (queue : List Nat) (nodes : Fin n → TaskNode n) :
    cascade_measure queue nodes ≤ cascade_fuel queue nodes := by
  refine Nat.add_le_add_left (Finset.sum_le_sum fun v _ => ?_) _
  split
  · exact le_rfl
  · exact Nat.zero_le _

theorem cascade_measure_cancel {c : Fin n} (queue : List Nat) {nodes : Fin n → TaskNode n}
    (hc : cancellable (nodes c)) :
    cascade_measure (queue ++ (nodes c).dependents)
      (Function.update nodes c { nodes c with status := .cancelled }) + 1 =
    cascade_measure (c :: queue) nodes := by
  simp only [cascade_measure, List.length_append, List.length_cons,
    ← Finset.add_sum_erase Finset.univ _ (Finset.mem_univ c), Function.update_self,
    if_neg (not_cancellable_cancelled (nodes c)), hc, if_true]
  have hrest : ∑ v ∈ Finset.univ.erase c,
      (if cancellable (Function.update nodes c { nodes c with status := .cancelled } v) then
        (Function.update nodes c { nodes c with status := .cancelled } v).dependents.length
        else 0) =
      ∑ v ∈ Finset.univ.erase c,
        if cancellable (nodes v) then (nodes v).dependents.length else 0 :=
    Finset.sum_congr rfl fun v hv => by
      rw [Function.update_of_ne (Finset.ne_of_mem_erase hv)]
  rw [hrest]
  omega

/-- **The cascade** visits everything below its roots, except what lies behind
    a node that was terminal or running. The induction follows the loop. -/
theorem cascade_spec {fuel : Nat} {queue : List Nat} {nodes : Fin n → TaskNode n}
    (hfuel : cascade_measure queue nodes ≤ fuel) :
    Cascaded queue nodes (cascade fuel queue nodes) := by
  induction fuel generalizing queue nodes with
  | zero =>
    have hq : queue = [] := List.length_eq_zero_iff.mp (by
      simp only [cascade_measure] at hfuel; omega)
    subst hq
    exact ⟨fun v => .inl rfl, fun v h => absurd rfl h, by simp, fun u v h => absurd rfl h⟩
  | succ fuel ih =>
    cases queue with
    | nil => exact ⟨fun v => .inl rfl, fun v h => absurd rfl h, by simp, fun u v h => absurd rfl h⟩
    | cons current_id queue =>
      have hskip : cascade_measure queue nodes ≤ fuel := by
        simp only [cascade_measure, List.length_cons] at hfuel ⊢
        omega
      by_cases hlt : current_id < n
      · set c : Fin n := ⟨current_id, hlt⟩ with hc_def
        by_cases hc : cancellable (nodes c)
        · set nodes₁ := Function.update nodes c { nodes c with status := .cancelled } with hn₁
          have hstep : cascade (fuel + 1) (current_id :: queue) nodes =
              cascade fuel (queue ++ (nodes c).dependents) nodes₁ := by
            rw [cascade, dif_pos hlt, if_pos hc]
          have hfuel₁ : cascade_measure (queue ++ (nodes c).dependents) nodes₁ ≤ fuel := by
            have := cascade_measure_cancel queue hc
            change cascade_measure _ nodes₁ + 1 = cascade_measure (current_id :: queue) nodes at this
            omega
          have hrec := ih hfuel₁
          have hdep : Dependent nodes₁ = Dependent nodes := by
            funext u v
            by_cases hu : u = c
            · simp [Dependent, hn₁, hu]
            · simp [Dependent, hn₁, hu]
          have hother : ∀ v, v ≠ c → nodes₁ v = nodes v := fun v hv =>
            Function.update_of_ne hv _ _
          have hself : cascade fuel (queue ++ (nodes c).dependents) nodes₁ c =
              { nodes c with status := .cancelled } := by
            rcases hrec.change c with heq | ⟨hbad, -⟩
            · rw [heq, hn₁, Function.update_self]
            · rw [hn₁, Function.update_self] at hbad
              exact absurd hbad (not_cancellable_cancelled _)
          rw [hstep]
          refine ⟨fun v => ?_, fun v hv => ?_, fun v hv => ?_, fun u v hu huv => ?_⟩
          · by_cases hv : v = c
            · subst hv; exact .inr ⟨hc, hself⟩
            · have := hrec.change v
              rwa [hother v hv] at this
          · by_cases hvc : v = c
            · exact ⟨c, by simp [hc_def], hvc ▸ .refl⟩
            · rw [← hother v hvc] at hv
              obtain ⟨r, hr, hpath⟩ := hrec.origin v hv
              rw [hdep] at hpath
              rcases List.mem_append.mp hr with hr | hr
              · exact ⟨r, List.mem_cons_of_mem _ hr, hpath⟩
              · exact ⟨c, by simp [hc_def], .head hr hpath⟩
          · rcases List.mem_cons.mp hv with hv | hv
            · obtain rfl : v = c := Fin.ext hv
              rw [hself]
              exact not_cancellable_cancelled _
            · exact hrec.roots_closed v (List.mem_append_left _ hv)
          · by_cases huc : u = c
            · exact hrec.roots_closed v (List.mem_append_right _ (huc ▸ huv))
            · rw [← hother u huc] at hu
              exact hrec.closed u v hu (by rw [hdep]; exact huv)
        · have hstep : cascade (fuel + 1) (current_id :: queue) nodes = cascade fuel queue nodes := by
            rw [cascade, dif_pos hlt, if_neg hc]
          have hrec := ih hskip
          rw [hstep]
          refine ⟨hrec.change, fun v hv => ?_, fun v hv => ?_, hrec.closed⟩
          · obtain ⟨r, hr, hpath⟩ := hrec.origin v hv
            exact ⟨r, List.mem_cons_of_mem _ hr, hpath⟩
          · rcases List.mem_cons.mp hv with hv | hv
            · obtain rfl : v = c := Fin.ext hv
              rcases hrec.change c with heq | ⟨hbad, -⟩
              · rwa [heq]
              · exact absurd hbad hc
            · exact hrec.roots_closed v hv
      · have hstep : cascade (fuel + 1) (current_id :: queue) nodes = cascade fuel queue nodes := by
          rw [cascade, dif_neg hlt]
        have hrec := ih hskip
        rw [hstep]
        refine ⟨hrec.change, fun v hv => ?_, fun v hv => ?_, hrec.closed⟩
        · obtain ⟨r, hr, hpath⟩ := hrec.origin v hv
          exact ⟨r, List.mem_cons_of_mem _ hr, hpath⟩
        · rcases List.mem_cons.mp hv with hv | hv
          · exact absurd v.isLt (hv ▸ hlt)
          · exact hrec.roots_closed v hv

/-- **`propagate_failure`** marks the node failed and cascades from its
    dependents. -/
theorem propagate_failure_nodes (s : EventLoop n) (i : Fin n) :
    Cascaded (s.nodes i).dependents (s.set_status i .failed).nodes (s.propagate_failure i).nodes := by
  have hdeps : ((s.set_status i .failed).nodes i).dependents = (s.nodes i).dependents := by
    simp [set_status]
  have h := cascade_spec (cascade_measure_le (s.nodes i).dependents (s.set_status i .failed).nodes)
  simpa only [propagate_failure, release_allocated_nodes, hdeps] using h

/-! ### Completion -/

theorem foldl_decrement_dep (deps : List Nat) (nodes : Fin n → TaskNode n) (v : Fin n) :
    deps.foldl decrement_dep nodes v =
      { nodes v with
        pending_deps := (Word.sub 32 · 1)^[deps.count (v : Nat)] (nodes v).pending_deps } := by
  induction deps generalizing nodes with
  | nil => rfl
  | cons d deps ih =>
    rw [List.foldl_cons, ih]
    unfold decrement_dep
    by_cases hd : d < n
    · rw [dif_pos hd]
      by_cases hv : v = ⟨d, hd⟩
      · subst hv
        rw [Function.update_self, List.count_cons_self, Function.iterate_succ_apply]
      · have hne : d ≠ v := fun h => hv (Fin.ext h.symm)
        rw [Function.update_of_ne hv, List.count_cons_of_ne hne]
    · have hne : d ≠ v := fun h => hd (h ▸ v.isLt)
      rw [dif_neg hd, List.count_cons_of_ne hne]

theorem iterate_decrement {a k : Nat} (h : k ≤ a) :
    (Word.sub 32 · 1)^[k] (a % 2 ^ 32) = (a - k) % 2 ^ 32 := by
  induction k generalizing a with
  | zero => rw [Function.iterate_zero_apply, Nat.sub_zero]
  | succ k ih =>
    rw [Function.iterate_succ_apply, Word.sub_mod (by omega), ih (by omega), Nat.sub_sub,
      Nat.add_comm 1 k]

/-- **`complete_node`** marks the node completed and counts down its
    dependents. -/
theorem complete_node_nodes (s : EventLoop n) (i v : Fin n) :
    (s.complete_node i).nodes v =
      { s.nodes v with
        status := if v = i then .completed else s.status v
        pending_deps := (Word.sub 32 · 1)^[(s.nodes i).dependents.count (v : Nat)]
          (s.nodes v).pending_deps } := by
  have hdeps : ((s.set_status i .completed).nodes i).dependents = (s.nodes i).dependents := by
    simp [set_status]
  simp only [complete_node, release_allocated_nodes, foldl_decrement_dep, hdeps]
  by_cases hv : v = i
  · subst hv; simp [set_status]
  · simp [set_status, hv, status]

/-! ### One iteration of the dispatch loop -/

/-- **`dispatch_front`**: what one iteration does before the callback. -/
theorem dispatch_front_spec (s : EventLoop n) :
    match s.dispatch_front with
    | .stop s' => s' = s ∨ ∃ i pool ranks, ranks.size = 0 ∧
        s.rank_pool.try_allocate (s.nodes i).required_ranks = .ok (pool, ranks) ∧
        s' = { s with rank_pool := pool }
    | .skipped s' => ∃ rest, s' = { s with ready_queue := rest }
    | .called i s' => s.status i = .ready ∧ ∃ rest pool ranks, ranks.size ≠ 0 ∧
        s.rank_pool.try_allocate (s.nodes i).required_ranks = .ok (pool, ranks) ∧
        s' = { s.set_status i .running with
          rank_pool := pool
          ready_queue := rest
          in_flight := Word.add 32 s.in_flight 1
          allocated_ranks := Function.update s.allocated_ranks i ranks }
    | .threw msg => ∃ i, s.status i = .ready ∧
        s.rank_pool.try_allocate (s.nodes i).required_ranks = .error msg := by
  unfold dispatch_front
  cases s.ready_queue with
  | nil => exact .inl rfl
  | cons i rest =>
    simp only
    by_cases hcap : s.in_flight ≥ s.max_concurrency
    · simp [hcap]
    by_cases hready : s.status i = .ready
    · cases halloc : s.rank_pool.try_allocate (s.nodes i).required_ranks with
      | error msg =>
        simp only [hcap, if_false, hready, ne_eq, not_true_eq_false]
        exact ⟨i, hready, halloc⟩
      | ok res =>
        obtain ⟨pool, ranks⟩ := res
        simp only [hcap, if_false, hready, ne_eq, not_true_eq_false]
        by_cases hempty : ranks.size = 0
        · rw [if_pos hempty]
          exact .inr ⟨i, pool, ranks, hempty, halloc, rfl⟩
        · rw [if_neg hempty]
          exact ⟨hready, rest, pool, ranks, hempty, halloc, rfl⟩
    · simp only [hcap, if_false, ne_eq, hready, not_false_eq_true, if_true]
      exact ⟨rest, rfl⟩

end EventLoop

/-! ## Section 4: The loop as a transition system -/

/-- Where the loop stands between two steps. -/
inductive Phase (n : Nat)
  /-- Between two calls of `cycle`. -/
  | idle
  /-- At the head of the dispatch loop. -/
  | dispatching
  /-- Inside the dispatch callback of node `i`. -/
  | calling (i : Fin n)
  /-- Inside the completion callback. -/
  | collecting
  /-- At the head of the completion loop. -/
  | completing (completions : List (Nat × Bool))
  deriving DecidableEq

/-- The steps of the loop. The callbacks are the environment: what they return
    is part of the label. -/
inductive LoopLabel
  | poll
  | dispatch
  | returned (result : DispatchResult)
  | report (completions : List (Nat × Bool))
  | complete
  | finish
  deriving DecidableEq

/-- The state of a run. -/
structure LoopState (n : Nat) where
  loop : EventLoop n
  phase : Phase n
  /-- The nodes passed to the dispatch callback so far, in order. -/
  dispatched : List (Fin n)

namespace LoopState

/-- One step of the loop. -/
def next (s : LoopState n) (l : LoopLabel) : Option (LoopState n) :=
  match s.phase, l with
  | .idle, .poll => some { s with loop := s.loop.poll_ready_nodes, phase := .dispatching }
  | .dispatching, .dispatch =>
    match s.loop.dispatch_front with
    | .stop loop => some { s with loop, phase := .collecting }
    | .skipped loop => some { s with loop, phase := .dispatching }
    | .called i loop => some { loop, phase := .calling i, dispatched := s.dispatched ++ [i] }
    | .threw _ => some { s with phase := .idle }
  | .calling i, .returned r =>
    some { s with loop := s.loop.dispatch_returned i r, phase := .dispatching }
  | .collecting, .report cs => some { s with phase := .completing cs }
  | .completing (c :: cs), .complete =>
    some { s with loop := s.loop.process_completion c, phase := .completing cs }
  | .completing [], .finish => some { s with phase := .idle }
  | _, _ => none

/-- **Everything a step can do.** The invariants are proved from this list. -/
inductive Effect (s : LoopState n) : LoopState n → Prop
  /-- Only the phase moves. -/
  | control (phase : Phase n) (hphase : ∀ i, phase ≠ .calling i) : Effect s { s with phase }
  | poll : Effect s { s with loop := s.loop.poll_ready_nodes, phase := .dispatching }
  /-- The node at the front finds too few ranks and stays there. -/
  | wait (i : Fin n) (pool : RankPool) (ranks : OrdSet Int) (hempty : ranks.size = 0)
      (halloc : s.loop.rank_pool.try_allocate (s.loop.nodes i).required_ranks = .ok (pool, ranks)) :
      Effect s { s with loop := { s.loop with rank_pool := pool }, phase := .collecting }
  /-- A node that is not ready leaves the queue. -/
  | skip (rest : List (Fin n)) :
      Effect s { s with loop := { s.loop with ready_queue := rest }, phase := .dispatching }
  /-- Node `i` starts to run on `ranks`. -/
  | start (i : Fin n) (rest : List (Fin n)) (pool : RankPool) (ranks : OrdSet Int)
      (hready : s.loop.status i = .ready) (hslot : s.loop.in_flight < s.loop.max_concurrency)
      (hsome : ranks.size ≠ 0)
      (halloc : s.loop.rank_pool.try_allocate (s.loop.nodes i).required_ranks = .ok (pool, ranks)) :
      Effect s
        { loop :=
            { s.loop.set_status i .running with
              rank_pool := pool
              ready_queue := rest
              in_flight := Word.add 32 s.loop.in_flight 1
              allocated_ranks := Function.update s.loop.allocated_ranks i ranks }
          phase := .calling i
          dispatched := s.dispatched ++ [i] }
  /-- Node `i` fails, in its dispatch callback or by report. -/
  | fail (i : Fin n) (phase : Phase n) (hphase : ∀ j, phase ≠ .calling j)
      (hi : s.phase = .calling i ∨ s.loop.status i = .running) :
      Effect s { s with loop := s.loop.propagate_failure i, phase }
  /-- Node `i` is reported completed. -/
  | complete (i : Fin n) (phase : Phase n) (hphase : ∀ j, phase ≠ .calling j)
      (hrunning : s.loop.status i = .running) :
      Effect s { s with loop := s.loop.complete_node i, phase }

theorem dispatch_effect {s s' : LoopState n} (hphase : s.phase = .dispatching)
    (h : s.next .dispatch = some s') : Effect s s' := by
  simp only [next, hphase] at h
  unfold EventLoop.dispatch_front at h
  cases hq : s.loop.ready_queue with
  | nil =>
    simp only [hq, Option.some.injEq] at h
    subst h
    exact .control .collecting (by simp)
  | cons i rest =>
    simp only [hq] at h
    by_cases hcap : s.loop.in_flight ≥ s.loop.max_concurrency
    · simp only [if_pos hcap, Option.some.injEq] at h
      subst h
      exact .control .collecting (by simp)
    by_cases hready : s.loop.status i = .ready
    · cases halloc : s.loop.rank_pool.try_allocate (s.loop.nodes i).required_ranks with
      | error msg =>
        simp only [if_neg hcap, hready, ne_eq, not_true_eq_false, if_false, halloc,
          Option.some.injEq] at h
        subst h
        exact .control .idle (by simp)
      | ok res =>
        obtain ⟨pool, ranks⟩ := res
        simp only [if_neg hcap, hready, ne_eq, not_true_eq_false, if_false, halloc] at h
        by_cases hempty : ranks.size = 0
        · simp only [if_pos hempty, Option.some.injEq] at h
          subst h
          simpa only [hq] using Effect.wait i pool ranks hempty halloc
        · simp only [if_neg hempty, Option.some.injEq] at h
          subst h
          exact .start i rest pool ranks hready (not_le.mp hcap) hempty halloc
    · simp only [if_neg hcap, ne_eq, hready, not_false_eq_true, if_true, Option.some.injEq] at h
      subst h
      exact .skip rest

theorem completion_effect (s : LoopState n) (c : Nat × Bool) (cs : List (Nat × Bool)) :
    Effect s { s with loop := s.loop.process_completion c, phase := .completing cs } := by
  unfold EventLoop.process_completion
  by_cases hlt : c.1 < n
  · rw [dif_pos hlt]
    by_cases hrun : s.loop.status ⟨c.1, hlt⟩ = .running
    · rw [if_neg (not_not.mpr hrun)]
      by_cases hok : c.2 = true
      · rw [if_pos hok]
        exact .complete _ _ (by simp) hrun
      · rw [if_neg hok]
        exact .fail _ _ (by simp) (.inr hrun)
    · rw [if_pos hrun]
      exact .control _ (by simp)
  · rw [dif_neg hlt]
    exact .control _ (by simp)

theorem next_effect {s s' : LoopState n} {l : LoopLabel} (h : s.next l = some s') :
    Effect s s' := by
  cases hphase : s.phase with
  | idle =>
    cases l <;> simp only [next, hphase, reduceCtorEq, Option.some.injEq] at h
    subst h
    exact .poll
  | dispatching =>
    cases l with
    | dispatch => exact dispatch_effect hphase h
    | _ => simp only [next, hphase, reduceCtorEq] at h
  | calling i =>
    cases l with
    | returned r =>
      simp only [next, hphase, Option.some.injEq] at h
      subst h
      cases r with
      | succeeded => exact .control .dispatching (by simp)
      | refused => exact .fail i .dispatching (by simp) (.inl hphase)
      | threw => exact .fail i .dispatching (by simp) (.inl hphase)
    | _ => simp only [next, hphase, reduceCtorEq] at h
  | collecting =>
    cases l <;> simp only [next, hphase, reduceCtorEq, Option.some.injEq] at h
    subst h
    exact .control _ (by simp)
  | completing cs =>
    cases cs with
    | nil =>
      cases l <;> simp only [next, hphase, reduceCtorEq, Option.some.injEq] at h
      subst h
      exact .control .idle (by simp)
    | cons c cs =>
      cases l <;> simp only [next, hphase, reduceCtorEq, Option.some.injEq] at h
      subst h
      exact completion_effect s c cs

end LoopState

/-- A run starts from a freshly populated graph and a fresh pool. -/
def LoopInit (cfg : PipelineConfig) (ranks : OrdSet Int) (s : LoopState cfg.num_tasks) : Prop :=
  EventLoop.make cfg.max_concurrency cfg.populate_nodes (RankPool.make ranks) = .ok s.loop ∧
    s.phase = .idle ∧ s.dispatched = []

/-- The event loop of a pipeline on a set of ranks: any number of calls of
    `cycle`, with arbitrary callbacks. -/
def loopSystem (cfg : PipelineConfig) (ranks : OrdSet Int) :
    System (LoopState cfg.num_tasks) LoopLabel :=
  .ofNext (LoopInit cfg ranks) LoopState.next

theorem loopSystem_effect {cfg : PipelineConfig} {ranks : OrdSet Int}
    {s s' : LoopState cfg.num_tasks} {l : LoopLabel} (h : (loopSystem cfg ranks).step s l s') :
    s.Effect s' :=
  LoopState.next_effect h

theorem LoopInit.loop_eq {cfg : PipelineConfig} {ranks : OrdSet Int} {s : LoopState cfg.num_tasks}
    (h : LoopInit cfg ranks s) :
    1 ≤ cfg.max_concurrency ∧ cfg.max_concurrency ≤ 1024 ∧
    s.loop = ⟨cfg.max_concurrency, cfg.populate_nodes, .make ranks, [], 0, fun _ => .empty⟩ := by
  have h := h.1
  unfold EventLoop.make at h
  split at h
  · cases h
  · next hrange =>
    rw [not_or] at hrange
    exact ⟨by omega, by omega, (Except.ok.inj h).symm⟩

/-! ## Section 5: cycle is a run -/

namespace EventLoop

/-- The nodes that `dispatch_loop` passes to the dispatch callback, in order. -/
def dispatch_trace (dispatch_cb : Fin n → OrdSet Int → DispatchResult) :
    Nat → EventLoop n → List (Fin n)
  | 0, _ => []
  | fuel + 1, s =>
    match s.dispatch_front with
    | .stop _ => []
    | .skipped s => dispatch_trace dispatch_cb fuel s
    | .called i s =>
      i :: dispatch_trace dispatch_cb fuel
        (s.dispatch_returned i (dispatch_cb i (s.allocated_ranks i)))
    | .threw _ => []

/-- The nodes dispatched by one call of `cycle`. -/
def cycle_trace (dispatch_cb : Fin n → OrdSet Int → DispatchResult) (s : EventLoop n) :
    List (Fin n) :=
  s.poll_ready_nodes.dispatch_trace dispatch_cb (s.poll_ready_nodes.ready_queue.length + 1)

end EventLoop

namespace LoopState

open System

theorem dispatch_front_queue (s : EventLoop n) :
    match s.dispatch_front with
    | .skipped s' => s'.ready_queue.length + 1 = s.ready_queue.length
    | .called _ s' => s'.ready_queue.length + 1 = s.ready_queue.length
    | _ => True := by
  unfold EventLoop.dispatch_front
  cases s.ready_queue with
  | nil => trivial
  | cons i rest =>
    simp only
    by_cases hcap : s.in_flight ≥ s.max_concurrency
    · simp [hcap]
    by_cases hready : s.status i = .ready
    · cases s.rank_pool.try_allocate (s.nodes i).required_ranks with
      | error msg => simp [hcap, hready]
      | ok res => by_cases hempty : res.2.size = 0 <;> simp [hcap, hready, hempty]
    · simp [hcap, hready]

theorem dispatch_returned_ready_queue (s : EventLoop n) (i : Fin n) (r : DispatchResult) :
    (s.dispatch_returned i r).ready_queue = s.ready_queue := by
  cases r <;> simp [EventLoop.dispatch_returned, EventLoop.propagate_failure]

variable (init : LoopState n → Prop)

theorem dispatch_loop_log (cb : Fin n → OrdSet Int → DispatchResult) (fuel : Nat)
    (s : EventLoop n) (d : List (Fin n)) (hfuel : s.ready_queue.length < fuel) :
    ∃ ls, (ofNext init next).Steps ⟨s, .dispatching, d⟩ ls
      ⟨(s.dispatch_loop cb fuel).1,
        if (s.dispatch_loop cb fuel).2.isSome then .idle else .collecting,
        d ++ s.dispatch_trace cb fuel⟩ := by
  induction fuel generalizing s d with
  | zero => omega
  | succ fuel ih =>
    have hlen := dispatch_front_queue s
    cases hfront : s.dispatch_front with
    | stop s' =>
      refine ⟨[.dispatch], .cons (t := ⟨s', .collecting, d⟩) ?_ ?_⟩
      · simp [next, hfront]
      · simpa [EventLoop.dispatch_loop, EventLoop.dispatch_trace, hfront] using Steps.nil _
    | skipped s' =>
      simp only [hfront] at hlen
      obtain ⟨ls, hrun⟩ := ih s' d (by omega)
      refine ⟨.dispatch :: ls, .cons (t := ⟨s', .dispatching, d⟩) ?_ ?_⟩
      · simp [next, hfront]
      · simpa only [EventLoop.dispatch_loop, EventLoop.dispatch_trace, hfront] using hrun
    | called i s' =>
      simp only [hfront] at hlen
      obtain ⟨ls, hrun⟩ := ih (s'.dispatch_returned i (cb i (s'.allocated_ranks i)))
        (d ++ [i]) (by rw [dispatch_returned_ready_queue]; omega)
      set r := cb i (s'.allocated_ranks i)
      have hcall : (ofNext init next).step ⟨s, .dispatching, d⟩ .dispatch
          ⟨s', .calling i, d ++ [i]⟩ := by simp [next, hfront]
      have hreturn : (ofNext init next).step ⟨s', .calling i, d ++ [i]⟩ (.returned r)
          ⟨s'.dispatch_returned i r, .dispatching, d ++ [i]⟩ := rfl
      refine ⟨.dispatch :: .returned r :: ls, .cons hcall (.cons hreturn ?_)⟩
      rw [List.append_assoc, List.singleton_append] at hrun
      simpa only [EventLoop.dispatch_loop, EventLoop.dispatch_trace, hfront] using hrun
    | threw msg =>
      refine ⟨[.dispatch], .cons (t := ⟨s, .idle, d⟩) ?_ ?_⟩
      · simp [next, hfront]
      · simpa [EventLoop.dispatch_loop, EventLoop.dispatch_trace, hfront] using Steps.nil _

theorem process_completions_steps (cs : List (Nat × Bool)) (s : EventLoop n) (d : List (Fin n)) :
    ∃ ls, (ofNext init next).Steps ⟨s, .completing cs, d⟩ ls
      ⟨s.process_completions cs, .idle, d⟩ := by
  induction cs generalizing s with
  | nil =>
    have hfinish : (ofNext init next).step ⟨s, .completing [], d⟩ .finish ⟨s, .idle, d⟩ := rfl
    exact ⟨[.finish], .cons hfinish (.nil _)⟩
  | cons c cs ih =>
    obtain ⟨ls, hrun⟩ := ih (s.process_completion c)
    have hcomplete : (ofNext init next).step ⟨s, .completing (c :: cs), d⟩ .complete
      ⟨s.process_completion c, .completing cs, d⟩ := rfl
    exact ⟨.complete :: ls, .cons hcomplete hrun⟩

/-- **`cycle` is a run** of the transition system, whatever the callbacks do
    and whether or not it throws, and it logs what it dispatches. -/
theorem cycle_log (cb : Fin n → OrdSet Int → DispatchResult) (cs : List (Nat × Bool))
    (s : EventLoop n) (d : List (Fin n)) :
    ∃ ls, (ofNext init next).Steps ⟨s, .idle, d⟩ ls
      ⟨(s.cycle cb cs).1, .idle, d ++ s.cycle_trace cb⟩ := by
  obtain ⟨ls, hdispatch⟩ := dispatch_loop_log init cb
    (s.poll_ready_nodes.ready_queue.length + 1) s.poll_ready_nodes d (Nat.lt_succ_self _)
  have hpoll : (ofNext init next).step ⟨s, .idle, d⟩ .poll
      ⟨s.poll_ready_nodes, .dispatching, d⟩ := rfl
  unfold EventLoop.cycle EventLoop.dispatch_ready_nodes EventLoop.cycle_trace
  set d' := d ++ s.poll_ready_nodes.dispatch_trace cb (s.poll_ready_nodes.ready_queue.length + 1)
  rcases hres : s.poll_ready_nodes.dispatch_loop cb
    (s.poll_ready_nodes.ready_queue.length + 1) with ⟨s', msg⟩
  rw [hres] at hdispatch
  cases msg with
  | some msg => exact ⟨.poll :: ls, .cons hpoll hdispatch⟩
  | none =>
    obtain ⟨ls', hcomplete⟩ := process_completions_steps init cs s' d'
    have hreport : (ofNext init next).step ⟨s', .collecting, d'⟩ (.report cs)
      ⟨s', .completing cs, d'⟩ := rfl
    exact ⟨_, .cons hpoll (hdispatch.append (.cons hreport hcomplete))⟩

end LoopState

end Dagr
