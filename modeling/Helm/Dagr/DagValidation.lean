import Helm.Framework.Kahn
import Helm.Dagr.DependencyOrder

/-! # Validation of task graphs

  A task graph is checked twice, by `parse_pipeline` when the dependencies
  have been read and by `validate_dag` in the constructor of the
  orchestrator. Both run Kahn's algorithm on vectors of 32-bit counters.
  `parse_pipeline` has the dependencies by task name, `validate_dag` by
  task number.

  The loop of the two functions simulates the loop of the library as long
  as no in-degree exceeds the counters.

  Main results:
  - `validations_agree`: both accept the valid graphs and no others, and
    the loop visits no node twice and decrements no counter at zero
  - `flooded_rejected` and `many_tasks_rejected`: what happens beyond the
    counters
-/

namespace Dagr

open LTS PipelineConfig

/-! ## Section 1: Model -/

/-- The variables of the loop. -/
structure SortState where
  queue : List Nat
  in_degree : Nat → Nat
  sorted_count : Nat
  /-- The rest of the dependents of the node that was taken from the queue. -/
  deps : List Nat

namespace SortState

/-- One decrement of the inner loop, or the next node of the queue. -/
def next (downstream : Nat → List Nat) (s : SortState) : Option (Kahn.Label Nat × SortState) :=
  match s.deps, s.queue with
  | dep :: deps, queue =>
    let d := Word.sub 32 (s.in_degree dep) 1
    some (.relax dep, { s with
      in_degree := Function.update s.in_degree dep d
      queue := if d = 0 then queue ++ [dep] else queue
      deps := deps })
  | [], node :: queue =>
    some (.visit node, { s with
      queue := queue, sorted_count := Word.add 32 s.sorted_count 1, deps := downstream node })
  | [], [] => none

def start (num_tasks : Nat) (in_degree : Nat → Nat) : SortState where
  queue := (List.range num_tasks).filter fun i => in_degree i = 0
  in_degree := in_degree
  sorted_count := 0
  deps := []

/-- The loop of both functions on the edges of a graph. -/
def sort (fuel num_tasks : Nat) (edges : List DependencyEdge) : Option SortState :=
  Kahn.finish (next (downstream edges)) fuel
    (start num_tasks (PipelineConfig.in_degree edges))

end SortState

/-- `path.find(" -> ") != npos` -/
def contains_arrow (path : String) : Bool := 1 < (path.splitOn " -> ").length

/-- The names of the first two nodes that are left. -/
def cycle_path (task_names : List String) (in_degree : Nat → Nat) : List Nat → String → String
  | [], path => path
  | i :: is, path =>
    if in_degree i > 0 then
      let path := (if path = "" then path else path ++ " -> ") ++ task_names.getD i ""
      if contains_arrow path then path else cycle_path task_names in_degree is path
    else cycle_path task_names in_degree is path

/-- The first endpoint that is not a task. -/
def unresolved (num_tasks : Nat) (edges : List DependencyEdge) : Option Nat :=
  edges.findSome? fun edge =>
    if edge.producer_id ≥ num_tasks then some edge.producer_id
    else if edge.consumer_id ≥ num_tasks then some edge.consumer_id
    else none

/-- `validate_dag`, where `none` says that the loop takes more than `fuel` steps. -/
def validate_dag (fuel : Nat) (cfg : PipelineConfig) : Option (Except String Unit) :=
  match unresolved cfg.num_tasks cfg.edges with
  | some id => some (.error ("GraphOrchestrator: edge references unresolved task ID " ++ toString id))
  | none =>
    (SortState.sort fuel cfg.num_tasks cfg.edges).map fun s =>
      if s.sorted_count ≠ cfg.num_tasks then
        .error ("GraphOrchestrator: cycle detected in task dependencies: " ++
          cycle_path cfg.task_names s.in_degree (List.range cfg.num_tasks) "")
      else .ok ()

/-- `task_index[task_name] = static_cast<std::uint32_t>(i)` -/
def enter_task (index : String → Option Nat) (task : String × Nat) : String → Option Nat :=
  Function.update index task.1 (some (task.2 % 2 ^ 32))

/-- `task_index`: a name that occurs twice stands for the later task. -/
def task_index (task_names : List String) : String → Option Nat :=
  task_names.zipIdx.foldl enter_task fun _ => none

/-- The loop over the dependencies, each given by `from` and `to`. -/
def dependency_edges (index : String → Option Nat) :
    List (String × String) → Except String (List DependencyEdge)
  | [] => .ok []
  | (from_name, to_name) :: deps =>
    match index from_name, index to_name with
    | none, _ => .error ("dependency references unknown task '" ++ from_name ++ "'")
    | some _, none => .error ("dependency references unknown task '" ++ to_name ++ "'")
    | some producer_id, some consumer_id => do
      let edges ← dependency_edges index deps
      return ⟨producer_id, consumer_id⟩ :: edges

/-- The tasks and dependencies part of `parse_pipeline`, which returns the
    edges that it puts into the configuration. -/
def parse_dependencies (fuel : Nat) (task_names : List String) (deps : List (String × String)) :
    Option (Except String (List DependencyEdge)) :=
  match dependency_edges (task_index task_names) deps with
  | .error what => some (.error what)
  | .ok edges =>
    if task_names.length > 0 then
      let num_tasks := task_names.length % 2 ^ 32
      (SortState.sort fuel num_tasks edges).map fun s =>
        if s.sorted_count ≠ num_tasks then
          .error ("cycle detected in task dependencies: " ++
            cycle_path task_names s.in_degree (List.range num_tasks) "")
        else .ok edges
    else some (.ok edges)

/-! ## Section 2: The graph of a configuration -/

/-- The endpoints of the edges are tasks. -/
def InRange (num_tasks : Nat) (edges : List DependencyEdge) : Prop :=
  ∀ e ∈ edges, e.producer_id < num_tasks ∧ e.consumer_id < num_tasks

theorem unresolved_eq_none {num_tasks : Nat} {edges : List DependencyEdge} :
    unresolved num_tasks edges = none ↔ InRange num_tasks edges := by
  unfold unresolved InRange
  rw [List.findSome?_eq_none_iff]
  apply forall₂_congr
  intro e _
  split
  · simp
    omega
  · split <;> simp <;> omega

/-- The nodes and edges as Kahn's algorithm sees them. -/
def task_graph {num_tasks : Nat} {edges : List DependencyEdge} (h : InRange num_tasks edges) :
    Kahn.Graph Nat where
  nodes := List.range num_tasks
  downstream := downstream edges
  nodup := List.nodup_range
  closed := by
    intro u _ v hv
    exact List.mem_range.mpr (h _ (mem_downstream.mp hv)).2

section Graph

variable {num_tasks : Nat} {edges : List DependencyEdge}

theorem sum_downstream (h : ∀ e ∈ edges, e.producer_id < num_tasks) (v : Nat) :
    ∑ u ∈ Finset.range num_tasks, (downstream edges u).count v =
      edges.countP (·.consumer_id = v) := by
  simp only [count_downstream]
  induction edges with
  | nil => simp
  | cons e edges ih =>
    have he := h e List.mem_cons_self
    have hrest := ih fun e' he' => h e' (List.mem_cons_of_mem _ he')
    simp only [List.countP_cons, Finset.sum_add_distrib, hrest, decide_eq_true_eq]
    congr 1
    by_cases hv : e.consumer_id = v
    · simp [hv, he]
    · simp [hv]

theorem incoming_task_graph (h : InRange num_tasks edges) (v : Nat) :
    (task_graph h).incoming v = edges.countP (·.consumer_id = v) := by
  unfold Kahn.Graph.incoming
  rw [← sum_downstream fun e he => (h e he).1]
  apply Finset.sum_congr
  · ext u
    simp [task_graph]
  · exact fun _ _ => rfl

theorem sum_length_downstream (h : ∀ e ∈ edges, e.producer_id < num_tasks) :
    ∑ u ∈ Finset.range num_tasks, (downstream edges u).length = edges.length := by
  simp only [downstream_eq, List.length_map, ← List.countP_eq_length_filter]
  induction edges with
  | nil => simp
  | cons e edges ih =>
    have he := h e List.mem_cons_self
    have hrest := ih fun e' he' => h e' (List.mem_cons_of_mem _ he')
    simp only [List.countP_cons, Finset.sum_add_distrib, hrest, decide_eq_true_eq,
      List.length_cons]
    congr 1
    simp [he]

theorem work_task_graph (h : InRange num_tasks edges) :
    Kahn.work (task_graph h) (Kahn.start (task_graph h)) = num_tasks + edges.length := by
  rw [Kahn.work_start]
  have hnodes : (task_graph h).nodes.toFinset = Finset.range num_tasks := by
    ext u
    simp [task_graph]
  rw [hnodes, Finset.sum_add_distrib, Finset.sum_const, Finset.card_range, smul_eq_mul, mul_one]
  exact congrArg _ (sum_length_downstream fun e he => (h e he).1)

end Graph

theorem valid_iff {cfg : PipelineConfig} (h : InRange cfg.num_tasks cfg.edges) :
    cfg.Valid ↔ (task_graph h).Acyclic := by
  have hedge : ∀ u v : Fin cfg.num_tasks, cfg.Edge u v → (task_graph h).Edge u v := by
    intro u v he
    exact ⟨List.mem_range.mpr u.isLt, mem_downstream.mpr he⟩
  have hback : ∀ a b : Nat, Relation.TransGen (task_graph h).Edge a b →
      ∃ u v : Fin cfg.num_tasks, (u : Nat) = a ∧ (v : Nat) = b ∧ cfg.Downstream u v := by
    have hone : ∀ a b : Nat, (task_graph h).Edge a b →
        ∃ u v : Fin cfg.num_tasks, (u : Nat) = a ∧ (v : Nat) = b ∧ cfg.Edge u v := by
      intro a b hab
      have he := mem_downstream.mp hab.2
      exact ⟨⟨a, (h _ he).1⟩, ⟨b, (h _ he).2⟩, rfl, rfl, he⟩
    intro a b hab
    induction hab with
    | single hab =>
      obtain ⟨u, v, hu, hv, he⟩ := hone _ _ hab
      exact ⟨u, v, hu, hv, .single he⟩
    | tail _ hbc ih =>
      obtain ⟨u, v, hu, hv, huv⟩ := ih
      obtain ⟨v', w, hv', hw, he⟩ := hone _ _ hbc
      obtain rfl : v' = v := Fin.ext (hv'.trans hv.symm)
      exact ⟨u, w, hu, hw, huv.tail he⟩
  constructor
  · intro hvalid a hcycle
    obtain ⟨u, v, hu, hv, huv⟩ := hback a a hcycle
    obtain rfl : u = v := Fin.ext (hu.trans hv.symm)
    exact hvalid.acyclic u huv
  · intro hacyclic
    refine ⟨fun e he => (h e he).1, fun e he => (h e he).2, ?_⟩
    intro v hcycle
    exact hacyclic v (Relation.TransGen.lift Fin.val hedge v v hcycle)

theorem valid_inRange {cfg : PipelineConfig} (h : cfg.Valid) : InRange cfg.num_tasks cfg.edges :=
  fun e he => ⟨h.producer_lt e he, h.consumer_lt e he⟩

/-! ## Section 3: The counters of the loop -/

/-- The loop is at the same point as Kahn's algorithm. -/
structure Simulates {G : Kahn.Graph Nat} (s : SortState) (t : Kahn.State Nat) : Prop where
  queue : s.queue = t.queue
  in_degree : s.in_degree = t.in_degree
  deps : s.deps = t.deps
  sorted_count : s.sorted_count = t.sorted.length
  inv : Kahn.Inv G t
  bounded : ∀ v, t.in_degree v < 2 ^ 32

section Simulation

variable {G : Kahn.Graph Nat} {s : SortState} {t t' : Kahn.State Nat} {l : Kahn.Label Nat}

theorem next_none (hst : Simulates (G := G) s t) (hnone : Kahn.next G t = none) :
    s.next G.downstream = none := by
  obtain ⟨hqueue, hdeps⟩ := Kahn.next_eq_none.mp hnone
  unfold SortState.next
  rw [hst.deps, hst.queue, hdeps, hqueue]

theorem next_some (hsize : G.nodes.length < 2 ^ 32) (hst : Simulates (G := G) s t)
    (hstep : Kahn.next G t = some (l, t')) :
    ∃ s', s.next G.downstream = some (l, s') ∧ Simulates (G := G) s' t' := by
  have hinv := hst.inv.next hstep
  have hlength := hinv.length_sorted_le
  unfold Kahn.next at hstep
  split at hstep
  · next v deps hdeps =>
    obtain ⟨rfl, rfl⟩ := Prod.mk.inj (Option.some.inj hstep)
    have hpos := hst.inv.in_degree_pos (hdeps ▸ List.mem_cons_self)
    have hsub : Word.sub 32 (s.in_degree v) 1 = t.in_degree v - 1 := by
      rw [hst.in_degree]
      exact Word.sub_of_le (hst.bounded v) hpos
    refine ⟨{ s with
      in_degree := Function.update s.in_degree v (t.in_degree v - 1)
      queue := if t.in_degree v - 1 = 0 then s.queue ++ [v] else s.queue
      deps := deps }, by simp only [SortState.next, hst.deps, hdeps, hsub], ?_⟩
    refine ⟨?_, ?_, rfl, hst.sorted_count, hinv, ?_⟩
    · dsimp only
      rw [hst.queue]
    · dsimp only
      rw [hst.in_degree]
    · intro w
      dsimp only
      by_cases hw : w = v
      · rw [hw, Function.update_self]
        exact (Nat.sub_le _ _).trans_lt (hst.bounded v)
      · rw [Function.update_of_ne hw]
        exact hst.bounded w
  · next v queue hdeps hqueue =>
    obtain ⟨rfl, rfl⟩ := Prod.mk.inj (Option.some.inj hstep)
    refine ⟨{ s with
      queue := queue, sorted_count := Word.add 32 s.sorted_count 1, deps := G.downstream v },
      by simp only [SortState.next, hst.deps, hst.queue, hdeps, hqueue], ?_⟩
    refine ⟨rfl, hst.in_degree, rfl, ?_, hinv, hst.bounded⟩
    dsimp only at hlength ⊢
    rw [List.length_append, List.length_singleton] at hlength ⊢
    rw [hst.sorted_count, Word.add_of_lt (by omega)]
  · cases hstep

end Simulation

section Sorting

variable {num_tasks : Nat} {edges : List DependencyEdge}

theorem simulates_start (h : InRange num_tasks edges)
    (hin : ∀ v, edges.countP (·.consumer_id = v) < 2 ^ 32) :
    Simulates (G := task_graph h) (SortState.start num_tasks (PipelineConfig.in_degree edges))
      (Kahn.start (task_graph h)) := by
  have hdegree : PipelineConfig.in_degree edges = (task_graph h).incoming := by
    funext v
    rw [in_degree_eq, incoming_task_graph, Nat.mod_eq_of_lt (hin v)]
  refine ⟨?_, hdegree, rfl, rfl, Kahn.inv_start _, ?_⟩
  · unfold SortState.start Kahn.start
    rw [hdegree]
    rfl
  · intro v
    rw [show (Kahn.start (task_graph h)).in_degree v = (task_graph h).incoming v from rfl,
      incoming_task_graph]
    exact hin v

theorem sort_returns (h : InRange num_tasks edges) (hsize : num_tasks < 2 ^ 32)
    (hin : ∀ v, edges.countP (·.consumer_id = v) < 2 ^ 32) {fuel : Nat}
    (hfuel : num_tasks + edges.length ≤ fuel) :
    ∃ s, SortState.sort fuel num_tasks edges = some s ∧
      (s.sorted_count = num_tasks ↔ (task_graph h).Acyclic) := by
  have hnodes : (task_graph h).nodes.length = num_tasks := List.length_range
  have hstart := simulates_start h hin
  have hwork : Kahn.work (task_graph h) (Kahn.start (task_graph h)) ≤ fuel := by
    rw [work_task_graph]
    exact hfuel
  obtain ⟨t, hfinish, hinv, hend⟩ := Kahn.finish_returns (Kahn.inv_start (task_graph h)) hwork
  obtain ⟨s, hsort, hst⟩ := Kahn.finish_simulates
    (R := Simulates (G := task_graph h)) (fun _ _ => next_none)
    (fun _ _ _ _ => next_some (by rw [hnodes]; exact hsize)) hstart hfinish
  refine ⟨s, hsort, ?_⟩
  rw [hst.sorted_count, ← hinv.all_sorted_iff hend, hnodes]

/-- The loop as a system, with what it visits and decrements as labels. -/
def sort_system (num_tasks : Nat) (edges : List DependencyEdge) :
    System SortState (Kahn.Label Nat) where
  init := (· = SortState.start num_tasks (PipelineConfig.in_degree edges))
  step := fun s l s' => s.next (downstream edges) = some (l, s')

theorem simulates_steps (h : InRange num_tasks edges) (hsize : num_tasks < 2 ^ 32)
    {s s' : SortState} {t : Kahn.State Nat} {ls : List (Kahn.Label Nat)}
    (hst : Simulates (G := task_graph h) s t)
    (hsteps : (sort_system num_tasks edges).Steps s ls s') :
    ∃ t', (Kahn.system (task_graph h)).Steps t ls t' ∧ Simulates (G := task_graph h) s' t' := by
  have hnodes : (task_graph h).nodes.length < 2 ^ 32 := by
    rw [show (task_graph h).nodes.length = num_tasks from List.length_range]
    exact hsize
  induction hsteps generalizing t with
  | nil s => exact ⟨t, .nil t, hst⟩
  | @cons s s₁ s₂ l ls hstep _ ih =>
    have hstep : s.next (task_graph h).downstream = some (l, s₁) := hstep
    cases hnext : Kahn.next (task_graph h) t with
    | none =>
      rw [next_none hst hnext] at hstep
      cases hstep
    | some step =>
      obtain ⟨l', t₁⟩ := step
      obtain ⟨s₁', hs₁, hst₁⟩ := next_some hnodes hst hnext
      obtain ⟨rfl, rfl⟩ := Prod.mk.inj (Option.some.inj (hs₁.symm.trans hstep))
      obtain ⟨t', ht', hst'⟩ := ih hst₁
      exact ⟨t', .cons hnext ht', hst'⟩

/-- **No task is visited twice, and no counter underflows.** -/
theorem sort_safe (h : InRange num_tasks edges) (hsize : num_tasks < 2 ^ 32)
    (hin : ∀ v, edges.countP (·.consumer_id = v) < 2 ^ 32) {s : SortState}
    {ls : List (Kahn.Label Nat)} (hsteps : (sort_system num_tasks edges).Steps
      (SortState.start num_tasks (PipelineConfig.in_degree edges)) ls s) :
    (Kahn.visits ls).Nodup ∧ (∀ v ∈ Kahn.visits ls, v < num_tasks) ∧
      ∀ v ∈ s.deps, 0 < s.in_degree v := by
  obtain ⟨t, ht, hst⟩ := simulates_steps h hsize (simulates_start h hin) hsteps
  obtain ⟨hnodup, hnodes⟩ := Kahn.visits_nodup ht
  refine ⟨hnodup, fun v hv => List.mem_range.mp (hnodes v hv), ?_⟩
  intro v hv
  rw [hst.in_degree]
  exact hst.inv.in_degree_pos (hst.deps ▸ hv)

end Sorting

/-! ## Section 4: The two verdicts -/

/-- The name and the number of an endpoint: a name that is not in the list
    stands for a number that is not a task. -/
def Denotes (task_names : List String) (name : String) (id : Nat) : Prop :=
  match task_index task_names name with
  | some i => i = id
  | none => task_names.length ≤ id

/-- A dependency and an edge say the same. -/
def SameEdge (task_names : List String) (dep : String × String) (e : DependencyEdge) : Prop :=
  Denotes task_names dep.1 e.producer_id ∧ Denotes task_names dep.2 e.consumer_id

section Verdicts

variable {task_names : List String} {edges : List DependencyEdge} {deps : List (String × String)}

theorem task_index_lt {name : String} {i : Nat} (h : task_index task_names name = some i) :
    i < task_names.length := by
  have key : ∀ (tasks : List (String × Nat)) (index : String → Option Nat),
      (∀ task ∈ tasks, task.2 < task_names.length) →
      (∀ (name : String) (i : Nat), index name = some i → i < task_names.length) →
      ∀ (name : String) (i : Nat), tasks.foldl enter_task index name = some i →
        i < task_names.length := by
    intro tasks
    induction tasks with
    | nil => exact fun index _ hindex => hindex
    | cons task tasks ih =>
      intro index htasks hindex
      apply ih _ fun task' htask' => htasks task' (List.mem_cons_of_mem _ htask')
      intro name i hi
      unfold enter_task at hi
      by_cases hname : name = task.1
      · rw [hname, Function.update_self] at hi
        obtain rfl := Option.some.inj hi
        exact (Nat.mod_le _ _).trans_lt (htasks task List.mem_cons_self)
      · rw [Function.update_of_ne hname] at hi
        exact hindex name i hi
  apply key task_names.zipIdx (fun _ => none) _ _ name i h
  · intro task htask
    have := List.snd_lt_of_mem_zipIdx htask
    omega
  · intro name i hi
    cases hi

/-- Names that are known give the edges that they denote; the others are an
    error. -/
theorem dependency_edges_spec (hdeps : List.Forall₂ (SameEdge task_names) deps edges) :
    (InRange task_names.length edges →
      dependency_edges (task_index task_names) deps = .ok edges) ∧
    (¬ InRange task_names.length edges →
      ∃ what, dependency_edges (task_index task_names) deps = .error what) := by
  induction hdeps with
  | nil =>
    constructor
    · exact fun _ => rfl
    · intro hnot
      exact absurd (fun _ he => by cases he) hnot
  | @cons dep e deps edges hsame _ ih =>
    obtain ⟨from_name, to_name⟩ := dep
    obtain ⟨hfrom, hto⟩ := hsame
    have hsplit : InRange task_names.length (e :: edges) ↔
        (e.producer_id < task_names.length ∧ e.consumer_id < task_names.length) ∧
          InRange task_names.length edges := by
      simp [InRange]
    rw [hsplit]
    unfold Denotes at hfrom hto
    unfold dependency_edges
    cases hf : task_index task_names from_name with
    | none =>
      rw [hf] at hfrom
      constructor
      · intro h
        have hlt := h.1.1
        dsimp only at hfrom
        omega
      · exact fun _ => ⟨_, rfl⟩
    | some producer_id =>
      rw [hf] at hfrom
      obtain rfl : producer_id = e.producer_id := hfrom
      cases ht : task_index task_names to_name with
      | none =>
        rw [ht] at hto
        constructor
        · intro h
          have hlt := h.1.2
          dsimp only at hto
          omega
        · exact fun _ => ⟨_, rfl⟩
      | some consumer_id =>
        rw [ht] at hto
        obtain rfl : consumer_id = e.consumer_id := hto
        have hknown : e.producer_id < task_names.length ∧ e.consumer_id < task_names.length :=
          ⟨task_index_lt hf, task_index_lt ht⟩
        constructor
        · intro h
          dsimp only
          rw [ih.1 h.2]
          rfl
        · intro hnot
          obtain ⟨what, hwhat⟩ := ih.2 fun h => hnot ⟨hknown, h⟩
          dsimp only
          rw [hwhat]
          exact ⟨what, rfl⟩

theorem validate_dag_iff {cfg : PipelineConfig} {fuel : Nat}
    (hin : ∀ v, cfg.edges.countP (·.consumer_id = v) < 2 ^ 32)
    (hfuel : cfg.num_tasks + cfg.edges.length ≤ fuel) :
    ∃ verdict, validate_dag fuel cfg = some verdict ∧ (verdict = .ok () ↔ cfg.Valid) := by
  unfold validate_dag
  cases hunresolved : unresolved cfg.num_tasks cfg.edges with
  | some id =>
    refine ⟨_, rfl, ?_⟩
    constructor
    · rintro ⟨⟩
    · intro hvalid
      rw [unresolved_eq_none.mpr (valid_inRange hvalid)] at hunresolved
      cases hunresolved
  | none =>
    have hrange := unresolved_eq_none.mp hunresolved
    have hsize : cfg.num_tasks < 2 ^ 32 := Nat.mod_lt _ (by norm_num)
    obtain ⟨s, hsort, hcount⟩ := sort_returns hrange hsize hin hfuel
    dsimp only
    rw [hsort]
    refine ⟨_, rfl, ?_⟩
    rw [valid_iff hrange, ← hcount]
    dsimp only
    split
    · next hne => simp [hne]
    · next heq => simpa using heq

theorem parse_dependencies_iff {fuel : Nat} (htasks : task_names.length < 2 ^ 32)
    (hin : ∀ v, edges.countP (·.consumer_id = v) < 2 ^ 32)
    (hdeps : List.Forall₂ (SameEdge task_names) deps edges)
    (hfuel : task_names.length + edges.length ≤ fuel) (max_concurrency : Nat) :
    ∃ verdict, parse_dependencies fuel task_names deps = some verdict ∧
      (verdict = .ok edges ↔ (⟨task_names, edges, max_concurrency⟩ : PipelineConfig).Valid) ∧
      ∀ edges', verdict = .ok edges' → edges' = edges := by
  set cfg : PipelineConfig := ⟨task_names, edges, max_concurrency⟩ with hcfg
  have hnum : cfg.num_tasks = task_names.length := Nat.mod_eq_of_lt htasks
  obtain ⟨hok, herror⟩ := dependency_edges_spec hdeps
  unfold parse_dependencies
  by_cases hrange : InRange task_names.length edges
  · rw [hok hrange]
    dsimp only
    have hrange' : InRange cfg.num_tasks cfg.edges := hnum ▸ hrange
    by_cases hpos : task_names.length > 0
    · rw [if_pos hpos, Nat.mod_eq_of_lt htasks]
      obtain ⟨s, hsort, hcount⟩ := sort_returns hrange htasks hin hfuel
      have hacyclic : cfg.Valid ↔ (task_graph hrange).Acyclic := by
        have hvalid := valid_iff hrange'
        simp only [hnum] at hvalid
        exact hvalid
      rw [hsort]
      refine ⟨_, rfl, ?_, ?_⟩
      · rw [hacyclic, ← hcount]
        dsimp only
        split
        · next hne => simp [hne]
        · next heq => simpa using heq
      · intro edges' hedges'
        dsimp only at hedges'
        split at hedges'
        · cases hedges'
        · exact (Except.ok.inj hedges').symm
    · -- without tasks there are no edges
      rw [if_neg hpos]
      refine ⟨_, rfl, ?_, fun _ h => (Except.ok.inj h).symm⟩
      have hzero : cfg.num_tasks = 0 := by omega
      simp only [true_iff]
      refine ⟨fun e he => (hrange' e he).1, fun e he => (hrange' e he).2, ?_⟩
      intro v
      have hv := v.isLt
      omega
  · obtain ⟨what, hwhat⟩ := herror hrange
    rw [hwhat]
    refine ⟨_, rfl, ?_, ?_⟩
    · constructor
      · rintro ⟨⟩
      · intro hvalid
        have hin' := valid_inRange hvalid
        rw [hnum] at hin'
        exact absurd hin' hrange
    · rintro edges' ⟨⟩

end Verdicts

/-- **Both functions accept exactly the valid graphs.** Their loop takes at
    most one step for each task and each edge, visits no task twice and
    decrements no counter at zero. -/
theorem validations_agree {task_names : List String} {edges : List DependencyEdge}
    {deps : List (String × String)} (htasks : task_names.length < 2 ^ 32)
    (hin : ∀ v, edges.countP (·.consumer_id = v) < 2 ^ 32)
    (hdeps : List.Forall₂ (SameEdge task_names) deps edges) {fuel : Nat}
    (hfuel : task_names.length + edges.length ≤ fuel) (max_concurrency : Nat) :
    (∃ verdict, validate_dag fuel ⟨task_names, edges, max_concurrency⟩ = some verdict ∧
      (verdict = .ok () ↔ (⟨task_names, edges, max_concurrency⟩ : PipelineConfig).Valid)) ∧
    (∃ verdict, parse_dependencies fuel task_names deps = some verdict ∧
      (verdict = .ok edges ↔ (⟨task_names, edges, max_concurrency⟩ : PipelineConfig).Valid) ∧
      ∀ edges', verdict = .ok edges' → edges' = edges) ∧
    (InRange task_names.length edges → ∀ ls s, (sort_system task_names.length edges).Steps
        (SortState.start task_names.length (PipelineConfig.in_degree edges)) ls s →
      (Kahn.visits ls).Nodup ∧ (∀ v ∈ Kahn.visits ls, v < task_names.length) ∧
        ∀ v ∈ s.deps, 0 < s.in_degree v) := by
  refine ⟨?_, parse_dependencies_iff htasks hin hdeps hfuel max_concurrency, ?_⟩
  · apply validate_dag_iff hin
    exact (Nat.add_le_add_right (Nat.mod_le _ _) _).trans hfuel
  · intro hrange ls s hsteps
    exact sort_safe hrange htasks hin hsteps

theorem parallel_dependencies_accepted :
    validate_dag 4 ⟨["produce", "consume"], [⟨0, 1⟩, ⟨0, 1⟩], 4⟩ = some (.ok ()) ∧
      (⟨["produce", "consume"], [⟨0, 1⟩, ⟨0, 1⟩], 4⟩ : PipelineConfig).Valid := by
  have hsame : SameEdge ["produce", "consume"] ("produce", "consume") ⟨0, 1⟩ := ⟨rfl, rfl⟩
  have hin : ∀ v, [(⟨0, 1⟩ : DependencyEdge), ⟨0, 1⟩].countP (·.consumer_id = v) < 2 ^ 32 :=
    fun v => List.countP_le_length.trans_lt (by decide)
  obtain ⟨⟨verdict, hverdict, hvalid⟩, -⟩ :=
    validations_agree (by decide) hin (.cons hsame (.cons hsame .nil))
      (show 2 + 2 ≤ 4 from le_rfl) 4
  have hrun : validate_dag 4 ⟨["produce", "consume"], [⟨0, 1⟩, ⟨0, 1⟩], 4⟩ = some (.ok ()) := rfl
  obtain rfl := Option.some.inj (hrun.symm.trans hverdict)
  exact ⟨hrun, hvalid.mp rfl⟩

/-! ### Beyond the counters -/

section Flooded

variable {adj : Nat → List Nat} {deg : Nat → Nat} {s : SortState} {fuel m : Nat}

theorem flood_relaxed (hm : 0 < m) (hlt : m < 2 ^ 32) (hdeg : deg 1 = m)
    (h : Kahn.finish (SortState.next adj) fuel ⟨[1], deg, 1, List.replicate m 1⟩ = some s) :
    ∃ fuel' deg', Kahn.finish (SortState.next adj) fuel' ⟨[1, 1], deg', 1, []⟩ = some s := by
  induction m generalizing deg fuel with
  | zero => omega
  | succ m ih =>
    have hsub : Word.sub 32 (deg 1) 1 = m := by
      rw [hdeg, Word.sub_of_le hlt (by omega)]
      omega
    rcases Nat.eq_zero_or_pos m with rfl | hpos
    · have hstep : SortState.next adj ⟨[1], deg, 1, List.replicate 1 1⟩ =
          some (.relax 1, ⟨[1, 1], Function.update deg 1 0, 1, []⟩) := by
        simp [SortState.next, hsub]
      obtain ⟨fuel', hfinish⟩ := Kahn.finish_next hstep h
      exact ⟨fuel', _, hfinish⟩
    · have hstep : SortState.next adj ⟨[1], deg, 1, List.replicate (m + 1) 1⟩ =
          some (.relax 1, ⟨[1], Function.update deg 1 m, 1, List.replicate m 1⟩) := by
        simp [SortState.next, List.replicate_succ, hsub, hpos.ne']
      obtain ⟨fuel', hfinish⟩ := Kahn.finish_next hstep h
      exact ih hpos (by omega) (Function.update_self ..) hfinish

/-- With `2 ^ 32` edges the second task is visited before the first has closed
    them, and once more after that. -/
theorem flooded_sorted_count {k : Nat} (hk : k = 2 ^ 32)
    (h : SortState.sort fuel 2 (List.replicate k ⟨0, 1⟩) = some s) : s.sorted_count = 3 := by
  obtain ⟨m, rfl⟩ : ∃ m, k = m + 1 := ⟨2 ^ 32 - 1, by omega⟩
  have hdegree : PipelineConfig.in_degree (List.replicate (m + 1) ⟨0, 1⟩) = fun _ => 0 := by
    funext v
    rw [in_degree_eq, List.countP_replicate]
    split
    · rw [hk, Nat.mod_self]
    · rfl
  have hadj : downstream (List.replicate (m + 1) ⟨0, 1⟩) 0 = List.replicate (m + 1) 1 := by
    rw [downstream_eq]
    simp
  have hadj' : downstream (List.replicate (m + 1) ⟨0, 1⟩) 1 = [] := by
    rw [downstream_eq]
    simp
  unfold SortState.sort at h
  rw [hdegree] at h
  generalize downstream (List.replicate (m + 1) ⟨0, 1⟩) = adj at h hadj hadj'
  have hvisit : SortState.next adj (SortState.start 2 fun _ => 0) =
      some (.visit 0, ⟨[1], fun _ => 0, 1, List.replicate (m + 1) 1⟩) := by
    rw [← hadj]
    rfl
  have hwrap : SortState.next adj ⟨[1], fun _ => 0, 1, List.replicate (m + 1) 1⟩ =
      some (.relax 1, ⟨[1], Function.update (fun _ => 0) 1 m, 1, List.replicate m 1⟩) := by
    have hsub : Word.sub 32 0 1 = m := by
      unfold Word.sub
      omega
    have hm : m ≠ 0 := by omega
    simp [SortState.next, List.replicate_succ, hsub, hm]
  obtain ⟨_, h₁⟩ := Kahn.finish_next hvisit h
  obtain ⟨_, h₂⟩ := Kahn.finish_next hwrap h₁
  obtain ⟨_, deg, h₃⟩ := flood_relaxed (by omega) (by omega) (Function.update_self ..) h₂
  have hagain : ∀ queue count, SortState.next adj ⟨1 :: queue, deg, count, []⟩ =
      some (.visit 1, ⟨queue, deg, Word.add 32 count 1, []⟩) := by
    intro queue count
    simp [SortState.next, hadj']
  obtain ⟨_, h₄⟩ := Kahn.finish_next (hagain _ _) h₃
  obtain ⟨_, h₅⟩ := Kahn.finish_next (hagain _ _) h₄
  rw [Kahn.finish_of_none rfl] at h₅
  obtain rfl := Option.some.inj h₅
  rfl

theorem flooded_rejected {k : Nat} (hk : k = 2 ^ 32) (fuel : Nat) :
    validate_dag fuel (flooded k) ≠ some (.ok ()) := by
  intro hok
  have hnum : (flooded k).num_tasks = 2 := rfl
  have hrange : unresolved (flooded k).num_tasks (flooded k).edges = none :=
    unresolved_eq_none.mpr (valid_inRange (flooded_valid k))
  unfold validate_dag at hok
  rw [hrange, hnum] at hok
  obtain ⟨s, hsort, hverdict⟩ := Option.map_eq_some_iff.mp hok
  have hcount : s.sorted_count = 3 := flooded_sorted_count hk hsort
  rw [hcount, if_pos (by decide)] at hverdict
  cases hverdict

end Flooded

/-- A pipeline with more tasks than a 32-bit number can count. -/
def many_tasks (k : Nat) : PipelineConfig := ⟨List.replicate k "task", [⟨0, 1⟩], 4⟩

theorem many_tasks_in_range {k : Nat} (hk : 1 < k) :
    InRange (many_tasks k).task_names.length (many_tasks k).edges := by
  intro e he
  obtain rfl := List.mem_singleton.mp he
  have hlength : (many_tasks k).task_names.length = k := List.length_replicate
  rw [hlength]
  exact ⟨Nat.zero_lt_of_lt hk, hk⟩

theorem many_tasks_rejected {k : Nat} (hk : k = 2 ^ 32) (fuel : Nat) :
    validate_dag fuel (many_tasks k) ≠ some (.ok ()) := by
  have hlength : (many_tasks k).task_names.length = k := List.length_replicate
  have hnum : (many_tasks k).num_tasks = 0 := by
    rw [num_tasks, hlength, hk, Nat.mod_self]
  have hfirst : unresolved 0 (many_tasks k).edges = some 0 := rfl
  unfold validate_dag
  rw [hnum, hfirst]
  rintro ⟨⟩

theorem beyond_counters_rejected :
    ((flooded (2 ^ 32)).Valid ∧ ∀ fuel, validate_dag fuel (flooded (2 ^ 32)) ≠ some (.ok ())) ∧
    InRange (many_tasks (2 ^ 32)).task_names.length (many_tasks (2 ^ 32)).edges ∧
      ∀ fuel, validate_dag fuel (many_tasks (2 ^ 32)) ≠ some (.ok ()) :=
  ⟨⟨flooded_valid _, flooded_rejected rfl⟩, many_tasks_in_range (by norm_num),
    many_tasks_rejected rfl⟩

end Dagr
