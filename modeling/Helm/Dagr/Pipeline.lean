import Helm.Framework.Word

/-! # Pipelines and task nodes

  A pipeline declares its tasks by name and the dependencies between them
  as a list of edges. `populate_nodes` turns it into the vector of task
  nodes that the event loop schedules: one in-degree counter and one
  adjacency list per task.

  The in-degree counters are 32 bits wide, so what `populate_nodes` stores
  is the number of incoming edges modulo `2 ^ 32`.
-/

namespace Dagr

/-! ## Section 1: Model -/

/-- `Task_Status`. -/
inductive TaskStatus
  | pending | ready | running | completed | failed | cancelled
  deriving DecidableEq

/-- `is_terminal`: no transition leaves these states. -/
def is_terminal (s : TaskStatus) : Bool :=
  s = .completed ∨ s = .failed ∨ s = .cancelled

/-- `TaskNode`, a vertex of a graph of `n` tasks. -/
structure TaskNode (n : Nat) where
  id : Fin n
  name : String
  /-- In-degree countdown, 32 bits wide. -/
  pending_deps : Nat
  status : TaskStatus
  required_ranks : Nat
  /-- Downstream adjacency list. The code checks these indices before use. -/
  dependents : List Nat

/-- `Dependency_Edge`. -/
structure DependencyEdge where
  producer_id : Nat
  consumer_id : Nat
  deriving DecidableEq

/-- `Pipeline_Config`, the part that scheduling reads. -/
structure PipelineConfig where
  task_names : List String
  edges : List DependencyEdge
  max_concurrency : Nat := 64

namespace PipelineConfig

/-- The task count as the code stores it, cast to 32 bits. -/
def num_tasks (cfg : PipelineConfig) : Nat := cfg.task_names.length % 2 ^ 32

/-- The in-degree counters, incremented along the edge list. -/
def in_degree (edges : List DependencyEdge) : Nat → Nat :=
  edges.foldl (fun deg e => Function.update deg e.consumer_id (Word.add 32 (deg e.consumer_id) 1))
    fun _ => 0

/-- The adjacency lists, in the order of the edge list. -/
def downstream (edges : List DependencyEdge) : Nat → List Nat :=
  edges.foldl (fun adj e =>
    Function.update adj e.producer_id (adj e.producer_id ++ [e.consumer_id]))
    fun _ => []

theorem num_tasks_le (cfg : PipelineConfig) : cfg.num_tasks ≤ cfg.task_names.length :=
  Nat.mod_le _ _

/-- `Impl::populate_nodes`. -/
def populate_nodes (cfg : PipelineConfig) (i : Fin cfg.num_tasks) : TaskNode cfg.num_tasks where
  id := i
  name := cfg.task_names.get (i.castLE cfg.num_tasks_le)
  pending_deps := in_degree cfg.edges i
  status := .pending
  required_ranks := 1
  dependents := downstream cfg.edges i

/-! ## Section 2: Graphs -/

/-- `u` is a direct producer of `v`. -/
def Edge (cfg : PipelineConfig) (u v : Fin cfg.num_tasks) : Prop :=
  ⟨u, v⟩ ∈ cfg.edges

/-- `v` is a transitive dependent of `u`. -/
def Downstream (cfg : PipelineConfig) : Fin cfg.num_tasks → Fin cfg.num_tasks → Prop :=
  Relation.TransGen cfg.Edge

/-- A valid task graph: the edges run between the tasks and form no cycle. -/
structure Valid (cfg : PipelineConfig) : Prop where
  producer_lt : ∀ e ∈ cfg.edges, e.producer_id < cfg.num_tasks
  consumer_lt : ∀ e ∈ cfg.edges, e.consumer_id < cfg.num_tasks
  acyclic : ∀ v, ¬ cfg.Downstream v v

theorem valid_of_increasing {cfg : PipelineConfig}
    (h : ∀ e ∈ cfg.edges, e.producer_id < e.consumer_id ∧ e.consumer_id < cfg.num_tasks) :
    cfg.Valid where
  producer_lt := fun e he => (h e he).1.trans (h e he).2
  consumer_lt := fun e he => (h e he).2
  acyclic := fun v hv => by
    have hlt : ∀ u w, cfg.Downstream u w → u < w := fun u w huw => by
      induction huw with
      | single he => exact (h _ he).1
      | tail _ he ih => exact ih.trans (h _ he).1
    exact lt_irrefl v (hlt v v hv)

/-- The number of edges into `v`, counted with multiplicity. -/
def incoming (cfg : PipelineConfig) (v : Fin cfg.num_tasks) : Nat :=
  cfg.edges.countP fun e => e.consumer_id = (v : Nat)

/-- The number of edges into `v` whose producer has not completed, counted
    with multiplicity. -/
def open_edges (cfg : PipelineConfig) (status : Fin cfg.num_tasks → TaskStatus)
    (v : Fin cfg.num_tasks) : Nat :=
  cfg.edges.countP fun e =>
    e.consumer_id = (v : Nat) ∧ ∃ u : Fin cfg.num_tasks, (u : Nat) = e.producer_id ∧ status u ≠ .completed

/-! ## Section 3: What populate_nodes stores -/

theorem in_degree_eq (edges : List DependencyEdge) (v : Nat) :
    in_degree edges v = edges.countP (·.consumer_id = v) % 2 ^ 32 := by
  have key : ∀ (edges : List DependencyEdge) (deg : Nat → Nat) (k : Nat), deg v = k % 2 ^ 32 →
      edges.foldl (fun deg e => Function.update deg e.consumer_id
        (Word.add 32 (deg e.consumer_id) 1)) deg v =
      (k + edges.countP (·.consumer_id = v)) % 2 ^ 32 := by
    intro edges
    induction edges with
    | nil => intro deg k h; simpa using h
    | cons e edges ih =>
      intro deg k h
      rw [List.foldl_cons, List.countP_cons]
      by_cases hv : e.consumer_id = v
      · rw [ih _ (k + 1) (by rw [hv, Function.update_self, h, Word.add_mod])]
        simp only [hv, decide_true, if_true]
        congr 1
        omega
      · rw [ih _ k (by rw [Function.update_of_ne (Ne.symm hv), h])]
        simp [hv]
  have h := key edges (fun _ => 0) 0 rfl
  rwa [Nat.zero_add] at h

theorem downstream_eq (edges : List DependencyEdge) (u : Nat) :
    downstream edges u = (edges.filter (·.producer_id = u)).map (·.consumer_id) := by
  have key : ∀ (edges : List DependencyEdge) (adj : Nat → List Nat),
      edges.foldl (fun (adj : Nat → List Nat) e => Function.update adj e.producer_id
        (adj e.producer_id ++ [e.consumer_id])) adj u =
      adj u ++ (edges.filter (·.producer_id = u)).map (·.consumer_id) := by
    intro edges
    induction edges with
    | nil => intro adj; simp
    | cons e edges ih =>
      intro adj
      rw [List.foldl_cons, ih]
      by_cases hu : e.producer_id = u
      · simp [hu]
      · simp [hu, Function.update_of_ne (Ne.symm hu)]
  exact key edges fun _ => []

theorem count_downstream (edges : List DependencyEdge) (u v : Nat) :
    (downstream edges u).count v = edges.countP (fun e => e.producer_id = u ∧ e.consumer_id = v) := by
  rw [downstream_eq, List.count, List.countP_map, List.countP_filter]
  exact List.countP_congr fun e _ => by simp [and_comm]

theorem mem_downstream {edges : List DependencyEdge} {u v : Nat} :
    v ∈ downstream edges u ↔ ⟨u, v⟩ ∈ edges := by
  rw [downstream_eq, List.mem_map]
  constructor
  · rintro ⟨⟨p, c⟩, he, rfl⟩
    obtain ⟨hmem, hp⟩ := List.mem_filter.mp he
    obtain rfl : p = u := by simpa using hp
    exact hmem
  · intro h
    exact ⟨⟨u, v⟩, List.mem_filter.mpr ⟨h, by simp⟩, rfl⟩

theorem sum_open (cfg : PipelineConfig) (hp : ∀ e ∈ cfg.edges, e.producer_id < cfg.num_tasks)
    (status : Fin cfg.num_tasks → TaskStatus) (v : Fin cfg.num_tasks) :
    ∑ u : Fin cfg.num_tasks, (if status u = .completed then 0
      else (downstream cfg.edges u).count (v : Nat)) = cfg.open_edges status v := by
  simp only [count_downstream, open_edges]
  generalize cfg.edges = edges at hp
  induction edges with
  | nil => simp
  | cons e edges ih =>
    have he := hp e List.mem_cons_self
    rw [List.countP_cons, ← ih fun e' h => hp e' (List.mem_cons_of_mem _ h)]
    -- only the producer of `e` contributes more than before
    have hsplit : ∀ u : Fin cfg.num_tasks,
        (if status u = .completed then 0
          else (e :: edges).countP fun e => decide (e.producer_id = (u : Nat) ∧ e.consumer_id = (v : Nat))) =
        (if status u = .completed then 0
          else edges.countP fun e => decide (e.producer_id = (u : Nat) ∧ e.consumer_id = (v : Nat))) +
        (if u = ⟨e.producer_id, he⟩ then
          (if status u ≠ .completed ∧ e.consumer_id = v then 1 else 0) else 0) := by
      intro u
      by_cases hu : u = ⟨e.producer_id, he⟩
      · subst hu
        by_cases hc : status ⟨e.producer_id, he⟩ = .completed <;> simp [List.countP_cons, hc]
      · have : e.producer_id ≠ u := fun h => hu (Fin.ext h.symm)
        simp [this, hu]
    simp only [hsplit, Finset.sum_add_distrib, Finset.sum_ite_eq', Finset.mem_univ, if_true]
    congr 1
    have hex : (∃ u : Fin cfg.num_tasks, (u : Nat) = e.producer_id ∧ status u ≠ .completed) ↔
        status ⟨e.producer_id, he⟩ ≠ .completed :=
      ⟨fun ⟨u, hu, hs⟩ => by rwa [show u = ⟨e.producer_id, he⟩ from Fin.ext hu] at hs,
        fun hs => ⟨_, rfl, hs⟩⟩
    simp only [decide_eq_true_eq, hex, and_comm]

theorem open_edges_congr (cfg : PipelineConfig) {status status' : Fin cfg.num_tasks → TaskStatus}
    (h : ∀ u, status' u = .completed ↔ status u = .completed) (v : Fin cfg.num_tasks) :
    cfg.open_edges status' v = cfg.open_edges status v :=
  List.countP_congr fun e _ => by simp only [decide_eq_true_eq, ne_eq, h]

theorem open_edges_complete {cfg : PipelineConfig}
    (hp : ∀ e ∈ cfg.edges, e.producer_id < cfg.num_tasks)
    (status status' : Fin cfg.num_tasks → TaskStatus) {i : Fin cfg.num_tasks}
    (hi : status i ≠ .completed)
    (h : ∀ u, status' u = .completed ↔ u = i ∨ status u = .completed) (v : Fin cfg.num_tasks) :
    cfg.open_edges status' v + (downstream cfg.edges i).count (v : Nat) =
      cfg.open_edges status v := by
  rw [← sum_open cfg hp, ← sum_open cfg hp,
    ← Finset.add_sum_erase Finset.univ _ (Finset.mem_univ i),
    ← Finset.add_sum_erase Finset.univ _ (Finset.mem_univ i),
    if_pos ((h i).mpr (.inl rfl)), if_neg hi, Nat.zero_add, Nat.add_comm]
  congr 1
  refine Finset.sum_congr rfl fun u hu => ?_
  simp only [h, Finset.ne_of_mem_erase hu, false_or]

theorem open_edges_le (cfg : PipelineConfig) (status : Fin cfg.num_tasks → TaskStatus)
    (v : Fin cfg.num_tasks) : cfg.open_edges status v ≤ cfg.incoming v :=
  List.countP_mono_left fun e _ h => by
    simp only [decide_eq_true_eq] at h ⊢
    exact h.1

theorem completed_of_open_edges_eq_zero {cfg : PipelineConfig}
    {status : Fin cfg.num_tasks → TaskStatus} {u v : Fin cfg.num_tasks}
    (h : cfg.open_edges status v = 0) (he : cfg.Edge u v) : status u = .completed := by
  by_contra hne
  rw [open_edges, List.countP_eq_zero] at h
  exact h _ he (by simpa using ⟨u, rfl, hne⟩)

theorem open_edges_eq_zero {cfg : PipelineConfig} {status : Fin cfg.num_tasks → TaskStatus}
    {v : Fin cfg.num_tasks} (h : ∀ u, cfg.Edge u v → status u = .completed) :
    cfg.open_edges status v = 0 := by
  rw [open_edges, List.countP_eq_zero]
  intro e he hopen
  simp only [decide_eq_true_eq] at hopen
  obtain ⟨hconsumer, u, hproducer, hnot⟩ := hopen
  apply hnot
  apply h u
  show (⟨u, v⟩ : DependencyEdge) ∈ cfg.edges
  rw [hproducer, ← hconsumer]
  exact he

end PipelineConfig

end Dagr
