import Helm.Framework.ScopedLock

/-! # The serialization guard of HALO

  Below `MPI_THREAD_MULTIPLE` every MPI call of an operation is made under
  `Serialized_MPI_Guard`, which holds one mutex of the process. The mutex is
  not recursive, so an operation that takes the guard inside the guard waits
  for itself.

  Each operation is the program of its MPI calls, with the early returns of
  the source and with the exceptions that failing MPI calls raise. The
  answers of MPI are a parameter. A diagnostics callback is an event: it is
  called with the mutex of the diagnostics held and makes no calls of HALO.

  Main results:
  - `nests_iff`: which calls take the guard twice at once
  - `guard_once`: without these no thread waits for itself, under any
    interleaving of the threads
-/

namespace Halo

open LTS ScopedLock Traced

/-! ## Section 1: Environment and guard -/

/-- `thread_level_`, which is -1 before `Environment::initialize`. -/
inductive ThreadLevel
  | uninitialized
  | single
  | funneled
  | serialized
  | multiple
  deriving DecidableEq

def is_thread_multiple (level : ThreadLevel) : Bool := level = .multiple

/-- What happens besides the mutex. -/
inductive Event
  | mpi (function : String)
  | diagnostics (phase : String)
  deriving DecidableEq

abbrev Prog := Traced Event

/-- The scope of a `Serialized_MPI_Guard`. -/
def guarded {α : Type} (level : ThreadLevel) (body : Prog α) : Prog α :=
  if is_thread_multiple level then body else under_lock body

/-- What an operation finds when it runs: whether the `i`-th call of an MPI
    function succeeds, and whether a diagnostics callback is registered. -/
structure Answers where
  succeeds : String → Nat → Bool
  diag_active : Bool

variable (level : ThreadLevel) (env : Answers)

/-- An MPI call, whose error is thrown. -/
def mpi (function : String) (i : Nat) : Prog Unit :=
  perform (.mpi function) (env.succeeds function i)

/-- The same MPI call for `n` neighbors. -/
def mpi_each (function : String) : Nat → Prog Unit
  | 0 => pure ()
  | n + 1 => do
    mpi_each function n
    mpi env function n

/-- `Diagnostics::emit`, where it is guarded by `diag_active`. -/
def emit (phase : String) : Prog Unit :=
  if env.diag_active then perform (.diagnostics phase) true else pure ()

/-! ## Section 2: Operations -/

def allgather (count_per_rank : Int) : Prog Unit :=
  if count_per_rank = 0 then return ()
  else do
    mpi env "MPI_Comm_size" 0
    guarded level (mpi env "MPI_Allgather" 0)

/-- `validate_counts` -/
def counts_valid (counts : List Int) (comm_size : Int) : Bool :=
  (counts.length : Int) = comm_size && counts.all (0 ≤ ·)

def allgatherv (counts : List Int) (comm_size : Int) : Prog Unit := do
  mpi env "MPI_Comm_size" 0
  if counts_valid counts comm_size then
    mpi env "MPI_Comm_rank" 0
    guarded level (mpi env "MPI_Allgatherv" 0)
  else throw

/-- `call` numbers the calls of one operation. -/
def allreduce (input_size call : Nat) : Prog Unit :=
  if input_size = 0 then return ()
  else guarded level (mpi env "MPI_Allreduce" call)

/-- `make_resized_column`; a failure releases the first datatype. -/
def make_resized_column (i : Nat) : Prog Unit := do
  mpi env "MPI_Type_vector" i
  mpi env "MPI_Type_create_resized" i
  mpi env "MPI_Type_commit" i
  perform (.mpi "MPI_Type_free") true

/-- The constructor of `Replicated_Gather_Plan`. -/
def replicated_gather_plan (local_band_count num_levels : Int) : Prog Unit :=
  if num_levels = 0 ∨ local_band_count < 0 then throw
  else do
    allgather level env 1
    guarded level (do
      make_resized_column env 0
      make_resized_column env 1)

def gather_replicated : Prog Unit := do
  mpi env "MPI_Comm_rank" 0
  if env.diag_active then mpi env "MPI_Comm_size" 0
  emit env "begin"
  guarded level (do
    allreduce level env 1 0
    mpi env "MPI_Allgatherv" 0
    allreduce level env 1 1
    emit env "end")

/-- `exchange_blocking` and `exchange_async` differ in the wait. -/
def exchange (num_send num_recv : Nat) (blocking : Bool) : Prog Unit :=
  if num_send = 0 ∧ num_recv = 0 then return ()
  else do
    emit env "begin"
    guarded level (do
      mpi env "MPI_Comm_rank" 0
      mpi env "MPI_Comm_size" 0
      mpi_each env "MPI_Irecv" num_recv
      mpi_each env "MPI_Isend" num_send
      if blocking then mpi env "MPI_Waitall" 0
      emit env "end")

def exchange_blocking (num_send num_recv : Nat) : Prog Unit :=
  exchange level env num_send num_recv true

def exchange_async (num_send num_recv : Nat) : Prog Unit :=
  exchange level env num_send num_recv false

/-- The structured exchanges do the same for the faces that have a neighbor. -/
def exchange_structured_blocking (active_neighbors : Nat) : Prog Unit :=
  exchange level env active_neighbors active_neighbors true

def exchange_structured_async (active_neighbors : Nat) : Prog Unit :=
  exchange level env active_neighbors active_neighbors false

/-- `mpi_3` says whether neighbor collectives are compiled in, and
    `has_topology_comm` whether the plan has its communicator already. -/
def exchange_neighbor_collective (mpi_3 : Bool) (active_neighbors : Nat)
    (symmetric has_topology_comm : Bool) : Prog Unit :=
  if active_neighbors = 0 then return ()
  else if !mpi_3 || !symmetric then exchange_structured_blocking level env active_neighbors
  else do
    emit env "begin"
    guarded level (do
      if !has_topology_comm then mpi env "MPI_Dist_graph_create_adjacent" 0
      mpi env "MPI_Neighbor_alltoallv" 0
      emit env "end")

/-- The constructor of `Persistent_Halo_Handle`. -/
def persistent_halo_handle (num_send num_recv : Nat) : Prog Unit :=
  if num_send = 0 ∧ num_recv = 0 then return ()
  else guarded level (do
    mpi env "MPI_Comm_rank" 0
    mpi env "MPI_Comm_size" 0
    mpi_each env "MPI_Recv_init" num_recv
    mpi_each env "MPI_Send_init" num_send)

/-- `start`, `wait` and `test` of a persistent handle with this many requests. -/
def persistent (function : String) (requests : Nat) : Prog Unit :=
  if requests = 0 then return () else guarded level (mpi env function 0)

/-- A public call of the library. -/
inductive HaloCall
  | allgather (count_per_rank : Int)
  | allgatherv (counts : List Int) (comm_size : Int)
  | allreduce (input_size : Nat)
  | replicated_gather_plan (local_band_count num_levels : Int)
  | gather_replicated
  | exchange_blocking (num_send num_recv : Nat)
  | exchange_async (num_send num_recv : Nat)
  | exchange_structured_blocking (active_neighbors : Nat)
  | exchange_structured_async (active_neighbors : Nat)
  | exchange_neighbor_collective (mpi_3 : Bool) (active_neighbors : Nat)
      (symmetric has_topology_comm : Bool)
  | persistent_halo_handle (num_send num_recv : Nat)
  | persistent_start (requests : Nat)
  | persistent_wait (requests : Nat)
  | persistent_test (requests : Nat)
  -- `Communicator`, `Halo_Handle` and the other classes take no guard
  | unguarded (functions : List String)

def HaloCall.program : HaloCall → Prog Unit
  | .allgather count_per_rank => Halo.allgather level env count_per_rank
  | .allgatherv counts comm_size => Halo.allgatherv level env counts comm_size
  | .allreduce input_size => Halo.allreduce level env input_size 0
  | .replicated_gather_plan local_band_count num_levels =>
      Halo.replicated_gather_plan level env local_band_count num_levels
  | .gather_replicated => Halo.gather_replicated level env
  | .exchange_blocking num_send num_recv => Halo.exchange_blocking level env num_send num_recv
  | .exchange_async num_send num_recv => Halo.exchange_async level env num_send num_recv
  | .exchange_structured_blocking active => Halo.exchange_structured_blocking level env active
  | .exchange_structured_async active => Halo.exchange_structured_async level env active
  | .exchange_neighbor_collective mpi_3 active symmetric has_topology_comm =>
      Halo.exchange_neighbor_collective level env mpi_3 active symmetric has_topology_comm
  | .persistent_halo_handle num_send num_recv =>
      Halo.persistent_halo_handle level env num_send num_recv
  | .persistent_start requests => persistent level env "MPI_Startall" requests
  | .persistent_wait requests => persistent level env "MPI_Waitall" requests
  | .persistent_test requests => persistent level env "MPI_Testall" requests
  | .unguarded functions => functions.forM fun function => mpi env function 0

/-- Any number of threads making calls at one thread level. -/
def guardSystem (T : Type) [DecidableEq T] :
    System (MutexState T Event) (MutexLabel T (HaloCall × Answers)) :=
  mutexSystem fun c => (c.1.program level c.2).acts

/-! ## Section 3: Which calls nest the guard -/

section
variable {level env}

theorem quiet_mpi (function : String) (i : Nat) : Quiet (mpi env function i).acts :=
  quiet_perform _ _

theorem quiet_mpi_each (function : String) (n : Nat) : Quiet (mpi_each env function n).acts := by
  induction n with
  | zero => exact quiet_pure _
  | succ n ih =>
    apply quiet_bind ih
    intro _
    exact quiet_mpi _ _

theorem quiet_emit (phase : String) : Quiet (emit env phase).acts := by
  unfold emit
  split
  · exact quiet_perform _ _
  · exact quiet_pure _

theorem quiet_make_resized_column (i : Nat) : Quiet (make_resized_column env i).acts := by
  apply quiet_bind (quiet_mpi _ _)
  intro _
  apply quiet_bind (quiet_mpi _ _)
  intro _
  apply quiet_bind (quiet_mpi _ _)
  intro _
  exact quiet_perform _ _

theorem clean_guarded {α : Type} {body : Prog α} (h : Quiet body.acts) :
    Clean false (guarded level body).acts := by
  unfold guarded
  split
  · exact h.clean
  · exact clean_under_lock h

theorem quiet_guarded {α : Type} {body : Prog α} (hlevel : level = .multiple)
    (h : Quiet body.acts) : Quiet (guarded level body).acts := by
  unfold guarded is_thread_multiple
  rw [if_pos (by simpa using hlevel)]
  exact h

theorem clean_allgather (count_per_rank : Int) :
    Clean false (allgather level env count_per_rank).acts := by
  unfold allgather
  split
  · exact (quiet_pure _).clean
  · apply clean_bind (quiet_mpi _ _).clean
    intro _
    exact clean_guarded (quiet_mpi _ _)

theorem clean_allgatherv (counts : List Int) (comm_size : Int) :
    Clean false (allgatherv level env counts comm_size).acts := by
  apply clean_bind (quiet_mpi _ _).clean
  intro _
  split
  · apply clean_bind (quiet_mpi _ _).clean
    intro _
    exact clean_guarded (quiet_mpi _ _)
  · exact quiet_throw.clean

theorem clean_allreduce (input_size call : Nat) :
    Clean false (allreduce level env input_size call).acts := by
  unfold allreduce
  split
  · exact (quiet_pure _).clean
  · exact clean_guarded (quiet_mpi _ _)

theorem clean_replicated_gather_plan (local_band_count num_levels : Int) :
    Clean false (replicated_gather_plan level env local_band_count num_levels).acts := by
  unfold replicated_gather_plan
  split
  · exact quiet_throw.clean
  · apply clean_bind (clean_allgather 1)
    intro _
    apply clean_guarded
    apply quiet_bind (quiet_make_resized_column 0)
    intro _
    exact quiet_make_resized_column 1

theorem clean_exchange (num_send num_recv : Nat) (blocking : Bool) :
    Clean false (exchange level env num_send num_recv blocking).acts := by
  unfold exchange
  split
  · exact (quiet_pure _).clean
  · apply clean_bind (quiet_emit _).clean
    intro _
    apply clean_guarded
    apply quiet_bind (quiet_mpi _ _)
    intro _
    apply quiet_bind (quiet_mpi _ _)
    intro _
    apply quiet_bind (quiet_mpi_each _ _)
    intro _
    apply quiet_bind (quiet_mpi_each _ _)
    intro _
    -- only the blocking exchange waits here
    split
    · apply quiet_bind (quiet_mpi _ _)
      intro _
      exact quiet_emit _
    · exact quiet_emit _

theorem clean_exchange_neighbor_collective (mpi_3 : Bool) (active_neighbors : Nat)
    (symmetric has_topology_comm : Bool) :
    Clean false (exchange_neighbor_collective level env mpi_3 active_neighbors symmetric
      has_topology_comm).acts := by
  unfold exchange_neighbor_collective
  split
  · exact (quiet_pure _).clean
  · split
    · -- the fallback comes before the guard
      exact clean_exchange _ _ _
    · apply clean_bind (quiet_emit _).clean
      intro _
      apply clean_guarded
      split
      · apply quiet_bind (quiet_mpi _ _)
        intro _
        apply quiet_bind (quiet_mpi _ _)
        intro _
        exact quiet_emit _
      · apply quiet_bind (quiet_mpi _ _)
        intro _
        exact quiet_emit _

theorem clean_persistent_halo_handle (num_send num_recv : Nat) :
    Clean false (persistent_halo_handle level env num_send num_recv).acts := by
  unfold persistent_halo_handle
  split
  · exact (quiet_pure _).clean
  · apply clean_guarded
    apply quiet_bind (quiet_mpi _ _)
    intro _
    apply quiet_bind (quiet_mpi _ _)
    intro _
    apply quiet_bind (quiet_mpi_each _ _)
    intro _
    exact quiet_mpi_each _ _

theorem clean_persistent (function : String) (requests : Nat) :
    Clean false (persistent level env function requests).acts := by
  unfold persistent
  split
  · exact (quiet_pure _).clean
  · exact clean_guarded (quiet_mpi _ _)

theorem quiet_unguarded (functions : List String) :
    Quiet (functions.forM fun function => mpi env function 0).acts := by
  induction functions with
  | nil => exact quiet_pure _
  | cons function functions ih =>
    apply quiet_bind (quiet_mpi _ _)
    intro _
    exact ih

theorem clean_program {c : HaloCall} (h : c ≠ .gather_replicated) :
    Clean false (c.program level env).acts := by
  match c with
  | .allgather _ => exact clean_allgather _
  | .allgatherv _ _ => exact clean_allgatherv _ _
  | .allreduce _ => exact clean_allreduce _ _
  | .replicated_gather_plan _ _ => exact clean_replicated_gather_plan _ _
  | .gather_replicated => exact absurd rfl h
  | .exchange_blocking _ _ => exact clean_exchange _ _ _
  | .exchange_async _ _ => exact clean_exchange _ _ _
  | .exchange_structured_blocking _ => exact clean_exchange _ _ _
  | .exchange_structured_async _ => exact clean_exchange _ _ _
  | .exchange_neighbor_collective _ _ _ _ => exact clean_exchange_neighbor_collective _ _ _ _
  | .persistent_halo_handle _ _ => exact clean_persistent_halo_handle _ _
  | .persistent_start _ => exact clean_persistent _ _
  | .persistent_wait _ => exact clean_persistent _ _
  | .persistent_test _ => exact clean_persistent _ _
  | .unguarded _ => exact (quiet_unguarded _).clean

/-- The queries in front of the guard of `gather_replicated` succeed. -/
def ReachesGuard (env : Answers) : Prop :=
  env.succeeds "MPI_Comm_rank" 0 = true ∧
    (env.diag_active = true → env.succeeds "MPI_Comm_size" 0 = true)

instance (env : Answers) : Decidable (ReachesGuard env) := inferInstanceAs (Decidable (_ ∧ _))

/-- The part of `gather_replicated` under the guard. -/
def gather_body (level : ThreadLevel) (env : Answers) : Prog Unit := do
  allreduce level env 1 0
  mpi env "MPI_Allgatherv" 0
  allreduce level env 1 1
  emit env "end"

theorem acts_mpi_bind {α : Type} {function : String} {i : Nat} {rest : Unit → Prog α} :
    (mpi env function i >>= rest).acts = .event (.mpi function) ::
      if env.succeeds function i then (rest ()).acts else [] := by
  rw [acts_bind]
  unfold mpi perform
  split
  · rfl
  · rfl

theorem acts_emit_bind {α : Type} {phase : String} {rest : Unit → Prog α} :
    (emit env phase >>= rest).acts = (emit env phase).acts ++ (rest ()).acts := by
  rw [acts_bind]
  unfold emit perform
  split
  · rfl
  · rfl

theorem gather_replicated_acts (level : ThreadLevel) (env : Answers) :
    (ReachesGuard env ∧ ∃ before, Quiet before ∧ (gather_replicated level env).acts =
      before ++ (guarded level (gather_body level env)).acts) ∨
    (¬ ReachesGuard env ∧ Quiet (gather_replicated level env).acts) := by
  have hquiet : Quiet (emit env "begin").acts := quiet_emit "begin"
  by_cases hrank : env.succeeds "MPI_Comm_rank" 0 = true
  · by_cases hdiag : env.diag_active = true
    · by_cases hsize : env.succeeds "MPI_Comm_size" 0 = true
      · refine .inl ⟨⟨hrank, fun _ => hsize⟩, ?_⟩
        refine ⟨[.event (.mpi "MPI_Comm_rank"), .event (.mpi "MPI_Comm_size")] ++
          (emit env "begin").acts, ?_, ?_⟩
        · refine Quiet.append ?_ hquiet
          simp [Quiet]
        · unfold gather_replicated
          rw [acts_mpi_bind, if_pos hrank, if_pos hdiag, acts_mpi_bind, if_pos hsize,
            acts_emit_bind]
          rfl
      · refine .inr ⟨fun h => hsize (h.2 hdiag), ?_⟩
        unfold gather_replicated
        rw [acts_mpi_bind, if_pos hrank, if_pos hdiag, acts_mpi_bind, if_neg hsize]
        simp [Quiet]
    · refine .inl ⟨⟨hrank, fun h => absurd h hdiag⟩, ?_⟩
      refine ⟨[.event (.mpi "MPI_Comm_rank")] ++ (emit env "begin").acts, ?_, ?_⟩
      · refine Quiet.append ?_ hquiet
        simp [Quiet]
      · unfold gather_replicated
        rw [acts_mpi_bind, if_pos hrank, if_neg hdiag, acts_emit_bind]
        rfl
  · refine .inr ⟨fun h => hrank h.1, ?_⟩
    unfold gather_replicated
    rw [acts_mpi_bind, if_neg hrank]
    simp [Quiet]

theorem nests_gather_body (hlevel : level ≠ .multiple) :
    Nests false (guarded level (gather_body level env)).acts := by
  have hlocks : ∀ {α : Type} (body : Prog α), guarded level body = under_lock body := by
    intro α body
    unfold guarded is_thread_multiple
    rw [if_neg (by simpa using hlevel)]
  have hreduce : allreduce level env 1 0 = under_lock (mpi env "MPI_Allreduce" 0) :=
    (if_neg (by decide)).trans (hlocks _)
  have hbody : ∃ rest, (gather_body level env).acts = .lock :: rest := by
    unfold gather_body
    rw [acts_bind, hreduce]
    exact ⟨_, rfl⟩
  obtain ⟨rest, hrest⟩ := hbody
  rw [hlocks]
  show Nests false (.lock :: ((gather_body level env).acts ++ [.unlock]))
  rw [hrest]
  exact .inr (.inl rfl)

theorem quiet_gather_body (hlevel : level = .multiple) :
    Quiet (guarded level (gather_body level env)).acts := by
  have hreduce : ∀ call, Quiet (allreduce level env 1 call).acts :=
    fun call => quiet_guarded hlevel (quiet_mpi _ _)
  apply quiet_guarded hlevel
  apply quiet_bind (hreduce 0)
  intro _
  apply quiet_bind (quiet_mpi _ _)
  intro _
  apply quiet_bind (hreduce 1)
  intro _
  exact quiet_emit _

/-- A call takes the guard at most once at a time when the thread level is
    `MPI_THREAD_MULTIPLE`, when it is not `gather_replicated`, or when MPI
    fails before the guard is reached. -/
def TakesGuardOnce (level : ThreadLevel) (c : HaloCall × Answers) : Prop :=
  level = .multiple ∨ c.1 ≠ .gather_replicated ∨ ¬ ReachesGuard c.2

theorem nests_iff (level : ThreadLevel) (c : HaloCall × Answers) :
    (Nests false (c.1.program level c.2).acts ↔ ¬ TakesGuardOnce level c) ∧
      (TakesGuardOnce level c → Clean false (c.1.program level c.2).acts) := by
  obtain ⟨c, env⟩ := c
  by_cases hc : c = .gather_replicated
  · subst hc
    show (Nests false (gather_replicated level env).acts ↔ _) ∧
      (_ → Clean false (gather_replicated level env).acts)
    obtain ⟨hreach, before, hquiet, hacts⟩ | ⟨hnot, hquiet⟩ := gather_replicated_acts level env
    · rw [hacts, hquiet.nests_append]
      by_cases hlevel : level = .multiple
      · have hrest : Quiet (guarded level (gather_body level env)).acts := quiet_gather_body hlevel
        refine ⟨?_, fun _ => hquiet.clean_append hrest.clean⟩
        constructor
        · intro h
          exact absurd h hrest.clean.not_nests
        · intro h
          exact absurd (.inl hlevel) h
      · have honce : ¬ TakesGuardOnce level (.gather_replicated, env) := by
          simp [TakesGuardOnce, hlevel, hreach]
        exact ⟨⟨fun _ => honce, fun _ => nests_gather_body hlevel⟩, fun h => absurd h honce⟩
    · refine ⟨?_, fun _ => hquiet.clean⟩
      constructor
      · intro h
        exact absurd h hquiet.clean.not_nests
      · intro h
        exact absurd (.inr (.inr hnot)) h
  · have hclean : Clean false (c.program level env).acts := clean_program hc
    refine ⟨?_, fun _ => hclean⟩
    constructor
    · intro h
      exact absurd h hclean.not_nests
    · intro h
      exact absurd (.inr (.inl hc)) h

/-! ## Section 4: Every interleaving -/

/-- Calls that take the guard once, and any step of a running call. -/
def GuardOnce {T : Type} (level : ThreadLevel) (_ : MutexState T Event) :
    MutexLabel T (HaloCall × Answers) → Prop
  | .call _ c => TakesGuardOnce level c
  | .act _ => True

theorem guard_once {T : Type} [DecidableEq T] (level : ThreadLevel) {s : MutexState T Event}
    (hr : ((guardSystem level T).restrict (GuardOnce level)).Reachable s) :
    (∀ t, ¬ Relocks s t) ∧
      ∀ c : HaloCall × Answers,
        ¬ Nests false (c.1.program level c.2).acts ↔ TakesGuardOnce level c := by
  constructor
  · intro t
    refine not_relocks_of_reachable ?_ hr t
    intro s t c hok
    exact (nests_iff level c).2 hok
  · intro c
    rw [(nests_iff level c).1, not_not]

/-- Nothing runs yet. -/
def idle (T : Type) : MutexState T Event := ⟨none, fun _ => []⟩

theorem guard_once_idle :
    (∀ t, ¬ Relocks (idle Bool) t) ∧
      ∀ c : HaloCall × Answers,
        ¬ Nests false (c.1.program .serialized c.2).acts ↔ TakesGuardOnce .serialized c :=
  guard_once .serialized (.init ⟨rfl, fun _ => rfl⟩)

theorem gather_replicated_relocks :
    ¬ ∀ s, (guardSystem .serialized Unit).Reachable s → ∀ t, ¬ Relocks s t := by
  intro h
  let env : Answers := ⟨fun _ _ => true, false⟩
  let acts := (gather_replicated .serialized env).acts
  -- the call, `MPI_Comm_rank`, and the guard
  have hrun : System.exec (MutexState.next fun c : HaloCall × Answers =>
      (c.1.program .serialized c.2).acts) (idle Unit)
      [.call () (.gather_replicated, env), .act (), .act ()] =
        some ⟨some (), Function.update (Function.update (Function.update (fun _ => []) () acts)
          () (acts.drop 1)) () (acts.drop 2)⟩ := rfl
  exact h _ (System.reachable_of_exec ⟨rfl, fun _ => rfl⟩ hrun) () ⟨rfl, rfl⟩

end

end Halo
