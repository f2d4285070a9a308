import Helm.Framework.Word

/-! # HALO exchange plans

  A `Halo_Plan` lists the ranks a process sends to and receives from, with
  the number of elements for each. Its constructor checks both lists
  against the size of the communicator and sums up the counts. Counts are
  `size_t`, so sums are taken modulo `2 ^ 64`.
-/

namespace Halo

/-- The exceptions the library throws. Everything that is neither
    `invalid_argument` nor `runtime_error` is one case. -/
inductive Exn
  | invalid_argument (what : String)
  | runtime_error (what : String)
  | other
  deriving DecidableEq

structure NeighborInfo where
  rank : Int
  count : Nat
  deriving DecidableEq

/-- The loop of `validate_neighbors`; `seen` holds the ranks so far. -/
def validate_from (comm_size : Int) (direction : String) :
    List Int → List NeighborInfo → Except Exn Unit
  | _, [] => .ok ()
  | seen, info :: rest =>
    if ¬ (0 ≤ info.rank ∧ info.rank < comm_size) then
      .error (.invalid_argument ("Halo_Plan: invalid " ++ direction ++ " neighbor rank " ++
        toString info.rank ++ "; valid range is [0, " ++ toString comm_size ++ ")"))
    else if info.rank ∈ seen then
      .error (.invalid_argument ("Halo_Plan: duplicate " ++ direction ++ " neighbor rank " ++
        toString info.rank))
    else validate_from comm_size direction (info.rank :: seen) rest

def validate_neighbors (neighbors : List NeighborInfo) (comm_size : Int) (direction : String) :
    Except Exn Unit :=
  validate_from comm_size direction [] neighbors

def sum_counts (neighbors : List NeighborInfo) : Nat :=
  neighbors.foldl (fun acc info => Word.add 64 acc info.count) 0

/-- `κ` stands for the reference to the communicator. -/
structure HaloPlan (κ : Type) where
  comm : κ
  send_neighbors : List NeighborInfo
  recv_neighbors : List NeighborInfo
  total_send : Nat
  total_recv : Nat
  deriving DecidableEq

/-- The constructor. `comm_size` is what `comm.size()` returned. -/
def HaloPlan.make {κ : Type} (comm : κ) (comm_size : Int)
    (send_neighbors recv_neighbors : List NeighborInfo) : Except Exn (HaloPlan κ) := do
  validate_neighbors send_neighbors comm_size "send"
  validate_neighbors recv_neighbors comm_size "recv"
  return { comm, send_neighbors, recv_neighbors,
           total_send := sum_counts send_neighbors, total_recv := sum_counts recv_neighbors }

/-! ### What the constructor accepts -/

/-- The ranks are in range and no two are equal. -/
def ValidNeighbors (comm_size : Int) (neighbors : List NeighborInfo) : Prop :=
  (∀ info ∈ neighbors, 0 ≤ info.rank ∧ info.rank < comm_size) ∧
    (neighbors.map (·.rank)).Nodup

instance (comm_size : Int) (neighbors : List NeighborInfo) :
    Decidable (ValidNeighbors comm_size neighbors) :=
  inferInstanceAs (Decidable (_ ∧ _))

theorem validate_from_eq_ok {comm_size : Int} {direction : String} {seen : List Int}
    {neighbors : List NeighborInfo} :
    validate_from comm_size direction seen neighbors = .ok () ↔
      ValidNeighbors comm_size neighbors ∧ ∀ info ∈ neighbors, info.rank ∉ seen := by
  induction neighbors generalizing seen with
  | nil => simp [validate_from, ValidNeighbors]
  | cons info rest ih =>
    unfold validate_from
    split
    · next hrange =>
      simp only [reduceCtorEq, false_iff]
      intro h
      exact hrange (h.1.1 info List.mem_cons_self)
    · next hrange =>
      split
      · next hseen =>
        simp only [reduceCtorEq, false_iff]
        intro h
        exact h.2 info List.mem_cons_self hseen
      · next hseen =>
        rw [ih]
        unfold ValidNeighbors
        simp only [not_not] at hrange
        rw [List.forall_mem_cons, List.forall_mem_cons]
        simp only [List.map_cons, List.nodup_cons, List.mem_map, List.mem_cons, not_or, not_exists,
          not_and]
        constructor
        · rintro ⟨⟨hall, hnodup⟩, hfresh⟩
          exact ⟨⟨⟨hrange, hall⟩, fun x hx heq => (hfresh x hx).1 heq, hnodup⟩, hseen,
            fun x hx => (hfresh x hx).2⟩
        · rintro ⟨⟨⟨_, hall⟩, hne, hnodup⟩, _, hfresh⟩
          exact ⟨⟨hall, hnodup⟩, fun x hx => ⟨fun heq => hne x hx heq, hfresh x hx⟩⟩

theorem validate_neighbors_eq_ok {comm_size : Int} {direction : String}
    {neighbors : List NeighborInfo} :
    validate_neighbors neighbors comm_size direction = .ok () ↔
      ValidNeighbors comm_size neighbors := by
  unfold validate_neighbors
  rw [validate_from_eq_ok]
  simp

theorem HaloPlan.make_eq_ok {κ : Type} {comm : κ} {comm_size : Int}
    {sends recvs : List NeighborInfo} {plan : HaloPlan κ} :
    HaloPlan.make comm comm_size sends recvs = .ok plan ↔
      ValidNeighbors comm_size sends ∧ ValidNeighbors comm_size recvs ∧
        plan = ⟨comm, sends, recvs, sum_counts sends, sum_counts recvs⟩ := by
  rw [← @validate_neighbors_eq_ok comm_size "send" sends,
    ← @validate_neighbors_eq_ok comm_size "recv" recvs]
  unfold HaloPlan.make
  rcases validate_neighbors sends comm_size "send" with e | u
  · simp [bind, Except.bind]
  · rcases validate_neighbors recvs comm_size "recv" with e | u
    · simp [bind, Except.bind]
    · simp [bind, Except.bind, pure, Except.pure, eq_comm]

end Halo
