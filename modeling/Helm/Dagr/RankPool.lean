import Helm.Framework.OrdSet
import Helm.Framework.Vec
import Helm.Framework.Word

/-! # Rank_Pool

  The pool of MPI ranks that running tasks draw from. Each managed rank
  occupies one slot: its identifier and an availability flag. `total_`
  and `available_` are 32-bit counters kept beside the slots.

  Every public method holds the structural mutex throughout, so each is
  one atomic operation here. The main results are one specification per
  operation: which ranks it makes unavailable, and that the counters keep
  counting the slots.
-/

namespace Dagr

open scoped List

/-! ## Section 1: Model -/

/-- `dagr::detail::Rank_Pool`. -/
structure RankPool where
  /-- Slot `i` is `(rank_ids_[i], bitset_[i])`; the flag is `true` while the
      rank is available. -/
  slots : List (Int × Bool)
  /-- `total_`, a 32-bit counter. -/
  total : Nat
  /-- `available_`, a 32-bit counter. -/
  available : Nat
  deriving DecidableEq

namespace RankPool

/-- The constructor: every rank of the set is managed and available. -/
def make (ranks : OrdSet Int) : RankPool where
  slots := ranks.toList.map (·, true)
  total := ranks.size % 2 ^ 32
  available := ranks.size % 2 ^ 32

/-- The claiming loop of `try_allocate`: walk the slots, flip available ones
    and collect their ranks until `count` are held. -/
def claim (count : Nat) : List (Int × Bool) → OrdSet Int → List (Int × Bool) × OrdSet Int
  | [], allocated => ([], allocated)
  | (r, free) :: slots, allocated =>
    if allocated.size < count then
      let rest := claim count slots (if free then allocated.insert r else allocated)
      ((r, false) :: rest.1, rest.2)
    else ((r, free) :: slots, allocated)

/-- `Rank_Pool::try_allocate`. The empty set reports insufficient ranks. -/
def try_allocate (p : RankPool) (count : Nat) : Except String (RankPool × OrdSet Int) :=
  if count = 0 then
    .error "Rank_Pool::try_allocate: count must be > 0"
  else if p.available < count then
    .ok (p, .empty)
  else
    let claimed := claim count p.slots .empty
    if claimed.2.size < count then
      -- roll back every flag that was flipped
      .ok ({ p with slots := claimed.1.map fun s => if s.1 ∈ claimed.2 then (s.1, true) else s },
        .empty)
    else
      .ok ({ p with slots := claimed.1, available := Word.sub 32 p.available claimed.2.size },
        claimed.2)

/-- `Rank_Pool::release`. Ranks that are foreign or already available are
    ignored and not counted. -/
def release (p : RankPool) (ranks : OrdSet Int) : RankPool :=
  { p with
    slots := p.slots.map fun s => if s.1 ∈ ranks then (s.1, true) else s
    available := Word.add 32 p.available (p.slots.countP fun s => s.1 ∈ ranks ∧ !s.2) }

/-- One iteration of `add_ranks`. -/
def add_rank (p : RankPool) (r : Int) : RankPool :=
  if p.slots.any (·.1 == r) then p
  else
    { slots := p.slots ++ [(r, true)]
      total := Word.add 32 p.total 1
      available := Word.add 32 p.available 1 }

/-- `Rank_Pool::add_ranks`. -/
def add_ranks (p : RankPool) (ranks : OrdSet Int) : RankPool :=
  ranks.toList.foldl add_rank p

/-- `Rank_Pool::remove_available`: drop the available slots of the given
    ranks by swap-with-last-and-pop, from the highest index down. -/
def remove_available (p : RankPool) (ranks : OrdSet Int) : RankPool × OrdSet Int :=
  let hit := fun s : Int × Bool => decide (s.1 ∈ ranks) && s.2
  let indices_to_remove := (Vec.indices hit p.slots).insertionSort (· ≥ ·)
  let removed := (p.slots.filter hit).foldl (fun acc s => acc.insert s.1) .empty
  ({ slots := indices_to_remove.foldl Vec.swap_remove p.slots
     total := Word.sub 32 p.total removed.size
     available := Word.sub 32 p.available removed.size }, removed)

def total_ranks (p : RankPool) : Nat := p.total

def available_ranks (p : RankPool) : Nat := p.available

def allocated_ranks (p : RankPool) : Nat := Word.sub 32 p.total p.available

/-! ## Section 2: Invariant -/

/-- Rank `r` is managed by the pool. -/
def Manages (p : RankPool) (r : Int) : Prop := r ∈ p.slots.map Prod.fst

/-- Rank `r` is marked unavailable. -/
def Unavailable (p : RankPool) (r : Int) : Prop := (r, false) ∈ p.slots

/-- The slots hold distinct ranks and the counters count them. -/
structure Inv (p : RankPool) : Prop where
  nodup : (p.slots.map Prod.fst).Nodup
  total_eq : p.total = p.slots.length % 2 ^ 32
  available_eq : p.available = p.slots.countP (·.2) % 2 ^ 32

theorem Unavailable.manages {p : RankPool} {r : Int} (h : p.Unavailable r) : p.Manages r :=
  List.mem_map_of_mem (f := Prod.fst) h

theorem Inv.flag_unique {p : RankPool} (h : p.Inv) {r : Int} {b c : Bool}
    (hb : (r, b) ∈ p.slots) (hc : (r, c) ∈ p.slots) : b = c :=
  congrArg Prod.snd (List.inj_on_of_nodup_map h.nodup hb hc rfl)

theorem inv_make (ranks : OrdSet Int) : (make ranks).Inv where
  nodup := by simpa [make, Function.comp_def] using ranks.nodup
  total_eq := by simp [make, OrdSet.size]
  available_eq := by simp [make, OrdSet.size, List.countP_map, Function.comp_def]

theorem not_unavailable_make (ranks : OrdSet Int) (r : Int) : ¬ (make ranks).Unavailable r := by
  simp [make, Unavailable]

theorem Inv.available_add_allocated {p : RankPool} (h : p.Inv) :
    Word.add 32 p.available_ranks p.allocated_ranks = p.total_ranks := by
  have ht : p.total < 2 ^ 32 := by rw [h.total_eq]; exact Nat.mod_lt _ (by norm_num)
  have ha : p.available < 2 ^ 32 := by rw [h.available_eq]; exact Nat.mod_lt _ (by norm_num)
  simp only [available_ranks, allocated_ranks, total_ranks, Word.add, Word.sub]
  omega

theorem Inv.allocated_ranks_eq {p : RankPool} (h : p.Inv) :
    p.allocated_ranks = p.slots.countP (!·.2) % 2 ^ 32 := by
  have hlen := List.length_eq_countP_add_countP (·.2) (l := p.slots)
  have hnot : p.slots.countP (fun s => decide (¬ s.2 = true)) = p.slots.countP (!·.2) :=
    List.countP_congr fun s _ => by simp
  simp only [allocated_ranks, h.total_eq, h.available_eq, Word.sub]
  omega

theorem Inv.counters_exact {p : RankPool} (h : p.Inv) (hlen : p.slots.length < 2 ^ 32) :
    p.available_ranks = p.slots.countP (·.2) ∧ p.allocated_ranks = p.slots.countP (!·.2) ∧
    p.available_ranks + p.allocated_ranks = p.total_ranks := by
  have hsplit := List.length_eq_countP_add_countP (·.2) (l := p.slots)
  have hnot : p.slots.countP (fun s => decide (¬ s.2 = true)) = p.slots.countP (!·.2) :=
    List.countP_congr fun s _ => by simp
  rw [h.allocated_ranks_eq, available_ranks, total_ranks, h.available_eq, h.total_eq,
    Nat.mod_eq_of_lt hlen, Nat.mod_eq_of_lt (by omega), Nat.mod_eq_of_lt (by omega)]
  exact ⟨rfl, rfl, by omega⟩

/-! ## Section 3: try_allocate -/

theorem claim_map_fst (count : Nat) (slots : List (Int × Bool)) (allocated : OrdSet Int) :
    (claim count slots allocated).1.map Prod.fst = slots.map Prod.fst := by
  induction slots generalizing allocated with
  | nil => rfl
  | cons s slots ih =>
    unfold claim
    split
    · simp only [List.map_cons, ih]
    · rfl

theorem subset_claim {count : Nat} {slots : List (Int × Bool)} {allocated : OrdSet Int} {r : Int}
    (h : r ∈ allocated) : r ∈ (claim count slots allocated).2 := by
  induction slots generalizing allocated with
  | nil => exact h
  | cons s slots ih =>
    unfold claim
    split
    · apply ih
      split
      · exact OrdSet.mem_insert.mpr (.inr h)
      · exact h
    · exact h

theorem mem_claim {count : Nat} {slots : List (Int × Bool)} {allocated : OrdSet Int} {r : Int}
    (h : r ∈ (claim count slots allocated).2) : r ∈ allocated ∨ (r, true) ∈ slots := by
  induction slots generalizing allocated with
  | nil => exact .inl h
  | cons s slots ih =>
    obtain ⟨r₀, free⟩ := s
    unfold claim at h
    split at h
    · cases free with
      | true =>
        rcases ih h with hmem | hmem
        · rcases OrdSet.mem_insert.mp hmem with rfl | hmem
          · exact .inr List.mem_cons_self
          · exact .inl hmem
        · exact .inr (List.mem_cons_of_mem _ hmem)
      | false => exact (ih h).imp id (List.mem_cons_of_mem _)
    · exact .inl h

/-- What the claiming loop does to the flags and the counts. The slots
    still to be visited hold ranks that are not in hand yet, so a rank
    enters the set exactly when its flag is flipped. -/
theorem claim_spec {count : Nat} {slots : List (Int × Bool)} (allocated : OrdSet Int)
    (hnd : (slots.map Prod.fst).Nodup) (hfresh : ∀ s ∈ slots, s.1 ∉ allocated)
    (hle : allocated.size ≤ count) :
    (∀ r, (r, false) ∈ (claim count slots allocated).1 ↔
      (r, false) ∈ slots ∨ (r, true) ∈ slots ∧ r ∈ (claim count slots allocated).2) ∧
    (claim count slots allocated).2.size = min count (allocated.size + slots.countP (·.2)) ∧
    (claim count slots allocated).1.countP (·.2) + (claim count slots allocated).2.size =
      slots.countP (·.2) + allocated.size := by
  induction slots generalizing allocated with
  | nil => simp [claim, hle]
  | cons s slots ih =>
    obtain ⟨r₀, free⟩ := s
    rw [List.map_cons, List.nodup_cons] at hnd
    obtain ⟨hr₀, hnd⟩ := hnd
    have hfresh' : ∀ s ∈ slots, s.1 ∉ allocated := fun s hs =>
      hfresh s (List.mem_cons_of_mem _ hs)
    by_cases hlt : allocated.size < count
    · rw [claim, if_pos hlt]
      cases free with
      | true =>
        have hsize := OrdSet.size_insert (hfresh _ List.mem_cons_self)
        have hfresh'' : ∀ s ∈ slots, s.1 ∉ allocated.insert r₀ := fun s hs hmem => by
          rcases OrdSet.mem_insert.mp hmem with heq | hmem
          · exact hr₀ (List.mem_map.mpr ⟨s, hs, heq⟩)
          · exact hfresh' s hs hmem
        obtain ⟨hflag, hcard, hcount⟩ := ih _ hnd hfresh'' (by simp only at hsize; omega)
        have hin : r₀ ∈ (claim count slots (allocated.insert r₀)).2 :=
          subset_claim (OrdSet.mem_insert.mpr (.inl rfl))
        simp only [if_true, List.mem_cons, Prod.mk.injEq, List.countP_cons, hflag]
        simp only at hsize
        refine ⟨fun r => ?_, by omega, by simp; omega⟩
        constructor
        · rintro (⟨rfl, -⟩ | h | h)
          · exact .inr ⟨.inl ⟨rfl, trivial⟩, hin⟩
          · exact .inl (.inr h)
          · exact .inr ⟨.inr h.1, h.2⟩
        · rintro ((⟨-, h⟩ | h) | ⟨⟨rfl, -⟩ | h, h'⟩)
          · cases h
          · exact .inr (.inl h)
          · exact .inl ⟨rfl, trivial⟩
          · exact .inr (.inr ⟨h, h'⟩)
      | false =>
        obtain ⟨hflag, hcard, hcount⟩ := ih _ hnd hfresh' hle
        simp only [Bool.false_eq_true, if_false, List.mem_cons, Prod.mk.injEq, List.countP_cons,
          hflag]
        refine ⟨fun r => ?_, by omega, by simp; omega⟩
        simp only [reduceCtorEq, and_false, and_true, false_or, or_assoc]
    · rw [claim, if_neg hlt]
      refine ⟨fun r => ?_, by simp only; omega, rfl⟩
      constructor
      · exact .inl
      · rintro (h | ⟨h, hin⟩)
        · exact h
        · exact absurd hin (hfresh _ h)

/-- **`try_allocate`** hands out exactly `count` ranks when there are as many,
    all available before, and marks exactly these unavailable. -/
theorem try_allocate_of_le {p : RankPool} (hp : p.Inv) {count : Nat} (hpos : 0 < count)
    (hle : count ≤ p.available) :
    ∃ p' ranks, p.try_allocate count = .ok (p', ranks) ∧ ranks.size = count ∧ p'.Inv ∧
      (∀ r ∈ ranks, p.Manages r ∧ ¬ p.Unavailable r) ∧
      (∀ r, p'.Unavailable r ↔ p.Unavailable r ∨ r ∈ ranks) ∧
      (∀ r, p'.Manages r ↔ p.Manages r) := by
  unfold try_allocate
  rw [if_neg (by omega), if_neg (by omega)]
  obtain ⟨hflag, hcard, hcount⟩ := claim_spec .empty hp.nodup
    (fun _ _ => OrdSet.not_mem_empty _) (Nat.zero_le count)
  have hlim : p.available ≤ p.slots.countP (·.2) := hp.available_eq ▸ Nat.mod_le _ _
  rw [OrdSet.size_empty] at hcard hcount
  have hsize : (claim count p.slots .empty).2.size = count := by omega
  have hnew : ∀ r ∈ (claim count p.slots .empty).2, (r, true) ∈ p.slots := fun r hr =>
    (mem_claim hr).resolve_left (OrdSet.not_mem_empty r)
  refine ⟨_, _, by rw [if_neg (by omega)], hsize, ?_, ?_, ?_, ?_⟩
  · refine ⟨?_, ?_, ?_⟩
    · simpa [claim_map_fst] using hp.nodup
    · have := congrArg List.length (claim_map_fst count p.slots .empty)
      simp only [List.length_map] at this
      simpa [this] using hp.total_eq
    · simp only
      rw [hp.available_eq, Word.sub_mod (by omega)]
      congr 1
      omega
  · intro r hr
    refine ⟨List.mem_map_of_mem (f := Prod.fst) (hnew r hr), fun h => ?_⟩
    exact absurd (hp.flag_unique (hnew r hr) h) (by simp)
  · intro r
    simp only [Unavailable, hflag]
    constructor
    · exact Or.imp id And.right
    · exact Or.imp id fun h => ⟨hnew r h, h⟩
  · intro r
    simp only [Manages, claim_map_fst]

/-- **`try_allocate`** either reports insufficient ranks and changes nothing,
    or hands out exactly `count` ranks. -/
theorem try_allocate_spec {p : RankPool} (hp : p.Inv) {count : Nat} (hpos : 0 < count) :
    (p.try_allocate count = .ok (p, .empty)) ∨
    ∃ p' ranks, p.try_allocate count = .ok (p', ranks) ∧ ranks.size = count ∧ p'.Inv ∧
      (∀ r ∈ ranks, p.Manages r ∧ ¬ p.Unavailable r) ∧
      (∀ r, p'.Unavailable r ↔ p.Unavailable r ∨ r ∈ ranks) ∧
      (∀ r, p'.Manages r ↔ p.Manages r) := by
  by_cases hshort : p.available < count
  · unfold try_allocate
    rw [if_neg (by omega), if_pos hshort]
    exact .inl rfl
  · exact .inr (try_allocate_of_le hp hpos (by omega))

theorem try_allocate_manages {p p' : RankPool} {count : Nat} {ranks : OrdSet Int}
    (h : p.try_allocate count = .ok (p', ranks)) (r : Int) : p'.Manages r ↔ p.Manages r := by
  unfold try_allocate at h
  split at h
  · cases h
  · split at h
    · cases h; rfl
    · have hfst := claim_map_fst count p.slots .empty
      simp only at h
      split at h
      · -- the rollback touches flags only
        cases h
        have hback : ((claim count p.slots .empty).1.map fun s =>
            if s.1 ∈ (claim count p.slots .empty).2 then (s.1, true) else s).map Prod.fst =
            (claim count p.slots .empty).1.map Prod.fst := by
          rw [List.map_map]
          exact List.map_congr_left fun s _ => by simp only [Function.comp_apply]; split <;> rfl
        simp only [Manages, hback, hfst]
      · cases h
        simp only [Manages, hfst]

theorem try_allocate_available {p p' : RankPool} (hp : p.Inv) {count : Nat} {ranks : OrdSet Int}
    (h : p.try_allocate count = .ok (p', ranks)) (hsome : ranks.size ≠ 0) :
    p'.available = p.available - ranks.size := by
  obtain ⟨-, hcard, -⟩ := @claim_spec count p.slots .empty hp.nodup
    (fun _ _ => OrdSet.not_mem_empty _) (Nat.zero_le count)
  unfold try_allocate at h
  split at h
  · cases h
  · split at h
    · cases h
      exact absurd OrdSet.size_empty hsome
    · next hle =>
      simp only at h
      split at h
      · cases h
        exact absurd OrdSet.size_empty hsome
      · cases h
        have hlt : p.available < 2 ^ 32 := hp.available_eq ▸ Nat.mod_lt _ (by norm_num)
        exact Word.sub_of_le hlt (by omega)

theorem try_allocate_ok {p : RankPool} {count : Nat} (hpos : 0 < count) (msg : String) :
    p.try_allocate count ≠ .error msg := by
  unfold try_allocate
  rw [if_neg (by omega)]
  split
  · simp
  · simp only
    split
    · simp
    · simp

/-! ## Section 4: release -/

theorem release_map_fst (p : RankPool) (ranks : OrdSet Int) :
    (p.release ranks).slots.map Prod.fst = p.slots.map Prod.fst := by
  simp only [release, List.map_map]
  exact List.map_congr_left fun s _ => by simp only [Function.comp_apply]; split <;> rfl

theorem release_inv {p : RankPool} (hp : p.Inv) (ranks : OrdSet Int) :
    (p.release ranks).Inv := by
  refine ⟨by rw [release_map_fst]; exact hp.nodup, by simpa [release] using hp.total_eq, ?_⟩
  have hsplit : (p.release ranks).slots.countP (·.2) =
      p.slots.countP (·.2) + p.slots.countP fun s => s.1 ∈ ranks ∧ !s.2 := by
    simp only [release, List.countP_map]
    induction p.slots with
    | nil => rfl
    | cons s slots ih =>
      simp only [List.countP_cons, ih]
      obtain ⟨r, free⟩ := s
      by_cases hr : r ∈ ranks <;> cases free <;> simp [hr] <;> omega
  rw [hsplit]
  simp only [release, hp.available_eq, Word.add_mod]

theorem release_manages (p : RankPool) (ranks : OrdSet Int) (r : Int) :
    (p.release ranks).Manages r ↔ p.Manages r := by
  rw [Manages, release_map_fst, Manages]

/-- **`release`** makes exactly the given ranks available again. -/
theorem release_unavailable (p : RankPool) (ranks : OrdSet Int) (r : Int) :
    (p.release ranks).Unavailable r ↔ p.Unavailable r ∧ r ∉ ranks := by
  simp only [Unavailable, release, List.mem_map]
  constructor
  · rintro ⟨s, hs, heq⟩
    split at heq
    · cases heq
    · next hnot => subst heq; exact ⟨hs, hnot⟩
  · rintro ⟨h, hnot⟩
    exact ⟨(r, false), h, by simp [hnot]⟩

/-! ## Section 5: add_ranks -/

theorem add_rank_inv {p : RankPool} (hp : p.Inv) (r : Int) : (p.add_rank r).Inv := by
  unfold add_rank
  split
  · exact hp
  · next hnew =>
    have hnot : r ∉ p.slots.map Prod.fst := by
      simpa [List.any_eq_true] using hnew
    refine ⟨?_, ?_, ?_⟩
    · rw [List.map_append, List.nodup_append]
      refine ⟨hp.nodup, List.nodup_singleton _, fun a ha b hb heq => hnot ?_⟩
      rw [List.map_singleton, List.mem_singleton] at hb
      rwa [heq, hb] at ha
    · simp only [hp.total_eq, Word.add_mod, List.length_append, List.length_singleton]
    · rw [hp.available_eq, Word.add_mod, List.countP_append]
      simp

theorem add_rank_unavailable (p : RankPool) (r r' : Int) :
    (p.add_rank r).Unavailable r' ↔ p.Unavailable r' := by
  unfold add_rank
  split
  · rfl
  · simp [Unavailable]

/-- **`add_ranks`** keeps the counters exact. -/
theorem add_ranks_inv {p : RankPool} (hp : p.Inv) (ranks : OrdSet Int) :
    (p.add_ranks ranks).Inv := by
  unfold add_ranks
  induction ranks.toList generalizing p with
  | nil => exact hp
  | cons r rs ih => exact ih (add_rank_inv hp r)

/-- **`add_ranks`** leaves the allocated ranks as they are. -/
theorem add_ranks_unavailable (p : RankPool) (ranks : OrdSet Int) (r : Int) :
    (p.add_ranks ranks).Unavailable r ↔ p.Unavailable r := by
  unfold add_ranks
  induction ranks.toList generalizing p with
  | nil => rfl
  | cons r' rs ih => rw [List.foldl_cons, ih, add_rank_unavailable]

theorem add_rank_manages (p : RankPool) (r r' : Int) :
    (p.add_rank r).Manages r' ↔ p.Manages r' ∨ r' = r := by
  unfold add_rank
  split
  · next hold =>
    have hr : p.Manages r := by simpa [Manages, List.any_eq_true] using hold
    refine ⟨Or.inl, ?_⟩
    rintro (h | rfl)
    · exact h
    · exact hr
  · simp [Manages]

/-- **`add_ranks`** brings the given ranks under management. -/
theorem add_ranks_manages (p : RankPool) (ranks : OrdSet Int) (r : Int) :
    (p.add_ranks ranks).Manages r ↔ p.Manages r ∨ r ∈ ranks := by
  rw [OrdSet.mem_def]
  unfold add_ranks
  induction ranks.toList generalizing p with
  | nil => simp
  | cons r' rs ih => rw [List.foldl_cons, ih, add_rank_manages, List.mem_cons, or_assoc]

/-! ## Section 6: remove_available -/

/-- The slots `remove_available` takes out. -/
def Hit (ranks : OrdSet Int) (s : Int × Bool) : Bool := decide (s.1 ∈ ranks) && s.2

theorem remove_available_slots (p : RankPool) (ranks : OrdSet Int) :
    (p.remove_available ranks).1.slots ~ p.slots.filter (!Hit ranks ·) :=
  Vec.remove_indices_perm (Hit ranks) p.slots

theorem foldl_insert_spec {slots : List (Int × Bool)} (acc : OrdSet Int)
    (hnd : (slots.map Prod.fst).Nodup) (hfresh : ∀ s ∈ slots, s.1 ∉ acc) :
    (∀ r, r ∈ slots.foldl (fun acc s => acc.insert s.1) acc ↔
      r ∈ acc ∨ r ∈ slots.map Prod.fst) ∧
    (slots.foldl (fun acc s => acc.insert s.1) acc).size = acc.size + slots.length := by
  induction slots generalizing acc with
  | nil => simp
  | cons s slots ih =>
    rw [List.map_cons, List.nodup_cons] at hnd
    obtain ⟨hs, hnd⟩ := hnd
    have hfresh' : ∀ s' ∈ slots, s'.1 ∉ acc.insert s.1 := fun s' hs' hmem => by
      rcases OrdSet.mem_insert.mp hmem with heq | hmem
      · exact hs (List.mem_map.mpr ⟨s', hs', heq⟩)
      · exact hfresh s' (List.mem_cons_of_mem _ hs') hmem
    obtain ⟨hmem, hsize⟩ := ih _ hnd hfresh'
    have hins := OrdSet.size_insert (hfresh s List.mem_cons_self)
    refine ⟨fun r => ?_, by rw [List.foldl_cons, hsize, hins, List.length_cons]; omega⟩
    rw [List.foldl_cons, hmem, OrdSet.mem_insert, List.map_cons, List.mem_cons]
    tauto

theorem remove_available_removed {p : RankPool} (hp : p.Inv) (ranks : OrdSet Int) :
    (∀ r, r ∈ (p.remove_available ranks).2 ↔ r ∈ ranks ∧ (r, true) ∈ p.slots) ∧
    (p.remove_available ranks).2.size = p.slots.countP (Hit ranks) := by
  have hnd : ((p.slots.filter (Hit ranks)).map Prod.fst).Nodup :=
    hp.nodup.sublist (List.filter_sublist.map _)
  obtain ⟨hmem, hsize⟩ := foldl_insert_spec .empty hnd
    fun _ _ => OrdSet.not_mem_empty _
  refine ⟨fun r => (hmem r).trans ?_, hsize.trans ?_⟩
  · simp only [OrdSet.not_mem_empty, false_or, List.mem_map, List.mem_filter, Hit,
      Bool.and_eq_true, decide_eq_true_eq]
    constructor
    · rintro ⟨⟨r', b⟩, ⟨hin, hr, hb⟩, rfl⟩
      exact ⟨hr, by simpa [show b = true from hb] using hin⟩
    · rintro ⟨hr, hin⟩
      exact ⟨(r, true), ⟨hin, hr, rfl⟩, rfl⟩
  · rw [OrdSet.size_empty, Nat.zero_add, List.countP_eq_length_filter]

/-- **`remove_available`** keeps the counters exact. -/
theorem remove_available_inv {p : RankPool} (hp : p.Inv) (ranks : OrdSet Int) :
    (p.remove_available ranks).1.Inv := by
  have hslots := remove_available_slots p ranks
  have hsize := (remove_available_removed hp ranks).2
  have hlen := List.length_eq_countP_add_countP (Hit ranks) (l := p.slots)
  have hnot : p.slots.countP (fun s => decide (¬ Hit ranks s = true)) =
      p.slots.countP (!Hit ranks ·) := List.countP_congr fun s _ => by simp
  refine ⟨?_, ?_, ?_⟩
  · exact ((hslots.map Prod.fst).nodup_iff).mpr
      (hp.nodup.sublist (List.filter_sublist.map _))
  · rw [hslots.length_eq, ← List.countP_eq_length_filter]
    simp only [remove_available] at hsize ⊢
    rw [hsize, hp.total_eq, Word.sub_mod (by omega)]
    congr 1
    omega
  · -- an available slot is either hit or kept
    have hsplit : p.slots.countP (·.2) =
        p.slots.countP (Hit ranks) + (p.slots.filter (!Hit ranks ·)).countP (·.2) := by
      rw [List.countP_filter]
      induction p.slots with
      | nil => rfl
      | cons s slots ih =>
        simp only [List.countP_cons, ih, Hit]
        obtain ⟨r, free⟩ := s
        by_cases hr : r ∈ ranks <;> cases free <;> simp [hr] <;> omega
    rw [hslots.countP_eq]
    simp only [remove_available] at hsize ⊢
    rw [hsize, hp.available_eq, Word.sub_mod (by omega)]
    congr 1
    omega

/-- **`remove_available`** never touches an allocated rank. -/
theorem remove_available_unavailable (p : RankPool) (ranks : OrdSet Int) (r : Int) :
    (p.remove_available ranks).1.Unavailable r ↔ p.Unavailable r := by
  rw [Unavailable, (remove_available_slots p ranks).mem_iff]
  simp [Hit, Unavailable]

/-- **`remove_available`** gives up exactly the available ones of the given
    ranks. -/
theorem remove_available_manages {p : RankPool} (hp : p.Inv) (ranks : OrdSet Int) (r : Int) :
    (p.remove_available ranks).1.Manages r ↔
      p.Manages r ∧ ¬ (r ∈ ranks ∧ (r, true) ∈ p.slots) := by
  rw [Manages, ((remove_available_slots p ranks).map Prod.fst).mem_iff, List.mem_map]
  constructor
  · rintro ⟨⟨r', free⟩, hslot, rfl⟩
    obtain ⟨hin, hkept⟩ := List.mem_filter.mp hslot
    refine ⟨List.mem_map_of_mem (f := Prod.fst) hin, fun h => ?_⟩
    have hfree : free = true := hp.flag_unique hin h.2
    simp [Hit, hfree, h.1] at hkept
  · rintro ⟨hman, hnot⟩
    obtain ⟨⟨r', free⟩, hin, rfl⟩ := List.mem_map.mp hman
    refine ⟨(r', free), List.mem_filter.mpr ⟨hin, ?_⟩, rfl⟩
    by_contra hhit
    rw [Bool.not_eq_true, Bool.not_eq_false', Hit, Bool.and_eq_true, decide_eq_true_eq] at hhit
    exact hnot ⟨hhit.1, hhit.2 ▸ hin⟩

theorem manages_iff (p : RankPool) (r : Int) :
    p.Manages r ↔ (r, true) ∈ p.slots ∨ p.Unavailable r := by
  constructor
  · intro h
    obtain ⟨⟨r', free⟩, hin, rfl⟩ := List.mem_map.mp h
    cases free with
    | true => exact .inl hin
    | false => exact .inr hin
  · rintro (h | h)
    · exact List.mem_map_of_mem (f := Prod.fst) h
    · exact h.manages

end RankPool

end Dagr
