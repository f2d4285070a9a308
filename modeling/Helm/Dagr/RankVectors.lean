import Helm.Dagr.RankPool
import Helm.Framework.Signed
import Helm.Framework.System

/-! # The vectors of Rank_Pool

  `Rank_Pool` keeps the ranks and their availability in two vectors, and
  its loops walk both by index. This module models the loops as they are,
  where an index past the end of a vector makes the call undefined, and
  shows that each call does to the two vectors what the pool of slots does
  to its slots.

  Main results:
  - `conc_try_allocate`, `conc_release`, `conc_add_ranks` and
    `conc_remove_available`: the simulation
  - `run_correct`: what every operation does after any sequence of
    operations
-/

namespace Dagr

open scoped List
open LTS Signed

/-! ## Section 1: Model -/

/-- The fields of `Rank_Pool`. -/
structure RankVectors where
  rank_ids : List Int
  /-- `true` while the rank is available. -/
  bitset : List Bool
  total : Nat
  available : Nat
  deriving DecidableEq

namespace RankVectors

def make (ranks : OrdSet Int) : RankVectors where
  rank_ids := ranks.toList
  bitset := List.replicate ranks.size true
  total := ranks.size % 2 ^ 32
  available := ranks.size % 2 ^ 32

/-- The loop of `try_allocate` over the remaining indices. -/
def claim (rank_ids : List Int) (count : Nat) :
    List Nat → List Bool → OrdSet Int → Option (List Bool × OrdSet Int)
  | [], bitset, allocated => some (bitset, allocated)
  | i :: is, bitset, allocated =>
    if allocated.size < count then
      match bitset[i]? with
      | none => none
      | some false => claim rank_ids count is bitset allocated
      | some true =>
        match rank_ids[i]? with
        | none => none
        | some r => claim rank_ids count is (bitset.set i false) (allocated.insert r)
    else some (bitset, allocated)

/-- The bits of the allocated ranks are set again. -/
def roll_back (rank_ids : List Int) (allocated : OrdSet Int) :
    List Nat → List Bool → Option (List Bool)
  | [], bitset => some bitset
  | i :: is, bitset =>
    match rank_ids[i]? with
    | none => none
    | some r => roll_back rank_ids allocated is (if r ∈ allocated then bitset.set i true else bitset)

def try_allocate (p : RankVectors) (count : Nat) :
    Option (Except String (RankVectors × OrdSet Int)) :=
  if count = 0 then
    some (.error "Rank_Pool::try_allocate: count must be > 0")
  else if p.available < count then
    some (.ok (p, .empty))
  else
    let indices := List.range p.bitset.length
    (claim p.rank_ids count indices p.bitset .empty).bind fun claimed =>
      if claimed.2.size < count then
        (roll_back p.rank_ids claimed.2 indices claimed.1).map fun bitset =>
          .ok ({ p with bitset := bitset }, .empty)
      else
        some (.ok ({ p with
          bitset := claimed.1, available := Word.sub 32 p.available (claimed.2.size % 2 ^ 32) },
          claimed.2))

/-- The loop of `release`, with `released_count`. -/
def mark (rank_ids : List Int) (ranks : OrdSet Int) :
    List Nat → List Bool → Nat → Option (List Bool × Nat)
  | [], bitset, released_count => some (bitset, released_count)
  | i :: is, bitset, released_count =>
    match rank_ids[i]? with
    | none => none
    | some r =>
      if r ∈ ranks then
        match bitset[i]? with
        | none => none
        | some true => mark rank_ids ranks is bitset released_count
        | some false =>
          mark rank_ids ranks is (bitset.set i true) (Word.add 32 released_count 1)
      else mark rank_ids ranks is bitset released_count

def release (p : RankVectors) (ranks : OrdSet Int) : Option RankVectors :=
  (mark p.rank_ids ranks (List.range p.bitset.length) p.bitset 0).map fun marked =>
    { p with
      bitset := marked.1
      available := if marked.2 > 0 then Word.add 32 p.available marked.2 else p.available }

/-- One iteration of `add_ranks`. -/
def add_rank (p : RankVectors) (r : Int) : RankVectors :=
  if p.rank_ids.any (· == r) then p
  else
    { rank_ids := p.rank_ids ++ [r]
      bitset := p.bitset ++ [true]
      total := Word.add 32 p.total 1
      available := Word.add 32 p.available 1 }

def add_ranks (p : RankVectors) (ranks : OrdSet Int) : RankVectors :=
  ranks.toList.foldl add_rank p

/-- The first loop of `remove_available`: `removed` and `indices_to_remove`. -/
def select (p : RankVectors) (ranks : OrdSet Int) :
    List Nat → OrdSet Int → List Nat → Option (OrdSet Int × List Nat)
  | [], removed, indices_to_remove => some (removed, indices_to_remove)
  | i :: is, removed, indices_to_remove =>
    match p.rank_ids[i]? with
    | none => none
    | some r =>
      if r ∈ ranks then
        match p.bitset[i]? with
        | none => none
        | some false => select p ranks is removed indices_to_remove
        | some true => select p ranks is (removed.insert r) (indices_to_remove ++ [i])
      else select p ranks is removed indices_to_remove

/-- `std::swap(v[idx], v[last])` unless they are the same, and `pop_back`. -/
def swap_pop {α : Type} (v : List α) (idx last : Nat) : Option (List α) :=
  if idx ≠ last then
    match v[idx]?, v[last]? with
    | some x, some y => some ((v.set idx y).set last x).dropLast
    | _, _ => none
  else if v = [] then none
  else some v.dropLast

/-- The second loop: `last` is the last index of `rank_ids_` for both vectors. -/
def remove_indices : List Nat → RankVectors → Option RankVectors
  | [], p => some p
  | idx :: is, p =>
    let last := p.rank_ids.length - 1
    match swap_pop p.rank_ids idx last, swap_pop p.bitset idx last with
    | some rank_ids, some bitset => remove_indices is { p with rank_ids := rank_ids, bitset := bitset }
    | _, _ => none

def remove_available (p : RankVectors) (ranks : OrdSet Int) : Option (RankVectors × OrdSet Int) :=
  (select p ranks (List.range p.rank_ids.length) .empty []).bind fun selected =>
    let indices_to_remove := selected.2.insertionSort (· ≥ ·)
    let removed_count := selected.1.size % 2 ^ 32
    (remove_indices indices_to_remove p).map fun p =>
      (if removed_count > 0 then
        { p with
          total := Word.sub 32 p.total removed_count
          available := Word.sub 32 p.available removed_count }
      else p, selected.1)

/-- The `i`-th rank is `r`, and its bit is `free`. -/
def Marked (p : RankVectors) (r : Int) (free : Bool) : Prop :=
  ∃ i : Nat, p.rank_ids[i]? = some r ∧ p.bitset[i]? = some free

/-! ### Runs -/

/-- `std::set<int>`, whose elements are 32-bit integers. -/
def Ints (ranks : OrdSet Int) : Prop := ∀ r ∈ ranks, Fits 32 r

instance (ranks : OrdSet Int) : Decidable (Ints ranks) :=
  inferInstanceAs (Decidable (∀ r ∈ ranks.toList, Fits 32 r))

inductive Label
  | try_allocate (count : Nat)
  | release (ranks : OrdSet Int)
  | add_ranks (ranks : OrdSet Int)
  | remove_available (ranks : OrdSet Int)

/-- Every operation holds the mutex from its first access to its last. An
    exception leaves the pool as it was. -/
def step (p : RankVectors) : Label → RankVectors → Prop
  | .try_allocate count, p' =>
    count < 2 ^ 32 ∧ ((∃ ranks, p.try_allocate count = some (.ok (p', ranks))) ∨
      (∃ what, p.try_allocate count = some (.error what)) ∧ p' = p)
  | .release ranks, p' => Ints ranks ∧ p.release ranks = some p'
  | .add_ranks ranks, p' => Ints ranks ∧ p' = p.add_ranks ranks
  | .remove_available ranks, p' => Ints ranks ∧ ∃ removed, p.remove_available ranks = some (p', removed)

/-- A pool is made from a set of ranks; the default pool is that of no ranks. -/
def system : System RankVectors Label where
  init := fun p => ∃ ranks, Ints ranks ∧ p = make ranks
  step := step

/-! ## Section 2: Vectors of slots -/

/-- The vectors that keep the slots of a pool. -/
def conc (q : RankPool) : RankVectors where
  rank_ids := q.slots.map Prod.fst
  bitset := q.slots.map Prod.snd
  total := q.total
  available := q.available

theorem conc_make (ranks : OrdSet Int) : conc (RankPool.make ranks) = make ranks := by
  simp [conc, RankPool.make, make, Function.comp_def, OrdSet.size]

theorem conc_marked (q : RankPool) (r : Int) (free : Bool) :
    (conc q).Marked r free ↔ (r, free) ∈ q.slots := by
  unfold Marked conc
  rw [List.mem_iff_getElem?]
  apply exists_congr
  intro i
  cases h : q.slots[i]? with
  | none => simp [h]
  | some slot => simp [h, Prod.ext_iff]

theorem conc_manages (q : RankPool) (r : Int) : r ∈ (conc q).rank_ids ↔ q.Manages r := Iff.rfl

section Loops

variable (slots done : List (Int × Bool)) (allocated : OrdSet Int) (count : Nat)

theorem claim_eq : claim ((done ++ slots).map Prod.fst) count
      (List.range' done.length slots.length) ((done ++ slots).map Prod.snd) allocated =
    some ((done ++ (RankPool.claim count slots allocated).1).map Prod.snd,
      (RankPool.claim count slots allocated).2) := by
  induction slots generalizing done allocated with
  | nil => simp [claim, RankPool.claim]
  | cons slot slots ih =>
    obtain ⟨r, free⟩ := slot
    have hbit : ((done ++ (r, free) :: slots).map Prod.snd)[done.length]? = some free := by simp
    have hrank : ((done ++ (r, free) :: slots).map Prod.fst)[done.length]? = some r := by simp
    rw [List.length_cons, List.range'_succ, claim, RankPool.claim]
    split
    · have hnext := ih (done ++ [(r, false)])
      simp only [List.length_append, List.length_singleton, List.append_assoc,
        List.singleton_append] at hnext
      cases free with
      | false =>
        rw [hbit]
        simpa using hnext allocated
      | true =>
        rw [hbit, hrank]
        have hset : ((done ++ (r, true) :: slots).map Prod.snd).set done.length false =
            (done ++ (r, false) :: slots).map Prod.snd := by
          simp
        have hids : (done ++ (r, true) :: slots).map Prod.fst =
            (done ++ (r, false) :: slots).map Prod.fst := by simp
        simp only [hset, hids]
        simpa using hnext (allocated.insert r)
    · rfl

theorem roll_back_eq : roll_back ((done ++ slots).map Prod.fst) allocated
      (List.range' done.length slots.length) ((done ++ slots).map Prod.snd) =
    some ((done ++ slots.map fun s => if s.1 ∈ allocated then (s.1, true) else s).map Prod.snd) := by
  induction slots generalizing done with
  | nil => simp [roll_back]
  | cons slot slots ih =>
    obtain ⟨r, free⟩ := slot
    have hrank : ((done ++ (r, free) :: slots).map Prod.fst)[done.length]? = some r := by simp
    set slot' := if r ∈ allocated then (r, true) else (r, free) with hslot'
    have hbits : (if r ∈ allocated then
        ((done ++ (r, free) :: slots).map Prod.snd).set done.length true
        else (done ++ (r, free) :: slots).map Prod.snd) =
        (done ++ slot' :: slots).map Prod.snd := by
      rw [hslot']
      split <;> simp
    have hids : (done ++ (r, free) :: slots).map Prod.fst =
        (done ++ slot' :: slots).map Prod.fst := by
      rw [hslot']
      split <;> simp
    have hnext := ih (done ++ [slot'])
    simp only [List.length_append, List.length_singleton, List.append_assoc,
      List.singleton_append] at hnext
    rw [List.length_cons, List.range'_succ, roll_back, hrank]
    dsimp only
    rw [hbits, hids, hnext]
    simp [hslot']

theorem mark_eq (ranks : OrdSet Int) (n : Nat) :
    mark ((done ++ slots).map Prod.fst) ranks
      (List.range' done.length slots.length) ((done ++ slots).map Prod.snd) (n % 2 ^ 32) =
    some ((done ++ slots.map fun s => if s.1 ∈ ranks then (s.1, true) else s).map Prod.snd,
      (n + slots.countP fun s => s.1 ∈ ranks ∧ !s.2) % 2 ^ 32) := by
  induction slots generalizing done n with
  | nil => simp [mark]
  | cons slot slots ih =>
    obtain ⟨r, free⟩ := slot
    have hrank : ((done ++ (r, free) :: slots).map Prod.fst)[done.length]? = some r := by simp
    have hbit : ((done ++ (r, free) :: slots).map Prod.snd)[done.length]? = some free := by simp
    rw [List.length_cons, List.range'_succ, mark, hrank, hbit]
    dsimp only
    by_cases hr : r ∈ ranks
    · have hnext := ih (done ++ [(r, true)])
      simp only [List.length_append, List.length_singleton, List.append_assoc,
        List.singleton_append] at hnext
      rw [if_pos hr]
      cases free with
      | true =>
        dsimp only
        rw [hnext n]
        simp [hr]
      | false =>
        have hset : ((done ++ (r, false) :: slots).map Prod.snd).set done.length true =
            (done ++ (r, true) :: slots).map Prod.snd := by
          simp
        have hids : (done ++ (r, false) :: slots).map Prod.fst =
            (done ++ (r, true) :: slots).map Prod.fst := by simp
        dsimp only
        rw [hset, hids, Word.add_mod, hnext (n + 1)]
        have hcount : n + 1 + slots.countP (fun s => s.1 ∈ ranks ∧ !s.2) =
            n + ((r, false) :: slots).countP (fun s => s.1 ∈ ranks ∧ !s.2) := by
          rw [List.countP_cons]
          simp [hr]
          omega
        rw [hcount]
        simp [hr]
    · have hnext := ih (done ++ [(r, free)]) n
      simp only [List.length_append, List.length_singleton, List.append_assoc,
        List.singleton_append] at hnext
      rw [if_neg hr, hnext]
      simp [hr]

end Loops

/-! ## Section 3: The simulation -/

theorem sub_residue (a b : Nat) : Word.sub 32 a (b % 2 ^ 32) = Word.sub 32 a b := by
  unfold Word.sub
  rw [Nat.mod_mod]

theorem conc_try_allocate (q : RankPool) (count : Nat) :
    (conc q).try_allocate count =
      some ((q.try_allocate count).map fun result => (conc result.1, result.2)) := by
  unfold try_allocate RankPool.try_allocate
  split
  · rfl
  split
  · next hshort =>
    have hshort : q.available < count := hshort
    rw [if_pos hshort]
    rfl
  · next hshort =>
    have hshort : ¬ q.available < count := hshort
    have hclaim := claim_eq q.slots [] .empty count
    simp only [List.nil_append, List.length_nil, ← List.range_eq_range'] at hclaim
    have hlength : (conc q).bitset.length = q.slots.length := List.length_map ..
    rw [if_neg hshort, hlength, show (conc q).rank_ids = q.slots.map Prod.fst from rfl,
      show (conc q).bitset = q.slots.map Prod.snd from rfl]
    dsimp only
    rw [hclaim, Option.bind_some]
    set claimed := RankPool.claim count q.slots .empty with hclaimed
    have hfst : claimed.1.map Prod.fst = q.slots.map Prod.fst := RankPool.claim_map_fst ..
    dsimp only
    split
    · have hback := roll_back_eq claimed.1 [] claimed.2
      have hsame : claimed.1.length = q.slots.length := by
        simpa using congrArg List.length hfst
      simp only [List.nil_append, List.length_nil, ← List.range_eq_range', hsame] at hback
      rw [← hfst, hback]
      have hids : (claimed.1.map fun s => if s.1 ∈ claimed.2 then (s.1, true) else s).map Prod.fst =
          claimed.1.map Prod.fst := by
        rw [List.map_map]
        apply List.map_congr_left
        intro slot _
        dsimp only [Function.comp_apply]
        split <;> rfl
      simp only [Option.map_some, Except.map, conc, hids, hfst]
    · simp only [Except.map, conc, hfst, sub_residue]

theorem conc_release {q : RankPool} (hq : q.Inv) (ranks : OrdSet Int) :
    (conc q).release ranks = some (conc (q.release ranks)) := by
  have hmark := mark_eq q.slots [] ranks 0
  simp only [List.nil_append, List.length_nil, ← List.range_eq_range', Nat.zero_mod,
    Nat.zero_add] at hmark
  have hlength : (conc q).bitset.length = q.slots.length := List.length_map ..
  unfold release
  rw [hlength, show (conc q).rank_ids = q.slots.map Prod.fst from rfl,
    show (conc q).bitset = q.slots.map Prod.snd from rfl, hmark, Option.map_some]
  have hids := RankPool.release_map_fst q ranks
  have havailable : q.available < 2 ^ 32 := by
    rw [hq.available_eq]
    exact Nat.mod_lt _ (by norm_num)
  set n := q.slots.countP fun s => s.1 ∈ ranks ∧ !s.2 with hn
  have hcounter : (if n % 2 ^ 32 > 0 then Word.add 32 (conc q).available (n % 2 ^ 32)
      else (conc q).available) = Word.add 32 q.available n := by
    unfold Word.add
    split
    · exact Nat.add_mod_mod ..
    · have hzero : n % 2 ^ 32 = 0 := by omega
      rw [Nat.add_mod, hzero, Nat.add_zero, Nat.mod_mod, Nat.mod_eq_of_lt havailable]
      rfl
  dsimp only
  rw [hcounter]
  simp only [conc, hids]
  rfl

theorem conc_add_rank (q : RankPool) (r : Int) : (conc q).add_rank r = conc (q.add_rank r) := by
  unfold add_rank RankPool.add_rank
  have hany : (conc q).rank_ids.any (· == r) = q.slots.any (·.1 == r) := by
    simp [conc, List.any_map, Function.comp_def]
  rw [hany]
  split
  · rfl
  · simp [conc]

theorem conc_add_ranks (q : RankPool) (ranks : OrdSet Int) :
    (conc q).add_ranks ranks = conc (q.add_ranks ranks) := by
  unfold add_ranks RankPool.add_ranks
  induction ranks.toList generalizing q with
  | nil => rfl
  | cons r rs ih => rw [List.foldl_cons, conc_add_rank, ih, List.foldl_cons]

section Removal

variable {α β : Type}

theorem swap_pop_eq {v : List α} {idx : Nat} (h : idx < v.length) :
    swap_pop v idx (v.length - 1) = some (Vec.swap_remove v idx) := by
  rcases List.eq_nil_or_concat v with rfl | ⟨v, x, rfl⟩
  · cases h
  · rw [List.concat_eq_append] at h ⊢
    rw [Vec.swap_remove_append_singleton]
    have hlast : (v ++ [x]).length - 1 = v.length := by simp
    rw [hlast]
    unfold swap_pop
    rw [List.length_append, List.length_singleton] at h
    by_cases hidx : idx = v.length
    · rw [if_neg (not_not.mpr hidx), if_neg (by simp), if_neg (by omega), if_pos hidx]
      simp
    · have hlt : idx < v.length := by omega
      have hget : (v ++ [x])[idx]? = some v[idx] := by
        rw [List.getElem?_append_left hlt, List.getElem?_eq_getElem hlt]
      rw [if_pos hidx, hget, if_pos hlt]
      simp [hlt]

theorem swap_remove_map (f : α → β) (v : List α) {idx : Nat} (h : idx < v.length) :
    Vec.swap_remove (v.map f) idx = (Vec.swap_remove v idx).map f := by
  rcases List.eq_nil_or_concat v with rfl | ⟨v, x, rfl⟩
  · cases h
  · rw [List.concat_eq_append, List.map_append, List.map_singleton,
      Vec.swap_remove_append_singleton, Vec.swap_remove_append_singleton, List.length_map]
    split
    · exact List.map_set.symm
    · split
      · rfl
      · simp

theorem length_swap_remove {v : List α} {idx : Nat} (h : idx < v.length) :
    (Vec.swap_remove v idx).length + 1 = v.length := by
  simpa using (Vec.swap_remove_perm (List.getElem?_eq_getElem h)).length_eq

theorem conc_remove_indices {is : List Nat} {q : RankPool} (hdesc : is.Pairwise (· > ·))
    (hlt : ∀ i ∈ is, i < q.slots.length) :
    remove_indices is (conc q) =
      some (conc { q with slots := is.foldl Vec.swap_remove q.slots }) := by
  induction is generalizing q with
  | nil => rfl
  | cons i is ih =>
    obtain ⟨hgt, hdesc⟩ := List.pairwise_cons.mp hdesc
    have hi : i < q.slots.length := hlt i List.mem_cons_self
    have hids : swap_pop (conc q).rank_ids i ((conc q).rank_ids.length - 1) =
        some ((Vec.swap_remove q.slots i).map Prod.fst) := by
      rw [swap_pop_eq (by simpa [conc] using hi)]
      exact congrArg some (swap_remove_map Prod.fst q.slots hi)
    have hbits : swap_pop (conc q).bitset i ((conc q).rank_ids.length - 1) =
        some ((Vec.swap_remove q.slots i).map Prod.snd) := by
      have hlength : (conc q).rank_ids.length = (conc q).bitset.length := by simp [conc]
      rw [hlength, swap_pop_eq (by simpa [conc] using hi)]
      exact congrArg some (swap_remove_map Prod.snd q.slots hi)
    have hrest := ih (q := { q with slots := Vec.swap_remove q.slots i }) hdesc (by
      intro j hj
      have hlength := length_swap_remove hi
      have hji := hgt j hj
      dsimp only
      omega)
    rw [remove_indices, hids, hbits]
    exact hrest

theorem select_eq {q : RankPool} (ranks : OrdSet Int) (slots done : List (Int × Bool))
    (hsplit : q.slots = done ++ slots) (removed : OrdSet Int) (indices_to_remove : List Nat) :
    select (conc q) ranks (List.range' done.length slots.length) removed indices_to_remove =
      some ((slots.filter (RankPool.Hit ranks)).foldl (fun acc s => acc.insert s.1) removed,
        indices_to_remove ++ (List.range' done.length slots.length).filter fun i =>
          q.slots[i]?.any (RankPool.Hit ranks)) := by
  induction slots generalizing done removed indices_to_remove with
  | nil => simp [select]
  | cons slot slots ih =>
    obtain ⟨r, free⟩ := slot
    have hslot : q.slots[done.length]? = some (r, free) := by simp [hsplit]
    have hrank : (conc q).rank_ids[done.length]? = some r := by simp [conc, hslot]
    have hbit : (conc q).bitset[done.length]? = some free := by simp [conc, hslot]
    have hnext := ih (done ++ [(r, free)]) (by simp [hsplit])
    simp only [List.length_append, List.length_singleton] at hnext
    rw [List.length_cons, List.range'_succ, select, hrank, hbit, List.filter_cons,
      List.filter_cons, hslot]
    dsimp only
    by_cases hr : r ∈ ranks
    · rw [if_pos hr]
      cases free with
      | true => simp [hnext, RankPool.Hit, hr]
      | false => simp [hnext, RankPool.Hit, hr]
    · rw [if_neg hr, hnext]
      simp [RankPool.Hit, hr]

end Removal

theorem conc_remove_available {q : RankPool} (hq : q.Inv) (ranks : OrdSet Int) :
    (conc q).remove_available ranks =
      some (conc (q.remove_available ranks).1, (q.remove_available ranks).2) := by
  have hselect := select_eq (q := q) ranks q.slots [] rfl .empty []
  simp only [List.length_nil, List.nil_append, ← List.range_eq_range'] at hselect
  have hlength : (conc q).rank_ids.length = q.slots.length := List.length_map ..
  unfold remove_available
  rw [hlength, hselect, Option.bind_some]
  set removed := (q.slots.filter (RankPool.Hit ranks)).foldl (fun acc s => acc.insert s.1)
    OrdSet.empty with hremoved
  set is := (Vec.indices (RankPool.Hit ranks) q.slots).insertionSort (· ≥ ·) with his
  have hremove : remove_indices is (conc q) =
      some (conc { q with slots := is.foldl Vec.swap_remove q.slots }) :=
    conc_remove_indices (Vec.descending_pairwise _ _) fun _ => Vec.lt_of_mem_descending
  have hindices : (List.range q.slots.length).filter (fun i =>
      q.slots[i]?.any (RankPool.Hit ranks)) = Vec.indices (RankPool.Hit ranks) q.slots := rfl
  dsimp only
  rw [hindices, ← his, hremove, Option.map_some]
  have htotal : q.total < 2 ^ 32 := by
    rw [hq.total_eq]
    exact Nat.mod_lt _ (by norm_num)
  have havailable : q.available < 2 ^ 32 := by
    rw [hq.available_eq]
    exact Nat.mod_lt _ (by norm_num)
  -- when the count wraps to zero, there is nothing to subtract
  have hcounter : ∀ a < 2 ^ 32, removed.size % 2 ^ 32 = 0 → Word.sub 32 a removed.size = a := by
    intro a ha hzero
    rw [Word.sub, hzero, Nat.sub_zero, Nat.add_mod_right, Nat.mod_eq_of_lt ha]
  split
  · rw [sub_residue, sub_residue]
    rfl
  · next hzero =>
    have hzero : removed.size % 2 ^ 32 = 0 := by omega
    have hconc : conc (q.remove_available ranks).1 = conc { q with
        slots := is.foldl Vec.swap_remove q.slots
        total := Word.sub 32 q.total removed.size
        available := Word.sub 32 q.available removed.size } := rfl
    rw [hconc, hcounter _ htotal hzero, hcounter _ havailable hzero]
    rfl

/-! ## Section 4: Runs -/

/-- What a reachable pool is: the vectors of a pool of slots, with ranks that
    are integers of the program. -/
structure Inv (p : RankVectors) (q : RankPool) : Prop where
  eq_conc : p = conc q
  inv : q.Inv
  ints : ∀ r, q.Manages r → Fits 32 r

theorem init_inv {ranks : OrdSet Int} (hints : Ints ranks) :
    Inv (make ranks) (RankPool.make ranks) where
  eq_conc := (conc_make ranks).symm
  inv := RankPool.inv_make ranks
  ints := by
    intro r hr
    apply hints r
    rw [OrdSet.mem_def]
    simpa [RankPool.Manages, RankPool.make, Function.comp_def] using hr

theorem step_inv {p p' : RankVectors} {q : RankPool} {l : Label} (hi : Inv p q)
    (hstep : step p l p') : ∃ q', Inv p' q' := by
  obtain ⟨rfl, hq, hints⟩ := hi
  cases l with
  | try_allocate count =>
    obtain ⟨-, ⟨ranks, hok⟩ | ⟨-, rfl⟩⟩ := hstep
    · rw [conc_try_allocate] at hok
      cases hresult : q.try_allocate count with
      | error what =>
        rw [hresult] at hok
        cases hok
      | ok result =>
        rw [hresult] at hok
        obtain ⟨rfl, -⟩ := Prod.mk.inj (Except.ok.inj (Option.some.inj hok))
        have hpos : 0 < count := by
          rcases Nat.eq_zero_or_pos count with rfl | hpos
          · cases hresult
          · exact hpos
        have hinv : result.1.Inv := by
          rcases RankPool.try_allocate_spec hq hpos with hshort | ⟨q', ranks', hgot, -, hinv', -⟩
          · rw [hresult] at hshort
            obtain rfl := Except.ok.inj hshort
            exact hq
          · rw [hresult] at hgot
            obtain rfl := Except.ok.inj hgot
            exact hinv'
        refine ⟨result.1, rfl, hinv, ?_⟩
        intro r hr
        exact hints r ((RankPool.try_allocate_manages hresult r).mp hr)
    · exact ⟨q, rfl, hq, hints⟩
  | release ranks =>
    obtain ⟨-, hrelease⟩ := hstep
    rw [conc_release hq] at hrelease
    obtain rfl := Option.some.inj hrelease
    refine ⟨q.release ranks, rfl, RankPool.release_inv hq ranks, ?_⟩
    intro r hr
    exact hints r ((RankPool.release_manages q ranks r).mp hr)
  | add_ranks ranks =>
    obtain ⟨hranks, rfl⟩ := hstep
    refine ⟨q.add_ranks ranks, conc_add_ranks q ranks, RankPool.add_ranks_inv hq ranks, ?_⟩
    intro r hr
    rcases (RankPool.add_ranks_manages q ranks r).mp hr with hold | hnew
    · exact hints r hold
    · exact hranks r hnew
  | remove_available ranks =>
    obtain ⟨-, removed, hremove⟩ := hstep
    rw [conc_remove_available hq] at hremove
    obtain ⟨rfl, -⟩ := Prod.mk.inj (Option.some.inj hremove)
    refine ⟨_, rfl, RankPool.remove_available_inv hq ranks, ?_⟩
    intro r hr
    exact hints r ((RankPool.remove_available_manages hq ranks r).mp hr).1

theorem reachable_inv {p : RankVectors} (hr : system.Reachable p) : ∃ q, Inv p q := by
  apply hr.invariant
  · rintro p ⟨ranks, hints, rfl⟩
    exact ⟨_, init_inv hints⟩
  · rintro p l p' - ⟨q, hi⟩ hstep
    exact step_inv hi hstep

/-- What the operations do on a pool. The counters have 32 bits, so a pool of
    all integers counts as an empty one; every smaller pool is counted
    exactly. -/
structure Correct (p : RankVectors) : Prop where
  distinct : p.rank_ids.Nodup
  same_length : p.bitset.length = p.rank_ids.length
  total_eq : p.total = p.rank_ids.length % 2 ^ 32
  available_eq : p.available = p.bitset.count true % 2 ^ 32
  exact_counts : (∃ r, Fits 32 r ∧ r ∉ p.rank_ids) →
    p.total = p.rank_ids.length ∧ p.available = p.bitset.count true
  zero_refused : ∃ what, p.try_allocate 0 = some (.error what)
  short_refused : ∀ count, 0 < count → p.available < count →
    p.try_allocate count = some (.ok (p, .empty))
  allocated : ∀ count, 0 < count → count ≤ p.available →
    ∃ p' ranks, p.try_allocate count = some (.ok (p', ranks)) ∧ ranks.size = count ∧
      (∀ r ∈ ranks, p.Marked r true) ∧
      ∀ r free, p'.Marked r free ↔ if r ∈ ranks then free = false else p.Marked r free
  released : ∀ ranks, ∃ p', p.release ranks = some p' ∧
    ∀ r free, p'.Marked r free ↔ if r ∈ ranks then r ∈ p.rank_ids ∧ free = true else p.Marked r free
  release_nothing : ∀ ranks : OrdSet Int, (∀ r ∈ ranks, ¬ p.Marked r false) →
    p.release ranks = some p
  added : ∀ ranks r free, (p.add_ranks ranks).Marked r free ↔
    p.Marked r free ∨ free = true ∧ r ∈ ranks ∧ r ∉ p.rank_ids
  added_again : ∀ ranks, (p.add_ranks ranks).add_ranks ranks = p.add_ranks ranks
  removed : ∀ ranks, ∃ p' removed, p.remove_available ranks = some (p', removed) ∧
    (∀ r, r ∈ removed ↔ r ∈ ranks ∧ p.Marked r true) ∧
    ∀ r free, p'.Marked r free ↔ p.Marked r free ∧ r ∉ removed

section Correct

variable {q : RankPool}

theorem marked_true_iff (hq : q.Inv) (r : Int) :
    (conc q).Marked r true ↔ q.Manages r ∧ ¬ q.Unavailable r := by
  rw [conc_marked, q.manages_iff]
  constructor
  · intro h
    refine ⟨Or.inl h, ?_⟩
    intro hnot
    exact absurd (hq.flag_unique h hnot) (by simp)
  · rintro ⟨h | h, hnot⟩
    · exact h
    · exact absurd h hnot

theorem marked_false_iff (r : Int) : (conc q).Marked r false ↔ q.Unavailable r :=
  conc_marked q r false

theorem length_lt (hq : q.Inv) (hints : ∀ r, q.Manages r → Fits 32 r) {r : Int} (hr : Fits 32 r)
    (hmissing : ¬ q.Manages r) : q.slots.length < 2 ^ 32 := by
  set ids := q.slots.map Prod.fst with hids
  have hnodup : (r :: ids).Nodup := List.nodup_cons.mpr ⟨hmissing, hq.nodup⟩
  have hsubset : (r :: ids).toFinset ⊆ Finset.Ico (-2 ^ 31) (2 ^ 31) := by
    intro x hx
    rcases List.mem_cons.mp (List.mem_toFinset.mp hx) with rfl | hold
    · exact Finset.mem_Ico.mpr hr
    · exact Finset.mem_Ico.mpr (hints x hold)
  have hcard := Finset.card_le_card hsubset
  rw [List.toFinset_card_of_nodup hnodup, Int.card_Ico, List.length_cons, hids,
    List.length_map] at hcard
  norm_num at hcard
  omega

theorem add_managed {ranks : List Int} (h : ∀ r ∈ ranks, q.Manages r) :
    ranks.foldl RankPool.add_rank q = q := by
  induction ranks with
  | nil => rfl
  | cons r rs ih =>
    have hskip : q.add_rank r = q := by
      have hr : q.slots.any (·.1 == r) = true := by
        simpa [RankPool.Manages, List.any_eq_true] using h r List.mem_cons_self
      rw [RankPool.add_rank, if_pos hr]
    rw [List.foldl_cons, hskip]
    exact ih fun r' hr' => h r' (List.mem_cons_of_mem _ hr')

theorem conc_correct (hq : q.Inv) (hints : ∀ r, q.Manages r → Fits 32 r) : (conc q).Correct where
  distinct := hq.nodup
  same_length := by simp [conc]
  total_eq := by simpa [conc] using hq.total_eq
  available_eq := by
    rw [show (conc q).available = q.available from rfl, hq.available_eq]
    congr 1
    simp [conc, List.count, List.countP_map, Function.comp_def]
  exact_counts := by
    rintro ⟨r, hr, hmissing⟩
    have hlt := length_lt hq hints hr hmissing
    have hcounts := hq.counters_exact hlt
    constructor
    · have htotal := hq.total_eq
      rw [Nat.mod_eq_of_lt hlt] at htotal
      simpa [conc] using htotal
    · have havailable : q.available = q.slots.countP (·.2) := hcounts.1
      simpa [conc, List.count, List.countP_map, Function.comp_def] using havailable
  zero_refused := ⟨_, rfl⟩
  short_refused := by
    intro count hpos hshort
    unfold try_allocate
    rw [if_neg (by omega), if_pos hshort]
  allocated := by
    intro count hpos hle
    obtain ⟨q', ranks, hgot, hsize, hinv, hfree, hunavailable, hmanages⟩ :=
      RankPool.try_allocate_of_le hq hpos hle
    refine ⟨conc q', ranks, ?_, hsize, ?_, ?_⟩
    · rw [conc_try_allocate, hgot]
      rfl
    · intro r hr
      exact (marked_true_iff hq r).mpr (hfree r hr)
    · intro r free
      cases free with
      | true =>
        rw [marked_true_iff hinv, marked_true_iff hq, hmanages, hunavailable]
        split <;> simp_all
      | false =>
        rw [marked_false_iff, marked_false_iff, hunavailable]
        split <;> simp_all
  released := by
    intro ranks
    refine ⟨_, conc_release hq ranks, ?_⟩
    intro r free
    cases free with
    | true =>
      rw [marked_true_iff (RankPool.release_inv hq ranks), marked_true_iff hq,
        RankPool.release_manages, RankPool.release_unavailable, conc_manages]
      split <;> simp_all
    | false =>
      rw [marked_false_iff, marked_false_iff, RankPool.release_unavailable]
      split <;> simp_all
  release_nothing := by
    intro ranks hnone
    rw [conc_release hq]
    have hslots : (q.slots.map fun s => if s.1 ∈ ranks then (s.1, true) else s) = q.slots := by
      refine (List.map_congr_left (g := id) ?_).trans (List.map_id _)
      rintro ⟨r, free⟩ hslot
      dsimp only [id]
      split
      · next hr =>
        cases free with
        | true => rfl
        | false => exact absurd ((marked_false_iff r).mpr hslot) (hnone r hr)
      · rfl
    have hcount : (q.slots.countP fun s => s.1 ∈ ranks ∧ !s.2) = 0 := by
      apply List.countP_eq_zero.mpr
      rintro ⟨r, free⟩ hslot hhit
      obtain ⟨hr, hfree⟩ := of_decide_eq_true hhit
      obtain rfl : free = false := by simpa using hfree
      exact hnone r hr ((marked_false_iff r).mpr hslot)
    have havailable : Word.add 32 q.available 0 = q.available := by
      rw [hq.available_eq, Word.add_mod, Nat.add_zero]
    rw [RankPool.release, hslots, hcount, havailable]
  added := by
    intro ranks r free
    rw [conc_add_ranks]
    cases free with
    | true =>
      rw [marked_true_iff (RankPool.add_ranks_inv hq ranks), marked_true_iff hq,
        RankPool.add_ranks_manages, RankPool.add_ranks_unavailable, conc_manages]
      have hmanaged : q.Unavailable r → q.Manages r := RankPool.Unavailable.manages
      tauto
    | false =>
      rw [marked_false_iff, marked_false_iff, RankPool.add_ranks_unavailable]
      simp
  added_again := by
    intro ranks
    rw [conc_add_ranks, conc_add_ranks]
    congr 1
    apply add_managed
    intro r hr
    exact (RankPool.add_ranks_manages q ranks r).mpr (Or.inr hr)
  removed := by
    intro ranks
    refine ⟨_, _, conc_remove_available hq ranks, ?_, ?_⟩
    · intro r
      rw [(RankPool.remove_available_removed hq ranks).1, conc_marked]
    · intro r free
      rw [conc_marked, conc_marked, (RankPool.remove_available_slots q ranks).mem_iff,
        List.mem_filter, (RankPool.remove_available_removed hq ranks).1]
      apply and_congr_right
      intro hslot
      have hflag : (r, true) ∈ q.slots ↔ free = true := by
        constructor
        · exact fun htrue => (hq.flag_unique htrue hslot).symm
        · rintro rfl
          exact hslot
      rw [hflag]
      simp [RankPool.Hit, imp_iff_not_or]

end Correct

/-- **Every operation after any sequence of operations.** -/
theorem run_correct {p : RankVectors} (hr : system.Reachable p) : p.Correct := by
  obtain ⟨q, rfl, hq, hints⟩ := reachable_inv hr
  exact conc_correct hq hints

theorem given_up_correct :
    ∃ p : RankVectors, p.rank_ids = [0, 2] ∧ p.bitset = [false, true] ∧ p.Correct := by
  have hints : Ints ⟨[0, 1, 2], by decide⟩ := by decide
  have hinit : system.Reachable (make ⟨[0, 1, 2], by decide⟩) := .init ⟨_, hints, rfl⟩
  have hallocated : system.Reachable ⟨[0, 1, 2], [false, true, true], 3, 2⟩ :=
    .step (l := .try_allocate 1) hinit ⟨by decide, Or.inl ⟨⟨[0], by decide⟩, by decide⟩⟩
  have hremoved : system.Reachable ⟨[0, 2], [false, true], 2, 1⟩ :=
    .step (l := .remove_available ⟨[0, 1], by decide⟩) hallocated
      ⟨by decide, ⟨[1], by decide⟩, by decide⟩
  exact ⟨_, rfl, rfl, run_correct hremoved⟩

/-- The `n` smallest integers. -/
def smallest (n : Nat) : OrdSet Int where
  toList := (List.range n).map fun (i : Nat) => (i : Int) - 2 ^ 31
  sorted := List.pairwise_map.mpr (List.pairwise_lt_range.imp fun h => by omega)

theorem ints_smallest {n : Nat} (hn : n ≤ 2 ^ 32) : Ints (smallest n) := by
  intro r hr
  obtain ⟨i, hi, rfl⟩ := List.mem_map.mp hr
  have hi := List.mem_range.mp hi
  rw [fits_32]
  omega

theorem length_smallest (n : Nat) : (smallest n).toList.length = n := by
  simp [smallest]

theorem smallest_pool {n : Nat} (hn : n ≤ 2 ^ 32) :
    ∃ p, system.Reachable p ∧ p.rank_ids.length = n ∧ p.total = n % 2 ^ 32 := by
  refine ⟨make (smallest n), .init ⟨_, ints_smallest hn, rfl⟩, length_smallest n, ?_⟩
  rw [make, OrdSet.size, length_smallest]

theorem all_counted_as_none :
    ∃ p, system.Reachable p ∧ p.rank_ids.length = 2 ^ 32 ∧ p.total = 0 := by
  obtain ⟨p, hr, hlength, htotal⟩ := smallest_pool le_rfl
  rw [Nat.mod_self] at htotal
  exact ⟨p, hr, hlength, htotal⟩

end RankVectors

end Dagr
