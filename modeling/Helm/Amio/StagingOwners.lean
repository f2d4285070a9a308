import Helm.Amio.StagingPool

/-! # Who holds the staging buffers

  The pool counts references; it does not know who has them. Its users do:
  a fetch in progress, a queue of completed reads, a view, a write task.
  `Owned s owners` says that the reference counts of the pool are exactly
  the list of its users' references. Every buffer on the list is then in
  use, every other buffer is free, and a release by an owner is never one
  release too many.
-/

namespace Amio

open scoped List

namespace StagingPool

/-- The driver, or the write path, reports how much of a buffer is used. -/
def set_used_bytes (s : StagingPool) (i used_bytes : Nat) : StagingPool :=
  s.set_buf i { s.buf i with used_bytes }

theorem cap_set_used_bytes (s : StagingPool) (i used_bytes j : Nat) :
    (s.set_used_bytes i used_bytes).cap j = s.cap j := by
  by_cases hi : i < s.buffers.length
  · rw [cap, set_used_bytes, buf_set_buf hi]
    split
    · next h => rw [h]; rfl
    · rfl
  · rw [set_used_bytes, set_buf, List.set_eq_of_length_le (not_lt.mp hi)]

/-- Release buffers one after the other. -/
def release_all (s : StagingPool) (l : List Nat) : StagingPool := l.foldl release s

theorem total_le_acquire {s s' : StagingPool} (h : PoolInv s) {required i : Nat}
    (hacq : s.acquire required = (s', some i)) :
    s.total_buffer_count ≤ s'.total_buffer_count := by
  have hlen : ∀ t : StagingPool, ∀ idx, (t.hand_out idx required).buffers.length =
      t.buffers.length := fun t idx => (hand_out_frame t idx required).2.1
  rcases find_slot_cases h required 0 with ⟨hne, hfind⟩ | ⟨-, -, hfind⟩ | ⟨hempty, ⟨-, hroom⟩, hfind⟩
  · obtain ⟨j, hidx, -, -⟩ := hand_out_acquired h required hne
    rw [acquire_eq_hand_out hfind hidx] at hacq
    cases hacq
    rw [total_buffer_count, total_buffer_count, hlen]
  · rw [acquire, hfind] at hacq
    cases hacq
  · obtain ⟨j, hidx, -, -⟩ := hand_out_acquired (grow_inv h hempty hroom) required (by simp [grow])
    rw [acquire_eq_hand_out hfind hidx] at hacq
    cases hacq
    rw [total_buffer_count, total_buffer_count, hlen, grow]
    simp

/-- The references to the buffers of the pool are those of `owners`. -/
structure Owned (s : StagingPool) (owners : List Nat) : Prop where
  inv : PoolInv s
  refs : ∀ i, (s.buf i).ref_count = owners.count i

namespace Owned

variable {s : StagingPool} {owners owners' rest : List Nat} {i : Nat}

theorem init {cfg : StagingConfig} (h : PoolInit cfg s) : s.Owned [] where
  inv := pool_inv_init h
  refs := fun i => by
    rw [buf, h.1, List.getD_eq_getElem?_getD, List.getElem?_replicate]
    split <;> rfl

theorem perm (h : s.Owned owners) (hp : owners ~ owners') : s.Owned owners' :=
  ⟨h.inv, fun i => (h.refs i).trans (hp.count_eq i)⟩

theorem pos (h : s.Owned owners) (hi : i ∈ owners) : 0 < (s.buf i).ref_count := by
  rw [h.refs]
  exact List.count_pos_iff.mpr hi

theorem acquire {required : Nat} {s' : StagingPool} (h : s.Owned owners)
    (hacq : s.acquire required = (s', some i)) : s'.Owned (i :: owners) ∧ i ∉ owners := by
  obtain ⟨hinv, hnone | ⟨j, hj, hspec⟩⟩ := s.acquire_spec h.inv required
  · rw [hnone] at hacq
    cases hacq
  · rw [hacq] at hinv hj hspec
    cases hj
    have hzero : owners.count i = 0 := (h.refs i).symm.trans hspec.unused
    refine ⟨⟨hinv, fun j => ?_⟩, List.count_eq_zero.mp hzero⟩
    by_cases hji : j = i
    · subst hji
      rw [hspec.referenced, List.count_cons_self, hzero]
    · rw [hspec.others j hji, h.refs, List.count_cons_of_ne (Ne.symm hji)]

theorem exists_acquire (h : s.Owned owners) (hlt : owners.length < s.total_buffer_count)
    (required : Nat) : ∃ s' i, s.acquire required = (s', some i) := by
  have hne : s.free_list ≠ [] := by
    intro hnil
    -- otherwise every buffer has an owner
    have hsub : List.range s.total_buffer_count ⊆ owners := by
      intro i hi
      by_contra hno
      have hzero : (s.buf i).ref_count = 0 := by rw [h.refs, List.count_eq_zero.mpr hno]
      have := (h.inv.free_iff i).mpr ⟨List.mem_range.mp hi, hzero⟩
      simp [hnil] at this
    have := (List.subperm_of_subset List.nodup_range hsub).length_le
    simp at this
    omega
  obtain ⟨i, hidx, -, -⟩ := hand_out_acquired h.inv required hne
  rcases find_slot_cases h.inv required 0 with ⟨-, hfind⟩ | ⟨hnil, -⟩ | ⟨hnil, -⟩
  · exact ⟨_, i, acquire_eq_hand_out hfind hidx⟩
  · exact absurd hnil hne
  · exact absurd hnil hne

theorem acquire_none {required : Nat} {s' : StagingPool} (h : s.Owned owners)
    (hacq : s.acquire required = (s', none)) : s' = s := by
  rcases (s.acquire_spec h.inv required).2 with hnone | ⟨i, hi, -⟩
  · rw [hacq] at hnone
    exact congrArg Prod.fst hnone
  · rw [hacq] at hi
    cases hi

theorem acquire_failed (h : s.Owned owners) (required : Nat) :
    (s.acquire_failed required).Owned owners := by
  obtain ⟨hinv, hbuf⟩ := s.acquire_failed_spec h.inv required
  exact ⟨hinv, fun i => by rw [hbuf, h.refs]⟩

theorem release (h : s.Owned owners) (hp : owners ~ i :: rest) : (s.release i).Owned rest := by
  have hcons := h.perm hp
  obtain ⟨hinv, hself, -, -, hothers⟩ := release_spec h.inv (hcons.pos List.mem_cons_self)
  refine ⟨hinv, fun j => ?_⟩
  by_cases hji : j = i
  · subst hji
    rw [hself, hcons.refs, List.count_cons_self, Nat.add_sub_cancel]
  · rw [hothers j hji, hcons.refs, List.count_cons_of_ne (Ne.symm hji)]

theorem release_all (h : s.Owned owners) {l : List Nat} (hp : owners ~ l ++ rest) :
    (s.release_all l).Owned rest := by
  induction l generalizing s owners with
  | nil => exact h.perm hp
  | cons i l ih => exact ih (h.release hp) (.refl _)

theorem add_ref (h : s.Owned owners) (hi : i ∈ owners) : (s.add_ref i).Owned (i :: owners) := by
  obtain ⟨hinv, hself, -, -, hothers⟩ := add_ref_spec h.inv (h.pos hi)
  refine ⟨hinv, fun j => ?_⟩
  by_cases hji : j = i
  · subst hji
    rw [hself, h.refs, List.count_cons_self]
  · rw [hothers j hji, h.refs, List.count_cons_of_ne (Ne.symm hji)]

theorem set_used_bytes (h : s.Owned owners) (hi : i ∈ owners) (used_bytes : Nat) :
    (s.set_used_bytes i used_bytes).Owned owners := by
  have hpos := h.pos hi
  refine ⟨set_in_use_inv h.inv hpos hpos rfl rfl, fun j => ?_⟩
  rw [StagingPool.set_used_bytes, buf_set_buf (lt_of_ref_count hpos)]
  split
  · next hj => rw [hj, h.refs]
  · exact h.refs j

theorem all_free (h : s.Owned []) : s.free_buffer_count = s.total_buffer_count := by
  have hzero : s.in_use_count = 0 := by
    refine List.countP_eq_zero.mpr fun b hb => ?_
    obtain ⟨i, hi, rfl⟩ := List.getElem_of_mem hb
    have := h.refs i
    rw [buf, List.getD_eq_getElem?_getD, List.getElem?_eq_getElem hi] at this
    simpa using this
  have := h.inv.free_add_in_use
  omega

end Owned

end StagingPool

end Amio
