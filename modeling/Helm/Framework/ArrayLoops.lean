import Mathlib

/-! # Loops over arrays

  Arrays are functions of their indices. A loop is a fold over its
  iterations, and a parallel loop, whose iterations take effect one by one
  in an order that is not known, is a fold over a rearrangement of them.

  * **Accumulation**: iterations that add to elements of an array leave
    every element with the sum of what was added to it, in any order.
  * **Assignment**: iterations that write different elements.
  * **Prefix sums**: the loop that adds to every element the one before it.
  * **Ranks**: in a monotone array the elements below a bound come first.
  * **Flat ranges**: a loop over all pairs of indices as one range.
  * **Two elements per iteration**: iteration `k` makes the elements `2 k` and
    `2 k + 1`, by appending or by writing.
  * **Stacks**: two arrays of one length in one.
-/

namespace ArrayLoops

/-! ### Orders of iterations -/

/-- An order in which the iterations of a parallel loop take effect. -/
structure Schedule (n : Nat) where
  order : List (Fin n)
  perm : order.Perm (List.finRange n)

namespace Schedule

variable {n : Nat} (s : Schedule n)

/-- One iteration after the other. -/
def serial (n : Nat) : Schedule n := ⟨List.finRange n, .refl _⟩

theorem mem (k : Fin n) : k ∈ s.order := s.perm.mem_iff.mpr (List.mem_finRange k)

theorem sum_map {M : Type*} [AddCommMonoid M] (f : Fin n → M) :
    (s.order.map f).sum = ∑ k, f k := by
  rw [(s.perm.map f).sum_eq, ← List.ofFn_eq_map, List.sum_ofFn]

end Schedule

section
variable {ι κ M : Type*} [DecidableEq ι]

/-! ### Accumulation -/

def atomic_add [Add M] (a : ι → M) (i : ι) (x : M) : ι → M :=
  Function.update a i (a i + x)

/-- Iteration `k` adds `w k` to the element `target k`, if it is enabled. -/
def accumulate [Add M] (ks : List κ) (enabled : κ → Bool) (target : κ → ι) (w : κ → M)
    (a : ι → M) : ι → M :=
  ks.foldl (fun a k => if enabled k then atomic_add a (target k) (w k) else a) a

variable [AddCommMonoid M]

theorem accumulate_apply {ks : List κ} {enabled : κ → Bool} {target : κ → ι} {w : κ → M}
    {a : ι → M} (i : ι) :
    accumulate ks enabled target w a i =
      a i + (ks.map fun k => if enabled k ∧ target k = i then w k else 0).sum := by
  induction ks generalizing a with
  | nil => simp [accumulate]
  | cons k ks ih =>
    -- what the first iteration does to the element
    have hfirst : (if enabled k then atomic_add a (target k) (w k) else a) i =
        a i + if enabled k ∧ target k = i then w k else 0 := by
      by_cases henabled : enabled k = true
      · by_cases hi : target k = i
        · subst hi
          simp [henabled, atomic_add]
        · simp [henabled, hi, atomic_add, Function.update_of_ne (Ne.symm hi)]
      · simp [henabled]
    show accumulate ks enabled target w
      (if enabled k then atomic_add a (target k) (w k) else a) i = _
    rw [ih, hfirst, List.map_cons, List.sum_cons, add_assoc]

theorem accumulate_schedule {n : Nat} (s : Schedule n) {enabled : Fin n → Bool}
    {target : Fin n → ι} {w : Fin n → M} {a : ι → M} (i : ι) :
    accumulate s.order enabled target w a i =
      a i + ∑ k with enabled k ∧ target k = i, w k := by
  rw [accumulate_apply, s.sum_map, Finset.sum_filter]

end

theorem sum_mul_received {ι κ K : Type*} [Fintype ι] [DecidableEq ι] [NonUnitalNonAssocSemiring K]
    (ks : List κ) (target : κ → ι) (c : ι → K) (w : κ → K) :
    ∑ i, c i * (ks.map fun k => if target k = i then w k else 0).sum =
      (ks.map fun k => c (target k) * w k).sum := by
  induction ks with
  | nil => simp
  | cons k ks ih =>
    simp only [List.map_cons, List.sum_cons, mul_add, Finset.sum_add_distrib, ih]
    congr 1
    rw [Finset.sum_eq_single (target k)]
    · simp
    · intro i _ hne
      simp [Ne.symm hne]
    · intro hnot
      exact absurd (Finset.mem_univ _) hnot

theorem sum_castLE {m n : Nat} (h : m ≤ n) {M : Type*} [AddCommMonoid M] (f : Fin n → M) :
    ∑ i, f (Fin.castLE h i) = ∑ i, if i.val < m then f i else 0 := by
  rw [← Finset.sum_filter]
  apply Finset.sum_nbij (Fin.castLE h)
  · intro i _
    simp
  · exact (Fin.castLE_injective h).injOn
  · intro i hi
    have hlt : i.val < m := (Finset.mem_filter.mp (Finset.mem_coe.mp hi)).2
    exact ⟨⟨i, hlt⟩, by simp, rfl⟩
  · intro i _
    rfl

/-! ### Assignment -/

section
variable {ι κ α : Type*} [DecidableEq ι]

/-- Iteration `k` writes `v k` to the element `target k`, if it is enabled. -/
def assign (ks : List κ) (enabled : κ → Bool) (target : κ → ι) (v : κ → α) (a : ι → α) : ι → α :=
  ks.foldl (fun a k => if enabled k then Function.update a (target k) (v k) else a) a

variable {ks : List κ} {enabled : κ → Bool} {target : κ → ι} {v : κ → α} {a : ι → α}

theorem assign_of_miss {i : ι} (h : ∀ k ∈ ks, enabled k → target k ≠ i) :
    assign ks enabled target v a i = a i := by
  induction ks generalizing a with
  | nil => rfl
  | cons k ks ih =>
    show assign ks enabled target v
      (if enabled k then Function.update a (target k) (v k) else a) i = _
    rw [ih fun k' hk' => h k' (List.mem_cons_of_mem _ hk')]
    split
    · next henabled =>
      exact Function.update_of_ne (Ne.symm (h k List.mem_cons_self henabled)) _ _
    · rfl

theorem assign_of_hit (hinj : Function.Injective target) {k : κ} (hk : k ∈ ks)
    (henabled : enabled k = true) : assign ks enabled target v a (target k) = v k := by
  induction ks generalizing a with
  | nil => cases hk
  | cons k' ks ih =>
    show assign ks enabled target v
      (if enabled k' then Function.update a (target k') (v k') else a) (target k) = _
    by_cases hlater : k ∈ ks
    · exact ih hlater
    · -- no later iteration writes the element
      have hkk : k = k' := (List.mem_cons.mp hk).resolve_right hlater
      subst hkk
      rw [assign_of_miss]
      · simp [henabled]
      · intro j hj _ heq
        exact hlater (hinj heq ▸ hj)

end

/-! ### Prefix sums -/

section
variable {n : Nat} {M : Type*} [AddCommMonoid M]

/-- `for i < n: a[i + 1] += a[i]` -/
def prefix_sum (a : Fin (n + 1) → M) : Fin (n + 1) → M :=
  (List.finRange n).foldl (fun a i => atomic_add a i.succ (a i.castSucc)) a

theorem sum_Iic_succ (a : Fin (n + 1) → M) (i : Fin n) :
    ∑ j ∈ Finset.Iic i.succ, a j = a i.succ + ∑ j ∈ Finset.Iic i.castSucc, a j := by
  have hset : Finset.Iic i.succ = insert i.succ (Finset.Iic i.castSucc) := by
    ext j
    simp only [Finset.mem_Iic, Finset.mem_insert, Fin.le_def, Fin.ext_iff, Fin.val_succ,
      Fin.val_castSucc]
    omega
  have hnot : i.succ ∉ Finset.Iic i.castSucc := by simp [Fin.le_def]
  rw [hset, Finset.sum_insert hnot]

theorem prefix_sum_take (a : Fin (n + 1) → M) {m : Nat} (hm : m ≤ n) (r : Fin (n + 1)) :
    ((List.finRange n).take m).foldl (fun a i => atomic_add a i.succ (a i.castSucc)) a r =
      if r.val ≤ m then ∑ j ∈ Finset.Iic r, a j else a r := by
  induction m generalizing r with
  | zero =>
    rw [List.take_zero, List.foldl_nil]
    split
    · next hr =>
      have hzero : r = 0 := Fin.ext (by simpa using hr)
      have hset : Finset.Iic (0 : Fin (n + 1)) = {0} := by
        ext j
        simp
      rw [hzero, hset, Finset.sum_singleton]
    · rfl
  | succ m ih =>
    have hlen : m < (List.finRange n).length := by
      rw [List.length_finRange]
      omega
    set i : Fin n := ⟨m, hm⟩ with hi
    have hlast : (List.finRange n)[m] = i := List.getElem_finRange hlen
    rw [List.take_succ_eq_append_getElem hlen, List.foldl_append, hlast]
    set b := ((List.finRange n).take m).foldl
      (fun a i => atomic_add a i.succ (a i.castSucc)) a with hb
    show Function.update b i.succ (b i.succ + b i.castSucc) r = _
    have hsucc := ih (by omega) i.succ
    have hcast := ih (by omega) i.castSucc
    rw [if_neg (by simp [hi])] at hsucc
    rw [if_pos (by simp [hi])] at hcast
    by_cases hr : r = i.succ
    · rw [hr, Function.update_self, hsucc, hcast, if_pos (by simp [hi]), sum_Iic_succ]
    · rw [Function.update_of_ne hr, ih (by omega)]
      have hval : r.val ≠ m + 1 := by
        intro heq
        exact hr (Fin.ext heq)
      by_cases hle : r.val ≤ m
      · rw [if_pos hle, if_pos (by omega)]
      · rw [if_neg hle, if_neg (by omega)]

theorem prefix_sum_apply (a : Fin (n + 1) → M) (r : Fin (n + 1)) :
    prefix_sum a r = ∑ j ∈ Finset.Iic r, a j := by
  have hall := prefix_sum_take a (le_refl n) r
  rw [List.take_of_length_le (by simp), if_pos (by omega)] at hall
  exact hall

end

/-! ### Ranks -/

section
variable {n : Nat} {α : Type*} [LinearOrder α]

theorem lt_iff_lt_card {g : Fin n → α} (hg : Monotone g) (b : α) (i : Fin n) :
    g i < b ↔ i.val < (Finset.univ.filter (g · < b)).card := by
  constructor
  · intro hlt
    have hsub : Finset.Iic i ⊆ Finset.univ.filter (g · < b) := by
      intro j hj
      have hle : g j ≤ g i := hg (Finset.mem_Iic.mp hj)
      simpa using lt_of_le_of_lt hle hlt
    have hcard := Finset.card_le_card hsub
    rw [Fin.card_Iic] at hcard
    omega
  · intro hlt
    by_contra hnot
    have hsub : Finset.univ.filter (g · < b) ⊆ Finset.Iio i := by
      intro j hj
      rw [Finset.mem_Iio]
      by_contra hle
      have hji : g i ≤ g j := hg (not_lt.mp hle)
      exact hnot (lt_of_le_of_lt hji (Finset.mem_filter.mp hj).2)
    have hcard := Finset.card_le_card hsub
    rw [Fin.card_Iio] at hcard
    omega

end

/-! ### Flat ranges -/

section
variable {n m N : Nat}

/-- The two indices of position `idx` in a flat range over `n × m`, the first
    index running fastest. The range may end early. -/
def unflatten (h : N ≤ n * m) (idx : Fin N) : Fin n × Fin m :=
  have hidx : idx.val < n * m := idx.isLt.trans_le h
  have hn : 0 < n := Nat.pos_of_mul_pos_right (Nat.zero_lt_of_lt hidx)
  (⟨idx % n, Nat.mod_lt _ hn⟩, ⟨idx / n, Nat.div_lt_of_lt_mul hidx⟩)

theorem unflatten_eq {h : N ≤ n * m} {idx : Fin N} {p : Fin n × Fin m} :
    unflatten h idx = p ↔ idx.val = p.1 + n * p.2 := by
  obtain ⟨⟨k, hk⟩, ⟨v, hv⟩⟩ := p
  simp only [unflatten, Prod.mk.injEq, Fin.mk.injEq]
  constructor
  · rintro ⟨rfl, rfl⟩
    exact (Nat.mod_add_div _ _).symm
  · intro heq
    rw [heq]
    exact ⟨by rw [Nat.add_mul_mod_self_left, Nat.mod_eq_of_lt hk],
      by rw [Nat.add_mul_div_left _ _ (by omega), Nat.div_eq_of_lt hk, Nat.zero_add]⟩

theorem unflatten_injective (h : N ≤ n * m) : Function.Injective (unflatten h) := by
  intro a b heq
  have ha : a.val = _ := unflatten_eq.mp heq
  have hb : b.val = _ := unflatten_eq.mp (rfl : unflatten h b = unflatten h b)
  exact Fin.ext (ha.trans hb.symm)

theorem exists_unflatten {h : N ≤ n * m} {p : Fin n × Fin m} :
    (∃ idx, unflatten h idx = p) ↔ p.1 + n * p.2 < N := by
  simp only [unflatten_eq]
  constructor
  · rintro ⟨idx, heq⟩
    rw [← heq]
    exact idx.isLt
  · intro hlt
    exact ⟨⟨_, hlt⟩, rfl⟩

theorem sum_unflatten {M : Type*} [AddCommMonoid M] (h : N ≤ n * m) (p : Fin n × Fin m → Prop)
    [DecidablePred p] (f : Fin n × Fin m → M) :
    ∑ idx with p (unflatten h idx), f (unflatten h idx) =
      ∑ q with p q ∧ q.1 + n * q.2 < N, f q := by
  apply Finset.sum_nbij (unflatten h)
  · intro idx hidx
    simp only [Finset.mem_filter, Finset.mem_univ, true_and] at hidx ⊢
    exact ⟨hidx, exists_unflatten.mp ⟨idx, rfl⟩⟩
  · exact (unflatten_injective h).injOn
  · intro q hq
    obtain ⟨hp, hlt⟩ := (Finset.mem_filter.mp (Finset.mem_coe.mp hq)).2
    obtain ⟨idx, hidx⟩ : ∃ idx, unflatten h idx = q := exists_unflatten.mpr hlt
    refine ⟨idx, ?_, hidx⟩
    rw [Finset.mem_coe, Finset.mem_filter, hidx]
    exact ⟨Finset.mem_univ _, hp⟩
  · intro idx _
    rfl

end

/-! ### Two elements per iteration -/

section
variable {n : Nat} {α : Type*}

def even (k : Fin n) : Fin (n * 2) := ⟨k * 2, by omega⟩

def odd (k : Fin n) : Fin (n * 2) := ⟨k * 2 + 1, by omega⟩

/-- The array whose elements come from `f` and `g` in turn. -/
def interleave (f g : Fin n → α) (p : Fin (n * 2)) : α :=
  if p.val % 2 = 0 then f ⟨p / 2, by omega⟩ else g ⟨p / 2, by omega⟩

@[simp] theorem interleave_even (f g : Fin n → α) (k : Fin n) : interleave f g (even k) = f k := by
  simp [interleave, even]

@[simp] theorem interleave_odd (f g : Fin n → α) (k : Fin n) : interleave f g (odd k) = g k := by
  have hdiv : (k.val * 2 + 1) / 2 = k := by omega
  simp [interleave, odd, hdiv]

theorem even_or_odd (p : Fin (n * 2)) : ∃ k, p = even k ∨ p = odd k := by
  have hk : p.val / 2 < n := by omega
  rcases Nat.mod_two_eq_zero_or_one p with hzero | hone
  · exact ⟨⟨p / 2, hk⟩, .inl (Fin.ext (by simp [even]; omega))⟩
  · exact ⟨⟨p / 2, hk⟩, .inr (Fin.ext (by simp [odd]; omega))⟩

theorem sum_even_odd {M : Type*} [AddCommMonoid M] (f : Fin (n * 2) → M) :
    ∑ p, f p = ∑ k, (f (even k) + f (odd k)) := by
  rw [← finProdFinEquiv.sum_comp, Fintype.sum_prod_type]
  apply Finset.sum_congr rfl
  intro k _
  rw [Fin.sum_univ_two]
  congr 2 <;> apply Fin.ext <;> simp [even, odd, finProdFinEquiv] <;> omega

theorem flatMap_pair (f g : Fin n → α) :
    (List.finRange n).flatMap (fun k => [f k, g k]) = List.ofFn (interleave f g) := by
  rw [List.ofFn_mul, List.flatMap_def, ← List.ofFn_eq_map]
  congr 2
  funext k
  have heven : interleave f g ⟨k * 2, by omega⟩ = f k := interleave_even f g k
  have hodd : interleave f g ⟨k * 2 + 1, by omega⟩ = g k := interleave_odd f g k
  simp [List.ofFn_succ, heven, hodd]

theorem write_twice {ι : Type*} [DecidableEq ι] (s : Schedule n) {t t' : Fin n → ι}
    {f g : Fin n → α} {v : ι → α} (a : ι → α) (hf : ∀ k, f k = v (t k)) (hg : ∀ k, g k = v (t' k))
    (hall : ∀ i, ∃ k, i = t k ∨ i = t' k) :
    s.order.foldl (fun a k => Function.update (Function.update a (t k) (f k)) (t' k) (g k)) a =
      v := by
  -- the same writes one by one
  have hflat : ∀ (ks : List (Fin n)) (a : ι → α),
      ks.foldl (fun a k => Function.update (Function.update a (t k) (f k)) (t' k) (g k)) a =
        assign (ks.flatMap fun k => [t k, t' k]) (fun _ => true) id v a := by
    intro ks
    induction ks with
    | nil => exact fun a => rfl
    | cons k ks ih =>
      intro a
      rw [List.foldl_cons, ih, hf, hg]
      simp [assign]
  rw [hflat]
  funext i
  apply assign_of_hit Function.injective_id _ rfl
  obtain ⟨k, hk | hk⟩ := hall i
  · exact List.mem_flatMap.mpr ⟨k, s.mem k, by simp [hk]⟩
  · exact List.mem_flatMap.mpr ⟨k, s.mem k, by simp [hk]⟩

/-! ### Two arrays one after the other -/

def low (k : Fin n) : Fin (n * 2) := ⟨k, by omega⟩

def high (k : Fin n) : Fin (n * 2) := ⟨k + n, by omega⟩

/-- The array with the elements of `f`, then those of `g`. -/
def stack (f g : Fin n → α) (p : Fin (n * 2)) : α :=
  if h : p.val < n then f ⟨p, h⟩ else g ⟨p - n, by omega⟩

@[simp] theorem stack_low (f g : Fin n → α) (k : Fin n) : stack f g (low k) = f k := by
  simp [stack, low]

@[simp] theorem stack_high (f g : Fin n → α) (k : Fin n) : stack f g (high k) = g k := by
  simp [stack, high]

theorem low_or_high (p : Fin (n * 2)) : ∃ k, p = low k ∨ p = high k := by
  by_cases h : p.val < n
  · exact ⟨⟨p, h⟩, .inl rfl⟩
  · exact ⟨⟨p - n, by omega⟩, .inr (Fin.ext (by simp [high]; omega))⟩

end

end ArrayLoops
