import Helm.Framework.System
import Helm.Framework.Word
import Helm.Amio.Errors

/-! # HandleTable

  The slab behind every handle of the C API. A token packs a slot index and
  the generation of the slot at the time of the insertion; a release bumps
  the generation, so that tokens handed out before no longer match.

  The table is checked against an abstract one: the list of handles that
  were inserted and not yet released. The generations run through
  `1, …, 2 ^ 32 - 1` and start over, skipping zero, so a slot returns to an
  old generation after `2 ^ 32 - 1` releases. `stale_rejected` is the exact
  consequence for tokens that were released.
-/

namespace Amio

open LTS

/-! ## Section 1: Model -/

/-- `HandleKind`. -/
inductive HandleKind
  | Core | Dataset | Io | View
  deriving DecidableEq

/-- `HandleTable::Token`. -/
abbrev Token := BitVec 64

/-- `HandleTable::Slot`. Pointers are optional values; `none` is the null
    pointer. -/
structure Slot (P : Type*) where
  /-- 32 bits wide. -/
  generation : Nat
  live : Bool
  kind : HandleKind
  payload : Option P

/-- `HandleTable`. Every method holds the table mutex. -/
structure HandleTable (P : Type*) where
  slots : List (Slot P)
  /-- Slot indices ready for reuse; the back of the vector is the end of the
      list. -/
  free_list : List Nat

namespace HandleTable

variable {P : Type*}

def kMinGeneration : Nat := 1

/-- `HandleTable::pack`. -/
def pack (slot generation : Nat) : Token :=
  BitVec.ofNat 64 slot <<< 32 ||| BitVec.ofNat 64 generation

/-- `HandleTable::unpack_slot`. -/
def unpack_slot (t : Token) : Nat := (t >>> 32).toNat % 2 ^ 32

/-- `HandleTable::unpack_generation`. -/
def unpack_generation (t : Token) : Nat := (t &&& 0xFFFFFFFF#64).toNat

/-- `HandleTable::insert`. Token zero reports that the table is full. -/
def insert (tab : HandleTable P) (kind : HandleKind) (payload : Option P) :
    HandleTable P × Token :=
  match tab.free_list.getLast? with
  | some slot_index =>
    match tab.slots[slot_index]? with
    | some s =>
      ({ slots := tab.slots.set slot_index { s with live := true, kind, payload }
         free_list := tab.free_list.dropLast }, pack slot_index s.generation)
    | none => (tab, 0)
  | none =>
    if tab.slots.length ≥ 2 ^ 32 - 1 then (tab, 0)
    else
      ({ tab with slots := tab.slots ++ [⟨kMinGeneration, true, kind, payload⟩] },
        pack tab.slots.length kMinGeneration)

/-- `HandleTable::lookup`. The output pointer is given at every call site. -/
def lookup (tab : HandleTable P) (token : Token) (expected : HandleKind) :
    Except AmioStatus (Option P) :=
  if token = 0 then .error .ERR_NULL_HANDLE
  else match tab.slots[unpack_slot token]? with
    | none => .error .ERR_INVALID_HANDLE
    | some s =>
      if s.live = false ∨ s.generation ≠ unpack_generation token then .error .ERR_INVALID_HANDLE
      else if s.kind ≠ expected then .error .ERR_INVALID_HANDLE
      else .ok s.payload

/-- The bump of a generation on release. Zero is skipped. -/
def next_generation (generation : Nat) : Nat :=
  if Word.add 32 generation 1 = 0 then kMinGeneration else Word.add 32 generation 1

/-- `HandleTable::release`. -/
def release (tab : HandleTable P) (token : Token) (expected : HandleKind) :
    Except AmioStatus (HandleTable P) :=
  if token = 0 then .error .ERR_NULL_HANDLE
  else match tab.slots[unpack_slot token]? with
    | none => .error .ERR_INVALID_HANDLE
    | some s =>
      if s.live = false ∨ s.generation ≠ unpack_generation token ∨ s.kind ≠ expected then
        .error .ERR_INVALID_HANDLE
      else
        .ok
          { slots := tab.slots.set (unpack_slot token)
              { s with live := false, payload := none, generation := next_generation s.generation }
            free_list := tab.free_list ++ [unpack_slot token] }

end HandleTable

/-! ## Section 2: Runs -/

/-- A table together with what it stands for. -/
structure TableState (P : Type*) where
  table : HandleTable P
  /-- The handles inserted and not yet released. -/
  handles : List (Token × HandleKind × Option P)
  /-- How often each slot has been released. -/
  releases : Nat → Nat

/-- The operations on a table. -/
inductive TableLabel (P : Type*)
  | insert (kind : HandleKind) (payload : Option P)
  | lookup (token : Token) (expected : HandleKind)
  | release (token : Token) (expected : HandleKind)

namespace TableState

variable {P : Type*}

open HandleTable

def next (s : TableState P) : TableLabel P → Option (TableState P)
  | .insert kind payload =>
    let res := s.table.insert kind payload
    some { s with
      table := res.1
      handles := if res.2 = 0 then s.handles else s.handles ++ [(res.2, kind, payload)] }
  | .lookup _ _ => some s
  | .release token expected =>
    match s.table.release token expected with
    | .error _ => some s
    | .ok table => some
      { table
        handles := s.handles.filter (·.1 ≠ token)
        releases := Function.update s.releases (unpack_slot token)
          (s.releases (unpack_slot token) + 1) }

/-- The empty table. -/
def empty : TableState P := ⟨⟨[], []⟩, [], fun _ => 0⟩

end TableState

/-- Any sequence of operations on a fresh table. -/
def tableSystem (P : Type*) : System (TableState P) (TableLabel P) :=
  .ofNext (· = .empty) TableState.next

/-! ## Section 3: Tokens -/

namespace HandleTable

theorem toNat_pack {slot generation : Nat} (hs : slot < 2 ^ 32) (hg : generation < 2 ^ 32) :
    (pack slot generation).toNat = slot * 2 ^ 32 + generation := by
  have hs' : (slot % 2 ^ 64) <<< 32 % 2 ^ 64 = slot <<< 32 := by
    rw [Nat.shiftLeft_eq, Nat.shiftLeft_eq]; omega
  have hg' : generation % 2 ^ 64 = generation := Nat.mod_eq_of_lt (by omega)
  rw [pack, BitVec.toNat_or, BitVec.toNat_shiftLeft, BitVec.toNat_ofNat, BitVec.toNat_ofNat, hs',
    hg', ← Nat.shiftLeft_add_eq_or_of_lt hg, Nat.shiftLeft_eq]

theorem unpack_slot_eq (t : Token) : unpack_slot t = t.toNat / 2 ^ 32 := by
  have := t.isLt
  rw [unpack_slot, BitVec.toNat_ushiftRight, Nat.shiftRight_eq_div_pow]
  omega

theorem unpack_generation_eq (t : Token) : unpack_generation t = t.toNat % 2 ^ 32 := by
  rw [unpack_generation, BitVec.toNat_and, show (0xFFFFFFFF#64).toNat = 2 ^ 32 - 1 from rfl,
    Nat.and_two_pow_sub_one_eq_mod]

theorem pack_unpack (t : Token) : pack (unpack_slot t) (unpack_generation t) = t := by
  have := t.isLt
  apply BitVec.eq_of_toNat_eq
  rw [toNat_pack (by rw [unpack_slot_eq]; omega) (by rw [unpack_generation_eq]; omega),
    unpack_slot_eq, unpack_generation_eq]
  omega

theorem unpack_slot_pack {slot generation : Nat} (hs : slot < 2 ^ 32) (hg : generation < 2 ^ 32) :
    unpack_slot (pack slot generation) = slot := by
  rw [unpack_slot_eq, toNat_pack hs hg]
  omega

theorem unpack_generation_pack {slot generation : Nat} (hs : slot < 2 ^ 32)
    (hg : generation < 2 ^ 32) : unpack_generation (pack slot generation) = generation := by
  rw [unpack_generation_eq, toNat_pack hs hg]
  omega

theorem pack_ne_zero {slot generation : Nat} (hs : slot < 2 ^ 32) (hpos : 0 < generation)
    (hg : generation < 2 ^ 32) : pack slot generation ≠ 0 := fun h => by
  have hnat := toNat_pack hs hg
  rw [h] at hnat
  simp only [BitVec.ofNat_eq_ofNat, BitVec.toNat_ofNat, Nat.zero_mod] at hnat
  omega

theorem next_generation_eq (r : Nat) :
    next_generation (r % (2 ^ 32 - 1) + 1) = (r + 1) % (2 ^ 32 - 1) + 1 := by
  have hlt : r % (2 ^ 32 - 1) < 2 ^ 32 - 1 := Nat.mod_lt _ (by norm_num)
  unfold next_generation Word.add kMinGeneration
  split <;> omega

end HandleTable

/-! ## Section 4: The invariant -/

section Invariant

variable {P : Type*} {s : TableState P}

open HandleTable

/-- Slot `i` is live and its current token is `t`. -/
def HandleTable.Holds (tab : HandleTable P) (i : Nat) (sl : Slot P) (t : Token) : Prop :=
  tab.slots[i]? = some sl ∧ sl.live = true ∧ t = pack i sl.generation

/-- The table represents its list of handles. -/
structure TableInv (s : TableState P) : Prop where
  size : s.table.slots.length ≤ 2 ^ 32 - 1
  free_nodup : s.table.free_list.Nodup
  free_iff : ∀ i, i ∈ s.table.free_list ↔ ∃ sl, s.table.slots[i]? = some sl ∧ sl.live = false
  generation : ∀ i sl, s.table.slots[i]? = some sl →
    sl.generation = s.releases i % (2 ^ 32 - 1) + 1
  unused : ∀ i, s.table.slots.length ≤ i → s.releases i = 0
  tokens_nodup : (s.handles.map Prod.fst).Nodup
  handles_iff : ∀ t kind payload, (t, kind, payload) ∈ s.handles ↔
    ∃ i sl, s.table.Holds i sl t ∧ sl.kind = kind ∧ sl.payload = payload

theorem table_inv_empty : TableInv (.empty : TableState P) := by
  refine ⟨Nat.zero_le _, List.nodup_nil, fun i => ?_, fun i sl h => ?_, fun _ _ => rfl,
    List.nodup_nil, fun t kind payload => ?_⟩
  · simp [TableState.empty]
  · simp [TableState.empty] at h
  · simp [TableState.empty, HandleTable.Holds]

theorem TableInv.generation_lt (h : TableInv s) {i : Nat} {sl : Slot P}
    (hi : s.table.slots[i]? = some sl) : 0 < sl.generation ∧ sl.generation < 2 ^ 32 := by
  rw [h.generation i sl hi]
  omega

theorem TableInv.index_lt (h : TableInv s) {i : Nat} {sl : Slot P}
    (hi : s.table.slots[i]? = some sl) : i < 2 ^ 32 := by
  have := (List.getElem?_eq_some_iff.mp hi).1
  have := h.size
  omega

theorem TableInv.unpack (h : TableInv s) {i : Nat} {sl : Slot P} {t : Token}
    (hi : s.table.Holds i sl t) :
    unpack_slot t = i ∧ unpack_generation t = sl.generation ∧ t ≠ 0 := by
  obtain ⟨hslot, -, rfl⟩ := hi
  obtain ⟨hpos, hlt⟩ := h.generation_lt hslot
  have hi := h.index_lt hslot
  exact ⟨unpack_slot_pack hi hlt, unpack_generation_pack hi hlt, pack_ne_zero hi hpos hlt⟩

theorem holds_of_unpack {tab : HandleTable P} {t : Token} {sl : Slot P}
    (hsl : tab.slots[unpack_slot t]? = some sl) (hlive : sl.live = true)
    (hgen : sl.generation = unpack_generation t) : tab.Holds (unpack_slot t) sl t :=
  ⟨hsl, hlive, by rw [hgen, pack_unpack]⟩

/-- **`lookup`** succeeds exactly on the handles of the abstract table. -/
theorem TableInv.lookup_iff (h : TableInv s) (t : Token) (kind : HandleKind) (p : Option P) :
    s.table.lookup t kind = .ok p ↔ (t, kind, p) ∈ s.handles := by
  rw [h.handles_iff]
  constructor
  · intro hl
    unfold lookup at hl
    split at hl
    · cases hl
    split at hl
    · cases hl
    next sl hsl =>
    split at hl
    · cases hl
    next hlive =>
    split at hl
    · cases hl
    next hkind =>
    simp only [not_or, Bool.not_eq_false, not_not] at hlive hkind
    cases hl
    exact ⟨_, sl, holds_of_unpack hsl hlive.1 hlive.2, hkind, rfl⟩
  · rintro ⟨i, sl, hi, rfl, rfl⟩
    obtain ⟨hslot, hgen, hne⟩ := h.unpack hi
    rw [lookup, if_neg hne]
    simp [hslot, hi.1, hi.2.1, hgen]

theorem release_ok {tab tab' : HandleTable P} {t : Token} {kind : HandleKind}
    (hrel : tab.release t kind = .ok tab') :
    ∃ sl, tab.Holds (unpack_slot t) sl t ∧ sl.kind = kind ∧ tab' =
      { slots := tab.slots.set (unpack_slot t)
          { sl with live := false, payload := none, generation := next_generation sl.generation }
        free_list := tab.free_list ++ [unpack_slot t] } := by
  unfold release at hrel
  split at hrel
  · cases hrel
  split at hrel
  · cases hrel
  next sl hsl =>
  split at hrel
  · cases hrel
  next hok =>
  simp only [not_or, Bool.not_eq_false, not_not] at hok
  cases hrel
  exact ⟨sl, holds_of_unpack hsl hok.1 hok.2.1, hok.2.2, rfl⟩

theorem TableInv.release_refused (h : TableInv s) {t : Token} {kind : HandleKind} (ht : t ≠ 0)
    (hno : ∀ p, (t, kind, p) ∉ s.handles) :
    s.table.release t kind = .error .ERR_INVALID_HANDLE := by
  cases hrel : s.table.release t kind with
  | ok tab' =>
    obtain ⟨sl, hsl, hkind, -⟩ := release_ok hrel
    exact absurd ((h.handles_iff t kind sl.payload).mpr ⟨_, sl, hsl, hkind, rfl⟩) (hno _)
  | error e =>
    unfold release at hrel
    rw [if_neg ht] at hrel
    split at hrel
    · exact hrel.symm ▸ rfl
    · split at hrel
      · exact hrel.symm ▸ rfl
      · cases hrel

/-! ### Insertion -/

/-- Filling slot `i`, which is free or new, with a live entry. -/
theorem TableInv.fill (h : TableInv s) (tab : HandleTable P) (i : Nat) (sl : Slot P)
    (hsize : tab.slots.length ≤ 2 ^ 32 - 1) (hmono : s.table.slots.length ≤ tab.slots.length)
    (hget : ∀ j, tab.slots[j]? = if j = i then some sl else s.table.slots[j]?)
    (hlive : sl.live = true) (hold : ∀ sl', s.table.slots[i]? = some sl' → sl'.live = false)
    (hgen : sl.generation = s.releases i % (2 ^ 32 - 1) + 1)
    (hnd : tab.free_list.Nodup)
    (hfree : ∀ j, j ∈ tab.free_list ↔ j ∈ s.table.free_list ∧ j ≠ i) :
    TableInv ⟨tab, s.handles ++ [(pack i sl.generation, sl.kind, sl.payload)], s.releases⟩ ∧
      pack i sl.generation ≠ 0 := by
  have hi : tab.slots[i]? = some sl := by rw [hget, if_pos rfl]
  have hilt : i < 2 ^ 32 := by
    have := (List.getElem?_eq_some_iff.mp hi).1
    omega
  have hglt : 0 < sl.generation ∧ sl.generation < 2 ^ 32 := by rw [hgen]; omega
  have hiff : ∀ t kind payload,
      (t, kind, payload) ∈ s.handles ++ [(pack i sl.generation, sl.kind, sl.payload)] ↔
      ∃ j sl', tab.Holds j sl' t ∧ sl'.kind = kind ∧ sl'.payload = payload := by
    intro t kind payload
    rw [List.mem_append, h.handles_iff, List.mem_singleton]
    constructor
    · rintro (⟨j, sl', ⟨hj, hl, rfl⟩, rfl, rfl⟩ | heq)
      · have hji : j ≠ i := by
          rintro rfl
          rw [hold sl' hj] at hl
          cases hl
        exact ⟨j, sl', ⟨by rw [hget, if_neg hji, hj], hl, rfl⟩, rfl, rfl⟩
      · cases heq
        exact ⟨i, sl, ⟨hi, hlive, rfl⟩, rfl, rfl⟩
    · rintro ⟨j, sl', ⟨hj, hl, rfl⟩, rfl, rfl⟩
      rw [hget] at hj
      by_cases hji : j = i
      · rw [if_pos hji] at hj
        cases hj
        subst hji
        exact .inr rfl
      · rw [if_neg hji] at hj
        exact .inl ⟨j, sl', ⟨hj, hl, rfl⟩, rfl, rfl⟩
  refine ⟨⟨hsize, hnd, fun j => ?_, fun j sl' hj => ?_, fun j hj => h.unused j (hmono.trans hj), ?_,
    hiff⟩,
    pack_ne_zero hilt hglt.1 hglt.2⟩
  · rw [hfree, h.free_iff, hget]
    by_cases hji : j = i
    · simp [hji, hlive]
    · simp [hji]
  · rw [hget] at hj
    by_cases hji : j = i
    · rw [if_pos hji] at hj
      cases hj
      rw [hji, hgen]
    · rw [if_neg hji] at hj
      exact h.generation j sl' hj
  · -- no live handle carries the new token: it would sit in slot `i`
    rw [List.map_append, List.nodup_append]
    refine ⟨h.tokens_nodup, List.nodup_singleton _, fun a ha b hb hab => ?_⟩
    rw [List.map_singleton, List.mem_singleton] at hb
    obtain ⟨⟨t, kind, payload⟩, hmem, rfl⟩ := List.mem_map.mp ha
    obtain ⟨j, sl', hj, -⟩ := (h.handles_iff t kind payload).mp hmem
    have hj' : j = i := by
      rw [← (h.unpack hj).1, show t = pack i sl.generation from hab.trans hb,
        unpack_slot_pack hilt hglt.2]
    rw [hj'] at hj
    exact absurd hj.2.1 (by rw [hold sl' hj.1]; decide)

theorem table_inv_insert (h : TableInv s) (kind : HandleKind) (payload : Option P)
    {s' : TableState P} (hs : s.next (.insert kind payload) = some s') : TableInv s' := by
  simp only [TableState.next, Option.some.injEq] at hs
  subst hs
  unfold HandleTable.insert
  cases hlast : s.table.free_list.getLast? with
  | none =>
    have hnil : s.table.free_list = [] := List.getLast?_eq_none_iff.mp hlast
    by_cases hfull : s.table.slots.length ≥ 2 ^ 32 - 1
    · simpa only [if_pos hfull, if_true] using h
    · -- a brand-new slot at the end
      have hnew := h.fill
        ⟨s.table.slots ++ [⟨kMinGeneration, true, kind, payload⟩], s.table.free_list⟩
        s.table.slots.length ⟨kMinGeneration, true, kind, payload⟩
        (by simp only [List.length_append, List.length_singleton]; omega)
        (by simp) (fun j => ?_) rfl (fun sl' hsl' => by simp at hsl')
        (by rw [h.unused _ le_rfl]; rfl) h.free_nodup (fun j => by simp [hnil])
      · simp only [if_neg hfull]
        rw [if_neg hnew.2]
        exact hnew.1
      · by_cases hj : j = s.table.slots.length
        · simp [hj]
        · rw [if_neg hj, List.getElem?_append]
          split
          · rfl
          · next hlt =>
            rw [List.getElem?_eq_none (by simp; omega), List.getElem?_eq_none (by omega)]
  | some i =>
    obtain ⟨init, hinit⟩ := List.getLast?_eq_some_iff.mp hlast
    have himem : i ∈ s.table.free_list := List.mem_of_getLast? hlast
    obtain ⟨sl, hsl, hdead⟩ := (h.free_iff i).mp himem
    have hnd : (init ++ [i]).Nodup := hinit ▸ h.free_nodup
    have hlt := (List.getElem?_eq_some_iff.mp hsl).1
    have hfill := h.fill
      ⟨s.table.slots.set i { sl with live := true, kind, payload }, init⟩
      i { sl with live := true, kind, payload }
      (by simpa using h.size) (by simp) (fun j => ?_) rfl
      (fun sl' hsl' => by rw [hsl] at hsl'; cases hsl'; exact hdead)
      (h.generation i sl hsl) (List.nodup_append.mp hnd).1 (fun j => ?_)
    · simp only [hsl, hinit, List.dropLast_concat]
      rw [if_neg hfill.2]
      exact hfill.1
    · rw [List.getElem?_set]
      by_cases hji : j = i
      · simp [hji, hlt]
      · simp [hji, Ne.symm hji]
    · rw [hinit, List.mem_append, List.mem_singleton]
      constructor
      · intro hj
        refine ⟨.inl hj, ?_⟩
        rintro rfl
        exact (List.nodup_append.mp hnd).2.2 j hj j (by simp) rfl
      · rintro ⟨hj | hj, hne⟩
        · exact hj
        · exact absurd hj hne

/-! ### Release -/

theorem table_inv_release (h : TableInv s) (t : Token) (kind : HandleKind)
    {s' : TableState P} (hs : s.next (.release t kind) = some s') : TableInv s' := by
  simp only [TableState.next] at hs
  cases hrel : s.table.release t kind with
  | error e => rw [hrel] at hs; cases hs; exact h
  | ok tab =>
    rw [hrel] at hs
    cases hs
    obtain ⟨sl, hsl, -, rfl⟩ := release_ok hrel
    set i := unpack_slot t with hi
    have hlt := (List.getElem?_eq_some_iff.mp hsl.1).1
    have hget : ∀ j, (s.table.slots.set i { sl with
        live := false, payload := none, generation := next_generation sl.generation })[j]? =
        if j = i then some { sl with
          live := false, payload := none, generation := next_generation sl.generation }
        else s.table.slots[j]? := fun j => by
      rw [List.getElem?_set]
      by_cases hji : j = i
      · simp [hji, hlt]
      · simp [hji, Ne.symm hji]
    refine ⟨by simpa using h.size, ?_, fun j => ?_, fun j sl' hj => ?_, fun j hj => ?_, ?_,
      fun t' kind' payload => ?_⟩
    · rw [List.nodup_append]
      refine ⟨h.free_nodup, List.nodup_singleton _, fun a ha b hb hab => ?_⟩
      rw [List.mem_singleton] at hb
      obtain ⟨sl', hsl', hdead⟩ := (h.free_iff a).mp ha
      rw [hab, hb, hsl.1] at hsl'
      cases hsl'
      rw [hsl.2.1] at hdead
      cases hdead
    · simp only [List.mem_append, List.mem_singleton, h.free_iff, hget]
      by_cases hji : j = i
      · simp [hji]
      · simp [hji]
    · simp only [hget] at hj
      by_cases hji : j = i
      · rw [if_pos hji] at hj
        cases hj
        simp only [hji, Function.update_self]
        rw [h.generation i sl hsl.1, next_generation_eq]
      · rw [if_neg hji] at hj
        simp only [Function.update_of_ne hji]
        exact h.generation j sl' hj
    · simp only [List.length_set] at hj
      have hji : j ≠ i := by omega
      simp only [Function.update_of_ne hji]
      exact h.unused j hj
    · exact h.tokens_nodup.sublist (List.filter_sublist.map _)
    · rw [List.mem_filter, h.handles_iff]
      simp only [decide_eq_true_eq, HandleTable.Holds, hget]
      constructor
      · rintro ⟨⟨j, sl', hj, hk, hp⟩, hne⟩
        have hji : j ≠ i := by
          rintro rfl
          have := hj.1.symm.trans hsl.1
          cases this
          exact hne (hj.2.2.trans hsl.2.2.symm)
        exact ⟨j, sl', ⟨by rw [if_neg hji]; exact hj.1, hj.2⟩, hk, hp⟩
      · rintro ⟨j, sl', ⟨hj, hl, ht'⟩, hk, hp⟩
        by_cases hji : j = i
        · rw [if_pos hji] at hj
          cases hj
          cases hl
        · rw [if_neg hji] at hj
          have hholds : s.table.Holds j sl' t' := ⟨hj, hl, ht'⟩
          refine ⟨⟨j, sl', hholds, hk, hp⟩, ?_⟩
          rintro rfl
          exact hji ((h.unpack hholds).1.symm.trans hi.symm)

theorem table_inv_reachable (hr : (tableSystem P).Reachable s) : TableInv s := by
  refine hr.invariant (fun t ht => ?_) fun t l t' _ h hstep => ?_
  · obtain rfl : t = .empty := ht
    exact table_inv_empty
  · cases l with
    | insert kind payload => exact table_inv_insert h kind payload hstep
    | lookup token expected => cases hstep; exact h
    | release token expected => exact table_inv_release h token expected hstep

end Invariant

/-! ## Section 5: Stale tokens -/

section Stale

variable {P : Type*} {s s' : TableState P}

open HandleTable

theorem releases_mono_step {l : TableLabel P} (hs : s.next l = some s') (i : Nat) :
    s.releases i ≤ s'.releases i := by
  cases l with
  | insert kind payload => cases hs; exact le_rfl
  | lookup token expected => cases hs; exact le_rfl
  | release token expected =>
    simp only [TableState.next] at hs
    cases hrel : s.table.release token expected with
    | error e => rw [hrel] at hs; cases hs; exact le_rfl
    | ok tab =>
      rw [hrel] at hs
      cases hs
      by_cases hi : i = unpack_slot token
      · simp [hi]
      · simp [hi]

theorem releases_mono {ls : List (TableLabel P)} (hr : (tableSystem P).Reachable s)
    (hs : (tableSystem P).Steps s ls s') (i : Nat) : s.releases i ≤ s'.releases i :=
  hs.stable (P := fun t => s.releases i ≤ t.releases i)
    (fun _ _ _ _ h hstep => h.trans (releases_mono_step hstep i)) hr le_rfl

theorem stale_not_live {t : Token} {kind : HandleKind} {tab : HandleTable P} {s₁ : TableState P}
    {ls : List (TableLabel P)} (hr : (tableSystem P).Reachable s)
    (hrel : s.table.release t kind = .ok tab) (hstep : s.next (.release t kind) = some s₁)
    (hs : (tableSystem P).Steps s₁ ls s')
    (hfew : s'.releases (unpack_slot t) < s₁.releases (unpack_slot t) + (2 ^ 32 - 2)) :
    t ≠ 0 ∧ ∀ k p, (t, k, p) ∉ s'.handles := by
  have h := table_inv_reachable hr
  have hr₁ : (tableSystem P).Reachable s₁ := .step hr hstep
  have h' := table_inv_reachable (hs.reachable hr₁)
  obtain ⟨sl, hsl, -⟩ := release_ok hrel
  obtain ⟨-, hgen, hne⟩ := h.unpack hsl
  refine ⟨hne, fun k p hmem => ?_⟩
  obtain ⟨i, sl', hsl', -⟩ := (h'.handles_iff t k p).mp hmem
  obtain ⟨hi, hgen', -⟩ := h'.unpack hsl'
  have hcount : s₁.releases (unpack_slot t) = s.releases (unpack_slot t) + 1 := by
    simp only [TableState.next, hrel, Option.some.injEq] at hstep
    simp only [← hstep, Function.update_self]
  have hle := releases_mono hr₁ hs (unpack_slot t)
  -- both generations are the one in the token
  have h₀ := h.generation _ sl hsl.1
  have h₁ := h'.generation i sl' hsl'.1
  rw [← hi] at h₁
  have heq : s.releases (unpack_slot t) % (2 ^ 32 - 1) =
      s'.releases (unpack_slot t) % (2 ^ 32 - 1) := by omega
  omega

/-- **The handle table.** In every reachable state the live tokens are
    distinct and not zero; `lookup` returns the payload inserted under a token
    exactly when the token is live and the kind matches; a released token is
    rejected by every later `lookup` and `release`, as long as its slot is
    released fewer than `2 ^ 32 - 2` further times; and the free list lists
    the slots that are not live, once each. -/
theorem handle_table_correct (hr : (tableSystem P).Reachable s) :
    ((s.handles.map Prod.fst).Nodup ∧ ∀ h ∈ s.handles, h.1 ≠ 0) ∧
    (∀ t kind p, s.table.lookup t kind = .ok p ↔ (t, kind, p) ∈ s.handles) ∧
    (∀ t kind tab s₁ ls s', s.table.release t kind = .ok tab →
      (tableSystem P).step s (.release t kind) s₁ → (tableSystem P).Steps s₁ ls s' →
      s'.releases (unpack_slot t) < s₁.releases (unpack_slot t) + (2 ^ 32 - 2) →
      ∀ k, s'.table.lookup t k = .error .ERR_INVALID_HANDLE ∧
        s'.table.release t k = .error .ERR_INVALID_HANDLE) ∧
    (s.table.free_list.Nodup ∧
      ∀ i, i ∈ s.table.free_list ↔ ∃ sl, s.table.slots[i]? = some sl ∧ sl.live = false) := by
  have h := table_inv_reachable hr
  refine ⟨⟨h.tokens_nodup, ?_⟩, h.lookup_iff, ?_, h.free_nodup, h.free_iff⟩
  · rintro ⟨t, kind, p⟩ hmem
    obtain ⟨i, sl, hi, -⟩ := (h.handles_iff t kind p).mp hmem
    exact (h.unpack hi).2.2
  · intro t kind tab s₁ ls s' hrel hstep hs hfew k
    obtain ⟨hne, hstale⟩ := stale_not_live hr hrel hstep hs hfew
    have h' := table_inv_reachable (hs.reachable (.step hr hstep))
    refine ⟨?_, h'.release_refused hne (hstale k)⟩
    cases hl : s'.table.lookup t k with
    | ok p => exact absurd ((h'.lookup_iff t k p).mp hl) (hstale k p)
    | error e =>
      unfold lookup at hl
      rw [if_neg hne] at hl
      split at hl
      · exact hl.symm ▸ rfl
      · split at hl
        · exact hl.symm ▸ rfl
        · split at hl
          · exact hl.symm ▸ rfl
          · cases hl

theorem handle_table_correct_reuse : ∃ s : TableState Nat, (tableSystem Nat).Reachable s ∧
    s.table.free_list = [] ∧ s.table.lookup (pack 0 1) .Core = .error .ERR_INVALID_HANDLE ∧
    s.table.lookup (pack 0 2) .Dataset = .ok (some 8) ∧
    (pack 0 2, .Dataset, some 8) ∈ s.handles := by
  have hrun : ∃ s : TableState Nat, System.exec TableState.next .empty
      [.insert .Core (some 7), .release (pack 0 1) .Core, .insert .Dataset (some 8)] = some s ∧
      s.table.free_list = [] ∧ s.table.lookup (pack 0 1) .Core = .error .ERR_INVALID_HANDLE ∧
      s.table.lookup (pack 0 2) .Dataset = .ok (some 8) := ⟨_, rfl, rfl, rfl, rfl⟩
  obtain ⟨s, hs, hfree, hstale, hlive⟩ := hrun
  have hr : (tableSystem Nat).Reachable s := System.reachable_of_exec rfl hs
  exact ⟨s, hr, hfree, hstale, hlive, ((handle_table_correct hr).2.1 _ _ _).mp hlive⟩

/-! ### The full turn of the generations -/

/-- One slot, released `k` times, free. -/
def turnedFree (k : Nat) : TableState Unit :=
  ⟨⟨[⟨k % (2 ^ 32 - 1) + 1, false, .Core, none⟩], [0]⟩, [], fun i => if i = 0 then k else 0⟩

/-- One slot, released `k` times, live. -/
def turnedLive (k : Nat) : TableState Unit :=
  ⟨⟨[⟨k % (2 ^ 32 - 1) + 1, true, .Core, none⟩], []⟩,
    [(pack 0 (k % (2 ^ 32 - 1) + 1), .Core, none)], fun i => if i = 0 then k else 0⟩

theorem turned_insert (k : Nat) :
    (turnedFree k).next (.insert .Core none) = some (turnedLive k) := by
  have hne : pack 0 (k % (2 ^ 32 - 1) + 1) ≠ 0 := pack_ne_zero (by norm_num) (by omega) (by omega)
  simp only [TableState.next, HandleTable.insert, turnedFree, List.getLast?_singleton,
    List.getElem?_cons_zero, List.set_cons_zero, List.dropLast_singleton]
  rw [if_neg hne]
  rfl

theorem turned_release (k : Nat) :
    (turnedLive k).next (.release (pack 0 (k % (2 ^ 32 - 1) + 1)) .Core) =
      some (turnedFree (k + 1)) ∧
    ∃ tab, (turnedLive k).table.release (pack 0 (k % (2 ^ 32 - 1) + 1)) .Core = .ok tab := by
  have hlt : k % (2 ^ 32 - 1) + 1 < 2 ^ 32 := by omega
  have hne : pack 0 (k % (2 ^ 32 - 1) + 1) ≠ 0 := pack_ne_zero (by norm_num) (by omega) hlt
  have hslot : unpack_slot (pack 0 (k % (2 ^ 32 - 1) + 1)) = 0 :=
    unpack_slot_pack (by norm_num) hlt
  have hgen : unpack_generation (pack 0 (k % (2 ^ 32 - 1) + 1)) = k % (2 ^ 32 - 1) + 1 :=
    unpack_generation_pack (by norm_num) hlt
  have hrel : (turnedLive k).table.release (pack 0 (k % (2 ^ 32 - 1) + 1)) .Core =
      .ok (turnedFree (k + 1)).table := by
    rw [HandleTable.release, if_neg hne, hslot]
    simp only [turnedLive, List.getElem?_cons_zero, hgen, next_generation_eq]
    rw [if_neg (by simp)]
    rfl
  refine ⟨?_, _, hrel⟩
  have hcount : Function.update (turnedLive k).releases 0 (k + 1) = (turnedFree (k + 1)).releases := by
    funext i
    by_cases hi : i = 0
    · simp [hi, turnedFree]
    · simp [hi, turnedFree, turnedLive]
  simp only [TableState.next, hrel, hslot]
  rw [show (turnedLive k).releases 0 + 1 = k + 1 from rfl, hcount]
  simp [turnedLive, turnedFree]

theorem turned_steps (m : Nat) :
    ∃ ls, (tableSystem Unit).Steps (turnedFree 1) ls (turnedFree (1 + m)) := by
  induction m with
  | zero => exact ⟨[], .nil _⟩
  | succ m ih =>
    obtain ⟨ls, hls⟩ := ih
    exact ⟨_, hls.append (.cons (turned_insert (1 + m)) (.cons (turned_release (1 + m)).1 (.nil _)))⟩

theorem stale_token_returns : ∃ (s s₁ s' : TableState Unit) (t : Token) (ls : List (TableLabel Unit)),
    (tableSystem Unit).Reachable s ∧ (∃ tab, s.table.release t .Core = .ok tab) ∧
    (tableSystem Unit).step s (.release t .Core) s₁ ∧ (tableSystem Unit).Steps s₁ ls s' ∧
    s'.releases (unpack_slot t) < s₁.releases (unpack_slot t) + (2 ^ 32 - 1) ∧
    s'.table.lookup t .Core = .ok none := by
  have hzero : 0 % (2 ^ 32 - 1) + 1 = 1 := by norm_num
  have hturn : ∀ k, k = 2 ^ 32 - 1 → k % (2 ^ 32 - 1) + 1 = 1 := by omega
  have hcount : (fun i : Nat => if i = 0 then 0 else 0) = fun _ => 0 := funext fun i => ite_self 0
  have hfirst : (tableSystem Unit).Reachable (turnedLive 0) := by
    refine .step (l := .insert .Core none) (.init rfl) ?_
    change TableState.empty.next _ = some (turnedLive 0)
    rw [turnedLive, hcount]
    rfl
  obtain ⟨hstep, hrel⟩ := turned_release 0
  rw [hzero] at hstep hrel
  obtain ⟨ls, hls⟩ := turned_steps (2 ^ 32 - 2)
  have hlast := hls.append (.cons (turned_insert _) (.nil _))
  have hslot : unpack_slot (pack 0 1) = 0 := unpack_slot_pack (by norm_num) (by norm_num)
  refine ⟨turnedLive 0, turnedFree 1, turnedLive (1 + (2 ^ 32 - 2)), pack 0 1, _, hfirst, hrel,
    hstep, hlast, ?_, ?_⟩
  · rw [hslot]
    simp only [turnedLive, turnedFree, if_true]
    norm_num
  · have hlive := table_inv_reachable (hlast.reachable (.step hfirst hstep))
    rw [hlive.lookup_iff]
    simp only [turnedLive, hturn _ (by norm_num : 1 + (2 ^ 32 - 2) = 2 ^ 32 - 1)]
    exact List.mem_singleton.mpr rfl

end Stale

/-! ## Section 6: The table inside a larger state -/

namespace TableState

variable {P : Type*}

open HandleTable

/-- Insert a payload. The second component is the token that is returned. -/
def insert (s : TableState P) (kind : HandleKind) (payload : P) : TableState P × Token :=
  let res := s.table.insert kind (some payload)
  ({ s with
      table := res.1
      handles := if res.2 = 0 then s.handles else s.handles ++ [(res.2, kind, some payload)] },
    res.2)

/-- Release a token. The table is unchanged when the token is refused. -/
def release (s : TableState P) (token : Token) (expected : HandleKind) : TableState P :=
  match s.table.release token expected with
  | .error _ => s
  | .ok table =>
    { table
      handles := s.handles.filter (·.1 ≠ token)
      releases := Function.update s.releases (unpack_slot token)
        (s.releases (unpack_slot token) + 1) }

variable {s : TableState P}

theorem next_insert (kind : HandleKind) (payload : P) :
    s.next (.insert kind (some payload)) = some (s.insert kind payload).1 := rfl

theorem next_release (t : Token) (kind : HandleKind) :
    s.next (.release t kind) = some (s.release t kind) := by
  cases hrel : s.table.release t kind with
  | error e => simp only [TableState.next, release, hrel]
  | ok tab => simp only [TableState.next, release, hrel]

end TableState

section Component

variable {P : Type*} {s : TableState P}

open HandleTable

theorem TableInv.live_generation (h : TableInv s) {t : Token} {kind : HandleKind}
    {p : Option P} (hm : (t, kind, p) ∈ s.handles) :
    unpack_generation t = s.releases (unpack_slot t) % (2 ^ 32 - 1) + 1 := by
  obtain ⟨i, sl, hi, -⟩ := (h.handles_iff t kind p).mp hm
  obtain ⟨hslot, hgen, -⟩ := h.unpack hi
  rw [hslot, hgen]
  exact h.generation i sl hi.1

theorem TableInv.live_ne_zero (h : TableInv s) {t : Token} {kind : HandleKind}
    {p : Option P} (hm : (t, kind, p) ∈ s.handles) : t ≠ 0 := by
  obtain ⟨i, sl, hi, -⟩ := (h.handles_iff t kind p).mp hm
  exact (h.unpack hi).2.2

theorem TableInv.live_slot_inj (h : TableInv s) {t t' : Token} {kind kind' : HandleKind}
    {p p' : Option P} (hm : (t, kind, p) ∈ s.handles) (hm' : (t', kind', p') ∈ s.handles)
    (hslot : unpack_slot t = unpack_slot t') : t = t' := by
  have hgen : unpack_generation t = unpack_generation t' := by
    rw [h.live_generation hm, h.live_generation hm', hslot]
  rw [← pack_unpack t, ← pack_unpack t', hslot, hgen]

theorem TableInv.live_unique (h : TableInv s) {t : Token} {kind kind' : HandleKind}
    {p p' : Option P} (hm : (t, kind, p) ∈ s.handles) (hm' : (t, kind', p') ∈ s.handles) :
    kind = kind' ∧ p = p' := by
  have heq := List.inj_on_of_nodup_map h.tokens_nodup hm hm' rfl
  simpa using heq

theorem TableInv.insert (h : TableInv s) (kind : HandleKind) (payload : P) :
    TableInv (s.insert kind payload).1 :=
  table_inv_insert h kind (some payload) (TableState.next_insert kind payload)

theorem TableInv.release (h : TableInv s) (t : Token) (kind : HandleKind) :
    TableInv (s.release t kind) :=
  table_inv_release h t kind (TableState.next_release t kind)

theorem TableState.mem_insert {kind kind' : HandleKind} {payload : P} {t : Token}
    {p : Option P} :
    (t, kind', p) ∈ (s.insert kind payload).1.handles ↔ (t, kind', p) ∈ s.handles ∨
      ((s.insert kind payload).2 ≠ 0 ∧ t = (s.insert kind payload).2 ∧ kind' = kind ∧
        p = some payload) := by
  unfold TableState.insert
  by_cases hz : (s.table.insert kind (some payload)).2 = 0
  · simp only [hz, if_true, ne_eq, not_true_eq_false, false_and, or_false]
  · simp only [hz, if_false, List.mem_append, List.mem_singleton, Prod.mk.injEq, ne_eq,
      not_false_eq_true, true_and]

@[simp] theorem TableState.releases_insert (kind : HandleKind) (payload : P) :
    (s.insert kind payload).1.releases = s.releases := rfl

theorem TableInv.release_cases (h : TableInv s) (t : Token) (kind : HandleKind) :
    (s.release t kind = s ∧ ∀ p, (t, kind, p) ∉ s.handles) ∨
    ((∃ p, (t, kind, p) ∈ s.handles) ∧
      (s.release t kind).handles = s.handles.filter (·.1 ≠ t) ∧
      (s.release t kind).releases =
        Function.update s.releases (unpack_slot t) (s.releases (unpack_slot t) + 1)) := by
  cases hrel : s.table.release t kind with
  | error e =>
    refine .inl ⟨by simp only [TableState.release, hrel], ?_⟩
    intro p hm
    -- a handle in the list would have been released
    obtain ⟨i, sl, hi, hkind, -⟩ := (h.handles_iff t kind p).mp hm
    obtain ⟨hslot, hgen, hne⟩ := h.unpack hi
    rw [HandleTable.release, if_neg hne, hslot, hi.1] at hrel
    simp [hi.2.1, hgen, hkind] at hrel
  | ok tab =>
    obtain ⟨sl, hsl, hkind, -⟩ := release_ok hrel
    have hm := (h.handles_iff t kind sl.payload).mpr ⟨_, sl, hsl, hkind, rfl⟩
    have heq : s.release t kind = ⟨tab, s.handles.filter (·.1 ≠ t),
        Function.update s.releases (unpack_slot t) (s.releases (unpack_slot t) + 1)⟩ := by
      simp only [TableState.release, hrel]
    rw [heq]
    exact .inr ⟨⟨_, hm⟩, rfl, rfl⟩

theorem TableInv.mem_release (h : TableInv s) {t t' : Token} {kind kind' : HandleKind}
    {p : Option P} (hm : (t', kind', p) ∈ (s.release t kind).handles) :
    (t', kind', p) ∈ s.handles ∧ ¬ (t' = t ∧ kind' = kind) := by
  obtain ⟨heq, hno⟩ | ⟨-, hfilter, -⟩ := h.release_cases t kind
  · rw [heq] at hm
    refine ⟨hm, ?_⟩
    intro hsame
    exact hno p (hsame.1 ▸ hsame.2 ▸ hm)
  · rw [hfilter, List.mem_filter] at hm
    have hne : t' ≠ t := by simpa using hm.2
    exact ⟨hm.1, fun hsame => hne hsame.1⟩

theorem TableInv.mem_release_of_ne (h : TableInv s) {t t' : Token} {kind kind' : HandleKind}
    {p : Option P} (hm : (t', kind', p) ∈ s.handles) (hne : t' ≠ t) :
    (t', kind', p) ∈ (s.release t kind).handles := by
  obtain ⟨heq, -⟩ | ⟨-, hfilter, -⟩ := h.release_cases t kind
  · rw [heq]
    exact hm
  · rw [hfilter, List.mem_filter]
    exact ⟨hm, by simpa using hne⟩

/-- A token that no later insertion returns while slots are not released
    `2 ^ 32 - 1` times: null, or of a generation that its slot has left. -/
def TableState.Spent (s : TableState P) (t : Token) : Prop :=
  t = 0 ∨ unpack_generation t ≤ s.releases (unpack_slot t)

/-- The generations of the live tokens have not started over. -/
def TableState.FirstTurn (s : TableState P) : Prop :=
  ∀ t kind p, (t, kind, p) ∈ s.handles → s.releases (unpack_slot t) < 2 ^ 32 - 1

/-- The slot that the next insertion takes has not been through all its
    generations. A slot beyond the end has never been released. -/
def TableState.FreshSlot (s : TableState P) : Prop :=
  ∀ i ∈ s.table.free_list.getLast?, s.releases i < 2 ^ 32 - 1

instance (s : TableState P) : Decidable s.FreshSlot :=
  inferInstanceAs (Decidable (∀ i ∈ s.table.free_list.getLast?, s.releases i < 2 ^ 32 - 1))

theorem TableInv.spent_not_live (h : TableInv s) (hturn : s.FirstTurn) {t : Token}
    (hspent : s.Spent t) (kind : HandleKind) (p : Option P) : (t, kind, p) ∉ s.handles := by
  intro hm
  obtain hzero | hle := hspent
  · exact h.live_ne_zero hm hzero
  · have hgen := h.live_generation hm
    have hlt := hturn t kind p hm
    rw [Nat.mod_eq_of_lt hlt] at hgen
    omega

theorem TableState.releases_le (t : Token) (kind : HandleKind) (i : Nat) :
    s.releases i ≤ (s.release t kind).releases i :=
  releases_mono_step (TableState.next_release t kind) i

theorem TableInv.release_spent (h : TableInv s) {t : Token} {kind : HandleKind}
    {p : Option P} (hm : (t, kind, p) ∈ s.handles) : (s.release t kind).Spent t := by
  obtain ⟨-, hno⟩ | ⟨-, -, hcount⟩ := h.release_cases t kind
  · exact absurd hm (hno p)
  · have hgen := h.live_generation hm
    have hmod := Nat.mod_le (s.releases (unpack_slot t)) (2 ^ 32 - 1)
    refine .inr ?_
    rw [hcount, Function.update_self]
    omega

theorem TableInv.first_turn_release (h : TableInv s) (hturn : s.FirstTurn) (t : Token)
    (kind : HandleKind) : (s.release t kind).FirstTurn := by
  intro t' kind' p hm
  have hm₀ := (h.mem_release hm).1
  obtain ⟨heq, -⟩ | ⟨⟨p', hrel⟩, hfilter, hcount⟩ := h.release_cases t kind
  · rw [heq]
    exact hturn t' kind' p hm₀
  · have hne : t' ≠ t := by
      rw [hfilter, List.mem_filter] at hm
      simpa using hm.2
    have hslot : unpack_slot t' ≠ unpack_slot t := fun heq => hne (h.live_slot_inj hm₀ hrel heq)
    rw [hcount, Function.update_of_ne hslot]
    exact hturn t' kind' p hm₀

theorem TableInv.insert_slot (h : TableInv s) (hfresh : s.FreshSlot) (kind : HandleKind)
    (payload : P) (hne : (s.insert kind payload).2 ≠ 0) :
    s.releases (unpack_slot (s.insert kind payload).2) < 2 ^ 32 - 1 := by
  revert hne
  unfold TableState.insert HandleTable.insert
  cases hlast : s.table.free_list.getLast? with
  | none =>
    by_cases hfull : s.table.slots.length ≥ 2 ^ 32 - 1
    · simp only [if_pos hfull, ne_eq, not_true_eq_false, false_imp_iff]
    · intro _
      simp only [if_neg hfull]
      rw [unpack_slot_pack (by omega) (by norm_num [kMinGeneration]), h.unused _ le_rfl]
      norm_num
  | some i =>
    obtain ⟨sl, hsl, -⟩ := (h.free_iff i).mp (List.mem_of_getLast? hlast)
    intro _
    simp only [hsl]
    rw [unpack_slot_pack (h.index_lt hsl) (h.generation_lt hsl).2]
    exact hfresh i hlast

theorem TableInv.first_turn_insert (h : TableInv s) (hturn : s.FirstTurn)
    (hfresh : s.FreshSlot) (kind : HandleKind) (payload : P) :
    (s.insert kind payload).1.FirstTurn := by
  intro t kind' p hm
  obtain hold | ⟨hne, rfl, -, -⟩ := TableState.mem_insert.mp hm
  · exact hturn t kind' p hold
  · exact h.insert_slot hfresh kind payload hne

theorem TableInv.lookup_refused (h : TableInv s) {t : Token} {kind : HandleKind}
    (hno : ∀ p, (t, kind, p) ∉ s.handles) :
    ∃ e, (e = .ERR_NULL_HANDLE ∨ e = .ERR_INVALID_HANDLE) ∧ s.table.lookup t kind = .error e := by
  cases hl : s.table.lookup t kind with
  | ok p => exact absurd ((h.lookup_iff t kind p).mp hl) (hno p)
  | error e =>
    refine ⟨e, ?_, rfl⟩
    unfold lookup at hl
    split at hl
    · cases hl
      exact .inl rfl
    · split at hl
      · cases hl
        exact .inr rfl
      · split at hl
        · cases hl
          exact .inr rfl
        · split at hl
          · cases hl
            exact .inr rfl
          · cases hl

/-- `s'` is a later state of the table `s`, as far as tokens are concerned: a
    handle is still there or its token is spent. -/
structure TableState.Later (s s' : TableState P) : Prop where
  releases : ∀ i, s.releases i ≤ s'.releases i
  handles : ∀ t kind p, (t, kind, p) ∈ s.handles → (t, kind, p) ∈ s'.handles ∨ s'.Spent t
  first_turn : s.FirstTurn → s'.FirstTurn

theorem TableState.Later.refl (s : TableState P) : s.Later s :=
  ⟨fun _ => le_rfl, fun _ _ _ hm => .inl hm, id⟩

theorem TableState.Later.spent {s s' : TableState P} (h : s.Later s') {t : Token}
    (hspent : s.Spent t) : s'.Spent t := by
  obtain hzero | hle := hspent
  · exact .inl hzero
  · exact .inr (hle.trans (h.releases _))

theorem TableState.Later.trans {s s' s'' : TableState P} (h : s.Later s') (h' : s'.Later s'') :
    s.Later s'' := by
  constructor
  case releases => exact fun i => (h.releases i).trans (h'.releases i)
  case handles =>
    intro t kind p hm
    obtain hm | hspent := h.handles t kind p hm
    · exact h'.handles t kind p hm
    · exact .inr (h'.spent hspent)
  case first_turn => exact fun hturn => h'.first_turn (h.first_turn hturn)

theorem TableInv.later_release (h : TableInv s) (t : Token) (kind : HandleKind) :
    s.Later (s.release t kind) := by
  constructor
  case releases => exact TableState.releases_le t kind
  case handles =>
    intro t' kind' p hm
    by_cases hne : t' = t
    · -- it is the handle that is released, or the kind is wrong
      subst hne
      by_cases hkind : kind' = kind
      · subst hkind
        exact .inr (h.release_spent hm)
      · obtain ⟨heq, -⟩ | ⟨⟨p', hm'⟩, -⟩ := h.release_cases t' kind
        · refine .inl ?_
          rw [heq]
          exact hm
        · exact absurd (h.live_unique hm hm').1 hkind
    · exact .inl (h.mem_release_of_ne hm hne)
  case first_turn => exact fun hturn => h.first_turn_release hturn t kind

theorem TableInv.later_insert (h : TableInv s) (hfresh : s.FreshSlot) (kind : HandleKind)
    (payload : P) : s.Later (s.insert kind payload).1 := by
  constructor
  case releases => exact fun _ => le_rfl
  case handles => exact fun t kind' p hm => .inl (TableState.mem_insert.mpr (.inl hm))
  case first_turn => exact fun hturn => h.first_turn_insert hturn hfresh kind payload

end Component

end Amio
