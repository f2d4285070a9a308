import Helm.Conf.Config
import Helm.Framework.YamlNodes

/-! # CONF: resolution of dotted paths

  `Yaml_Tree::resolve` splits a path at its dots, copies the document and
  walks down the copy. The look-ups and assignments of the walk change the
  copy; the document must not change. `Value::operator[]` takes single steps
  in the document itself.

  Paths and keys are byte strings, and the library is a parameter.

  Main result: `path_resolution`.
-/

namespace Conf

open YamlNodes

/-! ## Section 1: Paths -/

/-- The byte of `'.'`. -/
def dot : UInt8 := 46

def is_digit (c : UInt8) : Bool := 48 ≤ c && c ≤ 57

/-- The number that digits stand for. -/
def digits_value (seg : Bytes) : Nat := seg.foldl (fun v c => 10 * v + (c.toNat - 48)) 0

/-- `std::from_chars` of digits into a `size_t`. -/
def index_of_digits (seg : Bytes) : Option Nat :=
  if digits_value seg < 2 ^ 64 then some (digits_value seg) else none

/-- **One step down**: the value of a key, or the item with an index. -/
def child : Tree → Bytes → Option Tree
  | .map entries, seg => Tree.find entries seg
  | .sequence items, seg => if seg.all is_digit then (index_of_digits seg).bind (items[·]?) else none
  | _, _ => none

/-- **The fold of the look-ups**. -/
def follow (root : Tree) (segments : List Bytes) : Option Tree := segments.foldlM child root

/-- Paths without segments, or with an empty one. -/
def Malformed (path : Bytes) : Prop := path = [] ∨ [] ∈ path.splitOn dot

/-! ## Section 2: The resolver -/

namespace Yaml_Tree

def text (s : String) : Bytes := s.toUTF8.toList

structure Conf_Error where
  code : Error_Code
  what : Bytes
  deriving DecidableEq

def key_not_found (dotted_path : Bytes) : Conf_Error :=
  { code := .Key_Not_Found, what := text "key not found: " ++ dotted_path }

/-- The loop that cuts off one segment in each round. -/
def split_loop (rest : Bytes) : List Bytes :=
  match rest.idxOf? dot with
  | none => [rest]
  | some d =>
    if h : d + 1 < rest.length then rest.take d :: split_loop (rest.drop (d + 1))
    -- a trailing dot
    else [rest.take d, []]
termination_by rest.length
decreasing_by
  rw [List.length_drop]
  omega

variable (lib : Library) (dotted_path : Bytes)

/-- One round of the walk: the next node, or the failure. -/
def walk_step (seg : Bytes) (current : lib.Node) (σ : lib.Store) :
    Except Conf_Error lib.Node × lib.Store :=
  match lib.type σ current with
  | .Map =>
    let (child, σ) := lib.at_key σ current seg
    if ¬ lib.is_defined σ child then (.error (key_not_found dotted_path), σ)
    else
      let (current, σ) := lib.assign σ current child
      (.ok current, σ)
  | .Sequence =>
    if ¬ seg.all is_digit then (.error (key_not_found dotted_path), σ)
    else
      match index_of_digits seg with
      | none => (.error (key_not_found dotted_path), σ)
      | some index =>
        if index ≥ lib.size σ current then (.error (key_not_found dotted_path), σ)
        else
          let (child, σ) := lib.at_index σ current index
          let (current, σ) := lib.assign σ current child
          (.ok current, σ)
  | _ => (.error (key_not_found dotted_path), σ)

def walk : List Bytes → lib.Node → lib.Store → Except Conf_Error lib.Node × lib.Store
  | [], current, σ => (.ok current, σ)
  | seg :: rest, current, σ =>
    match walk_step lib dotted_path seg current σ with
    | (.ok current, σ) => walk rest current σ
    | (.error e, σ) => (.error e, σ)

def resolve (root : lib.Node) (σ : lib.Store) : Except Conf_Error lib.Node × lib.Store :=
  if dotted_path = [] then (.error ⟨.Invalid_Arg, text "empty path"⟩, σ)
  else
    let segments := split_loop dotted_path
    if segments.any List.isEmpty then (.error ⟨.Invalid_Arg, text "empty path segment"⟩, σ)
    else
      let (current, σ) := lib.clone σ root
      walk lib dotted_path segments current σ

end Yaml_Tree

/-! ## Section 3: Values -/

namespace Value

variable (lib : Library) (σ : lib.Store)

/-- `operator[]` with an index. A value without a node is not defined. -/
def at_index (value : Option lib.Node) (index : Nat) : Option lib.Node :=
  match value with
  | none => none
  | some n =>
    if lib.type σ n ≠ .Sequence ∨ index ≥ lib.size σ n then none
    else some (lib.at_index_const σ n index)

/-- `operator[]` with a key. -/
def at_key (value : Option lib.Node) (key : Bytes) : Option lib.Node :=
  match value with
  | none => none
  | some n =>
    if lib.type σ n ≠ .Map then none
    else
      let child := lib.at_key_const σ n key
      if ¬ lib.is_defined σ child then none else some child

/-- A segment is an index in a sequence, and a key elsewhere. -/
def at_segment (value : Option lib.Node) (seg : Bytes) : Option lib.Node :=
  if value.any (lib.type σ · = .Sequence) then
    if seg.all is_digit then (index_of_digits seg).bind (at_index lib σ value) else none
  else at_key lib σ value seg

/-- The chain of `operator[]` over the segments. -/
def chain (root : lib.Node) (segments : List Bytes) : Option lib.Node :=
  segments.foldl (at_segment lib σ) (some root)

end Value

/-! ## Section 4: Splitting -/

theorem cut_at_dot {rest : Bytes} {d : Nat} (h : rest.idxOf? dot = some d) :
    rest = rest.take d ++ dot :: rest.drop (d + 1) ∧ dot ∉ rest.take d ∧ d < rest.length := by
  unfold List.idxOf? at h
  obtain ⟨hd, hdot, hbefore⟩ := List.findIdx?_eq_some_iff_getElem.mp h
  have hget : rest[d] = dot := by simpa using hdot
  refine ⟨?_, ?_, hd⟩
  · rw [← hget, List.getElem_cons_drop, List.take_append_drop]
  · intro hmem
    obtain ⟨j, hj, hjdot⟩ := List.getElem_of_mem hmem
    have hjd : j < d := by
      rw [List.length_take] at hj
      omega
    apply hbefore j hjd
    rw [List.getElem_take] at hjdot
    rw [hjdot]
    exact beq_self_eq_true dot

/-- **The segments** are what lies between the dots. -/
theorem split_loop_eq (rest : Bytes) : Yaml_Tree.split_loop rest = rest.splitOn dot := by
  induction rest using Yaml_Tree.split_loop.induct with
  | case1 rest hnone =>
    have hnot : dot ∉ rest := by
      intro hmem
      exact absurd hnone (by simp [hmem])
    rw [Yaml_Tree.split_loop, hnone, List.splitOn_eq_singleton hnot]
  | case2 rest d hsome hmore ih =>
    obtain ⟨hcut, hnot, -⟩ := cut_at_dot hsome
    rw [Yaml_Tree.split_loop, hsome]
    dsimp only
    rw [dif_pos hmore, ih]
    conv_rhs => rw [hcut, List.splitOn_append_cons_self_of_not_mem hnot]
  | case3 rest d hsome hlast =>
    obtain ⟨hcut, hnot, hd⟩ := cut_at_dot hsome
    have hempty : rest.drop (d + 1) = [] := List.drop_eq_nil_of_le (by omega)
    rw [Yaml_Tree.split_loop, hsome]
    dsimp only
    rw [dif_neg hlast]
    conv_rhs => rw [hcut, List.splitOn_append_cons_self_of_not_mem hnot, hempty, List.splitOn_nil]

/-! ## Section 5: The walk -/

section
variable {lib : Library} (sem : Semantics lib) (dotted_path : Bytes) {σ : lib.Store}
  {current : lib.Node} {t : Tree}

/-- What is apart from a node keeps its tree and stays apart from another one. -/
def Kept (σ : lib.Store) (current : lib.Node) (σ' : lib.Store) (next : lib.Node) : Prop :=
  ∀ m s, sem.apart σ current m → sem.tree σ m = some s →
    sem.tree σ' m = some s ∧ sem.apart σ' next m

/-- **One round** goes one step down, and leaves alone what is apart. -/
theorem walk_step_spec (ht : sem.tree σ current = some t) (seg : Bytes) :
    (∃ u next σ', child t seg = some u ∧
      Yaml_Tree.walk_step lib dotted_path seg current σ = (.ok next, σ') ∧
      sem.tree σ' next = some u ∧ Kept sem σ current σ' next) ∨
    (∃ σ', child t seg = none ∧ Yaml_Tree.walk_step lib dotted_path seg current σ =
        (.error (Yaml_Tree.key_not_found dotted_path), σ') ∧ Kept sem σ current σ' current) := by
  unfold Yaml_Tree.walk_step
  rw [sem.type_eq ht]
  cases t with
  | null => exact .inr ⟨σ, rfl, rfl, fun m s hapart hm => ⟨hm, hapart⟩⟩
  | scalar text => exact .inr ⟨σ, rfl, rfl, fun m s hapart hm => ⟨hm, hapart⟩⟩
  | map entries =>
    show (∃ u next σ', Tree.find entries seg = some u ∧ _) ∨ _
    obtain ⟨c, σ₁, hat⟩ : ∃ c σ₁, lib.at_key σ current seg = (c, σ₁) := ⟨_, _, rfl⟩
    have htree := sem.at_key_tree ht hat
    simp only [Tree.kind, hat, sem.is_defined_eq, htree]
    cases hfind : Tree.find entries seg with
    | none =>
      right
      refine ⟨σ₁, hfind, if_pos (by simp), ?_⟩
      intro m s hapart hm
      obtain ⟨hkept, hapart', -⟩ := sem.at_key_keeps ht hat hapart hm
      exact ⟨hkept, hapart'⟩
    | some u =>
      left
      obtain ⟨next, σ₂, hassign⟩ : ∃ next σ₂, lib.assign σ₁ current c = (next, σ₂) := ⟨_, _, rfl⟩
      have hbelow := sem.at_key_below ht hat (by rw [htree, hfind]; rfl)
      refine ⟨u, next, σ₂, rfl, ?_, sem.assign_tree hbelow (htree.trans hfind) hassign, ?_⟩
      · rw [if_neg (by simp)]
        show (Except.ok (lib.assign σ₁ current c).1, (lib.assign σ₁ current c).2) = _
        rw [hassign]
      · intro m s hapart hm
        obtain ⟨hkept, hapart', hchild⟩ := sem.at_key_keeps ht hat hapart hm
        exact sem.assign_keeps hbelow hassign hapart' hchild hkept
  | sequence items =>
    have hstay : Kept sem σ current σ current := fun m s hapart hm => ⟨hm, hapart⟩
    simp only [Tree.kind, child, sem.size_eq ht]
    by_cases hdigits : seg.all is_digit
    · rw [if_pos hdigits, if_neg (not_not.mpr hdigits)]
      cases hindex : index_of_digits seg with
      | none => exact .inr ⟨σ, rfl, rfl, hstay⟩
      | some index =>
        simp only [Option.bind_some]
        rcases Nat.lt_or_ge index items.length with hlt | hge
        · left
          obtain ⟨c, σ₁, hat⟩ : ∃ c σ₁, lib.at_index σ current index = (c, σ₁) := ⟨_, _, rfl⟩
          obtain ⟨next, σ₂, hassign⟩ : ∃ next σ₂, lib.assign σ₁ current c = (next, σ₂) :=
            ⟨_, _, rfl⟩
          obtain ⟨htree, hbelow⟩ := sem.at_index_tree ht hlt hat
          rw [List.getElem?_eq_getElem hlt] at htree
          refine ⟨items[index], next, σ₂, List.getElem?_eq_getElem hlt, ?_,
            sem.assign_tree hbelow htree hassign, ?_⟩
          · rw [if_neg (by omega)]
            show (Except.ok (lib.assign (lib.at_index σ current index).2 current
                (lib.at_index σ current index).1).1,
              (lib.assign (lib.at_index σ current index).2 current
                (lib.at_index σ current index).1).2) = _
            rw [hat, hassign]
          · intro m s hapart hm
            obtain ⟨hkept, hapart', hchild⟩ := sem.at_index_keeps ht hlt hat hapart hm
            exact sem.assign_keeps hbelow hassign hapart' hchild hkept
        · right
          exact ⟨σ, List.getElem?_eq_none hge, if_pos hge, hstay⟩
    · rw [if_neg hdigits, if_pos hdigits]
      exact .inr ⟨σ, rfl, rfl, hstay⟩

/-- **The walk** follows the segments. -/
theorem walk_spec (ht : sem.tree σ current = some t) (segments : List Bytes) :
    (∃ u next σ', follow t segments = some u ∧
      Yaml_Tree.walk lib dotted_path segments current σ = (.ok next, σ') ∧
      sem.tree σ' next = some u ∧
      ∀ m s, sem.apart σ current m → sem.tree σ m = some s → sem.tree σ' m = some s) ∨
    (∃ σ', follow t segments = none ∧ Yaml_Tree.walk lib dotted_path segments current σ =
        (.error (Yaml_Tree.key_not_found dotted_path), σ') ∧
      ∀ m s, sem.apart σ current m → sem.tree σ m = some s → sem.tree σ' m = some s) := by
  induction segments generalizing σ current t with
  | nil => exact .inl ⟨t, current, σ, rfl, rfl, ht, fun m s _ hm => hm⟩
  | cons seg rest ih =>
    have hfollow : follow t (seg :: rest) = (child t seg).bind fun u => follow u rest := rfl
    rw [hfollow]
    unfold Yaml_Tree.walk
    rcases walk_step_spec sem dotted_path ht seg with
      ⟨u, next, σ₁, hchild, hstep, hu, hkept⟩ | ⟨σ₁, hchild, hstep, hkept⟩
    · rw [hchild, hstep]
      dsimp only [Option.bind_some]
      rcases ih hu with ⟨v, last, σ₂, hrest, hwalk, hv, hkept'⟩ | ⟨σ₂, hrest, hwalk, hkept'⟩
      · left
        refine ⟨v, last, σ₂, hrest, hwalk, hv, ?_⟩
        intro m s hapart hm
        obtain ⟨hm', hapart'⟩ := hkept m s hapart hm
        exact hkept' m s hapart' hm'
      · right
        refine ⟨σ₂, hrest, hwalk, ?_⟩
        intro m s hapart hm
        obtain ⟨hm', hapart'⟩ := hkept m s hapart hm
        exact hkept' m s hapart' hm'
    · right
      rw [hchild, hstep]
      exact ⟨σ₁, rfl, rfl, fun m s hapart hm => (hkept m s hapart hm).1⟩

end

/-! ## Section 6: Resolution -/

theorem malformed_iff (path : Bytes) : Malformed path ↔ [] ∈ path.splitOn dot := by
  unfold Malformed
  constructor
  · intro h
    rcases h with rfl | hsegment
    · rw [List.splitOn_nil]
      exact List.mem_cons_self
    · exact hsegment
  · exact Or.inr

theorem malformed_dot (p q : Bytes) : Malformed (p ++ dot :: q) ↔ Malformed p ∨ Malformed q := by
  rw [malformed_iff, malformed_iff, malformed_iff, List.splitOn_append_cons_self, List.mem_append]

theorem follow_dot (t : Tree) (p q : Bytes) :
    follow t ((p ++ dot :: q).splitOn dot) =
      (follow t (p.splitOn dot)).bind fun u => follow u (q.splitOn dot) := by
  rw [List.splitOn_append_cons_self]
  exact List.foldlM_append

section
variable {lib : Library} (sem : Semantics lib) {σ : lib.Store} {root n : lib.Node} {t : Tree}

/-- **The resolver**: a malformed path, a node, or no node. -/
theorem resolve_spec (ht : sem.tree σ root = some t) (path : Bytes) :
    ∃ result σ', Yaml_Tree.resolve lib path root σ = (result, σ') ∧
      (∀ m s, sem.tree σ m = some s → sem.tree σ' m = some s) ∧
      ((Malformed path ∧ ∃ what, result = .error ⟨.Invalid_Arg, what⟩) ∨
        (¬ Malformed path ∧ ∃ u n, follow t (path.splitOn dot) = some u ∧ result = .ok n ∧
          sem.tree σ' n = some u) ∨
        (¬ Malformed path ∧ follow t (path.splitOn dot) = none ∧
          result = .error (Yaml_Tree.key_not_found path))) := by
  obtain ⟨copy, σ₁, hclone⟩ : ∃ copy σ₁, lib.clone σ root = (copy, σ₁) := ⟨_, _, rfl⟩
  unfold Yaml_Tree.resolve
  simp only [hclone, split_loop_eq]
  by_cases hempty : path = []
  · rw [if_pos hempty]
    exact ⟨_, σ, rfl, fun _ _ hm => hm, .inl ⟨.inl hempty, _, rfl⟩⟩
  · rw [if_neg hempty]
    by_cases hsegment : [] ∈ path.splitOn dot
    · rw [if_pos (List.any_eq_true.mpr ⟨[], hsegment, rfl⟩)]
      exact ⟨_, σ, rfl, fun _ _ hm => hm, .inl ⟨.inr hsegment, _, rfl⟩⟩
    · have hfine : ¬ Malformed path := by
        rw [malformed_iff]
        exact hsegment
      have hnone : ¬ (path.splitOn dot).any List.isEmpty = true := by
        intro hany
        obtain ⟨seg, hmem, hseg⟩ := List.any_eq_true.mp hany
        rw [List.isEmpty_iff] at hseg
        exact hsegment (hseg ▸ hmem)
      rw [if_neg hnone]
      have hcopy : sem.tree σ₁ copy = some t := (sem.clone_tree hclone).trans ht
      -- everything older than the copy is apart from it
      rcases walk_spec sem path hcopy (path.splitOn dot) with
        ⟨u, n, σ₂, hfollow, hwalk, hu, hkept⟩ | ⟨σ₂, hfollow, hwalk, hkept⟩
      · refine ⟨.ok n, σ₂, hwalk, ?_, .inr (.inl ⟨hfine, u, n, hfollow, rfl, hu⟩)⟩
        intro m s hm
        obtain ⟨hm', hapart⟩ := sem.clone_keeps hclone hm
        exact hkept m s hapart hm'
      · refine ⟨_, σ₂, hwalk, ?_, .inr (.inr ⟨hfine, hfollow, rfl⟩)⟩
        intro m s hm
        obtain ⟨hm', hapart⟩ := sem.clone_keeps hclone hm
        exact hkept m s hapart hm'

/-- What a caller learns: a tree, or a code. -/
def found (sem : Semantics lib) : Except Yaml_Tree.Conf_Error lib.Node × lib.Store →
    Except Error_Code (Option Tree)
  | (.ok n, σ) => .ok (sem.tree σ n)
  | (.error e, _) => .error e.code

theorem found_of_malformed (ht : sem.tree σ root = some t) {path : Bytes} (h : Malformed path) :
    found sem (Yaml_Tree.resolve lib path root σ) = .error .Invalid_Arg := by
  obtain ⟨result, σ', hresolve, -, ⟨-, what, rfl⟩ | ⟨hfine, -⟩ | ⟨hfine, -⟩⟩ :=
    resolve_spec sem ht path
  · rw [hresolve]
    rfl
  · exact absurd h hfine
  · exact absurd h hfine

theorem found_of_fine (ht : sem.tree σ root = some t) {path : Bytes} (h : ¬ Malformed path) :
    found sem (Yaml_Tree.resolve lib path root σ) =
      match follow t (path.splitOn dot) with
      | some u => .ok (some u)
      | none => .error .Key_Not_Found := by
  obtain ⟨result, σ', hresolve, -, ⟨hmal, -⟩ | ⟨-, u, n, hfollow, rfl, hu⟩ | ⟨-, hfollow, rfl⟩⟩ :=
    resolve_spec sem ht path
  · exact absurd hmal h
  · rw [hresolve, hfollow]
    exact congrArg Except.ok hu
  · rw [hresolve, hfollow]
    rfl

/-- **Below the node of a path** the rest of a longer path is resolved. -/
theorem found_dot (ht : sem.tree σ root = some t) {p : Bytes} {σ' : lib.Store}
    (hp : Yaml_Tree.resolve lib p root σ = (.ok n, σ')) (q : Bytes) :
    found sem (Yaml_Tree.resolve lib (p ++ dot :: q) root σ) =
      found sem (Yaml_Tree.resolve lib q n σ') := by
  obtain ⟨result, σ₁, hresolve, -, hcases⟩ := resolve_spec sem ht p
  rw [hp] at hresolve
  obtain ⟨rfl, rfl⟩ := Prod.mk.inj hresolve
  rcases hcases with ⟨-, what, herror⟩ | ⟨hfine, u, n', hfollow, hok, hu⟩ | ⟨-, -, herror⟩
  · cases herror
  · cases hok
    by_cases hq : Malformed q
    · rw [found_of_malformed sem ht ((malformed_dot p q).mpr (.inr hq)),
        found_of_malformed sem hu hq]
    · have hpq : ¬ Malformed (p ++ dot :: q) := by
        rw [malformed_dot]
        exact not_or.mpr ⟨hfine, hq⟩
      rw [found_of_fine sem ht hpq, found_of_fine sem hu hq, follow_dot, hfollow, Option.bind_some]
  · cases herror

/-! ## Section 7: Values -/

/-- **One `operator[]`** goes one step down. -/
theorem at_segment_spec (ht : sem.tree σ n = some t) (seg : Bytes) :
    (∃ u c, child t seg = some u ∧ Value.at_segment lib σ (some n) seg = some c ∧
      sem.tree σ c = some u) ∨
    (child t seg = none ∧ Value.at_segment lib σ (some n) seg = none) := by
  have hkey : t.kind ≠ .Sequence →
      Value.at_segment lib σ (some n) seg = Value.at_key lib σ (some n) seg := by
    intro hkind
    unfold Value.at_segment
    rw [Option.any_some, sem.type_eq ht, if_neg (by simpa using hkind)]
  have hscalar : t.kind ≠ .Sequence → t.kind ≠ .Map →
      Value.at_segment lib σ (some n) seg = none := by
    intro hkind hmap
    rw [hkey hkind]
    unfold Value.at_key
    dsimp only
    rw [sem.type_eq ht, if_pos hmap]
  cases t with
  | null => exact .inr ⟨rfl, hscalar (by simp [Tree.kind]) (by simp [Tree.kind])⟩
  | scalar text => exact .inr ⟨rfl, hscalar (by simp [Tree.kind]) (by simp [Tree.kind])⟩
  | map entries =>
    rw [hkey (by simp [Tree.kind])]
    have htree : sem.tree σ (lib.at_key_const σ n seg) = Tree.find entries seg :=
      sem.at_key_const_tree ht
    unfold Value.at_key
    dsimp only
    rw [sem.type_eq ht, if_neg (by simp [Tree.kind]), sem.is_defined_eq, htree]
    show (∃ u c, Tree.find entries seg = some u ∧ _) ∨ (Tree.find entries seg = none ∧ _)
    cases hfind : Tree.find entries seg with
    | none => exact .inr ⟨rfl, if_pos (by simp)⟩
    | some u => exact .inl ⟨u, _, rfl, if_neg (by simp), htree.trans hfind⟩
  | sequence items =>
    have hchild : child (.sequence items) seg =
        if seg.all is_digit then (index_of_digits seg).bind (items[·]?) else none := rfl
    unfold Value.at_segment Value.at_index
    have hkind : decide ((Tree.sequence items).kind = .Sequence) = true := rfl
    rw [hchild, Option.any_some, sem.type_eq ht, if_pos hkind]
    by_cases hdigits : seg.all is_digit
    · rw [if_pos hdigits, if_pos hdigits]
      cases hindex : index_of_digits seg with
      | none => exact .inr ⟨rfl, rfl⟩
      | some index =>
        simp only [Option.bind_some, sem.size_eq ht]
        rcases Nat.lt_or_ge index items.length with hlt | hge
        · left
          refine ⟨items[index], _, List.getElem?_eq_getElem hlt, if_neg ?_,
            (sem.at_index_const_tree ht hlt).trans (List.getElem?_eq_getElem hlt)⟩
          rw [sem.type_eq ht, not_or]
          exact ⟨not_not.mpr rfl, not_le.mpr hlt⟩
        · exact .inr ⟨List.getElem?_eq_none hge, if_pos (.inr hge)⟩
    · rw [if_neg hdigits, if_neg hdigits]
      exact .inr ⟨rfl, rfl⟩

theorem chain_none (segments : List Bytes) :
    segments.foldl (Value.at_segment lib σ) none = none := by
  induction segments with
  | nil => rfl
  | cons seg rest ih => exact ih

theorem chain_spec (ht : sem.tree σ n = some t) (segments : List Bytes) :
    (Value.chain lib σ n segments).bind (sem.tree σ) = follow t segments := by
  unfold Value.chain
  induction segments generalizing n t with
  | nil => exact ht
  | cons seg rest ih =>
    have hfollow : follow t (seg :: rest) = (child t seg).bind fun u => follow u rest := rfl
    rw [hfollow, List.foldl_cons]
    rcases at_segment_spec sem ht seg with ⟨u, c, hchild, hvalue, hu⟩ | ⟨hchild, hvalue⟩
    · rw [hchild, hvalue]
      exact ih hu
    · rw [hchild, hvalue, chain_none]
      rfl

/-- **Path resolution.** A malformed path is an invalid argument. Any other one
    leads to the node that the fold of the look-ups leads to, or no key is
    found. The chain of values leads to the same node, and so does the second
    part of a path below the node of its first part. Nothing that was in the
    store is changed. -/
theorem path_resolution (ht : sem.tree σ root = some t) (path : Bytes) :
    ∃ result σ', Yaml_Tree.resolve lib path root σ = (result, σ') ∧
      ((∃ what, result = .error ⟨.Invalid_Arg, what⟩) ↔ Malformed path) ∧
      (¬ Malformed path → match follow t (path.splitOn dot) with
        | some u => ∃ n, result = .ok n ∧ sem.tree σ' n = some u
        | none => result = .error (Yaml_Tree.key_not_found path)) ∧
      (Value.chain lib σ root (path.splitOn dot)).bind (sem.tree σ) =
        follow t (path.splitOn dot) ∧
      (∀ n q, result = .ok n → found sem (Yaml_Tree.resolve lib (path ++ dot :: q) root σ) =
        found sem (Yaml_Tree.resolve lib q n σ')) ∧
      ∀ m s, sem.tree σ m = some s → sem.tree σ' m = some s := by
  obtain ⟨result, σ', hresolve, hkept, hcases⟩ := resolve_spec sem ht path
  have hchain := chain_spec sem ht (path.splitOn dot)
  refine ⟨result, σ', hresolve, ?_, ?_, hchain, ?_, hkept⟩
  · rcases hcases with ⟨hmal, what, rfl⟩ | ⟨hfine, u, n, -, rfl, -⟩ | ⟨hfine, -, rfl⟩
    · exact ⟨fun _ => hmal, fun _ => ⟨what, rfl⟩⟩
    · exact ⟨fun ⟨_, herror⟩ => (by cases herror), fun hmal => absurd hmal hfine⟩
    · exact ⟨fun ⟨_, herror⟩ => (by cases herror), fun hmal => absurd hmal hfine⟩
  · intro hfine
    rcases hcases with ⟨hmal, -⟩ | ⟨-, u, n, hfollow, rfl, hu⟩ | ⟨-, hfollow, rfl⟩
    · exact absurd hmal hfine
    · rw [hfollow]
      exact ⟨n, rfl, hu⟩
    · rw [hfollow]
  · intro n q hok
    exact found_dot sem ht (hok ▸ hresolve) q

end

/-- The document `a: [x, {b: y}]`. -/
def nested : Tree :=
  .map [(.scalar [97], .sequence [.scalar [120], .map [(.scalar [98], .scalar [121])]])]

theorem path_resolution_nested : ∃ n σ',
    Yaml_Tree.resolve copies [97, 46, 49, 46, 98] (some (0, [])) ⟨[nested], []⟩ = (.ok n, σ') ∧
      copies_semantics.tree σ' n = some (.scalar [121]) ∧
      copies_semantics.tree σ' (some (0, [])) = some nested := by
  obtain ⟨result, σ', hresolve, -, hfound, -, -, hkept⟩ :=
    @path_resolution copies copies_semantics ⟨[nested], []⟩ (some (0, [])) nested rfl
      [97, 46, 49, 46, 98]
  obtain ⟨n, rfl, hn⟩ := hfound (by rw [malformed_iff]; decide)
  exact ⟨n, σ', hresolve, hn, hkept _ _ rfl⟩

end Conf
