import Helm.Framework.OrdMap
import Helm.Framework.System

/-! # The Fortran bridge of AXIS

  Fortran code holds meshes and interpolation matrices by integer tokens. One
  registry maps every token to an object without its type, and each entry point
  casts what it finds.

  A call gets what the library answers as an argument. A call that uses an
  object as one of the other kind is undefined behaviour and has no reply, and
  so has a call for which there is no token left.

  Main results:
  - `call_effect`: what one call does to the registry
  - `bridge_keeps_promise_iff`: which calls keep the promise of the bridge, in
    every state of every run
-/

namespace Axis.Fortran

open LTS

/-! ## Section 1: Handle_Registry -/

/-- `std::numeric_limits<int>::max()` -/
def int_max : Int := 2147483647

variable {Mesh Matrix : Type}

inductive Kind
  | mesh
  | matrix
  deriving DecidableEq

inductive Object (Mesh Matrix : Type)
  | mesh (m : Mesh)
  | matrix (w : Matrix)

def Object.kind : Object Mesh Matrix → Kind
  | .mesh _ => .mesh
  | .matrix _ => .matrix

structure HandleRegistry (Mesh Matrix : Type) where
  handles : OrdMap Int (Object Mesh Matrix)
  next_token : Int

namespace HandleRegistry

def make : HandleRegistry Mesh Matrix := ⟨.empty, 1⟩

/-- There is no result when `next_token_++` overflows. -/
def register_handle (reg : HandleRegistry Mesh Matrix) (obj : Object Mesh Matrix) :
    Option (Int × HandleRegistry Mesh Matrix) :=
  if reg.next_token = int_max then none
  else
    let token := reg.next_token
    -- `emplace` leaves a token that is registered alone
    let handles := match reg.handles.lookup token with
      | some _ => reg.handles
      | none => reg.handles.insert token obj
    some (token, { handles, next_token := token + 1 })

def lookup (reg : HandleRegistry Mesh Matrix) (token : Int) : Option (Object Mesh Matrix) :=
  reg.handles.lookup token

def release (reg : HandleRegistry Mesh Matrix) (token : Int) : HandleRegistry Mesh Matrix :=
  { reg with handles := reg.handles.erase token }

end HandleRegistry

/-! ## Section 2: The entry points -/

def AXIS_SUCCESS : Int := 0
def AXIS_ERROR : Int := -1

/-- The code that is returned, the tokens that are stored through the output
    pointers, and the registry afterwards. -/
structure Reply (Mesh Matrix : Type) where
  code : Int
  outputs : List Int
  registry : HandleRegistry Mesh Matrix

inductive InterpolationMethod
  | Bilinear | NearestNeighbor | Conservative1stOrder
  deriving DecidableEq

/-- The `switch` over the method code -/
def method_of : Int → Option InterpolationMethod
  | 0 => some .Bilinear
  | 1 => some .NearestNeighbor
  | 2 => some .Conservative1stOrder
  | _ => none

/-- `std::static_pointer_cast<HostMesh>` and a use of the result -/
def as_mesh : Object Mesh Matrix → Option Mesh
  | .mesh m => some m
  | .matrix _ => none

/-- `std::static_pointer_cast<HostMatrix>` and a use of the result -/
def as_matrix : Object Mesh Matrix → Option Matrix
  | .mesh _ => none
  | .matrix w => some w

section EntryPoints

variable (reg : HandleRegistry Mesh Matrix)

def failed : Reply Mesh Matrix := ⟨AXIS_ERROR, [], reg⟩

def axis_init (answer : Option Unit) : Option (Reply Mesh Matrix) :=
  match answer with
  | none => some (failed reg)
  | some () => some ⟨AXIS_SUCCESS, [], reg⟩

def axis_mesh_from_named (answer : Option Mesh) : Option (Reply Mesh Matrix) :=
  match answer with
  | none => some (failed reg)
  | some mesh => do
    let (token, reg) ← reg.register_handle (.mesh mesh)
    some ⟨AXIS_SUCCESS, [token], reg⟩

def axis_mesh_from_descriptor (answer : Option Mesh) : Option (Reply Mesh Matrix) :=
  match answer with
  | none => some (failed reg)
  | some mesh => do
    let (token, reg) ← reg.register_handle (.mesh mesh)
    some ⟨AXIS_SUCCESS, [token], reg⟩

/-- The beginning of both calls that make weights: the meshes and the method. -/
def with_meshes (src_handle dst_handle method : Int)
    (body : Mesh → Mesh → InterpolationMethod → Option (Reply Mesh Matrix)) :
    Option (Reply Mesh Matrix) :=
  match reg.lookup src_handle, reg.lookup dst_handle with
  | some src_ptr, some dst_ptr =>
    match method_of method with
    | none => some (failed reg)
    | some method => do
      let src_mesh ← as_mesh src_ptr
      let dst_mesh ← as_mesh dst_ptr
      body src_mesh dst_mesh method
  | _, _ => some (failed reg)

/-- `answer` is what `WeightGenerator::generate` makes of the two meshes. -/
def axis_generate_weights (src_handle dst_handle method : Int)
    (answer : Mesh → Mesh → InterpolationMethod → Option Matrix) : Option (Reply Mesh Matrix) :=
  with_meshes reg src_handle dst_handle method fun src_mesh dst_mesh method =>
    match answer src_mesh dst_mesh method with
    | none => some (failed reg)
    | some matrix => do
      let (token, reg) ← reg.register_handle (.matrix matrix)
      some ⟨AXIS_SUCCESS, [token], reg⟩

/-- `answer` is what `VectorWeightGenerator::generate` makes of them. -/
def axis_generate_vector_weights (src_handle dst_handle method : Int)
    (answer : Mesh → Mesh → InterpolationMethod → Option (Matrix × Matrix)) :
    Option (Reply Mesh Matrix) :=
  with_meshes reg src_handle dst_handle method fun src_mesh dst_mesh method =>
    match answer src_mesh dst_mesh method with
    | none => some (failed reg)
    | some W => do
      let (token_u, reg) ← reg.register_handle (.matrix W.1)
      let (token_v, reg) ← reg.register_handle (.matrix W.2)
      some ⟨AXIS_SUCCESS, [token_u, token_v], reg⟩

def axis_apply (matrix_handle : Int) (answer : Matrix → Option Unit) : Option (Reply Mesh Matrix) :=
  match reg.lookup matrix_handle with
  | none => some (failed reg)
  | some mat_ptr => do
    let matrix ← as_matrix mat_ptr
    match answer matrix with
    | none => some (failed reg)
    | some () => some ⟨AXIS_SUCCESS, [], reg⟩

def axis_destroy_mesh (handle : Int) : Option (Reply Mesh Matrix) :=
  some ⟨AXIS_SUCCESS, [], reg.release handle⟩

def axis_destroy_matrix (handle : Int) : Option (Reply Mesh Matrix) :=
  some ⟨AXIS_SUCCESS, [], reg.release handle⟩

end EntryPoints

/-- A call through the bridge, with the answers it gets. -/
inductive Call (Mesh Matrix : Type)
  | axis_init (answer : Option Unit)
  | axis_mesh_from_named (answer : Option Mesh)
  | axis_mesh_from_descriptor (answer : Option Mesh)
  | axis_generate_weights (src_handle dst_handle method : Int)
      (answer : Mesh → Mesh → InterpolationMethod → Option Matrix)
  | axis_generate_vector_weights (src_handle dst_handle method : Int)
      (answer : Mesh → Mesh → InterpolationMethod → Option (Matrix × Matrix))
  | axis_apply (matrix_handle : Int) (answer : Matrix → Option Unit)
  | axis_destroy_mesh (handle : Int)
  | axis_destroy_matrix (handle : Int)

/-- The reply to a call, or `none` when its behaviour is undefined. -/
def Call.run (reg : HandleRegistry Mesh Matrix) : Call Mesh Matrix → Option (Reply Mesh Matrix)
  | .axis_init answer => Fortran.axis_init reg answer
  | .axis_mesh_from_named answer => Fortran.axis_mesh_from_named reg answer
  | .axis_mesh_from_descriptor answer => Fortran.axis_mesh_from_descriptor reg answer
  | .axis_generate_weights src_handle dst_handle method answer =>
      Fortran.axis_generate_weights reg src_handle dst_handle method answer
  | .axis_generate_vector_weights src_handle dst_handle method answer =>
      Fortran.axis_generate_vector_weights reg src_handle dst_handle method answer
  | .axis_apply matrix_handle answer => Fortran.axis_apply reg matrix_handle answer
  | .axis_destroy_mesh handle => Fortran.axis_destroy_mesh reg handle
  | .axis_destroy_matrix handle => Fortran.axis_destroy_matrix reg handle

def HandleRegistry.next (reg : HandleRegistry Mesh Matrix) (c : Call Mesh Matrix) :
    Option (HandleRegistry Mesh Matrix) :=
  (c.run reg).map (·.registry)

/-- The bridge under every sequence of calls. -/
def fortranSystem : System (HandleRegistry Mesh Matrix) (Call Mesh Matrix) :=
  .ofNext (· = HandleRegistry.make) HandleRegistry.next

/-! ## Section 3: What the bridge promises -/

namespace HandleRegistry

variable (reg : HandleRegistry Mesh Matrix)

/-- The token is not registered: it never was, or it has been released. -/
def Missing (token : Int) : Prop := (reg.lookup token).isNone

/-- The token stands for a live object of this kind. -/
def Holds (token : Int) (kind : Kind) : Prop := (reg.lookup token).map Object.kind = some kind

/-- There are tokens left to give out. -/
def HasTokens (count : Int) : Prop := reg.next_token + count ≤ int_max

instance (token : Int) : Decidable (reg.Missing token) := inferInstanceAs (Decidable (_ = _))

instance (token : Int) (kind : Kind) : Decidable (reg.Holds token kind) :=
  inferInstanceAs (Decidable (_ = _))

instance (count : Int) : Decidable (reg.HasTokens count) := inferInstanceAs (Decidable (_ ≤ _))

end HandleRegistry

namespace Call

/-- The tokens that a call takes, each with the kind of object that it works on. -/
def tokens : Call Mesh Matrix → List (Int × Kind)
  | .axis_init _ => []
  | .axis_mesh_from_named _ => []
  | .axis_mesh_from_descriptor _ => []
  | .axis_generate_weights src_handle dst_handle _ _ => [(src_handle, .mesh), (dst_handle, .mesh)]
  | .axis_generate_vector_weights src_handle dst_handle _ _ =>
      [(src_handle, .mesh), (dst_handle, .mesh)]
  | .axis_apply matrix_handle _ => [(matrix_handle, .matrix)]
  | .axis_destroy_mesh handle => [(handle, .mesh)]
  | .axis_destroy_matrix handle => [(handle, .matrix)]

/-- The kind of the objects that a call makes. -/
def makes : Call Mesh Matrix → Option Kind
  | .axis_mesh_from_named _ => some .mesh
  | .axis_mesh_from_descriptor _ => some .mesh
  | .axis_generate_weights _ _ _ _ => some .matrix
  | .axis_generate_vector_weights _ _ _ _ => some .matrix
  | _ => none

/-- The token that a call is to release. -/
def releases : Call Mesh Matrix → Option Int
  | .axis_destroy_mesh handle => some handle
  | .axis_destroy_matrix handle => some handle
  | _ => none

end Call

/-- What the bridge promises for a call. The call uses objects as what they are. A
    token that does not stand for an object of the right kind gives an error, and
    nothing changes. New tokens are different, were not registered and stand for
    objects of the right kind. Every other token keeps its object, but for one that
    is to be released and stands for an object of the kind of the call. -/
def Promise (reg : HandleRegistry Mesh Matrix) (c : Call Mesh Matrix) : Prop :=
  ∃ r, c.run reg = some r ∧
    ((∃ x ∈ c.tokens, ¬ reg.Holds x.1 x.2) →
      r.code = AXIS_ERROR ∧ r.registry = reg ∧ r.outputs = []) ∧
    r.outputs.Nodup ∧
    (∀ token ∈ r.outputs, reg.Missing token ∧
      ∃ kind, c.makes = some kind ∧ r.registry.Holds token kind) ∧
    (∀ token, token ∉ r.outputs → r.registry.lookup token = reg.lookup token ∨
      c.releases = some token ∧ r.registry.Missing token ∧ ∃ kind, (token, kind) ∈ c.tokens ∧
        reg.Holds token kind)

/-- The calls that keep the promise. -/
def Sound (reg : HandleRegistry Mesh Matrix) : Call Mesh Matrix → Prop
  | .axis_init _ => True
  | .axis_mesh_from_named answer => answer.isSome → reg.HasTokens 1
  | .axis_mesh_from_descriptor answer => answer.isSome → reg.HasTokens 1
  | .axis_generate_weights src_handle dst_handle method answer =>
      reg.Missing src_handle ∨ reg.Missing dst_handle ∨ method_of method = none ∨
        reg.Holds src_handle .mesh ∧ reg.Holds dst_handle .mesh ∧
          (Made reg src_handle dst_handle method answer → reg.HasTokens 1)
  | .axis_generate_vector_weights src_handle dst_handle method answer =>
      reg.Missing src_handle ∨ reg.Missing dst_handle ∨ method_of method = none ∨
        reg.Holds src_handle .mesh ∧ reg.Holds dst_handle .mesh ∧
          (Made reg src_handle dst_handle method answer → reg.HasTokens 2)
  | .axis_apply matrix_handle _ => reg.Missing matrix_handle ∨ reg.Holds matrix_handle .matrix
  | .axis_destroy_mesh handle => reg.Holds handle .mesh
  | .axis_destroy_matrix handle => reg.Holds handle .matrix
where
  /-- The library makes weights of what the tokens stand for. -/
  Made {α : Type} (reg : HandleRegistry Mesh Matrix) (src_handle dst_handle method : Int)
      (answer : Mesh → Mesh → InterpolationMethod → Option α) : Prop :=
    ∃ src dst m, reg.lookup src_handle = some (.mesh src) ∧
      reg.lookup dst_handle = some (.mesh dst) ∧ method_of method = some m ∧
        (answer src dst m).isSome

/-! ## Section 4: One call -/

section

variable {reg : HandleRegistry Mesh Matrix} {c : Call Mesh Matrix} {token : Int}
  {obj : Object Mesh Matrix} {kind : Kind}

/-- Every registered token has been given out, and tokens are positive. -/
structure Inv (reg : HandleRegistry Mesh Matrix) : Prop where
  next_le : 1 ≤ reg.next_token ∧ reg.next_token ≤ int_max
  given_out : ∀ token, ¬ reg.Missing token → 1 ≤ token ∧ token < reg.next_token

namespace HandleRegistry

theorem missing_iff : reg.Missing token ↔ reg.lookup token = none := Option.isNone_iff_eq_none

theorem holds_iff : reg.Holds token kind ↔ ∃ obj, reg.lookup token = some obj ∧ obj.kind = kind :=
  Option.map_eq_some_iff

theorem Holds.not_missing (h : reg.Holds token kind) : ¬ reg.Missing token := by
  obtain ⟨obj, hobj, _⟩ := holds_iff.mp h
  rw [missing_iff, hobj]
  exact Option.some_ne_none obj

theorem holds_mesh : reg.Holds token .mesh ↔ ∃ m, reg.lookup token = some (.mesh m) := by
  rw [holds_iff]
  constructor
  · intro ⟨obj, hobj, hkind⟩
    cases obj with
    | mesh m => exact ⟨m, hobj⟩
    | matrix w => cases hkind
  · intro ⟨m, hm⟩
    exact ⟨_, hm, rfl⟩

theorem holds_matrix : reg.Holds token .matrix ↔ ∃ w, reg.lookup token = some (.matrix w) := by
  rw [holds_iff]
  constructor
  · intro ⟨obj, hobj, hkind⟩
    cases obj with
    | mesh m => cases hkind
    | matrix w => exact ⟨w, hobj⟩
  · intro ⟨w, hw⟩
    exact ⟨_, hw, rfl⟩

theorem next_missing (hinv : Inv reg) : reg.Missing reg.next_token := by
  by_contra h
  exact absurd (hinv.given_out _ h).2 (lt_irrefl _)

theorem register_handle_eq (hinv : Inv reg) (h : reg.HasTokens 1) (obj : Object Mesh Matrix) :
    ∃ reg', reg.register_handle obj = some (reg.next_token, reg') ∧
      reg'.next_token = reg.next_token + 1 ∧
      (∀ t, reg'.lookup t = if t = reg.next_token then some obj else reg.lookup t) ∧ Inv reg' := by
  have hne : reg.next_token ≠ int_max := by
    unfold HasTokens at h
    omega
  have hnew : reg.handles.lookup reg.next_token = none := missing_iff.mp (next_missing hinv)
  have hlookup : ∀ t, (reg.handles.insert reg.next_token obj).lookup t =
      if t = reg.next_token then some obj else reg.lookup t := fun t => OrdMap.lookup_insert
  refine ⟨⟨reg.handles.insert reg.next_token obj, reg.next_token + 1⟩, ?_, rfl, hlookup, ?_⟩
  · rw [register_handle, if_neg hne]
    dsimp only
    rw [hnew]
  · have hnext := hinv.next_le
    constructor
    · show 1 ≤ reg.next_token + 1 ∧ reg.next_token + 1 ≤ int_max
      unfold HasTokens at h
      omega
    · intro t ht
      rw [missing_iff] at ht
      show 1 ≤ t ∧ t < reg.next_token + 1
      by_cases heq : t = reg.next_token
      · omega
      · have hold : ¬ reg.Missing t := by
          rw [missing_iff]
          intro hnone
          apply ht
          show (reg.handles.insert reg.next_token obj).lookup t = none
          rw [hlookup, if_neg heq]
          exact hnone
        have := hinv.given_out t hold
        omega

theorem register_handle_none (hinv : Inv reg) (h : ¬ reg.HasTokens 1) (obj : Object Mesh Matrix) :
    reg.register_handle obj = none := by
  have heq : reg.next_token = int_max := by
    have := hinv.next_le
    unfold HasTokens at h
    omega
  rw [register_handle, if_pos heq]

theorem lookup_release (t : Int) :
    (reg.release token).lookup t = if t = token then none else reg.lookup t :=
  OrdMap.lookup_erase

end HandleRegistry

open HandleRegistry

theorem Promise.failed (h : c.run reg = some (failed reg)) : Promise reg c := by
  refine ⟨_, h, fun _ => ⟨rfl, rfl, rfl⟩, List.nodup_nil, ?_, fun t _ => .inl rfl⟩
  intro t ht
  cases ht

theorem Promise.used (h : c.run reg = some ⟨AXIS_SUCCESS, [], reg⟩)
    (htokens : ∀ x ∈ c.tokens, reg.Holds x.1 x.2) : Promise reg c := by
  refine ⟨_, h, ?_, List.nodup_nil, ?_, fun t _ => .inl rfl⟩
  · intro ⟨x, hx, hnot⟩
    exact absurd (htokens x hx) hnot
  · intro t ht
    cases ht

theorem Promise.made (hinv : Inv reg) (hmakes : c.makes = some obj.kind)
    (htokens : ∀ x ∈ c.tokens, reg.Holds x.1 x.2) (h : reg.HasTokens 1)
    (hrun : c.run reg = (reg.register_handle obj).bind fun x =>
      some ⟨AXIS_SUCCESS, [x.1], x.2⟩) : Promise reg c := by
  obtain ⟨reg', hregister, _, hlookup, _⟩ := register_handle_eq hinv h obj
  rw [hregister] at hrun
  refine ⟨_, hrun, ?_, List.nodup_singleton _, ?_, ?_⟩
  · intro ⟨x, hx, hnot⟩
    exact absurd (htokens x hx) hnot
  · intro t ht
    obtain rfl := List.mem_singleton.mp ht
    refine ⟨next_missing hinv, _, hmakes, ?_⟩
    show (reg'.lookup _).map Object.kind = _
    rw [hlookup, if_pos rfl]
    rfl
  · intro t ht
    refine .inl ?_
    show reg'.lookup t = _
    rw [hlookup, if_neg fun heq => ht (List.mem_singleton.mpr heq)]

theorem Promise.made_two {obj' : Object Mesh Matrix} (hinv : Inv reg)
    (hmakes : c.makes = some obj.kind) (hmakes' : c.makes = some obj'.kind)
    (htokens : ∀ x ∈ c.tokens, reg.Holds x.1 x.2) (h : reg.HasTokens 2)
    (hrun : c.run reg = (reg.register_handle obj).bind fun x =>
      (x.2.register_handle obj').bind fun y => some ⟨AXIS_SUCCESS, [x.1, y.1], y.2⟩) :
    Promise reg c := by
  have hone : reg.HasTokens 1 := by
    unfold HasTokens at h ⊢
    omega
  obtain ⟨reg₁, hregister, hnext, hlookup, hinv₁⟩ := register_handle_eq hinv hone obj
  have hone₁ : reg₁.HasTokens 1 := by
    unfold HasTokens at h ⊢
    omega
  obtain ⟨reg₂, hregister₂, _, hlookup₂, _⟩ := register_handle_eq hinv₁ hone₁ obj'
  rw [hregister, Option.bind_some, hregister₂, Option.bind_some] at hrun
  have hne : reg.next_token ≠ reg₁.next_token := by omega
  refine ⟨_, hrun, ?_, ?_, ?_, ?_⟩
  · intro ⟨x, hx, hnot⟩
    exact absurd (htokens x hx) hnot
  · simpa using hne
  · intro t ht
    rcases List.mem_cons.mp ht with heq | ht
    · subst heq
      refine ⟨next_missing hinv, _, hmakes, ?_⟩
      show (reg₂.lookup _).map Object.kind = _
      rw [hlookup₂, if_neg hne, hlookup, if_pos rfl]
      rfl
    · obtain rfl := List.mem_singleton.mp ht
      have hmissing := next_missing hinv₁
      rw [missing_iff, hlookup, if_neg hne.symm] at hmissing
      refine ⟨missing_iff.mpr hmissing, _, hmakes', ?_⟩
      show (reg₂.lookup _).map Object.kind = _
      rw [hlookup₂, if_pos rfl]
      rfl
  · intro t ht
    simp only [List.mem_cons, List.not_mem_nil, or_false, not_or] at ht
    refine .inl ?_
    show reg₂.lookup t = _
    rw [hlookup₂, if_neg ht.2, hlookup, if_neg ht.1]

theorem not_promise (h : c.run reg = none) : ¬ Promise reg c := by
  intro ⟨r, hr, _⟩
  rw [h] at hr
  cases hr

theorem destroy_promise_iff (hrun : c.run reg = some ⟨AXIS_SUCCESS, [], reg.release token⟩)
    (htokens : c.tokens = [(token, kind)]) (hreleases : c.releases = some token) :
    Promise reg c ↔ reg.Holds token kind := by
  constructor
  · intro ⟨r, hr, hwrong, _⟩
    by_contra hnot
    rw [hrun] at hr
    cases hr
    have hcode := (hwrong ⟨(token, kind), by rw [htokens]; exact List.mem_cons_self, hnot⟩).1
    exact absurd hcode (show ¬ AXIS_SUCCESS = AXIS_ERROR by decide)
  · intro hholds
    refine ⟨_, hrun, ?_, List.nodup_nil, ?_, ?_⟩
    · intro ⟨x, hx, hnot⟩
      rw [htokens] at hx
      obtain rfl := List.mem_singleton.mp hx
      exact absurd hholds hnot
    · intro t ht
      cases ht
    · intro t _
      show (reg.release token).lookup t = _ ∨ _
      by_cases heq : t = token
      · subst heq
        refine .inr ⟨hreleases, ?_, kind, ?_, hholds⟩
        · exact missing_iff.mpr ((lookup_release t).trans (if_pos rfl))
        · rw [htokens]
          exact List.mem_cons_self
      · exact .inl ((lookup_release t).trans (if_neg heq))

theorem with_meshes_cases (reg : HandleRegistry Mesh Matrix) (src_handle dst_handle method : Int)
    (body : Mesh → Mesh → InterpolationMethod → Option (Reply Mesh Matrix)) :
    (reg.Missing src_handle ∨ reg.Missing dst_handle ∨ method_of method = none) ∧
        with_meshes reg src_handle dst_handle method body = some (failed reg) ∨
      ¬ (reg.Missing src_handle ∨ reg.Missing dst_handle ∨ method_of method = none) ∧
        ¬ (reg.Holds src_handle .mesh ∧ reg.Holds dst_handle .mesh) ∧
        with_meshes reg src_handle dst_handle method body = none ∨
      ∃ src dst m, reg.lookup src_handle = some (.mesh src) ∧
        reg.lookup dst_handle = some (.mesh dst) ∧ method_of method = some m ∧
        with_meshes reg src_handle dst_handle method body = body src dst m := by
  rw [missing_iff, missing_iff, holds_mesh, holds_mesh, with_meshes]
  cases hsrc : reg.lookup src_handle with
  | none => exact .inl ⟨.inl rfl, rfl⟩
  | some src_ptr =>
    cases hdst : reg.lookup dst_handle with
    | none => exact .inl ⟨.inr (.inl rfl), rfl⟩
    | some dst_ptr =>
      cases hmethod : method_of method with
      | none => exact .inl ⟨.inr (.inr rfl), rfl⟩
      | some m =>
        cases src_ptr with
        | matrix w => exact .inr (.inl ⟨by simp, by simp, rfl⟩)
        | mesh src =>
          cases dst_ptr with
          | matrix w => exact .inr (.inl ⟨by simp, by simp, rfl⟩)
          | mesh dst => exact .inr (.inr ⟨src, dst, m, rfl, rfl, rfl, rfl⟩)

/-- The calls that make weights. `count` tokens are needed where the library has
    an answer. -/
theorem generate_promise_iff {α : Type} {src_handle dst_handle method count : Int}
    {answer : Mesh → Mesh → InterpolationMethod → Option α} (made : α → Option (Reply Mesh Matrix))
    (htokens : c.tokens = [(src_handle, .mesh), (dst_handle, .mesh)])
    (hrun : c.run reg = with_meshes reg src_handle dst_handle method fun src dst m =>
      match answer src dst m with
      | none => some (failed reg)
      | some a => made a)
    (hmade : ∀ a, c.run reg = made a → (∀ x ∈ c.tokens, reg.Holds x.1 x.2) →
      (Promise reg c ↔ reg.HasTokens count)) :
    Promise reg c ↔ reg.Missing src_handle ∨ reg.Missing dst_handle ∨ method_of method = none ∨
      reg.Holds src_handle .mesh ∧ reg.Holds dst_handle .mesh ∧
        (Sound.Made reg src_handle dst_handle method answer → reg.HasTokens count) := by
  obtain ⟨hearly, hbody⟩ | ⟨hlate, hwrong, hbody⟩ | ⟨src, dst, m, hsrc, hdst, hmethod, hbody⟩ :=
    with_meshes_cases reg src_handle dst_handle method fun src dst m =>
      match answer src dst m with
      | none => some (failed reg)
      | some a => made a
  · have hpromise := Promise.failed (hrun.trans hbody)
    constructor
    · intro _
      rcases hearly with h | h | h
      · exact .inl h
      · exact .inr (.inl h)
      · exact .inr (.inr (.inl h))
    · intro _
      exact hpromise
  · constructor
    · intro hpromise
      exact absurd hpromise (not_promise (hrun.trans hbody))
    · intro h
      rcases h with h | h | h | ⟨h, h', _⟩
      · exact absurd (.inl h) hlate
      · exact absurd (.inr (.inl h)) hlate
      · exact absurd (.inr (.inr h)) hlate
      · exact absurd ⟨h, h'⟩ hwrong
  · have hholds : reg.Holds src_handle .mesh := holds_mesh.mpr ⟨src, hsrc⟩
    have hholds' : reg.Holds dst_handle .mesh := holds_mesh.mpr ⟨dst, hdst⟩
    rw [hbody] at hrun
    have hnot : ¬ method_of method = none := by
      rw [hmethod]
      exact Option.some_ne_none m
    simp only [hholds.not_missing, hholds'.not_missing, hnot, hholds, hholds', false_or, true_and]
    cases hanswer : answer src dst m with
    | none =>
      rw [hanswer] at hrun
      have hpromise : Promise reg c := Promise.failed hrun
      constructor
      · intro _ ⟨src', dst', m', hsrc', hdst', hmethod', hsome⟩
        -- the library has no answer for these meshes
        rw [hsrc] at hsrc'
        rw [hdst] at hdst'
        rw [hmethod] at hmethod'
        cases hsrc'
        cases hdst'
        cases hmethod'
        rw [hanswer] at hsome
        cases hsome
      · intro _
        exact hpromise
    | some a =>
      rw [hanswer] at hrun
      have hiff := hmade a hrun (by
        intro x hx
        rw [htokens] at hx
        rcases List.mem_cons.mp hx with heq | hx
        · subst heq
          exact hholds
        · obtain rfl := List.mem_singleton.mp hx
          exact hholds')
      rw [hiff]
      constructor
      · intro h _
        exact h
      · intro h
        exact h ⟨src, dst, m, hsrc, hdst, hmethod, by rw [hanswer]; rfl⟩

variable (obj) in
theorem register_promise_iff (hinv : Inv reg) (hmakes : c.makes = some obj.kind)
    (htokens : ∀ x ∈ c.tokens, reg.Holds x.1 x.2)
    (hrun : c.run reg = (reg.register_handle obj).bind fun x =>
      some ⟨AXIS_SUCCESS, [x.1], x.2⟩) : Promise reg c ↔ reg.HasTokens 1 := by
  constructor
  · intro hpromise
    by_contra h
    rw [register_handle_none hinv h] at hrun
    exact not_promise hrun hpromise
  · intro h
    exact Promise.made hinv hmakes htokens h hrun

variable (obj) in
theorem register_two_promise_iff (obj' : Object Mesh Matrix) (hinv : Inv reg)
    (hmakes : c.makes = some obj.kind) (hmakes' : c.makes = some obj'.kind)
    (htokens : ∀ x ∈ c.tokens, reg.Holds x.1 x.2)
    (hrun : c.run reg = (reg.register_handle obj).bind fun x =>
      (x.2.register_handle obj').bind fun y => some ⟨AXIS_SUCCESS, [x.1, y.1], y.2⟩) :
    Promise reg c ↔ reg.HasTokens 2 := by
  constructor
  · intro hpromise
    by_contra h
    by_cases hone : reg.HasTokens 1
    · -- the first object takes the last token
      obtain ⟨reg₁, hregister, hnext, _, hinv₁⟩ := register_handle_eq hinv hone obj
      have hnone : ¬ reg₁.HasTokens 1 := by
        unfold HasTokens at h ⊢
        omega
      rw [hregister, Option.bind_some, register_handle_none hinv₁ hnone] at hrun
      exact not_promise hrun hpromise
    · rw [register_handle_none hinv hone] at hrun
      exact not_promise hrun hpromise
  · intro h
    exact Promise.made_two hinv hmakes hmakes' htokens h hrun

/-- **One call keeps the promise exactly where it is sound.** -/
theorem promise_iff (hinv : Inv reg) (c : Call Mesh Matrix) : Promise reg c ↔ Sound reg c := by
  have hnone : ∀ {l : List (Int × Kind)}, l = [] → ∀ x ∈ l, reg.Holds x.1 x.2 := by
    intro l hl x hx
    rw [hl] at hx
    cases hx
  cases c with
  | axis_init answer =>
    have hpromise : Promise reg (.axis_init answer) := by
      cases answer with
      | none => exact Promise.failed rfl
      | some _ => exact Promise.used rfl (hnone rfl)
    exact iff_of_true hpromise trivial
  | axis_mesh_from_named answer =>
    cases answer with
    | none => exact iff_of_true (Promise.failed rfl) (fun h => by cases h)
    | some mesh =>
      refine (register_promise_iff (.mesh mesh) hinv rfl (hnone rfl) rfl).trans ?_
      simp [Sound]
  | axis_mesh_from_descriptor answer =>
    cases answer with
    | none => exact iff_of_true (Promise.failed rfl) (fun h => by cases h)
    | some mesh =>
      refine (register_promise_iff (.mesh mesh) hinv rfl (hnone rfl) rfl).trans ?_
      simp [Sound]
  | axis_generate_weights src_handle dst_handle method answer =>
    apply generate_promise_iff (fun matrix => (reg.register_handle (.matrix matrix)).bind fun x =>
      some ⟨AXIS_SUCCESS, [x.1], x.2⟩) rfl rfl
    intro matrix hrun htokens
    exact register_promise_iff (.matrix matrix) hinv rfl htokens hrun
  | axis_generate_vector_weights src_handle dst_handle method answer =>
    apply generate_promise_iff (fun W => (reg.register_handle (.matrix W.1)).bind fun x =>
      (x.2.register_handle (.matrix W.2)).bind fun y => some ⟨AXIS_SUCCESS, [x.1, y.1], y.2⟩) rfl
    · show axis_generate_vector_weights reg src_handle dst_handle method answer = _
      rw [axis_generate_vector_weights]
      congr 1
      funext src dst m
      cases answer src dst m <;> rfl
    intro W hrun htokens
    exact register_two_promise_iff (.matrix W.1) (.matrix W.2) hinv rfl rfl htokens hrun
  | axis_apply matrix_handle answer =>
    have hrun : Call.run reg (.axis_apply matrix_handle answer) =
        axis_apply reg matrix_handle answer := rfl
    show _ ↔ reg.Missing matrix_handle ∨ reg.Holds matrix_handle .matrix
    rw [missing_iff, holds_matrix]
    rw [axis_apply] at hrun
    cases hlookup : reg.lookup matrix_handle with
    | none =>
      rw [hlookup] at hrun
      exact iff_of_true (Promise.failed hrun) (.inl rfl)
    | some obj =>
      rw [hlookup] at hrun
      cases obj with
      | mesh m => exact iff_of_false (not_promise hrun) (by simp)
      | matrix w =>
        refine iff_of_true ?_ (.inr ⟨w, rfl⟩)
        cases hanswer : answer w with
        | none => exact Promise.failed (hrun.trans (by simp [as_matrix, hanswer]))
        | some _ =>
          apply Promise.used (hrun.trans (by simp [as_matrix, hanswer]))
          intro x hx
          obtain rfl := List.mem_singleton.mp hx
          exact holds_matrix.mpr ⟨w, hlookup⟩
  | axis_destroy_mesh handle => exact destroy_promise_iff rfl rfl rfl
  | axis_destroy_matrix handle => exact destroy_promise_iff rfl rfl rfl

/-! ## Section 5: Every run -/

theorem inv_make : Inv (HandleRegistry.make : HandleRegistry Mesh Matrix) := by
  constructor
  · show (1 : Int) ≤ 1 ∧ 1 ≤ int_max
    decide
  · intro t ht
    exact absurd rfl ht

theorem Inv.register (hinv : Inv reg) {x : Int × HandleRegistry Mesh Matrix}
    (h : reg.register_handle obj = some x) : Inv x.2 := by
  by_cases htokens : reg.HasTokens 1
  · obtain ⟨reg', hregister, _, _, hinv'⟩ := register_handle_eq hinv htokens obj
    rw [h] at hregister
    cases hregister
    exact hinv'
  · rw [register_handle_none hinv htokens] at h
    cases h

theorem Inv.release (hinv : Inv reg) : Inv (reg.release token) := by
  constructor
  · exact hinv.next_le
  · intro t ht
    apply hinv.given_out t
    intro hmissing
    apply ht
    rw [missing_iff] at hmissing ⊢
    rw [lookup_release, hmissing, ite_self]

theorem Inv.with_meshes (hinv : Inv reg) {src_handle dst_handle method : Int}
    {body : Mesh → Mesh → InterpolationMethod → Option (Reply Mesh Matrix)}
    (hbody : ∀ src dst m r, body src dst m = some r → Inv r.registry) {r : Reply Mesh Matrix}
    (h : with_meshes reg src_handle dst_handle method body = some r) : Inv r.registry := by
  obtain ⟨_, hrun⟩ | ⟨_, _, hrun⟩ | ⟨src, dst, m, _, _, _, hrun⟩ :=
    with_meshes_cases reg src_handle dst_handle method body
  · rw [h] at hrun
    cases hrun
    exact hinv
  · rw [h] at hrun
    cases hrun
  · exact hbody src dst m r (hrun ▸ h)

theorem Inv.made (hinv : Inv reg) {r : Reply Mesh Matrix} (h : (reg.register_handle obj).bind
    (fun x => some (⟨AXIS_SUCCESS, [x.1], x.2⟩ : Reply Mesh Matrix)) = some r) : Inv r.registry := by
  obtain ⟨x, hx, hr⟩ := Option.bind_eq_some_iff.mp h
  cases hr
  exact hinv.register hx

theorem run_inv (hinv : Inv reg) {r : Reply Mesh Matrix} (h : c.run reg = some r) :
    Inv r.registry := by
  cases c with
  | axis_init answer => cases answer <;> (cases h; exact hinv)
  | axis_mesh_from_named answer =>
    cases answer with
    | none => cases h; exact hinv
    | some mesh => exact hinv.made h
  | axis_mesh_from_descriptor answer =>
    cases answer with
    | none => cases h; exact hinv
    | some mesh => exact hinv.made h
  | axis_generate_weights src_handle dst_handle method answer =>
    apply hinv.with_meshes _ h
    intro src dst m r hr
    cases hanswer : answer src dst m with
    | none =>
      rw [hanswer] at hr
      cases hr
      exact hinv
    | some matrix =>
      rw [hanswer] at hr
      exact hinv.made hr
  | axis_generate_vector_weights src_handle dst_handle method answer =>
    apply hinv.with_meshes _ h
    intro src dst m r hr
    cases hanswer : answer src dst m with
    | none =>
      rw [hanswer] at hr
      cases hr
      exact hinv
    | some W =>
      rw [hanswer] at hr
      obtain ⟨x, hx, hr⟩ := Option.bind_eq_some_iff.mp hr
      obtain ⟨y, hy, hr⟩ := Option.bind_eq_some_iff.mp hr
      cases hr
      exact (hinv.register hx).register hy
  | axis_apply matrix_handle answer =>
    have h : axis_apply reg matrix_handle answer = some r := h
    rw [axis_apply] at h
    split at h
    · cases h
      exact hinv
    · obtain ⟨w, _, h⟩ := Option.bind_eq_some_iff.mp h
      split at h <;> (cases h; exact hinv)
  | axis_destroy_mesh handle =>
    cases h
    exact hinv.release
  | axis_destroy_matrix handle =>
    cases h
    exact hinv.release

theorem reachable_inv (hr : fortranSystem.Reachable reg) : Inv reg := by
  apply hr.invariant
  · intro s hs
    rw [hs]
    exact inv_make
  · intro s c s' _ hinv hstep
    obtain ⟨r, hrun, hs'⟩ := Option.map_eq_some_iff.mp hstep
    rw [← hs']
    exact run_inv hinv hrun

/-- **In every run, a call keeps the promise exactly where it is sound**: with
    tokens of the right kind, or with a token that is not registered where the
    call looks it up. -/
theorem bridge_keeps_promise_iff (hr : fortranSystem.Reachable reg) (c : Call Mesh Matrix) :
    Promise reg c ↔ Sound reg c :=
  promise_iff (reachable_inv hr) c

end

theorem bridge_keeps_promise_mesh :
    ∃ reg : HandleRegistry Unit Unit,
      System.exec HandleRegistry.next .make [.axis_mesh_from_named (some ())] = some reg ∧
        Promise reg (.axis_destroy_mesh 1) := by
  refine ⟨_, rfl, ?_⟩
  have hr : fortranSystem.Reachable _ := System.reachable_of_exec rfl
    (show System.exec HandleRegistry.next (.make : HandleRegistry Unit Unit)
      [.axis_mesh_from_named (some ())] = some _ from rfl)
  exact (bridge_keeps_promise_iff hr (.axis_destroy_mesh 1)).mpr (by rfl)

theorem bridge_mixes_kinds :
    ∃ reg : HandleRegistry Unit Unit,
      System.exec HandleRegistry.next .make [.axis_mesh_from_named (some ())] = some reg ∧
        ¬ Promise reg (.axis_apply 1 fun _ => some ()) ∧
        ¬ Promise reg (.axis_destroy_matrix 1) := by
  refine ⟨_, rfl, ?_, ?_⟩
  · intro ⟨r, hr, _⟩
    cases hr
  · intro ⟨r, hr, hwrong, _⟩
    cases hr
    have hcode := (hwrong ⟨(1, .matrix), List.mem_cons_self, by decide⟩).1
    exact absurd hcode (show ¬ AXIS_SUCCESS = AXIS_ERROR by decide)

end Axis.Fortran
