import Helm.Framework.Channels
import Helm.Framework.System
import Helm.Framework.Vec
import Helm.Halo.StructuredPlan

/-! # The blocking structured exchange

  All processes of a grid of equal subdomains call
  `exchange_structured_blocking`. Each packs its faces, posts its receives and
  then its sends in the order of the faces, waits, and unpacks.

  * **Model**: one step for each MPI call. A receive belongs to the message
    with its number on the envelope, and messages arrive in any order.
  * **Matching**: a receive for a face gets the face that the neighbor sent
    under that number. Where one process is behind both faces of a dimension
    that is the same face, else the opposite one.
  * **Result**: what the views hold once every call has returned.
-/

namespace Halo

open Channels (Net)
open List (finRange)
open LTS

variable {R : Nat} {β : Type}

/-! ## Section 1: Model -/

/-- Equal subdomains side by side, and the plans that the constructor has
    accepted for them. -/
structure Subdomains (R : Nat) where
  grid : ProcessGrid R
  extents : Fin R → Nat
  halo_widths : Fin R → Nat
  layout : Layout R
  value_type : ValueType
  /-- The value of `MPI_TAG_UB` -/
  tag_ub : Int
  extents_lt : ∀ d, extents d < 2 ^ 64
  accepted : ∀ p, StructuredPlan.make extents (grid.neighbor_ranks p) halo_widths =
    .ok ⟨extents, grid.neighbor_ranks p, halo_widths⟩

namespace Subdomains

variable (w : Subdomains R)

abbrev Proc := w.grid.Proc

abbrev View (β : Type) := GridView R w.value_type.sizeof β

def plan (p : w.Proc) : StructuredPlan R := ⟨w.extents, w.grid.neighbor_ranks p, w.halo_widths⟩

/-- The envelope of the messages from one process to another;
    `structured_compute_tag` gives the tag. -/
def channel (p q : w.Proc) : Envelope :=
  envelope w.tag_ub w.grid.comm_size (w.grid.rank p) (w.grid.rank q)

/-- The envelope of the sends through a face. -/
def send_envelope (p : w.Proc) (f : Face R) : Envelope :=
  envelope w.tag_ub w.grid.comm_size (w.grid.rank p) ((w.plan p).neighbor_ranks f)

/-- The envelope of the receives through a face. -/
def recv_envelope (p : w.Proc) (f : Face R) : Envelope :=
  envelope w.tag_ub w.grid.comm_size ((w.plan p).neighbor_ranks f) (w.grid.rank p)

end Subdomains

/-- The local variables of a call. -/
structure Locals (R : Nat) (β : Type) where
  send_buffers : Face R → List β
  recv_buffers : Face R → List β
  /-- The receives that have been posted, and their numbers on their envelopes. -/
  recvs : List (Face R)
  slots : Face R → Nat
  /-- The sends that have been posted. -/
  sends : List (Face R)
  /-- The receives that have completed. -/
  arrived : List (Face R)

inductive ExchangeCall (R : Nat) (β : Type)
  | before
  | running (locals : Locals R β)
  | returned

def ExchangeCall.is_returned : ExchangeCall R β → Bool
  | .returned => true
  | _ => false

/-- The views of the processes, their calls, and the messages. -/
structure ExchangeState (w : Subdomains R) (β : Type) where
  view : w.Proc → w.View β
  call : w.Proc → ExchangeCall R β
  net : Net Envelope (List β)

inductive ExchangeLabel (w : Subdomains R) (β : Type)
  /-- Call the function, pack, and allocate receive buffers without
      initializing them. -/
  | start (p : w.Proc) (garbage : Face R → List β)
  | irecv (p : w.Proc)
  | isend (p : w.Proc)
  /-- A message arrives in the receive buffer of a face. -/
  | deliver (p : w.Proc) (f : Face R)
  /-- `MPI_Waitall` returns, and the buffers are unpacked. -/
  | finish (p : w.Proc)

namespace ExchangeState

variable {w : Subdomains R} (s : ExchangeState w β)

/-- The local variables of a call that is under way. -/
def locals (p : w.Proc) : Option (Locals R β) :=
  match s.call p with
  | .running c => some c
  | _ => none

/-- The state with another call at one process. -/
def set_call (p : w.Proc) (call : ExchangeCall R β) : ExchangeState w β :=
  { s with call := Function.update s.call p call }

def set_net (net : Net Envelope (List β)) : ExchangeState w β := { s with net := net }

/-- An early return without neighbors, and else phase 1. -/
def start (p : w.Proc) (garbage : Face R → List β) : Option (ExchangeState w β) :=
  match s.call p with
  | .before =>
    if (w.plan p).active_faces = [] then some (s.set_call p .returned)
    else if ∀ f ∈ (w.plan p).active_faces,
        (garbage f).length = ((w.plan p).recv_region f).size * w.value_type.sizeof then
      some (s.set_call p (.running
        { send_buffers := fun f =>
            if (w.plan p).has_neighbor f then
              pack w.layout (s.view p) ((w.plan p).send_region f)
            else []
          recv_buffers := garbage
          recvs := []
          slots := fun _ => 0
          sends := []
          arrived := [] }))
    else none
  | _ => none

/-- The next `MPI_Irecv` of phase 2. A negative count is an exception, and the
    call does not go on. -/
def irecv (p : w.Proc) : Option (ExchangeState w β) := do
  let c ← s.locals p
  let f ← (w.plan p).active_faces[c.recvs.length]?
  let _ ← message_bytes w.value_type ((w.plan p).recv_region f).size
  let e := w.recv_envelope p f
  some ((s.set_call p (.running
    { c with
      recvs := c.recvs ++ [f]
      slots := Function.update c.slots f (s.net.receives e) })).set_net (s.net.receive e))

/-- The next `MPI_Isend` of phase 3. The buffer does not change until the call
    returns, so its bytes can be taken at once. -/
def isend (p : w.Proc) : Option (ExchangeState w β) := do
  let c ← s.locals p
  if c.recvs.length = (w.plan p).active_faces.length then do
    let f ← (w.plan p).active_faces[c.sends.length]?
    let n ← message_bytes w.value_type ((w.plan p).send_region f).size
    some ((s.set_call p (.running { c with sends := c.sends ++ [f] })).set_net
      (s.net.post (w.send_envelope p f) (some ((c.send_buffers f).take n))))
  else none

/-- A message that is longer than the receive is an error of MPI, and a shorter
    one leaves the rest of the buffer as it was. -/
def deliver (p : w.Proc) (f : Face R) : Option (ExchangeState w β) := do
  let c ← s.locals p
  if f ∈ c.recvs ∧ f ∉ c.arrived then do
    let m ← s.net.message (w.recv_envelope p f) (c.slots f)
    let n ← message_bytes w.value_type ((w.plan p).recv_region f).size
    if m.length ≤ n then
      some (s.set_call p (.running
        { c with
          recv_buffers := Function.update c.recv_buffers f (m ++ (c.recv_buffers f).drop m.length)
          arrived := f :: c.arrived }))
    else none
  else none

/-- Phases 4 and 5. A send may complete as soon as its bytes are taken, so the
    receives are what is waited for. -/
def finish (p : w.Proc) : Option (ExchangeState w β) := do
  let c ← s.locals p
  if c.recvs.length = (w.plan p).active_faces.length ∧
      c.sends.length = (w.plan p).active_faces.length ∧
      ∀ f ∈ (w.plan p).active_faces, f ∈ c.arrived then
    some { s.set_call p .returned with
      view := Function.update s.view p ((w.plan p).active_faces.foldl
        (fun view f => unpack w.layout (c.recv_buffers f) view ((w.plan p).recv_region f))
        (s.view p)) }
  else none

def next (s : ExchangeState w β) : ExchangeLabel w β → Option (ExchangeState w β)
  | .start p garbage => s.start p garbage
  | .irecv p => s.irecv p
  | .isend p => s.isend p
  | .deliver p f => s.deliver p f
  | .finish p => s.finish p

end ExchangeState

/-- Nobody has called yet. -/
def ExchangeState.initial (w : Subdomains R) (views : w.Proc → w.View β) : ExchangeState w β :=
  ⟨views, fun _ => .before, .empty⟩

/-- All processes exchange, from these views on. -/
def structured_exchange (w : Subdomains R) (views : w.Proc → w.View β) :
    System (ExchangeState w β) (ExchangeLabel w β) :=
  .ofNext (fun s => s = .initial w views) ExchangeState.next

/-! ## Section 2: Cells -/

namespace Subdomains

variable {w : Subdomains R}

/-- What the plans and the messages need beyond the check of the constructor:
    twice the halo width does not wrap around, the value type has a datatype of
    its size, and the number of cells of a face with a neighbor is an `int`. -/
structure Sound (w : Subdomains R) : Prop where
  no_wrap : ∀ d, 2 * w.halo_widths d < 2 ^ 64
  transferable : w.value_type.Transferable
  small : ∀ p f q, w.grid.neighbor p f = some q →
    (∏ k, if k = f.dim then w.halo_widths k else w.extents k) < 2 ^ 31

theorem Sound.fits (h : w.Sound) (p : w.Proc) : (w.plan p).Fits := by
  intro d
  have haccepted := (StructuredPlan.make_eq_ok (w.accepted p)).2 d
  rw [Word.mul, Nat.mod_eq_of_lt (h.no_wrap d)] at haccepted
  exact ⟨haccepted, w.extents_lt d⟩

theorem Sound.halo_le (h : w.Sound) (p : w.Proc) (d : Fin R) :
    2 * w.halo_widths d ≤ w.extents d := (h.fits p d).1

/-- The cells between the halo zones. -/
def Interior (w : Subdomains R) (x : Fin R → Nat) : Prop :=
  ∀ d, w.halo_widths d ≤ x d ∧ x d + w.halo_widths d < w.extents d

/-- The ghost cells of a face, interior in the other dimensions. -/
structure Ghost (w : Subdomains R) (f : Face R) (x : Fin R → Nat) : Prop where
  others : ∀ d, d ≠ f.dim → w.halo_widths d ≤ x d ∧ x d + w.halo_widths d < w.extents d
  zone : if f.high then w.extents f.dim ≤ x f.dim + w.halo_widths f.dim ∧ x f.dim < w.extents f.dim
    else x f.dim < w.halo_widths f.dim

/-- The cell of the neighbor that a ghost cell stands for: one interior width
    further on. -/
def matching (w : Subdomains R) (f : Face R) (x : Fin R → Nat) : Fin R → Nat :=
  let width := w.extents f.dim - 2 * w.halo_widths f.dim
  Function.update x f.dim (if f.high then x f.dim - width else x f.dim + width)

/-- The cell at the same place of the layers that the neighbor sends through the
    face of the same name. -/
def echo (w : Subdomains R) (f : Face R) (x : Fin R → Nat) : Fin R → Nat :=
  Function.update x f.dim
    (if f.high then x f.dim - w.halo_widths f.dim else x f.dim + w.halo_widths f.dim)

theorem Sound.recv_holds (h : w.Sound) (p : w.Proc) (f : Face R) (x : Fin R → Nat) :
    ((w.plan p).recv_region f).Holds x ↔
      (∀ d, d ≠ f.dim → x d < w.extents d) ∧
        if f.high then w.extents f.dim ≤ x f.dim + w.halo_widths f.dim ∧ x f.dim < w.extents f.dim
        else x f.dim < w.halo_widths f.dim := by
  have hle := h.halo_le p f.dim
  have hfirst : ((w.plan p).recv_region f).first f.dim =
      if f.high then w.extents f.dim - w.halo_widths f.dim else 0 := (h.fits p).recv_first f
  have hshape : ((w.plan p).recv_region f).shape f.dim = w.halo_widths f.dim := by
    rw [((h.fits p).shape f).2]
    exact if_pos rfl
  have hzone : (((w.plan p).recv_region f).first f.dim ≤ x f.dim ∧
      x f.dim - ((w.plan p).recv_region f).first f.dim <
        ((w.plan p).recv_region f).shape f.dim) ↔
      if f.high then w.extents f.dim ≤ x f.dim + w.halo_widths f.dim ∧ x f.dim < w.extents f.dim
      else x f.dim < w.halo_widths f.dim := by
    rw [hfirst, hshape]
    split <;> omega
  have hothers : ∀ d, d ≠ f.dim → ((((w.plan p).recv_region f).first d ≤ x d ∧
      x d - ((w.plan p).recv_region f).first d < ((w.plan p).recv_region f).shape d) ↔
        x d < w.extents d) := by
    intro d hd
    rw [(StructuredPlan.first_of_ne hd).2, ((h.fits p).shape f).2]
    show _ ∧ _ < (if d = f.dim then _ else w.extents d) ↔ _
    rw [if_neg hd]
    omega
  rw [← hzone]
  constructor
  · intro hholds
    exact ⟨fun d hd => (hothers d hd).mp (hholds d), hholds f.dim⟩
  · intro ⟨hrest, hdim⟩ d
    by_cases hd : d = f.dim
    · rw [hd]
      exact hdim
    · exact (hothers d hd).mpr (hrest d hd)

theorem Sound.holds_of_ghost (h : w.Sound) (p : w.Proc) {f : Face R} {x : Fin R → Nat}
    (hx : w.Ghost f x) : ((w.plan p).recv_region f).Holds x := by
  rw [h.recv_holds]
  refine ⟨?_, hx.zone⟩
  intro d hd
  have := hx.others d hd
  omega

theorem Sound.not_holds_of_interior (h : w.Sound) (p : w.Proc) {x : Fin R → Nat}
    (hx : w.Interior x) (f : Face R) : ¬ ((w.plan p).recv_region f).Holds x := by
  rw [h.recv_holds]
  intro ⟨_, hzone⟩
  have := hx f.dim
  split at hzone <;> omega

theorem Sound.not_holds_of_ghost (h : w.Sound) (p : w.Proc) {f f' : Face R} {x : Fin R → Nat}
    (hx : w.Ghost f x) (hne : f' ≠ f) : ¬ ((w.plan p).recv_region f').Holds x := by
  rw [h.recv_holds]
  intro ⟨_, hzone'⟩
  by_cases hdim : f'.dim = f.dim
  · -- the two zones of a dimension are apart
    obtain heq | heq := Face.eq_or_eq_opposite hdim
    · exact hne heq
    · subst heq
      have hle := h.halo_le p f.dim
      have hzone := hx.zone
      change if !f.high then _ else _ at hzone'
      cases hhigh : f.high <;> simp only [hhigh, Bool.not_true, Bool.not_false, if_true, if_false,
        Bool.false_eq_true] at hzone hzone'
      · change w.extents f.dim ≤ x f.dim + w.halo_widths f.dim ∧ x f.dim < w.extents f.dim at hzone'
        omega
      · change x f.dim < w.halo_widths f.dim at hzone'
        omega
  · have := hx.others f'.dim hdim
    split at hzone' <;> omega

theorem Sound.moved_matching (h : w.Sound) (p q : w.Proc) {f : Face R} {x : Fin R → Nat}
    (hx : w.Ghost f x) :
    (fun d => ((w.plan q).send_region f.opposite).first d +
      (x d - ((w.plan p).recv_region f).first d)) = w.matching f x := by
  have hle := h.halo_le p f.dim
  have hzone := hx.zone
  have hsend : ((w.plan q).send_region f.opposite).first f.dim =
      if !f.high then w.extents f.dim - 2 * w.halo_widths f.dim else w.halo_widths f.dim :=
    (h.fits q).send_first f.opposite
  have hrecv : ((w.plan p).recv_region f).first f.dim =
      if f.high then w.extents f.dim - w.halo_widths f.dim else 0 := (h.fits p).recv_first f
  funext d
  by_cases hd : d = f.dim
  · subst hd
    rw [matching, Function.update_self, hsend, hrecv]
    cases hhigh : f.high <;> simp only [hhigh, Bool.not_true, Bool.not_false, if_true, if_false,
      Bool.false_eq_true] at hzone ⊢ <;> omega
  · have hd' : d ≠ f.opposite.dim := hd
    rw [matching, Function.update_of_ne hd, (StructuredPlan.first_of_ne hd').1,
      (StructuredPlan.first_of_ne hd).2, Nat.sub_zero, Nat.zero_add]

theorem Sound.moved_echo (h : w.Sound) (p q : w.Proc) {f : Face R} {x : Fin R → Nat}
    (hx : w.Ghost f x) :
    (fun d => ((w.plan q).send_region f).first d +
      (x d - ((w.plan p).recv_region f).first d)) = w.echo f x := by
  have hle := h.halo_le p f.dim
  have hzone := hx.zone
  have hsend : ((w.plan q).send_region f).first f.dim =
      if f.high then w.extents f.dim - 2 * w.halo_widths f.dim else w.halo_widths f.dim :=
    (h.fits q).send_first f
  have hrecv : ((w.plan p).recv_region f).first f.dim =
      if f.high then w.extents f.dim - w.halo_widths f.dim else 0 := (h.fits p).recv_first f
  funext d
  by_cases hd : d = f.dim
  · subst hd
    rw [echo, Function.update_self, hsend, hrecv]
    cases hhigh : f.high <;> simp only [hhigh, if_true, if_false, Bool.false_eq_true] at hzone ⊢ <;>
      omega
  · rw [echo, Function.update_of_ne hd, (StructuredPlan.first_of_ne hd).1,
      (StructuredPlan.first_of_ne hd).2, Nat.sub_zero, Nat.zero_add]

/-! ### Unpacking all faces -/

section Unpacking

variable {regions : Face R → FaceRegion R} {size : Nat} {layout : Layout R}
  {buffers : Face R → List β} {l : List (Face R)} {x : Fin R → Nat}

theorem foldl_unpack_of_none (hnone : ∀ f ∈ l, ¬ (regions f).Holds x) (view : GridView R size β) :
    l.foldl (fun view f => unpack layout (buffers f) view (regions f)) view x = view x := by
  induction l generalizing view with
  | nil => rfl
  | cons g l ih =>
    rw [List.foldl_cons, ih fun f hf => hnone f (List.mem_cons_of_mem _ hf)]
    exact unpack_of_not_holds (hnone g List.mem_cons_self)

theorem foldl_unpack_of_unique {f : Face R} (hf : f ∈ l) (hnodup : l.Nodup)
    (honly : ∀ f' ∈ l, f' ≠ f → ¬ (regions f').Holds x) (hx : (regions f).Holds x)
    {source : GridView R size β} {r : FaceRegion R} (hbuffer : buffers f = pack layout source r)
    (hshape : r.shape = (regions f).shape) (view : GridView R size β) :
    l.foldl (fun view f => unpack layout (buffers f) view (regions f)) view x =
      source fun d => r.first d + (x d - (regions f).first d) := by
  induction l generalizing view with
  | nil => cases hf
  | cons g l ih =>
    obtain ⟨hg, hnodup⟩ := List.nodup_cons.mp hnodup
    rw [List.foldl_cons]
    obtain heq | hmem := List.mem_cons.mp hf
    · -- no later face touches the cell
      subst heq
      rw [foldl_unpack_of_none, hbuffer, unpack_pack hshape hx]
      intro f' hf'
      apply honly f' (List.mem_cons_of_mem _ hf')
      intro heq
      exact hg (heq ▸ hf')
    · exact ih hmem hnodup (fun f' hf' => honly f' (List.mem_cons_of_mem _ hf')) _

end Unpacking

/-! ## Section 3: Matching -/

/-- The faces of `p` with `q` behind them, in the order of the loops. -/
def targets (w : Subdomains R) (p q : w.Proc) : List (Face R) :=
  (faces R).filter fun f => w.grid.neighbor p f = some q

theorem neighbor_ranks_of_some {p q : w.Proc} {f : Face R} (h : w.grid.neighbor p f = some q) :
    (w.plan p).neighbor_ranks f = w.grid.rank q := by
  show w.grid.neighbor_ranks p f = _
  unfold ProcessGrid.neighbor_ranks
  rw [h]

theorem has_neighbor_iff {p : w.Proc} {f : Face R} :
    (w.plan p).has_neighbor f = true ↔ ∃ q, w.grid.neighbor p f = some q := by
  unfold StructuredPlan.has_neighbor
  rw [decide_eq_true_eq]
  cases h : w.grid.neighbor p f with
  | some q => simp [neighbor_ranks_of_some h]
  | none =>
    have hrank : (w.plan p).neighbor_ranks f = -1 := by
      show w.grid.neighbor_ranks p f = _
      unfold ProcessGrid.neighbor_ranks
      rw [h]
    simp [hrank]

theorem mem_active_iff {p : w.Proc} {f : Face R} :
    f ∈ (w.plan p).active_faces ↔ ∃ q, w.grid.neighbor p f = some q := by
  rw [StructuredPlan.active_faces, List.mem_filter, has_neighbor_iff]
  exact and_iff_right (mem_faces f)

theorem filter_active (p q : w.Proc) :
    ((w.plan p).active_faces.filter fun f => w.grid.neighbor p f = some q) = w.targets p q := by
  rw [StructuredPlan.active_faces, List.filter_filter, targets]
  apply List.filter_congr
  intro f _
  by_cases h : w.grid.neighbor p f = some q
  · simp [h, has_neighbor_iff.mpr ⟨q, h⟩]
  · simp [h]

/-- The face that the neighbor sends into the receive for a face. -/
def matched (w : Subdomains R) (p : w.Proc) (f : Face R) : Face R :=
  if w.grid.neighbor p f.opposite = w.grid.neighbor p f then f else f.opposite

theorem matched_dim (p : w.Proc) (f : Face R) : (w.matched p f).dim = f.dim := by
  unfold matched
  split <;> rfl

theorem filter_eq_singleton {P : Face R → Prop} [DecidablePred P] {f : Face R}
    (h : ∀ f', P f' ↔ f' = f) : (faces R).filter (fun f' => P f') = [f] := by
  have hnodup : ((faces R).filter fun f' => P f').Nodup := nodup_faces.filter _
  have hmem : ∀ f', f' ∈ (faces R).filter (fun f' => P f') ↔ f' ∈ [f] := by
    intro f'
    simp [mem_faces, h]
  exact List.perm_singleton.mp
    ((List.perm_ext_iff_of_nodup hnodup (List.nodup_singleton f)).mpr hmem)

/-- **Matching.** The receive for a face and the send of the matched face of the
    neighbor have the same number. -/
theorem targets_matched {p q : w.Proc} {f : Face R} (h : w.grid.neighbor p f = some q) {k : Nat}
    (hk : (w.targets p q)[k]? = some f) : (w.targets q p)[k]? = some (w.matched p f) := by
  unfold matched
  by_cases hsame : w.grid.neighbor p f.opposite = w.grid.neighbor p f
  · -- both lists are one
    have hlists : w.targets q p = w.targets p q := by
      apply List.filter_congr
      intro f' _
      rw [decide_eq_decide]
      exact (ProcessGrid.neighbor_same h (hsame.trans h) f').symm
    rw [if_pos hsame, hlists, hk]
  · -- both lists have one element
    rw [h] at hsame
    have hback := ProcessGrid.neighbor_opposite.mp h
    have honly : w.grid.neighbor q f.opposite.opposite ≠ some p := by
      rw [Face.opposite_opposite]
      intro hq
      exact hsame (ProcessGrid.neighbor_opposite.mp hq)
    have hlist : w.targets p q = [f] :=
      filter_eq_singleton (ProcessGrid.neighbor_only h hsame)
    have hlist' : w.targets q p = [f.opposite] :=
      filter_eq_singleton (ProcessGrid.neighbor_only hback honly)
    rw [hlist] at hk
    rw [if_neg (h ▸ hsame), hlist']
    cases k with
    | zero => rfl
    | succ k => simp at hk

/-! ### Envelopes -/

theorem channel_inj {p q p' q' : w.Proc} :
    w.channel p q = w.channel p' q' ↔ p = p' ∧ q = q' := by
  rw [channel, channel, envelope_inj, Nat.cast_inj, Nat.cast_inj, w.grid.rank_injective.eq_iff,
    w.grid.rank_injective.eq_iff]

theorem send_envelope_eq {p q : w.Proc} {f : Face R} (h : w.grid.neighbor p f = some q) :
    w.send_envelope p f = w.channel p q := by
  rw [send_envelope, neighbor_ranks_of_some h, channel]

theorem recv_envelope_eq {p q : w.Proc} {f : Face R} (h : w.grid.neighbor p f = some q) :
    w.recv_envelope p f = w.channel q p := by
  rw [recv_envelope, neighbor_ranks_of_some h, channel]

/-! ### Sizes -/

/-- The bytes of a face. -/
def face_bytes (w : Subdomains R) (d : Fin R) : Nat :=
  (∏ k, if k = d then w.halo_widths k else w.extents k) * w.value_type.sizeof

theorem Sound.region_size (h : w.Sound) {p q : w.Proc} {f : Face R}
    (hq : w.grid.neighbor p f = some q) {r : FaceRegion R}
    (hr : r.shape = fun k => if k = f.dim then w.halo_widths k else w.extents k) :
    r.size = ∏ k, if k = f.dim then w.halo_widths k else w.extents k := by
  have hprod : ∏ k, r.shape k = ∏ k, if k = f.dim then w.halo_widths k else w.extents k := by
    rw [hr]
  have hsmall := h.small p f q hq
  rw [FaceRegion.size_eq (by omega), hprod]

theorem Sound.recv_size (h : w.Sound) {p q : w.Proc} {f : Face R}
    (hq : w.grid.neighbor p f = some q) :
    ((w.plan p).recv_region f).size * w.value_type.sizeof = w.face_bytes f.dim := by
  rw [h.region_size hq ((h.fits p).shape f).2]
  rfl

theorem Sound.send_bytes (h : w.Sound) {p q : w.Proc} {f : Face R}
    (hq : w.grid.neighbor p f = some q) :
    message_bytes w.value_type ((w.plan p).send_region f).size = some (w.face_bytes f.dim) := by
  rw [h.region_size hq ((h.fits p).shape f).1]
  exact message_bytes_eq h.transferable (h.small p f q hq)

/-- What `pack` makes of a face, from the views at the start. -/
def payload (w : Subdomains R) (views : w.Proc → w.View β) (p : w.Proc) (f : Face R) : List β :=
  pack w.layout (views p) ((w.plan p).send_region f)

theorem Sound.length_payload (h : w.Sound) (views : w.Proc → w.View β) (p : w.Proc)
    (f : Face R) : (w.payload views p f).length = w.face_bytes f.dim := by
  have hshape := ((h.fits p).shape f).1
  rw [payload, length_pack, Layout.length_order, hshape]
  rfl

/-- What arrives for a face. -/
def incoming (w : Subdomains R) (views : w.Proc → w.View β) (p : w.Proc) (f : Face R) : List β :=
  match w.grid.neighbor p f with
  | some q => w.payload views q (w.matched p f)
  | none => []

theorem incoming_eq {views : w.Proc → w.View β} {p q : w.Proc} {f : Face R}
    (h : w.grid.neighbor p f = some q) :
    w.incoming views p f = w.payload views q (w.matched p f) := by
  unfold incoming
  rw [h]

/-- The view of a process after its call. -/
def exchanged (w : Subdomains R) (views : w.Proc → w.View β) (p : w.Proc) : w.View β :=
  (w.plan p).active_faces.foldl
    (fun view f => unpack w.layout (w.incoming views p f) view ((w.plan p).recv_region f)) (views p)

end Subdomains

/-! ## Section 4: Invariant -/

/-- The sends that a call has posted. -/
def ExchangeCall.sends (active : List (Face R)) : ExchangeCall R β → List (Face R)
  | .before => []
  | .running c => c.sends
  | .returned => active

/-- The receives that a call has posted. -/
def ExchangeCall.recvs (active : List (Face R)) : ExchangeCall R β → List (Face R)
  | .before => []
  | .running c => c.recvs
  | .returned => active

section Invariant

variable {w : Subdomains R} {views : w.Proc → w.View β} {s s' : ExchangeState w β} {p : w.Proc}

/-- A call that is under way. -/
structure Running (w : Subdomains R) (views : w.Proc → w.View β) (p : w.Proc) (c : Locals R β) :
    Prop where
  prefix_of_sends : c.sends <+: (w.plan p).active_faces
  prefix_of_recvs : c.recvs <+: (w.plan p).active_faces
  packed : ∀ f ∈ (w.plan p).active_faces, c.send_buffers f = w.payload views p f
  slots : ∀ f ∈ c.recvs, ∀ q, w.grid.neighbor p f = some q →
    (w.targets p q)[c.slots f]? = some f
  arrived : ∀ f ∈ c.arrived, c.recv_buffers f = w.incoming views p f
  waiting : ∀ f ∈ (w.plan p).active_faces, f ∉ c.arrived →
    (c.recv_buffers f).length = w.face_bytes f.dim

/-- The view and the call of one process. -/
def CallInv (w : Subdomains R) (views : w.Proc → w.View β) (p : w.Proc) (view : w.View β) :
    ExchangeCall R β → Prop
  | .before => view = views p
  | .running c => view = views p ∧ Running w views p c
  | .returned => view = w.exchanged views p

/-- The messages are the faces that have been sent, in order, and the receives
    are counted. -/
structure ExchangeInv (w : Subdomains R) (views : w.Proc → w.View β) (s : ExchangeState w β) :
    Prop where
  messages : ∀ p q, s.net.messages (w.channel p q) =
    (((s.call p).sends (w.plan p).active_faces).filter
      fun f => w.grid.neighbor p f = some q).map fun f => some (w.payload views p f)
  receives : ∀ p q, s.net.receives (w.channel q p) =
    (((s.call p).recvs (w.plan p).active_faces).filter
      fun f => w.grid.neighbor p f = some q).length
  calls : ∀ p, CallInv w views p (s.view p) (s.call p)

/-- A step of one process leaves the others alone. -/
structure StepAt (p : w.Proc) (s s' : ExchangeState w β) : Prop where
  call : ∀ p', p' ≠ p → s'.call p' = s.call p'
  view : ∀ p', p' ≠ p → s'.view p' = s.view p'
  messages : ∀ p', p' ≠ p → ∀ q,
    s'.net.messages (w.channel p' q) = s.net.messages (w.channel p' q)
  receives : ∀ p', p' ≠ p → ∀ q,
    s'.net.receives (w.channel q p') = s.net.receives (w.channel q p')

theorem ExchangeInv.step_at (hinv : ExchangeInv w views s) (hstep : StepAt p s s')
    (hmessages : ∀ q, s'.net.messages (w.channel p q) =
      (((s'.call p).sends (w.plan p).active_faces).filter
        fun f => w.grid.neighbor p f = some q).map fun f => some (w.payload views p f))
    (hreceives : ∀ q, s'.net.receives (w.channel q p) =
      (((s'.call p).recvs (w.plan p).active_faces).filter
        fun f => w.grid.neighbor p f = some q).length)
    (hcall : CallInv w views p (s'.view p) (s'.call p)) : ExchangeInv w views s' := by
  constructor
  · intro p' q
    by_cases hp : p' = p
    · rw [hp]
      exact hmessages q
    · rw [hstep.messages p' hp, hstep.call p' hp]
      exact hinv.messages p' q
  · intro p' q
    by_cases hp : p' = p
    · rw [hp]
      exact hreceives q
    · rw [hstep.receives p' hp, hstep.call p' hp]
      exact hinv.receives p' q
  · intro p'
    by_cases hp : p' = p
    · rw [hp]
      exact hcall
    · rw [hstep.call p' hp, hstep.view p' hp]
      exact hinv.calls p'

theorem ExchangeInv.step_quiet (hinv : ExchangeInv w views s) (hstep : StepAt p s s')
    (hnet : s'.net = s.net)
    (hsends : (s'.call p).sends (w.plan p).active_faces =
      (s.call p).sends (w.plan p).active_faces)
    (hrecvs : (s'.call p).recvs (w.plan p).active_faces =
      (s.call p).recvs (w.plan p).active_faces)
    (hcall : CallInv w views p (s'.view p) (s'.call p)) : ExchangeInv w views s' := by
  apply hinv.step_at hstep
  · intro q
    rw [hnet, hsends]
    exact hinv.messages p q
  · intro q
    rw [hnet, hrecvs]
    exact hinv.receives p q
  · exact hcall

theorem stepAt_set_call (s : ExchangeState w β) (p : w.Proc) (call : ExchangeCall R β) :
    StepAt p s (s.set_call p call) := by
  constructor
  · intro p' hp
    exact Function.update_of_ne hp _ _
  · intro _ _
    rfl
  · intro _ _ _
    rfl
  · intro _ _ _
    rfl

theorem call_set_call (s : ExchangeState w β) (p : w.Proc) (call : ExchangeCall R β) :
    (s.set_call p call).call p = call := Function.update_self ..

theorem locals_eq_some {c : Locals R β} : s.locals p = some c ↔ s.call p = .running c := by
  unfold ExchangeState.locals
  cases h : s.call p <;> simp

theorem ExchangeInv.initial (w : Subdomains R) (views : w.Proc → w.View β) :
    ExchangeInv w views (.initial w views) := by
  constructor
  · intro p q
    rfl
  · intro p q
    rfl
  · intro p
    rfl

theorem ExchangeInv.start (hsound : w.Sound) (hinv : ExchangeInv w views s)
    {garbage : Face R → List β} (h : s.start p garbage = some s') : ExchangeInv w views s' := by
  have hcall := hinv.calls p
  unfold ExchangeState.start at h
  cases hp : s.call p with
  | running c => simp only [hp, reduceCtorEq] at h
  | returned => simp only [hp, reduceCtorEq] at h
  | before =>
    simp only [hp] at h
    rw [hp] at hcall
    have hview : s.view p = views p := hcall
    split at h
    · next hnil =>
      -- nothing to exchange
      obtain rfl := Option.some.inj h
      apply hinv.step_quiet (stepAt_set_call s p _) rfl
      · rw [call_set_call, hp]
        exact hnil
      · rw [call_set_call, hp]
        exact hnil
      · rw [call_set_call]
        show s.view p = w.exchanged views p
        rw [Subdomains.exchanged, hnil, hview]
        rfl
    · split at h
      · next hgarbage =>
        obtain rfl := Option.some.inj h
        apply hinv.step_quiet (stepAt_set_call s p _) rfl
        · rw [call_set_call, hp]
          rfl
        · rw [call_set_call, hp]
          rfl
        · rw [call_set_call]
          refine ⟨hview, List.nil_prefix, List.nil_prefix, ?_, ?_, ?_, ?_⟩
          · intro f hf
            have hneighbor := (List.mem_filter.mp hf).2
            dsimp only
            rw [if_pos hneighbor, hview]
            rfl
          · intro f hf
            cases hf
          · intro f hf
            cases hf
          · intro f hf _
            obtain ⟨q, hq⟩ := Subdomains.mem_active_iff.mp hf
            exact (hgarbage f hf).trans (hsound.recv_size hq)
      · cases h

theorem ExchangeInv.irecv (hinv : ExchangeInv w views s) (h : s.irecv p = some s') :
    ExchangeInv w views s' := by
  obtain ⟨c, hc, h⟩ := Option.bind_eq_some_iff.mp h
  obtain ⟨f, hf, h⟩ := Option.bind_eq_some_iff.mp h
  obtain ⟨_, _, h⟩ := Option.bind_eq_some_iff.mp h
  obtain rfl := Option.some.inj h
  rw [locals_eq_some] at hc
  have hcall := hinv.calls p
  rw [hc] at hcall
  obtain ⟨hview, hrun⟩ := hcall
  have hprefix := Vec.prefix_snoc hrun.prefix_of_recvs hf
  obtain ⟨q, hq⟩ := Subdomains.mem_active_iff.mp (List.mem_of_getElem? hf)
  -- the number of the receive is its place among those for the neighbor
  have hnumber : s.net.receives (w.recv_envelope p f) =
      (c.recvs.filter fun f => w.grid.neighbor p f = some q).length := by
    rw [Subdomains.recv_envelope_eq hq, hinv.receives p q, hc]
    rfl
  apply hinv.step_at (p := p)
  · constructor
    · intro p' hp
      exact Function.update_of_ne hp _ _
    · intro _ _
      rfl
    · intro _ _ _
      rfl
    · intro p' hp q'
      have hne : ¬ w.channel q' p' = w.recv_envelope p f := by
        rw [Subdomains.recv_envelope_eq hq, Subdomains.channel_inj]
        exact fun heq => hp heq.2
      show (s.net.receive _).receives _ = _
      rw [Net.receives_receive, if_neg hne]
  · intro q'
    show s.net.messages _ = (((s.set_call p _).call p).sends _ |>.filter _).map _
    rw [call_set_call, hinv.messages p q', hc]
    rfl
  · intro q'
    show (s.net.receive _).receives _ = (((s.set_call p _).call p).recvs _ |>.filter _).length
    rw [call_set_call, Net.receives_receive, Subdomains.recv_envelope_eq hq]
    show _ = ((c.recvs ++ [f]).filter fun f => w.grid.neighbor p f = some q').length
    rw [List.filter_append, List.length_append]
    have hbefore := hinv.receives p q'
    rw [hc] at hbefore
    by_cases hq' : q' = q
    · subst hq'
      rw [if_pos rfl, hbefore]
      simp [hq, ExchangeCall.recvs]
    · have hne : ¬ w.channel q' p = w.channel q p := by
        rw [Subdomains.channel_inj]
        exact fun heq => hq' heq.1
      rw [if_neg hne, hbefore]
      simp [hq, Ne.symm hq', ExchangeCall.recvs]
  · show CallInv w views p (s.view p) ((s.set_call p _).call p)
    rw [call_set_call]
    refine ⟨hview, hrun.prefix_of_sends, hprefix, hrun.packed, ?_, hrun.arrived, hrun.waiting⟩
    intro f' hf' q' hq'
    by_cases hff : f' = f
    · subst hff
      obtain rfl := Option.some.inj (hq.symm.trans hq')
      show (w.targets p q)[Function.update c.slots f' _ f']? = some f'
      rw [Function.update_self, hnumber, ← Subdomains.filter_active]
      obtain ⟨rest, hrest⟩ := hprefix
      rw [← hrest, List.append_assoc, List.filter_append, List.getElem?_append_right le_rfl,
        Nat.sub_self, List.filter_append]
      simp [hq]
    · show (w.targets p q')[Function.update c.slots f _ f']? = some f'
      rw [Function.update_of_ne hff]
      have hmem : f' ∈ c.recvs := by
        obtain hmem | hlast := List.mem_append.mp hf'
        · exact hmem
        · exact absurd (List.mem_singleton.mp hlast) hff
      exact hrun.slots f' hmem q' hq'

theorem ExchangeInv.isend (hsound : w.Sound) (hinv : ExchangeInv w views s)
    (h : s.isend p = some s') : ExchangeInv w views s' := by
  obtain ⟨c, hc, h⟩ := Option.bind_eq_some_iff.mp h
  split at h
  swap
  · cases h
  obtain ⟨f, hf, h⟩ := Option.bind_eq_some_iff.mp h
  obtain ⟨n, hn, h⟩ := Option.bind_eq_some_iff.mp h
  obtain rfl := Option.some.inj h
  rw [locals_eq_some] at hc
  have hcall := hinv.calls p
  rw [hc] at hcall
  obtain ⟨hview, hrun⟩ := hcall
  have hactive := List.mem_of_getElem? hf
  obtain ⟨q, hq⟩ := Subdomains.mem_active_iff.mp hactive
  -- the message has all the bytes of the face
  have hmessage : (c.send_buffers f).take n = w.payload views p f := by
    rw [hsound.send_bytes hq] at hn
    rw [hrun.packed f hactive, ← Option.some.inj hn, ← hsound.length_payload views p f]
    exact List.take_length
  apply hinv.step_at (p := p)
  · constructor
    · intro p' hp
      exact Function.update_of_ne hp _ _
    · intro _ _
      rfl
    · intro p' hp q'
      have hne : ¬ w.channel p' q' = w.send_envelope p f := by
        rw [Subdomains.send_envelope_eq hq, Subdomains.channel_inj]
        exact fun heq => hp heq.1
      show (s.net.post _ _).messages _ = _
      rw [Net.messages_post, if_neg hne]
    · intro _ _ _
      rfl
  · intro q'
    show (s.net.post _ _).messages _ = (((s.set_call p _).call p).sends _ |>.filter _).map _
    rw [call_set_call, Net.messages_post, Subdomains.send_envelope_eq hq, hmessage]
    show _ = ((c.sends ++ [f]).filter fun f => w.grid.neighbor p f = some q').map _
    rw [List.filter_append, List.map_append]
    have hbefore := hinv.messages p q'
    rw [hc] at hbefore
    by_cases hq' : q' = q
    · subst hq'
      rw [if_pos rfl, hbefore]
      simp [hq, ExchangeCall.sends]
    · have hne : ¬ w.channel p q' = w.channel p q := by
        rw [Subdomains.channel_inj]
        exact fun heq => hq' heq.2
      rw [if_neg hne, hbefore]
      simp [hq, Ne.symm hq', ExchangeCall.sends]
  · intro q'
    show s.net.receives _ = (((s.set_call p _).call p).recvs _ |>.filter _).length
    rw [call_set_call, hinv.receives p q', hc]
    rfl
  · show CallInv w views p (s.view p) ((s.set_call p _).call p)
    rw [call_set_call]
    exact ⟨hview, Vec.prefix_snoc hrun.prefix_of_sends hf, hrun.prefix_of_recvs, hrun.packed, hrun.slots,
      hrun.arrived, hrun.waiting⟩

theorem ExchangeInv.prefix_of_sends (hinv : ExchangeInv w views s) (q : w.Proc) :
    (s.call q).sends (w.plan q).active_faces <+: (w.plan q).active_faces := by
  have hcall := hinv.calls q
  cases hq : s.call q with
  | before => exact List.nil_prefix
  | returned => exact List.prefix_rfl
  | running c =>
    rw [hq] at hcall
    exact hcall.2.prefix_of_sends

/-- **A message is the face that matches the receive.** -/
theorem ExchangeInv.message_eq (hinv : ExchangeInv w views s) {q : w.Proc} {f : Face R}
    (hq : w.grid.neighbor p f = some q) {k : Nat} (hk : (w.targets p q)[k]? = some f) {m : List β}
    (hm : s.net.message (w.recv_envelope p f) k = some m) : m = w.incoming views p f := by
  rw [Subdomains.recv_envelope_eq hq, Net.message, hinv.messages q p, List.getElem?_map] at hm
  -- what has been sent so far are the first of all the faces that will be
  have hprefix : ((s.call q).sends (w.plan q).active_faces).filter
      (fun f => w.grid.neighbor q f = some p) <+: w.targets q p := by
    rw [← Subdomains.filter_active]
    exact (hinv.prefix_of_sends q).filter _
  obtain ⟨rest, hrest⟩ := hprefix
  cases hsent : (((s.call q).sends (w.plan q).active_faces).filter
      fun f => w.grid.neighbor q f = some p)[k]? with
  | none =>
    rw [hsent] at hm
    cases hm
  | some f' =>
    have hmatched := Subdomains.targets_matched hq hk
    rw [← hrest, List.getElem?_append_left (List.getElem?_eq_some_iff.mp hsent).1, hsent] at hmatched
    obtain rfl := Option.some.inj hmatched
    rw [hsent] at hm
    rw [Subdomains.incoming_eq hq]
    exact (Option.some.inj hm).symm

theorem ExchangeInv.deliver (hsound : w.Sound) (hinv : ExchangeInv w views s) {f : Face R}
    (h : s.deliver p f = some s') : ExchangeInv w views s' := by
  obtain ⟨c, hc, h⟩ := Option.bind_eq_some_iff.mp h
  split at h
  swap
  · cases h
  next hposted =>
  obtain ⟨m, hm, h⟩ := Option.bind_eq_some_iff.mp h
  obtain ⟨n, hn, h⟩ := Option.bind_eq_some_iff.mp h
  split at h
  swap
  · cases h
  obtain rfl := Option.some.inj h
  rw [locals_eq_some] at hc
  have hcall := hinv.calls p
  rw [hc] at hcall
  obtain ⟨hview, hrun⟩ := hcall
  have hactive := hrun.prefix_of_recvs.subset hposted.1
  obtain ⟨q, hq⟩ := Subdomains.mem_active_iff.mp hactive
  have hmessage := hinv.message_eq hq (hrun.slots f hposted.1 q hq) hm
  -- the message fills the buffer
  have hlength : m.length = w.face_bytes f.dim := by
    rw [hmessage, Subdomains.incoming_eq hq, hsound.length_payload, Subdomains.matched_dim]
  have hdrop : (c.recv_buffers f).drop m.length = [] := by
    apply List.drop_eq_nil_of_le
    rw [hrun.waiting f hactive hposted.2, hlength]
  apply hinv.step_quiet (stepAt_set_call s p _) rfl
  · rw [call_set_call, hc]
    rfl
  · rw [call_set_call, hc]
    rfl
  · rw [call_set_call]
    refine ⟨hview, hrun.prefix_of_sends, hrun.prefix_of_recvs, hrun.packed, hrun.slots, ?_, ?_⟩
    · intro f' hf'
      show Function.update c.recv_buffers f _ f' = _
      by_cases hff : f' = f
      · rw [hff, Function.update_self, hdrop, List.append_nil, hmessage]
      · rw [Function.update_of_ne hff]
        obtain heq | hmem := List.mem_cons.mp hf'
        · exact absurd heq hff
        · exact hrun.arrived f' hmem
    · intro f' hactive' hf'
      show (Function.update c.recv_buffers f _ f').length = _
      have hff : f' ≠ f := fun heq => hf' (heq ▸ List.mem_cons_self)
      rw [Function.update_of_ne hff]
      exact hrun.waiting f' hactive' fun hmem => hf' (List.mem_cons_of_mem _ hmem)

theorem ExchangeInv.finish (hinv : ExchangeInv w views s) (h : s.finish p = some s') :
    ExchangeInv w views s' := by
  obtain ⟨c, hc, h⟩ := Option.bind_eq_some_iff.mp h
  split at h
  swap
  · cases h
  next hdone =>
  obtain rfl := Option.some.inj h
  rw [locals_eq_some] at hc
  have hcall := hinv.calls p
  rw [hc] at hcall
  obtain ⟨hview, hrun⟩ := hcall
  obtain ⟨hrecvs, hsends, harrived⟩ := hdone
  have hrecvs : c.recvs = (w.plan p).active_faces := hrun.prefix_of_recvs.eq_of_length hrecvs
  have hsends : c.sends = (w.plan p).active_faces := hrun.prefix_of_sends.eq_of_length hsends
  apply hinv.step_quiet (p := p)
  · constructor
    · intro p' hp
      exact Function.update_of_ne hp _ _
    · intro p' hp
      exact Function.update_of_ne hp _ _
    · intro _ _ _
      rfl
    · intro _ _ _
      rfl
  · rfl
  · show ((s.set_call p .returned).call p).sends _ = _
    rw [call_set_call, hc]
    exact hsends.symm
  · show ((s.set_call p .returned).call p).recvs _ = _
    rw [call_set_call, hc]
    exact hrecvs.symm
  · show CallInv w views p (Function.update s.view p _ p) ((s.set_call p .returned).call p)
    rw [call_set_call, Function.update_self, hview]
    show _ = w.exchanged views p
    -- every buffer that is unpacked has arrived
    apply List.foldl_ext
    intro view f hf
    rw [hrun.arrived f (harrived f hf)]

theorem ExchangeInv.next (hsound : w.Sound) (hinv : ExchangeInv w views s)
    {l : ExchangeLabel w β} (h : s.next l = some s') : ExchangeInv w views s' := by
  cases l with
  | start p garbage => exact hinv.start hsound h
  | irecv p => exact hinv.irecv h
  | isend p => exact hinv.isend hsound h
  | deliver p f => exact hinv.deliver hsound h
  | finish p => exact hinv.finish h

/-- **The invariant** holds in every state that an exchange can reach. -/
theorem exchange_inv (hsound : w.Sound) (hr : (structured_exchange w views).Reachable s) :
    ExchangeInv w views s := by
  apply hr.invariant
  · intro s hs
    rw [show s = .initial w views from hs]
    exact .initial w views
  · intro s l s' _ hinv hstep
    exact hinv.next hsound hstep

end Invariant

/-! ## Section 5: Result -/

section Result

variable {w : Subdomains R} {views : w.Proc → w.View β}

/-- What an exchange owes the caller: each ghost cell of a face with a neighbor
    has the value of its matching cell there, and interior cells are as they
    were. -/
structure Exchanged (w : Subdomains R) (views result : w.Proc → w.View β) : Prop where
  ghosts : ∀ p f q, w.grid.neighbor p f = some q → ∀ x, w.Ghost f x →
    result p x = views q (w.matching f x)
  interior : ∀ p x, w.Interior x → result p x = views p x

/-- Where one process is behind both faces of a dimension, the layers that it
    sends low and those that it sends high have the same values. -/
def SidesAgree (w : Subdomains R) (views : w.Proc → w.View β) : Prop :=
  ∀ p f q, w.grid.neighbor p f = some q → w.grid.neighbor p f.opposite = some q →
    ∀ x, w.Ghost f x → views q (w.echo f x) = views q (w.matching f x)

theorem exchanged_interior (hsound : w.Sound) (p : w.Proc) {x : Fin R → Nat}
    (hx : w.Interior x) : w.exchanged views p x = views p x :=
  Subdomains.foldl_unpack_of_none (fun f _ => hsound.not_holds_of_interior p hx f) _

theorem exchanged_ghost (hsound : w.Sound) {p q : w.Proc} {f : Face R}
    (hq : w.grid.neighbor p f = some q) {x : Fin R → Nat} (hx : w.Ghost f x) :
    w.exchanged views p x =
      views q (if w.grid.neighbor p f.opposite = some q then w.echo f x else w.matching f x) := by
  have hshape : ((w.plan q).send_region (w.matched p f)).shape =
      ((w.plan p).recv_region f).shape := by
    rw [((hsound.fits q).shape _).1, ((hsound.fits p).shape f).2, Subdomains.matched_dim]
    rfl
  rw [Subdomains.exchanged, Subdomains.foldl_unpack_of_unique
    (Subdomains.mem_active_iff.mpr ⟨q, hq⟩) (nodup_faces.filter _)
    (fun f' _ hne => hsound.not_holds_of_ghost p hx hne) (hsound.holds_of_ghost p hx)
    (Subdomains.incoming_eq hq) hshape]
  rw [Subdomains.matched, hq]
  split
  · rw [hsound.moved_echo p q hx]
  · rw [hsound.moved_matching p q hx]

/-- **The structured exchange.** Once every call has returned, in whatever order
    the messages arrived, the ghost cells hold the matching interior cells of the
    neighbors exactly if no process is behind both faces of a dimension, or at
    least its two sides agree. -/
theorem structured_exchange_correct_iff (hsound : w.Sound) {s : ExchangeState w β}
    (hr : (structured_exchange w views).Reachable s)
    (hdone : ∀ p, (s.call p).is_returned = true) :
    Exchanged w views s.view ↔ SidesAgree w views := by
  have hinv := exchange_inv hsound hr
  have hview : ∀ p, s.view p = w.exchanged views p := by
    intro p
    have hcall := hinv.calls p
    cases hp : s.call p with
    | returned =>
      rw [hp] at hcall
      exact hcall
    | before => exact absurd (hdone p) (by simp [hp, ExchangeCall.is_returned])
    | running c => exact absurd (hdone p) (by simp [hp, ExchangeCall.is_returned])
  constructor
  · intro h p f q hq hq' x hx
    have hghost := h.ghosts p f q hq x hx
    rwa [hview, exchanged_ghost hsound hq hx, if_pos hq'] at hghost
  · intro h
    constructor
    · intro p f q hq x hx
      rw [hview, exchanged_ghost hsound hq hx]
      split
      · next hq' => exact h p f q hq hq' x hx
      · rfl
    · intro p x hx
      rw [hview, exchanged_interior hsound p hx]

section
local instance sole_dim : NeZero 1 := ⟨Nat.one_ne_zero⟩

/-- A periodic row of processes, each with two interior cells. -/
def ring (n : Nat) : Subdomains 1 where
  grid :=
    { sizes := fun _ => n
      periodic := fun _ => true
      comm_size := n
      rank := fun p => p 0
      rank_lt := fun p => (p 0).isLt
      rank_injective := by
        intro p q h
        funext d
        rw [Subsingleton.elim d 0]
        exact Fin.ext h }
  extents := fun _ => 4
  halo_widths := fun _ => 1
  layout := .right
  value_type := .char
  tag_ub := 32767
  extents_lt := fun _ => by decide
  accepted := fun _ => rfl

end

theorem sound_ring (n : Nat) : (ring n).Sound where
  no_wrap := fun _ => show 2 * 1 < 2 ^ 64 by decide
  transferable := show ValueType.char.Transferable by decide
  small := by
    intro _ f _ _
    rw [Subsingleton.elim f.dim 0]
    show (∏ k : Fin 1, if k = 0 then 1 else 4) < 2 ^ 31
    decide

theorem ring_neighbor {n : Nat} {p q : (ring n).Proc} {f : Face 1} :
    (ring n).grid.neighbor p f = some q ↔
      (if f.high then Halo.next true (p 0) else prev true (p 0)) = some (q 0) := by
  obtain ⟨d, high⟩ := f
  obtain rfl := Subsingleton.elim d 0
  rw [ProcessGrid.neighbor_eq_some]
  exact and_iff_left fun d hd => absurd (Subsingleton.elim d 0) hd

section
local instance sole_axis : NeZero 1 := ⟨Nat.one_ne_zero⟩

/-- The cells of a process by rank and place. -/
def numbered (n : Nat) (p : (ring n).Proc) : (ring n).View Nat := fun x _ => 10 * (p 0).val + x 0

end

def ring_procs (n : Nat) : List (ring n).Proc := (finRange n).map fun p _ => p

theorem mem_ring_procs {n : Nat} (p : (ring n).Proc) : p ∈ ring_procs n := by
  apply List.mem_map.mpr
  refine ⟨p 0, List.mem_finRange _, ?_⟩
  funext d
  rw [Subsingleton.elim d 0]

section
local instance sole_variable : NeZero 1 := ⟨Nat.one_ne_zero⟩

/-- One call after the other as far as it can go. -/
def ring_calls (n : Nat) : List (ExchangeLabel (ring n) Nat) :=
  (ring_procs n).map (.start · fun _ => [0]) ++ (ring_procs n).map .irecv ++
    (ring_procs n).map .irecv ++ (ring_procs n).map .isend ++ (ring_procs n).map .isend ++
    (ring_procs n).map (.deliver · ⟨0, true⟩) ++ (ring_procs n).map (.deliver · ⟨0, false⟩) ++
    (ring_procs n).map .finish

/-- The byte of the first cell. -/
def first_cell {n : Nat} (view : (ring n).View Nat) : Nat := view (fun _ => 0) (0 : Fin 1)

end

/-- The first cells of the processes after that. -/
def ring_result (n : Nat) : Option (Bool × List Nat) :=
  (System.exec ExchangeState.next (.initial (ring n) (numbered n)) (ring_calls n)).map fun s =>
    ((ring_procs n).all fun p => (s.call p).is_returned,
      (ring_procs n).map fun p => first_cell (s.view p))

theorem exists_of_ring_result {n : Nat} {cells : List Nat}
    (h : ring_result n = some (true, cells)) :
    ∃ s, (structured_exchange (ring n) (numbered n)).Reachable s ∧
      (∀ p, (s.call p).is_returned = true) ∧
      (ring_procs n).map (fun p => first_cell (s.view p)) = cells := by
  obtain ⟨s, hexec, hvalue⟩ := Option.map_eq_some_iff.mp h
  obtain ⟨hdone, hcells⟩ := Prod.mk.inj hvalue
  refine ⟨s, System.reachable_of_exec rfl hexec, ?_, hcells⟩
  intro p
  exact List.all_eq_true.mp hdone p (mem_ring_procs p)

theorem structured_exchange_ring_three :
    (ring 3).Sound ∧ ∃ s, (structured_exchange (ring 3) (numbered 3)).Reachable s ∧
      (∀ p, (s.call p).is_returned = true) ∧ Exchanged (ring 3) (numbered 3) s.view := by
  have hrun : ring_result 3 = some (true, [22, 2, 12]) := by decide +kernel
  obtain ⟨s, hreach, hdone, -⟩ := exists_of_ring_result hrun
  refine ⟨sound_ring 3, s, hreach, hdone,
    (structured_exchange_correct_iff (sound_ring 3) hreach hdone).mpr ?_⟩
  -- among three, the next one is not the one before
  have hapart : ∀ x y : Fin 3, Halo.next true x = some y → prev true x ≠ some y := by decide
  intro p f q hq hq'
  rw [ring_neighbor] at hq hq'
  obtain ⟨d, high⟩ := f
  cases high with
  | true => exact absurd hq' (hapart _ _ hq)
  | false => exact absurd hq (hapart _ _ hq')

theorem structured_exchange_ring_one :
    (ring 1).Sound ∧ ∃ s, (structured_exchange (ring 1) (numbered 1)).Reachable s ∧
      (∀ p, (s.call p).is_returned = true) ∧ ¬ Exchanged (ring 1) (numbered 1) s.view := by
  have hrun : ring_result 1 = some (true, [1]) := by decide +kernel
  obtain ⟨s, hreach, hdone, hcells⟩ := exists_of_ring_result hrun
  refine ⟨sound_ring 1, s, hreach, hdone, ?_⟩
  intro h
  have hself : (ring 1).grid.neighbor (fun _ => (0 : Fin 1)) ⟨0, false⟩ =
      some fun _ => (0 : Fin 1) := ring_neighbor.mpr rfl
  have hghost := h.ghosts _ _ _ hself (fun _ => 0)
    ⟨fun d hd => absurd (Subsingleton.elim d 0) hd, show 0 < 1 by decide⟩
  have hcell : first_cell (s.view fun _ => (0 : Fin 1)) = 1 := (List.cons.inj hcells).1
  rw [first_cell, hghost] at hcell
  exact absurd hcell (by decide)

end Result

end Halo
