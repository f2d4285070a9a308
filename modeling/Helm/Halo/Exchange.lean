import Helm.Framework.Channels
import Helm.Framework.System
import Helm.Framework.Vec
import Helm.Halo.Messages

/-! # The exchange of flat views

  All ranks exchange the segments of their flat views, round after round. In
  each round a rank calls `exchange_blocking`, `exchange_async` followed by
  `wait` or `test`, or `start` and `wait` of a `Persistent_Halo_Handle`, with
  the messages in the view itself or staged through host buffers.

  * **Plans**: the offsets of the segments of a view, as the loops add them up.
  * **Model**: one step for each MPI call. MPI may read the bytes of a message
    at any time until its send completes, and messages arrive in any order.
  * **Result**: what a view holds after a round depends on the views with which
    the ranks began that round, and on nothing else.
-/

namespace Halo

open Channels (Net read write)
open LTS

variable {β : Type}

/-! ## Section 1: Plans -/

/-- A part of a view: the neighbor it is for, and its place in elements. -/
structure Segment where
  rank : Int
  offset : Nat
  count : Nat
  deriving DecidableEq

/-- The segments of a loop over the neighbors that starts at an offset. -/
def segments : Nat → List NeighborInfo → List Segment
  | _, [] => []
  | offset, neighbor :: rest =>
    ⟨neighbor.rank, offset, neighbor.count⟩ ::
      segments (Word.add 64 offset neighbor.count) rest

section Segments

variable {offset : Nat} {neighbors : List NeighborInfo} {seg seg' : Segment}

theorem segments_map_rank (offset : Nat) (neighbors : List NeighborInfo) :
    (segments offset neighbors).map (·.rank) = neighbors.map (·.rank) := by
  induction neighbors generalizing offset with
  | nil => rfl
  | cons neighbor rest ih => exact congrArg _ (ih _)

theorem mem_neighbors_of_segment (h : seg ∈ segments offset neighbors) :
    ⟨seg.rank, seg.count⟩ ∈ neighbors := by
  induction neighbors generalizing offset with
  | nil => cases h
  | cons neighbor rest ih =>
    obtain rfl | h := List.mem_cons.mp h
    · exact List.mem_cons_self
    · exact List.mem_cons_of_mem _ (ih h)

theorem exists_segment {neighbor : NeighborInfo} (h : neighbor ∈ neighbors) :
    ∃ seg ∈ segments offset neighbors, seg.rank = neighbor.rank ∧ seg.count = neighbor.count := by
  induction neighbors generalizing offset with
  | nil => cases h
  | cons first rest ih =>
    obtain rfl | h := List.mem_cons.mp h
    · exact ⟨_, List.mem_cons_self, rfl, rfl⟩
    · obtain ⟨seg, hseg, heq⟩ := ih h
      exact ⟨seg, List.mem_cons_of_mem _ hseg, heq⟩

/-- The number of elements, when nothing wraps around. -/
def elements (neighbors : List NeighborInfo) : Nat := (neighbors.map (·.count)).sum

theorem elements_cons (neighbor : NeighborInfo) (rest : List NeighborInfo) :
    elements (neighbor :: rest) = neighbor.count + elements rest := by
  simp [elements]

theorem foldl_counts {acc : Nat} (h : acc + elements neighbors < 2 ^ 64) :
    neighbors.foldl (fun acc info => Word.add 64 acc info.count) acc = acc + elements neighbors := by
  induction neighbors generalizing acc with
  | nil => rfl
  | cons neighbor rest ih =>
    rw [elements_cons] at h ⊢
    rw [List.foldl_cons, Word.add_of_lt (by omega), ih (by omega), Nat.add_assoc]

theorem segments_bounds (h : offset + elements neighbors < 2 ^ 64)
    (hseg : seg ∈ segments offset neighbors) :
    offset ≤ seg.offset ∧ seg.offset + seg.count ≤ offset + elements neighbors := by
  induction neighbors generalizing offset with
  | nil => cases hseg
  | cons neighbor rest ih =>
    rw [elements_cons] at h ⊢
    rw [segments, Word.add_of_lt (by omega)] at hseg
    obtain rfl | hseg := List.mem_cons.mp hseg
    · exact ⟨le_rfl, by dsimp only; omega⟩
    · have := ih (by omega) hseg
      omega

theorem segments_apart (h : offset + elements neighbors < 2 ^ 64)
    (hseg : seg ∈ segments offset neighbors) (hseg' : seg' ∈ segments offset neighbors)
    (hne : seg ≠ seg') :
    seg.offset + seg.count ≤ seg'.offset ∨ seg'.offset + seg'.count ≤ seg.offset := by
  induction neighbors generalizing offset with
  | nil => cases hseg
  | cons neighbor rest ih =>
    rw [elements_cons] at h
    rw [segments, Word.add_of_lt (by omega)] at hseg hseg'
    have hlater : ∀ later ∈ segments (offset + neighbor.count) rest,
        offset + neighbor.count ≤ later.offset :=
      fun later hlater => (segments_bounds (by omega) hlater).1
    obtain rfl | hseg := List.mem_cons.mp hseg
    · obtain rfl | hseg' := List.mem_cons.mp hseg'
      · exact absurd rfl hne
      · exact Or.inl (hlater seg' hseg')
    · obtain rfl | hseg' := List.mem_cons.mp hseg'
      · exact Or.inr (hlater seg hseg)
      · exact ih (by omega) hseg hseg'

theorem ValidNeighbors.elements_lt {comm_size : Int} (h : ValidNeighbors comm_size neighbors)
    (hsize : comm_size < 2 ^ 31) (hcounts : ∀ info ∈ neighbors, info.count < 2 ^ 31) :
    elements neighbors < 2 ^ 62 := by
  have hlength : neighbors.length ≤ 2 ^ 31 - 1 := by
    have hsubset : (neighbors.map (·.rank)).toFinset ⊆ Finset.Ico 0 comm_size := by
      intro rank hrank
      obtain ⟨info, hinfo, rfl⟩ := List.mem_map.mp (List.mem_toFinset.mp hrank)
      exact Finset.mem_Ico.mpr (h.1 info hinfo)
    have hcard := Finset.card_le_card hsubset
    rw [List.toFinset_card_of_nodup h.2, List.length_map, Int.card_Ico] at hcard
    omega
  have hsum : elements neighbors ≤ (neighbors.map (·.count)).length • (2 ^ 31 - 1) := by
    apply List.sum_le_card_nsmul
    intro count hcount
    obtain ⟨info, hinfo, rfl⟩ := List.mem_map.mp hcount
    have := hcounts info hinfo
    omega
  rw [List.length_map, smul_eq_mul] at hsum
  calc elements neighbors ≤ neighbors.length * (2 ^ 31 - 1) := hsum
    _ ≤ (2 ^ 31 - 1) * (2 ^ 31 - 1) := Nat.mul_le_mul_right _ hlength
    _ < 2 ^ 62 := by norm_num

end Segments

/-- The ranks of a communicator with their plans. The plans are accepted by the
    constructor and mutually consistent. -/
structure Ranks where
  comm_size : Int
  /-- The value of `MPI_TAG_UB` -/
  tag_ub : Int
  value_type : ValueType
  plan : Int → HaloPlan Unit
  comm_size_lt : comm_size < 2 ^ 31
  accepted : ∀ p, 0 ≤ p ∧ p < comm_size →
    HaloPlan.make () comm_size (plan p).send_neighbors (plan p).recv_neighbors = .ok (plan p)
  consistent : ∀ p, 0 ≤ p ∧ p < comm_size → ∀ q, 0 ≤ q ∧ q < comm_size → ∀ count,
    ⟨q, count⟩ ∈ (plan p).recv_neighbors ↔ ⟨p, count⟩ ∈ (plan q).send_neighbors

namespace Ranks

variable (w : Ranks)

def InRange (p : Int) : Prop := 0 ≤ p ∧ p < w.comm_size

instance (p : Int) : Decidable (w.InRange p) := inferInstanceAs (Decidable (_ ∧ _))

/-- The segments that a rank sends, from the start of its view on. -/
def sends (p : Int) : List Segment := segments 0 (w.plan p).send_neighbors

/-- The segments that a rank receives, after those that it sends. -/
def recvs (p : Int) : List Segment :=
  segments (w.plan p).total_send (w.plan p).recv_neighbors

/-- The envelope of the messages from one rank to another. -/
def channel (p q : Int) : Envelope := envelope w.tag_ub w.comm_size p q

/-- The first byte of a segment. -/
def address (seg : Segment) : Nat := seg.offset * w.value_type.sizeof

def bytes (seg : Segment) : Nat := seg.count * w.value_type.sizeof

/-- `stage_send`: the bytes of a segment -/
def stage_send (view : Nat → β) (seg : Segment) : List β :=
  read view (w.address seg) (w.bytes seg)

/-- `stage_recv`: put the bytes of a buffer into a segment -/
def stage_recv (buffer : List β) (view : Nat → β) (seg : Segment) : Nat → β :=
  write view (w.address seg) buffer

/-- Every message carries all of its elements: the value type has a datatype of
    its size, or the message is empty, and the count is an `int`. -/
def Sound : Prop :=
  ∀ p, w.InRange p → ∀ info ∈ (w.plan p).send_neighbors,
    info.count < 2 ^ 31 ∧ (w.value_type.Transferable ∨ info.count = 0)

end Ranks

namespace Ranks

variable {w : Ranks} {p : Int} {seg seg' : Segment}

theorem valid (hp : w.InRange p) : ValidNeighbors w.comm_size (w.plan p).send_neighbors ∧
    ValidNeighbors w.comm_size (w.plan p).recv_neighbors ∧
      (w.plan p).total_send = sum_counts (w.plan p).send_neighbors := by
  obtain ⟨hsend, hrecv, hplan⟩ := HaloPlan.make_eq_ok.mp (w.accepted p hp)
  exact ⟨hsend, hrecv, congrArg HaloPlan.total_send hplan⟩

theorem sends_unique (hp : w.InRange p) (hseg : seg ∈ w.sends p) (hseg' : seg' ∈ w.sends p)
    (h : seg.rank = seg'.rank) : seg = seg' := by
  have hnodup := (w.valid hp).1.2
  rw [← segments_map_rank 0] at hnodup
  exact List.inj_on_of_nodup_map hnodup hseg hseg' h

theorem recvs_unique (hp : w.InRange p) (hseg : seg ∈ w.recvs p) (hseg' : seg' ∈ w.recvs p)
    (h : seg.rank = seg'.rank) : seg = seg' := by
  have hnodup := (w.valid hp).2.1.2
  rw [← segments_map_rank (w.plan p).total_send] at hnodup
  exact List.inj_on_of_nodup_map hnodup hseg hseg' h

theorem sends_nodup (hp : w.InRange p) : (w.sends p).Nodup := by
  apply List.Nodup.of_map (·.rank)
  rw [sends, segments_map_rank]
  exact (w.valid hp).1.2

theorem recvs_nodup (hp : w.InRange p) : (w.recvs p).Nodup := by
  apply List.Nodup.of_map (·.rank)
  rw [recvs, segments_map_rank]
  exact (w.valid hp).2.1.2

/-- **What is received is sent.** -/
theorem exists_sent (hp : w.InRange p) (hseg : seg ∈ w.recvs p) :
    w.InRange seg.rank ∧ ∃ seg' ∈ w.sends seg.rank, seg'.rank = p ∧ seg'.count = seg.count := by
  have hinfo := mem_neighbors_of_segment hseg
  have hrange : w.InRange seg.rank := (w.valid hp).2.1.1 _ hinfo
  refine ⟨hrange, ?_⟩
  exact exists_segment ((w.consistent p hp _ hrange seg.count).mp hinfo)

theorem Sound.recv_info (hsound : w.Sound) (hp : w.InRange p) {info : NeighborInfo}
    (hinfo : info ∈ (w.plan p).recv_neighbors) :
    info.count < 2 ^ 31 ∧ (w.value_type.Transferable ∨ info.count = 0) := by
  have hrange : w.InRange info.rank := (w.valid hp).2.1.1 _ hinfo
  exact hsound info.rank hrange ⟨p, info.count⟩ ((w.consistent p hp _ hrange info.count).mp hinfo)

theorem Sound.elements_lt (hsound : w.Sound) (hp : w.InRange p) :
    elements (w.plan p).send_neighbors < 2 ^ 62 ∧ elements (w.plan p).recv_neighbors < 2 ^ 62 :=
  ⟨(w.valid hp).1.elements_lt w.comm_size_lt fun info hinfo => (hsound p hp info hinfo).1,
    (w.valid hp).2.1.elements_lt w.comm_size_lt fun _ hinfo => (hsound.recv_info hp hinfo).1⟩

theorem Sound.total_send (hsound : w.Sound) (hp : w.InRange p) :
    (w.plan p).total_send = elements (w.plan p).send_neighbors := by
  have hlt := (hsound.elements_lt hp).1
  rw [(w.valid hp).2.2, sum_counts, foldl_counts (by omega), Nat.zero_add]

theorem address_add_bytes :
    w.address seg + w.bytes seg = (seg.offset + seg.count) * w.value_type.sizeof :=
  (Nat.add_mul ..).symm

theorem Sound.send_part_le (hsound : w.Sound) (hp : w.InRange p) (hseg : seg ∈ w.recvs p) :
    (w.plan p).total_send * w.value_type.sizeof ≤ w.address seg := by
  have hlt := hsound.elements_lt hp
  have htotal := hsound.total_send hp
  exact Nat.mul_le_mul_right _ (segments_bounds (by omega) hseg).1

theorem Sound.sends_before_recvs (hsound : w.Sound) (hp : w.InRange p) (hseg : seg ∈ w.sends p)
    (hseg' : seg' ∈ w.recvs p) : w.address seg + w.bytes seg ≤ w.address seg' := by
  have hlt := hsound.elements_lt hp
  have hle := (segments_bounds (by omega) hseg).2
  rw [Nat.zero_add, ← hsound.total_send hp] at hle
  rw [address_add_bytes]
  exact (Nat.mul_le_mul_right _ hle).trans (hsound.send_part_le hp hseg')

theorem Sound.recvs_apart (hsound : w.Sound) (hp : w.InRange p) (hseg : seg ∈ w.recvs p)
    (hseg' : seg' ∈ w.recvs p) (hne : seg ≠ seg') :
    w.address seg + w.bytes seg ≤ w.address seg' ∨
      w.address seg' + w.bytes seg' ≤ w.address seg := by
  have hlt := hsound.elements_lt hp
  have htotal := hsound.total_send hp
  rw [address_add_bytes, address_add_bytes]
  obtain h | h := segments_apart (by omega) hseg hseg' hne
  · exact Or.inl (Nat.mul_le_mul_right _ h)
  · exact Or.inr (Nat.mul_le_mul_right _ h)

theorem message_bytes_of_count {ty : ValueType} {count : Nat} (hlt : count < 2 ^ 31)
    (h : ty.Transferable ∨ count = 0) : message_bytes ty count = some (count * ty.sizeof) := by
  obtain hty | rfl := h
  · exact message_bytes_eq hty hlt
  · simp [message_bytes]

theorem Sound.send_bytes (hsound : w.Sound) (hp : w.InRange p) (hseg : seg ∈ w.sends p) :
    message_bytes w.value_type seg.count = some (w.bytes seg) := by
  obtain ⟨hlt, h⟩ := hsound p hp _ (mem_neighbors_of_segment hseg)
  exact message_bytes_of_count hlt h

end Ranks

/-! ## Section 2: Model -/

/-- How a round is made. -/
inductive Variant
  | blocking
  | async
  | persistent
  deriving DecidableEq

/-- Whether a segment may be posted after those that have been.
    `MPI_Startall` goes through its requests in any order, the loops in theirs. -/
def MayPost (variant : Variant) (all posted : List Segment) (seg : Segment) : Prop :=
  if variant = .persistent then seg ∈ all ∧ seg ∉ posted else all[posted.length]? = some seg

instance (variant : Variant) (all posted : List Segment) (seg : Segment) :
    Decidable (MayPost variant all posted seg) :=
  inferInstanceAs (Decidable (if variant = .persistent then seg ∈ all ∧ seg ∉ posted
    else all[posted.length]? = some seg))

/-- A round that is under way. -/
structure RoundLocals (β : Type) where
  variant : Variant
  /-- Whether the messages go through host buffers. -/
  staged : Bool
  /-- The view when the round began. -/
  before : Nat → β
  send_buffers : Segment → List β
  recv_buffers : Segment → List β
  /-- The receives and sends that have been posted, with their numbers on their
      envelopes. -/
  recvs : List Segment
  recv_slots : Segment → Nat
  sends : List Segment
  send_slots : Segment → Nat
  /-- The sends whose bytes have been read. -/
  filled : List Segment
  /-- The receives that have completed. -/
  arrived : List Segment

namespace RoundLocals

/-- Nothing has been posted. -/
def begin (variant : Variant) (staged : Bool) (before : Nat → β)
    (send_buffers recv_buffers : Segment → List β) : RoundLocals β :=
  { variant, staged, before, send_buffers, recv_buffers
    recvs := []
    recv_slots := fun _ => 0
    sends := []
    send_slots := fun _ => 0
    filled := []
    arrived := [] }

variable (c : RoundLocals β) (seg : Segment)

def recv_posted (slot : Nat) : RoundLocals β :=
  { c with recvs := c.recvs ++ [seg], recv_slots := Function.update c.recv_slots seg slot }

def send_posted (slot : Nat) : RoundLocals β :=
  { c with sends := c.sends ++ [seg], send_slots := Function.update c.send_slots seg slot }

/-- The functions stage a segment just before they send it. -/
def stage (buffer : List β) : RoundLocals β :=
  { c with
    send_buffers :=
      if c.variant = .persistent then c.send_buffers
      else Function.update c.send_buffers seg buffer }

def send_filled : RoundLocals β := { c with filled := seg :: c.filled }

def recv_arrived : RoundLocals β := { c with arrived := seg :: c.arrived }

/-- A message that is shorter than the buffer leaves the rest as it was. -/
def buffered (m : List β) : RoundLocals β :=
  { c with
    recv_buffers := Function.update c.recv_buffers seg
      (m ++ (c.recv_buffers seg).drop m.length) }

end RoundLocals

/-- A round that is over: the view when it began and when it ended. -/
structure Round (β : Type) where
  before : Nat → β
  after : Nat → β

structure RanksState (β : Type) where
  memory : Int → Nat → β
  call : Int → Option (RoundLocals β)
  rounds : Int → List (Round β)
  net : Net Envelope (List β)

inductive RanksLabel (β : Type)
  /-- The host changes the view between two rounds. -/
  | host (p : Int) (view : Nat → β)
  /-- A round begins. Host buffers hold anything at first; those of a persistent
      handle hold what the last round left. -/
  | start (p : Int) (variant : Variant) (staged : Bool) (garbage : Segment → List β)
  | irecv (p : Int) (seg : Segment)
  | isend (p : Int) (seg : Segment)
  /-- MPI reads the bytes of a message. -/
  | fill (p : Int) (seg : Segment)
  /-- A message arrives. -/
  | deliver (p : Int) (seg : Segment)
  /-- `test` returns false. -/
  | poll (p : Int)
  /-- `MPI_Waitall` returns, or `test` returns true. -/
  | finish (p : Int)

namespace RanksState

variable (w : Ranks) (s : RanksState β)

def set_memory (p : Int) (view : Nat → β) : RanksState β :=
  { s with memory := Function.update s.memory p view }

/-- The round goes on. -/
def advance (p : Int) (c : RoundLocals β) (view : Nat → β) (net : Net Envelope (List β)) :
    RanksState β :=
  { s with
    call := Function.update s.call p (some c)
    memory := Function.update s.memory p view
    net := net }

/-- The round is over. -/
def end_round (p : Int) (round : Round β) : RanksState β :=
  { s with
    call := Function.update s.call p none
    memory := Function.update s.memory p round.after
    rounds := Function.update s.rounds p (s.rounds p ++ [round]) }

def host (p : Int) (view : Nat → β) : Option (RanksState β) :=
  if w.InRange p ∧ (s.call p).isNone then some (s.set_memory p view) else none

/-- An early return without neighbors. `Persistent_Halo_Handle::start` packs all
    segments at once. -/
def start (p : Int) (variant : Variant) (staged : Bool) (garbage : Segment → List β) :
    Option (RanksState β) :=
  if w.InRange p ∧ (s.call p).isNone then
    if w.sends p = [] ∧ w.recvs p = [] then
      some (s.end_round p ⟨s.memory p, s.memory p⟩)
    else if ∀ seg ∈ w.recvs p, (garbage seg).length = w.bytes seg then
      some (s.advance p
        (.begin variant staged (s.memory p)
          (if variant = .persistent then w.stage_send (s.memory p) else fun _ => []) garbage)
        (s.memory p) s.net)
    else none
  else none

/-- `MPI_Irecv`. A negative count is an exception, and the round does not go on. -/
def irecv (p : Int) (seg : Segment) : Option (RanksState β) := do
  let c ← s.call p
  let _ ← message_bytes w.value_type seg.count
  if MayPost c.variant (w.recvs p) c.recvs seg then
    some (s.advance p (c.recv_posted seg (s.net.receives (w.channel seg.rank p))) (s.memory p)
      (s.net.receive (w.channel seg.rank p)))
  else none

/-- `MPI_Isend`, after all receives -/
def isend (p : Int) (seg : Segment) : Option (RanksState β) := do
  let c ← s.call p
  let _ ← message_bytes w.value_type seg.count
  if (c.variant = .persistent ∨ c.recvs.length = (w.recvs p).length) ∧
      MayPost c.variant (w.sends p) c.sends seg then
    some (s.advance p
      ((c.stage seg (w.stage_send (s.memory p) seg)).send_posted seg
        (s.net.messages (w.channel p seg.rank)).length)
      (s.memory p) (s.net.post (w.channel p seg.rank) none))
  else none

/-- The bytes are those of the buffer, or of the view as it is now. -/
def fill (p : Int) (seg : Segment) : Option (RanksState β) := do
  let c ← s.call p
  let n ← message_bytes w.value_type seg.count
  if seg ∈ c.sends ∧ seg ∉ c.filled then
    some (s.advance p (c.send_filled seg) (s.memory p)
      (s.net.fill (w.channel p seg.rank) (c.send_slots seg)
        (if c.staged then (c.send_buffers seg).take n
        else read (s.memory p) (w.address seg) n)))
  else none

/-- A message that is longer than the receive is an error of MPI. -/
def deliver (p : Int) (seg : Segment) : Option (RanksState β) := do
  let c ← s.call p
  let m ← s.net.message (w.channel seg.rank p) (c.recv_slots seg)
  let n ← message_bytes w.value_type seg.count
  if seg ∈ c.recvs ∧ seg ∉ c.arrived ∧ m.length ≤ n then
    if c.staged then
      some (s.advance p ((c.buffered seg m).recv_arrived seg) (s.memory p) s.net)
    else
      some (s.advance p (c.recv_arrived seg) (write (s.memory p) (w.address seg) m) s.net)
  else none

def poll (p : Int) : Option (RanksState β) :=
  if (s.call p).isSome then some s else none

/-- All requests have completed, and what was staged is copied into the view. -/
def finish (p : Int) : Option (RanksState β) := do
  let c ← s.call p
  if (∀ seg ∈ w.recvs p, seg ∈ c.arrived) ∧ ∀ seg ∈ w.sends p, seg ∈ c.filled then
    let after :=
      if c.staged then
        (w.recvs p).foldl (fun view seg => w.stage_recv (c.recv_buffers seg) view seg) (s.memory p)
      else s.memory p
    some (s.end_round p ⟨c.before, after⟩)
  else none

def next (s : RanksState β) : RanksLabel β → Option (RanksState β)
  | .host p view => s.host w p view
  | .start p variant staged garbage => s.start w p variant staged garbage
  | .irecv p seg => s.irecv w p seg
  | .isend p seg => s.isend w p seg
  | .fill p seg => s.fill w p seg
  | .deliver p seg => s.deliver w p seg
  | .poll p => s.poll p
  | .finish p => s.finish w p

/-- The views with which a rank has begun its rounds. -/
def started (p : Int) : List (Nat → β) :=
  (s.rounds p).map (·.before) ++ ((s.call p).map (·.before)).toList

end RanksState

/-- Nobody has begun a round. -/
def RanksState.initial (views : Int → Nat → β) : RanksState β :=
  ⟨views, fun _ => none, fun _ => [], .empty⟩

/-- All ranks exchange, from these views on. -/
def flat_exchange (w : Ranks) (views : Int → Nat → β) : System (RanksState β) (RanksLabel β) :=
  .ofNext (fun s => s = .initial views) (RanksState.next w)

/-! ## Section 3: Views -/

section Views

variable {w : Ranks} {started started' : Int → List (Nat → β)} {p : Int} {k : Nat}
  {seg : Segment} {m m' : List β}

/-- The bytes are those of the segment that the neighbor addressed to this rank,
    in the view with which the neighbor began its round of the same number. -/
def Received (w : Ranks) (started : Int → List (Nat → β)) (p : Int) (k : Nat) (seg : Segment)
    (m : List β) : Prop :=
  ∃ view, (started seg.rank)[k]? = some view ∧
    ∃ seg' ∈ w.sends seg.rank, seg'.rank = p ∧ seg'.count = seg.count ∧ m = w.stage_send view seg'

theorem Received.length (h : Received w started p k seg m) : m.length = w.bytes seg := by
  obtain ⟨view, _, seg', _, _, hcount, rfl⟩ := h
  rw [Ranks.stage_send, Channels.length_read, Ranks.bytes, Ranks.bytes, hcount]

theorem Received.mono (h : Received w started p k seg m)
    (hstarted : ∀ q, started q <+: started' q) : Received w started' p k seg m := by
  obtain ⟨view, hview, hsent⟩ := h
  exact ⟨view, Vec.getElem?_of_prefix (hstarted seg.rank) hview, hsent⟩

theorem Received.unique (hrange : w.InRange seg.rank) (h : Received w started p k seg m)
    (h' : Received w started' p k seg m')
    (hviews : ∀ view view', (started seg.rank)[k]? = some view →
      (started' seg.rank)[k]? = some view' → view = view') : m = m' := by
  obtain ⟨view, hview, sent, hsent, hrank, _, rfl⟩ := h
  obtain ⟨view', hview', sent', hsent', hrank', _, rfl⟩ := h'
  rw [hviews view view' hview hview',
    w.sends_unique hrange hsent hsent' (hrank.trans hrank'.symm)]

/-- A view where some segments have been received and nothing else has changed. -/
structure Holds (w : Ranks) (started : Int → List (Nat → β)) (p : Int) (k : Nat)
    (before : Nat → β) (arrived : List Segment) (view : Nat → β) : Prop where
  received : ∀ seg ∈ arrived, Received w started p k seg (w.stage_send view seg)
  frame : ∀ a, (∀ seg ∈ arrived, a < w.address seg ∨ w.address seg + w.bytes seg ≤ a) →
    view a = before a

variable {before view : Nat → β} {arrived arrived' : List Segment}

theorem Holds.nil (w : Ranks) (started : Int → List (Nat → β)) (p : Int) (k : Nat)
    (before : Nat → β) : Holds w started p k before [] before := by
  constructor
  · intro seg hseg
    cases hseg
  · intro _ _
    rfl

theorem Holds.mono (h : Holds w started p k before arrived view)
    (hstarted : ∀ q, started q <+: started' q) : Holds w started' p k before arrived view :=
  ⟨fun seg hseg => (h.received seg hseg).mono hstarted, h.frame⟩

theorem Holds.congr (h : Holds w started p k before arrived view)
    (hmem : ∀ seg, seg ∈ arrived ↔ seg ∈ arrived') :
    Holds w started p k before arrived' view := by
  constructor
  · intro seg hseg
    exact h.received seg ((hmem seg).mpr hseg)
  · intro a ha
    exact h.frame a fun seg hseg => ha seg ((hmem seg).mp hseg)

theorem Holds.write (hsound : w.Sound) (hp : w.InRange p)
    (h : Holds w started p k before arrived view) (harrived : arrived ⊆ w.recvs p)
    (hseg : seg ∈ w.recvs p) (hm : Received w started p k seg m) :
    Holds w started p k before (seg :: arrived) (w.stage_recv m view seg) := by
  have hlength := hm.length
  constructor
  · intro seg' hseg'
    by_cases heq : seg' = seg
    · subst heq
      rw [Ranks.stage_send, Ranks.stage_recv, Channels.read_write hlength]
      exact hm
    · -- it lies elsewhere
      have hmem : seg' ∈ arrived := by
        obtain hhead | hmem := List.mem_cons.mp hseg'
        · exact absurd hhead heq
        · exact hmem
      have hapart := hsound.recvs_apart hp (harrived hmem) hseg heq
      have hsame : w.stage_send (w.stage_recv m view seg) seg' = w.stage_send view seg' := by
        apply Channels.read_write_of_disjoint
        rw [hlength]
        exact hapart
      rw [hsame]
      exact h.received seg' hmem
  · intro a ha
    have houtside := ha seg List.mem_cons_self
    rw [← hlength] at houtside
    rw [Ranks.stage_recv, Channels.write_of_outside houtside]
    exact h.frame a fun seg' hseg' => ha seg' (List.mem_cons_of_mem _ hseg')

theorem Holds.stage_recv_all (hsound : w.Sound) (hp : w.InRange p) {buffers : Segment → List β}
    {rest : List Segment} (hrest : rest ⊆ w.recvs p) (harrived : arrived ⊆ w.recvs p)
    (hbuffers : ∀ seg ∈ rest, Received w started p k seg (buffers seg))
    (h : Holds w started p k before arrived view) :
    Holds w started p k before (rest.reverse ++ arrived)
      (rest.foldl (fun view seg => w.stage_recv (buffers seg) view seg) view) := by
  induction rest generalizing arrived view with
  | nil => exact h
  | cons seg rest ih =>
    have hseg : seg ∈ w.recvs p := hrest List.mem_cons_self
    have hnext := h.write hsound hp harrived hseg (hbuffers seg List.mem_cons_self)
    have hall := ih (fun x hx => hrest (List.mem_cons_of_mem _ hx))
      (List.cons_subset.mpr ⟨hseg, harrived⟩)
      (fun x hx => hbuffers x (List.mem_cons_of_mem _ hx)) hnext
    rw [List.reverse_cons, List.append_assoc]
    exact hall

theorem Holds.send_eq (hsound : w.Sound) (hp : w.InRange p)
    (h : Holds w started p k before arrived view) (harrived : arrived ⊆ w.recvs p)
    (hseg : seg ∈ w.sends p) : w.stage_send view seg = w.stage_send before seg := by
  apply Channels.read_congr
  intro i hi
  apply h.frame
  intro seg' hseg'
  have := hsound.sends_before_recvs hp hseg (harrived hseg')
  omega

end Views

/-! ## Section 4: Invariant -/

section Posted

variable {variant : Variant} {all posted : List Segment} {seg : Segment}

/-- What has been posted so far. -/
def Posted (variant : Variant) (all posted : List Segment) : Prop :=
  if variant = .persistent then posted ⊆ all else posted <+: all

theorem Posted.nil (variant : Variant) (all : List Segment) : Posted variant all [] := by
  unfold Posted
  split
  · exact List.nil_subset _
  · exact List.nil_prefix

theorem Posted.subset (h : Posted variant all posted) : posted ⊆ all := by
  unfold Posted at h
  split at h
  · exact h
  · exact h.subset

theorem Posted.fresh (hnodup : all.Nodup) (h : Posted variant all posted)
    (hseg : MayPost variant all posted seg) : seg ∈ all ∧ seg ∉ posted := by
  unfold Posted at h
  unfold MayPost at hseg
  split at h
  · next hvariant => rwa [if_pos hvariant] at hseg
  · next hvariant =>
    rw [if_neg hvariant] at hseg
    refine ⟨List.mem_of_getElem? hseg, ?_⟩
    intro hmem
    have hsnoc := (Vec.prefix_snoc h hseg).sublist.nodup hnodup
    exact List.disjoint_of_nodup_append hsnoc hmem List.mem_cons_self

theorem Posted.snoc (h : Posted variant all posted) (hseg : MayPost variant all posted seg) :
    Posted variant all (posted ++ [seg]) := by
  unfold Posted at h ⊢
  unfold MayPost at hseg
  split at h
  · next hvariant =>
    rw [if_pos hvariant] at hseg ⊢
    exact List.append_subset.mpr ⟨h, List.cons_subset.mpr ⟨hseg.1, List.nil_subset _⟩⟩
  · next hvariant =>
    rw [if_neg hvariant] at hseg ⊢
    exact Vec.prefix_snoc h hseg

end Posted

section Invariant

variable {w : Ranks} {s s' : RanksState β} {p : Int} {seg : Segment}

/-- The message of this round to a neighbor, if it has been posted. -/
def outgoing (w : Ranks) (call : Option (RoundLocals β)) (seg : Segment) :
    List (Option (List β)) :=
  match call with
  | none => []
  | some c =>
    if seg ∈ c.sends then
      [if seg ∈ c.filled then some (w.stage_send c.before seg) else none]
    else []

/-- The receives of this round for a neighbor. -/
def incoming (call : Option (RoundLocals β)) (seg : Segment) : Nat :=
  match call with
  | none => 0
  | some c => if seg ∈ c.recvs then 1 else 0

/-- The `k`-th round of a rank, under way. -/
structure RoundInv (w : Ranks) (started : Int → List (Nat → β)) (view : Nat → β) (p : Int) (k : Nat)
    (c : RoundLocals β) : Prop where
  sends : Posted c.variant (w.sends p) c.sends
  recvs : Posted c.variant (w.recvs p) c.recvs
  send_slots : ∀ seg ∈ c.sends, c.send_slots seg = k
  recv_slots : ∀ seg ∈ c.recvs, c.recv_slots seg = k
  filled : c.filled ⊆ c.sends
  arrived : c.arrived ⊆ c.recvs
  packed : ∀ seg, c.variant = .persistent ∨ seg ∈ c.sends →
    c.send_buffers seg = w.stage_send c.before seg
  waiting : ∀ seg ∈ w.recvs p, seg ∉ c.arrived → (c.recv_buffers seg).length = w.bytes seg
  staged : c.staged = true → view = c.before ∧
    ∀ seg ∈ c.arrived, Received w started p k seg (c.recv_buffers seg)
  direct : c.staged = false → Holds w started p k c.before c.arrived view

/-- On each envelope there is one message and one receive for each round. -/
structure RanksInv (w : Ranks) (s : RanksState β) : Prop where
  in_range : ∀ p, s.call p ≠ none ∨ s.rounds p ≠ [] → w.InRange p
  messages : ∀ p, w.InRange p → ∀ seg ∈ w.sends p,
    s.net.messages (w.channel p seg.rank) =
      (s.rounds p).map (fun round => some (w.stage_send round.before seg)) ++
        outgoing w (s.call p) seg
  receives : ∀ p, w.InRange p → ∀ seg ∈ w.recvs p,
    s.net.receives (w.channel seg.rank p) = (s.rounds p).length + incoming (s.call p) seg
  calls : ∀ p c, s.call p = some c →
    RoundInv w s.started (s.memory p) p (s.rounds p).length c
  rounds : ∀ p k round, (s.rounds p)[k]? = some round →
    Holds w s.started p k round.before (w.recvs p) round.after

theorem Ranks.channel_inj {p q p' q' : Int} :
    w.channel p q = w.channel p' q' ↔ p = p' ∧ q = q' := envelope_inj

theorem RanksState.call_advance (s : RanksState β) (p : Int) (c : RoundLocals β)
    (view : Nat → β) (net : Net Envelope (List β)) : (s.advance p c view net).call p = some c :=
  Function.update_self ..

theorem RanksState.memory_advance (s : RanksState β) (p : Int) (c : RoundLocals β)
    (view : Nat → β) (net : Net Envelope (List β)) : (s.advance p c view net).memory p = view :=
  Function.update_self ..

theorem RanksState.started_of_call {c : RoundLocals β} (h : s.call p = some c) :
    s.started p = (s.rounds p).map (·.before) ++ [c.before] := by
  rw [started, h]
  rfl

/-- A step of one rank leaves the others alone. -/
structure RanksStepAt (w : Ranks) (p : Int) (s s' : RanksState β) : Prop where
  memory : ∀ p', p' ≠ p → s'.memory p' = s.memory p'
  call : ∀ p', p' ≠ p → s'.call p' = s.call p'
  rounds : ∀ p', p' ≠ p → s'.rounds p' = s.rounds p'
  messages : ∀ p', p' ≠ p → ∀ q,
    s'.net.messages (w.channel p' q) = s.net.messages (w.channel p' q)
  receives : ∀ p', p' ≠ p → ∀ q,
    s'.net.receives (w.channel q p') = s.net.receives (w.channel q p')

theorem RanksStepAt.started (h : RanksStepAt w p s s') {p' : Int} (hp' : p' ≠ p) :
    s'.started p' = s.started p' := by
  rw [RanksState.started, RanksState.started, h.rounds p' hp', h.call p' hp']

theorem RoundInv.begin {started : Int → List (Nat → β)} {view : Nat → β} {k : Nat}
    {variant : Variant} {staged : Bool} {send_buffers recv_buffers : Segment → List β}
    (hpacked : variant = .persistent → send_buffers = w.stage_send view)
    (hwaiting : ∀ seg ∈ w.recvs p, (recv_buffers seg).length = w.bytes seg) :
    RoundInv w started view p k (.begin variant staged view send_buffers recv_buffers) := by
  constructor
  · exact .nil _ _
  · exact .nil _ _
  · intro seg hseg
    cases hseg
  · intro seg hseg
    cases hseg
  · exact List.nil_subset _
  · exact List.nil_subset _
  · intro seg h
    obtain hvariant | hseg := h
    · exact congrFun (hpacked hvariant) seg
    · cases hseg
  · intro seg hseg _
    exact hwaiting seg hseg
  · intro _
    refine ⟨rfl, ?_⟩
    intro seg hseg
    cases hseg
  · intro _
    exact .nil ..

theorem RoundInv.mono {started started' : Int → List (Nat → β)} {view : Nat → β} {k : Nat}
    {c : RoundLocals β} (h : RoundInv w started view p k c)
    (hstarted : ∀ q, started q <+: started' q) : RoundInv w started' view p k c :=
  { h with
    staged := fun hstaged =>
      ⟨(h.staged hstaged).1, fun seg hseg => ((h.staged hstaged).2 seg hseg).mono hstarted⟩
    direct := fun hdirect => (h.direct hdirect).mono hstarted }

/-- So the invariant is a matter of the rank that steps. -/
theorem RanksInv.step_at (hinv : RanksInv w s) (hstep : RanksStepAt w p s s')
    (hp : w.InRange p) (hstarted : s.started p <+: s'.started p)
    (hmessages : ∀ seg ∈ w.sends p, s'.net.messages (w.channel p seg.rank) =
      (s'.rounds p).map (fun round => some (w.stage_send round.before seg)) ++
        outgoing w (s'.call p) seg)
    (hreceives : ∀ seg ∈ w.recvs p, s'.net.receives (w.channel seg.rank p) =
      (s'.rounds p).length + incoming (s'.call p) seg)
    (hcalls : ∀ c, s'.call p = some c →
      RoundInv w s'.started (s'.memory p) p (s'.rounds p).length c)
    (hrounds : ∀ k round, (s'.rounds p)[k]? = some round → (s.rounds p)[k]? ≠ some round →
      Holds w s'.started p k round.before (w.recvs p) round.after) : RanksInv w s' := by
  have hmono : ∀ q, s.started q <+: s'.started q := by
    intro q
    by_cases hq : q = p
    · rw [hq]
      exact hstarted
    · rw [hstep.started hq]
  constructor
  · intro p' h
    by_cases hp' : p' = p
    · rw [hp']
      exact hp
    · rw [hstep.call p' hp', hstep.rounds p' hp'] at h
      exact hinv.in_range p' h
  · intro p' hrange seg hseg
    by_cases hp' : p' = p
    · subst hp'
      exact hmessages seg hseg
    · rw [hstep.messages p' hp', hstep.call p' hp', hstep.rounds p' hp']
      exact hinv.messages p' hrange seg hseg
  · intro p' hrange seg hseg
    by_cases hp' : p' = p
    · subst hp'
      exact hreceives seg hseg
    · rw [hstep.receives p' hp', hstep.call p' hp', hstep.rounds p' hp']
      exact hinv.receives p' hrange seg hseg
  · intro p' c hc
    by_cases hp' : p' = p
    · subst hp'
      exact hcalls c hc
    · rw [hstep.call p' hp'] at hc
      rw [hstep.memory p' hp', hstep.rounds p' hp']
      exact (hinv.calls p' c hc).mono hmono
  · intro p' k round hround
    by_cases hp' : p' = p
    · subst hp'
      by_cases hold : (s.rounds p')[k]? = some round
      · exact (hinv.rounds p' k round hold).mono hmono
      · exact hrounds k round hround hold
    · rw [hstep.rounds p' hp'] at hround
      exact (hinv.rounds p' k round hround).mono hmono

theorem RanksInv.in_range_of_call (hinv : RanksInv w s) {c : RoundLocals β}
    (hc : s.call p = some c) : w.InRange p := by
  apply hinv.in_range p
  left
  rw [hc]
  exact Option.some_ne_none c

theorem ranksStepAt_advance {c : RoundLocals β} {view : Nat → β} {net : Net Envelope (List β)}
    (hmessages : ∀ p', p' ≠ p → ∀ q,
      net.messages (w.channel p' q) = s.net.messages (w.channel p' q))
    (hreceives : ∀ p', p' ≠ p → ∀ q,
      net.receives (w.channel q p') = s.net.receives (w.channel q p')) :
    RanksStepAt w p s (s.advance p c view net) := by
  constructor
  · intro p' hp'
    exact Function.update_of_ne hp' _ _
  · intro p' hp'
    exact Function.update_of_ne hp' _ _
  · intro _ _
    rfl
  · exact hmessages
  · exact hreceives

theorem RanksInv.advance (hinv : RanksInv w s) {c c' : RoundLocals β} {view : Nat → β}
    {net : Net Envelope (List β)} (hc : s.call p = some c) (hbefore : c'.before = c.before)
    (hothers : RanksStepAt w p s (s.advance p c' view net))
    (hmessages : ∀ seg ∈ w.sends p, net.messages (w.channel p seg.rank) =
      (s.rounds p).map (fun round => some (w.stage_send round.before seg)) ++
        outgoing w (some c') seg)
    (hreceives : ∀ seg ∈ w.recvs p, net.receives (w.channel seg.rank p) =
      (s.rounds p).length + incoming (some c') seg)
    (hround : RoundInv w s.started view p (s.rounds p).length c') :
    RanksInv w (s.advance p c' view net) := by
  have hc' := s.call_advance p c' view net
  have hsame : (s.advance p c' view net).started p = s.started p := by
    rw [RanksState.started_of_call hc, RanksState.started_of_call hc', hbefore]
    rfl
  have hstarted : (s.advance p c' view net).started = s.started := by
    funext q
    by_cases hq : q = p
    · rw [hq, hsame]
    · exact hothers.started hq
  apply hinv.step_at hothers (hinv.in_range_of_call hc)
  · rw [hsame]
  · rw [hc']
    exact hmessages
  · rw [hc']
    exact hreceives
  · intro c'' hc''
    obtain rfl := Option.some.inj (hc'.symm.trans hc'')
    rw [hstarted, RanksState.memory_advance]
    exact hround
  · intro k round hround hnew
    exact absurd hround hnew

theorem RanksInv.initial (w : Ranks) (views : Int → Nat → β) : RanksInv w (.initial views) := by
  constructor
  · intro p h
    obtain h | h := h
    · exact absurd rfl h
    · exact absurd rfl h
  · intro p _ seg _
    rfl
  · intro p _ seg _
    rfl
  · intro p c hc
    cases hc
  · intro p k round hround
    cases hround

/-- **A message is the segment that the sender addressed to this rank.** -/
theorem RanksInv.message_eq (hinv : RanksInv w s) (hp : w.InRange p) (hseg : seg ∈ w.recvs p)
    {k : Nat} {m : List β} (hm : s.net.message (w.channel seg.rank p) k = some m) :
    Received w s.started p k seg m := by
  obtain ⟨hrange, sent, hsent, hrank, hcount⟩ := w.exists_sent hp hseg
  have hmessages := hinv.messages seg.rank hrange sent hsent
  rw [hrank] at hmessages
  rw [Net.message, hmessages, Option.join_eq_some_iff] at hm
  suffices hview : ∃ view, (s.started seg.rank)[k]? = some view ∧ m = w.stage_send view sent by
    obtain ⟨view, hview, hm⟩ := hview
    exact ⟨view, hview, sent, hsent, hrank, hcount, hm⟩
  obtain hk | hk := Nat.lt_or_ge k (s.rounds seg.rank).length
  · -- a message of a round that is over
    rw [List.getElem?_append_left (by rwa [List.length_map]), List.getElem?_map] at hm
    obtain ⟨round, hround, heq⟩ := Option.map_eq_some_iff.mp hm
    refine ⟨round.before, ?_, (Option.some.inj heq).symm⟩
    rw [RanksState.started, List.getElem?_append_left (by rwa [List.length_map]),
      List.getElem?_map, hround]
    rfl
  · -- the message of the round that is under way
    rw [List.getElem?_append_right (by rwa [List.length_map]), List.length_map] at hm
    cases hc : s.call seg.rank with
    | none =>
      rw [hc] at hm
      cases hm
    | some c =>
      rw [hc] at hm
      unfold outgoing at hm
      dsimp only at hm
      split at hm
      swap
      · cases hm
      rw [List.getElem?_singleton] at hm
      obtain ⟨hzero, hm⟩ := Option.ite_none_right_eq_some.mp hm
      obtain ⟨-, hm⟩ := Option.ite_none_right_eq_some.mp (Option.some.inj hm)
      refine ⟨c.before, ?_, (Option.some.inj hm).symm⟩
      rw [RanksState.started_of_call hc, List.getElem?_append_right (by rwa [List.length_map]),
        List.length_map, hzero]
      rfl

theorem ranksStepAt_of_idle (hnet : s'.net = s.net)
    (hmemory : ∀ p', p' ≠ p → s'.memory p' = s.memory p')
    (hcall : ∀ p', p' ≠ p → s'.call p' = s.call p')
    (hrounds : ∀ p', p' ≠ p → s'.rounds p' = s.rounds p') : RanksStepAt w p s s' := by
  constructor
  · exact hmemory
  · exact hcall
  · exact hrounds
  · intro _ _ _
    rw [hnet]
  · intro _ _ _
    rw [hnet]

/-- A round ends. -/
theorem RanksInv.end_round (hinv : RanksInv w s) (hp : w.InRange p) {round : Round β}
    (hbefore : ∀ c, s.call p = some c → c.before = round.before)
    (hsent : ∀ seg ∈ w.sends p, outgoing w (s.call p) seg = [some (w.stage_send round.before seg)])
    (hreceived : ∀ seg ∈ w.recvs p, incoming (s.call p) seg = 1)
    (hholds : Holds w s.started p (s.rounds p).length round.before (w.recvs p) round.after) :
    RanksInv w (s.end_round p round) := by
  have hcall : (s.end_round p round).call p = none := Function.update_self ..
  have hrounds : (s.end_round p round).rounds p = s.rounds p ++ [round] := Function.update_self ..
  have hothers : RanksStepAt w p s (s.end_round p round) :=
    ranksStepAt_of_idle rfl (fun p' hp' => Function.update_of_ne hp' _ _)
      (fun p' hp' => Function.update_of_ne hp' _ _) fun p' hp' => Function.update_of_ne hp' _ _
  have hstarted : s.started p <+: (s.end_round p round).started p := by
    rw [RanksState.started, RanksState.started, hcall, hrounds, List.map_append]
    cases hc : s.call p with
    | none => exact ⟨[round.before], by simp⟩
    | some c => exact ⟨[], by simp [hbefore c hc]⟩
  apply hinv.step_at hothers hp hstarted
  · intro seg hseg
    show s.net.messages _ = _
    rw [hinv.messages p hp seg hseg, hsent seg hseg, hcall, hrounds, List.map_append]
    exact (List.append_nil _).symm
  · intro seg hseg
    show s.net.receives _ = _
    rw [hinv.receives p hp seg hseg, hreceived seg hseg, hcall, hrounds, List.length_append]
    rfl
  · intro c hc
    cases hcall.symm.trans hc
  · intro k round' hround hnew
    rw [hrounds] at hround
    -- the one round that is new
    obtain hk | hk := Nat.lt_or_ge k (s.rounds p).length
    · rw [List.getElem?_append_left hk] at hround
      exact absurd hround hnew
    · rw [List.getElem?_append_right hk, List.getElem?_singleton] at hround
      obtain ⟨hzero, hround⟩ := Option.ite_none_right_eq_some.mp hround
      obtain rfl := Option.some.inj hround
      rw [show k = (s.rounds p).length by omega]
      apply hholds.mono
      intro q
      by_cases hq : q = p
      · rw [hq]
        exact hstarted
      · rw [hothers.started hq]

theorem RanksInv.host (hinv : RanksInv w s) {view : Nat → β} (h : s.host w p view = some s') :
    RanksInv w s' := by
  obtain ⟨⟨hp, hidle⟩, h⟩ := Option.ite_none_right_eq_some.mp h
  obtain rfl := Option.some.inj h
  have hnone : s.call p = none := Option.isNone_iff_eq_none.mp hidle
  have hstep : RanksStepAt w p s (s.set_memory p view) :=
    ranksStepAt_of_idle rfl (fun p' hp' => Function.update_of_ne hp' _ _)
      (fun _ _ => rfl) fun _ _ => rfl
  apply hinv.step_at hstep hp List.prefix_rfl (hinv.messages p hp)
    (hinv.receives p hp) _ fun k round hround hnew => absurd hround hnew
  intro c hc
  cases hnone.symm.trans hc

theorem RanksInv.start (hinv : RanksInv w s) {variant : Variant} {staged : Bool}
    {garbage : Segment → List β} (h : s.start w p variant staged garbage = some s') :
    RanksInv w s' := by
  obtain ⟨⟨hp, hidle⟩, h⟩ := Option.ite_none_right_eq_some.mp h
  have hnone : s.call p = none := Option.isNone_iff_eq_none.mp hidle
  have hstarted : s.started p = (s.rounds p).map (·.before) := by
    rw [RanksState.started, hnone]
    exact List.append_nil _
  split at h
  · next hempty =>
    -- the round is over at once
    obtain rfl := Option.some.inj h
    apply hinv.end_round hp
    · intro c hc
      cases hnone.symm.trans hc
    · intro seg hseg
      rw [hempty.1] at hseg
      cases hseg
    · intro seg hseg
      rw [hempty.2] at hseg
      cases hseg
    · rw [hempty.2]
      exact .nil ..
  · obtain ⟨hgarbage, h⟩ := Option.ite_none_right_eq_some.mp h
    obtain rfl := Option.some.inj h
    have hothers : RanksStepAt w p s (s.advance p
        (.begin variant staged (s.memory p)
          (if variant = .persistent then w.stage_send (s.memory p) else fun _ => []) garbage)
        (s.memory p) s.net) :=
      ranksStepAt_advance (fun _ _ _ => rfl) fun _ _ _ => rfl
    apply hinv.step_at hothers hp
    · rw [hstarted, RanksState.started_of_call (RanksState.call_advance s p _ _ _)]
      exact List.prefix_append _ _
    · intro seg hseg
      rw [RanksState.call_advance]
      have hbefore := hinv.messages p hp seg hseg
      rw [hnone] at hbefore
      exact hbefore
    · intro seg hseg
      rw [RanksState.call_advance]
      have hbefore := hinv.receives p hp seg hseg
      rw [hnone] at hbefore
      exact hbefore
    · intro c hc
      rw [RanksState.call_advance] at hc
      obtain rfl := Option.some.inj hc
      rw [RanksState.memory_advance]
      apply RoundInv.begin _ hgarbage
      intro hvariant
      rw [if_pos hvariant]
    · intro k round hround hnew
      exact absurd hround hnew

theorem RanksInv.irecv (hinv : RanksInv w s) (h : s.irecv w p seg = some s') : RanksInv w s' := by
  obtain ⟨c, hc, h⟩ := Option.bind_eq_some_iff.mp h
  obtain ⟨_, _, h⟩ := Option.bind_eq_some_iff.mp h
  obtain ⟨hpost, h⟩ := Option.ite_none_right_eq_some.mp h
  obtain rfl := Option.some.inj h
  have hp := hinv.in_range_of_call hc
  have hround := hinv.calls p c hc
  obtain ⟨hseg, hfresh⟩ := hround.recvs.fresh (w.recvs_nodup hp) hpost
  -- it is the first receive of the round for this neighbor
  have hnumber : s.net.receives (w.channel seg.rank p) = (s.rounds p).length := by
    rw [hinv.receives p hp seg hseg, hc, incoming, if_neg hfresh, Nat.add_zero]
  apply hinv.advance hc
  · rfl
  · apply ranksStepAt_advance
    · intro _ _ _
      rfl
    · intro p' hp' q
      have hne : ¬ w.channel q p' = w.channel seg.rank p := by
        rw [Ranks.channel_inj]
        exact fun hsame => hp' hsame.2
      rw [Net.receives_receive, if_neg hne]
  · intro seg' hseg'
    have hbefore := hinv.messages p hp seg' hseg'
    rw [hc] at hbefore
    exact hbefore
  · intro seg' hseg'
    have hbefore := hinv.receives p hp seg' hseg'
    rw [hc] at hbefore
    rw [Net.receives_receive]
    show _ = _ + if seg' ∈ c.recvs ++ [seg] then 1 else 0
    by_cases heq : seg' = seg
    · subst heq
      rw [if_pos rfl, hnumber, if_pos (List.mem_append_right _ List.mem_cons_self)]
    · have hne : ¬ w.channel seg'.rank p = w.channel seg.rank p := by
        rw [Ranks.channel_inj]
        intro hsame
        exact heq (w.recvs_unique hp hseg' hseg hsame.1)
      rw [if_neg hne, hbefore, incoming]
      simp [heq]
  · exact { hround with
      recvs := hround.recvs.snoc hpost
      recv_slots := by
        intro seg' hseg'
        show Function.update c.recv_slots seg _ seg' = _
        by_cases heq : seg' = seg
        · rw [heq, Function.update_self, hnumber]
        · rw [Function.update_of_ne heq]
          obtain hmem | hlast := List.mem_append.mp hseg'
          · exact hround.recv_slots seg' hmem
          · exact absurd (List.mem_singleton.mp hlast) heq
      arrived := fun x hx => List.mem_append_left _ (hround.arrived hx) }

theorem RoundInv.send_eq (hsound : w.Sound) (hp : w.InRange p)
    {started : Int → List (Nat → β)} {view : Nat → β} {k : Nat} {c : RoundLocals β}
    (h : RoundInv w started view p k c) (hseg : seg ∈ w.sends p) :
    w.stage_send view seg = w.stage_send c.before seg := by
  cases hstaged : c.staged with
  | true => rw [(h.staged hstaged).1]
  | false =>
    have harrived : c.arrived ⊆ w.recvs p := fun x hx => h.recvs.subset (h.arrived hx)
    exact (h.direct hstaged).send_eq hsound hp harrived hseg

theorem RanksInv.isend (hsound : w.Sound) (hinv : RanksInv w s)
    (h : s.isend w p seg = some s') : RanksInv w s' := by
  obtain ⟨c, hc, h⟩ := Option.bind_eq_some_iff.mp h
  obtain ⟨_, _, h⟩ := Option.bind_eq_some_iff.mp h
  obtain ⟨⟨_, hpost⟩, h⟩ := Option.ite_none_right_eq_some.mp h
  obtain rfl := Option.some.inj h
  have hp := hinv.in_range_of_call hc
  have hround := hinv.calls p c hc
  obtain ⟨hseg, hfresh⟩ := hround.sends.fresh (w.sends_nodup hp) hpost
  have hmessages : s.net.messages (w.channel p seg.rank) =
      (s.rounds p).map fun round => some (w.stage_send round.before seg) := by
    rw [hinv.messages p hp seg hseg, hc, outgoing, if_neg hfresh, List.append_nil]
  apply hinv.advance hc
  · rfl
  · apply ranksStepAt_advance
    · intro p' hp' q
      have hne : ¬ w.channel p' q = w.channel p seg.rank := by
        rw [Ranks.channel_inj]
        exact fun hsame => hp' hsame.1
      rw [Net.messages_post, if_neg hne]
    · intro _ _ _
      rfl
  · intro seg' hseg'
    have hbefore := hinv.messages p hp seg' hseg'
    rw [hc] at hbefore
    rw [Net.messages_post]
    show _ = _ ++ if seg' ∈ c.sends ++ [seg] then
      [if seg' ∈ c.filled then some (w.stage_send c.before seg') else none] else []
    by_cases heq : seg' = seg
    · subst heq
      have hunfilled : seg' ∉ c.filled := fun hmem => hfresh (hround.filled hmem)
      rw [if_pos rfl, hmessages, if_pos (List.mem_append_right _ List.mem_cons_self),
        if_neg hunfilled]
    · have hne : ¬ w.channel p seg'.rank = w.channel p seg.rank := by
        rw [Ranks.channel_inj]
        intro hsame
        exact heq (w.sends_unique hp hseg' hseg hsame.2)
      rw [if_neg hne, hbefore, outgoing]
      simp [heq]
  · intro seg' hseg'
    have hbefore := hinv.receives p hp seg' hseg'
    rw [hc] at hbefore
    exact hbefore
  · exact { hround with
      sends := hround.sends.snoc hpost
      send_slots := by
        intro seg' hseg'
        show Function.update c.send_slots seg _ seg' = _
        by_cases heq : seg' = seg
        · rw [heq, Function.update_self, hmessages, List.length_map]
        · rw [Function.update_of_ne heq]
          obtain hmem | hlast := List.mem_append.mp hseg'
          · exact hround.send_slots seg' hmem
          · exact absurd (List.mem_singleton.mp hlast) heq
      filled := fun x hx => List.mem_append_left _ (hround.filled hx)
      packed := by
        intro seg' hseg'
        show (if c.variant = .persistent then c.send_buffers
          else Function.update c.send_buffers seg _) seg' = _
        split
        · next hvariant => exact hround.packed seg' (Or.inl hvariant)
        · next hvariant =>
          by_cases heq : seg' = seg
          · rw [heq, Function.update_self]
            exact hround.send_eq hsound hp hseg
          · rw [Function.update_of_ne heq]
            obtain hpersistent | hmem := hseg'
            · exact absurd hpersistent hvariant
            · obtain hmem | hlast := List.mem_append.mp hmem
              · exact hround.packed seg' (Or.inr hmem)
              · exact absurd (List.mem_singleton.mp hlast) heq }

theorem RanksInv.fill (hsound : w.Sound) (hinv : RanksInv w s)
    (h : s.fill w p seg = some s') : RanksInv w s' := by
  obtain ⟨c, hc, h⟩ := Option.bind_eq_some_iff.mp h
  obtain ⟨n, hn, h⟩ := Option.bind_eq_some_iff.mp h
  obtain ⟨⟨hposted, hfresh⟩, h⟩ := Option.ite_none_right_eq_some.mp h
  obtain rfl := Option.some.inj h
  have hp := hinv.in_range_of_call hc
  have hround := hinv.calls p c hc
  have hseg := hround.sends.subset hposted
  -- whenever the bytes are read, they are those from the beginning of the round
  have hbytes : (if c.staged then (c.send_buffers seg).take n
      else read (s.memory p) (w.address seg) n) = w.stage_send c.before seg := by
    rw [hsound.send_bytes hp hseg] at hn
    obtain rfl := Option.some.inj hn
    split
    · rw [hround.packed seg (Or.inr hposted)]
      apply List.take_of_length_le
      rw [Ranks.stage_send, Channels.length_read]
    · exact hround.send_eq hsound hp hseg
  rw [hbytes, hround.send_slots seg hposted]
  apply hinv.advance hc
  · rfl
  · apply ranksStepAt_advance
    · intro p' hp' q
      have hne : ¬ w.channel p' q = w.channel p seg.rank := by
        rw [Ranks.channel_inj]
        exact fun hsame => hp' hsame.1
      rw [Net.messages_fill, if_neg hne]
    · intro _ _ _
      rfl
  · intro seg' hseg'
    have hbefore := hinv.messages p hp seg' hseg'
    rw [hc] at hbefore
    rw [Net.messages_fill]
    show _ = _ ++ if seg' ∈ c.sends then
      [if seg' ∈ seg :: c.filled then some (w.stage_send c.before seg') else none] else []
    by_cases heq : seg' = seg
    · subst heq
      rw [if_pos rfl, hbefore, outgoing, if_pos hposted, if_pos hposted,
        if_pos List.mem_cons_self, if_neg hfresh,
        List.set_append_right _ _ (List.length_map _).le, List.length_map, Nat.sub_self]
      rfl
    · have hne : ¬ w.channel p seg'.rank = w.channel p seg.rank := by
        rw [Ranks.channel_inj]
        intro hsame
        exact heq (w.sends_unique hp hseg' hseg hsame.2)
      rw [if_neg hne, hbefore, outgoing]
      simp [heq]
  · intro seg' hseg'
    have hbefore := hinv.receives p hp seg' hseg'
    rw [hc] at hbefore
    exact hbefore
  · exact { hround with
      filled := List.cons_subset.mpr ⟨hposted, hround.filled⟩ }

theorem RanksInv.deliver (hsound : w.Sound) (hinv : RanksInv w s)
    (h : s.deliver w p seg = some s') : RanksInv w s' := by
  obtain ⟨c, hc, h⟩ := Option.bind_eq_some_iff.mp h
  obtain ⟨m, hm, h⟩ := Option.bind_eq_some_iff.mp h
  obtain ⟨n, hn, h⟩ := Option.bind_eq_some_iff.mp h
  obtain ⟨⟨hposted, hfresh, _⟩, h⟩ := Option.ite_none_right_eq_some.mp h
  have hp := hinv.in_range_of_call hc
  have hround := hinv.calls p c hc
  have hseg := hround.recvs.subset hposted
  have harrived : c.arrived ⊆ w.recvs p := fun x hx => hround.recvs.subset (hround.arrived hx)
  -- it is the message of the sender's round of the same number
  rw [hround.recv_slots seg hposted] at hm
  have hreceived := hinv.message_eq hp hseg hm
  have hmessages := hinv.messages p hp
  have hreceives := hinv.receives p hp
  rw [hc] at hmessages hreceives
  split at h
  · next hstaged =>
    obtain rfl := Option.some.inj h
    obtain ⟨hview, hbuffers⟩ := hround.staged hstaged
    have hdrop : (c.recv_buffers seg).drop m.length = [] := by
      apply List.drop_eq_nil_of_le
      rw [hround.waiting seg hseg hfresh, hreceived.length]
    apply hinv.advance hc
    · rfl
    · exact ranksStepAt_advance (fun _ _ _ => rfl) fun _ _ _ => rfl
    · exact hmessages
    · exact hreceives
    · exact { hround with
        arrived := List.cons_subset.mpr ⟨hposted, hround.arrived⟩
        waiting := by
          intro seg' hseg' hfresh'
          show (Function.update c.recv_buffers seg _ seg').length = _
          rw [Function.update_of_ne (List.ne_of_not_mem_cons hfresh')]
          exact hround.waiting seg' hseg' (List.not_mem_of_not_mem_cons hfresh')
        staged := by
          intro _
          refine ⟨hview, ?_⟩
          intro seg' hseg'
          show Received w _ p _ seg' (Function.update c.recv_buffers seg _ seg')
          by_cases heq : seg' = seg
          · rw [heq, Function.update_self, hdrop, List.append_nil]
            exact hreceived
          · rw [Function.update_of_ne heq]
            obtain hhead | hmem := List.mem_cons.mp hseg'
            · exact absurd hhead heq
            · exact hbuffers seg' hmem
        direct := by
          intro hdirect
          exact absurd (hstaged.symm.trans hdirect) (by decide) }
  · next hdirect =>
    obtain rfl := Option.some.inj h
    apply hinv.advance hc
    · rfl
    · exact ranksStepAt_advance (fun _ _ _ => rfl) fun _ _ _ => rfl
    · exact hmessages
    · exact hreceives
    · exact { hround with
        arrived := List.cons_subset.mpr ⟨hposted, hround.arrived⟩
        waiting := fun seg' hseg' hfresh' =>
          hround.waiting seg' hseg' (List.not_mem_of_not_mem_cons hfresh')
        staged := fun hstaged => absurd hstaged hdirect
        direct := fun hfalse => (hround.direct hfalse).write hsound hp harrived hseg hreceived }

theorem RanksInv.finish (hsound : w.Sound) (hinv : RanksInv w s)
    (h : s.finish w p = some s') : RanksInv w s' := by
  obtain ⟨c, hc, h⟩ := Option.bind_eq_some_iff.mp h
  obtain ⟨⟨hrecvs, hsends⟩, h⟩ := Option.ite_none_right_eq_some.mp h
  obtain rfl := Option.some.inj h
  have hp := hinv.in_range_of_call hc
  have hround := hinv.calls p c hc
  have harrived : c.arrived ⊆ w.recvs p := fun x hx => hround.recvs.subset (hround.arrived hx)
  apply hinv.end_round hp
  · intro c' hc'
    obtain rfl := Option.some.inj (hc.symm.trans hc')
    rfl
  · intro seg hseg
    have hfilled := hsends seg hseg
    rw [hc, outgoing, if_pos (hround.filled hfilled), if_pos hfilled]
  · intro seg hseg
    rw [hc, incoming, if_pos (hround.arrived (hrecvs seg hseg))]
  · dsimp only
    split
    · next hstaged =>
      obtain ⟨hview, hbuffers⟩ := hround.staged hstaged
      rw [hview]
      have hall := (Holds.nil w s.started p (s.rounds p).length c.before).stage_recv_all hsound hp
        (List.Subset.refl _) (List.nil_subset _) fun seg hseg => hbuffers seg (hrecvs seg hseg)
      exact hall.congr fun seg => by simp
    · next hdirect =>
      have hholds := hround.direct (Bool.eq_false_iff.mpr hdirect)
      exact hholds.congr fun seg => ⟨fun hmem => harrived hmem, hrecvs seg⟩

theorem RanksInv.next (hsound : w.Sound) (hinv : RanksInv w s) {l : RanksLabel β}
    (h : s.next w l = some s') : RanksInv w s' := by
  cases l with
  | host p view => exact hinv.host h
  | start p variant staged garbage => exact hinv.start h
  | irecv p seg => exact hinv.irecv h
  | isend p seg => exact hinv.isend hsound h
  | fill p seg => exact hinv.fill hsound h
  | deliver p seg => exact hinv.deliver hsound h
  | poll p =>
    obtain ⟨_, h⟩ := Option.ite_none_right_eq_some.mp h
    obtain rfl := Option.some.inj h
    exact hinv
  | finish p => exact hinv.finish hsound h

/-- **The invariant** holds in every state that the ranks can reach. -/
theorem ranks_inv (hsound : w.Sound) {views : Int → Nat → β}
    (hr : (flat_exchange w views).Reachable s) : RanksInv w s := by
  apply hr.invariant
  · intro s hs
    rw [show s = .initial views from hs]
    exact .initial w views
  · intro s l s' _ hinv hstep
    exact hinv.next hsound hstep

end Invariant

/-! ## Section 5: Result -/

section Result

variable {w : Ranks} {views : Int → Nat → β} {s : RanksState β}

/-- What the `k`-th round of a rank has done to its view: each segment that is
    received has the bytes that the neighbor had addressed to this rank, the send
    part and all bytes outside the segments are as before. -/
structure RoundExchanged (w : Ranks) (started : Int → List (Nat → β)) (p : Int) (k : Nat)
    (round : Round β) : Prop where
  received : ∀ seg ∈ w.recvs p, ∃ view, (started seg.rank)[k]? = some view ∧
    ∃ seg' ∈ w.sends seg.rank, seg'.rank = p ∧ seg'.count = seg.count ∧
      w.stage_send round.after seg = w.stage_send view seg'
  send_part : ∀ a < (w.plan p).total_send * w.value_type.sizeof, round.after a = round.before a
  frame : ∀ a, (∀ seg ∈ w.recvs p, a < w.address seg ∨ w.address seg + w.bytes seg ≤ a) →
    round.after a = round.before a

theorem RanksInv.in_range_of_round (hinv : RanksInv w s) {p : Int} {k : Nat} {round : Round β}
    (hround : (s.rounds p)[k]? = some round) : w.InRange p := by
  apply hinv.in_range p
  right
  intro hnil
  rw [hnil] at hround
  cases hround

theorem round_exchanged (hsound : w.Sound) (hinv : RanksInv w s) {p : Int} {k : Nat}
    {round : Round β} (hround : (s.rounds p)[k]? = some round) :
    RoundExchanged w s.started p k round := by
  have hp := hinv.in_range_of_round hround
  have hholds := hinv.rounds p k round hround
  constructor
  · intro seg hseg
    exact hholds.received seg hseg
  · intro a ha
    apply hholds.frame
    intro seg hseg
    exact Or.inl (ha.trans_le (hsound.send_part_le hp hseg))
  · exact hholds.frame

theorem RoundExchanged.after_eq {started started' : Int → List (Nat → β)} {p : Int} {k : Nat}
    {round round' : Round β} (hp : w.InRange p) (h : RoundExchanged w started p k round)
    (h' : RoundExchanged w started' p k round') (hbefore : round.before = round'.before)
    (hviews : ∀ q view view', (started q)[k]? = some view → (started' q)[k]? = some view' →
      view = view') : round.after = round'.after := by
  funext a
  by_cases hin : ∃ seg ∈ w.recvs p, w.address seg ≤ a ∧ a < w.address seg + w.bytes seg
  · obtain ⟨seg, hseg, hle, hlt⟩ := hin
    have hrange := (w.exists_sent hp hseg).1
    have hreceived : Received w started p k seg (w.stage_send round.after seg) :=
      h.received seg hseg
    have hreceived' : Received w started' p k seg (w.stage_send round'.after seg) :=
      h'.received seg hseg
    have hbytes := hreceived.unique hrange hreceived' (hviews seg.rank)
    obtain ⟨i, rfl⟩ := Nat.exists_eq_add_of_le hle
    exact Channels.eq_of_read_eq hbytes (by omega)
  · have houtside : ∀ seg ∈ w.recvs p, a < w.address seg ∨ w.address seg + w.bytes seg ≤ a := by
      intro seg hseg
      by_contra hnot
      exact hin ⟨seg, hseg, by omega, by omega⟩
    rw [h.frame a houtside, h'.frame a houtside, hbefore]

theorem started_of_round {p : Int} {k : Nat} {round : Round β}
    (hround : (s.rounds p)[k]? = some round) : (s.started p)[k]? = some round.before := by
  have hk := (List.getElem?_eq_some_iff.mp hround).1
  rw [RanksState.started, List.getElem?_append_left (by rwa [List.length_map]),
    List.getElem?_map, hround]
  rfl

/-- **The exchange of flat views.** In every run, whatever variant each rank uses
    in each round and in whatever order the messages are read and arrive, a round
    moves exactly the segments of the plans. Two runs whose rounds began with the
    same views have the same memory after them. -/
theorem flat_exchange_correct (hsound : w.Sound) (hr : (flat_exchange w views).Reachable s) :
    (∀ p k round, (s.rounds p)[k]? = some round → RoundExchanged w s.started p k round) ∧
      ∀ (views' : Int → Nat → β) (s' : RanksState β), (flat_exchange w views').Reachable s' →
        ∀ (p : Int) (k : Nat) (round round' : Round β), (s.rounds p)[k]? = some round → (s'.rounds p)[k]? = some round' →
          (∀ q view view', (s.started q)[k]? = some view → (s'.started q)[k]? = some view' →
            view = view') → round.after = round'.after := by
  have hinv := ranks_inv hsound hr
  refine ⟨fun p k round hround => round_exchanged hsound hinv hround, ?_⟩
  intro views' s' hr' p k round round' hround hround' hviews
  have hinv' := ranks_inv hsound hr'
  have hbefore : round.before = round'.before :=
    hviews p _ _ (started_of_round hround) (started_of_round hround')
  exact (round_exchanged hsound hinv hround).after_eq (hinv.in_range_of_round hround)
    (round_exchanged hsound hinv' hround') hbefore hviews

/-- Two ranks, the one sends two bytes and the other one. -/
def pair : Ranks where
  comm_size := 2
  tag_ub := 32767
  value_type := .char
  plan := fun p =>
    if p = 0 then ⟨(), [⟨1, 2⟩], [⟨1, 1⟩], 2, 1⟩ else ⟨(), [⟨0, 1⟩], [⟨0, 2⟩], 1, 2⟩
  comm_size_lt := by decide
  accepted := by
    intro p hp
    obtain rfl | rfl : p = 0 ∨ p = 1 := by omega
    · rfl
    · rfl
  consistent := by
    intro p hp q hq count
    obtain rfl | rfl : p = 0 ∨ p = 1 := by omega
    all_goals
      obtain rfl | rfl : q = 0 ∨ q = 1 := by omega
      all_goals simp

theorem sound_pair : pair.Sound := by
  intro p hp info hinfo
  obtain rfl | rfl : p = 0 ∨ p = 1 := by
    have hrange : 0 ≤ p ∧ p < 2 := hp
    omega
  · obtain rfl := List.mem_singleton.mp hinfo
    decide
  · obtain rfl := List.mem_singleton.mp hinfo
    decide

/-- The first rank stages its messages, the other has a persistent handle. -/
def pair_calls : List (RanksLabel Nat) :=
  [.start 0 .blocking true fun _ => [0], .start 1 .persistent false fun seg => .replicate seg.count 0,
    .isend 1 ⟨0, 0, 1⟩, .irecv 0 ⟨1, 2, 1⟩, .isend 0 ⟨1, 0, 2⟩, .fill 1 ⟨0, 0, 1⟩,
    .fill 0 ⟨1, 0, 2⟩, .deliver 0 ⟨1, 2, 1⟩, .irecv 1 ⟨0, 1, 2⟩, .finish 0, .deliver 1 ⟨0, 1, 2⟩,
    .finish 1]

/-- The bytes of the views by rank and place. -/
def numbered_views (p : Int) (a : Nat) : Nat := 10 * p.toNat + a

theorem flat_exchange_pair : pair.Sound ∧ ∃ s,
    (flat_exchange pair numbered_views).Reachable s ∧
      (s.rounds 0).map (fun round => read round.after 0 3) = [[0, 1, 10]] ∧
      (s.rounds 1).map (fun round => read round.after 0 3) = [[10, 0, 1]] ∧
      ∀ p k round, (s.rounds p)[k]? = some round → RoundExchanged pair s.started p k round := by
  have hrun : (System.exec (RanksState.next pair) (.initial numbered_views) pair_calls).map
      (fun s => [0, 1].map fun p => (s.rounds p).map fun round => read round.after 0 3) =
        some [[[0, 1, 10]], [[10, 0, 1]]] := by
    decide +kernel
  obtain ⟨s, hexec, hviews⟩ := Option.map_eq_some_iff.mp hrun
  obtain ⟨hfirst, hrest⟩ := List.cons.inj hviews
  have hreach : (flat_exchange pair numbered_views).Reachable s :=
    System.reachable_of_exec rfl hexec
  exact ⟨sound_pair, s, hreach, hfirst, (List.cons.inj hrest).1,
    (flat_exchange_correct sound_pair hreach).1⟩

/-- A rank that sends one element of two bytes to itself. -/
def lone : Ranks where
  comm_size := 1
  tag_ub := 32767
  value_type := .other 2
  plan := fun _ => ⟨(), [⟨0, 1⟩], [⟨0, 1⟩], 1, 1⟩
  comm_size_lt := by decide
  accepted := fun _ _ => rfl
  consistent := by
    intro p hp q hq count
    obtain rfl : p = 0 := by omega
    obtain rfl : q = 0 := by omega
    rfl

theorem flat_exchange_lone : ∃ s, (flat_exchange lone numbered_views).Reachable s ∧
    ∃ round, (s.rounds 0)[0]? = some round ∧ ¬ RoundExchanged lone s.started 0 0 round := by
  have hrun : (System.exec (RanksState.next lone) (.initial numbered_views)
      [.start 0 .blocking false fun _ => [0, 0], .irecv 0 ⟨0, 1, 1⟩, .isend 0 ⟨0, 0, 1⟩,
        .fill 0 ⟨0, 0, 1⟩, .deliver 0 ⟨0, 1, 1⟩, .finish 0]).map
      (fun s => (s.rounds 0)[0]?.map fun round => (read round.before 0 2, read round.after 2 2)) =
        some (some ([0, 1], [0, 3])) := by
    decide +kernel
  obtain ⟨s, hexec, hround⟩ := Option.map_eq_some_iff.mp hrun
  obtain ⟨round, hround, hbytes⟩ := Option.map_eq_some_iff.mp hround
  obtain ⟨hbefore, hafter⟩ := Prod.mk.inj hbytes
  refine ⟨s, System.reachable_of_exec rfl hexec, round, hround, ?_⟩
  intro h
  obtain ⟨view, hview, sent, hsent, _, _, heq⟩ := h.received ⟨0, 1, 1⟩ List.mem_cons_self
  obtain rfl := Option.some.inj ((started_of_round hround).symm.trans hview)
  obtain rfl := List.mem_singleton.mp hsent
  have hsame : read round.after 2 2 = read round.before 0 2 := heq
  rw [hbefore, hafter] at hsame
  exact absurd hsame (by decide)

end Result

end Halo
