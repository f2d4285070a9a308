import Helm.Halo.HaloPlan

/-! # The messages of an exchange

  What a call of MPI moves: a count of elements, converted to `int`, of the
  datatype that `mpi_datatype_for` finds for the value type of the view. A
  type that is not known becomes `MPI_BYTE`, and the count stays what it is.
-/

namespace Halo

/-- The value types of views -/
inductive ValueType
  | double | float | int | long | long_long | unsigned_int | char
  /-- Every other type, with its `sizeof`. -/
  | other (size : Nat)
  deriving DecidableEq

/-- `sizeof`, in the LP64 model -/
def ValueType.sizeof : ValueType → Nat
  | .double => 8
  | .float => 4
  | .int => 4
  | .long => 8
  | .long_long => 8
  | .unsigned_int => 4
  | .char => 1
  | .other size => size

inductive MPI_Datatype
  | MPI_DOUBLE | MPI_FLOAT | MPI_INT | MPI_LONG | MPI_LONG_LONG | MPI_UNSIGNED | MPI_CHAR | MPI_BYTE
  deriving DecidableEq

/-- The bytes of one element of a datatype. -/
def MPI_Datatype.extent : MPI_Datatype → Nat
  | .MPI_DOUBLE => 8
  | .MPI_FLOAT => 4
  | .MPI_INT => 4
  | .MPI_LONG => 8
  | .MPI_LONG_LONG => 8
  | .MPI_UNSIGNED => 4
  | .MPI_CHAR => 1
  | .MPI_BYTE => 1

/-- `mpi_datatype_for` -/
def mpi_datatype_for : ValueType → MPI_Datatype
  | .double => .MPI_DOUBLE
  | .float => .MPI_FLOAT
  | .int => .MPI_INT
  | .long => .MPI_LONG
  | .long_long => .MPI_LONG_LONG
  | .unsigned_int => .MPI_UNSIGNED
  | .char => .MPI_CHAR
  | .other _ => .MPI_BYTE

/-- The bytes that a call with `static_cast<int>(count)` moves. A negative count
    is an error. -/
def message_bytes (ty : ValueType) (count : Nat) : Option Nat :=
  if count % 2 ^ 32 < 2 ^ 31 then some (count % 2 ^ 32 * (mpi_datatype_for ty).extent) else none

/-- `compute_tag`; `tag_ub` is the value of `MPI_TAG_UB` -/
def compute_tag (tag_ub sender receiver comm_size : Int) : Int :=
  (sender * comm_size + receiver) % tag_ub

/-- Who sends, who receives, and the tag. -/
structure Envelope where
  source : Int
  dest : Int
  tag : Int
  deriving DecidableEq

/-- The envelope of a message between two ranks. Both sides compute it. -/
def envelope (tag_ub comm_size sender receiver : Int) : Envelope :=
  ⟨sender, receiver, compute_tag tag_ub sender receiver comm_size⟩

/-- The type has a datatype of its own, or its elements are bytes. -/
def ValueType.Transferable (ty : ValueType) : Prop :=
  (mpi_datatype_for ty).extent = ty.sizeof

instance (ty : ValueType) : Decidable ty.Transferable := inferInstanceAs (Decidable (_ = _))

theorem transferable_iff {ty : ValueType} :
    ty.Transferable ↔ ∀ size, ty = .other size → size = 1 := by
  cases ty with
  | other size => simp [ValueType.Transferable, mpi_datatype_for, MPI_Datatype.extent,
      ValueType.sizeof, eq_comm]
  | _ => simp [ValueType.Transferable, mpi_datatype_for, MPI_Datatype.extent, ValueType.sizeof]

/-- **A message carries all of its elements.** -/
theorem message_bytes_eq {ty : ValueType} {count : Nat} (hty : ty.Transferable)
    (hcount : count < 2 ^ 31) : message_bytes ty count = some (count * ty.sizeof) := by
  have hmod : count % 2 ^ 32 = count := Nat.mod_eq_of_lt (by omega)
  rw [message_bytes, hmod, if_pos hcount, hty]

theorem envelope_inj {tag_ub comm_size a b c d : Int} :
    envelope tag_ub comm_size a b = envelope tag_ub comm_size c d ↔ a = c ∧ b = d := by
  constructor
  · intro h
    rw [envelope, envelope, Envelope.mk.injEq] at h
    exact ⟨h.1, h.2.1⟩
  · intro ⟨hac, hbd⟩
    rw [hac, hbd]

end Halo
