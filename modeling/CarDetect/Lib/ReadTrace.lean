import CarDetect.Lib.BigEndian

/-!
# Traces of reads

Code that reads an object through a pointer may read past the object's end. `Traced` is a
computation together with the positions it read, and `Memory` is an object with arbitrary bytes
behind it, so that a read outside has a value and leaves a trace. `Inside` says that every read lies
below a bound; it has one rule for each way to build a computation.
-/

namespace ReadTrace

open BigEndian

/-- A value and the positions that were read to compute it. -/
structure Traced (α : Type) where
  value : α
  reads : List Nat
deriving DecidableEq, Repr

instance : Monad Traced where
  pure value := ⟨value, []⟩
  bind x f := ⟨(f x.value).value, x.reads ++ (f x.value).reads⟩

section Traced

variable {α β : Type}

@[simp] theorem value_pure (value : α) : (pure value : Traced α).value = value := rfl

@[simp] theorem value_bind (x : Traced α) (f : α → Traced β) :
    (x >>= f).value = (f x.value).value := rfl

/-- Every read is below `n`. -/
def Inside (n : Nat) (x : Traced α) : Prop :=
  ∀ position ∈ x.reads, position < n

instance (n : Nat) (x : Traced α) : Decidable (Inside n x) :=
  inferInstanceAs (Decidable (∀ position ∈ x.reads, _))

theorem inside_pure (n : Nat) (value : α) : Inside n (pure value : Traced α) := by
  intro position hmem
  cases hmem

/-- What follows may rely on the value read before. -/
theorem inside_bind {n : Nat} {x : Traced α} {f : α → Traced β} (hx : Inside n x)
    (hf : Inside n (f x.value)) : Inside n (x >>= f) := by
  intro position hmem
  rcases List.mem_append.1 hmem with hmem | hmem
  · exact hx position hmem
  · exact hf position hmem

theorem inside_ite {n : Nat} {p : Prop} [Decidable p] {x y : Traced α} (hx : p → Inside n x)
    (hy : ¬ p → Inside n y) : Inside n (if p then x else y) := by
  split
  · exact hx ‹_›
  · exact hy ‹_›

/-- The reads of what comes first are reads of the whole. -/
theorem mem_reads_bind {x : Traced α} (f : α → Traced β) {position : Nat}
    (h : position ∈ x.reads) : position ∈ (x >>= f).reads :=
  List.mem_append_left _ h

end Traced

/-! ## Memory -/

/-- An object and what lies behind it. -/
structure Memory where
  object : Bytes
  beyond : Nat → UInt8

/-- The byte at a position. -/
def Memory.byte (m : Memory) (position : Nat) : UInt8 :=
  m.object.getD position (m.beyond position)

/-- `p[position]` -/
def byteAt (m : Memory) (position : Nat) : Traced UInt8 :=
  ⟨m.byte position, [position]⟩

/-- The `count` bytes from `first` on, as `append(p + first, count)` copies them. -/
def bytesAt (m : Memory) (first count : Nat) : Traced Bytes :=
  ⟨(List.range' first count).map m.byte, List.range' first count⟩

/-- A copy that is made under a condition, and otherwise empty. -/
def copyWhen (condition : Bool) (copy : Traced Bytes) : Traced Bytes :=
  if condition then copy else pure []

variable {m : Memory}

@[simp] theorem value_byteAt (position : Nat) : (byteAt m position).value = m.byte position := rfl

theorem inside_byteAt {n position : Nat} (h : position < n) : Inside n (byteAt m position) := by
  intro other hmem
  cases List.mem_singleton.1 hmem
  exact h

theorem inside_bytesAt {n first count : Nat} (h : first + count ≤ n) :
    Inside n (bytesAt m first count) := by
  intro position hmem
  obtain ⟨i, hi, rfl⟩ := List.mem_range'.1 hmem
  omega

theorem inside_copyWhen {n : Nat} {condition : Bool} {copy : Traced Bytes}
    (h : Inside n copy) : Inside n (copyWhen condition copy) :=
  inside_ite (fun _ => h) fun _ => inside_pure n []

@[simp] theorem value_copyWhen (condition : Bool) (copy : Traced Bytes) :
    (copyWhen condition copy).value = if condition then copy.value else [] := by
  cases condition <;> rfl

/-- A byte of the object. -/
theorem byte_of_drop {position : Nat} {byte : UInt8} {rest : Bytes}
    (h : m.object.drop position = byte :: rest) : m.byte position = byte := by
  have hget : m.object[position]? = some byte := by
    rw [← List.head?_drop, h]
    rfl
  rw [Memory.byte, List.getD_eq_getElem?_getD, hget]
  rfl

/-- A copy that stays inside the object is a slice of it. -/
theorem value_bytesAt {first count : Nat} (h : first + count ≤ m.object.length) :
    (bytesAt m first count).value = (m.object.drop first).take count := by
  refine List.ext_getElem (by simp [bytesAt]; omega) fun i hi _ => ?_
  have hlt : first + i < m.object.length := by
    simp only [bytesAt, List.length_map, List.length_range'] at hi
    omega
  simp [bytesAt, Memory.byte, hlt]

end ReadTrace
