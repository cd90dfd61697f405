import Chip8.Fault

/-!
# Accesses

A traced memory reports every byte it hands out or stores. A computation on
such a memory therefore yields two things: the accesses it made, in order, and
its result. A fault ends the computation, and the accesses made before it
remain reported.
-/

namespace Chip8

/-- One reported access. -/
inductive Access where
  | read (address : Nat) (value : UInt8)
  | write (address : Nat) (value : UInt8)
deriving DecidableEq, Repr

/-- The line that reports an access. -/
def Access.line : Access → String
  | read address value =>
    "read: addr=" ++ Hex.padded 3 address ++ " val=" ++ Hex.padded 2 value.toNat
  | write address value =>
    "write: addr=" ++ Hex.padded 3 address ++ " val=" ++ Hex.padded 2 value.toNat

/-- A result with the accesses reported on the way to it. -/
structure Traced (α : Type) where
  accesses : List Access
  result : Except Fault α

namespace Traced

variable {α β : Type}

/-- A result that needed no access. -/
protected def pure (value : α) : Traced α := ⟨[], .ok value⟩

/-- A fault, without an access of its own. -/
def fail (fault : Fault) : Traced α := ⟨[], .error fault⟩

/-- A silent result. -/
def ofExcept (result : Except Fault α) : Traced α := ⟨[], result⟩

/-- Continue after a result. After a fault nothing more is accessed. -/
protected def bind (first : Traced α) (next : α → Traced β) : Traced β :=
  match first.result with
  | .ok value =>
    let second := next value
    ⟨first.accesses ++ second.accesses, second.result⟩
  | .error fault => ⟨first.accesses, .error fault⟩

instance : Monad Traced where
  pure := Traced.pure
  bind := Traced.bind

/-- After a result the computation goes on, and the accesses of both parts are reported. -/
@[simp]
theorem result_bind_ok (first : List Access) (value : α) (next : α → Traced β) :
    ((⟨first, .ok value⟩ : Traced α) >>= next).result = (next value).result := rfl

@[simp]
theorem accesses_bind_ok (first : List Access) (value : α) (next : α → Traced β) :
    ((⟨first, .ok value⟩ : Traced α) >>= next).accesses = first ++ (next value).accesses := rfl

/-- A fault ends the computation. -/
@[simp]
theorem bind_error (first : List Access) (fault : Fault) (next : α → Traced β) :
    (⟨first, .error fault⟩ : Traced α) >>= next = ⟨first, .error fault⟩ := rfl

@[simp]
theorem pure_eq (value : α) : (pure value : Traced α) = ⟨[], .ok value⟩ := rfl

end Traced

end Chip8
