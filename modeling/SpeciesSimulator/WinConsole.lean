import SpeciesSimulator.Params

/-!
# Console and console buffer

The class `TSConsoleBuffer` with the memory it allocates, and of `WinConsole`
the layout that the rest of the program asks it for.  Characters reach the
screen through the console API of the system, which is left out.

The memory of a buffer has its own length: the constructor allocates
`width * height` cells, `resize` allocates any number and leaves width and
height as they are.

`Fault` collects the ways in which a computation of the program has no result.
-/

namespace SpeciesSimulator

/-- Why a computation has no result. -/
inductive Fault where
  /-- A signed integer left the range of its type. -/
  | overflow
  /-- `at` threw `std::out_of_range`. -/
  | outOfRange
  /-- An access outside of the memory that was allocated. -/
  | wildAccess
  /-- A null pointer was followed. -/
  | nullPointer
  /-- A vector was asked to grow beyond its `max_size`. -/
  | lengthError
  /-- An integer was divided by zero. -/
  | divisionByZero
  /-- An allocation threw `std::bad_alloc`. -/
  | badAlloc
  /-- The counter of a loop wraps around before it reaches its bound. -/
  | endlessLoop
  /-- An access to an object that has been freed. -/
  | useAfterFree
  /-- A call of asio threw `std::system_error`. -/
  | systemError
deriving DecidableEq

section Faults

variable {α β : Type}

@[simp] theorem bind_ok (a : α) (f : α → Except Fault β) :
    (Except.ok a >>= f) = f a := by
  rfl

@[simp] theorem bind_error (e : Fault) (f : α → Except Fault β) :
    (Except.error e >>= f) = .error e := by
  rfl

@[simp] theorem pure_eq_ok (a : α) :
    (pure a : Except Fault α) = .ok a := by
  rfl

/-- A sequence of two computations has a result only if both have. -/
theorem exists_of_bind_ok
    {x : Except Fault α} {f : α → Except Fault β} {b : β}
    (h : (x >>= f) = .ok b) :
    ∃ a, x = .ok a ∧ f a = .ok b := by
  cases x with
  | error e =>
      cases h
  | ok a =>
      exact ⟨a, rfl, h⟩

end Faults

/-- A step without a defined result accesses memory out of bounds. -/
def orWild {α : Type} : Option α → Except Fault α
  | some a => .ok a
  | none => .error .wildAccess

/-- The result of an `int` operation. -/
def checkInt (n : Int) : Except Fault Int :=
  if -2 ^ 31 ≤ n ∧ n < 2 ^ 31 then .ok n else .error .overflow

theorem checkInt_of_range
    {n : Int}
    (hlow : -2 ^ 31 ≤ n)
    (hhigh : n < 2 ^ 31) :
    checkInt n = .ok n := by
  simp only [checkInt]
  rw [if_pos ⟨hlow, hhigh⟩]

/-- An `int` converted to `size_t`. -/
def toSize (n : Int) : Nat :=
  (n % 2 ^ 64).toNat

/-- A `char` that is stored as a 16-bit character of the console: it is signed, and its
sign is extended. -/
def widen (ch : UInt8) : UInt16 :=
  if ch < 128 then ch.toUInt16 else ch.toUInt16 + 0xFF00

section Widen

variable {ch : UInt8}

theorem toNat_widen (ch : UInt8) :
    (widen ch).toNat =
      if ch.toNat < 128 then ch.toNat else ch.toNat + 65280 := by
  have hlt := ch.toNat_lt
  have hiff : ch < 128 ↔ ch.toNat < 128 := UInt8.lt_iff_toNat_lt
  unfold widen
  by_cases h : ch < 128
  · rw [if_pos h, if_pos (hiff.mp h)]
    exact UInt8.toNat_toUInt16 ch
  · rw [if_neg h, if_neg fun h' => h (hiff.mpr h'), UInt16.toNat_add,
      UInt8.toNat_toUInt16]
    show (ch.toNat + 65280) % 2 ^ 16 = _
    omega

/-- Only the first half of the characters keep their value. -/
theorem widen_eq_toUInt16_iff :
    widen ch = ch.toUInt16 ↔ ch < 128 := by
  rw [← UInt16.toNat_inj, toNat_widen, UInt8.toNat_toUInt16,
    UInt8.lt_iff_toNat_lt]
  show _ ↔ ch.toNat < 128
  split <;> omega

end Widen

structure TSConsoleBuffer where
  width : Nat
  height : Nat
  charBuffer : List UInt16
deriving DecidableEq

namespace TSConsoleBuffer

/-- The character `' '`. -/
def blank : UInt16 := 32

/-- The constructor; a counter of type `int` fills the cells. -/
def make (width height : Nat) : Except Fault TSConsoleBuffer :=
  if width * height < 2 ^ 31 then
    .ok ⟨width, height, List.replicate (width * height) blank⟩
  else
    .error .overflow

def resize (b : TSConsoleBuffer) (size : Nat) :
    Except Fault TSConsoleBuffer :=
  if size < 2 ^ 31 then
    .ok { b with charBuffer := List.replicate size blank }
  else
    .error .overflow

/-- Store a character in the allocated memory. -/
def store (b : TSConsoleBuffer) (pos : Nat) (ch : UInt8) :
    Except Fault TSConsoleBuffer :=
  if pos < b.charBuffer.length then
    .ok { b with charBuffer := b.charBuffer.set pos (widen ch) }
  else
    .error .wildAccess

/-- Write a character to its real position. -/
def writeCharacterAt (b : TSConsoleBuffer) (realPos : Nat) (ch : UInt8) :
    Except Fault TSConsoleBuffer :=
  if realPos < b.width * b.height then b.store realPos ch else .ok b

/-- Write a character to its position relative to `x` and `y`. -/
def writeCharacter (b : TSConsoleBuffer) (xpos ypos : Nat) (ch : UInt8) :
    Except Fault TSConsoleBuffer :=
  if xpos < b.width ∧ ypos < b.height then
    b.store (ypos * b.width + xpos) ch
  else
    .ok b

/-- The allocated memory is what width and height say. -/
def Sized (b : TSConsoleBuffer) : Prop :=
  b.charBuffer.length = b.width * b.height

theorem sized_of_make
    {width height : Nat} {b : TSConsoleBuffer}
    (h : make width height = .ok b) :
    b.Sized ∧ b.width = width ∧ b.height = height := by
  unfold make at h
  split at h
  · cases h
    exact ⟨by simp [Sized], rfl, rfl⟩
  · cases h

/-- A cell inside of the buffer has its place in memory. -/
theorem index_lt
    {width height x y : Nat}
    (hx : x < width)
    (hy : y < height) :
    y * width + x < width * height := by
  calc
    y * width + x < y * width + width := by omega
    _ = (y + 1) * width := by rw [Nat.succ_mul]
    _ ≤ height * width := Nat.mul_le_mul_right width hy
    _ = width * height := Nat.mul_comm height width

/-- Every place in memory belongs to a cell. -/
theorem exists_index
    {width height i : Nat}
    (h : i < width * height) :
    ∃ x y, x < width ∧ y < height ∧ y * width + x = i := by
  have hwidth : 0 < width := by
    by_contra hzero
    rw [Nat.eq_zero_of_not_pos hzero] at h
    omega
  refine
    ⟨i % width, i / width, Nat.mod_lt i hwidth, Nat.div_lt_of_lt_mul h, ?_⟩
  rw [Nat.mul_comm]
  exact Nat.div_add_mod i width

/-- Writing to a buffer with its own memory has a result, of the same size. -/
theorem Sized.writeCharacter
    {b : TSConsoleBuffer}
    (h : b.Sized)
    (x y : Nat) (ch : UInt8) :
    ∃ b', b.writeCharacter x y ch = .ok b' ∧ b'.Sized ∧
      b'.width = b.width ∧ b'.height = b.height := by
  by_cases hguard : x < b.width ∧ y < b.height
  · have hlt : y * b.width + x < b.charBuffer.length := by
      rw [h]
      exact index_lt hguard.1 hguard.2
    refine
      ⟨{ b with charBuffer := b.charBuffer.set (y * b.width + x) (widen ch) },
        ?_, ?_, rfl, rfl⟩
    · simp [TSConsoleBuffer.writeCharacter, store, hguard, hlt]
    · simpa [Sized] using h
  · refine ⟨b, ?_, h, rfl, rfl⟩
    simp [TSConsoleBuffer.writeCharacter, hguard]

end TSConsoleBuffer

/-- The console window, as far as the program reads it back. -/
structure WinConsole where
  layout : WinConsoleLayout
deriving DecidableEq

namespace WinConsole

def createConsole (_ : WinConsole) (layout : WinConsoleLayout) : WinConsole :=
  ⟨layout⟩

end WinConsole

end SpeciesSimulator
