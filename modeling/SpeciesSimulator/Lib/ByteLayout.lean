import Mathlib.Data.List.Basic
import Mathlib.Tactic.Ring
import Mathlib.Tactic.NormNum

/-!
# Object representations

A type with a `Layout` has a fixed number of bytes, `size`, and a byte
representation that can be read back.  This is what copying an object of the
type to and from raw memory needs, whatever the order, the padding and the
hidden fields of the representation are.

Unsigned integers are little endian.  Structures are built from their members
with `Layout (α × β)`, `Padding` and `Layout.retract`.

Main facts:
* `length_serialize`: an array takes `length * size` bytes;
* `deserialize_serialize`: reading an array back gives the array;
* `toBytes_ofBytes_uint64`: eight bytes read as a number are its representation.
-/

namespace ByteLayout

universe u v

/-- Fixed-size byte representation of a type. -/
class Layout (α : Type u) where
  size : Nat
  toBytes : α → List UInt8
  ofBytes : List UInt8 → α
  size_pos : 0 < size
  length_toBytes : ∀ a, (toBytes a).length = size
  ofBytes_toBytes : ∀ a, ofBytes (toBytes a) = a

export Layout (toBytes ofBytes size_pos length_toBytes ofBytes_toBytes)

attribute [simp] Layout.length_toBytes Layout.ofBytes_toBytes

/-- Number of bytes of an object of the type. -/
abbrev byteSize (α : Type u) [Layout α] : Nat :=
  Layout.size α

section LittleEndian

/-- The `w` low bytes of `n`, least significant first. -/
def leBytes : Nat → Nat → List UInt8
  | 0, _ => []
  | w + 1, n => UInt8.ofNat n :: leBytes w (n / 256)

/-- The number whose bytes, least significant first, are given. -/
def leValue : List UInt8 → Nat
  | [] => 0
  | b :: bs => b.toNat + 256 * leValue bs

@[simp] theorem length_leBytes (w n : Nat) :
    (leBytes w n).length = w := by
  induction w generalizing n with
  | zero => rfl
  | succ w ih => simp [leBytes, ih]

theorem leValue_leBytes (w n : Nat) :
    leValue (leBytes w n) = n % 256 ^ w := by
  induction w generalizing n with
  | zero =>
      simp [leBytes, leValue, Nat.mod_one]
  | succ w ih =>
      have hbyte : (UInt8.ofNat n).toNat = n % 256 := by
        simp
      simp only [leBytes, leValue, hbyte, ih]
      rw [pow_succ', Nat.mod_mul]

theorem leValue_leBytes_of_lt
    {w n : Nat}
    (h : n < 256 ^ w) :
    leValue (leBytes w n) = n := by
  rw [leValue_leBytes, Nat.mod_eq_of_lt h]

theorem leValue_lt (bs : List UInt8) :
    leValue bs < 256 ^ bs.length := by
  induction bs with
  | nil => simp [leValue]
  | cons b bs ih =>
      have hb : b.toNat < 256 := b.toNat_lt
      simp only [leValue, List.length_cons, pow_succ']
      omega

/-- Bytes are read off a number as they were put into it. -/
theorem leBytes_leValue (bs : List UInt8) :
    leBytes bs.length (leValue bs) = bs := by
  induction bs with
  | nil => rfl
  | cons b bs ih =>
      have hb : b.toNat < 256 := b.toNat_lt
      have hlow : UInt8.ofNat (b.toNat + 256 * leValue bs) = b := by
        apply UInt8.toNat_inj.mp
        rw [UInt8.toNat_ofNat']
        omega
      have hhigh : (b.toNat + 256 * leValue bs) / 256 = leValue bs := by
        omega
      simp only [List.length_cons, leBytes, leValue, hlow, hhigh, ih]

instance : Layout UInt8 where
  size := 1
  toBytes b := [b]
  ofBytes bs := bs.headD 0
  size_pos := by decide
  length_toBytes _ := rfl
  ofBytes_toBytes _ := rfl

instance : Layout UInt16 where
  size := 2
  toBytes n := leBytes 2 n.toNat
  ofBytes bs := UInt16.ofNat (leValue bs)
  size_pos := by decide
  length_toBytes _ := length_leBytes _ _
  ofBytes_toBytes n := by
    rw [leValue_leBytes_of_lt (by have := n.toNat_lt; omega)]
    exact UInt16.ofNat_toNat

instance : Layout UInt32 where
  size := 4
  toBytes n := leBytes 4 n.toNat
  ofBytes bs := UInt32.ofNat (leValue bs)
  size_pos := by decide
  length_toBytes _ := length_leBytes _ _
  ofBytes_toBytes n := by
    rw [leValue_leBytes_of_lt (by have := n.toNat_lt; omega)]
    exact UInt32.ofNat_toNat

instance : Layout UInt64 where
  size := 8
  toBytes n := leBytes 8 n.toNat
  ofBytes bs := UInt64.ofNat (leValue bs)
  size_pos := by decide
  length_toBytes _ := length_leBytes _ _
  ofBytes_toBytes n := by
    rw [leValue_leBytes_of_lt (by have := n.toNat_lt; omega)]
    exact UInt64.ofNat_toNat

/-- Every eight bytes are the representation of the number they make. -/
theorem toBytes_ofBytes_uint64
    {bs : List UInt8}
    (hlen : bs.length = byteSize UInt64) :
    toBytes (ofBytes bs : UInt64) = bs := by
  have h8 : bs.length = 8 := hlen
  have hlt : leValue bs < 2 ^ 64 := by
    have h := leValue_lt bs
    rw [h8] at h
    omega
  show leBytes 8 (UInt64.ofNat (leValue bs)).toNat = bs
  rw [UInt64.toNat_ofNat_of_lt' hlt, ← h8]
  exact leBytes_leValue bs

end LittleEndian

section Structures

variable {α : Type u} {β : Type v}

/-- `n` bytes of a representation that carry no value. -/
structure Padding (n : Nat) where

instance (n : Nat) : Layout (Padding (n + 1)) where
  size := n + 1
  toBytes _ := List.replicate (n + 1) 0
  ofBytes _ := {}
  size_pos := Nat.succ_pos n
  length_toBytes _ := List.length_replicate
  ofBytes_toBytes _ := rfl

/-- Members are laid out one after the other. -/
instance [Layout α] [Layout β] : Layout (α × β) where
  size := byteSize α + byteSize β
  toBytes p := toBytes p.1 ++ toBytes p.2
  ofBytes bs :=
    (ofBytes (bs.take (byteSize α)), ofBytes (bs.drop (byteSize α)))
  size_pos := Nat.add_pos_left (size_pos (α := α)) _
  length_toBytes p := by simp
  ofBytes_toBytes p := by
    have hlen : (toBytes p.1).length = byteSize α := length_toBytes p.1
    rw [List.take_left' hlen, List.drop_left' hlen]
    simp

/-- The layout of a type whose values are read off from `β`. -/
@[reducible] def Layout.retract [Layout β]
    (f : α → β) (g : β → α)
    (h : ∀ a, g (f a) = a) :
    Layout α where
  size := byteSize β
  toBytes a := toBytes (f a)
  ofBytes bs := g (ofBytes bs)
  size_pos := size_pos (α := β)
  length_toBytes a := length_toBytes (f a)
  ofBytes_toBytes a := by simp [h]

end Structures

section Arrays

variable {α : Type u} [Layout α]

/-- Consecutive objects in memory. -/
def serialize (xs : List α) : List UInt8 :=
  xs.flatMap toBytes

/-- Read `n` consecutive objects. -/
def deserialize : Nat → List UInt8 → List α
  | 0, _ => []
  | n + 1, bs =>
      ofBytes (bs.take (byteSize α)) :: deserialize n (bs.drop (byteSize α))

@[simp] theorem serialize_nil :
    serialize ([] : List α) = [] := by
  rfl

@[simp] theorem serialize_cons (x : α) (xs : List α) :
    serialize (x :: xs) = toBytes x ++ serialize xs := by
  simp [serialize]

@[simp] theorem serialize_append (xs ys : List α) :
    serialize (xs ++ ys) = serialize xs ++ serialize ys := by
  simp [serialize]

@[simp] theorem length_serialize (xs : List α) :
    (serialize xs).length = byteSize α * xs.length := by
  induction xs with
  | nil => simp
  | cons x xs ih =>
      simp only [serialize_cons, List.length_append, length_toBytes, ih,
        List.length_cons]
      ring

/-- As many elements are read as were asked for. -/
@[simp] theorem length_deserialize (n : Nat) (bs : List UInt8) :
    (deserialize n bs : List α).length = n := by
  induction n generalizing bs with
  | zero => rfl
  | succ n ih => rw [deserialize, List.length_cons, ih]

/-- An array is read back from its bytes. -/
@[simp] theorem deserialize_serialize (xs : List α) :
    deserialize xs.length (serialize xs) = xs := by
  induction xs with
  | nil => rfl
  | cons x xs ih =>
      have hlen : (toBytes x).length = byteSize α := length_toBytes x
      simp only [List.length_cons, serialize_cons, deserialize]
      rw [List.take_left' hlen, List.drop_left' hlen, ih]
      simp

/-- Only an empty array has no bytes. -/
theorem serialize_eq_nil_iff (xs : List α) :
    serialize xs = [] ↔ xs = [] := by
  constructor
  · intro h
    have hlen := congrArg List.length h
    have hpos := size_pos (α := α)
    simp only [length_serialize, List.length_nil,
      Nat.mul_eq_zero] at hlen
    rcases hlen with h0 | h0
    · exact absurd h0 (Nat.ne_of_gt hpos)
    · exact List.length_eq_zero_iff.mp h0
  · rintro rfl
    rfl

end Arrays

end ByteLayout
