import SpeciesSimulator.Params

/-!
# Entities

The class `Entity`.  Its constructors and its copy operations copy every data
member, so an entity is modelled by its members alone.  In memory the members
come after the vtable pointer and are padded to a multiple of eight bytes.
-/

namespace SpeciesSimulator

open ByteLayout

structure Entity where
  id : UInt64 := 0
  x : UInt16 := 0
  y : UInt16 := 0
  veloX : UInt16 := 0
  veloY : UInt16 := 0
  char : EntityStyle := .empty
  type : EntityType := .entity
deriving DecidableEq

instance : Inhabited Entity where
  default := {}

/-- Vtable pointer, members, tail padding. -/
instance : Layout Entity :=
  Layout.retract
    (fun e =>
      ((⟨⟩ : Padding 8), e.id, e.x, e.y, e.veloX, e.veloY,
        e.char, e.type, (⟨⟩ : Padding 6)))
    (fun
      | (_, id, x, y, veloX, veloY, char, type, _) =>
          ⟨id, x, y, veloX, veloY, char, type⟩)
    (fun _ => rfl)

example : byteSize Entity = 32 := by
  rfl

end SpeciesSimulator
