import SpeciesSimulator.Lib.Transition
import SpeciesSimulator.WinConsole

/-!
# The memory of a console buffer

A run of a `TSConsoleBuffer` is a sequence of calls of `resize` and of both
overloads of `write_character`.  The bounds that the writes check are those of the
constructor, and `resize` does not change them: a buffer whose memory was made
smaller is written outside of its memory.

Main facts:
* `writesInside_iff`: when no write can leave the memory;
* `Allocated.step`: what one call does to the allocated length;
* `run_sized_iff`: the allocated length is `width * height` throughout a run, if
  and only if every `resize` asks for just that; no write can leave the memory, if
  and only if none asks for less.
-/

namespace SpeciesSimulator

open Transition

/-- A call that changes a buffer. -/
inductive BufferEvent where
  | resize (size : Fin (2 ^ 31))
  | writeAt (realPos : Nat) (ch : UInt8)
  | write (xpos ypos : Nat) (ch : UInt8)

namespace TSConsoleBuffer

/-- What a call does. -/
def call (b : TSConsoleBuffer) : BufferEvent → Except Fault TSConsoleBuffer
  | .resize size => b.resize size
  | .writeAt realPos ch => b.writeCharacterAt realPos ch
  | .write xpos ypos ch => b.writeCharacter xpos ypos ch

/-- Nothing is known after an access outside of the memory. -/
def step (b : TSConsoleBuffer) (e : BufferEvent) : Option TSConsoleBuffer :=
  (b.call e).toOption

/-- Whatever is written next, it is written to the allocated memory. -/
def WritesInside (b : TSConsoleBuffer) : Prop :=
  ∀ e, b.call e ≠ .error .wildAccess

/-- The allocated length after a call. -/
def lengthAfter (b : TSConsoleBuffer) : BufferEvent → Nat
  | .resize size => size
  | .writeAt _ _ => b.charBuffer.length
  | .write _ _ _ => b.charBuffer.length

/-- Whatever `resize` asks for has the property. -/
def AsksFor (R : Nat → Prop) : BufferEvent → Prop
  | .resize size => R size
  | .writeAt _ _ => True
  | .write _ _ _ => True

section Calls

variable {b : TSConsoleBuffer}

/-- Writing to the memory does not move its borders. -/
theorem store_of_lt
    {pos : Nat}
    (ch : UInt8)
    (h : pos < b.charBuffer.length) :
    ∃ b', b.store pos ch = .ok b' ∧ b'.width = b.width ∧
      b'.height = b.height ∧ b'.charBuffer.length = b.charBuffer.length := by
  refine ⟨{ b with charBuffer := b.charBuffer.set pos (widen ch) }, ?_, rfl, rfl, ?_⟩
  · simp only [store, if_pos h]
  · exact List.length_set

/-- What a call does to a buffer whose memory is as large as the checks take it
to be. -/
theorem call_of_le
    (h : b.width * b.height ≤ b.charBuffer.length)
    (e : BufferEvent) :
    ∃ b', b.call e = .ok b' ∧ b'.width = b.width ∧ b'.height = b.height ∧
      b'.charBuffer.length = b.lengthAfter e := by
  cases e with
  | resize size =>
      refine
        ⟨{ b with charBuffer := List.replicate size blank }, ?_, rfl, rfl, ?_⟩
      · simp only [call, resize, if_pos size.isLt]
      · exact List.length_replicate
  | writeAt realPos ch =>
      simp only [call, writeCharacterAt, lengthAfter]
      split
      · next hpos => exact store_of_lt ch (lt_of_lt_of_le hpos h)
      · exact ⟨b, rfl, rfl, rfl, rfl⟩
  | write xpos ypos ch =>
      simp only [call, writeCharacter, lengthAfter]
      split
      · next hguard =>
        have hlt := index_lt hguard.1 hguard.2
        exact store_of_lt ch (lt_of_lt_of_le hlt h)
      · exact ⟨b, rfl, rfl, rfl, rfl⟩

/-- No write leaves the memory, if and only if it is as large as the checks take
it to be. -/
theorem writesInside_iff :
    b.WritesInside ↔ b.width * b.height ≤ b.charBuffer.length := by
  constructor
  · intro h
    by_contra hlt
    refine h (.writeAt b.charBuffer.length 32) ?_
    simp only [call, writeCharacterAt, store, if_pos (Nat.lt_of_not_le hlt),
      lt_irrefl, if_false]
  · intro h e hwild
    obtain ⟨b', hcall, -⟩ := call_of_le h e
    rw [hcall] at hwild
    cases hwild

end Calls

section Runs

variable {width height : Nat}

/-- A buffer with the bounds of its constructor and a memory of which `R` is
known. -/
structure Allocated
    (width height : Nat) (R : Nat → Prop) (b : TSConsoleBuffer) : Prop where
  width_eq : b.width = width
  height_eq : b.height = height
  length : R b.charBuffer.length

/-- One call: only `resize` decides whether `R` still holds. -/
theorem Allocated.step
    {R : Nat → Prop} {b : TSConsoleBuffer}
    (h : Allocated width height R b)
    (hR : ∀ n, R n → width * height ≤ n)
    (e : BufferEvent) :
    ∃ b', b.step e = some b' ∧ b'.width = width ∧ b'.height = height ∧
      (R b'.charBuffer.length ↔ AsksFor R e) := by
  have hle : b.width * b.height ≤ b.charBuffer.length := by
    rw [h.width_eq, h.height_eq]
    exact hR _ h.length
  obtain ⟨b', hcall, hwidth, hheight, hlength⟩ := call_of_le hle e
  refine ⟨b', ?_, hwidth.trans h.width_eq, hheight.trans h.height_eq, ?_⟩
  · rw [TSConsoleBuffer.step, hcall]
    rfl
  · rw [hlength]
    cases e with
    | resize size => exact Iff.rfl
    | writeAt realPos ch => exact iff_true_intro h.length
    | write xpos ypos ch => exact iff_true_intro h.length

/-- A property of the allocated length that makes all writes safe holds throughout
a run, if and only if it holds of whatever `resize` asks for. -/
theorem always_length_iff
    {R : Nat → Prop} {P : TSConsoleBuffer → Prop} {b : TSConsoleBuffer}
    (hR : ∀ n, R n → width * height ≤ n)
    (hP : ∀ b : TSConsoleBuffer, b.width = width → b.height = height →
      (P b ↔ R b.charBuffer.length))
    (h₀ : Allocated width height R b)
    (es : List BufferEvent) :
    Always step P b es ↔
      ∀ size : Fin (2 ^ 31), .resize size ∈ es → R size := by
  have hevents :
      (∀ e ∈ es, AsksFor R e) ↔
        ∀ size : Fin (2 ^ 31), .resize size ∈ es → R size := by
    constructor
    · exact fun h size hsize => h _ hsize
    · intro h e he
      cases e with
      | resize size => exact h size he
      | writeAt realPos ch => trivial
      | write xpos ypos ch => trivial
  rw [← hevents]
  refine
    always_iff_forall (I := Allocated width height R) ?_ ?_ ?_ h₀
  · intro b e hb hasks
    obtain ⟨b', hstep, hwidth, hheight, hiff⟩ := hb.step hR e
    exact ⟨b', hstep, hwidth, hheight, hiff.mpr hasks⟩
  · exact fun b hb => (hP b hb.width_eq hb.height_eq).mpr hb.length
  · intro b e hb hasks
    obtain ⟨b', hstep, hwidth, hheight, hiff⟩ := hb.step hR e
    refine ⟨b', hstep, fun hgood => hasks ?_⟩
    exact hiff.mp ((hP b' hwidth hheight).mp hgood)

/-- The memory has the length that width and height say throughout a run, if and
only if every `resize` asks for that length.  No write can leave the memory, if and
only if no `resize` asks for less. -/
theorem run_sized_iff
    {b : TSConsoleBuffer}
    (hmake : make width height = .ok b)
    (es : List BufferEvent) :
    (Always step Sized b es ↔
      ∀ size, .resize size ∈ es → size.val = width * height) ∧
    (Always step WritesInside b es ↔
      ∀ size, .resize size ∈ es → width * height ≤ size.val) := by
  obtain ⟨hsized, hwidth, hheight⟩ := sized_of_make hmake
  rw [Sized, hwidth, hheight] at hsized
  constructor
  · refine
      always_length_iff (R := fun n => n = width * height) ?_ ?_
        ⟨hwidth, hheight, hsized⟩ es
    · exact fun n hn => hn.ge
    · intro b hwidth hheight
      rw [Sized, hwidth, hheight]
  · refine
      always_length_iff (R := fun n => width * height ≤ n) ?_ ?_
        ⟨hwidth, hheight, hsized.ge⟩ es
    · exact fun n hn => hn
    · intro b hwidth hheight
      rw [writesInside_iff, hwidth, hheight]

/-- A buffer that is resized to its own length and written in its corner. -/
theorem run_sized_iff_own_length :
    ∃ b, make 2 2 = .ok b ∧
      Always step Sized b [.resize 4, .write 1 1 65] := by
  obtain ⟨b, hmake⟩ : ∃ b, make 2 2 = .ok b := ⟨_, rfl⟩
  refine ⟨b, hmake, (run_sized_iff hmake _).1.mpr fun size hsize => ?_⟩
  rcases List.mem_cons.mp hsize with heq | hsize
  · cases heq
    rfl
  · rcases List.mem_singleton.mp hsize with ⟨⟩

/-- A buffer whose memory is made smaller: its corner is outside of it. -/
theorem run_sized_iff_fails_smaller :
    ∃ b b',
      make 2 2 = .ok b ∧ b.step (.resize 1) = some b' ∧
        ¬ Always step Sized b [.resize 1] ∧
        b'.writeCharacter 1 1 65 = .error .wildAccess := by
  refine ⟨_, _, rfl, rfl, fun h => ?_, rfl⟩
  have hsized := (h.tail rfl).head
  revert hsized
  unfold Sized
  decide

end Runs

end TSConsoleBuffer

end SpeciesSimulator
