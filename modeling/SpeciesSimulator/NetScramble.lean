import SpeciesSimulator.NetGate

/-!
# Challenges with the same reply

A peer answers a challenge with what `mf_scramble` makes of it, and a connection
of the server compares the answer with what it makes of the challenge itself.

`mf_scramble` moves every second group of four bits down by four and up by four
and merges the two results.  The other groups are masked out, apart from the
lowest one, which is shifted out.

Main facts:
* `mfScramble_eq_iff`: which challenges have the same reply;
* `replies_identify_iff`: the reply to a challenge is turned down by a connection
  with another one, if and only if a merged bit of the two differs.
-/

namespace SpeciesSimulator

open ByteLayout

universe u

section Bits

/-- The bit at a position, the lowest one first. -/
def bitAt (n : UInt64) (p : Nat) : Bool :=
  n.toBitVec.getLsbD p

/-- What becomes of two bits that are eight positions apart; below the twelfth
only the higher one is left. -/
def merged (n : UInt64) (p : Nat) : Bool :=
  bitAt n (p + 8) || (decide (12 ≤ p) && bitAt n p)

/-- A merged bit of one of the groups that are moved differs. -/
def ToldApart (c c' : UInt64) : Prop :=
  ∃ p < 56, p / 4 % 2 = 1 ∧
    merged (c ^^^ 0xDEADBEEFC0DECAFE) p ≠ merged (c' ^^^ 0xDEADBEEFC0DECAFE) p

instance (c c' : UInt64) : Decidable (ToldApart c c') :=
  inferInstanceAs (Decidable (∃ p, p < 56 ∧ _))

theorem eq_of_bitAt
    {n n' : UInt64}
    (h : ∀ p < 64, bitAt n p = bitAt n' p) :
    n = n' := by
  apply UInt64.eq_of_toBitVec_eq
  exact BitVec.eq_of_getLsbD_eq fun p hp => h p hp

/-- The two shifts of `mf_scramble`. -/
def spread (n : UInt64) : UInt64 :=
  ((n &&& 0xF0F0F0F0F0F0F00F) >>> 4) ||| ((n &&& 0xF0F0F0F0F0F0F000) <<< 4)

/-- The bits that go down by four positions. -/
theorem mask_down :
    ∀ p < 64,
      (0xF0F0F0F0F0F0F00F : UInt64).toBitVec.getLsbD (4 + p) =
        decide (p / 4 % 2 = 0 ∧ 8 ≤ p) := by
  decide

/-- The bits that go up by four positions. -/
theorem mask_up :
    ∀ p < 64, 4 ≤ p →
      (0xF0F0F0F0F0F0F000 : UInt64).toBitVec.getLsbD (p - 4) =
        decide (p / 4 % 2 = 0 ∧ 16 ≤ p) := by
  decide

/-- The groups of four bits are empty or merged from their neighbours. -/
theorem bitAt_spread
    (n : UInt64) {p : Nat}
    (hp : p < 64) :
    bitAt (spread n) p =
      (decide (p / 4 % 2 = 0 ∧ 8 ≤ p) && merged n (p - 4)) := by
  have hdown := mask_down p hp
  have hbits :
      bitAt (spread n) p =
        (bitAt n (4 + p) &&
            (0xF0F0F0F0F0F0F00F : UInt64).toBitVec.getLsbD (4 + p) ||
          !decide (p < 4) &&
            (bitAt n (p - 4) &&
              (0xF0F0F0F0F0F0F000 : UInt64).toBitVec.getLsbD (p - 4))) := by
    have hsub : p - 4 < 64 := by omega
    simp [bitAt, spread, hp, ← BitVec.getLsbD_eq_getElem hsub]
  rw [hbits, hdown]
  by_cases hlow : p < 4
  · have hnot : ¬ (p / 4 % 2 = 0 ∧ 8 ≤ p) := by omega
    simp [hlow, hnot]
  · have hup := mask_up p hp (by omega)
    have hplace : p - 4 + 8 = 4 + p := by omega
    rw [hup, merged, hplace]
    by_cases heven : p / 4 % 2 = 0
    · have height : 8 ≤ p := by omega
      have hsixteen : 12 ≤ p - 4 ↔ 16 ≤ p := by omega
      simp [heven, height, hlow, hsixteen, Bool.and_comm]
    · simp [heven]

end Bits

section Replies

theorem mfScramble_eq_spread (c : UInt64) :
    mfScramble c =
      spread (c ^^^ 0xDEADBEEFC0DECAFE) ^^^ 0xC0DEFACE12345678 := by
  rfl

/-- Two challenges have the same reply if no merged bit tells them apart. -/
theorem mfScramble_eq_iff (c c' : UInt64) :
    mfScramble c = mfScramble c' ↔ ¬ ToldApart c c' := by
  rw [mfScramble_eq_spread, mfScramble_eq_spread, UInt64.xor_left_inj]
  constructor
  · rintro heq ⟨p, hp, hodd, hne⟩
    have hbit := congrArg (bitAt · (p + 4)) heq
    have hmoved : (p + 4) / 4 % 2 = 0 ∧ 8 ≤ p + 4 := by omega
    simp only [bitAt_spread _ (show p + 4 < 64 by omega), hmoved,
      Nat.add_sub_cancel, and_self, decide_true, Bool.true_and] at hbit
    exact hne hbit
  · intro hsame
    refine eq_of_bitAt fun p hp => ?_
    rw [bitAt_spread _ hp, bitAt_spread _ hp]
    by_cases hmoved : p / 4 % 2 = 0 ∧ 8 ≤ p
    · have hmerged :
          merged (c ^^^ 0xDEADBEEFC0DECAFE) (p - 4) =
            merged (c' ^^^ 0xDEADBEEFC0DECAFE) (p - 4) := by
        by_contra hne
        exact hsame ⟨p - 4, by omega, by omega, hne⟩
      rw [hmerged]
    · simp [hmoved]

end Replies

namespace Connection

variable {T : Type u}

/-- A connection of the server accepts the replies that it would give itself. -/
theorem onReadValidation_validated_iff [Layout (MessageHeader T)]
    {conn : Connection T}
    (h : ServerSide conn)
    (c : UInt64) :
    (conn.onReadValidation (toBytes (mfScramble c))).2 = .validated ↔
      mfScramble c = mfScramble conn.nHandshakeOut := by
  rw [onReadValidation_of_server h.owner, ofBytes_toBytes, h.check]
  split
  · next heq => exact ⟨fun _ => heq, fun _ => rfl⟩
  · next hne =>
    constructor
    · intro hvalidated
      cases hvalidated
    · intro heq
      exact absurd heq hne

/-- The replies to two challenges differ, and a connection that has issued the
second turns down the reply to the first, if and only if a merged bit tells the
challenges apart. -/
theorem replies_identify_iff [Layout (MessageHeader T)] (c c' : UInt64) :
    ((c ≠ c' → mfScramble c ≠ mfScramble c') ↔ c = c' ∨ ToldApart c c') ∧
      ∀ conn : Connection T, ServerSide conn → conn.nHandshakeOut = c' →
        ((c ≠ c' →
            (conn.onReadValidation (toBytes (mfScramble c))).2 ≠ .validated) ↔
          c = c' ∨ ToldApart c c') := by
  have hdiffer :
      (c ≠ c' → mfScramble c ≠ mfScramble c') ↔ c = c' ∨ ToldApart c c' := by
    rw [ne_eq (mfScramble c), mfScramble_eq_iff, not_not]
    tauto
  refine ⟨hdiffer, fun conn hside hissued => ?_⟩
  rw [ne_eq ((conn.onReadValidation _).2), onReadValidation_validated_iff hside,
    hissued]
  exact hdiffer

/-- The reply to challenge 1 validates a connection that has issued 2. -/
theorem replies_identify_iff_fails_on_neighbour :
    (1 : UInt64) ≠ 2 ∧ mfScramble 1 = mfScramble 2 ∧
      ∃ conn conn' : Connection MessageType,
        (acceptConnection Message.fresh 2 10000).ioStep
            (.recv 0 (toBytes (mfScramble 1))) = some (conn, .none) ∧
          conn.ioStep (.readDone 0) = some (conn', .validated) := by
  have hsame : mfScramble 1 = mfScramble 2 := by decide
  refine ⟨by decide, hsame, ?_⟩
  rw [hsame]
  exact exists_right_reply _ _ _

end Connection

end SpeciesSimulator
