import Rar2John.Rar3.FileName
import Mathlib.Tactic.LiftLets

/-!
# The two byte orders of `DecodeFileName`

Every unit `DecodeFileName` writes is built by `unit16` from a low and a high byte, the
`ARCH_LITTLE_ENDIAN` branches only putting the two bytes in the other order. So a
big-endian build runs in lock step with a little-endian one: the same commands at the
same `EncPos` and `DecPos`, and in `NameW` the byte-swap of every unit
(`decodeFileName_big_endian`). A host stores a unit's bytes in its own order, so both
builds leave the same bytes in memory.
-/

namespace Rar2John

/-! ## 16-bit units -/

theorem u8_eq_iff (a b : UInt8) : a = b ↔ a.toNat = b.toNat :=
  ⟨congrArg _, fun h => UInt8.eq_of_toBitVec_eq (BitVec.eq_of_toNat_eq h)⟩

theorem u16_eq_iff (a b : UInt16) : a = b ↔ a.toNat = b.toNat :=
  ⟨congrArg _, fun h => UInt16.eq_of_toBitVec_eq (BitVec.eq_of_toNat_eq h)⟩

theorem u16_toNat_add (a b : UInt16) : (a + b).toNat = (a.toNat + b.toNat) % 2 ^ 16 :=
  BitVec.toNat_add _ _

theorem u16_toNat_shiftLeft_8 (x : UInt16) : (x <<< 8).toNat = x.toNat * 256 % 2 ^ 16 := by
  show (x.toBitVec <<< (8 % 16 : UInt16).toBitVec).toNat = _
  rw [BitVec.shiftLeft_eq', BitVec.toNat_shiftLeft, Nat.shiftLeft_eq]
  rfl

theorem u16_toNat_shiftRight_8 (x : UInt16) : (x >>> 8).toNat = x.toNat / 256 := by
  show (x.toBitVec >>> (8 % 16 : UInt16).toBitVec).toNat = _
  rw [BitVec.ushiftRight_eq', BitVec.toNat_ushiftRight, Nat.shiftRight_eq_div_pow]
  rfl

theorem u8_toNat_toUInt16 (c : UInt8) : c.toUInt16.toNat = c.toNat := rfl

theorem u16_toNat_toUInt8 (u : UInt16) : u.toUInt8.toNat = u.toNat % 2 ^ 8 :=
  BitVec.toNat_ofNat _ _

/-- The unit with its two bytes exchanged. -/
def byteSwap16 (u : UInt16) : UInt16 := (u <<< 8) + (u >>> 8)

theorem toNat_byteSwap16 (u : UInt16) :
    (byteSwap16 u).toNat = u.toNat % 256 * 256 + u.toNat / 256 := by
  have := u.toNat_lt_size
  simp only [UInt16.size] at this
  rw [byteSwap16, u16_toNat_add, u16_toNat_shiftLeft_8, u16_toNat_shiftRight_8]
  omega

@[simp] theorem byteSwap16_zero : byteSwap16 0 = 0 := by decide

theorem toNat_unit16 (littleEndian : Bool) (lo hi : UInt8) :
    (unit16 littleEndian lo hi).toNat =
      if littleEndian then lo.toNat + hi.toNat * 256 else lo.toNat * 256 + hi.toNat := by
  have := lo.toNat_lt_size
  have := hi.toNat_lt_size
  simp only [UInt8.size] at *
  cases littleEndian <;> simp only [unit16, u16_toNat_add, u16_toNat_shiftLeft_8,
    u8_toNat_toUInt16, if_true, if_false, Bool.false_eq_true] <;> omega

theorem unit16_big_endian (lo hi : UInt8) :
    unit16 false lo hi = byteSwap16 (unit16 true lo hi) := by
  have := lo.toNat_lt_size
  have := hi.toNat_lt_size
  rw [u16_eq_iff, toNat_byteSwap16, toNat_unit16, toNat_unit16]
  simp only [UInt8.size, if_true, if_false, Bool.false_eq_true] at *
  omega

example : unit16 true 0x41 0x42 = 0x4241 ∧ unit16 false 0x41 0x42 = 0x4142 := by decide

theorem byteSwap16_bytes (u : UInt16) :
    (byteSwap16 u >>> 8).toUInt8 = u.toUInt8 ∧ (byteSwap16 u).toUInt8 = (u >>> 8).toUInt8 := by
  have := u.toNat_lt_size
  simp only [UInt16.size] at this
  simp only [u8_eq_iff, u16_toNat_toUInt8, u16_toNat_shiftRight_8, toNat_byteSwap16]
  generalize u.toNat = x at *
  have h1 : (x % 256 * 256 + x / 256) / 256 = x % 256 := by omega
  have h2 : (x % 256 * 256 + x / 256) % 2 ^ 8 = x / 256 := by omega
  rw [h1, h2]
  omega

theorem unitBytes_byteSwap16 (s : List UInt16) :
    unitBytes false (s.map byteSwap16) = unitBytes true s := by
  simp only [unitBytes, List.flatMap_map, Bool.false_eq_true, if_false, if_true,
    (byteSwap16_bytes _).1, (byteSwap16_bytes _).2]

/-! ## The decoder in lock step -/

/-- The decoder's variables with every unit of `NameW` swapped. -/
def DecodeState.swapUnits (st : DecodeState) : DecodeState :=
  { st with nameW := st.nameW.map byteSwap16 }

namespace DecodeState

variable (st : DecodeState)

@[simp] theorem swapUnits_flags : st.swapUnits.flags = st.flags := rfl
@[simp] theorem swapUnits_flagBits : st.swapUnits.flagBits = st.flagBits := rfl
@[simp] theorem swapUnits_encPos : st.swapUnits.encPos = st.encPos := rfl
@[simp] theorem swapUnits_decPos : st.swapUnits.decPos = st.decPos := rfl
@[simp] theorem swapUnits_nameW : st.swapUnits.nameW = st.nameW.map byteSwap16 := rfl

end DecodeState

section LockStep

variable (name : Nat → UInt8) (maxDecSize : UInt64)

theorem copyRun_big_endian (unit : UInt8 → UInt16) :
    ∀ (length : Nat) (decPos : UInt64) (nameW : List UInt16),
      copyRun name maxDecSize (fun b => byteSwap16 (unit b)) length decPos (nameW.map byteSwap16) =
        ((copyRun name maxDecSize unit length decPos nameW).1,
          (copyRun name maxDecSize unit length decPos nameW).2.map byteSwap16)
  | 0, _, _ => rfl
  | length + 1, decPos, nameW => by
    rw [copyRun, copyRun]
    split
    · rw [← List.map_set, copyRun_big_endian unit length]
    · rfl

variable (encOff : Nat) (highByte : UInt8)

/-- **Step.** Each command of the big-endian build is the little-endian one's, its unit
swapped. -/
theorem decodeCommand_big_endian (st : DecodeState) :
    decodeCommand false name encOff highByte maxDecSize st.swapUnits =
      (decodeCommand true name encOff highByte maxDecSize st).swapUnits := by
  unfold decodeCommand DecodeState.swapUnits
  dsimp only
  split
  case h_4 =>
    split <;> simp only [unit16_big_endian, copyRun_big_endian]
  all_goals simp only [unit16_big_endian, List.map_set]

/-- **Run.** The big-endian loop goes through the little-endian loop's states, every unit
swapped: the same iterations, at the same positions. -/
theorem decodeLoop_big_endian (encSize : UInt64) :
    ∀ (fuel : Nat) (st : DecodeState),
      decodeLoop false name encOff highByte encSize maxDecSize fuel st.swapUnits =
        (decodeLoop true name encOff highByte encSize maxDecSize fuel st).swapUnits
  | 0, _ => rfl
  | fuel + 1, st => by
    rw [decodeLoop, decodeLoop, DecodeState.swapUnits_encPos, DecodeState.swapUnits_decPos]
    split
    · lift_lets
      intro filled cmd filled' cmd'
      have hfilled : filled = filled'.swapUnits := by
        simp only [filled, filled', DecodeState.swapUnits_flagBits]
        split <;> rfl
      have hcmd : cmd = cmd'.swapUnits := by
        simp only [cmd, cmd', hfilled, decodeCommand_big_endian]
      rw [hcmd]
      exact decodeLoop_big_endian encSize fuel
        { cmd' with flags := cmd'.flags <<< 2, flagBits := cmd'.flagBits - 2 }
    · rfl

end LockStep

/-- **The big-endian build stores the same bytes.** From the call's start, after any number
of iterations, the big-endian decoder is where the little-endian one is, every unit of
`NameW` swapped; so is `NameW` at the end, final 0 included, and each host storing a
unit's bytes in its own order, the two buffers end holding the same bytes. -/
theorem decodeFileName_big_endian (name : Nat → UInt8) (encOff : Nat)
    (encSize maxDecSize : UInt64) (nameW : List UInt16) :
    (∀ fuel : Nat,
      decodeLoop false name encOff (name encOff) encSize (maxDecSize / 2) fuel
          ⟨0, 0, 1, 0, nameW.map byteSwap16⟩ =
        (decodeLoop true name encOff (name encOff) encSize (maxDecSize / 2) fuel
          ⟨0, 0, 1, 0, nameW⟩).swapUnits) ∧
    decodeFileName false name encOff encSize (nameW.map byteSwap16) maxDecSize =
      (decodeFileName true name encOff encSize nameW maxDecSize).map byteSwap16 ∧
    unitBytes false (decodeFileName false name encOff encSize (nameW.map byteSwap16) maxDecSize) =
      unitBytes true (decodeFileName true name encOff encSize nameW maxDecSize) := by
  have hloop := fun fuel => decodeLoop_big_endian name (maxDecSize / 2) encOff (name encOff)
    encSize fuel ⟨0, 0, 1, 0, nameW⟩
  have hname : decodeFileName false name encOff encSize (nameW.map byteSwap16) maxDecSize =
      (decodeFileName true name encOff encSize nameW maxDecSize).map byteSwap16 := by
    simp only [decodeFileName]
    rw [show (⟨0, 0, 1, 0, nameW.map byteSwap16⟩ : DecodeState) =
      DecodeState.swapUnits ⟨0, 0, 1, 0, nameW⟩ from rfl, hloop]
    simp only [DecodeState.swapUnits_decPos, DecodeState.swapUnits_nameW, List.map_set,
      byteSwap16_zero]
  exact ⟨hloop, hname, by rw [hname, unitBytes_byteSwap16]⟩

end Rar2John
