import Rar2John.Consts

/-!
# `DecodeFileName`

The packed Unicode name after the OEM name: a high byte and 2-bit commands, four to a flag
byte. `Name` and `EncName` are read through one function over offsets into `file_name`.
-/

namespace Rar2John

/-- A UTF-16 unit from its low and high bytes, as the branches of one byte order build
it: `lo + (hi << 8)` on a little-endian build, `(lo << 8) + hi` on a big-endian one. -/
def unit16 (littleEndian : Bool) (lo hi : UInt8) : UInt16 :=
  if littleEndian then lo.toUInt16 + (hi.toUInt16 <<< 8) else (lo.toUInt16 <<< 8) + hi.toUInt16

/-- The decoder's variables. -/
structure DecodeState where
  flags : UInt8
  flagBits : UInt32
  encPos : UInt64
  decPos : UInt64
  nameW : List UInt16
  deriving DecidableEq, Repr

/-- The inner loop of command 3,
`for (; Length > 0 && DecPos < MaxDecSize; Length--, DecPos++) NameW[DecPos] = unit(Name[DecPos])`. -/
def copyRun (name : Nat → UInt8) (maxDecSize : UInt64) (unit : UInt8 → UInt16) :
    Nat → UInt64 → List UInt16 → UInt64 × List UInt16
  | 0, decPos, nameW => (decPos, nameW)
  | length + 1, decPos, nameW =>
    if decPos < maxDecSize then
      copyRun name maxDecSize unit length (decPos + 1) (nameW.set decPos.toNat (unit (name decPos.toNat)))
    else (decPos, nameW)

/-- One command, with `Flags` already refilled: 0 and 1 take one byte with high byte 0 or
`HighByte`, 2 takes a little-endian pair, 3 a run copied from `Name`, optionally with a
correction added to each byte. -/
def decodeCommand (littleEndian : Bool) (name : Nat → UInt8) (encOff : Nat) (highByte : UInt8)
    (maxDecSize : UInt64) (st : DecodeState) : DecodeState :=
  let enc := fun (i : UInt64) => name (encOff + i.toNat)
  let set := fun (v : UInt16) => st.nameW.set st.decPos.toNat v
  match st.flags >>> 6 with
  | 0 =>
    { st with
      encPos := st.encPos + 1
      decPos := st.decPos + 1
      nameW := set (unit16 littleEndian (enc st.encPos) 0) }
  | 1 =>
    { st with
      encPos := st.encPos + 1
      decPos := st.decPos + 1
      nameW := set (unit16 littleEndian (enc st.encPos) highByte) }
  | 2 =>
    { st with
      encPos := st.encPos + 2
      decPos := st.decPos + 1
      nameW := set (unit16 littleEndian (enc st.encPos) (enc (st.encPos + 1))) }
  | _ =>
    let length := enc st.encPos
    if length &&& 0x80 ≠ 0 then
      let correction := enc (st.encPos + 1)
      let (decPos, nameW) := copyRun name maxDecSize
        (fun b => unit16 littleEndian (b + correction) highByte)
        ((length &&& 0x7f).toNat + 2) st.decPos st.nameW
      { st with encPos := st.encPos + 2, decPos, nameW }
    else
      let (decPos, nameW) := copyRun name maxDecSize (fun b => unit16 littleEndian b 0)
        (length.toNat + 2) st.decPos st.nameW
      { st with encPos := st.encPos + 1, decPos, nameW }

/-- The `while (EncPos < EncSize - 1 && DecPos < MaxDecSize - 1)` loop, for at most `fuel`
commands: a new flag byte every four commands, then the command, then the flags shift. -/
def decodeLoop (littleEndian : Bool) (name : Nat → UInt8) (encOff : Nat) (highByte : UInt8)
    (encSize maxDecSize : UInt64) : Nat → DecodeState → DecodeState
  | 0, st => st
  | fuel + 1, st =>
    if st.encPos < encSize - 1 ∧ st.decPos < maxDecSize - 1 then
      let st := if st.flagBits = 0 then
          { st with
            flags := name (encOff + st.encPos.toNat)
            flagBits := 8
            encPos := st.encPos + 1 }
        else st
      let st := decodeCommand littleEndian name encOff highByte maxDecSize st
      decodeLoop littleEndian name encOff highByte encSize maxDecSize fuel
        { st with flags := st.flags <<< 2, flagBits := st.flagBits - 2 }
    else st

/-- `DecodeFileName(Name, Name + encOff, EncSize, NameW, MaxDecSize)`: the units of `NameW`
afterwards. Every command writes at least one unit, so one pass per unit of `NameW` is
more than the loop can run. -/
def decodeFileName (littleEndian : Bool) (name : Nat → UInt8) (encOff : Nat) (encSize : UInt64)
    (nameW : List UInt16) (maxDecSize : UInt64) : List UInt16 :=
  let maxDecSize := maxDecSize / 2
  let st := decodeLoop littleEndian name encOff (name encOff) encSize maxDecSize
    maxDecSize.toNat ⟨0, 0, 1, 0, nameW⟩
  st.nameW.set (if st.decPos < maxDecSize then st.decPos else maxDecSize - 1).toNat 0

/-- `strlen16`: the units before the first 0. -/
def strlen16 (s : List UInt16) : Nat := (s.takeWhile (· ≠ 0)).length

/-- The bytes of UTF-16 units as the host stores them. -/
def unitBytes (littleEndian : Bool) (s : List UInt16) : List UInt8 :=
  s.flatMap fun u =>
    if littleEndian then [u.toUInt8, (u >>> 8).toUInt8] else [(u >>> 8).toUInt8, u.toUInt8]

end Rar2John
