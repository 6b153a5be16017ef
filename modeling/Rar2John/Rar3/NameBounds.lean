import Rar2John.Main
import Mathlib.Tactic.LiftLets

/-!
# What `DecodeFileName` reads and writes

The decoder writes only inside `FileNameW`, reads `file_name` one byte past its end, and its
loop ends by its own test.
-/

namespace Rar2John

theorem u64_toNat_succ {x : UInt64} (h : x.toNat + 1 < 2 ^ 64) : (x + 1).toNat = x.toNat + 1 := by
  rw [u64_toNat_add, show (1 : UInt64).toNat = 1 from rfl, Nat.mod_eq_of_lt h]

theorem u64_succ_le_of_lt {a b : UInt64} (h : a < b) : a + 1 ≤ b := by
  have hb : b.toNat < 2 ^ 64 := b.toNat_lt_size
  rw [u64_lt_iff] at h
  rw [u64_le_iff, u64_toNat_succ (by omega)]
  omega

theorem u64_toNat_pred {x : UInt64} (h : 1 ≤ x.toNat) : (x - 1).toNat = x.toNat - 1 :=
  UInt64.toNat_sub_of_le _ _ ((u64_le_iff _ _).2 h)

/-- `a` is `b` but for units below `n`: what a write below `n` leaves. -/
def SameFrom (n : Nat) (a b : List UInt16) : Prop :=
  a.length = b.length ∧ ∀ i, n ≤ i → a[i]? = b[i]?

theorem SameFrom.refl (n : Nat) (a : List UInt16) : SameFrom n a a := ⟨rfl, fun _ _ => rfl⟩

theorem SameFrom.trans {n : Nat} {a b c : List UInt16} (hab : SameFrom n a b) (hbc : SameFrom n b c) :
    SameFrom n a c :=
  ⟨hab.1.trans hbc.1, fun i hi => (hab.2 i hi).trans (hbc.2 i hi)⟩

theorem sameFrom_set {n i : Nat} (hi : i < n) (l : List UInt16) (v : UInt16) :
    SameFrom n (l.set i v) l :=
  ⟨List.length_set _ _ _, fun _ hj => List.getElem?_set_ne (by omega)⟩

section Writes

variable (name : Nat → UInt8) (maxDecSize : UInt64)

theorem copyRun_bounds (unit : UInt8 → UInt16) :
    ∀ (length : Nat) (decPos : UInt64) (nameW : List UInt16), decPos ≤ maxDecSize →
      (copyRun name maxDecSize unit length decPos nameW).1 ≤ maxDecSize ∧
        SameFrom maxDecSize.toNat (copyRun name maxDecSize unit length decPos nameW).2 nameW
  | 0, _, nameW, h => ⟨h, SameFrom.refl _ nameW⟩
  | length + 1, decPos, nameW, h => by
    rw [copyRun]
    split
    case isTrue hlt =>
      obtain ⟨hpos, hsame⟩ := copyRun_bounds unit length _ _ (u64_succ_le_of_lt hlt)
      exact ⟨hpos, hsame.trans (sameFrom_set ((u64_lt_iff _ _).1 hlt) _ _)⟩
    case isFalse => exact ⟨h, SameFrom.refl _ nameW⟩

variable (littleEndian : Bool) (encOff : Nat) (highByte : UInt8)

theorem decodeCommand_bounds (st : DecodeState) (hd : st.decPos.toNat + 1 < maxDecSize.toNat) :
    (decodeCommand littleEndian name encOff highByte maxDecSize st).decPos ≤ maxDecSize ∧
      SameFrom maxDecSize.toNat (decodeCommand littleEndian name encOff highByte maxDecSize st).nameW
        st.nameW := by
  have hsucc := u64_succ_le_of_lt ((u64_lt_iff st.decPos maxDecSize).2 (by omega))
  have hle : st.decPos ≤ maxDecSize := (u64_le_iff _ _).2 (by omega)
  have hset := fun v => sameFrom_set (show st.decPos.toNat < maxDecSize.toNat by omega) st.nameW v
  unfold decodeCommand
  split
  · exact ⟨hsucc, hset _⟩
  · exact ⟨hsucc, hset _⟩
  · exact ⟨hsucc, hset _⟩
  · dsimp only
    split <;> exact copyRun_bounds name maxDecSize _ _ _ _ hle

/-- **Loop invariant.** From a position at most `MaxDecSize`, the loop ends at most there,
having written only below it. -/
theorem decodeLoop_bounds (encSize : UInt64) (hmax : 1 ≤ maxDecSize.toNat) :
    ∀ (fuel : Nat) (st : DecodeState), st.decPos ≤ maxDecSize →
      (decodeLoop littleEndian name encOff highByte encSize maxDecSize fuel st).decPos ≤ maxDecSize ∧
        SameFrom maxDecSize.toNat
          (decodeLoop littleEndian name encOff highByte encSize maxDecSize fuel st).nameW st.nameW
  | 0, st, h => ⟨h, SameFrom.refl _ _⟩
  | fuel + 1, st, h => by
    rw [decodeLoop]
    split
    case isTrue hg =>
      have hd := (u64_lt_iff _ _).1 hg.2
      rw [u64_toNat_pred hmax] at hd
      lift_lets
      intro filled cmd
      have hfilled : filled.decPos = st.decPos ∧ filled.nameW = st.nameW := by
        simp only [filled]
        split <;> exact ⟨rfl, rfl⟩
      obtain ⟨hpos, hsame⟩ := decodeCommand_bounds name maxDecSize littleEndian encOff highByte filled
        (by rw [hfilled.1]; omega)
      obtain ⟨hpos', hsame'⟩ := decodeLoop_bounds encSize hmax fuel
        { cmd with flags := cmd.flags <<< 2, flagBits := cmd.flagBits - 2 } hpos
      exact ⟨hpos', hsame'.trans (hfilled.2 ▸ hsame)⟩
    case isFalse => exact ⟨h, SameFrom.refl _ _⟩

end Writes

/-- **`FileNameW` is written only below its 256 units and is terminated there.** Whatever
the name bytes and `EncSize`, the decoder leaves every unit from 256 on as it was and a 0
at some index below 256. -/
theorem decodeFileName_in_bounds (littleEndian : Bool) (name : Nat → UInt8) (encOff : Nat)
    (encSize : UInt64) {nameW : List UInt16} (hlen : pathBufSize ≤ nameW.length) :
    SameFrom pathBufSize
        (decodeFileName littleEndian name encOff encSize nameW (2 * pathBufSize).toUInt64) nameW ∧
      ∃ i < pathBufSize,
        (decodeFileName littleEndian name encOff encSize nameW (2 * pathBufSize).toUInt64)[i]? =
          some 0 := by
  have hmax : ((2 * pathBufSize).toUInt64 / 2).toNat = pathBufSize := rfl
  obtain ⟨hpos, hsame⟩ := decodeLoop_bounds name _ littleEndian encOff (name encOff) encSize
    (by rw [hmax]; decide) ((2 * pathBufSize).toUInt64 / 2).toNat ⟨0, 0, 1, 0, nameW⟩
    ((u64_le_iff _ _).2 (Nat.zero_le _))
  unfold decodeFileName
  dsimp only
  generalize decodeLoop _ _ _ _ _ _ _ _ = st at hpos hsame ⊢
  rw [hmax] at hsame
  have hidx : (if st.decPos < (2 * pathBufSize).toUInt64 / 2 then st.decPos
      else (2 * pathBufSize).toUInt64 / 2 - 1).toNat < pathBufSize := by
    split
    case isTrue h => exact hmax ▸ (u64_lt_iff _ _).1 h
    case isFalse => rw [u64_toNat_pred (by rw [hmax]; decide), hmax]; decide
  exact ⟨(sameFrom_set hidx _ _).trans hsame,
    _, hidx, List.getElem?_set_self (by rw [hsame.1]; exact Nat.lt_of_lt_of_le hidx hlen)⟩

theorem decodeFileName_in_bounds_at_zero :
    SameFrom pathBufSize (decodeFileName true (fun _ => 0) 1 0 (List.replicate pathBufSize 0)
        (2 * pathBufSize).toUInt64) (List.replicate pathBufSize 0) ∧
      ∃ i < pathBufSize, (decodeFileName true (fun _ => 0) 1 0 (List.replicate pathBufSize 0)
        (2 * pathBufSize).toUInt64)[i]? = some 0 :=
  decodeFileName_in_bounds true (fun _ => 0) 1 0 (by simp)

section Termination

variable (name : Nat → UInt8) (maxDecSize : UInt64)

theorem copyRun_mono (unit : UInt8 → UInt16) :
    ∀ (length : Nat) (decPos : UInt64) (nameW : List UInt16), decPos ≤ maxDecSize →
      decPos.toNat ≤ (copyRun name maxDecSize unit length decPos nameW).1.toNat
  | 0, _, _, _ => le_rfl
  | length + 1, decPos, nameW, h => by
    rw [copyRun]
    split
    case isTrue hlt =>
      have hmax := maxDecSize.toNat_lt_size
      have hnext := copyRun_mono unit length _ (nameW.set decPos.toNat (unit (name decPos.toNat)))
        (u64_succ_le_of_lt hlt)
      rw [u64_toNat_succ (by rw [u64_lt_iff] at hlt; simp only [UInt64.size] at hmax; omega)] at hnext
      omega
    case isFalse => exact le_rfl

variable (littleEndian : Bool) (encOff : Nat) (highByte : UInt8)

/-- **Progress.** A command issued below `MaxDecSize - 1` writes at least one unit. -/
theorem decodeCommand_progress (st : DecodeState) (hd : st.decPos.toNat + 1 < maxDecSize.toNat) :
    st.decPos.toNat < (decodeCommand littleEndian name encOff highByte maxDecSize st).decPos.toNat := by
  have hlt : st.decPos < maxDecSize := (u64_lt_iff _ _).2 (by omega)
  have hsucc : (st.decPos + 1).toNat = st.decPos.toNat + 1 :=
    u64_toNat_succ (by have := maxDecSize.toNat_lt_size; simp only [UInt64.size] at this; omega)
  have hrun : ∀ (unit : UInt8 → UInt16) (length : Nat),
      st.decPos.toNat < (copyRun name maxDecSize unit (length + 1) st.decPos st.nameW).1.toNat := by
    intro unit length
    rw [copyRun, if_pos hlt]
    have := copyRun_mono name maxDecSize unit length _ (st.nameW.set st.decPos.toNat
      (unit (name st.decPos.toNat))) (u64_succ_le_of_lt hlt)
    omega
  unfold decodeCommand
  split
  · exact hsucc ▸ Nat.lt_succ_self _
  · exact hsucc ▸ Nat.lt_succ_self _
  · exact hsucc ▸ Nat.lt_succ_self _
  · dsimp only
    split
    · exact hrun _ _
    · exact hrun _ _

variable (encSize : UInt64)

/-- The test of `DecodeFileName`'s `while`. -/
abbrev decodeGuard (st : DecodeState) : Prop := st.encPos < encSize - 1 ∧ st.decPos < maxDecSize - 1

theorem decodeLoop_of_not_guard {st : DecodeState} (h : ¬decodeGuard maxDecSize encSize st) :
    ∀ fuel, decodeLoop littleEndian name encOff highByte encSize maxDecSize fuel st = st
  | 0 => rfl
  | _ + 1 => by rw [decodeLoop, if_neg h]

theorem decodeLoop_add (b : Nat) : ∀ (a : Nat) (st : DecodeState),
    decodeLoop littleEndian name encOff highByte encSize maxDecSize (a + b) st =
      decodeLoop littleEndian name encOff highByte encSize maxDecSize b
        (decodeLoop littleEndian name encOff highByte encSize maxDecSize a st)
  | 0, _ => by rw [Nat.zero_add]; rfl
  | a + 1, st => by
    rw [Nat.add_right_comm, decodeLoop, decodeLoop]
    split
    · exact decodeLoop_add b a _
    · exact (decodeLoop_of_not_guard name maxDecSize littleEndian encOff highByte encSize ‹_› b).symm

/-- **Run.** With `MaxDecSize` at least 1, the loop's test fails after at most
`MaxDecSize - 1 - DecPos` commands: each command moves `DecPos` forward, and the test
wants it below `MaxDecSize - 1`. -/
theorem decodeLoop_exits (hmax : 1 ≤ maxDecSize.toNat) :
    ∀ (fuel : Nat) (st : DecodeState), maxDecSize.toNat - 1 - st.decPos.toNat ≤ fuel →
      ¬decodeGuard maxDecSize encSize
        (decodeLoop littleEndian name encOff highByte encSize maxDecSize fuel st)
  | 0, st, h => fun hg => by
    change decodeGuard maxDecSize encSize st at hg
    have hd := (u64_lt_iff _ _).1 hg.2
    rw [u64_toNat_pred hmax] at hd
    omega
  | fuel + 1, st, h => by
    rw [decodeLoop]
    split
    case isTrue hg =>
      have hd := (u64_lt_iff _ _).1 hg.2
      rw [u64_toNat_pred hmax] at hd
      lift_lets
      intro filled cmd
      have hfilled : filled.decPos = st.decPos := by
        simp only [filled]
        split <;> rfl
      have hprog := decodeCommand_progress name maxDecSize littleEndian encOff highByte filled
        (by rw [hfilled]; omega)
      exact decodeLoop_exits hmax fuel _ (by simp only [cmd] at hprog ⊢; rw [hfilled] at hprog; omega)
    case isFalse hg => exact hg

end Termination

/-- **`DecodeFileName`'s loop ends by its own test.** For a `MaxDecSize` of at least one
unit, whatever the name bytes and `EncSize`, the `while` test fails after at most
`MaxDecSize - 1` commands, so running the loop longer changes nothing: the fuel of
`decodeFileName` is never what stops it. -/
theorem decodeFileName_loop_ends (littleEndian : Bool) (name : Nat → UInt8) (encOff : Nat)
    (encSize maxDecSize : UInt64) (nameW : List UInt16) (h : 2 ≤ maxDecSize.toNat) :
    ¬decodeGuard (maxDecSize / 2) encSize (decodeLoop littleEndian name encOff (name encOff) encSize
        (maxDecSize / 2) ((maxDecSize / 2).toNat - 1) ⟨0, 0, 1, 0, nameW⟩) ∧
      ∀ fuel, (maxDecSize / 2).toNat - 1 ≤ fuel →
        decodeLoop littleEndian name encOff (name encOff) encSize (maxDecSize / 2) fuel
            ⟨0, 0, 1, 0, nameW⟩ =
          decodeLoop littleEndian name encOff (name encOff) encSize (maxDecSize / 2)
            ((maxDecSize / 2).toNat - 1) ⟨0, 0, 1, 0, nameW⟩ := by
  have hhalf : (maxDecSize / 2).toNat = maxDecSize.toNat / 2 := UInt64.toNat_div _ _
  have hexit := decodeLoop_exits name (maxDecSize / 2) littleEndian encOff (name encOff) encSize
    (by omega) ((maxDecSize / 2).toNat - 1) ⟨0, 0, 1, 0, nameW⟩ (by show _ - 1 - 0 ≤ _; omega)
  refine ⟨hexit, fun fuel hfuel => ?_⟩
  obtain ⟨k, rfl⟩ := Nat.exists_eq_add_of_le hfuel
  rw [decodeLoop_add, decodeLoop_of_not_guard _ _ _ _ _ _ hexit]

theorem decodeFileName_loop_ends_at_file_name_w :
    2 ≤ (2 * pathBufSize).toUInt64.toNat ∧
      (¬decodeGuard ((2 * pathBufSize).toUInt64 / 2) 0 (decodeLoop true (fun _ => 0) 1 0 0
          ((2 * pathBufSize).toUInt64 / 2) (((2 * pathBufSize).toUInt64 / 2).toNat - 1)
          ⟨0, 0, 1, 0, []⟩) ∧
        ∀ fuel, ((2 * pathBufSize).toUInt64 / 2).toNat - 1 ≤ fuel →
          decodeLoop true (fun _ => 0) 1 0 0 ((2 * pathBufSize).toUInt64 / 2) fuel ⟨0, 0, 1, 0, []⟩ =
            decodeLoop true (fun _ => 0) 1 0 0 ((2 * pathBufSize).toUInt64 / 2)
              (((2 * pathBufSize).toUInt64 / 2).toNat - 1) ⟨0, 0, 1, 0, []⟩) :=
  have h : 2 ≤ (2 * pathBufSize).toUInt64.toNat := by decide
  ⟨h, decodeFileName_loop_ends true (fun _ => 0) 1 0 _ [] h⟩

section Reads

variable (littleEndian : Bool) (encOff : Nat) (highByte : UInt8) (maxDecSize : UInt64)
  {name name' : Nat → UInt8} {bound : Nat} (hagree : ∀ i < bound, name i = name' i)
include hagree

theorem copyRun_congr (hmax : maxDecSize.toNat ≤ bound) (unit : UInt8 → UInt16) :
    ∀ (length : Nat) (decPos : UInt64) (nameW : List UInt16),
      copyRun name maxDecSize unit length decPos nameW = copyRun name' maxDecSize unit length decPos nameW
  | 0, _, _ => rfl
  | length + 1, decPos, nameW => by
    rw [copyRun, copyRun]
    split
    case isTrue h =>
      rw [hagree _ (by have := (u64_lt_iff _ _).1 h; omega), copyRun_congr hmax unit length]
    case isFalse => rfl

theorem decodeCommand_congr (hmax : maxDecSize.toNat ≤ bound) (st : DecodeState)
    (henc : encOff + st.encPos.toNat + 2 ≤ bound) (hno : st.encPos.toNat + 1 < 2 ^ 64) :
    decodeCommand littleEndian name encOff highByte maxDecSize st =
      decodeCommand littleEndian name' encOff highByte maxDecSize st := by
  have h0 := hagree (encOff + st.encPos.toNat) (by omega)
  have h1 := hagree (encOff + (st.encPos + 1).toNat) (by rw [u64_toNat_succ hno]; omega)
  simp only [decodeCommand, h0, h1, copyRun_congr maxDecSize hagree hmax]

/-- **Loop reads.** While `EncSize` is at least 1, the loop reads `EncName` only below
`EncSize + 1` and `Name` only below `MaxDecSize`. -/
theorem decodeLoop_congr (encSize : UInt64) (hmax : maxDecSize.toNat ≤ bound)
    (hsize : 1 ≤ encSize.toNat) (hbound : encOff + encSize.toNat + 1 ≤ bound) :
    ∀ (fuel : Nat) (st : DecodeState),
      decodeLoop littleEndian name encOff highByte encSize maxDecSize fuel st =
        decodeLoop littleEndian name' encOff highByte encSize maxDecSize fuel st
  | 0, _ => rfl
  | fuel + 1, st => by
    rw [decodeLoop, decodeLoop]
    split
    case isTrue hg =>
      have he := (u64_lt_iff _ _).1 hg.1
      rw [u64_toNat_pred hsize] at he
      have hsz : encSize.toNat < 2 ^ 64 := encSize.toNat_lt_size
      rw [hagree (encOff + st.encPos.toNat) (by omega)]
      lift_lets
      intro filled
      have hfilled : filled.encPos.toNat ≤ st.encPos.toNat + 1 := by
        simp only [filled]
        split
        · exact (u64_toNat_succ (by omega)).le
        · omega
      rw [decodeCommand_congr littleEndian encOff highByte maxDecSize hagree hmax filled (by omega)
        (by omega)]
      exact decodeLoop_congr encSize hmax hsize hbound fuel _
    case isFalse => rfl

end Reads

/-- **`DecodeFileName` reads `file_name` up to index 1024.** For a name whose NUL comes
within its first 1023 bytes, two memories that agree up to index 1024, one byte past
`file_name`, give the same units. -/
theorem decodeFileName_reads_to (littleEndian : Bool) {name name' : Nat → UInt8} {length : Nat}
    (nameW : List UInt16) (hlen : length + 1 < 4 * pathBufSize)
    (hagree : ∀ i ≤ 4 * pathBufSize, name i = name' i) :
    decodeFileName littleEndian name (length + 1) (4 * pathBufSize - length - 1).toUInt64 nameW
        (2 * pathBufSize).toUInt64 =
      decodeFileName littleEndian name' (length + 1) (4 * pathBufSize - length - 1).toUInt64 nameW
        (2 * pathBufSize).toUInt64 := by
  have hp : pathBufSize = 256 := rfl
  have hagree' : ∀ i < 4 * pathBufSize + 1, name i = name' i := fun i hi => hagree i (by omega)
  have hsize : (4 * pathBufSize - length - 1).toUInt64.toNat = 4 * pathBufSize - length - 1 := by
    rw [toNat_toUInt64, Nat.mod_eq_of_lt (by omega)]
  unfold decodeFileName
  dsimp only
  rw [hagree' (length + 1) (by omega), decodeLoop_congr littleEndian (length + 1) (name' (length + 1))
    ((2 * pathBufSize).toUInt64 / 2) hagree' (4 * pathBufSize - length - 1).toUInt64 (by decide)
    (by rw [hsize]; omega) (by rw [hsize]; omega)]

theorem decodeFileName_reads_to_at_empty_name :
    decodeFileName true (fun _ => 0) (0 + 1) (4 * pathBufSize - 0 - 1).toUInt64 []
        (2 * pathBufSize).toUInt64 =
      decodeFileName true (fun i => if i ≤ 4 * pathBufSize then 0 else 1) (0 + 1)
        (4 * pathBufSize - 0 - 1).toUInt64 [] (2 * pathBufSize).toUInt64 :=
  decodeFileName_reads_to true [] (by decide) fun _ hi => (if_pos hi).symm

/-- `jtrBuild` with the stack past `file_name`'s 1024 bytes holding `A`s. -/
def stackAfterName : Env :=
  { jtrBuild with uninit := fun i => if i < 4 * pathBufSize then 0 else 0x41 }

set_option maxRecDepth 10000 in
/-- A name field of 1023 `a`s: `strlen(file_name)` is 1023, `EncSize` is 0 and
`EncSize - 1` wraps. `jtrBuild` and `stackAfterName` differ only in the stack from index
1024 on, yet the decoded name, and so what `process_file` prints, differs: the decoder read
`file_name` past its end. -/
theorem decodeName_reads_past_file_name :
    { stackAfterName with uninit := jtrBuild.uninit } = jtrBuild ∧
      (∀ i < 4 * pathBufSize, stackAfterName.uninit i = jtrBuild.uninit i) ∧
      ((decodeName jtrBuild false (List.replicate 1023 0x61) 1023).run
          ⟨⟨[], 0, false⟩, Bestsize.init, none, 0, fun _ => 0, 0, []⟩).run.2 ≠
        ((decodeName stackAfterName false (List.replicate 1023 0x61) 1023).run
          ⟨⟨[], 0, false⟩, Bestsize.init, none, 0, fun _ => 0, 0, []⟩).run.2 :=
  ⟨rfl, fun i hi => by simp only [stackAfterName, if_pos hi]; rfl, by decide⟩

end Rar2John
