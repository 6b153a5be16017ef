import Rar2John.Rar3.NameBounds
import Rar2John.Rar3.ByteOrder

/-!
# `DecodeFileName` unpacks what the packing writes

`encodeName` packs a name as RAR3 does; the decoder, followed command by command and group
by group, gives it back (`decodeFileName_encodeName`).
-/

namespace Rar2John

theorem u8_toNat_shiftLeft_2 (x : UInt8) : (x <<< 2).toNat = x.toNat * 4 % 256 := by
  show (x.toNat <<< (2 % 8)) % 2 ^ 8 = _
  rw [Nat.shiftLeft_eq]

theorem u8_toNat_shiftLeft_6 (x : UInt8) : (x <<< 6).toNat = x.toNat * 64 % 256 := by
  show (x.toNat <<< (6 % 8)) % 2 ^ 8 = _
  rw [Nat.shiftLeft_eq]

theorem u8_toNat_shiftRight_6 (x : UInt8) : (x >>> 6).toNat = x.toNat / 64 := by
  show x.toNat >>> (6 % 8) = _
  rw [Nat.shiftRight_eq_div_pow]

theorem u8_toNat_shiftRight_2 (x : UInt8) : (x >>> 2).toNat = x.toNat / 4 := by
  show x.toNat >>> (2 % 8) = _
  rw [Nat.shiftRight_eq_div_pow]

theorem u64_ofNat_add (a b : Nat) : (a + b).toUInt64 = a.toUInt64 + b.toUInt64 := by
  rw [u64_eq_iff, u64_toNat_add, toNat_toUInt64, toNat_toUInt64, toNat_toUInt64, Nat.add_mod]

theorem unit16_bytes (u : UInt16) : unit16 true u.toUInt8 (u >>> 8).toUInt8 = u := by
  have := u.toNat_lt_size
  simp only [UInt16.size] at this
  rw [u16_eq_iff, toNat_unit16, if_pos rfl, u16_toNat_toUInt8, u16_toNat_toUInt8,
    u16_toNat_shiftRight_8]
  omega

/-- The command a unit is packed with: 0 when its high byte is 0, 1 when it is the name's
high byte, 2 otherwise. -/
def unitCommand (highByte : UInt8) (u : UInt16) : UInt8 :=
  if (u >>> 8).toUInt8 = 0 then 0 else if (u >>> 8).toUInt8 = highByte then 1 else 2

/-- The bytes a unit is packed into: its low byte, and its high byte after it for
command 2. -/
def unitCode (highByte : UInt8) (u : UInt16) : List UInt8 :=
  if unitCommand highByte u = 2 then [u.toUInt8, (u >>> 8).toUInt8] else [u.toUInt8]

/-- A flag byte for a group's commands, the first in the top two bits. -/
def flagsOf : List UInt8 → UInt8
  | [] => 0
  | c :: cs => (c <<< 6) + (flagsOf cs >>> 2)

/-- A group: the flag byte of four units' commands, then their bytes. -/
def encodeGroup (highByte : UInt8) (a b c d : UInt16) : List UInt8 :=
  flagsOf ([a, b, c, d].map (unitCommand highByte)) ::
    (unitCode highByte a ++ unitCode highByte b ++ unitCode highByte c ++ unitCode highByte d)

/-- Units packed four to a group. -/
def encodeGroups (highByte : UInt8) : List UInt16 → List UInt8
  | a :: b :: c :: d :: rest => encodeGroup highByte a b c d ++ encodeGroups highByte rest
  | _ => []

/-- A name followed by one to four 0 units, to a whole number of groups. -/
def padUnits (us : List UInt16) : List UInt16 := us ++ List.replicate (4 - us.length % 4) 0

/-- A packed name: its high byte, then the groups of its padded units. -/
def encodeName (highByte : UInt8) (us : List UInt16) : List UInt8 :=
  highByte :: encodeGroups highByte (padUnits us)

/-- `W` with `vs` written from index `K` on, one unit after another. -/
def writeAt (W : List UInt16) (K : Nat) : List UInt16 → List UInt16
  | [] => W
  | v :: vs => writeAt (W.set K v) (K + 1) vs

/-! ## The packing -/

/-- `name` holds `bs` from `off` on. -/
def ReadsAt (name : Nat → UInt8) : Nat → List UInt8 → Prop
  | _, [] => True
  | off, b :: bs => name off = b ∧ ReadsAt name (off + 1) bs

instance decReadsAt (name : Nat → UInt8) : (off : Nat) → (bs : List UInt8) →
    Decidable (ReadsAt name off bs)
  | _, [] => isTrue trivial
  | off, _ :: bs =>
    have := decReadsAt name (off + 1) bs
    inferInstanceAs (Decidable (_ ∧ _))

theorem readsAt_append (name : Nat → UInt8) :
    ∀ (off : Nat) (l₁ l₂ : List UInt8),
      ReadsAt name off (l₁ ++ l₂) ↔ ReadsAt name off l₁ ∧ ReadsAt name (off + l₁.length) l₂
  | _, [], _ => by simp [ReadsAt]
  | off, b :: l₁, l₂ => by
    rw [List.cons_append, ReadsAt, ReadsAt, readsAt_append name (off + 1) l₁ l₂, List.length_cons,
      show off + 1 + l₁.length = off + (l₁.length + 1) by omega, and_assoc]

/-- **One command.** A unit packed by `unitCode`, its command in the top bits of `Flags`, is
decoded to itself: `EncPos` moves past its bytes and `DecPos` by one. -/
theorem decodeCommand_unitCode (name : Nat → UInt8) (encOff : Nat) (highByte : UInt8)
    (maxDecSize : UInt64) (fl : UInt8) (bits : UInt32) (P K : Nat) (W : List UInt16) (u : UInt16)
    (hcmd : fl >>> 6 = unitCommand highByte u) (hr : ReadsAt name (encOff + P) (unitCode highByte u))
    (hP : P + 2 < 2 ^ 64) (hK : K < 2 ^ 64) :
    decodeCommand true name encOff highByte maxDecSize ⟨fl, bits, P.toUInt64, K.toUInt64, W⟩ =
      ⟨fl, bits, (P + (unitCode highByte u).length).toUInt64, (K + 1).toUInt64, W.set K u⟩ := by
  have hPn : P.toUInt64.toNat = P := by rw [toNat_toUInt64, Nat.mod_eq_of_lt (by omega)]
  have hKn : K.toUInt64.toNat = K := by rw [toNat_toUInt64, Nat.mod_eq_of_lt hK]
  have hP1 : (P.toUInt64 + 1).toNat = P + 1 := by
    rw [u64_toNat_add, hPn, show (1 : UInt64).toNat = 1 from rfl, Nat.mod_eq_of_lt (by omega)]
  have hu := unit16_bytes u
  have hu16 : ∀ hi, (u >>> 8).toUInt8 = hi → unit16 true u.toUInt8 hi = u := fun _ h => h ▸ hu
  unfold decodeCommand
  rw [hcmd]
  by_cases h0 : (u >>> 8).toUInt8 = 0
  · have hc : unitCommand highByte u = 0 := if_pos h0
    simp only [unitCode, hc, ReadsAt] at hr
    rw [show (unitCode highByte u).length = 1 by simp [unitCode, hc], hc]
    split <;> rename_i hm <;>
      first | exact absurd hm (by decide) | exact absurd rfl ‹(0 : UInt8) = 0 → False› | skip
    simp only [hPn, hKn, hr.1, hu16 0 h0, u64_ofNat_add]
    rfl
  · by_cases h1 : (u >>> 8).toUInt8 = highByte
    · have hc : unitCommand highByte u = 1 := by simp only [unitCommand, if_neg h0, if_pos h1]
      simp only [unitCode, hc, ReadsAt] at hr
      rw [show (unitCode highByte u).length = 1 by simp [unitCode, hc], hc]
      split <;> rename_i hm <;>
        first | exact absurd hm (by decide) | exact absurd rfl ‹(1 : UInt8) = 1 → False› | skip
      simp only [hPn, hKn, hr.1, hu16 _ h1, u64_ofNat_add]
      rfl
    · have hc : unitCommand highByte u = 2 := by simp only [unitCommand, if_neg h0, if_neg h1]
      simp only [unitCode, hc, ReadsAt, if_true] at hr
      rw [show (unitCode highByte u).length = 2 by simp [unitCode, hc], hc]
      split <;> rename_i hm <;>
        first | exact absurd hm (by decide) | exact absurd rfl ‹(2 : UInt8) = 2 → False› | skip
      simp only [hPn, hKn, hP1, hr.1]
      rw [← Nat.add_assoc, hr.2.1, hu, u64_ofNat_add, u64_ofNat_add]
      rfl

theorem unitCode_length_pos (highByte : UInt8) (u : UInt16) : 0 < (unitCode highByte u).length := by
  unfold unitCode; split <;> simp

theorem unitCode_length_le (highByte : UInt8) (u : UInt16) : (unitCode highByte u).length ≤ 2 := by
  unfold unitCode; split <;> simp

section Loop

variable (name : Nat → UInt8) (encOff : Nat) (highByte : UInt8) (encSize maxDecSize : UInt64)

theorem decodeGuard_of_lt {fl : UInt8} {bits : UInt32} {P K : Nat} {W : List UInt16}
    (hP : P + 1 < encSize.toNat) (hK : K + 1 < maxDecSize.toNat) :
    decodeGuard maxDecSize encSize ⟨fl, bits, P.toUInt64, K.toUInt64, W⟩ := by
  have := encSize.toNat_lt_size
  have := maxDecSize.toNat_lt_size
  simp only [UInt64.size] at *
  simp only [decodeGuard, u64_lt_iff, toNat_toUInt64, u64_toNat_pred (by omega : 1 ≤ encSize.toNat),
    u64_toNat_pred (by omega : 1 ≤ maxDecSize.toNat)]
  omega

/-- **One pass**, its command in the flag byte already read. -/
theorem decodeLoop_unit (fuel : Nat) (fl : UInt8) (bits : UInt32) (P K : Nat) (W : List UInt16)
    (u : UInt16) (hbits : bits ≠ 0) (hcmd : fl >>> 6 = unitCommand highByte u)
    (hr : ReadsAt name (encOff + P) (unitCode highByte u))
    (hP : P + (unitCode highByte u).length < encSize.toNat) (hK : K + 1 < maxDecSize.toNat) :
    decodeLoop true name encOff highByte encSize maxDecSize (fuel + 1) ⟨fl, bits, P.toUInt64, K.toUInt64, W⟩ =
      decodeLoop true name encOff highByte encSize maxDecSize fuel
        ⟨fl <<< 2, bits - 2, (P + (unitCode highByte u).length).toUInt64, (K + 1).toUInt64, W.set K u⟩ := by
  have := encSize.toNat_lt_size
  have := maxDecSize.toNat_lt_size
  have := unitCode_length_pos highByte u
  have := unitCode_length_le highByte u
  simp only [UInt64.size] at *
  rw [decodeLoop, if_pos (decodeGuard_of_lt encSize maxDecSize (by omega) hK)]
  simp only [hbits, if_false]
  rw [decodeCommand_unitCode name encOff highByte maxDecSize fl bits P K W u hcmd hr (by omega)
    (by omega)]

/-- **One pass** that first reads a flag byte. -/
theorem decodeLoop_refill_unit (fuel : Nat) (fl : UInt8) (P K : Nat) (W : List UInt16)
    (u : UInt16) (hcmd : name (encOff + P) >>> 6 = unitCommand highByte u)
    (hr : ReadsAt name (encOff + (P + 1)) (unitCode highByte u))
    (hP : P + 1 + (unitCode highByte u).length < encSize.toNat) (hK : K + 1 < maxDecSize.toNat) :
    decodeLoop true name encOff highByte encSize maxDecSize (fuel + 1) ⟨fl, 0, P.toUInt64, K.toUInt64, W⟩ =
      decodeLoop true name encOff highByte encSize maxDecSize fuel
        ⟨name (encOff + P) <<< 2, 8 - 2, (P + 1 + (unitCode highByte u).length).toUInt64,
          (K + 1).toUInt64, W.set K u⟩ := by
  have := encSize.toNat_lt_size
  have := maxDecSize.toNat_lt_size
  have := unitCode_length_pos highByte u
  simp only [UInt64.size] at *
  have hPn : P.toUInt64.toNat = P := by rw [toNat_toUInt64, Nat.mod_eq_of_lt (by omega)]
  rw [decodeLoop, if_pos (decodeGuard_of_lt encSize maxDecSize (by omega) hK)]
  simp only [if_true, hPn]
  rw [show P.toUInt64 + 1 = (P + 1).toUInt64 from (u64_ofNat_add P 1).symm,
    decodeCommand_unitCode name encOff highByte maxDecSize _ 8 (P + 1) K W u hcmd hr (by omega)
    (by omega)]

theorem unitCommand_toNat_lt (highByte : UInt8) (u : UInt16) : (unitCommand highByte u).toNat < 4 := by
  unfold unitCommand; split_ifs <;> decide

theorem toNat_flagsOf_cons {c : UInt8} (hc : c.toNat < 4) (cs : List UInt8) :
    (flagsOf (c :: cs)).toNat = c.toNat * 64 + (flagsOf cs).toNat / 4 := by
  have := (flagsOf cs).toNat_lt_size
  simp only [UInt8.size] at this
  rw [flagsOf, show ∀ x y : UInt8, (x + y).toNat = (x.toNat + y.toNat) % 256 from fun _ _ => rfl,
    u8_toNat_shiftLeft_6, u8_toNat_shiftRight_2]
  omega

theorem flagsOf_four {a b c d : UInt8} (ha : a.toNat < 4) (hb : b.toNat < 4) (hc : c.toNat < 4)
    (hd : d.toNat < 4) :
    flagsOf [a, b, c, d] >>> 6 = a ∧ flagsOf [a, b, c, d] <<< 2 >>> 6 = b ∧
      flagsOf [a, b, c, d] <<< 2 <<< 2 >>> 6 = c ∧ flagsOf [a, b, c, d] <<< 2 <<< 2 <<< 2 >>> 6 = d := by
  have hf : (flagsOf [a, b, c, d]).toNat = a.toNat * 64 + b.toNat * 16 + c.toNat * 4 + d.toNat := by
    rw [toNat_flagsOf_cons ha, toNat_flagsOf_cons hb, toNat_flagsOf_cons hc, toNat_flagsOf_cons hd]
    show _ + (_ + (_ + (_ + 0 / 4) / 4) / 4) / 4 = _
    omega
  have h₁ : (flagsOf [a, b, c, d] <<< 2).toNat = b.toNat * 64 + c.toNat * 16 + d.toNat * 4 := by
    rw [u8_toNat_shiftLeft_2, hf]; omega
  have h₂ : (flagsOf [a, b, c, d] <<< 2 <<< 2).toNat = c.toNat * 64 + d.toNat * 16 := by
    rw [u8_toNat_shiftLeft_2, h₁]; omega
  have h₃ : (flagsOf [a, b, c, d] <<< 2 <<< 2 <<< 2).toNat = d.toNat * 64 := by
    rw [u8_toNat_shiftLeft_2, h₂]; omega
  simp only [u8_eq_iff, u8_toNat_shiftRight_6, hf, h₁, h₂, h₃]
  omega

theorem length_encodeGroup (highByte : UInt8) (a b c d : UInt16) :
    (encodeGroup highByte a b c d).length = 1 + (unitCode highByte a).length +
      (unitCode highByte b).length + (unitCode highByte c).length + (unitCode highByte d).length := by
  simp only [encodeGroup, List.length_cons, List.length_append]
  omega

/-- **One group.** Four passes decode a group's four units. -/
theorem decodeLoop_encodeGroup (fuel : Nat) (fl : UInt8) (P K : Nat) (W : List UInt16)
    (a b c d : UInt16) (hr : ReadsAt name (encOff + P) (encodeGroup highByte a b c d))
    (hP : P + (encodeGroup highByte a b c d).length < encSize.toNat) (hK : K + 4 < maxDecSize.toNat) :
    ∃ fl', decodeLoop true name encOff highByte encSize maxDecSize (fuel + 4)
        ⟨fl, 0, P.toUInt64, K.toUInt64, W⟩ =
      decodeLoop true name encOff highByte encSize maxDecSize fuel
        ⟨fl', 0, (P + (encodeGroup highByte a b c d).length).toUInt64, (K + 4).toUInt64,
          writeAt W K [a, b, c, d]⟩ := by
  obtain ⟨h₀, h₁, h₂, h₃⟩ := flagsOf_four (unitCommand_toNat_lt highByte a)
    (unitCommand_toNat_lt highByte b) (unitCommand_toNat_lt highByte c) (unitCommand_toNat_lt highByte d)
  rw [length_encodeGroup] at hP ⊢
  rw [encodeGroup, List.map_cons, List.map_cons, List.map_cons, List.map_cons, List.map_nil, ReadsAt,
    readsAt_append, readsAt_append, readsAt_append] at hr
  simp only [List.length_append, ← Nat.add_assoc] at hr
  obtain ⟨hf, ⟨⟨ra, rb⟩, rc⟩, rd⟩ := hr
  refine ⟨name (encOff + P) <<< 2 <<< 2 <<< 2 <<< 2, ?_⟩
  rw [decodeLoop_refill_unit name encOff highByte encSize maxDecSize (fuel + 3) fl P K W a
      (hf ▸ h₀) (by simpa only [← Nat.add_assoc] using ra) (by omega) (by omega),
    decodeLoop_unit name encOff highByte encSize maxDecSize (fuel + 2) _ _ _ _ _ b (by decide)
      (hf ▸ h₁) (by simpa only [← Nat.add_assoc] using rb) (by omega) (by omega),
    decodeLoop_unit name encOff highByte encSize maxDecSize (fuel + 1) _ _ _ _ _ c (by decide)
      (hf ▸ h₂) (by simpa only [← Nat.add_assoc] using rc) (by omega) (by omega),
    decodeLoop_unit name encOff highByte encSize maxDecSize fuel _ _ _ _ _ d (by decide)
      (hf ▸ h₃) (by simpa only [← Nat.add_assoc] using rd) (by omega) (by omega)]
  simp only [← Nat.add_assoc]
  rfl

/-- **All groups.** The loop decodes whole groups of units, one pass a unit. -/
theorem decodeLoop_encodeGroups : ∀ (vs : List UInt16) (fuel : Nat) (fl : UInt8) (P K : Nat)
    (W : List UInt16), vs.length % 4 = 0 → ReadsAt name (encOff + P) (encodeGroups highByte vs) →
    P + (encodeGroups highByte vs).length < encSize.toNat → K + vs.length < maxDecSize.toNat →
    ∃ fl', decodeLoop true name encOff highByte encSize maxDecSize (fuel + vs.length)
        ⟨fl, 0, P.toUInt64, K.toUInt64, W⟩ =
      decodeLoop true name encOff highByte encSize maxDecSize fuel
        ⟨fl', 0, (P + (encodeGroups highByte vs).length).toUInt64, (K + vs.length).toUInt64,
          writeAt W K vs⟩
  | [], _, fl, _, _, _, _, _, _, _ => ⟨fl, rfl⟩
  | [_], _, _, _, _, _, h4, _, _, _ | [_, _], _, _, _, _, _, h4, _, _, _
  | [_, _, _], _, _, _, _, _, h4, _, _, _ => by simp at h4
  | a :: b :: c :: d :: rest, fuel, fl, P, K, W, h4, hr, hP, hK => by
    simp only [encodeGroups, readsAt_append, List.length_append, List.length_cons] at hr hP hK h4 ⊢
    obtain ⟨fl₁, h₁⟩ := decodeLoop_encodeGroup name encOff highByte encSize maxDecSize
      (fuel + rest.length) fl P K W a b c d hr.1 (by omega) (by omega)
    obtain ⟨fl₂, h₂⟩ := decodeLoop_encodeGroups rest fuel fl₁ _ (K + 4) _ (by omega)
      (by simpa only [Nat.add_assoc] using hr.2) (by omega) (by omega)
    refine ⟨fl₂, ?_⟩
    rw [show fuel + (rest.length + 1 + 1 + 1 + 1) = fuel + rest.length + 4 by omega, h₁, h₂,
      Nat.add_assoc P, show K + 4 + rest.length = K + (rest.length + 1 + 1 + 1 + 1) by omega]
    rfl

end Loop

section Below

variable (name : Nat → UInt8) (maxDecSize : UInt64)

theorem copyRun_keeps_below (unit : UInt8 → UInt16) :
    ∀ (length : Nat) (decPos : UInt64) (nameW : List UInt16), ∀ i < decPos.toNat,
      (copyRun name maxDecSize unit length decPos nameW).2[i]? = nameW[i]?
  | 0, _, _, _, _ => rfl
  | length + 1, decPos, nameW, i, hi => by
    rw [copyRun]
    split
    case isTrue hlt =>
      have := maxDecSize.toNat_lt_size
      have hlt' := (u64_lt_iff _ _).1 hlt
      simp only [UInt64.size] at this
      rw [copyRun_keeps_below unit length _ _ i (by rw [u64_toNat_succ (by omega)]; omega),
        List.getElem?_set_ne (by omega)]
    case isFalse => rfl

variable (littleEndian : Bool) (encOff : Nat) (highByte : UInt8)

theorem decodeCommand_keeps_below (st : DecodeState) :
    ∀ i < st.decPos.toNat,
      (decodeCommand littleEndian name encOff highByte maxDecSize st).nameW[i]? = st.nameW[i]? := by
  intro i hi
  unfold decodeCommand
  split
  · exact List.getElem?_set_ne (by omega)
  · exact List.getElem?_set_ne (by omega)
  · exact List.getElem?_set_ne (by omega)
  · dsimp only
    split <;> exact copyRun_keeps_below name maxDecSize _ _ _ _ i hi

/-- **The loop never goes back.** `DecPos` only grows, and no unit below where it started
is written again. -/
theorem decodeLoop_keeps_below (encSize : UInt64) (hmax : 1 ≤ maxDecSize.toNat) :
    ∀ (fuel : Nat) (st : DecodeState),
      st.decPos.toNat ≤ (decodeLoop littleEndian name encOff highByte encSize maxDecSize fuel st).decPos.toNat ∧
        ∀ i < st.decPos.toNat,
          (decodeLoop littleEndian name encOff highByte encSize maxDecSize fuel st).nameW[i]? = st.nameW[i]?
  | 0, _ => ⟨le_rfl, fun _ _ => rfl⟩
  | fuel + 1, st => by
    rw [decodeLoop]
    split
    case isTrue hg =>
      have hd := (u64_lt_iff _ _).1 hg.2
      rw [u64_toNat_pred hmax] at hd
      lift_lets
      intro filled cmd
      have hfilled : filled.decPos = st.decPos ∧ filled.nameW = st.nameW := by
        simp only [filled]
        split <;> exact ⟨rfl, rfl⟩
      have hprog := decodeCommand_progress name maxDecSize littleEndian encOff highByte filled
        (by rw [hfilled.1]; omega)
      have hkeep := decodeCommand_keeps_below name maxDecSize littleEndian encOff highByte filled
      obtain ⟨hmono, hbelow⟩ := decodeLoop_keeps_below encSize hmax fuel
        { cmd with flags := cmd.flags <<< 2, flagBits := cmd.flagBits - 2 }
      rw [hfilled.1] at hprog hkeep
      rw [hfilled.2] at hkeep
      exact ⟨by simp only [cmd] at hprog hmono ⊢; omega,
        fun i hi => (hbelow i (by simp only [cmd]; omega)).trans (hkeep i hi)⟩
    case isFalse => exact ⟨le_rfl, fun _ _ => rfl⟩

end Below

theorem length_writeAt : ∀ (W : List UInt16) (K : Nat) (vs : List UInt16),
    (writeAt W K vs).length = W.length
  | _, _, [] => rfl
  | _, _, _ :: vs => (length_writeAt _ _ vs).trans (List.length_set _ _ _)

theorem getElem?_writeAt : ∀ (W : List UInt16) (K : Nat) (vs : List UInt16), K + vs.length ≤ W.length →
    ∀ i, (writeAt W K vs)[i]? = if i < K then W[i]? else if i < K + vs.length then vs[i - K]? else W[i]?
  | W, K, [], _, i => by
    simp only [writeAt, List.length_nil, Nat.add_zero]
    split_ifs <;> rfl
  | W, K, v :: vs, h, i => by
    simp only [List.length_cons] at h
    rw [writeAt, getElem?_writeAt _ _ vs (by rw [List.length_set]; omega) i, List.getElem?_set]
    by_cases h₁ : i < K
    · simp only [if_pos h₁, if_pos (by omega : i < K + 1), if_neg (by omega : ¬K = i)]
    · by_cases h₂ : i = K
      · subst h₂; simp only [if_neg h₁, if_pos (by omega : i < i + 1), lt_self_iff_false, if_true,
          Nat.sub_self, List.getElem?_cons_zero, if_pos (by omega : i < W.length)]
        simp
      · simp only [if_neg h₁, if_neg (by omega : ¬i < K + 1), if_neg (Ne.symm h₂), List.length_cons]
        split_ifs <;> first | omega | rfl | skip
        rw [show i - K = i - (K + 1) + 1 by omega, List.getElem?_cons_succ]

theorem length_padUnits (us : List UInt16) : (padUnits us).length % 4 = 0 := by
  simp only [padUnits, List.length_append, List.length_replicate]
  omega

theorem takeWhile_of_getElem? : ∀ (us R : List UInt16), 0 ∉ us → (∀ i < us.length, R[i]? = us[i]?) →
    R[us.length]? = some 0 → R.takeWhile (· ≠ 0) = us
  | _, [], _, _, h0 => by simp at h0
  | [], r :: _, _, _, h0 => by simp only [List.length_nil, List.getElem?_cons_zero, Option.some.injEq] at h0; simp [h0]
  | u :: us, r :: R, hne, h, h0 => by
    have hr : r = u := by simpa using h 0 (by simp)
    have hu : u ≠ 0 := fun h0 => hne (h0 ▸ List.mem_cons_self _ _)
    subst hr
    rw [List.takeWhile_cons_of_pos (by simpa using hu),
      takeWhile_of_getElem? us R (fun h => hne (List.mem_cons_of_mem _ h))
        (fun i hi => by simpa using h (i + 1) (by simp; omega)) (by simpa using h0)]

/-- **`DecodeFileName` unpacks a packed name.** On a little-endian build, when `EncName`
holds a name packed by `encodeName` inside `EncSize` bytes and the name with its padding fits
below `MaxDecSize / 2 - 1` units of `NameW`, the decoder gives back the name, up to its first 0
unit, whatever the high byte, the units and the rest of the buffers. -/
theorem decodeFileName_encodeName (name : Nat → UInt8) (encOff : Nat) (encSize maxDecSize : UInt64)
    (nameW : List UInt16) (highByte : UInt8) (us : List UInt16) (hne : 0 ∉ us)
    (hr : ReadsAt name encOff (encodeName highByte us))
    (hP : (encodeName highByte us).length < encSize.toNat)
    (hK : (padUnits us).length < maxDecSize.toNat / 2) (hW : maxDecSize.toNat / 2 ≤ nameW.length) :
    (decodeFileName true name encOff encSize nameW maxDecSize).takeWhile (· ≠ 0) = us := by
  simp only [encodeName, ReadsAt, List.length_cons] at hr hP
  obtain ⟨hb, hr⟩ := hr
  have hM : (maxDecSize / 2).toNat = maxDecSize.toNat / 2 := UInt64.toNat_div _ _
  have hL := length_padUnits us
  obtain ⟨fl, hgroups⟩ := decodeLoop_encodeGroups name encOff highByte encSize (maxDecSize / 2)
    (padUnits us) ((maxDecSize / 2).toNat - (padUnits us).length) 0 1 0 nameW hL hr (by omega)
    (by omega)
  unfold decodeFileName
  dsimp only
  rw [hb, show (maxDecSize / 2).toNat = (maxDecSize / 2).toNat - (padUnits us).length +
      (padUnits us).length by omega,
    show (⟨0, 0, 1, 0, nameW⟩ : DecodeState) = ⟨0, 0, (1 : Nat).toUInt64, (0 : Nat).toUInt64, nameW⟩
      from rfl, hgroups]
  obtain ⟨hmono, hbelow⟩ := decodeLoop_keeps_below name (maxDecSize / 2) true encOff highByte encSize
    (by omega) ((maxDecSize / 2).toNat - (padUnits us).length)
    ⟨fl, 0, (1 + (encodeGroups highByte (padUnits us)).length).toUInt64,
      (0 + (padUnits us).length).toUInt64, writeAt nameW 0 (padUnits us)⟩
  generalize decodeLoop _ _ _ _ _ _ _ _ = st at hmono hbelow ⊢
  have hLn : ((0 + (padUnits us).length).toUInt64).toNat = (padUnits us).length := by
    rw [toNat_toUInt64, Nat.zero_add, Nat.mod_eq_of_lt (by have := maxDecSize.toNat_lt_size; simp only [UInt64.size] at this; omega)]
  rw [hLn] at hmono hbelow
  have hidx : (padUnits us).length ≤
      (if st.decPos < maxDecSize / 2 then st.decPos else maxDecSize / 2 - 1).toNat := by
    split
    · exact hmono
    · rw [u64_toNat_pred (by omega)]; omega
  have hpad : ∀ i, i ≤ us.length →
      (st.nameW.set (if st.decPos < maxDecSize / 2 then st.decPos else maxDecSize / 2 - 1).toNat 0)[i]? =
        (us ++ [0])[i]? := by
    intro i hi
    have hlen : us.length < (padUnits us).length := by
      simp only [padUnits, List.length_append, List.length_replicate]; omega
    rw [List.getElem?_set_ne (by omega), hbelow i (by omega),
      getElem?_writeAt _ _ _ (by omega) i, if_neg (Nat.not_lt_zero i), if_pos (by omega), Nat.sub_zero,
      padUnits]
    rcases Nat.lt_or_eq_of_le hi with hi | rfl
    · rw [List.getElem?_append_left hi, List.getElem?_append_left hi]
    · rw [List.getElem?_append_right le_rfl, List.getElem?_append_right le_rfl, Nat.sub_self,
        List.getElem?_replicate, if_pos (by omega)]
      rfl
  exact takeWhile_of_getElem? us _ hne
    (fun i hi => (hpad i hi.le).trans (List.getElem?_append_left hi))
    ((hpad _ le_rfl).trans (by simp))

/-- A three-unit name, `A`, `α` and `中`, one of each command, packed after the OEM name `a`
as `process_file` passes `file_name` to the decoder. -/
theorem decodeFileName_encodeName_at_mixed_name :
    0 ∉ ([0x41, 0x3b1, 0x4e2d] : List UInt16) ∧
      ReadsAt (fun i => ([0x61, 0] ++ encodeName 3 [0x41, 0x3b1, 0x4e2d]).getD i 0) 2
        (encodeName 3 [0x41, 0x3b1, 0x4e2d]) ∧
      (encodeName 3 [0x41, 0x3b1, 0x4e2d]).length < (4 * pathBufSize - 1 - 1).toUInt64.toNat ∧
      (padUnits [0x41, 0x3b1, 0x4e2d]).length < (2 * pathBufSize).toUInt64.toNat / 2 ∧
      (2 * pathBufSize).toUInt64.toNat / 2 ≤ (List.replicate pathBufSize (0 : UInt16)).length ∧
      (decodeFileName true (fun i => ([0x61, 0] ++ encodeName 3 [0x41, 0x3b1, 0x4e2d]).getD i 0) 2
          (4 * pathBufSize - 1 - 1).toUInt64 (List.replicate pathBufSize 0)
          (2 * pathBufSize).toUInt64).takeWhile (· ≠ 0) = [0x41, 0x3b1, 0x4e2d] :=
  have h₁ : 0 ∉ ([0x41, 0x3b1, 0x4e2d] : List UInt16) := by decide
  have h₂ : ReadsAt (fun i => ([0x61, 0] ++ encodeName 3 [0x41, 0x3b1, 0x4e2d]).getD i 0) 2
      (encodeName 3 [0x41, 0x3b1, 0x4e2d]) := by decide
  have h₃ : (encodeName 3 [0x41, 0x3b1, 0x4e2d]).length < (4 * pathBufSize - 1 - 1).toUInt64.toNat := by
    decide
  have h₄ : (padUnits [0x41, 0x3b1, 0x4e2d]).length < (2 * pathBufSize).toUInt64.toNat / 2 := by decide
  have h₅ : (2 * pathBufSize).toUInt64.toNat / 2 ≤ (List.replicate pathBufSize (0 : UInt16)).length := by
    rw [List.length_replicate]; decide
  ⟨h₁, h₂, h₃, h₄, h₅, decodeFileName_encodeName _ 2 _ _ _ 3 _ h₁ h₂ h₃ h₄ h₅⟩

end Rar2John
