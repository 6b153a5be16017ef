import Rar2John.Main
import Rar2John.Rar5.Vuint

/-!
# `ProcessExtra50` on an extra area of several records

The loop does not move past the body of a record it skips, so a crypt record after another
record is read from the wrong bytes; the loop still ends within one pass per byte.
-/

namespace Rar2John.Rar5.Extra

theorem processExtra50Loop_reads_after_type {E : Env} {name : List UInt8} {headerType : UInt8}
    {fuel : Nat} {bytesLeft : Int} {st : Rar5State} {s t : UInt8} {rest : List UInt8}
    (hdata : st.fp.data.drop st.fp.pos = s :: t :: rest) (hs : s < 0x80) (ht : t < 0x80)
    (hleft : 0 ≤ toInt32 (toInt32 (bytesLeft - 1) - s.toNat))
    (hcrypt : ¬((headerType = headFile ∨ headerType = headService) ∧ t.toUInt64 = fhextraCrypt)) :
    ((processExtra50Loop E name headerType (fuel + 1) bytesLeft).run st).run =
      ((processExtra50Loop E name headerType fuel (toInt32 (toInt32 (bytesLeft - 1) - s.toNat))).run
        { st with
          fp := { st.fp with pos := st.fp.pos + 2 }
          bytesRead := st.bytesRead + 1 + 1 }).run := by
  have h1 := readVuint_run_of_lt hdata hs
  have h2 : ((readVuint).run
      { st with fp := { st.fp with pos := st.fp.pos + 1 }, bytesRead := st.bytesRead + 1 }).run = _ :=
    readVuint_run_of_lt (show st.fp.data.drop (st.fp.pos + 1) = t :: rest by
      rw [← List.drop_drop, hdata]; rfl) ht
  have hsize : ((s.toUInt64.toNat % 2 ^ 32 : Nat) : Int) = s.toNat := by
    rw [u8_toNat_toUInt64, Nat.mod_eq_of_lt (by have := UInt8.toNat_lt_size s; simp [UInt8.size] at this; omega)]
  simp only at h1 h2
  simp only [processExtra50Loop, StateT.run_bind, OutM.run_bind, h1, getVuint, h2, hsize,
    if_neg (by decide : ¬(1 = 0 ∨ 3 < 1)), show ((1 : Nat) : Int) = 1 from rfl]
  simp [hcrypt, h2, Int.not_lt.2 hleft]

/-- A file extra record of type 4 (`FHEXTRA_VERSION`), size 3. -/
def versionRecord : List UInt8 := [0x03, 0x04, 0x00, 0x02]

/-- A file extra record of type 1 (`FHEXTRA_CRYPT`), size 52: version 0, the
password-check flag, log2 count 15, salt `0x00` to `0x0f`, IV `0x20` to `0x2f`, check
value `0x40` to `0x4b` and its checksum `a0 a1 a2 a3`. -/
def cryptRecordBytes : List UInt8 :=
  [0x34, 0x01, 0x00, 0x01, 0x0f] ++ (List.range 16).map (fun i => i.toUInt8) ++
    (List.range 16).map (fun i => (0x20 + i).toUInt8) ++
    (List.range 12).map (fun i => (0x40 + i).toUInt8) ++ [0xa0, 0xa1, 0xa2, 0xa3]

/-- A RAR5 archive of a main block, a file block `a` with the extra area `extra` and the
header CRC `crc`, and an end-of-archive block. -/
def extraArchive (crc extra : List UInt8) : List UInt8 :=
  rar5Magic ++ [0xc5, 0x1a, 0x33, 0x32, 0x03, 0x01, 0x00, 0x00] ++
    crc ++ [(10 + extra.length).toUInt8, 0x02, 0x01, extra.length.toUInt8,
      0x00, 0x00, 0x00, 0x00, 0x00, 0x01, 0x61] ++ extra ++
    [0x19, 0xb2, 0x3a, 0x35, 0x03, 0x05, 0x00, 0x00]

set_option maxRecDepth 4000 in
set_option smartUnfolding false in
/-- The same two extra records in the two orders: with the crypt record first, its record
is printed; after the version record, nothing is. -/
theorem crypt_record_after_other_record_is_missed (fuel : Nat) (verbose : Bool) :
    (rar2john jtrBuild (fun _ => some (extraArchive [0xbe, 0x3d, 0x2c, 0x5e]
        (cryptRecordBytes ++ versionRecord))) (fuel + 10) (ascii "rar2john") verbose
        [ascii "e.rar"]).map (fun r => r.2.out.stdout) =
      some (rar5Record jtrBuild (ascii "e.rar") ((cryptRecordBytes.drop 5).take 16) 15
        ((cryptRecordBytes.drop 21).take 16) ((cryptRecordBytes.drop 37).take 12)) ∧
    (rar2john jtrBuild (fun _ => some (extraArchive [0x03, 0x5b, 0x78, 0xac]
        (versionRecord ++ cryptRecordBytes))) (fuel + 10) (ascii "rar2john") verbose
        [ascii "e.rar"]).map (fun r => r.2.out.stdout) = some [] := by
  constructor
  · refine rar2john_map_add_fuel ?_ fuel
    cases verbose <;> decide
  · refine rar2john_map_add_fuel ?_ fuel
    cases verbose <;> decide

/-! ## The loop ends at a `return` -/

/-- **Step.** One pass more than the bytes left changes nothing: a pass that goes on reads
at least two bytes of the file. -/
theorem processExtra50Loop_succ (E : Env) (name : List UInt8) (headerType : UInt8) :
    ∀ (fuel : Nat) (bytesLeft : Int) (st : Rar5State), st.fp.data.length - st.fp.pos < fuel →
      ((processExtra50Loop E name headerType (fuel + 1) bytesLeft).run st).run =
        ((processExtra50Loop E name headerType fuel bytesLeft).run st).run
  | 0, _, _, h => absurd h (Nat.not_lt_zero _)
  | n + 1, bytesLeft, st, h => by
    rw [processExtra50Loop, processExtra50Loop]
    simp only [StateT.run_bind, OutM.run_bind, readVuint, StateT.run_modifyGet, OutM.run_pure]
    have hadv := readVuintFrom_advances 10 st.fp 0 0
    rcases hv : readVuintFrom st.fp 0 0 10 with ⟨r, v, fp1⟩
    rw [hv] at hadv
    dsimp only at hadv ⊢
    by_cases hr : r = 0 ∨ 3 < r
    · simp only [if_pos hr]
    simp only [if_neg hr]
    obtain ⟨hp1, hl1, hd1⟩ := hadv (by omega)
    split
    · rfl
    have hadv2 := readVuintFrom_advances 10 fp1 0 0
    simp only [StateT.run_bind, OutM.run_bind, StateT.run_pure, OutM.run_pure, getVuint, readVuint,
      StateT.run_modifyGet]
    rcases hv2 : readVuintFrom fp1 0 0 10 with ⟨r2, v2, fp2⟩
    rw [hv2] at hadv2
    dsimp only at hadv2 ⊢
    by_cases hr2 : r2 = 0
    · simp only [if_pos hr2]
    simp only [if_neg hr2]
    obtain ⟨hp2, hl2, hd2⟩ := hadv2 hr2
    split
    · rfl
    rw [hd1] at hl2
    rw [processExtra50Loop_succ E name headerType n _ _ (by dsimp only; rw [hd2, hd1]; omega)]

/-- **`ProcessExtra50`'s loop ends at a `return`.** From any state and with any
`bytes_left`, running the loop for more passes than `processExtra50` gives it, one per byte
left in the file and one more, changes neither its result, nor the state, nor what it
prints: the fuel is never what stops it. -/
theorem processExtra50Loop_ends (E : Env) (name : List UInt8) (headerType : UInt8)
    (bytesLeft : Int) (st : Rar5State) (k : Nat) :
    ((processExtra50Loop E name headerType (st.fp.data.length - st.fp.pos + 1 + k) bytesLeft).run
        st).run =
      ((processExtra50Loop E name headerType (st.fp.data.length - st.fp.pos + 1) bytesLeft).run
        st).run := by
  induction k with
  | zero => rfl
  | succ k ih =>
    rw [← Nat.add_assoc, processExtra50Loop_succ E name headerType _ _ _ (by omega), ih]

end Rar2John.Rar5.Extra
