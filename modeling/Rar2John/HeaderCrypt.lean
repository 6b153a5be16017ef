import Rar2John.Session

/-!
# The header-encryption record

A RAR5 crypt header sets `Encrypted` even without the password-check flag, and the next
block is read as the IV of a record, however few bytes of it are left.
-/

namespace Rar2John.HeaderCrypt

open Rar5 Session

theorem readBuf_run_of_pos {buf : List UInt8} {n : Nat} {st : Rar5State}
    (h : 0 < ((st.fp.data.drop st.fp.pos).take n).length) :
    ((readBuf buf n).run st).run =
      (((n, overlay ((st.fp.data.drop st.fp.pos).take n) buf),
        { st with fp := (st.fp.read n).2, bytesRead := st.bytesRead + n.toUInt32 }), ∅) := by
  simp only [readBuf, StateT.run_modifyGet, OutM.run_pure, Stream.read]
  rw [if_neg (by omega)]

/-- **A crypt header without the password-check flag sets `Encrypted`.** With a supported
version, no password-check flag and a log2 count of at most `CRYPT5_KDF_LG2_COUNT_MAX`,
followed by 16 bytes of salt, the crypt header succeeds silently: the salt and the count are
stored, `Encrypted` is set and `PswCheck` keeps what it held. -/
theorem cryptHeader_without_pswcheck {E : Env} {st : Rar5State} {ver flags lg2 : UInt8}
    {salt rest : List UInt8} (hdata : st.fp.data.drop st.fp.pos = ver :: flags :: lg2 :: (salt ++ rest))
    (hsalt : salt.length = sizeSalt50) (hold : st.g.rar5Salt.length ≤ sizeSalt50)
    (hver : ver < 0x80) (hflags : flags < 0x80) (hcv : ver.toUInt64 ≤ E.cryptVersion)
    (hpsw : flags.toUInt64 &&& E.chflCryptPswcheck = 0) (hlg2 : lg2 ≤ crypt5KdfLg2CountMax) :
    ((cryptHeader E).run st).run.1.1 = some () ∧
      ((cryptHeader E).run st).run.1.2.g = { st.g with
        usePswCheck := false, rar5Interations := lg2.toUInt32, rar5Salt := salt, encrypted := true } ∧
      ((cryptHeader E).run st).run.2 = ∅ := by
  obtain ⟨h1, h2, h3⟩ := cryptHeader_field_reads hdata hver hflags
  have hsaltAt : (st.fp.data.drop (st.fp.pos + 1 + 1 + 1)).take sizeSalt50 = salt := by
    rw [← List.drop_drop, ← List.drop_drop, ← List.drop_drop, hdata]
    simp [← hsalt]
  have h4 : ∀ (buf : List UInt8) (g : Globals), ((readBuf buf sizeSalt50).run
      ⟨⟨st.fp.data, st.fp.pos + 1 + 1 + 1, st.fp.eof⟩, g, st.found, st.bytesRead + 1 + 1 + 1⟩).run =
      (((sizeSalt50, overlay salt buf), ⟨⟨st.fp.data, st.fp.pos + 1 + 1 + 1 + sizeSalt50, st.fp.eof⟩,
        g, st.found, st.bytesRead + 1 + 1 + 1 + sizeSalt50.toUInt32⟩), ∅) := fun buf g => by
    rw [readBuf_run_of_pos (by simp only [hsaltAt, hsalt]; decide), hsaltAt]
    simp [Stream.read, hsaltAt, hsalt]
  simp only [cryptHeader, getVuint, getUint8, StateT.run_bind, OutM.run_bind, h1, h2, StateT.run_pure,
    OutM.run_pure, Nat.one_ne_zero, if_false, gt_iff_lt, UInt64.not_lt.2 hcv, setG,
    StateT.run_modify, h3, UInt8.not_lt.2 hlg2, StateT.run_get, h4, hpsw, ne_eq, not_true_eq_false,
    decide_False, show sizeSalt50 ≠ 0 by decide, Bool.false_eq_true,
    overlay_of_length_le (hold.trans hsalt.ge), Output.empty_append, and_self]

/-- **A short IV is accepted.** While `Encrypted` is set, with 1 to 15 bytes left in the
archive, `read_rar5_header` prints a record whose IV is those bytes followed by what the
stack buffer held past them. -/
theorem readRar5Header_short_iv {E : Env} {name : List UInt8} {cur : UInt64} {st : Rar5State}
    (henc : st.g.encrypted = true) (hpos : st.fp.pos < st.fp.data.length)
    (hshort : st.fp.data.length < st.fp.pos + sizeInitv) :
    ((readRar5Header E name cur).run st).run.1.1 = 0 ∧
      ((readRar5Header E name cur).run st).run.2 =
        Output.empty.printf (rar5Record E (E.basename name) st.g.rar5Salt
          st.g.rar5Interations.toNat
          (st.fp.data.drop st.fp.pos ++ (E.stackBuf sizeInitv).drop (st.fp.data.length - st.fp.pos))
          st.g.pswCheck) := by
  have htake : (st.fp.data.drop st.fp.pos).take sizeInitv = st.fp.data.drop st.fp.pos :=
    List.take_of_length_le (by simp; omega)
  have hread := @readBuf_run_of_pos (E.stackBuf sizeInitv) sizeInitv { st with bytesRead := 0 }
    (by simp only [htake, List.length_drop]; omega)
  simp only [htake] at hread
  simp only [readRar5Header, readRar5HeaderBody, StateT.run_bind, OutM.run_bind, StateT.run_get,
    StateT.run_set, OutM.run_pure, henc, if_true, hread, ne_eq, not_true_eq_false, if_false]
  simp [incFound, print, overlay]

set_option maxRecDepth 4000 in
set_option smartUnfolding false in
/-- `headerEncryptedArchive` has a crypt header without the password-check flag: `rar2john`
prints its header record all the same, with the zero-initialised `PswCheck`. -/
theorem header_record_without_pswcheck (fuel : Nat) (verbose : Bool) :
    (rar2john jtrBuild (fun _ => some headerEncryptedArchive) (fuel + 10) (ascii "rar2john") verbose
        [ascii "p.rar"]).map (fun r => r.2.out.stdout) =
      some (rar5Record jtrBuild (ascii "p.rar") ((headerEncryptedArchive.drop 18).take 16) 15
        (headerEncryptedArchive.drop 34) (List.replicate 12 0)) := by
  refine rar2john_map_add_fuel ?_ fuel
  cases verbose <;> decide

set_option maxRecDepth 4000 in
set_option smartUnfolding false in
/-- The same archive cut 4 bytes into the IV: `rar2john` prints a record whose IV is those
4 bytes and 12 bytes of the stack buffer. -/
theorem short_iv_is_recorded (fuel : Nat) (verbose : Bool) :
    (rar2john jtrBuild (fun _ => some (headerEncryptedArchive.take 38)) (fuel + 10)
        (ascii "rar2john") verbose [ascii "iv.rar"]).map (fun r => r.2.out.stdout) =
      some (rar5Record jtrBuild (ascii "iv.rar") ((headerEncryptedArchive.drop 18).take 16) 15
        ((headerEncryptedArchive.drop 34).take 4 ++ jtrBuild.stackBuf 12) (List.replicate 12 0)) := by
  refine rar2john_map_add_fuel ?_ fuel
  cases verbose <;> decide

end Rar2John.HeaderCrypt
