import Rar2John.Main

/-!
# What one archive leaves to the next

The `FILE` handles `process_file` leaves open, and the RAR5 globals, which one archive hands
to the next.
-/

namespace Rar2John.Session

open Rar5

section Handles

variable {E : Env} {fs : FileSystem} {fuel : Nat} {verbose : Bool} {name base : List UInt8}
  {w w' : World}

theorem processBlocks5_handles {fp : Stream} {r : Bool}
    (h : processBlocks5 E fuel name w fp = some (r, w')) : w'.handles = w.handles - 1 := by
  unfold processBlocks5 at h
  split at h
  · cases h
  · split at h <;> (cases h; rfl)

theorem processFile5_handles {r : Bool} (h : processFile5 E fs fuel name w = some (r, w')) :
    w'.handles = w.handles := by
  unfold processFile5 at h
  split at h
  · cases h; rfl
  · simp only at h
    repeat' split at h
    all_goals first | (cases h <;> simp) | simpa using processBlocks5_handles h

theorem processHeaders_handles {type : Nat} {fp : Stream}
    (h : processHeaders E fuel verbose name base w type fp = some w') :
    w'.handles = w.handles - 1 := by
  unfold processHeaders at h
  split at h <;> cases h <;> rfl

theorem processRar3_handles {fp : Stream}
    (h : processRar3 E fuel verbose name base w fp = some w') : w'.handles = w.handles - 1 := by
  unfold processRar3 at h
  simp only at h
  repeat' split at h
  all_goals first | (cases h; rfl) | exact processHeaders_handles h

/-- `process_file` closes what it opens, on every path but one: an `MZ` file without the
RAR3 signature, handed to `process_file5`, which returns 1. -/
theorem processFile_handles :
    (processFile E fs fuel verbose name w).map World.handles = none ∨
      (processFile E fs fuel verbose name w).map World.handles = some w.handles ∨
      ((processFile E fs fuel verbose name w).map World.handles = some (w.handles + 1) ∧
        ∃ data, fs name = some data ∧ data.take 2 = ascii "MZ" ∧
          (sfxScan rar3Magic ((Stream.ofData data).read 7).2).map Prod.fst = some false) := by
  rcases h : processFile E fs fuel verbose name w with _ | w'
  · exact Or.inl rfl
  right
  simp only [Option.map_some', Option.some.injEq]
  unfold processFile at h
  split at h
  · cases h; simp
  next data hfs =>
    simp only at h
    split_ifs at h with hshort hold hrar3 hmz
    · cases h; simp
    · cases h; simp
    · split at h
      · cases h
      next hscan =>
        split_ifs at h with hfound
        · left; simpa using processRar3_handles h
        split at h
        · cases h
        · next h5 =>
          cases h
          right
          refine ⟨by simpa using processFile5_handles h5, data, hfs, ?_, ?_⟩
          · simpa [Stream.read, Stream.ofData, rar3Magic, List.take_take] using hmz
          · rw [show (7 : Nat) = rar3Magic.length from rfl, hscan]
            simpa using hfound
        next h5 =>
          cases h
          left; simp [processFile5_handles h5]
    · left
      obtain ⟨⟨r, w5⟩, h5, rfl⟩ := Option.map_eq_some'.mp h
      simpa using processFile5_handles h5
    · left; simpa using processRar3_handles h

theorem processFile_leaks {data : List UInt8} {fp : Stream} (hfs : fs name = some data)
    (h7 : 7 ≤ data.length) (hmz : data.take 2 = ascii "MZ")
    (hscan : sfxScan rar3Magic ((Stream.ofData data).read 7).2 = some (false, fp))
    (h5 : (processFile5 E fs fuel name w.fopen).map Prod.fst = some true) :
    processFile E fs fuel verbose name w = (processFile5 E fs fuel name w.fopen).map Prod.snd ∧
      (processFile E fs fuel verbose name w).map World.handles = some (w.handles + 1) := by
  obtain ⟨⟨_, w₅⟩, h5, rfl⟩ := Option.map_eq_some'.1 h5
  have hm : ((Stream.ofData data).read 7).1.take 2 = ascii "MZ" := by
    simpa [Stream.read, Stream.ofData, List.take_take] using hmz
  have hlen : ((Stream.ofData data).read 7).1.length = 7 := by
    simp [Stream.read, Stream.ofData]; omega
  have hold : ((Stream.ofData data).read 7).1.take 4 ≠ rarOldMagic := by
    intro h
    have := congrArg (List.take 2) h
    rw [List.take_take, show min 2 4 = 2 from rfl, hm] at this
    exact absurd this (by decide)
  have hrar3 : ((Stream.ofData data).read 7).1 ≠ rar3Magic := by
    intro h
    rw [h] at hm
    exact absurd hm (by decide)
  have hfile : processFile E fs fuel verbose name w = some w₅ := by
    unfold processFile
    simp only [hfs, show rar3Magic.length = 7 from rfl, show rarOldMagic.length = 4 from rfl]
    rw [if_neg (by omega), if_neg hold, if_pos hrar3, if_pos hm]
    simp [hscan, h5]
  rw [hfile, h5]
  exact ⟨rfl, by simp [processFile5_handles h5]⟩

end Handles

/-- An `MZ` stub of eight bytes, then a RAR5 archive of a main and an end-of-archive
block. -/
def mzArchive : List UInt8 :=
  [0x4d, 0x5a, 0x00, 0x00, 0x00, 0x00, 0x00, 0x00] ++ rar5Magic ++
    [0xc5, 0x1a, 0x33, 0x32, 0x03, 0x01, 0x00, 0x00] ++ [0x19, 0xb2, 0x3a, 0x35, 0x03, 0x05, 0x00, 0x00]

set_option smartUnfolding false in
/-- `rar2john` on `mzArchive` ends with the archive's handle still open. -/
theorem mz_rar5_archive_left_open (fuel : Nat) (verbose : Bool) :
    (rar2john jtrBuild (fun _ => some mzArchive) (fuel + 10) (ascii "rar2john") verbose
      [ascii "sfx.exe"]).map (fun r => r.2.handles) = some 1 := by
  refine rar2john_map_add_fuel ?_ fuel
  cases verbose <;> decide

section Latch

variable {E : Env} {name : List UInt8}

theorem readRar5Header_of_encrypted {cur : UInt64} {st : Rar5State}
    (henc : st.g.encrypted = true) (hlen : st.fp.pos + sizeInitv ≤ st.fp.data.length) :
    ((readRar5Header E name cur).run st).run =
      ((0, { st with fp := (st.fp.read sizeInitv).2, found := st.found + 1 }),
        Output.empty.printf (rar5Record E (E.basename name) st.g.rar5Salt
          st.g.rar5Interations.toNat ((st.fp.data.drop st.fp.pos).take sizeInitv)
          st.g.pswCheck)) := by
  have hbuf : (E.stackBuf sizeInitv).length ≤
      ((st.fp.data.drop st.fp.pos).take sizeInitv).length := by
    simp; omega
  have h16 : 0 < sizeInitv := by decide
  have hread := @readBuf_run (E.stackBuf sizeInitv) sizeInitv { st with bytesRead := 0 } h16 hlen
  simp only at hread
  simp only [readRar5Header, readRar5HeaderBody, StateT.run_bind, OutM.run_bind, StateT.run_get,
    StateT.run_set, OutM.run_pure, henc, if_true, hread, ne_eq, not_true_eq_false, if_false,
    overlay_of_length_le hbuf]
  simp [incFound, print]

theorem blockPass_of_encrypted {st : Rar5State} (henc : st.g.encrypted = true)
    (hlen : st.fp.pos + sizeInitv ≤ st.fp.data.length) :
    ((blockPass E name).run st).run =
      ((some (), { st with fp := (st.fp.read sizeInitv).2, found := st.found + 1 }),
        Output.empty.printf (rar5Record E (E.basename name) st.g.rar5Salt
          st.g.rar5Interations.toNat ((st.fp.data.drop st.fp.pos).take sizeInitv)
          st.g.pswCheck)) := by
  simp [blockPass, readRar5Header_of_encrypted henc hlen]

theorem processFile5_of_encrypted {fs : FileSystem} {data : List UInt8} {w : World}
    (hfs : fs name = some data) (hmagic : data.take 8 = rar5Magic) (hlen : 24 ≤ data.length)
    (henc : w.g.encrypted = true) (fuel : Nat) :
    processFile5 E fs (fuel + 1) name w = some (true, { w with
      out := w.out.printf (rar5Record E (E.basename name) w.g.rar5Salt
        w.g.rar5Interations.toNat ((data.drop 8).take 16) w.g.pswCheck) }) := by
  have hpass : ((blockPass E name).run ⟨⟨data, 8, false⟩, w.g, 0, 0⟩).run = _ :=
    blockPass_of_encrypted henc (by simp [sizeInitv]; omega)
  have h8 : rar5Magic.length = 8 := rfl
  have hmin : min 8 data.length = 8 := by omega
  have hmz : rar5Magic.take 2 ≠ ascii "MZ" := by decide
  unfold processFile5 processBlocks5
  simp [hfs, Stream.ofData, Stream.read, h8, hmin, hmagic, hmz, World.fopen, World.fclose,
    loopFuel_succ_of_some hpass]
  exact (Output.printf_eq_append _ _).symm

end Latch

/-- A RAR5 archive of a main and an end-of-archive block. -/
def plainArchive : List UInt8 :=
  rar5Magic ++ [0xc5, 0x1a, 0x33, 0x32, 0x03, 0x01, 0x00, 0x00] ++
    [0x19, 0xb2, 0x3a, 0x35, 0x03, 0x05, 0x00, 0x00]

/-- A RAR5 archive whose headers are encrypted: a crypt header without the password-check
flag, log2 count 15 and salt `0x10` to `0x1f`, then the 16-byte IV `0x60` to `0x6f` of the
encrypted headers. -/
def headerEncryptedArchive : List UInt8 :=
  rar5Magic ++ [0x3d, 0x8d, 0x30, 0x86, 0x15, 0x04, 0x00, 0x00, 0x00, 0x0f] ++
    (List.range 16).map (fun i => (0x10 + i).toUInt8) ++
    (List.range 16).map (fun i => (0x60 + i).toUInt8)

/-- `b.rar` is `headerEncryptedArchive`, `a.rar` is `plainArchive`. -/
def twoArchives : FileSystem := fun p =>
  if p = ascii "b.rar" then some headerEncryptedArchive
  else if p = ascii "a.rar" then some plainArchive else none

set_option maxRecDepth 4000 in
set_option smartUnfolding false in
/-- `rar2john a.rar` prints nothing; `rar2john b.rar a.rar` prints, after `b.rar`'s record,
one for `a.rar` made of `b.rar`'s salt and iteration count and `a.rar`'s own blocks taken as
an IV. -/
theorem encrypted_latch_carries_into_next_archive (fuel : Nat) :
    (rar2john jtrBuild twoArchives (fuel + 10) (ascii "rar2john") false
        [ascii "a.rar"]).map (fun r => r.2.out.stdout) = some [] ∧
      (rar2john jtrBuild twoArchives (fuel + 10) (ascii "rar2john") false
        [ascii "b.rar", ascii "a.rar"]).map (fun r => r.2.out.stdout) =
        some (rar5Record jtrBuild (ascii "b.rar") ((headerEncryptedArchive.drop 18).take 16) 15
            (headerEncryptedArchive.drop 34) (List.replicate 12 0) ++
          rar5Record jtrBuild (ascii "a.rar") ((headerEncryptedArchive.drop 18).take 16) 15
            (plainArchive.drop 8) (List.replicate 12 0)) :=
  ⟨rar2john_map_add_fuel (by decide) fuel, rar2john_map_add_fuel (by decide) fuel⟩

end Rar2John.Session
