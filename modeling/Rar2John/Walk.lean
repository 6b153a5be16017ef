import Rar2John.Main

/-!
# The two header walks

Neither walk is made to move forward: a RAR5 `NextBlockPos` can wrap back onto its block,
and a RAR3 `PACK_SIZE` or `HEAD_SIZE` can send the walk back or into a header.
-/

namespace Rar2John.Walk

open Rar5

theorem blockPass_stuck {E : Env} {name : List UInt8} {st st' : Rar5State}
    (hr : ((readRar5Header E name st.fp.pos.toUInt64).run st).run.1 = (st.fp.pos.toUInt64, st'))
    (h0 : st.fp.pos.toUInt64 ≠ 0)
    (hs : { st' with fp := st'.fp.seek (offT st.fp.pos.toUInt64) .set } = st) :
    ((blockPass E name).run st).run.1 = (none, st) := by
  simp only [blockPass, StateT.run_bind, OutM.run_bind, StateT.run_get, OutM.run_pure, hr]
  simp [h0, Rar5.seek, hs]

theorem processBlocks5_eq_none {E : Env} {fuel : Nat} {name : List UInt8} {w : World}
    {fp : Stream} (h : ((loopFuel (blockPass E name) fuel).run ⟨fp, w.g, 0, 0⟩).run.1.1 = none) :
    processBlocks5 E fuel name w fp = none := by
  unfold processBlocks5
  split <;> simp_all

/-- An archive whose one block declares a header size of 2^64 - 14 in a ten-byte varint:
`HeadSize = block_size + 4 + 10` is 0 in 64-bit arithmetic. -/
def wrapArchive : List UInt8 :=
  rar5Magic ++ [0, 0, 0, 0] ++ [0xf2, 0xff, 0xff, 0xff, 0xff, 0xff, 0xff, 0xff, 0xff, 0x01] ++
    [6, 0]

/-- The first block of `wrapArchive` sends the walk back to offset 8, its own offset, and
`rar2john` on it does not end however much fuel it is given. -/
theorem wrapping_header_size_loops_forever (fuel : Nat) (selfName : List UInt8)
    (verbose : Bool) (name : List UInt8) :
    ((readRar5Header jtrBuild name 8).run
        ⟨⟨wrapArchive, 8, false⟩, Globals.init jtrBuild, 0, 0⟩).run.1.1 = 8 ∧
      rar2john jtrBuild (fun _ => some wrapArchive) fuel selfName verbose [name] = none := by
  refine ⟨rfl, rar2john_eq_none [] ?_⟩
  have hpass : ((blockPass jtrBuild name).run
      ⟨⟨wrapArchive, 8, false⟩, Globals.init jtrBuild, 0, 0⟩).run.1 =
      (none, ⟨⟨wrapArchive, 8, false⟩, Globals.init jtrBuild, 0, 0⟩) :=
    blockPass_stuck rfl (by decide) rfl
  show (processBlocks5 jtrBuild fuel name (World.init jtrBuild).fopen.fclose.fopen
    ⟨wrapArchive, 8, false⟩).map Prod.snd = none
  rw [processBlocks5_eq_none (loopFuel_stuck hpass fuel)]
  rfl

open Rar3

theorem processHeaders_eq_none {E : Env} {fuel : Nat} {verbose : Bool} {name base : List UInt8}
    {w : World} {type : Nat} {fp : Stream}
    (h : ((loopFuel (nextFileHeader E verbose name base type) fuel).run
      ⟨fp, Bestsize.init, none, 0, fun _ => 0, 0, []⟩).run.1.1 = none) :
    processHeaders E fuel verbose name base w type fp = none := by
  unfold processHeaders
  split <;> simp_all

/-- A RAR3 archive of one file header with flag 0x100 (high size words), whose
`PACK_SIZE` is 2^64 - 1063, and a 1023-byte name: the skip after the header seeks back
1063 bytes, to the header itself. -/
def loopArchive : List UInt8 :=
  rar3Magic ++ [0, 0, 0x73, 0, 0, 13, 0, 0, 0, 0, 0, 0, 0] ++
    [0, 0, 0x74, 0x00, 0x81, 0x27, 0x04, 0xd9, 0xfb, 0xff, 0xff, 0, 0, 0, 0, 0, 0, 0, 0, 0, 0, 0,
      0, 0, 0x1d, 0x30, 0xff, 0x03, 0, 0, 0, 0] ++
    [0xff, 0xff, 0xff, 0xff, 0, 0, 0, 0] ++ List.replicate 1023 0x61

/-- The state after the first pass over `loopArchive`, `fp` standing on its header again. -/
def loopRevisit : Rar3State :=
  ((nextFileHeader jtrBuild false [] [] 1).run
    ⟨⟨loopArchive, 20, false⟩, Bestsize.init, none, 0, fun _ => 0, 0, []⟩).run.1.2

set_option maxRecDepth 4000 in
set_option smartUnfolding false in
/-- Every pass over `loopArchive` reads the header at offset 20 and comes back to it, and
`rar2john` on the archive does not end however much fuel it is given. -/
theorem negative_pack_size_revisits_header (fuel : Nat) (selfName : List UInt8)
    (verbose : Bool) (name base : List UInt8) :
    loopRevisit.fp.pos = 20 ∧
      ((nextFileHeader jtrBuild verbose name base 1).run
        ⟨⟨loopArchive, 20, false⟩, Bestsize.init, none, 0, fun _ => 0, 0, []⟩).run.1 =
        (none, loopRevisit) ∧
      ((nextFileHeader jtrBuild verbose name base 1).run loopRevisit).run.1 = (none, loopRevisit) ∧
      rar2john jtrBuild (fun _ => some loopArchive) fuel selfName verbose [name] = none := by
  have hfirst : ∀ name base : List UInt8, ((nextFileHeader jtrBuild verbose name base 1).run
      ⟨⟨loopArchive, 20, false⟩, Bestsize.init, none, 0, fun _ => 0, 0, []⟩).run.1 =
      (none, loopRevisit) := by
    cases verbose <;> exact fun _ _ => rfl
  have hnext : ∀ name base : List UInt8,
      ((nextFileHeader jtrBuild verbose name base 1).run loopRevisit).run.1 =
        (none, loopRevisit) := by
    cases verbose <;> exact fun _ _ => rfl
  have hloop : ∀ name base : List UInt8,
      ((loopFuel (nextFileHeader jtrBuild verbose name base 1) fuel).run
        ⟨⟨loopArchive, 20, false⟩, Bestsize.init, none, 0, fun _ => 0, 0, []⟩).run.1.1 = none := by
    intro name base
    cases fuel with
    | zero => rfl
    | succ k => rw [loopFuel_succ_of_none (hfirst name base), loopFuel_stuck (hnext name base)]
  exact ⟨rfl, hfirst name base, hnext name base,
    rar2john_eq_none [] (processHeaders_eq_none (hloop _ _))⟩

/-- A RAR3 archive of an unencrypted, empty file `a` whose `HEAD_SIZE` counts `pad` bytes
past its name, those bytes, and then an encrypted (0x04), not solid, not directory file `b`
with a salt (0x400) and 16 bytes of data, packed with method 0x33. -/
def paddedArchive (pad : Nat) : List UInt8 :=
  rar3Magic ++ [0xcf, 0x90, 0x73, 0, 0, 13, 0, 0, 0, 0, 0, 0, 0] ++
    [0x05, 0xf2, 0x74, 0x00, 0x80, (33 + pad).toUInt8, 0, 0, 0, 0, 0, 0, 0, 0, 0, 0, 0, 0, 0, 0,
      0, 0, 0, 0, 0x1d, 0x30, 0x01, 0x00, 0x20, 0, 0, 0, 0x61] ++ List.replicate pad 0 ++
    [0x24, 0x10, 0x74, 0x04, 0x84, 0x29, 0x00, 0x10, 0, 0, 0, 0x0a, 0, 0, 0, 0, 0, 0, 0, 0, 0, 0,
      0, 0, 0x1d, 0x33, 0x01, 0x00, 0x20, 0, 0, 0, 0x62, 1, 2, 3, 4, 5, 6, 7, 8] ++
    (List.range 16).map fun i => (0x80 + i).toUInt8

set_option maxRecDepth 4000 in
set_option smartUnfolding false in
/-- With `HEAD_SIZE` exact, the encrypted entry gets its record, one line; with four bytes
more, the walk reads the next header four bytes early, stops there, and nothing is
printed. -/
theorem oversized_head_size_hides_encrypted_entry (fuel : Nat) (verbose : Bool) :
    (rar2john jtrBuild (fun _ => some (paddedArchive 0)) (fuel + 10) (ascii "rar2john") verbose
        [ascii "h.rar"]).map (fun r => r.2.out.stdout.count 10) = some 1 ∧
      (rar2john jtrBuild (fun _ => some (paddedArchive 4)) (fuel + 10) (ascii "rar2john") verbose
        [ascii "h.rar"]).map (fun r => r.2.out.stdout) = some [] := by
  constructor
  · refine rar2john_map_add_fuel ?_ fuel
    cases verbose <;> decide
  · refine rar2john_map_add_fuel ?_ fuel
    cases verbose <;> decide

end Rar2John.Walk
