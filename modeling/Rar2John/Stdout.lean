import Rar2John.Main

/-!
# What goes to standard output

Two exceptions to records-on-stdout, diagnostics-on-stderr: the crypt-header diagnostics,
and the `-v` hexdump of packed names.
-/

namespace Rar2John.Stdout

open Rar5 Rar3

theorem cryptHeader_count_too_large {E : Env} {st : Rar5State} {ver flags lg2 : UInt8}
    {rest : List UInt8} (hdata : st.fp.data.drop st.fp.pos = ver :: flags :: lg2 :: rest)
    (hver : ver < 0x80) (hflags : flags < 0x80) (hcv : ver.toUInt64 ≤ E.cryptVersion)
    (hlg2 : crypt5KdfLg2CountMax < lg2) :
    ((cryptHeader E).run st).run.1.1 = none ∧
      ((cryptHeader E).run st).run.2 =
        Output.empty.printf (ascii "rar PBKDF2 iteration count too large\n") := by
  obtain ⟨h1, h2, h3⟩ := cryptHeader_field_reads hdata hver hflags
  simp only [cryptHeader, getVuint, getUint8, StateT.run_bind, OutM.run_bind, h1, h2, StateT.run_pure,
    OutM.run_pure, Nat.one_ne_zero, if_false, gt_iff_lt, UInt64.not_lt.2 hcv, setG,
    StateT.run_modify, h3, hlg2, if_true, Rar5.print, run_tell, Output.empty_append,
    Output.append_empty, and_self]

/-- A RAR5 archive of a crypt header with log2 count 25 and salt `0x10` to `0x1f`, and an
end-of-archive block. -/
def countTooLargeArchive : List UInt8 :=
  rar5Magic ++ [0x48, 0xa3, 0x55, 0x36, 0x15, 0x04, 0x00, 0x00, 0x00, 0x19] ++
    (List.range 16).map (fun i => (0x10 + i).toUInt8) ++
    [0x19, 0xb2, 0x3a, 0x35, 0x03, 0x05, 0x00, 0x00]

set_option smartUnfolding false in
/-- Without `-v`, all `rar2john` writes to standard output for `countTooLargeArchive` is
the diagnostic line. -/
theorem count_too_large_diagnostic_on_stdout (fuel : Nat) :
    (rar2john jtrBuild (fun _ => some countTooLargeArchive) (fuel + 10) (ascii "rar2john") false
        [ascii "k.rar"]).map (fun r => r.2.out.stdout) =
      some (ascii "rar PBKDF2 iteration count too large\n") :=
  rar2john_map_add_fuel (by decide) fuel

theorem decodeName_stdout (E : Env) (fileName : List UInt8) (n : Nat) (st : Rar3State) :
    ((decodeName E false fileName n).run st).run.1 = ((decodeName E true fileName n).run st).run.1 ∧
      ((decodeName E false fileName n).run st).run.2.stdout = [] ∧
      hexdump "! Encoded filenames" ((List.range n).map (fileNameByte fileName)) <+:
        ((decodeName E true fileName n).run st).run.2.stdout := by
  simp only [decodeName]
  generalize decodeFileName _ _ _ _ _ _ = fileNameW
  by_cases h : fileNameW[0]?.getD 0 = 0 <;> simp [h, Rar3.print, Rar3.eprint, List.prefix_append]

/-- A RAR3 archive of one unencrypted file header with flag 0x200 (packed name) and the
two-byte name `61 00`. -/
def unicodeNameArchive : List UInt8 :=
  rar3Magic ++ [0xcf, 0x90, 0x73, 0x00, 0x00, 0x0d, 0x00, 0x00, 0x00, 0x00, 0x00, 0x00, 0x00] ++
    [0xbe, 0x51, 0x74, 0x00, 0x82, 0x22, 0x00, 0x00, 0x00, 0x00, 0x00, 0x00, 0x00, 0x00, 0x00,
      0x00, 0x00, 0x00, 0x00, 0x00, 0x00, 0x00, 0x00, 0x00, 0x1d, 0x30, 0x02, 0x00, 0x20, 0x00,
      0x00, 0x00, 0x61, 0x00]

set_option maxRecDepth 4000 in
set_option smartUnfolding false in
/-- `rar2john -v` prints the packed name's hex dump on standard output, `rar2john` prints
nothing there. -/
theorem verbose_hexdump_on_stdout (fuel : Nat) :
    (rar2john jtrBuild (fun _ => some unicodeNameArchive) (fuel + 10) (ascii "rar2john") true
        [ascii "v.rar"]).map (fun r => r.2.out.stdout) =
      some (hexdump "! Encoded filenames" [0x61, 0x00]) ∧
    (rar2john jtrBuild (fun _ => some unicodeNameArchive) (fuel + 10) (ascii "rar2john") false
        [ascii "v.rar"]).map (fun r => r.2.out.stdout) = some [] :=
  ⟨rar2john_map_add_fuel (by decide) fuel, rar2john_map_add_fuel (by decide) fuel⟩

end Rar2John.Stdout
