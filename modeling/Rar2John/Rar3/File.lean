import Rar2John.Rar5.File
import Rar2John.Rar3.Entry

/-!
# `process_file`

The dispatcher every archive goes through: the marker block decides between a pre-1.50
archive, a RAR3 archive, a RAR3 or RAR5 self-extractor and a RAR5 archive. A RAR3 archive
has its archive header checked and its file headers walked from `next_file_header:`; the
walk ends at `BailOut:`, which prints the incumbent's record, or at `err:`. Every path
but one leaves through `err:`, which closes the archive. The walk can run forever, so it
takes fuel, and `processFile` is `none` when the fuel runs out.
-/

namespace Rar2John

open Rar3

/-- The `-hp` record (`type` 0): the salt and the block of known plaintext, both read from
the last 24 bytes of the archive. The record's prefix is printed before the read. -/
def hpRecord (E : Env) (verbose : Bool) (archiveName base : List UInt8) : Rar3M Unit := do
  if verbose then eprint (ascii "! -hp mode entry found in " ++ base ++ ascii "\n")
  print (base ++ ascii ":$RAR3$*0*")
  seek (-24) .end_
  let buf ← fread 24
  if buf.length ≠ 24 then
    eprint (readFailed E archiveName)
  else
    print (hex (buf.take 8) ++ ascii "*" ++ hex (buf.drop 8) ++ ascii ":0::::" ++ archiveName ++
      ascii "\n")

/-- One pass from `next_file_header:`: `none` to come back, `some e` to jump to `e`. A
service block (0x7a) is processed like a file block. -/
def nextFileHeader (E : Env) (verbose : Bool) (archiveName base : List UInt8) (type : Nat) :
    Rar3M (Option Exit) := do
  if verbose then eprint (ascii "\n")
  let blk ← fread 32
  if (← get).fp.eof then
    if verbose then eprint (ascii "! " ++ archiveName ++ ascii ": End of file\n")
    return some .bailOut
  if blk.length ≠ 32 then
    eprint (readFailed E archiveName)
    return some .err
  if type = 1 ∧ blk.getD 2 0 = 0x7a then
    if verbose then eprint (ascii "! " ++ archiveName ++ ascii ": Comment block present?\n")
  else if type = 1 ∧ blk.getD 2 0 ≠ 0x74 then
    eprint (ascii "! " ++ archiveName ++ ascii ": Not recognising any more headers.\n")
    return some .bailOut
  if type = 0 then
    hpRecord E verbose archiveName base
    return some .err
  fileEntry E verbose archiveName base blk

/-- `BailOut:`: the incumbent's record, with the `gecos` names appended by `strncat`, on
one line, or a note that there is none. -/
def bailOut (E : Env) (verbose : Bool) (base : List UInt8) : Rar3M Unit := do
  let st ← get
  match st.best with
  | some best =>
    if best.headD 0 ≠ 0 then
      if verbose then eprint (ascii "! Found a valid -p mode candidate in " ++ base ++ ascii "\n")
      if st.bestsize.unp < (if st.bestsize.method > 0x30 then 5 else 1) then
        eprint (ascii "! WARNING best candidate found is too small, you may see false positives.\n")
      let n := (E.lineBufferSize.toUInt64 - st.bestLen - 1).toNat
      print (best ++ cstrTake st.gecos n ++ ascii "\n")
      return
  | none => pure ()
  eprint (ascii "! Did not find a valid encrypted candidate in " ++ base ++ ascii "\n")

/-- `process_file` from `next_file_header:` on, with `bestsize`, `best` and `gecos` as they
start, `fp` standing on the first file header: the walk, for at most `fuel` headers, then
`BailOut:` or `err:`. -/
def processHeaders (E : Env) (fuel : Nat) (verbose : Bool) (name base : List UInt8) (w : World)
    (type : Nat) (fp : Stream) : Option World :=
  match ((loopFuel (nextFileHeader E verbose name base type) fuel).run
      ⟨fp, Bestsize.init, none, 0, fun _ => 0, 0, []⟩).run with
  | ((none, _), _) => none
  | ((some .err, _), out) => some { w with out := w.out ++ out }.fclose
  | ((some .bailOut, st), out) =>
    some { w with out := w.out ++ out ++ ((bailOut E verbose base).run st).run.2 }.fclose

theorem processHeaders_of_le_fuel {E : Env} {k k' : Nat} {verbose : Bool}
    {name base : List UInt8} {w w' : World} {type : Nat} {fp : Stream}
    (h : processHeaders E k verbose name base w type fp = some w') (hk : k ≤ k') :
    processHeaders E k' verbose name base w type fp = some w' := by
  unfold processHeaders at h ⊢
  split at h
  · cases h
  all_goals
    rename_i heq
    rw [loopFuel_of_le_fuel (by simp [heq]) hk, heq]
    exact h

/-- `process_file` from the archive header on, `fp` standing after the marker block. -/
def processRar3 (E : Env) (fuel : Nat) (verbose : Bool) (name base : List UInt8) (w : World)
    (fp : Stream) : Option World :=
  let (hdr, fp) := fp.read 13
  if hdr.length < 13 then some ((w.eprintf (readFailed E name)).fclose)
  else if hdr.getD 2 0 ≠ 0x73 then
    some ((w.eprintf (name ++ ascii ": Error: archive_hdr_block[2] must be 0x73.\n")).fclose)
  else
    let type := if le16 hdr 3 &&& 0x80 ≠ 0 then 0 else 1
    let headSize := le16 hdr 5
    let fp := if headSize > 13 then fp.seek (headSize.toNat - 13 : Nat) .cur else fp
    processHeaders E fuel verbose name base w type fp

theorem processRar3_of_le_fuel {E : Env} {k k' : Nat} {verbose : Bool} {name base : List UInt8}
    {w w' : World} {fp : Stream} (h : processRar3 E k verbose name base w fp = some w')
    (hk : k ≤ k') : processRar3 E k' verbose name base w fp = some w' := by
  unfold processRar3 at h ⊢
  simp only at h ⊢
  split_ifs at h ⊢
  · exact h
  · exact h
  all_goals exact processHeaders_of_le_fuel h hk

/-- `process_file`: `none` when a walk over the headers, RAR3 or RAR5, has not ended
within `fuel` headers. -/
def processFile (E : Env) (fs : FileSystem) (fuel : Nat) (verbose : Bool) (name : List UInt8)
    (w : World) : Option World :=
  let base := E.basename (name.take (E.pathBufferSize - 1))
  match fs name with
  | none => some (w.eprintf (openFailed E name))
  | some data =>
    let w := w.fopen
    let (marker, fp) := (Stream.ofData data).read rar3Magic.length
    if marker.length < rar3Magic.length then some ((w.eprintf (notARarFile name)).fclose)
    else if marker.take rarOldMagic.length = rarOldMagic then
      some ((w.eprintf (ascii "! " ++ name ++
        ascii ": Too old RAR file version (pre 1.50), not supported.\n")).fclose)
    else if marker ≠ rar3Magic then
      if marker.take 2 = ascii "MZ" then
        match sfxScan rar3Magic fp with
        | none => none
        | some (found, fp) =>
          if found then processRar3 E fuel verbose name base w fp
          else
            match processFile5 E fs fuel name w with
            | none => none
            | some (true, w) => some w
            | some (false, w) => some w.fclose
      else (processFile5 E fs fuel name w.fclose).map Prod.snd
    else processRar3 E fuel verbose name base w fp

theorem processFile_of_le_fuel {E : Env} {fs : FileSystem} {k k' : Nat} {verbose : Bool}
    {name : List UInt8} {w w' : World} (h : processFile E fs k verbose name w = some w')
    (hk : k ≤ k') : processFile E fs k' verbose name w = some w' := by
  unfold processFile at h ⊢
  rcases hfs : fs name with _ | data
  · simpa [hfs] using h
  simp only [hfs] at h ⊢
  split_ifs at h ⊢
  · exact h
  · exact h
  · split at h
    · cases h
    split_ifs at h ⊢
    · exact processRar3_of_le_fuel h hk
    · rcases h5 : processFile5 E fs k name w.fopen with _ | r
      · simp [h5] at h
      · simpa [processFile5_of_le_fuel h5 hk, h5] using h
  · obtain ⟨r, hr, rfl⟩ := Option.map_eq_some'.1 h
    rw [processFile5_of_le_fuel hr hk]
    rfl
  · exact processRar3_of_le_fuel h hk

end Rar2John
