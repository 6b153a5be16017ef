import Rar2John.Rar5.Read

/-!
# `ProcessExtra50` and `read_rar5_header`

`readRar5Header` reads one block header at the current position and returns where the
next block starts, `CurBlockPos + HeadSize + data_size` in 64-bit arithmetic, or 0 to end
the block loop. Both functions print a `$rar5$` record (`rar5Record`): a file or service
block for its crypt extra record, and the block after a crypt header for the archive.
-/

namespace Rar2John

open Rar5

/-- The line `printf("%s:$rar5$%d$%s$%d$%s$%d$%s\n", ...)` prints, for a salt, a log2 of
the iteration count, an IV and a password check. -/
def rar5Record (E : Env) (base salt : List UInt8) (lg2Count : Nat) (initV pswCheck : List UInt8) :
    List UInt8 :=
  base ++ ascii ":$rar5$" ++ decimal sizeSalt50 ++ ascii "$" ++ E.base64ConvertCp salt ++
    ascii "$" ++ decimal lg2Count ++ ascii "$" ++ E.base64ConvertCp initV ++ ascii "$" ++
    decimal E.sizePswcheck ++ ascii "$" ++ E.base64ConvertCp pswCheck ++ ascii "\n"

/-- The body of `ProcessExtra50` after `FieldType` was read, for a file or service block:
a crypt record with the password-check flag and a small enough iteration count is read
into `rar5_salt`, `InitV` and `PswCheck` and printed. Every path returns 0. -/
def cryptRecord (E : Env) (name : List UInt8) : Rar5M Nat := do
  let some _encVersion ← getVuint | return 0
  let some flags ← getVuint | return 0
  if flags &&& fhextraCryptPswcheck = 0 then
    eprint (ascii "UsePswCheck is OFF. We currently don't support such files!\n")
    return 0
  let some lg2Count ← getUint8 | return 0
  if lg2Count ≥ crypt5KdfLg2CountMax then
    eprint (ascii "Lg2Count >= CRYPT5_KDF_LG2_COUNT_MAX (problem with file?)")
    return 0
  let (r, salt) ← readBuf (← get).g.rar5Salt sizeSalt50
  setG fun g => { g with rar5Salt := salt }
  if r = 0 then return 0
  let (r, initV) ← readBuf (E.stackBuf sizeInitv) sizeInitv
  if r = 0 then return 0
  let (r, pswCheck) ← readBuf (← get).g.pswCheck E.sizePswcheck
  setG fun g => { g with pswCheck }
  if r = 0 then return 0
  incFound
  print (rar5Record E (E.basename name) salt lg2Count.toNat initV pswCheck)
  return 0

/-- The `while (1)` loop of `ProcessExtra50`, for at most `fuel` records, `bytes_left`
being `bytesLeft`. A record's size and type are read; the size, and the width of its
varint, come off `bytes_left`; a crypt record ends the loop. Nothing skips the body of
any other record. -/
def processExtra50Loop (E : Env) (name : List UInt8) (headerType : UInt8) :
    Nat → Int → Rar5M Nat
  | 0, _ => pure 0
  | fuel + 1, bytesLeft => do
    let (len, fieldSize) ← readVuint
    if len = 0 ∨ 3 < len then return 0
    let bytesLeft := toInt32 (bytesLeft - len)
    let bytesLeft := toInt32 (bytesLeft - (fieldSize.toNat % 2 ^ 32 : Nat))
    if bytesLeft < 0 then return 0
    let some fieldType ← getVuint | return 0
    if (headerType = headFile ∨ headerType = headService) ∧ fieldType = fhextraCrypt then
      cryptRecord E name
    else
      processExtra50Loop E name headerType fuel bytesLeft

/-- `ProcessExtra50`, with its own `bytes_read` counter. Every record read takes at least
one byte of the file, so one pass of the loop per byte left is more than it can run. -/
def processExtra50 (E : Env) (name : List UInt8) (extraSize : UInt64) (headerType : UInt8) :
    Rar5M Nat := do
  let st ← get
  set { st with bytesRead := 0 }
  let r ← processExtra50Loop E name headerType (st.fp.data.length - st.fp.pos + 1)
    (toInt32 extraSize.toNat)
  modify fun st' => { st' with bytesRead := st.bytesRead }
  pure r

/-- The `HEAD_CRYPT` branch of `read_rar5_header`: the crypt version and the iteration
count are checked, the salt, and with the password-check flag the check value and its
checksum, are read into the globals, and `Encrypted` is set. `none` is a `return 0`. -/
def cryptHeader (E : Env) : Rar5M (Option Unit) := do
  let some cryptVersion ← getVuint | return none
  if cryptVersion > E.cryptVersion then
    print (ascii "bad rar crypt version byte\n")
    return none
  let some encFlags ← getVuint | return none
  setG fun g => { g with usePswCheck := encFlags &&& E.chflCryptPswcheck ≠ 0 }
  let some lg2Count ← getUint8 | return none
  if lg2Count > crypt5KdfLg2CountMax then
    print (ascii "rar PBKDF2 iteration count too large\n")
    return none
  setG fun g => { g with rar5Interations := lg2Count.toUInt32 }
  let (r, salt) ← readBuf (← get).g.rar5Salt sizeSalt50
  setG fun g => { g with rar5Salt := salt }
  if r = 0 then return none
  if (← get).g.usePswCheck then
    let (r, pswCheck) ← readBuf (← get).g.pswCheck E.sizePswcheck
    setG fun g => { g with pswCheck }
    if r = 0 then return none
    let (r, chksum) ← readBuf (E.stackBuf sizePswcheckCsum) sizePswcheckCsum
    if r = 0 then return none
    setG fun g => { g with usePswCheck := (E.sha256 pswCheck).take sizePswcheckCsum == chksum }
  setG fun g => { g with encrypted := true }
  return some ()

theorem cryptHeader_field_reads {st : Rar5State} {ver flags lg2 : UInt8} {rest : List UInt8}
    (hdata : st.fp.data.drop st.fp.pos = ver :: flags :: lg2 :: rest) (hver : ver < 0x80)
    (hflags : flags < 0x80) :
    ((readVuint).run st).run = (((1, ver.toUInt64),
      ⟨⟨st.fp.data, st.fp.pos + 1, st.fp.eof⟩, st.g, st.found, st.bytesRead + 1⟩), ∅) ∧
    ((readVuint).run ⟨⟨st.fp.data, st.fp.pos + 1, st.fp.eof⟩, st.g, st.found, st.bytesRead + 1⟩).run =
      (((1, flags.toUInt64),
        ⟨⟨st.fp.data, st.fp.pos + 1 + 1, st.fp.eof⟩, st.g, st.found, st.bytesRead + 1 + 1⟩), ∅) ∧
    ∀ g : Globals, ((readUint8).run
      ⟨⟨st.fp.data, st.fp.pos + 1 + 1, st.fp.eof⟩, g, st.found, st.bytesRead + 1 + 1⟩).run =
      (((1, lg2), ⟨⟨st.fp.data, st.fp.pos + 1 + 1 + 1, st.fp.eof⟩, g, st.found,
        st.bytesRead + 1 + 1 + 1⟩), ∅) :=
  ⟨readVuint_run_of_lt hdata hver,
    readVuint_run_of_lt (show st.fp.data.drop (st.fp.pos + 1) = flags :: lg2 :: rest by
      rw [← List.drop_drop, hdata]; rfl) hflags,
    fun _ => readUint8_run (show st.fp.data.drop (st.fp.pos + 1 + 1) = lg2 :: rest by
      rw [← List.drop_drop, ← List.drop_drop, hdata]; rfl)⟩

/-- The file and service branch of `read_rar5_header`: the fixed fields are read, the
name skipped, and a non-empty extra area handed to `ProcessExtra50`, whose result is
ignored. -/
def fileHeader (E : Env) (name : List UInt8) (extraSize : UInt64) (headerType : UInt8) :
    Rar5M (Option Unit) := do
  let some fileFlags ← getVuint | return none
  let some _unpSize ← getVuint | return none
  let some _fileAttr ← getVuint | return none
  if fileFlags &&& E.fhflUtime ≠ 0 then
    if (← getUint32).isNone then return none
  if fileFlags &&& E.fhflCrc32 ≠ 0 then
    if (← getUint32).isNone then return none
  let some _compInfo ← getVuint | return none
  let some _hostOs ← getVuint | return none
  let some nameSize ← getVuint | return none
  seek (offT nameSize) .cur
  if extraSize ≠ 0 then
    discard <| processExtra50 E name extraSize headerType
  return some ()

/-- The part of `read_rar5_header` that depends on the block's type: a crypt header, the
main header's volume number, or a file or service header is read; `false` for a
`return 0`, which an end-of-archive block also takes. -/
def readHeaderType (E : Env) (name : List UInt8) (headerType : UInt8) (extraSize : UInt64) :
    Rar5M Bool := do
  if headerType = headCrypt then
    return (← cryptHeader E).isSome
  else if headerType = headMain then
    let some arcFlags ← getVuint | return false
    if arcFlags &&& E.mhflVolnumber ≠ 0 then
      return (← getVuint).isSome
    return true
  else if headerType = headFile ∨ headerType = headService then
    return (← fileHeader E name extraSize headerType).isSome
  else
    return headerType ≠ headEndarc

/-- `read_rar5_header`, with its own `header_bytes_read` counter. After a crypt header
(`Encrypted`) the next 16 bytes are taken for the IV of the encrypted headers and the
archive's record is printed; otherwise the block header is read and dispatched on its
type. -/
def readRar5HeaderBody (E : Env) (name : List UInt8) (curBlockPos : UInt64) : Rar5M UInt64 := do
  if (← get).g.encrypted then
    let (sizeofVint, headersInitV) ← readBuf (E.stackBuf sizeInitv) sizeInitv
    if sizeofVint ≠ sizeInitv then
      eprint (ascii "Error, rar file " ++ name ++ ascii " too short, could not read IV from header\n")
      return 0
    incFound
    let g := (← get).g
    print (rar5Record E (E.basename name) g.rar5Salt g.rar5Interations.toNat headersInitV g.pswCheck)
    return 0
  let some _headCrc ← getUint32 | return 0
  let (sizeofVint, blockSize) ← readVuint
  if sizeofVint = 0 then return 0
  let headSize := blockSize + 4 + sizeofVint.toUInt64
  let some headerType ← getUint8 | return 0
  let some flags ← getVuint | return 0
  let some extraSize ← getVuintIf (flags &&& hflExtra ≠ 0) | return 0
  let some dataSize ← getVuintIf (flags &&& hflData ≠ 0) | return 0
  if ← readHeaderType E name headerType extraSize then
    return curBlockPos + headSize + dataSize
  else
    return 0

/-- `read_rar5_header`: the body, with a fresh `header_bytes_read`. -/
def readRar5Header (E : Env) (name : List UInt8) (curBlockPos : UInt64) : Rar5M UInt64 := do
  let st ← get
  set { st with bytesRead := 0 }
  let r ← readRar5HeaderBody E name curBlockPos
  modify fun st' => { st' with bytesRead := st.bytesRead }
  pure r

end Rar2John
