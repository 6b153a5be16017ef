import Rar2John.Rar3.Select
import Rar2John.Rar3.FileName

/-!
# A RAR3 file header

The body of `process_file`'s loop after `next_file_header:` for an archive whose headers
are not encrypted: the fields of the 32-byte header, the optional high size words, the
name (decoded when packed), the `gecos` accumulator, the salt, the `EXT_TIME` area, the
three skips, the selector, and the record of a new incumbent with its ciphertext in hex.
-/

namespace Rar2John

/-- What the RAR3 part of `process_file` reads and changes. `gecos` is the
`LINE_BUFFER_SIZE` buffer, as byte at an offset; `bytes` holds what has been read into the
copy loop's 64 KiB array, whose other bytes nothing has written. -/
structure Rar3State where
  fp : Stream
  bestsize : Bestsize
  best : Option (List UInt8)
  bestLen : UInt64
  gecos : Nat → UInt8
  gecosLen : Int
  bytes : List UInt8

/-- The RAR3 part of `process_file`: it changes a `Rar3State` and writes output, which
nothing reads. -/
abbrev Rar3M := StateT Rar3State OutM

/-- Where `goto` leaves the header loop for: `BailOut:` or `err:`. -/
inductive Exit
  | bailOut
  | err
  deriving DecidableEq, Repr

namespace Rar3

def print (s : List UInt8) : Rar3M Unit := tell (Output.empty.printf s)

def eprint (s : List UInt8) : Rar3M Unit := tell (Output.empty.eprintf s)

/-- `fread` of `n` bytes: the bytes read. -/
def fread (n : Nat) : Rar3M (List UInt8) := modifyGet fun st =>
  let (got, fp) := st.fp.read n
  (got, { st with fp })

def seek (off : Int) (whence : Whence) : Rar3M Unit :=
  modify fun st => { st with fp := st.fp.seek off whence }

end Rar3

open Rar3

/-- Two bytes at `i` read as a little-endian `uint16_t`: `b[i + 1] << 8 | b[i]`. -/
def le16 (b : List UInt8) (i : Nat) : UInt16 :=
  ((b.getD (i + 1) 0).toUInt16 <<< 8) ||| (b.getD i 0).toUInt16

/-- Four bytes at `i` read as a little-endian 32-bit size, most significant first:
`n = b[i + 3]; n <<= 8; n += b[i + 2]; ...`. -/
def le32At (b : List UInt8) (i : Nat) : UInt64 :=
  let byte := fun k => (b.getD (i + k) 0).toUInt64
  ((byte 3 <<< 8 + byte 2) <<< 8 + byte 1) <<< 8 + byte 0

/-- `%d` of an `int`. -/
def decimalInt (x : Int) : List UInt8 :=
  if x < 0 then ascii "-" ++ decimal x.natAbs else decimal x.toNat

/-- `%x` of an `unsigned`: lowercase hexadecimal without leading zeros. -/
def hexNat (n : Nat) : List UInt8 := ascii (String.mk (Nat.toDigits 16 n))

/-- A `size_t` argument given an `int`. -/
def sizeT (x : Int) : Nat := (x % 2 ^ 64).toNat

/-- The C string in a buffer: the bytes before the first NUL. -/
def cstr (b : List UInt8) : List UInt8 := b.takeWhile (· ≠ 0)

/-- At most `n` bytes of the C string at `buf`, as `strncat` takes them. -/
def cstrTake (buf : Nat → UInt8) (n : Nat) : List UInt8 :=
  go 0 n
where
  go (i : Nat) : Nat → List UInt8
    | 0 => []
    | k + 1 => if buf i = 0 then [] else buf i :: go (i + 1) k

/-- `snprintf(&buf[off], size, "%s", s)`: at most `size - 1` bytes of `s` and a NUL,
nothing when `size` is 0. -/
def snprintfAt (buf : Nat → UInt8) (off size : Nat) (s : List UInt8) : Nat → UInt8 :=
  if size = 0 then buf
  else
    let w := s.take (size - 1) ++ [0]
    fun i => if off ≤ i ∧ i < off + w.length then w.getD (i - off) 0 else buf i

/-- `check_fread(buf_size, size, 1)`. -/
def checkFread (bufSize size : Nat) : Bool := decide (size ≤ bufSize)

/-- What `check_fread(buf_size, size, 1)` prints when it fails. -/
def checkFreadFailed (bufSize size : Nat) : List UInt8 :=
  ascii "Error: check_fread(buf_size=" ++ decimal bufSize ++ ascii ", size=" ++ decimal size ++
    ascii ", nmemb=1) failed, buf_size is smaller than size * nmemb.\n"

/-- `hexdump(msg, x, size)`, which prints with `printf`. -/
def hexdump (msg : String) (x : List UInt8) : List UInt8 :=
  ascii msg ++ ascii " : " ++
    (x.enum.flatMap fun (i, b) => hex2 b ++ if i % 4 = 3 then ascii " " else []) ++ ascii "\n"

/-- `"! %s: Error: read failed: %s.\n"`. -/
def readFailedBang (E : Env) (name : List UInt8) : List UInt8 :=
  ascii "! " ++ name ++ ascii ": Error: read failed: " ++ E.strerror ++ ascii ".\n"

/-- `"%s: Error: read failed: %s.\n"`. -/
def readFailed (E : Env) (name : List UInt8) : List UInt8 :=
  name ++ ascii ": Error: read failed: " ++ E.strerror ++ ascii ".\n"

/-- With flag 0x100, the high words of the packed and unpacked sizes follow the fixed
header; `none` is a `goto err`. -/
def highSizes (E : Env) (verbose : Bool) (archiveName : List UInt8) (pack unp : UInt64)
    (extTimeSize : Int) : Rar3M (Option (UInt64 × UInt64 × Int)) := do
  let failed := ascii "\n" ++ readFailedBang E archiveName
  let w1 ← fread 4
  if w1.length ≠ 4 then
    eprint failed
    return none
  if verbose then eprint (ascii "!  " ++ w1.flatMap fun b => ascii " " ++ hex2 b)
  let pack := pack + (le32At w1 0 <<< 32)
  let w2 ← fread 4
  if w2.length ≠ 4 then
    eprint failed
    return none
  if verbose then
    eprint ((w2.flatMap fun b => ascii " " ++ hex2 b) ++ ascii "   (High Pack/Unp extra header data)\n")
  let unp := unp + (le32At w2 0 <<< 32)
  if verbose then eprint (ascii "! HIGH_PACK_SIZE present\n! HIGH_UNP_SIZE present\n")
  return some (pack, unp, extTimeSize - 8)

/-- `file_name` is a zeroed buffer of `4 * PATH_BUF_SIZE` bytes; it is kept as the bytes
written into it, every other byte being 0. -/
def fileNameByte (fileName : List UInt8) (i : Nat) : UInt8 := fileName.getD i 0

/-- The bytes of `file_name` and, past its 1024 bytes, of the stack after it, as
`DecodeFileName` reads them. -/
def nameMemory (E : Env) (fileName : List UInt8) (i : Nat) : UInt8 :=
  if i < 4 * pathBufSize then fileNameByte fileName i else E.uninit i

/-- With flag 0x200 the name is packed: it is decoded into `FileNameW` and, unless that
comes out empty, converted back into `file_name`; the result is `file_name`. -/
def decodeName (E : Env) (verbose : Bool) (fileName : List UInt8) (fileNameSize : Nat) :
    Rar3M (List UInt8) := do
  let length := (cstr fileName).length
  if verbose then
    print (hexdump "! Encoded filenames" ((List.range fileNameSize).map (fileNameByte fileName)))
  let fileNameW := decodeFileName E.archLittleEndian (nameMemory E fileName) (length + 1)
    (4 * pathBufSize - length - 1).toUInt64
    ((List.range pathBufSize).map fun i => (E.uninit i).toUInt16) (2 * pathBufSize).toUInt64
  if fileNameW.getD 0 0 ≠ 0 then
    if verbose then
      print (hexdump "! UTF16 filename"
        (unitBytes E.archLittleEndian (fileNameW.take (strlen16 fileNameW))))
      eprint (ascii "OEM name:  " ++ cstr fileName ++ ascii "\n")
    let fileName := overlay (E.utf16ToUtf8 (fileNameW.takeWhile (· ≠ 0)) ++ [0]) fileName
    eprint (ascii "! Unicode:   " ++ cstr fileName ++ ascii "\n")
    return fileName
  else
    eprint (ascii "! UTF8 name: " ++ cstr fileName ++ ascii "\n")
    return fileName

/-- The file name and what follows it up to the skips: the name is read (and decoded with
flag 0x200), added to `gecos`, then the salt (flag 0x400) and the `EXT_TIME` area
(flag 0x1000) are read. The salt, or `none` for a `goto err`. -/
def nameSaltExtTime (E : Env) (verbose : Bool) (archiveName : List UInt8) (flags : UInt16)
    (blk : List UInt8) (extTimeSize : Int) : Rar3M (Option (List UInt8)) := do
  let fileNameSize := (le16 blk 26).toNat
  if verbose then
    eprint (ascii "! file name size: " ++ decimal fileNameSize ++ ascii " bytes\n")
  if !checkFread (4 * pathBufSize) fileNameSize then
    eprint (checkFreadFailed (4 * pathBufSize) fileNameSize)
    return none
  let got ← fread fileNameSize
  if fileNameSize = 0 ∨ got.length ≠ fileNameSize then
    eprint (readFailedBang E archiveName)
    return none
  let fileName := got.take (4 * pathBufSize - 1)
  let extTimeSize := extTimeSize - fileNameSize
  let fileName ← if flags &&& 0x200 ≠ 0 then decodeName E verbose fileName fileNameSize
    else do
      eprint (ascii "! file name: " ++ cstr fileName ++ ascii "\n")
      pure fileName
  -- the name goes to the GECOS field
  let st ← get
  let name := cstr fileName
  if st.gecosLen + name.length < E.lineBufferSize then
    set { st with
      gecos := snprintfAt st.gecos st.gecosLen.toNat (sizeT (E.lineBufferSize - st.gecosLen - 1))
        (name ++ ascii " ")
      gecosLen := st.gecosLen + (name.length + 1 : Nat) }
  let mut salt := List.replicate 8 0
  let mut extTimeSize := extTimeSize
  if flags &&& 0x400 ≠ 0 then
    extTimeSize := extTimeSize - 8
    let got ← fread 8
    if got.length ≠ 8 then
      eprint (readFailedBang E archiveName)
      return none
    salt := got
  if flags &&& 0x1000 ≠ 0 then
    if verbose then
      eprint (ascii "! EXT_TIME present with size " ++ decimalInt extTimeSize ++ ascii "\n")
    if !checkFread 32 (sizeT extTimeSize) then
      eprint (checkFreadFailed 32 (sizeT extTimeSize))
      return none
    let got ← fread (sizeT extTimeSize)
    if extTimeSize = 0 ∨ got.length ≠ sizeT extTimeSize then
      eprint (readFailedBang E archiveName)
      return none
  return some salt

/-- The ciphertext copy loop, for at most `fuel` chunks of 64 KiB: each chunk is read into
`bytes` and `to_read` bytes of `bytes` are written in hex, whether or not `fread` got them
all. The iterations of `for (i = 0; i < file_hdr_pack_size; i++)` after `bytes_left`
reaches 0 read and write nothing, so the loop is run until then. -/
def copyLoop (E : Env) : Nat → UInt64 → Rar3M (List UInt8)
  | 0, _ => pure []
  | fuel + 1, bytesLeft =>
    if bytesLeft = 0 then pure [] else do
    let toRead := if bytesLeft < 65536 then bytesLeft.toNat else 65536
    let got ← fread toRead
    modify fun st => { st with bytes := overlay got st.bytes }
    if got.length ≠ toRead then
      eprint (ascii "! Error while reading archive: " ++ E.strerror ++ ascii "\n")
    let bytes := (← get).bytes
    let rest ← copyLoop E fuel (bytesLeft - toRead.toUInt64)
    pure (hex ((List.range toRead).map fun x => bytes.getD x (E.uninit x)) ++ rest)

/-- The record of a new incumbent, into `best`: the salt, the CRC, the sizes, the
ciphertext in hex and the method. `best_len` counts the ciphertext's `PACK_SIZE`, not the
`2 PACK_SIZE` hex digits written. -/
def formatRecord (E : Env) (verbose : Bool) (base : List UInt8) (flags : UInt16)
    (blk salt : List UInt8) (pack unp : UInt64) (method : UInt8) : Rar3M Unit := do
  let r := base ++ ascii ":$RAR3$*1*" ++ hex salt
  if verbose then eprint (ascii "! salt: '" ++ r ++ ascii "'\n")
  let r := r ++ ascii "*" ++ hex ((blk.drop 16).take 4)
  if verbose then
    let v := blk.getD 24 0
    eprint (ascii "! UNP_VER is " ++ decimal (v.toNat / 10) ++ ascii "." ++ decimal (v.toNat % 10) ++
      ascii "\n")
    eprint (ascii "! METHOD is m" ++ hexNat ((method.toNat + 2 ^ 32 - 0x30) % 2 ^ 32) ++
      [(97 : UInt8) + ((flags &&& 0xe0) >>> 5).toUInt8] ++ ascii "\n")
  let r := r ++ ascii "*" ++ decimal pack.toNat ++ ascii "*" ++ decimal unp.toNat ++ ascii "*" ++
    ascii "1*"
  let cipher ← copyLoop E (pack.toNat / 65536 + 1) pack
  let suffix := ascii "*" ++ hex2 method ++ ascii ":1::"
  modify fun st => { st with
    best := some (r ++ cipher ++ suffix)
    bestLen := r.length.toUInt64 + pack + suffix.length.toUInt64 }

/-- The rest of a file header, after the 32 bytes and the type checks: `none` to go back to
`next_file_header`, `some e` to jump to `e`. -/
def fileEntry (E : Env) (verbose : Bool) (archiveName base : List UInt8) (blk : List UInt8) :
    Rar3M (Option Exit) := do
  let flags := le16 blk 3
  if flags &&& 0x8000 = 0 then
    eprint (ascii "File header flag 0x8000 unset, bailing out.\n")
    return some .bailOut
  let headSize := le16 blk 5
  let pack := le32At blk 7
  let unp := le32At blk 11
  if verbose then
    eprint (ascii "! HEAD_SIZE: " ++ decimal headSize.toNat ++ ascii ", PACK_SIZE: " ++
      decimal pack.toNat ++ ascii ", UNP_SIZE: " ++ decimal unp.toNat ++ ascii "\n")
    eprint (ascii "! file_hdr_block:\n!  " ++ (blk.flatMap fun b => ascii " " ++ hex2 b) ++
      ascii "\n")
  let extTimeSize : Int := headSize.toNat - 32
  let some (pack, unp, extTimeSize) ← (if flags &&& 0x100 ≠ 0 then
      highSizes E verbose archiveName pack unp extTimeSize
    else pure (some (pack, unp, extTimeSize))) | return some .err
  let some salt ← nameSaltExtTime E verbose archiveName flags blk extTimeSize | return some .err
  let skip := do
    seek (offT pack) .cur
    return none
  if flags &&& 0x10 ≠ 0 then
    eprint (ascii "! Solid, can't handle (currently)\n")
    skip
  else if (flags &&& 0xe0) >>> 5 = 7 then
    if verbose then eprint (ascii "! Is a directory, skipping\n")
    skip
  else
    if verbose then
      eprint (ascii "! Dictionary size: " ++ decimal (64 <<< ((flags &&& 0xe0) >>> 5).toNat) ++
        ascii " KB\n")
    if flags &&& 0x04 = 0 then
      eprint (ascii "! not encrypted, skipping\n")
      skip
    else
      let method := blk.getD 25 0
      if betterCandidateAlready (← get).bestsize pack unp method then
        if verbose then eprint (ascii "! We got a better candidate already, skipping\n")
        skip
      else
        if verbose then eprint (ascii "! This is best candidate so far\n")
        modify fun st => { st with bestsize := ⟨pack, unp, method⟩ }
        formatRecord E verbose base flags blk salt pack unp method
        return none

end Rar2John
