import Rar2John.Stdio

/-!
# Constants and collaborators

rar2john.c includes rar2john.h, params.h, unicode.h, base64_convert.h and sha2.h, none of
which is among the sources. The constants whose values the spec states are fixed here
under the source's names; the others, and the library functions the spec calls external
collaborators, are the fields of `Env`, over which every result is stated.
-/

namespace Rar2John

/-- `RAR_OLD_MAGIC`. -/
def rarOldMagic : List UInt8 := [0x52, 0x45, 0x7e, 0x5e]

/-- `RAR3_MAGIC`. -/
def rar3Magic : List UInt8 := [0x52, 0x61, 0x72, 0x21, 0x1a, 0x07, 0x00]

/-- `RAR5_MAGIC`. -/
def rar5Magic : List UInt8 := [0x52, 0x61, 0x72, 0x21, 0x1a, 0x07, 0x01, 0x00]

/-- `CHUNK_SIZE`, the SFX scan's window. -/
def chunkSize : Nat := 4096

/-- `PATH_BUF_SIZE`. -/
def pathBufSize : Nat := 256

/-- Modelled from the spec: the RAR5 header type main (1), `HEAD_MAIN`. -/
def headMain : UInt8 := 1

/-- Modelled from the spec: the RAR5 header type file (2), `HEAD_FILE`. -/
def headFile : UInt8 := 2

/-- Modelled from the spec: the RAR5 header type service (3), `HEAD_SERVICE`. -/
def headService : UInt8 := 3

/-- Modelled from the spec: the RAR5 header type crypt (4), `HEAD_CRYPT`. -/
def headCrypt : UInt8 := 4

/-- Modelled from the spec: the RAR5 header type end-of-archive (5), `HEAD_ENDARC`. -/
def headEndarc : UInt8 := 5

/-- Modelled from the spec: header flag 0x01, an extra area size follows (`HFL_EXTRA`). -/
def hflExtra : UInt64 := 0x01

/-- Modelled from the spec: header flag 0x02, a data size follows (`HFL_DATA`). -/
def hflData : UInt64 := 0x02

/-- Modelled from the spec: the extra record type `crypt` (1), `FHEXTRA_CRYPT`. -/
def fhextraCrypt : UInt64 := 1

/-- Modelled from the spec: the password-check flag (0x01) of a crypt extra record,
`FHEXTRA_CRYPT_PSWCHECK`. -/
def fhextraCryptPswcheck : UInt64 := 0x01

/-- Modelled from the spec: the largest log2 of the iteration count, 24,
`CRYPT5_KDF_LG2_COUNT_MAX`. -/
def crypt5KdfLg2CountMax : UInt8 := 24

/-- Modelled from the spec: the 16-byte salt, `SIZE_SALT50`. -/
def sizeSalt50 : Nat := 16

/-- Modelled from the spec: the 16-byte IV, `SIZE_INITV`. -/
def sizeInitv : Nat := 16

/-- Modelled from the spec: the 4-byte checksum of the password check,
`SIZE_PSWCHECK_CSUM`. -/
def sizePswcheckCsum : Nat := 4

/-- What the program takes from files that are not among the sources: the constants whose
values the spec does not give, and the library functions it calls. -/
structure Env where
  /-- `CRYPT_VERSION`, the largest crypt version accepted. -/
  cryptVersion : UInt64
  /-- `CHFL_CRYPT_PSWCHECK`, the crypt header's password-check flag. -/
  chflCryptPswcheck : UInt64
  /-- `MHFL_VOLNUMBER`, the main header's volume-number flag. -/
  mhflVolnumber : UInt64
  /-- `FHFL_UTIME`, the file header's modification-time flag. -/
  fhflUtime : UInt64
  /-- `FHFL_CRC32`, the file header's CRC32 flag. -/
  fhflCrc32 : UInt64
  /-- `SIZE_PSWCHECK`, the length of a password check. -/
  sizePswcheck : Nat
  /-- `LINE_BUFFER_SIZE`. -/
  lineBufferSize : Nat
  /-- `PATH_BUFFER_SIZE`. -/
  pathBufferSize : Nat
  /-- `ARCH_LITTLE_ENDIAN`. -/
  archLittleEndian : Bool
  /-- `base64_convert_cp(src, e_b64_raw, len, dst, e_b64_hex, ...)`: the text of a byte string. -/
  base64ConvertCp : List UInt8 → List UInt8
  /-- `SHA256_Init`, `SHA256_Update`, `SHA256_Final`: the digest of a byte string. -/
  sha256 : List UInt8 → List UInt8
  /-- `utf16_to_utf8_r(dst, PATH_BUF_SIZE, src)`: the bytes written before the final NUL. -/
  utf16ToUtf8 : List UInt16 → List UInt8
  /-- `basename`. -/
  basename : List UInt8 → List UInt8
  /-- `strerror(errno)`. -/
  strerror : List UInt8
  /-- The contents of an automatic array before anything is written to it. -/
  uninit : Nat → UInt8

/-- An automatic array of `n` bytes that nothing has written yet. -/
def Env.stackBuf (E : Env) (n : Nat) : List UInt8 := (List.range n).map E.uninit

@[simp] theorem Env.length_stackBuf (E : Env) (n : Nat) : (E.stackBuf n).length = n := by
  simp [Env.stackBuf]

end Rar2John
