import Rar2John.Sfx

/-!
# Reading RAR5 headers

The globals of the RAR5 code, the state its functions thread, and the four readers
`read_uint32`, `read_uint8`, `read_buf` and `read_vuint`. Each reader returns what the C
function returns (the count of bytes, or 0 on a failed read) with the value it stores
through its pointer argument, and adds the count to the running function's `bytes_read`.
-/

namespace Rar2John

/-- The globals `Encrypted`, `PswCheck`, `rar5_interations`, `UsePswCheck` and
`rar5_salt`. -/
structure Globals where
  encrypted : Bool
  pswCheck : List UInt8
  rar5Interations : UInt32
  usePswCheck : Bool
  rar5Salt : List UInt8
  deriving DecidableEq, Repr

/-- The globals at program start: static storage is zero. -/
def Globals.init (E : Env) : Globals :=
  ⟨false, List.replicate E.sizePswcheck 0, 0, false, List.replicate sizeSalt50 0⟩

/-- What the RAR5 functions read and change: the archive stream, the globals, `*found`,
and the `bytes_read` counter of the function running. -/
structure Rar5State where
  fp : Stream
  g : Globals
  found : Nat
  bytesRead : UInt32

/-- The RAR5 functions: they change a `Rar5State` and write output, which nothing reads. -/
abbrev Rar5M := StateT Rar5State OutM

namespace Rar5

/-- `printf` from the RAR5 code. -/
def print (s : List UInt8) : Rar5M Unit := tell (Output.empty.printf s)

/-- `fprintf(stderr, ...)` from the RAR5 code. -/
def eprint (s : List UInt8) : Rar5M Unit := tell (Output.empty.eprintf s)

/-- An assignment to the globals. -/
def setG (f : Globals → Globals) : Rar5M Unit := modify fun st => { st with g := f st.g }

/-- `(*found)++`. -/
def incFound : Rar5M Unit := modify fun st => { st with found := st.found + 1 }

/-- `jtr_fseek64(fp, off, whence)`. -/
def seek (off : Int) (whence : Whence) : Rar5M Unit :=
  modify fun st => { st with fp := st.fp.seek off whence }

end Rar5

/-- Four bytes read as a little-endian `uint32_t`. -/
def le32 (b : List UInt8) : UInt32 :=
  (b.getD 0 0).toUInt32 + ((b.getD 1 0).toUInt32 <<< 8) + ((b.getD 2 0).toUInt32 <<< 16) +
    ((b.getD 3 0).toUInt32 <<< 24)

/-- `read_uint32`: four bytes, little-endian; 4, or 0 with `*n = 0` when fewer are left. -/
def readUint32 : Rar5M (Nat × UInt32) := modifyGet fun st =>
  let (buf, fp) := st.fp.read 4
  if buf.length < 4 then ((0, 0), { st with fp })
  else ((4, le32 buf), { st with fp, bytesRead := st.bytesRead + 4 })

/-- `read_uint8`: one byte; 1, or 0 when none is left (every caller then returns at once,
so the value stored is never read). -/
def readUint8 : Rar5M (Nat × UInt8) := modifyGet fun st =>
  let (buf, fp) := st.fp.read 1
  match buf with
  | [b] => ((1, b), { st with fp, bytesRead := st.bytesRead + 1 })
  | _ => ((0, 0), { st with fp })

theorem readUint8_run {st : Rar5State} {c : UInt8} {rest : List UInt8}
    (hdata : st.fp.data.drop st.fp.pos = c :: rest) :
    ((readUint8).run st).run =
      (((1, c), { st with
        fp := { st.fp with pos := st.fp.pos + 1 }, bytesRead := st.bytesRead + 1 }), ∅) := by
  simp only [readUint8, StateT.run_modifyGet, OutM.run_pure, Stream.read, hdata]
  simp

/-- `read_buf` into a buffer holding `buf`: 0 when no byte is left, and otherwise `len`,
even when fewer than `len` bytes were read; the buffer keeps what it held past them. -/
def readBuf (buf : List UInt8) (len : Nat) : Rar5M (Nat × List UInt8) := modifyGet fun st =>
  let (got, fp) := st.fp.read len
  if got.length < 1 then ((0, overlay got buf), { st with fp })
  else ((len, overlay got buf), { st with fp, bytesRead := st.bytesRead + len.toUInt32 })

theorem readBuf_run {buf : List UInt8} {n : Nat} {st : Rar5State} (hn : 0 < n)
    (h : st.fp.pos + n ≤ st.fp.data.length) :
    ((readBuf buf n).run st).run =
      (((n, overlay ((st.fp.data.drop st.fp.pos).take n) buf),
        { st with fp := (st.fp.read n).2, bytesRead := st.bytesRead + n.toUInt32 }), ∅) := by
  have hlen : ((st.fp.data.drop st.fp.pos).take n).length = n := by simp; omega
  simp only [readBuf, StateT.run_modifyGet, OutM.run_pure, Stream.read, hlen]
  rw [if_neg (by omega)]

/-- Iterations `i` to 9 of `read_vuint`'s loop, `*n` holding `n` and `shift` being `7 i`:
each byte adds its low seven bits at `shift`; a clear high bit ends the number. -/
def readVuintFrom (fp : Stream) (n : UInt64) (i : Nat) : Nat → Nat × UInt64 × Stream
  | 0 => (0, n, fp)
  | k + 1 =>
    let (c, fp) := fp.read 1
    match c with
    | [c] =>
      let n := n + ((c &&& 0x7f).toUInt64 <<< (7 * i).toUInt64)
      if c &&& 0x80 = 0 then (i + 1, n, fp) else readVuintFrom fp n (i + 1) k
    | _ => (0, n, fp)

/-- `read_vuint`: a little-endian base-128 number of at most ten bytes; the count of bytes,
or 0 when the file ends first or the tenth byte still has its high bit set. -/
def readVuint : Rar5M (Nat × UInt64) := modifyGet fun st =>
  let (r, n, fp) := readVuintFrom st.fp 0 0 10
  ((r, n), { st with fp, bytesRead := st.bytesRead + r.toUInt32 })

theorem readVuintFrom_of_lt {fp : Stream} {c : UInt8} {rest : List UInt8}
    (hdata : fp.data.drop fp.pos = c :: rest) (hc : c < 0x80) (n : UInt64) (i k : Nat) :
    readVuintFrom fp n i (k + 1) =
      (i + 1, n + ((c &&& 0x7f).toUInt64 <<< (7 * i).toUInt64), { fp with pos := fp.pos + 1 }) := by
  simp [readVuintFrom, Stream.read, hdata, u8_and_0x80_of_lt hc]

theorem readVuint_run_of_lt {st : Rar5State} {c : UInt8} {rest : List UInt8}
    (hdata : st.fp.data.drop st.fp.pos = c :: rest) (hc : c < 0x80) :
    ((readVuint).run st).run =
      (((1, c.toUInt64), { st with
        fp := { st.fp with pos := st.fp.pos + 1 }, bytesRead := st.bytesRead + 1 }), ∅) := by
  simp only [readVuint, StateT.run_modifyGet, OutM.run_pure, readVuintFrom_of_lt hdata hc 0 0 9,
    u8_and_0x7f_of_lt hc]
  simp [show Nat.toUInt64 0 = 0 from rfl, u64_shiftLeft_zero, u64_zero_add]

/-- `if (!read_vuint(fp, &x, &bytes_read)) return 0;`: the value, or `none` to return. -/
def getVuint : Rar5M (Option UInt64) := do
  let (r, v) ← readVuint
  pure (if r = 0 then none else some v)

/-- `if (!read_uint8(fp, &x, &bytes_read)) return 0;`. -/
def getUint8 : Rar5M (Option UInt8) := do
  let (r, v) ← readUint8
  pure (if r = 0 then none else some v)

/-- `if (!read_uint32(fp, &x, &bytes_read)) return 0;`. -/
def getUint32 : Rar5M (Option UInt32) := do
  let (r, v) ← readUint32
  pure (if r = 0 then none else some v)

/-- `if (flag) { if (!read_vuint(fp, &x, &bytes_read)) return 0; }` with `x` first 0. -/
def getVuintIf (flag : Bool) : Rar5M (Option UInt64) :=
  if flag then getVuint else pure (some 0)

end Rar2John
