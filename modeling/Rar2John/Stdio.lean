import Mathlib.Data.List.Basic
import Mathlib.Control.Monad.Writer
import Mathlib.Algebra.Group.Int
import Mathlib.Algebra.Group.Nat.Basic

/-!
# The C library as rar2john.c uses it

`Stream` for a `FILE *`, `Output` for standard output and error, the `printf` conversions,
and the integer conversions that matter.
-/

namespace Rar2John

/-- The bytes of an ASCII text, as `printf` copies a format's literal part. -/
def ascii (s : String) : List UInt8 := s.toList.map fun c => c.toNat.toUInt8

/-- `%d`, `%u` and `%"PRIu64"` of a value that is not negative. -/
def decimal (n : Nat) : List UInt8 := ascii (toString n)

/-- `itoa16` of common.c: the lowercase hexadecimal digits. -/
def itoa16 : List UInt8 := ascii "0123456789abcdef"

/-- `"%c%c", itoa16[b >> 4], itoa16[b & 0x0f]`, and `%02x` of a byte. -/
def hex2 (b : UInt8) : List UInt8 :=
  [itoa16.getD (b >>> 4).toNat 0, itoa16.getD (b &&& 0x0f).toNat 0]

/-- Lowercase hexadecimal of a byte string, two digits a byte. -/
def hex (bs : List UInt8) : List UInt8 := bs.flatMap hex2

@[simp] theorem hex_nil : hex [] = [] := rfl

@[simp] theorem hex_append (a b : List UInt8) : hex (a ++ b) = hex a ++ hex b := by
  simp [hex]

@[simp] theorem length_hex (bs : List UInt8) : (hex bs).length = 2 * bs.length := by
  induction bs with
  | nil => rfl
  | cons b bs ih => simp [hex, hex2] at ih ⊢; omega

theorem u64_lt_iff (a b : UInt64) : a < b ↔ a.toNat < b.toNat := by
  rw [UInt64.lt_def, BitVec.lt_def]; rfl

theorem u64_le_iff (a b : UInt64) : a ≤ b ↔ a.toNat ≤ b.toNat := by
  rw [UInt64.le_def, BitVec.le_def]; rfl

theorem u64_eq_iff (a b : UInt64) : a = b ↔ a.toNat = b.toNat :=
  ⟨congrArg _, UInt64.toNat.inj⟩

theorem u64_toNat_add (a b : UInt64) : (a + b).toNat = (a.toNat + b.toNat) % 2 ^ 64 :=
  BitVec.toNat_add _ _

theorem toNat_toUInt64 (n : Nat) : n.toUInt64.toNat = n % 2 ^ 64 := BitVec.toNat_ofNat _ _

theorem u64_shiftLeft_zero (x : UInt64) : x <<< 0 = x :=
  UInt64.eq_of_toBitVec_eq (BitVec.shiftLeft_zero _)

theorem u64_zero_add (x : UInt64) : 0 + x = x := UInt64.eq_of_toBitVec_eq (BitVec.zero_add _)

@[simp] theorem u8_toNat_toUInt64 (c : UInt8) : c.toUInt64.toNat = c.toNat := rfl

theorem u8_and_0x80_of_lt {c : UInt8} (hc : c < 0x80) : c &&& 0x80 = 0 := by
  apply UInt8.toNat.inj
  rw [UInt8.and_toNat, show (0x80 : UInt8).toNat = 2 ^ 7 from rfl]
  apply Nat.eq_of_testBit_eq
  intro i
  rw [Nat.testBit_and, Nat.testBit_two_pow]
  by_cases h : 7 = i
  · subst h; simp [Nat.testBit_lt_two_pow (show c.toNat < 2 ^ 7 from hc)]
  · simp [h]

theorem u8_and_0x7f_of_lt {c : UInt8} (hc : c < 0x80) : c &&& 0x7f = c := by
  apply UInt8.toNat.inj
  rw [UInt8.and_toNat, show (0x7f : UInt8).toNat = 2 ^ 7 - 1 from rfl,
    Nat.and_pow_two_sub_one_of_lt_two_pow hc]

/-- A `size_t` or `uint64_t` passed where `off_t` is expected (two's complement). -/
def offT (x : UInt64) : Int := if x.toNat < 2 ^ 63 then x.toNat else x.toNat - 2 ^ 64

/-- A value stored in an `int`: its low 32 bits read in two's complement. -/
def toInt32 (x : Int) : Int := if x % 2 ^ 32 < 2 ^ 31 then x % 2 ^ 32 else x % 2 ^ 32 - 2 ^ 32

/-- `SEEK_SET`, `SEEK_CUR` and `SEEK_END`. -/
inductive Whence
  | set
  | cur
  | end_
  deriving DecidableEq, Repr

/-- A `FILE *` opened for reading: the file's bytes, the position and the end-of-file
indicator. -/
structure Stream where
  data : List UInt8
  pos : Nat
  eof : Bool
  deriving DecidableEq, Repr

namespace Stream

/-- A stream just opened on a file holding `data`. -/
def ofData (data : List UInt8) : Stream := ⟨data, 0, false⟩

/-- `fread` of `n` bytes: what is left of the file, at most `n` bytes. The end-of-file
indicator is set when fewer than `n` were left. -/
def read (fp : Stream) (n : Nat) : List UInt8 × Stream :=
  let got := (fp.data.drop fp.pos).take n
  (got, { fp with pos := fp.pos + got.length, eof := fp.eof || decide (got.length < n) })

/-- Where `SEEK_SET`, `SEEK_CUR` and `SEEK_END` count from. -/
def origin (fp : Stream) : Whence → Int
  | .set => 0
  | .cur => fp.pos
  | .end_ => fp.data.length

/-- `fseek`: a target before the start of the file fails and leaves the stream as it was;
any other target, past the end included, becomes the position and clears the end-of-file
indicator. The program never reads the result. -/
def seek (fp : Stream) (off : Int) (whence : Whence) : Stream :=
  if fp.origin whence + off < 0 then fp
  else { fp with pos := (fp.origin whence + off).toNat, eof := false }

@[simp] theorem read_data (fp : Stream) (n : Nat) : (fp.read n).2.data = fp.data := rfl

@[simp] theorem read_pos (fp : Stream) (n : Nat) :
    (fp.read n).2.pos = fp.pos + ((fp.data.drop fp.pos).take n).length := rfl

@[simp] theorem read_eof (fp : Stream) (n : Nat) :
    (fp.read n).2.eof = (fp.eof || decide (((fp.data.drop fp.pos).take n).length < n)) := rfl

@[simp] theorem read_fst (fp : Stream) (n : Nat) :
    (fp.read n).1 = (fp.data.drop fp.pos).take n := rfl

@[simp] theorem seek_data (fp : Stream) (off : Int) (w : Whence) :
    (fp.seek off w).data = fp.data := by
  unfold seek; split <;> rfl

theorem seek_cur (fp : Stream) (off : Int) (h : 0 ≤ fp.pos + off) :
    fp.seek off .cur = { fp with pos := (fp.pos + off).toNat, eof := false } := by
  rw [seek, if_neg (by simp only [origin]; omega)]; rfl

@[simp] theorem seek_cur_nat (fp : Stream) (k : Nat) :
    fp.seek k .cur = { fp with pos := fp.pos + k, eof := false } := by
  rw [seek_cur _ _ (by omega)]; congr 1

theorem seek_cur_neg (fp : Stream) (k : Nat) (h : k ≤ fp.pos) :
    fp.seek (-(k : Int)) .cur = { fp with pos := fp.pos - k, eof := false } := by
  rw [seek_cur _ _ (by omega)]; congr 1; omega

theorem seek_set (fp : Stream) (n : Nat) :
    fp.seek n .set = { fp with pos := n, eof := false } := by
  rw [seek, if_neg (by simp only [origin]; omega)]; simp [origin]

end Stream

/-- `fread` into a buffer: the bytes read replace its first bytes, the others keep what the
buffer held. -/
def overlay (got buf : List UInt8) : List UInt8 := got ++ buf.drop got.length

theorem overlay_of_length_le {got buf : List UInt8} (h : buf.length ≤ got.length) :
    overlay got buf = got := by
  simp [overlay, List.drop_eq_nil_of_le h]

/-- The bytes written to standard output and to standard error. -/
@[ext] structure Output where
  stdout : List UInt8
  stderr : List UInt8
  deriving DecidableEq, Repr

namespace Output

def empty : Output := ⟨[], []⟩

@[simp] theorem empty_stdout : empty.stdout = [] := rfl

@[simp] theorem empty_stderr : empty.stderr = [] := rfl

/-- `printf`, `puts`: bytes to standard output. -/
def printf (o : Output) (s : List UInt8) : Output := { o with stdout := o.stdout ++ s }

/-- `fprintf(stderr, ...)`: bytes to standard error. -/
def eprintf (o : Output) (s : List UInt8) : Output := { o with stderr := o.stderr ++ s }

@[simp] theorem printf_stdout (o : Output) (s : List UInt8) :
    (o.printf s).stdout = o.stdout ++ s := rfl

@[simp] theorem printf_stderr (o : Output) (s : List UInt8) :
    (o.printf s).stderr = o.stderr := rfl

@[simp] theorem eprintf_stdout (o : Output) (s : List UInt8) :
    (o.eprintf s).stdout = o.stdout := rfl

@[simp] theorem eprintf_stderr (o : Output) (s : List UInt8) :
    (o.eprintf s).stderr = o.stderr ++ s := rfl

/-- Output written after other output. -/
instance : Append Output := ⟨fun a b => ⟨a.stdout ++ b.stdout, a.stderr ++ b.stderr⟩⟩

instance : EmptyCollection Output := ⟨empty⟩

@[simp] theorem append_stdout (a b : Output) : (a ++ b).stdout = a.stdout ++ b.stdout := rfl

@[simp] theorem append_stderr (a b : Output) : (a ++ b).stderr = a.stderr ++ b.stderr := rfl

@[simp] theorem empty_append (o : Output) : ∅ ++ o = o := rfl

@[simp] theorem append_empty (o : Output) : o ++ ∅ = o :=
  Output.ext (List.append_nil _) (List.append_nil _)

theorem append_assoc (a b c : Output) : a ++ b ++ c = a ++ (b ++ c) :=
  Output.ext (List.append_assoc _ _ _) (List.append_assoc _ _ _)

theorem printf_eq_append (o : Output) (s : List UInt8) : o.printf s = o ++ empty.printf s :=
  Output.ext rfl (List.append_nil _).symm

end Output

/-- Computations that write output, which nothing reads back. -/
abbrev OutM := WriterT Output Id

@[simp] theorem OutM.run_bind {α β : Type} (x : OutM α) (f : α → OutM β) :
    (x >>= f).run = ((f x.run.1).run.1, x.run.2 ++ (f x.run.1).run.2) := rfl

@[simp] theorem OutM.run_pure {α : Type} (a : α) : (pure a : OutM α).run = (a, ∅) := rfl

end Rar2John
