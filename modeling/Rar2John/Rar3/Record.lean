import Rar2John.Main

/-!
# The mode-1 record

The record `process_file` formats into `best`: its length count, its buffer size, and a
ciphertext cut short by the end of the archive.
-/

namespace Rar2John

open Rar3

/-! ## The record holds no NUL -/

theorem digitChar_ne_zero {d : Nat} (hd : d < 10) : (Nat.digitChar d).toNat.toUInt8 ≠ 0 := by
  have : ∀ d < 10, (Nat.digitChar d).toNat.toUInt8 ≠ 0 := by decide
  exact this d hd

theorem toDigitsCore_ne_zero :
    ∀ (fuel n : Nat) (ds : List Char), (∀ c ∈ ds, c.toNat.toUInt8 ≠ 0) →
      ∀ c ∈ Nat.toDigitsCore 10 fuel n ds, c.toNat.toUInt8 ≠ 0
  | 0, _, _, h => h
  | fuel + 1, n, ds, h => by
    have hd : ∀ c ∈ Nat.digitChar (n % 10) :: ds, c.toNat.toUInt8 ≠ 0 := by
      simp only [List.mem_cons, forall_eq_or_imp]
      exact ⟨digitChar_ne_zero (Nat.mod_lt _ (by decide)), h⟩
    show ∀ c ∈ (if n / 10 = 0 then Nat.digitChar (n % 10) :: ds
      else Nat.toDigitsCore 10 fuel (n / 10) (Nat.digitChar (n % 10) :: ds)), c.toNat.toUInt8 ≠ 0
    split
    · exact hd
    · exact toDigitsCore_ne_zero fuel _ _ hd

theorem zero_not_mem_decimal (n : Nat) : 0 ∉ decimal n := by
  simp only [decimal, ascii, List.mem_map, not_exists, not_and]
  exact fun c hc h0 => toDigitsCore_ne_zero (n + 1) n [] (by simp) c hc h0

theorem zero_not_mem_hex2 (b : UInt8) : 0 ∉ hex2 b := by
  have hdig : ∀ k < 16, itoa16.getD k 0 ≠ 0 := by decide
  have h4 : (b >>> 4).toNat < 16 := by
    show b.toNat >>> (4 % 8) < 16
    rw [Nat.shiftRight_eq_div_pow, show 2 ^ (4 % 8) = 16 from rfl]
    have := b.toNat_lt_size
    simp only [UInt8.size] at this
    omega
  have hf : (b &&& 0x0f).toNat < 16 := by
    rw [UInt8.and_toNat, show (0x0f : UInt8).toNat = 2 ^ 4 - 1 from rfl,
      Nat.and_pow_two_sub_one_eq_mod]
    exact Nat.mod_lt _ (by decide)
  simp only [hex2, List.mem_cons, List.not_mem_nil, or_false, not_or]
  exact ⟨fun h => hdig _ h4 h.symm, fun h => hdig _ hf h.symm⟩

theorem zero_not_mem_hex (bs : List UInt8) : 0 ∉ hex bs := by
  simp only [hex, List.mem_flatMap, not_exists, not_and]
  exact fun b _ => zero_not_mem_hex2 b

theorem copyLoop_length (E : Env) :
    ∀ (fuel : Nat) (bytesLeft : UInt64), bytesLeft.toNat ≤ 65536 * fuel →
      Post (σ := Rar3State) (fun r => r.length = 2 * bytesLeft.toNat ∧ 0 ∉ r)
        (copyLoop E fuel bytesLeft)
  | 0, _, h => Post.pure ⟨by simp only [List.length_nil]; omega, List.not_mem_nil 0⟩
  | fuel + 1, bytesLeft, h => by
    rw [copyLoop]
    split
    · exact Post.pure ⟨by simp [*], List.not_mem_nil 0⟩
    · rename_i h0
      have hpos : 0 < bytesLeft.toNat := by
        rw [u64_eq_iff] at h0; exact Nat.pos_of_ne_zero h0
      generalize htr : (if bytesLeft < 65536 then bytesLeft.toNat else 65536) = toRead
      have hread : toRead ≤ bytesLeft.toNat ∧ toRead ≤ 65536 ∧
          bytesLeft.toNat - toRead ≤ 65536 * fuel := by
        subst htr
        by_cases hlt : bytesLeft.toNat < 65536
        · rw [if_pos ((u64_lt_iff bytesLeft 65536).2 hlt)]; omega
        · rw [if_neg (mt (u64_lt_iff bytesLeft 65536).1 hlt)]; omega
      have hsub : (bytesLeft - toRead.toUInt64).toNat = bytesLeft.toNat - toRead := by
        rw [UInt64.toNat_sub_of_le _ _ (by rw [u64_le_iff, toNat_toUInt64]; omega), toNat_toUInt64,
          Nat.mod_eq_of_lt (by omega)]
      repeat'
        with_reducible first
        | refine Post.bind_of (copyLoop_length E fuel _ (by omega)) fun rest hrest => ?_
        | refine Post.bind fun _ => ?_
        | split
        | dsimp only
        | (refine Post.pure ⟨?_, ?_⟩
           · simp only [List.length_append, length_hex, List.length_map, List.length_range, hrest.1,
               hsub]
             omega
           · simp only [List.mem_append, not_or]
             exact ⟨zero_not_mem_hex _, hrest.2⟩)

theorem cstr_of_zero_not_mem {b : List UInt8} (h : 0 ∉ b) : cstr b = b :=
  List.takeWhile_eq_self_iff.2 fun x hx => by simpa using ne_of_mem_of_not_mem hx h

/-- **`best_len` is short by `PACK_SIZE`.** For every record, with an archive basename that is
a C string, `best_len + PACK_SIZE` is `strlen(best)` in 64-bit arithmetic: `best_len`
counts the ciphertext's bytes, the record holds two hex digits for each. -/
theorem formatRecord_bestLen (E : Env) (verbose : Bool) {base : List UInt8} (flags : UInt16)
    (blk salt : List UInt8) (pack unp : UInt64) (method : UInt8) (st : Rar3State)
    (hbase : 0 ∉ base) :
    ∃ b, ((formatRecord E verbose base flags blk salt pack unp method).run st).run.1.2.best = some b ∧
      (((formatRecord E verbose base flags blk salt pack unp method).run st).run.1.2.bestLen +
        pack).toNat = (cstr b).length % 2 ^ 64 := by
  have hc := copyLoop_length E (pack.toNat / 65536 + 1) pack (by omega) st
  rcases hrun : ((copyLoop E (pack.toNat / 65536 + 1) pack).run st).run with ⟨⟨cipher, st'⟩, o⟩
  rw [hrun] at hc
  obtain ⟨hlen, hnul⟩ := hc
  obtain ⟨h₁, h₂, h₃, h₄⟩ : 0 ∉ ascii ":$RAR3$*1*" ∧ 0 ∉ ascii "*" ∧ 0 ∉ ascii "1*" ∧
      0 ∉ ascii ":1::" := by decide
  cases verbose <;>
    simp only [formatRecord, StateT.run_bind, OutM.run_bind, Bool.false_eq_true, if_false, if_true,
      StateT.run_pure, OutM.run_pure, hrun, StateT.run_modify, eprint, run_tell]
  all_goals
    refine ⟨_, rfl, ?_⟩
    rw [cstr_of_zero_not_mem (by
      simp [hbase, hnul, h₁, h₂, h₃, h₄, zero_not_mem_hex, zero_not_mem_hex2, zero_not_mem_decimal])]
    simp only [List.length_append, u64_toNat_add, toNat_toUInt64, hlen]
    omega

theorem formatRecord_bestLen_at_b :
    0 ∉ ascii "b.rar" ∧
      ∃ b, ((formatRecord jtrBuild false (ascii "b.rar") 0x8404 (List.replicate 32 0)
          (List.replicate 8 0) 16 10 0x33).run
          ⟨⟨[], 0, false⟩, Bestsize.init, none, 0, fun _ => 0, 0, []⟩).run.1.2.best = some b ∧
        (((formatRecord jtrBuild false (ascii "b.rar") 0x8404 (List.replicate 32 0)
          (List.replicate 8 0) 16 10 0x33).run
          ⟨⟨[], 0, false⟩, Bestsize.init, none, 0, fun _ => 0, 0, []⟩).run.1.2.bestLen + 16).toNat =
          (cstr b).length % 2 ^ 64 :=
  have hbase : 0 ∉ ascii "b.rar" := by decide
  ⟨hbase, formatRecord_bestLen jtrBuild false 0x8404 _ _ 16 10 0x33 _ hbase⟩

/-! ## The buffer -/

/-- `2 * LINE_BUFFER_SIZE + 2 * file_hdr_pack_size`, in `size_t`: what `mem_calloc` is asked
for before the record of a new incumbent is written into `best`. -/
def bestAllocSize (E : Env) (pack : UInt64) : UInt64 := 2 * E.lineBufferSize.toUInt64 + 2 * pack

theorem u64_toNat_mul (a b : UInt64) : (a * b).toNat = a.toNat * b.toNat % 2 ^ 64 :=
  BitVec.toNat_mul _ _

/-- **The buffer size wraps.** An entry packed at `2 ^ 63` bytes or more, which the high size
word `0x80000000` of flag 0x100 gives, is admitted when it is the first; the buffer size
computed for it wraps past `2 ^ 64`, to less than the `2 PACK_SIZE` hex digits the copy loop
writes into it. -/
theorem best_buffer_size_wraps (pack unp : UInt64) (method : UInt8) (hpack : 2 ^ 63 ≤ pack.toNat) :
    (0 : UInt64) + (le32At [0, 0, 0, 0x80] 0 <<< 32) = 0x8000000000000000 ∧
      betterCandidateAlready Bestsize.init pack unp method = false ∧
      2 ^ 64 ≤ 2 * jtrBuild.lineBufferSize + 2 * pack.toNat ∧
      (bestAllocSize jtrBuild pack).toNat = (2 * jtrBuild.lineBufferSize + 2 * pack.toNat) % 2 ^ 64 ∧
      (bestAllocSize jtrBuild pack).toNat < 2 * pack.toNat := by
  have hlt := pack.toNat_lt_size
  simp only [UInt64.size] at hlt
  have hsize : (bestAllocSize jtrBuild pack).toNat = (2 * 0x400 + 2 * pack.toNat) % 2 ^ 64 := by
    simp only [bestAllocSize, u64_toNat_add, u64_toNat_mul, toNat_toUInt64,
      show jtrBuild.lineBufferSize = 0x400 from rfl, show (2 : UInt64).toNat = 2 from rfl]
    omega
  refine ⟨by decide, by simp [betterCandidateAlready, Bestsize.init], ?_, hsize, ?_⟩ <;>
    simp only [hsize, show jtrBuild.lineBufferSize = 0x400 from rfl] <;> omega

theorem best_buffer_size_wraps_at_half :
    2 ^ 63 ≤ (0x8000000000000000 : UInt64).toNat ∧
      (0 : UInt64) + (le32At [0, 0, 0, 0x80] 0 <<< 32) = 0x8000000000000000 ∧
      betterCandidateAlready Bestsize.init 0x8000000000000000 10 0x33 = false ∧
      2 ^ 64 ≤ 2 * jtrBuild.lineBufferSize + 2 * (0x8000000000000000 : UInt64).toNat ∧
      (bestAllocSize jtrBuild 0x8000000000000000).toNat =
        (2 * jtrBuild.lineBufferSize + 2 * (0x8000000000000000 : UInt64).toNat) % 2 ^ 64 ∧
      (bestAllocSize jtrBuild 0x8000000000000000).toNat < 2 * (0x8000000000000000 : UInt64).toNat :=
  have hpack : 2 ^ 63 ≤ (0x8000000000000000 : UInt64).toNat := by decide
  ⟨hpack, best_buffer_size_wraps _ 10 0x33 hpack⟩

/-! ## The ciphertext -/

/-- A RAR3 archive of one encrypted (0x04), not solid, not directory file `b` with a salt
(0x400) `01` to `08`, packed with method 0x33, whose `PACK_SIZE` is 16 but which ends 8
bytes into its data, `80` to `87`. -/
def truncatedArchive : List UInt8 :=
  rar3Magic ++ [0xcf, 0x90, 0x73, 0, 0, 13, 0, 0, 0, 0, 0, 0, 0] ++
    [0x24, 0x10, 0x74, 0x04, 0x84, 0x29, 0x00, 0x10, 0, 0, 0, 0x0a, 0, 0, 0, 0, 0, 0, 0, 0, 0, 0,
      0, 0, 0x1d, 0x33, 0x01, 0x00, 0x20, 0, 0, 0, 0x62, 1, 2, 3, 4, 5, 6, 7, 8] ++
    (List.range 8).map fun i => (0x80 + i).toUInt8

set_option maxRecDepth 4000 in
set_option smartUnfolding false in
/-- **A cut ciphertext is still recorded.** The copy loop reads 8 of the 16 bytes, reports
the short read on standard error, and writes 16 bytes in hex all the same, the last 8 from
a buffer no byte of the archive reached; the header read after it meets the end of the
file, and `BailOut:` prints the record. -/
theorem truncated_ciphertext_is_recorded (fuel : Nat) (verbose : Bool) :
    (rar2john jtrBuild (fun _ => some truncatedArchive) (fuel + 10) (ascii "rar2john") verbose
        [ascii "t.rar"]).map (fun r => r.2.out.stdout) =
      some (ascii "t.rar:$RAR3$*1*" ++ hex [1, 2, 3, 4, 5, 6, 7, 8] ++ ascii "*" ++
        hex [0, 0, 0, 0] ++ ascii "*16*10*1*" ++
        hex ((List.range 8).map (fun i => (0x80 + i).toUInt8) ++ List.replicate 8 0) ++
        ascii "*33:1::b \n") := by
  refine rar2john_map_add_fuel ?_ fuel
  cases verbose <;> decide

end Rar2John
