import Rar2John.Rar5.Read
import Mathlib.Algebra.BigOperators.Ring.List
import Mathlib.Algebra.Order.Ring.Nat

/-!
# `read_vuint` on every encoding

An encoding of a number `v < 2 ^ 64` is a string of 1 to 10 bytes of which only the last
has its high bit clear, whose payloads `e[j] & 0x7f` at bit `7 j` sum to `v`: the minimal
encoding, or one padded with continuation bytes. `readVuint_reads_encoding`: `read_vuint`
reads exactly such a string, whatever follows it, and stores `v`; the tenth byte's payload
is shifted by 63 bits in 64-bit arithmetic, which loses nothing of a sum below `2 ^ 64`.
Ten continuation bytes in a row make it fail.
-/

namespace Rar2John

theorem u64_toNat_shiftLeft (x s : UInt64) :
    (x <<< s).toNat = x.toNat * 2 ^ (s.toNat % 64) % 2 ^ 64 := by
  show (x.toBitVec <<< (s % 64).toBitVec).toNat = _
  rw [BitVec.shiftLeft_eq', BitVec.toNat_shiftLeft, Nat.shiftLeft_eq]
  rfl

theorem u8_and_0x80_of_ge {c : UInt8} (hc : 0x80 ≤ c) : c &&& 0x80 ≠ 0 := by
  intro h
  have h0 : c.toNat &&& 128 = 0 := by
    have := congrArg UInt8.toNat h
    rwa [UInt8.and_toNat] at this
  have hbit := Nat.testBit_and c.toNat 128 7
  have hc' : 128 ≤ c.toNat := hc
  have := c.toNat_lt_size
  rw [h0, Nat.testBit_to_div_mod, Nat.testBit_to_div_mod, show c.toNat / 2 ^ 7 % 2 = 1 by
    simp only [UInt8.size] at this; omega] at hbit
  exact absurd hbit (by decide)

theorem u64_add_zero (x : UInt64) : x + 0 = x := UInt64.eq_of_toBitVec_eq (BitVec.add_zero _)

theorem readVuintFrom_of_ge {fp : Stream} {c : UInt8} {rest : List UInt8}
    (hdata : fp.data.drop fp.pos = c :: rest) (hc : 0x80 ≤ c) (n : UInt64) (i k : Nat) :
    readVuintFrom fp n i (k + 1) =
      readVuintFrom { fp with pos := fp.pos + 1 } (n + ((c &&& 0x7f).toUInt64 <<< (7 * i).toUInt64))
        (i + 1) k := by
  simp [readVuintFrom, Stream.read, hdata, u8_and_0x80_of_ge hc]

/-- The number an encoding stands for: the payload `e[j] & 0x7f` of each byte at bit
`7 j`. -/
def payload (e : List UInt8) : Nat :=
  ((List.range e.length).map fun j => ((e.getD j 0) &&& 0x7f).toNat * 2 ^ (7 * j)).sum

theorem payload_cons (c : UInt8) (cs : List UInt8) :
    payload (c :: cs) = (c &&& 0x7f).toNat + 128 * payload cs := by
  rw [payload, payload, List.length_cons, List.range_succ_eq_map, List.map_cons, List.sum_cons,
    List.map_map, ← List.sum_map_mul_left]
  congr 1
  · simp
  · congr 2
    funext j
    simp only [Function.comp, List.getD_cons_succ, Nat.succ_eq_add_one,
      show 7 * (j + 1) = 7 * j + 7 by omega, Nat.pow_add]
    rw [Nat.mul_comm 128, Nat.mul_assoc]

theorem add_payload_cons (n : UInt64) (c : UInt8) (cs : List UInt8) {i : Nat} (hi : i < 10) :
    n + ((c &&& 0x7f).toUInt64 <<< (7 * i).toUInt64) + (payload cs * 2 ^ (7 * (i + 1))).toUInt64 =
      n + (payload (c :: cs) * 2 ^ (7 * i)).toUInt64 := by
  have hsh : (7 * i).toUInt64.toNat % 64 = 7 * i := by
    rw [toNat_toUInt64, Nat.mod_eq_of_lt (show 7 * i < 2 ^ 64 by omega),
      Nat.mod_eq_of_lt (show 7 * i < 64 by omega)]
  have hmul : payload (c :: cs) * 2 ^ (7 * i) =
      (c &&& 0x7f).toNat * 2 ^ (7 * i) + payload cs * 2 ^ (7 * (i + 1)) := by
    rw [payload_cons, Nat.add_mul, show 7 * (i + 1) = 7 * i + 7 by omega, Nat.pow_add,
      Nat.mul_comm (2 ^ (7 * i)) (2 ^ 7), ← Nat.mul_assoc, Nat.mul_comm (payload cs)]
  rw [u64_eq_iff, u64_toNat_add, u64_toNat_add, u64_toNat_add, u64_toNat_shiftLeft, hsh,
    toNat_toUInt64, toNat_toUInt64, hmul, u8_toNat_toUInt64]
  omega

theorem readVuintFrom_encoding : ∀ (e : List UInt8) {rest : List UInt8} {fp : Stream} (n : UInt64)
    {i k : Nat}, fp.data.drop fp.pos = e ++ rest → 0 < e.length →
    (∀ j < e.length, e.getD j 0 < 0x80 ↔ j + 1 = e.length) → i + e.length ≤ 10 → e.length ≤ k →
    readVuintFrom fp n i k =
      (i + e.length, n + (payload e * 2 ^ (7 * i)).toUInt64, { fp with pos := fp.pos + e.length })
  | [], _, _, _, _, _, _, h0, _, _, _ => absurd h0 (Nat.lt_irrefl 0)
  | c :: cs, rest, fp, n, i, k, hdata, _, hbits, hi, hk => by
    obtain ⟨k, rfl⟩ : ∃ k', k = k' + 1 := ⟨k - 1, by simp at hk; omega⟩
    rcases cs with _ | ⟨c', cs'⟩
    · have hc : c < 0x80 := (hbits 0 (by simp)).2 rfl
      rw [readVuintFrom_of_lt hdata hc, ← add_payload_cons n c [] (by simp at hi; omega)]
      simp [payload, show Nat.toUInt64 0 = 0 from rfl, u64_add_zero]
    · have hc : 0x80 ≤ c := UInt8.not_lt.mp fun h => by simpa using (hbits 0 (by simp)).1 h
      have hdata' : ({ fp with pos := fp.pos + 1 } : Stream).data.drop (fp.pos + 1) =
          (c' :: cs') ++ rest := by
        rw [← List.drop_drop, hdata]; rfl
      rw [readVuintFrom_of_ge hdata hc, readVuintFrom_encoding (c' :: cs') _ hdata' (by simp)
        (fun j hj => by simpa using hbits (j + 1) (by simpa using hj)) (by simp at hi ⊢; omega)
        (by simp at hk ⊢; omega), add_payload_cons _ _ _ (by simp at hi; omega)]
      simp only [List.length_cons, Prod.mk.injEq]
      exact ⟨by omega, trivial, by congr 1; omega⟩

theorem readVuintFrom_continued : ∀ (k : Nat) (fp : Stream) (n : UInt64) (i : Nat),
    (∀ j < k, 0x80 ≤ (fp.data.drop fp.pos).getD j 0) → (readVuintFrom fp n i k).1 = 0
  | 0, _, _, _, _ => rfl
  | k + 1, fp, n, i, h => by
    obtain ⟨c, rest, hdata⟩ : ∃ c rest, fp.data.drop fp.pos = c :: rest := by
      rcases hd : fp.data.drop fp.pos with _ | ⟨c, rest⟩
      · have := h 0 (by omega)
        simp [hd] at this
      · exact ⟨c, rest, rfl⟩
    have hc : 0x80 ≤ c := by simpa [hdata] using h 0 (by omega)
    rw [readVuintFrom_of_ge hdata hc]
    refine readVuintFrom_continued k _ _ _ fun j hj => ?_
    have := h (j + 1) (by omega)
    rw [hdata, List.getD_cons_succ] at this
    show 0x80 ≤ (fp.data.drop (fp.pos + 1)).getD j 0
    rw [← List.drop_drop, hdata]
    exact this

/-- **`read_vuint` decodes every encoding.** For `v < 2 ^ 64` and a string `e` of 1 to 10
bytes whose payloads `e[j] & 0x7f` at bit `7 j` sum to `v` and of which only the last has its
high bit clear, followed by any bytes: `read_vuint` consumes `e`, stores `v`, returns and adds
to `bytes_read` the length of `e`. Ten bytes that all have the high bit set make it return 0. -/
theorem readVuint_reads_encoding {st : Rar5State} {e rest : List UInt8} {v : Nat}
    (hv : v < 2 ^ 64) (hlen : 0 < e.length ∧ e.length ≤ 10)
    (hbits : ∀ j < e.length, e.getD j 0 < 0x80 ↔ j + 1 = e.length)
    (hsum : ((List.range e.length).map fun j => ((e.getD j 0) &&& 0x7f).toNat * 2 ^ (7 * j)).sum = v)
    (hdata : st.fp.data.drop st.fp.pos = e ++ rest) :
    (((readVuint).run st).run =
        (((e.length, v.toUInt64), { st with
          fp := { st.fp with pos := st.fp.pos + e.length }
          bytesRead := st.bytesRead + e.length.toUInt32 }), ∅) ∧ v.toUInt64.toNat = v) ∧
      ∀ st' : Rar5State, (∀ j < 10, 0x80 ≤ (st'.fp.data.drop st'.fp.pos).getD j 0) →
        ((readVuint).run st').run.1.1.1 = 0 := by
  refine ⟨⟨?_, by rw [toNat_toUInt64, Nat.mod_eq_of_lt hv]⟩, fun st' h => ?_⟩
  · simp only [readVuint, StateT.run_modifyGet, OutM.run_pure,
      readVuintFrom_encoding e 0 (i := 0) hdata hlen.1 hbits (by omega) hlen.2]
    rw [show payload e = v from hsum]
    simp [u64_zero_add]
  · simp only [readVuint, StateT.run_modifyGet, OutM.run_pure]
    exact readVuintFrom_continued 10 _ 0 0 h

theorem readVuint_reads_encoding_of_128 :
    (((readVuint).run ⟨⟨[0x80, 0x01], 0, false⟩, ⟨false, [], 0, false, []⟩, 0, 0⟩).run =
        (((([0x80, 0x01] : List UInt8).length, (128 : Nat).toUInt64), { (⟨⟨[0x80, 0x01], 0, false⟩,
          ⟨false, [], 0, false, []⟩, 0, 0⟩ : Rar5State) with
          fp := { (⟨[0x80, 0x01], 0, false⟩ : Stream) with pos := 0 + ([0x80, 0x01] : List UInt8).length }
          bytesRead := 0 + ([0x80, 0x01] : List UInt8).length.toUInt32 }), ∅) ∧
      (128 : Nat).toUInt64.toNat = 128) ∧
    ∀ st' : Rar5State, (∀ j < 10, 0x80 ≤ (st'.fp.data.drop st'.fp.pos).getD j 0) →
      ((readVuint).run st').run.1.1.1 = 0 :=
  @readVuint_reads_encoding ⟨⟨[0x80, 0x01], 0, false⟩, ⟨false, [], 0, false, []⟩, 0, 0⟩ [0x80, 0x01] []
    128 (by decide) (by decide) (by decide) (by decide) rfl

theorem readVuintFrom_advances : ∀ (k : Nat) (fp : Stream) (n : UInt64) (i : Nat),
    (readVuintFrom fp n i k).1 ≠ 0 →
      fp.pos < (readVuintFrom fp n i k).2.2.pos ∧ (readVuintFrom fp n i k).2.2.pos ≤ fp.data.length ∧
        (readVuintFrom fp n i k).2.2.data = fp.data
  | 0, _, _, _, h => absurd rfl h
  | k + 1, fp, n, i, h => by
    rcases hd : fp.data.drop fp.pos with _ | ⟨c, rest⟩
    · simp [readVuintFrom, Stream.read, hd] at h
    have hlt : fp.pos < fp.data.length := by
      by_contra hge
      rw [List.drop_eq_nil_of_le (Nat.le_of_not_lt hge)] at hd
      cases hd
    by_cases hc : c < 0x80
    · rw [readVuintFrom_of_lt hd hc]
      exact ⟨Nat.lt_succ_self _, hlt, rfl⟩
    · rw [readVuintFrom_of_ge hd (UInt8.not_lt.1 hc)] at h ⊢
      obtain ⟨h1, h2, h3⟩ := readVuintFrom_advances k _ _ _ h
      exact ⟨Nat.lt_of_succ_lt h1, h3 ▸ h2, h3⟩

end Rar2John
