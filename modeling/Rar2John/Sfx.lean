import Rar2John.Consts

/-!
# The SFX scan

`process_file` and `process_file5` look for their signature in overlapping windows after an
`MZ` marker; the windowed scan stops and agrees with one search of the whole file.
-/

namespace Rar2John

/-- `memmem(hay, hay_len, needle, needle_len)`: the offset of the first occurrence. -/
def memmem : List UInt8 → List UInt8 → Option Nat
  | [], needle => if needle.isPrefixOf [] then some 0 else none
  | h :: t, needle => if needle.isPrefixOf (h :: t) then some 0 else (memmem t needle).map (· + 1)

theorem memmem_eq_none_iff (hay needle : List UInt8) :
    memmem hay needle = none ↔ ∀ j, ¬ needle <+: hay.drop j := by
  induction hay with
  | nil => cases needle <;> simp [memmem]
  | cons h t ih =>
    by_cases hp : needle <+: h :: t
    · simp only [memmem, List.isPrefixOf_iff_prefix.mpr hp, if_true, reduceCtorEq, false_iff,
        not_forall, not_not]
      exact ⟨0, hp⟩
    · simp only [memmem, hp, List.isPrefixOf_iff_prefix, if_false, Option.map_eq_none', ih]
      constructor
      · rintro h' (_ | j)
        · exact hp
        · exact h' j
      · exact fun h' j => h' (j + 1)

theorem memmem_eq_some_iff (hay needle : List UInt8) (i : Nat) :
    memmem hay needle = some i ↔ needle <+: hay.drop i ∧ ∀ j < i, ¬ needle <+: hay.drop j := by
  induction hay generalizing i with
  | nil =>
    cases needle <;> cases i <;> simp [memmem]
    exact ⟨0, by omega⟩
  | cons h t ih =>
    by_cases hp : needle <+: h :: t
    · simp only [memmem, List.isPrefixOf_iff_prefix.mpr hp, if_true, Option.some.injEq]
      constructor
      · rintro rfl; exact ⟨hp, by simp⟩
      · rintro ⟨-, hfirst⟩
        by_contra hi
        exact hfirst 0 (by omega) hp
    · simp only [memmem, hp, List.isPrefixOf_iff_prefix, if_false, Option.map_eq_some']
      constructor
      · rintro ⟨i, hi, rfl⟩
        obtain ⟨hocc, hfirst⟩ := (ih i).mp hi
        refine ⟨hocc, fun j hj => ?_⟩
        cases j with
        | zero => exact hp
        | succ j => exact hfirst j (by omega)
      · rintro ⟨hocc, hfirst⟩
        cases i with
        | zero => exact absurd hocc hp
        | succ i => exact ⟨i, (ih i).mpr ⟨hocc, fun j hj => hfirst (j + 1) (by omega)⟩, rfl⟩

theorem prefix_drop_take {l needle : List UInt8} {n j : Nat} (hn : 0 < needle.length) :
    needle <+: (l.take n).drop j ↔ needle <+: l.drop j ∧ j + needle.length ≤ n := by
  rw [List.drop_take, List.prefix_take_iff]
  constructor
  · rintro ⟨h, hlen⟩; exact ⟨h, by omega⟩
  · rintro ⟨h, hlen⟩; exact ⟨h, by omega⟩

theorem memmem_take_some {l needle : List UInt8} {n i : Nat} (hn : 0 < needle.length)
    (h : memmem (l.take n) needle = some i) : memmem l needle = some i := by
  obtain ⟨hocc, hfirst⟩ := (memmem_eq_some_iff _ _ _).mp h
  have hin := (prefix_drop_take hn).mp hocc
  refine (memmem_eq_some_iff _ _ _).mpr ⟨hin.1, fun j hj hj' => ?_⟩
  exact hfirst j hj ((prefix_drop_take hn).mpr ⟨hj', by omega⟩)

theorem memmem_skip {l needle : List UInt8} {k : Nat}
    (h : ∀ j < k, ¬ needle <+: l.drop j) :
    memmem l needle = (memmem (l.drop k) needle).map (· + k) := by
  cases hr : memmem (l.drop k) needle with
  | none =>
    rw [Option.map_none', memmem_eq_none_iff]
    rw [memmem_eq_none_iff] at hr
    intro j hj
    by_cases hjk : j < k
    · exact h j hjk hj
    · exact hr (j - k) (by rwa [List.drop_drop, show k + (j - k) = j by omega])
  | some i =>
    rw [Option.map_some', memmem_eq_some_iff]
    obtain ⟨hocc, hfirst⟩ := (memmem_eq_some_iff _ _ _).mp hr
    rw [List.drop_drop] at hocc
    refine ⟨by rwa [Nat.add_comm], fun j hj hj' => ?_⟩
    by_cases hjk : j < k
    · exact h j hjk hj'
    · exact hfirst (j - k) (by omega) (by rwa [List.drop_drop, show k + (j - k) = j by omega])

/-- The `while (!feof(fp))` loop of the SFX scan, for at most `fuel` windows, `none` when
the fuel runs out: read a window; stop when it is shorter than the signature; on a match
seek back to it and past it; at the end of the file stop; otherwise seek back
`magic length - 1` bytes. -/
def sfxScanLoop (magic : List UInt8) : Nat → Stream → Option (Bool × Stream)
  | 0, _ => none
  | fuel + 1, fp =>
    if fp.eof then some (false, fp) else
    let (buf, fp) := fp.read chunkSize
    if buf.length < magic.length then some (false, fp) else
    match memmem buf magic with
    | some i =>
      some (true, (fp.seek (-((buf.length - i : Nat) : Int)) .cur).seek magic.length .cur)
    | none =>
      if fp.eof then some (false, fp)
      else sfxScanLoop magic fuel (fp.seek (1 - (magic.length : Int)) .cur)

/-- The SFX scan, given one window per byte of the file: `sfxScan_isSome` shows that it
always stops by one of its own exits within them. -/
def sfxScan (magic : List UInt8) (fp : Stream) : Option (Bool × Stream) :=
  sfxScanLoop magic (fp.data.length + 1) fp

section Spec

variable (magic : List UInt8) (hM : 0 < magic.length) (hC : magic.length ≤ chunkSize)
include hM hC

/-- **The windowed scan is a search of the rest of the file.** From a position `pos` not
past the end of the file, with enough fuel, the scan stops and reports whether the
signature occurs at or after `pos`; on success it stops just past its first occurrence. -/
theorem sfxScanLoop_spec (fuel : Nat) (fp : Stream) (heof : fp.eof = false)
    (hpos : fp.pos ≤ fp.data.length) (hfuel : fp.data.length + 1 ≤ fp.pos + fuel) :
    ∃ fp', sfxScanLoop magic fuel fp = some ((memmem (fp.data.drop fp.pos) magic).isSome, fp') ∧
      ∀ i, memmem (fp.data.drop fp.pos) magic = some i → fp'.pos = fp.pos + i + magic.length := by
  induction fuel generalizing fp with
  | zero => omega
  | succ fuel ih =>
    set rest := fp.data.drop fp.pos with hrest
    set buf := rest.take chunkSize with hbuf
    simp only [sfxScanLoop, heof, Stream.read, Bool.false_eq_true, if_false, Bool.false_or]
    rw [← hrest, ← hbuf]
    by_cases hshort : buf.length < magic.length
    · -- a window shorter than the signature is the whole rest of the file
      have hlen : rest.length < magic.length := by
        simp only [hbuf, List.length_take] at hshort; omega
      have hnone : memmem rest magic = none := by
        rw [memmem_eq_none_iff]
        exact fun j hj => by have := hj.length_le; simp at this; omega
      simp [hshort, hnone]
    · simp only [hshort, if_false]
      cases hfound : memmem buf magic with
      | some i =>
        -- the match in the window is the first one of the rest of the file
        dsimp only
        have hrest_some := memmem_take_some hM hfound
        have hi : i + magic.length ≤ buf.length := by
          have := ((memmem_eq_some_iff _ _ _).mp hfound).1.length_le
          simp only [List.length_drop] at this; omega
        rw [hrest_some]
        refine ⟨_, rfl, fun i' hi' => ?_⟩
        cases hi'
        rw [Stream.seek_cur_neg _ _ (by dsimp only; omega), Stream.seek_cur_nat]
        dsimp only
        omega
      | none =>
        dsimp only
        by_cases hend : buf.length < chunkSize
        · -- the last window held the rest of the file
          have hall : buf = rest := List.take_of_length_le (by
            simp only [hbuf, List.length_take] at hend; omega)
          simp [hend, ← hall, hfound]
        · -- a full window: the next one starts `magic length - 1` bytes before its end
          have hfull : buf.length = chunkSize := by
            simp only [hbuf, List.length_take] at hend ⊢; omega
          have hroom : fp.pos + chunkSize ≤ fp.data.length := by
            simp only [hbuf, hrest, List.length_take, List.length_drop] at hend; omega
          have hskip : ∀ j < chunkSize + 1 - magic.length, ¬ magic <+: rest.drop j := by
            intro j hj hocc
            rw [memmem_eq_none_iff] at hfound
            exact hfound j ((prefix_drop_take hM).mpr ⟨hocc, by omega⟩)
          have hnext := memmem_skip hskip
          simp only [hend, decide_False, Bool.false_eq_true, if_false]
          let fp' : Stream := ⟨fp.data, fp.pos + (chunkSize + 1 - magic.length), false⟩
          have hstep : (⟨fp.data, fp.pos + buf.length, false⟩ : Stream).seek
              (1 - (magic.length : Int)) .cur = fp' := by
            rw [Stream.seek_cur _ _ (by dsimp only; omega)]
            simp only [fp', Stream.mk.injEq, true_and, and_true]
            omega
          have hdrop : fp'.data.drop fp'.pos = rest.drop (chunkSize + 1 - magic.length) := by
            simp only [fp', hrest, List.drop_drop]
          obtain ⟨fp'', hrun, hpos''⟩ := ih fp' rfl (by dsimp only [fp']; omega)
            (by show fp.data.length + 1 ≤ fp.pos + (chunkSize + 1 - magic.length) + fuel; omega)
          rw [hdrop] at hrun hpos''
          rw [hstep, hrun, hnext, Option.isSome_map']
          refine ⟨fp'', rfl, fun i hi => ?_⟩
          obtain ⟨i', hi', rfl⟩ := Option.map_eq_some'.mp hi
          rw [hpos'' i' hi']
          simp only [fp']
          omega

/-- **The scan always stops by one of its own exits**, from any stream, within the
`data.length + 1` windows `sfxScan` gives it. -/
theorem sfxScan_isSome (fp : Stream) : (sfxScan magic fp).isSome := by
  by_cases heof : fp.eof = true
  · simp [sfxScan, sfxScanLoop, heof]
  by_cases hpos : fp.pos ≤ fp.data.length
  · obtain ⟨fp', h, -⟩ := sfxScanLoop_spec magic hM hC (fp.data.length + 1) fp (by simpa using heof)
      hpos (by omega)
    simp [sfxScan, h]
  · -- past the end of the file the first window is empty
    have hnil : fp.data.drop fp.pos = [] := List.drop_of_length_le (by omega)
    simp [sfxScan, sfxScanLoop, heof, Stream.read, hnil, hM]

end Spec

/-- `o` is the first offset at or after `start` where `magic` occurs in `data`. -/
def FirstFrom (data magic : List UInt8) (start o : Nat) : Prop :=
  start ≤ o ∧ magic <+: data.drop o ∧ ∀ q, start ≤ q → q < o → ¬ magic <+: data.drop q

theorem memmem_drop_iff_firstFrom (data magic : List UInt8) (start i : Nat) :
    memmem (data.drop start) magic = some i ↔ FirstFrom data magic start (start + i) := by
  rw [memmem_eq_some_iff, List.drop_drop, FirstFrom]
  constructor
  · rintro ⟨hocc, hfirst⟩
    refine ⟨by omega, hocc, fun q hq hqo hq' => hfirst (q - start) (by omega) ?_⟩
    rwa [List.drop_drop, show start + (q - start) = q by omega]
  · rintro ⟨-, hocc, hfirst⟩
    exact ⟨hocc, fun j hj hj' => hfirst (start + j) (by omega) (by omega)
      (by rwa [List.drop_drop] at hj')⟩

theorem sfxScan_after_marker (magic data : List UInt8) (start : Nat)
    (hM : 0 < magic.length) (hC : magic.length ≤ chunkSize) :
    ∃ r, sfxScan magic ((Stream.ofData data).read start).2 = some r ∧
      (r.1 = true ↔ ∃ o, FirstFrom data magic start o) ∧
      ∀ o, FirstFrom data magic start o → r.2.pos = o + magic.length := by
  generalize hfp : ((Stream.ofData data).read start).2 = fp
  by_cases hlen : start ≤ data.length
  · obtain rfl : fp = ⟨data, start, false⟩ := by
      rw [← hfp]
      simp only [Stream.read, Stream.ofData, List.drop_zero, List.length_take,
        Bool.false_or, Stream.mk.injEq, true_and]
      exact ⟨by omega, by simp; omega⟩
    obtain ⟨fp', h, hpos⟩ := sfxScanLoop_spec magic hM hC (data.length + 1)
      ⟨data, start, false⟩ rfl hlen (by simp)
    refine ⟨_, h, ⟨fun h => ?_, fun ⟨o, ho⟩ => ?_⟩, fun o ho => ?_⟩
    · obtain ⟨i, hi⟩ := Option.isSome_iff_exists.mp h
      exact ⟨start + i, (memmem_drop_iff_firstFrom _ _ _ _).mp hi⟩
    all_goals
      have hi := (memmem_drop_iff_firstFrom data magic start (o - start)).mpr
        (by rwa [show start + (o - start) = o by have := ho.1; omega])
    · simp [hi]
    · rw [hpos _ hi]
      have := ho.1; dsimp only; omega
  · -- the bytes before the window were not all there: end of file, no occurrence
    have heof : fp.eof = true := by
      rw [← hfp]; simp [Stream.read, Stream.ofData]; omega
    have hno : ∀ o, ¬ FirstFrom data magic start o := by
      rintro o ⟨ho, hocc, -⟩
      have := hocc.length_le
      simp at this; omega
    exact ⟨(false, fp), by simp [sfxScan, sfxScanLoop, heof], by simp [hno],
      fun o ho => absurd ho (hno o)⟩

/-- **The SFX scans agree with a search of the whole file.** After `process_file` has
read its 7-byte marker, its scan for `RAR3_MAGIC` stops, reports a signature exactly when
one starts at offset 7 or later, and then stands just past the first such;
`process_file5` does the same for `RAR5_MAGIC` after its 8-byte marker. This holds for
every file, whatever its length and wherever the signature falls relative to the
4096-byte windows. -/
theorem sfx_scan_agrees_with_whole_file_search (data : List UInt8) :
    (∃ r, sfxScan rar3Magic ((Stream.ofData data).read 7).2 = some r ∧
      (r.1 = true ↔ ∃ o, FirstFrom data rar3Magic 7 o) ∧
      ∀ o, FirstFrom data rar3Magic 7 o → r.2.pos = o + 7) ∧
    (∃ r, sfxScan rar5Magic ((Stream.ofData data).read 8).2 = some r ∧
      (r.1 = true ↔ ∃ o, FirstFrom data rar5Magic 8 o) ∧
      ∀ o, FirstFrom data rar5Magic 8 o → r.2.pos = o + 8) :=
  ⟨sfxScan_after_marker rar3Magic data 7 (by decide) (by decide),
    sfxScan_after_marker rar5Magic data 8 (by decide) (by decide)⟩

end Rar2John
