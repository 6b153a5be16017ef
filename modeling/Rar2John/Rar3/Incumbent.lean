import Rar2John.Rar3.Effects
import Rar2John.Rar3.Record

/-!
# The incumbent's record

`best` always holds the record of the entry `bestsize` describes, taken from an encrypted
header block of the archive, and it is all a RAR3 archive prints in mode 1.
-/

namespace Rar2John

open Rar3

/-- The hash of a mode-1 record as `process_file` spells it: salt, CRC, the packed and
unpacked sizes, the ciphertext and the method. -/
def rar3Hash (salt crc : List UInt8) (pack unp : Nat) (cipher : List UInt8) (method : UInt8) :
    List UInt8 :=
  ascii "$RAR3$*1*" ++ hex salt ++ ascii "*" ++ hex crc ++ ascii "*" ++ decimal pack ++ ascii "*" ++
    decimal unp ++ ascii "*1*" ++ hex cipher ++ ascii "*" ++ hex2 method

/-- The record of an entry, as `best` holds it: the archive's name, the hash and `:1::`. -/
def rar3Record (base salt crc : List UInt8) (pack unp : Nat) (cipher : List UInt8)
    (method : UInt8) : List UInt8 :=
  base ++ ascii ":" ++ rar3Hash salt crc pack unp cipher method ++ ascii ":1::"

/-- The walk's state as `process_file` sets it up at `next_file_header:`. -/
def walkInit (fp : Stream) : Rar3State := ⟨fp, Bestsize.init, none, 0, fun _ => 0, 0, []⟩

theorem copyLoop_hex (E : Env) :
    ∀ (fuel : Nat) (bytesLeft : UInt64),
      Post (σ := Rar3State) (fun r => ∃ bs, r = hex bs) (copyLoop E fuel bytesLeft)
  | 0, _ => Post.pure ⟨[], rfl⟩
  | fuel + 1, bytesLeft => by
    rw [copyLoop]
    repeat'
      with_reducible first
      | refine Post.bind_of (copyLoop_hex E fuel _) fun rest hrest => ?_
      | refine Post.bind fun _ => ?_
      | split
      | dsimp only
      | exact Post.pure ⟨[], hex_nil.symm⟩
      | (obtain ⟨bs, rfl⟩ := hrest; exact Post.pure ⟨_ ++ bs, (hex_append _ _).symm⟩)

/-! ## Steps that leave the incumbent alone -/

/-- The state after a step has the incumbent of the state before. -/
def incumbentFrame : StepRel Rar3State where
  rel a b _ := b.best = a.best ∧ b.bestsize = a.bestsize
  refl _ := ⟨rfl, rfl⟩
  trans h₁ h₂ := ⟨h₂.1.trans h₁.1, h₂.2.trans h₁.2⟩

theorem incumbentFrame_effects : Rar3Effects incumbentFrame :=
  ⟨fun _ _ _ => ⟨rfl, rfl⟩, fun _ _ => ⟨rfl, rfl⟩, fun _ _ _ => ⟨rfl, rfl⟩, fun _ _ => ⟨rfl, rfl⟩⟩

theorem overlay_prefix {got : List UInt8} {n : Nat} (buf : List UInt8) (d : Nat → UInt8)
    (hn : got.length = n) : (List.range n).map (fun x => (overlay got buf).getD x (d x)) = got :=
  List.ext_getElem (by simp [hn]) fun i h₁ _ => by
    simp only [List.length_map, List.length_range, ← hn] at h₁
    simp [overlay, List.getD_eq_getElem?_getD, List.getElem?_append_left h₁,
      List.getElem?_eq_getElem h₁]

/-- **The copy loop reads the packed data.** When the archive holds `bytes_left` more bytes
at the read position, the loop's `fread`s of at most 64 KiB each write the hex of exactly
those bytes: each read fills the part of the buffer that is written, so nothing stale
shows. -/
theorem copyLoop_reads (E : Env) :
    ∀ (fuel : Nat) (bytesLeft : UInt64) (st : Rar3State), bytesLeft.toNat ≤ 65536 * fuel →
      st.fp.pos + bytesLeft.toNat ≤ st.fp.data.length →
      ((copyLoop E fuel bytesLeft).run st).run.1.1 =
        hex ((st.fp.data.drop st.fp.pos).take bytesLeft.toNat)
  | 0, _, _, h, _ => by rw [Nat.le_zero.1 h]; rfl
  | fuel + 1, bytesLeft, st, h, hd => by
    rw [copyLoop]
    split
    case isTrue h0 => rw [h0]; rfl
    case isFalse h0 =>
      have hpos : 0 < bytesLeft.toNat := by
        rw [u64_eq_iff] at h0; exact Nat.pos_of_ne_zero h0
      generalize htr : (if bytesLeft < 65536 then bytesLeft.toNat else 65536) = toRead
      have hread : toRead ≤ bytesLeft.toNat ∧ toRead ≤ 65536 ∧
          bytesLeft.toNat - toRead ≤ 65536 * fuel := by
        subst htr
        by_cases hlt : bytesLeft.toNat < 65536
        · rw [if_pos ((u64_lt_iff bytesLeft 65536).2 hlt)]; omega
        · rw [if_neg (mt (u64_lt_iff bytesLeft 65536).1 hlt)]; omega
      have hsub : (bytesLeft - toRead.toUInt64).toNat = bytesLeft.toNat - toRead := by
        rw [UInt64.toNat_sub_of_le _ _ (by rw [u64_le_iff, toNat_toUInt64]; omega), toNat_toUInt64,
          Nat.mod_eq_of_lt (by omega)]
      have hgot : ((st.fp.data.drop st.fp.pos).take toRead).length = toRead := by
        simp only [List.length_take, List.length_drop]; omega
      simp only [fread, StateT.run_bind, OutM.run_bind, StateT.run_modifyGet, OutM.run_pure,
        StateT.run_modify, Stream.read_fst, hgot, ne_eq, not_true_eq_false, if_false,
        StateT.run_pure, StateT.run_get]
      rw [copyLoop_reads E fuel _ _ (by omega)
        (by simp only [Stream.read_pos, Stream.read_data, Stream.read_fst, hgot, hsub]; omega)]
      simp only [Stream.read_pos, Stream.read_data, hgot, hsub, overlay_prefix _ _ hgot,
        ← hex_append]
      rw [show bytesLeft.toNat = toRead + (bytesLeft.toNat - toRead) by omega, List.take_add,
        List.drop_drop, Nat.add_sub_cancel_left, Nat.add_comm]

theorem formatRecord_best (E : Env) (verbose : Bool) (base : List UInt8) (flags : UInt16)
    (blk salt : List UInt8) (pack unp : UInt64) (method : UInt8) (st : Rar3State)
    {cipher : List UInt8}
    (hc : ((copyLoop E (pack.toNat / 65536 + 1) pack).run st).run.1.1 = hex cipher) :
    (((formatRecord E verbose base flags blk salt pack unp method).run st).run.1.2).best =
      some (rar3Record base salt ((blk.drop 16).take 4) pack.toNat unp.toNat cipher method) := by
  rcases hrun : ((copyLoop E (pack.toNat / 65536 + 1) pack).run st).run with ⟨⟨_, st'⟩, o⟩
  rw [hrun] at hc
  subst hc
  cases verbose <;>
    simp only [formatRecord, StateT.run_bind, OutM.run_bind, Bool.false_eq_true, if_false, if_true,
      StateT.run_pure, OutM.run_pure, hrun, StateT.run_modify, eprint, run_tell]
  all_goals
    simp only [rar3Record, rar3Hash, List.append_assoc, Option.some.injEq]
    rfl

/-- **`formatRecord` records its entry.** It leaves `bestsize` as it found it and sets
`best` to the record of the entry it was given, the ciphertext field holding `PACK_SIZE`
bytes. -/
theorem formatRecord_records (E : Env) (verbose : Bool) (base : List UInt8) (flags : UInt16)
    (blk salt : List UInt8) (pack unp : UInt64) (method : UInt8) (st : Rar3State) :
    (((formatRecord E verbose base flags blk salt pack unp method).run st).run.1.2).bestsize =
        st.bestsize ∧
      ∃ cipher, cipher.length = pack.toNat ∧
        (((formatRecord E verbose base flags blk salt pack unp method).run st).run.1.2).best =
          some (rar3Record base salt ((blk.drop 16).take 4) pack.toNat unp.toNat cipher method) := by
  obtain ⟨bs, hbs⟩ := copyLoop_hex E (pack.toNat / 65536 + 1) pack st
  have hl := copyLoop_length E (pack.toNat / 65536 + 1) pack (by omega) st
  rw [hbs, length_hex] at hl
  refine ⟨?_, bs, by omega, formatRecord_best E verbose base flags blk salt pack unp method st hbs⟩
  have hf := copyLoop_steps incumbentFrame_effects E (pack.toNat / 65536 + 1) pack st
  rcases hrun : ((copyLoop E (pack.toNat / 65536 + 1) pack).run st).run with ⟨⟨_, st'⟩, o⟩
  simp only [StepsFrom, hrun] at hf
  cases verbose <;>
    simp only [formatRecord, StateT.run_bind, OutM.run_bind, Bool.false_eq_true, if_false, if_true,
      StateT.run_pure, OutM.run_pure, hrun, StateT.run_modify, eprint, run_tell] <;>
    exact hf.2

/-- **A complete archive's record holds its packed data.** When the archive holds
`PACK_SIZE` more bytes where the entry's data starts, the record `formatRecord` puts in
`best` carries exactly those bytes as its ciphertext, however many 64 KiB reads they take. -/
theorem formatRecord_reads_cipher (E : Env) (verbose : Bool) (base : List UInt8)
    (flags : UInt16) (blk salt : List UInt8) (pack unp : UInt64) (method : UInt8) (st : Rar3State)
    (h : st.fp.pos + pack.toNat ≤ st.fp.data.length) :
    (((formatRecord E verbose base flags blk salt pack unp method).run st).run.1.2).best =
      some (rar3Record base salt ((blk.drop 16).take 4) pack.toNat unp.toNat
        ((st.fp.data.drop st.fp.pos).take pack.toNat) method) :=
  formatRecord_best E verbose base flags blk salt pack unp method st
    (copyLoop_reads E _ pack st (by omega) h)

/-- Sixteen bytes of packed data, the archive holding twenty from the read position. -/
theorem formatRecord_reads_cipher_at_sixteen :
    (walkInit ⟨(List.range 20).map Nat.toUInt8, 0, false⟩).fp.pos + (16 : UInt64).toNat ≤
        (walkInit ⟨(List.range 20).map Nat.toUInt8, 0, false⟩).fp.data.length ∧
      (((formatRecord jtrBuild false (ascii "a.rar") 0x8004 [] [] 16 16 0x33).run
          (walkInit ⟨(List.range 20).map Nat.toUInt8, 0, false⟩)).run.1.2).best =
        some (rar3Record (ascii "a.rar") [] [] 16 16 ((List.range 16).map Nat.toUInt8) 0x33) :=
  ⟨by decide, formatRecord_reads_cipher jtrBuild false _ 0x8004 [] [] 16 16 0x33 _ (by decide)⟩

/-! ## `best` records `bestsize` -/

/-- `best` is empty while `bestsize` is the initial sentinel, and otherwise the record of
the entry `bestsize` describes. -/
def IncumbentRecorded (base : List UInt8) (st : Rar3State) : Prop :=
  match st.best with
  | none => st.bestsize = Bestsize.init
  | some r => ∃ salt crc cipher, cipher.length = st.bestsize.pack.toNat ∧
      r = rar3Record base salt crc st.bestsize.pack.toNat st.bestsize.unp.toNat cipher
        st.bestsize.method

/-- Steps that keep `IncumbentRecorded`. -/
def recordKept (base : List UInt8) : StepRel Rar3State where
  rel a b _ := IncumbentRecorded base a → IncumbentRecorded base b
  refl _ := id
  trans h₁ h₂ := h₂ ∘ h₁

theorem recordKept_effects (base : List UInt8) : Rar3Effects (recordKept base) :=
  ⟨fun _ _ _ => id, fun _ _ => id, fun _ _ _ => id, fun _ _ => id⟩

/-- **Step.** A new incumbent's `bestsize` and record are written together. -/
theorem setsIncumbent_recordKept (E : Env) (verbose : Bool) (base blk : List UInt8) :
    SetsIncumbent (recordKept base) E verbose base blk := by
  intro salt pack unp _ st _
  simp only [StepsFrom, StateT.run_bind, OutM.run_bind, StateT.run_modify, StateT.run_pure,
    OutM.run_pure]
  obtain ⟨hsize, cipher, hlen, hbest⟩ := formatRecord_records E verbose base (le16 blk 3) blk salt
    pack unp (blk.getD 25 0) { st with bestsize := ⟨pack, unp, blk.getD 25 0⟩ }
  unfold IncumbentRecorded
  rw [hbest, hsize]
  exact ⟨salt, _, cipher, hlen, rfl⟩

/-- **Run.** Every run of the walk, from any state, keeps `IncumbentRecorded`. -/
theorem walk_keeps_record (E : Env) (verbose : Bool) (name base : List UInt8) (type : Nat)
    (fuel : Nat) : Steps (recordKept base) (loopFuel (nextFileHeader E verbose name base type) fuel) :=
  Steps.loopFuel (nextFileHeader_steps (recordKept_effects base) E verbose name base
    (fun _ _ _ => id) type (fun _ => True) (fun _ => Or.inl trivial)
    (fun blk _ => setsIncumbent_recordKept E verbose base blk) fun _ _ _ => id) fuel

/-- **`best` always records `bestsize`.** However many headers the walk reads, with or
without `-v`, in either mode: `best` is empty while `bestsize` is the sentinel, and
otherwise the `$RAR3$*1*` record of the entry `bestsize` describes, with `PACK_SIZE`
bytes of ciphertext. -/
theorem walk_records_incumbent (E : Env) (verbose : Bool) (name base : List UInt8) (type : Nat)
    (fp : Stream) (fuel : Nat) :
    IncumbentRecorded base
      ((loopFuel (nextFileHeader E verbose name base type) fuel).run (walkInit fp)).run.1.2 :=
  walk_keeps_record E verbose name base type fuel (walkInit fp) rfl

/-! ## Standard output -/

theorem bailOut_stdout (E : Env) (verbose : Bool) (base : List UInt8) (st : Rar3State) :
    ((bailOut E verbose base).run st).run.2.stdout =
      match st.best with
      | some r => if r.headD 0 ≠ 0 then
          r ++ cstrTake st.gecos (E.lineBufferSize.toUInt64 - st.bestLen - 1).toNat ++ ascii "\n"
        else []
      | none => [] := by
  have h0 : (∅ : Output).stdout = [] := rfl
  unfold bailOut
  rcases hb : st.best with _ | r <;>
    simp only [StateT.run_bind, OutM.run_bind, StateT.run_get, OutM.run_pure, hb]
  · simp [eprint, run_tell, h0]
  · split_ifs <;> simp [eprint, print, run_tell, h0]

/-- The 32 bytes `next_file_header` reads at `pos` of the archive `d`. -/
def headerAt (d : List UInt8) (pos : Nat) : List UInt8 := (d.drop pos).take 32

/-- The incumbent, if there is one, was chosen from a header block of the archive `d` whose
flags passed `process_file`'s tests: its record's CRC is that block's bytes 16 to 19, its
method that block's byte 25, and its ciphertext `PACK_SIZE` bytes long. -/
def EncryptedIncumbent (d base : List UInt8) (st : Rar3State) : Prop :=
  match st.best with
  | none => True
  | some r => ∃ pos, CandidateFlags (le16 (headerAt d pos) 3) ∧ ∃ salt cipher,
      cipher.length = st.bestsize.pack.toNat ∧
      r = rar3Record base salt (((headerAt d pos).drop 16).take 4) st.bestsize.pack.toNat
        st.bestsize.unp.toNat cipher ((headerAt d pos).getD 25 0)

/-- Steps that stay within one archive. -/
def sameArchive : StepRel Rar3State where
  rel a b _ := b.fp.data = a.fp.data
  refl _ := rfl
  trans h₁ h₂ := h₂.trans h₁

theorem sameArchive_effects : Rar3Effects sameArchive :=
  ⟨fun _ _ h => h, fun _ _ => rfl, fun _ _ _ => rfl, fun _ _ => rfl⟩

/-- Steps within the archive `d` that keep `EncryptedIncumbent`. -/
def fromEncrypted (d base : List UInt8) : StepRel Rar3State where
  rel a b _ := a.fp.data = d →
    b.fp.data = d ∧ (EncryptedIncumbent d base a → EncryptedIncumbent d base b)
  refl _ h := ⟨h, id⟩
  trans h₁ h₂ h := ⟨(h₂ (h₁ h).1).1, (h₂ (h₁ h).1).2 ∘ (h₁ h).2⟩

theorem fromEncrypted_effects (d base : List UInt8) : Rar3Effects (fromEncrypted d base) :=
  ⟨fun _ _ hfp h => ⟨hfp.trans h, id⟩, fun _ _ h => ⟨h, id⟩, fun _ _ _ h => ⟨h, id⟩,
    fun _ _ h => ⟨h, id⟩⟩

/-- **Step.** A header block read from the archive, whose flags passed the tests, becomes
the incumbent together with its record. -/
theorem setsIncumbent_fromEncrypted (E : Env) (verbose : Bool) (d base : List UInt8) (pos : Nat) :
    SetsIncumbent (fromEncrypted d base) E verbose base (headerAt d pos) := by
  intro salt pack unp hflags st hst
  simp only [StepsFrom, StateT.run_bind, OutM.run_bind, StateT.run_modify, StateT.run_pure,
    OutM.run_pure]
  have hdata := formatRecord_steps sameArchive_effects E verbose base (fun _ _ _ => rfl)
    (le16 (headerAt d pos) 3) (headerAt d pos) salt pack unp ((headerAt d pos).getD 25 0)
    { st with bestsize := ⟨pack, unp, (headerAt d pos).getD 25 0⟩ }
  obtain ⟨hsize, cipher, hlen, hbest⟩ := formatRecord_records E verbose base (le16 (headerAt d pos) 3)
    (headerAt d pos) salt pack unp ((headerAt d pos).getD 25 0)
    { st with bestsize := ⟨pack, unp, (headerAt d pos).getD 25 0⟩ }
  refine ⟨hdata.trans hst, fun _ => ?_⟩
  unfold EncryptedIncumbent
  rw [hbest, hsize]
  exact ⟨pos, hflags, salt, cipher, hlen, rfl⟩

/-- **Run.** Every run of the walk within the archive `d` keeps `EncryptedIncumbent`: the
blocks `next_file_header` reads are the archive's own. -/
theorem walk_keeps_encrypted (E : Env) (verbose : Bool) (d name base : List UInt8) (type : Nat)
    (fuel : Nat) :
    Steps (fromEncrypted d base) (loopFuel (nextFileHeader E verbose name base type) fuel) := by
  refine Steps.loopFuel (nextFileHeader_steps (fromEncrypted_effects d base) E verbose name base
    (fun _ _ _ h => ⟨h, id⟩) type (fun blk => ∃ pos, blk = headerAt d pos) (fun st => ?_)
    (fun _ ⟨pos, hblk⟩ => hblk ▸ setsIncumbent_fromEncrypted E verbose d base pos)
    fun _ _ _ h => ⟨h, id⟩) fuel
  by_cases hd : st.fp.data = d
  · exact Or.inl ⟨st.fp.pos, by rw [← hd]; rfl⟩
  · exact Or.inr fun _ _ h => absurd h hd

/-- **The incumbent comes from an encrypted file header.** However many headers the walk
reads, with or without `-v`, in either mode: if it chose an incumbent, the archive holds a
32-byte header block with 0x8000 set that is encrypted, not solid and not a directory, and
the incumbent's record carries that block's CRC and method. -/
theorem walk_incumbent_from_encrypted_header (E : Env) (verbose : Bool) (name base : List UInt8)
    (type : Nat) (fp : Stream) (fuel : Nat) :
    EncryptedIncumbent fp.data base
      ((loopFuel (nextFileHeader E verbose name base type) fuel).run (walkInit fp)).run.1.2 :=
  (walk_keeps_encrypted E verbose fp.data name base type fuel (walkInit fp) rfl).2 trivial

end Rar2John
