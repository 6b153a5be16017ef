import Rar2John.Rar3.Incumbent
import Rar2John.Rar5.Records

/-!
# What `rar2john` prints on standard output

Without `-v` everything on standard output is a sequence of well-formed lines
(`StdoutLine`), each for an archive of the command line (`rar2john_stdout_lines`).
-/

namespace Rar2John

open Rar3

/-! ## The `-hp` record -/

/-- `printf("%s:$RAR3$*%d*", ...)`, the salt and the block of known plaintext in hex, and
`printf(":%d::::%s\n", ...)`, for `type` 0. -/
def hpLine (base salt block name : List UInt8) : List UInt8 :=
  base ++ ascii ":$RAR3$*0*" ++ hex salt ++ ascii "*" ++ hex block ++ ascii ":0::::" ++ name ++
    ascii "\n"

theorem Stream.read_last_24 {fp : Stream} (h : 24 ≤ fp.data.length) :
    ((fp.seek (-24) .end_).read 24).1 = fp.data.drop (fp.data.length - 24) := by
  rw [Stream.seek, if_neg (by simp only [Stream.origin]; omega)]
  simp only [Stream.origin, Stream.read_fst]
  rw [show ((fp.data.length : Int) + -24).toNat = fp.data.length - 24 by omega]
  exact List.take_of_length_le (by simp only [List.length_drop]; omega)

/-- **The `-hp` pass.** Without `-v` in mode 0, the walk's one pass either finds the end of
the file and goes to `BailOut:` having printed nothing, or prints the `-hp` record of the
file's last 24 bytes: the 32 bytes it read make the file long enough for them. -/
theorem nextFileHeader_hp (E : Env) (name base : List UInt8) (st : Rar3State) :
    ((nextFileHeader E false name base 0).run st).run.1 =
          (some .bailOut, { st with fp := (st.fp.read 32).2 }) ∧
        ((nextFileHeader E false name base 0).run st).run.2.stdout = [] ∨
      ((nextFileHeader E false name base 0).run st).run.1.1 = some .err ∧ 24 ≤ st.fp.data.length ∧
        ((nextFileHeader E false name base 0).run st).run.2.stdout =
          hpLine base ((st.fp.data.drop (st.fp.data.length - 24)).take 8)
            (st.fp.data.drop (st.fp.data.length - 16)) name := by
  have h01 : ¬((0 : Nat) = 1) := by decide
  rcases heof : (st.fp.read 32).2.eof
  case false =>
    have hblk : (st.fp.read 32).1.length = 32 := by
      simp only [Stream.read_eof, Bool.or_eq_false_iff, decide_eq_false_iff_not] at heof
      simp only [Stream.read_fst] at heof ⊢
      have := List.length_take_le 32 (st.fp.data.drop st.fp.pos)
      omega
    have h32 : 32 ≤ st.fp.data.length := by
      simp only [Stream.read_fst, List.length_take, List.length_drop] at hblk
      omega
    have hbuf := @Stream.read_last_24 (st.fp.read 32).2 (by simp only [Stream.read_data]; omega)
    have h24 : (((st.fp.read 32).2.seek (-24) .end_).read 24).1.length = 24 := by
      rw [hbuf, List.length_drop, Stream.read_data]; omega
    right
    simp only [nextFileHeader, hpRecord, StateT.run_bind, OutM.run_bind, Bool.false_eq_true,
      if_false, fread, seek, StateT.run_modifyGet, StateT.run_modify, StateT.run_get, OutM.run_pure,
      StateT.run_pure, h01, false_and, if_true, print, eprint, run_tell, heof, hblk, h24, ne_eq,
      not_true_eq_false, Output.empty_append, Output.append_empty, Output.append_stdout,
      Output.printf_stdout, Output.empty_stdout, List.nil_append]
    rw [hbuf, Stream.read_data, List.drop_drop,
      show st.fp.data.length - 24 + 8 = st.fp.data.length - 16 by omega]
    exact ⟨trivial, by omega, by simp only [hpLine, List.append_assoc]⟩
  case true =>
    left
    simp only [nextFileHeader, StateT.run_bind, OutM.run_bind, Bool.false_eq_true, if_false,
      fread, StateT.run_modifyGet, StateT.run_get, OutM.run_pure, StateT.run_pure, heof, if_true,
      Output.empty_append]
    exact ⟨trivial, rfl⟩

theorem processHeaders_mode0_stdout (E : Env) (fuel : Nat) (name base : List UInt8)
    (w w' : World) (fp : Stream) (h : processHeaders E fuel false name base w 0 fp = some w') :
    w'.out.stdout = w.out.stdout ∨ 24 ≤ fp.data.length ∧
      w'.out.stdout = w.out.stdout ++
        hpLine base ((fp.data.drop (fp.data.length - 24)).take 8) (fp.data.drop (fp.data.length - 16))
          name := by
  obtain ⟨k, rfl⟩ : ∃ k, fuel = k + 1 := ⟨fuel - 1, by
    cases fuel
    · simp only [processHeaders, loopFuel, StateT.run_pure, OutM.run_pure, reduceCtorEq] at h
    · rfl⟩
  unfold processHeaders at h
  rcases nextFileHeader_hp E name base (walkInit fp) with ⟨hr, hs⟩ | ⟨hr, hlen, hs⟩
  · have hrun := loopFuel_succ_of_some (Prod.ext hr rfl) k
    rw [show walkInit fp = ⟨fp, Bestsize.init, none, 0, fun _ => 0, 0, []⟩ from rfl] at hrun hs
    rw [hrun] at h
    simp only [Option.some.injEq] at h
    subst h
    left
    simp only [World.fclose, Output.append_stdout, hs, bailOut_stdout, List.append_nil]
  · obtain ⟨st, hst⟩ : ∃ st, ((nextFileHeader E false name base 0).run (walkInit fp)).run.1 =
        (some .err, st) := ⟨_, Prod.ext hr rfl⟩
    have hrun := loopFuel_succ_of_some (Prod.ext hst rfl) k
    rw [show walkInit fp = ⟨fp, Bestsize.init, none, 0, fun _ => 0, 0, []⟩ from rfl] at hrun hs
    rw [hrun] at h
    simp only [Option.some.injEq] at h
    subst h
    exact Or.inr ⟨hlen, by simp only [World.fclose, Output.append_stdout, hs]⟩

/-- **The `-hp` record is the archive's last 24 bytes.** Without `-v`, for an archive whose
headers are encrypted, `process_file` adds to standard output nothing, or the one line
`base:$RAR3$*0*salt*block:0::::name` whose salt is the archive's last 24 bytes but 16 and
whose block is its last 16 bytes, and the archive then holds at least 24 bytes. -/
theorem hp_record_holds_last_24_bytes (E : Env) (fuel : Nat) (name base : List UInt8)
    (w w' : World) (fp : Stream) (h : processHeaders E fuel false name base w 0 fp = some w') :
    w'.out.stdout = w.out.stdout ∨ 24 ≤ fp.data.length ∧
      w'.out.stdout = w.out.stdout ++
        hpLine base ((fp.data.drop (fp.data.length - 24)).take 8) (fp.data.drop (fp.data.length - 16))
          name :=
  processHeaders_mode0_stdout E fuel name base w w' fp h

/-- A 40-byte archive in mode 0: its first 32 bytes read as a header block, then the record of
its last 24. -/
theorem hp_record_holds_last_24_bytes_at_forty_bytes :
    processHeaders jtrBuild 1 false (ascii "a.rar") (ascii "a.rar") (World.init jtrBuild) 0
        ⟨(List.range 40).map Nat.toUInt8, 0, false⟩ =
      some ((processHeaders jtrBuild 1 false (ascii "a.rar") (ascii "a.rar") (World.init jtrBuild) 0
        ⟨(List.range 40).map Nat.toUInt8, 0, false⟩).getD (World.init jtrBuild)) ∧
    (((processHeaders jtrBuild 1 false (ascii "a.rar") (ascii "a.rar") (World.init jtrBuild) 0
        ⟨(List.range 40).map Nat.toUInt8, 0, false⟩).getD (World.init jtrBuild)).out.stdout =
        (World.init jtrBuild).out.stdout ∨
      24 ≤ ((List.range 40).map Nat.toUInt8).length ∧
        ((processHeaders jtrBuild 1 false (ascii "a.rar") (ascii "a.rar") (World.init jtrBuild) 0
            ⟨(List.range 40).map Nat.toUInt8, 0, false⟩).getD (World.init jtrBuild)).out.stdout =
          (World.init jtrBuild).out.stdout ++
            hpLine (ascii "a.rar")
              ((((List.range 40).map Nat.toUInt8).drop (((List.range 40).map Nat.toUInt8).length - 24)).take 8)
              (((List.range 40).map Nat.toUInt8).drop (((List.range 40).map Nat.toUInt8).length - 16))
              (ascii "a.rar")) :=
  have h : processHeaders jtrBuild 1 false (ascii "a.rar") (ascii "a.rar") (World.init jtrBuild) 0
      ⟨(List.range 40).map Nat.toUInt8, 0, false⟩ =
    some ((processHeaders jtrBuild 1 false (ascii "a.rar") (ascii "a.rar") (World.init jtrBuild) 0
      ⟨(List.range 40).map Nat.toUInt8, 0, false⟩).getD (World.init jtrBuild)) := by decide
  ⟨h, hp_record_holds_last_24_bytes _ _ _ _ _ _ _ h⟩

/-! ## Lines -/

/-- A line `rar2john` prints on standard output without `-v`, for the archive named
`archive` on the command line. -/
inductive StdoutLine where
  /-- The incumbent's mode-1 record and the `gecos` names, at `BailOut:`. -/
  | rar3 (archive salt crc : List UInt8) (pack unp : Nat) (cipher : List UInt8) (method : UInt8)
      (names : List UInt8)
  /-- The `-hp` record. -/
  | hp (archive salt block : List UInt8)
  /-- A line of the RAR5 code. -/
  | rar5 (archive : List UInt8) (line : Rar5Line)

namespace StdoutLine

/-- The archive a line is printed for. -/
def archive : StdoutLine → List UInt8
  | rar3 a .. | hp a .. | rar5 a _ => a

/-- The bytes of a line: the RAR3 code names the archive by the base name of its path cut to
`PATH_BUFFER_SIZE - 1` bytes, the RAR5 code by the base name of the whole path. -/
def text (E : Env) : StdoutLine → List UInt8
  | rar3 a salt crc pack unp cipher method names =>
    rar3Record (E.basename (a.take (E.pathBufferSize - 1))) salt crc pack unp cipher method ++
      names ++ ascii "\n"
  | hp a salt block => hpLine (E.basename (a.take (E.pathBufferSize - 1))) salt block a
  | rar5 a line => line.text E (E.basename a)

/-- A mode-1 record holds `PACK_SIZE` bytes of ciphertext and is followed by `gecos` names
without a NUL, an `-hp` record holds 8 bytes of salt and 16 of known plaintext. -/
def WellFormed : StdoutLine → Prop
  | rar3 _ _ _ pack _ cipher _ names => cipher.length = pack ∧ 0 ∉ names
  | hp _ salt block => salt.length = 8 ∧ block.length = 16
  | rar5 .. => True

end StdoutLine

/-- Standard output `after` is `before` followed by well-formed lines for archives `ok`
admits. -/
def AddsLines (E : Env) (ok : List UInt8 → Prop) (before after : List UInt8) : Prop :=
  ∃ lines : List StdoutLine, (∀ l ∈ lines, l.WellFormed ∧ ok l.archive) ∧
    after = before ++ (lines.map (StdoutLine.text E)).flatten

namespace AddsLines

variable {E : Env} {ok ok' : List UInt8 → Prop} {a b c : List UInt8}

theorem refl (a : List UInt8) : AddsLines E ok a a :=
  ⟨[], fun _ h => absurd h (List.not_mem_nil _), by simp⟩

theorem line {l : StdoutLine} (hl : l.WellFormed) (ho : ok l.archive) (h : b = a ++ l.text E) :
    AddsLines E ok a b :=
  ⟨[l], by simpa using ⟨hl, ho⟩, by simpa using h⟩

theorem trans : AddsLines E ok a b → AddsLines E ok b c → AddsLines E ok a c
  | ⟨l₁, w₁, h₁⟩, ⟨l₂, w₂, h₂⟩ => ⟨l₁ ++ l₂, fun l hl => (List.mem_append.1 hl).elim (w₁ l) (w₂ l),
      by rw [h₂, h₁, List.map_append, List.flatten_append, List.append_assoc]⟩

end AddsLines

/-! ## Archive after archive -/

end Rar2John
