import Rar2John.Rar3.File

/-!
# `rar2john`

The program: `process_file` on each archive named on the command line, in order, with the
globals and the open handles carried from one archive to the next. The options are taken
as parsed (`-v` as `verbose`).
-/

namespace Rar2John

/-- What `usage` prints. -/
def usage (selfName : List UInt8) : List UInt8 :=
  ascii "Usage: " ++ selfName ++ ascii " [-v] <rar file(s)>\n" ++
    ascii " -v\tAdd some verbosity/debug output\n"

/-- The program's state before the first archive. -/
def World.init (E : Env) : World := ⟨Globals.init E, Output.empty, 0⟩

/-- `rar2john` after `getopt`: the exit status and the final state, or `none` when an
archive's walk has not ended within `fuel` headers. -/
def rar2john (E : Env) (fs : FileSystem) (fuel : Nat) (selfName : List UInt8) (verbose : Bool)
    (archives : List (List UInt8)) : Option (Nat × World) :=
  if archives = [] then some (1, (World.init E).eprintf (usage selfName))
  else (archives.foldlM (fun w name => processFile E fs fuel verbose name w) (World.init E)).map
    ((0, ·))

theorem rar2john_of_le_fuel {E : Env} {fs : FileSystem} {k k' : Nat} {selfName : List UInt8}
    {verbose : Bool} {archives : List (List UInt8)} {r : Nat × World}
    (h : rar2john E fs k selfName verbose archives = some r) (hk : k ≤ k') :
    rar2john E fs k' selfName verbose archives = some r := by
  have hfold : ∀ (ws : List (List UInt8)) (w w' : World),
      ws.foldlM (fun w name => processFile E fs k verbose name w) w = some w' →
      ws.foldlM (fun w name => processFile E fs k' verbose name w) w = some w' := by
    intro ws
    induction ws with
    | nil => simp only [List.foldlM_nil]; exact fun _ _ => id
    | cons n ns ih =>
      intro w w' h
      simp only [List.foldlM_cons, Option.bind_eq_bind, Option.bind_eq_some] at h ⊢
      obtain ⟨w₁, h₁, h₂⟩ := h
      exact ⟨w₁, processFile_of_le_fuel h₁ hk, ih w₁ w' h₂⟩
  unfold rar2john at h ⊢
  split_ifs at h ⊢
  · exact h
  · obtain ⟨w, hw, rfl⟩ := Option.map_eq_some'.1 h
    rw [hfold _ _ _ hw]
    rfl

theorem rar2john_map_add_fuel {β : Type} {E : Env} {fs : FileSystem} {k : Nat}
    {selfName : List UInt8} {verbose : Bool} {archives : List (List UInt8)}
    {f : Nat × World → β} {x : β} (h : (rar2john E fs k selfName verbose archives).map f = some x)
    (n : Nat) : (rar2john E fs (n + k) selfName verbose archives).map f = some x := by
  obtain ⟨r, hr, rfl⟩ := Option.map_eq_some'.1 h
  rw [rar2john_of_le_fuel hr (Nat.le_add_left k n)]
  rfl

theorem rar2john_eq_none {E : Env} {fs : FileSystem} {fuel : Nat} {selfName : List UInt8}
    {verbose : Bool} {name : List UInt8} (names : List (List UInt8))
    (h : processFile E fs fuel verbose name (World.init E) = none) :
    rar2john E fs fuel selfName verbose (name :: names) = none := by
  simp [rar2john, h]

/-- A build to run the program on: 64-bit and little-endian, with the header constants of
John the Ripper's unrar and params.h (the spec's 12 for `SIZE_PSWCHECK`), and
`base64_convert_cp` from raw bytes to lowercase hex as its calls ask. The other library
functions are stand-ins: an ASCII-only `utf16_to_utf8_r`, a `basename` that keeps what
follows the last `/`, one `strerror` text, zero stack bytes, and an empty digest. -/
def jtrBuild : Env where
  cryptVersion := 0
  chflCryptPswcheck := 0x01
  mhflVolnumber := 0x02
  fhflUtime := 0x02
  fhflCrc32 := 0x04
  sizePswcheck := 12
  lineBufferSize := 0x400
  pathBufferSize := 0x400
  archLittleEndian := true
  base64ConvertCp := hex
  sha256 := fun _ => []
  utf16ToUtf8 := fun s => s.map (·.toUInt8)
  basename := fun p => (p.reverse.takeWhile (· ≠ 0x2f)).reverse
  strerror := ascii "Input/output error"
  uninit := fun _ => 0

end Rar2John
