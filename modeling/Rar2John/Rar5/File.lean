import Rar2John.Rar5.Header
import Rar2John.Run

/-!
# `process_file5`

The program's state across archives (`World`: the RAR5 globals, the output and the count
of open `FILE` handles) and `process_file5`, which opens the archive again, checks or
finds the RAR5 signature and runs the block loop. The loop can run forever, so it takes
fuel (`loopFuel`), and `processFile5` is `none` when the fuel runs out.
-/

namespace Rar2John

/-- The files the program can open: a path's contents, or `none` when `fopen` fails. -/
abbrev FileSystem := List UInt8 → Option (List UInt8)

/-- What outlives one call of `process_file`: the globals, the output and the number of
`FILE` handles open. -/
structure World where
  g : Globals
  out : Output
  handles : Nat
  deriving DecidableEq, Repr

namespace World

def eprintf (w : World) (s : List UInt8) : World := { w with out := w.out.eprintf s }

/-- `fopen` that succeeded. -/
def fopen (w : World) : World := { w with handles := w.handles + 1 }

/-- `fclose`. -/
def fclose (w : World) : World := { w with handles := w.handles - 1 }

@[simp] theorem eprintf_handles (w : World) (s : List UInt8) : (w.eprintf s).handles = w.handles :=
  rfl

@[simp] theorem fopen_handles (w : World) : w.fopen.handles = w.handles + 1 := rfl

@[simp] theorem fclose_handles (w : World) : w.fclose.handles = w.handles - 1 := rfl

end World

/-- `"! %s: Not a RAR file\n"`. -/
def notARarFile (name : List UInt8) : List UInt8 := ascii "! " ++ name ++ ascii ": Not a RAR file\n"

/-- `"! %s: %s\n"` with `strerror(errno)`, after a failed `fopen`. -/
def openFailed (E : Env) (name : List UInt8) : List UInt8 :=
  ascii "! " ++ name ++ ascii ": " ++ E.strerror ++ ascii "\n"

/-- One pass of the `while (1)` loop of `process_file5`: `some ()` when it breaks. -/
def blockPass (E : Env) (name : List UInt8) : Rar5M (Option Unit) := do
  let curBlockPos := (← get).fp.pos.toUInt64
  let nextBlockPos ← readRar5Header E name curBlockPos
  if nextBlockPos = 0 then return some ()
  Rar5.seek (offT nextBlockPos) .set
  return none

/-- `process_file5` from the block loop on, `fp` standing on the first block: the loop, then
`fclose` and the note when nothing was found. -/
def processBlocks5 (E : Env) (fuel : Nat) (name : List UInt8) (w : World) (fp : Stream) :
    Option (Bool × World) :=
  match ((loopFuel (blockPass E name) fuel).run ⟨fp, w.g, 0, 0⟩).run with
  | ((none, _), _) => none
  | ((some (), st), out) =>
    let w := World.fclose ⟨st.g, w.out ++ out, w.handles⟩
    if st.found = 0 then
      some (true, w.eprintf (ascii "! Did not find a valid encrypted candidate in " ++ name ++
        ascii "\n"))
    else some (true, w)

theorem processBlocks5_of_le_fuel {E : Env} {k k' : Nat} {name : List UInt8} {w : World}
    {fp : Stream} {r : Bool × World} (h : processBlocks5 E k name w fp = some r) (hk : k ≤ k') :
    processBlocks5 E k' name w fp = some r := by
  unfold processBlocks5 at h ⊢
  split at h
  · cases h
  · rename_i heq
    rw [loopFuel_of_le_fuel (by simp [heq]) hk, heq]
    exact h

/-- `process_file5`: `some (r, w)` when it returns `r`, `none` when the block loop has not
ended within `fuel` blocks. -/
def processFile5 (E : Env) (fs : FileSystem) (fuel : Nat) (name : List UInt8) (w : World) :
    Option (Bool × World) :=
  match fs name with
  | none => some (false, w.eprintf (openFailed E name))
  | some data =>
    let w := w.fopen
    let (magic, fp) := (Stream.ofData data).read rar5Magic.length
    if magic.length < rar5Magic.length then
      some (false, (w.eprintf (notARarFile name)).fclose)
    else
    match if magic.take 2 = ascii "MZ" then sfxScan rar5Magic fp else some (false, fp) with
    | none => none
    | some (found, fp) =>
      if magic ≠ rar5Magic ∧ found = false then
        some (false, (w.eprintf (notARarFile name)).fclose)
      else processBlocks5 E fuel name w fp

theorem processFile5_of_le_fuel {E : Env} {fs : FileSystem} {k k' : Nat} {name : List UInt8}
    {w : World} {r : Bool × World} (h : processFile5 E fs k name w = some r) (hk : k ≤ k') :
    processFile5 E fs k' name w = some r := by
  unfold processFile5 at h ⊢
  rcases hfs : fs name with _ | data
  · simpa [hfs] using h
  simp only [hfs] at h ⊢
  split_ifs at h ⊢
  · exact h
  all_goals
    split at h
    · cases h
    split_ifs at h ⊢
    · exact h
    · exact processBlocks5_of_le_fuel h hk

end Rar2John
