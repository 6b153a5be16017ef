import Rar2John.Steps
import Rar2John.Main

/-!
# What the RAR5 walk prints

`Rar5Effects R` lists what a step of the RAR5 walk may do; its standard output is a list of
`Rar5Line`s whose records `found` counts.
-/

namespace Rar2John

open Rar5

/-- A line the RAR5 code prints on standard output. -/
inductive Rar5Line where
  /-- The record of a salt, a log2 iteration count, an IV and a password check. -/
  | record (salt : List UInt8) (lg2Count : Nat) (initV pswCheck : List UInt8)
  | badVersion
  | countTooLarge
  deriving DecidableEq, Repr

namespace Rar5Line

/-- The bytes of a line, for the archive whose base name is `base`. -/
def text (E : Env) (base : List UInt8) : Rar5Line → List UInt8
  | record salt lg2Count initV pswCheck => rar5Record E base salt lg2Count initV pswCheck
  | badVersion => ascii "bad rar crypt version byte\n"
  | countTooLarge => ascii "rar PBKDF2 iteration count too large\n"

def isRecord : Rar5Line → Bool
  | record .. => true
  | _ => false

end Rar5Line

/-- A relation on the RAR5 code's steps that allows every step that keeps `found` and
writes nothing, writing to standard error, the two diagnostics, and a record printed
after `(*found)++`. -/
structure Rar5Effects (R : StepRel Rar5State) (E : Env) (base : List UInt8) : Prop where
  frame : ∀ st st', st'.found = st.found → R.rel st st' ∅
  eprint : ∀ st s, R.rel st st (Output.empty.eprintf s)
  diagnostic : ∀ st (l : Rar5Line), l.isRecord = false →
    R.rel st st (Output.empty.printf (l.text E base))
  record : ∀ st salt lg2Count initV pswCheck, R.rel st { st with found := st.found + 1 }
    (Output.empty.printf (rar5Record E base salt lg2Count initV pswCheck))

namespace Rar5Effects

variable {R : StepRel Rar5State} {E : Env} {base : List UInt8} (hR : Rar5Effects R E base)
include hR

theorem modifyGet {α : Type} {f : Rar5State → α × Rar5State} (h : ∀ st, (f st).2.found = st.found) :
    Steps R (modifyGet f) := fun st => hR.frame st _ (h st)

theorem readUint32 : Steps R readUint32 :=
  hR.modifyGet fun _ => by dsimp only; split <;> rfl

theorem readUint8 : Steps R readUint8 :=
  hR.modifyGet fun _ => by dsimp only; split <;> rfl

theorem readBuf (buf : List UInt8) (len : Nat) : Steps R (readBuf buf len) :=
  hR.modifyGet fun _ => by dsimp only; split <;> rfl

theorem readVuint : Steps R readVuint := hR.modifyGet fun _ => rfl

theorem getVuint : Steps R getVuint := hR.readVuint.bind fun _ => Steps.pure _

theorem getUint8 : Steps R getUint8 := hR.readUint8.bind fun _ => Steps.pure _

theorem getUint32 : Steps R getUint32 := hR.readUint32.bind fun _ => Steps.pure _

theorem getVuintIf (flag : Bool) : Steps R (getVuintIf flag) :=
  Steps.ite (fun _ => hR.getVuint) fun _ => Steps.pure _

theorem setG (f : Globals → Globals) : Steps R (Rar5.setG f) := fun st => hR.frame st _ rfl

theorem seek (off : Int) (whence : Whence) : Steps R (Rar5.seek off whence) :=
  fun st => hR.frame st _ rfl

theorem eprint' (s : List UInt8) : Steps R (Rar5.eprint s) := fun st => by
  simpa only [StepsFrom, Rar5.eprint, run_tell] using hR.eprint st s

theorem print_line (l : Rar5Line) (hl : l.isRecord = false) : Steps R (print (l.text E base)) :=
  fun st => by simpa only [StepsFrom, Rar5.print, run_tell] using hR.diagnostic st l hl

theorem print_badVersion : Steps R (print (ascii "bad rar crypt version byte\n")) :=
  hR.print_line .badVersion rfl

theorem print_countTooLarge : Steps R (print (ascii "rar PBKDF2 iteration count too large\n")) :=
  hR.print_line .countTooLarge rfl

theorem incFound_print_bind {β : Type} {salt initV pswCheck : List UInt8} {lg2Count : Nat}
    {f : PUnit → Rar5M β} (hf : ∀ a, Steps R (f a)) :
    Steps R (incFound >>= fun _ => print (rar5Record E base salt lg2Count initV pswCheck) >>= f) :=
  fun st => by
    have := R.trans (hR.record st salt lg2Count initV pswCheck) (hf () { st with found := st.found + 1 })
    simpa only [StepsFrom, incFound, Rar5.print, StateT.run_bind, OutM.run_bind, StateT.run_modify,
      OutM.run_pure, run_tell, Output.empty_append] using this

theorem incFound_get_print_bind {β : Type} {r : Rar5State → List UInt8}
    (hr : ∀ st, ∃ salt lg2Count initV pswCheck, r st = rar5Record E base salt lg2Count initV pswCheck)
    {f : PUnit → Rar5M β} (hf : ∀ a, Steps R (f a)) :
    Steps R (incFound >>= fun _ => MonadState.get >>= fun st => print (r st) >>= f) := fun st => by
  obtain ⟨salt, lg2Count, initV, pswCheck, hst⟩ := hr { st with found := st.found + 1 }
  have := R.trans (hR.record st salt lg2Count initV pswCheck) (hf () { st with found := st.found + 1 })
  simpa only [StepsFrom, incFound, Rar5.print, StateT.run_bind, OutM.run_bind, StateT.run_modify,
    StateT.run_get, OutM.run_pure, run_tell, Output.empty_append, hst] using this

end Rar5Effects

section Walk

variable {R : StepRel Rar5State} (E : Env) (name : List UInt8) (hR : Rar5Effects R E (E.basename name))
include hR

theorem cryptRecord_steps : Steps R (cryptRecord E name) := by
  unfold cryptRecord
  repeat'
    with_reducible first
    | refine hR.incFound_print_bind fun _ => ?_
    | refine Steps.bind ?_ fun _ => ?_
    | refine Steps.ite (fun _ => ?_) (fun _ => ?_)
    | exact Steps.pure _
    | exact Steps.get
    | exact hR.getVuint
    | exact hR.getUint8
    | exact hR.readBuf _ _
    | exact hR.setG _
    | exact hR.eprint' _
    | split

theorem processExtra50Loop_steps (headerType : UInt8) :
    ∀ (fuel : Nat) (bytesLeft : Int), Steps R (processExtra50Loop E name headerType fuel bytesLeft)
  | 0, _ => Steps.pure _
  | fuel + 1, bytesLeft => by
    rw [processExtra50Loop]
    repeat'
      with_reducible first
      | refine Steps.bind ?_ fun _ => ?_
      | refine Steps.ite (fun _ => ?_) (fun _ => ?_)
      | exact Steps.pure _
      | exact hR.readVuint
      | exact hR.getVuint
      | exact cryptRecord_steps E name hR
      | exact processExtra50Loop_steps headerType fuel _
      | split

theorem processExtra50_steps (extraSize : UInt64) (headerType : UInt8) :
    Steps R (processExtra50 E name extraSize headerType) := by
  unfold processExtra50
  repeat'
    with_reducible first
    | refine Steps.get_bind fun _ => ?_
    | refine StepsFrom.bind ?_ fun _ => ?_
    | refine Steps.bind ?_ fun _ => ?_
    | exact StepsFrom.set (hR.frame _ _ rfl)
    | exact Steps.pure _
    | exact Steps.modify fun _ => hR.frame _ _ rfl
    | exact processExtra50Loop_steps E name hR headerType _ _

theorem cryptHeader_steps : Steps R (cryptHeader E) := by
  unfold cryptHeader
  repeat'
    with_reducible first
    | refine Steps.bind ?_ fun _ => ?_
    | refine Steps.ite (fun _ => ?_) (fun _ => ?_)
    | refine Steps.ite_bind (fun _ => ?_) (fun _ => ?_) fun _ => ?_
    | exact Steps.pure _
    | exact Steps.get
    | exact hR.getVuint
    | exact hR.getUint8
    | exact hR.readBuf _ _
    | exact hR.setG _
    | exact hR.print_badVersion
    | exact hR.print_countTooLarge
    | split

theorem fileHeader_steps (extraSize : UInt64) (headerType : UInt8) :
    Steps R (fileHeader E name extraSize headerType) := by
  unfold fileHeader
  repeat'
    with_reducible first
    | refine Steps.bind ?_ fun _ => ?_
    | refine Steps.ite (fun _ => ?_) (fun _ => ?_)
    | refine Steps.ite_bind (fun _ => ?_) (fun _ => ?_) fun _ => ?_
    | refine Steps.discard ?_
    | exact Steps.pure _
    | exact hR.getVuint
    | exact hR.getUint32
    | exact hR.seek _ _
    | exact processExtra50_steps E name hR _ _
    | split

theorem readHeaderType_steps (headerType : UInt8) (extraSize : UInt64) :
    Steps R (readHeaderType E name headerType extraSize) := by
  unfold readHeaderType
  repeat'
    with_reducible first
    | refine Steps.bind ?_ fun _ => ?_
    | refine Steps.ite (fun _ => ?_) (fun _ => ?_)
    | exact Steps.pure _
    | exact hR.getVuint
    | exact cryptHeader_steps E name hR
    | exact fileHeader_steps E name hR _ _
    | split

theorem readRar5HeaderBody_steps (curBlockPos : UInt64) :
    Steps R (readRar5HeaderBody E name curBlockPos) := by
  unfold readRar5HeaderBody
  repeat'
    with_reducible first
    | refine hR.incFound_get_print_bind (fun _ => ⟨_, _, _, _, rfl⟩) fun _ => ?_
    | refine Steps.bind ?_ fun _ => ?_
    | refine Steps.ite (fun _ => ?_) (fun _ => ?_)
    | exact Steps.pure _
    | exact Steps.get
    | exact hR.readVuint
    | exact hR.readBuf _ _
    | exact hR.getVuint
    | exact hR.getUint8
    | exact hR.getUint32
    | exact hR.getVuintIf _
    | exact hR.eprint' _
    | exact readHeaderType_steps E name hR _ _
    | split

theorem readRar5Header_steps (curBlockPos : UInt64) :
    Steps R (readRar5Header E name curBlockPos) := by
  unfold readRar5Header
  repeat'
    with_reducible first
    | refine Steps.get_bind fun _ => ?_
    | refine StepsFrom.bind ?_ fun _ => ?_
    | refine Steps.bind ?_ fun _ => ?_
    | exact StepsFrom.set (hR.frame _ _ rfl)
    | exact Steps.pure _
    | exact Steps.modify fun _ => hR.frame _ _ rfl
    | exact readRar5HeaderBody_steps E name hR _

/-- **Step.** A pass of the block loop keeps every relation that allows what the RAR5 code
does. -/
theorem blockPass_steps : Steps R (blockPass E name) := by
  unfold blockPass
  repeat'
    with_reducible first
    | refine Steps.bind ?_ fun _ => ?_
    | refine Steps.ite (fun _ => ?_) (fun _ => ?_)
    | exact Steps.pure _
    | exact Steps.get
    | exact hR.seek _ _
    | exact readRar5Header_steps E name hR _

end Walk

/-! ## Standard output is a list of lines, and `found` counts its records -/

/-- Steps whose standard output is a list of `Rar5Line`s and that grow `found` by the
records among them. -/
def rar5Lines (E : Env) (base : List UInt8) : StepRel Rar5State where
  rel a b o := ∃ ls : List Rar5Line, o.stdout = (ls.map (Rar5Line.text E base)).flatten ∧
    b.found = a.found + ls.countP Rar5Line.isRecord
  refl _ := ⟨[], rfl, rfl⟩
  trans := fun ⟨l₁, h₁, f₁⟩ ⟨l₂, h₂, f₂⟩ =>
    ⟨l₁ ++ l₂, by simp only [Output.append_stdout, h₁, h₂, List.map_append, List.flatten_append],
      by rw [f₂, f₁, List.countP_append, Nat.add_assoc]⟩

theorem rar5Lines_effects (E : Env) (base : List UInt8) : Rar5Effects (rar5Lines E base) E base where
  frame _ _ h := ⟨[], rfl, h⟩
  eprint _ _ := ⟨[], rfl, rfl⟩
  diagnostic _ l hl := ⟨[l], by simp, by simp [hl]⟩
  record _ salt lg2Count initV pswCheck :=
    ⟨[.record salt lg2Count initV pswCheck], by simp [Rar5Line.text], rfl⟩

/-- **Run.** The block loop keeps `rar5Lines`. -/
theorem blockWalk_lines (E : Env) (name : List UInt8) (fuel : Nat) :
    Steps (rar5Lines E (E.basename name)) (loopFuel (blockPass E name) fuel) :=
  Steps.loopFuel (blockPass_steps E name (rar5Lines_effects E (E.basename name))) fuel

/-- **`found` counts the records printed.** Every run of the block loop, from any state and
whatever the archive holds, prints on standard output a list of `$rar5$` records and
crypt-header diagnostics, and grows `found` by the number of records among them. -/
theorem blockWalk_stdout_lines (E : Env) (name : List UInt8) (fuel : Nat) (st : Rar5State) :
    ∃ ls : List Rar5Line,
      ((loopFuel (blockPass E name) fuel).run st).run.2.stdout =
          (ls.map (Rar5Line.text E (E.basename name))).flatten ∧
        ((loopFuel (blockPass E name) fuel).run st).run.1.2.found =
          st.found + ls.countP Rar5Line.isRecord :=
  blockWalk_lines E name fuel st

end Rar2John
