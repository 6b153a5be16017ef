import Rar2John.Steps
import Rar2John.Rar3.File

/-!
# What the RAR3 header walk can do

`Rar3Effects R` lists what a step of the walk may do; every function of the walk keeps any
such `R`, given the choice of the incumbent as a hypothesis.
-/

namespace Rar2John

open Rar3

/-- A relation on the walk's steps that allows moving `fp` within the archive, filling the
copy loop's buffer, changing `gecos` and writing to standard error. -/
structure Rar3Effects (R : StepRel Rar3State) : Prop where
  fp : ∀ st fp, fp.data = st.fp.data → R.rel st { st with fp } ∅
  bytes : ∀ st bytes, R.rel st { st with bytes } ∅
  gecos : ∀ st gecos gecosLen, R.rel st { st with gecos, gecosLen } ∅
  eprint : ∀ st s, R.rel st st (Output.empty.eprintf s)

section Primitives

variable {R : StepRel Rar3State}

theorem Steps.print {s : List UInt8} (h : ∀ st, R.rel st st (Output.empty.printf s)) :
    Steps R (Rar3.print s) := fun st => by
  simpa only [StepsFrom, Rar3.print, run_tell] using h st

namespace Rar3Effects

variable (hR : Rar3Effects R)
include hR

theorem fread (n : Nat) : Steps R (Rar3.fread n) := fun st => hR.fp st _ rfl

theorem seek (off : Int) (whence : Whence) : Steps R (Rar3.seek off whence) := fun st =>
  hR.fp st _ (Stream.seek_data _ _ _)

theorem fread_bind {α : Type} {n : Nat} {f : List UInt8 → Rar3M α} (W : List UInt8 → Prop)
    (hW : ∀ st, W (st.fp.read n).1 ∨ ∀ b o, R.rel st b o) (hf : ∀ bs, W bs → Steps R (f bs)) :
    Steps R (Rar3.fread n >>= f) := fun st => by
  rcases hW st with hw | hvac
  · exact (hR.fread n st).bind_run (hf _ hw _)
  · exact hvac _ _

theorem eprint' (s : List UInt8) : Steps R (Rar3.eprint s) := fun st => by
  simpa only [StepsFrom, Rar3.eprint, run_tell] using hR.eprint st s

end Rar3Effects

end Primitives

section Walk

variable {R : StepRel Rar3State} (hR : Rar3Effects R) (E : Env) (verbose : Bool)
  (archiveName base : List UInt8)
include hR

theorem copyLoop_steps : ∀ (fuel : Nat) (bytesLeft : UInt64), Steps R (copyLoop E fuel bytesLeft)
  | 0, _ => Steps.pure _
  | fuel + 1, bytesLeft => by
    rw [copyLoop]
    repeat'
      with_reducible first
      | refine Steps.bind ?_ fun _ => ?_
      | refine Steps.ite_bind (fun _ => ?_) (fun _ => ?_) fun _ => ?_
      | refine Steps.ite (fun _ => ?_) (fun _ => ?_)
      | exact hR.eprint' _
      | exact Steps.pure _
      | exact hR.fread _
      | exact Steps.get
      | exact Steps.modify fun st => hR.bytes st _
      | exact copyLoop_steps fuel _

theorem highSizes_steps (pack unp : UInt64) (extTimeSize : Int) :
    Steps R (highSizes E verbose archiveName pack unp extTimeSize) := by
  unfold highSizes
  dsimp only
  repeat'
    with_reducible first
    | refine Steps.bind ?_ fun _ => ?_
    | refine Steps.ite_bind (fun _ => ?_) (fun _ => ?_) fun _ => ?_
    | refine Steps.ite (fun _ => ?_) (fun _ => ?_)
    | exact hR.eprint' _
    | exact Steps.pure _
    | exact hR.fread _

theorem formatRecord_steps (hbest : ∀ st best bestLen, R.rel st { st with best, bestLen } ∅)
    (flags : UInt16) (blk salt : List UInt8) (pack unp : UInt64) (method : UInt8) :
    Steps R (formatRecord E verbose base flags blk salt pack unp method) := by
  unfold formatRecord
  dsimp only
  repeat'
    with_reducible first
    | refine Steps.bind ?_ fun _ => ?_
    | refine Steps.ite_bind (fun _ => ?_) (fun _ => ?_) fun _ => ?_
    | refine Steps.ite_bind_bind (fun _ => ?_) (fun _ => ?_) (fun _ => ?_) fun _ => ?_
    | exact hR.eprint' _
    | exact Steps.pure _
    | exact Steps.modify fun st => hbest st _ _
    | exact copyLoop_steps hR E _ _

theorem hpRecord_steps (hprint : ∀ st s, R.rel st st (Output.empty.printf s)) :
    Steps R (hpRecord E verbose archiveName base) := by
  unfold hpRecord
  repeat'
    with_reducible first
    | refine Steps.bind ?_ fun _ => ?_
    | refine Steps.ite_bind (fun _ => ?_) (fun _ => ?_) fun _ => ?_
    | refine Steps.ite (fun _ => ?_) (fun _ => ?_)
    | exact hR.eprint' _
    | exact Steps.pure _
    | exact hR.fread _
    | exact hR.seek _ _
    | exact Steps.print fun st => hprint st _

variable (hprint : verbose = true → ∀ st s, R.rel st st (Output.empty.printf s))
include hprint

theorem decodeName_steps (fileName : List UInt8) (fileNameSize : Nat) :
    Steps R (decodeName E verbose fileName fileNameSize) := by
  unfold decodeName
  dsimp only
  repeat'
    with_reducible first
    | refine Steps.bind ?_ fun _ => ?_
    | refine Steps.ite_bind (fun _ => ?_) (fun _ => ?_) fun _ => ?_
    | refine Steps.ite (fun _ => ?_) (fun _ => ?_)
    | exact hR.eprint' _
    | exact Steps.pure _
    | exact Steps.print fun st => hprint ‹_› st _

theorem nameSaltExtTime_steps (flags : UInt16) (blk : List UInt8) (extTimeSize : Int) :
    Steps R (nameSaltExtTime E verbose archiveName flags blk extTimeSize) := by
  unfold nameSaltExtTime
  dsimp only
  repeat'
    with_reducible first
    | refine Steps.get_bind fun _ => ?_
    | refine StepsFrom.ite_bind (fun _ => ?_) (fun _ => ?_) fun _ => ?_
    | refine Steps.bind ?_ fun _ => ?_
    | refine Steps.ite_bind (fun _ => ?_) (fun _ => ?_) fun _ => ?_
    | refine Steps.ite_bind_bind' (fun _ => ?_) (fun _ => ?_) (fun _ => ?_) fun _ => ?_
    | refine Steps.ite (fun _ => ?_) (fun _ => ?_)
    | exact hR.eprint' _
    | exact Steps.pure _
    | exact hR.fread _
    | exact StepsFrom.pure _ _
    | exact StepsFrom.set (hR.gecos _ _ _)
    | exact decodeName_steps hR E verbose hprint _ _

/-- The flags of a file header that `process_file` goes on to compare with its incumbent:
0x8000 set, not solid (0x10), not a directory (dictionary bits 7) and encrypted (0x04). -/
abbrev CandidateFlags (flags : UInt16) : Prop :=
  ¬flags &&& 0x8000 = 0 ∧ ¬flags &&& 0x10 ≠ 0 ∧ ¬(flags &&& 0xe0) >>> 5 = 7 ∧ ¬flags &&& 0x04 = 0

/-- The choice of the header block `blk`, whose flags passed the tests, as the new
incumbent: `bestsize` is set and its record formatted into `best`. -/
abbrev SetsIncumbent (R : StepRel Rar3State) (E : Env) (verbose : Bool) (base blk : List UInt8) :
    Prop :=
  ∀ (salt : List UInt8) (pack unp : UInt64), CandidateFlags (le16 blk 3) →
    Steps R (do
      modify fun st => { st with bestsize := ⟨pack, unp, blk.getD 25 0⟩ }
      formatRecord E verbose base (le16 blk 3) blk salt pack unp (blk.getD 25 0)
      pure none : Rar3M (Option Exit))

theorem fileEntry_steps (blk : List UInt8) (hinc : SetsIncumbent R E verbose base blk) :
    Steps R (fileEntry E verbose archiveName base blk) := by
  unfold fileEntry
  dsimp only
  repeat'
    with_reducible first
    | exact hinc _ _ _ ⟨‹_›, ‹_›, ‹_›, ‹_›⟩
    | refine Steps.bind ?_ fun _ => ?_
    | refine Steps.ite_bind (fun _ => ?_) (fun _ => ?_) fun _ => ?_
    | refine Steps.ite_bind_bind (fun _ => ?_) (fun _ => ?_) (fun _ => ?_) fun _ => ?_
    | refine Steps.ite (fun _ => ?_) (fun _ => ?_)
    | exact hR.eprint' _
    | exact Steps.pure _
    | exact hR.seek _ _
    | exact Steps.get
    | exact highSizes_steps hR E verbose archiveName _ _ _
    | exact nameSaltExtTime_steps hR E verbose archiveName hprint _ _ _
    | split

/-- **Step.** A pass of the header walk keeps every relation that allows what the walk does,
the choice of an incumbent from the header blocks `W` says a read can get and, for an
archive whose header asks for it, the `-hp` record. -/
theorem nextFileHeader_steps (type : Nat) (W : List UInt8 → Prop)
    (hW : ∀ st, W (st.fp.read 32).1 ∨ ∀ b o, R.rel st b o)
    (hinc : ∀ blk, W blk → SetsIncumbent R E verbose base blk)
    (hhp : type = 0 → ∀ st s, R.rel st st (Output.empty.printf s)) :
    Steps R (nextFileHeader E verbose archiveName base type) := by
  unfold nextFileHeader
  dsimp only
  repeat'
    with_reducible first
    | refine hR.fread_bind W hW fun _ _ => ?_
    | refine Steps.bind ?_ fun _ => ?_
    | refine Steps.ite_bind (fun _ => ?_) (fun _ => ?_) fun _ => ?_
    | refine Steps.ite (fun _ => ?_) (fun _ => ?_)
    | exact hR.eprint' _
    | exact Steps.pure _
    | exact Steps.get
    | exact hpRecord_steps hR E verbose archiveName base (hhp ‹_›)
    | exact fileEntry_steps hR E verbose archiveName base hprint _ (hinc _ ‹_›)

end Walk

end Rar2John
