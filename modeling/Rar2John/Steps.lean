import Rar2John.Run

/-!
# Relations every step keeps

`Steps R m`: every run of `m` relates its start, its end and its output by `R`; closed
under `bind`, `if` and the fuelled loop.
-/

namespace Rar2John

/-- A relation between the state before, the state after and the output of a computation
that holds of doing nothing and composes along runs. -/
structure StepRel (σ : Type) where
  rel : σ → σ → Output → Prop
  refl : ∀ s, rel s s ∅
  trans : ∀ {a b c o₁ o₂}, rel a b o₁ → rel b c o₂ → rel a c (o₁ ++ o₂)

variable {σ α β γ : Type}

/-- From `st`, `m` ends in a state and an output that `R` relates to `st`. -/
def StepsFrom (R : StepRel σ) (m : StateT σ OutM α) (st : σ) : Prop :=
  R.rel st (m.run st).run.1.2 (m.run st).run.2

/-- From every state, `m` ends in a state and an output that `R` relates to it. -/
def Steps (R : StepRel σ) (m : StateT σ OutM α) : Prop := ∀ st, StepsFrom R m st

variable {R R' : StepRel σ}

theorem StepsFrom.bind_run {x : StateT σ OutM α} {f : α → StateT σ OutM β} {st : σ}
    (hx : StepsFrom R x st) (hf : StepsFrom R (f (x.run st).run.1.1) (x.run st).run.1.2) :
    StepsFrom R (x >>= f) st := by
  simpa only [StepsFrom, StateT.run_bind, OutM.run_bind] using R.trans hx hf

theorem StepsFrom.bind {x : StateT σ OutM α} {f : α → StateT σ OutM β} {st : σ}
    (hx : StepsFrom R x st) (hf : ∀ a, Steps R (f a)) : StepsFrom R (x >>= f) st :=
  hx.bind_run (hf _ _)

theorem StepsFrom.pure (a : α) (st : σ) : StepsFrom R (Pure.pure a : StateT σ OutM α) st :=
  R.refl st

theorem StepsFrom.set {st s : σ} (h : R.rel st s ∅) : StepsFrom R (set s : StateT σ OutM PUnit) st :=
  h

theorem StepsFrom.ite_bind {c : Prop} {_ : Decidable c} {x y : StateT σ OutM α}
    {f : α → StateT σ OutM β} {st : σ} (hx : c → StepsFrom R x st) (hy : ¬c → StepsFrom R y st)
    (hf : ∀ a, Steps R (f a)) : StepsFrom R (if c then x >>= f else y >>= f) st := by
  split
  · exact (hx ‹_›).bind hf
  · exact (hy ‹_›).bind hf

namespace Steps

theorem bind {x : StateT σ OutM α} {f : α → StateT σ OutM β} (hx : Steps R x)
    (hf : ∀ a, Steps R (f a)) : Steps R (x >>= f) := fun st => (hx st).bind hf

theorem pure (a : α) : Steps R (Pure.pure a : StateT σ OutM α) := StepsFrom.pure a

theorem get : Steps R (MonadState.get : StateT σ OutM σ) := R.refl

theorem modify {g : σ → σ} (h : ∀ st, R.rel st (g st) ∅) : Steps R (modify g : StateT σ OutM PUnit) :=
  h

theorem get_bind {f : σ → StateT σ OutM α} (h : ∀ st, StepsFrom R (f st) st) :
    Steps R (MonadState.get >>= f) := fun st => by
  simpa only [StepsFrom, StateT.run_bind, OutM.run_bind, StateT.run_get, OutM.run_pure,
    Output.empty_append] using h st

theorem ite {c : Prop} {_ : Decidable c} {x y : StateT σ OutM α} (hx : c → Steps R x)
    (hy : ¬c → Steps R y) : Steps R (if c then x else y) := by
  split
  · exact hx ‹_›
  · exact hy ‹_›

theorem ite_bind {c : Prop} {_ : Decidable c} {x y : StateT σ OutM α} {f : α → StateT σ OutM β}
    (hx : c → Steps R x) (hy : ¬c → Steps R y) (hf : ∀ a, Steps R (f a)) :
    Steps R (if c then x >>= f else y >>= f) :=
  ite (fun h => (hx h).bind hf) (fun h => (hy h).bind hf)

theorem ite_bind_bind {c : Prop} {_ : Decidable c} {x₁ : StateT σ OutM γ} {x₂ y : StateT σ OutM α}
    {f : α → StateT σ OutM β} (hx₁ : c → Steps R x₁) (hx₂ : c → Steps R x₂) (hy : ¬c → Steps R y)
    (hf : ∀ a, Steps R (f a)) : Steps R (if c then x₁ >>= fun _ => x₂ >>= f else y >>= f) :=
  ite (fun h => (hx₁ h).bind fun _ => (hx₂ h).bind hf) (fun h => (hy h).bind hf)

theorem ite_bind_bind' {c : Prop} {_ : Decidable c} {y₁ : StateT σ OutM γ} {x y₂ : StateT σ OutM α}
    {f : α → StateT σ OutM β} (hx : c → Steps R x) (hy₁ : ¬c → Steps R y₁) (hy₂ : ¬c → Steps R y₂)
    (hf : ∀ a, Steps R (f a)) : Steps R (if c then x >>= f else y₁ >>= fun _ => y₂ >>= f) :=
  ite (fun h => (hx h).bind hf) (fun h => (hy₁ h).bind fun _ => (hy₂ h).bind hf)

theorem discard {x : StateT σ OutM α} (h : Steps R x) : Steps R (discard x) :=
  h.bind fun _ => pure _

/-- **Run.** A pass that keeps `R` keeps it over the whole fuelled loop. -/
theorem loopFuel {pass : StateT σ OutM (Option α)} (h : Steps R pass) :
    ∀ fuel, Steps R (Rar2John.loopFuel pass fuel)
  | 0 => pure _
  | fuel + 1 => h.bind fun r => by
    split
    · exact pure _
    · exact loopFuel h fuel

end Steps

end Rar2John
