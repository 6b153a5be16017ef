import Rar2John.Stdio

/-!
# Computations of the model

`StateT σ OutM α` computations, the fuelled loop `loopFuel` for the program's `while (1)`
walks, and `Post`, a postcondition closed under `bind`.
-/

namespace Rar2John

variable {σ α β : Type}

@[simp] theorem run_tell (o : Output) (st : σ) :
    ((MonadWriter.tell o : StateT σ OutM PUnit).run st).run = ((PUnit.unit, st), o) := by
  show ((PUnit.unit, st), o ++ ∅) = _
  rw [Output.append_empty]

/-- `while (1)` for at most `fuel` passes: `some a` when a pass leaves the loop with `a`,
`none` when the fuel runs out first. -/
def loopFuel (pass : StateT σ OutM (Option α)) : Nat → StateT σ OutM (Option α)
  | 0 => pure none
  | fuel + 1 => do
    match ← pass with
    | some a => pure (some a)
    | none => loopFuel pass fuel

section loopFuel

variable {pass : StateT σ OutM (Option α)} {st st' : σ}

theorem loopFuel_succ_of_none (h : (pass.run st).run.1 = (none, st')) (k : Nat) :
    ((loopFuel pass (k + 1)).run st).run.1 = ((loopFuel pass k).run st').run.1 := by
  simp only [loopFuel, StateT.run_bind, OutM.run_bind, h]

theorem loopFuel_succ_of_some {a : α} {o : Output} (h : (pass.run st).run = ((some a, st'), o))
    (k : Nat) : ((loopFuel pass (k + 1)).run st).run = ((some a, st'), o) := by
  simp [loopFuel, h]

theorem loopFuel_stuck (h : (pass.run st).run.1 = (none, st)) (k : Nat) :
    ((loopFuel pass k).run st).run.1.1 = none := by
  induction k with
  | zero => rfl
  | succ k ih => rw [loopFuel_succ_of_none h, ih]

theorem loopFuel_of_le_fuel {k k' : Nat} (h : ((loopFuel pass k).run st).run.1.1 ≠ none)
    (hk : k ≤ k') : ((loopFuel pass k').run st).run = ((loopFuel pass k).run st).run := by
  induction k generalizing k' st with
  | zero => exact absurd rfl h
  | succ k ih =>
    obtain ⟨k', rfl⟩ : ∃ j, k' = j + 1 := ⟨k' - 1, by omega⟩
    simp only [loopFuel, StateT.run_bind, OutM.run_bind] at h ⊢
    rcases hp : (pass.run st).run with ⟨⟨_ | a, st'⟩, o⟩
    · simp only [hp] at h ⊢
      rw [ih h (by omega)]
    · rfl

end loopFuel

/-- Every result of `m`, from any state, satisfies `Q`. -/
def Post (Q : α → Prop) (m : StateT σ OutM α) : Prop :=
  ∀ st, Q (m.run st).run.1.1

namespace Post

variable {Q : β → Prop}

theorem pure {b : β} (h : Q b) : Post Q (Pure.pure b : StateT σ OutM β) := fun _ => h

theorem bind {x : StateT σ OutM α} {f : α → StateT σ OutM β} (hf : ∀ a, Post Q (f a)) :
    Post Q (x >>= f) := fun _ => hf _ _

theorem bind_of {R : α → Prop} {x : StateT σ OutM α} {f : α → StateT σ OutM β} (hx : Post R x)
    (hf : ∀ a, R a → Post Q (f a)) : Post Q (x >>= f) := fun st => hf _ (hx st) _

end Post

end Rar2John
