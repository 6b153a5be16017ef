import Rar2John.Consts

/-!
# Choosing the RAR3 candidate

`betterCandidateAlready` decides whether a later encrypted entry is skipped; `select` runs
it over the entries in archive order.
-/

namespace Rar2John

/-- `SIZE_MAX`. -/
def sizeMax : UInt64 := 0xFFFFFFFFFFFFFFFF

@[simp] theorem toNat_sizeMax : sizeMax.toNat = 2 ^ 64 - 1 := rfl

/-- `bestsize`: the packed size, unpacked size and method of the entry kept so far. -/
structure Bestsize where
  pack : UInt64
  unp : UInt64
  method : UInt8
  deriving DecidableEq, Repr

/-- `bestsize = { SIZE_MAX, SIZE_MAX }`: no entry kept yet. -/
def Bestsize.init : Bestsize := ⟨sizeMax, sizeMax, 0⟩

/-- An encrypted entry offered to the selector. -/
structure Candidate where
  pack : UInt64
  unp : UInt64
  method : UInt8
  deriving DecidableEq, Repr

/-- `(method > 0x30 ? 4 : 1)`: the unpacked size below which an entry of this method is
too small to check a password against. -/
def minUnp (method : UInt8) : UInt64 := if method > 0x30 then 4 else 1

/-- The test before "We got a better candidate already, skipping". -/
def betterCandidateAlready (b : Bestsize) (pack unp : UInt64) (method : UInt8) : Bool :=
  b.pack < sizeMax &&
    (((b.pack < pack && b.unp ≥ minUnp b.method) || (b.unp > unp && unp < minUnp method)) ||
      (b.pack == pack && ((b.unp > unp && unp < 8) || (b.unp ≤ unp && b.unp ≥ 8))))

/-- The incumbent an entry becomes when it is kept. -/
def Candidate.toBest (c : Candidate) : Bestsize := ⟨c.pack, c.unp, c.method⟩

/-- One entry offered: skipped, or kept in place of the incumbent. -/
def offer (b : Bestsize) (c : Candidate) : Bestsize :=
  if betterCandidateAlready b c.pack c.unp c.method then b else c.toBest

/-- The incumbent after the entries, in archive order. -/
def select (cs : List Candidate) : Bestsize := cs.foldl offer Bestsize.init

/-- An entry is safe when its unpacked size reaches `minUnp` of its method. -/
def Candidate.Safe (c : Candidate) : Prop := minUnp c.method ≤ c.unp

instance (c : Candidate) : Decidable c.Safe := inferInstanceAs (Decidable (_ ≤ _))

/-- The incumbent is safe in the same sense. -/
def Bestsize.Safe (b : Bestsize) : Prop := minUnp b.method ≤ b.unp

instance (b : Bestsize) : Decidable b.Safe := inferInstanceAs (Decidable (_ ≤ _))

/-- **The incumbent can end unsafe.** A stored entry of one byte is safe; a compressed
entry of two bytes with a smaller packed size replaces it, because the test compares the
new entry's size only with its own method's threshold and only when the incumbent's is
larger. -/
theorem select_stored_then_small_compressed :
    ¬ ((∃ c ∈ [Candidate.mk 10 1 0x30, Candidate.mk 5 2 0x31], c.Safe) →
      (select [Candidate.mk 10 1 0x30, Candidate.mk 5 2 0x31]).Safe ∧
      ∀ c ∈ [Candidate.mk 10 1 0x30, Candidate.mk 5 2 0x31], c.Safe →
        (select [Candidate.mk 10 1 0x30, Candidate.mk 5 2 0x31]).pack ≤ c.pack) := by
  decide

theorem minUnp_cases (m : UInt8) :
    (m > 0x30 ∧ (minUnp m).toNat = 4) ∨ (¬ m > 0x30 ∧ (minUnp m).toNat = 1) := by
  unfold minUnp; split <;> simp_all

theorem betterCandidateAlready_iff (b : Bestsize) (c : Candidate) :
    betterCandidateAlready b c.pack c.unp c.method = true ↔
      b.pack.toNat < 2 ^ 64 - 1 ∧
        ((b.pack.toNat < c.pack.toNat ∧ (minUnp b.method).toNat ≤ b.unp.toNat) ∨
          (c.unp.toNat < b.unp.toNat ∧ c.unp.toNat < (minUnp c.method).toNat) ∨
          (b.pack.toNat = c.pack.toNat ∧
            ((c.unp.toNat < b.unp.toNat ∧ c.unp.toNat < 8) ∨
              (b.unp.toNat ≤ c.unp.toNat ∧ 8 ≤ b.unp.toNat)))) := by
  simp only [betterCandidateAlready, Bool.and_eq_true, Bool.or_eq_true, decide_eq_true_eq,
    beq_iff_eq, u64_lt_iff, u64_le_iff, u64_eq_iff, toNat_sizeMax, gt_iff_lt, ge_iff_le,
    or_assoc, show (8 : UInt64).toNat = 8 from rfl]

/-- The entries `select_least_safe` speaks of: a packed size below `SIZE_MAX`, and no
compressed entry of 1 to 3 bytes. -/
def Candidate.Ordinary (c : Candidate) : Prop :=
  c.pack < sizeMax ∧ (c.method > 0x30 → c.unp = 0 ∨ 4 ≤ c.unp)

instance (c : Candidate) : Decidable c.Ordinary := inferInstanceAs (Decidable (_ ∧ _))

theorem Candidate.Ordinary.toNat {c : Candidate} (h : c.Ordinary) :
    c.pack.toNat < 2 ^ 64 - 1 ∧ ((minUnp c.method).toNat = 1 ∨
      ((minUnp c.method).toNat = 4 ∧ (c.unp.toNat = 0 ∨ 4 ≤ c.unp.toNat))) := by
  obtain ⟨hp, hs⟩ := h
  refine ⟨by simpa [u64_lt_iff] using hp, ?_⟩
  rcases minUnp_cases c.method with ⟨hm, h4⟩ | ⟨-, h1⟩
  · refine .inr ⟨h4, ?_⟩
    rcases hs hm with h0 | h4'
    · exact .inl (by simpa [u64_eq_iff] using h0)
    · exact .inr (by simpa [u64_le_iff] using h4')
  · exact .inl h1

theorem Candidate.safe_iff (c : Candidate) : c.Safe ↔ (minUnp c.method).toNat ≤ c.unp.toNat :=
  u64_le_iff _ _

section Step

variable {d c : Candidate} (hd : d.Ordinary) (hc : c.Ordinary)
include hd hc

theorem skip_unsafe_of_safe (hds : d.Safe) (hcs : ¬ c.Safe) :
    betterCandidateAlready d.toBest c.pack c.unp c.method = true := by
  have := hd.toNat; have := hc.toNat
  rw [Candidate.safe_iff] at hds hcs
  rw [betterCandidateAlready_iff]
  simp only [Candidate.toBest]
  omega

theorem keep_safe_of_unsafe (hds : ¬ d.Safe) (hcs : c.Safe) :
    betterCandidateAlready d.toBest c.pack c.unp c.method = false := by
  have := hd.toNat; have := hc.toNat
  rw [Candidate.safe_iff] at hds hcs
  rw [← Bool.not_eq_true, betterCandidateAlready_iff]
  simp only [Candidate.toBest]
  omega

end Step

theorem pack_le_of_keep {d c : Candidate} (hds : d.Safe)
    (hkeep : betterCandidateAlready d.toBest c.pack c.unp c.method = false) :
    c.pack.toNat ≤ d.pack.toNat := by
  have := c.pack.toNat_lt_size
  rw [Candidate.safe_iff] at hds
  rw [← Bool.not_eq_true, betterCandidateAlready_iff] at hkeep
  simp only [Candidate.toBest, UInt64.size] at hkeep this
  omega

theorem pack_le_of_skip {b : Bestsize} {c : Candidate} (hcs : c.Safe)
    (hskip : betterCandidateAlready b c.pack c.unp c.method = true) :
    b.pack.toNat ≤ c.pack.toNat := by
  rw [Candidate.safe_iff] at hcs
  rw [betterCandidateAlready_iff] at hskip
  omega

/-- What holds after the entries `seen`: nothing seen and the initial incumbent; or an
incumbent that is one of the entries seen, safe with the least packed size among the safe
entries seen if any was safe. -/
def SelectInv (seen : List Candidate) (b : Bestsize) : Prop :=
  (seen = [] ∧ b = Bestsize.init) ∨
    ((∃ d ∈ seen, b = d.toBest) ∧
      ((∃ c ∈ seen, c.Safe) → b.Safe ∧ ∀ c ∈ seen, c.Safe → b.pack.toNat ≤ c.pack.toNat))

theorem offer_selectInv {seen : List Candidate} {b : Bestsize} {c : Candidate}
    (hseen : ∀ d ∈ seen, d.Ordinary) (hc : c.Ordinary) (hinv : SelectInv seen b) :
    SelectInv (seen ++ [c]) (offer b c) := by
  right
  rcases hinv with ⟨rfl, rfl⟩ | ⟨⟨d, hdmem, rfl⟩, hleast⟩
  · -- the first entry is always kept
    have hfirst : offer Bestsize.init c = c.toBest := by
      simp [offer, betterCandidateAlready, Bestsize.init]
    rw [hfirst]
    refine ⟨⟨c, by simp, rfl⟩, fun ⟨c', hc', hs⟩ => ?_⟩
    simp only [List.nil_append, List.mem_singleton] at hc' ⊢
    subst hc'
    exact ⟨hs, fun e he _ => he ▸ le_refl _⟩
  · have hd := hseen d hdmem
    by_cases hprev : ∃ c' ∈ seen, c'.Safe
    · obtain ⟨hds, hle⟩ := hleast hprev
      cases hskip : betterCandidateAlready d.toBest c.pack c.unp c.method
      · -- kept: `c` is safe, and packed at most as small as `d`
        have hcs : c.Safe := by
          by_contra hcs
          rw [skip_unsafe_of_safe hd hc hds hcs] at hskip
          cases hskip
        have hcd := pack_le_of_keep hds hskip
        simp only [offer, hskip, Bool.false_eq_true, if_false]
        refine ⟨⟨c, by simp, rfl⟩, fun _ => ⟨hcs, ?_⟩⟩
        simp only [List.forall_mem_append, List.forall_mem_singleton]
        exact ⟨fun e he hes => le_trans hcd (hle e he hes), fun _ => le_refl _⟩
      · -- skipped: `d` stays, packed at most as small as a safe `c`
        simp only [offer, hskip, if_true]
        refine ⟨⟨d, List.mem_append_left _ hdmem, rfl⟩, fun _ => ⟨hds, ?_⟩⟩
        simp only [List.forall_mem_append, List.forall_mem_singleton]
        exact ⟨hle, fun hcs => pack_le_of_skip hcs hskip⟩
    · -- no safe entry before `c`, so `d` is unsafe
      have hds : ¬ d.Safe := fun h => hprev ⟨d, hdmem, h⟩
      by_cases hcs : c.Safe
      · simp only [offer, keep_safe_of_unsafe hd hc hds hcs, Bool.false_eq_true, if_false]
        refine ⟨⟨c, by simp, rfl⟩, fun _ => ⟨hcs, ?_⟩⟩
        simp only [List.forall_mem_append, List.forall_mem_singleton]
        exact ⟨fun e he hes => absurd ⟨e, he, hes⟩ hprev, fun _ => le_refl _⟩
      · have hnone : ¬ ∃ c' ∈ seen ++ [c], c'.Safe := by
          rintro ⟨c', hc', hs⟩
          rcases List.mem_append.mp hc' with hc' | hc'
          · exact hprev ⟨c', hc', hs⟩
          · simp only [List.mem_singleton] at hc'; subst hc'; exact hcs hs
        refine ⟨?_, fun h => absurd h hnone⟩
        unfold offer; split
        · exact ⟨d, List.mem_append_left _ hdmem, rfl⟩
        · exact ⟨c, by simp, rfl⟩

theorem foldl_selectInv (cs : List Candidate) :
    ∀ (seen : List Candidate) (b : Bestsize), (∀ d ∈ seen ++ cs, d.Ordinary) →
      SelectInv seen b → SelectInv (seen ++ cs) (cs.foldl offer b) := by
  induction cs with
  | nil => intro seen b _ h; simpa using h
  | cons c cs ih =>
    intro seen b hord h
    have hstep := offer_selectInv (fun d hd => hord d (by simp [hd]))
      (hord c (by simp)) h
    simpa using ih (seen ++ [c]) (offer b c) (by simpa using hord) hstep

/-- **The incumbent ends safe and smallest, for ordinary entries.** When no packed size
is `SIZE_MAX` and no compressed entry has an unpacked size of 1 to 3 bytes, and some entry
is safe, the incumbent after the last entry is one of the entries, safe, and has the least
packed size among the safe entries. -/
theorem select_least_safe (cs : List Candidate) (hord : ∀ c ∈ cs, c.Ordinary)
    (hsafe : ∃ c ∈ cs, c.Safe) :
    (∃ d ∈ cs, select cs = d.toBest) ∧ (select cs).Safe ∧
      ∀ c ∈ cs, c.Safe → (select cs).pack ≤ c.pack := by
  have hinv := foldl_selectInv cs [] Bestsize.init (by simpa using hord) (.inl ⟨rfl, rfl⟩)
  rw [List.nil_append] at hinv
  rcases hinv with ⟨rfl, -⟩ | ⟨hmem, hleast⟩
  · simp at hsafe
  · obtain ⟨hs, hle⟩ := hleast hsafe
    exact ⟨hmem, hs, fun c hc hcs => (u64_le_iff _ _).mpr (hle c hc hcs)⟩

theorem select_least_safe_stored_and_compressed :
    (∀ c ∈ [Candidate.mk 10 1 0x30, Candidate.mk 5 8 0x33], c.Ordinary) ∧
      (∃ c ∈ [Candidate.mk 10 1 0x30, Candidate.mk 5 8 0x33], c.Safe) ∧
      (∃ d ∈ [Candidate.mk 10 1 0x30, Candidate.mk 5 8 0x33],
        select [Candidate.mk 10 1 0x30, Candidate.mk 5 8 0x33] = d.toBest) ∧
      (select [Candidate.mk 10 1 0x30, Candidate.mk 5 8 0x33]).Safe ∧
      ∀ c ∈ [Candidate.mk 10 1 0x30, Candidate.mk 5 8 0x33], c.Safe →
        (select [Candidate.mk 10 1 0x30, Candidate.mk 5 8 0x33]).pack ≤ c.pack :=
  have hord : ∀ c ∈ [Candidate.mk 10 1 0x30, Candidate.mk 5 8 0x33], c.Ordinary := by decide
  have hsafe : ∃ c ∈ [Candidate.mk 10 1 0x30, Candidate.mk 5 8 0x33], c.Safe := by decide
  ⟨hord, hsafe, select_least_safe _ hord hsafe⟩

end Rar2John
