import Rar2John.Rar3.Select

/-!
# The selector against its policy

The policy holds the incumbent as an option; `process_file` encodes "none" as `SIZE_MAX`
sizes. The two agree below `SIZE_MAX`, and ties and large incumbents are decided as stated.
-/

namespace Rar2John

/-- **An incumbent of at least 8 bytes.** Against an incumbent packed below `SIZE_MAX` with
an unpacked size of at least 8, an admitted entry has at least 8 bytes, or a smaller packed
size and an unpacked size reaching its method's threshold; and the incumbent's unpacked size
falls below 8 only through such an entry. -/
theorem admitted_against_large_incumbent {b : Bestsize} {c : Candidate} (hb : b.pack < sizeMax)
    (h8 : 8 ≤ b.unp) :
    (betterCandidateAlready b c.pack c.unp c.method = false →
      8 ≤ c.unp ∨ (c.pack < b.pack ∧ minUnp c.method ≤ c.unp)) ∧
    ((offer b c).unp < 8 → c.pack < b.pack ∧ minUnp c.method ≤ c.unp) := by
  have hm := minUnp_cases b.method
  have hn := minUnp_cases c.method
  rw [u64_lt_iff, toNat_sizeMax] at hb
  rw [u64_le_iff, show (8 : UInt64).toNat = 8 from rfl] at h8
  have hkept : betterCandidateAlready b c.pack c.unp c.method = false →
      8 ≤ c.unp.toNat ∨ (c.pack.toNat < b.pack.toNat ∧ (minUnp c.method).toNat ≤ c.unp.toNat) := by
    rw [← Bool.not_eq_true, betterCandidateAlready_iff]
    omega
  simp only [u64_le_iff, u64_lt_iff, show (8 : UInt64).toNat = 8 from rfl]
  refine ⟨hkept, fun hdrop => ?_⟩
  unfold offer at hdrop
  split at hdrop
  · exact absurd h8 (by omega)
  · rcases hkept (Bool.eq_false_iff.mpr ‹_›) with h | h
    · exact absurd h (by simpa [Candidate.toBest] using hdrop)
    · exact h

theorem admitted_against_large_incumbent_stored :
    (⟨10, 8, 0x30⟩ : Bestsize).pack < sizeMax ∧ 8 ≤ (⟨10, 8, 0x30⟩ : Bestsize).unp ∧
      (betterCandidateAlready ⟨10, 8, 0x30⟩ 5 1 0x30 = false →
        8 ≤ (Candidate.mk 5 1 0x30).unp ∨
          ((Candidate.mk 5 1 0x30).pack < 10 ∧
            minUnp (Candidate.mk 5 1 0x30).method ≤ (Candidate.mk 5 1 0x30).unp)) ∧
      ((offer ⟨10, 8, 0x30⟩ (Candidate.mk 5 1 0x30)).unp < 8 →
        (Candidate.mk 5 1 0x30).pack < 10 ∧
          minUnp (Candidate.mk 5 1 0x30).method ≤ (Candidate.mk 5 1 0x30).unp) :=
  ⟨by decide, by decide,
    @admitted_against_large_incumbent ⟨10, 8, 0x30⟩ (Candidate.mk 5 1 0x30) (by decide) (by decide)⟩

/-! ## Entries of one packed size -/

/-- The order the selector keeps tied entries in: any size of at least 8 before any size
below 8; among those of at least 8 the smaller first, among the others the larger first. -/
def tieRank (u : UInt64) : Nat := if 8 ≤ u.toNat then u.toNat else 2 ^ 65 - u.toNat

theorem betterCandidateAlready_tied {b : Bestsize} {c : Candidate} (hb : b.pack < sizeMax)
    (hc : c.pack = b.pack) :
    betterCandidateAlready b c.pack c.unp c.method = true ↔
      (c.unp.toNat < b.unp.toNat ∧ c.unp.toNat < 8) ∨
        (b.unp.toNat ≤ c.unp.toNat ∧ 8 ≤ b.unp.toNat) := by
  have := minUnp_cases b.method
  have := minUnp_cases c.method
  rw [u64_lt_iff, toNat_sizeMax] at hb
  rw [betterCandidateAlready_iff, hc]
  constructor <;> intro h <;> omega

theorem tieRank_le_iff (u v : UInt64) :
    tieRank u ≤ tieRank v ↔
      (8 ≤ u.toNat ∧ (8 ≤ v.toNat → u.toNat ≤ v.toNat)) ∨
        (u.toNat < 8 ∧ v.toNat < 8 ∧ v.toNat ≤ u.toNat) := by
  have hu := u.toNat_lt_size
  have hv := v.toNat_lt_size
  simp only [tieRank, UInt64.size] at *
  split_ifs <;> omega

theorem tieRank_offer {b : Bestsize} {c : Candidate} (hb : b.pack < sizeMax)
    (hc : c.pack = b.pack) :
    tieRank (offer b c).unp ≤ tieRank b.unp ∧ tieRank (offer b c).unp ≤ tieRank c.unp := by
  simp only [tieRank_le_iff]
  unfold offer
  split
  · have h := (betterCandidateAlready_tied hb hc).1 ‹_›
    omega
  · have h := mt (betterCandidateAlready_tied hb hc).2 ‹_›
    simp only [Candidate.toBest]
    omega

/-- What holds after tied entries `seen`: the incumbent is one of them, packed at their size,
and ranks no lower than any of them. -/
def TieInv (P : UInt64) (seen : List Candidate) (b : Bestsize) : Prop :=
  (∃ d ∈ seen, b = d.toBest) ∧ b.pack = P ∧ ∀ c ∈ seen, tieRank b.unp ≤ tieRank c.unp

theorem foldl_tieInv {P : UInt64} (hP : P < sizeMax) (cs : List Candidate)
    (hcs : ∀ c ∈ cs, c.pack = P) :
    ∀ (seen : List Candidate) (b : Bestsize), TieInv P seen b →
      TieInv P (seen ++ cs) (cs.foldl offer b) := by
  induction cs with
  | nil => intro seen b h; simpa using h
  | cons c cs ih =>
    rintro seen b ⟨⟨d, hd, rfl⟩, hpack, hrank⟩
    have hcP := hcs c (.head cs)
    have ⟨hle, hlc⟩ := tieRank_offer (hpack ▸ hP) (hcP.trans hpack.symm)
    have hstep : TieInv P (seen ++ [c]) (offer d.toBest c) := by
      refine ⟨?_, ?_, ?_⟩
      · unfold offer; split
        · exact ⟨d, List.mem_append_left _ hd, rfl⟩
        · exact ⟨c, by simp, rfl⟩
      · unfold offer; split
        · exact hpack
        · exact hcP
      · intro e he
        rcases List.mem_append.mp he with he | he
        · exact hle.trans (hrank e he)
        · rw [List.mem_singleton.mp he]; exact hlc
    simpa using ih (fun e he => hcs e (.tail c he)) _ _ hstep

/-- **Ties on the packed size.** Over a non-empty list of entries all packed at the same
`P < SIZE_MAX`, the incumbent is one of them: with the least unpacked size among those of
at least 8 bytes if there is one, and otherwise with the greatest unpacked size. -/
theorem select_tied (cs : List Candidate) (P : UInt64) (hP : P < sizeMax) (hne : cs ≠ [])
    (hcs : ∀ c ∈ cs, c.pack = P) :
    (∃ c ∈ cs, select cs = c.toBest) ∧
      ((∃ c ∈ cs, 8 ≤ c.unp) → 8 ≤ (select cs).unp ∧ ∀ c ∈ cs, 8 ≤ c.unp → (select cs).unp ≤ c.unp) ∧
      ((¬∃ c ∈ cs, 8 ≤ c.unp) → ∀ c ∈ cs, c.unp ≤ (select cs).unp) := by
  obtain ⟨c₀, cs, rfl⟩ := List.exists_cons_of_ne_nil hne
  have hfirst : offer Bestsize.init c₀ = c₀.toBest := by
    simp [offer, betterCandidateAlready, Bestsize.init]
  have h₀ : TieInv P [c₀] c₀.toBest :=
    ⟨⟨c₀, by simp, rfl⟩, hcs c₀ (.head cs), fun c hc => by rw [List.mem_singleton.mp hc]; rfl⟩
  have hinv := foldl_tieInv hP cs (fun c hc => hcs c (.tail c₀ hc)) _ _ h₀
  have hsel : select (c₀ :: cs) = cs.foldl offer c₀.toBest := by
    rw [select, List.foldl_cons, hfirst]
  rw [List.singleton_append, ← hsel] at hinv
  obtain ⟨hmem, -, hrank⟩ := hinv
  simp only [tieRank_le_iff] at hrank
  simp only [u64_le_iff, show (8 : UInt64).toNat = 8 from rfl]
  refine ⟨hmem, fun ⟨e, he, he8⟩ => ?_, fun hnone c hc => ?_⟩
  · have h8 : 8 ≤ (select (c₀ :: cs)).unp.toNat := by have := hrank e he; omega
    exact ⟨h8, fun c hc hc8 => by have := hrank c hc; omega⟩
  · obtain ⟨d, hd, hdsel⟩ := hmem
    have hd8 : (select (c₀ :: cs)).unp.toNat < 8 := hdsel ▸ Nat.lt_of_not_le fun h => hnone ⟨d, hd, h⟩
    have hc8 : c.unp.toNat < 8 := Nat.lt_of_not_le fun h => hnone ⟨c, hc, h⟩
    have := hrank c hc
    omega

theorem select_tied_at_ten :
    [Candidate.mk 10 5 0x30, Candidate.mk 10 20 0x30, Candidate.mk 10 9 0x33] ≠ [] ∧
      (10 : UInt64) < sizeMax ∧
      (∀ c ∈ [Candidate.mk 10 5 0x30, Candidate.mk 10 20 0x30, Candidate.mk 10 9 0x33],
        c.pack = 10) ∧
      (∃ c ∈ [Candidate.mk 10 5 0x30, Candidate.mk 10 20 0x30, Candidate.mk 10 9 0x33],
        select [Candidate.mk 10 5 0x30, Candidate.mk 10 20 0x30, Candidate.mk 10 9 0x33] =
          c.toBest) :=
  have hcs : ∀ c ∈ [Candidate.mk 10 5 0x30, Candidate.mk 10 20 0x30, Candidate.mk 10 9 0x33],
      c.pack = 10 := by decide
  ⟨by decide, by decide, hcs, (select_tied _ 10 (by decide) (by decide) hcs).1⟩

end Rar2John
