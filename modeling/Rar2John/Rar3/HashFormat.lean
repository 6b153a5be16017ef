import Rar2John.Rar3.Incumbent

/-!
# The `$RAR3$*1*` hash reads back

The hash `process_file` formats for an entry is nine fields joined by `*`: the tag
`$RAR3$`, the mode `1`, the salt and the CRC in hex, the packed and unpacked sizes in
decimal, `1` for a ciphertext stored inline, the ciphertext in hex, and the method in
hex. No hex or decimal digit is a `*`, so splitting the hash at its `*`s gives the fields
back, and each field's digits give its value back (`parseRar3Hash_rar3Hash`): the hash
loses nothing and no field runs into the next.
-/

namespace Rar2John

/-! ## Hex digits -/

theorem u8_shiftRight_4_toNat (b : UInt8) : (b >>> 4).toNat = b.toNat / 16 := by
  show b.toNat >>> (4 % 8) = _
  rw [Nat.shiftRight_eq_div_pow]

theorem u8_and_0x0f_toNat (b : UInt8) : (b &&& 0x0f).toNat = b.toNat % 16 := by
  rw [UInt8.and_toNat, show (0x0f : UInt8).toNat = 2 ^ 4 - 1 from rfl,
    Nat.and_pow_two_sub_one_eq_mod]

/-- The value of a lowercase hex digit, as `itoa16` writes it. -/
def hexDigit (c : UInt8) : Option Nat := itoa16.indexOf? c

theorem hexDigit_itoa16 {k : Nat} (hk : k < 16) : hexDigit (itoa16.getD k 0) = some k := by
  have : ∀ k < 16, hexDigit (itoa16.getD k 0) = some k := by decide
  exact this k hk

theorem hex2_eq (b : UInt8) :
    hex2 b = [itoa16.getD (b.toNat / 16) 0, itoa16.getD (b.toNat % 16) 0] := by
  rw [hex2, u8_shiftRight_4_toNat, u8_and_0x0f_toNat]

/-- Hex digits read back two at a time, high digit first. -/
def unhex : List UInt8 → Option (List UInt8)
  | [] => some []
  | hi :: lo :: rest => do
    let h ← hexDigit hi
    let l ← hexDigit lo
    let bs ← unhex rest
    pure ((16 * h + l).toUInt8 :: bs)
  | [_] => none

theorem unhex_hex : ∀ bs : List UInt8, unhex (hex bs) = some bs
  | [] => rfl
  | b :: bs => by
    have hb : b.toNat < 256 := b.toNat_lt_size
    have hbyte : (16 * (b.toNat / 16) + b.toNat % 16).toUInt8 = b :=
      UInt8.toNat.inj (by show (16 * (b.toNat / 16) + b.toNat % 16) % 256 = b.toNat; omega)
    rw [show hex (b :: bs) = hex2 b ++ hex bs from rfl, hex2_eq]
    simp only [List.cons_append, List.nil_append, unhex,
      hexDigit_itoa16 (Nat.div_lt_of_lt_mul (by omega : b.toNat < 16 * 16)),
      hexDigit_itoa16 (Nat.mod_lt b.toNat (by decide : 16 > 0)), List.append_eq, unhex_hex bs, Option.bind_eq_bind, Option.some_bind, hbyte]
    rfl

/-! ## Decimal digits -/

/-- A non-empty run of decimal digits read as a number. -/
def parseDecimal (s : List UInt8) : Option Nat :=
  if s ≠ [] ∧ ∀ c ∈ s, 48 ≤ c ∧ c ≤ 57 then
    some (s.foldl (fun n c => 10 * n + (c.toNat - 48)) 0)
  else none

theorem toDigitsCore_mem {P : Char → Prop} (hP : ∀ d < 10, P (Nat.digitChar d)) :
    ∀ (fuel n : Nat) (ds : List Char), (∀ c ∈ ds, P c) →
      ∀ c ∈ Nat.toDigitsCore 10 fuel n ds, P c
  | 0, _, _, h => h
  | fuel + 1, n, ds, h => by
    have hd : ∀ c ∈ Nat.digitChar (n % 10) :: ds, P c :=
      List.forall_mem_cons.2 ⟨hP _ (Nat.mod_lt _ (by decide)), h⟩
    show ∀ c ∈ (if n / 10 = 0 then Nat.digitChar (n % 10) :: ds
      else Nat.toDigitsCore 10 fuel (n / 10) (Nat.digitChar (n % 10) :: ds)), P c
    split
    · exact hd
    · exact toDigitsCore_mem hP fuel _ _ hd

theorem foldl_toDigitsCore :
    ∀ (fuel n : Nat) (ds : List Char), n < fuel →
      ((Nat.toDigitsCore 10 fuel n ds).map fun c => c.toNat.toUInt8).foldl
          (fun m c => 10 * m + (c.toNat - 48)) 0 =
        (ds.map fun c => c.toNat.toUInt8).foldl (fun m c => 10 * m + (c.toNat - 48)) n
  | 0, _, _, h => absurd h (Nat.not_lt_zero _)
  | fuel + 1, n, ds, h => by
    have hdig : ∀ d < 10, (Nat.digitChar d).toNat.toUInt8.toNat - 48 = d := by decide
    have hd := hdig (n % 10) (Nat.mod_lt _ (by decide))
    show ((if n / 10 = 0 then Nat.digitChar (n % 10) :: ds
      else Nat.toDigitsCore 10 fuel (n / 10) (Nat.digitChar (n % 10) :: ds)).map
        fun c => c.toNat.toUInt8).foldl _ 0 = _
    split
    case isTrue h0 =>
      simp only [List.map_cons, List.foldl_cons, hd]
      congr 1
      omega
    case isFalse h0 =>
      rw [foldl_toDigitsCore fuel (n / 10) _ (by omega)]
      simp only [List.map_cons, List.foldl_cons, hd]
      congr 1
      omega

theorem toDigitsCore_ne_nil : ∀ (fuel n : Nat) (ds : List Char),
    Nat.toDigitsCore 10 (fuel + 1) n ds ≠ []
  | 0, n, ds => by
    show (if n / 10 = 0 then Nat.digitChar (n % 10) :: ds
      else Nat.toDigitsCore 10 0 (n / 10) (Nat.digitChar (n % 10) :: ds)) ≠ []
    split <;> exact List.cons_ne_nil _ _
  | fuel + 1, n, ds => by
    show (if n / 10 = 0 then Nat.digitChar (n % 10) :: ds
      else Nat.toDigitsCore 10 (fuel + 1) (n / 10) (Nat.digitChar (n % 10) :: ds)) ≠ []
    split
    · exact List.cons_ne_nil _ _
    · exact toDigitsCore_ne_nil fuel _ _

theorem parseDecimal_decimal (n : Nat) : parseDecimal (decimal n) = some n := by
  have hdigits : ∀ c ∈ decimal n, 48 ≤ c ∧ c ≤ 57 := by
    show ∀ c ∈ (Nat.toDigitsCore 10 (n + 1) n []).map fun c => c.toNat.toUInt8, _
    simp only [List.mem_map, forall_exists_index, and_imp, forall_apply_eq_imp_iff₂]
    refine toDigitsCore_mem (P := fun c => 48 ≤ c.toNat.toUInt8 ∧ c.toNat.toUInt8 ≤ 57)
      (by decide) (n + 1) n [] (by simp)
  have hne : decimal n ≠ [] := by
    show (Nat.toDigitsCore 10 (n + 1) n []).map _ ≠ []
    simpa using toDigitsCore_ne_nil n n []
  rw [parseDecimal, if_pos ⟨hne, hdigits⟩]
  exact congrArg some (foldl_toDigitsCore (n + 1) n [] (Nat.lt_succ_self n))

/-! ## The fields -/

theorem star_not_mem_hex (bs : List UInt8) : ∀ c ∈ hex bs, ¬(c == 42) = true := by
  have hdig : ∀ k < 16, ¬(itoa16.getD k 0 == 42) = true := by decide
  simp only [hex, List.mem_flatMap, forall_exists_index, and_imp]
  intro c b _ hc
  rw [hex2_eq] at hc
  have hb : b.toNat < 256 := b.toNat_lt_size
  simp only [List.mem_cons, List.not_mem_nil, or_false] at hc
  rcases hc with rfl | rfl
  · exact hdig _ (by omega)
  · exact hdig _ (Nat.mod_lt _ (by decide))

theorem star_not_mem_decimal (n : Nat) : ∀ c ∈ decimal n, ¬(c == 42) = true := by
  show ∀ c ∈ (Nat.toDigitsCore 10 (n + 1) n []).map fun c => c.toNat.toUInt8, _
  simp only [List.mem_map, forall_exists_index, and_imp, forall_apply_eq_imp_iff₂]
  exact toDigitsCore_mem (P := fun c => ¬(c.toNat.toUInt8 == 42) = true) (by decide) (n + 1) n []
    (by simp)

/-- The `*`-separated fields of a hash. -/
def hashFields (s : List UInt8) : List (List UInt8) := s.splitOnP (· == 42)

theorem hashFields_rar3Hash (salt crc : List UInt8) (pack unp : Nat) (cipher : List UInt8)
    (method : UInt8) :
    hashFields (rar3Hash salt crc pack unp cipher method) =
      [ascii "$RAR3$", ascii "1", hex salt, hex crc, decimal pack, decimal unp, ascii "1",
        hex cipher, hex2 method] := by
  have hsep : ∀ {l : List UInt8} (rest : List UInt8), (∀ c ∈ l, ¬(c == 42) = true) →
      hashFields (l ++ 42 :: rest) = l :: hashFields rest :=
    fun rest h => List.splitOnP_first _ _ h 42 rfl rest
  have htext : ∀ c ∈ ascii "$RAR3$", ¬(c == 42) = true := by decide
  have hone : ∀ c ∈ ascii "1", ¬(c == 42) = true := by decide
  have hmethod : hashFields (hex2 method) = [hex2 method] :=
    List.splitOnP_eq_single _ _ (by simpa [hex] using star_not_mem_hex [method])
  rw [rar3Hash, show ascii "$RAR3$*1*" = ascii "$RAR3$" ++ 42 :: ascii "1" ++ [42] from rfl,
    show ascii "*" = [42] from rfl, show ascii "*1*" = 42 :: ascii "1" ++ [42] from rfl]
  simp only [List.append_assoc, List.cons_append, List.singleton_append, List.nil_append]
  rw [hsep _ htext, hsep _ hone, hsep _ (star_not_mem_hex salt), hsep _ (star_not_mem_hex crc),
    hsep _ (star_not_mem_decimal pack), hsep _ (star_not_mem_decimal unp), hsep _ hone,
    hsep _ (star_not_mem_hex cipher), hmethod]

/-- The hash read back: the tag, the mode and the storage checked, then the salt, the CRC,
the two sizes, the ciphertext and the method decoded. -/
def parseRar3Hash (s : List UInt8) :
    Option (List UInt8 × List UInt8 × Nat × Nat × List UInt8 × UInt8) :=
  match hashFields s with
  | [tag, mode, salt, crc, pack, unp, inline, cipher, method] =>
    if tag = ascii "$RAR3$" ∧ mode = ascii "1" ∧ inline = ascii "1" then do
      let salt ← unhex salt
      let crc ← unhex crc
      let pack ← parseDecimal pack
      let unp ← parseDecimal unp
      let cipher ← unhex cipher
      let [method] ← unhex method | none
      pure (salt, crc, pack, unp, cipher, method)
    else none
  | _ => none

/-- **The hash reads back.** For every salt, CRC, pair of sizes, ciphertext and method,
the `$RAR3$*1*` hash `process_file` formats splits at its `*`s into its nine fields, and
the fields' digits give back the salt, the CRC, the sizes, the ciphertext and the
method. -/
theorem parseRar3Hash_rar3Hash (salt crc : List UInt8) (pack unp : Nat) (cipher : List UInt8)
    (method : UInt8) :
    parseRar3Hash (rar3Hash salt crc pack unp cipher method) =
      some (salt, crc, pack, unp, cipher, method) := by
  have hmethod : unhex (hex2 method) = some [method] := by simpa [hex] using unhex_hex [method]
  rw [parseRar3Hash, hashFields_rar3Hash]
  simp only [and_self, if_true, unhex_hex, parseDecimal_decimal, hmethod, Option.bind_eq_bind,
    Option.some_bind]
  rfl

end Rar2John
