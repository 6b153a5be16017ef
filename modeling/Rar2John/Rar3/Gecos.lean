import Rar2John.Main

/-!
# The `gecos` accumulator

Every append of a file name to `gecos` stays inside the buffer and keeps its last byte NUL,
and the walk changes `gecos` only by appends (`walk_gecos_in_bounds`).
-/

namespace Rar2John

/-- The two lines that append `name`, the C string in `file_name`, to `gecos`. -/
def appendGecos (E : Env) (st : Rar3State) (name : List UInt8) : Rar3State :=
  if st.gecosLen + name.length < E.lineBufferSize then
    { st with
      gecos := snprintfAt st.gecos st.gecosLen.toNat (sizeT (E.lineBufferSize - st.gecosLen - 1))
        (name ++ ascii " ")
      gecosLen := st.gecosLen + (name.length + 1 : Nat) }
  else st

theorem snprintfAt_outside {buf : Nat → UInt8} {off size i : Nat} (s : List UInt8)
    (hi : i < off ∨ off + size ≤ i) : snprintfAt buf off size s i = buf i := by
  unfold snprintfAt
  split
  · rfl
  · have : (s.take (size - 1) ++ [0]).length ≤ size := by simp; omega
    simp only
    rw [if_neg (by omega)]

theorem sizeT_le {x : Int} (hx : 0 ≤ x) : sizeT x ≤ x.toNat := by
  unfold sizeT
  omega

/-- What `gecos` and `gecos_len` keep: the length within the buffer, and the bytes from the
buffer's last one on still 0. -/
def GecosInv (E : Env) (st : Rar3State) : Prop :=
  0 ≤ st.gecosLen ∧ st.gecosLen ≤ E.lineBufferSize ∧
    ∀ i, E.lineBufferSize ≤ i + 1 → st.gecos i = 0

theorem gecosInv_init (E : Env) (fp : Stream) :
    GecosInv E ⟨fp, Bestsize.init, none, 0, fun _ => 0, 0, []⟩ :=
  ⟨Int.le_refl 0, Int.ofNat_zero_le _, fun _ _ => rfl⟩

theorem appendGecos_gecos_of_le {E : Env} {st : Rar3State} (hlen : 0 ≤ st.gecosLen)
    (name : List UInt8) {i : Nat} (hi : E.lineBufferSize ≤ i + 1) :
    (appendGecos E st name).gecos i = st.gecos i := by
  unfold appendGecos
  split
  · have := sizeT_le (x := E.lineBufferSize - st.gecosLen - 1) (by omega)
    exact snprintfAt_outside _ (.inr (by omega))
  · rfl

/-- **Step.** An append keeps `GecosInv`. -/
theorem gecosInv_appendGecos {E : Env} {st : Rar3State} (h : GecosInv E st) (name : List UInt8) :
    GecosInv E (appendGecos E st name) := by
  obtain ⟨h0, hle, hz⟩ := h
  refine ⟨?_, ?_, fun i hi => (appendGecos_gecos_of_le h0 name hi).trans (hz i hi)⟩ <;>
    unfold appendGecos <;> split <;> (try dsimp only) <;> omega

/-- **Run.** Appends one after another keep `GecosInv`. -/
theorem gecosInv_foldl (E : Env) (names : List (List UInt8)) :
    ∀ st, GecosInv E st → GecosInv E (names.foldl (appendGecos E) st) := by
  induction names with
  | nil => exact fun _ h => h
  | cons name names ih => exact fun st h => ih _ (gecosInv_appendGecos h name)

/-- **The accumulator stays in its buffer.** After any names, from the zeroed buffer of the
walk's start: `gecos_len` is within `LINE_BUFFER_SIZE`, a NUL lies inside the buffer, and
the next append passes `snprintf` a non-negative size and writes nothing from
`LINE_BUFFER_SIZE` on. -/
theorem gecos_appends_in_bounds (E : Env) (hE : 0 < E.lineBufferSize) (fp : Stream)
    (names : List (List UInt8)) (name : List UInt8) :
    let st := names.foldl (appendGecos E) ⟨fp, Bestsize.init, none, 0, fun _ => 0, 0, []⟩
    (0 ≤ st.gecosLen ∧ st.gecosLen ≤ E.lineBufferSize) ∧
      (∃ i < E.lineBufferSize, st.gecos i = 0) ∧
      (st.gecosLen + name.length < E.lineBufferSize →
        0 ≤ (E.lineBufferSize : Int) - st.gecosLen - 1) ∧
      ∀ i, E.lineBufferSize ≤ i → (appendGecos E st name).gecos i = st.gecos i := by
  intro st
  obtain ⟨h0, hle, hz⟩ := gecosInv_foldl E names _ (gecosInv_init E fp)
  exact ⟨⟨h0, hle⟩, ⟨E.lineBufferSize - 1, by omega, hz _ (by omega)⟩, fun _ => by omega,
    fun i hi => appendGecos_gecos_of_le h0 name (by omega)⟩

set_option maxRecDepth 10000 in
/-- A name of 1022 bytes: `snprintf` gets 1023 bytes, writes the name and its NUL but not
the space, and returns 1023; `gecos_len` is 1023 with 1022 bytes of text, and the
accumulator is still in bounds. -/
theorem gecos_appends_in_bounds_after_long_name :
    ([List.replicate 1022 (0x61 : UInt8)].foldl (appendGecos jtrBuild)
        ⟨⟨[], 0, false⟩, Bestsize.init, none, 0, fun _ => 0, 0, []⟩).gecosLen = 1023 ∧
      ([List.replicate 1022 (0x61 : UInt8)].foldl (appendGecos jtrBuild)
        ⟨⟨[], 0, false⟩, Bestsize.init, none, 0, fun _ => 0, 0, []⟩).gecos 1022 = 0 ∧
      0 < jtrBuild.lineBufferSize ∧
      (let st := [List.replicate 1022 (0x61 : UInt8)].foldl (appendGecos jtrBuild)
        ⟨⟨[], 0, false⟩, Bestsize.init, none, 0, fun _ => 0, 0, []⟩
      (0 ≤ st.gecosLen ∧ st.gecosLen ≤ jtrBuild.lineBufferSize) ∧
        (∃ i < jtrBuild.lineBufferSize, st.gecos i = 0) ∧
        (st.gecosLen + ([] : List UInt8).length < jtrBuild.lineBufferSize →
          0 ≤ (jtrBuild.lineBufferSize : Int) - st.gecosLen - 1) ∧
        ∀ i, jtrBuild.lineBufferSize ≤ i → (appendGecos jtrBuild st []).gecos i = st.gecos i) :=
  have hE : 0 < jtrBuild.lineBufferSize := by decide
  ⟨by decide, by decide, hE,
    gecos_appends_in_bounds jtrBuild hE ⟨[], 0, false⟩ [List.replicate 1022 0x61] []⟩

/-! ## The walk appends and nothing else -/

/-- `gecos` and `gecos_len`, the two variables an append changes. -/
def Rar3State.gecosPart (st : Rar3State) : (Nat → UInt8) × Int := (st.gecos, st.gecosLen)

section Appends

variable {E : Env} {α β : Type}

theorem appendGecos_congr {a b : Rar3State} (h : a.gecosPart = b.gecosPart) (name : List UInt8) :
    (appendGecos E a name).gecosPart = (appendGecos E b name).gecosPart := by
  obtain ⟨h1, h2⟩ := Prod.mk.inj h
  unfold appendGecos
  rw [h2]
  split <;> simp only [Rar3State.gecosPart, h1, h2]

theorem foldl_appendGecos_congr (names : List (List UInt8)) :
    ∀ {a b : Rar3State}, a.gecosPart = b.gecosPart →
      (names.foldl (appendGecos E) a).gecosPart = (names.foldl (appendGecos E) b).gecosPart := by
  induction names with
  | nil => exact id
  | cons name names ih => exact fun h => ih (appendGecos_congr h name)

theorem GecosInv.congr {a b : Rar3State} (h : a.gecosPart = b.gecosPart) (ha : GecosInv E a) :
    GecosInv E b := by
  simp only [Rar3State.gecosPart, Prod.mk.injEq] at h
  simpa only [GecosInv, h.1, h.2] using ha

/-- From `st`, `m` leaves `gecos` and `gecos_len` where appending some names would. -/
def AppendsFrom (E : Env) (m : Rar3M α) (st : Rar3State) : Prop :=
  ∃ names : List (List UInt8),
    ((m.run st).run.1.2).gecosPart = (names.foldl (appendGecos E) st).gecosPart

/-- From every state, `m` changes `gecos` and `gecos_len` only by appends. -/
def Appends (E : Env) (m : Rar3M α) : Prop := ∀ st, AppendsFrom E m st

theorem AppendsFrom.bind {x : Rar3M α} {f : α → Rar3M β} {st : Rar3State}
    (hx : AppendsFrom E x st) (hf : ∀ a, Appends E (f a)) : AppendsFrom E (x >>= f) st := by
  obtain ⟨names, hnames⟩ := hx
  obtain ⟨names', hnames'⟩ := hf (x.run st).run.1.1 (x.run st).run.1.2
  refine ⟨names ++ names', ?_⟩
  simp only [StateT.run_bind, OutM.run_bind] at hnames' ⊢
  rw [hnames', List.foldl_append]
  exact foldl_appendGecos_congr names' hnames

namespace Appends

theorem of_gecosPart {m : Rar3M α} (h : ∀ st, ((m.run st).run.1.2).gecosPart = st.gecosPart) :
    Appends E m := fun st => ⟨[], h st⟩

theorem bind {x : Rar3M α} {f : α → Rar3M β} (hx : Appends E x) (hf : ∀ a, Appends E (f a)) :
    Appends E (x >>= f) := fun st => (hx st).bind hf

theorem get_bind {f : Rar3State → Rar3M α} (h : ∀ st, AppendsFrom E (f st) st) :
    Appends E (get >>= f) := fun st => by
  obtain ⟨names, hnames⟩ := h st
  exact ⟨names, by simpa only [StateT.run_bind, OutM.run_bind] using hnames⟩

theorem pure (a : α) : Appends E (Pure.pure a : Rar3M α) := of_gecosPart fun _ => rfl

theorem get : Appends E (MonadState.get : Rar3M Rar3State) := of_gecosPart fun _ => rfl

theorem print (s : List UInt8) : Appends E (Rar3.print s) := of_gecosPart fun _ => rfl

theorem eprint (s : List UInt8) : Appends E (Rar3.eprint s) := of_gecosPart fun _ => rfl

theorem fread (n : Nat) : Appends E (Rar3.fread n) := of_gecosPart fun _ => rfl

theorem seek (off : Int) (whence : Whence) : Appends E (Rar3.seek off whence) :=
  of_gecosPart fun _ => rfl

theorem of_modify {g : Rar3State → Rar3State}
    (h : ∀ st, (g st).gecos = st.gecos ∧ (g st).gecosLen = st.gecosLen) :
    Appends E (modify g : Rar3M PUnit) :=
  of_gecosPart fun st => Prod.ext (h st).1 (h st).2

end Appends

theorem AppendsFrom.pure (a : α) (st : Rar3State) : AppendsFrom E (Pure.pure a : Rar3M α) st :=
  ⟨[], rfl⟩

theorem Appends.ite {c : Prop} {_ : Decidable c} {x y : Rar3M α} (hx : c → Appends E x)
    (hy : ¬c → Appends E y) : Appends E (if c then x else y) := by
  split
  · exact hx ‹_›
  · exact hy ‹_›

theorem Appends.ite_bind {c : Prop} {_ : Decidable c} {x y : Rar3M α} {f : α → Rar3M β}
    (hx : Appends E x) (hy : Appends E y) (hf : ∀ a, Appends E (f a)) :
    Appends E (if c then x >>= f else y >>= f) := by
  split
  · exact hx.bind hf
  · exact hy.bind hf

theorem Appends.ite_bind_bind {c : Prop} {_ : Decidable c} {γ : Type} {x₁ : Rar3M γ}
    {x₂ y : Rar3M α} {f : α → Rar3M β} (hx₁ : Appends E x₁) (hx₂ : Appends E x₂)
    (hy : Appends E y) (hf : ∀ a, Appends E (f a)) :
    Appends E (if c then x₁ >>= fun _ => x₂ >>= f else y >>= f) := by
  split
  · exact hx₁.bind fun _ => hx₂.bind hf
  · exact hy.bind hf

theorem Appends.ite_bind_bind' {c : Prop} {_ : Decidable c} {γ : Type} {y₁ : Rar3M γ}
    {x y₂ : Rar3M α} {f : α → Rar3M β} (hx : Appends E x) (hy₁ : Appends E y₁)
    (hy₂ : Appends E y₂) (hf : ∀ a, Appends E (f a)) :
    Appends E (if c then x >>= f else y₁ >>= fun _ => y₂ >>= f) := by
  split
  · exact hx.bind hf
  · exact hy₁.bind fun _ => hy₂.bind hf

theorem AppendsFrom.ite_bind {c : Prop} {_ : Decidable c} {x y : Rar3M α} {f : α → Rar3M β}
    {st : Rar3State} (hx : c → AppendsFrom E x st) (hy : ¬c → AppendsFrom E y st)
    (hf : ∀ a, Appends E (f a)) : AppendsFrom E (if c then x >>= f else y >>= f) st := by
  split
  · exact (hx ‹_›).bind hf
  · exact (hy ‹_›).bind hf

theorem AppendsFrom.set_appendGecos {st : Rar3State} {name : List UInt8}
    (h : st.gecosLen + name.length < E.lineBufferSize) :
    AppendsFrom E (set { st with
      gecos := snprintfAt st.gecos st.gecosLen.toNat (sizeT (E.lineBufferSize - st.gecosLen - 1))
        (name ++ ascii " ")
      gecosLen := st.gecosLen + (name.length + 1 : Nat) } : Rar3M PUnit) st :=
  ⟨[name], by rw [List.foldl_cons, List.foldl_nil, appendGecos, if_pos h]; rfl⟩

theorem Appends.loopFuel {pass : Rar3M (Option α)} (h : Appends E pass) :
    ∀ fuel, Appends E (Rar2John.loopFuel pass fuel)
  | 0 => Appends.pure _
  | fuel + 1 => h.bind fun r => by
    split
    · exact Appends.pure _
    · exact Appends.loopFuel h fuel

end Appends

section Walk

variable (E : Env) (verbose : Bool) (archiveName base : List UInt8)

theorem appends_copyLoop : ∀ (fuel : Nat) (bytesLeft : UInt64), Appends E (copyLoop E fuel bytesLeft)
  | 0, _ => Appends.pure _
  | fuel + 1, bytesLeft => by
    rw [copyLoop]
    repeat'
      with_reducible first
      | refine Appends.bind ?_ fun _ => ?_
      | refine Appends.ite_bind ?_ ?_ fun _ => ?_
      | refine Appends.ite (fun _ => ?_) (fun _ => ?_)
      | exact Appends.eprint _
      | exact Appends.pure _
      | exact Appends.fread _
      | exact Appends.get
      | exact Appends.of_modify fun _ => ⟨rfl, rfl⟩
      | exact appends_copyLoop fuel _

theorem appends_decodeName (fileName : List UInt8) (fileNameSize : Nat) :
    Appends E (decodeName E verbose fileName fileNameSize) := by
  unfold decodeName
  dsimp only
  repeat'
    with_reducible first
    | refine Appends.bind ?_ fun _ => ?_
    | refine Appends.ite_bind ?_ ?_ fun _ => ?_
    | refine Appends.ite (fun _ => ?_) (fun _ => ?_)
    | exact Appends.eprint _
    | exact Appends.print _
    | exact Appends.pure _

theorem appends_nameSaltExtTime (flags : UInt16) (blk : List UInt8) (extTimeSize : Int) :
    Appends E (nameSaltExtTime E verbose archiveName flags blk extTimeSize) := by
  unfold nameSaltExtTime
  dsimp only
  repeat'
    with_reducible first
    | refine Appends.get_bind fun _ => ?_
    | refine AppendsFrom.ite_bind (fun _ => ?_) (fun _ => ?_) fun _ => ?_
    | refine Appends.bind ?_ fun _ => ?_
    | refine Appends.ite_bind ?_ ?_ fun _ => ?_
    | refine Appends.ite_bind_bind' ?_ ?_ ?_ fun _ => ?_
    | refine Appends.ite (fun _ => ?_) (fun _ => ?_)
    | exact Appends.eprint _
    | exact Appends.pure _
    | exact Appends.fread _
    | exact AppendsFrom.pure _ _
    | exact AppendsFrom.set_appendGecos ‹_›
    | exact appends_decodeName E verbose _ _

theorem appends_formatRecord (flags : UInt16) (blk salt : List UInt8) (pack unp : UInt64)
    (method : UInt8) : Appends E (formatRecord E verbose base flags blk salt pack unp method) := by
  unfold formatRecord
  dsimp only
  repeat'
    with_reducible first
    | refine Appends.bind ?_ fun _ => ?_
    | refine Appends.ite_bind ?_ ?_ fun _ => ?_
    | refine Appends.ite_bind_bind ?_ ?_ ?_ fun _ => ?_
    | exact Appends.eprint _
    | exact Appends.pure _
    | exact Appends.of_modify fun _ => ⟨rfl, rfl⟩
    | exact appends_copyLoop E _ _

theorem appends_fileEntry (blk : List UInt8) :
    Appends E (fileEntry E verbose archiveName base blk) := by
  unfold fileEntry highSizes
  dsimp only
  repeat'
    with_reducible first
    | refine Appends.bind ?_ fun _ => ?_
    | refine Appends.ite_bind ?_ ?_ fun _ => ?_
    | refine Appends.ite_bind_bind ?_ ?_ ?_ fun _ => ?_
    | refine Appends.ite (fun _ => ?_) (fun _ => ?_)
    | exact Appends.eprint _
    | exact Appends.pure _
    | exact Appends.fread _
    | exact Appends.print _
    | exact Appends.seek _ _
    | exact Appends.get
    | exact Appends.of_modify fun _ => ⟨rfl, rfl⟩
    | exact appends_formatRecord E verbose base _ _ _ _ _ _
    | exact appends_nameSaltExtTime E verbose archiveName _ _ _
    | split

/-- **Step.** A pass of the header walk changes `gecos` only by appends. -/
theorem appends_nextFileHeader (type : Nat) :
    Appends E (nextFileHeader E verbose archiveName base type) := by
  unfold nextFileHeader hpRecord
  dsimp only
  repeat'
    with_reducible first
    | refine Appends.bind ?_ fun _ => ?_
    | refine Appends.ite_bind ?_ ?_ fun _ => ?_
    | refine Appends.ite (fun _ => ?_) (fun _ => ?_)
    | exact Appends.eprint _
    | exact Appends.pure _
    | exact Appends.fread _
    | exact Appends.print _
    | exact Appends.seek _ _
    | exact Appends.get
    | exact appends_fileEntry E verbose archiveName base _

end Walk

theorem cstrTake_go_congr {buf buf' : Nat → UInt8} {k : Nat} (hz : buf k = 0)
    (h : ∀ i ≤ k, buf' i = buf i) : ∀ (n i : Nat), i ≤ k → cstrTake.go buf' i n = cstrTake.go buf i n
  | 0, _, _ => rfl
  | n + 1, i, hi => by
    simp only [cstrTake.go, h i hi]
    split
    · rfl
    · have : i ≠ k := fun e => ‹¬buf i = 0› (e ▸ hz)
      rw [cstrTake_go_congr hz h n (i + 1) (by omega)]

theorem cstrTake_congr {buf buf' : Nat → UInt8} {k : Nat} (hz : buf k = 0)
    (h : ∀ i ≤ k, buf' i = buf i) (n : Nat) : cstrTake buf' n = cstrTake buf n :=
  cstrTake_go_congr hz h n 0 (Nat.zero_le _)

/-- **The walk only appends.** However many headers the walk reads, from the zeroed buffer,
it leaves `gecos` and `gecos_len` where appending the names it read would. So `gecos_len`
stays within `LINE_BUFFER_SIZE`, and the `strncat` of `BailOut:` reads nothing of `gecos`
past its `LINE_BUFFER_SIZE` bytes. -/
theorem walk_gecos_in_bounds (E : Env) (hE : 0 < E.lineBufferSize) (verbose : Bool)
    (archiveName base : List UInt8) (type : Nat) (fp : Stream) (fuel : Nat) :
    let init : Rar3State := ⟨fp, Bestsize.init, none, 0, fun _ => 0, 0, []⟩
    let st := ((loopFuel (nextFileHeader E verbose archiveName base type) fuel).run init).run.1.2
    (∃ names : List (List UInt8), st.gecos = (names.foldl (appendGecos E) init).gecos ∧
      st.gecosLen = (names.foldl (appendGecos E) init).gecosLen) ∧
    (0 ≤ st.gecosLen ∧ st.gecosLen ≤ E.lineBufferSize) ∧
    ∀ (n : Nat) (buf : Nat → UInt8), (∀ i < E.lineBufferSize, buf i = st.gecos i) →
      cstrTake buf n = cstrTake st.gecos n := by
  intro init st
  obtain ⟨names, hnames⟩ :=
    Appends.loopFuel (appends_nextFileHeader E verbose archiveName base type) fuel init
  obtain ⟨h0, hle, hz⟩ := (gecosInv_foldl E names init (gecosInv_init E fp)).congr hnames.symm
  exact ⟨⟨names, congrArg Prod.fst hnames, congrArg Prod.snd hnames⟩, ⟨h0, hle⟩,
    fun n _ hbuf =>
      cstrTake_congr (hz (E.lineBufferSize - 1) (by omega)) (fun i hi => hbuf i (by omega)) n⟩

/-- The walk over an empty archive file, for one pass. -/
theorem walk_gecos_in_bounds_at_empty_file :
    0 < jtrBuild.lineBufferSize ∧
      (let init : Rar3State := ⟨⟨[], 0, false⟩, Bestsize.init, none, 0, fun _ => 0, 0, []⟩
      let st := ((loopFuel (nextFileHeader jtrBuild false [] [] 1) 1).run init).run.1.2
      (∃ names : List (List UInt8), st.gecos = (names.foldl (appendGecos jtrBuild) init).gecos ∧
        st.gecosLen = (names.foldl (appendGecos jtrBuild) init).gecosLen) ∧
      (0 ≤ st.gecosLen ∧ st.gecosLen ≤ jtrBuild.lineBufferSize) ∧
      ∀ (n : Nat) (buf : Nat → UInt8), (∀ i < jtrBuild.lineBufferSize, buf i = st.gecos i) →
        cstrTake buf n = cstrTake st.gecos n) :=
  have hE : 0 < jtrBuild.lineBufferSize := by decide
  ⟨hE, walk_gecos_in_bounds jtrBuild hE false [] [] 1 ⟨[], 0, false⟩ 1⟩

end Rar2John
