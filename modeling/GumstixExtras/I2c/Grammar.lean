import GumstixExtras.I2c.Parse

/-!
# Which Arguments Are Accepted

The language of `ParseByte` and `ParseBytes`, seen from the text.

- `parseBytes_hex_accepts_iff`: behind `0x` exactly the texts of hex digits that fit the
  buffer, two digits a byte.
- `parse_singleByte_iff`: elsewhere the empty text and numbers that are no byte are accepted
  too, and nothing else is wrong.
- `DenotesBytes`: what a data argument denotes, whatever the parsers make of it.
-/

namespace GumstixExtras.I2c

open GumstixExtras.Lib

/-! ## §1 Pairs of digits -/

/-- The digits two by two, from the left. -/
def digitPairs : List Char → List (List Char)
  | [] => []
  | [s] => [[s]]
  | s₁ :: s₂ :: rest => [s₁, s₂] :: digitPairs rest

/-- The bytes the pairs are the numerals of. -/
def pairBytes (digits : List Char) : List UInt8 :=
  (digitPairs digits).map fun pair => UInt8.ofNat (numeralValue 16 pair)

example : pairBytes "1aF".toList = [0x1a, 0x0f] := by decide

theorem length_pairBytes (digits : List Char) :
    (pairBytes digits).length = (digits.length + 1) / 2 := by
  rw [pairBytes, List.length_map]
  induction digits using digitPairs.induct with
  | case1 => rfl
  | case2 s => simp [digitPairs]
  | case3 s₁ s₂ rest ih =>
    simp only [digitPairs, List.length_cons, ih]
    omega

theorem isBaseDigit_iff {c : Char} :
    isBaseDigit 16 c = true ↔ ∃ d, d < 16 ∧ digitValue c = some d := by
  unfold isBaseDigit
  cases hc : digitValue c with
  | none => simp
  | some d => simp [digitValue_lt hc]

theorem hexDigit_eq_some_iff {c : Char} {v : UInt8} :
    hexDigit c = some v ↔ ∃ d, d < 16 ∧ digitValue c = some d ∧ v = UInt8.ofNat d := by
  rw [hexDigit, Option.map_eq_some_iff]
  constructor
  · rintro ⟨d, hd, rfl⟩
    exact ⟨d, digitValue_lt hd, hd, rfl⟩
  · rintro ⟨d, -, hd, rfl⟩
    exact ⟨d, hd, rfl⟩

/-- Two digits put together are the byte of their numeral. -/
theorem nibbles_eq {hi lo : ℕ} (hhi : hi < 16) (hlo : lo < 16) :
    UInt8.ofNat hi <<< 4 ||| UInt8.ofNat lo = UInt8.ofNat (16 * hi + lo) := by
  have hall : ∀ a b : Fin 16, UInt8.ofNat a <<< 4 ||| UInt8.ofNat b =
      UInt8.ofNat (16 * a.val + b.val) := by decide +kernel
  exact hall ⟨hi, hhi⟩ ⟨lo, hlo⟩

/-- The loop denotes bytes by exactly the texts of hex digits. -/
theorem hexPairs_eq_some_iff {digits : List Char} {bs : List UInt8} :
    hexPairs digits = some bs ↔
      (∀ c ∈ digits, isBaseDigit 16 c = true) ∧ bs = pairBytes digits := by
  induction digits using hexPairs.induct generalizing bs with
  | case1 =>
    rw [hexPairs, Option.some.injEq]
    exact ⟨fun h => ⟨fun c hc => (by cases hc), h.symm⟩, fun h => h.2.symm⟩
  | case2 s =>
    -- a digit left over is a byte of its own
    simp only [hexPairs, Option.bind_eq_bind, Option.bind_eq_some_iff, hexDigit_eq_some_iff,
      List.mem_singleton, forall_eq, isBaseDigit_iff]
    constructor
    · rintro ⟨_, ⟨d, hd, hvalue, rfl⟩, hbs⟩
      refine ⟨⟨d, hd, hvalue⟩, ?_⟩
      simp only [Option.some.injEq] at hbs
      simp [← hbs, pairBytes, digitPairs, numeralValue, hvalue]
    · rintro ⟨⟨d, hd, hvalue⟩, rfl⟩
      exact ⟨_, ⟨d, hd, hvalue, rfl⟩, by simp [pairBytes, digitPairs, numeralValue, hvalue]⟩
  | case3 s₁ s₂ rest ih =>
    simp only [hexPairs, Option.bind_eq_bind, Option.bind_eq_some_iff, hexDigit_eq_some_iff,
      List.forall_mem_cons, ih]
    constructor
    · rintro ⟨_, ⟨hi, hhi, hhiValue, rfl⟩, _, ⟨lo, hlo, hloValue, rfl⟩, _, ⟨hrest, rfl⟩, hbs⟩
      refine ⟨⟨isBaseDigit_iff.mpr ⟨hi, hhi, hhiValue⟩, isBaseDigit_iff.mpr ⟨lo, hlo, hloValue⟩,
        hrest⟩, ?_⟩
      simp only [Option.some.injEq] at hbs
      rw [← hbs, nibbles_eq hhi hlo]
      simp [pairBytes, digitPairs, numeralValue, hhiValue, hloValue]
    · rintro ⟨⟨hs₁, hs₂, hrest⟩, rfl⟩
      obtain ⟨hi, hhi, hhiValue⟩ := isBaseDigit_iff.mp hs₁
      obtain ⟨lo, hlo, hloValue⟩ := isBaseDigit_iff.mp hs₂
      refine ⟨_, ⟨hi, hhi, hhiValue, rfl⟩, _, ⟨lo, hlo, hloValue, rfl⟩, _, ⟨hrest, rfl⟩, ?_⟩
      rw [nibbles_eq hhi hlo]
      simp [pairBytes, digitPairs, numeralValue, hhiValue, hloValue]

/-! ## §2 What the loop touches -/

/-- What a call leaves behind, accepted or not: a count within the bound, which is the count it
returns if it returns one, and the cells from the bound on as they were. -/
structure Parsed.Inside {n : ℕ} (p : Parsed n) (maxBytes : UInt8) (buf : Buffer UInt8 n) :
    Prop where
  counter : ∃ c, p.counter = some c ∧ c ≤ maxBytes ∧ ∀ k, p.bytesParsed = .ok k → k = c
  cells : p.buf.cells.drop maxBytes.toNat = buf.cells.drop maxBytes.toNat

section Inside

variable {n : ℕ} {maxBytes c : UInt8} {buf buf' : Buffer UInt8 n}

theorem Parsed.Inside.of_ok (hc : c ≤ maxBytes)
    (hcells : buf'.cells.drop maxBytes.toNat = buf.cells.drop maxBytes.toNat) :
    (⟨.ok c, some c, buf'⟩ : Parsed n).Inside maxBytes buf :=
  ⟨⟨c, rfl, hc, fun _ hk => (Except.ok.inj hk).symm⟩, hcells⟩

theorem Parsed.Inside.of_error (e : ParseError) (hc : c ≤ maxBytes)
    (hcells : buf'.cells.drop maxBytes.toNat = buf.cells.drop maxBytes.toNat) :
    (⟨.error e, some c, buf'⟩ : Parsed n).Inside maxBytes buf :=
  ⟨⟨c, rfl, hc, fun _ hk => nomatch hk⟩, hcells⟩

end Inside

theorem drop_store {n i m : ℕ} {buf buf' : Buffer UInt8 n} {v : UInt8}
    (h : buf.store i v = .ok buf') (hi : i < m) :
    buf'.cells.drop m = buf.cells.drop m := by
  unfold Buffer.store at h
  split at h
  · cases h
    exact List.drop_set_of_lt hi
  · cases h

/-- A number of bytes below the bound is within it, and so is the next one. -/
theorem counter_le {maxBytes : UInt8} {k : ℕ} (hk : k ≤ maxBytes.toNat) :
    UInt8.ofNat k ≤ maxBytes ∧
      (¬ maxBytes ≤ UInt8.ofNat k → k < maxBytes.toNat ∧ UInt8.ofNat k + 1 ≤ maxBytes ∧
        UInt8.ofNat k + 1 = UInt8.ofNat (k + 1)) := by
  have hwidth := maxBytes.toNat_lt
  have hof : ∀ j, j ≤ maxBytes.toNat → UInt8.ofNat j ≤ maxBytes := fun j hj => by
    rw [UInt8.le_iff_toNat_le, UInt8.toNat_ofNat_of_lt' (by rw [UInt8.size]; omega)]
    exact hj
  refine ⟨hof k hk, fun hfull => ?_⟩
  have hlt : k < maxBytes.toNat := Nat.lt_of_le_of_ne hk (mt (le_ofNat_iff hk).mpr hfull)
  have hsucc : UInt8.ofNat k + 1 = UInt8.ofNat (k + 1) := by
    rw [UInt8.ofNat_add]
    rfl
  exact ⟨hlt, hsucc ▸ hof (k + 1) hlt, hsucc⟩

/-- The loop stores below its bound and counts no further. -/
theorem parseHexBytes_inside {n : ℕ} {maxBytes : UInt8} {digits : List Char} {k : ℕ}
    {buf : Buffer UInt8 n} {p : Parsed n} (hk : k ≤ maxBytes.toNat)
    (h : parseHexBytes maxBytes (UInt8.ofNat k) k buf digits = .ok p) :
    p.Inside maxBytes buf := by
  obtain ⟨hle, hroom⟩ := counter_le hk
  induction digits using hexPairs.induct generalizing k buf with
  | case1 =>
    cases h
    exact .of_ok hle rfl
  | case2 s =>
    unfold parseHexBytes at h
    split at h
    · cases h
      exact .of_error _ hle rfl
    · next hfull =>
      obtain ⟨hlt, hnext, -⟩ := hroom hfull
      obtain ⟨buf₁, hstore₁, h⟩ := bind_eq_ok_iff.mp h
      split at h
      · cases h
        exact .of_error _ hnext (drop_store hstore₁ hlt)
      · obtain ⟨buf₂, hstore₂, h⟩ := bind_eq_ok_iff.mp h
        cases h
        exact .of_ok hnext ((drop_store hstore₂ hlt).trans (drop_store hstore₁ hlt))
  | case3 s₁ s₂ rest ih =>
    unfold parseHexBytes at h
    split at h
    · cases h
      exact .of_error _ hle rfl
    · next hfull =>
      -- a pass stores to the cell of its byte only, which is below the bound
      obtain ⟨hlt, hnext, hsucc⟩ := hroom hfull
      obtain ⟨buf₁, hstore₁, h⟩ := bind_eq_ok_iff.mp h
      split at h
      · cases h
        exact .of_error _ hnext (drop_store hstore₁ hlt)
      · obtain ⟨buf₂, hstore₂, h⟩ := bind_eq_ok_iff.mp h
        obtain ⟨buf₃, hstore₃, h⟩ := bind_eq_ok_iff.mp h
        have hdrop₃ := (drop_store hstore₃ hlt).trans
          ((drop_store hstore₂ hlt).trans (drop_store hstore₁ hlt))
        split at h
        · cases h
          exact .of_error _ hnext hdrop₃
        · obtain ⟨buf₄, hstore₄, h⟩ := bind_eq_ok_iff.mp h
          rw [hsucc] at h
          obtain ⟨hcount, hdrop⟩ := ih hlt h (counter_le hlt).1 (counter_le hlt).2
          exact ⟨hcount, hdrop.trans ((drop_store hstore₄ hlt).trans hdrop₃)⟩

/-! ## §3 Byte strings -/

/-- `ParseBytes` has returned `TRUE`. -/
def Parsed.Accepted {n : ℕ} (p : Parsed n) : Prop := ∃ k, p.bytesParsed = .ok k

theorem Parsed.Refused.not_accepted {n : ℕ} {p : Parsed n} (h : p.Refused) : ¬ p.Accepted := by
  rintro ⟨k, hk⟩
  obtain ⟨e, he⟩ := h
  cases hk.symm.trans he

/-- **Byte strings**: behind `0x`, `ParseBytes` accepts exactly the texts of hex digits that
denote no more bytes than it may store, and then counts and stores these. Accepted or not, it
stores nothing from the bound on and counts no further than the bound. -/
theorem parseBytes_hex_accepts_iff (dm : DataModel) (s : List Char) {n : ℕ}
    (buf : Buffer UInt8 n) {maxBytes : UInt8} (hmax : maxBytes.toNat ≤ n) :
    ∃ p, parseBytes dm ('0' :: 'x' :: s) buf maxBytes = .ok p ∧
      (p.Accepted ↔
        (∀ c ∈ s, isBaseDigit 16 c = true) ∧ (s.length + 1) / 2 ≤ maxBytes.toNat) ∧
      (p.Accepted → p.buf.Filled (pairBytes s) ∧
        ∃ c, p.counter = some c ∧ c.toNat = (s.length + 1) / 2) ∧
      p.Inside maxBytes buf := by
  have hnil : UInt8.ofNat ([] : List UInt8).length = 0 := rfl
  obtain ⟨p, hp, hreads⟩ := parseHexBytes_reads hmax s [] (Buffer.filled_nil buf) (Nat.zero_le _)
  have hinside := parseHexBytes_inside (Nat.zero_le _) hp
  refine ⟨p, hp, ?_, ?_, hinside⟩
  · -- the loop accepts what denotes bytes and fits
    rcases hreads with ⟨bs, hbs, hfit, hholds⟩ | ⟨hmany, hrefused⟩
    · obtain ⟨hall, rfl⟩ := hexPairs_eq_some_iff.mp hbs
      rw [List.length_nil, Nat.zero_add, length_pairBytes] at hfit
      exact iff_of_true ⟨_, hholds.1⟩ ⟨hall, hfit⟩
    · refine iff_of_false hrefused.not_accepted ?_
      rintro ⟨hall, hfit⟩
      have := hmany _ (hexPairs_eq_some_iff.mpr ⟨hall, rfl⟩)
      rw [List.length_nil, Nat.zero_add, length_pairBytes] at this
      omega
  · intro haccepted
    rcases hreads with ⟨bs, hbs, hfit, hcount, hfilled⟩ | ⟨-, hrefused⟩
    · obtain ⟨-, rfl⟩ := hexPairs_eq_some_iff.mp hbs
      rw [List.nil_append] at hcount hfilled
      obtain ⟨c, hc, -, hreturned⟩ := hinside.counter
      refine ⟨hfilled, c, hc, ?_⟩
      rw [List.length_nil, Nat.zero_add] at hfit
      have hwidth := maxBytes.toNat_lt
      rw [← hreturned _ hcount, ← length_pairBytes]
      exact UInt8.toNat_ofNat_of_lt' (by rw [UInt8.size]; omega)
    · exact absurd haccepted hrefused.not_accepted

/-- Five digits in either case are three bytes, and three are just allowed. -/
theorem parseBytes_hex_accepts_fiveDigits :
    ∃ p, parseBytes .ilp32 "0x1aF07".toList (Buffer.uninit 4 : Buffer UInt8 4) 3 = .ok p ∧
      (p.Accepted ↔ (∀ c ∈ "1aF07".toList, isBaseDigit 16 c = true) ∧
        ("1aF07".toList.length + 1) / 2 ≤ (3 : UInt8).toNat) ∧
      (p.Accepted → p.buf.Filled (pairBytes "1aF07".toList) ∧
        ∃ c, p.counter = some c ∧ c.toNat = ("1aF07".toList.length + 1) / 2) ∧
      p.Inside 3 (Buffer.uninit 4) :=
  parseBytes_hex_accepts_iff .ilp32 "1aF07".toList (Buffer.uninit 4) (by decide)

/-! ## §4 Single bytes -/

/-- A parser of single bytes is exact on a text if it accepts it precisely when the whole text
is a numeral of a byte, and then takes that byte. -/
def ExactByte (s : List Char) (accepts : Prop) (takes : UInt8 → Prop) : Prop :=
  (accepts ↔ ∃ b : UInt8, IsNumeral s b.toNat) ∧ ∀ b : UInt8, IsNumeral s b.toNat → takes b

/-- The text is not empty, and if it is a numeral it is one of a byte. -/
def NoStrayNumber (s : List Char) : Prop := s ≠ [] ∧ ∀ v, IsNumeral s v → 0 ≤ v ∧ v ≤ 255

theorem not_isNumeral_nil (v : ℤ) : ¬ IsNumeral [] v := by
  intro h
  generalize hs : ([] : List Char) = s at h
  cases h with
  | unsigned hspace h =>
    obtain ⟨c, rest, rfl, -⟩ := h.head
    simp at hs
  | plus hspace h => simp at hs
  | minus hspace h => simp at hs

/-- A byte is far inside the range of `long`. -/
theorem clamp_eq_byte_iff {dm : DataModel} {v : ℤ} (b : UInt8) :
    dm.clamp v = b.toNat ↔ v = b.toNat := by
  have hb := b.toNat_lt
  have hmin : dm.longMin < 0 := by cases dm <;> decide
  have hmax : 255 < dm.longMax := by cases dm <;> decide
  unfold DataModel.clamp
  omega

/-- A parser that goes by the end `strtol` finds, and by the value cut down to a byte. -/
theorem exactByte_iff (dm : DataModel) (s : List Char) {accepts : Prop} {takes : UInt8 → Prop}
    (haccepts : accepts ↔ (strtol dm s).2 = [])
    (htakes : (strtol dm s).2 = [] → takes (UInt8.ofInt (strtol dm s).1)) :
    ExactByte s accepts takes ↔ NoStrayNumber s := by
  constructor
  · rintro ⟨hiff, -⟩
    constructor
    · -- the empty text is accepted and is no numeral
      rintro rfl
      obtain ⟨b, hb⟩ := hiff.mp (haccepts.mpr rfl)
      exact not_isNumeral_nil _ hb
    · intro v hv
      -- a numeral is accepted, so it must be one of a byte
      have hvalue := strtol_numeral dm hv
      obtain ⟨b, hb⟩ := hiff.mp (haccepts.mpr (congrArg Prod.snd hvalue))
      have hclamp := congrArg Prod.fst (hvalue.symm.trans (strtol_numeral dm hb))
      rw [(clamp_eq_byte_iff b).mpr rfl, clamp_eq_byte_iff] at hclamp
      have := b.toNat_lt
      omega
  · rintro ⟨hne, hrange⟩
    refine ⟨?_, ?_⟩
    · rw [haccepts]
      constructor
      · intro hend
        -- what is read to its end is empty or a numeral
        obtain rfl | ⟨v, hv⟩ := isNumeral_of_strtol hend
        · exact absurd rfl hne
        · obtain ⟨hlow, hhigh⟩ := hrange v hv
          refine ⟨UInt8.ofNat v.toNat, ?_⟩
          rw [UInt8.toNat_ofNat_of_lt' (by rw [UInt8.size]; omega), Int.toNat_of_nonneg hlow]
          exact hv
      · rintro ⟨b, hb⟩
        rw [strtol_numeral dm hb]
    · intro b hb
      have hvalue := strtol_numeral dm hb
      rw [(clamp_eq_byte_iff b).mpr rfl] at hvalue
      have := htakes (congrArg Prod.snd hvalue)
      rwa [hvalue, ofInt_natCast, UInt8.ofNat_toNat] at this

theorem parseByte_eq (dm : DataModel) (s : List Char) :
    (∃ b, parseByte dm s = .ok b) ↔ (strtol dm s).2 = [] := by
  unfold parseByte
  rcases strtol dm s with ⟨value, rest⟩
  cases rest with
  | nil => simp
  | cons c rest => simp

/-- **Single bytes**: `ParseByte`, and `ParseBytes` where there is no `0x`, are exact on a text
if and only if it is not empty and no numeral of a number that is no byte. -/
theorem parse_singleByte_iff (dm : DataModel) (s : List Char) :
    (ExactByte s (∃ b, parseByte dm s = .ok b) (fun b => parseByte dm s = .ok b) ↔
      NoStrayNumber s) ∧
    ((∀ digits, s ≠ '0' :: 'x' :: digits) →
      ∀ (n : ℕ) (buf : Buffer UInt8 n) (maxBytes : UInt8), 1 ≤ maxBytes.toNat →
        maxBytes.toNat ≤ n → ∃ p, parseBytes dm s buf maxBytes = .ok p ∧
          (ExactByte s p.Accepted (fun b => p.Holds [b] ∧ p.counter = some 1) ↔
            NoStrayNumber s)) := by
  constructor
  · refine exactByte_iff dm s (parseByte_eq dm s) fun hend => ?_
    have hvalue : strtol dm s = ((strtol dm s).1, []) := Prod.ext rfl hend
    rw [parseByte, hvalue]
  · intro hmarker n buf maxBytes hpos hmax
    have hbehind : behindHexPrefix s = none := by
      unfold behindHexPrefix
      split
      · next digits => exact absurd rfl (hmarker digits)
      · rfl
    obtain ⟨buf', hstore, hfilled⟩ := (Buffer.filled_nil buf).exists_store
      (Nat.lt_of_lt_of_le hpos hmax) (UInt8.ofInt (strtol dm s).1)
    rw [List.length_nil] at hstore
    by_cases hend : (strtol dm s).2 = []
    · -- the whole text was read
      have hparse : parseBytes dm s buf maxBytes = .ok ⟨.ok 1, some 1, buf'⟩ := by
        simp only [parseBytes, hbehind, hstore, ok_bind, hend, ne_eq, not_true_eq_false, if_false]
      exact ⟨_, hparse, exactByte_iff dm s (iff_of_true ⟨1, rfl⟩ hend) fun _ =>
        ⟨⟨rfl, hfilled⟩, rfl⟩⟩
    · -- the byte is stored all the same, and the text refused behind it
      have hparse : parseBytes dm s buf maxBytes = .ok ⟨.error (.notNumeric s), none, buf'⟩ := by
        simp only [parseBytes, hbehind, hstore, ok_bind, hend, ne_eq, not_false_eq_true, if_true]
      have hrefused : ¬ (⟨.error (.notNumeric s), none, buf'⟩ : Parsed n).Accepted :=
        Parsed.Refused.not_accepted ⟨_, rfl⟩
      exact ⟨_, hparse, exactByte_iff dm s (iff_of_false hrefused hend) fun h => absurd h hend⟩

/-- A register address with white space and a sign in front. -/
theorem parse_singleByte_octal :
    ExactByte " +017".toList (∃ b, parseByte .ilp32 " +017".toList = .ok b)
      (fun b => parseByte .ilp32 " +017".toList = .ok b) ∧
    ∃ p, parseBytes .ilp32 " +017".toList (Buffer.uninit 4 : Buffer UInt8 4) 4 = .ok p ∧
      ExactByte " +017".toList p.Accepted (fun b => p.Holds [b] ∧ p.counter = some 1) := by
  have hstray : NoStrayNumber " +017".toList := by
    refine ⟨by decide, fun v hv => ?_⟩
    -- `strtol` reads 15, so the numeral is one of 15
    have hvalue : (DataModel.ilp32.clamp v, ([] : List Char)) = (15, []) :=
      (strtol_numeral .ilp32 hv).symm.trans (by decide)
    have hclamp := congrArg Prod.fst hvalue
    rw [show (15 : ℤ) = ((15 : UInt8).toNat : ℤ) from rfl, clamp_eq_byte_iff] at hclamp
    rw [hclamp]
    decide
  obtain ⟨hbyte, hbytes⟩ := parse_singleByte_iff .ilp32 " +017".toList
  obtain ⟨p, hp, hiff⟩ := hbytes (fun digits h => by simp at h) 4 (Buffer.uninit 4) 4 (by decide)
    (by decide)
  exact ⟨hbyte.mpr hstray, p, hp, hiff.mpr hstray⟩

/-- The empty text is taken for the byte 0, and 300 for the byte 44. -/
theorem parseByte_takesStrayNumbers :
    parseByte .ilp32 [] = .ok 0 ∧ parseByte .ilp32 "300".toList = .ok 44 ∧
      ¬ ExactByte "300".toList (∃ b, parseByte .ilp32 "300".toList = .ok b)
        (fun b => parseByte .ilp32 "300".toList = .ok b) := by
  have hnumeral : IsNumeral ([] ++ "300".toList) 300 :=
    .unsigned (by simp) (.decimal (by decide) (by decide))
  refine ⟨by decide, by decide, ?_⟩
  rw [exactByte_iff .ilp32 _ (parseByte_eq _ _) fun _ => by decide]
  rintro ⟨-, hrange⟩
  exact absurd (hrange 300 hnumeral).2 (by decide)

/-! ## §5 What an argument denotes -/

/-- The data arguments and the bytes they denote: digits behind `0x`, two a byte, or a numeral of
a single byte. A number that is no byte denotes nothing, and neither does the empty text. -/
inductive DenotesBytes : List Char → List UInt8 → Prop
  | pairs {digits : List Char} (hall : ∀ c ∈ digits, isBaseDigit 16 c = true) :
      DenotesBytes ('0' :: 'x' :: digits) (pairBytes digits)
  | byte {s : List Char} {b : UInt8} (hmarker : behindHexPrefix s = none)
      (hb : IsNumeral s b.toNat) : DenotesBytes s [b]

/-- The texts `ParseByte` reads to their end: the empty one and the numerals, of whatever
number. -/
def ReadableNumber (s : List Char) : Prop := s = [] ∨ ∃ v, IsNumeral s v

/-- The texts `ParseBytes` reads to their end: behind `0x` hex digits that fit the array, and
elsewhere what `ParseByte` reads. -/
def ReadableData (s : List Char) : Prop :=
  match behindHexPrefix s with
  | some digits => (∀ c ∈ digits, isBaseDigit 16 c = true) ∧
      (digits.length + 1) / 2 ≤ i2cMaxDataLen
  | none => ReadableNumber s

section Denotes

variable {dm : DataModel} {s : List Char} {bs bs' : List UInt8} {maxBytes : ℕ}

theorem parseByte_ok_iff : (∃ b, parseByte dm s = .ok b) ↔ ReadableNumber s := by
  rw [parseByte_eq]
  constructor
  · exact isNumeral_of_strtol
  · rintro (rfl | ⟨v, hv⟩)
    · rfl
    · rw [strtol_numeral dm hv]

/-- A numeral of a byte is taken for this byte. -/
theorem parseByte_of_isNumeral {b : UInt8} (hb : IsNumeral s b.toNat) :
    parseByte dm s = .ok b := by
  have hvalue := strtol_numeral dm hb
  rw [(clamp_eq_byte_iff b).mpr rfl] at hvalue
  rw [parseByte, hvalue]
  dsimp only
  rw [ofInt_natCast, UInt8.ofNat_toNat]

theorem takenBytes_hex (digits : List Char) :
    takenBytes dm maxBytes ('0' :: 'x' :: digits) =
      (hexPairs digits).filter fun bs => bs.length ≤ maxBytes := rfl

/-- Where a data argument is taken for bytes and denotes some, they are the same. -/
theorem DenotesBytes.eq_of_takenBytes (h : DenotesBytes s bs)
    (htaken : takenBytes dm maxBytes s = some bs') : bs = bs' := by
  cases h with
  | @pairs digits hall =>
    rw [takenBytes_hex, Option.filter_eq_some_iff] at htaken
    obtain ⟨-, rfl⟩ := hexPairs_eq_some_iff.mp htaken.1
    rfl
  | byte hmarker hb =>
    rw [takenBytes, hmarker] at htaken
    dsimp only at htaken
    rw [parseByte_of_isNumeral hb] at htaken
    exact Option.some.inj htaken

/-- A data argument is taken for the bytes it denotes, when there is room for them. -/
theorem DenotesBytes.taken (h : DenotesBytes s bs) (hfit : bs.length ≤ maxBytes) :
    takenBytes dm maxBytes s = some bs := by
  cases h with
  | @pairs digits hall =>
    rw [takenBytes_hex, Option.filter_eq_some_iff]
    exact ⟨hexPairs_eq_some_iff.mpr ⟨hall, rfl⟩, by simpa using hfit⟩
  | byte hmarker hb =>
    rw [takenBytes, hmarker]
    dsimp only
    rw [parseByte_of_isNumeral hb]

/-- `ParseBytes` refuses exactly what it cannot read. -/
theorem takenBytes_some_iff :
    (∃ bs, takenBytes dm i2cMaxDataLen s = some bs) ↔ ReadableData s := by
  unfold takenBytes ReadableData
  cases hmarker : behindHexPrefix s with
  | some digits =>
    dsimp only
    -- the pairs are taken when there is room for them
    simp only [Option.filter_eq_some_iff, hexPairs_eq_some_iff, decide_eq_true_eq]
    rw [← length_pairBytes]
    constructor
    · rintro ⟨bs, ⟨hall, rfl⟩, hfit⟩
      exact ⟨hall, hfit⟩
    · rintro ⟨hall, hfit⟩
      exact ⟨_, ⟨hall, rfl⟩, hfit⟩
  | none =>
    dsimp only
    -- no `0x`: the text goes to `strtol` as in `ParseByte`
    rw [← @parseByte_ok_iff dm]
    cases hbyte : parseByte dm s with
    | ok b => simp
    | error e => simp

end Denotes

end GumstixExtras.I2c
