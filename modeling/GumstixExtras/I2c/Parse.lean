import GumstixExtras.I2c.Api
import GumstixExtras.Lib.Strtol

/-!
# Numbers and Byte Strings on the Command Line (`i2c.c`)

`ParseByte` and `ParseBytes`, the second with its two-digit loop over the caller's buffer.
`takenBytes` is what the code makes of a data argument, without the buffer, and
`parseBytes_spec` says that the loop stores exactly this; what a data argument denotes is
another question, left to the grammar. A `Char` stands for one byte of an argument.
-/

namespace GumstixExtras.I2c

open GumstixExtras.Lib

/-! ## §1 The code -/

/-- What the parsers report through `LogError`. -/
inductive ParseError
  | notNumeric (byteStr : List Char)
  | tooManyBytes (maxBytes : UInt8)
  | notHexDigit (found : Char)
  deriving DecidableEq, Repr

/-- The text of a parse error. -/
def ParseError.text : ParseError → List Char
  | .notNumeric byteStr =>
    "Expecting numeric value, found '".toList ++ byteStr ++ "'\n".toList
  | .tooManyBytes maxBytes =>
    "Too many bytes, max: ".toList ++ fmtInt maxBytes.toNat ++ "\n".toList
  | .notHexDigit found => "Expecting hex digit, found '".toList ++ [found] ++ "'\n".toList

/-- `ParseByte`: any number `strtol` takes, cut down to eight bits. -/
def parseByte (dm : DataModel) (byteStr : List Char) : Except ParseError UInt8 :=
  match strtol dm byteStr with
  | (value, []) => .ok (UInt8.ofInt value)
  | (_, _ :: _) => .error (.notNumeric byteStr)

/-- The cut of a number that is not negative. -/
theorem ofInt_natCast (n : ℕ) : UInt8.ofInt (n : ℤ) = UInt8.ofNat n := by
  have hmod : ((n : ℤ) % 2 ^ 8).toNat = n % UInt8.size := by
    rw [UInt8.size]
    omega
  rw [UInt8.ofInt, hmod, UInt8.ofNat_mod_size]

/-- What `ParseBytes` leaves: the count it returns or the error, `*bytesParsed` (`none` where
the call has not assigned it), and the caller's buffer. -/
structure Parsed (n : ℕ) where
  bytesParsed : Except ParseError UInt8
  counter : Option UInt8
  buf : Buffer UInt8 n

/-- The value of a hex digit as the loop of `ParseBytes` computes it. -/
def hexDigit (s : Char) : Option UInt8 := (digitValue s).map UInt8.ofNat

/-- The loop of `ParseBytes` over the digits behind `0x`; `byte` is the index the output
pointer stands at. It advances only after a full pair. -/
def parseHexBytes {n : ℕ} (maxBytes bytesParsed : UInt8) (byte : ℕ) (buf : Buffer UInt8 n) :
    List Char → Except Fault (Parsed n)
  | [] => .ok ⟨.ok bytesParsed, some bytesParsed, buf⟩
  | s :: rest =>
    -- the bound is tested before a pair, so a last single digit counts as a byte too
    if maxBytes ≤ bytesParsed then
      .ok ⟨.error (.tooManyBytes maxBytes), some bytesParsed, buf⟩
    else do
      let buf ← buf.store byte 0
      match hexDigit s with
      | none => .ok ⟨.error (.notHexDigit s), some (bytesParsed + 1), buf⟩
      | some hi => do
        let buf ← buf.store byte hi
        match rest with
        -- the string ends inside a pair
        | [] => .ok ⟨.ok (bytesParsed + 1), some (bytesParsed + 1), buf⟩
        | s :: rest => do
          let buf ← buf.store byte (hi <<< 4)
          match hexDigit s with
          | none => .ok ⟨.error (.notHexDigit s), some (bytesParsed + 1), buf⟩
          | some lo => do
            let buf ← buf.store byte (hi <<< 4 ||| lo)
            parseHexBytes maxBytes (bytesParsed + 1) (byte + 1) buf rest

/-- The text behind a `0x`. -/
def behindHexPrefix : List Char → Option (List Char)
  | '0' :: 'x' :: digits => some digits
  | _ => none

/-- `ParseBytes`: pairs of hex digits behind `0x`, or a single decimal or octal byte. -/
def parseBytes {n : ℕ} (dm : DataModel) (byteStr : List Char) (buf : Buffer UInt8 n)
    (maxBytes : UInt8) : Except Fault (Parsed n) :=
  match behindHexPrefix byteStr with
  | some digits => parseHexBytes maxBytes 0 0 buf digits
  | none => do
    let (value, rest) := strtol dm byteStr
    -- the byte is stored before the rest of the text is looked at
    let buf ← buf.store 0 (UInt8.ofInt value)
    if rest ≠ [] then
      .ok ⟨.error (.notNumeric byteStr), none, buf⟩
    else
      .ok ⟨.ok 1, some 1, buf⟩

/-! ## §2 What a data argument is taken for -/

/-- The bytes a run of hex digits denotes, two digits each; a last single digit stands for
itself. -/
def hexPairs : List Char → Option (List UInt8)
  | [] => some []
  | [s] => do
    let hi ← hexDigit s
    some [hi]
  | s₁ :: s₂ :: rest => do
    let hi ← hexDigit s₁
    let lo ← hexDigit s₂
    let bs ← hexPairs rest
    some ((hi <<< 4 ||| lo) :: bs)

/-- The bytes `ParseBytes` takes a data argument for, or `none` where it refuses it. Without a
`0x` this is the number `strtol` reads, cut down to a byte, and 0 for the empty text. -/
def takenBytes (dm : DataModel) (maxBytes : ℕ) (byteStr : List Char) : Option (List UInt8) :=
  match behindHexPrefix byteStr with
  | some digits => (hexPairs digits).filter fun bs => bs.length ≤ maxBytes
  | none =>
    match parseByte dm byteStr with
    | .ok b => some [b]
    | .error _ => none

/-- A successful parse: the bytes are counted and stand at the front of the buffer. -/
def Parsed.Holds {n : ℕ} (p : Parsed n) (bs : List UInt8) : Prop :=
  p.bytesParsed = .ok (UInt8.ofNat bs.length) ∧ p.buf.Filled bs

/-- A refused argument. -/
def Parsed.Refused {n : ℕ} (p : Parsed n) : Prop := ∃ e, p.bytesParsed = .error e

/-- The loop assigns the cell behind the bytes it has stored, and these stay. -/
theorem store_behind {n : ℕ} {buf : Buffer UInt8 n} {stored : List UInt8}
    (hbuf : buf.Filled stored) (h : stored.length < n) (v : UInt8) :
    ∃ buf', buf.store stored.length v = .ok buf' ∧ buf'.Filled (stored ++ [v]) ∧
      buf'.Filled stored := by
  obtain ⟨buf', hstore, hfilled⟩ := hbuf.exists_store h v
  exact ⟨buf', hstore, hfilled, hfilled.of_append⟩

/-- The counter of the loop against its bound. -/
theorem le_ofNat_iff {maxBytes : UInt8} {k : ℕ} (hk : k ≤ maxBytes.toNat) :
    maxBytes ≤ UInt8.ofNat k ↔ k = maxBytes.toNat := by
  have hwidth := maxBytes.toNat_lt
  have hcount : (UInt8.ofNat k).toNat = k :=
    UInt8.toNat_ofNat_of_lt' (by rw [UInt8.size]; omega)
  rw [UInt8.le_iff_toNat_le, hcount]
  omega

section Pass

variable {n : ℕ} {maxBytes : UInt8} {stored : List UInt8} {buf : Buffer UInt8 n}
  {s s₁ s₂ : Char} {hi lo : UInt8}

/-- A pass with no room left. -/
theorem parseHexBytes_full (rest : List Char) (hfull : stored.length = maxBytes.toNat) :
    ∃ p, parseHexBytes maxBytes (UInt8.ofNat stored.length) stored.length buf (s :: rest) =
      .ok p ∧ p.Refused := by
  have hle := (le_ofNat_iff (Nat.le_of_eq hfull)).mpr hfull
  rw [parseHexBytes, if_pos hle]
  exact ⟨_, rfl, _, rfl⟩

variable (hbuf : buf.Filled stored) (hroom : stored.length < maxBytes.toNat)
  (hmax : maxBytes.toNat ≤ n)

include hbuf hroom hmax

/-- A pass that does not start with a digit. -/
theorem parseHexBytes_notHigh (rest : List Char) (hs : hexDigit s = none) :
    ∃ p, parseHexBytes maxBytes (UInt8.ofNat stored.length) stored.length buf (s :: rest) =
      .ok p ∧ p.Refused := by
  have hle := mt (le_ofNat_iff (Nat.le_of_lt hroom)).mp (Nat.ne_of_lt hroom)
  obtain ⟨buf₁, hstore, -⟩ := store_behind hbuf (Nat.lt_of_lt_of_le hroom hmax) 0
  rw [parseHexBytes, if_neg hle, hstore, ok_bind, hs]
  exact ⟨_, rfl, _, rfl⟩

/-- The pass over a last single digit. -/
theorem parseHexBytes_single (hs : hexDigit s = some hi) :
    ∃ p, parseHexBytes maxBytes (UInt8.ofNat stored.length) stored.length buf [s] = .ok p ∧
      p.Holds (stored ++ [hi]) := by
  have hle := mt (le_ofNat_iff (Nat.le_of_lt hroom)).mp (Nat.ne_of_lt hroom)
  have hidx := Nat.lt_of_lt_of_le hroom hmax
  obtain ⟨buf₁, hstore₁, -, hbuf₁⟩ := store_behind hbuf hidx 0
  obtain ⟨buf₂, hstore₂, hfilled, -⟩ := store_behind hbuf₁ hidx hi
  rw [parseHexBytes, if_neg hle, hstore₁, ok_bind, hs]
  simp only [hstore₂, ok_bind]
  refine ⟨_, rfl, ?_, hfilled⟩
  rw [List.length_append, List.length_singleton, UInt8.ofNat_add]
  rfl

/-- A pass whose second character is no digit. -/
theorem parseHexBytes_notLow (rest : List Char) (hs₁ : hexDigit s₁ = some hi)
    (hs₂ : hexDigit s₂ = none) :
    ∃ p, parseHexBytes maxBytes (UInt8.ofNat stored.length) stored.length buf
      (s₁ :: s₂ :: rest) = .ok p ∧ p.Refused := by
  have hle := mt (le_ofNat_iff (Nat.le_of_lt hroom)).mp (Nat.ne_of_lt hroom)
  have hidx := Nat.lt_of_lt_of_le hroom hmax
  obtain ⟨buf₁, hstore₁, -, hbuf₁⟩ := store_behind hbuf hidx 0
  obtain ⟨buf₂, hstore₂, -, hbuf₂⟩ := store_behind hbuf₁ hidx hi
  obtain ⟨buf₃, hstore₃, -⟩ := store_behind hbuf₂ hidx (hi <<< 4)
  rw [parseHexBytes, if_neg hle, hstore₁, ok_bind, hs₁]
  simp only [hstore₂, ok_bind, hstore₃, hs₂]
  exact ⟨_, rfl, _, rfl⟩

/-- The pass over a full pair stores its byte and goes on behind it. -/
theorem parseHexBytes_pair (rest : List Char) (hs₁ : hexDigit s₁ = some hi)
    (hs₂ : hexDigit s₂ = some lo) :
    ∃ buf', buf'.Filled (stored ++ [hi <<< 4 ||| lo]) ∧
      parseHexBytes maxBytes (UInt8.ofNat stored.length) stored.length buf
        (s₁ :: s₂ :: rest) =
      parseHexBytes maxBytes (UInt8.ofNat (stored ++ [hi <<< 4 ||| lo]).length)
        (stored ++ [hi <<< 4 ||| lo]).length buf' rest := by
  have hle := mt (le_ofNat_iff (Nat.le_of_lt hroom)).mp (Nat.ne_of_lt hroom)
  have hidx := Nat.lt_of_lt_of_le hroom hmax
  obtain ⟨buf₁, hstore₁, -, hbuf₁⟩ := store_behind hbuf hidx 0
  obtain ⟨buf₂, hstore₂, -, hbuf₂⟩ := store_behind hbuf₁ hidx hi
  obtain ⟨buf₃, hstore₃, -, hbuf₃⟩ := store_behind hbuf₂ hidx (hi <<< 4)
  obtain ⟨buf₄, hstore₄, hfilled, -⟩ := store_behind hbuf₃ hidx (hi <<< 4 ||| lo)
  refine ⟨buf₄, hfilled, ?_⟩
  rw [parseHexBytes, if_neg hle, hstore₁, ok_bind, hs₁]
  simp only [hstore₂, ok_bind, hstore₃, hs₂, hstore₄, List.length_append, List.length_singleton]
  rw [UInt8.ofNat_add]
  rfl

end Pass

/-- Digits that denote bytes and are not used up denote at least one. -/
theorem length_hexPairs_pos {s : Char} {rest : List Char} {bs : List UInt8}
    (h : hexPairs (s :: rest) = some bs) : 0 < bs.length := by
  cases rest with
  | nil =>
    simp only [hexPairs, Option.bind_eq_bind, Option.bind_eq_some_iff, Option.some.injEq] at h
    obtain ⟨hi, -, rfl⟩ := h
    exact Nat.succ_pos _
  | cons s₂ rest =>
    simp only [hexPairs, Option.bind_eq_bind, Option.bind_eq_some_iff, Option.some.injEq] at h
    obtain ⟨hi, -, lo, -, bs', -, rfl⟩ := h
    exact Nat.succ_pos _

/-- What the loop does with the digits it is given: `p` holds the bytes they denote behind
the `stored` ones, or refuses digits that denote nothing or too much. -/
def Parsed.Reads {n : ℕ} (p : Parsed n) (maxBytes : ℕ) (stored : List UInt8)
    (digits : List Char) : Prop :=
  (∃ bs, hexPairs digits = some bs ∧ stored.length + bs.length ≤ maxBytes ∧
      p.Holds (stored ++ bs)) ∨
    ((∀ bs, hexPairs digits = some bs → maxBytes < stored.length + bs.length) ∧ p.Refused)

/-- With no room left, any further digit is too much. -/
theorem parseHexBytes_full_reads {n : ℕ} {maxBytes : UInt8} {stored : List UInt8}
    {buf : Buffer UInt8 n} (s : Char) (rest : List Char)
    (hfull : stored.length = maxBytes.toNat) :
    ∃ p, parseHexBytes maxBytes (UInt8.ofNat stored.length) stored.length buf (s :: rest) =
      .ok p ∧ p.Reads maxBytes.toNat stored (s :: rest) := by
  obtain ⟨p, hp, hrefused⟩ := parseHexBytes_full rest hfull
  refine ⟨p, hp, .inr ⟨fun bs hbs => ?_, hrefused⟩⟩
  have := length_hexPairs_pos hbs
  omega

/-- What is done with the digits behind a pair, seen from in front of it. -/
theorem Parsed.Reads.cons {n : ℕ} {p : Parsed n} {maxBytes : ℕ} {stored : List UInt8}
    {s₁ s₂ : Char} {rest : List Char} {hi lo : UInt8}
    (h : p.Reads maxBytes (stored ++ [hi <<< 4 ||| lo]) rest) (hs₁ : hexDigit s₁ = some hi)
    (hs₂ : hexDigit s₂ = some lo) : p.Reads maxBytes stored (s₁ :: s₂ :: rest) := by
  rcases h with ⟨bs, hbs, hfit, hholds⟩ | ⟨hmany, hrefused⟩
  · -- accepted: the pair is the first of the bytes
    refine .inl ⟨(hi <<< 4 ||| lo) :: bs, by simp [hexPairs, hs₁, hs₂, hbs], ?_, ?_⟩
    · rw [List.length_append, List.length_singleton] at hfit
      rw [List.length_cons]
      omega
    · rwa [← List.append_cons] at hholds
  · -- refused: one byte more does not fit either
    refine .inr ⟨fun bs hbs => ?_, hrefused⟩
    simp only [hexPairs, hs₁, hs₂, Option.bind_eq_bind, Option.bind_some,
      Option.bind_eq_some_iff, Option.some.injEq] at hbs
    obtain ⟨bs', hbs', rfl⟩ := hbs
    have hlong := hmany bs' hbs'
    rw [List.length_append, List.length_singleton] at hlong
    rw [List.length_cons]
    omega

theorem parseHexBytes_reads {n : ℕ} {maxBytes : UInt8} (hmax : maxBytes.toNat ≤ n)
    (digits : List Char) (stored : List UInt8) {buf : Buffer UInt8 n}
    (hbuf : buf.Filled stored) (hstored : stored.length ≤ maxBytes.toNat) :
    ∃ p, parseHexBytes maxBytes (UInt8.ofNat stored.length) stored.length buf digits = .ok p ∧
      p.Reads maxBytes.toNat stored digits := by
  induction digits using hexPairs.induct generalizing stored buf with
  | case1 =>
    refine ⟨_, rfl, .inl ⟨[], rfl, hstored, ?_⟩⟩
    rw [List.append_nil]
    exact ⟨rfl, hbuf⟩
  -- a last single digit
  | case2 s =>
    rcases Nat.eq_or_lt_of_le hstored with hfull | hroom
    · exact parseHexBytes_full_reads s [] hfull
    · cases hs : hexDigit s with
      | none =>
        obtain ⟨p, hp, hrefused⟩ := parseHexBytes_notHigh hbuf hroom hmax [] hs
        exact ⟨p, hp, .inr ⟨by simp [hexPairs, hs], hrefused⟩⟩
      | some hi =>
        obtain ⟨p, hp, hholds⟩ := parseHexBytes_single hbuf hroom hmax hs
        exact ⟨p, hp, .inl ⟨[hi], by simp [hexPairs, hs], hroom, hholds⟩⟩
  -- two digits: a byte, if both are digits and there is room
  | case3 s₁ s₂ rest ih =>
    rcases Nat.eq_or_lt_of_le hstored with hfull | hroom
    · exact parseHexBytes_full_reads s₁ (s₂ :: rest) hfull
    · cases hs₁ : hexDigit s₁ with
      | none =>
        obtain ⟨p, hp, hrefused⟩ := parseHexBytes_notHigh hbuf hroom hmax (s₂ :: rest) hs₁
        exact ⟨p, hp, .inr ⟨by simp [hexPairs, hs₁], hrefused⟩⟩
      | some hi =>
        cases hs₂ : hexDigit s₂ with
        | none =>
          obtain ⟨p, hp, hrefused⟩ := parseHexBytes_notLow hbuf hroom hmax rest hs₁ hs₂
          exact ⟨p, hp, .inr ⟨by simp [hexPairs, hs₁, hs₂], hrefused⟩⟩
        | some lo =>
          obtain ⟨buf', hfilled, hstep⟩ := parseHexBytes_pair hbuf hroom hmax rest hs₁ hs₂
          obtain ⟨p, hp, hreads⟩ := ih (stored ++ [hi <<< 4 ||| lo]) hfilled (by simp; omega)
          exact ⟨p, hstep.trans hp, hreads.cons hs₁ hs₂⟩

/-- **The parser**: `ParseBytes` stores exactly the bytes it takes its argument for, and refuses
an argument it takes for none or for more than the buffer holds. -/
theorem parseBytes_spec {n : ℕ} (dm : DataModel) (byteStr : List Char) (buf : Buffer UInt8 n)
    {maxBytes : UInt8} (hmax : maxBytes.toNat ≤ n) (hpos : 0 < n) :
    ∃ p, parseBytes dm byteStr buf maxBytes = .ok p ∧
      match takenBytes dm maxBytes.toNat byteStr with
      | some bs => p.Holds bs
      | none => p.Refused := by
  cases hmarker : behindHexPrefix byteStr with
  | some digits =>
    obtain ⟨p, hp, hreads⟩ := parseHexBytes_reads hmax digits [] (Buffer.filled_nil buf)
      (Nat.zero_le _)
    refine ⟨p, by rw [parseBytes, hmarker]; exact hp, ?_⟩
    simp only [takenBytes, hmarker]
    -- what the loop reads is what the argument denotes, up to the bound
    rcases hreads with ⟨bs, hbs, hfit, hholds⟩ | ⟨hmany, hrefused⟩
    · have hfit' : bs.length ≤ maxBytes.toNat := by simpa using hfit
      simpa [hbs, Option.filter, hfit'] using hholds
    · cases hbs : hexPairs digits with
      | none => exact hrefused
      | some bs =>
        have hmany' : maxBytes.toNat < bs.length := by simpa using hmany bs hbs
        simpa [Option.filter, Nat.not_le.mpr hmany'] using hrefused
  | none =>
    -- a single number: one cell is assigned, whether or not the rest is a number
    obtain ⟨buf', hstore, hfilled⟩ := (Buffer.filled_nil buf).exists_store hpos
      (UInt8.ofInt (strtol dm byteStr).1)
    rw [List.length_nil] at hstore
    simp only [parseBytes, takenBytes, hmarker, parseByte, hstore, ok_bind]
    cases hrest : (strtol dm byteStr).2 with
    | nil =>
      have hvalue : strtol dm byteStr = ((strtol dm byteStr).1, []) := Prod.ext rfl hrest
      rw [hvalue]
      exact ⟨_, rfl, rfl, hfilled⟩
    | cons c rest =>
      have hvalue : strtol dm byteStr = ((strtol dm byteStr).1, c :: rest) := Prod.ext rfl hrest
      rw [hvalue]
      exact ⟨_, rfl, _, rfl⟩

theorem length_takenBytes_le {dm : DataModel} {maxBytes : ℕ} (hmax : 0 < maxBytes)
    {byteStr : List Char} {bs : List UInt8} (h : takenBytes dm maxBytes byteStr = some bs) :
    bs.length ≤ maxBytes := by
  unfold takenBytes at h
  split at h
  · simpa using (Option.filter_eq_some_iff.mp h).2
  · split at h
    · cases h
      exact hmax
    · cases h

/-! ## §3 Printed bytes -/

/-- Bytes printed with `%02x` read back as themselves. -/
theorem hexPairs_flatMap_fmtByte (bs : List UInt8) :
    hexPairs (bs.flatMap fmtByte) = some bs := by
  induction bs with
  | nil => rfl
  | cons b bs ih =>
    have hhi : hexDigit (Nat.digitChar (b.toNat / 16)) = some (UInt8.ofNat (b.toNat / 16)) := by
      have := b.toNat_lt
      rw [hexDigit, digitValue_digitChar (by omega), Option.map_some]
    have hlo : hexDigit (Nat.digitChar (b.toNat % 16)) = some (UInt8.ofNat (b.toNat % 16)) := by
      rw [hexDigit, digitValue_digitChar (Nat.mod_lt _ (by decide)), Option.map_some]
    -- putting the nibbles back together, for each of the 256 bytes
    have hnibbles : ∀ m : Fin 256, UInt8.ofNat (m / 16) <<< 4 ||| UInt8.ofNat (m % 16) =
        UInt8.ofNat m := by decide +kernel
    have hbyte : UInt8.ofNat (b.toNat / 16) <<< 4 ||| UInt8.ofNat (b.toNat % 16) = b := by
      simpa using hnibbles ⟨b.toNat, b.toNat_lt⟩
    simp [hexPairs, fmtByte, hhi, hlo, ih, hbyte]

/-- A printed list of bytes, given as a data argument, is taken for that list. -/
theorem takenBytes_printed (dm : DataModel) {maxBytes : ℕ} {bs : List UInt8}
    (h : bs.length ≤ maxBytes) :
    takenBytes dm maxBytes ('0' :: 'x' :: bs.flatMap fmtByte) = some bs := by
  simp [takenBytes, behindHexPrefix, hexPairs_flatMap_fmtByte, Option.filter, h]

end GumstixExtras.I2c
