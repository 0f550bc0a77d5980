import GumstixExtras.Lib.Memory

/-!
# The Expansion Board EEPROM

The documented contents of the identification EEPROM: two ids, a board revision, a flag
that announces an environment variable, and three strings in fields of 8, 16 and 64 bytes.
`Image.writes` is one way to write an image, and `decode_writes` says that the documented
layout reads it back from any previous contents.
-/

namespace GumstixExtras.Eeprom

open GumstixExtras.Lib

/-! ## §1 Layout -/

/-- The bytes of the EEPROM. -/
abbrev Contents := ℕ → UInt8

/-- Offset of the environment flag. -/
def envFlagOff : ℕ := 0x05

/-- Offset of the fab revision, a field of 8 bytes. -/
def fabRevOff : ℕ := 6

/-- Offset of the name of the environment variable, a field of 16 bytes. -/
def envVarOff : ℕ := 14

/-- Offset of the setting of the environment variable, a field of 64 bytes. -/
def envSettingOff : ℕ := 30

/-- The offsets as numbers. -/
theorem layout : envFlagOff = 5 ∧ fabRevOff = 6 ∧ envVarOff = 14 ∧ envSettingOff = 30 :=
  ⟨rfl, rfl, rfl, rfl⟩

/-- An environment variable and its setting. -/
abbrev EnvEntry := FieldString 16 × FieldString 64

/-- What the EEPROM holds. -/
structure Image where
  vendor : ℕ
  device : ℕ
  rev : ℕ
  fabRev : FieldString 8
  env : Option EnvEntry
  deriving DecidableEq

/-- The environment as the flag announces it. -/
def decodeEnv (m : Contents) : Option (Option EnvEntry) :=
  if m envFlagOff = 0 then
    some none
  else do
    let name ← FieldString.read m envVarOff 16
    let setting ← FieldString.read m envSettingOff 64
    some (some (name, setting))

/-- The ids, big-endian, and the board revision. -/
def decodeIds (m : Contents) : ℕ × ℕ × ℕ :=
  ((m 0x00).toNat * 256 + (m 0x01).toNat, (m 0x02).toNat * 256 + (m 0x03).toNat, (m 0x04).toNat)

/-- The ids of an image. -/
def Image.ids (img : Image) : ℕ × ℕ × ℕ := (img.vendor, img.device, img.rev)

/-- The documented reading of the EEPROM: big-endian ids, and strings up to their
terminator. -/
def decode (m : Contents) : Option Image := do
  let fabRev ← FieldString.read m fabRevOff 8
  let env ← decodeEnv m
  some ⟨(m 0x00).toNat * 256 + (m 0x01).toNat, (m 0x02).toNat * 256 + (m 0x03).toNat,
    (m 0x04).toNat, fabRev, env⟩

/-! ## §2 Writing an image -/

/-- The bytes of the ids and of the board revision. -/
def idBytes (vendor device rev : ℕ) : List UInt8 :=
  [UInt8.ofNat (vendor / 256), UInt8.ofNat vendor, UInt8.ofNat (device / 256),
    UInt8.ofNat device, UInt8.ofNat rev]

/-- The ids and the board revision. -/
def idWrites (vendor device rev : ℕ) : List (ℕ × UInt8) :=
  blockWrites 0x00 (idBytes vendor device rev)

/-- The environment behind its flag, or nothing. -/
def envWrites : Option EnvEntry → List (ℕ × UInt8)
  | none => []
  | some (name, setting) =>
    (envFlagOff, 1) :: (name.writes envVarOff ++ setting.writes envSettingOff)

/-- An image written field by field; the flag is cleared first and set with the
environment. -/
def Image.writes (img : Image) : List (ℕ × UInt8) :=
  idWrites img.vendor img.device img.rev ++ [(envFlagOff, 0)] ++ img.fabRev.writes fabRevOff ++
    envWrites img.env

/-- The numbers of an image fit their bytes. -/
structure Image.Fits (img : Image) : Prop where
  vendor : img.vendor ≤ 0xFFFF
  device : img.device ≤ 0xFFFF
  rev : img.rev ≤ 0xFF

/-- The environment only writes behind the flag. -/
theorem range_of_mem_envWrites {env : Option EnvEntry} {w : ℕ × UInt8} (h : w ∈ envWrites env) :
    w.1 = envFlagOff ∨ (envVarOff ≤ w.1 ∧ w.1 < envSettingOff + 64) := by
  obtain ⟨hflag, hfab, hvar, hsetting⟩ := layout
  cases env with
  | none => cases h
  | some e =>
    rcases List.mem_cons.mp h with rfl | h
    · exact .inl rfl
    · rcases List.mem_append.mp h with h | h
      · have := e.1.range_of_mem_writes h
        omega
      · have := e.2.range_of_mem_writes h
        omega

/-- No write of an image leaves the 94 bytes of the layout. -/
theorem Image.range_of_mem_writes {img : Image} {w : ℕ × UInt8} (h : w ∈ img.writes) :
    w.1 ≤ 93 := by
  obtain ⟨hflag, hfab, hvar, hsetting⟩ := layout
  rw [Image.writes, List.mem_append, List.mem_append, List.mem_append] at h
  rcases h with ((h | h) | h) | h
  · have := range_of_mem_blockWrites h
    simp [idBytes] at this
    omega
  · rw [List.mem_singleton.mp h]
    decide
  · have := img.fabRev.range_of_mem_writes h
    omega
  · have := range_of_mem_envWrites h
    omega

/-! ## §3 Reading it back -/

section ReadBack

variable (m : Contents) (img : Image)

/-- The ids are read back: everything written later is behind them. -/
theorem applyWrites_ids {i : ℕ} (hi : i < 5) :
    applyWrites m img.writes i = applyWrites m (idWrites img.vendor img.device img.rev) i := by
  obtain ⟨hflag, hfab, hvar, hsetting⟩ := layout
  rw [Image.writes, applyWrites_append, applyWrites_append, applyWrites_append]
  -- none of the three later parts reaches the first five bytes
  rw [applyWrites_of_forall_ne _ fun w hw => by have := range_of_mem_envWrites hw; omega,
    applyWrites_of_forall_ne _ fun w hw => by
      have := img.fabRev.range_of_mem_writes hw
      omega,
    applyWrites_of_forall_ne _ fun w hw => by
      rw [List.mem_singleton.mp hw]
      dsimp only
      omega]

theorem read_fabRev :
    FieldString.read (applyWrites m img.writes) fabRevOff 8 = some img.fabRev := by
  obtain ⟨hflag, hfab, hvar, hsetting⟩ := layout
  rw [Image.writes, applyWrites_append, applyWrites_append,
    FieldString.read_applyWrites fun w hw => by have := range_of_mem_envWrites hw; omega,
    FieldString.read_writes]

/-- The flag says whether there is an environment. -/
theorem applyWrites_envFlag :
    applyWrites m img.writes envFlagOff = if img.env.isSome then 1 else 0 := by
  obtain ⟨hflag, hfab, hvar, hsetting⟩ := layout
  rw [Image.writes, applyWrites_append]
  cases img.env with
  | none =>
    -- the flag is cleared and not touched again
    rw [envWrites, applyWrites_nil, applyWrites_append, applyWrites_append,
      applyWrites_of_forall_ne _ fun w hw => by
        have := img.fabRev.range_of_mem_writes hw
        omega,
      applyWrites_cons, applyWrites_nil, Function.update_self]
    rfl
  | some e =>
    -- the flag is set again, and the strings behind it leave it alone
    rw [envWrites, applyWrites_cons, applyWrites_append,
      applyWrites_of_forall_ne _ fun w hw => by
        have := e.2.range_of_mem_writes hw
        omega,
      applyWrites_of_forall_ne _ fun w hw => by
        have := e.1.range_of_mem_writes hw
        omega,
      Function.update_self]
    rfl

theorem decodeEnv_writes : decodeEnv (applyWrites m img.writes) = some img.env := by
  obtain ⟨hflag, hfab, hvar, hsetting⟩ := layout
  rw [decodeEnv, applyWrites_envFlag]
  cases henv : img.env with
  | none => rfl
  | some e =>
    obtain ⟨name, setting⟩ := e
    rw [Option.isSome_some, if_pos rfl, if_neg (by decide), Image.writes, henv,
      applyWrites_append, envWrites, applyWrites_cons,
      applyWrites_append, FieldString.read_writes, FieldString.read_applyWrites fun w hw => by
        have := setting.range_of_mem_writes hw
        omega, FieldString.read_writes]
    rfl

variable {m img}

/-- The ids are read back where their bytes are. -/
theorem decodeIds_of_idWrites (h : img.Fits) {m' : Contents}
    (hids : ∀ i, i < 5 → m' i = applyWrites m (idWrites img.vendor img.device img.rev) i) :
    decodeIds m' = img.ids := by
  have hvendor := h.vendor
  have hdevice := h.device
  have hrev := h.rev
  have hbyte : ∀ i b, i < 5 → applyWrites m (idWrites img.vendor img.device img.rev) i = b →
      m' i = b := fun i b hi hb => (hids i hi).trans hb
  rw [decodeIds, hbyte 0 (UInt8.ofNat (img.vendor / 256)) (by decide) rfl,
    hbyte 1 (UInt8.ofNat img.vendor) (by decide) rfl,
    hbyte 2 (UInt8.ofNat (img.device / 256)) (by decide) rfl,
    hbyte 3 (UInt8.ofNat img.device) (by decide) rfl,
    hbyte 4 (UInt8.ofNat img.rev) (by decide) rfl]
  simp only [UInt8.toNat_ofNat', Image.ids, Prod.mk.injEq]
  omega

variable (m img)

/-- **Round trip**: an image that has been written is read back, from any previous
contents. -/
theorem decode_writes (h : img.Fits) : decode (applyWrites m img.writes) = some img := by
  have hids := decodeIds_of_idWrites h fun i hi => applyWrites_ids m img hi
  -- the reading of the ids is the one of `decodeIds`
  have hread : decode (applyWrites m img.writes) = some ⟨(decodeIds (applyWrites m img.writes)).1,
      (decodeIds (applyWrites m img.writes)).2.1, (decodeIds (applyWrites m img.writes)).2.2,
      img.fabRev, img.env⟩ := by
    rw [decode, read_fabRev, decodeEnv_writes]
    rfl
  rw [hread, hids]
  rfl

end ReadBack

end GumstixExtras.Eeprom
