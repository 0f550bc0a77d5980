import GumstixExtras.Eeprom.UenvGenerator

/-!
# Interrupted Programming

The boot loader runs the printed commands one by one, and may be stopped behind any of them.
The order of the writes decides what the EEPROM says then: the ids come first, the flag is
cleared before any string is touched, and it is set again only when the fab revision is complete
(`execute_interrupted`). A former environment stays announced until the flag is cleared, behind
the last id too, and the new one is announced before it is complete.
-/

namespace GumstixExtras.Eeprom

open GumstixExtras.Lib

/-! ## §1 What has been written -/

/-- What the EEPROM says when the programming of `img` over the contents `m` has been
interrupted: the first `k` of the five id bytes are the new ones and everything behind them is as
it was; or the ids are in place and no environment is announced; or the fab revision is in place
too, and the environment is announced, complete or not. In the first case a former environment is
still announced, next to the new ids if `k` is 5. -/
inductive Interrupted (m : Contents) (img : Image) (m' : Contents) : Prop
  | ids (k : ℕ) (hk : k ≤ 5)
      (hnew : ∀ i, i < k → some (m' i) = (idBytes img.vendor img.device img.rev)[i]?)
      (hrest : ∀ i, k ≤ i → m' i = m i)
  | strings (hids : decodeIds m' = img.ids) (henv : decodeEnv m' = some none)
  | environment (hids : decodeIds m' = img.ids)
      (hfab : FieldString.read m' fabRevOff 8 = some img.fabRev) (hflag : m' envFlagOff = 1)
      (henv : img.env.isSome = true)

/-- A prefix of two lists in a row ends in the first one or in the second. -/
theorem prefix_append_cases {α : Type} {l a b : List α} (h : l <+: a ++ b) :
    l <+: a ∨ ∃ c, c <+: b ∧ l = a ++ c := by
  obtain ⟨rest, hrest⟩ := h
  rcases List.append_eq_append_iff.mp hrest with ⟨c, ha, -⟩ | ⟨c, hl, hb⟩
  · exact .inl ⟨c, ha.symm⟩
  · exact .inr ⟨c, ⟨rest, hb.symm⟩, hl⟩

/-! ## §2 Prefixes of the writes -/

section Prefixes

variable (m : Contents) {img : Image}

/-- The ids are in place, whatever is written behind them. -/
theorem decodeIds_writes (h : img.Fits) {ws : List (ℕ × UInt8)} (hws : ∀ w ∈ ws, 5 ≤ w.1) :
    decodeIds (applyWrites m (idWrites img.vendor img.device img.rev ++ ws)) = img.ids := by
  apply decodeIds_of_idWrites h
  intro i hi
  rw [applyWrites_append, applyWrites_of_forall_ne]
  intro w hw
  exact Nat.ne_of_gt (Nat.lt_of_lt_of_le hi (hws w hw))

theorem decodeEnv_flagOff {m' : Contents} (h : m' envFlagOff = 0) : decodeEnv m' = some none :=
  if_pos h

/-- The flag stays off while the strings behind it are written. -/
theorem flag_strings {ws : List (ℕ × UInt8)} (hws : ∀ w ∈ ws, fabRevOff ≤ w.1) (b : UInt8) :
    applyWrites m ((envFlagOff, b) :: ws) envFlagOff = b := by
  rw [applyWrites_cons, applyWrites_of_forall_ne _ fun w hw => ?_, Function.update_self]
  exact Nat.ne_of_gt (hws w hw)

/-- **Prefixes**: whichever writes of an image have been made. -/
theorem interrupted_of_prefix (h : img.Fits) {ws : List (ℕ × UInt8)} (hws : ws <+: img.writes) :
    Interrupted m img (applyWrites m ws) := by
  obtain ⟨hflag, hfab, hvar, hsetting⟩ := layout
  -- some of the ids, from the first one on
  have hidsOnly : ∀ ws, ws <+: idWrites img.vendor img.device img.rev →
      Interrupted m img (applyWrites m ws) := by
    intro ws hids
    obtain ⟨k, hk, rfl⟩ := prefix_blockWrites hids
    refine .ids k hk (fun i hi => ?_) fun i hi => ?_
    · have hlen : i < ((idBytes img.vendor img.device img.rev).take k).length := by
        rw [List.length_take]
        exact Nat.lt_min.mpr ⟨hi, Nat.lt_of_lt_of_le hi hk⟩
      have hwritten := applyWrites_blockWrites_getElem m 0x00 hlen
      rw [Nat.zero_add] at hwritten
      rw [hwritten, List.getElem_take, List.getElem?_eq_getElem]
    · apply applyWrites_of_forall_ne
      intro w hw
      have hrange := range_of_mem_blockWrites hw
      have hlen := List.length_take_le k (idBytes img.vendor img.device img.rev)
      omega
  rw [Image.writes, List.append_assoc, List.append_assoc] at hws
  rcases prefix_append_cases hws with hids | ⟨rest, hrest, rfl⟩
  · exact hidsOnly ws hids
  rw [List.singleton_append] at hrest
  rcases List.prefix_cons_iff.mp hrest with rfl | ⟨strings, rfl, hstrings⟩
  · rw [List.append_nil]
    exact hidsOnly _ (List.prefix_refl _)
  -- with the flag off nothing is announced, however much of the fab revision is there
  have hstringsOnly : ∀ ws, ws <+: img.fabRev.writes fabRevOff → Interrupted m img
      (applyWrites m (idWrites img.vendor img.device img.rev ++ (envFlagOff, 0) :: ws)) := by
    intro ws hpart
    have hrange : ∀ w ∈ ws, fabRevOff ≤ w.1 := fun w hw =>
      (img.fabRev.range_of_mem_writes (hpart.subset hw)).1
    refine .strings (decodeIds_writes m h fun w hw => ?_) (decodeEnv_flagOff ?_)
    · rcases List.mem_cons.mp hw with rfl | hw
      · exact Nat.le_of_eq hflag.symm
      · have hle := hrange w hw
        omega
    · rw [applyWrites_append]
      exact flag_strings _ hrange 0
  rcases prefix_append_cases hstrings with hpart | ⟨env, henv, rfl⟩
  · exact hstringsOnly strings hpart
  cases hentry : img.env with
  | none =>
    rw [hentry, envWrites, List.prefix_nil] at henv
    rw [henv, List.append_nil]
    exact hstringsOnly _ (List.prefix_refl _)
  | some e =>
    rw [hentry, envWrites] at henv
    rcases List.prefix_cons_iff.mp henv with rfl | ⟨texts, rfl, htexts⟩
    · rw [List.append_nil]
      exact hstringsOnly _ (List.prefix_refl _)
    · -- the flag is set, and the texts behind it reach neither the ids nor the fab revision
      have hrange : ∀ w ∈ texts, envVarOff ≤ w.1 := by
        intro w hw
        rcases List.mem_append.mp (htexts.subset hw) with hw | hw
        · exact (e.1.range_of_mem_writes hw).1
        · have hle := (e.2.range_of_mem_writes hw).1
          omega
      refine .environment (decodeIds_writes m h fun w hw => ?_) ?_ ?_ (by rw [hentry]; rfl)
      · rcases List.mem_cons.mp hw with rfl | hw
        · exact Nat.le_of_eq hflag.symm
        rcases List.mem_append.mp hw with hw | hw
        · have hle := (img.fabRev.range_of_mem_writes hw).1
          omega
        rcases List.mem_cons.mp hw with rfl | hw
        · exact Nat.le_of_eq hflag.symm
        · have hle := hrange w hw
          omega
      · rw [← List.cons_append, ← List.append_assoc, applyWrites_append,
          FieldString.read_applyWrites fun w hw => ?_, applyWrites_append, applyWrites_cons,
          FieldString.read_writes]
        rcases List.mem_cons.mp hw with rfl | hw
        · exact .inl (by rw [hflag, hfab]; exact Nat.lt_succ_self 5)
        · have hle := hrange w hw
          omega
      · rw [← List.cons_append, ← List.append_assoc, applyWrites_append]
        apply flag_strings
        intro w hw
        have hle := hrange w hw
        omega

end Prefixes

/-! ## §3 Prefixes of the commands -/

/-- **Interrupted programming**: whichever of the printed commands the boot loader has run, in
their order, and whatever the EEPROM held before. -/
theorem execute_interrupted (fabRev : FieldString 8) (env : Option EnvEntry)
    (deviceId rev address : List Char) (device r : ℕ) (bus : ℤ)
    (hdev : pyInt16 deviceId = .ok device) (hdevice : device ≤ 0xFFFF)
    (hrev : pyInt16 rev = .ok r) (hr : r ≤ 0xFF) (haddr : IsWord address) :
    ∃ lines, execute fabRev.bytes (env.map fun e => [(e.1.bytes, e.2.bytes)]) deviceId rev bus
        address = .ok (0, lines) ∧
      ∀ done, done <+: lines → ∀ m,
        Interrupted m ⟨0x0002, device, r, fabRev, env⟩ (applyWrites m (ubootWrites done)) := by
  have hfits : (Image.mk 0x0002 device r fabRev env).Fits :=
    ⟨(by decide : 0x0002 ≤ 0xFFFF), hdevice, hr⟩
  refine ⟨_, execute_eq address fabRev env hdev hrev bus, fun done hdone m => ?_⟩
  apply interrupted_of_prefix m hfits
  rw [← ubootWrites_printed haddr fabRev env device r bus]
  exact hdone.filterMap ubootStore

theorem execute_interrupted_display :
    ∃ lines, execute [82, 49, 50] (some [([100, 118, 105], [49, 48, 50, 52])]) "0x0123".toList
        "0x05".toList 2 "0x51".toList = .ok (0, lines) ∧
      ∀ done, done <+: lines → ∀ m,
        Interrupted m ⟨0x0002, 0x0123, 0x05, ⟨[82, 49, 50], by decide, by decide⟩,
          some (⟨[100, 118, 105], by decide, by decide⟩,
            ⟨[49, 48, 50, 52], by decide, by decide⟩)⟩ (applyWrites m (ubootWrites done)) :=
  execute_interrupted ⟨[82, 49, 50], by decide, by decide⟩
    (some (⟨[100, 118, 105], by decide, by decide⟩, ⟨[49, 48, 50, 52], by decide, by decide⟩))
    "0x0123".toList "0x05".toList "0x51".toList 0x0123 0x05 2 (by decide) (by decide) (by decide)
    (by decide) (by decide)

end GumstixExtras.Eeprom
