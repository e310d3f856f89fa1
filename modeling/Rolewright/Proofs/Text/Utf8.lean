/-
# Reading what was written

Strict reading of the bytes of a text gives the text. The bytes of a character are read one by one:
the first tells how many follow and in which interval the second lies, and each of the others adds
six bits.
-/

import Rolewright.Text.Utf8

namespace Rolewright.Text

/-! ## Bytes of a text -/

theorem toList_loop (bytes : ByteArray) (i : Nat) (read : List UInt8) :
    ByteArray.toList.loop bytes i read = read.reverse ++ bytes.data.toList.drop i := by
  fun_induction ByteArray.toList.loop bytes i read with
  | case1 i read inside ih =>
      have bound : i < bytes.data.toList.length := by simpa using inside
      have same : bytes.get! i = bytes.data.toList[i] := by
        rw [ByteArray.get!, getElem!_pos bytes.data i (by simpa using inside), Array.getElem_toList]
      rw [ih, List.drop_eq_getElem_cons bound, List.reverse_cons, List.append_assoc,
        List.singleton_append, same]
  | case2 i read outside =>
      have bound : bytes.data.toList.length ≤ i := by simpa using outside
      rw [List.drop_of_length_le bound, List.append_nil]

/-- The bytes of a text are those of its characters. -/
theorem encode_eq_flatMap (cs : List Char) : encode cs = cs.flatMap String.utf8EncodeChar := by
  rw [encode, String.toUTF8_eq_toByteArray, String.toByteArray_ofList, ByteArray.toList,
    toList_loop]
  simp [List.utf8Encode]

/-! ## Bytes by their numbers -/

theorem toNat_ofNat {n : Nat} (small : n < 256) : (UInt8.ofNat n).toNat = n :=
  UInt8.toNat_ofNat_of_lt (by simpa [UInt8.size] using small)

theorem opening_eq (b : UInt8) :
    opening b =
      if b.toNat < 0x80 then .whole (Char.ofNat b.toNat)
      else if 0xC2 ≤ b.toNat ∧ b.toNat ≤ 0xDF then .pending ⟨b.toNat % 32, 1, 0x80, 0xBF⟩
      else if b.toNat = 0xE0 then .pending ⟨0, 2, 0xA0, 0xBF⟩
      else if b.toNat = 0xED then .pending ⟨0xD, 2, 0x80, 0x9F⟩
      else if 0xE1 ≤ b.toNat ∧ b.toNat ≤ 0xEF then .pending ⟨b.toNat % 16, 2, 0x80, 0xBF⟩
      else if b.toNat = 0xF0 then .pending ⟨0, 3, 0x90, 0xBF⟩
      else if 0xF1 ≤ b.toNat ∧ b.toNat ≤ 0xF3 then .pending ⟨b.toNat % 8, 3, 0x80, 0xBF⟩
      else if b.toNat = 0xF4 then .pending ⟨4, 3, 0x80, 0x8F⟩
      else .broken := by
  simp only [opening, UInt8.lt_iff_toNat_lt, UInt8.le_iff_toNat_le, Bool.and_eq_true,
    decide_eq_true_eq, beq_iff_eq, ← UInt8.toNat_inj]
  rfl

/-- A first byte of two, of three and of four. The second of them lies in a narrower interval where
the first alone would admit a spelling that is too long, a surrogate or a number beyond the last. -/
theorem opening_of_two {n : Nat} (low : 0xC2 ≤ n) (high : n ≤ 0xDF) :
    opening (UInt8.ofNat n) = .pending ⟨n % 32, 1, 0x80, 0xBF⟩ := by
  rw [opening_eq, toNat_ofNat (by omega), if_neg (by omega), if_pos (by omega)]

theorem opening_of_three {n : Nat} (low : 0xE0 ≤ n) (high : n ≤ 0xEF) :
    opening (UInt8.ofNat n) = .pending
      ⟨n % 16, 2, if n = 0xE0 then 0xA0 else 0x80, if n = 0xED then 0x9F else 0xBF⟩ := by
  rw [opening_eq, toNat_ofNat (by omega), if_neg (by omega), if_neg (by omega)]
  by_cases least : n = 0xE0
  · rw [least]
    rfl
  · by_cases surrogate : n = 0xED
    · rw [surrogate]
      rfl
    · rw [if_neg least, if_neg surrogate, if_pos (by omega), if_neg least, if_neg surrogate]

theorem opening_of_four {n : Nat} (low : 0xF0 ≤ n) (high : n ≤ 0xF4) :
    opening (UInt8.ofNat n) = .pending
      ⟨n % 8, 3, if n = 0xF0 then 0x90 else 0x80, if n = 0xF4 then 0x8F else 0xBF⟩ := by
  rw [opening_eq, toNat_ofNat (by omega), if_neg (by omega), if_neg (by omega), if_neg (by omega),
    if_neg (by omega), if_neg (by omega)]
  by_cases least : n = 0xF0
  · rw [least]
    rfl
  · by_cases last : n = 0xF4
    · rw [last]
      rfl
    · rw [if_neg least, if_pos (by omega), if_neg least, if_neg last]

/-- A byte below 128 is that of the character with its number and of no other, since all bytes of a
character that takes several are larger. -/
theorem eq_of_mem_utf8EncodeChar {b : UInt8} (small : b.toNat < 0x80) {c : Char}
    (member : b ∈ String.utf8EncodeChar c) : c = Char.ofNat b.toNat := by
  have same : Char.ofNat c.val.toNat = c := Char.ofNat_toNat c
  have notLarge {n : Nat} (large : 0x80 ≤ n) (byte : n < 256) : b ≠ UInt8.ofNat n := by
    rintro rfl
    rw [toNat_ofNat byte] at small
    omega
  unfold String.utf8EncodeChar at member
  generalize c.val.toNat = v at member same
  dsimp only at member
  split at member
  · rw [List.mem_singleton.mp member, toNat_ofNat (by omega), same]
  exfalso
  split at member
  · simp only [List.mem_cons, List.not_mem_nil, or_false] at member
    rcases member with byte | byte <;> exact notLarge (by omega) (by omega) byte
  split at member
  · simp only [List.mem_cons, List.not_mem_nil, or_false] at member
    rcases member with byte | byte | byte <;> exact notLarge (by omega) (by omega) byte
  · simp only [List.mem_cons, List.not_mem_nil, or_false] at member
    rcases member with byte | byte | byte | byte <;> exact notLarge (by omega) (by omega) byte

theorem mem_of_mem_encode {b : UInt8} (small : b.toNat < 0x80) {cs : List Char}
    (member : b ∈ encode cs) : Char.ofNat b.toNat ∈ cs := by
  rw [encode_eq_flatMap] at member
  obtain ⟨c, inside, byte⟩ := List.mem_flatMap.mp member
  exact eq_of_mem_utf8EncodeChar small byte ▸ inside

/-- A byte that continues a character adds six bits. -/
theorem extend?_ofNat {bits due n : Nat} {lo hi : UInt8} (low : lo.toNat ≤ n % 64 + 0x80)
    (high : n % 64 + 0x80 ≤ hi.toNat) :
    Pending.extend? ⟨bits, due, lo, hi⟩ (UInt8.ofNat (n % 64 + 0x80)) =
      some (if due ≤ 1 then .whole (Char.ofNat (bits * 64 + n % 64))
        else .pending ⟨bits * 64 + n % 64, due - 1, 0x80, 0xBF⟩) := by
  have cut : (n % 64 + 0x80) % 64 = n % 64 := by omega
  have inside : lo ≤ UInt8.ofNat (n % 64 + 0x80) ∧ UInt8.ofNat (n % 64 + 0x80) ≤ hi := by
    rw [UInt8.le_iff_toNat_le, UInt8.le_iff_toNat_le, toNat_ofNat (by omega)]
    exact ⟨low, high⟩
  rw [Pending.extend?, toNat_ofNat (by omega), cut]
  exact if_pos (by simpa using inside)

/-! ## Reading byte by byte -/

variable (bytes : List UInt8)

theorem decodeWith_of_whole {b : UInt8} {c : Char} (opens : opening b = .whole c) :
    decodeWith none none (b :: bytes) = (decodeWith none none bytes).map (c :: ·) := by
  simp [decodeWith, opens]

theorem decodeWith_of_pending {b : UInt8} {p : Pending} (opens : opening b = .pending p) :
    decodeWith none none (b :: bytes) = decodeWith none (some p) bytes := by
  simp [decodeWith, opens]

theorem decodeWith_of_extend?_whole {p : Pending} {b : UInt8} {c : Char}
    (next : p.extend? b = some (.whole c)) :
    decodeWith none (some p) (b :: bytes) = (decodeWith none none bytes).map (c :: ·) := by
  simp [decodeWith, next]

theorem decodeWith_of_extend?_pending {p q : Pending} {b : UInt8}
    (next : p.extend? b = some (.pending q)) :
    decodeWith none (some p) (b :: bytes) = decodeWith none (some q) bytes := by
  simp [decodeWith, next]

/-- A byte after which more are due. -/
theorem decodeWith_continue {bits due n : Nat} {lo hi : UInt8} (more : 2 ≤ due)
    (low : lo.toNat ≤ n % 64 + 0x80) (high : n % 64 + 0x80 ≤ hi.toNat) :
    decodeWith none (some ⟨bits, due, lo, hi⟩) (UInt8.ofNat (n % 64 + 0x80) :: bytes) =
      decodeWith none (some ⟨bits * 64 + n % 64, due - 1, 0x80, 0xBF⟩) bytes := by
  apply decodeWith_of_extend?_pending
  rw [extend?_ofNat low high, if_neg (by omega)]

/-- The last byte of a character. -/
theorem decodeWith_complete {bits n : Nat} {lo hi : UInt8} (low : lo.toNat ≤ n % 64 + 0x80)
    (high : n % 64 + 0x80 ≤ hi.toNat) :
    decodeWith none (some ⟨bits, 1, lo, hi⟩) (UInt8.ofNat (n % 64 + 0x80) :: bytes) =
      (decodeWith none none bytes).map (Char.ofNat (bits * 64 + n % 64) :: ·) := by
  apply decodeWith_of_extend?_whole
  rw [extend?_ofNat low high, if_pos (Nat.le_refl 1)]

/-- The bytes of a character are read as the character. -/
theorem decodeWith_char (c : Char) :
    decodeWith none none (String.utf8EncodeChar c ++ bytes) =
      (decodeWith none none bytes).map (c :: ·) := by
  have valid : c.val.toNat < 0xD800 ∨ 0xDFFF < c.val.toNat ∧ c.val.toNat < 0x110000 := c.valid
  have same : Char.ofNat c.val.toNat = c := Char.ofNat_toNat c
  unfold String.utf8EncodeChar
  generalize c.val.toNat = v at valid same
  dsimp only
  split
  · have first : opening (UInt8.ofNat v) = .whole c := by
      rw [opening_eq, toNat_ofNat (by omega), if_pos (by omega), same]
    rw [List.singleton_append, decodeWith_of_whole _ first]
  split
  · have first := opening_of_two (n := v / 64 % 32 + 0xC0) (by omega) (by omega)
    have bits : (v / 64 % 32 + 0xC0) % 32 * 64 + v % 64 = v := by omega
    rw [List.cons_append, List.singleton_append, decodeWith_of_pending _ first,
      decodeWith_complete _ (by simp) (by simp; omega), bits, same]
  split
  · have first := opening_of_three (n := v / 4096 % 16 + 0xE0) (by omega) (by omega)
    have bits : ((v / 4096 % 16 + 0xE0) % 16 * 64 + v / 64 % 64) * 64 + v % 64 = v := by omega
    rw [List.cons_append, List.cons_append, List.singleton_append, decodeWith_of_pending _ first,
      decodeWith_continue _ (Nat.le_refl 2) ?_ ?_, decodeWith_complete _ (by simp) (by simp; omega),
      bits, same]
    · split
      · show 0xA0 ≤ _
        omega
      · show 0x80 ≤ _
        omega
    · split
      · show _ ≤ 0x9F
        omega
      · show _ ≤ 0xBF
        omega
  · have first := opening_of_four (n := v / 262144 % 8 + 0xF0) (by omega) (by omega)
    have bits : (((v / 262144 % 8 + 0xF0) % 8 * 64 + v / 4096 % 64) * 64 + v / 64 % 64) * 64 +
        v % 64 = v := by omega
    rw [List.cons_append, List.cons_append, List.cons_append, List.singleton_append,
      decodeWith_of_pending _ first, decodeWith_continue _ (Nat.le_succ 2) ?_ ?_,
      decodeWith_continue _ (Nat.le_refl 2) (by simp) (by simp; omega),
      decodeWith_complete _ (by simp) (by simp; omega), bits, same]
    · split
      · show 0x90 ≤ _
        omega
      · show 0x80 ≤ _
        omega
    · split
      · show _ ≤ 0x8F
        omega
      · show _ ≤ 0xBF
        omega

/-- A text is read from its own bytes. -/
theorem decode?_encode (cs : List Char) : decode? (encode cs) = some cs := by
  rw [encode_eq_flatMap, decode?]
  induction cs with
  | nil => rfl
  | cons c cs ih => rw [List.flatMap_cons, decodeWith_char, ih, Option.map_some]

/-- So no two texts have the same bytes. -/
theorem encode_injective : Function.Injective encode := by
  intro cs ds same
  have read := congrArg decode? same
  rwa [decode?_encode, decode?_encode, Option.some_inj] at read

/-! ## The lenient reader -/

/-- Whatever the strict reader reads, the lenient one reads in the same way. -/
theorem decodeWith_some_of_none {bad : Char} {bytes : List UInt8} {state : Option Pending}
    {cs : List Char} (strict : decodeWith none state bytes = some cs) :
    decodeWith (some bad) state bytes = some cs := by
  induction bytes generalizing state cs with
  | nil =>
      cases state with
      | none => exact strict
      | some p => cases strict
  | cons b bytes ih =>
      have read {state : Option Pending} {lead : List Char → List Char}
          (strict : (decodeWith none state bytes).map lead = some cs) :
          (decodeWith (some bad) state bytes).map lead = some cs := by
        obtain ⟨rest, read, rfl⟩ := Option.map_eq_some_iff.mp strict
        rw [ih read, Option.map_some]
      simp only [decodeWith] at strict ⊢
      cases cut : state.isSome && (state.bind fun p => p.extend? b).isNone with
      | true => simp [cut] at strict
      | false =>
          simp only [cut, Bool.false_eq_true, if_false, Option.bind_some] at strict ⊢
          cases opens : (state.bind fun p => p.extend? b).getD (opening b) with
          | whole c => exact read (by simpa only [opens] using strict)
          | pending p => exact read (by simpa only [opens] using strict)
          | broken => simp [opens] at strict

theorem decodeLenient_of_decode? {bytes : List UInt8} {cs : List Char}
    (strict : decode? bytes = some cs) : decodeLenient bytes = cs := by
  rw [decodeLenient, decodeWith_some_of_none strict, Option.getD_some]

end Rolewright.Text
