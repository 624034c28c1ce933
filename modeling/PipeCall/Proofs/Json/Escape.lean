import PipeCall.Json.Printer

/-!
# Written strings

What `escaped` writes for a character is read as the pieces of that character: the number of a `\u`
escape for a control that has no letter of its own, and its bytes for any other
(`takeString?_escaped`). The pieces of a text spell the text again (`text?_pieces`), so a string that
was written is read back whatever it holds and whatever follows it. The one fact about UTF-8 behind
it is that a character beyond ASCII has no byte of ASCII (`le_of_mem_encodeChar`).
-/

namespace PipeCall

namespace Utf8

/-- A character of ASCII is one byte, of the same number. -/
theorem encodeChar_of_lt {c : Char} (h : c.toNat < 0x80) : encodeChar c = [UInt8.ofNat c.toNat] := by
  have hle : c.val.toNat ≤ 127 := Nat.le_of_lt_succ h
  exact if_pos hle

/-- Characters of ASCII are bytes of the same numbers. -/
theorem encodeChars_of_lt {cs : List Char} (h : ∀ c ∈ cs, c.toNat < 0x80) :
    encodeChars cs = cs.map fun c => UInt8.ofNat c.toNat := by
  induction cs with
  | nil => rfl
  | cons c cs ih =>
    rw [encodeChars_cons, encodeChar_of_lt (h c (by simp)), ih fun d hd => h d (by simp [hd])]
    rfl

/-- A character beyond ASCII has no byte of ASCII. -/
theorem le_of_mem_encodeChar {c : Char} (h : 0x80 ≤ c.toNat) {b : UInt8} (hb : b ∈ encodeChar c) :
    0x80 ≤ b := by
  have hlt : ¬c.val.toNat ≤ 127 := Nat.not_le_of_lt h
  have hbyte : ∀ n : Nat, 128 ≤ n → n < 256 → 0x80 ≤ UInt8.ofNat n := by
    intro n hlow hhigh
    rw [UInt8.le_iff_toNat_le, UInt8.toNat_ofNat', Nat.mod_eq_of_lt hhigh]
    exact hlow
  unfold encodeChar String.utf8EncodeChar at hb
  rw [if_neg hlt] at hb
  split at hb
  · simp only [List.mem_cons, List.not_mem_nil, or_false] at hb
    rcases hb with rfl | rfl <;> exact hbyte _ (by omega) (by omega)
  · split at hb
    · simp only [List.mem_cons, List.not_mem_nil, or_false] at hb
      rcases hb with rfl | rfl | rfl <;> exact hbyte _ (by omega) (by omega)
    · simp only [List.mem_cons, List.not_mem_nil, or_false] at hb
      rcases hb with rfl | rfl | rfl | rfl <;> exact hbyte _ (by omega) (by omega)

end Utf8

namespace Json

/-- The pieces of a character in a written string. -/
def charPieces (c : Char) : List Piece :=
  if c.toNat < 0x20 ∧ c ∉ ['\x08', '\x0c', '\n', '\r', '\t'] then [.unit c.toNat]
  else (Utf8.encodeChar c).map .byte

/-- The pieces of a text in a written string. -/
def pieces (cs : List Char) : List Piece := cs.flatMap charPieces

/-! ## Reading pieces -/

namespace Token

/-- A byte that stands for itself in a written string. -/
def isPlain (b : UInt8) : Bool := 0x20 ≤ b && b != 0x22 && b != 0x5c

/-- A byte that stands for itself is read as it is. -/
theorem takeString?_plain {b : UInt8} (h : isPlain b = true) (rest : Bytes) :
    takeString? (b :: rest) = (takeString? rest).map fun (ps, rest) => (.byte b :: ps, rest) := by
  simp only [isPlain, Bool.and_eq_true, decide_eq_true_eq, bne_iff_ne] at h
  obtain ⟨⟨hlow, hquote⟩, hslash⟩ := h
  have hstop : (decide (b < 0x20) || b == 0x5c) = false := by
    simp [hslash, UInt8.not_lt.2 hlow]
  rw [takeString?, hstop]
  · rfl
  · exact hquote
  · exact fun _ _ _ _ _ h => absurd h hslash
  · exact fun _ _ h => absurd h hslash

/-- A letter after a backslash is read as the byte that it stands for. -/
theorem takeString?_escape {c b : UInt8} (h : escape? c = some b) (hc : c ≠ 0x75) (rest : Bytes) :
    takeString? (0x5c :: c :: rest) =
      (takeString? rest).map fun (ps, rest) => (.byte b :: ps, rest) := by
  rw [takeString?, h]
  intro _ _ _ _ _ hu
  exact absurd hu hc

/-- Four hexadecimal digits after a backslash and `u` are read as the number that they write. -/
theorem takeString?_unit {a b c d : UInt8} {n : Nat} (h : hexUnit? a b c d = some n) (rest : Bytes) :
    takeString? (0x5c :: 0x75 :: a :: b :: c :: d :: rest) =
      (takeString? rest).map fun (ps, rest) => (.unit n :: ps, rest) := by
  rw [takeString?, h]

/-- Bytes that stand for themselves are read as they are. -/
theorem takeString?_append {bs : Bytes} (h : ∀ b ∈ bs, isPlain b = true) (rest : Bytes) :
    takeString? (bs ++ rest) =
      (takeString? rest).map fun (ps, rest) => (bs.map .byte ++ ps, rest) := by
  induction bs with
  | nil => simp
  | cons b bs ih =>
    rw [List.cons_append, takeString?_plain (h b (by simp)), ih fun b hb => h b (by simp [hb]),
      Option.map_map]
    rfl

/-- The number of an ASCII control is written in four hexadecimal digits. -/
theorem hexUnit?_hexDigit :
    ∀ n < 0x20, hexUnit? 0x30 0x30 (UInt8.ofNat (hexDigit (n / 16)).toNat)
      (UInt8.ofNat (hexDigit (n % 16)).toNat) = some n := by
  decide

/-- A hexadecimal digit is a character of ASCII. -/
theorem hexDigit_lt : ∀ n < 16, (hexDigit n).toNat < 0x80 := by decide

/-- The bytes of an escape with a number. -/
theorem encodeChars_unit {n : Nat} (h : n < 0x100) :
    Utf8.encodeChars ['\\', 'u', '0', '0', hexDigit (n / 16), hexDigit (n % 16)] =
      [0x5c, 0x75, 0x30, 0x30, UInt8.ofNat (hexDigit (n / 16)).toNat,
        UInt8.ofNat (hexDigit (n % 16)).toNat] := by
  refine Utf8.encodeChars_of_lt ?_
  simp only [List.mem_cons, List.not_mem_nil, or_false]
  rintro d (rfl | rfl | rfl | rfl | rfl | rfl)
  · decide
  · decide
  · decide
  · decide
  · exact hexDigit_lt _ (by omega)
  · exact hexDigit_lt _ (by omega)

/-- A character that is neither a control nor a quote nor a backslash is written as bytes that stand
for themselves. -/
theorem isPlain_of_mem_encodeChar {c : Char} (hlow : 0x20 ≤ c.toNat) (hquote : c ≠ '"')
    (hslash : c ≠ '\\') {b : UInt8} (hb : b ∈ Utf8.encodeChar c) : isPlain b = true := by
  simp only [isPlain, Bool.and_eq_true, decide_eq_true_eq, bne_iff_ne]
  by_cases hascii : c.toNat < 0x80
  · rw [Utf8.encodeChar_of_lt hascii, List.mem_singleton] at hb
    have hnat : b.toNat = c.toNat := by
      rw [hb, UInt8.toNat_ofNat', Nat.mod_eq_of_lt (by omega)]
    have hne : ∀ d : Char, c ≠ d → b.toNat ≠ d.toNat := fun d hd h =>
      hd (Char.ext (UInt32.toNat_inj.1 (hnat.symm.trans h)))
    refine ⟨⟨?_, ?_⟩, ?_⟩
    · rw [UInt8.le_iff_toNat_le, hnat]
      exact hlow
    · rintro rfl
      exact hne '"' hquote rfl
    · rintro rfl
      exact hne '\\' hslash rfl
  · -- No byte of the character is one of ASCII.
    have hhigh := Utf8.le_of_mem_encodeChar (Nat.le_of_not_lt hascii) hb
    rw [UInt8.le_iff_toNat_le] at hhigh
    refine ⟨⟨?_, ?_⟩, ?_⟩
    · rw [UInt8.le_iff_toNat_le]
      exact Nat.le_trans (by decide) hhigh
    · rintro rfl
      exact absurd hhigh (by decide)
    · rintro rfl
      exact absurd hhigh (by decide)

/-- What is written for a character is read as its pieces. -/
theorem takeString?_escaped (c : Char) (rest : Bytes) :
    takeString? (Utf8.encodeChars (escaped c) ++ rest) =
      (takeString? rest).map fun (ps, rest) => (charPieces c ++ ps, rest) := by
  unfold escaped
  split
  case h_8 hquote hslash hb hf hn hr ht =>
    split
    · rename_i hlow
      have hpieces : charPieces c = [.unit c.toNat] := if_pos ⟨hlow, by simp_all⟩
      rw [encodeChars_unit (Nat.lt_trans hlow (by decide)), hpieces]
      exact takeString?_unit (hexUnit?_hexDigit c.toNat hlow) rest
    · rename_i hlow
      have hpieces : charPieces c = (Utf8.encodeChar c).map .byte :=
        if_neg fun hcontrol => hlow hcontrol.1
      rw [hpieces, Utf8.encodeChars_cons, Utf8.encodeChars_nil, List.append_nil]
      exact takeString?_append (fun b hb =>
        isPlain_of_mem_encodeChar (Nat.le_of_not_lt hlow) hquote hslash hb) rest
  -- The others are written as a backslash and a letter.
  all_goals exact takeString?_escape rfl (by decide) rest

/-- A written text is read as its pieces, up to the closing quote. -/
theorem takeString?_flatMap_escaped (cs : List Char) (rest : Bytes) :
    takeString? (Utf8.encodeChars (cs.flatMap escaped) ++ 0x22 :: rest) = some (pieces cs, rest) := by
  induction cs with
  | nil => rfl
  | cons c cs ih =>
    rw [List.flatMap_cons, Utf8.encodeChars_append, List.append_assoc, takeString?_escaped, ih]
    rfl

end Token

/-! ## What pieces spell -/

/-- Bytes spell themselves. -/
theorem spell?_bytes (bs : Bytes) (ps : List Piece) :
    spell? (bs.map .byte ++ ps) = (spell? ps).map (bs ++ ·) := by
  induction bs with
  | nil => simp
  | cons b bs ih =>
    rw [List.map_cons, List.cons_append, spell?, ih, Option.map_map]
    rfl

/-- The pieces of a character spell its bytes. -/
theorem spell?_charPieces (c : Char) (ps : List Piece) :
    spell? (charPieces c ++ ps) = (spell? ps).map (Utf8.encodeChar c ++ ·) := by
  unfold charPieces
  split
  · rename_i hcontrol
    -- The number of a control is no surrogate.
    have hhigh : isHighUnit c.toNat = false := by simp [isHighUnit]; omega
    have hlow : isLowUnit c.toNat = false := by simp [isLowUnit]; omega
    rw [List.singleton_append, spell?.eq_def]
    simp [hhigh, hlow]
  · exact spell?_bytes _ ps

/-- The pieces of a text spell its bytes. -/
theorem spell?_pieces (cs : List Char) : spell? (pieces cs) = some (Utf8.encodeChars cs) := by
  induction cs with
  | nil => rfl
  | cons c cs ih =>
    rw [pieces, List.flatMap_cons, spell?_charPieces, ← pieces, ih]
    rfl

/-- The pieces of a text spell that text. -/
theorem text?_pieces (s : String) : text? (pieces s.toList) = some s := by
  rw [text?, spell?_pieces]
  exact Utf8.decode?_encode s

end Json

end PipeCall
