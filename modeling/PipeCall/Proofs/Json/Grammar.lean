import Mathlib.Data.List.Chain
import Mathlib.Data.List.TakeWhile
import PipeCall.Proofs.Json.Lexing

/-!
# How tokens are written

The texts of RFC 8259, without a lexer: `WritesToken text t` says that a byte string is a way to write
a token, and `Writes bs ts` that one consists of tokens and white space between them. The lexer
finds the tokens of such a byte string (`Writes.lex?`), unless two numbers stand next to each other,
which run together; and whatever it finds is written there (`writes_of_lex?`).
-/

namespace PipeCall.Json

/-! ## Numbers -/

/-- A run of decimal digits, one at least. -/
structure WritesDigits (text : Bytes) (ds : List Char) : Prop where
  chars : ds = text.map fun b => Char.ofNat b.toNat
  some : text ≠ []
  digits : ∀ b ∈ text, Token.isDigit b = true

/-- The part of a number before the point: a zero, or digits that do not start with one. -/
inductive WritesWhole : Bytes → List Char → Prop where
  | zero : WritesWhole [0x30] ['0']
  | digits {text : Bytes} {ds : List Char} (head : text.head? ≠ some 0x30)
      (digits : WritesDigits text ds) : WritesWhole text ds

/-- The part of a number from the point on, if there is one. -/
inductive WritesFraction : Bytes → Option (List Char) → Prop where
  | absent : WritesFraction [] none
  | point {text : Bytes} {ds : List Char} (digits : WritesDigits text ds) :
      WritesFraction (0x2e :: text) (some ds)

/-- The digits of an exponent and its sign, which may be left out. -/
inductive WritesSigned : Bytes → Bool × List Char → Prop where
  | bare {text : Bytes} {ds : List Char} (digits : WritesDigits text ds) :
      WritesSigned text (false, ds)
  | plus {text : Bytes} {ds : List Char} (digits : WritesDigits text ds) :
      WritesSigned (0x2b :: text) (false, ds)
  | minus {text : Bytes} {ds : List Char} (digits : WritesDigits text ds) :
      WritesSigned (0x2d :: text) (true, ds)

/-- The exponent of a number, if there is one. -/
inductive WritesExponent : Bytes → Option (Bool × List Char) → Prop where
  | absent : WritesExponent [] none
  | lower {text : Bytes} {e : Bool × List Char} (signed : WritesSigned text e) :
      WritesExponent (0x65 :: text) (some e)
  | upper {text : Bytes} {e : Bool × List Char} (signed : WritesSigned text e) :
      WritesExponent (0x45 :: text) (some e)

/-- A number after its sign. -/
inductive WritesUnsigned (negative : Bool) : Bytes → NumberLiteral → Prop where
  | intro {w f e : Bytes} {n : NumberLiteral} (sign : n.negative = negative)
      (whole : WritesWhole w n.whole) (fraction : WritesFraction f n.fraction)
      (exponent : WritesExponent e n.exponent) : WritesUnsigned negative (w ++ (f ++ e)) n

/-- A number. -/
inductive WritesNumber : Bytes → NumberLiteral → Prop where
  | positive {text : Bytes} {n : NumberLiteral} (unsigned : WritesUnsigned false text n) :
      WritesNumber text n
  | negative {text : Bytes} {n : NumberLiteral} (unsigned : WritesUnsigned true text n) :
      WritesNumber (0x2d :: text) n

/-! ### Numbers that are printed -/

section Printed

variable {ds : List Char}

/-- Digits are written as themselves. -/
theorem writesDigits_encodeChars (some : ds ≠ []) (digits : ∀ c ∈ ds, c.isDigit = true) :
    WritesDigits (Utf8.encodeChars ds) ds := by
  have hbytes := Utf8.encodeChars_of_lt fun c hc => (Token.isDigit_ofNat (digits c hc)).1
  refine ⟨?_, ?_, ?_⟩
  · rw [hbytes, List.map_map]
    exact ((List.map_congr_left fun c hc => (Token.isDigit_ofNat (digits c hc)).2.2).trans
      (List.map_id ds)).symm
  · simpa [hbytes] using some
  · intro b hb
    rw [hbytes] at hb
    obtain ⟨c, hc, rfl⟩ := List.mem_map.1 hb
    exact (Token.isDigit_ofNat (digits c hc)).2.1

/-- Digits without a zero in front are written as the digits before a point. -/
theorem writesWhole_encodeChars (some : ds ≠ []) (digits : ∀ c ∈ ds, c.isDigit = true)
    (lead : ds.head? = Option.some '0' → ds = ['0']) : WritesWhole (Utf8.encodeChars ds) ds := by
  by_cases hzero : ds.head? = Option.some '0'
  · rw [lead hzero]
    exact .zero
  · refine .digits ?_ (writesDigits_encodeChars some digits)
    obtain ⟨c, ds, rfl⟩ := List.exists_cons_of_ne_nil some
    obtain ⟨hascii, -, hback⟩ := Token.isDigit_ofNat (digits c (by simp))
    rw [Utf8.encodeChars_cons, Utf8.encodeChar_of_lt hascii]
    intro hhead
    rw [Option.some.inj hhead] at hback
    exact hzero (congrArg Option.some hback.symm)

/-- An integer is written as its sign and its digits. -/
theorem writesNumber_integerChars (n : Int) :
    WritesNumber (Utf8.encodeChars (integerChars n)) (integerLiteral n) := by
  have hcanonical := Decimal.canonical_iff.2 (rfl : Nat.toDigits 10 n.natAbs = _)
  have hwhole := writesWhole_encodeChars hcanonical.nonempty hcanonical.digits hcanonical.lead
  have hunsigned : ∀ negative, WritesUnsigned negative (Utf8.encodeChars (Nat.toDigits 10 n.natAbs))
      ⟨negative, Nat.toDigits 10 n.natAbs, none, none⟩ := by
    intro negative
    have hparts := WritesUnsigned.intro (n := ⟨negative, Nat.toDigits 10 n.natAbs, none, none⟩) rfl
      hwhole .absent .absent
    rwa [List.append_nil, List.append_nil] at hparts
  unfold integerChars integerLiteral
  split
  · rename_i hneg
    rw [decide_eq_true hneg]
    exact .negative (hunsigned true)
  · rename_i hneg
    rw [decide_eq_false hneg]
    exact .positive (hunsigned false)

end Printed

namespace Token

variable {bs text rest : Bytes} {ds : List Char}

/-! ### What the lexer takes is a number -/

/-- What is taken for digits is digits. -/
theorem writes_of_takeDigits? (h : takeDigits? bs = some (ds, rest)) :
    ∃ text, bs = text ++ rest ∧ WritesDigits text ds := by
  unfold takeDigits? takeDigits at h
  split at h
  · simp at h
  · rename_i ds' rest' hne heq
    obtain ⟨rfl, rfl⟩ := Prod.mk.inj (Option.some.inj h)
    obtain ⟨hds, hrest⟩ := Prod.mk.inj heq
    refine ⟨bs.takeWhile isDigit, ?_, hds.symm, ?_, fun b hb =>
      List.all_eq_true.1 List.all_takeWhile b hb⟩
    · rw [← hrest, List.takeWhile_append_dropWhile]
    · intro hnil
      rw [hnil, List.map_nil] at hds
      exact hne hds.symm

/-- What is taken for the part before the point is one. -/
theorem writes_of_takeWhole? (h : takeWhole? bs = some (ds, rest)) :
    ∃ text, bs = text ++ rest ∧ WritesWhole text ds := by
  unfold takeWhole? at h
  split at h
  · obtain ⟨rfl, rfl⟩ := Prod.mk.inj (Option.some.inj h)
    exact ⟨[0x30], rfl, .zero⟩
  · rename_i hzero
    obtain ⟨text, rfl, hdigits⟩ := writes_of_takeDigits? h
    refine ⟨text, rfl, .digits ?_ hdigits⟩
    cases text with
    | nil => simp
    | cons b text =>
      intro hhead
      obtain rfl : b = 0x30 := by simpa using hhead
      exact hzero _ rfl

/-- What is taken for the part from the point on is one. -/
theorem writes_of_takeFraction? {fraction : Option (List Char)}
    (h : takeFraction? bs = some (fraction, rest)) :
    ∃ text, bs = text ++ rest ∧ WritesFraction text fraction := by
  unfold takeFraction? at h
  split at h
  · obtain ⟨⟨ds, rest'⟩, htake, heq⟩ := Option.map_eq_some_iff.1 h
    obtain ⟨rfl, rfl⟩ := Prod.mk.inj heq
    obtain ⟨text, rfl, hdigits⟩ := writes_of_takeDigits? htake
    exact ⟨0x2e :: text, rfl, .point hdigits⟩
  · obtain ⟨rfl, rfl⟩ := Prod.mk.inj (Option.some.inj h)
    exact ⟨[], rfl, .absent⟩

/-- What is taken for an exponent after its letter is one. -/
theorem writes_of_takeSigned? {e : Bool × List Char} (h : takeSigned? bs = some (e, rest)) :
    ∃ text, bs = text ++ rest ∧ WritesSigned text e := by
  unfold takeSigned? at h
  split at h
  all_goals
    obtain ⟨⟨ds, rest'⟩, htake, heq⟩ := Option.map_eq_some_iff.1 h
    obtain ⟨rfl, rfl⟩ := Prod.mk.inj heq
    obtain ⟨text, rfl, hdigits⟩ := writes_of_takeDigits? htake
  · exact ⟨0x2b :: text, rfl, .plus hdigits⟩
  · exact ⟨0x2d :: text, rfl, .minus hdigits⟩
  · exact ⟨text, rfl, .bare hdigits⟩

/-- What is taken for an exponent is one. -/
theorem writes_of_takeExponent? {exponent : Option (Bool × List Char)}
    (h : takeExponent? bs = some (exponent, rest)) :
    ∃ text, bs = text ++ rest ∧ WritesExponent text exponent := by
  unfold takeExponent? at h
  split at h
  · obtain ⟨⟨e, rest'⟩, htake, heq⟩ := Option.map_eq_some_iff.1 h
    obtain ⟨rfl, rfl⟩ := Prod.mk.inj heq
    obtain ⟨text, rfl, hsigned⟩ := writes_of_takeSigned? htake
    exact ⟨0x65 :: text, rfl, .lower hsigned⟩
  · obtain ⟨⟨e, rest'⟩, htake, heq⟩ := Option.map_eq_some_iff.1 h
    obtain ⟨rfl, rfl⟩ := Prod.mk.inj heq
    obtain ⟨text, rfl, hsigned⟩ := writes_of_takeSigned? htake
    exact ⟨0x45 :: text, rfl, .upper hsigned⟩
  · obtain ⟨rfl, rfl⟩ := Prod.mk.inj (Option.some.inj h)
    exact ⟨[], rfl, .absent⟩

/-- What is taken for a number after its sign is one. -/
theorem writes_of_takeUnsigned? {negative : Bool} {n : NumberLiteral}
    (h : takeUnsigned? negative bs = some (n, rest)) :
    ∃ text, bs = text ++ rest ∧ WritesUnsigned negative text n := by
  simp only [takeUnsigned?, Option.bind_eq_bind, Option.bind_eq_some_iff, Option.pure_def,
    Option.some.injEq, Prod.mk.injEq, Prod.exists] at h
  obtain ⟨_, _, takesWhole, _, _, takesFraction, _, _, takesExponent, rfl, rfl⟩ := h
  obtain ⟨w, rfl, whole⟩ := writes_of_takeWhole? takesWhole
  obtain ⟨f, rfl, fraction⟩ := writes_of_takeFraction? takesFraction
  obtain ⟨e, rfl, exponent⟩ := writes_of_takeExponent? takesExponent
  exact ⟨w ++ (f ++ e), by simp only [List.append_assoc], .intro rfl whole fraction exponent⟩

/-- What is taken for a number is one. -/
theorem writes_of_takeNumber? {n : NumberLiteral} (h : takeNumber? bs = some (n, rest)) :
    ∃ text, bs = text ++ rest ∧ WritesNumber text n := by
  unfold takeNumber? at h
  split at h
  · obtain ⟨text, rfl, hunsigned⟩ := writes_of_takeUnsigned? h
    exact ⟨0x2d :: text, rfl, .negative hunsigned⟩
  · obtain ⟨text, rfl, hunsigned⟩ := writes_of_takeUnsigned? h
    exact ⟨text, rfl, .positive hunsigned⟩

/-! ### The lexer takes a number whole -/

/-- Digits are taken up to where no digit follows. -/
theorem takeDigits?_of_writes (h : WritesDigits text ds) (hrest : ∀ b ∈ rest.head?, isDigit b = false) :
    takeDigits? (text ++ rest) = some (ds, rest) := by
  have hstop : rest.takeWhile isDigit = [] ∧ rest.dropWhile isDigit = rest := by
    cases rest with
    | nil => exact ⟨rfl, rfl⟩
    | cons b rest => simp [hrest b (by simp)]
  have htake : takeDigits (text ++ rest) = (ds, rest) := by
    rw [takeDigits, List.takeWhile_append_of_pos h.digits, List.dropWhile_append_of_pos h.digits,
      hstop.1, hstop.2, List.append_nil, ← h.chars]
  have hsome : ds ≠ [] := by
    rw [h.chars]
    simpa using h.some
  rw [takeDigits?, htake]
  cases ds with
  | nil => exact absurd rfl hsome
  | cons d ds => rfl

/-- Digits start with a digit. -/
theorem WritesDigits.exists_cons (h : WritesDigits text ds) :
    ∃ b more, text = b :: more ∧ isDigit b = true := by
  obtain ⟨b, more, rfl⟩ := List.exists_cons_of_ne_nil h.some
  exact ⟨b, more, rfl, h.digits b (by simp)⟩

/-- The part before the point is taken up to where no digit follows. -/
theorem takeWhole?_of_writes (h : WritesWhole text ds) (hrest : ∀ b ∈ rest.head?, isDigit b = false) :
    takeWhole? (text ++ rest) = some (ds, rest) := by
  cases h with
  | zero => rfl
  | digits head digits =>
    have htake := takeDigits?_of_writes digits hrest
    obtain ⟨b, more, rfl⟩ := List.exists_cons_of_ne_nil digits.some
    rw [List.cons_append, takeWhole?]
    · exact htake
    · rintro _ ⟨⟩
      exact head rfl

/-- What follows the part before the point is no digit. -/
theorem no_digit_of_writesFraction {fraction : Option (List Char)} (h : WritesFraction text fraction)
    (hrest : ∀ b ∈ rest.head?, isDigit b = false) :
    ∀ b ∈ (text ++ rest).head?, isDigit b = false := by
  cases h with
  | absent => exact hrest
  | point digits => simp [show isDigit 0x2e = false from rfl]

/-- What follows the fraction is no digit, and no point. -/
theorem no_digit_of_writesExponent {exponent : Option (Bool × List Char)}
    (h : WritesExponent text exponent) (hrest : Ended rest) :
    ∀ b ∈ (text ++ rest).head?, isDigit b = false ∧ b ≠ 0x2e := by
  cases h with
  | absent => exact fun b hb => ⟨(hrest b hb).1, (hrest b hb).2.1⟩
  | lower signed => simp [show isDigit 0x65 = false from rfl]
  | upper signed => simp [show isDigit 0x45 = false from rfl]

/-- The part from the point on is taken up to where neither digit nor point follows. -/
theorem takeFraction?_of_writes {fraction : Option (List Char)} (h : WritesFraction text fraction)
    (hrest : ∀ b ∈ rest.head?, isDigit b = false ∧ b ≠ 0x2e) :
    takeFraction? (text ++ rest) = some (fraction, rest) := by
  cases h with
  | absent =>
    rw [List.nil_append, takeFraction?.eq_def]
    split
    · exact absurd rfl (hrest _ rfl).2
    · rfl
  | point digits =>
    rw [List.cons_append, takeFraction?, takeDigits?_of_writes digits fun b hb => (hrest b hb).1]
    rfl

/-- An exponent is taken after its letter up to where no digit follows. -/
theorem takeSigned?_of_writes {e : Bool × List Char} (h : WritesSigned text e)
    (hrest : ∀ b ∈ rest.head?, isDigit b = false) :
    takeSigned? (text ++ rest) = some (e, rest) := by
  cases h with
  | plus digits =>
    rw [List.cons_append, takeSigned?, takeDigits?_of_writes digits hrest]
    rfl
  | minus digits =>
    rw [List.cons_append, takeSigned?, takeDigits?_of_writes digits hrest]
    rfl
  | bare digits =>
    have htake := takeDigits?_of_writes digits hrest
    -- A digit is no sign.
    obtain ⟨b, more, rfl, hdigit⟩ := WritesDigits.exists_cons digits
    rw [List.cons_append, takeSigned?.eq_def]
    split
    · rename_i heq
      obtain ⟨rfl, -⟩ := List.cons.inj heq
      exact absurd hdigit (by decide)
    · rename_i heq
      obtain ⟨rfl, -⟩ := List.cons.inj heq
      exact absurd hdigit (by decide)
    · rw [← List.cons_append, htake]
      rfl

/-- An exponent is taken up to where no number goes on. -/
theorem takeExponent?_of_writes {exponent : Option (Bool × List Char)}
    (h : WritesExponent text exponent) (hrest : Ended rest) :
    takeExponent? (text ++ rest) = some (exponent, rest) := by
  cases h with
  | absent =>
    rw [List.nil_append, takeExponent?.eq_def]
    split
    · exact absurd rfl (hrest _ rfl).2.2.1
    · exact absurd rfl (hrest _ rfl).2.2.2
    · rfl
  | lower signed =>
    rw [List.cons_append, takeExponent?, takeSigned?_of_writes signed fun b hb => (hrest b hb).1]
    rfl
  | upper signed =>
    rw [List.cons_append, takeExponent?, takeSigned?_of_writes signed fun b hb => (hrest b hb).1]
    rfl

/-- A number after its sign is taken up to where no number goes on. -/
theorem takeUnsigned?_of_writes {negative : Bool} {n : NumberLiteral}
    (h : WritesUnsigned negative text n) (hrest : Ended rest) :
    takeUnsigned? negative (text ++ rest) = some (n, rest) := by
  obtain ⟨sign, whole, fraction, exponent⟩ := h
  have hfraction := no_digit_of_writesExponent exponent hrest
  have hwhole := no_digit_of_writesFraction fraction fun b hb => (hfraction b hb).1
  rw [List.append_assoc, List.append_assoc, takeUnsigned?, takeWhole?_of_writes whole hwhole]
  simp only [Option.bind_eq_bind, Option.bind_some, takeFraction?_of_writes fraction hfraction,
    takeExponent?_of_writes exponent hrest, ← sign]
  rfl

/-- The part of a number before the point starts with a digit. -/
theorem WritesWhole.exists_cons (h : WritesWhole text ds) :
    ∃ b more, text = b :: more ∧ isDigit b = true := by
  cases h with
  | zero => exact ⟨0x30, [], rfl, rfl⟩
  | digits _ digits => exact WritesDigits.exists_cons digits

/-- A number after its sign starts with a digit. -/
theorem WritesUnsigned.exists_cons {negative : Bool} {n : NumberLiteral}
    (h : WritesUnsigned negative text n) : ∃ b more, text = b :: more ∧ isDigit b = true := by
  obtain ⟨-, whole, -, -⟩ := h
  obtain ⟨b, more, rfl, hdigit⟩ := WritesWhole.exists_cons whole
  exact ⟨b, _, rfl, hdigit⟩

/-- A number starts with a digit or a minus sign. -/
theorem WritesNumber.exists_cons {n : NumberLiteral} (h : WritesNumber text n) :
    ∃ b more, text = b :: more ∧ (isDigit b = true ∨ b = 0x2d) := by
  cases h with
  | positive unsigned =>
    obtain ⟨b, more, rfl, hdigit⟩ := WritesUnsigned.exists_cons unsigned
    exact ⟨b, more, rfl, Or.inl hdigit⟩
  | negative unsigned => exact ⟨0x2d, _, rfl, Or.inr rfl⟩

/-- A number is taken up to where no number goes on. -/
theorem takeNumber?_of_writes {n : NumberLiteral} (h : WritesNumber text n) (hrest : Ended rest) :
    takeNumber? (text ++ rest) = some (n, rest) := by
  cases h with
  | negative unsigned => exact takeUnsigned?_of_writes unsigned hrest
  | positive unsigned =>
    have htake := takeUnsigned?_of_writes unsigned hrest
    obtain ⟨b, more, rfl, hdigit⟩ := WritesUnsigned.exists_cons unsigned
    rw [List.cons_append, takeNumber?]
    · exact htake
    · rintro _ ⟨⟩
      exact absurd hdigit (by decide)

end Token

/-! ## Strings -/

/-- The inside of a string: bytes that need no escape, escapes of one letter, and escapes of a `\u` and
four digits. -/
inductive WritesPieces : Bytes → List Piece → Prop where
  | nil : WritesPieces [] []
  | plain {b : UInt8} {text : Bytes} {ps : List Piece} (plain : Token.isPlain b = true)
      (more : WritesPieces text ps) : WritesPieces (b :: text) (.byte b :: ps)
  | escape {c b : UInt8} {text : Bytes} {ps : List Piece} (stands : Token.escape? c = some b)
      (more : WritesPieces text ps) : WritesPieces (0x5c :: c :: text) (.byte b :: ps)
  | unit {a b c d : UInt8} {n : Nat} {text : Bytes} {ps : List Piece}
      (digits : Token.hexUnit? a b c d = some n) (more : WritesPieces text ps) :
      WritesPieces (0x5c :: 0x75 :: a :: b :: c :: d :: text) (.unit n :: ps)

namespace Token

variable {bs text rest : Bytes} {ps : List Piece}

/-- What is taken for a string after its opening quote is the inside of one, and the closing quote. -/
theorem writes_of_takeString? (h : takeString? bs = some (ps, rest)) :
    ∃ text, bs = text ++ 0x22 :: rest ∧ WritesPieces text ps := by
  fun_induction takeString? bs generalizing ps with
  | case1 => simp at h
  | case2 rest' =>
    obtain ⟨rfl, rfl⟩ := Prod.mk.inj (Option.some.inj h)
    exact ⟨[], rfl, .nil⟩
  | case3 a b c d rest' n hunit ih =>
    obtain ⟨⟨ps', _⟩, htake, heq⟩ := Option.map_eq_some_iff.1 h
    obtain ⟨rfl, rfl⟩ := Prod.mk.inj heq
    obtain ⟨text, rfl, hpieces⟩ := ih htake
    exact ⟨_, rfl, .unit hunit hpieces⟩
  | case4 => simp at h
  | case5 c rest' b hunit hescape ih =>
    obtain ⟨⟨ps', _⟩, htake, heq⟩ := Option.map_eq_some_iff.1 h
    obtain ⟨rfl, rfl⟩ := Prod.mk.inj heq
    obtain ⟨text, rfl, hpieces⟩ := ih htake
    exact ⟨_, rfl, .escape hescape hpieces⟩
  | case6 => simp at h
  | case7 => simp at h
  | case8 b rest' hquote hunit hescape hplain ih =>
    obtain ⟨⟨ps', _⟩, htake, heq⟩ := Option.map_eq_some_iff.1 h
    obtain ⟨rfl, rfl⟩ := Prod.mk.inj heq
    obtain ⟨text, rfl, hpieces⟩ := ih htake
    have hall : isPlain b = true := by
      simp only [Bool.or_eq_true, decide_eq_true_eq, beq_iff_eq, not_or] at hplain
      simp only [isPlain, Bool.and_eq_true, decide_eq_true_eq, bne_iff_ne]
      exact ⟨⟨UInt8.not_lt.1 hplain.1, hquote⟩, hplain.2⟩
    exact ⟨_, rfl, .plain hall hpieces⟩

/-- The inside of a string is taken up to the closing quote. -/
theorem takeString?_of_writes (h : WritesPieces text ps) (rest : Bytes) :
    takeString? (text ++ 0x22 :: rest) = some (ps, rest) := by
  induction h with
  | nil => rfl
  | plain plain more ih =>
    rw [List.cons_append, takeString?_plain plain, ih]
    rfl
  | @escape c b text ps stands more ih =>
    have hunit : c ≠ 0x75 := by
      rintro rfl
      have hnone : escape? 0x75 = none := rfl
      simp [hnone] at stands
    rw [List.cons_append, List.cons_append, takeString?_escape stands hunit, ih]
    rfl
  | unit digits more ih =>
    rw [List.cons_append, List.cons_append, List.cons_append, List.cons_append, List.cons_append,
      List.cons_append, takeString?_unit digits, ih]
    rfl

end Token

/-! ## Tokens -/

/-- A token. -/
inductive WritesToken : Bytes → Token → Prop where
  | beginObject : WritesToken [0x7b] .beginObject
  | endObject : WritesToken [0x7d] .endObject
  | beginArray : WritesToken [0x5b] .beginArray
  | endArray : WritesToken [0x5d] .endArray
  | colon : WritesToken [0x3a] .colon
  | comma : WritesToken [0x2c] .comma
  | null : WritesToken [0x6e, 0x75, 0x6c, 0x6c] .null
  | true : WritesToken [0x74, 0x72, 0x75, 0x65] (.bool true)
  | false : WritesToken [0x66, 0x61, 0x6c, 0x73, 0x65] (.bool false)
  | number {text : Bytes} {n : NumberLiteral} (number : WritesNumber text n) :
      WritesToken text (.number n)
  | string {text : Bytes} {ps : List Piece} (pieces : WritesPieces text ps) :
      WritesToken (0x22 :: (text ++ [0x22])) (.string ps)

/-- Tokens, with white space before, between and after them. -/
inductive Writes : Bytes → List Token → Prop where
  | nil {space : Bytes} (blank : space.all Token.isSpace = true) : Writes space []
  | cons {space text rest : Bytes} {t : Token} {ts : List Token}
      (blank : space.all Token.isSpace = true) (token : WritesToken text t)
      (more : Writes rest ts) : Writes (space ++ (text ++ rest)) (t :: ts)

namespace Token

variable {bs text rest : Bytes} {t : Token} {ts : List Token}

/-- Whether it is a number. -/
def isNumber : Token → Bool
  | .number _ => true
  | _ => false

/-- What is taken for a token is one. -/
theorem writes_of_next? (h : next? bs = some (t, rest)) :
    ∃ text, bs = text ++ rest ∧ WritesToken text t := by
  unfold next? at h
  split at h
  case h_10 =>
    obtain ⟨⟨ps, _⟩, htake, heq⟩ := Option.map_eq_some_iff.1 h
    obtain ⟨rfl, rfl⟩ := Prod.mk.inj heq
    obtain ⟨text, rfl, hpieces⟩ := writes_of_takeString? htake
    exact ⟨0x22 :: (text ++ [0x22]), by simp, .string hpieces⟩
  case h_11 =>
    obtain ⟨⟨n, _⟩, htake, heq⟩ := Option.map_eq_some_iff.1 h
    obtain ⟨rfl, rfl⟩ := Prod.mk.inj heq
    obtain ⟨text, rfl, hnumber⟩ := writes_of_takeNumber? htake
    exact ⟨text, rfl, .number hnumber⟩
  -- The other tokens are written in one way only.
  all_goals obtain ⟨rfl, rfl⟩ := Prod.mk.inj (Option.some.inj h)
  · exact ⟨_, rfl, .beginObject⟩
  · exact ⟨_, rfl, .endObject⟩
  · exact ⟨_, rfl, .beginArray⟩
  · exact ⟨_, rfl, .endArray⟩
  · exact ⟨_, rfl, .colon⟩
  · exact ⟨_, rfl, .comma⟩
  · exact ⟨_, rfl, .null⟩
  · exact ⟨_, rfl, .true⟩
  · exact ⟨_, rfl, .false⟩

/-- A token starts with a byte that is no white space, and unless it is a number that byte continues
none. -/
theorem WritesToken.exists_cons (h : WritesToken text t) :
    ∃ b more, text = b :: more ∧ isSpace b = false ∧
      (t.isNumber = false → isDigit b = false ∧ b ≠ 0x2e ∧ b ≠ 0x65 ∧ b ≠ 0x45) := by
  cases h with
  | number number =>
    obtain ⟨b, more, rfl, hfirst⟩ := WritesNumber.exists_cons number
    refine ⟨b, more, rfl, ?_, fun hnumber => absurd hnumber (by simp [isNumber])⟩
    refine Bool.eq_false_iff.2 fun hspace => ?_
    simp only [isSpace, Bool.or_eq_true, beq_iff_eq] at hspace
    rcases hspace with ((rfl | rfl) | rfl) | rfl <;> exact absurd hfirst (by decide)
  | _ => exact ⟨_, _, rfl, rfl, fun _ => by decide⟩

/-- A token is taken, a number up to where no number goes on. -/
theorem next?_of_writes (h : WritesToken text t) (hrest : t.isNumber = true → Ended rest) :
    next? (text ++ rest) = some (t, rest) := by
  cases h with
  | number number =>
    have htake := takeNumber?_of_writes number (hrest rfl)
    obtain ⟨b, more, rfl, hfirst⟩ := WritesNumber.exists_cons number
    rw [List.cons_append] at htake ⊢
    rw [next?_number hfirst, htake]
    rfl
  | string pieces =>
    rw [List.cons_append, List.append_assoc, List.singleton_append, next?,
      takeString?_of_writes pieces]
    rfl
  | _ => rfl

/-- A token that was written comes off, a number where no number goes on. -/
theorem lexes_of_writes (h : WritesToken text t) (hrest : t.isNumber = true → Ended rest) :
    Lexes (text ++ rest) [t] rest := by
  have hnext := next?_of_writes h hrest
  obtain ⟨b, more, rfl, hsolid, -⟩ := WritesToken.exists_cons h
  exact .cons hsolid hnext (List.length_append ▸ Nat.le_add_left _ _) (.nil rest)

/-! ## The lexer -/

/-- What the lexer finds is written there. -/
theorem writes_of_lexWithin? {fuel : Nat} (h : lexWithin? fuel bs = some ts) : Writes bs ts := by
  fun_induction lexWithin? fuel bs generalizing ts with
  | case1 fuel bs hdrop =>
    obtain rfl := Option.some.inj h
    exact .nil (List.all_eq_true.2 (List.dropWhile_eq_nil_iff.1 hdrop))
  | case2 => simp at h
  | case3 bs fuel t rest _ hnext ih =>
    obtain ⟨us, hmore, rfl⟩ := Option.map_eq_some_iff.1 h
    obtain ⟨text, htext, htoken⟩ := writes_of_next? hnext
    rw [← List.takeWhile_append_dropWhile (p := isSpace) (l := bs), htext]
    exact .cons List.all_takeWhile htoken (ih hmore)
  | case4 => simp at h

/-- What the lexer finds is written there. -/
theorem writes_of_lex? (h : lex? bs = some ts) : Writes bs ts := writes_of_lexWithin? h

/-- No number goes on with white space. -/
theorem ended_of_isSpace {b : UInt8} (h : isSpace b = true) (rest : Bytes) : Ended (b :: rest) := by
  intro c hc
  obtain rfl := Option.some.inj hc
  simp only [isSpace, Bool.or_eq_true, beq_iff_eq] at h
  rcases h with ((rfl | rfl) | rfl) | rfl <;> decide

/-- No number goes on before tokens of which the first is none. -/
theorem Writes.ended (h : Writes bs ts) (hts : ∀ t ∈ ts.head?, t.isNumber = false) : Ended bs := by
  cases h with
  | nil blank =>
    cases bs with
    | nil => simp [Ended]
    | cons b bs => exact ended_of_isSpace (List.all_eq_true.1 blank b (by simp)) bs
  | @cons space text rest t ts blank token more =>
    cases space with
    | nil =>
      obtain ⟨b, more, rfl, -, hstops⟩ := WritesToken.exists_cons token
      intro c hc
      obtain rfl := Option.some.inj hc
      exact hstops (hts t rfl)
    | cons b space => exact ended_of_isSpace (List.all_eq_true.1 blank b (by simp)) _

/-- White space before a byte that is none is passed over. -/
theorem dropWhile_append_of_blank {space : Bytes} {b : UInt8} (blank : space.all isSpace = true)
    (solid : isSpace b = false) (bs : Bytes) : (space ++ b :: bs).dropWhile isSpace = b :: bs := by
  rw [List.dropWhile_append_of_pos (List.all_eq_true.1 blank), List.dropWhile_cons, solid]
  rfl

/-- The lexer finds what is written, if no number stands next to another. -/
theorem lexWithin?_of_writes (h : Writes bs ts)
    (apart : ts.IsChain fun t t' => t.isNumber = true → t'.isNumber = false) {fuel : Nat}
    (hfuel : bs.length ≤ fuel) : lexWithin? fuel bs = some ts := by
  induction h generalizing fuel with
  | @nil space blank =>
    have hdrop : space.dropWhile isSpace = [] :=
      List.dropWhile_eq_nil_iff.2 (List.all_eq_true.1 blank)
    simp only [lexWithin?.eq_def, hdrop]
  | @cons space text rest t ts blank token more ih =>
    obtain ⟨hnext, hmore⟩ := List.isChain_cons.1 apart
    have htake := next?_of_writes token fun hnumber =>
      Writes.ended more fun t' ht' => hnext t' ht' hnumber
    obtain ⟨b, bs, rfl, hsolid, -⟩ := WritesToken.exists_cons token
    cases fuel with
    | zero => simp at hfuel
    | succ fuel =>
      simp only [List.length_append, List.length_cons] at hfuel
      rw [List.cons_append] at htake ⊢
      have hdrop := dropWhile_append_of_blank blank hsolid (bs ++ rest)
      simp only [lexWithin?.eq_def fuel.succ, hdrop, htake,
        ih hmore (show rest.length ≤ fuel by omega), Option.map_some]

/-- The lexer finds what is written, if no number stands next to another. -/
theorem lex?_of_writes (h : Writes bs ts)
    (apart : ts.IsChain fun t t' => t.isNumber = true → t'.isNumber = false) : lex? bs = some ts :=
  lexWithin?_of_writes h apart (Nat.le_refl _)

end Token

end PipeCall.Json
