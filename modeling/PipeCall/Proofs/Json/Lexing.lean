import PipeCall.Proofs.Decimal
import PipeCall.Proofs.Json.Escape

/-!
# Tokens that come off a byte string

`Lexes bs ts rest` says that tokens come off the head of a byte string one after another, and what
is left. Such runs compose (`Lexes.append`), and one that leaves nothing is what the lexer answers
(`Lexes.lex?`), so the fuel of the lexer is met here and nowhere else.

A number is the one token that the byte behind it could continue, and `Ended rest` says that it does
not. An integer that fits 64 bits is denoted by its digits (`number?_integerLiteral`).
-/

namespace PipeCall.Json

/-- An integer as it is written. -/
def integerLiteral (n : Int) : NumberLiteral := ⟨decide (n < 0), Nat.toDigits 10 n.natAbs, none, none⟩

namespace Token

/-! ## Runs of tokens -/

/-- Tokens come off the head of a byte string, each without white space before it. -/
inductive Lexes : Bytes → List Token → Bytes → Prop where
  | nil (bs : Bytes) : Lexes bs [] bs
  /-- A token takes a byte at least. -/
  | cons {b : UInt8} {bs mid rest : Bytes} {t : Token} {ts : List Token}
      (solid : isSpace b = false) (next : next? (b :: bs) = some (t, mid))
      (shorter : mid.length ≤ bs.length) (more : Lexes mid ts rest) : Lexes (b :: bs) (t :: ts) rest

namespace Lexes

variable {bs mid rest : Bytes} {ts us : List Token}

/-- One run goes on where another has ended. -/
theorem append (h : Lexes bs ts mid) (h' : Lexes mid us rest) : Lexes bs (ts ++ us) rest := by
  induction h with
  | nil => exact h'
  | cons solid next shorter _ ih => exact .cons solid next shorter (ih h')

/-- A run that leaves nothing is what the lexer answers, with fuel for every byte. -/
theorem lexWithin? (h : Lexes bs ts []) {fuel : Nat} (hfuel : bs.length ≤ fuel) :
    lexWithin? fuel bs = some ts := by
  generalize hrest : ([] : Bytes) = rest at h
  induction h generalizing fuel with
  | nil =>
    subst hrest
    cases fuel <;> rfl
  | @cons b bs mid rest t ts solid next shorter _ ih =>
    have hdrop : (b :: bs).dropWhile isSpace = b :: bs := by rw [List.dropWhile_cons, solid]; rfl
    cases fuel with
    | zero => simp at hfuel
    | succ fuel =>
      rw [List.length_cons] at hfuel
      have hmore : Token.lexWithin? fuel mid = some ts := ih (by omega) hrest
      rw [Token.lexWithin?.eq_def]
      simp only [hdrop, next, hmore, Option.map_some]

/-- A run that leaves nothing is what the lexer answers. -/
theorem lex? (h : Lexes bs ts []) : lex? bs = some ts := h.lexWithin? (Nat.le_refl _)

end Lexes

/-! ## Numbers -/

/-- No number goes on here. -/
def Ended (rest : Bytes) : Prop :=
  ∀ b ∈ rest.head?, isDigit b = false ∧ b ≠ 0x2e ∧ b ≠ 0x65 ∧ b ≠ 0x45

/-- The byte of a decimal digit is that of no other character. -/
theorem isDigit_ofNat {c : Char} (h : c.isDigit = true) :
    c.toNat < 0x80 ∧ isDigit (UInt8.ofNat c.toNat) = true ∧
      Char.ofNat (UInt8.ofNat c.toNat).toNat = c := by
  obtain ⟨hlow, hhigh⟩ := Decimal.toNat_of_isDigit h
  have hbyte : (UInt8.ofNat c.toNat).toNat = c.toNat := by
    rw [UInt8.toNat_ofNat', Nat.mod_eq_of_lt (by omega)]
  refine ⟨by omega, ?_, ?_⟩
  · simp only [isDigit, Bool.and_eq_true, decide_eq_true_eq, UInt8.le_iff_toNat_le, hbyte]
    exact ⟨hlow, hhigh⟩
  · rw [hbyte, Char.ofNat_toNat]

/-- What starts with a digit or a minus sign is read as a number. -/
theorem next?_number {b : UInt8} (h : isDigit b = true ∨ b = 0x2d) (bs : Bytes) :
    next? (b :: bs) = (takeNumber? (b :: bs)).map fun (n, rest) => (.number n, rest) := by
  have hne : ∀ c ∈ [0x7b, 0x7d, 0x5b, 0x5d, 0x3a, 0x2c, 0x6e, 0x74, 0x66, 0x22], b ≠ c := by
    rintro c hc rfl
    simp only [List.mem_cons, List.not_mem_nil, or_false] at hc
    rcases hc with rfl | rfl | rfl | rfl | rfl | rfl | rfl | rfl | rfl | rfl <;>
      exact absurd h (by decide)
  rw [next?]
  all_goals
    intros
    simp_all

/-! ## Strings -/

/-- A string that was written is a token. -/
theorem lexes_string (s : String) (rest : Bytes) :
    Lexes (Utf8.encodeChars (stringChars s) ++ rest) [.string (pieces s.toList)] rest := by
  have hbytes : Utf8.encodeChars (stringChars s) ++ rest =
      0x22 :: (Utf8.encodeChars (s.toList.flatMap escaped) ++ 0x22 :: rest) := by
    rw [stringChars, Utf8.encodeChars_append, Utf8.encodeChars_cons, List.append_assoc,
      List.append_assoc]
    rfl
  rw [hbytes]
  refine .cons rfl ?_ ?_ (.nil rest)
  · rw [next?, takeString?_flatMap_escaped]
    rfl
  · rw [List.length_append, List.length_cons]
    omega

end Token

/-- An integer that fits 64 bits is denoted by its digits. -/
theorem number?_integerLiteral {n : Int} (hlow : -(Decimal.signedLimit : Int) ≤ n)
    (hhigh : n < Decimal.wordLimit) : (integerLiteral n).number? = some (.integer n) := by
  rw [NumberLiteral.number?]
  simp only [integerLiteral, Nat.ofDigitChars_ten_toDigits]
  simp only [Option.isNone_none, Bool.and_self, true_and]
  by_cases hneg : n < 0
  · have habs : 0 < n.natAbs ∧ n.natAbs ≤ Decimal.signedLimit := by omega
    rw [if_neg (by simp [hneg]), if_pos ⟨decide_eq_true hneg, habs⟩]
    congr 2
    omega
  · have habs : n.natAbs < Decimal.wordLimit := by omega
    rw [if_pos ⟨by simpa using hneg, habs⟩]
    congr 2
    omega

/-- An integer that a literal denotes fits 64 bits, with or without a sign. -/
theorem NumberLiteral.bounds_of_number? {l : NumberLiteral} {k : Int}
    (h : l.number? = some (.integer k)) :
    -(Decimal.signedLimit : Int) ≤ k ∧ k < Decimal.wordLimit := by
  unfold NumberLiteral.number? at h
  dsimp only at h
  split at h
  · rename_i hplain
    have hk := Number.integer.inj (Option.some.inj h)
    omega
  · split at h
    · rename_i hplain
      have hk := Number.integer.inj (Option.some.inj h)
      omega
    · -- What is left is a double.
      simp at h

end PipeCall.Json
