import PipeCall.Proofs.Json.Shortest
import PipeCall.Proofs.Json.Written

/-!
# Values of any nesting

A value is finite if its doubles are, whatever its nesting (`Json.IsFinite`). The text of such a value
spells a document (`IsFinite.exists_spells`): a double is written with its shortest decimal, which has
no zero in front, so that each of the four layouts is a number of RFC 8259 (`writesUnsigned_layout`).
-/

namespace PipeCall.Json

/-! ## Doubles -/

namespace Double

variable {w ds : List Char} {d : Double}

/-- Digits, a point and digits are a number. -/
theorem writesUnsigned_pointed (negative : Bool) (whole : WritesWhole (Utf8.encodeChars w) w)
    (some : ds ≠ []) (digits : ∀ c ∈ ds, c.isDigit = true) :
    ∃ n, WritesUnsigned negative (Utf8.encodeChars (w ++ '.' :: ds)) n := by
  have hfraction : WritesFraction (Utf8.encodeChars ('.' :: ds)) (Option.some ds) :=
    .point (writesDigits_encodeChars some digits)
  refine ⟨⟨negative, w, Option.some ds, none⟩, ?_⟩
  rw [Utf8.encodeChars_append, ← List.append_nil (Utf8.encodeChars ('.' :: ds))]
  exact .intro rfl whole hfraction .absent

/-- A digit, perhaps more behind a point, and an exponent are a number. -/
theorem writesUnsigned_scientific (negative : Bool) (whole : WritesWhole (Utf8.encodeChars w) w)
    (digits : ∀ c ∈ ds, c.isDigit = true) {sign : Char} (hsign : sign = '-' ∨ sign = '+') (k : Nat) :
    ∃ n, WritesUnsigned negative
      (Utf8.encodeChars (w ++ (if ds = [] then [] else '.' :: ds) ++ ['e', sign] ++ Nat.toDigits 10 k))
      n := by
  have hfraction : ∃ fraction,
      WritesFraction (Utf8.encodeChars (if ds = [] then [] else '.' :: ds)) fraction := by
    split
    · exact ⟨none, .absent⟩
    · rename_i some
      exact ⟨Option.some ds, .point (writesDigits_encodeChars some digits)⟩
  have hdigits := writesDigits_encodeChars (Nat.toDigits_ne_nil (n := k) (b := 10))
    Decimal.isDigit_toDigits
  have hexponent : ∃ exponent,
      WritesExponent (Utf8.encodeChars (['e', sign] ++ Nat.toDigits 10 k)) exponent := by
    rcases hsign with rfl | rfl
    · exact ⟨_, .lower (.minus hdigits)⟩
    · exact ⟨_, .lower (.plus hdigits)⟩
  obtain ⟨fraction, hfraction⟩ := hfraction
  obtain ⟨exponent, hexponent⟩ := hexponent
  refine ⟨⟨negative, w, fraction, exponent⟩, ?_⟩
  rw [List.append_assoc, List.append_assoc, Utf8.encodeChars_append, Utf8.encodeChars_append]
  exact .intro rfl whole hfraction hexponent

/-- Zeros are digits. -/
theorem isDigit_zeros (n : Nat) : ∀ c ∈ List.replicate n '0', c.isDigit = true := by
  intro c hc
  rw [List.eq_of_mem_replicate hc]
  rfl

/-- Digits that do not start with a zero are laid out as a number. -/
theorem writesUnsigned_layout (negative : Bool) (k : Int) (some : ds ≠ [])
    (digits : ∀ c ∈ ds, c.isDigit = true) (lead : ds.head? ≠ Option.some '0') :
    ∃ n, WritesUnsigned negative (Utf8.encodeChars (layout ds k)) n := by
  have hlength : 0 < ds.length := List.length_pos_iff.2 some
  have htake : ∀ {n}, 0 < n → WritesWhole (Utf8.encodeChars (ds.take n)) (ds.take n) := by
    intro n hn
    refine writesWhole_encodeChars ?_ (fun c hc => digits c (List.mem_of_mem_take hc)) ?_
    · exact List.ne_nil_of_length_pos (by rw [List.length_take]; omega)
    · rw [List.head?_take, if_neg (Nat.ne_of_gt hn)]
      exact fun hzero => absurd hzero lead
  have hdrop : ∀ n, ∀ c ∈ ds.drop n, c.isDigit = true := fun _ c hc =>
    digits c (List.mem_of_mem_drop hc)
  unfold layout
  dsimp only
  split
  · -- An integer, with a zero behind the point.
    refine writesUnsigned_pointed negative ?_ (List.cons_ne_nil _ _) (isDigit_zeros 1)
    refine writesWhole_encodeChars (by simp [some]) ?_ ?_
    · intro c hc
      rcases List.mem_append.1 hc with hc | hc
      · exact digits c hc
      · exact isDigit_zeros _ c hc
    · rw [List.head?_append_of_ne_nil _ some]
      exact fun hzero => absurd hzero lead
  · split
    · -- The point is between the digits.
      refine writesUnsigned_pointed negative (htake (by omega)) ?_ (hdrop _)
      exact List.ne_nil_of_length_pos (by rw [List.length_drop]; omega)
    · split
      · -- The digits are behind the point, and perhaps zeros before them.
        refine writesUnsigned_pointed (w := ['0']) negative .zero (by simp [some]) fun c hc => ?_
        rcases List.mem_append.1 hc with hc | hc
        · exact isDigit_zeros _ c hc
        · exact digits c hc
      · -- One digit before the point, and an exponent.
        have hone : ds.length = 1 ↔ ds.drop 1 = [] := by
          rw [List.drop_eq_nil_iff]
          omega
        simp only [hone]
        refine writesUnsigned_scientific negative (htake (by decide)) (hdrop _) ?_ _
        split
        · exact Or.inl rfl
        · exact Or.inr rfl

/-- The text of a finite double is a number. -/
theorem exists_writesNumber (finite : d.IsFinite) : ∃ n, WritesNumber (Utf8.encodeChars d.chars) n := by
  have hmagnitude : ∀ negative, ∃ n, WritesUnsigned negative (Utf8.encodeChars
      (if d.significand = 0 then ['0', '.', '0']
        else layout (Nat.toDigits 10 d.shortest.1) d.shortest.2)) n := by
    intro negative
    split
    · exact writesUnsigned_pointed (w := ['0']) negative .zero (List.cons_ne_nil _ _) (isDigit_zeros 1)
    · rename_i hnonzero
      have hpos := shortest_pos finite (Nat.pos_of_ne_zero hnonzero)
      exact writesUnsigned_layout negative _ Nat.toDigits_ne_nil Decimal.isDigit_toDigits
        (Decimal.head_toDigits hpos)
  unfold chars
  dsimp only
  split
  · obtain ⟨n, hn⟩ := hmagnitude true
    exact ⟨n, .negative hn⟩
  · obtain ⟨n, hn⟩ := hmagnitude false
    exact ⟨n, .positive hn⟩

/-- A finite double is spelled by a literal. -/
theorem exists_spells (finite : d.IsFinite) : ∃ l, SpellsDocument (.number (.double d)) (.number l) := by
  obtain ⟨l, hwrites⟩ := exists_writesNumber finite
  exact ⟨l, fun _ hrest => Token.lexes_of_writes (.number hwrites) fun _ => hrest⟩

end Double

/-! ## Values -/

/-- A value whose doubles are finite, however deep it nests. -/
inductive IsFinite : Json → Prop where
  | null : IsFinite .null
  | bool (b : Bool) : IsFinite (.bool b)
  | integer (n : Int) : IsFinite (.number (.integer n))
  | double {d : Double} (finite : d.IsFinite) : IsFinite (.number (.double d))
  | string (s : String) : IsFinite (.string s)
  | array {items : List Json} (finite : ∀ v ∈ items, IsFinite v) : IsFinite (.array items)
  | object {members : List (String × Json)} (finite : ∀ m ∈ members, IsFinite m.2) :
      IsFinite (.object members)

variable {v : Json}

/-- The text of a finite value spells a document. -/
theorem IsFinite.exists_spells (h : v.IsFinite) : ∃ d, SpellsDocument v d := by
  induction h with
  | null => exact ⟨.null, spells_null⟩
  | bool b => exact ⟨.bool b, spells_bool b⟩
  | integer n => exact ⟨_, spells_integer n⟩
  | double finite =>
    obtain ⟨l, hspells⟩ := Double.exists_spells finite
    exact ⟨.number l, hspells⟩
  | string s => exact ⟨_, spells_string s⟩
  | array _ ih =>
    obtain ⟨ds, hds⟩ := exists_forall₂ ih
    exact ⟨.array ds, spells_array hds⟩
  | object _ ih =>
    obtain ⟨es, hes⟩ := exists_members ih
    exact ⟨.object es, spells_object hes⟩

end PipeCall.Json
