import PipeCall.Proofs.Decimal
import PipeCall.Session.Command
import PipeCall.Settings

/-!
# Settings from the environment

A setting is taken from its variable if that holds the digits of a number which fits 64 bits, with
white space around them or a plus sign in front (`Settings.Denotes`). Anything else that is text leaves
the default and is warned about, and what is no text counts as not set (`Settings.Setting`).
`Settings.settings_of_environment` says so of both settings, and that a client waits for as many
seconds as its variable says: there is no number that fits for which the milliseconds would wrap.
-/

namespace PipeCall

/-! ## White space -/

namespace Text

variable {front cs back : List Char}

/-- White space in front of what does not begin with any is dropped. -/
theorem dropWhile_isBlank_append (blank : ∀ c ∈ front, isBlank c = true)
    (head : ∀ c ∈ cs.head?, isBlank c = false) : (front ++ cs).dropWhile isBlank = cs := by
  rw [List.dropWhile_append_of_pos blank]
  cases cs with
  | nil => rfl
  | cons c cs => exact List.dropWhile_cons_of_neg (by simp [head c rfl])

/-- White space around what holds none is taken off. -/
theorem trim_append (blankFront : ∀ c ∈ front, isBlank c = true)
    (blankBack : ∀ c ∈ back, isBlank c = true) (nonempty : cs ≠ [])
    (inner : ∀ c ∈ cs, isBlank c = false) : trim (front ++ cs ++ back) = cs := by
  have hfront : (front ++ cs ++ back).dropWhile isBlank = cs ++ back := by
    obtain ⟨d, ds, rfl⟩ := List.exists_cons_of_ne_nil nonempty
    rw [List.append_assoc]
    refine dropWhile_isBlank_append blankFront fun c hc => ?_
    obtain rfl := Option.some.inj hc
    exact inner d List.mem_cons_self
  have hback : (cs ++ back).reverse.dropWhile isBlank = cs.reverse := by
    rw [List.reverse_append]
    refine dropWhile_isBlank_append (by simpa using blankBack) fun c hc => inner c ?_
    exact List.mem_reverse.1 (List.mem_of_mem_head? hc)
  rw [trim, hfront, hback, List.reverse_reverse]

/-- Only white space is taken off, at either end. -/
theorem exists_eq_append_trim (cs : List Char) : ∃ front back, cs = front ++ trim cs ++ back ∧
    (∀ c ∈ front, isBlank c = true) ∧ ∀ c ∈ back, isBlank c = true := by
  have hblank : ∀ ds : List Char, ∀ c ∈ ds.takeWhile isBlank, isBlank c = true :=
    fun ds => List.all_eq_true.1 List.all_takeWhile
  let rest := cs.dropWhile isBlank
  have hrest : rest = trim cs ++ (rest.reverse.takeWhile isBlank).reverse := by
    rw [trim, ← List.reverse_append, List.takeWhile_append_dropWhile, List.reverse_reverse]
  refine ⟨cs.takeWhile isBlank, (rest.reverse.takeWhile isBlank).reverse, ?_, hblank cs, fun c hc =>
    hblank rest.reverse c (List.mem_reverse.1 hc)⟩
  rw [List.append_assoc, ← hrest, List.takeWhile_append_dropWhile]

end Text

/-- Whole seconds in milliseconds, at most the largest number that fits 64 bits. -/
theorem Span.millis_ofSecs (n : Nat) :
    (ofSecs n).millis = min (n * 1000) (Decimal.wordLimit - 1) := by
  have hmillis : (n * 1000000000 + 0) / 1000000 = n * 1000 := by omega
  rw [millis, ofSecs, ofParts, hmillis]

namespace Settings

variable {cs : List Char} {n : Nat} {value name : String} {default : Nat}

/-! ## Numbers -/

/-- A text denotes a number that fits 64 bits: its digits, with a plus sign in front or none, stand
between white space. -/
def Denotes (cs : List Char) (n : Nat) : Prop :=
  ∃ front word back, cs = front ++ word ++ back ∧ (∀ c ∈ front, Text.isBlank c = true) ∧
    Decimal.Word word n ∧ ∀ c ∈ back, Text.isBlank c = true

/-- A number in digits is written with something, and without white space. -/
theorem inner_of_word (h : Decimal.Word cs n) : cs ≠ [] ∧ ∀ c ∈ cs, Text.isBlank c = false := by
  cases h with
  | plain digits =>
    exact ⟨digits.nonempty, fun c hc => Decimal.isBlank_of_isDigit (digits.digits c hc)⟩
  | plus sign digits =>
    subst sign
    refine ⟨List.cons_ne_nil _ _, List.forall_mem_cons.2 ⟨by decide, fun c hc => ?_⟩⟩
    exact Decimal.isBlank_of_isDigit (digits.digits c hc)

/-- The value of a variable is read as the number that it denotes, if it denotes one. -/
theorem readNumber?_eq_some_iff : readNumber? value = some n ↔ Denotes value.toList n := by
  rw [readNumber?, Decimal.readWord?_eq_some_iff]
  constructor
  · intro hword
    obtain ⟨front, back, heq, hfront, hback⟩ := Text.exists_eq_append_trim value.toList
    exact ⟨front, _, back, heq, hfront, hword, hback⟩
  · rintro ⟨front, word, back, heq, hfront, hword, hback⟩
    obtain ⟨hsome, hinner⟩ := inner_of_word hword
    rw [heq, Text.trim_append hfront hback hsome hinner]
    exact hword

/-- Digits beyond 64 bits and a sign by itself are refused, and zeros in front are not. -/
example : readNumber? "18446744073709551616" = none ∧ readNumber? "+" = none ∧
    readNumber? "\u00a0+007 " = some 7 := by decide

/-! ## Variables -/

/-- What the value of a variable, if it has one, makes of a setting with this default, and what is
printed about it. -/
inductive Setting (name : String) (default : Nat) : Option Bytes → Nat → List String → Prop where
  | unset : Setting name default none default []
  /-- What is no text counts as not set. -/
  | garbled {raw : Bytes} (broken : Utf8.decode? raw = none) :
      Setting name default (some raw) default []
  | taken {raw : Bytes} {value : String} {n : Nat} (text : Utf8.decode? raw = some value)
      (denotes : Denotes value.toList n) : Setting name default (some raw) n []
  /-- There is one warning, and it quotes the value. -/
  | refused {raw : Bytes} {value : String} (text : Utf8.decode? raw = some value)
      (other : ∀ n, ¬Denotes value.toList n) :
      Setting name default (some raw) default
        ["WARN Ignoring invalid " ++ name ++ "=" ++ Text.quoted value]

/-- A variable is read for its setting. -/
theorem setting_of_readVariable (name : String) (default : Nat) (raw : Option Bytes) :
    Setting name default raw ((readVariable name (raw.bind Utf8.decode?)).1.getD default)
      ((readVariable name (raw.bind Utf8.decode?)).2.filterMap Event.diagnostic?) := by
  cases raw with
  | none => exact .unset
  | some raw =>
    rw [Option.bind_some]
    cases hvalue : Utf8.decode? raw with
    | none => exact .garbled hvalue
    | some value =>
      cases hnumber : readNumber? value with
      | some n =>
        simp only [readVariable, hnumber]
        exact .taken hvalue (readNumber?_eq_some_iff.1 hnumber)
      | none =>
        simp only [readVariable, hnumber]
        refine .refused hvalue fun n hn => ?_
        rw [readNumber?_eq_some_iff.2 hn] at hnumber
        simp at hnumber

/-- The settings are read from their variables, one by one. -/
theorem ofBytes_eq (environment : String → Option Bytes) :
    let secs := readVariable timeoutVariable ((environment timeoutVariable).bind Utf8.decode?)
    let bytes := readVariable limitVariable ((environment limitVariable).bind Utf8.decode?)
    ofBytes environment =
      (⟨Span.ofSecs (secs.1.getD 20), bytes.1.getD Frame.defaultLimit⟩, secs.2 ++ bytes.2) := by
  intro secs bytes
  have htimeout : (secs.1.map Span.ofSecs).getD (Span.ofSecs 20) = Span.ofSecs (secs.1.getD 20) :=
    Option.getD_map _ _ _
  rw [← htimeout]
  rfl

/-! ## The whole environment -/

/-- What an environment makes of the settings: so many seconds, so many bytes, and what is printed
about either. -/
structure ReadFrom (environment : String → Option Bytes) (secs bytes : Nat)
    (secsLines bytesLines : List String) : Prop where
  /-- The seconds are settled by their variable. -/
  timeout : Setting timeoutVariable 20 (environment timeoutVariable) secs secsLines
  /-- The bytes are settled by theirs. -/
  limit : Setting limitVariable Frame.defaultLimit (environment limitVariable) bytes bytesLines
  /-- These are the settings. -/
  settings : (ofBytes environment).1 = ⟨Span.ofSecs secs, bytes⟩
  /-- Nothing else is printed. -/
  lines : (ofBytes environment).2.filterMap Event.diagnostic? = secsLines ++ bytesLines
  /-- A client with these settings waits for that many seconds, as far as the milliseconds fit 64
  bits. -/
  window : (Session.new (ofBytes environment).1.limit (ofBytes environment).1.timeout).window =
    min (secs * 1000) (Decimal.wordLimit - 1)
  /-- Neither setting depends on the variable of the other. -/
  apart (environment' : String → Option Bytes) :
    (environment' timeoutVariable = environment timeoutVariable →
      (ofBytes environment').1.timeout = (ofBytes environment).1.timeout) ∧
    (environment' limitVariable = environment limitVariable →
      (ofBytes environment').1.limit = (ofBytes environment).1.limit)

/-- Every environment settles both settings, each by its own variable. -/
theorem settings_of_environment (environment : String → Option Bytes) :
    ∃ secs bytes secsLines bytesLines, ReadFrom environment secs bytes secsLines bytesLines := by
  have heq := ofBytes_eq environment
  refine ⟨_, _, _, _, setting_of_readVariable _ _ _, setting_of_readVariable _ _ _, ?_, ?_, ?_,
    fun environment' => ⟨fun hsame => ?_, fun hsame => ?_⟩⟩
  · rw [heq]
  · rw [heq, List.filterMap_append]
  · rw [heq]
    exact Span.millis_ofSecs _
  · simp only [heq, ofBytes_eq environment', hsame]
  · simp only [heq, ofBytes_eq environment', hsame]

/-- A variable that is set to a byte which is no text is not warned about, though no number is taken
from it. -/
theorem garbled_not_warned :
    ¬∀ (environment : String → Option Bytes) (raw : Bytes), environment limitVariable = none →
      environment timeoutVariable = some raw →
        (∃ value n, raw = Utf8.encode value ∧ Denotes value.toList n) ∨
          ((ofBytes environment).2.filterMap Event.diagnostic?).length = 1 := by
  intro hwarned
  rcases hwarned (fun name => if name = timeoutVariable then some [0xff] else none) [0xff] rfl rfl with
    ⟨value, -, hraw, -⟩ | hline
  · have hdecode : Utf8.decode? [0xff] = none := by decide
    rw [hraw, Utf8.decode?_encode] at hdecode
    simp at hdecode
  · exact absurd hline (by decide)

end Settings

end PipeCall
