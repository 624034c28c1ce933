import PipeCall.Counterparty.Octets
import PipeCall.Json.Double

/-!
# Formatted output

The formats of `printf`: text with backslash escapes, and conversions that each take an argument. A
format is used again as long as there are arguments and it takes some. `Format.print` gives the
output and the complaints about arguments that are no numbers.
-/

namespace PipeCall.Counterparty.Format

/-- What printing gives. -/
structure Printed where
  output : Octets := []
  complaints : List String := []
  /-- Whether printing stopped before its end. -/
  stopped : Bool := false

/-- One output after another. -/
def Printed.append (p q : Printed) : Printed :=
  ⟨p.output ++ q.output, p.complaints ++ q.complaints, q.stopped⟩

/-- Text without complaints. -/
def text (cs : Octets) : Printed := { output := cs }

/-! ## Escapes -/

/-- Whether a character is an octal digit. -/
def isOctal (c : Char) : Bool := '0' ≤ c && c ≤ '7'

/-- The octet that at most three octal digits denote, and the rest. -/
def takeOctal (cs : Octets) : Octets × Octets :=
  let ds := (cs.take 3).takeWhile isOctal
  ([Char.ofNat (Nat.ofDigitChars 8 ds 0 % 256)], cs.drop ds.length)

/-- What a backslash and the characters after it stand for, and the rest. A character that means
nothing is left there. -/
def takeEscape : Octets → Octets × Octets
  | 'n' :: rest => (['\n'], rest)
  | 't' :: rest => (['\t'], rest)
  | 'r' :: rest => (['\r'], rest)
  | 'a' :: rest => (['\x07'], rest)
  | 'b' :: rest => (['\x08'], rest)
  | 'f' :: rest => (['\x0c'], rest)
  | 'v' :: rest => (['\x0b'], rest)
  | 'e' :: rest => (['\x1b'], rest)
  | '\\' :: rest => (['\\'], rest)
  | c :: rest => if isOctal c then takeOctal (c :: rest) else (['\\'], c :: rest)
  | [] => (['\\'], [])

/-- A text with its escapes replaced, `fuel` bounding their number; `\c` ends all output. -/
def unescapeWithin : Nat → Octets → Printed
  | 0, _ => {}
  | _, [] => {}
  | _, '\\' :: 'c' :: _ => { stopped := true }
  | fuel + 1, '\\' :: '0' :: rest =>
    let (cs, rest) := takeOctal rest
    (text cs).append (unescapeWithin fuel rest)
  | fuel + 1, '\\' :: rest =>
    let (cs, rest) := takeEscape rest
    (text cs).append (unescapeWithin fuel rest)
  | fuel + 1, c :: rest => (text [c]).append (unescapeWithin fuel rest)

/-- A text with its escapes replaced. -/
def unescape (cs : Octets) : Printed := unescapeWithin cs.length cs

/-! ## Numbers -/

/-- The value of a digit; 36 if it is none. -/
def digit (c : Char) : Nat :=
  if c.isDigit then c.toNat - '0'.toNat
  else if c.isAlpha then c.toLower.toNat - 'a'.toNat + 10
  else 36

/-- The digits of a base at the beginning of a text, as a number, and the rest. -/
def takeDigits (base : Nat) (cs : Octets) : Option (Nat × Octets) :=
  let ds := cs.takeWhile fun c => digit c < base
  if ds = [] then none
  else some (ds.foldl (fun n c => n * base + digit c) 0, cs.drop ds.length)

/-- The natural number at the beginning of a text, hexadecimal after `0x` and octal after `0`, and
the rest. -/
def takeNat? : Octets → Option (Nat × Octets)
  | '0' :: 'x' :: rest | '0' :: 'X' :: rest =>
    match takeDigits 16 rest with
    | some found => some found
    | none => some (0, 'x' :: rest)
  | '0' :: rest => takeDigits 8 ('0' :: rest)
  | cs => takeDigits 10 cs

/-- The number that an argument is, read by `read` after its sign, and a complaint if it is none. An
argument that begins with a quoting mark is the number of the octet after that. -/
def number {α : Type} (read : Bool → Octets → Option ((α × Bool) × Octets)) (ofNat : Nat → α)
    (argument : Octets) : α × List String :=
  match argument with
  | '"' :: rest | '\'' :: rest => (ofNat (rest.headD '\x00').toNat, [])
  | cs =>
    let unsigned := cs.dropWhile fun c => c == ' ' || ('\t' ≤ c && c ≤ '\r')
    let found :=
      match unsigned with
      | '-' :: rest => read true rest
      | '+' :: rest => read false rest
      | rest => read false rest
    let complain (text : String) : List String := [String.ofList cs ++ ": " ++ text]
    match found with
    | some ((n, _), _ :: _) => (n, complain "not completely converted")
    | some ((n, true), []) => (n, complain "Numerical result out of range")
    | some ((n, false), []) => (n, [])
    | none => (ofNat 0, if cs = [] then [] else complain "expected numeric value")

/-- The integer of 64 bits that an argument is, with a sign of its own or without one. What is too
great is taken for the greatest one. -/
def integer (signed : Bool) : Octets → Int × List String :=
  let limit (negative : Bool) : Nat :=
    if !signed then 0xffffffffffffffff
    else if negative then 0x8000000000000000
    else 0x7fffffffffffffff
  let read (negative : Bool) (cs : Octets) : Option ((Int × Bool) × Octets) :=
    (takeNat? cs).map fun (n, rest) =>
      let isGreat := decide (limit negative < n)
      let m := min n (limit negative)
      ((if negative && !(isGreat && !signed) then -(m : Int) else m, isGreat), rest)
  number read fun n => n

/-- The decimal number at the beginning of a text as a double, and the rest. -/
def takeReal (negative : Bool) (cs : Octets) : Option ((Json.Double × Bool) × Octets) :=
  let whole := cs.takeWhile Char.isDigit
  let rest := cs.drop whole.length
  let decimals := if rest.head? = some '.' then rest.tail.takeWhile Char.isDigit else []
  let rest := if rest.head? = some '.' then rest.tail.drop decimals.length else rest
  let found (exponent : Int) (rest : Octets) : (Json.Double × Bool) × Octets :=
    let n := Nat.ofDigitChars 10 (whole ++ decimals) 0
    let k := exponent - decimals.length
    let d := Json.Double.ofRatio? negative (n * Nat.pow 10 k.toNat) (Nat.pow 10 (-k).toNat)
    ((d.getD (Json.Double.zero negative), d.isNone), rest)
  if whole = [] ∧ decimals = [] then none
  else
    match rest with
    | e :: after =>
      let digits := if after.head? = some '-' ∨ after.head? = some '+' then after.tail else after
      let ds := digits.takeWhile Char.isDigit
      let n := min (Nat.ofDigitChars 10 ds 0) 400
      if (e = 'e' ∨ e = 'E') ∧ ds ≠ [] then
        some (found (if after.head? = some '-' then -(n : Int) else n) (digits.drop ds.length))
      else some (found 0 rest)
    | [] => some (found 0 [])

/-- The double that an argument is. -/
def real : Octets → Json.Double × List String :=
  number takeReal fun n => (Json.Double.ofNat? false n).getD (Json.Double.zero false)

/-! ## Conversions -/

/-- How a conversion lays out its argument. -/
structure Field where
  minus : Bool := false
  zero : Bool := false
  plus : Bool := false
  blank : Bool := false
  alternate : Bool := false
  width : Nat := 0
  precision : Option Nat := none

/-- Pads a text with blanks to the width of a field. -/
def Field.pad (f : Field) (cs : Octets) : Octets :=
  let missing := List.replicate (f.width - cs.length) ' '
  if f.minus then cs ++ missing else missing ++ cs

/-- A number with what stands before its digits. -/
def Field.number (f : Field) (sign digits : Octets) : Octets :=
  let digits := List.replicate (f.precision.getD 1 - digits.length) '0' ++ digits
  if f.zero && !f.minus && f.precision.isNone then
    sign ++ List.replicate (f.width - sign.length - digits.length) '0' ++ digits
  else f.pad (sign ++ digits)

/-- A signed number. -/
def Field.signed (f : Field) (n : Int) : Octets :=
  let sign := if n < 0 then ['-'] else if f.plus then ['+'] else if f.blank then [' '] else []
  f.number sign (Nat.toDigits 10 n.natAbs)

/-- A number without a sign, in some base; a negative one is taken as one of 64 bits. -/
def Field.unsigned (f : Field) (base : Nat) (mark : Octets) (n : Int) : Octets :=
  let bits := (n.emod 0x10000000000000000).toNat
  f.number (if f.alternate && bits != 0 then mark else []) (Nat.toDigits base bits)

/-- The digits of a fraction with a number of decimals. -/
def fixed (num den decimals : Nat) : Octets :=
  let n := Json.Double.roundDiv (num * Nat.pow 10 decimals) den
  let digits := Nat.toDigits 10 n
  let digits := List.replicate (decimals + 1 - digits.length) '0' ++ digits
  let whole := digits.take (digits.length - decimals)
  if decimals = 0 then whole else whole ++ '.' :: digits.drop whole.length

/-- The exponent of ten of a fraction that is rounded to one digit and some decimals. -/
def exponent (num den decimals : Nat) : Int :=
  let isBelow (e : Int) : Bool := num * Nat.pow 10 (-e).toNat < den * Nat.pow 10 e.toNat
  let guess : Int := (Nat.toDigits 10 num).length - (Nat.toDigits 10 den).length
  let e := if isBelow guess then guess - 1 else guess
  let digits := fixed (num * Nat.pow 10 (-e).toNat) (den * Nat.pow 10 e.toNat) decimals
  if num = 0 then 0 else if digits.take 2 = ['1', '0'] then e + 1 else e

/-- A fraction as a number between one and ten and an exponent. -/
def scientific (num den decimals : Nat) : Octets × Octets :=
  let e := exponent num den decimals
  let digits := fixed (num * Nat.pow 10 (-e).toNat) (den * Nat.pow 10 e.toNat) decimals
  let power := Nat.toDigits 10 e.natAbs
  (digits, (if e < 0 then '-' else '+') :: List.replicate (2 - power.length) '0' ++ power)

/-- Decimals without zeros at their end. -/
def trim (cs : Octets) : Octets :=
  if cs.contains '.' then
    ((cs.reverse.dropWhile (· == '0')).dropWhile (· == '.')).reverse
  else cs

/-- A number with decimals, and an exponent if its conversion wants that. -/
def Field.real (f : Field) (conversion : Char) (d : Json.Double) : Octets :=
  let (num, den) := d.ratio
  let precision := f.precision.getD 6
  let sign := if d.negative then ['-'] else if f.plus then ['+'] else if f.blank then [' '] else []
  let letter := if conversion.isUpper then 'E' else 'e'
  let digits :=
    match conversion.toLower with
    | 'f' => fixed num den precision
    | 'e' =>
      let (digits, power) := scientific num den precision
      digits ++ letter :: power
    | _ =>
      let precision := max precision 1
      let e := exponent num den (precision - 1)
      if -4 ≤ e ∧ e < precision then trim (fixed num den (precision - 1 - e).toNat)
      else
        let (digits, power) := scientific num den (precision - 1)
        trim digits ++ letter :: power
  { f with precision := none }.number sign digits

/-- What a conversion makes of its argument; none if there is no such conversion. -/
def convert? (conversion : Char) (f : Field) (argument : Option Octets) : Option Printed :=
  let given := argument.getD []
  let (n, complaints) := integer (conversion = 'd' ∨ conversion = 'i') given
  match conversion with
  | 'd' | 'i' => some { output := f.signed n, complaints }
  | 'u' => some { output := f.unsigned 10 [] n, complaints }
  | 'o' => some { output := f.unsigned 8 ['0'] n, complaints }
  | 'x' => some { output := f.unsigned 16 ['0', 'x'] n, complaints }
  | 'X' => some { output := (f.unsigned 16 ['0', 'X'] n).map Char.toUpper, complaints }
  | 'f' | 'F' | 'e' | 'E' | 'g' | 'G' =>
    let (d, complaints) := real given
    some { output := f.real conversion d, complaints }
  | 'c' => some (text (f.pad [given.headD '\x00']))
  | 's' =>
    some (text (f.pad (match f.precision with | some p => given.take p | none => given)))
  | 'b' =>
    let p := unescape given
    some { p with output := f.pad p.output }
  | _ => none

/-- A width or a precision: digits, or an argument. -/
def takeSize (cs : Octets) (args : List Octets) : Option Int × Octets × List Octets :=
  match cs with
  | '*' :: rest => (some (integer true (args.headD [])).1, rest, args.tail)
  | cs =>
    let ds := cs.takeWhile Char.isDigit
    (if ds = [] then none else some (Nat.ofDigitChars 10 ds 0 : Nat), cs.drop ds.length, args)

/-- The field of a conversion, the rest and the arguments that are left. -/
def takeField (cs : Octets) (args : List Octets) : Field × Octets × List Octets :=
  let isFlag (c : Char) : Bool := c == '-' || c == '0' || c == '+' || c == ' ' || c == '#'
  let flags := cs.takeWhile isFlag
  let (width, cs, args) := takeSize (cs.dropWhile isFlag) args
  let field : Field :=
    { minus := flags.contains '-' || (width.getD 0) < 0, zero := flags.contains '0',
      plus := flags.contains '+', blank := flags.contains ' ', alternate := flags.contains '#',
      width := (width.getD 0).natAbs }
  match cs with
  | '.' :: cs =>
    let (precision, cs, args) := takeSize cs args
    ({ field with precision := some (precision.getD 0).toNat }, cs, args)
  | cs => (field, cs, args)

/-! ## Formats -/

/-- Goes through a format once, with its arguments: the output, and the arguments that are left. -/
def once : Nat → Octets → List Octets → Printed × List Octets
  | 0, _, args => ({}, args)
  | _, [], args => ({}, args)
  | fuel + 1, '%' :: '%' :: rest, args =>
    let (p, args) := once fuel rest args
    ((text ['%']).append p, args)
  | fuel + 1, '%' :: rest, args =>
    match takeField rest args with
    | (_, [], args) => ({ complaints := ["missing format character"], stopped := true }, args)
    | (field, conversion :: more, args) =>
      match convert? conversion field args.head? with
      | none =>
        let directive := '%' :: rest.take (rest.length - more.length)
        ({ complaints := [String.ofList directive ++ ": invalid directive"], stopped := true },
          args)
      | some p =>
        if p.stopped then (p, args)
        else
          let (q, args) := once fuel more args.tail
          (p.append q, args)
  | fuel + 1, '\\' :: rest, args =>
    let (escaped, rest) := takeEscape rest
    let (p, args) := once fuel rest args
    ((text escaped).append p, args)
  | fuel + 1, c :: rest, args =>
    let (p, args) := once fuel rest args
    ((text [c]).append p, args)

/-- Goes through a format until the arguments are used up or it takes none. -/
def again : Nat → Octets → List Octets → Printed
  | 0, _, _ => {}
  | fuel + 1, format, args =>
    match once format.length format args with
    | (p, left) =>
      if p.stopped ∨ left.isEmpty ∨ left.length = args.length then p
      else p.append (again fuel format left)

/-- The output of a format with its arguments. -/
def print (format : Octets) (args : List Octets) : Printed := again (args.length + 1) format args

end PipeCall.Counterparty.Format
