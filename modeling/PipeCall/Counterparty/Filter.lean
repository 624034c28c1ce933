import PipeCall.Counterparty.Editor
import PipeCall.Counterparty.Format
import PipeCall.Counterparty.Numeral

/-!
# Filters

The utilities that read a text and write another one. A `Filter` says what is written when so much
of the text has been read, and when it is done; `Filter.ofWords` gives the filter of a utility that
is started with some words.
-/

namespace PipeCall.Counterparty

/-- What a utility makes of its input. -/
structure Filter where
  /-- What it has written for the input so far, which may have ended, and how it comes out if it
  needs no more. -/
  apply : Octets → Bool → Octets × Option Nat
  /-- Whether it writes at once, and not all at its end. -/
  isPrompt : Bool := false
  /-- The number of octets that it reads at most. -/
  most : Option Nat := none

namespace Filter

open Numeral (decimal?)

/-! ## Texts -/

/-- The lines of a text, without their line feeds; the last one may have lacked it. -/
def lines (cs : Octets) : List Octets :=
  let pieces := Octets.splitOn '\n' cs
  if pieces.getLast? = some [] then pieces.dropLast else pieces

/-- Lines, each with its line feed. -/
def unlines (ls : List Octets) : Octets := ls.flatMap fun line => line ++ ['\n']

/-- The lines of a text, with the line feeds that they have. -/
def wholeLines (cs : Octets) : List Octets :=
  let ls := lines cs
  let isOpen := cs.getLast?.any (· ≠ '\n')
  if isOpen then ls.dropLast.map (· ++ ['\n']) ++ ls.getLast?.toList else ls.map (· ++ ['\n'])

/-- The filter that writes something for its whole input. -/
def whole (f : Octets → Octets) : Filter :=
  { apply := fun cs ended => if ended then (f cs, some 0) else ([], none) }

/-! ## Parts -/

/-- How much is meant of a text. -/
inductive Amount where
  | lines (n : Nat)
  | octets (n : Nat)

/-- The beginning of a text, and whether that is all that is wanted. -/
def beginning (a : Amount) (cs : Octets) : Octets × Bool :=
  match a with
  | .lines n => (((wholeLines cs).take n).flatten, decide (n ≤ cs.count '\n'))
  | .octets n => (cs.take n, decide (n ≤ cs.length))

/-- The end of a text. -/
def ending (a : Amount) (cs : Octets) : Octets :=
  match a with
  | .lines n =>
    let ls := wholeLines cs
    (ls.drop (ls.length - n)).flatten
  | .octets n => cs.drop (cs.length - n)

/-- A text from a line or an octet on. -/
def startingAt (a : Amount) (cs : Octets) : Octets :=
  match a with
  | .lines n => ((wholeLines cs).drop (n - 1)).flatten
  | .octets n => cs.drop (n - 1)

/-- The options of a head or a tail: an amount, the sign before it, and the files. An option is a
letter with its value after it, or a number of lines. -/
def amountOf : Nat → Amount × Option Char → List Octets →
    Option ((Amount × Option Char) × List Octets)
  | 0, found, words => some (found, words)
  | fuel + 1, found, words =>
    let sized (make : Nat → Amount) (value : Octets) (rest : List Octets) :=
      let sign := value.head?.filter fun c => c == '+' || c == '-'
      match decimal? (if sign.isSome then value.tail else value) with
      | some n => amountOf fuel (make n, sign) rest
      | none => none
    match words with
    | ['-', 'n'] :: value :: rest => sized .lines value rest
    | ['-', 'c'] :: value :: rest => sized .octets value rest
    | ('-' :: 'n' :: value) :: rest => sized .lines value rest
    | ('-' :: 'c' :: value) :: rest => sized .octets value rest
    | ['-', 'q'] :: rest => amountOf fuel found rest
    | ['-', '-'] :: rest => some (found, rest)
    | ('-' :: c :: digits) :: rest =>
      if c.isDigit then sized .lines (c :: digits) rest else none
    | _ => some (found, words)

/-- The beginning of the input, or all but its end. -/
def head : Amount × Option Char → Filter
  | (a, some '-') => whole fun cs => cs.take (cs.length - (ending a cs).length)
  | (a, _) =>
    { apply := fun cs ended =>
        let (text, isAll) := beginning a cs
        (text, if isAll || ended then some 0 else none)
      most := match a with
        | .octets n => some n
        | .lines _ => none }

/-- The end of the input, or all from some place on. -/
def tail : Amount × Option Char → Filter
  | (a, some '+') => whole (startingAt a)
  | (a, _) => whole (ending a)

/-- The numbers from and up to which fields or characters are meant. -/
def ranges (cs : Octets) : List (Nat × Option Nat) :=
  (Octets.splitOn ',' cs).map fun range =>
    match Octets.splitOn '-' range with
    | [n] => ((decimal? n).getD 0, some ((decimal? n).getD 0))
    | low :: high :: _ => ((decimal? low).getD 1, decimal? high)
    | [] => (0, some 0)

/-- Whether a number is in one of some ranges. -/
def isIn (rs : List (Nat × Option Nat)) (n : Nat) : Bool :=
  rs.any fun (low, high) => low ≤ n && (high.getD n) ≥ n

/-- The members of a list that are in some ranges, counted from one. -/
def pick {α : Type} (rs : List (Nat × Option Nat)) (xs : List α) : List α :=
  (xs.zipIdx.filter fun (_, n) => isIn rs (n + 1)).map Prod.fst

/-- Parts of each line: fields, or characters if there is no separator. -/
def cut (separator : Option Char) (rs : List (Nat × Option Nat)) : Filter :=
  whole fun cs =>
    unlines <| (lines cs).map fun line =>
      match separator with
      | none => pick rs line
      | some c =>
        if line.contains c then Octets.join [c] (pick rs (Octets.splitOn c line)) else line

/-! ## Counting and ordering -/

/-- The number of words, which are separated by blanks and have something to see in them. -/
def wordCount (cs : Octets) : Nat :=
  let pieces := Octets.splitOn ' ' (cs.map fun c => if Octets.isBlank c then ' ' else c)
  pieces.countP fun piece => piece.any fun c => ' ' < c && c < '\x7f'

/-- The numbers of lines, words and octets that are wanted. -/
def count (letters : List Char) (name : Octets) : Filter :=
  let isWanted (ls : List Char) : Bool := letters.isEmpty || letters.any ls.contains
  whole fun cs =>
    let numbers := (if isWanted ['l'] then [cs.count '\n'] else []) ++
      (if isWanted ['w'] then [wordCount cs] else []) ++
      (if isWanted ['c', 'm'] then [cs.length] else [])
    let texts := numbers.map fun (n : Nat) => Octets.ofInt n
    let padded := texts.map fun text =>
      if texts.length = 1 then text else List.replicate (7 - text.length) ' ' ++ text
    Octets.join [' '] (padded ++ if name = [] then [] else [name]) ++ ['\n']

/-- The integer at the beginning of a line. -/
def leadingInt (cs : Octets) : Int :=
  let cs := cs.dropWhile (· == ' ')
  let digits := if cs.head? = some '-' then cs.tail else cs
  let n : Int := Nat.ofDigitChars 10 (digits.takeWhile Char.isDigit) 0
  if cs.head? = some '-' then -n else n

/-- The lines in order: by their octets, or by the numbers that they begin with. -/
def sort (letters : List Char) : Filter :=
  let before (a b : Octets) : Bool :=
    let m := leadingInt a
    let n := leadingInt b
    if letters.contains 'n' ∧ m ≠ n then m < n else String.ofList a ≤ String.ofList b
  let ordered (a b : Octets) : Bool := if letters.contains 'r' then before b a else before a b
  whole fun cs =>
    let ls := (lines cs).mergeSort ordered
    unlines (if letters.contains 'u' then ls.eraseReps else ls)

/-- Each of the lines that are equal and follow each other once, perhaps with their number. -/
def unique (letters : List Char) : Filter :=
  whole fun cs =>
    let groups := (lines cs).splitBy (· == ·)
    let wanted := groups.filter fun g => !letters.contains 'd' || 1 < g.length
    unlines <| wanted.map fun g =>
      let n := Octets.ofInt g.length
      let line := g.headD []
      if letters.contains 'c' then List.replicate (7 - n.length) ' ' ++ n ++ ' ' :: line else line

/-! ## Characters -/

/-- The set of characters that an operand denotes, with ranges, classes and escapes. -/
def setOf : Nat → Octets → List Char
  | 0, _ => []
  | fuel + 1, cs =>
    let unescaped : Octets → Option (Char × Octets)
      | '\\' :: '\\' :: rest => some ('\\', rest)
      | '\\' :: rest =>
        match Format.takeEscape rest with
        | (['\\'], more) => more.head?.map fun c => (c, more.tail)
        | (cs, more) => cs.head?.map fun c => (c, more)
      | c :: rest => some (c, rest)
      | [] => none
    let span (low high : Char) : List Char :=
      (List.range (high.toNat + 1 - low.toNat)).map fun k => Char.ofNat (low.toNat + k)
    match cs with
    | '[' :: ':' :: rest =>
      let name := rest.takeWhile (· ≠ ':')
      (Pattern.namedClass (String.ofList name)).flatMap (fun (low, high) => span low high) ++
        setOf fuel (rest.drop (name.length + 2))
    | cs =>
      match unescaped cs with
      | none => []
      | some (low, '-' :: rest) =>
        match unescaped rest with
        | some (high, rest) => span low high ++ setOf fuel rest
        | none => [low, '-']
      | some (c, rest) => c :: setOf fuel rest

/-- Leaves out the repetitions of some characters. -/
def squeeze (isSqueezed : Char → Bool) : Octets → Octets
  | c :: d :: rest =>
    if c = d ∧ isSqueezed c then squeeze isSqueezed (d :: rest)
    else c :: squeeze isSqueezed (d :: rest)
  | cs => cs

/-- Replaces, leaves out or squeezes characters. -/
def translate (letters : List Char) (sets : List Octets) : Filter :=
  let listed := sets.map fun cs => setOf cs.length cs
  let first := listed.headD []
  let second := listed.getD 1 []
  let isComplement := letters.contains 'c' || letters.contains 'C'
  let isFirst (c : Char) : Bool := first.contains c != isComplement
  let map (c : Char) : Option Char :=
    if letters.contains 'd' then if isFirst c then none else some c
    else if sets.length < 2 ∨ !isFirst c then some c
    else if isComplement then second.getLast?
    else
      let place := first.length - 1 - first.reverse.idxOf c
      second[place]?.or second.getLast?
  let isLast := if sets.length < 2 then isFirst else second.contains
  whole fun cs => squeeze (fun c => letters.contains 's' && isLast c) (cs.filterMap map)

/-! ## Searching -/

/-- The matches in a line, of which some was read already. -/
def matchesIn (r : Regex) : Nat → Option Char → Octets → List Octets
  | 0, _, _ => []
  | fuel + 1, before, cs =>
    match r.find? before cs with
    | none => []
    | some m =>
      match m.text, m.rest with
      | [], [] => []
      | [], c :: rest => matchesIn r fuel (some c) rest
      | text, rest => text :: matchesIn r fuel text.getLast? rest

/-- How lines are searched for. -/
structure Search where
  letters : List Char := []
  patterns : List Octets := []
  /-- The greatest number of lines that are found. -/
  most : Option Nat := none

/-- The options of a search, and the words after them. -/
def searchOf : Nat → Search → List Octets → Option (Search × List Octets)
  | 0, s, words => some (s, words)
  | fuel + 1, s, words =>
    match words with
    | ['-', '-'] :: rest => some (s, rest)
    | ['-', 'e'] :: p :: rest => searchOf fuel { s with patterns := s.patterns ++ [p] } rest
    | ['-', 'm'] :: n :: rest | ('-' :: 'm' :: n) :: rest =>
      (decimal? n).bind fun n => searchOf fuel { s with most := some n } rest
    | ('-' :: '-' :: name) :: rest =>
      if name = "line-buffered".toList then
        searchOf fuel { s with letters := 'U' :: s.letters } rest
      else none
    | ('-' :: c :: cs) :: rest =>
      if (c :: cs).all "EFGiqscvonxwhaU".toList.contains then
        searchOf fuel { s with letters := s.letters ++ c :: cs } rest
      else none
    | words => some (s, words)

/-- The expression of a search. It may have to match whole lines or whole words. -/
def Search.regex? (s : Search) : Option Regex :=
  let has (c : Char) : Bool := s.letters.contains c
  let single (p : Octets) : Option Regex :=
    if has 'F' then some (Regex.literal p) else Regex.read? (has 'E') p
  let all := (s.patterns.flatMap (Octets.splitOn '\n')).mapM single
  all.bind fun rs =>
    match rs with
    | [] => none
    | r :: rest =>
      let r := rest.foldl .either r
      let r := if has 'i' then r.ignoringCase else r
      if has 'x' then some (.both Regex.first (.both r Regex.last))
      else if has 'w' then some (.both (Regex.escaped 'b') (.both r (Regex.escaped 'b')))
      else some r

/-- The lines that are found, or what is said of them. -/
def search (s : Search) (r : Regex) : Filter :=
  let has (c : Char) : Bool := s.letters.contains c
  let isFound (line : Octets) : Bool := r.occursIn line != has 'v'
  { isPrompt := has 'U'
    apply := fun cs ended =>
      let unfinished := (cs.reverse.takeWhile (· ≠ '\n')).length
      let ls := lines (if ended then cs else cs.take (cs.length - unfinished))
      let all := (ls.zipIdx.filter fun (line, _) => isFound line)
      let found := match s.most with
        | some n => all.take n
        | none => all
      let numbered (line : Octets) (n : Nat) : Octets :=
        if has 'n' then Octets.ofInt (n + 1 : Nat) ++ ':' :: line else line
      let shown :=
        if has 'q' then []
        else if has 'c' then if ended then Octets.ofInt found.length ++ ['\n'] else []
        else if has 'o' then
          unlines <| found.flatMap fun (line, n) =>
            (matchesIn r (line.length + 1) none line).map fun text => numbered text n
        else unlines <| found.map fun (line, n) => numbered line n
      let isDone := (has 'q' && !found.isEmpty) || s.most.any (· ≤ all.length) || ended
      (shown, if isDone then some (if found.isEmpty then 1 else 0) else none) }

/-! ## Editing -/

/-- How lines are edited. -/
structure Editing where
  quiet : Bool := false
  extended : Bool := false
  isPrompt : Bool := false
  scripts : List Octets := []

/-- The options of an editor, and the words after them. -/
def editingOf : Nat → Editing → List Octets → Option (Editing × List Octets)
  | 0, e, words => some (e, words)
  | fuel + 1, e, words =>
    match words with
    | ['-', '-'] :: rest => some (e, rest)
    | ['-', 'e'] :: script :: rest =>
      editingOf fuel { e with scripts := e.scripts ++ [script] } rest
    | ('-' :: '-' :: name) :: rest =>
      match String.ofList name with
      | "quiet" | "silent" => editingOf fuel { e with quiet := true } rest
      | "unbuffered" => editingOf fuel { e with isPrompt := true } rest
      | "regexp-extended" => editingOf fuel { e with extended := true } rest
      | _ => none
    | ('-' :: c :: cs) :: rest =>
      let letters := c :: cs
      let options := letters.takeWhile (· ≠ 'e')
      let e :=
        { e with
          quiet := e.quiet || options.contains 'n'
          extended := e.extended || options.contains 'E' || options.contains 'r'
          isPrompt := e.isPrompt || options.contains 'u' }
      if !options.all "nEru".toList.contains then none
      else
        match letters.drop options.length, rest with
        | [], rest => editingOf fuel e rest
        | ['e'], script :: rest => editingOf fuel { e with scripts := e.scripts ++ [script] } rest
        | ['e'], [] => none
        | _ :: script, rest => editingOf fuel { e with scripts := e.scripts ++ [script] } rest
    | words => some (e, words)

/-! ## Utilities -/

/-- The letters of the options among some words, and the other words. -/
def lettersOf (words : List Octets) : List Char × List Octets :=
  let options := words.takeWhile fun w => w.head? = some '-' ∧ 1 < w.length
  (options.flatMap List.tail, words.drop options.length)

/-- The separator and the ranges of a cut, and the files. -/
def cutOf :
    Nat → Option Char × Option (Bool × Octets) → List Octets → Option (Filter × List Octets)
  | 0, _, _ => none
  | fuel + 1, (separator, list), words =>
    match words with
    | ['-', 'd'] :: [c] :: rest => cutOf fuel (some c, list) rest
    | ['-', 'd', c] :: rest => cutOf fuel (some c, list) rest
    | ['-', 's'] :: rest => cutOf fuel (separator, list) rest
    | ['-', 'f'] :: l :: rest => cutOf fuel (separator, some (true, l)) rest
    | ['-', 'c'] :: l :: rest | ['-', 'b'] :: l :: rest =>
      cutOf fuel (separator, some (false, l)) rest
    | ('-' :: 'f' :: l) :: rest => cutOf fuel (separator, some (true, l)) rest
    | ('-' :: 'c' :: l) :: rest | ('-' :: 'b' :: l) :: rest =>
      cutOf fuel (separator, some (false, l)) rest
    | files =>
      list.map fun (isFields, l) =>
        (cut (if isFields then some (separator.getD '\t') else none) (ranges l), files)

/-- The names of the utilities that complain of words that they cannot take. -/
def names : List String := ["cut", "head", "sed", "tail"]

/-- The filter of a utility of this name that is started with some words, and the files among them;
none if the utility is no filter or the words are wrong. -/
def ofWords (name : String) (words : List Octets) : Option (Filter × List Octets) :=
  let (letters, others) := lettersOf words
  match name with
  | "head" => (amountOf words.length (.lines 10, none) words).map fun (a, files) => (head a, files)
  | "tail" => (amountOf words.length (.lines 10, none) words).map fun (a, files) => (tail a, files)
  | "wc" => some (count letters (others.headD []), others)
  | "tr" => some (translate letters others, [])
  | "tac" => some (whole fun cs => (wholeLines cs).reverse.flatten, others)
  | "rev" => some (whole fun cs => unlines ((lines cs).map List.reverse), others)
  | "sort" => some (sort letters, others)
  | "uniq" => some (unique letters, others)
  | "cut" => cutOf (words.length + 1) (none, none) words
  | "grep" | "egrep" | "fgrep" => do
    let start : Search :=
      { letters := if name = "egrep" then ['E'] else if name = "fgrep" then ['F'] else [] }
    let (s, rest) ← searchOf (words.length + 1) start words
    match s.patterns, rest with
    | [], [] => none
    | [], p :: files => do pure (search s (← Search.regex? { s with patterns := [p] }), files)
    | _, files => do pure (search s (← s.regex?), files)
  | "sed" => do
    let (e, rest) ← editingOf (words.length + 1) {} words
    let (scripts, files) := match e.scripts, rest with
      | [], script :: files => ([script], files)
      | scripts, files => (scripts, files)
    if scripts.isEmpty then none
    else do
      let program ← Editor.read? e.extended (Octets.join ['\n'] scripts)
      pure ({ apply := Editor.run e.quiet program, isPrompt := e.isPrompt }, files)
  | "base64" | "b2sum" | "cksum" | "expand" | "fmt" | "fold" | "md5sum" | "nl" | "od" | "paste" |
    "pr" | "sha1sum" | "sha256sum" | "sha512sum" | "shuf" | "split" | "sum" | "unexpand" =>
    some (whole fun _ => [], others)
  | _ => none

end Filter

end PipeCall.Counterparty
