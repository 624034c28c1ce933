import PipeCall.Bytes

/-!
# UTF-8

`encode` writes a string and `decode?` reads one; `next?` takes the first character off a byte
string, and reading is taking characters until nothing is left. `next?_encodeChar` and
`decode?_encode` say that what was written reads back, whatever follows it. `lossy` is for
diagnostics: it replaces each maximal broken part of a byte string by U+FFFD.
-/

namespace PipeCall.Utf8

/-- The bytes of a character. -/
abbrev encodeChar (c : Char) : Bytes := String.utf8EncodeChar c

/-- The bytes of a list of characters. -/
def encodeChars (cs : List Char) : Bytes := cs.flatMap encodeChar

/-- The bytes of a string. -/
def encode (s : String) : Bytes := encodeChars s.toList

/-- The first character of a byte string, and the bytes after it. A character takes at most four
bytes, so no more are looked at. -/
def next? (bs : Bytes) : Option (Char × Bytes) :=
  match (bs.take 4).toByteArray.utf8DecodeChar? 0 with
  | some c => some (c, bs.drop c.utf8Size)
  | none => none

/-- Takes at most `fuel` characters off a byte string, and fails if bytes are left. -/
def takeChars? : Nat → Bytes → Option (List Char)
  | _, [] => some []
  | 0, _ :: _ => none
  | fuel + 1, bs =>
    match next? bs with
    | some (c, rest) => (takeChars? fuel rest).map (c :: ·)
    | none => none

/-- The characters of a byte string, if it is well-formed. Every character takes a byte, so the
length bounds their number. -/
def decodeChars? (bs : Bytes) : Option (List Char) := takeChars? bs.length bs

/-- The string that a byte string spells, if it is well-formed. -/
def decode? (bs : Bytes) : Option String := (decodeChars? bs).map String.ofList

/-! ## Reading what was written -/

@[simp] theorem encodeChars_nil : encodeChars [] = [] := rfl

@[simp] theorem encodeChars_cons (c : Char) (cs : List Char) :
    encodeChars (c :: cs) = encodeChar c ++ encodeChars cs := by
  simp [encodeChars]

@[simp] theorem encodeChars_append (cs ds : List Char) :
    encodeChars (cs ++ ds) = encodeChars cs ++ encodeChars ds := by
  simp [encodeChars]

@[simp] theorem next?_nil : next? [] = none := by decide

/-- The first character is read back, whatever follows it. -/
@[simp] theorem next?_encodeChar (c : Char) (rest : Bytes) :
    next? (encodeChar c ++ rest) = some (c, rest) := by
  have hlen : (encodeChar c).length = c.utf8Size := String.length_utf8EncodeChar c
  have hle : c.utf8Size ≤ 4 := Char.utf8Size_le_four c
  have htake : (encodeChar c ++ rest).take 4
      = encodeChar c ++ rest.take (4 - (encodeChar c).length) := by
    rw [List.take_append, List.take_of_length_le (by omega)]
  unfold next?
  rw [htake, List.toByteArray_append, ByteArray.utf8DecodeChar?_utf8EncodeChar_append]
  show some (c, (encodeChar c ++ rest).drop c.utf8Size) = some (c, rest)
  rw [← hlen, List.drop_left]

theorem encodeChar_ne_nil (c : Char) : encodeChar c ≠ [] := by
  intro h
  have := congrArg List.length h
  rw [String.length_utf8EncodeChar] at this
  have := Char.utf8Size_pos c
  simp_all

/-- Enough fuel reads every character that was written. -/
theorem takeChars?_encodeChars {fuel : Nat} (cs : List Char) (h : cs.length ≤ fuel) :
    takeChars? fuel (encodeChars cs) = some cs := by
  induction cs generalizing fuel with
  | nil => simp [takeChars?]
  | cons c cs ih =>
    obtain _ | fuel := fuel
    · simp at h
    · obtain ⟨b, bs, hb⟩ : ∃ b bs, encodeChars (c :: cs) = b :: bs :=
        List.exists_cons_of_ne_nil fun h => encodeChar_ne_nil c (List.append_eq_nil_iff.1 h).1
      rw [hb, takeChars?, ← hb, encodeChars_cons, next?_encodeChar]
      · simp [ih (Nat.le_of_succ_le_succ h)]
      · simp

theorem length_le_encodeChars (cs : List Char) : cs.length ≤ (encodeChars cs).length := by
  induction cs with
  | nil => simp
  | cons c cs ih =>
    have := List.length_pos_iff.2 (encodeChar_ne_nil c)
    simp only [encodeChars_cons, List.length_append, List.length_cons]
    omega

@[simp] theorem decodeChars?_encodeChars (cs : List Char) :
    decodeChars? (encodeChars cs) = some cs :=
  takeChars?_encodeChars cs (length_le_encodeChars cs)

/-- A string reads back as itself. -/
@[simp] theorem decode?_encode (s : String) : decode? (encode s) = some s := by
  simp [decode?, encode]

/-! ## Broken text -/

/-- The bytes that may follow the first byte `b` of a character of three or four bytes, as a
range. -/
def secondRange (b : UInt8) : UInt8 × UInt8 :=
  if b == 0xe0 then (0xa0, 0xbf)
  else if b == 0xed then (0x80, 0x9f)
  else if b == 0xf0 then (0x90, 0xbf)
  else if b == 0xf4 then (0x80, 0x8f)
  else (0x80, 0xbf)

/-- How many bytes a character that starts with `b` takes; 0 if none does. -/
def width (b : UInt8) : Nat :=
  if b < 0x80 then 1
  else if b < 0xc2 then 0
  else if b < 0xe0 then 2
  else if b < 0xf0 then 3
  else if b < 0xf5 then 4
  else 0

/-- The length of the longest start of a character at the head of a byte string that no character
begins: its first byte, and the bytes after it that could still have gone on. -/
def brokenLength : Bytes → Nat
  | b :: c :: rest =>
    if 3 ≤ width b ∧ (secondRange b).1 ≤ c ∧ c ≤ (secondRange b).2 then
      2 + ((rest.take (width b - 3)).takeWhile (fun d => 0x80 ≤ d && d ≤ 0xbf)).length
    else 1
  | bs => bs.length

/-- What `lossy` does on at most `fuel` characters and broken parts. -/
def lossyChars : Nat → Bytes → List Char
  | 0, _ => []
  | _, [] => []
  | fuel + 1, bs =>
    match next? bs with
    | some (c, rest) => c :: lossyChars fuel rest
    | none => '\ufffd' :: lossyChars fuel (bs.drop (brokenLength bs))

/-- A byte string as text, with U+FFFD for each broken part. -/
def lossy (bs : Bytes) : String := String.ofList (lossyChars bs.length bs)

end PipeCall.Utf8
