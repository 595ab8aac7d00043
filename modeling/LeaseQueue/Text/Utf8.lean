/-! UTF-8: reading bytes as characters, strictly or with a replacement for what is malformed. -/
namespace LeaseQueue.Utf8

def encode (text : String) : List UInt8 := text.toUTF8.toList

/-- How many bytes must follow a leading byte, and the range of the first of them. -/
def leading? (b : UInt8) : Option (Nat × UInt8 × UInt8) :=
  if b < 0x80 then some (0, 0, 0)
  else if b < 0xC2 then none
  else if b < 0xE0 then some (1, 0x80, 0xBF)
  else if b = 0xE0 then some (2, 0xA0, 0xBF)
  else if b = 0xED then some (2, 0x80, 0x9F)
  else if b < 0xF0 then some (2, 0x80, 0xBF)
  else if b = 0xF0 then some (3, 0x90, 0xBF)
  else if b < 0xF4 then some (3, 0x80, 0xBF)
  else if b = 0xF4 then some (3, 0x80, 0x8F)
  else none

/-- Takes `count` continuation bytes, of which the first lies between `low` and `high`, and adds
their bits to `code`. The flag tells whether all were there; the list is what was not taken. -/
def continueWith : Nat → UInt8 → UInt8 → Nat → List UInt8 → Bool × Nat × List UInt8
  | 0, _, _, code, rest => (true, code, rest)
  | count + 1, low, high, code, b :: rest =>
    if low ≤ b ∧ b ≤ high then
      continueWith count 0x80 0xBF (code * 64 + b.toNat % 64) rest
    else (false, code, b :: rest)
  | _ + 1, _, _, code, [] => (false, code, [])

/-- The bits that a leading byte contributes. -/
def leadingBits (b : UInt8) (follow : Nat) : Nat :=
  match follow with
  | 0 => b.toNat
  | 1 => b.toNat % 32
  | 2 => b.toNat % 16
  | _ => b.toNat % 8

/-- The next character, or `none` for the longest malformed stretch that could have begun one. -/
def next (b : UInt8) (rest : List UInt8) : Option Char × List UInt8 :=
  match leading? b with
  | none => (none, rest)
  | some (follow, low, high) =>
    let (complete, code, rest) := continueWith follow low high (leadingBits b follow) rest
    (if complete then some (Char.ofNat code) else none, rest)

theorem length_continueWith_le (count : Nat) (low high : UInt8) (code : Nat) (bytes : List UInt8) :
    (continueWith count low high code bytes).2.2.length ≤ bytes.length := by
  induction bytes generalizing count low high code with
  | nil => cases count <;> simp [continueWith]
  | cons b rest ih =>
    cases count with
    | zero => simp [continueWith]
    | succ count =>
      simp only [continueWith]
      split
      · exact Nat.le_succ_of_le (ih ..)
      · exact Nat.le_refl _

theorem length_next_le (b : UInt8) (rest : List UInt8) :
    (next b rest).2.length ≤ rest.length := by
  unfold next
  split
  · exact Nat.le_refl _
  · exact length_continueWith_le ..

/-- Characters and malformed stretches in order. -/
def chunks : List UInt8 → List (Option Char)
  | [] => []
  | b :: rest => (next b rest).1 :: chunks (next b rest).2
termination_by bytes => bytes.length
decreasing_by
  have := length_next_le b rest
  simp only [List.length_cons]
  omega

/-- The text of well-formed bytes. -/
def decode? (bytes : List UInt8) : Option String :=
  (chunks bytes).mapM id |>.map String.ofList

/-- Where the first malformed stretch of some bytes lies and what is wrong with it, for bytes that
follow `offset` others. -/
def problem? (offset : Nat) : List UInt8 → Option String
  | [] => none
  | b :: rest =>
    let after := (next b rest).2
    let size := rest.length + 1 - after.length
    match (next b rest).1 with
    | some _ => problem? (offset + size) after
    | none =>
      if after = [] ∧ (leading? b).isSome then
        some ("incomplete utf-8 byte sequence from index " ++ toString offset)
      else
        some ("invalid utf-8 sequence of " ++ toString size ++ " bytes from index " ++
          toString offset)
termination_by bytes => bytes.length
decreasing_by
  have := length_next_le b rest
  simp only [List.length_cons]
  omega

/-- The text of any bytes, with U+FFFD for each malformed stretch. -/
def decodeLossy (bytes : List UInt8) : String :=
  String.ofList ((chunks bytes).map fun c => c.getD '\uFFFD')

/-- Drops a byte order mark at the front. -/
def dropMark : List UInt8 → List UInt8
  | 0xEF :: 0xBB :: 0xBF :: rest => rest
  | bytes => bytes

end LeaseQueue.Utf8
