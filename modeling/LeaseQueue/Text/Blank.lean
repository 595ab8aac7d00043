/-! White space as the Unicode property of that name has it, and text without it at its ends. -/
namespace LeaseQueue

/-- The characters of the property White_Space. -/
def isBlank (c : Char) : Bool :=
  let n := c.toNat
  (9 ≤ n && n ≤ 13) || n = 0x20 || n = 0x85 || n = 0xA0 || n = 0x1680 ||
    (0x2000 ≤ n && n ≤ 0x200A) || n = 0x2028 || n = 0x2029 || n = 0x202F || n = 0x205F ||
    n = 0x3000

/-- Drops the characters at both ends for which `p` holds. -/
def trimChars (p : Char → Bool) (text : List Char) : List Char :=
  ((text.dropWhile p).reverse.dropWhile p).reverse

/-- The text without white space at its ends. -/
def trimBlank (text : String) : String := String.ofList (trimChars isBlank text.toList)

/-- The words of a text, separated by white space. The second argument holds the current word
with its last character first. -/
def blankWords : List Char → List Char → List (List Char)
  | [], [] => []
  | [], word => [word.reverse]
  | c :: rest, word =>
    if isBlank c then
      if word = [] then blankWords rest [] else word.reverse :: blankWords rest []
    else blankWords rest (c :: word)

/-- The text with its words separated by one space and no white space at its ends. -/
def squeezeBlank (text : String) : String :=
  String.intercalate " " ((blankWords text.toList []).map String.ofList)

end LeaseQueue
