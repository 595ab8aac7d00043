import LeaseQueue.Json.Problem
/-! Strings in JSON text, read after their opening quotation mark. -/
namespace LeaseQueue.Json

/-- The length of a text in UTF-8. -/
def byteLength (text : List Char) : Nat := text.foldl (fun size c => size + c.utf8Size) 0

/-- The four hexadecimal digits of an escape. Fewer than four bytes of remaining text count as the
end of the string, whatever they are. -/
def readFourHex (text : List Char) : Except Problem (Nat × List Char) :=
  match text with
  | a :: b :: c :: d :: rest =>
    match Hex.digit? a, Hex.digit? b, Hex.digit? c, Hex.digit? d with
    | some a, some b, some c, some d => .ok (4096 * a + 256 * b + 16 * c + d, rest)
    | _, _, _, _ => .error .invalidEscape
  | text => if byteLength text < 4 then .error .endInString else .error .invalidEscape

/-- The character of a `\u` escape. A high surrogate needs the escape of a low one after it. -/
def readUnicode (text : List Char) : Except Problem (Char × List Char) :=
  match readFourHex text with
  | .error problem => .error problem
  | .ok (unit, rest) =>
    if 0xDC00 ≤ unit ∧ unit ≤ 0xDFFF then .error .loneSurrogate
    else if 0xD800 ≤ unit ∧ unit ≤ 0xDBFF then
      match rest with
      | '\\' :: 'u' :: rest =>
        match readFourHex rest with
        | .error problem => .error problem
        | .ok (low, rest) =>
          if low < 0xDC00 ∨ 0xDFFF < low then .error .loneSurrogate
          else .ok (Char.ofNat (0x10000 + (unit - 0xD800) * 1024 + (low - 0xDC00)), rest)
      | [] | ['\\'] => .error .endInString
      | _ => .error .unexpectedEndOfEscape
    else .ok (Char.ofNat unit, rest)

/-- The character of an escape, after its backslash. -/
def readEscape (text : List Char) : Except Problem (Char × List Char) :=
  match text with
  | [] => .error .endInString
  | c :: rest =>
    if c = '"' ∨ c = '\\' ∨ c = '/' then .ok (c, rest)
    else if c = 'b' then .ok (Char.ofNat 8, rest)
    else if c = 'f' then .ok (Char.ofNat 12, rest)
    else if c = 'n' then .ok ('\n', rest)
    else if c = 'r' then .ok ('\r', rest)
    else if c = 't' then .ok ('\t', rest)
    else if c = 'u' then readUnicode rest
    else .error .invalidEscape

theorem length_of_readFourHex {text rest : List Char} {n : Nat}
    (h : readFourHex text = .ok (n, rest)) : rest.length + 4 = text.length := by
  unfold readFourHex at h
  split at h
  · split at h
    · cases h; simp
    · cases h
  · split at h <;> cases h

theorem length_of_readUnicode {text rest : List Char} {c : Char}
    (h : readUnicode text = .ok (c, rest)) : rest.length < text.length := by
  unfold readUnicode at h
  split at h
  · cases h
  · rename_i first
    have shorter := length_of_readFourHex first
    split at h
    · cases h
    · split at h
      · split at h
        · split at h
          · cases h
          · rename_i second
            have shorter' := length_of_readFourHex second
            split at h
            · cases h
            · simp only [Except.ok.injEq, Prod.mk.injEq] at h
              simp only [List.length_cons] at shorter
              rw [← h.2]
              omega
        all_goals cases h
      · simp only [Except.ok.injEq, Prod.mk.injEq] at h
        rw [← h.2]
        omega

theorem length_of_readEscape {text rest : List Char} {c : Char}
    (h : readEscape text = .ok (c, rest)) : rest.length < text.length := by
  unfold readEscape at h
  split at h
  · cases h
  · repeat' split at h
    all_goals first
      | (simp only [List.length_cons]; have shorter := length_of_readUnicode h; omega)
      | (cases h <;> simp)

/-- The characters up to the closing quotation mark, and the text after it. -/
def readChars (text : List Char) : Except Problem (List Char × List Char) :=
  match text with
  | [] => .error .endInString
  | c :: rest =>
    if c = '"' then .ok ([], rest)
    else if c = '\\' then
      match _escape : readEscape rest with
      | .error problem => .error problem
      | .ok (escaped, after) => (readChars after).map fun (more, last) => (escaped :: more, last)
    else if c.toNat < 32 then .error .controlCharacter
    else (readChars rest).map fun (more, last) => (c :: more, last)
termination_by text.length
decreasing_by
  · have := length_of_readEscape _escape
    simp only [List.length_cons]
    omega
  · simp

/-- Passes over an escape, after its backslash. Surrogates need no partner here. -/
def skipEscape (text : List Char) : Except Problem (List Char) :=
  match text with
  | [] => .error .endInString
  | c :: rest =>
    if "\"\\/bfnrt".toList.contains c then .ok rest
    else if c = 'u' then (readFourHex rest).map (·.2)
    else .error .invalidEscape

theorem length_of_skipEscape {text rest : List Char} (h : skipEscape text = .ok rest) :
    rest.length < text.length := by
  unfold skipEscape at h
  split at h
  · cases h
  · rename_i tail
    split at h
    · cases h; simp
    · split at h
      · cases first : readFourHex tail with
        | error e => simp [first, Except.map] at h
        | ok pair =>
          obtain ⟨n, middle⟩ := pair
          have shorter := length_of_readFourHex first
          simp only [first, Except.map] at h
          cases h
          simp only [List.length_cons]
          omega
      · cases h

/-- Passes over the characters up to the closing quotation mark and returns the text after it. -/
def skipChars (text : List Char) : Except Problem (List Char) :=
  match text with
  | [] => .error .endInString
  | c :: rest =>
    if c = '"' then .ok rest
    else if c = '\\' then
      match _escape : skipEscape rest with
      | .error problem => .error problem
      | .ok after => skipChars after
    else if c.toNat < 32 then .error .controlCharacter
    else skipChars rest
termination_by text.length
decreasing_by
  · have := length_of_skipEscape _escape
    simp only [List.length_cons]
    omega
  · simp

end LeaseQueue.Json
