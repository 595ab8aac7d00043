import LeaseQueue.Grouping.Digest
import LeaseQueue.Json.Lenient
/-! Lists of strings survive being written: the strict reader gives back the items, and the lenient
one counts them. Both follow the text from string to string, one escaped character at a time. -/
namespace LeaseQueue.Json

theorem hex_digit?_digit : ∀ n < 16, Hex.digit? (Hex.digit n) = some n := by decide

theorem readUnicode_control {c : Char} (control : c.toNat < 32) (rest : List Char) :
    readUnicode ('0' :: '0' :: Hex.digit (c.toNat / 16) :: Hex.digit (c.toNat % 16) :: rest) =
      .ok (c, rest) := by
  have high := hex_digit?_digit (c.toNat / 16) (by omega)
  have low := hex_digit?_digit (c.toNat % 16) (by omega)
  have zero : Hex.digit? '0' = some 0 := by decide
  have value : 4096 * 0 + 256 * 0 + 16 * (c.toNat / 16) + c.toNat % 16 = c.toNat := by omega
  have notLow : ¬ (0xDC00 ≤ c.toNat ∧ c.toNat ≤ 0xDFFF) := by omega
  have notHigh : ¬ (0xD800 ≤ c.toNat ∧ c.toNat ≤ 0xDBFF) := by omega
  simp only [readUnicode, readFourHex, zero, high, low, value, if_neg notLow, if_neg notHigh,
    Char.ofNat_toNat]

/-- Any escape that `readEscape` understands stands for one character of the string. -/
theorem readChars_escape {e : List Char} {c : Char} {text : List Char}
    (read : readEscape (e ++ text) = .ok (c, text)) :
    readChars ('\\' :: e ++ text) = (readChars text).map fun (more, last) => (c :: more, last) := by
  rw [List.cons_append, readChars]
  simp only [Char.reduceEq, if_false, if_true]
  split
  · rename_i problem h; rw [read] at h; cases h
  · rename_i escaped after h
    rw [read] at h
    cases h
    rfl

theorem readChars_escapeChar (c : Char) (text : List Char) :
    readChars (escapeChar c ++ text) =
      (readChars text).map fun (more, last) => (c :: more, last) := by
  unfold escapeChar
  split
  · subst_vars; exact readChars_escape (e := ['"']) rfl
  split
  · subst_vars; exact readChars_escape (e := ['\\']) rfl
  split
  · subst_vars; exact readChars_escape (e := ['n']) rfl
  split
  · subst_vars; exact readChars_escape (e := ['r']) rfl
  split
  · subst_vars; exact readChars_escape (e := ['t']) rfl
  split
  · rename_i h
    have eq : c = Char.ofNat 8 := by rw [← h, Char.ofNat_toNat]
    subst eq; exact readChars_escape (e := ['b']) rfl
  split
  · rename_i h
    have eq : c = Char.ofNat 12 := by rw [← h, Char.ofNat_toNat]
    subst eq; exact readChars_escape (e := ['f']) rfl
  split
  · rename_i control
    apply readChars_escape (e := ['u', '0', '0', _, _])
    exact readUnicode_control control text
  · rename_i quote backslash _ _ _ _ _ control
    rw [List.singleton_append, readChars]
    simp only [quote, backslash, control, if_false]

theorem readChars_written (text rest : List Char) :
    readChars (text.flatMap escapeChar ++ '"' :: rest) = .ok (text, rest) := by
  induction text with
  | nil => rw [List.flatMap_nil, List.nil_append, readChars]; rfl
  | cons c text ih =>
    rw [List.flatMap_cons, List.append_assoc, readChars_escapeChar, ih]
    rfl

theorem readString_written (text : String) (rest : List Char) :
    readString (stringChars text.toList ++ rest) = .ok (text, rest) := by
  have spaced : dropSpace (stringChars text.toList ++ rest) =
      '"' :: (text.toList.flatMap escapeChar ++ '"' :: rest) := by
    simp [stringChars, dropSpace, isSpace]
  simp only [readString, spaced, if_true, readChars_written, Except.map, String.ofList_toList]

/-- A comma stands before each part but the first. -/
theorem joinComma_parts (part : List Char) (parts : List (List Char)) :
    joinComma (part :: parts) = part ++ parts.flatMap (',' :: ·) := by
  induction parts generalizing part with
  | nil => simp [joinComma]
  | cons next parts ih =>
    rw [joinComma, ih next, List.flatMap_cons, List.cons_append]
    simp

/-- What follows the first item of a list. -/
def laterItems (items : List String) : List Char :=
  items.flatMap fun item => ',' :: stringChars item.toList

theorem joinComma_cons (item : String) (items : List String) :
    joinComma ((item :: items).map fun item => stringChars item.toList) =
      stringChars item.toList ++ laterItems items := by
  rw [List.map_cons, joinComma_parts, List.flatMap_map]
  rfl

theorem laterItems_cons (item : String) (items : List String) (rest : List Char) :
    laterItems (item :: items) ++ rest =
      ',' :: (stringChars item.toList ++ (laterItems items ++ rest)) := by
  simp [laterItems]

theorem hasElement_first (text rest : List Char) :
    hasElement true (stringChars text ++ rest) = .ok (true, stringChars text ++ rest) := by
  simp [hasElement, dropSpace, isSpace, stringChars]

theorem hasElement_later (text rest : List Char) :
    hasElement false (',' :: (stringChars text ++ rest)) =
      .ok (true, stringChars text ++ rest) := by
  simp [hasElement, dropSpace, isSpace, stringChars]

theorem hasElement_end (first : Bool) (rest : List Char) :
    hasElement first (']' :: rest) = .ok (false, ']' :: rest) := by
  simp [hasElement, dropSpace, isSpace]

/-- The items after the first, each with its comma. -/
theorem readElements_later (items : List String) (rest : List Char) (limit : Nat)
    (enough : items.length < limit) :
    readElements readString limit false (laterItems items ++ ']' :: rest) =
      .ok (items, ']' :: rest) := by
  induction items generalizing limit with
  | nil =>
    obtain ⟨limit, rfl⟩ := Nat.exists_eq_add_one_of_ne_zero (Nat.ne_of_gt enough)
    simp only [laterItems, List.flatMap_nil, List.nil_append, readElements, hasElement_end]
    rfl
  | cons item items ih =>
    obtain ⟨limit, rfl⟩ := Nat.exists_eq_add_one_of_ne_zero (Nat.ne_zero_of_lt enough)
    have tail := ih limit (Nat.lt_of_succ_lt_succ enough)
    simp only [laterItems_cons, readElements, hasElement_later, bind, Except.bind, if_true,
      readString_written, tail]
    rfl

theorem readElements_written (items : List String) (rest : List Char) (limit : Nat)
    (enough : items.length < limit) :
    readElements readString limit true
        (joinComma (items.map fun item => stringChars item.toList) ++ ']' :: rest) =
      .ok (items, ']' :: rest) := by
  obtain ⟨limit, rfl⟩ := Nat.exists_eq_add_one_of_ne_zero (Nat.ne_zero_of_lt enough)
  cases items with
  | nil =>
    simp only [List.map_nil, joinComma, List.nil_append, readElements, hasElement_end]
    rfl
  | cons item items =>
    have tail := readElements_later items rest limit (Nat.lt_of_succ_lt_succ enough)
    simp only [joinComma_cons, List.append_assoc, readElements, hasElement_first, bind,
      Except.bind, if_true, readString_written, tail]
    rfl

theorem length_laterItems (items : List String) : items.length ≤ (laterItems items).length := by
  induction items with
  | nil => exact Nat.zero_le _
  | cons item items ih =>
    have split := congrArg List.length (laterItems_cons item items [])
    simp only [List.append_nil, List.length_cons, List.length_append] at split
    simp only [List.length_cons]
    omega

/-- Every item of a written list takes at least one character. -/
theorem length_joinComma (items : List String) :
    items.length ≤ (joinComma (items.map fun item => stringChars item.toList)).length := by
  cases items with
  | nil => exact Nat.zero_le _
  | cons item items =>
    have later := length_laterItems items
    rw [joinComma_cons, List.length_append]
    simp only [stringChars, List.length_cons]
    omega

theorem readList_written (items : List String) (rest : List Char) :
    readList readString (listChars items ++ rest) = .ok (items, rest) := by
  have enough := length_joinComma items
  have elements := readElements_written items rest
    ((joinComma (items.map fun item => stringChars item.toList) ++ ']' :: rest).length + 1)
    (by simp only [List.length_append]; omega)
  have front : dropSpace (listChars items ++ rest) =
      '[' :: (joinComma (items.map fun item => stringChars item.toList) ++ ']' :: rest) := by
    simp [listChars, dropSpace, isSpace]
  have ends : readListEnd (']' :: rest) = .ok rest := by
    simp [readListEnd, dropSpace, isSpace]
  simp only [readList, front, if_true, elements, bind, Except.bind, ends]
  rfl

theorem readAll_writeList (items : List String) :
    readAll (readList readString) (writeList items) = .ok items := by
  have read := readList_written items []
  rw [List.append_nil] at read
  simp only [readAll, writeList, String.toList_ofList, read, bind, Except.bind]
  rfl

namespace Lenient

theorem dropSpace_of_visible {c : Char} (rest : List Char) (visible : isSpaceChar c = false)
    (solid : c ≠ '/') : dropSpace (c :: rest) = c :: rest := by
  simp only [dropSpace, List.length_cons]
  unfold dropSpaceWithin
  split
  · rename_i h; cases h; exact absurd rfl solid
  · rename_i h; cases h; exact absurd rfl solid
  · rename_i h
    cases h
    simp [visible]
  · rename_i h; cases h

theorem hexDigit_ordinary : ∀ n < 16,
    Hex.digit n ≠ '"' ∧ Hex.digit n ≠ '\\' ∧ ¬ (Hex.digit n).toNat < 32 ∧
      isHex (Hex.digit n) = true := by decide

theorem afterString?_ordinary {c : Char} (rest : List Char) (steps : Nat) (quote : c ≠ '"')
    (backslash : c ≠ '\\') (printing : ¬ c.toNat < 32) :
    afterString? '"' (steps + 1) (c :: rest) = afterString? '"' steps rest := by
  simp [afterString?, quote, backslash, printing]

/-- The digits of a control character are passed over as ordinary text after its escape. -/
theorem afterString?_control {c : Char} (control : c.toNat < 32) (rest : List Char) (steps : Nat) :
    afterString? '"' (steps + 5)
        ('\\' :: 'u' :: '0' :: '0' :: Hex.digit (c.toNat / 16) :: Hex.digit (c.toNat % 16) ::
          rest) =
      afterString? '"' steps rest := by
  obtain ⟨hq, hb, hp, hh⟩ := hexDigit_ordinary (c.toNat / 16) (by omega)
  obtain ⟨lq, lb, lp, lh⟩ := hexDigit_ordinary (c.toNat % 16) (by omega)
  have zero : isHex '0' = true := by decide
  have hex : areHex 4
      ('0' :: '0' :: Hex.digit (c.toNat / 16) :: Hex.digit (c.toNat % 16) :: rest) = true := by
    simp [areHex, zero, hh, lh]
  have escape : afterString? '"' (steps + 5)
      ('\\' :: 'u' :: '0' :: '0' :: Hex.digit (c.toNat / 16) :: Hex.digit (c.toNat % 16) :: rest) =
      afterString? '"' (steps + 4)
        ('0' :: '0' :: Hex.digit (c.toNat / 16) :: Hex.digit (c.toNat % 16) :: rest) := by
    simp [afterString?, hex]
  rw [escape, afterString?_ordinary _ _ (by decide) (by decide) (by decide),
    afterString?_ordinary _ _ (by decide) (by decide) (by decide),
    afterString?_ordinary _ _ hq hb hp, afterString?_ordinary _ _ lq lb lp]

theorem afterString?_escapeChar (c : Char) (rest : List Char) :
    ∃ taken ≤ (escapeChar c).length, ∀ steps,
      afterString? '"' (steps + taken) (escapeChar c ++ rest) = afterString? '"' steps rest := by
  unfold escapeChar
  split
  · exact ⟨1, by simp, fun _ => by simp [afterString?]⟩
  split
  · exact ⟨1, by simp, fun _ => by simp [afterString?]⟩
  split
  · exact ⟨1, by simp, fun _ => by simp [afterString?]⟩
  split
  · exact ⟨1, by simp, fun _ => by simp [afterString?]⟩
  split
  · exact ⟨1, by simp, fun _ => by simp [afterString?]⟩
  split
  · exact ⟨1, by simp, fun _ => by simp [afterString?]⟩
  split
  · exact ⟨1, by simp, fun _ => by simp [afterString?]⟩
  split
  · rename_i control
    exact ⟨5, by simp, afterString?_control control rest⟩
  · rename_i quote backslash _ _ _ _ _ printing
    exact ⟨1, by simp, fun steps => afterString?_ordinary rest steps quote backslash printing⟩

theorem afterString?_written (text rest : List Char) (steps : Nat)
    (enough : (text.flatMap escapeChar).length < steps) :
    afterString? '"' steps (text.flatMap escapeChar ++ '"' :: rest) = some rest := by
  induction text generalizing steps with
  | nil =>
    obtain ⟨steps, rfl⟩ := Nat.exists_eq_add_one_of_ne_zero (Nat.ne_of_gt enough)
    simp [afterString?]
  | cons c text ih =>
    rw [List.flatMap_cons, List.length_append] at enough
    obtain ⟨taken, few, skip⟩ :=
      afterString?_escapeChar c (text.flatMap escapeChar ++ '"' :: rest)
    have tail := ih (steps - taken) (by omega)
    have total : steps - taken + taken = steps := Nat.sub_add_cancel (by omega)
    rw [List.flatMap_cons, List.append_assoc, ← total, skip, tail]

theorem value?_string (text rest : List Char) (steps depth : Nat) :
    value? (steps + 1) depth (stringChars text ++ rest) = some (.text, rest) := by
  have front : dropSpace (stringChars text ++ rest) =
      '"' :: (text.flatMap escapeChar ++ '"' :: rest) := by
    rw [stringChars, List.cons_append, List.append_assoc]
    exact dropSpace_of_visible _ (by decide) (by decide)
  have body := afterString?_written text rest
    ('"' :: (text.flatMap escapeChar ++ '"' :: rest)).length
    (by simp only [List.length_cons, List.length_append]; omega)
  have noList : '"' ≠ '[' := by decide
  have noObject : '"' ≠ openBrace := by decide
  simp only [value?, front, if_neg noList, if_neg noObject, scalar?, true_or, if_true, body,
    Option.map_some]

/-- A string is one element, and what stands after it decides how the array goes on. -/
theorem elements?_item (text rest : List Char) (steps depth count : Nat) :
    elements? (steps + 2) depth count (stringChars text ++ rest) =
      match dropSpace rest with
      | ',' :: rest => elements? (steps + 1) depth (count + 1) rest
      | ']' :: rest => some (count + 1, rest)
      | _ => none := by
  have front : dropSpace (stringChars text ++ rest) = stringChars text ++ rest :=
    dropSpace_of_visible _ (by decide) (by decide)
  have value := value?_string text rest steps depth
  rw [elements?, front]
  split
  · rename_i closed; cases closed
  · rw [value]
    rfl

theorem elements?_later (item : String) (items : List String) (rest : List Char)
    (steps depth count : Nat) :
    elements? (steps + items.length + 2) depth count
        (stringChars item.toList ++ (laterItems items ++ ']' :: rest)) =
      some (count + 1 + items.length, rest) := by
  induction items generalizing item count with
  | nil =>
    have closed : dropSpace (']' :: rest) = ']' :: rest :=
      dropSpace_of_visible _ (by decide) (by decide)
    rw [elements?_item, laterItems, List.flatMap_nil, List.nil_append, closed]
    rfl
  | cons next items ih =>
    have comma := dropSpace_of_visible (c := ',')
      (stringChars next.toList ++ (laterItems items ++ ']' :: rest)) (by decide) (by decide)
    rw [List.length_cons, elements?_item, laterItems_cons, comma]
    exact (ih next (count + 1)).trans (by simp only [Nat.add_assoc, Nat.add_comm 1])

theorem elements?_written (items : List String) (rest : List Char) (steps depth : Nat)
    (enough : items.length < steps) :
    elements? (steps + 1) depth 0
        (joinComma (items.map fun item => stringChars item.toList) ++ ']' :: rest) =
      some (items.length, rest) := by
  cases items with
  | nil =>
    have closed : dropSpace (']' :: rest) = ']' :: rest :=
      dropSpace_of_visible _ (by decide) (by decide)
    rw [List.map_nil, joinComma, List.nil_append, elements?, closed]
    rfl
  | cons item items =>
    obtain ⟨steps, rfl⟩ := Nat.exists_eq_add_of_lt enough
    have read := elements?_later item items rest (steps + 1) depth 0
    have fuel : items.length + 1 + steps + 1 + 1 = steps + 1 + items.length + 2 := by omega
    rw [joinComma_cons, List.append_assoc, List.length_cons, fuel, read, Nat.zero_add,
      Nat.add_comm]

theorem value?_written (items : List String) (steps depth : Nat) (enough : items.length < steps) :
    value? (steps + 2) (depth + 1) (listChars items) = some (.array items.length, []) := by
  have front : dropSpace (listChars items) = listChars items := by
    rw [listChars]
    exact dropSpace_of_visible _ (by decide) (by decide)
  have elements := elements?_written items [] steps depth enough
  rw [value?, front, listChars]
  simp only [if_true, Nat.add_sub_cancel, if_neg (Nat.succ_ne_zero depth), elements,
    Option.map_some]

theorem arrayLength?_writeList (items : List String) :
    arrayLength? (writeList items) = some items.length := by
  have size := length_joinComma items
  have enough : items.length < 2 * (listChars items).length := by
    simp only [listChars, List.length_cons, List.length_append]
    omega
  have value := value?_written items _ 999 enough
  have ended : dropSpace [] = [] := rfl
  simp only [arrayLength?, writeList, String.toList_ofList, maxDepth, value, ended, ne_eq,
    not_true_eq_false, if_false]

end Lenient

end LeaseQueue.Json

namespace LeaseQueue.Digest

theorem decodeList_encodeList (digests : List Digest) :
    decodeList (encodeList digests) = .ok digests := by
  rw [decodeList, encodeList, Json.readAll_writeList]
  simp [Except.map, Function.comp_def]

theorem arrayLength?_encodeList (digests : List Digest) :
    Json.Lenient.arrayLength? (encodeList digests) = some digests.length := by
  rw [encodeList, Json.Lenient.arrayLength?_writeList, List.length_map]

end LeaseQueue.Digest
