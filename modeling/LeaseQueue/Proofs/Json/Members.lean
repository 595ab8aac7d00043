import LeaseQueue.Json.Reader
import LeaseQueue.Proofs.Lists
import LeaseQueue.Proofs.Results
/-! The members of a record that is read from a text. Each known one is read into the field of its
name, a field that has no member stays as it was, and a record written as a list has its members by
position. -/
namespace LeaseQueue.Json

section Record

variable {σ : Type} (fields : List (Field σ))

/-- A value of a member is followed by a text. What no field takes is passed over. -/
def Ends (name : String) (value rest : List Char) : Prop :=
  match fields.find? fun field => field.name = name with
  | some field => ∃ record next, field.read record value = .ok (next, rest)
  | none => skipValue value = .ok rest

/-- The members of an object by their names, each with the text that begins with its value. -/
inductive Members : Bool → List Char → List (String × List Char) → List Char → Prop
  | close {first : Bool} {text rest : List Char} (ended : readKey first text = .ok (none, rest)) :
    Members first text [] rest
  | more {first : Bool} {text colon value after rest : List Char} {name : String}
    {members : List (String × List Char)} (key : readKey first text = .ok (some name, colon))
    (separated : readColon colon = .ok value) (ends : Ends fields name value after)
    (later : Members false after members rest) :
    Members first text ((name, value) :: members) rest

/-- The elements of a list as members that have the given names in turn. -/
inductive Elements : List String → Bool → List Char → List (String × List Char) → List Char → Prop
  | full {first : Bool} {text : List Char} : Elements [] first text [] text
  | close {name : String} {names : List String} {first : Bool} {text rest : List Char}
    (ended : hasElement first text = .ok (false, rest)) : Elements (name :: names) first text [] rest
  | more {name : String} {names : List String} {first : Bool} {text value after rest : List Char}
    {members : List (String × List Char)} (found : hasElement first text = .ok (true, value))
    (ends : Ends fields name value after) (later : Elements names false after members rest) :
    Elements (name :: names) first text ((name, value) :: members) rest

/-- A text that begins with a record of certain members. -/
inductive RecordText (text : List Char) (members : List (String × List Char)) (rest : List Char) :
    Prop
  | object {inside : List Char} (opens : dropSpace text = openBrace :: inside)
    (inner : Members fields true inside members rest)
  | list {inside left : List Char} (opens : dropSpace text = '[' :: inside)
    (inner : Elements fields (fields.map Field.name) true inside members left)
    (closes : readListEnd left = .ok rest)

/-- The fields that members set, one after the other, none of them twice. -/
inductive Filled : σ → List (String × List Char) → σ → Prop
  | done (record : σ) : Filled record [] record
  | known {record next result : σ} {field : Field σ} {value rest : List Char}
    {members : List (String × List Char)} (own : field ∈ fields) (fresh : field.isSet record = false)
    (read : field.read record value = .ok (next, rest)) (later : Filled next members result) :
    Filled record ((field.name, value) :: members) result
  | unknown {record result : σ} {name : String} {value : List Char}
    {members : List (String × List Char)} (none : ∀ field ∈ fields, field.name ≠ name)
    (later : Filled record members result) : Filled record ((name, value) :: members) result

def Field.Keeps {α : Type} (field : Field σ) (view : σ → α) : Prop :=
  ∀ record text next rest, field.read record text = .ok (next, rest) → view next = view record

/-- Reading a field stores what a reader reads. -/
def Field.Sets {α : Type} (field : Field σ) (reader : Reader α) (column : σ → Option α) : Prop :=
  ∀ record text next rest, field.read record text = .ok (next, rest) →
    ∃ value, reader text = .ok (value, rest) ∧ column next = some value

structure Independent : Prop where
  names : (fields.map Field.name).Nodup
  others : ∀ field ∈ fields, ∀ other ∈ fields, other.name ≠ field.name → field.Keeps other.isSet

variable {fields}

theorem find?_field (independent : Independent fields) {field : Field σ} (own : field ∈ fields) :
    (fields.find? fun other => other.name = field.name) = some field := by
  apply find?_of_key (k := field.name) independent.names
  · intro other named
    exact of_decide_eq_true named
  · exact own
  · exact decide_eq_true rfl

theorem ends_of_read (independent : Independent fields) {field : Field σ} (own : field ∈ fields)
    {record next : σ} {value rest : List Char} (read : field.read record value = .ok (next, rest)) :
    Ends fields field.name value rest := by
  rw [Ends, find?_field independent own]
  exact ⟨record, next, read⟩

theorem members_of_readMembers (independent : Independent fields) {limit : Nat} {first : Bool}
    {record result : σ} {text rest : List Char}
    (read : readMembers fields limit first record text = .ok (result, rest)) :
    ∃ members, Members fields first text members rest ∧ Filled fields record members result := by
  -- Each member takes one from the limit, so the members are those of the steps that were made.
  induction limit generalizing first record text with
  | zero => cases read
  | succ limit ih =>
    rw [readMembers] at read
    obtain ⟨⟨name?, afterKey⟩, key, read⟩ := exists_of_bind_eq_ok read
    cases name? with
    | none =>
      cases read
      exact ⟨[], .close key, .done _⟩
    | some name =>
      cases taken : fields.find? fun field => field.name = name with
      | none =>
        simp only [taken] at read
        obtain ⟨value, separated, read⟩ := exists_of_bind_eq_ok read
        obtain ⟨after, skipped, read⟩ := exists_of_bind_eq_ok read
        obtain ⟨members, later, filled⟩ := ih read
        refine ⟨(name, value) :: members, .more key separated ?_ later, .unknown ?_ filled⟩
        · rw [Ends, taken]
          exact skipped
        · simpa using taken
      | some field =>
        have named := List.find?_some taken
        obtain rfl : field.name = name := of_decide_eq_true named
        have own := List.mem_of_find?_eq_some taken
        simp only [taken] at read
        split at read
        · cases read
        · rename_i fresh
          obtain ⟨value, separated, read⟩ := exists_of_bind_eq_ok read
          obtain ⟨⟨next, after⟩, taken, read⟩ := exists_of_bind_eq_ok read
          obtain ⟨members, later, filled⟩ := ih read
          exact ⟨(field.name, value) :: members,
            .more key separated (ends_of_read independent own taken) later,
            .known own (Bool.eq_false_iff.mpr fresh) taken filled⟩

theorem elements_of_readPositional (independent : Independent fields) {left : List (Field σ)}
    {first : Bool} {record result : σ} {text rest : List Char} (among : left ⊆ fields)
    (distinct : (left.map Field.name).Nodup) (unset : ∀ field ∈ left, field.isSet record = false)
    (read : readPositional left first record text = .ok (result, rest)) :
    ∃ members, Elements fields (left.map Field.name) first text members rest ∧
      Filled fields record members result := by
  induction left generalizing first record text with
  | nil =>
    cases read
    exact ⟨[], .full, .done _⟩
  | cons field left ih =>
    rw [readPositional] at read
    obtain ⟨⟨more, value⟩, found, read⟩ := exists_of_bind_eq_ok read
    cases more with
    | false =>
      cases read
      exact ⟨[], .close found, .done _⟩
    | true =>
      obtain ⟨⟨next, after⟩, taken, read⟩ := exists_of_bind_eq_ok read
      have own := among List.mem_cons_self
      rw [List.map_cons, List.nodup_cons] at distinct
      have still : ∀ other ∈ left, other.isSet next = false := by
        intro other member
        have apart : other.name ≠ field.name := fun same =>
          distinct.1 (List.mem_map.mpr ⟨other, member, same⟩)
        rw [independent.others field own other (among (List.mem_cons_of_mem _ member)) apart _ _ _ _
          taken]
        exact unset other (List.mem_cons_of_mem _ member)
      obtain ⟨members, later, filled⟩ :=
        ih (List.subset_of_cons_subset among) distinct.2 still read
      exact ⟨(field.name, value) :: members,
        .more found (ends_of_read independent own taken) later,
        .known own (unset field List.mem_cons_self) taken filled⟩

theorem record_of_readRecord (independent : Independent fields) {typeName : String} {blank result : σ}
    (unset : ∀ field ∈ fields, field.isSet blank = false) {text rest : List Char}
    (read : readRecord typeName fields blank text = .ok (result, rest)) :
    ∃ members, RecordText fields text members rest ∧ Filled fields blank members result := by
  unfold readRecord at read
  cases opens : dropSpace text with
  | nil =>
    rw [opens] at read
    cases read
  | cons c inside =>
    simp only [opens] at read
    split at read
    · rename_i bracket
      obtain ⟨⟨record, left⟩, inner, read⟩ := exists_of_bind_eq_ok read
      obtain ⟨after, closes, read⟩ := exists_of_bind_eq_ok read
      cases read
      obtain ⟨members, elements, filled⟩ := elements_of_readPositional independent
        (List.Subset.refl fields) independent.names unset inner
      exact ⟨members, .list (bracket ▸ opens) elements closes, filled⟩
    · split at read
      · rename_i brace
        obtain ⟨members, inner, filled⟩ := members_of_readMembers independent read
        exact ⟨members, .object (brace ▸ opens) inner, filled⟩
      · cases read

/-- The field of a name takes what a reader reads into one column, and no other field does. -/
structure Column {α : Type} (fields : List (Field σ)) (name : String) (reader : Reader α)
    (column : σ → Option α) : Prop where
  known : name ∈ fields.map Field.name
  isSet : ∀ field ∈ fields, field.name = name → field.isSet = fun record => (column record).isSome
  own : ∀ field ∈ fields, field.name = name → field.Sets reader column
  other : ∀ field ∈ fields, field.name ≠ name → field.Keeps column

/-- A column holds what the member of its name is read as, and nothing if there is none. -/
def Holds {α : Type} (members : List (String × List Char)) (name : String) (reader : Reader α)
    (value? : Option α) : Prop :=
  match members.lookup name with
  | some text => ∃ value rest, reader text = .ok (value, rest) ∧ value? = some value
  | none => value? = none

variable {α : Type} {name : String} {reader : Reader α} {column : σ → Option α}

theorem Filled.of_isSome (shown : Column fields name reader column) {record result : σ}
    {members : List (String × List Char)} (filled : Filled fields record members result)
    (present : (column record).isSome) : column result = column record := by
  -- A further member of this name would find its field set already, which no step of `Filled` allows.
  induction filled with
  | done => rfl
  | known own fresh read later ih =>
    rename_i field _ _ _
    have apart : field.name ≠ name := by
      intro same
      rw [shown.isSet _ own same] at fresh
      exact absurd (fresh.symm.trans present) Bool.noConfusion
    have kept := shown.other _ own apart _ _ _ _ read
    rw [ih (kept ▸ present), kept]
  | unknown none later ih => exact ih present

theorem Filled.holds (shown : Column fields name reader column) {record result : σ}
    {members : List (String × List Char)} (filled : Filled fields record members result)
    (blank : column record = none) : Holds members name reader (column result) := by
  induction filled with
  | done => exact blank
  | known own fresh read later ih =>
    rename_i record next result field value rest members
    by_cases same : field.name = name
    · obtain ⟨taken, reads, held⟩ := shown.own field own same _ _ _ _ read
      rw [Holds, ← same, List.lookup_cons_self]
      exact ⟨taken, rest, reads, (later.of_isSome shown (by rw [held]; rfl)).trans held⟩
    · have kept := shown.other field own same _ _ _ _ read
      rw [Holds, List.lookup_cons, beq_false_of_ne (Ne.symm same)]
      exact ih (kept.trans blank)
  | unknown none later ih =>
    rename_i other value members
    have apart : name ≠ other := by
      rintro rfl
      obtain ⟨field, own, same⟩ := List.mem_map.mp shown.known
      exact none field own same
    rw [Holds, List.lookup_cons, beq_false_of_ne apart]
    exact ih blank

end Record

end LeaseQueue.Json
