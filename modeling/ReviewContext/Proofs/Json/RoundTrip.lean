import Mathlib.Data.List.Basic
import Mathlib.Tactic.SplitIfs
import ReviewContext.Json.Reader

/-! # Written values are read back

The indented text of a value is read as that value. Every piece of the text has a reader of its own, and what
follows the piece cannot extend it: a string ends with its quote, and behind a number stands a comma or a new
line. The fuel of the reader bounds its calls, of which there are at most two a character.
-/

namespace ReviewContext.Json

private theorem skipSpace_solid {c : Option Char} (solid : isSpace c = false) (rest : Symbols) :
    skipSpace (c :: rest) = c :: rest :=
  List.dropWhile_cons_of_neg (by simp [solid])

private theorem skipSpace_newLine (level : Nat) (rest : Symbols) :
    skipSpace ((newLine level).map some ++ rest) = skipSpace rest := by
  apply List.dropWhile_append_of_pos
  intro c member
  obtain ⟨d, inLine, rfl⟩ := List.mem_map.mp member
  rcases List.mem_cons.mp inLine with rfl | blank
  · rfl
  · rw [List.eq_of_mem_replicate blank]
    rfl

/-! ## Strings -/

/-- A character is written by a letter, by its number or as it is. -/
theorem escape_cases (c : Char) :
    (∃ letter, escape c = ['\\', letter] ∧ letter ≠ 'u' ∧ shortEscape? letter = some c) ∨
      (c.toNat < 32 ∧ escape c =
        ['\\', 'u', '0', '0', Text.lowerHexDigit (c.toNat / 16), Text.lowerHexDigit (c.toNat % 16)]) ∨
      (escape c = [c] ∧ c ≠ '"' ∧ c ≠ '\\' ∧ ¬ c.toNat < 32) := by
  unfold escape
  split_ifs with quote backslash newline return_ tab backspace feed control
  · exact .inl ⟨'"', rfl, by decide, by rw [quote]; rfl⟩
  · exact .inl ⟨'\\', rfl, by decide, by rw [backslash]; rfl⟩
  · exact .inl ⟨'n', rfl, by decide, by rw [newline]; rfl⟩
  · exact .inl ⟨'r', rfl, by decide, by rw [return_]; rfl⟩
  · exact .inl ⟨'t', rfl, by decide, by rw [tab]; rfl⟩
  · exact .inl ⟨'b', rfl, by decide, by rw [backspace]; rfl⟩
  · exact .inl ⟨'f', rfl, by decide, by rw [feed]; rfl⟩
  · exact .inr (.inl ⟨control, rfl⟩)
  · exact .inr (.inr ⟨rfl, quote, backslash, control⟩)

private theorem hex4?_control {n : Nat} (low : n < 32) :
    hex4? (some '0') (some '0') (some (Text.lowerHexDigit (n / 16))) (some (Text.lowerHexDigit (n % 16))) =
      some n := by
  have all : ∀ n < 32, Text.hexNumber? ['0', '0', Text.lowerHexDigit (n / 16), Text.lowerHexDigit (n % 16)] =
      some n := by decide
  exact all n low

private theorem ofNumber_control {c : Char} (low : c.toNat < 32) : StringUnit.ofNumber c.toNat = .char c := by
  have whole : ¬ (isHighSurrogate c.toNat || isLowSurrogate c.toNat) := by
    simp only [isHighSurrogate, isLowSurrogate, Bool.or_eq_true, Bool.and_eq_true, decide_eq_true_eq]
    omega
  rw [StringUnit.ofNumber, if_neg whole, Char.ofNat_toNat]

private theorem stringBody?_escape (found : List StringUnit) (c : Char) (rest : Symbols) :
    stringBody? found ((escape c).map some ++ rest) = stringBody? (.char c :: found) rest := by
  rcases escape_cases c with ⟨letter, written, other, read⟩ | ⟨low, written⟩ | ⟨written, quote, backslash, plain⟩
  · rw [written, List.map_cons, List.map_singleton, List.cons_append, List.singleton_append, stringBody?]
    · rw [read]
    · simp [other]
  · rw [written]
    simp only [List.map_cons, List.map_nil, List.cons_append, List.nil_append, stringBody?, hex4?_control low,
      ofNumber_control low]
  · rw [written, List.map_singleton, List.singleton_append, stringBody?]
    · rw [if_neg (by simp [backslash, plain])]
    all_goals simp [quote, backslash]

private theorem stringBody?_escaped (found : List StringUnit) (cs : List Char) (rest : Symbols) :
    stringBody? found ((cs.flatMap escape ++ ['"']).map some ++ rest) =
      some (found.reverse ++ cs.map .char, rest) := by
  induction cs generalizing found with
  | nil => simp [stringBody?]
  | cons c cs ih =>
    rw [List.flatMap_cons, List.append_assoc, List.map_append, List.append_assoc, stringBody?_escape, ih]
    simp

private theorem textOf?_chars (s : String) : textOf? (s.toList.map .char) = some s := by
  have read (cs : List Char) : characters? (cs.map .char) = some cs := by
    induction cs with
    | nil => rfl
    | cons c cs ih => rw [List.map_cons, characters?, ih, Option.map_some]
  rw [textOf?, read, Option.map_some, String.ofList_toList]

/-! ## Counts -/

/-- What may follow a number: nothing that goes on with it. -/
def Stops : Symbols → Prop
  | [] => True
  | c :: _ => isDigit c = false ∧ c ≠ some '.' ∧ isExponentMark c = false

private theorem stops_newLine (level : Nat) (rest : Symbols) : Stops ((newLine level).map some ++ rest) :=
  ⟨rfl, by decide, rfl⟩

private theorem stops_comma (cs : List Char) (rest : Symbols) : Stops ((',' :: cs).map some ++ rest) :=
  ⟨rfl, by decide, rfl⟩

private theorem leaf_ofNat (n : Nat) : (ofNat n).leaf = Nat.toDigits 10 n := by
  rw [ofNat, leaf, Nat.toString_eq_ofList_toDigits, String.toList_ofList]

private theorem exists_digit (n : Nat) : ∃ d more, d.isDigit ∧ Nat.toDigits 10 n = d :: more := by
  cases shape : Nat.toDigits 10 n with
  | nil => exact absurd shape Nat.toDigits_ne_nil
  | cons d more =>
    have member : d ∈ Nat.toDigits 10 n := shape ▸ List.mem_cons_self
    exact ⟨d, more, Nat.isDigit_of_mem_toDigits (by decide) (by decide) member, rfl⟩

private theorem head?_toDigits {n : Nat} (pos : 0 < n) : (Nat.toDigits 10 n).head? ≠ some '0' := by
  induction n using Nat.strongRecOn with
  | ind n ih =>
    by_cases small : n < 10
    · rw [Nat.toDigits_of_lt_base small]
      have digits : ∀ d < 10, 0 < d → [d.digitChar].head? ≠ some '0' := by decide
      exact digits n small pos
    · rw [Nat.toDigits_of_base_le (by decide) (by omega), List.head?_append_of_ne_nil _ Nat.toDigits_ne_nil]
      exact ih (n / 10) (by omega) (by omega)

private theorem digits?_toDigits (n : Nat) {rest : Symbols} (stops : Stops rest) :
    digits? ((Nat.toDigits 10 n).map some ++ rest) = some (Nat.toDigits 10 n, rest) := by
  have digits : ∀ c ∈ (Nat.toDigits 10 n).map some, isDigit c = true := by
    intro c member
    obtain ⟨d, inDigits, rfl⟩ := List.mem_map.mp member
    exact Nat.isDigit_of_mem_toDigits (by decide) (by decide) inDigits
  have run : ((Nat.toDigits 10 n).map some ++ rest).takeWhile isDigit = (Nat.toDigits 10 n).map some := by
    rw [List.takeWhile_append_of_pos digits]
    cases rest with
    | nil => simp
    | cons c rest => rw [List.takeWhile_cons_of_neg (by simp [stops.1]), List.append_nil]
  have left : ((Nat.toDigits 10 n).map some ++ rest).dropWhile isDigit = rest := by
    rw [List.dropWhile_append_of_pos digits]
    cases rest with
    | nil => rfl
    | cons c rest => rw [List.dropWhile_cons_of_neg (by simp [stops.1])]
  unfold digits?
  rw [run, left]
  cases shape : Nat.toDigits 10 n with
  | nil => exact absurd shape Nat.toDigits_ne_nil
  | cons d ds => simp

private theorem unsigned?_toDigits (n : Nat) {rest : Symbols} (stops : Stops rest) :
    unsigned? ((Nat.toDigits 10 n).map some ++ rest) = some (Nat.toDigits 10 n, rest) := by
  have leading : ¬ (1 < (Nat.toDigits 10 n).length && (Nat.toDigits 10 n).head? == some '0') := by
    rcases Nat.eq_zero_or_pos n with rfl | pos
    · decide
    · simp only [Bool.and_eq_true, beq_iff_eq, not_and]
      exact fun _ => head?_toDigits pos
  have whole : fraction? rest = some ([], rest) := by
    cases rest with
    | nil => rfl
    | cons c rest =>
      rw [fraction?]
      rintro rest ⟨⟩
      exact stops.2.1 rfl
  have plain : exponent? rest = some ([], rest) := by
    match rest, stops with
    | [], _ => rfl
    | none :: rest, _ => rfl
    | [some c], stops => simp [exponent?, stops.2.2]
    | some c :: some d :: rest, stops => simp [exponent?, stops.2.2]
    | some c :: none :: rest, stops => simp [exponent?, stops.2.2]
  simp only [unsigned?, digits?_toDigits n stops, bind, Option.bind, if_neg leading, whole, plain]
  simp

private theorem number?_toDigits (n : Nat) {rest : Symbols} (stops : Stops rest) :
    number? ((Nat.toDigits 10 n).map some ++ rest) = some (ofNat n, rest) := by
  obtain ⟨d, more, digit, shape⟩ := exists_digit n
  rw [number?]
  · rw [unsigned?_toDigits n stops, Option.map_some, ofNat, Nat.toString_eq_ofList_toDigits]
  · rw [shape]
    rintro rest ⟨⟩
    exact absurd digit (by decide)

/-! ## Values -/

/-- A value that is nowhere garbled and holds no numbers but counts. -/
inductive Plain : Json → Prop
  | null : Plain null
  | bool (b : Bool) : Plain (bool b)
  | count (n : Nat) : Plain (ofNat n)
  | string (s : String) : Plain (string s)
  | array {items : List Json} (each : ∀ item ∈ items, Plain item) : Plain (array items)
  | object {members : List (String × Json)} (each : ∀ member ∈ members, Plain member.2) :
      Plain (object members)

private theorem not_isSpace_of_isDigit {c : Char} (digit : c.isDigit) : isSpace (some c) = false := by
  rw [Bool.eq_false_iff, ne_eq, isSpace]
  simp only [Bool.or_eq_true, beq_iff_eq, Option.some.injEq]
  rintro (((rfl | rfl) | rfl) | rfl) <;> exact absurd digit (by decide)

/-- A value does not start with a blank, and not as the end of an array either. -/
theorem exists_opening {value : Json} (plain : Plain value) (level : Nat) :
    ∃ c more, indented level value = c :: more ∧ isSpace (some c) = false ∧ c ≠ ']' := by
  cases plain with
  | null => exact ⟨'n', _, rfl, rfl, by decide⟩
  | bool b => cases b <;> exact ⟨_, _, rfl, rfl, by decide⟩
  | count n =>
    obtain ⟨d, more, digit, shape⟩ := exists_digit n
    refine ⟨d, more, (leaf_ofNat n).trans shape, not_isSpace_of_isDigit digit, ?_⟩
    rintro rfl
    exact absurd digit (by decide)
  | string s => exact ⟨'"', _, rfl, rfl, by decide⟩
  | @array items each => cases items <;> exact ⟨'[', _, rfl, rfl, by decide⟩
  | @object members each =>
    cases members with
    | nil => exact ⟨'\x7b', _, rfl, rfl, by decide⟩
    | cons member members => exact ⟨'\x7b', _, rfl, rfl, by decide⟩

private theorem value?_congr {fuel : Nat} {text other : Symbols} (same : skipSpace text = skipSpace other) :
    value? fuel text = value? fuel other := by
  cases fuel with
  | zero => rfl
  | succ fuel => rw [value?, value?, same]

private theorem items?_newLine (fuel level : Nat) (text : Symbols) :
    items? fuel ((newLine level).map some ++ text) = items? fuel text := by
  cases fuel with
  | zero => rfl
  | succ fuel => rw [items?, items?, value?_congr (skipSpace_newLine level text)]

private theorem members?_newLine (fuel level : Nat) (text : Symbols) :
    members? fuel ((newLine level).map some ++ text) = members? fuel text := by
  cases fuel with
  | zero => rfl
  | succ fuel => rw [members?, members?, skipSpace_newLine]

/-- A written value is read back, however deep it stands and whatever follows it. -/
def ReadBack (value : Json) : Prop :=
  ∀ level fuel rest, Stops rest → 2 * (indented level value).length ≤ fuel →
    value? (fuel + 1) ((indented level value).map some ++ rest) = some (value, rest)

/-- The items of an array, each on a line. -/
def itemLines (level : Nat) (items : List Json) : List Char :=
  joinWith (',' :: newLine level) (indentedItems level items)

/-- A member of an object on its line. -/
def memberLine (level : Nat) (member : String × Json) : List Char :=
  quote member.1 ++ ':' :: ' ' :: indented level member.2

def memberLines (level : Nat) (members : List (String × Json)) : List Char :=
  joinWith (',' :: newLine level) (indentedMembers level members)

variable {fuel level outer : Nat} {rest : Symbols}

private theorem joinWith_cons_cons (separator first second : List Char) (texts : List (List Char)) :
    joinWith separator (first :: second :: texts) =
      first ++ (separator ++ joinWith separator (second :: texts)) := by
  simp [joinWith]

private theorem itemLines_cons_cons (item next : Json) (items : List Json) : itemLines level (item :: next :: items) =
    indented level item ++ (',' :: newLine level ++ itemLines level (next :: items)) :=
  joinWith_cons_cons ..

private theorem memberLines_cons_cons (member next : String × Json) (members : List (String × Json)) :
    memberLines level (member :: next :: members) =
      memberLine level member ++ (',' :: newLine level ++ memberLines level (next :: members)) :=
  joinWith_cons_cons ..

private theorem itemLines_opening (level : Nat) {items : List Json} (present : items ≠ [])
    (plain : ∀ item ∈ items, Plain item) :
    ∃ c more, itemLines level items = c :: more ∧ isSpace (some c) = false ∧ c ≠ ']' := by
  cases items with
  | nil => exact absurd rfl present
  | cons item items =>
    obtain ⟨c, more, shape, solid, other⟩ := exists_opening (plain item List.mem_cons_self) level
    cases items with
    | nil => exact ⟨c, more, (List.append_nil _).trans shape, solid, other⟩
    | cons next items => exact ⟨c, _, by rw [itemLines_cons_cons, shape, List.cons_append], solid, other⟩

private theorem memberLines_opening (level : Nat) {members : List (String × Json)} (present : members ≠ []) :
    ∃ more, memberLines level members = '"' :: more := by
  match members with
  | [] => exact absurd rfl present
  | [member] => exact ⟨_, rfl⟩
  | member :: next :: members => exact ⟨_, rfl⟩

/-- What is read of an array whose last item so far is `item`. -/
def itemsBehind (fuel : Nat) (item : Json) (rest : Symbols) : Option (List Json × Symbols) :=
  match skipSpace rest with
  | some ',' :: rest => (items? fuel rest).map fun (items, rest) => (item :: items, rest)
  | some ']' :: rest => some ([item], rest)
  | _ => none

/-- What is read of an object whose last member so far is `member`. -/
def membersBehind (fuel : Nat) (member : Option String × Json) (rest : Symbols) :
    Option (List (Option String × Json) × Symbols) :=
  match skipSpace rest with
  | some ',' :: rest => (members? fuel rest).map fun (members, rest) => (member :: members, rest)
  | some '\x7d' :: rest => some ([member], rest)
  | _ => none

private theorem items?_item {item : Json} (read : ReadBack item) (stops : Stops rest)
    (enough : 2 * (indented level item).length ≤ fuel) :
    items? (fuel + 2) ((indented level item).map some ++ rest) = itemsBehind (fuel + 1) item rest := by
  rw [items?, read level fuel rest stops enough]
  rfl

private theorem members?_memberLine {member : String × Json} (read : ReadBack member.2) (stops : Stops rest)
    (enough : 2 * (memberLine level member).length ≤ fuel) :
    members? (fuel + 2) ((memberLine level member).map some ++ rest) =
      membersBehind (fuel + 1) (some member.1, member.2) rest := by
  have spaced (text : Symbols) : value? (fuel + 1) (some ' ' :: text) = value? (fuel + 1) text :=
    value?_congr rfl
  have within : 2 * (indented level member.2).length ≤ fuel := by
    simp only [memberLine, List.length_append, List.length_cons] at enough
    omega
  have split : (memberLine level member).map some ++ rest =
      some '"' :: ((member.1.toList.flatMap escape ++ ['"']).map some ++
        some ':' :: some ' ' :: ((indented level member.2).map some ++ rest)) := by
    simp [memberLine, quote]
  rw [split, members?, skipSpace_solid rfl]
  simp only [stringBody?_escaped, bind, Option.bind, skipSpace_solid (c := some ':') rfl, spaced,
    read level fuel rest stops within, List.reverse_nil, List.nil_append, textOf?_chars]
  rfl

private theorem items?_itemLines {items : List Json} (present : items ≠ []) (each : ∀ item ∈ items, ReadBack item)
    (enough : 2 * (itemLines level items).length ≤ fuel) :
    items? (fuel + 2) ((itemLines level items).map some ++ ((newLine outer).map some ++ some ']' :: rest)) =
      some (items, rest) := by
  induction items generalizing fuel with
  | nil => exact absurd rfl present
  | cons item items ih =>
    have first := each item List.mem_cons_self
    cases items with
    | nil =>
      have single : itemLines level [item] = indented level item := List.append_nil _
      rw [single] at enough ⊢
      rw [items?_item first (stops_newLine ..) enough, itemsBehind, skipSpace_newLine, skipSpace_solid rfl]
      rfl
    | cons next items =>
      rw [itemLines_cons_cons] at enough ⊢
      simp only [List.length_append, List.length_cons] at enough
      have later := @ih (fuel - 1) (List.cons_ne_nil next items)
        (fun other member => each other (List.mem_cons_of_mem _ member)) (by omega)
      have less : fuel - 1 + 2 = fuel + 1 := by omega
      rw [less] at later
      rw [List.map_append, List.append_assoc, List.map_append, List.append_assoc,
        items?_item first (stops_comma ..) (by omega), itemsBehind, List.map_cons, List.cons_append,
        skipSpace_solid rfl]
      simp only [items?_newLine, later, Option.map_some]

private theorem members?_memberLines {members : List (String × Json)} (present : members ≠ [])
    (each : ∀ member ∈ members, ReadBack member.2) (enough : 2 * (memberLines level members).length ≤ fuel) :
    members? (fuel + 2)
        ((memberLines level members).map some ++ ((newLine outer).map some ++ some '\x7d' :: rest)) =
      some (members.map fun member => (some member.1, member.2), rest) := by
  induction members generalizing fuel with
  | nil => exact absurd rfl present
  | cons member members ih =>
    have first := each member List.mem_cons_self
    cases members with
    | nil =>
      have single : memberLines level [member] = memberLine level member := List.append_nil _
      rw [single] at enough ⊢
      rw [members?_memberLine first (stops_newLine ..) enough, membersBehind, skipSpace_newLine,
        skipSpace_solid rfl]
      rfl
    | cons next members =>
      rw [memberLines_cons_cons] at enough ⊢
      simp only [List.length_append, List.length_cons] at enough
      have later := @ih (fuel - 1) (List.cons_ne_nil next members)
        (fun other member => each other (List.mem_cons_of_mem _ member)) (by omega)
      have less : fuel - 1 + 2 = fuel + 1 := by omega
      rw [less] at later
      rw [List.map_append, List.append_assoc, List.map_append, List.append_assoc,
        members?_memberLine first (stops_comma ..) (by omega), membersBehind, List.map_cons, List.cons_append,
        skipSpace_solid rfl]
      simp only [members?_newLine, later, Option.map_some, List.map_cons]

private theorem objectOf_named (members : List (String × Json)) :
    objectOf (members.map fun member => (some member.1, member.2)) = object members := by
  have named : (members.map fun member => (some member.1, member.2)).mapM
      (fun member : Option String × Json => member.1.map (·, member.2)) = some members := by
    induction members with
    | nil => rfl
    | cons member members ih => simp [List.mapM_cons, ih]
  rw [objectOf, named]

private theorem indented_array {items : List Json} (present : items ≠ []) : indented level (array items) =
    '[' :: (newLine (level + 1) ++ (itemLines (level + 1) items ++ (newLine level ++ [']']))) := by
  cases items with
  | nil => exact absurd rfl present
  | cons item items => simp [indented, indentedItems, block, itemLines]

private theorem indented_object {members : List (String × Json)} (present : members ≠ []) :
    indented level (object members) =
      '\x7b' :: (newLine (level + 1) ++ (memberLines (level + 1) members ++ (newLine level ++ ['\x7d']))) := by
  cases members with
  | nil => exact absurd rfl present
  | cons member members => simp [indented, indentedMembers, block, memberLines]

private theorem ReadBack.array {items : List Json} (plain : ∀ item ∈ items, Plain item)
    (each : ∀ item ∈ items, ReadBack item) : ReadBack (array items) := by
  intro level fuel rest _ enough
  by_cases present : items = []
  · subst present
    rfl
  obtain ⟨c, more, shape, solid, other⟩ := itemLines_opening (level + 1) present plain
  rw [indented_array present] at enough ⊢
  simp only [List.length_append, List.length_cons] at enough
  obtain ⟨less, rfl⟩ : ∃ less, fuel = less + 2 := ⟨fuel - 2, by omega⟩
  have read : items? (less + 2) ((itemLines (level + 1) items).map some ++
      ((newLine level).map some ++ some ']' :: rest)) = some (items, rest) :=
    items?_itemLines present each (by omega)
  simp only [List.map_cons, List.map_append, List.map_nil, List.cons_append, List.append_assoc, List.nil_append,
    shape] at read ⊢
  rw [value?, skipSpace_solid rfl]
  simp only [skipSpace_newLine, skipSpace_solid solid]
  split
  · next closed => simp [other] at closed
  · simp only [read, Option.map_some]

private theorem ReadBack.object {members : List (String × Json)} (each : ∀ member ∈ members, ReadBack member.2) :
    ReadBack (object members) := by
  intro level fuel rest _ enough
  by_cases present : members = []
  · subst present
    rfl
  obtain ⟨more, shape⟩ := memberLines_opening (level + 1) present
  rw [indented_object present] at enough ⊢
  simp only [List.length_append, List.length_cons] at enough
  obtain ⟨less, rfl⟩ : ∃ less, fuel = less + 2 := ⟨fuel - 2, by omega⟩
  have read : members? (less + 2) ((memberLines (level + 1) members).map some ++
      ((newLine level).map some ++ some '\x7d' :: rest)) =
        some (members.map fun member => (some member.1, member.2), rest) :=
    members?_memberLines present each (by omega)
  simp only [List.map_cons, List.map_append, List.map_nil, List.cons_append, List.append_assoc, List.nil_append,
    shape] at read ⊢
  rw [value?, skipSpace_solid rfl]
  simp only [skipSpace_newLine, skipSpace_solid (c := some '"') rfl]
  split
  · next closed => cases closed
  · simp only [read, Option.map_some, objectOf_named]

private theorem value?_digit {d : Char} (digit : d.isDigit) (more : Symbols) :
    value? (fuel + 1) (some d :: more) = number? (some d :: more) := by
  rw [value?, skipSpace_solid (not_isSpace_of_isDigit digit)]
  split
  case h_7 => rfl
  all_goals
    next same =>
    cases same
    exact absurd digit (by decide)

private theorem ReadBack.count (n : Nat) : ReadBack (ofNat n) := by
  intro level fuel rest stops _
  have written : indented level (ofNat n) = Nat.toDigits 10 n := leaf_ofNat n
  have read := number?_toDigits n stops
  obtain ⟨d, more, digit, shape⟩ := exists_digit n
  rw [shape, List.map_cons, List.cons_append] at read
  rw [written, shape, List.map_cons, List.cons_append, value?_digit digit, read]

private theorem ReadBack.string (s : String) : ReadBack (string s) := by
  intro level fuel rest _ _
  have split : (indented level (Json.string s)).map some ++ rest =
      some '"' :: ((s.toList.flatMap escape ++ ['"']).map some ++ rest) := rfl
  rw [split, value?, skipSpace_solid rfl]
  simp only [stringBody?_escaped, List.reverse_nil, List.nil_append, textOf?_chars, Option.map_some,
    Option.getD_some]

private theorem Plain.readBack {value : Json} (plain : Plain value) : ReadBack value := by
  induction plain with
  | null => exact fun _ _ _ _ _ => rfl
  | bool b => cases b <;> exact fun _ _ _ _ _ => rfl
  | count n => exact .count n
  | string s => exact .string s
  | array plain each => exact .array plain each
  | object plain each => exact .object each

/-- A plain value is what its text says. -/
theorem parse?_pretty {value : Json} (plain : Plain value) : parse? (pretty value) = some value := by
  have read := plain.readBack 0 (2 * (indented 0 value).length + 1) [] trivial (by omega)
  rw [List.append_nil] at read
  rw [parse?, pretty, String.toList_ofList, ofSymbols?, List.length_map, read]
  rfl

end ReviewContext.Json
