import Mathlib.Data.List.DropRight
import Mathlib.Data.List.Flatten
import ReviewContext.Proofs.Web.Percent

/-! # Paths that are read as they stand

Reading a URL cuts its path at the first mark of another part, drops what does not count, resolves dots and leaves
escapes to the server. None of this adds a byte to what the server reads, and only a path without any of it keeps
them all. So a path names the resource of its own name exactly if nothing in it has a meaning.
-/

namespace ReviewContext.Web.Url

/-- Nothing in the path has a meaning in a URL, slashes apart. -/
structure Verbatim (path : List Char) : Prop where
  unmarked : ∀ c ∈ path, endsPath c = false ∧ isLineBreakOrTab c = false ∧ c ≠ '\\'
  ended : path.getLast?.all (!isEdge ·)
  unescaped : holdsEscape path = false
  undotted : ∀ segment ∈ Text.splitOn '/' path, segment ≠ ['.'] ∧ segment ≠ ['.', '.']

instance (path : List Char) : Decidable (Verbatim path) :=
  have : Decidable (∀ c ∈ path, endsPath c = false ∧ isLineBreakOrTab c = false ∧ c ≠ '\\') :=
    List.decidableBAll _ path
  decidable_of_iff (_ ∧ _ ∧ _ ∧ _)
    ⟨fun ⟨unmarked, ended, unescaped, undotted⟩ => ⟨unmarked, ended, unescaped, undotted⟩,
      fun ⟨unmarked, ended, unescaped, undotted⟩ => ⟨unmarked, ended, unescaped, undotted⟩⟩

/-- Scheme and host, as they stand in front of a path. -/
def IsOrigin (origin : List Char) : Prop :=
  ∃ scheme ∈ ["http://", "https://"], ∃ host, host ≠ [] ∧
    host.all (fun c => !endsHost c && !isLineBreakOrTab c) ∧ origin = scheme.toList ++ host

/-- One dot or two, which stand for a place and not for a name. -/
def IsDots (segment : List Char) : Prop :=
  dots segment = ['.'] ∨ dots segment = ['.', '.']

/-- Segments, each behind a slash. -/
def joined (segments : List (List Char)) : List Char :=
  segments.flatMap ('/' :: ·)

/-- How many bytes segments take. -/
def weight (segments : List (List Char)) : Nat :=
  (Utf8.encode (joined segments)).length

variable {origin path segment : List Char} {segments : List (List Char)}

/-! ## Segments -/

private theorem weight_cons (segment : List Char) (segments : List (List Char)) :
    weight (segment :: segments) = (Utf8.encode segment).length + weight segments + 1 := by
  have slash : '/'.utf8Size = 1 := rfl
  rw [weight, joined, List.flatMap_cons, List.cons_append, Utf8.length_encode_cons, slash, Utf8.encode,
    List.flatMap_append, List.length_append, ← joined, ← Utf8.encode, ← Utf8.encode, ← weight, Nat.add_comm]

private theorem weight_append (segments more : List (List Char)) :
    weight (segments ++ more) = weight segments + weight more := by
  rw [weight, joined, List.flatMap_append, Utf8.encode, List.flatMap_append, List.length_append]
  rfl

private theorem weight_reverse (segments : List (List Char)) : weight segments.reverse = weight segments := by
  induction segments with
  | nil => rfl
  | cons segment segments ih =>
    rw [List.reverse_cons, weight_append, ih, Nat.add_comm, ← weight_append, List.singleton_append]

private theorem addSegment_of_plain (plain : ¬ IsDots segment) (resolved : List (List Char)) (isLast : Bool) :
    addSegment resolved isLast segment = segment :: resolved := by
  obtain ⟨notOne, notTwo⟩ := not_or.mp plain
  rw [addSegment, if_neg notTwo, if_neg notOne]

private theorem weight_addSegment_lt (dotted : IsDots segment) (resolved : List (List Char)) (isLast : Bool) :
    weight (addSegment resolved isLast segment) < weight (segment :: resolved) := by
  have some : 0 < (Utf8.encode segment).length := by
    cases segment with
    | nil => rcases dotted with one | two <;> contradiction
    | cons c cs =>
      rw [Utf8.length_encode_cons]
      exact Nat.add_pos_left c.utf8Size_pos _
  have stay : weight (if isLast then [[]] else []) ≤ 1 := by
    cases isLast
    · exact Nat.zero_le 1
    · exact Nat.le_refl 1
  have shorter : weight resolved.tail ≤ weight resolved := by
    cases resolved with
    | nil => exact Nat.le_refl _
    | cons last resolved =>
      rw [List.tail_cons, weight_cons]
      omega
  rw [addSegment, weight_cons]
  split
  · rw [weight_append]
    omega
  split
  · rw [weight_append]
    omega
  · next notTwo notOne => exact absurd dotted (not_or.mpr ⟨notOne, notTwo⟩)

private theorem weight_addSegment_le (resolved : List (List Char)) (isLast : Bool) (segment : List Char) :
    weight (addSegment resolved isLast segment) ≤ weight (segment :: resolved) := by
  by_cases dotted : IsDots segment
  · exact Nat.le_of_lt (weight_addSegment_lt dotted resolved isLast)
  · rw [addSegment_of_plain dotted]

private theorem resolve_cons (resolved : List (List Char)) (segment : List Char) (segments : List (List Char)) :
    resolve resolved (segment :: segments) = resolve (addSegment resolved segments.isEmpty segment) segments := by
  cases segments <;> rfl

private theorem resolve_of_plain (plain : ∀ segment ∈ segments, ¬ IsDots segment) (resolved : List (List Char)) :
    resolve resolved segments = resolved.reverse ++ segments := by
  induction segments generalizing resolved with
  | nil => rw [resolve, List.append_nil]
  | cons segment segments ih =>
    obtain ⟨first, later⟩ := List.forall_mem_cons.mp plain
    rw [resolve_cons, addSegment_of_plain first, ih later]
    simp

private theorem weight_resolve_le (resolved segments : List (List Char)) :
    weight (resolve resolved segments) ≤ weight resolved + weight segments := by
  induction segments generalizing resolved with
  | nil =>
    rw [resolve, weight_reverse]
    exact Nat.le_add_right _ _
  | cons segment segments ih =>
    have added := weight_addSegment_le resolved segments.isEmpty segment
    have later := ih (addSegment resolved segments.isEmpty segment)
    rw [resolve_cons]
    rw [weight_cons] at added ⊢
    omega

/-- Dots leave less than they take. -/
theorem weight_resolve_lt (dotted : ∃ segment ∈ segments, IsDots segment) (resolved : List (List Char)) :
    weight (resolve resolved segments) < weight resolved + weight segments := by
  induction segments generalizing resolved with
  | nil => simp at dotted
  | cons segment segments ih =>
    rw [resolve_cons, weight_cons]
    obtain ⟨found, inside, dots⟩ := dotted
    rcases List.mem_cons.mp inside with rfl | inside
    · have added := weight_addSegment_lt dots resolved segments.isEmpty
      have later := weight_resolve_le (addSegment resolved segments.isEmpty found) segments
      rw [weight_cons] at added
      omega
    · have added := weight_addSegment_le resolved segments.isEmpty segment
      have later := ih ⟨found, inside, dots⟩ (addSegment resolved segments.isEmpty segment)
      rw [weight_cons] at added
      omega

/-! ## Paths -/

/-- Both slashes are the same. -/
def forward (c : Char) : Char :=
  if isSlash c then '/' else c

private theorem isSlash_iff {c : Char} : isSlash c = true ↔ c = '/' ∨ c = '\\' := by
  simp [isSlash]

private theorem forward_eq_iff {c : Char} : forward c = c ↔ c ≠ '\\' := by
  by_cases slash : isSlash c
  · rcases isSlash_iff.mp slash with rfl | rfl <;> decide
  · have other : c ≠ '\\' := fun same => slash (isSlash_iff.mpr (.inr same))
    rw [forward, if_neg slash]
    exact iff_of_true rfl other

private theorem map_forward_iff : path.map forward = path ↔ '\\' ∉ path := by
  induction path with
  | nil => simp
  | cons c path ih => rw [List.map_cons, List.cons.injEq, forward_eq_iff, ih, List.mem_cons, not_or, ne_comm]

private theorem joined_splitBy (cs : List Char) : joined (Text.splitBy isSlash cs) = '/' :: cs.map forward := by
  induction cs with
  | nil => rfl
  | cons c cs ih =>
    rw [Text.splitBy, List.foldr_cons, ← Text.splitBy, List.map_cons, forward]
    split
    · rw [← ih]
      rfl
    · cases split : Text.splitBy isSlash cs with
      | nil => simp [split, joined] at ih
      | cons piece pieces =>
        rw [split] at ih
        exact congrArg (fun rest => '/' :: c :: rest) (List.cons.inj ih).2

private theorem length_encode_forward (cs : List Char) :
    (Utf8.encode (cs.map forward)).length = (Utf8.encode cs).length := by
  induction cs with
  | nil => rfl
  | cons c cs ih =>
    have same : (forward c).utf8Size = c.utf8Size := by
      unfold forward
      split
      · next slash => rcases isSlash_iff.mp slash with rfl | rfl <;> rfl
      · rfl
    rw [List.map_cons, Utf8.length_encode_cons, Utf8.length_encode_cons, ih, same]

private theorem weight_splitBy (cs : List Char) :
    weight (Text.splitBy isSlash cs) = (Utf8.encode ('/' :: cs)).length := by
  rw [weight, joined_splitBy, Utf8.length_encode_cons, length_encode_forward, ← Utf8.length_encode_cons]

private theorem percentDecode_pathOf (cs : List Char) :
    percentDecode (pathOf ('/' :: cs)) = percentDecode (joined (resolve [] (Text.splitBy isSlash cs))) := by
  have each (segments : List (List Char)) :
      (segments.flatMap fun segment => '/' :: percentEncode inPathSet segment) =
        percentEncode inPathSet (joined segments) := by
    rw [joined, percentEncode, List.flatMap_assoc]
    rfl
  rw [pathOf, each, percentDecode_percentEncode]
  rfl

/-- A server reads no more bytes than the path has. -/
theorem length_pathOf_le (cs : List Char) :
    (percentDecode (pathOf ('/' :: cs))).length ≤ (Utf8.encode ('/' :: cs)).length := by
  rw [percentDecode_pathOf, ← weight_splitBy]
  have read := length_percentDecode_le (joined (resolve [] (Text.splitBy isSlash cs)))
  have resolved := weight_resolve_le [] (Text.splitBy isSlash cs)
  have none : weight [] = 0 := rfl
  unfold weight at *
  omega

/-- A path that keeps its bytes holds no dots, no escape and no slash of the other kind. -/
theorem plain_of_pathOf (same : percentDecode (pathOf ('/' :: path)) = Utf8.encode ('/' :: path)) :
    (∀ segment ∈ Text.splitBy isSlash path, ¬ IsDots segment) ∧ holdsEscape path = false ∧
      path.map forward = path := by
  have length := congrArg List.length same
  rw [percentDecode_pathOf, ← weight_splitBy] at length
  have read := length_percentDecode_le (joined (resolve [] (Text.splitBy isSlash path)))
  rw [← weight, length] at read
  have plain : ∀ segment ∈ Text.splitBy isSlash path, ¬ IsDots segment := by
    intro segment inside dotted
    have resolved := weight_resolve_lt ⟨segment, inside, dotted⟩ []
    rw [show weight [] = 0 from rfl] at resolved
    omega
  have resolved : resolve [] (Text.splitBy isSlash path) = Text.splitBy isSlash path := resolve_of_plain plain []
  rw [percentDecode_pathOf, resolved, joined_splitBy] at same
  have unescaped : holdsEscape ('/' :: path.map forward) = false := by
    by_contra escaped
    have fewer := length_percentDecode_lt (Bool.not_eq_false _ ▸ escaped)
    rw [same, ← joined_splitBy, ← weight, weight_splitBy] at fewer
    exact Nat.lt_irrefl _ fewer
  rw [percentDecode_of_unescaped unescaped] at same
  have kept := (List.cons.inj (Utf8.encode_injective same)).2
  rw [kept] at unescaped
  exact ⟨plain, (Bool.or_eq_false_iff.mp unescaped).2, kept⟩

private theorem pathOf_of_plain (plain : ∀ segment ∈ Text.splitBy isSlash path, ¬ IsDots segment)
    (unescaped : holdsEscape path = false) (kept : path.map forward = path) :
    percentDecode (pathOf ('/' :: path)) = Utf8.encode ('/' :: path) := by
  rw [percentDecode_pathOf, resolve_of_plain plain, List.reverse_nil, List.nil_append, joined_splitBy, kept]
  apply percentDecode_of_unescaped
  exact (holdsEscape_append_slash [] path).trans unescaped

private theorem dots_of_unescaped (plain : holdsEscape segment = false) : dots segment = segment := by
  induction segment using dots.induct with
  | case1 rest ih => simp [holdsEscape, escape?, Text.hexValue?] at plain
  | case2 rest ih => simp [holdsEscape, escape?, Text.hexValue?] at plain
  | case3 c rest notLower notUpper ih =>
    rw [dots, ih (Bool.or_eq_false_iff.mp plain).2]
    · exact notLower
    · exact notUpper
  | case4 => rfl

private theorem holdsEscape_append_joined (segment : List Char) (segments : List (List Char)) :
    holdsEscape (segment ++ joined segments) = (holdsEscape segment || segments.any holdsEscape) := by
  induction segments generalizing segment with
  | nil => simp [joined]
  | cons next segments ih =>
    have whole : joined (next :: segments) = '/' :: (next ++ joined segments) := rfl
    rw [whole, holdsEscape_append_slash, ih, List.any_cons]

private theorem unescaped_of_mem (whole : joined segments = '/' :: path) (unescaped : holdsEscape path = false)
    (inside : segment ∈ segments) : holdsEscape segment = false := by
  have all := holdsEscape_append_joined [] segments
  rw [List.nil_append, whole, ← List.nil_append ('/' :: path), holdsEscape_append_slash, unescaped] at all
  simpa using List.any_eq_false.mp all.symm segment inside

private theorem splitBy_isSlash (noOther : '\\' ∉ path) : Text.splitBy isSlash path = Text.splitOn '/' path := by
  induction path with
  | nil => rfl
  | cons c path ih =>
    have same : isSlash c = (c == '/') := by
      have other : c ≠ '\\' := fun same => noOther (same ▸ List.mem_cons_self)
      rw [isSlash, decide_eq_false other, Bool.or_false]
      rfl
    have rest := ih fun inside => noOther (List.mem_cons_of_mem c inside)
    unfold Text.splitOn Text.splitBy at rest ⊢
    rw [List.foldr_cons, List.foldr_cons, rest, same]

/-- Without dots, escapes and slashes of the other kind, a server reads the path that it was asked for. -/
theorem percentDecode_pathOf_iff (path : List Char) :
    percentDecode (pathOf ('/' :: path)) = Utf8.encode ('/' :: path) ↔
      '\\' ∉ path ∧ holdsEscape path = false ∧
        ∀ segment ∈ Text.splitOn '/' path, segment ≠ ['.'] ∧ segment ≠ ['.', '.'] := by
  constructor
  · intro same
    obtain ⟨plain, unescaped, kept⟩ := plain_of_pathOf same
    have noOther := map_forward_iff.mp kept
    rw [splitBy_isSlash noOther] at plain
    refine ⟨noOther, unescaped, fun segment inside => ⟨?_, ?_⟩⟩
    · rintro rfl
      exact plain _ inside (.inl rfl)
    · rintro rfl
      exact plain _ inside (.inr rfl)
  · rintro ⟨noOther, unescaped, undotted⟩
    have kept := map_forward_iff.mpr noOther
    have whole : joined (Text.splitOn '/' path) = '/' :: path := by
      rw [← splitBy_isSlash noOther, joined_splitBy, kept]
    apply pathOf_of_plain _ unescaped kept
    rw [splitBy_isSlash noOther]
    intro segment inside
    rw [IsDots, dots_of_unescaped (unescaped_of_mem whole unescaped inside)]
    exact not_or.mpr (undotted segment inside)

/-! ## What counts -/

/-- What counts of a text behind its start. -/
def counted (text : List Char) : List Char :=
  (text.rdropWhile isEdge).filter (!isLineBreakOrTab ·)

/-- What is left of a path in front of the other parts. -/
def pathText (text : List Char) : List Char :=
  (counted text).takeWhile (!endsPath ·)

private theorem counted_append_slash (front rest : List Char) :
    counted (front ++ '/' :: rest) = front.filter (!isLineBreakOrTab ·) ++ '/' :: counted rest := by
  have behind (cs ds : List Char) : (cs ++ '/' :: ds).dropWhile isEdge = cs.dropWhile isEdge ++ '/' :: ds := by
    rw [List.dropWhile_append]
    split
    · next all =>
      rw [List.isEmpty_iff.mp all]
      rfl
    · rfl
  have reversed : (front ++ '/' :: rest).reverse = rest.reverse ++ '/' :: front.reverse := by simp
  rw [counted, List.rdropWhile, reversed, behind]
  simp only [List.reverse_append, List.reverse_cons, List.reverse_reverse, List.filter_append, List.append_assoc]
  rfl

private theorem counted_slash (rest : List Char) : counted ('/' :: rest) = '/' :: counted rest :=
  counted_append_slash [] rest

private theorem pathText_slash (rest : List Char) : pathText ('/' :: rest) = '/' :: pathText rest := by
  rw [pathText, counted_slash, List.takeWhile_cons_of_pos rfl, pathText]

private theorem counted_sublist (text : List Char) : (counted text).Sublist text :=
  List.filter_sublist.trans (List.rdropWhile_prefix isEdge text).sublist

private theorem pathText_sublist (text : List Char) : (pathText text).Sublist text :=
  (List.takeWhile_sublist _).trans (counted_sublist text)

private theorem rdropWhile_eq_iff (text : List Char) :
    text.rdropWhile isEdge = text ↔ text.getLast?.all (!isEdge ·) := by
  rw [List.rdropWhile_eq_self_iff]
  rcases List.eq_nil_or_concat text with rfl | ⟨front, last, rfl⟩ <;> simp

/-- A path loses nothing if no mark and no break is in it, and no edge behind it. -/
theorem pathText_eq_iff (text : List Char) :
    pathText text = text ↔ (∀ c ∈ text, endsPath c = false ∧ isLineBreakOrTab c = false) ∧
      text.getLast?.all (!isEdge ·) := by
  constructor
  · intro same
    have counts : counted text = text := by
      have more : (pathText text).Sublist (counted text) := List.takeWhile_sublist _
      rw [same] at more
      exact (counted_sublist text).antisymm more
    have trims : text.rdropWhile isEdge = text := by
      have more : (counted text).Sublist (text.rdropWhile isEdge) := List.filter_sublist
      rw [counts] at more
      exact (List.rdropWhile_prefix isEdge text).sublist.antisymm more
    rw [pathText, counts] at same
    rw [counted, trims] at counts
    refine ⟨fun c inside => ⟨?_, ?_⟩, (rdropWhile_eq_iff text).mp trims⟩
    · simpa using List.takeWhile_eq_self_iff.mp same c inside
    · simpa using List.filter_eq_self.mp counts c inside
  · rintro ⟨plain, ended⟩
    have counts : counted text = text := by
      rw [counted, (rdropWhile_eq_iff text).mpr ended]
      exact List.filter_eq_self.mpr fun c inside => by simp [plain c inside]
    rw [pathText, counts]
    exact List.takeWhile_eq_self_iff.mpr fun c inside => by simp [plain c inside]

/-! ## Reading a path -/

private theorem verbatim_iff (path : List Char) :
    Verbatim path ↔ pathText path = path ∧ '\\' ∉ path ∧ holdsEscape path = false ∧
      ∀ segment ∈ Text.splitOn '/' path, segment ≠ ['.'] ∧ segment ≠ ['.', '.'] := by
  rw [pathText_eq_iff]
  constructor
  · rintro ⟨unmarked, ended, unescaped, undotted⟩
    refine ⟨⟨fun c inside => ⟨(unmarked c inside).1, (unmarked c inside).2.1⟩, ended⟩, ?_, unescaped, undotted⟩
    intro inside
    exact (unmarked _ inside).2.2 rfl
  · rintro ⟨⟨unmarked, ended⟩, noOther, unescaped, undotted⟩
    refine ⟨fun c inside => ⟨(unmarked c inside).1, (unmarked c inside).2, ?_⟩, ended, unescaped, undotted⟩
    rintro rfl
    exact noOther inside

/-- A path behind another one stands for itself if both do. -/
theorem verbatim_append_slash {front : List Char} (verbatim : Verbatim front) (path : List Char) :
    Verbatim (front ++ '/' :: path) ↔ Verbatim path := by
  have last : ((front ++ '/' :: path).getLast?.all (!isEdge ·)) = path.getLast?.all (!isEdge ·) := by
    rcases List.eq_nil_or_concat path with rfl | ⟨path, c, rfl⟩
    · rw [List.getLast?_concat]
      rfl
    · have moved : front ++ '/' :: (path ++ [c]) = (front ++ '/' :: path) ++ [c] := by simp
      rw [List.concat_eq_append, moved, List.getLast?_concat, List.getLast?_concat]
  constructor
  · rintro ⟨unmarked, ended, unescaped, undotted⟩
    rw [last] at ended
    rw [holdsEscape_append_slash, Bool.or_eq_false_iff] at unescaped
    rw [Text.splitOn_append_separator, List.forall_mem_append] at undotted
    exact ⟨fun c inside => unmarked c (by simp [inside]), ended, unescaped.2, undotted.2⟩
  · rintro ⟨unmarked, ended, unescaped, undotted⟩
    refine ⟨?_, last.trans ended, ?_, ?_⟩
    · rw [List.forall_mem_append, List.forall_mem_cons]
      exact ⟨verbatim.unmarked, by decide, unmarked⟩
    · rw [holdsEscape_append_slash, verbatim.unescaped, unescaped]
      rfl
    · rw [Text.splitOn_append_separator, List.forall_mem_append]
      exact ⟨verbatim.undotted, undotted⟩

private theorem encode_pathText_sublist (path : List Char) :
    (Utf8.encode ('/' :: pathText path)).Sublist (Utf8.encode ('/' :: path)) :=
  ((pathText_sublist path).cons_cons '/').flatMap String.utf8EncodeChar

/-- A server gets no more bytes of a path than the path has. -/
theorem length_read_le (path : List Char) :
    (percentDecode (pathOf (pathText ('/' :: path)))).length ≤ (Utf8.encode ('/' :: path)).length := by
  rw [pathText_slash]
  exact (length_pathOf_le (pathText path)).trans (encode_pathText_sublist path).length_le

/-- A server reads the path that stands in a URL exactly if nothing in it has a meaning. -/
theorem read_iff (path : List Char) :
    percentDecode (pathOf (pathText ('/' :: path))) = Utf8.encode ('/' :: path) ↔ Verbatim path := by
  rw [verbatim_iff, ← percentDecode_pathOf_iff, pathText_slash]
  constructor
  · intro same
    have kept : pathText path = path := by
      have most := length_pathOf_le (pathText path)
      rw [same] at most
      exact (List.cons.inj (Utf8.encode_injective ((encode_pathText_sublist path).eq_of_length_le most))).2
    rw [kept] at same
    exact ⟨kept, same⟩
  · rintro ⟨kept, same⟩
    rw [kept, same]

/-! ## URLs -/

private theorem find?_scheme {scheme : String} (known : scheme ∈ ["http://", "https://"]) (text : List Char) :
    (["http://", "https://"].find? fun other => other.toList.isPrefixOf (scheme.toList ++ text)) = some scheme := by
  simp only [List.mem_cons, List.not_mem_nil, or_false] at known
  rcases known with rfl | rfl <;> rfl

/-- Nothing of an origin is lost. -/
theorem clean_of_origin (known : IsOrigin origin) (path : List Char) :
    clean (origin ++ '/' :: path) = origin ++ '/' :: counted path := by
  obtain ⟨scheme, isScheme, host, -, inHost, rfl⟩ := known
  simp only [List.mem_cons, List.not_mem_nil, or_false] at isScheme
  have solid : scheme.toList.all (!isLineBreakOrTab ·) = true := by
    rcases isScheme with rfl | rfl <;> rfl
  have started : (scheme.toList ++ host ++ '/' :: path).dropWhile isEdge = scheme.toList ++ host ++ '/' :: path := by
    rcases isScheme with rfl | rfl <;> rfl
  have kept : (scheme.toList ++ host).filter (!isLineBreakOrTab ·) = scheme.toList ++ host := by
    rw [List.filter_eq_self, List.forall_mem_append]
    exact ⟨List.all_eq_true.mp solid, fun c inside => (Bool.and_eq_true_iff.mp (List.all_eq_true.mp inHost c inside)).2⟩
  have counts := counted_append_slash (scheme.toList ++ host) path
  rw [kept, counted, List.rdropWhile] at counts
  rw [clean, started, counts]

/-- Behind an origin, a URL is read as its path. -/
theorem parse?_of_origin (known : IsOrigin origin) (path : List Char) :
    ∃ url, parse? (origin ++ '/' :: path) = some url ∧ url.origin = origin ∧
      url.path = pathOf (pathText ('/' :: path)) ∧ (Verbatim path → url.query? = none) := by
  have cleaned := clean_of_origin known path
  obtain ⟨scheme, isScheme, host, some, inHost, rfl⟩ := known
  have outside : ∀ c ∈ host, (!endsHost c) = true := fun c inside =>
    (Bool.and_eq_true_iff.mp (List.all_eq_true.mp inHost c inside)).1
  have named : host.isEmpty = false := by simpa using some
  have front : (host ++ '/' :: counted path).takeWhile (!endsHost ·) = host := by
    rw [List.takeWhile_append_of_pos outside, List.takeWhile_cons_of_neg (by decide), List.append_nil]
  have behind : (host ++ '/' :: counted path).dropWhile (!endsHost ·) = '/' :: counted path := by
    rw [List.dropWhile_append_of_pos outside, List.dropWhile_cons_of_neg (by decide)]
  rw [List.append_assoc scheme.toList host ('/' :: counted path)] at cleaned
  rw [parse?, cleaned, find?_scheme isScheme]
  simp only [Option.bind_eq_bind, Option.bind_some, ← String.length_toList, List.drop_left, front, behind, named]
  refine ⟨_, rfl, rfl, ?_, fun verbatim => ?_⟩
  · rw [pathText, counted_slash]
  · have unmarked : ∀ c ∈ '/' :: counted path, (!endsPath c) = true := by
      rw [List.forall_mem_cons]
      exact ⟨rfl, fun c inside => by simp [verbatim.unmarked c ((counted_sublist path).subset inside)]⟩
    rw [List.dropWhile_eq_nil_iff.mpr unmarked]
    rfl

/-- A field that is added to a bare address is read with its name and its value. -/
theorem formFields_withFields {url : Url} (bare : url.query? = none) (name value : String) :
    formFields ((url.withFields [(name, value)]).query?.getD []) =
      [(Utf8.encode name.toList, Utf8.encode value.toList)] := by
  have query : (url.withFields [(name, value)]).query? = some (field (name, value)) := by
    simp [withFields, bare, field]
  rw [query, Option.getD_some, formFields_field]

end ReviewContext.Web.Url
