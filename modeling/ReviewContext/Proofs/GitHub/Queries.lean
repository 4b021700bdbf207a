import ReviewContext.GitHub.Query

/-! # What a search reads from a query

GitHub cuts a query at the blanks that stand outside quotes and drops the quotes. A term with blanks is written
between quotes and without its own, and comes back whole. Nothing is done about the quotes of other terms, nor about
blanks or quotes in the name of a file, so an unpaired quote takes what follows into its token, and with it the
repository that the search is meant for.
-/

namespace ReviewContext.GitHub

open Text (isBlank)

/-- Puts a text in front of the first piece. -/
def joined (front : List Char) : List (List Char) → List (List Char)
  | [] => [front]
  | piece :: more => (front ++ piece) :: more

/-- The pieces between the blanks outside quotes; `quoted` tells whether a quote is open. -/
def piecesFrom (quoted : Bool) : List Char → List (List Char)
  | [] => [[]]
  | c :: rest =>
    if isBlank c && !quoted then [] :: piecesFrom quoted rest
    else joined [c] (piecesFrom (if c = '"' then !quoted else quoted) rest)

/-- A piece without its quotes. -/
def bare (text : List Char) : List Char :=
  text.filter (· != '"')

/-- What a search is asked for. -/
def tokens (query : List Char) : List (List Char) :=
  ((piecesFrom false query).filter (!·.isEmpty)).map bare

/-- Whether a quote is open behind a text. -/
def leavesQuoted (quoted : Bool) : List Char → Bool
  | [] => quoted
  | c :: rest => leavesQuoted (if c = '"' then !quoted else quoted) rest

/-- Neither a blank nor a quote: all that the name of an owner or a repository is made of. -/
def Unbroken (text : List Char) : Prop :=
  ∀ c ∈ text, isBlank c = false ∧ c ≠ '"'

instance (text : List Char) : Decidable (Unbroken text) :=
  List.decidableBAll _ text

/-- A term that is put between quotes, or whose quotes are paired. -/
def Readable (term : String) : Prop :=
  term.toList.any isBlank = true ∨ term.toList.count '"' % 2 = 0

/-- The quotes that a query brings along from its terms or its name. -/
def looseQuotes : Query → Nat
  | .text terms => ((terms.filter (!·.toList.any isBlank)).flatMap String.toList).count '"'
  | .filename name => name.toList.count '"'

variable {quoted : Bool} {text front rest : List Char} {term : String} {ref : RepositoryRef}

/-! ## Pieces -/

private theorem joined_append {pieces : List (List Char)} (some : pieces ≠ []) (more : List (List Char)) :
    joined front (pieces ++ more) = joined front pieces ++ more := by
  cases pieces with
  | nil => exact absurd rfl some
  | cons piece pieces => rfl

private theorem joined_joined (first second : List Char) (pieces : List (List Char)) :
    joined first (joined second pieces) = joined (first ++ second) pieces := by
  cases pieces <;> simp [joined]

private theorem joined_ne_nil (front : List Char) (pieces : List (List Char)) : joined front pieces ≠ [] := by
  cases pieces <;> simp [joined]

private theorem piecesFrom_nil (quoted : Bool) : piecesFrom quoted [] = [[]] := rfl

private theorem piecesFrom_ne_nil (quoted : Bool) (text : List Char) : piecesFrom quoted text ≠ [] := by
  cases text with
  | nil => simp [piecesFrom]
  | cons c text =>
    rw [piecesFrom]
    split
    · simp
    · apply joined_ne_nil

private theorem joined_piecesFrom (quoted : Bool) (text : List Char) :
    joined [] (piecesFrom quoted text) = piecesFrom quoted text := by
  cases whole : piecesFrom quoted text with
  | nil => exact absurd whole (piecesFrom_ne_nil quoted text)
  | cons piece more => rfl

/-- A character either ends the piece, as a blank outside quotes, or belongs to it. -/
theorem piecesFrom_cons (quoted : Bool) (c : Char) :
    (quoted = false ∧ c ≠ '"' ∧ ∀ rest, piecesFrom quoted (c :: rest) = [] :: piecesFrom false rest) ∨
      ∀ rest, piecesFrom quoted (c :: rest) = joined [c] (piecesFrom (if c = '"' then !quoted else quoted) rest) := by
  by_cases ends : (isBlank c && !quoted) = true
  · obtain ⟨blank, rfl⟩ : isBlank c = true ∧ quoted = false := by simpa using ends
    refine .inl ⟨rfl, ?_, fun rest => by rw [piecesFrom, if_pos ends]⟩
    rintro rfl
    exact absurd blank (by decide)
  · exact .inr fun rest => by rw [piecesFrom, if_neg ends]

/-- A text without blanks belongs to one piece. -/
theorem piecesFrom_solid (solid : ∀ c ∈ text, isBlank c = false) (quoted : Bool) (rest : List Char) :
    piecesFrom quoted (text ++ rest) = joined text (piecesFrom (leavesQuoted quoted text) rest) := by
  induction text generalizing quoted with
  | nil => exact (joined_piecesFrom quoted rest).symm
  | cons c text ih =>
    have tail := ih (fun d member => solid d (List.mem_cons_of_mem c member)) (if c = '"' then !quoted else quoted)
    simp [piecesFrom, leavesQuoted, solid c List.mem_cons_self, tail, joined_joined]

/-- Within quotes blanks count like other characters. -/
theorem piecesFrom_inside (inside : '"' ∉ text) (rest : List Char) :
    piecesFrom true (text ++ rest) = joined text (piecesFrom true rest) := by
  induction text with
  | nil => exact (joined_piecesFrom true rest).symm
  | cons c text ih =>
    simp only [List.mem_cons, not_or] at inside
    simp [piecesFrom, if_neg (Ne.symm inside.1), ih inside.2, joined_joined]

/-- Behind a text that leaves no quote open, a blank ends the piece. -/
theorem piecesFrom_closed (closed : leavesQuoted quoted front = false) (rest : List Char) :
    piecesFrom quoted (front ++ ' ' :: rest) = piecesFrom quoted front ++ piecesFrom false rest := by
  induction front generalizing quoted with
  | nil =>
    obtain rfl : quoted = false := closed
    rfl
  | cons c front ih =>
    rw [leavesQuoted] at closed
    rcases piecesFrom_cons quoted c with ⟨rfl, other, ends⟩ | goesOn
    · rw [if_neg other] at closed
      rw [List.cons_append, ends, ends, ih closed, List.cons_append]
    · rw [List.cons_append, goesOn, goesOn, ih closed, joined_append (piecesFrom_ne_nil _ _)]

/-- Behind a text that leaves a quote open, all that follows belongs to its last piece, if no quote is in it. -/
theorem piecesFrom_open (opened : leavesQuoted quoted front = true) (inside : '"' ∉ rest) :
    ∃ pieces last, piecesFrom quoted (front ++ rest) = pieces ++ [last ++ rest] := by
  induction front generalizing quoted with
  | nil =>
    obtain rfl : quoted = true := opened
    refine ⟨[], [], ?_⟩
    have whole := piecesFrom_inside inside []
    rwa [List.append_nil, piecesFrom_nil, joined, List.append_nil] at whole
  | cons c front ih =>
    rw [leavesQuoted] at opened
    rcases piecesFrom_cons quoted c with ⟨rfl, other, ends⟩ | goesOn
    · rw [if_neg other] at opened
      obtain ⟨pieces, last, cut⟩ := ih opened
      exact ⟨[] :: pieces, last, by rw [List.cons_append, ends, cut, List.cons_append]⟩
    · obtain ⟨pieces, last, cut⟩ := ih opened
      rw [List.cons_append, goesOn, cut]
      cases pieces with
      | nil => exact ⟨[], c :: last, rfl⟩
      | cons piece pieces => exact ⟨(c :: piece) :: pieces, last, rfl⟩

private theorem leavesQuoted_eq (quoted : Bool) (text : List Char) :
    leavesQuoted quoted text = (quoted != (text.count '"' % 2 == 1)) := by
  induction text generalizing quoted with
  | nil => simp [leavesQuoted]
  | cons c text ih =>
    rw [leavesQuoted, ih, List.count_cons]
    rcases Nat.mod_two_eq_zero_or_one (text.count '"') with even | odd
    · by_cases quote : c = '"' <;> simp [quote, even, Nat.add_mod]
    · by_cases quote : c = '"' <;> simp [quote, odd, Nat.add_mod]

private theorem leavesQuoted_eq_false_iff : leavesQuoted false text = false ↔ text.count '"' % 2 = 0 := by
  rw [leavesQuoted_eq]
  simp

private theorem bare_eq_self (inside : '"' ∉ text) : bare text = text := by
  apply List.filter_eq_self.mpr
  intro c member
  simpa using fun same : c = '"' => inside (same ▸ member)

private theorem not_mem_bare (text : List Char) : '"' ∉ bare text := by
  simp [bare]

private theorem Unbroken.not_mem (unbroken : Unbroken text) : '"' ∉ text :=
  fun member => (unbroken '"' member).2 rfl

private theorem Unbroken.solid (unbroken : Unbroken text) : ∀ c ∈ text, isBlank c = false :=
  fun c member => (unbroken c member).1

private theorem Unbroken.append {other : List Char} (unbroken : Unbroken text) (others : Unbroken other) :
    Unbroken (text ++ other) := by
  intro c member
  rcases List.mem_append.mp member with member | member
  · exact unbroken c member
  · exact others c member

private theorem Unbroken.piecesFrom (unbroken : Unbroken text) : piecesFrom false text = [text] := by
  have whole := piecesFrom_solid unbroken.solid false []
  rwa [List.append_nil, piecesFrom_nil, joined, List.append_nil] at whole

private theorem Unbroken.tokens (unbroken : Unbroken text) (some : text ≠ []) : tokens text = [text] := by
  simp [ReviewContext.GitHub.tokens, unbroken.piecesFrom, some, bare_eq_self unbroken.not_mem]

private theorem tokens_closed (closed : leavesQuoted false front = false) (rest : List Char) :
    tokens (front ++ ' ' :: rest) = tokens front ++ tokens rest := by
  simp only [tokens, piecesFrom_closed closed, List.filter_append, List.map_append]

/-! ## Terms -/

private theorem toList_quoteTerm (term : String) :
    (quoteTerm term).toList = if term.toList.any isBlank then '"' :: (bare term.toList ++ ['"']) else term.toList := by
  rw [quoteTerm]
  split <;> simp [bare]

private theorem quoteTerm_ne_nil (some : term ≠ "") : (quoteTerm term).toList ≠ [] := by
  rw [toList_quoteTerm]
  split
  · simp
  · simpa using some

private theorem bare_quoteTerm (term : String) : bare (quoteTerm term).toList = bare term.toList := by
  rw [toList_quoteTerm]
  split <;> simp [bare]

private theorem readable_iff_closed : Readable term ↔ leavesQuoted false (quoteTerm term).toList = false := by
  rw [leavesQuoted_eq_false_iff, toList_quoteTerm, Readable]
  split
  · next blank => simp [blank, List.count_eq_zero.mpr (not_mem_bare term.toList)]
  · next solid => simp [solid]

/-- A term is written as one piece, or as the beginning of one. -/
theorem piecesFrom_quoteTerm (term : String) (rest : List Char) :
    piecesFrom false ((quoteTerm term).toList ++ rest) =
      joined (quoteTerm term).toList (piecesFrom (leavesQuoted false (quoteTerm term).toList) rest) := by
  by_cases blank : term.toList.any isBlank = true
  · have closed := readable_iff_closed.mp (.inl blank)
    have opening (text : List Char) : piecesFrom false ('"' :: text) = joined ['"'] (piecesFrom true text) := rfl
    have closing : piecesFrom true ('"' :: rest) = joined ['"'] (piecesFrom false rest) := rfl
    rw [closed, toList_quoteTerm, if_pos blank, List.cons_append, List.append_assoc, opening,
      piecesFrom_inside (not_mem_bare term.toList), List.singleton_append, closing, joined_joined, joined_joined]
    rfl
  · rw [toList_quoteTerm, if_neg blank]
    exact piecesFrom_solid (by simpa using blank) false rest

private theorem tokens_quoteTerm (some : term ≠ "") : tokens (quoteTerm term).toList = [bare term.toList] := by
  have whole := piecesFrom_quoteTerm term []
  rw [List.append_nil, piecesFrom_nil, joined, List.append_nil] at whole
  simp [tokens, whole, quoteTerm_ne_nil some, bare_quoteTerm]

/-- A term with an unpaired quote takes the blank behind it into its token. -/
theorem tokens_unreadable (unreadable : ¬ Readable term) (rest : List Char) :
    ∃ more others, tokens ((quoteTerm term).toList ++ ' ' :: rest) = (bare term.toList ++ ' ' :: more) :: others := by
  have opened : leavesQuoted false (quoteTerm term).toList = true :=
    Bool.not_eq_false _ |>.mp fun closed => unreadable (readable_iff_closed.mpr closed)
  have blank : piecesFrom true (' ' :: rest) = joined [' '] (piecesFrom true rest) := rfl
  have pieces := piecesFrom_quoteTerm term (' ' :: rest)
  rw [opened, blank, joined_joined] at pieces
  cases behind : piecesFrom true rest with
  | nil => exact absurd behind (piecesFrom_ne_nil true rest)
  | cons piece others =>
    refine ⟨bare piece, (others.filter (!·.isEmpty)).map bare, ?_⟩
    rw [tokens, pieces, behind, joined, List.filter_cons_of_pos (by simp), List.map_cons, ← bare_quoteTerm]
    simp [bare]

/-! ## Queries -/

private theorem toList_searchText_nil (ref : RepositoryRef) :
    (searchText ref (.text [])).toList = (scope ref).toList := by
  simp [searchText]

private theorem toList_searchText_cons (ref : RepositoryRef) (term : String) (terms : List String) :
    (searchText ref (.text (term :: terms))).toList =
      (quoteTerm term).toList ++ ' ' :: (searchText ref (.text terms)).toList := by
  cases terms <;> simp [searchText, String.toList_intercalate]

private theorem toList_searchText_filename (ref : RepositoryRef) (name : String) :
    (searchText ref (.filename name)).toList = ("filename:" ++ name).toList ++ ' ' :: (scope ref).toList := by
  simp [searchText]

private theorem unbroken_scope (owner : Unbroken ref.owner.toList) (repo : Unbroken ref.repo.toList) :
    Unbroken (scope ref).toList := by
  have mark : Unbroken "repo:".toList := by decide
  have slash : Unbroken "/".toList := by decide
  rw [scope, RepositoryRef.slug, String.toList_append, String.toList_append, String.toList_append]
  exact mark.append ((owner.append slash).append repo)

private theorem scope_ne_nil (ref : RepositoryRef) : (scope ref).toList ≠ [] := by
  simp [scope]

private theorem text_read_back_iff (plain : Unbroken (scope ref).toList) {terms : List String}
    (some : ∀ term ∈ terms, term ≠ "") :
    tokens (searchText ref (.text terms)).toList = terms.map (bare ·.toList) ++ [(scope ref).toList] ↔
      ∀ term ∈ terms, Readable term := by
  induction terms with
  | nil => simp [toList_searchText_nil, plain.tokens (scope_ne_nil ref)]
  | cons term terms ih =>
    obtain ⟨first, others⟩ := List.forall_mem_cons.mp some
    rw [toList_searchText_cons, List.forall_mem_cons, List.map_cons, List.cons_append]
    by_cases readable : Readable term
    · rw [tokens_closed (readable_iff_closed.mp readable), tokens_quoteTerm first, ← ih others]
      simp [readable]
    · obtain ⟨more, rest, cut⟩ := tokens_unreadable readable (searchText ref (.text terms)).toList
      simp [readable, cut]

/-- Without quotes every blank ends a piece. -/
theorem solid_of_mem_piecesFrom (inside : '"' ∉ text) :
    ∀ piece ∈ piecesFrom false text, ∀ c ∈ piece, isBlank c = false := by
  induction text with
  | nil => simp [piecesFrom]
  | cons c text ih =>
    simp only [List.mem_cons, not_or] at inside
    have tail := ih inside.2
    by_cases blank : isBlank c = true
    · simpa [piecesFrom, blank] using tail
    · cases behind : piecesFrom false text with
      | nil => exact absurd behind (piecesFrom_ne_nil false text)
      | cons piece pieces =>
        rw [behind, List.forall_mem_cons] at tail
        simpa [piecesFrom, blank, if_neg (Ne.symm inside.1), behind, joined] using tail

private theorem filename_read_back_iff (plain : Unbroken (scope ref).toList) (name : String) :
    tokens (searchText ref (.filename name)).toList = [("filename:" ++ name).toList, (scope ref).toList] ↔
      Unbroken name.toList := by
  have mark : Unbroken "filename:".toList := by decide
  rw [toList_searchText_filename]
  constructor
  · intro back
    have first : ("filename:" ++ name).toList ∈ tokens (("filename:" ++ name).toList ++ ' ' :: (scope ref).toList) := by
      rw [back]
      exact List.mem_cons_self
    obtain ⟨piece, kept, dropped⟩ := List.mem_map.mp first
    have unquoted : '"' ∉ ("filename:" ++ name).toList := dropped ▸ not_mem_bare piece
    have inside : '"' ∉ ("filename:" ++ name).toList ++ ' ' :: (scope ref).toList := by
      simpa [plain.not_mem] using unquoted
    have solid := solid_of_mem_piecesFrom inside piece (List.mem_filter.mp kept).1
    intro c member
    have inWord : c ∈ ("filename:" ++ name).toList := by
      rw [String.toList_append]
      exact List.mem_append_right _ member
    refine ⟨solid c ?_, fun same => unquoted (same ▸ inWord)⟩
    rw [← dropped] at inWord
    exact (List.mem_filter.mp inWord).1
  · intro unbroken
    have whole : Unbroken ("filename:" ++ name).toList := by
      rw [String.toList_append]
      exact mark.append unbroken
    have closed : leavesQuoted false ("filename:" ++ name).toList = false := by
      rw [leavesQuoted_eq_false_iff, List.count_eq_zero.mpr whole.not_mem]
    rw [tokens_closed closed, whole.tokens (by simp), plain.tokens (scope_ne_nil ref)]
    rfl

/-- The repository is a token of its own exactly if no quote is open in front of it. -/
theorem scoped_iff (plain : Unbroken (scope ref).toList) (front : List Char) :
    (tokens (front ++ ' ' :: (scope ref).toList)).getLast? = some (scope ref).toList ↔ front.count '"' % 2 = 0 := by
  rw [← leavesQuoted_eq_false_iff]
  cases left : leavesQuoted false front with
  | false => simp [tokens_closed left, plain.tokens (scope_ne_nil ref)]
  | true =>
    have inside : '"' ∉ ' ' :: (scope ref).toList := by simpa using plain.not_mem
    obtain ⟨pieces, last, cut⟩ := piecesFrom_open left inside
    have taken : bare (last ++ ' ' :: (scope ref).toList) = bare last ++ ' ' :: (scope ref).toList := by
      simpa [bare] using bare_eq_self plain.not_mem
    have longer : bare last ++ ' ' :: (scope ref).toList ≠ (scope ref).toList := by
      intro same
      have lengths := congrArg List.length same
      simp only [List.length_append, List.length_cons] at lengths
      omega
    simp [tokens, cut, taken, longer]

private theorem count_quoteTerm (term : String) :
    (quoteTerm term).toList.count '"' % 2 = (if term.toList.any isBlank then 0 else term.toList.count '"') % 2 := by
  rw [toList_quoteTerm]
  split <;> simp [List.count_eq_zero.mpr (not_mem_bare term.toList)]

/-- What stands in front of the repository has as many quotes as the terms bring along, but for pairs. -/
theorem exists_front (ref : RepositoryRef) (term : String) (terms : List String) :
    ∃ front, (searchText ref (.text (term :: terms))).toList = front ++ ' ' :: (scope ref).toList ∧
      front.count '"' % 2 = looseQuotes (.text (term :: terms)) % 2 := by
  have first := count_quoteTerm term
  induction terms generalizing term with
  | nil =>
    refine ⟨(quoteTerm term).toList, by rw [toList_searchText_cons, toList_searchText_nil], ?_⟩
    rw [first]
    cases blank : term.toList.any isBlank <;> simp [looseQuotes, blank]
  | cons next terms ih =>
    obtain ⟨front, written, parity⟩ := ih next (count_quoteTerm next)
    refine ⟨(quoteTerm term).toList ++ ' ' :: front, ?_, ?_⟩
    · rw [toList_searchText_cons, written, List.append_assoc]
      rfl
    have split : looseQuotes (.text (term :: next :: terms)) =
        (if term.toList.any isBlank then 0 else term.toList.count '"') + looseQuotes (.text (next :: terms)) := by
      cases blank : term.toList.any isBlank <;> simp [looseQuotes, blank]
    rw [split, List.count_append, List.count_cons_of_ne (by decide)]
    omega

private theorem search_scoped_iff (plain : Unbroken (scope ref).toList) (query : Query) :
    (tokens (searchText ref query).toList).getLast? = some (scope ref).toList ↔ looseQuotes query % 2 = 0 := by
  cases query with
  | text terms =>
    cases terms with
    | nil => simp [toList_searchText_nil, plain.tokens (scope_ne_nil ref), looseQuotes]
    | cons term terms =>
      obtain ⟨front, written, parity⟩ := exists_front ref term terms
      rw [written, scoped_iff plain, parity]
  | filename name =>
    rw [toList_searchText_filename, scoped_iff plain, looseQuotes, String.toList_append, List.count_append,
      List.count_eq_zero.mpr (by decide), Nat.zero_add]

/-- The terms of a search come back, and the repository behind them, exactly if each term has blanks or quotes in
pairs; the name of a file comes back exactly if it has neither blanks nor quotes. Whatever else is lost, the search
keeps to the repository exactly if the quotes that are written as they are come in pairs. -/
theorem query_read_back_iff (owner : Unbroken ref.owner.toList) (repo : Unbroken ref.repo.toList) :
    (∀ terms : List String, (∀ term ∈ terms, term ≠ "") →
        (tokens (searchText ref (.text terms)).toList = terms.map (bare ·.toList) ++ [(scope ref).toList] ↔
          ∀ term ∈ terms, Readable term)) ∧
      (∀ name : String,
        tokens (searchText ref (.filename name)).toList = [("filename:" ++ name).toList, (scope ref).toList] ↔
          Unbroken name.toList) ∧
      ∀ query : Query,
        (tokens (searchText ref query).toList).getLast? = some (scope ref).toList ↔ looseQuotes query % 2 = 0 := by
  have plain := unbroken_scope owner repo
  refine ⟨fun terms some => ?_, fun name => ?_, fun query => ?_⟩
  · exact text_read_back_iff plain some
  · exact filename_read_back_iff plain name
  · exact search_scoped_iff plain query

/-- Terms with blanks, with quotes of their own and with both. -/
theorem query_read_back_iff_of_quoted_terms :
    let ref : RepositoryRef := ⟨"acme", "shop", "abc123"⟩
    let terms := ["import", "say \"hi\" twice", "a\"b\""]
    Unbroken ref.owner.toList ∧ Unbroken ref.repo.toList ∧ (∀ term ∈ terms, term ≠ "") ∧
      tokens (searchText ref (.text terms)).toList =
        ["import".toList, "say hi twice".toList, "ab".toList, "repo:acme/shop".toList] ∧
      tokens (searchText ref (.filename "bill.test.ts")).toList =
        ["filename:bill.test.ts".toList, "repo:acme/shop".toList] := by
  intro ref terms
  have owner : Unbroken ref.owner.toList := by decide
  have repo : Unbroken ref.repo.toList := by decide
  have some : ∀ term ∈ terms, term ≠ "" := by decide
  obtain ⟨text, filename, -⟩ := query_read_back_iff owner repo
  refine ⟨owner, repo, some, ((text terms some).mpr ?_).trans (by decide), ((filename _).mpr ?_).trans (by decide)⟩
  · unfold Readable; decide
  · decide

/-- A quote in a term takes the repository along, and a blank in a name ends it. -/
theorem quotes_and_blanks_break_queries :
    let ref : RepositoryRef := ⟨"acme", "shop", "abc123"⟩
    tokens (searchText ref (.text ["a\"b"])).toList = ["ab repo:acme/shop".toList] ∧
      tokens (searchText ref (.filename "my bill.test.ts")).toList =
        ["filename:my".toList, "bill.test.ts".toList, "repo:acme/shop".toList] := by
  decide

end ReviewContext.GitHub
