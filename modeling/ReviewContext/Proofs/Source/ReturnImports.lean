import ReviewContext.Proofs.Source.ReturnReaders

/-! # Imports with carriage returns

Every reader of imports finds the same with and without carriage returns but for two. The list of siblings must end
in front of a newline, where a carriage return stands. And what is imported by a script may be any two characters
between the keyword and `from`, so a carriage return can be taken for it.
-/

namespace ReviewContext.Source.Imports

variable {α : Type} {cs : List Char}

theorem bare?_steady (paired : Paired cs) : Steady id bare? cs :=
  Steady.bind (keyword_gap_steady (by decide) paired) paired fun _ _ => quotedText?_steady

private theorem trimmed_keyword?_steady {word : String} (inLine : '\n' ∉ word.toList ∧ '\r' ∉ word.toList)
    (paired : Paired cs) : SteadyPiece (fun cs => keyword? word (Text.trimStart cs)) cs :=
  .comp (keyword? word) (trimStart_steady paired) paired fun _ => keyword?_steady inLine

theorem call?_steady {word : String} (inLine : '\n' ∉ word.toList ∧ '\r' ∉ word.toList) (paired : Paired cs) :
    Steady id (call? word) cs := by
  have opening : SteadyPiece (callOpening? word) cs :=
    (keyword?_steady inLine paired).bind paired fun rest _ paired =>
      (trimmed_keyword?_steady (by decide) paired).map paired fun _ => trimStart_steady
  rw [call?_eq]
  refine Steady.bind opening paired fun rest _ paired => ?_
  have text : Steady (id ∘ id) quotedText? rest := quotedText?_steady paired
  exact text.followed paired fun _ => trimmed_keyword?_steady (by decide)

private theorem visibility?_eq : visibility? = fun cs => keyword? "pub" cs >>= enclosed? (· != ')') := by
  funext cs
  unfold visibility?
  cases keyword? "pub" cs with
  | none => rfl
  | some rest => rfl

private theorem visibility?_steady (paired : Paired cs) : SteadyPiece visibility? cs := by
  rw [visibility?_eq]
  exact (keyword?_steady (by decide) paired).bind paired fun _ _ => enclosed?_steady (by decide)

/-- A keyword and a gap, perhaps with a visibility in front. -/
theorem opening_steady {word : String} (inLine : '\n' ∉ word.toList ∧ '\r' ∉ word.toList) (paired : Paired cs) :
    SteadyPiece (fun cs => keyword? word (optional visibility? cs) >>= gap?) cs :=
  .comp (fun cs => keyword? word cs >>= gap?) (visibility?_steady paired).optional paired
    fun _ => keyword_gap_steady inLine

/-- Whether a text starts with a keyword and goes on behind it. -/
theorem goesOn_unreturned {word : String} (inLine : '\n' ∉ word.toList ∧ '\r' ∉ word.toList) (paired : Paired cs) :
    (word.toList.isPrefixOf (unreturned cs) && decide (word.length < (unreturned cs).length)) =
      (word.toList.isPrefixOf cs && decide (word.length < cs.length)) := by
  have steady := keyword?_steady inLine paired
  have starts {cs left : List Char} (taken : keyword? word cs = some left) : word.toList.isPrefixOf cs = true :=
    List.isPrefixOf_iff_prefix.mpr ⟨left, (keyword?_eq_some_iff.mp taken).symm⟩
  have foreign {cs : List Char} (nothing : keyword? word cs = none) : word.toList.isPrefixOf cs = false := by
    rw [Bool.eq_false_iff]
    intro starts
    obtain ⟨left, whole⟩ := List.isPrefixOf_iff_prefix.mp starts
    rw [keyword?_eq_some_iff.mpr whole.symm] at nothing
    cases nothing
  cases taken : keyword? word cs with
  | none =>
    have nothing := steady.same
    rw [taken] at nothing
    rw [foreign taken, foreign nothing]
    rfl
  | some left =>
    have taken' := steady.same
    rw [taken] at taken'
    have paired_left := paired.suffix (steady.ends left taken)
    have more : word.length < (unreturned cs).length ↔ word.length < cs.length := by
      rw [keyword?_eq_some_iff.mp taken', keyword?_eq_some_iff.mp taken, List.length_append, List.length_append,
        String.length_toList, Nat.lt_add_right_iff_pos, Nat.lt_add_right_iff_pos, List.length_pos_iff,
        List.length_pos_iff]
      refine not_congr ⟨paired_left.eq_nil, ?_⟩
      rintro rfl
      rfl
    rw [starts taken, starts taken', decide_eq_decide.mpr more]

private theorem filter_unreturned {p : Char → Bool} (blank : p '\r' = false) (cs : List Char) :
    (unreturned cs).filter p = cs.filter p := by
  rw [unreturned, List.filter_filter]
  apply List.filter_congr
  intro c _
  by_cases return_ : c = '\r'
  · rw [return_, blank]
    rfl
  · rw [bne_iff_ne.mpr return_, Bool.and_true]

private theorem usePath?_steady (paired : Paired cs) : Steady id usePath? cs := by
  have paired_left := paired.suffix (List.dropWhile_suffix (· != ';'))
  have semicolon : SteadyPiece (keyword? ";") _ := keyword?_steady (by decide) paired_left
  constructor
  · intro name left found
    obtain ⟨after, taken, same⟩ := Option.bind_eq_some_iff.mp found
    obtain ⟨-, same⟩ := Option.ite_none_right_eq_some.mp same
    cases same
    apply suffix_tail _ (List.dropWhile_suffix (· != ';'))
    rw [keyword?_eq_some_iff.mp taken]
    exact List.suffix_rfl
  · unfold usePath?
    rw [dropWhile_unreturned (by decide) paired, takeWhile_unreturned (by decide) paired, semicolon.same]
    cases taken : keyword? ";" (cs.dropWhile (· != ';')) with
    | none => rfl
    | some after =>
      have whole : cs = cs.takeWhile (· != ';') ++ ';' :: after := by
        have semicolon := keyword?_eq_some_iff.mp taken
        exact (List.takeWhile_append_dropWhile ..).symm.trans (congrArg _ semicolon)
      have path : Paired (cs.takeWhile (· != ';')) := by
        rw [whole] at paired
        exact paired.before (by decide)
      rw [Option.map_some, Option.bind_some, Option.bind_some, filter_unreturned (by decide)]
      have roots : ["self::", "super::", "crate::"].any (fun root =>
          root.toList.isPrefixOf (unreturned (cs.takeWhile (· != ';'))) &&
            root.length < (unreturned (cs.takeWhile (· != ';'))).length) =
          ["self::", "super::", "crate::"].any fun root =>
            root.toList.isPrefixOf (cs.takeWhile (· != ';')) && root.length < (cs.takeWhile (· != ';')).length := by
        simp only [List.any_cons, List.any_nil]
        rw [goesOn_unreturned (by decide) path, goesOn_unreturned (by decide) path, goesOn_unreturned (by decide) path]
      rw [roots]
      split <;> rfl

theorem use?_steady (paired : Paired cs) : Steady id use? cs := by
  have same : use? = fun cs => useOpening? cs >>= usePath? := funext use?_eq
  rw [same]
  exact Steady.bind (opening_steady (by decide) paired) paired fun _ _ => usePath?_steady

theorem mod?_steady (paired : Paired cs) : Steady id mod? cs := by
  have same : mod? = fun cs => modOpening? cs >>= modName? := funext mod?_eq
  rw [same]
  refine Steady.bind (opening_steady (by decide) paired) paired fun rest _ paired => ?_
  exact ((run?_steady inLine_isWord paired).mono _).followed paired fun _ => trimmed_keyword?_steady (by decide)

/-! ## Go -/

/-- What may stand between double quotes. -/
def inDoubleQuotes (c : Char) : Bool :=
  c != '"' && c != '\n'

/-- A text on one line and the double quote behind it. -/
def closedText? : Reader (List Char) := fun cs =>
  (run? inDoubleQuotes cs).bind fun out => (keyword? "\"" out.2).map (out.1, ·)

private theorem doubleQuoted?_eq : doubleQuoted? = fun cs => keyword? "\"" cs >>= closedText? := by
  funext cs
  unfold doubleQuoted? closedText?
  cases keyword? "\"" cs with
  | none => rfl
  | some rest =>
    change (run? inDoubleQuotes rest).bind _ = (run? inDoubleQuotes rest).bind _
    cases run? inDoubleQuotes rest with
    | none => rfl
    | some out =>
      change (keyword? "\"" out.2).bind _ = (keyword? "\"" out.2).map _
      cases keyword? "\"" out.2 <;> rfl

private theorem closedText?_of_open (within : ∀ c ∈ cs, inDoubleQuotes c) : closedText? cs = none := by
  rw [closedText?, run?_eq, List.dropWhile_eq_nil_iff.mpr within]
  split <;> rfl

private theorem closedText?_of_closed {text rest : List Char} {close : Char} (within : ∀ c ∈ text, inDoubleQuotes c)
    (outside : ¬ inDoubleQuotes close) :
    closedText? (text ++ close :: rest) = if text ≠ [] ∧ close = '"' then some (text, rest) else none := by
  rw [closedText?, run?_eq, List.takeWhile_append_of_pos within, List.takeWhile_cons_of_neg outside,
    List.append_nil, List.dropWhile_append_of_pos within, List.dropWhile_cons_of_neg outside]
  by_cases empty : text = []
  · rw [if_pos empty, if_neg fun both => both.1 empty]
    rfl
  · rw [if_neg empty]
    by_cases closes : close = '"'
    · subst closes
      rw [if_pos ⟨empty, rfl⟩]
      rfl
    · have nothing : keyword? "\"" (close :: rest) = none := by
        cases taken : keyword? "\"" (close :: rest) with
        | none => rfl
        | some left => exact absurd (List.cons.inj (keyword?_eq_some_iff.mp taken)).1 closes
      rw [if_neg fun both => closes both.2, Option.bind_some, nothing]
      rfl

private theorem closedText?_steady (paired : Paired cs) : Steady id closedText? cs := by
  rcases all_or_exists_first inDoubleQuotes cs with all | ⟨lead, close, rest, rfl, within, outside⟩
  · have nothing := closedText?_of_open all
    constructor
    · intro name left found
      rw [nothing] at found
      cases found
    · rw [nothing, closedText?_of_open (forall_mem_unreturned all)]
      rfl
  · have found_eq : closedText? (lead ++ close :: rest) = _ := closedText?_of_closed within outside
    constructor
    · intro name left found
      rw [found_eq] at found
      split at found
      · next both =>
        cases found
        obtain ⟨c, lead, rfl⟩ := List.exists_cons_of_ne_nil both.1
        exact List.suffix_append_of_suffix (List.suffix_cons close rest)
      · cases found
    · have solid : close ≠ '\r' := by
        rintro rfl
        exact outside (by decide)
      rw [unreturned_append, unreturned_cons solid, found_eq,
        closedText?_of_closed (forall_mem_unreturned within) outside]
      by_cases closes : close = '"'
      · subst closes
        have inLine : '\n' ∉ lead := fun member => absurd (within _ member) (by decide)
        rw [unreturned_eq_self (paired.absent (by decide) inLine)]
        split <;> rfl
      · rw [if_neg fun both => closes both.2, if_neg fun both => closes both.2]
        rfl

theorem doubleQuoted?_steady (paired : Paired cs) : Steady id doubleQuoted? cs := by
  rw [doubleQuoted?_eq]
  exact Steady.bind (keyword?_steady (by decide) paired) paired fun _ _ => closedText?_steady

private theorem inLine_inDottedName : InLine inDottedName :=
  ⟨by decide, by decide⟩

/-- A name and a gap. -/
def localName? (cs : List Char) : Option (List Char) :=
  ((run? inDottedName cs).map (·.2)).bind gap?

private theorem single?_eq : single? = fun cs =>
    (keyword? "import" cs >>= gap?) >>= fun rest => doubleQuoted? (optional localName? rest) := by
  have same : localName? = fun cs => (run? inDottedName cs).bind fun out => gap? out.2 := by
    funext cs
    unfold localName?
    cases run? inDottedName cs <;> rfl
  rw [same]
  rfl

theorem single?_steady (paired : Paired cs) : Steady id single? cs := by
  rw [single?_eq]
  refine Steady.bind (keyword_gap_steady (by decide) paired) paired fun rest _ paired => ?_
  have name : SteadyPiece localName? rest :=
    (run?_steady inLine_inDottedName paired).behind.bind paired fun _ _ => gap?_steady
  exact .comp doubleQuoted? name.optional paired fun _ => doubleQuoted?_steady

/-- The rest of a group and the parenthesis that closes it. -/
def groupBody? : Reader (List Char) := fun cs =>
  (keyword? ")" (cs.dropWhile (· != ')'))).map (cs.takeWhile (· != ')'), ·)

private theorem group?_eq : group? = fun cs =>
    (keyword? "import" cs >>= fun rest => keyword? "(" (Text.trimStart rest)) >>= groupBody? := by
  funext cs
  unfold group? groupBody?
  cases keyword? "import" cs with
  | none => rfl
  | some rest =>
    change (keyword? "(" (Text.trimStart rest)).bind _ = (keyword? "(" (Text.trimStart rest)).bind _
    cases keyword? "(" (Text.trimStart rest) with
    | none => rfl
    | some rest =>
      change (keyword? ")" (rest.dropWhile (· != ')'))).bind _ = (keyword? ")" (rest.dropWhile (· != ')'))).map _
      cases keyword? ")" (rest.dropWhile (· != ')')) <;> rfl

/-- What stands in a group has the carriage returns in it, which make no difference to `f`. -/
theorem group?_steady {f : List Char → α} (alike : ∀ group, Paired group → f (unreturned group) = f group)
    (paired : Paired cs) : Steady f group? cs := by
  have opening : SteadyPiece (fun cs => keyword? "import" cs >>= fun rest => keyword? "(" (Text.trimStart rest)) cs :=
    (keyword?_steady (by decide) paired).bind paired fun _ _ => trimmed_keyword?_steady (by decide)
  rw [group?_eq]
  refine Steady.bind opening paired fun rest _ paired => ?_
  have paired_left := paired.suffix (List.dropWhile_suffix (· != ')'))
  have close : SteadyPiece (keyword? ")") _ := keyword?_steady (by decide) paired_left
  constructor
  · intro name left found
    obtain ⟨after, taken, same⟩ := Option.map_eq_some_iff.mp found
    cases same
    apply suffix_tail _ (List.dropWhile_suffix (· != ')'))
    rw [keyword?_eq_some_iff.mp taken]
    exact List.suffix_rfl
  · unfold groupBody?
    rw [dropWhile_unreturned (by decide) paired, takeWhile_unreturned (by decide) paired, close.same]
    cases taken : keyword? ")" (rest.dropWhile (· != ')')) with
    | none => rfl
    | some after =>
      have whole : rest = rest.takeWhile (· != ')') ++ ')' :: after :=
        (List.takeWhile_append_dropWhile ..).symm.trans (congrArg _ (keyword?_eq_some_iff.mp taken))
      have group : Paired (rest.takeWhile (· != ')')) := by
        rw [whole] at paired
        exact paired.before (by decide)
      exact congrArg (fun name => some (name, unreturned after)) (alike _ group)

/-! ## Python -/

theorem plain?_steady (paired : Paired cs) : Steady id plain? cs :=
  Steady.bind (keyword_gap_steady (by decide) paired) paired fun _ _ => run?_steady inLine_inDottedName

/-- A gap, the keyword behind a module, and no word right behind that. -/
def moduleEnd? (cs : List Char) : Option (List Char) :=
  (gap? cs >>= keyword? "import").filter fun after => !(after.head?.map Text.isWord).getD false

/-- An import from a module is the keyword, the module and the keyword behind that. -/
theorem fromModule?_eq : fromModule? = fun cs => (keyword? "from" cs >>= gap?) >>= fun cs =>
    (run? inDottedName cs).bind fun out => (moduleEnd? out.2).map (out.1, ·) := by
  funext cs
  unfold fromModule? moduleEnd?
  cases keyword? "from" cs >>= gap? with
  | none => rfl
  | some rest =>
    change (run? inDottedName rest).bind _ = (run? inDottedName rest).bind _
    cases run? inDottedName rest with
    | none => rfl
    | some out =>
      obtain ⟨path, rest⟩ := out
      change (gap? rest >>= keyword? "import").bind _ = ((gap? rest >>= keyword? "import").filter _).map _
      cases gap? rest >>= keyword? "import" with
      | none => rfl
      | some after =>
        rw [Option.filter_some, Option.bind_some]
        cases (after.head?.map Text.isWord).getD false <;> rfl

private theorem moduleEnd?_steady (paired : Paired cs) : SteadyPiece moduleEnd? cs := by
  have keyword : SteadyPiece (fun cs => gap? cs >>= keyword? "import") cs :=
    (gap?_steady paired).bind paired fun _ _ => keyword?_steady (by decide)
  apply keyword.filter
  intro left taken
  have paired_left := paired.suffix (keyword.ends left taken)
  cases paired_left with
  | nil => rfl
  | cons other tail =>
    rw [unreturned_cons other]
    rfl
  | pair tail =>
    rw [unreturned_return, unreturned_cons (by decide), List.head?_cons, List.head?_cons]
    decide

theorem fromModule?_steady (paired : Paired cs) : Steady id fromModule? cs := by
  rw [fromModule?_eq]
  refine Steady.bind (keyword_gap_steady (by decide) paired) paired fun rest _ paired => ?_
  have name : Steady (id ∘ id) (run? inDottedName) rest := run?_steady inLine_inDottedName paired
  exact name.followed paired fun _ => moduleEnd?_steady

/-- What may stand in a list of siblings. -/
def inSiblings (c : Char) : Bool :=
  Text.isWord c || isSpaceOrTab c || c == ','

/-- ` import a, b as c`, wherever the list ends. -/
def listing? : Reader (List Char) := fun cs =>
  (inlineGap? cs >>= keyword? "import" >>= inlineGap?) >>= run? inSiblings

/-- `from . import a, b as c`, wherever the list ends. -/
def siblingList? : Reader (List Char × List Char) := fun cs =>
  ((keyword? "from" cs >>= inlineGap?) >>= run? (· == '.')).bind fun out =>
    (listing? out.2).map fun out' => ((out.1, out'.1), out'.2)

def endsLine (cs : List Char) : Bool :=
  cs.isEmpty || cs.head? = some '\n'

/-- An import from a package is its list of siblings, if that ends its line. -/
theorem fromPackage?_eq : fromPackage? = fun cs => (siblingList? cs).filter (endsLine ·.2) := by
  funext cs
  unfold fromPackage? siblingList?
  change ((keyword? "from" cs >>= inlineGap?) >>= run? (· == '.')).bind _ =
    (((keyword? "from" cs >>= inlineGap?) >>= run? (· == '.')).bind _).filter _
  cases (keyword? "from" cs >>= inlineGap?) >>= run? (· == '.') with
  | none => rfl
  | some out =>
    rw [Option.bind_some, Option.bind_some, listing?]
    change (inlineGap? out.2 >>= keyword? "import" >>= inlineGap?).bind _ =
      (((inlineGap? out.2 >>= keyword? "import" >>= inlineGap?).bind _).map _).filter _
    cases inlineGap? out.2 >>= keyword? "import" >>= inlineGap? with
    | none => rfl
    | some rest =>
      change (run? inSiblings rest).bind _ = ((run? inSiblings rest).map _).filter _
      cases run? inSiblings rest with
      | none => rfl
      | some out' =>
        rw [Option.bind_some, Option.map_some, Option.filter_some]
        rfl

private theorem inlineGap?_steady (paired : Paired cs) : SteadyPiece inlineGap? cs :=
  (run?_steady ⟨by decide, by decide⟩ paired).behind

private theorem listing?_steady (paired : Paired cs) : Steady id listing? cs := by
  have keyword : SteadyPiece (fun cs => inlineGap? cs >>= keyword? "import") cs :=
    (inlineGap?_steady paired).bind paired fun _ _ => keyword?_steady (by decide)
  have behind : SteadyPiece (fun cs => inlineGap? cs >>= keyword? "import" >>= inlineGap?) cs :=
    keyword.bind paired fun _ _ => inlineGap?_steady
  exact Steady.bind behind paired fun _ _ => run?_steady ⟨by decide, by decide⟩

private theorem siblingList?_steady (paired : Paired cs) : Steady id siblingList? cs := by
  have opening : SteadyPiece (fun cs => keyword? "from" cs >>= inlineGap?) cs :=
    (keyword?_steady (by decide) paired).bind paired fun _ _ => inlineGap?_steady
  have dots : Steady id (fun cs => (keyword? "from" cs >>= inlineGap?) >>= run? (· == '.')) cs :=
    Steady.bind opening paired fun _ _ => run?_steady ⟨by decide, by decide⟩
  exact dots.both paired fun _ => listing?_steady

/-- The text starts with a list of siblings that ends in front of a carriage return. -/
def EndsInReturn (cs : List Char) : Prop :=
  ∃ named rest, siblingList? cs = some (named, '\r' :: rest)

instance (cs : List Char) : Decidable (EndsInReturn cs) :=
  decidable_of_iff ((siblingList? cs).any fun out => out.2.head? = some '\r') <| by
    cases found : siblingList? cs with
    | none => simp [EndsInReturn, found]
    | some out => simp [EndsInReturn, found, Prod.ext_iff, List.head?_eq_some_iff]

/-- Siblings are found with carriage returns and without, unless one of them stands right behind their list. -/
theorem fromPackage?_steady (paired : Paired cs) (ends : ¬ EndsInReturn cs) : Steady id fromPackage? cs := by
  have listed := siblingList?_steady paired
  rw [fromPackage?_eq]
  apply listed.filter
  intro named left found
  have paired_left := paired.suffix ((listed.ends named left found).trans (List.tail_suffix cs))
  cases paired_left with
  | nil => rfl
  | cons other tail =>
    rw [unreturned_cons other]
    rfl
  | pair tail => exact absurd ⟨named, _, found⟩ ends

/-! ## JavaScript -/

/-- A clause is a gap, something imported, another gap, `from` and a last gap. -/
structure IsClause (front : List Char) (c : Char) (gap : List Char) : Prop where
  long : 2 ≤ front.length
  starts : front.head?.any Text.isBlank
  blank : Text.isBlank c
  gap_ne_nil : gap ≠ []
  gap_blank : ∀ d ∈ gap, Text.isBlank d

private theorem endsInFrom_of_isClause {front gap : List Char} {c : Char} (isClause : IsClause front c gap) :
    endsInFrom (front ++ c :: ("from".toList ++ gap)) := by
  have reversed : (front ++ c :: ("from".toList ++ gap)).reverse =
      gap.reverse ++ 'm' :: 'o' :: 'r' :: 'f' :: c :: front.reverse := by
    simp
  have dropped : (gap.reverse ++ 'm' :: 'o' :: 'r' :: 'f' :: c :: front.reverse).dropWhile Text.isBlank =
      'm' :: 'o' :: 'r' :: 'f' :: c :: front.reverse := by
    rw [List.dropWhile_append_of_pos, List.dropWhile_cons_of_neg (by decide)]
    exact fun d member => isClause.gap_blank d (List.mem_reverse.mp member)
  obtain ⟨e, more, ends⟩ := List.exists_cons_of_ne_nil (mt List.reverse_eq_nil_iff.mp isClause.gap_ne_nil)
  have last : Text.isBlank e := isClause.gap_blank e (List.mem_reverse.mp (ends ▸ List.mem_cons_self))
  obtain ⟨d, front, rfl⟩ := List.exists_cons_of_length_pos (Nat.lt_of_lt_of_le Nat.zero_lt_two isClause.long)
  have first : Text.isBlank d := isClause.starts
  unfold endsInFrom
  dsimp only
  rw [reversed, dropped]
  simpa [ends, last, first, isClause.blank] using Nat.le_of_succ_le_succ isClause.long

private theorem endsInFrom_iff {clause : List Char} : endsInFrom clause ↔ ∃ front c gap,
    clause = front ++ c :: ("from".toList ++ gap) ∧ IsClause front c gap := by
  constructor
  · intro ends
    unfold endsInFrom at ends
    dsimp only at ends
    split at ends
    · next c earlier dropped =>
      have whole := List.takeWhile_append_dropWhile (p := Text.isBlank) (l := clause.reverse)
      have blank : ∀ d ∈ clause.reverse.takeWhile Text.isBlank, Text.isBlank d :=
        fun d member => List.mem_takeWhile_imp member
      rw [dropped] at whole
      generalize clause.reverse.takeWhile Text.isBlank = gap at whole blank
      obtain rfl : clause = earlier.reverse ++ c :: ("from".toList ++ gap.reverse) := by
        rw [← List.reverse_inj, ← whole]
        simp
      simp only [Bool.and_eq_true, decide_eq_true_eq] at ends
      obtain ⟨⟨⟨last, inner⟩, long⟩, first⟩ := ends
      refine ⟨earlier.reverse, c, gap.reverse, rfl, by simpa using long, ?_, inner, ?_, ?_⟩
      · have some : earlier.reverse ≠ [] := by
          rw [ne_eq, List.reverse_eq_nil_iff]
          rintro rfl
          exact absurd long (by decide)
        obtain ⟨d, front, shape⟩ := List.exists_cons_of_ne_nil some
        rw [shape] at first ⊢
        exact first
      · rw [ne_eq, List.reverse_eq_nil_iff]
        rintro rfl
        rw [← whole] at last
        have solid : ¬ Text.isBlank 'm' := by decide
        exact absurd last solid
      · exact fun d member => blank d (List.mem_reverse.mp member)
    · cases ends
  · rintro ⟨front, c, gap, rfl, isClause⟩
    exact endsInFrom_of_isClause isClause

/-- Nothing but two blanks stands between the keyword and `from`, and one of them ends a line. -/
def Crowded (word : String) (cs : List Char) : Prop :=
  ∃ gap rest, cs = word.toList ++ (gap ++ ("from".toList ++ rest)) ∧ (∀ c ∈ gap, Text.isBlank c) ∧ '\r' ∈ gap ∧
    (unreturned gap).length = 2

private theorem isBlank_return : Text.isBlank '\r' := by
  decide

private theorem mem_unreturned_or {c : Char} (member : c ∈ cs) : c = '\r' ∨ c ∈ unreturned cs := by
  by_cases return_ : c = '\r'
  · exact .inl return_
  · exact .inr (List.mem_filter.mpr ⟨member, bne_iff_ne.mpr return_⟩)

private theorem forall_blank_of_unreturned (blank : ∀ c ∈ unreturned cs, Text.isBlank c) :
    ∀ c ∈ cs, Text.isBlank c := by
  intro c member
  rcases mem_unreturned_or member with rfl | left
  · exact isBlank_return
  · exact blank c left

/-- Where `from` stands in a text, it stands without the carriage returns in front of it too. -/
theorem exists_from {front' gap' : List Char} {c : Char} (paired : Paired cs)
    (whole : unreturned cs = front' ++ c :: ("from".toList ++ gap')) : ∃ front gap,
      cs = front ++ c :: ("from".toList ++ gap) ∧ unreturned front = front' ∧ unreturned gap = gap' := by
  have behind {cs : List Char} (tail : Paired cs) (starts : unreturned cs = "from".toList ++ gap') :
      ∃ gap, cs = "from".toList ++ gap ∧ unreturned gap = gap' := by
    have steady : SteadyPiece (keyword? "from") cs := keyword?_steady (by decide) tail
    have taken := steady.same
    rw [keyword?_eq_some_iff.mpr starts] at taken
    obtain ⟨gap, found, same⟩ := Option.map_eq_some_iff.mp taken.symm
    exact ⟨gap, keyword?_eq_some_iff.mp found, same⟩
  induction paired generalizing front' with
  | nil => simp [unreturned] at whole
  | @cons d cs other tail ih =>
    rw [unreturned_cons other] at whole
    cases front' with
    | nil =>
      obtain ⟨rfl, starts⟩ := List.cons.inj whole
      obtain ⟨gap, rfl, same⟩ := behind tail starts
      exact ⟨[], gap, rfl, rfl, same⟩
    | cons e front' =>
      obtain ⟨rfl, later⟩ := List.cons.inj whole
      obtain ⟨front, gap, rfl, rfl, same⟩ := ih later
      exact ⟨d :: front, gap, rfl, unreturned_cons other front, same⟩
  | @pair cs tail ih =>
    rw [unreturned_return, unreturned_cons (by decide)] at whole
    cases front' with
    | nil =>
      obtain ⟨rfl, starts⟩ := List.cons.inj whole
      obtain ⟨gap, rfl, same⟩ := behind tail starts
      exact ⟨['\r'], gap, rfl, rfl, same⟩
    | cons e front' =>
      obtain ⟨rfl, later⟩ := List.cons.inj whole
      obtain ⟨front, gap, rfl, rfl, same⟩ := ih later
      exact ⟨'\r' :: '\n' :: front, gap, rfl, rfl, same⟩

private theorem IsClause.of_unreturned {front gap : List Char} {c : Char}
    (isClause : IsClause (unreturned front) c (unreturned gap)) : IsClause front c gap := by
  constructor
  · exact Nat.le_trans isClause.long (List.length_filter_le ..)
  · have starts := isClause.starts
    cases front with
    | nil => cases starts
    | cons d front =>
      by_cases return_ : d = '\r'
      · subst return_
        exact isBlank_return
      · rw [unreturned_cons return_] at starts
        exact starts
  · exact isClause.blank
  · rintro rfl
    exact isClause.gap_ne_nil rfl
  · exact forall_blank_of_unreturned isClause.gap_blank

/-- A clause starts with the same blank, or with a newline. -/
theorem IsClause.exists_unreturned {front gap : List Char} {c : Char} (isClause : IsClause front c gap)
    (paired : Paired (front ++ c :: ("from".toList ++ gap))) :
    ∃ b more, unreturned front = b :: more ∧ Text.isBlank b := by
  have long := isClause.long
  have starts := isClause.starts
  match front with
  | [] => cases starts
  | [_] => exact absurd long (Nat.lt_irrefl 1)
  | d :: e :: more =>
    by_cases return_ : d = '\r'
    · subst return_
      obtain ⟨rest, whole⟩ := Paired.newline paired
      obtain ⟨rfl, -⟩ := List.cons.inj whole
      exact ⟨'\n', unreturned more, rfl, by decide⟩
    · exact ⟨d, _, unreturned_cons return_ _, starts⟩

/-- A clause that is none without its carriage returns imports nothing but two blanks. -/
theorem IsClause.unreturned_or {front gap : List Char} {c : Char} (isClause : IsClause front c gap)
    (paired : Paired (front ++ c :: ("from".toList ++ gap))) (solid : c ≠ '\r') :
    IsClause (unreturned front) c (unreturned gap) ∨
      (∀ d ∈ front ++ [c], Text.isBlank d) ∧ '\r' ∈ front ++ [c] ∧ (unreturned (front ++ [c])).length = 2 := by
  obtain ⟨b, more, shape, blank⟩ := isClause.exists_unreturned paired
  by_cases long : 2 ≤ (unreturned front).length
  · left
    refine ⟨long, by rw [shape]; exact blank, isClause.blank, ?_, forall_mem_unreturned isClause.gap_blank⟩
    intro empty
    have paired_gap : Paired gap := paired.behind.tail.behind
    exact isClause.gap_ne_nil (paired_gap.eq_nil empty)
  · right
    obtain rfl : more = [] := by
      rw [shape, List.length_cons] at long
      apply List.eq_nil_of_length_eq_zero
      omega
    have alone : unreturned (front ++ [c]) = [b, c] := by
      rw [unreturned_append, shape, unreturned_cons solid]
      rfl
    refine ⟨forall_blank_of_unreturned ?_, ?_, by rw [alone]; rfl⟩
    · rw [alone]
      exact List.forall_mem_cons.mpr ⟨blank, List.forall_mem_singleton.mpr isClause.blank⟩
    · by_contra absent
      have whole : front ++ [c] = [b, c] := by rw [← alone, unreturned_eq_self absent]
      have length := congrArg List.length whole
      rw [List.length_append, List.length_singleton] at length
      exact absurd isClause.long (by simp only [List.length_cons, List.length_nil] at length; omega)

private theorem endsInFrom_unreturned {clause : List Char} (paired : Paired clause)
    (roomy : ¬ ∃ gap rest, clause = gap ++ ("from".toList ++ rest) ∧ (∀ c ∈ gap, Text.isBlank c) ∧ '\r' ∈ gap ∧
      (unreturned gap).length = 2) : endsInFrom (unreturned clause) = endsInFrom clause := by
  rw [Bool.eq_iff_iff, endsInFrom_iff, endsInFrom_iff]
  constructor
  · rintro ⟨front', c, gap', whole, isClause⟩
    obtain ⟨front, gap, rfl, rfl, rfl⟩ := exists_from paired whole
    exact ⟨front, c, gap, rfl, isClause.of_unreturned⟩
  · rintro ⟨front, c, gap, rfl, isClause⟩
    have solid : c ≠ '\r' := by
      rintro rfl
      obtain ⟨rest, whole⟩ := Paired.newline paired.behind
      exact absurd (List.cons.inj whole).1 (by decide)
    have from_eq : unreturned "from".toList = "from".toList := unreturned_eq_self (by decide)
    rcases isClause.unreturned_or paired solid with kept | ⟨blank, ends, two⟩
    · refine ⟨_, c, _, ?_, kept⟩
      rw [unreturned_append, unreturned_cons solid, unreturned_append, from_eq]
    · exact absurd ⟨front ++ [c], gap, by rw [List.append_assoc]; rfl, blank, ends, two⟩ roomy

/-- A statement with a clause is found with carriage returns and without, unless that leaves one blank where there were
two. -/
theorem namesFrom?_steady {word : String} (inLine : '\n' ∉ word.toList ∧ '\r' ∉ word.toList) (paired : Paired cs)
    (roomy : ¬ Crowded word cs) : Steady id (namesFrom? word) cs := by
  have clause : SteadyPiece (fun cs => keyword? word cs >>= clause?) cs := by
    refine (keyword?_steady inLine paired).bind paired fun rest taken paired => ?_
    have inside : Paired (rest.takeWhile inClause) := paired.takeWhile (by decide)
    have same : endsInFrom (unreturned (rest.takeWhile inClause)) = endsInFrom (rest.takeWhile inClause) := by
      apply endsInFrom_unreturned inside
      rintro ⟨gap, more, whole, blank, ends, two⟩
      refine roomy ⟨gap, more ++ rest.dropWhile inClause, ?_, blank, ends, two⟩
      rw [← List.append_assoc "from".toList, ← List.append_assoc gap, ← whole, List.takeWhile_append_dropWhile]
      exact keyword?_eq_some_iff.mp taken
    constructor
    · intro left taken
      obtain ⟨-, same⟩ := Option.ite_none_right_eq_some.mp taken
      obtain rfl := Option.some.inj same
      exact List.dropWhile_suffix inClause
    · unfold clause?
      rw [takeWhile_unreturned (by decide) paired, dropWhile_unreturned (by decide) paired, same]
      split <;> rfl
  rw [namesFrom?_eq]
  exact Steady.bind clause paired fun _ _ => quotedText?_steady

end ReviewContext.Source.Imports
