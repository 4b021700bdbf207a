import ReviewContext.Proofs.Source.Ends
import ReviewContext.Source.Stripped

/-! # Carriage returns

A source may end its lines with a newline or with a carriage return and a newline. Where no backslash takes the one or
the other along, the source is cut into the same tokens but for the carriage returns in them: one stands in a literal
or a comment if the newline does, or if the newline ends it, and else it is code. So a stripped source has a
carriage return in front of some of its newlines, and without them it is what it would be without them in the source.
-/

namespace ReviewContext.Source

/-! ## Texts with carriage returns -/

/-- A text with a carriage return in front of each newline. -/
def returned (cs : List Char) : List Char :=
  cs.flatMap fun c => if c = '\n' then ['\r', '\n'] else [c]

/-- A text without its carriage returns. -/
def unreturned (cs : List Char) : List Char :=
  cs.filter (· != '\r')

/-- A carriage return stands in front of newlines only. -/
inductive Paired : List Char → Prop
  | nil : Paired []
  | cons {c : Char} {cs : List Char} (other : c ≠ '\r') (tail : Paired cs) : Paired (c :: cs)
  | pair {cs : List Char} (tail : Paired cs) : Paired ('\r' :: '\n' :: cs)

variable {c : Char} {cs ds : List Char}

private theorem returned_cons (other : c ≠ '\n') (cs : List Char) : returned (c :: cs) = c :: returned cs := by
  rw [returned, List.flatMap_cons, if_neg other]
  rfl

private theorem returned_newline (cs : List Char) : returned ('\n' :: cs) = '\r' :: '\n' :: returned cs :=
  rfl

private theorem returned_append (cs ds : List Char) : returned (cs ++ ds) = returned cs ++ returned ds :=
  List.flatMap_append

private theorem returned_eq_self (inLine : '\n' ∉ cs) : returned cs = cs := by
  induction cs with
  | nil => rfl
  | cons c cs ih =>
    obtain ⟨other, inLine⟩ := not_or.mp (mt List.mem_cons.mpr inLine)
    rw [returned_cons (Ne.symm other), ih inLine]

private theorem getLast?_returned (cs : List Char) : (returned cs).getLast? = cs.getLast? := by
  rcases List.eq_nil_or_concat' cs with rfl | ⟨cs, c, rfl⟩
  · rfl
  · rw [returned_append, List.getLast?_append_of_ne_nil, List.getLast?_concat]
    · by_cases newline : c = '\n' <;> simp [returned, newline]
    · by_cases newline : c = '\n' <;> simp [returned, newline]

theorem unreturned_cons (other : c ≠ '\r') (cs : List Char) : unreturned (c :: cs) = c :: unreturned cs :=
  List.filter_cons_of_pos (by simpa using other)

theorem unreturned_return (cs : List Char) : unreturned ('\r' :: cs) = unreturned cs :=
  List.filter_cons_of_neg (by decide)

theorem unreturned_append (cs ds : List Char) : unreturned (cs ++ ds) = unreturned cs ++ unreturned ds :=
  List.filter_append ..

/-- A text without carriage returns stays as it is. -/
theorem unreturned_eq_self (absent : '\r' ∉ cs) : unreturned cs = cs := by
  apply List.filter_eq_self.mpr
  intro c member
  rw [bne_iff_ne]
  rintro rfl
  exact absent member

private theorem unreturned_returned (absent : '\r' ∉ cs) : unreturned (returned cs) = cs := by
  induction cs with
  | nil => rfl
  | cons c cs ih =>
    obtain ⟨other, later⟩ := not_or.mp (mt List.mem_cons.mpr absent)
    by_cases newline : c = '\n'
    · subst newline
      rw [returned_newline, unreturned_return, unreturned_cons (by decide), ih later]
    · rw [returned_cons newline, unreturned_cons (Ne.symm other), ih later]

private theorem Paired.of_absent (absent : '\r' ∉ cs) : Paired cs := by
  induction cs with
  | nil => exact .nil
  | cons c cs ih =>
    obtain ⟨other, absent⟩ := not_or.mp (mt List.mem_cons.mpr absent)
    exact .cons (Ne.symm other) (ih absent)

private theorem Paired.append (front : Paired cs) (back : Paired ds) : Paired (cs ++ ds) := by
  induction front with
  | nil => exact back
  | cons other tail ih => exact .cons other ih
  | pair tail ih => exact .pair ih

theorem Paired.tail (paired : Paired (c :: cs)) : Paired cs := by
  cases paired with
  | cons other tail => exact tail
  | pair tail => exact .cons (by decide) tail

theorem Paired.behind (paired : Paired (cs ++ ds)) : Paired ds := by
  induction cs with
  | nil => exact paired
  | cons c cs ih => exact ih paired.tail

/-- What a paired text ends in is paired. -/
theorem Paired.suffix (paired : Paired cs) (ends : ds <:+ cs) : Paired ds := by
  obtain ⟨front, rfl⟩ := ends
  exact paired.behind

private theorem paired_returned (absent : '\r' ∉ cs) : Paired (returned cs) := by
  induction cs with
  | nil => exact .nil
  | cons c cs ih =>
    obtain ⟨other, later⟩ := not_or.mp (mt List.mem_cons.mpr absent)
    by_cases newline : c = '\n'
    · subst newline
      exact .pair (ih later)
    · rw [returned_cons newline]
      exact .cons (Ne.symm other) (ih later)

/-- The marks of the characters that are no carriage returns. -/
def marksLeft : List Char → List Bool → List Bool
  | [], _ => []
  | _, [] => []
  | c :: cs, mark :: marks => if c = '\r' then marksLeft cs marks else mark :: marksLeft cs marks

private theorem marksLeft_append {marks more : List Bool} (same : marks.length = cs.length) :
    marksLeft (cs ++ ds) (marks ++ more) = marksLeft cs marks ++ marksLeft ds more := by
  induction cs generalizing marks with
  | nil =>
    obtain rfl := List.eq_nil_of_length_eq_zero same
    rfl
  | cons c cs ih =>
    cases marks with
    | nil => cases same
    | cons mark marks =>
      rw [List.cons_append, List.cons_append, marksLeft, marksLeft, ih (Nat.succ.inj same)]
      split <;> rfl

private theorem marksLeft_alike (cs : List Char) (mark : Bool) :
    marksLeft cs (cs.map fun _ => mark) = (unreturned cs).map fun _ => mark := by
  induction cs with
  | nil => rfl
  | cons c cs ih =>
    rw [List.map_cons, marksLeft, ih]
    by_cases return_ : c = '\r'
    · rw [if_pos return_, return_, unreturned_return]
    · rw [if_neg return_, unreturned_cons return_, List.map_cons]

/-! ## Tokens with carriage returns -/

open Token

variable {style : CommentStyle} {found other : List Token}

/-- What is left of `other` is what is left of `found`, with a carriage return in front of some newlines. -/
structure SameLines (found other : List Token) : Prop where
  paired : Paired (other.flatMap kept)
  text : unreturned (other.flatMap kept) = found.flatMap kept
  marks : marksLeft (other.flatMap kept) (quotation other) = quotation found

namespace SameLines

private theorem nil : SameLines [] [] :=
  ⟨.nil, rfl, rfl⟩

private theorem append {found' other' : List Token} (front : SameLines found other) (back : SameLines found' other') :
    SameLines (found ++ found') (other ++ other') := by
  constructor
  · rw [List.flatMap_append]
    exact front.paired.append back.paired
  · rw [List.flatMap_append, List.flatMap_append, unreturned_append, front.text, back.text]
  · have length : (quotation other).length = (other.flatMap kept).length := by
      rw [quotation, List.length_flatMap, List.length_flatMap]
      simp only [List.length_map]
    rw [List.flatMap_append, quotation, List.flatMap_append, ← quotation, ← quotation, marksLeft_append length,
      front.marks, back.marks, quotation, quotation, quotation, List.flatMap_append]

/-- Each of the two has one token, and both are literals or none is. -/
theorem single {token token' : Token} (literal : token'.isLiteral = token.isLiteral) (paired : Paired token'.kept)
    (text : unreturned token'.kept = token.kept) : SameLines [token] [token'] := by
  constructor
  · simpa using paired
  · simpa using text
  · simp only [quotation, List.flatMap_cons, List.flatMap_nil, List.append_nil, marksLeft_alike, text, literal]

private theorem same {token token' : Token} (literal : token'.isLiteral = token.isLiteral) (absent : '\r' ∉ token.kept)
    (kept : token'.kept = token.kept) : SameLines [token] [token'] := by
  apply single literal
  · rw [kept]
    exact .of_absent absent
  · rw [kept, unreturned_eq_self absent]

private theorem newline : SameLines [.code '\n'] [.code '\r', .code '\n'] :=
  ⟨.pair .nil, rfl, rfl⟩

/-- A literal that a newline ends has the carriage return in it. -/
theorem cut_off {text : List Char} (absent : '\r' ∉ text) :
    SameLines [.literal text, .code '\n'] [.literal (text ++ ['\r']), .code '\n'] := by
  have same := unreturned_eq_self absent
  have whole : [Token.literal (text ++ ['\r']), .code '\n'].flatMap kept = (text ++ ['\r']) ++ ['\n'] := by
    rw [List.flatMap_cons, List.flatMap_singleton]
    rfl
  have marks : quotation [.literal (text ++ ['\r']), .code '\n'] =
      ((text ++ ['\r']).map fun _ => true) ++ [false] := by
    rw [quotation, List.flatMap_cons, List.flatMap_singleton]
    rfl
  constructor
  · have front : Paired text := .of_absent absent
    rw [whole, List.append_assoc]
    exact front.append (.pair .nil)
  · rw [whole, unreturned_append, unreturned_append, same, List.append_assoc, List.flatMap_cons,
      List.flatMap_singleton]
    rfl
  · rw [marks, whole, marksLeft_append (List.length_map _), marksLeft_alike, unreturned_append, same, quotation,
      List.flatMap_cons, List.flatMap_singleton, List.map_append, List.append_assoc]
    rfl

end SameLines

/-! ## How far a token goes -/

section Length

variable {marker : List Char} {quote : Char}

private theorem isPrefixOf_returned (newline : '\n' ∉ marker) (return_ : '\r' ∉ marker) (cs : List Char) :
    marker.isPrefixOf (returned cs) = marker.isPrefixOf cs := by
  induction marker generalizing cs with
  | nil => rfl
  | cons mark marker ih =>
    obtain ⟨newline_ne, newline⟩ := not_or.mp (mt List.mem_cons.mpr newline)
    obtain ⟨return_ne, return_⟩ := not_or.mp (mt List.mem_cons.mpr return_)
    cases cs with
    | nil => rfl
    | cons c cs =>
      by_cases ends : c = '\n'
      · subst ends
        rw [returned_newline, List.isPrefixOf_cons_cons, List.isPrefixOf_cons_cons,
          beq_false_of_ne (Ne.symm newline_ne), beq_false_of_ne (Ne.symm return_ne)]
        rfl
      · rw [returned_cons ends, List.isPrefixOf_cons_cons, List.isPrefixOf_cons_cons, ih newline return_]

private theorem head?_returned (newline : c ≠ '\n') (return_ : c ≠ '\r') (cs : List Char) :
    (returned cs).head? = some c ↔ cs.head? = some c := by
  cases cs with
  | nil => rfl
  | cons d cs =>
    by_cases ends : d = '\n'
    · subst ends
      simp [returned_newline, newline.symm, return_.symm]
    · rw [returned_cons ends]
      rfl

private theorem docstringLength_returned (newline : quote ≠ '\n') (return_ : quote ≠ '\r') (cs : List Char) :
    docstringLength quote (returned cs) = (returned (cs.take (docstringLength quote cs))).length := by
  have absent {c : Char} (other : quote ≠ c) : c ∉ [quote, quote, quote] := by simp [Ne.symm other]
  induction cs with
  | nil => rfl
  | cons c cs ih =>
    by_cases ends : c = '\n'
    · subst ends
      have inside (d : Char) (other : quote ≠ d) (ds : List Char) :
          docstringLength quote (d :: ds) = docstringLength quote ds + 1 := by
        rw [docstringLength, if_neg]
        simp [other]
      rw [returned_newline, inside _ return_, inside _ newline, inside _ newline, ih, List.take_succ_cons,
        returned_newline]
      rfl
    · have closes := isPrefixOf_returned (absent newline) (absent return_) (c :: cs)
      rw [returned_cons ends] at closes ⊢
      rw [docstringLength, docstringLength, closes]
      split
      · next closed =>
        obtain ⟨more, whole⟩ := List.isPrefixOf_iff_prefix.mp closed
        have taken : ([quote, quote, quote] ++ more).take 3 = [quote, quote, quote] := rfl
        rw [← whole, taken, returned_eq_self (absent newline)]
        rfl
      · rw [ih, List.take_succ_cons, returned_cons ends]
        rfl

private theorem blockLength_other {nested : Bool} {depth : Nat} (open_ : c = '*' → cs.head? ≠ some '/')
    (code : nested → c = '/' → cs.head? ≠ some '*') :
    blockLength nested depth (c :: cs) = blockLength nested depth cs + 1 := by
  cases cs with
  | nil => rfl
  | cons d cs =>
    simp only [blockLength]
    rw [if_neg, if_neg]
    · rintro ⟨inner, rfl, rfl⟩
      exact code inner rfl rfl
    · rintro ⟨rfl, rfl⟩
      exact open_ rfl rfl

private theorem blockLength_returned (nested : Bool) (depth : Nat) (cs : List Char) :
    blockLength nested depth (returned cs) = (returned (cs.take (blockLength nested depth cs))).length := by
  induction depth, cs using blockLength.induct nested with
  | case1 => rfl
  | case2 depth c =>
    by_cases ends : c = '\n'
    · subst ends
      rw [returned_newline, blockLength_char (by decide) (by decide)]
      rfl
    · rw [returned_cons ends]
      exact congrArg List.length (returned_cons ends []).symm
  | case3 a b cs closes =>
    obtain ⟨rfl, rfl⟩ := closes
    rfl
  | case4 a b cs closes outer ih =>
    obtain ⟨rfl, rfl⟩ := closes
    exact congrArg (· + 2) ih
  | case5 depth a b cs open_ opens ih =>
    obtain ⟨inner, rfl, rfl⟩ := opens
    subst inner
    exact congrArg (· + 2) ih
  | case6 depth a b cs open_ code ih =>
    have step : blockLength nested depth (a :: b :: cs) = blockLength nested depth (b :: cs) + 1 := by
      simp only [blockLength, if_neg open_, if_neg code]
    rw [step, List.take_succ_cons]
    by_cases ends : a = '\n'
    · subst ends
      have first : blockLength nested depth ('\r' :: '\n' :: returned (b :: cs)) =
          blockLength nested depth ('\n' :: returned (b :: cs)) + 1 := blockLength_char (by decide) (by decide) _
      rw [returned_newline, returned_newline, first, blockLength_char (by decide) (by decide), ih]
      rfl
    · rw [returned_cons ends, returned_cons ends, blockLength_other, ih]
      · rfl
      · rintro rfl next
        rw [head?_returned (by decide) (by decide)] at next
        exact open_ ⟨rfl, Option.some.inj next⟩
      · rintro inner rfl next
        rw [head?_returned (by decide) (by decide)] at next
        exact code ⟨inner, rfl, Option.some.inj next⟩

/-- A literal ends where it ended, or it takes the carriage return of the newline that ends it. -/
theorem Ended.returned {multiline : Bool} {body rest : List Char} (ended : Ended quote multiline body rest)
    (plain : '\\' ∉ body) (newline : quote ≠ '\n') (return_ : quote ≠ '\r') :
    Ended quote multiline (returned body) (returned rest) ∨
      multiline = false ∧ '\n' ∉ body ∧ ∃ more, rest = '\n' :: more ∧
        Ended quote multiline (body ++ ['\r']) ('\n' :: Source.returned more) := by
  have inside {body rest : List Char} (tail : Ended quote multiline body rest) :
      Ended quote multiline ('\r' :: body) rest :=
    .plain (by decide) return_.symm (fun same => absurd same (by decide)) tail
  induction ended with
  | quoted rest =>
    left
    rw [returned_cons newline]
    exact .quoted _
  | lineEnd short rest => exact .inr ⟨short, List.not_mem_nil, rest, rfl, inside (.lineEnd short _)⟩
  | sourceEnd => exact .inl .sourceEnd
  | danglingEscape => exact absurd List.mem_cons_self plain
  | escaped => exact absurd List.mem_cons_self plain
  | @plain c body rest solid other sameLine tail ih =>
    obtain ⟨-, plain⟩ := not_or.mp (mt List.mem_cons.mpr plain)
    rcases ih plain with ended | ⟨short, inLine, more, rfl, ended⟩
    · left
      by_cases ends : c = '\n'
      · subst ends
        exact inside (.plain solid other sameLine ended)
      · rw [returned_cons ends]
        exact .plain solid other sameLine ended
    · right
      have inside : c ≠ '\n' := fun ends => Bool.false_ne_true (short.symm.trans (sameLine ends))
      exact ⟨short, by simp [inside.symm, inLine], more, rfl, .plain solid other sameLine ended⟩

end Length

/-! ## Cutting with carriage returns -/

/-- A carriage return opens no literal and stands in no mark of a comment. -/
structure ReturnFree (style : CommentStyle) : Prop where
  unquoted : '\r' ∉ style.quotes
  unmarked : '\r' ∉ style.lineMarker

/-- In no language does a carriage return open anything. -/
theorem returnFree {language : Language} (known : language.commentStyle? = some style) : ReturnFree style := by
  cases language <;> cases known <;> exact ⟨by decide, by decide⟩

private theorem ReturnFree.inert (free : ReturnFree style) (regular : style.Regular) : Inert style '\r' := by
  obtain ⟨h, more, marker, -⟩ := regular.marker
  have other : h ≠ '\r' := by
    rintro rfl
    exact free.unmarked (marker ▸ List.mem_cons_self)
  exact ⟨free.unquoted, by simp [marker, other], by decide⟩

/-- Where a token of the source with carriage returns ends: where the token ended, or behind the carriage return of
the newline that ended it. -/
inductive Resumed (token token' : Token) (rest rest' : List Char) : Prop
  | same (resumes : rest' = returned rest) (lines : SameLines [token] [token'])
      (last : token'.text.getLast? = token.text.getLast?)
  | newline {more : List Char} (ends : rest = '\n' :: more) (resumes : rest' = '\n' :: returned more)
      (lines : SameLines [token, .code '\n'] [token', .code '\n'])

private theorem newlines_returned (cs : List Char) : newlines (returned cs) = newlines cs := by
  induction cs with
  | nil => rfl
  | cons c cs ih =>
    by_cases ends : c = '\n'
    · subst ends
      exact congrArg ('\n' :: ·) ih
    · rw [returned_cons ends, newlines, newlines, List.filter_cons, List.filter_cons, ← newlines, ← newlines, ih]

private theorem return_not_mem_newlines (cs : List Char) : '\r' ∉ newlines cs := by
  simp [newlines]

/-- Of prose only the newlines are left, and these are the same. -/
theorem SameLines.prose {token token' : Token} {text : List Char} (front : List Char) (absent : '\r' ∉ front)
    (literal : token'.isLiteral = token.isLiteral) (kept_eq : token.kept = front ++ newlines text)
    (kept_eq' : token'.kept = front ++ newlines (returned text)) : SameLines [token] [token'] := by
  apply SameLines.same literal
  · rw [kept_eq, List.mem_append, not_or]
    exact ⟨absent, return_not_mem_newlines text⟩
  · rw [kept_eq, kept_eq', newlines_returned]

private theorem take_returned (cs : List Char) (n : Nat) :
    (returned cs).take (returned (cs.take n)).length = returned (cs.take n) := by
  have whole := returned_append (cs.take n) (cs.drop n)
  rw [List.take_append_drop] at whole
  rw [whole, List.take_left]

section Heads

variable {before rest : List Char} {token : Token}

private theorem insideCharLiteral_returned (before after : List Char) :
    insideCharLiteral before (returned after) = insideCharLiteral before after := by
  rw [insideCharLiteral, insideCharLiteral, isPrefixOf_returned (by decide) (by decide)]

private theorem opensDocstring_returned (source : List Char) :
    opensDocstring (returned source) = opensDocstring source := by
  rw [opensDocstring, opensDocstring, isPrefixOf_returned (by decide) (by decide),
    isPrefixOf_returned (by decide) (by decide)]

private theorem exists_of_opensDocstring (opens : opensDocstring (c :: cs)) : ∃ more, cs = c :: c :: more := by
  rcases (Bool.or_eq_true ..).mp opens with double | single
  · obtain ⟨more, whole⟩ := List.isPrefixOf_iff_prefix.mp double
    cases whole
    exact ⟨more, rfl⟩
  · obtain ⟨more, whole⟩ := List.isPrefixOf_iff_prefix.mp single
    cases whole
    exact ⟨more, rfl⟩

private theorem take_docstring (opens : opensDocstring (c :: cs)) (newline : c ≠ '\n') (return_ : c ≠ '\r') :
    (c :: returned cs).take (docstringLength c ((returned cs).drop 2) + 3) =
      returned ((c :: cs).take (docstringLength c (cs.drop 2) + 3)) := by
  obtain ⟨more, rfl⟩ := exists_of_opensDocstring opens
  have source : returned (c :: c :: more) = c :: c :: returned more := by
    rw [returned_cons newline, returned_cons newline]
  have taken := take_returned more (docstringLength c more)
  rw [← docstringLength_returned newline return_] at taken
  rw [source, List.drop_succ_cons, List.drop_one, List.tail_cons, List.drop_succ_cons, List.drop_one, List.tail_cons]
  simp only [List.take_succ_cons, returned_cons newline, taken]

private theorem take_blockComment (nested : Bool) (opens : ['/', '*'].isPrefixOf (c :: cs)) :
    (c :: returned cs).take (blockLength nested 0 ((returned cs).drop 1) + 2) =
      returned ((c :: cs).take (blockLength nested 0 (cs.drop 1) + 2)) := by
  obtain ⟨more, whole⟩ := List.isPrefixOf_iff_prefix.mp opens
  obtain ⟨rfl, rfl⟩ := List.cons.inj whole
  have taken := take_returned more (blockLength nested 0 more)
  rw [← blockLength_returned] at taken
  exact congrArg ('/' :: '*' :: ·) taken

private theorem takeWhile_line (inLine : '\n' ∉ cs) (more : List Char) :
    (cs ++ '\n' :: more).takeWhile (· != '\n') = cs := by
  rw [List.takeWhile_append_of_pos, List.takeWhile_cons_of_neg (by decide), List.append_nil]
  intro c member
  rw [bne_iff_ne]
  rintro rfl
  exact inLine member

/-- A line comment takes the carriage return of the newline behind it. -/
theorem lineComment_returned
    (whole : c :: cs = (Token.lineComment (c :: cs.takeWhile (· != '\n'))).text ++ rest) : ∃ rest',
      c :: returned cs = (Token.lineComment (c :: (returned cs).takeWhile (· != '\n'))).text ++ rest' ∧
        Resumed (.lineComment (c :: cs.takeWhile (· != '\n')))
          (.lineComment (c :: (returned cs).takeWhile (· != '\n'))) rest rest' := by
  have left : rest = cs.dropWhile (· != '\n') := by
    have both : cs.takeWhile (· != '\n') ++ rest = cs.takeWhile (· != '\n') ++ cs.dropWhile (· != '\n') := by
      rw [List.takeWhile_append_dropWhile]
      exact (List.cons.inj whole).2.symm
    exact List.append_cancel_left both
  have inLine : '\n' ∉ cs.takeWhile (· != '\n') := by
    intro member
    simpa using List.mem_takeWhile_imp member
  have split := (List.cons.inj whole).2
  generalize cs.takeWhile (· != '\n') = line at split inLine ⊢
  change cs = line ++ rest at split
  subst split
  rcases dropWhile_newline (line ++ rest) with ended | ends
  · rw [← left] at ended
    subst ended
    have same := returned_eq_self inLine
    rw [List.append_nil, same, List.takeWhile_eq_self_iff.mpr]
    · exact ⟨[], (List.append_nil _).symm, .same rfl (.same rfl (return_not_mem_newlines _) rfl) rfl⟩
    · intro d member
      rw [bne_iff_ne]
      rintro rfl
      exact inLine member
  · rw [← left] at ends
    obtain ⟨more, rfl⟩ := List.head?_eq_some_iff.mp ends
    have source : returned (line ++ '\n' :: more) = (line ++ ['\r']) ++ '\n' :: returned more := by
      rw [returned_append, returned_newline, returned_eq_self inLine, List.append_assoc]
      rfl
    have inLine' : '\n' ∉ line ++ ['\r'] := by simp [inLine]
    have kept_eq : newlines (c :: (line ++ ['\r'])) = newlines (c :: line) := by
      rw [← List.cons_append, newlines_append]
      exact List.append_nil _
    rw [source, takeWhile_line inLine']
    refine ⟨'\n' :: returned more, rfl, .newline rfl rfl ?_⟩
    have comment : SameLines [.lineComment (c :: line)] [.lineComment (c :: (line ++ ['\r']))] :=
      .same rfl (return_not_mem_newlines _) kept_eq
    exact comment.append (.same rfl (by decide) rfl)

/-- A literal ends where it ended, or takes the carriage return of the newline that ends it. -/
theorem literal_returned {multiline : Bool} (newline : c ≠ '\n') (absent : '\r' ∉ c :: cs) (plain : '\\' ∉ c :: cs)
    (whole : c :: cs = (Token.literal ((c :: cs).take (literalLength c multiline cs + 1))).text ++ rest) : ∃ rest',
      c :: returned cs =
          (Token.literal ((c :: returned cs).take (literalLength c multiline (returned cs) + 1))).text ++ rest' ∧
        Resumed (.literal ((c :: cs).take (literalLength c multiline cs + 1)))
          (.literal ((c :: returned cs).take (literalLength c multiline (returned cs) + 1))) rest rest' := by
  obtain ⟨return_, -⟩ := not_or.mp (mt List.mem_cons.mpr absent)
  obtain ⟨escape, -⟩ := not_or.mp (mt List.mem_cons.mpr plain)
  have ended := literalLength_ended c multiline cs
  simp only [List.take_succ_cons] at whole ⊢
  rw [← eq_drop_of_take (List.cons.inj whole).2] at ended
  have split := (List.cons.inj whole).2
  generalize cs.take (literalLength c multiline cs) = body at split ended ⊢
  change cs = body ++ rest at split
  subst split
  have absent_text : '\r' ∉ c :: body := fun member => absent (List.mem_append_left rest member)
  have plain_body : '\\' ∉ body := fun member => plain (List.mem_cons_of_mem c (List.mem_append_left rest member))
  rcases ended.returned plain_body newline (Ne.symm return_) with ended' | ⟨-, inLine, more, rfl, ended'⟩
  · have length := ended'.literalLength_eq (Ne.symm escape) newline
    have text_eq : returned (c :: body) = c :: returned body := returned_cons newline body
    rw [returned_append, length, List.take_left, ← text_eq]
    refine ⟨returned rest, ?_, .same rfl (.single rfl (paired_returned absent_text) ?_) (getLast?_returned _)⟩
    · rw [Token.text, text_eq, List.cons_append]
    · exact unreturned_returned absent_text
  · have length := ended'.literalLength_eq (Ne.symm escape) newline
    have source : returned (body ++ '\n' :: more) = (body ++ ['\r']) ++ '\n' :: returned more := by
      rw [returned_append, returned_newline, returned_eq_self inLine, List.append_assoc]
      rfl
    rw [source, length, List.take_left]
    exact ⟨'\n' :: returned more, rfl, .newline rfl rfl (.cut_off absent_text)⟩

/-- The token at the head of the source with carriage returns. -/
theorem Token.Heads.returned (heads : Heads style before c cs token) (regular : style.Regular) (free : ReturnFree style)
    (whole : c :: cs = token.text ++ rest) (newline : c ≠ '\n') (absent : '\r' ∉ c :: cs) (plain : '\\' ∉ c :: cs) :
    ∃ token' rest', Heads style before c (Source.returned cs) token' ∧
      c :: Source.returned cs = token'.text ++ rest' ∧ Resumed token token' rest rest' := by
  have source := returned_cons newline cs
  obtain ⟨return_, -⟩ := not_or.mp (mt List.mem_cons.mpr absent)
  have prose_eq : (style.docstrings && opensDocstring (c :: Source.returned cs)) =
      (style.docstrings && opensDocstring (c :: cs)) := by
    rw [← source, opensDocstring_returned]
  have marker_eq : style.lineMarker.isPrefixOf (c :: Source.returned cs) = style.lineMarker.isPrefixOf (c :: cs) := by
    rw [← source, isPrefixOf_returned regular.inLine free.unmarked]
  have block_eq : ['/', '*'].isPrefixOf (c :: Source.returned cs) = ['/', '*'].isPrefixOf (c :: cs) := by
    rw [← source, isPrefixOf_returned (by decide) (by decide)]
  have quote_eq := insideCharLiteral_returned before cs
  have whole' {token' : Token} (text_eq : token'.text = Source.returned token.text) :
      c :: Source.returned cs = token'.text ++ Source.returned rest := by
    rw [text_eq, ← returned_append, ← whole, source]
  have last {token' : Token} (text_eq : token'.text = Source.returned token.text) :
      token'.text.getLast? = token.text.getLast? := by
    rw [text_eq, getLast?_returned]
  cases heads with
  | docstring opens =>
    have text_eq := take_docstring ((Bool.and_eq_true ..).mp opens).2 newline (Ne.symm return_)
    refine ⟨_, _, .docstring (prose_eq ▸ opens), whole' text_eq, .same rfl ?_ (last text_eq)⟩
    rw [text_eq]
    exact .prose [] List.not_mem_nil rfl rfl rfl
  | lineComment prose opens =>
    obtain ⟨rest', left, resumed⟩ := lineComment_returned whole
    exact ⟨_, rest', .lineComment (prose_eq ▸ prose) (marker_eq ▸ opens), left, resumed⟩
  | blockComment prose unmarked opens =>
    have text_eq := take_blockComment (style.blocks = .nested) ((Bool.and_eq_true ..).mp opens).2
    refine ⟨_, _, .blockComment (prose_eq ▸ prose) (marker_eq ▸ unmarked) (block_eq ▸ opens), whole' text_eq,
      .same rfl ?_ (last text_eq)⟩
    rw [text_eq]
    exact .prose [' '] (by decide) rfl rfl rfl
  | literal prose unmarked unblocked opens =>
    obtain ⟨rest', left, resumed⟩ := literal_returned newline absent plain whole
    exact ⟨_, rest', .literal (prose_eq ▸ prose) (marker_eq ▸ unmarked) (block_eq ▸ unblocked) (quote_eq ▸ opens),
      left, resumed⟩
  | code prose unmarked unblocked unquoted =>
    have text_eq : [c] = Source.returned [c] := (returned_cons newline []).symm
    refine ⟨_, _, .code (prose_eq ▸ prose) (marker_eq ▸ unmarked) (block_eq ▸ unblocked) (quote_eq ▸ unquoted),
      whole' text_eq, .same rfl ?_ (last text_eq)⟩
    exact .same rfl (by simpa [kept] using return_) rfl

end Heads

variable {before rest : List Char}

/-- What stands in front of a text is cut off by its last character. -/
theorem cut_last {text : List Char} {d : Char} (last : text.getLast? = some d) (solid : d ≠ '\\') :
    cut style (text.reverse ++ before) rest = cut style [d] rest := by
  obtain ⟨front, rfl⟩ := List.getLast?_eq_some_iff.mp last
  rw [List.reverse_concat]
  exact cut_behind solid [] _ [] rest

private theorem cut_returned_newline (regular : style.Regular) (free : ReturnFree style) (before cs : List Char) :
    cut style before (returned ('\n' :: cs)) = .code '\r' :: .code '\n' :: cut style ['\n'] (returned cs) := by
  have inert := free.inert regular
  have code : '\r' :: '\n' :: returned cs = (Token.code '\r').text ++ '\n' :: returned cs := rfl
  rw [returned_newline, cut_of_first (inert.first before _) code, cut_newline regular]

/-- Without a backslash, a source is cut into the same tokens with a carriage return in front of each newline. -/
theorem cut_returned (regular : style.Regular) (free : ReturnFree style) (before : List Char) {cs : List Char}
    (absent : '\r' ∉ cs) (plain : '\\' ∉ cs) :
    SameLines (cut style before cs) (cut style before (returned cs)) := by
  match cs with
  | [] =>
    rw [returned, List.flatMap_nil, cut_nil]
    exact .nil
  | c :: cs =>
    obtain ⟨-, absent_later⟩ := not_or.mp (mt List.mem_cons.mpr absent)
    obtain ⟨-, plain_later⟩ := not_or.mp (mt List.mem_cons.mpr plain)
    by_cases newline : c = '\n'
    · subst newline
      rw [cut_returned_newline regular free, cut_newline regular]
      exact SameLines.newline.append (cut_returned regular free ['\n'] absent_later plain_later)
    · have whole := (first_text_append style before c cs).symm
      have shorter := first_text_length_pos style before c cs
      have head := heads style before c cs
      generalize first_eq : first style before c cs = token at whole shorter head
      generalize left : (c :: cs).drop token.text.length = rest at whole
      have later {d : Char} (member : d ∉ c :: cs) : d ∉ rest := by
        rw [whole] at member
        exact fun inside => member (List.mem_append_right _ inside)
      have length : rest.length < cs.length + 1 := by
        rw [← left, List.length_drop, List.length_cons]
        omega
      obtain ⟨token', rest', head', whole', resumed⟩ := head.returned regular free whole newline absent plain
      rw [returned_cons newline, cut_of_first first_eq whole, cut_of_first head'.eq whole']
      cases resumed with
      | same resumes lines last =>
        subst resumes
        have ends := List.getLast?_eq_some_getLast (List.ne_nil_of_length_pos shorter)
        generalize token.text.getLast _ = d at ends
        have solid : d ≠ '\\' := by
          rintro rfl
          exact plain (whole ▸ List.mem_append_left _ (List.mem_of_getLast? ends))
        rw [cut_last ends solid, cut_last (last.trans ends) solid]
        exact lines.append (cut_returned regular free [d] (later absent) (later plain))
      | @newline more ends resumes lines =>
        subst ends resumes
        rw [cut_newline regular, cut_newline regular]
        have inner {d : Char} (member : d ∉ c :: cs) : d ∉ more :=
          fun inside => later member (List.mem_cons_of_mem _ inside)
        exact lines.append (cut_returned regular free ['\n'] (inner absent) (inner plain))
termination_by cs.length
decreasing_by
  all_goals
    simp only [List.length_cons] at *
    omega

end ReviewContext.Source
