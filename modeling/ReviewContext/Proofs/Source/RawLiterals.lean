import Mathlib.Data.List.Induction
import ReviewContext.Proofs.Source.StrippedAgain
import ReviewContext.Proofs.Source.Unfinished

/-! # Literals without escapes

Some literals know no escapes: those of Go in back quotes and those of Rust between number signs. They are cut as any
other literal is, so their closing quote ends them just if every quote in front of it is behind an odd number of
backslashes, and it is behind an even number itself. Where it does, the text behind is cut as code.
-/

namespace ReviewContext.Source

open Token

/-! ## What a backslash takes along -/

/-- How many backslashes a text ends with. -/
def backslashes (front : List Char) : Nat :=
  (front.reverse.takeWhile (· == '\\')).length

/-- The last backslash of the text takes the next character along, for none takes that backslash along. -/
def Escaping (front : List Char) : Prop :=
  backslashes front % 2 = 1

instance (front : List Char) : Decidable (Escaping front) :=
  inferInstanceAs (Decidable (_ = _))

/-- Behind an opening quote the text ends no literal, and would let a quote behind it end one. -/
structure LeavesOpen (quote : Char) (body : List Char) : Prop where
  inside : ∀ front back, body = front ++ quote :: back → Escaping front
  behind : ¬ Escaping body

variable {quote c : Char} {front body cs rest : List Char}

private theorem backslashes_concat (front : List Char) (c : Char) :
    backslashes (front ++ [c]) = if c = '\\' then backslashes front + 1 else 0 := by
  unfold backslashes
  rw [List.reverse_concat, List.takeWhile_cons]
  by_cases escape : c = '\\' <;> simp [escape]

private theorem escaping_concat (front : List Char) (c : Char) :
    Escaping (front ++ [c]) ↔ c = '\\' ∧ ¬ Escaping front := by
  unfold Escaping
  rw [backslashes_concat]
  split
  · next escape =>
    rw [and_iff_right escape]
    omega
  · next solid =>
    rw [iff_false_right (fun both => solid both.1)]
    decide

/-- From its front a text is looked at two characters at a time where a backslash stands. -/
theorem escaping_cons (solid : c ≠ '\\') (front : List Char) : Escaping (c :: front) ↔ Escaping front := by
  induction front using List.reverseRecOn with
  | nil => simp [Escaping, backslashes, solid]
  | append_singleton front d ih => rw [← List.cons_append, escaping_concat, escaping_concat, ih]

private theorem escaping_escaped (c : Char) (front : List Char) : Escaping ('\\' :: c :: front) ↔ Escaping front := by
  induction front using List.reverseRecOn with
  | nil =>
    rw [show ['\\', c] = ['\\'] ++ [c] from rfl, escaping_concat]
    simp [Escaping, backslashes]
  | append_singleton front d ih => rw [← List.cons_append, ← List.cons_append, escaping_concat, escaping_concat, ih]

private theorem leavesOpen_nil (quote : Char) : LeavesOpen quote [] := by
  constructor
  · intro front back whole
    cases front <;> cases whole
  · decide

private theorem leavesOpen_cons (solid : c ≠ '\\') : LeavesOpen quote (c :: cs) ↔ c ≠ quote ∧ LeavesOpen quote cs := by
  constructor
  · intro leaves
    refine ⟨?_, ?_, ?_⟩
    · rintro rfl
      exact absurd (leaves.inside [] cs rfl) (by decide)
    · intro front back whole
      exact (escaping_cons solid front).mp (leaves.inside (c :: front) back (by rw [whole, List.cons_append]))
    · exact mt (escaping_cons solid cs).mpr leaves.behind
  · rintro ⟨other, leaves⟩
    constructor
    · intro front back whole
      cases front with
      | nil => exact absurd (List.cons.inj whole).1 other
      | cons d front =>
        obtain ⟨rfl, later⟩ : c = d ∧ cs = front ++ quote :: back := by simpa using whole
        exact (escaping_cons solid front).mpr (leaves.inside front back later)
    · exact mt (escaping_cons solid cs).mp leaves.behind

private theorem leavesOpen_escaped (escape : quote ≠ '\\') :
    LeavesOpen quote ('\\' :: c :: cs) ↔ LeavesOpen quote cs := by
  constructor
  · intro leaves
    constructor
    · intro front back whole
      apply (escaping_escaped c front).mp
      exact leaves.inside ('\\' :: c :: front) back (by rw [whole, List.cons_append, List.cons_append])
    · exact mt (escaping_escaped c cs).mpr leaves.behind
  · intro leaves
    constructor
    · intro front back whole
      match front with
      | [] => exact absurd (List.cons.inj whole).1.symm escape
      | ['\\'] => decide
      | [d] =>
        obtain ⟨rfl, -⟩ := List.cons.inj whole
        decide
      | d :: e :: front =>
        obtain ⟨rfl, rfl, later⟩ : '\\' = d ∧ c = e ∧ cs = front ++ quote :: back := by simpa using whole
        exact (escaping_escaped c front).mpr (leaves.inside front back later)
    · exact mt (escaping_escaped c cs).mp leaves.behind

/-! ## Where the closing quote ends the literal -/

private theorem ended_nil_iff : Ended quote true [] rest ↔ rest = [] := by
  constructor
  · intro ended
    cases ended with
    | lineEnd short => cases short
    | sourceEnd => rfl
  · rintro rfl
    exact .sourceEnd

private theorem ended_escaped_iff (escape : quote ≠ '\\') :
    Ended quote true ('\\' :: c :: body) rest ↔ Ended quote true body rest := by
  constructor
  · intro ended
    cases ended with
    | escaped _ tail => exact tail
    | plain solid => exact absurd rfl solid
  · exact .escaped c

private theorem ended_cons_iff (solid : c ≠ '\\') (more : body ≠ []) :
    Ended quote true (c :: body) rest ↔ c ≠ quote ∧ Ended quote true body rest := by
  constructor
  · intro ended
    cases ended with
    | quoted => exact absurd rfl more
    | danglingEscape => exact absurd rfl more
    | escaped => exact absurd rfl solid
    | plain _ inside _ tail => exact ⟨inside, tail⟩
  · rintro ⟨inside, tail⟩
    exact .plain solid inside (fun _ => rfl) tail

/-- A quote ends the literal in which it stands, if the text in front of it leaves the literal open. At the end of the
source there is nothing else that the literal could end with. -/
theorem ended_quote_iff (escape : quote ≠ '\\') (body : List Char) (last : rest = [] → quote ∉ body) :
    Ended quote true (body ++ [quote]) rest ↔ rest = [] ∨ LeavesOpen quote body := by
  match body with
  | [] =>
    apply iff_of_true
    · exact .quoted rest
    · exact .inr (leavesOpen_nil quote)
  | c :: cs =>
    by_cases solid : c = '\\'
    · subst solid
      match cs with
      | [] =>
        have closed : ¬ LeavesOpen quote ['\\'] := fun leaves => leaves.behind (by decide)
        rw [List.singleton_append, ended_escaped_iff escape, ended_nil_iff, or_iff_left closed]
      | d :: ds =>
        have later := ended_quote_iff escape ds fun none member =>
          last none (List.mem_cons_of_mem _ (List.mem_cons_of_mem _ member))
        rw [List.cons_append, List.cons_append, ended_escaped_iff escape, leavesOpen_escaped escape, later]
    · have later := ended_quote_iff escape cs fun none member => last none (List.mem_cons_of_mem _ member)
      have other : rest = [] → c ≠ quote := by
        rintro none rfl
        exact last none List.mem_cons_self
      rw [List.cons_append, ended_cons_iff solid (by simp), leavesOpen_cons solid, later]
      constructor
      · rintro ⟨inside, none | leaves⟩
        · exact .inl none
        · exact .inr ⟨inside, leaves⟩
      · rintro (none | leaves)
        · exact ⟨other none, .inl none⟩
        · exact ⟨leaves.1, .inr leaves.2⟩
/-! ## Cutting a raw literal -/

/-- Cutting comes from `text` to `rest` over one literal. -/
def CutsLiteral (style : CommentStyle) (text literal rest : List Char) : Prop :=
  ∃ found later, tokens style (text ++ (literal ++ rest)) = found ++ .literal literal :: later ∧
    found.flatMap Token.text = text

variable {style : CommentStyle} {text : List Char}

private theorem CutsLiteral.boundary {literal : List Char} (cuts : CutsLiteral style text literal rest) :
    Boundary style (text ++ literal) rest := by
  obtain ⟨found, later, whole, front⟩ := cuts
  refine ⟨found ++ [.literal literal], ⟨later, ?_⟩, ?_⟩
  · rw [List.append_assoc text, whole, List.append_assoc]
    rfl
  · rw [List.flatMap_append, front]
    simp [Token.text]

private theorem cutsLiteral_iff (boundary : Boundary style text (quote :: cs ++ rest)) :
    CutsLiteral style text (quote :: cs) rest ↔
      first style text.reverse quote (cs ++ rest) = .literal (quote :: cs) := by
  have from_scan {found : List Token} (scan : Scan style (quote :: cs ++ rest) [] text found) :
      ∃ later, tokens style (text ++ (quote :: cs ++ rest)) =
        found ++ first style text.reverse quote (cs ++ rest) :: later := by
    rw [tokens, ← cut, scan.cut_eq, List.append_nil, List.cons_append, cut_cons]
    exact ⟨_, rfl⟩
  constructor
  · rintro ⟨found, later, whole, front⟩
    have begun : found <+: cut style [] (text ++ (quote :: cs ++ rest)) := ⟨_, whole.symm⟩
    obtain ⟨later', same⟩ := from_scan (.of_begun begun front)
    exact (List.cons.inj (List.append_cancel_left (same.symm.trans whole))).1
  · intro head
    obtain ⟨found, begun, front⟩ := boundary
    obtain ⟨later, whole⟩ := from_scan (.of_begun begun front)
    rw [head] at whole
    exact ⟨found, later, whole, front⟩

/-- A literal of several lines ends with its closing quote, if no character literal is in the way, just where the
text in it leaves it open. -/
theorem cutsLiteral_quote_iff (keeps : style.KeepsLiterals) (opens : quote ∈ style.quotes)
    (long : style.multiline.contains quote = true) (last : rest = [] → quote ∉ body)
    (boundary : Boundary style text (quote :: (body ++ quote :: rest))) :
    CutsLiteral style text (quote :: (body ++ [quote])) rest ↔
      insideCharLiteral text.reverse (body ++ quote :: rest) = false ∧ (rest = [] ∨ LeavesOpen quote body) := by
  have escape : quote ≠ '\\' := by
    rcases keeps.quotes quote opens with rfl | rfl | rfl <;> decide
  rw [List.append_cons body quote rest] at boundary ⊢
  rw [cutsLiteral_iff boundary, ← ended_quote_iff escape body last]
  constructor
  · intro head
    have whole : quote :: (body ++ [quote] ++ rest) = (Token.literal (quote :: (body ++ [quote]))).text ++ rest := rfl
    cases standing keeps.regular head whole with
    | literal quotes outside ended =>
      rw [long] at ended
      exact ⟨outside, ended⟩
  · rintro ⟨outside, ended⟩
    rw [← long] at ended
    exact first_literal keeps opens outside ended

private theorem Boundary.inert (boundary : Boundary style text (cs ++ rest)) (inert : ∀ c ∈ cs, Inert style c) :
    Boundary style (text ++ cs) rest := by
  obtain ⟨found, begun, front⟩ := boundary
  have scan : Scan style (cs ++ rest) [] text found := .of_begun begun front
  refine ⟨found ++ cs.map .code, ?_, ?_⟩
  · rw [List.append_assoc, tokens, ← cut, scan.cut_eq, cut_inert inert, ← List.append_assoc]
    apply List.prefix_append
  · rw [List.flatMap_append, front, List.flatMap_map]
    exact congrArg _ (List.flatMap_singleton' cs)

/-! ## Go and Rust -/

/-- The comments and literals of Go. -/
def goStyle : CommentStyle :=
  ⟨['/', '/'], .flat, ['"', '\'', '\x60'], ['\x60'], false⟩

/-- A raw literal of Rust, with a number of number signs in front of its quotes and behind them. -/
def rawQuoted (signs : Nat) (body : List Char) : List Char :=
  'r' :: (List.replicate signs '#' ++ '"' :: (body ++ '"' :: List.replicate signs '#'))

private theorem goStyle_known : Language.go.commentStyle? = some goStyle := rfl

private theorem goStyle_keeps : goStyle.KeepsLiterals :=
  Language.keepsLiterals goStyle_known rfl

private theorem rustStyle_keeps : rustStyle.KeepsLiterals :=
  Language.keepsLiterals (show Language.rust.commentStyle? = some rustStyle from rfl) rfl

private theorem leavesOpen_of_absent (absent : quote ∉ body) : LeavesOpen quote body ↔ ¬ Escaping body := by
  constructor
  · exact LeavesOpen.behind
  · intro behind
    constructor
    · rintro front back rfl
      exact absurd (List.mem_append_right front List.mem_cons_self) absent
    · exact behind

private theorem inert_signs (signs : Nat) : ∀ c ∈ 'r' :: List.replicate signs '#', Inert rustStyle c := by
  intro c member
  rcases List.mem_cons.mp member with rfl | sign
  · decide
  · rw [List.eq_of_mem_replicate sign]
    decide

/-- Behind the number signs the quote is the body of no character literal. -/
theorem outside_signs (text : List Char) (signs : Nat) (after : List Char) :
    insideCharLiteral (text ++ 'r' :: List.replicate signs '#').reverse after = false := by
  have last : ∃ c more, (text ++ 'r' :: List.replicate signs '#').reverse = c :: more ∧ (c = '#' ∨ c = 'r') := by
    cases signs with
    | zero => exact ⟨'r', text.reverse, by simp, .inr rfl⟩
    | succ signs =>
      rw [List.replicate_succ']
      exact ⟨'#', (text ++ 'r' :: List.replicate signs '#').reverse, by simp, .inl rfl⟩
  obtain ⟨c, more, whole, rfl | rfl⟩ := last
  · simp [insideCharLiteral, whole]
  · simp [insideCharLiteral, whole]

/-- A raw literal of Go ends with its second back quote, if the first opens it, just where no backslash takes the
second along; one of Rust is cut as a literal from quote to quote just where its text leaves a literal open, and
then what follows its last number sign is cut as code. -/
theorem raw_literals_end_iff (text body rest : List Char) :
    (Language.go.commentStyle? = some goStyle ∧ Language.rust.commentStyle? = some rustStyle) ∧
    ('\x60' ∉ body → Boundary goStyle text ('\x60' :: (body ++ '\x60' :: rest)) →
      (CutsLiteral goStyle text ('\x60' :: (body ++ ['\x60'])) rest ↔
        insideCharLiteral text.reverse (body ++ '\x60' :: rest) = false ∧ (rest = [] ∨ ¬ Escaping body))) ∧
    (∀ signs, ¬ '"' :: List.replicate signs '#' <:+: body → Boundary rustStyle text (rawQuoted signs body ++ rest) →
      (CutsLiteral rustStyle (text ++ 'r' :: List.replicate signs '#') ('"' :: (body ++ ['"']))
          (List.replicate signs '#' ++ rest) ↔ signs = 0 ∧ rest = [] ∨ LeavesOpen '"' body) ∧
        (LeavesOpen '"' body → Boundary rustStyle (text ++ rawQuoted signs body) rest)) := by
  refine ⟨⟨rfl, rfl⟩, ?_, ?_⟩
  · intro absent boundary
    rw [cutsLiteral_quote_iff goStyle_keeps (by decide) (by decide) (fun _ => absent) boundary,
      leavesOpen_of_absent absent]
  · intro signs absent boundary
    have shape : rawQuoted signs body ++ rest =
        ('r' :: List.replicate signs '#') ++ '"' :: (body ++ '"' :: (List.replicate signs '#' ++ rest)) := by
      simp [rawQuoted]
    have last : List.replicate signs '#' ++ rest = [] → '"' ∉ body := by
      intro none member
      obtain ⟨rfl, -⟩ : signs = 0 ∧ rest = [] := by simpa using none
      obtain ⟨front, back, whole⟩ := List.append_of_mem member
      exact absent ⟨front, back, by simp [whole]⟩
    rw [shape] at boundary
    have cuts := cutsLiteral_quote_iff rustStyle_keeps (by decide) (by decide) last
      (boundary.inert (inert_signs signs))
    rw [outside_signs] at cuts
    have closes : CutsLiteral rustStyle (text ++ 'r' :: List.replicate signs '#') ('"' :: (body ++ ['"']))
        (List.replicate signs '#' ++ rest) ↔ signs = 0 ∧ rest = [] ∨ LeavesOpen '"' body := by
      simpa using cuts
    refine ⟨closes, fun leaves => ?_⟩
    have behind := (closes.mpr (.inr leaves)).boundary.inert fun c member =>
      inert_signs signs c (List.mem_cons_of_mem _ member)
    simpa [rawQuoted] using behind

/-- A source with a folder in back quotes. -/
def goFolderSource (folder : String) : List Char :=
  "package main\n\nconst Dir = ".toList ++
    '\x60' :: (folder.toList ++ '\x60' :: "\n\nfunc Exported() \x7b\x7d\n".toList)

/-- A source with a text between one number sign and another. -/
def rustRawSource (body : String) : List Char :=
  "const A: &str = ".toList ++ (rawQuoted 1 body.toList ++ ";\nuse super::b;\n".toList)

/-- A backslash that is not the last character does no harm in back quotes, nor does one between number signs. -/
theorem raw_literals_end_iff_of_folder :
    Boundary goStyle "package main\n\nconst Dir = ".toList
        ('\x60' :: ("C:\\tmp".toList ++ '\x60' :: "\n\nfunc Exported() \x7b\x7d\n".toList)) ∧
      CutsLiteral goStyle "package main\n\nconst Dir = ".toList ('\x60' :: ("C:\\tmp".toList ++ ['\x60']))
        "\n\nfunc Exported() \x7b\x7d\n".toList ∧
      Boundary rustStyle "const A: &str = ".toList
        (rawQuoted 1 "mod c; \\n".toList ++ ";\nuse super::b;\n".toList) ∧
      Boundary rustStyle ("const A: &str = ".toList ++ rawQuoted 1 "mod c; \\n".toList)
        ";\nuse super::b;\n".toList := by
  have go : Boundary goStyle "package main\n\nconst Dir = ".toList
      ('\x60' :: ("C:\\tmp".toList ++ '\x60' :: "\n\nfunc Exported() \x7b\x7d\n".toList)) :=
    ⟨"package main\n\nconst Dir = ".toList.map .code, by decide +kernel, by decide⟩
  have rust : Boundary rustStyle "const A: &str = ".toList
      (rawQuoted 1 "mod c; \\n".toList ++ ";\nuse super::b;\n".toList) :=
    ⟨"const A: &str = ".toList.map .code, by decide +kernel, by decide⟩
  have unsigned : ¬ '"' :: List.replicate 1 '#' <:+: "mod c; \\n".toList :=
    mt (Text.occursIn_iff_infix _ _).mpr (by decide)
  have leaves : LeavesOpen '"' "mod c; \\n".toList := (leavesOpen_of_absent (by decide)).mpr (by decide)
  have cuts := ((raw_literals_end_iff _ _ _).2.1 (by decide) go).mpr ⟨by decide, .inr (by decide)⟩
  exact ⟨go, cuts, rust, ((raw_literals_end_iff _ _ _).2.2 1 unsigned rust).2 leaves⟩

/-- A backslash in front of the closing back quote takes the quote along, and a quote in front of the closing one ends
the literal between number signs. So a name behind is not exported, and an import is made of what is only text. -/
theorem raw_literal_runs_on :
    Boundary goStyle "package main\n\nconst Dir = ".toList
        ('\x60' :: ("C:\\tmp\\".toList ++ '\x60' :: "\n\nfunc Exported() \x7b\x7d\n".toList)) ∧
      ¬ CutsLiteral goStyle "package main\n\nconst Dir = ".toList ('\x60' :: ("C:\\tmp\\".toList ++ ['\x60']))
        "\n\nfunc Exported() \x7b\x7d\n".toList ∧
      SourceRecord.parse "a.go" (String.ofList (goFolderSource "C:\\tmp\\")) = ⟨.go, [], ["Dir"]⟩ ∧
      SourceRecord.parse "a.go" (String.ofList (goFolderSource "C:\\tmp")) = ⟨.go, [], ["Dir", "Exported"]⟩ ∧
      SourceRecord.parse "a.rs" (String.ofList (rustRawSource "say \"hi\nuse super::a;\n")) =
        ⟨.rust, ["super::a"], []⟩ ∧
      SourceRecord.parse "a.rs" (String.ofList (rustRawSource "say hi\nuse super::a;\n")) =
        ⟨.rust, ["super::b"], []⟩ := by
  have boundary : Boundary goStyle "package main\n\nconst Dir = ".toList
      ('\x60' :: ("C:\\tmp\\".toList ++ '\x60' :: "\n\nfunc Exported() \x7b\x7d\n".toList)) :=
    ⟨"package main\n\nconst Dir = ".toList.map .code, by decide +kernel, by decide⟩
  refine ⟨boundary, ?_, by decide +kernel, by decide +kernel, by decide +kernel, by decide +kernel⟩
  rw [cutsLiteral_quote_iff goStyle_keeps (by decide) (by decide) (fun _ => by decide) boundary,
    leavesOpen_of_absent (by decide)]
  decide

end ReviewContext.Source
