import ReviewContext.Proofs.Discovery.Evidence
import ReviewContext.Proofs.Discovery.NamedTests
import ReviewContext.Proofs.Names.Paths

/-! # The names of tests are told from other names

A name under which a test is searched for holds its mark right in front of the extension, or at its start. A mark
between dots and one at the start are found in the lower case of the name, which leaves them as they are whatever
stands around them; the others end the base, because the extension has no further dot. So a file that is found as a
test is known as one by its name alone, and no tests of it are searched for.
-/

namespace ReviewContext

namespace Text

/-- A text that lower case leaves as it is, wherever it stands. -/
def IsLower (cs : List Char) : Prop :=
  ∀ c ∈ cs, c ≠ capitalSigma ∧ lowerChar c = [c]

instance (cs : List Char) : Decidable (IsLower cs) :=
  List.decidableBAll _ cs

private theorem exists_lowerAfter_append (before cs more : List Char) :
    ∃ front, lowerAfter before (cs ++ more) = front ++ lowerAfter (cs.reverse ++ before) more := by
  induction cs generalizing before with
  | nil => exact ⟨[], rfl⟩
  | cons c cs ih =>
    obtain ⟨front, lowered⟩ := ih (c :: before)
    rw [List.cons_append, lowerAfter, lowered, List.reverse_cons, List.append_assoc, List.singleton_append,
      ← List.append_assoc]
    exact ⟨_, rfl⟩

private theorem lowerAfter_append {part : List Char} (low : IsLower part) (before more : List Char) :
    lowerAfter before (part ++ more) = part ++ lowerAfter (part.reverse ++ before) more := by
  induction part generalizing before with
  | nil => rfl
  | cons c part ih =>
    obtain ⟨⟨other, same⟩, later⟩ := List.forall_mem_cons.mp low
    rw [List.cons_append, lowerAfter, if_neg other, same, ih later, List.reverse_cons, List.append_assoc]
    rfl

private theorem prefix_lower {part : List Char} (low : IsLower part) (more : List Char) :
    part <+: lower (part ++ more) := by
  rw [lower, lowerAfter_append low]
  exact List.prefix_append _ _

private theorem infix_lower {part : List Char} (low : IsLower part) (front more : List Char) :
    part <:+: lower (front ++ (part ++ more)) := by
  obtain ⟨lowered, split⟩ := exists_lowerAfter_append [] front (part ++ more)
  rw [lower, split, lowerAfter_append low, ← List.append_assoc]
  exact List.infix_append _ _ _

end Text

namespace TestName

open ReviewContext.Path (baseName fileName extension IsDirectory)

variable {target path name : String}

/-- What marks a name between its base and its extension, read in lower case. -/
def middles : List String := [".test.", ".spec."]

/-- What marks the end of a base. -/
def endings : List String := ["_test", "Test", "Tests", "Spec"]

/-- What is put between a base and its extension to make the name of a test. -/
def marks : List String := [".test", ".spec", "Test", "Tests", "_test"]

private theorem looksLikeTest_iff : looksLikeTest path = true ↔
    "__tests__".toList ∈ Text.splitOn '/' path.toList ∨
      (∃ mark ∈ middles, mark.toList <:+: Text.lower (fileName path).toList) ∨
      "test_".toList <+: Text.lower (fileName path).toList ∨
      ∃ mark ∈ endings, mark.toList <:+ (baseName path).toList := by
  simp [looksLikeTest, middles, endings, Text.occursIn_iff_infix, Text.endsIn, or_assoc]

private theorem looksLikeTest_of_middle {mark : String} (known : mark ∈ middles) {front rest : List Char}
    (named : (fileName path).toList = front ++ (mark.toList ++ rest)) : looksLikeTest path = true := by
  have low : ∀ mark ∈ middles, Text.IsLower mark.toList := by decide
  refine looksLikeTest_iff.mpr (.inr (.inl ⟨mark, known, ?_⟩))
  rw [named]
  exact Text.infix_lower (low mark known) front rest

private theorem looksLikeTest_of_start {rest : List Char} (named : (fileName path).toList = "test_".toList ++ rest) :
    looksLikeTest path = true := by
  refine looksLikeTest_iff.mpr (.inr (.inr (.inl ?_)))
  rw [named]
  exact Text.prefix_lower (by decide) rest

/-- An ending counts because it ends the base, not just some text in front of a dot. -/
theorem looksLikeTest_of_ending {mark : String} (known : mark ∈ endings) {stem ext : List Char}
    (named : (fileName path).toList = stem ++ mark.toList ++ '.' :: ext) (solid : '/' ∉ stem ++ '.' :: ext)
    (last : '.' ∉ ext) : looksLikeTest path = true := by
  obtain ⟨long, apart⟩ : 1 < mark.toList.length ∧ '/' ∉ mark.toList := by
    have all : ∀ mark ∈ endings, 1 < mark.toList.length ∧ '/' ∉ mark.toList := by decide
    exact all mark known
  have whole : '/' ∉ stem ++ mark.toList ++ '.' :: ext := by
    simp only [List.mem_append, not_or] at solid ⊢
    exact ⟨⟨solid.1, apart⟩, solid.2⟩
  have longer : 1 < (stem ++ mark.toList).length := by
    rw [List.length_append]
    omega
  have whole_name : fileName path = String.ofList (stem ++ mark.toList ++ '.' :: ext) :=
    String.toList_inj.mp (named.trans String.toList_ofList.symm)
  have base := Path.baseName_of_fileName whole_name whole longer last
  refine looksLikeTest_iff.mpr (.inr (.inr (.inr ⟨mark, known, ?_⟩)))
  rw [base, String.toList_ofList]
  exact List.suffix_append _ _

private theorem mem_candidates_cases (member : name ∈ candidates target) :
    (∃ mark ∈ marks, name = baseName target ++ mark ++ extension target) ∨
      name = "test_" ++ baseName target ++ extension target := by
  rcases List.mem_append.mp member with marked | first
  · have made : name ∈ marks.map fun mark => baseName target ++ mark ++ extension target := marked
    obtain ⟨mark, known, rfl⟩ := List.mem_map.mp made
    exact .inl ⟨mark, known, rfl⟩
  · split at first
    · exact .inr (List.mem_singleton.mp first)
    · cases first

/-- A name for a test is longer than the name it is made of. -/
theorem fileName_not_mem_candidates (target : String) : fileName target ∉ candidates target := by
  intro member
  have positive : ∀ mark ∈ marks, 0 < mark.length := by decide
  have whole := congrArg String.length (Path.baseName_append_extension target)
  rw [String.length_append] at whole
  rcases mem_candidates_cases member with ⟨mark, known, made⟩ | made
  · have long := positive mark known
    have same := congrArg String.length made
    simp only [String.length_append] at same
    omega
  · have long : "test_".length = 5 := rfl
    have same := congrArg String.length made
    simp only [String.length_append] at same
    omega

private theorem exists_marked_parts (extended : extension target ≠ "") (member : name ∈ candidates target) :
    ∃ stem ext, '.' ∉ ext ∧ '/' ∉ stem ++ '.' :: ext ∧
      ((∃ mark ∈ marks, name.toList = stem ++ mark.toList ++ '.' :: ext) ∨
        name.toList = "test_".toList ++ (stem ++ '.' :: ext)) := by
  obtain ⟨stem, ext, base, dotted, last, solid⟩ := Path.exists_extension extended
  refine ⟨stem, ext, last, solid, ?_⟩
  rcases mem_candidates_cases member with ⟨mark, known, rfl⟩ | rfl
  · exact .inl ⟨mark, known, by rw [base, dotted]; simp⟩
  · exact .inr (by rw [base, dotted]; simp)

private theorem shape_of_mem_candidates (extended : extension target ≠ "") (member : name ∈ candidates target) :
    '/' ∉ name.toList ∧ 2 < name.toList.length := by
  have shape : ∀ mark ∈ "test_" :: marks, '/' ∉ mark.toList ∧ 2 < mark.toList.length := by decide
  obtain ⟨stem, ext, -, solid, ⟨mark, known, made⟩ | made⟩ := exists_marked_parts extended member
  · obtain ⟨apart, long⟩ := shape mark (List.mem_cons_of_mem _ known)
    simp only [List.mem_append, not_or] at solid
    simp only [made, List.mem_append, List.length_append, not_or]
    exact ⟨⟨⟨solid.1, apart⟩, solid.2⟩, by omega⟩
  · obtain ⟨apart, long⟩ := shape "test_" List.mem_cons_self
    rw [made, List.mem_append, List.length_append, not_or]
    exact ⟨⟨apart, solid⟩, by omega⟩

/-- Where a path goes by a name made for a test, it looks like a test. -/
theorem looksLikeTest_of_fileName (extended : extension target ≠ "") (named : fileName path ∈ candidates target) :
    looksLikeTest path = true := by
  obtain ⟨stem, ext, last, solid, ⟨mark, known, made⟩ | made⟩ := exists_marked_parts extended named
  · have sorts : ∀ mark ∈ marks, mark ∈ endings ∨ mark ++ "." ∈ middles := by decide
    rcases sorts mark known with ending | middle
    · exact looksLikeTest_of_ending ending made solid last
    · refine looksLikeTest_of_middle middle (show _ = stem ++ (_ ++ ext) from ?_)
      rw [made]
      simp
  · exact looksLikeTest_of_start made

end TestName

namespace Discovery

variable {σ : Type} (host : Host σ) (settings : Settings) (ref : RepositoryRef)

private theorem fileName_mem_candidates {target : String} {world : World σ} {found : List RelatedFile}
    (completed : (findTests host settings ref target world).1 = .ok found) {related : RelatedFile}
    (member : related ∈ found) : Path.fileName related.filename ∈ TestName.candidates target := by
  rw [← findTests_fst_recorded] at completed
  have account := (findTests_leaves host settings ref target).fresh world
  rcases account.evident found completed related member with before | ⟨plain, evidence⟩
  · cases before
  · have verified := verified_of_test settings "" plain evidence
    obtain ⟨_, _, kind, _⟩ := evidence
    exact (verified.test kind).1

/-- No test of a test is searched for, only its dependents. -/
theorem discover_of_test {path : String} (test : TestName.looksLikeTest path = true) (content : String) :
    discover host settings ref path content =
      findDependents host settings ref path (SourceRecord.parse path content).exports := by
  have none : findTests host settings ref path = pure [] := if_pos (by rw [test, Bool.true_or])
  simp only [discover, none, pure_bind, List.append_nil, bind_pure]

end Discovery

namespace TestName

open ReviewContext.Path (extension fileName IsDirectory)

/-- A name made for a test of a file with an extension is the name of a test, in whatever directory. So no file that
tests are searched for has such a name, and a file found as a test is searched for its dependents alone. -/
theorem candidates_look_like_tests (target : String) :
    (extension target ≠ "" →
      (∀ dir : String, IsDirectory dir.toList → ∀ name ∈ candidates target, looksLikeTest (dir ++ name) = true) ∧
      (∀ path, looksLikeTest path = false → fileName path ∉ candidates target) ∧
      ∀ (σ : Type) (host : Host σ) (settings : Settings) (ref : RepositoryRef) (world : World σ)
        (found : List RelatedFile), (Discovery.findTests host settings ref target world).1 = .ok found →
        ∀ related ∈ found, ∀ (τ : Type) (other : Host τ) (others : Settings) (head : RepositoryRef) (content : String),
          Discovery.discover other others head related.filename content =
            Discovery.findDependents other others head related.filename
              (SourceRecord.parse related.filename content).exports) ∧
      fileName target ∉ candidates target := by
  refine ⟨fun extended => ⟨?_, ?_, ?_⟩, fileName_not_mem_candidates target⟩
  · intro dir below name member
    obtain ⟨solid, long⟩ := shape_of_mem_candidates extended member
    apply looksLikeTest_of_fileName extended
    rwa [Path.fileName_append below solid long]
  · intro path plain member
    exact Bool.false_ne_true (plain.symm.trans (looksLikeTest_of_fileName extended member))
  · intro σ host settings ref world found completed related member τ other others head content
    have named := Discovery.fileName_mem_candidates host settings ref completed member
    exact Discovery.discover_of_test other others head (looksLikeTest_of_fileName extended named) content

/-- A base with an inner dot, and a test of it in a directory of tests. -/
theorem candidates_look_like_tests_of_inner_dot :
    let target := "lib/Till.d.py"
    let repo : MemoryRepository := ⟨[("tests/test_Till.d.py", "import Till.d")], [], [], []⟩
    let ref : RepositoryRef := ⟨"shop", "till", "main"⟩
    let test : RelatedFile := ⟨"tests/test_Till.d.py", .test, "import Till.d", target⟩
    extension target ≠ "" ∧ IsDirectory "tests/".toList ∧ "Till.d_test.py" ∈ candidates target ∧
      looksLikeTest ("tests/" ++ "Till.d_test.py") = true ∧ looksLikeTest "lib/Till.py" = false ∧
      fileName "lib/Till.py" ∉ candidates target ∧ fileName target ∉ candidates target ∧
      (Discovery.findTests MemoryRepository.host {} ref target ⟨repo, 0⟩).1 = .ok [test] ∧
      ∀ content, Discovery.discover MemoryRepository.host {} ref test.filename content =
        Discovery.findDependents MemoryRepository.host {} ref test.filename
          (SourceRecord.parse test.filename content).exports := by
  intro target repo ref test
  have extended : extension target ≠ "" := by decide +kernel
  have below : IsDirectory "tests/".toList := .inr rfl
  have member : "Till.d_test.py" ∈ candidates target := by decide +kernel
  have plain : looksLikeTest "lib/Till.py" = false := by decide +kernel
  have completed : (Discovery.findTests MemoryRepository.host {} ref target ⟨repo, 0⟩).1 = .ok [test] := by
    decide +kernel
  obtain ⟨made, own⟩ := candidates_look_like_tests target
  obtain ⟨marked, apart, alone⟩ := made extended
  exact ⟨extended, below, member, marked _ below _ member, plain, apart _ plain, own, completed,
    alone _ _ _ _ _ _ completed test (List.mem_singleton_self _) _ _ _ _⟩

end TestName

end ReviewContext
