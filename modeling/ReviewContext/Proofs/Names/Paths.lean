import Mathlib.Data.List.Induction
import ReviewContext.Path
import ReviewContext.Proofs.Text.Rows

/-! # The name at the end of a path

A path ends in its last component, whatever slashes and single dots follow it. The name is cut at a dot that has
something in front of it and no dot behind it; where there is none, or no name, nothing is cut off. So what is cut
off always completes the base to the name.
-/

namespace ReviewContext.Path

/-- A text in front of a component. -/
def IsDirectory (dir : List Char) : Prop :=
  dir = [] ∨ dir.getLast? = some '/'

/-- A text behind a component that names nothing. -/
inductive Trailing : List Char → Prop
  | nothing : Trailing []
  | slash {tail : List Char} (trailing : Trailing tail) : Trailing ('/' :: tail)
  | dot {tail : List Char} (trailing : Trailing tail) : Trailing ('/' :: '.' :: tail)

/-- The last component of a path, which may be the one that goes up. -/
structure EndsIn (path part : List Char) : Prop where
  named : part ≠ []
  solid : '/' ∉ part
  other : part ≠ ['.']
  placed : ∃ dir tail, IsDirectory dir ∧ Trailing tail ∧ path = dir ++ (part ++ tail)

/-- How a path is taken apart, into its name and the two parts of the name. -/
inductive Parts (path : List Char) : (name base ext : List Char) → Prop
  | dotted {stem ext : List Char} (ends : EndsIn path (stem ++ '.' :: ext)) (other : stem ++ '.' :: ext ≠ ['.', '.'])
      (some : stem ≠ []) (last : '.' ∉ ext) : Parts path (stem ++ '.' :: ext) stem ('.' :: ext)
  | undotted {name : List Char} (ends : EndsIn path name) (other : name ≠ ['.', '.']) (plain : '.' ∉ name.tail) :
      Parts path name name []
  | nameless (none : ∀ part, EndsIn path part → part = ['.', '.']) : Parts path path path []

variable {path name part stem ext dir tail : List Char}

/-! ## Components -/

private theorem components_append_slash (dir cs : List Char) :
    components (dir ++ '/' :: cs) = components dir ++ components cs := by
  rw [components, Text.splitOn_append_separator, List.filter_append]
  rfl

private theorem components_of_solid (solid : '/' ∉ part) :
    components part = if part = [] ∨ part = ['.'] then [] else [part] := by
  rw [components, Text.splitOn_of_solid solid]
  split
  · next nothing => rcases nothing with rfl | rfl <;> rfl
  · next some =>
    obtain ⟨notEmpty, notDot⟩ := not_or.mp some
    exact List.filter_cons_of_pos (by simp [notEmpty, notDot])

private theorem components_directory (below : IsDirectory dir) (cs : List Char) :
    components (dir ++ cs) = components dir ++ components cs := by
  rcases below with rfl | ends
  · rfl
  · obtain ⟨front, rfl⟩ := List.getLast?_eq_some_iff.mp ends
    have nothing : components [] = [] := rfl
    rw [List.append_assoc, List.singleton_append, components_append_slash, components_append_slash, nothing,
      List.append_nil]

/-- What follows the last component adds no component. -/
theorem Trailing.components_append (trailing : Trailing tail) (cs : List Char) :
    components (cs ++ tail) = components cs := by
  induction trailing generalizing cs with
  | nothing => rw [List.append_nil]
  | @slash tail _ ih =>
    have nothing : components tail = [] := ih []
    rw [components_append_slash, nothing, List.append_nil]
  | @dot tail _ ih =>
    have nothing : components ('.' :: tail) = [] := ih ['.']
    rw [components_append_slash, nothing, List.append_nil]

private theorem Trailing.append {more : List Char} (trailing : Trailing tail) (further : Trailing more) :
    Trailing (tail ++ more) := by
  induction trailing with
  | nothing => exact further
  | slash _ ih => exact .slash ih
  | dot _ ih => exact .dot ih

/-- A path is a single component, or a component below another path. -/
theorem slash_induction {motive : List Char → Prop} (single : ∀ part, '/' ∉ part → motive part)
    (below : ∀ dir part, '/' ∉ part → motive dir → motive (dir ++ '/' :: part)) (path : List Char) : motive path := by
  -- The characters read so far, from the end, are the end of a component.
  have before (part : List Char) (solid : '/' ∉ part) : motive (path ++ part) := by
    induction path using List.reverseRecOn generalizing part with
    | nil => exact single part solid
    | append_singleton path c ih =>
      rw [List.append_assoc, List.singleton_append]
      by_cases slash : c = '/'
      · subst slash
        have dir := ih [] List.not_mem_nil
        rw [List.append_nil] at dir
        exact below path part solid dir
      · exact ih (c :: part) (List.not_mem_cons_of_ne_of_not_mem (Ne.symm slash) solid)
  have whole := before [] List.not_mem_nil
  rwa [List.append_nil] at whole

private theorem endsIn_of_getLast? (last : (components path).getLast? = some part) : EndsIn path part := by
  induction path using slash_induction with
  | single whole solid =>
    rw [components_of_solid solid] at last
    split at last
    · cases last
    · next names =>
      cases last
      obtain ⟨named, other⟩ := not_or.mp names
      exact ⟨named, solid, other, [], [], .inl rfl, .nothing, by simp⟩
  | below dir below solid ih =>
    rw [components_append_slash, components_of_solid solid] at last
    split at last
    · next nothing =>
      rw [List.append_nil] at last
      obtain ⟨named, solid, other, front, tail, isDirectory, trailing, rfl⟩ := ih last
      have further : Trailing ('/' :: below) := by
        rcases nothing with rfl | rfl
        · exact .slash .nothing
        · exact .dot .nothing
      exact ⟨named, solid, other, front, tail ++ '/' :: below, isDirectory, trailing.append further, by simp⟩
    · next names =>
      rw [List.getLast?_concat, Option.some_inj] at last
      subst last
      obtain ⟨named, other⟩ := not_or.mp names
      exact ⟨named, solid, other, dir ++ ['/'], [], .inr List.getLast?_concat, .nothing, by simp⟩

private theorem EndsIn.getLast? (ends : EndsIn path part) : (components path).getLast? = some part := by
  obtain ⟨named, solid, other, dir, tail, below, trailing, rfl⟩ := ends
  rw [components_directory below, trailing.components_append, components_of_solid solid,
    if_neg (not_or.mpr ⟨named, other⟩), List.getLast?_concat]

private theorem lastComponent?_eq_some_iff :
    lastComponent? path = some name ↔ EndsIn path name ∧ name ≠ ['.', '.'] := by
  rw [lastComponent?, Option.filter_eq_some_iff, bne_iff_ne]
  exact and_congr_left fun _ => ⟨endsIn_of_getLast?, EndsIn.getLast?⟩

private theorem lastComponent?_eq_none_iff :
    lastComponent? path = none ↔ ∀ part, EndsIn path part → part = ['.', '.'] := by
  rw [Option.eq_none_iff_forall_ne_some]
  refine forall_congr' fun part => ?_
  rw [ne_eq, lastComponent?_eq_some_iff, not_and_not_right]

/-! ## Cuts -/

private theorem splitExtension_dotted (some : stem ≠ []) (last : '.' ∉ ext) :
    splitExtension (stem ++ '.' :: ext) = (stem, Option.some ext) := by
  have plain : ∀ c ∈ ext.reverse, (c != '.') = true := by
    intro c member
    rw [bne_iff_ne]
    rintro rfl
    exact last (List.mem_reverse.mp member)
  obtain ⟨c, front, same⟩ := List.exists_cons_of_ne_nil (List.reverse_ne_nil_iff.mpr some)
  have fromEnd : (stem ++ '.' :: ext).reverse = ext.reverse ++ '.' :: c :: front := by simp [same]
  unfold splitExtension
  dsimp only
  rw [fromEnd, List.dropWhile_append_of_pos plain, List.takeWhile_append_of_pos plain,
    List.dropWhile_cons_of_neg (by decide), List.takeWhile_cons_of_neg (by decide), List.append_nil,
    List.reverse_reverse]
  dsimp only
  rw [← same, List.reverse_reverse]

private theorem splitExtension_undotted (plain : '.' ∉ name.tail) : splitExtension name = (name, none) := by
  cases name with
  | nil => rfl
  | cons c rest =>
    have front : ∀ d ∈ rest.reverse, (d != '.') = true := by
      intro d member
      rw [bne_iff_ne]
      rintro rfl
      exact plain (List.mem_reverse.mp member)
    unfold splitExtension
    dsimp only
    rw [List.reverse_cons, List.dropWhile_append_of_pos front]
    by_cases dot : c = '.'
    · subst dot
      rfl
    · rw [List.dropWhile_cons_of_pos (by simpa using dot), List.dropWhile_nil]

private theorem exists_cut (dotted : '.' ∈ name.tail) :
    ∃ stem ext, stem ≠ [] ∧ '.' ∉ ext ∧ name = stem ++ '.' :: ext := by
  cases name with
  | nil => cases dotted
  | cons c rest =>
    obtain ⟨ext, stem, split, last⟩ := List.eq_append_cons_of_mem (List.mem_reverse.mpr dotted)
    refine ⟨c :: stem.reverse, ext.reverse, List.cons_ne_nil _ _, mt List.mem_reverse.mp last, ?_⟩
    rw [← List.reverse_reverse rest, show rest.reverse = _ from split]
    simp

/-! ## Parts -/

private theorem exists_parts (path : List Char) : ∃ name base ext, Parts path name base ext := by
  cases known : lastComponent? path with
  | none => exact ⟨path, path, [], .nameless (lastComponent?_eq_none_iff.mp known)⟩
  | some name =>
    obtain ⟨ends, other⟩ := lastComponent?_eq_some_iff.mp known
    by_cases dotted : '.' ∈ name.tail
    · obtain ⟨stem, ext, some, last, rfl⟩ := exists_cut dotted
      exact ⟨_, stem, '.' :: ext, .dotted ends other some last⟩
    · exact ⟨name, name, [], .undotted ends other dotted⟩

private theorem Parts.eq {path : String} {name base ext : List Char} (parts : Parts path.toList name base ext) :
    fileName path = String.ofList name ∧ baseName path = String.ofList base ∧
      extension path = String.ofList ext := by
  unfold fileName baseName extension
  cases parts with
  | dotted ends other some last =>
    rw [lastComponent?_eq_some_iff.mpr ⟨ends, other⟩]
    dsimp only [Option.map_some]
    rw [splitExtension_dotted some last]
    exact ⟨rfl, rfl, rfl⟩
  | undotted ends other plain =>
    rw [lastComponent?_eq_some_iff.mpr ⟨ends, other⟩]
    dsimp only [Option.map_some]
    rw [splitExtension_undotted plain]
    exact ⟨rfl, rfl, rfl⟩
  | nameless none =>
    rw [lastComponent?_eq_none_iff.mpr none, String.ofList_toList]
    exact ⟨rfl, rfl, rfl⟩

private theorem parts_iff {path : String} {name base ext : List Char} :
    Parts path.toList name base ext ↔
      name = (fileName path).toList ∧ base = (baseName path).toList ∧ ext = (extension path).toList := by
  constructor
  · intro parts
    obtain ⟨names, bases, exts⟩ := parts.eq
    rw [names, bases, exts, String.toList_ofList, String.toList_ofList, String.toList_ofList]
    exact ⟨rfl, rfl, rfl⟩
  · rintro ⟨rfl, rfl, rfl⟩
    obtain ⟨name, base, ext, parts⟩ := exists_parts path.toList
    obtain ⟨names, bases, exts⟩ := parts.eq
    rwa [names, bases, exts, String.toList_ofList, String.toList_ofList, String.toList_ofList]

private theorem Parts.name_eq {base : List Char} (parts : Parts path name base ext) : name = base ++ ext := by
  cases parts with
  | dotted => rfl
  | undotted | nameless => exact (List.append_nil _).symm

/-- An extension has something in front of it in the name of the path. -/
theorem exists_extension {path : String} (extended : extension path ≠ "") :
    ∃ stem ext, baseName path = String.ofList stem ∧ extension path = String.ofList ('.' :: ext) ∧ '.' ∉ ext ∧
      '/' ∉ stem ++ '.' :: ext := by
  obtain ⟨name, base, ext, parts⟩ := exists_parts path.toList
  obtain ⟨-, bases, exts⟩ := parts.eq
  cases parts with
  | dotted ends _ _ last => exact ⟨base, _, bases, exts, last, ends.solid⟩
  | undotted | nameless => exact absurd exts extended

/-- The name of a path alone tells its base, if the name has an extension. -/
theorem baseName_of_fileName {path : String} (named : fileName path = String.ofList (stem ++ '.' :: ext))
    (solid : '/' ∉ stem ++ '.' :: ext) (long : 1 < stem.length) (last : '.' ∉ ext) :
    baseName path = String.ofList stem := by
  have cut := splitExtension_dotted (List.length_pos_iff.mp (Nat.lt_of_succ_lt long)) last
  have longer : 2 < (stem ++ '.' :: ext).length := by
    rw [List.length_append, List.length_cons]
    omega
  obtain ⟨name, base, rest, parts⟩ := exists_parts path.toList
  obtain ⟨names, bases, -⟩ := parts.eq
  have same : name = stem ++ '.' :: ext := String.ofList_injective (names.symm.trans named)
  cases parts with
  | dotted ends other some lastToo =>
    rw [← same, splitExtension_dotted some lastToo] at cut
    rw [bases, (Prod.mk.inj cut).1]
  | undotted ends other plain =>
    rw [← same, splitExtension_undotted plain] at cut
    cases cut
  | nameless none =>
    rw [← same] at solid longer
    have ends : EndsIn path.toList path.toList := by
      refine ⟨?_, solid, ?_, [], [], .inl rfl, .nothing, (List.append_nil _).symm⟩
      · exact List.length_pos_iff.mp (Nat.zero_lt_of_lt longer)
      · intro short
        rw [short] at longer
        contradiction
    rw [none _ ends] at longer
    contradiction

/-- Behind a directory, a name without a slash is the file name. -/
theorem fileName_append {dir name : String} (below : IsDirectory dir.toList) (solid : '/' ∉ name.toList)
    (long : 2 < name.toList.length) : fileName (dir ++ name) = name := by
  have apart {part : List Char} (short : part.length ≤ 2) : name.toList ≠ part := by
    rintro rfl
    exact Nat.not_le.mpr long short
  have ends : EndsIn (dir ++ name).toList name.toList := by
    refine ⟨apart (by decide), solid, apart (by decide), dir.toList, [], below, .nothing, ?_⟩
    rw [String.toList_append, List.append_nil]
  rw [fileName, lastComponent?_eq_some_iff.mpr ⟨ends, apart (by decide)⟩, Option.map_some, Option.getD_some,
    String.ofList_toList]

/-- Base name and extension make up the file name. -/
theorem baseName_append_extension (path : String) : baseName path ++ extension path = fileName path := by
  have whole := (parts_iff.mpr ⟨rfl, rfl, rfl⟩ : Parts path.toList _ _ _).name_eq
  rw [← String.toList_inj, String.toList_append, whole]

/-- Base and extension make up the name, and all three are what the path and the dots in its name tell. -/
theorem parts_of_path (path : String) :
    baseName path ++ extension path = fileName path ∧
      ∀ name base ext, Parts path.toList name base ext ↔
        name = (fileName path).toList ∧ base = (baseName path).toList ∧ ext = (extension path).toList :=
  ⟨baseName_append_extension path, fun _ _ _ => parts_iff⟩

example : ["a/b.ts/./", "a.tar.gz", ".gitignore", "a.", "a/..", "/", ""].map
    (fun path => (baseName path, extension path)) =
    [("b", ".ts"), ("a.tar", ".gz"), (".gitignore", ""), ("a", "."), ("a/..", ""), ("/", ""), ("", "")] := by
  decide

end ReviewContext.Path
