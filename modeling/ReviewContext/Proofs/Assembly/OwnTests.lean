import ReviewContext.Proofs.Assembly.Locality
import ReviewContext.Proofs.Assembly.Shares
import ReviewContext.Proofs.Discovery.NamedTests

/-! # The bundle of a change of one file

The pool of a change of one file holds what was found for it, its dependents in front of its tests, and all of this
gets into its bundle. A file that is found as a dependent and as a test stands in the pool once, as a dependent.
-/

namespace ReviewContext

namespace Assembly

open RelatedFile

variable {settings : Settings} {own dependents tests : List RelatedFile} {filename : String}

private theorem eraseDupsBy_eq_self (named : Named own) : own.eraseDupsBy sameName = own := by
  induction own with
  | nil => rfl
  | cons file rest ih =>
    obtain ⟨fresh, later⟩ := List.nodup_cons.mp named
    have others : (rest.filter fun other => other.sameName file = false) = rest := by
      refine List.filter_eq_self.mpr fun other member => ?_
      rw [decide_eq_true_eq, Bool.eq_false_iff, Ne, sameName_iff]
      exact fun same => fresh (List.mem_map.mpr ⟨other, member, same⟩)
    rw [List.eraseDupsBy_cons, others, ih later]

private theorem unnamed_iff {files : List RelatedFile} {file : RelatedFile} :
    (!files.any (sameName file)) = true ↔ ∀ other ∈ files, file.filename ≠ other.filename := by
  simp only [Bool.not_eq_true', List.any_eq_false, sameName_iff, Ne]

/-- Behind others an entry stays if none of them has its name. -/
theorem eraseDupsBy_append : ∀ files more : List RelatedFile,
    (files ++ more).eraseDupsBy sameName = files.eraseDupsBy sameName ++
      (more.filter fun file => !files.any (sameName file)).eraseDupsBy sameName
  | [], more => by simp
  | file :: rest, more => by
    have unlike : ((more.filter fun other => other.sameName file = false).filter fun other =>
        !(rest.filter fun other => other.sameName file = false).any (sameName other)) =
        more.filter fun other => !(file :: rest).any (sameName other) := by
      rw [List.filter_filter]
      refine List.filter_congr fun other _ => ?_
      rw [Bool.eq_iff_iff, Bool.and_eq_true, unnamed_iff, unnamed_iff, List.forall_mem_cons]
      simp only [List.mem_filter, decide_eq_true_eq, Bool.eq_false_iff, Ne, sameName_iff]
      constructor
      · rintro ⟨apart, unlike⟩
        -- Whoever has the name of `other` has not the name of `file`, and is not left out.
        exact ⟨unlike, fun one member same => apart one ⟨member, fun twin => unlike (same.trans twin)⟩ same⟩
      · rintro ⟨unlike, apart⟩
        exact ⟨fun one kept => apart one kept.1, unlike⟩
    rw [List.cons_append, List.eraseDupsBy_cons, List.eraseDupsBy_cons, List.filter_append, List.cons_append,
      eraseDupsBy_append, unlike]
termination_by files => files.length
decreasing_by exact Nat.lt_succ_of_le (List.length_filter_le _ _)

private theorem pooled_self (own : List RelatedFile) :
    pooled own (own.eraseDupsBy sameName) = own.eraseDupsBy sameName := by
  have sought : ∀ file ∈ own.eraseDupsBy sameName, (own.eraseDupsBy sameName).find? (sameName file) = some file := by
    intro file member
    obtain ⟨other, sought⟩ := Option.isSome_iff_exists.mp
      (List.find?_isSome.mpr ⟨file, member, sameName_iff.mpr rfl⟩)
    rw [sought, (eraseDupsBy_named own).eq member (List.mem_of_find?_eq_some sought)
      (sameName_iff.mp (List.find?_some sought))]
  rw [pooled, List.filterMap_congr sought, List.filterMap_some]

private theorem ranked_self (own : List RelatedFile) :
    ranked own (own.eraseDupsBy sameName) = own.eraseDupsBy sameName := by
  have others : ((own.eraseDupsBy sameName).filter fun file => !own.any (sameName file)) = [] := by
    refine List.filter_eq_nil_iff.mpr fun file member => ?_
    have known : own.any (sameName file) = true :=
      List.any_eq_true.mpr ⟨file, mem_of_mem_eraseDupsBy member, sameName_iff.mpr rfl⟩
    simp [known]
  rw [ranked, pooled_self, others, List.append_nil]

/-- A file that is alone in its change gets all that was found for it, of each name the first. -/
theorem bundle_alone (limited : Discovery.Limited settings filename own) (countable : own.length ≤ Text.maxWord) :
    bundle settings filename own (pool [own]) = ⟨(own.eraseDupsBy sameName).map (·.excerpt settings)⟩ := by
  have whole : pool [own] = own.eraseDupsBy sameName := by
    rw [pool_eq_eraseDupsBy, List.flatten_singleton]
  have others : (own.eraseDupsBy sameName).filter (·.filename != filename) = own.eraseDupsBy sameName :=
    List.filter_eq_self.mpr fun file member => by simpa using limited.other file (mem_of_mem_eraseDupsBy member)
  have agree : Agree own (own.eraseDupsBy sameName) := by
    rw [Agree, pooled_self]
    exact fun entry member => ⟨entry, mem_of_mem_eraseDupsBy member, rfl, rfl⟩
  have few := pooled_few limited agree
  rw [pooled_self] at few
  rw [whole, bundle_eq_firsts settings filename own (eraseDupsBy_named own)
    (Nat.le_trans (eraseDupsBy_length_le own) countable), eligible, ranked_self, others, firsts_eq_self few]

private theorem filter_of_kind {files : List RelatedFile} {kind : Relationship}
    (same : ∀ file ∈ files, file.relationship = kind) (other : Relationship) :
    files.filter (·.relationship = other) = if kind = other then files else [] := by
  split
  · next equal =>
    exact List.filter_eq_self.mpr fun file member => by simp [same file member, equal]
  · next different =>
    exact List.filter_eq_nil_iff.mpr fun file member => by simp [same file member, different]

/-- The tests in such a bundle are those that were not found as dependents. -/
theorem relationships_alone (first : Within .dependent filename settings.maxDependents dependents)
    (next : Within .test filename settings.maxTests tests) (distinct : Named tests)
    (countable : dependents.length + tests.length ≤ Text.maxWord) :
    let bundle := bundle settings filename (dependents ++ tests) (pool [dependents ++ tests])
    bundle.ofRelationship .dependent = (dependents.eraseDupsBy sameName).map (·.excerpt settings) ∧
      bundle.ofRelationship .test =
        (tests.filter fun test => !dependents.any (sameName test)).map (·.excerpt settings) := by
  have named : Named (tests.filter fun test => !dependents.any (sameName test)) :=
    (List.filter_sublist.map _).nodup distinct
  have dependentKind : ∀ file ∈ dependents.eraseDupsBy sameName, file.relationship = .dependent :=
    fun file member => first.kind file (mem_of_mem_eraseDupsBy member)
  have testKind : ∀ file ∈ tests.filter fun test => !dependents.any (sameName test), file.relationship = .test :=
    fun file member => next.kind file (List.mem_filter.mp member).1
  intro bundle
  have entries : bundle = ⟨(dependents.eraseDupsBy sameName ++
      tests.filter fun test => !dependents.any (sameName test)).map (·.excerpt settings)⟩ := by
    rw [show bundle = _ from bundle_alone (Discovery.limited_append settings first next) (by simpa using countable),
      eraseDupsBy_append, eraseDupsBy_eq_self named]
  constructor
  · rw [entries, excerpts_ofRelationship, List.filter_append, filter_of_kind dependentKind, filter_of_kind testKind,
      if_pos rfl, if_neg (by decide), List.append_nil]
  · rw [entries, excerpts_ofRelationship, List.filter_append, filter_of_kind dependentKind, filter_of_kind testKind,
      if_pos rfl, if_neg (by decide), List.nil_append]

end Assembly

namespace Answers

open Assembly Discovery

variable {answers : Answers} {settings : Settings} {ref : RepositoryRef} {σ : Type} {host : Host σ} {world : World σ}

private theorem findDependents_of_tabled (tabled : host.Tabled ref answers world) (target : String)
    (exports : List String)
    (idle : World Unit) :
    (findDependents host settings ref target exports world).1 =
      (findDependents answers.host settings ref target exports idle).1 :=
  tabled.fst_eq (fun tied => findDependents_alike ⟨rfl, rfl, rfl⟩ (tied.agreesWithin _) target exports)
    (findDependents_alike ⟨rfl, rfl, rfl⟩ ((answers.tied_ever ref).agreesWithin _) target exports) idle

private theorem findTests_of_tabled (tabled : host.Tabled ref answers world) (target : String) (idle : World Unit) :
    (findTests host settings ref target world).1 = (findTests answers.host settings ref target idle).1 :=
  tabled.fst_eq (fun tied => findTests_alike ⟨rfl, rfl, rfl⟩ (tied.agreesWithin _) target)
    (findTests_alike ⟨rfl, rfl, rfl⟩ ((answers.tied_ever ref).agreesWithin _) target) idle

/-- What is found for a file with content are its dependents and its tests. -/
theorem found_of_tabled (tabled : host.Tabled ref answers world) {file : ChangedFile} {content : String}
    {found : List RelatedFile} (body : file.fullContent = some content)
    (went : answers.found settings ref file = .ok found) :
    ∃ dependents tests,
      (findDependents host settings ref file.filename (SourceRecord.parse file.filename content).exports world).1 =
        .ok dependents ∧
      (findTests host settings ref file.filename world).1 = .ok tests ∧ found = dependents ++ tests := by
  have completed : discoverFor answers.host settings ref file idle =
      (.ok found, (discoverFor answers.host settings ref file idle).2) := Prod.ext went rfl
  rw [discoverFor, body] at completed
  obtain ⟨dependents, middle, first, rest⟩ := bind_eq_ok_iff.mp (ofRun_eq_ok completed)
  obtain ⟨tests, last, second, made⟩ := bind_eq_ok_iff.mp rest
  obtain rfl : dependents ++ tests = found := Except.ok.inj (congrArg Prod.fst made)
  refine ⟨dependents, tests, ?_, ?_, rfl⟩
  · rw [findDependents_of_tabled tabled _ _ idle, first]
  · rw [findTests_of_tabled tabled _ middle, second]

end Answers

namespace Assembly

open Discovery RelatedFile

private theorem unnamed_all_iff {settings : Settings} {dependents tests : List RelatedFile} :
    (tests.filter fun test => !dependents.any (sameName test)).map (·.excerpt settings) =
        tests.map (·.excerpt settings) ↔
      ∀ test ∈ tests, ∀ dependent ∈ dependents, test.filename ≠ dependent.filename := by
  constructor
  · intro same
    have long := congrArg List.length same
    rw [List.length_map, List.length_map, List.length_filter_eq_length_iff] at long
    exact fun test member => unnamed_iff.mp (long test member)
  · intro apart
    rw [List.filter_eq_self.mpr fun test member => unnamed_iff.mpr (apart test member)]

private theorem fullContent_withBundle {settings : Settings} {pool own : List RelatedFile} {file : ChangedFile} :
    (withBundle settings pool file own).fullContent = file.fullContent := by
  unfold withBundle
  split <;> rfl

/-- Without related files no bundle is changed. -/
theorem dependencies_alone (answers : Answers) {settings : Settings} {strategy : Strategy}
    (unrelated : strategy ≠ .dependencyAware) (file : ChangedFile) :
    (answers.alone settings strategy file).dependencies = file.dependencies := by
  cases strategy with
  | diffOnly => rfl
  | fullFiles =>
    rw [Answers.alone, Answers.body]
    rcases answers.reply? settings file with _ | ⟨delay, e | text⟩ <;> rfl
  | dependencyAware => exact absurd rfl unrelated

/-- The bundle of a file that is alone in its change has as its tests those that were found for it as tests and not as
dependents, in their order. Those found as both are in it as dependents. -/
theorem tests_bundled_unless_dependents {σ : Type} {host : Host σ} {settings : Settings} {ref : RepositoryRef}
    {answers : Answers} {world : World σ} (tabled : host.Tabled ref answers world) (file : ChangedFile)
    (granted : ∀ call ∈ tape host settings ref [file] world, ¬ call.Denied) :
    ∃ out, (assemble host settings ref [file] world).1 = [out] ∧
      (settings.effective settings.strategy ≠ .dependencyAware → out.dependencies = file.dependencies) ∧
      (settings.effective settings.strategy = .dependencyAware → ∀ content, out.fullContent = some content →
        let exports := (SourceRecord.parse file.filename content).exports
        ∃ dependents tests bundle,
          (findDependents host settings ref file.filename exports world).1 = .ok dependents ∧
          (findTests host settings ref file.filename world).1 = .ok tests ∧ out.dependencies = some bundle ∧
          (dependents.length + tests.length ≤ Text.maxWord →
            bundle.ofRelationship .dependent = (dependents.eraseDupsBy sameName).map (·.excerpt settings) ∧
            bundle.ofRelationship .test =
              (tests.filter fun test => !dependents.any (sameName test)).map (·.excerpt settings) ∧
            (bundle.ofRelationship .test = tests.map (·.excerpt settings) ↔
              ∀ test ∈ tests, ∀ dependent ∈ dependents, test.filename ≠ dependent.filename))) := by
  have whole := outcome_of_tabled tabled granted
  by_cases aware : settings.effective settings.strategy = .dependencyAware
  · rw [aware] at whole
    obtain ⟨-, found, searched, made⟩ := Answers.related_eq_ok_iff.mp whole
    obtain ⟨own, others, went, nothing, rfl⟩ := List.forall₂_cons_left_iff.mp searched
    obtain rfl := List.forall₂_nil_left_iff.mp nothing
    replace made : (assemble host settings ref [file] world).1 =
        [withBundle settings (pool [own]) (answers.body settings file) own] := made
    refine ⟨_, made, fun other => absurd aware other, fun _ content body => ?_⟩
    rw [fullContent_withBundle] at body
    have kept : (answers.body settings file).filename = file.filename := by
      rw [Answers.body]
      rcases answers.reply? settings file with _ | ⟨delay, e | text⟩ <;> rfl
    obtain ⟨dependents, tests, first, second, rfl⟩ := Answers.found_of_tabled tabled body went
    rw [kept] at first second
    rw [withBundle_of_content body]
    refine ⟨dependents, tests, _, first, second, rfl, fun countable => ?_⟩
    have few := (findDependents_returns host settings ref file.filename _).of_fst first
    have fewTests := (findTests_returns host settings ref file.filename).of_fst second
    have distinct := findTests_distinct host ref second
    rw [kept]
    obtain ⟨dependentEntries, testEntries⟩ := relationships_alone few fewTests distinct countable
    exact ⟨dependentEntries, testEntries, by rw [testEntries, unnamed_all_iff]⟩
  · refine ⟨_, Answers.outcome_alone aware whole, fun _ => ?_, fun other => absurd other aware⟩
    exact dependencies_alone answers aware file

/-- One of the two tests imports the file. -/
theorem tests_bundled_unless_dependents_of_importing_test :
    let importer := "import './bill'"
    let text := "export class Bill \x7b\x7d"
    let repo : MemoryRepository :=
      ⟨[("bill.spec.ts", "bill"), ("bill.test.ts", importer), ("bill.ts", text), ("till.ts", importer)], [], [], []⟩
    let ref : RepositoryRef := ⟨"acme", "shop", "head-sha"⟩
    let file : ChangedFile := { filename := "bill.ts", status := .modified }
    let host := MemoryRepository.host
    let dependents : List RelatedFile :=
      [⟨"bill.test.ts", .dependent, importer, "bill.ts"⟩, ⟨"till.ts", .dependent, importer, "bill.ts"⟩]
    let tests : List RelatedFile :=
      [⟨"bill.test.ts", .test, importer, "bill.ts"⟩, ⟨"bill.spec.ts", .test, "bill", "bill.ts"⟩]
    host.Tabled ref (repo.answers ref) ⟨repo, 0⟩ ∧ (∀ call ∈ tape host {} ref [file] ⟨repo, 0⟩, ¬ call.Denied) ∧
      (findTests host {} ref "bill.ts" ⟨repo, 0⟩).1 = .ok tests ∧
      ∃ out bundle, (assemble host {} ref [file] ⟨repo, 0⟩).1 = [out] ∧ out.dependencies = some bundle ∧
        bundle.ofRelationship .dependent = (dependents.eraseDupsBy sameName).map (·.excerpt {}) ∧
        bundle.ofRelationship .test =
          (tests.filter fun test => !dependents.any (sameName test)).map (·.excerpt {}) := by
  intro importer text repo ref file host dependents tests
  have same : MemoryRepository.Same ⟨repo, 0⟩ ⟨repo, 0⟩ := .refl (by decide)
  have tabled := MemoryRepository.tabled ref same
  have granted : ∀ call ∈ tape host {} ref [file] ⟨repo, 0⟩, ¬ call.Denied := by decide +kernel
  have imported : (findDependents host {} ref "bill.ts" (SourceRecord.parse "bill.ts" text).exports ⟨repo, 0⟩).1 =
      .ok dependents := by decide +kernel
  have named : (findTests host {} ref "bill.ts" ⟨repo, 0⟩).1 = .ok tests := by decide +kernel
  have body : (assemble host {} ref [file] ⟨repo, 0⟩).1.map (·.fullContent) = [some text] := by decide +kernel
  obtain ⟨out, made, -, aware⟩ := tests_bundled_unless_dependents tabled file granted
  rw [made] at body
  obtain ⟨_, _, bundle, first, second, carried, entries⟩ := aware (by decide) text (List.singleton_inj.mp body)
  obtain rfl := Except.ok.inj (imported.symm.trans first)
  obtain rfl := Except.ok.inj (named.symm.trans second)
  obtain ⟨ofDependents, ofTests, -⟩ := entries (by decide)
  exact ⟨tabled, granted, named, out, bundle, made, carried, ofDependents, ofTests⟩

/-- The only test of a file imports it, and its bundle has no test. -/
theorem importing_test_is_no_test :
    let importer := "import './bill'"
    let repo : MemoryRepository :=
      ⟨[("bill.test.ts", importer), ("bill.ts", "export class Bill \x7b\x7d")], [], [], []⟩
    let ref : RepositoryRef := ⟨"acme", "shop", "head-sha"⟩
    let file : ChangedFile := { filename := "bill.ts", status := .modified }
    let entry (kind : Relationship) : RelatedFile := ⟨"bill.test.ts", kind, importer, "bill.ts"⟩
    repo.Stateless ∧ (∀ call ∈ tape MemoryRepository.host {} ref [file] ⟨repo, 0⟩, ¬ call.Denied) ∧
      (findTests MemoryRepository.host {} ref "bill.ts" ⟨repo, 0⟩).1 = .ok [entry .test] ∧
      (assemble MemoryRepository.host {} ref [file] ⟨repo, 0⟩).1.map (·.dependencies) =
        [some ⟨[entry .dependent]⟩] ∧
      (Bundle.mk [entry .dependent]).ofRelationship .test = [] := by
  decide +kernel

end Assembly

end ReviewContext
