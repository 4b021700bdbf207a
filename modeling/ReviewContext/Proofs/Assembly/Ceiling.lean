import ReviewContext.Proofs.Assembly.OwnTests
import ReviewContext.Proofs.Assembly.Shapes
import ReviewContext.Proofs.Discovery.Dependents
import ReviewContext.Proofs.Text.Truncation

/-! # What the ceiling hides

Discovery reads a changed file as the ceiling leaves it. All that it takes from there is whether the file
declares anything: its tests do not depend on that, and its dependents are the same for any declaration and none
without one. A declaration beyond the ceiling therefore counts only if another stands before it.
-/

namespace ReviewContext

/-- The settings with another ceiling. -/
def Settings.ceiled (ceiling : Nat) (settings : Settings) : Settings :=
  { settings with maxFileSize := ceiling }

private theorem Settings.ceiled_sameSearch (ceiling : Nat) (settings : Settings) :
    (settings.ceiled ceiling).SameSearch settings :=
  ⟨rfl, rfl, rfl⟩

/-- What tells related files apart, beside their contents. -/
def RelatedFile.relation (file : RelatedFile) : String × Relationship :=
  (file.filename, file.relationship)

namespace Discovery

variable {σ : Type} (host : Host σ) (settings : Settings) (ref : RepositoryRef) (target : String)

/-- Of the exports of a file only whether there are any decides about its dependents. -/
theorem findDependents_congr {exports others : List String} (same : exports.isEmpty = others.isEmpty) :
    findDependents host settings ref target exports = findDependents host settings ref target others := by
  unfold findDependents
  rw [same]

end Discovery

namespace Assembly

variable {σ : Type} (host : Host σ) (settings : Settings) (ref : RepositoryRef) (files : List ChangedFile)

/-- The related files that a pass finds for each file of a change. -/
def foundEach : Pass σ (List (List RelatedFile)) := do
  discoverEach host settings ref (← fullFiles host settings ref files)

variable {host settings ref files}

/-- A pass that is completed has found what it puts into the bundles. -/
theorem foundEach_of_completed {world : World σ} {out : List ChangedFile}
    (completed : (run host settings ref .dependencyAware files world).1 = .ok out) :
    ∃ enriched found, (fullFiles host settings ref files world).1 = .ok enriched ∧
      (foundEach host settings ref files world).1 = .ok found ∧
      out = List.zipWith (withBundle settings (pool found)) enriched found := by
  obtain ⟨enriched, middle, found, fetched, searched, made⟩ :=
    run_related (Prod.ext completed rfl : run host settings ref .dependencyAware files world = (.ok out, _))
  have went : foundEach host settings ref files world = (.ok found, _) :=
    bind_eq_ok_iff.mpr ⟨enriched, middle, fetched, searched⟩
  exact ⟨enriched, found, congrArg Prod.fst fetched, congrArg Prod.fst went, made⟩

/-- A pass that has found related files for every file is completed. -/
theorem completed_of_foundEach {world : World σ} {found : List (List RelatedFile)}
    (went : (foundEach host settings ref files world).1 = .ok found) :
    ∃ out, (run host settings ref .dependencyAware files world).1 = .ok out := by
  have whole : foundEach host settings ref files world = (.ok found, _) := Prod.ext went rfl
  obtain ⟨enriched, middle, fetched, searched⟩ := bind_eq_ok_iff.mp whole
  have completed : run host settings ref .dependencyAware files world = (.ok _, _) :=
    bind_eq_ok_iff.mpr ⟨enriched, middle, fetched, bind_eq_ok_iff.mpr ⟨found, _, searched, rfl⟩⟩
  exact ⟨_, congrArg Prod.fst completed⟩

private theorem foundEach_alike {τ : Type} {other : Host τ} {tie : World σ → World τ → Prop}
    (tied : host.Tied ref other tie) :
    Alike tie (foundEach host settings ref files) (foundEach other settings ref files) :=
  .bind (fullFiles_alike (.refl settings) tied files) fun enriched =>
    discoverEach_alike ⟨rfl, rfl, rfl⟩ (tied.agreesWithin _) enriched

end Assembly

namespace Answers

open Assembly Discovery

variable {answers : Answers} {settings : Settings} {ref : RepositoryRef} {file : ChangedFile} {ceiling : Nat}

/-- Whether what the ceiling leaves of a file declares anything. -/
def declares (answers : Answers) (settings : Settings) (file : ChangedFile) : Bool :=
  (answers.body settings file).fullContent.any fun content =>
    !(SourceRecord.parse file.filename content).exports.isEmpty

private theorem foundEach_eq_ok {σ : Type} {host : Host σ} {world : World σ} (tabled : host.Tabled ref answers world)
    {files : List ChangedFile} {found : List (List RelatedFile)}
    (went : (foundEach host settings ref files world).1 = .ok found) :
    List.Forall₂ (fun file one => answers.found settings ref (answers.body settings file) = .ok one) files found := by
  rw [tabled.fst_eq (fun tied => foundEach_alike tied) (foundEach_alike (answers.tied_ever ref)) idle] at went
  have plain : (foundEach answers.host settings ref files idle).1 =
      answers.bodies settings files >>= fun enriched => enriched.mapM (answers.found settings ref) :=
    bind_fst (answers.fullFiles_eq settings ref files idle) fun enriched after =>
      answers.discoverEach_eq settings ref enriched after
  rw [plain] at went
  obtain ⟨enriched, fetched, searched⟩ := except_bind_eq_ok_iff.mp went
  cases refused : answers.refusal? settings files with
  | some e => rw [bodies_of_refused refused] at fetched; cases fetched
  | none =>
    rw [bodies_of_granted refused] at fetched
    cases fetched
    exact List.forall₂_map_left_iff.mp (mapM_eq_ok_iff.mp searched)

private theorem filename_body (answers : Answers) (settings : Settings) (file : ChangedFile) :
    (answers.body settings file).filename = file.filename :=
  (withReply_sameChange file _).filename

/-- A ceiling decides about what a file contains, and not about whether it has content. -/
theorem content_ceiled (answers : Answers) (settings : Settings) (ceiling : Nat) (file : ChangedFile) :
    (answers.body (settings.ceiled ceiling) file).fullContent = (answers.body settings file).fullContent ∨
      ∃ text, answers.fetched settings.requestTimeoutSecs file.filename = .ok text ∧
        (answers.body settings file).fullContent = some (Excerpt.ofContent settings.maxFileSize text) ∧
        (answers.body (settings.ceiled ceiling) file).fullContent = some (Excerpt.ofContent ceiling text) := by
  unfold body reply? fetched
  dsimp only [Settings.ceiled]
  split
  · exact .inl rfl
  · rcases (answers.fetch file.filename).within settings.requestTimeoutSecs with ⟨delay, e | text⟩
    · exact .inl rfl
    · exact .inr ⟨text, rfl, rfl, rfl⟩

private theorem found_of_no_content (absent : (answers.body settings file).fullContent = none) :
    answers.found settings ref (answers.body settings file) = .ok [] := by
  unfold found discoverFor
  rw [absent]
  rfl

/-- The dependents found for two lists of exports are the same, or there are none for a list without any. -/
theorem dependents_shared {other : Settings} (limits : other.SameSearch settings) {target : String}
    {exports others : List String} {dependents dependentsToo : List RelatedFile}
    (first : (findDependents answers.host settings ref target exports idle).1 = .ok dependents)
    (second : (findDependents answers.host other ref target others idle).1 = .ok dependentsToo) :
    ∃ shared, (shared = dependents ∨ shared = dependentsToo) ∧
      dependents = (if !exports.isEmpty then shared else []) ∧
      dependentsToo = (if !others.isEmpty then shared else []) := by
  have none {exports dependents : _} (empty : exports.isEmpty = true)
      (went : (findDependents answers.host settings ref target exports idle).1 = .ok dependents) : dependents = [] := by
    rw [findDependents_of_needless _ _ _ _ (.inl (List.isEmpty_iff.mp empty))] at went
    exact (Except.ok.inj went).symm
  rw [(findDependents_alike limits ((answers.tied_ever ref).agreesWithin _) target others trivial).1] at second
  cases declared : exports.isEmpty with
  | true =>
    refine ⟨dependentsToo, .inr rfl, none declared first, ?_⟩
    cases also : others.isEmpty with
    | true => exact none also second
    | false => rfl
  | false =>
    refine ⟨dependents, .inl rfl, rfl, ?_⟩
    cases also : others.isEmpty with
    | true => exact none also second
    | false =>
      rw [findDependents_congr _ _ _ _ (declared.trans also.symm), second] at first
      exact Except.ok.inj first

/-- Two ceilings leave a file the same tests, and the same dependents if both or neither leave a declaration. -/
def Settled (first second : Bool) (found others : List RelatedFile) : Prop :=
  ∃ dependents tests : List RelatedFile, (∀ file ∈ dependents, file.relationship = .dependent) ∧
    (∀ file ∈ tests, file.relationship = .test) ∧
    found = (if first then dependents else []) ++ tests ∧ others = (if second then dependents else []) ++ tests ∧
    (found.map RelatedFile.relation = others.map RelatedFile.relation ↔ first = second ∨ dependents = [])

private theorem settled (first second : Bool) {dependents tests : List RelatedFile}
    (dependentKind : ∀ file ∈ dependents, file.relationship = .dependent)
    (testKind : ∀ file ∈ tests, file.relationship = .test) :
    Settled first second ((if first then dependents else []) ++ tests)
      ((if second then dependents else []) ++ tests) := by
  refine ⟨dependents, tests, dependentKind, testKind, rfl, rfl, fun same => ?_, ?_⟩
  · have long := congrArg List.length same
    simp only [List.length_map, List.length_append, Nat.add_right_cancel_iff] at long
    cases first <;> cases second
    · exact .inl rfl
    · exact .inr (List.length_eq_zero_iff.mp long.symm)
    · exact .inr (List.length_eq_zero_iff.mp long)
    · exact .inl rfl
  · rintro (rfl | rfl)
    · rfl
    · simp only [ite_self]

private theorem found_settled {ceiling : Nat} {found others : List RelatedFile}
    (went : answers.found settings ref (answers.body settings file) = .ok found)
    (again : answers.found (settings.ceiled ceiling) ref (answers.body (settings.ceiled ceiling) file) = .ok others) :
    Settled (answers.declares settings file) (answers.declares (settings.ceiled ceiling) file) found others := by
  have limits := settings.ceiled_sameSearch ceiling
  cases body : (answers.body settings file).fullContent with
  | none =>
    have absent : (answers.body (settings.ceiled ceiling) file).fullContent = none := by
      rcases content_ceiled answers settings ceiling file with same | ⟨text, -, kept, -⟩
      · exact same.trans body
      · cases body.symm.trans kept
    cases (found_of_no_content body).symm.trans went
    cases (found_of_no_content absent).symm.trans again
    simpa only [ite_self, List.append_nil] using
      settled (answers.declares settings file) (answers.declares (settings.ceiled ceiling) file) (List.forall_mem_nil _)
        (List.forall_mem_nil _)
  | some content =>
    obtain ⟨other, bodyToo⟩ : ∃ other, (answers.body (settings.ceiled ceiling) file).fullContent = some other := by
      rcases content_ceiled answers settings ceiling file with same | ⟨text, -, -, kept⟩
      · exact ⟨content, same.trans body⟩
      · exact ⟨_, kept⟩
    obtain ⟨dependents, tests, first, next, rfl⟩ := found_of_tabled (answers.tabled_host ref) body went
    obtain ⟨dependentsToo, testsToo, firstToo, nextToo, rfl⟩ := found_of_tabled (answers.tabled_host ref) bodyToo again
    rw [filename_body] at first next firstToo nextToo
    have declared {settings : Settings} {text : String} (kept : (answers.body settings file).fullContent = some text) :
        answers.declares settings file = !(SourceRecord.parse file.filename text).exports.isEmpty := by
      rw [declares, kept, Option.any_some]
    obtain ⟨shared, either, ofDependents, ofDependentsToo⟩ := dependents_shared limits first firstToo
    have dependentKind : ∀ related ∈ shared, related.relationship = .dependent := by
      rcases either with rfl | rfl
      · exact ((findDependents_returns _ _ _ _ _).of_fst first).kind
      · exact ((findDependents_returns _ _ _ _ _).of_fst firstToo).kind
    rw [(findTests_alike limits ((answers.tied_ever ref).agreesWithin _) file.filename trivial).1, next] at nextToo
    cases nextToo
    rw [ofDependents, ofDependentsToo, declared body, declared bodyToo]
    exact settled _ _ dependentKind ((findTests_returns _ _ _ _).of_fst next).kind

/-- A file whose text is within both ceilings is read whole under both. -/
theorem declares_of_fits {ceiling : Nat}
    (fits : ∀ text, answers.fetched settings.requestTimeoutSecs file.filename = .ok text →
      text.length ≤ settings.maxFileSize ∧ text.length ≤ ceiling) :
    answers.declares settings file = answers.declares (settings.ceiled ceiling) file := by
  have same : (answers.body (settings.ceiled ceiling) file).fullContent = (answers.body settings file).fullContent := by
    rcases content_ceiled answers settings ceiling file with same | ⟨text, fetched, kept, keptToo⟩
    · exact same
    · obtain ⟨first, second⟩ := fits text fetched
      rw [kept, keptToo, Excerpt.ofContent, Excerpt.ofContent, Excerpt.truncate_of_le first,
        Excerpt.truncate_of_le second]
  rw [declares, declares, same]

end Answers

namespace Assembly

/-- Under two ceilings a pass finds the same tests for every file, and the same dependents unless only one of the
ceilings leaves a declaration in the file, which none does that leaves the file whole. -/
theorem ceiling_hides_only_declarations {σ : Type} {host : Host σ} {answers : Answers} {ref : RepositoryRef}
    {world : World σ} (tabled : host.Tabled ref answers world) (settings : Settings) (ceiling : Nat)
    (files out others : List ChangedFile)
    (completed : (run host settings ref .dependencyAware files world).1 = .ok out)
    (again : (run host (settings.ceiled ceiling) ref .dependencyAware files world).1 = .ok others) :
    ∃ found foundToo, (foundEach host settings ref files world).1 = .ok found ∧
      (foundEach host (settings.ceiled ceiling) ref files world).1 = .ok foundToo ∧
      found.length = files.length ∧ foundToo.length = files.length ∧
      List.Forall₂ (fun file pair =>
        let first := answers.declares settings file
        let second := answers.declares (settings.ceiled ceiling) file
        Answers.Settled first second pair.1 pair.2 ∧ (first = second → pair.1 = pair.2) ∧
          ((∀ text, answers.fetched settings.requestTimeoutSecs file.filename = .ok text →
            text.length ≤ settings.maxFileSize ∧ text.length ≤ ceiling) → first = second))
        files (found.zip foundToo) := by
  obtain ⟨-, found, -, went, -⟩ := foundEach_of_completed completed
  obtain ⟨-, foundToo, -, wentToo, -⟩ := foundEach_of_completed again
  have each := Answers.foundEach_eq_ok tabled went
  have eachToo := Answers.foundEach_eq_ok tabled wentToo
  refine ⟨found, foundToo, went, wentToo, each.length_eq.symm, eachToo.length_eq.symm, ?_⟩
  refine (forall₂_zip_right each eachToo).imp fun file pair ⟨one, other⟩ => ?_
  have settled := Answers.found_settled one other
  refine ⟨settled, fun same => ?_, Answers.declares_of_fits⟩
  obtain ⟨dependents, tests, -, -, first, second, -⟩ := settled
  rw [first, second, same]

/-- A file that declares something in its first line, one that does so only in its second, and one that is gone. -/
theorem ceiling_hides_only_declarations_of_late_export :
    let both := "import './bill'\nimport './till'"
    let repo : MemoryRepository :=
      ⟨[("bill.ts", "// Totals of a sale.\nexport class Bill \x7b\x7d"), ("desk.ts", both),
        ("till.test.ts", "till"), ("till.ts", "export class Till \x7b\x7d")], [], [], []⟩
    let files : List ChangedFile := [{ filename := "till.ts", status := .modified },
      { filename := "bill.ts", status := .modified }, { filename := "gone.ts", status := .removed }]
    let ref : RepositoryRef := ⟨"shop", "till", "main"⟩
    let host := MemoryRepository.host
    let settings : Settings := {}
    let dependent (target : String) : RelatedFile := ⟨"desk.ts", .dependent, both, target⟩
    let test : RelatedFile := ⟨"till.test.ts", .test, "till", "till.ts"⟩
    let found := [[dependent "till.ts", test], [dependent "bill.ts"], []]
    let foundToo := [[dependent "till.ts", test], [], []]
    host.Tabled ref (repo.answers ref) ⟨repo, 0⟩ ∧
      (∃ out, (run host settings ref .dependencyAware files ⟨repo, 0⟩).1 = .ok out) ∧
      (∃ out, (run host (settings.ceiled 20) ref .dependencyAware files ⟨repo, 0⟩).1 = .ok out) ∧
      (foundEach host settings ref files ⟨repo, 0⟩).1 = .ok found ∧
      (foundEach host (settings.ceiled 20) ref files ⟨repo, 0⟩).1 = .ok foundToo ∧
      files.map ((repo.answers ref).declares settings) = [true, true, false] ∧
      files.map ((repo.answers ref).declares (settings.ceiled 20)) = [true, false, false] ∧
      List.Forall₂ (fun file pair => Answers.Settled ((repo.answers ref).declares settings file)
        ((repo.answers ref).declares (settings.ceiled 20) file) pair.1 pair.2) files (found.zip foundToo) := by
  intro both repo files ref host settings dependent test found foundToo
  have same : MemoryRepository.Same ⟨repo, 0⟩ ⟨repo, 0⟩ := .refl (by decide)
  have tabled := MemoryRepository.tabled ref same
  have searched : (foundEach host settings ref files ⟨repo, 0⟩).1 = .ok found := by decide +kernel
  have searchedToo : (foundEach host (settings.ceiled 20) ref files ⟨repo, 0⟩).1 = .ok foundToo := by decide +kernel
  obtain ⟨out, completed⟩ := completed_of_foundEach searched
  obtain ⟨others, again⟩ := completed_of_foundEach searchedToo
  obtain ⟨one, other, went, wentToo, -, -, each⟩ :=
    ceiling_hides_only_declarations tabled settings 20 files out others completed again
  obtain rfl := Except.ok.inj (went.symm.trans searched)
  obtain rfl := Except.ok.inj (wentToo.symm.trans searchedToo)
  exact ⟨tabled, ⟨out, completed⟩, ⟨others, again⟩, searched, searchedToo, by decide +kernel, by decide +kernel,
    each.imp fun _ _ settled => settled.1⟩

/-- The only declaration of a file stands beyond the ceiling, and the file that imports it is not found. -/
theorem late_export_lost :
    let importer := "import './bill'"
    let repo : MemoryRepository :=
      ⟨[("bill.ts", "// Totals of a sale.\nexport class Bill \x7b\x7d"), ("till.ts", importer)], [], [], []⟩
    let files : List ChangedFile := [{ filename := "bill.ts", status := .modified }]
    let ref : RepositoryRef := ⟨"acme", "shop", "head-sha"⟩
    let host := MemoryRepository.host
    let settings : Settings := {}
    repo.Stateless ∧
      (∃ out, (run host settings ref .dependencyAware files ⟨repo, 0⟩).1 = .ok out) ∧
      (∃ out, (run host (settings.ceiled 20) ref .dependencyAware files ⟨repo, 0⟩).1 = .ok out) ∧
      (foundEach host settings ref files ⟨repo, 0⟩).1 = .ok [[⟨"till.ts", .dependent, importer, "bill.ts"⟩]] ∧
      (foundEach host (settings.ceiled 20) ref files ⟨repo, 0⟩).1 = .ok [[]] := by
  intro importer repo files ref host settings
  have found : (foundEach host settings ref files ⟨repo, 0⟩).1 =
      .ok [[⟨"till.ts", .dependent, importer, "bill.ts"⟩]] := by decide +kernel
  have lost : (foundEach host (settings.ceiled 20) ref files ⟨repo, 0⟩).1 = .ok [[]] := by decide +kernel
  exact ⟨by decide, completed_of_foundEach found, completed_of_foundEach lost, found, lost⟩

end Assembly

end ReviewContext
