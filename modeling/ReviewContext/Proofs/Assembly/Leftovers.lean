import ReviewContext.Proofs.Assembly.Again

/-! # Records of an earlier assembly

A record may bring content, a bundle or a note that an earlier assembly put there. Whatever a pass makes of
the file itself takes the place of these, and what the pass does not make stays as it was brought. The
related files are found by the content, so that two assemblies of one change differ in what they find only
if a record brings content that this assembly did not fetch.
-/

namespace ReviewContext

namespace ChangedFile

/-- The file as a change gives it, without what an earlier assembly put there. -/
def bare (file : ChangedFile) : ChangedFile where
  filename := file.filename
  status := file.status
  patch := file.patch

/-- What stands in `out`, and where nothing stands there what stands in `file`. -/
def laidOver (out file : ChangedFile) : ChangedFile :=
  { out with
    fullContent := out.fullContent.or file.fullContent
    dependencies := out.dependencies.or file.dependencies
    degradation := out.degradation.or file.degradation }

/-- All that stands in `file` stands where something stands in `out` too. -/
structure CoveredBy (file out : ChangedFile) : Prop where
  content : file.fullContent.isSome → out.fullContent.isSome
  dependencies : file.dependencies.isSome → out.dependencies.isSome
  degradation : file.degradation.isSome → out.degradation.isSome

instance (file out : ChangedFile) : Decidable (file.CoveredBy out) :=
  decidable_of_iff ((file.fullContent.isSome → out.fullContent.isSome) ∧
      (file.dependencies.isSome → out.dependencies.isSome) ∧ (file.degradation.isSome → out.degradation.isSome))
    ⟨fun ⟨content, dependencies, degradation⟩ => ⟨content, dependencies, degradation⟩,
      fun ⟨content, dependencies, degradation⟩ => ⟨content, dependencies, degradation⟩⟩

/-- All that stands in `fresh` stands in `out` as well. -/
structure KeptIn (fresh out : ChangedFile) : Prop extends fresh.SameChange out where
  strategy : out.strategy = fresh.strategy
  content : fresh.fullContent.isSome → out.fullContent = fresh.fullContent
  dependencies : fresh.dependencies.isSome → out.dependencies = fresh.dependencies
  degradation : fresh.degradation.isSome → out.degradation = fresh.degradation

variable {fresh out file : ChangedFile}

private theorem or_of_covered {α : Type} {first second : Option α} (covered : second.isSome → first.isSome) :
    first.or second = first := by
  cases first with
  | some a => rfl
  | none =>
    cases second with
    | some b => cases covered rfl
    | none => rfl

private theorem laidOver_of_covered (covered : file.CoveredBy out) : out.laidOver file = out := by
  rw [laidOver, or_of_covered covered.content, or_of_covered covered.dependencies, or_of_covered covered.degradation]

private theorem zipWith_laidOver_of_covered {files others : List ChangedFile}
    (covered : List.Forall₂ CoveredBy files others) : List.zipWith .laidOver others files = others := by
  induction covered with
  | nil => rfl
  | cons one rest ih => rw [List.zipWith_cons_cons, laidOver_of_covered one, ih]

private theorem keptIn_laidOver (out file : ChangedFile) : out.KeptIn (out.laidOver file) :=
  ⟨⟨rfl, rfl, rfl⟩, rfl, Option.or_of_isSome, Option.or_of_isSome, Option.or_of_isSome⟩

end ChangedFile

namespace Answers

open Assembly

variable {answers : Answers} {settings : Settings} {ref : RepositoryRef} {file : ChangedFile}
  {files : List ChangedFile}

/-- The passes that an assembly makes. -/
inductive Tries (answers : Answers) (settings : Settings) (ref : RepositoryRef) (files : List ChangedFile) :
    Strategy → Prop
  | requested : Tries answers settings ref files (settings.effective settings.strategy)
  | fallback {reason : DegradationReason}
    (failed : answers.outcome settings ref (settings.effective settings.strategy) files = .error reason) :
    Tries answers settings ref files (settings.effective settings.fallback)

/-- A file that brings content gets content by its own fetch. -/
def Refetched (answers : Answers) (settings : Settings) (file : ChangedFile) : Prop :=
  file.fullContent.isSome → (answers.body settings file.bare).fullContent.isSome

/-! ## Single files -/

private theorem body_bare (answers : Answers) (settings : Settings) (file : ChangedFile) :
    answers.body settings file = (answers.body settings file.bare).laidOver file := by
  have same : answers.reply? settings file.bare = answers.reply? settings file := rfl
  unfold body
  rw [same]
  rcases answers.reply? settings file with _ | ⟨delay, e | text⟩ <;> rfl

private theorem source_of_refetched (refetched : Refetched answers settings file) :
    SameSource answers settings file.bare file := by
  refine ⟨⟨rfl, rfl, rfl⟩, ?_⟩
  rw [body_bare]
  exact ChangedFile.or_of_covered refetched

/-- If any file of a source has content, so has every file of that source after its fetch. -/
theorem SameSource.fetched {other : ChangedFile} (same : SameSource answers settings file other)
    (there : other.fullContent.isSome) : (answers.body settings file).fullContent.isSome := by
  rw [← same.content, body_bare]
  simp [ChangedFile.laidOver, there]

private theorem withBundle_laidOver (pool found : List RelatedFile) {fresh : ChangedFile}
    (content : file.fullContent.isSome → fresh.fullContent.isSome) :
    withBundle settings pool (fresh.laidOver file) found = (withBundle settings pool fresh found).laidOver file := by
  have same : (fresh.laidOver file).fullContent = fresh.fullContent := ChangedFile.or_of_covered content
  cases body : fresh.fullContent with
  | none => rw [withBundle_of_no_content body, withBundle_of_no_content (same.trans body)]
  | some text =>
    rw [withBundle_of_content body, withBundle_of_content (same.trans body)]
    rfl

/-! ## Passes -/

private theorem refusal?_bare (answers : Answers) (settings : Settings) (files : List ChangedFile) :
    answers.refusal? settings (files.map .bare) = answers.refusal? settings files := by
  simp only [refusal?, List.filterMap_map]
  rfl

/-- What is done to each bare file by itself leaves in the records what it does not make. -/
theorem map_laidOver {change : ChangedFile → ChangedFile}
    (each : ∀ file, change file = (change file.bare).laidOver file) (files : List ChangedFile) :
    files.map change = List.zipWith .laidOver ((files.map .bare).map change) files := by
  rw [List.map_map, List.zipWith_map_left, List.zipWith_self]
  exact List.map_congr_left fun file _ => each file

private theorem zipWith_laidOver {combine : ChangedFile → List RelatedFile → ChangedFile}
    (each : ∀ file ∈ files, ∀ one, combine file one = (combine file.bare one).laidOver file)
    (found : List (List RelatedFile)) :
    List.zipWith combine files found =
      List.zipWith .laidOver (List.zipWith combine (files.map .bare) found) files := by
  induction files generalizing found with
  | nil => simp
  | cons file files ih =>
    cases found with
    | nil => simp
    | cons one found =>
      have rest := ih (fun other member => each other (List.mem_cons_of_mem file member)) found
      simp only [List.map_cons, List.zipWith_cons_cons, each file List.mem_cons_self one, rest]

private theorem sources_of_refetched (refetched : ∀ file ∈ files, Refetched answers settings file) :
    List.Forall₂ (SameSource answers settings) (files.map .bare) files :=
  List.forall₂_map_left_iff.mpr (List.forall₂_same.mpr fun file member => source_of_refetched (refetched file member))

/-- A pass makes of the records what it makes of the bare files, and leaves in them what it does not make. -/
theorem outcome_bare (ref : RepositoryRef) (strategy : Strategy)
    (refetched : strategy = .dependencyAware → ∀ file ∈ files, Refetched answers settings file) :
    answers.outcome settings ref strategy files =
      (answers.outcome settings ref strategy (files.map .bare)).map (List.zipWith .laidOver · files) := by
  have refusals := refusal?_bare answers settings files
  cases strategy with
  | diffOnly => exact congrArg Except.ok (map_laidOver (fun _ => rfl) files)
  | fullFiles =>
    cases refused : answers.refusal? settings files with
    | some e =>
      rw [whole_of_refused refused, whole_of_refused (refusals.trans refused)]
      rfl
    | none =>
      rw [whole_of_granted refused, whole_of_granted (refusals.trans refused)]
      exact congrArg Except.ok (map_laidOver (body_bare answers settings) files)
  | dependencyAware =>
    specialize refetched rfl
    cases refused : answers.refusal? settings files with
    | some e =>
      rw [related_of_refused refused, related_of_refused (refusals.trans refused)]
      rfl
    | none =>
      rw [related_of_granted refused, related_of_granted (refusals.trans refused),
        founds_congr (sources_of_refetched refetched)]
      cases (files.map ChangedFile.bare).mapM fun file =>
          answers.found settings ref (answers.body settings file) with
      | error reason => rfl
      | ok found =>
        refine congrArg Except.ok (zipWith_laidOver (fun file member one => ?_) found)
        rw [body_bare]
        exact withBundle_laidOver (pool found) one (refetched file member)

/-! ## Assemblies -/

private theorem unenriched_bare (reason : DegradationReason) (files : List ChangedFile) :
    unenriched reason files = List.zipWith .laidOver (unenriched reason (files.map .bare)) files :=
  map_laidOver (fun _ => rfl) files

private theorem assembled_bare
    (refetched : Tries answers settings ref files .dependencyAware →
      ∀ file ∈ files, Refetched answers settings file) :
    answers.assembled settings ref files =
      List.zipWith .laidOver (answers.assembled settings ref (files.map .bare)) files := by
  have first := outcome_bare ref (settings.effective settings.strategy)
    fun related => refetched (related ▸ .requested)
  cases requested : answers.outcome settings ref (settings.effective settings.strategy) (files.map .bare) with
  | ok fresh =>
    rw [requested] at first
    rw [assembled_of_completed requested, assembled_of_completed first]
  | error reason =>
    rw [requested] at first
    by_cases identical : settings.effective settings.fallback = settings.effective settings.strategy
    · rw [assembled_of_identical requested identical, assembled_of_identical first identical, unenriched_bare]
    · have second := outcome_bare ref (settings.effective settings.fallback)
        fun related => refetched (related ▸ .fallback first)
      rw [assembled_of_failed requested identical, assembled_of_failed first identical, second]
      cases answers.outcome settings ref (settings.effective settings.fallback) (files.map .bare) with
      | ok fresh => rfl
      | error last => exact unenriched_bare last files

/-- An assembly returns what a pass came to, or if all have failed the files as they are. -/
theorem assembled_cases (answers : Answers) (settings : Settings) (ref : RepositoryRef) (files : List ChangedFile) :
    (∃ strategy, Tries answers settings ref files strategy ∧
      answers.outcome settings ref strategy files = .ok (answers.assembled settings ref files)) ∨
    ∃ reason, answers.assembled settings ref files = unenriched reason files := by
  cases first : answers.outcome settings ref (settings.effective settings.strategy) files with
  | ok enriched => exact .inl ⟨_, .requested, by rw [first, assembled_of_completed first]⟩
  | error reason =>
    by_cases identical : settings.effective settings.fallback = settings.effective settings.strategy
    · exact .inr ⟨reason, assembled_of_identical first identical⟩
    · rw [assembled_of_failed first identical]
      cases second : answers.outcome settings ref (settings.effective settings.fallback) files with
      | ok enriched => exact .inl ⟨_, .fallback first, second⟩
      | error last => exact .inr ⟨last, rfl⟩

private theorem sources_assembled (answers : Answers) (settings : Settings) (ref : RepositoryRef)
    (files : List ChangedFile) :
    List.Forall₂ (SameSource answers settings) files (answers.assembled settings ref files) := by
  rcases assembled_cases answers settings ref files with ⟨strategy, _, completed⟩ | ⟨reason, failed⟩
  · exact sources_of_outcome completed
  · rw [failed]
    exact sources_unenriched reason files

/-- Content that stands in a bare file after an assembly was fetched by it. -/
theorem refetched_of_covered
    (covered : List.Forall₂ ChangedFile.CoveredBy files (answers.assembled settings ref (files.map .bare))) :
    ∀ file ∈ files, Refetched answers settings file := by
  have sources := List.forall₂_map_left_iff.mp (sources_assembled answers settings ref (files.map .bare))
  intro file member brought
  have both := List.Forall₂.mp (fun _ _ => And.intro) covered sources
  obtain ⟨fresh, -, covered, same⟩ := exists_of_forall₂_right both.flip member
  exact same.fetched (covered.content brought)

/-- Files of which each brings nothing that is not made anew come back as bare files do. -/
theorem assembled_of_covered
    (covered : List.Forall₂ ChangedFile.CoveredBy files (answers.assembled settings ref (files.map .bare))) :
    answers.assembled settings ref files = answers.assembled settings ref (files.map .bare) := by
  rw [assembled_bare fun _ => refetched_of_covered covered]
  exact ChangedFile.zipWith_laidOver_of_covered covered

private theorem kept_assembled
    (refetched : Tries answers settings ref files .dependencyAware →
      ∀ file ∈ files, Refetched answers settings file) :
    List.Forall₂ ChangedFile.KeptIn (answers.assembled settings ref (files.map .bare))
      (answers.assembled settings ref files) := by
  rw [assembled_bare refetched]
  exact forall₂_zipWith (List.forall₂_map_left_iff.mp (sources_assembled answers settings ref (files.map .bare))).flip
    fun fresh file _ => ChangedFile.keptIn_laidOver fresh file

/-- If no pass that fetches is completed the files come back as they are, but for the strategy and the reason. -/
theorem assembled_of_patches
    (patches : ∀ strategy made, Tries answers settings ref files strategy →
      answers.outcome settings ref strategy files = .ok made → strategy = .diffOnly) :
    ∃ (tag : Option Strategy) (note : Option String), answers.assembled settings ref files =
      files.map fun file => { file with strategy := tag, degradation := note.or file.degradation } := by
  rcases assembled_cases answers settings ref files with ⟨strategy, tried, completed⟩ | ⟨reason, failed⟩
  · obtain rfl := patches strategy _ tried completed
    exact ⟨some .diffOnly, none, (Except.ok.inj completed).symm⟩
  · exact ⟨none, some reason.message, failed⟩

/-- A removed file has no content and no bundle but what it brought, unless it brought content. -/
def Spared (file out : ChangedFile) : Prop :=
  file.isRemoved = true → file.fullContent = none → out.fullContent = none ∧ out.dependencies = file.dependencies

private theorem spared_body (file : ChangedFile) : Spared file (answers.body settings file) := by
  intro gone absent
  rw [body, reply?, if_pos gone]
  exact ⟨absent, rfl⟩

private theorem spared_withBundle (pool found : List RelatedFile) (file : ChangedFile) :
    Spared file (withBundle settings pool (answers.body settings file) found) := by
  intro gone absent
  have body : (answers.body settings file).fullContent = none := (spared_body file gone absent).1
  rw [withBundle_of_no_content body]
  exact spared_body file gone absent

private theorem spared_assembled (files : List ChangedFile) :
    List.Forall₂ Spared files (answers.assembled settings ref files) := by
  rcases assembled_cases answers settings ref files with ⟨strategy, -, completed⟩ | ⟨reason, failed⟩
  · generalize answers.assembled settings ref files = out at completed
    cases strategy with
    | diffOnly =>
      cases completed
      exact forall₂_map_self (fun _ _ absent => ⟨absent, rfl⟩) files
    | fullFiles =>
      obtain ⟨-, rfl⟩ := whole_eq_ok_iff.mp completed
      exact forall₂_map_self spared_body files
    | dependencyAware =>
      obtain ⟨-, found, searched, rfl⟩ := related_eq_ok_iff.mp completed
      exact forall₂_zipWith searched fun file one _ => spared_withBundle (pool found) one file
  · rw [failed]
    exact forall₂_map_self (fun _ _ absent => ⟨absent, rfl⟩) files

end Answers

namespace Assembly

/-- What an assembly makes of a file does not depend on what the record brought, and what it does not make is
left as it was brought. -/
theorem assemble_renews_records {σ : Type} {host : Host σ} {answers : Answers} {ref : RepositoryRef}
    {world : World σ} (tabled : host.Tabled ref answers world) (settings : Settings) (files : List ChangedFile) :
    let fresh := (assemble host settings ref (files.map .bare) world).1
    let out := (assemble host settings ref files world).1
    (List.Forall₂ ChangedFile.CoveredBy files fresh → out = fresh) ∧
      ((answers.Tries settings ref files .dependencyAware → ∀ file ∈ files, answers.Refetched settings file) →
        List.Forall₂ ChangedFile.KeptIn fresh out) ∧
      ((∀ strategy made, answers.Tries settings ref files strategy →
          (run host settings ref strategy files world).1 = .ok made → strategy = .diffOnly) →
        ∃ (tag : Option Strategy) (note : Option String), out =
          files.map fun file => { file with strategy := tag, degradation := note.or file.degradation }) ∧
      List.Forall₂ Answers.Spared files out := by
  intro fresh out
  have ofFresh : fresh = answers.assembled settings ref (files.map .bare) :=
    assemble_of_tabled settings ref (files.map .bare) tabled
  have ofOut : out = answers.assembled settings ref files := assemble_of_tabled settings ref files tabled
  rw [ofFresh, ofOut]
  refine ⟨Answers.assembled_of_covered, Answers.kept_assembled, fun patches => ?_, Answers.spared_assembled files⟩
  exact Answers.assembled_of_patches fun strategy made tried completed =>
    patches strategy made tried ((run_of_tabled settings ref files tabled strategy).trans completed)

/-- Records of which one is made anew, one cannot be fetched and one is gone, and the same records left alone. -/
theorem assemble_renews_records_of_late_run :
    let repo : MemoryRepository := ⟨[("bill.lua", "return 1"), ("bill.test.lua", "require bill")], [], [], []⟩
    let ref : RepositoryRef := ⟨"shop", "till", "main"⟩
    let host := MemoryRepository.host
    let settings : Settings := {}
    let patches : Settings := { strategy := .diffOnly }
    let bill : ChangedFile := { filename := "bill.lua", status := .modified, fullContent := some "return 0",
                                strategy := some .fullFiles, dependencies := some ⟨[]⟩ }
    let late : List ChangedFile := [{ bill with degradation := some "late" },
      { filename := "lost.lua", status := .added, dependencies := some ⟨[]⟩, degradation := some "late" },
      { filename := "old.lua", status := .removed, strategy := some .dependencyAware }]
    let out (settings : Settings) (files : List ChangedFile) := (assemble host settings ref files ⟨repo, 0⟩).1
    host.Tabled ref (repo.answers ref) ⟨repo, 0⟩ ∧
      List.Forall₂ ChangedFile.CoveredBy [bill] (out settings [bill.bare]) ∧
      out settings [bill] = out settings [bill.bare] ∧ out settings [bill] ≠ [bill] ∧
      (∀ file ∈ late, (repo.answers ref).Refetched settings file) ∧
      List.Forall₂ ChangedFile.KeptIn (out settings (late.map .bare)) (out settings late) ∧
      List.Forall₂ Answers.Spared late (out settings late) ∧
      (∀ strategy made, (repo.answers ref).Tries patches ref late strategy →
        (run host patches ref strategy late ⟨repo, 0⟩).1 = .ok made → strategy = .diffOnly) ∧
      ∃ (tag : Option Strategy) (note : Option String), out patches late =
        late.map fun file => { file with strategy := tag, degradation := note.or file.degradation } := by
  intro repo ref host settings patches bill late out
  have same : MemoryRepository.Same ⟨repo, 0⟩ ⟨repo, 0⟩ := .refl (by decide)
  have tabled := MemoryRepository.tabled ref same
  obtain ⟨renewed, -⟩ := assemble_renews_records tabled settings [bill]
  obtain ⟨-, kept, -, spared⟩ := assemble_renews_records tabled settings late
  obtain ⟨-, -, untouched, -⟩ := assemble_renews_records tabled patches late
  have covered : List.Forall₂ ChangedFile.CoveredBy [bill] (out settings [bill.bare]) := by decide +kernel
  have refetched : ∀ file ∈ late, (repo.answers ref).Refetched settings file := by
    simp only [Answers.Refetched]
    decide +kernel
  have only : ∀ strategy made, (repo.answers ref).Tries patches ref late strategy →
      (run host patches ref strategy late ⟨repo, 0⟩).1 = .ok made → strategy = .diffOnly := by
    rintro _ made (_ | failed) _
    · rfl
    · cases failed
  exact ⟨tabled, covered, renewed covered, by decide +kernel, refetched, kept fun _ => refetched, spared, only,
    untouched only⟩

/-- Patches alone are asked for, and the content, the bundle and the note of an earlier assembly stay. -/
theorem leftovers_stay_with_patches :
    let file : ChangedFile := { filename := "bill.ts", status := .modified, fullContent := some "old",
                                strategy := some .fullFiles, dependencies := some ⟨[]⟩, degradation := some "late" }
    let world : World MemoryRepository := ⟨⟨[], [], [], []⟩, 0⟩
    let ref : RepositoryRef := ⟨"acme", "shop", "head-sha"⟩
    let settings : Settings := { strategy := .diffOnly }
    let out := (assemble MemoryRepository.host settings ref [file] world).1
    let fresh := (assemble MemoryRepository.host settings ref [file.bare] world).1
    world.host.Stateless ∧ out = [{ file with strategy := some .diffOnly }] ∧
      fresh = [{ filename := "bill.ts", status := .modified, strategy := some .diffOnly }] ∧ out ≠ fresh := by
  decide +kernel

end Assembly

end ReviewContext
