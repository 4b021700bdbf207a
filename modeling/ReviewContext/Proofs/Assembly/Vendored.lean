import ReviewContext.Proofs.Assembly.Verified
import ReviewContext.Proofs.Discovery.Dependents
import ReviewContext.Proofs.Discovery.NamedTests

/-! # Vendored files

Dependents are not looked for among vendored and generated files. Tests are: a vendored file that a search for its own
name answers with is fetched like any other, and becomes context if it mentions the target. In no other way does a
vendored file become context, nor is it fetched for that.
-/

namespace ReviewContext

/-- A search for the name of this file has answered with it. -/
def ByName (calls : List Call) (path : String) : Prop :=
  ∃ limit hits, .search (.filename (Path.fileName path)) limit (.ok hits) ∈ calls ∧ path ∈ hits

private theorem ByName.mono {calls more : List Call} {path : String} (named : ByName calls path) (kept : calls ⊆ more) :
    ByName more path := by
  obtain ⟨limit, hits, searched, hit⟩ := named
  exact ⟨limit, hits, kept searched, hit⟩

/-- No vendored file is fetched but one of these files and a hit for its own name. -/
def Sought (files : List ChangedFile) (calls : List Call) : Prop :=
  ∀ path ending, .fetch path ending ∈ calls → Path.isVendored path = true →
    (∃ file ∈ files, file.filename = path) ∨ ByName calls path

namespace Sought

variable {files : List ChangedFile} {calls more : List Call}

private theorem nothing : Sought files [] :=
  fun _ _ member => nomatch member

private theorem append (first : Sought files calls) (next : Sought files more) : Sought files (calls ++ more) := by
  intro path ending member vendored
  rcases List.mem_append.mp member with early | late
  · exact (first path ending early vendored).imp_right (·.mono (List.subset_append_left _ _))
  · exact (next path ending late vendored).imp_right (·.mono (List.subset_append_right _ _))

private theorem widen (sought : Sought [] calls) : Sought files calls :=
  fun path ending member vendored => .inr ((sought path ending member vendored).resolve_left (by simp))

private theorem byName (sought : Sought [] calls) {path : String} {ending : Ending String}
    (fetched : .fetch path ending ∈ calls) (vendored : Path.isVendored path = true) : ByName calls path :=
  (sought path ending fetched vendored).resolve_left (by simp)

/-- Steps that are sought make a run that is. -/
theorem bind {σ α β ε : Type} {step : ExceptT ε (StateM (World (Recorded σ))) α}
    {rest : α → ExceptT ε (StateM (World (Recorded σ))) β} (first : Leaves step fun calls _ => Sought files calls)
    (next : ∀ a, Leaves (rest a) fun calls _ => Sought files calls) :
    Leaves (step >>= rest) fun calls _ => Sought files calls :=
  .bind first (fun _ _ sought => sought) fun _ a sought => (next a).imp fun _ _ more => sought.append more

end Sought

namespace Discovery

variable {σ : Type} (host : Host σ) (settings : Settings) (ref : RepositoryRef) (target : String)

/-- A discovery of dependents fetches nothing vendored. -/
theorem findDependents_unvendored (exports : List String) :
    Leaves (findDependents (host.recorded settings.requestTimeoutSecs) settings ref target exports)
      fun calls _ => ∀ path ending, .fetch path ending ∈ calls → Path.isVendored path = false := by
  unfold findDependents
  dsimp only
  split
  · split
    · exact .pure (by simp)
    refine .bind (candidates_searches host settings ref _ _) ?_ ?_
    · rintro _ e ⟨ending, rfl, -⟩
      simp
    · rintro _ hits ⟨ending, rfl, -⟩
      rw [acceptDependents_eq_screened]
      refine (screened_leaves host settings ref _ _ []).imp fun calls result screening path fetch member => ?_
      obtain ⟨-, before, admitted⟩ := screening.admitted_of_fetched (by simpa using member)
      simp only [Screen.dependents, mayDepend, Bool.and_eq_true, Bool.not_eq_true'] at admitted
      exact admitted.1.2
  · exact .pure (by simp)

private theorem findDependents_sought (exports : List String) :
    Leaves (findDependents (host.recorded settings.requestTimeoutSecs) settings ref target exports)
      fun calls _ => Sought [] calls :=
  (findDependents_unvendored host settings ref target exports).imp fun calls _ own path ending member vendored => by
    rw [own path ending member] at vendored
    cases vendored

private theorem Asking.sought {settings : Settings} {target : String} {names : List String}
    {accepted : List RelatedFile}
    {calls : List Call} {result : Ending (List RelatedFile)}
    (asking : Asking settings target names accepted calls result) : Sought [] calls := by
  intro path ending member _
  obtain ⟨early, late, rfl⟩ := List.append_of_mem member
  have starts : early ++ [.fetch path ending] <+: early ++ .fetch path ending :: late := by simp
  obtain ⟨-, before, hits, between, rfl, -, hit⟩ := asking.search_before_fetch starts
  exact .inr ⟨settings.maxTests, hits, by simp, hit⟩

private theorem findTests_sought :
    Leaves (findTests (host.recorded settings.requestTimeoutSecs) settings ref target)
      fun calls _ => Sought [] calls := by
  unfold findTests
  split
  · exact .pure .nothing
  · exact (acceptNames_asks host settings ref target _ []).imp fun _ _ asking => asking.sought

private theorem discover_sought (path content : String) :
    Leaves (discover (host.recorded settings.requestTimeoutSecs) settings ref path content)
      fun calls _ => Sought [] calls :=
  Sought.bind (findDependents_sought host settings ref path _) fun _ =>
    Sought.bind (findTests_sought host settings ref path) fun _ => .pure .nothing

end Discovery

/-- A vendored file that is related to another is a test that was searched for by name. -/
theorem RelatedFile.Verified.of_vendored {path content : String} {calls : List Call} {related : RelatedFile}
    (verified : related.Verified path content calls) (sought : Sought [] calls)
    (vendored : Path.isVendored related.filename = true) :
    related.relationship = .test ∧ ByName calls related.filename := by
  refine ⟨?_, sought.byName verified.fetched vendored⟩
  cases kind : related.relationship with
  | test => rfl
  | dependent =>
    rw [(verified.dependent kind).2.1] at vendored
    cases vendored

/-- Vendored files stand in the bundles of these files as tests that were searched for by name. -/
def Stocked (calls : List Call) (files : List ChangedFile) : Prop :=
  ∀ file ∈ files, ∀ bundle, file.dependencies = some bundle → ∀ related ∈ bundle.relatedFiles,
    Path.isVendored related.filename = true → related.relationship = .test ∧ ByName calls related.filename

private theorem Backs.stocked {settings : Settings} {files : List ChangedFile} {calls : List Call}
    (backs : Backs settings files calls) (sought : Sought [] calls) : Stocked calls files := by
  intro file member bundle carried related drawn vendored
  obtain ⟨-, target, -, content, whole, -, verified, rfl⟩ := backs file member bundle carried related drawn
  exact verified.of_vendored sought vendored

private theorem Stocked.mono {files : List ChangedFile} {calls more : List Call} (stocked : Stocked calls files)
    (kept : calls ⊆ more) : Stocked more files := by
  intro file member bundle carried related drawn vendored
  obtain ⟨test, named⟩ := stocked file member bundle carried related drawn vendored
  exact ⟨test, named.mono kept⟩

private theorem Stocked.of_plain {files : List ChangedFile} (plain : ∀ file ∈ files, file.dependencies = none)
    (calls : List Call) : Stocked calls files := by
  intro file member bundle carried
  rw [plain file member] at carried
  cases carried

namespace Assembly

variable {σ : Type} (host : Host σ) (settings : Settings) (ref : RepositoryRef)

private theorem discoverEach_sought (files : List ChangedFile) :
    Leaves (discoverEach (host.recorded settings.requestTimeoutSecs) settings ref files)
      fun calls _ => Sought [] calls := by
  induction files with
  | nil => exact .pure .nothing
  | cons file rest ih =>
    rw [discoverEach_cons]
    refine Sought.bind ?_ fun found => Sought.bind ih fun others => .pure .nothing
    unfold discoverFor
    cases file.fullContent with
    | none => exact .pure .nothing
    | some content =>
      refine (ofRun_leaves _ (Discovery.discover_sought host settings ref file.filename content)).imp ?_
      exact fun calls result ⟨_, sought, _⟩ => sought

private theorem Bodies.sought {settings : Settings} {files : List ChangedFile} {calls : List Call}
    {result : Except DegradationReason (List ChangedFile)} (bodies : Bodies settings files calls result) :
    Sought files calls := by
  obtain ⟨-, replies, fetches, -⟩ := bodies
  intro path ending member _
  have listed : some path ∈ calls.map Call.path? := List.mem_map_of_mem member
  rw [fetches.paths] at listed
  obtain ⟨file, present, same⟩ := List.mem_map.mp listed
  exact .inl ⟨file, (List.mem_filter.mp present).1, Option.some.inj same⟩

variable {files : List ChangedFile}

private theorem run_stocked (plain : ∀ file ∈ files, file.dependencies = none) (strategy : Strategy) :
    Leaves (run (host.recorded settings.requestTimeoutSecs) settings ref strategy files)
      fun calls result => Sought files calls ∧ ∀ out, result = .ok out → Stocked calls out := by
  cases strategy with
  | diffOnly =>
    refine .pure ⟨.nothing, ?_⟩
    rintro _ ⟨⟩
    refine .of_plain (fun file member => ?_) _
    obtain ⟨before, known, rfl⟩ := List.mem_map.mp member
    exact plain before known
  | fullFiles =>
    refine (fullFiles_leaves host settings ref files).imp fun calls result fetched => ⟨fetched.sought, ?_⟩
    rintro out rfl
    exact .of_plain (fetched.plain plain) _
  | dependencyAware =>
    refine .bind (fullFiles_leaves host settings ref files) (fun _ _ fetched => ⟨fetched.sought, nofun⟩) ?_
    intro calls enriched fetched
    refine .bind ((discoverEach_leaves host settings ref enriched).and (discoverEach_sought host settings ref enriched))
      (fun _ _ ⟨_, sought⟩ => ⟨fetched.sought.append sought.widen, nofun⟩) ?_
    rintro more found ⟨searched, sought⟩
    refine .pure ?_
    rw [List.append_nil]
    refine ⟨fetched.sought.append sought.widen, ?_⟩
    rintro _ ⟨⟩
    exact ((searched.backs (fetched.plain plain)).stocked sought).mono (List.subset_append_right _ _)

private theorem assemble_stocked (plain : ∀ file ∈ files, file.dependencies = none) :
    Leaves (assemble (host.recorded settings.requestTimeoutSecs) settings ref files)
      fun calls out => Sought files calls ∧ Stocked calls out := by
  have unbundled (calls : List Call) (reason : DegradationReason) : Stocked calls (unenriched reason files) := by
    refine .of_plain (fun file member => ?_) _
    obtain ⟨before, known, rfl⟩ := List.mem_map.mp member
    exact plain before known
  apply assemble_leaves_of host settings ref files (run_stocked host settings ref plain)
  · exact fun ⟨sought, stocked⟩ => ⟨sought, stocked _ rfl⟩
  · exact fun ⟨sought, _⟩ _ => ⟨sought, unbundled _ _⟩
  · exact fun ⟨sought, _⟩ _ ⟨more, stocked⟩ =>
      ⟨sought.append more, (stocked _ rfl).mono (List.subset_append_right _ _)⟩
  · exact fun ⟨sought, _⟩ _ ⟨more, _⟩ => ⟨sought.append more, unbundled _ _⟩

end Assembly

namespace Discovery

variable {σ : Type} (host : Host σ) (settings : Settings) (ref : RepositoryRef)

/-- The calls of the discovery for a file, with how they ended. -/
def discoverTape (path content : String) (world : World σ) : List Call :=
  (discover (host.recorded settings.requestTimeoutSecs) settings ref path content world.recorded).2.host.tape

/-- Keeping a tape changes nothing of what is found. -/
theorem discover_fst_recorded (path content : String) (world : World σ) :
    (discover (host.recorded settings.requestTimeoutSecs) settings ref path content world.recorded).1 =
      (discover host settings ref path content world).1 :=
  (discover_alike ⟨rfl, rfl, rfl⟩ ((host.tied_recorded ref _).agreesWithin _) path content).fst_recorded world

variable {found : List RelatedFile} {related : RelatedFile}

private theorem dependents_unvendored {target : String} {exports : List String} {world : World σ}
    (completed : (findDependents host settings ref target exports world).1 = .ok found) (member : related ∈ found) :
    Path.isVendored related.filename = false := by
  rw [← findDependents_fst_recorded] at completed
  obtain ⟨account, own⟩ := ((findDependents_leaves host settings ref target exports).and
    (findDependents_unvendored host settings ref target exports)).fresh world
  obtain ⟨-, confirmed⟩ := (account.evident found completed related member).resolve_left List.not_mem_nil
  exact own _ _ confirmed.fetched

private theorem tests_by_name {target : String} {world : World σ}
    (completed : (findTests host settings ref target world).1 = .ok found) (member : related ∈ found)
    (vendored : Path.isVendored related.filename = true) :
    ByName (testsTape host settings ref target world) related.filename := by
  rw [← findTests_fst_recorded] at completed
  obtain ⟨account, sought⟩ := ((findTests_leaves host settings ref target).and
    (findTests_sought host settings ref target)).fresh world
  obtain ⟨-, name, -, confirmed⟩ := (account.evident found completed related member).resolve_left List.not_mem_nil
  exact sought.byName confirmed.fetched vendored

private theorem discovered_by_name {path content : String} {world : World σ}
    (completed : (discover host settings ref path content world).1 = .ok found) (member : related ∈ found)
    (vendored : Path.isVendored related.filename = true) :
    related.relationship = .test ∧ ByName (discoverTape host settings ref path content world) related.filename := by
  rw [← discover_fst_recorded] at completed
  obtain ⟨account, sought⟩ := ((discover_leaves host settings ref path content).and
    (discover_sought host settings ref path content)).fresh world
  have verified := (account.evident found completed related member).resolve_left List.not_mem_nil
  exact verified.of_vendored sought vendored

/-- Nothing vendored is fetched for dependents or found as one. Whatever is vendored and related to another file is a
test that a search for its own name has answered with, and nothing else that is vendored is fetched for a relation. -/
theorem vendored_only_by_name (world : World σ) :
    (∀ target exports,
      (∀ path ending, .fetch path ending ∈ dependentsTape host settings ref target exports world →
        Path.isVendored path = false) ∧
      ∀ found, (findDependents host settings ref target exports world).1 = .ok found →
        ∀ related ∈ found, Path.isVendored related.filename = false) ∧
    (∀ target,
      let tape := testsTape host settings ref target world
      Sought [] tape ∧ ∀ found, (findTests host settings ref target world).1 = .ok found →
        ∀ related ∈ found, Path.isVendored related.filename = true → ByName tape related.filename) ∧
    (∀ path content,
      let tape := discoverTape host settings ref path content world
      Sought [] tape ∧ ∀ found, (discover host settings ref path content world).1 = .ok found →
        ∀ related ∈ found, Path.isVendored related.filename = true →
          related.relationship = .test ∧ ByName tape related.filename) ∧
    ∀ files, (∀ file ∈ files, file.dependencies = none) →
      let tape := Assembly.tape host settings ref files world
      Sought files tape ∧ Stocked tape (assemble host settings ref files world).1 := by
  refine ⟨fun target exports => ⟨?_, ?_⟩, fun target => ⟨?_, ?_⟩, fun path content => ⟨?_, ?_⟩, fun files plain => ?_⟩
  · exact (findDependents_unvendored host settings ref target exports).fresh world
  · exact fun found completed related => dependents_unvendored host settings ref completed
  · exact (findTests_sought host settings ref target).fresh world
  · exact fun found completed related => tests_by_name host settings ref completed
  · exact (discover_sought host settings ref path content).fresh world
  · exact fun found completed related => discovered_by_name host settings ref completed
  · have stocked := (Assembly.assemble_stocked host settings ref plain).fresh world
    rw [Assembly.assemble_recorded] at stocked
    exact stocked

/-- Of two vendored files that import the target, the one with the name of a test is found. -/
theorem vendored_only_by_name_of_package :
    let importer := "import '../bill';"
    let repo : MemoryRepository :=
      ⟨[("bill.ts", "export class Bill \x7b\x7d"), ("dist/till.ts", importer), ("node_modules/bill.test.ts", importer)],
        [], [], []⟩
    let ref : RepositoryRef := ⟨"shop", "till", "main"⟩
    let files : List ChangedFile := [{ filename := "bill.ts", status := .modified }]
    let tape := Assembly.tape MemoryRepository.host {} ref files ⟨repo, 0⟩
    let test : RelatedFile := ⟨"node_modules/bill.test.ts", .test, importer, "bill.ts"⟩
    (∀ file ∈ files, file.dependencies = none) ∧
      Path.isVendored "dist/till.ts" = true ∧ Path.isVendored test.filename = true ∧
      (assemble MemoryRepository.host {} ref files ⟨repo, 0⟩).1.map (·.dependencies) = [some ⟨[test]⟩] ∧
      Sought files tape ∧ Stocked tape (assemble MemoryRepository.host {} ref files ⟨repo, 0⟩).1 := by
  intro importer repo ref files tape test
  have plain : ∀ file ∈ files, file.dependencies = none := by decide
  obtain ⟨-, -, -, assembled⟩ := vendored_only_by_name MemoryRepository.host {} ref ⟨repo, 0⟩
  obtain ⟨sought, stocked⟩ := assembled files plain
  exact ⟨plain, by decide +kernel, by decide +kernel, by decide +kernel, sought, stocked⟩

/-- A vendored file is fetched and found as a test. -/
theorem vendored_test_found :
    let repo : MemoryRepository :=
      ⟨[("bill.ts", "export class Bill \x7b\x7d"), ("node_modules/bill.test.ts", "bill")], [], [], []⟩
    let ref : RepositoryRef := ⟨"acme", "shop", "head-sha"⟩
    let test : RelatedFile := ⟨"node_modules/bill.test.ts", .test, "bill", "bill.ts"⟩
    Path.isVendored test.filename = true ∧
      (testsTape MemoryRepository.host {} ref "bill.ts" ⟨repo, 0⟩).filterMap Call.path? = [test.filename] ∧
      (findTests MemoryRepository.host {} ref "bill.ts" ⟨repo, 0⟩).1 = .ok [test] ∧
      (assemble MemoryRepository.host {} ref [{ filename := "bill.ts", status := .modified }] ⟨repo, 0⟩).1.map
        (·.dependencies) = [some ⟨[test]⟩] := by
  decide +kernel

end Discovery

end ReviewContext
