import ReviewContext.Proofs.Discovery.Accepted
import ReviewContext.Proofs.Discovery.Dependents

/-! # Hits that are listed twice

Whether a hit is a dependent does not depend on those accepted before it. A path that a search lists twice is
therefore fetched twice and found twice, and takes two of the places there are. Of hits that are all different
the files found are different too.
-/

namespace ReviewContext.Discovery

instance (settings : Settings) (target : String) (exports : List String) :
    Decidable (Needless settings target exports) :=
  inferInstanceAs (Decidable (_ ∨ _ ∨ _))

namespace Screening

variable {screen : Screen} {hits : List String} {accepted found : List RelatedFile} {calls : List Call}
  {result : Ending (List RelatedFile)}

/-- Every hit is used once at most. -/
theorem found_sublist (screening : Screening screen hits accepted calls result) (completed : result = .ok found) :
    ∃ added, found = accepted ++ added ∧ (added.map (·.filename)).Sublist hits := by
  induction screening with
  | exhausted => cases completed; exact ⟨[], (List.append_nil _).symm, .slnil⟩
  | enough full => cases completed; exact ⟨[], (List.append_nil _).symm, List.nil_sublist _⟩
  | passed room skipped tail ih =>
    obtain ⟨added, same, listed⟩ := ih completed
    exact ⟨added, same, listed.cons _⟩
  | refused room admitted fatal => cases completed
  | unread room admitted mild tail ih =>
    obtain ⟨added, same, listed⟩ := ih completed
    exact ⟨added, same, listed.cons _⟩
  | @read path rest accepted content calls result room admitted tail ih =>
    obtain ⟨added, same, listed⟩ := ih completed
    simp only [Screen.judge] at same
    split at same
    · refine ⟨_, same.trans (List.append_assoc _ _ _), ?_⟩
      exact listed.cons_cons path
    · exact ⟨added, same, listed.cons _⟩

end Screening

/-- A dependent is added to the names if there is room, whether it is new or not. -/
def fill (cap : Nat) (names : List String) (path : String) : List String :=
  if names.length < cap then names ++ [path] else names

private theorem foldl_fill {cap : Nat} (paths : List String) {names : List String} (within : names.length ≤ cap) :
    paths.foldl (fill cap) names = (names ++ paths).take cap := by
  induction paths generalizing names with
  | nil => rw [List.foldl_nil, List.append_nil, List.take_of_length_le within]
  | cons path rest ih =>
    rw [List.foldl_cons]
    by_cases room : names.length < cap
    · have next : (names ++ [path]).length ≤ cap := by
        rw [List.length_append, List.length_singleton]
        omega
      rw [fill, if_pos room, ih next, List.append_assoc, List.singleton_append]
    · have full : cap ≤ names.length := Nat.le_of_not_lt room
      rw [fill, if_neg room, ih within, List.take_append_of_le_length full, List.take_append_of_le_length full]

private theorem names_accept_dependents (settings : Settings) (target : String) (answers : Answers) (seconds : Nat)
    (accepted : List RelatedFile) (path : String) :
    ((Screen.dependents settings target).accept answers seconds accepted path).map (·.filename) =
      if mayDepend target path && (Screen.dependents settings target).shows answers seconds path then
        fill settings.maxDependents (accepted.map (·.filename)) path
      else accepted.map (·.filename) := by
  rw [Screen.names_accept, fill, ← ite_and, List.length_map]
  refine if_congr ?_ rfl rfl
  rw [Bool.and_eq_true, and_comm]
  rfl

/-- By a table of answers the dependents are the first hits that may be dependents and show it. -/
theorem Screening.dependents_by_table {settings : Settings} {target : String} {hits : List String}
    {calls : List Call} {found : List RelatedFile} {answers : Answers} {seconds : Nat}
    (screening : Screening (.dependents settings target) hits [] calls (.ok found))
    (given : ∀ call ∈ calls, answers.Gives seconds call) :
    found.map (·.filename) =
      (hits.filter fun path =>
        mayDepend target path && (Screen.dependents settings target).shows answers seconds path).take
          settings.maxDependents := by
  rw [screening.found_by_table rfl given, Screen.names_foldl (names_accept_dependents settings target answers seconds)]
  exact foldl_fill _ (Nat.zero_le _)

variable {σ : Type} (host : Host σ) (settings : Settings) (ref : RepositoryRef) (target : String)

/-- The hits that a discovery of dependents looks at. -/
def lookedAt (exports : List String) (world : World σ) : List String :=
  match (Language.ofPath target).importKeyword? with
  | some keyword =>
    if Needless settings target exports then []
    else
      let query := Query.text [keyword, Path.baseName target]
      let reply := (host.search ref query (dependentBudget settings) world.host).1
      ((reply.within settings.requestTimeoutSecs).result.toOption.getD []).take (dependentBudget settings)
  | none => []

private theorem lookedAt_of_needless {exports : List String} (needless : Needless settings target exports)
    (world : World σ) : lookedAt host settings ref target exports world = [] := by
  unfold lookedAt
  cases (Language.ofPath target).importKeyword? with
  | none => rfl
  | some keyword => exact if_pos needless

variable {exports : List String} {found : List RelatedFile}

private theorem lookedAt_of_needed {exports : List String} {keyword : String}
    (imports : (Language.ofPath target).importKeyword? = some keyword) (needed : ¬ Needless settings target exports)
    (world : World σ) :
    let reply := (host.search ref (.text [keyword, Path.baseName target]) (dependentBudget settings) world.host).1
    lookedAt host settings ref target exports world =
      ((reply.within settings.requestTimeoutSecs).result.toOption.getD []).take (dependentBudget settings) := by
  unfold lookedAt
  rw [imports]
  exact if_neg needed

/-- A discovery of dependents that is completed has screened the hits that it looks at. -/
theorem dependents_screened {world : World σ}
    (completed : (findDependents host settings ref target exports world).1 = .ok found) :
    ∃ searches fetches, dependentsTape host settings ref target exports world = searches ++ fetches ∧
      (∀ call ∈ searches, call.path? = none) ∧
      Screening (.dependents settings target) (lookedAt host settings ref target exports world) [] fetches
        (.ok found) := by
  rw [← findDependents_fst_recorded] at completed
  by_cases needless : Needless settings target exports
  · have nothing := findDependents_of_needless (host.recorded settings.requestTimeoutSecs) settings ref target
      needless world.recorded
    rw [nothing] at completed
    cases completed
    rw [dependentsTape, nothing, lookedAt_of_needless host settings ref target needless]
    exact ⟨[], [], rfl, by simp, .exhausted⟩
  have relative : (Language.ofPath target).hasRelativeImports = true := by
    by_contra foreign
    exact needless (.inr (.inr (by simpa using foreign)))
  obtain ⟨keyword, imports⟩ := importKeyword?_of_relative relative
  have asks := findDependents_of_needed (host.recorded settings.requestTimeoutSecs) settings ref target imports
    needless
  rw [asks, bind_apply, candidates_recorded] at completed
  rw [dependentsTape, asks, bind_apply, candidates_recorded,
    lookedAt_of_needed host settings ref target imports needless]
  dsimp only [World.recorded] at completed ⊢
  generalize ((host.search ref (.text [keyword, Path.baseName target]) (dependentBudget settings) world.host).1.within
    settings.requestTimeoutSecs).result = ending at completed ⊢
  cases went : Ending.attempted ending with
  | error e =>
    rw [went] at completed
    cases completed
  | ok hits? =>
    obtain rfl := Ending.toOption_of_attempted went
    rw [went] at completed
    dsimp only [Except.map] at completed ⊢
    rw [acceptDependents_eq_screened] at completed ⊢
    obtain ⟨fetches, added, screening⟩ := screened_leaves host settings ref (.dependents settings target)
      ((ending.toOption.getD []).take (dependentBudget settings)) [] _
    exact ⟨[_], fetches, added, List.forall_mem_singleton.mpr rfl, completed ▸ screening⟩

private theorem shown?_dependents : (Screen.dependents settings target).shown? = dependent? target := by
  funext call
  rcases call with ⟨path, e | content⟩ | _ <;> rfl

private theorem dependentsTape_gives (exports : List String) {answers : Answers} {world : World σ}
    (tabled : host.Tabled ref answers world) :
    ∀ call ∈ dependentsTape host settings ref target exports world,
      answers.Gives settings.requestTimeoutSecs call :=
  Answers.tape_gives
    (findDependents_alike ⟨rfl, rfl, rfl⟩ ((answers.tied_kept host ref _).agreesWithin _) target exports) tabled

/-- The dependents that are found are those that the calls show, and their names are hits that were looked at, each
of them used once at most. By a table of answers they are the first of the hits that may be dependents and show it,
with all repetitions, so that they are different exactly if these are. -/
theorem dependents_distinct_iff {world : World σ}
    (completed : (findDependents host settings ref target exports world).1 = .ok found) :
    let hits := lookedAt host settings ref target exports world
    let names := found.map (·.filename)
    found = (dependentsTape host settings ref target exports world).filterMap (dependent? target) ∧
      names.Sublist hits ∧ (hits.Nodup → names.Nodup) ∧
      ∀ answers, host.Tabled ref answers world →
        let confirmed := hits.filter fun path => mayDepend target path &&
          (Screen.dependents settings target).shows answers settings.requestTimeoutSecs path
        names = confirmed.take settings.maxDependents ∧
          (names.Nodup ↔ (confirmed.take settings.maxDependents).Nodup) := by
  intro hits names
  obtain ⟨searches, fetches, whole, searched, screening⟩ := dependents_screened host settings ref target completed
  obtain ⟨added, same, listed⟩ := screening.found_sublist rfl
  obtain rfl : found = added := same
  have unshown : searches.filterMap (dependent? target) = [] := by
    refine List.filterMap_eq_nil_iff.mpr fun call member => ?_
    have none := searched call member
    cases call with
    | fetch path ending => cases none
    | search query limit ending => rfl
  refine ⟨?_, listed, listed.nodup, fun answers tabled => ?_⟩
  · rw [whole, List.filterMap_append, unshown, List.nil_append, ← shown?_dependents settings target]
    exact screening.found_eq rfl
  · intro confirmed
    have given := dependentsTape_gives host settings ref target exports tabled
    rw [whole] at given
    have first : names = confirmed.take settings.maxDependents :=
      screening.dependents_by_table (List.forall_mem_append.mp given).2
    exact ⟨first, by rw [← first]⟩

/-- Of the repeated hits one may not be a dependent, and the others are listed again behind those looked at. -/
theorem dependents_distinct_iff_of_late_repeats :
    let importer := "import { bill } from './bill';"
    let hits := ["readme.md", "desk.ts", "readme.md", "till.ts", "desk.ts", "till.ts"]
    let repo : MemoryRepository :=
      ⟨[("desk.ts", "bill"), ("till.ts", importer)], [], [("*", ⟨none, 0, some hits, none⟩)], []⟩
    let settings : Settings := { maxDependents := 2 }
    let ref : RepositoryRef := ⟨"shop", "till", "main"⟩
    let found := [⟨"till.ts", .dependent, importer, "bill.ts"⟩]
    (findDependents MemoryRepository.host settings ref "bill.ts" ["bill"] ⟨repo, 0⟩).1 = .ok found ∧
      lookedAt MemoryRepository.host settings ref "bill.ts" ["bill"] ⟨repo, 0⟩ = hits.take 4 ∧
      MemoryRepository.host.Tabled ref (repo.answers ref) ⟨repo, 0⟩ ∧
      found.map (·.filename) = ((hits.take 4).filter fun path => mayDepend "bill.ts" path &&
        (Screen.dependents settings "bill.ts").shows (repo.answers ref) settings.requestTimeoutSecs path).take 2 := by
  intro importer hits repo settings ref found
  have completed : (findDependents MemoryRepository.host settings ref "bill.ts" ["bill"] ⟨repo, 0⟩).1 = .ok found := by
    decide +kernel
  have looked : lookedAt MemoryRepository.host settings ref "bill.ts" ["bill"] ⟨repo, 0⟩ = hits.take 4 := by
    decide +kernel
  have same : MemoryRepository.Same ⟨repo, 0⟩ ⟨repo, 0⟩ := .refl (by decide)
  have tabled := MemoryRepository.tabled ref same
  obtain ⟨-, -, -, byTable⟩ := dependents_distinct_iff MemoryRepository.host settings ref "bill.ts" completed
  have first := (byTable (repo.answers ref) tabled).1
  rw [looked] at first
  exact ⟨completed, looked, tabled, first⟩

/-- A hit that is listed twice takes both places there are, and keeps another dependent out. -/
theorem dependent_found_twice :
    let importer := "import './bill'"
    let repo (hits : List String) : MemoryRepository :=
      ⟨[("bill.ts", "export class Bill \x7b\x7d"), ("desk.ts", importer), ("till.ts", importer)], [],
        [("text:import bill", ⟨none, 0, some hits, none⟩)], []⟩
    let settings : Settings := { maxDependents := 2 }
    let ref : RepositoryRef := ⟨"acme", "shop", "head-sha"⟩
    let found (hits : List String) :=
      (findDependents MemoryRepository.host settings ref "bill.ts" ["Bill"] ⟨repo hits, 0⟩).1
    let till : RelatedFile := ⟨"till.ts", .dependent, importer, "bill.ts"⟩
    let desk : RelatedFile := ⟨"desk.ts", .dependent, importer, "bill.ts"⟩
    found ["till.ts", "till.ts", "desk.ts"] = .ok [till, till] ∧ found ["till.ts", "desk.ts"] = .ok [till, desk] ∧
      ¬ ([till, till].map (·.filename)).Nodup := by
  decide +kernel

end ReviewContext.Discovery
