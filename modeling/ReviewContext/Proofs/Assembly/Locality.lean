import ReviewContext.Proofs.Assembly.Answers
import ReviewContext.Proofs.Assembly.Denial

/-! # What a file owes to itself

As long as no call is refused, the files of a change share nothing but the pool of related files. All of a
file but its bundle is made from that file and from the reply to its own fetch, so that a change can be
assembled in parts.
-/

namespace ReviewContext

/-- A file without its bundle. -/
def ChangedFile.unbundled (file : ChangedFile) : ChangedFile :=
  { file with dependencies := none }

namespace Answers

open Assembly

/-- What a pass that is completed makes of a file, apart from the bundle. -/
def alone (answers : Answers) (settings : Settings) : Strategy → ChangedFile → ChangedFile
  | .diffOnly, file => { file with strategy := some .diffOnly }
  | .fullFiles, file => answers.body settings file
  | .dependencyAware, file =>
    let file := answers.body settings file
    if file.fullContent.isSome then { file with strategy := some .dependencyAware } else file

variable {answers : Answers} {settings : Settings} {ref : RepositoryRef} {strategy : Strategy}
  {files xs ys out : List ChangedFile}

private theorem unbundled_withBundle (pool found : List RelatedFile) (file : ChangedFile) :
    (withBundle settings pool (answers.body settings file) found).unbundled =
      (answers.alone settings .dependencyAware file).unbundled := by
  unfold withBundle alone
  dsimp only
  split <;> rfl

/-- Without bundles no file depends on another. -/
theorem outcome_unbundled (completed : answers.outcome settings ref strategy files = .ok out) :
    out.map (·.unbundled) = files.map fun file => (answers.alone settings strategy file).unbundled := by
  cases strategy with
  | diffOnly =>
    cases completed
    exact List.map_map
  | fullFiles =>
    obtain ⟨_, rfl⟩ := whole_eq_ok_iff.mp completed
    exact List.map_map
  | dependencyAware =>
    obtain ⟨_, found, searched, rfl⟩ := related_eq_ok_iff.mp completed
    rw [List.map_zipWith]
    simp only [unbundled_withBundle]
    exact zipWith_of_forall₂ searched

/-- Without discoveries, each file depends on its own reply only. -/
theorem outcome_alone (unrelated : strategy ≠ .dependencyAware)
    (completed : answers.outcome settings ref strategy files = .ok out) :
    out = files.map (answers.alone settings strategy) := by
  cases strategy with
  | diffOnly => cases completed; rfl
  | fullFiles => exact (whole_eq_ok_iff.mp completed).2
  | dependencyAware => exact (unrelated rfl).elim

private theorem refusal?_append :
    answers.refusal? settings (xs ++ ys) = none ↔
      answers.refusal? settings xs = none ∧ answers.refusal? settings ys = none := by
  simp only [refusal?, Option.map_eq_none_iff, firstFatal?_eq_none_iff, List.filterMap_append,
    List.forall_mem_append]

/-- If a pass over a whole change is completed, so are the passes over its parts. -/
theorem outcome_append (completed : answers.outcome settings ref strategy (xs ++ ys) = .ok out) :
    (∃ left, answers.outcome settings ref strategy xs = .ok left) ∧
      ∃ right, answers.outcome settings ref strategy ys = .ok right := by
  cases strategy with
  | diffOnly => exact ⟨⟨_, rfl⟩, ⟨_, rfl⟩⟩
  | fullFiles =>
    obtain ⟨granted, _⟩ := whole_eq_ok_iff.mp completed
    obtain ⟨left, right⟩ := refusal?_append.mp granted
    exact ⟨⟨_, whole_of_granted left⟩, ⟨_, whole_of_granted right⟩⟩
  | dependencyAware =>
    obtain ⟨granted, found, searched, _⟩ := related_eq_ok_iff.mp completed
    obtain ⟨left, right⟩ := refusal?_append.mp granted
    have first := (List.forall₂_take_append found xs ys searched.flip).flip
    have second := (List.forall₂_drop_append found xs ys searched.flip).flip
    exact ⟨⟨_, related_eq_ok_iff.mpr ⟨left, _, first, rfl⟩⟩, ⟨_, related_eq_ok_iff.mpr ⟨right, _, second, rfl⟩⟩⟩

end Answers

namespace Assembly

open MemoryRepository

variable {settings : Settings} {ref : RepositoryRef} {files : List ChangedFile}
  {start world : World MemoryRepository}

/-- The clock and the notes apart, a stateless repository is after an assembly what it was before. -/
theorem same_after_assemble (same : Same start world) (files : List ChangedFile) :
    Same start (assemble host settings ref files world).2 :=
  same.trans (assemble_alike (.refl settings) (tied_since ref world) rfl rfl files
    ⟨rfl, .refl same.symm.stateless⟩).2.2

/-- If no call is refused, an assembly returns what its first pass comes to. -/
theorem outcome_of_tabled {σ : Type} {host : Host σ} {answers : Answers} {world : World σ}
    (tabled : host.Tabled ref answers world) (granted : ∀ call ∈ tape host settings ref files world, ¬ call.Denied) :
    answers.outcome settings ref (settings.effective settings.strategy) files =
      .ok (assemble host settings ref files world).1 := by
  obtain ⟨out, completed⟩ := run_completes granted
  rw [← run_of_tabled settings ref files tabled, completed, assemble_of_completed completed]

/-- A pass in which no call is refused is completed, by the table of answers too. -/
theorem outcome_of_granted (same : Same start world)
    (granted : ∀ call ∈ tape host settings ref files world, ¬ call.Denied) :
    (start.host.answers ref).outcome settings ref (settings.effective settings.strategy) files =
      .ok (assemble host settings ref files world).1 :=
  outcome_of_tabled (tabled ref same) granted

/-- A change is assembled in parts as it is as a whole, its bundles apart, and without related files
altogether. -/
theorem failures_stay_local (settings : Settings) (ref : RepositoryRef) (xs ys : List ChangedFile)
    (world : World MemoryRepository) (stateless : world.host.Stateless)
    (granted : ∀ call ∈ tape host settings ref (xs ++ ys) world, ¬ call.Denied) :
    let joint := (assemble host settings ref (xs ++ ys) world).1
    let first := assemble host settings ref xs world
    let second := assemble host settings ref ys first.2
    (settings.effective settings.strategy ≠ .dependencyAware → joint = first.1 ++ second.1) ∧
      joint.map (·.unbundled) = (first.1 ++ second.1).map (·.unbundled) := by
  intro joint first second
  have since : Same world first.2 := same_after_assemble (.refl stateless) xs
  have whole := outcome_of_granted (.refl stateless) granted
  obtain ⟨⟨left, wentLeft⟩, ⟨right, wentRight⟩⟩ := Answers.outcome_append whole
  have madeLeft : first.1 = left := (assemble_of_stateless settings ref xs (.refl stateless)).trans
    (Answers.assembled_of_completed wentLeft)
  have madeRight : second.1 = right := (assemble_of_stateless settings ref ys since).trans
    (Answers.assembled_of_completed wentRight)
  rw [madeLeft, madeRight]
  constructor
  · intro unrelated
    rw [Answers.outcome_alone unrelated wentLeft, Answers.outcome_alone unrelated wentRight, ← List.map_append]
    exact Answers.outcome_alone unrelated whole
  · rw [List.map_append, Answers.outcome_unbundled wentLeft, Answers.outcome_unbundled wentRight,
      ← List.map_append]
    exact Answers.outcome_unbundled whole

/-- Both parts hold the same file, once changed and once removed. Split in two, the change has other bundles, since
there is room for one test only, and all else is the same. -/
theorem failures_stay_local_of_repeated_file :
    let xs : List ChangedFile := [{ filename := "bill.lua", status := .modified },
      { filename := "lost.lua", status := .added }]
    let ys : List ChangedFile := [{ filename := "till.lua", status := .renamed, degradation := some "late" },
      { filename := "bill.lua", status := .removed }]
    let stored := [("bill.lua", "return 1"), ("bill.test.lua", "require bill"), ("till.lua", "return 3")]
    let world : World MemoryRepository := ⟨⟨stored, [], [], []⟩, 0⟩
    let ref : RepositoryRef := ⟨"shop", "till", "main"⟩
    let related : Settings := { maxTests := 1 }
    let whole : Settings := { strategy := .fullFiles }
    let joint := (assemble host related ref (xs ++ ys) world).1
    let first := assemble host related ref xs world
    let second := assemble host related ref ys first.2
    let wholeFirst := assemble host whole ref xs world
    world.host.Stateless ∧ (∀ call ∈ tape host related ref (xs ++ ys) world, ¬ call.Denied) ∧
      (∀ call ∈ tape host whole ref (xs ++ ys) world, ¬ call.Denied) ∧
      -- The pool is that of the whole change, so the bundles differ.
      joint ≠ first.1 ++ second.1 ∧ joint.map (·.unbundled) = (first.1 ++ second.1).map (·.unbundled) ∧
      (assemble host whole ref (xs ++ ys) world).1 =
        wholeFirst.1 ++ (assemble host whole ref ys wholeFirst.2).1 := by
  intro xs ys stored world ref related whole joint first second wholeFirst
  have stateless : world.host.Stateless := by decide
  have granted : ∀ call ∈ tape host related ref (xs ++ ys) world, ¬ call.Denied := by decide +kernel
  have wholeGranted : ∀ call ∈ tape host whole ref (xs ++ ys) world, ¬ call.Denied := by decide +kernel
  exact ⟨stateless, granted, wholeGranted, by decide +kernel,
    (failures_stay_local related ref xs ys world stateless granted).2,
    (failures_stay_local whole ref xs ys world stateless wholeGranted).1 (by decide)⟩

end Assembly

end ReviewContext
