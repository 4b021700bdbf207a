import ReviewContext.Proofs.Assembly.Fallback
import ReviewContext.Proofs.Failing
import ReviewContext.Proofs.Host.Answers

/-! # Passes by a table of answers

On a host that answers alike at any time a pass is a plain function of its files. What becomes of the body
of a file, and what is found for it, depends on that file alone; the files of a change meet only in the
question whether any fetch was refused, and in the pool of related files.
-/

namespace ReviewContext.Answers

open Assembly

variable (answers : Answers) (settings : Settings) (ref : RepositoryRef)

/-- The reply to the fetch of a file, as a run sees it. -/
def reply? (file : ChangedFile) : Option (Reply String) :=
  if file.isRemoved then none
  else some ((answers.fetch file.filename).within settings.requestTimeoutSecs)

/-- A file with the reply to its fetch. -/
def body (file : ChangedFile) : ChangedFile :=
  withReply settings file (answers.reply? settings file)

/-- The error that ends the fetching of the bodies, if one was refused. -/
def refusal? (files : List ChangedFile) : Option AccessError :=
  (firstFatal? (files.filterMap (answers.reply? settings))).map (·.2)

/-- The files of a change with the replies to their fetches. -/
def bodies (files : List ChangedFile) : Except DegradationReason (List ChangedFile) :=
  match answers.refusal? settings files with
  | some e => .error (.fetch e)
  | none => .ok (files.map (answers.body settings))

/-- What is found for a file. -/
def found (file : ChangedFile) : Except DegradationReason (List RelatedFile) :=
  (discoverFor answers.host settings ref file idle).1

/-- What a pass comes to. -/
def outcome : Strategy → List ChangedFile → Except DegradationReason (List ChangedFile)
  | .diffOnly, files => .ok (diffOnly files)
  | .fullFiles, files => answers.bodies settings files
  | .dependencyAware, files => do
    let enriched ← answers.bodies settings files
    let found ← enriched.mapM (answers.found settings ref)
    return List.zipWith (withBundle settings (pool found)) enriched found

private theorem startFetches_eq (files : List ChangedFile) (state : Unit) :
    (startFetches answers.host settings ref files state).1 = files.map (answers.reply? settings) := by
  induction files with
  | nil => rfl
  | cons file rest ih =>
    unfold startFetches
    rw [List.map_cons, reply?]
    split
    · exact congrArg _ ih
    · exact congrArg _ ih

/-- On a table of answers, fetching the bodies comes to what the table says of each file. -/
theorem fullFiles_eq (files : List ChangedFile) (world : World Unit) :
    (fullFiles answers.host settings ref files world).1 = answers.bodies settings files := by
  unfold fullFiles bodies refusal?
  dsimp only
  rw [startFetches_eq, List.filterMap_map, Function.id_comp]
  cases firstFatal? (files.filterMap (answers.reply? settings)) with
  | some first => rfl
  | none =>
    simp only [Option.map_none, List.zipWith_map_right, List.zipWith_self]
    rfl

/-- A run on a table of answers gives the same whenever it starts. -/
theorem discoverFor_eq (file : ChangedFile) (world : World Unit) :
    (discoverFor answers.host settings ref file world).1 = answers.found settings ref file :=
  (discoverFor_alike (Settings.SameLimits.refl settings).toSameSearch
    ((answers.tied_ever ref).agreesWithin settings.requestTimeoutSecs) file trivial).1

/-- The endings of two steps compose whatever world the first leaves, if the ending of the second does not depend on
it. -/
theorem bind_fst {α β : Type} {step : Pass Unit α} {rest : α → Pass Unit β}
    {ending : Except DegradationReason α} {next : α → Except DegradationReason β} {world : World Unit}
    (first : (step world).1 = ending) (follows : ∀ a after, (rest a after).1 = next a) :
    ((step >>= rest) world).1 = ending >>= next := by
  rw [bind_apply]
  generalize step world = out at first
  obtain ⟨result, after⟩ := out
  obtain rfl : result = ending := first
  cases result with
  | error reason => rfl
  | ok a => exact follows a after

/-- On a table of answers, each file is discovered for as if it were the only one. -/
theorem discoverEach_eq (files : List ChangedFile) (world : World Unit) :
    (discoverEach answers.host settings ref files world).1 = files.mapM (answers.found settings ref) := by
  induction files generalizing world with
  | nil => rfl
  | cons file rest ih =>
    rw [discoverEach_cons, List.mapM_cons]
    apply bind_fst (answers.discoverFor_eq settings ref file world)
    intro found after
    exact bind_fst (ih after) fun others last => rfl

private theorem run_eq (strategy : Strategy) (files : List ChangedFile) (world : World Unit) :
    (run answers.host settings ref strategy files world).1 = answers.outcome settings ref strategy files := by
  cases strategy with
  | diffOnly => rfl
  | fullFiles => exact answers.fullFiles_eq settings ref files world
  | dependencyAware =>
    apply bind_fst (answers.fullFiles_eq settings ref files world)
    intro enriched after
    exact bind_fst (answers.discoverEach_eq settings ref enriched after) fun found last => rfl

section

variable {answers settings ref} {files : List ChangedFile}

/-- One refused fetch ends the fetching for all files. -/
theorem bodies_of_refused {e : AccessError} (refused : answers.refusal? settings files = some e) :
    answers.bodies settings files = .error (.fetch e) := by
  simp only [bodies, refused]

theorem bodies_of_granted (granted : answers.refusal? settings files = none) :
    answers.bodies settings files = .ok (files.map (answers.body settings)) := by
  simp only [bodies, granted]

theorem whole_of_refused {e : AccessError} (refused : answers.refusal? settings files = some e) :
    answers.outcome settings ref .fullFiles files = .error (.fetch e) :=
  bodies_of_refused refused

theorem whole_of_granted (granted : answers.refusal? settings files = none) :
    answers.outcome settings ref .fullFiles files = .ok (files.map (answers.body settings)) :=
  bodies_of_granted granted

/-- Under `full_files` a pass is completed if no fetch is refused, and then each file has its own reply. -/
theorem whole_eq_ok_iff {out : List ChangedFile} :
    answers.outcome settings ref .fullFiles files = .ok out ↔
      answers.refusal? settings files = none ∧ out = files.map (answers.body settings) := by
  cases refused : answers.refusal? settings files with
  | some e => simp [whole_of_refused refused]
  | none => simp [whole_of_granted refused, eq_comm]

theorem related_of_refused {e : AccessError} (refused : answers.refusal? settings files = some e) :
    answers.outcome settings ref .dependencyAware files = .error (.fetch e) := by
  simp only [outcome, bodies_of_refused refused]
  rfl

theorem related_of_granted (granted : answers.refusal? settings files = none) :
    answers.outcome settings ref .dependencyAware files =
      (files.mapM fun file => answers.found settings ref (answers.body settings file)).map fun found =>
        List.zipWith (fun file => withBundle settings (pool found) (answers.body settings file)) files found := by
  simp only [← List.zipWith_map_left, outcome, bodies_of_granted granted]
  rw [show (fun file => answers.found settings ref (answers.body settings file)) =
    answers.found settings ref ∘ answers.body settings from rfl, ← List.mapM_map]
  rfl

/-- Under `dependency_aware` a pass is completed if no fetch is refused and every discovery ends well; the bundles are
drawn from all that was found. -/
theorem related_eq_ok_iff {out : List ChangedFile} :
    answers.outcome settings ref .dependencyAware files = .ok out ↔
      answers.refusal? settings files = none ∧ ∃ found,
        List.Forall₂ (fun file one => answers.found settings ref (answers.body settings file) = .ok one)
          files found ∧
        out = List.zipWith (fun file => withBundle settings (pool found) (answers.body settings file))
          files found := by
  cases refused : answers.refusal? settings files with
  | some e => simp [related_of_refused refused]
  | none =>
    simp only [related_of_granted refused, except_map_eq_ok_iff, mapM_eq_ok_iff, true_and,
      eq_comm (a := out)]

end

/-- The files that an assembly returns. -/
def assembled (files : List ChangedFile) : List ChangedFile :=
  match answers.outcome settings ref (settings.effective settings.strategy) files with
  | .ok enriched => enriched
  | .error reason =>
    if settings.effective settings.fallback = settings.effective settings.strategy then
      unenriched reason files
    else conclude files (answers.outcome settings ref (settings.effective settings.fallback) files)

section

variable {answers settings ref} {files : List ChangedFile} {reason : DegradationReason}

theorem assembled_of_completed {enriched : List ChangedFile}
    (completed : answers.outcome settings ref (settings.effective settings.strategy) files = .ok enriched) :
    answers.assembled settings ref files = enriched := by
  simp only [assembled, completed]

/-- A fallback that is the strategy itself is not run after it has failed. -/
theorem assembled_of_identical
    (failed : answers.outcome settings ref (settings.effective settings.strategy) files = .error reason)
    (identical : settings.effective settings.fallback = settings.effective settings.strategy) :
    answers.assembled settings ref files = unenriched reason files := by
  simp only [assembled, failed, if_pos identical]

/-- Another fallback starts from the files that the change gave. -/
theorem assembled_of_failed
    (failed : answers.outcome settings ref (settings.effective settings.strategy) files = .error reason)
    (different : settings.effective settings.fallback ≠ settings.effective settings.strategy) :
    answers.assembled settings ref files =
      conclude files (answers.outcome settings ref (settings.effective settings.fallback) files) := by
  simp only [assembled, failed, if_neg different]

end

private theorem assemble_eq (files : List ChangedFile) (world : World Unit) :
    (assemble answers.host settings ref files world).1 = answers.assembled settings ref files := by
  have first := answers.run_eq settings ref (settings.effective settings.strategy) files world
  cases went : (run answers.host settings ref (settings.effective settings.strategy) files world).1 with
  | ok enriched => rw [assemble_of_completed went, assembled_of_completed (first.symm.trans went)]
  | error reason =>
    by_cases identical : settings.effective settings.fallback = settings.effective settings.strategy
    · rw [assemble_of_identical identical, assembled_of_identical (first.symm.trans went) identical, went]
      rfl
    · rw [assemble_of_failed went identical, assembled_of_failed (first.symm.trans went) identical]
      simp only [run_eq]

end ReviewContext.Answers

namespace ReviewContext.Assembly

open MemoryRepository

variable (settings : Settings) (ref : RepositoryRef) (files : List ChangedFile)
  {start later : World MemoryRepository}

/-- A pass on a host that keeps to a table comes to what the table says. -/
theorem run_of_tabled {σ : Type} {host : Host σ} {answers : Answers} {world : World σ}
    (tabled : host.Tabled ref answers world) (strategy : Strategy) :
    (run host settings ref strategy files world).1 = answers.outcome settings ref strategy files := by
  obtain ⟨tie, tied, idle, related⟩ := tabled
  rw [← answers.run_eq settings ref strategy files idle]
  exact (run_alike (.refl settings) tied strategy files related).1

/-- Whatever was asked of a stateless repository before, a pass comes to the same. -/
theorem run_of_stateless (same : Same start later) (strategy : Strategy) :
    (run host settings ref strategy files later).1 =
      (start.host.answers ref).outcome settings ref strategy files :=
  run_of_tabled settings ref files (tabled ref same) strategy

/-- An assembly on a host that keeps to a table comes to what the table says. -/
theorem assemble_of_tabled {σ : Type} {host : Host σ} {answers : Answers} {world : World σ}
    (tabled : host.Tabled ref answers world) :
    (assemble host settings ref files world).1 = answers.assembled settings ref files := by
  obtain ⟨tie, tied, idle, related⟩ := tabled
  rw [← answers.assemble_eq settings ref files idle]
  exact (assemble_alike (.refl settings) tied rfl rfl files related).1

/-- A stateless repository is a table of answers, and stays the same one however often it was asked. -/
theorem assemble_of_stateless (same : Same start later) :
    (assemble host settings ref files later).1 = (start.host.answers ref).assembled settings ref files :=
  assemble_of_tabled settings ref files (tabled ref same)

end ReviewContext.Assembly
