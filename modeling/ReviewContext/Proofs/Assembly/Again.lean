import ReviewContext.Proofs.Assembly.Answers
import ReviewContext.Proofs.Assembly.Shapes

/-! # Assembling again

What an assembly returns can be handed in again: at a repository without a state it comes back as it is.
A file that went through a pass, or through none, is fetched under the same name and ends up with the same
content as before, so that the same passes fail, for the same reasons; and a pass that is completed twice
changes nothing the second time.
-/

namespace ReviewContext.Answers

open Assembly

variable {answers : Answers} {settings : Settings} {ref : RepositoryRef} {file other : ChangedFile}
  {files others : List ChangedFile}

/-- The files have the same reply to their fetches, and the same content after it. -/
structure SameSource (answers : Answers) (settings : Settings) (file other : ChangedFile) : Prop
    extends file.SameChange other where
  content : (answers.body settings other).fullContent = (answers.body settings file).fullContent

private theorem reply?_congr (same : file.SameChange other) :
    answers.reply? settings other = answers.reply? settings file := by
  unfold reply? ChangedFile.isRemoved
  rw [same.filename, same.status]

private theorem found_congr (name : other.filename = file.filename) (content : other.fullContent = file.fullContent) :
    answers.found settings ref other = answers.found settings ref file := by
  simp only [found, discoverFor, name, content]

/-- The content before the fetch counts for nothing if it is that after it. -/
theorem SameSource.of_content (same : file.SameChange other)
    (content : other.fullContent = file.fullContent ∨
      other.fullContent = (answers.body settings file).fullContent) :
    SameSource answers settings file other := by
  refine ⟨same, ?_⟩
  unfold body at content ⊢
  rw [reply?_congr same]
  generalize answers.reply? settings file = reply? at content
  rcases reply? with _ | ⟨delay, e | text⟩
  · exact content.elim id id
  · exact content.elim id id
  · rfl

/-- Files whose context is dropped have the same content after the replies to their fetches. -/
theorem sources_unenriched (reason : DegradationReason) (files : List ChangedFile) :
    List.Forall₂ (SameSource answers settings) files (unenriched reason files) :=
  forall₂_map_self (fun _ => .of_content ⟨rfl, rfl, rfl⟩ (.inl rfl)) files

private theorem replies_congr (pairs : List.Forall₂ (SameSource answers settings) files others) :
    others.filterMap (answers.reply? settings) = files.filterMap (answers.reply? settings) := by
  induction pairs with
  | nil => rfl
  | cons same tail ih => simp only [List.filterMap_cons, reply?_congr same.toSameChange, ih]

private theorem found_congr_of_source (same : SameSource answers settings file other) :
    answers.found settings ref (answers.body settings other) =
      answers.found settings ref (answers.body settings file) := by
  refine found_congr ?_ same.content
  rw [body, (withReply_sameChange other _).filename, same.filename, body,
    (withReply_sameChange file _).filename]

/-- With the same replies and the same contents, the same related files are found. -/
theorem founds_congr (pairs : List.Forall₂ (SameSource answers settings) files others) :
    (others.mapM fun file => answers.found settings ref (answers.body settings file)) =
      files.mapM fun file => answers.found settings ref (answers.body settings file) := by
  induction pairs with
  | nil => rfl
  | cons same tail ih => rw [List.mapM_cons, List.mapM_cons, found_congr_of_source same, ih]

/-! ## Passes that fail -/

private theorem refusal?_congr (pairs : List.Forall₂ (SameSource answers settings) files others) :
    answers.refusal? settings others = answers.refusal? settings files := by
  rw [refusal?, replies_congr pairs, refusal?]

/-- A pass fails on files of the same sources as it did on the first ones. -/
theorem outcome_fails (pairs : List.Forall₂ (SameSource answers settings) files others) (strategy : Strategy)
    {reason : DegradationReason} (failed : answers.outcome settings ref strategy files = .error reason) :
    answers.outcome settings ref strategy others = .error reason := by
  have refusals := refusal?_congr pairs
  cases strategy with
  | diffOnly => cases failed
  | fullFiles =>
    cases refused : answers.refusal? settings files with
    | none => rw [whole_of_granted refused] at failed; cases failed
    | some e => rw [whole_of_refused (refusals.trans refused), ← failed, whole_of_refused refused]
  | dependencyAware =>
    cases refused : answers.refusal? settings files with
    | some e => rw [related_of_refused (refusals.trans refused), ← failed, related_of_refused refused]
    | none =>
      rw [related_of_granted refused] at failed
      rw [related_of_granted (refusals.trans refused), founds_congr pairs]
      cases searched : files.mapM fun file => answers.found settings ref (answers.body settings file) with
      | ok found => rw [searched] at failed; cases failed
      | error cause => rw [searched] at failed; exact failed

/-! ## Passes that are completed -/

private theorem body_again (file : ChangedFile) :
    answers.body settings (answers.body settings file) = answers.body settings file := by
  have same : answers.reply? settings (answers.body settings file) = answers.reply? settings file :=
    reply?_congr (withReply_sameChange file _)
  unfold body at same ⊢
  rw [same]
  rcases answers.reply? settings file with _ | ⟨delay, e | text⟩ <;> rfl

/-- A bundle is left by a second fetch as it is; only the strategy is that of the fetch again. -/
theorem body_withBundle (pool found : List RelatedFile) (file : ChangedFile) :
    answers.body settings (withBundle settings pool (answers.body settings file) found) =
      { withBundle settings pool (answers.body settings file) found with
        strategy := (answers.body settings file).strategy } := by
  have same : answers.reply? settings (withBundle settings pool (answers.body settings file) found) =
      answers.reply? settings file :=
    reply?_congr ((withReply_sameChange file _).trans (withBundle_sameChange pool found _))
  unfold body at same ⊢
  rw [same]
  unfold withBundle
  rcases answers.reply? settings file with _ | ⟨delay, e | text⟩ <;> split <;> rfl

private theorem withBundle_again (pool found : List RelatedFile) (file : ChangedFile) :
    withBundle settings pool
        (answers.body settings (withBundle settings pool (answers.body settings file) found)) found =
      withBundle settings pool (answers.body settings file) found := by
  rw [body_withBundle]
  cases content : (answers.body settings file).fullContent with
  | none =>
    rw [withBundle_of_no_content content]
    exact withBundle_of_no_content content
  | some text =>
    rw [withBundle_of_content content]
    exact withBundle_of_content content

private theorem zipWith_again {α β : Type} {combine : α → β → α} (again : ∀ a b, combine (combine a b) b = combine a b)
    (as : List α) (bs : List β) :
    List.zipWith combine (List.zipWith combine as bs) bs = List.zipWith combine as bs := by
  induction as generalizing bs with
  | nil => rfl
  | cons a as ih =>
    cases bs with
    | nil => rfl
    | cons b bs => simp only [List.zipWith_cons_cons, again, ih]

private theorem SameSource.withBundle (pool found : List RelatedFile) (file : ChangedFile) :
    SameSource answers settings file (withBundle settings pool (answers.body settings file) found) := by
  refine .of_content ((withReply_sameChange file _).trans (withBundle_sameChange pool found _)) (.inr ?_)
  unfold Assembly.withBundle
  split <;> rfl

/-- The files of a pass that is completed have the sources of those that were handed in. -/
theorem sources_of_outcome {strategy : Strategy} {out : List ChangedFile}
    (completed : answers.outcome settings ref strategy files = .ok out) :
    List.Forall₂ (SameSource answers settings) files out := by
  cases strategy with
  | diffOnly =>
    cases completed
    exact forall₂_map_self (fun _ => .of_content ⟨rfl, rfl, rfl⟩ (.inl rfl)) files
  | fullFiles =>
    obtain ⟨_, rfl⟩ := whole_eq_ok_iff.mp completed
    exact forall₂_map_self (fun file => .of_content (withReply_sameChange file _) (.inr rfl)) files
  | dependencyAware =>
    obtain ⟨_, found, searched, rfl⟩ := related_eq_ok_iff.mp completed
    exact forall₂_zipWith searched fun file one _ => .withBundle (pool found) one file

/-- A pass that is completed is completed again, and changes nothing. -/
theorem outcome_again {strategy : Strategy} {out : List ChangedFile}
    (completed : answers.outcome settings ref strategy files = .ok out) :
    answers.outcome settings ref strategy out = .ok out := by
  have sources := sources_of_outcome completed
  cases strategy with
  | diffOnly =>
    cases completed
    simp only [outcome, diffOnly, List.map_map]
    rfl
  | fullFiles =>
    obtain ⟨granted, rfl⟩ := whole_eq_ok_iff.mp completed
    refine whole_eq_ok_iff.mpr ⟨(refusal?_congr sources).trans granted, ?_⟩
    simp only [List.map_map, Function.comp_def, body_again]
  | dependencyAware =>
    obtain ⟨granted, found, searched, rfl⟩ := related_eq_ok_iff.mp completed
    refine related_eq_ok_iff.mpr ⟨(refusal?_congr sources).trans granted, found, ?_, ?_⟩
    · refine (forall₂_zipWith_right searched fun file one own => ?_).flip
      exact (found_congr_of_source (.withBundle (pool found) one file)).trans own
    · exact (zipWith_again (fun file one => withBundle_again (pool found) one file) files found).symm

/-! ## Assemblies -/

private theorem unenriched_again (reason : DegradationReason) (files : List ChangedFile) :
    unenriched reason (unenriched reason files) = unenriched reason files := by
  simp only [unenriched, List.map_map]
  rfl

private theorem assembled_again (files : List ChangedFile) :
    answers.assembled settings ref (answers.assembled settings ref files) =
      answers.assembled settings ref files := by
  cases first : answers.outcome settings ref (settings.effective settings.strategy) files with
  | ok enriched => rw [assembled_of_completed first, assembled_of_completed (outcome_again first)]
  | error reason =>
    by_cases identical : settings.effective settings.fallback = settings.effective settings.strategy
    · have failed := outcome_fails (sources_unenriched reason files) (settings.effective settings.strategy) first
      rw [assembled_of_identical first identical, assembled_of_identical failed identical, unenriched_again]
    · rw [assembled_of_failed first identical]
      -- The first pass fails on what the fallback returned as it did before, so the fallback is run again.
      cases second : answers.outcome settings ref (settings.effective settings.fallback) files with
      | ok enriched =>
        have failed := outcome_fails (sources_of_outcome second) (settings.effective settings.strategy) first
        exact (assembled_of_failed failed identical).trans (congrArg _ (outcome_again second))
      | error last =>
        have sources : List.Forall₂ (SameSource answers settings) files (unenriched last files) :=
          sources_unenriched last files
        have failed := outcome_fails sources (settings.effective settings.strategy) first
        refine (assembled_of_failed failed identical).trans ?_
        rw [conclude, outcome_fails sources (settings.effective settings.fallback) second]
        exact unenriched_again last files

end ReviewContext.Answers

namespace ReviewContext.Assembly

open MemoryRepository

/-- The files that an assembly returned are returned as they are by another. -/
theorem assemble_again (settings : Settings) (ref : RepositoryRef) (files : List ChangedFile)
    (world : World MemoryRepository) (stateless : world.host.Stateless) :
    let first := assemble host settings ref files world
    (assemble host settings ref first.1 first.2).1 = first.1 := by
  intro first
  obtain ⟨_, _, since⟩ :=
    assemble_alike (.refl settings) (tied_since ref world) rfl rfl files ⟨rfl, .refl stateless⟩
  have once : first.1 = (world.host.answers ref).assembled settings ref files :=
    assemble_of_stateless settings ref files (.refl stateless)
  rw [assemble_of_stateless settings ref first.1 since, once]
  exact Answers.assembled_again files

/-- Three files come with context of an earlier run, and the search is refused, so that the fallback is taken. The
second run returns what the first did, the old context that stays included. -/
theorem assemble_again_of_stale_files :
    let files : List ChangedFile := [
      { filename := "bill.lua", status := .modified, fullContent := some "return 0", degradation := some "late" },
      { filename := "lost.lua", status := .added, fullContent := some "return 2", strategy := some .fullFiles },
      { filename := "old.lua", status := .removed, dependencies := some ⟨[]⟩ }]
    let refused : MemoryRule := ⟨some (.unauthorized "no search"), 0, none, none⟩
    let world : World MemoryRepository := ⟨⟨[("bill.lua", "return 1")], [], [("*", refused)], []⟩, 0⟩
    let ref : RepositoryRef := ⟨"shop", "till", "main"⟩
    let first := assemble host {} ref files world
    world.host.Stateless ∧
      first.1.map (·.fullContent) = [some "return 1", some "return 2", none] ∧
      first.1.map (·.strategy) = [some .fullFiles, some .diffOnly, some .diffOnly] ∧
      first.1.map (·.degradation) = [some "late", some "content fetch failed: not found: lost.lua", none] ∧
      (assemble host {} ref first.1 first.2).1 = first.1 := by
  intro files refused world ref first
  have stateless : world.host.Stateless := by decide
  exact ⟨stateless, by decide +kernel, by decide +kernel, by decide +kernel,
    assemble_again {} ref files world stateless⟩

end ReviewContext.Assembly
