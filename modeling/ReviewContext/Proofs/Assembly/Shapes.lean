import ReviewContext.Change.Summary
import ReviewContext.Host.Memory
import ReviewContext.Proofs.Assembly.Tape

/-! # The shapes of what is returned

An assembly returns the files that it was given, in their order, and decides about them as a whole: none
got any context, or all have their patch, or each was treated by the reply to its own fetch. Nothing of a
pass that failed stands beside what a later one made.
-/

namespace ReviewContext

namespace ChangedFile

/-- A file as a change gives it, before any context. -/
structure Bare (file : ChangedFile) : Prop where
  content : file.fullContent = none
  strategy : file.strategy = none
  dependencies : file.dependencies = none
  degradation : file.degradation = none

/-- What the change says about a file is the same. -/
structure SameChange (file out : ChangedFile) : Prop where
  filename : out.filename = file.filename
  status : out.status = file.status
  patch : out.patch = file.patch

theorem SameChange.trans {file middle out : ChangedFile} (first : file.SameChange middle)
    (next : middle.SameChange out) : file.SameChange out :=
  ⟨next.filename.trans first.filename, next.status.trans first.status, next.patch.trans first.patch⟩

/-- A file that got no context, and why. -/
structure Unenriched (text : String) (out : ChangedFile) : Prop where
  strategy : out.strategy = none
  content : out.fullContent = none
  dependencies : out.dependencies = none
  degradation : out.degradation = some text

/-- A file for which the patch is all that there should be. -/
structure PatchOnly (out : ChangedFile) : Prop where
  strategy : out.strategy = some .diffOnly
  content : out.fullContent = none
  dependencies : out.dependencies = none
  degradation : out.degradation = none

end ChangedFile

namespace Assembly

/-- What a strategy makes of a file by the reply to the fetch of it. -/
inductive Replied (settings : Settings) (strategy : Strategy) : Option (Reply String) → ChangedFile → Prop
  | removed {out : ChangedFile} (gone : out.isRemoved = true) (patch : out.PatchOnly) :
      Replied settings strategy none out
  | whole {out : ChangedFile} {delay : Nat} {body : String} (there : out.isRemoved = false)
      (tag : out.strategy = some strategy)
      (content : out.fullContent = some (Excerpt.ofContent settings.maxFileSize body))
      (dependencies : out.dependencies.isSome ↔ strategy = .dependencyAware)
      (degradation : out.degradation = none) : Replied settings strategy (some ⟨delay, .ok body⟩) out
  | failed {out : ChangedFile} {delay : Nat} {e : AccessError} (there : out.isRemoved = false)
      (tag : out.strategy = some .diffOnly) (content : out.fullContent = none)
      (dependencies : out.dependencies = none)
      (degradation : out.degradation = some (DegradationReason.fetch e).message) :
      Replied settings strategy (some ⟨delay, .error e⟩) out

/-- The shapes that the files can have, all of them together. -/
inductive Shape (settings : Settings) (files : List ChangedFile) (calls : List Call)
    (out : List ChangedFile) : Prop
  | unenriched (text : String) (all : ∀ file ∈ out, file.Unenriched text)
  | patches (all : ∀ file ∈ out, file.PatchOnly)
  | replied (strategy : Strategy) (fetching : strategy ≠ .diffOnly)
      {replies : List (Option (Reply String))} {bodies : List Call} (fetches : Fetches files replies bodies)
      (made : bodies <:+: calls) (each : List.Forall₂ (Replied settings strategy) replies out)
      (counted : (Summary.ofFiles out).withContent + (Summary.ofFiles out).degraded +
        out.countP (·.isRemoved) = (Summary.ofFiles out).files)

variable {settings : Settings} {files out enriched : List ChangedFile} {calls more : List Call}

private theorem Shape.mono (shape : Shape settings files calls out) (kept : calls <:+: more) :
    Shape settings files more out := by
  cases shape with
  | unenriched text all => exact .unenriched text all
  | patches all => exact .patches all
  | replied strategy fetching fetches made each counted =>
    exact .replied strategy fetching fetches (made.trans kept) each counted

/-- Every file has content, or a reason why not, or is gone. -/
theorem counts_of_replied {strategy : Strategy} {replies : List (Option (Reply String))}
    (each : List.Forall₂ (Replied settings strategy) replies out) :
    (Summary.ofFiles out).withContent + (Summary.ofFiles out).degraded + out.countP (·.isRemoved) =
      (Summary.ofFiles out).files := by
  simp only [Summary.ofFiles]
  induction each with
  | nil => rfl
  | cons first tail ih =>
    rw [List.countP_cons, List.countP_cons, List.countP_cons, List.length_cons, ← ih]
    cases first with
    | removed gone patch =>
      rw [patch.content, patch.degradation, gone]
      simp only [Option.isSome_none, Bool.false_eq_true, if_false, if_true]
      omega
    | whole there tag content dependencies degradation =>
      rw [content, degradation, there]
      simp only [Option.isSome_none, Option.isSome_some, Bool.false_eq_true, if_false, if_true]
      omega
    | failed there tag content dependencies degradation =>
      rw [content, degradation, there]
      simp only [Option.isSome_none, Option.isSome_some, Bool.false_eq_true, if_false, if_true]
      omega

private theorem withReply_replied {file : ChangedFile} {reply? : Option (Reply String)} (bare : file.Bare)
    (answered : Answered calls file reply?) :
    Replied settings .fullFiles reply? (withReply settings file reply?) := by
  rcases reply? with _ | ⟨delay, e | body⟩
  · exact .removed answered ⟨rfl, bare.content, bare.dependencies, bare.degradation⟩
  · exact .failed answered.1 rfl bare.content bare.dependencies rfl
  · refine .whole answered.1 rfl rfl ?_ bare.degradation
    change file.dependencies.isSome ↔ _
    rw [bare.dependencies]
    exact ⟨nofun, nofun⟩

private theorem withBundle_replied {file : ChangedFile} {reply? : Option (Reply String)} {pool found : List RelatedFile}
    (replied : Replied settings .fullFiles reply? file) :
    Replied settings .dependencyAware reply? (withBundle settings pool file found) := by
  cases replied with
  | removed gone patch =>
    rw [withBundle_of_no_content patch.content]
    exact .removed gone patch
  | whole there tag content dependencies degradation =>
    rw [withBundle_of_content content]
    exact .whole there rfl content ⟨fun _ => rfl, fun _ => rfl⟩ degradation
  | failed there tag content dependencies degradation =>
    rw [withBundle_of_no_content content]
    exact .failed there tag content dependencies degradation

private theorem Bodies.replied (bodies : Bodies settings files calls (.ok enriched))
    (bare : ∀ file ∈ files, file.Bare) :
    ∃ replies, Fetches files replies calls ∧ List.Forall₂ (Replied settings .fullFiles) replies enriched := by
  obtain ⟨_, replies, fetches, made⟩ := bodies
  obtain rfl := made enriched rfl
  have pairs := (List.forall₂_and_left files replies).mpr ⟨bare, fetches.answered⟩
  exact ⟨replies, fetches, forall₂_zipWith_right pairs fun file reply? known =>
    withReply_replied known.1 known.2⟩

/-- A reply changes nothing of what the change says about a file. -/
theorem withReply_sameChange (file : ChangedFile) (reply? : Option (Reply String)) :
    file.SameChange (withReply settings file reply?) := by
  rcases reply? with _ | ⟨delay, e | body⟩ <;> exact ⟨rfl, rfl, rfl⟩

private theorem Bodies.sameChange (bodies : Bodies settings files calls (.ok enriched)) :
    List.Forall₂ ChangedFile.SameChange files enriched := by
  refine bodies.each.imp ?_
  rintro file _ ⟨reply?, _, rfl⟩
  exact withReply_sameChange file reply?

/-- A bundle changes nothing of what the change says about a file. -/
theorem withBundle_sameChange (pool found : List RelatedFile) (file : ChangedFile) :
    file.SameChange (withBundle settings pool file found) := by
  unfold withBundle
  split <;> exact ⟨rfl, rfl, rfl⟩

private theorem Passing.sameChange {strategy : Strategy} (passing : Passing settings files strategy calls (.ok out)) :
    List.Forall₂ ChangedFile.SameChange files out := by
  cases passing with
  | patches =>
    exact forall₂_map_self (fun _ => ⟨rfl, rfl, rfl⟩) files
  | bodies fetched => exact fetched.sameChange
  | related fetched searched =>
    refine forall₂_comp fetched.sameChange (searched.each settings) ?_
    rintro file middle _ first ⟨one, rfl⟩
    exact first.trans (withBundle_sameChange _ one middle)

private theorem Passing.shape {strategy : Strategy} (passing : Passing settings files strategy calls (.ok out))
    (bare : ∀ file ∈ files, file.Bare) : Shape settings files calls out := by
  cases passing with
  | patches =>
    refine .patches fun file member => ?_
    obtain ⟨before, known, rfl⟩ := List.mem_map.mp member
    exact ⟨rfl, (bare before known).content, (bare before known).dependencies, (bare before known).degradation⟩
  | bodies fetched =>
    obtain ⟨replies, fetches, each⟩ := fetched.replied bare
    exact .replied .fullFiles nofun fetches List.infix_rfl each (counts_of_replied each)
  | @related calls more enriched found fetched searched =>
    obtain ⟨replies, fetches, replied⟩ := fetched.replied bare
    have each : List.Forall₂ (Replied settings .dependencyAware) replies
        (List.zipWith (withBundle settings (pool found)) enriched found) := by
      refine forall₂_comp replied (searched.each settings) ?_
      rintro reply? file _ replied ⟨one, rfl⟩
      exact withBundle_replied replied
    exact .replied .dependencyAware nofun fetches (List.prefix_append calls more).isInfix each
      (counts_of_replied each)

private theorem shape_unenriched (reason : DegradationReason) (bare : ∀ file ∈ files, file.Bare) :
    List.Forall₂ ChangedFile.SameChange files (unenriched reason files) ∧
      Shape settings files calls (unenriched reason files) := by
  refine ⟨forall₂_map_self (fun _ => ⟨rfl, rfl, rfl⟩) files, ?_⟩
  refine .unenriched reason.message fun file member => ?_
  obtain ⟨before, known, rfl⟩ := List.mem_map.mp member
  exact ⟨rfl, (bare before known).content, (bare before known).dependencies, rfl⟩

/-- An assembly of bare files returns the same files in one of the shapes. -/
theorem assemble_shape {σ : Type} (host : Host σ) (settings : Settings) (ref : RepositoryRef)
    (files : List ChangedFile) (world : World σ) (bare : ∀ file ∈ files, file.Bare) :
    List.Forall₂ ChangedFile.SameChange files (assemble host settings ref files world).1 ∧
      Shape settings files (tape host settings ref files world) (assemble host settings ref files world).1 := by
  apply assemble_ensures host settings ref files world fun calls out =>
    List.Forall₂ ChangedFile.SameChange files out ∧ Shape settings files calls out
  · intro strategy before calls out passing
    exact ⟨passing.sameChange, (passing.shape bare).mono (List.suffix_append before calls).isInfix⟩
  · intro reason calls
    exact shape_unenriched reason bare

/-- One file with its content, one that is missing and one that was removed, each in its shape. -/
theorem assemble_shape_of_missing_file :
    let files : List ChangedFile := [{ filename := "bill.lua", status := .modified },
      { filename := "lost.lua", status := .added }, { filename := "old.lua", status := .removed }]
    let world : World MemoryRepository := ⟨⟨[("bill.lua", "return 1")], [], [], []⟩, 0⟩
    let ref : RepositoryRef := ⟨"shop", "till", "main"⟩
    let out := (assemble MemoryRepository.host {} ref files world).1
    (∀ file ∈ files, file.Bare) ∧
      out.map (·.strategy) = [some .dependencyAware, some .diffOnly, some .diffOnly] ∧
      out.map (·.degradation) = [none, some "content fetch failed: not found: lost.lua", none] ∧
      List.Forall₂ ChangedFile.SameChange files out ∧
      Shape {} files (tape MemoryRepository.host {} ref files world) out := by
  intro files world ref out
  have bare : ∀ file ∈ files, file.Bare :=
    List.forall_mem_cons.mpr ⟨⟨rfl, rfl, rfl, rfl⟩, List.forall_mem_cons.mpr ⟨⟨rfl, rfl, rfl, rfl⟩,
      List.forall_mem_cons.mpr ⟨⟨rfl, rfl, rfl, rfl⟩, List.forall_mem_nil _⟩⟩⟩
  exact ⟨bare, by decide +kernel, by decide +kernel, assemble_shape MemoryRepository.host {} ref files world bare⟩

end Assembly

end ReviewContext
