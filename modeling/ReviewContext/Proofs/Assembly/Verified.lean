import ReviewContext.Host.Memory
import ReviewContext.Proofs.Assembly.Bundle

/-! # Verified relations

Whatever the searches of an assembly answer and however its calls end, no file stands in a bundle by its
name or by a hit alone. It was fetched during the assembly, and its own text shows the relation to a file
of the change that has content; the excerpt in the bundle is of the text that was fetched. The file that
the relation is to need not be the one with the bundle, because files share what was found for each.
-/

namespace ReviewContext

/-- What an entry in the bundle of `file` stands for. -/
structure RelatedFile.Backed (settings : Settings) (files : List ChangedFile) (calls : List Call)
    (file : ChangedFile) (related : RelatedFile) : Prop where
  other : related.filename ≠ file.filename
  verified : ∃ target ∈ files, ∃ content, ∃ whole : RelatedFile,
    target.fullContent = some content ∧ whole.Verified target.filename content calls ∧
      related = whole.excerpt settings

private theorem RelatedFile.Backed.mono {settings : Settings} {files : List ChangedFile} {calls more : List Call}
    {file : ChangedFile} {related : RelatedFile} (backed : related.Backed settings files calls file)
    (kept : calls ⊆ more) : related.Backed settings files more file := by
  obtain ⟨other, target, member, content, whole, body, verified, same⟩ := backed
  exact ⟨other, target, member, content, whole, body, verified.mono kept, same⟩

/-- Everything in the bundles of these files is backed. -/
def Backs (settings : Settings) (files : List ChangedFile) (calls : List Call) : Prop :=
  ∀ file ∈ files, ∀ bundle, file.dependencies = some bundle →
    ∀ related ∈ bundle.relatedFiles, related.Backed settings files calls file

private theorem Backs.of_plain {settings : Settings} {files : List ChangedFile} {calls : List Call}
    (plain : ∀ file ∈ files, file.dependencies = none) : Backs settings files calls := by
  intro file member bundle carried
  rw [plain file member] at carried
  cases carried

private theorem Backs.mono {settings : Settings} {files : List ChangedFile} {calls more : List Call}
    (backs : Backs settings files calls) (kept : calls ⊆ more) : Backs settings files more :=
  fun file member bundle carried related drawn => (backs file member bundle carried related drawn).mono kept

namespace Assembly

variable {settings : Settings} {files out enriched : List ChangedFile} {calls more : List Call}

/-- Fetching the bodies gives no file a bundle. -/
theorem Bodies.plain (bodies : Bodies settings files calls (.ok enriched))
    (plain : ∀ file ∈ files, file.dependencies = none) : ∀ file ∈ enriched, file.dependencies = none := by
  intro out member
  obtain ⟨file, known, reply?, _, rfl⟩ := exists_of_forall₂_right bodies.each member
  rcases reply? with _ | ⟨delay, e | body⟩ <;> exact plain file known

/-- What was found for one of the files stays verified when the files have got their bundles. -/
theorem verified_of_found {found : List (List RelatedFile)} {pool one : List RelatedFile}
    {related : RelatedFile} (pairs : List.Forall₂ (Found more) enriched found) (listed : one ∈ found)
    (known : related ∈ one) :
    ∃ target ∈ List.zipWith (withBundle settings pool) enriched found, ∃ content,
      target.fullContent = some content ∧ related.Verified target.filename content more := by
  have kept : List.Forall₂ (fun one target => ∀ related ∈ one, ∃ content,
      target.fullContent = some content ∧ related.Verified target.filename content more) found
      (List.zipWith (withBundle settings pool) enriched found) :=
    forall₂_zipWith_right pairs fun file one verified related member => by
      obtain ⟨content, body, evidence⟩ := verified related member
      rw [withBundle_of_content body]
      exact ⟨content, body, evidence⟩
  obtain ⟨target, member, verified⟩ := exists_of_forall₂_right kept.flip listed
  exact ⟨target, member, verified related known⟩

/-- What the discoveries found backs every bundle that is drawn from it. -/
theorem Discoveries.backs {found : List (List RelatedFile)}
    (searched : Discoveries enriched more (.ok found))
    (plain : ∀ file ∈ enriched, file.dependencies = none) :
    Backs settings (List.zipWith (withBundle settings (pool found)) enriched found) more := by
  have pairs := searched.found found rfl
  intro out member carried same related drawn
  obtain ⟨file, known, one, rfl⟩ := exists_of_forall₂_right (searched.each settings) member
  cases body : file.fullContent with
  | none =>
    rw [withBundle_of_no_content body, plain file known] at same
    cases same
  | some content =>
    rw [withBundle_of_content body] at same ⊢
    obtain rfl := Option.some.inj same
    -- The bundle is drawn from the pool of all files, so what was found may have been found for another.
    obtain ⟨whole, pooled, other, rfl⟩ := exists_of_mem_bundle drawn
    obtain ⟨finds, listed, held⟩ := mem_of_mem_pool pooled
    obtain ⟨target, there, text, held, verified⟩ := verified_of_found pairs listed held
    exact ⟨other, target, there, text, whole, held, verified, rfl⟩

private theorem Passing.backs {strategy : Strategy} (passing : Passing settings files strategy calls (.ok out))
    (plain : ∀ file ∈ files, file.dependencies = none) : Backs settings out calls := by
  cases passing with
  | patches =>
    refine .of_plain fun file member => ?_
    obtain ⟨before, known, rfl⟩ := List.mem_map.mp member
    exact plain before known
  | bodies fetched => exact .of_plain (fetched.plain plain)
  | related fetched searched =>
    exact (searched.backs (fetched.plain plain)).mono (List.subset_append_right _ _)

private theorem backs_unenriched (reason : DegradationReason) (plain : ∀ file ∈ files, file.dependencies = none) :
    Backs settings (unenriched reason files) calls := by
  refine .of_plain fun file member => ?_
  obtain ⟨before, known, rfl⟩ := List.mem_map.mp member
  exact plain before known

/-- Every file in a bundle that an assembly returns is backed by the calls of that assembly. -/
theorem related_files_backed {σ : Type} (host : Host σ) (settings : Settings) (ref : RepositoryRef)
    (files : List ChangedFile) (world : World σ) (plain : ∀ file ∈ files, file.dependencies = none) :
    ∀ file ∈ (assemble host settings ref files world).1, ∀ bundle, file.dependencies = some bundle →
      ∀ related ∈ bundle.relatedFiles,
        related.Backed settings (assemble host settings ref files world).1
          (tape host settings ref files world) file := by
  apply assemble_ensures host settings ref files world fun calls out => Backs settings out calls
  · intro strategy before calls out passing
    exact (passing.backs plain).mono (List.subset_append_right _ _)
  · intro reason calls
    exact backs_unenriched reason plain

/-- A file whose test is found in another folder has it in its bundle. -/
theorem related_files_backed_of_found_test :
    let files : List ChangedFile := [{ filename := "bill.lua", status := .modified }]
    let repo : MemoryRepository :=
      ⟨[("bill.lua", "return 1"), ("spec/bill.test.lua", "require bill")], [], [], []⟩
    let ref : RepositoryRef := ⟨"shop", "till", "main"⟩
    let out := (assemble MemoryRepository.host {} ref files ⟨repo, 0⟩).1
    (∀ file ∈ files, file.dependencies = none) ∧
      out.map (·.dependencies) =
        [some ⟨[⟨"spec/bill.test.lua", .test, "require bill", "bill.lua"⟩]⟩] ∧
      ∀ file ∈ out, ∀ bundle, file.dependencies = some bundle → ∀ related ∈ bundle.relatedFiles,
        related.Backed {} out (tape MemoryRepository.host {} ref files ⟨repo, 0⟩) file := by
  intro files repo ref out
  have plain : ∀ file ∈ files, file.dependencies = none := by decide
  exact ⟨plain, by decide +kernel, related_files_backed MemoryRepository.host {} ref files ⟨repo, 0⟩ plain⟩

end Assembly

end ReviewContext
