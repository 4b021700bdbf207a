import Mathlib.Data.List.Nodup
import ReviewContext.Proofs.Assembly.Alike
import ReviewContext.Proofs.Host.Memory

/-! # Falling back

A pass that fails hands nothing on but the state of the host. If that state has no bearing on replies, an
assembly whose first pass fails gives what it would have given had the fallback been asked for at once.
-/

namespace ReviewContext

/-- The strategies that are tried before an assembly gives up. A fallback that is the same is not. -/
def Settings.tried (settings : Settings) : List Strategy :=
  if settings.effective settings.fallback = settings.effective settings.strategy then
    [settings.effective settings.strategy]
  else [settings.effective settings.strategy, settings.effective settings.fallback]

private theorem Settings.tried_nodup (settings : Settings) : settings.tried.Nodup := by
  unfold tried
  split
  · exact List.nodup_singleton _
  · next different =>
    refine List.nodup_cons.mpr ⟨?_, List.nodup_singleton _⟩
    rw [List.mem_singleton]
    exact fun same => different same.symm

private theorem Settings.tried_length_le (settings : Settings) : settings.tried.length ≤ 2 := by
  unfold tried
  split
  · exact Nat.le_succ 1
  · exact Nat.le_refl 2

namespace Assembly

/-- What is returned after the last pass. -/
def conclude (files : List ChangedFile) : Except DegradationReason (List ChangedFile) → List ChangedFile
  | .ok enriched => enriched
  | .error reason => unenriched reason files

section

variable {σ : Type} {host : Host σ} {settings : Settings} {ref : RepositoryRef} {files : List ChangedFile}
  {world : World σ} {reason : DegradationReason}

/-- If the fallback is the strategy itself, there is one pass. -/
theorem assemble_of_identical
    (identical : settings.effective settings.fallback = settings.effective settings.strategy) :
    assemble host settings ref files world =
      (conclude files (run host settings ref (settings.effective settings.strategy) files world).1,
        (run host settings ref (settings.effective settings.strategy) files world).2) := by
  rw [assemble_apply]
  cases run host settings ref (settings.effective settings.strategy) files world with
  | mk result after =>
    cases result with
    | ok enriched => rfl
    | error reason => exact if_pos identical

/-- Another fallback starts from the files that the change gave, in the world that the first pass left. -/
theorem assemble_of_failed
    (failed : (run host settings ref (settings.effective settings.strategy) files world).1 = .error reason)
    (different : settings.effective settings.fallback ≠ settings.effective settings.strategy) :
    assemble host settings ref files world =
      let after := (run host settings ref (settings.effective settings.strategy) files world).2
      (conclude files (run host settings ref (settings.effective settings.fallback) files after).1,
        (run host settings ref (settings.effective settings.fallback) files after).2) := by
  rw [assemble_apply]
  generalize run host settings ref (settings.effective settings.strategy) files world = out at failed ⊢
  obtain ⟨result, after⟩ := out
  obtain rfl : result = .error reason := failed
  dsimp only
  rw [if_neg different]
  cases run host settings ref (settings.effective settings.fallback) files after with
  | mk result last => cases result <;> rfl

/-- If the first pass fails, every strategy that may be tried is, once, and nothing else happens. -/
theorem assemble_world_of_failed
    (failed : (run host settings ref (settings.effective settings.strategy) files world).1 = .error reason) :
    (assemble host settings ref files world).2 =
      settings.tried.foldl (fun world strategy => (run host settings ref strategy files world).2) world := by
  unfold Settings.tried
  by_cases identical : settings.effective settings.fallback = settings.effective settings.strategy
  · rw [assemble_of_identical identical, if_pos identical]
    rfl
  · rw [assemble_of_failed failed identical, if_neg identical]
    rfl

end

open MemoryRepository in
/-- A pass that fails leaves no trace in the files that an assembly returns. -/
theorem failed_pass_leaves_no_trace (settings : Settings) (ref : RepositoryRef) (files : List ChangedFile)
    (world : World MemoryRepository) (reason : DegradationReason) (stateless : world.host.Stateless)
    (failed : (run host settings ref (settings.effective settings.strategy) files world).1 = .error reason) :
    (assemble host settings ref files world).1 =
        (assemble host { settings with strategy := settings.fallback } ref files world).1 ∧
      (assemble host settings ref files world).2 =
        settings.tried.foldl (fun world strategy => (run host settings ref strategy files world).2) world ∧
      settings.tried.length ≤ 2 ∧ settings.tried.Nodup := by
  refine ⟨?_, assemble_world_of_failed failed, settings.tried_length_le, settings.tried_nodup⟩
  have fresh : assemble host { settings with strategy := settings.fallback } ref files world = _ :=
    assemble_of_identical rfl
  have limits : settings.SameLimits { settings with strategy := settings.fallback } :=
    ⟨⟨rfl, rfl, rfl⟩, rfl, rfl⟩
  have unchanged (start : World MemoryRepository) (same : Same start world) :
      (run host settings ref (settings.effective settings.fallback) files start).1 =
        (run host { settings with strategy := settings.fallback } ref
          (settings.effective settings.fallback) files world).1 :=
    (run_alike limits (tied_same ref) _ files same).1
  by_cases identical : settings.effective settings.fallback = settings.effective settings.strategy
  · rw [fresh, assemble_of_identical identical, ← identical, unchanged world (.refl stateless)]
    rfl
  · -- The second pass starts from what the first left, which differs from the start in its notes only.
    obtain ⟨_, _, same⟩ := run_alike (.refl settings) (tied_since ref world)
      (settings.effective settings.strategy) files ⟨rfl, .refl stateless⟩
    rw [fresh, assemble_of_failed failed identical]
    dsimp only
    rw [unchanged _ same.symm]
    rfl

open MemoryRepository in
/-- The search is refused, so the fallback under full files is what the assembly comes to. -/
theorem failed_pass_leaves_no_trace_of_refused_search :
    let files : List ChangedFile := [{ filename := "bill.lua", status := .modified }]
    let refused : MemoryRule := ⟨some (.unauthorized "no search"), 0, none, none⟩
    let world : World MemoryRepository := ⟨⟨[("bill.lua", "return 1")], [], [("*", refused)], []⟩, 0⟩
    let ref : RepositoryRef := ⟨"shop", "till", "main"⟩
    let settings : Settings := {}
    let reason : DegradationReason := .relationships "bill.lua" (.unauthorized "no search")
    world.host.Stateless ∧
      (run host settings ref (settings.effective settings.strategy) files world).1 = .error reason ∧
      (assemble host settings ref files world).1.map (·.fullContent) = [some "return 1"] ∧
      (assemble host settings ref files world).1 =
        (assemble host { settings with strategy := settings.fallback } ref files world).1 ∧
      (assemble host settings ref files world).2 =
        settings.tried.foldl (fun world strategy => (run host settings ref strategy files world).2) world ∧
      settings.tried.length ≤ 2 ∧ settings.tried.Nodup := by
  intro files refused world ref settings reason
  have stateless : world.host.Stateless := by
    constructor
    · exact fun rule member => absurd member List.not_mem_nil
    · intro rule member
      obtain rfl := List.mem_singleton.mp member
      rfl
  have failed : (run host settings ref (settings.effective settings.strategy) files world).1 = .error reason := by
    decide +kernel
  exact ⟨stateless, failed, by decide +kernel,
    failed_pass_leaves_no_trace settings ref files world reason stateless failed⟩

end Assembly

end ReviewContext
