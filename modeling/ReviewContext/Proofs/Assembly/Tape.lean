import ReviewContext.Proofs.Assembly.Alike

/-! # The tape of an assembly

A host and its recording are tied, so that the calls of an assembly can be spoken of beside the files it
returns. `Assembling` tells the ways an assembly can go: it is completed by the first pass, by the second,
or by none, and its tape is that of the passes one after the other.
-/

namespace ReviewContext.Assembly

variable {σ : Type} (host : Host σ) (settings : Settings) (ref : RepositoryRef) (files : List ChangedFile)
  (world : World σ)

/-- The calls of an assembly, with how they ended. -/
def tape : List Call :=
  (assemble (host.recorded settings.requestTimeoutSecs) settings ref files world.recorded).2.host.tape

/-- The calls of a pass, with how they ended. -/
def passTape (strategy : Strategy) : List Call :=
  (run (host.recorded settings.requestTimeoutSecs) settings ref strategy files world.recorded).2.host.tape

private theorem run_recorded (strategy : Strategy) :
    (run (host.recorded settings.requestTimeoutSecs) settings ref strategy files world.recorded).1 =
      (run host settings ref strategy files world).1 :=
  (run_alike (.refl settings) (host.tied_recorded ref _) strategy files).fst_recorded world

/-- The calls of a pass and its outcome go together. -/
theorem passing (strategy : Strategy) :
    Passing settings files strategy (passTape host settings ref files world strategy)
      (run host settings ref strategy files world).1 := by
  rw [← run_recorded]
  exact (run_leaves host settings ref strategy files).fresh world

/-- The ways an assembly can go. -/
inductive Assembling (settings : Settings) (files : List ChangedFile) :
    List Call → List ChangedFile → Prop
  | completed {calls : List Call} {enriched : List ChangedFile}
      (first : Passing settings files (settings.effective settings.strategy) calls (.ok enriched)) :
      Assembling settings files calls enriched
  | unretried {calls : List Call} {reason : DegradationReason}
      (first : Passing settings files (settings.effective settings.strategy) calls (.error reason))
      (identical : settings.effective settings.fallback = settings.effective settings.strategy) :
      Assembling settings files calls (unenriched reason files)
  | fellBack {calls more : List Call} {reason : DegradationReason} {enriched : List ChangedFile}
      (first : Passing settings files (settings.effective settings.strategy) calls (.error reason))
      (different : settings.effective settings.fallback ≠ settings.effective settings.strategy)
      (second : Passing settings files (settings.effective settings.fallback) more (.ok enriched)) :
      Assembling settings files (calls ++ more) enriched
  | failedTwice {calls more : List Call} {reason last : DegradationReason}
      (first : Passing settings files (settings.effective settings.strategy) calls (.error reason))
      (different : settings.effective settings.fallback ≠ settings.effective settings.strategy)
      (second : Passing settings files (settings.effective settings.fallback) more (.error last)) :
      Assembling settings files (calls ++ more) (unenriched last files)

/-- What an assembly leaves is put together from what its passes leave. -/
theorem assemble_leaves_of
    {fits : Strategy → List Call → Except DegradationReason (List ChangedFile) → Prop}
    {kept : List Call → List ChangedFile → Prop}
    (pass : ∀ strategy, Leaves (run (host.recorded settings.requestTimeoutSecs) settings ref strategy files)
      (fits strategy))
    (completed : ∀ {calls enriched}, fits (settings.effective settings.strategy) calls (.ok enriched) →
      kept calls enriched)
    (unretried : ∀ {calls reason}, fits (settings.effective settings.strategy) calls (.error reason) →
      settings.effective settings.fallback = settings.effective settings.strategy →
        kept calls (unenriched reason files))
    (fellBack : ∀ {calls more reason enriched}, fits (settings.effective settings.strategy) calls (.error reason) →
      settings.effective settings.fallback ≠ settings.effective settings.strategy →
        fits (settings.effective settings.fallback) more (.ok enriched) → kept (calls ++ more) enriched)
    (failedTwice : ∀ {calls more reason last},
      fits (settings.effective settings.strategy) calls (.error reason) →
      settings.effective settings.fallback ≠ settings.effective settings.strategy →
        fits (settings.effective settings.fallback) more (.error last) →
          kept (calls ++ more) (unenriched last files)) :
    Leaves (assemble (host.recorded settings.requestTimeoutSecs) settings ref files) kept := by
  intro world
  rw [assemble_apply]
  obtain ⟨calls, added, first⟩ := pass (settings.effective settings.strategy) world
  generalize run _ _ _ _ _ world = out at added first
  obtain ⟨result, after⟩ := out
  cases result with
  | ok enriched => exact ⟨calls, added, completed first⟩
  | error reason =>
    dsimp only
    split
    · next identical => exact ⟨calls, added, unretried first identical⟩
    · next different =>
      obtain ⟨more, addedMore, second⟩ := pass (settings.effective settings.fallback) after
      generalize run _ _ _ _ _ after = out at addedMore second
      obtain ⟨result, last⟩ := out
      have all : last.host.tape = world.host.tape ++ (calls ++ more) := by
        rw [← List.append_assoc, ← added]
        exact addedMore
      cases result with
      | ok enriched => exact ⟨calls ++ more, all, fellBack first different second⟩
      | error reason => exact ⟨calls ++ more, all, failedTwice first different second⟩

private theorem assemble_leaves :
    Leaves (assemble (host.recorded settings.requestTimeoutSecs) settings ref files)
      (Assembling settings files) :=
  assemble_leaves_of host settings ref files (fun strategy => run_leaves host settings ref strategy files)
    .completed .unretried .fellBack .failedTwice

/-- Keeping a tape changes nothing of what an assembly returns. -/
theorem assemble_recorded :
    (assemble (host.recorded settings.requestTimeoutSecs) settings ref files world.recorded).1 =
      (assemble host settings ref files world).1 :=
  (assemble_alike (.refl settings) (host.tied_recorded ref _) rfl rfl files).fst_recorded world

private theorem assembling :
    Assembling settings files (tape host settings ref files world) (assemble host settings ref files world).1 := by
  rw [← assemble_recorded]
  exact (assemble_leaves host settings ref files).fresh world

/-- What a completed pass ensures, whatever was called before it, and what giving up ensures, an assembly
ensures. -/
theorem assemble_ensures (ensured : List Call → List ChangedFile → Prop)
    (completed : ∀ strategy before calls out, Passing settings files strategy calls (.ok out) →
      ensured (before ++ calls) out)
    (gaveUp : ∀ reason calls, ensured calls (unenriched reason files)) :
    ensured (tape host settings ref files world) (assemble host settings ref files world).1 := by
  have went := assembling host settings ref files world
  generalize tape host settings ref files world = calls at went ⊢
  generalize (assemble host settings ref files world).1 = out at went ⊢
  cases went with
  | completed first => exact completed _ [] _ _ first
  | unretried first identical => exact gaveUp _ _
  | fellBack first different second => exact completed _ _ _ _ second
  | failedTwice first different second => exact gaveUp _ _

/-- The calls of the first pass come first. -/
theorem passTape_comes_first :
    passTape host settings ref files world (settings.effective settings.strategy) <+:
      tape host settings ref files world := by
  unfold passTape tape
  rw [assemble_apply]
  generalize run _ _ _ (settings.effective settings.strategy) _ world.recorded = out
  obtain ⟨_ | enriched, after⟩ := out
  · dsimp only
    split
    · exact List.prefix_rfl
    · obtain ⟨more, added, _⟩ := run_leaves host settings ref (settings.effective settings.fallback) files after
      generalize run _ _ _ (settings.effective settings.fallback) _ after = out at added ⊢
      obtain ⟨_ | enriched, last⟩ := out <;> exact ⟨more, added.symm⟩
  · exact List.prefix_rfl

/-- After a first pass that is completed there are no further calls. -/
theorem tape_of_completed {enriched : List ChangedFile}
    (completed : (run host settings ref (settings.effective settings.strategy) files world).1 = .ok enriched) :
    tape host settings ref files world =
      passTape host settings ref files world (settings.effective settings.strategy) := by
  rw [← run_recorded] at completed
  rw [tape, assemble_of_completed completed, passTape]

end ReviewContext.Assembly
