import ReviewContext.Proofs.Assembly.Pass
import ReviewContext.Proofs.Discovery.Alike

/-! # Passes on two hosts

A pass of a strategy reads the limits of the settings and never which strategy or fallback they name. On
tied hosts and with the same limits it gives the same files, or fails for the same reason, and so does an
assembly under settings that have the same strategies run.
-/

namespace ReviewContext

/-- The settings may differ in the strategies that they name. -/
structure Settings.SameLimits (settings other : Settings) : Prop extends settings.SameSearch other where
  maxFileSize : settings.maxFileSize = other.maxFileSize
  maxCharsPerFile : settings.maxCharsPerFile = other.maxCharsPerFile

theorem Settings.SameLimits.refl (settings : Settings) : settings.SameLimits settings :=
  ⟨⟨rfl, rfl, rfl⟩, rfl, rfl⟩

namespace Assembly

variable {σ τ : Type} {settings otherSettings : Settings} {ref : RepositoryRef} {host : Host σ}
  {other : Host τ} {tie : World σ → World τ → Prop}

private theorem startFetches_alike (limits : settings.SameSearch otherSettings) (tied : host.Tied ref other tie)
    (files : List ChangedFile) {left : World σ} {right : World τ} (related : tie left right) :
    (startFetches host settings ref files left.host).1 =
        (startFetches other otherSettings ref files right.host).1 ∧
      tie ⟨(startFetches host settings ref files left.host).2, left.elapsed⟩
        ⟨(startFetches other otherSettings ref files right.host).2, right.elapsed⟩ := by
  induction files generalizing left right with
  | nil => exact ⟨rfl, related⟩
  | cons file rest ih =>
    unfold startFetches
    split
    · obtain ⟨same, kept⟩ := ih related
      exact ⟨congrArg _ same, kept⟩
    · obtain ⟨reply, fetched⟩ := tied.fetch file.filename related
      obtain ⟨same, kept⟩ := ih fetched
      refine ⟨?_, kept⟩
      change some _ :: _ = some _ :: _
      rw [reply, limits.requestTimeoutSecs]
      exact congrArg _ same

private theorem withReply_congr (limits : settings.SameLimits otherSettings) :
    withReply settings = withReply otherSettings := by
  funext file reply?
  unfold withReply
  rw [limits.maxFileSize]

/-- On tied hosts the bodies are fetched alike, as long as the settings have the same limits. -/
theorem fullFiles_alike (limits : settings.SameLimits otherSettings) (tied : host.Tied ref other tie)
    (files : List ChangedFile) :
    Alike tie (fullFiles host settings ref files) (fullFiles other otherSettings ref files) := by
  intro left right related
  obtain ⟨same, kept⟩ := startFetches_alike limits.toSameSearch tied files related
  unfold fullFiles
  dsimp only
  rw [same, withReply_congr limits]
  split
  · next delay e first => exact ⟨rfl, tied.wait delay kept⟩
  · exact ⟨rfl, tied.wait _ kept⟩

private theorem ofRun_alike {α : Type} {run : Run σ α} {otherRun : Run τ α} (alike : Alike tie run otherRun)
    (reason : AccessError → DegradationReason) :
    Alike tie (Pass.ofRun reason run) (Pass.ofRun reason otherRun) := by
  intro left right related
  obtain ⟨same, kept⟩ := alike related
  unfold Pass.ofRun
  generalize run left = out at same kept
  generalize otherRun right = otherOut at same kept
  obtain ⟨ending, after⟩ := out
  obtain ⟨otherEnding, otherAfter⟩ := otherOut
  obtain rfl : ending = otherEnding := same
  cases ending with
  | error e => exact ⟨rfl, kept⟩
  | ok a => exact ⟨rfl, kept⟩

theorem discoverFor_alike (limits : settings.SameSearch otherSettings)
    (agrees : host.AgreesWithin ref settings.requestTimeoutSecs other tie) (file : ChangedFile) :
    Alike tie (discoverFor host settings ref file) (discoverFor other otherSettings ref file) := by
  unfold discoverFor
  split
  · exact ofRun_alike (Discovery.discover_alike limits agrees file.filename _) _
  · exact .pure _

/-- For the discoveries it is enough that calls that are waited for end alike. -/
theorem discoverEach_alike (limits : settings.SameSearch otherSettings)
    (agrees : host.AgreesWithin ref settings.requestTimeoutSecs other tie) (files : List ChangedFile) :
    Alike tie (discoverEach host settings ref files) (discoverEach other otherSettings ref files) := by
  induction files with
  | nil => exact .pure _
  | cons file rest ih =>
    rw [discoverEach_cons, discoverEach_cons]
    exact .bind (discoverFor_alike limits agrees file) fun found => .bind ih fun others => .pure _

private theorem draw_congr (limits : settings.SameLimits otherSettings) (filename : String) (dependents tests : Nat)
    (offered : List RelatedFile) :
    draw settings filename dependents tests offered = draw otherSettings filename dependents tests offered := by
  induction offered generalizing dependents tests with
  | nil => rfl
  | cons file rest ih =>
    simp only [draw, ih, limits.maxDependents, limits.maxTests, limits.maxCharsPerFile]

private theorem withBundle_congr (limits : settings.SameLimits otherSettings) :
    withBundle settings = withBundle otherSettings := by
  funext pool file found
  simp only [withBundle, bundle, draw_congr limits]

/-- A pass ends alike on tied hosts, under settings with the same limits. -/
theorem run_alike (limits : settings.SameLimits otherSettings) (tied : host.Tied ref other tie)
    (strategy : Strategy) (files : List ChangedFile) :
    Alike tie (run host settings ref strategy files) (run other otherSettings ref strategy files) := by
  cases strategy with
  | diffOnly => exact .pure _
  | fullFiles => exact fullFiles_alike limits tied files
  | dependencyAware =>
    simp only [run, dependencyAware, withBundle_congr limits]
    exact .bind (fullFiles_alike limits tied files) fun enriched =>
      .bind (discoverEach_alike limits.toSameSearch (tied.agreesWithin _) enriched) fun found => .pure _

end Assembly

/-- An assembly is a pass of the strategy asked for and, if that fails, one of the fallback. -/
theorem assemble_apply {σ : Type} (host : Host σ) (settings : Settings) (ref : RepositoryRef)
    (files : List ChangedFile) (world : World σ) :
    assemble host settings ref files world =
      match Assembly.run host settings ref (settings.effective settings.strategy) files world with
      | (.ok enriched, after) => (enriched, after)
      | (.error reason, after) =>
        if settings.effective settings.fallback = settings.effective settings.strategy then
          (Assembly.unenriched reason files, after)
        else
          match Assembly.run host settings ref (settings.effective settings.fallback) files after with
          | (.ok enriched, last) => (enriched, last)
          | (.error reason, last) => (Assembly.unenriched reason files, last) := by
  simp only [assemble, Bind.bind, StateT.bind]
  cases Assembly.run host settings ref (settings.effective settings.strategy) files world with
  | mk result after =>
    cases result with
    | ok enriched => rfl
    | error reason =>
      dsimp only
      split
      · rfl
      · simp only [StateT.bind]
        cases Assembly.run host settings ref (settings.effective settings.fallback) files after with
        | mk result last => cases result <;> rfl

/-- A first pass that is completed is the whole assembly. -/
theorem assemble_of_completed {σ : Type} {host : Host σ} {settings : Settings} {ref : RepositoryRef}
    {files enriched : List ChangedFile} {world : World σ}
    (completed : (Assembly.run host settings ref (settings.effective settings.strategy) files world).1 =
      .ok enriched) :
    assemble host settings ref files world =
      (enriched, (Assembly.run host settings ref (settings.effective settings.strategy) files world).2) := by
  rw [assemble_apply]
  generalize Assembly.run host settings ref (settings.effective settings.strategy) files world = out
    at completed ⊢
  obtain ⟨result, after⟩ := out
  obtain rfl : result = .ok enriched := completed
  rfl

/-- Which strategies are run is all that matters of those the settings name. -/
theorem assemble_alike {σ τ : Type} {settings otherSettings : Settings} {ref : RepositoryRef}
    {host : Host σ} {other : Host τ} {tie : World σ → World τ → Prop}
    (limits : settings.SameLimits otherSettings) (tied : host.Tied ref other tie)
    (requested : settings.effective settings.strategy = otherSettings.effective otherSettings.strategy)
    (fallback : settings.effective settings.fallback = otherSettings.effective otherSettings.fallback)
    (files : List ChangedFile) :
    Alike tie (assemble host settings ref files) (assemble other otherSettings ref files) := by
  intro left right related
  rw [assemble_apply, assemble_apply, requested, fallback]
  obtain ⟨same, kept⟩ :=
    Assembly.run_alike limits tied (otherSettings.effective otherSettings.strategy) files related
  generalize Assembly.run host settings ref _ files left = out at same kept
  generalize Assembly.run other otherSettings ref _ files right = otherOut at same kept
  obtain ⟨result, after⟩ := out
  obtain ⟨otherResult, otherAfter⟩ := otherOut
  obtain rfl : result = otherResult := same
  cases result with
  | ok enriched => exact ⟨rfl, kept⟩
  | error reason =>
    dsimp only
    split
    · exact ⟨rfl, kept⟩
    · obtain ⟨sameAgain, keptAgain⟩ :=
        Assembly.run_alike limits tied (otherSettings.effective otherSettings.fallback) files kept
      generalize Assembly.run host settings ref _ files after = out at sameAgain keptAgain
      generalize Assembly.run other otherSettings ref _ files otherAfter = otherOut at sameAgain keptAgain
      obtain ⟨result, last⟩ := out
      obtain ⟨otherResult, otherLast⟩ := otherOut
      obtain rfl : result = otherResult := sameAgain
      cases result with
      | ok enriched => exact ⟨rfl, keptAgain⟩
      | error reason => exact ⟨rfl, keptAgain⟩

end ReviewContext
