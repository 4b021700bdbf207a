import ReviewContext.Proofs.Discovery.Screening

/-! # Discovery on two hosts

Discovery asks its host and reads three of the settings: the two limits and the time a call may take. On
hosts that agree within that time, and with the same three, it therefore finds the same files, or fails
alike.
-/

namespace ReviewContext

/-- The settings give discovery the same limits. -/
structure Settings.SameSearch (settings other : Settings) : Prop where
  maxDependents : settings.maxDependents = other.maxDependents
  maxTests : settings.maxTests = other.maxTests
  requestTimeoutSecs : settings.requestTimeoutSecs = other.requestTimeoutSecs

namespace Discovery

variable {σ τ : Type} {settings otherSettings : Settings} {ref : RepositoryRef} {host : Host σ}
  {other : Host τ} {tie : World σ → World τ → Prop} (limits : settings.SameSearch otherSettings)
  (agrees : host.AgreesWithin ref settings.requestTimeoutSecs other tie)

include limits agrees

private theorem candidates_alike (query : Query) (limit : Nat) :
    Alike tie (candidates host settings ref query limit) (candidates other otherSettings ref query limit) := by
  unfold candidates
  rw [← limits.requestTimeoutSecs]
  exact .bind (agrees.search query limit).attempt fun _ => .pure _

private theorem candidateContent_alike (path : String) :
    Alike tie (candidateContent host settings ref path) (candidateContent other otherSettings ref path) := by
  unfold candidateContent
  rw [← limits.requestTimeoutSecs]
  exact (agrees.fetch path).attempt

private theorem screened_alike (screen : Screen) (hits : List String) (accepted : List RelatedFile) :
    Alike tie (screened host settings ref screen hits accepted)
      (screened other otherSettings ref screen hits accepted) := by
  induction hits generalizing accepted with
  | nil => exact .pure _
  | cons path rest ih =>
    unfold screened
    split
    · exact .pure _
    split
    · exact ih accepted
    · exact .bind (candidateContent_alike limits agrees path) fun content? => ih _

private theorem acceptNames_alike (target : String) (names : List String) (accepted : List RelatedFile) :
    Alike tie (acceptNames host settings ref target names accepted)
      (acceptNames other otherSettings ref target names accepted) := by
  induction names generalizing accepted with
  | nil => exact .pure _
  | cons name rest ih =>
    have same : Screen.tests settings target name = Screen.tests otherSettings target name := by
      simp only [Screen.tests, limits.maxTests]
    unfold acceptNames
    rw [limits.maxTests]
    split
    · exact .pure _
    · refine .bind (candidates_alike limits agrees _ _) fun hits => ?_
      rw [acceptTests_eq_screened, acceptTests_eq_screened, same]
      exact .bind (screened_alike limits agrees _ hits accepted) fun found => ih found

theorem findTests_alike (target : String) :
    Alike tie (findTests host settings ref target) (findTests other otherSettings ref target) := by
  unfold findTests
  rw [limits.maxTests]
  split
  · exact .pure _
  · exact acceptNames_alike limits agrees target _ []

theorem findDependents_alike (target : String) (exports : List String) :
    Alike tie (findDependents host settings ref target exports)
      (findDependents other otherSettings ref target exports) := by
  have same : Screen.dependents settings target = Screen.dependents otherSettings target := by
    simp only [Screen.dependents, limits.maxDependents]
  unfold findDependents dependentBudget
  rw [limits.maxDependents]
  dsimp only
  split
  · split
    · exact .pure _
    · refine .bind (candidates_alike limits agrees _ _) fun hits => ?_
      rw [acceptDependents_eq_screened, acceptDependents_eq_screened, same]
      exact screened_alike limits agrees _ _ []
  · exact .pure _

/-- A discovery goes alike wherever the calls that are waited for end alike. -/
theorem discover_alike (path content : String) :
    Alike tie (discover host settings ref path content) (discover other otherSettings ref path content) :=
  .bind (findDependents_alike limits agrees path _) fun _ =>
    .bind (findTests_alike limits agrees path) fun _ => .pure _

end Discovery

end ReviewContext
