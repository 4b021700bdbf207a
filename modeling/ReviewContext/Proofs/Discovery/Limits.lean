import ReviewContext.Proofs.Discovery.Screening

/-! # The limits of a discovery

However long the lists of hits are that the searches answer with, a discovery returns no more files of either
relationship than it may, and never the file that it is for. A screening that starts within its cap stays
within it, and every name that is asked for goes on with the tests that the names before it have found.
-/

namespace ReviewContext

/-- How many files of a relationship are kept for one file. -/
def Settings.cap (settings : Settings) : Relationship → Nat
  | .dependent => settings.maxDependents
  | .test => settings.maxTests

/-- Whatever the world, what the run returns is as said. -/
def Returns {σ α ε : Type} (run : World σ → Except ε α × World σ) (good : α → Prop) : Prop :=
  ∀ world a after, run world = (.ok a, after) → good a

namespace Returns

variable {σ α β ε : Type} {good : α → Prop}

private theorem any (run : World σ → Except ε α × World σ) : Returns run fun _ => True :=
  fun _ _ _ _ => trivial

/-- It is enough to know the result, whatever world the run leaves. -/
theorem of_fst {run : World σ → Except ε α × World σ} (returns : Returns run good) {world : World σ} {a : α}
    (completed : (run world).1 = .ok a) : good a :=
  returns world a (run world).2 (Prod.ext completed rfl)

private theorem pure {a : α} (known : good a) : Returns (Pure.pure a : ExceptT ε (StateM (World σ)) α) good := by
  rintro world _ _ ⟨⟩
  exact known

private theorem bind {step : ExceptT ε (StateM (World σ)) α} {rest : α → ExceptT ε (StateM (World σ)) β}
    {better : β → Prop} (first : Returns step good) (next : ∀ a, good a → Returns (rest a) better) :
    Returns (step >>= rest) better := by
  intro world b after went
  obtain ⟨a, middle, started, ended⟩ := bind_eq_ok_iff.mp went
  exact next a (first world a middle started) middle b after ended

end Returns

/-- Files of one relationship to a target, no more of them than the cap. -/
structure RelatedFile.Within (relationship : Relationship) (target : String) (cap : Nat)
    (files : List RelatedFile) : Prop where
  few : files.length ≤ cap
  kind : ∀ file ∈ files, file.relationship = relationship
  other : ∀ file ∈ files, file.filename ≠ target

namespace Discovery

open RelatedFile

variable {σ : Type} {accepted : List RelatedFile}

private theorem Within.nothing {relationship : Relationship} {target : String} {cap : Nat} :
    Within relationship target cap [] :=
  ⟨Nat.zero_le _, by simp, by simp⟩

def Screen.Within (screen : Screen) (files : List RelatedFile) : Prop :=
  RelatedFile.Within screen.relationship screen.target screen.cap files

private theorem Screen.judge_within {screen : Screen} {path : String} {content? : Option String}
    (within : screen.Within accepted) (room : accepted.length < screen.cap) (other : path ≠ screen.target) :
    screen.Within (screen.judge accepted path content?) := by
  cases content? with
  | none => exact within
  | some content =>
    simp only [Screen.judge]
    split
    · refine ⟨?_, fun file member => ?_, fun file member => ?_⟩
      · rw [List.length_append, List.length_singleton]
        exact room
      · rcases List.mem_append.mp member with old | new
        · exact within.kind file old
        · obtain rfl := List.mem_singleton.mp new
          rfl
      · rcases List.mem_append.mp member with old | new
        · exact within.other file old
        · obtain rfl := List.mem_singleton.mp new
          exact other
    · exact within

variable (host : Host σ) (settings : Settings) (ref : RepositoryRef)

private theorem screened_returns (screen : Screen)
    (apart : ∀ accepted path, screen.admits accepted path = true → path ≠ screen.target)
    (hits : List String) (within : screen.Within accepted) :
    Returns (screened host settings ref screen hits accepted) screen.Within := by
  induction hits generalizing accepted with
  | nil => exact .pure within
  | cons path rest ih =>
    unfold screened
    split
    · exact .pure within
    · next notFull =>
      split
      · exact ih within
      · next admitted =>
        have other := apart accepted path (by simpa using admitted)
        exact .bind (.any _) fun content? _ => ih (Screen.judge_within within (Nat.lt_of_not_le notFull) other)

/-- No more dependents are returned than the cap allows, and never the target. -/
theorem findDependents_returns (target : String) (exports : List String) :
    Returns (findDependents host settings ref target exports)
      (Within .dependent target settings.maxDependents) := by
  unfold findDependents
  dsimp only
  split
  · split
    · exact .pure Within.nothing
    · refine .bind (.any _) fun hits _ => ?_
      rw [acceptDependents_eq_screened]
      refine screened_returns host settings ref (.dependents settings target) ?_ _ Within.nothing
      intro accepted path admitted
      simp only [Screen.dependents, mayDepend, Bool.and_eq_true, bne_iff_ne] at admitted
      exact admitted.1.1
  · exact .pure Within.nothing

private theorem acceptNames_returns (target : String) (names : List String)
    (within : Within .test target settings.maxTests accepted) :
    Returns (acceptNames host settings ref target names accepted) (Within .test target settings.maxTests) := by
  induction names generalizing accepted with
  | nil => exact .pure within
  | cons name rest ih =>
    unfold acceptNames
    split
    · exact .pure within
    · refine .bind (.any _) fun hits _ => ?_
      rw [acceptTests_eq_screened]
      refine .bind (screened_returns host settings ref (.tests settings target name) ?_ hits within)
        fun found tests => ih tests
      intro accepted path admitted
      simp only [Screen.tests, Bool.not_or, Bool.and_eq_true, Bool.not_eq_true', beq_eq_false_iff_ne] at admitted
      exact admitted.1.1

/-- No more tests are returned than the cap allows, and never the target. -/
theorem findTests_returns (target : String) :
    Returns (findTests host settings ref target) (Within .test target settings.maxTests) := by
  unfold findTests
  split
  · exact .pure Within.nothing
  · exact acceptNames_returns host settings ref target _ Within.nothing

/-- What a discovery for the file at `path` returns. -/
structure Limited (settings : Settings) (path : String) (found : List RelatedFile) : Prop where
  few : ∀ kind, (found.filter (·.relationship = kind)).length ≤ settings.cap kind
  other : ∀ related ∈ found, related.filename ≠ path

/-- Since the two relationships are counted apart, the files of both together keep to the caps. -/
theorem limited_append {path : String} {dependents tests : List RelatedFile}
    (first : Within .dependent path settings.maxDependents dependents)
    (next : Within .test path settings.maxTests tests) : Limited settings path (dependents ++ tests) := by
  refine ⟨fun kind => ?_, fun related member => ?_⟩
  · have noTests (test : kind = .test) : dependents.filter (·.relationship = kind) = [] :=
      List.filter_eq_nil_iff.mpr fun file member => by simp [first.kind file member, test]
    have noDependents (dependent : kind = .dependent) : tests.filter (·.relationship = kind) = [] :=
      List.filter_eq_nil_iff.mpr fun file member => by simp [next.kind file member, dependent]
    rw [List.filter_append, List.length_append]
    cases kind with
    | dependent =>
      rw [noDependents rfl]
      exact Nat.le_trans (List.length_filter_le _ _) first.few
    | test =>
      rw [noTests rfl, List.length_nil, Nat.zero_add]
      exact Nat.le_trans (List.length_filter_le _ _) next.few
  · rcases List.mem_append.mp member with dependent | test
    · exact first.other related dependent
    · exact next.other related test

/-- A discovery keeps to both caps and returns no file as related to itself. -/
theorem discover_returns (path content : String) :
    Returns (discover host settings ref path content) (Limited settings path) :=
  .bind (findDependents_returns host settings ref path _) fun _ first =>
    .bind (findTests_returns host settings ref path) fun _ next => .pure (limited_append settings first next)

end Discovery

end ReviewContext
