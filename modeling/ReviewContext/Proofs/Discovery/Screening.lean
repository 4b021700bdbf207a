import ReviewContext.Discovery.Tests
import ReviewContext.Proofs.Host.Tape

/-! # Screening of candidates

Dependents and tests are accepted by one loop: the hits of a search are gone through in order, those whose
path may be right are fetched, and those whose text confirms are kept until there are enough. A screen is
what differs between the two. `Screening` tells every way a screening can go, call by call, so that what is
said about accepted files, about the calls or about refusals is an induction over its cases.
-/

namespace ReviewContext.Discovery

/-- Which of the hits of a search are accepted as related to a target. -/
structure Screen where
  relationship : Relationship
  target : String
  /-- How many files are accepted at most. -/
  cap : Nat
  /-- Whether a path is looked at, beside the files accepted already. -/
  admits : List RelatedFile → String → Bool
  /-- Whether the text at a path shows the relationship. -/
  confirms : String → String → Bool

namespace Screen

/-- What is accepted after a candidate with this text, if it could be fetched. -/
def judge (screen : Screen) (accepted : List RelatedFile) (path : String) : Option String → List RelatedFile
  | some content =>
    if screen.confirms path content then accepted ++ [⟨path, screen.relationship, content, screen.target⟩]
    else accepted
  | none => accepted

/-- Files that may depend on the target and import its base name. -/
def dependents (settings : Settings) (target : String) : Screen where
  relationship := .dependent
  target := target
  cap := settings.maxDependents
  admits _ path := mayDepend target path
  confirms path content := (SourceRecord.parse path content).importsBaseName (Path.baseName target)

/-- Files of this name that mention the base name of the target. -/
def tests (settings : Settings) (target name : String) : Screen where
  relationship := .test
  target := target
  cap := settings.maxTests
  admits accepted path :=
    !(path == target || accepted.any (·.filename == path) || Path.fileName path != name)
  confirms _ content := Text.occursIn (Path.baseName target).toList content.toList

end Screen

variable {σ τ : Type}

/-- The one loop over hits that both discoveries run. -/
def screened (host : Host σ) (settings : Settings) (ref : RepositoryRef) (screen : Screen) :
    (hits : List String) → (accepted : List RelatedFile) → Run σ (List RelatedFile)
  | [], accepted => return accepted
  | path :: rest, accepted =>
    if screen.cap ≤ accepted.length then return accepted
    else if !screen.admits accepted path then screened host settings ref screen rest accepted
    else do
      let content? ← candidateContent host settings ref path
      screened host settings ref screen rest (screen.judge accepted path content?)

/-- The loop over the candidates for dependents is a screening. -/
theorem acceptDependents_eq_screened (host : Host σ) (settings : Settings) (ref : RepositoryRef)
    (target : String) (hits : List String) (accepted : List RelatedFile) :
    acceptDependents host settings ref target hits accepted =
      screened host settings ref (.dependents settings target) hits accepted := by
  induction hits generalizing accepted with
  | nil => rfl
  | cons path rest ih =>
    simp only [acceptDependents, screened, ih]
    rfl

/-- The loop over the hits for a test is a screening. -/
theorem acceptTests_eq_screened (host : Host σ) (settings : Settings) (ref : RepositoryRef)
    (target name : String) (hits : List String) (accepted : List RelatedFile) :
    acceptTests host settings ref target name hits accepted =
      screened host settings ref (.tests settings target name) hits accepted := by
  induction hits generalizing accepted with
  | nil => rfl
  | cons path rest ih =>
    simp only [acceptTests, screened, ih, Screen.tests, Bool.not_not]
    rfl

/-- The ways a screening can go, with the calls that it makes and what comes of it. -/
inductive Screening (screen : Screen) :
    List String → List RelatedFile → List Call → Ending (List RelatedFile) → Prop
  | exhausted {accepted : List RelatedFile} : Screening screen [] accepted [] (.ok accepted)
  | enough {hits : List String} {accepted : List RelatedFile}
      (full : screen.cap ≤ accepted.length) : Screening screen hits accepted [] (.ok accepted)
  | passed {path : String} {rest : List String} {accepted : List RelatedFile} {calls : List Call}
      {result : Ending (List RelatedFile)} (room : accepted.length < screen.cap)
      (skipped : screen.admits accepted path = false)
      (tail : Screening screen rest accepted calls result) :
      Screening screen (path :: rest) accepted calls result
  | refused {path : String} {rest : List String} {accepted : List RelatedFile} {e : AccessError}
      (room : accepted.length < screen.cap) (admitted : screen.admits accepted path = true)
      (fatal : e.isFatal = true) :
      Screening screen (path :: rest) accepted [.fetch path (.error e)] (.error e)
  | unread {path : String} {rest : List String} {accepted : List RelatedFile} {e : AccessError}
      {calls : List Call} {result : Ending (List RelatedFile)} (room : accepted.length < screen.cap)
      (admitted : screen.admits accepted path = true) (mild : e.isFatal = false)
      (tail : Screening screen rest accepted calls result) :
      Screening screen (path :: rest) accepted (.fetch path (.error e) :: calls) result
  | read {path : String} {rest : List String} {accepted : List RelatedFile} {content : String}
      {calls : List Call} {result : Ending (List RelatedFile)} (room : accepted.length < screen.cap)
      (admitted : screen.admits accepted path = true)
      (tail : Screening screen rest (screen.judge accepted path (some content)) calls result) :
      Screening screen (path :: rest) accepted (.fetch path (.ok content) :: calls) result

private theorem candidateContent_leaves (host : Host σ) (settings : Settings) (ref : RepositoryRef) (path : String) :
    Leaves (candidateContent (host.recorded settings.requestTimeoutSecs) settings ref path)
      fun calls result => ∃ ending, calls = [.fetch path ending] ∧ result = ending.attempted :=
  (Leaves.awaitFetch host _ ref path).attempt

/-- A search for candidates is one call, and without an answer there are none. -/
theorem candidates_searches (host : Host σ) (settings : Settings) (ref : RepositoryRef) (query : Query)
    (limit : Nat) :
    Leaves (candidates (host.recorded settings.requestTimeoutSecs) settings ref query limit)
      fun calls result => ∃ ending, calls = [.search query limit ending] ∧
        result = (Ending.attempted ending).map (·.getD []) := by
  refine .bind (Leaves.awaitSearch host _ ref query limit).attempt ?_ ?_
  · rintro _ e ⟨ending, rfl, ended⟩
    exact ⟨ending, rfl, by rw [← ended]; rfl⟩
  · rintro _ hits? ⟨ending, rfl, ended⟩
    exact .pure ⟨ending, rfl, by rw [← ended]; rfl⟩

/-- On any host a screening goes one of the ways that there are. -/
theorem screened_leaves (host : Host σ) (settings : Settings) (ref : RepositoryRef) (screen : Screen)
    (hits : List String) (accepted : List RelatedFile) :
    Leaves (screened (host.recorded settings.requestTimeoutSecs) settings ref screen hits accepted)
      (Screening screen hits accepted) := by
  induction hits generalizing accepted with
  | nil => exact .pure .exhausted
  | cons path rest ih =>
    unfold screened
    split
    · next full => exact .pure (.enough full)
    · next notFull =>
      have room : accepted.length < screen.cap := Nat.lt_of_not_le notFull
      cases admits : screen.admits accepted path with
      | false => exact (ih accepted).imp fun _ _ => .passed room admits
      | true =>
        refine .bind (candidateContent_leaves host settings ref path) ?_ ?_
        · rintro _ e ⟨ending, rfl, ended⟩
          obtain ⟨rfl, fatal⟩ := Ending.attempted_eq_error_iff.mp ended.symm
          exact .refused room admits fatal
        · rintro _ content? ⟨ending, rfl, ended⟩
          rcases Ending.attempted_eq_ok_iff.mp ended.symm with ⟨content, rfl, rfl⟩ | ⟨e, rfl, mild, rfl⟩
          · exact (ih _).imp fun _ _ => .read room admits
          · exact (ih _).imp fun _ _ => .unread room admits mild

/-- A file that a screen let pass and that its own text confirmed. -/
structure Screen.Confirmed (screen : Screen) (calls : List Call) (related : RelatedFile) : Prop where
  relationship : related.relationship = screen.relationship
  target : related.target = screen.target
  fetched : .fetch related.filename (.ok related.content) ∈ calls
  admitted : ∃ accepted, screen.admits accepted related.filename = true
  confirmed : screen.confirms related.filename related.content = true

theorem Screen.Confirmed.mono {screen : Screen} {calls more : List Call} {related : RelatedFile}
    (confirmed : screen.Confirmed calls related) (kept : calls ⊆ more) : screen.Confirmed more related :=
  { confirmed with fetched := kept confirmed.fetched }

namespace Screening

variable {screen : Screen} {hits : List String} {accepted : List RelatedFile} {calls : List Call}
  {result : Ending (List RelatedFile)}

/-- A screening ends in an error if one of its fetches was refused, and only then. -/
theorem heeds (screening : Screening screen hits accepted calls result) : Heeds id calls result := by
  induction screening with
  | exhausted => exact .nothing
  | enough full => exact .nothing
  | passed room skipped tail ih => exact ih
  | refused room admitted fatal => exact ⟨fatal, _, List.mem_singleton_self _, rfl⟩
  | @unread path _ _ e _ _ room admitted mild tail ih =>
    have attempted := Heeds.attemptFetch path (.error e)
    rw [Ending.attempted_of_mild mild] at attempted
    exact attempted.append ih
  | @read path _ _ content _ _ room admitted tail ih =>
    exact Heeds.append (Heeds.attemptFetch path (.ok content)) ih

/-- Nothing is fetched but hits, and nothing is searched for. -/
theorem calls_of_hits (screening : Screening screen hits accepted calls result) :
    ∀ call ∈ calls, ∃ path ending, call = .fetch path ending ∧ path ∈ hits := by
  have widen {path : String} {rest : List String} {call : Call}
      (known : ∃ other ending, call = .fetch other ending ∧ other ∈ rest) :
      ∃ other ending, call = .fetch other ending ∧ other ∈ path :: rest := by
    obtain ⟨other, ending, same, member⟩ := known
    exact ⟨other, ending, same, List.mem_cons_of_mem _ member⟩
  induction screening with
  | exhausted => exact fun _ member => nomatch member
  | enough full => exact fun _ member => nomatch member
  | passed room skipped tail ih => exact fun call member => widen (ih call member)
  | refused room admitted fatal =>
    intro call member
    obtain rfl := List.mem_singleton.mp member
    exact ⟨_, _, rfl, List.mem_cons_self⟩
  | unread room admitted mild tail ih =>
    intro call member
    rcases List.mem_cons.mp member with rfl | later
    · exact ⟨_, _, rfl, List.mem_cons_self⟩
    · exact widen (ih call later)
  | read room admitted tail ih =>
    intro call member
    rcases List.mem_cons.mp member with rfl | later
    · exact ⟨_, _, rfl, List.mem_cons_self⟩
    · exact widen (ih call later)

/-- What a screening adds was fetched and shown by its text to be related. -/
theorem confirmed (screening : Screening screen hits accepted calls result) {found : List RelatedFile}
    (completed : result = .ok found) :
    ∀ related ∈ found, related ∈ accepted ∨ screen.Confirmed calls related := by
  induction screening with
  | exhausted => cases completed; exact fun _ member => .inl member
  | enough full => cases completed; exact fun _ member => .inl member
  | passed room skipped tail ih => exact ih completed
  | refused room admitted fatal => cases completed
  | unread room admitted mild tail ih =>
    exact fun related member => (ih completed related member).imp_right (·.mono (List.subset_cons_self _ _))
  | @read path rest accepted content calls result room admitted tail ih =>
    intro related member
    rcases ih completed related member with kept | confirmed
    · simp only [Screen.judge] at kept
      split at kept
      · next confirms =>
        rcases List.mem_append.mp kept with old | new
        · exact .inl old
        · obtain rfl := List.mem_singleton.mp new
          exact .inr ⟨rfl, rfl, List.mem_cons_self, ⟨accepted, admitted⟩, confirms⟩
      · exact .inl kept
    · exact .inr (confirmed.mono (List.subset_cons_self _ _))

end Screening

end ReviewContext.Discovery
