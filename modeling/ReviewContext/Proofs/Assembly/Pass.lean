import Mathlib.Data.List.Forall2
import ReviewContext.Assembly
import ReviewContext.Proofs.Discovery.Evidence

/-! # The calls of a pass

A pass fetches the bodies of the files that are still there, all of them and in order, and then discovers
related files for one file after the other. `Passing` tells for each strategy which calls this makes and
what comes of them; a pass fails exactly if one of its calls was refused.
-/

namespace ReviewContext

/-- The error that ended a pass. -/
def DegradationReason.cause : DegradationReason → AccessError
  | fetch e => e
  | relationships _ e => e

/-! ## Lists taken pairwise -/

section Pairwise

variable {α β γ : Type} {as : List α} {bs : List β} {cs : List γ} {R : α → β → Prop} {S : β → γ → Prop}
  {T : α → γ → Prop}

theorem forall₂_map_self {S : α → α → Prop} {change : α → α} (each : ∀ a, S a (change a)) (as : List α) :
    List.Forall₂ S as (as.map change) :=
  List.forall₂_map_right_iff.mpr (List.forall₂_same.mpr fun a _ => each a)

theorem forall₂_zipWith {combine : α → β → γ} (pairs : List.Forall₂ R as bs)
    (step : ∀ a b, R a b → T a (combine a b)) : List.Forall₂ T as (List.zipWith combine as bs) := by
  induction pairs with
  | nil => exact .nil
  | cons first tail ih => exact .cons (step _ _ first) ih

theorem forall₂_zipWith_right {combine : α → β → γ} (pairs : List.Forall₂ R as bs)
    (step : ∀ a b, R a b → S b (combine a b)) : List.Forall₂ S bs (List.zipWith combine as bs) := by
  induction pairs with
  | nil => exact .nil
  | cons first tail ih => exact .cons (step _ _ first) ih

theorem zipWith_of_forall₂ {change : α → γ} (pairs : List.Forall₂ R as bs) :
    List.zipWith (fun a _ => change a) as bs = as.map change := by
  induction pairs with
  | nil => rfl
  | cons first tail ih => rw [List.zipWith_cons_cons, List.map_cons, ih]

theorem forall₂_comp (first : List.Forall₂ R as bs) (second : List.Forall₂ S bs cs)
    (step : ∀ a b c, R a b → S b c → T a c) : List.Forall₂ T as cs := by
  induction first generalizing cs with
  | nil => cases second; exact .nil
  | cons head tail ih =>
    cases second with
    | cons next rest => exact .cons (step _ _ _ head next) (ih rest)

theorem forall₂_zip_right (first : List.Forall₂ R as bs) (second : List.Forall₂ T as cs) :
    List.Forall₂ (fun a pair => R a pair.1 ∧ T a pair.2) as (bs.zip cs) := by
  induction first generalizing cs with
  | nil => cases second; exact .nil
  | cons head tail ih =>
    cases second with
    | cons other rest => exact .cons ⟨head, other⟩ (ih rest)

theorem exists_of_forall₂_right (pairs : List.Forall₂ R as bs) {b : β} (member : b ∈ bs) :
    ∃ a ∈ as, R a b := by
  induction pairs with
  | nil => exact absurd member List.not_mem_nil
  | cons first tail ih =>
    rcases List.mem_cons.mp member with rfl | later
    · exact ⟨_, List.mem_cons_self, first⟩
    · obtain ⟨a, known, related⟩ := ih later
      exact ⟨a, List.mem_cons_of_mem _ known, related⟩

end Pairwise

namespace Assembly

/-- A removed file is not fetched, and any other has a reply to a fetch of its own. -/
def Answered (calls : List Call) (file : ChangedFile) : Option (Reply String) → Prop
  | none => file.isRemoved = true
  | some reply => file.isRemoved = false ∧ .fetch file.filename reply.result ∈ calls

private theorem Answered.mono {calls more : List Call} {file : ChangedFile} {reply? : Option (Reply String)}
    (answered : Answered calls file reply?) (kept : calls ⊆ more) : Answered more file reply? := by
  cases reply? with
  | none => exact answered
  | some reply => exact ⟨answered.1, kept answered.2⟩

/-- One fetch for each file that is still there, with its reply, and none for a removed one. -/
inductive Fetches : List ChangedFile → List (Option (Reply String)) → List Call → Prop
  | nil : Fetches [] [] []
  | removed {file : ChangedFile} {files : List ChangedFile} {replies : List (Option (Reply String))}
      {calls : List Call} (gone : file.isRemoved = true) (tail : Fetches files replies calls) :
      Fetches (file :: files) (none :: replies) calls
  | present {file : ChangedFile} {files : List ChangedFile} {replies : List (Option (Reply String))}
      {calls : List Call} {reply : Reply String} (there : file.isRemoved = false)
      (tail : Fetches files replies calls) :
      Fetches (file :: files) (some reply :: replies) (.fetch file.filename reply.result :: calls)

namespace Fetches

variable {files : List ChangedFile} {replies : List (Option (Reply String))} {calls : List Call}

/-- Every present file is fetched once, and in order. -/
theorem paths (fetches : Fetches files replies calls) :
    calls.map Call.path? = (files.filter fun file => !file.isRemoved).map fun file => some file.filename := by
  induction fetches with
  | nil => rfl
  | removed gone tail ih => simpa only [List.filter_cons, gone, Bool.not_true, Bool.false_eq_true, if_false]
  | present there tail ih =>
    simp only [List.filter_cons, there, Bool.not_false, if_true, List.map_cons, ih]
    rfl

/-- Each file has the reply to its own fetch. -/
theorem answered (fetches : Fetches files replies calls) :
    List.Forall₂ (Answered calls) files replies := by
  induction fetches with
  | nil => exact .nil
  | removed gone tail ih => exact .cons gone ih
  | present there tail ih =>
    refine .cons ⟨there, List.mem_cons_self⟩ (ih.imp ?_)
    intro file reply? answered
    exact answered.mono (List.subset_cons_self _ _)

end Fetches

/-- What fetching the bodies leaves: an error if access was refused, and else every file with its reply. -/
structure Bodies (settings : Settings) (files : List ChangedFile) (calls : List Call)
    (result : Except DegradationReason (List ChangedFile)) : Prop where
  heeds : Heeds DegradationReason.cause calls result
  fetched : ∃ replies, Fetches files replies calls ∧
    ∀ enriched, result = .ok enriched → enriched = List.zipWith (withReply settings) files replies

variable {σ : Type} (host : Host σ) (settings : Settings) (ref : RepositoryRef)

private theorem startFetches_recorded (files : List ChangedFile) (state : Recorded σ) :
    ∃ calls, Fetches files (startFetches (host.recorded settings.requestTimeoutSecs) settings ref files state).1 calls ∧
      (startFetches (host.recorded settings.requestTimeoutSecs) settings ref files state).2.tape =
        state.tape ++ calls := by
  induction files generalizing state with
  | nil => exact ⟨[], .nil, (List.append_nil _).symm⟩
  | cons file rest ih =>
    unfold startFetches
    split
    · next gone =>
      obtain ⟨calls, fetches, added⟩ := ih state
      exact ⟨calls, .removed gone fetches, added⟩
    · next there =>
      obtain ⟨calls, fetches, added⟩ :=
        ih ((host.recorded settings.requestTimeoutSecs).fetch ref file.filename state).2
      refine ⟨_, .present (by simpa using there) fetches, added.trans ?_⟩
      simp only [Host.recorded, List.append_assoc, List.singleton_append]

private theorem firstFatal?_eq_none {replies : List (Reply String)} (quiet : firstFatal? replies = none) :
    ∀ reply ∈ replies, ∀ e, reply.result = .error e → e.isFatal = false := by
  induction replies with
  | nil => exact fun _ member => nomatch member
  | cons reply rest ih =>
    unfold firstFatal? at quiet
    split at quiet
    · next e ended =>
      split at quiet
      · split at quiet
        · split at quiet <;> cases quiet
        · cases quiet
      · next mild =>
        intro other member
        rcases List.mem_cons.mp member with rfl | later
        · rintro _ same
          cases ended.symm.trans same
          simpa using mild
        · exact ih quiet other later
    · next content ended =>
      intro other member
      rcases List.mem_cons.mp member with rfl | later
      · rintro _ same
        cases ended.symm.trans same
      · exact ih quiet other later

private theorem firstFatal?_eq_some {replies : List (Reply String)} {delay : Nat} {e : AccessError}
    (first : firstFatal? replies = some (delay, e)) :
    e.isFatal = true ∧ ∃ reply ∈ replies, reply.result = .error e := by
  induction replies generalizing delay e with
  | nil => cases first
  | cons reply rest ih =>
    have later {delay : Nat} {e : AccessError} (known : firstFatal? rest = some (delay, e)) :
        e.isFatal = true ∧ ∃ other ∈ reply :: rest, other.result = .error e := by
      obtain ⟨fatal, other, member, ended⟩ := ih known
      exact ⟨fatal, other, List.mem_cons_of_mem _ member, ended⟩
    unfold firstFatal? at first
    split at first
    · next reason ended =>
      split at first
      · next fatal =>
        split at first
        · next known =>
          split at first
          · cases first; exact later known
          · cases first; exact ⟨fatal, reply, List.mem_cons_self, ended⟩
        · cases first; exact ⟨fatal, reply, List.mem_cons_self, ended⟩
      · exact later first
    · exact later first

theorem firstFatal?_eq_none_iff {replies : List (Reply String)} :
    firstFatal? replies = none ↔ ∀ reply ∈ replies, ∀ e, reply.result = .error e → e.isFatal = false := by
  refine ⟨firstFatal?_eq_none, fun mild => ?_⟩
  cases first : firstFatal? replies with
  | none => rfl
  | some known =>
    obtain ⟨fatal, reply, member, ended⟩ := firstFatal?_eq_some first
    rw [mild reply member known.2 ended] at fatal
    cases fatal

/-- The errors among the calls are those among the replies. -/
theorem Fetches.errors {files : List ChangedFile} {replies : List (Option (Reply String))}
    {calls : List Call} (fetches : Fetches files replies calls) (e : AccessError) :
    (∃ call ∈ calls, call.error? = some e) ↔ ∃ reply ∈ replies.filterMap id, reply.result = .error e := by
  induction fetches with
  | nil => simp
  | removed gone tail ih => simpa using ih
  | @present file files replies calls reply there tail ih =>
    rw [List.exists_mem_cons_iff, ih]
    change _ ↔ ∃ other ∈ reply :: replies.filterMap id, other.result = .error e
    rw [List.exists_mem_cons_iff]
    exact or_congr_left Ending.error?_eq_some_iff

/-- Fetching the bodies leaves one fetch for each file that is still there. -/
theorem fullFiles_leaves (files : List ChangedFile) :
    Leaves (fullFiles (host.recorded settings.requestTimeoutSecs) settings ref files)
      (Bodies settings files) := by
  intro world
  obtain ⟨calls, fetches, added⟩ := startFetches_recorded host settings ref files world.host
  refine ⟨calls, ?_, ?_⟩
  · unfold fullFiles
    dsimp only
    split <;> exact added
  · unfold fullFiles
    dsimp only
    split
    · next delay e first =>
      obtain ⟨fatal, started⟩ := firstFatal?_eq_some first
      exact ⟨⟨fatal, (fetches.errors e).mpr started⟩, _, fetches, nofun⟩
    · next quiet =>
      refine ⟨fun call member denied => ?_, _, fetches, by rintro _ ⟨⟩; rfl⟩
      obtain ⟨e, ended, fatal⟩ := call.denied_iff.mp denied
      obtain ⟨reply, started, same⟩ := (fetches.errors e).mp ⟨call, member, ended⟩
      rw [firstFatal?_eq_none quiet reply started e same] at fatal
      cases fatal

/-- Each file is what the reply to its own fetch makes of it. -/
theorem Bodies.each {settings : Settings} {files enriched : List ChangedFile} {calls : List Call}
    (bodies : Bodies settings files calls (.ok enriched)) :
    List.Forall₂ (fun file out => ∃ reply?, Answered calls file reply? ∧ out = withReply settings file reply?)
      files enriched := by
  obtain ⟨_, replies, fetches, made⟩ := bodies
  obtain rfl := made enriched rfl
  exact forall₂_zipWith fetches.answered fun file reply? answered => ⟨reply?, answered, rfl⟩

/-- The related files that were found for a file rest on its own name and content. -/
def Found (calls : List Call) (file : ChangedFile) (found : List RelatedFile) : Prop :=
  ∀ related ∈ found, ∃ content, file.fullContent = some content ∧
    related.Verified file.filename content calls

/-- What the discovery for each file leaves. -/
structure Discoveries (files : List ChangedFile) (calls : List Call)
    (result : Except DegradationReason (List (List RelatedFile))) : Prop where
  heeds : Heeds DegradationReason.cause calls result
  offered : Discovery.Offered calls
  found : ∀ found, result = .ok found → List.Forall₂ (Found calls) files found

/-- As part of a pass a run leaves the same calls, and its error becomes the reason. -/
theorem ofRun_leaves {α : Type} {run : Run (Recorded σ) α} {fits : List Call → Ending α → Prop}
    (reason : AccessError → DegradationReason) (leaves : Leaves run fits) :
    Leaves (Pass.ofRun reason run) fun calls result =>
      ∃ ending, fits calls ending ∧ result = ending.mapError reason := by
  intro world
  obtain ⟨calls, added, fit⟩ := leaves world
  unfold Pass.ofRun
  generalize run world = out at added fit
  obtain ⟨ending, after⟩ := out
  cases ending with
  | error e => exact ⟨calls, added, _, fit, rfl⟩
  | ok a => exact ⟨calls, added, _, fit, rfl⟩

/-- The discovery for one file, which calls nothing if the file has no content. -/
def discoverFor (file : ChangedFile) : Pass σ (List RelatedFile) :=
  match file.fullContent with
  | some content =>
    Pass.ofRun (.relationships file.filename)
      (Discovery.discover host settings ref file.filename content)
  | none => return []

theorem discoverEach_cons (file : ChangedFile) (rest : List ChangedFile) :
    discoverEach host settings ref (file :: rest) = (do
      let found ← discoverFor host settings ref file
      return found :: (← discoverEach host settings ref rest)) := by
  rw [discoverEach, discoverFor]
  cases file.fullContent with
  | none => rfl
  | some content => rfl

private theorem discoverFor_leaves (file : ChangedFile) :
    Leaves (discoverFor (host.recorded settings.requestTimeoutSecs) settings ref file)
      fun calls result => Heeds DegradationReason.cause calls result ∧ Discovery.Offered calls ∧
        ∀ found, result = .ok found → Found calls file found := by
  unfold discoverFor
  cases body : file.fullContent with
  | none =>
    refine .pure ⟨.nothing, .nothing, ?_⟩
    rintro _ ⟨⟩ related member
    cases member
  | some content =>
    refine (ofRun_leaves _ (Discovery.discover_leaves host settings ref file.filename content)).imp ?_
    rintro calls _ ⟨ending, account, rfl⟩
    cases ending with
    | error e => exact ⟨account.heeds, account.offered, nofun⟩
    | ok found =>
      refine ⟨account.heeds, account.offered, ?_⟩
      rintro _ ⟨⟩ related member
      rcases account.evident found rfl related member with wrong | verified
      · cases wrong
      · exact ⟨content, body, verified⟩

private theorem Found.mono {calls more : List Call} {file : ChangedFile} {found : List RelatedFile}
    (known : Found calls file found) (kept : calls ⊆ more) : Found more file found := by
  intro related member
  obtain ⟨content, body, verified⟩ := known related member
  exact ⟨content, body, verified.mono kept⟩

/-- The discoveries leave searches, fetches of what they gave, and related files that rest on them. -/
theorem discoverEach_leaves (files : List ChangedFile) :
    Leaves (discoverEach (host.recorded settings.requestTimeoutSecs) settings ref files)
      (Discoveries files) := by
  induction files with
  | nil =>
    refine .pure ⟨.nothing, .nothing, ?_⟩
    rintro _ ⟨⟩
    exact .nil
  | cons file rest ih =>
    rw [discoverEach_cons]
    refine .bind (discoverFor_leaves host settings ref file) ?_ ?_
    · exact fun calls reason ⟨heeds, offered, _⟩ => ⟨heeds, offered, nofun⟩
    rintro calls found ⟨heeds, offered, known⟩
    refine .bind ih ?_ ?_
    · exact fun more reason searched => ⟨heeds.append searched.heeds, offered.append searched.offered, nofun⟩
    intro more others searched
    refine .pure ?_
    rw [List.append_nil]
    refine ⟨heeds.append searched.heeds, offered.append searched.offered, ?_⟩
    rintro _ ⟨⟩
    refine .cons ((known found rfl).mono (List.subset_append_left _ _)) ?_
    exact (searched.found others rfl).imp fun _ _ one => one.mono (List.subset_append_right _ _)

theorem withBundle_of_content {settings : Settings} {pool found : List RelatedFile} {file : ChangedFile}
    {content : String} (body : file.fullContent = some content) :
    withBundle settings pool file found = { file with
      strategy := some .dependencyAware
      dependencies := some (bundle settings file.filename found pool) } := by
  rw [withBundle, body]
  rfl

theorem withBundle_of_no_content {settings : Settings} {pool found : List RelatedFile} {file : ChangedFile}
    (absent : file.fullContent = none) : withBundle settings pool file found = file := by
  rw [withBundle, absent]
  rfl

/-- Each file is what its bundle makes of it. -/
theorem Discoveries.each (settings : Settings) {files : List ChangedFile} {calls : List Call}
    {found : List (List RelatedFile)} (searched : Discoveries files calls (.ok found)) :
    List.Forall₂ (fun file out => ∃ one, out = withBundle settings (pool found) file one) files
      (List.zipWith (withBundle settings (pool found)) files found) :=
  forall₂_zipWith (searched.found found rfl) fun _ one _ => ⟨one, rfl⟩

/-- The ways a pass can go, with the calls that it makes and what comes of it. -/
inductive Passing (settings : Settings) (files : List ChangedFile) :
    Strategy → List Call → Except DegradationReason (List ChangedFile) → Prop
  | patches : Passing settings files .diffOnly [] (.ok (diffOnly files))
  | bodies {calls : List Call} {result : Except DegradationReason (List ChangedFile)}
      (fetched : Bodies settings files calls result) : Passing settings files .fullFiles calls result
  | unfetched {calls : List Call} {reason : DegradationReason}
      (fetched : Bodies settings files calls (.error reason)) :
      Passing settings files .dependencyAware calls (.error reason)
  | undiscovered {calls more : List Call} {enriched : List ChangedFile} {reason : DegradationReason}
      (fetched : Bodies settings files calls (.ok enriched))
      (searched : Discoveries enriched more (.error reason)) :
      Passing settings files .dependencyAware (calls ++ more) (.error reason)
  | related {calls more : List Call} {enriched : List ChangedFile} {found : List (List RelatedFile)}
      (fetched : Bodies settings files calls (.ok enriched))
      (searched : Discoveries enriched more (.ok found)) :
      Passing settings files .dependencyAware (calls ++ more)
        (.ok (List.zipWith (withBundle settings (pool found)) enriched found))

/-- A pass goes one of the ways that there are for its strategy. -/
theorem run_leaves (strategy : Strategy) (files : List ChangedFile) :
    Leaves (run (host.recorded settings.requestTimeoutSecs) settings ref strategy files)
      (Passing settings files strategy) := by
  cases strategy with
  | diffOnly => exact .pure .patches
  | fullFiles => exact (fullFiles_leaves host settings ref files).imp fun _ _ => .bodies
  | dependencyAware =>
    refine .bind (fullFiles_leaves host settings ref files) (fun _ _ => .unfetched) ?_
    intro calls enriched fetched
    refine .bind (discoverEach_leaves host settings ref enriched) (fun _ _ => .undiscovered fetched) ?_
    intro more found searched
    refine .pure ?_
    rw [List.append_nil]
    exact .related fetched searched

/-- Whichever way a pass goes, it fails for a refused call and for nothing else. -/
theorem Passing.heeds {settings : Settings} {files : List ChangedFile} {strategy : Strategy}
    {calls : List Call} {result : Except DegradationReason (List ChangedFile)}
    (passing : Passing settings files strategy calls result) :
    Heeds DegradationReason.cause calls result := by
  cases passing with
  | patches => exact .nothing
  | bodies fetched => exact fetched.heeds
  | unfetched fetched => exact fetched.heeds
  | undiscovered fetched searched => exact fetched.heeds.append searched.heeds
  | related fetched searched => exact fetched.heeds.append searched.heeds

end Assembly

end ReviewContext
