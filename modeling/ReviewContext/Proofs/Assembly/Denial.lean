import ReviewContext.Host.Memory
import ReviewContext.Proofs.Assembly.Tape

/-! # Refused access

A refusal is the one error that ends a pass, wherever it comes, and a pass that no call is refused to is
completed whatever else fails. Other errors cost one body or one candidate, and only a body that could not
be fetched leaves a reason on its file.
-/

namespace ReviewContext.Assembly

/-- The reason that a file carries after the reply to the fetch of it. -/
def reasonAfter (file : ChangedFile) : Option (Reply String) → Option String
  | some ⟨_, .error e⟩ => some (DegradationReason.fetch e).message
  | _ => file.degradation

/-- What a pass that is completed has done. -/
structure Completed (files : List ChangedFile) (strategy : Strategy) (calls : List Call)
    (out : List ChangedFile) : Prop where
  tagged : ∀ file ∈ out, file.strategy.isSome = true
  quiet : strategy = .diffOnly → calls = [] ∧ out.map (·.degradation) = files.map (·.degradation)
  fetching : strategy ≠ .diffOnly → ∃ replies bodies more, Fetches files replies bodies ∧
    calls = bodies ++ more ∧
    bodies.map Call.path? = (files.filter fun file => !file.isRemoved).map (fun file => some file.filename) ∧
    Discovery.Offered more ∧ (strategy = .fullFiles → more = []) ∧
    out.map (·.degradation) = List.zipWith reasonAfter files replies

variable {settings : Settings} {files out enriched : List ChangedFile} {calls more : List Call}

private theorem withReply_reason (file : ChangedFile) (reply? : Option (Reply String)) :
    (withReply settings file reply?).degradation = reasonAfter file reply? := by
  rcases reply? with _ | ⟨delay, e | body⟩ <;> rfl

private theorem withReply_tagged (file : ChangedFile) (reply? : Option (Reply String)) :
    (withReply settings file reply?).strategy.isSome = true := by
  rcases reply? with _ | ⟨delay, e | body⟩ <;> rfl

private theorem Bodies.tagged (bodies : Bodies settings files calls (.ok enriched)) :
    ∀ file ∈ enriched, file.strategy.isSome = true := by
  intro out member
  obtain ⟨file, _, reply?, _, rfl⟩ := exists_of_forall₂_right bodies.each member
  exact withReply_tagged file reply?

private theorem Bodies.reasons (bodies : Bodies settings files calls (.ok enriched)) :
    ∃ replies, Fetches files replies calls ∧
      enriched.map (·.degradation) = List.zipWith reasonAfter files replies := by
  obtain ⟨_, replies, fetches, made⟩ := bodies
  obtain rfl := made enriched rfl
  refine ⟨replies, fetches, ?_⟩
  rw [List.map_zipWith]
  simp only [withReply_reason]

/-- Getting a bundle changes no reason, and leaves no file without a strategy. -/
theorem Discoveries.bundled (settings : Settings) {found : List (List RelatedFile)}
    (searched : Discoveries enriched more (.ok found)) (tagged : ∀ file ∈ enriched, file.strategy.isSome = true) :
    (∀ file ∈ List.zipWith (withBundle settings (pool found)) enriched found, file.strategy.isSome = true) ∧
      (List.zipWith (withBundle settings (pool found)) enriched found).map (·.degradation) =
        enriched.map (·.degradation) := by
  have pairs : List.Forall₂ (fun file out : ChangedFile => (file.strategy.isSome = true →
      out.strategy.isSome = true) ∧ out.degradation = file.degradation) enriched
      (List.zipWith (withBundle settings (pool found)) enriched found) :=
    forall₂_zipWith (searched.found found rfl) fun file one _ => by
      unfold withBundle
      split
      · exact ⟨fun _ => rfl, rfl⟩
      · exact ⟨id, rfl⟩
  constructor
  · intro out member
    obtain ⟨file, known, kept, _⟩ := exists_of_forall₂_right pairs member
    exact kept (tagged file known)
  · have reasons : List.Forall₂ (· = ·)
        ((List.zipWith (withBundle settings (pool found)) enriched found).map (·.degradation))
        (enriched.map (·.degradation)) := by
      rw [List.forall₂_map_left_iff, List.forall₂_map_right_iff]
      exact (pairs.imp fun _ _ same => same.2).flip
    rwa [List.forall₂_eq_eq_eq] at reasons

private theorem Passing.completed {strategy : Strategy} (passing : Passing settings files strategy calls (.ok out)) :
    Completed files strategy calls out := by
  cases passing with
  | patches =>
    refine ⟨fun file member => ?_, fun _ => ⟨rfl, List.map_map⟩, fun fetching => (fetching rfl).elim⟩
    obtain ⟨before, known, rfl⟩ := List.mem_map.mp member
    rfl
  | bodies fetched =>
    obtain ⟨replies, fetches, reasons⟩ := fetched.reasons
    exact ⟨fetched.tagged, nofun, fun _ => ⟨replies, calls, [], fetches, (List.append_nil _).symm,
      fetches.paths, .nothing, fun _ => rfl, reasons⟩⟩
  | @related calls more enriched found fetched searched =>
    obtain ⟨replies, fetches, reasons⟩ := fetched.reasons
    obtain ⟨tagged, kept⟩ := searched.bundled settings fetched.tagged
    exact ⟨tagged, nofun, fun _ => ⟨replies, calls, more, fetches, rfl, fetches.paths,
      searched.offered, nofun, kept.trans reasons⟩⟩

/-- A pass fails exactly if one of its calls is refused. -/
theorem run_fails_iff {σ : Type} (host : Host σ) (settings : Settings) (ref : RepositoryRef)
    (strategy : Strategy) (files : List ChangedFile) (world : World σ) :
    (∃ reason, (run host settings ref strategy files world).1 = .error reason) ↔
      ∃ call ∈ passTape host settings ref files world strategy, call.Denied :=
  (passing host settings ref files world strategy).heeds.error_iff

/-- An assembly in which no call is refused has its first pass completed. -/
theorem run_completes {σ : Type} {host : Host σ} {settings : Settings} {ref : RepositoryRef}
    {files : List ChangedFile} {world : World σ}
    (granted : ∀ call ∈ tape host settings ref files world, ¬ call.Denied) :
    ∃ out, (run host settings ref (settings.effective settings.strategy) files world).1 = .ok out := by
  cases completed : (run host settings ref (settings.effective settings.strategy) files world).1 with
  | ok out => exact ⟨out, rfl⟩
  | error reason =>
    obtain ⟨call, made, denied⟩ := (run_fails_iff host settings ref _ files world).mp ⟨reason, completed⟩
    exact (granted call ((passTape_comes_first host settings ref files world).subset made) denied).elim

/-- Without a refusal the first pass is completed and is all there is; a refusal fails any pass. -/
theorem only_refusals_fail_a_pass {σ : Type} (host : Host σ) (settings : Settings) (ref : RepositoryRef)
    (files : List ChangedFile) (world : World σ) :
    ((∀ call ∈ tape host settings ref files world, ¬ call.Denied) →
      ∃ out after,
        run host settings ref (settings.effective settings.strategy) files world = (.ok out, after) ∧
        assemble host settings ref files world = (out, after) ∧
        Completed files (settings.effective settings.strategy) (tape host settings ref files world) out) ∧
    ∀ strategy, (∃ call ∈ passTape host settings ref files world strategy, call.Denied) →
      ∃ reason, (run host settings ref strategy files world).1 = .error reason := by
  refine ⟨fun granted => ?_, fun strategy => (run_fails_iff host settings ref strategy files world).mpr⟩
  have first := passing host settings ref files world (settings.effective settings.strategy)
  cases completed : (run host settings ref (settings.effective settings.strategy) files world).1 with
  | error reason =>
    obtain ⟨call, made, denied⟩ := (run_fails_iff host settings ref _ files world).mp ⟨reason, completed⟩
    exact (granted call ((passTape_comes_first host settings ref files world).subset made) denied).elim
  | ok out =>
    rw [completed] at first
    refine ⟨out, _, Prod.ext completed rfl, assemble_of_completed completed, ?_⟩
    rw [tape_of_completed host settings ref files world completed]
    exact first.completed

/-- A missing file, one that takes too long and a search over the limit of requests fail nothing; one fetch without
access fails the pass. -/
theorem only_refusals_fail_a_pass_of_mixed_errors :
    let files : List ChangedFile := [{ filename := "bill.lua", status := .modified },
      { filename := "lost.lua", status := .added }, { filename := "slow.lua", status := .modified }]
    let limited : MemoryRule := ⟨some (.rateLimited "later"), 0, none, none⟩
    let slow : MemoryRule := ⟨none, 60000, none, none⟩
    let refused : MemoryRule := ⟨some (.unauthorized "no access"), 0, none, none⟩
    let stored := [("bill.lua", "return 1"), ("slow.lua", "return 2")]
    let free : World MemoryRepository := ⟨⟨stored, [("slow.lua", slow)], [("*", limited)], []⟩, 0⟩
    let closed : World MemoryRepository := ⟨⟨stored, [("lost.lua", refused)], [], []⟩, 0⟩
    let ref : RepositoryRef := ⟨"shop", "till", "main"⟩
    (∀ call ∈ tape MemoryRepository.host {} ref files free, ¬ call.Denied) ∧
      (∃ out after,
        run MemoryRepository.host {} ref .dependencyAware files free = (.ok out, after) ∧
        assemble MemoryRepository.host {} ref files free = (out, after) ∧
        Completed files .dependencyAware (tape MemoryRepository.host {} ref files free) out) ∧
      (∃ call ∈ passTape MemoryRepository.host {} ref files closed .fullFiles, call.Denied) ∧
      ∃ reason, (run MemoryRepository.host {} ref .fullFiles files closed).1 = .error reason := by
  intro files limited slow refused stored free closed ref
  have granted : ∀ call ∈ tape MemoryRepository.host {} ref files free, ¬ call.Denied := by decide +kernel
  have denied : ∃ call ∈ passTape MemoryRepository.host {} ref files closed .fullFiles, call.Denied := by
    decide +kernel
  exact ⟨granted, (only_refusals_fail_a_pass MemoryRepository.host {} ref files free).1 granted, denied,
    (only_refusals_fail_a_pass MemoryRepository.host {} ref files closed).2 .fullFiles denied⟩

end ReviewContext.Assembly
