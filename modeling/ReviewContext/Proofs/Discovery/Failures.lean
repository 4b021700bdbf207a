import ReviewContext.Proofs.Assembly.Vendored
import ReviewContext.Proofs.Host.Pace

/-! # Failures as missing evidence

A call that fails for no reason that would fail all others counts as one that brought nothing: a search without
hits, a candidate without text. A host on which such failures are mended in this way therefore gives a discovery
the same, call by call. The only errors left are refusals, and a discovery stops at the first.
-/

namespace ReviewContext

variable {σ α : Type}

/-! ## Mended hosts -/

/-- An ending with an answer in the place of an error that is not fatal. -/
def Ending.mended (instead : α) : Ending α → Ending α
  | .ok a => .ok a
  | .error e => if e.isFatal then .error e else .ok instead

/-- A reply as it comes to a run that waits so many seconds, mended. -/
def Reply.mended (seconds : Nat) (instead : α) (reply : Reply α) : Reply α :=
  ⟨(reply.within seconds).delay, Ending.mended instead (reply.within seconds).result⟩

/-- The host on which a search that fails has no hits and a file that cannot be fetched has no text, unless the
call is refused. -/
def Host.mended (seconds : Nat) (host : Host σ) : Host σ where
  fetch ref path state :=
    let (reply, state) := host.fetch ref path state
    (reply.mended seconds "", state)
  search ref query limit state :=
    let (reply, state) := host.search ref query limit state
    (reply.mended seconds [], state)

private theorem Ending.mended_of_mild {instead : α} {e : AccessError} (mild : e.isFatal = false) :
    Ending.mended instead (.error e) = .ok instead := if_neg (Bool.eq_false_iff.mp mild)

private theorem Ending.mended_of_fatal {instead : α} {e : AccessError} (fatal : e.isFatal = true) :
    Ending.mended instead (.error e) = .error e := if_pos fatal

private theorem Ending.isFatal_of_mended {instead : α} {ending : Ending α} {e : AccessError}
    (ended : (ending.mended instead).error? = some e) : e.isFatal = true := by
  cases ending with
  | ok a => cases ended
  | error reason =>
    cases nature : reason.isFatal with
    | true =>
      rw [mended_of_fatal nature] at ended
      cases ended
      exact nature
    | false =>
      rw [mended_of_mild nature] at ended
      cases ended

private theorem Reply.within_delay_le (seconds : Nat) (reply : Reply α) :
    (reply.within seconds).delay ≤ 1000 * seconds := by
  unfold Reply.within
  split
  · exact Nat.le_refl _
  · next inTime => exact Nat.le_of_not_lt inTime

/-- A mended reply is in time. -/
theorem Reply.within_mended (seconds : Nat) (instead : α) (reply : Reply α) :
    (reply.mended seconds instead).within seconds = reply.mended seconds instead :=
  Reply.within_of_le (reply.within_delay_le seconds)

/-- A run that can do without an answer gets the other one in the place of none, at the same time. -/
theorem Run.attempt_mended (seconds : Nat) (instead : α) (call : σ → Reply α × σ) :
    (Run.await seconds fun state => ((call state).1.mended seconds instead, (call state).2)).attempt =
      (do return some ((← (Run.await seconds call).attempt).getD instead) : Run σ (Option α)) := by
  funext world
  rw [bind_apply]
  simp only [Run.attempt, Run.await, Reply.within_mended]
  simp only [Reply.mended]
  cases ((call world.host).1.within seconds).result with
  | ok a => rfl
  | error e =>
    cases nature : e.isFatal with
    | true => simp only [Ending.mended_of_fatal nature, nature, if_true]
    | false =>
      simp only [Ending.mended_of_mild nature, nature, Bool.false_eq_true, if_false]
      rfl

/-! ## Discovery on a mended host -/

private theorem Path.baseName_ne_empty {path : String} (named : path ≠ "") : baseName path ≠ "" := by
  have cut {name : List Char} (some : name ≠ []) : (splitExtension name).1 ≠ [] := by
    unfold splitExtension
    dsimp only
    split
    · simp
    · exact some
  unfold baseName
  split
  · next name last =>
    obtain ⟨known, -⟩ := Option.filter_eq_some_iff.mp last
    have component := (List.mem_filter.mp (List.mem_of_getLast? known)).2
    simp only [Bool.and_eq_true, Bool.not_eq_true', List.isEmpty_eq_false_iff] at component
    exact fun empty => cut component.1 (String.ofList_eq_empty_iff.mp empty)
  · exact named

private theorem SourceRecord.imports_of_empty (path : String) : (parse path "").imports = [] := by
  have untold (style : CommentStyle) : Source.tokens style "".toList = [] := by
    rw [String.toList_empty, Source.tokens, Source.Token.collect, List.reverse_nil]
  unfold parse
  dsimp only
  split
  · rfl
  · rw [untold]
    cases Language.ofPath path <;> rfl

namespace Discovery

variable (host : Host σ) (settings : Settings) (ref : RepositoryRef)

private theorem candidates_mended (query : Query) (limit : Nat) :
    candidates (host.mended settings.requestTimeoutSecs) settings ref query limit =
      candidates host settings ref query limit := by
  unfold candidates
  rw [show (host.mended settings.requestTimeoutSecs).search ref query limit = fun state =>
    ((host.search ref query limit state).1.mended settings.requestTimeoutSecs [],
      (host.search ref query limit state).2) from rfl, Run.attempt_mended]
  simp only [bind_assoc, pure_bind, Option.getD_some]

/-- A candidate that cannot be fetched has no text. -/
theorem candidateContent_mended (path : String) :
    candidateContent (host.mended settings.requestTimeoutSecs) settings ref path =
      (do return some ((← candidateContent host settings ref path).getD "") : Run σ (Option String)) :=
  Run.attempt_mended settings.requestTimeoutSecs "" (host.fetch ref path)

/-- An empty text shows no relationship. -/
def Screen.Blank (screen : Screen) : Prop :=
  ∀ path, screen.confirms path "" = false

private theorem Screen.Blank.judge {screen : Screen} (blank : screen.Blank) (accepted : List RelatedFile)
    (path : String)
    (content? : Option String) :
    screen.judge accepted path (some (content?.getD "")) = screen.judge accepted path content? := by
  cases content? with
  | none => exact if_neg (Bool.eq_false_iff.mp (blank path))
  | some content => rfl

private theorem dependents_blank (target : String) : (Screen.dependents settings target).Blank := by
  intro path
  simp only [Screen.dependents, SourceRecord.importsBaseName, SourceRecord.imports_of_empty, List.any_nil,
    Bool.and_false]

private theorem tests_blank {target : String} (named : target ≠ "") (name : String) :
    (Screen.tests settings target name).Blank := by
  intro path
  have base : (Path.baseName target).toList ≠ [] :=
    fun empty => Path.baseName_ne_empty named (String.toList_eq_nil_iff.mp empty)
  simpa only [Screen.tests, String.toList_empty, Text.occursIn, List.isEmpty_eq_false_iff] using base

private theorem screened_mended {screen : Screen} (blank : screen.Blank) (hits : List String)
    (accepted : List RelatedFile) :
    screened (host.mended settings.requestTimeoutSecs) settings ref screen hits accepted =
      screened host settings ref screen hits accepted := by
  induction hits generalizing accepted with
  | nil => rfl
  | cons path rest ih =>
    simp only [screened, ih, candidateContent_mended, bind_assoc, pure_bind, blank.judge]

private theorem acceptNames_mended {target : String} (named : target ≠ "") (names : List String)
    (accepted : List RelatedFile) :
    acceptNames (host.mended settings.requestTimeoutSecs) settings ref target names accepted =
      acceptNames host settings ref target names accepted := by
  induction names generalizing accepted with
  | nil => rfl
  | cons name rest ih =>
    simp only [acceptNames, ih, candidates_mended, acceptTests_eq_screened,
      screened_mended host settings ref (tests_blank settings named name)]

private theorem findTests_mended {target : String} (named : target ≠ "") :
    findTests (host.mended settings.requestTimeoutSecs) settings ref target = findTests host settings ref target := by
  simp only [findTests, acceptNames_mended host settings ref named]

private theorem findDependents_mended (target : String) (exports : List String) :
    findDependents (host.mended settings.requestTimeoutSecs) settings ref target exports =
      findDependents host settings ref target exports := by
  have accepted (hits : List String) :
      acceptDependents (host.mended settings.requestTimeoutSecs) settings ref target hits [] =
        acceptDependents host settings ref target hits [] := by
    rw [acceptDependents_eq_screened, acceptDependents_eq_screened,
      screened_mended host settings ref (dependents_blank settings target)]
  unfold findDependents
  dsimp only
  simp only [candidates_mended, accepted]

private theorem discover_mended {path : String} (named : path ≠ "") (content : String) :
    discover (host.mended settings.requestTimeoutSecs) settings ref path content =
      discover host settings ref path content := by
  simp only [discover, findDependents_mended, findTests_mended host settings ref named]

/-! ## Refusals -/

/-- The error of a call that was refused. -/
def refusal? (call : Call) : Option AccessError :=
  call.error?.filter AccessError.isFatal

/-- The refusals among the calls are the error that ended the run, if it ended in one. -/
def Stopped (calls : List Call) (result : Ending α) : Prop :=
  calls.filterMap refusal? = result.error?.toList

namespace Stopped

variable {calls more : List Call} {β : Type} {a : α} {result : Ending β}

private theorem nothing : Stopped [] (.ok a) := rfl

private theorem append (first : Stopped calls (.ok a)) (next : Stopped more result) :
    Stopped (calls ++ more) result := by
  unfold Stopped at *
  rw [List.filterMap_append, first, next]
  rfl

/-- An error is that of any run it ends. -/
theorem error {e : AccessError} (stopped : Stopped calls (.error e : Ending α)) :
    Stopped calls (.error e : Ending β) :=
  stopped

private theorem attempt {ending : Ending α} {call : Call} (same : call.error? = ending.error?) :
    Stopped [call] ending.attempted := by
  have refused : refusal? call = ending.attempted.error? := by
    unfold refusal?
    rw [same]
    cases ending with
    | ok a => rfl
    | error e =>
      cases nature : e.isFatal with
      | true => rw [Ending.attempted_of_fatal nature]; exact Option.filter_some_pos nature
      | false => rw [Ending.attempted_of_mild nature]; exact Option.filter_some_neg (by simp [nature])
  unfold Stopped
  rw [← refused, List.filterMap_cons]
  cases refusal? call <;> rfl

private theorem fetch (path : String) (ending : Ending String) : Stopped [.fetch path ending] ending.attempted :=
  attempt rfl

private theorem search (query : Query) (limit : Nat) (ending : Ending (List String)) :
    Stopped [.search query limit ending] ending.attempted :=
  attempt rfl

private theorem error_iff (stopped : Stopped calls result) (e : AccessError) :
    result = .error e ↔ ∃ message, e = .unauthorized message ∧ ∃ call ∈ calls, call.error? = some e := by
  have ended : result = .error e ↔ e ∈ result.error?.toList := by
    rw [Option.mem_toList, Ending.error?_eq_some_iff]
  rw [ended, ← stopped, List.mem_filterMap]
  simp only [refusal?, Option.filter_eq_some_iff, e.isFatal_iff]
  constructor
  · rintro ⟨call, made, failed, message, fatal⟩
    exact ⟨message, fatal, call, made, failed⟩
  · rintro ⟨message, fatal, call, made, failed⟩
    exact ⟨call, made, failed, message, fatal⟩

end Stopped

private theorem Screening.stopped {screen : Screen} {hits : List String} {accepted : List RelatedFile}
    {calls : List Call}
    {result : Ending (List RelatedFile)} (screening : Screening screen hits accepted calls result) :
    Stopped calls result := by
  induction screening with
  | exhausted => exact .nothing
  | enough full => exact .nothing
  | passed room skipped tail ih => exact ih
  | @refused path _ _ e room admitted fatal =>
    have attempted := Stopped.fetch path (.error e)
    rw [Ending.attempted_of_fatal fatal] at attempted
    exact attempted.error
  | @unread path _ _ e _ _ room admitted mild tail ih =>
    have attempted := Stopped.fetch path (.error e)
    rw [Ending.attempted_of_mild mild] at attempted
    exact attempted.append ih
  | @read path _ _ content _ _ room admitted tail ih =>
    exact Stopped.append (Stopped.fetch path (.ok content)) ih

private theorem candidates_stopped (query : Query) (limit : Nat) :
    Leaves (candidates (host.recorded settings.requestTimeoutSecs) settings ref query limit) Stopped := by
  refine (candidates_searches host settings ref query limit).imp ?_
  rintro _ _ ⟨ending, rfl, rfl⟩
  have attempted := Stopped.search query limit ending
  cases went : Ending.attempted ending with
  | error e => rw [went] at attempted; exact attempted.error
  | ok hits? => rw [went] at attempted; exact attempted

/-- A run of steps that each stop at a refusal stops at the first. -/
theorem stopped_bind {α β : Type} {step : Run (Recorded σ) α} {rest : α → Run (Recorded σ) β}
    (first : Leaves step Stopped) (next : ∀ a, Leaves (rest a) Stopped) : Leaves (step >>= rest) Stopped :=
  .bind first (fun _ _ stopped => stopped.error) fun _ a stopped => (next a).imp fun _ _ more => stopped.append more

private theorem stopped_pure {α : Type} (a : α) : Leaves (pure a : Run (Recorded σ) α) Stopped :=
  .pure .nothing

private theorem acceptNames_stopped (target : String) (names : List String) (accepted : List RelatedFile) :
    Leaves (acceptNames (host.recorded settings.requestTimeoutSecs) settings ref target names accepted) Stopped := by
  induction names generalizing accepted with
  | nil => exact stopped_pure accepted
  | cons name rest ih =>
    unfold acceptNames
    split
    · exact stopped_pure accepted
    · refine stopped_bind (candidates_stopped host settings ref _ _) fun hits => ?_
      rw [acceptTests_eq_screened]
      exact stopped_bind ((screened_leaves host settings ref _ hits accepted).imp fun _ _ => Screening.stopped) ih

private theorem findTests_stopped (target : String) :
    Leaves (findTests (host.recorded settings.requestTimeoutSecs) settings ref target) Stopped := by
  unfold findTests
  split
  · exact stopped_pure []
  · exact acceptNames_stopped host settings ref target _ []

private theorem findDependents_stopped (target : String) (exports : List String) :
    Leaves (findDependents (host.recorded settings.requestTimeoutSecs) settings ref target exports) Stopped := by
  unfold findDependents
  dsimp only
  split
  · split
    · exact stopped_pure []
    · refine stopped_bind (candidates_stopped host settings ref _ _) fun hits => ?_
      rw [acceptDependents_eq_screened]
      exact (screened_leaves host settings ref _ _ []).imp fun _ _ => Screening.stopped
  · exact stopped_pure []

private theorem discover_stopped (path content : String) :
    Leaves (discover (host.recorded settings.requestTimeoutSecs) settings ref path content) Stopped :=
  stopped_bind (findDependents_stopped host settings ref path _) fun _ =>
    stopped_bind (findTests_stopped host settings ref path) fun _ => stopped_pure _

/-! ## Calls on a mended host -/

/-- The worlds are one, and no call on the tape failed for another reason than a refusal. -/
def OnlyRefused (left right : World (Recorded σ)) : Prop :=
  left = right ∧ ∀ call ∈ left.host.tape, ∀ e, call.error? = some e → e.isFatal = true

private theorem tied_onlyRefused (seconds : Nat) :
    ((host.mended seconds).recorded seconds).Tied ref ((host.mended seconds).recorded seconds) OnlyRefused where
  fetch := by
    rintro path left _ ⟨rfl, refused⟩
    refine ⟨rfl, rfl, List.forall_mem_append.mpr ⟨refused, List.forall_mem_singleton.mpr fun e failed => ?_⟩⟩
    rw [Reply.within_mended] at failed
    exact Ending.isFatal_of_mended failed
  search := by
    rintro query limit left _ ⟨rfl, refused⟩
    refine ⟨rfl, rfl, List.forall_mem_append.mpr ⟨refused, List.forall_mem_singleton.mpr fun e failed => ?_⟩⟩
    rw [Reply.within_mended] at failed
    exact Ending.isFatal_of_mended failed
  wait := by
    rintro delay left _ ⟨rfl, refused⟩
    exact ⟨rfl, refused⟩

private theorem mended_calls (path content : String) (world : World σ) :
    ∀ call ∈ discoverTape (host.mended settings.requestTimeoutSecs) settings ref path content world,
      ∀ e, call.error? = some e → e.isFatal = true := by
  have alike := discover_alike (⟨rfl, rfl, rfl⟩ : settings.SameSearch settings)
    ((tied_onlyRefused host ref settings.requestTimeoutSecs).agreesWithin _) path content
  have fresh : OnlyRefused world.recorded world.recorded := ⟨rfl, fun _ member => absurd member List.not_mem_nil⟩
  exact (alike fresh).2.2

/-- A discovery fails if a call is refused, and with the error of that call, and else for no failure at all: it goes
as it does on the host where every search that fails has no hits and every file that cannot be fetched has no
text. -/
theorem failures_are_missing_evidence {path : String} (named : path ≠ "") (content : String) (world : World σ) :
    let mended := host.mended settings.requestTimeoutSecs
    (∀ e, (discover host settings ref path content world).1 = .error e ↔
      ∃ message, e = .unauthorized message ∧
        ∃ call ∈ discoverTape host settings ref path content world, call.error? = some e) ∧
    (∀ call ∈ discoverTape mended settings ref path content world, ∀ e, call.error? = some e → e.isFatal = true) ∧
    discover mended settings ref path content world = discover host settings ref path content world := by
  intro mended
  refine ⟨fun e => ?_, mended_calls host settings ref path content world, ?_⟩
  · rw [← discover_fst_recorded]
    exact ((discover_stopped host settings ref path content).fresh world).error_iff e
  · exact congrFun (discover_mended host settings ref named content) world

/-- Of four candidates one is missing, one cannot be read and one takes too long, and the search for one of the
names fails; in the other world that search is refused. -/
theorem failures_are_missing_evidence_of_mixed_failures :
    let importer := "import './bill'"
    let text := "export class Bill \x7b\x7d"
    let stored := [("bill.spec.ts", "bill"), ("slow.ts", importer), ("till.ts", importer)]
    let broken : MemoryRule := ⟨some (.git "broken pipe"), 0, none, none⟩
    let slow : MemoryRule := ⟨none, 60000, none, none⟩
    let suggested : MemoryRule := ⟨none, 0, some ["lost.ts", "desk.ts", "slow.ts", "till.ts"], none⟩
    let failing (e : AccessError) : World MemoryRepository :=
      ⟨⟨stored, [("desk.ts", broken), ("slow.ts", slow)],
        [("text:import bill", suggested), ("filename:bill.test.ts", ⟨some e, 0, none, none⟩)], []⟩, 0⟩
    let limited := failing (.rateLimited "later")
    let refused := failing (.unauthorized "no access")
    let ref : RepositoryRef := ⟨"shop", "till", "main"⟩
    let host := MemoryRepository.host
    "bill.ts" ≠ "" ∧
      (discover (host.mended 10) {} ref "bill.ts" text limited).1 =
        .ok [⟨"till.ts", .dependent, importer, "bill.ts"⟩, ⟨"bill.spec.ts", .test, "bill", "bill.ts"⟩] ∧
      discover (host.mended 10) {} ref "bill.ts" text limited = discover host {} ref "bill.ts" text limited ∧
      (discover host {} ref "bill.ts" text refused).1 = .error (.unauthorized "no access") ∧
      ∃ call ∈ discoverTape host {} ref "bill.ts" text refused, call.error? = some (.unauthorized "no access") := by
  intro importer text stored broken slow suggested failing limited refused ref host
  have named : "bill.ts" ≠ "" := by decide
  have failed : (discover host {} ref "bill.ts" text refused).1 = .error (.unauthorized "no access") := by
    decide +kernel
  obtain ⟨errors, -, -⟩ := failures_are_missing_evidence host {} ref named text refused
  obtain ⟨-, -, same⟩ := failures_are_missing_evidence host {} ref named text limited
  obtain ⟨-, -, made⟩ := (errors _).mp failed
  exact ⟨named, by decide +kernel, same, failed, made⟩

end Discovery

end ReviewContext
