import Mathlib.Data.List.Basic
import ReviewContext.Host.Memory
import ReviewContext.Proofs.Discovery.Alike

/-! # The dependents that are found

A discovery of dependents makes one search and then fetches the hits that may be dependents, one after the other,
until enough of them have turned out to be. What it returns is told from the fetches it would make if it never
stopped: the first of them that show a dependent. And it stops with the last of these, or when there is no hit left.
-/

namespace ReviewContext

variable {σ α β : Type}

/-! ## Elements up to the n-th that counts -/

section UpTo

variable (pick : α → Option β)

/-- The elements up to the `n`-th that gives something. -/
def upTo : Nat → List α → List α
  | 0, _ => []
  | _ + 1, [] => []
  | n + 1, x :: xs =>
    match pick x with
    | some _ => x :: upTo n xs
    | none => x :: upTo (n + 1) xs

private theorem upTo_zero (xs : List α) : upTo pick 0 xs = [] := by
  cases xs <;> rfl

private theorem upTo_nil (n : Nat) : upTo pick n [] = [] := by
  cases n <;> rfl

/-- An element that is not left out counts if it gives something. -/
theorem upTo_cons (n : Nat) (x : α) (xs : List α) :
    upTo pick (n + 1) (x :: xs) = x :: upTo pick (n + 1 - (pick x).toList.length) xs := by
  rw [upTo]
  cases pick x <;> rfl

private theorem upTo_prefix (n : Nat) (xs : List α) : upTo pick n xs <+: xs := by
  fun_induction upTo pick n xs with
  | case1 xs => exact List.nil_prefix
  | case2 n => exact List.nil_prefix
  | case3 n x xs b picked ih => exact List.cons_prefix_cons.mpr ⟨rfl, ih⟩
  | case4 n x xs picked ih => exact List.cons_prefix_cons.mpr ⟨rfl, ih⟩

private theorem filterMap_cons_toList (x : α) (xs : List α) :
    (x :: xs).filterMap pick = (pick x).toList ++ xs.filterMap pick := by
  rw [List.filterMap_cons]
  cases pick x <;> rfl

private theorem filterMap_upTo (n : Nat) (xs : List α) :
    (upTo pick n xs).filterMap pick = (xs.filterMap pick).take n := by
  fun_induction upTo pick n xs with
  | case1 xs => rfl
  | case2 n => rfl
  | case3 n x xs b picked ih =>
    rw [List.filterMap_cons_some picked, List.filterMap_cons_some picked, ih, List.take_succ_cons]
  | case4 n x xs picked ih => rw [List.filterMap_cons_none picked, List.filterMap_cons_none picked, ih]

/-- It stops where `n` are picked, and else with the last element. -/
theorem upTo_stops (n : Nat) (xs : List α) : upTo pick n xs = xs ∨ ((upTo pick n xs).filterMap pick).length = n := by
  fun_induction upTo pick n xs with
  | case1 xs => exact .inr rfl
  | case2 n => exact .inl rfl
  | case3 n x xs b picked ih =>
    rw [List.filterMap_cons_some picked, List.length_cons]
    exact ih.imp (congrArg (x :: ·)) (congrArg Nat.succ)
  | case4 n x xs picked ih =>
    rw [List.filterMap_cons_none picked]
    exact ih.imp_left (congrArg (x :: ·))

/-- It goes on as long as fewer are picked. -/
theorem upTo_goesOn {n : Nat} {xs early : List α} (starts : early <+: upTo pick n xs)
    (shorter : early ≠ upTo pick n xs) : (early.filterMap pick).length < n := by
  fun_induction upTo pick n xs generalizing early with
  | case1 xs => exact absurd (List.prefix_nil.mp starts) shorter
  | case2 n => exact absurd (List.prefix_nil.mp starts) shorter
  | case3 n x xs b picked ih =>
    cases early with
    | nil => exact Nat.succ_pos n
    | cons y early =>
      obtain ⟨rfl, later⟩ := List.cons_prefix_cons.mp starts
      rw [List.filterMap_cons_some picked, List.length_cons]
      exact Nat.succ_lt_succ (ih later fun same => shorter (congrArg (y :: ·) same))
  | case4 n x xs picked ih =>
    cases early with
    | nil => exact Nat.succ_pos n
    | cons y early =>
      obtain ⟨rfl, later⟩ := List.cons_prefix_cons.mp starts
      rw [List.filterMap_cons_none picked]
      exact ih later fun same => shorter (congrArg (y :: ·) same)

end UpTo

/-! ## Fetches that nothing stops -/

/-- The fetches of some paths one after the other, with how they end. -/
def Host.fetchEach (host : Host σ) (ref : RepositoryRef) (seconds : Nat) : List String → σ → List Call
  | [], _ => []
  | path :: rest, state =>
    let (reply, after) := host.fetch ref path state
    .fetch path (reply.within seconds).result :: host.fetchEach ref seconds rest after

namespace Discovery

/-- The dependent that a call shows. -/
def dependent? (target : String) : Call → Option RelatedFile
  | .fetch path (.ok content) =>
    if (SourceRecord.parse path content).importsBaseName (Path.baseName target) then
      some ⟨path, .dependent, content, target⟩
    else none
  | _ => none

variable (host : Host σ) (settings : Settings) (ref : RepositoryRef) (target : String)

/-- The calls of a discovery of dependents, with how they ended. -/
def dependentsTape (exports : List String) (world : World σ) : List Call :=
  (findDependents (host.recorded settings.requestTimeoutSecs) settings ref target exports world.recorded).2.host.tape

/-! ## Steps of a discovery on a tape -/

private theorem attempt_await (seconds : Nat) (call : σ → Reply α × σ) (world : World σ) :
    let reply := (call world.host).1.within seconds
    (Run.await seconds call).attempt world =
      (Ending.attempted reply.result, ⟨(call world.host).2, world.elapsed + reply.delay⟩) := by
  unfold Run.attempt Run.await
  dsimp only
  cases ((call world.host).1.within seconds).result with
  | error e => rfl
  | ok a => rfl

private theorem candidateContent_recorded (path : String) (world : World (Recorded σ)) :
    let answer := host.fetch ref path world.host.state
    let reply := answer.1.within settings.requestTimeoutSecs
    candidateContent (host.recorded settings.requestTimeoutSecs) settings ref path world =
      (Ending.attempted reply.result,
        ⟨⟨answer.2, world.host.tape ++ [.fetch path reply.result]⟩, world.elapsed + reply.delay⟩) :=
  attempt_await _ _ world

private theorem candidates_apply (query : Query) (limit : Nat) (world : World σ) :
    let answer := host.search ref query limit world.host
    let reply := answer.1.within settings.requestTimeoutSecs
    candidates host settings ref query limit world =
      ((Ending.attempted reply.result).map (·.getD []), ⟨answer.2, world.elapsed + reply.delay⟩) := by
  rw [candidates, bind_apply, attempt_await]
  dsimp only
  generalize (host.search ref query limit world.host).1.within settings.requestTimeoutSecs = reply
  cases Ending.attempted reply.result with
  | error e => rfl
  | ok hits? => rfl

/-- A search for candidates puts one call on the tape, and an error that is not fatal gives no candidates. -/
theorem candidates_recorded (query : Query) (limit : Nat) (world : World (Recorded σ)) :
    let answer := host.search ref query limit world.host.state
    let reply := answer.1.within settings.requestTimeoutSecs
    candidates (host.recorded settings.requestTimeoutSecs) settings ref query limit world =
      ((Ending.attempted reply.result).map (·.getD []),
        ⟨⟨answer.2, world.host.tape ++ [.search query limit reply.result]⟩, world.elapsed + reply.delay⟩) :=
  candidates_apply (host.recorded settings.requestTimeoutSecs) settings ref query limit world

private theorem attempted_of_granted {query : Query} {limit : Nat} {ending : Ending (List String)}
    (granted : ¬ (Call.search query limit ending).Denied) : Ending.attempted ending = .ok ending.toOption := by
  cases ending with
  | ok hits => rfl
  | error e =>
    have mild : e.isFatal = false := Bool.eq_false_iff.mpr fun fatal =>
      granted ((Call.denied_iff _).mpr ⟨e, rfl, fatal⟩)
    exact Ending.attempted_of_mild mild

/-! ## The hits of a search -/

private theorem acceptDependents_of_full {settings : Settings} {accepted : List RelatedFile}
    (full : settings.maxDependents ≤ accepted.length) (hits : List String) :
    acceptDependents host settings ref target hits accepted = pure accepted := by
  cases hits with
  | nil => rfl
  | cons path rest => exact if_pos full

/-- Only the hits that may be dependents matter. -/
theorem acceptDependents_filter (hits : List String) (accepted : List RelatedFile) :
    acceptDependents host settings ref target hits accepted =
      acceptDependents host settings ref target (hits.filter (mayDepend target)) accepted := by
  induction hits generalizing accepted with
  | nil => rfl
  | cons path rest ih =>
    cases may : mayDepend target path with
    | true =>
      rw [List.filter_cons_of_pos may]
      simp only [acceptDependents, ih]
    | false =>
      rw [List.filter_cons_of_neg (Bool.eq_false_iff.mp may), ← ih, acceptDependents, may]
      split
      · next full => rw [acceptDependents_of_full host ref target full]
      · rfl

private theorem acceptDependents_cons {settings : Settings} {accepted : List RelatedFile} {path : String}
    (room : accepted.length < settings.maxDependents) (may : mayDepend target path = true) (rest : List String) :
    acceptDependents host settings ref target (path :: rest) accepted =
      (candidateContent host settings ref path >>= fun content? =>
        acceptDependents host settings ref target rest
          ((Screen.dependents settings target).judge accepted path content?)) := by
  rw [acceptDependents, if_neg (Nat.not_le_of_lt room), may]
  rfl

/-- A fetch adds the dependent that it shows, if it shows one. -/
theorem judge_eq_append (accepted : List RelatedFile) (path : String) {ending : Ending String}
    {content? : Option String} (went : ending.attempted = .ok content?) :
    (Screen.dependents settings target).judge accepted path content? =
      accepted ++ (dependent? target (.fetch path ending)).toList := by
  rcases Ending.attempted_eq_ok_iff.mp went with ⟨content, rfl, rfl⟩ | ⟨e, rfl, -, rfl⟩
  · dsimp only [dependent?, Screen.judge, Screen.dependents]
    split
    · rfl
    · exact (List.append_nil accepted).symm
  · exact (List.append_nil accepted).symm

/-- Through paths that may all be dependents, a run makes the fetches up to the one that shows the last dependent
that is wanted, and adds the dependents they show, unless one of the fetches is refused. -/
theorem acceptDependents_upTo {paths : List String} (eligible : ∀ path ∈ paths, mayDepend target path = true)
    (accepted : List RelatedFile) (world : World (Recorded σ)) :
    let fetches := host.fetchEach ref settings.requestTimeoutSecs paths world.host.state
    let after := acceptDependents (host.recorded settings.requestTimeoutSecs) settings ref target paths accepted world
    ∃ made, after.2.host.tape = world.host.tape ++ made ∧
      ((∀ call ∈ made, ¬ call.Denied) →
        made = upTo (dependent? target) (settings.maxDependents - accepted.length) fetches ∧
          after.1 = .ok (accepted ++ made.filterMap (dependent? target))) := by
  induction paths generalizing accepted world with
  | nil =>
    exact ⟨[], (List.append_nil _).symm, fun _ =>
      ⟨(upTo_nil _ _).symm, congrArg _ (List.append_nil _).symm⟩⟩
  | cons path rest ih =>
    obtain ⟨may, mayRest⟩ := List.forall_mem_cons.mp eligible
    by_cases full : settings.maxDependents ≤ accepted.length
    · rw [acceptDependents_of_full _ ref target full, Nat.sub_eq_zero_of_le full]
      exact ⟨[], (List.append_nil _).symm, fun _ =>
        ⟨(upTo_zero _ _).symm, congrArg _ (List.append_nil _).symm⟩⟩
    · have room : accepted.length < settings.maxDependents := Nat.lt_of_not_le full
      rw [acceptDependents_cons _ ref target room may, bind_apply, candidateContent_recorded]
      dsimp only [Host.fetchEach]
      generalize ((host.fetch ref path world.host.state).1.within settings.requestTimeoutSecs).result = ending
      cases went : Ending.attempted ending with
      | error e =>
        -- The run ends here, but then the fetch was refused.
        obtain ⟨rfl, fatal⟩ := Ending.attempted_eq_error_iff.mp went
        refine ⟨[.fetch path (.error e)], rfl, fun granted => ?_⟩
        exact absurd ((Call.denied_iff _).mpr ⟨e, rfl, fatal⟩) (granted _ List.mem_cons_self)
      | ok content? =>
        dsimp only
        rw [judge_eq_append settings target accepted path went]
        obtain ⟨made, added, goesOn⟩ := ih mayRest (accepted ++ (dependent? target (.fetch path ending)).toList) _
        refine ⟨.fetch path ending :: made, ?_, fun granted => ?_⟩
        · rw [added, List.append_assoc, List.singleton_append]
        · obtain ⟨upToLast, found⟩ := goesOn fun call member => granted call (List.mem_cons_of_mem _ member)
          -- What is still wanted is wanted of the paths behind this one, but for the dependent that it shows.
          have wanted : settings.maxDependents - accepted.length =
              settings.maxDependents - accepted.length - 1 + 1 := by omega
          constructor
          · rw [wanted, upTo_cons, ← wanted, upToLast, List.length_append, Nat.sub_add_eq]
          · rw [found, List.append_assoc, filterMap_cons_toList]

/-- After one search, hits that may be dependents are fetched. -/
theorem candidates_accepted_recorded (query : Query) (limit : Nat) (world : World (Recorded σ)) :
    let reply := host.search ref query limit world.host.state
    let ending := (reply.1.within settings.requestTimeoutSecs).result
    let looked := (ending.toOption.getD []).take limit
    let fetches := host.fetchEach ref settings.requestTimeoutSecs (looked.filter (mayDepend target)) reply.2
    let after := (candidates (host.recorded settings.requestTimeoutSecs) settings ref query limit >>= fun hits =>
      acceptDependents (host.recorded settings.requestTimeoutSecs) settings ref target (hits.take limit) []) world
    ∃ made, after.2.host.tape = world.host.tape ++ .search query limit ending :: made ∧
      ((∀ call ∈ Call.search query limit ending :: made, ¬ call.Denied) →
        made = upTo (dependent? target) settings.maxDependents fetches ∧
          after.1 = .ok (made.filterMap (dependent? target))) := by
  rw [bind_apply, candidates_recorded]
  dsimp only
  generalize ((host.search ref query limit world.host.state).1.within settings.requestTimeoutSecs).result = ending
  cases went : Ending.attempted ending with
  | error e =>
    refine ⟨[], rfl, fun granted => ?_⟩
    rw [attempted_of_granted (granted _ List.mem_cons_self)] at went
    cases went
  | ok hits? =>
    dsimp only [Except.map]
    rw [acceptDependents_filter]
    obtain ⟨made, added, fetched⟩ := acceptDependents_upTo host settings ref target
      (fun _ member => (List.mem_filter.mp member).2) [] _
    refine ⟨made, ?_, fun granted => ?_⟩
    · rw [added, List.append_assoc, List.singleton_append]
    · obtain rfl : ending.toOption = hits? :=
        Except.ok.inj ((attempted_of_granted (granted _ List.mem_cons_self)).symm.trans went)
      exact fetched fun call member => granted call (List.mem_cons_of_mem _ member)

/-! ## Targets -/

/-- A target is not asked about. -/
def Needless (exports : List String) : Prop :=
  exports = [] ∨ settings.maxDependents = 0 ∨ (Language.ofPath target).hasRelativeImports = false

private theorem needless_iff (exports : List String) :
    (exports.isEmpty || settings.maxDependents = 0 || !(Language.ofPath target).hasRelativeImports) = true ↔
      Needless settings target exports := by
  simp only [Needless, Bool.or_eq_true, List.isEmpty_iff, decide_eq_true_eq, Bool.not_eq_true', or_assoc]

/-- A target that is not asked about has no dependents, and costs no call. -/
theorem findDependents_of_needless {exports : List String} (needless : Needless settings target exports)
    (world : World σ) : findDependents host settings ref target exports world = (.ok [], world) := by
  unfold findDependents
  dsimp only
  cases (Language.ofPath target).importKeyword? with
  | none => rfl
  | some keyword => exact congrFun (if_pos ((needless_iff settings target exports).mpr needless)) world

/-- Any other target is searched for once, and as many hits are looked at as the budget allows. -/
theorem findDependents_of_needed {exports : List String} {keyword : String}
    (imports : (Language.ofPath target).importKeyword? = some keyword) (needed : ¬ Needless settings target exports) :
    findDependents host settings ref target exports =
      candidates host settings ref (.text [keyword, Path.baseName target]) (dependentBudget settings) >>= fun hits =>
        acceptDependents host settings ref target (hits.take (dependentBudget settings)) [] := by
  unfold findDependents
  dsimp only
  rw [imports]
  exact if_neg (mt (needless_iff settings target exports).mp needed)

/-- A language with imports from the repository has a keyword to search for. -/
theorem importKeyword?_of_relative {language : Language} (relative : language.hasRelativeImports = true) :
    ∃ keyword, language.importKeyword? = some keyword := by
  cases language <;> first | exact ⟨_, rfl⟩ | cases relative

theorem findDependents_fst_recorded (exports : List String) (world : World σ) :
    (findDependents (host.recorded settings.requestTimeoutSecs) settings ref target exports world.recorded).1 =
      (findDependents host settings ref target exports world).1 :=
  (findDependents_alike ⟨rfl, rfl, rfl⟩ ((host.tied_recorded ref _).agreesWithin _) target exports).fst_recorded world

/-- A target that exports something, in a language with relative imports, is searched for once. Of the hits within
twice the cap, those that may be dependents are fetched in their order until as many dependents are confirmed as are
wanted, and these are returned. Any other target is asked nothing about. -/
theorem dependents_are_first_confirmed (exports : List String) (world : World σ) :
    let wanted := settings.maxDependents
    let language := Language.ofPath target
    let tape := dependentsTape host settings ref target exports world
    (language.hasRelativeImports = true → exports ≠ [] → 0 < wanted → (∀ call ∈ tape, ¬ call.Denied) →
      ∃ keyword, language.importKeyword? = some keyword ∧
        let query := Query.text [keyword, Path.baseName target]
        let limit := min (2 * wanted) Text.maxWord
        let reply := host.search ref query limit world.host
        let ending := (reply.1.within settings.requestTimeoutSecs).result
        let hits := ending.toOption.getD []
        let eligible := (hits.take limit).filter fun path =>
          path != target && !Path.isVendored path && Language.ofPath path != .unknown
        let fetches := host.fetchEach ref settings.requestTimeoutSecs eligible reply.2
        (hits.length ≤ Text.maxWord → hits.take limit = hits.take (2 * wanted)) ∧
        (findDependents host settings ref target exports world).1 =
          .ok ((fetches.filterMap (dependent? target)).take wanted) ∧
        ∃ made, tape = .search query limit ending :: made ∧ made <+: fetches ∧
          (made = fetches ∨ (made.filterMap (dependent? target)).length = wanted) ∧
          ∀ early, early <+: made → early ≠ made → (early.filterMap (dependent? target)).length < wanted) ∧
    (exports = [] ∨ wanted = 0 ∨ language.hasRelativeImports = false →
      findDependents host settings ref target exports world = (.ok [], world) ∧ tape = []) := by
  intro wanted language tape
  constructor
  · intro relative declared positive granted
    obtain ⟨keyword, imports⟩ := importKeyword?_of_relative relative
    refine ⟨keyword, imports, ?_⟩
    intro query limit reply ending hits eligible fetches
    have needed : ¬ Needless settings target exports := by
      rintro (empty | none | foreign)
      · exact declared empty
      · exact Nat.ne_of_gt positive none
      · exact Bool.false_ne_true (foreign.symm.trans relative)
    have asks :=
      findDependents_of_needed (host.recorded settings.requestTimeoutSecs) settings ref target imports needed
    rw [show dependentBudget settings = limit from Nat.min_comm _ _] at asks
    obtain ⟨made, added, fetched⟩ :=
      candidates_accepted_recorded host settings ref target query limit world.recorded
    rw [← asks] at added fetched
    have whole : tape = .search query limit ending :: made := added
    obtain ⟨upToLast, found⟩ := fetched (whole ▸ granted)
    rw [findDependents_fst_recorded] at found
    change made = upTo (dependent? target) wanted fetches at upToLast
    refine ⟨fun short => ?_, ?_, made, whole, ?_, ?_, ?_⟩
    · rw [← List.take_take, List.take_of_length_le short]
    · rw [found, upToLast, filterMap_upTo]
    · exact upToLast ▸ upTo_prefix _ _ _
    · exact upToLast ▸ upTo_stops _ _ _
    · exact fun early starts shorter => upTo_goesOn _ (upToLast ▸ starts) (upToLast ▸ shorter)
  · intro needless
    refine ⟨findDependents_of_needless host settings ref target needless world, ?_⟩
    exact congrArg (·.2.host.tape) (findDependents_of_needless _ settings ref target needless world.recorded)

/-- Of seven hits, one is vendored and one is missing. The next three import the target, and the two behind them are
not asked for. -/
theorem dependents_are_first_confirmed_of_many_importers :
    let importer := "import { bill } from './bill';"
    let hits := ["node_modules/bill.ts", "lost.ts", "a.ts", "b.ts", "c.ts", "d.ts", "e.ts"]
    let rule : MemoryRule := ⟨none, 0, some hits, none⟩
    let repo : MemoryRepository :=
      ⟨[("a.ts", importer), ("b.ts", importer), ("c.ts", importer), ("d.ts", importer)], [], [("*", rule)], []⟩
    let settings : Settings := { maxDependents := 3 }
    let ref : RepositoryRef := ⟨"shop", "till", "main"⟩
    let tape := dependentsTape MemoryRepository.host settings ref "bill.ts" ["bill"] ⟨repo, 0⟩
    (Language.ofPath "bill.ts").hasRelativeImports = true ∧ 0 < settings.maxDependents ∧
      (∀ call ∈ tape, ¬ call.Denied) ∧
      (findDependents MemoryRepository.host settings ref "bill.ts" ["bill"] ⟨repo, 0⟩).1 =
        .ok (["a.ts", "b.ts", "c.ts"].map fun path => ⟨path, .dependent, importer, "bill.ts"⟩) ∧
      tape.map Call.path? = [none, some "lost.ts", some "a.ts", some "b.ts", some "c.ts"] ∧
      ∃ made, tape = .search (.text ["import", "bill"]) 6 (.ok hits) :: made ∧
        ∀ early, early <+: made → early ≠ made → (early.filterMap (dependent? "bill.ts")).length < 3 := by
  intro importer hits rule repo settings ref tape
  have relative : (Language.ofPath "bill.ts").hasRelativeImports = true := by decide +kernel
  have granted : ∀ call ∈ tape, ¬ call.Denied := by decide +kernel
  have found : (findDependents MemoryRepository.host settings ref "bill.ts" ["bill"] ⟨repo, 0⟩).1 =
      .ok (["a.ts", "b.ts", "c.ts"].map fun path => ⟨path, .dependent, importer, "bill.ts"⟩) := by decide +kernel
  obtain ⟨keyword, imports, -, -, made, whole, -, -, goesOn⟩ :=
    (dependents_are_first_confirmed MemoryRepository.host settings ref "bill.ts" ["bill"] ⟨repo, 0⟩).1
      relative (List.cons_ne_nil _ _) (by decide) granted
  have first : (Language.ofPath "bill.ts").importKeyword? = some "import" := by decide +kernel
  obtain rfl : "import" = keyword := Option.some.inj (first.symm.trans imports)
  exact ⟨relative, by decide, granted, found, by decide +kernel, made, whole, goesOn⟩

end Discovery

end ReviewContext
