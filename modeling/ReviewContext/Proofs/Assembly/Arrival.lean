import ReviewContext.Proofs.Assembly.Locality
import ReviewContext.Proofs.Host.Pace

/-! # Replies in any order

The fetches of a pass run at once, and each reply is put in at the place of its file when it comes. Places
are distinct, so that without a refusal the order of the replies is of no account; and since discovery waits
for each call before it makes the next, neither is the time that any call takes.
-/

namespace ReviewContext.Assembly

/-! ## The time of a reply -/

/-- What a file gets does not depend on when it gets it. -/
theorem withReply_timeless (settings : Settings) (file : ChangedFile) (reply? : Option (Reply String)) :
    withReply settings file reply? = withReply settings file ((reply?.map Reply.result).map (Reply.mk 0)) := by
  rcases reply? with _ | ⟨delay, e | body⟩ <;> rfl

private theorem firstFatal?_timeless {replies others : List (Option (Reply String))}
    (same : replies.map (Option.map Reply.result) = others.map (Option.map Reply.result))
    (granted : firstFatal? (replies.filterMap id) = none) : firstFatal? (others.filterMap id) = none := by
  have results (replies : List (Option (Reply String))) :
      (replies.filterMap id).map Reply.result = (replies.map (Option.map Reply.result)).filterMap id := by
    rw [List.map_filterMap, List.filterMap_map]
    rfl
  rw [firstFatal?_eq_none_iff] at granted ⊢
  have known : ∀ result ∈ (replies.filterMap id).map Reply.result,
      ∀ e, result = .error e → e.isFatal = false := List.forall_mem_map.mpr granted
  rw [results, same, ← results] at known
  exact List.forall_mem_map.mp known

section Timing

variable {σ τ : Type} {settings : Settings} {ref : RepositoryRef} {host : Host σ} {other : Host τ}
  {bond : σ → τ → Prop} (agrees : host.AgreesWithin ref settings.requestTimeoutSecs other (World.Bonded bond))
  {files out : List ChangedFile} {left after : World σ} {right : World τ}

include agrees

private theorem startFetches_bonded (files : List ChangedFile) {left : σ} {right : τ} (bound : bond left right) :
    (startFetches host settings ref files left).1.map (Option.map Reply.result) =
        (startFetches other settings ref files right).1.map (Option.map Reply.result) ∧
      bond (startFetches host settings ref files left).2 (startFetches other settings ref files right).2 := by
  induction files generalizing left right with
  | nil => exact ⟨rfl, bound⟩
  | cons file rest ih =>
    unfold startFetches
    split
    · obtain ⟨same, kept⟩ := ih bound
      exact ⟨congrArg (none :: ·) same, kept⟩
    · obtain ⟨reply, fetched⟩ := agrees.fetch file.filename (show World.Bonded bond ⟨left, 0⟩ ⟨right, 0⟩ from bound)
      obtain ⟨same, kept⟩ := ih fetched
      exact ⟨congrArg₂ (some · :: ·) reply same, kept⟩

private theorem fullFiles_bonded (bound : bond left.host right.host)
    (went : fullFiles host settings ref files left = (.ok out, after)) :
    ∃ last, fullFiles other settings ref files right = (.ok out, last) ∧ bond after.host last.host := by
  obtain ⟨same, kept⟩ := startFetches_bonded agrees files bound
  unfold fullFiles at went ⊢
  dsimp only at went ⊢
  split at went
  · cases went
  · next granted =>
    cases went
    rw [firstFatal?_timeless same granted]
    refine ⟨_, Prod.ext (congrArg Except.ok ?_) rfl, kept⟩
    have byResult (replies : List (Option (Reply String))) : List.zipWith (withReply settings) files replies =
        List.zipWith (fun file result? => withReply settings file (result?.map (Reply.mk 0))) files
          (replies.map (Option.map Reply.result)) := by
      rw [List.zipWith_map_right]
      simp only [← withReply_timeless]
    rw [byResult, byResult, same]

/-- A pass that is completed is completed alike with calls that take another time. -/
theorem run_bonded (strategy : Strategy) (bound : bond left.host right.host)
    (went : run host settings ref strategy files left = (.ok out, after)) :
    ∃ last, run other settings ref strategy files right = (.ok out, last) ∧ bond after.host last.host := by
  cases strategy with
  | diffOnly =>
    cases went
    exact ⟨right, rfl, bound⟩
  | fullFiles => exact fullFiles_bonded agrees bound went
  | dependencyAware =>
    obtain ⟨enriched, middle, fetched, rest⟩ := bind_eq_ok_iff.mp went
    obtain ⟨next, fetchedToo, kept⟩ := fullFiles_bonded agrees bound fetched
    have searched : Alike (World.Bonded bond)
        (discoverEach host settings ref enriched >>= fun found =>
          pure (List.zipWith (withBundle settings (pool found)) enriched found))
        (discoverEach other settings ref enriched >>= fun found =>
          pure (List.zipWith (withBundle settings (pool found)) enriched found)) :=
      .bind (discoverEach_alike (Settings.SameLimits.refl settings).toSameSearch agrees enriched) fun _ => .pure _
    obtain ⟨same, bound⟩ := searched kept
    rw [rest] at same bound
    exact ⟨_, bind_eq_ok_iff.mpr ⟨enriched, next, fetchedToo, Prod.ext same.symm rfl⟩, bound⟩

end Timing

/-! ## The order of the replies -/

/-- A file whose reply is still to come. -/
def awaiting (file : ChangedFile) : ChangedFile :=
  { file with strategy := some (if file.isRemoved then .diffOnly else .fullFiles) }

private theorem withReply_awaiting (settings : Settings) (file : ChangedFile) (reply : Reply String) :
    withReply settings (awaiting file) (some reply) = withReply settings file (some reply) := by
  rcases reply with ⟨delay, e | body⟩ <;> rfl

/-- Puts a reply in at the place of its file. -/
def put (settings : Settings) (files : List ChangedFile) (arrival : Nat × Reply String) : List ChangedFile :=
  files.modify arrival.1 (withReply settings · (some arrival.2))

private theorem put_append (settings : Settings) (before rest : List ChangedFile) (file : ChangedFile)
    (reply : Reply String) :
    put settings (before ++ file :: rest) (before.length, reply) =
      before ++ withReply settings file (some reply) :: rest := by
  induction before with
  | nil => rfl
  | cons head tail ih => exact congrArg (head :: ·) ih

/-- Puts the replies in as they come, up to the first refusal. -/
def takeIn (settings : Settings) (files : List ChangedFile) :
    List (Nat × Reply String) → Except DegradationReason (List ChangedFile)
  | [] => .ok files
  | arrival :: rest =>
    match Ending.attempted arrival.2.result with
    | .error e => .error (.fetch e)
    | .ok _ => takeIn settings (put settings files arrival) rest

private theorem takeIn_of_granted {settings : Settings} {arrivals : List (Nat × Reply String)}
    (granted : ∀ arrival ∈ arrivals, ∀ e, arrival.2.result = .error e → e.isFatal = false)
    (files : List ChangedFile) :
    takeIn settings files arrivals = .ok (arrivals.foldl (put settings) files) := by
  induction arrivals generalizing files with
  | nil => rfl
  | cons arrival rest ih =>
    obtain ⟨first, others⟩ := List.forall_mem_cons.mp granted
    unfold takeIn
    split
    · next e refused =>
      obtain ⟨ended, fatal⟩ := Ending.attempted_eq_error_iff.mp refused
      exact absurd fatal (Bool.eq_false_iff.mp (first e ended))
    · exact ih others _

private theorem put_comm (settings : Settings) (files : List ChangedFile) {first second : Nat × Reply String}
    (apart : first.1 ≠ second.1) :
    put settings (put settings files first) second = put settings (put settings files second) first :=
  List.modify_modify_ne _ _ _ apart

/-- Replies at distinct places can be put in in any order. -/
theorem foldl_put_of_perm (settings : Settings) (files : List ChangedFile)
    {arrivals others : List (Nat × Reply String)} (order : arrivals.Perm others)
    (distinct : (others.map (·.1)).Nodup) :
    arrivals.foldl (put settings) files = others.foldl (put settings) files := by
  refine (order.symm.foldl_eq' ?_ files).symm
  intro first known second knownToo files
  by_cases apart : first.1 = second.1
  · rw [List.inj_on_of_nodup_map distinct known knownToo apart]
  · exact put_comm settings files apart

end ReviewContext.Assembly

namespace ReviewContext.Answers

open Assembly

variable {answers : Answers} {settings : Settings} {ref : RepositoryRef} {strategy : Strategy}
  {files out : List ChangedFile}

/-- The reply to the fetch of a file, with the place of the file. -/
def arrival? (answers : Answers) (settings : Settings) (placed : ChangedFile × Nat) : Option (Nat × Reply String) :=
  (answers.reply? settings placed.1).map (placed.2, ·)

/-- The replies to the fetches of a pass, in the order of the files. -/
def arrivals (answers : Answers) (settings : Settings) (files : List ChangedFile) : List (Nat × Reply String) :=
  files.zipIdx.filterMap (answers.arrival? settings)

private theorem arrivals_distinct : ((answers.arrivals settings files).map (·.1)).Nodup := by
  have places : (files.zipIdx.map (·.2)).Nodup := by
    rw [List.zipIdx_map_snd]
    exact List.nodup_range'
  rw [List.Nodup, List.pairwise_map] at places ⊢
  apply places.filterMap
  intro first second apart arrival came other cameToo
  obtain ⟨_, _, rfl⟩ := Option.map_eq_some_iff.mp came
  obtain ⟨_, _, rfl⟩ := Option.map_eq_some_iff.mp cameToo
  exact apart

private theorem arrivals_granted (granted : answers.refusal? settings files = none) :
    ∀ arrival ∈ answers.arrivals settings files, ∀ e, arrival.2.result = .error e → e.isFatal = false := by
  have replies : (answers.arrivals settings files).map (·.2) = files.filterMap (answers.reply? settings) := by
    have bare : (fun placed => (answers.arrival? settings placed).map (·.2)) =
        answers.reply? settings ∘ Prod.fst := by
      funext placed
      simp [arrival?, Function.comp_def]
    rw [arrivals, List.map_filterMap, bare, ← List.filterMap_map, List.zipIdx_map_fst]
  rw [refusal?, Option.map_eq_none_iff, firstFatal?_eq_none_iff, ← replies] at granted
  exact List.forall_mem_map.mp granted

/-- Each file gets the reply to its own fetch, as the replies come in the order of the files. -/
theorem foldl_put_arrivals (before : List ChangedFile) :
    ((files.zipIdx before.length).filterMap (answers.arrival? settings)).foldl (put settings)
        (before ++ files.map awaiting) = before ++ files.map (answers.body settings) := by
  induction files generalizing before with
  | nil => rfl
  | cons file rest ih =>
    have next := ih (before ++ [answers.body settings file])
    rw [List.length_append, List.length_singleton, List.append_assoc, List.append_assoc] at next
    rw [List.zipIdx_cons, List.map_cons, List.map_cons]
    cases came : answers.reply? settings file with
    | none =>
      have removed : file.isRemoved = true := by simpa [reply?] using came
      have same : awaiting file = answers.body settings file := by
        simp only [awaiting, body, came, if_pos removed, withReply]
      have absent : answers.arrival? settings (file, before.length) = none := by
        rw [arrival?, came, Option.map_none]
      rw [List.filterMap_cons_none absent, same]
      exact next
    | some reply =>
      have present : answers.arrival? settings (file, before.length) = some (before.length, reply) := by
        rw [arrival?, came, Option.map_some]
      rw [List.filterMap_cons_some present, List.foldl_cons, put_append, withReply_awaiting, ← came]
      exact next

private theorem refusal?_of_completed (fetching : strategy ≠ .diffOnly)
    (completed : answers.outcome settings ref strategy files = .ok out) :
    answers.refusal? settings files = none := by
  cases strategy with
  | diffOnly => exact (fetching rfl).elim
  | fullFiles => exact (whole_eq_ok_iff.mp completed).1
  | dependencyAware => exact (related_eq_ok_iff.mp completed).1

/-- Whatever the order of the replies, each file gets the one to its own fetch. -/
theorem takeIn_of_perm (granted : answers.refusal? settings files = none) {arrivals : List (Nat × Reply String)}
    (order : arrivals.Perm (answers.arrivals settings files)) :
    takeIn settings (files.map awaiting) arrivals = .ok (files.map (answers.body settings)) := by
  have mild : ∀ arrival ∈ arrivals, ∀ e, arrival.2.result = .error e → e.isFatal = false :=
    fun arrival came => arrivals_granted granted arrival (order.subset came)
  rw [takeIn_of_granted mild, foldl_put_of_perm settings _ order arrivals_distinct]
  exact congrArg Except.ok (foldl_put_arrivals [])

end ReviewContext.Answers

namespace ReviewContext.Assembly

open MemoryRepository

/-- The time that calls take changes nothing as long as each is waited for and none is refused: the files
and the calls are the same, and the replies may come in any order. -/
theorem delays_change_nothing (settings : Settings) (ref : RepositoryRef) (files : List ChangedFile)
    {first second : Delays} {left right : World MemoryRepository} (paced : Paced first second left.host right.host)
    (firstInTime : first.Within settings.requestTimeoutSecs)
    (secondInTime : second.Within settings.requestTimeoutSecs)
    (granted : ∀ call ∈ tape host settings ref files left, ¬ call.Denied) :
    let out := assemble host settings ref files left
    let other := assemble host settings ref files right
    let answers := left.host.answers ref
    let strategy := settings.effective settings.strategy
    out.1 = other.1 ∧ out.2.host.calls = other.2.host.calls ∧
      out.1.map (·.unbundled) = files.map (fun file => (answers.alone settings strategy file).unbundled) ∧
      (strategy ≠ .diffOnly →
        (fullFiles host settings ref files left).1 = .ok (files.map (answers.body settings)) ∧
        ∀ arrivals, arrivals.Perm (answers.arrivals settings files) →
          takeIn settings (files.map awaiting) arrivals = .ok (files.map (answers.body settings))) := by
  intro out other answers strategy
  have same : Same left left := .refl paced.stateless
  obtain ⟨enriched, completed⟩ := run_completes granted
  obtain ⟨last, completedToo, kept⟩ :=
    run_bonded (agreesWithin_paced firstInTime secondInTime ref) strategy paced (Prod.ext completed rfl)
  have outcome : answers.outcome settings ref strategy files = .ok out.1 := outcome_of_granted same granted
  have made : out = (enriched, _) := assemble_of_completed completed
  have madeToo : other = (enriched, _) := assemble_of_completed (congrArg Prod.fst completedToo)
  refine ⟨?_, ?_, Answers.outcome_unbundled outcome, fun fetching => ?_⟩
  · rw [made, madeToo]
  · rw [made, madeToo, completedToo]
    exact kept.calls
  · have unrefused := Answers.refusal?_of_completed fetching outcome
    refine ⟨?_, fun arrivals order => Answers.takeIn_of_perm unrefused order⟩
    rw [← Answers.bodies_of_granted unrefused]
    exact run_of_stateless settings ref files same .fullFiles

/-- A file that is named twice, one whose fetch fails and a removed one, with a fetch that takes just as long as is
waited for: other delays take another time, and nothing else differs. The replies arrive last first. -/
theorem delays_change_nothing_of_repeated_file :
    let files : List ChangedFile := [{ filename := "bill.lua", status := .modified },
      { filename := "lost.lua", status := .added }, { filename := "bill.lua", status := .renamed },
      { filename := "gone.lua", status := .removed }]
    let limited : MemoryRule := ⟨some (.rateLimited "later"), 0, none, none⟩
    let plain : MemoryRule := ⟨none, 0, none, none⟩
    let repo : MemoryRepository :=
      ⟨[("bill.lua", "return 1"), ("bill.test.lua", "require bill")],
        [("bill.lua", plain), ("lost.lua", limited)], [("*", plain)], []⟩
    let first : Delays := ⟨fun key => if key = "bill.lua" then 10000 else 10, fun _ => 0⟩
    let second : Delays := ⟨fun _ => 20, fun _ => 250⟩
    let ref : RepositoryRef := ⟨"shop", "till", "main"⟩
    let left : World MemoryRepository := ⟨repo.paced first, 0⟩
    let right : World MemoryRepository := ⟨repo.paced second, 7⟩
    let answers := left.host.answers ref
    Paced first second left.host right.host ∧ first.Within 10 ∧ second.Within 10 ∧
      (∀ call ∈ tape host {} ref files left, ¬ call.Denied) ∧
      (assemble host {} ref files left).1 = (assemble host {} ref files right).1 ∧
      (assemble host {} ref files left).2.host.calls = (assemble host {} ref files right).2.host.calls ∧
      (assemble host {} ref files left).2.elapsed ≠ (assemble host {} ref files right).2.elapsed ∧
      (assemble host {} ref files left).1.map (·.unbundled) =
        files.map (fun file => (answers.alone {} .dependencyAware file).unbundled) ∧
      takeIn {} (files.map awaiting) (answers.arrivals {} files).reverse =
        .ok (files.map (answers.body {})) := by
  intro files limited plain repo first second ref left right answers
  have paced : Paced first second left.host right.host := ⟨repo, by decide, rfl, rfl⟩
  have firstInTime : first.Within 10 := by
    refine ⟨fun key => ?_, fun key => show 0 ≤ 10000 by decide⟩
    change (if key = "bill.lua" then 10000 else 10) ≤ 10000
    split
    · decide
    · decide
  have secondInTime : second.Within 10 :=
    ⟨fun key => show 20 ≤ 10000 by decide, fun key => show 250 ≤ 10000 by decide⟩
  have granted : ∀ call ∈ tape host {} ref files left, ¬ call.Denied := by decide +kernel
  obtain ⟨same, calls, own, replies⟩ :=
    delays_change_nothing {} ref files paced firstInTime secondInTime granted
  exact ⟨paced, firstInTime, secondInTime, granted, same, calls, by decide +kernel, own,
    (replies (by decide)).2 _ (List.reverse_perm _)⟩

end ReviewContext.Assembly
