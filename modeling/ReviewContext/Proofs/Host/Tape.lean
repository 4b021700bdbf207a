import ReviewContext.Proofs.Host.Alike

/-! # Hosts that keep a tape

A recording host answers as the host inside it and puts every call on its tape, with the ending that a
run sees: a reply that takes too long ends in a timeout. What a run leaves on the tape is stated for
each step and composes over `bind`, because calls are only ever added behind those already there.
-/

namespace ReviewContext

/-- How a call ended for the run that made it. -/
abbrev Ending (α : Type) := Except AccessError α

def Ending.error? {α : Type} : Ending α → Option AccessError
  | .ok _ => none
  | .error e => some e

/-- An ending as it is taken by a run that can do without an answer. -/
def Ending.attempted {α : Type} : Ending α → Ending (Option α)
  | .ok a => .ok (some a)
  | .error e => if e.isFatal then .error e else .ok none

namespace Ending

variable {α : Type} {ending : Ending α}

theorem error?_eq_some_iff {e : AccessError} : ending.error? = some e ↔ ending = .error e := by
  cases ending <;> simp [error?]

theorem attempted_of_fatal {e : AccessError} (fatal : e.isFatal = true) :
    attempted (.error e : Ending α) = .error e := if_pos fatal

theorem attempted_of_mild {e : AccessError} (mild : e.isFatal = false) :
    attempted (.error e : Ending α) = .ok none := if_neg (Bool.eq_false_iff.mp mild)

/-- An attempt fails for a fatal error only, and with it. -/
theorem attempted_eq_error_iff {e : AccessError} :
    ending.attempted = .error e ↔ ending = .error e ∧ e.isFatal = true := by
  cases ending with
  | ok a => simp [attempted]
  | error reason =>
    cases nature : reason.isFatal with
    | true => rw [attempted_of_fatal nature]; grind
    | false => rw [attempted_of_mild nature]; grind

theorem attempted_eq_ok_iff {answer? : Option α} :
    ending.attempted = .ok answer? ↔
      (∃ a, ending = .ok a ∧ answer? = some a) ∨
        ∃ e, ending = .error e ∧ e.isFatal = false ∧ answer? = none := by
  cases ending with
  | ok a => simp [attempted]; grind
  | error reason =>
    cases nature : reason.isFatal with
    | true => rw [attempted_of_fatal nature]; grind
    | false => rw [attempted_of_mild nature]; grind

/-- Where an attempt goes well, it gives the answer, if there was one. -/
theorem toOption_of_attempted {answer? : Option α} (went : ending.attempted = .ok answer?) :
    answer? = ending.toOption := by
  rcases attempted_eq_ok_iff.mp went with ⟨a, rfl, rfl⟩ | ⟨e, rfl, -, rfl⟩
  · rfl
  · rfl

end Ending

/-- A call that a run made, with how it ended for the run. -/
inductive Call where
  | fetch (path : String) (ending : Ending String)
  | search (query : Query) (limit : Nat) (ending : Ending (List String))

namespace Call

def error? : Call → Option AccessError
  | fetch _ ending => ending.error?
  | search _ _ ending => ending.error?

/-- The path that was asked for. -/
def path? : Call → Option String
  | fetch path _ => some path
  | search _ _ _ => none

/-- The call was refused: it ended in an error that every further call would end in alike. -/
def Denied (call : Call) : Prop :=
  ∃ message, call.error? = some (.unauthorized message)

end Call

/-- No error is fatal but that access was refused. -/
theorem AccessError.isFatal_iff (e : AccessError) :
    e.isFatal = true ↔ ∃ message, e = .unauthorized message := by
  cases e <;> simp [AccessError.isFatal]

/-- A call was refused if it ended in a fatal error. -/
theorem Call.denied_iff (call : Call) :
    call.Denied ↔ ∃ e, call.error? = some e ∧ e.isFatal = true := by
  simp only [Denied, AccessError.isFatal_iff]
  constructor
  · rintro ⟨message, ended⟩
    exact ⟨_, ended, message, rfl⟩
  · rintro ⟨_, ended, message, rfl⟩
    exact ⟨message, ended⟩

instance (call : Call) : Decidable call.Denied :=
  decidable_of_iff (call.error?.any AccessError.isFatal = true) <| by
    rw [call.denied_iff, Option.any_eq_true]

/-- The state of a host together with a tape. -/
structure Recorded (σ : Type) where
  state : σ
  /-- The calls, the last last. -/
  tape : List Call

variable {σ α β ε : Type}

/-- The host with a tape, for runs that wait so many seconds for a reply. -/
def Host.recorded (seconds : Nat) (host : Host σ) : Host (Recorded σ) where
  fetch ref path recorded :=
    let (reply, state) := host.fetch ref path recorded.state
    (reply, ⟨state, recorded.tape ++ [.fetch path (reply.within seconds).result]⟩)
  search ref query limit recorded :=
    let (reply, state) := host.search ref query limit recorded.state
    (reply, ⟨state, recorded.tape ++ [.search query limit (reply.within seconds).result]⟩)

/-- The same world, with an empty tape. -/
def World.recorded (world : World σ) : World (Recorded σ) :=
  ⟨⟨world.host, []⟩, world.elapsed⟩

/-- The same world, whatever stands on the tape. -/
def World.Erases (world : World σ) (recorded : World (Recorded σ)) : Prop :=
  world = ⟨recorded.host.state, recorded.elapsed⟩

/-- Recording changes no reply. -/
theorem Host.tied_recorded (ref : RepositoryRef) (seconds : Nat) (host : Host σ) :
    host.Tied ref (host.recorded seconds) World.Erases where
  fetch path := by rintro _ right rfl; exact ⟨rfl, rfl⟩
  search query limit := by rintro _ right rfl; exact ⟨rfl, rfl⟩
  wait delay := by rintro _ right rfl; rfl

/-- A function that goes alike on every tied host returns the same with a tape. -/
theorem Alike.fst_recorded {run : World σ → α × World σ} {recorded : World (Recorded σ) → α × World (Recorded σ)}
    (alike : Alike World.Erases run recorded) (world : World σ) : (recorded world.recorded).1 = (run world).1 :=
  (alike (show World.Erases world world.recorded from rfl)).1.symm

/-- From any world, a run adds calls to the tape that fit its result. -/
def Leaves (run : World (Recorded σ) → α × World (Recorded σ)) (fits : List Call → α → Prop) : Prop :=
  ∀ world, ∃ calls, (run world).2.host.tape = world.host.tape ++ calls ∧ fits calls (run world).1

namespace Leaves

/-- What a run leaves may be told with less detail. -/
theorem imp {run : World (Recorded σ) → α × World (Recorded σ)} {fits other : List Call → α → Prop}
    (leaves : Leaves run fits) (weaker : ∀ calls a, fits calls a → other calls a) :
    Leaves run other := by
  intro world
  obtain ⟨calls, added, fit⟩ := leaves world
  exact ⟨calls, added, weaker calls _ fit⟩

/-- With an empty tape at the start, that is the whole tape. -/
theorem fresh {run : World (Recorded σ) → α × World (Recorded σ)} {fits : List Call → α → Prop}
    (leaves : Leaves run fits) (world : World σ) : fits (run world.recorded).2.host.tape (run world.recorded).1 := by
  obtain ⟨calls, added, fit⟩ := leaves world.recorded
  rw [added]
  exact fit

/-- Two things that a run leaves are left by the same calls. -/
theorem and {run : World (Recorded σ) → α × World (Recorded σ)} {fits other : List Call → α → Prop}
    (leaves : Leaves run fits) (others : Leaves run other) :
    Leaves run fun calls a => fits calls a ∧ other calls a := by
  intro world
  obtain ⟨calls, added, fit⟩ := leaves world
  obtain ⟨same, addedSame, otherFit⟩ := others world
  obtain rfl := List.append_cancel_left (added.symm.trans addedSame)
  exact ⟨calls, added, fit, otherFit⟩

theorem pure {a : α} {fits : List Call → Except ε α → Prop} (fit : fits [] (.ok a)) :
    Leaves (Pure.pure a : ExceptT ε (StateM (World (Recorded σ))) α) fits :=
  fun _ => ⟨[], (List.append_nil _).symm, fit⟩

/-- After a step that failed nothing more is called; after one that did not, the rest goes on. -/
theorem bind {step : ExceptT ε (StateM (World (Recorded σ))) α}
    {rest : α → ExceptT ε (StateM (World (Recorded σ))) β}
    {head : List Call → Except ε α → Prop} {fits : List Call → Except ε β → Prop}
    (first : Leaves step head)
    (stop : ∀ calls e, head calls (.error e) → fits calls (.error e))
    (next : ∀ calls a, head calls (.ok a) → Leaves (rest a) fun more => fits (calls ++ more)) :
    Leaves (step >>= rest) fits := by
  intro world
  obtain ⟨calls, added, fit⟩ := first world
  rw [bind_apply]
  generalize step world = out at added fit
  obtain ⟨result, after⟩ := out
  cases result with
  | error e => exact ⟨calls, added, stop calls e fit⟩
  | ok a =>
    obtain ⟨more, addedMore, fitMore⟩ := next calls a fit after
    refine ⟨calls ++ more, ?_, fitMore⟩
    change after.host.tape = world.host.tape ++ calls at added
    rw [← List.append_assoc, ← added]
    exact addedMore

/-- An attempt leaves the calls of its run, and the ending as it is taken. -/
theorem attempt {run : Run (Recorded σ) α} {fits : List Call → Ending α → Prop}
    (leaves : Leaves run fits) :
    Leaves run.attempt fun calls result => ∃ ending, fits calls ending ∧ result = ending.attempted := by
  intro world
  obtain ⟨calls, added, fit⟩ := leaves world
  unfold Run.attempt
  generalize run world = out at added fit
  obtain ⟨result, after⟩ := out
  cases result with
  | error e => exact ⟨calls, added, _, fit, rfl⟩
  | ok a => exact ⟨calls, added, _, fit, rfl⟩

/-- A call that is waited for stands on the tape with what the run gets. -/
theorem awaitFetch (host : Host σ) (seconds : Nat) (ref : RepositoryRef) (path : String) :
    Leaves (Run.await seconds ((host.recorded seconds).fetch ref path)) fun calls ending =>
      calls = [.fetch path ending] :=
  fun _ => ⟨_, rfl, rfl⟩

theorem awaitSearch (host : Host σ) (seconds : Nat) (ref : RepositoryRef) (query : Query) (limit : Nat) :
    Leaves (Run.await seconds ((host.recorded seconds).search ref query limit)) fun calls ending =>
      calls = [.search query limit ending] :=
  fun _ => ⟨_, rfl, rfl⟩

end Leaves

/-- A result is an error if a call was refused, with the error of such a call, and only then. -/
def Heeds (cause : ε → AccessError) (calls : List Call) : Except ε α → Prop
  | .ok _ => ∀ call ∈ calls, ¬ call.Denied
  | .error e => (cause e).isFatal = true ∧ ∃ call ∈ calls, call.error? = some (cause e)

namespace Heeds

variable {cause : ε → AccessError} {calls more : List Call}

theorem nothing {a : α} : Heeds cause [] (.ok a : Except ε α) :=
  fun _ member => nomatch member

/-- After a step that went well, the calls behind it decide. -/
theorem append {a : α} {result : Except ε β} (first : Heeds cause calls (.ok a : Except ε α))
    (next : Heeds cause more result) : Heeds cause (calls ++ more) result := by
  cases result with
  | ok b =>
    intro call member
    rcases List.mem_append.mp member with early | late
    · exact first call early
    · exact next call late
  | error e =>
    obtain ⟨fatal, call, member, ended⟩ := next
    exact ⟨fatal, call, List.mem_append_right _ member, ended⟩

/-- An attempt heeds the one call that it makes. -/
theorem attempt {ending : Ending α} {call : Call} (same : call.error? = ending.error?) :
    Heeds id [call] ending.attempted := by
  have denied_iff := call.denied_iff
  rw [same] at denied_iff
  cases ending with
  | ok a =>
    intro other member
    obtain rfl := List.mem_singleton.mp member
    simp [denied_iff, Ending.error?]
  | error e =>
    cases nature : e.isFatal with
    | true =>
      rw [Ending.attempted_of_fatal nature]
      exact ⟨nature, call, List.mem_singleton_self _, same⟩
    | false =>
      rw [Ending.attempted_of_mild nature]
      intro other member
      obtain rfl := List.mem_singleton.mp member
      simp [denied_iff, nature, Ending.error?]

theorem attemptFetch (path : String) (ending : Ending String) :
    Heeds id [.fetch path ending] ending.attempted :=
  attempt rfl

theorem attemptSearch (query : Query) (limit : Nat) (ending : Ending (List String)) :
    Heeds id [.search query limit ending] ending.attempted :=
  attempt rfl

/-- A run fails exactly if a call was refused. -/
theorem error_iff {result : Except ε α} (heeds : Heeds cause calls result) :
    (∃ e, result = .error e) ↔ ∃ call ∈ calls, call.Denied := by
  cases result with
  | ok a =>
    constructor
    · rintro ⟨e, ended⟩
      cases ended
    · rintro ⟨call, member, denied⟩
      exact (heeds call member denied).elim
  | error e =>
    obtain ⟨fatal, call, member, ended⟩ := heeds
    exact ⟨fun _ => ⟨call, member, call.denied_iff.mpr ⟨_, ended, fatal⟩⟩, fun _ => ⟨e, rfl⟩⟩

end Heeds

end ReviewContext
