import ReviewContext.Proofs.Host.Memory
import ReviewContext.Proofs.Host.Tape

/-! # Hosts that answer alike at any time

If no reply depends on what was asked before, a host is a table of answers. A repository in memory
without a state is tied to its table, in which a run finds nothing to change but the clock. Whatever a run
puts on its tape there ends as it stands in the table.
-/

namespace ReviewContext

/-- The replies to all that can be asked. -/
structure Answers where
  fetch : String → Reply String
  search : Query → Nat → Reply (List String)

namespace Answers

/-- A host that looks every reply up. -/
def host (answers : Answers) : Host Unit where
  fetch _ path state := (answers.fetch path, state)
  search _ query limit state := (answers.search query limit, state)

/-- The world in which nothing was asked yet. -/
def idle : World Unit :=
  ⟨(), 0⟩

/-- How a fetch ends for a run that waits so many seconds for it. -/
def fetched (answers : Answers) (seconds : Nat) (path : String) : Ending String :=
  ((answers.fetch path).within seconds).result

/-- How a search ends for a run that waits so many seconds for it. -/
def searched (answers : Answers) (seconds : Nat) (query : Query) (limit : Nat) : Ending (List String) :=
  ((answers.search query limit).within seconds).result

/-- The call ended as it stands in the table. -/
def Gives (answers : Answers) (seconds : Nat) : Call → Prop
  | .fetch path ending => ending = answers.fetched seconds path
  | .search query limit ending => ending = answers.searched seconds query limit

/-- A table of answers gives the same at all times. -/
theorem tied_ever (answers : Answers) (ref : RepositoryRef) :
    answers.host.Tied ref answers.host fun _ _ => True where
  fetch _ _ _ _ := ⟨rfl, trivial⟩
  search _ _ _ _ _ := ⟨rfl, trivial⟩
  wait _ _ _ _ := trivial

end Answers

namespace MemoryRepository

/-- The replies of a repository as it stands. -/
def answers (ref : RepositoryRef) (repo : MemoryRepository) : Answers where
  fetch path := (repo.fetch ref path).1
  search query limit := (repo.search ref query limit).1

/-- A stateless repository replies by its table for good. -/
theorem tied_answers (ref : RepositoryRef) (start : World MemoryRepository) :
    host.Tied ref (start.host.answers ref).host fun later _ => Same start later where
  fetch path left right same := by
    have kept := same.fetched ref path
    obtain ⟨_, calls, there⟩ := same
    exact ⟨by rw [there]; rfl, kept⟩
  search query limit left right same := by
    have kept := same.searched ref query limit
    obtain ⟨_, calls, there⟩ := same
    exact ⟨by rw [there]; rfl, kept⟩
  wait _ _ _ same := ⟨same.stateless, same.notes⟩

end MemoryRepository

/-! ## Hosts with a table -/

variable {σ : Type}

/-- From this world on the host answers by the table, whatever it is asked before. -/
def Host.Tabled (host : Host σ) (ref : RepositoryRef) (answers : Answers) (world : World σ) : Prop :=
  ∃ tie, host.Tied ref answers.host tie ∧ ∃ idle, tie world idle

/-- A stateless repository keeps to the table of its replies, whatever it has noted since. -/
theorem MemoryRepository.tabled (ref : RepositoryRef) {start later : World MemoryRepository}
    (same : Same start later) : host.Tabled ref (start.host.answers ref) later :=
  ⟨_, tied_answers ref start, Answers.idle, same⟩

/-- A table is a host with that table. -/
theorem Answers.tabled_host (answers : Answers) (ref : RepositoryRef) : answers.host.Tabled ref answers Answers.idle :=
  ⟨_, answers.tied_ever ref, Answers.idle, trivial⟩

/-- A run comes to the same on the host as on its table, whenever it is started there. -/
theorem Host.Tabled.fst_eq {α : Type} {host : Host σ} {ref : RepositoryRef} {answers : Answers} {world : World σ}
    {run : World σ → α × World σ} {plain : World Unit → α × World Unit} (tabled : host.Tabled ref answers world)
    (carried : ∀ {tie}, host.Tied ref answers.host tie → Alike tie run plain)
    (ever : Alike (fun _ _ => True) plain plain) (idle : World Unit) : (run world).1 = (plain idle).1 := by
  obtain ⟨tie, tied, some, related⟩ := tabled
  exact (carried tied related).1.trans (ever trivial).1

/-- The host still answers by the table, and all calls on the tape ended so. -/
def Answers.Kept (answers : Answers) (host : Host σ) (ref : RepositoryRef) (seconds : Nat)
    (left right : World (Recorded σ)) : Prop :=
  left = right ∧ host.Tabled ref answers ⟨left.host.state, left.elapsed⟩ ∧
    ∀ call ∈ left.host.tape, answers.Gives seconds call

/-- A host that keeps to a table does so with a tape as well, and every call on the tape ends as the table says. -/
theorem Answers.tied_kept (answers : Answers) (host : Host σ) (ref : RepositoryRef) (seconds : Nat) :
    (host.recorded seconds).Tied ref (host.recorded seconds) (answers.Kept host ref seconds) where
  fetch := by
    rintro path left _ ⟨rfl, ⟨tie, tied, idle, related⟩, given⟩
    obtain ⟨reply, kept⟩ := tied.fetch path related
    refine ⟨rfl, rfl, ⟨tie, tied, _, kept⟩, ?_⟩
    refine List.forall_mem_append.mpr ⟨given, List.forall_mem_singleton.mpr ?_⟩
    exact congrArg (fun reply : Reply String => (reply.within seconds).result) reply
  search := by
    rintro query limit left _ ⟨rfl, ⟨tie, tied, idle, related⟩, given⟩
    obtain ⟨reply, kept⟩ := tied.search query limit related
    refine ⟨rfl, rfl, ⟨tie, tied, _, kept⟩, ?_⟩
    refine List.forall_mem_append.mpr ⟨given, List.forall_mem_singleton.mpr ?_⟩
    exact congrArg (fun reply : Reply (List String) => (reply.within seconds).result) reply
  wait := by
    rintro delay left _ ⟨rfl, ⟨tie, tied, idle, related⟩, given⟩
    exact ⟨rfl, ⟨tie, tied, _, tied.wait delay related⟩, given⟩

/-- What a run leaves on an empty tape ended as in the table. -/
theorem Answers.tape_gives {α : Type} {answers : Answers} {host : Host σ} {ref : RepositoryRef} {seconds : Nat}
    {run : World (Recorded σ) → α × World (Recorded σ)} (alike : Alike (answers.Kept host ref seconds) run run)
    {world : World σ} (tabled : host.Tabled ref answers world) :
    ∀ call ∈ (run world.recorded).2.host.tape, answers.Gives seconds call := by
  have fresh : answers.Kept host ref seconds world.recorded world.recorded :=
    ⟨rfl, tabled, fun _ member => absurd member List.not_mem_nil⟩
  exact (alike fresh).2.2.2

end ReviewContext
