import KanariEvm.Lib.SweepSteps
import KanariEvm.Opening
import KanariEvm.Turns
import KanariEvm.Reference

namespace KanariEvm

open Deferred

/-- The task and the node it shares. It waits for a commit with what is pending, or it sweeps; while
a commit is swept, its timestamp is the last one. -/
structure Executor where
  node : KanariNode
  lastTs : U64
  phase : Phase Bytes
deriving DecidableEq

inductive ExecutorEvent (ρ : Type)
  | receive (commit : CommittedSubDag ρ)
  | sweep (event : SweepEvent Request SealIo)
deriving DecidableEq

namespace Executor

variable (P : Platform)

def spawn (node : KanariNode) : Executor := ⟨(ValidatorNode.spawn node).node, 0, .done []⟩

def serve (node : KanariNode) (request : Request) : KanariNode := node.perform P request.op

def sealAt (ts : U64) (io : SealIo) : Attempt KanariNode Bytes := fun node raw =>
  let out := node.sealCommitted P raw ts io
  (out.1, out.2.isOk)

variable {ρ : Type} [DecidableEq ρ]

/-- One event, if it can happen: commits wait in their channel while one is swept. -/
def step (x : Executor) : ExecutorEvent ρ → Option Executor
  | .receive commit =>
    match x.phase with
    | .sweeping _ => none
    | .done pending =>
      some { x with
        lastTs := umax (commitTimestamp commit) x.lastTs
        phase := .sweeping ⟨enqueue pending (orderedPayloads [commit]), [], false⟩ }
  | .sweep event =>
    (sweepStep (serve P) (sealAt P x.lastTs) (x.node, x.phase) event).map fun s =>
      { x with node := s.1, phase := s.2 }

def run (x : Executor) (events : List (ExecutorEvent ρ)) : Option Executor :=
  events.foldlM (step P) x

end Executor

/-- A commit is executed amid requests, or a request is served between two commits. -/
inductive Move (ρ : Type)
  | deliver (delivery : Delivery ρ)
  | serve (request : Request)

namespace Move

variable {ρ : Type}

def commits (moves : List (Move ρ)) : List (CommittedSubDag ρ) :=
  moves.filterMap fun
    | .deliver delivery => some delivery.commit
    | .serve _ => none

def requests (moves : List (Move ρ)) : List Request :=
  moves.flatMap fun
    | .deliver delivery => delivery.turns.flatMap (·.requests)
    | .serve request => [request]

end Move

namespace ExecutorEvent

variable {ρ : Type}

def commits (events : List (ExecutorEvent ρ)) : List (CommittedSubDag ρ) :=
  events.filterMap fun
    | .receive commit => some commit
    | .sweep _ => none

def requests (events : List (ExecutorEvent ρ)) : List Request :=
  requestsOf (events.filterMap fun
    | .receive _ => none
    | .sweep event => some event)

theorem commits_append_sweep (events : List (ExecutorEvent ρ))
    (event : SweepEvent Request SealIo) : commits (events ++ [.sweep event]) = commits events := by
  simp [commits]

theorem requests_append_sweep (events : List (ExecutorEvent ρ))
    (event : SweepEvent Request SealIo) :
    requests (events ++ [.sweep event]) = requests events ++ requestsOf [event] := by
  simp only [requests, requestsOf, List.filterMap_append, List.filterMap_cons, List.filterMap_nil]

end ExecutorEvent

namespace ValidatorNode

variable (P : Platform) {ρ : Type} [DecidableEq ρ]

def move (v : ValidatorNode) : Move ρ → ValidatorNode
  | .deliver delivery => v.executeAmid P delivery
  | .serve request => { v with node := v.node.perform P request.op }

def moves (v : ValidatorNode) (moves : List (Move ρ)) : ValidatorNode := moves.foldl (move P) v

variable {P} {v : ValidatorNode}

theorem moves_serve (requests : List Request) :
    v.moves P (requests.map (Move.serve (ρ := ρ))) =
      { v with node := requests.foldl (Executor.serve P) v.node } := by
  induction requests generalizing v with
  | nil => rfl
  | cons request rest ih =>
    have hrest := ih (v := { v with node := v.node.perform P request.op })
    exact hrest

theorem amid_projects (ts : U64) :
    Projects (amid (Executor.serve P) (Executor.sealAt P ts) .healthy) (sealTurn P ts)
      (fun s => (s.1, s.2.map fun turn => ⟨turn.1, turn.2⟩)) id := by
  rintro ⟨node, turns⟩ raw
  cases turns with
  | nil => rfl
  | cons turn turns => rfl

/-- A sweep that was run to its end is what the validator does with the commit, and then serves what
came late. -/
theorem executeAmid_of_sweepRun {commit : CommittedSubDag ρ} {node : KanariNode}
    {rest : List Bytes} {events : List (SweepEvent Request SealIo)}
    (h : sweepRun (Executor.serve P) (Executor.sealAt P (v.clampedTs commit))
      (v.node, .sweeping ⟨enqueue v.pending (orderedPayloads [commit]), [], false⟩) events =
        some (node, .done rest)) :
    ∃ turns later, v.moves P (.deliver ⟨commit, turns⟩ :: later.map .serve) =
        ⟨node, v.clampedTs commit, rest⟩ ∧
      requestsOf events = turns.flatMap (·.requests) ++ later := by
  obtain ⟨turns, later, u, -, hsweep, rfl, hrequests⟩ := exists_turns .healthy h
  rw [resume_start] at hsweep
  have hproject := (amid_projects (P := P) (v.clampedTs commit)).sweep (v.node, turns)
    (enqueue v.pending (orderedPayloads [commit]))
  rw [List.map_id, hsweep] at hproject
  refine ⟨turns.map fun turn => ⟨turn.1, turn.2⟩, later, ?_, ?_⟩
  · have hmove : v.move P (.deliver ⟨commit, turns.map fun turn => ⟨turn.1, turn.2⟩⟩) =
        ⟨u, v.clampedTs commit, rest⟩ := by
      simp only [move, executeAmid, hproject, List.map_id]
    rw [moves, List.foldl_cons, hmove]
    exact moves_serve later
  · rw [hrequests, List.flatMap_map]

end ValidatorNode

namespace Executor

variable {P : Platform} {ρ : Type} [DecidableEq ρ]

/-- The moves account for the events so far: all of them, or all but the commit that is swept and
the events since. -/
inductive Explained (P : Platform) (start : KanariNode) (events : List (ExecutorEvent ρ)) :
    Executor → Prop
  | waiting (moves : List (Move ρ)) (v : ValidatorNode)
      (hmoves : (ValidatorNode.spawn start).moves P moves = v)
      (hcommits : Move.commits moves = ExecutorEvent.commits events)
      (hrequests : Move.requests moves = ExecutorEvent.requests events) :
      Explained P start events ⟨v.node, v.lastTs, .done v.pending⟩
  | sweeping (moves : List (Move ρ)) (v : ValidatorNode) (commit : CommittedSubDag ρ)
      (since : List (SweepEvent Request SealIo)) (node : KanariNode) (cursor : Cursor Bytes)
      (hmoves : (ValidatorNode.spawn start).moves P moves = v)
      (hrun : sweepRun (serve P) (sealAt P (v.clampedTs commit))
        (v.node, .sweeping ⟨enqueue v.pending (orderedPayloads [commit]), [], false⟩) since =
          some (node, .sweeping cursor))
      (hcommits : Move.commits moves ++ [commit] = ExecutorEvent.commits events)
      (hrequests : Move.requests moves ++ requestsOf since = ExecutorEvent.requests events) :
      Explained P start events ⟨node, v.clampedTs commit, .sweeping cursor⟩

theorem Explained.step {start : KanariNode} {events : List (ExecutorEvent ρ)} {x x' : Executor}
    (h : Explained P start events x) {event : ExecutorEvent ρ} (hstep : x.step P event = some x') :
    Explained P start (events ++ [event]) x' := by
  cases h with
  | waiting moves v hmoves hcommits hrequests =>
    cases event with
    | receive commit =>
      cases hstep
      -- the commit stays pending in the history until its sweep is done
      refine .sweeping moves v commit [] v.node _ hmoves rfl ?_ ?_
      · rw [hcommits]
        simp [ExecutorEvent.commits]
      · rw [hrequests]
        simp [ExecutorEvent.requests, requestsOf]
    | sweep event =>
      cases event with
      | serve request =>
        cases hstep
        refine .waiting (moves ++ [.serve request]) { v with node := v.node.perform P request.op }
          ?_ ?_ ?_
        · rw [ValidatorNode.moves, List.foldl_append]
          rw [ValidatorNode.moves] at hmoves
          rw [hmoves]
          rfl
        · rw [ExecutorEvent.commits_append_sweep, ← hcommits]
          simp [Move.commits]
        · rw [ExecutorEvent.requests_append_sweep, ← hrequests]
          simp [Move.requests, requestsOf]
      | attempt io => cases hstep
      | endPass => cases hstep
  | sweeping moves v commit since node cursor hmoves hrun hcommits hrequests =>
    cases event with
    | receive next => cases hstep
    | sweep event =>
      obtain ⟨⟨node', phase⟩, hnext, rfl⟩ := Option.map_eq_some_iff.mp hstep
      have hsince : sweepRun (serve P) (sealAt P (v.clampedTs commit))
          (v.node, .sweeping ⟨enqueue v.pending (orderedPayloads [commit]), [], false⟩)
          (since ++ [event]) = some (node', phase) := by
        rw [sweepRun] at hrun ⊢
        rw [List.foldlM_append, hrun]
        simpa using hnext
      have hrequests' : Move.requests moves ++ requestsOf (since ++ [event]) =
          ExecutorEvent.requests (events ++ [.sweep event]) := by
        rw [ExecutorEvent.requests_append_sweep, ← hrequests]
        simp [requestsOf]
      cases phase with
      | sweeping cursor' =>
        refine .sweeping moves v commit (since ++ [event]) node' cursor' hmoves hsince ?_ hrequests'
        rw [ExecutorEvent.commits_append_sweep, hcommits]
      | done rest =>
        -- the sweep is over: its steps become one delivery, with the requests in its turns,
        -- followed by those that came after the last attempt
        obtain ⟨turns, later, hdeliver, hturns⟩ := ValidatorNode.executeAmid_of_sweepRun hsince
        refine .waiting (moves ++ .deliver ⟨commit, turns⟩ :: later.map .serve)
          ⟨node', v.clampedTs commit, rest⟩ ?_ ?_ ?_
        · rw [← hdeliver, ← hmoves]
          exact List.foldl_append
        · rw [ExecutorEvent.commits_append_sweep, ← hcommits]
          simp [Move.commits, List.filterMap_map]
        · rw [← hrequests', hturns]
          simp [Move.requests, List.flatMap_map]

theorem run_explained {start : KanariNode} {events : List (ExecutorEvent ρ)} {x : Executor}
    (h : (spawn start).run P events = some x) : Explained P start events x := by
  induction events using List.reverseRecOn generalizing x with
  | nil =>
    cases h
    exact .waiting [] (ValidatorNode.spawn start) rfl rfl rfl
  | append_singleton events event ih =>
    rw [run, List.foldlM_append] at h
    obtain ⟨mid, hmid, hlast⟩ := Option.bind_eq_some_iff.mp h
    refine (ih hmid).step ?_
    simpa using hlast

/-- The commit loop works one lock at a time, with requests in any order between the attempts of its
sweeps. Whenever it waits for the next commit, it is where a validator is that executes the same
commits one by one, each amid some of the requests: all of them, in the order they came. -/
theorem executor_refines_deliveries {start : KanariNode} {events : List (ExecutorEvent ρ)}
    {node : KanariNode} {lastTs : U64} {pending : List Bytes}
    (h : (spawn start).run P events = some ⟨node, lastTs, .done pending⟩) :
    ∃ moves : List (Move ρ), (ValidatorNode.spawn start).moves P moves = ⟨node, lastTs, pending⟩ ∧
      Move.commits moves = ExecutorEvent.commits events ∧
      Move.requests moves = ExecutorEvent.requests events := by
  generalize hx : (⟨node, lastTs, .done pending⟩ : Executor) = x at h
  cases run_explained h with
  | waiting moves v hmoves hcommits hrequests =>
    cases hx
    exact ⟨moves, hmoves, hcommits, hrequests⟩
  | sweeping => cases hx

def transferAmidReads : List (ExecutorEvent ℕ) :=
  [.receive ⟨0, [⟨0, 5, [Reference.transfer0]⟩]⟩, .sweep (.serve (.read (.balanceOf 0xdead))),
    .sweep (.attempt .healthy), .sweep (.serve (.read (.nonceOf 0xdead))), .sweep .endPass]

theorem executor_refines_deliveries_transfer :
    let start := KanariNode.created Reference.platform Reference.spec
    ∃ node, (spawn start).run Reference.platform transferAmidReads = some ⟨node, 5, .done []⟩ ∧
      ∃ moves : List (Move ℕ),
        (ValidatorNode.spawn start).moves Reference.platform moves = ⟨node, 5, []⟩ ∧
        Move.requests moves = [.read (.balanceOf 0xdead), .read (.nonceOf 0xdead)] := by
  intro start
  have hdone : ((spawn start).run Reference.platform transferAmidReads).map
      (fun x => (x.lastTs, x.phase)) = some (5, .done []) := by decide +kernel
  obtain ⟨⟨node, lastTs, phase⟩, hrun, hx⟩ := Option.map_eq_some_iff.mp hdone
  cases hx
  obtain ⟨moves, hmoves, -, hrequests⟩ := executor_refines_deliveries hrun
  exact ⟨node, hrun, moves, hmoves, hrequests⟩

/-- The loop leaves the mempool channel alone, tries nothing but what it has or is given, and turns
some of what it has into blocks. -/
structure Works (x x' : Executor) (given : List Bytes) : Prop where
  sender : x'.node.dagSender = x.node.dagSender
  inputs : x'.phase.inputs ⊆ x.phase.inputs ++ given
  blocks : ∃ new, x'.node.blocks = x.node.blocks ++ new ∧
    ∀ block ∈ new, block.txs ⊆ x.phase.inputs

omit [DecidableEq ρ] in
theorem enqueue_subset (pending payloads : List Bytes) :
    enqueue pending payloads ⊆ pending ++ payloads := by
  rw [enqueue_eq_drop]
  exact List.drop_subset _ _

theorem Works.of_blocks_eq {x x' : Executor} {given : List Bytes}
    (hsender : x'.node.dagSender = x.node.dagSender)
    (hinputs : x'.phase.inputs ⊆ x.phase.inputs ++ given)
    (hblocks : x'.node.blocks = x.node.blocks) : x.Works x' given :=
  ⟨hsender, hinputs, [], by rw [hblocks, List.append_nil],
    fun _ hblock => absurd hblock List.not_mem_nil⟩

theorem receive_works {x x' : Executor} {commit : CommittedSubDag ρ}
    (h : x.step P (.receive commit) = some x') : x.Works x' (orderedPayloads [commit]) := by
  obtain ⟨node, lastTs, phase⟩ := x
  cases phase with
  | sweeping cursor => cases h
  | done pending =>
    cases h
    refine .of_blocks_eq rfl ?_ rfl
    intro raw hraw
    rw [Phase.inputs, List.append_nil] at hraw
    exact enqueue_subset pending _ hraw

theorem attempt_works {x x' : Executor} {io : SealIo}
    (h : x.step P (.sweep (.attempt io) : ExecutorEvent ρ) = some x') : x.Works x' [] := by
  obtain ⟨node, lastTs, phase⟩ := x
  cases phase with
  | done rest => cases h
  | sweeping cursor =>
    cases htodo : cursor.todo with
    | nil => simp [step, sweepStep, htodo] at h
    | cons raw todo =>
      simp only [step, sweepStep, htodo, Option.map_some, Option.some.injEq] at h
      subst h
      obtain ⟨hsender, hsealed⟩ := node.sealCommitted_blocks (P := P) raw lastTs io
      have hinputs : (Phase.sweeping (cursor.next raw todo
          (node.sealCommitted P raw lastTs io).2.isOk)).inputs ⊆
            (Phase.sweeping cursor).inputs ++ [] := by
        rw [List.append_nil]
        exact Cursor.inputs_next htodo _
      rcases hsealed with ⟨-, block, hblocks, htxs, -⟩ | ⟨-, hblocks⟩
      · refine ⟨hsender, hinputs, [block], hblocks, fun block' hblock => ?_⟩
        rw [List.mem_singleton.mp hblock, htxs]
        simp [Phase.inputs, htodo]
      · exact .of_blocks_eq hsender hinputs hblocks

theorem endPass_works {x x' : Executor}
    (h : x.step P (.sweep .endPass : ExecutorEvent ρ) = some x') :
    x.Works x' [] := by
  obtain ⟨node, lastTs, phase⟩ := x
  cases phase with
  | done rest => cases h
  | sweeping cursor =>
    obtain ⟨todo, kept, progress⟩ := cursor
    cases todo with
    | cons raw todo => cases h
    | nil =>
      cases h
      refine .of_blocks_eq rfl ?_ rfl
      dsimp only
      split_ifs
      · simp [Phase.inputs]
      · simp [Phase.inputs]

def ownSteps (events : List (ExecutorEvent ρ)) : ℕ :=
  (events.map fun
    | .receive _ => 0
    | .sweep event => event.isStep.toNat).sum

omit [DecidableEq ρ] in
theorem length_enqueue_le (pending payloads : List Bytes) :
    (enqueue pending payloads).length ≤ maxPendingPayloads := by
  rw [enqueue_eq_drop, List.length_drop]
  omega

theorem bound_of_enqueue (pending payloads : List Bytes) :
    (Phase.sweeping ⟨enqueue pending payloads, [], false⟩).bound ≤ 8394752 := by
  have hle := length_enqueue_le pending payloads
  have htriangle := triangle_mono hle
  have hfull : triangle maxPendingPayloads = 8390656 := by decide
  rw [bound_start]
  rw [maxPendingPayloads] at hle
  omega

theorem bound_run {x x' : Executor} {events : List (ExecutorEvent ρ)}
    (h : x.run P events = some x') :
    ownSteps events + x'.phase.bound ≤
      x.phase.bound + (ExecutorEvent.commits events).length * 8394752 := by
  induction events generalizing x with
  | nil =>
    cases h
    simp [ownSteps]
  | cons event events ih =>
    obtain ⟨mid, hmid, hrest⟩ := Option.bind_eq_some_iff.mp h
    have hlater := ih hrest
    cases event with
    | receive commit =>
      obtain ⟨node, lastTs, phase⟩ := x
      cases phase with
      | sweeping cursor => cases hmid
      | done pending =>
        cases hmid
        -- a new sweep has at most 4096 payloads to begin with, which bounds its steps
        have hcost := bound_of_enqueue pending (orderedPayloads [commit])
        simp only [ownSteps, ExecutorEvent.commits, List.map_cons, List.sum_cons,
          List.filterMap_cons, List.length_cons] at hlater ⊢
        omega
    | sweep event =>
      obtain ⟨next, hnext, rfl⟩ := Option.map_eq_some_iff.mp hmid
      have hstep : event.isStep.toNat + next.2.bound ≤ x.phase.bound := bound_step hnext
      simp only [ownSteps, ExecutorEvent.commits, List.map_cons, List.sum_cons,
        List.filterMap_cons] at hlater ⊢
      omega

/-- However many requests others have served in between, the loop is never stuck in a commit and
spends at most 8394752 steps on each: attempts to seal, and ends of passes. -/
theorem commit_takes_bounded_steps {start : KanariNode} {events : List (ExecutorEvent ρ)}
    {x : Executor} (h : (spawn start).run P events = some x) :
    ownSteps events ≤ (ExecutorEvent.commits events).length * 8394752 ∧
      ∀ cursor, x.phase = .sweeping cursor → ∀ io,
        ∃ event ∈ [SweepEvent.attempt io, .endPass],
          (x.step P (.sweep event : ExecutorEvent ρ)).isSome := by
  refine ⟨?_, fun cursor hphase io => ?_⟩
  · have hbound := bound_run h
    have hstart : (spawn start).phase.bound = 0 := rfl
    omega
  · obtain ⟨event, hmem, hsome⟩ :=
      exists_sweepStep (serve P) (sealAt P x.lastTs) x.node cursor io
    refine ⟨event, hmem, ?_⟩
    rw [step, hphase, Option.isSome_map]
    exact hsome

theorem commit_takes_bounded_steps_transfer :
    ownSteps transferAmidReads = 2 ∧
      ownSteps transferAmidReads ≤ (ExecutorEvent.commits transferAmidReads).length * 8394752 := by
  have hruns : ((spawn (.created Reference.platform Reference.spec)).run Reference.platform
      transferAmidReads).isSome := by decide +kernel
  obtain ⟨x, hx⟩ := Option.isSome_iff_exists.mp hruns
  exact ⟨rfl, (commit_takes_bounded_steps hx).1⟩

end Executor

end KanariEvm
