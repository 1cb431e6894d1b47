import VllmRbln.Scheduler.Phase

/-! The count of the decode budget through one `schedule()` call: it is kept by hand, where a
request joins the step's batch, where it is preempted out of it and where a prefill pushes the
decodes out. -/
namespace VllmRbln.Scheduler

set_option linter.unusedSectionVars false

open SubBlock Run

variable {H X : Type} [DecidableEq H]

namespace Locals

/-- Decode requests of the step's batch. -/
def numDecodes (locals : Locals H) : Nat :=
  locals.scheduledReqs.countP fun id => !(locals.st.requests id).isPrefill

/-- Prefills that the running loop scheduled. -/
def numRunningPrefills (locals : Locals H) : Nat :=
  locals.scheduledRunningReqs.countP fun id => (locals.st.requests id).isPrefill

end Locals

/-- Where a `schedule()` call stands: at the head of the running loop, inside a round of it while
blocks are found for a request, behind that loop, at the head of the waiting loop, or behind it. -/
inductive Stage
  | running
  | allocating (id : ReqId)
  | ran
  | waiting
  | waited

/-- The budget of a call. -/
def State.budget (cfg : Config) (up : Upstream H) (s : State H) : DecodeBatchBudget :=
  DecodeBatchBudget.forStep cfg (s.decodeDemand up.numReadyRemoteKv)

/-- The points that a `schedule()` call passes. -/
inductive At (cfg : Config) (hashing : Hashing H X) (up : Upstream H) (s : State H) :
    Stage → Locals H → Prop
  | start (hCap : (s.budget cfg up).hardCap ≠ 0) :
      At cfg hashing up s .running (Locals.start cfg up s)
  | round {locals locals' : Locals H} (prior : At cfg hashing up s .running locals)
      (hRound : locals.runningRound cfg hashing up (s.budget cfg up) = some (.more locals')) :
      At cfg hashing up s .running locals'
  | allocating {locals locals' : Locals H} {id : ReqId} (prior : At cfg hashing up s .running locals)
      (hIndex : locals.st.running[locals.reqIndex]? = some id)
      (hPreempted : PreemptedFor cfg hashing up id locals locals') :
      At cfg hashing up s (.allocating id) locals'
  | ran {locals locals' : Locals H} (prior : At cfg hashing up s .running locals)
      (hRound : locals.runningRound cfg hashing up (s.budget cfg up) = some (.stop locals')) :
      At cfg hashing up s .ran locals'
  | waiting {locals : Locals H} (prior : At cfg hashing up s .ran locals)
      (hEnters : ¬ locals.skipsWaiting up) : At cfg hashing up s .waiting locals
  | waitingRound {locals locals' : Locals H} (prior : At cfg hashing up s .waiting locals)
      (hRound : locals.waitingRound cfg hashing up (s.budget cfg up) = some (.more locals')) :
      At cfg hashing up s .waiting locals'
  | waited {locals locals' : Locals H} (prior : At cfg hashing up s .waiting locals)
      (hRound : locals.waitingRound cfg hashing up (s.budget cfg up) = some (.stop locals')) :
      At cfg hashing up s .waited locals'

/-! ### The running loop -/

/-- In the running loop the count is the number of scheduled requests. -/
def CountsRunning (locals : Locals H) : Prop :=
  locals.admitted = locals.scheduledRunningReqs.length

theorem length_filter_ne {ids : List ReqId} (hNodup : ids.Nodup) {id : ReqId} (hMem : id ∈ ids) :
    (ids.filter (· ≠ id)).length = ids.length - 1 := by
  have hErase : ids.erase id = ids.filter (· ≠ id) := by
    rw [hNodup.erase_eq_filter]
    apply List.filter_congr
    intro other _
    by_cases hEq : other = id <;> simp [hEq]
  rw [← hErase, List.length_erase_of_mem hMem]

/-- Preempting a request takes it off the count exactly if it is scheduled, and the count is not
zero then. -/
theorem preempt_counts {cfg : Config} (hashing : Hashing H X) (up : Upstream H) {id : ReqId}
    {locals : Locals H} (hOk : RunningOk cfg locals)
    (hFcfs : cfg.priorityPolicy = false → id ∉ locals.scheduledRunningReqs)
    (hCounts : CountsRunning locals) :
    ∃ locals', locals.preempt cfg hashing up id = some locals' ∧ CountsRunning locals' ∧
      locals'.admitted ≤ locals.admitted := by
  have hNodup : locals.scheduledRunningReqs.Nodup := hOk.scheduledReqs_eq ▸ hOk.books.nodup
  unfold CountsRunning at hCounts
  by_cases hMem : id ∈ locals.scheduledRunningReqs
  · have hPriority : cfg.priorityPolicy = true := by
      by_contra hNot
      exact hFcfs (by simpa using hNot) hMem
    have hPos : locals.admitted ≠ 0 := by
      rw [hCounts]
      exact List.length_pos_iff.2 (List.ne_nil_of_mem hMem) |>.ne'
    simp only [Locals.preempt, hPriority, hMem, and_self, if_true, Locals.unschedule, hPos,
      if_false, Option.pure_def, Option.bind_eq_bind, Option.bind_some]
    refine ⟨_, rfl, ?_, Nat.sub_le _ 1⟩
    show locals.admitted - 1 = (locals.scheduledRunningReqs.filter (· ≠ id)).length
    rw [length_filter_ne hNodup hMem, hCounts]
  · simp only [Locals.preempt, hMem, and_false, if_false, Option.pure_def, Option.bind_eq_bind,
      Option.bind_some]
    exact ⟨_, rfl, hCounts, Nat.le_refl _⟩

/-- The rule of a property that says nothing, for what the loop keeps in any case. -/
theorem trivial_running (cfg : Config) (hashing : Hashing H X) (up : Upstream H) :
    RunningRule cfg hashing up fun _ => True := by
  constructor <;> simp

theorem PreemptedFor.counts {cfg : Config} {hashing : Hashing H X} {up : Upstream H} {id : ReqId}
    {start locals : Locals H} (hRound : InRound cfg id start)
    (prior : PreemptedFor cfg hashing up id start locals) (hCounts : CountsRunning start) :
    CountsRunning locals ∧ locals.admitted ≤ start.admitted := by
  induction prior with
  | refl => exact ⟨hCounts, Nat.le_refl _⟩
  | step prior hVictim _ hPreempt ih =>
      obtain ⟨hCounts, hLe⟩ := ih
      have hIn := ((trivial_running cfg hashing up).preemptedFor trivial hRound prior).1
      obtain ⟨next, hNext, hNextCounts, hNextLe⟩ :=
        preempt_counts hashing up hIn.ok (hIn.victim_notMem hVictim) hCounts
      rw [hPreempt] at hNext
      cases hNext
      exact ⟨hNextCounts, Nat.le_trans hNextLe hLe⟩

/-- A round of the running loop counts what it schedules, and goes on only under the cap. -/
theorem runningRound_counts {cfg : Config} {hashing : Hashing H X} {up : Upstream H}
    {budget : DecodeBatchBudget} {locals : Locals H} (hOk : RunningOk cfg locals)
    (hCounts : CountsRunning locals) (hUnder : locals.admitted < budget.hardCap)
    {next : Next (Locals H)} (hRound : locals.runningRound cfg hashing up budget = some next) :
    ∃ locals', CountsRunning locals' ∧ (next = .stop locals' ∧ locals'.admitted ≤ budget.hardCap ∨
      next = .more locals' ∧ locals'.admitted < budget.hardCap) := by
  unfold Locals.runningRound at hRound
  split at hRound
  · exact ⟨locals, hCounts, .inl ⟨(Option.some.inj hRound).symm, Nat.le_of_lt hUnder⟩⟩
  rename_i id hIndex
  split at hRound
  · exact ⟨locals, hCounts, .inl ⟨(Option.some.inj hRound).symm, Nat.le_of_lt hUnder⟩⟩
  dsimp only at hRound
  split at hRound
  · exact ⟨{ locals with reqIndex := locals.reqIndex + 1 }, hCounts,
      .inr ⟨(Option.some.inj hRound).symm, hUnder⟩⟩
  split at hRound
  · cases hRound
  have hIn := hOk.inRound hIndex
  split at hRound
  · cases hRound
  · rename_i last hAlloc
    obtain ⟨last', prior, ⟨_, _, hBlocks, -⟩ | ⟨-, hVictim, hPreempt⟩⟩ :=
      allocateOrPreempt_cases .refl hAlloc
    · cases hBlocks
    · obtain ⟨hPriorCounts, hPriorLe⟩ := prior.counts hIn hCounts
      have hLast := ((trivial_running cfg hashing up).preemptedFor trivial hIn prior).1
      obtain ⟨locals', hPreempted, hLastCounts, hLastLe⟩ :=
        preempt_counts hashing up hLast.ok (hLast.victim_notMem hVictim) hPriorCounts
      rw [hPreempt] at hPreempted
      cases hPreempted
      exact ⟨_, hLastCounts, .inl ⟨(Option.some.inj hRound).symm, by omega⟩⟩
  · rename_i last newBlocks hAlloc
    obtain ⟨last', prior, ⟨kv, _, hBlocks, -, rfl⟩ | ⟨hNone, -⟩⟩ :=
      allocateOrPreempt_cases .refl hAlloc
    · obtain ⟨hPriorCounts, hPriorLe⟩ := prior.counts hIn hCounts
      have hGranted : CountsRunning (Locals.scheduleRunning
          { last' with st := { last'.st with kv := kv } } id
          ((locals.st.requests id).runningTokens cfg locals.tokenBudget).toNat newBlocks) := by
        show last'.admitted + 1 = (last'.scheduledRunningReqs ++ [id]).length
        rw [List.length_append, hPriorCounts]
        rfl
      refine ⟨_, hGranted, ?_⟩
      split at hRound
      · rename_i hCan
        simp only [DecodeBatchBudget.canAdmit, Bool.decide_and, Bool.and_eq_true,
          decide_eq_true_eq] at hCan
        exact .inr ⟨(Option.some.inj hRound).symm, hCan.1⟩
      · refine .inl ⟨(Option.some.inj hRound).symm, ?_⟩
        show last'.admitted + 1 ≤ budget.hardCap
        omega
    · cases hNone

/-! ### The waiting loop -/

/-- In the waiting loop the count is the number of scheduled requests, and every one that comes
from a waiting queue is a decode. -/
structure CountsWaiting (locals : Locals H) : Prop where
  admitted : locals.admitted = locals.scheduledReqs.length
  decodes : ∀ id ∈ locals.scheduledNewReqs ++ locals.scheduledResumedReqs,
    (locals.st.requests id).isPrefill = false

/-- A prefill has the step for itself, and is not counted. -/
structure TakenByPrefill (locals : Locals H) : Prop where
  admitted : locals.admitted = 0
  noRunning : locals.scheduledRunningReqs = []
  alone : locals.scheduledReqs.length = 1
  prefills : ∀ id ∈ locals.scheduledReqs, (locals.st.requests id).isPrefill = true

theorem CountsRunning.waiting {cfg : Config} {locals : Locals H} (hOk : RunningOk cfg locals)
    (hCounts : CountsRunning locals) : CountsWaiting locals where
  admitted := hOk.scheduledReqs_eq ▸ hCounts
  decodes := by simp [hOk.noNew, hOk.noResumed]

/-- What happens to a queued request leaves the count of the batch. -/
theorem CountsWaiting.queued {cfg : Config} {locals locals' : Locals H} {id : ReqId}
    (hCounts : CountsWaiting locals) (hOk : WaitingOk cfg locals)
    (hMem : id ∈ locals.st.waiting ++ locals.st.skippedWaiting) {request : Request}
    (hRequests : locals'.st.requests = Function.update locals.st.requests id request)
    (hAdmitted : locals'.admitted = locals.admitted)
    (hRunning : locals'.scheduledRunningReqs = locals.scheduledRunningReqs)
    (hNew : locals'.scheduledNewReqs = locals.scheduledNewReqs)
    (hResumed : locals'.scheduledResumedReqs = locals.scheduledResumedReqs) :
    CountsWaiting locals' where
  admitted := by
    rw [hAdmitted, hCounts.admitted]
    simp only [Locals.scheduledReqs, hRunning, hNew, hResumed]
  decodes other hOther := by
    rw [hNew, hResumed] at hOther
    have hScheduled : other ∈ locals.scheduledReqs := by
      rw [Locals.scheduledReqs, List.append_assoc]
      exact List.mem_append_right _ hOther
    have hNe : other ≠ id := by
      rintro rfl
      exact hOk.queues.notMem_running_of_queued hMem (hOk.books.running other hScheduled)
    rw [hRequests, Function.update_of_ne hNe]
    exact hCounts.decodes other hOther

section Seated

variable {cfg : Config} {hashing : Hashing H X} {up : Upstream H} {id : ReqId} {numNewTokens : Nat}
  {start locals : Locals H} {found : Locals.Computed} {kv : Manager H} {newBlocks : Blocks}
  {ops : List KVCacheCopyOp}

/-- A decode that joins is counted with the rest. -/
theorem Seated.counts
    (hSeated : Seated cfg hashing up id numNewTokens start locals found kv newBlocks ops)
    (hCounts : CountsWaiting locals)
    (hDecode : ¬ (found.numComputedTokens < (locals.st.requests id).numTokens - 1)) :
    CountsWaiting { (locals.seatWaiting kv ops).admitWaiting id found.numComputedTokens 1 with
      admitted := locals.admitted + 1 } where
  admitted := by
    have hPerm := admitWaiting_scheduledReqs (locals.seatWaiting kv ops) id found.numComputedTokens 1
    show locals.admitted + 1 =
      ((locals.seatWaiting kv ops).admitWaiting id found.numComputedTokens 1).scheduledReqs.length
    rw [hPerm.length_eq, List.length_append, hCounts.admitted]
    rfl
  decodes other hOther := by
    by_cases hEq : other = id
    · subst hEq
      apply Bool.eq_false_iff.2
      intro hPrefill
      apply hDecode
      exact (admitWaiting_isPrefill locals kv ops other found.numComputedTokens 1).1 hPrefill
    · have hOld : other ∈ locals.scheduledNewReqs ++ locals.scheduledResumedReqs := by
        by_cases hResumed : (locals.st.requests id).status = .preempted
        · simpa [Locals.admitWaiting, Locals.seatWaiting, hResumed, hEq] using hOther
        · simpa [Locals.admitWaiting, Locals.seatWaiting, hResumed, hEq] using hOther
      have hSame : ((locals.seatWaiting kv ops).admitWaiting id found.numComputedTokens
          1).st.requests other = locals.st.requests other := Function.update_of_ne hEq ..
      show (((locals.seatWaiting kv ops).admitWaiting id found.numComputedTokens
        1).st.requests other).isPrefill = false
      rw [hSame]
      exact hCounts.decodes other hOld

/-- A prefill that is admitted drops the batch and its count. -/
theorem Seated.takes
    (hSeated : Seated cfg hashing up id numNewTokens start locals found kv newBlocks ops)
    (hLeft : found.numComputedTokens < (locals.st.requests id).numTokens - 1)
    (hGuard : ¬ ((locals.st.requests id).isPrefill = true ∧
      (locals.scheduledNewReqs ≠ [] ∨ locals.scheduledResumedReqs ≠ []))) (numTokens : Nat) :
    TakenByPrefill (((locals.seatWaiting kv ops).admitWaiting id found.numComputedTokens
      numTokens).evictDecodes cfg) := by
  have hNone : locals.scheduledNewReqs = [] ∧ locals.scheduledResumedReqs = [] := by
    by_contra hNot
    apply hGuard
    constructor
    · exact hSeated.isPrefill (by omega)
    · by_contra hBoth
      simp only [not_or, not_not] at hBoth
      exact hNot hBoth
  have hNot : id ∉ locals.scheduledRunningReqs := fun hIn =>
    hSeated.ok.queues.notMem_running_of_queued hSeated.queued_locals
      (hSeated.ok.books.running id (by simp [Locals.scheduledReqs, hIn]))
  have hEvict := evictDecodes_eq cfg
    (hSeated.startRunning found.numComputedTokens numTokens).scheduledRunning_nodup
  have hScheduled : (((locals.seatWaiting kv ops).admitWaiting id found.numComputedTokens
      numTokens).evictDecodes cfg).scheduledReqs = [id] := by
    rw [hEvict]
    by_cases hResumed : (locals.st.requests id).status = .preempted
    · simp [Locals.scheduledReqs, Locals.withoutDecodes, Locals.admitWaiting, Locals.seatWaiting,
        hNone, hResumed]
    · simp [Locals.scheduledReqs, Locals.withoutDecodes, Locals.admitWaiting, Locals.seatWaiting,
        hNone, hResumed]
  constructor
  · rw [hEvict]
  · rw [hEvict]
  · rw [hScheduled]
    rfl
  · intro other hOther
    rw [hScheduled, List.mem_singleton] at hOther
    subst hOther
    have hPrefill := (admitWaiting_isPrefill locals kv ops other found.numComputedTokens
      numTokens).2 hLeft
    have hOut : other ∉ ((locals.seatWaiting kv ops).admitWaiting other found.numComputedTokens
        numTokens).scheduledRunningReqs := hNot
    rw [hEvict]
    simp only [Locals.withoutDecodes, hOut, if_false]
    exact hPrefill

end Seated

theorem counts_waiting (cfg : Config) (hashing : Hashing H X) (up : Upstream H) :
    WaitingRule cfg hashing up CountsWaiting fun locals =>
      CountsWaiting locals ∨ TakenByPrefill locals where
  last hInv := .inl hInv
  skip _ hInv _ _ := ⟨hInv.admitted, hInv.decodes⟩
  promote {locals id} numLoadedTokens hOk hInv _ hMem _ _ := by
    obtain ⟨status, numComputedTokens, hRequests, -⟩ :=
      promoteRequest_requests cfg hashing locals id numLoadedTokens
    obtain ⟨st, hEq, -⟩ := promoteRequest_eq cfg hashing locals id numLoadedTokens
    apply hInv.queued hOk hMem hRequests <;> rw [hEq]
  look {locals locals' id found} _ hInv _ _ hFound := by
    obtain ⟨kv, pins, unpins, subBlockMatch, rfl, -, -⟩ := hFound.looked.keeps
    exact ⟨hInv.admitted, hInv.decodes⟩
  await _ hInv hSeated _ _ :=
    hInv.queued hSeated.ok hSeated.queued_locals rfl rfl rfl rfl rfl
  join _ hInv hSeated _ _ _ hDecode _ := hSeated.counts hInv hDecode
  alone _ _ hSeated _ _ _ hLeft hGuard := .inr (hSeated.takes hLeft hGuard _)

theorem promoteRequest_admitted (cfg : Config) (hashing : Hashing H X) (locals : Locals H)
    (id : ReqId) (numLoadedTokens : Nat) :
    (locals.promoteRequest cfg hashing id numLoadedTokens).admitted = locals.admitted := by
  obtain ⟨st, hEq, -⟩ := promoteRequest_eq cfg hashing locals id numLoadedTokens
  rw [hEq]

/-- Admitting a request counts one more, or drops the count with the batch. -/
theorem tryAdmit_admitted {cfg : Config} {up : Upstream H} {locals : Locals H} {id : ReqId}
    {found : Locals.Computed} {next : Next (Locals H)}
    (hTry : locals.tryAdmit cfg up id found = some next) :
    ∃ locals', (next = .more locals' ∨ next = .stop locals') ∧
      locals'.admitted ≤ locals.admitted + 1 := by
  unfold Locals.tryAdmit at hTry
  split at hTry
  · split at hTry
    · cases hTry
    split at hTry
    · cases hTry
    · exact ⟨locals, .inr (Option.some.inj hTry).symm, Nat.le_succ _⟩
    · rename_i seated hAlloc
      obtain ⟨kv, newBlocks, ops, -, -, rfl⟩ := allocateWaiting_spec hAlloc
      exact ⟨_, .inl (Option.some.inj hTry).symm, Nat.le_succ locals.admitted⟩
  dsimp only at hTry
  split at hTry
  · cases hTry
  split at hTry
  · exact ⟨locals, .inr (Option.some.inj hTry).symm, Nat.le_succ _⟩
  split at hTry
  · cases hTry
  · exact ⟨locals, .inr (Option.some.inj hTry).symm, Nat.le_succ _⟩
  rename_i seated hAlloc
  obtain ⟨kv, newBlocks, ops, -, -, rfl⟩ := allocateWaiting_spec hAlloc
  unfold Locals.joinStep at hTry
  dsimp only at hTry
  split at hTry
  · cases hTry
  split at hTry
  · exact ⟨_, .inr (Option.some.inj hTry).symm, Nat.zero_le _⟩
  split at hTry
  · cases hTry
  · exact ⟨_, .inl (Option.some.inj hTry).symm, Nat.le_refl _⟩

/-- Whatever a waiting round does, it admits under the cap. -/
theorem waitingRound_admitted {cfg : Config} {hashing : Hashing H X} {up : Upstream H}
    {budget : DecodeBatchBudget} {locals : Locals H} (hLe : locals.admitted ≤ budget.hardCap)
    {next : Next (Locals H)} (hRound : locals.waitingRound cfg hashing up budget = some next) :
    ∃ locals', (next = .more locals' ∨ next = .stop locals') ∧
      locals'.admitted ≤ budget.hardCap := by
  unfold Locals.waitingRound at hRound
  split at hRound
  · exact ⟨locals, .inr (Option.some.inj hRound).symm, hLe⟩
  rename_i id _
  dsimp only at hRound
  split at hRound
  · exact ⟨locals, .inr (Option.some.inj hRound).symm, hLe⟩
  rename_i hGuard
  have hUnder : locals.admitted < budget.hardCap := by
    simp only [DecodeBatchBudget.canAdmit, not_or, not_not, Bool.decide_and, Bool.and_eq_true,
      decide_eq_true_eq] at hGuard
    exact hGuard.2.2.1
  split at hRound
  · exact ⟨_, .inl (Option.some.inj hRound).symm, hLe⟩
  rename_i ready hPromoted
  have hReady : ready.admitted = locals.admitted := by
    split at hPromoted
    · obtain ⟨numLoadedTokens, -, rfl⟩ := Option.map_eq_some_iff.1 hPromoted
      exact promoteRequest_admitted cfg hashing locals id numLoadedTokens
    · rw [Option.some.inj hPromoted]
  split at hRound
  · cases hRound
  · rename_i last hFind
    rcases findComputed_spec rfl hFind with ⟨-, rfl⟩ | ⟨found, hEq, -⟩
    · apply Exists.intro
      constructor
      · exact .inl (Option.some.inj hRound).symm
      · show ready.admitted ≤ budget.hardCap
        rw [hReady]
        exact hLe
    · cases hEq
  · rename_i last found hFind
    rcases findComputed_spec rfl hFind with ⟨hEq, -⟩ | ⟨found', -, hFound⟩
    · cases hEq
    obtain ⟨kv, pins, unpins, subBlockMatch, rfl, -⟩ := hFound.looked.keeps
    obtain ⟨locals', hNext, hMore⟩ := tryAdmit_admitted hRound
    have hSucc : locals'.admitted ≤ ready.admitted + 1 := hMore
    exact ⟨locals', hNext, by omega⟩

/-! ### A whole call -/

/-- What the budget knows at each point of a call. -/
def BudgetOk (cfg : Config) (budget : DecodeBatchBudget) : Stage → Locals H → Prop
  | .running, locals =>
      RunningOk cfg locals ∧ CountsRunning locals ∧ locals.admitted < budget.hardCap
  | .allocating id, locals =>
      InRound cfg id locals ∧ CountsRunning locals ∧ locals.admitted < budget.hardCap
  | .ran, locals => RunningOk cfg locals ∧ CountsRunning locals ∧ locals.admitted ≤ budget.hardCap
  | .waiting, locals =>
      WaitingOk cfg locals ∧ locals.subBlockMatch = none ∧ CountsWaiting locals ∧
        locals.admitted ≤ budget.hardCap
  | .waited, locals =>
      WaitingOk cfg locals ∧ (CountsWaiting locals ∨ TakenByPrefill locals) ∧
        locals.admitted ≤ budget.hardCap

theorem At.ok {cfg : Config} {hashing : Hashing H X} {up : Upstream H} {s : State H}
    (hQueues : Queues cfg s []) {stage : Stage} {locals : Locals H}
    (point : At cfg hashing up s stage locals) : BudgetOk cfg (s.budget cfg up) stage locals := by
  induction point with
  | start hCap =>
      exact ⟨RunningOk.start up hQueues, rfl, Nat.pos_of_ne_zero hCap⟩
  | round _ hRound ih =>
      obtain ⟨hOk, hCounts, hUnder⟩ := ih
      obtain ⟨_, hMore, hCountsNext⟩ := runningRound_counts hOk hCounts hUnder hRound
      obtain ⟨locals', ⟨hEq, -⟩ | ⟨hEq, -⟩, hOk', -⟩ :=
        runningRound_rule (trivial_running cfg hashing up) hOk trivial hRound
      · cases hEq
      · cases hEq
        obtain ⟨hEq, -⟩ | ⟨hEq, hUnder'⟩ := hCountsNext
        · cases hEq
        · cases hEq
          exact ⟨hOk', hMore, hUnder'⟩
  | allocating _ hIndex hPreempted ih =>
      obtain ⟨hOk, hCounts, hUnder⟩ := ih
      have hIn := hOk.inRound hIndex
      obtain ⟨hCounts', hLe⟩ := hPreempted.counts hIn hCounts
      have hIn' := ((trivial_running cfg hashing up).preemptedFor trivial hIn hPreempted).1
      exact ⟨hIn', hCounts', Nat.lt_of_le_of_lt hLe hUnder⟩
  | ran _ hRound ih =>
      obtain ⟨hOk, hCounts, hUnder⟩ := ih
      obtain ⟨_, hMore, hCountsNext⟩ := runningRound_counts hOk hCounts hUnder hRound
      obtain ⟨locals', ⟨hEq, -⟩ | ⟨hEq, -⟩, hOk', -⟩ :=
        runningRound_rule (trivial_running cfg hashing up) hOk trivial hRound
      · cases hEq
        obtain ⟨hEq, hLe⟩ | ⟨hEq, -⟩ := hCountsNext
        · cases hEq
          exact ⟨hOk', hMore, hLe⟩
        · cases hEq
      · cases hEq
  | @waiting locals _ hEnters ih =>
      obtain ⟨hOk, hCounts, hLe⟩ := ih
      have hNoPreempted : locals.preemptedReqs = [] := by
        by_contra hNot
        exact hEnters (.inl hNot)
      exact ⟨⟨hOk.noSkipped ▸ hOk.queues, hOk.books, hNoPreempted⟩, hOk.noMatch,
        hCounts.waiting hOk, hLe⟩
  | waitingRound _ hRound ih =>
      obtain ⟨hOk, hNone, hCounts, hLe⟩ := ih
      obtain ⟨_, hNext, hLe'⟩ := waitingRound_admitted hLe hRound
      obtain ⟨locals', hOk', ⟨hEq, -⟩ | ⟨hEq, hCounts', hNone'⟩⟩ :=
        waitingRound_rule (counts_waiting cfg hashing up) hOk hCounts hNone hRound
      · cases hEq
      · cases hEq
        obtain hEq | hEq := hNext <;> cases hEq
        exact ⟨hOk', hNone', hCounts', hLe'⟩
  | waited _ hRound ih =>
      obtain ⟨hOk, hNone, hCounts, hLe⟩ := ih
      obtain ⟨_, hNext, hLe'⟩ := waitingRound_admitted hLe hRound
      obtain ⟨locals', hOk', ⟨hEq, hLast⟩ | ⟨hEq, -⟩⟩ :=
        waitingRound_rule (counts_waiting cfg hashing up) hOk hCounts hNone hRound
      · cases hEq
        obtain hEq | hEq := hNext <;> cases hEq
        exact ⟨hOk', hLast, hLe'⟩
      · cases hEq

theorem At.hardCap_ne {cfg : Config} {hashing : Hashing H X} {up : Upstream H} {s : State H}
    {stage : Stage} {locals : Locals H} (point : At cfg hashing up s stage locals) :
    (s.budget cfg up).hardCap ≠ 0 := by
  induction point with
  | start hCap => exact hCap
  | round _ _ ih | allocating _ _ _ ih | ran _ _ ih | waiting _ _ ih | waitingRound _ _ ih
  | waited _ _ ih => exact ih

/-- Each scheduled request that is running is a decode or a prefill. -/
theorem CountsWaiting.exact {locals : Locals H} (hCounts : CountsWaiting locals) :
    locals.admitted = locals.numDecodes + locals.numRunningPrefills := by
  have hQueued : (locals.scheduledNewReqs ++ locals.scheduledResumedReqs).countP
      (fun id => !(locals.st.requests id).isPrefill) =
        (locals.scheduledNewReqs ++ locals.scheduledResumedReqs).length := by
    rw [List.countP_eq_length]
    intro id hMem
    rw [hCounts.decodes id hMem]
    rfl
  have hRunning := List.length_eq_countP_add_countP (l := locals.scheduledRunningReqs)
    (fun id => (locals.st.requests id).isPrefill)
  have hNot : locals.scheduledRunningReqs.countP (fun id => !(locals.st.requests id).isPrefill) =
      locals.scheduledRunningReqs.countP
        (fun id => decide ¬ (locals.st.requests id).isPrefill = true) := by
    apply List.countP_congr
    intro id _
    simp
  rw [hCounts.admitted, Locals.numDecodes, Locals.numRunningPrefills, Locals.scheduledReqs,
    List.append_assoc, List.countP_append, List.length_append, hQueued, hNot]
  omega

/-- At every point the count is that of the decodes in the batch and of the prefill that the
running loop scheduled, and the batch fits the largest bucket. -/
theorem At.exact {cfg : Config} {hashing : Hashing H X} {up : Upstream H} {s : State H}
    (hQueues : Queues cfg s []) {stage : Stage} {locals : Locals H}
    (point : At cfg hashing up s stage locals) :
    locals.admitted = locals.numDecodes + locals.numRunningPrefills ∧
      locals.numScheduledTokens.length ≤ (s.budget cfg up).hardCap := by
  have hOk := point.ok hQueues
  have hCap := point.hardCap_ne
  have fits {locals : Locals H} (hBooks : Books locals) (hCounts : CountsWaiting locals)
      (hLe : locals.admitted ≤ (s.budget cfg up).hardCap) :
      locals.admitted = locals.numDecodes + locals.numRunningPrefills ∧
        locals.numScheduledTokens.length ≤ (s.budget cfg up).hardCap := by
    apply And.intro hCounts.exact
    rw [← List.length_map (f := Prod.fst), hBooks.keys.length_eq, ← hCounts.admitted]
    exact hLe
  cases stage with
  | running => exact fits hOk.1.books (hOk.2.1.waiting hOk.1) (Nat.le_of_lt hOk.2.2)
  | allocating id => exact fits hOk.1.ok.books (hOk.2.1.waiting hOk.1.ok) (Nat.le_of_lt hOk.2.2)
  | ran => exact fits hOk.1.books (hOk.2.1.waiting hOk.1) hOk.2.2
  | waiting => exact fits hOk.1.books hOk.2.2.1 hOk.2.2.2
  | waited =>
      obtain ⟨hWaiting, hCounts | hTaken, hLe⟩ := hOk
      · exact fits hWaiting.books hCounts hLe
      · constructor
        · have hNoDecodes : locals.numDecodes = 0 := by
            rw [Locals.numDecodes, List.countP_eq_zero]
            intro id hMem
            rw [hTaken.prefills id hMem]
            simp
          rw [hTaken.admitted, hNoDecodes, Locals.numRunningPrefills, hTaken.noRunning]
          rfl
        · rw [← List.length_map (f := Prod.fst), hWaiting.books.keys.length_eq, hTaken.alone]
          exact Nat.one_le_iff_ne_zero.2 hCap

/-- Dropping a preempted request from the count is never refused. -/
theorem At.discards {cfg : Config} {hashing : Hashing H X} {up : Upstream H} {s : State H}
    (hQueues : Queues cfg s []) {id worst : ReqId} {locals : Locals H}
    (point : At cfg hashing up s (.allocating id) locals)
    (hVictim : locals.victim cfg = some worst) :
    ∃ locals', locals.preempt cfg hashing up worst = some locals' := by
  obtain ⟨hIn, hCounts, -⟩ := point.ok hQueues
  obtain ⟨locals', hPreempt, -⟩ :=
    preempt_counts hashing up hIn.ok (hIn.victim_notMem hVictim) hCounts
  exact ⟨locals', hPreempt⟩

/-- A call that goes through ends at one of its points. -/
theorem loops_point {cfg : Config} {hashing : Hashing H X} {up : Upstream H} {s : State H}
    (hQueues : Queues cfg s []) {locals : Locals H}
    (hLoops : Locals.loops cfg hashing up s = some locals) :
    ∃ stage last, At cfg hashing up s stage last ∧
      locals.numScheduledTokens = last.numScheduledTokens := by
  unfold Locals.loops at hLoops
  dsimp only at hLoops
  split at hLoops
  · cases hLoops
  rename_i hCap
  obtain ⟨ran, hRunning, hWaiting⟩ := Option.bind_eq_some_iff.1 hLoops
  have hRan : At cfg hashing up s .ran ran := by
    apply loop_rule_of_measure (At cfg hashing up s .running) (At cfg hashing up s .ran)
      Locals.numAhead _ _ (.start hCap) _ hRunning
    · intro locals last point hRound
      exact .ran point hRound
    · intro locals last point hRound
      apply And.intro (.round point hRound)
      obtain ⟨locals', ⟨hEq, -⟩ | ⟨hEq, hLess⟩, -⟩ :=
        runningRound_rule (trivial_running cfg hashing up) (point.ok hQueues).1 trivial hRound
      · cases hEq
      · cases hEq
        exact hLess
    · exact Nat.lt_succ_of_le (Nat.sub_le ..)
  obtain ⟨-, rfl⟩ | ⟨hEnters, fuel, last, hLoop, rfl⟩ := scheduleWaiting_cases hWaiting
  · exact ⟨.ran, _, hRan, rfl⟩
  · have hLast : ∃ stage, At cfg hashing up s stage last := by
      apply loop_rule (At cfg hashing up s .waiting) (fun last => ∃ stage, At cfg hashing up s stage last)
        _ _ _ (.waiting hRan hEnters) hLoop
      · intro locals point
        exact ⟨_, point⟩
      · intro locals last point hRound
        exact ⟨_, .waited point hRound⟩
      · intro locals last point hRound
        exact .waitingRound point hRound
    obtain ⟨stage, point⟩ := hLast
    exact ⟨stage, last, point, rfl⟩

/-- In a reachable state, every point of a `schedule()` call has the exact count, no preemption is
refused, and the step that comes out fits the compiled buckets. -/
theorem decodeBudget_exact {cfg : Config} {hashing : Hashing H X} {actions : List (Action H)}
    {s : State H} (run : Reaches cfg hashing actions s) (up : Upstream H) :
    (∀ stage locals, At cfg hashing up s stage locals →
      locals.admitted = locals.numDecodes + locals.numRunningPrefills ∧
      ∀ id worst, stage = .allocating id → locals.victim cfg = some worst →
        ∃ locals', locals.preempt cfg hashing up worst = some locals') ∧
    ∀ s', step cfg hashing s (.schedule up) = some s' → ∃ output,
      s'.inFlight.getLast? = some output ∧ output.numScheduledTokens.length ≤
        cfg.maxNumRunningReqs / cfg.pipelineParallelSize := by
  have trivialRun : RunRule cfg hashing (fun _ => True) fun _ : State H => True := by
    constructor <;> simp
  obtain ⟨hQueues, -⟩ := run_rule trivialRun (fun _ _ => trivial) run
  constructor
  · intro stage locals point
    apply And.intro (point.exact hQueues).1
    rintro id worst rfl hVictim
    exact point.discards hQueues hVictim
  · intro s' hStep
    simp only [step] at hStep
    split at hStep
    · obtain ⟨locals, hLoops, -, rfl⟩ := schedule_cases hStep
      obtain ⟨stage, last, point, hSame⟩ := loops_point hQueues hLoops
      use locals.output
      constructor
      · simp [Locals.finish]
      · show locals.numScheduledTokens.length ≤ _
        rw [hSame]
        exact (point.exact hQueues).2
    · cases hStep

/-- A decode follows the prefill of its request. -/
theorem decodeBudget_exact_small : ∃ s s' output, Reaches Config.small Hashing.free
      [.addRequest 0 (.plain [1, 2, 3] 8), .schedule (.plain .small),
        .updateFromOutput (.constant 5)] s ∧
    step Config.small Hashing.free s (.schedule (.plain .small)) = some s' ∧
    s'.inFlight.getLast? = some output ∧ output.numScheduledTokens.length ≤ 4 := by
  obtain ⟨s, run, hHolds⟩ := Reaches.exists_of_any Config.small Hashing.free
    [.addRequest 0 (.plain [1, 2, 3] 8), .schedule (.plain .small), .updateFromOutput (.constant 5)]
    (fun s => (step Config.small Hashing.free s (.schedule (.plain .small))).isSome)
    (by decide +kernel)
  obtain ⟨s', hStep⟩ := Option.isSome_iff_exists.1 hHolds
  obtain ⟨output, hLast, hFits⟩ := (decodeBudget_exact run (.plain .small)).2 s' hStep
  exact ⟨s, s', output, run, hStep, hLast, hFits⟩

/-- The second chunk of a prompt is counted, though the batch has no decode. -/
theorem decodeBudget_counts_prefill : ∃ s locals, Reaches Config.small Hashing.free
    [.addRequest 0 (.plain (List.replicate 12 1) 4), .schedule (.plain .small),
      .updateFromOutput (.constant 5)] s ∧
    At Config.small Hashing.free (.plain .small) s .ran locals ∧
    locals.admitted = 1 ∧ locals.numDecodes = 0 := by
  obtain ⟨s, run, hHolds⟩ := Reaches.exists_of_any Config.small Hashing.free
    [.addRequest 0 (.plain (List.replicate 12 1) 4), .schedule (.plain .small),
      .updateFromOutput (.constant 5)]
    (fun s => decide ((s.budget Config.small (.plain .small)).hardCap ≠ 0) &&
      ((Locals.start Config.small (.plain .small) s).runningRound Config.small Hashing.free
        (.plain .small) (s.budget Config.small (.plain .small))).any fun
          | .stop locals => decide (locals.admitted = 1 ∧ locals.numDecodes = 0)
          | .more _ => false)
    (by decide +kernel)
  simp only [Bool.and_eq_true, decide_eq_true_eq, Option.any_eq_true] at hHolds
  obtain ⟨hCap, next, hRound, hNext⟩ := hHolds
  cases next with
  | more locals => cases hNext
  | stop locals =>
      simp only [decide_eq_true_eq] at hNext
      exact ⟨s, locals, run, .ran (.start hCap) hRound, hNext⟩

end VllmRbln.Scheduler
